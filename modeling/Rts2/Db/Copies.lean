import Rts2.Db.Constraints
import Rts2.Lib.Counted

/-! The copy constructor of a set of constraints, which are held by counted pointers. -/
namespace Rts2.Db

open Lib

def IntervalKind.getName : IntervalKind → String
  | .time => "time"
  | .airmass => "airmass"
  | .zenithDistance => "zenithDistance"
  | .HA => "HA"
  | .dec => "dec"
  | .altitude => "altitude"
  | .azimuth => "azimuth"
  | .lunarDistance => "lunarDistance"
  | .lunarAltitude => "lunarAltitude"
  | .lunarPhase => "lunarPhase"
  | .solarDistance => "solarDistance"
  | .sunAltitude => "sunAltitude"

def Constraint.getName : Constraint → String
  | .interval kind _ => kind.getName
  | .maxRepeat _ => "maxRepeats"

def createConstraint (name : String) : Option Constraint :=
  if name = "time" then some (.interval .time [])
  else if name = "airmass" then some (.interval .airmass [])
  else if name = "zenithDistance" then some (.interval .zenithDistance [])
  else if name = "HA" then some (.interval .HA [])
  else if name = "dec" then some (.interval .dec [])
  else if name = "altitude" then some (.interval .altitude [])
  else if name = "azimuth" then some (.interval .azimuth [])
  else if name = "lunarDistance" then some (.interval .lunarDistance [])
  else if name = "lunarAltitude" then some (.interval .lunarAltitude [])
  else if name = "lunarPhase" then some (.interval .lunarPhase [])
  else if name = "solarDistance" then some (.interval .solarDistance [])
  else if name = "sunAltitude" then some (.interval .sunAltitude [])
  else if name = "maxRepeats" then some (.maxRepeat (-1))
  else none

def copiedKinds : List IntervalKind :=
  [.time, .airmass, .zenithDistance, .HA, .dec, .lunarDistance, .lunarAltitude, .lunarPhase, .solarDistance, .sunAltitude]

def copyConstraint : Constraint → Constraint → Option Constraint
  | .interval kind intervals, .interval _ original =>
    if kind ∈ copiedKinds then some (.interval kind (intervals ++ original)) else none
  | .maxRepeat _, .maxRepeat original => some (.maxRepeat original)
  | .interval _ _, .maxRepeat _ => none
  | .maxRepeat _, .interval _ _ => none

abbrev Pointers := List (String × Nat)

def Pointers.addresses (cs : Pointers) : List Nat := cs.map (·.2)

def Pointers.constraints (h : Counted Constraint) (cs : Pointers) : List Constraint := cs.filterMap fun e => h.mem e.2

def Pointers.set (cs : Pointers) (name : String) (a : Nat) : Pointers :=
  cs.map fun e => if e.1 = name then (name, a) else e

def assign (h : Counted Constraint) (copy : Pointers) (name : String) (con : Constraint) :
    Counted Constraint × Pointers :=
  let h' := match copy.lookup name with
    | none => h.new con
    | some old => (h.new con).release old
  (h', copy.set name h.next)

def copyLoop (h : Counted Constraint) : Pointers → Pointers → Option (Counted Constraint × Pointers)
  | [], copy => some (h, copy)
  | (name, a) :: rest, copy =>
    match (createConstraint name).bind fun con => (h.mem a).bind (copyConstraint con) with
    | none => none
    | some con => copyLoop (assign h copy name con).1 rest (assign h copy name con).2

def copyConstraints (h : Counted Constraint) (cs : Pointers) : Option (Counted Constraint × Pointers) :=
  copyLoop (h.acquireAll cs.addresses) cs cs

def destroy (h : Counted Constraint) (cs : Pointers) : Counted Constraint := h.releaseAll cs.addresses

/-- A set as the loads and the arguments make it: each constraint is there under its name. -/
structure Named (h : Counted Constraint) (cs : Pointers) : Prop where
  names : (cs.map (·.1)).Nodup
  named : ∀ e ∈ cs, ∃ c, h.mem e.2 = some c ∧ c.getName = e.1

theorem createConstraint_interval (kind : IntervalKind) : createConstraint kind.getName = some (.interval kind []) := by
  cases kind with
  | _ => simp [createConstraint, IntervalKind.getName]

theorem createConstraint_maxRepeats : createConstraint "maxRepeats" = some (.maxRepeat (-1)) := by
  simp [createConstraint]

theorem copied_iff (kind : IntervalKind) :
    kind ∈ copiedKinds ↔ kind.getName ≠ "altitude" ∧ kind.getName ≠ "azimuth" := by
  cases kind with
  | _ => decide

theorem copied_self {c : Constraint} (not_alt : c.getName ≠ "altitude") (not_az : c.getName ≠ "azimuth") :
    (createConstraint c.getName).bind (copyConstraint · c) = some c := by
  cases c with
  | interval kind intervals =>
    have known : kind ∈ copiedKinds := (copied_iff kind).mpr ⟨not_alt, not_az⟩
    rw [Constraint.getName, createConstraint_interval, Option.bind_some, copyConstraint, if_pos known, List.nil_append]
  | maxRepeat n =>
    rw [Constraint.getName, createConstraint_maxRepeats]
    rfl

theorem not_copied {name : String} (unknown : name = "altitude" ∨ name = "azimuth") (original : Option Constraint) :
    ((createConstraint name).bind fun con => original.bind (copyConstraint con)) = none := by
  have no_copy (kind : IntervalKind) (not_known : kind ∉ copiedKinds) :
      original.bind (copyConstraint (.interval kind [])) = none := by
    cases original with
    | none => rfl
    | some c =>
      cases c with
      | interval _ _ => exact if_neg not_known
      | maxRepeat _ => rfl
  obtain rfl | rfl := unknown
  · exact no_copy .altitude (by decide)
  · exact no_copy .azimuth (by decide)

theorem copyLoop_none {todo : Pointers} (unknown : ∃ e ∈ todo, e.1 = "altitude" ∨ e.1 = "azimuth")
    (h : Counted Constraint) (copy : Pointers) : copyLoop h todo copy = none := by
  induction todo generalizing h copy with
  | nil => obtain ⟨e, there, _⟩ := unknown; cases there
  | cons e rest ih =>
    obtain ⟨name, a⟩ := e
    unfold copyLoop
    obtain ⟨e', there, is_unknown⟩ := unknown
    obtain rfl | later := List.mem_cons.mp there
    · rw [not_copied is_unknown]
    · cases (createConstraint name).bind fun con => (h.mem a).bind (copyConstraint con) with
      | none => rfl
      | some con => exact ih ⟨e', later, is_unknown⟩ _ _

section
variable {h : Counted Constraint} {others : List Nat}

theorem lookup_of_nodup {done rest : Pointers} {name : String} {a : Nat}
    (names : ((done ++ (name, a) :: rest).map (·.1)).Nodup) : (done ++ (name, a) :: rest).lookup name = some a := by
  induction done with
  | nil => exact List.lookup_cons_self
  | cons e done ih =>
    rw [List.cons_append, List.map_cons, List.nodup_cons] at names
    have other : e.1 ≠ name := fun same => names.1 (by simp [same])
    rw [List.cons_append, List.lookup_cons, beq_false_of_ne (Ne.symm other)]
    exact ih names.2

theorem set_of_not_mem {cs : Pointers} {name : String} (absent : name ∉ cs.map (·.1)) (b : Nat) : cs.set name b = cs := by
  unfold Pointers.set
  conv => rhs; rw [← List.map_id cs]
  refine List.map_congr_left fun e there => ?_
  have other : e.1 ≠ name := fun same => absent (same ▸ List.mem_map_of_mem there)
  exact if_neg other

theorem set_of_nodup {done rest : Pointers} {name : String} {a : Nat}
    (names : ((done ++ (name, a) :: rest).map (·.1)).Nodup) (b : Nat) :
    Pointers.set (done ++ (name, a) :: rest) name b = done ++ (name, b) :: rest := by
  rw [List.map_append, List.map_cons, List.nodup_append] at names
  obtain ⟨_, rest_names, apart⟩ := names
  have not_done : name ∉ done.map (·.1) := fun there => apart name there name List.mem_cons_self rfl
  have not_rest : name ∉ rest.map (·.1) := (List.nodup_cons.mp rest_names).1
  calc Pointers.set (done ++ (name, a) :: rest) name b
      = done.set name b ++ (name, b) :: rest.set name b := by simp [Pointers.set]
    _ = done ++ (name, b) :: rest := by rw [set_of_not_mem not_done, set_of_not_mem not_rest]

theorem copyLoop_spec {done todo : Pointers} (names : ((done ++ todo).map (·.1)).Nodup)
    (holds : h.Holds (Pointers.addresses (done ++ todo) ++ others))
    (named : ∀ e ∈ todo, e.2 ∈ others ∧ ∃ c, h.mem e.2 = some c ∧ c.getName = e.1)
    (known : ∀ e ∈ todo, e.1 ≠ "altitude" ∧ e.1 ≠ "azimuth") :
    ∃ h' made, copyLoop h todo (done ++ todo) = some (h', done ++ made) ∧
      h'.Holds (Pointers.addresses (done ++ made) ++ others) ∧
      (∀ a ∈ done.addresses ++ others, h'.mem a = h.mem a) ∧
      List.Forall₂ (fun e' e => e'.1 = e.1 ∧ h.next ≤ e'.2 ∧ h'.mem e'.2 = h'.mem e.2) made todo := by
  induction todo generalizing h done with
  | nil => exact ⟨h, [], by simp [copyLoop], by simpa using holds, fun _ _ => rfl, .nil⟩
  | cons e rest ih =>
    obtain ⟨name, a⟩ := e
    obtain ⟨⟨in_others, c, is_c, has_name⟩, rest_named⟩ := List.forall_mem_cons.mp named
    obtain ⟨⟨not_alt, not_az⟩, rest_known⟩ := List.forall_mem_cons.mp known
    simp only at in_others is_c has_name not_alt not_az
    have made_c : ((createConstraint name).bind fun con => (h.mem a).bind (copyConstraint con)) = some c := by
      rw [is_c, ← has_name]
      exact copied_self (has_name ▸ not_alt) (has_name ▸ not_az)
    -- the new object takes the place of the pointer to the old one
    have assigned : assign h (done ++ (name, a) :: rest) name c =
        ((h.new c).release a, (done ++ [(name, h.next)]) ++ rest) := by
      rw [assign, lookup_of_nodup names, set_of_nodup names, List.append_assoc]
      rfl
    have swapped : (h.new c).Holds (a :: (Pointers.addresses ((done ++ [(name, h.next)]) ++ rest) ++ others)) := by
      refine (holds.new c).perm ?_
      simp only [Pointers.addresses, List.map_append, List.map_cons, List.append_assoc,
        List.cons_append, List.nil_append]
      refine (List.Perm.cons _ List.perm_middle).trans ((List.Perm.swap _ _ _).trans (List.Perm.cons _ ?_))
      exact List.perm_middle.symm
    have fresh := holds.fresh
    have kept : ∀ b ∈ done.addresses ++ others, ((h.new c).release a).mem b = h.mem b := by
      intro b there
      have left : b ∈ Pointers.addresses ((done ++ [(name, h.next)]) ++ rest) ++ others := by
        simp only [Pointers.addresses, List.map_append, List.mem_append] at there ⊢
        tauto
      have other : b ≠ h.next := by
        rintro rfl
        refine fresh ?_
        simp only [Pointers.addresses, List.map_append, List.mem_append] at there ⊢
        tauto
      rw [Counted.release_mem swapped left]
      exact Function.update_of_ne other _ _
    have new_c : ((h.new c).release a).mem h.next = some c := by
      rw [Counted.release_mem swapped (by simp [Pointers.addresses])]
      exact Function.update_self _ _ _
    have names' : (((done ++ [(name, h.next)]) ++ rest).map (·.1)).Nodup := by simpa using names
    obtain ⟨h', made, looped, held, same, made_of⟩ := ih names' swapped.release
      (fun e there => by
        obtain ⟨in_, c', is_c', has⟩ := rest_named e there
        exact ⟨in_, c', (kept e.2 (List.mem_append_right _ in_)).trans is_c', has⟩) rest_known
    refine ⟨h', (name, h.next) :: made, ?_, ?_, ?_, .cons ⟨rfl, le_refl _, ?_⟩ ?_⟩
    · unfold copyLoop
      rw [made_c]
      simp only [assigned]
      rw [looped, List.append_assoc]
      rfl
    · rw [List.append_assoc] at held
      exact held
    · intro b there
      have there' : b ∈ Pointers.addresses (done ++ [(name, h.next)]) ++ others := by
        simp only [Pointers.addresses, List.map_append, List.mem_append] at there ⊢
        tauto
      exact (same b there').trans (kept b there)
    · rw [same h.next (by simp [Pointers.addresses]), new_c, same a (List.mem_append_right _ in_others),
        kept a (List.mem_append_right _ in_others), is_c]
    · exact made_of.imp fun e' e made_e => ⟨made_e.1, (Nat.le_succ _).trans made_e.2.1, made_e.2.2⟩

end

/-- The copy satisfies as the original does, and changes and the end of one leave the other. -/
structure CopyOf (h : Counted Constraint) (cs : Pointers) (h' : Counted Constraint) (copy : Pointers) : Prop where
  agrees : ∀ sky tar JD,
    Constraints.satisfy sky tar JD (copy.constraints h') = Constraints.satisfy sky tar JD (cs.constraints h)
  kept : cs.constraints h' = cs.constraints h
  apart : ∀ a ∈ copy.addresses, a ∉ cs.addresses
  changed : ∀ a ∈ copy.addresses, ∀ c, cs.constraints (h'.write a c) = cs.constraints h'
  original_changed : ∀ a ∈ cs.addresses, ∀ c, copy.constraints (h'.write a c) = copy.constraints h'
  destroyed : cs.constraints (destroy h' copy) = cs.constraints h'
  original_destroyed : copy.constraints (destroy h' cs) = copy.constraints h'

def CopyFaithful (h : Counted Constraint) (cs : Pointers) : Prop :=
  ∃ h' copy, copyConstraints h cs = some (h', copy) ∧ CopyOf h cs h' copy

theorem constraints_congr {h h' : Counted Constraint} {cs : Pointers} (same : ∀ a ∈ cs.addresses, h'.mem a = h.mem a) :
    cs.constraints h' = cs.constraints h :=
  List.filterMap_congr fun e there => same e.2 (List.mem_map_of_mem there)

theorem constraints_of_made {h : Counted Constraint} {next : Nat} {made todo : Pointers}
    (made_of : List.Forall₂ (fun e' e => e'.1 = e.1 ∧ next ≤ e'.2 ∧ h.mem e'.2 = h.mem e.2) made todo) :
    made.constraints h = todo.constraints h := by
  induction made_of with
  | nil => rfl
  | cons made_e _ ih =>
    unfold Pointers.constraints at ih ⊢
    rw [List.filterMap_cons, List.filterMap_cons, made_e.2.2, ih]

theorem constraints_write {h : Counted Constraint} {cs : Pointers} {a : Nat} (absent : a ∉ cs.addresses) (c : Constraint) :
    cs.constraints (h.write a c) = cs.constraints h := by
  refine constraints_congr fun b there => ?_
  have other : b ≠ a := fun same => absent (same ▸ there)
  exact Function.update_of_ne other _ _

theorem copyFaithful_iff {h : Counted Constraint} {cs : Pointers} {others : List Nat}
    (holds : h.Holds (cs.addresses ++ others)) (named : Named h cs) :
    CopyFaithful h cs ↔ ∀ e ∈ cs, e.1 ≠ "altitude" ∧ e.1 ≠ "azimuth" := by
  constructor
  · rintro ⟨h', copy, copied, _⟩ e there
    by_contra unknown
    have ends := copyLoop_none ⟨e, there, by tauto⟩ (h.acquireAll cs.addresses) cs
    rw [copyConstraints, ends] at copied
    cases copied
  · intro known
    have acquired : (h.acquireAll cs.addresses).Holds (cs.addresses ++ (cs.addresses ++ others)) :=
      holds.acquireAll fun a there => List.mem_append_left _ there
    obtain ⟨h', copy, looped, held, same, made_of⟩ := copyLoop_spec (h := h.acquireAll cs.addresses)
      (show (([] ++ cs : Pointers).map (·.1)).Nodup from named.names) acquired (fun e there => by
        rw [Counted.acquireAll_mem]
        exact ⟨List.mem_append_left _ (List.mem_map_of_mem there), named.named e there⟩) known
    simp only [Counted.acquireAll_mem, Counted.acquireAll_next] at same made_of
    rw [List.nil_append] at held
    have fresh : ∀ a ∈ copy.addresses, h.next ≤ a := by
      have made_fresh := made_of.imp fun e' e made_e => (⟨made_e.2.1, made_e.1⟩ : h.next ≤ e'.2 ∧ e'.1 = e.1)
      intro a there
      obtain ⟨e', in_copy, rfl⟩ := List.mem_map.mp there
      exact ((List.forall₂_and_left _ _).mp made_fresh).1 e' in_copy
    have apart : ∀ a ∈ copy.addresses, a ∉ cs.addresses := fun a there in_cs =>
      absurd (holds.allocated a (List.mem_append_left _ in_cs)) (not_lt.mpr (fresh a there))
    have kept : cs.constraints h' = cs.constraints h :=
      constraints_congr fun a there => same a (List.mem_append_right _ (List.mem_append_left _ there))
    have held_last : h'.Holds (cs.addresses ++ (copy.addresses ++ others)) := held.perm (by
      rw [← List.append_assoc, ← List.append_assoc]
      exact List.perm_append_comm.append_right others)
    refine ⟨h', copy, looped, ?_, kept, apart, ?_, ?_, ?_, ?_⟩
    · intro sky tar JD
      rw [constraints_of_made made_of, kept]
    · exact fun a there c => constraints_write (apart a there) c
    · exact fun a there c => constraints_write (fun in_copy => apart a in_copy there) c
    · exact constraints_congr fun a there => Counted.releaseAll_mem held (List.mem_append_left _ there)
    · exact constraints_congr fun a there => Counted.releaseAll_mem held_last (List.mem_append_left _ there)

end Rts2.Db
