import Rts2.Teld.SafeTargets

/-! The plans that findPath gives: their targets, and the way along them. -/
namespace Rts2.Teld

open Lib

namespace D50Path

variable {K : Type} [Field K] [LinearOrder K] [FloorRing K] {p : D50Path K}

section

variable {acStart dcStart acFin dcFin : Int}

theorem chain_eq {parent : Nat → Option Nat} {start v : Nat} {path : List Nat}
    (trail : Search.Trail parent start v path) (root : parent start = none) {fuel : Nat}
    (enough : path.length ≤ fuel) : chain parent fuel v = path := by
  induction trail generalizing fuel with
  | start =>
    cases fuel with
    | zero => simp at enough
    | succ fuel => rw [chain, root]
  | @next u v path _ link _ ih =>
    cases fuel with
    | zero => simp at enough
    | succ fuel =>
      rw [chain, link]
      simp only [ih (Nat.le_of_succ_le_succ enough)]

theorem lastDirect_spec {u w : Nat} {vs ws : List Nat}
    (found : p.lastDirect acStart dcStart acFin dcFin u vs = some (w, ws)) :
    0 < p.passage acStart dcStart acFin dcFin u w ∧ ∃ pre, vs = pre ++ w :: ws := by
  induction vs with
  | nil => cases found
  | cons v vs ih =>
    rw [lastDirect] at found
    split at found
    · rename_i later before
      cases found
      obtain ⟨accepted, pre, rfl⟩ := ih before
      exact ⟨accepted, v :: pre, rfl⟩
    · split at found
      · rename_i accepted
        cases found
        exact ⟨accepted, [], rfl⟩
      · cases found

variable (acStart dcStart acFin dcFin) in
theorem points_spec {u fuel : Nat} {vs : List Nat} (enough : vs.length ≤ fuel) :
    (∀ w ∈ p.points acStart dcStart acFin dcFin u fuel vs, w ∈ vs) ∧
      (p.points acStart dcStart acFin dcFin u fuel vs).getLast? = vs.getLast? ∧
      ((∀ v ∈ vs.head?, 0 < p.passage acStart dcStart acFin dcFin u v) →
        ∀ w ∈ (p.points acStart dcStart acFin dcFin u fuel vs).head?,
          0 < p.passage acStart dcStart acFin dcFin u w) := by
  induction fuel generalizing u vs with
  | zero =>
    rw [List.length_eq_zero_iff.mp (Nat.le_zero.mp enough)]
    exact ⟨fun _ mem => mem, rfl, fun all => all⟩
  | succ fuel ih =>
    cases vs with
    | nil => exact ⟨fun _ mem => mem, rfl, fun all => all⟩
    | cons v vs =>
      have next (w : Nat) (ws pre : List Nat) (same : v :: vs = pre ++ w :: ws)
          (turn : p.points acStart dcStart acFin dcFin u (fuel + 1) (v :: vs) =
            w :: p.points acStart dcStart acFin dcFin w fuel ws) :
          (∀ x ∈ p.points acStart dcStart acFin dcFin u (fuel + 1) (v :: vs), x ∈ v :: vs) ∧
            (p.points acStart dcStart acFin dcFin u (fuel + 1) (v :: vs)).getLast? =
              (v :: vs).getLast? := by
        have shorter := congrArg List.length same
        simp only [List.length_cons, List.length_append] at shorter enough
        obtain ⟨inside, last, _⟩ := ih (u := w) (by omega : ws.length ≤ fuel)
        rw [turn, same]
        refine ⟨fun x mem => List.mem_append_right _ ?_, ?_⟩
        · rcases List.mem_cons.mp mem with rfl | mem
          · exact List.mem_cons_self
          · exact List.mem_cons_of_mem _ (inside x mem)
        · rw [List.getLast?_append, List.getLast?_cons, List.getLast?_cons, last]
          rfl
      cases direct : p.lastDirect acStart dcStart acFin dcFin u vs with
      | none =>
        have turn : p.points acStart dcStart acFin dcFin u (fuel + 1) (v :: vs) =
            v :: p.points acStart dcStart acFin dcFin v fuel vs := by
          rw [points, direct]
          rfl
        obtain ⟨inside, last⟩ := next v vs [] rfl turn
        refine ⟨inside, last, fun all w mem => ?_⟩
        rw [turn] at mem
        exact all w mem
      | some found =>
        obtain ⟨w, ws⟩ := found
        obtain ⟨accepted, pre, same⟩ := lastDirect_spec direct
        have turn : p.points acStart dcStart acFin dcFin u (fuel + 1) (v :: vs) =
            w :: p.points acStart dcStart acFin dcFin w fuel ws := by
          rw [points, direct]
          rfl
        obtain ⟨inside, last⟩ := next w ws (v :: pre) (by rw [same]; rfl) turn
        refine ⟨inside, last, fun _ x mem => ?_⟩
        rw [turn] at mem
        cases mem
        exact accepted

theorem length_le_of_bound {path : List Nat} (nodup : path.Nodup) {bound : Nat}
    (inside : ∀ x ∈ path, x ≤ bound) : path.length ≤ bound + 1 := by
  have fits := (nodup.subperm fun x mem =>
    List.mem_range.mpr (Nat.lt_succ_of_le (inside x mem))).length_le
  rwa [List.length_range] at fits

theorem findPathOnGrid_spec {fuel : Nat} {plan : Plan K}
    (found : p.findPathOnGrid acStart dcStart acFin dcFin fuel = some (some plan))
    (safe : p.checkRawPosition acFin dcFin = true) :
    plan.targets.getLast? = some (acFin, dcFin) ∧
      (∀ target ∈ plan.targets, p.checkRawPosition target.1 target.2 = true) ∧
      p.Followed (atRest acStart dcStart) plan.targets plan.intervals ∧
      plan.intervals.length ≤ MAX_NUMBER_OF_SUCCESSIVE_POINTS ∧
      (p.checkPassage (atRest acStart dcStart) acFin dcFin ≤ 0 → 1 < plan.targets.length) := by
  obtain ⟨s, search, found⟩ := Option.map_eq_some_iff.mp found
  set grid := p.grid acStart dcStart acFin dcFin with grid_eq
  obtain ⟨s', gives, root, trails, links, _⟩ := grid.exists_searched
  obtain rfl : s = s' :=
    gives.eq (fun fuel s => Search.run_more grid.graph fuel (Search.start grid.graph) s) search
  split at found
  · cases found
  · rename_i linked
    have at_start : p.pos acStart dcStart acFin dcFin grid.START = (acStart, dcStart) := if_pos rfl
    have at_target : p.pos acStart dcStart acFin dcFin grid.TARGET = (acFin, dcFin) :=
      (if_neg (Nat.succ_ne_self _)).trans (if_pos rfl)
    obtain ⟨path, trail⟩ := trails grid.TARGET (Option.isSome_iff_ne_none.mpr linked)
    obtain ⟨rest, reversed, members, first, last⟩ := trail.reverse
    have inner {v : Nat} (mem : v ∈ rest) : v ≤ grid.TARGET ∧
        p.checkRawPosition (p.pos acStart dcStart acFin dcFin v).1
          (p.pos acStart dcStart acFin dcFin v).2 = true := by
      obtain ⟨u, link⟩ := Option.isSome_iff_exists.mp (members v mem)
      obtain ⟨allowed, _, checked⟩ := links u v link
      refine ⟨?_, ?_⟩
      · cases allowed with
        | target => exact le_refl _
        | start at_ => exact (Grid.cell_lt at_).le.trans (Nat.le_succ _)
        | neighbour _ at_ => exact (Grid.cell_lt at_).le.trans (Nat.le_succ _)
      · rcases checked with rfl | checked
        · rw [at_target]
          exact safe
        · exact checked
    have whole : chain s.parent (grid.TARGET + 1) grid.TARGET = path := by
      refine chain_eq trail root (length_le_of_bound trail.nodup fun x mem => ?_)
      have mem' : x ∈ grid.START :: rest := reversed ▸ List.mem_reverse.mpr mem
      rcases List.mem_cons.mp mem' with rfl | mem'
      · exact Nat.le_succ _
      · exact (inner mem').1
    rw [whole, reversed] at found
    change (if MAX_NUMBER_OF_SUCCESSIVE_POINTS <
        (p.points acStart dcStart acFin dcFin grid.START (grid.START :: rest).length rest).length - 1
      then none else _) = some plan at found
    split at found
    · cases found
    · rename_i few
      obtain ⟨intervals, planned, rfl⟩ := Option.map_eq_some_iff.mp found
      simp only [List.tail_cons] at planned ⊢
      have enough : rest.length ≤ (grid.START :: rest).length := Nat.le_succ _
      obtain ⟨inside, same_last, direct⟩ := p.points_spec acStart dcStart acFin dcFin (u := grid.START) enough
      set points := p.points acStart dcStart acFin dcFin grid.START (grid.START :: rest).length rest
        with points_eq
      have some_rest : rest ≠ [] := by
        rintro rfl
        have here : grid.START = grid.TARGET := Option.some.inj last
        exact absurd here.symm (Nat.succ_ne_self _)
      have last_point : points.getLast? = some grid.TARGET := by
        rw [same_last, ← last]
        cases rest with
        | nil => exact absurd rfl some_rest
        | cons v vs => rw [List.getLast?_cons_cons]
      have accepted : ∀ w ∈ points.head?, 0 < p.passage acStart dcStart acFin dcFin grid.START w := by
        refine direct fun v mem => ?_
        obtain ⟨allowed, _⟩ := links grid.START v (first v mem)
        cases allowed with
        | target _ passage => exact passage
        | start _ _ _ passage => exact passage
        | neighbour from_ => exact absurd (Grid.cell_lt from_) (lt_irrefl _)
      have goes (w : Nat) : p.passage acStart dcStart acFin dcFin grid.START w =
          p.checkPassage (atRest acStart dcStart) (p.pos acStart dcStart acFin dcFin w).1
            (p.pos acStart dcStart acFin dcFin w).2 := by
        rw [passage, at_start]
      cases shape : points with
      | nil =>
        rw [shape] at last_point
        cases last_point
      | cons w ws =>
        have reached := accepted w (by rw [shape]; rfl)
        rw [goes] at reached
        rw [shape, List.map_cons] at planned
        have followed := planIntervals_followed reached planned
        have count := followed.length
        rw [List.length_cons, List.length_map] at count
        rw [shape] at last_point few inside
        refine ⟨?_, fun target mem => ?_, followed, ?_, fun refused => ?_⟩
        · rw [List.getLast?_map, last_point, Option.map_some, at_target]
        · obtain ⟨v, listed, rfl⟩ := List.mem_map.mp mem
          exact (inner (inside v listed)).2
        · rw [List.length_cons] at few
          omega
        · cases ws with
          | nil =>
            have here : w = grid.TARGET := Option.some.inj last_point
            rw [here, at_target] at reached
            exact absurd reached (not_lt.mpr refused)
          | cons x xs =>
            rw [List.length_map, List.length_cons, List.length_cons]
            omega

end

section

variable {acStart dcStart acFin dcFin : Int}

def TwoSteps (acStart dcStart acFin dcFin : Int) (plan : Plan K) : Prop :=
  ∃ mid interval, (mid = (acFin, dcStart) ∨ mid = (acStart, dcFin)) ∧
    plan = ⟨[mid, (acFin, dcFin)], [interval]⟩

def EndPasses (p : D50Path K) (s : Switch K) (toAC toDC : Int) : Prop :=
  0 ≤ p.computeFullMovementTime s toAC toDC →
    p.checkRawPosition (p.positionAt s toAC toDC (p.computeFullMovementTime s toAC toDC)).1
      (p.positionAt s toAC toDC (p.computeFullMovementTime s toAC toDC)).2 = true

/-- What the plan is good for. -/
structure Safe (p : D50Path K) (acStart dcStart acFin dcFin : Int) (plan : Plan K) : Prop where
  few : plan.intervals.length ≤ MAX_NUMBER_OF_SUCCESSIVE_POINTS
  count : plan.targets.length = plan.intervals.length + 1
  last : plan.targets.getLast? = some (acFin, dcFin)
  checked : ∀ target ∈ plan.targets,
    p.checkRawPosition target.1 target.2 = true ∨
      TwoSteps acStart dcStart acFin dcFin plan ∧ plan.targets.head? = some target ∧
        p.EndPasses (atRest acStart dcStart) target.1 target.2
  followed : p.Followed (atRest acStart dcStart) plan.targets plan.intervals

variable [IsStrictOrderedRing K]

omit [FloorRing K] in
theorem twoSteps_safe {midAC midDC : Int} {plan : Plan K}
    (found : p.twoSteps acStart dcStart acFin dcFin midAC midDC = some plan)
    (mid : (midAC, midDC) = (acFin, dcStart) ∨ (midAC, midDC) = (acStart, dcFin))
    (safe : p.checkRawPosition acFin dcFin = true) : p.Safe acStart dcStart acFin dcFin plan := by
  obtain ⟨interval, rfl, followed⟩ := twoSteps_spec found
  refine ⟨Nat.le_add_left 1 19, rfl, rfl, fun target mem => ?_, followed⟩
  rcases List.mem_cons.mp mem with rfl | mem
  · exact .inr ⟨⟨_, interval, mid, rfl⟩, rfl, fun lasts => checkPassage_end lasts followed.1⟩
  · rw [List.mem_singleton.mp mem]
    exact .inl safe

/-- Every plan that is found is safe, but for the check of the first target of a plan with one
successive point. -/
theorem findPath_safe (p : D50Path K) (acStart dcStart acFin dcFin : Int) (fuel : Nat) (plan : Plan K)
    (found : p.findPath acStart dcStart acFin dcFin fuel = some (some plan)) :
    p.Safe acStart dcStart acFin dcFin plan := by
  rw [findPath] at found
  split at found
  · cases found
  · rename_i checked
    have safe : p.checkRawPosition acFin dcFin = true := by simpa using checked
    split at found
    · rename_i accepted
      cases found
      refine ⟨Nat.zero_le _, rfl, rfl, fun target mem => .inl ?_, accepted⟩
      rw [List.mem_singleton.mp mem]
      exact safe
    · split at found
      · rename_i first
        cases found
        exact twoSteps_safe first (.inl rfl) safe
      · split at found
        · rename_i second
          cases found
          exact twoSteps_safe second (.inr rfl) safe
        · obtain ⟨last, checked, followed, few, _⟩ := findPathOnGrid_spec found safe
          exact ⟨few, followed.length, last, fun target mem => .inl (checked target mem), followed⟩

/-- A mount with HA axis that starts to move with a target behind it only: HA first passes over the
position that is not good. -/
def skewed : D50Path ℚ where
  movement :=
    { time := fun _ fromCount toCount _ => if fromCount = toCount then 0 else 1000
      position := fun isDec fromCount toCount v0 _ => if isDec ∨ v0 ≠ 0 then toCount else fromCount
      speed := fun isDec _ _ _ _ => if isDec then 0 else 1 }
  decel := fun _ => 1
  good := fun ac dc => ac = dc
  sunDistance := fun _ _ => none
  margin := fun _ _ _ => 1
  haCpd := 1
  decCpd := 1
  acMin := -10
  acMax := 10
  dcMin := -5
  dcMax := 5

theorem findPath_skewed :
    skewed.Safe 0 0 1 1 ⟨[(1, 0), (1, 1)], [1]⟩ :=
  findPath_safe skewed 0 0 1 1 0 _ (by decide +kernel)

theorem skewed_target_unchecked :
    skewed.findPath 0 0 1 1 0 = some (some ⟨[(1, 0), (1, 1)], [1]⟩) ∧
      skewed.checkRawPosition 1 0 = false := by
  decide +kernel

end

end D50Path

end Rts2.Teld
