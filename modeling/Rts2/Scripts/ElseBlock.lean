import Rts2.Scripts.Acquired

/-! When the block of else plays what its elements play inline. -/
namespace Rts2.Scripts

variable {F G : Type}

namespace Operand

def isNumeric : Operand F → Bool
  | .number _ => true
  | .string _ => false
  | .randomNumber _from _to => _from.isNumeric && _to.isNumeric

def throws : Operand F → Bool
  | .randomNumber _from _to => !(_from.isNumeric && _to.isNumeric)
  | _ => false

variable [Add F] [Sub F] [Mul F] [ToString F] (random_num : G → F × G)

omit [ToString F] in
theorem getDouble_isSome (g : G) (operand : Operand F) :
    (operand.getDouble random_num g).1.isSome = operand.isNumeric := by
  induction operand generalizing g with
  | number val => rfl
  | string str => rfl
  | randomNumber _from _to ih_from ih_to =>
    have lower := ih_from g
    rw [getDouble, isNumeric, ← lower]
    cases from_val : _from.getDouble random_num g with
    | mk val after =>
    cases val with
    | none => rfl
    | some val =>
      have upper := ih_to after
      rw [← upper]
      cases to_val : _to.getDouble random_num after with
      | mk val after => cases val <;> simp [to_val]

theorem writeTo_isSome (g : G) (operand : Operand F) :
    (operand.writeTo random_num g).1.isSome = !operand.throws := by
  cases operand with
  | number val => rfl
  | string str => rfl
  | randomNumber _from _to =>
    have numeric := getDouble_isSome random_num g (.randomNumber _from _to)
    simpa [writeTo, throws, isNumeric] using numeric

theorem writeAll_isSome (g : G) (operands : List (Operand F)) :
    (writeAll random_num g operands).1.isSome = !operands.any throws := by
  induction operands generalizing g with
  | nil => rfl
  | cons operand operands ih =>
    have first := operand.writeTo_isSome random_num g
    cases operands with
    | nil => simpa [writeAll] using first
    | cons second operands =>
      cases written : operand.writeTo random_num g with
      | mk text after =>
      rw [written] at first
      cases text with
      | none =>
        have throws_first : operand.throws = true := by simpa using first
        simp [writeAll, written, throws_first]
      | some text =>
        have later := ih after
        have quiet : operand.throws = false := by simpa using first
        simpa [writeAll, written, quiet] using later

end Operand

namespace CameraElement

def throws : CameraElement F → Bool
  | .changeValue _ _ _ operands => operands.any Operand.throws
  | _ => false

variable [Add F] [Sub F] [Mul F] [ToString F] (random_num : G → F × G) (defaultDevice : String)

theorem nextCommand_throws {e : CameraElement F} (good : e.Good) (thrown : e.throws = true)
    (camera : Camera) (g : G) :
    ∃ g', e.nextCommand random_num defaultDevice camera g = (⟨none, none, none⟩, g', e) := by
  cases e with
  | changeValue deviceName valName op operands =>
    obtain ⟨operator, some_operand⟩ := good
    obtain ⟨op, rfl⟩ := Option.isSome_iff_exists.mp operator
    obtain ⟨operand, operands, rfl⟩ := List.exists_cons_of_ne_nil some_operand
    have nothing := Operand.writeAll_isSome random_num g (operand :: operands)
    rw [show (operand :: operands).any Operand.throws = true from thrown] at nothing
    cases written : Operand.writeAll random_num g (operand :: operands) with
    | mk text after =>
    rw [written] at nothing
    cases text with
    | none => exact ⟨after, by simp only [nextCommand, written]⟩
    | some text => cases nothing
  | _ => cases thrown

theorem nextCommand_quiet {e : CameraElement F} (good : e.Good) (quiet : e.throws = false)
    (camera : Camera) (g : G) :
    (e.nextCommand random_num defaultDevice camera g).1.ret ≠ none ∧
      (e.nextCommand random_num defaultDevice camera g).2.2.throws = false := by
  cases e with
  | changeValue deviceName valName op operands =>
    obtain ⟨operator, some_operand⟩ := good
    obtain ⟨op, rfl⟩ := Option.isSome_iff_exists.mp operator
    obtain ⟨operand, operands, rfl⟩ := List.exists_cons_of_ne_nil some_operand
    have written := Operand.writeAll_isSome random_num g (operand :: operands)
    rw [show (operand :: operands).any Operand.throws = false from quiet] at written
    obtain ⟨text, some_text⟩ := Option.isSome_iff_exists.mp written
    cases all : Operand.writeAll random_num g (operand :: operands) with
    | mk text' after =>
    rw [all] at some_text
    cases some_text
    simp only [nextCommand, all]
    exact ⟨by simp, quiet⟩
  | _ => exact ⟨by simp [nextCommand], rfl⟩

end CameraElement

def cut : List (CameraElement F) → List (CameraElement F)
  | [] => []
  | e :: es => if e.throws then [e] else e :: cut es

theorem any_cut (es : List (CameraElement F)) :
    (cut es).any CameraElement.throws = es.any CameraElement.throws := by
  induction es with
  | nil => rfl
  | cons e es ih => cases thrown : e.throws <;> simp [cut, thrown, ih]

theorem cut_append (es fs : List (CameraElement F)) :
    cut (es ++ fs) = if es.any CameraElement.throws then cut es else cut es ++ cut fs := by
  induction es with
  | nil => rfl
  | cons e es ih =>
    cases thrown : e.throws with
    | true => simp [cut, thrown]
    | false =>
      simp only [List.cons_append, cut, thrown, ih, List.any_cons, Bool.false_or, Bool.false_eq_true,
        if_false]
      split <;> rfl

theorem cut_append_congr {es es' : List (CameraElement F)} (same : cut es = cut es')
    (fs : List (CameraElement F)) : cut (es ++ fs) = cut (es' ++ fs) := by
  rw [cut_append, cut_append, ← any_cut es, ← any_cut es', same]

theorem listAnswers_cut [Add F] [Sub F] [Mul F] [ToString F] (random_num : G → F × G)
    (defaultDevice : String) (cameras : List Camera) (g : G) {es : List (CameraElement F)}
    (good : ∀ e ∈ es, e.Good) :
    listAnswers random_num defaultDevice cameras g es =
      listAnswers random_num defaultDevice cameras g (cut es) := by
  induction cameras generalizing g es with
  | nil => rfl
  | cons camera cameras ih =>
    cases es with
    | nil => rfl
    | cons e es =>
      obtain ⟨good_e, good_es⟩ := List.forall_mem_cons.mp good
      cases thrown : e.throws with
      | true =>
        obtain ⟨g', played⟩ := e.nextCommand_throws random_num defaultDevice good_e thrown camera g
        have again := ih g' good
        simp only [cut, thrown, if_true] at again ⊢
        simp only [listAnswers, playList, played, reduceCtorEq, if_false, again]
      | false =>
        obtain ⟨-, quiet⟩ := e.nextCommand_quiet random_num defaultDevice good_e thrown camera g
        cases played : e.nextCommand random_num defaultDevice camera g with
        | mk answer after =>
        obtain ⟨g', e'⟩ := after
        rw [played] at quiet
        have good_e' : e'.Good := by
          rcases e.nextCommand_cases random_num defaultDevice camera g good_e played with
            ⟨-, rfl⟩ | ⟨-, good', -⟩
          · exact CameraElement.good_fresh good_e
          · exact good'
        by_cases ends : answer.ret = some 0
        · simp only [cut, thrown, Bool.false_eq_true, if_false, listAnswers, playList, played, ends,
            if_true, ih g' good_es]
        · have good_after : ∀ e ∈ e' :: es, e.Good := List.forall_mem_cons.mpr ⟨good_e', good_es⟩
          have kept := ih g' good_after
          simp only [cut, quiet, Bool.false_eq_true, if_false] at kept
          simp only [cut, thrown, Bool.false_eq_true, if_false, listAnswers, playList, played, ends,
            kept]

namespace Element

inductive Quiet : Element F → Prop
  | single {e : CameraElement F} (quiet : e.throws = false) : Quiet (.single e)
  | elementFor {b : ElementFor (Element F)} (quiet : ∀ e ∈ b.blockElements, Quiet e) :
      Quiet (.elementFor b)

/-- What the calls of any device play of an element: only value changes and commands, and a block
at least once. Of an empty block it is not known. -/
def elsePlayed : Element F → List (Option (CameraElement F))
  | .single e => if e.isGeneric then [some e] else []
  | .elementFor ⟨max, blockElements, _, _⟩ =>
    if blockElements.isEmpty then [none]
    else (List.replicate (Max.max 1 max).toNat (blockElements.flatMap elsePlayed)).flatten

def played : List (Option (CameraElement F)) → List (Option (CameraElement F))
  | [] => []
  | none :: _ => [none]
  | some e :: es => if e.throws then [some e] else some e :: played es

def PlaysInline (B : List (Element F)) : Prop :=
  played (B.flatMap elsePlayed) = played ((B.flatMap unroll).map some)

def orStuck (e : Option (CameraElement F)) : CameraElement F := e.getD .stuck

theorem stuck_throws : (CameraElement.stuck : CameraElement F).throws = true := rfl

theorem cut_orStuck (es : List (Option (CameraElement F))) :
    cut (es.map orStuck) = (played es).map orStuck := by
  induction es with
  | nil => rfl
  | cons e es ih =>
    cases e with
    | none => simp [played, cut, orStuck, stuck_throws]
    | some e => cases thrown : e.throws <;> simp [played, cut, orStuck, thrown, ih]

theorem unroll_asGeneric {e : Element F} (parsed : e.Parsed) :
    e.asGeneric.unroll = e.elsePlayed.map orStuck := by
  induction parsed with
  | @single e parsed =>
    rw [asGeneric, elsePlayed]
    split
    · simp [unroll, orStuck]
    · simp [unroll]
  | @elementFor max blockElements parsed ih =>
    rw [asGeneric, elsePlayed]
    split
    · simp [unroll, orStuck]
    · have block : (blockElements.map asGeneric).flatMap unroll =
          (blockElements.flatMap elsePlayed).map orStuck := by
        rw [List.flatMap_map, List.map_flatMap]
        exact List.flatMap_congr ih
      rw [unroll, block, List.map_flatten, List.map_replicate]

theorem flatMap_asGeneric {B : List (Element F)} (parsed : ∀ e ∈ B, e.Parsed) :
    (B.map asGeneric).flatMap unroll = (B.flatMap elsePlayed).map orStuck := by
  rw [List.flatMap_map, List.map_flatMap]
  exact List.flatMap_congr fun e mem => unroll_asGeneric (parsed e mem)

theorem cut_of_playsInline {B : List (Element F)} (parsed : ∀ e ∈ B, e.Parsed)
    (same : PlaysInline B) : cut ((B.map asGeneric).flatMap unroll) = cut (B.flatMap unroll) := by
  have inline : ((B.flatMap unroll).map some).map orStuck = B.flatMap unroll := by
    simp [Function.comp_def, orStuck]
  rw [flatMap_asGeneric parsed, cut_orStuck, same, ← cut_orStuck, inline]

def Covers (inline : List (CameraElement F)) (other : List (Option (CameraElement F))) : Prop :=
  inline.length ≤ other.length ∧ (inline.length = other.length → other = inline.map some)

theorem Covers.none (other : List (Option (CameraElement F))) : Covers [] other :=
  ⟨Nat.zero_le _, fun same => List.length_eq_zero_iff.mp same.symm⟩

theorem Covers.append {inline inline' : List (CameraElement F)}
    {other other' : List (Option (CameraElement F))} (first : Covers inline other)
    (second : Covers inline' other') : Covers (inline ++ inline') (other ++ other') := by
  obtain ⟨less, same⟩ := first
  obtain ⟨less', same'⟩ := second
  refine ⟨by simp only [List.length_append]; omega, fun length => ?_⟩
  simp only [List.length_append] at length
  rw [same (by omega), same' (by omega), List.map_append]

theorem Covers.flatMap {es : List (Element F)} (covers : ∀ e ∈ es, Covers e.unroll e.elsePlayed) :
    Covers (es.flatMap unroll) (es.flatMap elsePlayed) := by
  induction es with
  | nil => exact .none _
  | cons e es ih =>
    obtain ⟨first, rest⟩ := List.forall_mem_cons.mp covers
    exact first.append (ih rest)

theorem Covers.replicate {inline : List (CameraElement F)}
    {other : List (Option (CameraElement F))} (covers : Covers inline other) (n : Nat) :
    Covers (List.replicate n inline).flatten (List.replicate n other).flatten := by
  induction n with
  | zero => exact .none _
  | succ n ih => exact covers.append ih

theorem unroll_covers {e : Element F} (parsed : e.Parsed)
    (generic : ∀ l ∈ e.unroll, l.isGeneric = true) : Covers e.unroll e.elsePlayed := by
  induction parsed with
  | @single e parsed =>
    have plays : e.isGeneric = true := generic e (by simp [unroll])
    rw [unroll, elsePlayed, if_pos plays]
    exact ⟨le_rfl, fun _ => rfl⟩
  | @elementFor max blockElements parsed ih =>
    rw [unroll]
    by_cases never : max.toNat = 0
    · rw [never]
      exact .none _
    · have loops : (Max.max 1 max).toNat = max.toNat := by omega
      cases blockElements with
      | nil =>
        rw [List.flatMap_nil, List.flatten_replicate_nil]
        exact .none _
      | cons first others =>
        rw [elsePlayed, if_neg (by simp), loops]
        refine (Covers.flatMap fun e mem => ih e mem fun l listed => generic l ?_).replicate _
        rw [unroll]
        refine List.mem_flatten.mpr ⟨_, List.mem_replicate.mpr ⟨never, rfl⟩, ?_⟩
        exact List.mem_flatMap.mpr ⟨e, mem, listed⟩

theorem elsePlayed_generic {e : Element F} (parsed : e.Parsed) (quiet : e.Quiet)
    {l : CameraElement F} (mem : some l ∈ e.elsePlayed) :
    l.isGeneric = true ∧ l.Parsed ∧ l.throws = false := by
  induction parsed with
  | @single e parsed =>
    cases quiet with
    | single quiet =>
    rw [elsePlayed] at mem
    split at mem
    · rename_i generic
      cases List.mem_singleton.mp mem
      exact ⟨generic, parsed, quiet⟩
    · cases mem
  | @elementFor max blockElements parsed ih =>
    cases quiet with
    | elementFor quiet =>
    rw [elsePlayed] at mem
    split at mem
    · simp at mem
    · obtain ⟨copy, copies, mem⟩ := List.mem_flatten.mp mem
      rw [List.eq_of_mem_replicate copies] at mem
      obtain ⟨e, listed, mem⟩ := List.mem_flatMap.mp mem
      exact ih e listed (quiet e listed) mem

theorem unroll_quiet {e : Element F} (parsed : e.Parsed) (quiet : e.Quiet) :
    ∀ l ∈ e.unroll, l.throws = false := by
  induction parsed with
  | @single e parsed =>
    cases quiet with
    | single quiet => simpa [unroll] using quiet
  | @elementFor max blockElements parsed ih =>
    cases quiet with
    | elementFor quiet =>
    intro l mem
    rw [unroll] at mem
    obtain ⟨copy, copies, mem⟩ := List.mem_flatten.mp mem
    rw [List.eq_of_mem_replicate copies] at mem
    obtain ⟨e, listed, mem⟩ := List.mem_flatMap.mp mem
    exact ih e listed (quiet e listed) l mem

end Element

def Command.isGeneric : Command F → Bool
  | .changeValue .. => true
  | .command _ => true
  | _ => false

def unlinked : Camera := ⟨none, false, false, false⟩

section

variable [Add F] [Sub F] [Mul F] [ToString F] (random_num : G → F × G) (defaultDevice : String)

theorem CameraElement.generic_answer {e : CameraElement F} (generic : e.isGeneric = true)
    (parsed : e.Parsed) (quiet : e.throws = false) (g : G) :
    ∃ answer g', e.nextCommand random_num defaultDevice unlinked g = (answer, g', e) ∧
      answer.ret = some 0 ∧ ∃ c, answer.new_command = some c ∧ c.isGeneric = true := by
  cases e with
  | command deviceName cmd args => exact ⟨_, _, rfl, rfl, _, rfl, rfl⟩
  | changeValue deviceName valName op operands =>
    obtain ⟨operator, some_operand⟩ := parsed
    obtain ⟨op, rfl⟩ := Option.isSome_iff_exists.mp operator
    obtain ⟨operand, operands, rfl⟩ := List.exists_cons_of_ne_nil some_operand
    have written := Operand.writeAll_isSome random_num g (operand :: operands)
    rw [show (operand :: operands).any Operand.throws = false from quiet] at written
    obtain ⟨text, some_text⟩ := Option.isSome_iff_exists.mp written
    cases all : Operand.writeAll random_num g (operand :: operands) with
    | mk text' after =>
    rw [all] at some_text
    cases some_text
    simp only [nextCommand, all]
    refine ⟨_, _, rfl, rfl, _, rfl, ?_⟩
    unfold changeCommand
    split <;> rfl
  | _ => cases generic

theorem CameraElement.camera_answer {e : CameraElement F} (camera : e.isGeneric = false)
    (parsed : e.Parsed) (g : G) :
    ∃ c, (e.nextCommand random_num defaultDevice unlinked g).1.new_command = some c ∧
      c.isGeneric = false := by
  cases e with
  | sequence e =>
    obtain ⟨-, progress⟩ := parsed
    refine ⟨.exposure bopExposure, ?_, rfl⟩
    simp only [nextCommand, ElementSequence.nextCommand, ElementSequence.changeFilter,
      ElementSequence.changeExposure, ElementSequence.expose, progress, unlinked, Camera.queued,
      Option.any_none, Bool.false_eq_true, if_true, if_false, and_false]
    split <;> rfl
  | image e =>
    have progress : e.callProgress = .first := parsed
    refine ⟨.exposure bopExposure, ?_, rfl⟩
    simp only [nextCommand, ElementImage.nextCommand, ElementImage.changeExposure, progress, unlinked,
      Camera.queued, Option.any_none, Bool.false_eq_true, if_true, if_false, and_false]
  | command deviceName cmd args => cases camera
  | changeValue deviceName valName op operands => cases camera
  | _ => exact ⟨_, rfl, rfl⟩

variable {random_num defaultDevice}

theorem first_generic {other : List (Option (CameraElement F))}
    (generic : ∀ l, some l ∈ other → l.isGeneric = true ∧ l.Parsed ∧ l.throws = false) {g : G}
    {c : Command F}
    (first : (playList random_num defaultDevice unlinked g
      (other.map Element.orStuck)).1.new_command = some c) :
    c.isGeneric = true ∧ ∃ l others, other = some l :: others := by
  cases other with
  | nil => cases first
  | cons item others =>
    cases item with
    | none => cases first
    | some l =>
      obtain ⟨plays, parsed, quiet⟩ := generic l (by simp)
      obtain ⟨answer, g₁, played, -, c', handed, known⟩ :=
        l.generic_answer random_num defaultDevice plays parsed quiet g
      simp only [List.map_cons, Element.orStuck, Option.getD_some, playList, played] at first
      cases handed.symm.trans first
      exact ⟨known, l, others, rfl⟩

theorem same_length {inline : List (CameraElement F)} {other : List (Option (CameraElement F))}
    (parsed : ∀ l ∈ inline, l.Parsed ∧ l.throws = false)
    (generic : ∀ l, some l ∈ other → l.isGeneric = true ∧ l.Parsed ∧ l.throws = false) {g g' : G}
    (same : ∀ n, listAnswers random_num defaultDevice (List.replicate n unlinked) g inline =
      listAnswers random_num defaultDevice (List.replicate n unlinked) g'
        (other.map Element.orStuck)) :
    (∀ l ∈ inline, l.isGeneric = true) ∧ inline.length = other.length := by
  induction inline generalizing other g g' with
  | nil =>
    have first : (⟨some .endScript, none, none⟩ : Answer F) =
        (playList random_num defaultDevice unlinked g' (other.map Element.orStuck)).1 :=
      List.head_eq_of_cons_eq (same 1)
    cases other with
    | nil => simp
    | cons item others =>
      cases item with
      | none => cases first
      | some l =>
        obtain ⟨plays, parsed, quiet⟩ := generic l (by simp)
        obtain ⟨answer, g₁, played, -, c, handed, -⟩ :=
          l.generic_answer random_num defaultDevice plays parsed quiet g'
        simp only [List.map_cons, Element.orStuck, Option.getD_some, playList, played] at first
        rw [← first] at handed
        cases handed
  | cons l inline ih =>
    obtain ⟨⟨parsed_l, quiet_l⟩, parsed⟩ := List.forall_mem_cons.mp parsed
    have first : (l.nextCommand random_num defaultDevice unlinked g).1 =
        (playList random_num defaultDevice unlinked g' (other.map Element.orStuck)).1 :=
      List.head_eq_of_cons_eq (same 1)
    cases plays : l.isGeneric with
    | false =>
      obtain ⟨c, handed, camera⟩ := l.camera_answer random_num defaultDevice plays parsed_l g
      rw [first] at handed
      rw [(first_generic generic handed).1] at camera
      cases camera
    | true =>
      obtain ⟨answer, g₁, played, ends, c, handed, -⟩ :=
        l.generic_answer random_num defaultDevice plays parsed_l quiet_l g
      rw [played] at first
      dsimp only at first
      rw [first] at handed
      obtain ⟨-, l', others, rfl⟩ := first_generic generic handed
      obtain ⟨plays', parsed', quiet'⟩ := generic l' (by simp)
      obtain ⟨answer', g₁', played', ends', -⟩ :=
        l'.generic_answer random_num defaultDevice plays' parsed' quiet' g'
      have second : (some l' :: others).map Element.orStuck = l' :: others.map Element.orStuck := rfl
      have later (n : Nat) : listAnswers random_num defaultDevice (List.replicate n unlinked) g₁ inline =
          listAnswers random_num defaultDevice (List.replicate n unlinked) g₁'
            (others.map Element.orStuck) := by
        have next := same (n + 1)
        rw [second] at next
        simp only [List.replicate_succ, listAnswers, playList_ends played ends,
          playList_ends played' ends'] at next
        exact List.tail_eq_of_cons_eq next
      obtain ⟨all, length⟩ := ih parsed (fun m mem => generic m (List.mem_cons_of_mem _ mem)) later
      exact ⟨List.forall_mem_cons.mpr ⟨plays, all⟩, by simp [length]⟩

theorem playsInline_of_same {B : List (Element F)} (parsed : ∀ e ∈ B, e.Parsed)
    (quiet : ∀ e ∈ B, e.Quiet) {g : G}
    (same : ∀ n, listAnswers random_num defaultDevice (List.replicate n unlinked) g
        (B.flatMap Element.unroll) =
      listAnswers random_num defaultDevice (List.replicate n unlinked) g
        ((B.flatMap Element.elsePlayed).map Element.orStuck)) :
    Element.PlaysInline B := by
  have inline : ∀ l ∈ B.flatMap Element.unroll, l.Parsed ∧ l.throws = false := by
    intro l mem
    obtain ⟨e, listed, mem⟩ := List.mem_flatMap.mp mem
    exact ⟨(parsed e listed).unroll_parsed l mem,
      Element.unroll_quiet (parsed e listed) (quiet e listed) l mem⟩
  have other : ∀ l, some l ∈ B.flatMap Element.elsePlayed →
      l.isGeneric = true ∧ l.Parsed ∧ l.throws = false := by
    intro l mem
    obtain ⟨e, listed, mem⟩ := List.mem_flatMap.mp mem
    exact Element.elsePlayed_generic (parsed e listed) (quiet e listed) mem
  obtain ⟨generic, length⟩ := same_length inline other same
  have covers : Element.Covers (B.flatMap Element.unroll) (B.flatMap Element.elsePlayed) :=
    Element.Covers.flatMap fun e listed => Element.unroll_covers (parsed e listed) fun l mem =>
      generic l (List.mem_flatMap.mpr ⟨e, listed, mem⟩)
  exact congrArg Element.played (covers.2 length)

end

section

variable [Add F] [Sub F] [Mul F] [ToString F] (random_num : G → F × G)

/-- The calls of `ifacq { A } else { B } C` that find the target in the given state hand out what
those of `block C` do, for all cameras and whatever the target answers later. -/
def HandsOut (g : G) (acquireState : Int) (A B block : List (Element F)) : Prop :=
  ∀ C : List (Element F), (∀ e ∈ C, e.Parsed) →
    ∀ (defaultDevice : String) (camera : Camera) (calls : List (Camera × Int)),
      (AcquireScript.parsed defaultDevice A B C).answers random_num ((camera, acquireState) :: calls)
          g =
        (Script.parsed defaultDevice (block ++ C)).answers random_num
          (camera :: calls.map Prod.fst) g

variable {random_num} in
theorem handsOut_acquired {A B : List (Element F)} (parsed_A : ∀ e ∈ A, e.Parsed)
    (parsed_B : ∀ e ∈ B, e.Parsed) (g : G) : HandsOut random_num g 1 A B A := by
  intro C parsed_C defaultDevice camera calls
  have parsed_AC : ∀ e ∈ A ++ C, e.Parsed := List.forall_mem_append.mpr ⟨parsed_A, parsed_C⟩
  rw [AcquireScript.acquired_answers random_num defaultDevice parsed_A parsed_B parsed_C,
    Script.parsed_answers random_num defaultDevice parsed_AC]

variable {random_num} in
theorem handsOut_failed {A B : List (Element F)} (parsed_B : ∀ e ∈ B, e.Parsed)
    (inline : Element.PlaysInline B) (g : G) {acquireState : Int} (failed : acquireState ≠ 1) :
    HandsOut random_num g acquireState A B B := by
  intro C parsed_C defaultDevice camera calls
  have parsed_BC : ∀ e ∈ B ++ C, e.Parsed := List.forall_mem_append.mpr ⟨parsed_B, parsed_C⟩
  have parsed_else : ∀ e ∈ B.map Element.asGeneric ++ C, e.Parsed := by
    refine List.forall_mem_append.mpr ⟨fun e mem => ?_, parsed_C⟩
    obtain ⟨x, listed, rfl⟩ := List.mem_map.mp mem
    exact (parsed_B x listed).asGeneric.1
  have good {es : List (Element F)} (parsed : ∀ e ∈ es, e.Parsed) :
      ∀ l ∈ es.flatMap Element.unroll, l.Good := by
    intro l mem
    obtain ⟨e, listed, mem⟩ := List.mem_flatMap.mp mem
    exact ((parsed e listed).unroll_parsed l mem).good
  rw [AcquireScript.failed_answers random_num defaultDevice parsed_B parsed_C camera failed,
    Script.parsed_answers random_num defaultDevice parsed_BC,
    listAnswers_cut random_num defaultDevice _ g (good parsed_else),
    listAnswers_cut random_num defaultDevice _ g (good parsed_BC), List.flatMap_append,
    List.flatMap_append, cut_append_congr (Element.cut_of_playsInline parsed_B inline)]

variable {random_num} in
theorem playsInline_of_handsOut {A B : List (Element F)} (parsed_B : ∀ e ∈ B, e.Parsed)
    (quiet : ∀ e ∈ B, e.Quiet) {g : G} {acquireState : Int} (failed : acquireState ≠ 1)
    (same : HandsOut random_num g acquireState A B B) : Element.PlaysInline B := by
  suffices same_lists : ∀ n, listAnswers random_num "" (List.replicate n unlinked) g
      (B.flatMap Element.unroll) =
        listAnswers random_num "" (List.replicate n unlinked) g
          ((B.flatMap Element.elsePlayed).map Element.orStuck) from
    playsInline_of_same parsed_B quiet same_lists
  intro n
  cases n with
  | zero => rfl
  | succ n =>
    have calls := same [] (by simp) "" unlinked (List.replicate n (unlinked, acquireState))
    have parsed_nil : ∀ e ∈ ([] : List (Element F)), e.Parsed := by simp
    rw [AcquireScript.failed_answers random_num "" parsed_B parsed_nil unlinked failed,
      List.append_nil, List.append_nil, Script.parsed_answers random_num "" parsed_B,
      Element.flatMap_asGeneric parsed_B] at calls
    simpa [List.replicate_succ] using calls.symm

/-- An acquired target gets the first block; another one gets the block of else as if it stood there
just when the calls of any device play all of it, and no more of it. -/
theorem ifacq_inline_iff {A B : List (Element F)} (parsed_A : ∀ e ∈ A, e.Parsed)
    (parsed_B : ∀ e ∈ B, e.Parsed) (g : G) :
    HandsOut random_num g 1 A B A ∧
      ∀ acquireState, acquireState ≠ 1 →
        (Element.PlaysInline B → HandsOut random_num g acquireState A B B) ∧
          ((∀ e ∈ B, e.Quiet) → HandsOut random_num g acquireState A B B → Element.PlaysInline B) := by
  refine ⟨handsOut_acquired parsed_A parsed_B g, fun acquireState failed => ⟨fun inline => ?_, ?_⟩⟩
  · exact handsOut_failed parsed_B inline g failed
  · exact fun quiet same => playsInline_of_handsOut parsed_B quiet failed same

end

def shortExposure : List (Element ℤ) := [.single (.image ⟨0, 5, .first⟩)]

def setGain : List (Element ℤ) :=
  [.elementFor ⟨2, [.single (.changeValue "C0" "gain" (some '=') [.number 5])], 0, 0⟩]

theorem ifacq_inline_sample :
    HandsOut (fun g : ℤ => (g, g + 1)) 0 0 shortExposure setGain setGain := by
  have parsed_A : ∀ e ∈ shortExposure, e.Parsed := List.forall_mem_singleton.mpr (.single rfl)
  have parsed_B : ∀ e ∈ setGain, e.Parsed := by
    refine List.forall_mem_singleton.mpr (.elementFor (List.forall_mem_singleton.mpr (.single ?_)))
    exact ⟨rfl, by simp⟩
  refine ((ifacq_inline_iff (fun g : ℤ => (g, g + 1)) parsed_A parsed_B 0).2 0 (by decide)).1 ?_
  simp [Element.PlaysInline, setGain, Element.elsePlayed, Element.unroll, CameraElement.isGeneric]

/-- In `ifacq { } else { E 5 }` the exposure is passed. -/
theorem else_exposure_passed :
    ¬ HandsOut (fun g : ℤ => (g, g + 1)) 0 0 [] shortExposure shortExposure := by
  intro same
  have parsed_B : ∀ e ∈ shortExposure, e.Parsed := List.forall_mem_singleton.mpr (.single rfl)
  have quiet : ∀ e ∈ shortExposure, e.Quiet := List.forall_mem_singleton.mpr (.single rfl)
  have inline := playsInline_of_handsOut parsed_B quiet (by decide) same
  simp [Element.PlaysInline, shortExposure, Element.elsePlayed, Element.unroll, Element.played,
    CameraElement.isGeneric, CameraElement.throws] at inline

end Rts2.Scripts
