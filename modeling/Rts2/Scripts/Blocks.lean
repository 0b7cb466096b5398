import Rts2.Scripts.Elements

/-! Every state of an element stands for the list of the elements without blocks that it still
plays, and a call of nextCommand is a call to the first of them: if this is so for the elements of a
block, it is so for the block. -/
namespace Rts2.Scripts

variable {F G E : Type}

def Answer.masked (answer : Answer F) : Answer F :=
  { answer with ret := answer.ret.map (· ||| .maskBlock) }

/-- A kind of elements: how one is called, what it still plays, what it is before it is played, and
which states there are. -/
structure Kind (F G E : Type) where
  next : Camera → G → E → Answer F × G × E
  rest : E → List (CameraElement F)
  fresh : E → E
  Good : E → Prop

/-- A call to an element is a call to the first of what it still plays. When this ends, either the
element ends with it or the code is masked; without anything to play the element is passed. -/
inductive Kind.Follows (k : Kind F G E) (play : G → CameraElement F → Answer F × G × CameraElement F)
    (g : G) (e : E) : Answer F × G × E → Prop
  | skips (nothing : k.rest e = []) : Follows k play g e (.skip, g, k.fresh e)
  | throws {l l' ls answer g' e'} (first : k.rest e = l :: ls)
      (played : play g l = (answer, g', l')) (thrown : answer.ret = none)
      (rest : k.rest e' = l' :: ls) (good : k.Good e') (same : k.fresh e' = k.fresh e) :
      Follows k play g e (answer, g', e')
  | keeps {l l' ls answer answer' g' e'} (first : k.rest e = l :: ls)
      (played : play g l = (answer, g', l')) (keep : answer.ret = some .keep)
      (masked : answer' = answer ∨ answer' = answer.masked)
      (rest : k.rest e' = l' :: ls) (good : k.Good e') (same : k.fresh e' = k.fresh e) :
      Follows k play g e (answer', g', e')
  | ends {l l' answer g'} (last : k.rest e = [l]) (played : play g l = (answer, g', l'))
      (ended : answer.ret = some 0) : Follows k play g e (answer, g', k.fresh e)
  | goes {l l' ls answer g' e'} (first : k.rest e = l :: ls)
      (played : play g l = (answer, g', l')) (ended : answer.ret = some 0)
      (rest : k.rest e' = ls) (good : k.Good e') (same : k.fresh e' = k.fresh e) :
      Follows k play g e (answer.masked, g', e')

structure Kind.Plays (k : Kind F G E)
    (play : Camera → G → CameraElement F → Answer F × G × CameraElement F) : Prop where
  follows : ∀ camera g e, k.Good e → k.Follows (play camera) g e (k.next camera g e)
  good_fresh : ∀ e, k.Good e → k.Good (k.fresh e)
  fresh_fresh : ∀ e, k.fresh (k.fresh e) = k.fresh e

namespace Kind

variable (k : Kind F G E)

def whole (es : List E) : List (CameraElement F) := (es.map k.fresh).flatMap k.rest

def later (b : ElementFor E) : List (CameraElement F) :=
  k.whole (b.blockElements.drop (b.curr_element + 1)) ++
    (List.replicate (b.max - b.loopCount - 1).toNat (k.whole b.blockElements)).flatten

def blockRest (b : ElementFor E) : List (CameraElement F) :=
  match b.blockElements[b.curr_element]? with
  | some e =>
    if b.loopCount < b.max then k.rest e ++ k.later b else []
  | none => []

def blockFresh (b : ElementFor E) : ElementFor E :=
  ⟨b.max, b.blockElements.map k.fresh, 0, 0⟩

def Running (b : ElementFor E) : Prop :=
  b.curr_element < b.blockElements.length ∧ 0 ≤ b.loopCount ∧ b.loopCount < b.max

structure BlockGood (b : ElementFor E) : Prop where
  good : ∀ e ∈ b.blockElements, k.Good e
  others : ∀ i e, b.blockElements[i]? = some e → i ≠ b.curr_element → k.fresh e = e
  running : Running b ∨ k.blockFresh b = b ∧ (b.blockElements = [] ∨ b.max ≤ 0)

def block : Kind F G (ElementFor E) where
  next camera g b :=
    if b.endLoop || b.blockElements.isEmpty then (.skip, g, b) else b.loop (k.next camera) g
  rest := k.blockRest
  fresh := k.blockFresh
  Good := k.BlockGood

theorem map_set_same {α : Type} {f : E → α} {l : List E} {i : Nat} {e e' : E} (there : l[i]? = some e)
    (same : f e' = f e) : (l.set i e').map f = l.map f := by
  apply List.ext_getElem?
  intro j
  rw [List.map_set, List.getElem?_set]
  split
  · rename_i here
    have mapped : (l.map f)[j]? = some (f e) := by rw [← here, List.getElem?_map, there, Option.map_some]
    rw [mapped, same, if_pos (by simpa using here ▸ (List.getElem?_eq_some_iff.mp there).1)]
  · rfl

theorem set_child {b : ElementFor E} (good : k.BlockGood b) (running : Running b) {e e' : E}
    (there : b.blockElements[b.curr_element]? = some e) (same : k.fresh e' = k.fresh e)
    (good' : k.Good e') :
    let b' := { b with blockElements := b.blockElements.set b.curr_element e' }
    k.BlockGood b' ∧ Running b' ∧ k.blockFresh b' = k.blockFresh b ∧
      k.blockRest b' = k.rest e' ++ k.later b ∧ k.later b' = k.later b := by
  obtain ⟨inside, least, less⟩ := running
  have map : (b.blockElements.set b.curr_element e').map k.fresh = b.blockElements.map k.fresh :=
    map_set_same there same
  have runs : Running { b with blockElements := b.blockElements.set b.curr_element e' } :=
    ⟨by simpa using inside, least, less⟩
  have whole : k.whole (b.blockElements.set b.curr_element e') = k.whole b.blockElements := by
    rw [Kind.whole, map, Kind.whole]
  refine ⟨⟨fun x mem => ?_, fun i x listed other => ?_, .inl runs⟩, runs, ?_, ?_, ?_⟩
  · rcases List.mem_or_eq_of_mem_set mem with mem | rfl
    · exact good.good x mem
    · exact good'
  · rw [List.getElem?_set_ne (Ne.symm other)] at listed
    exact good.others i x listed other
  · simp only [blockFresh, map]
  · simp [blockRest, later, inside, less, whole, List.drop_set]
  · simp [later, whole, List.drop_set]

theorem nextElement_ended {b b' : ElementFor E} (fresh : b.blockElements.map k.fresh = b.blockElements)
    (running : Running b) (ended : b.nextElement = (true, b')) :
    k.later b = [] ∧ b' = k.blockFresh b := by
  obtain ⟨inside, least, less⟩ := running
  unfold ElementFor.nextElement at ended
  split at ended
  · rename_i last
    split at ended
    · rename_i reached
      simp only [ElementFor.endLoop, decide_eq_true_eq] at reached
      cases ended
      have loops : (b.max - b.loopCount - 1).toNat = 0 := by omega
      refine ⟨?_, ?_⟩
      · simp [later, loops, last, whole]
      · simp [ElementFor.afterBlockEnd, blockFresh, fresh]
    · cases ended
  · cases ended

theorem nextElement_goes {b b' : ElementFor E} (good : k.BlockGood b)
    (fresh : b.blockElements.map k.fresh = b.blockElements)
    (running : Running b) (goes : b.nextElement = (false, b')) :
    k.BlockGood b' ∧ Running b' ∧ k.blockFresh b' = k.blockFresh b ∧ k.blockRest b' = k.later b := by
  obtain ⟨inside, least, less⟩ := running
  have all (i : Nat) (e : E) (listed : b.blockElements[i]? = some e) : k.fresh e = e := by
    have mapped := congrArg (·[i]?) fresh
    simpa [listed] using mapped
  unfold ElementFor.nextElement at goes
  split at goes
  · rename_i last
    split at goes
    · cases goes
    · rename_i going
      simp only [ElementFor.endLoop, decide_eq_true_eq, not_le] at going
      cases goes
      have runs : Running { b with loopCount := b.loopCount + 1, curr_element := 0 } :=
        ⟨by simp only; omega, by simp only; omega, going⟩
      refine ⟨⟨good.good, fun i e listed _ => all i e listed, .inl runs⟩, runs, rfl, ?_⟩
      have loops : (b.max - b.loopCount - 1).toNat = (b.max - (b.loopCount + 1) - 1).toNat + 1 := by
        omega
      obtain ⟨e, es, split⟩ := List.exists_cons_of_length_pos (l := b.blockElements) (by omega)
      have first : k.whole (e :: es) = k.rest e ++ k.whole es := by
        rw [whole, List.map_cons, List.flatMap_cons, all 0 e (by simp [split]), whole]
      have nothing : k.whole [] = [] := rfl
      rw [later, last, List.drop_length, loops, List.replicate_succ, List.flatten_cons, split]
      simp [blockRest, later, going, first, nothing]
  · rename_i more
    cases goes
    have runs : Running { b with curr_element := b.curr_element + 1 } :=
      ⟨by simp only; omega, least, less⟩
    refine ⟨⟨good.good, fun i e listed _ => all i e listed, .inl runs⟩, runs, rfl, ?_⟩
    have next : b.curr_element + 1 < b.blockElements.length := by omega
    have played := all _ _ (List.getElem?_eq_getElem next)
    have first : k.whole (b.blockElements.drop (b.curr_element + 1)) =
        k.rest b.blockElements[b.curr_element + 1] ++
          k.whole (b.blockElements.drop (b.curr_element + 1 + 1)) := by
      rw [List.drop_eq_getElem_cons next, whole, List.map_cons, List.flatMap_cons, played, whole]
    simp [blockRest, later, next, less, first]

theorem fresh_child {b : ElementFor E} (good : k.BlockGood b)
    (fresh_fresh : ∀ e, k.fresh (k.fresh e) = k.fresh e) {e : E}
    (there : b.blockElements[b.curr_element]? = some e) :
    (b.blockElements.set b.curr_element (k.fresh e)).map k.fresh =
      b.blockElements.set b.curr_element (k.fresh e) := by
  rw [map_set_same there (fresh_fresh e)]
  apply List.ext_getElem?
  intro i
  rw [List.getElem?_map, List.getElem?_set]
  split
  · rename_i here
    rw [← here, there, if_pos (List.getElem?_eq_some_iff.mp there).1, Option.map_some]
  · rename_i other
    cases listed : b.blockElements[i]? with
    | none => rfl
    | some x => rw [Option.map_some, good.others i x listed (Ne.symm other)]

theorem Follows.congr {k : Kind F G E} {play : G → CameraElement F → Answer F × G × CameraElement F} {g : G}
    {e e' : E} {result : Answer F × G × E} (follows : k.Follows play g e result)
    (rest : k.rest e = k.rest e') (fresh : k.fresh e = k.fresh e') :
    k.Follows play g e' result := by
  cases follows with
  | skips nothing => exact fresh ▸ .skips (rest ▸ nothing)
  | throws first played thrown left good same =>
    exact .throws (rest ▸ first) played thrown left good (same.trans fresh)
  | keeps first played keep masked left good same =>
    exact .keeps (rest ▸ first) played keep masked left good (same.trans fresh)
  | ends last played ended => exact fresh ▸ .ends (rest ▸ last) played ended
  | goes first played ended left good same =>
    exact .goes (rest ▸ first) played ended left good (same.trans fresh)

theorem rest_eq {b : ElementFor E} (running : Running b) {e : E}
    (there : b.blockElements[b.curr_element]? = some e) :
    k.blockRest b = k.rest e ++ k.later b := by
  rw [blockRest, there]
  exact if_pos running.2.2

theorem masked_eq {answer : Answer F} {ret : Code} (code : answer.ret = some ret) :
    answer.masked = { answer with ret := some (ret ||| .maskBlock) } := by
  rw [Answer.masked, code, Option.map_some]

theorem masked_masked (answer : Answer F) : answer.masked.masked = answer.masked := by
  cases code : answer.ret with
  | none => simp [Answer.masked, code]
  | some ret => simp [Answer.masked, code, BitVec.or_assoc]

theorem loop_stays {next : G → E → Answer F × G × E} {g g' : G} {b : ElementFor E} {e e' : E}
    {answer : Answer F} (there : b.blockElements[b.curr_element]? = some e)
    (called : next g e = (answer, g', e')) {ret : Code} (code : answer.ret = some ret)
    (found : ret ≠ .next) (stays : ret.ends = false) :
    b.loop next g =
      (answer.masked, g', { b with blockElements := b.blockElements.set b.curr_element e' }) := by
  rw [ElementFor.loop_eq there called, masked_eq code]
  simp [code, found, ElementFor.blockScriptRet, stays]

theorem loop_ends {next : G → E → Answer F × G × E} {g g' : G} {b : ElementFor E} {e e' : E}
    {answer : Answer F} (there : b.blockElements[b.curr_element]? = some e)
    (called : next g e = (answer, g', e')) (code : answer.ret = some 0) :
    b.loop next g =
      match { b with blockElements := b.blockElements.set b.curr_element e' }.nextElement with
      | (true, ended) => (answer, g', ended)
      | (false, following) => (answer.masked, g', following) := by
  rw [ElementFor.loop_eq there called, masked_eq code]
  have found : (0 : Code) ≠ .next := by decide
  have ends : (0 : Code).ends = true := by decide
  simp only [code, found, if_false, ElementFor.blockScriptRet, ends, if_true]
  cases { b with blockElements := b.blockElements.set b.curr_element e' }.nextElement with
  | mk ended following =>
  cases ended with
  | true =>
    cases answer
    cases code
    rfl
  | false => rfl

theorem loop_skips {next : G → E → Answer F × G × E} {g g' : G} {b : ElementFor E} {e e' : E}
    (there : b.blockElements[b.curr_element]? = some e)
    (called : next g e = (.skip, g', e')) :
    b.loop next g =
      match { b with blockElements := b.blockElements.set b.curr_element e' }.nextElement with
      | (true, ended) => (.skip, g', ended)
      | (false, following) => following.loop next g' :=
  ElementFor.loop_eq there called

theorem loop_follows {play : Camera → G → CameraElement F → Answer F × G × CameraElement F}
    (plays : k.Plays play) (camera : Camera) (g : G) (b : ElementFor E) (good : k.BlockGood b)
    (running : Running b) :
    k.block.Follows (play camera) g b (b.loop (k.next camera) g) := by
  obtain ⟨e, there⟩ : ∃ e, b.blockElements[b.curr_element]? = some e :=
    ⟨_, List.getElem?_eq_getElem running.1⟩
  have good_e : k.Good e := good.good e (List.mem_of_getElem? there)
  have rest := k.rest_eq running there
  have child := plays.follows camera g e good_e
  obtain ⟨good_f, running_f, fresh_f, rest_f, later_f⟩ :=
    k.set_child good running there (plays.fresh_fresh e) (plays.good_fresh e good_e)
  have all := k.fresh_child good plays.fresh_fresh there
  cases called : k.next camera g e with
  | mk answer after =>
  obtain ⟨g', e'⟩ := after
  rw [called] at child
  cases child with
  | skips nothing =>
    rw [nothing, List.nil_append] at rest
    rw [loop_skips there called]
    split
    · rename_i ended goes
      obtain ⟨last, same⟩ := k.nextElement_ended all running_f goes
      rw [same, fresh_f]
      exact .skips (rest.trans (later_f ▸ last))
    · rename_i following goes
      obtain ⟨good', running', fresh', rest'⟩ := k.nextElement_goes good_f all running_f goes
      have less := ElementFor.nextElement_less running_f.1 goes
      refine (loop_follows plays camera g following good' running').congr ?_ (fresh'.trans fresh_f)
      exact (rest'.trans later_f).trans rest.symm
  | throws first played thrown left good' same =>
    obtain ⟨good_b, _, fresh_b, rest_b, _⟩ := k.set_child good running there same good'
    rw [ElementFor.loop_eq there called, thrown]
    exact .throws (rest.trans (congrArg (· ++ _) first)) played thrown
      (rest_b.trans (congrArg (· ++ _) left)) good_b fresh_b
  | @keeps _ _ _ played_answer _ _ _ first played keep masked left good' same =>
    obtain ⟨good_b, _, fresh_b, rest_b, _⟩ := k.set_child good running there same good'
    have turn : b.loop (k.next camera) g = (played_answer.masked, g',
        { b with blockElements := b.blockElements.set b.curr_element e' }) := by
      rcases masked with rfl | rfl
      · exact loop_stays there called keep (by decide) (by decide)
      · have code := congrArg Answer.ret (masked_eq keep)
        rw [loop_stays there called code (by decide) (by decide), masked_masked]
    rw [turn]
    exact .keeps (rest.trans (congrArg (· ++ _) first)) played keep (.inr rfl)
      (rest_b.trans (congrArg (· ++ _) left)) good_b fresh_b
  | ends last played ended =>
    rw [last] at rest
    rw [loop_ends there called ended]
    split
    · rename_i goes
      obtain ⟨nothing, same⟩ := k.nextElement_ended all running_f goes
      rw [same, fresh_f]
      exact .ends (rest.trans (by rw [← later_f, nothing]; rfl)) played ended
    · rename_i goes
      obtain ⟨good', _, fresh', rest'⟩ := k.nextElement_goes good_f all running_f goes
      exact .goes rest played ended (rest'.trans later_f) good' (fresh'.trans fresh_f)
  | goes first played ended left good' same =>
    obtain ⟨good_b, _, fresh_b, rest_b, _⟩ := k.set_child good running there same good'
    have code := congrArg Answer.ret (masked_eq ended)
    rw [loop_stays there called code (by decide) (by decide), masked_masked]
    exact .goes (rest.trans (congrArg (· ++ _) first)) played ended
      (rest_b.trans (congrArg (· ++ _) left)) good_b fresh_b
termination_by ((b.max - b.loopCount).toNat, b.blockElements.length - b.curr_element)
decreasing_by
  obtain ⟨max, length, less⟩ := less
  simp only [List.length_set] at max length less
  rcases less with less | ⟨same, less⟩
  · exact Prod.Lex.left _ _ less
  · rw [max, same]
    exact Prod.Lex.right _ less

theorem block_plays {play : Camera → G → CameraElement F → Answer F × G × CameraElement F}
    (plays : k.Plays play) : k.block.Plays play := by
  have fresh_fresh (b : ElementFor E) : k.blockFresh (k.blockFresh b) = k.blockFresh b := by
    simp [blockFresh, plays.fresh_fresh]
  refine ⟨fun camera g b good => ?_, fun b good => ⟨fun e mem => ?_, fun i e listed _ => ?_, ?_⟩,
    fresh_fresh⟩
  · rcases good.running with running | ⟨same, nothing⟩
    · have goes : (b.endLoop || b.blockElements.isEmpty) = false := by
        obtain ⟨inside, _, less⟩ := running
        simp [ElementFor.endLoop, less, List.ne_nil_of_length_pos (Nat.zero_lt_of_lt inside)]
      have next : k.block.next camera g b = b.loop (k.next camera) g :=
        if_neg (Bool.eq_false_iff.mp goes)
      exact next ▸ k.loop_follows plays camera g b good running
    · have start : b.loopCount = 0 := congrArg ElementFor.loopCount same.symm
      have stops : (b.endLoop || b.blockElements.isEmpty) = true := by
        rcases nothing with empty | never
        · simp [empty]
        · simp [ElementFor.endLoop, start, never]
      have next : k.block.next camera g b = (.skip, g, k.block.fresh b) :=
        (if_pos stops).trans (congrArg (fun b => (Answer.skip, g, b)) same.symm)
      rw [next]
      refine .skips ?_
      rcases nothing with empty | never
      · simp [block, blockRest, empty]
      · simp only [block, blockRest, start, not_lt.mpr never, if_false]
        split <;> rfl
  · obtain ⟨x, played, rfl⟩ := List.mem_map.mp mem
    exact plays.good_fresh x (good.good x played)
  · obtain ⟨x, _, rfl⟩ := List.mem_map.mp (List.mem_of_getElem? listed)
    exact plays.fresh_fresh x
  · by_cases nothing : b.blockElements = [] ∨ b.max ≤ 0
    · exact .inr ⟨fresh_fresh b, by simpa [block, blockFresh] using nothing⟩
    · obtain ⟨some_element, positive⟩ := not_or.mp nothing
      refine .inl ⟨?_, le_refl 0, not_le.mp positive⟩
      simpa [block, blockFresh] using List.length_pos_of_ne_nil some_element

theorem block_unrolls (max : Int) {blockElements : List E} (good : ∀ e ∈ blockElements, k.Good e)
    (fresh : ∀ e ∈ blockElements, k.fresh e = e) :
    let b : ElementFor E := ⟨max, blockElements, 0, 0⟩
    k.BlockGood b ∧ k.blockFresh b = b ∧
      k.blockRest b = (List.replicate max.toNat (blockElements.flatMap k.rest)).flatten := by
  have map : blockElements.map k.fresh = blockElements :=
    (List.map_congr_left fresh).trans (List.map_id _)
  have whole : k.whole blockElements = blockElements.flatMap k.rest := by rw [Kind.whole, map]
  have same : k.blockFresh ⟨max, blockElements, 0, 0⟩ = ⟨max, blockElements, 0, 0⟩ := by
    rw [blockFresh, map]
  refine ⟨⟨good, fun i e listed _ => fresh e (List.mem_of_getElem? listed), ?_⟩, same, ?_⟩
  · by_cases nothing : blockElements = [] ∨ max ≤ 0
    · exact .inr ⟨same, nothing⟩
    · obtain ⟨some_element, positive⟩ := not_or.mp nothing
      exact .inl ⟨List.length_pos_of_ne_nil some_element, le_refl 0, not_le.mp positive⟩
  · cases blockElements with
    | nil => simp [blockRest]
    | cons e es =>
      have first : k.whole (e :: es) = k.rest e ++ k.whole es := by
        rw [Kind.whole, List.map_cons, List.flatMap_cons, fresh e (by simp), Kind.whole]
      rw [← whole]
      by_cases positive : 0 < max
      · have loops : max.toNat = (max - 1).toNat + 1 := by omega
        rw [loops, List.replicate_succ, List.flatten_cons, first]
        simp [blockRest, later, positive, first]
      · have never : max.toNat = 0 := by omega
        simp [blockRest, positive, never]

end Kind

end Rts2.Scripts
