import Rts2.Scripts.Blocks

/-! A script hands out what its unrolled script does. -/
namespace Rts2.Scripts

variable {F G E : Type}

def Turn (fresh : E → E) (e : E) (turn : Code × Option (Command F) × E) : Prop :=
  (turn.1 = 0 ∧ turn.2.2 = fresh e) ∨ (turn.1 = .keep ∧ fresh turn.2.2 = fresh e)

namespace ElementSequence

def fresh (e : ElementSequence F) : ElementSequence F :=
  { e with done_exposures := 0, callProgress := .first }

theorem expose_turn (e : ElementSequence F) : Turn fresh e e.expose := by
  unfold expose
  dsimp only
  split
  · exact .inr ⟨rfl, rfl⟩
  · exact .inl ⟨rfl, rfl⟩

theorem changeExposure_turn (camera : Camera) (e : ElementSequence F) :
    Turn fresh e (e.changeExposure camera) := by
  unfold changeExposure
  split
  · exact .inr ⟨rfl, rfl⟩
  · exact e.expose_turn

theorem changeFilter_turn (camera : Camera) (e : ElementSequence F) :
    Turn fresh e (e.changeFilter camera) := by
  unfold changeFilter
  split
  · dsimp only
    split
    · exact .inr ⟨rfl, rfl⟩
    · exact changeExposure_turn camera { e with callProgress := .filter }
  · exact e.changeExposure_turn camera

theorem nextCommand_turn (camera : Camera) (e : ElementSequence F) :
    Turn fresh e (e.nextCommand camera) := by
  unfold nextCommand
  split
  · split
    · exact .inr ⟨rfl, rfl⟩
    · dsimp only
      split
      · exact .inr ⟨rfl, rfl⟩
      · exact changeFilter_turn camera { e with callProgress := .shutter }
  · exact e.changeFilter_turn camera

end ElementSequence

namespace ElementImage

def fresh (e : ElementImage F) : ElementImage F := { e with callProgress := .first }

theorem changeExposure_turn (camera : Camera) (e : ElementImage F) :
    Turn fresh e (e.changeExposure camera) := by
  unfold changeExposure
  split
  · exact .inr ⟨rfl, rfl⟩
  · exact .inl ⟨rfl, rfl⟩

theorem nextCommand_turn (camera : Camera) (e : ElementImage F) :
    Turn fresh e (e.nextCommand camera) := by
  unfold nextCommand
  split
  · split
    · exact .inr ⟨rfl, rfl⟩
    · dsimp only
      split
      · exact .inr ⟨rfl, rfl⟩
      · exact changeExposure_turn camera { e with callProgress := .shutter }
  · exact e.changeExposure_turn camera

end ElementImage

namespace CameraElement

def fresh : CameraElement F → CameraElement F
  | .sequence e => .sequence e.fresh
  | .image e => .image e.fresh
  | e => e

def Good : CameraElement F → Prop
  | .changeValue _ _ op operands => op.isSome ∧ operands ≠ []
  | _ => True

variable [Add F] [Sub F] [Mul F] [ToString F] (random_num : G → F × G) (defaultDevice : String)

theorem nextCommand_cases (camera : Camera) (g : G) {e : CameraElement F} (good : e.Good)
    {answer : Answer F} {g' : G} {e' : CameraElement F}
    (played : e.nextCommand random_num defaultDevice camera g = (answer, g', e')) :
    (answer.ret = some 0 ∧ e' = e.fresh) ∨
      ((answer.ret = none ∨ answer.ret = some .keep) ∧ e'.Good ∧ e'.fresh = e.fresh) := by
  cases e with
  | sequence e =>
    rcases e.nextCommand_turn camera with ⟨ends, fresh⟩ | ⟨keep, fresh⟩
    · cases played
      exact .inl ⟨congrArg some ends, congrArg _ fresh⟩
    · cases played
      exact .inr ⟨.inr (congrArg some keep), trivial, congrArg CameraElement.sequence fresh⟩
  | image e =>
    rcases e.nextCommand_turn camera with ⟨ends, fresh⟩ | ⟨keep, fresh⟩
    · cases played
      exact .inl ⟨congrArg some ends, congrArg _ fresh⟩
    · cases played
      exact .inr ⟨.inr (congrArg some keep), trivial, congrArg CameraElement.image fresh⟩
  | changeValue deviceName valName op operands =>
    obtain ⟨operator, some_operand⟩ := good
    obtain ⟨op, rfl⟩ := Option.isSome_iff_exists.mp operator
    obtain ⟨operand, operands, rfl⟩ := List.exists_cons_of_ne_nil some_operand
    simp only [nextCommand] at played
    split at played
    · cases played
      exact .inr ⟨.inl rfl, ⟨rfl, by simp⟩, rfl⟩
    · cases played
      exact .inl ⟨rfl, rfl⟩
  | shiftStoreStart _ | shiftStoreProgress _ _ | shiftStoreEnd _ _ | box _ _ _ _ | center _ _
  | command _ _ _ =>
    cases played
    exact .inl ⟨rfl, rfl⟩

end CameraElement

theorem CameraElement.fresh_fresh (e : CameraElement F) : e.fresh.fresh = e.fresh := by
  cases e <;> rfl

theorem CameraElement.good_fresh {e : CameraElement F} (good : e.Good) : e.fresh.Good := by
  cases e with
  | changeValue _ _ _ _ => exact good
  | _ => trivial

theorem CameraElement.Parsed.good {e : CameraElement F} (parsed : e.Parsed) : e.Good := by
  cases e with
  | changeValue _ _ _ _ => exact parsed
  | _ => trivial

theorem CameraElement.Parsed.fresh {e : CameraElement F} (parsed : e.Parsed) : e.fresh = e := by
  cases e with
  | sequence e =>
    obtain ⟨done, progress⟩ := parsed
    exact congrArg CameraElement.sequence (by rw [ElementSequence.fresh, ← done, ← progress])
  | image e =>
    have progress : e.callProgress = .first := parsed
    exact congrArg CameraElement.image (by rw [ElementImage.fresh, ← progress])
  | _ => rfl

theorem Element.Parsed.unroll_parsed {e : Element F} (parsed : e.Parsed) :
    ∀ l ∈ e.unroll, l.Parsed := by
  induction parsed with
  | single parsed =>
    rw [unroll]
    simpa using parsed
  | elementFor parsed ih =>
    intro l mem
    rw [unroll] at mem
    obtain ⟨copy, copies, mem⟩ := List.mem_flatten.mp mem
    rw [List.eq_of_mem_replicate copies] at mem
    obtain ⟨e, listed, mem⟩ := List.mem_flatMap.mp mem
    exact ih e listed l mem

/-- Elements that are blocks of the kind `k`, or no blocks. -/
def withBlocks (next : Camera → G → Element F → Answer F × G × Element F)
    (k : Kind F G (ElementFor (Element F))) : Kind F G (Element F) where
  next := next
  rest
    | .single e => [e]
    | .elementFor b => k.rest b
  fresh
    | .single e => .single e.fresh
    | .elementFor b => .elementFor (k.fresh b)
  Good
    | .single e => e.Good
    | .elementFor b => k.Good b

def noBlocks : Kind F G (ElementFor (Element F)) where
  next _ g b := (.skip, g, b)
  rest _ := []
  fresh b := b
  Good _ := False

theorem elementFor_follows {next : Camera → G → Element F → Answer F × G × Element F}
    {k : Kind F G (ElementFor (Element F))} {camera : Camera} {g : G} {b : ElementFor (Element F)}
    {play : G → CameraElement F → Answer F × G × CameraElement F}
    (follows : k.Follows play g b (k.next camera g b))
    (called : next camera g (.elementFor b) =
      let (answer, g, b) := k.next camera g b
      (answer, g, .elementFor b)) :
    (withBlocks next k).Follows play g (.elementFor b) (next camera g (.elementFor b)) := by
  rw [called]
  generalize k.next camera g b = result at follows
  cases follows with
  | skips nothing => exact .skips nothing
  | throws first played thrown left good same =>
    exact .throws first played thrown left good (congrArg Element.elementFor same)
  | keeps first played keep masked left good same =>
    exact .keeps first played keep masked left good (congrArg Element.elementFor same)
  | ends last played ended => exact .ends last played ended
  | goes first played ended left good same =>
    exact .goes first played ended left good (congrArg Element.elementFor same)

theorem Script.scriptRet_masked (s : Script F) {answer : Answer F} {ret : Code}
    (code : answer.ret = some ret) (known : ret = 0 ∨ ret = .keep) :
    s.scriptRet answer.masked (ret ||| .maskBlock) =
      (answer, { s with executedCount := s.executedCount + 1 }) := by
  obtain ⟨ret', new_command, new_device⟩ := answer
  cases code
  rcases known with rfl | rfl <;> rfl

section

variable [Add F] [Sub F] [Mul F] [ToString F] (random_num : G → F × G) (defaultDevice : String)

def elementKind : Nat → Kind F G (Element F)
  | 0 => withBlocks (fun camera => Element.nextCommand random_num defaultDevice camera 0) noBlocks
  | depth + 1 =>
    withBlocks (fun camera => Element.nextCommand random_num defaultDevice camera (depth + 1))
      (elementKind depth).block

theorem single_follows {next : Camera → G → Element F → Answer F × G × Element F}
    {k : Kind F G (ElementFor (Element F))} {camera : Camera} {g : G} {e : CameraElement F}
    (good : e.Good) (called : next camera g (.single e) =
      let (answer, g, e) := e.nextCommand random_num defaultDevice camera g
      (answer, g, .single e)) :
    (withBlocks next k).Follows (CameraElement.nextCommand random_num defaultDevice camera) g
      (.single e) (next camera g (.single e)) := by
  cases played : e.nextCommand random_num defaultDevice camera g with
  | mk answer after =>
  obtain ⟨g', e'⟩ := after
  rw [called, played]
  rcases e.nextCommand_cases random_num defaultDevice camera g good played with
    ⟨ends, rfl⟩ | ⟨thrown | keep, good', same⟩
  · exact .ends rfl played ends
  · exact .throws rfl played thrown rfl good' (congrArg Element.single same)
  · exact .keeps rfl played keep (.inl rfl) rfl good' (congrArg Element.single same)

theorem elementKind_next (camera : Camera) (depth : Nat) :
    (elementKind random_num defaultDevice depth).next camera =
      Element.nextCommand random_num defaultDevice (F := F) camera depth := by
  cases depth <;> rfl

theorem elementKind_plays (depth : Nat) :
    (elementKind random_num defaultDevice depth).Plays
      (CameraElement.nextCommand random_num defaultDevice (F := F)) := by
  induction depth with
  | zero =>
    refine ⟨fun camera g e good => ?_, fun e good => ?_, fun e => ?_⟩
    · cases e with
      | single e => exact single_follows random_num defaultDevice good rfl
      | elementFor b => cases good
    · cases e with
      | single e => exact e.good_fresh good
      | elementFor b => cases good
    · cases e with
      | single e => exact congrArg Element.single e.fresh_fresh
      | elementFor b => rfl
  | succ depth ih =>
    have blocks := Kind.block_plays _ ih
    refine ⟨fun camera g e good => ?_, fun e good => ?_, fun e => ?_⟩
    · cases e with
      | single e => exact single_follows random_num defaultDevice good rfl
      | elementFor b =>
        refine elementFor_follows (blocks.follows camera g b good) ?_
        have next := elementKind_next random_num defaultDevice camera (F := F) depth
        simp only [Kind.block, Element.nextCommand, next]
        split <;> rfl
    · cases e with
      | single e => exact e.good_fresh good
      | elementFor b => exact blocks.good_fresh b good
    · cases e with
      | single e => exact congrArg Element.single e.fresh_fresh
      | elementFor b => exact congrArg Element.elementFor (blocks.fresh_fresh b)


def playList (camera : Camera) (g : G) :
    List (CameraElement F) → Answer F × G × List (CameraElement F)
  | [] => (⟨some .endScript, none, none⟩, g, [])
  | l :: ls =>
    let (answer, g, l') := l.nextCommand random_num defaultDevice camera g
    (answer, g, if answer.ret = some 0 then ls else l' :: ls)

variable {random_num defaultDevice} in
theorem playList_stays {camera : Camera} {g g' : G} {l l' : CameraElement F} {answer : Answer F}
    (played : l.nextCommand random_num defaultDevice camera g = (answer, g', l'))
    (stays : answer.ret ≠ some 0) (ls : List (CameraElement F)) :
    playList random_num defaultDevice camera g (l :: ls) = (answer, g', l' :: ls) := by
  simp only [playList, played, stays, if_false]

variable {random_num defaultDevice} in
theorem playList_ends {camera : Camera} {g g' : G} {l l' : CameraElement F} {answer : Answer F}
    (played : l.nextCommand random_num defaultDevice camera g = (answer, g', l'))
    (ends : answer.ret = some 0) (ls : List (CameraElement F)) :
    playList random_num defaultDevice camera g (l :: ls) = (answer, g', ls) := by
  simp only [playList, played, ends, if_true]

namespace Script

variable (depth : Nat)

structure Good (s : Script F) : Prop where
  defaultDevice_eq : s.defaultDevice = defaultDevice
  nesting_eq : s.nesting = depth
  good : ∀ e ∈ s.elements, (elementKind random_num defaultDevice depth).Good e
  others : ∀ i e, s.elements[i]? = some e → s.el_iter < i →
    (elementKind random_num defaultDevice depth).fresh e = e
  running : 0 ≤ s.executedCount

def rest (s : Script F) : List (CameraElement F) :=
  match s.elements[s.el_iter]? with
  | some e =>
    (elementKind random_num defaultDevice depth).rest e ++
      (elementKind random_num defaultDevice depth).whole (s.elements.drop (s.el_iter + 1))
  | none => []

theorem set_child {s : Script F} (good : s.Good random_num defaultDevice depth) {e e' : Element F}
    (there : s.elements[s.el_iter]? = some e)
    (good' : (elementKind random_num defaultDevice depth).Good e') :
    let s' := { s with elements := s.elements.set s.el_iter e' }
    s'.Good random_num defaultDevice depth ∧
      s'.rest random_num defaultDevice depth =
        (elementKind random_num defaultDevice depth).rest e' ++
          (elementKind random_num defaultDevice depth).whole (s.elements.drop (s.el_iter + 1)) := by
  refine ⟨⟨good.defaultDevice_eq, good.nesting_eq, fun x mem => ?_, fun i x listed after => ?_,
    good.running⟩, ?_⟩
  · rcases List.mem_or_eq_of_mem_set mem with mem | rfl
    · exact good.good x mem
    · exact good'
  · rw [List.getElem?_set_ne after.ne] at listed
    exact good.others i x listed after
  · have inside : s.el_iter < s.elements.length := (List.getElem?_eq_some_iff.mp there).1
    simp [rest, inside, List.drop_set]

theorem next_child {s : Script F} (good : s.Good random_num defaultDevice depth)
    {executedCount : Int} (running : 0 ≤ executedCount) :
    let s' := { s with el_iter := s.el_iter + 1, executedCount := executedCount }
    s'.Good random_num defaultDevice depth ∧
      s'.rest random_num defaultDevice depth =
        (elementKind random_num defaultDevice depth).whole (s.elements.drop (s.el_iter + 1)) := by
  refine ⟨⟨good.defaultDevice_eq, good.nesting_eq, good.good, fun i x listed after => ?_, running⟩,
    ?_⟩
  · exact good.others i x listed (Nat.lt_of_succ_lt after)
  · cases there : s.elements[s.el_iter + 1]? with
    | none =>
      have none_left := List.drop_eq_nil_of_le (List.getElem?_eq_none_iff.mp there)
      simp [rest, there, none_left, Kind.whole]
    | some e =>
      obtain ⟨inside, same⟩ := List.getElem?_eq_some_iff.mp there
      have fresh := good.others _ e there (Nat.lt_succ_self _)
      have first := List.drop_eq_getElem_cons inside
      rw [same] at first
      rw [first, Kind.whole, List.map_cons, List.flatMap_cons, fresh]
      simp [rest, there, Kind.whole]

theorem count_good {s : Script F} (good : s.Good random_num defaultDevice depth) :
    { s with executedCount := s.executedCount + 1 }.Good random_num defaultDevice depth :=
  ⟨good.defaultDevice_eq, good.nesting_eq, good.good, good.others,
    Int.add_nonneg good.running Int.one_nonneg⟩

theorem loop_follows (s : Script F) (good : s.Good random_num defaultDevice depth)
    (camera : Camera) (g : G) {answer : Answer F} {g' : G} {left : List (CameraElement F)}
    (list : playList random_num defaultDevice camera g (s.rest random_num defaultDevice depth) =
      (answer, g', left)) :
    ∃ s' : Script F, s.loop random_num camera g = (answer, g', s') ∧
      s'.Good random_num defaultDevice depth ∧ s'.rest random_num defaultDevice depth = left := by
  cases there : s.elements[s.el_iter]? with
  | none =>
    have nothing : s.rest random_num defaultDevice depth = [] := by simp [rest, there]
    have ended : s.loop random_num camera g = (⟨some .endScript, none, none⟩, g, s) := by
      rw [loop]
      split
      · rfl
      · rename_i e here
        simp [there] at here
    rw [nothing] at list
    cases list
    exact ⟨s, ended, good, nothing⟩
  | some e =>
    have plays := elementKind_plays (F := F) random_num defaultDevice depth
    have good_e := good.good e (List.mem_of_getElem? there)
    have rest_s : s.rest random_num defaultDevice depth =
        (elementKind random_num defaultDevice depth).rest e ++
          (elementKind random_num defaultDevice depth).whole (s.elements.drop (s.el_iter + 1)) := by
      simp [rest, there]
    have child := plays.follows camera g e good_e
    have inside : s.el_iter < s.elements.length := (List.getElem?_eq_some_iff.mp there).1
    cases called : (elementKind random_num defaultDevice depth).next camera g e with
    | mk handed after =>
    obtain ⟨g₁, e'⟩ := after
    rw [called] at child
    rw [elementKind_next, ← good.defaultDevice_eq, ← good.nesting_eq] at called
    rw [loop_eq random_num there called]
    cases child with
    | skips nothing =>
      obtain ⟨good_f, _⟩ := set_child random_num defaultDevice depth good there
        (plays.good_fresh e good_e)
      obtain ⟨good_n, rest_n⟩ := next_child random_num defaultDevice depth good_f good.running
      refine loop_follows _ good_n camera g ?_
      rw [rest_n, List.drop_set_of_lt (Nat.lt_succ_self _), ← List.nil_append (Kind.whole _ _),
        ← nothing, ← rest_s]
      exact list
    | throws first played thrown left' good' _ =>
      obtain ⟨good_s, rest_t⟩ := set_child random_num defaultDevice depth good there good'
      rw [rest_s, first, List.cons_append, playList_stays played (by simp [thrown])] at list
      cases list
      rw [thrown]
      exact ⟨_, rfl, good_s, by rw [rest_t, left', List.cons_append]⟩
    | keeps first played keep masked left' good' _ =>
      obtain ⟨good_s, rest_t⟩ := set_child random_num defaultDevice depth good there good'
      rw [rest_s, first, List.cons_append, playList_stays played (by simp [keep]; decide)] at list
      cases list
      refine ⟨_, ?_, count_good random_num defaultDevice depth good_s,
        by rw [← List.cons_append, ← left', ← rest_t]; rfl⟩
      rcases masked with rfl | rfl
      · rw [keep]
        rfl
      · rw [congrArg Answer.ret (Kind.masked_eq keep)]
        simp only [show Code.keep ||| Code.maskBlock ≠ Code.next by decide, if_false,
          scriptRet_masked _ keep (.inr rfl)]
    | ends last played ended =>
      obtain ⟨good_f, _⟩ := set_child random_num defaultDevice depth good there
        (plays.good_fresh e good_e)
      obtain ⟨good_n, rest_n⟩ := next_child random_num defaultDevice depth good_f
        (Int.add_nonneg good.running Int.one_nonneg)
      rw [rest_s, last, List.singleton_append, playList_ends played ended] at list
      cases list
      rw [ended]
      refine ⟨_, rfl, good_n, rest_n.trans ?_⟩
      rw [List.drop_set_of_lt (Nat.lt_succ_self _)]
    | goes first played ended left' good' _ =>
      obtain ⟨good_s, rest_t⟩ := set_child random_num defaultDevice depth good there good'
      rw [rest_s, first, List.cons_append, playList_ends played ended] at list
      cases list
      refine ⟨_, ?_, count_good random_num defaultDevice depth good_s,
        by rw [← left', ← rest_t]; rfl⟩
      rw [congrArg Answer.ret (Kind.masked_eq ended)]
      simp only [show (0 : Code) ||| Code.maskBlock ≠ Code.next by decide, if_false,
        scriptRet_masked _ ended (.inl rfl)]
termination_by s.elements.length - s.el_iter
decreasing_by
  simp only [List.length_set]
  omega

theorem nextCommand_follows {s : Script F} (good : s.Good random_num defaultDevice depth)
    (camera : Camera) (g : G) {answer : Answer F} {g' : G} {left : List (CameraElement F)}
    (list : playList random_num defaultDevice camera g (s.rest random_num defaultDevice depth) =
      (answer, g', left)) :
    ∃ s' : Script F, s.nextCommand random_num camera g = (answer, g', s') ∧
      s'.Good random_num defaultDevice depth ∧ s'.rest random_num defaultDevice depth = left := by
  rw [nextCommand, if_neg (not_lt.mpr good.running)]
  exact loop_follows random_num defaultDevice depth s good camera g list

end Script

def listAnswers : List Camera → G → List (CameraElement F) → List (Answer F)
  | [], _, _ => []
  | camera :: cameras, g, ls =>
    let (answer, g, ls) := playList random_num defaultDevice camera g ls
    answer :: listAnswers cameras g ls

theorem Script.answers_eq {depth : Nat} (cameras : List Camera) (g : G) {s : Script F}
    (good : s.Good random_num defaultDevice depth) :
    s.answers random_num cameras g =
      listAnswers random_num defaultDevice cameras g (s.rest random_num defaultDevice depth) := by
  induction cameras generalizing g s with
  | nil => rfl
  | cons camera cameras ih =>
    cases list : playList random_num defaultDevice camera g
      (s.rest random_num defaultDevice depth) with
    | mk answer after =>
    obtain ⟨g', left⟩ := after
    obtain ⟨s', next, good', rest'⟩ :=
      nextCommand_follows random_num defaultDevice depth good camera g list
    simp only [answers, next, listAnswers, list]
    rw [ih g' good', rest']

theorem Element.Parsed.unrolls {e : Element F} (parsed : e.Parsed) {depth : Nat}
    (bound : e.nesting ≤ depth) :
    (elementKind random_num defaultDevice depth).Good e ∧
      (elementKind random_num defaultDevice depth).fresh e = e ∧
      (elementKind random_num defaultDevice depth).rest e = e.unroll := by
  induction parsed generalizing depth with
  | single parsed =>
    cases depth with
    | zero => exact ⟨parsed.good, congrArg Element.single parsed.fresh, by rw [unroll]; rfl⟩
    | succ depth => exact ⟨parsed.good, congrArg Element.single parsed.fresh, by rw [unroll]; rfl⟩
  | @elementFor max blockElements parsed ih =>
    cases depth with
    | zero => simp [nesting] at bound
    | succ depth =>
      rw [nesting, Nat.succ_le_succ_iff] at bound
      have child (e : Element F) (mem : e ∈ blockElements) := ih e mem
        ((List.le_max_of_le' 0 (List.mem_map_of_mem mem) (le_refl e.nesting)).trans bound)
      obtain ⟨good, fresh, rest⟩ := Kind.block_unrolls
        (elementKind random_num defaultDevice depth) max (fun e mem => (child e mem).1)
        (fun e mem => (child e mem).2.1)
      refine ⟨good, congrArg Element.elementFor fresh, rest.trans ?_⟩
      rw [unroll, List.flatMap_congr fun e mem => (child e mem).2.2]

theorem Script.start_unrolls {elements : List (Element F)} (parsed : ∀ e ∈ elements, e.Parsed)
    {depth : Nat} (bound : ∀ e ∈ elements, e.nesting ≤ depth) :
    let s : Script F := ⟨elements, 0, 0, defaultDevice, depth⟩
    s.Good random_num defaultDevice depth ∧
      s.rest random_num defaultDevice depth = elements.flatMap Element.unroll := by
  have child (e : Element F) (mem : e ∈ elements) :=
    (parsed e mem).unrolls random_num defaultDevice (bound e mem)
  refine ⟨⟨rfl, rfl, fun e mem => (child e mem).1, fun i e listed _ => ?_, le_refl 0⟩, ?_⟩
  · exact (child e (List.mem_of_getElem? listed)).2.1
  · cases elements with
    | nil => rfl
    | cons e es =>
      have later : (elementKind random_num defaultDevice depth).whole es =
          es.flatMap Element.unroll := by
        rw [Kind.whole, List.flatMap_map]
        refine List.flatMap_congr fun x mem => ?_
        obtain ⟨_, fresh, rest⟩ := child x (List.mem_cons_of_mem e mem)
        exact (congrArg _ fresh).trans rest
      have first := (child e (by simp)).2.2
      simp only [rest, List.flatMap_cons]
      exact congrArg₂ (· ++ ·) first later

theorem Script.parsed_unrolls {elements : List (Element F)} (parsed : ∀ e ∈ elements, e.Parsed) :
    let s := Script.parsed defaultDevice elements
    s.Good random_num defaultDevice s.nesting ∧
      s.rest random_num defaultDevice s.nesting = elements.flatMap Element.unroll :=
  Script.start_unrolls random_num defaultDevice parsed fun e mem =>
    List.le_max_of_le' 0 (List.mem_map_of_mem mem) (le_refl e.nesting)

theorem Script.parsed_answers {elements : List (Element F)} (parsed : ∀ e ∈ elements, e.Parsed)
    (cameras : List Camera) (g : G) :
    (Script.parsed defaultDevice elements).answers random_num cameras g =
      listAnswers random_num defaultDevice cameras g (elements.flatMap Element.unroll) := by
  obtain ⟨good, rest⟩ := Script.parsed_unrolls random_num defaultDevice parsed
  rw [Script.answers_eq random_num defaultDevice cameras g good, rest]

end

/-- For every camera, every sequence of its answers and all random numbers, the calls of nextCommand
hand out the same as those of the script in which the blocks are unrolled. -/
theorem unrolled_script [Add F] [Sub F] [Mul F] [ToString F] (random_num : G → F × G)
    (defaultDevice : String) (elements : List (Element F)) (parsed : ∀ e ∈ elements, e.Parsed)
    (cameras : List Camera) (g : G) :
    (Script.parsed defaultDevice elements).answers random_num cameras g =
      (Script.parsed defaultDevice ((elements.flatMap Element.unroll).map Element.single)).answers
        random_num cameras g := by
  have flat : ∀ e ∈ (elements.flatMap Element.unroll).map Element.single, e.Parsed := by
    intro e mem
    obtain ⟨l, listed, rfl⟩ := List.mem_map.mp mem
    obtain ⟨x, there, mem⟩ := List.mem_flatMap.mp listed
    exact .single ((parsed x there).unroll_parsed l mem)
  have same : ((elements.flatMap Element.unroll).map Element.single).flatMap Element.unroll =
      elements.flatMap Element.unroll := by
    rw [List.flatMap_map]
    simp [Element.unroll]
  rw [Script.parsed_answers random_num defaultDevice parsed,
    Script.parsed_answers random_num defaultDevice flat, same]

def twoExposures : List (Element ℤ) :=
  [.elementFor ⟨2, [.single (.image ⟨0, 10, .first⟩),
    .elementFor ⟨3, [.single (.box 0 0 8 8)], 0, 0⟩], 0, 0⟩]

theorem unrolled_script_sample :
    (Script.parsed "C0" twoExposures).answers (fun g : ℤ => (g, g + 1))
      (List.replicate 20 ⟨none, true, true, true⟩) 0 =
    (Script.parsed "C0" ((twoExposures.flatMap Element.unroll).map Element.single)).answers
      (fun g : ℤ => (g, g + 1)) (List.replicate 20 ⟨none, true, true, true⟩) 0 := by
  refine unrolled_script _ _ twoExposures ?_ _ _
  refine List.forall_mem_singleton.mpr (.elementFor (List.forall_mem_cons.mpr ⟨?_, ?_⟩))
  · exact .single rfl
  · exact List.forall_mem_singleton.mpr (.elementFor (List.forall_mem_singleton.mpr (.single trivial)))

end Rts2.Scripts
