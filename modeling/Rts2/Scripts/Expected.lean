import Rts2.Scripts.Blocks

/-! The exposures a script says it will take, and those its calls hand out. The elements are the
exposures, the value changes, the waits and the blocks `for`; between two calls of nextCommand the
script may be asked by idle whether a wait is over. -/
namespace Rts2.Scripts.Expected

variable {F G E : Type}

def waitSignal : Code := 9

structure ElementSleep (F : Type) where
  sec : Option F
  timer : Bool
  sleeping : Bool
  expired : Bool

namespace ElementSleep

def nextCommand (e : ElementSleep F) : Code × ElementSleep F :=
  if e.sec.isNone then (.next, e)
  else if e.expired then (.next, { e with sleeping := false, expired := false })
  else if e.sleeping then (.keep, e)
  else (.keep, { e with timer := true, sleeping := true })

def idleCall (due : Bool) (e : ElementSleep F) : Code × ElementSleep F :=
  if e.timer && due then (.next, { e with expired := true }) else (.keep, e)

end ElementSleep

inductive Single (F : Type) where
  | camera (e : CameraElement F)
  | wait
  | waitAcquire (tar_id : Int)
  | waitSignal (sig : Int)
  | waitFor (deviceName valueName : String) (tarval range : F)
  | waitForIdle
  | sleep (e : ElementSleep F)

section

variable [Add F] [Sub F] [Mul F] [ToString F] (random_num : G → F × G)
  (waited : Single F → G → Bool × G) (defaultDevice : String)

namespace Single

/-- The surroundings tell whether a wait is over: nobody acquires the target, or sends the signal;
the value is reached, or is not known; the device is idle. -/
def nextCommand (camera : Camera) (g : G) : Single F → Answer F × G × Single F
  | .camera e =>
    let (answer, g, e) := e.nextCommand random_num defaultDevice camera g
    (answer, g, .camera e)
  | .wait => (⟨some .checkWait, none, none⟩, g, .wait)
  | e@(.waitAcquire _) =>
    let (passed, g) := waited e g
    (⟨some (if passed then .next else .waitAcqusition), none, none⟩, g, e)
  | e@(.waitSignal _) =>
    let (passed, g) := waited e g
    (⟨some (if passed then .next else Expected.waitSignal), none, none⟩, g, e)
  | e@(.waitFor ..) | e@.waitForIdle =>
    let (passed, g) := waited e g
    (⟨some (if passed then .next else .keep), none, none⟩, g, e)
  | .sleep e =>
    let (ret, e) := e.nextCommand
    (⟨some ret, none, none⟩, g, .sleep e)

def idleCall (due : Bool) (g : G) : Single F → Code × G × Single F
  | .sleep e =>
    let (ret, e) := e.idleCall due
    (ret, g, .sleep e)
  | e@(.waitFor ..) =>
    if due then
      let (passed, g) := waited e g
      (if passed then .next else .keep, g, e)
    else (.keep, g, e)
  | e => (.keep, g, e)

def getExpectedImages : Single F → Int
  | .camera (.sequence e) => e.repeats
  | .camera (.image _) | .camera (.shiftStoreEnd _ _) => 1
  | _ => 0

def Parsed : Single F → Prop
  | .camera (.sequence e) => e.done_exposures = 0 ∧ e.callProgress = .first
  | .camera (.image e) => e.callProgress = .first
  | .camera (.changeValue ..) => True
  | .camera _ => False
  | .sleep e => e.timer = false ∧ e.sleeping = false ∧ e.expired = false
  | .wait | .waitAcquire _ | .waitSignal _ | .waitFor .. | .waitForIdle => True

end Single

inductive Element (F : Type) where
  | single (e : Single F)
  | elementFor (b : ElementFor (Element F))

def int (i : Int) : Int := i.bmod (2 ^ 32)

def sumImages (images : List Int) : Int := images.foldl (fun ret image => int (ret + image)) 0

namespace Element

def nesting : Element F → Nat
  | .single _ => 0
  | .elementFor ⟨_, blockElements, _, _⟩ => (blockElements.map nesting).foldr max 0 + 1

def getExpectedImages : Element F → Int
  | .single e => e.getExpectedImages
  | .elementFor ⟨max, blockElements, _, _⟩ =>
    int (max * sumImages (blockElements.map getExpectedImages))

def nextCommand (camera : Camera) : Nat → G → Element F → Answer F × G × Element F
  | _, g, .single e =>
    let (answer, g, e) := e.nextCommand random_num waited defaultDevice camera g
    (answer, g, .single e)
  | 0, g, .elementFor b => (.skip, g, .elementFor b)
  | depth + 1, g, .elementFor b =>
    if b.endLoop || b.blockElements.isEmpty then (.skip, g, .elementFor b)
    else
      let (answer, g, b) := b.loop (nextCommand camera depth) g
      (answer, g, .elementFor b)

def idleCall (due : Bool) : Nat → G → Element F → Code × G × Element F
  | _, g, .single e =>
    let (ret, g, e) := e.idleCall waited due g
    (ret, g, .single e)
  | 0, g, .elementFor b => (.keep, g, .elementFor b)
  | depth + 1, g, .elementFor b =>
    match b.blockElements[b.curr_element]? with
    | none => (.keep, g, .elementFor b)
    | some ce =>
      let (ret, g, ce) := idleCall due depth g ce
      let b := { b with blockElements := b.blockElements.set b.curr_element ce }
      if ret = .next then (.next, g, .elementFor b.nextElement.2)
      else
        let (ret, b) := b.blockScriptRet ret
        (ret, g, .elementFor b)

end Element

inductive Element.Parsed : Element F → Prop
  | single {e : Single F} (parsed : e.Parsed) : Parsed (.single e)
  | elementFor {max : Int} {blockElements : List (Element F)}
      (parsed : ∀ e ∈ blockElements, Parsed e) : Parsed (.elementFor ⟨max, blockElements, 0, 0⟩)

/-- Up to the depth `nesting` elements call each other. -/
structure Script (F : Type) where
  elements : List (Element F)
  el_iter : Nat
  executedCount : Int
  defaultDevice : String
  nesting : Nat

namespace Script

def parsed (defaultDevice : String) (elements : List (Element F)) : Script F :=
  ⟨elements, 0, 0, defaultDevice, (elements.map Element.nesting).foldr max 0⟩

def getExpectedImages (s : Script F) : Int := sumImages (s.elements.map Element.getExpectedImages)

def scriptRet (s : Script F) (answer : Answer F) (ret : Code) : Answer F × Script F :=
  if ret &&& .maskBlock ≠ 0 then
    let ret := ret &&& ~~~.maskBlock
    ({ answer with ret := some ret },
      if ret ≠ .next then { s with executedCount := s.executedCount + 1 } else s)
  else if ret.ends then
    (answer, { s with el_iter := s.el_iter + 1, executedCount := s.executedCount + 1 })
  else if ret = .waiting then
    ({ answer with new_command := none }, { s with executedCount := s.executedCount + 1 })
  else (answer, { s with executedCount := s.executedCount + 1 })

def loop (camera : Camera) (g : G) (s : Script F) : Answer F × G × Script F :=
  match _inside : s.elements[s.el_iter]? with
  | none => (⟨some .endScript, none, none⟩, g, s)
  | some currElement =>
    match currElement.nextCommand random_num waited s.defaultDevice camera s.nesting g with
    | (answer, g, currElement) =>
      let s' := { s with elements := s.elements.set s.el_iter currElement }
      match answer.ret with
      | none => (answer, g, s')
      | some ret =>
        if ret = .next then loop camera g { s' with el_iter := s.el_iter + 1 }
        else
          let (answer, s) := s'.scriptRet answer ret
          (answer, g, s)
termination_by s.elements.length - s.el_iter
decreasing_by
  have bound : s.el_iter < s.elements.length := (List.getElem?_eq_some_iff.mp _inside).1
  simp only [List.length_set]
  omega

def nextCommand (camera : Camera) (g : G) (s : Script F) : Answer F × G × Script F :=
  if s.executedCount < 0 then (⟨some .endScript, none, none⟩, g, s)
  else s.loop random_num waited camera g

def idle (due : Bool) (g : G) (s : Script F) : Code × G × Script F :=
  match s.elements[s.el_iter]? with
  | none => (.keep, g, s)
  | some e =>
    let (ret, g, e) := e.idleCall waited due s.nesting g
    (ret, g, { s with elements := s.elements.set s.el_iter e })

end Script

/-- A call of nextCommand or of idle; between the calls the surroundings change. -/
inductive Event (G : Type) where
  | nextCommand (camera : Camera) (g : G)
  | idle (due : Bool) (g : G)

def Script.step (s : Script F) : Event G → Option (Answer F) × Script F
  | .nextCommand camera g =>
    let (answer, _, s) := s.nextCommand random_num waited camera g
    (some answer, s)
  | .idle due g => (none, (s.idle waited due g).2.2)

def Script.answers : List (Event G) → Script F → List (Answer F)
  | [], _ => []
  | event :: events, s =>
    (s.step random_num waited event).1.toList ++ answers events (s.step random_num waited event).2

end

def Complete (answers : List (Answer F)) : Prop := ∃ answer ∈ answers, answer.ret = some .endScript

def exposes (answer : Answer F) : Bool :=
  match answer.new_command with
  | some (.exposure _) => true
  | _ => false

def exposures (answers : List (Answer F)) : Nat := answers.countP exposes

theorem exposures_append (answers answers' : List (Answer F)) :
    exposures (answers ++ answers') = exposures answers + exposures answers' :=
  List.countP_append

/-- The exposures of an element that is not played yet; a sequence takes one also when it should
take none. -/
def Single.images : Single F → Nat
  | .camera (.sequence e) => (max e.repeats 1).toNat
  | .camera (.image _) => 1
  | _ => 0

namespace Element

def images : Element F → Nat
  | .single e => e.images
  | .elementFor ⟨max, blockElements, _, _⟩ => max.toNat * (blockElements.map images).sum

def surplus : Element F → Int
  | .single (.camera (.sequence e)) => max (1 - e.repeats) 0
  | .single _ => 0
  | .elementFor ⟨max, blockElements, _, _⟩ =>
    if 0 ≤ max then max * (blockElements.map surplus).sum
    else max * ((blockElements.map surplus).sum - (blockElements.map images).sum)

end Element

namespace Script

/-- Idle ends a wait at most in a block that is in no other, and with it no block that takes
exposures. -/
def Gentle (waited : Single F → G → Bool × G) (due : Bool) (g : G) (s : Script F) : Prop :=
  ∀ b, s.elements[s.el_iter]? = some (.elementFor b) →
    ((Element.elementFor b).idleCall waited due s.nesting g).1 = .next →
    (∃ e, b.blockElements[b.curr_element]? = some (.single e)) ∧
      (b.nextElement.1 = true → (Element.elementFor b).images = 0)

def Undisturbed [Add F] [Sub F] [Mul F] [ToString F] (random_num : G → F × G)
    (waited : Single F → G → Bool × G) : List (Event G) → Script F → Prop
  | [], _ => True
  | event :: events, s =>
    (∀ due g, event = .idle due g → s.Gentle waited due g) ∧
      Undisturbed random_num waited events (s.step random_num waited event).2

end Script

def passes (answer : Answer F) : Bool := answer.ret.any fun ret => ret = .next || ret.ends

/-- A kind of elements: how one is called, how many exposures it still takes, how many a fresh one
takes, which are fresh, and which states there are. -/
structure Kind (F G E : Type) where
  next : Camera → G → E → Answer F × G × E
  left : E → Nat
  whole : E → Nat
  Fresh : E → Prop
  Good : E → Prop

theorem next_kept : some Code.next ≠ some .cleared ∧ some Code.next ≠ some .waiting := by decide

theorem keep_kept : some Code.keep ≠ some .cleared ∧ some Code.keep ≠ some .waiting := by decide

namespace Kind

variable (k : Kind F G E)

structure Turn (e : E) (answer : Answer F) (e' : E) : Prop where
  good : k.Good e'
  whole : k.whole e' = k.whole e
  kept : answer.ret ≠ some .cleared
  handed : answer.ret ≠ some .waiting
  skips : answer.ret = some .next → exposes answer = false
  fresh : passes answer = true → k.Fresh e'
  left : exposures [answer] + (if passes answer then 0 else k.left e') = k.left e

structure Counted : Prop where
  turn : ∀ camera g e, k.Good e → ∀ answer g' e', k.next camera g e = (answer, g', e') →
    k.Turn e answer e'
  good_fresh : ∀ e, k.Fresh e → k.Good e
  left_fresh : ∀ e, k.Fresh e → k.left e = k.whole e

def total (es : List E) : Nat := (es.map k.whole).sum

def later (b : ElementFor E) : Nat :=
  k.total (b.blockElements.drop (b.curr_element + 1)) +
    (b.max - b.loopCount - 1).toNat * k.total b.blockElements

def blockLeft (b : ElementFor E) : Nat :=
  match b.blockElements[b.curr_element]? with
  | some e => if b.loopCount < b.max then k.left e + k.later b else 0
  | none => 0

def Nothing (b : ElementFor E) : Prop := 0 ≤ b.loopCount ∧ (b.max ≤ 0 ∨ b.blockElements = [])

structure Started (b : ElementFor E) : Prop where
  curr_element : b.curr_element = 0
  loopCount : b.loopCount = 0
  fresh : ∀ e ∈ b.blockElements, k.Fresh e

structure Live (b : ElementFor E) : Prop where
  good : ∀ e ∈ b.blockElements, k.Good e
  others : ∀ i e, b.blockElements[i]? = some e → i ≠ b.curr_element → k.Fresh e
  running : Scripts.Kind.Running b

def block : Kind F G (ElementFor E) where
  next camera g b :=
    if b.endLoop || b.blockElements.isEmpty then (.skip, g, b) else b.loop (k.next camera) g
  left := k.blockLeft
  whole b := b.max.toNat * k.total b.blockElements
  Fresh b := Nothing b ∨ k.Started b
  Good b := Nothing b ∨ k.Live b

theorem total_cons (e : E) (es : List E) : k.total (e :: es) = k.whole e + k.total es := by
  simp [total]

theorem total_set {es : List E} {i : Nat} {e e' : E} (there : es[i]? = some e)
    (same : k.whole e' = k.whole e) : k.total (es.set i e') = k.total es := by
  rw [total, Kind.map_set_same there same, total]

theorem set_child {b : ElementFor E} (live : k.Live b) {e e' : E}
    (there : b.blockElements[b.curr_element]? = some e) (whole : k.whole e' = k.whole e)
    (good : k.Good e') :
    let b' := { b with blockElements := b.blockElements.set b.curr_element e' }
    k.Live b' ∧ k.block.whole b' = k.block.whole b ∧
      k.blockLeft b' = k.left e' + k.later b ∧ k.later b' = k.later b := by
  obtain ⟨inside, least, less⟩ := live.running
  have total := k.total_set there whole
  refine ⟨⟨fun x mem => ?_, fun i x listed other => ?_, ⟨by simpa using inside, least, less⟩⟩,
    ?_, ?_, ?_⟩
  · rcases List.mem_or_eq_of_mem_set mem with mem | rfl
    · exact live.good x mem
    · exact good
  · rw [List.getElem?_set_ne (Ne.symm other)] at listed
    exact live.others i x listed other
  · simp only [block, total]
  · simp [blockLeft, later, inside, less, total, List.drop_set]
  · simp [later, total, List.drop_set]

theorem all_fresh {b : ElementFor E} (live : k.Live b) {e : E}
    (there : b.blockElements[b.curr_element]? = some e) (fresh : k.Fresh e) :
    ∀ x ∈ b.blockElements, k.Fresh x := by
  intro x mem
  obtain ⟨i, inside, listed⟩ := List.mem_iff_getElem.mp mem
  have there' : b.blockElements[i]? = some x := listed ▸ List.getElem?_eq_getElem inside
  by_cases here : i = b.curr_element
  · rw [here, there] at there'
    cases there'
    exact fresh
  · exact live.others i x there' here

theorem nextElement_ended {b b' : ElementFor E} (live : k.Live b)
    (fresh : ∀ e ∈ b.blockElements, k.Fresh e) (ended : b.nextElement = (true, b')) :
    k.Live b' ∧ k.Started b' ∧ k.block.whole b' = k.block.whole b ∧ k.later b = 0 := by
  obtain ⟨inside, least, less⟩ := live.running
  unfold ElementFor.nextElement at ended
  split at ended
  · rename_i last
    split at ended
    · rename_i reached
      simp only [ElementFor.endLoop, decide_eq_true_eq] at reached
      cases ended
      have nothing : b.blockElements.drop (b.curr_element + 1) = [] :=
        List.drop_eq_nil_of_le (by omega)
      have loops : (b.max - b.loopCount - 1).toNat = 0 := by omega
      refine ⟨⟨live.good, fun i e listed _ => fresh e (List.mem_of_getElem? listed), ?_⟩,
        ⟨rfl, rfl, fresh⟩, rfl, ?_⟩
      · exact ⟨Nat.zero_lt_of_lt inside, le_refl 0, lt_of_le_of_lt least less⟩
      · simp [later, nothing, loops, total]
    · cases ended
  · cases ended

theorem nextElement_goes {b b' : ElementFor E} (live : k.Live b)
    (fresh : ∀ e ∈ b.blockElements, k.Fresh e)
    (left_fresh : ∀ e, k.Fresh e → k.left e = k.whole e) (goes : b.nextElement = (false, b')) :
    k.Live b' ∧ k.block.whole b' = k.block.whole b ∧ k.blockLeft b' = k.later b := by
  obtain ⟨inside, least, less⟩ := live.running
  have others (i : Nat) (e : E) (listed : b.blockElements[i]? = some e) : k.Fresh e :=
    fresh e (List.mem_of_getElem? listed)
  unfold ElementFor.nextElement at goes
  split at goes
  · rename_i last
    split at goes
    · cases goes
    · rename_i going
      simp only [ElementFor.endLoop, decide_eq_true_eq, not_le] at going
      cases goes
      refine ⟨⟨live.good, fun i e listed _ => others i e listed, ?_⟩, rfl, ?_⟩
      · exact ⟨Nat.zero_lt_of_lt inside, by simp only; omega, going⟩
      · have nothing : b.blockElements.drop (b.curr_element + 1) = [] :=
          List.drop_eq_nil_of_le (by omega)
        have loops : (b.max - b.loopCount - 1).toNat =
            (b.max - (b.loopCount + 1) - 1).toNat + 1 := by omega
        obtain ⟨e, es, split⟩ := List.exists_cons_of_length_pos (Nat.zero_lt_of_lt inside)
        have first := left_fresh e (others 0 e (by simp [split]))
        rw [later, nothing, loops, Nat.succ_mul, split]
        simp only [blockLeft, List.getElem?_cons_zero, going, if_true, first, later,
          List.drop_succ_cons, List.drop_zero, total_cons]
        simp only [total, List.map_nil, List.sum_nil]
        omega
  · rename_i more
    cases goes
    have next : b.curr_element + 1 < b.blockElements.length := by omega
    refine ⟨⟨live.good, fun i e listed _ => others i e listed, ⟨next, least, less⟩⟩, rfl, ?_⟩
    have first := left_fresh _ (others _ _ (List.getElem?_eq_getElem next))
    rw [later, List.drop_eq_getElem_cons next, total_cons]
    simp only [blockLeft, List.getElem?_eq_getElem next, less, if_true, first, later]
    omega

theorem blockLeft_eq {b : ElementFor E} (running : Scripts.Kind.Running b) {e : E}
    (there : b.blockElements[b.curr_element]? = some e) : k.blockLeft b = k.left e + k.later b := by
  rw [blockLeft, there]
  exact if_pos running.2.2

theorem blockLeft_nothing {b : ElementFor E} (nothing : Nothing b) : k.blockLeft b = 0 := by
  obtain ⟨least, never | empty⟩ := nothing
  · rw [blockLeft]
    split
    · exact if_neg (by omega)
    · rfl
  · simp [blockLeft, empty]

theorem passes_next {answer : Answer F} (code : answer.ret = some .next) : passes answer = true := by
  simp [passes, code]

theorem passes_some {answer : Answer F} {ret : Code} (code : answer.ret = some ret)
    (found : ret ≠ .next) : passes answer = ret.ends := by
  simp [passes, code, found]

theorem exposures_ret (answer : Answer F) (ret : Option Code) :
    exposures [{ answer with ret := ret }] = exposures [answer] := rfl

theorem exposures_none {answer : Answer F} (nothing : exposes answer = false) :
    exposures [answer] = 0 := by
  simp [exposures, nothing]

theorem loop_turn (counted : k.Counted) (camera : Camera) (g : G) (b : ElementFor E)
    (live : k.Live b) {answer : Answer F} {g' : G} {b' : ElementFor E}
    (called : b.loop (k.next camera) g = (answer, g', b')) : k.block.Turn b answer b' := by
  obtain ⟨e, there⟩ : ∃ e, b.blockElements[b.curr_element]? = some e :=
    ⟨_, List.getElem?_eq_getElem live.running.1⟩
  have left := k.blockLeft_eq live.running there
  cases played : k.next camera g e with
  | mk handed after =>
  obtain ⟨g₁, e'⟩ := after
  have turn := counted.turn camera g e (live.good e (List.mem_of_getElem? there)) _ _ _ played
  obtain ⟨live_e, whole_e, left_e, later_e⟩ := k.set_child live there turn.whole turn.good
  rw [ElementFor.loop_eq there played] at called
  dsimp only at called
  cases code : handed.ret with
  | none =>
    have stays : passes handed = false := by simp [passes, code]
    have handed_left := turn.left
    rw [code] at called
    cases called
    rw [stays, if_neg Bool.false_ne_true] at handed_left
    refine ⟨.inr live_e, whole_e, turn.kept, turn.handed, turn.skips, fun passed => ?_, ?_⟩
    · rw [stays] at passed
      cases passed
    · rw [stays, if_neg Bool.false_ne_true]
      change exposures [answer] + k.blockLeft _ = k.blockLeft b
      omega
  | some ret =>
    rw [code] at called
    dsimp only at called
    have all (passed : passes handed = true) := k.all_fresh (e := e')
      (b := { b with blockElements := b.blockElements.set b.curr_element e' }) live_e
      (by simp [live.running.1]) (turn.fresh passed)
    cases goes : { b with blockElements := b.blockElements.set b.curr_element e' }.nextElement with
    | mk ended following =>
    by_cases skip : ret = .next
    · rw [if_pos skip, goes] at called
      have passed := passes_next (code.trans (congrArg some skip))
      have handed_left := turn.left
      rw [passed, if_pos rfl, exposures_none (turn.skips (skip ▸ code))] at handed_left
      cases ended with
      | true =>
        cases called
        obtain ⟨live_n, started, whole_n, nothing⟩ := k.nextElement_ended live_e (all passed) goes
        refine ⟨.inr live_n, whole_n.trans whole_e, next_kept.1, next_kept.2, fun _ => rfl,
          fun _ => .inr started, ?_⟩
        · rw [passes_next rfl, if_pos rfl, exposures_none rfl]
          change 0 + 0 = k.blockLeft b
          omega
      | false =>
        obtain ⟨live_n, whole_n, left_n⟩ :=
          k.nextElement_goes live_e (all passed) counted.left_fresh goes
        have less := ElementFor.nextElement_less live_e.running.1 goes
        have rest := loop_turn counted camera g₁ following live_n called
        refine ⟨rest.good, rest.whole.trans (whole_n.trans whole_e), rest.kept, rest.handed, rest.skips,
          rest.fresh, rest.left.trans ?_⟩
        change k.blockLeft following = k.blockLeft b
        omega
    · rw [if_neg skip] at called
      have kept : ret ≠ .cleared := fun same => turn.kept (code.trans (congrArg some same))
      have handed_on : ret ≠ .waiting := fun same => turn.handed (code.trans (congrArg some same))
      obtain ⟨found, masked, waits, stays⟩ := Code.masked_stays skip kept
      cases ends : ret.ends with
      | false =>
        rw [ElementFor.blockScriptRet, if_neg (by simp [ends])] at called
        dsimp only at called
        cases called
        have handed_left := turn.left
        rw [passes_some code skip, ends, if_neg Bool.false_ne_true] at handed_left
        refine ⟨.inr live_e, whole_e, fun same => masked (Option.some.inj same),
          fun same => waits (Option.some.inj same),
          fun next => absurd (Option.some.inj next) found, fun passed => ?_, ?_⟩
        · rw [passes_some rfl found, stays] at passed
          cases passed
        · rw [passes_some rfl found, stays, if_neg Bool.false_ne_true, exposures_ret]
          change exposures [handed] + k.blockLeft _ = k.blockLeft b
          omega
      | true =>
        have passed : passes handed = true := (passes_some code skip).trans ends
        have handed_left := turn.left
        rw [passed, if_pos rfl] at handed_left
        rw [ElementFor.blockScriptRet, if_pos ends, goes] at called
        cases ended with
        | true =>
          cases called
          obtain ⟨live_n, started, whole_n, nothing⟩ := k.nextElement_ended live_e (all passed) goes
          refine ⟨.inr live_n, whole_n.trans whole_e, fun same => kept (Option.some.inj same),
            fun same => handed_on (Option.some.inj same),
            fun next => absurd (Option.some.inj next) skip, fun _ => .inr started, ?_⟩
          rw [passes_some rfl skip, ends, if_pos rfl, exposures_ret]
          change exposures [handed] + 0 = k.blockLeft b
          omega
        | false =>
          cases called
          obtain ⟨live_n, whole_n, left_n⟩ :=
            k.nextElement_goes live_e (all passed) counted.left_fresh goes
          refine ⟨.inr live_n, whole_n.trans whole_e, fun same => masked (Option.some.inj same),
          fun same => waits (Option.some.inj same),
            fun next => absurd (Option.some.inj next) found, fun passed => ?_, ?_⟩
          · rw [passes_some rfl found, stays] at passed
            cases passed
          · rw [passes_some rfl found, stays, if_neg Bool.false_ne_true, exposures_ret]
            change exposures [handed] + k.blockLeft following = k.blockLeft b
            omega
termination_by ((b.max - b.loopCount).toNat, b.blockElements.length - b.curr_element)
decreasing_by
  obtain ⟨max, length, less⟩ := less
  simp only [List.length_set] at max length less
  rcases less with less | ⟨same, less⟩
  · exact Prod.Lex.left _ _ less
  · rw [max, same]
    exact Prod.Lex.right _ less

theorem block_counted (counted : k.Counted) : k.block.Counted := by
  refine ⟨fun camera g b good answer g' b' called => ?_, fun b fresh => ?_, fun b fresh => ?_⟩
  · rcases good with nothing | live
    · have stops : (b.endLoop || b.blockElements.isEmpty) = true := by
        obtain ⟨least, never | empty⟩ := nothing
        · simp [ElementFor.endLoop, never.trans least]
        · simp [empty]
      cases (if_pos stops).symm.trans called
      refine ⟨.inl nothing, rfl, next_kept.1, next_kept.2, fun _ => rfl, fun _ => .inl nothing, ?_⟩
      · rw [passes_next rfl, if_pos rfl, exposures_none rfl]
        exact (k.blockLeft_nothing nothing).symm
    · have goes : (b.endLoop || b.blockElements.isEmpty) = false := by
        obtain ⟨inside, _, less⟩ := live.running
        simp [ElementFor.endLoop, less, List.ne_nil_of_length_pos (Nat.zero_lt_of_lt inside)]
      have runs := (if_neg (Bool.eq_false_iff.mp goes)).symm.trans called
      exact k.loop_turn counted camera g b live runs
  · rcases fresh with nothing | started
    · exact .inl nothing
    · by_cases nothing : b.max ≤ 0 ∨ b.blockElements = []
      · exact .inl ⟨started.loopCount.ge, nothing⟩
      · obtain ⟨positive, some_element⟩ := not_or.mp nothing
        refine .inr ⟨fun e mem => counted.good_fresh e (started.fresh e mem),
          fun i e listed _ => started.fresh e (List.mem_of_getElem? listed), ?_, ?_, ?_⟩
        · exact started.curr_element ▸ List.length_pos_of_ne_nil some_element
        · exact started.loopCount.ge
        · exact started.loopCount ▸ not_le.mp positive
  · rcases fresh with nothing | started
    · refine (k.blockLeft_nothing nothing).trans ?_
      obtain ⟨_, never | empty⟩ := nothing
      · simp [block, Int.toNat_of_nonpos never]
      · simp [block, empty, total]
    · cases elements : b.blockElements with
      | nil => simp [block, blockLeft, elements, total]
      | cons e es =>
        have first := counted.left_fresh e (started.fresh e (by simp [elements]))
        by_cases positive : 0 < b.max
        · have loops : b.max.toNat = (b.max - 1).toNat + 1 := by omega
          simp only [block, blockLeft, later, elements, started.curr_element, started.loopCount,
            List.getElem?_cons_zero, positive, if_true, first, loops, List.drop_succ_cons,
            List.drop_zero, total_cons, Nat.succ_mul, Int.sub_zero]
          omega
        · simp [block, blockLeft, elements, started.curr_element, started.loopCount, positive,
            Int.toNat_of_nonpos (not_lt.mp positive)]

end Kind

theorem ElementSleep.nextCommand_kept (e : ElementSleep F) :
    some e.nextCommand.1 ≠ some .cleared ∧ some e.nextCommand.1 ≠ some .waiting := by
  unfold nextCommand
  split
  · exact next_kept
  · split
    · exact next_kept
    · split
      · exact keep_kept
      · exact keep_kept

namespace Single

def left : Single F → Nat
  | .camera (.sequence e) => (max (e.repeats - e.done_exposures) 1).toNat
  | .camera (.image _) => 1
  | _ => 0

def Fresh : Single F → Prop
  | .camera (.sequence e) => e.done_exposures = 0
  | _ => True

theorem left_fresh {e : Single F} (fresh : e.Fresh) : e.left = e.images := by
  unfold left images
  split
  · have none_done : _ = (0 : Int) := fresh
    rw [none_done, Int.sub_zero]
  · rfl
  · rfl

def kind (next : Camera → G → Single F → Answer F × G × Single F) : Kind F G (Single F) where
  next := next
  left := left
  whole := images
  Fresh := Fresh
  Good _ := True

end Single

def Takes (e : ElementSequence F) (turn : Code × Option (Command F) × ElementSequence F) : Prop :=
  turn.2.2.repeats = e.repeats ∧
    (turn.1 = 0 ∧ turn.2.2.done_exposures = 0 ∧
        exposures [⟨none, turn.2.1, none⟩] = (max (e.repeats - e.done_exposures) 1).toNat ∨
      turn.1 = .keep ∧
        exposures [⟨none, turn.2.1, none⟩] +
            (max (turn.2.2.repeats - turn.2.2.done_exposures) 1).toNat =
          (max (e.repeats - e.done_exposures) 1).toNat)

theorem expose_takes (e : ElementSequence F) : Takes e e.expose := by
  unfold ElementSequence.expose
  dsimp only
  split
  · refine ⟨rfl, .inr ⟨rfl, ?_⟩⟩
    change 1 + (max (e.repeats - (e.done_exposures + 1)) 1).toNat = _
    omega
  · refine ⟨rfl, .inl ⟨rfl, rfl, ?_⟩⟩
    change 1 = _
    omega

theorem changeExposure_takes (camera : Camera) (e : ElementSequence F) :
    Takes e (e.changeExposure camera) := by
  unfold ElementSequence.changeExposure
  split
  · exact ⟨rfl, .inr ⟨rfl, Nat.zero_add _⟩⟩
  · exact expose_takes e

theorem changeFilter_takes (camera : Camera) (e : ElementSequence F) :
    Takes e (e.changeFilter camera) := by
  unfold ElementSequence.changeFilter
  split
  · dsimp only
    split
    · exact ⟨rfl, .inr ⟨rfl, Nat.zero_add _⟩⟩
    · exact changeExposure_takes camera { e with callProgress := .filter }
  · exact changeExposure_takes camera e

theorem sequence_takes (camera : Camera) (e : ElementSequence F) :
    Takes e (e.nextCommand camera) := by
  unfold ElementSequence.nextCommand
  split
  · split
    · exact ⟨rfl, .inr ⟨rfl, Nat.zero_add _⟩⟩
    · dsimp only
      split
      · exact ⟨rfl, .inr ⟨rfl, Nat.zero_add _⟩⟩
      · exact changeFilter_takes camera { e with callProgress := .shutter }
  · exact changeFilter_takes camera e

theorem image_takes (camera : Camera) (e : ElementImage F) :
    (e.nextCommand camera).1 = 0 ∧ exposures [⟨none, (e.nextCommand camera).2.1, none⟩] = 1 ∨
      (e.nextCommand camera).1 = .keep ∧
        exposures [⟨none, (e.nextCommand camera).2.1, none⟩] = 0 := by
  unfold ElementImage.nextCommand ElementImage.changeExposure
  split
  · split
    · exact .inr ⟨rfl, rfl⟩
    · dsimp only
      split
      · exact .inr ⟨rfl, rfl⟩
      · split
        · exact .inr ⟨rfl, rfl⟩
        · exact .inl ⟨rfl, rfl⟩
  · split
    · exact .inr ⟨rfl, rfl⟩
    · exact .inl ⟨rfl, rfl⟩

namespace Single

theorem idleCall_left (waited : Single F → G → Bool × G) (due : Bool) (g : G) (e : Single F) :
    (e.idleCall waited due g).2.2.images = e.images ∧
      (e.idleCall waited due g).2.2.left = e.left ∧
      ((e.idleCall waited due g).1 = .keep ∨ (e.idleCall waited due g).1 = .next ∧ e.left = 0 ∧
        (e.idleCall waited due g).2.2.Fresh) := by
  unfold idleCall
  split
  · rename_i e
    refine ⟨rfl, rfl, ?_⟩
    unfold ElementSleep.idleCall
    cases e.timer && due with
    | true => exact .inr ⟨rfl, rfl, trivial⟩
    | false => exact .inl rfl
  · split
    · dsimp only
      refine ⟨rfl, rfl, ?_⟩
      split
      · exact .inr ⟨rfl, rfl, trivial⟩
      · exact .inl rfl
    · exact ⟨rfl, rfl, .inl rfl⟩
  · exact ⟨rfl, rfl, .inl rfl⟩

theorem turn_none {next : Camera → G → Single F → Answer F × G × Single F} {e e' : Single F}
    {ret : Option Code} {new_command : Option (Command F)} {new_device : Option String}
    (kept : ret ≠ some .cleared ∧ ret ≠ some .waiting) (hands : exposes ⟨none, new_command, none⟩ = false)
    (left : e.left = 0) (left' : e'.left = 0) (whole : e'.images = e.images)
    (fresh : e'.Fresh) : (kind next).Turn e ⟨ret, new_command, new_device⟩ e' := by
  refine ⟨trivial, whole, kept.1, kept.2, fun _ => hands, fun _ => fresh, ?_⟩
  have nothing : exposures [⟨ret, new_command, new_device⟩] = 0 :=
    Kind.exposures_none hands
  rw [nothing]
  change 0 + (if passes _ then 0 else e'.left) = e.left
  rw [left, left', ite_self]

theorem turn_of {next : Camera → G → Single F → Answer F × G × Single F} {e e' : Single F}
    {ret : Code} {new_command : Option (Command F)} {new_device : Option String}
    (whole : e'.images = e.images)
    (turn : ret = 0 ∧ e'.Fresh ∧ exposures [⟨none, new_command, none⟩] = e.left ∨
      ret = .keep ∧ exposures [⟨none, new_command, none⟩] + e'.left = e.left) :
    (kind next).Turn e ⟨some ret, new_command, new_device⟩ e' := by
  rcases turn with ⟨rfl, fresh, left⟩ | ⟨rfl, left⟩
  · have ends : passes (⟨some 0, new_command, new_device⟩ : Answer F) = true := by
      rw [Kind.passes_some rfl (by decide)]
      decide
    refine ⟨trivial, whole, fun same => absurd (Option.some.inj same) (by decide),
      fun same => absurd (Option.some.inj same) (by decide),
      fun next => absurd (Option.some.inj next) (by decide), fun _ => fresh, ?_⟩
    rw [ends, if_pos rfl]
    exact left
  · have stays : passes (⟨some .keep, new_command, new_device⟩ : Answer F) = false := by
      rw [Kind.passes_some rfl (by decide)]
      decide
    refine ⟨trivial, whole, fun same => absurd (Option.some.inj same) (by decide),
      fun same => absurd (Option.some.inj same) (by decide),
      fun next => absurd (Option.some.inj next) (by decide), fun passed => ?_, ?_⟩
    · rw [stays] at passed
      cases passed
    · rw [stays, if_neg Bool.false_ne_true]
      exact left

variable [Add F] [Sub F] [Mul F] [ToString F] (random_num : G → F × G)
  (waited : Single F → G → Bool × G) (defaultDevice : String)

theorem camera_turn {next : Camera → G → Single F → Answer F × G × Single F} (camera : Camera)
    (g : G) (e : CameraElement F) {answer : Answer F} {g' : G} {e' : CameraElement F}
    (called : e.nextCommand random_num defaultDevice camera g = (answer, g', e')) :
    (kind next).Turn (.camera e) answer (.camera e') := by
  cases e with
  | sequence e =>
    cases called
    obtain ⟨repeats, turn⟩ := sequence_takes camera e
    refine turn_of ?_ ?_
    · change (max (e.nextCommand camera).2.2.repeats 1).toNat = (max e.repeats 1).toNat
      rw [repeats]
    · exact turn
  | image e =>
    cases called
    refine turn_of rfl ?_
    rcases image_takes camera e with ⟨ends, one⟩ | ⟨keep, nothing⟩
    · exact .inl ⟨ends, trivial, one⟩
    · exact .inr ⟨keep, (congrArg (· + 1) nothing).trans rfl⟩
  | changeValue deviceName valName op operands =>
    simp only [CameraElement.nextCommand] at called
    split at called
    · cases called
      exact turn_none (by decide) rfl rfl rfl rfl trivial
    · cases called
      exact turn_none (by decide) rfl rfl rfl rfl trivial
    · split at called
      · cases called
        exact turn_none (by simp) rfl rfl rfl rfl trivial
      · rename_i op _ text _ _ _
        cases called
        refine turn_none (by decide) ?_ rfl rfl rfl trivial
        unfold CameraElement.changeCommand
        dsimp only
        split <;> rfl
  | shiftStoreStart _ | shiftStoreProgress _ _ | shiftStoreEnd _ _ | box _ _ _ _ | center _ _
  | command _ _ _ =>
    cases called
    exact turn_none (by decide) rfl rfl rfl rfl trivial

theorem counted :
    (kind (nextCommand (F := F) random_num waited defaultDevice)).Counted := by
  refine ⟨fun camera g e _ answer g' e' called => ?_, fun _ _ => trivial, fun e => left_fresh⟩
  cases e with
  | camera e => 
    cases played : e.nextCommand random_num defaultDevice camera g with
    | mk handed after =>
    obtain ⟨g₁, e₁⟩ := after
    simp only [kind, nextCommand, played] at called
    cases called
    exact camera_turn random_num defaultDevice camera g e played
  | sleep e =>
    have kept := e.nextCommand_kept
    cases called
    exact turn_none kept rfl rfl rfl rfl trivial
  | wait =>
    cases called
    exact turn_none (by decide) rfl rfl rfl rfl trivial
  | waitAcquire _ | waitSignal _ | waitFor _ _ _ _ | waitForIdle =>
    cases called
    refine turn_none ?_ rfl rfl rfl rfl trivial
    split <;> decide

end Single

/-- Elements that are blocks of the kind `k`, or no blocks. -/
def withBlocks (next : Camera → G → Element F → Answer F × G × Element F)
    (k : Kind F G (ElementFor (Element F))) : Kind F G (Element F) where
  next := next
  left
    | .single e => e.left
    | .elementFor b => k.left b
  whole
    | .single e => e.images
    | .elementFor b => k.whole b
  Fresh
    | .single e => e.Fresh
    | .elementFor b => k.Fresh b
  Good
    | .single _ => True
    | .elementFor b => k.Good b

def noBlocks : Kind F G (ElementFor (Element F)) where
  next _ g b := (.skip, g, b)
  left _ := 0
  whole _ := 0
  Fresh _ := False
  Good _ := False

namespace Kind

structure Same (k : Kind F G E) (e e' : E) : Prop where
  good : k.Good e'
  whole : k.whole e' = k.whole e
  left : k.left e' = k.left e

theorem Nothing.nextElement {b : ElementFor E} (nothing : Nothing b) : Nothing b.nextElement.2 := by
  obtain ⟨least, never⟩ := nothing
  unfold ElementFor.nextElement
  split
  · split
    · exact ⟨le_refl 0, never⟩
    · exact ⟨Int.add_nonneg least Int.one_nonneg, never⟩
  · exact ⟨least, never⟩

theorem nextElement_max (b : ElementFor E) :
    b.nextElement.2.max = b.max ∧ b.nextElement.2.blockElements = b.blockElements := by
  unfold ElementFor.nextElement
  split
  · split <;> exact ⟨rfl, rfl⟩
  · exact ⟨rfl, rfl⟩

theorem Nothing.same {k : Kind F G E} {b b' : ElementFor E} (nothing : Nothing b)
    (nothing' : Nothing b') (max : b'.max = b.max)
    (elements : b.blockElements = [] → b'.blockElements = []) : k.block.Same b b' := by
  refine ⟨.inl nothing', ?_, (k.blockLeft_nothing nothing').trans (k.blockLeft_nothing nothing).symm⟩
  obtain ⟨_, never | empty⟩ := nothing
  · simp [block, max, Int.toNat_of_nonpos never]
  · simp [block, empty, elements empty, total]

theorem Nothing.set {k : Kind F G E} {b : ElementFor E} (nothing : Nothing b) (e : E) :
    k.block.Same b { b with blockElements := b.blockElements.set b.curr_element e } := by
  have empty (none_there : b.blockElements = []) : b.blockElements.set b.curr_element e = [] := by
    simp [none_there]
  exact nothing.same ⟨nothing.1, nothing.2.imp_right empty⟩ rfl empty

theorem nextElement_set (b : ElementFor E) (e : E) :
    ({ b with blockElements := b.blockElements.set b.curr_element e } : ElementFor E).nextElement.1 =
      b.nextElement.1 := by
  simp only [ElementFor.nextElement, List.length_set, ElementFor.endLoop]
  split
  · by_cases reached : b.max ≤ b.loopCount + 1
    · simp [reached]
    · simp [reached]
  · rfl

theorem Same.goes_on {k : Kind F G E} (counted : k.Counted) {b : ElementFor E}
    (good : k.block.Good b) {e e' : E} (there : b.blockElements[b.curr_element]? = some e)
    (whole : k.whole e' = k.whole e) (fresh : k.Fresh e') (none_left : k.left e = 0)
    (gentle : b.nextElement.1 = true → k.block.whole b = 0) :
    k.block.Same b { b with blockElements := b.blockElements.set b.curr_element e' }.nextElement.2 := by
  rcases good with nothing | live
  · have set := nothing.set (k := k) e'
    have max := nextElement_max { b with blockElements := b.blockElements.set b.curr_element e' }
    have empty (none_there : b.blockElements = []) : b.blockElements.set b.curr_element e' = [] := by
      simp [none_there]
    have nothing' : Nothing { b with blockElements := b.blockElements.set b.curr_element e' } :=
      ⟨nothing.1, nothing.2.imp_right empty⟩
    exact nothing.same nothing'.nextElement max.1 fun none_there => max.2.trans (empty none_there)
  · obtain ⟨live', whole', _, later'⟩ := k.set_child live there whole (counted.good_fresh e' fresh)
    have all := k.all_fresh live' (by simp [live.running.1]) fresh
    have left := k.blockLeft_eq live.running there
    have ends := nextElement_set b e'
    cases goes : { b with blockElements := b.blockElements.set b.curr_element e' }.nextElement with
    | mk ended following =>
    cases ended with
    | true =>
      obtain ⟨live_n, started, whole_n, nothing⟩ := k.nextElement_ended live' all goes
      have none_taken := gentle (ends.symm.trans (congrArg Prod.fst goes))
      have left_n := (k.block_counted counted).left_fresh following (.inr started)
      refine ⟨.inr live_n, whole_n.trans whole', ?_⟩
      change k.blockLeft following = k.blockLeft b
      change k.blockLeft following = k.block.whole following at left_n
      omega
    | false =>
      obtain ⟨live_n, whole_n, left_n⟩ := k.nextElement_goes live' all counted.left_fresh goes
      refine ⟨.inr live_n, whole_n.trans whole', ?_⟩
      change k.blockLeft following = k.blockLeft b
      omega

end Kind

theorem single_same {k : Kind F G (ElementFor (Element F))}
    {next : Camera → G → Element F → Answer F × G × Element F}
    (waited : Single F → G → Bool × G) (due : Bool) (g : G)
    (e : Single F) : (withBlocks next k).Same (.single e) (.single (e.idleCall waited due g).2.2) := by
  obtain ⟨whole, left, _⟩ := e.idleCall_left waited due g
  exact ⟨trivial, whole, left⟩

theorem idleCall_code (waited : Single F → G → Bool × G) (due : Bool) (depth : Nat) (g : G) (e : Element F) :
    (e.idleCall waited due depth g).1 = .next ∨ (e.idleCall waited due depth g).1 = .keep ∨
      (e.idleCall waited due depth g).1 = .keep ||| .maskBlock := by
  induction depth generalizing g e with
  | zero =>
    cases e with
    | single e =>
      obtain ⟨_, _, keep | ⟨next, _⟩⟩ := e.idleCall_left waited due g
      · exact .inr (.inl keep)
      · exact .inl next
    | elementFor b => exact .inr (.inl rfl)
  | succ depth ih =>
    cases e with
    | single e =>
      obtain ⟨_, _, keep | ⟨next, _⟩⟩ := e.idleCall_left waited due g
      · exact .inr (.inl keep)
      · exact .inl next
    | elementFor b =>
      rw [Element.idleCall]
      split
      · exact .inr (.inl rfl)
      · rename_i ce _
        have known := ih g ce
        dsimp only
        split
        · exact .inl rfl
        · rename_i found
          rcases known with next | keep | keep
          · exact absurd next found
          · rw [keep]
            exact .inr (.inr rfl)
          · rw [keep]
            exact .inr (.inr rfl)

theorem idleCall_elementFor (waited : Single F → G → Bool × G) {due : Bool} {depth : Nat} {g : G} {b : ElementFor (Element F)}
    {ce : Element F} (there : b.blockElements[b.curr_element]? = some ce) :
    ((Element.elementFor b).idleCall waited due (depth + 1) g).2.2 =
      let b' := { b with blockElements :=
        b.blockElements.set b.curr_element (ce.idleCall waited due depth g).2.2 }
      if (ce.idleCall waited due depth g).1 = .next then .elementFor b'.nextElement.2
      else .elementFor b' := by
  rw [Element.idleCall, there]
  dsimp only
  split
  · rfl
  · rename_i found
    rcases idleCall_code waited due depth g ce with next | keep | keep
    · exact absurd next found
    · rw [keep]
      rfl
    · rw [keep]
      rfl

theorem idleCall_child (waited : Single F → G → Bool × G) {due : Bool} {depth : Nat} {g : G}
    {b : ElementFor (Element F)} {ce : Element F}
    (there : b.blockElements[b.curr_element]? = some ce)
    (next : ((Element.elementFor b).idleCall waited due (depth + 1) g).1 = .next) :
    (ce.idleCall waited due depth g).1 = .next := by
  rw [Element.idleCall, there] at next
  dsimp only at next
  by_contra stays
  rw [if_neg stays] at next
  rcases idleCall_code waited due depth g ce with known | keep | keep
  · exact stays known
  · rw [keep] at next
    change Code.keep ||| .maskBlock = .next at next
    exact absurd next (by decide)
  · rw [keep] at next
    change Code.keep ||| .maskBlock ||| .maskBlock = .next at next
    exact absurd next (by decide)

section

variable [Add F] [Sub F] [Mul F] [ToString F] (random_num : G → F × G)
  (waited : Single F → G → Bool × G) (defaultDevice : String)

def elementKind : Nat → Kind F G (Element F)
  | 0 => withBlocks (fun camera => Element.nextCommand random_num waited defaultDevice camera 0)
      noBlocks
  | depth + 1 =>
    withBlocks (fun camera => Element.nextCommand random_num waited defaultDevice camera (depth + 1))
      (elementKind depth).block

theorem elementKind_next (camera : Camera) (depth : Nat) :
    (elementKind random_num waited defaultDevice depth).next camera =
      Element.nextCommand random_num waited defaultDevice (F := F) camera depth := by
  cases depth <;> rfl

theorem single_turn {k : Kind F G (ElementFor (Element F))}
    {next : Camera → G → Element F → Answer F × G × Element F} {camera : Camera} {g g' : G}
    {e : Single F} {e' : Element F} {answer : Answer F}
    (called : (let (answer, g, e) := e.nextCommand random_num waited defaultDevice camera g
      ((answer, g, .single e) : Answer F × G × Element F)) = (answer, g', e')) :
    (withBlocks next k).Turn (.single e) answer e' := by
  cases played : e.nextCommand random_num waited defaultDevice camera g with
  | mk handed after =>
  obtain ⟨g₁, e₁⟩ := after
  rw [played] at called
  cases called
  have turn := (Single.counted random_num waited defaultDevice).turn camera g e trivial _ _ _ played
  exact ⟨trivial, turn.whole, turn.kept, turn.handed, turn.skips, turn.fresh, turn.left⟩

theorem elementKind_counted (depth : Nat) :
    (elementKind random_num waited defaultDevice (F := F) depth).Counted := by
  induction depth with
  | zero =>
    refine ⟨fun camera g e good answer g' e' called => ?_, fun e fresh => ?_, fun e fresh => ?_⟩
    · cases e with
      | single e => exact single_turn random_num waited defaultDevice called
      | elementFor b => cases good
    · cases e with
      | single e => trivial
      | elementFor b => cases fresh
    · cases e with
      | single e => exact Single.left_fresh fresh
      | elementFor b => cases fresh
  | succ depth ih =>
    have blocks := Kind.block_counted _ ih
    refine ⟨fun camera g e good answer g' e' called => ?_, fun e fresh => ?_, fun e fresh => ?_⟩
    · cases e with
      | single e => exact single_turn random_num waited defaultDevice called
      | elementFor b =>
        cases played : (elementKind random_num waited defaultDevice depth).block.next camera g b with
        | mk handed after =>
        obtain ⟨g₁, b₁⟩ := after
        have next : Element.nextCommand random_num waited defaultDevice camera (depth + 1) g
            (.elementFor b) = (handed, g₁, .elementFor b₁) := by
          simp only [Kind.block, elementKind_next] at played
          simp only [Element.nextCommand]
          split at played
          · rename_i stops
            cases played
            rw [if_pos stops]
          · rename_i runs
            rw [if_neg runs, played]
        cases next.symm.trans called
        have turn := blocks.turn camera g b good _ _ _ played
        exact ⟨turn.good, turn.whole, turn.kept, turn.handed, turn.skips, turn.fresh, turn.left⟩
    · cases e with
      | single e => trivial
      | elementFor b => exact blocks.good_fresh b fresh
    · cases e with
      | single e => exact Single.left_fresh fresh
      | elementFor b => exact blocks.left_fresh b fresh

theorem idleCall_same (due : Bool) (depth : Nat) (g : G) (e : Element F)
    (good : (elementKind random_num waited defaultDevice depth).Good e)
    (stays : (e.idleCall waited due depth g).1 ≠ .next) :
    (elementKind random_num waited defaultDevice depth).Same e
      (e.idleCall waited due depth g).2.2 := by
  induction depth generalizing g e with
  | zero =>
    cases e with
    | single e => exact single_same waited due g e
    | elementFor b => cases good
  | succ depth ih =>
    cases e with
    | single e => exact single_same waited due g e
    | elementFor b =>
      cases there : b.blockElements[b.curr_element]? with
      | none =>
        have unchanged : ((Element.elementFor b).idleCall waited due (depth + 1) g).2.2 =
            .elementFor b := by
          rw [Element.idleCall, there]
        rw [unchanged]
        exact ⟨good, rfl, rfl⟩
      | some ce =>
        have found : (ce.idleCall waited due depth g).1 ≠ .next := by
          intro next
          refine stays ?_
          rw [Element.idleCall, there]
          dsimp only
          rw [if_pos next]
        rw [idleCall_elementFor waited there]
        dsimp only
        rw [if_neg found]
        rcases good with nothing | live
        · have same := Kind.Nothing.set (k := elementKind random_num waited defaultDevice depth)
            nothing (ce.idleCall waited due depth g).2.2
          exact ⟨same.good, same.whole, same.left⟩
        · have child := ih g ce (live.good ce (List.mem_of_getElem? there)) found
          obtain ⟨live', whole, left, _⟩ := Kind.set_child _ live there child.whole child.good
          refine ⟨.inr live', whole, left.trans ?_⟩
          rw [child.left]
          exact (Kind.blockLeft_eq _ live.running there).symm

theorem idleCall_next (due : Bool) (depth : Nat) (g : G) {b : ElementFor (Element F)}
    (good : (elementKind random_num waited defaultDevice (depth + 1)).Good (.elementFor b))
    {e : Single F} (there : b.blockElements[b.curr_element]? = some (.single e))
    (next : ((Element.single e).idleCall waited due depth g).1 = .next)
    (gentle : b.nextElement.1 = true →
      (elementKind random_num waited defaultDevice (depth + 1)).whole (.elementFor b) = 0) :
    (elementKind random_num waited defaultDevice (depth + 1)).Same (.elementFor b)
      ((Element.elementFor b).idleCall waited due (depth + 1) g).2.2 := by
  have called : (Element.single e).idleCall waited due depth g =
      ((e.idleCall waited due g).1, (e.idleCall waited due g).2.1,
        .single (e.idleCall waited due g).2.2) := by
    cases depth <;> rfl
  have counted := elementKind_counted random_num waited defaultDevice (F := F) depth
  obtain ⟨whole, _, keep | ⟨_, none_left, fresh⟩⟩ := e.idleCall_left waited due g
  · rw [called, keep] at next
    exact absurd next (by decide)
  · have whole' : (elementKind random_num waited defaultDevice depth).whole
        (.single (e.idleCall waited due g).2.2) =
        (elementKind random_num waited defaultDevice depth).whole (.single e) := by
      cases depth <;> exact whole
    have fresh' : (elementKind random_num waited defaultDevice depth).Fresh
        (.single (e.idleCall waited due g).2.2) := by
      cases depth <;> exact fresh
    have left' : (elementKind random_num waited defaultDevice depth).left (.single e) = 0 := by
      cases depth <;> exact none_left
    have same := Kind.Same.goes_on counted good there whole' fresh' left' gentle
    rw [idleCall_elementFor waited there]
    dsimp only
    rw [if_pos next, called]
    exact ⟨same.good, same.whole, same.left⟩

theorem whole_images {depth : Nat} {e : Element F}
    (good : (elementKind random_num waited defaultDevice depth).Good e) :
    (elementKind random_num waited defaultDevice depth).whole e = e.images := by
  induction depth generalizing e with
  | zero =>
    cases e with
    | single e => rw [Element.images]; rfl
    | elementFor b => cases good
  | succ depth ih =>
    cases e with
    | single e => rw [Element.images]; rfl
    | elementFor b =>
      rw [Element.images]
      change b.max.toNat * Kind.total _ b.blockElements = _
      rcases good with ⟨_, never | empty⟩ | live
      · simp [Int.toNat_of_nonpos never]
      · simp [empty, Kind.total]
      · rw [Kind.total, List.map_congr_left fun e mem => ih (live.good e mem)]

theorem Element.Parsed.fresh {e : Element F} (parsed : e.Parsed) {depth : Nat}
    (bound : e.nesting ≤ depth) :
    (elementKind random_num waited defaultDevice depth).Fresh e := by
  induction parsed generalizing depth with
  | @single e parsed =>
    have fresh : e.Fresh := by
      cases e with
      | camera e =>
        cases e with
        | sequence e => exact parsed.1
        | _ => trivial
      | _ => trivial
    cases depth <;> exact fresh
  | @elementFor max blockElements parsed ih =>
    cases depth with
    | zero => simp [nesting] at bound
    | succ depth =>
      rw [nesting, Nat.succ_le_succ_iff] at bound
      exact .inr ⟨rfl, rfl, fun e mem => ih e mem
        ((List.le_max_of_le' 0 (List.mem_map_of_mem mem) (le_refl e.nesting)).trans bound)⟩

namespace Script

variable (depth : Nat)

structure Good (s : Script F) : Prop where
  defaultDevice_eq : s.defaultDevice = defaultDevice
  nesting_eq : s.nesting = depth
  good : ∀ e ∈ s.elements, (elementKind random_num waited defaultDevice depth).Good e
  others : ∀ i e, s.elements[i]? = some e → s.el_iter < i →
    (elementKind random_num waited defaultDevice depth).Fresh e
  running : 0 ≤ s.executedCount

def left (s : Script F) : Nat :=
  match s.elements[s.el_iter]? with
  | some e =>
    (elementKind random_num waited defaultDevice depth).left e +
      (elementKind random_num waited defaultDevice depth).total (s.elements.drop (s.el_iter + 1))
  | none => 0

theorem set_child {s : Script F} (good : s.Good random_num waited defaultDevice depth)
    {e e' : Element F} (there : s.elements[s.el_iter]? = some e)
    (good' : (elementKind random_num waited defaultDevice depth).Good e') :
    let s' := { s with elements := s.elements.set s.el_iter e' }
    s'.Good random_num waited defaultDevice depth ∧
      s'.left random_num waited defaultDevice depth =
        (elementKind random_num waited defaultDevice depth).left e' +
          (elementKind random_num waited defaultDevice depth).total
            (s.elements.drop (s.el_iter + 1)) := by
  refine ⟨⟨good.defaultDevice_eq, good.nesting_eq, fun x mem => ?_, fun i x listed after => ?_,
    good.running⟩, ?_⟩
  · rcases List.mem_or_eq_of_mem_set mem with mem | rfl
    · exact good.good x mem
    · exact good'
  · rw [List.getElem?_set_ne after.ne] at listed
    exact good.others i x listed after
  · have inside : s.el_iter < s.elements.length := (List.getElem?_eq_some_iff.mp there).1
    simp [left, inside, List.drop_set]

theorem next_child {s : Script F} (good : s.Good random_num waited defaultDevice depth)
    {executedCount : Int} (running : 0 ≤ executedCount) :
    let s' := { s with el_iter := s.el_iter + 1, executedCount := executedCount }
    s'.Good random_num waited defaultDevice depth ∧
      s'.left random_num waited defaultDevice depth =
        (elementKind random_num waited defaultDevice depth).total
          (s.elements.drop (s.el_iter + 1)) := by
  refine ⟨⟨good.defaultDevice_eq, good.nesting_eq, good.good, fun i x listed after => ?_, running⟩,
    ?_⟩
  · exact good.others i x listed (Nat.lt_of_succ_lt after)
  · cases there : s.elements[s.el_iter + 1]? with
    | none =>
      have none_left := List.drop_eq_nil_of_le (List.getElem?_eq_none_iff.mp there)
      simp [left, there, none_left, Kind.total]
    | some e =>
      obtain ⟨inside, same⟩ := List.getElem?_eq_some_iff.mp there
      have counted := elementKind_counted random_num waited defaultDevice (F := F) depth
      have first := counted.left_fresh e (good.others _ e there (Nat.lt_succ_self _))
      rw [List.drop_eq_getElem_cons inside, same, Kind.total_cons, ← first]
      simp [left, there]

theorem count_good {s : Script F} (good : s.Good random_num waited defaultDevice depth) :
    { s with executedCount := s.executedCount + 1 }.Good random_num waited defaultDevice depth :=
  ⟨good.defaultDevice_eq, good.nesting_eq, good.good, good.others,
    Int.add_nonneg good.running Int.one_nonneg⟩

theorem scriptRet_left {s : Script F} (good : s.Good random_num waited defaultDevice depth)
    {answer : Answer F} {ret : Code} (handed : ret ≠ .waiting) :
    (s.scriptRet answer ret).2.Good random_num waited defaultDevice depth ∧
      exposures [(s.scriptRet answer ret).1] = exposures [answer] ∧
      (answer.ret = some ret → (s.scriptRet answer ret).1.ret ≠ some .endScript) ∧
      (s.scriptRet answer ret).2.left random_num waited defaultDevice depth =
        if ret.ends then { s with el_iter := s.el_iter + 1 }.left random_num waited defaultDevice depth
        else s.left random_num waited defaultDevice depth := by
  have next_good : { s with el_iter := s.el_iter + 1, executedCount := s.executedCount + 1 }.Good
      random_num waited defaultDevice depth :=
    (next_child random_num waited defaultDevice depth good
      (Int.add_nonneg good.running Int.one_nonneg)).1
  have count_good := count_good random_num waited defaultDevice depth good
  unfold scriptRet
  split
  · rename_i masked
    have stays : ret.ends = false := by
      rw [Bool.eq_false_iff]
      intro ends
      rw [Code.and_maskBlock, Code.ends_bit ends] at masked
      exact masked rfl
    have bit : (ret &&& ~~~Code.maskBlock).getLsbD 20 = false := by
      simp [Code.maskBlock_eq]
    have ends_not : some (ret &&& ~~~Code.maskBlock) ≠ some .endScript := by
      intro same
      rw [Option.some.inj same] at bit
      exact absurd bit (by decide)
    rw [stays, if_neg Bool.false_ne_true]
    dsimp only
    split
    · exact ⟨count_good, rfl, fun _ => ends_not, rfl⟩
    · exact ⟨good, rfl, fun _ => ends_not, rfl⟩
  · rename_i unmasked
    have ends_not : some ret ≠ some Code.endScript := by
      intro same
      rw [Option.some.inj same] at unmasked
      exact absurd unmasked (by decide)
    split
    · exact ⟨next_good, rfl, fun code => code ▸ ends_not, rfl⟩
    · exact ⟨count_good, rfl, fun code => code ▸ ends_not, rfl⟩

theorem loop_left (s : Script F) (good : s.Good random_num waited defaultDevice depth)
    (camera : Camera) (g : G) {answer : Answer F} {g' : G} {s' : Script F}
    (called : s.loop random_num waited camera g = (answer, g', s')) :
    s'.Good random_num waited defaultDevice depth ∧
      exposures [answer] + s'.left random_num waited defaultDevice depth =
        s.left random_num waited defaultDevice depth ∧
      (answer.ret = some .endScript → s'.left random_num waited defaultDevice depth = 0) := by
  have counted := elementKind_counted random_num waited defaultDevice (F := F) depth
  rw [loop] at called
  split at called
  · rename_i nothing
    have none_left : s.left random_num waited defaultDevice depth = 0 := by simp [left, nothing]
    cases called
    exact ⟨good, Nat.zero_add _, fun _ => none_left⟩
  · rename_i e there
    have left_s : s.left random_num waited defaultDevice depth =
        (elementKind random_num waited defaultDevice depth).left e +
          (elementKind random_num waited defaultDevice depth).total
            (s.elements.drop (s.el_iter + 1)) := by
      simp [left, there]
    cases played : e.nextCommand random_num waited s.defaultDevice camera s.nesting g with
    | mk handed after =>
    obtain ⟨g₁, e'⟩ := after
    have turned := played
    rw [good.defaultDevice_eq, good.nesting_eq, ← elementKind_next] at turned
    have turn := counted.turn camera g e (good.good e (List.mem_of_getElem? there)) _ _ _ turned
    obtain ⟨good_e, left_e⟩ := set_child random_num waited defaultDevice depth good there turn.good
    rw [played] at called
    dsimp only at called
    cases code : handed.ret with
    | none =>
      have stays : passes handed = false := by simp [passes, code]
      have handed_left := turn.left
      rw [stays, if_neg Bool.false_ne_true] at handed_left
      rw [code] at called
      cases called
      refine ⟨good_e, ?_, fun ended => ?_⟩
      · rw [left_e, left_s]
        omega
      · rw [code] at ended
        cases ended
    | some ret =>
      rw [code] at called
      dsimp only at called
      have handed_left := turn.left
      by_cases skip : ret = .next
      · rw [if_pos skip] at called
        obtain ⟨good_n, left_n⟩ := next_child random_num waited defaultDevice depth good_e good.running
        rw [Kind.passes_next (code.trans (congrArg some skip)), if_pos rfl,
          Kind.exposures_none (turn.skips (skip ▸ code))] at handed_left
        dsimp only at left_n
        rw [List.drop_set_of_lt (Nat.lt_add_one _)] at left_n
        obtain ⟨good', left', ended⟩ := loop_left _ good_n camera g₁ called
        refine ⟨good', left'.trans (left_n.trans ?_), ended⟩
        rw [left_s]
        omega
      · rw [if_neg skip] at called
        have handed_on : ret ≠ .waiting := fun same => turn.handed (code.trans (congrArg some same))
        obtain ⟨good', takes, ends_not, left'⟩ := scriptRet_left random_num waited defaultDevice depth
          good_e handed_on
        rw [Kind.passes_some code skip] at handed_left
        cases called
        refine ⟨good', ?_, fun ended => absurd ended (ends_not code)⟩
        cases ends : ret.ends with
        | true =>
          obtain ⟨_, left_n⟩ := next_child random_num waited defaultDevice depth good_e good.running
          rw [ends, if_pos rfl] at handed_left left'
          dsimp only at left_n
          rw [List.drop_set_of_lt (Nat.lt_add_one _)] at left_n
          rw [takes, left'.trans left_n, left_s]
          omega
        | false =>
          rw [ends, if_neg Bool.false_ne_true] at handed_left left'
          rw [takes, left'.trans left_e, left_s]
          omega
termination_by s.elements.length - s.el_iter
decreasing_by
  have inside : s.el_iter < s.elements.length := (List.getElem?_eq_some_iff.mp ‹_›).1
  simp only [List.length_set]
  omega

theorem idle_left {s : Script F} (good : s.Good random_num waited defaultDevice depth) {due : Bool}
    {g : G} (gentle : s.Gentle waited due g) :
    (s.idle waited due g).2.2.Good random_num waited defaultDevice depth ∧
      (s.idle waited due g).2.2.left random_num waited defaultDevice depth =
        s.left random_num waited defaultDevice depth := by
  cases there : s.elements[s.el_iter]? with
  | none =>
    have unchanged : (s.idle waited due g).2.2 = s := by rw [idle, there]
    rw [unchanged]
    exact ⟨good, rfl⟩
  | some e =>
    have changed : (s.idle waited due g).2.2 =
        { s with elements := s.elements.set s.el_iter (e.idleCall waited due depth g).2.2 } := by
      rw [idle, there, good.nesting_eq]
    have good_e := good.good e (List.mem_of_getElem? there)
    have same : (elementKind random_num waited defaultDevice depth).Same e
        (e.idleCall waited due depth g).2.2 := by
      by_cases next : (e.idleCall waited due depth g).1 = .next
      · cases e with
        | single e => cases depth <;> exact single_same waited due g e
        | elementFor b =>
          cases depth with
          | zero => cases good_e
          | succ depth =>
            obtain ⟨⟨e, listed⟩, ends⟩ := gentle b there (good.nesting_eq ▸ next)
            have child := idleCall_child waited listed next
            exact idleCall_next random_num waited defaultDevice due depth g good_e listed child
              fun ended => (whole_images random_num waited defaultDevice good_e).trans (ends ended)
      · exact idleCall_same random_num waited defaultDevice due depth g e good_e next
    obtain ⟨good', left'⟩ := set_child random_num waited defaultDevice depth good there same.good
    rw [changed]
    refine ⟨good', left'.trans ?_⟩
    rw [same.left]
    simp [left, there]

theorem step_left {s : Script F} (good : s.Good random_num waited defaultDevice depth)
    (event : Event G) (gentle : ∀ due g, event = .idle due g → s.Gentle waited due g) :
    (s.step random_num waited event).2.Good random_num waited defaultDevice depth ∧
      exposures (s.step random_num waited event).1.toList +
          (s.step random_num waited event).2.left random_num waited defaultDevice depth =
        s.left random_num waited defaultDevice depth ∧
      (Complete (s.step random_num waited event).1.toList →
        (s.step random_num waited event).2.left random_num waited defaultDevice depth = 0) := by
  cases event with
  | nextCommand camera g =>
    cases called : s.loop random_num waited camera g with
    | mk answer after =>
    obtain ⟨g', s'⟩ := after
    have turn : s.step random_num waited (.nextCommand camera g) = (some answer, s') := by
      simp only [step, nextCommand, if_neg (not_lt.mpr good.running), called]
    obtain ⟨good', left', ended⟩ :=
      loop_left random_num waited defaultDevice depth s good camera g called
    rw [turn]
    refine ⟨good', left', ?_⟩
    rintro ⟨handed, mem, code⟩
    cases List.mem_singleton.mp mem
    exact ended code
  | idle due g =>
    obtain ⟨good', left'⟩ := idle_left random_num waited defaultDevice depth good (gentle due g rfl)
    refine ⟨good', (Nat.zero_add _).trans left', ?_⟩
    rintro ⟨_, mem, _⟩
    cases mem

theorem answers_left (events : List (Event G)) {s : Script F}
    (good : s.Good random_num waited defaultDevice depth)
    (undisturbed : s.Undisturbed random_num waited events) :
    exposures (s.answers random_num waited events) ≤
        s.left random_num waited defaultDevice depth ∧
      (Complete (s.answers random_num waited events) →
        exposures (s.answers random_num waited events) =
          s.left random_num waited defaultDevice depth) := by
  induction events generalizing s with
  | nil =>
    refine ⟨Nat.zero_le _, ?_⟩
    rintro ⟨_, mem, _⟩
    cases mem
  | cons event events ih =>
    obtain ⟨gentle, undisturbed⟩ := undisturbed
    obtain ⟨good', left', ended⟩ :=
      step_left random_num waited defaultDevice depth good event gentle
    obtain ⟨most, complete⟩ := ih good' undisturbed
    rw [answers, exposures_append]
    refine ⟨by omega, ?_⟩
    rintro ⟨answer, mem, code⟩
    rcases List.mem_append.mp mem with now | later
    · have nothing := ended ⟨answer, now, code⟩
      omega
    · have all := complete ⟨answer, later, code⟩
      omega

theorem parsed_left {elements : List (Element F)} (parsed : ∀ e ∈ elements, e.Parsed) :
    let s := Script.parsed defaultDevice elements
    s.Good random_num waited defaultDevice s.nesting ∧
      s.left random_num waited defaultDevice s.nesting = (elements.map Element.images).sum := by
  intro s
  have counted := elementKind_counted random_num waited defaultDevice (F := F) s.nesting
  have fresh (e : Element F) (mem : e ∈ elements) :=
    (parsed e mem).fresh random_num waited defaultDevice
      (List.le_max_of_le' 0 (List.mem_map_of_mem mem) (le_refl e.nesting))
  have images (e : Element F) (mem : e ∈ elements) :=
    whole_images random_num waited defaultDevice (counted.good_fresh e (fresh e mem))
  refine ⟨⟨rfl, rfl, fun e mem => counted.good_fresh e (fresh e mem),
    fun i e listed _ => fresh e (List.mem_of_getElem? listed), le_refl 0⟩, ?_⟩
  rw [← List.map_congr_left images]
  cases elements with
  | nil => rfl
  | cons e es =>
    change (elementKind random_num waited defaultDevice s.nesting).left e + _ = _
    rw [counted.left_fresh e (fresh e (by simp)), List.map_cons, List.sum_cons]
    rfl

end Script

end

theorem int_modEq (i : Int) : int i ≡ i [ZMOD 2 ^ 32] := Int.bmod_emod

theorem sumImages_bounds (images : List Int) :
    -2 ^ 31 ≤ sumImages images ∧ sumImages images < 2 ^ 31 := by
  rcases List.eq_nil_or_concat images with rfl | ⟨init, last, rfl⟩
  · exact ⟨by decide, by decide⟩
  · rw [sumImages, List.concat_eq_append, List.foldl_concat]
    exact ⟨Int.le_bmod (m := 2 ^ 32) (by decide), Int.bmod_lt (m := 2 ^ 32) (by decide)⟩

theorem sumImages_modEq (images : List Int) : sumImages images ≡ images.sum [ZMOD 2 ^ 32] := by
  induction images using List.reverseRecOn with
  | nil => rfl
  | append_singleton init last ih =>
    rw [sumImages, List.foldl_concat, List.sum_append, List.sum_singleton]
    exact (int_modEq _).trans (ih.add_right last)

theorem sum_modEq {images counts : Element F → Int} {elements : List (Element F)}
    (each : ∀ e ∈ elements, images e ≡ counts e [ZMOD 2 ^ 32]) :
    (elements.map images).sum ≡ (elements.map counts).sum [ZMOD 2 ^ 32] := by
  induction elements with
  | nil => rfl
  | cons e es ih =>
    simp only [List.map_cons, List.sum_cons]
    exact (each e (by simp)).add (ih fun x mem => each x (List.mem_cons_of_mem e mem))

theorem sum_counts (elements : List (Element F)) :
    (elements.map fun e => (e.images : Int) - e.surplus).sum =
      (elements.map Element.images).sum - (elements.map Element.surplus).sum := by
  induction elements with
  | nil => rfl
  | cons e es ih =>
    simp only [List.map_cons, List.sum_cons, ih]
    push_cast
    ring

theorem Element.Parsed.expects {e : Element F} (parsed : e.Parsed) :
    e.getExpectedImages ≡ e.images - e.surplus [ZMOD 2 ^ 32] := by
  induction parsed with
  | @single e parsed =>
    have exact : e.getExpectedImages = e.images - (Element.single e).surplus := by
      cases e with
      | camera e =>
        cases e with
        | sequence e =>
          simp only [Single.getExpectedImages, Single.images, Element.surplus]
          omega
        | image e => simp [Single.getExpectedImages, Single.images, Element.surplus]
        | changeValue _ _ _ _ => simp [Single.getExpectedImages, Single.images, Element.surplus]
        | _ => cases parsed
      | _ => simp [Single.getExpectedImages, Single.images, Element.surplus]
    rw [Element.getExpectedImages, Element.images, exact]
  | @elementFor max blockElements parsed ih =>
    have each := sum_modEq ih
    rw [sum_counts] at each
    have block := ((sumImages_modEq _).trans each).mul_left max
    rw [Element.getExpectedImages]
    refine (int_modEq _).trans (block.trans ?_)
    rw [Element.images, Element.surplus]
    split
    · rename_i least
      rw [Nat.cast_mul, Int.toNat_of_nonneg least, ← Int.mul_sub]
    · rename_i negative
      rw [Int.toNat_of_nonpos (by omega), Nat.zero_mul, Nat.cast_zero, Int.zero_sub, ← Int.mul_neg,
        Int.neg_sub]

/-- In every complete run in which idle ends waits of no inner block, and with a wait no block that
takes exposures, the script hands out the exposures it expects if and only if those its counts add,
a sequence that takes one instead of none and a block that takes none instead of less than none,
come to nothing in 32 bits, and the images fit into 31 bits. -/
theorem expected_images_iff [Add F] [Sub F] [Mul F] [ToString F] (random_num : G → F × G)
    (waited : Single F → G → Bool × G) (defaultDevice : String) (elements : List (Element F))
    (parsed : ∀ e ∈ elements, e.Parsed) (events : List (Event G))
    (undisturbed : (Script.parsed defaultDevice elements).Undisturbed random_num waited events)
    (complete : Complete ((Script.parsed defaultDevice elements).answers random_num waited events)) :
    (exposures ((Script.parsed defaultDevice elements).answers random_num waited events) : Int) =
        (Script.parsed defaultDevice elements).getExpectedImages ↔
      (elements.map Element.images).sum < 2 ^ 31 ∧
        (2 ^ 32 : Int) ∣ (elements.map Element.surplus).sum := by
  obtain ⟨good, left⟩ := Script.parsed_left random_num waited defaultDevice parsed
  have handed := (Script.answers_left random_num waited defaultDevice _ events good undisturbed).2
    complete
  have each := sum_modEq fun e mem => (parsed e mem).expects
  rw [sum_counts] at each
  have expects : (Script.parsed defaultDevice elements).getExpectedImages ≡
      (elements.map Element.images).sum - (elements.map Element.surplus).sum [ZMOD 2 ^ 32] :=
    (sumImages_modEq _).trans each
  obtain ⟨least, most⟩ := sumImages_bounds
    ((Script.parsed defaultDevice elements).elements.map Element.getExpectedImages)
  rw [handed, left]
  have apart := expects.dvd
  unfold Script.getExpectedImages at *
  constructor
  · intro same
    rw [← same] at most apart
    refine ⟨by omega, ?_⟩
    have rest := Int.dvd_neg.mpr apart
    convert rest using 1
    ring
  · rintro ⟨fits, surplus⟩
    have rest := Int.dvd_add apart surplus
    rw [show ∀ a b c : Int, a - b - c + b = a - c by intros; ring] at rest
    omega

section

def plain : Camera := ⟨none, false, false, false⟩

def random : Int → Int × Int := fun g => (g, g + 1)

def passed : Single Int → Int → Bool × Int := fun _ g => (true, g)

def exposure : Element Int := .single (.camera (.image ⟨0, 10, .first⟩))

def sleeping (timer sleeping expired : Bool) : Element Int :=
  .single (.sleep ⟨some 5, timer, sleeping, expired⟩)

def exposeAndSleep (executedCount : Int) (curr_element : Nat) (sleep : Element Int) : Script Int :=
  ⟨[.elementFor ⟨1, [exposure, sleep], curr_element, 0⟩], 0, executedCount, "C0", 1⟩

theorem step_exposes (executedCount : Int) (running : ¬executedCount < 0) (sleep : Element Int) :
    (exposeAndSleep executedCount 0 sleep).step random passed (.nextCommand plain 0) =
      (some ⟨some 0, some (.exposure bopExposure), some "C0"⟩,
        exposeAndSleep (executedCount + 1) 1 sleep) := by
  have called : (Element.elementFor ⟨1, [exposure, sleep], 0, 0⟩).nextCommand random passed "C0"
      plain 1 (0 : Int) = (⟨some (0 ||| .maskBlock), some (.exposure bopExposure), some "C0"⟩, 0,
        .elementFor ⟨1, [exposure, sleep], 1, 0⟩) := by
    rw [Element.nextCommand, if_neg (by simp [ElementFor.endLoop]),
      ElementFor.loop_eq rfl rfl]
    rfl
  rw [Script.step, Script.nextCommand, exposeAndSleep, if_neg running, Script.loop]
  dsimp only
  simp only [List.getElem?_cons_zero]
  rw [called]
  rfl

theorem step_sleeps : (exposeAndSleep 1 1 (sleeping false false false)).step random passed
    (.nextCommand plain 0) =
      (some ⟨some .keep, none, none⟩, exposeAndSleep 2 1 (sleeping true true false)) := by
  have called : (Element.elementFor ⟨1, [exposure, sleeping false false false], 1, 0⟩).nextCommand
      random passed "C0" plain 1 (0 : Int) = (⟨some (.keep ||| .maskBlock), none, none⟩, 0,
        .elementFor ⟨1, [exposure, sleeping true true false], 1, 0⟩) := by
    rw [Element.nextCommand, if_neg (by decide),
      ElementFor.loop_eq rfl rfl]
    rfl
  rw [Script.step, Script.nextCommand, exposeAndSleep, if_neg (by decide), Script.loop]
  dsimp only
  simp only [List.getElem?_cons_zero]
  rw [called]
  rfl

theorem step_restarts : (exposeAndSleep 2 1 (sleeping true true false)).step random passed
    (.idle true 0) = (none, exposeAndSleep 2 0 (sleeping true true true)) := rfl

theorem step_ends : (exposeAndSleep 3 1 (sleeping true true true)).step random passed
    (.nextCommand plain 0) = (some ⟨some .endScript, none, none⟩,
      { exposeAndSleep 3 0 (sleeping true false false) with el_iter := 1 }) := by
  have called : (Element.elementFor ⟨1, [exposure, sleeping true true true], 1, 0⟩).nextCommand
      random passed "C0" plain 1 (0 : Int) = (.skip, 0,
        .elementFor ⟨1, [exposure, sleeping true false false], 0, 0⟩) := by
    rw [Element.nextCommand, if_neg (by decide),
      ElementFor.loop_eq rfl rfl]
    rfl
  rw [Script.step, Script.nextCommand, exposeAndSleep, if_neg (by decide), Script.loop]
  dsimp only
  simp only [List.getElem?_cons_zero]
  rw [called]
  simp only [Answer.skip, if_true]
  rw [Script.loop]
  rfl

def noSequence : Element Int := .single (.camera (.sequence ⟨"R", 0, 10, 0, .first⟩))

def sequenceScript (el_iter : Nat) (executedCount : Int) : Script Int :=
  ⟨[noSequence], el_iter, executedCount, "C0", 0⟩

theorem step_sequence : (sequenceScript 0 0).step random passed (.nextCommand plain 0) =
    (some ⟨some 0, some (.exposure bopExposure), some "C0"⟩, sequenceScript 1 1) := by
  rw [Script.step, Script.nextCommand, sequenceScript, if_neg (by decide), Script.loop]
  rfl

theorem step_sequence_ends : (sequenceScript 1 1).step random passed (.nextCommand plain 0) =
    (some ⟨some .endScript, none, none⟩, sequenceScript 1 1) := by
  rw [Script.step, Script.nextCommand, sequenceScript, if_neg (by decide), Script.loop]
  rfl

/-- A block that ends in a wait takes its exposures again when idle ends the wait, and a sequence of
none takes one. -/
theorem images_differ :
    (∃ events : List (Event Int),
      let s := Script.parsed "C0" [.elementFor ⟨1, [exposure, sleeping false false false], 0, 0⟩]
      Complete (s.answers random passed events) ∧
        (exposures (s.answers random passed events) : Int) ≠ s.getExpectedImages) ∧
      ∃ cameras : List (Camera × Int),
        let s := Script.parsed "C0" [noSequence]
        let events := cameras.map fun call => Event.nextCommand call.1 call.2
        Complete (s.answers random passed events) ∧
          (exposures (s.answers random passed events) : Int) ≠ s.getExpectedImages := by
  have block : Script.parsed "C0" [.elementFor ⟨1, [exposure, sleeping false false false], 0, 0⟩] =
      exposeAndSleep 0 0 (sleeping false false false) := by
    simp [Script.parsed, exposeAndSleep, Element.nesting, exposure, sleeping]
  have sequence : Script.parsed "C0" [noSequence] = sequenceScript 0 0 := by
    simp [Script.parsed, sequenceScript, Element.nesting, noSequence]
  have block_images : (exposeAndSleep 0 0 (sleeping false false false)).getExpectedImages = 1 := by
    simp only [Script.getExpectedImages, exposeAndSleep, List.map_cons, List.map_nil,
      Element.getExpectedImages, exposure, sleeping, Single.getExpectedImages]
    decide
  have sequence_images : (sequenceScript 0 0).getExpectedImages = 0 := by
    simp only [Script.getExpectedImages, sequenceScript, List.map_cons, List.map_nil,
      Element.getExpectedImages, noSequence, Single.getExpectedImages]
    decide
  refine ⟨⟨[.nextCommand plain 0, .nextCommand plain 0, .idle true 0, .nextCommand plain 0,
    .nextCommand plain 0], ?_⟩, ⟨[(plain, 0), (plain, 0)], ?_⟩⟩
  · dsimp only
    rw [block, block_images]
    simp only [Script.answers, step_exposes 0 (by decide), Int.zero_add, step_sleeps, step_restarts,
      step_exposes 2 (by decide), Int.reduceAdd, step_ends]
    exact ⟨⟨⟨some .endScript, none, none⟩, by simp, rfl⟩, by decide⟩
  · dsimp only
    rw [sequence, sequence_images]
    simp only [List.map_cons, List.map_nil, Script.answers, step_sequence, step_sequence_ends]
    exact ⟨⟨⟨some .endScript, none, none⟩, by simp, rfl⟩, by decide⟩

/-- The sequence of none, asked by idle between its calls. -/
theorem expected_images_sample :
    let s := Script.parsed "C0" [noSequence]
    let events : List (Event Int) := [.nextCommand plain 0, .idle true 0, .nextCommand plain 0]
    (exposures (s.answers random passed events) : Int) = s.getExpectedImages ↔
      (List.map Element.images [noSequence]).sum < 2 ^ 31 ∧
        (2 ^ 32 : Int) ∣ (List.map Element.surplus [noSequence]).sum := by
  have sequence : Script.parsed "C0" [noSequence] = sequenceScript 0 0 := by
    simp [Script.parsed, sequenceScript, Element.nesting, noSequence]
  have idle : (sequenceScript 1 1).step random passed (.idle true 0) =
      (none, sequenceScript 1 1) := rfl
  refine expected_images_iff random passed "C0" [noSequence]
    (List.forall_mem_singleton.mpr (.single ⟨rfl, rfl⟩)) _ ⟨nofun, ?_, nofun, trivial⟩ ?_
  · intro due g _ b there
    rw [sequence, step_sequence] at there
    cases there
  · rw [sequence]
    simp only [Script.answers, step_sequence, idle, step_sequence_ends]
    exact ⟨⟨some .endScript, none, none⟩, by simp, rfl⟩

end

end Rts2.Scripts.Expected
