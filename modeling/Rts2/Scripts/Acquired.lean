import Rts2.Scripts.Unrolling

/-! A script with ifacq blocks: the second block is called as the block of any device. -/
namespace Rts2.Scripts

variable {F G E : Type}

section

variable [Add F] [Sub F] [Mul F] [ToString F] (random_num : G → F × G) (defaultDevice : String)

namespace CameraElement

def isGeneric : CameraElement F → Bool
  | .command .. => true
  | .changeValue .. => true
  | _ => false

def defnextCommand (camera : Camera) (g : G) (e : CameraElement F) :
    Answer F × G × CameraElement F :=
  if e.isGeneric then e.nextCommand random_num defaultDevice camera g else (.skip, g, e)

end CameraElement

namespace Element

/-- Unlike nextCommand it tests nothing before it calls the current element; in an empty block
there is none, and what the call does is undefined. -/
def defnextCommand (camera : Camera) : Nat → G → Element F → Answer F × G × Element F
  | _, g, .single e =>
    let (answer, g, e) := e.defnextCommand random_num defaultDevice camera g
    (answer, g, .single e)
  | 0, g, .elementFor b =>
    if b.blockElements.isEmpty then (⟨none, none, none⟩, g, .elementFor b)
    else (.skip, g, .elementFor b)
  | depth + 1, g, .elementFor b =>
    if b.blockElements.isEmpty then (⟨none, none, none⟩, g, .elementFor b)
    else
      let (answer, g, b) := b.loop (defnextCommand camera depth) g
      (answer, g, .elementFor b)

end Element

/-- Its blocks end after the first loop, as those of a `for 1`. -/
structure ElementAcquired (F : Type) where
  state : AcquireState
  block : ElementFor (Element F)
  elseBlock : Option (ElementFor (Element F))

namespace ElementAcquired

/-- `ifacq { blockElements } else { elseElements }`; the block of else is made for its first
element. -/
def parsed (blockElements elseElements : List (Element F)) : ElementAcquired F where
  state := .NOT_CALLED
  block := ⟨1, blockElements, 0, 0⟩
  elseBlock := if elseElements.isEmpty then none else some ⟨1, elseElements, 0, 0⟩

def checkState (acquireState : Int) (e : ElementAcquired F) : ElementAcquired F :=
  if e.state = .NOT_CALLED then
    { e with state := if acquireState = 1 then .ACQ_OK else .ACQ_FAILED }
  else e

def nextCommand (camera : Camera) (acquireState : Int) (depth : Nat) (g : G)
    (e : ElementAcquired F) : Answer F × G × ElementAcquired F :=
  let e := e.checkState acquireState
  match depth with
  | 0 => (.skip, g, e)
  | depth + 1 =>
    if e.state = .ACQ_OK then
      if e.block.endLoop || e.block.blockElements.isEmpty then (.skip, g, e)
      else
        let (answer, g, b) :=
          e.block.loop (Element.nextCommand random_num defaultDevice camera depth) g
        (answer, g, { e with block := b })
    else
      match e.elseBlock with
      | none => (.skip, g, e)
      | some b =>
        let (answer, g, b) :=
          b.loop (Element.defnextCommand random_num defaultDevice camera depth) g
        (answer, g, { e with elseBlock := some b })

end ElementAcquired

inductive ScriptElement (F : Type) where
  | element (e : Element F)
  | acquired (e : ElementAcquired F)

def ScriptElement.nextCommand (camera : Camera) (acquireState : Int) (depth : Nat) (g : G) :
    ScriptElement F → Answer F × G × ScriptElement F
  | .element e =>
    let (answer, g, e) := e.nextCommand random_num defaultDevice camera depth g
    (answer, g, .element e)
  | .acquired e =>
    let (answer, g, e) := e.nextCommand random_num defaultDevice camera acquireState depth g
    (answer, g, .acquired e)

end

/-- As `Script`, of elements that can be ifacq blocks. -/
structure AcquireScript (F : Type) where
  elements : List (ScriptElement F)
  el_iter : Nat
  executedCount : Int
  defaultDevice : String
  nesting : Nat

namespace AcquireScript

variable [Add F] [Sub F] [Mul F] [ToString F] (random_num : G → F × G)

/-- `ifacq { blockElements } else { elseElements }`, and the elements behind it. -/
def parsed (defaultDevice : String) (blockElements elseElements elements : List (Element F)) :
    AcquireScript F where
  elements := .acquired (.parsed blockElements elseElements) :: elements.map .element
  el_iter := 0
  executedCount := 0
  defaultDevice := defaultDevice
  nesting := ((blockElements ++ elseElements ++ elements).map Element.nesting).foldr max 0 + 2

def scriptRet (s : AcquireScript F) (answer : Answer F) (ret : Code) :
    Answer F × AcquireScript F :=
  if ret &&& .maskBlock ≠ 0 then
    let ret := ret &&& ~~~.maskBlock
    ({ answer with ret := some ret },
      if ret ≠ .next then { s with executedCount := s.executedCount + 1 } else s)
  else if ret.ends then
    (answer, { s with el_iter := s.el_iter + 1, executedCount := s.executedCount + 1 })
  else if ret = .waiting then
    ({ answer with new_command := none }, { s with executedCount := s.executedCount + 1 })
  else (answer, { s with executedCount := s.executedCount + 1 })

def loop (camera : Camera) (acquireState : Int) (g : G) (s : AcquireScript F) :
    Answer F × G × AcquireScript F :=
  match _inside : s.elements[s.el_iter]? with
  | none => (⟨some .endScript, none, none⟩, g, s)
  | some currElement =>
    match currElement.nextCommand random_num s.defaultDevice camera acquireState s.nesting g with
    | (answer, g, currElement) =>
      let s' := { s with elements := s.elements.set s.el_iter currElement }
      match answer.ret with
      | none => (answer, g, s')
      | some ret =>
        if ret = .next then loop camera acquireState g { s' with el_iter := s.el_iter + 1 }
        else
          let (answer, s) := s'.scriptRet answer ret
          (answer, g, s)
termination_by s.elements.length - s.el_iter
decreasing_by
  have bound : s.el_iter < s.elements.length := (List.getElem?_eq_some_iff.mp _inside).1
  simp only [List.length_set]
  omega

theorem loop_eq {camera : Camera} {acquireState : Int} {g g' : G} {s : AcquireScript F}
    {e e' : ScriptElement F} {answer : Answer F} (there : s.elements[s.el_iter]? = some e)
    (called : e.nextCommand random_num s.defaultDevice camera acquireState s.nesting g =
      (answer, g', e')) :
    s.loop random_num camera acquireState g =
      let s' := { s with elements := s.elements.set s.el_iter e' }
      match answer.ret with
      | none => (answer, g', s')
      | some ret =>
        if ret = .next then { s' with el_iter := s.el_iter + 1 }.loop random_num camera acquireState g'
        else ((s'.scriptRet answer ret).1, g', (s'.scriptRet answer ret).2) := by
  rw [loop]
  split
  · rename_i nothing
    simp [there] at nothing
  · rename_i x here
    cases there.symm.trans here
    rw [called]

def nextCommand (camera : Camera) (acquireState : Int) (g : G) (s : AcquireScript F) :
    Answer F × G × AcquireScript F :=
  if s.executedCount < 0 then (⟨some .endScript, none, none⟩, g, s)
  else s.loop random_num camera acquireState g

def answers : List (Camera × Int) → G → AcquireScript F → List (Answer F)
  | [], _, _ => []
  | (camera, acquireState) :: calls, g, s =>
    let (answer, g, s) := s.nextCommand random_num camera acquireState g
    answer :: answers calls g s

end AcquireScript

namespace ElementFor

variable {E' : Type}

/-- The block of the elements that `f` makes, with one loop at least. -/
def atLeastOnce (f : E → E') (b : ElementFor E) : ElementFor E' :=
  ⟨Max.max 1 b.max, b.blockElements.map f, b.curr_element, b.loopCount⟩

/-- A loop counter as calls leave it, and `n` elements in states of `P`. -/
structure InLoop (P : E → Prop) (n : Nat) (b : ElementFor E) : Prop where
  length : b.blockElements.length = n
  children : ∀ e ∈ b.blockElements, P e
  least : 0 ≤ b.loopCount
  less : b.loopCount < Max.max 1 b.max

theorem nextElement_atLeastOnce {P : E → Prop} {n : Nat} (f : E → E') {b : ElementFor E}
    (inLoop : b.InLoop P n) :
    (b.atLeastOnce f).nextElement = (b.nextElement.1, b.nextElement.2.atLeastOnce f) ∧
      b.nextElement.2.InLoop P n := by
  obtain ⟨length, children, least, less⟩ := inLoop
  have ends : (Max.max 1 b.max ≤ b.loopCount + 1) ↔ b.max ≤ b.loopCount + 1 := by omega
  unfold nextElement
  simp only [atLeastOnce, List.length_map, endLoop, decide_eq_true_eq, ends]
  split
  · split
    · exact ⟨rfl, length, children, le_rfl, by simp [afterBlockEnd]⟩
    · exact ⟨rfl, length, children, by simp only; omega, by simp only; omega⟩
  · exact ⟨rfl, length, children, least, less⟩

theorem blockScriptRet_atLeastOnce {P : E → Prop} {n : Nat} (f : E → E') {b : ElementFor E}
    (inLoop : b.InLoop P n) (ret : Code) :
    (b.atLeastOnce f).blockScriptRet ret =
        ((b.blockScriptRet ret).1, (b.blockScriptRet ret).2.atLeastOnce f) ∧
      (b.blockScriptRet ret).2.InLoop P n := by
  obtain ⟨same, kept⟩ := nextElement_atLeastOnce f inLoop
  unfold blockScriptRet
  split
  · rw [same]
    cases goes : b.nextElement with
    | mk ended following =>
    rw [goes] at kept
    cases ended <;> exact ⟨rfl, kept⟩
  · exact ⟨rfl, inLoop⟩

theorem InLoop.set {P : E → Prop} {n : Nat} {b : ElementFor E} (inLoop : b.InLoop P n) {e : E}
    (good : P e) :
    { b with blockElements := b.blockElements.set b.curr_element e }.InLoop P n := by
  refine ⟨by simpa using inLoop.length, fun x mem => ?_, inLoop.least, inLoop.less⟩
  rcases List.mem_or_eq_of_mem_set mem with mem | rfl
  · exact inLoop.children x mem
  · exact good

theorem loop_atLeastOnce {P : E → Prop} {n : Nat} {f : E → E'} {next : G → E → Answer F × G × E}
    {next' : G → E' → Answer F × G × E'}
    (alike : ∀ g e, P e → next' g (f e) = ((next g e).1, (next g e).2.1, f (next g e).2.2) ∧
      P (next g e).2.2) (g : G) (b : ElementFor E) (inLoop : b.InLoop P n) :
    (b.atLeastOnce f).loop next' g =
        ((b.loop next g).1, (b.loop next g).2.1, (b.loop next g).2.2.atLeastOnce f) ∧
      (b.loop next g).2.2.InLoop P n := by
  cases there : b.blockElements[b.curr_element]? with
  | none =>
    have nothing : b.loop next g = (.skip, g, b) := by
      rw [loop]
      split
      · rfl
      · rename_i e here
        simp [there] at here
    have nothing' : (b.atLeastOnce f).loop next' g = (.skip, g, b.atLeastOnce f) := by
      rw [loop]
      split
      · rfl
      · rename_i e here
        simp [atLeastOnce, there] at here
    rw [nothing, nothing']
    exact ⟨rfl, inLoop⟩
  | some e =>
    have there' : (b.atLeastOnce f).blockElements[(b.atLeastOnce f).curr_element]? = some (f e) := by
      simp [atLeastOnce, there]
    obtain ⟨called', good⟩ := alike g e (inLoop.children e (List.mem_of_getElem? there))
    cases called : next g e with
    | mk answer after =>
    obtain ⟨g', e'⟩ := after
    rw [called] at called' good
    have set_f : { b.atLeastOnce f with
        blockElements := (b.atLeastOnce f).blockElements.set (b.atLeastOnce f).curr_element (f e') } =
        { b with blockElements := b.blockElements.set b.curr_element e' }.atLeastOnce f := by
      simp [atLeastOnce, List.map_set]
    have inLoop' := inLoop.set good
    rw [loop_eq there called, loop_eq there' called', set_f]
    have inside := (List.getElem?_eq_some_iff.mp there).1
    have inside' : { b with blockElements := b.blockElements.set b.curr_element e' }.curr_element <
        { b with blockElements := b.blockElements.set b.curr_element e' }.blockElements.length := by
      simpa using inside
    cases code : answer.ret with
    | none => exact ⟨rfl, inLoop'⟩
    | some ret =>
      by_cases next_code : ret = .next
      · obtain ⟨same, kept⟩ := nextElement_atLeastOnce f inLoop'
        simp only [next_code, if_true]
        rw [same]
        cases goes : { b with
          blockElements := b.blockElements.set b.curr_element e' }.nextElement with
        | mk ended following =>
        rw [goes] at kept
        cases ended with
        | true => exact ⟨rfl, kept⟩
        | false =>
          have less := nextElement_less inside' goes
          exact loop_atLeastOnce alike g' following kept
      · obtain ⟨same, kept⟩ := blockScriptRet_atLeastOnce f inLoop' ret
        simp only [next_code, if_false]
        rw [same]
        exact ⟨rfl, kept⟩
termination_by ((b.max - b.loopCount).toNat, b.blockElements.length - b.curr_element)
decreasing_by
  obtain ⟨max, length, less⟩ := less
  simp only [List.length_set] at max length less
  rcases less with less | ⟨same, less⟩
  · exact Prod.Lex.left _ _ less
  · rw [max, same]
    exact Prod.Lex.right _ less

end ElementFor

def CameraElement.stuck : CameraElement F :=
  .changeValue "" "" (some '=') [.randomNumber (.string "") (.string "")]

theorem CameraElement.isGeneric_nextCommand [Add F] [Sub F] [Mul F] [ToString F]
    (random_num : G → F × G) (defaultDevice : String) (camera : Camera) (g : G)
    {e : CameraElement F} (generic : e.isGeneric = true) :
    (e.nextCommand random_num defaultDevice camera g).2.2.isGeneric = true := by
  cases e with
  | command deviceName cmd args => rfl
  | changeValue deviceName valName op operands =>
    simp only [nextCommand]
    split
    · rfl
    · rfl
    · split <;> rfl
  | _ => simp [isGeneric] at generic

namespace Element

def asGeneric : Element F → Element F
  | .single e => if e.isGeneric then .single e else .elementFor ⟨1, [], 0, 0⟩
  | .elementFor ⟨max, blockElements, curr_element, loopCount⟩ =>
    if blockElements.isEmpty then .single .stuck
    else .elementFor ⟨Max.max 1 max, blockElements.map asGeneric, curr_element, loopCount⟩

inductive InLoop : Element F → Prop
  | single (e : CameraElement F) : InLoop (.single e)
  | elementFor {b : ElementFor (Element F)} (inLoop : ∀ e ∈ b.blockElements, InLoop e)
      (least : 0 ≤ b.loopCount) (less : b.loopCount < max 1 b.max) : InLoop (.elementFor b)

theorem InLoop.block {b : ElementFor (Element F)} (inLoop : InLoop (.elementFor b)) :
    b.InLoop InLoop b.blockElements.length := by
  cases inLoop with
  | elementFor children least less => exact ⟨rfl, children, least, less⟩

theorem inLoop_of_block {n : Nat} {b : ElementFor (Element F)} (inLoop : b.InLoop InLoop n) :
    InLoop (.elementFor b) := .elementFor inLoop.children inLoop.least inLoop.less

theorem Parsed.inLoop {e : Element F} (parsed : e.Parsed) : e.InLoop := by
  induction parsed with
  | single parsed => exact .single _
  | elementFor parsed ih => exact .elementFor ih le_rfl (by simp)

theorem asGeneric_block {b : ElementFor (Element F)} (some_element : b.blockElements ≠ []) :
    asGeneric (.elementFor b) = .elementFor (b.atLeastOnce asGeneric) := by
  obtain ⟨max, blockElements, curr_element, loopCount⟩ := b
  rw [asGeneric, if_neg (by simpa using some_element)]
  rfl

theorem atLeastOnce_runs {f : Element F → Element F} {P : Element F → Prop}
    {n : Nat} {b : ElementFor (Element F)} (inLoop : b.InLoop P n)
    (some_element : b.blockElements ≠ []) :
    ((b.atLeastOnce f).endLoop || (b.atLeastOnce f).blockElements.isEmpty) = false := by
  have goes : (b.atLeastOnce f).endLoop = false :=
    decide_eq_false (not_le.mpr inLoop.less)
  rw [goes]
  simpa [ElementFor.atLeastOnce] using some_element

variable [Add F] [Sub F] [Mul F] [ToString F] (random_num : G → F × G) (defaultDevice : String)

theorem empty_asGeneric (camera : Camera) (depth : Nat) (g : G) {b : ElementFor (Element F)}
    (empty : b.blockElements = []) (inLoop : InLoop (.elementFor b)) :
    let called := (elementFor b).defnextCommand random_num defaultDevice camera depth g
    (elementFor b).asGeneric.nextCommand random_num defaultDevice camera depth g =
        (called.1, called.2.1, called.2.2.asGeneric) ∧ called.2.2.InLoop := by
  have stuck : (elementFor b).asGeneric = .single .stuck := by
    obtain ⟨max, blockElements, curr_element, loopCount⟩ := b
    rw [asGeneric, if_pos (by simpa using empty)]
  have undefined : (elementFor b).defnextCommand random_num defaultDevice camera depth g =
      (⟨none, none, none⟩, g, .elementFor b) := by
    cases depth <;> simp [defnextCommand, empty]
  rw [undefined, stuck]
  refine ⟨?_, inLoop⟩
  simp only [stuck]
  cases depth <;> rfl

theorem single_asGeneric (camera : Camera) (depth : Nat) (g : G) (e : CameraElement F) :
    let called := (single e).defnextCommand random_num defaultDevice camera depth g
    (single e).asGeneric.nextCommand random_num defaultDevice camera depth g =
        (called.1, called.2.1, called.2.2.asGeneric) ∧ called.2.2.InLoop := by
  cases generic : e.isGeneric with
  | true =>
    have still := e.isGeneric_nextCommand random_num defaultDevice camera g generic
    simp only [defnextCommand, CameraElement.defnextCommand, asGeneric, nextCommand, generic, still,
      if_true]
    exact ⟨trivial, .single _⟩
  | false =>
    simp only [defnextCommand, CameraElement.defnextCommand, asGeneric, generic, Bool.false_eq_true,
      if_false]
    cases depth with
    | zero => exact ⟨rfl, .single _⟩
    | succ depth => exact ⟨by simp [nextCommand], .single _⟩

theorem asGeneric_calls (camera : Camera) (depth : Nat) (g : G) {e : Element F}
    (inLoop : e.InLoop) :
    let called := e.defnextCommand random_num defaultDevice camera depth g
    e.asGeneric.nextCommand random_num defaultDevice camera depth g =
        (called.1, called.2.1, called.2.2.asGeneric) ∧ called.2.2.InLoop := by
  induction depth generalizing g e with
  | zero =>
    cases e with
    | single e => exact single_asGeneric random_num defaultDevice camera 0 g e
    | elementFor b =>
      by_cases empty : b.blockElements = []
      · exact empty_asGeneric random_num defaultDevice camera 0 g empty inLoop
      · rw [asGeneric_block empty]
        simp [defnextCommand, nextCommand, empty, asGeneric_block, inLoop]
  | succ depth ih =>
    cases e with
    | single e => exact single_asGeneric random_num defaultDevice camera (depth + 1) g e
    | elementFor b =>
      by_cases empty : b.blockElements = []
      · exact empty_asGeneric random_num defaultDevice camera (depth + 1) g empty inLoop
      · have block := inLoop.block
        obtain ⟨same, kept⟩ := ElementFor.loop_atLeastOnce (f := asGeneric)
          (fun g e good => ih g good) g b block
        have still : (b.loop (defnextCommand random_num defaultDevice camera depth) g).2.2.blockElements ≠
            [] := by
          apply List.ne_nil_of_length_pos
          rw [kept.length]
          exact List.length_pos_of_ne_nil empty
        rw [asGeneric_block empty]
        simp only [defnextCommand, nextCommand, atLeastOnce_runs block empty, Bool.false_eq_true,
          if_false, List.isEmpty_iff, empty, same, asGeneric_block still]
        exact ⟨trivial, inLoop_of_block kept⟩

end Element

namespace ElementAcquired

def seen (e : ElementAcquired F) : Element F :=
  if e.state = .ACQ_OK then .elementFor e.block
  else
    match e.elseBlock with
    | none => .elementFor ⟨1, [], 0, 0⟩
    | some b => .elementFor (b.atLeastOnce Element.asGeneric)

theorem seen_block (e : ElementAcquired F) : ∃ b, e.seen = .elementFor b := by
  unfold seen
  split
  · exact ⟨e.block, rfl⟩
  · split
    · exact ⟨⟨1, [], 0, 0⟩, rfl⟩
    · rename_i b _
      exact ⟨b.atLeastOnce Element.asGeneric, rfl⟩

structure Decided (e : ElementAcquired F) : Prop where
  state : e.state ≠ .NOT_CALLED
  some_element : ∀ b ∈ e.elseBlock, b.blockElements ≠ []
  inLoop : ∀ b ∈ e.elseBlock, b.InLoop Element.InLoop b.blockElements.length

theorem checkState_decided {e : ElementAcquired F} (state : e.state ≠ .NOT_CALLED)
    (acquireState : Int) : e.checkState acquireState = e := if_neg state

theorem checkState_checkState (e : ElementAcquired F) (acquireState : Int) :
    (e.checkState acquireState).checkState acquireState = e.checkState acquireState := by
  apply checkState_decided
  unfold checkState
  split
  · dsimp only
    split <;> simp
  · assumption

variable [Add F] [Sub F] [Mul F] [ToString F] (random_num : G → F × G) (defaultDevice : String)

theorem nextCommand_checkState (camera : Camera) (acquireState : Int) (depth : Nat) (g : G)
    (e : ElementAcquired F) :
    (e.checkState acquireState).nextCommand random_num defaultDevice camera acquireState depth g =
      e.nextCommand random_num defaultDevice camera acquireState depth g := by
  unfold nextCommand
  rw [checkState_checkState]

theorem seen_calls (camera : Camera) (acquireState : Int) (depth : Nat) (g : G)
    {e : ElementAcquired F} (decided : e.Decided) :
    let called := e.nextCommand random_num defaultDevice camera acquireState depth g
    e.seen.nextCommand random_num defaultDevice camera depth g =
        (called.1, called.2.1, called.2.2.seen) ∧ called.2.2.Decided := by
  simp only [nextCommand, checkState_decided decided.state]
  cases depth with
  | zero =>
    obtain ⟨b, block⟩ := e.seen_block
    refine ⟨?_, decided⟩
    dsimp only
    rw [block, Element.nextCommand]
  | succ depth =>
    by_cases ok : e.state = .ACQ_OK
    · simp only [seen, ok, if_true, Element.nextCommand]
      split
      · exact ⟨by simp, decided⟩
      · exact ⟨by simp, by simp, decided.some_element, decided.inLoop⟩
    · simp only [ok, if_false]
      cases other : e.elseBlock with
      | none => exact ⟨by simp [seen, ok, other, Element.nextCommand], decided⟩
      | some b =>
        have some_element := decided.some_element b (by simp [other])
        have block := decided.inLoop b (by simp [other])
        obtain ⟨same, kept⟩ := ElementFor.loop_atLeastOnce (f := Element.asGeneric)
          (fun g e good => Element.asGeneric_calls random_num defaultDevice camera depth g good) g b
          block
        refine ⟨?_, decided.state, ?_, ?_⟩
        · simp [seen, ok, other, Element.nextCommand, Element.atLeastOnce_runs block some_element,
            same]
        · intro b' played
          cases played
          apply List.ne_nil_of_length_pos
          rw [kept.length]
          exact List.length_pos_of_ne_nil some_element
        · intro b' played
          cases played
          rw [kept.length]
          exact kept

end ElementAcquired

namespace ScriptElement

def seen : ScriptElement F → Element F
  | .element e => e
  | .acquired e => e.seen

def Decided : ScriptElement F → Prop
  | .element _ => True
  | .acquired e => e.Decided

theorem seen_calls [Add F] [Sub F] [Mul F] [ToString F] (random_num : G → F × G)
    (defaultDevice : String) (camera : Camera) (acquireState : Int) (depth : Nat) (g : G)
    {e : ScriptElement F} (decided : e.Decided) :
    let called := e.nextCommand random_num defaultDevice camera acquireState depth g
    e.seen.nextCommand random_num defaultDevice camera depth g =
        (called.1, called.2.1, called.2.2.seen) ∧ called.2.2.Decided := by
  cases e with
  | element e => exact ⟨rfl, trivial⟩
  | acquired e => exact e.seen_calls random_num defaultDevice camera acquireState depth g decided

end ScriptElement

namespace AcquireScript

def seen (s : AcquireScript F) : Script F :=
  ⟨s.elements.map ScriptElement.seen, s.el_iter, s.executedCount, s.defaultDevice, s.nesting⟩

def Decided (s : AcquireScript F) : Prop := ∀ e ∈ s.elements, e.Decided

theorem scriptRet_seen (s : AcquireScript F) (answer : Answer F) (ret : Code) :
    s.seen.scriptRet answer ret = ((s.scriptRet answer ret).1, (s.scriptRet answer ret).2.seen) ∧
      (s.scriptRet answer ret).2.elements = s.elements := by
  unfold scriptRet Script.scriptRet
  split
  · dsimp only
    split <;> exact ⟨rfl, rfl⟩
  · split
    · exact ⟨rfl, rfl⟩
    · split <;> exact ⟨rfl, rfl⟩

variable [Add F] [Sub F] [Mul F] [ToString F] (random_num : G → F × G)

theorem loop_seen (camera : Camera) (acquireState : Int) (g : G) (s : AcquireScript F)
    (decided : s.Decided) :
    let called := s.loop random_num camera acquireState g
    s.seen.loop random_num camera g = (called.1, called.2.1, called.2.2.seen) ∧
      called.2.2.Decided := by
  cases there : s.elements[s.el_iter]? with
  | none =>
    have ended : s.loop random_num camera acquireState g = (⟨some .endScript, none, none⟩, g, s) := by
      rw [loop]
      split
      · rfl
      · rename_i e here
        simp [there] at here
    have ended' : s.seen.loop random_num camera g = (⟨some .endScript, none, none⟩, g, s.seen) := by
      rw [Script.loop]
      split
      · rfl
      · rename_i e here
        simp [seen, there] at here
    rw [ended, ended']
    exact ⟨rfl, decided⟩
  | some e =>
    have there' : s.seen.elements[s.seen.el_iter]? = some e.seen := by
      simp [seen, there]
    obtain ⟨called', kept⟩ := e.seen_calls random_num s.defaultDevice camera acquireState s.nesting g
      (decided e (List.mem_of_getElem? there))
    cases called : e.nextCommand random_num s.defaultDevice camera acquireState s.nesting g with
    | mk answer after =>
    obtain ⟨g', e'⟩ := after
    rw [called] at called' kept
    have set_seen : { s.seen with elements := s.seen.elements.set s.seen.el_iter e'.seen } =
        { s with elements := s.elements.set s.el_iter e' }.seen := by
      simp [seen, List.map_set]
    have following_seen : { s.seen with
        elements := s.seen.elements.set s.seen.el_iter e'.seen
        el_iter := s.seen.el_iter + 1 } =
        { s with elements := s.elements.set s.el_iter e', el_iter := s.el_iter + 1 }.seen := by
      simp [seen, List.map_set]
    have decided' : { s with elements := s.elements.set s.el_iter e' }.Decided := by
      intro x mem
      rcases List.mem_or_eq_of_mem_set mem with mem | rfl
      · exact decided x mem
      · exact kept
    have inside := (List.getElem?_eq_some_iff.mp there).1
    rw [loop_eq random_num there called, Script.loop_eq random_num there' called']
    dsimp only
    rw [set_seen, following_seen]
    cases code : answer.ret with
    | none => exact ⟨rfl, decided'⟩
    | some ret =>
      by_cases next_code : ret = .next
      · simp only [next_code, if_true]
        exact loop_seen camera acquireState g'
          { s with elements := s.elements.set s.el_iter e', el_iter := s.el_iter + 1 } decided'
      · obtain ⟨same, elements⟩ :=
          scriptRet_seen { s with elements := s.elements.set s.el_iter e' } answer ret
        simp only [next_code, if_false]
        rw [same]
        exact ⟨rfl, fun x mem => decided' x (elements ▸ mem)⟩
termination_by s.elements.length - s.el_iter
decreasing_by
  simp only [List.length_set]
  omega

theorem answers_seen (calls : List (Camera × Int)) (g : G) {s : AcquireScript F}
    (decided : s.Decided) :
    s.answers random_num calls g = s.seen.answers random_num (calls.map Prod.fst) g := by
  induction calls generalizing g s with
  | nil => rfl
  | cons call calls ih =>
    obtain ⟨camera, acquireState⟩ := call
    by_cases ended : s.executedCount < 0
    · have stays : s.nextCommand random_num camera acquireState g =
          (⟨some .endScript, none, none⟩, g, s) := if_pos ended
      have stays' : s.seen.nextCommand random_num camera g =
          (⟨some .endScript, none, none⟩, g, s.seen) := if_pos ended
      simp only [answers, List.map_cons, Script.answers, stays, stays']
      rw [ih g decided]
    · have goes : s.nextCommand random_num camera acquireState g =
          s.loop random_num camera acquireState g := if_neg ended
      have goes' : s.seen.nextCommand random_num camera g = s.seen.loop random_num camera g :=
        if_neg ended
      obtain ⟨same, kept⟩ := loop_seen random_num camera acquireState g s decided
      simp only [answers, List.map_cons, Script.answers, goes, goes', same]
      rw [ih _ kept]

def asked (defaultDevice : String) (A B C : List (Element F)) (acquireState : Int) :
    AcquireScript F :=
  { parsed defaultDevice A B C with
    elements := .acquired ((ElementAcquired.parsed A B).checkState acquireState) ::
      C.map .element }

theorem parsed_answers (defaultDevice : String) (A B C : List (Element F)) (camera : Camera)
    (acquireState : Int) (calls : List (Camera × Int)) (g : G) :
    (parsed defaultDevice A B C).answers random_num ((camera, acquireState) :: calls) g =
      (asked defaultDevice A B C acquireState).answers random_num
        ((camera, acquireState) :: calls) g := by
  have same_loop : (parsed defaultDevice A B C).loop random_num camera acquireState g =
      (asked defaultDevice A B C acquireState).loop random_num camera acquireState g := by
    cases called : (ElementAcquired.parsed A B).nextCommand random_num defaultDevice camera
      acquireState (parsed defaultDevice A B C).nesting g with
    | mk answer after =>
    obtain ⟨g', e'⟩ := after
    have called_asked := called
    rw [← ElementAcquired.nextCommand_checkState] at called_asked
    have first : (ScriptElement.acquired (ElementAcquired.parsed A B)).nextCommand random_num
        defaultDevice camera acquireState (parsed defaultDevice A B C).nesting g =
        (answer, g', .acquired e') := by
      simp only [ScriptElement.nextCommand, called]
    have first_asked : (ScriptElement.acquired
        ((ElementAcquired.parsed A B).checkState acquireState)).nextCommand random_num defaultDevice
        camera acquireState (parsed defaultDevice A B C).nesting g = (answer, g', .acquired e') := by
      simp only [ScriptElement.nextCommand, called_asked]
    rw [loop_eq random_num (s := parsed defaultDevice A B C) rfl first,
      loop_eq random_num (s := asked defaultDevice A B C acquireState) rfl first_asked]
    rfl
  have here : (parsed defaultDevice A B C).nextCommand random_num camera acquireState g =
      (asked defaultDevice A B C acquireState).nextCommand random_num camera acquireState g := by
    have running : ¬ (parsed defaultDevice A B C).executedCount < 0 := lt_irrefl 0
    rw [nextCommand, if_neg running, same_loop]
    exact (if_neg running).symm
  simp only [answers, here]

end AcquireScript

namespace Element

theorem nesting_le {es : List (Element F)} {e : Element F} (mem : e ∈ es) :
    e.nesting ≤ (es.map nesting).foldr max 0 :=
  List.le_max_of_le' 0 (List.mem_map_of_mem mem) le_rfl

theorem nesting_block_le {max : Int} {es : List (Element F)} {curr_element : Nat} {loopCount : Int}
    {depth : Nat} (bound : ∀ e ∈ es, e.nesting ≤ depth) :
    (elementFor ⟨max, es, curr_element, loopCount⟩).nesting ≤ depth + 1 := by
  rw [nesting]
  apply Nat.succ_le_succ
  apply List.max_le_of_forall_le
  intro n mem
  obtain ⟨e, listed, rfl⟩ := List.mem_map.mp mem
  exact bound e listed

theorem Parsed.asGeneric {e : Element F} (parsed : e.Parsed) :
    e.asGeneric.Parsed ∧ e.asGeneric.nesting ≤ e.nesting + 1 := by
  induction parsed with
  | @single e parsed =>
    rw [Element.asGeneric]
    split
    · exact ⟨.single parsed, Nat.le_succ _⟩
    · refine ⟨.elementFor (by simp), nesting_block_le (by simp)⟩
  | @elementFor max blockElements parsed ih =>
    rw [Element.asGeneric]
    split
    · exact ⟨.single ⟨rfl, by simp⟩, by simp [nesting]⟩
    · refine ⟨.elementFor fun e mem => ?_, ?_⟩
      · obtain ⟨x, listed, rfl⟩ := List.mem_map.mp mem
        exact (ih x listed).1
      · apply nesting_block_le
        intro e mem
        obtain ⟨x, listed, rfl⟩ := List.mem_map.mp mem
        rw [nesting]
        exact (ih x listed).2.trans (Nat.succ_le_succ (nesting_le listed))

end Element

namespace ElementAcquired

theorem parsed_decided {A B : List (Element F)} (acquireState : Int)
    (parsed_B : ∀ e ∈ B, e.Parsed) : ((parsed A B).checkState acquireState).Decided := by
  refine ⟨?_, fun b other => ?_, fun b other => ?_⟩
  · by_cases acquired : acquireState = 1 <;> simp [parsed, checkState, acquired]
  · cases B <;> cases other
    simp
  · cases B <;> cases other
    exact ⟨rfl, fun e mem => (parsed_B e mem).inLoop, le_rfl, by simp⟩

theorem parsed_failed {A B : List (Element F)} {acquireState : Int} (failed : acquireState ≠ 1) :
    ((parsed A B).checkState acquireState).seen =
      .elementFor ⟨1, B.map Element.asGeneric, 0, 0⟩ := by
  cases B <;> simp [parsed, checkState, failed, seen, ElementFor.atLeastOnce]

end ElementAcquired

namespace AcquireScript

variable [Add F] [Sub F] [Mul F] [ToString F] (random_num : G → F × G)

theorem asked_answers (defaultDevice : String) {A B C : List (Element F)} {acquireState : Int}
    {block : List (Element F)}
    (decided : ((ElementAcquired.parsed A B).checkState acquireState).Decided)
    (seen : ((ElementAcquired.parsed A B).checkState acquireState).seen =
      .elementFor ⟨1, block, 0, 0⟩)
    (parsed_block : ∀ e ∈ block, e.Parsed)
    (bound : ∀ e ∈ block, e.nesting ≤ ((A ++ B ++ C).map Element.nesting).foldr max 0 + 1)
    (parsed_C : ∀ e ∈ C, e.Parsed) (calls : List (Camera × Int)) (g : G) :
    (asked defaultDevice A B C acquireState).answers random_num calls g =
      listAnswers random_num defaultDevice (calls.map Prod.fst) g
        ((block ++ C).flatMap Element.unroll) := by
  have decided_all : (asked defaultDevice A B C acquireState).Decided := by
    intro e mem
    rcases List.mem_cons.mp mem with rfl | mem
    · exact decided
    · obtain ⟨x, -, rfl⟩ := List.mem_map.mp mem
      trivial
  have script : (asked defaultDevice A B C acquireState).seen =
      ⟨.elementFor ⟨1, block, 0, 0⟩ :: C, 0, 0, defaultDevice,
        (parsed defaultDevice A B C).nesting⟩ := by
    simp [AcquireScript.seen, asked, ScriptElement.seen, seen, Function.comp_def, parsed]
  have parsed_all : ∀ e ∈ Element.elementFor ⟨1, block, 0, 0⟩ :: C, e.Parsed := by
    intro e mem
    rcases List.mem_cons.mp mem with rfl | mem
    · exact .elementFor parsed_block
    · exact parsed_C e mem
  have bound_all : ∀ e ∈ Element.elementFor ⟨1, block, 0, 0⟩ :: C,
      e.nesting ≤ (parsed defaultDevice A B C).nesting := by
    intro e mem
    rcases List.mem_cons.mp mem with rfl | mem
    · exact Element.nesting_block_le bound
    · have listed : e ∈ A ++ B ++ C := List.mem_append_right _ mem
      exact (Element.nesting_le listed).trans (Nat.le_add_right _ 2)
  obtain ⟨good, rest⟩ := Script.start_unrolls random_num defaultDevice parsed_all bound_all
  rw [answers_seen random_num calls g decided_all, script,
    Script.answers_eq random_num defaultDevice _ g good, rest]
  simp [Element.unroll]

theorem acquired_answers (defaultDevice : String) {A B C : List (Element F)}
    (parsed_A : ∀ e ∈ A, e.Parsed) (parsed_B : ∀ e ∈ B, e.Parsed) (parsed_C : ∀ e ∈ C, e.Parsed)
    (camera : Camera) (calls : List (Camera × Int)) (g : G) :
    (parsed defaultDevice A B C).answers random_num ((camera, 1) :: calls) g =
      listAnswers random_num defaultDevice (camera :: calls.map Prod.fst) g
        ((A ++ C).flatMap Element.unroll) := by
  rw [parsed_answers]
  refine asked_answers random_num defaultDevice ?_ rfl parsed_A (fun e mem => ?_) parsed_C _ g
  · exact ElementAcquired.parsed_decided 1 parsed_B
  · have listed : e ∈ A ++ B ++ C := by simp [mem]
    exact (Element.nesting_le listed).trans (Nat.le_add_right _ 1)

theorem failed_answers (defaultDevice : String) {A B C : List (Element F)}
    (parsed_B : ∀ e ∈ B, e.Parsed) (parsed_C : ∀ e ∈ C, e.Parsed)
    (camera : Camera) {acquireState : Int} (failed : acquireState ≠ 1)
    (calls : List (Camera × Int)) (g : G) :
    (parsed defaultDevice A B C).answers random_num ((camera, acquireState) :: calls) g =
      listAnswers random_num defaultDevice (camera :: calls.map Prod.fst) g
        ((B.map Element.asGeneric ++ C).flatMap Element.unroll) := by
  rw [parsed_answers]
  refine asked_answers random_num defaultDevice ?_ ?_ (fun e mem => ?_) (fun e mem => ?_) parsed_C _ g
  · exact ElementAcquired.parsed_decided acquireState parsed_B
  · exact ElementAcquired.parsed_failed failed
  · obtain ⟨x, listed, rfl⟩ := List.mem_map.mp mem
    exact (parsed_B x listed).asGeneric.1
  · obtain ⟨x, listed, rfl⟩ := List.mem_map.mp mem
    have there : x ∈ A ++ B ++ C := by simp [listed]
    exact (parsed_B x listed).asGeneric.2.trans (Nat.succ_le_succ (Element.nesting_le there))

end AcquireScript

end Rts2.Scripts
