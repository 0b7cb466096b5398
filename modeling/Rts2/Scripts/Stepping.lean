import Rts2.Scripts.Elements
import Rts2.Lib.Fuel

/-! The loops of nextCommand with blocks of every kind, for a camera, a photometer and the calls of
any device that the second block of ifacq makes. An element without blocks is what it answers while
one call runs, as are the clock and the conditions; between the calls they change. A loop may not
end, so the calls have fuel. -/
namespace Rts2.Scripts.Stepping

/-- Who asks: a camera with the length of its queue, a photometer, or any device, with
defnextCommand. -/
inductive Client where
  | camera (que_exp_num : Option Int)
  | phot
  | other

/-- How often the element answers NEXT_COMMAND_NEXT, for ever if there is no number, and what it
answers then. -/
structure Single where
  nexts : Client → Option Nat
  ret : Client → Option Code
  kept : ∀ client, ret client ≠ some .cleared

def Single.nextCommand (client : Client) (l : Single) : Option Code × Single :=
  match l.nexts client with
  | some 0 => (l.ret client, l)
  | none | some (_ + 1) => (some .next, { l with nexts := fun c => (l.nexts c).map Nat.pred })

/-- The loops of the blocks. A condition is what it is each time it is looked at: zero or not, or an
exception; `passes` is how often the clock is looked at before the second of the day has come. -/
inductive Loop where
  | elementFor (max : Int)
  | elementWhile (max_cycles : Int) (zero : Nat → Option Bool) (looks : Nat)
  | elementDo (max_cycles : Int) (zero : Nat → Option Bool) (looks : Nat)
  | once (first : Bool)
  | signalEnd (sig_num : Int)
  | whileSod (passes : Option Nat)
  | single
  | hex (left total : Nat)

structure Block (E : Type) where
  kind : Loop
  blockElements : List E
  curr_element : Nat
  loopCount : Int

namespace Block

variable {E : Type}

def endLoop (b : Block E) : Option Bool × Block E :=
  match b.kind with
  | .elementFor max => (some (max ≤ b.loopCount), b)
  | .elementWhile max_cycles zero looks =>
    if max_cycles ≤ b.loopCount then (some true, b)
    else (zero looks, { b with kind := .elementWhile max_cycles zero (looks + 1) })
  | .elementDo max_cycles zero looks =>
    if b.loopCount = 0 then (some false, b)
    else if max_cycles ≤ b.loopCount then (some true, b)
    else (zero looks, { b with kind := .elementDo max_cycles zero (looks + 1) })
  | .once first => (some (!(first && b.loopCount = 0)), b)
  | .signalEnd sig_num => (some (sig_num = -1), b)
  | .whileSod none => (some false, b)
  | .whileSod (some 0) => (some true, b)
  | .whileSod (some (passes + 1)) => (some false, { b with kind := .whileSod (some passes) })
  | .single => (some (b.loopCount ≠ 0), b)
  | .hex left _ => (some (left = 0), b)

def afterBlockEnd (b : Block E) : Block E :=
  match b.kind with
  | .hex _ total => { b with kind := .hex total total, loopCount := 0, curr_element := 0 }
  | _ => { b with loopCount := 0, curr_element := 0 }

def getNextLoop (b : Block E) : Option Bool × Block E :=
  match b.kind with
  | .hex left total =>
    let b := { b with kind := .hex (left - 1) total }
    if left - 1 = 0 then (some true, b.afterBlockEnd) else (some false, b)
  | _ =>
    match b.endLoop with
    | (some true, b) => (some true, b.afterBlockEnd)
    | (ended, b) => (ended, b)

/-- curr_element goes on to the next element, or to the first one in the next loop; true when the
last loop has ended. -/
def nextElement (b : Block E) : Option Bool × Block E :=
  if b.curr_element + 1 = b.blockElements.length then
    match { b with curr_element := b.curr_element + 1, loopCount := b.loopCount + 1 }.getNextLoop with
    | (some false, b) => (some false, { b with curr_element := 0 })
    | (ended, b) => (ended, b)
  else (some false, { b with curr_element := b.curr_element + 1 })

def blockScriptRet (b : Block E) (ret : Code) : Option Code × Block E :=
  if ret.ends then
    match b.nextElement with
    | (none, b) => (none, b)
    | (some true, b) => (some ret, b)
    | (some false, b) => (some (ret ||| .maskBlock), b)
  else (some (ret ||| .maskBlock), b)

def queued (b : Block E) (client : Client) (ret : Code) : Bool :=
  match b.kind, client with
  | .whileSod _, .camera que_exp_num =>
    ret = 0 && b.curr_element = 0 && que_exp_num.any (1 < ·)
  | _, _ => false

end Block

/-- The ifacq block knows whether the target is acquired once it has asked, and `told` is what it
will be told. Its second block is always asked with defnextCommand. -/
inductive Element where
  | single (l : Single)
  | block (b : Block Element)
  | acquired (state : AcquireState) (told : Bool) (body : Element) (elseBlock : Option Element)

def checkState (state : AcquireState) (told : Bool) : AcquireState :=
  match state with
  | .NOT_CALLED => if told then .ACQ_OK else .ACQ_FAILED
  | state => state

def Block.goOn (b : Block Element) (ret : Code)
    (loop : Block Element → Option (Option Code × Element)) : Option (Option Code × Element) :=
  if ret = .next then
    match b.nextElement with
    | (none, b) => some (none, .block b)
    | (some true, b) => some (some .next, .block b)
    | (some false, b) => loop b
  else some ((b.blockScriptRet ret).1, .block (b.blockScriptRet ret).2)

def Block.afterCall (b : Block Element) (client : Client) (ret : Option Code)
    (loop : Block Element → Option (Option Code × Element)) : Option (Option Code × Element) :=
  match ret with
  | none => some (none, .block b)
  | some ret =>
    if b.queued client ret then some ((b.blockScriptRet .keep).1, .block (b.blockScriptRet .keep).2)
    else b.goOn ret loop

namespace Element

/-- A call of an element, and with `entering` false the loop of a block. Without fuel, and past the
last element of a block, there is no answer. -/
def nextCommand : Nat → Client → Bool → Element → Option (Option Code × Element)
  | 0, _, _, _ => none
  | _ + 1, client, _, .single l =>
    let (ret, l) := l.nextCommand client
    some (ret, .single l)
  | fuel + 1, client, _, .acquired state told body elseBlock =>
    let state := checkState state told
    if state = .ACQ_OK then
      (nextCommand fuel client true body).bind fun (ret, body) =>
        some (ret, .acquired state told body elseBlock)
    else
      match elseBlock with
      | none => some (some .next, .acquired state told body none)
      | some elseBlock =>
        (nextCommand fuel .other true elseBlock).bind fun (ret, elseBlock) =>
          some (ret, .acquired state told body (some elseBlock))
  | fuel + 1, .other, true, .block b => nextCommand fuel .other false (.block b)
  | fuel + 1, client, true, .block b =>
    match b.endLoop with
    | (none, b) => some (none, .block b)
    | (some true, b) => some (some .next, .block b)
    | (some false, b) =>
      if b.blockElements.isEmpty then some (some .next, .block b)
      else nextCommand fuel client false (.block b)
  | fuel + 1, client, false, .block b =>
    match b.blockElements[b.curr_element]? with
    | none => none
    | some ce =>
      (nextCommand fuel client true ce).bind fun (ret, ce) =>
        { b with blockElements := b.blockElements.set b.curr_element ce }.afterCall client ret
          fun b => nextCommand fuel client false (.block b)

def idleCall (ended : Bool) : Nat → Element → Option (Option Code × Element)
  | 0, _ => none
  | _ + 1, .single l => some (some (if ended then .next else .keep), .single l)
  | fuel + 1, .acquired state told body elseBlock =>
    (idleCall ended fuel body).bind fun (ret, body) =>
      some (ret, .acquired state told body elseBlock)
  | fuel + 1, .block b =>
    match b.blockElements[b.curr_element]? with
    | none => some (some .keep, .block b)
    | some ce =>
      (idleCall ended fuel ce).bind fun (ret, ce) =>
        let b := { b with blockElements := b.blockElements.set b.curr_element ce }
        match ret with
        | none => some (none, .block b)
        | some ret => b.goOn ret fun b => some (some .next, .block b)

end Element

structure Script where
  elements : List Element
  el_iter : Nat
  executedCount : Int

namespace Script

def scriptRet (s : Script) (ret : Code) : Code × Script :=
  if ret &&& .maskBlock ≠ 0 then
    let ret := ret &&& ~~~.maskBlock
    (ret, if ret ≠ .next then { s with executedCount := s.executedCount + 1 } else s)
  else if ret.ends then
    (ret, { s with el_iter := s.el_iter + 1, executedCount := s.executedCount + 1 })
  else (ret, { s with executedCount := s.executedCount + 1 })

def loop : Nat → Client → Script → Option (Option Code × Script)
  | 0, _, _ => none
  | fuel + 1, client, s =>
    match s.elements[s.el_iter]? with
    | none => some (some .endScript, s)
    | some currElement =>
      (currElement.nextCommand fuel client true).bind fun (ret, currElement) =>
        let s := { s with elements := s.elements.set s.el_iter currElement }
        match ret with
        | none => some (none, s)
        | some ret =>
          if ret = .next then loop fuel client { s with el_iter := s.el_iter + 1 }
          else some (some (s.scriptRet ret).1, (s.scriptRet ret).2)

def nextCommand (fuel : Nat) (client : Client) (s : Script) : Option (Option Code × Script) :=
  if s.executedCount < 0 then some (some .endScript, s) else s.loop fuel client

def idle (fuel : Nat) (ended : Bool) (s : Script) : Option (Option Code × Script) :=
  match s.elements[s.el_iter]? with
  | none => some (some .keep, s)
  | some e =>
    (e.idleCall ended fuel).bind fun (ret, e) =>
      some (ret, { s with elements := s.elements.set s.el_iter e })

end Script

/-- Blocks start at their first element; a hexagon has its path, which the element that was not
told of the execution has not. The second block of ifacq has elements. -/
inductive Element.Parsed : Element → Prop
  | single (l : Single) : Parsed (.single l)
  | block {kind : Loop} {blockElements : List Element} (parsed : ∀ e ∈ blockElements, Parsed e) :
    Parsed (.block ⟨kind, blockElements, 0, 0⟩)
  | acquired {told : Bool} {body : Element} {elseBlock : Option Element} (parsed : Parsed body)
    (other : ∀ e ∈ elseBlock, Parsed e) : Parsed (.acquired .NOT_CALLED told body elseBlock)

/-- What changes between the calls: the signal comes, the clock goes on, conditions are other. -/
inductive Loop.Changes : Loop → Loop → Prop
  | same (kind : Loop) : Changes kind kind
  | elementWhile (max_cycles : Int) {zero zero' : Nat → Option Bool} {looks looks' : Nat} :
    Changes (.elementWhile max_cycles zero looks) (.elementWhile max_cycles zero' looks')
  | elementDo (max_cycles : Int) {zero zero' : Nat → Option Bool} {looks looks' : Nat} :
    Changes (.elementDo max_cycles zero looks) (.elementDo max_cycles zero' looks')
  | signal (sig_num : Int) : Changes (.signalEnd sig_num) (.signalEnd (-1))
  | whileSod {passes passes' : Option Nat} : Changes (.whileSod passes) (.whileSod passes')

/-- Elements answer otherwise, and the target may be acquired. -/
inductive Element.Changes : Element → Element → Prop
  | single (l l' : Single) : Changes (.single l) (.single l')
  | block {kind kind' : Loop} {blockElements blockElements' : List Element} {curr_element : Nat}
      {loopCount : Int} (changes : kind.Changes kind')
      (length : blockElements'.length = blockElements.length)
      (each : ∀ (i : Nat) (e e' : Element), blockElements[i]? = some e →
        blockElements'[i]? = some e' → Changes e e') :
    Changes (.block ⟨kind, blockElements, curr_element, loopCount⟩)
      (.block ⟨kind', blockElements', curr_element, loopCount⟩)
  | acquired {state : AcquireState} {told told' : Bool} {body body' : Element}
      {elseBlock elseBlock' : Option Element} (changes : Changes body body')
      (some : elseBlock'.isSome = elseBlock.isSome)
      (other : ∀ e e', e ∈ elseBlock → e' ∈ elseBlock' → Changes e e') :
    Changes (.acquired state told body elseBlock) (.acquired state told' body' elseBlock')

/-- The states of a script: calls of nextCommand and of idle that return without an exception, and
changes of the surroundings between them. -/
inductive Script.Reached (elements : List Element) : Script → Prop
  | start : Reached elements ⟨elements, 0, 0⟩
  | nextCommand {s s' : Script} {fuel : Nat} {client : Client} {ret : Code}
      (reached : Reached elements s) (called : s.nextCommand fuel client = some (some ret, s')) :
    Reached elements s'
  | idle {s s' : Script} {fuel : Nat} {ended : Bool} {ret : Code} (reached : Reached elements s)
      (called : s.idle fuel ended = some (some ret, s')) : Reached elements s'
  | changes {s : Script} {elements' : List Element} (reached : Reached elements s)
      (length : elements'.length = s.elements.length)
      (each : ∀ (i : Nat) (e e' : Element), s.elements[i]? = some e → elements'[i]? = some e' →
        e.Changes e') :
    Reached elements { s with elements := elements' }

namespace Loop

def base : Loop → Loop
  | .elementWhile max_cycles zero _ => .elementWhile max_cycles zero 0
  | .elementDo max_cycles zero _ => .elementDo max_cycles zero 0
  | .whileSod (some _) => .whileSod (some 0)
  | .hex _ total => .hex total total
  | kind => kind

def Endless : Loop → Prop
  | .signalEnd sig_num => sig_num ≠ -1
  | .whileSod none => True
  | _ => False

def Opens (loopCount : Int) : Loop → Prop
  | .elementFor max => loopCount < max
  | .elementWhile max_cycles zero _ => loopCount < max_cycles ∧ ∀ n, zero n ≠ some true
  | .elementDo max_cycles zero _ =>
    loopCount = 0 ∨ loopCount < max_cycles ∧ ∀ n, zero n ≠ some true
  | .once first => first = true ∧ loopCount = 0
  | .signalEnd sig_num => sig_num ≠ -1
  | .whileSod passes => passes = none
  | .single => loopCount = 0
  | .hex left _ => left ≠ 0

def rounds (loopCount : Int) : Loop → Nat
  | .elementFor max => (max - loopCount).toNat
  | .elementWhile max_cycles _ _ | .elementDo max_cycles _ _ => (max_cycles - loopCount).toNat
  | .whileSod (some passes) => passes
  | .hex left _ => left
  | .once _ | .signalEnd _ | .whileSod none | .single => 0

theorem endless_base (kind : Loop) : kind.base.Endless ↔ kind.Endless := by
  unfold base
  split <;> rfl

end Loop

namespace Block

variable {E : Type}

def Inside (b : Block E) : Prop :=
  (b.curr_element < b.blockElements.length ∨ b.blockElements = []) ∧ 0 ≤ b.loopCount

def started (b : Block E) : Bool :=
  b.curr_element = 0 && b.loopCount = 0 &&
    match b.kind with
    | .hex left total => left = total
    | _ => true

def Opens (b : Block E) : Prop := b.kind.Opens b.loopCount ∧ b.kind.base.Opens 0

theorem endLoop_cases (b : Block E) : b.endLoop.2.blockElements = b.blockElements ∧
    b.endLoop.2.curr_element = b.curr_element ∧ b.endLoop.2.loopCount = b.loopCount ∧
    b.endLoop.2.kind.base = b.kind.base ∧ b.endLoop.2.started = b.started ∧
    (b.kind.Opens b.loopCount → b.endLoop.1 ≠ some true) := by
  obtain ⟨kind, blockElements, curr_element, loopCount⟩ := b
  cases kind with
  | elementFor max => simp [endLoop, Loop.Opens]
  | elementWhile max_cycles zero looks =>
    by_cases ended : max_cycles ≤ loopCount
    · simp [endLoop, ended, Loop.Opens]
    · simpa [endLoop, ended, Loop.base, Loop.Opens, started] using fun _ opens => opens looks
  | elementDo max_cycles zero looks =>
    by_cases first : loopCount = 0
    · simp [endLoop, first]
    · by_cases ended : max_cycles ≤ loopCount
      · simp [endLoop, first, ended, Loop.Opens]
      · simpa [endLoop, first, ended, Loop.base, Loop.Opens, started] using fun _ opens => opens looks
  | once first => simp [endLoop, Loop.Opens]
  | signalEnd sig_num => simp [endLoop, Loop.Opens]
  | whileSod passes =>
    match passes with
    | none => simp [endLoop, Loop.Opens]
    | some 0 => simp [endLoop, Loop.Opens]
    | some (passes + 1) => exact ⟨rfl, rfl, rfl, rfl, rfl, fun _ => nofun⟩
  | single => simp [endLoop, Loop.Opens]
  | hex left total => simp [endLoop, Loop.Opens]

theorem getNextLoop_cases (b : Block E) (positive : 0 < b.loopCount) :
    b.getNextLoop.2.blockElements = b.blockElements ∧ b.getNextLoop.2.kind.base = b.kind.base ∧
      (b.getNextLoop.1 = some true → b.getNextLoop.2.started = true) ∧
      (b.getNextLoop.1 = some false → b.getNextLoop.2.loopCount = b.loopCount ∧
        (b.kind.Endless ∧ b.getNextLoop.2.kind = b.kind ∨
          b.getNextLoop.2.kind.rounds b.loopCount < b.kind.rounds (b.loopCount - 1))) := by
  obtain ⟨kind, blockElements, curr_element, loopCount⟩ := b
  dsimp only at positive
  cases kind with
  | elementFor max =>
    by_cases ended : max ≤ loopCount
    · simp [getNextLoop, endLoop, ended, afterBlockEnd, started]
    · simp [getNextLoop, endLoop, ended, Loop.rounds]
      omega
  | elementWhile max_cycles zero looks =>
    by_cases ended : max_cycles ≤ loopCount
    · simp [getNextLoop, endLoop, ended, afterBlockEnd, started]
    · cases look : zero looks with
      | none => simp [getNextLoop, endLoop, ended, look, Loop.base]
      | some zero =>
        cases zero with
        | true => simp [getNextLoop, endLoop, ended, look, Loop.base, afterBlockEnd, started]
        | false =>
          simp [getNextLoop, endLoop, ended, look, Loop.base, Loop.rounds]
          omega
  | elementDo max_cycles zero looks =>
    have later : loopCount ≠ 0 := positive.ne'
    by_cases ended : max_cycles ≤ loopCount
    · simp [getNextLoop, endLoop, ended, later, afterBlockEnd, started]
    · cases look : zero looks with
      | none => simp [getNextLoop, endLoop, ended, later, look, Loop.base]
      | some zero =>
        cases zero with
        | true => simp [getNextLoop, endLoop, ended, later, look, Loop.base, afterBlockEnd, started]
        | false =>
          simp [getNextLoop, endLoop, ended, later, look, Loop.base, Loop.rounds]
          omega
  | once first => simp [getNextLoop, endLoop, positive.ne', afterBlockEnd, started]
  | signalEnd sig_num =>
    by_cases ended : sig_num = -1
    · simp [getNextLoop, endLoop, ended, afterBlockEnd, started]
    · simp [getNextLoop, endLoop, ended, Loop.Endless]
  | whileSod passes =>
    match passes with
    | none => simp [getNextLoop, endLoop, Loop.Endless]
    | some 0 => simp [getNextLoop, endLoop, afterBlockEnd, started]
    | some (passes + 1) => simp [getNextLoop, endLoop, Loop.base, Loop.rounds]
  | single => simp [getNextLoop, endLoop, positive.ne', afterBlockEnd, started]
  | hex left total =>
    by_cases ended : left - 1 = 0
    · simp [getNextLoop, ended, Loop.base, afterBlockEnd, started]
    · simp [getNextLoop, ended, Loop.base, Loop.rounds]
      omega

theorem nextElement_cases (b : Block E) (there : b.curr_element < b.blockElements.length)
    (least : 0 ≤ b.loopCount) :
    b.curr_element + 1 < b.blockElements.length ∧
        b.nextElement = (some false, { b with curr_element := b.curr_element + 1 }) ∨
      b.curr_element + 1 = b.blockElements.length ∧
        b.nextElement.2.blockElements = b.blockElements ∧
        b.nextElement.2.kind.base = b.kind.base ∧
        (b.nextElement.1 = some true → b.nextElement.2.started = true) ∧
        (b.nextElement.1 = some false → b.nextElement.2.curr_element = 0 ∧
          b.nextElement.2.loopCount = b.loopCount + 1 ∧
          (b.kind.Endless ∧ b.nextElement.2.kind = b.kind ∨
            b.nextElement.2.kind.rounds (b.loopCount + 1) < b.kind.rounds b.loopCount)) := by
  by_cases last : b.curr_element + 1 = b.blockElements.length
  · refine .inr ⟨last, ?_⟩
    obtain ⟨elements, base, ended, goes⟩ := getNextLoop_cases
      { b with curr_element := b.curr_element + 1, loopCount := b.loopCount + 1 }
      (Int.lt_add_one_of_le least)
    rw [nextElement, if_pos last]
    cases next : ({ b with curr_element := b.curr_element + 1, loopCount := b.loopCount + 1 } :
      Block E).getNextLoop with
    | mk answer b' =>
    rw [next] at elements base ended goes
    cases answer with
    | none => exact ⟨elements, base, nofun, nofun⟩
    | some answer =>
      cases answer with
      | true => exact ⟨elements, base, ended, nofun⟩
      | false =>
        obtain ⟨loopCount, rounds⟩ := goes rfl
        rw [Int.add_sub_cancel] at rounds
        exact ⟨elements, base, nofun, fun _ => ⟨rfl, loopCount, rounds⟩⟩
  · exact .inl ⟨by omega, by rw [nextElement, if_neg last]⟩

end Block

namespace Block

variable {E : Type}

theorem started_inside {b : Block E} (some_element : b.blockElements ≠ [])
    (started : b.started = true) : b.curr_element < b.blockElements.length ∧ b.loopCount = 0 := by
  simp only [Block.started, Bool.and_eq_true, decide_eq_true_eq] at started
  exact ⟨started.1.1 ▸ List.length_pos_of_ne_nil some_element, started.1.2⟩

theorem nextElement_inside {b : Block E} (there : b.curr_element < b.blockElements.length)
    (least : 0 ≤ b.loopCount) : b.nextElement.2.blockElements = b.blockElements ∧
      (b.nextElement.1 ≠ none → b.nextElement.2.Inside) := by
  rcases b.nextElement_cases there least with ⟨more, next⟩ | ⟨_, elements, _, ended, goes⟩
  · rw [next]
    exact ⟨rfl, fun _ => ⟨.inl more, least⟩⟩
  · refine ⟨elements, fun answers => ?_⟩
    have some_element : b.nextElement.2.blockElements ≠ [] := by
      rw [elements]
      exact List.ne_nil_of_length_pos (Nat.zero_lt_of_lt there)
    cases answer : b.nextElement.1 with
    | none => exact absurd answer answers
    | some answer' =>
      cases answer' with
      | true =>
        obtain ⟨inside, loopCount⟩ := started_inside some_element (ended answer)
        exact ⟨.inl inside, loopCount.ge⟩
      | false =>
        obtain ⟨first, loopCount, _⟩ := goes answer
        refine ⟨.inl (first ▸ List.length_pos_of_ne_nil some_element), ?_⟩
        rw [loopCount]
        exact Int.add_nonneg least Int.one_nonneg

theorem blockScriptRet_inside {b : Block E} (there : b.curr_element < b.blockElements.length)
    (least : 0 ≤ b.loopCount) (ret : Code) :
    (b.blockScriptRet ret).2.blockElements = b.blockElements ∧
      ((b.blockScriptRet ret).1 ≠ none → (b.blockScriptRet ret).2.Inside) := by
  obtain ⟨elements, inside⟩ := nextElement_inside there least
  unfold blockScriptRet
  split
  · cases next : b.nextElement with
    | mk answer b' =>
    rw [next] at elements inside
    cases answer with
    | none => exact ⟨elements, fun answers => absurd rfl answers⟩
    | some answer =>
      cases answer with
      | true => exact ⟨elements, fun _ => inside nofun⟩
      | false => exact ⟨elements, fun _ => inside nofun⟩
  · exact ⟨rfl, fun _ => ⟨.inl there, least⟩⟩

theorem blockScriptRet_found {b : Block E} {code ret : Code} (found : code ≠ .next)
    (kept : code ≠ .cleared) (turn : (b.blockScriptRet code).1 = some ret) :
    ret ≠ .next ∧ ret ≠ .cleared := by
  obtain ⟨masked, listed, _⟩ := Code.masked_stays found kept
  unfold blockScriptRet at turn
  split at turn
  · cases next : b.nextElement with
    | mk answer b' =>
    rw [next] at turn
    cases answer with
    | none => cases turn
    | some answer =>
      cases answer with
      | true =>
        cases turn
        exact ⟨found, kept⟩
      | false =>
        cases turn
        exact ⟨masked, listed⟩
  · cases turn
    exact ⟨masked, listed⟩

end Block

namespace Element

def Good : Nat → Element → Prop
  | _, .single _ => True
  | 0, .block _ | 0, .acquired .. => False
  | depth + 1, .block b => b.Inside ∧ ∀ e ∈ b.blockElements, Good depth e
  | depth + 1, .acquired _ _ body elseBlock => Good depth body ∧ ∀ e ∈ elseBlock, Good depth e

theorem good_set {depth : Nat} {es : List Element} {i : Nat} {e : Element}
    (good : ∀ x ∈ es, Good depth x) (good' : Good depth e) : ∀ x ∈ es.set i e, Good depth x := by
  intro x mem
  rcases List.mem_or_eq_of_mem_set mem with mem | rfl
  · exact good x mem
  · exact good'

theorem blockScriptRet_good {b : Block Element} {depth : Nat} (least : 0 ≤ b.loopCount)
    (there : b.curr_element < b.blockElements.length) (good : ∀ e ∈ b.blockElements, Good depth e)
    {code ret : Code} (found : code ≠ .next) (kept : code ≠ .cleared)
    (turn : (b.blockScriptRet code).1 = some ret) :
    (block (b.blockScriptRet code).2).Good (depth + 1) ∧ ret ≠ .cleared := by
  obtain ⟨elements, inside⟩ := Block.blockScriptRet_inside there least code
  refine ⟨⟨inside (by rw [turn]; nofun), by rw [elements]; exact good⟩, ?_⟩
  exact (Block.blockScriptRet_found found kept turn).2

theorem goOn_good {b : Block Element} {depth : Nat} (least : 0 ≤ b.loopCount)
    (there : b.curr_element < b.blockElements.length) (good : ∀ e ∈ b.blockElements, Good depth e)
    {code : Code} (kept : code ≠ .cleared)
    {loop : Block Element → Option (Option Code × Element)} {ret : Code} {e' : Element}
    (after : b.goOn code loop = some (some ret, e'))
    (goes : ∀ b', (block b').Good (depth + 1) → loop b' = some (some ret, e') →
      Good (depth + 1) e' ∧ ret ≠ .cleared) : Good (depth + 1) e' ∧ ret ≠ .cleared := by
  obtain ⟨elements, inside⟩ := Block.nextElement_inside there least
  unfold Block.goOn at after
  split at after
  · cases next : b.nextElement with
    | mk answer b' =>
    rw [next] at after elements inside
    have good' : (answer ≠ none) → (block b').Good (depth + 1) :=
      fun answers => ⟨inside answers, by rw [elements]; exact good⟩
    cases answer with
    | none => cases after
    | some answer =>
      cases answer with
      | true =>
        cases after
        exact ⟨good' nofun, by decide⟩
      | false => exact goes b' (good' nofun) after
  · rename_i found
    obtain ⟨turn, rfl⟩ := Prod.mk.inj (Option.some.inj after)
    exact blockScriptRet_good least there good found kept turn

theorem nextCommand_good {fuel : Nat} {client : Client} {entering : Bool} {depth : Nat}
    {e e' : Element} {ret : Code} (good : Good depth e)
    (called : e.nextCommand fuel client entering = some (some ret, e')) :
    Good depth e' ∧ ret ≠ .cleared := by
  induction fuel generalizing client entering depth e e' ret with
  | zero => cases called
  | succ fuel ih =>
    cases e with
    | single l =>
      have good' : ∀ l', Good depth (.single l') := fun l' => by cases depth <;> trivial
      simp only [nextCommand] at called
      cases called' : l.nextCommand client with
      | mk answer l' =>
      rw [called'] at called
      cases called
      refine ⟨good' _, fun same => ?_⟩
      unfold Single.nextCommand at called'
      split at called'
      · exact l.kept client ((congrArg Prod.fst called').trans (congrArg some same))
      · cases called'
        exact absurd same (by decide)
      · cases called'
        exact absurd same (by decide)
    | acquired state told body elseBlock =>
      cases depth with
      | zero => cases good
      | succ depth =>
        obtain ⟨good_body, good_else⟩ := good
        simp only [nextCommand] at called
        split at called
        · obtain ⟨⟨answer, body'⟩, played, result⟩ := Option.bind_eq_some_iff.mp called
          cases result
          obtain ⟨good', kept⟩ := ih good_body played
          exact ⟨⟨good', good_else⟩, kept⟩
        · cases elseBlock with
          | none =>
            cases called
            exact ⟨⟨good_body, good_else⟩, by decide⟩
          | some other =>
            obtain ⟨⟨answer, other'⟩, played, result⟩ := Option.bind_eq_some_iff.mp called
            cases result
            obtain ⟨good', kept⟩ := ih (good_else other rfl) played
            refine ⟨⟨good_body, fun e mem => ?_⟩, kept⟩
            cases mem
            exact good'
    | block b =>
      cases depth with
      | zero => cases good
      | succ depth =>
        obtain ⟨inside, good_b⟩ := good
        cases entering with
        | true =>
          obtain ⟨elements, curr, loopCount, _⟩ := b.endLoop_cases
          have good_l : (block b.endLoop.2).Good (depth + 1) := by
            refine ⟨?_, by rw [elements]; exact good_b⟩
            rw [Block.Inside, elements, curr, loopCount]
            exact inside
          have tested (called : (match b.endLoop with
              | (none, b) => some (none, .block b)
              | (some true, b) => some (some .next, .block b)
              | (some false, b) =>
                if b.blockElements.isEmpty then some (some .next, .block b)
                else nextCommand fuel client false (.block b)) = some (some ret, e')) :
              Good (depth + 1) e' ∧ ret ≠ .cleared := by
            cases test : b.endLoop with
            | mk answer b' =>
            rw [test] at called good_l
            cases answer with
            | none => cases called
            | some answer =>
              cases answer with
              | true =>
                cases called
                exact ⟨good_l, by decide⟩
              | false =>
                dsimp only at called
                split at called
                · cases called
                  exact ⟨good_l, by decide⟩
                · exact ih good_l called
          cases client with
          | other => exact ih (e := .block b) ⟨inside, good_b⟩ called
          | camera que_exp_num => exact tested called
          | phot => exact tested called
        | false =>
          simp only [nextCommand] at called
          split at called
          · cases called
          · rename_i ce there
            obtain ⟨⟨answer, ce'⟩, played, after⟩ := Option.bind_eq_some_iff.mp called
            have bound := (List.getElem?_eq_some_iff.mp there).1
            cases answer with
            | none => cases after
            | some code =>
              obtain ⟨good', kept⟩ := ih (good_b ce (List.mem_of_getElem? there)) played
              have there' : b.curr_element < (b.blockElements.set b.curr_element ce').length := by
                simpa using bound
              simp only [Block.afterCall] at after
              split at after
              · obtain ⟨turn, rfl⟩ := Prod.mk.inj (Option.some.inj after)
                exact blockScriptRet_good
                  (b := { b with blockElements := b.blockElements.set b.curr_element ce' })
                  inside.2 there' (good_set good_b good') (by decide : Code.keep ≠ .next)
                  (by decide) turn
              · exact goOn_good
                  (b := { b with blockElements := b.blockElements.set b.curr_element ce' })
                  inside.2 there' (good_set good_b good') kept after fun b' good' => ih good'

theorem idleCall_good {ended : Bool} {fuel : Nat} {depth : Nat} {e e' : Element} {ret : Code}
    (good : Good depth e) (called : e.idleCall ended fuel = some (some ret, e')) :
    Good depth e' ∧ ret ≠ .cleared := by
  induction fuel generalizing depth e e' ret with
  | zero => cases called
  | succ fuel ih =>
    cases e with
    | single l =>
      cases called
      refine ⟨good, ?_⟩
      cases ended <;> decide
    | acquired state told body elseBlock =>
      cases depth with
      | zero => cases good
      | succ depth =>
        simp only [idleCall] at called
        obtain ⟨⟨answer, body'⟩, played, result⟩ := Option.bind_eq_some_iff.mp called
        cases result
        obtain ⟨good', kept⟩ := ih good.1 played
        exact ⟨⟨good', good.2⟩, kept⟩
    | block b =>
      cases depth with
      | zero => cases good
      | succ depth =>
        obtain ⟨inside, good_b⟩ := good
        simp only [idleCall] at called
        split at called
        · cases called
          exact ⟨⟨inside, good_b⟩, by decide⟩
        · rename_i ce there
          obtain ⟨⟨answer, ce'⟩, played, after⟩ := Option.bind_eq_some_iff.mp called
          have bound := (List.getElem?_eq_some_iff.mp there).1
          cases answer with
          | none => cases after
          | some code =>
            obtain ⟨good', kept⟩ := ih (good_b ce (List.mem_of_getElem? there)) played
            have there' : b.curr_element < (b.blockElements.set b.curr_element ce').length := by
              simpa using bound
            refine goOn_good
              (b := { b with blockElements := b.blockElements.set b.curr_element ce' })
              inside.2 there' (good_set good_b good') kept after fun b' good' same => ?_
            cases same
            exact ⟨good', by decide⟩

theorem Changes.good {e e' : Element} (changes : e.Changes e') {depth : Nat} (good : Good depth e) :
    Good depth e' := by
  induction changes generalizing depth with
  | single l l' => cases depth <;> trivial
  | @block kind kind' blockElements blockElements' curr_element loopCount _ length each ih =>
    cases depth with
    | zero => cases good
    | succ depth =>
      obtain ⟨⟨inside, least⟩, good_b⟩ := good
      refine ⟨⟨?_, least⟩, fun e' mem => ?_⟩
      · refine inside.imp (fun there => length ▸ there) fun empty => ?_
        rw [← List.length_eq_zero_iff, length, List.length_eq_zero_iff]
        exact empty
      · obtain ⟨i, bound, rfl⟩ := List.mem_iff_getElem.mp mem
        have bound' : i < blockElements.length := length ▸ bound
        exact ih i _ _ (List.getElem?_eq_getElem bound') (List.getElem?_eq_getElem bound)
          (good_b _ (List.getElem_mem bound'))
  | @acquired state told told' body body' elseBlock elseBlock' changes some other ih ih' =>
    cases depth with
    | zero => cases good
    | succ depth =>
      refine ⟨ih good.1, fun e' mem => ?_⟩
      obtain ⟨e, there⟩ := Option.isSome_iff_exists.mp
        (some.symm.trans (Option.isSome_iff_exists.mpr ⟨e', mem⟩))
      exact ih' e e' there mem (good.2 e there)

theorem Good.mono {depth more : Nat} {e : Element} (good : Good depth e) (le : depth ≤ more) :
    Good more e := by
  induction depth generalizing more e with
  | zero =>
    cases e with
    | single l => cases more <;> trivial
    | block b => cases good
    | acquired state told body elseBlock => cases good
  | succ depth ih =>
    cases more with
    | zero => cases le
    | succ more =>
      have le' := Nat.le_of_succ_le_succ le
      cases e with
      | single l => trivial
      | block b => exact ⟨good.1, fun e mem => ih (good.2 e mem) le'⟩
      | acquired state told body elseBlock =>
        exact ⟨ih good.1 le', fun e mem => ih (good.2 e mem) le'⟩

theorem good_all {es : List Element} (each : ∀ e ∈ es, ∃ depth, Good depth e) :
    ∃ depth, ∀ e ∈ es, Good depth e := by
  induction es with
  | nil => exact ⟨0, fun e mem => by cases mem⟩
  | cons e es ih =>
    obtain ⟨depth, good⟩ := each e (by simp)
    obtain ⟨others, good_es⟩ := ih fun x mem => each x (List.mem_cons_of_mem e mem)
    refine ⟨max depth others, fun x mem => ?_⟩
    rcases List.mem_cons.mp mem with rfl | mem
    · exact good.mono (Nat.le_max_left _ _)
    · exact (good_es x mem).mono (Nat.le_max_right _ _)

theorem Parsed.good {e : Element} (parsed : e.Parsed) : ∃ depth, Good depth e := by
  induction parsed with
  | single l => exact ⟨0, trivial⟩
  | @block kind blockElements parsed ih =>
    obtain ⟨depth, good⟩ := good_all ih
    refine ⟨depth + 1, ⟨?_, le_refl 0⟩, good⟩
    rcases List.eq_nil_or_concat blockElements with empty | ⟨init, last, concat⟩
    · exact .inr empty
    · exact .inl (by simp [concat])
  | @acquired told body elseBlock parsed other ih ih' =>
    obtain ⟨depth, good⟩ := ih
    cases elseBlock with
    | none => exact ⟨depth + 1, good, nofun⟩
    | some e =>
      obtain ⟨others, good_e⟩ := ih' e rfl
      refine ⟨max depth others + 1, good.mono (Nat.le_max_left _ _), fun x mem => ?_⟩
      cases mem
      exact good_e.mono (Nat.le_max_right _ _)

end Element

namespace Script

theorem loop_good {fuel : Nat} {client : Client} {s s' : Script} {ret : Code} {depth : Nat}
    (good : ∀ e ∈ s.elements, e.Good depth) (called : s.loop fuel client = some (some ret, s')) :
    ∀ e ∈ s'.elements, e.Good depth := by
  induction fuel generalizing s with
  | zero => cases called
  | succ fuel ih =>
    rw [loop] at called
    split at called
    · cases called
      exact good
    · rename_i e there
      obtain ⟨⟨answer, e'⟩, played, after⟩ := Option.bind_eq_some_iff.mp called
      cases answer with
      | none => cases after
      | some code =>
        have good' := Element.good_set (i := s.el_iter) good
          (Element.nextCommand_good (good e (List.mem_of_getElem? there)) played).1
        dsimp only at after
        split at after
        · exact ih good' after
        · obtain ⟨_, rfl⟩ := Prod.mk.inj (Option.some.inj after)
          unfold scriptRet
          split
          · dsimp only
            split <;> exact good'
          · split <;> exact good'

theorem Reached.good {elements : List Element} (parsed : ∀ e ∈ elements, e.Parsed) {s : Script}
    (reached : s.Reached elements) : ∃ depth, ∀ e ∈ s.elements, e.Good depth := by
  induction reached with
  | start => exact Element.good_all fun e mem => (parsed e mem).good
  | @nextCommand s s' fuel client ret reached called ih =>
    obtain ⟨depth, good⟩ := ih
    rw [Script.nextCommand] at called
    split at called
    · cases called
      exact ⟨depth, good⟩
    · exact ⟨depth, loop_good good called⟩
  | @idle s s' fuel ended ret reached called ih =>
    obtain ⟨depth, good⟩ := ih
    rw [Script.idle] at called
    split at called
    · cases called
      exact ⟨depth, good⟩
    · rename_i e there
      obtain ⟨⟨answer, e'⟩, played, after⟩ := Option.bind_eq_some_iff.mp called
      cases after
      exact ⟨depth, Element.good_set good
        (Element.idleCall_good (good e (List.mem_of_getElem? there)) played).1⟩
  | @changes s elements' reached length each ih =>
    obtain ⟨depth, good⟩ := ih
    refine ⟨depth, fun e' mem => ?_⟩
    obtain ⟨i, bound, rfl⟩ := List.mem_iff_getElem.mp mem
    have bound' : i < s.elements.length := length ▸ bound
    exact (each i _ _ (List.getElem?_eq_getElem bound') (List.getElem?_eq_getElem bound)).good
      (good _ (List.getElem_mem bound'))

end Script

namespace Element

/-- The element does not answer NEXT_COMMAND_NEXT for ever: it is one that answers otherwise, or a
block that opens, with such an element. -/
inductive Wakes : Client → Element → Prop
  | single {client : Client} {l : Single} (ends : (l.nexts client).isSome = true)
      (ret : l.ret client ≠ some .next) : Wakes client (.single l)
  | block {client : Client} {b : Block Element} (opens : client = .other ∨ b.Opens) {e : Element}
      (mem : e ∈ b.blockElements) (wakes : Wakes client e) : Wakes client (.block b)
  | acquired {client : Client} {state : AcquireState} {told : Bool} {body : Element}
      {elseBlock : Option Element} (ok : checkState state told = .ACQ_OK)
      (wakes : Wakes client body) : Wakes client (.acquired state told body elseBlock)
  | other {client : Client} {state : AcquireState} {told : Bool} {body elseBlock : Element}
      (failed : checkState state told ≠ .ACQ_OK) (wakes : Wakes .other elseBlock) :
    Wakes client (.acquired state told body (some elseBlock))

/-- Every block with a loop that nothing in the call ends has an element that stops it, and those
asked with defnextCommand have elements. -/
inductive Escapes : Client → Element → Prop
  | single (client : Client) (l : Single) : Escapes client (.single l)
  | block {client : Client} {b : Block Element}
      (nonempty : client = .other → b.blockElements ≠ [])
      (ends : b.kind.Endless → b.blockElements ≠ [] → ∃ e ∈ b.blockElements, Wakes client e)
      (escapes : ∀ e ∈ b.blockElements, Escapes client e) : Escapes client (.block b)
  | acquired {client : Client} {state : AcquireState} {told : Bool} {body : Element}
      {elseBlock : Option Element} (ok : checkState state told = .ACQ_OK)
      (escapes : Escapes client body) : Escapes client (.acquired state told body elseBlock)
  | other {client : Client} {state : AcquireState} {told : Bool} {body : Element}
      {elseBlock : Option Element} (failed : checkState state told ≠ .ACQ_OK)
      (escapes : ∀ e ∈ elseBlock, Escapes .other e) :
    Escapes client (.acquired state told body elseBlock)

/-- What is left of the answers NEXT_COMMAND_NEXT that are counted, and one for each block that is
not where it starts. -/
def pending : Element → Client → Nat
  | .single l, client => (l.nexts client).getD 0
  | .block ⟨kind, blockElements, curr_element, loopCount⟩, client =>
    (blockElements.map fun e => e.pending client).sum +
      if (Block.mk kind blockElements curr_element loopCount).started then 0 else 1
  | .acquired state told body elseBlock, client =>
    if checkState state told = .ACQ_OK then body.pending client
    else
      match elseBlock with
      | none => 0
      | some e => e.pending .other

structure Passed (depth : Nat) (client : Client) (e e' : Element) : Prop where
  good : Good depth e'
  escapes : e'.Escapes client
  pending : e'.pending client ≤ e.pending client
  wakes : e.Wakes client → e'.Wakes client ∧ e'.pending client < e.pending client

def Returns (depth : Nat) (client : Client) (entering : Bool) (e : Element) : Prop :=
  ∃ ret e', Lib.Gives (fun fuel => e.nextCommand fuel client entering) (ret, e') ∧
    (ret = some .next → Passed depth client e e')

theorem sum_set {f : Element → Nat} {es : List Element} {i : Nat} {e : Element} (e' : Element)
    (there : es[i]? = some e) :
    ((es.set i e').map f).sum + f e = (es.map f).sum + f e' := by
  induction es generalizing i with
  | nil => simp at there
  | cons x xs ih =>
    cases i with
    | zero =>
      cases there
      simp only [List.set_cons_zero, List.map_cons, List.sum_cons]
      omega
    | succ i =>
      have rest := ih (i := i) (by simpa using there)
      simp only [List.set_cons_succ, List.map_cons, List.sum_cons]
      omega

section

variable {depth : Nat} {client : Client}

structure Later (depth : Nat) (client : Client) (es es' : List Element) : Prop where
  length : es'.length = es.length
  good : ∀ e ∈ es', Good depth e
  escapes : ∀ e ∈ es', Escapes client e
  pending : (es'.map fun e => e.pending client).sum ≤ (es.map fun e => e.pending client).sum
  wakes : (∃ e ∈ es, Wakes client e) → ∃ e ∈ es', Wakes client e

theorem Later.trans {es es' es'' : List Element} (first : Later depth client es es')
    (last : Later depth client es' es'') : Later depth client es es'' :=
  ⟨last.length.trans first.length, last.good, last.escapes, last.pending.trans first.pending,
    fun wakes => last.wakes (first.wakes wakes)⟩

theorem Later.set {es : List Element} (good : ∀ e ∈ es, Good depth e)
    (escapes : ∀ e ∈ es, Escapes client e) {i : Nat} {e e' : Element} (there : es[i]? = some e)
    (passed : Passed depth client e e') : Later depth client es (es.set i e') := by
  have sums := sum_set (f := fun e => e.pending client) e' there
  have less := passed.pending
  refine ⟨List.length_set, good_set good passed.good, fun x mem => ?_, by omega, ?_⟩
  · rcases List.mem_or_eq_of_mem_set mem with mem | rfl
    · exact escapes x mem
    · exact passed.escapes
  · rintro ⟨x, mem, wakes⟩
    obtain ⟨j, bound, rfl⟩ := List.mem_iff_getElem.mp mem
    by_cases here : i = j
    · subst here
      have same : es[i] = e := Option.some.inj ((List.getElem?_eq_getElem bound).symm.trans there)
      exact ⟨e', List.mem_set bound e', (passed.wakes (same ▸ wakes)).1⟩
    · have kept : (es.set i e')[j]? = some es[j] :=
        (List.getElem?_set_ne here).trans (List.getElem?_eq_getElem bound)
      exact ⟨es[j], List.mem_of_getElem? kept, wakes⟩

def loop (client : Client) (b : Block Element) (fuel : Nat) : Option (Option Code × Element) :=
  (block b).nextCommand fuel client false

theorem loop_gives {b : Block Element} {ce ce' : Element} {ret : Option Code}
    {result : Option Code × Element} (there : b.blockElements[b.curr_element]? = some ce)
    (called : Lib.Gives (fun fuel => ce.nextCommand fuel client true) (ret, ce'))
    (after : Lib.Gives (fun fuel =>
      { b with blockElements := b.blockElements.set b.curr_element ce' }.afterCall client ret
        fun b => loop client b fuel) result) :
    Lib.Gives (loop client b) result := by
  refine .next (fun fuel => ?_) (called.bind (g := fun x fuel =>
    { b with blockElements := b.blockElements.set b.curr_element x.2 }.afterCall client x.1
      fun b => loop client b fuel) after)
  rw [loop, nextCommand]
  simp only [there]
  rfl

theorem afterCall_stops (client : Client) {b : Block Element} {ret : Option Code} (found : ret ≠ some .next)
    (kept : ret ≠ some .cleared) :
    ∃ ret' e', (∀ loop, b.afterCall client ret loop = some (ret', e')) ∧ ret' ≠ some .next := by
  have turned (code : Code) (found : code ≠ .next) (kept : code ≠ .cleared) :
      (b.blockScriptRet code).1 ≠ some .next :=
    fun turn => (Block.blockScriptRet_found found kept turn).1 rfl
  cases ret with
  | none => exact ⟨none, .block b, fun _ => rfl, nofun⟩
  | some code =>
    have found' : code ≠ .next := fun same => found (congrArg some same)
    have kept' : code ≠ .cleared := fun same => kept (congrArg some same)
    by_cases queued : b.queued client code = true
    · refine ⟨_, .block (b.blockScriptRet .keep).2, fun loop => ?_,
        turned .keep (by decide) (by decide)⟩
      simp only [Block.afterCall, queued, if_true]
    · refine ⟨_, .block (b.blockScriptRet code).2, fun loop => ?_, turned code found' kept'⟩
      simp only [Block.afterCall, queued, if_false, Block.goOn, found', Bool.false_eq_true]

theorem afterCall_next (b : Block Element) (client : Client)
    (loop : Block Element → Option (Option Code × Element)) :
    b.afterCall client (some .next) loop = b.goOn .next loop := by
  have free : b.queued client .next = false := by
    unfold Block.queued
    split
    · have other : Code.next ≠ 0 := by decide
      simp only [other, decide_false, Bool.false_and]
    · rfl
  simp only [Block.afterCall, free, Bool.false_eq_true, if_false]

theorem pass_returns (children : ∀ e, Good depth e → Escapes client e → Returns depth client true e)
    (b : Block Element) (there : b.curr_element < b.blockElements.length)
    (good : ∀ e ∈ b.blockElements, Good depth e)
    (escapes : ∀ e ∈ b.blockElements, Escapes client e) :
    (∃ ret e', Lib.Gives (loop client b) (ret, e') ∧ ret ≠ some .next) ∨
      ∃ es, Later depth client b.blockElements es ∧
        (∀ i e, b.curr_element ≤ i → b.blockElements[i]? = some e → Wakes client e →
          (es.map fun e => e.pending client).sum <
            (b.blockElements.map fun e => e.pending client).sum) ∧
        ∀ result, Lib.Gives (fun fuel => { b with
            blockElements := es, curr_element := b.blockElements.length - 1 }.goOn .next
              fun b => loop client b fuel) result →
          Lib.Gives (loop client b) result := by
  obtain ⟨ce, at_curr⟩ : ∃ ce, b.blockElements[b.curr_element]? = some ce :=
    ⟨_, List.getElem?_eq_getElem there⟩
  have mem := List.mem_of_getElem? at_curr
  obtain ⟨ret, ce', called, passed⟩ := children ce (good ce mem) (escapes ce mem)
  have kept : ret ≠ some .cleared := by
    rintro rfl
    obtain ⟨n, enough⟩ := called
    exact (nextCommand_good (good ce mem) (enough n (le_refl n))).2 rfl
  by_cases skip : ret = some .next
  · have passed' := passed skip
    have later := Later.set good escapes at_curr passed'
    have sums := sum_set (f := fun e => e.pending client) ce' at_curr
    rw [skip] at called
    by_cases last : b.curr_element + 1 = b.blockElements.length
    · refine .inr ⟨_, later, fun i e after listed wakes => ?_, fun result gives => ?_⟩
      · have here : i = b.curr_element := by
          have bound := (List.getElem?_eq_some_iff.mp listed).1
          omega
        rw [here, at_curr] at listed
        cases listed
        have less := (passed'.wakes wakes).2
        omega
      · refine loop_gives at_curr called ?_
        simp only [afterCall_next]
        have position : b.blockElements.length - 1 = b.curr_element := by omega
        rw [position] at gives
        exact gives
    · let b' : Block Element := { b with
        blockElements := b.blockElements.set b.curr_element ce', curr_element := b.curr_element + 1 }
      have there' : b'.curr_element < b'.blockElements.length := by
        simp only [b', List.length_set]
        omega
      have lift (result : Option Code × Element) (gives : Lib.Gives (loop client b') result) :
          Lib.Gives (loop client b) result := by
        refine loop_gives at_curr called ?_
        simp only [afterCall_next]
        have goes : ({ b with blockElements := b.blockElements.set b.curr_element ce' } :
            Block Element).nextElement = (some false, b') := by
          rw [Block.nextElement, if_neg (by simpa using last)]
        simp only [Block.goOn, if_true, goes]
        exact gives
      rcases pass_returns children b' there' later.good later.escapes with
        ⟨ret', e', gives, found⟩ | ⟨es, later', less, goes⟩
      · exact .inl ⟨ret', e', lift _ gives, found⟩
      · refine .inr ⟨es, later.trans later', fun i e after listed wakes => ?_, fun result gives => ?_⟩
        · by_cases here : i = b.curr_element
          · rw [here, at_curr] at listed
            cases listed
            have first := (passed'.wakes wakes).2
            have rest := later'.pending
            simp only [b'] at rest
            omega
          · have listed' : b'.blockElements[i]? = some e :=
              (List.getElem?_set_ne (Ne.symm here)).trans listed
            have rest := less i e (by simp only [b']; omega) listed' wakes
            have first := later.pending
            simp only [b'] at rest
            omega
        · refine lift result (goes result ?_)
          simp only [b', List.length_set]
          exact gives
  · left
    obtain ⟨ret', e', stops, found⟩ := afterCall_stops client
      (b := { b with blockElements := b.blockElements.set b.curr_element ce' })
      skip kept
    refine ⟨ret', e', loop_gives at_curr called ?_, found⟩
    simp only [stops]
    exact .now _
termination_by b.blockElements.length - b.curr_element
decreasing_by
  simp only [List.length_set]
  omega

/-- The block has ended, and stands where it starts. -/
structure Ended (depth : Nat) (client : Client) (b b' : Block Element) : Prop where
  started : b'.started = true
  base : b'.kind.base = b.kind.base
  later : Later depth client b.blockElements b'.blockElements
  less : b.curr_element = 0 → (∃ e ∈ b.blockElements, Wakes client e) →
    (b'.blockElements.map fun e => e.pending client).sum <
      (b.blockElements.map fun e => e.pending client).sum

def budget (client : Client) (b : Block Element) : Nat :=
  b.kind.rounds b.loopCount + (b.blockElements.map fun e => e.pending client).sum +
    if b.curr_element = 0 then 0 else 1

theorem endless_rounds {kind : Loop} (endless : kind.Endless) (loopCount : Int) :
    kind.rounds loopCount = 0 := by
  cases kind with
  | whileSod passes =>
    cases passes with
    | none => rfl
    | some passes => cases endless
  | signalEnd sig_num => rfl
  | _ => cases endless

theorem loop_returns (children : ∀ e, Good depth e → Escapes client e → Returns depth client true e)
    (b : Block Element) (there : b.curr_element < b.blockElements.length) (least : 0 ≤ b.loopCount)
    (good : ∀ e ∈ b.blockElements, Good depth e)
    (escapes : ∀ e ∈ b.blockElements, Escapes client e)
    (ends : b.kind.Endless → ∃ e ∈ b.blockElements, Wakes client e) :
    ∃ ret e', Lib.Gives (loop client b) (ret, e') ∧
      (ret = some .next → ∃ b', e' = .block b' ∧ Ended depth client b b') := by
  rcases pass_returns children b there good escapes with
    ⟨ret, e', gives, found⟩ | ⟨es, later, less, goes⟩
  · exact ⟨ret, e', gives, fun skip => absurd skip found⟩
  · let b₁ : Block Element := { b with
      blockElements := es, curr_element := b.blockElements.length - 1 }
    have positive : 0 < b.blockElements.length := Nat.zero_lt_of_lt there
    have at_end : b₁.curr_element + 1 = b₁.blockElements.length := by
      simp only [b₁, later.length]
      omega
    have less' (first : b.curr_element = 0) (wakes : ∃ e ∈ b.blockElements, Wakes client e) :
        (es.map fun e => e.pending client).sum <
          (b.blockElements.map fun e => e.pending client).sum := by
      obtain ⟨e, mem, wakes⟩ := wakes
      obtain ⟨i, listed⟩ := List.mem_iff_getElem?.mp mem
      exact less i e (first ▸ Nat.zero_le i) listed wakes
    obtain ⟨more, _⟩ | ⟨_, elements, base, ended, again⟩ :=
      b₁.nextElement_cases (by omega) least
    · omega
    · cases next : b₁.nextElement with
      | mk answer b₂ =>
      rw [next] at elements base ended again
      have turned : ∀ fuel, b₁.goOn .next (fun b => loop client b fuel) =
          match (answer, b₂) with
          | (none, b) => some (none, .block b)
          | (some true, b) => some (some .next, .block b)
          | (some false, b) => loop client b fuel := by
        intro fuel
        rw [Block.goOn, if_pos rfl, next]
      cases answer with
      | none => exact ⟨none, .block b₂, goes _ ⟨0, fun fuel _ => turned fuel⟩, nofun⟩
      | some answer =>
        cases answer with
        | true =>
          refine ⟨some .next, .block b₂, goes _ ⟨0, fun fuel _ => turned fuel⟩, fun _ => ?_⟩
          exact ⟨b₂, rfl, ended rfl, base, elements ▸ later, fun first wakes =>
            elements ▸ less' first wakes⟩
        | false =>
          obtain ⟨first, loopCount, rounds⟩ := again rfl
          have elements : b₂.blockElements = es := elements
          have first : b₂.curr_element = 0 := first
          have loopCount : b₂.loopCount = b.loopCount + 1 := loopCount
          have pending := later.pending
          have decreases : budget client b₂ < budget client b := by
            simp only [budget, first, loopCount, elements, if_true]
            rcases rounds with ⟨endless, same⟩ | fewer
            · have same : b₂.kind = b.kind := same
              rw [same, endless_rounds endless, endless_rounds endless]
              by_cases start : b.curr_element = 0
              · have strict := less' start (ends endless)
                rw [if_pos start]
                omega
              · rw [if_neg start]
                omega
            · have fewer : b₂.kind.rounds (b.loopCount + 1) < b.kind.rounds b.loopCount := fewer
              omega
          obtain ⟨ret, e', gives, result⟩ := loop_returns children b₂
            (by rw [first, elements]; exact later.length ▸ positive)
            (loopCount ▸ Int.add_nonneg least Int.one_nonneg) (elements ▸ later.good)
            (elements ▸ later.escapes) fun endless => by
              have endless' : b.kind.Endless := by
                rw [← Loop.endless_base, ← base, Loop.endless_base]
                exact endless
              exact elements ▸ later.wakes (ends endless')
          have gives' : Lib.Gives (loop client b) (ret, e') := by
            refine goes _ ?_
            have goes_on : (fun fuel => b₁.goOn .next fun b => loop client b fuel) =
              loop client b₂ := funext turned
            exact goes_on ▸ gives
          refine ⟨ret, e', gives', fun skip => ?_⟩
          obtain ⟨b', same, ended'⟩ := result skip
          have rest := ended'.later
          rw [elements] at rest
          refine ⟨b', same, ended'.started, ended'.base.trans base, later.trans rest,
            fun start wakes => ?_⟩
          have strict := less' start wakes
          have least := rest.pending
          omega
termination_by budget client b

theorem pending_block (b : Block Element) (client : Client) :
    (block b).pending client =
      (b.blockElements.map fun e => e.pending client).sum + if b.started then 0 else 1 := by
  rw [pending]

theorem started_opens {b : Block Element} (started : b.started = true)
    (opens : b.kind.base.Opens 0) : b.Opens := by
  obtain ⟨kind, blockElements, curr_element, loopCount⟩ := b
  simp only [Block.started, Bool.and_eq_true, decide_eq_true_eq] at started
  obtain ⟨⟨_, loopCount⟩, path⟩ := started
  refine ⟨?_, opens⟩
  dsimp only at loopCount opens ⊢
  rw [loopCount]
  cases kind with
  | whileSod passes =>
    cases passes with
    | none => rfl
    | some passes => cases opens
  | hex left total =>
    have same : left = total := by simpa using path
    rw [same]
    exact opens
  | _ => exact opens

theorem ended_passed {b b' last : Block Element} (escapes : Escapes client (.block b))
    (elements : b'.blockElements = b.blockElements) (curr : b'.curr_element = b.curr_element)
    (base : b'.kind.base = b.kind.base) (some_element : b.blockElements ≠ [])
    (ended : Ended depth client b' last) : Passed (depth + 1) client (.block b) (.block last) := by
  have later := ended.later
  have less := ended.less
  rw [elements] at later less
  have some_last : last.blockElements ≠ [] := by
    rw [← List.length_pos_iff, later.length, List.length_pos_iff]
    exact some_element
  have base' := ended.base.trans base
  cases escapes with
  | block nonempty ends each =>
    have ends' (endless : last.kind.Endless) : ∃ e ∈ b.blockElements, Wakes client e := by
      refine ends ?_ some_element
      rw [← Loop.endless_base, ← base', Loop.endless_base]
      exact endless
    obtain ⟨inside, loopCount⟩ := Block.started_inside some_last ended.started
    have pending := later.pending
    refine ⟨⟨⟨.inl inside, loopCount.ge⟩, later.good⟩,
      .block (fun _ => some_last) (fun endless _ => later.wakes (ends' endless)) later.escapes, ?_,
      fun wakes => ?_⟩
    · rw [pending_block, pending_block, ended.started, if_pos rfl]
      omega
    · cases wakes with
      | block opens mem wakes =>
        obtain ⟨e', mem', wakes'⟩ := later.wakes ⟨_, mem, wakes⟩
        refine ⟨.block (opens.imp_right fun opens => ?_) mem' wakes', ?_⟩
        · exact started_opens ended.started (base' ▸ opens.2)
        · rw [pending_block, pending_block, ended.started, if_pos rfl]
          by_cases start : b.started = true
          · have first : b.curr_element = 0 := by
              simp only [Block.started, Bool.and_eq_true, decide_eq_true_eq] at start
              exact start.1.1
            have strict := less (curr.trans first) ⟨_, mem, wakes⟩
            omega
          · rw [if_neg start]
            omega

theorem tested_passed {b b' : Block Element} (good : Good (depth + 1) (.block b))
    (escapes : Escapes client (.block b)) (elements : b'.blockElements = b.blockElements)
    (curr : b'.curr_element = b.curr_element) (loopCount : b'.loopCount = b.loopCount)
    (base : b'.kind.base = b.kind.base) (started : b'.started = b.started)
    (sleeps : ¬Wakes client (.block b)) : Passed (depth + 1) client (.block b) (.block b') := by
  obtain ⟨inside, good⟩ := good
  cases escapes with
  | block nonempty ends each =>
    refine ⟨⟨?_, elements ▸ good⟩, .block (elements ▸ nonempty) ?_ (elements ▸ each), ?_,
      fun wakes => absurd wakes sleeps⟩
    · rw [Block.Inside, elements, curr, loopCount]
      exact inside
    · rw [elements, ← Loop.endless_base, base, Loop.endless_base]
      exact ends
    · rw [pending_block, pending_block, elements, started]

theorem block_returns
    (children : ∀ client e, Good depth e → Escapes client e → Returns depth client true e)
    (b : Block Element) (good : Good (depth + 1) (.block b)) (escapes : Escapes client (.block b)) :
    Returns (depth + 1) client true (.block b) := by
  have escapes' := escapes
  cases escapes' with
  | block nonempty ends each =>
  obtain ⟨⟨inside, least⟩, good_b⟩ := good
  -- the loop of the block after the test at its start
  have loops (b' : Block Element) (elements : b'.blockElements = b.blockElements)
      (curr : b'.curr_element = b.curr_element) (loopCount : b'.loopCount = b.loopCount)
      (base : b'.kind.base = b.kind.base) (some_element : b.blockElements ≠ []) :
      ∃ ret e', Lib.Gives (loop client b') (ret, e') ∧
        (ret = some .next → Passed (depth + 1) client (.block b) e') := by
    have there : b'.curr_element < b'.blockElements.length := by
      rw [curr, elements]
      exact inside.resolve_right some_element
    obtain ⟨ret, e', gives, result⟩ := loop_returns (children client) b' there (loopCount ▸ least)
      (elements ▸ good_b) (elements ▸ each) fun endless => by
        rw [← Loop.endless_base, base, Loop.endless_base] at endless
        exact elements ▸ ends endless some_element
    refine ⟨ret, e', gives, fun skip => ?_⟩
    obtain ⟨last, rfl, ended⟩ := result skip
    exact ended_passed escapes elements curr base some_element ended
  have tested (entry : ∀ fuel, (block b).nextCommand (fuel + 1) client true =
      match b.endLoop with
      | (none, b) => some (none, .block b)
      | (some true, b) => some (some .next, .block b)
      | (some false, b) =>
        if b.blockElements.isEmpty then some (some .next, .block b) else loop client b fuel)
      (asks : client ≠ .other) : Returns (depth + 1) client true (.block b) := by
    obtain ⟨elements, curr, loopCount, base, started, opens⟩ := b.endLoop_cases
    cases test : b.endLoop with
    | mk answer b' =>
    rw [test] at elements curr loopCount base started opens
    rw [test] at entry
    cases answer with
    | none => exact ⟨none, .block b', .next entry (.now _), nofun⟩
    | some answer =>
      cases answer with
      | true =>
        refine ⟨some .next, .block b', .next entry (.now _), fun _ => ?_⟩
        refine tested_passed ⟨⟨inside, least⟩, good_b⟩ escapes elements curr loopCount base started ?_
        intro wakes
        cases wakes with
        | block opens' _ _ => exact opens (opens'.resolve_left asks).1 rfl
      | false =>
        by_cases empty : b'.blockElements = []
        · have entry' : ∀ fuel, (block b).nextCommand (fuel + 1) client true =
              some (some .next, .block b') := by
            intro fuel
            rw [entry]
            simp only [empty, List.isEmpty_nil, if_true]
          refine ⟨some .next, .block b', .next entry' (.now _), fun _ => ?_⟩
          refine tested_passed ⟨⟨inside, least⟩, good_b⟩ escapes elements curr loopCount base started ?_
          intro wakes
          cases wakes with
          | block _ mem _ =>
            rw [← elements, empty] at mem
            cases mem
        · have entry' : ∀ fuel, (block b).nextCommand (fuel + 1) client true =
              loop client b' fuel := by
            intro fuel
            rw [entry]
            simp only [List.isEmpty_iff, empty, if_false]
          obtain ⟨ret, e', gives, result⟩ := loops b' elements curr loopCount base (elements ▸ empty)
          exact ⟨ret, e', .next entry' gives, result⟩
  cases client with
  | other =>
    obtain ⟨ret, e', gives, result⟩ := loops b rfl rfl rfl rfl (nonempty rfl)
    exact ⟨ret, e', .next (fun fuel => rfl) gives, result⟩
  | camera que_exp_num => exact tested (fun fuel => rfl) nofun
  | phot => exact tested (fun fuel => rfl) nofun

end

theorem checkState_same (state : AcquireState) (told : Bool) :
    checkState (checkState state told) told = checkState state told := by
  cases state <;> cases told <;> rfl

theorem pending_acquired {client : Client} {state : AcquireState} {told : Bool} {body : Element}
    {elseBlock : Option Element} (ok : checkState state told = .ACQ_OK) :
    (acquired state told body elseBlock).pending client = body.pending client := by
  cases elseBlock <;> rw [pending, if_pos ok]

theorem single_passed {depth : Nat} {client : Client} {l : Single}
    (next : (l.nextCommand client).1 = some .next) :
    Passed depth client (.single l) (.single (l.nextCommand client).2) := by
  have less : pending (.single (l.nextCommand client).2) client ≤ pending (.single l) client := by
    simp only [pending, Single.nextCommand]
    cases left : l.nexts client with
    | none => simp only [left, Option.map_none, le_refl]
    | some n => cases n <;> simp [left]
  refine ⟨by cases depth <;> exact trivial, .single client _, less, fun wakes => ?_⟩
  cases wakes with
  | single ends ret =>
    obtain ⟨n, left⟩ := Option.isSome_iff_exists.mp ends
    cases n with
    | zero =>
      simp only [Single.nextCommand, left] at next
      exact absurd next ret
    | succ n =>
      simp only [Single.nextCommand, left, pending, Option.map_some, Option.getD_some,
        Nat.pred_succ]
      exact ⟨.single (by simp only [left, Option.map_some, Option.isSome_some]) ret,
        Nat.lt_succ_self n⟩

theorem single_returns (depth : Nat) (client : Client) (l : Single) :
    Returns depth client true (.single l) := by
  have call (fuel : Nat) : (single l).nextCommand (fuel + 1) client true =
      some ((l.nextCommand client).1, .single (l.nextCommand client).2) := rfl
  exact ⟨_, _, .next call (.now _), single_passed⟩

theorem element_returns {depth : Nat} (client : Client) (e : Element) (good : Good depth e)
    (escapes : Escapes client e) : Returns depth client true e := by
  induction depth generalizing client e with
  | zero =>
    cases e with
    | single l => exact single_returns _ client l
    | block b => exact good.elim
    | acquired state told body elseBlock => exact good.elim
  | succ depth ih =>
    cases e with
    | single l => exact single_returns _ client l
    | block b => exact block_returns ih b good escapes
    | acquired state told body elseBlock =>
      obtain ⟨good, others⟩ := good
      cases escapes with
      | acquired ok escapes =>
        obtain ⟨ret, body', gives, result⟩ := ih client body good escapes
        refine ⟨ret, .acquired (checkState state told) told body' elseBlock,
          .next (fun fuel => ?_) (gives.bind (g := fun x _ =>
            some (x.1, .acquired (checkState state told) told x.2 elseBlock)) (.now _)), fun skip => ?_⟩
        · exact if_pos ok
        · have passed := result skip
          have ok' := (checkState_same state told).trans ok
          refine ⟨⟨passed.good, others⟩, .acquired ok' passed.escapes, ?_, fun wakes => ?_⟩
          · rw [pending_acquired ok, pending_acquired ok']
            exact passed.pending
          · cases wakes with
            | acquired _ wakes =>
              obtain ⟨wakes', less⟩ := passed.wakes wakes
              rw [pending_acquired ok, pending_acquired ok']
              exact ⟨.acquired ok' wakes', less⟩
            | other failed _ => exact absurd ok failed
      | other failed escapes =>
        have failed' : checkState (checkState state told) told ≠ .ACQ_OK := by
          rw [checkState_same]
          exact failed
        cases elseBlock with
        | none =>
          refine ⟨some .next, .acquired (checkState state told) told body none,
            .next (fun fuel => ?_) (.now _), fun _ => ?_⟩
          · rw [nextCommand, if_neg failed]
          · refine ⟨⟨good, others⟩, .other failed' escapes, ?_, fun wakes => ?_⟩
            · rw [pending, pending, if_neg failed, if_neg failed']
            · cases wakes with
              | acquired ok _ => exact absurd ok failed
        | some e =>
          obtain ⟨ret, e', gives, result⟩ := ih .other e (others e rfl) (escapes e rfl)
          refine ⟨ret, .acquired (checkState state told) told body (some e'),
            .next (fun fuel => ?_) (gives.bind (g := fun x _ =>
              some (x.1, .acquired (checkState state told) told body (some x.2))) (.now _)),
            fun skip => ?_⟩
          · rw [nextCommand, if_neg failed]
          · have passed := result skip
            refine ⟨⟨good, fun x mem => ?_⟩, .other failed' fun x mem => ?_, ?_, fun wakes => ?_⟩
            · cases mem
              exact passed.good
            · cases mem
              exact passed.escapes
            · rw [pending, pending, if_neg failed, if_neg failed']
              exact passed.pending
            · cases wakes with
              | acquired ok _ => exact absurd ok failed
              | other _ wakes =>
                obtain ⟨wakes', less⟩ := passed.wakes wakes
                rw [pending, pending, if_neg failed, if_neg failed']
                exact ⟨.other failed' wakes', less⟩

end Element

namespace Script

theorem loop_returns {depth : Nat} (client : Client) (s : Script)
    (good : ∀ e ∈ s.elements, e.Good depth)
    (escapes : ∀ e ∈ s.elements.drop s.el_iter, e.Escapes client) :
    ∃ ret s', Lib.Gives (fun fuel => s.loop fuel client) (ret, s') := by
  cases there : s.elements[s.el_iter]? with
  | none =>
    refine ⟨some .endScript, s, .next (fun fuel => ?_) (.now _)⟩
    simp only [loop, there]
  | some e =>
    have bound := (List.getElem?_eq_some_iff.mp there).1
    have first : s.elements.drop s.el_iter = e :: s.elements.drop (s.el_iter + 1) := by
      rw [List.drop_eq_getElem_cons bound, (List.getElem?_eq_some_iff.mp there).2]
    rw [first] at escapes
    obtain ⟨ret, e', gives, _⟩ := Element.element_returns client e
      (good e (List.mem_of_getElem? there)) (escapes e List.mem_cons_self)
    let s₁ : Script := { s with elements := s.elements.set s.el_iter e' }
    have called {result : Option Code × Script} (after : Lib.Gives (fun fuel =>
        match ret with
        | none => some (none, s₁)
        | some ret =>
          if ret = .next then loop fuel client { s₁ with el_iter := s₁.el_iter + 1 }
          else some (some (s₁.scriptRet ret).1, (s₁.scriptRet ret).2)) result) :
        Lib.Gives (fun fuel => s.loop fuel client) result := by
      refine .next (fun fuel => ?_) (gives.bind (g := fun x fuel =>
        match x.1 with
        | none => some (none, { s with elements := s.elements.set s.el_iter x.2 })
        | some ret =>
          if ret = .next then
            loop fuel client ⟨s.elements.set s.el_iter x.2, s.el_iter + 1, s.executedCount⟩
          else some (some (scriptRet { s with elements := s.elements.set s.el_iter x.2 } ret).1,
            (scriptRet { s with elements := s.elements.set s.el_iter x.2 } ret).2)) after)
      simp only [loop, there]
    cases ret with
    | none => exact ⟨none, s₁, called (.now _)⟩
    | some ret =>
      by_cases skip : ret = .next
      · have rest : s.elements.drop (s.el_iter + 1) =
            (s.elements.set s.el_iter e').drop (s.el_iter + 1) := by
          rw [List.drop_set_of_lt (Nat.lt_succ_self _)]
        obtain ⟨ret', s', gives'⟩ := loop_returns client { s₁ with el_iter := s₁.el_iter + 1 }
          (Element.good_set good (Element.nextCommand_good (good e (List.mem_of_getElem? there))
            (gives.choose_spec _ (le_refl _))).1)
          fun x mem => escapes x (List.mem_cons_of_mem e (rest ▸ mem))
        refine ⟨ret', s', called ?_⟩
        simp only [skip, if_true]
        exact gives'
      · refine ⟨(s₁.scriptRet ret).1, (s₁.scriptRet ret).2, called ?_⟩
        simp only [skip, if_false]
        exact .now _
termination_by s.elements.length - s.el_iter
decreasing_by
  simp only [List.length_set]
  omega

/-- In every state of a script whose blocks without an end of their own have an element that stops
them, nextCommand returns. -/
theorem nextCommand_returns {elements : List Element} (parsed : ∀ e ∈ elements, e.Parsed)
    {s : Script} (reached : s.Reached elements) (client : Client)
    (escapes : ∀ e ∈ s.elements.drop s.el_iter, e.Escapes client) :
    ∃ n, ∀ fuel, n ≤ fuel → (s.nextCommand fuel client).isSome := by
  obtain ⟨depth, good⟩ := reached.good parsed
  obtain ⟨ret, s', gives⟩ := loop_returns client s good escapes
  obtain ⟨n, enough⟩ := gives.isSome
  refine ⟨n, fun fuel least => ?_⟩
  rw [nextCommand]
  split
  · rfl
  · exact enough fuel least

/-- `E 1` as a camera takes it; a photometer goes on. -/
def expose : Element :=
  .single ⟨fun _ => some 0, fun | .camera _ => some 0 | _ => some .next, fun client => by
    cases client with
    | camera que_exp_num => exact (by decide : some (0 : Code) ≠ some .cleared)
    | phot => decide
    | other => decide⟩

/-- `block_waitsig 5 { E 1 }` with a camera. -/
theorem nextCommand_returns_signal : ∃ n, ∀ fuel, n ≤ fuel →
    (Script.nextCommand fuel (.camera none) ⟨[.block ⟨.signalEnd 5, [expose], 0, 0⟩], 0, 0⟩).isSome :=
  nextCommand_returns (fun _ mem => List.mem_singleton.mp mem ▸ .block fun _ mem =>
    List.mem_singleton.mp mem ▸ .single _) .start (.camera none)
    fun _ mem => List.mem_singleton.mp mem ▸ .block (fun _ => List.cons_ne_nil _ _)
      (fun _ _ => ⟨expose, List.mem_singleton_self _, .single rfl (by decide)⟩)
      fun _ mem => List.mem_singleton.mp mem ▸ .single _ _

theorem signalEnd_spins {sig_num : Int} (waits : sig_num ≠ -1) {client : Client}
    (asks : client ≠ .other) {e : Element}
    (passed : ∀ fuel, e.nextCommand (fuel + 1) client true = some (some .next, e)) (fuel : Nat)
    (entering : Bool) (loopCount : Int) :
    (Element.block ⟨.signalEnd sig_num, [e], 0, loopCount⟩).nextCommand fuel client entering = none := by
  induction fuel using Nat.strong_induction_on generalizing entering loopCount with
  | _ fuel ih =>
  match fuel, entering with
  | 0, _ => rfl
  | fuel + 1, true =>
    have entry : (Element.block ⟨.signalEnd sig_num, [e], 0, loopCount⟩).nextCommand (fuel + 1)
        client true =
        (Element.block ⟨.signalEnd sig_num, [e], 0, loopCount⟩).nextCommand fuel client false := by
      cases client with
      | other => exact absurd rfl asks
      | _ => simp [Element.nextCommand, Block.endLoop, waits]
    rw [entry]
    exact ih fuel (Nat.lt_succ_self _) false loopCount
  | 1, false => cases client <;> rfl
  | fuel + 2, false =>
    have pass : (Element.block ⟨.signalEnd sig_num, [e], 0, loopCount⟩).nextCommand (fuel + 2)
        client false =
        (Element.block ⟨.signalEnd sig_num, [e], 0, loopCount + 1⟩).nextCommand (fuel + 1)
          client false := by
      rw [Element.nextCommand]
      simp only [List.getElem?_cons_zero, passed, Option.bind_some, Element.afterCall_next,
        List.set_cons_zero, Block.goOn, if_true]
      simp [Block.nextElement, Block.getNextLoop, Block.endLoop, waits]
    rw [pass]
    exact ih (fuel + 1) (Nat.lt_succ_self _) false (loopCount + 1)

/-- `block_waitsig 5 { for 0 { E 1 } }`. -/
theorem signalEnd_never_returns :
    ∃ s : Script, s.Reached [.block ⟨.signalEnd 5, [.block ⟨.elementFor 0, [expose], 0, 0⟩], 0, 0⟩] ∧
      (∀ e ∈ s.elements, e.Parsed) ∧ ∀ fuel, s.nextCommand fuel (.camera none) = none := by
  refine ⟨_, .start, fun _ mem => ?_, fun fuel => ?_⟩
  · rw [List.mem_singleton.mp mem]
    refine .block fun _ mem => ?_
    rw [List.mem_singleton.mp mem]
    exact .block fun _ mem => List.mem_singleton.mp mem ▸ .single _
  · have spins := signalEnd_spins (by decide : (5 : Int) ≠ -1) (nofun : Client.camera none ≠ .other)
      (e := .block ⟨.elementFor 0, [expose], 0, 0⟩) (fun fuel => rfl)
    cases fuel with
    | zero => rfl
    | succ fuel => simp [Script.nextCommand, Script.loop, spins]

end Script

end Rts2.Scripts.Stepping
