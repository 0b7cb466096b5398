import Mathlib

/-! The elements of the script of a camera, and what nextCommand hands out. Floats are of any type
with the operations that are used, and `random_num` is the generator of the library. -/
namespace Rts2.Scripts

abbrev Code := BitVec 32

namespace Code

def next : Code := -2
def endScript : Code := -1
def keep : Code := 1
def waiting : Code := 2
def checkWait : Code := 4
def precisionFailed : Code := 5
def precisionOk : Code := 6
def waitAcqusition : Code := 7
def maskBlock : Code := 0x100000

def ends (ret : Code) : Bool :=
  ret = 0 || ret = checkWait || ret = precisionFailed || ret = precisionOk || ret = waitAcqusition

def cleared : Code := next &&& ~~~maskBlock

theorem maskBlock_eq : maskBlock = BitVec.twoPow 32 20 := by decide

theorem or_maskBlock_bit (ret : Code) : (ret ||| maskBlock).getLsbD 20 = true := by
  simp [maskBlock_eq]

theorem and_maskBlock (ret : Code) :
    ret &&& maskBlock = if ret.getLsbD 20 then maskBlock else 0 := by
  rw [maskBlock_eq]
  exact BitVec.and_twoPow ret 20

theorem ends_bit {ret : Code} (ends : ret.ends = true) : ret.getLsbD 20 = false := by
  simp only [Code.ends, Bool.or_eq_true, decide_eq_true_eq] at ends
  rcases ends with (((rfl | rfl) | rfl) | rfl) | rfl <;> decide

theorem or_maskBlock_next {ret : Code} (same : ret ||| maskBlock = next) :
    ret = next ∨ ret = cleared := by
  cases bit : ret.getLsbD 20 with
  | true =>
    refine .inl (same ▸ BitVec.eq_of_getLsbD_eq fun i less => ?_)
    rw [maskBlock_eq, BitVec.getLsbD_or, BitVec.getLsbD_twoPow]
    by_cases here : 20 = i
    · simp [← here, bit]
    · simp [here]
  | false =>
    refine .inr (BitVec.eq_of_getLsbD_eq fun i less => ?_)
    rw [cleared, ← same, maskBlock_eq, BitVec.getLsbD_and, BitVec.getLsbD_or, BitVec.getLsbD_not,
      BitVec.getLsbD_twoPow]
    by_cases here : 20 = i
    · rw [← here, bit]
      rfl
    · simp [here, less]

theorem masked_stays {ret : Code} (found : ret ≠ next) (kept : ret ≠ cleared) :
    ret ||| maskBlock ≠ next ∧ ret ||| maskBlock ≠ cleared ∧ ret ||| maskBlock ≠ waiting ∧
      (ret ||| maskBlock).ends = false := by
  have bit := or_maskBlock_bit ret
  refine ⟨fun same => ?_, fun same => ?_, fun same => ?_, Bool.eq_false_iff.mpr fun ends => ?_⟩
  · rcases or_maskBlock_next same with next | clear
    · exact found next
    · exact kept clear
  · rw [same] at bit
    exact absurd bit (by decide)
  · rw [same] at bit
    exact absurd bit (by decide)
  · rw [ends_bit ends] at bit
    cases bit

end Code

def bopWhileState : BitVec 32 := 0x00001000
def bopExposure : BitVec 32 := 0x01000000
def bopTelMove : BitVec 32 := 0x04000000

variable {F G : Type}

inductive Argument (F : Type) where
  | int (operand : Int)
  | float (operand : F)
  | string (operand : String) (raw : Bool)

inductive Command (F : Type) where
  | changeValue (valName : String) (op : Char) (operand : Argument F) (bopMask : BitVec 32)
  | exposure (bopMask : BitVec 32)
  | shiftStart (expTime : F) (bopMask : BitVec 32)
  | shiftProgress (shift : Int) (expTime : F) (bopMask : BitVec 32)
  | shiftEnd (shift : Int) (expTime : F) (bopMask : BitVec 32)
  | box (x y w h : Int)
  | center (w h : Int)
  | command (text : String)

/-- What a call of nextCommand hands out: its code, or none for an exception, and the command and
the device it wrote. -/
structure Answer (F : Type) where
  ret : Option Code
  new_command : Option (Command F)
  new_device : Option String

def Answer.skip : Answer F := ⟨some .next, none, none⟩

inductive Operand (F : Type) where
  | number (val : F)
  | string (str : String)
  | randomNumber (_from _to : Operand F)

namespace Operand

variable [Add F] [Sub F] [Mul F] [ToString F] (random_num : G → F × G)

def getDouble (g : G) : Operand F → Option F × G
  | .number val => (some val, g)
  | .string _ => (none, g)
  | .randomNumber _from _to =>
    match _from.getDouble g with
    | (none, g) => (none, g)
    | (some lower, g) =>
      match _to.getDouble g with
      | (none, g) => (none, g)
      | (some upper, g) =>
        let (r, g) := random_num g
        (some (lower + (upper - lower) * r), g)

def writeTo (g : G) (operand : Operand F) : Option String × G :=
  match operand with
  | .string str => (some str, g)
  | .number _ | .randomNumber _ _ =>
    let (val, g) := operand.getDouble random_num g
    (val.map toString, g)

def writeAll (g : G) : List (Operand F) → Option String × G
  | [] => (some "", g)
  | [operand] => operand.writeTo random_num g
  | operand :: operands =>
    match operand.writeTo random_num g with
    | (none, g) => (none, g)
    | (some text, g) =>
      let (rest, g) := writeAll g operands
      (rest.map fun rest => text ++ " " ++ rest, g)

end Operand

/-- What the connection of the camera has: que_exp_num, and whether it has the other values. -/
structure Camera where
  que_exp_num : Option Int
  shutter : Bool
  filter : Bool
  exposure : Bool

def Camera.queued (camera : Camera) : Bool := camera.que_exp_num.any (· ≠ 0)

inductive SequenceProgress where
  | first | shutter | filter | exposure
  deriving DecidableEq

structure ElementSequence (F : Type) where
  filter : String
  repeats : Int
  expTime : F
  done_exposures : Int
  callProgress : SequenceProgress

namespace ElementSequence

def changeValue (name : String) (argument : Argument F) : Option (Command F) :=
  some (.changeValue name '=' argument bopTelMove)

def expose (e : ElementSequence F) : Code × Option (Command F) × ElementSequence F :=
  let done_exposures := e.done_exposures + 1
  if done_exposures < e.repeats then
    (.keep, some (.exposure bopExposure), { e with done_exposures := done_exposures })
  else
    (0, some (.exposure bopExposure), { e with callProgress := .first, done_exposures := 0 })

def changeExposure (camera : Camera) (e : ElementSequence F) :
    Code × Option (Command F) × ElementSequence F :=
  if e.callProgress = .filter ∧ camera.exposure then
    (.keep, changeValue "exposure" (.float e.expTime), { e with callProgress := .exposure })
  else e.expose

def changeFilter (camera : Camera) (e : ElementSequence F) :
    Code × Option (Command F) × ElementSequence F :=
  if e.callProgress = .shutter then
    let e := { e with callProgress := .filter }
    if camera.filter then (.keep, changeValue "filter" (.string e.filter false), e)
    else e.changeExposure camera
  else e.changeExposure camera

def nextCommand (camera : Camera) (e : ElementSequence F) :
    Code × Option (Command F) × ElementSequence F :=
  if e.callProgress = .first then
    if camera.queued then (.keep, none, e)
    else
      let e := { e with callProgress := .shutter }
      if camera.shutter then (.keep, changeValue "SHUTTER" (.int 0), e)
      else e.changeFilter camera
  else e.changeFilter camera

end ElementSequence

inductive ImageProgress where
  | first | shutter | exposure
  deriving DecidableEq

/-- The elements E, D and I, which ask for the shutter of a light image, of a dark one, or for
none. -/
structure ElementImage (F : Type) where
  targetShutter : Int
  expTime : F
  callProgress : ImageProgress

namespace ElementImage

def changeExposure (camera : Camera) (e : ElementImage F) :
    Code × Option (Command F) × ElementImage F :=
  if e.callProgress = .shutter ∧ camera.exposure then
    (.keep, some (.changeValue "exposure" '=' (.float e.expTime) bopTelMove),
      { e with callProgress := .exposure })
  else (0, some (.exposure bopExposure), { e with callProgress := .first })

def nextCommand (camera : Camera) (e : ElementImage F) :
    Code × Option (Command F) × ElementImage F :=
  if e.callProgress = .first then
    if camera.queued then (.keep, none, e)
    else
      let e := { e with callProgress := .shutter }
      if 0 ≤ e.targetShutter ∧ camera.shutter then
        (.keep, some (.changeValue "SHUTTER" '=' (.int e.targetShutter) bopTelMove), e)
      else e.changeExposure camera
  else e.changeExposure camera

end ElementImage

/-- The elements that are not blocks. A value change without an operator has none. -/
inductive CameraElement (F : Type) where
  | sequence (e : ElementSequence F)
  | image (e : ElementImage F)
  | shiftStoreStart (expTime : F)
  | shiftStoreProgress (shift : Int) (expTime : F)
  | shiftStoreEnd (shift : Int) (expTime : F)
  | box (x y w h : Int)
  | center (w h : Int)
  | command (deviceName cmd : String) (args : List String)
  | changeValue (deviceName valName : String) (op : Option Char) (operands : List (Operand F))

namespace CameraElement

variable [Add F] [Sub F] [Mul F] [ToString F] (random_num : G → F × G) (defaultDevice : String)

def changeCommand (valName : String) (op : Char) (operands : List (Operand F)) (text : String) :
    Command F :=
  let rawString := decide (1 < operands.length)
  if valName.startsWith "!" then
    .changeValue (valName.drop 1).toString op (.string text rawString) (bopTelMove ||| bopWhileState)
  else .changeValue valName op (.string text rawString) bopTelMove

def nextCommand (camera : Camera) (g : G) : CameraElement F → Answer F × G × CameraElement F
  | .sequence e =>
    let (ret, new_command, e) := e.nextCommand camera
    (⟨some ret, new_command, some defaultDevice⟩, g, .sequence e)
  | .image e =>
    let (ret, new_command, e) := e.nextCommand camera
    (⟨some ret, new_command, some defaultDevice⟩, g, .image e)
  | e@(.shiftStoreStart expTime) =>
    (⟨some 0, some (.shiftStart expTime bopExposure), some defaultDevice⟩, g, e)
  | e@(.shiftStoreProgress shift expTime) =>
    (⟨some 0, some (.shiftProgress shift expTime bopExposure), some defaultDevice⟩, g, e)
  | e@(.shiftStoreEnd shift expTime) =>
    (⟨some 0, some (.shiftEnd shift expTime bopExposure), some defaultDevice⟩, g, e)
  | e@(.box x y w h) => (⟨some 0, some (.box x y w h), some defaultDevice⟩, g, e)
  | e@(.center w h) => (⟨some 0, some (.center w h), some defaultDevice⟩, g, e)
  | e@(.command deviceName cmd args) =>
    (⟨some 0, some (.command (args.foldl (fun os arg => os ++ " " ++ arg) cmd)), some deviceName⟩,
      g, e)
  | e@(.changeValue deviceName valName op operands) =>
    match op, operands with
    | none, _ | _, [] => (⟨some (-1), none, none⟩, g, e)
    | some op, operands =>
      match Operand.writeAll random_num g operands with
      | (none, g) => (⟨none, none, none⟩, g, e)
      | (some text, g) =>
        (⟨some 0, some (changeCommand valName op operands text), some deviceName⟩, g, e)

end CameraElement

inductive AcquireState where
  | NOT_CALLED
  | ACQ_OK
  | ACQ_FAILED
  deriving DecidableEq

/-- A block `for max { }` of elements of any kind. -/
structure ElementFor (E : Type) where
  max : Int
  blockElements : List E
  curr_element : Nat
  loopCount : Int

namespace ElementFor

variable {E : Type}

def endLoop (b : ElementFor E) : Bool := b.max ≤ b.loopCount

def afterBlockEnd (b : ElementFor E) : ElementFor E := { b with loopCount := 0, curr_element := 0 }

/-- curr_element goes on to the next element, or to the first one in the next loop; true when the
last loop has ended. -/
def nextElement (b : ElementFor E) : Bool × ElementFor E :=
  if b.curr_element + 1 = b.blockElements.length then
    if { b with loopCount := b.loopCount + 1 }.endLoop then (true, b.afterBlockEnd)
    else (false, { b with loopCount := b.loopCount + 1, curr_element := 0 })
  else (false, { b with curr_element := b.curr_element + 1 })

def blockScriptRet (b : ElementFor E) (ret : Code) : Code × ElementFor E :=
  if ret.ends then
    match b.nextElement with
    | (true, b) => (ret, b)
    | (false, b) => (ret ||| .maskBlock, b)
  else (ret ||| .maskBlock, b)

theorem nextElement_less {b b' : ElementFor E} (inside : b.curr_element < b.blockElements.length)
    (goes : b.nextElement = (false, b')) :
    b'.max = b.max ∧ b'.blockElements.length = b.blockElements.length ∧
      ((b'.max - b'.loopCount).toNat < (b.max - b.loopCount).toNat ∨
        b'.loopCount = b.loopCount ∧
          b'.blockElements.length - b'.curr_element < b.blockElements.length - b.curr_element) := by
  unfold nextElement at goes
  split at goes
  · split at goes
    · cases goes
    · rename_i going
      simp only [endLoop, decide_eq_true_eq, not_le] at going
      cases goes
      exact ⟨rfl, rfl, .inl (by simp only; omega)⟩
  · cases goes
    exact ⟨rfl, rfl, .inr ⟨rfl, by simp only; omega⟩⟩

def loop (next : G → E → Answer F × G × E) (g : G) (b : ElementFor E) :
    Answer F × G × ElementFor E :=
  match _inside : b.blockElements[b.curr_element]? with
  | none => (.skip, g, b)
  | some ce =>
    match next g ce with
    | (answer, g, ce) =>
      let b' := { b with blockElements := b.blockElements.set b.curr_element ce }
      match answer.ret with
      | none => (answer, g, b')
      | some ret =>
        if ret = .next then
          match _goes : b'.nextElement with
          | (true, ended) => (.skip, g, ended)
          | (false, following) => loop next g following
        else
          let (ret, b) := b'.blockScriptRet ret
          ({ answer with ret := some ret }, g, b)
termination_by ((b.max - b.loopCount).toNat, b.blockElements.length - b.curr_element)
decreasing_by
  have bound : b.curr_element < b.blockElements.length := (List.getElem?_eq_some_iff.mp _inside).1
  obtain ⟨max, length, less⟩ := nextElement_less (b := b') (by simpa [b'] using bound) _goes
  simp only [b', List.length_set] at max length less
  rcases less with less | ⟨same, less⟩
  · exact Prod.Lex.left _ _ less
  · rw [max, same]
    exact Prod.Lex.right _ less

theorem loop_eq {next : G → E → Answer F × G × E} {g g' : G} {b : ElementFor E} {ce ce' : E}
    {answer : Answer F} (there : b.blockElements[b.curr_element]? = some ce)
    (called : next g ce = (answer, g', ce')) :
    b.loop next g =
      let b' := { b with blockElements := b.blockElements.set b.curr_element ce' }
      match answer.ret with
      | none => (answer, g', b')
      | some ret =>
        if ret = .next then
          match b'.nextElement with
          | (true, ended) => (.skip, g', ended)
          | (false, following) => following.loop next g'
        else
          let (ret, b) := b'.blockScriptRet ret
          ({ answer with ret := some ret }, g', b) := by
  rw [loop]
  split
  · rename_i nothing
    simp [there] at nothing
  · rename_i e here
    cases there.symm.trans here
    rw [called]
    dsimp only
    cases answer.ret with
    | none => rfl
    | some ret =>
      dsimp only
      split
      · split
        · rename_i goes
          rw [goes]
        · rename_i goes
          rw [goes]
      · rfl

end ElementFor

inductive Element (F : Type) where
  | single (e : CameraElement F)
  | elementFor (b : ElementFor (Element F))

namespace Element

variable [Add F] [Sub F] [Mul F] [ToString F] (random_num : G → F × G) (defaultDevice : String)

def nesting : Element F → Nat
  | .single _ => 0
  | .elementFor ⟨_, blockElements, _, _⟩ => (blockElements.map nesting).foldr max 0 + 1

def nextCommand (camera : Camera) : Nat → G → Element F → Answer F × G × Element F
  | _, g, .single e =>
    let (answer, g, e) := e.nextCommand random_num defaultDevice camera g
    (answer, g, .single e)
  | 0, g, .elementFor b => (.skip, g, .elementFor b)
  | depth + 1, g, .elementFor b =>
    if b.endLoop || b.blockElements.isEmpty then (.skip, g, .elementFor b)
    else
      let (answer, g, b) := b.loop (nextCommand camera depth) g
      (answer, g, .elementFor b)

def unroll : Element F → List (CameraElement F)
  | .single e => [e]
  | .elementFor ⟨max, blockElements, _, _⟩ =>
    (List.replicate max.toNat (blockElements.flatMap unroll)).flatten

end Element

/-- The last field is not one of the source: up to this depth elements call each other. -/
structure Script (F : Type) where
  elements : List (Element F)
  el_iter : Nat
  executedCount : Int
  defaultDevice : String
  nesting : Nat

namespace Script

variable [Add F] [Sub F] [Mul F] [ToString F] (random_num : G → F × G)

def parsed (defaultDevice : String) (elements : List (Element F)) : Script F :=
  ⟨elements, 0, 0, defaultDevice, (elements.map Element.nesting).foldr max 0⟩

def scriptRet (s : Script F) (answer : Answer F) (ret : Code) : Answer F × Script F :=
  if ret &&& .maskBlock ≠ 0 then
    let ret := ret &&& ~~~.maskBlock
    ({ answer with ret := some ret },
      if ret ≠ .next then { s with executedCount := s.executedCount + 1 } else s)
  else if ret.ends then
    (answer, { s with el_iter := s.el_iter + 1, executedCount := s.executedCount + 1 })
  else if ret = .waiting then
    ({ answer with new_command := none }, { s with executedCount := s.executedCount + 1 })
  else (answer, { s with executedCount := s.executedCount + 1 })

def loop (camera : Camera) (g : G) (s : Script F) : Answer F × G × Script F :=
  match _inside : s.elements[s.el_iter]? with
  | none => (⟨some .endScript, none, none⟩, g, s)
  | some currElement =>
    match currElement.nextCommand random_num s.defaultDevice camera s.nesting g with
    | (answer, g, currElement) =>
      let s' := { s with elements := s.elements.set s.el_iter currElement }
      match answer.ret with
      | none => (answer, g, s')
      | some ret =>
        if ret = .next then loop camera g { s' with el_iter := s.el_iter + 1 }
        else
          let (answer, s) := s'.scriptRet answer ret
          (answer, g, s)
termination_by s.elements.length - s.el_iter
decreasing_by
  have bound : s.el_iter < s.elements.length := (List.getElem?_eq_some_iff.mp _inside).1
  simp only [List.length_set]
  omega

theorem loop_eq {camera : Camera} {g g' : G} {s : Script F} {e e' : Element F} {answer : Answer F}
    (there : s.elements[s.el_iter]? = some e)
    (called : e.nextCommand random_num s.defaultDevice camera s.nesting g = (answer, g', e')) :
    s.loop random_num camera g =
      let s' := { s with elements := s.elements.set s.el_iter e' }
      match answer.ret with
      | none => (answer, g', s')
      | some ret =>
        if ret = .next then { s' with el_iter := s.el_iter + 1 }.loop random_num camera g'
        else ((s'.scriptRet answer ret).1, g', (s'.scriptRet answer ret).2) := by
  rw [loop]
  split
  · rename_i nothing
    simp [there] at nothing
  · rename_i x here
    cases there.symm.trans here
    rw [called]

def nextCommand (camera : Camera) (g : G) (s : Script F) : Answer F × G × Script F :=
  if s.executedCount < 0 then (⟨some .endScript, none, none⟩, g, s) else s.loop random_num camera g

def answers : List Camera → G → Script F → List (Answer F)
  | [], _, _ => []
  | camera :: cameras, g, s =>
    let (answer, g, s) := s.nextCommand random_num camera g
    answer :: answers cameras g s

end Script

def CameraElement.Parsed : CameraElement F → Prop
  | .sequence e => e.done_exposures = 0 ∧ e.callProgress = .first
  | .image e => e.callProgress = .first
  | .changeValue _ _ op operands => op.isSome ∧ operands ≠ []
  | .shiftStoreStart _ | .shiftStoreProgress _ _ | .shiftStoreEnd _ _ | .box .. | .center _ _
  | .command .. => True

inductive Element.Parsed : Element F → Prop
  | single {e : CameraElement F} (parsed : e.Parsed) : Parsed (.single e)
  | elementFor {max : Int} {blockElements : List (Element F)}
      (parsed : ∀ e ∈ blockElements, Parsed e) : Parsed (.elementFor ⟨max, blockElements, 0, 0⟩)

end Rts2.Scripts
