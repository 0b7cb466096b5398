import Mathlib

/-! The board that drives the roof. A write rewrites the whole port of the outputs from the state
that was read just before it; a read fails or gives the true state, and a write takes effect at
once or is lost. -/
namespace Rts2.Roof

inductive Vystup where
  | OTEVIRANI | ZAVIRANI | KONCAK_OTEVRENI | KONCAK_ZAVRENI
  deriving DecidableEq

inductive Port where
  | A | B
  deriving DecidableEq

def Vystup.port : Vystup → Port
  | .OTEVIRANI | .ZAVIRANI => .B
  | .KONCAK_OTEVRENI | .KONCAK_ZAVRENI => .A

def Vystup.pin : Vystup → BitVec 8
  | .OTEVIRANI => 1
  | .ZAVIRANI => 2
  | .KONCAK_OTEVRENI => 2
  | .KONCAK_ZAVRENI => 4

/-- What one access to the world outside gives: the inputs, if the board answers, what becomes of a
write, and the time in milliseconds. -/
structure Reply where
  read : Option (BitVec 8)
  takesEffect : Bool
  writes : Bool
  now : Nat

structure Ford where
  /-- stav_portu: the inputs and the outputs as last read. -/
  portA : BitVec 8
  portB : BitVec 8
  /-- The outputs of the board. -/
  outputs : BitVec 8
  /-- The outputs after each write. -/
  driven : List (BitVec 8)
  replies : Stream' Reply

namespace Ford

def reply (f : Ford) : Reply × Ford := (f.replies.head, { f with replies := f.replies.tail })

def getNow (f : Ford) : Nat × Ford := (f.reply.1.now, f.reply.2)

def time (f : Ford) : Nat × Ford := (f.getNow.1 / 1000, f.getNow.2)

def stav_portu (f : Ford) : Port → BitVec 8
  | .A => f.portA
  | .B => f.portB

def zjisti_stav_portu (f : Ford) : Int × Ford :=
  let (r, f) := f.reply
  match r.read with
  | none => (-1, f)
  | some ca => (0, { f with portA := ca, portB := f.outputs })

def readStablePort (c_port : Port) (f : Ford) : Int × Ford :=
  let (ret, f) := f.zjisti_stav_portu
  if ret ≠ 0 then (-1, f)
  else
    let first := f.stav_portu c_port
    let (ret, f) := f.zjisti_stav_portu
    if ret ≠ 0 then (-1, f)
    else if f.stav_portu c_port ≠ first then (-1, f)
    else (0, f)

def writePort (c_port : Port) (c : BitVec 8) (f : Ford) : Int × Ford :=
  let (r, f) := f.reply
  let f :=
    if r.takesEffect ∧ c_port = .B then { f with outputs := c, driven := f.driven ++ [c] } else f
  (if r.writes then 0 else -1, f)

def zapni_pin (c_port : Port) (pin : BitVec 8) (f : Ford) : Int × Ford :=
  let (ret, f) := f.readStablePort c_port
  if ret ≠ 0 then (-1, f) else f.writePort c_port (f.stav_portu c_port ||| pin)

def vypni_pin (c_port : Port) (pin : BitVec 8) (f : Ford) : Int × Ford :=
  let (ret, f) := f.readStablePort c_port
  if ret ≠ 0 then (-1, f) else f.writePort c_port (f.stav_portu c_port &&& ~~~pin)

def ZAP (i : Vystup) (f : Ford) : Int × Ford := f.zapni_pin i.port i.pin

def switchOffPins (pin1 pin2 : Vystup) (f : Ford) : Int × Ford :=
  if pin1.port ≠ pin2.port then (-1, f) else f.vypni_pin pin1.port (pin1.pin ||| pin2.pin)

def getPortState (f : Ford) (i : Vystup) : Bool := f.stav_portu i.port &&& i.pin ≠ 0

def drives (f : Ford) (motor : Vystup) : Bool := f.outputs &&& motor.pin ≠ 0

end Ford

def bothOn (outputs : BitVec 8) : Bool :=
  outputs &&& Vystup.OTEVIRANI.pin ≠ 0 && outputs &&& Vystup.ZAVIRANI.pin ≠ 0

namespace Ford

theorem zjisti_spec (f : Ford) :
    f.zjisti_stav_portu.2.outputs = f.outputs ∧ f.zjisti_stav_portu.2.driven = f.driven ∧
      (f.zjisti_stav_portu.1 = 0 → f.zjisti_stav_portu.2.portB = f.outputs) := by
  simp only [zjisti_stav_portu, reply]
  cases f.replies.head.read <;> simp

theorem zjisti_ret (f : Ford) : f.zjisti_stav_portu.1 = 0 ∨ f.zjisti_stav_portu.1 = -1 := by
  simp only [zjisti_stav_portu]
  cases f.reply.1.read <;> simp

theorem zjisti_replies (f : Ford) : f.zjisti_stav_portu.2.replies = f.replies.tail := by
  simp only [zjisti_stav_portu, reply]
  cases f.replies.head.read <;> rfl

theorem readStable_spec (c_port : Port) (f : Ford) :
    (f.readStablePort c_port).2.outputs = f.outputs ∧ (f.readStablePort c_port).2.driven = f.driven ∧
      ((f.readStablePort c_port).1 = 0 → (f.readStablePort c_port).2.portB = f.outputs) := by
  have first := f.zjisti_spec
  have second := f.zjisti_stav_portu.2.zjisti_spec
  rw [first.1, first.2.1] at second
  simp only [readStablePort]
  by_cases failed : f.zjisti_stav_portu.1 ≠ 0
  · rw [if_pos failed]
    exact ⟨first.1, first.2.1, by simp⟩
  · rw [if_neg failed]
    by_cases failed' : f.zjisti_stav_portu.2.zjisti_stav_portu.1 ≠ 0
    · rw [if_pos failed']
      exact ⟨second.1, second.2.1, by simp⟩
    · rw [if_neg failed']
      split
      · exact ⟨second.1, second.2.1, by simp⟩
      · exact ⟨second.1, second.2.1, fun _ => second.2.2 (by simpa using failed')⟩

theorem writePort_spec (c : BitVec 8) (f : Ford) :
    (f.writePort .B c).2.outputs = f.outputs ∧ (f.writePort .B c).2.driven = f.driven ∨
      (f.writePort .B c).2.outputs = c ∧ (f.writePort .B c).2.driven = f.driven ++ [c] := by
  simp only [writePort, reply, and_true]
  cases f.replies.head.takesEffect
  · exact .inl ⟨rfl, rfl⟩
  · exact .inr ⟨rfl, rfl⟩

theorem write_read_spec (change : BitVec 8 → BitVec 8) (f : Ford) :
    let stable := f.readStablePort .B
    let written := if stable.1 ≠ 0 then (-1, stable.2)
      else stable.2.writePort .B (change (stable.2.stav_portu .B))
    written.2.outputs = f.outputs ∧ written.2.driven = f.driven ∨
      written.2.outputs = change f.outputs ∧ written.2.driven = f.driven ++ [change f.outputs] := by
  intro stable written
  obtain ⟨outputs, driven, read⟩ := f.readStable_spec .B
  by_cases failed : stable.1 ≠ 0
  · have same : written = (-1, stable.2) := if_pos failed
    rw [same]
    exact .inl ⟨outputs, driven⟩
  · have same : written = stable.2.writePort .B (change (stable.2.stav_portu .B)) := if_neg failed
    have current : stable.2.stav_portu .B = f.outputs := read (by simpa using failed)
    have wrote := stable.2.writePort_spec (change (stable.2.stav_portu .B))
    rw [same]
    rw [current] at wrote ⊢
    rw [outputs, driven] at wrote
    exact wrote

theorem zapni_spec (pin : BitVec 8) (f : Ford) :
    (f.zapni_pin .B pin).2.outputs = f.outputs ∧ (f.zapni_pin .B pin).2.driven = f.driven ∨
      (f.zapni_pin .B pin).2.outputs = f.outputs ||| pin ∧
        (f.zapni_pin .B pin).2.driven = f.driven ++ [f.outputs ||| pin] :=
  f.write_read_spec (· ||| pin)

theorem vypni_spec (pin : BitVec 8) (f : Ford) :
    (f.vypni_pin .B pin).2.outputs = f.outputs ∧ (f.vypni_pin .B pin).2.driven = f.driven ∨
      (f.vypni_pin .B pin).2.outputs = f.outputs &&& ~~~pin ∧
        (f.vypni_pin .B pin).2.driven = f.driven ++ [f.outputs &&& ~~~pin] :=
  f.write_read_spec (· &&& ~~~pin)

end Ford

end Rts2.Roof
