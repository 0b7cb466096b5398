import Rts2.Lib.Run

/-! The skeleton that the drivers of domes share: it opens and closes with the calls of a driver, checks
a movement at each idle pass, and tries a close again that was not done. -/
namespace Rts2.Roof

structure Driver (σ : Type) where
  startOpen : σ → Int × σ
  isOpened : σ → Int × σ
  endOpen : σ → Int × σ
  startClose : σ → Int × σ
  isClosed : σ → Int × σ
  endClose : σ → Int × σ
  stop : σ → Int × σ

inductive DomeState where
  | DOME_UNKNOW | DOME_CLOSED | DOME_OPENING | DOME_OPENED | DOME_CLOSING | DOME_WAIT_CLOSING
  deriving DecidableEq

def DOME_CLOSE_MAX_RETRIES : Nat := 3

structure Dome (σ : Type) where
  driver : σ
  state : DomeState
  /-- The pending EVENT_DOMECLOSE_RETRY timers. -/
  retryTimers : Nat
  closeRetries : Nat
  closeFailReported : Bool
  quietClose : Bool
  /-- A close was asked for, and since then neither the closed dome was seen nor an open or a stop
  succeeded. -/
  wanted : Bool
  /-- A pending timer retries a close that failed. -/
  planned : Bool
  /-- How often that close was retried after it failed. -/
  retried : Nat

namespace Dome

variable {σ : Type} (D : Driver σ)

def closeFailing (d : Dome σ) : Bool := 0 < d.closeRetries || d.closeFailReported

def domeOpenStart (isGoodWeather : Bool) (d : Dome σ) : Int × Dome σ :=
  let d := { d with retryTimers := 0, planned := false }
  let (opened, driver) := D.isOpened d.driver
  let d := { d with driver := driver }
  if opened = -2 then (0, { d with state := .DOME_OPENED, wanted := false })
  else if !isGoodWeather then (-1, d)
  else
    let (ret, driver) := D.startOpen d.driver
    let d := { d with driver := driver }
    if ret ≠ 0 then (-1, d)
    else
      (0, { d with
        closeFailReported := false, closeRetries := 0, state := .DOME_OPENING, wanted := false })

def domeCloseStart (quiet : Bool) (d : Dome σ) : Int × Dome σ :=
  let d := { d with retryTimers := 0, planned := false, quietClose := quiet }
  let (closed, driver) := D.isClosed d.driver
  let d := { d with driver := driver }
  if closed = -2 then (0, { d with state := .DOME_CLOSED, closeRetries := 0, wanted := false })
  else
    let (ret, driver) := D.startClose d.driver
    let d := { d with driver := driver }
    if ret < 0 then (-1, { d with closeFailReported := true, retryTimers := d.retryTimers + 1 })
    else if 0 < ret then
      (0, { d with state := .DOME_WAIT_CLOSING, retryTimers := d.retryTimers + 1 })
    else (0, { d with closeFailReported := false, state := .DOME_CLOSING })

def closeFailed (d : Dome σ) : Dome σ :=
  if d.closeRetries < DOME_CLOSE_MAX_RETRIES then
    { d with
      closeRetries := d.closeRetries + 1
      retryTimers := d.retryTimers + 1
      planned := true }
  else d

def domeStop (d : Dome σ) : Int × Dome σ :=
  let d := { d with retryTimers := 0, planned := false }
  let (ret, driver) := D.stop d.driver
  let d := { d with driver := driver }
  if ret < 0 then (-1, d) else (0, { d with wanted := false })

def checkOpening (d : Dome σ) : Dome σ :=
  match d.state with
  | .DOME_OPENING =>
    let (ret, driver) := D.isOpened d.driver
    let d := { d with driver := driver }
    if ret = -1 ∨ ret = -2 then
      { d with driver := (D.endOpen d.driver).2, state := .DOME_OPENED }
    else d
  | .DOME_CLOSING =>
    let (ret, driver) := D.isClosed d.driver
    let d := { d with driver := driver }
    if ret = -1 then
      let d := { d with driver := (D.endClose d.driver).2, state := .DOME_CLOSED }
      if d.quietClose then { d with quietClose := false } else d.closeFailed
    else if ret = -2 then
      let (ret, driver) := D.endClose d.driver
      let d := { d with driver := driver, state := .DOME_CLOSED }
      if ret ≠ 0 then d.closeFailed else { d with closeRetries := 0, wanted := false }
    else d
  | _ => d

def closeRequest (d : Dome σ) : Dome σ :=
  (domeCloseStart D false { d with wanted := true, retried := 0 }).2

def idle (settled isGoodWeather autoClose : Bool) (d : Dome σ) : Dome σ :=
  if !settled then d
  else
    let d := checkOpening D d
    if isGoodWeather then d else if autoClose then closeRequest D d else d

/-- What dome daemons are called for. -/
inductive Call where
  | openStart (isGoodWeather : Bool)
  | closeStart
  /-- standby and off of the master; a dome can ignore them. -/
  | masterClose (autoClose : Bool)
  /-- The close of a roof found open. -/
  | quietClose
  | stop
  | idle (settled isGoodWeather autoClose : Bool)
  /-- EVENT_DOMECLOSE_RETRY. -/
  | retry

def step (d : Dome σ) : Call → Dome σ
  | .openStart isGoodWeather => (domeOpenStart D isGoodWeather d).2
  | .closeStart => closeRequest D d
  | .masterClose autoClose => if autoClose then closeRequest D d else d
  | .quietClose => (domeCloseStart D true d).2
  | .stop => (domeStop D d).2
  | .idle settled isGoodWeather autoClose => idle D settled isGoodWeather autoClose d
  | .retry =>
    (domeCloseStart D false { d with
      retryTimers := d.retryTimers - 1
      retried := if d.planned then d.retried + 1 else d.retried }).2

/-- Timers fire when they were set; a roof is only closed quietly when it should be closed, and no
other close of it is failing. -/
def Enabled (d : Dome σ) : Call → Prop
  | .retry => 0 < d.retryTimers
  | .quietClose => d.state = .DOME_CLOSED ∧ d.closeFailing = false
  | _ => True

instance (d : Dome σ) : DecidablePred d.Enabled := fun call => by
  cases call <;> unfold Enabled <;> infer_instance

@[simp] theorem closeFailed_driver (d : Dome σ) : d.closeFailed.driver = d.driver := by
  unfold closeFailed
  split <;> rfl

theorem checkOpening_closing {d : Dome σ} (state : d.state = .DOME_CLOSING)
    (ends : (D.isClosed d.driver).1 = -1 ∨ (D.isClosed d.driver).1 = -2) :
    (checkOpening D d).driver = (D.endClose (D.isClosed d.driver).2).2 := by
  simp only [checkOpening, state]
  obtain late | closed := ends
  · rw [if_pos late]
    split <;> simp
  · rw [if_neg (by simp [closed]), if_pos closed]
    split <;> simp

end Dome

structure Driver.Kept {σ : Type} (D : Driver σ) (P : σ → Prop) : Prop where
  startOpen : ∀ s, P s → P (D.startOpen s).2
  isOpened : ∀ s, P s → P (D.isOpened s).2
  endOpen : ∀ s, P s → P (D.endOpen s).2
  startClose : ∀ s, P s → P (D.startClose s).2
  isClosed : ∀ s, P s → P (D.isClosed s).2
  endClose : ∀ s, P s → P (D.endClose s).2
  stop : ∀ s, P s → P (D.stop s).2

namespace Driver.Kept

open Dome

variable {σ : Type} {D : Driver σ} {P : σ → Prop} (kept : D.Kept P)

include kept

theorem domeOpenStart (isGoodWeather : Bool) {d : Dome σ} (holds : P d.driver) :
    P (domeOpenStart D isGoodWeather d).2.driver := by
  have read := kept.isOpened _ holds
  simp only [Dome.domeOpenStart]
  split
  · exact read
  · split
    · exact read
    · split <;> exact kept.startOpen _ read

theorem domeCloseStart (quiet : Bool) {d : Dome σ} (holds : P d.driver) :
    P (domeCloseStart D quiet d).2.driver := by
  have read := kept.isClosed _ holds
  have started := kept.startClose _ read
  simp only [Dome.domeCloseStart]
  split
  · exact read
  · split
    · exact started
    · split <;> exact started

theorem domeStop {d : Dome σ} (holds : P d.driver) : P (domeStop D d).2.driver := by
  simp only [Dome.domeStop]
  split <;> exact kept.stop _ holds

theorem checkOpening {d : Dome σ} (holds : P d.driver) : P (checkOpening D d).driver := by
  have opened := kept.isOpened _ holds
  have closed := kept.isClosed _ holds
  have ended := kept.endClose _ closed
  simp only [Dome.checkOpening]
  cases d.state with
  | DOME_OPENING =>
    simp only []
    split
    · exact kept.endOpen _ opened
    · exact opened
  | DOME_CLOSING =>
    simp only []
    split
    · split
      · exact ended
      · rwa [closeFailed_driver]
    · split
      · split
        · rwa [closeFailed_driver]
        · exact ended
      · exact closed
  | DOME_UNKNOW | DOME_CLOSED | DOME_OPENED | DOME_WAIT_CLOSING => exact holds

theorem step {d : Dome σ} (holds : P d.driver) (call : Call) : P (Dome.step D d call).driver := by
  cases call with
  | openStart isGoodWeather => exact kept.domeOpenStart isGoodWeather holds
  | closeStart => exact kept.domeCloseStart false holds
  | masterClose autoClose =>
    cases autoClose with
    | true => exact kept.domeCloseStart false holds
    | false => exact holds
  | quietClose => exact kept.domeCloseStart true holds
  | stop => exact kept.domeStop holds
  | idle settled isGoodWeather autoClose =>
    have checked := kept.checkOpening holds
    simp only [Dome.step, Dome.idle]
    split
    · exact holds
    · split
      · exact checked
      · split
        · exact kept.domeCloseStart false checked
        · exact checked
  | retry => exact kept.domeCloseStart false holds

end Driver.Kept

end Rts2.Roof
