import Rts2.Kernel.Status

/-! Opening and closing of the observatory: centrald commands the devices of open_sequence one
after another, in reverse order when it closes. -/
namespace Rts2.Central

open Kernel

abbrev Name := List UInt8

inductive OpenClose where
  | none | opening | closing
  deriving DecidableEq, Repr

structure Device where
  name : Name
  state : Status
  deriving DecidableEq

inductive Command where
  | «open» (device : Name) (queued : ℚ)
  | close (device : Name) (queued : ℚ)
  deriving DecidableEq

/-- `timers` holds the time each pending EVENT_CLOSE_TIMEOUT was added at. No function reads the last two fields: the device doClose waits
for and since when, and the devices that timed out since the last request to close. -/
structure Centrald where
  now : ℚ
  connections : List Device
  openSequence : List Name
  openClose : OpenClose
  openCloseLast : Name
  openCloseTimeout : Option ℚ
  failedClose : List Name
  timers : List ℚ
  commands : List Command
  waiting : Option (Name × ℚ)
  timedOut : List Name

def closeTimeout : ℚ := 180

namespace Centrald

def init (openSequence : List Name) : Centrald where
  now := 0
  connections := []
  openSequence := openSequence
  openClose := .none
  openCloseLast := []
  openCloseTimeout := Option.none
  failedClose := []
  timers := []
  commands := []
  waiting := Option.none
  timedOut := []

def getOpenConnection (c : Centrald) (name : Name) : Option Device :=
  c.connections.find? (·.name = name)

def queCommand (c : Centrald) (command : Command) : Centrald :=
  { c with commands := c.commands ++ [command] }

def updateOpenClose (c : Centrald) : Centrald :=
  { c with openClose := .none, openCloseLast := [], openCloseTimeout := Option.none }

inductive OpenTarget where
  | missing (name : Name)
  | blocks (name : Name)
  | finished
  deriving DecidableEq

def openTarget (c : Centrald) : List Name → OpenTarget
  | [] => .finished
  | name :: rest =>
    match c.getOpenConnection name with
    | Option.none => .missing name
    | some dconn => if dconn.state &&& deviceBlockOpen ≠ 0 then .blocks name else c.openTarget rest

def doOpen (c : Centrald) : Centrald :=
  match c.openTarget c.openSequence with
  | .missing _ => { c with openClose := .none }
  | .blocks name =>
    let c := c.queCommand (.open name c.now)
    if name ≠ c.openCloseLast then
      { c with openCloseTimeout := some (c.now + closeTimeout), openCloseLast := name }
    else c
  | .finished => c.updateOpenClose

def shouldClose (c : Centrald) (name : Name) : Bool :=
  match c.getOpenConnection name with
  | Option.none => false
  | some dconn => !c.failedClose.contains name && dconn.state &&& deviceBlockClose ≠ 0

def closeTarget (c : Centrald) : Option Name := c.openSequence.reverse.find? c.shouldClose

def waitFor (c : Centrald) (name : Name) : Option (Name × ℚ) :=
  match c.waiting with
  | some (device, since) => if device = name then some (device, since) else some (name, c.now)
  | Option.none => some (name, c.now)

def addTimer (c : Centrald) : List ℚ := if c.now ∈ c.timers then c.timers else c.timers ++ [c.now]

def doClose (c : Centrald) : Centrald :=
  if c.openSequence = [] then { c with waiting := Option.none }
  else
    match c.closeTarget with
    | some name =>
      let c := { c.queCommand (.close name c.now) with waiting := c.waitFor name }
      if name ≠ c.openCloseLast then
        { c with
          openCloseTimeout := some (c.now + closeTimeout)
          openCloseLast := name
          timers := c.addTimer }
      else c
    | Option.none => { c.updateOpenClose with failedClose := [], waiting := Option.none }

def startOpen (c : Centrald) : Centrald :=
  doOpen { c with openClose := .opening, waiting := Option.none }

def startClose (c : Centrald) : Centrald :=
  doClose
    { c with
      openClose := .closing
      timedOut := if c.openClose = .closing then c.timedOut else [] }

def stateChanged (c : Centrald) (new_state : Status) : Centrald :=
  if new_state &&& weatherMask = goodWeather ∧ new_state &&& serverdOnoffMask = serverdOn ∧
      (new_state &&& serverdStatusMask = serverdDusk ∨
        new_state &&& serverdStatusMask = serverdNight ∨
        new_state &&& serverdStatusMask = serverdDawn) then
    c.startOpen
  else c.startClose

def openCloseChanged (c : Centrald) : Centrald :=
  match c.openClose with
  | .opening => c.doOpen
  | .closing => c.doClose
  | .none => c

/-- ConnCentrald::setState, with what it does to the sequence. -/
def setState (c : Centrald) (i : Nat) (value : Status) : Centrald :=
  match c.connections[i]? with
  | Option.none => c
  | some device =>
    let c := { c with connections := c.connections.set i { device with state := value } }
    if device.state &&& (deviceBlockOpen ||| deviceBlockClose) ≠
        value &&& (deviceBlockOpen ||| deviceBlockClose) then
      c.openCloseChanged
    else c

/-- The timeout that was added at `setAt`. -/
def postEvent (c : Centrald) (setAt : ℚ) : Centrald :=
  let c := { c with timers := c.timers.erase setAt }
  if c.openClose = .closing then
    doClose
      { c with
        failedClose := c.failedClose ++ [c.openCloseLast]
        timedOut := c.timedOut ++ [c.openCloseLast] }
  else c

end Centrald

/-- What can happen to centrald. Connections are added, named and removed without a call of the
sequence's functions; `stateChanged`, `startOpen` and `startClose` are asked for by state changes
and by clients. -/
inductive Event where
  | connections (connections : List Device)
  | openSequence (openSequence : List Name)
  | setState (i : Nat) (value : Status)
  | stateChanged (new_state : Status)
  | startOpen
  | startClose
  | tick (seconds : ℚ)
  | timeout (setAt : ℚ)

namespace Centrald

def Enabled (c : Centrald) : Event → Prop
  | .tick seconds => 0 ≤ seconds
  | .timeout setAt => setAt ∈ c.timers ∧ setAt + closeTimeout < c.now
  | .connections _ | .openSequence _ | .setState .. | .stateChanged _ | .startOpen | .startClose =>
    True

instance (c : Centrald) : DecidablePred c.Enabled
  | .tick _ => inferInstanceAs (Decidable (_ ≤ _))
  | .timeout _ => inferInstanceAs (Decidable (_ ∧ _))
  | .connections _ | .openSequence _ | .setState .. | .stateChanged _ | .startOpen | .startClose =>
    isTrue trivial

def step (c : Centrald) : Event → Centrald
  | .connections connections => { c with connections := connections }
  | .openSequence openSequence => { c with openSequence := openSequence }
  | .setState i value => c.setState i value
  | .stateChanged new_state => c.stateChanged new_state
  | .startOpen => c.startOpen
  | .startClose => c.startClose
  | .tick seconds => { c with now := c.now + seconds }
  | .timeout setAt => c.postEvent setAt

inductive Call where
  | doOpen (c : Centrald)
  | doClose (c : Centrald)
  | plain (c : Centrald)

def Call.run : Call → Centrald
  | .doOpen c => c.doOpen
  | .doClose c => c.doClose
  | .plain c => c

def opens (c : Centrald) : Centrald := { c with openClose := .opening, waiting := Option.none }

def closes (c : Centrald) : Centrald :=
  { c with
    openClose := .closing
    timedOut := if c.openClose = .closing then c.timedOut else [] }

def fired (c : Centrald) (setAt : ℚ) : Centrald := { c with timers := c.timers.erase setAt }

def fails (c : Centrald) : Centrald :=
  { c with
    failedClose := c.failedClose ++ [c.openCloseLast]
    timedOut := c.timedOut ++ [c.openCloseLast] }

def changed (c : Centrald) : Call :=
  match c.openClose with
  | .opening => .doOpen c
  | .closing => .doClose c
  | .none => .plain c

def call (c : Centrald) : Event → Call
  | .connections connections => .plain { c with connections := connections }
  | .openSequence openSequence => .plain { c with openSequence := openSequence }
  | .setState i value =>
    match c.connections[i]? with
    | Option.none => .plain c
    | some device =>
      let c := { c with connections := c.connections.set i { device with state := value } }
      if device.state &&& (deviceBlockOpen ||| deviceBlockClose) ≠
          value &&& (deviceBlockOpen ||| deviceBlockClose) then c.changed
      else .plain c
  | .stateChanged new_state =>
    if new_state &&& weatherMask = goodWeather ∧ new_state &&& serverdOnoffMask = serverdOn ∧
        (new_state &&& serverdStatusMask = serverdDusk ∨
          new_state &&& serverdStatusMask = serverdNight ∨
          new_state &&& serverdStatusMask = serverdDawn) then .doOpen c.opens
    else .doClose c.closes
  | .startOpen => .doOpen c.opens
  | .startClose => .doClose c.closes
  | .tick seconds => .plain { c with now := c.now + seconds }
  | .timeout setAt =>
    if c.openClose = .closing then .doClose (c.fired setAt).fails else .plain (c.fired setAt)

theorem openCloseChanged_eq (c : Centrald) : c.openCloseChanged = c.changed.run := by
  unfold openCloseChanged changed
  cases c.openClose <;> rfl

theorem step_eq (c : Centrald) (e : Event) : c.step e = (c.call e).run := by
  cases e with
  | setState i value =>
    simp only [step, setState, call]
    cases c.connections[i]? with
    | none => rfl
    | some device =>
      dsimp only
      split
      · exact openCloseChanged_eq _
      · rfl
  | stateChanged new_state =>
    simp only [step, stateChanged, call]
    split <;> rfl
  | timeout setAt =>
    simp only [step, postEvent, call]
    split <;> rfl
  | _ => rfl

end Centrald

end Rts2.Central
