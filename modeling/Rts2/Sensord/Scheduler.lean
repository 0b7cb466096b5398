import Rts2.Lib.Run

/-! The daemon that starts the scheduler of several telescopes: it runs when a telescope becomes ready, on
a command and at an interval, and only one run goes on at a time. -/
namespace Rts2.Sensord

open Lib

def SERVERD_STATUS_MASK : BitVec 32 := 0x00f
def SERVERD_DUSK : BitVec 32 := 0x002
def SERVERD_NIGHT : BitVec 32 := 0x003
def SERVERD_ONOFF_MASK : BitVec 32 := 0x030
def SERVERD_ON : BitVec 32 := 0x000

structure Telescope where
  name : String
  conn : Nat
  ready : Bool

def stateReady (new_state : BitVec 32) : Bool :=
  new_state &&& SERVERD_ONOFF_MASK = SERVERD_ON &&
    (new_state &&& SERVERD_STATUS_MASK = SERVERD_DUSK || new_state &&& SERVERD_STATUS_MASK = SERVERD_NIGHT)

/-- Times are in milliseconds; a time that is not a number is none. -/
structure Scheduler where
  telescopes : List Telescope
  currentRun : Option Nat
  pending : Bool
  pendingReason : String
  lastStart : Option Int
  lastReason : String
  runs : Nat
  interval : Int
  readyHold : Int
  holdUntil : Option Int
  holdReason : String
  /-- How many starts were tried; a run is called by its start. -/
  starts : Nat
  /-- The runs that go on. -/
  active : List Nat
  /-- A trigger or an elapsed interval came after the start of the last run. -/
  asked : Bool
  /-- How many runs started after none. -/
  unasked : Nat

namespace Scheduler

-- init is what the init of the run of each start returns
variable (init : Nat → Int)

def elapsed (now : Int) (s : Scheduler) : Bool :=
  match s.lastStart with
  | none => true
  | some start => s.interval ≤ now - start

def startRun (now : Int) (reason : String) (s : Scheduler) : Scheduler :=
  let run := s.starts
  let unasked := if s.asked || s.elapsed now then s.unasked else s.unasked + 1
  let s := { s with lastStart := some now, lastReason := reason, starts := s.starts + 1 }
  if init run ≠ 0 then s
  else
    { s with
      currentRun := some run
      runs := s.runs + 1
      active := s.active ++ [run]
      asked := false
      unasked := unasked }

def trigger (now : Int) (reason : String) (s : Scheduler) : Scheduler :=
  let s := { s with asked := true }
  if s.currentRun = none then
    if s.holdUntil = none then startRun init now reason s
    else startRun init now (reason ++ ", " ++ s.holdReason) { s with holdUntil := none }
  else { s with pending := true, pendingReason := reason }

def triggerReady (now : Int) (reason : String) (s : Scheduler) : Scheduler :=
  if s.currentRun ≠ none ∨ ¬ 0 < s.readyHold then trigger init now reason s
  else if s.holdUntil ≠ none then
    { s with holdReason := s.holdReason ++ ", " ++ reason, asked := true }
  else { s with holdUntil := some (now + s.readyHold), holdReason := reason, asked := true }

def setReady (now : Int) (ready : Bool) (t : Telescope) (s : Scheduler) : Telescope × Scheduler :=
  if ready = t.ready then (t, s)
  else
    ({ t with ready := ready }, if ready then triggerReady init now (t.name ++ " ready") s else s)

def setAllReady (now : Int) (conn : Nat) (ready : Bool) :
    List Telescope → Scheduler → List Telescope × Scheduler
  | [], s => ([], s)
  | t :: ts, s =>
    let (t, s) := if t.conn = conn then setReady init now ready t s else (t, s)
    let (ts, s) := setAllReady now conn ready ts s
    (t :: ts, s)

def setMasterState (now : Int) (conn : Nat) (new_state : BitVec 32) (s : Scheduler) : Scheduler :=
  let (telescopes, s) := setAllReady init now conn (stateReady new_state) s.telescopes s
  { s with telescopes := telescopes }

def centraldConnBroken (now : Int) (conn : Nat) (s : Scheduler) : Scheduler :=
  let (telescopes, s) := setAllReady init now conn false s.telescopes s
  { s with telescopes := telescopes }

def anyReady (s : Scheduler) : Bool := s.telescopes.any (·.ready)

def info (now : Int) (s : Scheduler) : Scheduler :=
  if s.currentRun = none ∧ !s.pending ∧ s.holdUntil = none ∧ s.anyReady ∧ s.elapsed now then
    trigger init now "interval" s
  else s

def runEnded (run : Nat) (s : Scheduler) : Scheduler :=
  let s := { s with active := s.active.erase run }
  if s.currentRun = some run then { s with currentRun := none } else s

def idleHold (now : Int) (s : Scheduler) : Scheduler :=
  match s.holdUntil with
  | none => s
  | some hold =>
    if s.currentRun = none ∧ hold ≤ now then startRun init now s.holdReason { s with holdUntil := none }
    else s

def idle (now : Int) (s : Scheduler) : Scheduler :=
  let s := idleHold init now s
  if s.currentRun = none ∧ s.pending then
    startRun init now s.pendingReason { s with pending := false, pendingReason := "" }
  else s

/-- What the daemon is called for. -/
inductive Event where
  | setMasterState (conn : Nat) (new_state : BitVec 32)
  | centraldConnBroken (conn : Nat)
  /-- The run command. -/
  | run
  | info
  | runEnded (run : Nat)
  | idle
  | setValues (interval readyHold : Int)

def step (s : Scheduler) (event : Int × Event) : Scheduler :=
  match event with
  | (now, .setMasterState conn new_state) => setMasterState init now conn new_state s
  | (now, .centraldConnBroken conn) => centraldConnBroken init now conn s
  | (now, .run) => trigger init now "run command" s
  | (now, .info) => info init now s
  | (_, .runEnded run) => runEnded run s
  | (now, .idle) => idle init now s
  | (_, .setValues interval readyHold) => { s with interval := interval, readyHold := readyHold }

end Scheduler

end Rts2.Sensord
