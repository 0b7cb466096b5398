import Rts2.Roof.Dome
import Rts2.Roof.Ford

/-! The driver of the D50 roof: two motors on the outputs of one board, two end switches on its
inputs, and the copy of the state of the mount that the dome last received. -/
namespace Rts2.Roof

def TIME_TO_OPEN_DOME : Nat := 40
def MINIMAL_TIME_TO_MOVE : Nat := 2
def PARK_REPEAT_SEC : Nat := 30

inductive TelMoving where
  | TEL_OBSERVING | TEL_MOVING | TEL_PARKED | TEL_PARKING
  deriving DecidableEq

structure ConnMount where
  connected : Bool
  /-- CONN_AUTH_OK or CONN_CONNECTED. -/
  ready : Bool
  infotime : Option Nat
  /-- The value that shows that the mount is inside of the dome. -/
  insideDome : Option Int
  moving : TelMoving

structure D50 where
  ford : Ford
  /-- Times in seconds, 0 when unset. -/
  timeToOpenMax : Nat
  timeToOpenMin : Nat
  timeToCloseMax : Nat
  timeToCloseMin : Nat
  ignoreMountState : Bool
  connMount : ConnMount
  parkSentAt : Nat
  /-- How many parks were sent. -/
  parks : Nat
  /-- The last stop of the motors was reported as failed. -/
  stopFailed : Bool

namespace D50

def zjisti_stav_portu (d : D50) : Int × D50 :=
  (d.ford.zjisti_stav_portu.1, { d with ford := d.ford.zjisti_stav_portu.2 })

def getPortState (d : D50) (i : Vystup) : Bool := d.ford.getPortState i

def ZAP (i : Vystup) (d : D50) : Int × D50 := ((d.ford.ZAP i).1, { d with ford := (d.ford.ZAP i).2 })

def switchOffPins (pin1 pin2 : Vystup) (d : D50) : Int × D50 :=
  ((d.ford.switchOffPins pin1 pin2).1, { d with ford := (d.ford.switchOffPins pin1 pin2).2 })

def time (d : D50) : Nat × D50 := (d.ford.time.1, { d with ford := d.ford.time.2 })

def getNow (d : D50) : Nat × D50 := (d.ford.getNow.1, { d with ford := d.ford.getNow.2 })

def stopMotorsLoop : Nat → D50 → Int × D50
  | 0, d => (-1, { d with stopFailed := true })
  | i + 1, d =>
    let (ret, d) := d.switchOffPins .OTEVIRANI .ZAVIRANI
    if ret = 0 then
      let (ret, d) := d.zjisti_stav_portu
      if ret = 0 ∧ !d.getPortState .OTEVIRANI ∧ !d.getPortState .ZAVIRANI then
        (0, { d with stopFailed := false })
      else stopMotorsLoop i d
    else stopMotorsLoop i d

def stopMotors (d : D50) : Int × D50 := d.stopMotorsLoop 3

def onlyMotor (motor : Vystup) (d : D50) : Int × D50 :=
  let (ret, d) := d.zjisti_stav_portu
  if ret ≠ 0 then (-1, d)
  else
    let other : Vystup := if motor = .OTEVIRANI then .ZAVIRANI else .OTEVIRANI
    (if d.getPortState motor ∧ !d.getPortState other then 1 else 0, d)

/-- What startOpen and startClose share: what must not run is stopped, then the motor is switched on
and found the only one, or both are switched off. -/
def startMotor (stopFirst : Bool) (motor : Vystup) (d : D50) : Int × D50 :=
  let (ret, d) := if stopFirst then d.stopMotors else (0, d)
  if ret ≠ 0 then (-1, d)
  else
    let (ret, d) := d.ZAP motor
    if ret ≠ 0 then (-1, d.stopMotors.2)
    else
      let (only, d) := d.onlyMotor motor
      if only ≠ 1 then (-1, d.stopMotors.2) else (0, d)

def timeOpen (minimal : Nat) (d : D50) : D50 :=
  let (now, d) := d.time
  { d with timeToOpenMin := now + minimal, timeToOpenMax := now + TIME_TO_OPEN_DOME }

def timeClose (minimal : Nat) (d : D50) : D50 :=
  let (now, d) := d.time
  { d with timeToCloseMin := now + minimal, timeToCloseMax := now + TIME_TO_OPEN_DOME }

def startOpen (d : D50) : Int × D50 :=
  let (ret, d) := d.zjisti_stav_portu
  if ret ≠ 0 then (ret, d)
  else if d.getPortState .OTEVIRANI ∧ !d.getPortState .ZAVIRANI then
    if d.timeToOpenMax = 0 then (0, d.timeOpen 0) else (0, d)
  else
    let (ret, d) := d.startMotor (d.getPortState .ZAVIRANI) .OTEVIRANI
    if ret ≠ 0 then (-1, d)
    else (0, { d with timeToCloseMax := 0, timeToCloseMin := 0 }.timeOpen MINIMAL_TIME_TO_MOVE)

/-- What isOpened and isClosed share: the end switch is made while the other motor is off, or the time
of the movement is over. -/
def atEnd (koncak other : Vystup) (timeToMin timeToMax : Nat) (d : D50) : Int × D50 :=
  let (ret, d) := d.zjisti_stav_portu
  let (now, d) := d.time
  if ret = 0 ∧ d.getPortState koncak ∧ !d.getPortState other ∧ timeToMin < now then (-2, d)
  else
    let (now, d) := d.time
    if timeToMax ≠ 0 ∧ timeToMax < now then (-1, d) else (1000000, d)

def endMove (koncak : Vystup) (d : D50) : Int × D50 :=
  let d := d.stopMotors.2
  let (ret, d) := d.zjisti_stav_portu
  if ret ≠ 0 then (ret, d) else if !d.getPortState koncak then (-1, d) else (0, d)

def isOpened (d : D50) : Int × D50 :=
  d.atEnd .KONCAK_OTEVRENI .ZAVIRANI d.timeToOpenMin d.timeToOpenMax

def endOpen (d : D50) : Int × D50 :=
  { d with timeToOpenMax := 0, timeToOpenMin := 0 }.endMove .KONCAK_OTEVRENI

def getMountState (d : D50) : Int × D50 :=
  if !d.connMount.connected then (-1, d)
  else if !d.connMount.ready then (-1, d)
  else
    match d.connMount.infotime with
    | none => (-1, d)
    | some infotime =>
      let (now, d) := d.getNow
      if infotime + 10000 < now then (-1, d)
      else
        match d.connMount.insideDome with
        | none => (-1, d)
        | some inside =>
          if d.connMount.moving = .TEL_PARKING then (1, d)
          else if d.connMount.moving = .TEL_MOVING then (1, d)
          else if inside = 1 then (0, d)
          else (2, d)

/-- What startClose makes of the state of the mount: what it returns, if it does, and whether the roof
still closes. -/
def heedMount (mountState : Int) (closing : Bool) (d : D50) : Option Int × Bool × D50 :=
  let stops := closing && (mountState = 1 || mountState = 2)
  let (ret, d) :=
    if stops then { d with timeToCloseMax := 0, timeToCloseMin := 0 }.stopMotors else ((0 : Int), d)
  if ret ≠ 0 then (some (-1), closing, d)
  else
    let closing := closing && !stops
    if mountState = -1 then if closing then (none, closing, d) else (some (-1), closing, d)
    else if mountState = 1 then (some 1, closing, d)
    else if mountState = 2 then
      let (now, d) := d.getNow
      if now < d.parkSentAt + 1000 * PARK_REPEAT_SEC then (some 1, closing, d)
      else if !d.connMount.connected then (some (-1), closing, d)
      else
        let (now, d) := d.getNow
        (some 1, closing, { d with parks := d.parks + 1, parkSentAt := now })
    else (none, closing, d)

def checkMount (closing : Bool) (d : D50) : Option Int × Bool × D50 :=
  if d.ignoreMountState then (none, closing, d)
  else
    let (mountState, d) := d.getMountState
    d.heedMount mountState closing

def closeRoof (closing : Bool) (d : D50) : Int × D50 :=
  let d := { d with parkSentAt := 0 }
  if closing then
    if d.timeToCloseMax = 0 then (0, d.timeClose 0) else (0, d)
  else
    let (ret, d) := d.startMotor (d.getPortState .OTEVIRANI || d.getPortState .ZAVIRANI) .ZAVIRANI
    if ret ≠ 0 then (-1, d)
    else (0, { d with timeToOpenMax := 0, timeToOpenMin := 0 }.timeClose MINIMAL_TIME_TO_MOVE)

def startClose (d : D50) : Int × D50 :=
  let (ret, d) := d.zjisti_stav_portu
  if ret ≠ 0 then (ret, d)
  else
    let closing := d.getPortState .ZAVIRANI && !d.getPortState .OTEVIRANI
    match d.checkMount closing with
    | (some ret, _, d) => (ret, d)
    | (none, closing, d) => d.closeRoof closing

def isClosed (d : D50) : Int × D50 :=
  d.atEnd .KONCAK_ZAVRENI .OTEVIRANI d.timeToCloseMin d.timeToCloseMax

def endClose (d : D50) : Int × D50 :=
  { d with timeToCloseMax := 0, timeToCloseMin := 0 }.endMove .KONCAK_ZAVRENI

def stop (d : D50) : Int × D50 :=
  { d with timeToOpenMax := 0, timeToOpenMin := 0, timeToCloseMax := 0, timeToCloseMin := 0 }.stopMotors

def info (d : D50) : D50 := d.zjisti_stav_portu.2

def driver : Driver D50 := { startOpen, isOpened, endOpen, startClose, isClosed, endClose, stop }

def start (ford : Ford) : D50 where
  ford := ford
  timeToOpenMax := 0
  timeToOpenMin := 0
  timeToCloseMax := 0
  timeToCloseMin := 0
  ignoreMountState := false
  connMount := { connected := false, ready := false, infotime := none, insideDome := none,
                 moving := .TEL_OBSERVING }
  parkSentAt := 0
  parks := 0
  stopFailed := false

def initState (d : D50) : DomeState :=
  if !d.getPortState .KONCAK_OTEVRENI && d.getPortState .KONCAK_ZAVRENI then .DOME_CLOSED
  else if d.getPortState .KONCAK_OTEVRENI && !d.getPortState .KONCAK_ZAVRENI then .DOME_OPENED
  else .DOME_UNKNOW

def init (d : D50) : Int × D50 :=
  let (ret, d) := d.zjisti_stav_portu
  if ret ≠ 0 then (-1, d)
  else if d.getPortState .OTEVIRANI || d.getPortState .ZAVIRANI then
    let (ret, d) := d.stopMotors
    if ret ≠ 0 then (-1, d) else (0, d)
  else (0, d)

/-- What happens to the daemon: its calls, messages of the mount, the switch that ignores it, and
requests for information. -/
inductive Event where
  | call (call : Dome.Call)
  | mount (connMount : ConnMount)
  | ignoreMount (ignore : Bool)
  | info

def step (d : Dome D50) : Event → Dome D50
  | .call call => Dome.step driver d call
  | .mount connMount => { d with driver := { d.driver with connMount := connMount } }
  | .ignoreMount ignore => { d with driver := { d.driver with ignoreMountState := ignore } }
  | .info => { d with driver := d.driver.info }

structure House where
  dome : Dome D50
  running : Bool

/-- What happens to the house; a daemon that is started takes over the board as it is. -/
inductive HouseEvent where
  | event (event : Event)
  | restart

def restart (h : House) : House :=
  let (ret, d) := (start h.dome.driver.ford).init
  { dome :=
      { driver := d, state := d.initState, retryTimers := 0, closeRetries := 0
        closeFailReported := false, quietClose := false, wanted := false, planned := false
        retried := 0 }
    running := ret = 0 }

def houseStep (h : House) : HouseEvent → House
  | .event event => if h.running then { h with dome := step h.dome event } else h
  | .restart => restart h

end D50

end Rts2.Roof
