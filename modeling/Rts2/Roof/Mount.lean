import Rts2.Roof.Watched

/-! The mount under the roof: it starts its moves on its own copy of the state of the dome, and tells the
dome what it does before the drives get their targets. -/
namespace Rts2.Roof

/-- What the drives do: a park, a move that was limited to the inside of the dome, or a free one. -/
inductive Motion where
  | rest | park | inside | free
  deriving DecidableEq

inductive ToDome where
  | state (moving : TelMoving)
  | insideDome (inside : Bool)
  | infotime (time : Nat)
  deriving DecidableEq

inductive ToMount where
  | state (state : DomeState)
  | roofOpened (opened : Bool)
  | infotime (time : Nat)
  | park
  | info
  deriving DecidableEq

structure ConnDome where
  connected : Bool
  ready : Bool
  infotime : Option Nat
  roofOpened : Option Bool
  state : DomeState

def ConnDome.receive (conn : ConnDome) : ToMount → ConnDome
  | .state state => { conn with state := state }
  | .roofOpened opened => { conn with roofOpened := some opened }
  | .infotime time => { conn with infotime := some time }
  | .park | .info => conn

def ConnMount.receive (conn : ConnMount) : ToDome → ConnMount
  | .state moving => { conn with moving := moving }
  | .insideDome inside => { conn with insideDome := some inside.toInt }
  | .infotime time => { conn with infotime := some time }

/-- What the mount finds when it acts. -/
structure Surroundings where
  now : Nat
  blockMove : Bool
  /-- The target is above the hard horizon. -/
  targetGood : Bool
  /-- The drives move, be it only to track. -/
  drivesMove : Bool
  /-- Drives that are stopped report so in time. -/
  stops : Bool
  /-- The mount is not below the ceiling of the closed dome. -/
  aboveCeiling : Bool
  encodersDiffer : Bool
  pathFound : Bool

structure Mount where
  moving : TelMoving
  motion : Motion
  parking : Bool
  insideDomeOnly : Bool
  connDome : ConnDome
  /-- The messages to the dome that are on their way. -/
  sent : List ToDome

namespace Mount

def send (message : ToDome) (m : Mount) : Mount := { m with sent := m.sent ++ [message] }

def maskState (moving : TelMoving) (m : Mount) : Mount := { m with moving := moving }.send (.state moving)

def setInsideDomeOnlyMovement (inside : Bool) (m : Mount) : Mount :=
  { m with insideDomeOnly := inside }.send (.insideDome inside)

def stopMove (e : Surroundings) (m : Mount) : Int × Mount :=
  if m.motion ≠ .rest ∨ e.drivesMove then
    let m := { m with parking := false }
    if e.stops then (0, { m with motion := .rest }) else (-1, m)
  else (0, m)

def getDomeState (now : Nat) (conn : ConnDome) : Int :=
  if !conn.connected then -1
  else if !conn.ready then -1
  else
    match conn.infotime with
    | none => -1
    | some infotime =>
      if infotime + 12000 < now then -1
      else
        match conn.roofOpened with
        | none => -1
        | some opened => if opened then 0 else 1

def domeCloses (conn : ConnDome) : Bool :=
  conn.connected && (conn.state = .DOME_CLOSING || conn.state = .DOME_WAIT_CLOSING)

def startDrives (park : Bool) (e : Surroundings) (m : Mount) : Int × Mount :=
  if !e.pathFound then (-1, m)
  else (0, { m with motion := if park then .park else if m.insideDomeOnly then .inside else .free })

/-- The flag that the mount parks and the park itself are not the same: the flag outlives a park that
failed. -/
def startResync (park : Bool) (e : Surroundings) (m : Mount) : Int × Mount :=
  if !m.parking ∧ domeCloses m.connDome then (-1, m)
  else if getDomeState e.now m.connDome ≠ 0 then
    if e.aboveCeiling then (-1, m)
    else if e.encodersDiffer then (-1, m)
    else (m.setInsideDomeOnlyMovement true).startDrives park e
  else (m.setInsideDomeOnlyMovement false).startDrives park e

def startResyncMove (park : Bool) (e : Surroundings) (m : Mount) : Int × Mount :=
  if e.blockMove then (-1, m)
  else if m.moving = .TEL_PARKING then (-1, m)
  else
    let (ret, m) := if m.moving = .TEL_MOVING then m.stopMove e else (0, m)
    if ret ≠ 0 then (-1, m)
    else if !e.targetGood then (-1, (m.stopMove e).2.maskState .TEL_OBSERVING)
    else
      let (ret, m) := (m.maskState .TEL_MOVING).startResync park e
      if ret ≠ 0 then (-1, (m.stopMove e).2.maskState .TEL_OBSERVING) else (0, m)

def startPark (e : Surroundings) (m : Mount) : Int × Mount :=
  if m.moving = .TEL_PARKING then (0, m)
  else if e.blockMove then (-1, m)
  else
    let (ret, m) := if m.moving = .TEL_MOVING then m.stopMove e else (0, m)
    if ret ≠ 0 then (-1, m)
    else
      let m := (m.stopMove e).2
      let (ret, m) := { m with parking := true }.startResyncMove true e
      if ret ≠ 0 then (-1, m) else (0, m.maskState .TEL_PARKING)

def endPark (good : Bool) (m : Mount) : Mount :=
  { m with parking := false, motion := .rest }.setInsideDomeOnlyMovement good

def checkMoves (isMoving : Int) (good : Bool) (m : Mount) : Mount :=
  match m.moving with
  | .TEL_MOVING =>
    if isMoving = -1 then m.maskState .TEL_OBSERVING
    else if isMoving = -2 then { m with motion := .rest }.maskState .TEL_OBSERVING
    else m
  | .TEL_PARKING =>
    if isMoving = -1 then m.maskState .TEL_PARKED
    else if isMoving = -2 then (m.endPark good).maskState .TEL_PARKED
    else m
  | _ => m

def abortMoveTracking (returns : Bool) (e : Surroundings) (m : Mount) : Mount :=
  let m := (m.stopMove e).2
  if returns then { m.setInsideDomeOnlyMovement false with motion := .free } else m

/-- What the mount does by itself, or is asked for by others than the dome. -/
inductive Call where
  | move (e : Surroundings)
  | park (e : Surroundings)
  | stop (e : Surroundings)
  | check (isMoving : Int) (good : Bool)
  | abort (returns : Bool) (e : Surroundings)
  | info (now : Nat)
  /-- The link to the dome, as the connection shows it. -/
  | link (connected ready : Bool)

def step (m : Mount) : Call → Mount
  | .move e => (m.startResyncMove false e).2
  | .park e => (m.startPark e).2
  | .stop e => (m.stopMove e).2
  | .check isMoving good => m.checkMoves isMoving good
  | .abort returns e => m.abortMoveTracking returns e
  | .info now => m.send (.infotime now)
  | .link connected ready =>
    { m with connDome := { m.connDome with connected := connected, ready := ready } }

def receive (e : Surroundings) (m : Mount) (message : ToMount) : Mount :=
  let m := { m with connDome := m.connDome.receive message }
  match message with
  | .park => (m.startPark e).2
  | .info => m.send (.infotime e.now)
  | _ => m

end Mount

structure World where
  dome : Dome D50
  mount : Mount
  /-- The messages to the mount that are on their way. -/
  toMount : List ToMount

inductive Turn where
  | dome (call : Dome.Call)
  /-- The dome sends its values. -/
  | domeInfo (now : Nat)
  | domeLink (connected ready : Bool)
  | mount (call : Mount.Call)
  | domeReceives
  | mountReceives (e : Surroundings)

namespace World

def sentStates (d : Dome D50) (call : Dome.Call) : List ToMount :=
  match call with
  | .idle true _ _ => [.state (Dome.checkOpening D50.driver d).state]
  | _ => []

def domeStep (w : World) (call : Dome.Call) : World :=
  let dome := Dome.step D50.driver w.dome call
  { w with
    dome := dome
    toMount := w.toMount ++ (sentStates w.dome call ++
      (List.replicate (dome.driver.parks - w.dome.driver.parks) .park ++ [.state dome.state])) }

def domeInfo (w : World) (now : Nat) : World :=
  let (ret, driver) := w.dome.driver.zjisti_stav_portu
  let w := { w with dome := { w.dome with driver := driver } }
  if ret ≠ 0 then w
  else
    { w with toMount := w.toMount ++
        [.info, .roofOpened (driver.getPortState .KONCAK_OTEVRENI), .infotime now] }

def setConnMount (w : World) (conn : ConnMount) : World :=
  { w with dome := { w.dome with driver := { w.dome.driver with connMount := conn } } }

def step (w : World) : Turn → World
  | .dome call => w.domeStep call
  | .domeInfo now => w.domeInfo now
  | .domeLink connected ready =>
    w.setConnMount { w.dome.driver.connMount with connected := connected, ready := ready }
  | .mount call => { w with mount := w.mount.step call }
  | .domeReceives =>
    match w.mount.sent with
    | [] => w
    | message :: rest =>
      { w.setConnMount (w.dome.driver.connMount.receive message) with
        mount := { w.mount with sent := rest } }
  | .mountReceives e =>
    match w.toMount with
    | [] => w
    | message :: rest => { w with mount := w.mount.receive e message, toMount := rest }

end World

end Rts2.Roof
