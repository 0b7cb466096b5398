import Rts2.Teld.StraightWay
import Rts2.Teld.Telescope

/-! How the D50 mount carries out its plans: the targets it sets one after another by timers, between the moves and
parks that are started, stopped and polled. -/
namespace Rts2.Teld

open Lib

inductive D50Event where
  | BOOSTSPEED | SUCCESSIVE_POINTS
  deriving DecidableEq

/-- A timer of the mount; the time at which it was added is read by no function. -/
structure D50Timer (K : Type) where
  due : K
  event : D50Event
  since : K
  deriving DecidableEq

/-- Both drives got the target; `since` is when the timer was added that set it. -/
structure TargetSet (K : Type) where
  target : Int × Int
  since : K
  at_ : K

def Plan.WellFormed {K : Type} (p : Plan K) : Prop := p.targets.length = p.intervals.length + 1

abbrev FoundPlan (K : Type) : Type := { p : Plan K // p.WellFormed }

/-- What became of a plan: the targets that were set of it, and after it ended, and where the HA drive was sent after
the sky. -/
structure Executed (K : Type) where
  plan : Plan K
  sets : List (TargetSet K)
  follows : List Int
  ended : Bool
  late : List (TargetSet K)

/-- The fields from `current` on are read by no function. -/
structure D50 (K : Type) where
  moving : Moving
  correcting : Bool
  numberOfSuccesivePoints : Nat
  successivePoints : Nat → Int × Int
  successivePointsIntervals : Nat → K
  successivePointsActualPosition : Nat
  timers : List (D50Timer K)
  tAc : Int
  lastTargetSet : K
  backlashCrossEncoderStart : Option (Int × Int)
  current : Executed K
  past : List (Executed K)

structure D50Limits (K : Type) where
  haCpd : K
  dcMin : Int
  dcMax : Int

/-- What startResync meets: whether the dome lets the mount move, the plan, and how the backlash is crossed. -/
structure Resync (K : Type) where
  allowed : Bool
  found : Option (FoundPlan K)
  encoderTicks : Bool
  encoders : Option (Int × Int)
  moveSpeedBacklashInterval : K

structure Backlash where
  encoderTicks : Bool
  encoders : Option (Int × Int)
  backlashCrossEncoderTicks : Int
  raMoving : Bool
  decMoving : Bool

structure DriveStatus (K : Type) where
  trackingRequested : Bool
  raInPositionMode : Bool
  raMovingPosition : Bool
  raMoving : Bool
  decMoving : Bool
  counts : Option (Int × Int)
  moveTolerance : K

/-- How startResyncMove goes on: it is refused before anything is stopped, the drives do not stop, the target may not be
pointed at, or the mount is started. -/
inductive MoveStart (K : Type) where
  | refused | unstopped | inaccessible
  | resync (correction : Bool) (r : Resync K)

inductive ParkStart (K : Type) where
  | refused | unstopped | nowhere
  | park (start : MoveStart K)

inductive MountEvent (K : Type) where
  | startResyncMove (start : MoveStart K)
  | startPark (start : ParkStart K)
  | stopMove
  | checkMoves (status : DriveStatus K) (endMove : Bool) (correction : Option (MoveStart K))
  | boostspeed (timer : D50Timer K) (b : Backlash)
  | successivePoints (timer : D50Timer K)

namespace D50

variable {K : Type} [Field K] [LinearOrder K]

def noPlan : Executed K := ⟨⟨[], []⟩, [], [], true, []⟩

def init : D50 K :=
  ⟨.observing, false, 0, fun _ => (0, 0), fun _ => 0, 0, [], 0, 0, none, noPlan, []⟩

variable (lim : D50Limits K) (s : D50 K) (now : K)

def addTimer (timer_time : K) (event : D50Event) : D50 K :=
  { s with timers := s.timers ++ [⟨now + timer_time, event, now⟩] }

def deleteTimers (event : D50Event) : D50 K :=
  { s with timers := s.timers.filter (·.event ≠ event) }

def setTargetPos (set : TargetSet K) : D50 K :=
  let e := s.current
  let e := if e.ended then { e with late := e.late ++ [set] } else { e with sets := e.sets ++ [set] }
  { s with tAc := set.target.1, lastTargetSet := set.at_, current := e }

def endPlan : D50 K := { s with current := { s.current with ended := true } }

def cancelPath : D50 K :=
  { ((s.deleteTimers .BOOSTSPEED).deleteTimers .SUCCESSIVE_POINTS).endPlan with
    successivePointsActualPosition := s.numberOfSuccesivePoints }

def stopMove : D50 K := s.cancelPath

def findPath (p : FoundPlan K) : D50 K :=
  { s with
    numberOfSuccesivePoints := p.val.intervals.length
    successivePoints := fun k => p.val.targets.getD k (s.successivePoints k)
    successivePointsIntervals := fun k => p.val.intervals.getD k (s.successivePointsIntervals k)
    successivePointsActualPosition := 0 }

def crossBacklash (r : Resync K) : D50 K :=
  if r.encoderTicks then
    match r.encoders with
    | none => { s with backlashCrossEncoderStart := none }.addTimer now r.moveSpeedBacklashInterval .BOOSTSPEED
    | some encoders => { s with backlashCrossEncoderStart := some encoders }.addTimer now (1 / 10) .BOOSTSPEED
  else s.addTimer now r.moveSpeedBacklashInterval .BOOSTSPEED

def acceptPlan (plan : Plan K) : D50 K :=
  { s with past := s.past ++ [s.current], current := ⟨plan, [], [], false, []⟩ }

def startResync (r : Resync K) : D50 K × Bool :=
  let s := s.cancelPath
  if !r.allowed then (s, false)
  else
    match r.found with
    | none => (s, false)
    | some p =>
      let s := s.findPath p
      let target := s.successivePoints 0
      if target.2 < lim.dcMin ∨ lim.dcMax < target.2 then ({ s with tAc := target.1 }, false)
      else (((s.acceptPlan p.val).crossBacklash now r).setTargetPos ⟨target, now, now⟩, true)

def failMove : D50 K := { s.stopMove with moving := .observing, correcting := false }

def startResyncMove (start : MoveStart K) : D50 K × Bool :=
  if s.moving = .parking then (s, false)
  else
    let stopped := if s.moving = .moving ∨ s.correcting then s.stopMove else s
    match start with
    | .refused => (s, false)
    | .unstopped => (stopped, false)
    | .inaccessible => (stopped.failMove, false)
    | .resync correction r =>
      match { stopped with moving := .moving, correcting := correction }.startResync lim now r with
      | (s, true) => (s, true)
      | (s, false) => (s.failMove, false)

def startPark (start : ParkStart K) : D50 K :=
  if s.moving = .parking then s
  else
    let stopped := if s.moving = .moving then s.stopMove else s
    match start with
    | .refused => s
    | .unstopped => stopped
    | .nowhere => stopped.stopMove
    | .park start =>
      match stopped.stopMove.startResyncMove lim now start with
      | (s, true) => { s with moving := .parking }
      | (s, false) => s

def isMoving (status : DriveStatus K) [FloorRing K] : D50 K × Poll :=
  let wait (raInPositionMode : Bool) : Poll :=
    if status.trackingRequested ∧ raInPositionMode ∨ ¬status.trackingRequested ∧ status.raMoving ∨
        status.decMoving then .running
    else if s.successivePointsActualPosition < s.numberOfSuccesivePoints ∨ now - s.lastTargetSet < 1 then .running
    else .ended true
  if status.trackingRequested ∧ status.raInPositionMode ∧
      s.successivePointsActualPosition = s.numberOfSuccesivePoints then
    if status.raMovingPosition then
      match status.counts with
      | none => (s, .failed)
      | some (ac, _) =>
        if lim.haCpd * status.moveTolerance < |((ac - s.tAc : Int) : K)| then
          let tAc := ac + trunc (1 / 10 / 3600 * 15 * lim.haCpd)
          ({ s with tAc := tAc, current := { s.current with follows := s.current.follows ++ [tAc] } }, .running)
        else (s, wait true)
    else (s, wait false)
  else (s, wait status.raInPositionMode)

def endMove : D50 K := ((s.deleteTimers .BOOSTSPEED).deleteTimers .SUCCESSIVE_POINTS).endPlan

def endPark : D50 K := ((s.deleteTimers .BOOSTSPEED).deleteTimers .SUCCESSIVE_POINTS).endPlan

def checkMoves (status : DriveStatus K) (endMove : Bool) (correction : Option (MoveStart K)) [FloorRing K] : D50 K :=
  match s.moving with
  | .moving =>
    match s.isMoving lim now status with
    | (s, .running) => s
    | (s, .failed) => { s.endPlan with moving := .observing, correcting := false }
    | (s, .ended _) =>
      match endMove, correction with
      | true, some start => (s.endMove.startResyncMove lim now start).1
      | _, _ => { s.endMove with moving := .observing, correcting := false }
  | .parking =>
    match s.isMoving lim now status with
    | (s, .running) => s
    | (s, .failed) => { s.endPlan with moving := .parked }
    | (s, .ended _) => { s.endPark with moving := .parked }
  | .observing | .parked => s

def crossing (b : Backlash) : Bool :=
  b.encoderTicks &&
    match s.backlashCrossEncoderStart, b.encoders with
    | some start, some current =>
      (|current.1 - start.1| < b.backlashCrossEncoderTicks && b.raMoving) ||
        (|current.2 - start.2| < b.backlashCrossEncoderTicks && b.decMoving)
    | _, _ => false

def boostspeed (b : Backlash) : D50 K :=
  if s.moving = .moving ∨ s.moving = .parking then
    if s.crossing b then s.addTimer now (1 / 10) .BOOSTSPEED
    else if 0 < s.numberOfSuccesivePoints then s.addTimer now (s.successivePointsIntervals 0) .SUCCESSIVE_POINTS
    else s
  else s

def nextSuccessivePoint (since : K) : D50 K :=
  let s := { s with successivePointsActualPosition := s.successivePointsActualPosition + 1 }
  let target := s.successivePoints s.successivePointsActualPosition
  if target.2 < lim.dcMin ∨ lim.dcMax < target.2 then { s with tAc := target.1 }
  else
    let s := s.setTargetPos ⟨target, since, now⟩
    if s.successivePointsActualPosition < s.numberOfSuccesivePoints then
      s.addTimer now (s.successivePointsIntervals s.successivePointsActualPosition) .SUCCESSIVE_POINTS
    else s

def step [FloorRing K] : MountEvent K → D50 K
  | .startResyncMove start => (s.startResyncMove lim now start).1
  | .startPark start => s.startPark lim now start
  | .stopMove => s.stopMove
  | .checkMoves status endMove correction => s.checkMoves lim now status endMove correction
  | .boostspeed timer b =>
    if timer ∈ s.timers ∧ timer.event = .BOOSTSPEED ∧ timer.due < now then
      { s with timers := s.timers.erase timer }.boostspeed now b
    else s
  | .successivePoints timer =>
    if timer ∈ s.timers ∧ timer.event = .SUCCESSIVE_POINTS ∧ timer.due < now then
      { s with timers := s.timers.erase timer }.nextSuccessivePoint lim now timer.since
    else s

def after [FloorRing K] (es : List (K × MountEvent K)) : D50 K := run (fun s e => s.step lim e.1 e.2) init es

end D50

section

variable {K : Type} [Field K] [LinearOrder K] [FloorRing K] {p : D50Path K} {plan : Plan K}

omit [FloorRing K] in
theorem D50Path.twoSteps_wellFormed {acStart dcStart acFin dcFin midAC midDC : Int}
    (found : p.twoSteps acStart dcStart acFin dcFin midAC midDC = some plan) : plan.WellFormed := by
  unfold twoSteps at found
  split at found
  · split at found
    · cases found
    · split at found
      · cases found
        rfl
      · cases found
  · cases found

end

end Rts2.Teld
