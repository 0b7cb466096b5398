import Rts2.Lib.Run

/-! The part of a telescope driver that all mounts share: the target, the offsets and corrections added to it, the moves
and parks that are started on the mount, and what blocks them. Positions are of `P`, offsets and corrections of the group `A`;
the mount is what an event says it answers. -/
namespace Rts2.Teld

inductive Moving where
  | observing | moving | parked | parking
  deriving DecidableEq

inductive Phase where
  | day | evening | dusk | night | dawn | morning | unknown
  deriving DecidableEq

/-- What the central server says; `offOrStandby` is any of its states but on. -/
structure MasterState where
  stopEverything : Bool
  offOrStandby : Bool
  phase : Phase
  deriving DecidableEq

inductive Motion where
  | startResync | startPark | runTracking
  deriving DecidableEq

/-- The fields from `calls` on are read by no function: the motions that were called, each with block_move at the time;
whether a move or park was started whose end the mount did not tell; the corrections whose move was started since the last
number; how many corrections were stored, and which of them were added; the number of the move that was started last, and of
the one that arrived with nothing moved since; and what the move that the event tried came to. -/
structure Telescope (P A : Type) where
  moving : Moving
  correcting : Bool
  tracks : Bool
  bopExposure : Bool
  hasTracking : Bool
  tracking : Nat
  defaultTracking : Nat
  trackingTimer : Bool
  parkingBlockMove : Bool
  blockMove : Bool
  blockOnStandby : Bool
  standbyPark : Nat
  masterState : MasterState
  ori : Option P
  oriChanged : Bool
  mpec : String
  mpecChanged : Bool
  offs : A
  woffs : A
  woffsChanged : Bool
  corr : A
  wcorr : A
  wcorrChanged : Bool
  corrImgId : Int
  corrObsId : Int
  wCorrImgId : Int
  wCorrObsId : Int
  moveNum : Nat
  moveCompleted : Bool
  ignoreCorrection : ℚ
  defIgnoreCorrection : ℚ
  smallCorrection : ℚ
  calls : List (Motion × Bool)
  going : Bool
  applied : List A
  stored : Nat
  added : List Nat
  startedNum : Nat
  arrived : Option Nat
  lastMove : Option Bool

/-- How a move goes: where the orbit is, whether the mount stops, whether the target is above the horizon and within the
declinations that are allowed, and whether the mount starts to move. -/
structure Outcome (P : Type) where
  orbit : P
  stops : Bool
  accessible : Bool
  starts : Bool

/-- How a park goes: whether the mount stops, and what it answers; `some true` is that the targets are forgotten. -/
structure ParkOutcome where
  stops : Bool
  starts : Option Bool

/-- What the mount says of a move or park under way; `ended` has what the driver makes of the end. -/
inductive Poll where
  | running | failed | ended (ok : Bool)
  deriving DecidableEq

namespace Telescope

variable {P A : Type} [DecidableEq P] [AddCommGroup A] [DecidableEq A] (m : Telescope P A)

def setOri (p : Option P) : Telescope P A :=
  { m with ori := p, oriChanged := m.oriChanged || decide (p = none ∨ m.ori ≠ p) }

def setMpec (orbit : String) : Telescope P A :=
  { m with mpec := orbit, mpecChanged := m.mpecChanged || decide (m.mpec ≠ orbit) }

def setWoffs (a : A) : Telescope P A :=
  { m with woffs := a, woffsChanged := m.woffsChanged || decide (m.woffs ≠ a) }

def setWcorr (a : A) : Telescope P A :=
  { m with wcorr := a, wcorrChanged := m.wcorrChanged || decide (m.wcorr ≠ a) }

def call (motion : Motion) : Telescope P A := { m with calls := m.calls ++ [(motion, m.blockMove)] }

def runTracking : Telescope P A := m.call .runTracking

def setTracking (track : Nat) (addTrackingTimer stopMsg : Bool) : Telescope P A :=
  if m.hasTracking = false then m
  else
    let m := { m with tracking := track, trackingTimer := false }
    if track = 1 ∨ track = 2 ∨ track = 3 then
      let m := { m with tracks := true }
      if addTrackingTimer then { m.runTracking with trackingTimer := true } else m
    else if stopMsg then { m with tracks := false } else m

def startTracking (check : Bool) : Telescope P A :=
  let m := if m.hasTracking ∧ check ∧ m.tracking = 0 then { m with tracking := m.defaultTracking } else m
  m.setTracking m.tracking true false

def stopTracking (stopMsg : Bool) : Telescope P A := m.setTracking 0 false stopMsg

theorem stopTracking_eq (stopMsg : Bool) :
    ∃ track timer tracks, m.stopTracking stopMsg = { m with tracking := track, trackingTimer := timer, tracks := tracks } := by
  have off : ¬(0 = 1 ∨ 0 = 2 ∨ 0 = 3) := by decide
  unfold stopTracking setTracking
  by_cases has : m.hasTracking = false
  · rw [if_pos has]
    exact ⟨_, _, _, rfl⟩
  · rw [if_neg has]
    simp only [if_neg off]
    cases stopMsg <;> exact ⟨_, _, _, rfl⟩

theorem setTracking_eq (track : Nat) (addTrackingTimer stopMsg : Bool) :
    ∃ track' timer tracks calls, m.setTracking track addTrackingTimer stopMsg =
      { m with tracking := track', trackingTimer := timer, tracks := tracks, calls := calls } := by
  unfold setTracking
  by_cases has : m.hasTracking = false
  · rw [if_pos has]
    exact ⟨_, _, _, _, rfl⟩
  · rw [if_neg has]
    dsimp only
    split_ifs <;> exact ⟨_, _, _, _, rfl⟩

theorem startTracking_eq (check : Bool) :
    ∃ track timer tracks calls, m.startTracking check =
      { m with tracking := track, trackingTimer := timer, tracks := tracks, calls := calls } := by
  unfold startTracking
  dsimp only
  split
  · obtain ⟨track, timer, tracks, calls, set⟩ :=
      setTracking_eq { m with tracking := m.defaultTracking } m.defaultTracking true false
    exact ⟨track, timer, tracks, calls, set⟩
  · exact m.setTracking_eq _ true false

def incMoveNum : Telescope P A :=
  { m with
    offs := 0
    woffs := 0
    woffsChanged := false
    corr := 0
    wcorr := 0
    wcorrChanged := false
    moveNum := m.moveNum + 1
    ignoreCorrection := m.defIgnoreCorrection
    corrImgId := 0
    corrObsId := 0
    wCorrImgId := 0
    wCorrObsId := 0
    applied := [] }

/-- The start of startResyncMove, up to where the target is known; that of a minor planet moves. -/
def targeted (orbit : P) : Telescope P A :=
  let m := { m with moveCompleted := false }
  if m.mpec ≠ "" then m.setOri (some orbit) else m

def Located : Prop := m.mpec ≠ "" ∨ m.ori ≠ none

theorem targeted_located (orbit : P) : (m.targeted orbit).ori ≠ none ↔ m.Located := by
  unfold targeted Located
  by_cases planet : m.mpec = "" <;> simp [planet, setOri]

def newTarget : Bool := if m.mpec ≠ "" then m.mpecChanged else m.oriChanged

def renumbered : Telescope P A := if m.newTarget then m.incMoveNum else m

def corrected : Telescope P A :=
  let m := if m.wcorrChanged then
    { m with
      corr := m.corr + m.wcorr
      corrImgId := m.wCorrImgId
      corrObsId := m.wCorrObsId
      added := m.added ++ [m.stored] } else m
  if m.woffsChanged then { m with offs := m.woffs } else m

def rollback (before : Telescope P A) : Telescope P A :=
  if before.wcorrChanged then
    { m with
      corr := before.corr
      corrImgId := before.corrImgId
      corrObsId := before.corrObsId
      wcorr := 0
      wcorrChanged := false }
  else m

def inaccessible : Telescope P A :=
  { (m.setOri none).stopTracking false with
    correcting := false
    moving := .observing
    bopExposure := false
    tracks := false }

def moveStarted (correction : Bool) : Telescope P A :=
  let m := { m with moving := .moving, correcting := correction, bopExposure := true }
  if correction then m else { m with tracks := false }

def movementFailed : Telescope P A :=
  { m.stopTracking false with
    correcting := false
    moving := .observing
    bopExposure := false
    tracks := false }

def moves : Telescope P A :=
  { m with
    oriChanged := false
    mpecChanged := false
    woffsChanged := false
    wcorr := if m.wcorrChanged then 0 else m.wcorr
    wcorrChanged := false
    going := true
    startedNum := m.moveNum
    applied := if m.wcorrChanged then m.applied ++ [m.wcorr] else m.applied }

def refuses (o : Outcome P) : Bool :=
  m.blockMove || m.parkingBlockMove && decide (m.moving = .parking) ||
    (decide (m.moving = .moving) || m.correcting) && !o.stops

theorem prepared_refuses (o : Outcome P) : m.renumbered.corrected.refuses o = m.refuses o := by
  unfold renumbered corrected
  dsimp only
  split_ifs <;> rfl

/-- The part of startResyncMove after the target is known: the state it leaves and whether the mount moves. -/
def resync (o : Outcome P) (correction : Bool) : Telescope P A × Bool :=
  let before := m.renumbered
  let m := before.corrected
  if m.refuses o then (m.rollback before, false)
  else if o.accessible = false then (m.inaccessible.rollback before, false)
  else
    let m := { (m.moveStarted correction).call .startResync with arrived := none }
    if o.starts then (m.moves, true) else (m.movementFailed.rollback before, false)

def startResyncMove (o : Outcome P) (correction : Bool) : Telescope P A × Bool :=
  let m := m.targeted o.orbit
  let (m, ok) := if m.ori = none then (m, false) else m.resync o correction
  ({ m with lastMove := some ok }, ok)

def toldToPark : Telescope P A := { m.call .startPark with moveCompleted := false, arrived := none }

def parks (forget : Bool) : Telescope P A :=
  let m := if forget then { m with ori := none, oriChanged := false } else m
  { m.incMoveNum with moving := .parking, tracks := false, going := true }

def startPark (o : ParkOutcome) : Telescope P A :=
  if m.moving = .parking ∨ m.blockMove then m
  else
    let m := { m.setMpec "" with tracks := false }
    if m.moving = .moving ∧ o.stops = false then m
    else
      let m := (m.stopTracking true).toldToPark
      match o.starts with
      | none => m
      | some forget => m.parks forget

theorem startPark_blockOnStandby (m : Telescope P A) (o : ParkOutcome) :
    (m.startPark o).blockOnStandby = m.blockOnStandby := by
  obtain ⟨_, _, _, stopped⟩ := stopTracking_eq { m.setMpec "" with tracks := false } true
  unfold startPark
  dsimp only
  rw [stopped]
  split
  · rfl
  · split
    · rfl
    · cases o.starts with
      | none => rfl
      | some forget => cases forget <;> rfl

end Telescope

/-- A correct command: the move it was measured for, the image and observation last used for a correction then, the image
and observation it was measured from, the correction and the error. -/
structure Correction (A : Type) where
  corMark : Nat
  corrImg : Int
  corrObs : Int
  imgId : Int
  obsId : Int
  total : A
  posErr : ℚ

inductive Answer where
  | accepted | ignored
  deriving DecidableEq

namespace Telescope

variable {P A : Type} [DecidableEq P] [AddCommGroup A] [DecidableEq A] (m : Telescope P A)

def measured (c : Correction A) : Bool :=
  decide (c.corMark = m.moveNum) && m.moveCompleted && decide (c.corrImg = m.corrImgId ∧ c.corrObs = m.corrObsId) &&
    decide (c.obsId > m.wCorrObsId ∨ c.imgId > m.wCorrImgId)

def correct (c : Correction A) : Telescope P A × Answer :=
  if m.measured c = false then (m, .ignored)
  else if c.posErr < m.ignoreCorrection then (m, .ignored)
  else
    let m := { m.setWcorr c.total with wCorrImgId := c.imgId, wCorrObsId := c.obsId, stored := m.stored + 1 }
    if c.posErr < m.smallCorrection then (m, .ignored) else ({ m with bopExposure := true }, .accepted)

def moveTo (o : Outcome P) : Telescope P A :=
  let (m, ok) := (m.startTracking true).startResyncMove o false
  if ok then m else m.stopTracking true

def endMove (ok : Bool) : Telescope P A := if ok then m.startTracking false else m

def correction : Bool := m.woffsChanged || m.wcorrChanged

def observes : Telescope P A := { m with correcting := false, moving := .observing, bopExposure := false }

def parked : Telescope P A := { m with moving := .parked, bopExposure := false }

def checkMoves (poll : Poll) (o : Outcome P) : Telescope P A :=
  match m.moving with
  | .observing | .parked => m
  | .moving =>
    match poll with
    | .running => m
    | .failed => { m.observes with going := false }
    | .ended ok =>
      let m := { m.endMove ok with going := false }
      if ok = false then m.observes
      else
        let m := { m with moveCompleted := true, arrived := some m.startedNum }
        if m.correction then (m.startResyncMove o true).1 else m.observes
  | .parking =>
    match poll with
    | .running => m
    | .failed => { m.parked with going := false }
    | .ended _ => { m.parked with going := false }

/-- Parking on a change of the central server's state: at day, off or on standby, as standby_park has it. -/
def parksOnStandby (new : MasterState) : Bool :=
  (decide (new.phase = .day) || new.offOrStandby) && decide (m.standbyPark ≠ 0) &&
    (decide (m.standbyPark = 2) || decide (new.phase ≠ .night ∧ new.phase ≠ .dusk ∧ new.phase ≠ .dawn)) &&
    decide (m.moving ≠ .parked ∧ m.moving ≠ .parking)

/-- Stopping blocks, and the end of it frees. No telescope has STOP_EVERYTHING in its own state, which the test looks at. -/
def stopRule (new : MasterState) : Telescope P A :=
  if new.stopEverything then { m with masterState := new, blockMove := true }.stopTracking true
  else if m.masterState.stopEverything then { m with masterState := new, blockMove := false }
  else { m with masterState := new }

def standbyRule (old new : MasterState) : Telescope P A :=
  if m.blockOnStandby = false then m
  else if new.offOrStandby then { m with blockMove := true }
  else if old.offOrStandby then { m with blockMove := false }
  else m

def changeMasterState (new : MasterState) (o : ParkOutcome) : Telescope P A :=
  let m' := m.stopRule new
  let m' := if m'.parksOnStandby new then m'.startPark o else m'
  m'.standbyRule m.masterState new

def setFullBopState (telMove : Bool) (o : Outcome P) : Telescope P A :=
  if m.correction ∧ telMove = false then (m.startResyncMove o true).1 else m

def wormStart : Telescope P A :=
  if m.blockMove ∨ m.moving = .parking ∨ m.moving = .parked then m else m.startTracking true

def writeTracking (track : Nat) : Telescope P A :=
  if m.hasTracking = false ∨ track = m.tracking then m
  else if track = 1 ∧ (m.blockMove ∨ m.moving = .parking ∨ m.moving = .parked) then m
  else m.setTracking track true false

def moveAltAz (p : Option P) (o : Outcome P) : Telescope P A :=
  match p with
  | none => m
  | some p => ((m.setOri (some p)).startResyncMove o false).1

end Telescope

/-- The commands and values of clients, the timer, the mount's and the central server's news. A position given by altitude
and azimuth is where it is at the time; `valid` is that the orbit is one. -/
inductive Event (P A : Type) where
  | move (p : P) (o : Outcome P)
  | moveMpec (orbit : String) (valid : Bool) (o : Outcome P)
  | altAz (p : Option P) (o : Outcome P)
  | resync (p : P) (o : Outcome P)
  | writeOri (p : Option P) (o : Outcome P)
  | writeMpec (orbit : String) (valid : Bool) (o : Outcome P)
  | writeTarAltAz (p : Option P) (o : Outcome P)
  | writeOffs (a : A) (o : Outcome P)
  | writeWoffs (a : A)
  | writeOffsAltAz
  | change (a : A) (o : Outcome P)
  | correct (c : Correction A)
  | park (o : ParkOutcome)
  | stop
  | wormStop
  | wormStart
  | writeTracking (track : Nat)
  | writeSettings (blockOnStandby : Bool) (standbyPark defaultTracking : Nat) (ignore defIgnore small : ℚ)
  | trackingTimer
  | checkMoves (poll : Poll) (o : Outcome P)
  | belowHorizon
  | masterState (new : MasterState) (o : ParkOutcome)
  | bopState (telMove : Bool) (o : Outcome P)
  | scriptEnds

namespace Telescope

variable {P A : Type} [DecidableEq P] [AddCommGroup A] [DecidableEq A] (m : Telescope P A)

def handle : Event P A → Telescope P A
  | .move p o => ((m.setOri (some p)).setMpec "").moveTo o
  | .moveMpec orbit valid o => if valid then (m.setMpec orbit).moveTo o else m.setMpec orbit
  | .altAz p o => ((m.setMpec "").stopTracking true).moveAltAz p o
  | .resync p o => (((m.setOri (some p)).setMpec "").startResyncMove o false).1
  | .writeOri p o =>
    if p ≠ none ∧ m.ori = p then m else (((m.setOri p).setMpec "").startResyncMove o false).1
  | .writeMpec orbit valid o =>
    if m.mpec = orbit ∨ valid = false then m else ((m.setMpec orbit).startResyncMove o false).1
  | .writeTarAltAz p o => m.moveAltAz p o
  | .writeOffs a o => if m.offs = a then m else ({ m with offs := a }.startResyncMove o false).1
  | .writeWoffs a => if m.woffs = a then m else { m.setWoffs a with bopExposure := true }
  | .writeOffsAltAz => { m with arrived := none }
  | .change a o => ({ m.setWoffs (m.woffs + a) with offs := m.offs + a }.startResyncMove o true).1
  | .correct c => (m.correct c).1
  | .park o => m.startPark o
  | .stop => m.stopTracking true
  | .wormStop => m.stopTracking true
  | .wormStart => m.wormStart
  | .writeTracking track => m.writeTracking track
  | .writeSettings blockOnStandby standbyPark defaultTracking ignore defIgnore small =>
    { m with
      blockOnStandby := blockOnStandby
      standbyPark := standbyPark
      defaultTracking := defaultTracking
      ignoreCorrection := ignore
      defIgnoreCorrection := defIgnore
      smallCorrection := small }
  | .trackingTimer =>
    if m.trackingTimer = false then m
    else if m.tracks then m.runTracking
    else { m with trackingTimer := false }
  | .checkMoves poll o => m.checkMoves poll o
  | .belowHorizon => m.stopTracking true
  | .masterState new o => m.changeMasterState new o
  | .bopState telMove o => m.setFullBopState telMove o
  | .scriptEnds => m.setWoffs 0

def step (m : Telescope P A) (e : Event P A) : Telescope P A := { m with lastMove := none }.handle e

def fresh (hasTracking parkingBlockMove blockOnStandby : Bool) (standbyPark : Nat) (ori : Option P) : Telescope P A where
  moving := .observing
  correcting := false
  tracks := false
  bopExposure := false
  hasTracking := hasTracking
  tracking := 0
  defaultTracking := 1
  trackingTimer := false
  parkingBlockMove := parkingBlockMove
  blockMove := false
  blockOnStandby := blockOnStandby
  standbyPark := standbyPark
  masterState := { stopEverything := false, offOrStandby := true, phase := .day }
  ori := ori
  oriChanged := true
  mpec := ""
  mpecChanged := false
  offs := 0
  woffs := 0
  woffsChanged := false
  corr := 0
  wcorr := 0
  wcorrChanged := false
  corrImgId := 0
  corrObsId := 0
  wCorrImgId := 0
  wCorrObsId := 0
  moveNum := 0
  moveCompleted := false
  ignoreCorrection := 0
  defIgnoreCorrection := 0
  smallCorrection := 0
  calls := []
  going := false
  applied := []
  stored := 0
  added := []
  startedNum := 0
  arrived := none
  lastMove := none

end Telescope
end Rts2.Teld
