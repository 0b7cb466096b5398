import Rts2.Lib.Run

/-! A Gemini mount behind UDP: the handshake of its startup, its axis counters, and the driver's verdict on them. One
thread talks to the mount and writes the status; the other reads it, judges, and takes commands. -/
namespace Rts2.Gemini

inductive Trust where
  | unknown | confirmed | assumed | lost
  deriving DecidableEq

inductive StartupMode where
  | none | restart | warm | cold
  deriving DecidableEq

def StartupMode.letter : StartupMode → Option Char
  | .none => Option.none
  | .restart => some 'R'
  | .warm => some 'W'
  | .cold => some 'C'

inductive RezeroState where
  | idle | stopping | moving | settling | rebooting
  deriving DecidableEq

/-- Why the verdict is what it is; the texts with numbers in them are kept as they are. -/
inductive Reason where
  | notRead
  | saved (text : String)
  | bootMenu
  | counterJumped
  | lostBeforeRestart (before : Reason)
  | unmoved
  | startedAtCwd (mode : StartupMode)
  | notStartedAtCwd
  | stillLost (saved : Reason)
  | resetWhileAway
  | alreadyRunning (wasConfirmed : Bool)
  | startupMode (selection : Char)
  | backAtCwd
  | countersKept (selection : Char)
  | operatorOk
  | operatorLost
  | astrometry (text : String)
  | rezeroAborted (why : String)
  | rezeroNotBack
  | rezeroNotAtCwd
  | rezeroed
  | incident (text : String)
  deriving DecidableEq

/-- Half a circle of each axis, which the counters show counterweight down, and the limits of the RA axis. -/
structure Geometry where
  raHalf : Int
  decHalf : Int
  eastLimit : Int
  westLimit : Int
  deriving DecidableEq

/-- What the thread that talks to the mount shares; readings of the axes are stamped with their number. -/
structure Status where
  connected : Bool
  slewing : Bool
  moveInProgress : Bool
  parking : Bool
  startupState : Char
  startupComplete : Bool
  startupCount : Nat
  startupSelections : Nat
  bootObserved : Bool
  bootSelection : Char
  geometry : Option Geometry
  axisValid : Bool
  raAxisTicks : Int
  decAxisTicks : Int
  axisTimestamp : Nat

inductive PostStartup where
  | done | geometry | axis | rest
  deriving DecidableEq

/-- The fields from `last` on are read by no function: the Dec counters of the last two readings, that of an earlier run at
first, and those of the last readings before each boot that is under way, and each whose startup was not judged. -/
structure Mount where
  status : Status
  startupMode : StartupMode
  forcedSelection : StartupMode
  postStartup : PostStartup
  positionTrust : Trust
  positionReason : Reason
  lostOnlyForBootMenu : Bool
  pendingHumanStartup : Option StartupMode
  savedTrust : Trust
  savedReason : Reason
  savedDecTicks : Option Int
  lastDecTicks : Option Int
  lastAxisSampleTimestamp : Nat
  lastMotionAt : ℚ
  lastStartupCount : Nat
  rezeroState : RezeroState
  rezeroSince : ℚ
  rezeroTargetRa : Int
  rezeroTargetDec : Int
  rezeroStableCount : Nat
  rezeroLastRa : Int
  rezeroLastDec : Int
  rezeroLastSample : Nat
  rezeroStartupBaseline : Nat
  last : Option Int
  previous : Option Int
  booting : List Int
  booted : List Int

def maxStartupSelections : Nat := 5

namespace Mount

variable (m : Mount)

def setStatus (st : Status) : Mount := { m with status := st }

def boot (st : Status) : Mount := { m with status := st, booting := m.booting ++ m.last.toList }

def requestReboot (selection : StartupMode) : Mount :=
  let m := m.boot { m.status with
    startupComplete := false
    startupState := '?'
    startupSelections := 0
    moveInProgress := false
    parking := false
    geometry := none
    axisValid := false
    bootObserved := true
    bootSelection := '?' }
  if selection = .none then m else { m with forcedSelection := selection }

def notUp (response : Char) : Mount :=
  let st := { m.status with connected := true, startupState := response }
  let st' := { st with startupComplete := false, bootObserved := true }
  if st.startupComplete ∨ st.bootObserved = false then m.boot { st' with bootSelection := '?' } else m.setStatus st'

def answerBootMenu : Mount :=
  match (if m.forcedSelection = .none then m.startupMode else m.forcedSelection).letter with
  | none => m
  | some letter =>
    if m.status.startupSelections < maxStartupSelections then
      m.setStatus { m.status with startupSelections := m.status.startupSelections + 1, bootSelection := letter }
    else m

def pollStartupState : Option Char → Mount
  | none => m.setStatus { m.status with connected := false }
  | some 'b' => (m.notUp 'b').answerBootMenu
  | some response =>
    if response = 'G' ∨ response = 'A' then
      let m := m.setStatus { m.status with connected := true, startupState := response }
      if m.status.startupComplete then m else { m with postStartup := .geometry }
    else m.notUp response

def readGeometry : Option Geometry → Mount
  | none => m
  | some g => m.setStatus { m.status with geometry := some g }

def pollAxisPosition : Option (Int × Int) → Mount
  | none => m
  | some (ra, dec) =>
    { m with
      status := { m.status with
        axisValid := true
        raAxisTicks := ra
        decAxisTicks := dec
        axisTimestamp := m.status.axisTimestamp + 1 }
      last := some dec
      previous := m.last }

def startedUp : Mount :=
  { m with
    status := { m.status with
      startupComplete := true
      startupSelections := 0
      startupCount := m.status.startupCount + 1 }
    forcedSelection := .none
    postStartup := .done
    booting := []
    booted := m.booted ++ m.booting }

def positionLost : Bool := m.positionTrust = .lost

/-- The evidence from the sky is cleared besides, whatever moves is stopped, and the verdict is saved. -/
def setPositionTrust (trust : Trust) (reason : Reason) : Mount :=
  if trust = m.positionTrust ∧ reason = m.positionReason then m
  else { m with positionTrust := trust, positionReason := reason, lostOnlyForBootMenu := false }

def setRezeroState (newState : RezeroState) (now : ℚ) : Mount :=
  { m with rezeroState := newState, rezeroSince := now, rezeroStableCount := 0 }

def abortRezero (why : String) (now : ℚ) : Mount :=
  (m.setRezeroState .idle now).setPositionTrust .lost (.rezeroAborted why)

end Mount

def Status.atCwd (st : Status) : Bool := st.axisValid && st.geometry.any (·.decHalf = st.decAxisTicks)

def Status.away (st : Status) (dec : Option Int) : Bool :=
  dec.any fun dec => st.geometry.any (·.decHalf ≠ dec)

namespace Mount

variable (m : Mount)

def carriedLost : Bool := m.lastStartupCount = 1 && m.savedTrust = .lost

def judgeHumanStartup (st : Status) (said : StartupMode) : Mount :=
  if said = .restart then
    if m.carriedLost ∨ m.positionLost ∧ m.lostOnlyForBootMenu = false then
      m.setPositionTrust .lost (.lostBeforeRestart m.positionReason)
    else m.setPositionTrust .assumed .unmoved
  else if st.atCwd then m.setPositionTrust .assumed (.startedAtCwd said)
  else m.setPositionTrust .lost .notStartedAtCwd

def judgeOwnStartup (st : Status) : Mount :=
  if st.bootObserved = false then
    if m.lastStartupCount > 1 then m
    else if m.carriedLost then m.setPositionTrust .lost (.stillLost m.savedReason)
    else if st.atCwd ∧ st.away m.savedDecTicks then m.setPositionTrust .lost .resetWhileAway
    else m.setPositionTrust .assumed (.alreadyRunning (m.savedTrust = .confirmed))
  else if st.bootSelection = 'W' ∨ st.bootSelection = 'C' then
    m.setPositionTrust .lost (.startupMode st.bootSelection)
  else if st.atCwd ∧ ¬m.lastDecTicks.any (fun dec => st.geometry.any (·.decHalf = dec)) then
    m.setPositionTrust .lost .backAtCwd
  else if m.carriedLost then m.setPositionTrust .lost (.stillLost m.savedReason)
  else if m.positionLost then m
  else m.setPositionTrust .assumed (.countersKept st.bootSelection)

def judgeStartup (st : Status) : Mount :=
  if m.rezeroState = .rebooting then m
  else
    let m := if st.axisValid then
      { m with lastDecTicks := some st.decAxisTicks, lastAxisSampleTimestamp := st.axisTimestamp } else m
    match m.pendingHumanStartup with
    | some said => { m with pendingHumanStartup := none }.judgeHumanStartup st said
    | none => m.judgeOwnStartup st

def checkBootMenu (st : Status) : Mount :=
  if st.connected = true ∧ st.startupState = 'b' ∧ m.pendingHumanStartup = none ∧ m.rezeroState = .idle ∧
      m.startupMode = .none ∧ m.positionLost = false then
    { m.setPositionTrust .lost .bootMenu with lostOnlyForBootMenu := true }
  else m

def checkStartup (st : Status) : Mount :=
  let m := m.checkBootMenu st
  if st.startupCount = m.lastStartupCount then m
  else { { m with lastStartupCount := st.startupCount }.judgeStartup st with booted := [] }

def checkPositionEvidence (st : Status) (now : ℚ) : Mount :=
  let m := if st.moveInProgress ∨ st.parking ∨ m.rezeroState ≠ .idle then { m with lastMotionAt := now } else m
  if st.axisValid = false ∨ st.geometry = none ∨ st.axisTimestamp = m.lastAxisSampleTimestamp then m
  else
    let m := { m with lastAxisSampleTimestamp := st.axisTimestamp }
    let m :=
      if st.atCwd ∧ st.away m.lastDecTicks ∧ now - m.lastMotionAt > 10 ∧ m.pendingHumanStartup = none ∧
          m.rezeroState = .idle then
        m.setPositionTrust .lost .counterJumped
      else m
    { m with lastDecTicks := some st.decAxisTicks }

/-- A re-zero steps both axes to where the counters would read counterweight down, and starts the mount cold there. -/
def beginRezero (targetRa targetDec : Int) (now : ℚ) : Mount :=
  match m.status.geometry with
  | none => m
  | some g =>
    if m.rezeroState = .idle ∧ m.status.startupComplete = true ∧ m.status.axisValid = true ∧ m.status.parking = false ∧
        g.westLimit < targetRa ∧ targetRa < g.eastLimit ∧ 0 < targetDec ∧ targetDec < 2 * g.decHalf then
      { m with rezeroTargetRa := targetRa, rezeroTargetDec := targetDec }.setRezeroState .stopping now
    else m

def rezeroWaits (elapsed now : ℚ) : Mount :=
  if elapsed > 300 then (m.setRezeroState .idle now).setPositionTrust .lost .rezeroNotBack else m

def runRezero (st : Status) (now : ℚ) (accepted : Bool) : Mount :=
  let elapsed := now - m.rezeroSince
  let newSample := st.axisValid && decide (st.axisTimestamp ≠ m.rezeroLastSample)
  match m.rezeroState with
  | .idle => m
  | .stopping =>
    if elapsed < 3 ∨ st.slewing = true then if elapsed > 30 then m.abortRezero "the mount did not stop" now else m
    else if accepted then m.setRezeroState .moving now
    else m.abortRezero "the mount refused" now
  | .moving =>
    if elapsed > 300 then m.abortRezero "the axes did not reach the target counters within 300 s" now
    else if newSample = false then m
    else
      let tolerance : ℚ := max 4 (5 / 3600 * ((st.geometry.elim 0 Geometry.raHalf : Int) / 180))
      let there := decide (|(st.raAxisTicks - m.rezeroTargetRa : ℚ)| ≤ tolerance ∧
        |(st.decAxisTicks - m.rezeroTargetDec : ℚ)| ≤ tolerance) && !st.slewing
      let m := { m with
        rezeroLastSample := st.axisTimestamp
        rezeroStableCount := if there then m.rezeroStableCount + 1 else 0 }
      if m.rezeroStableCount ≥ 2 then
        { m with rezeroLastRa := st.raAxisTicks, rezeroLastDec := st.decAxisTicks }.setRezeroState .settling now
      else m
  | .settling =>
    if elapsed > 60 then m.abortRezero "the axes did not come to rest at the target counters" now
    else if newSample = false then m
    else
      let still := decide (|st.raAxisTicks - m.rezeroLastRa| ≤ 1 ∧ |st.decAxisTicks - m.rezeroLastDec| ≤ 1)
      let m := { m with
        rezeroLastSample := st.axisTimestamp
        rezeroLastRa := st.raAxisTicks
        rezeroLastDec := st.decAxisTicks
        rezeroStableCount := if still then m.rezeroStableCount + 1 else 0 }
      if m.rezeroStableCount < 2 then m
      else ({ m with rezeroStartupBaseline := st.startupCount }.requestReboot .cold).setRezeroState .rebooting now
  | .rebooting =>
    match st.geometry with
    | none => m.rezeroWaits elapsed now
    | some g =>
      if st.startupCount = m.rezeroStartupBaseline ∨ st.axisValid = false then m.rezeroWaits elapsed now
      else
        let allowedRa : ℚ := 4 + elapsed * (1504106858 / 100000000) / 3600 * (g.raHalf / 180)
        let m' := m.setRezeroState .idle now
        if st.decAxisTicks = g.decHalf ∧ |(st.raAxisTicks - g.raHalf : ℚ)| ≤ allowedRa then
          m'.setPositionTrust .confirmed .rezeroed
        else m'.setPositionTrust .lost .rezeroNotAtCwd

end Mount

/-- What the operator says with the position command; `allowed` is that no safety recovery runs. -/
inductive Position where
  | ok (allowed : Bool)
  | lost
  | unmoved
  | cwd (warm : Bool)
  | rezero (targetRa targetDec : Int)
  | abort

/-- What the thread that talks to the mount does, what the driver does, and what it is told. -/
inductive Event where
  | handshake (response : Option Char)
  | readGeometry (g : Option Geometry)
  | readAxis (ticks : Option (Int × Int))
  | startedUp
  | polled (connected slewing : Bool)
  | motion (moveInProgress parking : Bool)
  | info
  | idle (now : ℚ) (accepted : Bool)
  | position (said : Position) (now : ℚ)
  | setStartupMode (mode : StartupMode)
  | reset
  | automaticRezero (targetRa targetDec : Int) (now : ℚ)
  | stop (now : ℚ)
  | astrometry (agrees : Bool) (text : String)
  | incident (text : String)

namespace Mount

variable (m : Mount)

def selectStartup (mode : StartupMode) : Mount :=
  { m.setStatus { m.status with startupSelections := 0 } with forcedSelection := mode }

def inBootMenu : Bool := m.status.connected && m.status.startupState = 'b'

def positionCommand (said : Position) (now : ℚ) : Mount :=
  if m.rezeroState ≠ .idle then
    match said with
    | .abort => if m.rezeroState = .rebooting then m else m.abortRezero "aborted by operator" now
    | _ => m
  else
    match said with
    | .abort => m
    | .rezero targetRa targetDec => m.beginRezero targetRa targetDec now
    | .ok allowed => if m.status.startupComplete ∧ allowed then m.setPositionTrust .assumed .operatorOk else m
    | .lost => m.setPositionTrust .lost .operatorLost
    | .unmoved =>
      if m.inBootMenu then { m with pendingHumanStartup := some .restart }.selectStartup .restart else m
    | .cwd warm =>
      let mode := if warm then StartupMode.warm else .cold
      if m.inBootMenu then { m with pendingHumanStartup := some mode }.selectStartup mode
      else if m.status.moveInProgress ∨ m.status.parking ∨ m.status.slewing then { m with pendingHumanStartup := none }
      else { m with pendingHumanStartup := some mode }.requestReboot mode

def evaluateSkyEvidence (agrees : Bool) (text : String) : Mount :=
  if m.rezeroState ≠ .idle ∨ m.positionLost then m
  else if agrees then if m.positionTrust = .confirmed then m else m.setPositionTrust .confirmed (.astrometry text)
  else m.setPositionTrust .lost (.astrometry text)

def stopMove (now : ℚ) : Mount :=
  if m.rezeroState ≠ .idle ∧ m.rezeroState ≠ .rebooting then m.abortRezero "stop command" now else m

def step (m : Mount) : Event → Mount
  | .handshake response => if m.postStartup = .done then m.pollStartupState response else m
  | .readGeometry g =>
    if m.postStartup = .geometry then { m.readGeometry g with postStartup := .axis }
    else if m.postStartup = .done ∧ m.status.startupComplete ∧ m.status.geometry = none then m.readGeometry g
    else m
  | .readAxis ticks =>
    if m.postStartup = .axis then { m.pollAxisPosition ticks with postStartup := .rest }
    else if m.postStartup = .done ∧ m.status.startupComplete then m.pollAxisPosition ticks
    else m
  | .startedUp => if m.postStartup = .rest then m.startedUp else m
  | .polled connected slewing => m.setStatus { m.status with connected := connected, slewing := slewing }
  | .motion moveInProgress parking => m.setStatus { m.status with moveInProgress := moveInProgress, parking := parking }
  | .info => m.checkStartup m.status
  | .idle now accepted =>
    let st := m.status
    ((m.checkStartup st).checkPositionEvidence st now).runRezero st now accepted
  | .position said now => m.positionCommand said now
  | .setStartupMode mode => { m.setStatus { m.status with startupSelections := 0 } with startupMode := mode }
  | .reset => m.requestReboot .none
  | .automaticRezero targetRa targetDec now => if m.positionLost then m else m.beginRezero targetRa targetDec now
  | .stop now => m.stopMove now
  | .astrometry agrees text => m.evaluateSkyEvidence agrees text
  | .incident text => m.setPositionTrust .lost (.incident text)

def fresh (savedTrust : Trust) (savedReason : String) (savedDecTicks : Option Int) : Mount where
  status := {
    connected := false
    slewing := false
    moveInProgress := false
    parking := false
    startupState := '?'
    startupComplete := false
    startupCount := 0
    startupSelections := 0
    bootObserved := false
    bootSelection := '?'
    geometry := none
    axisValid := false
    raAxisTicks := 0
    decAxisTicks := 0
    axisTimestamp := 0 }
  startupMode := .none
  forcedSelection := .none
  postStartup := .done
  positionTrust := .unknown
  positionReason := .notRead
  lostOnlyForBootMenu := false
  pendingHumanStartup := none
  savedTrust := savedTrust
  savedReason := .saved savedReason
  savedDecTicks := savedDecTicks
  lastDecTicks := none
  lastAxisSampleTimestamp := 0
  lastMotionAt := 0
  lastStartupCount := 0
  rezeroState := .idle
  rezeroSince := 0
  rezeroTargetRa := 0
  rezeroTargetDec := 0
  rezeroStableCount := 0
  rezeroLastRa := 0
  rezeroLastDec := 0
  rezeroLastSample := 0
  rezeroStartupBaseline := 0
  last := savedDecTicks
  previous := none
  booting := []
  booted := []

end Mount
end Rts2.Gemini
