import Rts2.Lib.Run

/-! Moves of a Gemini mount: what starts them, and the polls, stops, parks and reboots that end them. Marks of the status tell
how a move ended; with none the driver takes it for an arrival. -/
namespace Rts2.Gemini

open Lib

/-- Which check of the loop comes next, or what it is at: a goto with the number of its call, or a stop with how many gotos
had been called when it was asked for. -/
inductive Turn (P : Type) where
  | reboot | abort | goto | park | rest
  | gotos (number : Nat) (target : P)
  | aborts (since : Nat)
  | parks
  deriving DecidableEq

/-- Distances on the sky: between two positions, and whether a reading is that of the one before. -/
structure Sky (P : Type) where
  separation : P → P → ℚ
  stable : P → P → Bool

/-- The fields from `calls` on are read by no function: how many gotos were called, and had been when the stop that waits was
asked for; number and target of the last goto that was accepted; where a poll saw it arrive; and whether a stop that was asked
for before a goto ended it. -/
structure Moves (P : Type) where
  moveInProgress : Bool
  moveFailed : Bool
  moveAborted : Bool
  moveExecutionFault : Bool
  moveAtCenteringRate : Bool
  parking : Bool
  moveStartedAt : ℚ
  moveDeadline : ℚ
  activeMoveTarget : Option P
  lastPoll : Option P
  stableCount : Nat
  crawlSince : Option ℚ
  rebootRequested : Bool
  abortRequested : Bool
  parkRequested : Bool
  gotoRequested : Bool
  gotoTarget : Option (Nat × P)
  turn : Turn P
  calls : Nat
  stopped : Nat
  accepted : Option (Nat × P)
  arrived : Option P
  outdated : Bool
  deriving DecidableEq

structure Snapshot (P : Type) where
  position : P
  moveRate : Char
  timestamp : ℚ

/-- What the driver's thread asks for, and the steps of the loop. -/
inductive MoveEvent (P : Type) where
  | gotoRaDec (target : P)
  | requestAbort
  | requestPark
  | requestReboot
  | turn
  | endGoto (accepted centering : Bool) (now : ℚ)
  | endAbort
  | endPark
  | pollStatus (fresh : Snapshot P)
  | crawls
  | parkEnds

inductive Report where
  | moving | arrived | failed
  deriving DecidableEq

namespace Moves

variable {P : Type} (sky : Sky P) (m : Moves P)

def moveMinSettleSec : ℚ := 3
def crawlMinSeparationDeg : ℚ := 2
def crawlMaxSec : ℚ := 15
def moveMaxSec : ℚ := 300
def arrivalToleranceDeg : ℚ := 1 / 2

def fresh : Moves P where
  moveInProgress := false
  moveFailed := false
  moveAborted := false
  moveExecutionFault := false
  moveAtCenteringRate := false
  parking := false
  moveStartedAt := 0
  moveDeadline := 0
  activeMoveTarget := none
  lastPoll := none
  stableCount := 0
  crawlSince := none
  rebootRequested := false
  abortRequested := false
  parkRequested := false
  gotoRequested := false
  gotoTarget := none
  turn := .reboot
  calls := 0
  stopped := 0
  accepted := none
  arrived := none
  outdated := false

def gotoRaDec (target : P) : Moves P :=
  { m with gotoRequested := true, gotoTarget := some (m.calls, target), calls := m.calls + 1 }

def requestAbort : Moves P := { m with abortRequested := true, stopped := m.calls }

def requestPark : Moves P := { m with parkRequested := true, parking := true }

def requestReboot : Moves P := { m with rebootRequested := true, moveInProgress := false, parking := false }

def look : Moves P :=
  match m.turn with
  | .reboot => if m.rebootRequested then { m with rebootRequested := false } else { m with turn := .abort }
  | .abort =>
    if m.abortRequested then { m with abortRequested := false, turn := .aborts m.stopped } else { m with turn := .goto }
  | .goto =>
    match m.gotoTarget with
    | some (number, target) =>
      if m.gotoRequested then { m with gotoRequested := false, turn := .gotos number target } else { m with turn := .park }
    | none => { m with turn := .park }
  | .park => if m.parkRequested then { m with parkRequested := false, turn := .parks } else { m with turn := .rest }
  | .rest => { m with turn := .reboot }
  | .gotos .. | .aborts _ | .parks => m

/-- The end of `handleGoto`. -/
def endGoto (number : Nat) (target : P) (accepted centering : Bool) (now : ℚ) : Moves P :=
  if accepted = false then { m with turn := .reboot }
  else
    { m with
      moveStartedAt := now
      moveDeadline := now + moveMaxSec
      stableCount := 0
      lastPoll := none
      activeMoveTarget := some target
      crawlSince := none
      moveInProgress := true
      moveFailed := false
      moveAborted := false
      moveExecutionFault := false
      moveAtCenteringRate := centering
      turn := .reboot
      accepted := some (number, target)
      arrived := none
      outdated := false }

/-- The end of `handleAbort`. -/
def endAbort (since : Nat) : Moves P :=
  { m with
    moveAborted := m.moveAborted || m.moveInProgress
    moveInProgress := false
    turn := .reboot
    outdated := m.outdated || m.moveInProgress && m.accepted.any (fun goto => since ≤ goto.1) }

def endPark : Moves P := { m with moveInProgress := false, turn := .reboot }

def giveUp : Moves P :=
  { m with
    moveInProgress := false
    moveAborted := true
    moveExecutionFault := true
    abortRequested := true
    stopped := m.calls }

def judge (miss : ℚ) (position : P) : Moves P :=
  if miss < arrivalToleranceDeg then { m with moveInProgress := false, moveFailed := false, arrived := some position }
  else { m with moveInProgress := false, moveFailed := true, moveExecutionFault := true }

def counts (fresh : Snapshot P) : Moves P :=
  { m with stableCount := if m.lastPoll.any (sky.stable fresh.position) then m.stableCount + 1 else 0 }

def slows (crawling : Bool) (now : ℚ) : Moves P :=
  { m with crawlSince := if crawling then some (m.crawlSince.getD now) else none }

def rests (fresh : Snapshot P) : Bool :=
  decide (2 ≤ m.stableCount ∧ moveMinSettleSec ≤ fresh.timestamp - m.moveStartedAt) && fresh.moveRate ≠ 'S' &&
    fresh.moveRate ≠ 'C' || decide (m.moveDeadline < fresh.timestamp)

def pollMove (fresh : Snapshot P) (target : P) : Moves P :=
  let moveSeparation := sky.separation fresh.position target
  let m := m.counts sky fresh
  let crawling := decide (fresh.moveRate = 'C' ∧ crawlMinSeparationDeg < moveSeparation)
  if crawling && m.crawlSince.any (fun since => crawlMaxSec < fresh.timestamp - since) then { m.giveUp with crawlSince := none }
  else
    let m := m.slows crawling fresh.timestamp
    if m.rests fresh then m.judge moveSeparation fresh.position else m

def pollStatus (fresh : Snapshot P) : Moves P :=
  let m := if m.moveInProgress then m.activeMoveTarget.elim m (m.pollMove sky fresh) else m
  { m with lastPoll := some fresh.position }

/-- `pollAxisPosition` sees an axis at the centering speed. -/
def crawls : Moves P :=
  if (m.moveInProgress || m.parking) = false ∨ m.moveInProgress ∧ m.moveAtCenteringRate then m
  else if m.parking then { m with parking := false, abortRequested := true, stopped := m.calls }
  else m.giveUp

def step (m : Moves P) (e : MoveEvent P) : Moves P :=
  match e, m.turn with
  | .gotoRaDec target, _ => m.gotoRaDec target
  | .requestAbort, _ => m.requestAbort
  | .requestPark, _ => m.requestPark
  | .requestReboot, _ => m.requestReboot
  | .turn, _ => m.look
  | .endGoto accepted centering now, .gotos number target => m.endGoto number target accepted centering now
  | .endAbort, .aborts since => m.endAbort since
  | .endPark, .parks => m.endPark
  | .pollStatus fresh, .rest => m.pollStatus sky fresh
  | .crawls, .rest => m.crawls
  | .parkEnds, .rest => { m with parking := false }
  | _, _ => m

/-- What `isMoving` says of a goto, where no re-zero or recovery is under way; `recovers` is that it starts one. -/
def isMoving (recovers : Bool) : Report :=
  if m.moveInProgress then .moving
  else if m.moveFailed = false ∧ m.moveAborted = false then .arrived
  else if m.moveExecutionFault && recovers then .moving
  else .failed

/-- A goto that is over without a mark was seen within the tolerance of its target, and no mark is that of an earlier one. -/
def Truthful : Prop :=
  (∀ number target, m.accepted = some (number, target) → ∀ recovers, m.isMoving recovers = .arrived →
    ∃ position, m.arrived = some position ∧ sky.separation position target < arrivalToleranceDeg) ∧ m.outdated = false

/-- No reboot is asked for and no park served while a move is in progress; and no goto is called after a stop that the loop
has passed by. -/
def Orderly (m : Moves P) : MoveEvent P → Prop
  | .requestReboot => m.moveInProgress = false
  | .endPark => m.turn = .parks → m.moveInProgress = false
  | .gotoRaDec _ => m.turn = .goto → m.abortRequested = false
  | _ => True

/-- A move in progress has no mark, and one that is over without a mark arrived. -/
structure Ended (m : Moves P) : Prop where
  unmarked : m.moveInProgress = true → m.moveFailed = false ∧ m.moveAborted = false
  target : m.activeMoveTarget = m.accepted.map Prod.snd
  arrives : ∀ number target, m.accepted = some (number, target) → m.moveInProgress = false → m.moveFailed = false →
    m.moveAborted = false → ∃ position, m.arrived = some position ∧ sky.separation position target < arrivalToleranceDeg

/-- A stop that waits, or is under way, was asked for after the goto that it would end was called. -/
structure Current (m : Moves P) : Prop where
  called : ∀ number target, m.gotoTarget = some (number, target) → number < m.calls
  taken : ∀ number target, m.turn = .gotos number target →
    number < m.calls ∧ (m.abortRequested = true → number < m.stopped)
  passed : m.turn = .goto → m.abortRequested = true → ∀ number target, m.gotoTarget = some (number, target) →
    m.gotoRequested = true → number < m.stopped
  accepted : ∀ number target, m.accepted = some (number, target) →
    number < m.calls ∧ (m.moveInProgress = true → m.abortRequested = true → number < m.stopped)
  aborts : ∀ since, m.turn = .aborts since → ∀ number target, m.accepted = some (number, target) →
    m.moveInProgress = true → number < since
  outdated : m.outdated = false

variable {sky m}

theorem Ended.look (ended : Ended sky m) : Ended sky m.look := by
  unfold Moves.look
  split
  · split <;> exact ⟨ended.unmarked, ended.target, ended.arrives⟩
  · split <;> exact ⟨ended.unmarked, ended.target, ended.arrives⟩
  · split
    · split <;> exact ⟨ended.unmarked, ended.target, ended.arrives⟩
    · exact ⟨ended.unmarked, ended.target, ended.arrives⟩
  · split <;> exact ⟨ended.unmarked, ended.target, ended.arrives⟩
  · exact ⟨ended.unmarked, ended.target, ended.arrives⟩
  all_goals exact ended

theorem Current.look (current : Current m) : Current m.look := by
  obtain ⟨called, taken, passed, accepted, aborts, outdated⟩ := current
  unfold Moves.look
  split
  · split
    · exact ⟨called, taken, passed, accepted, aborts, outdated⟩
    · exact ⟨called, nofun, nofun, accepted, nofun, outdated⟩
  · split
    · rename_i requested
      refine ⟨called, nofun, nofun, fun n t at_ => ⟨(accepted n t at_).1, nofun⟩, ?_, outdated⟩
      intro since here n t at_ moves
      cases here
      exact (accepted n t at_).2 moves requested
    · rename_i unasked
      exact ⟨called, nofun, fun _ asked => absurd asked unasked, accepted, nofun, outdated⟩
  · rename_i here
    split
    · rename_i number target slot
      split
      · rename_i requested
        refine ⟨called, ?_, nofun, accepted, nofun, outdated⟩
        rintro _ _ ⟨⟩
        exact ⟨called number target slot, fun asked => passed here asked number target slot requested⟩
      · exact ⟨called, nofun, nofun, accepted, nofun, outdated⟩
    · exact ⟨called, nofun, nofun, accepted, nofun, outdated⟩
  · split <;> exact ⟨called, nofun, nofun, accepted, nofun, outdated⟩
  · exact ⟨called, nofun, nofun, accepted, nofun, outdated⟩
  all_goals exact ⟨called, taken, passed, accepted, aborts, outdated⟩

theorem Ended.endGoto (ended : Ended sky m) (number : Nat) (target : P) (accepted centering : Bool) (now : ℚ) :
    Ended sky (m.endGoto number target accepted centering now) := by
  unfold Moves.endGoto
  split
  · exact ⟨ended.unmarked, ended.target, ended.arrives⟩
  · exact ⟨fun _ => ⟨rfl, rfl⟩, rfl, fun _ _ _ rests => by contradiction⟩

theorem Current.endGoto (current : Current m) {number : Nat} {target : P} (taken : m.turn = .gotos number target)
    (accepted centering : Bool) (now : ℚ) : Current (m.endGoto number target accepted centering now) := by
  have goto := current.taken number target taken
  unfold Moves.endGoto
  split
  · exact ⟨current.called, nofun, nofun, current.accepted, nofun, current.outdated⟩
  · refine ⟨current.called, nofun, nofun, ?_, nofun, rfl⟩
    rintro n t ⟨⟩
    exact ⟨goto.1, fun _ => goto.2⟩

theorem Ended.endAbort (ended : Ended sky m) (since : Nat) : Ended sky (m.endAbort since) := by
  refine ⟨nofun, ended.target, fun number target accepted _ unfailed unaborted => ?_⟩
  have parts : m.moveAborted = false ∧ m.moveInProgress = false := by simpa [Moves.endAbort] using unaborted
  exact ended.arrives number target accepted parts.2 unfailed parts.1

theorem Current.endAbort (current : Current m) {since : Nat} (aborts : m.turn = .aborts since) : Current (m.endAbort since) := by
  refine ⟨current.called, nofun, nofun, fun n t at_ => ⟨(current.accepted n t at_).1, nofun⟩, nofun, ?_⟩
  unfold Moves.endAbort
  dsimp only
  rw [current.outdated, Bool.false_or, Bool.and_eq_false_iff]
  cases moves : m.moveInProgress with
  | false => exact .inl rfl
  | true =>
    refine .inr ?_
    cases goto : m.accepted with
    | none => rfl
    | some goto' =>
      have later := current.aborts since aborts goto'.1 goto'.2 goto moves
      exact decide_eq_false (not_le.mpr later)

theorem Ended.still (ended : Ended sky m) (rests : m.moveInProgress = false) (turn : Turn P) (parking : Bool) :
    Ended sky { m with moveInProgress := false, turn := turn, parking := parking } :=
  ⟨nofun, ended.target, fun number target accepted _ => ended.arrives number target accepted rests⟩

theorem Ended.giveUp (ended : Ended sky m) : Ended sky m.giveUp :=
  ⟨nofun, ended.target, fun _ _ _ _ _ unaborted => by contradiction⟩

theorem Current.giveUp (current : Current m) (rest : m.turn = .rest) : Current m.giveUp := by
  refine ⟨current.called, ?_, ?_, fun n t at_ => ⟨(current.accepted n t at_).1, nofun⟩, ?_, current.outdated⟩
  all_goals
    unfold Moves.giveUp
    rw [rest]
    exact nofun

theorem Ended.judge (ended : Ended sky m) (moves : m.moveInProgress = true) {target position : P}
    (active : m.activeMoveTarget = some target) : Ended sky (m.judge (sky.separation position target) position) := by
  unfold Moves.judge
  split
  · rename_i near
    refine ⟨nofun, ended.target, fun number t accepted _ _ _ => ⟨position, rfl, ?_⟩⟩
    have same := ended.target
    change m.accepted = _ at accepted
    rw [active, accepted] at same
    have own : target = t := Option.some.inj same
    rw [← own]
    exact near
  · exact ⟨nofun, ended.target, fun _ _ _ _ unfailed => by contradiction⟩

theorem Ended.pollMove (ended : Ended sky m) (moves : m.moveInProgress = true) (fresh : Snapshot P) {target : P}
    (active : m.activeMoveTarget = some target) : Ended sky (m.pollMove sky fresh target) := by
  have counted : Ended sky (m.counts sky fresh) := ⟨ended.unmarked, ended.target, ended.arrives⟩
  unfold Moves.pollMove
  dsimp only
  split
  · have up := counted.giveUp
    exact ⟨up.unmarked, up.target, up.arrives⟩
  · have slowed (crawling : Bool) : Ended sky ((m.counts sky fresh).slows crawling fresh.timestamp) :=
      ⟨ended.unmarked, ended.target, ended.arrives⟩
    split
    · exact (slowed _).judge moves active
    · exact slowed _

theorem Ended.pollStatus (ended : Ended sky m) (fresh : Snapshot P) : Ended sky (m.pollStatus sky fresh) := by
  have polled : Ended sky (if m.moveInProgress then m.activeMoveTarget.elim m (m.pollMove sky fresh) else m) := by
    split
    · rename_i moves
      cases active : m.activeMoveTarget with
      | none => exact ended
      | some target => exact ended.pollMove moves fresh active
    · exact ended
  exact ⟨polled.unmarked, polled.target, polled.arrives⟩

theorem Current.pollStatus (current : Current m) (rest : m.turn = .rest) (fresh : Snapshot P) :
    Current (m.pollStatus sky fresh) := by
  have polled : Current (if m.moveInProgress then m.activeMoveTarget.elim m (m.pollMove sky fresh) else m) := by
    split
    · cases m.activeMoveTarget with
      | none => exact current
      | some target =>
        have same : Current (m.counts sky fresh) :=
          ⟨current.called, current.taken, current.passed, current.accepted, current.aborts, current.outdated⟩
        have slowed (crawling : Bool) : Current ((m.counts sky fresh).slows crawling fresh.timestamp) :=
          ⟨current.called, current.taken, current.passed, current.accepted, current.aborts, current.outdated⟩
        change Current (m.pollMove sky fresh target)
        unfold Moves.pollMove
        dsimp only
        split
        · have up := same.giveUp rest
          exact ⟨up.called, up.taken, up.passed, up.accepted, up.aborts, up.outdated⟩
        · split
          · unfold Moves.judge
            have on := slowed (decide (fresh.moveRate = 'C' ∧ crawlMinSeparationDeg < sky.separation fresh.position target))
            split
            · exact ⟨on.called, on.taken, on.passed, fun n t at_ => ⟨(on.accepted n t at_).1, nofun⟩, nofun, on.outdated⟩
            · exact ⟨on.called, on.taken, on.passed, fun n t at_ => ⟨(on.accepted n t at_).1, nofun⟩, nofun, on.outdated⟩
          · exact slowed _
    · exact current
  exact ⟨polled.called, polled.taken, polled.passed, polled.accepted, polled.aborts, polled.outdated⟩

theorem Ended.crawls (ended : Ended sky m) : Ended sky m.crawls := by
  unfold Moves.crawls
  split
  · exact ended
  · split
    · exact ⟨ended.unmarked, ended.target, ended.arrives⟩
    · exact ended.giveUp

theorem Current.crawls (current : Current m) (rest : m.turn = .rest) : Current m.crawls := by
  unfold Moves.crawls
  split
  · exact current
  · split
    · refine ⟨current.called, ?_, ?_, fun n t at_ => ⟨(current.accepted n t at_).1, fun _ _ => (current.accepted n t at_).1⟩,
        current.aborts, current.outdated⟩
      all_goals
        dsimp only
        rw [rest]
        exact nofun
    · exact current.giveUp rest

theorem Current.requestAbort (current : Current m) : Current m.requestAbort where
  called := current.called
  taken number target here := ⟨(current.taken number target here).1, fun _ => (current.taken number target here).1⟩
  passed _ _ number target slot _ := current.called number target slot
  accepted number target at_ := ⟨(current.accepted number target at_).1, fun _ _ => (current.accepted number target at_).1⟩
  aborts := current.aborts
  outdated := current.outdated

theorem Current.gotoRaDec (current : Current m) (unasked : m.turn = .goto → m.abortRequested = false) (target : P) :
    Current (m.gotoRaDec target) where
  called number t slot := by
    cases slot
    exact Nat.lt_succ_self _
  taken number t here := ⟨(current.taken number t here).1.trans (Nat.lt_succ_self _), (current.taken number t here).2⟩
  passed here asked := absurd (asked.symm.trans (unasked here)) (by decide)
  accepted number t at_ := ⟨(current.accepted number t at_).1.trans (Nat.lt_succ_self _), (current.accepted number t at_).2⟩
  aborts := current.aborts
  outdated := current.outdated

theorem step_kept (ended : Ended sky m) (current : Current m) (e : MoveEvent P) (orderly : Orderly m e) :
    Ended sky (step sky m e) ∧ Current (step sky m e) := by
  unfold step
  split
  · exact ⟨⟨ended.unmarked, ended.target, ended.arrives⟩, current.gotoRaDec orderly _⟩
  · exact ⟨⟨ended.unmarked, ended.target, ended.arrives⟩, current.requestAbort⟩
  · exact ⟨⟨ended.unmarked, ended.target, ended.arrives⟩,
      ⟨current.called, current.taken, current.passed, current.accepted, current.aborts, current.outdated⟩⟩
  · have still := ended.still orderly m.turn false
    exact ⟨⟨still.unmarked, still.target, still.arrives⟩, ⟨current.called, current.taken, current.passed,
      fun n t at_ => ⟨(current.accepted n t at_).1, nofun⟩, nofun, current.outdated⟩⟩
  · exact ⟨ended.look, current.look⟩
  · rename_i here
    exact ⟨ended.endGoto .., current.endGoto here ..⟩
  · rename_i here
    exact ⟨ended.endAbort _, current.endAbort here⟩
  · rename_i here
    have still := ended.still (orderly here) .reboot m.parking
    exact ⟨⟨still.unmarked, still.target, still.arrives⟩,
      ⟨current.called, nofun, nofun, fun n t at_ => ⟨(current.accepted n t at_).1, nofun⟩, nofun, current.outdated⟩⟩
  · rename_i here
    exact ⟨ended.pollStatus _, current.pollStatus here _⟩
  · rename_i here
    exact ⟨ended.crawls, current.crawls here⟩
  · exact ⟨⟨ended.unmarked, ended.target, ended.arrives⟩,
      ⟨current.called, current.taken, current.passed, current.accepted, current.aborts, current.outdated⟩⟩
  · exact ⟨ended, current⟩

theorem Ended.truthful (ended : Ended sky m) (current : Current m) : m.Truthful sky := by
  refine ⟨fun number target accepted recovers arrived => ?_, current.outdated⟩
  unfold isMoving at arrived
  split_ifs at arrived with moves unmarked
  exact ended.arrives number target accepted (Bool.eq_false_of_not_eq_true moves) unmarked.1 unmarked.2

/-- In every orderly run each move ends truthfully. -/
theorem moves_end_truthfully (sky : Sky P) (es : List (MoveEvent P)) (orderly : Guarded (step sky) Orderly fresh es) :
    ∀ done, done <+: es → (run (step sky) fresh done).Truthful sky := by
  rintro done ⟨rest, rfl⟩
  have before := ((guarded_append (step sky) Orderly _ done rest).mp orderly).1
  have initial : Ended sky fresh ∧ Current (fresh : Moves P) :=
    ⟨⟨nofun, rfl, nofun⟩, ⟨nofun, nofun, nofun, nofun, nofun, rfl⟩⟩
  have kept := run_invariant (step sky) Orderly (fun m => Ended sky m ∧ Current m)
    (fun _ e kept orderly => step_kept kept.1 kept.2 e orderly) _ done initial before
  exact kept.1.truthful kept.2

def line : Sky ℚ where
  separation p q := |p - q|
  stable p q := decide (|p - q| < 1 / 100)

def arrival (position : ℚ) : List (MoveEvent ℚ) :=
  [.gotoRaDec 10, .turn, .turn, .turn, .endGoto true false 0, .turn, .turn, .turn, .turn, .pollStatus ⟨position, 'T', 1⟩,
    .pollStatus ⟨position, 'T', 2⟩, .pollStatus ⟨position, 'T', 4⟩]

theorem arrival_truthful : (run (step line) fresh (arrival 10)).Truthful line := by
  refine moves_end_truthfully line (arrival 10) ⟨nofun, ?_⟩ (arrival 10) (List.prefix_refl _)
  exact ⟨trivial, trivial, trivial, trivial, trivial, trivial, trivial, trivial, trivial, trivial, trivial, trivial⟩

def rebooted : List (MoveEvent ℚ) :=
  [.gotoRaDec 10, .turn, .turn, .turn, .endGoto true false 0, .requestReboot]

/-- The move is reported to have arrived, though no poll saw the mount anywhere. -/
theorem rebooted_arrives : ¬∀ done, done <+: rebooted → (run (step line) fresh done).Truthful line := by
  intro truthful
  obtain ⟨arrives, -⟩ := truthful rebooted (List.prefix_refl _)
  obtain ⟨position, arrived, -⟩ := arrives 0 10 (by decide) false (by decide)
  revert arrived
  rw [show (run (step line) fresh rebooted).arrived = none by decide]
  exact nofun

end Moves
end Rts2.Gemini
