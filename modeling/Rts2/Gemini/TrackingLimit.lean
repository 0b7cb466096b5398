import Rts2.Teld.Telescope

/-! A Gemini mount that tracks towards its western limit is flipped or parked once no camera exposes. Exposures are blocked
from the decision on; who ends the flip or park has to lift the block. -/
namespace Rts2.Gemini

open Lib
open Teld (Moving)

inductive LimitAction where
  | flip | park
  deriving DecidableEq

inductive LimitDecision where
  | wait | flip | park
  deriving DecidableEq

/-- The fields from `underWay` on are read by no function: the flip or park that was started and did not end; whether the block
is that of the armed action, no move having taken it over; and how many were started since the last one was armed. -/
structure Limit where
  pendingLimitAction : Option LimitAction
  limitActionInFlight : Bool
  trackingLimitWarned : Bool
  moving : Moving
  bopExposure : Bool
  underWay : Option LimitAction
  ours : Bool
  started : Nat
  deriving DecidableEq

/-- What a pass of the driver sees: whether the flip or park under way ended, how many seconds of tracking are left, what
`decideTrackingLimit` says of them, and whether the driver tracks and may move; and what would come of a flip and of a park. -/
structure LimitStatus where
  ended : Bool
  secToWestLimit : Option ℚ
  limitForceSec : ℚ
  decision : LimitDecision
  limitActionEnabled : Bool
  isTracking : Bool
  ready : Bool
  stillUp : Bool
  flipStarts : Bool
  parkStarts : Bool

/-- How a move of the framework goes: it may be blocked, or not be performed, or start. -/
inductive MoveStart where
  | blocked | cannot | started
  deriving DecidableEq

inductive LimitEvent where
  | idle (st : LimitStatus) (poll : Teld.Poll) (again : Option MoveStart)
  | setFullBopState (telMove : Bool) (flipStarts parkStarts : Bool)
  | move (start : MoveStart)
  | park (starts : Bool)

namespace Limit

variable (m : Limit)

def fresh : Limit where
  pendingLimitAction := none
  limitActionInFlight := false
  trackingLimitWarned := false
  moving := .observing
  bopExposure := false
  underWay := none
  ours := false
  started := 0

def clearExposure : Limit := { m with bopExposure := false, ours := false }

def armLimitAction (wanted : LimitDecision) (stillUp : Bool) : Limit :=
  { m with
    pendingLimitAction := some (if stillUp ∧ wanted = .flip then .flip else .park)
    bopExposure := true
    ours := true
    started := 0 }

def starts (action : LimitAction) : Limit :=
  { m with limitActionInFlight := true, underWay := some action, started := m.started + 1 }

def executeLimitAction (action : LimitAction) (flipStarts parkStarts : Bool) : Limit :=
  let m := { m with pendingLimitAction := none }
  if action = .flip ∧ flipStarts then m.starts .flip
  else if parkStarts then m.starts .park
  else { m with limitActionInFlight := false }.clearExposure

def disarm : Limit :=
  let m := { m with trackingLimitWarned := false }
  if m.pendingLimitAction ≠ none then { m with pendingLimitAction := none }.clearExposure else m

/-- `applyStatus` with some seconds left and nothing to be forced. -/
def watchLimit (st : LimitStatus) (sec : ℚ) : Limit :=
  if m.trackingLimitWarned = false ∧ m.pendingLimitAction = none ∧ m.limitActionInFlight = false ∧ st.isTracking ∧
      m.moving ≠ .moving ∧ st.ready then
    if st.decision = .wait then m
    else if st.limitActionEnabled then { m with trackingLimitWarned := true }.armLimitAction st.decision st.stillUp
    else { m with trackingLimitWarned := true }
  else if 900 < sec then m.disarm
  else m

def applyStatus (st : LimitStatus) : Limit :=
  match st.secToWestLimit with
  | none => m
  | some sec =>
    match m.pendingLimitAction with
    | some action =>
      if m.limitActionInFlight = false ∧ sec < st.limitForceSec then m.executeLimitAction action st.flipStarts st.parkStarts
      else m.watchLimit st sec
    | none => m.watchLimit st sec

/-- `endMove` and `endPark`. -/
def endAction : Limit :=
  if m.limitActionInFlight then { m with limitActionInFlight := false, underWay := none }.clearExposure else m

/-- `startResyncMove` of the framework; its own block takes over. -/
def move : MoveStart → Limit
  | .blocked => m
  | .cannot => { m with moving := .observing }.clearExposure
  | .started => { m with moving := .moving, bopExposure := true, ours := false, underWay := none }

/-- `startPark` of the framework stops a flip; a park goes on. -/
def park (starts : Bool) : Limit :=
  if starts = false ∨ m.moving = .parking then m
  else { m with moving := .parking, underWay := m.underWay.filter (· = .park) }

def checkMoves (poll : Teld.Poll) (again : Option MoveStart) : Limit :=
  match m.moving, poll with
  | .moving, .failed => { m with moving := .observing }.clearExposure
  | .moving, .ended ok =>
    match ok, again with
    | true, some start => m.endAction.move start
    | true, none | false, _ => { m.endAction with moving := .observing }.clearExposure
  | .parking, .failed => { m with moving := .parked }.clearExposure
  | .parking, .ended _ => { m.endAction with moving := .parked }.clearExposure
  | .moving, .running | .parking, .running | .observing, _ | .parked, _ => m

def sees (ended : Bool) : Limit := if ended then { m with underWay := none } else m

def setFullBopState (telMove flipStarts parkStarts : Bool) : Limit :=
  match m.pendingLimitAction with
  | some action => if telMove then m else m.executeLimitAction action flipStarts parkStarts
  | none => m

def step (m : Limit) : LimitEvent → Limit
  | .idle st poll again => ((m.sees st.ended).applyStatus st).checkMoves poll again
  | .setFullBopState telMove flipStarts parkStarts => m.setFullBopState telMove flipStarts parkStarts
  | .move start => m.move start
  | .park starts => m.park starts

/-- The driver blocks exposures only for an action that waits or is under way, and starts at most one for each that it arms. -/
def Lifts : Prop := (m.ours = true → m.pendingLimitAction ≠ none ∨ m.underWay ≠ none) ∧ m.started ≤ 1

/-- The flip or park, whose block no move took over, ends in a pass in which the framework ends a park; and the framework's park
stops no such flip. -/
def EndsWatched (m : Limit) : LimitEvent → Prop
  | .idle st poll _ => st.ended = true → m.underWay ≠ none → m.ours = true → m.moving = .parking ∧ poll ≠ .running
  | .park starts => starts = true → m.moving ≠ .parking → m.ours = true → m.underWay ≠ some .flip
  | .setFullBopState .. | .move _ => True

structure Armed (m : Limit) : Prop where
  lifts : m.Lifts
  pending : m.pendingLimitAction ≠ none → m.limitActionInFlight = false ∧ m.started = 0
  flight : m.underWay ≠ none → m.limitActionInFlight = true
  still : m.ours = true → m.moving ≠ .moving

variable {m}

theorem Armed.clear (armed : m.Armed) (moving : Moving) : { m with moving := moving }.clearExposure.Armed :=
  ⟨⟨nofun, armed.lifts.2⟩, armed.pending, armed.flight, nofun⟩

theorem Armed.executes (armed : m.Armed) {action : LimitAction} (pending : m.pendingLimitAction = some action)
    (flipStarts parkStarts : Bool) : (m.executeLimitAction action flipStarts parkStarts).Armed := by
  obtain ⟨idle, none⟩ := armed.pending (by rw [pending]; exact nofun)
  have starts (action : LimitAction) : ({ m with pendingLimitAction := Option.none }.starts action).Armed :=
    ⟨⟨fun _ => .inr nofun, by simp only [Limit.starts, none]; decide⟩, fun some => absurd rfl some, fun _ => rfl, armed.still⟩
  have rests : m.underWay = Option.none := by
    by_contra some
    exact absurd (idle.symm.trans (armed.flight some)) (by decide)
  unfold executeLimitAction
  dsimp only
  split
  · exact starts .flip
  · split
    · exact starts .park
    · exact ⟨⟨nofun, armed.lifts.2⟩, fun some => absurd rfl some, fun some => absurd rests some, nofun⟩

theorem Armed.watches (armed : m.Armed) (st : LimitStatus) (sec : ℚ) : (m.watchLimit st sec).Armed := by
  unfold watchLimit
  split
  · rename_i watched
    obtain ⟨-, -, idle, -, still, -⟩ := watched
    split
    · exact armed
    · split
      · exact ⟨⟨fun _ => .inl nofun, Nat.zero_le 1⟩, fun _ => ⟨idle, rfl⟩, armed.flight, fun _ => still⟩
      · exact ⟨armed.lifts, armed.pending, armed.flight, armed.still⟩
  · split
    · unfold disarm
      dsimp only
      split
      · exact ⟨⟨nofun, armed.lifts.2⟩, fun some => absurd rfl some, armed.flight, nofun⟩
      · exact ⟨armed.lifts, armed.pending, armed.flight, armed.still⟩
    · exact armed

theorem Armed.applyStatus (armed : m.Armed) (st : LimitStatus) : (m.applyStatus st).Armed := by
  unfold Limit.applyStatus
  split
  · exact armed
  · split
    · rename_i action pending
      split
      · exact armed.executes pending _ _
      · exact armed.watches _ _
    · exact armed.watches _ _

theorem Armed.endAction (armed : m.Armed) : m.endAction.Armed := by
  unfold Limit.endAction
  split
  · exact ⟨⟨nofun, armed.lifts.2⟩, fun some => ⟨rfl, (armed.pending some).2⟩, fun some => absurd rfl some, nofun⟩
  · exact armed

theorem Armed.move (armed : m.Armed) (start : MoveStart) : (m.move start).Armed := by
  cases start with
  | blocked => exact armed
  | cannot => exact armed.clear .observing
  | started => exact ⟨⟨nofun, armed.lifts.2⟩, armed.pending, fun some => absurd rfl some, nofun⟩

theorem Armed.checkMoves (armed : m.Armed) (poll : Teld.Poll) (again : Option MoveStart) : (m.checkMoves poll again).Armed := by
  unfold Limit.checkMoves
  split
  · exact armed.clear .observing
  · split
    · exact armed.endAction.move _
    · exact armed.endAction.clear .observing
    · exact armed.endAction.clear .observing
  · exact armed.clear .parked
  · exact armed.endAction.clear .parked
  all_goals exact armed

theorem Armed.sees (armed : m.Armed) {ended : Bool} (kept : ended = true → m.ours = true → m.underWay = none) :
    (m.sees ended).Armed := by
  unfold Limit.sees
  split
  · rename_i ends
    refine ⟨⟨fun ours => .inl ?_, armed.lifts.2⟩, armed.pending, fun some => absurd rfl some, armed.still⟩
    exact (armed.lifts.1 ours).resolve_right (fun some => some (kept ends ours))
  · exact armed

theorem Armed.park (armed : m.Armed) {starts : Bool} (watched : m.EndsWatched (.park starts)) : (m.park starts).Armed := by
  unfold Limit.park
  split
  · exact armed
  · rename_i parks
    obtain ⟨starts, stands⟩ := not_or.mp parks
    refine ⟨⟨fun ours => ?_, armed.lifts.2⟩, armed.pending, fun some => armed.flight (fun none => some ?_), nofun⟩
    · have flip := watched (Bool.not_eq_false _ ▸ starts) stands ours
      rcases armed.lifts.1 ours with pending | underWay
      · exact .inl pending
      · refine .inr ?_
        dsimp only
        cases action : m.underWay with
        | none => exact absurd action underWay
        | some action' => cases action' with
          | flip => exact absurd action flip
          | park => exact nofun
    · dsimp only
      rw [none]
      rfl

theorem applyStatus_flying (flying : m.limitActionInFlight = true) (none : m.pendingLimitAction = none) (st : LimitStatus) :
    ∃ warned, m.applyStatus st = { m with trackingLimitWarned := warned } := by
  unfold applyStatus
  split
  · exact ⟨_, rfl⟩
  · split
    · rename_i pending
      rw [none] at pending
      contradiction
    · unfold watchLimit
      rw [if_neg (fun watched => absurd (flying.symm.trans watched.2.2.1) (by decide))]
      split
      · refine ⟨false, ?_⟩
        unfold disarm
        dsimp only
        rw [if_neg (not_not.mpr none)]
      · exact ⟨_, rfl⟩

theorem ended_lifts (armed : m.Armed) {st : LimitStatus} (ended : st.ended = true) (some : m.underWay ≠ none)
    (ours : m.ours = true) (poll : Teld.Poll) (again : Option MoveStart) :
    (m.moving = .parking ∧ poll ≠ .running → (m.step (.idle st poll again)).Armed) ∧
      ((m.step (.idle st poll again)).Lifts → m.moving = .parking ∧ poll ≠ .running) := by
  have flying := armed.flight some
  have unarmed : m.pendingLimitAction = none := by
    by_contra pending
    exact absurd (flying.symm.trans (armed.pending pending).1) (by decide)
  have saw : m.sees st.ended = { m with underWay := none } := if_pos ended
  obtain ⟨warned, applied⟩ := applyStatus_flying (m := { m with underWay := none }) flying unarmed st
  have still := armed.still ours
  have same : m.step (.idle st poll again) =
      { { m with underWay := none } with trackingLimitWarned := warned }.checkMoves poll again := by
    change ((m.sees st.ended).applyStatus st).checkMoves poll again = _
    rw [saw, applied]
  rw [same]
  have lost : ¬Lifts { { m with underWay := none } with trackingLimitWarned := warned } :=
    fun lifts => (lifts.1 ours).elim (fun pending => pending unarmed) (fun some => some rfl)
  unfold checkMoves
  dsimp only
  cases moving : m.moving with
  | moving => exact absurd moving still
  | observing => exact ⟨fun ends => absurd ends.1 nofun, fun lifts => absurd lifts lost⟩
  | parked => exact ⟨fun ends => absurd ends.1 nofun, fun lifts => absurd lifts lost⟩
  | parking =>
    cases poll with
    | running => exact ⟨fun ends => absurd rfl ends.2, fun lifts => absurd lifts lost⟩
    | failed => exact ⟨fun _ => ⟨⟨nofun, armed.lifts.2⟩, armed.pending, fun some => absurd rfl some, nofun⟩, fun _ => ⟨rfl, nofun⟩⟩
    | ended ok =>
      refine ⟨fun _ => ?_, fun _ => ⟨rfl, nofun⟩⟩
      unfold Limit.endAction
      dsimp only
      rw [flying, if_pos rfl]
      exact ⟨⟨nofun, armed.lifts.2⟩, fun pending => absurd unarmed pending, fun some => absurd rfl some, nofun⟩

theorem step_armed (armed : m.Armed) (e : LimitEvent) (watched : m.EndsWatched e) : (m.step e).Armed := by
  cases e with
  | idle st poll again =>
    by_cases lost : st.ended = true ∧ m.underWay ≠ none ∧ m.ours = true
    · obtain ⟨ended, some, ours⟩ := lost
      exact (ended_lifts armed ended some ours poll again).1 (watched ended some ours)
    · have kept (ended : st.ended = true) (ours : m.ours = true) : m.underWay = none := by
        by_contra some
        exact lost ⟨ended, some, ours⟩
      exact ((armed.sees kept).applyStatus st).checkMoves poll again
  | setFullBopState telMove flipStarts parkStarts =>
    simp only [step, setFullBopState]
    split
    · rename_i action pending
      split
      · exact armed
      · exact armed.executes pending _ _
    · exact armed
  | move start => exact armed.move start
  | park starts => exact armed.park watched

theorem lifts_watched (armed : m.Armed) (e : LimitEvent) (lifts : (m.step e).Lifts) : m.EndsWatched e := by
  cases e with
  | idle st poll again => exact fun ended some ours => (ended_lifts armed ended some ours poll again).2 lifts
  | setFullBopState | move => trivial
  | park starts =>
    intro starts' stands ours flip
    have flying := armed.flight (by rw [flip]; exact nofun)
    have parks : m.step (.park starts) = { m with moving := .parking, underWay := m.underWay.filter (· = .park) } :=
      if_neg (by simp [starts', stands])
    rw [parks] at lifts
    rcases lifts.1 ours with pending | underWay
    · exact absurd (flying.symm.trans (armed.pending pending).1) (by decide)
    · dsimp only at underWay
      rw [flip] at underWay
      exact underWay rfl

/-- In every run exposures are blocked for an action only while there is one just when each ends where it is watched. -/
theorem block_lifted_iff (es : List LimitEvent) :
    (∀ done, done <+: es → (run step fresh done).Lifts) ↔ Guarded step EndsWatched fresh es := by
  have initial : fresh.Armed := ⟨⟨nofun, Nat.zero_le 1⟩, fun some => absurd rfl some, fun some => absurd rfl some, nofun⟩
  exact prefixes_iff_guarded_enabled (P := Armed) (fun _ armed => armed.lifts)
    (fun _ e armed _ watched => step_armed armed e watched) (fun _ e armed _ lifts => lifts_watched armed e lifts) initial
    (guarded_true step fresh es)

def flipped : List LimitEvent :=
  [.idle ⟨false, some 600, 120, .flip, true, true, true, true, true, true⟩ .running none, .setFullBopState false true true,
    .idle ⟨true, some 5000, 120, .wait, true, true, true, true, true, true⟩ .running none]

/-- Nobody lifts the block, for the framework knows of no move. -/
theorem flip_keeps_block : ¬∀ done, done <+: flipped → (run step fresh done).Lifts := by
  intro lifts
  have last := lifts flipped (List.prefix_refl _)
  have blocked : (run step fresh flipped).ours = true := by decide
  have none : (run step fresh flipped).pendingLimitAction = none ∧ (run step fresh flipped).underWay = none := by decide
  exact (last.1 blocked).elim (fun pending => pending none.1) (fun some => some none.2)

end Limit
end Rts2.Gemini
