import Rts2.Roof.Motors

/-! A motor that runs is watched: the dome checks its movement and knows when to stop it. -/
namespace Rts2.Roof

open Lib

namespace D50

def Watched (d : Dome D50) : Prop :=
  d.driver.stopFailed = true ∨
    (d.driver.ford.drives .OTEVIRANI = true →
      d.state = .DOME_OPENING ∧ d.driver.timeToOpenMax ≠ 0) ∧
    (d.driver.ford.drives .ZAVIRANI = true →
      d.state = .DOME_CLOSING ∧ d.driver.timeToCloseMax ≠ 0)

instance (d : Dome D50) : Decidable (Watched d) := by
  unfold Watched
  infer_instance

/-- What a later pass finds when a movement should end: its time is over, or its switch is made. -/
def Due (timeToMax timeToMin : Nat) (koncak : Vystup) (replies : Stream' Reply) : Prop :=
  (∀ n, timeToMax < (replies.get n).now / 1000) ∨
    (∃ inputs, (replies.get 0).read = some inputs ∧ inputs &&& koncak.pin ≠ 0) ∧
      ∀ n, timeToMin < (replies.get n).now / 1000

def later (d : Dome D50) (replies : Stream' Reply) : Dome D50 :=
  { d with driver := { d.driver with ford := { d.driver.ford with replies := replies } } }

def Ends (d : Dome D50) : Prop :=
  ∀ replies,
    (d.driver.ford.drives .OTEVIRANI = true →
      Due d.driver.timeToOpenMax d.driver.timeToOpenMin .KONCAK_OTEVRENI replies →
        (Dome.checkOpening driver (later d replies)).driver.Resting) ∧
    (d.driver.ford.drives .ZAVIRANI = true →
      Due d.driver.timeToCloseMax d.driver.timeToCloseMin .KONCAK_ZAVRENI replies →
        (Dome.checkOpening driver (later d replies)).driver.Resting)

def Supervised (d : Dome D50) : Prop :=
  Watched d ∧ (d.driver.stopFailed = false → Ends d)

/-- A close that finds the dome closed while its motor runs, or that waits for the mount while the
roof opens. -/
def CloseLoses (d : D50) : Prop :=
  if d.isClosed.1 = -2 then d.ford.drives .ZAVIRANI = true
  else d.isClosed.2.Waits ∧ d.ford.drives .OTEVIRANI = true

instance (d : D50) : Decidable d.CloseLoses := by
  unfold CloseLoses
  infer_instance

def OpenLoses (d : D50) : Prop := d.isOpened.1 = -2 ∧ d.ford.drives .OTEVIRANI = true

instance (d : D50) : Decidable d.OpenLoses := by
  unfold OpenLoses
  infer_instance

def Careful (d : Dome D50) : Event → Prop
  | .call (.openStart _) => d.driver.OpenLoses → d.driver.stopFailed = true
  | .call .closeStart | .call .quietClose | .call .retry | .call (.masterClose true) =>
    d.driver.CloseLoses → d.driver.stopFailed = true
  | .call (.idle true false true) =>
    let checked := (Dome.checkOpening driver d).driver
    checked.CloseLoses → checked.stopFailed = true
  | _ => True

structure Held (d : Dome D50) : Prop where
  safe : d.driver.ford.Safe
  watched : Watched d

theorem watched_of_resting {d : Dome D50} (rests : d.driver.Resting) : Watched d := by
  obtain still | failed := rests
  · exact .inr ⟨fun on => by simp [still.opening] at on, fun on => by simp [still.closing] at on⟩
  · exact .inl failed

theorem watched_of_keeps {d e : Dome D50} (keeps : Keeps d.driver e.driver) (state : e.state = d.state)
    (watched : Watched d) : Watched e := by
  unfold Watched
  rw [keeps.stopFailed, keeps.drives, keeps.drives, state, keeps.timeToOpenMax, keeps.timeToCloseMax]
  exact watched

theorem watched_ended {d : Dome D50} (opening : d.state ≠ .DOME_OPENING)
    (closing : d.state ≠ .DOME_CLOSING) :
    Watched d ↔ d.driver.stopFailed = true ∨
      d.driver.ford.drives .OTEVIRANI = false ∧ d.driver.ford.drives .ZAVIRANI = false := by
  simp [Watched, opening, closing]

theorem open_refused {d : Dome D50} (opened : d.driver.isOpened.1 ≠ -2)
    (failed : d.driver.isOpened.2.startOpen.1 ≠ 0) :
    (Dome.domeOpenStart driver true d).2 =
      { d with driver := d.driver.isOpened.2.startOpen.2, retryTimers := 0, planned := false } := by
  simp [Dome.domeOpenStart, driver, opened, failed]

theorem open_watched {d : Dome D50} (held : Held d) (isGoodWeather : Bool) :
    Watched (Dome.domeOpenStart driver isGoodWeather d).2 ↔
      (d.driver.OpenLoses → d.driver.stopFailed = true) := by
  have looks := d.driver.isOpened_looks.keeps
  by_cases opened : d.driver.isOpened.1 = -2
  · have same : (Dome.domeOpenStart driver isGoodWeather d).2 = { d with
        driver := d.driver.isOpened.2, retryTimers := 0, planned := false, state := .DOME_OPENED
        wanted := false } := by
      simp [Dome.domeOpenStart, driver, opened]
    rw [same, watched_ended (by simp) (by simp)]
    simp only [looks.stopFailed, looks.drives, atEnd_other (.inr rfl) opened, OpenLoses, opened]
    cases d.driver.ford.drives .OTEVIRANI <;> simp
  · refine iff_of_true ?_ (fun loses => absurd loses.1 opened)
    cases isGoodWeather with
    | false =>
      have same : (Dome.domeOpenStart driver false d).2 = { d with
          driver := d.driver.isOpened.2, retryTimers := 0, planned := false } := by
        simp [Dome.domeOpenStart, driver, opened]
      rw [same]
      exact watched_of_keeps (d := d) looks rfl held.watched
    | true =>
      have moves := d.driver.isOpened.2.startOpen_spec
      obtain ⟨started, set, alone⟩ | ⟨failed, keeps⟩ | ⟨failed, rests⟩ := moves.result
      · have same : (Dome.domeOpenStart driver true d).2 = { d with
            driver := d.driver.isOpened.2.startOpen.2, retryTimers := 0, planned := false
            closeFailReported := false, closeRetries := 0, state := .DOME_OPENING
            wanted := false } := by
          simp [Dome.domeOpenStart, driver, opened, started]
        rw [same]
        exact .inr ⟨fun _ => ⟨rfl, set⟩, fun on => absurd (alone.symm.trans on) (by simp)⟩
      · rw [open_refused opened (by omega)]
        exact watched_of_keeps (d := d) (looks.trans keeps) rfl held.watched
      · rw [open_refused opened failed]
        exact watched_of_resting rests

theorem close_started {d : Dome D50} (closed : d.driver.isClosed.1 ≠ -2) (quiet : Bool) :
    (Dome.domeCloseStart driver quiet d).2.driver = d.driver.isClosed.2.startClose.2 ∧
      (Dome.domeCloseStart driver quiet d).2.state =
        if d.driver.isClosed.2.startClose.1 < 0 then d.state
        else if 0 < d.driver.isClosed.2.startClose.1 then .DOME_WAIT_CLOSING else .DOME_CLOSING := by
  simp only [Dome.domeCloseStart, driver, closed, if_false]
  by_cases failed : d.driver.isClosed.2.startClose.1 < 0
  · simp [failed]
  · by_cases waits : 0 < d.driver.isClosed.2.startClose.1 <;> simp [failed, waits]

theorem close_watched {d : Dome D50} (held : Held d) (quiet : Bool) :
    Watched (Dome.domeCloseStart driver quiet d).2 ↔
      (d.driver.CloseLoses → d.driver.stopFailed = true) := by
  have looks := d.driver.isClosed_looks.keeps
  by_cases closed : d.driver.isClosed.1 = -2
  · have same : (Dome.domeCloseStart driver quiet d).2 = { d with
        driver := d.driver.isClosed.2, retryTimers := 0, planned := false, quietClose := quiet
        state := .DOME_CLOSED, closeRetries := 0, wanted := false } := by
      simp [Dome.domeCloseStart, driver, closed]
    rw [same, watched_ended (by simp) (by simp)]
    simp only [looks.stopFailed, looks.drives, atEnd_other (.inl rfl) closed, CloseLoses, closed]
    cases d.driver.ford.drives .ZAVIRANI <;> simp
  · obtain ⟨same, state⟩ := close_started closed quiet
    by_cases waits : d.driver.isClosed.2.Waits ∧ d.driver.ford.drives .OTEVIRANI = true
    · have runs : d.driver.isClosed.2.Closing = false := by simp [Closing, looks.drives, waits.2]
      obtain ⟨ret, keeps⟩ := startClose_waits waits.1 runs
      have waiting : (Dome.domeCloseStart driver quiet d).2.state = .DOME_WAIT_CLOSING := by
        simp [state, ret]
      rw [watched_ended (by simp [waiting]) (by simp [waiting]), same]
      simp only [keeps.stopFailed, looks.stopFailed, keeps.drives, looks.drives, waits.2, CloseLoses,
        closed, if_false, waits.1]
      simp
    · have careful : d.driver.isClosed.2.Waits → d.driver.isClosed.2.ford.drives .OTEVIRANI = false := by
        intro away
        rw [looks.drives]
        by_contra on
        exact waits ⟨away, by simpa using on⟩
      refine iff_of_true ?_ (fun loses => absurd (by simpa [CloseLoses, closed] using loses) waits)
      obtain ⟨started, set, alone⟩ | ⟨failed, keeps⟩ | ⟨-, rests⟩ := (startClose_spec careful).result
      · rw [← same] at set alone
        exact .inr ⟨fun on => absurd (alone.symm.trans on) (by simp), fun _ => ⟨by simp [state, started], set⟩⟩
      · refine watched_of_keeps (d := d) ?_ (by simp [state, failed]) held.watched
        rw [same]
        exact looks.trans keeps
      · rw [← same] at rests
        exact watched_of_resting rests

def MoveEnds (d : Dome D50) : Prop :=
  match d.state with
  | .DOME_OPENING => d.driver.isOpened.1 = -1 ∨ d.driver.isOpened.1 = -2
  | .DOME_CLOSING => d.driver.isClosed.1 = -1 ∨ d.driver.isClosed.1 = -2
  | _ => False

theorem check_ends {d : Dome D50} (ends : MoveEnds d) : (Dome.checkOpening driver d).driver.Resting := by
  unfold MoveEnds at ends
  cases state : d.state <;> simp only [state] at ends
  case DOME_OPENING =>
    have rests := d.driver.isOpened.2.endOpen_spec.resting
    simpa [Dome.checkOpening, driver, state, ends] using rests
  case DOME_CLOSING =>
    rw [Dome.checkOpening_closing driver state ends]
    exact d.driver.isClosed.2.endClose_spec.resting

theorem check_keeps {d : Dome D50} (goes : ¬ MoveEnds d) :
    Keeps d.driver (Dome.checkOpening driver d).driver ∧ (Dome.checkOpening driver d).state = d.state := by
  unfold MoveEnds at goes
  cases state : d.state <;> simp only [state] at goes
  case DOME_OPENING =>
    simp only [Dome.checkOpening, driver, state, goes, if_false]
    exact ⟨d.driver.isOpened_looks.keeps, trivial⟩
  case DOME_CLOSING =>
    obtain ⟨not_late, not_closed⟩ := not_or.mp goes
    simp only [Dome.checkOpening, driver, state, not_late, not_closed, if_false]
    exact ⟨d.driver.isClosed_looks.keeps, trivial⟩
  all_goals
    simp only [Dome.checkOpening, state]
    exact ⟨⟨rfl, rfl, rfl, rfl, rfl, rfl, rfl⟩, trivial⟩

theorem check_held {d : Dome D50} (held : Held d) : Held (Dome.checkOpening driver d) := by
  refine ⟨driver_safe.checkOpening held.safe, ?_⟩
  by_cases ends : MoveEnds d
  · exact watched_of_resting (check_ends ends)
  · obtain ⟨keeps, state⟩ := check_keeps ends
    exact watched_of_keeps keeps state held.watched

theorem atEnd_times (d : D50) :
    d.zjisti_stav_portu.2.time.1 = (d.ford.replies.get 1).now / 1000 ∧
      d.zjisti_stav_portu.2.time.2.time.1 = (d.ford.replies.get 2).now / 1000 := by
  simp only [zjisti_stav_portu, time, Ford.time, Ford.getNow, Ford.reply, Ford.zjisti_replies]
  exact ⟨rfl, rfl⟩

theorem atEnd_due {koncak other : Vystup} (is_motor : other.IsMotor) (port : koncak.port = .A)
    {timeToMin timeToMax : Nat} {d : D50} (set : timeToMax ≠ 0) (off : d.ford.drives other = false)
    (due : Due timeToMax timeToMin koncak d.ford.replies) :
    (d.atEnd koncak other timeToMin timeToMax).1 = -1 ∨
      (d.atEnd koncak other timeToMin timeToMax).1 = -2 := by
  simp only [atEnd]
  split
  case isTrue => exact .inr rfl
  case isFalse not_made =>
    obtain late | ⟨⟨inputs, read, made⟩, passed⟩ := due
    · rw [if_pos ⟨set, by rw [(atEnd_times d).2]; exact late 2⟩]
      exact .inl rfl
    · have read : d.ford.replies.head.read = some inputs := read
      have ok : d.zjisti_stav_portu.1 = 0 := by
        simp [zjisti_stav_portu, Ford.zjisti_stav_portu, Ford.reply, read]
      have switch : d.zjisti_stav_portu.2.getPortState koncak = true := by
        simpa [zjisti_stav_portu, Ford.zjisti_stav_portu, Ford.reply, read, getPortState,
          Ford.getPortState, Ford.stav_portu, port] using made
      have other_off : d.zjisti_stav_portu.2.getPortState other = false :=
        (seen (zjisti_fresh ok) is_motor).trans ((d.zjisti_looks.drives other).trans off)
      refine absurd ⟨ok, switch, ?_, ?_⟩ not_made
      · exact (congrArg not other_off).trans rfl
      · rw [(atEnd_times d).1]
        exact passed 1

theorem held_ends {d : Dome D50} (held : Held d) (running : d.driver.stopFailed = false) : Ends d := by
  obtain failed | ⟨opening, closing⟩ := held.watched
  · simp [running] at failed
  · refine fun replies => ⟨fun on due => check_ends ?_, fun on due => check_ends ?_⟩
    · obtain ⟨state, set⟩ := opening on
      have off := held.safe.other_off (.inl rfl) on
      have ends := atEnd_due (d := (later d replies).driver) (.inr rfl) rfl set off due
      simpa [MoveEnds, later, state, isOpened] using ends
    · obtain ⟨state, set⟩ := closing on
      have off := held.safe.other_off (.inr rfl) on
      have ends := atEnd_due (d := (later d replies).driver) (.inl rfl) rfl set off due
      simpa [MoveEnds, later, state, isClosed] using ends

theorem Held.supervised {d : Dome D50} (held : Held d) : Supervised d :=
  ⟨held.watched, held_ends held⟩

theorem request_watched {d : Dome D50} (held : Held d) :
    Watched (Dome.closeRequest driver d) ↔ (d.driver.CloseLoses → d.driver.stopFailed = true) :=
  close_watched (d := { d with wanted := true, retried := 0 }) ⟨held.safe, held.watched⟩ false

theorem step_watched {d : Dome D50} (held : Held d) (event : Event) :
    Watched (step d event) ↔ Careful d event := by
  cases event with
  | call call =>
    cases call with
    | openStart isGoodWeather => exact open_watched held isGoodWeather
    | closeStart => exact request_watched held
    | masterClose autoClose =>
      cases autoClose with
      | true => exact request_watched held
      | false => exact iff_of_true held.watched trivial
    | quietClose => exact close_watched held true
    | stop =>
      refine iff_of_true (watched_of_resting ?_) trivial
      have rests := d.driver.stop_spec.resting
      simp only [step, Dome.step, Dome.domeStop]
      split <;> exact rests
    | idle settled isGoodWeather autoClose =>
      have checked := check_held held
      cases settled with
      | false => exact iff_of_true held.watched trivial
      | true =>
        cases isGoodWeather with
        | true => exact iff_of_true checked.watched trivial
        | false =>
          cases autoClose with
          | true => exact request_watched checked
          | false => exact iff_of_true checked.watched trivial
    | retry =>
      exact close_watched (d := { d with
        retryTimers := d.retryTimers - 1
        retried := if d.planned then d.retried + 1 else d.retried }) ⟨held.safe, held.watched⟩ false
  | mount connMount => exact iff_of_true held.watched trivial
  | ignoreMount ignore => exact iff_of_true held.watched trivial
  | info =>
    exact iff_of_true (watched_of_keeps (d := d) d.driver.zjisti_looks.keeps rfl held.watched) trivial

/-- A running motor is watched in all states of a run just when no event takes the state of a movement
from its motor. -/
theorem running_watched_iff {d : Dome D50} (safe : d.driver.ford.Safe) (still : d.driver.Still)
    (events : List Event) :
    (∀ done, done <+: events → Supervised (run step d done)) ↔ Guarded step Careful d events := by
  have start : Held d := ⟨safe, watched_of_resting (.inl still)⟩
  refine prefixes_iff_guarded_enabled (fun _ held => held.supervised) ?_ ?_ start
    (guarded_true step d events)
  · exact fun d event held _ careful =>
      ⟨step_safe held.safe event, (step_watched held event).mpr careful⟩
  · exact fun d event held _ supervised => (step_watched held event).mp supervised.1

def roof (koncak : BitVec 8) : Dome D50 where
  driver := start
    { portA := 0, portB := 0, outputs := 0, driven := []
      replies := fun n =>
        { read := some (if n < 9 then 0 else koncak), takesEffect := true, writes := true
          now := 10000 * n } }
  state := .DOME_UNKNOW
  retryTimers := 0
  closeRetries := 0
  closeFailReported := false
  quietClose := false
  wanted := false
  planned := false
  retried := 0

def opening : List Event := [.call (.openStart true), .call (.idle true true true)]

theorem opening_watched :
    Guarded step Careful (roof 0) opening ∧
      ∀ done, done <+: opening → Supervised (run step (roof 0) done) := by
  have careful : Guarded step Careful (roof 0) opening :=
    ⟨fun loses => absurd loses (by decide), trivial, trivial⟩
  have apart : (roof 0).driver.ford.Safe := ⟨by decide, by simp [roof, start]⟩
  exact ⟨careful, (running_watched_iff apart ⟨by decide, by decide⟩ opening).mpr careful⟩

def moving : ConnMount where
  connected := true
  ready := true
  infotime := some 1000000
  insideDome := some 0
  moving := .TEL_MOVING

/-- A close over a moving mount during the opening, an open as the roof gets open, and a close as it
gets closed. -/
theorem motor_unwatched :
    ¬ Supervised (run step (roof 0) [.call (.openStart true), .mount moving, .call .closeStart]) ∧
      ¬ Supervised (run step (roof Vystup.KONCAK_OTEVRENI.pin)
        [.call (.openStart true), .call (.openStart true)]) ∧
      ¬ Supervised (run step (roof Vystup.KONCAK_ZAVRENI.pin)
        [.ignoreMount true, .call .closeStart, .call .closeStart]) := by
  refine ⟨fun supervised => ?_, fun supervised => ?_, fun supervised => ?_⟩
  all_goals exact absurd supervised.1 (by decide)

end D50

end Rts2.Roof
