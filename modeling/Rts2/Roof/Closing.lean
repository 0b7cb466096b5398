import Rts2.Roof.Dome

/-! A close that was asked for: what keeps it going until the dome is seen closed. -/
namespace Rts2.Roof

open Lib

namespace Dome

variable {σ : Type}

/-- The close that is wanted is under way, a timer will try it again, or all its retries were used. -/
def Pursued (d : Dome σ) : Prop :=
  d.wanted = true →
    d.state = .DOME_CLOSING ∨ 0 < d.retryTimers ∨ DOME_CLOSE_MAX_RETRIES ≤ d.retried

instance (d : Dome σ) : Decidable d.Pursued := by
  unfold Pursued
  infer_instance

def Waits (d : Dome σ) : Prop :=
  d.wanted = true ∧ d.state ≠ .DOME_CLOSING ∧ d.retried < DOME_CLOSE_MAX_RETRIES

instance (d : Dome σ) : Decidable d.Waits := by
  unfold Waits
  infer_instance

variable (D : Driver σ)

def Opens (isGoodWeather : Bool) (s : σ) : Prop :=
  (D.isOpened s).1 = -2 ∨ isGoodWeather = true ∧ (D.startOpen (D.isOpened s).2).1 = 0

instance (isGoodWeather : Bool) (s : σ) : Decidable (Opens D isGoodWeather s) := by
  unfold Opens
  infer_instance

def EndsOpen (s : σ) : Prop :=
  (D.isClosed s).1 = -1 ∨ (D.isClosed s).1 = -2 ∧ (D.endClose (D.isClosed s).2).1 ≠ 0

instance (s : σ) : Decidable (EndsOpen D s) := by
  unfold EndsOpen
  infer_instance

/-- What calls must not find: an open or a stop that fails when only the timer keeps the close going,
which they delete, and a failed close when the retries were used by an earlier request. -/
def Careful (d : Dome σ) : Call → Prop
  | .openStart isGoodWeather => d.Waits → Opens D isGoodWeather d.driver
  | .stop => d.Waits → 0 ≤ (D.stop d.driver).1
  | .idle settled isGoodWeather autoClose =>
    settled = true → (isGoodWeather = true ∨ autoClose = false) → d.wanted = true →
      d.state = .DOME_CLOSING → EndsOpen D d.driver → DOME_CLOSE_MAX_RETRIES ≤ d.closeRetries →
        d.retryTimers = 0 → DOME_CLOSE_MAX_RETRIES ≤ d.retried
  | _ => True

/-- What holds besides: the retries of a request are among those that were counted, a close that is
wanted is not quiet, and its timer was set by one that failed or waits. -/
structure Counted (d : Dome σ) : Prop where
  counted : d.wanted = true → (if d.planned then d.retried + 1 else d.retried) ≤ d.closeRetries
  loud : d.wanted = true → d.quietClose = false
  set : 0 < d.retryTimers → d.wanted = true →
    d.closeFailing = true ∨ d.state = .DOME_WAIT_CLOSING

def deleted (d : Dome σ) (driver : σ) : Dome σ :=
  { d with driver := driver, retryTimers := 0, planned := false }

theorem domeCloseStart_cases (quiet : Bool) (d : Dome σ) :
    ∃ driver,
      (domeCloseStart D quiet d).2 =
          { d.deleted driver with
            quietClose := quiet, state := .DOME_CLOSED, closeRetries := 0, wanted := false } ∨
        (domeCloseStart D quiet d).2 =
          { d.deleted driver with retryTimers := 1, quietClose := quiet, closeFailReported := true } ∨
        (domeCloseStart D quiet d).2 =
          { d.deleted driver with
            retryTimers := 1, quietClose := quiet, state := .DOME_WAIT_CLOSING } ∨
        (domeCloseStart D quiet d).2 =
          { d.deleted driver with
            quietClose := quiet, closeFailReported := false, state := .DOME_CLOSING } := by
  unfold domeCloseStart
  by_cases closed : (D.isClosed d.driver).1 = -2
  · exact ⟨_, .inl (by simp only [closed, if_true]; rfl)⟩
  · by_cases failed : (D.startClose (D.isClosed d.driver).2).1 < 0
    · exact ⟨_, .inr (.inl (by simp only [closed, failed, if_true, if_false]; rfl))⟩
    · by_cases waits : 0 < (D.startClose (D.isClosed d.driver).2).1
      · exact ⟨_, .inr (.inr (.inl (by simp only [closed, failed, waits, if_true, if_false]; rfl)))⟩
      · exact ⟨_, .inr (.inr (.inr (by simp only [closed, failed, waits, if_false]; rfl)))⟩

theorem domeOpenStart_cases (isGoodWeather : Bool) (d : Dome σ) :
    ∃ driver,
      Opens D isGoodWeather d.driver ∧
          (∃ state closeFailReported closeRetries, (domeOpenStart D isGoodWeather d).2 =
            { d.deleted driver with
              state := state, closeFailReported := closeFailReported, closeRetries := closeRetries
              wanted := false }) ∨
        ¬ Opens D isGoodWeather d.driver ∧
          (domeOpenStart D isGoodWeather d).2 = d.deleted driver := by
  unfold domeOpenStart Opens
  by_cases opened : (D.isOpened d.driver).1 = -2
  · exact ⟨_, .inl ⟨.inl opened, _, _, _, by simp only [opened, if_true]; rfl⟩⟩
  · cases isGoodWeather with
    | false => exact ⟨_, .inr ⟨by simp [opened], by simp only [opened, if_false]; rfl⟩⟩
    | true =>
      by_cases started : (D.startOpen (D.isOpened d.driver).2).1 = 0
      · exact ⟨(D.startOpen (D.isOpened d.driver).2).2, .inl ⟨.inr ⟨rfl, started⟩, .DOME_OPENING,
          false, 0, by simp [deleted, opened, started]⟩⟩
      · exact ⟨(D.startOpen (D.isOpened d.driver).2).2,
          .inr ⟨by simp [opened, started], by simp [deleted, opened, started]⟩⟩

theorem domeStop_cases (d : Dome σ) :
    ∃ driver,
      0 ≤ (D.stop d.driver).1 ∧ (domeStop D d).2 = { d.deleted driver with wanted := false } ∨
        (D.stop d.driver).1 < 0 ∧ (domeStop D d).2 = d.deleted driver := by
  unfold domeStop
  by_cases failed : (D.stop d.driver).1 < 0
  · exact ⟨_, .inr ⟨failed, by simp only [failed, if_true]; rfl⟩⟩
  · exact ⟨_, .inl ⟨by omega, by simp only [failed, if_false]; rfl⟩⟩

theorem checkOpening_cases (d : Dome σ) :
    ∃ driver,
      checkOpening D d = { d with driver := driver } ∧
          ¬ (d.state = .DOME_CLOSING ∧ EndsOpen D d.driver) ∨
        d.state = .DOME_OPENING ∧
          checkOpening D d = { d with driver := driver, state := .DOME_OPENED } ∨
        d.state = .DOME_CLOSING ∧ ¬ EndsOpen D d.driver ∧
          checkOpening D d =
            { d with driver := driver, state := .DOME_CLOSED, closeRetries := 0, wanted := false } ∨
        d.state = .DOME_CLOSING ∧ EndsOpen D d.driver ∧
          (checkOpening D d = closeFailed { d with driver := driver, state := .DOME_CLOSED } ∨
            d.quietClose = true ∧ checkOpening D d =
              { d with driver := driver, state := .DOME_CLOSED, quietClose := false }) := by
  unfold checkOpening
  cases state : d.state
  case DOME_OPENING =>
    by_cases ends : (D.isOpened d.driver).1 = -1 ∨ (D.isOpened d.driver).1 = -2
    · exact ⟨_, .inr (.inl ⟨rfl, by simp only [ends, if_true]; rfl⟩)⟩
    · exact ⟨_, .inl ⟨by simp only [ends, if_false]; rfl, by simp⟩⟩
  case DOME_CLOSING =>
    by_cases late : (D.isClosed d.driver).1 = -1
    · have ends : EndsOpen D d.driver := .inl late
      cases quiet : d.quietClose with
      | true =>
        exact ⟨(D.endClose (D.isClosed d.driver).2).2,
          .inr (.inr (.inr ⟨rfl, ends, .inr ⟨rfl, by simp [late]⟩⟩))⟩
      | false =>
        exact ⟨(D.endClose (D.isClosed d.driver).2).2,
          .inr (.inr (.inr ⟨rfl, ends, .inl (by simp [late])⟩))⟩
    · by_cases closed : (D.isClosed d.driver).1 = -2
      · refine ⟨(D.endClose (D.isClosed d.driver).2).2, ?_⟩
        by_cases failed : (D.endClose (D.isClosed d.driver).2).1 = 0
        · have clean : ¬ EndsOpen D d.driver := by simp [EndsOpen, late, failed]
          exact .inr (.inr (.inl ⟨rfl, clean, by simp [closed, failed]⟩))
        · have ends : EndsOpen D d.driver := .inr ⟨closed, failed⟩
          exact .inr (.inr (.inr ⟨rfl, ends, .inl (by simp [closed, failed])⟩))
      · have goes : ¬ EndsOpen D d.driver := by simp [EndsOpen, late, closed]
        exact ⟨(D.isClosed d.driver).2, .inl ⟨by simp [late, closed, ← state], by simp [goes]⟩⟩
  all_goals exact ⟨d.driver, .inl ⟨by simp [← state], by simp⟩⟩

def Held (d : Dome σ) : Prop := d.Pursued ∧ d.Counted

theorem held_of_unwanted {d : Dome σ} (unwanted : d.wanted = false) : d.Held := by
  refine ⟨?_, ⟨?_, ?_, ?_⟩⟩
  · intro wanted
    simp [unwanted] at wanted
  all_goals simp [unwanted]

theorem settled_of_unwanted {d : Dome σ} (unwanted : d.wanted = false) {careful : Prop}
    (ok : careful) : d.Counted ∧ (d.Pursued ↔ careful) :=
  ⟨(held_of_unwanted unwanted).2, iff_of_true (held_of_unwanted unwanted).1 ok⟩

theorem domeCloseStart_held {d : Dome σ} (counted : d.wanted = true → d.retried ≤ d.closeRetries) :
    (domeCloseStart D false d).2.Held := by
  obtain ⟨driver, closed | failed | waits | runs⟩ := domeCloseStart_cases D false d
  · exact held_of_unwanted (by rw [closed])
  · rw [failed]
    refine ⟨fun _ => .inr (.inl Nat.one_pos), counted, fun _ => rfl, fun _ _ => .inl ?_⟩
    simp [closeFailing]
  · rw [waits]
    exact ⟨fun _ => .inr (.inl Nat.one_pos), counted, fun _ => rfl, fun _ _ => .inr rfl⟩
  · rw [runs]
    exact ⟨fun _ => .inl rfl, counted, fun _ => rfl, fun pending => absurd pending (lt_irrefl 0)⟩

theorem domeCloseStart_unwanted {d : Dome σ} (unwanted : d.wanted = false) (quiet : Bool) :
    (domeCloseStart D quiet d).2.wanted = false := by
  obtain ⟨driver, closed | failed | waits | runs⟩ := domeCloseStart_cases D quiet d
  · rw [closed]
  · rw [failed]
    exact unwanted
  · rw [waits]
    exact unwanted
  · rw [runs]
    exact unwanted

theorem quiet_unwanted {d : Dome σ} (held : d.Held) (enabled : d.Enabled .quietClose) :
    d.wanted = false := by
  obtain ⟨pursued, counted, -, set⟩ := held
  obtain ⟨closed, failing⟩ := enabled
  by_contra wanted
  have wanted : d.wanted = true := by simpa using wanted
  have used := counted wanted
  have unused : d.closeRetries = 0 := by
    simp only [closeFailing, Bool.or_eq_false_iff, decide_eq_false_iff_not] at failing
    omega
  obtain closing | pending | retried := pursued wanted
  · simp [closed] at closing
  · simpa [closed, failing] using set pending wanted
  · simp only [DOME_CLOSE_MAX_RETRIES] at retried
    split at used <;> omega

theorem closeRequest_held (d : Dome σ) : (closeRequest D d).Held :=
  domeCloseStart_held D (fun _ => Nat.zero_le _)

theorem pursued_deleted (d : Dome σ) (driver : σ) :
    (d.deleted driver).Pursued ↔ ¬ d.Waits := by
  simp only [Pursued, Waits, deleted]
  grind

theorem counted_deleted {d : Dome σ} (held : d.Held) (driver : σ) :
    (d.deleted driver).Counted := by
  obtain ⟨-, counted, loud, -⟩ := held
  refine ⟨fun wanted => ?_, loud, fun pending => absurd pending (lt_irrefl 0)⟩
  have := counted wanted
  grind [deleted]

theorem closeFailed_pursued (d : Dome σ) (driver : σ) :
    (closeFailed { d with driver := driver, state := .DOME_CLOSED }).Pursued ↔
      (d.wanted = true → DOME_CLOSE_MAX_RETRIES ≤ d.closeRetries → d.retryTimers = 0 →
        DOME_CLOSE_MAX_RETRIES ≤ d.retried) := by
  by_cases left : d.closeRetries < DOME_CLOSE_MAX_RETRIES
  · have retries : closeFailed { d with driver := driver, state := .DOME_CLOSED } = _ := if_pos left
    rw [retries]
    refine iff_of_true (fun _ => .inr (.inl (Nat.succ_pos _))) (fun _ used => ?_)
    omega
  · have gives_up : closeFailed { d with driver := driver, state := .DOME_CLOSED } = _ := if_neg left
    rw [gives_up]
    simp only [Pursued]
    grind

theorem closeFailed_counted {d : Dome σ} (counted : d.Counted) (driver : σ) :
    (closeFailed { d with driver := driver, state := .DOME_CLOSED }).Counted := by
  by_cases left : d.closeRetries < DOME_CLOSE_MAX_RETRIES
  · have retries : closeFailed { d with driver := driver, state := .DOME_CLOSED } = _ := if_pos left
    rw [retries]
    refine ⟨fun wanted => ?_, counted.loud, fun _ _ => .inl (by simp [closeFailing])⟩
    have := counted.counted wanted
    grind
  · have gives_up : closeFailed { d with driver := driver, state := .DOME_CLOSED } = _ := if_neg left
    rw [gives_up]
    refine ⟨counted.counted, counted.loud, fun _ _ => .inl ?_⟩
    have := not_lt.mp left
    simp only [closeFailing, DOME_CLOSE_MAX_RETRIES] at this ⊢
    simp [show 0 < d.closeRetries by omega]

def Spared (d : Dome σ) : Prop :=
  d.wanted = true → d.state = .DOME_CLOSING → EndsOpen D d.driver →
    DOME_CLOSE_MAX_RETRIES ≤ d.closeRetries → d.retryTimers = 0 → DOME_CLOSE_MAX_RETRIES ≤ d.retried

theorem checkOpening_held {d : Dome σ} (held : d.Held) :
    (checkOpening D d).Counted ∧ ((checkOpening D d).Pursued ↔ Spared D d) := by
  obtain ⟨pursued, counted, loud, set⟩ := held
  obtain ⟨driver, ⟨same, goes⟩ | ⟨opening, same⟩ | ⟨closing, clean, same⟩ | ⟨closing, ends, same⟩⟩ :=
    checkOpening_cases D d
  · rw [same]
    exact ⟨⟨counted, loud, set⟩, iff_of_true pursued (fun _ state ends => absurd ⟨state, ends⟩ goes)⟩
  · rw [same]
    refine ⟨⟨counted, loud, fun pending wanted => ?_⟩,
      iff_of_true (fun wanted => ?_) (fun _ state => ?_)⟩
    · exact .inl ((set pending wanted).resolve_right (by simp [opening]))
    · simpa [opening] using pursued wanted
    · simp [opening] at state
  · rw [same]
    exact settled_of_unwanted rfl (fun _ _ ends => absurd ends clean)
  · obtain same | ⟨quiet, same⟩ := same
    · rw [same]
      exact ⟨closeFailed_counted ⟨counted, loud, set⟩ driver,
        (closeFailed_pursued d driver).trans (by simp [Spared, closing, ends])⟩
    · have unwanted : d.wanted = false := by
        by_contra wanted
        simp [loud (by simpa using wanted)] at quiet
      rw [same]
      have spared : Spared D d := fun wanted => by simp [unwanted] at wanted
      exact settled_of_unwanted (d := { d with
        driver := driver, state := .DOME_CLOSED, quietClose := false }) unwanted spared

theorem step_held {d : Dome σ} (held : d.Held) {call : Call} (enabled : d.Enabled call) :
    (step D d call).Counted ∧ ((step D d call).Pursued ↔ Careful D d call) := by
  cases call with
  | openStart isGoodWeather =>
    simp only [step, Careful]
    obtain ⟨driver, ⟨opens, _, _, _, same⟩ | ⟨stays, same⟩⟩ := domeOpenStart_cases D isGoodWeather d
    · rw [same]
      exact settled_of_unwanted rfl (fun _ => opens)
    · rw [same]
      exact ⟨counted_deleted held driver, (pursued_deleted d driver).trans (by simp [stays])⟩
  | closeStart => exact ⟨(closeRequest_held D d).2, iff_of_true (closeRequest_held D d).1 trivial⟩
  | masterClose autoClose =>
    cases autoClose with
    | true => exact ⟨(closeRequest_held D d).2, iff_of_true (closeRequest_held D d).1 trivial⟩
    | false => exact ⟨held.2, iff_of_true held.1 trivial⟩
  | quietClose =>
    exact settled_of_unwanted (domeCloseStart_unwanted D (quiet_unwanted held enabled) true) trivial
  | stop =>
    simp only [step, Careful]
    obtain ⟨driver, ⟨stops, same⟩ | ⟨fails, same⟩⟩ := domeStop_cases D d
    · rw [same]
      exact settled_of_unwanted rfl (fun _ => stops)
    · rw [same]
      have careful : ¬ d.Waits ↔ (d.Waits → 0 ≤ (D.stop d.driver).1) := by simp [not_le.mpr fails]
      exact ⟨counted_deleted held driver, (pursued_deleted d driver).trans careful⟩
  | idle settled isGoodWeather autoClose =>
    cases settled with
    | false => exact ⟨held.2, iff_of_true held.1 (fun settled => by simp at settled)⟩
    | true =>
      cases isGoodWeather with
      | true =>
        obtain ⟨counted, pursued⟩ := checkOpening_held D held
        refine ⟨counted, pursued.trans ⟨fun spared _ _ => spared, fun spared => ?_⟩⟩
        exact spared rfl (.inl rfl)
      | false =>
        cases autoClose with
        | true =>
          have requested := closeRequest_held D (checkOpening D d)
          exact ⟨requested.2, iff_of_true requested.1 (fun _ left => by simp at left)⟩
        | false =>
          obtain ⟨counted, pursued⟩ := checkOpening_held D held
          refine ⟨counted, pursued.trans ⟨fun spared _ _ => spared, fun spared => ?_⟩⟩
          exact spared rfl (.inr rfl)
  | retry =>
    have retried := domeCloseStart_held D (d := { d with
      retryTimers := d.retryTimers - 1
      retried := if d.planned then d.retried + 1 else d.retried }) held.2.counted
    exact ⟨retried.2, iff_of_true retried.1 trivial⟩

/-- A close that was asked for goes on, is tried again, or was retried as often as it may be, in all
states of a run just when no call of it finds what it must not. -/
theorem wanted_close_iff {d : Dome σ} (idle : d.wanted = false) {calls : List Call}
    (runs : Guarded (step D) Enabled d calls) :
    (∀ done, done <+: calls → (run (step D) d done).Pursued) ↔
      Guarded (step D) (Careful D) d calls := by
  have implied : ∀ d : Dome σ, d.Held → d.Pursued := fun _ held => held.1
  refine prefixes_iff_guarded_enabled implied ?_ ?_ (held_of_unwanted idle) runs
  · intro d call held enabled careful
    exact ⟨((step_held D held enabled).2).mpr careful, (step_held D held enabled).1⟩
  · exact fun d call held enabled pursued => ((step_held D held enabled).2).mp pursued

def stuck : Driver Unit where
  startOpen _ := (0, ())
  isOpened _ := (-1, ())
  endOpen _ := (-1, ())
  startClose _ := (0, ())
  isClosed _ := (-1, ())
  endClose _ := (-1, ())
  stop _ := (0, ())

def blocked : Driver Unit := { stuck with startClose := fun _ => (1, ()) }

def opened : Dome Unit where
  driver := ()
  state := .DOME_OPENED
  retryTimers := 0
  closeRetries := 0
  closeFailReported := false
  quietClose := false
  wanted := false
  planned := false
  retried := 0

def closeFails : List Call := [.closeStart, .idle true true false]

def closeRetried : List Call := closeFails ++ [.retry, .idle true true false]

theorem retried_close_pursued :
    Guarded (step stuck) Enabled opened closeRetried ∧
      ∀ done, done <+: closeRetried → (run (step stuck) opened done).Pursued := by
  have runs : Guarded (step stuck) Enabled opened closeRetried := by decide
  have careful : Guarded (step stuck) (Careful stuck) opened closeRetried :=
    ⟨trivial, fun _ _ _ _ _ used => absurd used (by decide), trivial,
      fun _ _ _ _ _ used => absurd used (by decide), trivial⟩
  exact ⟨runs, (wanted_close_iff stuck rfl runs).mpr careful⟩

/-- An open in bad weather ends a close that waits for the mount, and after a close that was given up
the next one has no retries. -/
theorem wanted_close_dropped :
    ¬ (run (step blocked) opened [.closeStart, .openStart false]).Pursued ∧
      ¬ (run (step stuck) opened (closeRetried ++ [.retry, .idle true true false, .retry,
        .idle true true false] ++ closeFails)).Pursued := by
  decide

end Dome

end Rts2.Roof
