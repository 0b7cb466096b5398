import Rts2.Sensord.Scheduler

/-! Triggers and runs: only one run goes on, none of the triggers is lost, and where no run leaves a
request behind each run was asked for after the one before it. -/
namespace Rts2.Sensord

open Lib

namespace Scheduler

variable {init : Nat → Int}

def Alone (s : Scheduler) : Prop := s.currentRun = none → 0 < s.readyHold ∨ s.pending = false

def GetsReady (conn : Nat) (ready : Bool) (ts : List Telescope) : Prop :=
  ready = true ∧ ∃ t ∈ ts, t.conn = conn ∧ t.ready = false

def Waiting (s : Scheduler) : Prop := s.pending = true ∨ s.holdUntil ≠ none

instance (s : Scheduler) : Decidable s.Waiting := by
  unfold Waiting
  infer_instance

structure Served (s : Scheduler) : Prop where
  active : s.active = s.currentRun.toList
  asked : s.asked = true → s.Waiting

/-- No run left a request behind that is not newer than it. -/
structure Asked (s : Scheduler) : Prop where
  fresh : s.Waiting → s.asked = true
  rests : s.holdUntil ≠ none → s.currentRun = none
  all : s.unasked = 0

structure AtRest (s : Scheduler) : Prop where
  currentRun : s.currentRun = none
  active : s.active = []
  pending : s.pending = false
  holdUntil : s.holdUntil = none
  asked : s.asked = false
  unasked : s.unasked = 0

theorem AtRest.served {s : Scheduler} (rests : s.AtRest) : s.Served := by
  constructor
  · rw [rests.active, rests.currentRun]
    rfl
  · simp [rests.asked]

theorem AtRest.nothing_left {s : Scheduler} (rests : s.AtRest) : s.Asked := by
  constructor
  · simp [Waiting, rests.pending, rests.holdUntil]
  · simp [rests.holdUntil]
  · exact rests.unasked

section
variable (starts : ∀ n, init n = 0)
include starts

theorem startRun_eq (now : Int) (reason : String) (s : Scheduler) :
    startRun init now reason s =
      { s with
        lastStart := some now, lastReason := reason, starts := s.starts + 1
        currentRun := some s.starts, runs := s.runs + 1, active := s.active ++ [s.starts]
        asked := false
        unasked := if s.asked || s.elapsed now then s.unasked else s.unasked + 1 } := by
  simp [startRun, starts]

theorem startRun_served (now : Int) (reason : String) {s : Scheduler} (none_runs : s.active = []) :
    (startRun init now reason s).Served := by
  rw [startRun_eq starts]
  constructor
  · simp [none_runs]
  · simp

theorem startRun_asked (now : Int) (reason : String) {s : Scheduler} (all : s.unasked = 0)
    (asked : s.asked = true) (none_left : ¬ s.Waiting) : (startRun init now reason s).Asked := by
  rw [startRun_eq starts]
  constructor
  · intro left
    exact absurd left none_left
  · intro held
    exact absurd (.inr held) none_left
  · simp [asked, all]

omit starts in
theorem Served.none_runs {s : Scheduler} (served : s.Served) (rests : s.currentRun = none) :
    s.active = [] := by
  rw [served.active, rests]
  rfl

theorem trigger_served (now : Int) (reason : String) {s : Scheduler} (served : s.Served) :
    (trigger init now reason s).Served := by
  unfold trigger
  by_cases rests : s.currentRun = none
  · have none_runs := served.none_runs rests
    simp only [if_pos rests]
    split <;> exact startRun_served starts now _ none_runs
  · simp only [if_neg rests]
    constructor
    · exact served.active
    · intro _
      exact .inl rfl

theorem trigger_asked (now : Int) (reason : String) {s : Scheduler} (asked : s.Asked)
    (alone : s.currentRun = none → s.pending = false) : (trigger init now reason s).Asked := by
  unfold trigger
  by_cases rests : s.currentRun = none
  · simp only [if_pos rests]
    split
    case isTrue no_hold =>
      apply startRun_asked starts now _ (s := { s with asked := true }) asked.all rfl
      simp [Waiting, alone rests, no_hold]
    case isFalse =>
      apply startRun_asked starts now _ (s := { s with asked := true, holdUntil := none }) asked.all rfl
      simp [Waiting, alone rests]
  · simp only [if_neg rests]
    constructor
    · intro _
      rfl
    · exact asked.rests
    · exact asked.all

theorem trigger_runs (now : Int) (reason : String) (s : Scheduler) :
    (trigger init now reason s).currentRun ≠ none := by
  unfold trigger
  by_cases rests : s.currentRun = none
  · simp only [if_pos rests]
    split <;> simp [startRun_eq starts]
  · simp only [if_neg rests]
    exact rests

theorem triggerReady_served (now : Int) (reason : String) {s : Scheduler} (served : s.Served) :
    (triggerReady init now reason s).Served := by
  unfold triggerReady
  split
  · exact trigger_served starts now reason served
  · split
    case isTrue held => exact ⟨served.active, fun _ => .inr held⟩
    case isFalse => exact ⟨served.active, fun _ => .inr (by simp)⟩

theorem triggerReady_asked (now : Int) (reason : String) {s : Scheduler} (asked : s.Asked)
    (alone : s.Alone) : (triggerReady init now reason s).Asked ∧ (triggerReady init now reason s).Alone := by
  unfold triggerReady
  by_cases usual : s.currentRun ≠ none ∨ ¬ 0 < s.readyHold
  · simp only [if_pos usual]
    have free : s.currentRun = none → s.pending = false := fun rests =>
      (alone rests).resolve_left (usual.resolve_left (by simp [rests]))
    constructor
    · exact trigger_asked starts now reason asked free
    · intro rests
      exact absurd rests (trigger_runs starts now reason s)
  · simp only [if_neg usual]
    obtain ⟨rests, holds⟩ := not_or.mp usual
    have rests : s.currentRun = none := by simpa using rests
    have holds : 0 < s.readyHold := by simpa using holds
    split
    case isTrue held =>
      constructor
      · exact ⟨fun _ => rfl, asked.rests, asked.all⟩
      · exact fun _ => .inl holds
    case isFalse =>
      constructor
      · exact ⟨fun _ => rfl, fun _ => rests, asked.all⟩
      · exact fun _ => .inl holds

theorem setReady_served (now : Int) (ready : Bool) (t : Telescope) {s : Scheduler} (served : s.Served) :
    (setReady init now ready t s).2.Served := by
  unfold setReady
  split
  case isTrue => exact served
  case isFalse =>
    cases ready with
    | false => exact served
    | true => exact triggerReady_served starts now _ served

theorem setReady_asked (now : Int) (ready : Bool) (t : Telescope) {s : Scheduler} (asked : s.Asked)
    (alone : s.Alone) : (setReady init now ready t s).2.Asked ∧ (setReady init now ready t s).2.Alone := by
  unfold setReady
  split
  case isTrue => exact ⟨asked, alone⟩
  case isFalse =>
    cases ready with
    | false => exact ⟨asked, alone⟩
    | true => exact triggerReady_asked starts now _ asked alone

theorem setAllReady_served (now : Int) (conn : Nat) (ready : Bool) (ts : List Telescope) {s : Scheduler}
    (served : s.Served) : (setAllReady init now conn ready ts s).2.Served := by
  induction ts generalizing s with
  | nil => exact served
  | cons t ts ih =>
    by_cases mine : t.conn = conn
    · simp only [setAllReady, if_pos mine]
      exact ih (setReady_served starts now ready t served)
    · simp only [setAllReady, if_neg mine]
      exact ih served

theorem setAllReady_asked (now : Int) (conn : Nat) (ready : Bool) (ts : List Telescope) {s : Scheduler}
    (asked : s.Asked) (alone : s.Alone) : (setAllReady init now conn ready ts s).2.Asked := by
  induction ts generalizing s with
  | nil => exact asked
  | cons t ts ih =>
    by_cases mine : t.conn = conn
    · simp only [setAllReady, if_pos mine]
      obtain ⟨asked, alone⟩ := setReady_asked starts now ready t asked alone
      exact ih asked alone
    · simp only [setAllReady, if_neg mine]
      exact ih asked alone

omit starts in
theorem setAllReady_still (now : Int) (conn : Nat) (ready : Bool) (ts : List Telescope) (s : Scheduler)
    (still : ¬ GetsReady conn ready ts) : (setAllReady init now conn ready ts s).2 = s := by
  induction ts generalizing s with
  | nil => rfl
  | cons t ts ih =>
    have rest : ¬ GetsReady conn ready ts := by
      rintro ⟨on, t, here, mine, off⟩
      exact still ⟨on, t, List.mem_cons_of_mem _ here, mine, off⟩
    by_cases mine : t.conn = conn
    · have same : (setReady init now ready t s).2 = s := by
        unfold setReady
        split
        case isTrue => rfl
        case isFalse changes =>
          cases ready with
          | false => rfl
          | true => exact absurd ⟨rfl, t, List.mem_cons_self, mine, by simpa using changes⟩ still
      simp only [setAllReady, if_pos mine]
      rw [same]
      exact ih s rest
    · simp only [setAllReady, if_neg mine]
      exact ih s rest

theorem info_served (now : Int) {s : Scheduler} (served : s.Served) : (info init now s).Served := by
  unfold info
  split
  · exact trigger_served starts now _ served
  · exact served

theorem info_asked (now : Int) {s : Scheduler} (asked : s.Asked) : (info init now s).Asked := by
  unfold info
  split
  case isTrue due =>
    apply trigger_asked starts now _ asked
    intro _
    simpa using due.2.1
  case isFalse => exact asked

omit starts in
theorem runEnded_served (run : Nat) {s : Scheduler} (served : s.Served) : (runEnded run s).Served := by
  have active := served.active
  unfold runEnded
  by_cases mine : s.currentRun = some run
  · simp only [if_pos mine]
    constructor
    · simp [active, mine]
    · exact served.asked
  · simp only [if_neg mine]
    constructor
    · cases current : s.currentRun with
      | none => simp [active, current]
      | some other =>
        have differs : ¬ other = run := fun same => mine (by rw [current, same])
        simp [active, current, differs]
    · exact served.asked

omit starts in
theorem runEnded_asked (run : Nat) {s : Scheduler} (asked : s.Asked) : (runEnded run s).Asked := by
  unfold runEnded
  by_cases mine : s.currentRun = some run
  · simp only [if_pos mine]
    exact ⟨asked.fresh, fun _ => rfl, asked.all⟩
  · simp only [if_neg mine]
    exact ⟨asked.fresh, asked.rests, asked.all⟩

omit starts in
theorem idleHold_cases (now : Int) (s : Scheduler) :
    (s.currentRun = none ∧ (∃ hold, s.holdUntil = some hold ∧ hold ≤ now) ∧
      idleHold init now s = startRun init now s.holdReason { s with holdUntil := none }) ∨
    (idleHold init now s = s ∧ (s.currentRun = none → ∀ hold, s.holdUntil = some hold → ¬ hold ≤ now)) := by
  unfold idleHold
  cases held : s.holdUntil with
  | none => exact .inr ⟨rfl, by simp⟩
  | some hold =>
    by_cases due : s.currentRun = none ∧ hold ≤ now
    · exact .inl ⟨due.1, ⟨hold, rfl, due.2⟩, by simp only [if_pos due]⟩
    · refine .inr ⟨by simp only [if_neg due], ?_⟩
      intro rests _ same past
      injection same with same
      exact due ⟨rests, same ▸ past⟩

theorem idle_served (now : Int) {s : Scheduler} (served : s.Served) : (idle init now s).Served := by
  have after : (idleHold init now s).Served := by
    obtain ⟨rests, _, starting⟩ | ⟨same, _⟩ := idleHold_cases now s
    · rw [starting]
      exact startRun_served starts now _ (served.none_runs rests)
    · rw [same]
      exact served
  simp only [idle]
  generalize idleHold init now s = held at after
  split
  case isTrue begins => exact startRun_served starts now _ (after.none_runs begins.1)
  case isFalse => exact after

theorem idle_asked (now : Int) {s : Scheduler} (asked : s.Asked)
    (one : s.currentRun = none → s.pending = true → s.holdUntil = none) : (idle init now s).Asked := by
  simp only [idle]
  obtain ⟨rests, ⟨hold, held, _⟩, starting⟩ | ⟨same, _⟩ := idleHold_cases now s
  · have request : s.asked = true := asked.fresh (.inr (by simp [held]))
    have none_pending : s.pending = false := by
      cases pending : s.pending with
      | false => rfl
      | true => simp [one rests pending] at held
    rw [starting]
    have started : (startRun init now s.holdReason { s with holdUntil := none }).Asked :=
      startRun_asked starts now _ asked.all request (by simp [Waiting, none_pending])
    have running : (startRun init now s.holdReason { s with holdUntil := none }).currentRun ≠ none := by
      simp [startRun_eq starts]
    rw [if_neg (fun begins => running begins.1)]
    exact started
  · rw [same]
    split
    case isTrue begins =>
      have request : s.asked = true := asked.fresh (.inl begins.2)
      apply startRun_asked starts now _ (s := { s with pending := false, pendingReason := "" }) asked.all request
      simp [Waiting, one begins.1 begins.2]
    case isFalse => exact asked

def Due (now : Int) (s : Scheduler) : Prop :=
  s.pending = true ∨ ∃ hold, s.holdUntil = some hold ∧ hold ≤ now

theorem idle_serves (now : Int) {s : Scheduler} (rests : s.currentRun = none) (due : s.Due now) :
    (idle init now s).currentRun = some s.starts ∧ (idle init now s).asked = false := by
  simp only [idle]
  obtain ⟨_, _, starting⟩ | ⟨same, early⟩ := idleHold_cases now s
  · rw [starting, startRun_eq starts]
    simp
  · rw [same]
    have pending : s.pending = true := by
      obtain pending | ⟨hold, held, past⟩ := due
      · exact pending
      · exact absurd past (early rests hold held)
    rw [if_pos ⟨rests, pending⟩, startRun_eq starts]
    simp

def Careful (s : Scheduler) : Int × Event → Prop
  | (_, .run) => s.currentRun = none → s.pending = false
  | (_, .setMasterState conn new_state) => GetsReady conn (stateReady new_state) s.telescopes → s.Alone
  | (_, .idle) => s.currentRun = none → s.pending = true → s.holdUntil = none
  | _ => True

theorem step_served {s : Scheduler} (served : s.Served) (event : Int × Event) :
    (step init s event).Served := by
  obtain ⟨now, event⟩ := event
  cases event with
  | setMasterState conn new_state =>
    have all := setAllReady_served starts now conn (stateReady new_state) s.telescopes served
    exact ⟨all.active, all.asked⟩
  | centraldConnBroken conn =>
    have all := setAllReady_served starts now conn false s.telescopes served
    exact ⟨all.active, all.asked⟩
  | run => exact trigger_served starts now _ served
  | info => exact info_served starts now served
  | runEnded run => exact runEnded_served run served
  | idle => exact idle_served starts now served
  | setValues interval readyHold => exact ⟨served.active, served.asked⟩

theorem step_asked {s : Scheduler} (asked : s.Asked) (event : Int × Event) (careful : s.Careful event) :
    (step init s event).Asked := by
  obtain ⟨now, event⟩ := event
  cases event with
  | setMasterState conn new_state =>
    by_cases gets : GetsReady conn (stateReady new_state) s.telescopes
    · have all := setAllReady_asked starts now conn (stateReady new_state) s.telescopes asked (careful gets)
      exact ⟨all.fresh, all.rests, all.all⟩
    · have same : (setAllReady init now conn (stateReady new_state) s.telescopes s).2 = s :=
        setAllReady_still now conn _ s.telescopes s gets
      simp only [step, setMasterState, same]
      exact ⟨asked.fresh, asked.rests, asked.all⟩
  | centraldConnBroken conn =>
    have same : (setAllReady init now conn false s.telescopes s).2 = s :=
      setAllReady_still now conn false s.telescopes s (by simp [GetsReady])
    simp only [step, centraldConnBroken, same]
    exact ⟨asked.fresh, asked.rests, asked.all⟩
  | run => exact trigger_asked starts now _ asked careful
  | info => exact info_asked starts now asked
  | runEnded run => exact runEnded_asked run asked
  | idle => exact idle_asked starts now asked careful
  | setValues interval readyHold => exact ⟨asked.fresh, asked.rests, asked.all⟩

/-- One run goes on at most; a trigger is followed by a run or waits for one, and the pass that finds no
run serves what waits; where each event finds what it must, every run was asked for after the start of
the one before it. -/
theorem runs_coalesced {s : Scheduler} (rests : s.AtRest) (events : List (Int × Event)) :
    let t := run (step init) s events
    t.active.length ≤ 1 ∧ (t.asked = true → t.Waiting) ∧
      (∀ now, t.currentRun = none → t.Due now →
        (step init t (now, .idle)).currentRun = some t.starts ∧ (step init t (now, .idle)).asked = false) ∧
      (Guarded (step init) Careful s events → t.unasked = 0) := by
  have served : (run (step init) s events).Served :=
    run_invariant (step init) (fun _ _ => True) Served (fun s event held _ => step_served starts held event)
      s events rests.served (guarded_true _ s events)
  refine ⟨?_, served.asked, fun now none due => idle_serves starts now none due, fun guarded => ?_⟩
  · rw [served.active]
    cases (run (step init) s events).currentRun <;> simp
  · have asked : (run (step init) s events).Asked :=
      run_invariant (step init) Careful Asked (fun s event held careful => step_asked starts held event careful)
        s events rests.nothing_left guarded
    exact asked.all

end

def scheduler : Scheduler where
  telescopes := [⟨"d50", 0, false⟩, ⟨"bart", 1, false⟩]
  currentRun := none
  pending := false
  pendingReason := ""
  lastStart := none
  lastReason := ""
  runs := 0
  interval := 1200000
  readyHold := 30000
  holdUntil := none
  holdReason := ""
  starts := 0
  active := []
  asked := false
  unasked := 0

theorem scheduler_atRest : scheduler.AtRest := ⟨rfl, rfl, rfl, rfl, rfl, rfl⟩

def night : List (Int × Event) :=
  [(0, .setMasterState 0 3), (20000, .setMasterState 1 3), (30000, .idle), (40000, .run), (50000, .runEnded 0),
    (51000, .idle)]

theorem night_coalesced :
    Guarded (step fun _ => 0) Careful scheduler night ∧
      (run (step fun _ => 0) scheduler night).unasked = 0 := by
  have careful : Guarded (step fun _ => 0) Careful scheduler night := by
    refine ⟨?_, ?_, ?_, ?_, trivial, ?_, trivial⟩
    · exact fun _ _ => .inl (by decide)
    · exact fun _ _ => .inl (by decide)
    · exact fun _ pending => absurd pending (by decide)
    · exact fun none_runs => absurd none_runs (by decide)
    · exact fun _ _ => by decide
  exact ⟨careful, (runs_coalesced (fun _ => rfl) scheduler_atRest night).2.2.2 careful⟩

/-- A command between the end of a run and the next pass, and a telescope that gets ready there: one run
serves both triggers, and another one follows. -/
theorem run_follows :
    (run (step fun _ => 0) scheduler
      [(0, .run), (1000, .run), (2000, .runEnded 0), (2500, .run), (3000, .runEnded 1), (3500, .idle)]).unasked = 1 ∧
    (run (step fun _ => 0) scheduler
      [(0, .run), (1000, .run), (2000, .runEnded 0), (2500, .setMasterState 0 3), (3000, .idle),
        (4000, .runEnded 1), (32500, .idle)]).unasked = 1 := by
  decide

end Scheduler

end Rts2.Sensord
