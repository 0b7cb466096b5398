import Rts2.Plan.Executor
import Rts2.Lib.Run

/-! The steps of the executor, taken apart once: what a property has to be kept by so that every
command and every event keeps it. -/
namespace Rts2.Plan

open Lib Kernel

variable {τ δ : Type}

/-- Two states that differ in switches of the executor only. -/
structure Flags (s p : Executor τ) : Prop where
  target : p.target = s.target
  made : p.made = s.made
  deleted : p.deleted = s.deleted
  queue : p.queue = s.queue
  currentTarget : p.currentTarget = s.currentTarget
  targetsQue : p.targetsQue = s.targetsQue
  nextObs : p.nextObs = s.nextObs
  starts : p.starts = s.starts
  ends : p.ends = s.ends

/-- What keeps a property: the parts that handlers are made of. `own` is a condition on an event
that changes the queue or the observation of the current target by itself. -/
structure Parts (P : Executor τ → Prop) (own : Executor τ → Event τ → Prop) (w : World τ δ) :
    Prop where
  flags : ∀ {s p}, P s → Flags s p → P p
  cleared : ∀ {s}, P s → P s.clearNextTargets
  queued : ∀ {s} row t_start t_end, P s → P ((s.createTarget row).addTarget s.made t_start t_end)
  replaced : ∀ {s} row, P s → P ((s.createTarget row).clearNextTargets.addTarget s.made none none)
  discarded : ∀ {s} row, P s → P ((s.createTarget row).deleteTarget s.made)
  begun : ∀ {s t}, P s → s.currentTarget = some t → P (s.startObservation t)
  removed : ∀ {s} index, P s → own s (.removeIndex index) →
    P (s.setQueue (s.queue.removeIndex index))
  renewed : ∀ {s t} inserted, P s → s.currentTarget = some t → P (s.newObsSlew w t inserted)
  slewed : ∀ {s t} inserted, P s → s.currentTarget = some t → P (s.startSlew t inserted)
  closed : ∀ {s t} inserted, P s → own s (.slewToTarget true inserted) →
    s.currentTarget = some t → P ((s.endObservation w t (-1)).1.startSlew t inserted)

/-- What a handler leaves to be called: the state has the property, or it is such a state with a
new target that is to be observed at once. -/
def CallKeeps (P : Executor τ → Prop) : Call τ → Prop
  | .switchTarget p => P p
  | .setNow p newTarget => ∃ s row, P s ∧ p = s.createTarget row ∧ newTarget = s.made
  | .stay p => P p

namespace Executor

variable {P : Executor τ → Prop} {own : Executor τ → Event τ → Prop} {w : World τ δ}
  {s : Executor τ}

theorem queueTarget_keeps (parts : Parts P own w) (good : P s) (t_start t_end : Option τ) :
    CallKeeps P (s.queueTarget w t_start t_end) := by
  unfold queueTarget
  cases w.created with
  | none => exact good
  | some row =>
    have added := parts.queued row t_start t_end good
    cases s.currentTarget <;> exact added

theorem setNext_keeps (parts : Parts P own w) (good : P s) (nextId : Int) :
    CallKeeps P (s.setNext w nextId) := by
  unfold setNext
  cases s.queue.entries with
  | nil => exact queueTarget_keeps parts good none none
  | cons front rest =>
    simp only
    split
    · exact good
    · exact queueTarget_keeps parts (parts.cleared good) none none

theorem setNowId_keeps (parts : Parts P own w) (good : P s) (nextId : Int) :
    CallKeeps P (s.setNowId w nextId) := by
  unfold setNowId
  cases s.currentTarget with
  | none => exact setNext_keeps parts good nextId
  | some t =>
    cases w.created with
    | none => exact good
    | some row => exact ⟨s, row, good, rfl, rfl⟩

theorem setGrb_keeps (parts : Parts P own w) (good : P s) (grb : GrbAnswers) :
    CallKeeps P (s.setGrb w grb) := by
  unfold setGrb
  split
  · exact good
  split
  · exact good
  cases w.created with
  | none => exact good
  | some row =>
    have deleted := parts.discarded row good
    simp only
    split
    · exact deleted
    split
    · exact deleted
    split
    · exact deleted
    cases s.currentTarget with
    | none => exact ⟨s, row, good, rfl, rfl⟩
    | some t =>
      simp only
      split
      · exact deleted
      split
      · exact ⟨s, row, good, rfl, rfl⟩
      split
      · exact deleted
      · exact parts.replaced row good

theorem whenIdle_keeps (good : P s) : CallKeeps P (s.whenIdle w) := by
  unfold whenIdle
  split <;> exact good

theorem stop_keeps (parts : Parts P own w) (good : P s) : CallKeeps P (s.stop w) :=
  whenIdle_keeps (parts.cleared good)

theorem changeMasterState_keeps (parts : Parts P own w) (good : P s) :
    CallKeeps P (s.changeMasterState w) := by
  have awake : P { s with execEnd := false } :=
    parts.flags good ⟨rfl, rfl, rfl, rfl, rfl, rfl, rfl, rfl, rfl⟩
  unfold changeMasterState
  split
  · exact good
  split
  · split <;> exact awake
  · exact stop_keeps parts good

theorem scriptEnded_keeps (parts : Parts P own w) (good : P s) :
    CallKeeps P (s.scriptEnded w) := by
  unfold scriptEnded
  cases current : s.currentTarget with
  | none => exact whenIdle_keeps good
  | some t =>
    simp only
    split
    · exact whenIdle_keeps good
    split
    · exact parts.begun good current
    · exact good

theorem onCurrent_keeps (good : P s) {act : Executor τ → Nat → Executor τ}
    (kept : ∀ t, s.currentTarget = some t → P (act s t)) : CallKeeps P (s.onCurrent act) := by
  unfold onCurrent
  cases current : s.currentTarget with
  | none => exact good
  | some t => exact kept t current

theorem call_keeps (parts : Parts P own w) (good : P s) (e : Event τ) (allowed : own s e) :
    CallKeeps P (s.call w e) := by
  have flags : ∀ {p}, Flags s p → P p := parts.flags good
  cases e with
  | queueTarget t_start t_end => exact queueTarget_keeps parts good t_start t_end
  | setNext nextId => exact setNext_keeps parts good nextId
  | now nextId => exact setNowId_keeps parts good nextId
  | grb answers => exact setGrb_keeps parts good answers
  | shower observed =>
    simp only [call, setShower]
    split
    · exact good
    split
    · exact good
    · exact setNowId_keeps parts good targetShower
  | skip =>
    simp only [call, skip]
    cases s.queue.entries with
    | nil => exact good
    | cons front rest => exact setNowId_keeps parts good _
  | endCommand => exact flags ⟨rfl, rfl, rfl, rfl, rfl, rfl, rfl, rfl, rfl⟩
  | stopCommand => exact stop_keeps parts (flags ⟨rfl, rfl, rfl, rfl, rfl, rfl, rfl, rfl, rfl⟩)
  | clear => exact parts.cleared good
  | removeIndex index => exact parts.removed index good allowed
  | setEnabled value =>
    simp only [call]
    split
    · exact good
    · exact stop_keeps parts good
  | setAutoLoop value => exact flags ⟨rfl, rfl, rfl, rfl, rfl, rfl, rfl, rfl, rfl⟩
  | setDefaultAutoLoop value => exact flags ⟨rfl, rfl, rfl, rfl, rfl, rfl, rfl, rfl, rfl⟩
  | setIgnoreDay value => exact flags ⟨rfl, rfl, rfl, rfl, rfl, rfl, rfl, rfl, rfl⟩
  | setMasterState new_state =>
    have told : P { s with masterState := new_state } :=
      flags ⟨rfl, rfl, rfl, rfl, rfl, rfl, rfl, rfl, rfl⟩
    simp only [call]
    split
    · exact told
    · exact changeMasterState_keeps parts told
  | lastReadout => exact whenIdle_keeps good
  | scriptEnded => exact scriptEnded_keeps parts good
  | moveFailed kill =>
    simp only [call]
    split
    · exact good
    · exact whenIdle_keeps good
  | newTarget inserted =>
    apply onCurrent_keeps good
    exact fun t => parts.renewed inserted good
  | changeTarget inserted =>
    apply onCurrent_keeps good
    exact fun t => parts.slewed inserted good
  | slewToTarget closes inserted =>
    cases closes with
    | false =>
      apply onCurrent_keeps good
      exact fun t => parts.slewed inserted good
    | true =>
      apply onCurrent_keeps good
      exact fun t => parts.closed inserted good allowed
  | exposureStarted =>
    apply onCurrent_keeps good
    exact fun t => parts.begun good

theorem flags_written (s : Executor τ) (e : Event τ) : Flags s (s.written e) := by
  cases e <;> exact ⟨rfl, rfl, rfl, rfl, rfl, rfl, rfl, rfl, rfl⟩

variable [LinearOrder τ] [LinearOrder δ]

/-- The state in which doSwitch looks at the auto loop: the queue is filtered, and a current target
that has to be made again is at its front. There is none when that one cannot be made. -/
def prepared (s : Executor τ) (w : World τ δ) : Option (Executor τ) :=
  if (s.beforeChange w).remakes w then
    w.created.map (fun row => ((s.beforeChange w).createTarget row).addFront (s.beforeChange w).made)
  else some (s.beforeChange w)

theorem doSwitch_eq (s : Executor τ) (w : World τ δ) :
    s.doSwitch w = match s.prepared w with
      | some p => p.changeTarget w
      | none => s.beforeChange w := by
  simp only [doSwitch, prepared]
  split
  · cases w.created <;> rfl
  · rfl

def Allows (switchable seizable : Executor τ → Prop) : Call τ → Prop
  | .switchTarget p => switchable p
  | .setNow p _ => seizable p
  | .stay _ => True

instance decidableAllows (switchable seizable : Executor τ → Prop) [DecidablePred switchable]
    [DecidablePred seizable] : (c : Call τ) → Decidable (Allows switchable seizable c)
  | .switchTarget p => inferInstanceAs (Decidable (switchable p))
  | .setNow p _ => inferInstanceAs (Decidable (seizable p))
  | .stay _ => isTrue trivial

theorem step_keeps {P : Executor τ → Prop} {own : Executor τ → Event τ → Prop} {w : World τ δ}
    {switchable seizable : Executor τ → Prop} (parts : Parts P own w)
    (switches : ∀ {s}, P s → switchable s → P (s.switchTarget w))
    (seizes : ∀ {s} row, P s → seizable (s.createTarget row) →
      P ((s.createTarget row).setNow w s.made))
    {s : Executor τ} (good : P s) (e : Event τ) (allowed : own s e)
    (allows : Allows switchable seizable (s.call w e)) : P (s.step (w, e)) := by
  have kept := call_keeps parts good e allowed
  unfold step
  refine parts.flags ?_ (flags_written _ e)
  cases called : s.call w e with
  | switchTarget p =>
    rw [called] at kept allows
    exact switches kept allows
  | setNow p newTarget =>
    rw [called] at kept allows
    obtain ⟨s, row, good, rfl, rfl⟩ := kept
    exact seizes row good allows
  | stay p =>
    rw [called] at kept
    exact kept


end Executor

end Rts2.Plan
