import Rts2.Central.CloseTimeout

/-! The progress of a closing. Only a pending timeout lets doClose pass over a device that never
closes, and doClose adds one when the device is not the one named last, by an opening too. -/
namespace Rts2.Central

open Kernel Lib

namespace Centrald

def Progress (c : Centrald) : Prop :=
  c.openClose = .closing → c.waiting ≠ none →
    ∃ setAt ∈ c.timers, setAt + closeTimeout ≤ c.now + closeTimeout

def Idle (c : Centrald) : Prop := c.closeTarget = some c.openCloseLast ∧ c.timers = []

def Armed (c : Centrald) (e : Event) : Prop :=
  match c.call e with
  | .doClose s => ¬ s.Idle
  | .doOpen _ | .plain _ => True

theorem progress_of_timer {c : Centrald} {t : ℚ} (pending : t ∈ c.timers) (past : t ≤ c.now) :
    c.Progress :=
  fun _ _ => ⟨t, pending, by simpa using past⟩

theorem nonempty_of_target {c : Centrald} {name : Name} (target : c.closeTarget = some name) :
    c.openSequence ≠ [] := by
  rintro empty
  simp [closeTarget, empty] at target

theorem plain_progress {c s : Centrald} {e : Event} (waited : c.Waited) (enabled : c.Enabled e)
    (progress : c.Progress) (plain : c.call e = .plain s) : s.Progress := by
  have prepared := call_prepared c enabled
  rw [plain] at prepared
  obtain ⟨frame, same, waits, timers⟩ := prepared
  intro closing waiting
  rw [same] at closing
  rw [waits] at waiting
  obtain ⟨t, pending, _⟩ := progress closing waiting
  have past := (waited.timers t pending).trans frame.now
  exact ⟨t, timers closing ▸ pending, by simpa using past⟩

theorem doOpen_progress {c s : Centrald} {e : Event} (waited : c.Waited) (enabled : c.Enabled e)
    (doOpen : c.call e = .doOpen s) : s.doOpen.Progress := by
  intro _ waiting
  exact absurd (opening_waits waited enabled doOpen) waiting

theorem doClose_progress_iff {s : Centrald} (closing : s.openClose = .closing)
    (timers : ∀ t ∈ s.timers, t ≤ s.now) : s.doClose.Progress ↔ ¬ s.Idle := by
  constructor
  · rintro progress ⟨target, none⟩
    obtain ⟨state, _, _, _, begun, kept⟩ := doClose_commanded (nonempty_of_target target) target
    rw [if_pos rfl, none] at kept
    have waiting : s.doClose.waiting ≠ Option.none := by
      rcases waitFor_cases s s.openCloseLast with ⟨since, _, goes⟩ | begins
      · simp [begun, goes]
      · simp [begun, begins]
    obtain ⟨t, pending, _⟩ := progress (state.trans closing) waiting
    simp [kept] at pending
  · intro armed
    rcases doClose_waiting s with ⟨name, nonempty, target⟩ | done
    · obtain ⟨_, _, _, now, _, kept⟩ := doClose_commanded nonempty target
      by_cases same : name = s.openCloseLast
      · have some_timer : s.timers ≠ [] := fun empty => armed ⟨same ▸ target, empty⟩
        obtain ⟨t, pending⟩ := List.exists_mem_of_ne_nil _ some_timer
        rw [if_pos same] at kept
        exact progress_of_timer (kept ▸ pending) (now ▸ timers t pending)
      · rw [if_neg same] at kept
        exact progress_of_timer (kept ▸ now_mem_addTimer s) (le_of_eq now.symm)
    · exact fun _ waiting => absurd done waiting

theorem progress_iff {c : Centrald} {e : Event} (waited : c.Waited) (progress : c.Progress)
    (enabled : c.Enabled e) : (c.step e).Progress ↔ c.Armed e := by
  have prepared := call_prepared c enabled
  rw [step_eq]
  unfold Armed
  cases called : c.call e with
  | plain s => exact iff_of_true (plain_progress waited enabled progress called) trivial
  | doOpen s => exact iff_of_true (doOpen_progress waited enabled called) trivial
  | doClose s =>
    rw [called] at prepared
    obtain ⟨frame, closing, _⟩ := prepared
    exact doClose_progress_iff closing
      fun t mem => (waited.timers t (frame.timers mem)).trans frame.now

def interrupted : List Event :=
  [.connections [⟨[1], deviceBlockOpen⟩], .startOpen,
    .setState 0 (deviceBlockOpen ||| deviceBlockClose), .startClose]

end Centrald

/-- In every state of a run a closing that waits for a device has a timeout pending if and only
if none of the calls of doClose starts idle. -/
theorem close_progress_iff (openSequence : List Name) (events : List Event)
    (enabled : Guarded Centrald.step Centrald.Enabled (Centrald.init openSequence) events) :
    Guarded Centrald.step (fun c e => (c.step e).Progress) (Centrald.init openSequence) events ↔
      Guarded Centrald.step Centrald.Armed (Centrald.init openSequence) events := by
  refine guarded_congr_invariant (P := fun c => c.Waited ∧ c.Progress) ?_ ?_ ?_ enabled
  · rintro c e ⟨waited, _⟩ enabled progress
    exact ⟨Centrald.step_waited waited enabled, progress⟩
  · rintro c e ⟨waited, progress⟩ enabled
    exact Centrald.progress_iff waited progress enabled
  · exact ⟨Centrald.init_waited openSequence, fun closing => by simp [Centrald.init] at closing⟩

theorem close_progress_sample :
    Guarded Centrald.step (fun c e => (c.step e).Progress) (Centrald.init [[1], [2]])
      Centrald.closing :=
  (close_progress_iff [[1], [2]] Centrald.closing (by decide)).mpr
    ⟨trivial, fun idle => absurd idle.1 (by decide), trivial⟩

/-- A dome is closed while it opens, when it blocks both: it was named last by the opening, so the
closing waits for it and nothing else. -/
theorem close_progress_lost :
    Guarded Centrald.step Centrald.Enabled (Centrald.init [[1]]) Centrald.interrupted ∧
      ¬ Guarded Centrald.step (fun c e => (c.step e).Progress) (Centrald.init [[1]])
        Centrald.interrupted := by
  refine ⟨by decide, ?_⟩
  rintro ⟨_, _, _, progress, _⟩
  obtain ⟨t, pending, _⟩ := progress (by decide) (by decide)
  exact absurd (List.ne_nil_of_mem pending) (by decide)

end Rts2.Central
