import Rts2.Central.OpenClose
import Rts2.Lib.Run

/-! The timeouts of a closing. Each of them is added for the device doClose begins to wait for,
but none is cancelled, and the handler takes the name of whichever device is waited for last. -/
namespace Rts2.Central

open Kernel Lib

namespace Centrald

structure Frame (c s : Centrald) : Prop where
  last : s.openCloseLast = c.openCloseLast
  commands : s.commands = c.commands
  now : c.now ≤ s.now
  timers : s.timers ⊆ c.timers

def Call.Prepared (c : Centrald) : Call → Prop
  | .plain s => Frame c s ∧ s.openClose = c.openClose ∧ s.waiting = c.waiting ∧
      (c.openClose = .closing → s.timers = c.timers)
  | .doClose s => Frame c s ∧ s.openClose = .closing ∧ s.waiting = c.waiting
  | .doOpen s => Frame c s ∧ s.openClose = .opening ∧
      (s.waiting = none ∨ c.openClose = .opening ∧ s.waiting = c.waiting)

theorem changed_prepared {c s : Centrald} (frame : Frame c s) (same : s.openClose = c.openClose)
    (waits : s.waiting = c.waiting) (timers : s.timers = c.timers) : s.changed.Prepared c := by
  unfold changed
  split
  · rename_i opening
    exact ⟨frame, opening, .inr ⟨same ▸ opening, waits⟩⟩
  · rename_i closing
    exact ⟨frame, closing, waits⟩
  · exact ⟨frame, same, waits, fun _ => timers⟩

theorem call_prepared (c : Centrald) {e : Event} (enabled : c.Enabled e) :
    (c.call e).Prepared c := by
  have refl : Frame c c := ⟨rfl, rfl, le_refl _, fun _ mem => mem⟩
  have opened : (Call.doOpen c.opens).Prepared c :=
    ⟨⟨rfl, rfl, le_refl _, fun _ mem => mem⟩, rfl, .inl rfl⟩
  have closed : (Call.doClose c.closes).Prepared c :=
    ⟨⟨rfl, rfl, le_refl _, fun _ mem => mem⟩, rfl, rfl⟩
  cases e with
  | connections connections =>
    exact ⟨⟨rfl, rfl, le_refl _, fun _ mem => mem⟩, rfl, rfl, fun _ => rfl⟩
  | openSequence openSequence =>
    exact ⟨⟨rfl, rfl, le_refl _, fun _ mem => mem⟩, rfl, rfl, fun _ => rfl⟩
  | setState i value =>
    simp only [call]
    cases c.connections[i]? with
    | none => exact ⟨refl, rfl, rfl, fun _ => rfl⟩
    | some device =>
      dsimp only
      split
      · exact changed_prepared ⟨rfl, rfl, le_refl _, fun _ mem => mem⟩ rfl rfl rfl
      · exact ⟨⟨rfl, rfl, le_refl _, fun _ mem => mem⟩, rfl, rfl, fun _ => rfl⟩
  | stateChanged new_state =>
    simp only [call]
    split
    · exact opened
    · exact closed
  | startOpen => exact opened
  | startClose => exact closed
  | tick seconds =>
    have forward : 0 ≤ seconds := enabled
    exact ⟨⟨rfl, rfl, le_add_of_nonneg_right forward, fun _ mem => mem⟩, rfl, rfl, fun _ => rfl⟩
  | timeout setAt =>
    have erased : c.timers.erase setAt ⊆ c.timers := List.erase_subset
    simp only [call]
    split
    · rename_i closing
      exact ⟨⟨rfl, rfl, le_refl _, erased⟩, closing, rfl⟩
    · rename_i other
      exact ⟨⟨rfl, rfl, le_refl _, erased⟩, rfl, rfl, fun closing => absurd closing other⟩

structure Waits (c : Centrald) (device : Name) (since : ℚ) : Prop where
  last : c.openCloseLast = device
  commanded : .close device since ∈ c.commands
  past : since ≤ c.now

structure Waited (c : Centrald) : Prop where
  closing : ∀ device since, c.waiting = some (device, since) → c.openClose = .closing
  waits : ∀ device since, c.waiting = some (device, since) → c.Waits device since
  timers : ∀ t ∈ c.timers, t ≤ c.now

theorem Waits.frame {c s : Centrald} {device : Name} {since : ℚ} (w : c.Waits device since)
    (frame : Frame c s) : s.Waits device since :=
  ⟨frame.last.trans w.last, frame.commands ▸ w.commanded, w.past.trans frame.now⟩

theorem addTimer_subset (c : Centrald) : ∀ t ∈ c.addTimer, t ∈ c.timers ∨ t = c.now := by
  intro t mem
  unfold addTimer at mem
  split at mem
  · exact .inl mem
  · simpa using mem

theorem now_mem_addTimer (c : Centrald) : c.now ∈ c.addTimer := by
  unfold addTimer
  split
  · assumption
  · simp

theorem doClose_waiting (c : Centrald) :
    (∃ name, c.openSequence ≠ [] ∧ c.closeTarget = some name) ∨
      c.doClose.waiting = none := by
  unfold doClose
  split
  · exact .inr rfl
  · rename_i some_device
    split
    · rename_i name target
      exact .inl ⟨name, some_device, target⟩
    · exact .inr rfl

theorem waitFor_cases (c : Centrald) (name : Name) :
    (∃ since, c.waiting = some (name, since) ∧ c.waitFor name = some (name, since)) ∨
      c.waitFor name = some (name, c.now) := by
  unfold waitFor
  split
  · rename_i device since waiting
    split
    · rename_i same
      subst same
      exact .inl ⟨since, waiting, rfl⟩
    · exact .inr rfl
  · exact .inr rfl

theorem doClose_commanded {c : Centrald} {name : Name} (nonempty : c.openSequence ≠ [])
    (target : c.closeTarget = some name) :
    c.doClose.openClose = c.openClose ∧ c.doClose.openCloseLast = name ∧
      c.doClose.commands = c.commands ++ [.close name c.now] ∧ c.doClose.now = c.now ∧
      c.doClose.waiting = c.waitFor name ∧
      c.doClose.timers = if name = c.openCloseLast then c.timers else c.addTimer := by
  simp only [doClose, nonempty, if_false, target]
  by_cases same : name = c.openCloseLast
  · simp [queCommand, same]
  · simp only [same, queCommand, ne_eq, not_false_eq_true, if_true, if_false, true_and]
    rfl

theorem doClose_timers (c : Centrald) : ∀ t ∈ c.doClose.timers, t ∈ c.timers ∨ t = c.now := by
  unfold doClose
  split
  · exact fun t mem => .inl mem
  · split
    · dsimp only
      split
      · exact addTimer_subset _
      · exact fun t mem => .inl mem
    · exact fun t mem => .inl mem

theorem doClose_now (c : Centrald) : c.doClose.now = c.now := by
  unfold doClose
  split
  · rfl
  · split
    · dsimp only
      split <;> rfl
    · rfl

theorem doClose_waited {s : Centrald} (closing : s.openClose = .closing)
    (waits : ∀ device since, s.waiting = some (device, since) → s.Waits device since)
    (timers : ∀ t ∈ s.timers, t ≤ s.now) : s.doClose.Waited := by
  have current (device : Name) (since : ℚ) (waiting : s.doClose.waiting = some (device, since)) :
      s.doClose.openClose = .closing ∧ s.doClose.Waits device since := by
    rcases doClose_waiting s with ⟨name, nonempty, target⟩ | none
    · obtain ⟨state, last, commands, now, begun, _⟩ := doClose_commanded nonempty target
      refine ⟨state.trans closing, ?_⟩
      rw [begun] at waiting
      rcases waitFor_cases s name with ⟨since', already, goes⟩ | begins
      · have w := waits name since' already
        obtain ⟨rfl, rfl⟩ : name = device ∧ since' = since := by simpa [goes] using waiting
        exact ⟨last, by simp [commands, w.commanded], now.symm ▸ w.past⟩
      · obtain ⟨rfl, rfl⟩ : name = device ∧ s.now = since := by simpa [begins] using waiting
        exact ⟨last, by simp [commands], le_of_eq now.symm⟩
    · simp [none] at waiting
  refine ⟨fun device since waiting => (current device since waiting).1,
    fun device since waiting => (current device since waiting).2, ?_⟩
  intro t mem
  rw [doClose_now]
  rcases doClose_timers s t mem with mem | rfl
  · exact timers t mem
  · exact le_refl _

theorem doOpen_frame (s : Centrald) :
    s.doOpen.waiting = s.waiting ∧ s.doOpen.timers = s.timers ∧ s.doOpen.now = s.now := by
  unfold doOpen
  split
  · exact ⟨rfl, rfl, rfl⟩
  · dsimp only
    split <;> exact ⟨rfl, rfl, rfl⟩
  · exact ⟨rfl, rfl, rfl⟩

theorem opening_waits {c s : Centrald} {e : Event} (waited : c.Waited) (enabled : c.Enabled e)
    (doOpen : c.call e = .doOpen s) : s.doOpen.waiting = none := by
  have prepared := call_prepared c enabled
  rw [doOpen] at prepared
  obtain ⟨_, _, none | ⟨opening, same⟩⟩ := prepared
  · rw [(doOpen_frame s).1, none]
  · rw [(doOpen_frame s).1, same]
    by_contra some
    obtain ⟨⟨device, since⟩, known⟩ := Option.ne_none_iff_exists'.mp some
    have closing := waited.closing device since known
    rw [opening] at closing
    contradiction

theorem step_waited {c : Centrald} {e : Event} (waited : c.Waited) (enabled : c.Enabled e) :
    (c.step e).Waited := by
  have prepared := call_prepared c enabled
  have earlier {s : Centrald} (frame : Frame c s) : ∀ t ∈ s.timers, t ≤ s.now :=
    fun t mem => (waited.timers t (frame.timers mem)).trans frame.now
  rw [step_eq]
  cases called : c.call e with
  | plain s =>
    rw [called] at prepared
    obtain ⟨frame, same, waiting, _⟩ := prepared
    refine ⟨fun device since known => ?_, fun device since known => ?_, earlier frame⟩
    · exact same.trans (waited.closing device since (waiting ▸ known))
    · exact (waited.waits device since (waiting ▸ known)).frame frame
  | doClose s =>
    rw [called] at prepared
    obtain ⟨frame, closing, waiting⟩ := prepared
    exact doClose_waited closing
      (fun device since known => (waited.waits device since (waiting ▸ known)).frame frame)
      (earlier frame)
  | doOpen s =>
    rw [called] at prepared
    obtain ⟨frame, _⟩ := prepared
    have none := opening_waits waited enabled called
    obtain ⟨_, timers, now⟩ := doOpen_frame s
    simp only [Call.run]
    refine ⟨by simp [none], by simp [none], ?_⟩
    rw [timers, now]
    exact earlier frame

theorem init_waited (openSequence : List Name) : (init openSequence).Waited :=
  ⟨by simp [init], by simp [init], by simp [init]⟩

/-- A device that is added to close_failed was commanded to close and has been waited for
during all of the time it had. -/
def Fair (c : Centrald) : Event → Prop
  | .timeout _ => c.openClose = .closing →
      ∃ since, .close c.openCloseLast since ∈ c.commands ∧
        c.waiting = some (c.openCloseLast, since) ∧ since + closeTimeout ≤ c.now
  | .connections _ | .openSequence _ | .setState .. | .stateChanged _ | .startOpen | .startClose
  | .tick _ => True

/-- A timeout that finds the observatory closing was added during the current wait, or the wait
is old enough anyway. -/
def Timely (c : Centrald) : Event → Prop
  | .timeout setAt => c.openClose = .closing →
      ∃ device since, c.waiting = some (device, since) ∧
        (since ≤ setAt ∨ since + closeTimeout ≤ c.now)
  | .connections _ | .openSequence _ | .setState .. | .stateChanged _ | .startOpen | .startClose
  | .tick _ => True

theorem fair_iff {c : Centrald} {e : Event} (waited : c.Waited) (enabled : c.Enabled e) :
    c.Fair e ↔ c.Timely e := by
  cases e with
  | timeout setAt =>
    constructor
    · intro fair closing
      obtain ⟨since, _, waiting, long⟩ := fair closing
      exact ⟨_, since, waiting, .inr long⟩
    · intro timely closing
      obtain ⟨device, since, waiting, when⟩ := timely closing
      have w := waited.waits device since waiting
      refine ⟨since, w.last.symm ▸ w.commanded, w.last.symm ▸ waiting, ?_⟩
      rcases when with fresh | long
      · have due := enabled.2
        linarith
      · exact long
  | _ => exact Iff.rfl

def closing : List Event :=
  [.connections [⟨[1], deviceBlockClose⟩, ⟨[2], deviceBlockClose⟩], .startClose]

def overtaken : List Event :=
  closing ++ [.tick 10, .setState 1 0, .tick 171, .timeout 0]

end Centrald

end Rts2.Central
