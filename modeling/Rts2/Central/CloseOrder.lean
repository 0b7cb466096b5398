import Rts2.Central.OpenClose
import Rts2.Lib.Run
import Rts2.Lib.Select

/-! The order in which the devices of open_sequence are commanded. doClose passes over the names
of close_failed, which a closing that never came to its end leaves to the next one. -/
namespace Rts2.Central

open Kernel Lib

namespace Centrald

def Reports (c : Centrald) (mask : Status) (name : Name) : Prop :=
  ∃ dconn ∈ c.connections, dconn.name = name ∧ dconn.state &&& mask ≠ 0

def Answers (c : Centrald) (mask : Status) (name : Name) : Prop :=
  ∃ dconn, c.getOpenConnection name = some dconn ∧ dconn.state &&& mask ≠ 0

def Present (c : Centrald) (name : Name) : Prop := ∃ dconn ∈ c.connections, dconn.name = name

def Due (c : Centrald) (name : Name) : Prop :=
  c.Reports deviceBlockClose name ∧ name ∉ c.timedOut

def LastDue (c : Centrald) : Name → Prop :=
  First c.Due (fun name => ¬ c.Due name) c.openSequence.reverse

def FirstBlocked (c : Centrald) : Name → Prop :=
  First (c.Reports deviceBlockOpen)
    (fun name => c.Present name ∧ ¬ c.Reports deviceBlockOpen name) c.openSequence

def ClosesLast (c s : Centrald) : Prop :=
  (s.commands = c.commands ∧ ∀ name ∈ c.openSequence, ¬ c.Due name) ∨
    ∃ name queued, s.commands = c.commands ++ [.close name queued] ∧ c.LastDue name

def OpensFirst (c s : Centrald) : Prop :=
  (s.commands = c.commands ∧ ∀ name, ¬ c.FirstBlocked name) ∨
    ∃ name queued, s.commands = c.commands ++ [.open name queued] ∧ c.FirstBlocked name

def Orderly (c : Centrald) (e : Event) : Prop :=
  match c.call e with
  | .doClose s => s.ClosesLast (c.step e)
  | .doOpen s => s.OpensFirst (c.step e)
  | .plain s => (c.step e).commands = s.commands

def Reached (c : Centrald) (e : Event) : Prop :=
  match c.call e with
  | .doClose s => ∀ name, s.LastDue name → name ∉ s.failedClose ∧ s.Answers deviceBlockClose name
  | .doOpen s => ∀ name, s.FirstBlocked name → s.Answers deviceBlockOpen name
  | .plain _ => True

theorem reports_of_answers {c : Centrald} {mask : Status} {name : Name}
    (answers : c.Answers mask name) : c.Reports mask name := by
  obtain ⟨dconn, found, blocks⟩ := answers
  exact ⟨dconn, List.mem_of_find?_eq_some found, by simpa using List.find?_some found, blocks⟩

theorem present_iff (c : Centrald) (name : Name) :
    c.Present name ↔ ∃ dconn, c.getOpenConnection name = some dconn := by
  rw [← Option.isSome_iff_exists, getOpenConnection, List.find?_isSome]
  simp [Present]

theorem shouldClose_iff (c : Centrald) (name : Name) :
    c.shouldClose name = true ↔ name ∉ c.failedClose ∧ c.Answers deviceBlockClose name := by
  unfold shouldClose Answers
  cases found : c.getOpenConnection name with
  | none => simp
  | some dconn => simp

theorem answers_of_found {c : Centrald} {name : Name} {dconn : Device}
    (found : c.getOpenConnection name = some dconn) (mask : Status) :
    c.Answers mask name ↔ dconn.state &&& mask ≠ 0 := by
  simp [Answers, found]

theorem openTarget_blocks_iff (c : Centrald) (l : List Name) (name : Name) :
    c.openTarget l = .blocks name ↔ First (c.Answers deviceBlockOpen)
      (fun other => c.Present other ∧ ¬ c.Answers deviceBlockOpen other) l name := by
  induction l with
  | nil => exact iff_of_false (by simp [openTarget]) (first_nil name)
  | cons other l ih =>
    rw [first_cons, present_iff]
    unfold openTarget
    cases found : c.getOpenConnection other with
    | none =>
      refine iff_of_false (by simp) ?_
      rintro (⟨rfl, dconn, here, _⟩ | ⟨⟨⟨dconn, here⟩, _⟩, _⟩)
      · simp [found] at here
      · simp at here
    | some dconn =>
      have answers := answers_of_found found deviceBlockOpen
      dsimp only
      split
      · rename_i blocks
        have here := answers.mpr blocks
        constructor
        · intro same
          cases same
          exact .inl ⟨rfl, here⟩
        · rintro (⟨rfl, _⟩ | ⟨⟨_, open_⟩, _⟩)
          · rfl
          · exact absurd here open_
      · rename_i free
        have here : ¬ c.Answers deviceBlockOpen other := fun blocks => free (answers.mp blocks)
        rw [ih]
        constructor
        · exact fun first => .inr ⟨⟨⟨dconn, rfl⟩, here⟩, first⟩
        · rintro (⟨rfl, blocks⟩ | ⟨_, first⟩)
          · exact absurd blocks here
          · exact first

theorem doClose_commands (c : Centrald) : c.doClose.commands =
    c.commands ++ (c.closeTarget.map (Command.close · c.now)).toList := by
  unfold doClose
  split
  · rename_i empty
    simp [closeTarget, empty]
  · cases target : c.closeTarget with
    | none => simp [updateOpenClose]
    | some name =>
      dsimp only
      split <;> rfl

theorem doOpen_commands (c : Centrald) : c.doOpen.commands =
    match c.openTarget c.openSequence with
    | .blocks name => c.commands ++ [.open name c.now]
    | .missing _ | .finished => c.commands := by
  unfold doOpen
  cases c.openTarget c.openSequence with
  | missing name => rfl
  | finished => rfl
  | blocks name =>
    dsimp only
    split <;> rfl

theorem closesLast_iff {s : Centrald} (keeps : s.timedOut ⊆ s.failedClose) :
    s.ClosesLast s.doClose ↔
      ∀ name, s.LastDue name → name ∉ s.failedClose ∧ s.Answers deviceBlockClose name := by
  have due_of_shouldClose (name : Name) (should : s.shouldClose name = true) : s.Due name := by
    obtain ⟨failed, answers⟩ := (shouldClose_iff s name).mp should
    exact ⟨reports_of_answers answers, fun timed => failed (keeps timed)⟩
  have target_iff (name : Name) : s.closeTarget = some name ↔
      First (fun b => s.shouldClose b = true) (fun b => ¬ s.shouldClose b = true)
        s.openSequence.reverse name := find?_eq_some_iff_first
  have stops (name : Name) : ¬ s.Due name → ¬ s.Due name := id
  simp only [← shouldClose_iff]
  constructor
  · rintro (⟨_, none⟩ | ⟨name, queued, commands, last⟩) due lastDue
    · exact absurd lastDue.wanted (none due (List.mem_reverse.mp lastDue.mem))
    · have same : due = name := lastDue.unique stops last
      rw [doClose_commands] at commands
      have target := List.append_cancel_left commands
      cases known : s.closeTarget with
      | none => simp [known] at target
      | some chosen =>
        obtain ⟨rfl, _⟩ : chosen = name ∧ s.now = queued := by simpa [known] using target
        rw [same]
        exact ((target_iff chosen).mp known).wanted
  · intro found
    have same := first_congr due_of_shouldClose (fun a skipped => skipped)
      (fun a => ⟨fun due => ⟨fun should => due (due_of_shouldClose a should), due⟩, And.right⟩) found
    unfold ClosesLast
    rw [doClose_commands]
    cases known : s.closeTarget with
    | none =>
      refine .inl ⟨by simp, fun name mem due => ?_⟩
      obtain ⟨last, first⟩ := exists_first_of_mem (List.mem_reverse.mpr mem) due
      have chosen := (target_iff last).mpr ((same last).mpr first)
      simp [known] at chosen
    | some name =>
      exact .inr ⟨name, s.now, by simp, (same name).mp ((target_iff name).mp known)⟩

theorem opensFirst_iff (s : Centrald) : s.OpensFirst s.doOpen ↔
    ∀ name, s.FirstBlocked name → s.Answers deviceBlockOpen name := by
  have target_iff := openTarget_blocks_iff s s.openSequence
  have stops (name : Name) : s.Present name ∧ ¬ s.Reports deviceBlockOpen name →
      ¬ s.Reports deviceBlockOpen name := And.right
  constructor
  · rintro (⟨_, none⟩ | ⟨name, queued, commands, first⟩) blocked firstBlocked
    · exact absurd firstBlocked (none blocked)
    · have same : blocked = name := firstBlocked.unique stops first
      rw [doOpen_commands] at commands
      cases known : s.openTarget s.openSequence with
      | blocks chosen =>
        obtain ⟨rfl, _⟩ : chosen = name ∧ s.now = queued := by simpa [known] using commands
        rw [same]
        exact ((target_iff chosen).mp known).wanted
      | missing _ => simp [known] at commands
      | finished => simp [known] at commands
  · intro found
    have same := first_congr (fun a => reports_of_answers) (fun a => And.right)
      (fun a => ⟨fun ⟨present, free⟩ =>
        ⟨⟨present, fun answers => free (reports_of_answers answers)⟩, free⟩,
        fun ⟨⟨present, _⟩, free⟩ => ⟨present, free⟩⟩) found
    have chosen (name : Name) : s.FirstBlocked name ↔
        s.openTarget s.openSequence = .blocks name := by
      rw [target_iff, same]
      rfl
    unfold OpensFirst
    rw [doOpen_commands]
    cases known : s.openTarget s.openSequence with
    | blocks name => exact .inr ⟨name, s.now, rfl, (chosen name).mpr known⟩
    | missing _ => exact .inl ⟨rfl, fun name first => by simp [(chosen name).mp first] at known⟩
    | finished => exact .inl ⟨rfl, fun name first => by simp [(chosen name).mp first] at known⟩

def Keeps (c : Centrald) : Prop := c.openClose = .closing → c.timedOut ⊆ c.failedClose

def Call.Kept : Call → Prop
  | .plain s => s.Keeps
  | .doOpen s => s.openClose ≠ .closing
  | .doClose s => s.timedOut ⊆ s.failedClose

theorem changed_kept {c : Centrald} (keeps : c.Keeps) : c.changed.Kept := by
  unfold changed
  split
  · rename_i opening
    simp [Call.Kept, opening]
  · rename_i closing
    exact keeps closing
  · exact keeps

theorem call_kept {c : Centrald} (keeps : c.Keeps) (e : Event) : (c.call e).Kept := by
  have opened : (Call.doOpen c.opens).Kept := by simp [Call.Kept, opens]
  have closed : (Call.doClose c.closes).Kept := by
    simp only [Call.Kept, closes]
    split
    · rename_i closing
      exact keeps closing
    · simp
  cases e with
  | setState i value =>
    simp only [call]
    cases c.connections[i]? with
    | none => exact keeps
    | some device =>
      dsimp only
      split
      · exact changed_kept keeps
      · exact keeps
  | stateChanged new_state =>
    simp only [call]
    split
    · exact opened
    · exact closed
  | timeout setAt =>
    simp only [call]
    split
    · rename_i closing
      intro name mem
      rcases List.mem_append.mp mem with mem | mem
      · exact List.mem_append_left _ (keeps closing mem)
      · exact List.mem_append_right _ mem
    · exact keeps
  | connections _ => exact keeps
  | openSequence _ => exact keeps
  | startOpen => exact opened
  | startClose => exact closed
  | tick _ => exact keeps

theorem doOpen_keeps {s : Centrald} (opening : s.openClose ≠ .closing) : s.doOpen.Keeps := by
  intro closing
  exfalso
  unfold doOpen at closing
  split at closing
  · simp at closing
  · dsimp only at closing
    split at closing <;> exact opening closing
  · simp [updateOpenClose] at closing

theorem doClose_keeps {s : Centrald} (kept : s.timedOut ⊆ s.failedClose) : s.doClose.Keeps := by
  intro closing
  unfold doClose at closing ⊢
  split
  · exact kept
  · rename_i nonempty
    rw [if_neg nonempty] at closing
    cases known : s.closeTarget with
    | none => simp [known, updateOpenClose] at closing
    | some name =>
      dsimp only
      split <;> exact kept

theorem step_keeps {c : Centrald} (keeps : c.Keeps) (e : Event) : (c.step e).Keeps := by
  have kept := call_kept keeps e
  rw [step_eq]
  cases called : c.call e with
  | plain s =>
    rw [called] at kept
    exact kept
  | doOpen s =>
    rw [called] at kept
    exact doOpen_keeps kept
  | doClose s =>
    rw [called] at kept
    exact doClose_keeps kept

theorem orderly_iff {c : Centrald} (keeps : c.Keeps) (e : Event) : c.Orderly e ↔ c.Reached e := by
  have kept := call_kept keeps e
  unfold Orderly Reached
  rw [step_eq]
  cases called : c.call e with
  | plain s => exact iff_of_true rfl trivial
  | doOpen s => exact opensFirst_iff s
  | doClose s =>
    rw [called] at kept
    exact closesLast_iff kept

def forgotten : List Event :=
  [.connections [⟨[1], deviceBlockClose⟩, ⟨[2], deviceBlockClose⟩], .startClose, .tick 181,
    .timeout 0, .startOpen, .startClose]

end Centrald

/-- Every call of a run commands the device it should, whatever happens in between, if and only
if that device is not in close_failed from an earlier closing and is what its name finds. -/
theorem close_order_iff (openSequence : List Name) (events : List Event) :
    Guarded Centrald.step Centrald.Orderly (Centrald.init openSequence) events ↔
      Guarded Centrald.step Centrald.Reached (Centrald.init openSequence) events := by
  refine guarded_congr_invariant (P := Centrald.Keeps) ?_ ?_ ?_ (guarded_true _ _ _)
  · exact fun _ e keeps _ _ => Centrald.step_keeps keeps e
  · exact fun _ e keeps _ => Centrald.orderly_iff keeps e
  · exact fun closing => by simp [Centrald.init] at closing

/-- The next closing passes over the second device, which was never asked to close in it. -/
theorem close_order_broken :
    Guarded Centrald.step Centrald.Enabled (Centrald.init [[1], [2]]) Centrald.forgotten ∧
      ¬ Guarded Centrald.step Centrald.Orderly (Centrald.init [[1], [2]]) Centrald.forgotten := by
  refine ⟨by decide +kernel, ?_⟩
  rintro ⟨_, _, _, _, _, last, _⟩
  have keeps : (run Centrald.step (Centrald.init [[1], [2]]) (Centrald.forgotten.take 5)).Keeps :=
    fun closing => absurd closing (by decide)
  have reached := (Centrald.orderly_iff keeps .startClose).mp last [2]
    ⟨[], [[1]], by decide, ⟨⟨⟨[2], deviceBlockClose⟩, by decide⟩, by decide⟩,
      by simp⟩
  exact reached.1 (by decide)

end Rts2.Central
