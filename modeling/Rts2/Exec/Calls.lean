import Rts2.Exec.DevScript

/-! What the calls of a camera that runs scripts leave as it is. Only a kill, the answer of its command and the end of that
answer change the target of a kill; all other calls are quiet. -/
namespace Rts2.Exec

open Lib

def Call.Plain : Call → Prop
  | .clearKill | .nextCommand (some _) => False
  | .posting | .nextCommand none | .loop | .startAfterEnd | .exposureStartedRest | .exposureEndRest | .triggeredRest =>
    True

namespace DevScript

def Has (c : DevScript) (n : Nat) : Prop :=
  n ∈ c.started ∨ c.currentTarget.any (·.number = n) = true ∨ c.nextTarget.any (·.number = n) = true

def Busy (c : DevScript) : Prop := c.currentTarget.isSome = true ∨ c.nextTarget.isSome = true

structure Quiet (c c' : DevScript) : Prop where
  killTarget : c'.killTarget = c.killTarget
  waiting : c'.waiting = c.waiting
  scriptKillCommand : c'.scriptKillCommand = c.scriptKillCommand
  kills : c'.kills = c.kills
  taken : c'.taken = c.taken
  calls : ∃ calls, (∀ call ∈ calls, call.Plain) ∧ c'.stack = calls ++ c.stack
  outdated : c.outdated ⊆ c'.outdated
  only : c'.outdated ⊆ c.outdated ++ c.waiting.toList
  busy : c'.Busy → c.Busy ∨ c.waiting.toList ⊆ c'.outdated
  assigned : c.assigned ≤ c'.assigned
  has : ∀ n, c'.Has n → c.Has n ∨ c.assigned ≤ n ∧ n < c'.assigned
  started : c.started <+: c'.started
  disabled : c.disabled ⊆ c'.disabled
  idle : c.idle ⊆ c'.idle
  outstanding : c.outstanding ⊆ c'.outstanding
  awaited : c.awaited ⊆ c'.awaited
  waits : c'.waitForExposure = true → c.waitForExposure = true ∨ c'.awaited ≠ []
  made : c.made ≤ c'.made

theorem ne_nil_of_subset {α : Type} {l l' : List α} (sub : l ⊆ l') (some : l ≠ []) : l' ≠ [] := by
  obtain ⟨x, inside⟩ := List.exists_mem_of_ne_nil l some
  exact List.ne_nil_of_mem (sub inside)

theorem Quiet.refl (c : DevScript) : Quiet c c where
  killTarget := rfl
  waiting := rfl
  scriptKillCommand := rfl
  kills := rfl
  taken := rfl
  calls := ⟨[], by simp, rfl⟩
  outdated := List.Subset.refl _
  only := List.subset_append_left ..
  busy := Or.inl
  assigned := le_refl _
  has _ := Or.inl
  started := List.prefix_refl _
  disabled := List.Subset.refl _
  idle := List.Subset.refl _
  outstanding := List.Subset.refl _
  awaited := List.Subset.refl _
  waits := Or.inl
  made := le_refl _

theorem Quiet.trans {c d e : DevScript} (first : Quiet c d) (second : Quiet d e) : Quiet c e where
  killTarget := second.killTarget.trans first.killTarget
  waiting := second.waiting.trans first.waiting
  scriptKillCommand := second.scriptKillCommand.trans first.scriptKillCommand
  kills := second.kills.trans first.kills
  taken := second.taken.trans first.taken
  calls := by
    obtain ⟨before, plain, stack⟩ := first.calls
    obtain ⟨after, plain', stack'⟩ := second.calls
    refine ⟨after ++ before, fun call inside => ?_, by rw [stack', stack, List.append_assoc]⟩
    rcases List.mem_append.mp inside with inside | inside
    · exact plain' call inside
    · exact plain call inside
  outdated := List.Subset.trans first.outdated second.outdated
  only := by
    refine List.Subset.trans second.only ?_
    rw [first.waiting]
    exact List.append_subset.mpr ⟨first.only, List.subset_append_right ..⟩
  busy now := by
    rcases second.busy now with before | out
    · exact (first.busy before).imp_right fun out => List.Subset.trans out second.outdated
    · exact Or.inr (first.waiting ▸ out)
  assigned := first.assigned.trans second.assigned
  has n now := by
    rcases second.has n now with before | fresh
    · exact (first.has n before).imp_right fun fresh => ⟨fresh.1, fresh.2.trans_le second.assigned⟩
    · exact Or.inr ⟨first.assigned.trans fresh.1, fresh.2⟩
  started := first.started.trans second.started
  disabled := List.Subset.trans first.disabled second.disabled
  idle := List.Subset.trans first.idle second.idle
  outstanding := List.Subset.trans first.outstanding second.outstanding
  awaited := List.Subset.trans first.awaited second.awaited
  waits now := by
    rcases second.waits now with before | some
    · exact (first.waits before).imp_right (ne_nil_of_subset second.awaited)
    · exact Or.inr some
  made := first.made.trans second.made

variable (c : DevScript) (a : Surroundings)

theorem push_quiet (calls : List Call) (plain : ∀ call ∈ calls, call.Plain) : Quiet c (c.push calls) :=
  { Quiet.refl c with calls := ⟨calls, plain, rfl⟩ }

theorem push_one_quiet (call : Call) (plain : call.Plain) : Quiet c (c.push [call]) :=
  c.push_quiet [call] (by simpa using plain)

theorem deleteNextComd_quiet : Quiet c c.deleteNextComd := { Quiet.refl c with }

theorem dontExecute_quiet (t : Target) : Quiet c (c.dontExecute t) := { Quiet.refl c with }

theorem waitScript_quiet (w : WaitScript) : Quiet c { c with waitScript := w } := { Quiet.refl c with }

theorem waitMetaData_quiet (w : Bool) : Quiet c { c with waitMetaData := w } := { Quiet.refl c with }

theorem targets_quiet (current next : Option Assigned)
    (old : ∀ t, current = some t ∨ next = some t → c.currentTarget = some t ∨ c.nextTarget = some t) :
    Quiet c { c with currentTarget := current, nextTarget := next } := by
  have any : ∀ (o : Option Assigned) n, o.any (·.number = n) = true ↔ ∃ t, o = some t ∧ t.number = n := by
    intro o n; cases o <;> simp
  refine { Quiet.refl c with busy := fun now => Or.inl ?_, has := fun n now => Or.inl ?_ }
  · simp only [Busy, Option.isSome_iff_exists] at now ⊢
    rcases now with ⟨t, now⟩ | ⟨t, now⟩
    · exact (old t (Or.inl now)).imp (fun h => ⟨t, h⟩) fun h => ⟨t, h⟩
    · exact (old t (Or.inr now)).imp (fun h => ⟨t, h⟩) fun h => ⟨t, h⟩
  · simp only [Has, any] at now ⊢
    rcases now with now | ⟨t, now, number⟩ | ⟨t, now, number⟩
    · exact Or.inl now
    · exact Or.inr ((old t (Or.inl now)).imp (fun h => ⟨t, h, number⟩) fun h => ⟨t, h, number⟩)
    · exact Or.inr ((old t (Or.inr now)).imp (fun h => ⟨t, h, number⟩) fun h => ⟨t, h, number⟩)

theorem disabled_quiet (m : Nat) (l l' : List Nat) :
    Quiet c { c with disabled := c.disabled ++ l, superseded := l', assigned := c.assigned + m } :=
  { Quiet.refl c with
    disabled := List.subset_append_left ..
    assigned := Nat.le_add_right ..
    has := fun _ => Or.inl }

theorem give_quiet (t : Target) : Quiet c (c.give t) := by
  unfold give setNextTarget
  dsimp only
  split
  · have less := c.targets_quiet c.currentTarget none fun t now => now.imp_right nofun
    exact less.trans (disabled_quiet _ 1 _ _)
  · refine { Quiet.refl c with
      outdated := List.subset_append_left ..
      only := List.Subset.refl _
      busy := fun _ => Or.inr (List.subset_append_right ..)
      assigned := Nat.le_succ _
      has := ?_ }
    rintro n (now | now | now)
    · exact Or.inl (Or.inl now)
    · exact Or.inl (Or.inr (Or.inl now))
    · have same : c.assigned = n := by simpa using now
      exact Or.inr ⟨Nat.le_of_eq same, same ▸ Nat.lt_succ_self _⟩

theorem gives_quiet (given : List Target) : Quiet c (given.foldl give c) := by
  induction given generalizing c with
  | nil => exact Quiet.refl c
  | cons t given ih => exact (c.give_quiet t).trans (ih (c.give t))

theorem nextAsCurrent_quiet : Quiet c c.nextAsCurrent := by
  unfold nextAsCurrent
  split
  · exact c.targets_quiet c.nextTarget none fun t now => now.elim Or.inr nofun
  · exact Quiet.refl c

theorem startCurrent_quiet (t : Assigned) (current : c.currentTarget = some t) : Quiet c (c.startCurrent t a) := by
  unfold startCurrent
  dsimp only
  split
  · have less := c.targets_quiet none c.nextTarget fun t now => now.elim nofun Or.inr
    exact less.trans { Quiet.refl _ with idle := List.subset_append_left .. }
  · refine { Quiet.refl c with started := List.prefix_append .., has := ?_ }
    rintro n (now | now)
    · rcases List.mem_append.mp now with now | now
      · exact Or.inl (Or.inl now)
      · refine Or.inl (Or.inr (Or.inl ?_))
        rw [current]
        simpa [eq_comm] using now
    · exact Or.inl (Or.inr now)

theorem startTarget_quiet : Quiet c (c.startTarget a) := by
  unfold startTarget
  dsimp only
  have cleared : Quiet c { c with cmdConns := [] } := { Quiet.refl c with }
  have first := cleared.trans (nextAsCurrent_quiet _)
  cases current : { c with cmdConns := [] }.nextAsCurrent.currentTarget with
  | none => exact first
  | some t => exact first.trans (startCurrent_quiet _ a t current)

theorem nextAsCurrent_stack : c.nextAsCurrent.stack = c.stack := by
  unfold nextAsCurrent
  split <;> rfl

theorem startCurrent_stack (t : Assigned) : (c.startCurrent t a).stack = c.stack := by
  unfold startCurrent
  dsimp only
  split <;> rfl

theorem startTarget_stack : (c.startTarget a).stack = c.stack := by
  unfold startTarget
  dsimp only
  have moved := nextAsCurrent_stack { c with cmdConns := [] }
  cases { c with cmdConns := [] }.nextAsCurrent.currentTarget with
  | none => exact moved
  | some t => exact (startCurrent_stack _ a t).trans moved

theorem setNextTarget_stack (t : Assigned) : (c.setNextTarget t).stack = c.stack := by
  unfold setNextTarget
  dsimp only
  split <;> rfl

theorem elim_quiet {α : Type} {f : DevScript → α → DevScript} (quiet : ∀ c x, Quiet c (f c x)) (o : Option α) :
    Quiet c (o.elim c (f c)) := by
  cases o with
  | none => exact Quiet.refl c
  | some x => exact quiet c x

theorem disableTarget_quiet (t : Target) : Quiet c (c.disableTarget t) := by
  have marked := c.dontExecute_quiet t
  unfold disableTarget
  dsimp only
  split
  · have less := targets_quiet (c.dontExecute t) c.currentTarget none fun t now => now.elim Or.inl nofun
    exact (marked.trans less).trans (disabled_quiet _ 0 _ _)
  · exact marked

theorem ite_quiet {P : Prop} [Decidable P] {d : DevScript} (quiet : Quiet c d) : Quiet c (if P then d else c) := by
  split
  · exact quiet
  · exact Quiet.refl c

theorem endScript_quiet : Quiet c (c.endScript a) := by
  unfold endScript
  split
  · have less : Quiet c { c with script := none } := { Quiet.refl c with }
    exact less.trans (push_one_quiet _ .posting trivial)
  · rename_i t current
    have last : Quiet c { c with lastTargetObsID := t.target.obsTargetID } := { Quiet.refl c with }
    have disabled := last.trans
      (ite_quiet (P := a.executedCount = 0 ∧ t.target.targetID ≥ 0) _ (disableTarget_quiet _ t.target))
    have failed := disabled.trans (ite_quiet (P := a.failedCount > 0) _ (dontExecute_quiet _ t.target))
    refine failed.trans ?_
    dsimp only
    generalize (ite (a.failedCount > 0) _ _ : DevScript) = d
    have less := d.targets_quiet none d.nextTarget fun t now => now.elim nofun Or.inr
    have ended : Quiet d { d with script := none, currentTarget := none } := less.trans { Quiet.refl _ with }
    exact ended.trans (push_one_quiet _ .posting trivial)

theorem deleteScript_quiet : Quiet c (c.deleteScript a) := by
  have first := (c.waitScript_quiet .noWait).trans (deleteNextComd_quiet _)
  unfold deleteScript
  dsimp only
  split
  · exact first.trans (endScript_quiet _ a)
  · exact first

theorem getNextCommand_quiet (missing : Nat) (comd : Option Handed) : Quiet c (c.getNextCommand missing comd) :=
  { Quiet.refl c with made := (Nat.le_add_right ..).trans (Nat.le_add_right ..) }

theorem answer_quiet (r : NextCommand) : Quiet c (c.answer r) := by
  cases r with
  | stopTarget => exact c.elim_quiet (fun c t => c.dontExecute_quiet t.target) c.currentTarget
  | waitAcqusition | acqusitionImage | waitSignal | waitMirror | waitSearch => exact c.waitScript_quiet _
  | next | endScript | keep | waiting | resync | checkWait => exact Quiet.refl c

theorem nextPreparedCommand_quiet (answer : Answer) : Quiet c (nextPreparedCommand answer c).2 := by
  induction answer generalizing c with
  | ret r missing comd =>
    unfold nextPreparedCommand
    split
    · exact Quiet.refl c
    · exact (c.getNextCommand_quiet missing comd).trans (answer_quiet _ r)
  | precisionFailed missing comd given =>
    unfold nextPreparedCommand
    split
    · exact Quiet.refl c
    · exact ((c.getNextCommand_quiet missing comd).trans (waitScript_quiet _ .noWait)).trans (gives_quiet _ given)
  | precisionOk missing comd given again ih =>
    unfold nextPreparedCommand
    split
    · exact Quiet.refl c
    · have asked := (c.getNextCommand_quiet missing comd).trans (waitScript_quiet _ .noWait)
      exact (asked.trans (gives_quiet _ given)).trans (ih _)

theorem queCommand_quiet (cmd : ScriptCommand) (devices : List (Option Nat)) (exposure : Bool) :
    Quiet c (c.queCommand cmd devices exposure) := by
  refine { Quiet.refl c with outstanding := List.subset_append_left .., awaited := ?_, waits := fun now => Or.inr ?_ }
  · cases exposure with
    | true => exact List.subset_append_left ..
    | false => exact List.Subset.refl _
  · have exposes : exposure = true := now
    simp [queCommand, exposes]

theorem doCommand_quiet (cmd : ScriptCommand) : Quiet c (c.doCommand a cmd) := by
  have again : ∀ d : DevScript, Quiet d (if a.more then d.push [.loop] else d) := by
    intro d
    split
    · exact d.push_one_quiet .loop trivial
    · exact Quiet.refl d
  have cleared := c.waitMetaData_quiet false
  unfold doCommand
  dsimp only
  split_ifs
  · exact cleared
  · exact c.waitMetaData_quiet true
  · exact cleared
  · exact cleared
  · exact (cleared.trans (queCommand_quiet _ cmd _ _)).trans (push_one_quiet _ .loop trivial)
  · exact cleared.trans (queCommand_quiet _ cmd _ _)
  · exact (cleared.trans (queCommand_quiet _ cmd _ _)).trans (push_one_quiet _ .loop trivial)
  · exact cleared.trans (queCommand_quiet _ cmd _ _)

theorem haveCommand_quiet : Quiet c (c.haveCommand a) := by
  unfold haveCommand
  split
  · exact Quiet.refl c
  · split
    · exact Quiet.refl c
    · exact c.doCommand_quiet a _

theorem loop_quiet : Quiet c (c.loop a) := by
  unfold loop
  split
  · exact Quiet.refl c
  · have prepared := c.nextPreparedCommand_quiet a.answer
    dsimp only
    refine prepared.trans ?_
    split
    · exact (push_one_quiet _ .startAfterEnd trivial).trans (deleteScript_quiet _ a)
    · exact haveCommand_quiet _ a

theorem startAfterEnd_quiet : Quiet c (c.startAfterEnd a) := by
  have first := c.startTarget_quiet a
  unfold startAfterEnd
  dsimp only
  split
  · exact first
  · refine (first.trans (nextPreparedCommand_quiet _ a.answer)).trans ?_
    split
    · exact deleteScript_quiet _ a
    · exact haveCommand_quiet _ a

theorem pushNextCommand_quiet : Quiet c (c.push [.nextCommand none]) := c.push_one_quiet _ trivial

theorem stopScript_quiet (kind : Kill) : Quiet c (c.stopScript kind) := by
  have marked : Quiet c (if kind = Kill.stopTarget then c.currentTarget.elim c fun t => c.dontExecute t.target
      else { c with waitForExposure := false, dont_execute_for := -1, dont_execute_for_obsid := -1 }) := by
    split
    · exact c.elim_quiet (fun c t => c.dontExecute_quiet t.target) c.currentTarget
    · exact { Quiet.refl c with waits := nofun }
  unfold stopScript
  dsimp only
  refine marked.trans ?_
  generalize (ite (kind = Kill.stopTarget) _ _ : DevScript) = d
  have less := d.targets_quiet none none fun t now => now.elim nofun nofun
  exact less.trans { Quiet.refl _ with }

theorem setTarget_quiet (t : Target) : Quiet c (c.setTarget t a) := by
  have given := c.give_quiet t
  unfold setTarget
  dsimp only
  split
  · exact given
  · exact (given.trans (startTarget_quiet _ a)).trans (pushNextCommand_quiet _)

theorem observe_quiet : Quiet c (c.observe a) := by
  unfold observe
  split
  · exact c.pushNextCommand_quiet
  · exact (c.startTarget_quiet a).trans (pushNextCommand_quiet _)

theorem scriptEnded_quiet (arg : Option Target) : Quiet c (c.scriptEnded arg a) := by
  have given := c.elim_quiet give_quiet arg
  unfold scriptEnded
  dsimp only
  split
  · exact given
  · exact given.trans (observe_quiet _ a)

theorem acqusitionEnd_quiet (acqEnd : AcqEnd) : Quiet c (c.acqusitionEnd acqEnd a) := by
  have cleared := c.waitScript_quiet .noWait
  unfold acqusitionEnd
  split
  · exact Quiet.refl c
  · cases acqEnd with
    | precisionOk => exact cleared.trans (pushNextCommand_quiet _)
    | precisionFailed => exact cleared.trans (deleteScript_quiet _ a)
    | aborted => exact cleared

theorem mirrorFinish_quiet : Quiet c c.mirrorFinish := by
  unfold mirrorFinish
  split
  · exact (c.waitScript_quiet .noWait).trans (pushNextCommand_quiet _)
  · exact Quiet.refl c

theorem signal_quiet (sig : Int) : Quiet c (c.signal sig) := by
  unfold signal
  split
  · exact (c.waitScript_quiet .noWait).trans (pushNextCommand_quiet _)
  · exact Quiet.refl c

theorem exposureStarted_quiet : Quiet c c.exposureStarted := by
  unfold exposureStarted
  dsimp only
  refine c.push_quiet _ fun call inside => ?_
  split at inside
  · rcases List.mem_cons.mp inside with rfl | inside
    · trivial
    · rw [List.mem_singleton.mp inside]
      trivial
  · rw [List.mem_singleton.mp inside]
    trivial

theorem exposureStartedRest_quiet : Quiet c c.exposureStartedRest := by
  unfold exposureStartedRest
  dsimp only
  split
  · have cleared : Quiet c { c with waitForExposure := false } := { Quiet.refl c with waits := nofun }
    split
    · exact cleared.trans (pushNextCommand_quiet _)
    · exact cleared
  · exact Quiet.refl c

theorem exposureEnd_quiet : Quiet c (c.exposureEnd a) := by
  have first := c.push_one_quiet .exposureEndRest trivial
  unfold exposureEnd
  dsimp only
  split
  · exact (first.trans (push_one_quiet _ .posting trivial)).trans (deleteScript_quiet _ a)
  · exact first

theorem exposureEndRest_quiet : Quiet c (c.exposureEndRest a) := by
  unfold exposureEndRest
  dsimp only
  split
  · exact c.pushNextCommand_quiet
  · exact Quiet.refl c

theorem readoutEnd_quiet : Quiet c c.readoutEnd := by
  unfold readoutEnd
  refine c.push_quiet _ fun call inside => ?_
  rcases List.mem_append.mp inside with inside | inside
  · split at inside
    · rw [List.mem_singleton.mp inside]
      trivial
    · cases inside
  · rw [List.mem_singleton.mp inside]
    trivial

theorem triggeredRest_quiet : Quiet c (if c.waitForExposure then c else c.push [.nextCommand none]) := by
  split
  · exact Quiet.refl c
  · exact c.pushNextCommand_quiet

theorem nextCommand_none : c.nextCommand none a = c.push [.loop] := by
  refine if_neg ?_
  rintro ⟨set, none⟩
  rw [← none] at set
  cases set

theorem resume_quiet (call : Call) (plain : call.Plain) : Quiet c (c.resume a call) := by
  cases call with
  | posting => exact Quiet.refl c
  | nextCommand triggerCommand =>
    cases triggerCommand with
    | none =>
      unfold resume
      dsimp only
      rw [nextCommand_none]
      exact c.push_one_quiet .loop trivial
    | some id => exact plain.elim
  | clearKill => exact plain.elim
  | loop => exact c.loop_quiet a
  | startAfterEnd => exact c.startAfterEnd_quiet a
  | exposureStartedRest => exact c.exposureStartedRest_quiet
  | exposureEndRest => exact c.exposureEndRest_quiet a
  | triggeredRest => exact c.triggeredRest_quiet

theorem go_of_head {call : Call} {rest : List Call} (head : c.stack = call :: rest) :
    c.go a = { c with stack := rest }.resume a call := by
  unfold go
  rw [head]

end DevScript

def ScriptEvent.Plain : ScriptEvent → Prop
  | .kill .. | .commandOK _ | .commandFailed _ | .commandLost _ | .exposureStarted _ | .exposureFailed _
  | .exposureLost _ => False
  | .setTarget _ | .observe | .scriptEnded _ | .stopObservation | .nextCommand | .acqusitionEnd _ | .mirrorFinish
  | .signal _ | .triggered | .exposureEnd | .readoutEnd => True

theorem DevScript.post_quiet (c : DevScript) (a : Surroundings) (e : ScriptEvent) (plain : e.Plain) :
    Quiet c (c.post a e) := by
  cases e with
  | setTarget t => exact c.setTarget_quiet a t
  | observe => exact c.observe_quiet a
  | scriptEnded arg => exact c.scriptEnded_quiet a arg
  | stopObservation => exact c.deleteScript_quiet a
  | nextCommand => exact c.pushNextCommand_quiet
  | acqusitionEnd acqEnd => exact c.acqusitionEnd_quiet a acqEnd
  | mirrorFinish => exact c.mirrorFinish_quiet
  | signal sig => exact c.signal_quiet sig
  | triggered => exact c.push_one_quiet .triggeredRest trivial
  | exposureEnd => exact c.exposureEnd_quiet a
  | readoutEnd => exact c.readoutEnd_quiet
  | kill | commandOK | commandFailed | commandLost | exposureStarted | exposureFailed | exposureLost => exact plain.elim

end Rts2.Exec
