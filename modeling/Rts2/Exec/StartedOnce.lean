import Rts2.Exec.Calls

/-! The targets given to a camera that runs scripts, and the commands its scripts hand out. -/
namespace Rts2.Exec

open Lib

def ScriptCommand.devices (cmd : ScriptCommand) : List (Option Nat) :=
  if cmd.handed.conns = [] then [none] else cmd.handed.conns.map some

def ScriptCommand.queueings (cmd : ScriptCommand) : List (Nat × Option Nat) := cmd.devices.map (cmd.id, ·)

namespace DevScript

def places (c : DevScript) : List Nat :=
  c.started ++ c.superseded ++ c.disabled ++ c.idle ++ c.nextTarget.toList.map Assigned.number ++ c.waiting.toList

/-- Each target is in one place: no target is started twice, and none is lost. A command that was handed out is prepared,
was deleted with its script, or was queued, to each device it is for. -/
structure StartedOnce (c : DevScript) : Prop where
  targets : c.places.Perm (List.range c.assigned)
  script : c.script = c.currentTarget.map Assigned.number
  running : ∀ n, c.script = some n → n ∈ c.started
  handed : (c.handed.map ScriptCommand.id).Nodup
  queued : ∃ sent, c.handed.Perm (sent ++ c.nextComd.toList ++ c.deleted) ∧ c.queued = sent.flatMap ScriptCommand.queueings

structure Targets (c : DevScript) : Prop where
  places : ∀ n, c.places.count n = if n < c.assigned then 1 else 0
  script : c.script = c.currentTarget.map Assigned.number
  running : ∀ n, c.script = some n → n ∈ c.started

structure Commands (c : DevScript) : Prop where
  ids : (c.handed.map ScriptCommand.id).Nodup
  made : ∀ cmd ∈ c.handed, cmd.id < c.made
  conns : ∀ cmd, c.nextComd = some cmd → c.cmdConns = cmd.handed.conns
  prepared : c.nextComd.isSome = true → c.script.isSome = true
  restarted : c.restarted = []
  queued : ∃ sent, c.handed.Perm (sent ++ c.nextComd.toList ++ c.deleted) ∧ c.queued = sent.flatMap ScriptCommand.queueings

/-- A target waits for its kill until the answer is handled, and that is handled between calls. -/
structure Waits (c : DevScript) : Prop where
  waiting : .clearKill ∉ c.stack → c.killTarget.map Assigned.number = c.waiting
  alone : ∀ id, .nextCommand (some id) ∈ c.stack → c.stack = [.nextCommand (some id)]

variable {c : DevScript} (a : Surroundings)

theorem count_places (n : Nat) : c.places.count n =
    c.started.count n + c.superseded.count n + c.disabled.count n + c.idle.count n +
      (c.nextTarget.toList.map Assigned.number).count n + c.waiting.toList.count n := by
  simp only [places, List.count_append]

theorem Targets.same {c' : DevScript} (targets : Targets c) (places : ∀ n, c'.places.count n = c.places.count n)
    (assigned : c'.assigned = c.assigned) (script : c'.script = c.script) (current : c'.currentTarget = c.currentTarget)
    (started : c'.started = c.started) : Targets c' where
  places n := by rw [places, assigned, targets.places]
  script := by rw [script, current, targets.script]
  running n running := started ▸ targets.running n (script ▸ running)

theorem count_setNextTarget (t : Assigned) (n : Nat) :
    (c.setNextTarget t).places.count n = c.places.count n + [t.number].count n := by
  simp only [count_places, setNextTarget]
  split <;> simp only [List.count_append, Option.toList_none, Option.toList_some, List.map_cons, List.map_nil, List.count_nil] <;> omega

theorem setNextTarget_script (t : Assigned) : (c.setNextTarget t).script = c.script := by
  unfold setNextTarget; dsimp only; split <;> rfl

theorem setNextTarget_currentTarget (t : Assigned) : (c.setNextTarget t).currentTarget = c.currentTarget := by
  unfold setNextTarget; dsimp only; split <;> rfl

theorem setNextTarget_started (t : Assigned) : (c.setNextTarget t).started = c.started := by
  unfold setNextTarget; dsimp only; split <;> rfl

theorem setNextTarget_assigned (t : Assigned) : (c.setNextTarget t).assigned = c.assigned := by
  unfold setNextTarget; dsimp only; split <;> rfl

theorem setNextTarget_nextComd (t : Assigned) : (c.setNextTarget t).nextComd = c.nextComd := by
  unfold setNextTarget; dsimp only; split <;> rfl

theorem lt_succ_count (n m : Nat) : (if n < m + 1 then 1 else 0) = (if n < m then 1 else 0) + [m].count n := by
  rw [List.count_singleton]
  by_cases below : n < m
  · simp [below, Nat.lt_succ_of_lt below, (Nat.ne_of_lt below).symm]
  · by_cases same : m = n
    · simp [same]
    · have above : ¬n < m + 1 := by omega
      simp [below, same, above]

theorem Targets.give (targets : Targets c) (t : Target) : Targets (c.give t) where
  places n := by
    unfold DevScript.give
    rw [count_setNextTarget, setNextTarget_assigned]
    have before := targets.places n
    change c.places.count n + _ = if n < c.assigned + 1 then 1 else 0
    rw [before, lt_succ_count]
  script := by
    unfold DevScript.give
    rw [setNextTarget_script, setNextTarget_currentTarget]
    exact targets.script
  running n := by
    unfold DevScript.give
    rw [setNextTarget_script, setNextTarget_started]
    exact targets.running n

theorem startTarget_of_none (none : c.currentTarget = none) : c.startTarget a =
    c.nextTarget.elim { c with cmdConns := [], currentTarget := .none, nextTarget := .none } fun t =>
      { c with cmdConns := [], currentTarget := some t, nextTarget := .none }.startCurrent t a := by
  cases next : c.nextTarget <;> simp [startTarget, nextAsCurrent, none, next]

theorem Targets.startTarget (targets : Targets c) (none : c.currentTarget = none) : Targets (c.startTarget a) := by
  rw [startTarget_of_none a none]
  cases next : c.nextTarget with
  | none => exact targets.same (fun n => by simp [count_places, next]) rfl rfl none.symm rfl
  | some t =>
    have ended : c.script = .none := by rw [targets.script, none]; rfl
    simp only [Option.elim_some, startCurrent]
    split
    · refine targets.same (fun n => ?_) rfl rfl none.symm rfl
      simp only [count_places, next, List.count_append, Option.toList_none, Option.toList_some, List.map_cons, List.map_nil, List.count_nil]
      omega
    · refine ⟨fun n => ?_, rfl, fun n running => ?_⟩
      · rw [← targets.places n]
        simp only [count_places, next, List.count_append, Option.toList_none, Option.toList_some, List.map_cons, List.map_nil, List.count_nil]
        omega
      · cases running
        exact List.mem_append_right _ (List.mem_singleton.mpr rfl)

theorem Targets.dontExecute (targets : Targets c) (t : Target) : Targets (c.dontExecute t) :=
  targets.same (fun _ => rfl) rfl rfl rfl rfl

theorem Targets.disableTarget (targets : Targets c) (t : Target) : Targets (c.disableTarget t) := by
  unfold DevScript.disableTarget
  dsimp only
  split
  · refine targets.same (fun n => ?_) rfl rfl rfl rfl
    simp only [count_places, DevScript.dontExecute, List.count_append, Option.toList_none, Option.toList_some, List.map_nil, List.count_nil]
    omega
  · exact targets.dontExecute t

theorem Targets.ended (targets : Targets c) : Targets { c with script := none, currentTarget := none } where
  places := targets.places
  script := rfl
  running := nofun

theorem Targets.push (targets : Targets c) (calls : List Call) : Targets (c.push calls) :=
  targets.same (fun _ => rfl) rfl rfl rfl rfl

theorem Targets.endScript (targets : Targets c) (script : c.script.isSome = true) : Targets (c.endScript a) := by
  unfold DevScript.endScript
  split
  · rename_i none
    rw [targets.script, none] at script
    cases script
  · rename_i t current
    have last : Targets { c with lastTargetObsID := t.target.obsTargetID } :=
      targets.same (fun _ => rfl) rfl rfl rfl rfl
    have disabled : Targets (if a.executedCount = 0 ∧ t.target.targetID ≥ 0 then
        { c with lastTargetObsID := t.target.obsTargetID }.disableTarget t.target
        else { c with lastTargetObsID := t.target.obsTargetID }) := by
      split
      · exact last.disableTarget t.target
      · exact last
    dsimp only
    split
    · exact (disabled.dontExecute t.target).ended.push _
    · exact disabled.ended.push _

theorem Targets.deleteScript (targets : Targets c) : Targets (c.deleteScript a) := by
  have cleared : Targets { c with waitScript := .noWait }.deleteNextComd :=
    targets.same (fun _ => rfl) rfl rfl rfl rfl
  unfold DevScript.deleteScript
  dsimp only
  split
  · rename_i script
    exact cleared.endScript a script
  · exact cleared

theorem Targets.gives (targets : Targets c) (given : List Target) : Targets (given.foldl DevScript.give c) := by
  induction given generalizing c with
  | nil => exact targets
  | cons t given ih => exact ih (targets.give t)

theorem Targets.answer (targets : Targets c) (r : NextCommand) : Targets (c.answer r) := by
  cases r with
  | stopTarget =>
    unfold DevScript.answer
    cases c.currentTarget with
    | none => exact targets
    | some t => exact targets.dontExecute t.target
  | next | endScript | keep | waiting | resync | checkWait | waitAcqusition | acqusitionImage | waitSignal | waitMirror
  | waitSearch => exact targets.same (fun _ => rfl) rfl rfl rfl rfl

theorem Targets.getNextCommand (targets : Targets c) (missing : Nat) (comd : Option Handed) :
    Targets (c.getNextCommand missing comd) :=
  targets.same (fun _ => rfl) rfl rfl rfl rfl

theorem Targets.nextPreparedCommand (targets : Targets c) (answer : Answer) :
    Targets (nextPreparedCommand answer c).2 := by
  have cleared : ∀ {c missing comd}, Targets c → Targets { c.getNextCommand missing comd with waitScript := .noWait } :=
    fun targets => targets.same (fun _ => rfl) rfl rfl rfl rfl
  induction answer generalizing c with
  | ret r missing comd =>
    unfold DevScript.nextPreparedCommand
    split
    · exact targets
    · exact (targets.getNextCommand missing comd).answer r
  | precisionFailed missing comd given =>
    unfold DevScript.nextPreparedCommand
    split
    · exact targets
    · exact (cleared targets).gives given
  | precisionOk missing comd given again ih =>
    unfold DevScript.nextPreparedCommand
    split
    · exact targets
    · exact ih ((cleared targets).gives given)

theorem Targets.doCommand (targets : Targets c) (cmd : ScriptCommand) : Targets (c.doCommand a cmd) := by
  unfold DevScript.doCommand
  dsimp only
  split_ifs <;> exact targets.same (fun _ => rfl) rfl rfl rfl rfl

theorem Targets.haveCommand (targets : Targets c) : Targets (c.haveCommand a) := by
  unfold DevScript.haveCommand
  split
  · exact targets
  · split
    · exact targets
    · exact targets.doCommand a _

theorem Targets.loop (targets : Targets c) : Targets (c.loop a) := by
  unfold DevScript.loop
  split
  · exact targets
  · have prepared := targets.nextPreparedCommand a.answer
    dsimp only
    split
    · exact (prepared.push _).deleteScript a
    · exact prepared.haveCommand a

theorem Targets.startAfterEnd (targets : Targets c) (none : c.currentTarget = none) : Targets (c.startAfterEnd a) := by
  have started := targets.startTarget a none
  unfold DevScript.startAfterEnd
  dsimp only
  split
  · exact started
  · have prepared := started.nextPreparedCommand a.answer
    split
    · exact prepared.deleteScript a
    · exact prepared.haveCommand a

theorem Targets.setTarget (targets : Targets c) (t : Target) : Targets (c.setTarget t a) := by
  have given := targets.give t
  unfold DevScript.setTarget
  dsimp only
  split
  · exact given
  · rename_i idle
    exact (given.startTarget a (Option.not_isSome_iff_eq_none.mp idle)).push _

theorem Targets.observe (targets : Targets c) : Targets (c.observe a) := by
  unfold DevScript.observe
  split
  · exact targets.push _
  · rename_i idle
    exact (targets.startTarget a (Option.not_isSome_iff_eq_none.mp idle)).push _

theorem Targets.scriptEnded (targets : Targets c) (arg : Option Target) : Targets (c.scriptEnded arg a) := by
  have given : Targets (arg.elim c c.give) := by
    cases arg with
    | none => exact targets
    | some t => exact targets.give t
  unfold DevScript.scriptEnded
  dsimp only
  split
  · exact given
  · exact given.observe a

theorem Targets.acqusitionEnd (targets : Targets c) (acqEnd : AcqEnd) : Targets (c.acqusitionEnd acqEnd a) := by
  have cleared : Targets { c with waitScript := .noWait } := targets.same (fun _ => rfl) rfl rfl rfl rfl
  unfold DevScript.acqusitionEnd
  split
  · exact targets
  · cases acqEnd with
    | precisionOk => exact cleared.push _
    | precisionFailed => exact cleared.deleteScript a
    | aborted => exact cleared

theorem Targets.clearKill (targets : Targets c) : Targets c.clearKill := by
  refine targets.same (fun n => ?_) rfl rfl rfl rfl
  simp only [count_places, DevScript.clearKill, List.count_append, Option.toList_none, Option.toList_some, List.count_nil]
  omega

theorem Targets.take (targets : Targets c) {t : Assigned} (waits : c.waiting = some t.number) (taken : List (Nat × Nat)) :
    Targets ({ c with waiting := none, taken := taken }.setNextTarget t) := by
  refine targets.same (fun n => ?_) (setNextTarget_assigned t) (setNextTarget_script t)
    (setNextTarget_currentTarget t) (setNextTarget_started t)
  rw [count_setNextTarget, count_places, count_places, waits]
  rfl

theorem Targets.nextCommand (targets : Targets c) (waiting : c.killTarget.map Assigned.number = c.waiting)
    (triggerCommand : Option Nat) : Targets (c.nextCommand triggerCommand a) := by
  unfold DevScript.nextCommand
  split
  · dsimp only
    split
    · rename_i t idle kill
      have waits : c.waiting = some t.number := by
        rw [← waiting, show c.killTarget = some t from kill]
        rfl
      have given := (targets.push [.clearKill, .loop]).take waits (c.taken ++ triggerCommand.toList.map (·, t.number))
      exact (given.startTarget a ((setNextTarget_currentTarget t).trans idle)).push _
    · exact targets.push _
  · exact targets.push _

theorem Targets.setKill (targets : Targets c) (kind : Kill) (arg : Option Target) : Targets (c.setKill kind arg) := by
  unfold DevScript.setKill
  dsimp only
  split
  · exact targets.same (fun _ => rfl) rfl rfl rfl rfl
  · cases arg with
    | none =>
      refine targets.same (fun n => ?_) rfl rfl rfl rfl
      simp only [count_places, Option.elim_none, List.count_append, Option.toList_none, Option.toList_some, List.count_nil]
      omega
    | some t =>
      refine ⟨fun n => ?_, targets.script, targets.running⟩
      change _ = if n < c.assigned + 1 then 1 else 0
      rw [lt_succ_count, ← targets.places n]
      simp only [count_places, Option.elim_some, List.count_append, Option.toList_some]
      omega

theorem Targets.stopScript (targets : Targets c) (kind : Kill) : Targets (c.stopScript kind) := by
  have marked : Targets (if kind = Kill.stopTarget then c.currentTarget.elim c fun t => c.dontExecute t.target
      else { c with waitForExposure := false, dont_execute_for := -1, dont_execute_for_obsid := -1 }) := by
    split
    · exact targets.answer .stopTarget
    · exact targets.same (fun _ => rfl) rfl rfl rfl rfl
  unfold DevScript.stopScript
  dsimp only
  generalize (ite (kind = Kill.stopTarget) _ _ : DevScript) = d at marked
  refine ⟨fun n => Eq.trans ?_ (marked.places n), rfl, nofun⟩
  simp only [count_places, deleteNextComd, List.count_append, Option.toList_none, List.map_nil, List.count_nil]
  omega

theorem Commands.same {c' : DevScript} (commands : Commands c) (handed : c'.handed = c.handed)
    (nextComd : c'.nextComd = c.nextComd) (cmdConns : c'.cmdConns = c.cmdConns) (queued : c'.queued = c.queued)
    (deleted : c'.deleted = c.deleted) (restarted : c'.restarted = c.restarted) (made : c.made ≤ c'.made)
    (script : c.nextComd.isSome = true → c'.script.isSome = true) : Commands c' where
  ids := handed ▸ commands.ids
  made cmd inside := (commands.made cmd (handed ▸ inside)).trans_le made
  conns cmd prepared := cmdConns.trans (commands.conns cmd (nextComd ▸ prepared))
  prepared prepared := script (nextComd ▸ prepared)
  restarted := restarted.trans commands.restarted
  queued := by rw [handed, nextComd, deleted, queued]; exact commands.queued

theorem Commands.deleteNextComd (commands : Commands c) : Commands c.deleteNextComd where
  ids := commands.ids
  made := commands.made
  conns := nofun
  prepared := nofun
  restarted := commands.restarted
  queued := by
    obtain ⟨sent, handed, queued⟩ := commands.queued
    refine ⟨sent, handed.trans ?_, queued⟩
    simp only [DevScript.deleteNextComd, Option.toList_none, List.append_nil, List.append_assoc]
    exact (List.perm_append_comm).append_left sent

theorem Commands.setNextTarget (commands : Commands c) (t : Assigned) : Commands (c.setNextTarget t) := by
  unfold DevScript.setNextTarget
  dsimp only
  split <;> exact commands.same rfl rfl rfl rfl rfl rfl (le_refl _) commands.prepared

theorem Commands.give (commands : Commands c) (t : Target) : Commands (c.give t) := by
  have counted : Commands { c with assigned := c.assigned + 1 } :=
    commands.same rfl rfl rfl rfl rfl rfl (le_refl _) commands.prepared
  exact counted.setNextTarget _

theorem Commands.gives (commands : Commands c) (given : List Target) : Commands (given.foldl DevScript.give c) := by
  induction given generalizing c with
  | nil => exact commands
  | cons t given ih => exact ih (commands.give t)

theorem Commands.unprepared (commands : Commands c) (targets : Targets c) (none : c.currentTarget = none) :
    c.nextComd = .none := by
  have ended : c.script = .none := by rw [targets.script, none]; rfl
  rw [← Option.not_isSome_iff_eq_none]
  intro prepared
  have script := commands.prepared prepared
  rw [ended] at script
  cases script

theorem Commands.startTarget (commands : Commands c) (none : c.currentTarget = none) (unprepared : c.nextComd = .none) :
    Commands (c.startTarget a) := by
  have cleared : Commands { c with cmdConns := [], nextComd := .none } :=
    { commands with conns := nofun, prepared := nofun, queued := unprepared ▸ commands.queued }
  rw [startTarget_of_none a none]
  cases c.nextTarget with
  | none => exact cleared.same rfl unprepared rfl rfl rfl rfl (le_refl _) nofun
  | some t =>
    simp only [Option.elim_some, startCurrent]
    split
    · exact cleared.same rfl unprepared rfl rfl rfl rfl (le_refl _) nofun
    · refine cleared.same rfl rfl rfl rfl rfl ?_ (le_refl _) nofun
      simp [unprepared]

theorem Commands.dontExecute (commands : Commands c) (t : Target) : Commands (c.dontExecute t) :=
  commands.same rfl rfl rfl rfl rfl rfl (le_refl _) commands.prepared

theorem Commands.push (commands : Commands c) (calls : List Call) : Commands (c.push calls) :=
  commands.same rfl rfl rfl rfl rfl rfl (le_refl _) commands.prepared

theorem Commands.endScript (commands : Commands c) (unprepared : c.nextComd = none) : Commands (c.endScript a) := by
  have never : c.nextComd.isSome = true → (none : Option Nat).isSome = true := by rw [unprepared]; exact id
  unfold DevScript.endScript
  split
  · exact (commands.same rfl rfl rfl rfl rfl rfl (le_refl _) never)
  · rename_i t current
    dsimp only
    unfold DevScript.disableTarget
    dsimp only
    split_ifs <;> exact commands.same rfl rfl rfl rfl rfl rfl (le_refl _) never

theorem Commands.deleteScript (commands : Commands c) : Commands (c.deleteScript a) := by
  have waits : Commands { c with waitScript := .noWait } :=
    commands.same rfl rfl rfl rfl rfl rfl (le_refl _) commands.prepared
  unfold DevScript.deleteScript
  dsimp only
  split
  · exact waits.deleteNextComd.endScript a rfl
  · exact waits.deleteNextComd

theorem Commands.getNextCommand (commands : Commands c) (unprepared : c.nextComd = none) (script : c.script.isSome = true)
    (missing : Nat) (comd : Option Handed) : Commands (c.getNextCommand missing comd) := by
  cases comd with
  | none =>
    have cleared : Commands { c with cmdConns := [], nextComd := none } :=
      { commands with conns := nofun, prepared := nofun, queued := unprepared ▸ commands.queued }
    exact cleared.same (List.append_nil _) rfl rfl rfl rfl rfl (Nat.le_add_right _ (missing + 0)) fun _ => script
  | some h =>
    have fresh : ∀ cmd ∈ c.handed, cmd.id < c.made + missing := fun cmd inside =>
      (commands.made cmd inside).trans_le (Nat.le_add_right ..)
    obtain ⟨sent, handed, queued⟩ := commands.queued
    constructor
    · change ((c.handed ++ [(⟨c.made + missing, h⟩ : ScriptCommand)]).map ScriptCommand.id).Nodup
      rw [List.map_append, List.nodup_append]
      refine ⟨commands.ids, List.nodup_singleton _, fun id inside id' last same => ?_⟩
      obtain ⟨cmd, before, rfl⟩ := List.mem_map.mp inside
      have new : id' = c.made + missing := List.mem_singleton.mp last
      exact absurd (same.trans new) (Nat.ne_of_lt (fresh cmd before))
    · intro cmd inside
      rcases List.mem_append.mp inside with inside | last
      · exact (fresh cmd inside).trans_le (Nat.le_add_right ..)
      · rw [List.mem_singleton.mp last]
        exact Nat.lt_succ_self _
    · rintro cmd ⟨⟩
      rfl
    · exact fun _ => script
    · exact commands.restarted
    · refine ⟨sent, ?_, queued⟩
      rw [unprepared, Option.toList_none, List.append_nil] at handed
      change (c.handed ++ [(⟨c.made + missing, h⟩ : ScriptCommand)]).Perm (sent ++ [⟨c.made + missing, h⟩] ++ c.deleted)
      refine (handed.append_right _).trans ?_
      rw [List.append_assoc, List.append_assoc]
      exact List.perm_append_comm.append_left sent

theorem Commands.answer (commands : Commands c) (r : NextCommand) : Commands (c.answer r) := by
  cases r with
  | stopTarget =>
    unfold DevScript.answer
    cases c.currentTarget with
    | none => exact commands
    | some t => exact commands.dontExecute t.target
  | next | endScript | keep | waiting | resync | checkWait | waitAcqusition | acqusitionImage | waitSignal | waitMirror
  | waitSearch => exact commands.same rfl rfl rfl rfl rfl rfl (le_refl _) commands.prepared

theorem give_script (t : Target) : (c.give t).script = c.script := setNextTarget_script _

theorem gives_script (given : List Target) : (given.foldl give c).script = c.script := by
  induction given generalizing c with
  | nil => rfl
  | cons t given ih => exact (ih (c := c.give t)).trans (give_script t)

theorem Commands.nextPreparedCommand (commands : Commands c) (script : c.script.isSome = true) (answer : Answer) :
    Commands (nextPreparedCommand answer c).2 := by
  have asked : ∀ {c : DevScript} {missing comd}, Commands c → c.script.isSome = true → ¬c.nextComd.isSome = true →
      Commands { c.getNextCommand missing comd with waitScript := .noWait } := by
    intro c missing comd commands script unprepared
    have asked := commands.getNextCommand (Option.not_isSome_iff_eq_none.mp unprepared) script missing comd
    exact asked.same rfl rfl rfl rfl rfl rfl (le_refl _) asked.prepared
  induction answer generalizing c with
  | ret r missing comd =>
    unfold DevScript.nextPreparedCommand
    split
    · exact commands
    · rename_i unprepared
      exact (commands.getNextCommand (Option.not_isSome_iff_eq_none.mp unprepared) script missing comd).answer r
  | precisionFailed missing comd given =>
    unfold DevScript.nextPreparedCommand
    split
    · exact commands
    · rename_i unprepared
      exact (asked commands script unprepared).gives given
  | precisionOk missing comd given again ih =>
    unfold DevScript.nextPreparedCommand
    split
    · exact commands
    · rename_i unprepared
      exact ih ((asked commands script unprepared).gives given) (by rw [gives_script]; exact script)

theorem Commands.queCommand (commands : Commands c) {cmd : ScriptCommand} (prepared : c.nextComd = some cmd)
    (exposure : Bool) : Commands (c.queCommand cmd cmd.devices exposure) := by
  obtain ⟨sent, handed, queued⟩ := commands.queued
  refine { commands with conns := nofun, prepared := nofun, queued := ⟨sent ++ [cmd], ?_, ?_⟩ }
  · rw [prepared] at handed
    exact handed.trans (by simp [DevScript.queCommand])
  · rw [List.flatMap_append, ← queued, List.flatMap_singleton]
    rfl

theorem Commands.doCommand (commands : Commands c) {cmd : ScriptCommand} (prepared : c.nextComd = some cmd) :
    Commands (c.doCommand a cmd) := by
  have cleared : Commands { c with waitMetaData := false } :=
    commands.same rfl rfl rfl rfl rfl rfl (le_refl _) commands.prepared
  have conns := commands.conns cmd prepared
  have others : c.cmdConns ≠ [] → cmd.devices = c.cmdConns.map some := fun some => by
    rw [ScriptCommand.devices, if_neg (conns ▸ some), conns]
  have own : ¬c.cmdConns ≠ [] → cmd.devices = [none] := fun none => by
    rw [ScriptCommand.devices, if_pos (conns ▸ not_not.mp none)]
  have queued := fun exposure => cleared.queCommand prepared exposure
  unfold DevScript.doCommand
  dsimp only
  split_ifs with _ _ _ elsewhere
  · exact cleared
  · exact commands.same rfl rfl rfl rfl rfl rfl (le_refl _) commands.prepared
  · exact cleared
  · exact cleared
  · exact others elsewhere ▸ (queued false).push [.loop]
  · exact others elsewhere ▸ queued false
  · exact own elsewhere ▸ (queued cmd.handed.exposure).push [.loop]
  · exact own elsewhere ▸ queued cmd.handed.exposure

theorem Commands.haveCommand (commands : Commands c) : Commands (c.haveCommand a) := by
  unfold DevScript.haveCommand
  split
  · exact commands
  · split
    · exact commands
    · rename_i cmd prepared
      exact commands.doCommand a prepared

theorem Commands.loop (commands : Commands c) : Commands (c.loop a) := by
  unfold DevScript.loop
  split
  · exact commands
  · rename_i runs
    have script : c.script.isSome = true := by
      rw [Option.isSome_iff_ne_none]
      exact fun none => runs (Or.inl (by rw [none]; rfl))
    have prepared := commands.nextPreparedCommand script a.answer
    dsimp only
    split
    · exact (prepared.push _).deleteScript a
    · exact prepared.haveCommand a

theorem Commands.startAfterEnd (commands : Commands c) (targets : Targets c) (none : c.currentTarget = none) :
    Commands (c.startAfterEnd a) := by
  have started := commands.startTarget a none (commands.unprepared targets none)
  unfold DevScript.startAfterEnd
  dsimp only
  split
  · exact started
  · rename_i runs
    have script : (c.startTarget a).script.isSome = true := by
      rw [Option.isSome_iff_ne_none]
      exact fun none => runs (by rw [none]; rfl)
    have prepared := started.nextPreparedCommand script a.answer
    split
    · exact prepared.deleteScript a
    · exact prepared.haveCommand a

theorem Commands.setTarget (commands : Commands c) (targets : Targets c) (t : Target) : Commands (c.setTarget t a) := by
  have given := commands.give t
  unfold DevScript.setTarget
  dsimp only
  split
  · exact given
  · rename_i idle
    have none := Option.not_isSome_iff_eq_none.mp idle
    exact (given.startTarget a none (given.unprepared (targets.give t) none)).push _

theorem Commands.observe (commands : Commands c) (targets : Targets c) : Commands (c.observe a) := by
  unfold DevScript.observe
  split
  · exact commands.push _
  · rename_i idle
    have none := Option.not_isSome_iff_eq_none.mp idle
    exact (commands.startTarget a none (commands.unprepared targets none)).push _

theorem Commands.scriptEnded (commands : Commands c) (targets : Targets c) (arg : Option Target) :
    Commands (c.scriptEnded arg a) := by
  have given : Commands (arg.elim c c.give) ∧ Targets (arg.elim c c.give) := by
    cases arg with
    | none => exact ⟨commands, targets⟩
    | some t => exact ⟨commands.give t, targets.give t⟩
  unfold DevScript.scriptEnded
  dsimp only
  split
  · exact given.1
  · exact given.1.observe a given.2

theorem Commands.acqusitionEnd (commands : Commands c) (acqEnd : AcqEnd) : Commands (c.acqusitionEnd acqEnd a) := by
  have cleared : Commands { c with waitScript := .noWait } :=
    commands.same rfl rfl rfl rfl rfl rfl (le_refl _) commands.prepared
  unfold DevScript.acqusitionEnd
  split
  · exact commands
  · cases acqEnd with
    | precisionOk => exact cleared.push _
    | precisionFailed => exact cleared.deleteScript a
    | aborted => exact cleared

theorem Commands.nextCommand (commands : Commands c) (targets : Targets c) (triggerCommand : Option Nat) :
    Commands (c.nextCommand triggerCommand a) := by
  unfold DevScript.nextCommand
  split
  · dsimp only
    split
    · rename_i t idle kill
      have taken : Commands { c.push [.clearKill, .loop] with
          waiting := none
          taken := c.taken ++ triggerCommand.toList.map (·, t.number) } :=
        commands.same rfl rfl rfl rfl rfl rfl (le_refl _) commands.prepared
      have unprepared := commands.unprepared targets idle
      exact ((taken.setNextTarget t).startTarget a ((setNextTarget_currentTarget t).trans idle)
        ((setNextTarget_nextComd t).trans unprepared)).push _
    · exact commands.push _
  · exact commands.push _

theorem Commands.setKill (commands : Commands c) (kind : Kill) (arg : Option Target) :
    Commands (c.setKill kind arg) := by
  unfold DevScript.setKill
  dsimp only
  split
  · exact commands.same rfl rfl rfl rfl rfl rfl (Nat.le_succ _) commands.prepared
  · cases arg <;> exact commands.same rfl rfl rfl rfl rfl rfl (Nat.le_succ _) commands.prepared

theorem Commands.stopScript (commands : Commands c) (kind : Kill) : Commands (c.stopScript kind) := by
  have marked : Commands (if kind = Kill.stopTarget then c.currentTarget.elim c fun t => c.dontExecute t.target
      else { c with waitForExposure := false, dont_execute_for := -1, dont_execute_for_obsid := -1 }) := by
    split
    · exact commands.answer .stopTarget
    · exact commands.same rfl rfl rfl rfl rfl rfl (le_refl _) commands.prepared
  exact marked.deleteNextComd.same rfl rfl rfl rfl rfl rfl (le_refl _) nofun

theorem Waits.quiet {c' : DevScript} (waits : Waits c) (between : c.stack = [] ∨ c.stack.head? = some .posting)
    (quiet : Quiet c c') : Waits c' where
  waiting outside := by
    obtain ⟨calls, _, stack⟩ := quiet.calls
    rw [quiet.killTarget, quiet.waiting]
    exact waits.waiting fun inside => outside (stack ▸ List.mem_append_right calls inside)
  alone id inside := by
    obtain ⟨calls, plain, stack⟩ := quiet.calls
    rw [stack] at inside
    rcases List.mem_append.mp inside with inside | inside
    · exact (plain _ inside).elim
    · have alone := waits.alone id inside
      rcases between with none | posting
      · rw [none] at alone
        cases alone
      · rw [alone] at posting
        cases posting

theorem Waits.go_quiet {c' : DevScript} (waits : Waits c) {call : Call} {rest : List Call} (head : c.stack = call :: rest)
    (plain : call.Plain) (quiet : Quiet { c with stack := rest } c') : Waits c' where
  waiting outside := by
    obtain ⟨calls, _, stack⟩ := quiet.calls
    rw [quiet.killTarget, quiet.waiting]
    refine waits.waiting fun inside => ?_
    rw [head] at inside
    rcases List.mem_cons.mp inside with rfl | inside
    · exact plain
    · exact outside (stack ▸ List.mem_append_right calls inside)
  alone id inside := by
    obtain ⟨calls, plain, stack⟩ := quiet.calls
    rw [stack] at inside
    rcases List.mem_append.mp inside with inside | (inside : _ ∈ rest)
    · exact (plain _ inside).elim
    · have alone := waits.alone id (head ▸ List.mem_cons_of_mem call inside)
      rw [head] at alone
      rw [(List.cons.inj alone).2] at inside
      cases inside

theorem Waits.clearKill (waits : Waits c) {rest : List Call} (head : c.stack = .clearKill :: rest) :
    Waits { c with stack := rest }.clearKill := by
  refine ⟨fun _ => rfl, fun id (inside : _ ∈ rest) => ?_⟩
  have alone := waits.alone id (head ▸ List.mem_cons_of_mem _ inside)
  rw [head] at alone
  cases (List.cons.inj alone).1

theorem Waits.setKill (waits : Waits c) (kind : Kill) (arg : Option Target) : Waits (c.setKill kind arg) := by
  unfold DevScript.setKill
  dsimp only
  split
  · exact ⟨waits.waiting, waits.alone⟩
  · cases arg with
    | none => exact ⟨fun _ => rfl, waits.alone⟩
    | some t => exact ⟨fun _ => rfl, waits.alone⟩

theorem Waits.push_answer (waits : Waits c) (none : c.stack = []) (id : Nat) :
    Waits (c.push [.nextCommand (some id)]) := by
  have stack : (c.push [.nextCommand (some id)]).stack = [.nextCommand (some id)] := by simp [push, none]
  refine ⟨fun _ => waits.waiting (none ▸ List.not_mem_nil), fun id' inside => ?_⟩
  rw [stack] at inside ⊢
  rw [List.mem_singleton.mp inside]

theorem Waits.of_clearKill (inside : .clearKill ∈ c.stack) (plain : ∀ id, .nextCommand (some id) ∉ c.stack) : Waits c :=
  ⟨fun outside => absurd inside outside, fun id inside => absurd inside (plain id)⟩

theorem Waits.nextCommand (none : c.stack = []) (waiting : c.killTarget.map Assigned.number = c.waiting)
    (triggerCommand : Option Nat) : Waits (c.nextCommand triggerCommand a) := by
  unfold DevScript.nextCommand
  split
  · dsimp only
    split
    · have stack : ∀ d : DevScript, d.stack = [.clearKill, .loop] → Waits (d.push [.nextCommand .none]) := by
        intro d stack
        apply Waits.of_clearKill <;> simp [push, stack]
      exact stack _ (by rw [startTarget_stack, setNextTarget_stack]; simp [push, none])
    · apply Waits.of_clearKill <;> simp [push, none]
  · refine ⟨fun _ => waiting, fun id inside => ?_⟩
    rw [show (c.push [.loop]).stack = [.loop] by simp [push, none]] at inside
    cases List.mem_singleton.mp inside

structure Accounted (c : DevScript) : Prop where
  targets : Targets c
  commands : Commands c
  waits : Waits c

def NotStartedMeanwhile (c : DevScript) : Step → Prop
  | .go _ => c.stack.head? = some .startAfterEnd → c.currentTarget = none
  | .post .. => True

theorem Accounted.event {c' : DevScript} (accounted : Accounted c)
    (between : c.stack = [] ∨ c.stack.head? = some .posting) (quiet : Quiet c c') (targets : Targets c')
    (commands : Commands c') : Accounted c' :=
  ⟨targets, commands, accounted.waits.quiet between quiet⟩

/-- Neither the targets nor the prepared command change. -/
structure Still (c c' : DevScript) : Prop where
  places : ∀ n, c'.places.count n = c.places.count n
  assigned : c'.assigned = c.assigned
  script : c'.script = c.script
  current : c'.currentTarget = c.currentTarget
  started : c'.started = c.started
  handed : c'.handed = c.handed
  nextComd : c'.nextComd = c.nextComd
  cmdConns : c'.cmdConns = c.cmdConns
  queued : c'.queued = c.queued
  deleted : c'.deleted = c.deleted
  restarted : c'.restarted = c.restarted
  made : c'.made = c.made

theorem Still.refl (c : DevScript) : Still c c := ⟨fun _ => rfl, rfl, rfl, rfl, rfl, rfl, rfl, rfl, rfl, rfl, rfl, rfl⟩

theorem Still.targets {c' : DevScript} (still : Still c c') (targets : Targets c) : Targets c' :=
  targets.same still.places still.assigned still.script still.current still.started

theorem Still.commands {c' : DevScript} (still : Still c c') (commands : Commands c) : Commands c' :=
  commands.same still.handed still.nextComd still.cmdConns still.queued still.deleted still.restarted
    (Nat.le_of_eq still.made.symm) fun prepared => still.script ▸ commands.prepared prepared

theorem mirrorFinish_still : Still c c.mirrorFinish := by
  unfold mirrorFinish
  split <;> exact { Still.refl c with }

theorem signal_still (sig : Int) : Still c (c.signal sig) := by
  unfold signal
  split <;> exact { Still.refl c with }

theorem exposureStartedRest_still : Still c c.exposureStartedRest := by
  unfold exposureStartedRest
  dsimp only
  split_ifs <;> exact { Still.refl c with }

theorem exposureEndRest_still : Still c (c.exposureEndRest a) := by
  unfold exposureEndRest
  dsimp only
  split <;> exact { Still.refl c with }

theorem Targets.exposureEnd (targets : Targets c) : Targets (c.exposureEnd a) := by
  unfold DevScript.exposureEnd
  dsimp only
  split
  · exact ((targets.push _).push _).deleteScript a
  · exact targets.push _

theorem Commands.exposureEnd (commands : Commands c) : Commands (c.exposureEnd a) := by
  unfold DevScript.exposureEnd
  dsimp only
  split
  · exact ((commands.push _).push _).deleteScript a
  · exact commands.push _

theorem Accounted.over {c' : DevScript} (accounted : Accounted c) (still : Still c c') (stack : c'.stack = c.stack)
    (kill : c'.killTarget = c.killTarget) (waiting : c'.waiting = c.waiting) : Accounted c' :=
  ⟨still.targets accounted.targets, still.commands accounted.commands,
    ⟨by rw [stack, kill, waiting]; exact accounted.waits.waiting, by rw [stack]; exact accounted.waits.alone⟩⟩

theorem Accounted.still {c' : DevScript} (accounted : Accounted c)
    (between : c.stack = [] ∨ c.stack.head? = some .posting) (quiet : Quiet c c') (still : Still c c') : Accounted c' :=
  accounted.event between quiet (still.targets accounted.targets) (still.commands accounted.commands)

theorem Accounted.post (accounted : Accounted c) (e : ScriptEvent) (enabled : Enabled c (.post e a)) :
    Accounted (c.post a e) := by
  obtain ⟨targets, commands, waits⟩ := accounted
  have all : Accounted c := ⟨targets, commands, waits⟩
  cases e with
  | setTarget t => exact all.event enabled (c.setTarget_quiet a t) (targets.setTarget a t) (commands.setTarget a targets t)
  | observe => exact all.event enabled (c.observe_quiet a) (targets.observe a) (commands.observe a targets)
  | scriptEnded arg =>
    exact all.event enabled (c.scriptEnded_quiet a arg) (targets.scriptEnded a arg) (commands.scriptEnded a targets arg)
  | stopObservation => exact all.event enabled (c.deleteScript_quiet a) (targets.deleteScript a) (commands.deleteScript a)
  | kill kind arg =>
    exact ⟨(targets.stopScript kind).setKill kind arg, (commands.stopScript kind).setKill kind arg,
      (waits.quiet enabled (c.stopScript_quiet kind)).setKill kind arg⟩
  | nextCommand => exact all.event enabled c.pushNextCommand_quiet (targets.push _) (commands.push _)
  | acqusitionEnd acqEnd =>
    exact all.event enabled (c.acqusitionEnd_quiet a acqEnd) (targets.acqusitionEnd a acqEnd)
      (commands.acqusitionEnd a acqEnd)
  | mirrorFinish => exact all.still enabled c.mirrorFinish_quiet mirrorFinish_still
  | signal sig => exact all.still enabled (c.signal_quiet sig) (signal_still sig)
  | triggered =>
    exact all.event (Or.inl enabled) (c.push_one_quiet .triggeredRest trivial) (targets.push _) (commands.push _)
  | commandOK id =>
    have answered : Accounted (c.answered id) := all.over { Still.refl c with } rfl rfl rfl
    exact ⟨answered.targets.push _, answered.commands.push _, answered.waits.push_answer enabled.1 id⟩
  | commandFailed id =>
    have failed : Accounted { (c.answered id).noLonger [id] with waitForExposure := false } :=
      all.over { Still.refl c with } rfl rfl rfl
    exact failed.event (Or.inl enabled.1) (pushNextCommand_quiet _) (failed.targets.push _) (failed.commands.push _)
  | exposureStarted id =>
    have started : Accounted (c.noLonger [id]) := all.over { Still.refl c with } rfl rfl rfl
    exact started.event (Or.inl enabled) (exposureStarted_quiet _) (started.targets.push _) (started.commands.push _)
  | exposureEnd =>
    exact all.event (Or.inl enabled) (c.exposureEnd_quiet a) (targets.exposureEnd a) (commands.exposureEnd a)
  | exposureFailed ids =>
    have failed : Accounted (c.noLonger ids) := all.over { Still.refl c with } rfl rfl rfl
    exact failed.event (Or.inl enabled) (pushNextCommand_quiet _) (failed.targets.push _) (failed.commands.push _)
  | readoutEnd => exact all.event (Or.inl enabled) c.readoutEnd_quiet (targets.push _) (commands.push _)
  | commandLost id => exact all.over { Still.refl c with } rfl rfl rfl
  | exposureLost ids => exact all.over { Still.refl c with } rfl rfl rfl

theorem Accounted.go (accounted : Accounted c) (enabled : Enabled c (.go a))
    (once : NotStartedMeanwhile c (.go a)) : Accounted (c.go a) := by
  obtain ⟨targets, commands, waits⟩ := accounted
  obtain ⟨call, rest, head⟩ := List.exists_cons_of_ne_nil enabled
  have popped : Targets { c with stack := rest } := targets.same (fun _ => rfl) rfl rfl rfl rfl
  have popped' : Commands { c with stack := rest } :=
    commands.same rfl rfl rfl rfl rfl rfl (le_refl _) commands.prepared
  have quiet := fun plain => waits.go_quiet head plain (resume_quiet _ a call plain)
  rw [go_of_head c a head]
  unfold resume at quiet ⊢
  cases call with
  | posting => exact ⟨popped, popped', quiet trivial⟩
  | nextCommand triggerCommand =>
    cases triggerCommand with
    | none =>
      refine ⟨?_, ?_, quiet trivial⟩ <;> dsimp only <;> rw [nextCommand_none]
      · exact popped.push _
      · exact popped'.push _
    | some id =>
      have alone := waits.alone id (head ▸ List.mem_cons_self)
      have waiting := waits.waiting (by rw [alone]; simp)
      obtain ⟨_, rfl⟩ := List.cons.inj (head.symm.trans alone)
      exact ⟨popped.nextCommand a waiting _, popped'.nextCommand a popped _,
        Waits.nextCommand a (c := { c with stack := [] }) rfl waiting (some id)⟩
  | clearKill =>
    exact ⟨popped.clearKill, popped'.same rfl rfl rfl rfl rfl rfl (le_refl _) commands.prepared, waits.clearKill head⟩
  | loop => exact ⟨popped.loop a, popped'.loop a, quiet trivial⟩
  | startAfterEnd =>
    have idle := once (by rw [head]; rfl)
    exact ⟨popped.startAfterEnd a idle, popped'.startAfterEnd a popped idle, quiet trivial⟩
  | exposureStartedRest =>
    exact ⟨exposureStartedRest_still.targets popped, exposureStartedRest_still.commands popped', quiet trivial⟩
  | exposureEndRest =>
    exact ⟨(exposureEndRest_still a).targets popped, (exposureEndRest_still a).commands popped', quiet trivial⟩
  | triggeredRest =>
    dsimp only
    refine ⟨?_, ?_, quiet trivial⟩
    · split
      · exact popped
      · exact popped.push _
    · split
      · exact popped'
      · exact popped'.push _

theorem Accounted.fresh : Accounted fresh where
  targets := ⟨fun _ => rfl, rfl, nofun⟩
  commands := ⟨List.nodup_nil, by simp [DevScript.fresh], nofun, nofun, rfl, [], List.Perm.nil, rfl⟩
  waits := ⟨fun _ => rfl, by simp [DevScript.fresh]⟩

theorem Accounted.startedOnce (accounted : Accounted c) : StartedOnce c where
  targets := by
    rw [List.perm_iff_count]
    intro n
    rw [accounted.targets.places, List.count_range]
  script := accounted.targets.script
  running := accounted.targets.running
  handed := accounted.commands.ids
  queued := accounted.commands.queued

instance (c : DevScript) : DecidablePred (NotStartedMeanwhile c)
  | .go _ => inferInstanceAs (Decidable (_ → _))
  | .post .. => isTrue trivial

theorem Accounted.step (accounted : Accounted c) (e : Step) (enabled : Enabled c e) (once : NotStartedMeanwhile c e) :
    Accounted (c.step e) := by
  cases e with
  | post e a => exact accounted.post a e enabled
  | go a => exact accounted.go a enabled once

theorem startTarget_again {t : Assigned} (current : c.currentTarget = some t) :
    (c.startTarget a).started = c.started ++ [t.number] ∨
      (c.startTarget a).started = c.started ∧ (c.startTarget a).idle = c.idle ++ [t.number] := by
  have same : c.startTarget a = { c with cmdConns := [] }.startCurrent t a := by
    simp [startTarget, nextAsCurrent, current]
  rw [same, startCurrent]
  dsimp only
  split
  · exact Or.inr ⟨rfl, rfl⟩
  · exact Or.inl rfl

theorem startAfterEnd_after : Quiet (c.startTarget a) (c.startAfterEnd a) := by
  unfold startAfterEnd
  dsimp only
  split
  · exact Quiet.refl _
  · refine (nextPreparedCommand_quiet _ a.answer).trans ?_
    split
    · exact deleteScript_quiet _ a
    · exact haveCommand_quiet _ a

theorem Targets.startAfterEnd_twice (targets : Targets c) {t : Assigned} (current : c.currentTarget = some t) :
    2 ≤ (c.startAfterEnd a).places.count t.number := by
  have quiet := startAfterEnd_after (c := c) a
  have script : c.script = some t.number := by rw [targets.script, current]; rfl
  have running : 0 < c.started.count t.number := List.count_pos_iff.mpr (targets.running _ script)
  have started := quiet.started.sublist.count_le t.number
  rw [count_places]
  rcases startTarget_again a current with again | ⟨same, idle⟩
  · rw [again, List.count_append, List.count_singleton_self] at started
    omega
  · rw [same] at started
    have given : 0 < (c.startAfterEnd a).idle.count t.number :=
      List.count_pos_iff.mpr (quiet.idle (idle ▸ List.mem_append_right _ (List.mem_singleton.mpr rfl)))
    omega

theorem StartedOnce.notStartedMeanwhile (accounted : Accounted c) (e : Step) (enabled : Enabled c e)
    (once : StartedOnce (c.step e)) : NotStartedMeanwhile c e := by
  cases e with
  | post e a => trivial
  | go a =>
    intro head
    obtain ⟨call, rest, stack⟩ := List.exists_cons_of_ne_nil enabled
    rw [stack] at head
    cases head
    cases current : c.currentTarget with
    | none => rfl
    | some t =>
      have popped : Targets { c with stack := rest } := accounted.targets.same (fun _ => rfl) rfl rfl rfl rfl
      have twice : 2 ≤ (c.go a).places.count t.number := by
        rw [go_of_head c a stack]
        exact popped.startAfterEnd_twice a current
      have places := List.perm_iff_count.mp once.targets t.number
      rw [List.count_range] at places
      change (c.go a).places.count t.number = if t.number < (c.go a).assigned then 1 else 0 at places
      split at places <;> omega

/-- In every state of a run each target is in one place, the script is that of the current target, and each command is
queued once, just when no step of the run goes on after the end of a script while another was started. -/
theorem started_once_iff (es : List Step) (enabled : Guarded step Enabled fresh es) :
    (∀ done, done <+: es → StartedOnce (run step fresh done)) ↔ Guarded step NotStartedMeanwhile fresh es := by
  refine prefixes_iff_guarded_enabled ?_ ?_ ?_ Accounted.fresh enabled
  · exact fun _ => Accounted.startedOnce
  · exact fun _ e accounted enabled once => accounted.step e enabled once
  · exact fun _ e accounted enabled once => StartedOnce.notStartedMeanwhile accounted e enabled once

/-- A script hands out a command for the camera, and ends; nothing follows it. -/
theorem started_once_ended :
    let none := Surroundings.still (.ret .keep 0 .none)
    let es : List Step :=
      [.post (.setTarget ⟨1, 1, 1⟩) none, .go none, .go (.still (.ret .keep 0 (some ⟨true, false, false, []⟩))),
        .post (.commandOK 0) none, .go none, .go none, .post (.exposureStarted 0) none, .go none,
        .post .nextCommand none, .go none, .go (.still (.ret .endScript 0 .none)), .go none, .go none]
    (∀ done, done <+: es → StartedOnce (run step fresh done)) ↔ Guarded step NotStartedMeanwhile fresh es := by
  refine started_once_iff _ ?_
  decide

/-- The next target is started when the end of the script is told, and started again by what ended the script. -/
theorem started_twice : ¬∀ es, Guarded step Enabled fresh es → StartedOnce (run step fresh es) := by
  intro once
  let none := Surroundings.still (.ret .keep 0 .none)
  let ended := Surroundings.still (.ret .endScript 0 .none)
  have twice := once
    [.post (.setTarget ⟨1, 1, 1⟩) none, .go none, .go none, .post (.setTarget ⟨2, 2, 2⟩) none,
      .post .nextCommand none, .go none, .go ended, .post (.scriptEnded .none) none, .go none, .go none, .go none,
      .go none] (by decide)
  exact absurd twice.targets.length_eq (by decide)

end DevScript
end Rts2.Exec
