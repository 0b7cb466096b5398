import Rts2.Plan.Ownership

/-! The observations of the executor: each that was started is ended with its target. The number
of an ended one stays with its target, so it must not be ended again. -/
namespace Rts2.Plan

open Lib Kernel

variable {τ δ : Type} {s p : Executor τ}

def Executor.observation (s : Executor τ) (t : Nat) : Option Nat := (s.target t).observation

/-- Only the current target has an observation that is not ended, and the targets that wait in the
queue have none. -/
structure Observed (s : Executor τ) : Prop extends Held s where
  bound : ∀ t o, s.observation t = some o → o < s.nextObs
  apart : ∀ t u o, s.observation t = some o → s.observation u = some o → t = u
  endsBound : ∀ o ∈ s.ends, o < s.nextObs
  single : s.ends.Nodup
  startsMade : ∀ x ∈ s.starts, x.1 < s.made
  running : ∀ t, s.currentTarget = some t → ∀ o, s.observation t = some o → o ∉ s.ends
  waiting : ∀ t ∈ s.queue.targets, s.currentTarget ≠ some t → s.observation t = none
  closed : ∀ x ∈ s.starts,
    (x.2 ∈ s.ends ∧ (x.1 ∈ s.targetsQue ∨ s.currentTarget = some x.1)) ∨
      (s.currentTarget = some x.1 ∧ s.observation x.1 = some x.2)

namespace Executor

theorem endObservation_observation (s : Executor τ) (w : World τ δ) (t : Nat) (next : Int)
    (u : Nat) : (s.endObservation w t next).1.observation u = s.observation u := by
  unfold endObservation
  split
  · rfl
  · cases held : (s.target t).observation with
    | none =>
      by_cases same : u = t
      · subst same
        simp [observation, setTarget, held]
      · simp [observation, setTarget, same]
    | some o =>
      by_cases same : u = t
      · subst same
        simp [observation, setTarget, held]
      · simp [observation, setTarget, same]

theorem endObservation_ends (s : Executor τ) (w : World τ δ) (t : Nat) {next : Int}
    (leaves : ¬ (w.isContinues t = 1 ∧ next = s.getTargetID t)) :
    (s.endObservation w t next).1.ends = s.ends ++ (s.observation t).toList := by
  unfold endObservation
  rw [if_neg leaves]
  cases held : (s.target t).observation with
  | none => simp [observation, setTarget, held]
  | some o => simp [observation, held]

theorem endObservation_books (s : Executor τ) (w : World τ δ) (t : Nat) (next : Int) :
    (s.endObservation w t next).1.starts = s.starts ∧
      (s.endObservation w t next).1.nextObs = s.nextObs := by
  unfold endObservation
  split
  · exact ⟨rfl, rfl⟩
  · cases (s.target t).observation <;> exact ⟨rfl, rfl⟩

theorem not_continues_none (s : Executor τ) (w : World τ δ) (t : Nat) :
    ¬ (w.isContinues t = 1 ∧ (-1 : Int) = s.getTargetID t) := by
  rintro ⟨-, same⟩
  have := Int.natCast_nonneg (s.target t).target_id
  simp only [getTargetID] at same
  omega

end Executor

theorem Observed.transport (observed : Observed s) (alike : Alike s p)
    (same : ∀ u, p.observation u = s.observation u) (nextObs : p.nextObs = s.nextObs)
    (starts : p.starts = s.starts) (ends : p.ends = s.ends) : Observed p := by
  have held := alike.held observed.toHeld
  obtain ⟨made, deleted, queue, current, filed⟩ := alike
  refine { toHeld := held, bound := ?_, apart := ?_, endsBound := ?_, single := ?_,
           startsMade := ?_, running := ?_, waiting := ?_, closed := ?_ }
  · simpa only [same, nextObs] using observed.bound
  · simpa only [same] using observed.apart
  · simpa only [ends, nextObs] using observed.endsBound
  · simpa only [ends] using observed.single
  · simpa only [starts, made] using observed.startsMade
  · simpa only [same, ends, current] using observed.running
  · simpa only [same, queue, current] using observed.waiting
  · simpa only [same, starts, ends, current, filed] using observed.closed

namespace Executor

theorem setQueue_ends (observed : Observed s) {q : ExecutorQueue Nat τ}
    (spares : ExecutorQueue.Spares s.queue.targets s.currentTarget q) :
    (s.setQueue q).ends = s.ends := by
  have none : q.deleted.filterMap (fun t => (s.target t).observation) = [] := by
    rw [List.filterMap_eq_nil_iff]
    intro t gone
    have queued := spares.1.subset (List.mem_append_right _ gone)
    exact observed.waiting t queued (fun current => spares.2 t current gone)
  simp only [setQueue, none, List.append_nil]

theorem observed_setQueue (observed : Observed s) {q : ExecutorQueue Nat τ}
    (spares : ExecutorQueue.Spares s.queue.targets s.currentTarget q) :
    Observed (s.setQueue q) := by
  have ends := setQueue_ends observed spares
  refine { toHeld := held_setQueue observed.toHeld spares.1, bound := observed.bound,
           apart := observed.apart, endsBound := ?_, single := ?_,
           startsMade := observed.startsMade, running := ?_, waiting := ?_, closed := ?_ }
  · rw [ends]
    exact observed.endsBound
  · rw [ends]
    exact observed.single
  · rw [ends]
    exact observed.running
  · intro t mem
    exact observed.waiting t (spares.1.subset (List.mem_append_left _ mem))
  · rw [ends]
    exact observed.closed

theorem observed_clear (observed : Observed s) : Observed s.clearNextTargets :=
  (observed_setQueue observed (clear_spares observed.toHeld)).transport (clear_alike s)
    (fun _ => rfl) rfl rfl rfl

theorem observation_created (s : Executor τ) (row : Nat × String) (t : Nat) :
    (s.createTarget row).observation t = if t = s.made then none else s.observation t := by
  by_cases new : t = s.made
  · subst new
    simp [observation, createTarget]
  · simp [observation, createTarget, new]

theorem observed_created (observed : Observed s) (row : Nat × String) :
    Observed (s.createTarget row) := by
  have old : ∀ t o, (s.createTarget row).observation t = some o → s.observation t = some o := by
    intro t o holds
    rw [observation_created] at holds
    split at holds
    · simp at holds
    · exact holds
  refine { toHeld := held_created observed.toHeld row, bound := ?_, apart := ?_,
           endsBound := observed.endsBound, single := observed.single, startsMade := ?_,
           running := ?_, waiting := ?_, closed := ?_ }
  · exact fun t o holds => observed.bound t o (old t o holds)
  · exact fun t u o first second => observed.apart t u o (old t o first) (old u o second)
  · exact fun x mem => Nat.lt_succ_of_lt (observed.startsMade x mem)
  · exact fun t current o holds => observed.running t current o (old t o holds)
  · intro t mem other
    rw [observation_created]
    split
    · rfl
    · exact observed.waiting t mem other
  · intro x mem
    refine (observed.closed x mem).imp_right (fun ⟨current, holds⟩ => ⟨current, ?_⟩)
    rw [observation_created, if_neg (Nat.ne_of_lt (observed.startsMade x mem))]
    exact holds

theorem observation_new (s : Executor τ) (row : Nat × String) :
    (s.createTarget row).observation s.made = none := by
  rw [observation_created, if_pos rfl]

theorem observed_queued (observed : Observed s) {t : Nat} (unheld : Unheld s t)
    (blank : s.observation t = none) {q : ExecutorQueue Nat τ}
    (more : q.targets.Perm (t :: s.queue.targets)) (clean : q.deleted = []) (qid : Nat) :
    Observed { s with queue := q, static_qid := qid } := by
  refine { toHeld := held_queued observed.toHeld unheld more clean qid, bound := observed.bound,
           apart := observed.apart, endsBound := observed.endsBound, single := observed.single,
           startsMade := observed.startsMade, running := observed.running, waiting := ?_,
           closed := observed.closed }
  intro u mem other
  rcases List.mem_cons.mp (more.subset mem) with rfl | mem
  · exact blank
  · exact observed.waiting u mem other

theorem observed_addTarget (observed : Observed s) {t : Nat} (unheld : Unheld s t)
    (blank : s.observation t = none) (t_start t_end : Option τ) :
    Observed (s.addTarget t t_start t_end) :=
  observed_queued observed unheld blank (addTarget_perm s t t_start t_end) observed.clean _

theorem observed_addFront (observed : Observed s) {t : Nat} (unheld : Unheld s t)
    (blank : s.observation t = none) : Observed (s.addFront t) :=
  observed_queued observed unheld blank (addFront_perm s t) observed.clean _

theorem observed_deleted (observed : Observed s) {t : Nat} (unheld : Unheld s t)
    (blank : s.observation t = none) : Observed (s.deleteTarget t) := by
  have ends : (s.deleteTarget t).ends = s.ends := by
    simp [deleteTarget, show (s.target t).observation = none from blank]
  refine { toHeld := held_deleted observed.toHeld unheld.made, bound := observed.bound,
           apart := observed.apart, endsBound := ?_, single := ?_,
           startsMade := observed.startsMade, running := ?_, waiting := observed.waiting,
           closed := ?_ }
  · rw [ends]
    exact observed.endsBound
  · rw [ends]
    exact observed.single
  · rw [ends]
    exact observed.running
  · rw [ends]
    exact observed.closed

theorem observed_startObservation (observed : Observed s) {t : Nat}
    (current : s.currentTarget = some t) : Observed (s.startObservation t) := by
  have alike := startObservation_alike s t
  have same : ∀ u, (s.startObservation t).observation u = s.observation u := by
    intro u
    unfold startObservation
    split
    · rfl
    · cases held : (s.target t).observation with
      | none =>
        by_cases is : u = t
        · subst is
          simp [observation, setTarget, held]
        · simp [observation, setTarget, is]
      | some o =>
        by_cases is : u = t
        · subst is
          simp [observation, setTarget, held]
        · simp [observation, setTarget, is]
  by_cases started : (s.target t).observationStart = true
  · rw [startObservation, if_pos started]
    exact observed
  · cases held : s.observation t with
    | none =>
      have is : (s.target t).observation = none := held
      exact observed.transport alike same
        (by simp [startObservation, started, is, setTarget])
        (by simp [startObservation, started, is, setTarget])
        (by simp [startObservation, started, is, setTarget])
    | some o =>
      have is : (s.target t).observation = some o := held
      have starts : (s.startObservation t).starts = s.starts ++ [(t, o)] := by
        simp [startObservation, started, is]
      have ends : (s.startObservation t).ends = s.ends := by
        simp [startObservation, started, is, setTarget]
      have nextObs : (s.startObservation t).nextObs = s.nextObs := by
        simp [startObservation, started, is, setTarget]
      refine { toHeld := alike.held observed.toHeld, bound := ?_, apart := ?_, endsBound := ?_,
               single := ?_, startsMade := ?_, running := ?_, waiting := ?_, closed := ?_ }
      · simpa only [same, nextObs] using observed.bound
      · simpa only [same] using observed.apart
      · simpa only [ends, nextObs] using observed.endsBound
      · simpa only [ends] using observed.single
      · rw [starts, alike.made]
        intro x mem
        rcases List.mem_append.mp mem with mem | mem
        · exact observed.startsMade x mem
        · exact List.mem_singleton.mp mem ▸ observed.below t (.inl current)
      · simpa only [same, ends, alike.currentTarget] using observed.running
      · simpa only [same, alike.queue, alike.currentTarget] using observed.waiting
      · rw [starts, ends, alike.currentTarget, alike.targetsQue]
        simp only [same]
        intro x mem
        rcases List.mem_append.mp mem with mem | mem
        · exact observed.closed x mem
        · obtain rfl := List.mem_singleton.mp mem
          exact .inr ⟨current, held⟩

theorem observed_startSlew (observed : Observed s) {t : Nat}
    (current : s.currentTarget = some t) (inserted : Bool) :
    Observed (s.startSlew t inserted) := by
  cases held : s.observation t with
  | some o =>
    have is : (s.target t).observation = some o := held
    simpa only [startSlew, is] using observed
  | none =>
    have is : (s.target t).observation = none := held
    cases inserted with
    | false => simpa only [startSlew, is, Bool.false_eq_true, if_false] using observed
    | true =>
      have alike := startSlew_alike s t true
      have observation_ : ∀ u, (s.startSlew t true).observation u =
          if u = t then some s.nextObs else s.observation u := by
        intro u
        by_cases same : u = t
        · subst same
          simp [startSlew, is, observation, setTarget]
        · simp [startSlew, is, observation, setTarget, same]
      have books : (s.startSlew t true).ends = s.ends ∧ (s.startSlew t true).starts = s.starts ∧
          (s.startSlew t true).nextObs = s.nextObs + 1 := by
        simp [startSlew, is, setTarget]
      obtain ⟨ends, starts, nextObs⟩ := books
      refine { toHeld := alike.held observed.toHeld, bound := ?_, apart := ?_, endsBound := ?_,
               single := ?_, startsMade := ?_, running := ?_, waiting := ?_, closed := ?_ }
      · intro u o holds
        rw [observation_] at holds
        rw [nextObs]
        split at holds
        · obtain rfl := Option.some.inj holds
          exact Nat.lt_succ_self _
        · exact Nat.lt_succ_of_lt (observed.bound u o holds)
      · intro u v o first second
        have fresh : ∀ x, s.observation x ≠ some s.nextObs := fun x holds =>
          Nat.lt_irrefl _ (observed.bound x _ holds)
        rw [observation_] at first second
        split at first
        · split at second
          · rename_i left right
            exact left.trans right.symm
          · exact absurd (first ▸ second) (fresh v)
        · split at second
          · exact absurd (second ▸ first) (fresh u)
          · exact observed.apart u v o first second
      · rw [ends, nextObs]
        exact fun o mem => Nat.lt_succ_of_lt (observed.endsBound o mem)
      · rw [ends]
        exact observed.single
      · rw [starts, alike.made]
        exact observed.startsMade
      · intro u mine o holds ended
        rw [alike.currentTarget, current, Option.some.injEq] at mine
        rw [observation_, if_pos mine.symm, Option.some.injEq] at holds
        rw [ends, ← holds] at ended
        exact Nat.lt_irrefl _ (observed.endsBound _ ended)
      · intro u mem other
        rw [alike.queue] at mem
        rw [alike.currentTarget] at other
        have same : u ≠ t := fun same => other (by rw [same, current])
        rw [observation_, if_neg same]
        exact observed.waiting u mem other
      · rw [starts, ends, alike.currentTarget, alike.targetsQue]
        intro x mem
        rcases observed.closed x mem with done | ⟨mine, holds⟩
        · exact .inl done
        · rw [current, Option.some.injEq] at mine
          rw [← mine, held] at holds
          simp at holds

theorem observed_blank (observed : Observed s) {t : Nat} (current : s.currentTarget = some t)
    (alike : Alike s p)
    (blank : ∀ u, p.observation u = if u = t then none else s.observation u)
    (nextObs : p.nextObs = s.nextObs) (starts : p.starts = s.starts)
    (ends : p.ends = s.ends ++ (s.observation t).toList) : Observed p := by
  have old : ∀ u o, p.observation u = some o → u ≠ t ∧ s.observation u = some o := by
    intro u o holds
    rw [blank] at holds
    split at holds
    · simp at holds
    · rename_i other
      exact ⟨other, holds⟩
  refine { toHeld := alike.held observed.toHeld, bound := ?_, apart := ?_, endsBound := ?_,
           single := ?_, startsMade := ?_, running := ?_, waiting := ?_, closed := ?_ }
  · rw [nextObs]
    exact fun u o holds => observed.bound u o (old u o holds).2
  · exact fun u v o first second => observed.apart u v o (old u o first).2 (old v o second).2
  · rw [ends, nextObs]
    intro o mem
    rcases List.mem_append.mp mem with mem | mem
    · exact observed.endsBound o mem
    · exact observed.bound t o (Option.mem_toList.mp mem)
  · rw [ends]
    refine observed.single.append (by cases s.observation t <;> simp) ?_
    intro o ended held
    exact observed.running t current o (Option.mem_toList.mp held) ended
  · rw [starts, alike.made]
    exact observed.startsMade
  · intro u mine o holds
    rw [alike.currentTarget, current, Option.some.injEq] at mine
    exact absurd mine.symm (old u o holds).1
  · intro u mem other
    rw [alike.queue] at mem
    rw [alike.currentTarget] at other
    rw [blank]
    split
    · rfl
    · exact observed.waiting u mem other
  · rw [starts, ends, alike.currentTarget, alike.targetsQue]
    intro x mem
    refine .inl ?_
    rcases observed.closed x mem with ⟨ended, place⟩ | ⟨mine, holds⟩
    · exact ⟨List.mem_append_left _ ended, place⟩
    · have same : x.1 = t := Option.some.inj (mine.symm.trans current)
      rw [same] at holds
      exact ⟨List.mem_append_right _ (Option.mem_toList.mpr holds), .inr mine⟩

theorem observed_newObsSlew (observed : Observed s) (w : World τ δ) {t : Nat}
    (current : s.currentTarget = some t) (inserted : Bool) :
    Observed (s.newObsSlew w t inserted) := by
  have alike := endObservation_alike s w t (-1)
  obtain ⟨starts, nextObs⟩ := endObservation_books s w t (-1)
  have ends := endObservation_ends s w t (not_continues_none s w t)
  have blank : Observed ((s.endObservation w t (-1)).1.setTarget t
      { (s.endObservation w t (-1)).1.target t with observation := none }) := by
    refine observed_blank observed current
      ⟨alike.made, alike.deleted, alike.queue, alike.currentTarget, alike.targetsQue⟩ ?_ nextObs
      starts ends
    intro u
    by_cases same : u = t
    · simp [observation, setTarget, same]
    · have kept := endObservation_observation s w t (-1) u
      simp only [observation] at kept
      simp [observation, setTarget, same, kept]
  exact observed_startSlew blank (alike.currentTarget.trans current) inserted

theorem observed_current (observed : Observed s) {next : Option Nat}
    (candidate : Candidate s next) (blank : ∀ t, next = some t → s.observation t = none)
    (left : ∀ t, s.currentTarget = some t → t ∉ s.queue.targets ∧ ∀ x ∈ s.starts, x.1 ≠ t) :
    Observed { s with currentTarget := next } := by
  refine { toHeld := ⟨?_, observed.once, observed.clean⟩, bound := observed.bound,
           apart := observed.apart, endsBound := observed.endsBound, single := observed.single,
           startsMade := observed.startsMade, running := ?_, waiting := ?_, closed := ?_ }
  · rintro t (same | mem)
    · rcases candidate t same with mem | unheld
      · exact observed.below t (.inr (.inl mem))
      · exact unheld.made
    · exact observed.below t (.inr mem)
  · intro t same o holds
    have is : s.observation t = some o := holds
    rw [blank t same] at is
    simp at is
  · intro t mem _
    exact observed.waiting t mem (fun current => (left t current).1 mem)
  · intro x mem
    have gone : s.currentTarget ≠ some x.1 := fun current => (left x.1 current).2 x mem rfl
    rcases observed.closed x mem with ⟨ended, place⟩ | ⟨current, -⟩
    · exact .inl ⟨ended, .inl (place.resolve_right gone)⟩
    · exact absurd current gone

theorem observed_released (observed : Observed s) (w : World τ δ) {t : Nat}
    (current : s.currentTarget = some t)
    (handed : t ∈ s.queue.targets → s.observation t = none) {next : Option Nat}
    (candidate : ∀ u, next = some u → u ∈ s.queue.targets ∨ Unheld s u ∧ s.observation u = none)
    {next_id : Int} (leaves : ¬ (w.isContinues t = 1 ∧ next_id = s.getTargetID t)) :
    Observed { (s.endObservation w t next_id).1.processTarget t with currentTarget := next } := by
  have alike := endObservation_alike s w t next_id
  have ends := endObservation_ends s w t leaves
  obtain ⟨starts, nextObs⟩ := endObservation_books s w t next_id
  have same := endObservation_observation s w t next_id
  have waits : ∀ u ∈ s.queue.targets, s.observation u = none := by
    intro u mem
    by_cases is : u = t
    · subst is
      exact handed mem
    · exact observed.waiting u mem (fun mine => is (Option.some.inj (mine.symm.trans current)))
  have filed : ((s.endObservation w t next_id).1.processTarget t).targetsQue =
      s.targetsQue ++ [t] := congrArg (· ++ [t]) alike.targetsQue
  refine { toHeld := ⟨?_, alike.queue ▸ observed.once, alike.queue ▸ observed.clean⟩,
           bound := ?_, apart := ?_, endsBound := ?_, single := ?_, startsMade := ?_,
           running := ?_, waiting := ?_, closed := ?_ }
  · rintro u (mine | mem | mem | mem)
    · rcases candidate u mine with mem | ⟨unheld, -⟩
      · exact alike.made ▸ observed.below u (.inr (.inl mem))
      · exact alike.made ▸ unheld.made
    · exact alike.made ▸ observed.below u (.inr (.inl (alike.queue ▸ mem)))
    · simp only [filed, List.mem_append, List.mem_singleton] at mem
      rcases mem with mem | rfl
      · exact alike.made ▸ observed.below u (.inr (.inr (.inl mem)))
      · exact alike.made ▸ observed.below u (.inl current)
    · exact alike.made ▸ observed.below u (.inr (.inr (.inr (alike.deleted ▸ mem))))
  · intro u o holds
    exact nextObs ▸ observed.bound u o ((same u).symm.trans holds)
  · intro u v o first second
    exact observed.apart u v o ((same u).symm.trans first) ((same v).symm.trans second)
  · intro o mem
    have inside : o ∈ s.ends ++ (s.observation t).toList := ends ▸ mem
    rcases List.mem_append.mp inside with mem | mem
    · exact nextObs ▸ observed.endsBound o mem
    · exact nextObs ▸ observed.bound t o (Option.mem_toList.mp mem)
  · have single : (s.ends ++ (s.observation t).toList).Nodup := by
      refine observed.single.append (by cases s.observation t <;> simp) ?_
      intro o ended held
      exact observed.running t current o (Option.mem_toList.mp held) ended
    exact ends ▸ single
  · exact fun x mem => alike.made ▸ observed.startsMade x (starts ▸ mem)
  · intro u mine o holds
    have held : s.observation u = some o := (same u).symm.trans holds
    rcases candidate u mine with mem | ⟨-, blank⟩
    · rw [waits u mem] at held
      simp at held
    · rw [blank] at held
      simp at held
  · exact fun u mem _ => (same u).trans (waits u (alike.queue ▸ mem))
  · intro x mem
    refine .inl ?_
    have ended : x.2 ∈ s.ends ++ (s.observation t).toList ∧ x.1 ∈ s.targetsQue ++ [t] := by
      rcases observed.closed x (starts ▸ mem) with ⟨ended, place⟩ | ⟨mine, holds⟩
      · refine ⟨List.mem_append_left _ ended, ?_⟩
        rcases place with place | mine
        · exact List.mem_append_left _ place
        · simp [Option.some.inj (mine.symm.trans current)]
      · have is : x.1 = t := Option.some.inj (mine.symm.trans current)
        rw [is] at holds
        exact ⟨List.mem_append_right _ (Option.mem_toList.mpr holds), by simp [is]⟩
    exact ⟨ends ▸ ended.1, .inl (filed ▸ ended.2)⟩

def Handed (s : Executor τ) : Prop :=
  ∀ t ∈ s.currentTarget, t ∈ s.queue.targets → s.observation t = none

def Unstarted (s : Executor τ) : Prop := ∀ t ∈ s.currentTarget, ∀ x ∈ s.starts, x.1 ≠ t

theorem observed_dropStarted (observed : Observed s)
    (idle : ∀ t ∈ s.queue.targets, (s.target t).observationStart = false)
    (unstarted : s.autoLoop = false → s.started = true → s.Unstarted) :
    Observed s.dropStarted := by
  unfold dropStarted
  split
  · rename_i drops
    obtain ⟨off, started⟩ := drops
    refine observed_current observed (by intro t same; simp at same) (by simp) ?_
    intro t current
    refine ⟨fun mem => ?_, unstarted off started t current⟩
    have never := idle t mem
    simp only [Executor.started, current] at started
    rw [never] at started
    exact Bool.noConfusion started
  · exact observed

theorem observed_takeFront (observed : Observed s) (w : World τ δ)
    (handed : ∀ t ∈ s.files w, t ∈ s.queue.targets → s.observation t = none) :
    Observed (s.takeFront w) := by
  unfold takeFront
  cases entries : s.queue.entries with
  | nil => exact observed
  | cons front rest =>
    have queued : front.target ∈ s.queue.targets := by simp [ExecutorQueue.targets, entries]
    cases current : s.currentTarget with
    | none =>
      refine observed_current observed (front_candidate entries) ?_ (by simp [current])
      intro t same
      obtain rfl := Option.some.inj same
      exact observed.waiting _ queued (by simp [current])
    | some t =>
      simp only
      split
      · rename_i stays
        have goes_on := (endObservation_one s w t _).mp stays.1
        have unchanged : (s.endObservation w t (s.getTargetID front.target)).1 = s := by
          unfold endObservation
          rw [if_pos goes_on]
        rw [unchanged]
        exact observed
      · rename_i leaves
        rw [endObservation_one] at leaves
        have ends_ : ¬ (w.isContinues t = 1 ∧
            s.getTargetID front.target = s.getTargetID t) :=
          fun goes_on => leaves ⟨goes_on, goes_on.2⟩
        have filed : s.files w = some t := by
          simp only [files, entries, current]
          exact if_neg ends_
        refine observed_released observed w current (handed t filed) ?_ ends_
        intro u same
        exact .inl (Option.some.inj same ▸ queued)

theorem observed_dismiss (observed : Observed s) (handed : s.Handed) (w : World τ δ) :
    Observed (s.dismiss w) := by
  unfold dismiss
  cases current : s.currentTarget with
  | none => exact observed_clear observed
  | some t =>
    refine observed_clear (observed_released observed w current (handed t current) ?_
      (not_continues_none s w t))
    intro u same
    simp at same

theorem observed_setNow (observed : Observed s) (handed : s.Handed) {newTarget : Nat}
    (unheld : Unheld s newTarget) (blank : s.observation newTarget = none) (w : World τ δ) :
    Observed (s.setNow w newTarget) := by
  unfold setNow
  cases current : s.currentTarget with
  | none =>
    refine observed_clear (observed_current observed ?_ ?_ (by simp [current]))
    · exact fun t same => .inr (Option.some.inj same ▸ unheld)
    · exact fun t same => Option.some.inj same ▸ blank
  | some t =>
    refine observed_clear (observed_released observed w current (handed t current) ?_
      (not_continues_none s w t))
    exact fun u same => .inr (Option.some.inj same ▸ ⟨unheld, blank⟩)

variable [LinearOrder τ] [LinearOrder δ]

theorem prepared_idle {s p : Executor τ} {w : World τ δ} (is : s.prepared w = some p) :
    ∀ t ∈ p.queue.targets, (p.target t).observationStart = false := by
  have filtered : ∀ t ∈ (s.beforeChange w).queue.targets,
      (s.target t).observationStart = false := by
    intro t mem
    have inside := (ExecutorQueue.filter_targets (s.asks w) w.now
      (s.queue.setCurrentTarget s.currentTarget)).subset mem
    obtain ⟨e, survives, rfl⟩ := List.mem_map.mp inside
    exact (ExecutorQueue.mem_survivors (s.asks w) w.now survives).2
  unfold prepared at is
  split at is
  · obtain ⟨row, -, rfl⟩ := Option.map_eq_some_iff.mp is
    intro t mem
    by_cases new : t = (s.beforeChange w).made
    · simp [addFront, createTarget, new]
    · have mem := (List.mem_cons.mp mem).resolve_left new
      have idle : ((s.beforeChange w).target t).observationStart = false := filtered t mem
      simpa [addFront, createTarget, new] using idle
  · obtain rfl := Option.some.inj is
    exact filtered

theorem observed_prepared (observed : Observed s) (w : World τ δ) (p : Executor τ)
    (is : s.prepared w = some p) : Observed p := by
  have filtered : Observed (s.beforeChange w) :=
    observed_setQueue observed (beforeChange_spares observed.toHeld w)
  unfold prepared at is
  split at is
  · obtain ⟨row, -, rfl⟩ := Option.map_eq_some_iff.mp is
    exact observed_addFront (observed_created filtered row) (unheld_created filtered.toHeld row)
      (observation_new _ row)
  · obtain rfl := Option.some.inj is
    exact filtered

/-- What switchTarget finds when it lets the current target go: it has no observation while the
queue still holds it, and it is not dropped, as the auto loop is off, after it was started. -/
def SwitchCloses (s : Executor τ) (w : World τ δ) : Prop :=
  (s.switch = .dismiss → s.Handed) ∧
    (s.switch = .doSwitch → ∀ p ∈ s.prepared w,
      (p.autoLoop = false → p.started = true → p.Unstarted) ∧
        ∀ t ∈ p.dropStarted.files w, t ∈ p.queue.targets → p.observation t = none)

theorem observed_switchTarget (observed : Observed s) (w : World τ δ)
    (closes : s.SwitchCloses w) : Observed (s.switchTarget w) := by
  unfold switchTarget
  cases way : s.switch with
  | clear => exact observed_clear observed
  | dismiss =>
    have alike : Alike s { s with execEnd := false } := ⟨rfl, rfl, rfl, rfl, rfl⟩
    exact observed_dismiss (observed.transport alike (fun _ => rfl) rfl rfl rfl)
      (closes.1 way) w
  | doSwitch =>
    simp only [doSwitch_eq]
    cases ready : s.prepared w with
    | none => exact observed_setQueue observed (beforeChange_spares observed.toHeld w)
    | some p =>
      obtain ⟨unstarted, handed⟩ := closes.2 way p ready
      have dropped := observed_dropStarted (observed_prepared observed w p ready)
        (prepared_idle ready) unstarted
      have same : p.dropStarted.queue = p.queue ∧ p.dropStarted.target = p.target := by
        unfold dropStarted
        split <;> exact ⟨rfl, rfl⟩
      refine observed_takeFront (dropped.transport (resetAutoLoop_alike _) (fun _ => rfl) rfl rfl
        rfl) w (fun t files mem => ?_)
      have none := handed t files (same.1 ▸ mem)
      simp only [observation] at none ⊢
      rw [← none, ← same.2]
      rfl

omit [LinearOrder τ] [LinearOrder δ] in
theorem observed_endObservation (observed : Observed s) (w : World τ δ) {t : Nat}
    (blank : s.observation t = none) : Observed (s.endObservation w t (-1)).1 := by
  obtain ⟨starts, nextObs⟩ := endObservation_books s w t (-1)
  have ends := endObservation_ends s w t (not_continues_none s w t)
  rw [blank, Option.toList_none, List.append_nil] at ends
  exact observed.transport (endObservation_alike s w t (-1))
    (endObservation_observation s w t (-1)) nextObs starts ends

def closes : Event τ → Bool
  | .slewToTarget closes _ => closes
  | _ => false

def Closes (s : Executor τ) (we : World τ δ × Event τ) : Prop :=
  Allows (fun p => p.SwitchCloses we.1) Handed (s.call we.1 we.2) ∧ s.IndexFree we.2 ∧
    (closes we.2 = true → ∀ t ∈ s.currentTarget, s.observation t = none)

omit [LinearOrder τ] [LinearOrder δ] in
theorem observed_parts (w : World τ δ) : Parts (Observed (τ := τ))
    (fun s e => s.IndexFree e ∧
      (closes e = true → ∀ t ∈ s.currentTarget, s.observation t = none)) w where
  flags observed same := observed.transport
    ⟨same.made, same.deleted, same.queue, same.currentTarget, same.targetsQue⟩
    (fun u => by simp only [observation, same.target]) same.nextObs same.starts same.ends
  cleared := observed_clear
  queued row t_start t_end observed := observed_addTarget (observed_created observed row)
    (unheld_created observed.toHeld row) (observation_new _ row) t_start t_end
  replaced row observed := observed_addTarget (observed_clear (observed_created observed row))
    (unheld_clear (held_created observed.toHeld row) (unheld_created observed.toHeld row))
    (observation_new _ row) none none
  discarded row observed := observed_deleted (observed_created observed row)
    (unheld_created observed.toHeld row) (observation_new _ row)
  begun observed current := observed_startObservation observed current
  removed index observed free := observed_setQueue observed (removed_spares observed.toHeld index free.1)
  renewed inserted observed current := observed_newObsSlew observed w current inserted
  slewed inserted observed current := observed_startSlew observed current inserted
  closed inserted observed free current := observed_startSlew
    (observed_endObservation observed w (free.2 rfl _ current))
    ((endObservation_alike _ w _ _).currentTarget.trans current) inserted

theorem step_observed (observed : Observed s) (we : World τ δ × Event τ) (closes_ : s.Closes we) :
    Observed (s.step we) := by
  obtain ⟨allows, own⟩ := closes_
  exact step_keeps (observed_parts we.1) (fun observed free => observed_switchTarget observed we.1 free)
    (fun row observed free => observed_setNow (observed_created observed row) free
      (unheld_created observed.toHeld row) (observation_new _ row) we.1) observed we.2 own allows

omit [LinearOrder τ] [LinearOrder δ] in
theorem fresh_observed (auto ignore : Bool) : Observed (fresh (τ := τ) auto ignore) := by
  refine { toHeld := (fresh_owned auto ignore).toHeld, bound := ?_, apart := ?_, endsBound := ?_,
           single := List.nodup_nil, startsMade := ?_, running := ?_, waiting := ?_, closed := ?_ }
  all_goals simp [fresh, observation, blankTarget, ExecutorQueue.targets]

/-- The target of each started observation is the current one, or it was processed and the
observation is ended; an observation that is not the one the current target holds is ended; and
none is ended twice. -/
def AllClosed (s : Executor τ) : Prop :=
  (∀ x ∈ s.starts, s.currentTarget = some x.1 ∨ (x.2 ∈ s.ends ∧ x.1 ∈ s.targetsQue)) ∧
    (∀ x ∈ s.starts, x.2 ∈ s.ends ∨
      (s.currentTarget = some x.1 ∧ s.observation x.1 = some x.2)) ∧ s.ends.Nodup

/-- In runs that drop no started target, and end no observation that may be ended again, every
started observation is ended once. -/
theorem observations_closed (auto ignore : Bool) (es : List (World τ δ × Event τ))
    (closes_ : Guarded step Closes (fresh auto ignore) es) :
    AllClosed (run step (fresh auto ignore) es) := by
  have observed := run_invariant step Closes Observed
    (fun s e observed => step_observed observed e) _ es (fresh_observed auto ignore) closes_
  refine ⟨fun x mem => ?_, fun x mem => ?_, observed.single⟩
  · rcases observed.closed x mem with ⟨ended, filed | current⟩ | ⟨current, -⟩
    · exact .inr ⟨ended, filed⟩
    · exact .inl current
    · exact .inl current
  · exact (observed.closed x mem).imp_left And.left

omit [LinearOrder τ] [LinearOrder δ] in
instance (s : Executor τ) : Decidable s.Handed :=
  inferInstanceAs (Decidable (∀ t ∈ s.currentTarget, _ → _))

omit [LinearOrder τ] [LinearOrder δ] in
instance (s : Executor τ) : Decidable s.Unstarted :=
  inferInstanceAs (Decidable (∀ t ∈ s.currentTarget, ∀ x ∈ s.starts, x.1 ≠ t))

instance (s : Executor τ) (w : World τ δ) : Decidable (s.SwitchCloses w) :=
  inferInstanceAs (Decidable (_ ∧ _))

instance (s : Executor τ) (we : World τ δ × Event τ) : Decidable (s.Closes we) :=
  inferInstanceAs (Decidable (_ ∧ _))

theorem observations_closed_sample : AllClosed (run step (fresh true false)
    (sampleNight ++ [(sampleWorld 5 0 none, .scriptEnded)])) :=
  observations_closed true false _ (by decide)

/-- Without the auto loop the target is dropped when its script ends; its observation stays
open. -/
theorem dropped_stays_open : ¬ AllClosed (run step (fresh false false)
    (sampleNight ++ [(sampleWorld 5 0 none, .scriptEnded)])) := by
  intro closed
  have started := closed.1 (0, 1) (by decide)
  exact absurd started (by decide)

end Executor

end Rts2.Plan
