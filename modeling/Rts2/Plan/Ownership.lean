import Rts2.Plan.Steps
import Rts2.Plan.Filter

/-! Who holds the targets: the current one, the entries of the queue and targetsQue. The current
target stays in the queue until a filter finds it started. -/
namespace Rts2.Plan

open Lib Kernel QueuedTarget

section

variable {T τ δ : Type} [DecidableEq T] [LinearOrder τ]

namespace ExecutorQueue

variable (w : Targets T τ δ) (now : τ)

/-- Between two queues the targets of some of the entries were deleted, but not the one the queue
was told to spare. -/
def Drops (es : List (QueuedTarget T τ)) (q p : ExecutorQueue T τ) : Prop :=
  ∃ gone, p.deleted = q.deleted ++ gone ∧ gone.Sublist (es.map (·.target)) ∧
    ∀ c, q.currentTarget = some c →
      c ∉ gone ∧ (p.currentTarget = some c ∨ c ∈ es.map (·.target))

omit [DecidableEq T] [LinearOrder τ] in
theorem Drops.refl (q : ExecutorQueue T τ) : Drops [] q q :=
  ⟨[], by simp, by simp, fun c same => ⟨by simp, .inl same⟩⟩

omit [DecidableEq T] [LinearOrder τ] in
theorem Drops.trans {es fs : List (QueuedTarget T τ)} {q p r : ExecutorQueue T τ}
    (first : Drops es q p) (second : Drops fs p r) (once : ((es ++ fs).map (·.target)).Nodup) :
    Drops (es ++ fs) q r := by
  obtain ⟨gone, deleted, inside, spares⟩ := first
  obtain ⟨more, deleted', inside', spares'⟩ := second
  rw [List.map_append] at once
  refine ⟨gone ++ more, by rw [deleted', deleted, List.append_assoc], ?_, ?_⟩
  · rw [List.map_append]
    exact inside.append inside'
  rw [List.map_append]
  intro c same
  obtain ⟨kept, later⟩ := spares c same
  rcases later with still | taken
  · obtain ⟨kept', later'⟩ := spares' c still
    refine ⟨by simp [kept, kept'], ?_⟩
    exact later'.imp_right (List.mem_append_right _)
  · have other : c ∉ more := fun mem =>
      List.disjoint_of_nodup_append once taken (inside'.subset mem)
    exact ⟨by simp [kept, other], .inr (List.mem_append_left _ taken)⟩

omit [LinearOrder τ] in
theorem removeEntry_drops (q : ExecutorQueue T τ) (e : QueuedTarget T τ) (reason : Removed) :
    Drops [e] q (q.removeEntry w e reason) := by
  by_cases mine : q.currentTarget = some e.target
  · refine ⟨[], by simp [removeEntry, mine], by simp, ?_⟩
    intro c same
    rw [mine, Option.some.injEq] at same
    exact ⟨by simp, .inr (by simp [same])⟩
  · refine ⟨[e.target], by simp [removeEntry, mine], by simp, ?_⟩
    intro c same
    have other : c ≠ e.target := fun is => mine (is ▸ same)
    exact ⟨by simp [other], .inl (by simp [removeEntry, same, other])⟩

omit [LinearOrder τ] in
theorem removeAll_drops (reason : Removed) (es : List (QueuedTarget T τ)) (q : ExecutorQueue T τ)
    (once : (es.map (·.target)).Nodup) : Drops es q (q.removeAll w reason es) := by
  induction es generalizing q with
  | nil => exact Drops.refl q
  | cons e es ih =>
    have rest := ih (q.removeEntry w e reason) (List.nodup_cons.mp once).2
    exact (removeEntry_drops w q e reason).trans rest once

theorem removeExpired_drops (kept rest : List (QueuedTarget T τ)) (q : ExecutorQueue T τ)
    (once : (rest.map (·.target)).Nodup) :
    Drops (rest.filter (fun e => !e.remains w now)) q (q.removeExpired w now kept rest) := by
  induction rest generalizing q kept with
  | nil => exact Drops.refl q
  | cons e rest ih =>
    have fewer : ((e :: rest.filter (fun e => !e.remains w now)).map (·.target)).Nodup :=
      once.sublist ((List.filter_sublist.cons_cons e).map _)
    have later := (List.nodup_cons.mp once).2
    simp only [removeExpired]
    cases ended : e.ended now with
    | true =>
      rw [List.filter_cons_of_pos (by simp [remains, ended])]
      exact (removeEntry_drops w q e _).trans (ih kept _ later) fewer
    | false =>
      cases started : w.observationStarted e.target with
      | true =>
        rw [List.filter_cons_of_pos (by simp [remains, started])]
        exact (removeEntry_drops w q e _).trans (ih kept _ later) fewer
      | false =>
        rw [List.filter_cons_of_neg (by simp [remains, ended, started])]
        exact ih (kept ++ [e]) q later

def dropped (w : Targets T τ δ) (now : τ) (q : ExecutorQueue T τ) : List (QueuedTarget T τ) :=
  beforeLast (due now) q.entries ++
    (sinceLast (due now) q.entries).filter (fun e => !e.remains w now)

omit [DecidableEq T] in
theorem dropped_perm (q : ExecutorQueue T τ) :
    (q.survivors w now ++ q.dropped w now).Perm q.entries := by
  have parts := List.filter_append_perm (remains w now) (sinceLast (due now) q.entries)
  have whole := beforeLast_append_sinceLast (p := due now) q.entries
  have sorted : (q.survivors w now ++ q.dropped w now).Perm (beforeLast (due now) q.entries ++
      (q.survivors w now ++ (sinceLast (due now) q.entries).filter (fun e => !e.remains w now))) := by
    rw [dropped, ← Multiset.coe_eq_coe]
    simp only [← Multiset.coe_add]
    abel
  exact whole ▸ sorted.trans (List.Perm.append_left _ parts)

variable [LinearOrder δ]

theorem filter_drops (q : ExecutorQueue T τ) (once : q.targets.Nodup) :
    Drops (q.dropped w now) q (q.filter w now).1 := by
  have all : ((q.dropped w now).map (·.target)).Nodup := by
    have perm := (dropped_perm w now q).map (·.target)
    rw [List.map_append] at perm
    exact (List.nodup_append.mp (perm.nodup_iff.mpr once)).2.1
  have parts : ((beforeLast (due now) q.entries ++ sinceLast (due now) q.entries).map
      (·.target)).Nodup := by
    rw [beforeLast_append_sinceLast]
    exact once
  rw [List.map_append, List.nodup_append] at parts
  have before := removeBefore_eq w now [] q.entries q rfl
  rw [List.nil_append] at before
  have first : Drops (beforeLast (due now) q.entries) q (q.removeBefore w now [] q.entries) := by
    rw [before]
    exact removeAll_drops w .nextNeeded (beforeLast (due now) q.entries) q parts.1
  have second := removeExpired_drops w now [] (sinceLast (due now) q.entries)
    (q.removeBefore w now [] q.entries) parts.2.1
  have both := first.trans second all
  obtain ⟨-, left⟩ := filter_parts w now q
  rw [left]
  simp only [filterExpired, before] at both ⊢
  exact both

theorem filter_targets (q : ExecutorQueue T τ) :
    (q.filter w now).1.targets.Perm ((q.survivors w now).map (·.target)) := by
  have plains := (filter_plain w now q).map (·.target)
  rw [List.map_map, List.map_map] at plains
  exact plains

omit [LinearOrder τ] [LinearOrder δ] [DecidableEq T] in
/-- A method of the queue only drops entries; it deletes targets of dropped entries, none of them
the one that is held elsewhere. -/
def Spares (l : List T) (held : Option T) (p : ExecutorQueue T τ) : Prop :=
  (p.targets ++ p.deleted).Subperm l ∧ ∀ t, held = some t → t ∉ p.deleted

theorem filter_spares {q : ExecutorQueue T τ} (once : q.targets.Nodup) (clean : q.deleted = []) :
    Spares q.targets q.currentTarget (q.filter w now).1 := by
  obtain ⟨gone, deleted, inside, spares⟩ := filter_drops w now q once
  rw [clean, List.nil_append] at deleted
  have all := (dropped_perm w now q).map (·.target)
  rw [List.map_append] at all
  constructor
  · rw [deleted]
    exact (((filter_targets w now q).append_right gone).subperm.trans
      (inside.append_left _).subperm).trans all.subperm
  · intro t same
    rw [deleted]
    exact (spares t same).1

omit [LinearOrder τ] [LinearOrder δ] in
theorem clearNext_spares {q : ExecutorQueue T τ} (clean : q.deleted = []) :
    Spares q.targets q.currentTarget q.clearNext := by
  constructor
  · simp only [clearNext, clean, targets, List.map_nil, List.nil_append]
    exact List.filter_sublist.subperm
  · intro t same
    simp [clearNext, clean, same]

omit [LinearOrder τ] [LinearOrder δ] in
theorem removeIndex_spares {q : ExecutorQueue T τ} (clean : q.deleted = []) (index : Int) :
    Spares q.targets q.currentTarget (q.removeIndex index) := by
  unfold removeIndex
  cases found : q.entries[q.findIndex index]? with
  | none => exact ⟨by simp [clean, List.Subperm.refl], by simp [clean]⟩
  | some e =>
    have taken : (q.entries.eraseIdx (q.findIndex index) ++ [e]).Perm q.entries := by
      obtain ⟨inside, is⟩ := List.getElem?_eq_some_iff.mp found
      subst is
      exact (List.perm_append_singleton _ _).trans (List.getElem_cons_eraseIdx_perm inside)
    have targets := (taken.map (·.target)).subperm
    rw [List.map_append] at targets
    by_cases mine : q.currentTarget = some e.target
    · refine ⟨?_, by simp [clean, mine]⟩
      simp only [clean, mine, if_true, List.append_nil]
      exact (List.sublist_append_left _ _).subperm.trans targets
    · refine ⟨?_, ?_⟩
      · simp only [clean, mine, if_false, List.nil_append]
        exact targets
      intro t same
      have other : t ≠ e.target := fun is => mine (is ▸ same)
      simp [clean, mine, other]

end ExecutorQueue

end

variable {τ δ : Type}

structure Held (s : Executor τ) : Prop where
  below : ∀ t, s.currentTarget = some t ∨ t ∈ s.queue.targets ∨ t ∈ s.targetsQue ∨ t ∈ s.deleted →
    t < s.made
  once : s.queue.targets.Nodup
  clean : s.queue.deleted = []

/-- What is held is not deleted, a target that was processed is not held elsewhere, and none is
deleted twice. -/
structure Owned (s : Executor τ) : Prop extends Held s where
  alive : ∀ t, s.currentTarget = some t ∨ t ∈ s.queue.targets → t ∉ s.deleted
  apart : ∀ t ∈ s.targetsQue, s.currentTarget ≠ some t ∧ t ∉ s.queue.targets ∧ t ∉ s.deleted
  single : s.deleted.Nodup

structure Unheld (s : Executor τ) (t : Nat) : Prop where
  made : t < s.made
  current : s.currentTarget ≠ some t
  queue : t ∉ s.queue.targets
  filed : t ∉ s.targetsQue
  alive : t ∉ s.deleted

structure Alike (s p : Executor τ) : Prop where
  made : p.made = s.made
  deleted : p.deleted = s.deleted
  queue : p.queue = s.queue
  currentTarget : p.currentTarget = s.currentTarget
  targetsQue : p.targetsQue = s.targetsQue

variable {s p : Executor τ}

theorem Alike.held (alike : Alike s p) (held : Held s) : Held p := by
  obtain ⟨made, deleted, queue, current, filed⟩ := alike
  constructor
  · rw [made, deleted, queue, current, filed]
    exact held.below
  · rw [queue]
    exact held.once
  · rw [queue]
    exact held.clean

theorem Alike.owned (alike : Alike s p) (owned : Owned s) : Owned p := by
  have held := alike.held owned.toHeld
  obtain ⟨made, deleted, queue, current, filed⟩ := alike
  refine { toHeld := held, alive := ?_, apart := ?_, single := ?_ }
  · rw [deleted, queue, current]
    exact owned.alive
  · rw [deleted, queue, current, filed]
    exact owned.apart
  · rw [deleted]
    exact owned.single

theorem Alike.trans {r : Executor τ} (first : Alike s p) (second : Alike p r) : Alike s r :=
  ⟨second.made.trans first.made, second.deleted.trans first.deleted,
    second.queue.trans first.queue, second.currentTarget.trans first.currentTarget,
    second.targetsQue.trans first.targetsQue⟩

namespace Executor

theorem endObservation_alike (s : Executor τ) (w : World τ δ) (t : Nat) (next : Int) :
    Alike s (s.endObservation w t next).1 := by
  unfold endObservation
  split
  · exact ⟨rfl, rfl, rfl, rfl, rfl⟩
  · cases (s.target t).observation with
    | none => exact ⟨rfl, rfl, rfl, rfl, rfl⟩
    | some o => exact ⟨rfl, rfl, rfl, rfl, rfl⟩

theorem startSlew_alike (s : Executor τ) (t : Nat) (inserted : Bool) :
    Alike s (s.startSlew t inserted) := by
  unfold startSlew
  cases (s.target t).observation with
  | some o => exact ⟨rfl, rfl, rfl, rfl, rfl⟩
  | none => cases inserted <;> exact ⟨rfl, rfl, rfl, rfl, rfl⟩

theorem startObservation_alike (s : Executor τ) (t : Nat) : Alike s (s.startObservation t) := by
  unfold startObservation
  split
  · exact ⟨rfl, rfl, rfl, rfl, rfl⟩
  · cases (s.target t).observation with
    | none => exact ⟨rfl, rfl, rfl, rfl, rfl⟩
    | some o => exact ⟨rfl, rfl, rfl, rfl, rfl⟩

theorem newObsSlew_alike (s : Executor τ) (w : World τ δ) (t : Nat) (inserted : Bool) :
    Alike s (s.newObsSlew w t inserted) := by
  have ended := endObservation_alike s w t (-1)
  have blank : Alike (s.endObservation w t (-1)).1 ((s.endObservation w t (-1)).1.setTarget t
      { (s.endObservation w t (-1)).1.target t with observation := none }) :=
    ⟨rfl, rfl, rfl, rfl, rfl⟩
  exact (ended.trans blank).trans (startSlew_alike _ t inserted)

theorem nodup_of_subperm {l m : List Nat} (fewer : l.Subperm m) (once : m.Nodup) : l.Nodup := by
  obtain ⟨_, perm, inside⟩ := fewer
  exact perm.nodup_iff.mp (once.sublist inside)

theorem held_setQueue (held : Held s) {q : ExecutorQueue Nat τ}
    (fewer : (q.targets ++ q.deleted).Subperm s.queue.targets) : Held (s.setQueue q) := by
  have inside : ∀ t, t ∈ q.targets ∨ t ∈ q.deleted → t ∈ s.queue.targets := fun t mem =>
    fewer.subset (List.mem_append.mpr mem)
  constructor
  · rintro t (same | mem | mem | mem)
    · exact held.below t (.inl same)
    · exact held.below t (.inr (.inl (inside t (.inl mem))))
    · exact held.below t (.inr (.inr (.inl mem)))
    · rcases List.mem_append.mp mem with mem | mem
      · exact held.below t (.inr (.inr (.inr mem)))
      · exact held.below t (.inr (.inl (inside t (.inr mem))))
  · have both := nodup_of_subperm fewer held.once
    exact (List.nodup_append.mp both).1
  · rfl

theorem owned_setQueue (owned : Owned s) {q : ExecutorQueue Nat τ}
    (spares : ExecutorQueue.Spares s.queue.targets s.currentTarget q) : Owned (s.setQueue q) := by
  obtain ⟨fewer, spares⟩ := spares
  have inside : ∀ t, t ∈ q.targets ∨ t ∈ q.deleted → t ∈ s.queue.targets := fun t mem =>
    fewer.subset (List.mem_append.mpr mem)
  have both := nodup_of_subperm fewer owned.once
  have apart := List.disjoint_of_nodup_append both
  refine { toHeld := held_setQueue owned.toHeld fewer, alive := ?_, apart := ?_, single := ?_ }
  · rintro t (same | mem) gone
    · rcases List.mem_append.mp gone with gone | gone
      · exact owned.alive t (.inl same) gone
      · exact spares t same gone
    · rcases List.mem_append.mp gone with gone | gone
      · exact owned.alive t (.inr (inside t (.inl mem))) gone
      · exact apart mem gone
  · intro t mem
    obtain ⟨current, queue, alive⟩ := owned.apart t mem
    refine ⟨current, fun mem => queue (inside t (.inl mem)), fun gone => ?_⟩
    rcases List.mem_append.mp gone with gone | gone
    · exact alive gone
    · exact queue (inside t (.inr gone))
  · refine owned.single.append (List.nodup_append.mp both).2.1 ?_
    intro t old new
    exact owned.alive t (.inr (inside t (.inr new))) old

theorem clear_spares (held : Held s) : ExecutorQueue.Spares s.queue.targets s.currentTarget
    (s.queue.setCurrentTarget s.currentTarget).clearNext :=
  ExecutorQueue.clearNext_spares (q := s.queue.setCurrentTarget s.currentTarget) held.clean

theorem clear_alike (s : Executor τ) :
    Alike (s.setQueue (s.queue.setCurrentTarget s.currentTarget).clearNext) s.clearNextTargets :=
  ⟨rfl, rfl, rfl, rfl, rfl⟩

theorem owned_clear (owned : Owned s) : Owned s.clearNextTargets :=
  (clear_alike s).owned (owned_setQueue owned (clear_spares owned.toHeld))

theorem unheld_created (held : Held s) (row : Nat × String) :
    Unheld (s.createTarget row) s.made := by
  have new : ∀ t, t = s.made → ¬ t < s.made := fun t same => same ▸ Nat.lt_irrefl _
  constructor
  · exact Nat.lt_succ_self s.made
  · exact fun mem => new _ rfl (held.below _ (.inl mem))
  · exact fun mem => new _ rfl (held.below _ (.inr (.inl mem)))
  · exact fun mem => new _ rfl (held.below _ (.inr (.inr (.inl mem))))
  · exact fun mem => new _ rfl (held.below _ (.inr (.inr (.inr mem))))

theorem held_created (held : Held s) (row : Nat × String) : Held (s.createTarget row) :=
  ⟨fun t mem => Nat.lt_succ_of_lt (held.below t mem), held.once, held.clean⟩

theorem owned_created (owned : Owned s) (row : Nat × String) : Owned (s.createTarget row) :=
  { toHeld := held_created owned.toHeld row, alive := owned.alive, apart := owned.apart,
    single := owned.single }

theorem held_deleted (held : Held s) {t : Nat} (made : t < s.made) : Held (s.deleteTarget t) := by
  refine ⟨?_, held.once, held.clean⟩
  rintro u (same | mem | mem | mem)
  · exact held.below u (.inl same)
  · exact held.below u (.inr (.inl mem))
  · exact held.below u (.inr (.inr (.inl mem)))
  · rcases List.mem_append.mp mem with mem | mem
    · exact held.below u (.inr (.inr (.inr mem)))
    · exact List.mem_singleton.mp mem ▸ made

theorem owned_deleted (owned : Owned s) {t : Nat} (unheld : Unheld s t) :
    Owned (s.deleteTarget t) := by
  refine { toHeld := held_deleted owned.toHeld unheld.made, alive := ?_, apart := ?_, single := ?_ }
  · intro u mem gone
    rcases List.mem_append.mp gone with gone | gone
    · exact owned.alive u mem gone
    · obtain rfl := List.mem_singleton.mp gone
      exact mem.elim unheld.current unheld.queue
  · intro u mem
    obtain ⟨current, queue, alive⟩ := owned.apart u mem
    refine ⟨current, queue, fun gone => ?_⟩
    rcases List.mem_append.mp gone with gone | gone
    · exact alive gone
    · exact unheld.filed (List.mem_singleton.mp gone ▸ mem)
  · refine owned.single.append (List.nodup_singleton t) ?_
    intro u old new
    exact unheld.alive (List.mem_singleton.mp new ▸ old)

theorem held_queued (held : Held s) {t : Nat} (unheld : Unheld s t) {q : ExecutorQueue Nat τ}
    (more : q.targets.Perm (t :: s.queue.targets)) (clean : q.deleted = []) (qid : Nat) :
    Held { s with queue := q, static_qid := qid } := by
  refine ⟨?_, ?_, clean⟩
  · rintro u (same | mem | mem | mem)
    · exact held.below u (.inl same)
    · rcases List.mem_cons.mp (more.subset mem) with rfl | mem
      · exact unheld.made
      · exact held.below u (.inr (.inl mem))
    · exact held.below u (.inr (.inr (.inl mem)))
    · exact held.below u (.inr (.inr (.inr mem)))
  · exact more.nodup_iff.mpr (List.nodup_cons.mpr ⟨unheld.queue, held.once⟩)

theorem owned_queued (owned : Owned s) {t : Nat} (unheld : Unheld s t) {q : ExecutorQueue Nat τ}
    (more : q.targets.Perm (t :: s.queue.targets)) (clean : q.deleted = []) (qid : Nat) :
    Owned { s with queue := q, static_qid := qid } := by
  refine { toHeld := held_queued owned.toHeld unheld more clean qid, alive := ?_, apart := ?_,
           single := owned.single }
  · rintro u (same | mem) gone
    · exact owned.alive u (.inl same) gone
    · rcases List.mem_cons.mp (more.subset mem) with rfl | mem
      · exact unheld.alive gone
      · exact owned.alive u (.inr mem) gone
  · intro u mem
    obtain ⟨current, queue, alive⟩ := owned.apart u mem
    refine ⟨current, fun inside => ?_, alive⟩
    rcases List.mem_cons.mp (more.subset inside) with rfl | inside
    · exact unheld.filed mem
    · exact queue inside

theorem addTarget_perm (s : Executor τ) (t : Nat) (t_start t_end : Option τ) :
    (s.addTarget t t_start t_end).queue.targets.Perm (t :: s.queue.targets) := by
  simp only [addTarget, ExecutorQueue.addTarget, ExecutorQueue.targets, List.map_append]
  exact List.perm_append_singleton t _

theorem held_addTarget (held : Held s) {t : Nat} (unheld : Unheld s t) (t_start t_end : Option τ) :
    Held (s.addTarget t t_start t_end) :=
  held_queued held unheld (addTarget_perm s t t_start t_end) held.clean _

theorem owned_addTarget (owned : Owned s) {t : Nat} (unheld : Unheld s t)
    (t_start t_end : Option τ) : Owned (s.addTarget t t_start t_end) :=
  owned_queued owned unheld (addTarget_perm s t t_start t_end) owned.clean _

theorem addFront_perm (s : Executor τ) (t : Nat) :
    (s.addFront t).queue.targets.Perm (t :: s.queue.targets) := List.Perm.refl _

theorem held_addFront (held : Held s) {t : Nat} (unheld : Unheld s t) : Held (s.addFront t) :=
  held_queued held unheld (addFront_perm s t) held.clean _

theorem owned_addFront (owned : Owned s) {t : Nat} (unheld : Unheld s t) :
    Owned (s.addFront t) :=
  owned_queued owned unheld (addFront_perm s t) owned.clean _

def Candidate (s : Executor τ) (next : Option Nat) : Prop :=
  ∀ t, next = some t → t ∈ s.queue.targets ∨ Unheld s t

theorem owned_current (owned : Owned s) {next : Option Nat} (candidate : Candidate s next) :
    Owned { s with currentTarget := next } := by
  refine { below := ?_, once := owned.once, clean := owned.clean, alive := ?_, apart := ?_,
           single := owned.single }
  · rintro t (same | mem)
    · rcases candidate t same with mem | unheld
      · exact owned.below t (.inr (.inl mem))
      · exact unheld.made
    · exact owned.below t (.inr mem)
  · rintro t (same | mem)
    · rcases candidate t same with mem | unheld
      · exact owned.alive t (.inr mem)
      · exact unheld.alive
    · exact owned.alive t (.inr mem)
  · intro t mem
    obtain ⟨-, queue, alive⟩ := owned.apart t mem
    refine ⟨fun same => ?_, queue, alive⟩
    rcases candidate t same with inside | unheld
    · exact queue inside
    · exact unheld.filed mem

theorem owned_processed (owned : Owned s) {t : Nat} (current : s.currentTarget = some t)
    (free : t ∉ s.queue.targets) {next : Option Nat} (candidate : Candidate s next)
    (other : next ≠ some t) : Owned { s.processTarget t with currentTarget := next } := by
  have taken := owned_current owned candidate
  refine { below := ?_, once := owned.once, clean := owned.clean, alive := taken.alive,
           apart := ?_, single := owned.single }
  · rintro u (same | mem | mem | mem)
    · exact taken.below u (.inl same)
    · exact taken.below u (.inr (.inl mem))
    · rcases List.mem_append.mp mem with mem | mem
      · exact taken.below u (.inr (.inr (.inl mem)))
      · exact List.mem_singleton.mp mem ▸ owned.below t (.inl current)
    · exact taken.below u (.inr (.inr (.inr mem)))
  · intro u mem
    rcases List.mem_append.mp mem with mem | mem
    · exact taken.apart u mem
    · obtain rfl := List.mem_singleton.mp mem
      exact ⟨other, free, owned.alive u (.inl current)⟩

theorem Candidate.alike (alike : Alike s p) {next : Option Nat} (candidate : Candidate s next) :
    Candidate p next := by
  obtain ⟨made, deleted, queue, current, filed⟩ := alike
  intro t same
  rcases candidate t same with mem | ⟨below, other, outside, unfiled, alive⟩
  · exact .inl (queue ▸ mem)
  · exact .inr ⟨made ▸ below, current ▸ other, queue ▸ outside, filed ▸ unfiled, deleted ▸ alive⟩

theorem owned_released (owned : Owned s) {t : Nat} (current : s.currentTarget = some t)
    (free : t ∉ s.queue.targets) {next : Option Nat} (candidate : Candidate s next)
    (other : next ≠ some t) (w : World τ δ) (next_id : Int) :
    Owned { (s.endObservation w t next_id).1.processTarget t with currentTarget := next } := by
  have alike := endObservation_alike s w t next_id
  exact owned_processed (alike.owned owned) (alike.currentTarget.trans current)
    (alike.queue ▸ free) (candidate.alike alike) other

def files (s : Executor τ) (w : World τ δ) : Option Nat :=
  match s.queue.entries, s.currentTarget with
  | front :: _, some t =>
    if w.isContinues t = 1 ∧ s.getTargetID front.target = s.getTargetID t then none else some t
  | _, _ => none

theorem resetAutoLoop_alike (s : Executor τ) : Alike s s.resetAutoLoop := ⟨rfl, rfl, rfl, rfl, rfl⟩

theorem front_candidate {front : QueuedTarget Nat τ} {rest : List (QueuedTarget Nat τ)}
    (entries : s.queue.entries = front :: rest) : Candidate s (some front.target) := by
  intro t same
  obtain rfl := Option.some.inj same
  exact .inl (by simp [ExecutorQueue.targets, entries])

theorem owned_dropStarted (owned : Owned s) : Owned s.dropStarted := by
  unfold dropStarted
  split
  · exact owned_current owned (by intro t same; simp at same)
  · exact owned

theorem endObservation_one (s : Executor τ) (w : World τ δ) (t : Nat) (next : Int) :
    (s.endObservation w t next).2 = 1 ↔ w.isContinues t = 1 ∧ next = s.getTargetID t := by
  unfold endObservation
  split
  · rename_i goes_on
    exact iff_of_true rfl goes_on
  · rename_i ends_
    cases (s.target t).observation with
    | none => exact iff_of_false (by simp) ends_
    | some o => exact iff_of_false (by simp) ends_

theorem owned_takeFront (owned : Owned s) (w : World τ δ)
    (free : ∀ t, s.files w = some t → t ∉ s.queue.targets) : Owned (s.takeFront w) := by
  unfold takeFront
  cases entries : s.queue.entries with
  | nil => exact owned
  | cons front rest =>
    have candidate := front_candidate entries
    cases current : s.currentTarget with
    | none => exact owned_current owned candidate
    | some t =>
      have alike := endObservation_alike s w t (s.getTargetID front.target)
      simp only
      split
      · exact alike.owned owned
      · rename_i leaves
        rw [endObservation_one] at leaves
        have filed : s.files w = some t := by
          simp only [files, entries, current]
          exact if_neg (fun goes_on => leaves ⟨goes_on, goes_on.2⟩)
        have out := free t filed
        have other : some front.target ≠ some t := fun same =>
          out (Option.some.inj same ▸ by simp [ExecutorQueue.targets, entries])
        exact owned_released owned current out candidate other w _

def Free (s : Executor τ) : Prop := ∀ t ∈ s.currentTarget, t ∉ s.queue.targets

theorem owned_dismiss (owned : Owned s) (free : s.Free) (w : World τ δ) :
    Owned (s.dismiss w) := by
  unfold dismiss
  cases current : s.currentTarget with
  | none => exact owned_clear owned
  | some t =>
    exact owned_clear (owned_released owned current (free t current)
      (by intro u same; simp at same) (by simp) w (-1))

theorem owned_setNow (owned : Owned s) (free : s.Free) {newTarget : Nat}
    (unheld : Unheld s newTarget) (w : World τ δ) : Owned (s.setNow w newTarget) := by
  have candidate : Candidate s (some newTarget) := fun t same =>
    .inr (Option.some.inj same ▸ unheld)
  unfold setNow
  cases current : s.currentTarget with
  | none => exact owned_clear (owned_current owned candidate)
  | some t =>
    have other : some newTarget ≠ some t := fun same => unheld.current (current.trans same.symm)
    exact owned_clear (owned_released owned current (free t current) candidate other w (-1))

variable [LinearOrder τ] [LinearOrder δ]

theorem beforeChange_spares (held : Held s) (w : World τ δ) :
    ExecutorQueue.Spares s.queue.targets s.currentTarget
      ((s.queue.setCurrentTarget s.currentTarget).beforeChange (s.asks w) w.now) :=
  ExecutorQueue.filter_spares (s.asks w) w.now
    (q := s.queue.setCurrentTarget s.currentTarget) held.once held.clean

theorem owned_prepared (owned : Owned s) (w : World τ δ) (p : Executor τ)
    (is : s.prepared w = some p) : Owned p := by
  have filtered : Owned (s.beforeChange w) :=
    owned_setQueue owned (beforeChange_spares owned.toHeld w)
  unfold prepared at is
  split at is
  · obtain ⟨row, -, rfl⟩ := Option.map_eq_some_iff.mp is
    exact owned_addFront (owned_created filtered row) (unheld_created filtered.toHeld row)
  · obtain rfl := Option.some.inj is
    exact filtered

/-- What switchTarget finds when it files the current target with the processed ones: no entry of
the queue holds that target. -/
def SwitchFree (s : Executor τ) (w : World τ δ) : Prop :=
  (s.switch = .dismiss → s.Free) ∧
    (s.switch = .doSwitch →
      ∀ p ∈ s.prepared w, ∀ t ∈ p.dropStarted.files w, t ∉ p.queue.targets)

theorem owned_switchTarget (owned : Owned s) (w : World τ δ) (free : s.SwitchFree w) :
    Owned (s.switchTarget w) := by
  unfold switchTarget
  cases way : s.switch with
  | clear => exact owned_clear owned
  | dismiss =>
    have alike : Alike s { s with execEnd := false } := ⟨rfl, rfl, rfl, rfl, rfl⟩
    exact owned_dismiss (alike.owned owned) (free.1 way) w
  | doSwitch =>
    simp only [doSwitch_eq]
    cases ready : s.prepared w with
    | none => exact owned_setQueue owned (beforeChange_spares owned.toHeld w)
    | some p =>
      have dropped := owned_dropStarted (owned_prepared owned w p ready)
      have queue : p.dropStarted.queue = p.queue := by unfold dropStarted; split <;> rfl
      refine owned_takeFront ((resetAutoLoop_alike _).owned dropped) w (fun t files mem => ?_)
      exact free.2 way p ready t files (queue ▸ mem)

def taken (s : Executor τ) : Event τ → Option (QueuedTarget Nat τ)
  | .removeIndex index => s.queue.entries[s.queue.findIndex index]?
  | _ => none

def IndexFree (s : Executor τ) (e : Event τ) : Prop :=
  ∀ x ∈ s.taken e, s.currentTarget = some x.target → s.queue.currentTarget = some x.target

def Releases (s : Executor τ) (we : World τ δ × Event τ) : Prop :=
  Allows (fun p => p.SwitchFree we.1) Free (s.call we.1 we.2) ∧ s.IndexFree we.2

omit [LinearOrder τ] [LinearOrder δ] in
theorem unheld_clear (held : Held s) {t : Nat} (unheld : Unheld s t) : Unheld s.clearNextTargets t := by
  refine ⟨unheld.made, unheld.current, ?_, unheld.filed, fun gone => ?_⟩
  · simp [clearNextTargets, resetAutoLoop, setQueue, ExecutorQueue.clearNext, ExecutorQueue.targets]
  · rcases List.mem_append.mp gone with gone | gone
    · exact unheld.alive gone
    · exact unheld.queue ((clear_spares held).1.subset (List.mem_append_right _ gone))

omit [LinearOrder τ] [LinearOrder δ] in
theorem removed_spares (held : Held s) (index : Int) (free : s.IndexFree (.removeIndex index)) :
    ExecutorQueue.Spares s.queue.targets s.currentTarget (s.queue.removeIndex index) := by
  have spares := ExecutorQueue.removeIndex_spares held.clean index
  refine ⟨spares.1, fun t current gone => ?_⟩
  unfold ExecutorQueue.removeIndex at gone
  cases found : s.queue.entries[s.queue.findIndex index]? with
  | none => simp [found, held.clean] at gone
  | some e =>
    by_cases mine : s.queue.currentTarget = some e.target
    · simp [found, held.clean, mine] at gone
    · simp only [found, held.clean, mine, if_false, List.nil_append, List.mem_singleton] at gone
      exact mine (free e found (gone ▸ current))

omit [LinearOrder τ] [LinearOrder δ] in
theorem owned_parts (w : World τ δ) : Parts (Owned (τ := τ)) IndexFree w where
  flags owned same :=
    Alike.owned ⟨same.made, same.deleted, same.queue, same.currentTarget, same.targetsQue⟩ owned
  cleared := owned_clear
  queued row t_start t_end owned :=
    owned_addTarget (owned_created owned row) (unheld_created owned.toHeld row) t_start t_end
  replaced row owned := owned_addTarget (owned_clear (owned_created owned row))
    (unheld_clear (held_created owned.toHeld row) (unheld_created owned.toHeld row)) none none
  discarded row owned :=
    owned_deleted (owned_created owned row) (unheld_created owned.toHeld row)
  begun owned _ := (startObservation_alike _ _).owned owned
  removed index owned free := owned_setQueue owned (removed_spares owned.toHeld index free)
  renewed inserted owned _ := (newObsSlew_alike _ w _ inserted).owned owned
  slewed inserted owned _ := (startSlew_alike _ _ inserted).owned owned
  closed inserted owned _ _ :=
    ((endObservation_alike _ w _ _).trans (startSlew_alike _ _ inserted)).owned owned

theorem step_owned (owned : Owned s) (we : World τ δ × Event τ) (releases : s.Releases we) :
    Owned (s.step we) := by
  obtain ⟨allows, index⟩ := releases
  exact step_keeps (owned_parts we.1) (fun owned free => owned_switchTarget owned we.1 free)
    (fun row owned free => owned_setNow (owned_created owned row) free
      (unheld_created owned.toHeld row) we.1) owned we.2 index allows

omit [LinearOrder τ] [LinearOrder δ] in
theorem fresh_owned (auto ignore : Bool) : Owned (fresh (τ := τ) auto ignore) := by
  refine { below := ?_, once := List.nodup_nil, clean := rfl, alive := ?_, apart := ?_,
           single := List.nodup_nil }
  all_goals simp [fresh, ExecutorQueue.targets]

/-- The current target, the targets of the queue and the processed ones are not deleted, none of
the processed ones is in the queue, and no target is deleted twice. -/
def Owns (s : Executor τ) : Prop :=
  (∀ t, s.currentTarget = some t ∨ t ∈ s.queue.targets ∨ t ∈ s.targetsQue →
      t < s.made ∧ t ∉ s.deleted) ∧
    (∀ t ∈ s.targetsQue, t ∉ s.queue.targets) ∧ s.deleted.Nodup

/-- In runs that never file a target as processed which the queue still holds, each target has its
holder. -/
theorem targets_owned (auto ignore : Bool) (es : List (World τ δ × Event τ))
    (releases : Guarded step Releases (fresh auto ignore) es) :
    Owns (run step (fresh auto ignore) es) := by
  have owned := run_invariant step Releases Owned (fun s we owned => step_owned owned we) _ es
    (fresh_owned auto ignore) releases
  refine ⟨?_, fun t mem => (owned.apart t mem).2.1, owned.single⟩
  rintro t (current | mem | mem)
  · exact ⟨owned.below t (.inl current), owned.alive t (.inl current)⟩
  · exact ⟨owned.below t (.inr (.inl mem)), owned.alive t (.inr mem)⟩
  · exact ⟨owned.below t (.inr (.inr (.inl mem))), (owned.apart t mem).2.2⟩

omit [LinearOrder τ] [LinearOrder δ] in
instance (s : Executor τ) : Decidable s.Free :=
  inferInstanceAs (Decidable (∀ t ∈ s.currentTarget, t ∉ s.queue.targets))

instance (s : Executor τ) (w : World τ δ) : Decidable (s.SwitchFree w) :=
  inferInstanceAs (Decidable (_ ∧ _))

instance (s : Executor τ) (e : Event τ) : Decidable (s.IndexFree e) :=
  inferInstanceAs (Decidable (∀ x ∈ s.taken e, _ → _))

instance (s : Executor τ) (we : World τ δ × Event τ) : Decidable (s.Releases we) :=
  inferInstanceAs (Decidable (_ ∧ _))

def sampleWorld (now : Nat) (running : Int) (created : Option (Nat × String)) : World Nat Nat where
  now := now
  julian := id
  isAboveHorizon _ _ := true
  isContinues _ := 0
  scriptRunning := running
  created := created

def sampleNight : List (World Nat Nat × Event Nat) :=
  [(sampleWorld 1 0 none, .setMasterState serverdNight),
    (sampleWorld 2 0 (some (1000, "field")), .queueTarget none none),
    (sampleWorld 3 1 none, .slewToTarget false true), (sampleWorld 4 1 none, .exposureStarted)]

theorem targets_owned_sample : Owns (run step (fresh true false)
    (sampleNight ++ [(sampleWorld 5 0 none, .scriptEnded)])) :=
  targets_owned true false _ (by decide)

/-- The target that is observed is still in the queue when another one is ordered at once. It is
filed as processed and deleted with the queue. -/
theorem now_deletes_filed : ¬ Owns (run step (fresh true false)
    (sampleNight ++ [(sampleWorld 5 1 (some (2000, "burst")), .now 2000)])) := by
  intro owns
  have filed := owns.1 0 (.inr (.inr (by decide)))
  exact filed.2 (by decide)

end Executor

end Rts2.Plan
