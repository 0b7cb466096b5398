import Rts2.Lib.Run
import Rts2.Lib.SortedMap

/-! The timers of a Block. Events are numbers, and getType is what was written in them when they
were made. A time is of any ordered type, with an addition that may round. -/
namespace Rts2.Kernel

open Lib

/-- Where the program is: outside of the timers, at the test of the loop in idle, or in the handler
of an event that idle posts. -/
inductive TimerPhase (T : Type) where
  | outside
  | loop (iter : Option (T × Nat))
  | posting (iter : T × Nat)
  deriving DecidableEq

/-- The fields after `phase` are read by no function: what addTimer was given, what idle posted and
the time it read before, what deleteTimers deleted and its argument, what was deleted by anyone, and
the timers when idle started. -/
structure Timers (T : Type) [LinearOrder T] where
  timers : SortedMap T Nat
  toDelete : List T
  phase : TimerPhase T
  added : List (T × Nat)
  posted : List ((T × Nat) × T)
  cancelled : List ((T × Nat) × Int)
  deleted : List Nat
  started : List (T × Nat)

inductive TimerEvent (T : Type) where
  | addTimer (now timer_time : T) (event : Nat)
  | deleteTimers (event_type : Int)
  | idle
  | test (now : T)
  | delete (event : Nat)
  | returned

namespace Timers

variable {T : Type} [LinearOrder T]

def init : Timers T := ⟨.empty, [], .outside, [], [], [], [], []⟩

def addTimer [Add T] (s : Timers T) (now timer_time : T) (event : Nat) : Timers T :=
  { s with
    timers := s.timers.insert (now + timer_time) event
    added := s.added ++ [(now + timer_time, event)] }

def pushToDelete (s : Timers T) (iter : T × Nat) : Timers T × Bool :=
  if iter.1 ∈ s.toDelete then (s, false)
  else ({ s with toDelete := s.toDelete ++ [iter.1] }, true)

section

variable (getType : Nat → Int)

def deleteTimer (event_type : Int) (s : Timers T) (iter : T × Nat) : Timers T :=
  if getType iter.2 = event_type then
    match s.pushToDelete iter with
    | (s, true) =>
      { s with
        cancelled := s.cancelled ++ [(iter, event_type)]
        deleted := s.deleted ++ [iter.2] }
    | (s, false) => s
  else s

def deleteTimers (s : Timers T) (event_type : Int) : Timers T :=
  s.timers.entries.foldl (deleteTimer getType event_type) s

end

def idle (s : Timers T) : Timers T :=
  { s with phase := .loop s.timers.first, started := s.timers.entries }

def eraseDeleted (s : Timers T) : Timers T :=
  { s with
    timers := s.toDelete.foldl SortedMap.erase s.timers
    toDelete := []
    phase := .outside }

def test (s : Timers T) (now : T) : Timers T :=
  match s.phase with
  | .loop none => s.eraseDeleted
  | .loop (some iter) =>
    if iter.1 < now then
      match s.pushToDelete iter with
      | (s, true) => { s with phase := .posting iter, posted := s.posted ++ [(iter, now)] }
      | (s, false) => { s with phase := .loop (s.timers.next iter.1) }
    else s.eraseDeleted
  | .outside | .posting _ => s

def returned (s : Timers T) : Timers T :=
  match s.phase with
  | .posting iter => { s with phase := .loop (s.timers.next iter.1) }
  | .outside | .loop _ => s

def step [Add T] (getType : Nat → Int) (s : Timers T) : TimerEvent T → Timers T
  | .addTimer now timer_time event => s.addTimer now timer_time event
  | .deleteTimers event_type => s.deleteTimers getType event_type
  | .idle => s.idle
  | .test now => s.test now
  | .delete event => { s with deleted := s.deleted ++ [event] }
  | .returned => s.returned

def pending (s : Timers T) : List (T × Nat) := s.timers.entries.filter (·.1 ∉ s.toDelete)

def Pending (s : Timers T) (event : Nat) : Prop := event ∈ s.pending.map Prod.snd

def Live (s : Timers T) (event : Nat) : Prop :=
  event ∉ s.deleted ∧
    (s.Pending event ∨ match s.phase with
      | .posting iter => iter.2 = event
      | .outside | .loop _ => False)

/-- The program runs in one thread: nothing is called while idle is between two events. It adds
events that are its own, new ones or posted ones it did not delete, and deletes only posted ones. -/
def Enabled (s : Timers T) : TimerEvent T → Prop
  | .addTimer _ _ event => (∀ iter, s.phase ≠ .loop iter) ∧ event ∉ s.deleted ∧ ¬ s.Pending event
  | .deleteTimers _ => ∀ iter, s.phase ≠ .loop iter
  | .idle => s.phase = .outside
  | .test _ => ∃ iter, s.phase = .loop iter
  | .delete event =>
    (∀ iter, s.phase ≠ .loop iter) ∧ event ∈ s.posted.map (·.1.2) ∧ event ∉ s.deleted ∧
      ¬ s.Pending event
  | .returned => ∃ iter, s.phase = .posting iter

/-- Every timer that was added was posted once, or was deleted, or is still to be posted. -/
structure Delivered (getType : Nat → Int) (s : Timers T) : Prop where
  once : s.added.Perm (s.posted.map Prod.fst ++ s.cancelled.map Prod.fst ++ s.pending)
  due : ∀ p ∈ s.posted, p.1.1 < p.2
  type : ∀ c ∈ s.cancelled, getType c.1.2 = c.2

def Reads (s : Timers T) : TimerEvent T → Prop
  | .deleteTimers _ => ∀ iter ∈ s.timers.entries, s.Live iter.2
  | .test now => ∀ iter, s.phase = .loop (some iter) → iter.1 < now → iter.1 ∉ s.toDelete →
      s.Live iter.2
  | .addTimer .. | .idle | .delete _ | .returned => True

/-- deleteTimers leaves no timer of its type, and idle none that was there when it started and is
before the time it ends. -/
def Done (getType : Nat → Int) (s : Timers T) : TimerEvent T → Prop
  | .deleteTimers event_type => ∀ iter ∈ (s.deleteTimers getType event_type).pending,
      getType iter.2 ≠ event_type
  | .test now => (s.test now).phase = .outside → ∀ iter ∈ s.started, iter.1 < now →
      iter ∉ (s.test now).pending
  | .addTimer .. | .idle | .delete _ | .returned => True

def Law [Add T] (getType : Nat → Int) (s : Timers T) (e : TimerEvent T) : Prop :=
  s.Reads e ∧ Delivered getType (s.step getType e) ∧ s.Done getType e

/-- A timer is added at a time that no entry of the map has, and deleteTimers is called when the
entries that wait to be erased have events that can be read. -/
def Apart [Add T] (s : Timers T) : TimerEvent T → Prop
  | .addTimer now timer_time _ => now + timer_time ∉ s.timers.keys
  | .deleteTimers _ => ∀ iter ∈ s.timers.entries, iter.1 ∈ s.toDelete → s.Live iter.2
  | .idle | .test _ | .delete _ | .returned => True

section

variable (s : Timers T)

instance : DecidablePred s.Pending := fun _ => inferInstanceAs (Decidable (_ ∈ _))

instance (event : Nat) : Decidable (s.Live event) :=
  match phase : s.phase with
  | .outside | .loop _ =>
    decidable_of_iff (event ∉ s.deleted ∧ s.Pending event) (by simp [Live, phase])
  | .posting iter =>
    decidable_of_iff (event ∉ s.deleted ∧ (s.Pending event ∨ iter.2 = event)) (by simp [Live, phase])

instance : Decidable (∃ iter, s.phase = .loop iter) :=
  match _phase : s.phase with
  | .loop iter => isTrue ⟨iter, rfl⟩
  | .outside | .posting _ => isFalse nofun

instance : Decidable (∀ iter, s.phase ≠ .loop iter) := decidable_of_iff _ not_exists

instance : Decidable (∃ iter, s.phase = .posting iter) :=
  match _phase : s.phase with
  | .posting iter => isTrue ⟨iter, rfl⟩
  | .outside | .loop _ => isFalse nofun

instance : DecidablePred s.Enabled
  | .addTimer .. | .delete _ => inferInstanceAs (Decidable (_ ∧ _))
  | .deleteTimers _ => inferInstanceAs (Decidable (∀ _, _))
  | .idle => inferInstanceAs (Decidable (_ = _))
  | .test _ | .returned => inferInstanceAs (Decidable (∃ _, _))

instance [Add T] : DecidablePred s.Apart
  | .addTimer .. => inferInstanceAs (Decidable (_ ∉ _))
  | .deleteTimers _ => inferInstanceAs (Decidable (∀ _ ∈ _, _))
  | .idle | .test _ | .delete _ | .returned => inferInstanceAs (Decidable True)

end

theorem mem_pending {s : Timers T} {p : T × Nat} :
    p ∈ s.pending ↔ p ∈ s.timers.entries ∧ p.1 ∉ s.toDelete := by
  simp [pending]

theorem pending_nodup (s : Timers T) : s.pending.Nodup := s.timers.nodup.filter _

theorem pending_length (s : Timers T) :
    s.pending.length = (s.timers.keys.filter (· ∉ s.toDelete)).length := by
  rw [SortedMap.keys, List.filter_map, List.length_map]
  rfl

theorem pending_mark (s : Timers T) (marked : T × Nat → Bool) :
    (s.timers.entries.filter fun p =>
      p.1 ∉ s.toDelete ++ (s.pending.filter marked).map Prod.fst) =
      s.pending.filter (!marked ·) := by
  have split : s.pending.filter (!marked ·) =
      s.timers.entries.filter fun p => !marked p && decide (p.1 ∉ s.toDelete) :=
    List.filter_filter ..
  rw [split]
  refine List.filter_congr fun p mem => ?_
  by_cases deleted : p.1 ∈ s.toDelete
  · simp [deleted]
  · have here : p.1 ∈ (s.pending.filter marked).map Prod.fst ↔ marked p = true := by
      constructor
      · intro key
        obtain ⟨q, listed, same⟩ := List.mem_map.mp key
        obtain ⟨listed, wanted⟩ := List.mem_filter.mp listed
        exact s.timers.unique (mem_pending.mp listed).1 mem same ▸ wanted
      · intro wanted
        exact List.mem_map_of_mem (List.mem_filter.mpr ⟨mem_pending.mpr ⟨mem, deleted⟩, wanted⟩)
    cases wanted : marked p <;> simp [deleted, here, wanted]

theorem filter_one {s : Timers T} {iter : T × Nat} (mem : iter ∈ s.pending) :
    s.pending.filter (· = iter) = [iter] := by
  have count := List.count_eq_one_of_mem s.pending_nodup mem
  rw [List.filter_eq, count, List.replicate_one]

theorem pending_mark_one {s : Timers T} {iter : T × Nat} (mem : iter ∈ s.pending) :
    (s.timers.entries.filter (·.1 ∉ s.toDelete ++ [iter.1])) = s.pending.filter (· ≠ iter) := by
  simpa [filter_one mem] using pending_mark s (· = iter)

theorem addTimer_pending [Add T] {s : Timers T} (listed : ∀ k ∈ s.toDelete, k ∈ s.timers.keys)
    (now timer_time : T) (event : Nat) (fresh : now + timer_time ∉ s.timers.keys) :
    (s.addTimer now timer_time event).pending.Perm ((now + timer_time, event) :: s.pending) := by
  have kept : now + timer_time ∉ s.toDelete := fun mem => fresh (listed _ mem)
  have perm := (insertEntry_perm event fresh).filter (·.1 ∉ s.toDelete)
  rwa [List.filter_cons_of_pos (by simpa using kept)] at perm

theorem eraseDeleted_pending (s : Timers T) : s.eraseDeleted.pending = s.pending := by
  simp [pending, eraseDeleted, SortedMap.foldl_erase]

section

variable (getType : Nat → Int)

def ofType (event_type : Int) (iter : T × Nat) : Bool := getType iter.2 = event_type

theorem foldl_deleteTimer (event_type : Int) (s : Timers T) (iters : List (T × Nat))
    (sorted : iters.Pairwise fun p q => p.1 < q.1) :
    iters.foldl (deleteTimer getType event_type) s =
      let hit := (iters.filter (·.1 ∉ s.toDelete)).filter (ofType getType event_type)
      { s with
        toDelete := s.toDelete ++ hit.map Prod.fst
        cancelled := s.cancelled ++ hit.map (·, event_type)
        deleted := s.deleted ++ hit.map Prod.snd } := by
  induction iters generalizing s with
  | nil => simp
  | cons iter iters ih =>
    obtain ⟨first, rest⟩ := List.pairwise_cons.mp sorted
    rw [List.foldl_cons, ih _ rest]
    by_cases type : getType iter.2 = event_type
    · by_cases old : iter.1 ∈ s.toDelete
      · simp [deleteTimer, pushToDelete, type, old]
      · have others : iters.filter (·.1 ∉ s.toDelete ++ [iter.1]) =
            iters.filter (·.1 ∉ s.toDelete) := by
          refine List.filter_congr fun p mem => ?_
          simp [(first p mem).ne']
        simp only [deleteTimer, pushToDelete, type, old, if_true, if_false, others]
        simp [ofType, type, old]
    · have skipped : deleteTimer getType event_type s iter = s := if_neg type
      simp only [skipped, List.filter_cons]
      split <;> simp [ofType, type]

def hit (s : Timers T) (event_type : Int) : List (T × Nat) :=
  s.pending.filter (ofType getType event_type)

theorem deleteTimers_eq (s : Timers T) (event_type : Int) :
    s.deleteTimers getType event_type =
      { s with
        toDelete := s.toDelete ++ (s.hit getType event_type).map Prod.fst
        cancelled := s.cancelled ++ (s.hit getType event_type).map (·, event_type)
        deleted := s.deleted ++ (s.hit getType event_type).map Prod.snd } :=
  foldl_deleteTimer getType event_type s s.timers.entries s.timers.sorted

theorem deleteTimers_pending (s : Timers T) (event_type : Int) :
    (s.deleteTimers getType event_type).pending =
      s.pending.filter (!ofType getType event_type ·) := by
  rw [deleteTimers_eq]
  exact pending_mark s (ofType getType event_type)

end

def Passed (s : Timers T) : Prop :=
  match s.phase with
  | .outside => True
  | .loop none => ∀ p ∈ s.started, p.1 ∈ s.toDelete
  | .loop (some iter) => iter ∈ s.timers.entries ∧ ∀ p ∈ s.started, p.1 < iter.1 → p.1 ∈ s.toDelete
  | .posting iter => ∀ p ∈ s.started, p.1 ≤ iter.1 → p.1 ∈ s.toDelete

structure Kept (s : Timers T) : Prop where
  listed : ∀ k ∈ s.toDelete, k ∈ s.timers.keys
  fresh : ∀ p ∈ s.pending, p.2 ∉ s.deleted
  distinct : (s.pending.map Prod.snd).Nodup
  there : s.phase ≠ .outside → ∀ p ∈ s.started, p.1 ∈ s.timers.keys
  passed : s.Passed

theorem init_kept : (init : Timers T).Kept :=
  ⟨by simp [init], by simp [init, pending, SortedMap.empty],
    by simp [init, pending, SortedMap.empty], by simp [init], trivial⟩

theorem Passed.frame {s t : Timers T} (passed : s.Passed) (phase : t.phase = s.phase)
    (outside : ∀ iter, s.phase ≠ .loop iter) (started : t.started = s.started)
    (marked : ∀ k ∈ s.toDelete, k ∈ t.toDelete) : t.Passed := by
  unfold Passed at passed ⊢
  rw [phase, started]
  cases now : s.phase with
  | outside => trivial
  | loop iter => exact absurd now (outside iter)
  | posting iter =>
    rw [now] at passed
    exact fun p mem before => marked _ (passed p mem before)

theorem addTimer_subperm [Add T] (s : Timers T) (now timer_time : T) (event : Nat) :
    (s.addTimer now timer_time event).pending.Subperm ((now + timer_time, event) :: s.pending) := by
  have entries := insertEntry_subperm (now + timer_time) event s.timers.entries
  refine (entries.filter (·.1 ∉ s.toDelete)).trans ?_
  rw [List.filter_cons]
  split
  · exact .refl _
  · exact .cons_self

theorem addTimer_kept [Add T] {s : Timers T} (kept : s.Kept) {now timer_time : T} {event : Nat}
    (outside : ∀ iter, s.phase ≠ .loop iter) (fresh : event ∉ s.deleted)
    (own : ¬ s.Pending event) : (s.addTimer now timer_time event).Kept := by
  have pending := s.addTimer_subperm now timer_time event
  have keys (k : T) (mem : k ∈ s.timers.keys) :
      k ∈ (s.addTimer now timer_time event).timers.keys :=
    (s.timers.insert_keys _ _).mpr (.inr mem)
  refine ⟨fun k mem => keys k (kept.listed k mem), fun p mem => ?_, ?_,
    fun inside p mem => keys _ (kept.there inside p mem),
    kept.passed.frame rfl outside rfl fun _ => id⟩
  · rcases List.mem_cons.mp (pending.subset mem) with rfl | mem
    · exact fresh
    · exact kept.fresh p mem
  · obtain ⟨l, perm, sublist⟩ := pending
    have nodup : (((now + timer_time, event) :: s.pending).map Prod.snd).Nodup :=
      List.nodup_cons.mpr ⟨own, kept.distinct⟩
    exact ((perm.map Prod.snd).nodup_iff).mp (nodup.sublist (sublist.map Prod.snd))

theorem Kept.mark {s t : Timers T} (kept : s.Kept) (marked : T × Nat → Bool)
    (timers : t.timers = s.timers) (started : t.started = s.started)
    (toDelete : t.toDelete = s.toDelete ++ (s.pending.filter marked).map Prod.fst)
    (deleted : ∀ p ∈ s.pending, marked p = false → p.2 ∉ t.deleted)
    (inside : t.phase ≠ .outside → s.phase ≠ .outside) (passed : t.Passed) : t.Kept := by
  have pending : t.pending = s.pending.filter (!marked ·) := by
    unfold Timers.pending
    rw [timers, toDelete]
    exact pending_mark s marked
  refine ⟨fun k mem => ?_, fun p mem => ?_, ?_, fun now p mem => ?_, passed⟩
  · rw [timers]
    rw [toDelete] at mem
    rcases List.mem_append.mp mem with mem | mem
    · exact kept.listed k mem
    · obtain ⟨p, marked, rfl⟩ := List.mem_map.mp mem
      exact s.timers.mem_keys (mem_pending.mp (List.mem_of_mem_filter marked)).1
  · rw [pending] at mem
    obtain ⟨mem, unmarked⟩ := List.mem_filter.mp mem
    exact deleted p mem (by simpa using unmarked)
  · rw [pending]
    exact kept.distinct.sublist ((List.filter_sublist).map Prod.snd)
  · rw [timers]
    exact kept.there (inside now) p (started ▸ mem)

theorem eq_of_event {s : Timers T} (kept : s.Kept) {p q : T × Nat} (mem : p ∈ s.pending)
    (other : q ∈ s.pending) (same : p.2 = q.2) : p = q :=
  List.inj_on_of_nodup_map kept.distinct mem other same

theorem deleteTimers_kept (getType : Nat → Int) {s : Timers T} (kept : s.Kept) (event_type : Int)
    (outside : ∀ iter, s.phase ≠ .loop iter) : (s.deleteTimers getType event_type).Kept := by
  rw [deleteTimers_eq]
  refine kept.mark (ofType getType event_type) rfl rfl rfl (fun p mem other gone => ?_) id ?_
  · rcases List.mem_append.mp gone with gone | gone
    · exact kept.fresh p mem gone
    · obtain ⟨q, listed, same⟩ := List.mem_map.mp gone
      obtain ⟨listed, type⟩ := List.mem_filter.mp listed
      rw [eq_of_event kept listed mem same, other] at type
      simp at type
  · exact kept.passed.frame rfl outside rfl fun k mem => List.mem_append_left _ mem

theorem delete_kept {s : Timers T} (kept : s.Kept) {event : Nat}
    (outside : ∀ iter, s.phase ≠ .loop iter) (own : ¬ s.Pending event) :
    { s with deleted := s.deleted ++ [event] }.Kept := by
  refine kept.mark (fun _ => false) rfl rfl (by simp) (fun p mem _ gone => ?_) id ?_
  · rcases List.mem_append.mp gone with gone | gone
    · exact kept.fresh p mem gone
    · exact own (List.mem_singleton.mp gone ▸ List.mem_map_of_mem mem)
  · exact kept.passed.frame rfl outside rfl fun _ => id

theorem idle_kept {s : Timers T} (kept : s.Kept) : s.idle.Kept := by
  refine ⟨kept.listed, kept.fresh, kept.distinct, fun _ p mem => s.timers.mem_keys mem, ?_⟩
  unfold Passed idle
  cases found : s.timers.first with
  | none => simp [s.timers.first_none found]
  | some iter =>
    obtain ⟨mem, least⟩ := s.timers.first_some found
    exact ⟨mem, fun p listed before => absurd before (least p listed).not_gt⟩

theorem eraseDeleted_kept {s : Timers T} (kept : s.Kept) : s.eraseDeleted.Kept := by
  refine ⟨by simp [eraseDeleted], ?_, ?_, fun inside => absurd rfl inside, trivial⟩
  · rw [eraseDeleted_pending]
    exact kept.fresh
  · rw [eraseDeleted_pending]
    exact kept.distinct

theorem next_passed {s : Timers T} {iter : T × Nat}
    (there : ∀ p ∈ s.started, p.1 ∈ s.timers.keys)
    (passed : ∀ p ∈ s.started, p.1 ≤ iter.1 → p.1 ∈ s.toDelete) :
    { s with phase := .loop (s.timers.next iter.1) }.Passed := by
  unfold Passed
  cases found : s.timers.next iter.1 with
  | none =>
    intro p mem
    obtain ⟨q, listed, same⟩ := List.mem_map.mp (there p mem)
    exact passed p mem (same ▸ s.timers.next_none found q listed)
  | some next =>
    obtain ⟨listed, _, between⟩ := s.timers.next_some found
    refine ⟨listed, fun p mem before => ?_⟩
    obtain ⟨q, here, same⟩ := List.mem_map.mp (there p mem)
    exact passed p mem (same ▸ between q here (same ▸ before))

theorem next_kept {s : Timers T} (kept : s.Kept) {iter : T × Nat} (inside : s.phase ≠ .outside)
    (passed : ∀ p ∈ s.started, p.1 ≤ iter.1 → p.1 ∈ s.toDelete) :
    { s with phase := .loop (s.timers.next iter.1) }.Kept :=
  ⟨kept.listed, kept.fresh, kept.distinct, fun _ => kept.there inside,
    next_passed (kept.there inside) passed⟩

theorem test_cases {s : Timers T} (kept : s.Kept) (now : T) {iter : Option (T × Nat)}
    (phase : s.phase = .loop iter) :
    (s.test now = s.eraseDeleted ∧ ∀ p ∈ s.started, p.1 < now → p.1 ∈ s.toDelete) ∨
    (∃ iter, s.phase = .loop (some iter) ∧ iter ∈ s.pending ∧ iter.1 < now ∧
      s.test now = { s with
        toDelete := s.toDelete ++ [iter.1]
        phase := .posting iter
        posted := s.posted ++ [(iter, now)] }) ∨
    (∃ iter, s.phase = .loop (some iter) ∧ iter.1 ∈ s.toDelete ∧
      s.test now = { s with phase := .loop (s.timers.next iter.1) }) := by
  have passed := kept.passed
  unfold Passed at passed
  cases iter with
  | none =>
    rw [phase] at passed
    refine .inl ⟨by rw [test, phase], fun p mem _ => passed p mem⟩
  | some iter =>
    rw [phase] at passed
    by_cases early : iter.1 < now
    · by_cases marked : iter.1 ∈ s.toDelete
      · refine .inr (.inr ⟨iter, phase, marked, ?_⟩)
        simp [test, phase, early, pushToDelete, marked]
      · refine .inr (.inl ⟨iter, phase, mem_pending.mpr ⟨passed.1, marked⟩, early, ?_⟩)
        simp [test, phase, early, pushToDelete, marked]
    · refine .inl ⟨by simp [test, phase, early], fun p mem before => ?_⟩
      exact passed.2 p mem (before.trans_le (not_lt.mp early))

theorem test_kept {s : Timers T} (kept : s.Kept) {now : T} {iter : Option (T × Nat)}
    (phase : s.phase = .loop iter) : (s.test now).Kept := by
  have passed := kept.passed
  unfold Passed at passed
  rcases test_cases kept now phase with
    ⟨ended, _⟩ | ⟨iter, cursor, mem, _, posts⟩ | ⟨iter, cursor, marked, skips⟩
  · exact ended ▸ eraseDeleted_kept kept
  · rw [cursor] at passed
    rw [posts]
    refine kept.mark (· = iter) rfl rfl (by simp [filter_one mem]) (fun p mem _ => kept.fresh p mem)
      (fun _ => by simp [cursor]) fun p listed before => ?_
    rcases before.lt_or_eq with before | same
    · exact List.mem_append_left _ (passed.2 p listed before)
    · exact List.mem_append_right _ (by simp [same])
  · rw [cursor] at passed
    rw [skips]
    refine next_kept kept (by simp [cursor]) fun p listed before => ?_
    rcases before.lt_or_eq with before | same
    · exact passed.2 p listed before
    · exact same ▸ marked

theorem returned_kept {s : Timers T} (kept : s.Kept) {iter : T × Nat}
    (phase : s.phase = .posting iter) : s.returned.Kept := by
  have passed := kept.passed
  unfold Passed at passed
  rw [phase] at passed
  have moved : s.returned = { s with phase := .loop (s.timers.next iter.1) } := by
    rw [returned, phase]
  exact moved ▸ next_kept kept (by simp [phase]) passed

theorem step_kept [Add T] (getType : Nat → Int) {s : Timers T} (kept : s.Kept) {e : TimerEvent T}
    (enabled : s.Enabled e) : (s.step getType e).Kept := by
  cases e with
  | addTimer now timer_time event =>
    obtain ⟨outside, fresh, own⟩ := enabled
    exact addTimer_kept kept outside fresh own
  | deleteTimers event_type => exact deleteTimers_kept getType kept event_type enabled
  | idle => exact idle_kept kept
  | test now =>
    obtain ⟨iter, phase⟩ := enabled
    exact test_kept kept phase
  | delete event =>
    obtain ⟨outside, _, _, own⟩ := enabled
    exact delete_kept kept outside own
  | returned =>
    obtain ⟨iter, phase⟩ := enabled
    exact returned_kept kept phase

theorem marked_once {s : Timers T} {added posted cancelled : List (T × Nat)}
    (once : added.Perm (posted ++ cancelled ++ s.pending)) (marked : T × Nat → Bool) :
    added.Perm (posted ++ cancelled ++ (s.pending.filter marked ++ s.pending.filter (!marked ·))) :=
  once.trans ((List.filter_append_perm marked s.pending).symm.append_left _)

theorem addTimer_delivered [Add T] (getType : Nat → Int) {s : Timers T} (kept : s.Kept)
    (law : Delivered getType s) (now timer_time : T) (event : Nat) :
    Delivered getType (s.addTimer now timer_time event) ↔ now + timer_time ∉ s.timers.keys := by
  constructor
  · intro law' taken
    have keys : (s.addTimer now timer_time event).timers.keys = s.timers.keys :=
      insertEntry_map_fst event s.timers.sorted taken
    have pending : (s.addTimer now timer_time event).pending.length = s.pending.length := by
      rw [pending_length, keys, pending_length]
      rfl
    have before := law.once.length_eq
    have after := law'.once.length_eq
    simp only [addTimer, List.length_append, List.length_map, List.length_singleton] at before after
    unfold addTimer at pending
    omega
  · intro fresh
    refine ⟨?_, law.due, law.type⟩
    have pending := addTimer_pending kept.listed now timer_time event fresh
    refine .trans ?_ (pending.symm.append_left _)
    refine (List.perm_append_singleton _ s.added).trans ?_
    exact (law.once.cons _).trans List.perm_middle.symm

theorem deleteTimers_delivered (getType : Nat → Int) {s : Timers T} (law : Delivered getType s)
    (event_type : Int) : Delivered getType (s.deleteTimers getType event_type) := by
  have pending := s.deleteTimers_pending getType event_type
  rw [deleteTimers_eq] at pending ⊢
  refine ⟨?_, law.due, fun c mem => ?_⟩
  · rw [pending]
    refine (marked_once law.once (ofType getType event_type)).trans ?_
    simp [hit, Function.comp_def]
  · rcases List.mem_append.mp mem with mem | mem
    · exact law.type c mem
    · obtain ⟨p, listed, rfl⟩ := List.mem_map.mp mem
      simpa [ofType] using (List.mem_filter.mp listed).2

theorem test_delivered (getType : Nat → Int) {s : Timers T} (kept : s.Kept)
    (law : Delivered getType s) {now : T} {iter : Option (T × Nat)}
    (phase : s.phase = .loop iter) : Delivered getType (s.test now) := by
  rcases test_cases kept now phase with
    ⟨ended, _⟩ | ⟨iter, _, mem, early, posts⟩ | ⟨iter, _, _, skips⟩
  · rw [ended]
    refine ⟨?_, law.due, law.type⟩
    rw [eraseDeleted_pending]
    exact law.once
  · rw [posts]
    refine ⟨?_, fun p listed => ?_, law.type⟩
    · rw [Timers.pending, pending_mark_one mem]
      refine (marked_once law.once (· = iter)).trans ?_
      rw [filter_one mem]
      simp only [List.map_append, List.map_cons, List.map_nil, List.append_assoc]
      refine List.Perm.append_left _ ?_
      simp
    · rcases List.mem_append.mp listed with listed | listed
      · exact law.due p listed
      · exact List.mem_singleton.mp listed ▸ early
  · exact skips ▸ ⟨law.once, law.due, law.type⟩

theorem live_of_pending {s : Timers T} (kept : s.Kept) {p : T × Nat} (mem : p ∈ s.pending) :
    s.Live p.2 := ⟨kept.fresh p mem, .inl (List.mem_map_of_mem mem)⟩

theorem deleteTimers_reads {s : Timers T} (kept : s.Kept) :
    (∀ iter ∈ s.timers.entries, s.Live iter.2) ↔
      ∀ iter ∈ s.timers.entries, iter.1 ∈ s.toDelete → s.Live iter.2 := by
  refine forall₂_congr fun iter mem => ⟨fun live _ => live, fun marked => ?_⟩
  by_cases old : iter.1 ∈ s.toDelete
  · exact marked old
  · exact live_of_pending kept (mem_pending.mpr ⟨mem, old⟩)

theorem deleteTimers_done (getType : Nat → Int) (s : Timers T) (event_type : Int) :
    s.Done getType (.deleteTimers event_type) := by
  intro iter mem
  rw [deleteTimers_pending] at mem
  simpa [ofType] using (List.mem_filter.mp mem).2

theorem test_reads {s : Timers T} (kept : s.Kept) (now : T) : s.Reads (.test now) := by
  intro iter phase _ unmarked
  have passed := kept.passed
  unfold Passed at passed
  rw [phase] at passed
  exact live_of_pending kept (mem_pending.mpr ⟨passed.1, unmarked⟩)

theorem test_done (getType : Nat → Int) {s : Timers T} (kept : s.Kept) {now : T}
    {iter : Option (T × Nat)} (phase : s.phase = .loop iter) : s.Done getType (.test now) := by
  intro outside p mem before listed
  rcases test_cases kept now phase with
    ⟨ended, passed⟩ | ⟨iter, _, _, _, posts⟩ | ⟨iter, _, _, skips⟩
  · rw [ended, eraseDeleted_pending] at listed
    exact (mem_pending.mp listed).2 (passed p mem before)
  · rw [posts] at outside
    cases outside
  · rw [skips] at outside
    cases outside

theorem step_law [Add T] (getType : Nat → Int) {s : Timers T} (kept : s.Kept)
    (law : Delivered getType s) {e : TimerEvent T} (enabled : s.Enabled e) :
    s.Law getType e ↔ s.Apart e := by
  cases e with
  | addTimer now timer_time event =>
    have delivered := addTimer_delivered getType kept law now timer_time event
    exact ⟨fun law => delivered.mp law.2.1, fun apart => ⟨trivial, delivered.mpr apart, trivial⟩⟩
  | deleteTimers event_type =>
    have reads := deleteTimers_reads kept
    refine ⟨fun law => reads.mp law.1, fun apart => ⟨reads.mpr apart, ?_, ?_⟩⟩
    · exact deleteTimers_delivered getType law event_type
    · exact deleteTimers_done getType s event_type
  | idle => exact iff_of_true ⟨trivial, ⟨law.once, law.due, law.type⟩, trivial⟩ trivial
  | test now =>
    obtain ⟨iter, phase⟩ := enabled
    refine iff_of_true ⟨test_reads kept now, ?_, test_done getType kept phase⟩ trivial
    exact test_delivered getType kept law phase
  | delete event => exact iff_of_true ⟨trivial, ⟨law.once, law.due, law.type⟩, trivial⟩ trivial
  | returned =>
    obtain ⟨iter, phase⟩ := enabled
    have moved : s.returned = { s with phase := .loop (s.timers.next iter.1) } := by
      rw [returned, phase]
    refine iff_of_true ⟨trivial, ?_, trivial⟩ trivial
    exact (moved ▸ ⟨law.once, law.due, law.type⟩ : Delivered getType s.returned)

theorem init_delivered (getType : Nat → Int) : Delivered getType (init : Timers T) :=
  ⟨.refl _, by simp [init], by simp [init]⟩

end Timers

/-- Every timer is posted once and in time, or deleted with its type and no more posted, and no
event is read after it was posted or deleted: in a run this is so at every step if and only if
every step keeps the timers apart. -/
theorem timer_law_iff {T : Type} [LinearOrder T] [Add T] (getType : Nat → Int)
    (events : List (TimerEvent T))
    (enabled : Guarded (Timers.step getType) Timers.Enabled Timers.init events) :
    Guarded (Timers.step getType) (Timers.Law getType) Timers.init events ↔
      Guarded (Timers.step getType) Timers.Apart Timers.init events := by
  refine guarded_congr_invariant (P := fun s => s.Kept ∧ Timers.Delivered getType s) ?_ ?_ ?_ enabled
  · rintro s e ⟨kept, _⟩ enabled law
    exact ⟨Timers.step_kept getType kept enabled, law.2.1⟩
  · rintro s e ⟨kept, delivered⟩ enabled
    exact Timers.step_law getType kept delivered enabled
  · exact ⟨Timers.init_kept, Timers.init_delivered getType⟩

theorem timer_law_sample :
    Guarded (Timers.step fun _ => 1) (Timers.Law fun _ => 1) (Timers.init : Timers ℤ)
      [.addTimer 0 5 0, .addTimer 1 6 1, .idle, .test 6, .addTimer 6 2 2, .delete 0, .returned,
        .test 6, .deleteTimers 1] :=
  (timer_law_iff (fun _ => 1) _ (by decide)).mpr (by decide)

/-- Two timers at one time: the first one is lost. And a second deleteTimers before idle comes
reads the event that the first one deleted. -/
theorem timer_law_broken :
    (Guarded (Timers.step fun _ => 1) Timers.Enabled (Timers.init : Timers ℤ)
        [.addTimer 0 5 0, .addTimer 2 3 1] ∧
      ¬ Guarded (Timers.step fun _ => 1) (Timers.Law fun _ => 1) (Timers.init : Timers ℤ)
        [.addTimer 0 5 0, .addTimer 2 3 1]) ∧
    (Guarded (Timers.step fun _ => 1) Timers.Enabled (Timers.init : Timers ℤ)
        [.addTimer 0 5 0, .deleteTimers 1, .deleteTimers 1] ∧
      ¬ Guarded (Timers.step fun _ => 1) (Timers.Law fun _ => 1) (Timers.init : Timers ℤ)
        [.addTimer 0 5 0, .deleteTimers 1, .deleteTimers 1]) := by
  refine ⟨⟨by decide, ?_⟩, by decide, ?_⟩
  · rintro ⟨_, ⟨_, delivered, _⟩, _⟩
    exact absurd delivered.once (by decide)
  · rintro ⟨_, _, ⟨reads, _⟩, _⟩
    obtain ⟨there, _⟩ := reads (5, 0) (by decide)
    exact there (by decide)

end Rts2.Kernel
