import Rts2.Plan.Filter

/-! The filter called twice. The expiry pass reads the order that the unobservable pass of the call
before left, and takes a front without start time for one that stands in the way of a due entry. -/
namespace Rts2.Plan

open Lib QueuedTarget

variable {T τ δ : Type} [LinearOrder τ]

def Settled (w : Targets T τ δ) (now : τ) (l : List (QueuedTarget T τ)) : Prop :=
  l.tail.any (due now) = false ∧ l.all (remains w now) = true

variable (w : Targets T τ δ) (now : τ)

theorem settled_map_plain (l : List (QueuedTarget T τ)) :
    Settled w now (l.map plain) ↔ Settled w now l := by
  cases l with
  | nil => exact Iff.rfl
  | cons e l =>
    simp only [Settled, List.map_cons, List.tail_cons, List.any_map, List.all_cons, List.all_map]
    exact Iff.rfl

theorem settled_congr {l m : List (QueuedTarget T τ)} (same : l.map plain = m.map plain) :
    Settled w now l ↔ Settled w now m := by
  rw [← settled_map_plain, same, settled_map_plain]

namespace ExecutorQueue

theorem survivors_settled (q : ExecutorQueue T τ) : Settled w now (q.survivors w now) := by
  constructor
  · have unmarked := sinceLast_tail_unmarked (p := due now) q.entries
    unfold survivors
    cases since : sinceLast (due now) q.entries with
    | nil => rfl
    | cons e l =>
      rw [since, List.tail_cons] at unmarked
      have none : (l.filter (remains w now)).any (due now) = false := by
        simp only [List.any_eq_false, List.mem_filter] at unmarked ⊢
        exact fun x mem => unmarked x mem.1
      cases stays : e.remains w now with
      | true => rw [List.filter_cons_of_pos stays, List.tail_cons, none]
      | false =>
        rw [List.filter_cons_of_neg (by simp [stays])]
        simp only [List.any_eq_false] at none ⊢
        exact fun x mem => none x (List.mem_of_mem_tail mem)
  · simp only [survivors, List.all_eq_true]
    exact fun e mem => (List.mem_filter.mp mem).2

theorem survivors_of_settled {q : ExecutorQueue T τ} (settled : Settled w now q.entries) :
    q.survivors w now = q.entries := by
  rw [survivors, (sinceLast_of_unmarked settled.1).1]
  exact List.filter_eq_self.mpr (List.all_eq_true.mp settled.2)

variable [DecidableEq T]

theorem filed_of_settled {q : ExecutorQueue T τ} (settled : Settled w now q.entries) :
    (q.filterExpired w now).removed = q.removed ∧
      (q.filterExpired w now).executed = q.executed := by
  have perm := survivors_perm w now q
  rw [survivors_of_settled w now settled] at perm
  have none : q.expired now ++ q.observed w now = [] := by
    have length := perm.length_eq
    rw [List.length_append] at length
    exact List.eq_nil_of_length_eq_zero (by omega)
  obtain ⟨gone, seen⟩ := List.append_eq_nil_iff.mp none
  have filed := filterExpired_filed w now q
  rw [gone, seen] at filed
  simpa using filed

variable [LinearOrder δ]

omit [LinearOrder τ] [DecidableEq T] in
theorem parts_split {back others : List (QueuedTarget T τ)}
    (low : ∀ e ∈ back, e.isAboveHorizon w (w.julian now) = false)
    (first : ∀ e ∈ others.head?, e.isAboveHorizon w (w.julian now) = true) :
    unobservable w now (back ++ others) = back.map reported ∧
      observable w now (back ++ others) = others.modifyHead plain := by
  have passes : ∀ e ∈ back, (!e.isAboveHorizon w (w.julian now)) = true := by simpa using low
  cases others with
  | nil =>
    rw [unobservable, observable, List.takeWhile_append_of_pos passes,
      List.dropWhile_append_of_pos passes]
    simp
  | cons e others =>
    have stop := first e rfl
    rw [unobservable, observable, List.takeWhile_append_of_pos passes,
      List.dropWhile_append_of_pos passes]
    simp [stop]

def MovedBack (q : ExecutorQueue T τ) : Prop :=
  (unobservable w now (q.survivors w now)).any (due now) = true ∧
    (observable w now (q.survivors w now)).head?.any (startReached now) = true

def Stable (q : ExecutorQueue T τ) : Prop :=
  let p := (q.filter w now).1
  (p.filter w now).1.entries = p.entries ∧ (p.filter w now).1.removed = p.removed ∧
    (p.filter w now).1.executed = p.executed ∧ (p.filter w now).2 = (q.filter w now).2

omit [LinearOrder τ] [DecidableEq T] in
theorem observable_first (l : List (QueuedTarget T τ)) :
    ∀ e ∈ (observable w now l).head?, e.isAboveHorizon w (w.julian now) = true := by
  intro e first
  cases parts : observable w now l with
  | nil => simp [parts] at first
  | cons front rest =>
    obtain rfl : front = e := by simpa [parts] using first
    exact observable_head w now parts

omit [LinearOrder τ] [DecidableEq T] in
@[simp] theorem unobservable_reported (l : List (QueuedTarget T τ)) :
    (unobservable w now l).map reported = unobservable w now l := by
  simp only [unobservable, List.map_map]
  rfl

omit [LinearOrder τ] [DecidableEq T] in
@[simp] theorem observable_plain (l : List (QueuedTarget T τ)) :
    (observable w now l).modifyHead plain = observable w now l := by
  simp only [observable, List.modifyHead_modifyHead]
  rfl

theorem filter_settled {p : ExecutorQueue T τ} (settled : Settled w now p.entries)
    {back others : List (QueuedTarget T τ)} (split : p.entries = back ++ others)
    (low : ∀ e ∈ back, e.isAboveHorizon w (w.julian now) = false)
    (first : ∀ e ∈ others.head?, e.isAboveHorizon w (w.julian now) = true)
    (said : back.map reported = back) (unsaid : others.modifyHead plain = others) :
    (p.filter w now).2 = others.head?.any (startReached now) ∧
      (p.filter w now).1.entries = (if others.head?.any (startReached now) then
        others.take 1 ++ back ++ others.drop 1 else back ++ others) ∧
      (p.filter w now).1.removed = p.removed ∧ (p.filter w now).1.executed = p.executed := by
  obtain ⟨answer, left⟩ := filter_parts w now p
  obtain ⟨moved, front⟩ := parts_split w now low first
  rw [said] at moved
  rw [unsaid] at front
  rw [survivors_of_settled w now settled, split] at answer left
  rw [moved, front] at left
  rw [front] at answer
  have filed := filed_of_settled w now settled
  rw [left]
  exact ⟨answer, rfl, filed.1, filed.2⟩

theorem stable_of_future {q : ExecutorQueue T τ}
    (future : (observable w now (q.survivors w now)).head?.any (startReached now) = false) :
    Stable w now q := by
  obtain ⟨answer, left⟩ := filter_parts w now q
  rw [future] at answer left
  have entries : (q.filter w now).1.entries =
      unobservable w now (q.survivors w now) ++ observable w now (q.survivors w now) := by
    rw [left]
    rfl
  have settled : Settled w now (q.filter w now).1.entries := by
    rw [entries, settled_congr w now (parts_plain w now (q.survivors w now))]
    exact survivors_settled w now q
  have again := filter_settled w now settled entries (fun e mem => unobservable_low w now mem)
    (observable_first w now _) (unobservable_reported w now _) (observable_plain w now _)
  rw [future] at again
  exact ⟨again.2.1.trans entries.symm, again.2.2.1, again.2.2.2, again.1.trans answer.symm⟩

theorem stable_of_front {q : ExecutorQueue T τ}
    (come : (observable w now (q.survivors w now)).head?.any (startReached now) = true)
    (none : (unobservable w now (q.survivors w now)).any (due now) = false) : Stable w now q := by
  obtain ⟨answer, left⟩ := filter_parts w now q
  rw [come] at answer left
  cases parts : observable w now (q.survivors w now) with
  | nil => simp [parts] at come
  | cons front rest =>
    have entries : (q.filter w now).1.entries =
        [] ++ front :: (unobservable w now (q.survivors w now) ++ rest) := by
      rw [left, parts]
      simp
    have whole := survivors_settled w now q
    rw [← settled_congr w now (parts_plain w now (q.survivors w now)), parts] at whole
    have settled : Settled w now (q.filter w now).1.entries := by
      rw [entries]
      obtain ⟨unmarked, stay⟩ := whole
      constructor
      · cases moved : unobservable w now (q.survivors w now) with
        | nil => simpa [moved] using unmarked
        | cons e back =>
          rw [moved] at none unmarked
          simp_all
      · simp only [List.all_append, List.all_cons, List.nil_append] at stay ⊢
        simp_all
    have unsaid : front.plain = front := by
      have said := observable_plain w now (q.survivors w now)
      rw [parts] at said
      exact (List.cons.inj said).1
    have above := observable_head w now parts
    have again := filter_settled w now settled entries (by simp) (by simpa using above) rfl
      (by simp [unsaid])
    rw [parts] at come
    rw [show (front :: (unobservable w now (q.survivors w now) ++ rest)).head? =
      (front :: rest).head? from rfl, come] at again
    refine ⟨?_, again.2.2.1, again.2.2.2, again.1.trans answer.symm⟩
    rw [again.2.1, entries]
    simp

theorem not_stable_of_movedBack {q : ExecutorQueue T τ} (moved : MovedBack w now q) :
    ¬ Stable w now q := by
  rintro ⟨-, -, executed, -⟩
  obtain ⟨due_, come⟩ := moved
  obtain ⟨-, left⟩ := filter_parts w now q
  rw [come] at left
  cases parts : observable w now (q.survivors w now) with
  | nil => simp [parts] at come
  | cons front rest =>
    have entries : (q.filter w now).1.entries =
        front :: (unobservable w now (q.survivors w now) ++ rest) := by
      rw [left, parts]
      simp
    have dropped : front ∈ (q.filter w now).1.observed w now := by
      rw [observed, entries]
      simp [beforeLast, due_]
    have filed := (filterExpired_filed w now (q.filter w now).1).2
    obtain ⟨-, again⟩ := filter_parts w now (q.filter w now).1
    rw [again] at executed
    have lengths := congrArg List.length (filed.symm.trans executed)
    rw [List.length_append, List.length_map] at lengths
    have some := List.length_pos_of_mem dropped
    omega

/-- The last entry whose start time came cannot be observed, and the first one after it that can
be, and was not yet, has no start time. -/
def Displaced (q : ExecutorQueue T τ) : Prop :=
  ∃ before d between f after, q.entries = before ++ d :: (between ++ f :: after) ∧
    (passed now d.t_start = true ∧ d.remains w now = true ∧
      d.isAboveHorizon w (w.julian now) = false) ∧
    (∀ e ∈ between ++ f :: after, e.due now = false) ∧
    (∀ e ∈ between, w.observationStarted e.target = true ∨
      e.isAboveHorizon w (w.julian now) = false) ∧
    w.observationStarted f.target = false ∧ f.isAboveHorizon w (w.julian now) = true ∧
    f.t_start = none

omit [DecidableEq T] in
theorem Displaced.movedBack {q : ExecutorQueue T τ} (displaced : Displaced w now q) :
    MovedBack w now q := by
  obtain ⟨before, d, between, f, after, split, ⟨come, stays, low⟩, unmarked, passes, fresh, above,
    untimed⟩ := displaced
  have marked : d.due now = true := by simp [due, come]
  have since : sinceLast (due now) q.entries = d :: (between ++ f :: after) := by
    rw [split, sinceLast_append marked]
    exact (sinceLast_of_unmarked
      (List.any_eq_false.mpr (fun e mem => by simp [unmarked e mem]))).1
  have kept : f.remains w now = true := by
    have idle := unmarked f (by simp)
    simp only [due, Bool.or_eq_false_iff] at idle
    simp [remains, ended, idle.2, fresh]
  have survivors : q.survivors w now =
      (d :: between.filter (remains w now)) ++ f :: after.filter (remains w now) := by
    rw [survivors, since, List.filter_cons_of_pos stays, List.filter_append,
      List.filter_cons_of_pos kept]
    rfl
  have lows : ∀ e ∈ d :: between.filter (remains w now),
      e.isAboveHorizon w (w.julian now) = false := by
    intro e mem
    rcases List.mem_cons.mp mem with rfl | inside
    · exact low
    · obtain ⟨inside, stays⟩ := List.mem_filter.mp inside
      rcases passes e inside with started | low
      · simp [remains, started] at stays
      · exact low
  have first : ∀ e ∈ (f :: after.filter (remains w now)).head?,
      e.isAboveHorizon w (w.julian now) = true := by simpa using above
  obtain ⟨moved, front⟩ := parts_split w now lows first
  rw [← survivors] at moved front
  constructor
  · rw [moved]
    simp only [List.map_cons, List.any_cons]
    exact Bool.or_eq_true_iff.mpr (.inl marked)
  · rw [front]
    simp [startReached, plain, untimed]

omit [DecidableEq T] in
theorem MovedBack.displaced {q : ExecutorQueue T τ} (moved : MovedBack w now q) :
    Displaced w now q := by
  obtain ⟨back, come⟩ := moved
  obtain ⟨x, inside, marked⟩ : ∃ x ∈ (q.survivors w now).takeWhile
      (fun e => !e.isAboveHorizon w (w.julian now)), x.due now = true := by
    simpa [unobservable, List.any_map, Function.comp_def, due, reported] using back
  have survives := (List.takeWhile_sublist _).subset inside
  obtain ⟨old, stays⟩ := List.mem_filter.mp survives
  have any : q.entries.any (due now) = true :=
    List.any_eq_true.mpr ⟨x, (sinceLast_suffix q.entries).subset old, marked⟩
  obtain ⟨before, d, rest, split, -, unmarked, since⟩ := sinceLast_eq_cons any
  rw [List.any_eq_false] at unmarked
  obtain rfl : x = d := by
    rw [since] at old
    rcases List.mem_cons.mp old with same | later
    · exact same
    · exact absurd marked (unmarked x later)
  have low : x.isAboveHorizon w (w.julian now) = false := by
    simpa using List.mem_takeWhile_imp inside
  have survivors : q.survivors w now = x :: rest.filter (remains w now) := by
    rw [survivors, since, List.filter_cons_of_pos stays]
  have idle : ∀ e ∈ rest, passed now e.t_start = false ∧ e.ended now = false := by
    intro e mem
    simpa [due, ended] using unmarked e mem
  cases parts : (rest.filter (remains w now)).dropWhile
      (fun e => !e.isAboveHorizon w (w.julian now)) with
  | nil => simp [observable, survivors, low, parts] at come
  | cons f later =>
    have whole := List.takeWhile_append_dropWhile (p := fun e => !e.isAboveHorizon w (w.julian now))
      (l := rest.filter (remains w now))
    rw [parts] at whole
    obtain ⟨passing, tail, here, lows, there⟩ := List.filter_eq_append_iff.mp whole.symm
    obtain ⟨gone, after, behind, leave, kept, -⟩ := List.filter_eq_cons_iff.mp there
    subst here behind
    have above := List.head?_dropWhile_not (fun e => !e.isAboveHorizon w (w.julian now))
      (((passing ++ (gone ++ f :: after))).filter (remains w now))
    rw [parts] at above
    have started : ∀ e ∈ passing ++ (gone ++ f :: after), e.remains w now = false →
        w.observationStarted e.target = true := by
      intro e mem leaves
      simpa [remains, (idle e mem).2] using leaves
    have fresh : w.observationStarted f.target = false := by
      simp only [remains, Bool.and_eq_true] at kept
      simpa using kept.2
    refine ⟨before, x, passing ++ gone, f, after, by rw [split, List.append_assoc], ⟨?_, stays, low⟩,
      ?_, ?_, fresh, by simpa using above, ?_⟩
    · simp only [remains, Bool.and_eq_true] at stays
      simp only [due, Bool.or_eq_true] at marked
      rcases marked with come | past
      · exact come
      · simp [ended, past] at stays
    · intro e mem
      rw [List.append_assoc] at mem
      simp [due, (idle e mem).1, show passed now e.t_end = false from (idle e mem).2]
    · intro e mem
      rcases List.mem_append.mp mem with mem | mem
      · cases stays : e.remains w now with
        | false => exact .inl (started e (List.mem_append_left _ mem) stays)
        | true =>
          have passed := List.mem_takeWhile_imp (lows ▸ List.mem_filter.mpr ⟨mem, stays⟩)
          exact .inr (by simpa using passed)
      · have leaves : e.remains w now = false := by simpa using leave e mem
        exact .inl (started e (List.mem_append_right _ (List.mem_append_left _ mem)) leaves)
    · have idleStart := (idle f (by simp)).1
      rw [observable, survivors] at come
      simp only [List.dropWhile_cons, low, Bool.not_false, if_true, parts] at come
      simpa [startReached, plain, idleStart] using come

/-- Filtering once more changes nothing, but when a due entry was displaced. -/
theorem filter_stable_iff (q : ExecutorQueue T τ) : Stable w now q ↔ ¬ Displaced w now q := by
  constructor
  · intro stable displaced
    exact not_stable_of_movedBack w now displaced.movedBack stable
  · intro inPlace
    have still : ¬ MovedBack w now q := fun moved => inPlace moved.displaced
    cases come : (observable w now (q.survivors w now)).head?.any (startReached now) with
    | false => exact stable_of_future w now come
    | true =>
      cases due_ : (unobservable w now (q.survivors w now)).any (due now) with
      | false => exact stable_of_front w now come due_
      | true => exact absurd ⟨due_, come⟩ still

def sampleTargets : Targets Nat Nat Nat where
  getTargetID t := t
  getTargetName _ := "target"
  observationStarted _ := false
  isAboveHorizon t _ := t ≠ 1
  julian now := now

def sampleQueue : ExecutorQueue Nat Nat where
  entries := [⟨1, 1, some 10, none, false⟩, ⟨2, 2, none, none, false⟩]
  currentTarget := none
  removed := []
  executed := []
  deleted := []

/-- At ten the first call answers that the second target can be observed, the second call takes it
out of the queue. -/
theorem filter_drops_front : ¬ Stable sampleTargets 10 sampleQueue := by
  unfold Stable
  decide

end ExecutorQueue

end Rts2.Plan
