import Rts2.Plan.Queue
import Rts2.Lib.SinceLast

/-! What the filter of the queue does with each entry: the passes in closed form, and that nothing
is lost on the way. -/
namespace Rts2.Plan

open Lib

variable {T τ δ : Type} [LinearOrder τ]

namespace QueuedTarget

def remains (w : Targets T τ δ) (now : τ) (e : QueuedTarget T τ) : Bool :=
  !e.ended now && !w.observationStarted e.target

def reported (e : QueuedTarget T τ) : QueuedTarget T τ := { e with unobservable_reported := true }

end QueuedTarget

open QueuedTarget

namespace ExecutorQueue

def removeAll [DecidableEq T] (w : Targets T τ δ) (reason : Removed) (q : ExecutorQueue T τ)
    (es : List (QueuedTarget T τ)) : ExecutorQueue T τ :=
  es.foldl (fun q e => q.removeEntry w e reason) q

def survivors (w : Targets T τ δ) (now : τ) (q : ExecutorQueue T τ) : List (QueuedTarget T τ) :=
  (sinceLast (due now) q.entries).filter (remains w now)

variable [DecidableEq T] (w : Targets T τ δ) (now : τ)

theorem removeBefore_eq (seen rest : List (QueuedTarget T τ)) (q : ExecutorQueue T τ)
    (none : seen.tail.any (due now) = false) :
    q.removeBefore w now seen rest =
      { q.removeAll w .nextNeeded (beforeLast (due now) (seen ++ rest)) with
        entries := sinceLast (due now) (seen ++ rest) } := by
  induction rest generalizing q seen with
  | nil =>
    rw [List.append_nil, (sinceLast_of_unmarked none).1, (sinceLast_of_unmarked none).2]
    rfl
  | cons e rest ih =>
    cases h : e.due now with
    | true =>
      rw [removeBefore, if_pos h, ih [e] _ rfl, sinceLast_append h, beforeLast_append h]
      simp [removeAll, List.foldl_append]
    | false =>
      have still : (seen ++ [e]).tail.any (due now) = false := by
        cases seen with
        | nil => rfl
        | cons a seen => simpa [h] using none
      rw [removeBefore, if_neg (by simp [h]), ih (seen ++ [e]) q still]
      simp

theorem removeExpired_entries (kept rest : List (QueuedTarget T τ)) (q : ExecutorQueue T τ) :
    (q.removeExpired w now kept rest).entries = kept ++ rest.filter (remains w now) := by
  induction rest generalizing q kept with
  | nil => simp [removeExpired]
  | cons e rest ih =>
    simp only [removeExpired]
    cases ended : e.ended now with
    | true => simp [ih, remains, ended]
    | false =>
      cases started : w.observationStarted e.target with
      | true => simp [ih, remains, ended, started]
      | false => simp [ih, remains, ended, started]

theorem removeExpired_filed (kept rest : List (QueuedTarget T τ)) (q : ExecutorQueue T τ) :
    (q.removeExpired w now kept rest).removed =
        q.removed ++ (rest.filter (ended now)).map (fun e => (e.filed w, .timesExpired)) ∧
      (q.removeExpired w now kept rest).executed =
        q.executed ++
          (rest.filter (fun e => !e.ended now && w.observationStarted e.target)).map (filed w) := by
  induction rest generalizing q kept with
  | nil => simp [removeExpired]
  | cons e rest ih =>
    simp only [removeExpired]
    cases ended : e.ended now with
    | true => simp [ih, ended, removeEntry, Removed.value]
    | false =>
      cases started : w.observationStarted e.target with
      | true => simp [ih, ended, started, removeEntry, Removed.value]
      | false => simp [ih, ended, started]

omit [LinearOrder τ] in
theorem removeAll_filed (es : List (QueuedTarget T τ)) (q : ExecutorQueue T τ) :
    (q.removeAll w .nextNeeded es).removed = q.removed ∧
      (q.removeAll w .nextNeeded es).executed = q.executed ++ es.map (filed w) := by
  induction es generalizing q with
  | nil => simp [removeAll]
  | cons e es ih =>
    have rest := ih (q.removeEntry w e .nextNeeded)
    simp only [removeAll, List.foldl_cons] at rest ⊢
    rw [rest.1, rest.2]
    simp [removeEntry, Removed.value]

theorem filterExpired_entries (q : ExecutorQueue T τ) :
    (q.filterExpired w now).entries = q.survivors w now := by
  rw [filterExpired, removeBefore_eq w now [] q.entries q rfl, removeExpired_entries]
  rfl

def expired (now : τ) (q : ExecutorQueue T τ) : List (QueuedTarget T τ) :=
  (sinceLast (due now) q.entries).filter (ended now)

def observed (w : Targets T τ δ) (now : τ) (q : ExecutorQueue T τ) : List (QueuedTarget T τ) :=
  beforeLast (due now) q.entries ++
    (sinceLast (due now) q.entries).filter
      (fun e => !e.ended now && w.observationStarted e.target)

theorem filterExpired_filed (q : ExecutorQueue T τ) :
    (q.filterExpired w now).removed =
        q.removed ++ (q.expired now).map (fun e => (e.filed w, .timesExpired)) ∧
      (q.filterExpired w now).executed = q.executed ++ (q.observed w now).map (filed w) := by
  have before := removeBefore_eq w now [] q.entries q rfl
  have taken := removeAll_filed w (beforeLast (due now) q.entries) q
  have filed := removeExpired_filed w now [] (sinceLast (due now) q.entries)
    (q.removeBefore w now [] q.entries)
  simp only [List.nil_append] at before
  simp only [filterExpired, before] at filed ⊢
  rw [filed.1, filed.2, taken.1, taken.2]
  simp [expired, observed]

omit [DecidableEq T] in
theorem survivors_perm (q : ExecutorQueue T τ) :
    (q.survivors w now ++ (q.expired now ++ q.observed w now)).Perm q.entries := by
  let since := sinceLast (due now) q.entries
  let going := since.filter (fun e => !e.ended now)
  have ends : (since.filter (ended now) ++ going).Perm since := List.filter_append_perm _ since
  have starts : (going.filter (fun e => w.observationStarted e.target) ++
      going.filter (fun e => !w.observationStarted e.target)).Perm going :=
    List.filter_append_perm _ going
  have kept : going.filter (fun e => !w.observationStarted e.target) = q.survivors w now := by
    simp only [going, List.filter_filter]
    exact List.filter_congr (fun e _ => Bool.and_comm _ _)
  have seen : q.observed w now = beforeLast (due now) q.entries ++
      going.filter (fun e => w.observationStarted e.target) := by
    simp only [going, List.filter_filter, observed, since]
    congr 1
    exact List.filter_congr (fun e _ => Bool.and_comm _ _)
  rw [kept] at starts
  have sorted : (q.survivors w now ++ (q.expired now ++ q.observed w now)).Perm
      (beforeLast (due now) q.entries ++ (since.filter (ended now) ++
        (going.filter (fun e => w.observationStarted e.target) ++ q.survivors w now))) := by
    rw [seen, expired, ← Multiset.coe_eq_coe]
    simp only [← Multiset.coe_add]
    abel
  have joined := (List.Perm.append_left (since.filter (ended now)) starts).trans ends
  have back := beforeLast_append_sinceLast (p := due now) q.entries
  exact back ▸ sorted.trans (List.Perm.append_left _ joined)

omit [DecidableEq T] in
theorem mem_survivors {q : ExecutorQueue T τ} {e : QueuedTarget T τ}
    (mem : e ∈ q.survivors w now) :
    e.ended now = false ∧ w.observationStarted e.target = false := by
  have remains := (List.mem_filter.mp mem).2
  simpa [QueuedTarget.remains] using remains

variable [LinearOrder δ]

/-- The entries before the first observable one, as filterUnobservable puts them back, and the
entries from it on. -/
def unobservable (w : Targets T τ δ) (now : τ) (l : List (QueuedTarget T τ)) :
    List (QueuedTarget T τ) :=
  (l.takeWhile (fun e => !e.isAboveHorizon w (w.julian now))).map reported

def observable (w : Targets T τ δ) (now : τ) (l : List (QueuedTarget T τ)) :
    List (QueuedTarget T τ) :=
  (l.dropWhile (fun e => !e.isAboveHorizon w (w.julian now))).modifyHead plain

omit [LinearOrder τ] [DecidableEq T] in
theorem skipUnobservable_eq {l : List (QueuedTarget T τ)}
    (fresh : ∀ e ∈ l, w.observationStarted e.target = false)
    (skipped : List (QueuedTarget T τ)) :
    skipUnobservable w (w.julian now) skipped l =
      (observable w now l, skipped ++ unobservable w now l) := by
  induction l generalizing skipped with
  | nil => simp [skipUnobservable, observable, unobservable]
  | cons e l ih =>
    have rest := ih (fun e mem => fresh e (List.mem_cons_of_mem _ mem))
    cases above : e.isAboveHorizon w (w.julian now) with
    | true => simp [skipUnobservable, observable, unobservable, above, plain]
    | false =>
      have idle := fresh e List.mem_cons_self
      simp only [skipUnobservable, above, idle, Bool.and_false, Bool.false_eq_true, if_false, rest]
      simp [observable, unobservable, above, reported]

theorem filter_eq (q : ExecutorQueue T τ) :
    q.filter w now =
      match observable w now (q.survivors w now) with
      | front :: rest =>
        if front.startReached now then
          ({ q.filterExpired w now with
              entries := front :: (unobservable w now (q.survivors w now) ++ rest) }, true)
        else
          ({ q.filterExpired w now with
              entries := unobservable w now (q.survivors w now) ++ front :: rest }, false)
      | [] => ({ q.filterExpired w now with
                  entries := unobservable w now (q.survivors w now) }, false) := by
  have skip := skipUnobservable_eq w now
    (fun e mem => (mem_survivors w now (q := q) mem).2) []
  rw [List.nil_append] at skip
  cases found : observable w now (q.survivors w now) with
  | nil => simp only [filter, filterUnobservable, filterExpired_entries, skip, found]
  | cons front rest => simp only [filter, filterUnobservable, filterExpired_entries, skip, found]

omit [LinearOrder τ] [DecidableEq T] in
theorem parts_plain (l : List (QueuedTarget T τ)) :
    (unobservable w now l ++ observable w now l).map plain = l.map plain := by
  induction l with
  | nil => rfl
  | cons e l ih =>
    cases above : e.isAboveHorizon w (w.julian now) with
    | true => simp [unobservable, observable, above]
    | false =>
      simp only [unobservable, observable, above, Bool.not_false, List.takeWhile_cons_of_pos,
        List.dropWhile_cons_of_pos, List.map_cons, List.cons_append] at ih ⊢
      rw [ih]
      rfl

omit [LinearOrder τ] [DecidableEq T] in
theorem unobservable_low {l : List (QueuedTarget T τ)} {e : QueuedTarget T τ}
    (mem : e ∈ unobservable w now l) : e.isAboveHorizon w (w.julian now) = false := by
  obtain ⟨x, inside, rfl⟩ := List.mem_map.mp mem
  have low := List.mem_takeWhile_imp inside
  have same : x.reported.isAboveHorizon w (w.julian now) = x.isAboveHorizon w (w.julian now) := rfl
  rw [same]
  simpa using low

omit [LinearOrder τ] [DecidableEq T] in
theorem observable_head {l : List (QueuedTarget T τ)} {front : QueuedTarget T τ}
    {rest : List (QueuedTarget T τ)} (is : observable w now l = front :: rest) :
    front.isAboveHorizon w (w.julian now) = true := by
  have first := List.head?_dropWhile_not (fun e => !e.isAboveHorizon w (w.julian now)) l
  cases parts : l.dropWhile (fun e => !e.isAboveHorizon w (w.julian now)) with
  | nil => simp [observable, parts] at is
  | cons e tail =>
    rw [observable, parts, List.modifyHead_cons] at is
    obtain ⟨rfl, rfl⟩ := List.cons.inj is
    rw [parts] at first
    simpa using first

theorem filter_parts (q : ExecutorQueue T τ) :
    let back := unobservable w now (q.survivors w now)
    let others := observable w now (q.survivors w now)
    ((q.filter w now).2 = others.head?.any (startReached now)) ∧
      (q.filter w now).1 = { q.filterExpired w now with
        entries := if others.head?.any (startReached now) then
          others.take 1 ++ back ++ others.drop 1 else back ++ others } := by
  intro back others
  rw [filter_eq]
  cases parts : observable w now (q.survivors w now) with
  | nil => simp [others, back, parts]
  | cons front rest =>
    cases reached : front.startReached now with
    | true => simp [others, back, parts, reached]
    | false => simp [others, back, parts, reached]

theorem filter_plain (q : ExecutorQueue T τ) :
    ((q.filter w now).1.entries.map plain).Perm ((q.survivors w now).map plain) := by
  obtain ⟨-, left⟩ := filter_parts w now q
  have stays : ((q.filter w now).1.entries).Perm
      (unobservable w now (q.survivors w now) ++ observable w now (q.survivors w now)) := by
    rw [left]
    split
    · have others := List.take_append_drop 1 (observable w now (q.survivors w now))
      calc List.Perm _ (unobservable w now (q.survivors w now) ++
            ((observable w now (q.survivors w now)).take 1 ++
              (observable w now (q.survivors w now)).drop 1)) := by
            rw [← List.append_assoc]
            exact List.perm_append_comm.append_right _
        _ = _ := by rw [others]
    · exact List.Perm.refl _
  exact parts_plain w now (q.survivors w now) ▸ stays.map plain

omit [DecidableEq T] in
theorem answer_iff (l : List (QueuedTarget T τ)) :
    (observable w now l).head?.any (startReached now) = true ↔
      ∃ front, (if (observable w now l).head?.any (startReached now) then
          (observable w now l).take 1 ++ unobservable w now l ++ (observable w now l).drop 1
        else unobservable w now l ++ observable w now l).head? = some front ∧
        front.isAboveHorizon w (w.julian now) = true ∧ front.startReached now = true := by
  constructor
  · intro answers
    rw [if_pos answers]
    cases parts : observable w now l with
    | nil => simp [parts] at answers
    | cons front rest =>
      have reached : front.startReached now = true := by simpa [parts] using answers
      exact ⟨front, rfl, observable_head w now parts, reached⟩
  · rintro ⟨front, first, above, reached⟩
    by_contra silent
    rw [if_neg silent] at first
    cases moved : unobservable w now l with
    | nil =>
      rw [moved, List.nil_append] at first
      simp [first, reached] at silent
    | cons e back =>
      rw [moved, List.cons_append, List.head?_cons, Option.some.injEq] at first
      have low := unobservable_low w now (moved ▸ List.mem_cons_self : e ∈ unobservable w now l)
      rw [first, above] at low
      exact Bool.noConfusion low

/-- Nothing is lost in the filter and nothing doubled, what ended or was started is gone, and so is
all before an entry whose time came; the two kinds of entries that stay keep their orders. -/
theorem filter_accounts (q : ExecutorQueue T τ) :
    (∃ gone seen : List (QueuedTarget T τ), (q.filter w now).1.removed =
          q.removed ++ gone.map (fun e => (e.filed w, Removed.timesExpired)) ∧
        (q.filter w now).1.executed = q.executed ++ seen.map (filed w) ∧
        ((q.filter w now).1.entries.map plain ++ (gone ++ seen).map plain).Perm
          (q.entries.map plain)) ∧
      (∀ e ∈ (q.filter w now).1.entries,
        e.ended now = false ∧ w.observationStarted e.target = false) ∧
      (∀ before e after, q.entries = before ++ e :: after → e.due now = true →
        ((q.filter w now).1.entries.map plain).Subperm ((e :: after).map plain)) ∧
      (∃ back others, ((back ++ others).map plain).Sublist (q.entries.map plain) ∧
        (∀ e ∈ back, e.isAboveHorizon w (w.julian now) = false) ∧
        (q.filter w now).1.entries = if (q.filter w now).2 then
          others.take 1 ++ back ++ others.drop 1 else back ++ others) ∧
      ((q.filter w now).2 = true ↔ ∃ front, (q.filter w now).1.entries.head? = some front ∧
        front.isAboveHorizon w (w.julian now) = true ∧ front.startReached now = true) := by
  obtain ⟨answer, left⟩ := filter_parts w now q
  have plains := parts_plain w now (q.survivors w now)
  have same := filter_plain w now q
  have cut : (q.survivors w now).Sublist (sinceLast (due now) q.entries) := List.filter_sublist
  refine ⟨?_, ?_, ?_, ?_, ?_⟩
  · refine ⟨q.expired now, q.observed w now, ?_, ?_, ?_⟩
    · rw [left]
      exact (filterExpired_filed w now q).1
    · rw [left]
      exact (filterExpired_filed w now q).2
    · have all := (survivors_perm w now q).map plain
      rw [List.map_append] at all
      exact (same.append_right _).trans all
  · intro e mem
    have inside : e.plain ∈ (q.survivors w now).map plain :=
      same.mem_iff.mp (List.mem_map_of_mem mem)
    obtain ⟨s, survives, is⟩ := List.mem_map.mp inside
    have kept := mem_survivors w now survives
    have t_end : s.plain.t_end = e.plain.t_end := by rw [is]
    have target : s.plain.target = e.plain.target := by rw [is]
    constructor
    · rw [← kept.1]
      exact congrArg (passed now) t_end.symm
    · rw [← kept.2]
      exact congrArg w.observationStarted target.symm
  · intro before e after split came
    have suffix := sinceLast_suffix_of_marked came before after
    rw [← split] at suffix
    exact same.subperm.trans ((cut.trans suffix.sublist).map plain).subperm
  · refine ⟨unobservable w now (q.survivors w now), observable w now (q.survivors w now), ?_,
      fun e mem => unobservable_low w now mem, ?_⟩
    · rw [plains]
      exact (cut.trans (sinceLast_suffix q.entries).sublist).map plain
    · rw [answer, left]
  · rw [answer, left]
    exact answer_iff w now _

end ExecutorQueue

end Rts2.Plan
