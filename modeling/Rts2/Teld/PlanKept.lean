import Rts2.Teld.PlanRuns
import Rts2.Lib.Run

/-! The D50 mount sets the targets of its latest plan only, in order and not too early, and a plan with targets left is
neither finished nor without its timer. -/
namespace Rts2.Teld

open Lib

variable {K : Type} [Field K] [LinearOrder K]

/-- The targets that were set are the first ones of the plan, each after its interval, which starts when the target before
it is set, or for the first interval later; none was set after the plan ended; and the HA drive was sent after the sky when
no target was left. -/
structure Executed.Right (e : Executed K) : Prop where
  order : e.sets.map (·.target) <+: e.plan.targets
  waited : ∀ k interval set, e.plan.intervals[k]? = some interval → e.sets[k + 1]? = some set →
    set.since + interval < set.at_
  since : ∀ k set next, e.sets[k + 1]? = some set → e.sets[k + 2]? = some next → next.since = set.at_
  late : e.late = []
  follows : e.follows ≠ [] → e.ended = true ∨ e.sets.length = e.plan.targets.length

def Resync.InLimits (lim : D50Limits K) (r : Resync K) : Prop :=
  ∀ p, r.found = some p → ∀ target ∈ p.val.targets.tail, lim.dcMin ≤ target.2 ∧ target.2 ≤ lim.dcMax

def MoveStart.InLimits (lim : D50Limits K) : MoveStart K → Prop
  | .resync _ r => r.InLimits lim
  | .refused | .unstopped | .inaccessible => True

def MountEvent.InLimits (lim : D50Limits K) : MountEvent K → Prop
  | .startResyncMove start | .startPark (.park start) | .checkMoves _ _ (some start) => start.InLimits lim
  | .startPark .refused | .startPark .unstopped | .startPark .nowhere | .stopMove | .checkMoves _ _ none
  | .boostspeed .. | .successivePoints _ => True

namespace Executed.Right

variable {e : Executed K}

theorem untouched (plan : Plan K) (ended : Bool) : (⟨plan, [], [], ended, []⟩ : Executed K).Right where
  order := List.nil_prefix
  waited := by
    intro k interval set _ none_
    cases none_
  since := by
    intro k set next none_
    cases none_
  late := rfl
  follows := fun some_ => absurd rfl some_

theorem ended (right : e.Right) : ({ e with ended := true } : Executed K).Right :=
  ⟨right.order, right.waited, right.since, right.late, fun _ => .inl rfl⟩

theorem followed (right : e.Right) (over_ : e.ended = true ∨ e.sets.length = e.plan.targets.length) (ac : Int) :
    ({ e with follows := e.follows ++ [ac] } : Executed K).Right :=
  ⟨right.order, right.waited, right.since, right.late, fun _ => over_⟩

theorem set (right : e.Right) (live : e.ended = false) {set : TargetSet K}
    (next : e.plan.targets[e.sets.length]? = some set.target)
    (waited : ∀ k interval, e.sets.length = k + 1 → e.plan.intervals[k]? = some interval →
      set.since + interval < set.at_)
    (since : ∀ k last, e.sets.length = k + 2 → e.sets[k + 1]? = some last → set.since = last.at_) :
    ({ e with sets := e.sets ++ [set] } : Executed K).Right where
  order := by
    obtain ⟨rest, all⟩ := right.order
    rw [← all, List.getElem?_append_right (by simp), List.length_map, Nat.sub_self] at next
    cases rest with
    | nil => cases next
    | cons first rest =>
      refine ⟨rest, ?_⟩
      have same : first = set.target := Option.some.inj next
      rw [← all, List.map_append, List.append_assoc, same]
      rfl
  waited := by
    intro k interval set' at_ found
    rcases Nat.lt_trichotomy (k + 1) e.sets.length with before | here | after
    · exact right.waited k interval set' at_ ((List.getElem?_append_left before).symm.trans found)
    · rw [here, List.getElem?_concat_length] at found
      cases found
      exact waited k interval here.symm at_
    · rw [List.getElem?_eq_none (by simp; omega)] at found
      cases found
  since := by
    intro k set' next' found foundNext
    rcases Nat.lt_trichotomy (k + 2) e.sets.length with before | here | after
    · rw [List.getElem?_append_left (by omega)] at found foundNext
      exact right.since k set' next' found foundNext
    · rw [List.getElem?_append_left (by omega)] at found
      rw [here, List.getElem?_concat_length] at foundNext
      cases foundNext
      exact since k set' here.symm found
    · rw [List.getElem?_eq_none (by simp; omega)] at foundNext
      cases foundNext
  late := right.late
  follows := by
    intro some_
    rcases right.follows some_ with ended | whole
    · rw [live] at ended
      cases ended
    · rw [whole, List.getElem?_length] at next
      cases next

end Executed.Right

namespace D50

variable (lim : D50Limits K) (s : D50 K) (now : K)

structure Carries [FloorRing K] : Prop where
  right : ∀ e ∈ s.current :: s.past, e.Right
  unfinished : s.current.ended = false → s.current.sets.length < s.current.plan.targets.length →
    (∀ now status, (s.isMoving lim now status).2 ≠ .ended true) ∧
      ∃ timer ∈ s.timers, timer.event = .SUCCESSIVE_POINTS ∨
        timer.event = .BOOSTSPEED ∧ (s.moving = .moving ∨ s.moving = .parking)

/-- The timer of a plan: none when its last target is set, the one of the backlash after its first target, or the one that
sets the next target. -/
inductive Timed : Prop where
  | whole (timers : s.timers = []) (last : s.successivePointsActualPosition = s.numberOfSuccesivePoints)
  | backlash (timer : D50Timer K) (timers : s.timers = [timer]) (event : timer.event = .BOOSTSPEED)
      (first : s.successivePointsActualPosition = 0)
  | next (timer : D50Timer K) (timers : s.timers = [timer]) (event : timer.event = .SUCCESSIVE_POINTS)
      (left : s.successivePointsActualPosition < s.numberOfSuccesivePoints)
      (due : timer.due = timer.since + s.successivePointsIntervals s.successivePointsActualPosition)
      (since : ∀ k last, s.successivePointsActualPosition = k + 1 →
        s.current.sets[k + 1]? = some last → timer.since = last.at_)

/-- A plan is carried out. -/
structure Live : Prop where
  slews : s.moving = .moving ∨ s.moving = .parking
  wellFormed : s.current.plan.WellFormed
  number : s.numberOfSuccesivePoints = s.current.plan.intervals.length
  points : ∀ k, k ≤ s.numberOfSuccesivePoints → s.current.plan.targets[k]? = some (s.successivePoints k)
  intervals : ∀ k, k < s.numberOfSuccesivePoints →
    s.current.plan.intervals[k]? = some (s.successivePointsIntervals k)
  limits : ∀ k, k ≤ s.numberOfSuccesivePoints → lim.dcMin ≤ (s.successivePoints k).2 ∧ (s.successivePoints k).2 ≤ lim.dcMax
  least : s.successivePointsActualPosition ≤ s.numberOfSuccesivePoints
  sets : s.current.sets.length = s.successivePointsActualPosition + 1
  timed : s.Timed

def Idle : Prop :=
  s.timers = [] ∨ s.numberOfSuccesivePoints = 0 ∧ ∃ timer, s.timers = [timer] ∧ timer.event = .BOOSTSPEED

structure Inv : Prop where
  right : ∀ e ∈ s.current :: s.past, e.Right
  idle : s.current.ended = true → s.Idle
  live : s.current.ended = false → s.Live lim

variable {lim s}

theorem Live.carries [FloorRing K] (live : s.Live lim)
    (left : s.current.sets.length < s.current.plan.targets.length) :
    (∀ now status, (s.isMoving lim now status).2 ≠ .ended true) ∧
      ∃ timer ∈ s.timers, timer.event = .SUCCESSIVE_POINTS ∨
        timer.event = .BOOSTSPEED ∧ (s.moving = .moving ∨ s.moving = .parking) := by
  have more : s.successivePointsActualPosition < s.numberOfSuccesivePoints := by
    have number := live.number
    have sets := live.sets
    have wellFormed := live.wellFormed
    unfold Plan.WellFormed at wellFormed
    omega
  constructor
  · intro now status
    unfold isMoving
    simp only [more, more.ne, and_false, if_false, true_or, if_true]
    split <;> simp
  · cases live.timed with
    | whole _ last => exact absurd last more.ne
    | backlash timer timers event _ => exact ⟨timer, by rw [timers]; simp, .inr ⟨event, live.slews⟩⟩
    | next timer timers event => exact ⟨timer, by rw [timers]; simp, .inl event⟩

theorem Inv.carries [FloorRing K] (inv : s.Inv lim) : s.Carries lim :=
  ⟨inv.right, fun live left => (inv.live live).carries left⟩

theorem init_inv : (init (K := K)).Inv lim := by
  refine ⟨?_, fun _ => .inl rfl, fun live => ?_⟩
  · intro e mem
    rw [List.mem_singleton.mp mem]
    exact .untouched _ true
  · cases live

structure Quiet (s : D50 K) : Prop where
  right : ∀ e ∈ s.current :: s.past, e.Right
  ended : s.current.ended = true
  timers : s.timers = []

theorem Quiet.inv (quiet : s.Quiet) : s.Inv lim := by
  refine ⟨quiet.right, fun _ => .inl quiet.timers, fun live => ?_⟩
  rw [quiet.ended] at live
  cases live

theorem Quiet.at_ (quiet : s.Quiet) (moves : Moving) (corrects : Bool) :
    ({ s with moving := moves, correcting := corrects } : D50 K).Quiet :=
  ⟨quiet.right, quiet.ended, quiet.timers⟩

theorem endPlan_right (right : ∀ e ∈ s.current :: s.past, e.Right) :
    ∀ e ∈ s.endPlan.current :: s.endPlan.past, e.Right := by
  intro e mem
  rcases List.mem_cons.mp mem with rfl | past
  · exact (right s.current (by simp)).ended
  · exact right e (List.mem_cons_of_mem _ past)

omit [Field K] [LinearOrder K] in
theorem no_timers (timers : List (D50Timer K)) :
    (timers.filter (·.event ≠ .BOOSTSPEED)).filter (·.event ≠ .SUCCESSIVE_POINTS) = [] := by
  rw [List.filter_filter, List.filter_eq_nil_iff]
  intro timer _
  cases timer.event <;> simp

theorem cancelPath_quiet (right : ∀ e ∈ s.current :: s.past, e.Right) : s.cancelPath.Quiet :=
  ⟨endPlan_right right, rfl, no_timers _⟩

theorem Inv.cancelPath (inv : s.Inv lim) : s.cancelPath.Quiet := cancelPath_quiet inv.right

theorem Inv.endMove (inv : s.Inv lim) : s.endMove.Quiet :=
  ⟨endPlan_right inv.right, rfl, no_timers _⟩

theorem failMove_quiet (right : ∀ e ∈ s.current :: s.past, e.Right) : s.failMove.Quiet :=
  (cancelPath_quiet right).at_ _ _

omit [LinearOrder K] in
theorem crossBacklash_eq (r : Resync K) :
    ∃ timer start, s.crossBacklash now r =
        { s with timers := s.timers ++ [timer], backlashCrossEncoderStart := start } ∧
      timer.event = .BOOSTSPEED := by
  unfold crossBacklash addTimer
  split
  · split
    · exact ⟨_, _, rfl, rfl⟩
    · exact ⟨_, _, rfl, rfl⟩
  · exact ⟨_, _, rfl, rfl⟩

theorem accepted_inv (quiet : s.Quiet) (slews : s.moving = .moving) (p : FoundPlan K) (r : Resync K)
    (limits : ∀ target ∈ p.val.targets.tail, lim.dcMin ≤ target.2 ∧ target.2 ≤ lim.dcMax)
    (first : lim.dcMin ≤ ((s.findPath p).successivePoints 0).2 ∧ ((s.findPath p).successivePoints 0).2 ≤ lim.dcMax) :
    ((((s.findPath p).acceptPlan p.val).crossBacklash now r).setTargetPos
      ⟨(s.findPath p).successivePoints 0, now, now⟩).Inv lim := by
  obtain ⟨timer, start, crossed, event⟩ := crossBacklash_eq (s := (s.findPath p).acceptPlan p.val) now r
  have wellFormed : p.val.targets.length = p.val.intervals.length + 1 := p.property
  have target : ∀ k, k ≤ p.val.intervals.length →
      p.val.targets[k]? = some ((s.findPath p).successivePoints k) := by
    intro k least
    rw [List.getElem?_eq_getElem (by omega)]
    simp [findPath, List.getD_eq_getElem?_getD, show k < p.val.targets.length by omega]
  rw [crossed]
  refine ⟨?_, fun over_ => ?_, fun _ => ?_⟩
  · intro e mem
    rcases List.mem_cons.mp mem with rfl | past
    · refine (Executed.Right.untouched p.val false).set rfl (target 0 (Nat.zero_le _)) ?_ ?_
      · intro k interval none_
        cases none_
      · intro k last none_
        cases none_
    · rcases List.mem_append.mp past with past | last
      · exact quiet.right e (List.mem_cons_of_mem _ past)
      · rw [List.mem_singleton.mp last]
        exact quiet.right _ (by simp [findPath])
  · cases over_
  · exact {
      slews := .inl slews
      wellFormed := p.property
      number := rfl
      points := target
      intervals := by
        intro k least
        change k < p.val.intervals.length at least
        change p.val.intervals[k]? = some (p.val.intervals.getD k _)
        rw [List.getElem?_eq_getElem least]
        simp [List.getD_eq_getElem?_getD, least]
      limits := by
        intro k least
        cases k with
        | zero => exact first
        | succ k =>
          refine limits _ (List.mem_of_getElem? (i := k) ?_)
          rw [List.getElem?_tail]
          exact target (k + 1) least
      least := Nat.zero_le _
      sets := rfl
      timed := .backlash timer (by
        change s.timers ++ [timer] = [timer]
        rw [quiet.timers]
        rfl) event rfl }

theorem startResync_inv (inv : s.Inv lim) (slews : s.moving = .moving) {r : Resync K} (limits : r.InLimits lim) :
    ((s.startResync lim now r).2 = true → (s.startResync lim now r).1.Inv lim) ∧
      ((s.startResync lim now r).2 = false → (s.startResync lim now r).1.Quiet) := by
  have quiet := inv.cancelPath
  unfold startResync
  cases r.allowed with
  | false => exact ⟨fun accepted => (Bool.false_ne_true accepted).elim, fun _ => quiet⟩
  | true =>
    cases found : r.found with
    | none => exact ⟨fun accepted => (Bool.false_ne_true accepted).elim, fun _ => quiet⟩
    | some p =>
      rw [Bool.not_true, if_neg Bool.false_ne_true]
      dsimp only
      split
      · exact ⟨fun accepted => (Bool.false_ne_true accepted).elim, fun _ => ⟨quiet.right, quiet.ended, quiet.timers⟩⟩
      · rename_i within
        simp only [not_or, not_lt] at within
        exact ⟨fun _ => accepted_inv now quiet slews p r (limits p found) within,
          fun refused => (Bool.false_ne_true refused.symm).elim⟩

theorem Inv.slewing (inv : s.Inv lim) {moves : Moving} (slews : moves = .moving ∨ moves = .parking) (corrects : Bool) :
    ({ s with moving := moves, correcting := corrects } : D50 K).Inv lim := by
  refine ⟨inv.right, inv.idle, fun live => ?_⟩
  obtain ⟨_, wellFormed, number, points, intervals, limits, least, sets, timed⟩ := inv.live live
  refine ⟨slews, wellFormed, number, points, intervals, limits, least, sets, ?_⟩
  cases timed with
  | whole timers last => exact .whole timers last
  | backlash timer timers event first => exact .backlash timer timers event first
  | next timer timers event left due since => exact .next timer timers event left due since

theorem startResyncMove_inv (inv : s.Inv lim) {start : MoveStart K} (limits : start.InLimits lim) :
    (s.startResyncMove lim now start).1.Inv lim := by
  have stopped : (if s.moving = .moving ∨ s.correcting then s.stopMove else s).Inv lim := by
    split
    · exact inv.cancelPath.inv
    · exact inv
  unfold startResyncMove
  split
  · exact inv
  · cases start with
    | refused => exact inv
    | unstopped => exact stopped
    | inaccessible => exact (failMove_quiet stopped.right).inv
    | resync correction r =>
      have resynced := startResync_inv now (stopped.slewing (.inl rfl) correction) rfl limits
      dsimp only
      split
      · rename_i s' resync
        rw [resync] at resynced
        exact resynced.1 rfl
      · rename_i s' resync
        rw [resync] at resynced
        exact (failMove_quiet (resynced.2 rfl).right).inv

theorem startPark_inv (inv : s.Inv lim) {start : ParkStart K}
    (limits : ∀ move, start = .park move → move.InLimits lim) : (s.startPark lim now start).Inv lim := by
  have stopped : (if s.moving = .moving then s.stopMove else s).Inv lim := by
    split
    · exact inv.cancelPath.inv
    · exact inv
  unfold startPark
  split
  · exact inv
  · cases start with
    | refused => exact inv
    | unstopped => exact stopped
    | nowhere => exact stopped.cancelPath.inv
    | park move =>
      have moved : ((if s.moving = .moving then s.stopMove else s).stopMove.startResyncMove lim now move).1.Inv lim :=
        startResyncMove_inv now stopped.cancelPath.inv (limits move rfl)
      dsimp only
      split
      · rename_i s' started
        rw [started] at moved
        exact moved.slewing (.inr rfl) _
      · rename_i s' started
        rw [started] at moved
        exact moved

theorem isMoving_cases [FloorRing K] (status : DriveStatus K) :
    ((s.isMoving lim now status).1 = s ∧ (s.isMoving lim now status).2 ≠ .failed) ∨
      s.successivePointsActualPosition = s.numberOfSuccesivePoints ∧
        ((s.isMoving lim now status).1 = s ∨ ∃ ac, (s.isMoving lim now status).1 =
          { s with tAc := ac, current := { s.current with follows := s.current.follows ++ [ac] } }) := by
  by_cases last : s.successivePointsActualPosition = s.numberOfSuccesivePoints
  · refine .inr ⟨last, ?_⟩
    unfold isMoving
    dsimp only
    split
    · split
      · split
        · exact .inl rfl
        · split
          · exact .inr ⟨_, rfl⟩
          · exact .inl rfl
      · exact .inl rfl
    · exact .inl rfl
  · left
    unfold isMoving
    simp only [last, and_false, if_false]
    refine ⟨trivial, ?_⟩
    split_ifs <;> simp

theorem isMoving_inv [FloorRing K] (inv : s.Inv lim) (status : DriveStatus K) :
    (s.isMoving lim now status).1.Inv lim := by
  rcases isMoving_cases (s := s) now status with ⟨same, _⟩ | ⟨last, same | ⟨ac, sent⟩⟩
  · rw [same]
    exact inv
  · rw [same]
    exact inv
  · rw [sent]
    refine ⟨?_, inv.idle, fun live => ?_⟩
    · intro e mem
      rcases List.mem_cons.mp mem with rfl | past
      · refine (inv.right s.current (by simp)).followed ?_ ac
        cases live : s.current.ended with
        | true => exact .inl rfl
        | false =>
          have plan := inv.live live
          have wellFormed : s.current.plan.targets.length = s.current.plan.intervals.length + 1 := plan.wellFormed
          right
          rw [plan.sets, last, plan.number, wellFormed]
      · exact inv.right e (List.mem_cons_of_mem _ past)
    · obtain ⟨slews, wellFormed, number, points, intervals, limits, least, sets, timed⟩ := inv.live live
      refine ⟨slews, wellFormed, number, points, intervals, limits, least, sets, ?_⟩
      cases timed with
      | whole timers last => exact .whole timers last
      | backlash timer timers event first => exact .backlash timer timers event first
      | next timer timers event left due since => exact .next timer timers event left due since

theorem Inv.rest (inv : s.Inv lim) (ended : s.current.ended = true) (moves : Moving) (corrects : Bool) :
    ({ s with moving := moves, correcting := corrects } : D50 K).Inv lim := by
  refine ⟨inv.right, inv.idle, fun live => ?_⟩
  rw [ended] at live
  cases live

theorem Inv.failed (inv : s.Inv lim) (last : s.successivePointsActualPosition = s.numberOfSuccesivePoints) :
    s.endPlan.Inv lim := by
  refine ⟨endPlan_right inv.right, fun _ => ?_, fun live => nomatch live⟩
  cases live : s.current.ended with
  | true => exact inv.idle live
  | false =>
    cases (inv.live live).timed with
    | whole timers _ => exact .inl timers
    | backlash timer timers event first => exact .inr ⟨last.symm.trans first, timer, timers, event⟩
    | next _ _ _ left => exact absurd last left.ne

theorem isMoving_failed [FloorRing K] {status : DriveStatus K} {s' : D50 K}
    (polled : s.isMoving lim now status = (s', .failed)) :
    s'.successivePointsActualPosition = s'.numberOfSuccesivePoints := by
  rcases isMoving_cases (s := s) now status with ⟨_, not_⟩ | ⟨last, same | ⟨ac, sent⟩⟩
  · rw [polled] at not_
    exact absurd rfl not_
  · rw [polled] at same
    rw [show s' = s from same]
    exact last
  · rw [polled] at sent
    rw [show s' = _ from sent]
    exact last

theorem checkMoves_inv [FloorRing K] (inv : s.Inv lim) (status : DriveStatus K) (done : Bool)
    {correction : Option (MoveStart K)} (limits : ∀ start, correction = some start → start.InLimits lim) :
    (s.checkMoves lim now status done correction).Inv lim := by
  have polls := isMoving_inv now inv status
  unfold checkMoves
  cases s.moving with
  | observing | parked => exact inv
  | moving =>
    dsimp only
    split
    · rename_i s' polled
      rw [polled] at polls
      exact polls
    · rename_i s' polled
      rw [polled] at polls
      exact (polls.failed (isMoving_failed now polled)).rest rfl _ _
    · rename_i s' ok polled
      rw [polled] at polls
      split
      · rename_i start
        exact startResyncMove_inv now polls.endMove.inv (limits start rfl)
      · exact (polls.endMove.at_ _ _).inv
  | parking =>
    dsimp only
    split
    · rename_i s' polled
      rw [polled] at polls
      exact polls
    · rename_i s' polled
      rw [polled] at polls
      exact (polls.failed (isMoving_failed now polled)).rest rfl _ _
    · rename_i s' ok polled
      rw [polled] at polls
      exact (polls.endMove.at_ _ _).inv

theorem Inv.only (inv : s.Inv lim) {timer : D50Timer K} (mem : timer ∈ s.timers) : s.timers = [timer] := by
  have alone : ∀ other, s.timers = [other] → s.timers = [timer] := by
    intro other timers
    rw [timers] at mem
    rw [timers, List.mem_singleton.mp mem]
  have some_ : s.timers ≠ [] := List.ne_nil_of_mem mem
  cases live : s.current.ended with
  | true =>
    rcases inv.idle live with none_ | ⟨_, other, timers, _⟩
    · exact absurd none_ some_
    · exact alone other timers
  | false =>
    cases (inv.live live).timed with
    | whole timers _ => exact absurd timers some_
    | backlash other timers => exact alone other timers
    | next other timers => exact alone other timers

theorem boostspeed_inv (inv : s.Inv lim) {timer : D50Timer K} (mem : timer ∈ s.timers)
    (event : timer.event = .BOOSTSPEED) (b : Backlash) :
    (({ s with timers := s.timers.erase timer } : D50 K).boostspeed now b).Inv lim := by
  have only := inv.only mem
  have none_ : s.timers.erase timer = [] := by simp [only]
  rw [none_]
  unfold boostspeed
  cases live : s.current.ended with
  | true =>
    have number : s.numberOfSuccesivePoints = 0 := by
      rcases inv.idle live with gone | ⟨number, _⟩
      · rw [only] at gone
        cases gone
      · exact number
    have not_ : ¬s.current.ended = false := by simp [live]
    have still : ({ s with timers := [] } : D50 K).Inv lim :=
      ⟨inv.right, fun _ => .inl rfl, fun live => absurd live not_⟩
    split
    · split
      · exact ⟨inv.right, fun _ => .inr ⟨number, _, rfl, rfl⟩, fun live => absurd live not_⟩
      · rw [if_neg (by simp [number])]
        exact still
    · exact still
  | false =>
    obtain ⟨slews, wellFormed, number, points, intervals, limits, least, sets, timed⟩ := inv.live live
    have not_ : ¬s.current.ended = true := by simp [live]
    have first : s.successivePointsActualPosition = 0 := by
      cases timed with
      | whole gone => simp [only] at gone
      | backlash _ _ _ first => exact first
      | next other timers sets =>
        have same : timer = other := by simpa [only] using timers
        rw [same, sets] at event
        cases event
    rw [if_pos slews]
    split
    · exact ⟨inv.right, fun ended => absurd ended not_, fun _ => ⟨slews, wellFormed, number, points, intervals, limits,
        least, sets, .backlash _ rfl rfl first⟩⟩
    · split
      · rename_i left
        refine ⟨inv.right, fun ended => absurd ended not_, fun _ => ⟨slews, wellFormed, number, points, intervals, limits,
          least, sets, .next _ rfl rfl (first.trans_lt left) ?_ ?_⟩⟩
        · exact congrArg (now + s.successivePointsIntervals ·) first.symm
        · intro k last more
          exact absurd (first.symm.trans more) (by simp)
      · rename_i none_
        refine ⟨inv.right, fun ended => absurd ended not_, fun _ => ⟨slews, wellFormed, number, points, intervals, limits,
          least, sets, .whole rfl ?_⟩⟩
        have zero : s.numberOfSuccesivePoints = 0 := Nat.eq_zero_of_not_pos none_
        exact first.trans zero.symm

omit [LinearOrder K] [Field K] in
theorem setTargetPos_live (live : s.current.ended = false) (set : TargetSet K) :
    s.setTargetPos set = { s with
      tAc := set.target.1
      lastTargetSet := set.at_
      current := { s.current with sets := s.current.sets ++ [set] } } := by
  unfold setTargetPos
  dsimp only
  rw [if_neg (by simp [live])]

theorem nextSuccessivePoint_inv (inv : s.Inv lim) {timer : D50Timer K} (mem : timer ∈ s.timers)
    (event : timer.event = .SUCCESSIVE_POINTS) (due : timer.due < now) :
    (({ s with timers := s.timers.erase timer } : D50 K).nextSuccessivePoint lim now timer.since).Inv lim := by
  have only := inv.only mem
  have none_ : s.timers.erase timer = [] := by simp [only]
  rw [none_]
  cases live : s.current.ended with
  | true =>
    rcases inv.idle live with gone | ⟨_, other, timers, boosts⟩
    · rw [only] at gone
      cases gone
    · have same : timer = other := by simpa [only] using timers
      rw [same, boosts] at event
      cases event
  | false =>
    obtain ⟨slews, wellFormed, number, points, intervals, limits, least, sets, timed⟩ := inv.live live
    have not_ : ¬s.current.ended = true := by simp [live]
    cases timed with
    | whole gone => simp [only] at gone
    | backlash other timers boosts =>
      have same : timer = other := by simpa [only] using timers
      rw [same, boosts] at event
      cases event
    | next other timers _ left waits since =>
      have same : timer = other := by simpa [only] using timers
      subst same
      have within := limits _ left
      have right : ({ s.current with sets := s.current.sets ++
          [⟨s.successivePoints (s.successivePointsActualPosition + 1), timer.since, now⟩] } : Executed K).Right := by
        refine (inv.right s.current (by simp)).set live ?_ ?_ ?_
        · rw [sets]
          exact points _ left
        · intro k interval length at_
          have here : s.successivePointsActualPosition = k := by omega
          rw [← here, intervals _ left] at at_
          rw [← Option.some.inj at_, ← waits]
          exact due
        · intro k last length found
          exact since k last (by omega) found
      have all : ∀ e ∈ { s.current with sets := s.current.sets ++
          [⟨s.successivePoints (s.successivePointsActualPosition + 1), timer.since, now⟩] } :: s.past, e.Right := by
        intro e mem
        rcases List.mem_cons.mp mem with rfl | past
        · exact right
        · exact inv.right e (List.mem_cons_of_mem _ past)
      unfold nextSuccessivePoint
      dsimp only
      rw [if_neg (by simpa using within), setTargetPos_live (s := { s with
        successivePointsActualPosition := s.successivePointsActualPosition + 1, timers := [] }) live]
      split
      · rename_i more
        refine ⟨all, fun ended => absurd ended not_, fun _ => ⟨slews, wellFormed, number, points, intervals, limits,
          left, ?_, .next _ rfl rfl more rfl ?_⟩⟩
        · simp [addTimer, sets]
        · intro k last here found
          have index : k + 1 = s.current.sets.length := by
            rw [sets]
            exact here.symm
          change (s.current.sets ++ [_])[k + 1]? = some last at found
          rw [index, List.getElem?_concat_length] at found
          rw [← Option.some.inj found]
      · rename_i last
        refine ⟨all, fun ended => absurd ended not_, fun _ => ⟨slews, wellFormed, number, points, intervals, limits,
          left, ?_, .whole rfl (le_antisymm left (not_lt.mp last))⟩⟩
        simp [sets]

theorem step_inv [FloorRing K] (inv : s.Inv lim) {e : MountEvent K} (limits : e.InLimits lim) :
    (s.step lim now e).Inv lim := by
  cases e with
  | startResyncMove start => exact startResyncMove_inv now inv limits
  | startPark start =>
    refine startPark_inv now inv ?_
    rintro move rfl
    exact limits
  | stopMove => exact inv.cancelPath.inv
  | checkMoves status done correction =>
    refine checkMoves_inv now inv status done ?_
    rintro start rfl
    exact limits
  | boostspeed timer b =>
    simp only [step]
    split
    · rename_i given
      exact boostspeed_inv now inv given.1 given.2.1 b
    · exact inv
  | successivePoints timer =>
    simp only [step]
    split
    · rename_i given
      exact nextSuccessivePoint_inv now inv given.1 given.2.1 given.2.2
    · exact inv

/-- The plans of every run are carried out as promised, where the targets after the first are within the Dec limits. -/
theorem after_carries [FloorRing K] (lim : D50Limits K) (es : List (K × MountEvent K))
    (limits : ∀ e ∈ es, e.2.InLimits lim) : (after lim es).Carries lim := by
  have kept : (after lim es).Inv lim := by
    refine run_invariant _ (fun _ e => e.2.InLimits lim) (fun s => s.Inv lim) ?_ init es init_inv
      (guarded_of_forall limits init)
    intro s e inv within
    exact step_inv e.1 inv within
  exact kept.carries

def narrow : D50Limits ℚ := ⟨1, 0, 10⟩

def sent : MountEvent ℚ :=
  .startResyncMove (.resync false ⟨true, some ⟨⟨[(5, 5)], []⟩, rfl⟩, false, none, 1⟩)

def sentOver (dc : Int) : MountEvent ℚ :=
  .startResyncMove (.resync false ⟨true, some ⟨⟨[(5, 5), (5, dc)], [1]⟩, rfl⟩, false, none, 1⟩)

def behind : DriveStatus ℚ := ⟨true, true, true, true, false, some (8, 5), 1⟩

def standing : DriveStatus ℚ := ⟨false, false, false, false, false, none, 1⟩

def crossed : MountEvent ℚ := .boostspeed ⟨1, .BOOSTSPEED, 0⟩ ⟨false, none, 0, true, true⟩

theorem after_carries_two :
    (after narrow [(0, sentOver 6), (2, crossed), (4, .successivePoints ⟨3, .SUCCESSIVE_POINTS, 2⟩)]).Carries narrow :=
  after_carries narrow _ (by
    intro e mem
    simp only [List.mem_cons, List.not_mem_nil, or_false] at mem
    rcases mem with rfl | rfl | rfl
    · rintro p found target mem
      cases found
      rw [List.mem_singleton.mp mem]
      decide
    · trivial
    · trivial)

/-- The HA drive is sent after the sky, which is no target of the plan; and a target beyond the limit is left out when its
timer comes, the move then finishes without it. -/
theorem follows_and_finishes :
    ((after narrow [(0, sent), (1, .checkMoves behind true none)]).current.ended = false ∧
        (after narrow [(0, sent), (1, .checkMoves behind true none)]).current.follows = [8] ∧
        (after narrow [(0, sent), (1, .checkMoves behind true none)]).current.plan.targets = [(5, 5)]) ∧
      let late := after narrow [(0, sentOver 12), (2, crossed), (4, .successivePoints ⟨3, .SUCCESSIVE_POINTS, 2⟩)]
      late.current.ended = false ∧ late.current.sets.map (·.target) = [(5, 5)] ∧
        late.current.plan.targets = [(5, 5), (5, 12)] ∧ late.timers = [] ∧
        (late.isMoving narrow 5 standing).2 = .ended true := by
  decide +kernel

end D50

end Rts2.Teld
