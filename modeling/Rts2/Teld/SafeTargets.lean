import Rts2.Teld.GridSearch

/-! The way of the D50 mount to its target: successive targets, each of them safe, so that the mount is
safe also when the next one is never set. -/
namespace Rts2.Teld

open Lib

/-- What a movement of one axis takes in milliseconds, where it is and how fast it goes after a time,
from its start with a speed; the axis is Dec or HA. -/
structure Movement (K : Type) where
  time (isDec : Bool) (fromCount toCount : Int) (v0 : K) : Int
  position (isDec : Bool) (fromCount toCount : Int) (v0 inspectionTime : K) : Int
  speed (isDec : Bool) (fromCount toCount : Int) (v0 inspectionTime : K) : K

/-- The mount and the sky over it. `good` is above the horizon and, if it is checked, below the
ceiling; the distance of the Sun is none where it is not avoided; `margin` is the time in which no limit
can be reached. -/
structure D50Path (K : Type) where
  movement : Movement K
  decel : Bool → K
  good : Int → Int → Bool
  sunDistance : Int → Int → Option K
  margin : Int → Int → Option K → K
  haCpd : K
  decCpd : K
  acMin : Int
  acMax : Int
  dcMin : Int
  dcMax : Int

structure Switch (K : Type) where
  ac : Int
  dc : Int
  vac : K
  vdc : K

structure Plan (K : Type) where
  targets : List (Int × Int)
  intervals : List K
deriving DecidableEq

def MAX_NUMBER_OF_SUCCESSIVE_POINTS : Nat := 20
def FINDPATH_MIN_STEP_SIZE : Int := 5

namespace D50Path

variable {K : Type} [Field K] [LinearOrder K]

def CHECKPASSAGE_FINE_RESOLUTION : K := 1 / 200
def SUN_AVOID_DISTANCE : K := (15 : ℕ)
def SUN_ESCAPE_ROUNDING : K := 1 / 100000

def closer (sunDist : Option K) (distance : K) : Bool := sunDist.any (· < distance)

variable (p : D50Path K)

def checkRawPosition (AC DC : Int) : Bool :=
  p.good AC DC && !closer (p.sunDistance AC DC) SUN_AVOID_DISTANCE

def safeStep (AC DC : Int) (sunDist : Option K) : K :=
  max (p.margin AC DC sunDist) CHECKPASSAGE_FINE_RESOLUTION

def computeFullMovementTime (s : Switch K) (toAC toDC : Int) : K :=
  max ((p.movement.time false s.ac toAC s.vac : K) / (1000 : ℕ)) ((p.movement.time true s.dc toDC s.vdc : K) / (1000 : ℕ))

def positionAt (s : Switch K) (toAC toDC : Int) (t : K) : Int × Int :=
  (p.movement.position false s.ac toAC s.vac t, p.movement.position true s.dc toDC s.vdc t)

def samples (s : Switch K) (toAC toDC : Int) : Nat → K → Option K → Bool → K
  | 0, inspectionTime, _, _ => -inspectionTime
  | fuel + 1, inspectionTime, previous, escaping =>
    let full := p.computeFullMovementTime s toAC toDC
    let inspectionTime := min inspectionTime full
    let (posAC, posDC) := p.positionAt s toAC toDC inspectionTime
    let sunDist := p.sunDistance posAC posDC
    if !p.good posAC posDC then -inspectionTime
    else if escaping && previous.any fun previous => closer sunDist (previous - SUN_ESCAPE_ROUNDING) then
      -inspectionTime
    else if !escaping && closer sunDist SUN_AVOID_DISTANCE then -inspectionTime
    else
      let escaping := escaping && closer sunDist SUN_AVOID_DISTANCE
      if inspectionTime = full then if escaping then -full else full
      else
        let dt := if escaping then CHECKPASSAGE_FINE_RESOLUTION else p.safeStep posAC posDC sunDist
        samples s toAC toDC fuel (inspectionTime + dt) sunDist escaping

def sampleCount (s : Switch K) (toAC toDC : Int) : Nat :=
  (max (p.movement.time false s.ac toAC s.vac) (p.movement.time true s.dc toDC s.vdc)).toNat / 5 + 1

def checkPassage (s : Switch K) (toAC toDC : Int) : K :=
  let previous := p.sunDistance s.ac s.dc
  let escaping := closer previous SUN_AVOID_DISTANCE
  let dt := if escaping then CHECKPASSAGE_FINE_RESOLUTION else p.safeStep s.ac s.dc previous
  p.samples s toAC toDC (p.sampleCount s toAC toDC) dt previous escaping

def atRest (ac dc : Int) : Switch K := ⟨ac, dc, 0, 0⟩

def switchAt (s : Switch K) (toAC toDC : Int) (t : K) : Switch K where
  ac := (p.positionAt s toAC toDC t).1
  dc := (p.positionAt s toAC toDC t).2
  vac := p.movement.speed false s.ac toAC s.vac t
  vdc := p.movement.speed true s.dc toDC s.vdc t

/-- A moving axis may only be given a target further on in its direction, and far enough to stop in. -/
def canContinue (isDec : Bool) (fromCount to_ pos next : Int) (speed : K) : Bool :=
  let stopDistance := speed * speed / ((2 : ℕ) * p.decel isDec)
  stopDistance ≤ (2 : ℕ) ||
    stopDistance ≤ (((next - pos) * (if to_ > fromCount then 1 else -1) : Int) : K) + (2 : ℕ)

def successivePoint (s : Switch K) (toAC toDC nextAC nextDC : Int) : Nat → Nat → Option (K × Switch K)
  | 0, _ => none
  | fuel + 1, step =>
    let initialMoveTime := p.computeFullMovementTime s toAC toDC
    let movementDelay := min (step : K) initialMoveTime
    let at_ := p.switchAt s toAC toDC movementDelay
    if p.canContinue false s.ac toAC at_.ac nextAC at_.vac &&
        p.canContinue true s.dc toDC at_.dc nextDC at_.vdc && 0 < p.checkPassage at_ nextAC nextDC then
      some (movementDelay, at_)
    else if initialMoveTime ≤ step then none
    else successivePoint s toAC toDC nextAC nextDC fuel (step + 1)

def computeSuccessivePointInterval (s : Switch K) (toAC toDC nextAC nextDC : Int) :
    Option (K × Switch K) :=
  p.successivePoint s toAC toDC nextAC nextDC
    ((max (p.movement.time false s.ac toAC s.vac) (p.movement.time true s.dc toDC s.vdc)).toNat / 1000 + 1) 1

def planIntervals (s : Switch K) : List (Int × Int) → Option (List K)
  | to_ :: next :: targets =>
    match p.computeSuccessivePointInterval s to_.1 to_.2 next.1 next.2 with
    | none => none
    | some (interval, s) =>
      if interval < 0 then none else (planIntervals s (next :: targets)).map (interval :: ·)
  | _ => some []

variable [FloorRing K]

section

variable (acStart dcStart acFin dcFin : Int)

def stepA : K := |p.haCpd| * FINDPATH_MIN_STEP_SIZE
def stepD : K := |p.decCpd| * FINDPATH_MIN_STEP_SIZE
def acLo : Int := min p.acMin p.acMax + ⌊p.stepA⌋
def acHi : Int := max p.acMin p.acMax - ⌊p.stepA⌋
def dcLo : Int := min p.dcMin p.dcMax
def dcHi : Int := max p.dcMin p.dcMax
def na : Nat := (⌊((p.acHi - p.acLo : Int) : K) / p.stepA⌋ + 1).toNat
def nd : Nat := (⌊((p.dcHi - p.dcLo : Int) : K) / p.stepD⌋ + 1).toNat

def pos (id : Nat) : Int × Int :=
  if id = p.na * p.nd then (acStart, dcStart)
  else if id = p.na * p.nd + 1 then (acFin, dcFin)
  else
    (p.acLo + ⌊((id / p.nd : Nat) : K) * p.stepA⌋, p.dcLo + ⌊((id % p.nd : Nat) : K) * p.stepD⌋)

def passage (u v : Nat) : K :=
  let from_ := p.pos acStart dcStart acFin dcFin u
  let to_ := p.pos acStart dcStart acFin dcFin v
  p.checkPassage (atRest from_.1 from_.2) to_.1 to_.2

def grid : Grid K where
  na := p.na
  nd := p.nd
  isSafe id :=
    let at_ := p.pos acStart dcStart acFin dcFin id
    p.checkRawPosition at_.1 at_.2
  checkPassage := p.passage acStart dcStart acFin dcFin
  full id :=
    let at_ := p.pos acStart dcStart acFin dcFin id
    p.computeFullMovementTime (atRest at_.1 at_.2) acFin dcFin
  ia := ⌊((acStart - p.acLo : Int) : K) / p.stepA⌋
  id := ⌊((dcStart - p.dcLo : Int) : K) / p.stepD⌋
  r := if closer (p.sunDistance acStart dcStart) SUN_AVOID_DISTANCE then 4 else 2

def chain (parent : Nat → Option Nat) : Nat → Nat → List Nat
  | 0, _ => []
  | fuel + 1, v =>
    v ::
      match parent v with
      | none => []
      | some u => chain parent fuel u

def lastDirect (u : Nat) : List Nat → Option (Nat × List Nat)
  | [] => none
  | v :: vs =>
    match lastDirect u vs with
    | some found => some found
    | none => if 0 < p.passage acStart dcStart acFin dcFin u v then some (v, vs) else none

/-- Targets that a direct passage from an earlier one skips are dropped; the next one is kept in any
case. -/
def points (u : Nat) : Nat → List Nat → List Nat
  | 0, _ | _, [] => []
  | fuel + 1, v :: vs =>
    let (w, ws) := (p.lastDirect acStart dcStart acFin dcFin u vs).getD (v, vs)
    w :: points w fuel ws

def findPathOnGrid (fuel : Nat) : Option (Option (Plan K)) :=
  let grid := p.grid acStart dcStart acFin dcFin
  (grid.search fuel).map fun s =>
    if s.parent grid.TARGET = none then none
    else
      let chain := (chain s.parent (grid.TARGET + 1) grid.TARGET).reverse
      let points := p.points acStart dcStart acFin dcFin grid.START chain.length chain.tail
      if MAX_NUMBER_OF_SUCCESSIVE_POINTS < points.length - 1 then none
      else
        let targets := points.map (p.pos acStart dcStart acFin dcFin)
        (p.planIntervals (atRest acStart dcStart) targets).map fun intervals => ⟨targets, intervals⟩

def twoSteps (midAC midDC : Int) : Option (Plan K) :=
  if 0 < p.checkPassage (atRest acStart dcStart) midAC midDC then
    match p.computeSuccessivePointInterval (atRest acStart dcStart) midAC midDC acFin dcFin with
    | none => none
    | some (movementDelay, _) =>
      if 0 < movementDelay then some ⟨[(midAC, midDC), (acFin, dcFin)], [movementDelay]⟩ else none
  else none

def findPath (fuel : Nat) : Option (Option (Plan K)) :=
  if !p.checkRawPosition acFin dcFin then some none
  else if 0 < p.checkPassage (atRest acStart dcStart) acFin dcFin then
    some (some ⟨[(acFin, dcFin)], []⟩)
  else
    match p.twoSteps acStart dcStart acFin dcFin acFin dcStart with
    | some plan => some (some plan)
    | none =>
      match p.twoSteps acStart dcStart acFin dcFin acStart dcFin with
      | some plan => some (some plan)
      | none => p.findPathOnGrid acStart dcStart acFin dcFin fuel

end

variable {p}

section

variable [IsStrictOrderedRing K]

omit [FloorRing K]

variable {s : Switch K} {toAC toDC : Int}

theorem fine_pos : (0 : K) < CHECKPASSAGE_FINE_RESOLUTION := by
  rw [CHECKPASSAGE_FINE_RESOLUTION]
  norm_num

omit [IsStrictOrderedRing K] in
theorem fine_le_safeStep (AC DC : Int) (sunDist : Option K) :
    CHECKPASSAGE_FINE_RESOLUTION ≤ p.safeStep AC DC sunDist := le_max_right _ _

omit [IsStrictOrderedRing K] in
theorem fine_le_step (escaping : Bool) (AC DC : Int) (sunDist : Option K) :
    CHECKPASSAGE_FINE_RESOLUTION ≤
      if escaping then CHECKPASSAGE_FINE_RESOLUTION else p.safeStep AC DC sunDist := by
  cases escaping with
  | true => exact le_refl _
  | false => exact fine_le_safeStep AC DC sunDist

theorem full_eq (s : Switch K) (toAC toDC : Int) : p.computeFullMovementTime s toAC toDC =
    ((max (p.movement.time false s.ac toAC s.vac) (p.movement.time true s.dc toDC s.vdc) : Int) : K) /
      1000 := by
  have thousand : ((1000 : ℕ) : K) = 1000 := by norm_num
  rw [computeFullMovementTime, thousand, Int.cast_max, max_div_div_right (by norm_num)]

theorem checkPassage_still (still : p.computeFullMovementTime s toAC toDC = 0) :
    p.checkPassage s toAC toDC = 0 := by
  have first := fine_le_step (p := p) (closer (p.sunDistance s.ac s.dc) SUN_AVOID_DISTANCE) s.ac s.dc
    (p.sunDistance s.ac s.dc)
  have start := min_eq_right (fine_pos.le.trans first)
  rw [checkPassage, sampleCount, samples]
  simp only [still, start, neg_zero, if_true, ite_self]

theorem samples_free (accepts : ∀ t, 0 ≤ t → t ≤ p.computeFullMovementTime s toAC toDC →
      p.checkRawPosition (p.positionAt s toAC toDC t).1 (p.positionAt s toAC toDC t).2 = true)
    (lasts : 0 ≤ p.computeFullMovementTime s toAC toDC) (fuel : Nat) (t : K) (previous : Option K)
    (began : 0 ≤ t)
    (enough : p.computeFullMovementTime s toAC toDC ≤ t + fuel * CHECKPASSAGE_FINE_RESOLUTION) :
    p.samples s toAC toDC (fuel + 1) t previous false = p.computeFullMovementTime s toAC toDC := by
  induction fuel generalizing t previous with
  | zero =>
    have last : min t (p.computeFullMovementTime s toAC toDC) = p.computeFullMovementTime s toAC toDC :=
      min_eq_right (by simpa using enough)
    have passes := accepts _ lasts (le_refl _)
    rw [checkRawPosition, Bool.and_eq_true, Bool.not_eq_true'] at passes
    rw [samples]
    simp [last, passes.1, passes.2]
  | succ fuel ih =>
    have passes := accepts _ (le_min began lasts) (min_le_right t _)
    rw [checkRawPosition, Bool.and_eq_true, Bool.not_eq_true'] at passes
    rw [samples]
    simp only [passes.1, passes.2, Bool.not_true, Bool.false_eq_true, if_false, Bool.false_and,
      Bool.not_false, Bool.and_false]
    by_cases last : min t (p.computeFullMovementTime s toAC toDC) = p.computeFullMovementTime s toAC toDC
    · rw [if_pos last]
    · rw [if_neg last]
      have inner : min t (p.computeFullMovementTime s toAC toDC) = t :=
        (min_choice t _).resolve_right last
      rw [inner]
      have step := fine_le_safeStep (p := p) (p.positionAt s toAC toDC t).1 (p.positionAt s toAC toDC t).2
        (p.sunDistance (p.positionAt s toAC toDC t).1 (p.positionAt s toAC toDC t).2)
      refine ih _ _ (add_nonneg began (fine_pos.le.trans step)) (enough.trans ?_)
      push_cast
      linarith

theorem checkPassage_free (away : closer (p.sunDistance s.ac s.dc) SUN_AVOID_DISTANCE = false)
    (accepts : ∀ t, 0 ≤ t → t ≤ p.computeFullMovementTime s toAC toDC →
      p.checkRawPosition (p.positionAt s toAC toDC t).1 (p.positionAt s toAC toDC t).2 = true)
    (lasts : 0 ≤ p.computeFullMovementTime s toAC toDC) :
    p.checkPassage s toAC toDC = p.computeFullMovementTime s toAC toDC := by
  simp only [checkPassage, sampleCount, away, Bool.false_eq_true, if_false]
  have step := fine_le_safeStep (p := p) s.ac s.dc (p.sunDistance s.ac s.dc)
  refine samples_free accepts lasts _ _ _ (fine_pos.le.trans step) (le_trans ?_ (add_le_add_left step _))
  rw [full_eq, CHECKPASSAGE_FINE_RESOLUTION]
  set ms := max (p.movement.time false s.ac toAC s.vac) (p.movement.time true s.dc toDC s.vdc)
  have counted : ms ≤ 5 + 5 * ((ms.toNat / 5 : Nat) : Int) := by omega
  generalize ms.toNat / 5 = n at counted ⊢
  have counted' : (ms : K) ≤ 5 + 5 * (n : K) := by exact_mod_cast counted
  linarith

theorem samples_end (lasts : 0 ≤ p.computeFullMovementTime s toAC toDC) (fuel : Nat) (t : K)
    (previous : Option K) (escaping : Bool) (began : 0 ≤ t)
    (accepted : 0 < p.samples s toAC toDC fuel t previous escaping) :
    p.checkRawPosition (p.positionAt s toAC toDC (p.computeFullMovementTime s toAC toDC)).1
      (p.positionAt s toAC toDC (p.computeFullMovementTime s toAC toDC)).2 = true := by
  induction fuel generalizing t previous escaping with
  | zero => exact absurd accepted (not_lt.mpr (neg_nonpos.mpr began))
  | succ fuel ih =>
    have refused : ¬0 < -min t (p.computeFullMovementTime s toAC toDC) :=
      not_lt.mpr (neg_nonpos.mpr (le_min began lasts))
    rw [samples] at accepted
    dsimp only at accepted
    split at accepted
    · exact absurd accepted refused
    · rename_i good
      split at accepted
      · exact absurd accepted refused
      · split at accepted
        · exact absurd accepted refused
        · rename_i free
          split at accepted
          · rename_i last
            rw [last] at good free accepted
            rw [checkRawPosition, Bool.and_eq_true]
            refine ⟨by simpa using good, ?_⟩
            cases escaping with
            | true =>
              cases near : closer (p.sunDistance
                (p.positionAt s toAC toDC (p.computeFullMovementTime s toAC toDC)).1
                (p.positionAt s toAC toDC (p.computeFullMovementTime s toAC toDC)).2)
                SUN_AVOID_DISTANCE with
              | false => rfl
              | true =>
                rw [near, Bool.and_self, if_pos rfl] at accepted
                exact absurd accepted (not_lt.mpr (neg_nonpos.mpr lasts))
            | false => simpa using free
          · refine ih _ _ _ (add_nonneg (le_min began lasts) ?_) accepted
            exact fine_pos.le.trans (fine_le_step _ _ _ _)

theorem checkPassage_end (lasts : 0 ≤ p.computeFullMovementTime s toAC toDC)
    (accepted : 0 < p.checkPassage s toAC toDC) :
    p.checkRawPosition (p.positionAt s toAC toDC (p.computeFullMovementTime s toAC toDC)).1
      (p.positionAt s toAC toDC (p.computeFullMovementTime s toAC toDC)).2 = true :=
  samples_end lasts _ _ _ _ (fine_pos.le.trans (fine_le_step _ _ _ _)) accepted

end

section

omit [FloorRing K]

variable (p) in
/-- From the state the targets are followed, each next one set after its interval: the rest of the way
to it is accepted from where the mount is then, within the time of the movement. -/
def Followed : Switch K → List (Int × Int) → List K → Prop
  | s, [to_], [] => 0 < p.checkPassage s to_.1 to_.2
  | s, to_ :: next :: targets, interval :: intervals =>
    0 < p.checkPassage s to_.1 to_.2 ∧ 0 ≤ interval ∧
      interval ≤ p.computeFullMovementTime s to_.1 to_.2 ∧
        Followed (p.switchAt s to_.1 to_.2 interval) (next :: targets) intervals
  | _, _, _ => False

variable {s : Switch K} {toAC toDC nextAC nextDC : Int}

theorem successivePoint_spec {fuel step : Nat} {interval : K} {at_ : Switch K}
    (found : p.successivePoint s toAC toDC nextAC nextDC fuel step = some (interval, at_)) :
    at_ = p.switchAt s toAC toDC interval ∧ interval ≤ p.computeFullMovementTime s toAC toDC ∧
      0 < p.checkPassage at_ nextAC nextDC := by
  induction fuel generalizing step with
  | zero => cases found
  | succ fuel ih =>
    rw [successivePoint] at found
    split at found
    · rename_i accepted
      obtain ⟨rfl, rfl⟩ := Prod.mk.inj (Option.some.inj found)
      rw [Bool.and_eq_true, decide_eq_true_eq] at accepted
      exact ⟨rfl, min_le_right _ _, accepted.2⟩
    · split at found
      · cases found
      · exact ih found

theorem planIntervals_followed {to_ : Int × Int} {targets : List (Int × Int)} {intervals : List K}
    (accepted : 0 < p.checkPassage s to_.1 to_.2)
    (planned : p.planIntervals s (to_ :: targets) = some intervals) :
    p.Followed s (to_ :: targets) intervals := by
  induction targets generalizing s to_ intervals with
  | nil =>
    cases planned
    exact accepted
  | cons next targets ih =>
    rw [planIntervals] at planned
    split at planned
    · cases planned
    · rename_i interval at_ found
      obtain ⟨rfl, within, accepted'⟩ := successivePoint_spec found
      split at planned
      · cases planned
      · rename_i least
        obtain ⟨rest, later, rfl⟩ := Option.map_eq_some_iff.mp planned
        exact ⟨accepted, not_lt.mp least, within, ih accepted' later⟩

theorem twoSteps_spec {acStart dcStart acFin dcFin midAC midDC : Int} {plan : Plan K}
    (found : p.twoSteps acStart dcStart acFin dcFin midAC midDC = some plan) :
    ∃ interval, plan = ⟨[(midAC, midDC), (acFin, dcFin)], [interval]⟩ ∧
      p.Followed (atRest acStart dcStart) plan.targets plan.intervals := by
  unfold twoSteps at found
  split at found
  · rename_i accepted
    split at found
    · cases found
    · rename_i interval at_ later
      split at found
      · rename_i positive
        cases found
        obtain ⟨rfl, within, accepted'⟩ := successivePoint_spec later
        exact ⟨interval, rfl, accepted, positive.le, within, accepted'⟩
      · cases found
  · cases found

theorem Followed.length {targets : List (Int × Int)} {intervals : List K}
    (followed : p.Followed s targets intervals) : targets.length = intervals.length + 1 := by
  induction targets generalizing s intervals with
  | nil =>
    unfold Followed at followed
    exact followed.elim
  | cons to_ targets ih =>
    cases targets with
    | nil =>
      cases intervals with
      | nil => rfl
      | cons _ _ =>
        unfold Followed at followed
        exact followed.elim
    | cons next targets =>
      cases intervals with
      | nil =>
        unfold Followed at followed
        exact followed.elim
      | cons interval intervals =>
        have rest := ih followed.2.2.2
        simp only [List.length_cons] at rest ⊢
        omega

end

end D50Path

end Rts2.Teld
