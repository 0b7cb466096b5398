import Mathlib

/-! Constraints of observations: whether a target may be observed at a time, and the intervals of time in
which it may. A number that is not a number is none; times are Julian days, or seconds. -/
namespace Rts2.Db

structure ConstraintDoubleInterval where
  lower : Option ℚ
  upper : Option ℚ

def between (val low upper : Option ℚ) : Bool :=
  match val, low, upper with
  | none, _, _ => false
  | some _, none, none => true
  | some val, none, some upper => val < upper
  | some val, some low, none => low ≤ val
  | some val, some low, some upper => low ≤ val && val < upper

def ConstraintDoubleInterval.satisfy (val : Option ℚ) (i : ConstraintDoubleInterval) : Bool :=
  between val i.lower i.upper

/-- The constraints given by intervals. -/
inductive IntervalKind where
  | time
  | airmass
  | zenithDistance
  | HA
  | dec
  | altitude
  | azimuth
  | lunarDistance
  | lunarAltitude
  | lunarPhase
  | solarDistance
  | sunAltitude
deriving DecidableEq

inductive Constraint where
  | interval (kind : IntervalKind) (intervals : List ConstraintDoubleInterval)
  | maxRepeat (maxRepeat : Int)

/-- What a target gives at a time. -/
structure Target where
  getAirmass : ℚ → Option ℚ
  getZenitDistance : ℚ → Option ℚ
  getHourAngle : ℚ → Option ℚ
  getPositionDec : ℚ → Option ℚ
  getAlt : ℚ → Option ℚ
  getAz : ℚ → Option ℚ
  getLunarDistance : ℚ → Option ℚ
  getSolarDistance : ℚ → Option ℚ
  hasConstantPosition : Bool
  getTotalNumberOfObservations : Int

structure Sky where
  lunarAltitude : ℚ → ℚ
  lunarPhase : ℚ → ℚ
  sunAltitude : ℚ → ℚ

def julian_from_timet (t : Int) : ℚ := 2440587.5 + t / 86400

def timet_from_julian (JD : ℚ) : Int := ⌊(JD - 2440587.5) * 86400 + 1 / 2⌋

def truncate (x : ℚ) : Int := x.num.tdiv x.den

namespace Constraint

variable (sky : Sky)

def value (tar : Target) (JD : ℚ) : IntervalKind → Option ℚ
  | .time => some JD
  | .airmass => tar.getAirmass JD
  | .zenithDistance => tar.getZenitDistance JD
  | .HA => tar.getHourAngle JD
  | .dec => tar.getPositionDec JD
  | .altitude => tar.getAlt JD
  | .azimuth => tar.getAz JD
  | .lunarDistance => tar.getLunarDistance JD
  | .lunarAltitude => some (sky.lunarAltitude JD)
  | .lunarPhase => some (sky.lunarPhase JD)
  | .solarDistance => tar.getSolarDistance JD
  | .sunAltitude => some (sky.sunAltitude JD)

def isBetween (val : ℚ) (intervals : List ConstraintDoubleInterval) : Bool := intervals.any (·.satisfy (some val))

def satisfy (tar : Target) (JD : ℚ) : Constraint → Bool × Option ℚ
  | .interval kind intervals =>
    match value sky tar JD kind with
    | none => (true, none)
    | some val => (isBetween val intervals, some 0)
  | .maxRepeat n => (if 0 < n then tar.getTotalNumberOfObservations < n else true, none)

def nextSample (to_JD : ℚ) (step : Int) (t : ℚ) : Option ℚ → ℚ
  | none => to_JD
  | some nextJD => if 0 < nextJD then nextJD else t + step / 86400

def sample (satisfies : ℚ → Bool × Option ℚ) (to_JD : ℚ) (step : Int) :
    Nat → ℚ → Option ℚ → List (Int × Int) → Option (List (Int × Int))
  | 0, _, _, _ => none
  | fuel + 1, t, vf, ret =>
    if t < to_JD then
      let (ok, nextJD) := satisfies t
      let next := nextSample to_JD step t nextJD
      match ok, vf with
      | true, none => sample satisfies to_JD step fuel next (some t) ret
      | true, some vf => sample satisfies to_JD step fuel next (some vf) ret
      | false, some vf =>
        sample satisfies to_JD step fuel next none (ret ++ [(timet_from_julian vf, timet_from_julian t)])
      | false, none => sample satisfies to_JD step fuel next none ret
    else
      match vf with
      | none => some ret
      | some vf => some (ret ++ [(timet_from_julian vf, timet_from_julian t)])

def sampleStep (tar : Target) (step : Int) : IntervalKind → Int
  | .lunarDistance => if tar.hasConstantPosition then 3600 else step
  | _ => step

def timeIntervals (from_ to_ : Int) (i : ConstraintDoubleInterval) : List (Int × Int) :=
  match i.upper, i.lower with
  | some l, some u => if from_ ≤ l ∧ u ≤ to_ then [(truncate l, truncate u)] else []
  | none, some u => if u ≤ to_ then [(from_, truncate u)] else []
  | some l, none => if from_ ≤ l then [(truncate l, to_)] else []
  | none, none => []

def getSatisfiedIntervals (fuel : Nat) (tar : Target) (from_ to_ step : Int) : Constraint → Option (List (Int × Int))
  | .interval .time intervals => some (intervals.flatMap (timeIntervals from_ to_))
  | .interval kind intervals =>
    sample (fun JD => satisfy sky tar JD (.interval kind intervals)) (julian_from_timet to_)
      (sampleStep tar step kind) fuel (julian_from_timet from_) none []
  | .maxRepeat n =>
    some (if n ≤ 0 ∨ tar.getTotalNumberOfObservations < n then [(from_, to_)] else [])

end Constraint

/-- The loop over the added intervals for one of the master; searching while findFirst looks for the first
that ends late enough. -/
def mergeOne (mi : Int × Int) : Bool → List (Int × Int) → List (Int × Int)
  | _, [] => []
  | searching, addi :: rest =>
    if ¬ searching ∧ ¬ addi.1 < mi.2 then []
    else if addi.2 < mi.1 then mergeOne mi true rest
    else if mi.2 < addi.1 then []
    else (max mi.1 addi.1, min mi.2 addi.2) :: mergeOne mi false rest

def mergeIntervals (master add : List (Int × Int)) : List (Int × Int) :=
  if add = [] ∨ master = [] then [] else master.flatMap (mergeOne · false add)

def reverseLoop (t to_ : Int) : List (Int × Int) → List (Int × Int)
  | [] => if t < to_ then [(t, to_)] else []
  | i :: rest => (if t < i.1 then [(t, i.1)] else []) ++ reverseLoop i.2 to_ rest

def reverseInterval (from_ to_ : Int) (intervals : List (Int × Int)) : List (Int × Int) :=
  if intervals = [] then [(from_, to_)] else reverseLoop from_ to_ intervals

namespace Constraints

variable (sky : Sky)

def satisfy (tar : Target) (JD : ℚ) (cons : List Constraint) : Bool := cons.all fun c => (c.satisfy sky tar JD).1

def satisfiedLoop (fuel : Nat) (tar : Target) (from_ to_ step : Int) :
    List Constraint → List (Int × Int) → Option (List (Int × Int))
  | [], satisfied => some satisfied
  | c :: cons, satisfied =>
    match c.getSatisfiedIntervals sky fuel tar from_ to_ step with
    | none => none
    | some intervals => satisfiedLoop fuel tar from_ to_ step cons (mergeIntervals satisfied intervals)

def getSatisfiedIntervals (fuel : Nat) (tar : Target) (from_ to_ step : Int) (cons : List Constraint) :
    Option (List (Int × Int)) :=
  satisfiedLoop sky fuel tar from_ to_ step cons [(from_, to_)]

def getViolatedIntervals (fuel : Nat) (tar : Target) (from_ to_ step : Int) (cons : List Constraint) :
    Option (List (Int × Int)) :=
  (getSatisfiedIntervals sky fuel tar from_ to_ step cons).map (reverseInterval from_ to_)

end Constraints

end Rts2.Db
