import Rts2.Teld.PlannedTargets

/-! The straight way of the D50 mount: when findPath takes it, with the movements of its drives. -/
namespace Rts2.Teld

open Lib

variable {K : Type} [Field K] [LinearOrder K]

/-- The drives of both axes, Dec or HA: speed, acceleration and deceleration, all positive. -/
structure Drives (K : Type) [Field K] [LinearOrder K] where
  vMax : Bool → K
  accel : Bool → K
  decel : Bool → K
  sqrt : K → K
  vMax_pos : ∀ isDec, 0 < vMax isDec
  accel_pos : ∀ isDec, 0 < accel isDec
  decel_pos : ∀ isDec, 0 < decel isDec
  sqrt_nonneg : ∀ x, 0 ≤ sqrt x

def trunc [FloorRing K] (x : K) : Int := if 0 ≤ x then ⌊x⌋ else ⌈x⌉

namespace Drives

variable [FloorRing K] (d : Drives K) (isDec : Bool) (fromCount toCount : Int) (v0 : K)

def T_ramp1 : K := (d.vMax isDec - v0) / d.accel isDec
def T_ramp2 : K := d.vMax isDec / d.decel isDec
def S_ramp1 : Int := trunc (d.T_ramp1 isDec v0 * (d.vMax isDec + v0) / 2)
def S_ramp2 : Int := trunc (d.T_ramp2 isDec * d.vMax isDec / 2)
def S_const : Int := |toCount - fromCount| - d.S_ramp1 isDec v0 - d.S_ramp2 isDec
def T_const : K := (d.S_const isDec fromCount toCount v0 : K) / d.vMax isDec

def T_full : K :=
  ((1 + d.accel isDec / d.decel isDec) *
      d.sqrt ((v0 * v0 + 2 * d.accel isDec * (|toCount - fromCount| : Int)) /
        (1 + d.accel isDec / d.decel isDec)) - v0) / d.accel isDec

def duration : K :=
  if 0 ≤ d.S_const isDec fromCount toCount v0 then
    d.T_ramp1 isDec v0 + d.T_ramp2 isDec + d.T_const isDec fromCount toCount v0
  else d.T_full isDec fromCount toCount v0

def time : Int :=
  if fromCount = toCount then 0 else trunc (d.duration isDec fromCount toCount v0 * 1000 + 1 / 2)

def T1 : K :=
  (d.T_full isDec fromCount toCount v0 * d.decel isDec - v0) / (d.accel isDec + d.decel isDec)

def movementDirection : Int := if fromCount < toCount then 1 else -1

def position (inspectionTime : K) : Int :=
  let dir := movementDirection fromCount toCount
  let starts := fromCount + dir * trunc ((v0 + d.accel isDec * inspectionTime / 2) * inspectionTime + 1 / 2)
  if fromCount = toCount then toCount
  else if 0 ≤ d.S_const isDec fromCount toCount v0 then
    if inspectionTime ≤ d.T_ramp1 isDec v0 then starts
    else if inspectionTime ≤ d.T_ramp1 isDec v0 + d.T_const isDec fromCount toCount v0 then
      fromCount + dir *
        trunc (d.S_ramp1 isDec v0 + d.vMax isDec * (inspectionTime - d.T_ramp1 isDec v0) + 1 / 2)
    else if inspectionTime ≤ d.duration isDec fromCount toCount v0 then
      let T_reversed := d.duration isDec fromCount toCount v0 - inspectionTime
      fromCount + dir *
        trunc ((d.S_ramp1 isDec v0 + d.S_const isDec fromCount toCount v0 + d.S_ramp2 isDec : Int) -
          d.decel isDec * T_reversed * T_reversed / 2 + 1 / 2)
    else toCount
  else if inspectionTime ≤ d.T1 isDec fromCount toCount v0 then starts
  else if inspectionTime ≤ d.T_full isDec fromCount toCount v0 then
    let T_reversed := d.T_full isDec fromCount toCount v0 - inspectionTime
    fromCount + dir *
      trunc ((|toCount - fromCount| : Int) - d.decel isDec * T_reversed * T_reversed / 2 + 1 / 2)
  else toCount

def speed (inspectionTime : K) : K :=
  if fromCount = toCount then 0
  else if 0 ≤ d.S_const isDec fromCount toCount v0 then
    if inspectionTime ≤ d.T_ramp1 isDec v0 then v0 + d.accel isDec * inspectionTime
    else if inspectionTime ≤ d.T_ramp1 isDec v0 + d.T_const isDec fromCount toCount v0 then d.vMax isDec
    else if inspectionTime ≤ d.duration isDec fromCount toCount v0 then
      d.decel isDec * (d.duration isDec fromCount toCount v0 - inspectionTime)
    else 0
  else if inspectionTime ≤ d.T1 isDec fromCount toCount v0 then v0 + d.accel isDec * inspectionTime
  else if inspectionTime ≤ d.T_full isDec fromCount toCount v0 then
    d.decel isDec * (d.T_full isDec fromCount toCount v0 - inspectionTime)
  else 0

def movement (d : Drives K) : Movement K where
  time := d.time
  position := d.position
  speed := d.speed

def Moves (d : Drives K) (acStart dcStart acFin dcFin : Int) : Prop :=
  acStart ≠ acFin ∧ 1 / 2000 ≤ d.duration false acStart acFin 0 ∨
    dcStart ≠ dcFin ∧ 1 / 2000 ≤ d.duration true dcStart dcFin 0

end Drives

/-- Neither the start nor the end nor a position on the straight movement between them is refused. -/
structure D50Path.Clear [FloorRing K] (p : D50Path K) (acStart dcStart acFin dcFin : Int) : Prop where
  starts : p.checkRawPosition acStart dcStart = true
  ends : p.checkRawPosition acFin dcFin = true
  way : ∀ t, 0 ≤ t → t ≤ p.computeFullMovementTime (D50Path.atRest acStart dcStart) acFin dcFin →
    p.checkRawPosition (p.positionAt (D50Path.atRest acStart dcStart) acFin dcFin t).1
      (p.positionAt (D50Path.atRest acStart dcStart) acFin dcFin t).2 = true

def D50Path.drivenBy [FloorRing K] (p : D50Path K) (d : Drives K) : D50Path K :=
  { p with movement := d.movement, decel := d.decel }

variable [IsStrictOrderedRing K] [FloorRing K]

omit [IsStrictOrderedRing K] in
theorem trunc_nonneg {x : K} (least : 0 ≤ x) : 0 ≤ trunc x := by
  rw [trunc, if_pos least]
  exact Int.floor_nonneg.mpr least

omit [IsStrictOrderedRing K] in
theorem trunc_pos {x : K} : 0 < trunc x ↔ 1 ≤ x := by
  unfold trunc
  split
  · exact Int.floor_pos
  · rename_i negative
    have small : x < 0 := not_le.mp negative
    refine iff_of_false (not_lt.mpr (Int.ceil_le.mpr ?_)) (not_le.mpr (small.trans one_pos))
    exact_mod_cast small.le

namespace Drives

variable (d : Drives K)

theorem duration_nonneg (isDec : Bool) (fromCount toCount : Int) :
    0 ≤ d.duration isDec fromCount toCount 0 := by
  have speed := d.vMax_pos isDec
  have accel := d.accel_pos isDec
  have decel := d.decel_pos isDec
  unfold duration
  split
  · rename_i const
    have ramp : 0 ≤ d.T_ramp1 isDec 0 := by
      rw [T_ramp1, sub_zero]
      positivity
    have ramp' : 0 ≤ d.T_ramp2 isDec := by
      rw [T_ramp2]
      positivity
    have flat : 0 ≤ d.T_const isDec fromCount toCount 0 :=
      div_nonneg (Int.cast_nonneg const) speed.le
    linarith
  · have root := d.sqrt_nonneg ((0 * 0 + 2 * d.accel isDec * (|toCount - fromCount| : Int)) /
      (1 + d.accel isDec / d.decel isDec))
    rw [T_full, sub_zero]
    exact div_nonneg (mul_nonneg (by positivity) root) accel.le

theorem time_nonneg (isDec : Bool) (fromCount toCount : Int) : 0 ≤ d.time isDec fromCount toCount 0 := by
  have least := d.duration_nonneg isDec fromCount toCount
  unfold time
  split
  · exact le_refl _
  · exact trunc_nonneg (by linarith)

theorem time_pos_iff (isDec : Bool) (fromCount toCount : Int) :
    0 < d.time isDec fromCount toCount 0 ↔
      fromCount ≠ toCount ∧ 1 / 2000 ≤ d.duration isDec fromCount toCount 0 := by
  unfold time
  split
  · rename_i same
    exact iff_of_false (lt_irrefl 0) fun moves => moves.1 same
  · rename_i other
    rw [trunc_pos]
    constructor
    · intro least
      exact ⟨other, by linarith⟩
    · rintro ⟨_, least⟩
      linarith

end Drives

namespace D50Path

open Drives

variable (p : D50Path K) (d : Drives K) {acStart dcStart acFin dcFin : Int}

theorem full_nonneg : 0 ≤ (p.drivenBy d).computeFullMovementTime (atRest acStart dcStart) acFin dcFin := by
  rw [full_eq]
  have least := le_max_of_le_left (c := d.time true dcStart dcFin 0) (d.time_nonneg false acStart acFin)
  exact div_nonneg (Int.cast_nonneg least) (by norm_num)

theorem full_pos_iff :
    0 < (p.drivenBy d).computeFullMovementTime (atRest acStart dcStart) acFin dcFin ↔
      d.Moves acStart dcStart acFin dcFin := by
  rw [full_eq, div_pos_iff_of_pos_right (by norm_num), Int.cast_pos, lt_max_iff, Moves,
    ← time_pos_iff, ← time_pos_iff]
  rfl

theorem twoSteps_still (still : ¬d.Moves acStart dcStart acFin dcFin) {midAC midDC : Int}
    (mid : (midAC, midDC) = (acFin, dcStart) ∨ (midAC, midDC) = (acStart, dcFin)) :
    (p.drivenBy d).twoSteps acStart dcStart acFin dcFin midAC midDC = none := by
  have still' : ¬d.Moves acStart dcStart midAC midDC := by
    intro moves
    rcases mid with same | same
    · obtain ⟨rfl, rfl⟩ := Prod.mk.inj same
      exact still (.inl (moves.resolve_right fun dec => dec.1 rfl))
    · obtain ⟨rfl, rfl⟩ := Prod.mk.inj same
      exact still (.inr (moves.resolve_left fun ha => ha.1 rfl))
  have none_ := le_antisymm (not_lt.mp fun moves => still' ((full_pos_iff p d).mp moves))
    (full_nonneg p d)
  rw [twoSteps, checkPassage_still none_, if_neg (lt_irrefl _)]

section

variable {p d} (clear : (p.drivenBy d).Clear acStart dcStart acFin dcFin) (fuel : Nat)
include clear

theorem checkPassage_clear :
    (p.drivenBy d).checkPassage (atRest acStart dcStart) acFin dcFin =
      (p.drivenBy d).computeFullMovementTime (atRest acStart dcStart) acFin dcFin := by
  have starts := clear.starts
  rw [checkRawPosition, Bool.and_eq_true] at starts
  have away : closer ((p.drivenBy d).sunDistance acStart dcStart) SUN_AVOID_DISTANCE = false := by
    simpa using starts.2
  exact checkPassage_free (s := atRest acStart dcStart) away clear.way (full_nonneg p d)

theorem findPath_moves (moves : d.Moves acStart dcStart acFin dcFin) :
    (p.drivenBy d).findPath acStart dcStart acFin dcFin fuel = some (some ⟨[(acFin, dcFin)], []⟩) := by
  rw [findPath, clear.ends, checkPassage_clear clear, if_pos ((full_pos_iff p d).mpr moves)]
  rfl

theorem findPath_still (still : ¬d.Moves acStart dcStart acFin dcFin) :
    (p.drivenBy d).findPath acStart dcStart acFin dcFin fuel ≠ some (some ⟨[(acFin, dcFin)], []⟩) := by
  have none_ : ¬0 < (p.drivenBy d).computeFullMovementTime (atRest acStart dcStart) acFin dcFin :=
    fun positive => still ((full_pos_iff p d).mp positive)
  rw [findPath, clear.ends, checkPassage_clear clear, if_neg none_, twoSteps_still p d still (.inl rfl),
    twoSteps_still p d still (.inr rfl)]
  intro found
  have more := (findPathOnGrid_spec found clear.ends).2.2.2.2
    ((checkPassage_clear clear).trans_le (not_lt.mp none_))
  exact lt_irrefl 1 more

end

/-- With a way that is clear, findPath sets the final position as the only target exactly if the
movement takes time. -/
theorem findPath_straight_iff (clear : (p.drivenBy d).Clear acStart dcStart acFin dcFin) (fuel : Nat) :
    (p.drivenBy d).findPath acStart dcStart acFin dcFin fuel = some (some ⟨[(acFin, dcFin)], []⟩) ↔
      d.Moves acStart dcStart acFin dcFin := by
  constructor
  · intro found
    by_contra still
    exact findPath_still clear fuel still found
  · exact findPath_moves clear fuel

end D50Path

def Drives.slow : Drives ℚ where
  vMax := fun _ => 1
  accel := fun _ => 1
  decel := fun _ => 1
  sqrt := fun _ => 0
  vMax_pos := fun _ => one_pos
  accel_pos := fun _ => one_pos
  decel_pos := fun _ => one_pos
  sqrt_nonneg := fun _ => le_refl 0

def D50Path.free : D50Path ℚ where
  movement := Drives.slow.movement
  decel := fun _ => 1
  good := fun _ _ => true
  sunDistance := fun _ _ => none
  margin := fun _ _ _ => 1
  haCpd := 1
  decCpd := 1
  acMin := -10
  acMax := 10
  dcMin := -5
  dcMax := 5

theorem D50Path.free_clear (acStart dcStart acFin dcFin : Int) :
    (free.drivenBy Drives.slow).Clear acStart dcStart acFin dcFin :=
  ⟨rfl, rfl, fun _ _ _ => rfl⟩

theorem D50Path.findPath_straight_free :
    (free.drivenBy Drives.slow).findPath 0 0 3 0 0 = some (some ⟨[(3, 0)], []⟩) ↔
      Drives.slow.Moves 0 0 3 0 :=
  findPath_straight_iff free Drives.slow (free_clear 0 0 3 0) 0

/-- Where the mount stands already, it is sent away and back. -/
theorem D50Path.standing_detour :
    (free.drivenBy Drives.slow).Clear 0 0 0 0 ∧
      (free.drivenBy Drives.slow).findPath 0 0 0 0 100 = some (some ⟨[(-5, -5), (0, 0)], [1]⟩) := by
  exact ⟨free_clear 0 0 0 0, by decide +kernel⟩

end Rts2.Teld
