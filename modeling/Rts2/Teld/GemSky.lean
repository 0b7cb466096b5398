import Rts2.Teld.GemFlip

/-! The way back from the counts of a german equatorial mount to the sky. A declination behind a pole is folded back,
and each fold turns the right ascension by half a turn and toggles the flip. -/
namespace Rts2.Teld.Gem

variable {K : Type} [Field K] [LinearOrder K] [IsStrictOrderedRing K]

def toggle (flip : ℤ) : ℤ := if flip ≠ 0 then 0 else 1

def mirrored (dec : K) : K := if 0 < dec then literal 180 - dec else -literal 180 - dec

theorem abs_mirrored (dec : K) : |mirrored dec| = |(|dec| - 180)| := by
  simp only [mirrored, literal, Nat.cast_ofNat]
  split
  · rename_i north
    rw [abs_of_pos north, abs_sub_comm]
  · rename_i south
    rw [abs_of_nonpos (not_lt.mp south)]
    congr 1
    ring

theorem mirrored_less [FloorRing K] {dec : K} (behind : 90 < |dec|) : ⌊|mirrored dec|⌋.toNat < ⌊|dec|⌋.toNat := by
  have far : 90 ≤ ⌊|dec|⌋ := Int.le_floor.mpr (by exact_mod_cast behind.le)
  have closer : ⌊|mirrored dec|⌋ < ⌊|dec|⌋ := by
    rw [abs_mirrored]
    rcases le_total 180 |dec| with beyond | short
    · rw [abs_of_nonneg (sub_nonneg.mpr beyond)]
      have whole : |dec| - 180 = |dec| - (180 : ℤ) := by norm_num
      rw [whole, Int.floor_sub_intCast]
      omega
    · rw [abs_of_nonpos (sub_nonpos.mpr short)]
      have near : -(|dec| - 180) < (90 : ℤ) := by
        push_cast
        linarith
      exact (Int.floor_lt.mpr near).trans_le far
  omega

def overPoles {K : Type} [Field K] [LinearOrder K] [IsStrictOrderedRing K] [FloorRing K] (flip : ℤ) (ra dec : K) : ℤ × K × K :=
  if behind : literal 90 < |dec| then overPoles (toggle flip) (ra + literal 180) (mirrored dec) else (flip, ra, dec)
  termination_by ⌊|dec|⌋.toNat
  decreasing_by exact mirrored_less behind

variable [FloorRing K]

structure Sky (K : Type) where
  ra : K
  dec : K
  flip : ℤ
  un_ra : K
  un_dec : K

def Mount.readHa (m : Mount K) (ac : ℤ) : K := ac / m.ha.cpd + m.ha.zero

def Mount.readDec (m : Mount K) (dc : ℤ) : K := dc / m.dec.cpd + m.dec.zero

def Mount.counts2sky (m : Mount K) (ls : K) (ac dc flip : ℤ) : Sky K :=
  let un_dec := m.readDec dc
  let un_ra := ls - m.readHa ac
  let (flip, ra, dec) := if literal 90 < |un_dec| then overPoles flip un_ra un_dec else (0, un_ra, un_dec)
  let dec := ln_range_degrees dec
  let dec := if literal 180 < dec then dec - literal 360 else dec
  ⟨ln_range_degrees ra, dec, flip, un_ra, un_dec⟩

def folds (dec : K) : ℕ := ⌈(|dec| - literal 90) / literal 180⌉.toNat

def oddFolds (dec : K) : Bool := folds dec % 2 = 1

theorem folds_zero {dec : K} : folds dec = 0 ↔ |dec| ≤ 90 := by
  rw [folds, literal_ofNat, literal_ofNat, Int.toNat_eq_zero, Int.ceil_le, Int.cast_zero, div_nonpos_iff]
  constructor
  · rintro (⟨-, wrong⟩ | ⟨below, -⟩)
    · norm_num at wrong
    · linarith
  · intro below
    exact Or.inr ⟨by linarith, by norm_num⟩

theorem folds_succ {dec : K} (behind : 90 < |dec|) : folds dec = folds (mirrored dec) + 1 := by
  have positive : 0 < (|dec| - 90) / 180 := div_pos (sub_pos.mpr behind) (by norm_num)
  rcases le_total 180 |dec| with beyond | short
  · have less : (|mirrored dec| - 90) / 180 = (|dec| - 90) / 180 - 1 := by
      rw [abs_mirrored, abs_of_nonneg (sub_nonneg.mpr beyond)]
      ring
    have some_ := Int.ceil_pos.mpr positive
    simp only [folds, literal, Nat.cast_ofNat]
    rw [less, Int.ceil_sub_one]
    omega
  · have inside : folds (mirrored dec) = 0 := by
      rw [folds_zero, abs_mirrored, abs_of_nonpos (sub_nonpos.mpr short)]
      linarith
    have one : ⌈(|dec| - 90) / 180⌉ = 1 := by
      rw [Int.ceil_eq_iff]
      push_cast
      constructor
      · linarith
      · rw [div_le_one (by norm_num)]
        linarith
    rw [inside, folds, literal_ofNat, literal_ofNat, one]
    rfl

def place (odd : Bool) (dec : K) : K := if odd then literal 180 - dec else dec

theorem overPoles_folds (flip : ℤ) (ra dec : K) :
    (overPoles flip ra dec).1 = toggle^[folds dec] flip ∧
      (overPoles flip ra dec).2.1 = ra + 180 * folds dec ∧
      |(overPoles flip ra dec).2.2| ≤ 90 ∧
      ∃ t : ℤ, (overPoles flip ra dec).2.2 = place (oddFolds dec) dec + 360 * t := by
  fun_induction overPoles flip ra dec with
  | case1 flip ra dec behind ih =>
    obtain ⟨flips, turned, inside, t, placed⟩ := ih
    rw [literal_ofNat] at behind
    have one := folds_succ behind
    refine ⟨?_, ?_, inside, ?_⟩
    · rw [flips, one, Function.iterate_succ_apply]
    · rw [turned, one, literal_ofNat]
      push_cast
      ring
    · have other : oddFolds dec = !oddFolds (mirrored dec) := by
        simp only [oddFolds, one, ← decide_not, decide_eq_decide]
        omega
      rw [placed, other]
      cases oddFolds (mirrored dec) with
      | false =>
        simp only [mirrored, literal, Nat.cast_ofNat]
        split
        · exact ⟨t, by simp [place]⟩
        · exact ⟨t - 1, by simp [place]; ring⟩
      | true =>
        simp only [mirrored, literal, Nat.cast_ofNat]
        split
        · exact ⟨t, by simp [place]⟩
        · exact ⟨t + 1, by simp [place]; ring⟩
  | case2 flip ra dec behind =>
    rw [literal_ofNat] at behind
    have none_ : folds dec = 0 := folds_zero.mpr (not_lt.mp behind)
    refine ⟨?_, ?_, not_lt.mp behind, 0, ?_⟩
    · rw [none_]
      rfl
    · rw [none_]
      simp
    · simp [oddFolds, none_, place]

theorem toggle_zero (n : ℕ) : toggle^[n] 0 = if n % 2 = 1 then 1 else 0 := by
  induction n with
  | zero => rfl
  | succ n ih =>
    rw [Function.iterate_succ_apply', ih]
    rcases Nat.mod_two_eq_zero_or_one n with even | odd
    · have next : (n + 1) % 2 = 1 := by omega
      rw [even, next]
      rfl
    · have next : (n + 1) % 2 = 0 := by omega
      rw [odd, next]
      rfl

theorem toggle_set {flip : ℤ} (set : flip ≠ 0) {n : ℕ} (some_ : n ≠ 0) :
    toggle^[n] flip = if n % 2 = 1 then 0 else 1 := by
  obtain ⟨k, rfl⟩ := Nat.exists_eq_succ_of_ne_zero some_
  have first : toggle flip = 0 := if_pos set
  rw [Function.iterate_succ_apply, first, toggle_zero]
  rcases Nat.mod_two_eq_zero_or_one k with even | odd
  · have next : (k + 1) % 2 = 1 := by omega
    rw [even, next]
    rfl
  · have next : (k + 1) % 2 = 0 := by omega
    rw [odd, next]
    rfl

def stale (flip : ℤ) (dec : K) : Bool := flip ≠ 0 && folds dec ≠ 0

theorem in_range {dec : K} (inside : |dec| ≤ 90) :
    (if literal 180 < ln_range_degrees dec then ln_range_degrees dec - literal 360 else ln_range_degrees dec) = dec := by
  obtain ⟨low, high⟩ := abs_le.mp inside
  rcases le_or_gt 0 dec with north | south
  · have floor : ⌊dec / 360⌋ = 0 := by
      rw [Int.floor_eq_zero_iff, Set.mem_Ico, div_lt_one (by norm_num)]
      exact ⟨div_nonneg north (by norm_num), by linarith⟩
    have same : ln_range_degrees dec = dec := by simp [ln_range_degrees, floor]
    rw [same, if_neg (by rw [literal_ofNat]; linarith)]
  · have floor : ⌊dec / 360⌋ = -1 := by
      rw [Int.floor_eq_iff]
      push_cast
      constructor
      · rw [le_div_iff₀ (by norm_num)]
        linarith
      · have neg := div_neg_of_neg_of_pos south (show (0 : K) < 360 by norm_num)
        linarith
    have same : ln_range_degrees dec = dec + 360 := by
      rw [ln_range_degrees, literal_ofNat, floor]
      push_cast
      ring
    rw [same, if_pos (by rw [literal_ofNat]; linarith), literal_ofNat]
    ring

section Read

variable (m : Mount K) (ls : K) (ac dc flip : ℤ)

theorem counts2sky_read :
    (m.counts2sky ls ac dc flip).flip = (if oddFolds (m.readDec dc) != stale flip (m.readDec dc) then 1 else 0) ∧
      (∃ t : ℤ, (m.counts2sky ls ac dc flip).ra =
        ls - m.readHa ac + (if oddFolds (m.readDec dc) then 180 else 0) + 360 * t) ∧
      |(m.counts2sky ls ac dc flip).dec| ≤ 90 ∧
      ∃ t : ℤ, (m.counts2sky ls ac dc flip).dec =
        place (oddFolds (m.readDec dc)) (m.readDec dc) + 360 * t := by
  obtain ⟨flips, turned, inside, t, placed⟩ := overPoles_folds flip (ls - m.readHa ac) (m.readDec dc)
  have sky : m.counts2sky ls ac dc flip =
      ⟨ln_range_degrees (overPoles flip (ls - m.readHa ac) (m.readDec dc)).2.1,
        (overPoles flip (ls - m.readHa ac) (m.readDec dc)).2.2,
        if 90 < |m.readDec dc| then toggle^[folds (m.readDec dc)] flip else 0,
        ls - m.readHa ac, m.readDec dc⟩ := by
    rw [← flips]
    by_cases behind : 90 < |m.readDec dc|
    · have behind' : (literal 90 : K) < |m.readDec dc| := by rwa [literal_ofNat]
      simp only [Mount.counts2sky, if_pos behind', if_pos behind, in_range inside]
    · have behind' : ¬(literal 90 : K) < |m.readDec dc| := by rwa [literal_ofNat]
      have level : overPoles flip (ls - m.readHa ac) (m.readDec dc) = (flip, ls - m.readHa ac, m.readDec dc) := by
        rw [overPoles, dif_neg behind']
      rw [level] at inside ⊢
      simp only [Mount.counts2sky, if_neg behind', if_neg behind, in_range inside]
  rw [sky]
  refine ⟨?_, ?_, inside, t, placed⟩
  · split
    · rename_i behind
      have some_ : folds (m.readDec dc) ≠ 0 := fun none_ => absurd (folds_zero.mp none_) (not_le.mpr behind)
      by_cases set : flip = 0
      · rw [set, toggle_zero]
        simp [oddFolds, stale]
      · rw [toggle_set set some_]
        rcases Nat.mod_two_eq_zero_or_one (folds (m.readDec dc)) with even | odd
        · simp [oddFolds, stale, set, some_, even]
        · simp [oddFolds, stale, set, some_, odd]
    · rename_i level
      have none_ : folds (m.readDec dc) = 0 := folds_zero.mpr (not_lt.mp level)
      simp [oddFolds, stale, none_]
  · obtain ⟨q, ranged⟩ : ∃ q : ℤ, ln_range_degrees (overPoles flip (ls - m.readHa ac) (m.readDec dc)).2.1 =
        (overPoles flip (ls - m.readHa ac) (m.readDec dc)).2.1 - 360 * q := ⟨_, rfl⟩
    obtain ⟨h, parts⟩ : ∃ h : ℕ, folds (m.readDec dc) = 2 * h + folds (m.readDec dc) % 2 := ⟨_, (Nat.div_add_mod _ _).symm⟩
    have half : 180 * (folds (m.readDec dc) : K) = (if oddFolds (m.readDec dc) then 180 else 0) + 360 * h := by
      rw [parts]
      rcases Nat.mod_two_eq_zero_or_one (folds (m.readDec dc)) with even | odd
      · simp [oddFolds, even]
        ring
      · simp [oddFolds, odd]
        ring
    refine ⟨h - q, ?_⟩
    dsimp only
    rw [ranged, turned, half]
    push_cast
    ring

theorem ln_range_inside (angle : K) : 0 ≤ ln_range_degrees angle ∧ ln_range_degrees angle < 360 := by
  have low := Int.floor_le (angle / 360)
  have up := Int.lt_floor_add_one (angle / 360)
  rw [le_div_iff₀ (by norm_num)] at low
  rw [div_lt_iff₀ (by norm_num)] at up
  rw [ln_range_degrees, literal_ofNat]
  constructor <;> linarith

theorem counts2sky_inside : (0 ≤ (m.counts2sky ls ac dc flip).ra ∧ (m.counts2sky ls ac dc flip).ra < 360) ∧
    |(m.counts2sky ls ac dc flip).dec| ≤ 90 ∧
    (∃ t : ℤ, (m.counts2sky ls ac dc flip).ra =
      ls - m.readHa ac + (if oddFolds (m.readDec dc) then 180 else 0) + 360 * t) ∧
    ∃ t : ℤ, (m.counts2sky ls ac dc flip).dec = place (oddFolds (m.readDec dc)) (m.readDec dc) + 360 * t := by
  obtain ⟨-, turned, inside, placed⟩ := counts2sky_read m ls ac dc flip
  refine ⟨?_, inside, turned, placed⟩
  unfold Mount.counts2sky
  exact ln_range_inside _

end Read

theorem hundred_read : |(hundred.counts2sky 0 0 27500 0).dec| ≤ 90 :=
  (counts2sky_inside hundred.toMount 0 0 27500 0).2.1

structure Sought (K : Type) [Field K] [LinearOrder K] extends Call K where
  south : -90 < dec
  north : dec < 90
  applyModel_none : ∀ flipped ac dc, applyModel flipped ac dc = ⟨0, 0⟩

def dropped (x : K) : K := x - int32_t x

def Axis.WithinCount (a : Axis K) (counts : K) : Prop := ∃ t : ℤ, |counts - t * (a.cpd * literal 360)| < 1

namespace Mount

variable (m : Mount K) (c : Call K) (flipped : Bool)

/-- The fractions of counts that are dropped on the way to the counts: of the position, of the half turn and of each
turn that is added. -/
def droppedAc (turns : ℤ) : K :=
  dropped ((hourAngle c - m.ha.zero) * m.ha.cpd) - (if flipped then dropped (|m.ha.cpd * literal 360| / literal 2) else 0) +
    turns * dropped |m.ha.cpd * literal 360|

def droppedDc (turns : ℤ) : K :=
  dropped ((c.dec - m.dec.zero) * m.dec.cpd) + (if flipped then dropped ((literal 90 - c.dec) * literal 2 * m.dec.cpd) else 0) +
    turns * dropped |m.dec.cpd * literal 360|

/-- The target comes back from its counts and whole turns of the axes, with the branch that was chosen. -/
def Back (c : Sought K) (i j flip : ℤ) : Prop :=
  ∀ a, m.sky2counts c.toCall = some a → a.ret = 0 →
    let sky := m.counts2sky c.ls (a.ac + i * m.ha.full) (a.dc + j * m.dec.full) flip
    (∃ t : ℤ, |sky.ra - c.ra - literal 360 * t| < 1 / |m.ha.cpd|) ∧ |sky.dec - c.dec| < 1 / |m.dec.cpd| ∧
      sky.flip = (if a.use_flipped then 1 else 0)

/-- The declination is not carried over a pole, a flip that was there before is not read, and the dropped fractions
add up to less than a count. (A flip that is read makes up for a pole where the place behind it is as near.) -/
def Readable (a : Answer) (i j flip : ℤ) : Prop :=
  let ac := a.ac + i * m.ha.full
  let dc := a.dc + j * m.dec.full
  let counts := m.countsOf c a.use_flipped
  let carried := oddFolds (m.readDec dc) != a.use_flipped
  carried = stale flip (m.readDec dc) ∧
    m.ha.WithinCount (m.droppedAc c a.use_flipped ((ac - counts.1) / m.ha.full) +
      (if carried then literal 180 * m.ha.cpd else 0)) ∧
    m.dec.WithinCount (m.droppedDc c a.use_flipped ((dc - counts.2) / m.dec.full) -
      (if carried then (place a.use_flipped c.dec - place (!a.use_flipped) c.dec) * m.dec.cpd else 0))

end Mount

omit [FloorRing K] in
theorem short_turn {x : K} (short : |x| ≤ 180) (k : ℤ) : |x| ≤ |x + 360 * k| := by
  rcases lt_trichotomy k 0 with below | rfl | above
  · have one : (k : K) ≤ -1 := by exact_mod_cast Int.le_sub_one_of_lt below
    obtain ⟨low, high⟩ := abs_le.mp short
    rw [abs_of_nonpos (show x + 360 * k ≤ 0 by linarith)]
    exact short.trans (by linarith)
  · simp
  · have one : (1 : K) ≤ k := by exact_mod_cast above
    obtain ⟨low, high⟩ := abs_le.mp short
    rw [abs_of_nonneg (show 0 ≤ x + 360 * k by linarith)]
    exact short.trans (by linarith)

omit [FloorRing K] in
theorem angle_iff {a : Axis K} (cpd : a.cpd ≠ 0) {angle counts : K} {k : ℤ}
    (same : angle * a.cpd = counts + k * (a.cpd * 360)) :
    (∃ t : ℤ, |angle - 360 * t| < 1 / |a.cpd|) ↔ a.WithinCount counts := by
  have each (t : ℤ) : |angle - 360 * t| < 1 / |a.cpd| ↔ |counts - (t - k : ℤ) * (a.cpd * 360)| < 1 := by
    rw [lt_div_iff₀ (abs_pos.mpr cpd), ← abs_mul]
    have moved : (angle - 360 * t) * a.cpd = counts - (t - k : ℤ) * (a.cpd * 360) := by
      push_cast
      linear_combination same
    rw [moved]
  constructor
  · rintro ⟨t, near⟩
    exact ⟨t - k, (each t).mp near⟩
  · rintro ⟨t, near⟩
    refine ⟨t + k, (each (t + k)).mpr ?_⟩
    rwa [Int.add_sub_cancel]

omit [IsStrictOrderedRing K] [FloorRing K] in
theorem withinCount_neg {a : Axis K} {counts : K} : a.WithinCount (-counts) ↔ a.WithinCount counts := by
  have each {counts : K} (near : a.WithinCount (-counts)) : a.WithinCount counts := by
    obtain ⟨t, near⟩ := near
    refine ⟨-t, ?_⟩
    rw [← abs_neg]
    push_cast
    convert near using 2
    ring
  constructor
  · exact each
  · intro near
    exact each (by rwa [neg_neg])

section Accepted

variable (m : Mount K) (c : Sought K)

theorem moved_same (counted : m.Counted) (flipped : Bool) : m.moved c.toCall counted flipped =
    ((m.normalized c.toCall counted flipped).t_ac, (m.normalized c.toCall counted flipped).t_dc) := by
  have zero (x : K) : int32_t (0 * x) = 0 := by simp [int32_t]
  simp only [Mount.moved, c.applyModel_none, zero, add_zero, sub_zero, ite_self]

theorem accepted_turns {a : Answer} (answer : m.sky2counts c.toCall = some a) (ok : a.ret = 0) :
    m.Counted ∧ m.ha.full ∣ a.ac - (m.countsOf c.toCall a.use_flipped).1 ∧
      m.dec.full ∣ a.dc - (m.countsOf c.toCall a.use_flipped).2 := by
  unfold Mount.sky2counts at answer
  split at answer
  · rename_i counted
    obtain rfl := Option.some.inj answer
    have kept : ¬m.PushedOut c.toCall counted := by
      rintro ⟨accepted, out⟩
      obtain ⟨limits, limits'⟩ := accepted_inside _ _ _ _ _ _ _ accepted
      rw [moved_same] at out
      simp only [Mount.outside, Bool.or_eq_true, decide_eq_true_eq] at out
      rcases out with (low | high) | low | high
      · exact absurd limits'.1 (not_le.mpr low)
      · exact absurd limits'.2 (not_le.mpr high)
      · exact absurd limits.1 (not_le.mpr low)
      · exact absurd limits.2 (not_le.mpr high)
    obtain ⟨same, -⟩ := (answer_kept m c.toCall counted kept).1 ok
    rw [moved_same] at same
    obtain ⟨same_ac, same_dc⟩ := Prod.mk.inj same
    refine ⟨counted, ?_, ?_⟩
    · rw [same_ac]
      exact ac_turns _ _ _ _ _ _ _
    · rw [same_dc]
      exact dc_turns _ _ _ _ _ _ _
  · cases answer

end Accepted

section Placed

variable (m : Mount K) (c : Sought K) (ac dc flip : ℤ)

theorem dec_iff : |(m.counts2sky c.ls ac dc flip).dec - c.dec| < 1 / |m.dec.cpd| ↔
    ∃ t : ℤ, |m.readDec dc - place (oddFolds (m.readDec dc)) c.dec - 360 * t| < 1 / |m.dec.cpd| := by
  obtain ⟨-, -, inside, k, placed⟩ := counts2sky_read m c.ls ac dc flip
  have short : |(m.counts2sky c.ls ac dc flip).dec - c.dec| ≤ 180 := by
    obtain ⟨low, high⟩ := abs_le.mp inside
    have south := c.south
    have north := c.north
    exact abs_le.mpr ⟨by linarith, by linarith⟩
  have each : ∃ σ t₀ : ℤ, ∀ t : ℤ, |m.readDec dc - place (oddFolds (m.readDec dc)) c.dec - 360 * t| =
      |(m.counts2sky c.ls ac dc flip).dec - c.dec + 360 * (σ * (t - t₀) : ℤ)| := by
    rw [placed]
    cases oddFolds (m.readDec dc) with
    | false =>
      refine ⟨-1, -k, fun t => ?_⟩
      congr 1
      simp only [place, if_neg Bool.false_ne_true]
      push_cast
      ring
    | true =>
      refine ⟨1, k, fun t => ?_⟩
      rw [← abs_neg]
      congr 1
      simp only [place, if_true]
      push_cast
      ring
  obtain ⟨σ, t₀, each⟩ := each
  constructor
  · intro near
    refine ⟨t₀, ?_⟩
    rw [each, sub_self, mul_zero]
    simpa using near
  · rintro ⟨t, near⟩
    rw [each] at near
    exact (short_turn short _).trans_lt near

theorem ra_iff : (∃ t : ℤ, |(m.counts2sky c.ls ac dc flip).ra - c.ra - 360 * t| < 1 / |m.ha.cpd|) ↔
    ∃ t : ℤ, |c.ls - m.readHa ac + (if oddFolds (m.readDec dc) then 180 else 0) - c.ra - 360 * t| <
      1 / |m.ha.cpd| := by
  obtain ⟨-, ⟨k, turned⟩, -⟩ := counts2sky_read m c.ls ac dc flip
  rw [turned]
  constructor
  · rintro ⟨t, near⟩
    refine ⟨t - k, ?_⟩
    convert near using 2
    push_cast
    ring
  · rintro ⟨t, near⟩
    refine ⟨t + k, ?_⟩
    convert near using 2
    push_cast
    ring

end Placed

theorem turn_sign (a : Axis K) : ∃ σ : ℤ, (σ = 1 ∨ σ = -1) ∧ |a.cpd * 360| = σ * (a.cpd * 360) := by
  rcases abs_choice (a.cpd * 360) with same | opposite
  · exact ⟨1, Or.inl rfl, by simpa using same⟩
  · exact ⟨-1, Or.inr rfl, by simpa using opposite⟩

omit [LinearOrder K] [IsStrictOrderedRing K] [FloorRing K] in
theorem half_turns {σ : ℤ} (sign : σ = 1 ∨ σ = -1) (odd flipped : Bool) :
    ∃ e : ℤ, (if odd then (180 : K) else 0) + (if flipped then (σ : K) * 180 else 0) =
      (if odd != flipped then 180 else 0) + 360 * e := by
  rcases sign with rfl | rfl
  · cases odd <;> cases flipped
    · exact ⟨0, by simp⟩
    · exact ⟨0, by simp⟩
    · exact ⟨0, by simp⟩
    · exact ⟨1, by norm_num⟩
  · cases odd <;> cases flipped
    · exact ⟨0, by simp⟩
    · exact ⟨-1, by norm_num⟩
    · exact ⟨0, by simp⟩
    · exact ⟨0, by norm_num⟩

section Dropped

variable (m : Mount K) (c : Call K) (flipped odd : Bool) (turns : ℤ)

theorem ac_placed (cpd : m.ha.cpd ≠ 0) :
    ∃ k : ℤ, (c.ls - m.readHa ((m.countsOf c flipped).1 + turns * m.ha.full) + (if odd then 180 else 0) - c.ra) *
        m.ha.cpd =
      (m.droppedAc c flipped turns + if odd != flipped then 180 * m.ha.cpd else 0) + k * (m.ha.cpd * 360) := by
  obtain ⟨σ, sign, turn⟩ := turn_sign m.ha
  obtain ⟨e, halves⟩ := half_turns (K := K) sign odd flipped
  obtain ⟨q, angle⟩ : ∃ q : ℤ, Mount.hourAngle c = c.ls - c.ra - 360 * q := by
    unfold Mount.hourAngle
    dsimp only
    split
    · refine ⟨⌊(c.ls - c.ra) / 360⌋ + 1, ?_⟩
      simp only [ln_range_degrees, literal, Nat.cast_ofNat]
      push_cast
      ring
    · exact ⟨⌊(c.ls - c.ra) / 360⌋, rfl⟩
  have full : (m.ha.full : K) = |m.ha.cpd * 360| - dropped |m.ha.cpd * 360| := by simp [dropped, Axis.full]
  have position : m.readHa ((m.countsOf c flipped).1 + turns * m.ha.full) * m.ha.cpd =
      ((m.countsOf c flipped).1 + turns * m.ha.full : K) + m.ha.zero * m.ha.cpd := by
    unfold Mount.readHa
    field_simp
    push_cast
    ring
  have counts : ((m.countsOf c flipped).1 : K) =
      (c.ls - c.ra - 360 * q - m.ha.zero) * m.ha.cpd - dropped ((Mount.hourAngle c - m.ha.zero) * m.ha.cpd) -
        (if flipped then |m.ha.cpd * 360| / 2 - dropped (|m.ha.cpd * 360| / 2) else 0) := by
    rw [← angle]
    cases flipped with
    | false => simp [Mount.countsOf, Mount.targetAc, dropped]
    | true => simp [Mount.countsOf, Mount.targetAc, dropped]
  have half : (if flipped then |m.ha.cpd * 360| / 2 - dropped (|m.ha.cpd * 360| / 2) else 0) =
      (if flipped then (σ : K) * 180 else 0) * m.ha.cpd - (if flipped then dropped (|m.ha.cpd * 360| / 2) else 0) := by
    split
    · rw [turn]
      ring
    · ring
  have carried : (if odd != flipped then 180 * m.ha.cpd else 0) = (if odd != flipped then 180 else 0) * m.ha.cpd := by
    split
    · rfl
    · ring
  refine ⟨q + e - turns * σ, ?_⟩
  simp only [Mount.droppedAc, literal, Nat.cast_ofNat]
  rw [carried]
  push_cast
  linear_combination -position - counts + half - turns * full - turns * turn + m.ha.cpd * halves

theorem dc_placed (cpd : m.dec.cpd ≠ 0) :
    ∃ k : ℤ, (m.readDec ((m.countsOf c flipped).2 + turns * m.dec.full) - place odd c.dec) * m.dec.cpd =
      -(m.droppedDc c flipped turns -
        if odd != flipped then (place flipped c.dec - place (!flipped) c.dec) * m.dec.cpd else 0) +
        k * (m.dec.cpd * 360) := by
  obtain ⟨σ, sign, turn⟩ := turn_sign m.dec
  have full : (m.dec.full : K) = |m.dec.cpd * 360| - dropped |m.dec.cpd * 360| := by simp [dropped, Axis.full]
  have position : m.readDec ((m.countsOf c flipped).2 + turns * m.dec.full) * m.dec.cpd =
      ((m.countsOf c flipped).2 + turns * m.dec.full : K) + m.dec.zero * m.dec.cpd := by
    unfold Mount.readDec
    field_simp
    push_cast
    ring
  have counts : ((m.countsOf c flipped).2 : K) =
      (place flipped c.dec - m.dec.zero) * m.dec.cpd - dropped ((c.dec - m.dec.zero) * m.dec.cpd) -
        (if flipped then dropped ((90 - c.dec) * 2 * m.dec.cpd) else 0) := by
    cases flipped with
    | false => simp [Mount.countsOf, Mount.targetDc, dropped, place]
    | true =>
      simp only [Mount.countsOf, Mount.targetDc, dropped, place, literal, Nat.cast_ofNat, if_true]
      push_cast
      ring
  have carried : (if odd != flipped then (place flipped c.dec - place (!flipped) c.dec) * m.dec.cpd else 0) =
      (place flipped c.dec - place odd c.dec) * m.dec.cpd := by
    cases odd <;> cases flipped <;> simp
  refine ⟨turns * σ, ?_⟩
  simp only [Mount.droppedDc, literal, Nat.cast_ofNat]
  rw [carried]
  push_cast
  linear_combination position + counts + turns * full + turns * turn

end Dropped

theorem cpd_ne_zero {a : Axis K} (counted : 0 < a.full) : a.cpd ≠ 0 := by
  intro none_
  simp [Axis.full, none_, int32_t] at counted

theorem back_iff (m : Mount K) (c : Sought K) (i j flip : ℤ) :
    m.Back c i j flip ↔ ∀ a, m.sky2counts c.toCall = some a → a.ret = 0 → m.Readable c.toCall a i j flip := by
  refine forall_congr' fun a => forall_congr' fun answer => forall_congr' fun ok => ?_
  obtain ⟨counted, ⟨p, turns_ac⟩, q, turns_dc⟩ := accepted_turns m c answer ok
  have ac : a.ac + i * m.ha.full = (m.countsOf c.toCall a.use_flipped).1 + (p + i) * m.ha.full := by
    linear_combination turns_ac
  have dc : a.dc + j * m.dec.full = (m.countsOf c.toCall a.use_flipped).2 + (q + j) * m.dec.full := by
    linear_combination turns_dc
  have left_ac := Int.mul_ediv_cancel (p + i) counted.1.ne'
  have left_dc := Int.mul_ediv_cancel (q + j) counted.2.ne'
  have flips (odd old : Bool) : (if odd != old then (1 : ℤ) else 0) = (if a.use_flipped then 1 else 0) ↔
      (odd != a.use_flipped) = old := by
    cases odd <;> cases old <;> cases a.use_flipped <;> decide
  obtain ⟨flip_read, -⟩ := counts2sky_read m c.ls (a.ac + i * m.ha.full) (a.dc + j * m.dec.full) flip
  simp only [Mount.Readable, literal, Nat.cast_ofNat]
  rw [ra_iff, dec_iff, flip_read, flips, ac, dc, add_sub_cancel_left, add_sub_cancel_left, left_ac, left_dc]
  obtain ⟨k, placed_ac⟩ := ac_placed m c.toCall a.use_flipped
    (oddFolds (m.readDec ((m.countsOf c.toCall a.use_flipped).2 + (q + j) * m.dec.full))) (p + i)
    (cpd_ne_zero counted.1)
  obtain ⟨k', placed_dc⟩ := dc_placed m c.toCall a.use_flipped
    (oddFolds (m.readDec ((m.countsOf c.toCall a.use_flipped).2 + (q + j) * m.dec.full))) (q + j)
    (cpd_ne_zero counted.2)
  rw [angle_iff (cpd_ne_zero counted.1) placed_ac, angle_iff (cpd_ne_zero counted.2) placed_dc, withinCount_neg]
  constructor
  · rintro ⟨near_ac, near_dc, old⟩
    exact ⟨old, near_ac, near_dc⟩
  · rintro ⟨old, near_ac, near_dc⟩
    exact ⟨near_ac, near_dc, old⟩

/-- The counts of a target are read as that target just where its declination is not carried over a pole, no flip from
before is read and the dropped fractions stay below a count. -/
theorem counts2sky_back (m : Mount K) (c : Sought K) (i j flip : ℤ) :
    m.Back c i j flip ↔ ∀ a, m.sky2counts c.toCall = some a → a.ret = 0 → m.Readable c.toCall a i j flip :=
  back_iff m c i j flip

theorem thousand_within : -90 < thousand.dec ∧ thousand.dec < 90 := by norm_num [thousand]

def east : Sought ℚ where
  toCall := { thousand with used_flipping := 4, applyModel := fun _ _ _ => ⟨0, 0⟩ }
  south := thousand_within.1
  north := thousand_within.2
  applyModel_none _ _ _ := rfl

theorem east_counts : hundred.sky2counts east.toCall = some ⟨0, true, -18000, 18000, -1⟩ := by
  have stays : hundred.normalized east.toCall hundred.counted true = ⟨0, -18000, 18000, false⟩ := thousand_stays
  have moved : hundred.moved east.toCall hundred.counted true = (-18000, 18000) := by rw [moved_same, stays]
  have inside : hundred.outside ((-18000, 18000) : ℤ × ℤ) = false := by decide
  have above : ¬east.alt < -5 := by norm_num [east, thousand]
  have counted : hundred.sky2counts east.toCall = some (hundred.sky2countsCounted east.toCall hundred.counted) :=
    dif_pos hundred.counted
  have chosen : (hundred.chooseFlip east.toCall hundred.counted) = (true, -1) := rfl
  have far : hundred.closeToMargin east.toCall hundred.counted true = false := by simp [Mount.closeToMargin, east, thousand]
  have limits : east.updateLimits = 0 := rfl
  rw [counted]
  simp only [Mount.sky2countsCounted, if_neg above, limits, stays, moved, inside, chosen, far]
  -- the other position, accepted or not, is not chosen
  generalize hundred.normalized east.toCall hundred.counted false = n
  generalize hundred.outside (hundred.moved east.toCall hundred.counted false) = out
  by_cases accepted : n.ret = 0
  · cases out <;> simp [accepted, east, thousand]
  · simp [accepted, east, thousand]

theorem east_back : hundred.Back east 0 0 0 := by
  rw [counts2sky_back]
  intro a answer _
  obtain rfl := Option.some.inj (east_counts.symm.trans answer)
  have whole (n : ℤ) : dropped (n : ℚ) = 0 := sub_eq_zero.mpr (by rw [int32_t_intCast])
  have behind : hundred.readDec 18000 = 180 := by norm_num [Mount.readDec, hundred]
  have one : folds (180 : ℚ) = 1 := by
    rw [folds, literal_ofNat, literal_ofNat, show ⌈(|(180 : ℚ)| - 90) / 180⌉ = 1 by norm_num]
    rfl
  have zero := whole 0
  have half := whole 18000
  have full := whole 36000
  push_cast at zero half full
  have ac (t : ℤ) : hundred.droppedAc east.toCall true t = 0 := by
    norm_num [Mount.droppedAc, Mount.hourAngle, ln_range_degrees, hundred, east, thousand, zero, half, full]
  have dc (t : ℤ) : hundred.droppedDc east.toCall true t = 0 := by
    norm_num [Mount.droppedDc, hundred, east, thousand, zero, half, full]
  simp [Mount.Readable, behind, oddFolds, stale, one, ac, dc, Axis.WithinCount]
  exact ⟨⟨0, by norm_num⟩, 0, by norm_num⟩

/-- Paramount::doInfo does not set the flip before it is read. -/
theorem flip_from_before : ¬hundred.Back east 0 0 1 := by
  rw [back_iff]
  intro readable
  obtain ⟨old, -⟩ := readable _ east_counts rfl
  have behind : hundred.readDec 18000 = 180 := by norm_num [Mount.readDec, hundred]
  have one : folds (180 : ℚ) = 1 := by
    have fold : ⌈(|(180 : ℚ)| - 90) / 180⌉ = 1 := by norm_num
    rw [folds, literal_ofNat, literal_ofNat, fold]
    rfl
  simp [behind, oddFolds, stale, one] at old

end Rts2.Teld.Gem
