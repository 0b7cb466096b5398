import Rts2.Lib.Turns

/-! Counts of a german equatorial mount: the whole turns that are added to a target. Counts are integers and angles
are exact. -/
namespace Rts2.Teld.Gem

open Rts2.Lib.Turns

variable {K : Type} [Field K] [LinearOrder K] [FloorRing K]

def int32_t (x : K) : ℤ := if 0 ≤ x then ⌊x⌋ else ⌈x⌉

/-- One axis: where its counts are zero, the counts of a degree and the limits. -/
structure Axis (K : Type) where
  zero : K
  cpd : K
  min : ℤ
  max : ℤ

def Axis.full (a : Axis K) : ℤ := int32_t |a.cpd * 360|

def Axis.half (a : Axis K) : ℤ := int32_t |a.cpd * 180|

structure Hrz (K : Type) where
  alt : K
  az : K

structure Mount (K : Type) where
  ha : Axis K
  dec : Axis K
  acMargin : ℤ
  telLatitude : K

def Mount.Counted (m : Mount K) : Prop := 0 < m.ha.full ∧ 0 < m.dec.full

/-- The loops that bring the right ascension axis between its limits; which comes first depends on the hemisphere. -/
def settle (full : ℤ) (positive : 0 < full) (south north : Bool) (lo hi t_ac : ℤ) : ℤ :=
  let t_ac := if south then stepUp full positive lo t_ac else t_ac
  let t_ac := stepDown full positive hi t_ac
  if north then stepUp full positive lo t_ac else t_ac

/-- What is returned, with the target counts and whether the declination axis was sent the other way round. -/
structure Normalized where
  ret : ℤ
  t_ac : ℤ
  t_dc : ℤ
  downFlip : Bool
  deriving DecidableEq

namespace Mount

variable (m : Mount K) (counts2hrz : ℤ → ℤ → Hrz K)

def diffAc (ac dc t_ac t_dc : ℤ) : ℤ :=
  let diff_ac := (ac - t_ac).tmod m.ha.full
  let diff_dc := (dc - t_dc).tmod m.dec.full
  let diff_ac := if m.ha.half < diff_ac then diff_ac - m.ha.full else diff_ac
  -- the test is of the other axis
  if diff_dc < -m.ha.half then diff_ac + m.ha.full else diff_ac

def diffDc (dc t_dc : ℤ) : ℤ :=
  let diff_dc := (dc - t_dc).tmod m.dec.full
  let diff_dc := if m.dec.half < diff_dc then diff_dc - m.dec.full else diff_dc
  if diff_dc < -m.dec.half then diff_dc + m.dec.full else diff_dc

/-- The declination axis is below the horizon at its current counts, the target is on the other side, and the way
would end downwards. -/
def goesDown (dc t_ac t_dc : ℤ) : Bool :=
  let hrz := counts2hrz t_ac dc
  let hrz_tar := counts2hrz t_ac t_dc
  let before := if dc < t_dc then int32_t ((t_dc : K) - |m.dec.cpd|) else int32_t ((t_dc : K) + |m.dec.cpd|)
  hrz.alt < 0 && hrz_tar.alt < 45 &&
    (hrz.az < 180 && 180 < hrz_tar.az || 180 < hrz.az && hrz_tar.az < 180) &&
    (counts2hrz t_ac before).alt < hrz_tar.alt

def normalizeCountValues (counted : m.Counted) (ac dc t_ac t_dc : ℤ) : Normalized :=
  let ac' := ac - m.diffAc ac dc t_ac t_dc
  let dc' := dc - m.diffDc dc t_dc
  let t_ac := settle m.ha.full counted.1 (m.telLatitude < 0) (0 < m.telLatitude) (m.ha.min + m.acMargin)
    (m.ha.max - m.acMargin) ac'
  let t_dc := stepDown m.dec.full counted.2 m.dec.max (stepUp m.dec.full counted.2 m.dec.min dc')
  let downFlip := m.goesDown counts2hrz dc t_ac t_dc
  let t_dc := if downFlip then if dc < t_dc then t_dc - m.dec.full else t_dc + m.dec.full else t_dc
  let ret :=
    if t_dc < m.dec.min || m.dec.max < t_dc then -1
    else if t_ac < m.ha.min || m.ha.max < t_ac then -1
    else 0
  ⟨ret, t_ac, t_dc, downFlip⟩

def Inside (p : ℤ) : Prop := m.ha.min + m.acMargin ≤ p ∧ p ≤ m.ha.max - m.acMargin

instance (p : ℤ) : Decidable (m.Inside p) := inferInstanceAs (Decidable (_ ∧ _))

/-- What is accepted differs from the target by whole turns and is within the limits; an axis goes to the nearest
position when one of these is inside the limits. -/
def Right (counted : m.Counted) (ac dc t_ac t_dc : ℤ) : Prop :=
  let r := m.normalizeCountValues counts2hrz counted ac dc t_ac t_dc
  (r.ret = 0 →
    (m.ha.full ∣ r.t_ac - t_ac ∧ m.dec.full ∣ r.t_dc - t_dc) ∧
      (m.ha.min ≤ r.t_ac ∧ r.t_ac ≤ m.ha.max) ∧ m.dec.min ≤ r.t_dc ∧ r.t_dc ≤ m.dec.max) ∧
  ((∃ p, Nearest m.ha.full ac t_ac p ∧ m.Inside p) → Nearest m.ha.full ac t_ac r.t_ac) ∧
  ((∃ p, Nearest m.dec.full dc t_dc p ∧ m.dec.min ≤ p ∧ p ≤ m.dec.max) → r.downFlip = false →
    Nearest m.dec.full dc t_dc r.t_dc)

def left (ac t_ac : ℤ) : ℤ := (ac - t_ac).tmod m.ha.full

def folded (ac t_ac : ℤ) : ℤ :=
  if m.ha.half < m.left ac t_ac then m.left ac t_ac - m.ha.full else m.left ac t_ac

/-- The second test is made of the remainder of the declination axis. Where that differs, the nearest position and the
one a turn from it, to which the axis is sent, are not both inside; on the equator, where nothing moves the axis
upwards, no nearest position is. -/
def Harmless (ac dc t_ac t_dc : ℤ) : Prop :=
  let asked := (dc - t_dc).tmod m.dec.full < -m.ha.half
  (m.left ac t_ac < -m.ha.half → ¬asked →
    ¬(m.Inside (ac - m.left ac t_ac - m.ha.full) ∧ m.Inside (ac - m.left ac t_ac))) ∧
  (¬m.left ac t_ac < -m.ha.half → asked → ¬(m.left ac t_ac = -m.ha.half ∧ 2 * m.ha.half = m.ha.full) →
    (m.telLatitude ≠ 0 → ¬(m.Inside (ac - m.folded ac t_ac) ∧ m.Inside (ac - m.folded ac t_ac - m.ha.full))) ∧
    (m.telLatitude = 0 → ¬∃ p, Nearest m.ha.full ac t_ac p ∧ m.Inside p))

end Mount

theorem int32_t_nonneg {x : K} (nonneg : 0 ≤ x) : int32_t x = ⌊x⌋ := if_pos nonneg

section Turns

variable (m : Mount K) (ac dc t_ac t_dc : ℤ)

theorem diffDc_fold : m.diffDc dc t_dc = fold m.dec.full m.dec.half ((dc - t_dc).tmod m.dec.full) := rfl

theorem way_turns {full here wish way : ℤ} (turns : full ∣ way - (here - wish)) : full ∣ here - way - wish := by
  have swapped := dvd_swap turns
  have same : here - wish - way = here - way - wish := by ring
  rwa [same] at swapped

theorem diffDc_turns : m.dec.full ∣ dc - m.diffDc dc t_dc - t_dc := by
  apply way_turns
  exact dvd_trans_sub (fold_turns m.dec.full m.dec.half _) (dvd_swap (Int.dvd_self_sub_tmod))

theorem left_turns : m.ha.full ∣ ac - m.left ac t_ac - t_ac := way_turns (dvd_swap Int.dvd_self_sub_tmod)

end Turns

theorem half_nonneg [IsStrictOrderedRing K] (a : Axis K) : 0 ≤ a.half := by
  rw [Axis.half, int32_t_nonneg (abs_nonneg _)]
  exact Int.floor_nonneg.mpr (abs_nonneg _)

theorem axis_halved [IsStrictOrderedRing K] (a : Axis K) (positive : 0 < a.full) : Halved a.full a.half := by
  have double : |a.cpd * 360| = 2 * |a.cpd * 180| := by
    have parts : a.cpd * 360 = 2 * (a.cpd * 180) := by ring
    rw [parts, abs_mul, abs_two]
  have full : a.full = ⌊2 * |a.cpd * 180|⌋ := by rw [Axis.full, int32_t_nonneg (abs_nonneg _), double]
  have half : a.half = ⌊|a.cpd * 180|⌋ := int32_t_nonneg (abs_nonneg _)
  have below := Int.floor_le |a.cpd * 180|
  have above := Int.lt_floor_add_one |a.cpd * 180|
  refine ⟨positive, ?_, ?_⟩
  · rw [full, half]
    apply Int.le_floor.mpr
    push_cast
    linarith
  · rw [full, half]
    apply Int.le_of_lt_add_one
    apply Int.floor_lt.mpr
    push_cast
    linarith

section Settle

variable {full : ℤ} {positive : 0 < full} {south north : Bool} {lo hi t : ℤ}

theorem settle_turns (full : ℤ) (positive : 0 < full) (south north : Bool) (lo hi t : ℤ) :
    full ∣ settle full positive south north lo hi t - t := by
  have up (t : ℤ) := (stepUp_spec full positive lo t).1
  have down (t : ℤ) := (stepDown_spec full positive hi t).1
  unfold settle
  cases south <;> cases north
  · exact down t
  · exact dvd_trans_sub (up _) (down t)
  · exact dvd_trans_sub (down _) (up t)
  · exact dvd_trans_sub (dvd_trans_sub (up _) (down _)) (up t)

theorem settle_inside (low : lo ≤ t) (high : t ≤ hi) : settle full positive south north lo hi t = t := by
  unfold settle
  cases south <;> cases north <;> simp [stepUp_of_le low, stepDown_of_le high]

theorem settle_above {p : ℤ} (inside : lo ≤ p ∧ p ≤ hi) (turns : full ∣ p - t) (above : hi < t) :
    settle full positive south north lo hi t ≤ hi ∧ hi - full < settle full positive south north lo hi t := by
  obtain ⟨moved, bound, first⟩ := stepDown_spec full positive hi t
  have behind := first above
  have low : lo ≤ stepDown full positive hi t := by
    by_contra below
    have apart : full ∣ p - stepDown full positive hi t := dvd_trans_sub turns (dvd_swap moved)
    obtain ⟨k, same⟩ := apart
    have one : 1 ≤ k := by
      by_contra none_
      have small : full * k ≤ 0 := mul_nonpos_of_nonneg_of_nonpos positive.le (by omega)
      omega
    have turn : full * 1 ≤ full * k := mul_le_mul_of_nonneg_left one positive.le
    omega
  unfold settle
  have over_low : stepUp full positive lo t = t := stepUp_of_le (inside.1.trans (inside.2.trans above.le))
  cases south <;> cases north <;> simp [stepUp_of_le low, over_low, bound, behind]

theorem settle_below {p : ℤ} (inside : lo ≤ p ∧ p ≤ hi) (turns : full ∣ p - t) (below : t < lo)
    (loops : south = true ∨ north = true) :
    lo ≤ settle full positive south north lo hi t ∧ settle full positive south north lo hi t < lo + full := by
  obtain ⟨moved, bound, first⟩ := stepUp_spec full positive lo t
  have behind := first below
  have high : stepUp full positive lo t ≤ hi := by
    by_contra above
    have apart : full ∣ stepUp full positive lo t - p := dvd_trans_sub moved (dvd_swap turns)
    obtain ⟨k, same⟩ := apart
    have one : 1 ≤ k := by
      by_contra none_
      have small : full * k ≤ 0 := mul_nonpos_of_nonneg_of_nonpos positive.le (by omega)
      omega
    have turn : full * 1 ≤ full * k := mul_le_mul_of_nonneg_left one positive.le
    omega
  have under : stepDown full positive hi t = t := stepDown_of_le (below.le.trans (inside.1.trans inside.2))
  unfold settle
  rcases loops with rfl | rfl
  · cases north <;> simp [stepDown_of_le high, stepUp_of_le bound, bound, behind]
  · cases south <;> simp [under, stepDown_of_le high, stepUp_of_le bound, bound, behind]

theorem settle_equator (below : t < lo) (range : lo ≤ hi) : settle full positive false false lo hi t = t := by
  unfold settle
  simp [stepDown_of_le (show t ≤ hi by omega)]

theorem settle_nearest {here wish : ℤ} (near : Nearest full here wish t)
    (inside : ∃ p, Nearest full here wish p ∧ lo ≤ p ∧ p ≤ hi) :
    Nearest full here wish (settle full positive south north lo hi t) := by
  obtain ⟨p, near', low, high⟩ := inside
  have turns : full ∣ p - t := dvd_trans_sub near'.1 (dvd_swap near.1)
  have away := (nearest_iff positive near.1).mp near
  have away' := (nearest_iff positive near'.1).mp near'
  have close : p - t ≤ full ∧ t - p ≤ full := by
    rcases abs_cases (here - p) with h | h <;> rcases abs_cases (here - t) with h' | h' <;> omega
  by_cases below : t < lo
  · by_cases loops : south = true ∨ north = true
    · obtain ⟨bound, first⟩ := @settle_below full positive south north lo hi t p ⟨low, high⟩ turns below loops
      have same : settle full positive south north lo hi t = p := by
        apply eq_of_near (dvd_trans_sub (settle_turns full positive south north lo hi t) (dvd_swap turns)) <;> omega
      rw [same]
      exact near'
    · obtain ⟨rfl, rfl⟩ : south = false ∧ north = false := by simpa using loops
      rw [settle_equator below (low.trans high)]
      exact near
  · by_cases above : hi < t
    · obtain ⟨bound, first⟩ := @settle_above full positive south north lo hi t p ⟨low, high⟩ turns above
      have same : settle full positive south north lo hi t = p := by
        apply eq_of_near (dvd_trans_sub (settle_turns full positive south north lo hi t) (dvd_swap turns)) <;> omega
      rw [same]
      exact near'
    · rw [settle_inside (by omega) (by omega)]
      exact near

end Settle

section Missed

variable {full : ℤ} {positive : 0 < full} {south north : Bool} {lo hi here wish P : ℤ}

theorem too_high (turns : full ∣ P - wish) (near : 2 * |here - P| < full) :
    ((∃ p, Nearest full here wish p ∧ lo ≤ p ∧ p ≤ hi) →
      Nearest full here wish (settle full positive south north lo hi (P + full))) ↔
    ¬((lo ≤ P ∧ P ≤ hi) ∧ lo ≤ P + full ∧ P + full ≤ hi) := by
  have up : full ∣ P + full - wish := by
    rw [add_sub_right_comm]
    exact dvd_add turns (dvd_refl full)
  constructor
  · rintro arrives ⟨inside, inside'⟩
    have there := arrives ⟨P, (nearest_iff positive turns).mpr near.le, inside⟩
    rw [settle_inside inside'.1 inside'.2, nearest_iff positive up] at there
    rcases abs_cases (here - P) with h | h <;> rcases abs_cases (here - (P + full)) with h' | h' <;> omega
  · rintro apart ⟨p, nearest, low, high⟩
    have away := (nearest_iff positive nearest.1).mp nearest
    have same : p = P := by
      apply eq_of_near (dvd_trans_sub nearest.1 (dvd_swap turns)) <;>
        rcases abs_cases (here - P) with h | h <;> rcases abs_cases (here - p) with h' | h' <;> omega
    subst same
    have above : hi < p + full := by
      by_contra inside
      exact apart ⟨⟨low, high⟩, by omega, by omega⟩
    have one : full ∣ p - (p + full) := ⟨-1, by omega⟩
    obtain ⟨bound, first⟩ := @settle_above full positive south north lo hi (p + full) p ⟨low, high⟩ one above
    have back : settle full positive south north lo hi (p + full) = p := by
      apply eq_of_near (dvd_trans_sub (settle_turns full positive south north lo hi _) (dvd_swap one)) <;> omega
    rw [back]
    exact nearest

theorem too_low (turns : full ∣ P - wish) (near : 2 * |here - P| ≤ full) (far : full < 2 * |here - (P - full)|) :
    ((∃ p, Nearest full here wish p ∧ lo ≤ p ∧ p ≤ hi) →
      Nearest full here wish (settle full positive south north lo hi (P - full))) ↔
    (south = true ∨ north = true → ¬((lo ≤ P ∧ P ≤ hi) ∧ lo ≤ P - full ∧ P - full ≤ hi)) ∧
      (¬(south = true ∨ north = true) → ¬∃ p, Nearest full here wish p ∧ lo ≤ p ∧ p ≤ hi) := by
  have down : full ∣ P - full - wish := by
    rw [sub_right_comm]
    exact dvd_sub turns (dvd_refl full)
  have missed : ¬Nearest full here wish (P - full) := by
    rw [nearest_iff positive down]
    omega
  -- the nearest positions are this one, and the one above it when they are as far away
  have beside {p : ℤ} (nearest : Nearest full here wish p) : full ∣ p - P ∧ P ≤ p ∧ p ≤ P + full := by
    have away := (nearest_iff positive nearest.1).mp nearest
    refine ⟨dvd_trans_sub nearest.1 (dvd_swap turns), ?_, ?_⟩
    · by_contra under
      have lower : p = P - full := by
        apply eq_of_near (dvd_trans_sub nearest.1 (dvd_swap down)) <;>
          rcases abs_cases (here - P) with h | h <;> rcases abs_cases (here - p) with h' | h' <;> omega
      exact missed (lower ▸ nearest)
    · rcases abs_cases (here - P) with h | h <;> rcases abs_cases (here - p) with h' | h' <;> omega
  constructor
  · intro arrives
    refine ⟨fun _ both => ?_, fun none_ found => ?_⟩
    · obtain ⟨inside, inside'⟩ := both
      have there := arrives ⟨P, (nearest_iff positive turns).mpr near, inside⟩
      rw [settle_inside inside'.1 inside'.2] at there
      exact missed there
    · have there := arrives found
      obtain ⟨p, nearest, low, high⟩ := found
      obtain ⟨-, from_, -⟩ := beside nearest
      obtain ⟨rfl, rfl⟩ : south = false ∧ north = false := by simpa using none_
      have stays : settle full positive false false lo hi (P - full) = P - full := by
        by_cases below : P - full < lo
        · exact settle_equator below (low.trans high)
        · exact settle_inside (by omega) (by omega)
      rw [stays] at there
      exact missed there
  · rintro ⟨loops_apart, no_loops⟩ ⟨p, nearest, low, high⟩
    by_cases loops : south = true ∨ north = true
    · obtain ⟨apart, from_, until_⟩ := beside nearest
      have below : P - full < lo := by
        by_contra inside
        exact loops_apart loops ⟨⟨by omega, by omega⟩, by omega, by omega⟩
      have turns' : full ∣ p - (P - full) := dvd_trans_sub nearest.1 (dvd_swap down)
      obtain ⟨bound, first⟩ :=
        @settle_below full positive south north lo hi (P - full) p ⟨low, high⟩ turns' below loops
      have moved := settle_turns full positive south north lo hi (P - full)
      by_cases here_ : lo ≤ P
      · have back : settle full positive south north lo hi (P - full) = P := by
          apply eq_of_near (dvd_trans_sub moved (dvd_trans_sub down (dvd_swap turns))) <;> omega
        rw [back]
        exact (nearest_iff positive turns).mpr near
      · have back : settle full positive south north lo hi (P - full) = p := by
          apply eq_of_near (dvd_trans_sub moved (dvd_swap turns')) <;> omega
        rw [back]
        exact nearest
    · exact absurd ⟨p, nearest, low, high⟩ (no_loops loops)

end Missed

section Ways

variable (m : Mount K) (counts2hrz : ℤ → ℤ → Hrz K) (counted : m.Counted) (ac dc t_ac t_dc : ℤ)

theorem diffDc_nearest [IsStrictOrderedRing K] (positive : 0 < m.dec.full) :
    Nearest m.dec.full dc t_dc (dc - m.diffDc dc t_dc) := by
  have halved := axis_halved m.dec positive
  obtain ⟨-, above, below⟩ := tmod_turns positive (dc - t_dc)
  have short := fold_short halved above below
  apply (nearest_iff positive (diffDc_turns m dc t_dc)).mpr
  rw [sub_sub_cancel, diffDc_fold]
  have low := halved.low
  omega

theorem folded_range [IsStrictOrderedRing K] (positive : 0 < m.ha.full) :
    m.folded ac t_ac ≤ m.ha.half ∧ (-m.ha.half ≤ m.left ac t_ac → -m.ha.half ≤ m.folded ac t_ac) := by
  have halved := axis_halved m.ha positive
  obtain ⟨-, above, below⟩ := tmod_turns positive (ac - t_ac)
  have low := halved.low
  have high := halved.high
  unfold Mount.folded Mount.left
  constructor <;> split <;> omega

theorem folded_turns : m.ha.full ∣ ac - m.folded ac t_ac - t_ac := by
  unfold Mount.folded
  split
  · have back := dvd_add (left_turns m ac t_ac) (dvd_refl m.ha.full)
    have same : ac - m.left ac t_ac - t_ac + m.ha.full = ac - (m.left ac t_ac - m.ha.full) - t_ac := by ring
    rwa [same] at back
  · exact left_turns m ac t_ac

theorem ac_iff [IsStrictOrderedRing K] :
    ((∃ p, Nearest m.ha.full ac t_ac p ∧ m.Inside p) →
      Nearest m.ha.full ac t_ac (m.normalizeCountValues counts2hrz counted ac dc t_ac t_dc).t_ac) ↔
    m.Harmless ac dc t_ac t_dc := by
  have positive := counted.1
  have halved := axis_halved m.ha positive
  have low := halved.low
  have high := halved.high
  have nonneg := half_nonneg m.ha
  obtain ⟨-, above, below⟩ := tmod_turns positive (ac - t_ac)
  change m.left ac t_ac < m.ha.full at above
  change -m.ha.full < m.left ac t_ac at below
  have loops : (decide (m.telLatitude < 0) = true ∨ decide (0 < m.telLatitude) = true) ↔ m.telLatitude ≠ 0 := by
    rw [decide_eq_true_iff, decide_eq_true_iff]
    exact lt_or_lt_iff_ne
  have way : (m.normalizeCountValues counts2hrz counted ac dc t_ac t_dc).t_ac =
      settle m.ha.full counted.1 (m.telLatitude < 0) (0 < m.telLatitude) (m.ha.min + m.acMargin)
        (m.ha.max - m.acMargin) (ac - m.diffAc ac dc t_ac t_dc) := rfl
  have diff : m.diffAc ac dc t_ac t_dc =
      if (dc - t_dc).tmod m.dec.full < -m.ha.half then m.folded ac t_ac + m.ha.full else m.folded ac t_ac := rfl
  rw [way, diff]
  have arrives {d : ℤ} (turns : m.ha.full ∣ ac - d - t_ac) (short : |d| ≤ m.ha.half) :
      (∃ p, Nearest m.ha.full ac t_ac p ∧ m.Inside p) →
        Nearest m.ha.full ac t_ac (settle m.ha.full counted.1 (m.telLatitude < 0) (0 < m.telLatitude)
          (m.ha.min + m.acMargin) (m.ha.max - m.acMargin) (ac - d)) := by
    apply settle_nearest
    rw [nearest_iff positive turns, sub_sub_cancel]
    omega
  obtain ⟨small, large⟩ := folded_range m ac t_ac positive
  have turns := left_turns m ac t_ac
  have turns' := folded_turns m ac t_ac
  have far : m.ha.full ∣ ac - m.folded ac t_ac - m.ha.full - t_ac := by
    rw [sub_right_comm]
    exact dvd_sub turns' (dvd_refl _)
  by_cases under : m.left ac t_ac < -m.ha.half
  · have same : m.folded ac t_ac = m.left ac t_ac := if_neg (by omega)
    by_cases asked : (dc - t_dc).tmod m.dec.full < -m.ha.half
    · rw [if_pos asked]
      refine iff_of_true (arrives ?_ ?_) ⟨fun _ not_ => absurd asked not_, fun not_ => absurd under not_⟩
      · rw [← sub_sub]
        exact far
      · rw [same, abs_le]
        omega
    · rw [if_neg asked, same]
      have near : 2 * |ac - (ac - m.left ac t_ac - m.ha.full)| < m.ha.full := by
        rcases abs_cases (ac - (ac - m.left ac t_ac - m.ha.full)) with h | h <;> omega
      have missed := @too_high m.ha.full positive (m.telLatitude < 0) (0 < m.telLatitude) (m.ha.min + m.acMargin)
        (m.ha.max - m.acMargin) ac t_ac (ac - m.left ac t_ac - m.ha.full) (same ▸ far) near
      rw [sub_add_cancel] at missed
      refine missed.trans ⟨fun apart => ⟨fun _ _ => apart, fun not_ => absurd under not_⟩, fun harmless => ?_⟩
      exact harmless.1 under asked
  · by_cases asked : (dc - t_dc).tmod m.dec.full < -m.ha.half
    · rw [if_pos asked]
      by_cases tie : m.left ac t_ac = -m.ha.half ∧ 2 * m.ha.half = m.ha.full
      · have same : m.folded ac t_ac = m.left ac t_ac := if_neg (by omega)
        refine iff_of_true (arrives ?_ ?_) ⟨fun under' => absurd under' under, fun _ _ not_ => absurd tie not_⟩
        · rw [← sub_sub]
          exact far
        · rw [same, abs_le]
          omega
      · have near : 2 * |ac - (ac - m.folded ac t_ac)| ≤ m.ha.full := by
          rcases abs_cases (ac - (ac - m.folded ac t_ac)) with h | h <;> omega
        have beyond : m.ha.full < 2 * |ac - (ac - m.folded ac t_ac - m.ha.full)| := by
          have other : m.folded ac t_ac = m.left ac t_ac ∨ m.folded ac t_ac = m.left ac t_ac - m.ha.full ∧
              m.ha.half < m.left ac t_ac := by
            unfold Mount.folded
            split
            · rename_i over_
              exact .inr ⟨rfl, over_⟩
            · exact .inl rfl
          rcases abs_cases (ac - (ac - m.folded ac t_ac - m.ha.full)) with h | h <;> omega
        have missed := @too_low m.ha.full positive (m.telLatitude < 0) (0 < m.telLatitude) (m.ha.min + m.acMargin)
          (m.ha.max - m.acMargin) ac t_ac (ac - m.folded ac t_ac) turns' near beyond
        rw [loops, not_not] at missed
        rw [← sub_sub]
        constructor
        · intro back
          exact ⟨fun under' => absurd under' under, fun _ _ _ => missed.mp back⟩
        · intro harmless
          exact missed.mpr (harmless.2 under asked tie)
    · rw [if_neg asked]
      have harmless : m.Harmless ac dc t_ac t_dc :=
        ⟨fun under' => absurd under' under, fun _ asked' => absurd asked' asked⟩
      refine iff_of_true (arrives turns' ?_) harmless
      rw [abs_le]
      omega

theorem dc_way : (m.normalizeCountValues counts2hrz counted ac dc t_ac t_dc).t_dc =
    if (m.normalizeCountValues counts2hrz counted ac dc t_ac t_dc).downFlip then
      if dc < settle m.dec.full counted.2 true false m.dec.min m.dec.max (dc - m.diffDc dc t_dc) then
        settle m.dec.full counted.2 true false m.dec.min m.dec.max (dc - m.diffDc dc t_dc) - m.dec.full
      else settle m.dec.full counted.2 true false m.dec.min m.dec.max (dc - m.diffDc dc t_dc) + m.dec.full
    else settle m.dec.full counted.2 true false m.dec.min m.dec.max (dc - m.diffDc dc t_dc) := rfl

theorem dc_nearest [IsStrictOrderedRing K]
    (inside : ∃ p, Nearest m.dec.full dc t_dc p ∧ m.dec.min ≤ p ∧ p ≤ m.dec.max)
    (kept : (m.normalizeCountValues counts2hrz counted ac dc t_ac t_dc).downFlip = false) :
    Nearest m.dec.full dc t_dc (m.normalizeCountValues counts2hrz counted ac dc t_ac t_dc).t_dc := by
  rw [dc_way, kept, if_neg (by decide)]
  exact settle_nearest (diffDc_nearest m dc t_dc counted.2) inside

theorem ac_turns : m.ha.full ∣ (m.normalizeCountValues counts2hrz counted ac dc t_ac t_dc).t_ac - t_ac := by
  apply dvd_trans_sub (settle_turns m.ha.full counted.1 _ _ _ _ (ac - m.diffAc ac dc t_ac t_dc))
  have way := folded_turns m ac t_ac
  have diff : m.diffAc ac dc t_ac t_dc =
      if (dc - t_dc).tmod m.dec.full < -m.ha.half then m.folded ac t_ac + m.ha.full else m.folded ac t_ac := rfl
  rw [diff]
  split
  · have back := dvd_sub way (dvd_refl m.ha.full)
    have same : ac - m.folded ac t_ac - t_ac - m.ha.full = ac - (m.folded ac t_ac + m.ha.full) - t_ac := by ring
    rwa [same] at back
  · exact way

theorem dc_turns : m.dec.full ∣ (m.normalizeCountValues counts2hrz counted ac dc t_ac t_dc).t_dc - t_dc := by
  have turns := dvd_trans_sub (settle_turns m.dec.full counted.2 true false m.dec.min m.dec.max (dc - m.diffDc dc t_dc))
    (diffDc_turns m dc t_dc)
  rw [dc_way]
  split
  · split
    · rw [sub_right_comm]
      exact dvd_sub turns (dvd_refl _)
    · rw [add_sub_right_comm]
      exact dvd_add turns (dvd_refl _)
  · exact turns

theorem accepted_inside (ok : (m.normalizeCountValues counts2hrz counted ac dc t_ac t_dc).ret = 0) :
    (m.ha.min ≤ (m.normalizeCountValues counts2hrz counted ac dc t_ac t_dc).t_ac ∧
      (m.normalizeCountValues counts2hrz counted ac dc t_ac t_dc).t_ac ≤ m.ha.max) ∧
    m.dec.min ≤ (m.normalizeCountValues counts2hrz counted ac dc t_ac t_dc).t_dc ∧
      (m.normalizeCountValues counts2hrz counted ac dc t_ac t_dc).t_dc ≤ m.dec.max := by
  have ret : (m.normalizeCountValues counts2hrz counted ac dc t_ac t_dc).ret =
      if (m.normalizeCountValues counts2hrz counted ac dc t_ac t_dc).t_dc < m.dec.min ||
        m.dec.max < (m.normalizeCountValues counts2hrz counted ac dc t_ac t_dc).t_dc then -1
      else if (m.normalizeCountValues counts2hrz counted ac dc t_ac t_dc).t_ac < m.ha.min ||
        m.ha.max < (m.normalizeCountValues counts2hrz counted ac dc t_ac t_dc).t_ac then -1
      else 0 := rfl
  rw [ret] at ok
  split at ok
  · exact absurd ok (by decide)
  · split at ok
    · exact absurd ok (by decide)
    · rename_i dc_inside ac_inside
      simp only [Bool.or_eq_true, decide_eq_true_eq, not_or, not_lt] at dc_inside ac_inside
      exact ⟨ac_inside, dc_inside⟩

end Ways

structure CountedMount (K : Type) [Field K] [LinearOrder K] [FloorRing K] extends Mount K where
  counted : toMount.Counted

theorem right_iff [IsStrictOrderedRing K] (m : CountedMount K) (counts2hrz : ℤ → ℤ → Hrz K)
    (ac dc t_ac t_dc : ℤ) :
    m.Right counts2hrz m.counted ac dc t_ac t_dc ↔ m.Harmless ac dc t_ac t_dc := by
  rw [← ac_iff m.toMount counts2hrz m.counted]
  constructor
  · rintro ⟨-, nearest, -⟩
    exact nearest
  · intro nearest
    refine ⟨fun ok => ?_, nearest, dc_nearest m.toMount counts2hrz m.counted ac dc t_ac t_dc⟩
    exact ⟨⟨ac_turns .., dc_turns ..⟩, accepted_inside m.toMount counts2hrz m.counted ac dc t_ac t_dc ok⟩

/-- Targets are normalized right exactly where the test of the other axis does no harm. -/
theorem normalizeCountValues_right [IsStrictOrderedRing K] (m : CountedMount K) (counts2hrz : ℤ → ℤ → Hrz K)
    (ac dc t_ac t_dc : ℤ) :
    m.Right counts2hrz m.counted ac dc t_ac t_dc ↔ m.Harmless ac dc t_ac t_dc :=
  right_iff m counts2hrz ac dc t_ac t_dc

def hundred : CountedMount ℚ where
  ha := ⟨0, 100, -72000, 72000⟩
  dec := ⟨0, 100, -72000, 72000⟩
  acMargin := 0
  telLatitude := 50
  counted := by
    have full : (⟨0, 100, -72000, 72000⟩ : Axis ℚ).full = 36000 := by
      rw [Axis.full, int32_t_nonneg (abs_nonneg _)]
      norm_num
    rw [Mount.Counted, full]
    decide

theorem hundred_full : hundred.ha.full = 36000 := by
  rw [Axis.full, int32_t_nonneg (abs_nonneg _)]
  norm_num [hundred]

theorem hundred_half : hundred.ha.half = 18000 := by
  rw [Axis.half, int32_t_nonneg (abs_nonneg _)]
  norm_num [hundred]

theorem short_way : hundred.Right (fun _ _ => ⟨45, 90⟩) hundred.counted 0 0 100 0 := by
  refine (normalizeCountValues_right hundred _ 0 0 100 0).mpr ⟨fun under => ?_, fun _ asked => ?_⟩
  · rw [Mount.left, hundred_full, hundred_half] at under
    exact absurd under (by decide)
  · rw [hundred_half] at asked
    exact absurd asked (by simp)

/-- From 0 to 270 degrees the axis turns all the way, not the quarter of a turn back. -/
theorem long_way : ¬hundred.Right (fun _ _ => ⟨45, 90⟩) hundred.counted 0 0 27000 0 := by
  rw [right_iff]
  rintro ⟨missed, -⟩
  have left : hundred.left 0 27000 = -27000 := by
    rw [Mount.left, hundred_full]
    rfl
  have dec : hundred.dec.full = 36000 := hundred_full
  rw [left, hundred_half, hundred_full, dec] at missed
  apply missed (by decide) (by decide)
  simp [Mount.Inside, hundred]

end Rts2.Teld.Gem
