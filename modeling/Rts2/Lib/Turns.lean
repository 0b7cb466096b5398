import Mathlib

/-! Positions on an axis that can be turned: those that differ by whole turns, the nearest of them, and loops that
move a position by turns until it is behind a bound. -/
namespace Rts2.Lib.Turns

def Nearest (full here t p : ℤ) : Prop :=
  full ∣ p - t ∧ ∀ q, full ∣ q - t → |here - p| ≤ |here - q|

variable {full half : ℤ}

theorem dvd_trans_sub {a b c : ℤ} (ab : full ∣ a - b) (bc : full ∣ b - c) : full ∣ a - c := by
  have sum := dvd_add ab bc
  rwa [sub_add_sub_cancel] at sum

theorem dvd_swap {a b : ℤ} (ab : full ∣ a - b) : full ∣ b - a := by
  rwa [← neg_sub, dvd_neg]

theorem eq_of_near {a b : ℤ} (turns : full ∣ a - b) (above : a - b < full) (below : b - a < full) : a = b := by
  have zero : a - b = 0 := Int.eq_zero_of_abs_lt_dvd turns (abs_lt.mpr ⟨by omega, above⟩)
  omega

theorem nearest_iff (positive : 0 < full) {here t p : ℤ} (turns : full ∣ p - t) :
    Nearest full here t p ↔ 2 * |here - p| ≤ full := by
  constructor
  · rintro ⟨-, least⟩
    have up := least (p + full) (by
      rw [add_sub_right_comm]
      exact dvd_add turns (dvd_refl full))
    have down := least (p - full) (by
      rw [sub_right_comm]
      exact dvd_sub turns (dvd_refl full))
    rcases abs_cases (here - p) with h | h <;> rcases abs_cases (here - (p + full)) with h' | h' <;>
      rcases abs_cases (here - (p - full)) with h'' | h'' <;> omega
  · intro near
    refine ⟨turns, fun q turns' => ?_⟩
    by_contra farther
    have apart : full ∣ p - q := dvd_trans_sub turns (dvd_swap turns')
    have same : p = q := by
      apply eq_of_near apart <;> rcases abs_cases (here - p) with h | h <;>
        rcases abs_cases (here - q) with h' | h' <;> omega
    exact farther (le_of_eq (by rw [same]))

structure Halved (full half : ℤ) : Prop where
  positive : 0 < full
  low : 2 * half ≤ full
  high : full ≤ 2 * half + 1

theorem tmod_turns (positive : 0 < full) (d : ℤ) : full ∣ d - d.tmod full ∧ d.tmod full < full ∧ -full < d.tmod full := by
  refine ⟨?_, ?_, ?_⟩
  · have parts := Int.mul_tdiv_add_tmod d full
    exact ⟨d.tdiv full, by omega⟩
  · exact Int.tmod_lt_of_pos d positive
  · have neg := Int.tmod_lt_of_pos (-d) positive
    rw [Int.neg_tmod] at neg
    omega

def fold (full half d : ℤ) : ℤ :=
  let d := if half < d then d - full else d
  if d < -half then d + full else d

theorem fold_turns (full half d : ℤ) : full ∣ fold full half d - d := by
  unfold fold
  dsimp only
  split <;> split
  · exact ⟨0, by omega⟩
  · exact ⟨-1, by omega⟩
  · exact ⟨1, by omega⟩
  · exact ⟨0, by omega⟩

theorem fold_short (halved : Halved full half) {d : ℤ} (above : d < full) (below : -full < d) :
    |fold full half d| ≤ half := by
  have low := halved.low
  have high := halved.high
  have small : -half ≤ fold full half d ∧ fold full half d ≤ half := by
    unfold fold
    dsimp only
    split <;> split <;> omega
  exact abs_le.mpr small

def stepUp (full : ℤ) (positive : 0 < full) (lo t : ℤ) : ℤ :=
  if t < lo then stepUp full positive lo (t + full) else t
termination_by (lo - t).toNat
decreasing_by omega

def stepDown (full : ℤ) (positive : 0 < full) (hi t : ℤ) : ℤ :=
  if hi < t then stepDown full positive hi (t - full) else t
termination_by (t - hi).toNat
decreasing_by omega

variable {positive : 0 < full} {lo hi t : ℤ}

theorem stepUp_of_le (inside : lo ≤ t) : stepUp full positive lo t = t := by
  rw [stepUp, if_neg (by omega)]

theorem stepDown_of_le (inside : t ≤ hi) : stepDown full positive hi t = t := by
  rw [stepDown, if_neg (by omega)]

theorem stepUp_spec (full : ℤ) (positive : 0 < full) (lo t : ℤ) :
    full ∣ stepUp full positive lo t - t ∧ lo ≤ stepUp full positive lo t ∧
      (t < lo → stepUp full positive lo t < lo + full) := by
  induction t using stepUp.induct full positive lo with
  | case1 t below ih =>
    rw [stepUp, if_pos below]
    obtain ⟨turns, bound, first⟩ := ih
    refine ⟨?_, bound, fun _ => ?_⟩
    · have one : full ∣ t + full - t := ⟨1, by omega⟩
      exact dvd_trans_sub turns one
    · by_cases again : t + full < lo
      · exact first again
      · rw [stepUp_of_le (by omega)]
        omega
  | case2 t inside =>
    rw [stepUp, if_neg inside]
    exact ⟨⟨0, by omega⟩, by omega, fun below => absurd below inside⟩

theorem stepDown_spec (full : ℤ) (positive : 0 < full) (hi t : ℤ) :
    full ∣ stepDown full positive hi t - t ∧ stepDown full positive hi t ≤ hi ∧
      (hi < t → hi - full < stepDown full positive hi t) := by
  induction t using stepDown.induct full positive hi with
  | case1 t above ih =>
    rw [stepDown, if_pos above]
    obtain ⟨turns, bound, first⟩ := ih
    refine ⟨?_, bound, fun _ => ?_⟩
    · have one : full ∣ t - full - t := ⟨-1, by omega⟩
      exact dvd_trans_sub turns one
    · by_cases again : hi < t - full
      · exact first again
      · rw [stepDown_of_le (by omega)]
        omega
  | case2 t inside =>
    rw [stepDown, if_neg inside]
    exact ⟨⟨0, by omega⟩, by omega, fun above => absurd above inside⟩

end Rts2.Lib.Turns
