import Mathlib

/-! Decimal numerals with a point, and what a stream writes for a number with its default format:
six digits, the point fixed where the exponent is from -4 to 5. -/
namespace Rts2.Lib

structure Numeral where
  whole : List (Fin 10)
  frac : List (Fin 10)
  point : Bool
  no_point : point = false → frac = []

namespace Numeral

def wholeValue (ds : List (Fin 10)) : ℕ := ds.foldl (fun (v : ℕ) d => v * 10 + d.val) 0

def fracValue : List (Fin 10) → ℚ
  | [] => 0
  | d :: ds => ((d : ℕ) + fracValue ds) / 10

def value (n : Numeral) : ℚ := wholeValue n.whole + fracValue n.frac

def digitChar (d : Fin 10) : Char := Char.ofNat (48 + d)

def text (n : Numeral) : List Char :=
  n.whole.map digitChar ++ if n.point then '.' :: n.frac.map digitChar else []

def natDigits (n : ℕ) : List (Fin 10) :=
  if n = 0 then [0] else (Nat.digits 10 n).reverse.map (Fin.ofNat 10)

def digit (n : ℕ) : Fin 10 := Fin.ofNat 10 n

theorem wholeValue_digits (ds : List ℕ) (small : ∀ d ∈ ds, d < 10) :
    wholeValue (ds.reverse.map (Fin.ofNat 10)) = Nat.ofDigits 10 ds := by
  induction ds with
  | nil => rfl
  | cons d ds ih =>
    have tail := ih (fun e he => small e (List.mem_cons_of_mem d he))
    have head : d % 10 = d := Nat.mod_eq_of_lt (small d List.mem_cons_self)
    simp only [wholeValue] at tail ⊢
    simp only [List.reverse_cons, List.map_append, List.map_cons, List.map_nil,
      List.foldl_append, List.foldl_cons, List.foldl_nil, tail, Nat.ofDigits_cons, Fin.val_ofNat,
      head]
    ring

theorem wholeValue_natDigits (n : ℕ) : wholeValue (natDigits n) = n := by
  unfold natDigits
  split
  next zero => rw [zero]; rfl
  next => rw [wholeValue_digits _ (fun d hd => Nat.digits_lt_base (by decide) hd),
    Nat.ofDigits_digits]

theorem natDigits_ne_nil (n : ℕ) : natDigits n ≠ [] := by
  unfold natDigits
  split
  · simp
  next some => simpa [Nat.digits_ne_nil_iff_ne_zero] using some

def decimals : ℕ → ℕ → List (Fin 10)
  | 0, _ => []
  | k + 1, n => Fin.ofNat 10 (n / 10 ^ k) :: decimals k n

theorem fracValue_decimals (k n : ℕ) :
    fracValue (decimals k n) = ((n % 10 ^ k : ℕ) : ℚ) / 10 ^ k := by
  induction k with
  | zero => simp [decimals, fracValue, Nat.mod_one]
  | succ k ih =>
    have split : n % 10 ^ (k + 1) = n % 10 ^ k + 10 ^ k * (n / 10 ^ k % 10) := by
      rw [pow_succ, Nat.mod_mul]
    rw [decimals, fracValue, ih, split, Fin.val_ofNat]
    push_cast
    field_simp
    ring

def strip : List (Fin 10) → List (Fin 10)
  | [] => []
  | d :: ds => if strip ds = [] ∧ d = 0 then [] else d :: strip ds

theorem fracValue_strip (ds : List (Fin 10)) : fracValue (strip ds) = fracValue ds := by
  induction ds with
  | nil => rfl
  | cons d ds ih =>
    unfold strip
    split
    next zeros =>
      rw [zeros.1] at ih
      simp [fracValue, ← ih, zeros.2]
    next => rw [fracValue, fracValue, ih]

def scaled (k n : ℕ) : Numeral where
  whole := natDigits (n / 10 ^ k)
  frac := strip (decimals k n)
  point := !(strip (decimals k n)).isEmpty
  no_point := by simp

theorem scaled_value (k n : ℕ) : (scaled k n).value = (n : ℚ) / 10 ^ k := by
  have split : n = 10 ^ k * (n / 10 ^ k) + n % 10 ^ k := (Nat.div_add_mod n (10 ^ k)).symm
  have cast : (n : ℚ) = 10 ^ k * ((n / 10 ^ k : ℕ) : ℚ) + ((n % 10 ^ k : ℕ) : ℚ) := by
    exact_mod_cast split
  rw [value, scaled, wholeValue_natDigits, fracValue_strip, fracValue_decimals]
  rw [cast]
  field_simp

end Numeral

def roundEven (q : ℚ) : ℕ :=
  let below := ⌊q⌋₊
  if q - below < 1 / 2 then below
  else if 1 / 2 < q - below then below + 1
  else if below % 2 = 0 then below
  else below + 1

theorem roundEven_cast (n : ℕ) : roundEven n = n := by
  simp [roundEven]

theorem roundEven_ge {q : ℚ} {n : ℕ} (above : (n : ℚ) ≤ q) : n ≤ roundEven q := by
  have floor : n ≤ ⌊q⌋₊ := Nat.le_floor above
  unfold roundEven
  simp only
  split_ifs <;> omega

theorem roundEven_le {q : ℚ} {n : ℕ} (positive : 0 ≤ q) (below : q < n) : roundEven q ≤ n := by
  have floor : ⌊q⌋₊ < n := (Nat.floor_lt positive).mpr below
  unfold roundEven
  simp only
  split_ifs <;> omega

def sixDigits (v : ℚ) : ℤ × ℕ :=
  let x := Int.log 10 |v|
  let n := roundEven (|v| * 10 ^ (5 - x))
  if n = 10 ^ 6 then (x + 1, 10 ^ 5) else (x, n)

def exponentText (x : ℤ) : List Char :=
  'e' :: (if x < 0 then '-' else '+') ::
    ((if x.natAbs < 10 then [0] else []) ++ Numeral.natDigits x.natAbs).map Numeral.digitChar

def streamDouble (v : ℚ) : List Char :=
  if v = 0 then ['0']
  else
    (if v < 0 then ['-'] else []) ++
      if -4 ≤ (sixDigits v).1 ∧ (sixDigits v).1 ≤ 5 then
        (Numeral.scaled (5 - (sixDigits v).1).toNat (sixDigits v).2).text
      else (Numeral.scaled 5 (sixDigits v).2).text ++ exponentText (sixDigits v).1

def SixDigits (v : ℚ) : Prop :=
  v = 0 ∨ 1 / 10 ^ 4 ≤ |v| ∧ ∃ m k : ℕ, m < 10 ^ 6 ∧ |v| = m / 10 ^ k

theorem sixDigits_range {v : ℚ} (some : v ≠ 0) :
    10 ^ 5 ≤ (sixDigits v).2 ∧ (sixDigits v).2 < 10 ^ 6 := by
  have positive : 0 < |v| := abs_pos.mpr some
  have low := Int.zpow_log_le_self (b := 10) (by decide) positive
  have high := Int.lt_zpow_succ_log_self (b := 10) (by decide) |v|
  simp only [Nat.cast_ofNat] at low high
  have scale : (0 : ℚ) < 10 ^ (5 - Int.log 10 |v|) := by positivity
  have above : ((10 ^ 5 : ℕ) : ℚ) ≤ |v| * 10 ^ (5 - Int.log 10 |v|) := by
    calc ((10 ^ 5 : ℕ) : ℚ) = 10 ^ Int.log 10 |v| * 10 ^ (5 - Int.log 10 |v|) := by
          rw [← zpow_add₀ (by norm_num)]
          norm_num
      _ ≤ _ := mul_le_mul_of_nonneg_right low scale.le
  have below : |v| * 10 ^ (5 - Int.log 10 |v|) < ((10 ^ 6 : ℕ) : ℚ) := by
    calc |v| * 10 ^ (5 - Int.log 10 |v|)
        < 10 ^ (Int.log 10 |v| + 1) * 10 ^ (5 - Int.log 10 |v|) := by
          exact mul_lt_mul_of_pos_right high scale
      _ = ((10 ^ 6 : ℕ) : ℚ) := by
          rw [← zpow_add₀ (by norm_num)]
          norm_num
          rw [show Int.log 10 |v| + 1 + (5 - Int.log 10 |v|) = 6 by ring]
          norm_num
  have least := roundEven_ge above
  have most := roundEven_le (le_trans (by positivity) above) below
  unfold sixDigits
  simp only
  split_ifs with carried
  · exact ⟨le_refl _, by norm_num⟩
  · exact ⟨least, lt_of_le_of_ne most carried⟩

theorem sixDigits_iff {v : ℚ} (some : v ≠ 0) :
    SixDigits v ↔ (-4 ≤ (sixDigits v).1 ∧ (sixDigits v).1 ≤ 5) ∧
      (Numeral.scaled (5 - (sixDigits v).1).toNat (sixDigits v).2).value = |v| := by
  have positive : 0 < |v| := abs_pos.mpr some
  rw [Numeral.scaled_value]
  constructor
  · rintro (zero | ⟨large, m, k, few, eq⟩)
    · exact absurd zero some
    have low := Int.zpow_log_le_self (b := 10) (by decide) positive
    have high := Int.lt_zpow_succ_log_self (b := 10) (by decide) |v|
    simp only [Nat.cast_ofNat] at low high
    have six : |v| < 10 ^ 6 := by
      rw [eq]
      calc (m : ℚ) / 10 ^ k ≤ m := div_le_self (by positivity) (one_le_pow₀ (by norm_num))
        _ < 10 ^ 6 := by exact_mod_cast few
    have least : -4 ≤ Int.log 10 |v| := by
      by_contra below
      have next : (10 : ℚ) ^ (Int.log 10 |v| + 1) ≤ 10 ^ (-4 : ℤ) :=
        zpow_le_zpow_right₀ (by norm_num) (by omega)
      norm_num at next large
      linarith
    have most : Int.log 10 |v| ≤ 5 := by
      by_contra above
      have next : (10 : ℚ) ^ (6 : ℤ) ≤ 10 ^ Int.log 10 |v| :=
        zpow_le_zpow_right₀ (by norm_num) (by omega)
      norm_num at next six
      linarith
    obtain ⟨places, log⟩ : ∃ places : ℕ, Int.log 10 |v| = 5 - places :=
      ⟨(5 - Int.log 10 |v|).toNat, by omega⟩
    have fits : k ≤ places := by
      by_contra longer
      have power : (10 : ℚ) ^ (6 : ℕ) ≤ 10 ^ (5 - (places : ℤ)) * 10 ^ k := by
        rw [← zpow_natCast, ← zpow_natCast, ← zpow_add₀ (by norm_num)]
        exact zpow_le_zpow_right₀ (by norm_num) (by omega)
      have many : (m : ℚ) < 10 ^ 6 := by exact_mod_cast few
      rw [log, eq, le_div_iff₀ (by positivity)] at low
      linarith
    have whole : |v| * 10 ^ (5 - Int.log 10 |v|) = ((m * 10 ^ (places - k) : ℕ) : ℚ) := by
      rw [log, sub_sub_cancel, zpow_natCast, eq, ← Nat.sub_add_cancel fits, pow_add]
      push_cast
      rw [Nat.add_sub_cancel]
      field_simp
    have rounded : roundEven (|v| * 10 ^ (5 - Int.log 10 |v|)) = m * 10 ^ (places - k) := by
      rw [whole, roundEven_cast]
    have small : m * 10 ^ (places - k) ≠ 10 ^ 6 := by
      intro carried
      have full : |v| * 10 ^ (5 - Int.log 10 |v|) = 10 ^ 6 := by
        rw [whole, carried]
        norm_num
      have cut : |v| * 10 ^ (5 - Int.log 10 |v|) < 10 ^ 6 := by
        calc |v| * 10 ^ (5 - Int.log 10 |v|)
            < 10 ^ (Int.log 10 |v| + 1) * 10 ^ (5 - Int.log 10 |v|) :=
              mul_lt_mul_of_pos_right high (by positivity)
          _ = 10 ^ (6 : ℤ) := by
              rw [← zpow_add₀ (by norm_num)]
              congr 1
              ring
          _ = 10 ^ 6 := by norm_num
      exact absurd full cut.ne
    have digits : sixDigits v = (Int.log 10 |v|, m * 10 ^ (places - k)) := by
      unfold sixDigits
      simp only [rounded, if_neg small]
    rw [digits]
    refine ⟨⟨least, most⟩, ?_⟩
    rw [← whole, show (5 - Int.log 10 |v|).toNat = places by omega, log, sub_sub_cancel,
      zpow_natCast]
    field_simp
  · rintro ⟨⟨least, most⟩, exact⟩
    obtain ⟨five, six⟩ := sixDigits_range some
    refine .inr ⟨?_, (sixDigits v).2, (5 - (sixDigits v).1).toNat, six, exact.symm⟩
    have many : ((10 ^ 5 : ℕ) : ℚ) ≤ (sixDigits v).2 := by exact_mod_cast five
    have power : (10 : ℚ) ^ (5 - (sixDigits v).1).toNat ≤ 10 ^ 9 :=
      pow_le_pow_right₀ (by norm_num) (by omega)
    rw [← exact, div_le_div_iff₀ (by positivity) (by positivity)]
    push_cast at many
    nlinarith

end Rts2.Lib
