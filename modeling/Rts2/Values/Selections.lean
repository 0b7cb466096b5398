import Rts2.Scripts.Reparsing

/-! A selection: an index into a list of names, and what += and -= of a client make of it. Indices
are int, the number of names is size_t. -/
namespace Rts2.Values

open Scripts.Parsing (Text isdigit skip digitsValue writeInt)

def int32 (z : ℤ) : ℤ := (z + 2 ^ 31) % 2 ^ 32 - 2 ^ 31

def size_t (z : ℤ) : ℤ := z % 2 ^ 64

theorem int32_eq {z : ℤ} (low : -2 ^ 31 ≤ z) (high : z < 2 ^ 31) : int32 z = z := by
  unfold int32
  omega

def strtol (t : Text) : ℤ × Text :=
  let (negative, u) := match skip t with
    | '-' :: u => (true, u)
    | '+' :: u => (false, u)
    | u => (false, u)
  let digits := u.takeWhile isdigit
  if digits = [] then (0, t)
  else
    let z : ℤ := digitsValue digits
    (max (-2 ^ 63) (min (2 ^ 63 - 1) (if negative then -z else z)), u.dropWhile isdigit)

/-- `small`: a name is found by counting in an int. -/
structure Selection where
  names : List Text
  index : ℤ
  small : names.length ≤ 2 ^ 31
  valid : names = [] ∨ 0 ≤ index ∧ index < names.length

inductive Answer where
  | value (index : ℤ)
  | error
  | crash
  | unending
deriving DecidableEq

namespace ValueSelection

def setValueInteger (size : ℕ) (in_value : ℤ) : Option ℤ :=
  if in_value < 0 ∨ size ≤ in_value then none else some in_value

def getSelIndex (names : List Text) (in_val : Text) : ℤ :=
  if in_val ∈ names then names.idxOf in_val else -2

def setValueCharArr (names : List Text) (in_value : Text) : Option ℤ :=
  let (ret, rest) := strtol in_value
  if rest = [] then setValueInteger names.length (int32 ret)
  else
    let ret := getSelIndex names in_value
    if ret < 0 then none else setValueInteger names.length ret

def addSize (size : ℕ) : ℕ → ℤ → Option ℤ
  | 0, _ => none
  | turns + 1, new_val =>
    if new_val < 0 then addSize size turns (int32 (size_t (size_t new_val + size)))
    else some new_val

def answer : Option ℤ → Answer
  | some index => .value index
  | none => .error

def doOpValue (minus : Bool) (size : ℕ) (old_value operand : ℤ) : Answer :=
  if minus then
    let new_val := int32 (old_value - operand)
    match addSize size ((-new_val).toNat + 1) new_val with
    | some new_val => answer (setValueInteger size new_val)
    | none => .unending
  else if size = 0 then .crash
  else answer (setValueInteger size (int32 (size_t (int32 (old_value + operand)) % size)))

end ValueSelection

def Selection.change (sel : Selection) (minus : Bool) (operand : Text) : Answer :=
  match ValueSelection.setValueCharArr sel.names operand with
  | some operand => ValueSelection.doOpValue minus sel.names.length sel.index operand
  | none => .error

namespace ValueSelection

theorem addSize_spec {size : ℕ} (small : size ≤ 2 ^ 31) {new_val : ℤ} (positive : 0 < size)
    (low : -2 ^ 31 ≤ new_val) {turns : ℕ} (enough : (-new_val).toNat < turns)
    (high : new_val < 2 ^ 31) : ∃ k, addSize size turns new_val = some k ∧ 0 ≤ k ∧
      k ≡ new_val [ZMOD size] ∧ (new_val < 0 → k < size) ∧ (0 ≤ new_val → k = new_val) := by
  induction turns generalizing new_val with
  | zero => exact absurd enough (Nat.not_lt_zero _)
  | succ turns ih =>
    rw [addSize]
    split
    next negative =>
      have sum : int32 (size_t (size_t new_val + size)) = new_val + size := by
        unfold int32 size_t
        omega
      rw [sum]
      obtain ⟨k, found, k_low, same, below, kept⟩ := ih (by omega : -2 ^ 31 ≤ new_val + (size : ℤ))
        (by omega) (by omega)
      refine ⟨k, found, k_low, same.trans (by simp [Int.ModEq]), fun _ => ?_, by omega⟩
      by_cases still : new_val + size < 0
      · exact below still
      · rw [kept (by omega)]
        omega
    next positive_ => exact ⟨new_val, rfl, by omega, rfl, fun h => absurd h positive_, fun _ => rfl⟩

theorem doOpValue_plus {size : ℕ} (small : size ≤ 2 ^ 31) (positive : 0 < size)
    (old_value operand : ℤ) : ∃ k, doOpValue false size old_value operand = .value k ∧ 0 ≤ k ∧
      k < size ∧ k ≡ size_t (int32 (old_value + operand)) [ZMOD size] := by
  generalize sum : size_t (int32 (old_value + operand)) = z
  have low := Int.emod_nonneg z (show (size : ℤ) ≠ 0 by omega)
  have high := Int.emod_lt_of_pos z (show 0 < (size : ℤ) by omega)
  refine ⟨z % size, ?_, low, high, Int.mod_modEq _ _⟩
  have there : ¬ (z % size < 0 ∨ (size : ℤ) ≤ z % size) := by omega
  rw [doOpValue, if_neg (by simp), if_neg (by omega), sum, int32_eq (by omega) (by omega),
    setValueInteger, if_neg there]
  rfl

theorem doOpValue_minus {size : ℕ} (small : size ≤ 2 ^ 31) (positive : 0 < size)
    {old_value operand : ℤ} (low : -2 ^ 31 ≤ old_value - operand)
    (high : old_value - operand < 2 ^ 31) :
    (old_value - operand < size ∧ ∃ k, doOpValue true size old_value operand = .value k ∧ 0 ≤ k ∧
      k < size ∧ k ≡ old_value - operand [ZMOD size]) ∨
    (size ≤ old_value - operand ∧ doOpValue true size old_value operand = .error) := by
  obtain ⟨k, found, k_low, same, below, kept⟩ :=
    addSize_spec small positive low
      (Nat.lt_succ_self _) high
  have done : doOpValue true size old_value operand = answer (setValueInteger size k) := by
    simp only [doOpValue, if_true, int32_eq low high, found]
  rw [done]
  by_cases within : old_value - operand < size
  · have k_high : k < size := by
      by_cases negative : old_value - operand < 0
      · exact below negative
      · rw [kept (by omega)]
        exact within
    refine .inl ⟨within, k, ?_, k_low, k_high, same⟩
    rw [setValueInteger, if_neg (by omega)]
    rfl
  · refine .inr ⟨by omega, ?_⟩
    rw [kept (by omega), setValueInteger, if_pos (by omega)]
    rfl

end ValueSelection

theorem size_t_modEq_iff {size : ℕ} {z : ℤ} (low : -2 ^ 31 ≤ z) (high : z < 2 ^ 32) :
    size_t (int32 z) ≡ z [ZMOD size] ↔ (z < 0 → (size : ℤ) ∣ 2 ^ 64) ∧
      (2 ^ 31 ≤ z → (size : ℤ) ∣ 2 ^ 64 - 2 ^ 32) := by
  rw [Int.modEq_comm, Int.modEq_iff_dvd]
  rcases lt_or_ge z 0 with negative | positive
  · have sum : size_t (int32 z) - z = 2 ^ 64 := by
      unfold size_t int32
      omega
    rw [sum]
    exact ⟨fun divides => ⟨fun _ => divides, fun large => by omega⟩, fun both => both.1 negative⟩
  · rcases lt_or_ge z (2 ^ 31) with fits | large
    · have sum : size_t (int32 z) - z = 0 := by
        unfold size_t int32
        omega
      rw [sum]
      exact ⟨fun _ => ⟨fun h => by omega, fun h => by omega⟩, fun _ => dvd_zero _⟩
    · have sum : size_t (int32 z) - z = 2 ^ 64 - 2 ^ 32 := by
        unfold size_t int32
        omega
      rw [sum]
      exact ⟨fun divides => ⟨fun h => by omega, fun _ => divides⟩, fun both => both.2 large⟩

def digitsOf (n : ℕ) : Text := (Lib.decimal n).map fun b => Char.ofNat b.toNat

theorem digitsOf_spec (n : ℕ) : digitsOf n ≠ [] ∧ (∀ c ∈ digitsOf n, isdigit c = true) ∧
    digitsValue (digitsOf n) = n := by
  have all : ∀ c ∈ digitsOf n, isdigit c = true := by
    intro c mem
    obtain ⟨b, listed, rfl⟩ := List.mem_map.mp mem
    exact (Scripts.Parsing.digit_char b (Lib.decimal_digits listed)).1
  refine ⟨by simpa [digitsOf] using Lib.decimal_ne_nil n, all, ?_⟩
  have value : digitsValue ((digitsOf n).takeWhile isdigit) = n :=
    Scripts.Parsing.digitsValue_decimal n
  rwa [List.takeWhile_eq_self_iff.mpr all] at value

theorem strtol_writeInt {v : ℤ} (low : -2 ^ 31 ≤ v) (high : v < 2 ^ 31) :
    strtol (writeInt v) = (v, []) := by
  obtain ⟨some_digit, all, value⟩ := digitsOf_spec v.natAbs
  have whole := Scripts.Parsing.skip_plain (Scripts.Parsing.writeInt_plain v) []
  rw [List.append_nil] at whole
  have taken : (digitsOf v.natAbs).takeWhile isdigit = digitsOf v.natAbs :=
    List.takeWhile_eq_self_iff.mpr all
  have dropped : (digitsOf v.natAbs).dropWhile isdigit = [] := List.dropWhile_eq_nil_iff.mpr all
  by_cases negative : v < 0
  · have text : writeInt v = '-' :: digitsOf v.natAbs := by
      simp only [writeInt, Lib.decimalInt, if_pos negative, List.map_cons]
      rfl
    rw [strtol, whole, text]
    simp only [taken, if_neg some_digit, dropped, value, if_true]
    refine Prod.ext ?_ rfl
    dsimp only
    omega
  · have text : writeInt v = digitsOf v.natAbs := by
      simp only [writeInt, Lib.decimalInt, if_neg negative]
      rfl
    obtain ⟨c, rest, eq⟩ := List.exists_cons_of_ne_nil some_digit
    have digit : isdigit c = true := all c (eq ▸ List.mem_cons_self)
    have signed : (match digitsOf v.natAbs with
        | '-' :: u => (true, u)
        | '+' :: u => (false, u)
        | u => (false, u)) = (false, digitsOf v.natAbs) := by
      rw [eq]
      split
      next same =>
        cases (List.cons.inj same).1
        cases digit
      next same =>
        cases (List.cons.inj same).1
        cases digit
      next => rfl
    rw [strtol, whole, text]
    simp only [signed, taken, if_neg some_digit, dropped, value, Bool.false_eq_true, if_false]
    refine Prod.ext ?_ rfl
    dsimp only
    omega

theorem setValueCharArr_writeInt (names : List Text) {v : ℤ} (low : -2 ^ 31 ≤ v)
    (high : v < 2 ^ 31) : ValueSelection.setValueCharArr names (writeInt v) =
      ValueSelection.setValueInteger names.length v := by
  rw [ValueSelection.setValueCharArr, strtol_writeInt low high]
  simp only [if_true, int32_eq low high]

/-- Sum and difference wrap, and the difference takes the sum back; without names there is an
error. -/
structure Wraps (sel : Selection) (v : BitVec 32) : Prop where
  error : sel.names = [] → ∀ minus, sel.change minus (writeInt v.toInt) = .error
  index : sel.names ≠ [] → ∀ minus, ∃ k, sel.change minus (writeInt v.toInt) = .value k ∧ 0 ≤ k ∧
    k < sel.names.length ∧
      k ≡ (if minus then sel.index - v.toInt else sel.index + v.toInt) [ZMOD sel.names.length]
  back : ∀ sum : Selection, sum.names = sel.names →
    sel.change false (writeInt v.toInt) = .value sum.index →
      sum.change true (writeInt v.toInt) = .value sel.index

theorem change_writeInt (sel : Selection) (minus : Bool) (v : BitVec 32) :
    sel.change minus (writeInt v.toInt) =
      if v.toInt < 0 ∨ sel.names.length ≤ v.toInt then .error
      else ValueSelection.doOpValue minus sel.names.length sel.index v.toInt := by
  have low := BitVec.le_toInt v
  have high := BitVec.toInt_lt (x := v)
  rw [Selection.change, setValueCharArr_writeInt _ (by omega) (by omega),
    ValueSelection.setValueInteger]
  by_cases outside : v.toInt < 0 ∨ sel.names.length ≤ v.toInt
  · simp only [if_pos outside]
  · simp only [if_neg outside]

theorem eq_of_modEq {n a b : ℤ} (a_low : 0 ≤ a) (a_high : a < n) (b_low : 0 ≤ b) (b_high : b < n)
    (same : a ≡ b [ZMOD n]) : a = b := by
  have reduced : a % n = b % n := same
  rwa [Int.emod_eq_of_lt a_low a_high, Int.emod_eq_of_lt b_low b_high] at reduced

/-- Sum and difference wrap just for operands that are indices themselves, where the sum is an int;
2 ^ 64 - 2 ^ 32 is what is too much of a sum that is not. -/
theorem wraps_iff (sel : Selection) (v : BitVec 32) : Wraps sel v ↔ sel.names = [] ∨
    0 ≤ v.toInt ∧ v.toInt < sel.names.length ∧
      (2 ^ 31 ≤ sel.index + v.toInt → (sel.names.length : ℤ) ∣ 2 ^ 64 - 2 ^ 32) := by
  have small := sel.small
  by_cases none : sel.names = []
  · have refused (minus : Bool) : sel.change minus (writeInt v.toInt) = .error := by
      rw [change_writeInt, if_pos]
      rw [none, List.length_nil]
      omega
    refine iff_of_true ⟨fun _ => refused, fun some_name => absurd none some_name, ?_⟩ (.inl none)
    intro sum _ added
    rw [refused] at added
    contradiction
  · have positive : 0 < sel.names.length := List.length_pos_iff.mpr none
    obtain ⟨low, high⟩ := sel.valid.resolve_left none
    obtain ⟨k, plus, k_low, k_high, same⟩ :=
      ValueSelection.doOpValue_plus small positive sel.index v.toInt
    constructor
    · intro wraps
      obtain ⟨k', found, -, -, congruent⟩ := wraps.index none false
      rw [change_writeInt] at found
      split at found
      · contradiction
      next there =>
        rw [plus] at found
        cases found
        have exact_ := (size_t_modEq_iff (by omega) (by omega)).mp (same.symm.trans congruent)
        exact .inr ⟨by omega, by omega, exact_.2⟩
    · intro condition
      obtain ⟨v_low, v_high, fits⟩ := condition.resolve_left none
      have read (minus : Bool) : sel.change minus (writeInt v.toInt) =
          ValueSelection.doOpValue minus sel.names.length sel.index v.toInt := by
        rw [change_writeInt, if_neg (by omega)]
      have sum_eq : k ≡ sel.index + v.toInt [ZMOD sel.names.length] :=
        same.trans ((size_t_modEq_iff (by omega) (by omega)).mpr ⟨fun h => by omega, fits⟩)
      refine ⟨fun h => absurd h none, fun _ minus => ?_, fun sum names added => ?_⟩
      · rw [read]
        cases minus with
        | false => exact ⟨k, plus, k_low, k_high, sum_eq⟩
        | true =>
          rcases ValueSelection.doOpValue_minus small positive
            (by omega : -2 ^ 31 ≤ sel.index - v.toInt) (by omega) with ⟨-, found⟩ | ⟨large, -⟩
          · exact found
          · omega
      · rw [read, plus] at added
        have at_ : k = sum.index := Answer.value.inj added
        rw [change_writeInt, names, if_neg (by omega), ← at_]
        rcases ValueSelection.doOpValue_minus small positive
          (by omega : -2 ^ 31 ≤ k - v.toInt) (by omega) with ⟨-, k', found, low', high', back⟩ | ⟨large, -⟩
        · have returned : k' ≡ sel.index [ZMOD sel.names.length] := by
            have difference := sum_eq.sub_right v.toInt
            rw [add_sub_cancel_right] at difference
            exact back.trans difference
          rw [found, eq_of_modEq low' high' low high returned]
        · omega

/-- Of three names the fourth next and the one before the first are refused; the operation itself would
stay at the first for -1. -/
theorem operand_refused : ∃ sel : Selection, sel.names.length = 3 ∧
    sel.change false (writeInt 4) = .error ∧ sel.change false (writeInt (-1)) = .error ∧
      ValueSelection.doOpValue false 3 0 (-1) = .value 0 := by
  refine ⟨⟨["a".toList, "b".toList, "c".toList], 0, by decide, .inr (by decide)⟩, rfl, ?_, ?_, ?_⟩
  · decide
  · decide
  · decide

end Rts2.Values
