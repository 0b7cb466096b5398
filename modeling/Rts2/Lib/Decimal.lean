import Mathlib

/-! Decimal numerals as bytes: what a formatted output writes for a natural number, and the
value a digit scanner reads back. -/
namespace Rts2.Lib

def digitByte (d : Nat) : UInt8 := (48 + d).toUInt8

def isDigit (c : UInt8) : Bool := 48 ≤ c && c ≤ 57

def digitValue (c : UInt8) : Nat := c.toNat - 48

def decimal (n : Nat) : List UInt8 :=
  if n = 0 then [48] else (Nat.digits 10 n).reverse.map digitByte

def readDigits (ds : List UInt8) : Nat := ds.foldl (fun v c => v * 10 + digitValue c) 0

theorem digitByte_isDigit {d : Nat} (h : d < 10) : isDigit (digitByte d) = true := by
  interval_cases d <;> rfl

theorem digitValue_digitByte {d : Nat} (h : d < 10) : digitValue (digitByte d) = d := by
  interval_cases d <;> rfl

theorem decimal_ne_nil (n : Nat) : decimal n ≠ [] := by
  unfold decimal
  split
  · simp
  · rename_i h
    simpa [Nat.digits_ne_nil_iff_ne_zero] using h

theorem decimal_length {n k : Nat} (positive : 0 < k) (small : n < 10 ^ k) :
    (decimal n).length ≤ k := by
  unfold decimal
  split
  · simpa [Nat.one_le_iff_ne_zero, Nat.pos_iff_ne_zero] using positive
  · have digits := (Nat.digits_length_le_iff (b := 10) (k := k) (by decide) n).mpr small
    simpa using digits

theorem decimal_digits {n : Nat} {c : UInt8} (h : c ∈ decimal n) : isDigit c = true := by
  unfold decimal at h
  split at h
  · rw [List.mem_singleton.mp h]
    rfl
  · obtain ⟨d, hd, rfl⟩ := List.mem_map.mp h
    exact digitByte_isDigit (Nat.digits_lt_base (by decide) (List.mem_reverse.mp hd))

theorem readDigits_map (ds : List Nat) (small : ∀ d ∈ ds, d < 10) :
    readDigits (ds.reverse.map digitByte) = Nat.ofDigits 10 ds := by
  induction ds with
  | nil => rfl
  | cons d ds ih =>
    have tail := ih (fun e he => small e (List.mem_cons_of_mem d he))
    have head := digitValue_digitByte (small d List.mem_cons_self)
    simp only [readDigits] at tail
    simp only [readDigits, List.reverse_cons, List.map_append, List.map_cons, List.map_nil,
      List.foldl_append, List.foldl_cons, List.foldl_nil, tail, head, Nat.ofDigits_cons]
    omega

theorem readDigits_decimal (n : Nat) : readDigits (decimal n) = n := by
  unfold decimal
  split
  · rename_i h
    rw [h]
    rfl
  · rw [readDigits_map _ (fun d hd => Nat.digits_lt_base (by decide) hd), Nat.ofDigits_digits]

def decimalInt (n : Int) : List UInt8 :=
  if n < 0 then 45 :: decimal n.natAbs else decimal n.natAbs

theorem decimalInt_length {n : Int} {k : Nat} (positive : 0 < k) (small : n.natAbs < 10 ^ k) :
    (decimalInt n).length ≤ k + 1 := by
  have digits := decimal_length positive small
  unfold decimalInt
  split
  · simpa using digits
  · omega

theorem decimalInt_bytes {n : Int} {c : UInt8} (h : c ∈ decimalInt n) :
    c = 45 ∨ isDigit c = true := by
  unfold decimalInt at h
  split at h
  · rcases List.mem_cons.mp h with h | h
    · exact Or.inl h
    · exact Or.inr (decimal_digits h)
  · exact Or.inr (decimal_digits h)

theorem decimalInt_ne_nil (n : Int) : decimalInt n ≠ [] := by
  unfold decimalInt
  split
  · simp
  · exact decimal_ne_nil _

theorem takeWhile_boundary {α : Type} (p : α → Bool) (word rest : List α)
    (inside : ∀ c ∈ word, p c = true) (boundary : ∀ c ∈ rest.head?, p c = false) :
    (word ++ rest).takeWhile p = word ∧ (word ++ rest).dropWhile p = rest := by
  rw [List.takeWhile_append_of_pos inside, List.dropWhile_append_of_pos inside]
  cases rest with
  | nil => simp
  | cons c rest => simp [boundary c (by simp)]

end Rts2.Lib
