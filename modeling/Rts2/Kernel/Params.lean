import Rts2.Lib.Decimal

/-! Parameters of a protocol line, read as Connection reads them from command_buf_top. A text
is the list of bytes before its terminating NUL. -/
namespace Rts2.Kernel

open Lib

/-- The bytes `isspace` accepts in the C locale. -/
def isSpace (c : UInt8) : Bool := c == 32 || (9 ≤ c && c ≤ 13)

def paramEnd (text : List UInt8) : Bool := (text.dropWhile isSpace).isEmpty

/-- The next word and the text after it; a word that starts with a quote ends at the next one.
The delimiter that ends the word is overwritten with NUL and skipped. -/
def paramNextString (enddelim : List UInt8) (text : List UInt8) : Option (List UInt8 × List UInt8) :=
  match text.dropWhile isSpace with
  | [] => none
  | c :: rest =>
    if c = 34 then
      some (rest.takeWhile (· ≠ 34), (rest.dropWhile (· ≠ 34)).tail)
    else
      let word (b : UInt8) : Bool := !isSpace b && !enddelim.contains b
      some ((c :: rest).takeWhile word, ((c :: rest).dropWhile word).tail)

def longMin : Int := -2 ^ 63
def longMax : Int := 2 ^ 63 - 1

/-- The value in base 10, kept in the range of a long, and the text at the end pointer: the
whole text when it holds no digits. -/
def strtol (text : List UInt8) : Int × List UInt8 :=
  let signed := text.dropWhile isSpace
  let negative := signed.head? = some 45
  let digits := if signed.head? = some 45 ∨ signed.head? = some 43 then signed.tail else signed
  if (digits.takeWhile isDigit).isEmpty then
    (0, text)
  else
    let value : Int := readDigits (digits.takeWhile isDigit)
    (max longMin (min longMax (if negative then -value else value)), digits.dropWhile isDigit)

def intOfLong (value : Int) : Int := Int.bmod value (2 ^ 32)

/-- The number read into the variable that holds `num`: its new value, whether the call
succeeded and the text left. A word with a bad end is stored before it is refused. -/
def paramNextNumber (convert : Int → Int) (enddelim : List UInt8) (num : Int) (text : List UInt8) :
    Int × Bool × List UInt8 :=
  match paramNextString enddelim text with
  | none => (num, false, text)
  | some (str_num, rest) => (convert (strtol str_num).1, (strtol str_num).2.isEmpty, rest)

def paramNextInteger : Int → List UInt8 → Int × Bool × List UInt8 := paramNextNumber intOfLong [44]

def paramNextLong : Int → List UInt8 → Int × Bool × List UInt8 := paramNextNumber id [44]

def paramNextSSizeT : Int → List UInt8 → Int × Bool × List UInt8 := paramNextNumber id []

theorem digit_not_space {c : UInt8} (digit : isDigit c = true) : isSpace c = false := by
  simp only [isDigit, Bool.and_eq_true, decide_eq_true_eq, UInt8.le_iff_toNat_le] at digit
  simp only [isSpace, Bool.or_eq_false_iff, Bool.and_eq_false_iff, beq_eq_false_iff_ne, ne_eq,
    decide_eq_false_iff_not, UInt8.le_iff_toNat_le, ← UInt8.toNat_inj]
  simp only [UInt8.reduceToNat] at *
  omega

def AtBlank (rest : List UInt8) : Prop := ∀ c ∈ rest.head?, c = 32

theorem strtol_decimalInt (n : Int) (low : longMin ≤ n) (high : n ≤ longMax) :
    strtol (decimalInt n) = (n, []) := by
  have digits := takeWhile_boundary isDigit (decimal n.natAbs) [] (fun c => decimal_digits) (by simp)
  rw [List.append_nil] at digits
  have found : (decimal n.natAbs).isEmpty = false := by
    cases shape : decimal n.natAbs with
    | nil => exact absurd shape (decimal_ne_nil _)
    | cons c rest => rfl
  unfold decimalInt strtol
  split
  · rename_i negative
    have start : (45 :: decimal n.natAbs).dropWhile isSpace = 45 :: decimal n.natAbs := by
      simp [isSpace]
    simp only [start, List.head?_cons, true_or, if_true, List.tail_cons, digits.1, digits.2, found,
      Bool.false_eq_true, if_false, readDigits_decimal]
    rw [min_eq_right (by omega), max_eq_right (by omega)]
    simp only [Prod.mk.injEq, and_true]
    omega
  · rename_i positive
    obtain ⟨c, rest, shape⟩ := List.exists_cons_of_ne_nil (decimal_ne_nil n.natAbs)
    have digit : isDigit c = true := decimal_digits (shape ▸ List.mem_cons_self)
    have start : (decimal n.natAbs).dropWhile isSpace = decimal n.natAbs := by
      rw [shape]; simp [digit_not_space digit]
    have unsigned (sign : UInt8) (other : isDigit sign = false) :
        ¬ (decimal n.natAbs).head? = some sign := by
      rw [shape]
      rintro h
      rw [Option.some.inj h, other] at digit
      contradiction
    simp only [start, unsigned 45 (by decide), unsigned 43 (by decide), or_self, if_false,
      digits.1, digits.2, found, Bool.false_eq_true, readDigits_decimal]
    rw [min_eq_right (by omega), max_eq_right (by omega)]
    simp only [Prod.mk.injEq, and_true]
    omega

theorem paramNextNumber_decimalInt (convert : Int → Int) (enddelim : List UInt8) (num n : Int)
    (rest : List UInt8) (low : longMin ≤ n) (high : n ≤ longMax)
    (delims : ∀ c ∈ enddelim, isDigit c = false ∧ c ≠ 45) (boundary : AtBlank rest) :
    paramNextNumber convert enddelim num (decimalInt n ++ rest) = (convert n, true, rest.tail) := by
  obtain ⟨c, tail, shape⟩ := List.exists_cons_of_ne_nil (decimalInt_ne_nil n)
  have plain {b : UInt8} (inside : b ∈ decimalInt n) : isSpace b = false ∧ b ≠ 34 := by
    rcases decimalInt_bytes inside with rfl | digit
    · decide
    · exact ⟨digit_not_space digit, by rintro rfl; exact absurd digit (by decide)⟩
  have first := plain (shape ▸ List.mem_cons_self : c ∈ decimalInt n)
  have start : (decimalInt n ++ rest).dropWhile isSpace = c :: (tail ++ rest) := by
    rw [shape]; simp [first.1]
  have word := takeWhile_boundary (fun b => !isSpace b && !enddelim.contains b) (decimalInt n) rest
    (fun b inside => by
      have outside : b ∉ enddelim := fun mem => by
        obtain ⟨digit, sign⟩ := delims b mem
        rcases decimalInt_bytes inside with h | h
        · exact sign h
        · rw [h] at digit; contradiction
      simp [(plain inside).1, outside])
    (fun b head => by simp [boundary b head, isSpace])
  have text : c :: (tail ++ rest) = decimalInt n ++ rest := by rw [shape]; rfl
  unfold paramNextNumber paramNextString
  simp only [start, first.2, if_false]
  rw [text, word.1, word.2, strtol_decimalInt n low high]
  simp

def IsInt (n : Int) : Prop := -2 ^ 31 ≤ n ∧ n < 2 ^ 31

instance (n : Int) : Decidable (IsInt n) := inferInstanceAs (Decidable (_ ∧ _))

theorem intOfLong_int {n : Int} (fits : IsInt n) : intOfLong n = n := by
  unfold intOfLong
  unfold IsInt at fits
  rw [Int.bmod_eq_of_le] <;> omega

theorem intOfLong_isInt (n : Int) : IsInt (intOfLong n) := by
  have low := Int.le_bmod (x := n) (m := 2 ^ 32) (by decide)
  have high := Int.bmod_lt (x := n) (m := 2 ^ 32) (by decide)
  unfold intOfLong IsInt
  omega

theorem paramNextInteger_int {num value : Int} {text rest : List UInt8}
    (read : paramNextInteger num text = (value, true, rest)) : IsInt value := by
  unfold paramNextInteger paramNextNumber at read
  split at read
  · simp at read
  · have same : intOfLong _ = value := congrArg Prod.fst read
    exact same ▸ intOfLong_isInt _

theorem paramNextInteger_decimalInt (num : Int) {n : Int} (rest : List UInt8) (fits : IsInt n)
    (boundary : AtBlank rest) :
    paramNextInteger num (decimalInt n ++ rest) = (n, true, rest.tail) := by
  have range := fits
  unfold IsInt at range
  rw [paramNextInteger, paramNextNumber_decimalInt _ _ num n rest (by simp only [longMin]; omega)
    (by simp only [longMax]; omega) (by simp [isDigit]) boundary, intOfLong_int fits]

end Rts2.Kernel
