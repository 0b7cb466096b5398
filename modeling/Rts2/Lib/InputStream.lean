import Mathlib
import Rts2.Lib.Format

/-! Reading of numbers from texts: the C function strtod, and the input stream with its flags. Numbers are
exact; hexadecimal ones, infinities and NaN are not read. -/
namespace Rts2.Lib

namespace Reading

def isSpace (c : Char) : Bool := c = ' ' || 9 ≤ c.toNat && c.toNat ≤ 13

def isDigit (c : Char) : Bool := '0' ≤ c && c ≤ '9'

def digitValue (c : Char) : ℕ := c.toNat - 48

def wholeOf (ds : List Char) : ℕ := ds.foldl (fun v c => v * 10 + digitValue c) 0

def fracOf : List Char → ℚ
  | [] => 0
  | c :: ds => (digitValue c + fracOf ds) / 10

def unsigned (t : List Char) : Option (ℚ × List Char) :=
  let whole := t.takeWhile isDigit
  match t.dropWhile isDigit with
  | '.' :: rest =>
    if whole = [] ∧ rest.takeWhile isDigit = [] then none
    else some (wholeOf whole + fracOf (rest.takeWhile isDigit), rest.dropWhile isDigit)
  | rest => if whole = [] then none else some (wholeOf whole, rest)

def signOf : List Char → Bool × List Char
  | '-' :: t => (true, t)
  | '+' :: t => (false, t)
  | t => (false, t)

def signed (neg : Bool) (v : ℚ) : ℚ := if neg then -v else v

def exponent : List Char → Option (ℤ × List Char)
  | c :: t =>
    if c = 'e' ∨ c = 'E' then
      let (neg, digits) := signOf t
      if digits.takeWhile isDigit = [] then none
      else some (if neg then -(wholeOf (digits.takeWhile isDigit) : ℤ) else wholeOf (digits.takeWhile isDigit),
        digits.dropWhile isDigit)
    else none
  | [] => none

def strtod (t : List Char) : ℚ × List Char :=
  let (neg, digits) := signOf (t.dropWhile isSpace)
  match unsigned digits with
  | none => (0, t)
  | some (v, rest) =>
    match exponent rest with
    | some (e, rest) => (signed neg (v * 10 ^ e), rest)
    | none => (signed neg v, rest)

end Reading

open Reading

structure InStream where
  rest : List Char
  eofbit : Bool
  failbit : Bool
deriving DecidableEq

namespace InStream

def of (t : List Char) : InStream := ⟨t, false, false⟩

def good (s : InStream) : Bool := !s.eofbit && !s.failbit

def peek (s : InStream) : Option Char × InStream :=
  if s.good then
    match s.rest with
    | [] => (none, { s with eofbit := true })
    | c :: _ => (some c, s)
  else (none, { s with failbit := true })

def get (s : InStream) : Option Char × InStream :=
  if s.good then
    match s.rest with
    | [] => (none, { s with eofbit := true, failbit := true })
    | c :: t => (some c, { s with rest := t })
  else (none, { s with failbit := true })

def behind (failed : Bool) (t : List Char) : InStream := ⟨t, t = [], failed⟩

def number (neg : Bool) (digits : List Char) : Option ℚ × InStream :=
  match unsigned digits with
  | none => (none, behind true (if digits.head? = some '.' then digits.tail else digits))
  | some (v, rest) =>
    if rest.head? = some 'e' ∨ rest.head? = some 'E' then
      match exponent rest with
      | some (e, rest) => (some (signed neg (v * 10 ^ e)), behind false rest)
      | none => (none, behind true (signOf rest.tail).2)
    else (some (signed neg v), behind false rest)

def readDouble (s : InStream) : Option ℚ × InStream :=
  if s.good then
    if s.rest.dropWhile isSpace = [] then (none, ⟨[], true, true⟩)
    else
      let (neg, digits) := signOf (s.rest.dropWhile isSpace)
      number neg digits
  else (none, { s with failbit := true })

end InStream

namespace Reading

theorem dropWhile_length (p : Char → Bool) (t : List Char) : (t.dropWhile p).length ≤ t.length :=
  (List.dropWhile_suffix p).length_le

theorem unsigned_length {t rest : List Char} {v : ℚ} (h : unsigned t = some (v, rest)) : rest.length < t.length := by
  have whole : (t.takeWhile isDigit).length + (t.dropWhile isDigit).length = t.length := by
    rw [← List.length_append, List.takeWhile_append_dropWhile]
  have some_digits : t.takeWhile isDigit ≠ [] → (t.dropWhile isDigit).length < t.length := by
    intro digits
    have := List.length_pos_iff.mpr digits
    omega
  unfold unsigned at h
  dsimp only at h
  split at h
  · rename_i behind eq
    have shorter := dropWhile_length isDigit behind
    have point : (t.dropWhile isDigit).length = behind.length + 1 := by rw [eq, List.length_cons]
    split at h
    · cases h
    · obtain ⟨-, rfl⟩ := Prod.mk.inj (Option.some.inj h)
      omega
  · split at h
    · cases h
    · rename_i digits
      obtain ⟨-, rfl⟩ := Prod.mk.inj (Option.some.inj h)
      exact some_digits digits

theorem signOf_length (t : List Char) : (signOf t).2.length ≤ t.length := by
  unfold signOf
  split <;> simp

theorem exponent_length {t rest : List Char} {e : ℤ} (h : exponent t = some (e, rest)) : rest.length ≤ t.length := by
  cases t with
  | nil => cases h
  | cons c t =>
    rw [exponent] at h
    split at h
    · dsimp only at h
      split at h
      · cases h
      · obtain ⟨-, rfl⟩ := Prod.mk.inj (Option.some.inj h)
        have digits := dropWhile_length isDigit (signOf t).2
        have sign := signOf_length t
        rw [List.length_cons]
        omega
    · cases h

theorem strtod_length (t : List Char) : (strtod t).2.length ≤ t.length := by
  have blanks := dropWhile_length isSpace t
  have sign := signOf_length (t.dropWhile isSpace)
  unfold strtod
  dsimp only
  split
  · exact le_refl _
  · rename_i v rest number
    have used := unsigned_length number
    split
    · rename_i e rest' exp
      have := exponent_length exp
      dsimp only
      omega
    · dsimp only
      omega

end Reading

namespace InStream

theorem get_length {is_ : InStream} : is_.get.2.rest.length ≤ is_.rest.length := by
  unfold get
  split
  · split
    · simp
    · rename_i eq
      simp [eq]
  · simp

theorem get_peek_length {is_ : InStream} {c : Char} (next : is_.peek.1 = some c) :
    is_.peek.2.get.2.rest.length < is_.rest.length := by
  unfold peek at next ⊢
  split at next
  · rename_i good
    split at next
    · cases next
    · rename_i d t eq
      rw [if_pos good]
      simp only [eq, get, if_pos good]
      simp
  · cases next

theorem peek_rest (is_ : InStream) : is_.peek.2.rest = is_.rest := by
  unfold peek
  split
  · split
    · rename_i eq
      exact eq.symm ▸ rfl
    · rfl
  · rfl

theorem get_rest {is_ is' : InStream} {c : Char} (h : is_.get = (some c, is')) : is'.rest.length < is_.rest.length := by
  unfold get at h
  split at h
  · split at h
    · cases h
    · rename_i d t eq
      cases h
      simp [eq]
  · cases h

theorem readDouble_length {s s' : InStream} {v : ℚ} (h : s.readDouble = (some v, s')) : s'.rest.length < s.rest.length := by
  have blanks := dropWhile_length isSpace s.rest
  have sign := signOf_length (s.rest.dropWhile isSpace)
  unfold readDouble at h
  split at h
  · split at h
    · cases h
    · unfold number at h
      dsimp only at h
      split at h
      · cases h
      · rename_i w rest number
        have used := unsigned_length number
        split at h
        · split at h
          · rename_i e rest' exp
            have := exponent_length exp
            obtain ⟨-, rfl⟩ := Prod.mk.inj h
            dsimp only [behind]
            omega
          · cases h
        · obtain ⟨-, rfl⟩ := Prod.mk.inj h
          dsimp only [behind]
          omega
  · cases h

end InStream

namespace Reading

theorem digitChar_digit : ∀ d : Fin 10, isDigit (Numeral.digitChar d) = true ∧ digitValue (Numeral.digitChar d) = d := by
  decide

theorem digits_of (ds : List (Fin 10)) : ∀ c ∈ ds.map Numeral.digitChar, isDigit c = true := by
  intro c hc
  obtain ⟨d, -, rfl⟩ := List.mem_map.mp hc
  exact (digitChar_digit d).1

theorem wholeOf_map (ds : List (Fin 10)) : wholeOf (ds.map Numeral.digitChar) = Numeral.wholeValue ds := by
  rw [wholeOf, Numeral.wholeValue, List.foldl_map]
  simp only [(digitChar_digit _).2]

theorem fracOf_map (ds : List (Fin 10)) : fracOf (ds.map Numeral.digitChar) = Numeral.fracValue ds := by
  induction ds with
  | nil => rfl
  | cons d ds ih => rw [List.map_cons, fracOf, ih, (digitChar_digit d).2, Numeral.fracValue]

def Stops (t : List Char) : Prop := ∀ c ∈ t.head?, isDigit c = false ∧ c ≠ '.' ∧ c ≠ 'e' ∧ c ≠ 'E'

theorem stops_nil : Stops [] := by
  intro c hc
  cases hc

theorem unsigned_numeral (n : Numeral) (some_digit : n.whole ≠ [] ∨ n.frac ≠ []) {t : List Char} (stops : Stops t) :
    unsigned (n.text ++ t) = some (n.value, t) := by
  have taken (ds : List (Fin 10)) {u : List Char} (ends : ∀ c ∈ u.head?, isDigit c = false) :
      (ds.map Numeral.digitChar ++ u).takeWhile isDigit = ds.map Numeral.digitChar ∧
        (ds.map Numeral.digitChar ++ u).dropWhile isDigit = u := by
    rw [List.takeWhile_append_of_pos (digits_of ds), List.dropWhile_append_of_pos (digits_of ds)]
    cases u with
    | nil => simp
    | cons c u => simp [ends c rfl]
  have ends : ∀ c ∈ t.head?, isDigit c = false := fun c hc => (stops c hc).1
  rw [Numeral.text, List.append_assoc]
  cases point : n.point with
  | false =>
    have frac := n.no_point point
    have whole : n.whole ≠ [] := some_digit.resolve_right (not_not_intro frac)
    obtain ⟨take, drop⟩ := taken n.whole ends
    have no_point : ∀ rest, t ≠ '.' :: rest := by
      rintro rest rfl
      exact (stops '.' rfl).2.1 rfl
    simp only [unsigned, Bool.false_eq_true, if_false, List.nil_append, take, drop]
    rw [if_neg (by simpa using whole), wholeOf_map, Numeral.value, frac]
    simp [Numeral.fracValue]
  | true =>
    have shown : (if true = true then '.' :: n.frac.map Numeral.digitChar else []) ++ t =
        '.' :: (n.frac.map Numeral.digitChar ++ t) := rfl
    obtain ⟨take, drop⟩ := taken n.whole (u := '.' :: (n.frac.map Numeral.digitChar ++ t)) (by
      intro c hc
      cases hc
      rfl)
    obtain ⟨take', drop'⟩ := taken n.frac ends
    rw [shown, unsigned, take, drop]
    simp only [take', drop']
    rw [if_neg, wholeOf_map, fracOf_map, Numeral.value]
    rintro ⟨whole, frac⟩
    rcases some_digit with h | h
    · exact h (by simpa using whole)
    · exact h (by simpa using frac)

def signText : Option Bool → List Char
  | none => []
  | some true => ['-']
  | some false => ['+']

def minus (sign : Option Bool) : Bool := sign = some true

theorem numeral_head (n : Numeral) (some_digit : n.whole ≠ [] ∨ n.frac ≠ []) :
    ∃ c t, n.text = c :: t ∧ (isDigit c = true ∨ c = '.') := by
  rw [Numeral.text]
  cases whole : n.whole with
  | nil =>
    have frac : n.frac ≠ [] := some_digit.resolve_left (not_not_intro whole)
    have point : n.point = true := by
      by_contra none_
      exact frac (n.no_point (by simpa using none_))
    exact ⟨'.', n.frac.map Numeral.digitChar, by simp [point], .inr rfl⟩
  | cons d ds => exact ⟨Numeral.digitChar d, _, rfl, .inl (digitChar_digit d).1⟩

theorem number_char {c : Char} (h : isDigit c = true ∨ c = '.') : c ≠ '-' ∧ c ≠ '+' ∧ isSpace c = false := by
  rcases h with digit | rfl
  · refine ⟨?_, ?_, ?_⟩
    · rintro rfl
      cases digit
    · rintro rfl
      cases digit
    · simp only [isDigit, Bool.and_eq_true, decide_eq_true_eq, Char.le_def, UInt32.le_iff_toNat_le] at digit
      obtain ⟨above, -⟩ := digit
      have least : 48 ≤ c.toNat := above
      have other : c ≠ ' ' := by
        rintro rfl
        exact absurd least (by decide)
      simp only [isSpace, other, decide_false, Bool.false_or, Bool.and_eq_false_imp, decide_eq_true_eq, decide_eq_false_iff_not]
      omega
  · decide

theorem signOf_signText (sign : Option Bool) {c : Char} {t : List Char} (h : isDigit c = true ∨ c = '.') :
    signOf (signText sign ++ c :: t) = (minus sign, c :: t) := by
  obtain ⟨no_minus, no_plus, -⟩ := number_char h
  match sign with
  | some true => rfl
  | some false => rfl
  | none =>
    change signOf (c :: t) = (false, c :: t)
    rw [signOf]
    · rintro u eq
      exact no_minus (List.cons.inj eq).1
    · rintro u eq
      exact no_plus (List.cons.inj eq).1

theorem dropWhile_signText {blanks : List Char} (blank : ∀ c ∈ blanks, isSpace c = true) (sign : Option Bool) {c : Char}
    {t : List Char} (h : isDigit c = true ∨ c = '.') :
    (blanks ++ (signText sign ++ c :: t)).dropWhile isSpace = signText sign ++ c :: t := by
  obtain ⟨-, -, inked⟩ := number_char h
  rw [List.dropWhile_append_of_pos blank]
  match sign with
  | some true => rfl
  | some false => rfl
  | none => simp [signText, inked]

theorem exponent_stops {t : List Char} (stops : Stops t) : exponent t = none := by
  cases t with
  | nil => rfl
  | cons c t =>
    obtain ⟨-, -, small, large⟩ := stops c rfl
    rw [exponent, if_neg (by simp [small, large])]

theorem strtod_numeral {blanks : List Char} (blank : ∀ c ∈ blanks, isSpace c = true) (sign : Option Bool) (n : Numeral)
    (some_digit : n.whole ≠ [] ∨ n.frac ≠ []) {t : List Char} (stops : Stops t) :
    strtod (blanks ++ (signText sign ++ (n.text ++ t))) = (signed (minus sign) n.value, t) := by
  obtain ⟨c, u, text, first⟩ := numeral_head n some_digit
  have shown : n.text ++ t = c :: (u ++ t) := by rw [text, List.cons_append]
  rw [strtod, shown, dropWhile_signText blank sign first, signOf_signText sign first, ← shown]
  simp only [unsigned_numeral n some_digit stops, exponent_stops stops]

end Reading

namespace InStream

theorem readDouble_numeral {blanks : List Char} (blank : ∀ c ∈ blanks, isSpace c = true) (sign : Option Bool) (n : Numeral)
    (some_digit : n.whole ≠ [] ∨ n.frac ≠ []) {t : List Char} (stops : Stops t) :
    (of (blanks ++ (signText sign ++ (n.text ++ t)))).readDouble =
      (some (signed (minus sign) n.value), behind false t) := by
  obtain ⟨c, u, text, first⟩ := numeral_head n some_digit
  have shown : n.text ++ t = c :: (u ++ t) := by rw [text, List.cons_append]
  have dropped := dropWhile_signText (t := u ++ t) blank sign first
  have sign_read := signOf_signText (t := u ++ t) sign first
  have read := unsigned_numeral n some_digit stops
  rw [shown] at read
  have some_text : signText sign ++ c :: (u ++ t) ≠ [] := by simp
  have plain : ¬ (t.head? = some 'e' ∨ t.head? = some 'E') := by
    rintro (e | e)
    · exact (stops 'e' e).2.2.1 rfl
    · exact (stops 'E' e).2.2.2 rfl
  rw [readDouble, shown, of, if_pos (by rfl)]
  simp only [dropped, if_neg some_text, sign_read, number, read, if_neg plain]

end InStream

end Rts2.Lib
