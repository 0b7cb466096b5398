import Rts2.Values.Sexagesimal

/-! Which sexagesimal texts each of the four readers reads as they are meant. -/
namespace Rts2.Values.Sexagesimal

open Lib Reading

def Ends (letters : List Char) : Prop :=
  ∀ c ∈ letters, (Reading.isDigit c = false ∧ c ≠ '.' ∧ c ≠ 'e' ∧ c ≠ 'E') ∧ (letterMul c).isSome

theorem degree_ends : Ends degreeLetters := by
  intro c hc
  fin_cases hc <;> exact ⟨by decide, rfl⟩

theorem minute_ends : Ends minuteLetters := by
  intro c hc
  fin_cases hc <;> exact ⟨by decide, rfl⟩

theorem second_ends : Ends secondLetters := by
  intro c hc
  fin_cases hc <;> exact ⟨by decide, rfl⟩

variable {letters : List Char}

theorem Joint.stops (ends : Ends letters) (j : Joint letters) (t : Text) : Stops (j.text ++ t) := by
  intro c hc
  cases j with
  | colon =>
    cases hc
    decide
  | blanks more =>
    cases hc
    decide
  | unit d gap =>
    cases hc
    exact (ends d.1 d.2).1

theorem last_stops (ends : Ends letters) (last : Option (Letter letters)) : Stops (lastText last) := by
  intro c hc
  cases last with
  | none => cases hc
  | some d =>
    cases hc
    exact (ends d.1 d.2).1

theorem blank_replicate (k : ℕ) : ∀ c ∈ List.replicate k ' ', isSpace c = true := by
  intro c hc
  rw [List.eq_of_mem_replicate hc]
  rfl

namespace Number

theorem text_ne_nil (x : Number) : x.text ≠ [] := by
  obtain ⟨c, t, text, -⟩ := numeral_head x.numeral x.some_digit
  rw [Number.text, text]
  simp

theorem text_length (x : Number) : 0 < x.text.length := List.length_pos_iff.mpr x.text_ne_nil

end Number

theorem dmsLoop_done {σ ret mul ret' mul' : ℚ} {locptr : Text} (h : dmsTurn ret mul locptr = .done ret' mul') :
    dmsLoop σ ret mul locptr = (some (ret' * σ), mul') := by
  rw [dmsLoop]
  split
  all_goals
    rename_i eq
    rw [h] at eq
    cases eq
  rfl

theorem dmsLoop_next {σ ret mul ret' mul' : ℚ} {locptr next : Text} (h : dmsTurn ret mul locptr = .next ret' mul' next) :
    dmsLoop σ ret mul locptr = dmsLoop σ ret' mul' next := by
  rw [dmsLoop]
  split
  all_goals
    rename_i eq
    rw [h] at eq
    cases eq
  rfl

def Joint.mul (mul : ℚ) : Joint letters → ℚ
  | unit c _ => (letterMul c.1).getD mul
  | _ => mul

def lastMul (mul : ℚ) : Option (Letter letters) → ℚ
  | some c => (letterMul c.1).getD mul
  | none => mul

def Joint.next (t : Text) : Joint letters → Text
  | colon => t
  | blanks more => List.replicate more ' ' ++ t
  | unit _ gap => (List.replicate gap ' ' ++ t).tail

theorem dms_joint (ends : Ends letters) (σ ret mul : ℚ) (k : ℕ) (s : Option Bool) (x : Number) (j : Joint letters) {t : Text}
    (more : t ≠ []) :
    dmsLoop σ ret mul (List.replicate k ' ' ++ (signText s ++ (x.text ++ (j.text ++ t)))) =
      dmsLoop σ (ret + signed (minus s) x.value * j.mul mul) (j.mul mul / 60) (j.next t) := by
  have read := strtod_numeral (blank_replicate k) s x.numeral x.some_digit (j.stops ends t)
  have some_text : 0 < x.numeral.text.length := x.text_length
  apply dmsLoop_next
  rw [dmsTurn, Number.text, read]
  cases j with
  | colon =>
    have no_letter : letter mul (':' :: t) = (mul, ':' :: t) := by simp [letter, letterMul]
    simp only [Joint.text, List.cons_append, List.nil_append, no_letter]
    rw [if_neg]
    · rfl
    · simp
      omega
  | blanks more =>
    have no_letter : letter mul (' ' :: (List.replicate more ' ' ++ t)) = (mul, ' ' :: (List.replicate more ' ' ++ t)) := by
      simp [letter, letterMul]
    simp only [Joint.text, List.cons_append, no_letter]
    rw [if_neg]
    · rfl
    · simp
      omega
  | unit c gap =>
    obtain ⟨m, known⟩ := Option.isSome_iff_exists.mp (ends c.1 c.2).2
    have used : letter mul (c.1 :: (List.replicate gap ' ' ++ t)) = (m, List.replicate gap ' ' ++ t) := by
      simp [letter, known]
    have behind : List.replicate gap ' ' ++ t ≠ [] := by simp [more]
    obtain ⟨d, u, eq⟩ := List.exists_cons_of_ne_nil behind
    rw [eq] at used
    simp only [Joint.text, List.cons_append, eq, used]
    rw [if_neg]
    · simp [Joint.mul, Joint.next, known, eq, Number.value]
    · have := congrArg List.length eq
      simp only [List.length_append, List.length_cons] at this ⊢
      omega

theorem dms_last (ends : Ends letters) (σ ret mul : ℚ) (k : ℕ) (s : Option Bool) (x : Number) (last : Option (Letter letters)) :
    dmsLoop σ ret mul (List.replicate k ' ' ++ (signText s ++ (x.text ++ lastText last))) =
      (some ((ret + signed (minus s) x.value * lastMul mul last) * σ), lastMul mul last) := by
  have read := strtod_numeral (blank_replicate k) s x.numeral x.some_digit (last_stops ends last)
  apply dmsLoop_done
  rw [dmsTurn, Number.text, read]
  cases last with
  | none => rfl
  | some c =>
    obtain ⟨m, known⟩ := Option.isSome_iff_exists.mp (ends c.1 c.2).2
    simp [lastText, letter, lastMul, known, Number.value]

def Joint.Glued : Joint letters → Prop
  | unit _ 0 => True
  | _ => False

instance : DecidablePred (@Joint.Glued letters)
  | .colon => isFalse id
  | .blanks _ => isFalse id
  | .unit _ 0 => isTrue trivial
  | .unit _ (_ + 1) => isFalse id

def Joint.left : Joint letters → ℕ
  | colon => 0
  | blanks more => more
  | unit _ gap => gap - 1

def Joint.Sees (j : Joint letters) (y y' : Number) : Prop :=
  ∀ t, j.next (y.text ++ t) = List.replicate j.left ' ' ++ (y'.text ++ t)

theorem Joint.sees_apart (j : Joint letters) (apart : ¬ j.Glued) (y : Number) : j.Sees y y := by
  intro t
  match j with
  | .colon => rfl
  | .blanks more => rfl
  | .unit c 0 => exact (apart trivial).elim
  | .unit c (gap + 1) => rfl

theorem no_point : false = false → ([] : List (Fin 10)) = [] := fun _ => rfl

theorem one_digit : [Lib.Numeral.digit 1] ≠ [] := by simp

theorem two_digits : [Lib.Numeral.digit 1, Lib.Numeral.digit 1] ≠ [] := by simp

def one : Number := ⟨⟨[Lib.Numeral.digit 1], [], false, no_point⟩, .inl one_digit⟩

def eleven : Number := ⟨⟨[Lib.Numeral.digit 1, Lib.Numeral.digit 1], [], false, no_point⟩, .inl two_digits⟩

theorem one_value : one.value = 1 := by
  norm_num [one, Number.value, Numeral.value, Numeral.wholeValue, Numeral.fracValue, Numeral.digit]

theorem eleven_value : eleven.value = 11 := by
  norm_num [eleven, Number.value, Numeral.value, Numeral.wholeValue, Numeral.fracValue, Numeral.digit]

def Joint.ofEleven (j : Joint letters) : Number := if j.Glued then one else eleven

theorem Joint.sees_eleven (j : Joint letters) : j.Sees eleven j.ofEleven := by
  unfold Joint.ofEleven
  split
  · intro t
    match j with
    | .colon => contradiction
    | .blanks more => contradiction
    | .unit c 0 => rfl
    | .unit c (gap + 1) => contradiction
  · rename_i apart
    exact j.sees_apart apart eleven

namespace Shape

def dms (a b c : ℚ) : Shape → ℚ
  | degrees last => a * lastMul 1 last
  | minutes first last => a * first.mul 1 + b * lastMul (first.mul 1 / 60) last
  | seconds first second last =>
    a * first.mul 1 + b * second.mul (first.mul 1 / 60) + c * lastMul (second.mul (first.mul 1 / 60) / 60) last

def Sees (b b' c c' : Number) : Shape → Prop
  | degrees _ => True
  | minutes first _ => first.Sees b b'
  | seconds first second _ => first.Sees b b' ∧ second.Sees c c'

def Apart : Shape → Prop
  | degrees _ => True
  | minutes first _ => ¬ first.Glued
  | seconds first second _ => ¬ first.Glued ∧ ¬ second.Glued

theorem dms_text (a b b' c c' : Number) (σ : ℚ) {s : Option Bool} (plus : minus s = false) (shape : Shape)
    (sees : shape.Sees b b' c c') :
    (dmsLoop σ 0 1 (signText s ++ shape.text a b c)).1 = some (shape.dms a.value b'.value c'.value * σ) := by
  cases shape with
  | degrees last =>
    have ended := dms_last degree_ends σ 0 1 0 s a last
    simp only [List.replicate_zero, List.nil_append] at ended
    rw [Shape.text, ended]
    simp [dms, plus, signed]
  | minutes first last =>
    have joined := dms_joint degree_ends σ 0 1 0 s a first (t := b.text ++ lastText last) (by simp [b.text_ne_nil])
    have ended := dms_last minute_ends σ (0 + signed (minus s) a.value * first.mul 1) (first.mul 1 / 60) first.left none b' last
    simp only [List.replicate_zero, List.nil_append] at joined
    simp only [signText, List.nil_append] at ended
    rw [Shape.text, joined, sees, ended, plus]
    simp [dms, minus, signed]
  | seconds first second last =>
    obtain ⟨sees, sees'⟩ := sees
    have joined := dms_joint degree_ends σ 0 1 0 s a first (t := b.text ++ (second.text ++ (c.text ++ lastText last)))
      (by simp [b.text_ne_nil])
    have joined' := dms_joint minute_ends σ (0 + signed (minus s) a.value * first.mul 1) (first.mul 1 / 60) first.left none b'
      second (t := c.text ++ lastText last) (by simp [c.text_ne_nil])
    have ended := dms_last second_ends σ
      (0 + signed (minus s) a.value * first.mul 1 + signed (minus none) b'.value * second.mul (first.mul 1 / 60))
      (second.mul (first.mul 1 / 60) / 60) second.left none c' last
    simp only [List.replicate_zero, List.nil_append] at joined
    simp only [signText, List.nil_append] at joined' ended
    rw [Shape.text, joined, sees, joined', sees', ended, plus]
    simp [dms, minus, signed]

theorem text_head (a b c : Number) (shape : Shape) :
    ∃ d t, shape.text a b c = d :: t ∧ (Reading.isDigit d = true ∨ d = '.') := by
  obtain ⟨d, t, text, first⟩ := numeral_head a.numeral a.some_digit
  cases shape <;> exact ⟨d, _, by rw [Shape.text, Number.text, text, List.cons_append], first⟩

end Shape

theorem parseDMS_text (f : Form) (a b b' c c' : Number) (sees : f.shape.Sees b b' c c') :
    (parseDMS (f.text a b c)).1 = some (signed (minus f.sign) (f.shape.dms a.value b'.value c'.value)) := by
  obtain ⟨d, t, text, first⟩ := f.shape.text_head a b c
  obtain ⟨no_minus, -, -⟩ := number_char first
  have read (σ : ℚ) {s : Option Bool} (plus : minus s = false) := f.shape.dms_text a b b' c c' σ plus sees
  have from_ (σ : ℚ) {t : Text} (some_text : t ≠ []) : dmsFrom σ t = dmsLoop σ 0 1 t := if_neg some_text
  unfold Form.text
  match h : f.sign with
  | none =>
    have read := read 1 (s := none) rfl
    rw [signText, List.nil_append, text] at read ⊢
    have unsigned : parseDMS (d :: t) = dmsFrom 1 (d :: t) := by
      rw [parseDMS]
      rintro u eq
      exact no_minus (List.cons.inj eq).1
    rw [unsigned, from_ 1 (by simp), read]
    simp [signed, minus]
  | some false =>
    have read := read 1 (s := some false) rfl
    have unsigned : parseDMS (signText (some false) ++ f.shape.text a b c) =
        dmsFrom 1 (signText (some false) ++ f.shape.text a b c) := rfl
    rw [unsigned, from_ 1 (by simp [signText]), read]
    simp [signed, minus]
  | some true =>
    have read := read (-1) (s := none) rfl
    rw [signText, List.nil_append] at read
    have unsigned : parseDMS (signText (some true) ++ f.shape.text a b c) = dmsFrom (-1) (f.shape.text a b c) := rfl
    rw [unsigned, from_ (-1) (by simp [text]), read]
    simp [signed, minus]

def RightDMS (f : Form) (a b c : Number) : Prop := (parseDMS (f.text a b c)).1 = some (f.value a b c)

def ReadableDMS (f : Form) : Prop := ¬ f.shape.hours ∧ f.shape.Apart

theorem signed_inj {neg : Bool} {v w : ℚ} : signed neg v = signed neg w ↔ v = w := by
  cases neg <;> simp [signed]


theorem minute_mul (m : ℚ) (j : Joint minuteLetters) : j.mul m = m ∨ j.mul m = 1 / 60 := by
  match j with
  | .colon => exact .inl rfl
  | .blanks more => exact .inl rfl
  | .unit ⟨c, hc⟩ gap => fin_cases hc <;> exact .inr rfl

theorem minute_last (m : ℚ) (last : Option (Letter minuteLetters)) : lastMul m last = m ∨ lastMul m last = 1 / 60 := by
  match last with
  | none => exact .inl rfl
  | some ⟨c, hc⟩ => fin_cases hc <;> exact .inr rfl

theorem second_last (m : ℚ) (last : Option (Letter secondLetters)) : lastMul m last = m ∨ lastMul m last = 1 / 3600 := by
  match last with
  | none => exact .inl rfl
  | some ⟨c, hc⟩ => fin_cases hc <;> exact .inr rfl

namespace Shape

def firstMul : Shape → ℚ
  | degrees last => lastMul 1 last
  | minutes first _ => first.mul 1
  | seconds first _ _ => first.mul 1

theorem firstMul_hours (shape : Shape) : shape.firstMul = if shape.hours then 1 / 60 else 1 := by
  match shape with
  | degrees none => rfl
  | degrees (some ⟨c, hc⟩) => fin_cases hc <;> rfl
  | minutes .colon _ => rfl
  | minutes (.blanks _) _ => rfl
  | minutes (.unit ⟨c, hc⟩ _) _ => fin_cases hc <;> rfl
  | seconds .colon _ _ => rfl
  | seconds (.blanks _) _ _ => rfl
  | seconds (.unit ⟨c, hc⟩ _) _ _ => fin_cases hc <;> rfl

theorem dms_degrees (a b c : Number) (shape : Shape) (degrees_ : ¬ shape.hours) :
    shape.dms a.value b.value c.value = shape.value a b c := by
  have mul := shape.firstMul_hours
  rw [if_neg degrees_] at mul
  cases shape with
  | degrees last =>
    simp only [firstMul] at mul
    simp [dms, value, mul]
  | minutes first last =>
    simp only [firstMul] at mul
    simp only [dms, value, mul]
    rcases minute_last (1 / 60) last with m | m <;> rw [m] <;> ring
  | seconds first second last =>
    simp only [firstMul] at mul
    have minute : second.mul (1 / 60) = 1 / 60 := by
      rcases minute_mul (1 / 60) second with m | m <;> exact m
    have second_ : lastMul (1 / 60 / 60) last = 1 / 3600 := by
      rcases second_last (1 / 60 / 60) last with m | m <;> rw [m]
      norm_num
    simp only [dms, value, mul, minute, second_]
    ring

def seen : Shape → Number × Number
  | degrees _ => (eleven, eleven)
  | minutes first _ => (first.ofEleven, eleven)
  | seconds first second _ => (first.ofEleven, second.ofEleven)

theorem sees_seen (shape : Shape) : shape.Sees eleven shape.seen.1 eleven shape.seen.2 := by
  cases shape with
  | degrees last => trivial
  | minutes first last => exact first.sees_eleven
  | seconds first second last => exact ⟨first.sees_eleven, second.sees_eleven⟩

theorem sees_apart (shape : Shape) (apart : shape.Apart) (b c : Number) : shape.Sees b b c c := by
  cases shape with
  | degrees last => trivial
  | minutes first last => exact first.sees_apart apart b
  | seconds first second last => exact ⟨first.sees_apart apart.1 b, second.sees_apart apart.2 c⟩

theorem ofEleven_value (j : Joint letters) : j.ofEleven.value = if j.Glued then 1 else 11 := by
  unfold Joint.ofEleven
  split
  · exact one_value
  · exact eleven_value

theorem ofEleven_bounds (j : Joint letters) : 0 ≤ j.ofEleven.value ∧ j.ofEleven.value ≤ 11 := by
  rw [ofEleven_value]
  split <;> norm_num

theorem hours_dms (shape : Shape) (hours : shape.hours) :
    shape.dms eleven.value shape.seen.1.value shape.seen.2.value < shape.value eleven eleven eleven * 15 := by
  have mul := shape.firstMul_hours
  rw [if_pos hours] at mul
  cases shape with
  | degrees last =>
    simp only [firstMul] at mul
    simp only [dms, value, mul, eleven_value]
    norm_num
  | minutes first last =>
    have y := ofEleven_bounds first
    simp only [firstMul] at mul
    simp only [dms, value, mul, seen, eleven_value]
    rcases minute_last (1 / 60 / 60) last with m | m <;> rw [m] <;> linarith
  | seconds first second last =>
    have y := ofEleven_bounds first
    have z := ofEleven_bounds second
    simp only [firstMul] at mul
    simp only [dms, value, mul, seen, eleven_value]
    rcases minute_mul (1 / 60 / 60) second with m | m <;> rw [m]
    · rcases second_last (1 / 60 / 60 / 60) last with n | n <;> rw [n] <;> linarith
    · rcases second_last (1 / 60 / 60) last with n | n <;> rw [n] <;> linarith

theorem seen_value (shape : Shape) (glued : ¬ shape.Apart) :
    shape.value eleven shape.seen.1 shape.seen.2 < shape.value eleven eleven eleven := by
  cases shape with
  | degrees last => exact (glued trivial).elim
  | minutes first last =>
    have glued : first.Glued := not_not.mp glued
    simp only [value, seen, ofEleven_value, if_pos glued, eleven_value]
    norm_num
  | seconds first second last =>
    have y := ofEleven_bounds first
    simp only [value, seen, eleven_value]
    by_cases glued₁ : first.Glued
    · have z := ofEleven_bounds second
      have y : first.ofEleven.value = 1 := (ofEleven_value first).trans (if_pos glued₁)
      linarith
    · have glued₂ : second.Glued := by
        by_contra apart
        exact glued ⟨glued₁, apart⟩
      have z : second.ofEleven.value = 1 := (ofEleven_value second).trans (if_pos glued₂)
      linarith

end Shape

theorem right_dms (f : Form) : (∀ a b c, RightDMS f a b c) ↔ ReadableDMS f := by
  constructor
  · intro right
    have read := parseDMS_text f eleven eleven f.shape.seen.1 eleven f.shape.seen.2 f.shape.sees_seen
    have same : f.shape.dms eleven.value f.shape.seen.1.value f.shape.seen.2.value =
        f.shape.value eleven eleven eleven * if f.shape.hours then 15 else 1 :=
      signed_inj.mp (Option.some.inj (read.symm.trans (right eleven eleven eleven)))
    by_cases hours : f.shape.hours
    · rw [if_pos hours] at same
      exact ((f.shape.hours_dms hours).ne same).elim
    · refine ⟨hours, ?_⟩
      by_contra glued
      rw [if_neg hours, mul_one, f.shape.dms_degrees _ _ _ hours] at same
      exact (f.shape.seen_value glued).ne same
  · rintro ⟨degrees_, apart⟩ a b c
    rw [RightDMS, parseDMS_text f a b b c c (f.shape.sees_apart apart b c), f.shape.dms_degrees a b c degrees_, Form.value,
      if_neg degrees_, mul_one]

theorem degLoop_again {unit unit' : ℕ} {neg neg' : Bool} {res res' : ℚ} {t : Text} {is_ : InStream}
    (h : degTurn unit neg res (.of t) = .again unit' neg' res' is_) :
    degLoop unit neg res (.of t) = degLoop unit' neg' res' is_ := by
  rw [degLoop, if_pos (by rfl)]
  split
  all_goals
    rename_i eq
    rw [h] at eq
    cases eq
  rfl

theorem degLoop_returns {unit : ℕ} {neg : Bool} {res : ℚ} {t : Text} {deg : Option ℚ} {is_ : InStream}
    (h : degTurn unit neg res (.of t) = .returns deg is_) : degLoop unit neg res (.of t) = (deg, is_) := by
  rw [degLoop, if_pos (by rfl)]
  split
  all_goals
    rename_i eq
    rw [h] at eq
    cases eq
  rfl

theorem behind_of {t : Text} (more : t ≠ []) : InStream.behind false t = .of t := by
  simp [InStream.behind, InStream.of, more]

theorem peek_of (c : Char) (t : Text) : (InStream.of (c :: t)).peek = (some c, .of (c :: t)) := rfl

theorem get_of (c : Char) (t : Text) : (InStream.of (c :: t)).get = (some c, .of t) := rfl

theorem deg_skip (unit : ℕ) (neg : Bool) (res : ℚ) {c : Char} (skipped : isSpace c = true ∨ c = ':') (t : Text) :
    degLoop unit neg res (.of (c :: t)) = degLoop unit neg res (.of t) := by
  apply degLoop_again
  rw [degTurn, peek_of]
  simp only [Option.any_some, Option.some.injEq]
  rw [if_pos skipped, get_of]

theorem deg_blanks (unit : ℕ) (neg : Bool) (res : ℚ) (k : ℕ) (t : Text) :
    degLoop unit neg res (.of (List.replicate k ' ' ++ t)) = degLoop unit neg res (.of t) := by
  induction k with
  | zero => rfl
  | succ k ih => rw [List.replicate_succ, List.cons_append, deg_skip unit neg res (.inl rfl), ih]

theorem numeral_read (x : Number) {t : Text} (stops : Stops t) :
    (InStream.of (x.text ++ t)).readDouble = (some x.value, .behind false t) :=
  InStream.readDouble_numeral (blank_replicate 0) none x.numeral x.some_digit stops

theorem number_char_colon {c : Char} (h : Reading.isDigit c = true ∨ c = '.') : c ≠ ':' := by
  rintro rfl
  rcases h with h | h
  · cases h
  · cases h

theorem degTurn_number (unit : ℕ) (neg : Bool) (res : ℚ) (x : Number) {t : Text} (stops : Stops t) :
    degTurn unit neg res (.of (x.text ++ t)) =
      if unit = 3600 then .returns (some (fromNegDouble neg (res + x.value / unit))) (.behind false t)
      else .again (unit * 60) neg (res + x.value / unit) (.behind false t) := by
  obtain ⟨c, u, text, first⟩ := numeral_head x.numeral x.some_digit
  obtain ⟨minus, plus, inked⟩ := number_char first
  have read := numeral_read x stops
  have shown : x.text ++ t = c :: (u ++ t) := by rw [Number.text, text, List.cons_append]
  rw [shown] at read ⊢
  rw [degTurn, peek_of]
  simp [inked, number_char_colon first, minus, plus, read]

theorem deg_number {unit : ℕ} (neg : Bool) (res : ℚ) (x : Number) {t : Text} (stops : Stops t) (more : t ≠ [])
    (not_last : unit ≠ 3600) :
    degLoop unit neg res (.of (x.text ++ t)) = degLoop (unit * 60) neg (res + x.value / unit) (.of t) := by
  apply degLoop_again
  rw [degTurn_number unit neg res x stops, if_neg not_last, behind_of more]

theorem deg_third (neg : Bool) (res : ℚ) (x : Number) {t : Text} (stops : Stops t) :
    degLoop 3600 neg res (.of (x.text ++ t)) =
      (some (fromNegDouble neg (res + x.value / (3600 : ℕ))), .behind false t) := by
  apply degLoop_returns
  rw [degTurn_number 3600 neg res x stops, if_pos rfl]

theorem deg_end (unit : ℕ) (neg : Bool) (res : ℚ) (x : Number) :
    degLoop unit neg res (.of x.text) = (some (fromNegDouble neg (res + x.value / unit)), .behind false []) := by
  have turn := degTurn_number unit neg res x stops_nil
  rw [List.append_nil] at turn
  by_cases last : unit = 3600
  · rw [if_pos last] at turn
    exact degLoop_returns turn
  · rw [if_neg last] at turn
    rw [degLoop_again turn, degLoop]
    rfl

theorem deg_letter {unit : ℕ} (neg : Bool) (res : ℚ) {c : Char} (letter_ : c ∈ degreeLetters ++ minuteLetters) (t : Text) :
    (degLoop unit neg res (.of (c :: t))).1 = none := by
  have read : (InStream.of (c :: t)).readDouble = (none, .behind true (c :: t)) := by
    fin_cases letter_ <;> rfl
  have turn : degTurn unit neg res (.of (c :: t)) = .returns none (.behind true (c :: t)) := by
    rw [degTurn, peek_of]
    fin_cases letter_ <;> simp [isSpace, read, InStream.behind]
  rw [degLoop_returns turn]

theorem deg_first (s : Option Bool) (x : Number) {t : Text} (stops : Stops t) :
    readDeg (.of (signText s ++ (x.text ++ t))) = degLoop 60 (minus s) x.value (.behind false t) := by
  have value : 0 + x.value / (1 : ℕ) = x.value := by simp
  have read := numeral_read x stops
  have signed_ (c : Char) (sign : c = '-' ∨ c = '+') :
      degTurn 1 false 0 (.of (c :: (x.text ++ t))) =
        .again 60 (c = '-') (0 + x.value / (1 : ℕ)) (.behind false t) := by
    rw [degTurn, peek_of]
    rcases sign with rfl | rfl <;> simp [isSpace, get_of, read]
  rcases s with _ | _ | _
  · have turn := degTurn_number 1 false 0 x stops
    rw [if_neg (by decide)] at turn
    rw [readDeg, signText, List.nil_append, degLoop_again turn, value]
    rfl
  · rw [readDeg, signText, List.cons_append, List.nil_append, degLoop_again (signed_ '+' (.inr rfl)), value]
    rfl
  · rw [readDeg, signText, List.cons_append, List.nil_append, degLoop_again (signed_ '-' (.inl rfl)), value]
    rfl

def Joint.Plain : Joint letters → Prop
  | unit _ _ => False
  | _ => True

theorem Joint.text_ne_nil (j : Joint letters) (t : Text) : j.text ++ t ≠ [] := by
  cases j <;> simp [Joint.text]

theorem deg_joint (unit : ℕ) (neg : Bool) (res : ℚ) (j : Joint letters) (plain : j.Plain) (t : Text) :
    degLoop unit neg res (.of (j.text ++ t)) = degLoop unit neg res (.of t) := by
  cases j with
  | colon => exact deg_skip unit neg res (.inr rfl) t
  | blanks more =>
    rw [Joint.text, List.cons_append, deg_skip unit neg res (.inl rfl), deg_blanks]
  | unit c gap => exact plain.elim

theorem deg_joint_letter {unit : ℕ} (neg : Bool) (res : ℚ) (sub : letters ⊆ degreeLetters ++ minuteLetters)
    (j : Joint letters) (lettered : ¬ j.Plain) (t : Text) : (degLoop unit neg res (.of (j.text ++ t))).1 = none := by
  cases j with
  | colon => exact (lettered trivial).elim
  | blanks more => exact (lettered trivial).elim
  | unit c gap => exact deg_letter neg res (sub c.2) _

namespace Shape

def Unlettered : Shape → Prop
  | degrees last => last = none
  | minutes first last => first.Plain ∧ last = none
  | seconds first second last => first.Plain ∧ second.Plain ∧ last = none

theorem unlettered_hours (shape : Shape) (h : shape.Unlettered) : ¬ shape.hours := by
  intro hours
  match shape with
  | degrees none => cases hours
  | degrees (some c) => cases h
  | minutes (.unit c gap) last => exact h.1
  | seconds (.unit c gap) second last => exact h.1

end Shape

def RightDeg (f : Form) (a b c : Number) : Prop :=
  (readDeg (.of (f.text a b c))).1 = some (f.value a b c) ∧ (readDeg (.of (f.text a b c))).2.rest = []

theorem fromNegDouble_signed (neg : Bool) (v : ℚ) : fromNegDouble neg v = signed neg v := by
  cases neg <;> simp [fromNegDouble, signed]

theorem right_deg (f : Form) (a b c : Number) : RightDeg f a b c ↔ f.shape.Unlettered := by
  have none_ {d : Option ℚ} {v : ℚ} (h : d = none) : d ≠ some v := by
    rw [h]
    simp
  have at_end (neg : Bool) (res : ℚ) : degLoop 60 neg res (.behind false []) = (some (fromNegDouble neg res), .behind false []) := by
    rw [degLoop]
    rfl
  have sub₁ : degreeLetters ⊆ degreeLetters ++ minuteLetters := List.subset_append_left _ _
  have sub₂ : minuteLetters ⊆ degreeLetters ++ minuteLetters := List.subset_append_right _ _
  have value (h : f.shape.Unlettered) : f.value a b c = fromNegDouble (minus f.sign) (f.shape.value a b c) := by
    rw [Form.value, if_neg (f.shape.unlettered_hours h), mul_one, fromNegDouble_signed]
  unfold RightDeg
  cases shape : f.shape with
  | degrees last =>
    rw [shape] at value
    have read := deg_first f.sign a (last_stops degree_ends last)
    rw [Form.text, shape, Shape.text, read]
    cases last with
    | none =>
      rw [lastText, at_end, value rfl]
      exact ⟨fun _ => rfl, fun _ => ⟨rfl, rfl⟩⟩
    | some d =>
      rw [lastText, behind_of (by simp)]
      constructor
      · rintro ⟨deg, -⟩
        exact (none_ (deg_letter _ _ (sub₁ d.2) []) deg).elim
      · rintro unlettered
        cases unlettered
  | minutes first last =>
    rw [shape] at value
    have read := deg_first f.sign a (first.stops degree_ends (b.text ++ lastText last))
    rw [Form.text, shape, Shape.text, read, behind_of (first.text_ne_nil _)]
    by_cases plain : first.Plain
    · rw [deg_joint 60 _ _ first plain]
      cases last with
      | none =>
        rw [lastText, List.append_nil, deg_end, value ⟨plain, rfl⟩]
        exact ⟨fun _ => ⟨plain, rfl⟩, fun _ => ⟨by rfl, rfl⟩⟩
      | some d =>
        rw [deg_number _ _ b (last_stops minute_ends (some d)) (by simp [lastText]) (by decide)]
        constructor
        · rintro ⟨deg, -⟩
          exact (none_ (deg_letter _ _ (sub₂ d.2) []) deg).elim
        · rintro ⟨-, unlettered⟩
          cases unlettered
    · constructor
      · rintro ⟨deg, -⟩
        exact (none_ (deg_joint_letter _ _ sub₁ first plain _) deg).elim
      · exact fun unlettered => (plain unlettered.1).elim
  | seconds first second last =>
    rw [shape] at value
    have read := deg_first f.sign a (first.stops degree_ends (b.text ++ (second.text ++ (c.text ++ lastText last))))
    rw [Form.text, shape, Shape.text, read, behind_of (first.text_ne_nil _)]
    by_cases plain₁ : first.Plain
    · rw [deg_joint 60 _ _ first plain₁,
        deg_number _ _ b (second.stops minute_ends (c.text ++ lastText last)) (second.text_ne_nil _) (by decide)]
      by_cases plain₂ : second.Plain
      · rw [deg_joint _ _ _ second plain₂, deg_third _ _ c (last_stops second_ends last)]
        cases last with
        | none =>
          rw [value ⟨plain₁, plain₂, rfl⟩]
          exact ⟨fun _ => ⟨plain₁, plain₂, rfl⟩, fun _ => ⟨by rfl, rfl⟩⟩
        | some d =>
          constructor
          · rintro ⟨-, rest⟩
            cases rest
          · rintro ⟨-, -, unlettered⟩
            cases unlettered
      · constructor
        · rintro ⟨deg, -⟩
          exact (none_ (deg_joint_letter _ _ sub₂ second plain₂ _) deg).elim
        · exact fun unlettered => (plain₂ unlettered.2.1).elim
    · constructor
      · rintro ⟨deg, -⟩
        exact (none_ (deg_joint_letter _ _ sub₁ first plain₁ _) deg).elim
      · exact fun unlettered => (plain₁ unlettered.1).elim

end Rts2.Values.Sexagesimal
