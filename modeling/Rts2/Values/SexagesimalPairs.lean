import Rts2.Values.SexagesimalTexts

/-! LibnovaDegDist and parseRaDec: which sexagesimal texts they read as they are meant. -/
namespace Rts2.Values.Sexagesimal

open Lib Reading

variable {letters : List Char}

theorem distLoop_again {s s' : Dist} {is_ is' : InStream} (h : distTurn s is_ = .again s' is') :
    distLoop s is_ = distLoop s' is' := by
  rw [distLoop]
  split
  all_goals
    rename_i eq
    rw [h] at eq
    cases eq
  rfl

theorem distLoop_returns {s : Dist} {is_ is' : InStream} {deg : Option ℚ} (h : distTurn s is_ = .returns deg is') :
    distLoop s is_ = some (deg, is') := by
  rw [distLoop]
  split
  all_goals
    rename_i eq
    rw [h] at eq
    cases eq
  rfl

theorem distLoop_undefined {s : Dist} {is_ : InStream} (h : distTurn s is_ = .undefined) : distLoop s is_ = none := by
  rw [distLoop]
  split
  · rename_i eq
    rw [h] at eq
    cases eq
  · rename_i eq
    rw [h] at eq
    cases eq
  · rfl

theorem dist_freed (s : Dist) (is_ : InStream) : s.is_ = .freed → distLoop s is_ = none := by
  induction s, is_ using distLoop.induct with
  | case1 s is_ s' is' turn ih =>
    intro freed
    rw [distLoop_again turn]
    apply ih
    unfold distTurn at turn
    generalize is_.peek = peeked at turn
    obtain ⟨next, is₁⟩ := peeked
    dsimp only at turn
    split at turn
    · cases turn
      exact freed
    · split at turn
      · split at turn <;> simp at turn
      · cases turn
  | case2 s is_ deg is' turn =>
    intro freed
    exfalso
    unfold distTurn at turn
    generalize is_.peek = peeked at turn
    obtain ⟨next, is₁⟩ := peeked
    dsimp only at turn
    split at turn
    · cases turn
    · split at turn
      · split at turn <;> simp at turn
      · cases turn
  | case3 s is_ turn =>
    intro freed
    exact distLoop_undefined turn

theorem dist_char (s : Dist) {c : Char} (char : numberChar c = true) (t : Text) :
    distLoop s (.of (c :: t)) = distLoop { s with os := some (s.os.getD [] ++ [c]) } (.of t) := by
  apply distLoop_again
  rw [distTurn, peek_of]
  simp [Option.filter_some, char, get_of]

theorem dist_chars (s : Dist) (os word : Text) (chars : ∀ c ∈ word, numberChar c = true) (t : Text) :
    distLoop { s with os := some os } (.of (word ++ t)) = distLoop { s with os := some (os ++ word) } (.of t) := by
  induction word generalizing os with
  | nil => rw [List.append_nil, List.nil_append]
  | cons c word ih =>
    rw [List.cons_append, dist_char _ (chars c List.mem_cons_self)]
    dsimp only [Option.getD_some]
    rw [ih (os ++ [c]) fun d hd => chars d (List.mem_cons_of_mem c hd), List.append_assoc, List.singleton_append]

theorem dist_word (s : Dist) (none_ : s.os = none) {word : Text} (some_char : word ≠ [])
    (chars : ∀ c ∈ word, numberChar c = true) (t : Text) :
    distLoop s (.of (word ++ t)) = distLoop { s with os := some word } (.of t) := by
  obtain ⟨c, u, rfl⟩ := List.exists_cons_of_ne_nil some_char
  rw [List.cons_append, dist_char _ (chars c List.mem_cons_self)]
  rw [none_]
  dsimp only [Option.getD_none, List.nil_append]
  rw [dist_chars s [c] u fun d hd => chars d (List.mem_cons_of_mem c hd)]
  rfl

theorem number_chars (s : Option Bool) (x : Number) : ∀ c ∈ signText s ++ x.text, numberChar c = true := by
  have digit (ds : List (Fin 10)) : ∀ c ∈ ds.map Numeral.digitChar, numberChar c = true := by
    intro c hc
    simp [numberChar, digits_of ds c hc]
  intro c hc
  rcases List.mem_append.mp hc with hc | hc
  · match s with
    | none => cases hc
    | some true =>
      rw [List.mem_singleton.mp hc]
      rfl
    | some false =>
      rw [List.mem_singleton.mp hc]
      rfl
  · rw [Number.text, Numeral.text] at hc
    rcases List.mem_append.mp hc with hc | hc
    · exact digit _ c hc
    · split at hc
      · rcases List.mem_cons.mp hc with rfl | hc
        · rfl
        · exact digit _ c hc
      · cases hc

def Dist.add (s : Dist) (val : ℚ) : Dist :=
  let step := if s.out = 0 ∧ val < 0 then s.step * -1 else s.step
  { os := none, is_ := .live, step := step * 60, out := s.out + val / step, get_something := true }

theorem take_add (s : Dist) (sign : Option Bool) (x : Number) :
    s.take (signText sign ++ x.text) = s.add (signed (minus sign) x.value) := by
  have read := InStream.readDouble_numeral (blank_replicate 0) sign x.numeral x.some_digit stops_nil
  rw [List.append_nil, List.replicate_zero, List.nil_append] at read
  simp only [Dist.take, Number.text, read]
  rfl

theorem take_add_unsigned (s : Dist) (x : Number) : s.take x.text = s.add x.value := take_add s none x

def separators : List Char := [' ', ':', 'd', 'h', 'm', 's']

def Dist.hour (s : Dist) (c : Char) : Dist := if c = 'h' then { s with step := 15 } else s

theorem dist_separator (s : Dist) {os : Text} (some_os : s.os = some os) (not_freed : s.is_ ≠ .freed) {c : Char}
    (sep : c ∈ separators) (t : Text) : distLoop s (.of (c :: t)) = distLoop ((s.hour c).take os) (.of t) := by
  apply distLoop_again
  rw [distTurn, peek_of]
  fin_cases sep <;> simp [Option.filter_some, numberChar, Reading.isDigit, peek_of, get_of, some_os, not_freed, Dist.hour]

theorem dist_gap (s : Dist) (none_ : s.os = none) (live : s.is_ = .live) (t : Text) : distLoop s (.of (' ' :: t)) = none := by
  have turn : distTurn s (.of (' ' :: t)) = .again { s with is_ := .freed } (.of t) := by
    rw [distTurn, peek_of]
    simp [Option.filter_some, numberChar, Reading.isDigit, peek_of, get_of, none_, live]
  rw [distLoop_again turn]
  exact dist_freed _ _ rfl

theorem dist_mark (s : Dist) (not_freed : s.is_ ≠ .freed) {c : Char} (mark : c = '\'' ∨ c = '"') (t : Text) :
    distLoop s (.of (c :: t)) = some (if s.get_something then some s.out else none, .of (c :: t)) := by
  apply distLoop_returns
  rw [distTurn, peek_of]
  rcases mark with rfl | rfl <;> simp [Option.filter_some, numberChar, Reading.isDigit, peek_of, not_freed]

theorem dist_end (s : Dist) (not_freed : s.is_ ≠ .freed) :
    distLoop s (.of []) = some (if s.get_something then some s.out else none, ⟨[], true, true⟩) := by
  apply distLoop_returns
  simp [distTurn, InStream.of, InStream.peek, InStream.good, not_freed]

def Gives (r : Option (Option ℚ × InStream)) (v : ℚ) : Prop := ∃ is_, r = some (some v, is_) ∧ is_.rest = []

theorem not_gives_none (v : ℚ) : ¬ Gives none v := by
  rintro ⟨is_, eq, -⟩
  cases eq

def Joint.Single : Joint letters → Prop
  | colon => True
  | blanks more => more = 0
  | unit c gap => gap = 0 ∧ c.1 ∈ separators

def Joint.hour (j : Joint letters) (s : Dist) : Dist :=
  match j with
  | unit c _ => s.hour c.1
  | _ => s

theorem take_is (s : Dist) (os : Text) : (s.take os).os = none ∧ (s.take os).is_ = .live := ⟨rfl, rfl⟩

def Marks (letters : List Char) : Prop := ∀ c ∈ letters, c ∈ separators ∨ c = '\'' ∨ c = '"'

theorem dist_gaps (s : Dist) (os : Text) {gap : ℕ} (t : Text) (v : ℚ) :
    Gives (distLoop (s.take os) (.of (List.replicate gap ' ' ++ t))) v ↔
      gap = 0 ∧ Gives (distLoop (s.take os) (.of t)) v := by
  cases gap with
  | zero => simp
  | succ gap =>
    rw [List.replicate_succ, List.cons_append, dist_gap _ rfl rfl]
    simp [not_gives_none]

theorem dist_joint (marks : Marks letters) (s : Dist) {os : Text} (some_os : s.os = some os) (not_freed : s.is_ ≠ .freed)
    (j : Joint letters) (t : Text) (v : ℚ) :
    Gives (distLoop s (.of (j.text ++ t))) v ↔ j.Single ∧ Gives (distLoop ((j.hour s).take os) (.of t)) v := by
  have separated (c : Char) (sep : c ∈ separators) (gap : ℕ) :
      Gives (distLoop s (.of (c :: (List.replicate gap ' ' ++ t)))) v ↔
        gap = 0 ∧ Gives (distLoop ((s.hour c).take os) (.of t)) v := by
    rw [dist_separator s some_os not_freed sep, dist_gaps]
  cases j with
  | colon =>
    have := separated ':' (by decide) 0
    simpa [Joint.text, Joint.Single, Joint.hour, Dist.hour] using this
  | blanks more =>
    have := separated ' ' (by decide) more
    simpa [Joint.text, Joint.Single, Joint.hour, Dist.hour] using this
  | unit c gap =>
    by_cases sep : c.1 ∈ separators
    · have := separated c.1 sep gap
      simpa [Joint.text, Joint.Single, Joint.hour, sep] using this
    · have stopped := dist_mark s not_freed ((marks c.1 c.2).resolve_left sep) (List.replicate gap ' ' ++ t)
      rw [Joint.text, List.cons_append, stopped]
      constructor
      · rintro ⟨is_, eq, rest⟩
        obtain rfl := (Prod.mk.inj (Option.some.inj eq)).2
        cases rest
      · exact fun gives => (sep gives.1.2).elim

theorem dist_last (marks : Marks letters) (s : Dist) {os : Text} (some_os : s.os = some os) (not_freed : s.is_ ≠ .freed)
    (last : Option (Letter letters)) (v : ℚ) :
    Gives (distLoop s (.of (lastText last))) v ↔
      (last = none ∧ s.get_something = true ∧ v = s.out) ∨
        ∃ c, last = some c ∧ c.1 ∈ separators ∧ v = ((s.hour c.1).take os).out := by
  have ended (s : Dist) (not_freed : s.is_ ≠ .freed) :
      Gives (distLoop s (.of [])) v ↔ s.get_something = true ∧ v = s.out := by
    rw [dist_end s not_freed]
    constructor
    · rintro ⟨is_, eq, -⟩
      cases got : s.get_something <;> rw [got] at eq <;> cases eq
      exact ⟨rfl, rfl⟩
    · rintro ⟨got, rfl⟩
      exact ⟨⟨[], true, true⟩, by rw [got]; rfl, rfl⟩
  cases last with
  | none =>
    rw [lastText, ended s not_freed]
    simp
  | some c =>
    rw [lastText]
    by_cases sep : c.1 ∈ separators
    · rw [dist_separator s some_os not_freed sep, ended _ (by rw [(take_is _ os).2]; decide)]
      simp [sep, Dist.take]
    · rw [dist_mark s not_freed ((marks c.1 c.2).resolve_left sep)]
      constructor
      · rintro ⟨is_, eq, rest⟩
        obtain rfl := (Prod.mk.inj (Option.some.inj eq)).2
        cases rest
      · rintro (⟨h, -⟩ | ⟨d, eq, sep', -⟩)
        · cases h
        · cases eq
          exact (sep sep').elim

def Dist.first (s : Option Bool) (x : Number) : Dist := ⟨some (signText s ++ x.text), .null, 1, 0, false⟩

theorem dist_first (s : Option Bool) (x : Number) (t : Text) :
    readDegDist (.of (signText s ++ (x.text ++ t))) = distLoop (Dist.first s x) (.of t) := by
  have some_char : signText s ++ x.text ≠ [] := by simp [x.text_ne_nil]
  rw [readDegDist, ← List.append_assoc, dist_word _ rfl some_char (number_chars s x)]
  rfl

theorem dist_next (s : Dist) (os : Text) (x : Number) (t : Text) :
    distLoop (s.take os) (.of (x.text ++ t)) = distLoop { s.take os with os := some x.text } (.of t) :=
  dist_word _ rfl x.text_ne_nil (number_chars none x) t

def RightDist (f : Form) (a b c : Number) : Prop := Gives (readDegDist (.of (f.text a b c))) (f.value a b c)

def Ended (last : Option (Letter letters)) : Prop := ∃ c, last = some c ∧ c.1 ∈ separators

def Shape.Separated : Shape → Prop
  | .degrees last => Ended last
  | .minutes first last => first.Single ∧ Ended last
  | .seconds first second last => first.Single ∧ second.Single ∧ Ended last

def ReadableDist (f : Form) : Prop := f.sign ≠ some true ∧ ¬ f.shape.hours ∧ f.shape.Separated

theorem degree_marks : Marks degreeLetters := by
  intro c hc
  fin_cases hc <;> simp [separators]

theorem minute_marks : Marks minuteLetters := by
  intro c hc
  fin_cases hc <;> simp [separators]

theorem second_marks : Marks secondLetters := by
  intro c hc
  fin_cases hc <;> simp [separators]

theorem hour_other {s : Dist} (no_hours : 'h' ∉ letters) (c : Letter letters) : s.hour c.1 = s := by
  have other : c.1 ≠ 'h' := by
    intro eq
    exact no_hours (eq ▸ c.2)
  exact if_neg other

theorem joint_hour_other {s : Dist} (no_hours : 'h' ∉ letters) (j : Joint letters) : j.hour s = s := by
  cases j with
  | colon => rfl
  | blanks more => rfl
  | unit c gap => exact hour_other no_hours c

theorem last_other {s : Dist} (no_hours : 'h' ∉ letters) (os : Text) (last : Option (Letter letters)) (v : ℚ) :
    (∃ c, last = some c ∧ c.1 ∈ separators ∧ v = ((s.hour c.1).take os).out) ↔ Ended last ∧ v = (s.take os).out := by
  constructor
  · rintro ⟨c, eq, sep, h⟩
    rw [hour_other no_hours c] at h
    exact ⟨⟨c, eq, sep⟩, h⟩
  · rintro ⟨⟨c, eq, sep⟩, h⟩
    exact ⟨c, eq, sep, by rw [hour_other no_hours c, h]⟩

def Form.opened (f : Form) (a : Number) : Dist :=
  if f.shape.hours then { Dist.first f.sign a with step := 15 } else Dist.first f.sign a

theorem opened_take (f : Form) (a : Number) :
    (f.opened a).take (signText f.sign ++ a.text) = (f.opened a).add (signed (minus f.sign) a.value) := take_add _ f.sign a

theorem dist_text (f : Form) (a b c : Number) (v : ℚ) :
    Gives (readDegDist (.of (f.text a b c))) v ↔
      match f.shape with
      | .degrees last => Ended last ∧ v = ((f.opened a).add (signed (minus f.sign) a.value)).out
      | .minutes first last =>
        let s := (f.opened a).add (signed (minus f.sign) a.value)
        first.Single ∧ (last = none ∧ v = s.out ∨ Ended last ∧ v = (s.add b.value).out)
      | .seconds first second last =>
        let s := ((f.opened a).add (signed (minus f.sign) a.value)).add b.value
        first.Single ∧ second.Single ∧ (last = none ∧ v = s.out ∨ Ended last ∧ v = (s.add c.value).out) := by
  have first_os : (Dist.first f.sign a).os = some (signText f.sign ++ a.text) := rfl
  have first_is : (Dist.first f.sign a).is_ ≠ .freed := by simp [Dist.first]
  have live (s : Dist) (os text : Text) : ({ s.take os with os := some text } : Dist).is_ ≠ .freed := by simp [Dist.take]
  have no_hours₂ : 'h' ∉ minuteLetters := by decide
  have no_hours₃ : 'h' ∉ secondLetters := by decide
  have opened_joint (first : Joint degreeLetters) (second : Option (Letter minuteLetters))
      (hours : f.shape.hours ↔ (Shape.minutes first second).hours) : first.hour (Dist.first f.sign a) = f.opened a := by
    unfold Form.opened
    cases first with
    | colon => rw [if_neg (by rw [hours]; simp [Shape.hours, Shape.firstLetter])]; rfl
    | blanks more => rw [if_neg (by rw [hours]; simp [Shape.hours, Shape.firstLetter])]; rfl
    | unit d gap =>
      unfold Joint.hour Dist.hour
      have same : f.shape.hours ↔ d.1 = 'h' := by
        rw [hours]
        simp [Shape.hours, Shape.firstLetter]
      exact if_congr same.symm rfl rfl
  rw [Form.text]
  cases shape : f.shape with
  | degrees last =>
    simp only
    rw [Shape.text, dist_first, dist_last degree_marks _ first_os first_is]
    have opened (d : Letter degreeLetters) (eq : last = some d) : (Dist.first f.sign a).hour d.1 = f.opened a := by
      have same : f.shape.hours ↔ d.1 = 'h' := by
        rw [shape, eq]
        simp [Shape.hours, Shape.firstLetter]
      exact if_congr same.symm rfl rfl
    constructor
    · rintro (⟨-, got, -⟩ | ⟨d, eq, sep, h⟩)
      · cases got
      · rw [opened d eq, opened_take] at h
        exact ⟨⟨d, eq, sep⟩, h⟩
    · rintro ⟨⟨d, eq, sep⟩, h⟩
      exact .inr ⟨d, eq, sep, by rw [opened d eq, opened_take, h]⟩
  | minutes first last =>
    have joined := opened_joint first last (by rw [shape])
    simp only
    rw [Shape.text, dist_first, dist_joint degree_marks _ first_os first_is, joined, dist_next,
      dist_last minute_marks _ rfl (live _ _ _), last_other no_hours₂, opened_take, take_add_unsigned]
    simp [Dist.add]
  | seconds first second last =>
    have joined := opened_joint first none (by
      rw [shape]
      cases first <;> simp [Shape.hours, Shape.firstLetter])
    simp only
    rw [Shape.text, dist_first, dist_joint degree_marks _ first_os first_is, joined, dist_next,
      dist_joint minute_marks _ rfl (live _ _ _), joint_hour_other no_hours₂, dist_next,
      dist_last second_marks _ rfl (live _ _ _), last_other no_hours₃, opened_take, take_add_unsigned, take_add_unsigned]
    simp [Dist.add]

theorem value_nonneg (x : Number) : 0 ≤ x.value := by
  have frac (ds : List (Fin 10)) : 0 ≤ Numeral.fracValue ds := by
    induction ds with
    | nil => exact le_refl 0
    | cons d ds ih =>
      rw [Numeral.fracValue]
      positivity
  have := frac x.numeral.frac
  rw [Number.value, Numeral.value]
  positivity

theorem add_plus (s : Dist) {v : ℚ} (plus : 0 ≤ v) : s.add v = ⟨none, .live, s.step * 60, s.out + v / s.step, true⟩ := by
  have not_minus : ¬ (s.out = 0 ∧ v < 0) := fun h => absurd h.2 (not_lt.mpr plus)
  simp only [Dist.add, if_neg not_minus]

theorem add_eleven (f : Form) :
    (f.opened eleven).add (signed (minus f.sign) eleven.value) =
      ⟨none, .live, (if minus f.sign then -1 else 1) * (if f.shape.hours then 15 else 1) * 60,
        11 / (if f.shape.hours then 15 else 1), true⟩ := by
  rw [eleven_value]
  unfold Form.opened
  by_cases hours : f.shape.hours <;> cases sign : minus f.sign <;> norm_num [hours, sign, Dist.first, Dist.add, signed]

theorem minus_iff (sign : Option Bool) : minus sign = false ↔ sign ≠ some true := by
  simp [minus]

theorem right_dist (f : Form) : (∀ a b c, RightDist f a b c) ↔ ReadableDist f := by
  constructor
  · intro right
    have read := (dist_text f eleven eleven eleven _).mp (right eleven eleven eleven)
    have more : (0 : ℚ) ≤ 11 := by norm_num
    rw [add_eleven, Form.value, eleven_value] at read
    -- of the signs, the units and the ends only one gives the value meant
    have plain : minus f.sign = false ∧ ¬ f.shape.hours ∧ f.shape.Separated := by
      cases shape : f.shape with
      | degrees last =>
        simp only [shape, Shape.value, eleven_value] at read
        obtain ⟨ended, eq⟩ := read
        cases sign : minus f.sign <;> by_cases hours : (Shape.degrees last).hours <;>
          simp only [sign, hours, signed] at eq <;> norm_num at eq
        exact ⟨rfl, hours, ended⟩
      | minutes first last =>
        simp only [shape, Shape.value, eleven_value, add_plus _ more] at read
        obtain ⟨single, ⟨-, eq⟩ | ⟨ended, eq⟩⟩ := read
        · cases sign : minus f.sign <;> by_cases hours : (Shape.minutes first last).hours <;>
            simp only [sign, hours, signed] at eq <;> norm_num at eq
        · cases sign : minus f.sign <;> by_cases hours : (Shape.minutes first last).hours <;>
            simp only [sign, hours, signed] at eq <;> norm_num at eq
          exact ⟨rfl, hours, single, ended⟩
      | seconds first second last =>
        simp only [shape, Shape.value, eleven_value, add_plus _ more] at read
        obtain ⟨single, single', ⟨-, eq⟩ | ⟨ended, eq⟩⟩ := read
        · cases sign : minus f.sign <;> by_cases hours : (Shape.seconds first second last).hours <;>
            simp only [sign, hours, signed] at eq <;> norm_num at eq
        · cases sign : minus f.sign <;> by_cases hours : (Shape.seconds first second last).hours <;>
            simp only [sign, hours, signed] at eq <;> norm_num at eq
          exact ⟨rfl, hours, single, single', ended⟩
    exact ⟨(minus_iff f.sign).mp plain.1, plain.2⟩
  · rintro ⟨plus, degrees_, separated⟩ a b c
    have sign := (minus_iff f.sign).mpr plus
    rw [RightDist, dist_text, sign]
    simp only [signed, Bool.false_eq_true, if_false, add_plus _ (value_nonneg _)]
    have opened : f.opened a = Dist.first f.sign a := if_neg degrees_
    rw [Form.value, sign, if_neg degrees_, mul_one, opened]
    cases shape : f.shape with
    | degrees last =>
      rw [shape] at separated
      exact ⟨separated, by simp [signed, Shape.value, Dist.first]⟩
    | minutes first last =>
      rw [shape] at separated
      refine ⟨separated.1, .inr ⟨separated.2, ?_⟩⟩
      simp [signed, Shape.value, Dist.first]
    | seconds first second last =>
      rw [shape] at separated
      refine ⟨separated.1, separated.2.1, .inr ⟨separated.2.2, ?_⟩⟩
      simp [signed, Shape.value, Dist.first]
      norm_num

def radecFrom (s : RaDec) (is_ : InStream) : ℤ × ℚ × ℚ :=
  match findNext s is_ with
  | none => (-1, s.ra, s.dec)
  | some (s, is_) => radecLoop s is_

theorem radecLoop_some (s : RaDec) {is_ is' : InStream} {v : ℚ} (read : is_.readDouble = (some v, is')) :
    radecLoop s is_ = radecFrom (s.take v) is' := by
  rw [radecLoop, radecFrom]
  split
  · rename_i eq
    rw [read] at eq
    cases eq
  · rename_i eq
    rw [read] at eq
    cases eq
    split
    · rename_i found
      rw [found]
    · rename_i found
      rw [found]

theorem radecLoop_none (s : RaDec) {is_ is' : InStream} (read : is_.readDouble = (none, is')) :
    radecLoop s is_ = s.result := by
  rw [radecLoop]
  split
  · rfl
  · rename_i eq
    rw [read] at eq
    cases eq

theorem radec_number (s : RaDec) (k : ℕ) (sign : Option Bool) (x : Number) {t : Text} (stops : Stops t) :
    radecLoop s (.of (List.replicate k ' ' ++ (signText sign ++ (x.text ++ t)))) =
      radecFrom (s.take (signed (minus sign) x.value)) (.behind false t) :=
  radecLoop_some s (InStream.readDouble_numeral (blank_replicate k) sign x.numeral x.some_digit stops)

theorem find_skip (s : RaDec) {c : Char} (skipped : c = ' ' ∨ c = ':') (t : Text) :
    findNext s (.of (c :: t)) = findNext s (.of t) := by
  apply findNext_again
  rw [findTurn, peek_of]
  rcases skipped with rfl | rfl <;> simp [InStream.of, Reading.isDigit, isSpace, InStream.get, InStream.good]

theorem find_blanks (s : RaDec) (k : ℕ) (t : Text) :
    findNext s (.of (List.replicate k ' ' ++ t)) = findNext s (.of t) := by
  induction k with
  | zero => rfl
  | succ k ih => rw [List.replicate_succ, List.cons_append, find_skip s (.inl rfl), ih]

theorem find_number (s : RaDec) (x : Number) (t : Text) :
    findNext s (.of (x.text ++ t)) = some (s, .of (x.text ++ t)) := by
  obtain ⟨c, u, text, first⟩ := numeral_head x.numeral x.some_digit
  have shown : x.text ++ t = c :: (u ++ t) := by rw [Number.text, text, List.cons_append]
  rw [shown]
  apply findNext_breaks
  rw [findTurn, peek_of]
  rcases first with digit | rfl
  · simp [InStream.of, digit]
  · simp [InStream.of]

theorem find_letter (s : RaDec) {c : Char} (ends : (Reading.isDigit c = false ∧ c ≠ '.') ∧ c ∉ [' ', ':', '+', '-'] ∧ isSpace c = false)
    (t : Text) : findNext s (.of (c :: t)) = some (s, .of t) := by
  obtain ⟨⟨no_digit, no_point⟩, other, inked⟩ := ends
  simp only [List.mem_cons, List.not_mem_nil, or_false, not_or] at other
  apply findNext_breaks
  rw [findTurn, peek_of]
  simp [InStream.of, no_digit, no_point, inked, other, InStream.get, InStream.good]

theorem find_sign (s : RaDec) (ra : s.state = .RA) (neg : Bool) (t : Text) :
    findNext s (.of (signText (some neg) ++ t)) =
      some ({ s with state := .DEC, step := 1, dec_sign := if neg then -1 else s.dec_sign }, .of t) := by
  apply findNext_breaks
  cases neg <;> simp [findTurn, signText, InStream.peek, InStream.of, Reading.isDigit, ra, InStream.get, InStream.good]

theorem radec_end (s : RaDec) : radecFrom s (.behind false []) = s.result := by
  have found : findNext s (.behind false []) = some (s, ⟨[], true, true⟩) := by
    apply findNext_breaks
    rfl
  rw [radecFrom, found]
  exact radecLoop_none s rfl

theorem radec_nothing (s : RaDec) : radecLoop s (.of []) = s.result := radecLoop_none s rfl

def Joint.gap : Joint letters → ℕ
  | unit _ gap => gap
  | _ => 0

def Stopping (letters : List Char) : Prop :=
  ∀ c ∈ letters, (Reading.isDigit c = false ∧ c ≠ '.') ∧ c ∉ [' ', ':', '+', '-'] ∧ isSpace c = false

theorem degree_stopping : Stopping degreeLetters := by
  intro c hc
  fin_cases hc <;> decide

theorem minute_stopping : Stopping minuteLetters := by
  intro c hc
  fin_cases hc <;> decide

theorem second_stopping : Stopping secondLetters := by
  intro c hc
  fin_cases hc <;> decide

theorem radec_joint (stopping : Stopping letters) (s : RaDec) (j : Joint letters) (x : Number) (t : Text) :
    radecFrom s (.behind false (j.text ++ (x.text ++ t))) =
      radecLoop s (.of (List.replicate j.gap ' ' ++ (x.text ++ t))) := by
  rw [behind_of (j.text_ne_nil _), radecFrom]
  cases j with
  | colon =>
    rw [Joint.text, List.cons_append, find_skip s (.inr rfl), List.nil_append, find_number]
    rfl
  | blanks more =>
    rw [Joint.text, List.cons_append, find_skip s (.inl rfl), find_blanks, find_number]
    rfl
  | unit c gap =>
    rw [Joint.text, List.cons_append, find_letter s (stopping c.1 c.2)]
    rfl

theorem radec_letter (stopping : Stopping letters) (s : RaDec) (c : Letter letters) (t : Text) :
    radecFrom s (.behind false (c.1 :: t)) = radecLoop s (.of t) := by
  rw [behind_of (by simp), radecFrom, find_letter s (stopping c.1 c.2)]

namespace Shape

def closed : Shape → Bool
  | degrees last => last.isNone
  | minutes _ last => last.isNone
  | seconds _ _ last => last.isNone

def takes (s : RaDec) (v : ℚ) (b c : Number) : Shape → RaDec
  | degrees _ => s.take v
  | minutes _ _ => (s.take v).take b.value
  | seconds _ _ _ => ((s.take v).take b.value).take c.value

end Shape

theorem stops_last (ends : Ends letters) (last : Option (Letter letters)) {tail : Text}
    (stops : last.isNone = true → Stops tail) : Stops (lastText last ++ tail) := by
  cases last with
  | none => exact stops rfl
  | some c =>
    intro d hd
    cases hd
    exact (ends c.1 c.2).1

theorem radec_last (stopping : Stopping letters) (s : RaDec) (last : Option (Letter letters)) (tail : Text) :
    radecFrom s (.behind false (lastText last ++ tail)) =
      if last.isNone then radecFrom s (.behind false tail) else radecLoop s (.of tail) := by
  cases last with
  | none => rfl
  | some c => exact radec_letter stopping s c tail

theorem radec_shape (s : RaDec) (k : ℕ) (sign : Option Bool) (a b c : Number) (shape : Shape) (tail : Text)
    (stops : shape.closed = true → Stops tail) :
    radecLoop s (.of (List.replicate k ' ' ++ (signText sign ++ (shape.text a b c ++ tail)))) =
      if shape.closed then radecFrom (shape.takes s (signed (minus sign) a.value) b c) (.behind false tail)
      else radecLoop (shape.takes s (signed (minus sign) a.value) b c) (.of tail) := by
  cases shape with
  | degrees last =>
    have read := radec_number s k sign a (stops_last degree_ends last stops)
    rw [Shape.text, List.append_assoc, read, radec_last degree_stopping]
    rfl
  | minutes first last =>
    have read := radec_number s k sign a (first.stops degree_ends (b.text ++ (lastText last ++ tail)))
    have next (s : RaDec) := radec_number s first.gap none b (stops_last minute_ends last stops)
    simp only [signText, List.nil_append] at next
    simp only [Shape.text, List.append_assoc]
    rw [read, radec_joint degree_stopping, next, radec_last minute_stopping]
    rfl
  | seconds first second last =>
    have read := radec_number s k sign a (first.stops degree_ends (b.text ++ (second.text ++ (c.text ++ (lastText last ++ tail)))))
    have next (s : RaDec) := radec_number s first.gap none b (second.stops minute_ends (c.text ++ (lastText last ++ tail)))
    have third (s : RaDec) := radec_number s second.gap none c (stops_last second_ends last stops)
    simp only [signText, List.nil_append] at next third
    simp only [Shape.text, List.append_assoc]
    rw [read, radec_joint degree_stopping, next, radec_joint minute_stopping, third, radec_last second_stopping]
    rfl

def RaDec.start : RaDec := ⟨0, 0, 1, 1, .NOT_GET, false⟩

theorem sign_stops (gap : ℕ) (neg : Bool) (t : Text) : Stops (List.replicate gap ' ' ++ (signText (some neg) ++ t)) := by
  intro c hc
  cases gap with
  | zero => cases neg <;> cases hc <;> decide
  | succ gap =>
    cases hc
    decide

theorem takes_ra (shape : Shape) (s : RaDec) (not_dec : s.state ≠ .DEC) (v : ℚ) (b c : Number) :
    (shape.takes s v b c).state = .RA := by
  have take (s : RaDec) (not_dec : s.state ≠ .DEC) (v : ℚ) : (s.take v).state = .RA := by
    unfold RaDec.take
    split
    · rfl
    · rfl
    · contradiction
  have other {s : RaDec} (ra : s.state = .RA) : s.state ≠ .DEC := by
    rw [ra]
    decide
  cases shape with
  | degrees last => exact take s not_dec v
  | minutes first last => exact take _ (other (take s not_dec v)) b.value
  | seconds first second last => exact take _ (other (take _ (other (take s not_dec v)) b.value)) c.value

theorem radec_ends (s : RaDec) (k : ℕ) (sign : Option Bool) (a b c : Number) (shape : Shape) :
    radecLoop s (.of (List.replicate k ' ' ++ (signText sign ++ shape.text a b c))) =
      (shape.takes s (signed (minus sign) a.value) b c).result := by
  have read := radec_shape s k sign a b c shape [] fun _ => stops_nil
  rw [List.append_nil] at read
  rw [read, radec_end, radec_nothing]
  exact ite_self _

def pairText (f : Form) (a b c : Number) (gap : ℕ) (neg : Bool) (g : Shape) (a' b' c' : Number) : Text :=
  f.text a b c ++ (List.replicate gap ' ' ++ (signText (some neg) ++ g.text a' b' c'))

def RaDec.declination (s : RaDec) (neg : Bool) : RaDec :=
  { s with state := .DEC, step := 1, dec_sign := if neg then -1 else s.dec_sign }

theorem radec_text (f : Form) (a b c : Number) (gap : ℕ) (neg : Bool) (g : Shape) (a' b' c' : Number) :
    parseRaDec (pairText f a b c gap neg g a' b' c') =
      if f.shape.closed then
        (g.takes ((f.shape.takes RaDec.start (signed (minus f.sign) a.value) b c).declination neg) a'.value b' c').result
      else
        (g.takes (f.shape.takes RaDec.start (signed (minus f.sign) a.value) b c) (signed neg a'.value) b' c').result := by
  have stops := sign_stops gap neg (g.text a' b' c')
  have read := radec_shape RaDec.start 0 f.sign a b c f.shape (List.replicate gap ' ' ++
    (signText (some neg) ++ g.text a' b' c')) fun _ => stops
  rw [List.replicate_zero, List.nil_append, ← List.append_assoc] at read
  have whole : parseRaDec (pairText f a b c gap neg g a' b' c') =
      radecLoop RaDec.start (.of (signText f.sign ++ f.shape.text a b c ++
        (List.replicate gap ' ' ++ (signText (some neg) ++ g.text a' b' c')))) := rfl
  have more : List.replicate gap ' ' ++ (signText (some neg) ++ g.text a' b' c') ≠ [] := by
    cases neg <;> simp [signText]
  rw [whole, read]
  congr 1
  · have ra := takes_ra f.shape RaDec.start (by decide) (signed (minus f.sign) a.value) b c
    have ended := radec_ends ((f.shape.takes RaDec.start (signed (minus f.sign) a.value) b c).declination neg) 0 none a' b' c' g
    simp only [List.replicate_zero, signText, List.nil_append] at ended
    rw [behind_of more, radecFrom, find_blanks, find_sign _ ra]
    exact ended
  · rw [radec_ends]
    cases neg <;> rfl

namespace Shape

def single : Shape → Bool
  | degrees _ => true
  | _ => false

/-- Hours are meant in a right ascension: by the letter, or where it is sexagesimal and no letter says degrees. -/
def raHours (shape : Shape) : Prop := shape.hours ∨ shape.single = false ∧ shape.firstLetter ≠ some 'd'

instance (shape : Shape) : Decidable shape.raHours := inferInstanceAs (Decidable (_ ∨ _))

def degreesOf (shape : Shape) (a b c : Number) : ℚ := shape.value a b c * if shape.hours then 15 else 1

end Shape

def Form.raValue (f : Form) (a b c : Number) : ℚ :=
  signed (minus f.sign) (f.shape.value a b c * if f.shape.raHours then 15 else 1)

def RightRaDec (f : Form) (a b c : Number) (gap : ℕ) (neg : Bool) (g : Shape) (a' b' c' : Number) : Prop :=
  parseRaDec (pairText f a b c gap neg g a' b' c') = (0, f.raValue a b c, signed neg (g.degreesOf a' b' c'))

/-- The right ascension ends without a letter; if it is sexagesimal it has neither minus nor degrees; and the declination
has no hours. -/
def ReadableRaDec (f : Form) (g : Shape) : Prop :=
  f.shape.closed = true ∧ (f.shape.single = true ∨ f.sign ≠ some true ∧ f.shape.firstLetter ≠ some 'd') ∧ ¬ g.hours

theorem dec_result (s : RaDec) (neg : Bool) (plain : s.dec = 0 ∧ s.dec_sign = 1) (g : Shape) (a b c : Number) :
    (g.takes (s.declination neg) a.value b c).result =
      (0, if s.ra_six then s.ra * 15 else s.ra, signed neg (g.value a b c)) := by
  obtain ⟨dec, dec_sign⟩ := plain
  cases g <;> cases neg <;>
    simp [Shape.takes, RaDec.take, RaDec.declination, RaDec.result, Shape.value, signed, dec, dec_sign]

theorem ra_taken (shape : Shape) (v : ℚ) (b c : Number) :
    let s := shape.takes RaDec.start v b c
    s.dec = 0 ∧ s.dec_sign = 1 ∧ (if s.ra_six then s.ra * 15 else s.ra) =
      match shape with
      | .degrees _ => v
      | .minutes _ _ => (v + b.value / 60) * 15
      | .seconds _ _ _ => (v + b.value / 60 + c.value / 3600) * 15 := by
  cases shape <;> simp [Shape.takes, RaDec.take, RaDec.start]

def Shape.raRead (shape : Shape) (v : ℚ) (b c : Number) : ℚ :=
  match shape with
  | .degrees _ => v
  | .minutes _ _ => (v + b.value / 60) * 15
  | .seconds _ _ _ => (v + b.value / 60 + c.value / 3600) * 15

theorem radec_closed (f : Form) (closed : f.shape.closed = true) (a b c : Number) (gap : ℕ) (neg : Bool) (g : Shape)
    (a' b' c' : Number) : parseRaDec (pairText f a b c gap neg g a' b' c') =
      (0, f.shape.raRead (signed (minus f.sign) a.value) b c, signed neg (g.value a' b' c')) := by
  obtain ⟨dec, dec_sign, ra⟩ := ra_taken f.shape (signed (minus f.sign) a.value) b c
  rw [radec_text, if_pos closed, dec_result _ neg ⟨dec, dec_sign⟩, ra]
  rfl

theorem value_eleven (shape : Shape) : 0 < shape.value eleven eleven eleven := by
  cases shape <;> simp only [Shape.value, eleven_value] <;> norm_num

theorem right_radec (f : Form) (g : Shape) (gap : ℕ) (neg : Bool) :
    (∀ a b c a' b' c', RightRaDec f a b c gap neg g a' b' c') ↔ ReadableRaDec f g := by
  constructor
  · intro right
    have right := right eleven eleven eleven eleven eleven eleven
    by_cases closed : f.shape.closed = true
    · rw [RightRaDec, radec_closed f closed] at right
      obtain ⟨ra, dec⟩ := Prod.mk.inj (Prod.mk.inj right).2
      refine ⟨closed, ?_, ?_⟩
      · rw [Form.raValue] at ra
        cases shape : f.shape with
        | degrees last => exact .inl rfl
        | minutes first last =>
          refine .inr ⟨?_, ?_⟩
          · intro sign
            rw [shape, sign] at ra
            by_cases hours : (Shape.minutes first last).raHours <;>
              norm_num [Shape.raRead, Shape.value, signed, minus, hours, eleven_value] at ra
          · intro degrees_
            have not_hours : ¬ (Shape.minutes first last).raHours := by
              simp [Shape.raHours, Shape.hours, degrees_]
            rw [shape, if_neg not_hours] at ra
            cases sign : minus f.sign <;>
              norm_num [Shape.raRead, Shape.value, signed, sign, eleven_value] at ra
        | seconds first second last =>
          refine .inr ⟨?_, ?_⟩
          · intro sign
            rw [shape, sign] at ra
            by_cases hours : (Shape.seconds first second last).raHours <;>
              norm_num [Shape.raRead, Shape.value, signed, minus, hours, eleven_value] at ra
          · intro degrees_
            have not_hours : ¬ (Shape.seconds first second last).raHours := by
              simp [Shape.raHours, Shape.hours, degrees_]
            rw [shape, if_neg not_hours] at ra
            cases sign : minus f.sign <;>
              norm_num [Shape.raRead, Shape.value, signed, sign, eleven_value] at ra
      · intro hours
        have same := signed_inj.mp dec
        rw [Shape.degreesOf, if_pos hours] at same
        have := value_eleven g
        linarith
    · exfalso
      have not_dec := takes_ra f.shape RaDec.start (by decide) (signed (minus f.sign) eleven.value) eleven eleven
      have state := takes_ra g (f.shape.takes RaDec.start (signed (minus f.sign) eleven.value) eleven eleven)
        (by rw [not_dec]; decide) (signed neg eleven.value) eleven eleven
      rw [RightRaDec, radec_text, if_neg closed, RaDec.result, state] at right
      exact absurd (Prod.mk.inj right).1 (by decide)
  · rintro ⟨closed, readable, no_hours⟩ a b c a' b' c'
    have dec : g.degreesOf a' b' c' = g.value a' b' c' := by rw [Shape.degreesOf, if_neg no_hours, mul_one]
    rw [RightRaDec, radec_closed f closed, dec]
    congr 2
    rw [Form.raValue]
    cases shape : f.shape with
    | degrees last =>
      rw [shape] at closed
      have none_ : last = none := by simpa [Shape.closed] using closed
      simp [Shape.raRead, Shape.value, Shape.raHours, Shape.hours, Shape.single, Shape.firstLetter, none_]
    | minutes first last =>
      rw [shape] at readable
      obtain ⟨sign, degrees_⟩ := readable.resolve_left (by simp [Shape.single])
      rw [if_pos (.inr ⟨rfl, degrees_⟩), (minus_iff f.sign).mpr sign]
      rfl
    | seconds first second last =>
      rw [shape] at readable
      obtain ⟨sign, degrees_⟩ := readable.resolve_left (by simp [Shape.single])
      rw [if_pos (.inr ⟨rfl, degrees_⟩), (minus_iff f.sign).mpr sign]
      rfl

/-- Which forms each of the readers reads rightly, for all numbers. -/
theorem sexagesimal_read (f : Form) :
    (((∀ a b c, RightDMS f a b c) ↔ ReadableDMS f) ∧ (∀ a b c, RightDeg f a b c ↔ f.shape.Unlettered) ∧
      ((∀ a b c, RightDist f a b c) ↔ ReadableDist f)) ∧
    ∀ (g : Shape) (gap : ℕ) (neg : Bool),
      (∀ a b c a' b' c', RightRaDec f a b c gap neg g a' b' c') ↔ ReadableRaDec f g :=
  ⟨⟨right_dms f, right_deg f, right_dist f⟩, right_radec f⟩

/-- Of "11h" parseDMS makes 11 / 60 degrees, not 165. -/
theorem eleven_hours_read : ∃ f : Form, f.text eleven eleven eleven = "11h".toList ∧ f.value eleven eleven eleven = 165 ∧
    (parseDMS "11h".toList).1 = some (11 / 60) ∧ ¬ RightDMS f eleven eleven eleven := by
  let f : Form := ⟨none, .degrees (some ⟨'h', by decide⟩)⟩
  have text : f.text eleven eleven eleven = "11h".toList := rfl
  have value : f.value eleven eleven eleven = 165 := by
    have hours : f.shape.hours := rfl
    rw [Form.value, if_pos hours, Shape.value, eleven_value]
    norm_num [signed, f, show minus none = false from rfl]
  have read := parseDMS_text f eleven eleven eleven eleven eleven trivial
  have wrong : signed (minus f.sign) (f.shape.dms eleven.value eleven.value eleven.value) = 11 / 60 := by
    rw [eleven_value]
    norm_num [f, Shape.dms, lastMul, letterMul, signed, show minus none = false from rfl]
  rw [wrong] at read
  refine ⟨f, text, value, text ▸ read, ?_⟩
  rw [RightDMS, read, value]
  norm_num

end Rts2.Values.Sexagesimal
