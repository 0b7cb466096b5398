import Rts2.Lib.InputStream

/-! The four readers of sexagesimal numbers: parseDMS and parseRaDec of radecparser.cpp and the operators >> of
LibnovaDeg and LibnovaDegDist of libnova_cpp.cpp. Numbers are exact. -/
namespace Rts2.Values.Sexagesimal

open Lib Reading

abbrev Text := List Char

def letterMul : Char → Option ℚ
  | 'd' => some 1
  | 'h' | 'm' | '\'' => some (1 / 60)
  | 's' | '"' => some (1 / 3600)
  | _ => none

/-- What a turn of the loop comes to: the end of the text, no number (EINVAL), or the next number. -/
inductive Turn where
  | done (ret mul : ℚ)
  | fails (mul : ℚ)
  | next (ret mul : ℚ) (locptr : Text)

def letter (mul : ℚ) : Text → ℚ × Text
  | [] => (mul, [])
  | c :: behind =>
    match letterMul c with
    | some m => (m, behind)
    | none => (mul, c :: behind)

def dmsTurn (ret mul : ℚ) (locptr : Text) : Turn :=
  let (n, endptr) := strtod locptr
  let (mul, endptr) := letter mul endptr
  match endptr with
  | [] => .done (ret + n * mul) mul
  | c :: behind =>
    if (c :: behind).length = locptr.length then .fails mul
    -- locptr = endptr + 1
    else .next (ret + n * mul) (mul / 60) behind

theorem letter_length (mul : ℚ) (t : Text) : (letter mul t).2.length ≤ t.length := by
  cases t with
  | nil => exact le_refl _
  | cons c t =>
    unfold letter
    cases h : letterMul c <;> simp [h]

theorem dmsTurn_length {ret mul ret' mul' : ℚ} {locptr next : Text} (h : dmsTurn ret mul locptr = .next ret' mul' next) :
    next.length < locptr.length := by
  have number := strtod_length locptr
  have unit := letter_length mul (strtod locptr).2
  simp only [dmsTurn] at h
  split at h
  · cases h
  · rename_i c behind eq
    rw [eq, List.length_cons] at unit
    split at h
    · cases h
    · cases h
      omega

def dmsLoop (m_sign ret mul : ℚ) (locptr : Text) : Option ℚ × ℚ :=
  match _h : dmsTurn ret mul locptr with
  | .done ret mul => (some (ret * m_sign), mul)
  | .fails mul => (none, mul)
  | .next ret mul next => dmsLoop m_sign ret mul next
termination_by locptr.length
decreasing_by exact dmsTurn_length _h

def dmsFrom (m_sign : ℚ) (locptr : Text) : Option ℚ × ℚ :=
  if locptr = [] then (some (0 * m_sign), 1) else dmsLoop m_sign 0 1 locptr

def parseDMS : Text → Option ℚ × ℚ
  | '-' :: t => dmsFrom (-1) t
  | t => dmsFrom 1 t

inductive DegTurn where
  | again (unit : ℕ) (neg : Bool) (res : ℚ) (is_ : InStream)
  | returns (deg : Option ℚ) (is_ : InStream)

def fromNegDouble (neg : Bool) (res : ℚ) : ℚ := if neg then res * -1 else res

def degTurn (unit : ℕ) (neg : Bool) (res : ℚ) (is_ : InStream) : DegTurn :=
  let (next, is_) := is_.peek
  if next.any isSpace ∨ next = some ':' then .again unit neg res is_.get.2
  else
    let sign := next = some '-' ∨ next = some '+'
    if sign ∧ unit ≠ 1 then .returns (some (fromNegDouble neg res)) is_
    else
      let neg := if sign then next = some '-' else neg
      let is_ := if sign then is_.get.2 else is_
      match is_.readDouble with
      | (none, is_) => .returns (if unit ≠ 1 ∧ is_.eofbit then some (fromNegDouble neg res) else none) is_
      | (some t_deg, is_) =>
        let res := res + t_deg / unit
        if unit = 3600 then .returns (some (fromNegDouble neg res)) is_ else .again (unit * 60) neg res is_

theorem degTurn_length {unit unit' : ℕ} {neg neg' : Bool} {res res' : ℚ} {is_ is' : InStream}
    (h : degTurn unit neg res is_ = .again unit' neg' res' is') : is'.rest.length < is_.rest.length := by
  have same := InStream.peek_rest is_
  have used := @InStream.get_peek_length is_
  unfold degTurn at h
  generalize is_.peek = peeked at h same used
  obtain ⟨next, is₁⟩ := peeked
  dsimp only at h same used
  split at h
  · rename_i skipped
    cases next with
    | none => simp at skipped
    | some c =>
      cases h
      exact used rfl
  · split at h
    · cases h
    · split at h
      · cases h
      · rename_i t_deg is₂ number
        have shorter := InStream.readDouble_length number
        split at h
        · cases h
        · cases h
          split at shorter
          · have := @InStream.get_length is₁
            rw [same] at this
            omega
          · rwa [same] at shorter

def degLoop (unit : ℕ) (neg : Bool) (res : ℚ) (is_ : InStream) : Option ℚ × InStream :=
  if is_.good then
    match _h : degTurn unit neg res is_ with
    | .again unit neg res is_ => degLoop unit neg res is_
    | .returns deg is_ => (deg, is_)
  else (some (fromNegDouble neg res), is_)
termination_by is_.rest.length
decreasing_by exact degTurn_length _h

def readDeg (is_ : InStream) : Option ℚ × InStream := degLoop 1 false 0 is_

inductive Inner where
  | null
  | live
  | freed
deriving DecidableEq

structure Dist where
  os : Option Text
  is_ : Inner
  step : ℚ
  out : ℚ
  get_something : Bool

inductive DistTurn where
  | again (s : Dist) (is_ : InStream)
  | returns (deg : Option ℚ) (is_ : InStream)
  /-- A stream is deleted twice. -/
  | undefined

def numberChar (c : Char) : Bool := Reading.isDigit c || c = '.' || c = '-' || c = '+'

def Dist.take (s : Dist) (os : Text) : Dist :=
  let val := (InStream.of os).readDouble.1.getD 0
  let step := if s.out = 0 ∧ val < 0 then s.step * -1 else s.step
  { os := none, is_ := .live, step := step * 60, out := s.out + val / step, get_something := true }

def distTurn (s : Dist) (is_ : InStream) : DistTurn :=
  match is_.peek with
  | (peek_val, is_) =>
    match peek_val.filter numberChar with
    | some c => .again { s with os := some (s.os.getD [] ++ [c]) } is_.get.2
    | none =>
      match is_.peek with
      | (next, is_) =>
        if next ∈ [some 'h', some ' ', some ':', some 'o', some 'd', some 'm', some 's'] then
          let s := if next = some 'h' then { s with step := 15 } else s
          if s.is_ = .freed then .undefined
          else
            match s.os with
            | some os => .again (s.take os) is_.get.2
            | none => .again { s with is_ := if s.is_ = .null then .null else .freed } is_.get.2
        else if s.is_ = .freed then .undefined
        else .returns (if s.get_something then some s.out else none) is_

theorem distTurn_length {s s' : Dist} {is_ is' : InStream} (h : distTurn s is_ = .again s' is') :
    is'.rest.length < is_.rest.length := by
  have used := @InStream.get_peek_length is_
  have same := InStream.peek_rest is_
  unfold distTurn at h
  generalize is_.peek = peeked at h used same
  obtain ⟨next, is₁⟩ := peeked
  dsimp only at h used same
  split at h
  · rename_i c eq
    cases h
    exact used (Option.filter_eq_some_iff.mp eq).1
  · have used' := @InStream.get_peek_length is₁
    generalize is₁.peek = peeked at h used'
    obtain ⟨next', is₂⟩ := peeked
    dsimp only at h used'
    rw [same] at used'
    split at h
    · rename_i sep
      obtain ⟨c, rfl⟩ : ∃ c, next' = some c := by
        cases next' with
        | none => simp at sep
        | some c => exact ⟨c, rfl⟩
      generalize (if some c = some 'h' then { s with step := 15 } else s) = s₁ at h
      split at h
      · cases h
      · split at h <;> cases h <;> exact used' rfl
    · split at h <;> cases h

def distLoop (s : Dist) (is_ : InStream) : Option (Option ℚ × InStream) :=
  match _h : distTurn s is_ with
  | .again s is_ => distLoop s is_
  | .returns deg is_ => some (deg, is_)
  | .undefined => none
termination_by is_.rest.length
decreasing_by exact distTurn_length _h

def readDegDist (is_ : InStream) : Option (Option ℚ × InStream) := distLoop ⟨none, .null, 1, 0, false⟩ is_

inductive State where
  | NOT_GET
  | RA
  | DEC
deriving DecidableEq

structure RaDec where
  ra : ℚ
  dec : ℚ
  dec_sign : ℚ
  step : ℕ
  state : State
  ra_six : Bool

def RaDec.take (s : RaDec) (val : ℚ) : RaDec :=
  match s.state with
  | .NOT_GET | .RA =>
    { s with state := .RA, ra := s.ra + val / s.step, ra_six := s.ra_six || 1 < s.step, step := s.step * 60 }
  | .DEC => { s with dec := s.dec + val / s.step, step := s.step * 60 }

inductive FindTurn where
  | again (is_ : InStream)
  | breaks (s : RaDec) (is_ : InStream)
  | returns

def findTurn (s : RaDec) (is_ : InStream) : FindTurn :=
  match is_.peek with
  | (next_ch, is_) =>
    if is_.failbit then .breaks s is_
    else if next_ch.any Reading.isDigit ∨ next_ch = some '.' then .breaks s is_
    else
      match is_.get with
      | (none, is_) => .breaks s is_
      | (some next_ch, is_) =>
        if next_ch = '+' ∨ next_ch = '-' then
          if s.state ≠ .RA then .returns
          else .breaks { s with state := .DEC, step := 1, dec_sign := if next_ch = '-' then -1 else s.dec_sign } is_
        else if isSpace next_ch ∨ next_ch = ':' then .again is_
        else .breaks s is_

theorem findTurn_length {s : RaDec} {is_ is' : InStream} (h : findTurn s is_ = .again is') :
    is'.rest.length < is_.rest.length := by
  have same := InStream.peek_rest is_
  unfold findTurn at h
  generalize is_.peek = peeked at h same
  obtain ⟨next_ch, is₁⟩ := peeked
  dsimp only at h same
  split at h
  · cases h
  · split at h
    · cases h
    · split at h
      · cases h
      · rename_i c is₂ got
        have used := InStream.get_rest got
        rw [same] at used
        split at h
        · split at h <;> cases h
        · split at h
          · cases h
            exact used
          · cases h

def findNext (s : RaDec) (is_ : InStream) : Option (RaDec × InStream) :=
  match _h : findTurn s is_ with
  | .again is_ => findNext s is_
  | .breaks s is_ => some (s, is_)
  | .returns => none
termination_by is_.rest.length
decreasing_by exact findTurn_length _h

theorem findNext_again {s : RaDec} {is_ is' : InStream} (h : findTurn s is_ = .again is') :
    findNext s is_ = findNext s is' := by
  rw [findNext]
  split
  all_goals
    rename_i eq
    rw [h] at eq
    cases eq
  rfl

theorem findNext_breaks {s s' : RaDec} {is_ is' : InStream} (h : findTurn s is_ = .breaks s' is') :
    findNext s is_ = some (s', is') := by
  rw [findNext]
  split
  all_goals
    rename_i eq
    rw [h] at eq
    cases eq
  rfl

theorem findNext_returns {s : RaDec} {is_ : InStream} (h : findTurn s is_ = .returns) : findNext s is_ = none := by
  rw [findNext]
  split
  · rename_i eq
    rw [h] at eq
    cases eq
  · rename_i eq
    rw [h] at eq
    cases eq
  · rfl

theorem findTurn_breaks_length {s s' : RaDec} {is_ is' : InStream} (h : findTurn s is_ = .breaks s' is') :
    is'.rest.length ≤ is_.rest.length := by
  have same := InStream.peek_rest is_
  unfold findTurn at h
  generalize is_.peek = peeked at h same
  obtain ⟨next_ch, is₁⟩ := peeked
  dsimp only at h same
  have got := @InStream.get_length is₁
  rw [same] at got
  split at h
  · cases h
    exact same ▸ le_refl _
  · split at h
    · cases h
      exact same ▸ le_refl _
    · split at h
      · rename_i is₂ eq
        cases h
        rwa [eq] at got
      · rename_i c is₂ eq
        rw [eq] at got
        split at h
        · split at h <;> cases h
          exact got
        · split at h <;> cases h
          exact got

theorem findNext_length (s : RaDec) (is_ : InStream) :
    ∀ s' is', findNext s is_ = some (s', is') → is'.rest.length ≤ is_.rest.length := by
  induction is_ using findNext.induct (s := s) with
  | case1 is_ is₁ turn ih =>
    intro s' is' h
    rw [findNext_again turn] at h
    exact le_trans (ih s' is' h) (le_of_lt (findTurn_length turn))
  | case2 is_ s₁ is₁ turn =>
    intro s' is' h
    rw [findNext_breaks turn] at h
    cases h
    exact findTurn_breaks_length turn
  | case3 is_ turn =>
    intro s' is' h
    rw [findNext_returns turn] at h
    cases h

def RaDec.result (s : RaDec) : ℤ × ℚ × ℚ :=
  (if s.state = .DEC then 0 else -1, if s.ra_six then s.ra * 15 else s.ra, s.dec * s.dec_sign)

def radecLoop (s : RaDec) (is_ : InStream) : ℤ × ℚ × ℚ :=
  match _h : is_.readDouble with
  | (none, _) => s.result
  | (some val, is_) =>
    match _h' : findNext (s.take val) is_ with
    | none => (-1, (s.take val).ra, (s.take val).dec)
    | some (s, is_) => radecLoop s is_
termination_by is_.rest.length
decreasing_by
  have number := InStream.readDouble_length _h
  have found := findNext_length _ _ _ _ _h'
  omega

def parseRaDec (radec : Text) : ℤ × ℚ × ℚ := radecLoop ⟨0, 0, 1, 1, .NOT_GET, false⟩ (.of radec)

structure Number where
  numeral : Numeral
  some_digit : numeral.whole ≠ [] ∨ numeral.frac ≠ []

namespace Number

def text (x : Number) : Text := x.numeral.text

def value (x : Number) : ℚ := x.numeral.value

end Number

abbrev Letter (letters : List Char) := {c : Char // c ∈ letters}

inductive Joint (letters : List Char) where
  | colon
  | blanks (more : ℕ)
  | unit (c : Letter letters) (gap : ℕ)

def Joint.text {letters : List Char} : Joint letters → Text
  | colon => [':']
  | blanks more => ' ' :: List.replicate more ' '
  | unit c gap => c.1 :: List.replicate gap ' '

def lastText {letters : List Char} : Option (Letter letters) → Text
  | none => []
  | some c => [c.1]

abbrev degreeLetters : List Char := ['d', 'h']

abbrev minuteLetters : List Char := ['m', '\'']

abbrev secondLetters : List Char := ['s', '"']

inductive Shape where
  | degrees (last : Option (Letter degreeLetters))
  | minutes (first : Joint degreeLetters) (last : Option (Letter minuteLetters))
  | seconds (first : Joint degreeLetters) (second : Joint minuteLetters) (last : Option (Letter secondLetters))

namespace Shape

def text (a b c : Number) : Shape → Text
  | degrees last => a.text ++ lastText last
  | minutes first last => a.text ++ (first.text ++ (b.text ++ lastText last))
  | seconds first second last => a.text ++ (first.text ++ (b.text ++ (second.text ++ (c.text ++ lastText last))))

def value (a b c : Number) : Shape → ℚ
  | degrees _ => a.value
  | minutes _ _ => a.value + b.value / 60
  | seconds _ _ _ => a.value + b.value / 60 + c.value / 3600

def firstLetter : Shape → Option Char
  | degrees last => last.map (·.1)
  | minutes (.unit c _) _ => some c.1
  | seconds (.unit c _) _ _ => some c.1
  | _ => none

def hours (s : Shape) : Prop := s.firstLetter = some 'h'

instance (s : Shape) : Decidable s.hours := inferInstanceAs (Decidable (_ = _))

end Shape

structure Form where
  sign : Option Bool
  shape : Shape

namespace Form

def text (f : Form) (a b c : Number) : Text := signText f.sign ++ f.shape.text a b c

def value (f : Form) (a b c : Number) : ℚ :=
  signed (minus f.sign) (f.shape.value a b c * if f.shape.hours then 15 else 1)

end Form

end Rts2.Values.Sexagesimal
