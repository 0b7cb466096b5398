import Rts2.Lib.Format
import Rts2.Scripts.Conditions

/-! Lists of operands as they are written, which of them OperandsSet::parse reads as they are
meant, and which survive printing. Numbers are rationals. -/
namespace Rts2.Scripts.Parsing

open Lib

inductive AngleUnit where
  | degree
  | hour
  | minute
  | minuteMark
  | second
  | secondMark
  deriving DecidableEq, Repr

namespace AngleUnit

def char : AngleUnit → Char
  | degree => 'd'
  | hour => 'h'
  | minute => 'm'
  | minuteMark => '\''
  | second => 's'
  | secondMark => '"'

def size : AngleUnit → ℚ
  | degree => 1
  | hour => 15
  | minute | minuteMark => 1 / 60
  | second | secondMark => 1 / 3600

end AngleUnit

structure Digits where
  numeral : Numeral
  some_digit : numeral.whole ≠ [] ∨ numeral.frac ≠ []

/-- A number of one or more parts with units; the last can go without one, as degrees. -/
structure Angle where
  sign : Option Bool
  parts : List (Digits × AngleUnit)
  last : Option Digits
  some_part : parts ≠ [] ∨ last ≠ none

namespace Angle

def lastText : Option Digits → Text
  | none => []
  | some digits => digits.numeral.text

def lastValue : Option Digits → ℚ
  | none => 0
  | some digits => digits.numeral.value

def partsText : List (Digits × AngleUnit) → Option Digits → Text
  | [], last => lastText last
  | (digits, unit) :: parts, last => digits.numeral.text ++ unit.char :: partsText parts last

def partsValue : List (Digits × AngleUnit) → Option Digits → ℚ
  | [], last => lastValue last
  | (digits, unit) :: parts, last => digits.numeral.value * unit.size + partsValue parts last

def signText : Option Bool → Text
  | none => []
  | some minus => [if minus then '-' else '+']

def signValue (sign : Option Bool) : ℚ := if sign = some true then -1 else 1

def text (n : Angle) : Text := signText n.sign ++ partsText n.parts n.last

def value (n : Angle) : ℚ := signValue n.sign * partsValue n.parts n.last

def rest : Angle → ℚ
  | ⟨_, [], _, _⟩ => 0
  | ⟨_, _ :: parts, last, _⟩ => partsValue parts last

def MinusFirst (n : Angle) : Prop := n.sign = some true → n.rest = 0

end Angle

abbrev Blanks := {t : Text // ∀ c ∈ t, isspace c = true}

def quoteChar (double : Bool) : Char := if double then '"' else '\''

inductive Written where
  | number (blanks : Blanks) (n : Angle)
  | name (blanks : Blanks) (str : Text) (formed : OperandName str)
  | quoted (blanks : Blanks) (double : Bool) (str : Text) (inside : quoteChar double ∉ str)
  | rand (blanks : Blanks) (_from _to : Written)

def quoteAfter (quotes : Quotes) (c : Char) : Quotes :=
  match quotes with
  | .NONE => if c = '\'' then .SIMPLE else if c = '"' then .DOUBLE else .NONE
  | .SIMPLE => if c = '\'' then .NONE else .SIMPLE
  | .DOUBLE => if c = '"' then .NONE else .DOUBLE

def Closed (t : Text) : Prop := t.foldl quoteAfter .NONE = .NONE

namespace Written

def text : Written → Text
  | number blanks n => blanks.1 ++ n.text
  | name blanks str _ => blanks.1 ++ str
  | quoted blanks double str _ => blanks.1 ++ quoteChar double :: (str ++ [quoteChar double])
  | rand blanks _from _to =>
    blanks.1 ++ ("rand".toList ++ '(' :: (_from.text ++ ',' :: (_to.text ++ [')'])))

def value : Written → Operand ℚ
  | number _ n => .number n.value
  | name _ str _ => .string (String.ofList str)
  | quoted _ _ str _ => .string (String.ofList str)
  | rand _ _from _to => .randomNumber _from.value _to.value

def Sound : Written → Prop
  | number blanks n => blanks.1 = [] ∧ n.MinusFirst ∧ Closed n.text
  | name _ _ _ => True
  | quoted _ _ _ _ => False
  | rand _ _from _to => _from.Sound ∧ _to.Sound

def SoundAlone : Written → Prop
  | number blanks n => blanks.1 = [] ∧ n.MinusFirst
  | name _ _ _ => True
  | quoted _ _ _ _ => False
  | rand _ _ _ => False

/-- The operand that is printed is read again as the same: no random number, and no number of
more than six digits. -/
def Kept : Written → Prop
  | number _ n => SixDigits n.value
  | name _ _ _ => True
  | quoted _ _ _ _ => False
  | rand _ _ _ => False

end Written

def closing : List Written → Text
  | [] => [')']
  | o :: ops => ',' :: (o.text ++ closing ops)

inductive Writing where
  | single (o : Written)
  | list (ops : List Written)

namespace Writing

def operands : Writing → List Written
  | single o => [o]
  | list ops => ops

def text : Writing → Text
  | single o => o.text
  | list [] => "()".toList
  | list (o :: ops) => '(' :: (o.text ++ closing ops)

def values (w : Writing) : List (Operand ℚ) := w.operands.map Written.value

def Sound : Writing → Prop
  | single o => o.SoundAlone
  | list ops => ops ≠ [] ∧ ∀ o ∈ ops, o.Sound

end Writing

theorem digitChar_digit : ∀ d : Fin 10, isdigit (Numeral.digitChar d) = true ∧
    Numeral.digitChar d ≠ '.' ∧ Numeral.digitChar d ≠ '-' ∧ Numeral.digitChar d ≠ '+' ∧
    (Numeral.digitChar d).toNat - 48 = d := by
  decide

theorem readDigits_whole (ds : List (Fin 10)) (v : ℕ) (t : Text) :
    readDigits (v : ℚ) none (ds.map Numeral.digitChar ++ t) =
      readDigits ((ds.foldl (fun (v : ℕ) d => v * 10 + d.val) v : ℕ) : ℚ) none t := by
  induction ds generalizing v with
  | nil => rfl
  | cons d ds ih =>
    obtain ⟨digit, point, -, -, val⟩ := digitChar_digit d
    rw [List.map_cons, List.cons_append, readDigits, if_neg point, if_pos digit]
    dsimp only
    rw [val, List.foldl_cons, ← ih]
    push_cast
    rfl

theorem readDigits_frac (ds : List (Fin 10)) (cn mul : ℚ) (t : Text) :
    ∃ mul', readDigits cn (some mul) (ds.map Numeral.digitChar ++ t) =
      readDigits (cn + Numeral.fracValue ds * (10 * mul)) (some mul') t := by
  induction ds generalizing cn mul with
  | nil => exact ⟨mul, by simp [Numeral.fracValue]⟩
  | cons d ds ih =>
    obtain ⟨digit, point, -, -, val⟩ := digitChar_digit d
    obtain ⟨mul', eq⟩ := ih (cn + (d : ℕ) * mul) (mul / (10 : ℕ))
    refine ⟨mul', ?_⟩
    rw [List.map_cons, List.cons_append, readDigits, if_neg point, if_pos digit]
    dsimp only
    rw [val, eq, Numeral.fracValue]
    congr 1
    push_cast
    ring

def Stops (t : Text) : Prop := ∀ c ∈ t.head?, isdigit c = false ∧ c ≠ '.'

theorem readDigits_stops {t : Text} (stops : Stops t) (cn : ℚ) (mul : Option ℚ) :
    readDigits cn mul t = some (cn, t) := by
  cases t with
  | nil => rfl
  | cons c t =>
    obtain ⟨digit, point⟩ := stops c rfl
    cases mul <;> simp [readDigits, point, digit]

theorem readDigits_numeral (n : Numeral) {t : Text} (stops : Stops t) :
    readDigits ((0 : ℕ) : ℚ) none (n.text ++ t) = some (n.value, t) := by
  rw [Numeral.text, List.append_assoc, readDigits_whole]
  cases point : n.point with
  | false =>
    rw [if_neg (by simp), List.nil_append, readDigits_stops stops, Numeral.value,
      n.no_point point]
    simp [Numeral.fracValue, Numeral.wholeValue]
  | true =>
    rw [if_pos rfl, List.cons_append, readDigits, if_pos rfl]
    obtain ⟨mul, eq⟩ := readDigits_frac n.frac
      ((n.whole.foldl (fun (v : ℕ) d => v * 10 + d.val) 0 : ℕ) : ℚ) ((1 : ℕ) / (10 : ℕ)) t
    rw [eq, readDigits_stops stops, Numeral.value, Numeral.wholeValue]
    norm_num

theorem unit_char_size (u : AngleUnit) : unit u.char = some u.size := by
  cases u <;> simp [unit, AngleUnit.char, AngleUnit.size]

theorem char_stops (u : AngleUnit) (t : Text) : Stops (u.char :: t) := by
  intro c head
  cases head
  cases u <;> decide

def readTurn (turns : Nat) (op sign : ℚ) (t : Text) : Option ℚ :=
  match readDigits ((0 : ℕ) : ℚ) none t with
  | none => none
  | some (cn, []) => some (op + sign * cn * (1 : ℕ))
  | some (cn, c :: t) =>
    match unit c with
    | none => none
    | some mul => readNumber turns (op + sign * cn * mul) t

def signOf : Text → ℚ × Text
  | '-' :: t => (-1, t)
  | '+' :: t => (1, t)
  | t => (1, t)

theorem readNumber_turn (turns : Nat) (op : ℚ) (t : Text) :
    readNumber (turns + 1) op t = readTurn turns op (signOf t).1 (signOf t).2 := by
  unfold readNumber
  split
  next sign behind signed =>
  have same : signOf t = (sign, behind) := by
    rw [← signed]
    unfold signOf
    split <;> simp
  rw [same]
  unfold readTurn
  generalize readDigits ((0 : ℕ) : ℚ) none behind = read
  rcases read with _ | ⟨cn, _ | ⟨c, behind⟩⟩
  · rfl
  · rfl
  · dsimp only
    split
    next unknown => rw [unknown]
    next known => rw [known]

theorem signOf_unsigned {t : Text} (unsigned : ∀ c ∈ t.head?, c ≠ '-' ∧ c ≠ '+') :
    signOf t = (1, t) := by
  unfold signOf
  split
  · exact absurd rfl (unsigned '-' rfl).1
  · exact absurd rfl (unsigned '+' rfl).2
  · rfl

theorem readNumber_unsigned (turns : Nat) (op : ℚ) {t : Text}
    (unsigned : ∀ c ∈ t.head?, c ≠ '-' ∧ c ≠ '+') :
    readNumber (turns + 1) op t = readTurn turns op 1 t := by
  rw [readNumber_turn, signOf_unsigned unsigned]

def EndsOperand (t : Text) : Prop :=
  ∀ c ∈ t.head?, isdigit c = false ∧ c ≠ '.' ∧ c ≠ '-' ∧ c ≠ '+' ∧ unit c = (none : Option ℚ)

theorem EndsOperand.nil : EndsOperand [] := by simp [EndsOperand]

theorem EndsOperand.of_separator {c : Char} (ends : c = ',' ∨ c = ')') (t : Text) :
    EndsOperand (c :: t) := by
  intro d head
  cases head
  rcases ends with rfl | rfl <;> refine ⟨rfl, ?_, ?_, ?_, ?_⟩ <;> simp [unit]

theorem EndsOperand.stops {t : Text} (ends : EndsOperand t) : Stops t :=
  fun c head => ⟨(ends c head).1, (ends c head).2.1⟩

theorem readTurn_unit (turns : Nat) (op sign : ℚ) (digits : Digits) (u : AngleUnit) (t : Text) :
    readTurn turns op sign (digits.numeral.text ++ u.char :: t) =
      readNumber turns (op + sign * digits.numeral.value * u.size) t := by
  simp only [readTurn, readDigits_numeral _ (char_stops u t), unit_char_size]

theorem readTurn_ends (turns : Nat) (op sign cn : ℚ) {digits t : Text} (ends : EndsOperand t)
    (read : readDigits ((0 : ℕ) : ℚ) none (digits ++ t) = some (cn, t)) :
    readTurn turns op sign (digits ++ t) = if t = [] then some (op + sign * cn) else none := by
  unfold readTurn
  rw [read]
  cases t with
  | nil => simp
  | cons c t =>
    have unknown : unit c = (none : Option ℚ) := (ends c rfl).2.2.2.2
    simp [unknown]

theorem readTurn_last (turns : Nat) (op sign : ℚ) (last : Option Digits) {t : Text}
    (ends : EndsOperand t) :
    readTurn turns op sign (Angle.lastText last ++ t) =
      if t = [] then some (op + sign * Angle.lastValue last) else none := by
  cases last with
  | none => exact readTurn_ends turns op sign 0 ends (readDigits_stops ends.stops _ _)
  | some digits => exact readTurn_ends turns op sign _ ends (readDigits_numeral _ ends.stops)

theorem numeral_head (digits : Digits) (t : Text) : ∃ c rest, digits.numeral.text ++ t = c :: rest ∧
    (isdigit c = true ∨ c = '.') := by
  obtain ⟨⟨whole, frac, point, no_point⟩, some_digit⟩ := digits
  cases whole with
  | cons d whole =>
    exact ⟨_, _, rfl, .inl (digitChar_digit d).1⟩
  | nil =>
    have pointed : point = true := by
      by_contra none
      rw [Bool.not_eq_true] at none
      rcases some_digit with absent | absent
      · exact absent rfl
      · exact absent (no_point none)
    subst pointed
    exact ⟨'.', _, rfl, .inr rfl⟩

theorem not_sign {c : Char} (first : isdigit c = true ∨ c = '.') : c ≠ '-' ∧ c ≠ '+' := by
  constructor <;>
  · rintro rfl
    rcases first with digit | point
    · cases digit
    · cases point

theorem parts_unsigned (parts : List (Digits × AngleUnit)) (last : Option Digits) {t : Text}
    (ends : EndsOperand t) :
    ∀ c ∈ (Angle.partsText parts last ++ t).head?, c ≠ '-' ∧ c ≠ '+' := by
  intro c head
  cases parts with
  | cons part parts =>
    obtain ⟨digits, u⟩ := part
    obtain ⟨first, rest, eq, number⟩ := numeral_head digits (u.char :: Angle.partsText parts last ++ t)
    rw [Angle.partsText, List.append_assoc, List.cons_append] at head
    rw [List.cons_append] at eq
    rw [eq] at head
    cases head
    exact not_sign number
  | nil =>
    cases last with
    | some digits =>
      obtain ⟨first, rest, eq, number⟩ := numeral_head digits t
      rw [Angle.partsText, Angle.lastText, eq] at head
      cases head
      exact not_sign number
    | none => exact ⟨(ends c head).2.2.1, (ends c head).2.2.2.1⟩

theorem readNumber_parts (parts : List (Digits × AngleUnit)) (last : Option Digits) {t : Text}
    (ends : EndsOperand t) (turns : Nat) (op : ℚ) (enough : parts.length < turns) :
    readNumber turns op (Angle.partsText parts last ++ t) =
      if t = [] then some (op + Angle.partsValue parts last) else none := by
  induction parts generalizing turns op with
  | nil =>
    obtain ⟨turns, rfl⟩ := Nat.exists_eq_add_one_of_ne_zero (Nat.ne_zero_of_lt enough)
    rw [readNumber_unsigned turns op (parts_unsigned [] last ends), Angle.partsText,
      readTurn_last turns op 1 last ends, Angle.partsValue, one_mul]
  | cons part parts ih =>
    obtain ⟨turns, rfl⟩ := Nat.exists_eq_add_one_of_ne_zero (Nat.ne_zero_of_lt enough)
    rw [readNumber_unsigned turns op (parts_unsigned _ last ends), Angle.partsText,
      List.append_assoc, List.cons_append, readTurn_unit, ih _ _ (by simpa using enough),
      Angle.partsValue, one_mul, add_assoc]

namespace Angle

def readValue : Angle → ℚ
  | ⟨sign, [], last, _⟩ => signValue sign * lastValue last
  | ⟨sign, (digits, u) :: parts, last, _⟩ =>
    signValue sign * digits.numeral.value * u.size + partsValue parts last

theorem readValue_iff (n : Angle) : n.readValue = n.value ↔ n.MinusFirst := by
  obtain ⟨sign, parts, last, some_part⟩ := n
  cases parts with
  | nil => simp [readValue, value, partsValue, MinusFirst, rest]
  | cons part parts =>
    obtain ⟨digits, u⟩ := part
    simp only [readValue, value, partsValue, MinusFirst, rest, signValue]
    by_cases minus : sign = some true
    · simp only [minus, if_true, forall_const]
      constructor
      · intro eq
        linarith
      · intro zero
        rw [zero]
        ring
    · simp only [minus, if_false, false_imp_iff, iff_true]
      ring

theorem parts_length (parts : List (Digits × AngleUnit)) (last : Option Digits) :
    parts.length ≤ (partsText parts last).length := by
  induction parts with
  | nil => exact Nat.zero_le _
  | cons part parts ih =>
    simp only [partsText, List.length_cons, List.length_append]
    omega

theorem signOf_sign (minus : Bool) (t : Text) :
    signOf ((if minus then '-' else '+') :: t) = (signValue (some minus), t) := by
  cases minus <;> rfl

theorem signed_read (n : Angle) {t : Text} (ends : EndsOperand t) (turns : Nat)
    (enough : n.parts.length ≤ turns) :
    readTurn turns 0 (signValue n.sign) (partsText n.parts n.last ++ t) =
      if t = [] then some n.readValue else none := by
  obtain ⟨sign, parts, last, some_part⟩ := n
  cases parts with
  | nil => rw [partsText, readTurn_last turns 0 _ last ends, zero_add, readValue]
  | cons part parts =>
    rw [partsText, List.append_assoc, List.cons_append, readTurn_unit,
      readNumber_parts parts last ends _ _ enough, zero_add, readValue]

theorem read (n : Angle) {t : Text} (ends : EndsOperand t) (turns : Nat)
    (enough : n.parts.length ≤ turns) :
    readNumber (turns + 1) 0 (n.text ++ t) = if t = [] then some n.readValue else none := by
  have signed := n.signed_read ends turns enough
  obtain ⟨sign, parts, last, some_part⟩ := n
  cases sign with
  | none =>
    rw [text, signText, List.nil_append, readNumber_unsigned _ _ (parts_unsigned parts last ends)]
    exact signed
  | some minus =>
    rw [text, signText, List.singleton_append, List.cons_append, readNumber_turn, signOf_sign]
    exact signed

theorem head (n : Angle) (t : Text) : ∃ c behind, n.text ++ t = c :: behind ∧
    (isdigit c || c = '-' || c = '+' || c = '.') = true := by
  obtain ⟨sign, parts, last, some_part⟩ := n
  cases sign with
  | some minus =>
    refine ⟨_, _, rfl, ?_⟩
    cases minus <;> rfl
  | none =>
    rw [text, signText, List.nil_append]
    cases parts with
    | cons part parts =>
      obtain ⟨digits, u⟩ := part
      obtain ⟨c, behind, eq, number⟩ := numeral_head digits (u.char :: partsText parts last ++ t)
      refine ⟨c, behind, ?_, ?_⟩
      · rw [← eq]
        simp [partsText]
      · rcases number with digit | point
        · simp [digit]
        · simp [point]
    | nil =>
      cases last with
      | none => exact absurd rfl (some_part.resolve_left (fun absent => absent rfl))
      | some digits =>
        obtain ⟨c, behind, eq, number⟩ := numeral_head digits t
        refine ⟨c, behind, eq, ?_⟩
        rcases number with digit | point
        · simp [digit]
        · simp [point]

end Angle

theorem number_not_space {c : Char} (number : (isdigit c || c = '-' || c = '+' || c = '.') = true) :
    isspace c = false := by
  apply isName_not_space
  simp only [Bool.or_eq_true, decide_eq_true_eq] at number
  rcases number with ((digit | rfl) | rfl) | rfl
  · simp [isName, isalnum, digit]
  all_goals rfl

theorem parseOperand_angle (depth : Nat) (n : Angle) {t : Text} (ends : EndsOperand t) :
    parseOperand depth (n.text ++ t) = if t = [] then some (.number n.readValue) else none := by
  obtain ⟨c, behind, eq, number⟩ := n.head t
  have turns : n.parts.length ≤ (n.text ++ t).length := by
    have parts := Angle.parts_length n.parts n.last
    simp only [Angle.text, List.length_append]
    omega
  rw [parseOperand, Nat.cast_zero, n.read ends _ turns, eq, skip_cons (number_not_space number)]
  dsimp only
  rw [if_pos number]
  split <;> rfl

theorem numberChar_not_space {c : Char} (number : isNumberChar c = true) : isspace c = false := by
  simp only [isNumberChar, Bool.or_eq_true, decide_eq_true_eq] at number
  rcases number with ((((((((digit | rfl) | rfl) | rfl) | rfl) | rfl) | rfl) | rfl) | rfl) | rfl
  · exact number_not_space (by simp [digit])
  all_goals rfl

theorem parseOperand_blank (depth : Nat) {blanks : Text} (blank : ∀ c ∈ blanks, isspace c = true)
    (some : blanks ≠ []) (n : Angle) (t : Text) :
    parseOperand (F := ℚ) depth (blanks ++ (n.text ++ t)) = none := by
  obtain ⟨c, behind, eq, number⟩ := n.head t
  cases blanks with
  | nil => exact absurd rfl some
  | cons b blanks =>
    have space := blank b (by simp)
    have skipped : skip (b :: blanks ++ (n.text ++ t)) = c :: behind := by
      rw [skip_spaces blank, eq, skip_cons (number_not_space number)]
    have other : b ≠ '-' ∧ b ≠ '+' ∧ isdigit b = false ∧ b ≠ '.' ∧ unit b = (none : Option ℚ) := by
      refine ⟨?_, ?_, ?_, ?_, ?_⟩
      · rintro rfl
        cases space
      · rintro rfl
        cases space
      · rw [← Bool.not_eq_true]
        intro digit
        rw [number_not_space (by simp [digit])] at space
        cases space
      · rintro rfl
        cases space
      · rw [← Option.not_isSome_iff_eq_none, Option.isSome_iff_exists]
        rintro ⟨mul, known⟩
        have inked := numberChar_not_space (unit_char known)
        rw [space] at inked
        cases inked
    obtain ⟨minus, plus, digit, point, unknown⟩ := other
    rw [parseOperand, skipped, List.cons_append]
    dsimp only
    rw [if_pos number, Option.map_eq_none_iff, readNumber_unsigned]
    · unfold readTurn
      rw [readDigits_stops]
      · simp [unknown]
      · intro c head
        cases head
        exact ⟨digit, point⟩
    · intro c head
      cases head
      exact ⟨minus, plus⟩

theorem splitOperands_append (first : Bool) (s : Split) (t u : Text) :
    splitOperands first s (t ++ u) =
      (splitOperands first s t).bind (fun s => splitOperands (first && t.isEmpty) s u) := by
  induction t generalizing first s with
  | nil => simp [splitOperands]
  | cons c t ih =>
    rw [List.cons_append, splitOperands, splitOperands]
    cases splitStep first s c with
    | none => rfl
    | some s' => simpa using ih false s'

def Unbraced (c : Char) : Prop := c ≠ '(' ∧ c ≠ ')' ∧ c ≠ '{' ∧ c ≠ '}' ∧ c ≠ ','

instance (c : Char) : Decidable (Unbraced c) := inferInstanceAs (Decidable (_ ∧ _))

/-- Outside of curved braces, and within simple ones or without brackets at the beginning. -/
structure Within (s : Split) : Prop where
  curved : s.curved_braces = 0
  simple : s.simple_braces ≠ 0 ∨ s.bracked = false

namespace Split

def add (s : Split) (t : Text) : Split := { s with current := s.current ++ t }

def read (s : Split) (t : Text) : Split :=
  { s with quotes := t.foldl quoteAfter s.quotes, current := s.current ++ t }

theorem add_nil (s : Split) : s.add [] = s := by simp [add]

theorem add_add (s : Split) (t u : Text) : (s.add t).add u = s.add (t ++ u) := by simp [add]

theorem read_nil (s : Split) : s.read [] = s := by simp [read]

theorem read_read (s : Split) (t u : Text) : (s.read t).read u = s.read (t ++ u) := by simp [read]

theorem read_closed {s : Split} {t : Text} (closed : t.foldl quoteAfter s.quotes = s.quotes) :
    s.read t = s.add t := by simp [read, add, closed]

end Split

theorem Within.add {s : Split} (within : Within s) (t : Text) : Within (s.add t) :=
  ⟨within.curved, within.simple⟩

theorem Within.read {s : Split} (within : Within s) (t : Text) : Within (s.read t) :=
  ⟨within.curved, within.simple⟩

theorem splitStep_unbraced {s : Split} (within : Within s) {c : Char} (plain : Unbraced c)
    (first : Bool) : splitStep first s c = some (s.read [c]) := by
  obtain ⟨opens, closes, curly, curled, comma⟩ := plain
  obtain ⟨curved, simple⟩ := within
  have apart : ¬ (s.simple_braces = 0 ∧ s.bracked = true) := by
    rintro ⟨zero, bracked⟩
    rcases simple with some | none
    · exact some zero
    · rw [bracked] at none
      cases none
  obtain ⟨bracked, simple_braces, curved_braces, quotes, current, ops⟩ := s
  obtain rfl : curved_braces = 0 := curved
  cases quotes with
  | NONE => simp [splitStep, Split.read, quoteAfter, opens, closes, curly, curled, comma, apart]
  | SIMPLE => by_cases mark : c = '\'' <;> simp [splitStep, Split.read, quoteAfter, mark]
  | DOUBLE => by_cases mark : c = '"' <;> simp [splitStep, Split.read, quoteAfter, mark]

theorem splitOperands_unbraced {t : Text} (plain : ∀ c ∈ t, Unbraced c) {s : Split}
    (within : Within s) (first : Bool) : splitOperands first s t = some (s.read t) := by
  induction t generalizing first s with
  | nil => rw [splitOperands, Split.read_nil]
  | cons c t ih =>
    obtain ⟨plain_c, plain⟩ := List.forall_mem_cons.mp plain
    rw [splitOperands, splitStep_unbraced within plain_c]
    dsimp only
    rw [ih plain (within.read _), Split.read_read, List.singleton_append]

theorem splitOperands_inside {double : Bool} {t : Text} (inside : quoteChar double ∉ t) (s : Split)
    (quotes : s.quotes = if double then .DOUBLE else .SIMPLE) :
    splitOperands false s t = some (s.add t) := by
  induction t generalizing s with
  | nil => rw [splitOperands, Split.add_nil]
  | cons c t ih =>
    obtain ⟨other, inside⟩ := not_or.mp (fun h => inside (List.mem_cons.mpr h))
    have stays : splitStep false s c = some (s.add [c]) := by
      cases double with
      | false =>
        have mark : ¬ c = '\'' := fun eq => other eq.symm
        simp_all [splitStep, Split.add]
      | true =>
        have mark : ¬ c = '"' := fun eq => other eq.symm
        simp_all [splitStep, Split.add]
    rw [splitOperands, stays]
    dsimp only
    rw [ih inside (s.add [c]) quotes, Split.add_add, List.singleton_append]

theorem quoted_split {double : Bool} {t : Text} (inside : quoteChar double ∉ t) {s : Split}
    (within : Within s) (quotes : s.quotes = .NONE) (first : Bool) :
    splitOperands first s (quoteChar double :: (t ++ [quoteChar double])) =
      some (s.add (quoteChar double :: (t ++ [quoteChar double]))) := by
  have mark : Unbraced (quoteChar double) := by
    cases double <;> decide
  have opened : (s.read [quoteChar double]).quotes = if double then .DOUBLE else .SIMPLE := by
    rw [Split.read, quotes]
    cases double <;> rfl
  have closed : quoteAfter (if double then .DOUBLE else .SIMPLE) (quoteChar double) = .NONE := by
    cases double <;> rfl
  rw [splitOperands, splitStep_unbraced within mark]
  dsimp only
  rw [splitOperands_append, splitOperands_inside inside _ opened, Option.bind_some,
    Bool.false_and, splitOperands_unbraced (by simpa using mark) ((within.read _).add _)]
  simp only [Split.read, Split.add, List.foldl_cons, List.foldl_nil] at opened ⊢
  rw [opened, closed, quotes]
  simp

theorem splitStep_opens {s : Split} (within : Within s) (quotes : s.quotes = .NONE) :
    splitStep false s '(' =
      some { s.add ['('] with simple_braces := s.simple_braces + 1 } := by
  obtain ⟨curved, simple⟩ := within
  obtain ⟨bracked, simple_braces, curved_braces, quotes', current, ops⟩ := s
  simp_all [splitStep, Split.add]

theorem splitStep_closes {s : Split} (within : Within s) (quotes : s.quotes = .NONE)
    (deep : s.simple_braces ≠ 0) (deeper : s.simple_braces ≠ 1 ∨ s.bracked = false) :
    splitStep false s ')' =
      some { s.add [')'] with simple_braces := s.simple_braces - 1 } := by
  obtain ⟨curved, simple⟩ := within
  obtain ⟨bracked, simple_braces, curved_braces, quotes', current, ops⟩ := s
  have above : ¬ (simple_braces - 1 = 0 ∧ bracked = true) := by
    rintro ⟨zero, is⟩
    rcases deeper with other | none
    · simp only at deep other
      omega
    · simp_all
  simp_all [splitStep, Split.add]

theorem splitStep_comma {s : Split} (within : Within s) (quotes : s.quotes = .NONE)
    (deep : s.simple_braces ≠ 1) :
    splitStep false s ',' = some (s.add [',']) := by
  obtain ⟨curved, simple⟩ := within
  obtain ⟨bracked, simple_braces, curved_braces, quotes', current, ops⟩ := s
  have apart : ¬ (simple_braces = 0 ∧ bracked = true) := by
    rintro ⟨zero, is⟩
    rcases simple with some | none
    · exact some zero
    · simp_all
  simp_all [splitStep, Split.add]

theorem splitStep_separates {s : Split} (within : Within s) (quotes : s.quotes = .NONE)
    (deep : s.simple_braces = 1) :
    splitStep false s ',' = some { s with current := [], ops := s.ops ++ [s.current] } := by
  obtain ⟨curved, simple⟩ := within
  obtain ⟨bracked, simple_braces, curved_braces, quotes', current, ops⟩ := s
  simp_all [splitStep]

theorem splitStep_ends {s : Split} (within : Within s) (quotes : s.quotes = .NONE)
    (deep : s.simple_braces = 1) (bracked : s.bracked = true) :
    splitStep false s ')' =
      some { s with simple_braces := 0, current := [], ops := s.ops ++ [s.current] } := by
  obtain ⟨curved, simple⟩ := within
  obtain ⟨bracked', simple_braces, curved_braces, quotes', current, ops⟩ := s
  simp_all [splitStep]

theorem unbraced_number {c : Char} (number : isNumberChar c = true) : Unbraced c := by
  refine ⟨?_, ?_, ?_, ?_, ?_⟩ <;>
  · rintro rfl
    cases number

theorem unbraced_space {c : Char} (space : isspace c = true) : Unbraced c := by
  refine ⟨?_, ?_, ?_, ?_, ?_⟩ <;>
  · rintro rfl
    cases space

theorem unbraced_name {c : Char} (name : isName c = true) : Unbraced c := by
  refine ⟨?_, ?_, ?_, ?_, ?_⟩ <;>
  · rintro rfl
    cases name

theorem quiet {t : Text} (no_quote : ∀ c ∈ t, c ≠ '\'' ∧ c ≠ '"') :
    t.foldl quoteAfter .NONE = .NONE := by
  induction t with
  | nil => rfl
  | cons c t ih =>
    obtain ⟨⟨simple, double⟩, rest⟩ := List.forall_mem_cons.mp no_quote
    rw [List.foldl_cons, show quoteAfter .NONE c = .NONE by simp [quoteAfter, simple, double]]
    exact ih rest

theorem quiet_space {t : Text} (space : ∀ c ∈ t, isspace c = true) :
    t.foldl quoteAfter .NONE = .NONE := by
  apply quiet
  intro c mem
  constructor <;>
  · rintro rfl
    cases space _ mem

theorem quiet_name {t : Text} (name : ∀ c ∈ t, isName c = true) :
    t.foldl quoteAfter .NONE = .NONE := by
  apply quiet
  intro c mem
  constructor <;>
  · rintro rfl
    cases name _ mem

theorem Angle.chars (n : Angle) : ∀ c ∈ n.text, isNumberChar c = true := by
  have read := n.read (t := []) .nil n.parts.length le_rfl
  rw [List.append_nil, if_pos rfl] at read
  exact readNumber_chars read

theorem split_quiet {t : Text} (plain : ∀ c ∈ t, Unbraced c)
    (quiet : t.foldl quoteAfter .NONE = .NONE) {s : Split} (within : Within s)
    (quotes : s.quotes = .NONE) (first : Bool) : splitOperands first s t = some (s.add t) := by
  rw [splitOperands_unbraced plain within, Split.read_closed (by rw [quotes, quiet])]

theorem split_space (blanks : Blanks) {s : Split} (within : Within s) (quotes : s.quotes = .NONE)
    (first : Bool) : splitOperands first s blanks.1 = some (s.add blanks.1) :=
  split_quiet (fun c mem => unbraced_space (blanks.2 c mem)) (quiet_space blanks.2) within quotes first

theorem split_rand {s : Split} (within : Within s) (quotes : s.quotes = .NONE) (first : Bool) :
    splitOperands first s "rand".toList = some (s.add "rand".toList) := by
  rw [show "rand".toList = ['r', 'a', 'n', 'd'] from rfl]
  exact split_quiet (by simp [Unbraced]) rfl within quotes first

theorem split_call (blanks : Blanks) {s : Split} (within : Within s) (quotes : s.quotes = .NONE)
    (t : Text) (first : Bool) :
    splitOperands first s (blanks.1 ++ ("rand".toList ++ '(' :: t)) =
      splitOperands false { s.add (blanks.1 ++ "rand(".toList) with
        simple_braces := s.simple_braces + 1 } t := by
  rw [splitOperands_append, split_space blanks within quotes, Option.bind_some,
    splitOperands_append, split_rand (within.add _) quotes, Option.bind_some]
  have later : ∀ b : Bool, (b && "rand".toList.isEmpty) = false := by decide
  rw [later, splitOperands, splitStep_opens ((within.add _).add _) quotes]
  simp [Split.add]

namespace Written

theorem split_sound {o : Written} (sound : o.Sound) {s : Split} (within : Within s)
    (quotes : s.quotes = .NONE) (deep : s.simple_braces ≠ 0) :
    splitOperands false s o.text = some (s.add o.text) := by
  induction o generalizing s with
  | number blanks n =>
    obtain ⟨none, -, closed⟩ := sound
    rw [text, none, List.nil_append]
    exact split_quiet (fun c mem => unbraced_number (n.chars c mem)) closed within quotes false
  | name blanks str formed =>
    rw [text, splitOperands_append, split_space blanks within quotes, Option.bind_some,
      split_quiet (fun c mem => unbraced_name (formed.name c mem)) (quiet_name formed.name)
        (within.add _) quotes, Split.add_add]
  | quoted blanks double str inside => exact absurd sound id
  | rand blanks _from _to ihFrom ihTo =>
    obtain ⟨soundFrom, soundTo⟩ := sound
    have inner (t : Text) : Within { s.add t with simple_braces := s.simple_braces + 1 } :=
      ⟨within.curved, .inl (Nat.succ_ne_zero _)⟩
    have other : s.simple_braces + 1 ≠ 1 := fun eq => deep (Nat.succ.inj eq)
    rw [text, split_call blanks within quotes, splitOperands_append,
      ihFrom soundFrom (inner _) quotes (Nat.succ_ne_zero _), Option.bind_some, Bool.false_and,
      splitOperands, splitStep_comma ((inner _).add _) quotes other]
    dsimp only
    rw [splitOperands_append, ihTo soundTo (((inner _).add _).add _) quotes (Nat.succ_ne_zero _),
      Option.bind_some, Bool.false_and, splitOperands,
      splitStep_closes ((((inner _).add _).add _).add _) quotes (Nat.succ_ne_zero _) (.inl other)]
    simp [Split.add, splitOperands]

end Written

def inBrackets (ops : List Text) : Split := ⟨true, 1, 0, .NONE, [], ops⟩

theorem inBrackets_within (ops : List Text) : Within (inBrackets ops) := ⟨rfl, .inl Nat.one_ne_zero⟩

theorem closing_split {o : Written} (sound : o.Sound) {ops : List Written}
    (others : ∀ o ∈ ops, o.Sound) (before : List Text) :
    splitOperands false (inBrackets before) (o.text ++ closing ops) =
      some ⟨true, 0, 0, .NONE, [], before ++ (o :: ops).map Written.text⟩ := by
  induction ops generalizing o before with
  | nil =>
    rw [splitOperands_append, Written.split_sound sound (inBrackets_within before) rfl
      Nat.one_ne_zero, Option.bind_some, closing, Bool.false_and, splitOperands,
      splitStep_ends ((inBrackets_within before).add _) rfl rfl rfl]
    simp [inBrackets, Split.add, splitOperands]
  | cons next ops ih =>
    obtain ⟨soundNext, others⟩ := List.forall_mem_cons.mp others
    rw [splitOperands_append, Written.split_sound sound (inBrackets_within before) rfl
      Nat.one_ne_zero, Option.bind_some, closing, Bool.false_and, splitOperands,
      splitStep_separates ((inBrackets_within before).add _) rfl rfl]
    have rest := ih soundNext others (before ++ [o.text])
    simpa [inBrackets, Split.add] using rest

theorem separate_cases {P Q : Prop} [Decidable P] [Decidable Q] {s s' : Split} {c : Char}
    (stepped : (if P then some { s with current := [], ops := s.ops ++ [s.current] }
      else if Q then some s else some { s with current := s.current ++ [c] }) = some s')
    (later : ¬ Q) :
    s'.bracked = s.bracked ∧ (s'.ops = s.ops ∧ s'.current = s.current ++ [c] ∨
      s'.ops = s.ops ++ [s.current] ∧ s'.current = []) := by
  by_cases separates : P
  · rw [if_pos separates] at stepped
    cases stepped
    exact ⟨rfl, .inr ⟨rfl, rfl⟩⟩
  · rw [if_neg separates, if_neg later] at stepped
    cases stepped
    exact ⟨rfl, .inl ⟨rfl, rfl⟩⟩

theorem splitStep_cases {s s' : Split} {c : Char} (stepped : splitStep false s c = some s') :
    s'.bracked = s.bracked ∧ (s'.ops = s.ops ∧ s'.current = s.current ++ [c] ∨
      s.quotes = .NONE ∧ s'.ops = s.ops ++ [s.current] ∧ s'.current = []) := by
  unfold splitStep at stepped
  by_cases quotes : s.quotes = .NONE
  · rw [if_neg (not_not.mpr quotes)] at stepped
    by_cases extra : c = ')' ∧ s.simple_braces = 0 ∨ c = '}' ∧ s.curved_braces = 0
    · rw [if_pos extra] at stepped
      cases stepped
    · rw [if_neg extra] at stepped
      obtain ⟨bracked, cases⟩ := separate_cases stepped (by simp)
      exact ⟨by simpa using bracked, cases.imp_right (fun ended => ⟨quotes, ended⟩)⟩
  · rw [if_pos quotes] at stepped
    cases stepped
    exact ⟨rfl, .inl ⟨rfl, rfl⟩⟩

theorem splitOperands_cons {c : Char} {t : Text} {s s' : Split}
    (split : splitOperands false s (c :: t) = some s') :
    ∃ mid, splitStep false s c = some mid ∧ splitOperands false mid t = some s' := by
  rw [splitOperands] at split
  cases stepped : splitStep false s c with
  | none =>
    rw [stepped] at split
    cases split
  | some mid =>
    rw [stepped] at split
    exact ⟨mid, rfl, split⟩

theorem splitOperands_bracked {t : Text} {s s' : Split}
    (split : splitOperands false s t = some s') : s'.bracked = s.bracked := by
  induction t generalizing s with
  | nil =>
    cases split
    rfl
  | cons c t ih =>
    obtain ⟨mid, stepped, split⟩ := splitOperands_cons split
    rw [ih split, (splitStep_cases stepped).1]

theorem parseOperands_bracketed (depth : Nat) (t : Text) :
    parseOperands (F := ℚ) depth ('(' :: t) =
      (splitOperands false (inBrackets []) t).bind (fun s => s.ops.mapM (parseOperand depth)) := by
  have opened : splitStep true ⟨false, 0, 0, .NONE, [], []⟩ '(' = some (inBrackets []) := by
    simp [splitStep, inBrackets]
  rw [parseOperands, splitOperands, opened]
  dsimp only
  cases split : splitOperands false (inBrackets []) t with
  | none => rfl
  | some s =>
    have bracked : s.bracked = true := splitOperands_bracked split
    simp [bracked]

theorem skip_rand (blanks : Blanks) (t : Text) :
    skip (blanks.1 ++ ("rand".toList ++ '(' :: t)) = 'r' :: 'a' :: 'n' :: 'd' :: '(' :: t := by
  rw [skip_spaces blanks.2]
  exact skip_cons rfl _

def randOf : Option (List (Operand ℚ)) → Option (Operand ℚ)
  | some [_from, _to] => some (.randomNumber _from _to)
  | _ => none

theorem randOf_some {args : Option (List (Operand ℚ))} {_from _to : Operand ℚ}
    (is : randOf args = some (.randomNumber _from _to)) : args = some [_from, _to] := by
  unfold randOf at is
  split at is
  · cases is
    rfl
  · cases is

theorem parseOperand_rand_zero (blanks : Blanks) (t : Text) :
    parseOperand (F := ℚ) 0 (blanks.1 ++ ("rand".toList ++ '(' :: t)) = none := by
  rw [parseOperand, skip_rand]
  rfl

theorem parseOperand_rand (depth : Nat) (blanks : Blanks) (t : Text) :
    parseOperand (F := ℚ) (depth + 1) (blanks.1 ++ ("rand".toList ++ '(' :: t)) =
      randOf (parseOperands depth ('(' :: t)) := by
  have name : ('r' :: 'a' :: 'n' :: 'd' :: '(' :: t).takeWhile isName = "rand".toList := rfl
  rw [parseOperand, skip_rand]
  dsimp only
  rw [name, if_neg (by decide), if_pos rfl, show List.drop 4 ('r' :: 'a' :: 'n' :: 'd' :: '(' :: t) =
    '(' :: t from rfl]
  unfold randOf
  rcases parseOperands (F := ℚ) depth ('(' :: t) with _ | _ | ⟨x, _ | ⟨y, _ | ⟨z, rest⟩⟩⟩ <;> rfl

theorem parseOperand_spaced (depth : Nat) (blanks : Blanks) {str : Text} (formed : OperandName str) :
    parseOperand (F := ℚ) depth (blanks.1 ++ str) = some (.string (String.ofList str)) := by
  obtain ⟨name, ⟨c, first, digit, minus, plus, point⟩, no_rand⟩ := formed
  rw [parseOperand, skip_spaces blanks.2, skip_name name]
  cases str with
  | nil => cases first
  | cons c' t =>
    cases first
    have whole : (c :: t).takeWhile isName = c :: t := List.takeWhile_eq_self_iff.mpr name
    have other : (isdigit c || c = '-' || c = '+' || c = '.') = false := by
      simp [digit, minus, plus, point]
    dsimp only
    rw [whole, other, if_neg (by simp), if_neg no_rand, if_neg (lt_irrefl _)]

namespace Written

def nested : Written → Nat
  | number _ _ | name _ _ _ | quoted _ _ _ _ => 0
  | rand _ _from _to => max _from.nested _to.nested + 1

theorem nested_length (o : Written) : o.nested ≤ o.text.length := by
  induction o with
  | number | name | quoted => exact Nat.zero_le _
  | rand blanks _from _to ihFrom ihTo =>
    simp only [nested, text, List.length_append, List.length_cons]
    omega

end Written

theorem mapM_texts {parse : Text → Option (Operand ℚ)} {ops : List Written}
    (each : ∀ o ∈ ops, parse o.text = some o.value) :
    (ops.map Written.text).mapM parse = some (ops.map Written.value) := by
  induction ops with
  | nil => rfl
  | cons o ops ih =>
    obtain ⟨first, others⟩ := List.forall_mem_cons.mp each
    rw [List.map_cons, List.mapM_cons, first, ih others]
    rfl

theorem parseOperands_sound (depth : Nat) {o : Written} (sound : o.Sound) {ops : List Written}
    (others : ∀ o ∈ ops, o.Sound)
    (each : ∀ p ∈ o :: ops, parseOperand depth p.text = some p.value) :
    parseOperands depth ('(' :: (o.text ++ closing ops)) =
      some ((o :: ops).map Written.value) := by
  rw [parseOperands_bracketed, closing_split sound others, Option.bind_some]
  exact mapM_texts each

theorem Written.parse_sound {o : Written} (sound : o.Sound) {depth : Nat}
    (deep : o.nested ≤ depth) : parseOperand depth o.text = some o.value := by
  induction o generalizing depth with
  | number blanks n =>
    obtain ⟨none, minus, -⟩ := sound
    have read := parseOperand_angle depth n (t := []) .nil
    rw [List.append_nil, if_pos rfl, (n.readValue_iff).mpr minus] at read
    rw [text, none, List.nil_append, read, value]
  | name blanks str formed => exact parseOperand_spaced depth blanks formed
  | quoted blanks double str inside => exact absurd sound id
  | rand blanks _from _to ihFrom ihTo =>
    obtain ⟨soundFrom, soundTo⟩ := sound
    obtain ⟨depth, rfl⟩ := Nat.exists_eq_add_one_of_ne_zero (Nat.ne_zero_of_lt deep)
    have inner : max _from.nested _to.nested ≤ depth := Nat.le_of_succ_le_succ deep
    have others : ∀ o ∈ [_to], o.Sound := by simpa using soundTo
    have args := parseOperands_sound depth soundFrom others (by
      simp only [List.forall_mem_cons, List.not_mem_nil, false_imp_iff, implies_true, and_true]
      exact ⟨ihFrom soundFrom (le_trans (le_max_left _ _) inner),
        ihTo soundTo (le_trans (le_max_right _ _) inner)⟩)
    rw [closing, closing] at args
    rw [text, parseOperand_rand, args]
    rfl

theorem first_piece {t : Text} {s s' : Split} (split : splitOperands false s t = some s') :
    s'.ops = s.ops ∨ ∃ u more, (∃ c rest, t = u ++ c :: rest) ∧ (u = [] → s.quotes = .NONE) ∧
      s'.ops = s.ops ++ (s.current ++ u) :: more := by
  induction t generalizing s with
  | nil =>
    cases split
    exact .inl rfl
  | cons c t ih =>
    obtain ⟨mid, stepped, split⟩ := splitOperands_cons split
    obtain ⟨-, ⟨ops, current⟩ | ⟨quotes, ops, current⟩⟩ := splitStep_cases stepped
    · rcases ih split with same | ⟨u, more, ⟨c', rest, rfl⟩, -, found⟩
      · exact .inl (same.trans ops)
      · refine .inr ⟨c :: u, more, ⟨c', rest, rfl⟩, fun none => absurd none (List.cons_ne_nil _ _), ?_⟩
        rw [found, ops, current]
        simp
    · right
      rcases ih split with same | ⟨u, more, -, -, found⟩
      · refine ⟨[], [], ⟨c, t, rfl⟩, fun _ => quotes, ?_⟩
        rw [same, ops]
        simp
      · refine ⟨[], (mid.current ++ u) :: more, ⟨c, t, rfl⟩, fun _ => quotes, ?_⟩
        rw [found, ops]
        simp

namespace Written

def Opens : Written → Text → Prop
  | number blanks n, x =>
    ∃ t, x = blanks.1 ++ (n.text ++ t) ∧ EndsOperand t ∧ (t = [] → Closed n.text)
  | name _ _ _, _ => True
  | quoted blanks double str _, x =>
    ∃ t, x = blanks.1 ++ quoteChar double :: (str ++ [quoteChar double]) ++ t
  | rand blanks _from _to, x =>
    ∃ y, x = blanks.1 ++ ("rand".toList ++ '(' :: y) ∧
      (¬ _from.Sound ∧ _from.Opens y ∨
        _from.Sound ∧ ¬ _to.Sound ∧ ∃ z, y = _from.text ++ ',' :: z ∧ _to.Opens z)

theorem opens_text {o : Written} (unsound : ¬ o.Sound) {c : Char} (ends : c = ',' ∨ c = ')')
    (t : Text) : o.Opens (o.text ++ c :: t) := by
  induction o generalizing c t with
  | number blanks n =>
    exact ⟨c :: t, by simp [text], .of_separator ends t,
      fun none => absurd none (List.cons_ne_nil _ _)⟩
  | name blanks str formed => trivial
  | quoted blanks double str inside => exact ⟨c :: t, rfl⟩
  | rand blanks _from _to ihFrom ihTo =>
    refine ⟨_from.text ++ ',' :: (_to.text ++ ')' :: c :: t), by simp [text], ?_⟩
    by_cases soundFrom : _from.Sound
    · have soundTo : ¬ _to.Sound := fun soundTo => unsound ⟨soundFrom, soundTo⟩
      exact .inr ⟨soundFrom, soundTo, _, rfl, ihTo soundTo (.inr rfl) _⟩
    · exact .inl ⟨soundFrom, ihFrom soundFrom (.inl rfl) _⟩

theorem opens_piece {o : Written} (unsound : ¬ o.Sound) {x : Text} (opens : o.Opens x)
    {s s' : Split} (within : Within s) (quotes : s.quotes = .NONE) (deep : s.simple_braces ≠ 0)
    (split : splitOperands false s x = some s') :
    s'.ops = s.ops ∨ ∃ t more, o.Opens t ∧ s'.ops = s.ops ++ (s.current ++ t) :: more := by
  induction o generalizing x s with
  | number blanks n =>
    obtain ⟨t, rfl, ends, closed⟩ := opens
    rw [splitOperands_append, split_space blanks within quotes, Option.bind_some,
      splitOperands_append, splitOperands_unbraced (fun c mem => unbraced_number (n.chars c mem))
        (within.add _), Option.bind_some, Bool.false_and, Bool.false_and] at split
    rcases first_piece split with same | ⟨u, more, ⟨c, rest, rfl⟩, none, found⟩
    · exact .inl same
    · refine .inr ⟨blanks.1 ++ (n.text ++ u), more, ⟨u, rfl, ?_, ?_⟩, ?_⟩
      · intro d head
        exact ends d (by rw [List.head?_append, head]; rfl)
      · intro empty
        have open_quotes := none empty
        rw [Split.read, Split.add, quotes] at open_quotes
        exact open_quotes
      · rw [found]
        simp [Split.read, Split.add]
  | name blanks str formed => exact absurd trivial unsound
  | quoted blanks double str inside =>
    obtain ⟨t, rfl⟩ := opens
    rw [List.append_assoc, splitOperands_append, split_space blanks within quotes,
      Option.bind_some, splitOperands_append, quoted_split inside (within.add _) quotes,
      Option.bind_some, Bool.false_and, Bool.false_and] at split
    rcases first_piece split with same | ⟨u, more, -, -, found⟩
    · exact .inl same
    · refine .inr ⟨_, more, ⟨u, rfl⟩, ?_⟩
      rw [found]
      simp [Split.add]
  | rand blanks _from _to ihFrom ihTo =>
    obtain ⟨y, rfl, cases⟩ := opens
    have inner (t : Text) : Within { s.add t with simple_braces := s.simple_braces + 1 } :=
      ⟨within.curved, .inl (Nat.succ_ne_zero _)⟩
    have other : s.simple_braces + 1 ≠ 1 := fun eq => deep (Nat.succ.inj eq)
    rw [split_call blanks within quotes] at split
    rcases cases with ⟨soundFrom, opens⟩ | ⟨soundFrom, soundTo, z, rfl, opens⟩
    · rcases ihFrom soundFrom opens (inner _) quotes (Nat.succ_ne_zero _) split with
        same | ⟨t, more, opens, found⟩
      · exact .inl same
      · refine .inr ⟨_, more, ⟨t, rfl, .inl ⟨soundFrom, opens⟩⟩, ?_⟩
        rw [found]
        simp [Split.add]
    · rw [splitOperands_append, split_sound soundFrom (inner _) quotes (Nat.succ_ne_zero _),
        Option.bind_some, Bool.false_and, splitOperands,
        splitStep_comma ((inner _).add _) quotes other] at split
      rcases ihTo soundTo opens (((inner _).add _).add _) quotes (Nat.succ_ne_zero _) split with
        same | ⟨t, more, opens, found⟩
      · exact .inl same
      · refine .inr ⟨_, more, ⟨_, rfl, .inr ⟨soundFrom, soundTo, t, rfl, opens⟩⟩, ?_⟩
        rw [found]
        simp [Split.add]

end Written

theorem mapM_cons_some {parse : Text → Option (Operand ℚ)} {t : Text} {ts : List Text}
    {v : Operand ℚ} {vs : List (Operand ℚ)} (read : (t :: ts).mapM parse = some (v :: vs)) :
    parse t = some v ∧ ts.mapM parse = some vs := by
  rw [List.mapM_cons] at read
  cases first : parse t with
  | none =>
    rw [first] at read
    cases read
  | some v' =>
    cases others : ts.mapM parse with
    | none =>
      rw [first, others] at read
      cases read
    | some vs' =>
      rw [first, others] at read
      cases read
      exact ⟨rfl, rfl⟩

theorem parseOperand_quote (depth : Nat) (blanks : Blanks) (double : Bool) (t : Text) :
    parseOperand (F := ℚ) depth (blanks.1 ++ quoteChar double :: t) = none := by
  have inked : isspace (quoteChar double) = false := by
    cases double <;> rfl
  have no_name : (quoteChar double :: t).takeWhile isName = [] := by
    cases double <;> rfl
  have number : (isdigit (quoteChar double) || quoteChar double = '-' || quoteChar double = '+' ||
      quoteChar double = '.') = false := by
    cases double <;> rfl
  rw [parseOperand, skip_spaces blanks.2, skip_cons inked]
  dsimp only
  rw [no_name, number, if_neg (by simp), if_neg (by decide), if_pos (by simp)]

theorem Written.parse_unsound {o : Written} (unsound : ¬ o.Sound) {x : Text} (opens : o.Opens x)
    (depth : Nat) : parseOperand depth x ≠ some o.value := by
  induction o generalizing x depth with
  | number blanks n =>
    obtain ⟨t, rfl, ends, closed⟩ := opens
    by_cases none : blanks.1 = []
    · rw [none, List.nil_append, parseOperand_angle depth n ends]
      split
      next last =>
        intro same
        have value : n.readValue = n.value := by
          injection same with same
          injection same
        exact unsound ⟨none, n.readValue_iff.mp value, closed last⟩
      next => simp
    · rw [parseOperand_blank depth blanks.2 none]
      simp
  | name blanks str formed => exact absurd trivial unsound
  | quoted blanks double str inside =>
    obtain ⟨t, rfl⟩ := opens
    rw [List.append_assoc, List.cons_append, parseOperand_quote]
    simp
  | rand blanks _from _to ihFrom ihTo =>
    obtain ⟨y, rfl, cases⟩ := opens
    cases depth with
    | zero =>
      rw [parseOperand_rand_zero]
      simp
    | succ depth =>
      rw [parseOperand_rand, parseOperands_bracketed]
      intro same
      have args := randOf_some same
      obtain ⟨s, split, read⟩ := Option.bind_eq_some_iff.mp args
      rcases cases with ⟨soundFrom, opens⟩ | ⟨soundFrom, soundTo, z, rfl, opens⟩
      · rcases opens_piece soundFrom opens (inBrackets_within []) rfl Nat.one_ne_zero split with
          none | ⟨t, more, opens, found⟩
        · rw [none] at read
          cases read
        · rw [found] at read
          exact ihFrom soundFrom opens depth (mapM_cons_some read).1
      · rw [splitOperands_append, split_sound soundFrom (inBrackets_within []) rfl Nat.one_ne_zero,
          Option.bind_some, Bool.false_and, splitOperands,
          splitStep_separates ((inBrackets_within []).add _) rfl rfl] at split
        rcases opens_piece soundTo opens ⟨rfl, .inl Nat.one_ne_zero⟩ rfl Nat.one_ne_zero split with
          none | ⟨t, more, opens, found⟩
        · rw [none] at read
          have rest := (mapM_cons_some read).2
          cases rest
        · rw [found] at read
          have rest := (mapM_cons_some read).2
          exact ihTo soundTo opens depth (mapM_cons_some rest).1

end Rts2.Scripts.Parsing
