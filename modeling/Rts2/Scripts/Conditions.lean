import Rts2.Scripts.Reparsing

/-! How far the condition of a loop reaches in the text of a script. -/
namespace Rts2.Scripts.Parsing

open Lib

variable {F : Type}

def startsNumber : Text → Bool
  | [] => false
  | c :: t => isdigit c || c = '.' && t.head?.any isdigit

inductive Side (F : Type) where
  | number (text : Text) (val : F)
  | systemValue (device value : Text)

namespace Side

def text : Side F → Text
  | .number text _ => text
  | .systemValue device value => device ++ '.' :: value

def isNumber : Side F → Bool
  | .number .. => true
  | .systemValue .. => false

def operand (defaultDevice : Text) : Side F → Condition F
  | .number _ val => .number val
  | .systemValue device value =>
    .systemValue (if device = [] then defaultDevice else device) value

def Unsigned : Side F → Prop
  | .number text _ => startsNumber text = true
  | .systemValue .. => True

instance : DecidablePred (Unsigned (F := F))
  | .number _ _ => inferInstanceAs (Decidable (_ = _))
  | .systemValue _ _ => inferInstanceAs (Decidable True)

section

variable [NatCast F] [Add F] [Mul F] [Div F] [Neg F]

def Written : Side F → Prop
  | .number text val =>
    parseOperand 0 text = some (.number val) ∧ (∀ c ∈ text, isspace c = false) ∧
      (startsNumber text = true ∨
        ∃ sign t, text = sign :: t ∧ (sign = '-' ∨ sign = '+') ∧ startsNumber t = true)
  | .systemValue device value =>
    (∀ c ∈ device, isalnum c = true ∨ c = '_') ∧ (∀ c ∈ value, isVariable c = true) ∧
      (∀ c ∈ device.head?, isalpha c = true) ∧ value ≠ [] ∧
      (device = [] → ∀ c ∈ value.head?, isdigit c = false)

end

end Side

/-- The spaces stand behind the opening bracket, around the comparator, and before the closing
bracket. -/
structure Comparison (F : Type) where
  left : Side F
  cmp : Comparator
  right : Side F
  before : Text
  afterLeft : Text
  beforeRight : Text
  afterRight : Text

namespace Comparison

def text (brackets : Bool) (c : Comparison F) (rest : Text) : Text :=
  let compared (tail : Text) :=
    c.left.text ++ (c.afterLeft ++ (c.cmp.symbol ++ (c.beforeRight ++ (c.right.text ++ tail))))
  if brackets then '(' :: (c.before ++ compared (c.afterRight ++ ')' :: rest)) else compared rest

def condition (defaultDevice : Text) (c : Comparison F) : Condition F :=
  .equation (c.left.operand defaultDevice) c.cmp (some (c.right.operand defaultDevice))

/-- A number has white space behind it, but for one that ends the script, and what has no brackets
is the end of the script. -/
def Delimited (brackets : Bool) (c : Comparison F) (rest : Text) : Prop :=
  (c.left.Unsigned ∧ c.right.Unsigned) ∧ (c.left.isNumber = true → c.afterLeft ≠ []) ∧
    if brackets then c.right.isNumber = true → c.afterRight ≠ [] else rest = []

section

variable [NatCast F] [Add F] [Mul F] [Div F] [Neg F]

structure Written (c : Comparison F) : Prop where
  left : c.left.Written
  right : c.right.Written
  before : ∀ s ∈ c.before, isspace s = true
  afterLeft : ∀ s ∈ c.afterLeft, isspace s = true
  beforeRight : ∀ s ∈ c.beforeRight, isspace s = true
  afterRight : ∀ s ∈ c.afterRight, isspace s = true

def Reads (defaultDevice : Text) (c : Comparison F) (text rest : Text) : Prop :=
  ∃ t, parseCondition defaultDevice (text.length + 1) none (skip text) =
    .ok (some (c.condition defaultDevice), t) ∧ Same t rest

end

end Comparison

def isNumberChar (c : Char) : Bool :=
  isdigit c || c = '.' || c = '-' || c = '+' || c = 'd' || c = 'h' || c = 'm' || c = '\'' ||
    c = 's' || c = '"'

section

variable [NatCast F] [Add F] [Mul F] [Div F] [Neg F]

theorem readDigits_chars {cn cn' : F} {mul : Option F} {t rest : Text}
    (read : readDigits cn mul t = some (cn', rest)) :
    ∃ digits, t = digits ++ rest ∧ ∀ c ∈ digits, isNumberChar c = true := by
  induction t generalizing cn mul with
  | nil =>
    cases read
    exact ⟨[], rfl, by simp⟩
  | cons c t ih =>
    have goes (number : isNumberChar c = true) {cn : F} {mul : Option F}
        (read : readDigits cn mul t = some (cn', rest)) :
        ∃ digits, c :: t = digits ++ rest ∧ ∀ c ∈ digits, isNumberChar c = true := by
      obtain ⟨digits, same, numbers⟩ := ih read
      exact ⟨c :: digits, by rw [same]; rfl, List.forall_mem_cons.mpr ⟨number, numbers⟩⟩
    unfold readDigits at read
    split at read
    · rename_i point
      cases mul with
      | some mul => contradiction
      | none => exact goes (by simp [isNumberChar, point]) read
    · split at read
      · rename_i digit
        have number : isNumberChar c = true := by simp [isNumberChar, digit]
        cases mul with
        | some mul => exact goes number read
        | none => exact goes number read
      · cases read
        exact ⟨[], rfl, by simp⟩

theorem unit_char {c : Char} {mul : F} (known : unit c = some mul) : isNumberChar c = true := by
  unfold unit at known
  unfold isNumberChar
  split at known
  · simp_all
  · split at known
    · simp_all
    · split at known
      · simp_all
        grind
      · split at known
        · simp_all
          grind
        · contradiction

theorem readNumber_inv {turns : Nat} {op val : F} {t : Text} (read : readNumber (turns + 1) op t = some val) :
    ∃ t', (t = t' ∨ ∃ c, isNumberChar c = true ∧ t = c :: t') ∧
      ∃ (cn : F) (rest : Text), readDigits ((0 : ℕ) : F) none t' = some (cn, rest) ∧
        (rest = [] ∨ ∃ (c : Char) (u : Text) (next mul : F), rest = c :: u ∧ unit c = some mul ∧
          readNumber turns next u = some val) := by
  unfold readNumber at read
  split at read
  rename_i sign t' signed
  refine ⟨t', ?_, ?_⟩
  · split at signed
    · exact .inr ⟨'-', rfl, by rw [(Prod.mk.inj signed).2]⟩
    · exact .inr ⟨'+', rfl, by rw [(Prod.mk.inj signed).2]⟩
    · exact .inl (Prod.mk.inj signed).2
  · split at read
    · contradiction
    · rename_i cn digits
      exact ⟨cn, [], digits, .inl rfl⟩
    · rename_i cn c u digits
      split at read
      · contradiction
      · rename_i mul known
        exact ⟨cn, c :: u, digits, .inr ⟨c, u, _, mul, rfl, known, read⟩⟩

theorem readNumber_chars {turns : Nat} {op val : F} {t : Text}
    (read : readNumber turns op t = some val) : ∀ c ∈ t, isNumberChar c = true := by
  induction turns generalizing op t with
  | zero => contradiction
  | succ turns ih =>
    obtain ⟨t', signed, cn, rest, digits, behind⟩ := readNumber_inv read
    obtain ⟨read_, rfl, numbers⟩ := readDigits_chars digits
    have unsigned : ∀ c ∈ read_ ++ rest, isNumberChar c = true := by
      rcases behind with rfl | ⟨c, t, op, mul, rfl, known, read⟩
      · rw [List.append_nil]
        exact numbers
      · exact List.forall_mem_append.mpr ⟨numbers, List.forall_mem_cons.mpr ⟨unit_char known, ih read⟩⟩
    rcases signed with rfl | ⟨c, sign, rfl⟩
    · exact unsigned
    · exact List.forall_mem_cons.mpr ⟨sign, unsigned⟩

theorem number_chars {text : Text} {val : F} (read : parseOperand 0 text = some (.number val)) :
    ∀ c ∈ text, isNumberChar c = true := by
  rw [parseOperand] at read
  split at read
  · contradiction
  · split at read
    · obtain ⟨val', number, _⟩ := Option.map_eq_some_iff.mp read
      exact readNumber_chars number
    · dsimp only at read
      split at read
      · contradiction
      · split at read
        · contradiction
        · cases read

theorem skip_spaces {spaces : Text} (blank : ∀ s ∈ spaces, isspace s = true) (t : Text) :
    skip (spaces ++ t) = skip t := List.dropWhile_append_of_pos blank

theorem skip_cons {c : Char} (inked : isspace c = false) (t : Text) : skip (c :: t) = c :: t := by
  simp [skip, inked]

variable (defaultDevice : Text) (turns : Nat) (op : Option (Condition F))

theorem condition_skip {spaces : Text} (blank : ∀ s ∈ spaces, isspace s = true) {c : Char}
    (inked : isspace c = false) (t : Text) :
    parseCondition defaultDevice (turns + 1) op (spaces ++ c :: t) =
      parseCondition defaultDevice (turns + 1) op (c :: t) := by
  unfold parseCondition
  rw [if_neg (by simp), if_neg (by simp), skip_spaces blank]

theorem condition_close (cond : Condition F) (t : Text) :
    parseCondition defaultDevice (turns + 1) (some cond) (')' :: t) = .ok (some cond, t) := rfl

theorem condition_open (t : Text) : parseCondition defaultDevice (turns + 1) op ('(' :: t) =
    parseCondition defaultDevice turns none (skip t) := rfl

theorem condition_compare (cond : Condition F) {c : Char} (first : c = '=' ∨ c = '>' ∨ c = '<')
    (t : Text) : parseCondition defaultDevice (turns + 1) (some cond) (c :: t) =
      match comparator c t with
      | none => .error .error
      | some (cmp, t) =>
        match parseCondition defaultDevice turns none (skip t) with
        | .ok (op2, t) => .ok (some (.equation cond cmp op2), t)
        | .error stop => .error stop := by
  have inked : isspace c = false := by rcases first with rfl | rfl | rfl <;> rfl
  rw [parseCondition, if_neg (by simp), skip_cons inked]
  split
  · rename_i same
    cases same
  · rename_i same
    rw [(List.cons.inj same).1] at first
    simp at first
  · rename_i same
    rw [(List.cons.inj same).1] at first
    simp at first
  · rename_i c' t' _ _ same
    cases same
    rw [if_pos first]
    cases comparator c t <;> rfl

theorem comparator_symbol (cmp : Comparator) {t : Text} (other : t.head? ≠ some '=') :
    ∃ c rest, cmp.symbol ++ t = c :: rest ∧ (c = '=' ∨ c = '>' ∨ c = '<') ∧
      comparator c rest = some (cmp, t) := by
  have alone {c : Char} (known : c = '<' ∨ c = '>') : comparator c t =
      some (if c = '<' then .CMP_LESS else .CMP_GREAT, t) := by
    unfold comparator
    split
    · simp at other
    · rcases known with rfl | rfl <;> rfl
  cases cmp with
  | CMP_EQUAL => exact ⟨'=', '=' :: t, rfl, .inl rfl, rfl⟩
  | CMP_LESS_EQU => exact ⟨'<', '=' :: t, rfl, .inr (.inr rfl), rfl⟩
  | CMP_GREAT_EQU => exact ⟨'>', '=' :: t, rfl, .inr (.inl rfl), rfl⟩
  | CMP_LESS => exact ⟨'<', t, rfl, .inr (.inr rfl), alone (.inl rfl)⟩
  | CMP_GREAT => exact ⟨'>', t, rfl, .inr (.inl rfl), alone (.inr rfl)⟩

theorem condition_compares (cond : Condition F) (cmp : Comparator) {t : Text}
    (other : t.head? ≠ some '=') :
    parseCondition defaultDevice (turns + 1) (some cond) (cmp.symbol ++ t) =
      match parseCondition defaultDevice turns none (skip t) with
      | .ok (op2, t) => .ok (some (.equation cond cmp op2), t)
      | .error stop => .error stop := by
  obtain ⟨c, rest, same, first, compares⟩ := comparator_symbol cmp other
  rw [same, condition_compare defaultDevice turns cond first, compares]

theorem condition_operand {c : Char} (inked : isspace c = false)
    (other : c ≠ ')' ∧ c ≠ '(' ∧ c ≠ '=' ∧ c ≠ '>' ∧ c ≠ '<') (t : Text) :
    parseCondition defaultDevice (turns + 1) op (c :: t) =
      if isdigit c ∨ c = '.' ∧ t.head?.any isdigit then
        match parseOperand 0 ((c :: t).takeWhile (!isspace ·)) with
        | some (.number val) =>
          parseCondition defaultDevice turns (some (.number val)) ((c :: t).dropWhile (!isspace ·))
        | _ => .error .error
      else if isalpha c ∨ c = '.' then
        let name := (c :: t).takeWhile isVariable
        let t := (c :: t).dropWhile isVariable
        if '.' ∈ name then
          let device := name.takeWhile (· ≠ '.')
          let value := (name.dropWhile (· ≠ '.')).tail
          parseCondition defaultDevice turns
            (some (.systemValue (if device = [] then defaultDevice else device) value)) t
        else parseCondition defaultDevice turns op t
      else .error .error := by
  obtain ⟨close, opens, equal, greater, less⟩ := other
  rw [parseCondition, if_neg (by simp), skip_cons inked]
  split
  · rename_i same
    cases same
  · rename_i same
    exact absurd (List.cons.inj same).1 close
  · rename_i same
    exact absurd (List.cons.inj same).1 opens
  · rename_i c' t' _ _ same
    cases same
    exact if_neg (by simp [equal, greater, less])

theorem isName_of_variable {c : Char} (variable_ : isVariable c = true) : isName c = true := by
  simp only [isVariable, isName, Bool.or_eq_true] at variable_ ⊢
  tauto

theorem numberChar_cases {c : Char} (number : isNumberChar c = true) :
    isName c = true ∨ c = '\'' ∨ c = '"' := by
  simp only [isNumberChar, Bool.or_eq_true, decide_eq_true_eq] at number
  rcases number with (((((((((digit | rfl) | rfl) | rfl) | rfl) | rfl) | rfl) | quote) | rfl) |
    quote)
  · exact .inl (isName_of_digit digit)
  all_goals first | exact .inr (.inl quote) | exact .inr (.inr quote) | exact .inl (by decide)

theorem operand_not_space {c : Char} (operand : isNumberChar c = true ∨ isVariable c = true) :
    isspace c = false := by
  rcases operand with number | variable_
  · rcases numberChar_cases number with name | rfl | rfl
    · exact isName_not_space name
    · decide
    · decide
  · exact isName_not_space (isName_of_variable variable_)

theorem operand_inked {c : Char} (operand : isNumberChar c = true ∨ isVariable c = true) :
    isspace c = false ∧ c ≠ ')' ∧ c ≠ '(' ∧ c ≠ '=' ∧ c ≠ '>' ∧ c ≠ '<' := by
  refine ⟨operand_not_space operand, ?_, ?_, ?_, ?_, ?_⟩ <;>
  · rintro rfl
    exact absurd operand (by decide)

theorem startsNumber_append {t : Text} (starts : startsNumber t = true) (tail : Text) :
    startsNumber (t ++ tail) = true := by
  match t with
  | [c] =>
    simp only [startsNumber, List.head?_nil, Option.any_none, Bool.and_false, Bool.or_false] at starts
    simp [startsNumber, starts]
  | c :: d :: t => exact starts

theorem condition_digits {t : Text} (starts : startsNumber t = true) :
    parseCondition defaultDevice (turns + 1) op t =
      match parseOperand 0 (t.takeWhile (!isspace ·)) with
      | some (.number val) =>
        parseCondition defaultDevice turns (some (.number val)) (t.dropWhile (!isspace ·))
      | _ => .error .error := by
  cases t with
  | nil => contradiction
  | cons c t =>
    have digit : isdigit c = true ∨ c = '.' ∧ t.head?.any isdigit = true := by
      simpa [startsNumber] using starts
    have number : isNumberChar c = true := by
      rcases digit with digit | ⟨rfl, _⟩
      · simp [isNumberChar, digit]
      · rfl
    obtain ⟨spaceless, other⟩ := operand_inked (.inl number)
    rw [condition_operand defaultDevice turns op spaceless other, if_pos digit]

theorem condition_number {text tail : Text} (starts : startsNumber text = true)
    (inked : ∀ c ∈ text, isspace c = false) (ends : Ends tail) :
    parseCondition defaultDevice (turns + 1) op (text ++ tail) =
      match parseOperand 0 text with
      | some (.number val) => parseCondition defaultDevice turns (some (.number val)) tail
      | _ => .error .error := by
  obtain ⟨word, behind⟩ := takeWhile_boundary (fun d => !isspace d) text tail
    (fun d mem => by rw [inked d mem]; rfl) (fun d first => by rw [ends d first]; rfl)
  rw [condition_digits defaultDevice turns op (startsNumber_append starts tail), word, behind]

theorem condition_glued {text t : Text} {c : Char} (starts : startsNumber text = true)
    (inked : ∀ c ∈ text, isspace c = false) (other : isNumberChar c = false)
    (behind : isspace c = false) :
    parseCondition defaultDevice (turns + 1) op (text ++ c :: t) = .error .error := by
  have longer : c ∈ (text ++ c :: t).takeWhile (!isspace ·) := by
    rw [List.takeWhile_append_of_pos (fun d mem => by rw [inked d mem]; rfl),
      List.takeWhile_cons_of_pos (by rw [behind]; rfl)]
    simp
  rw [condition_digits defaultDevice turns op (startsNumber_append starts _)]
  split
  · rename_i val read
    have number := number_chars read c longer
    rw [other] at number
    contradiction
  · rfl

theorem letter_not_digit {c : Char} (letter : isalpha c = true) : isdigit c = false := by
  have value : c.toNat = c.val.toNat := rfl
  simp only [isalpha, Bool.or_eq_true, Bool.and_eq_true, decide_eq_true_eq, Char.le_def,
    UInt32.le_iff_toNat_le] at letter
  simp only [isdigit, Bool.and_eq_false_iff, decide_eq_false_iff_not, Char.le_def,
    UInt32.le_iff_toNat_le]
  rcases letter with letter | letter <;>
  · simp at letter ⊢
    omega

theorem condition_value {device value tail : Text}
    (written : (Side.systemValue device value : Side F).Written)
    (ends : ∀ c ∈ tail.head?, isVariable c = false) :
    parseCondition defaultDevice (turns + 1) op (device ++ '.' :: value ++ tail) =
      parseCondition defaultDevice turns
        (some (.systemValue (if device = [] then defaultDevice else device) value)) tail := by
  obtain ⟨names, values, letter, some_value, no_digit⟩ := written
  have point_name : isVariable '.' = true := rfl
  have chars : ∀ c ∈ device ++ '.' :: value, isVariable c = true := by
    refine List.forall_mem_append.mpr ⟨fun c mem => ?_, List.forall_mem_cons.mpr ⟨rfl, values⟩⟩
    rcases names c mem with name | rfl
    · simp [isVariable, name]
    · rfl
  obtain ⟨word, behind⟩ := takeWhile_boundary isVariable _ tail chars ends
  have no_point : ∀ c ∈ device, decide (c ≠ '.') = true := by
    intro c mem
    simp only [decide_eq_true_eq]
    rintro rfl
    exact absurd (names '.' mem) (by decide)
  obtain ⟨before, after⟩ := takeWhile_boundary (fun c => decide (c ≠ '.')) device ('.' :: value)
    no_point (by simp)
  obtain ⟨c, t, first, listed, digit, name⟩ : ∃ c t, device ++ '.' :: value ++ tail = c :: t ∧
      c ∈ device ++ '.' :: value ∧ ¬ (isdigit c = true ∨ c = '.' ∧ t.head?.any isdigit = true) ∧
      (isalpha c = true ∨ c = '.') := by
    cases device with
    | nil =>
      obtain ⟨d, value, rfl⟩ := List.exists_cons_of_ne_nil some_value
      have next : isdigit d = false := no_digit rfl d rfl
      exact ⟨'.', d :: value ++ tail, rfl, by simp, by simp [next]; decide, .inr rfl⟩
    | cons d device =>
      have first : isalpha d = true := letter d rfl
      have other : d ≠ '.' := of_decide_eq_true (no_point d (by simp))
      exact ⟨d, device ++ '.' :: value ++ tail, rfl, by simp, by simp [letter_not_digit first, other],
        .inl first⟩
  obtain ⟨spaceless, other⟩ := operand_inked (.inr (chars c listed))
  rw [first, condition_operand defaultDevice turns op spaceless other, if_neg digit, if_pos name,
    ← first, word, behind]
  dsimp only
  rw [if_pos (by simp), before, after]
  rfl

def Side.Stops (tail : Text) : Side F → Prop
  | .number .. => Ends tail
  | .systemValue .. => ∀ c ∈ tail.head?, isVariable c = false

theorem side_first {side : Side F} (written : side.Written) :
    ∃ c t, side.text = c :: t ∧ isspace c = false ∧ c ≠ '=' := by
  have first {c : Char} {t : Text} (same : side.text = c :: t)
      (operand : isNumberChar c = true ∨ isVariable c = true) :
      ∃ c t, side.text = c :: t ∧ isspace c = false ∧ c ≠ '=' := by
    obtain ⟨inked, _, _, other, _⟩ := operand_inked operand
    exact ⟨c, t, same, inked, other⟩
  cases side with
  | number text val =>
    obtain ⟨read, _⟩ := written
    cases text with
    | nil =>
      rw [parseOperand] at read
      contradiction
    | cons c t => exact first rfl (.inl (number_chars read c (by simp)))
  | systemValue device value =>
    cases device with
    | nil => exact first rfl (.inr rfl)
    | cons c device =>
      refine first rfl (.inr ?_)
      rcases written.1 c (by simp) with name | rfl
      · simp [isVariable, name]
      · rfl

theorem condition_side {side : Side F} (written : side.Written) (unsigned : side.Unsigned)
    {spaces : Text} (blank : ∀ s ∈ spaces, isspace s = true) {tail : Text} (stops : side.Stops tail) :
    parseCondition defaultDevice (turns + 1) op (spaces ++ (side.text ++ tail)) =
      parseCondition defaultDevice turns (some (side.operand defaultDevice)) tail := by
  obtain ⟨c, t, first, inked, _⟩ := side_first written
  rw [first, List.cons_append, condition_skip defaultDevice turns op blank inked, ← List.cons_append,
    ← first]
  cases side with
  | number text val =>
    obtain ⟨read, chars, _⟩ := written
    rw [Side.text, condition_number defaultDevice turns op unsigned chars stops, read]
    rfl
  | systemValue device value => exact condition_value defaultDevice turns op written stops

theorem condition_signed {side : Side F} (written : side.Written) (signed : ¬ side.Unsigned)
    {spaces : Text} (blank : ∀ s ∈ spaces, isspace s = true) (tail : Text) :
    parseCondition defaultDevice (turns + 1) op (spaces ++ (side.text ++ tail)) = .error .error := by
  cases side with
  | systemValue device value => exact absurd trivial signed
  | number text val =>
    obtain ⟨_, _, starts | ⟨sign, t, same, minus, _⟩⟩ := written
    · exact absurd starts signed
    · have inked : isspace sign = false := by rcases minus with rfl | rfl <;> rfl
      have other : sign ≠ ')' ∧ sign ≠ '(' ∧ sign ≠ '=' ∧ sign ≠ '>' ∧ sign ≠ '<' := by
        rcases minus with rfl | rfl <;> decide
      have no_digit : ¬ (isdigit sign = true ∨ sign = '.' ∧ (t ++ tail).head?.any isdigit = true) := by
        rcases minus with rfl | rfl <;> simp <;> decide
      have no_name : ¬ (isalpha sign = true ∨ sign = '.') := by
        rcases minus with rfl | rfl <;> decide
      rw [Side.text, same, List.cons_append, condition_skip defaultDevice turns op blank inked,
        condition_operand defaultDevice turns op inked other, if_neg no_digit, if_neg no_name]

theorem skip_length (t : Text) : (skip t).length ≤ t.length := List.length_dropWhile_le ..

theorem condition_shorter {turns : Nat} {op cond : Option (Condition F)} {t rest : Text}
    (some_text : t ≠ []) (read : parseCondition defaultDevice turns op t = .ok (cond, rest)) :
    rest.length < (skip t).length := by
  induction turns generalizing op cond t rest with
  | zero => contradiction
  | succ turns ih =>
    have later {op cond : Option (Condition F)} {u rest : Text}
        (read : parseCondition defaultDevice turns op u = .ok (cond, rest)) :
        rest.length ≤ u.length := by
      by_cases none : u = []
      · subst none
        cases turns with
        | zero => contradiction
        | succ turns =>
          cases read
          exact le_refl 0
      · exact (ih none read).le.trans (skip_length u)
    have inked {c : Char} {t' : Text} (same : skip t = c :: t') : isspace c = false := by
      have stops := List.head?_dropWhile_not isspace t
      rw [show t.dropWhile isspace = c :: t' from same] at stops
      exact Bool.eq_false_iff.mpr fun space => by simp [space] at stops
    rw [parseCondition, if_neg some_text] at read
    split at read
    · contradiction
    · rename_i t' same
      rw [same]
      cases op with
      | none => contradiction
      | some op =>
        cases read
        exact Nat.lt_succ_self _
    · rename_i t' same
      rw [same]
      exact Nat.lt_succ_of_le ((later read).trans (skip_length t'))
    · rename_i c t' _ _ same
      rw [same]
      refine Nat.lt_succ_of_le ?_
      split at read
      · split at read
        · rename_i op' cmp t'' compares
          have shorter : t''.length ≤ t'.length := by
            unfold comparator at compares
            split at compares
            · cases compares
              exact Nat.le_succ _
            · split at compares
              · cases compares
                exact le_rfl
              · split at compares
                · cases compares
                  exact le_rfl
                · contradiction
          split at read
          · rename_i op2 t₂ second
            cases read
            exact (later second).trans ((skip_length t'').trans shorter)
          · contradiction
        · contradiction
      · split at read
        · dsimp only at read
          split at read
          · have behind : (c :: t').dropWhile (!isspace ·) = t'.dropWhile (!isspace ·) :=
              List.dropWhile_cons_of_pos (by rw [inked same]; rfl)
            rw [behind] at read
            exact (later read).trans (List.length_dropWhile_le ..)
          · contradiction
        · split at read
          · rename_i name
            have variable_ : isVariable c = true := by
              rcases name with letter | rfl
              · simp [isVariable, isalnum, letter]
              · rfl
            have behind : (c :: t').dropWhile isVariable = t'.dropWhile isVariable :=
              List.dropWhile_cons_of_pos variable_
            dsimp only at read
            rw [behind] at read
            have all {op cond : Option (Condition F)} {rest : Text}
                (read : parseCondition defaultDevice turns op (t'.dropWhile isVariable) =
                  .ok (cond, rest)) : rest.length ≤ t'.length :=
              (later read).trans (List.length_dropWhile_le ..)
            split at read
            · exact all read
            · exact all read
          · contradiction

variable {c : Comparison F}

theorem skip_side {side : Side F} (written : side.Written) {spaces : Text}
    (blank : ∀ s ∈ spaces, isspace s = true) (tail : Text) :
    skip (spaces ++ (side.text ++ tail)) = side.text ++ tail := by
  obtain ⟨c, t, first, inked, _⟩ := side_first written
  rw [skip_spaces blank, first, List.cons_append, skip_cons inked]

theorem side_stops {side : Side F} {spaces : Text} (blank : ∀ s ∈ spaces, isspace s = true)
    (spaced : side.isNumber = true → spaces ≠ []) {c : Char} (other : isVariable c = false)
    (t : Text) : side.Stops (spaces ++ c :: t) := by
  cases side with
  | number text val =>
    obtain ⟨s, spaces, rfl⟩ := List.exists_cons_of_ne_nil (spaced rfl)
    intro d first
    rw [← Option.some.inj first]
    exact blank s (by simp)
  | systemValue device value =>
    intro d first
    cases spaces with
    | nil => rwa [← Option.some.inj first]
    | cons s spaces =>
      rw [← Option.some.inj first]
      refine Bool.eq_false_iff.mpr fun name => ?_
      have space := operand_not_space (.inr name)
      rw [blank s (by simp)] at space
      contradiction

theorem side_glued {side : Side F} (written : side.Written) (number : side.isNumber = true)
    (unsigned : side.Unsigned) {c : Char} (other : isNumberChar c = false)
    (behind : isspace c = false) (t : Text) :
    parseCondition defaultDevice (turns + 1) op (side.text ++ c :: t) = .error .error := by
  cases side with
  | number text val =>
    exact condition_glued defaultDevice turns op unsigned written.2.1 other behind
  | systemValue device value => contradiction

theorem condition_left (written : c.Written) (tail : Text) :
    parseCondition defaultDevice (turns + 2) none
        (c.left.text ++ (c.afterLeft ++ (c.cmp.symbol ++ (c.beforeRight ++ (c.right.text ++ tail))))) =
      if c.left.Unsigned ∧ (c.left.isNumber = true → c.afterLeft ≠ []) then
        match parseCondition defaultDevice turns none (c.right.text ++ tail) with
        | .ok (op2, t) => .ok (some (.equation (c.left.operand defaultDevice) c.cmp op2), t)
        | .error stop => .error stop
      else .error .error := by
  have blank : ∀ s ∈ ([] : Text), isspace s = true := by simp
  obtain ⟨r, t, first, inked, no_equals⟩ := side_first written.right
  have other : (c.beforeRight ++ (c.right.text ++ tail)).head? ≠ some '=' := by
    cases spaces : c.beforeRight with
    | nil =>
      rw [first]
      exact fun same => no_equals (Option.some.inj same)
    | cons s rest =>
      intro same
      have space := written.beforeRight s (by rw [spaces]; simp)
      rw [Option.some.inj same] at space
      exact absurd space (by decide)
  obtain ⟨o, symbol, same, operator, _⟩ := comparator_symbol c.cmp other
  obtain ⟨no_space, no_number, no_name⟩ : isspace o = false ∧ isNumberChar o = false ∧
      isVariable o = false := by
    rcases operator with rfl | rfl | rfl <;> decide
  split
  · rename_i delimited
    have stops : c.left.Stops (c.afterLeft ++ (c.cmp.symbol ++ (c.beforeRight ++
        (c.right.text ++ tail)))) := by
      rw [same]
      exact side_stops written.afterLeft delimited.2 no_name symbol
    have left := condition_side defaultDevice (turns + 1) none written.left delimited.1 blank stops
    rw [List.nil_append] at left
    rw [left, same, condition_skip defaultDevice turns _ written.afterLeft no_space, ← same,
      condition_compares defaultDevice turns _ c.cmp other, skip_side written.right written.beforeRight]
  · rename_i loose
    by_cases unsigned : c.left.Unsigned
    · obtain ⟨number, glued⟩ : c.left.isNumber = true ∧ c.afterLeft = [] := by
        by_contra apart
        exact loose ⟨unsigned, fun number glued => apart ⟨number, glued⟩⟩
      rw [glued, List.nil_append, same]
      exact side_glued defaultDevice (turns + 1) none written.left number unsigned no_number no_space
        symbol
    · exact condition_signed defaultDevice (turns + 1) none written.left unsigned blank _

theorem condition_right (written : c.Written) (rest : Text) :
    parseCondition defaultDevice (turns + 2) none
        (c.right.text ++ (c.afterRight ++ ')' :: rest)) =
      if c.right.Unsigned ∧ (c.right.isNumber = true → c.afterRight ≠ []) then
        .ok (some (c.right.operand defaultDevice), rest)
      else .error .error := by
  have blank : ∀ s ∈ ([] : Text), isspace s = true := by simp
  split
  · rename_i delimited
    have right := condition_side defaultDevice (turns + 1) none written.right delimited.1 blank
      (side_stops written.afterRight delimited.2 (c := ')') (by decide) rest)
    rw [List.nil_append] at right
    rw [right, condition_skip defaultDevice turns _ written.afterRight (by decide), condition_close]
  · rename_i loose
    by_cases unsigned : c.right.Unsigned
    · obtain ⟨number, glued⟩ : c.right.isNumber = true ∧ c.afterRight = [] := by
        by_contra apart
        exact loose ⟨unsigned, fun number glued => apart ⟨number, glued⟩⟩
      rw [glued, List.nil_append]
      exact side_glued defaultDevice (turns + 1) none written.right number unsigned (by decide)
        (by decide) rest
    · exact condition_signed defaultDevice (turns + 1) none written.right unsigned blank _

theorem condition_bare (written : c.Written) {rest : Text} (ends : Ends rest) :
    (∃ op2 t, parseCondition defaultDevice (turns + 2) none (c.right.text ++ rest) = .ok (op2, t) ∧
      op2 = some (c.right.operand defaultDevice) ∧ Same t rest) ↔ c.right.Unsigned ∧ rest = [] := by
  have blank : ∀ s ∈ ([] : Text), isspace s = true := by simp
  have stops : c.right.Stops rest := by
    cases right : c.right with
    | number text val => exact ends
    | systemValue device value =>
      refine fun d first => Bool.eq_false_iff.mpr fun name => ?_
      have space := operand_not_space (.inr name)
      exact absurd ((ends d first).symm.trans space) (by decide)
  by_cases unsigned : c.right.Unsigned
  · have right := condition_side defaultDevice (turns + 1) none written.right unsigned blank stops
    rw [List.nil_append] at right
    rw [right]
    constructor
    · rintro ⟨op2, t, read, _, same⟩
      refine ⟨unsigned, ?_⟩
      by_contra some_text
      have shorter := condition_shorter defaultDevice some_text read
      rw [← same] at shorter
      exact absurd (skip_length t) (not_le.mpr shorter)
    · rintro ⟨_, rfl⟩
      exact ⟨_, [], rfl, rfl, rfl⟩
  · have signed := condition_signed defaultDevice (turns + 1) none written.right unsigned blank rest
    rw [List.nil_append] at signed
    rw [signed]
    refine iff_of_false ?_ fun both => unsigned both.1
    rintro ⟨_, _, read, _⟩
    cases read

theorem reads_brackets (written : c.Written) {spaces : Text}
    (blank : ∀ s ∈ spaces, isspace s = true) (rest : Text) :
    c.Reads defaultDevice (spaces ++ c.text true rest) rest ↔ c.Delimited true rest := by
  obtain ⟨l, lt, left, no_space, _⟩ := side_first written.left
  obtain ⟨r, rt, right, _⟩ := side_first written.right
  have symbol : 1 ≤ c.cmp.symbol.length := by cases c.cmp <;> decide
  obtain ⟨turns, enough⟩ : ∃ turns, (spaces ++ c.text true rest).length + 1 = turns + 5 := by
    refine ⟨(spaces ++ c.text true rest).length - 4, ?_⟩
    simp [Comparison.text, left, right]
    omega
  unfold Comparison.Reads Comparison.Delimited
  rw [enough, skip_spaces blank]
  simp only [Comparison.text, if_true]
  rw [skip_cons (by decide), condition_open, skip_side written.left written.before,
    condition_left defaultDevice _ written, condition_right defaultDevice _ written]
  constructor
  · rintro ⟨t, read, _⟩
    split at read
    · rename_i first
      split at read
      · rename_i op2 t' second
        split at second
        · rename_i last
          exact ⟨⟨first.1, last.1⟩, first.2, last.2⟩
        · cases second
      · cases read
    · cases read
  · rintro ⟨⟨left, right⟩, afterLeft, afterRight⟩
    rw [if_pos ⟨left, afterLeft⟩, if_pos ⟨right, afterRight⟩]
    exact ⟨rest, rfl, rfl⟩

theorem reads_bare (written : c.Written) {spaces : Text} (blank : ∀ s ∈ spaces, isspace s = true)
    {rest : Text} (ends : Ends rest) :
    c.Reads defaultDevice (spaces ++ c.text false rest) rest ↔ c.Delimited false rest := by
  obtain ⟨l, lt, left, no_space, _⟩ := side_first written.left
  obtain ⟨r, rt, right, _⟩ := side_first written.right
  have symbol : 1 ≤ c.cmp.symbol.length := by cases c.cmp <;> decide
  obtain ⟨turns, enough⟩ : ∃ turns, (spaces ++ c.text false rest).length + 1 = turns + 4 := by
    refine ⟨(spaces ++ c.text false rest).length - 3, ?_⟩
    simp [Comparison.text, left, right]
    omega
  have bare := condition_bare defaultDevice turns written ends
  unfold Comparison.Reads Comparison.Delimited
  rw [enough, skip_spaces blank]
  simp only [Comparison.text, Bool.false_eq_true, if_false]
  rw [left, List.cons_append, skip_cons no_space, ← List.cons_append, ← left,
    condition_left defaultDevice _ written]
  constructor
  · rintro ⟨t, read, same⟩
    split at read
    · rename_i first
      split at read
      · rename_i op2 t' second
        cases read
        obtain ⟨unsigned, ended⟩ := bare.mp ⟨_, t, second, rfl, same⟩
        exact ⟨⟨first.1, unsigned⟩, first.2, ended⟩
      · cases read
    · cases read
  · rintro ⟨⟨left, right⟩, afterLeft, ended⟩
    obtain ⟨op2, t, second, rfl, same⟩ := bare.mpr ⟨right, ended⟩
    rw [if_pos ⟨left, afterLeft⟩, second]
    exact ⟨t, rfl, same⟩

/-- Whatever stands around its parts, a condition is read as the comparison that is written, up to
its end, if and only if no side has a sign, a number has white space behind it, and a condition
without brackets ends the script. -/
theorem condition_extent_iff (defaultDevice : Text) (c : Comparison F) (written : c.Written)
    (brackets : Bool) {spaces : Text} (blank : ∀ s ∈ spaces, isspace s = true) (rest : Text)
    (ends : brackets = false → Ends rest) :
    c.Reads defaultDevice (spaces ++ c.text brackets rest) rest ↔ c.Delimited brackets rest := by
  cases brackets with
  | true => exact reads_brackets defaultDevice written blank rest
  | false => exact reads_bare defaultDevice written blank (ends rfl)

end

def azimuthBelow (afterRight : Text) : Comparison ℤ where
  left := .systemValue ['T', '0'] ['A', 'Z']
  cmp := .CMP_LESS
  right := .number ['5'] 5
  before := []
  afterLeft := []
  beforeRight := [' ']
  afterRight := afterRight

theorem azimuthBelow_written {afterRight : Text} (blank : ∀ s ∈ afterRight, isspace s = true) :
    (azimuthBelow afterRight).Written where
  left := by
    refine ⟨?_, ?_, ?_, ?_, ?_⟩ <;> simp [azimuthBelow] <;> decide
  right := by
    refine ⟨?_, List.forall_mem_singleton.mpr rfl, .inl rfl⟩
    rw [parseOperand]
    rfl
  before := by simp [azimuthBelow]
  afterLeft := by simp [azimuthBelow]
  beforeRight := List.forall_mem_singleton.mpr rfl
  afterRight := blank

theorem condition_extent_sample :
    (azimuthBelow [' ']).Reads ['C', '0'] ([' '] ++ (azimuthBelow [' ']).text true [' ', '3']) [' ', '3'] ↔
      (azimuthBelow [' ']).Delimited true [' ', '3'] :=
  condition_extent_iff ['C', '0'] (azimuthBelow [' '])
    (azimuthBelow_written (List.forall_mem_singleton.mpr rfl)) true
    (List.forall_mem_singleton.mpr rfl) [' ', '3'] (fun other => by cases other)

/-- The exposure behind the condition of a do is taken for a part of it, and its time for the right
side. -/
theorem condition_swallows : ¬ ∀ (c : Comparison ℤ) (brackets : Bool) (spaces rest : Text),
    c.Written → (∀ s ∈ spaces, isspace s = true) → (brackets = false → Ends rest) →
      c.Reads ['C', '0'] (spaces ++ c.text brackets rest) rest := by
  intro law
  have written : (azimuthBelow [] : Comparison ℤ).Written := azimuthBelow_written (by simp)
  have ends : Ends [' ', 'E', ' ', '1', '0'] := fun d first => Option.some.inj first ▸ rfl
  have reads := law (azimuthBelow []) false [] [' ', 'E', ' ', '1', '0'] written (by simp)
    fun _ => ends
  exact absurd ((reads_bare ['C', '0'] written (by simp) ends).mp reads).2.2 (by simp)

end Rts2.Scripts.Parsing
