import Rts2.Scripts.Parsing

/-! What the text that a script prints is parsed to. Each word of the text is followed by its end or
by a space, and spaces before a word are passed, so texts that differ in these are parsed alike. -/
namespace Rts2.Scripts.Parsing

open Lib

theorem isName_toNat {c : Char} (name : isName c = true) : 43 ≤ c.toNat := by
  simp only [isName, isalnum, isalpha, isdigit, Bool.or_eq_true, Bool.and_eq_true, decide_eq_true_eq,
    Char.le_def, UInt32.le_iff_toNat_le] at name
  have value : c.toNat = c.val.toNat := rfl
  rcases name with (((((letter | letter) | digit) | rfl) | rfl) | rfl) | rfl
  · simp at letter
    omega
  · simp at letter
    omega
  · simp at digit
    omega
  all_goals decide

theorem isName_not_space {c : Char} (name : isName c = true) : isspace c = false := by
  have large := isName_toNat name
  have other : c ≠ ' ' := by
    rintro rfl
    cases name
  simp [isspace, other]
  omega

structure PlainWord (w : Text) : Prop where
  some_char : w ≠ []
  no_space : ∀ c ∈ w, isspace c = false
  no_quote : ∀ c ∈ w.head?, c ≠ '"' ∧ c ≠ '\''
  no_comment : '#' ∉ w

theorem plainWord_of_name {w : Text} (some_char : w ≠ []) (name : ∀ c ∈ w, isName c = true) :
    PlainWord w := by
  refine ⟨some_char, fun c mem => isName_not_space (name c mem), fun c first => ?_, fun mem => ?_⟩
  · have plain := name c (List.mem_of_head? first)
    constructor
    · rintro rfl
      cases plain
    · rintro rfl
      cases plain
  · cases name '#' mem

theorem digit_char : ∀ b : UInt8, Lib.isDigit b = true →
    isdigit (Char.ofNat b.toNat) = true ∧ (Char.ofNat b.toNat).toNat - 48 = digitValue b := by
  decide +kernel

theorem isName_of_digit {c : Char} (digit : isdigit c = true) : isName c = true := by
  simp [isName, isalnum, digit]

theorem writeInt_name {n : Int} {c : Char} (mem : c ∈ writeInt n) : isName c = true := by
  obtain ⟨b, listed, rfl⟩ := List.mem_map.mp mem
  rcases decimalInt_bytes listed with rfl | digit
  · rfl
  · exact isName_of_digit (digit_char b digit).1

theorem writeInt_plain (n : Int) : PlainWord (writeInt n) := by
  refine plainWord_of_name ?_ fun c mem => writeInt_name mem
  simpa [writeInt] using decimalInt_ne_nil n

theorem digitsValue_decimal (n : Nat) :
    digitsValue (((decimal n).map fun b => Char.ofNat b.toNat).takeWhile isdigit) = n := by
  have all : ∀ c ∈ (decimal n).map fun b => Char.ofNat b.toNat, isdigit c = true := by
    intro c mem
    obtain ⟨b, listed, rfl⟩ := List.mem_map.mp mem
    exact (digit_char b (decimal_digits listed)).1
  have values (ds : List UInt8) (digits : ∀ b ∈ ds, Lib.isDigit b = true) (v : Nat) :
      (ds.map fun b => Char.ofNat b.toNat).foldl (fun v c => v * 10 + (c.toNat - 48)) v =
        ds.foldl (fun v c => v * 10 + digitValue c) v := by
    induction ds generalizing v with
    | nil => rfl
    | cons b ds ih =>
      obtain ⟨digit, digits⟩ := List.forall_mem_cons.mp digits
      rw [List.map_cons, List.foldl_cons, List.foldl_cons, (digit_char b digit).2, ih digits]
  rw [List.takeWhile_eq_self_iff.mpr all, digitsValue,
    values _ (fun b listed => decimal_digits listed)]
  exact readDigits_decimal n

theorem skip_plain {w : Text} (plain : PlainWord w) (tail : Text) : skip (w ++ tail) = w ++ tail := by
  obtain ⟨c, w, rfl⟩ := List.exists_cons_of_ne_nil plain.some_char
  have first := plain.no_space c (by simp)
  simp [skip, first]

theorem atoi_writeInt (n : Int) : atoi (writeInt n) = n := by
  have whole := skip_plain (writeInt_plain n) []
  rw [List.append_nil] at whole
  unfold atoi
  rw [whole]
  by_cases negative : n < 0
  · have text : writeInt n = '-' :: (decimal n.natAbs).map fun b => Char.ofNat b.toNat := by
      simp only [writeInt, decimalInt, if_pos negative, List.map_cons]
      rfl
    rw [text]
    simp only [digitsValue_decimal]
    omega
  · have text : writeInt n = (decimal n.natAbs).map fun b => Char.ofNat b.toNat := by
      simp only [writeInt, decimalInt, if_neg negative]
    have digit : ∀ c ∈ (writeInt n).head?, isdigit c = true := by
      intro c first
      have mem := List.mem_of_head? first
      rw [text] at mem
      obtain ⟨b, listed, rfl⟩ := List.mem_map.mp mem
      exact (digit_char b (decimal_digits listed)).1
    split
    · rename_i t same
      cases digit '-' (by simp [same])
    · rename_i t same
      cases digit '+' (by simp [same])
    · rw [text, digitsValue_decimal]
      omega

def Same (t t' : Text) : Prop := skip t = skip t'

def Ends (tail : Text) : Prop := ∀ c ∈ tail.head?, isspace c = true

theorem skip_skip (t : Text) : skip (skip t) = skip t := List.dropWhile_idempotent isspace t

theorem same_skip (t : Text) : Same (skip t) t := skip_skip t

theorem nextElement_same {t t' : Text} (same : Same t t') : nextElement t = nextElement t' := by
  unfold nextElement
  rw [same]

theorem isNext_same {t t' : Text} (same : Same t t') (element : Text) :
    isNext element t = isNext element t' := by
  unfold isNext
  rw [same]

theorem Ends.tail_same {tail : Text} (ends : Ends tail) : Same tail.tail tail := by
  cases tail with
  | nil => rfl
  | cons c tail =>
    have blank := ends c rfl
    simp [Same, skip, blank]

theorem nextElement_plain {w : Text} (plain : PlainWord w) {tail : Text} (ends : Ends tail) :
    nextElement (w ++ tail) = (w, tail.tail) := by
  have whole := skip_plain plain tail
  obtain ⟨c, rest, rfl⟩ := List.exists_cons_of_ne_nil plain.some_char
  obtain ⟨double, single⟩ := plain.no_quote c rfl
  have inside : ∀ d ∈ c :: rest, (!isspace d) = true := by
    intro d mem
    rw [plain.no_space d mem]
    rfl
  obtain ⟨word, behind⟩ := takeWhile_boundary (fun d => !isspace d) (c :: rest) tail inside
    (fun d first => by rw [ends d first]; rfl)
  unfold nextElement
  rw [whole]
  split
  · rename_i t same
    cases (List.cons.inj same).1
    exact absurd rfl double
  · rename_i t same
    cases (List.cons.inj same).1
    exact absurd rfl single
  · rw [wordTo, word, behind]

theorem Same.symm {t t' : Text} (same : Same t t') : Same t' t := Eq.symm same

theorem Same.trans {t t' t'' : Text} (same : Same t t') (same' : Same t' t'') : Same t t'' :=
  Eq.trans same same'

theorem same_space (t : Text) : Same (' ' :: t) t := rfl

theorem nextElement_read {w : Text} (plain : PlainWord w) {t tail : Text}
    (same : Same t (w ++ tail)) (ends : Ends tail) :
    ∃ rest, nextElement t = (w, rest) ∧ Same rest tail :=
  ⟨tail.tail, by rw [nextElement_same same, nextElement_plain plain ends], ends.tail_same⟩

variable {F : Type}

structure Floats.Writes (fl : Floats F) : Prop where
  some_char : ∀ x, fl.write x ≠ []
  name : ∀ x, ∀ c ∈ fl.write x, isName c = true

theorem Floats.Writes.plain {fl : Floats F} (writes : fl.Writes) (x : F) : PlainWord (fl.write x) :=
  plainWord_of_name (writes.some_char x) (writes.name x)

namespace Param

def kind : Param F → Kind
  | .string _ => .string
  | .integer _ => .integer
  | .float _ => .float
  | .double _ => .double

def write (fl : Floats F) : Param F → Text
  | .string val => val
  | .integer val => writeInt val
  | .float val => fl.write val
  | .double val => fl.write val

def reread (fl : Floats F) : Param F → Param F
  | .string val => .string val
  | .integer val => .integer val
  | .float val => .float (fl.narrow (fl.atof (fl.write val)))
  | .double val => .double (fl.atof (fl.write val))

def Plain : Param F → Prop
  | .string val => PlainWord val
  | _ => True

theorem Plain.word {fl : Floats F} (writes : fl.Writes) {param : Param F} (plain : param.Plain) :
    PlainWord (param.write fl) := by
  cases param with
  | string val => exact plain
  | integer val => exact writeInt_plain val
  | float val => exact writes.plain val
  | double val => exact writes.plain val

end Param

theorem getNextParam_read {fl : Floats F} (writes : fl.Writes) {param : Param F}
    (plain : param.Plain) {t tail : Text} (same : Same t (param.write fl ++ tail))
    (ends : Ends tail) :
    ∃ rest, getNextParam fl param.kind t = (some (param.reread fl), rest) ∧ Same rest tail := by
  have word := plain.word writes
  obtain ⟨rest, read, left⟩ := nextElement_read word same ends
  refine ⟨rest, ?_, left⟩
  have some_char := word.some_char
  cases param with
  | string val => simp only [getNextParam, Param.kind, Param.reread, read, Param.write]
  | integer val =>
    simp only [Param.write] at some_char read
    simp only [getNextParam, Param.kind, Param.reread, read, if_neg some_char, atoi_writeInt]
  | float val =>
    simp only [Param.write] at some_char read
    simp only [getNextParam, Param.kind, Param.reread, read, if_neg some_char]
  | double val =>
    simp only [Param.write] at some_char read
    simp only [getNextParam, Param.kind, Param.reread, read, if_neg some_char]

theorem ends_words {others : List Text} {tail : Text} (ends : Ends tail) :
    Ends (others.flatMap (' ' :: ·) ++ tail) := by
  cases others with
  | nil => exact ends
  | cons w others =>
    intro c first
    cases first
    rfl

theorem getNextParams_read {fl : Floats F} (writes : fl.Writes) {params : List (Param F)}
    (plain : ∀ param ∈ params, param.Plain) {t tail : Text}
    (same : Same t ((params.map (Param.write fl)).flatMap (' ' :: ·) ++ tail)) (ends : Ends tail) :
    ∃ rest, getNextParams fl (params.map Param.kind) t =
      (some (params.map (Param.reread fl)), rest) ∧ Same rest tail := by
  induction params generalizing t with
  | nil => exact ⟨t, rfl, same⟩
  | cons param params ih =>
    obtain ⟨plain_first, plain⟩ := List.forall_mem_cons.mp plain
    have first : Same t (param.write fl ++
        ((params.map (Param.write fl)).flatMap (' ' :: ·) ++ tail)) := by
      rw [List.map_cons, List.flatMap_cons, List.cons_append, List.cons_append,
        List.append_assoc] at same
      exact same.trans (same_space _)
    obtain ⟨rest, read, left⟩ := getNextParam_read writes plain_first first (ends_words ends)
    obtain ⟨rest', reads, left'⟩ := ih plain left
    refine ⟨rest', ?_, left'⟩
    simp only [List.map_cons, getNextParams, read, reads, Option.map_some]

def plainName (w : Text) : Bool :=
  !w.isEmpty && w.all fun c =>
    !isspace c && !isOperator c && c ≠ '.' && c ≠ '"' && c ≠ '\'' && c ≠ '#'

theorem plainName_spec {w : Text} (plain : plainName w = true) :
    PlainWord w ∧ '.' ∉ w ∧ ∀ c ∈ w, isOperator c = false := by
  simp only [plainName, Bool.and_eq_true, List.all_eq_true, Bool.not_eq_true', decide_eq_true_eq,
    List.isEmpty_eq_false_iff] at plain
  obtain ⟨some_char, plain⟩ := plain
  refine ⟨⟨some_char, fun c mem => ?_, fun c first => ?_, fun mem => ?_⟩, fun mem => ?_, fun c mem => ?_⟩
  · exact (plain c mem).1.1.1.1.1
  · have all := plain c (List.mem_of_head? first)
    exact ⟨all.1.1.2, all.1.2⟩
  · exact (plain '#' mem).2 rfl
  · exact (plain '.' mem).1.1.1.2 rfl
  · exact (plain c mem).1.1.1.1.2

theorem keywords_plain : keywords.all (fun entry => plainName entry.1) = true := by
  decide

theorem keywordOf_mem {name : Text} {keyword : Keyword} (known : keywordOf name = some keyword) :
    (name, keyword) ∈ keywords := by
  obtain ⟨entry, found, rfl⟩ := Option.map_eq_some_iff.mp known
  have same : entry.1 = name := by simpa using List.find?_some found
  rw [← same]
  exact List.mem_of_find?_eq_some found

theorem keywordOf_operator {word : Text} {c : Char} (mem : c ∈ word) (operator : isOperator c = true) :
    keywordOf word = none := by
  cases known : keywordOf word with
  | none => rfl
  | some keyword =>
    have plain := (plainName_spec (List.all_eq_true.mp keywords_plain _ (keywordOf_mem known))).2.2
    rw [plain c mem] at operator
    cases operator

theorem takeWhile_point {word : Text} (no_point : '.' ∉ word) : word.takeWhile (· ≠ '.') = word := by
  apply List.takeWhile_eq_self_iff.mpr
  intro c mem
  simp only [decide_eq_true_eq]
  rintro rfl
  exact no_point mem

theorem splitDevice_none (defaultDevice : Text) {word : Text} (no_point : '.' ∉ word) :
    splitDevice defaultDevice word = (defaultDevice, word) := by
  unfold splitDevice
  rw [takeWhile_point no_point]
  simp

section

variable [NatCast F] [Add F] [Mul F] [Div F] [Neg F]
variable (fl : Floats F) (defaultDevice : Text)
variable (parseBlock : Text → Except Stop (List (Element F) × Text))

theorem parseBuf_keyword {name : Text} {keyword : Keyword} (known : keywordOf name = some keyword)
    {t tail : Text} (same : Same t (name ++ tail)) (ends : Ends tail) :
    parseBuf fl defaultDevice parseBlock t =
      parseKeyword fl defaultDevice parseBlock defaultDevice keyword tail.tail := by
  obtain ⟨plain, no_point, -⟩ :=
    plainName_spec (List.all_eq_true.mp keywords_plain _ (keywordOf_mem known))
  have read : nextElement t = (name, tail.tail) := by
    rw [nextElement_same same, nextElement_plain plain ends]
  simp only [parseBuf, read, splitDevice_none defaultDevice no_point, if_neg plain.some_char, known]

end

def Element.written : Element F → Option (Text × Keyword × List (Param F))
  | .sequence filter repeats expTime =>
    some ("SEQUENCE".toList, .SEQUENCE, [.string filter, .integer repeats, .float expTime])
  | .image expTime => some ("I".toList, .IMAGE, [.float expTime])
  | .expose expTime => some ("E".toList, .EXPOSURE, [.float expTime])
  | .dark expTime => some ("D".toList, .DARK, [.float expTime])
  | .shiftStoreStart expTime => some ("STARTSHIFT".toList, .SHIFTSTART, [.float expTime])
  | .shiftStoreProgress shift expTime =>
    some ("DOSHIFT".toList, .SHIFTPROGRESS, [.integer shift, .float expTime])
  | .shiftStoreEnd shift expTime =>
    some ("ENDSHIFT".toList, .SHIFTEND, [.integer shift, .float expTime])
  | .box _ y w h => some ("BOX".toList, .BOX, [.integer y, .integer y, .integer w, .integer h])
  | .change _ ra dec => some ("C".toList, .CHANGE, [.double ra, .double dec])
  | .wait => some ("W".toList, .WAIT, [])
  | .waitAcquire => some ("Aw".toList, .WAIT_ACQUIRE, [])
  | .sendSignal sig => some ("SS".toList, .SEND_SIGNAL, [.integer sig])
  | .waitSignal sig => some ("SW".toList, .WAIT_SIGNAL, [.integer sig])
  | _ => none

def Keyword.isSimple : Keyword → Bool
  | .BLOCK_WAITSIG | .BLOCK_ACQ | .BLOCK_END | .BLOCK_FOR | .BLOCK_WHILE | .BLOCK_DO | .BLOCK_ONCE
  | .COMMAND | .OTHER => false
  | _ => true

theorem written_spec {e : Element F} {name : Text} {keyword : Keyword} {params : List (Param F)}
    (written : e.written = some (name, keyword, params)) :
    keywordOf name = some keyword ∧ keyword.isSimple = true ∧
      keyword.kinds = params.map Param.kind := by
  cases e <;> simp only [Element.written, Option.some.injEq, Prod.mk.injEq, reduceCtorEq] at written
  all_goals
    obtain ⟨rfl, rfl, rfl⟩ := written
    exact ⟨by decide, rfl, rfl⟩

theorem print_written [NatCast F] (fl : Floats F) (around : Surroundings F) {e : Element F}
    {name : Text} {keyword : Keyword} {params : List (Param F)}
    (written : e.written = some (name, keyword, params)) :
    printElement fl around e = some (words name (params.map (Param.write fl))) := by
  cases e <;> simp only [Element.written, Option.some.injEq, Prod.mk.injEq, reduceCtorEq] at written
  all_goals
    obtain ⟨rfl, rfl, rfl⟩ := written
    rw [printElement]
    rfl

section

variable [NatCast F] [Add F] [Mul F] [Div F] [Neg F]
variable {fl : Floats F} (defaultDevice : Text)
variable (parseBlock : Text → Except Stop (List (Element F) × Text))

theorem parseKeyword_simple {keyword : Keyword} (simple : keyword.isSimple = true) (device t : Text) :
    parseKeyword fl defaultDevice parseBlock device keyword t =
      match getNextParams fl keyword.kinds t with
      | (none, t) => .ok (none, t)
      | (some params, t) => .ok (keyword.make device params, t) := by
  cases keyword <;> first | rfl | cases simple

theorem parseBuf_written (writes : fl.Writes) {e : Element F} {name : Text} {keyword : Keyword}
    {params : List (Param F)} (written : e.written = some (name, keyword, params))
    (plain : ∀ param ∈ params, param.Plain) {t tail : Text}
    (same : Same t (words name (params.map (Param.write fl)) ++ tail)) (ends : Ends tail) :
    ∃ rest, parseBuf fl defaultDevice parseBlock t =
      .ok (keyword.make defaultDevice (params.map (Param.reread fl)), rest) ∧ Same rest tail := by
  obtain ⟨known, simple, kinds⟩ := written_spec written
  have behind : Ends ((params.map (Param.write fl)).flatMap (' ' :: ·) ++ tail) := ends_words ends
  rw [words, List.append_assoc] at same
  obtain ⟨rest, read, left⟩ := getNextParams_read writes plain behind.tail_same ends
  refine ⟨rest, ?_, left⟩
  rw [parseBuf_keyword fl defaultDevice parseBlock known same behind,
    parseKeyword_simple defaultDevice parseBlock simple, kinds, read]

end

structure OperandName (str : Text) : Prop where
  name : ∀ c ∈ str, isName c = true
  first : ∃ c ∈ str.head?, isdigit c = false ∧ c ≠ '-' ∧ c ≠ '+' ∧ c ≠ '.'
  no_rand : str ≠ "rand".toList

def FormedOperand : Operand F → Prop
  | .string str => OperandName str.toList
  | _ => True

theorem writeOperand_name {fl : Floats F} (writes : fl.Writes) {around : Surroundings F}
    {operand : Operand F} (formed : FormedOperand operand) {text : Text}
    (written : writeOperand fl around operand = some text) : ∀ c ∈ text, isName c = true := by
  cases operand with
  | number val =>
    cases written
    exact writes.name val
  | string str =>
    cases written
    exact formed.name
  | randomNumber _from _to =>
    obtain ⟨val, -, rfl⟩ := Option.map_eq_some_iff.mp written
    exact writes.name val

section

variable [NatCast F] [Add F] [Mul F] [Div F] [Neg F]

def KeepsOperand (fl : Floats F) : Operand F → Prop
  | .number val => parseOperand 0 (fl.write val) = some (.number val)
  | .string _ => True
  | .randomNumber _ _ => False

theorem splitStep_name {s : Split} {c : Char} (name : isName c = true) (quotes : s.quotes = .NONE)
    (simple : s.simple_braces = 0) (curved : s.curved_braces = 0) (bracked : s.bracked = false)
    (first : Bool) : splitStep first s c = some { s with current := s.current ++ [c] } := by
  have other : c ≠ '(' ∧ c ≠ ')' ∧ c ≠ '{' ∧ c ≠ '}' ∧ c ≠ '\'' ∧ c ≠ '"' ∧ c ≠ ',' := by
    refine ⟨?_, ?_, ?_, ?_, ?_, ?_, ?_⟩ <;>
    · rintro rfl
      cases name
  obtain ⟨round, round', curly, curly', single, double, comma⟩ := other
  obtain ⟨bracked, simple_braces, curved_braces, quotes, current, ops⟩ := s
  simp_all [splitStep]

theorem splitOperands_name {text : Text} (name : ∀ c ∈ text, isName c = true) (first : Bool)
    (current : Text) :
    splitOperands first ⟨false, 0, 0, .NONE, current, []⟩ text =
      some ⟨false, 0, 0, .NONE, current ++ text, []⟩ := by
  induction text generalizing first current with
  | nil => simp [splitOperands]
  | cons c text ih =>
    obtain ⟨name_c, name⟩ := List.forall_mem_cons.mp name
    rw [splitOperands, splitStep_name name_c rfl rfl rfl rfl]
    simpa using ih name false (current ++ [c])

theorem parseOperands_name (depth : Nat) {text : Text} (name : ∀ c ∈ text, isName c = true) :
    parseOperands (F := F) depth text = (parseOperand depth text).map ([·]) := by
  rw [parseOperands, splitOperands_name name]
  simp only [Bool.false_eq_true, if_false, List.nil_append, List.mapM_cons, List.mapM_nil]
  cases parseOperand (F := F) depth text <;> rfl

theorem skip_name {text : Text} (name : ∀ c ∈ text, isName c = true) : skip text = text := by
  cases text with
  | nil => rfl
  | cons c text =>
    have blank := isName_not_space (name c (by simp))
    simp [skip, blank]

theorem parseOperand_name (depth : Nat) {text : Text} (name : ∀ c ∈ text, isName c = true) :
    parseOperand (F := F) depth text =
      if text.head?.any fun c => isdigit c || c = '-' || c = '+' || c = '.' then
        (readNumber (text.length + 1) ((0 : ℕ) : F) text).map .number
      else if text = [] ∨ text = "rand".toList then none
      else some (.string (String.ofList text)) := by
  rw [parseOperand, skip_name name]
  cases text with
  | nil => rfl
  | cons c t =>
    have whole : (c :: t).takeWhile isName = c :: t := List.takeWhile_eq_self_iff.mpr name
    dsimp only
    rw [whole]
    cases number : isdigit c || c = '-' || c = '+' || c = '.' with
    | true => simp only [List.head?_cons, Option.any_some, number, if_true]
    | false =>
      by_cases rand : c :: t = "rand".toList
      · obtain ⟨rfl, rfl⟩ : c = 'r' ∧ t = ['a', 'n', 'd'] := by simpa using rand
        have none_read : parseOperand (F := F) (depth - 1) [] = none := by
          rw [parseOperand]
          rfl
        cases depth with
        | zero => rfl
        | succ depth =>
          have nothing : parseOperands (F := F) depth [] = (parseOperand depth []).map ([·]) :=
            parseOperands_name depth (by simp)
          rw [Nat.add_sub_cancel] at none_read
          rw [none_read] at nothing
          simp [nothing, isdigit]
      · simp only [List.head?_cons, Option.any_some, number, rand, Bool.false_eq_true, if_false,
          lt_irrefl, reduceCtorEq, or_false]

theorem parseOperand_written {fl : Floats F} (writes : fl.Writes) {around : Surroundings F}
    {operand : Operand F} (formed : FormedOperand operand) {text : Text}
    (written : writeOperand fl around operand = some text) (depth : Nat) :
    parseOperand depth text = some operand ↔ KeepsOperand fl operand := by
  have name := writeOperand_name writes formed written
  rw [parseOperand_name depth name]
  cases operand with
  | number val =>
    obtain rfl : fl.write val = text := Option.some.inj written
    rw [KeepsOperand, parseOperand_name 0 name]
  | string str =>
    obtain rfl : str.toList = text := Option.some.inj written
    obtain ⟨-, ⟨c, first, digit, minus, plus, point⟩, no_rand⟩ := formed
    refine iff_of_true ?_ trivial
    have some_char : str.toList ≠ [] := by
      intro none
      rw [none] at first
      cases first
    have no_number : (str.toList.head?.any fun c => isdigit c || c = '-' || c = '+' || c = '.') =
        false := by
      rw [show str.toList.head? = some c from first]
      simp [digit, minus, plus, point]
    simp only [no_number, Bool.false_eq_true, if_false, some_char, no_rand, or_self,
      String.ofList_toList]
  | randomNumber _from _to =>
    refine iff_of_false (fun read => ?_) id
    split at read
    · obtain ⟨val', -, same⟩ := Option.map_eq_some_iff.mp read
      cases same
    · split at read <;> cases read

end

structure NamedValue (device valName : Text) : Prop where
  name : ∀ c ∈ valName, isOperator c = false ∧ isspace c = false ∧ c ≠ '#'
  device : (device = [] ∧ '.' ∉ valName ∧ ∀ c ∈ valName.head?, c ≠ '"' ∧ c ≠ '\'') ∨
    (PlainWord device ∧ '.' ∉ device ∧ '=' ∉ device ∧ device.length ≤ 49)

def valueWord (device valName : Text) (op : Char) (text : Text) : Text :=
  (if device.isEmpty then [] else device ++ ['.']) ++ valName ++ op :: text

theorem operator_cases {c : Char} (operator : isOperator c = true) : c = '+' ∨ c = '-' ∨ c = '=' := by
  simpa [isOperator, or_assoc] using operator

theorem valueWord_plain {device valName text : Text} {op : Char} (named : NamedValue device valName)
    (operator : isOperator op = true) (name : ∀ c ∈ text, isName c = true) :
    PlainWord (valueWord device valName op text) := by
  have plain_op : isspace op = false ∧ op ≠ '#' ∧ op ≠ '"' ∧ op ≠ '\'' := by
    rcases operator_cases operator with rfl | rfl | rfl <;> decide
  have behind : ∀ c ∈ valName ++ op :: text, isspace c = false ∧ c ≠ '#' := by
    intro c mem
    rcases List.mem_append.mp mem with mem | mem
    · exact (named.name c mem).2
    · rcases List.mem_cons.mp mem with rfl | mem
      · exact ⟨plain_op.1, plain_op.2.1⟩
      · exact ⟨isName_not_space (name c mem), by rintro rfl; cases name '#' mem⟩
  rcases named.device with ⟨rfl, -, no_quote⟩ | ⟨plain, -, -, -⟩
  · refine ⟨by simp [valueWord], fun c mem => ?_, fun c first => ?_, fun mem => ?_⟩
    · exact (behind c (by simpa [valueWord] using mem)).1
    · cases valName with
      | nil =>
        cases first
        exact plain_op.2.2
      | cons d valName =>
        cases first
        exact no_quote _ rfl
    · exact (behind '#' (by simpa [valueWord] using mem)).2 rfl
  · have some_device : device.isEmpty = false := by simpa using plain.some_char
    have word : valueWord device valName op text = device ++ '.' :: (valName ++ op :: text) := by
      simp [valueWord, some_device]
    obtain ⟨d, device, rfl⟩ := List.exists_cons_of_ne_nil plain.some_char
    rw [word]
    refine ⟨by simp, fun c mem => ?_, fun c first => plain.no_quote c first, fun mem => ?_⟩
    · rcases List.mem_append.mp mem with mem | mem
      · exact plain.no_space c mem
      · rcases List.mem_cons.mp mem with rfl | mem
        · decide
        · exact (behind c mem).1
    · rcases List.mem_append.mp mem with mem | mem
      · exact plain.no_comment mem
      · rcases List.mem_cons.mp mem with same | mem
        · cases same
        · exact (behind '#' mem).2 rfl

def readDevice (defaultDevice device : Text) : Text :=
  if device.isEmpty then defaultDevice else device

theorem splitDevice_value (defaultDevice : Text) {device valName text : Text}
    (named : NamedValue device valName) :
    splitDevice defaultDevice (valueWord device valName '=' text) =
      (readDevice defaultDevice device, valName ++ '=' :: text) := by
  rcases named.device with ⟨rfl, no_point, -⟩ | ⟨plain, no_point, no_equals, short⟩
  · have before : (valName ++ '=' :: text).takeWhile (· ≠ '.') =
        valName ++ '=' :: text.takeWhile (· ≠ '.') := by
      rw [List.takeWhile_append_of_pos fun c mem => ?_]
      · simp
      · simp only [decide_eq_true_eq]
        rintro rfl
        exact no_point mem
    have word : valueWord [] valName '=' text = valName ++ '=' :: text := by
      simp [valueWord]
    rw [word]
    unfold splitDevice
    rw [before, if_neg fun both => both.2 (by simp)]
    rfl
  · have some_device : device.isEmpty = false := by simpa using plain.some_char
    have inside : ∀ c ∈ device, decide (c ≠ '.') = true := by
      intro c mem
      simp only [decide_eq_true_eq]
      rintro rfl
      exact no_point mem
    have word : valueWord device valName '=' text = device ++ '.' :: (valName ++ '=' :: text) := by
      simp [valueWord, some_device]
    obtain ⟨before, behind⟩ := takeWhile_boundary (fun c => decide (c ≠ '.')) device
      ('.' :: (valName ++ '=' :: text)) inside (by simp)
    rw [word]
    unfold splitDevice
    rw [before, behind]
    simp [no_equals, readDevice, some_device, List.take_of_length_le short]

theorem valueWord_no_equals {device valName text : Text} {op : Char}
    (named : NamedValue device valName) (other : op ≠ '=') (name : ∀ c ∈ text, isName c = true) :
    '=' ∉ valueWord device valName op text := by
  intro mem
  rcases List.mem_append.mp mem with mem | mem
  · rcases List.mem_append.mp mem with mem | mem
    · rcases named.device with ⟨rfl, -, -⟩ | ⟨-, -, no_equals, -⟩
      · cases mem
      · split at mem
        · cases mem
        · exact no_equals (by simpa using mem)
    · cases (named.name '=' mem).1
  · rcases List.mem_cons.mp mem with same | mem
    · exact other same.symm
    · cases name '=' mem

def Element.isValue : Element F → Bool
  | .changeValue _ _ _ _ => true
  | _ => false

section

variable [NatCast F] [Add F] [Mul F] [Div F] [Neg F]
variable {fl : Floats F} (defaultDevice : Text)
variable (parseBlock : Text → Except Stop (List (Element F) × Text))

theorem parseBuf_value {device valName text : Text} (named : NamedValue device valName)
    (name : ∀ c ∈ text, isName c = true) {t tail : Text}
    (same : Same t (valueWord device valName '=' text ++ tail)) (ends : Ends tail) :
    parseBuf fl defaultDevice parseBlock t =
      match parseOperand text.length text with
      | some operand =>
        .ok (some (.changeValue (readDevice defaultDevice device) valName '=' [operand]), tail.tail)
      | none => .error .error := by
  have plain : PlainWord (valueWord device valName '=' text) := valueWord_plain named rfl name
  have read : nextElement t = (valueWord device valName '=' text, tail.tail) := by
    rw [nextElement_same same, nextElement_plain plain ends]
  have inside : ∀ c ∈ valName, (!isOperator c) = true := by
    intro c mem
    rw [(named.name c mem).1]
    rfl
  obtain ⟨value, rest⟩ := takeWhile_boundary (fun c => !isOperator c) valName ('=' :: text) inside
    (by simp [isOperator])
  have mem : '=' ∈ valName ++ '=' :: text := by simp
  simp only [parseBuf, read, splitDevice_value defaultDevice named, List.append_eq_nil_iff,
    reduceCtorEq, and_false, if_false, keywordOf_operator mem rfl, if_pos mem, parseChangeValue, rest,
    value]
  have no_sign : ¬ ((('=' : Char) = '+' ∨ ('=' : Char) = '-') ∧ text.head? = some '=') := by
    rintro ⟨sign | sign, -⟩ <;> cases sign
  rw [if_neg no_sign, parseOperands_name _ name]
  cases parseOperand (F := F) text.length text <;> rfl

end

end Rts2.Scripts.Parsing
