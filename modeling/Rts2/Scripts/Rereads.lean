import Rts2.Scripts.Reparsing

/-! What is read of each element that a script prints. -/
namespace Rts2.Scripts.Parsing

open Lib

variable {F : Type}

def Element.elseless : Element F → Bool
  | .acquired _ [] => true
  | _ => false

def Element.startsElse : Element F → Bool
  | .changeValue device valName _ _ =>
    "else".toList.isPrefixOf ((if device.isEmpty then [] else device ++ ['.']) ++ valName)
  | _ => false

mutual

/-- Elements whose words need no quotes, and that are not taken for another one: CENTER takes the
words behind it as its parameters. -/
def Printable : Element F → Prop
  | .sequence filter _ _ => PlainWord filter
  | .center _ _ => False
  | .changeValue device valName op operands =>
    NamedValue device valName ∧ isOperator op = true ∧ ∀ operand ∈ operands, FormedOperand operand
  | .command _ cmd args =>
    PlainWord cmd ∧ '(' ∉ cmd ∧ ')' ∉ cmd ∧ ∀ arg ∈ args, PlainWord arg
  | .signalEnd _ els => PrintableAll els
  | .acquired els elses => PrintableAll els ∧ PrintableAll elses
  | .elementFor _ els => PrintableAll els
  | .elementWhile _ _ els => PrintableAll els
  | .elementDo _ _ els => PrintableAll els
  | .once els => PrintableAll els
  | _ => True

def PrintableAll : List (Element F) → Prop
  | [] => True
  | e :: es =>
    Printable e ∧ PrintableAll es ∧
      (e.elseless = true → ∀ next ∈ es.head?, next.startsElse = false)

end

section

variable [NatCast F] [Add F] [Mul F] [Div F] [Neg F]

mutual

/-- Elements that are read as they are written: BOX writes one coordinate twice, C and cmd leave out
the device, operators are written as one character, and loops leave out their condition. -/
def Kept (fl : Floats F) (defaultDevice : Text) : Element F → Prop
  | .sequence _ _ expTime => fl.narrow (fl.atof (fl.write expTime)) = expTime
  | .image expTime => fl.narrow (fl.atof (fl.write expTime)) = expTime
  | .expose expTime => fl.narrow (fl.atof (fl.write expTime)) = expTime
  | .dark expTime => fl.narrow (fl.atof (fl.write expTime)) = expTime
  | .shiftStoreStart expTime => fl.narrow (fl.atof (fl.write expTime)) = expTime
  | .shiftStoreProgress _ expTime => fl.narrow (fl.atof (fl.write expTime)) = expTime
  | .shiftStoreEnd _ expTime => fl.narrow (fl.atof (fl.write expTime)) = expTime
  | .box x y _ _ => x = y
  | .center _ _ => False
  | .change device ra dec =>
    device = defaultDevice ∧ fl.atof (fl.write ra) = ra ∧ fl.atof (fl.write dec) = dec
  | .wait => True
  | .waitAcquire => True
  | .sendSignal _ => True
  | .waitSignal sig => 0 < sig
  | .changeValue device _ op operands =>
    op = '=' ∧ (∃ operand, operands = [operand] ∧ KeepsOperand fl operand) ∧
      (device = [] → defaultDevice = [])
  | .command device _ args => device = defaultDevice ∧ args = []
  | .signalEnd _ els => KeptAll fl defaultDevice els
  | .acquired els elses => KeptAll fl defaultDevice els ∧ KeptAll fl defaultDevice elses
  | .elementFor _ els => KeptAll fl defaultDevice els
  | .elementWhile _ _ _ => False
  | .elementDo _ _ _ => False
  | .once els => KeptAll fl defaultDevice els

def KeptAll (fl : Floats F) (defaultDevice : Text) : List (Element F) → Prop
  | [] => True
  | e :: es => Kept fl defaultDevice e ∧ KeptAll fl defaultDevice es

end

end

mutual

def Element.turns : Element F → Nat
  | .signalEnd _ els => turnsAll els
  | .acquired els elses => turnsAll els + turnsAll elses
  | .elementFor _ els => turnsAll els
  | .elementWhile _ _ els => turnsAll els
  | .elementDo _ _ els => turnsAll els
  | .once els => turnsAll els
  | _ => 0

def turnsAll : List (Element F) → Nat
  | [] => 1
  | e :: es => 1 + e.turns + turnsAll es

end

theorem blockOf_some {make : List (Element F) → Element F} {block : Parse (List (Element F))}
    {e : Element F} {rest : Text} (read : blockOf make block = .ok (some e, rest)) :
    ∃ els, block = .ok (some els, rest) ∧ make els = e := by
  cases block with
  | error stop => cases read
  | ok result =>
    obtain ⟨found, rest'⟩ := result
    cases found with
    | none => cases read
    | some els =>
      cases read
      exact ⟨els, rfl, rfl⟩

/-- A result that is what was written if and only if that is kept; then the text behind it is
left. -/
structure Rereads {α : Type} (result : Except Stop (α × Text)) (value : α) (kept : Prop)
    (tail : Text) : Prop where
  reads : kept → ∃ rest, result = .ok (value, rest) ∧ Same rest tail
  only : ∀ rest, result = .ok (value, rest) → kept

namespace Rereads

theorem of_ok {α : Type} {value value' : α} {kept : Prop} {rest tail : Text}
    (left : Same rest tail) (same : value' = value ↔ kept) :
    Rereads (.ok (value', rest)) value kept tail where
  reads := fun k => ⟨rest, by rw [same.mpr k], left⟩
  only := by
    intro rest' read
    cases read
    exact same.mp rfl

theorem of_error {α : Type} {value : α} {kept : Prop} {tail : Text} {stop : Stop}
    (lost : ¬ kept) : Rereads (.error stop) value kept tail where
  reads := fun k => absurd k lost
  only := fun _ read => nomatch read

theorem congr {α : Type} {result : Except Stop (α × Text)} {value : α} {kept kept' : Prop}
    {tail : Text} (rereads : Rereads result value kept tail) (same : kept ↔ kept') :
    Rereads result value kept' tail where
  reads := fun k => rereads.reads (same.mpr k)
  only := fun rest read => same.mp (rereads.only rest read)

theorem block {make : List (Element F) → Element F} (injective : Function.Injective make)
    {block : Parse (List (Element F))} {els : List (Element F)} {kept : Prop} {tail : Text}
    (rereads : Rereads block (some els) kept tail) :
    Rereads (blockOf make block) (some (make els)) kept tail where
  reads := by
    intro k
    obtain ⟨rest, read, left⟩ := rereads.reads k
    exact ⟨rest, by rw [read]; rfl, left⟩
  only := by
    intro rest read
    obtain ⟨els', read', same⟩ := blockOf_some read
    cases injective same
    exact rereads.only rest read'

end Rereads

theorem written_plain {e : Element F} {name : Text} {keyword : Keyword} {params : List (Param F)}
    (written : e.written = some (name, keyword, params)) (printable : Printable e) :
    ∀ param ∈ params, param.Plain := by
  cases e <;> simp only [Element.written, Option.some.injEq, Prod.mk.injEq, reduceCtorEq] at written
  all_goals
    obtain ⟨rfl, rfl, rfl⟩ := written
    simp only [Printable] at printable
    simp [Param.Plain, printable]

section

variable [NatCast F] [Add F] [Mul F] [Div F] [Neg F]
variable {fl : Floats F} {around : Surroundings F} {defaultDevice : Text}
variable (parseBlock : Text → Except Stop (List (Element F) × Text))

theorem written_kept {e : Element F} {name : Text} {keyword : Keyword} {params : List (Param F)}
    (written : e.written = some (name, keyword, params)) :
    keyword.make defaultDevice (params.map (Param.reread fl)) = some e ↔ Kept fl defaultDevice e := by
  cases e <;> simp only [Element.written, Option.some.injEq, Prod.mk.injEq, reduceCtorEq] at written
  all_goals
    obtain ⟨rfl, rfl, rfl⟩ := written
    simp [Param.reread, Keyword.make, Kept, eq_comm]

theorem reread_written (writes : fl.Writes) {e : Element F} {name : Text} {keyword : Keyword}
    {params : List (Param F)} (written : e.written = some (name, keyword, params))
    (printable : Printable e) {text t tail : Text} (printed : printElement fl around e = some text)
    (same : Same t (text ++ tail)) (ends : Ends tail) :
    Rereads (parseBuf fl defaultDevice parseBlock t) (some e) (Kept fl defaultDevice e) tail := by
  rw [print_written fl around written] at printed
  cases printed
  obtain ⟨rest, read, left⟩ := parseBuf_written defaultDevice parseBlock writes written
    (written_plain written printable) same ends
  rw [read]
  exact .of_ok left (written_kept written)

theorem reread_command {device cmd : Text} {args : List Text}
    (printable : Printable (.command device cmd args : Element F)) {t tail : Text}
    (same : Same t (words "cmd".toList (cmd :: args) ++ tail)) (ends : Ends tail) :
    Rereads (parseBuf fl defaultDevice parseBlock t) (some (.command device cmd args))
      (Kept fl defaultDevice (.command device cmd args)) tail := by
  obtain ⟨plain, opening, closing, -⟩ := printable
  have behind : Ends (args.flatMap (' ' :: ·) ++ tail) := ends_words ends
  have known : keywordOf "cmd".toList = some .COMMAND := by decide
  have text : words "cmd".toList (cmd :: args) ++ tail =
      "cmd".toList ++ ' ' :: (cmd ++ (args.flatMap (' ' :: ·) ++ tail)) := by
    simp [words]
  rw [text] at same
  obtain ⟨rest, read, left⟩ := nextElement_read plain (t := cmd ++ (args.flatMap (' ' :: ·) ++ tail))
    rfl behind
  have parsed : parseBuf fl defaultDevice parseBlock t =
      .ok (some (.command defaultDevice cmd []), rest) := by
    rw [parseBuf_keyword fl defaultDevice parseBlock known same fun c first => by cases first; rfl,
      List.tail_cons]
    simp only [parseKeyword, read, parseCommand, if_neg opening, if_neg closing]
  rw [parsed]
  cases args with
  | nil => exact .of_ok left (by simp [Kept, eq_comm])
  | cons arg args =>
    constructor
    · intro kept
      cases kept.2
    · intro rest' read'
      cases read'

end

theorem make_isValue {keyword : Keyword} {device : Text} {params : List (Param F)} {e : Element F}
    (made : keyword.make device params = some e) : e.isValue = false := by
  unfold Keyword.make at made
  split at made
  case h_14 =>
    split at made <;> cases made
    rfl
  all_goals
    cases made
    try rfl

theorem parseCommand_isValue {device el : Text} {e : Element F}
    (made : parseCommand device el = some e) : e.isValue = false := by
  unfold parseCommand at made
  split at made
  · split at made <;> cases made
    rfl
  · split at made <;> cases made
    rfl

theorem blockOf_isValue {make : List (Element F) → Element F}
    (block_value : ∀ els, (make els).isValue = false) {block : Parse (List (Element F))}
    {e : Element F} {rest : Text} (read : blockOf make block = .ok (some e, rest)) :
    e.isValue = false := by
  obtain ⟨els, -, rfl⟩ := blockOf_some read
  exact block_value els

section

variable [NatCast F] [Add F] [Mul F] [Div F] [Neg F]
variable {fl : Floats F} {around : Surroundings F} {defaultDevice : Text}
variable {parseBlock : Text → Except Stop (List (Element F) × Text)}

theorem parseKeyword_isValue {device : Text} {keyword : Keyword} {t : Text} {e : Element F}
    {rest : Text} (read : parseKeyword fl defaultDevice parseBlock device keyword t =
      .ok (some e, rest)) : e.isValue = false := by
  by_cases simple : keyword.isSimple = true
  · rw [parseKeyword_simple defaultDevice parseBlock simple] at read
    split at read
    · cases read
    · have made := (Prod.mk.inj (Except.ok.inj read)).1
      exact make_isValue made
  · cases keyword with
    | BLOCK_WAITSIG =>
      rw [parseKeyword] at read
      split at read
      · exact blockOf_isValue (fun _ => rfl) read
      · cases read
    | BLOCK_ACQ =>
      rw [parseKeyword] at read
      split at read
      · cases read
      · cases read
      · split at read
        · exact blockOf_isValue (fun _ => rfl) read
        · cases read
          rfl
    | BLOCK_FOR =>
      rw [parseKeyword] at read
      split at read
      · exact blockOf_isValue (fun _ => rfl) read
      · cases read
    | BLOCK_WHILE =>
      rw [parseKeyword] at read
      split at read
      · cases read
      · split at read
        · exact blockOf_isValue (fun _ => rfl) read
        · cases read
    | BLOCK_DO =>
      rw [parseKeyword] at read
      split at read
      · split at read
        · cases read
        · cases read
        · dsimp only at read
          split at read
          · split at read
            · cases read
            · cases read
              rfl
          · cases read
      · cases read
    | BLOCK_ONCE => exact blockOf_isValue (fun _ => rfl) read
    | COMMAND =>
      have made := (Prod.mk.inj (Except.ok.inj read)).1
      exact parseCommand_isValue made
    | BLOCK_END => cases read
    | OTHER => cases read
    | _ => exact absurd rfl simple

theorem splitDevice_mem {defaultDevice word : Text} {c : Char}
    (mem : c ∈ (splitDevice defaultDevice word).2) : c ∈ word := by
  unfold splitDevice at mem
  dsimp only at mem
  split at mem
  · exact (List.dropWhile_sublist _).subset (List.mem_of_mem_tail mem)
  · exact mem

theorem parseBuf_no_equals {t : Text} {e : Element F} {rest : Text}
    (no_equals : '=' ∉ (nextElement t).1)
    (read : parseBuf fl defaultDevice parseBlock t = .ok (some e, rest)) : e.isValue = false := by
  unfold parseBuf at read
  dsimp only at read
  split at read
  · cases read
  · split at read
    · exact parseKeyword_isValue read
    · rw [if_neg fun mem => no_equals (splitDevice_mem mem)] at read
      cases read

theorem ends_nil : Ends [] := by
  intro c first
  cases first

omit [NatCast F] [Add F] [Mul F] [Div F] [Neg F] in
theorem writeOperands_first {operands : List (Operand F)} {text : Text}
    (formed : ∀ operand ∈ operands, FormedOperand operand) (writes : fl.Writes)
    (written : writeOperands fl around operands = some text) :
    ∃ first others, text = first ++ others ∧ Ends others ∧ (∀ c ∈ first, isName c = true) ∧
      (operands = [] ∧ first = [] ∨
        ∃ operand rest, operands = operand :: rest ∧ (rest = [] → others = []) ∧
          writeOperand fl around operand = some first) := by
  cases operands with
  | nil =>
    cases written
    exact ⟨[], [], rfl, ends_nil, by simp, .inl ⟨rfl, rfl⟩⟩
  | cons operand operands =>
    rw [writeOperands] at written
    obtain ⟨first, one, written⟩ := Option.bind_eq_some_iff.mp written
    have name := writeOperand_name writes (formed operand (by simp)) one
    cases operands with
    | nil =>
      obtain rfl := Option.some.inj written
      exact ⟨first, [], by simp, ends_nil, name, .inr ⟨operand, [], rfl, fun _ => rfl, one⟩⟩
    | cons next operands =>
      obtain ⟨texts, -, written⟩ := Option.bind_eq_some_iff.mp written
      cases written
      refine ⟨first, ' ' :: texts, rfl, fun c first => ?_, name,
        .inr ⟨operand, next :: operands, rfl, nofun, one⟩⟩
      cases first
      rfl

theorem reread_changeValue (writes : fl.Writes) {device valName : Text} {op : Char}
    {operands : List (Operand F)} (printable : Printable (.changeValue device valName op operands))
    {text t tail : Text}
    (printed : printElement fl around (.changeValue device valName op operands) = some text)
    (same : Same t (text ++ tail)) (ends : Ends tail) :
    Rereads (parseBuf fl defaultDevice parseBlock t) (some (.changeValue device valName op operands))
      (Kept fl defaultDevice (.changeValue device valName op operands)) tail := by
  obtain ⟨named, operator, formed⟩ := printable
  rw [printElement] at printed
  obtain ⟨value, written, rfl⟩ := Option.map_eq_some_iff.mp printed
  obtain ⟨first, others, rfl, ends_first, name, cases_first⟩ := writeOperands_first formed writes written
  have ends_others : Ends (others ++ tail) := by
    cases others with
    | nil => exact ends
    | cons c others => exact ends_first
  have same_word : Same t (valueWord device valName op first ++ (others ++ tail)) := by
    simpa [valueWord] using same
  by_cases equals : op = '='
  · subst equals
    rw [parseBuf_value defaultDevice parseBlock named name same_word ends_others]
    rcases cases_first with ⟨rfl, rfl⟩ | ⟨operand, rest, rfl, no_others, one⟩
    · have nothing : parseOperand (F := F) 0 [] = none := by
        rw [parseOperand]
        rfl
      rw [List.length_nil, nothing]
      apply Rereads.of_error
      rintro ⟨-, ⟨operand, none, -⟩, -⟩
      cases none
    · have keeps := parseOperand_written writes (formed operand (by simp)) one first.length
      cases read : parseOperand (F := F) first.length first with
      | none =>
        apply Rereads.of_error
        rintro ⟨-, ⟨operand', only, kept⟩, -⟩
        cases only
        rw [keeps.mpr kept] at read
        cases read
      | some found =>
        cases rest with
        | nil =>
          obtain rfl := no_others rfl
          apply Rereads.of_ok ends.tail_same
          have device_kept : readDevice defaultDevice device = device ↔
              (device = [] → defaultDevice = []) := by
            cases device <;> simp [readDevice]
          rw [read] at keeps
          simp only [Option.some.injEq] at keeps
          simp [Kept, device_kept, keeps, and_comm]
        | cons next rest =>
          constructor
          · rintro ⟨-, ⟨operand', only, -⟩, -⟩
            cases only
          · intro rest' read'
            simp at read'
  · constructor
    · intro kept
      exact absurd kept.1 equals
    · intro rest read
      have plain := valueWord_plain named operator name
      have no_equals : '=' ∉ (nextElement t).1 := by
        rw [nextElement_same same_word, nextElement_plain plain ends_others]
        exact valueWord_no_equals named equals name
      cases parseBuf_no_equals no_equals read

end

def Closes [NatCast F] [Add F] [Mul F] [Div F] [Neg F] (fl : Floats F) (defaultDevice tail rest : Text) :
    Prop :=
  ∀ parseBlock t, Same t tail → ∃ rest', parseBuf fl defaultDevice parseBlock t = .ok (none, rest') ∧
    Same rest' rest

section

variable [NatCast F] [Add F] [Mul F] [Div F] [Neg F]
variable {fl : Floats F} {around : Surroundings F} {defaultDevice : Text}

theorem closes_end : Closes fl defaultDevice [] [] := by
  intro parseBlock t same
  have read : nextElement t = ([], []) := nextElement_same same
  refine ⟨[], ?_, rfl⟩
  rw [parseBuf, read]
  rfl

theorem closes_brace {tail : Text} (ends : Ends tail) :
    Closes fl defaultDevice (" \x7d".toList ++ tail) tail := by
  intro parseBlock t same
  have known : keywordOf "\x7d".toList = some .BLOCK_END := by decide
  refine ⟨tail.tail, ?_, ends.tail_same⟩
  have word : Same t ("\x7d".toList ++ tail) := by
    rw [show " \x7d".toList = ' ' :: "\x7d".toList by decide] at same
    exact same.trans (same_space _)
  rw [parseBuf_keyword fl defaultDevice parseBlock known word ends]
  rfl

end

theorem ends_space (t : Text) : Ends (' ' :: t) := by
  intro c first
  cases first
  rfl

theorem opening_plain : PlainWord "\x7b".toList := (plainName_spec (by decide)).1

theorem reread_block {parseBlock : Text → Except Stop (List (Element F) × Text)}
    {els : List (Element F)} {kept : Prop} {text t tail : Text}
    (same : Same t (braces text ++ tail))
    (rereads : ∀ t, Same t (text ++ (" \x7d".toList ++ tail)) → Rereads (parseBlock t) els kept tail) :
    Rereads (openBlock parseBlock t) (some els) kept tail := by
  have opening : Same t ("\x7b".toList ++ ' ' :: (text ++ (" \x7d".toList ++ tail))) := by
    refine same.trans ?_
    simp only [braces, List.append_assoc]
    exact same_space _
  obtain ⟨inner, read, left⟩ := nextElement_read opening_plain opening (ends_space _)
  have inside := rereads inner (left.trans (same_space _))
  have brace : "\x7b".toList.head? = some '{' := by decide
  unfold openBlock
  rw [read]
  constructor
  · intro k
    obtain ⟨rest, parsed, left'⟩ := inside.reads k
    refine ⟨rest, ?_, left'⟩
    dsimp only
    rw [if_pos brace, parsed]
  · intro rest parsed
    dsimp only at parsed
    rw [if_pos brace] at parsed
    cases block : parseBlock inner with
    | error stop =>
      rw [block] at parsed
      cases parsed
    | ok result =>
      rw [block] at parsed
      cases parsed
      exact inside.only _ block

theorem reread_count (fl : Floats F) {n : Int} {t tail : Text}
    (same : Same t (writeInt n ++ tail)) (ends : Ends tail) :
    ∃ rest, getNextParam fl .integer t = (some (.integer n), rest) ∧ Same rest tail := by
  obtain ⟨rest, read, left⟩ := nextElement_read (writeInt_plain n) same ends
  refine ⟨rest, ?_, left⟩
  simp only [getNextParam, read, if_neg (writeInt_plain n).some_char, atoi_writeInt]

def Element.firstWord : Element F → Option Text
  | .sequence _ _ _ => some "SEQUENCE".toList
  | .image _ => some "I".toList
  | .expose _ => some "E".toList
  | .dark _ => some "D".toList
  | .shiftStoreStart _ => some "STARTSHIFT".toList
  | .shiftStoreProgress _ _ => some "DOSHIFT".toList
  | .shiftStoreEnd _ _ => some "ENDSHIFT".toList
  | .box _ _ _ _ => some "BOX".toList
  | .center _ _ => some "CENTER".toList
  | .change _ _ _ => some "C".toList
  | .wait => some "W".toList
  | .waitAcquire => some "Aw".toList
  | .sendSignal _ => some "SS".toList
  | .waitSignal _ => some "SW".toList
  | .changeValue _ _ _ _ => none
  | .command _ _ _ => some "cmd".toList
  | .signalEnd _ _ => some "block_waitsig".toList
  | .acquired _ _ => some "ifacq".toList
  | .elementFor _ _ => some "for".toList
  | .elementWhile _ _ _ => some "while".toList
  | .elementDo _ _ _ => some "do".toList
  | .once _ => some "once".toList

theorem firstWord_known {e : Element F} {w : Text} (first : e.firstWord = some w) :
    (keywordOf w).isSome = true ∧ w.head? ≠ some 'e' ∧
      (w = "while".toList → ∃ condition max_cycles els, e = .elementWhile condition max_cycles els) := by
  cases e <;> cases first
  case elementWhile condition max_cycles els =>
    exact ⟨by decide, by decide, fun _ => ⟨condition, max_cycles, els, rfl⟩⟩
  all_goals exact ⟨by decide, by decide, fun same => absurd same (by decide)⟩

theorem ends_flatMap (others : List Text) : Ends (others.flatMap (' ' :: ·)) := by
  cases others with
  | nil => exact ends_nil
  | cons w others => exact ends_space _

theorem ends_append {t tail : Text} (first : Ends t) (ends : Ends tail) : Ends (t ++ tail) := by
  cases t with
  | nil => exact ends
  | cons c t => exact first

theorem ends_braces (t : Text) : Ends (braces t) := ends_space _

theorem print_firstWord [NatCast F] {fl : Floats F} {around : Surroundings F} {e : Element F}
    {w text : Text} (first : e.firstWord = some w) (printed : printElement fl around e = some text) :
    ∃ others, text = w ++ others ∧ Ends others := by
  cases e <;> cases first <;> rw [printElement] at printed
  case signalEnd =>
    obtain ⟨t, -, rfl⟩ := Option.map_eq_some_iff.mp printed
    exact ⟨_, List.append_assoc _ _ _, ends_append (ends_flatMap _) (ends_braces t)⟩
  case elementFor =>
    obtain ⟨t, -, rfl⟩ := Option.map_eq_some_iff.mp printed
    exact ⟨_, List.append_assoc _ _ _, ends_append (ends_flatMap _) (ends_braces t)⟩
  case elementWhile =>
    obtain ⟨t, -, rfl⟩ := Option.map_eq_some_iff.mp printed
    exact ⟨_, List.append_assoc _ _ _, ends_append (ends_flatMap _) (ends_braces t)⟩
  case once =>
    obtain ⟨t, -, rfl⟩ := Option.map_eq_some_iff.mp printed
    exact ⟨_, rfl, ends_braces t⟩
  case acquired =>
    obtain ⟨t, -, printed⟩ := Option.bind_eq_some_iff.mp printed
    obtain ⟨otherwise, -, printed⟩ := Option.bind_eq_some_iff.mp printed
    cases printed
    refine ⟨_, List.append_assoc _ _ _, ends_append (ends_braces t) ?_⟩
    split
    · exact ends_nil
    · exact ends_space _
  case elementDo =>
    obtain ⟨condition, -, printed⟩ := Option.bind_eq_some_iff.mp printed
    obtain ⟨value, -, printed⟩ := Option.bind_eq_some_iff.mp printed
    obtain ⟨t, -, printed⟩ := Option.bind_eq_some_iff.mp printed
    cases printed
    refine ⟨_, by rw [words, List.append_assoc, List.append_assoc], ?_⟩
    exact ends_space _
  all_goals
    cases printed
    exact ⟨_, rfl, ends_flatMap _⟩

theorem firstWord_plain {e : Element F} {w : Text} (first : e.firstWord = some w) : PlainWord w := by
  obtain ⟨keyword, known⟩ := Option.isSome_iff_exists.mp (firstWord_known first).1
  exact (plainName_spec (List.all_eq_true.mp keywords_plain _ (keywordOf_mem known))).1

theorem prefix_before {p w x : Text} {op : Char} (other : op ∉ p)
    (starts : p.isPrefixOf (w ++ op :: x) = true) : p.isPrefixOf w = true := by
  rw [List.isPrefixOf_iff_prefix] at starts ⊢
  rcases List.prefix_or_prefix_of_prefix starts (List.prefix_append w (op :: x)) with short | long
  · exact short
  · obtain ⟨q, rfl⟩ := long
    cases q with
    | nil => simp
    | cons d q =>
      obtain ⟨y, same⟩ := starts
      simp at same
      simp [same] at other

/-- What stands behind the elements of a block, and what is left when it was read. -/
inductive Closing : Text → Text → Prop where
  | eof : Closing [] []
  | brace {tail : Text} (ends : Ends tail) : Closing (" \x7d".toList ++ tail) tail

theorem Closing.ends {tail rest : Text} (closing : Closing tail rest) : Ends tail := by
  cases closing with
  | eof => exact ends_nil
  | brace ends => exact ends_space _

theorem writeInt_first (n : Int) :
    ∃ c w, writeInt n = c :: w ∧ (c = '-' ∨ isdigit c = true) := by
  obtain ⟨c, w, text⟩ := List.exists_cons_of_ne_nil (writeInt_plain n).some_char
  refine ⟨c, w, text, ?_⟩
  have mem : c ∈ writeInt n := by simp [text]
  obtain ⟨b, listed, rfl⟩ := List.mem_map.mp mem
  rcases decimalInt_bytes listed with rfl | digit
  · exact .inl rfl
  · exact .inr (digit_char b digit).1

section

variable [NatCast F] [Add F] [Mul F] [Div F] [Neg F]
variable {fl : Floats F} {around : Surroundings F} {defaultDevice : Text}

theorem condition_brace (turns : Nat) (op : Option (Condition F)) (x : Text)
    (read : Option (Condition F) × Text) :
    parseCondition defaultDevice turns op (" \x7b ".toList ++ x) ≠ .ok read := by
  cases turns with
  | zero =>
    intro same
    cases same
  | succ turns =>
    have brace : skip (" \x7b ".toList ++ x) = '{' :: ' ' :: x := rfl
    rw [parseCondition, if_neg (by simp), brace]
    simp [isdigit, isalpha]

theorem condition_count (turns : Nat) (n : Int) (x : Text) (read : Option (Condition F) × Text) :
    parseCondition defaultDevice turns none (writeInt n ++ (" \x7b ".toList ++ x)) ≠ .ok read := by
  cases turns with
  | zero =>
    intro same
    cases same
  | succ turns =>
    obtain ⟨c, w, text, kind⟩ := writeInt_first n
    have whole := skip_plain (writeInt_plain n) (" \x7b ".toList ++ x)
    obtain ⟨-, behind⟩ := takeWhile_boundary (fun d => !isspace d) (writeInt n) (" \x7b ".toList ++ x)
      (fun d mem => by rw [(writeInt_plain n).no_space d mem]; rfl) (by simp [isspace])
    rw [text, List.cons_append] at whole behind ⊢
    rw [parseCondition, if_neg (by simp), whole]
    rcases kind with rfl | digit
    · simp [isdigit, isalpha]
    · have other : c ≠ ')' ∧ c ≠ '(' ∧ c ≠ '=' ∧ c ≠ '>' ∧ c ≠ '<' := by
        refine ⟨?_, ?_, ?_, ?_, ?_⟩ <;>
        · rintro rfl
          cases digit
      obtain ⟨closing, opening, equal, great, less⟩ := other
      simp only [equal, great, less, digit, behind, or_self, true_or, if_false, if_true]
      cases parseOperand (F := F) 0 ((c :: (w ++ (" \x7b ".toList ++ x))).takeWhile (!isspace ·)) with
      | none =>
        intro same
        cases same
      | some operand =>
        cases operand with
        | number val => exact condition_brace turns _ x read
        | _ =>
          intro same
          cases same

/-- A text behind an element that is not taken for a part of it. -/
structure Follows (defaultDevice : Text) (e : Element F) (tail : Text) : Prop where
  ends : Ends tail
  no_else : e.elseless = true → "else".toList.isPrefixOf (skip tail) = false
  no_while : ∀ rest, nextElement tail = ("while".toList, rest) → ∀ read,
    parseCondition (F := F) defaultDevice (rest.length + 1) none (skip rest) ≠ .ok read

theorem Closing.follows {tail rest : Text} (closing : Closing tail rest) (e : Element F) :
    Follows defaultDevice e tail := by
  refine ⟨closing.ends, fun _ => ?_, fun rest' next => ?_⟩
  · cases closing <;> rfl
  · cases closing with
    | eof => cases next
    | brace ends =>
      have brace := nextElement_plain (plainName_spec (w := "\x7d".toList) (by decide)).1 ends
      have read : nextElement (" \x7d".toList ++ rest) = ("\x7d".toList, rest.tail) := brace
      rw [read] at next
      cases (Prod.mk.inj next).1

theorem Closing.closes {tail rest : Text} (closing : Closing tail rest) :
    Closes fl defaultDevice tail rest := by
  cases closing with
  | eof => exact closes_end
  | brace ends => exact closes_brace ends

theorem follows_command {next : Element F} {w text tail : Text} (first : next.firstWord = some w)
    (printed : printElement fl around next = some text) (ends : Ends tail) (e : Element F) :
    Follows defaultDevice e (' ' :: (text ++ tail)) := by
  obtain ⟨others, rfl, ends_others⟩ := print_firstWord first printed
  have plain := firstWord_plain first
  obtain ⟨-, no_e, loop⟩ := firstWord_known first
  rw [List.append_assoc]
  have ends_word := ends_append ends_others ends
  refine ⟨ends_space _, fun _ => ?_, fun rest read => ?_⟩
  · have whole : skip (' ' :: (w ++ (others ++ tail))) = w ++ (others ++ tail) := skip_plain plain _
    rw [whole]
    obtain ⟨c, w, rfl⟩ := List.exists_cons_of_ne_nil plain.some_char
    have other : c ≠ 'e' := by simpa using no_e
    simp [List.isPrefixOf, other.symm]
  · rw [nextElement_same (same_space _), nextElement_plain plain ends_word] at read
    obtain ⟨word, left⟩ := Prod.mk.inj read
    obtain ⟨condition, max_cycles, els, rfl⟩ := loop word
    rw [printElement] at printed
    obtain ⟨inner, -, text⟩ := Option.map_eq_some_iff.mp printed
    rw [word, words, List.append_assoc] at text
    have count : others = [writeInt max_cycles].flatMap (' ' :: ·) ++ braces inner :=
      (List.append_cancel_left text).symm
    have behind : rest = writeInt max_cycles ++ (" \x7b ".toList ++ (inner ++ (" \x7d".toList ++ tail))) := by
      rw [← left, count]
      simp [braces]
    rw [behind, skip_plain (writeInt_plain _)]
    exact condition_count _ _ _

theorem follows_value {device valName : Text} {op : Char} {operands : List (Operand F)}
    (writes : fl.Writes) (printable : Printable (.changeValue device valName op operands))
    {text tail : Text}
    (printed : printElement fl around (.changeValue device valName op operands) = some text)
    (ends : Ends tail) {e : Element F}
    (no_else : e.elseless = true →
      (Element.changeValue device valName op operands).startsElse = false) :
    Follows defaultDevice e (' ' :: (text ++ tail)) := by
  obtain ⟨named, operator, formed⟩ := printable
  rw [printElement] at printed
  obtain ⟨value, written, rfl⟩ := Option.map_eq_some_iff.mp printed
  obtain ⟨first, others, rfl, ends_first, name, -⟩ := writeOperands_first formed writes written
  have plain := valueWord_plain named operator name
  have ends_word : Ends (others ++ tail) := ends_append ends_first ends
  have text : (if device.isEmpty then [] else device ++ ['.']) ++ valName ++ op :: (first ++ others) ++
      tail = valueWord device valName op first ++ (others ++ tail) := by
    simp [valueWord]
  rw [text]
  have sign := operator_cases operator
  refine ⟨ends_space _, fun bare => ?_, fun rest read => ?_⟩
  · have whole : skip (' ' :: (valueWord device valName op first ++ (others ++ tail))) =
        valueWord device valName op first ++ (others ++ tail) := skip_plain plain _
    rw [whole, Bool.eq_false_iff]
    intro starts
    have other : op ∉ "else".toList := by
      rcases sign with rfl | rfl | rfl <;> decide
    rw [valueWord, List.append_assoc] at starts
    have before := prefix_before other starts
    have none := no_else bare
    rw [Element.startsElse, before] at none
    cases none
  · rw [nextElement_same (same_space _), nextElement_plain plain ends_word] at read
    have word := (Prod.mk.inj read).1
    have mem : op ∈ "while".toList := by
      rw [← word]
      simp [valueWord]
    rcases sign with rfl | rfl | rfl <;> cases (by decide : ¬ _ ∈ "while".toList) mem

theorem parseAcquired_block {parseBlock : Text → Except Stop (List (Element F) × Text)}
    {device t : Text} {els elses : List (Element F)} {rest : Text}
    (read : parseKeyword fl defaultDevice parseBlock device .BLOCK_ACQ t =
      .ok (some (.acquired els elses), rest)) :
    ∃ rest', openBlock parseBlock t = .ok (some els, rest') := by
  rw [parseKeyword] at read
  split at read
  · cases read
  · cases read
  · rename_i els' rest' opened
    split at read
    · obtain ⟨elses', -, same⟩ := blockOf_some read
      cases same
      exact ⟨rest', opened⟩
    · cases read
      exact ⟨rest', opened⟩

theorem reread_bare {parseBlock : Text → Except Stop (List (Element F) × Text)}
    {els : List (Element F)} {kept : Prop} {inner t tail : Text}
    (same : Same t ("ifacq".toList ++ braces inner ++ tail))
    (follows : Follows defaultDevice (.acquired els []) tail)
    (block : ∀ t, Same t (inner ++ (" \x7d".toList ++ tail)) → Rereads (parseBlock t) els kept tail) :
    Rereads (parseBuf fl defaultDevice parseBlock t) (some (.acquired els [])) kept tail := by
  have known : keywordOf "ifacq".toList = some .BLOCK_ACQ := by decide
  rw [List.append_assoc] at same
  have ends := ends_append (ends_braces inner) follows.ends
  have opened := reread_block ends.tail_same block
  rw [parseBuf_keyword fl defaultDevice parseBlock known same ends]
  constructor
  · intro k
    obtain ⟨rest, read, left⟩ := opened.reads k
    have no_else : isNext "else".toList rest = (false, skip rest) := by
      have bare := follows.no_else rfl
      rw [isNext_same left, isNext, bare]
      simp [show skip rest = skip tail from left]
    refine ⟨skip rest, ?_, (same_skip rest).trans left⟩
    rw [parseKeyword, read]
    dsimp only
    rw [no_else]
  · intro rest read
    obtain ⟨rest', read'⟩ := parseAcquired_block read
    exact opened.only rest' read'

theorem reread_else {parseBlock : Text → Except Stop (List (Element F) × Text)}
    {els elses : List (Element F)} {kept kept' : Prop} {inner other t tail : Text}
    (same : Same t ("ifacq".toList ++ braces inner ++ (" else ".toList ++ braces other) ++ tail))
    (first : ∀ t, Same t (inner ++ (" \x7d".toList ++ (" else ".toList ++ (braces other ++ tail)))) →
      Rereads (parseBlock t) els kept (" else ".toList ++ (braces other ++ tail)))
    (second : ∀ t, Same t (other ++ (" \x7d".toList ++ tail)) → Rereads (parseBlock t) elses kept' tail) :
    Rereads (parseBuf fl defaultDevice parseBlock t) (some (.acquired els elses)) (kept ∧ kept')
      tail := by
  have known : keywordOf "ifacq".toList = some .BLOCK_ACQ := by decide
  simp only [List.append_assoc] at same
  have ends : Ends (braces inner ++ (" else ".toList ++ (braces other ++ tail))) :=
    ends_append (ends_braces inner) (ends_space _)
  have opened := reread_block ends.tail_same first
  have injective : Function.Injective (Element.acquired els) := fun _ _ same =>
    (Element.acquired.inj same).2
  have otherwise := (reread_block (t := braces other ++ tail) rfl second).block injective
  have next {rest : Text} (left : Same rest (" else ".toList ++ (braces other ++ tail))) :
      isNext "else".toList rest = (true, braces other ++ tail) := isNext_same left _
  rw [parseBuf_keyword fl defaultDevice parseBlock known same ends]
  constructor
  · rintro ⟨k, k'⟩
    obtain ⟨rest, read, left⟩ := opened.reads k
    obtain ⟨rest', read', left'⟩ := otherwise.reads k'
    refine ⟨rest', ?_, left'⟩
    rw [parseKeyword, read]
    dsimp only
    rw [next left]
    exact read'
  · intro rest read
    obtain ⟨rest', read'⟩ := parseAcquired_block read
    have k := opened.only rest' read'
    obtain ⟨rest₁, read₁, left⟩ := opened.reads k
    rw [parseKeyword, read₁] at read
    dsimp only at read
    rw [next left] at read
    exact ⟨k, otherwise.only rest read⟩

theorem reread_do {parseBlock : Text → Except Stop (List (Element F) × Text)}
    {condition : Option (Condition F)} {max_cycles : Int} {els : List (Element F)} {kept : Prop}
    {value inner t tail : Text} (plain : PlainWord (writeInt max_cycles ++ value))
    (same : Same t ("do".toList ++ ' ' :: (writeInt max_cycles ++ value ++ (braces inner ++ tail))))
    (follows : Follows defaultDevice (.elementDo condition max_cycles els) tail)
    (block : ∀ t, Same t (inner ++ (" \x7d".toList ++ tail)) → Rereads (parseBlock t) els kept tail) :
    Rereads (parseBuf fl defaultDevice parseBlock t) (some (.elementDo condition max_cycles els))
      False tail := by
  have known : keywordOf "do".toList = some .BLOCK_DO := by decide
  rw [parseBuf_keyword fl defaultDevice parseBlock known same (ends_space _), List.tail_cons]
  refine ⟨False.elim, fun rest read => ?_⟩
  obtain ⟨rest₁, count, left⟩ := nextElement_read plain
    (t := writeInt max_cycles ++ value ++ (braces inner ++ tail)) rfl
    (ends_append (ends_braces inner) follows.ends)
  have opened := reread_block left block
  rw [parseKeyword] at read
  simp only [getNextParam, count, if_neg plain.some_char] at read
  split at read
  · cases read
  · cases read
  · rename_i els' rest₂ opened_read
    split at read
    · rename_i loop
      split at read
      · cases read
      · rename_i condition' rest₃ parsed
        have same_els : els' = els := by
          have same := Option.some.inj (Prod.mk.inj (Except.ok.inj read)).1
          exact (Element.elementDo.inj same).2.2
        subst same_els
        obtain ⟨rest₄, read₄, left₄⟩ := opened.reads (opened.only rest₂ opened_read)
        rw [opened_read] at read₄
        cases read₄
        rw [nextElement_same left₄] at loop parsed
        exact follows.no_while (nextElement tail).2 (Prod.ext loop rfl) _ parsed
    · cases read

theorem reread_while {parseBlock : Text → Except Stop (List (Element F) × Text)}
    {e : Element F} {max_cycles : Int} {inner t tail : Text}
    (same : Same t ("while".toList ++ ' ' :: (writeInt max_cycles ++ (braces inner ++ tail)))) :
    Rereads (parseBuf fl defaultDevice parseBlock t) (some e) False tail := by
  have known : keywordOf "while".toList = some .BLOCK_WHILE := by decide
  rw [parseBuf_keyword fl defaultDevice parseBlock known same (ends_space _), List.tail_cons]
  refine ⟨False.elim, fun rest read => ?_⟩
  rw [parseKeyword, skip_plain (writeInt_plain max_cycles)] at read
  split at read
  · cases read
  · rename_i condition rest' parsed
    rw [braces, List.append_assoc, List.append_assoc] at parsed
    exact condition_count _ _ _ _ parsed

theorem reread_counted {parseBlock : Text → Except Stop (List (Element F) × Text)} {name : Text}
    {keyword : Keyword} (known : keywordOf name = some keyword) (make : Int → List (Element F) → Element F)
    (parsed : ∀ t, parseKeyword fl defaultDevice parseBlock defaultDevice keyword t =
      match getNextParam fl .integer t with
      | (some (.integer n), t) => blockOf (make n) (openBlock parseBlock t)
      | (_, t) => .ok (none, t))
    {n : Int} (injective : Function.Injective (make n)) {els : List (Element F)} {kept : Prop}
    {inner t tail : Text} (ends : Ends tail)
    (same : Same t (words name [writeInt n] ++ braces inner ++ tail))
    (block : ∀ t, Same t (inner ++ (" \x7d".toList ++ tail)) → Rereads (parseBlock t) els kept tail) :
    Rereads (parseBuf fl defaultDevice parseBlock t) (some (make n els)) kept tail := by
  have text : words name [writeInt n] ++ braces inner ++ tail =
      name ++ ' ' :: (writeInt n ++ (braces inner ++ tail)) := by
    simp [words]
  rw [text] at same
  obtain ⟨rest, count, left⟩ := reread_count fl (n := n)
    (t := writeInt n ++ (braces inner ++ tail)) rfl (ends_append (ends_braces inner) ends)
  rw [parseBuf_keyword fl defaultDevice parseBlock known same (ends_space _), List.tail_cons, parsed,
    count]
  exact (reread_block left block).block injective

theorem comparator_plain (cmp : Comparator) : ∀ c ∈ cmp.symbol, isspace c = false ∧ c ≠ '#' := by
  cases cmp <;> simp [Comparator.symbol, isspace]

omit [Add F] [Mul F] [Div F] [Neg F] in
theorem condition_written (writes : fl.Writes) {condition : Condition F} {value : Text}
    (written : condition.writeTo fl around = some value) :
    ∀ c ∈ value, isspace c = false ∧ c ≠ '#' := by
  have plain (x : F) : ∀ c ∈ fl.write x, isspace c = false ∧ c ≠ '#' := by
    intro c mem
    refine ⟨isName_not_space (writes.name x c mem), ?_⟩
    rintro rfl
    cases writes.name x '#' mem
  unfold Condition.writeTo at written
  split at written
  · rename_i l cmp r
    obtain ⟨lv, -, written⟩ := Option.bind_eq_some_iff.mp written
    obtain ⟨rv, -, written⟩ := Option.bind_eq_some_iff.mp written
    cases written
    intro c mem
    rcases List.mem_append.mp mem with mem | mem
    · rcases List.mem_append.mp mem with mem | mem
      · exact plain lv c mem
      · exact comparator_plain cmp c mem
    · exact plain rv c mem
  · obtain ⟨val, -, rfl⟩ := Option.map_eq_some_iff.mp written
    exact plain val

theorem count_plain (n : Int) {value : Text} (plain : ∀ c ∈ value, isspace c = false ∧ c ≠ '#') :
    PlainWord (writeInt n ++ value) := by
  have count := writeInt_plain n
  obtain ⟨d, w, text⟩ := List.exists_cons_of_ne_nil count.some_char
  refine ⟨by simp [text], fun c mem => ?_, fun c first => ?_, fun mem => ?_⟩
  · rcases List.mem_append.mp mem with mem | mem
    · exact count.no_space c mem
    · exact (plain c mem).1
  · exact count.no_quote c (by simpa [text] using first)
  · rcases List.mem_append.mp mem with mem | mem
    · exact count.no_comment mem
    · exact (plain '#' mem).2 rfl

theorem follows_next (writes : fl.Writes) {e next : Element F} (printable : Printable next)
    {text tail : Text} (printed : printElement fl around next = some text) (ends : Ends tail)
    (no_else : e.elseless = true → next.startsElse = false) :
    Follows defaultDevice e (' ' :: (text ++ tail)) := by
  cases first : next.firstWord with
  | some w => exact follows_command first printed ends e
  | none =>
    cases next <;> cases first
    exact follows_value writes printable printed ends no_else

theorem reread_cons {e : Element F} {els : List (Element F)} {kept kept' : Prop}
    {turns : Nat} {t behind rest : Text}
    (head : Rereads (parseBuf fl defaultDevice (parseBlock fl defaultDevice turns) t) (some e) kept
      behind)
    (others : ∀ r, Same r behind → Rereads (parseBlock fl defaultDevice turns r) els kept' rest) :
    Rereads (parseBlock fl defaultDevice (turns + 1) t) (e :: els) (kept ∧ kept') rest := by
  rw [parseBlock]
  constructor
  · rintro ⟨k, k'⟩
    obtain ⟨r, read, left⟩ := head.reads k
    obtain ⟨r', read', left'⟩ := (others r left).reads k'
    refine ⟨r', ?_, left'⟩
    rw [read]
    dsimp only
    rw [read']
  · intro r read
    split at read
    · cases read
    · cases read
    · rename_i e' r₁ first
      split at read
      · cases read
      · rename_i els' r₂ second
        cases read
        have k := head.only r₁ first
        obtain ⟨r₃, again, left⟩ := head.reads k
        rw [first] at again
        cases again
        exact ⟨k, (others r₁ left).only r second⟩

mutual

theorem reread_element (writes : fl.Writes) (e : Element F) (turns : Nat) (text t tail : Text)
    (printable : Printable e) (printed : printElement fl around e = some text)
    (enough : e.turns ≤ turns) (same : Same t (text ++ tail)) (follows : Follows defaultDevice e tail) :
    Rereads (parseBuf fl defaultDevice (parseBlock fl defaultDevice turns) t) (some e)
      (Kept fl defaultDevice e) tail := by
  cases e with
  | sequence => exact reread_written _ writes rfl printable printed same follows.ends
  | image => exact reread_written _ writes rfl printable printed same follows.ends
  | expose => exact reread_written _ writes rfl printable printed same follows.ends
  | dark => exact reread_written _ writes rfl printable printed same follows.ends
  | shiftStoreStart => exact reread_written _ writes rfl printable printed same follows.ends
  | shiftStoreProgress => exact reread_written _ writes rfl printable printed same follows.ends
  | shiftStoreEnd => exact reread_written _ writes rfl printable printed same follows.ends
  | box => exact reread_written _ writes rfl printable printed same follows.ends
  | center => exact printable.elim
  | change => exact reread_written _ writes rfl printable printed same follows.ends
  | wait => exact reread_written _ writes rfl printable printed same follows.ends
  | waitAcquire => exact reread_written _ writes rfl printable printed same follows.ends
  | sendSignal => exact reread_written _ writes rfl printable printed same follows.ends
  | waitSignal => exact reread_written _ writes rfl printable printed same follows.ends
  | changeValue => exact reread_changeValue writes printable printed same follows.ends
  | command =>
    rw [printElement] at printed
    cases printed
    exact reread_command _ printable same follows.ends
  | signalEnd sig_num els =>
    rw [printElement] at printed
    obtain ⟨inner, inside, rfl⟩ := Option.map_eq_some_iff.mp printed
    have known : keywordOf "block_waitsig".toList = some .BLOCK_WAITSIG := by decide
    exact reread_counted known .signalEnd (fun _ => rfl)
      (fun _ _ same => (Element.signalEnd.inj same).2) follows.ends same fun t same =>
        reread_elements writes els turns inner t _ tail printable inside enough same
          (.brace follows.ends)
  | elementFor max els =>
    rw [printElement] at printed
    obtain ⟨inner, inside, rfl⟩ := Option.map_eq_some_iff.mp printed
    have known : keywordOf "for".toList = some .BLOCK_FOR := by decide
    exact reread_counted known .elementFor (fun _ => rfl)
      (fun _ _ same => (Element.elementFor.inj same).2) follows.ends same fun t same =>
        reread_elements writes els turns inner t _ tail printable inside enough same
          (.brace follows.ends)
  | once els =>
    rw [printElement] at printed
    obtain ⟨inner, inside, rfl⟩ := Option.map_eq_some_iff.mp printed
    have known : keywordOf "once".toList = some .BLOCK_ONCE := by decide
    rw [List.append_assoc] at same
    have ends := ends_append (ends_braces inner) follows.ends
    have block := reread_block ends.tail_same fun t same =>
      reread_elements writes els turns inner t _ tail printable inside enough same
        (.brace follows.ends)
    rw [parseBuf_keyword fl defaultDevice _ known same ends]
    exact block.block fun _ _ same => Element.once.inj same
  | acquired els elses =>
    rw [printElement] at printed
    obtain ⟨inner, inside, printed⟩ := Option.bind_eq_some_iff.mp printed
    obtain ⟨other, otherwise, printed⟩ := Option.bind_eq_some_iff.mp printed
    cases printed
    rw [Element.turns] at enough
    cases elses with
    | nil =>
      have bare : Rereads (parseBuf fl defaultDevice (parseBlock fl defaultDevice turns) t)
          (some (.acquired els [])) (KeptAll fl defaultDevice els) tail :=
        reread_bare (by simpa using same) follows fun t same =>
          reread_elements writes els turns inner t _ tail printable.1 inside (by omega) same
            (.brace follows.ends)
      exact bare.congr (by simp [Kept, KeptAll])
    | cons e elses =>
      refine reread_else (by simpa using same) (fun t same => ?_) fun t same => ?_
      · exact reread_elements writes els turns inner t _ _ printable.1 inside (by omega) same
          (.brace (ends_space _))
      · exact reread_elements writes (e :: elses) turns other t _ tail printable.2 otherwise (by omega)
          same (.brace follows.ends)
  | elementWhile condition max_cycles els =>
    rw [printElement] at printed
    obtain ⟨inner, -, rfl⟩ := Option.map_eq_some_iff.mp printed
    exact reread_while (by simpa [words] using same)
  | elementDo condition max_cycles els =>
    rw [printElement] at printed
    obtain ⟨condition', -, printed⟩ := Option.bind_eq_some_iff.mp printed
    obtain ⟨value, written, printed⟩ := Option.bind_eq_some_iff.mp printed
    obtain ⟨inner, inside, printed⟩ := Option.bind_eq_some_iff.mp printed
    cases printed
    exact reread_do (count_plain max_cycles (condition_written writes written))
      (by simpa [words] using same) follows fun t same =>
        reread_elements writes els turns inner t _ tail printable inside enough same
          (.brace follows.ends)

theorem reread_elements (writes : fl.Writes) (els : List (Element F)) (turns : Nat)
    (text t tail rest : Text) (printable : PrintableAll els)
    (printed : printElements fl around els = some text) (enough : turnsAll els ≤ turns)
    (same : Same t (text ++ tail)) (closing : Closing tail rest) :
    Rereads (parseBlock fl defaultDevice turns t) els (KeptAll fl defaultDevice els) rest := by
  cases els with
  | nil =>
    cases printed
    rw [turnsAll] at enough
    obtain ⟨turns, rfl⟩ := Nat.exists_eq_add_of_le' enough
    have closes : Closes fl defaultDevice tail rest := closing.closes
    obtain ⟨rest', read, left⟩ := closes (parseBlock fl defaultDevice turns) t same
    rw [parseBlock, read]
    exact .of_ok left (iff_of_true rfl trivial)
  | cons e els =>
    obtain ⟨first, behind, follow⟩ := printable
    rw [printElements] at printed
    obtain ⟨text₁, one, printed⟩ := Option.bind_eq_some_iff.mp printed
    obtain ⟨texts, others, printed⟩ := Option.bind_eq_some_iff.mp printed
    rw [turnsAll] at enough
    obtain ⟨turns, rfl⟩ : ∃ k, turns = k + 1 := ⟨turns - 1, by omega⟩
    have rest_reread (r : Text) (left : Same r (texts ++ tail)) :=
      reread_elements writes els turns texts r tail rest behind others (by omega) left closing
    cases els with
    | nil =>
      cases others
      cases printed
      exact reread_cons (reread_element writes e turns _ t tail first one (by omega) same
        (closing.follows e)) rest_reread
    | cons next els =>
      cases printed
      have follows : Follows defaultDevice e (' ' :: (texts ++ tail)) := by
        rw [printElements] at others
        obtain ⟨text₂, two, others⟩ := Option.bind_eq_some_iff.mp others
        obtain ⟨texts', -, others⟩ := Option.bind_eq_some_iff.mp others
        have no_else := fun bare => follow bare next rfl
        cases els with
        | nil =>
          cases others
          exact follows_next writes behind.1 two closing.ends no_else
        | cons _ els =>
          obtain rfl : text₂ ++ ' ' :: texts' = texts := Option.some.inj others
          rw [List.append_assoc]
          exact follows_next writes behind.1 two (ends_space _) no_else
      have head := reread_element writes e turns text₁ t (' ' :: (texts ++ tail)) first one (by omega)
        (by simpa using same) follows
      exact reread_cons head fun r left => rest_reread r (left.trans (same_space _))

end

end

end Rts2.Scripts.Parsing
