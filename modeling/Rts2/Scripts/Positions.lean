import Rts2.Scripts.Conditions

/-! Where the words of a script stand in the buffer it is parsed from, which of them end with a
zero, and where the elements are told to be in the whole script. -/
namespace Rts2.Scripts.Positions

open Parsing

structure Word where
  text : Text
  start : ℕ
deriving DecidableEq

/-- An element without a block. `commandStart` is the field of the script when the element is
built, `own` the place of its command word. -/
structure Leaf where
  commandStart : ℕ
  own : ℕ
  command : Text
  params : List Word
  len : ℕ

/-- `rest` is the text from cmdBufTop on, `cuts` are the places where words were ended with a
zero. The zeros within a word that is read (behind a device, in brackets or in a condition) are
not kept, as nothing reads there again. -/
structure Parser where
  size : ℕ
  rest : Text
  commandStart : ℕ
  cuts : List ℕ
  built : List Leaf

namespace Parser

def pos (p : Parser) : ℕ := p.size - p.rest.length

def advance (p : Parser) (rest : Text) (ended : Bool) : Parser :=
  { p with rest, cuts := if ended then p.cuts ++ [p.size - rest.length - 1] else p.cuts }

end Parser

def wordStart (t : Text) : ℕ :=
  (t.takeWhile isspace).length +
    if (skip t).head? = some '"' ∨ (skip t).head? = some '\'' then 1 else 0

def nextElement (p : Parser) : Word × Parser :=
  let (text, rest) := Parsing.nextElement p.rest
  let start := p.pos + wordStart p.rest
  (⟨text, start⟩, p.advance rest (start + text.length < p.size - rest.length))

def isNext (element : Text) (p : Parser) : Bool × Parser :=
  let (found, rest) := Parsing.isNext element p.rest
  (found, p.advance rest (found && (p.pos + (p.rest.takeWhile isspace).length + element.length <
    p.size - rest.length)))

deriving instance DecidableEq for Parsing.Kind

def readParams : List Parsing.Kind → Parser → Option (List Word) × Parser
  | [], p => (some [], p)
  | kind :: kinds, p =>
    let (word, p) := nextElement p
    if kind ≠ .string ∧ word.text = [] then (none, p)
    else
      let (words, p) := readParams kinds p
      (words.map (word :: ·), p)

inductive Shape where
  | leaf (kinds : List Parsing.Kind)
  | waitSignal
  | command
  | tempDisable
  | block (kinds : List Parsing.Kind)
  | acquired
  | whileBlock
  | doBlock
  | blockEnd

def shapes : List (Text × Shape) :=
  [("SEQUENCE".toList, .leaf [.string, .integer, .float]), ("I".toList, .leaf [.float]),
    ("E".toList, .leaf [.float]), ("D".toList, .leaf [.float]),
    ("STARTSHIFT".toList, .leaf [.float]), ("DOSHIFT".toList, .leaf [.integer, .float]),
    ("ENDSHIFT".toList, .leaf [.integer, .float]),
    ("BOX".toList, .leaf [.integer, .integer, .integer, .integer]),
    ("CENTER".toList, .leaf [.integer, .integer]), ("C".toList, .leaf [.double, .double]),
    ("W".toList, .leaf []), ("Aw".toList, .leaf []),
    ("P".toList, .leaf [.integer, .float, .integer]), ("SS".toList, .leaf [.integer]),
    ("SW".toList, .waitSignal), ("block_waitsig".toList, .block [.integer]),
    ("ifacq".toList, .acquired), ("\x7d".toList, .blockEnd), ("for".toList, .block [.integer]),
    ("while".toList, .whileBlock), ("do".toList, .doBlock), ("once".toList, .block []),
    ("waitsod".toList, .block [.integer]), ("waitfor".toList, .leaf [.string, .double, .double]),
    ("sleep".toList, .leaf [.double]), ("wait_idle".toList, .leaf []),
    ("tardisable".toList, .leaf []), ("tempdisable".toList, .tempDisable),
    ("tarboost".toList, .leaf [.integer, .integer]), ("loopdisable".toList, .leaf []),
    ("hex".toList, .block [.double, .double]), ("fxf".toList, .block [.double, .double]),
    ("spiral".toList, .block [.double, .double, .integer]), ("exe".toList, .leaf [.string]),
    ("cmd".toList, .command)]

def shapeOf (name : Text) : Option Shape := (shapes.find? (fun entry => entry.1 = name)).map (·.2)

/-- An element that is not null; of tempdisable the time that checkParameters reads. -/
structure Built where
  distime : Option Text

abbrev Parse := Except Stop (Option Built × Parser)

variable (defaultDevice : Text)

def build (own : ℕ) (command : Text) (params : List Word) (distime : Option Text) (p : Parser) :
    Parse :=
  .ok (some ⟨distime⟩,
    { p with built := p.built ++ [⟨p.commandStart, own, command, params, p.pos - p.commandStart⟩] })

def condition (p : Parser) : Except Stop Parser :=
  match parseCondition (F := ℚ) defaultDevice (p.rest.length + 1) none (skip p.rest) with
  | .error stop => .error stop
  | .ok (_, rest) => .ok (p.advance rest false)

def openBlock (parseBlock : Parser → Except Stop Parser) (p : Parser) : Parse :=
  let (el, p) := nextElement p
  if el.text.head? = some '{' then
    match parseBlock p with
    | .ok p => .ok (some ⟨none⟩, p)
    | .error stop => .error stop
  else .ok (none, p)

def parseShape (parseBlock : Parser → Except Stop Parser) (own : ℕ) (command : Text) (p : Parser) :
    Shape → Parse
  | .leaf kinds =>
    match readParams kinds p with
    | (some params, p) => build own command params none p
    | (none, p) => .ok (none, p)
  | .waitSignal =>
    match readParams [.integer] p with
    | (some params, p) =>
      if params.any (fun signalNum => atoi signalNum.text ≤ 0) then .ok (none, p)
      else build own command params none p
    | (none, p) => .ok (none, p)
  | .command =>
    match readParams [.string] p with
    | (some params, p) =>
      if params.any (fun cmd => decide ('(' ∈ cmd.text) != decide (')' ∈ cmd.text)) then
        .ok (none, p)
      else build own command params none p
    | (none, p) => .ok (none, p)
  | .tempDisable =>
    match readParams [.string] p with
    | (some params, p) => build own command params (params.head?.map Word.text) p
    | (none, p) => .ok (none, p)
  | .block kinds =>
    match readParams kinds p with
    | (some _, p) => openBlock parseBlock p
    | (none, p) => .ok (none, p)
  | .acquired =>
    match openBlock parseBlock p with
    | .error stop => .error stop
    | .ok (none, p) => .ok (none, p)
    | .ok (some built, p) =>
      match isNext "else".toList p with
      | (true, p) => openBlock parseBlock p
      | (false, p) => .ok (some built, p)
  | .whileBlock =>
    match condition defaultDevice p with
    | .error stop => .error stop
    | .ok p =>
      match readParams [.integer] p with
      | (some _, p) => openBlock parseBlock p
      | (none, p) => .ok (none, p)
  | .doBlock =>
    match readParams [.integer] p with
    | (none, p) => .ok (none, p)
    | (some _, p) =>
      match openBlock parseBlock p with
      | .error stop => .error stop
      | .ok (none, p) => .ok (none, p)
      | .ok (some built, p) =>
        let (el, p) := nextElement p
        if el.text = "while".toList then
          match condition defaultDevice p with
          | .error stop => .error stop
          | .ok p => .ok (some built, p)
        else .ok (none, p)
  | .blockEnd => .ok (none, p)

def readCommand (p : Parser) : Text × Text × Parser :=
  let (word, p) := nextElement p
  let (device, command) := splitDevice defaultDevice word.text
  (device, command,
    { p with commandStart := word.start + (word.text.length - command.length) })

/-- Script::parseBuf. -/
def parseBuf (parseBlock : Parser → Except Stop Parser) (p : Parser) : Parse :=
  let (device, command, p) := readCommand defaultDevice p
  if command = [] then .ok (none, p)
  else
    match shapeOf command with
    | some shape => parseShape defaultDevice parseBlock p.commandStart command p shape
    | none =>
      if '=' ∈ command then
        match parseChangeValue (F := ℚ) device command with
        | some _ => build p.commandStart command [] none p
        | none => .error .error
      else .ok (none, p)

variable (goodTime : Text → Bool)

def parseElements : ℕ → Bool → Parser → Except Stop Parser
  | 0, _, _ => .error .turns
  | turns + 1, top, p =>
    match parseBuf defaultDevice (parseElements turns false) p with
    | .error stop => .error stop
    | .ok (none, p) => .ok p
    | .ok (some built, p) =>
      if top && built.distime.any (!goodTime ·) then .error .error
      else parseElements turns top p

def cmdBuf (line : Text) : Text :=
  (line.takeWhile (· ≠ Char.ofNat 0)).map fun c =>
    if c = '\n' ∨ c = '\r' ∨ c = '\t' then ' ' else c

def lineText (line : Text) : Text := (cmdBuf line).takeWhile (· ≠ '#')

def hasComment (line : Text) : Bool := '#' ∈ cmdBuf line

def parseLine (line : Text) : Except Stop Parser :=
  parseElements defaultDevice goodTime ((lineText line).length + 1) true
    ⟨(lineText line).length, lineText line, 0, [], []⟩

/-- An element with what getStartPos and getLen return. `own` is where its text stands in the
whole script. -/
structure Placed where
  startPos : ℕ
  len : ℕ
  own : ℕ
  text : Text

structure Script where
  wholeScript : Text
  lineOffset : ℕ
  commentNumber : ℕ
  elements : List Placed

def Script.empty : Script := ⟨[], 0, 1, []⟩

namespace Script

def separate (sc : Script) : Script :=
  if sc.wholeScript ≠ [] ∧ sc.wholeScript.getLast? ≠ some ' ' then
    { sc with wholeScript := sc.wholeScript ++ [' '], lineOffset := sc.lineOffset + 1 }
  else sc

def place (sc : Script) (text : Text) (leaf : Leaf) : Placed where
  startPos := leaf.commandStart + sc.lineOffset
  len := leaf.len
  own := sc.wholeScript.length + leaf.own
  text := (text.drop leaf.own).take leaf.len

def mark (n : ℕ) : Text := '#' :: (writeInt n ++ [' '])

def addComment (sc : Script) (commandStart : ℕ) : Script :=
  let startPos := commandStart + sc.lineOffset
  let sc :=
    if sc.wholeScript ≠ [] then
      { sc with wholeScript := sc.wholeScript ++ [' '], lineOffset := sc.lineOffset + 1 }
    else sc
  ⟨sc.wholeScript ++ mark sc.commentNumber, sc.lineOffset + 3, sc.commentNumber + 1,
    sc.elements ++ [⟨startPos, 2, sc.wholeScript.length, '#' :: writeInt sc.commentNumber⟩]⟩

def addLine (sc : Script) (line : Text) (p : Parser) : Script :=
  let sc := sc.separate
  let sc := { sc with
    wholeScript := sc.wholeScript ++ lineText line
    elements := sc.elements ++ p.built.map (sc.place (lineText line)) }
  if hasComment line then sc.addComment p.commandStart else sc

end Script

/-- Script::parseScript; it ends early where it throws. -/
def parseScript (sc : Script) (line : Text) : Except Stop Script :=
  match parseLine defaultDevice goodTime line with
  | .ok p => .ok (sc.addLine line p)
  | .error stop => .error stop

/-- Script::setTarget, with the lines that getScript hands out. -/
def setTarget (lines : List Text) : Except Stop Script :=
  lines.foldlM (parseScript defaultDevice goodTime) Script.empty

theorem wordTo_spec (ends : Char → Bool) (t : Text) :
    ∃ behind, t = (wordTo ends t).1 ++ behind ∧ (wordTo ends t).2 = behind.tail :=
  ⟨t.dropWhile (!ends ·), (List.takeWhile_append_dropWhile ..).symm, rfl⟩

theorem nextElement_spec (t : Text) :
    ∃ lead behind, t = lead ++ ((Parsing.nextElement t).1 ++ behind) ∧
      lead.length = wordStart t ∧ (Parsing.nextElement t).2 = behind.tail := by
  have split : t = t.takeWhile isspace ++ skip t := (List.takeWhile_append_dropWhile ..).symm
  cases skipped : skip t with
  | nil =>
    refine ⟨t.takeWhile isspace, [], ?_, ?_, ?_⟩
    · rw [Parsing.nextElement, skipped]
      simpa [wordTo, skipped] using split
    · simp [wordStart, skipped]
    · rw [Parsing.nextElement, skipped]
      rfl
  | cons c u =>
    by_cases double : c = '"'
    · subst double
      obtain ⟨behind, same, rest⟩ := wordTo_spec (· = '"') u
      have read : Parsing.nextElement t = wordTo (· = '"') u := by
        rw [Parsing.nextElement, skipped]
        rfl
      refine ⟨t.takeWhile isspace ++ ['"'], behind, ?_, ?_, read ▸ rest⟩
      · rw [read, List.append_assoc, List.singleton_append, ← same, ← skipped]
        exact split
      · simp [wordStart, skipped]
    · by_cases simple : c = '\''
      · subst simple
        obtain ⟨behind, same, rest⟩ := wordTo_spec (· = '\'') u
        have read : Parsing.nextElement t = wordTo (· = '\'') u := by
          rw [Parsing.nextElement, skipped]
          rfl
        refine ⟨t.takeWhile isspace ++ ['\''], behind, ?_, ?_, read ▸ rest⟩
        · rw [read, List.append_assoc, List.singleton_append, ← same, ← skipped]
          exact split
        · simp [wordStart, skipped]
      · obtain ⟨behind, same, rest⟩ := wordTo_spec isspace (c :: u)
        have read : Parsing.nextElement t = wordTo isspace (c :: u) := by
          rw [Parsing.nextElement, skipped]
          split
          next eq => exact absurd (List.cons.inj eq).1 double
          next eq => exact absurd (List.cons.inj eq).1 simple
          next => rfl
        refine ⟨t.takeWhile isspace, behind, ?_, ?_, ?_⟩
        · rw [read, ← same, ← skipped]
          exact split
        · simp [wordStart, skipped, double, simple]
        · rw [read]
          exact rest

theorem pos_eq {s : Text} {p : Parser} (size : p.size = s.length) (suffix : p.rest <:+ s) :
    p.pos + p.rest.length = s.length := by
  have length := suffix.length_le
  rw [Parser.pos, size]
  omega

/-- The parser went on within the buffer: zeros were set only where it went. -/
structure Later (p p' : Parser) : Prop where
  size : p'.size = p.size
  suffix : p'.rest <:+ p.rest
  cuts : ∃ more, p'.cuts = p.cuts ++ more ∧ ∀ i ∈ more, p.pos ≤ i ∧ i < p'.pos

theorem Later.pos {p p' : Parser} (later : Later p p') : p.pos ≤ p'.pos := by
  have length := later.suffix.length_le
  rw [Parser.pos, Parser.pos, later.size]
  omega

theorem Later.of_same {p p' : Parser} (size : p'.size = p.size) (rest : p'.rest = p.rest)
    (cuts : p'.cuts = p.cuts) : Later p p' :=
  ⟨size, rest ▸ List.suffix_refl _, [], by simp [cuts]⟩

theorem Later.refl (p : Parser) : Later p p := .of_same rfl rfl rfl

theorem Later.trans {p p' p'' : Parser} (first : Later p p') (second : Later p' p'') :
    Later p p'' := by
  obtain ⟨more, eq, range⟩ := first.cuts
  obtain ⟨more', eq', range'⟩ := second.cuts
  refine ⟨second.size.trans first.size, second.suffix.trans first.suffix, more ++ more', ?_, ?_⟩
  · rw [eq', eq, List.append_assoc]
  · intro i mem
    rcases List.mem_append.mp mem with mem | mem
    · exact ⟨(range i mem).1, (range i mem).2.trans_le second.pos⟩
    · exact ⟨first.pos.trans (range' i mem).1, (range' i mem).2⟩

theorem advance_later {p : Parser} {rest : Text} {ended : Bool} (within : p.rest.length ≤ p.size)
    (suffix : rest <:+ p.rest) (shorter : ended = true → rest.length < p.rest.length) :
    Later p (p.advance rest ended) := by
  refine ⟨rfl, suffix, ?_⟩
  cases ended with
  | false => exact ⟨[], by simp [Parser.advance], by simp⟩
  | true =>
    refine ⟨[p.size - rest.length - 1], rfl, ?_⟩
    intro i mem
    have less := shorter rfl
    rw [List.mem_singleton.mp mem]
    simp only [Parser.pos, Parser.advance]
    omega

structure Word.At (s : Text) (p : Parser) (w : Word) : Prop where
  text : w.text <+: s.drop w.start
  read : w.start + w.text.length ≤ p.pos
  uncut : ∀ i ∈ p.cuts, i < w.start ∨ w.start + w.text.length ≤ i
  ended : w.start + w.text.length ∈ p.cuts ∨ w.start + w.text.length = s.length

structure Leaf.At (s : Text) (p : Parser) (leaf : Leaf) : Prop where
  commandStart : leaf.commandStart = leaf.own
  command : leaf.command <+: (s.drop leaf.own).take leaf.len
  read : leaf.own + leaf.len ≤ p.pos
  params : ∀ w ∈ leaf.params, w.At s p

theorem Word.At.later {s : Text} {p p' : Parser} {w : Word} (placed : w.At s p)
    (later : Later p p') : w.At s p' := by
  obtain ⟨more, eq, range⟩ := later.cuts
  refine ⟨placed.text, placed.read.trans later.pos, ?_, ?_⟩
  · intro i mem
    rw [eq] at mem
    rcases List.mem_append.mp mem with mem | mem
    · exact placed.uncut i mem
    · exact .inr (placed.read.trans (range i mem).1)
  · rw [eq]
    exact placed.ended.imp_left (List.mem_append_left _)

theorem Leaf.At.later {s : Text} {p p' : Parser} {leaf : Leaf} (placed : leaf.At s p)
    (later : Later p p') : leaf.At s p' :=
  ⟨placed.commandStart, placed.command, placed.read.trans later.pos,
    fun w mem => (placed.params w mem).later later⟩

def Apart (words : List Word) : Prop :=
  words.Pairwise (fun v w => v.start + v.text.length ≤ w.start)

structure Inv (s : Text) (p : Parser) : Prop where
  size : p.size = s.length
  suffix : p.rest <:+ s
  cuts : ∀ i ∈ p.cuts, i < p.pos
  commandStart : p.commandStart ≤ p.pos
  leaves : ∀ leaf ∈ p.built, leaf.At s p
  apart : Apart (p.built.flatMap Leaf.params)

structure Reads (p p' : Parser) : Prop where
  later : Later p p'
  built : p'.built = p.built
  commandStart : p'.commandStart = p.commandStart

theorem Reads.trans {p p' p'' : Parser} (first : Reads p p') (second : Reads p' p'') :
    Reads p p'' :=
  ⟨first.later.trans second.later, second.built.trans first.built,
    second.commandStart.trans first.commandStart⟩

theorem Inv.within {s : Text} {p : Parser} (inv : Inv s p) : p.rest.length ≤ p.size := by
  rw [inv.size]
  exact inv.suffix.length_le

theorem Inv.reads {s : Text} {p p' : Parser} (inv : Inv s p) (reads : Reads p p') : Inv s p' := by
  obtain ⟨later, built, commandStart⟩ := reads
  obtain ⟨more, eq, range⟩ := later.cuts
  refine ⟨later.size.trans inv.size, later.suffix.trans inv.suffix, ?_, ?_, ?_, ?_⟩
  · intro i mem
    rw [eq] at mem
    rcases List.mem_append.mp mem with mem | mem
    · exact (inv.cuts i mem).trans_le later.pos
    · exact (range i mem).2
  · rw [commandStart]
    exact inv.commandStart.trans later.pos
  · intro leaf mem
    rw [built] at mem
    exact (inv.leaves leaf mem).later later
  · rw [built]
    exact inv.apart

theorem advance_reads {s : Text} {p : Parser} (inv : Inv s p) {rest : Text} {ended : Bool}
    (suffix : rest <:+ p.rest) (shorter : ended = true → rest.length < p.rest.length) :
    Reads p (p.advance rest ended) :=
  ⟨advance_later inv.within suffix shorter, rfl, rfl⟩

theorem drop_pos {s : Text} {p : Parser} (inv : Inv s p) : s.drop p.pos = p.rest := by
  obtain ⟨before, rfl⟩ := inv.suffix
  have at_ : p.pos = before.length := by
    rw [Parser.pos, inv.size, List.length_append, Nat.add_sub_cancel]
  rw [at_, List.drop_left]

theorem nextElement_eq (p : Parser) : nextElement p =
    (⟨(Parsing.nextElement p.rest).1, p.pos + wordStart p.rest⟩,
      p.advance (Parsing.nextElement p.rest).2 (p.pos + wordStart p.rest +
        (Parsing.nextElement p.rest).1.length < p.size - (Parsing.nextElement p.rest).2.length)) :=
  rfl

theorem nextElement_at {s : Text} {p : Parser} (inv : Inv s p) :
    Reads p (nextElement p).2 ∧ (nextElement p).1.At s (nextElement p).2 ∧
      p.pos ≤ (nextElement p).1.start := by
  obtain ⟨lead, behind, whole, start, rest⟩ := nextElement_spec p.rest
  rw [nextElement_eq]
  generalize Parsing.nextElement p.rest = read at whole rest ⊢
  obtain ⟨text, behind'⟩ := read
  dsimp only at whole rest ⊢
  subst rest
  have total := pos_eq inv.size inv.suffix
  have size := inv.size
  have length : p.rest.length = wordStart p.rest + (text.length + behind.length) := by
    rw [← start]
    conv_lhs => rw [whole]
    simp
  have suffix : behind.tail <:+ p.rest := by
    rw [whole]
    exact (List.tail_suffix behind).trans
      ((List.suffix_append _ _).trans (List.suffix_append _ _))
  have tail : behind.tail.length = behind.length - 1 := List.length_tail
  have at_ : s.drop (p.pos + wordStart p.rest) = text ++ behind := by
    rw [← List.drop_drop, drop_pos inv, ← start]
    conv_lhs => rw [whole]
    rw [List.drop_left]
  have shorter : decide (p.pos + wordStart p.rest + text.length < p.size - behind.tail.length) = true →
      behind.tail.length < p.rest.length := by
    intro ended
    rw [decide_eq_true_eq] at ended
    omega
  have reads := advance_reads inv suffix shorter
  have read : (p.advance behind.tail
      (p.pos + wordStart p.rest + text.length < p.size - behind.tail.length)).pos =
        p.size - behind.tail.length := rfl
  refine ⟨reads, ⟨?_, ?_, ?_, ?_⟩, Nat.le_add_right _ _⟩
  · rw [at_]
    exact List.prefix_append _ _
  · dsimp only
    rw [read]
    omega
  · intro i mem
    by_cases ended : p.pos + wordStart p.rest + text.length < p.size - behind.tail.length
    · simp only [Parser.advance, ended, decide_true, if_true, List.mem_append,
        List.mem_singleton] at mem
      rcases mem with mem | rfl
      · have before := inv.cuts i mem
        exact .inl (by dsimp only; omega)
      · exact .inr (by dsimp only; omega)
    · simp only [Parser.advance, ended, decide_false, Bool.false_eq_true, if_false] at mem
      have before := inv.cuts i mem
      exact .inl (by dsimp only; omega)
  · by_cases none : behind = []
    · right
      rw [none, List.length_nil] at length
      dsimp only
      omega
    · left
      have some_char : 0 < behind.length := List.length_pos_iff.mpr none
      have ended : p.pos + wordStart p.rest + text.length < p.size - behind.tail.length := by omega
      simp only [Parser.advance, ended, decide_true, if_true, List.mem_append, List.mem_singleton]
      right
      omega

/-- The parameters that were read, in their order behind the place where reading began. -/
structure ParamsAt (s : Text) (p p' : Parser) (words : List Word) : Prop where
  at_ : ∀ w ∈ words, w.At s p'
  behind : ∀ w ∈ words, p.pos ≤ w.start
  apart : Apart words

theorem readParams_at {s : Text} (kinds : List Parsing.Kind) {p : Parser} (inv : Inv s p) :
    Reads p (readParams kinds p).2 ∧
      ∀ words ∈ (readParams kinds p).1, ParamsAt s p (readParams kinds p).2 words := by
  induction kinds generalizing p with
  | nil =>
    refine ⟨⟨Later.refl p, rfl, rfl⟩, ?_⟩
    rintro words ⟨⟩
    exact ⟨by simp, by simp, List.Pairwise.nil⟩
  | cons kind kinds ih =>
    obtain ⟨reads, placed, behind⟩ := nextElement_at inv
    obtain ⟨others, params⟩ := ih (inv.reads reads)
    rw [readParams]
    dsimp only
    split
    · refine ⟨reads, ?_⟩
      rintro words ⟨⟩
    · refine ⟨reads.trans others, ?_⟩
      intro words mem
      obtain ⟨rest, found, rfl⟩ := Option.map_eq_some_iff.mp mem
      obtain ⟨at_, later, apart⟩ := params rest found
      have start : ∀ w ∈ rest, (nextElement p).1.start + (nextElement p).1.text.length ≤ w.start :=
        fun w mem => placed.read.trans (later w mem)
      refine ⟨?_, ?_, List.pairwise_cons.mpr ⟨start, apart⟩⟩
      · exact List.forall_mem_cons.mpr ⟨placed.later others.later, at_⟩
      · exact List.forall_mem_cons.mpr
          ⟨behind, fun w mem => reads.later.pos.trans (later w mem)⟩

theorem isNext_reads {s : Text} (element : Text) {p : Parser} (inv : Inv s p) :
    Reads p (isNext element p).2 := by
  have skipped : skip p.rest <:+ p.rest := List.dropWhile_suffix _
  have size := inv.within
  have split : p.rest.length = (p.rest.takeWhile isspace).length + (skip p.rest).length := by
    rw [← List.length_append]
    exact congrArg List.length (List.takeWhile_append_dropWhile ..).symm
  have eq : isNext element p = ((Parsing.isNext element p.rest).1,
      p.advance (Parsing.isNext element p.rest).2 ((Parsing.isNext element p.rest).1 &&
        (p.pos + (p.rest.takeWhile isspace).length + element.length <
          p.size - (Parsing.isNext element p.rest).2.length))) := rfl
  rw [eq, Parsing.isNext]
  split
  · refine advance_reads inv ?_ ?_
    · exact ((List.tail_suffix _).trans (List.drop_suffix _ _)).trans skipped
    · intro ended
      dsimp only at ended ⊢
      rw [Bool.true_and, decide_eq_true_eq, Parser.pos] at ended
      omega
  · exact advance_reads inv skipped (by simp)

theorem condition_suffix {defaultDevice : Text} {turns : ℕ} {op cond : Option (Condition ℚ)}
    {t rest : Text} (read : parseCondition defaultDevice turns op t = .ok (cond, rest)) :
    rest <:+ t := by
  induction turns generalizing op cond t rest with
  | zero => contradiction
  | succ turns ih =>
    have skipped : skip t <:+ t := List.dropWhile_suffix _
    rw [parseCondition] at read
    split at read
    · cases read
      exact List.nil_suffix
    · split at read
      · contradiction
      next t' same =>
        rw [same] at skipped
        cases op with
        | none => contradiction
        | some op =>
          cases read
          exact (List.suffix_cons _ _).trans skipped
      next t' same =>
        rw [same] at skipped
        exact (ih read).trans ((List.dropWhile_suffix _).trans
          ((List.suffix_cons _ _).trans skipped))
      next c t' _ _ same =>
        rw [same] at skipped
        split at read
        · split at read
          next op' cmp t'' compares =>
            have compared : t'' <:+ t' := by
              unfold comparator at compares
              split at compares
              · cases compares
                exact List.suffix_cons _ _
              · split at compares
                · cases compares
                  exact List.suffix_refl _
                · split at compares
                  · cases compares
                    exact List.suffix_refl _
                  · contradiction
            split at read
            next op2 t₂ second =>
              cases read
              exact (ih second).trans ((List.dropWhile_suffix _).trans
                (compared.trans ((List.suffix_cons _ _).trans skipped)))
            · contradiction
          · contradiction
        · split at read
          · dsimp only at read
            split at read
            · exact (ih read).trans ((List.dropWhile_suffix _).trans skipped)
            · contradiction
          · split at read
            · dsimp only at read
              split at read
              · exact (ih read).trans ((List.dropWhile_suffix _).trans skipped)
              · exact (ih read).trans ((List.dropWhile_suffix _).trans skipped)
            · contradiction

theorem condition_reads {s : Text} {defaultDevice : Text} {p p' : Parser} (inv : Inv s p)
    (read : condition defaultDevice p = .ok p') : Reads p p' := by
  unfold condition at read
  split at read
  · contradiction
  next cond rest parsed =>
    cases read
    exact advance_reads inv ((condition_suffix parsed).trans (List.dropWhile_suffix _)) (by simp)

def Keeps (s : Text) (parse : Parser → Except Stop Parser) : Prop :=
  ∀ p p', Inv s p → parse p = .ok p' → Inv s p' ∧ Later p p'

theorem openBlock_keeps {s : Text} {parseBlock : Parser → Except Stop Parser}
    (keeps : Keeps s parseBlock) {p p' : Parser} {built : Option Built} (inv : Inv s p)
    (read : openBlock parseBlock p = .ok (built, p')) : Inv s p' ∧ Later p p' := by
  obtain ⟨reads, -, -⟩ := nextElement_at inv
  unfold openBlock at read
  dsimp only at read
  split at read
  · split at read
    next behind parsed =>
      cases read
      obtain ⟨inv', later⟩ := keeps _ _ (inv.reads reads) parsed
      exact ⟨inv', reads.later.trans later⟩
    · contradiction
  · cases read
    exact ⟨inv.reads reads, reads.later⟩

theorem build_keeps {s : Text} {p p' p'' : Parser} {own : ℕ} {command : Text} {params : List Word}
    {distime : Option Text} {built : Option Built} (inv : Inv s p) (reads : Reads p p')
    (placed : ParamsAt s p p' params) (told : p.commandStart = own) (before : own ≤ p.pos)
    (word : command <+: (s.drop own).take (p.pos - own))
    (read : build own command params distime p' = .ok (built, p'')) : Inv s p'' ∧ Later p p'' := by
  have inv' := inv.reads reads
  have later := reads.later
  have end_ : own + (p'.pos - p'.commandStart) = p'.pos := by
    have on := later.pos
    rw [reads.commandStart, told]
    omega
  cases read
  refine ⟨⟨inv'.size, inv'.suffix, inv'.cuts, inv'.commandStart, ?_, ?_⟩,
    later.trans (.of_same rfl rfl rfl)⟩
  · intro leaf mem
    rcases List.mem_append.mp mem with mem | mem
    · exact (inv'.leaves leaf mem).later (.of_same rfl rfl rfl)
    · rw [List.mem_singleton.mp mem]
      refine ⟨reads.commandStart.trans told, ?_, end_.le, fun w listed =>
        (placed.at_ w listed).later (.of_same rfl rfl rfl)⟩
      refine word.trans ?_
      have longer : p.pos - own ≤ p'.pos - p'.commandStart := by
        have on := later.pos
        rw [reads.commandStart, told]
        omega
      exact (List.take_prefix_take_left longer)
  · have apart := inv'.apart
    rw [reads.built] at apart
    simp only [Apart, reads.built, List.flatMap_append, List.flatMap_cons, List.flatMap_nil,
      List.append_nil]
    refine List.pairwise_append.mpr ⟨apart, placed.apart, ?_⟩
    intro v old w new
    obtain ⟨leaf, mem, listed⟩ := List.mem_flatMap.mp old
    exact ((inv.leaves leaf mem).params v listed).read.trans (placed.behind w new)

theorem leaf_keeps (kinds : List Parsing.Kind) {s : Text} {p p'' : Parser} {own : ℕ} {command : Text}
    {built : Option Built} (next : List Word → Parser → Parse) (inv : Inv s p)
    (told : p.commandStart = own) (before : own ≤ p.pos)
    (word : command <+: (s.drop own).take (p.pos - own))
    (cases : ∀ words p', next words p' = .ok (none, p') ∨
      ∃ distime, next words p' = build own command words distime p')
    (read : (match readParams kinds p with
      | (some params, p) => next params p
      | (none, p) => .ok (none, p)) = .ok (built, p'')) : Inv s p'' ∧ Later p p'' := by
  obtain ⟨reads, params⟩ := readParams_at kinds inv
  split at read
  next words p' eq =>
    rw [eq] at reads params
    rcases cases words p' with null | ⟨distime, is⟩
    · rw [null] at read
      cases read
      exact ⟨inv.reads reads, reads.later⟩
    · rw [is] at read
      exact build_keeps inv reads (params words rfl) told before word read
  next p' eq =>
    rw [eq] at reads
    cases read
    exact ⟨inv.reads reads, reads.later⟩

theorem parseShape_keeps {s : Text} {defaultDevice : Text}
    {parseBlock : Parser → Except Stop Parser} (keeps : Keeps s parseBlock) {p p'' : Parser}
    {own : ℕ} {command : Text} {built : Option Built} {shape : Shape} (inv : Inv s p)
    (told : p.commandStart = own) (before : own ≤ p.pos)
    (word : command <+: (s.drop own).take (p.pos - own))
    (read : parseShape defaultDevice parseBlock own command p shape = .ok (built, p'')) :
    Inv s p'' ∧ Later p p'' := by
  cases shape with
  | leaf kinds =>
    exact leaf_keeps kinds (fun params p => build own command params none p) inv told before word
      (fun _ _ => .inr ⟨none, rfl⟩) read
  | waitSignal =>
    refine leaf_keeps [.integer] (fun params p => if params.any (fun signalNum => atoi signalNum.text ≤ 0) then
      .ok (none, p) else build own command params none p) inv told before word ?_ read
    intro words p'
    split
    · exact .inl rfl
    · exact .inr ⟨none, rfl⟩
  | command =>
    refine leaf_keeps [.string] (fun params p =>
      if params.any (fun cmd => decide ('(' ∈ cmd.text) != decide (')' ∈ cmd.text)) then
        .ok (none, p) else build own command params none p) inv told before word ?_ read
    intro words p'
    split
    · exact .inl rfl
    · exact .inr ⟨none, rfl⟩
  | tempDisable =>
    exact leaf_keeps [.string]
      (fun params p => build own command params (params.head?.map Word.text) p) inv told
      before word (fun words _ => .inr ⟨words.head?.map Word.text, rfl⟩) read
  | block kinds =>
    obtain ⟨reads, -⟩ := readParams_at kinds inv
    rw [parseShape] at read
    split at read
    next words p' eq =>
      rw [eq] at reads
      obtain ⟨inv', later⟩ := openBlock_keeps keeps (inv.reads reads) read
      exact ⟨inv', reads.later.trans later⟩
    next p' eq =>
      rw [eq] at reads
      cases read
      exact ⟨inv.reads reads, reads.later⟩
  | acquired =>
    rw [parseShape] at read
    split at read
    · contradiction
    next p' block =>
      cases read
      exact openBlock_keeps keeps inv block
    next first p' block =>
      obtain ⟨inv', later⟩ := openBlock_keeps keeps inv block
      have reads := isNext_reads "else".toList inv'
      split at read
      next p₂ eq =>
        rw [eq] at reads
        obtain ⟨inv'', later'⟩ := openBlock_keeps keeps (inv'.reads reads) read
        exact ⟨inv'', later.trans (reads.later.trans later')⟩
      next p₂ eq =>
        rw [eq] at reads
        cases read
        exact ⟨inv'.reads reads, later.trans reads.later⟩
  | whileBlock =>
    rw [parseShape] at read
    split at read
    · contradiction
    next p' parsed =>
      have first := condition_reads inv parsed
      obtain ⟨reads, -⟩ := readParams_at [.integer] (inv.reads first)
      split at read
      next words p₂ eq =>
        rw [eq] at reads
        obtain ⟨inv', later⟩ := openBlock_keeps keeps ((inv.reads first).reads reads) read
        exact ⟨inv', first.later.trans (reads.later.trans later)⟩
      next p₂ eq =>
        rw [eq] at reads
        cases read
        exact ⟨(inv.reads first).reads reads, first.later.trans reads.later⟩
  | doBlock =>
    obtain ⟨reads, -⟩ := readParams_at [.integer] inv
    rw [parseShape] at read
    split at read
    next p' eq =>
      rw [eq] at reads
      cases read
      exact ⟨inv.reads reads, reads.later⟩
    next words p' eq =>
      rw [eq] at reads
      split at read
      · contradiction
      next p₂ block =>
        cases read
        obtain ⟨inv', later⟩ := openBlock_keeps keeps (inv.reads reads) block
        exact ⟨inv', reads.later.trans later⟩
      next first p₂ block =>
        obtain ⟨inv', later⟩ := openBlock_keeps keeps (inv.reads reads) block
        obtain ⟨element, -, -⟩ := nextElement_at inv'
        dsimp only at read
        split at read
        · split at read
          · contradiction
          next p₃ parsed =>
            cases read
            have last := condition_reads (inv'.reads element) parsed
            exact ⟨(inv'.reads element).reads last,
              reads.later.trans (later.trans (element.later.trans last.later))⟩
        · cases read
          exact ⟨inv'.reads element, reads.later.trans (later.trans element.later)⟩
  | blockEnd =>
    cases read
    exact ⟨inv, Later.refl p⟩

theorem splitDevice_suffix (defaultDevice word : Text) :
    (splitDevice defaultDevice word).2 <:+ word := by
  unfold splitDevice
  dsimp only
  split
  · exact (List.tail_suffix _).trans (List.dropWhile_suffix _)
  · exact List.suffix_refl _

structure CommandAt (s : Text) (p : Parser) (command : Text) (p' : Parser) : Prop where
  inv : Inv s p'
  later : Later p p'
  word : command <+: (s.drop p'.commandStart).take (p'.pos - p'.commandStart)
  further : command ≠ [] → p.pos < p'.pos

theorem readCommand_at {s : Text} (defaultDevice : Text) {p : Parser} (inv : Inv s p) :
    CommandAt s p (readCommand defaultDevice p).2.1 (readCommand defaultDevice p).2.2 := by
  obtain ⟨reads, placed, start⟩ := nextElement_at inv
  unfold readCommand
  dsimp only
  obtain ⟨device, split⟩ := splitDevice_suffix defaultDevice (nextElement p).1.text
  generalize (splitDevice defaultDevice (nextElement p).1.text).2 = command at split ⊢
  have inv' := inv.reads reads
  have length := congrArg List.length split
  rw [List.length_append] at length
  have own : (nextElement p).1.start + ((nextElement p).1.text.length - command.length) =
      (nextElement p).1.start + device.length := by omega
  rw [own]
  have end_ := placed.read
  have same : Parser.pos { (nextElement p).2 with
    commandStart := (nextElement p).1.start + device.length } = (nextElement p).2.pos := rfl
  have before : (nextElement p).1.start + device.length ≤ (nextElement p).2.pos := by omega
  refine ⟨⟨inv'.size, inv'.suffix, inv'.cuts, before,
      fun leaf mem => (inv'.leaves leaf mem).later (.of_same rfl rfl rfl), inv'.apart⟩,
    reads.later.trans (.of_same rfl rfl rfl), ?_, ?_⟩
  · obtain ⟨tail, eq⟩ := placed.text
    have at_ : s.drop ((nextElement p).1.start + device.length) = command ++ tail := by
      rw [← List.drop_drop, ← eq, ← split, List.append_assoc, List.drop_left]
    rw [same, at_]
    exact (List.prefix_take_iff).mpr ⟨List.prefix_append _ _, by dsimp only; omega⟩
  · intro some_command
    have letters := List.length_pos_iff.mpr some_command
    rw [same]
    omega

theorem parseBuf_keeps {s : Text} {defaultDevice : Text}
    {parseBlock : Parser → Except Stop Parser} (keeps : Keeps s parseBlock) {p p'' : Parser}
    {built : Option Built} (inv : Inv s p)
    (read : parseBuf defaultDevice parseBlock p = .ok (built, p'')) :
    Inv s p'' ∧ Later p p'' ∧ (built.isSome = true → p.pos < p''.pos) := by
  have start := readCommand_at defaultDevice inv
  unfold parseBuf at read
  generalize readCommand defaultDevice p = split at start read
  obtain ⟨device, command, p'⟩ := split
  dsimp only at start read
  split at read
  · cases read
    exact ⟨start.inv, start.later, by simp⟩
  next some_command =>
  have further := start.further some_command
  split at read
  next shape known =>
    obtain ⟨inv'', later⟩ := parseShape_keeps keeps start.inv rfl start.inv.commandStart start.word read
    exact ⟨inv'', start.later.trans later, fun _ => further.trans_le later.pos⟩
  · split at read
    · split at read
      next element made =>
        obtain ⟨inv'', later⟩ := build_keeps start.inv ⟨Later.refl _, rfl, rfl⟩
          ⟨by simp, by simp, List.Pairwise.nil⟩ rfl start.inv.commandStart start.word read
        exact ⟨inv'', start.later.trans later, fun _ => further.trans_le later.pos⟩
      · contradiction
    · cases read
      exact ⟨start.inv, start.later, by simp⟩

theorem parseElements_keeps {s : Text} (defaultDevice : Text) (goodTime : Text → Bool)
    (turns : ℕ) (top : Bool) : Keeps s (parseElements defaultDevice goodTime turns top) := by
  induction turns generalizing top with
  | zero =>
    intro p p' inv read
    contradiction
  | succ turns ih =>
    intro p p' inv read
    rw [parseElements] at read
    split at read
    · contradiction
    next p₁ parsed =>
      cases read
      obtain ⟨inv', later, -⟩ := parseBuf_keeps (ih false) inv parsed
      exact ⟨inv', later⟩
    next built p₁ parsed =>
      obtain ⟨inv', later, -⟩ := parseBuf_keeps (ih false) inv parsed
      split at read
      · contradiction
      · obtain ⟨inv'', later'⟩ := ih top p₁ p' inv' read
        exact ⟨inv'', later.trans later'⟩

theorem condition_turns {defaultDevice : Text} {turns : ℕ} {op : Option (Condition ℚ)} {t : Text}
    (enough : t.length < turns) : parseCondition defaultDevice turns op t ≠ .error .turns := by
  induction turns generalizing op t with
  | zero => exact absurd enough (Nat.not_lt_zero _)
  | succ turns ih =>
    have skipped := skip_length t
    have inked {c : Char} {t' : Text} (same : skip t = c :: t') : isspace c = false := by
      have stops := List.head?_dropWhile_not isspace t
      rw [show t.dropWhile isspace = c :: t' from same] at stops
      exact Bool.eq_false_iff.mpr fun space => by simp [space] at stops
    rw [parseCondition]
    split
    · simp
    · split
      · simp
      · split <;> simp
      next t' same =>
        rw [same, List.length_cons] at skipped
        apply ih
        have further := skip_length t'
        omega
      next c t' _ _ same =>
        rw [same, List.length_cons] at skipped
        split
        · split
          next op' cmp t'' compares =>
            have compared : t''.length ≤ t'.length := by
              unfold comparator at compares
              split at compares
              · cases compares
                exact Nat.le_succ _
              · split at compares
                · cases compares
                  exact le_rfl
                · split at compares
                  · cases compares
                    exact le_rfl
                  · contradiction
            have further := skip_length t''
            have next : parseCondition (F := ℚ) defaultDevice turns none (skip t'') ≠
                .error .turns := ih (by omega)
            split
            · simp
            next stop failed =>
              rw [failed] at next
              simpa using next
          · simp
        · split
          · dsimp only
            split
            · have behind : (c :: t').dropWhile (!isspace ·) = t'.dropWhile (!isspace ·) :=
                List.dropWhile_cons_of_pos (by rw [inked same]; rfl)
              rw [behind]
              apply ih
              have further : (t'.dropWhile (!isspace ·)).length ≤ t'.length :=
                List.length_dropWhile_le ..
              omega
            · simp
          · split
            next name =>
              have variable_ : isVariable c = true := by
                rcases name with letter | rfl
                · simp [isVariable, isalnum, letter]
                · rfl
              have behind : (c :: t').dropWhile isVariable = t'.dropWhile isVariable :=
                List.dropWhile_cons_of_pos variable_
              have further : (t'.dropWhile isVariable).length ≤ t'.length :=
                List.length_dropWhile_le ..
              dsimp only
              rw [behind]
              split
              · exact ih (by omega)
              · exact ih (by omega)
            · simp

theorem condition_ends (defaultDevice : Text) (p : Parser) :
    condition defaultDevice p ≠ .error .turns := by
  unfold condition
  have enough : parseCondition (F := ℚ) defaultDevice (p.rest.length + 1) none (skip p.rest) ≠
      .error .turns := condition_turns (Nat.lt_succ_of_le (skip_length _))
  split
  next stop failed =>
    rw [failed] at enough
    simpa using enough
  · simp

/-- The part ends with what a parser reads that is not before `p`. -/
def EndsFrom (s : Text) (p : Parser) (parse : Parser → Except Stop Parser) : Prop :=
  ∀ q, Inv s q → p.pos ≤ q.pos → parse q ≠ .error .turns

theorem openBlock_ends {s : Text} {parseBlock : Parser → Except Stop Parser} {p : Parser}
    (ends : EndsFrom s p parseBlock) {q : Parser} (inv : Inv s q) (behind : p.pos ≤ q.pos) :
    openBlock parseBlock q ≠ .error .turns := by
  obtain ⟨reads, -, -⟩ := nextElement_at inv
  have block := ends _ (inv.reads reads) (behind.trans reads.later.pos)
  unfold openBlock
  dsimp only
  split
  · split
    · simp
    next stop failed =>
      rw [failed] at block
      simpa using block
  · simp

theorem parseShape_ends {s : Text} {defaultDevice : Text}
    {parseBlock : Parser → Except Stop Parser} (keeps : Keeps s parseBlock) {p : Parser}
    (ends : EndsFrom s p parseBlock) {own : ℕ} {command : Text} {shape : Shape} (inv : Inv s p) :
    parseShape defaultDevice parseBlock own command p shape ≠ .error .turns := by
  have built (params : List Word) (distime : Option Text) (q : Parser) :
      build own command params distime q ≠ .error .turns := by
    simp [build]
  cases shape with
  | leaf kinds =>
    rw [parseShape]
    split
    · exact built _ _ _
    · simp
  | waitSignal =>
    rw [parseShape]
    split
    · split
      · simp
      · exact built _ _ _
    · simp
  | command =>
    rw [parseShape]
    split
    · split
      · simp
      · exact built _ _ _
    · simp
  | tempDisable =>
    rw [parseShape]
    split
    · exact built _ _ _
    · simp
  | block kinds =>
    obtain ⟨reads, -⟩ := readParams_at kinds inv
    rw [parseShape]
    split
    next words p' eq =>
      rw [eq] at reads
      exact openBlock_ends ends (inv.reads reads) reads.later.pos
    · simp
  | acquired =>
    have block := openBlock_ends ends inv le_rfl
    rw [parseShape]
    split
    next stop failed =>
      rw [failed] at block
      simpa using block
    · simp
    next first p' read =>
      obtain ⟨inv', later⟩ := openBlock_keeps keeps inv read
      have reads := isNext_reads "else".toList inv'
      split
      next p₂ eq =>
        rw [eq] at reads
        exact openBlock_ends ends (inv'.reads reads) (later.pos.trans reads.later.pos)
      · simp
  | whileBlock =>
    have first := condition_ends defaultDevice p
    rw [parseShape]
    split
    next stop failed =>
      rw [failed] at first
      simpa using first
    next p' parsed =>
      have on := condition_reads inv parsed
      obtain ⟨reads, -⟩ := readParams_at [.integer] (inv.reads on)
      split
      next words p₂ eq =>
        rw [eq] at reads
        exact openBlock_ends ends ((inv.reads on).reads reads) (on.later.pos.trans reads.later.pos)
      · simp
  | doBlock =>
    obtain ⟨reads, -⟩ := readParams_at [.integer] inv
    rw [parseShape]
    split
    · simp
    next words p' eq =>
      rw [eq] at reads
      have block := openBlock_ends ends (inv.reads reads) reads.later.pos
      split
      next stop failed =>
        rw [failed] at block
        simpa using block
      · simp
      next first p₂ read =>
        dsimp only
        split
        · have last := condition_ends defaultDevice (nextElement p₂).2
          split
          next stop failed =>
            rw [failed] at last
            simpa using last
          · simp
        · simp
  | blockEnd => simp [parseShape]

theorem parseBuf_ends {s : Text} (defaultDevice : Text)
    {parseBlock : Parser → Except Stop Parser} (keeps : Keeps s parseBlock) {p : Parser}
    (inv : Inv s p) (ends : ∀ q, Inv s q → p.pos < q.pos → parseBlock q ≠ .error .turns) :
    parseBuf defaultDevice parseBlock p ≠ .error .turns := by
  have start := readCommand_at defaultDevice inv
  unfold parseBuf
  generalize readCommand defaultDevice p = split at start ⊢
  obtain ⟨device, command, p'⟩ := split
  dsimp only at start ⊢
  split
  · simp
  next some_command =>
  have further := start.further some_command
  split
  next shape known =>
    exact parseShape_ends keeps (fun q inv' behind => ends q inv' (further.trans_le behind))
      start.inv
  · split
    · split
      · simp [build]
      · simp
    · simp

theorem parseElements_ends {s : Text} (defaultDevice : Text) (goodTime : Text → Bool) (turns : ℕ)
    (top : Bool) (p : Parser) (inv : Inv s p) (enough : p.rest.length < turns) :
    parseElements defaultDevice goodTime turns top p ≠ .error .turns := by
  induction turns generalizing top p with
  | zero => exact absurd enough (Nat.not_lt_zero _)
  | succ turns ih =>
    have keeps := parseElements_keeps (s := s) defaultDevice goodTime turns false
    have total := pos_eq inv.size inv.suffix
    have buf := parseBuf_ends defaultDevice keeps inv (fun q inv' further => by
      have total' := pos_eq inv'.size inv'.suffix
      exact ih false q inv' (by omega))
    rw [parseElements]
    split
    next stop failed =>
      rw [failed] at buf
      simpa using buf
    · simp
    next built p₁ parsed =>
      obtain ⟨inv', later, further⟩ := parseBuf_keeps keeps inv parsed
      have total' := pos_eq inv'.size inv'.suffix
      have shorter := further rfl
      split
      · simp
      · exact ih top p₁ inv' (by omega)

end Rts2.Scripts.Positions
