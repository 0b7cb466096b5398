import Rts2.Scripts.Positions

/-! The element that runs a program. It keeps a pointer into the buffer of its line, and each of
its executions cuts the command line there into words. -/
namespace Rts2.Scripts.ExeElement

open Parsing (Text isspace skip Stop)
open Positions (Word Leaf Parser parseLine lineText)

def zero : Char := Char.ofNat 0

def setZeros (cuts : List ℕ) (buffer : Text) : Text :=
  cuts.foldl (fun buffer i => buffer.set i zero) buffer

def cString (buffer : Text) (start : ℕ) : Text := (buffer.drop start).takeWhile (· ≠ zero)

/-- An exe element: the number of its line, and the word that `exec` points at. -/
structure Exe where
  line : ℕ
  exec : Word
deriving DecidableEq

/-- The script as it is loaded: cmdBuf is the buffer of the last line, those before are deleted. -/
structure Loaded where
  exes : List Exe
  lineNumber : ℕ
  cmdBuf : Text

def Loaded.empty : Loaded := ⟨[], 0, []⟩

def exeWords (built : List Leaf) : List Word :=
  (built.filter (fun leaf => leaf.command = "exe".toList)).flatMap Leaf.params

variable (defaultDevice : Text) (goodTime : Text → Bool)

/-- A turn of the loop of Script::setTarget. -/
def loadLine (s : Loaded) (line : Text) : Except Stop Loaded :=
  match parseLine defaultDevice goodTime line with
  | .ok p => .ok ⟨s.exes ++ (exeWords p.built).map (⟨s.lineNumber, ·⟩), s.lineNumber + 1,
      setZeros p.cuts (lineText line)⟩
  | .error stop => .error stop

def setTarget (lines : List Text) : Except Stop Loaded :=
  lines.foldlM (loadLine defaultDevice goodTime) Loaded.empty

/-- What execv is given; exePath is not set when the first token is empty. -/
structure ConnFork where
  exePath : Option Text
  argv : List Text
deriving DecidableEq

/-- The tokens of a command line. A token is cut from the text as nextElement cuts a word; the
last is the one that ends with the text. -/
def tokens : ℕ → Parser → List Text × Parser
  | 0, p => ([], p)
  | turns + 1, p =>
    let (start, p') := Positions.nextElement p
    if start.start + start.text.length = p.size then ([start.text], p')
    else
      let (more, p'') := tokens turns p'
      (start.text :: more, p'')

def opened (t : Text) : Parser := ⟨t.length, t, 0, [], []⟩

variable (scriptPath : Text) (access : Text → Bool)

def resolve (exePath : Text) : Text :=
  if exePath.head? = some '/' then exePath
  else
    let dirs := ((scriptPath.splitOn ':').map (List.rdropWhile (· = '/'))).filter (· ≠ [])
    let candidates := dirs.map fun dir => dir ++ '/' :: exePath
    (candidates.find? access).getD (candidates.head?.getD exePath)

def fork (starts : List Text) : ConnFork where
  exePath := (starts.head?.filter (· ≠ [])).map (resolve scriptPath access)
  argv := starts.tail.filter (· ≠ [])

/-- ConnFork::ConnFork, with the places in the text where it sets zeros. -/
def connFork (exe : Text) : ConnFork × List ℕ :=
  let (starts, p) := tokens (exe.length + 1) (opened exe)
  (fork scriptPath access starts, p.cuts)

def execute (s : Loaded) (e : Exe) : Option ConnFork × Loaded :=
  if e.line + 1 = s.lineNumber then
    let (conn, cuts) := connFork scriptPath access (cString s.cmdBuf e.exec.start)
    (some conn, { s with cmdBuf := setZeros (cuts.map (e.exec.start + ·)) s.cmdBuf })
  else (none, s)

def executeAll (s : Loaded) (run : List Exe) : Loaded :=
  run.foldl (fun s e => (execute scriptPath access s e).2) s

inductive Style where
  | plain
  | quoted (double : Bool)

def quote (double : Bool) : Char := if double then '"' else '\''

structure Item where
  blanks : Text
  style : Style
  word : Text

namespace Item

def opening (item : Item) : Text :=
  item.blanks ++
    match item.style with
    | .plain => []
    | .quoted double => [quote double]

def closing (item : Item) : Text :=
  match item.style with
  | .plain => []
  | .quoted double => [quote double]

def render (item : Item) : Text := item.opening ++ (item.word ++ item.closing)

end Item

/-- A plain word has letters and no white space, and does not begin with a quote; a quoted word
can be empty. -/
structure Item.Valid (item : Item) : Prop where
  blanks : ∀ c ∈ item.blanks, isspace c = true
  word : match item.style with
    | .plain => item.word ≠ [] ∧ (∀ c ∈ item.word, isspace c = false) ∧
        item.word.head? ≠ some '"' ∧ item.word.head? ≠ some '\''
    | .quoted double => quote double ∉ item.word

structure CommandLine where
  program : Item
  args : List Item
  trail : Text
  program_valid : program.Valid
  args_valid : ∀ item ∈ args, item.Valid
  apart : ∀ item ∈ args, item.blanks ≠ []
  trail_blank : ∀ c ∈ trail, isspace c = true

namespace CommandLine

def words (cl : CommandLine) : List Text := cl.args.map Item.word

def render (cl : CommandLine) : Text :=
  cl.program.render ++ (cl.args.flatMap Item.render ++ cl.trail)

end CommandLine

/-- The text stands at a place of the buffer and ends there with a zero or with the buffer. -/
structure Stands (buffer : Text) (start : ℕ) (text : Text) : Prop where
  chars : ∀ j < text.length, buffer[start + j]? = text[j]?
  ended : ∀ c, buffer[start + text.length]? = some c → c = zero
  whole : zero ∉ text

theorem Stands.drop {buffer text : Text} {start : ℕ} (stands : Stands buffer start text) :
    ∃ behind, buffer.drop start = text ++ behind ∧ ∀ c, behind.head? = some c → c = zero := by
  have same : text <+: buffer.drop start := by
    rw [List.prefix_iff_getElem?]
    intro j within
    rw [List.getElem?_drop, stands.chars j within, List.getElem?_eq_getElem within]
  obtain ⟨behind, eq⟩ := same
  refine ⟨behind, eq.symm, fun c head => ?_⟩
  apply stands.ended
  rw [← List.getElem?_drop, ← eq, List.getElem?_append_right le_rfl, Nat.sub_self,
    ← List.head?_eq_getElem?]
  exact head

theorem Stands.cString {buffer text : Text} {start : ℕ} (stands : Stands buffer start text) :
    cString buffer start = text := by
  obtain ⟨behind, eq, head⟩ := stands.drop
  have all : ∀ c ∈ text, decide (c ≠ zero) = true := by
    intro c mem
    rw [decide_eq_true_eq]
    rintro rfl
    exact stands.whole mem
  rw [ExeElement.cString, eq, List.takeWhile_append_of_pos all]
  cases behind with
  | nil => simp
  | cons c behind => simp [head c rfl]

theorem Stands.set {buffer text : Text} {start i : ℕ} (stands : Stands buffer start text)
    (outside : i < start ∨ start + text.length ≤ i) : Stands (buffer.set i zero) start text := by
  refine ⟨fun j within => ?_, fun c at_end => ?_, stands.whole⟩
  · rw [List.getElem?_set_ne (by omega), stands.chars j within]
  · rw [List.getElem?_set] at at_end
    split at at_end
    · split at at_end
      · exact (Option.some.inj at_end).symm
      · contradiction
    · exact stands.ended c at_end

theorem Stands.setZeros {buffer text : Text} {start : ℕ} (stands : Stands buffer start text)
    {cuts : List ℕ} (outside : ∀ i ∈ cuts, i < start ∨ start + text.length ≤ i) :
    Stands (setZeros cuts buffer) start text := by
  induction cuts generalizing buffer with
  | nil => exact stands
  | cons i cuts ih =>
    obtain ⟨here, others⟩ := List.forall_mem_cons.mp outside
    exact ih (stands.set here) others

theorem Stands.cut {buffer text behind : Text} {start : ℕ}
    (stands : Stands buffer start (text ++ behind)) :
    Stands (buffer.set (start + text.length) zero) start text := by
  refine ⟨fun j within => ?_, fun c at_end => ?_, fun mem => ?_⟩
  · rw [List.getElem?_set_ne (by omega), stands.chars j (by rw [List.length_append]; omega),
      List.getElem?_append_left within]
  · rw [List.getElem?_set_self'] at at_end
    obtain ⟨c', -, same⟩ := Option.map_eq_some_iff.mp at_end
    exact same.symm
  · exact stands.whole (List.mem_append_left _ mem)

def Item.Ends (item : Item) (behind : Text) : Prop :=
  ∀ c ∈ behind.head?, match item.style with
    | .plain => isspace c = true
    | .quoted double => c = quote double

theorem quote_ink (double : Bool) : isspace (quote double) = false := by
  cases double <;> rfl

theorem nextElement_quoted {blanks word behind : Text} (double : Bool)
    (blank : ∀ c ∈ blanks, isspace c = true) (inside : quote double ∉ word)
    (ends : ∀ c ∈ behind.head?, c = quote double) :
    Parsing.nextElement (blanks ++ quote double :: (word ++ behind)) = (word, behind.tail) ∧
      Positions.wordStart (blanks ++ quote double :: (word ++ behind)) = blanks.length + 1 := by
  obtain ⟨before, from_⟩ := Lib.takeWhile_boundary isspace blanks
    (quote double :: (word ++ behind)) blank (fun c first => by cases first; exact quote_ink double)
  obtain ⟨word_, behind_⟩ := Lib.takeWhile_boundary (fun c => !decide (c = quote double)) word behind
    (fun c mem => by
      have other : c ≠ quote double := fun same => inside (same ▸ mem)
      simpa using other)
    (fun c first => by simp [ends c first])
  constructor
  · rw [Parsing.nextElement, skip, from_]
    cases double
    · exact Prod.ext word_ (congrArg List.tail behind_)
    · exact Prod.ext word_ (congrArg List.tail behind_)
  · rw [Positions.wordStart, skip, from_, before]
    cases double <;> rfl

theorem nextElement_bare {blanks word behind : Text} (blank : ∀ c ∈ blanks, isspace c = true)
    (some_char : word ≠ []) (inside : ∀ c ∈ word, isspace c = false)
    (no_quote : word.head? ≠ some '"' ∧ word.head? ≠ some '\'')
    (ends : ∀ c ∈ behind.head?, isspace c = true) :
    Parsing.nextElement (blanks ++ (word ++ behind)) = (word, behind.tail) ∧
      Positions.wordStart (blanks ++ (word ++ behind)) = blanks.length := by
  obtain ⟨c, word, rfl⟩ := List.exists_cons_of_ne_nil some_char
  obtain ⟨double, simple⟩ : c ≠ '"' ∧ c ≠ '\'' := by simpa using no_quote
  obtain ⟨before, from_⟩ := Lib.takeWhile_boundary isspace blanks (c :: word ++ behind) blank
    (fun d first => by cases first; exact inside c List.mem_cons_self)
  obtain ⟨word_, behind_⟩ := Lib.takeWhile_boundary (fun d => !isspace d) (c :: word) behind
    (fun d mem => by rw [inside d mem]; rfl) (fun d first => by rw [ends d first]; rfl)
  constructor
  · rw [Parsing.nextElement, skip, from_]
    split
    next same => exact absurd (List.cons.inj same).1 double
    next same => exact absurd (List.cons.inj same).1 simple
    next => exact Prod.ext word_ (congrArg List.tail behind_)
  · rw [Positions.wordStart, skip, from_, before]
    simp [double, simple]

theorem Item.nextElement {item : Item} (valid : item.Valid) {behind : Text}
    (ends : item.Ends behind) :
    Parsing.nextElement (item.opening ++ (item.word ++ behind)) = (item.word, behind.tail) ∧
      Positions.wordStart (item.opening ++ (item.word ++ behind)) = item.opening.length := by
  obtain ⟨blanks, style, word⟩ := item
  obtain ⟨blank, inside⟩ := valid
  cases style with
  | plain =>
    obtain ⟨some_char, inked, no_quote⟩ := inside
    simpa [Item.opening] using nextElement_bare blank some_char inked no_quote ends
  | quoted double =>
    simpa [Item.opening] using nextElement_quoted double blank inside ends

theorem exists_item (t : Text) : (∀ c ∈ t, isspace c = true) ∨ ∃ item : Item, item.Valid ∧
    ∃ behind, item.Ends behind ∧ t = item.opening ++ (item.word ++ behind) := by
  have split : t = t.takeWhile isspace ++ skip t := (List.takeWhile_append_dropWhile ..).symm
  have blank : ∀ c ∈ t.takeWhile isspace, isspace c = true := fun c mem => List.mem_takeWhile_imp mem
  cases skipped : skip t with
  | nil =>
    rw [skipped, List.append_nil] at split
    exact .inl (split ▸ blank)
  | cons c u =>
    right
    have ink : isspace c = false := by
      have stops := List.head?_dropWhile_not isspace t
      rw [show t.dropWhile isspace = c :: u from skipped] at stops
      exact Bool.eq_false_iff.mpr fun space => by simp [space] at stops
    have ended {p : Char → Bool} {v : Text} : ∀ d ∈ (v.dropWhile p).head?, p d = false := by
      intro d first
      have stops := List.head?_dropWhile_not p v
      rw [Option.mem_def.mp first] at stops
      simpa using stops
    by_cases quotes : ∃ double, c = quote double
    · obtain ⟨double, rfl⟩ := quotes
      refine ⟨⟨t.takeWhile isspace, .quoted double, u.takeWhile (· ≠ quote double)⟩,
        ⟨blank, fun mem => ?_⟩, u.dropWhile (· ≠ quote double), fun d first => ?_, ?_⟩
      · simpa using List.mem_takeWhile_imp mem
      · simpa using ended d first
      · simp only [Item.opening, List.append_assoc, List.singleton_append,
          List.takeWhile_append_dropWhile]
        rw [← skipped]
        exact split
    · have double : c ≠ '"' := fun same => quotes ⟨true, same⟩
      have simple : c ≠ '\'' := fun same => quotes ⟨false, same⟩
      refine ⟨⟨t.takeWhile isspace, .plain, (c :: u).takeWhile (!isspace ·)⟩,
        ⟨blank, ?_, fun d mem => ?_, ?_, ?_⟩, (c :: u).dropWhile (!isspace ·), fun d first => ?_, ?_⟩
      · simp [ink]
      · simpa using List.mem_takeWhile_imp mem
      · simp [ink, double]
      · simp [ink, simple]
      · simpa using ended d first
      · simp only [Item.opening, List.append_nil, List.takeWhile_append_dropWhile]
        rw [← skipped]
        exact split

def alone (t : Text) : Text :=
  t.take (Positions.wordStart t + (Parsing.nextElement t).1.length)

theorem nextElement_alone (t : Text) :
    Parsing.nextElement (alone t) = ((Parsing.nextElement t).1, []) ∧
      Positions.wordStart (alone t) = Positions.wordStart t := by
  rcases exists_item t with blank | ⟨item, valid, behind, ends, rfl⟩
  · have skipped : skip t = [] := by
      rw [skip, List.dropWhile_eq_nil_iff]
      exact blank
    have read : Parsing.nextElement t = ([], []) := by
      rw [Parsing.nextElement, skipped]
      rfl
    have start : Positions.wordStart t = t.length := by
      rw [Positions.wordStart, skipped, List.takeWhile_eq_self_iff.mpr blank]
      simp
    have whole : alone t = t := by
      rw [alone, read, start]
      exact List.take_length
    rw [whole, read]
    exact ⟨rfl, rfl⟩
  · obtain ⟨read, start⟩ := item.nextElement valid ends
    have same : alone (item.opening ++ (item.word ++ behind)) =
        item.opening ++ (item.word ++ []) := by
      rw [alone, read, start, List.append_nil, ← List.append_assoc]
      exact List.take_left' (by simp)
    have none : item.Ends [] := by simp [Item.Ends]
    obtain ⟨read', start'⟩ := item.nextElement valid none
    rw [same, read, start, read', start']
    exact ⟨rfl, rfl⟩

theorem alone_length (t : Text) :
    (alone t).length = Positions.wordStart t + (Parsing.nextElement t).1.length ∧
      (alone t).length ≤ t.length := by
  obtain ⟨lead, behind, whole, start, -⟩ := Positions.nextElement_spec t
  have length := congrArg List.length whole
  simp only [List.length_append] at length
  rw [alone, List.length_take]
  omega

theorem opened_inv (t : Text) : Positions.Inv t (opened t) :=
  ⟨rfl, List.suffix_refl _, by simp [opened], Nat.zero_le _, by simp [opened], List.Pairwise.nil⟩

theorem nextElement_opened (t : Text) : Positions.nextElement (opened t) =
    (⟨(Parsing.nextElement t).1, Positions.wordStart t⟩, (opened t).advance
      (Parsing.nextElement t).2 (Positions.wordStart t + (Parsing.nextElement t).1.length <
        t.length - (Parsing.nextElement t).2.length)) := by
  have start : (opened t).pos = 0 := Nat.sub_self _
  rw [Positions.nextElement_eq, start, Nat.zero_add]
  rfl

theorem tokens_later {s : Text} (turns : ℕ) {p : Parser} (inv : Positions.Inv s p) :
    Positions.Later p (tokens turns p).2 := by
  induction turns generalizing p with
  | zero => exact .refl p
  | succ turns ih =>
    obtain ⟨reads, -, -⟩ := Positions.nextElement_at inv
    rw [tokens]
    dsimp only
    split
    · exact reads.later
    · exact reads.later.trans (ih (inv.reads reads))

def starts : ℕ → Text → List Text
  | 0, _ => []
  | turns + 1, t =>
    let (start, rest) := Parsing.nextElement t
    if Positions.wordStart t + start.length = t.length then [start] else start :: starts turns rest

theorem tokens_starts {s : Text} (turns : ℕ) {p : Parser} (inv : Positions.Inv s p) :
    (tokens turns p).1 = starts turns p.rest := by
  induction turns generalizing p with
  | zero => rfl
  | succ turns ih =>
    obtain ⟨reads, -, -⟩ := Positions.nextElement_at inv
    have total := Positions.pos_eq inv.size inv.suffix
    have size := inv.size
    have next := ih (inv.reads reads)
    rw [tokens, starts]
    rw [Positions.nextElement_eq] at next ⊢
    dsimp only at next ⊢
    have last : p.pos + Positions.wordStart p.rest + (Parsing.nextElement p.rest).1.length =
        p.size ↔ Positions.wordStart p.rest + (Parsing.nextElement p.rest).1.length =
          p.rest.length := by omega
    simp only [last]
    split
    · rfl
    · exact congrArg _ next

section
variable (scriptPath : Text) (access : Text → Bool)

theorem connFork_starts (t : Text) :
    (connFork scriptPath access t).1 = fork scriptPath access (starts (t.length + 1) t) := by
  change fork scriptPath access (tokens (t.length + 1) (opened t)).1 = _
  rw [tokens_starts _ (opened_inv t)]
  rfl

theorem connFork_one {t : Text} (one : (alone t).length = t.length) :
    connFork scriptPath access t = (fork scriptPath access [(Parsing.nextElement t).1], []) := by
  obtain ⟨length, -⟩ := alone_length t
  rw [one] at length
  have last : ¬ Positions.wordStart t + (Parsing.nextElement t).1.length <
      t.length - (Parsing.nextElement t).2.length := by omega
  rw [connFork, tokens, nextElement_opened]
  dsimp only
  have whole : Positions.wordStart t + (Parsing.nextElement t).1.length = (opened t).size :=
    length.symm
  rw [if_pos whole, decide_eq_false last]
  rfl

theorem connFork_more {t : Text} (more : (alone t).length < t.length) :
    ∃ words cuts, connFork scriptPath access t =
      (fork scriptPath access ((Parsing.nextElement t).1 :: words), (alone t).length :: cuts) ∧
        ∀ i ∈ cuts, (alone t).length ≤ i ∧ i < t.length := by
  obtain ⟨lead, behind, split, start, rest⟩ := Positions.nextElement_spec t
  obtain ⟨length, -⟩ := alone_length t
  have inv := opened_inv t
  obtain ⟨reads, -, -⟩ := Positions.nextElement_at inv
  have later := tokens_later t.length (inv.reads reads)
  obtain ⟨cuts, eq, range⟩ := later.cuts
  have size : (Positions.nextElement (opened t)).2.size = t.length := reads.later.size
  have within := (inv.reads reads).within
  have lengths := congrArg List.length split
  simp only [List.length_append] at lengths
  have tail : (Parsing.nextElement t).2.length = behind.length - 1 := by
    rw [rest, List.length_tail]
  have first : (Positions.nextElement (opened t)).2.cuts = [(alone t).length] := by
    have place : t.length - (Parsing.nextElement t).2.length - 1 = (alone t).length := by omega
    rw [nextElement_opened, decide_eq_true (by omega)]
    exact congrArg ([·]) place
  have at_ : (Positions.nextElement (opened t)).2.pos = t.length - (behind.length - 1) := by
    rw [← tail, nextElement_opened]
    rfl
  have not_last : ¬ (Positions.nextElement (opened t)).1.start +
      (Positions.nextElement (opened t)).1.text.length = (opened t).size := by
    rw [nextElement_opened]
    change ¬ Positions.wordStart t + (Parsing.nextElement t).1.length = t.length
    omega
  refine ⟨(tokens t.length (Positions.nextElement (opened t)).2).1, cuts, ?_, fun i mem => ?_⟩
  · rw [connFork, tokens]
    dsimp only
    rw [if_neg not_last, eq, first, nextElement_opened]
    rfl
  · obtain ⟨low, high⟩ := range i mem
    have last : (tokens t.length (Positions.nextElement (opened t)).2).2.pos ≤ t.length := by
      rw [Parser.pos, later.size, size]
      exact Nat.sub_le _ _
    omega

end

theorem starts_blank {t : Text} (blank : ∀ c ∈ t, isspace c = true) (turns : ℕ) :
    starts (turns + 1) t = [[]] := by
  have skipped : skip t = [] := by
    rw [skip, List.dropWhile_eq_nil_iff]
    exact blank
  have read : Parsing.nextElement t = ([], []) := by
    rw [Parsing.nextElement, skipped]
    rfl
  have start : Positions.wordStart t = t.length := by
    rw [Positions.wordStart, skipped, List.takeWhile_eq_self_iff.mpr blank]
    simp
  simp [starts, read, start]

theorem starts_item {item : Item} (valid : item.Valid) {behind : Text} (ends : item.Ends behind)
    (turns : ℕ) : starts (turns + 1) (item.opening ++ (item.word ++ behind)) =
      if behind = [] then [item.word] else item.word :: starts turns behind.tail := by
  obtain ⟨read, start⟩ := item.nextElement valid ends
  rw [starts, read, start]
  have last : item.opening.length + item.word.length =
      (item.opening ++ (item.word ++ behind)).length ↔ behind = [] := by
    rw [← List.length_eq_zero_iff]
    simp only [List.length_append]
    omega
  simp only [last]

theorem item_ends (item : Item) {rest : Text} (blank : ∀ c ∈ rest.head?, isspace c = true) :
    item.Ends (item.closing ++ rest) := by
  obtain ⟨blanks, style, word⟩ := item
  cases style with
  | plain => exact blank
  | quoted double => simp [Item.Ends, Item.closing]

theorem next_item (item : Item) {arg : Item} (valid : arg.Valid) (apart : arg.blanks ≠ [])
    (rest : Text) : (item.closing ++ (arg.render ++ rest)) ≠ [] ∧ ∃ next : Item, next.Valid ∧
      next.word = arg.word ∧ (item.closing ++ (arg.render ++ rest)).tail = next.render ++ rest := by
  obtain ⟨blanks, style, word⟩ := item
  obtain ⟨argBlanks, argStyle, argWord⟩ := arg
  cases argBlanks with
  | nil => exact absurd rfl apart
  | cons c argBlanks =>
    cases style with
    | plain =>
      refine ⟨by simp [Item.render, Item.opening, Item.closing],
        ⟨argBlanks, argStyle, argWord⟩, ⟨?_, valid.word⟩, rfl, rfl⟩
      exact fun d mem => valid.blanks d (List.mem_cons_of_mem _ mem)
    | quoted double => exact ⟨by simp [Item.closing], ⟨c :: argBlanks, argStyle, argWord⟩, valid, rfl, rfl⟩

theorem starts_line {item : Item} {args : List Item} {trail : Text} (valid : item.Valid)
    (args_valid : ∀ arg ∈ args, arg.Valid) (apart : ∀ arg ∈ args, arg.blanks ≠ [])
    (blank : ∀ c ∈ trail, isspace c = true) {turns : ℕ}
    (enough : (item.render ++ (args.flatMap Item.render ++ trail)).length < turns) :
    ∃ last, starts turns (item.render ++ (args.flatMap Item.render ++ trail)) =
      item.word :: (args.map Item.word ++ last) ∧ ∀ w ∈ last, w = [] := by
  induction args generalizing item turns with
  | nil =>
    obtain ⟨turns, rfl⟩ := Nat.exists_eq_succ_of_ne_zero (Nat.ne_of_gt (Nat.zero_lt_of_lt enough))
    have ends := item_ends item
      (fun c first => blank c (List.mem_of_head? first))
    simp only [List.flatMap_nil, List.nil_append, Item.render, List.append_assoc] at enough ⊢
    rw [starts_item valid ends]
    split
    · exact ⟨[], by simp, by simp⟩
    next some_char =>
      have letters := List.length_pos_iff.mpr some_char
      obtain ⟨turns, rfl⟩ : ∃ n, turns = n + 1 := by
        refine Nat.exists_eq_succ_of_ne_zero ?_
        simp only [List.length_append] at enough letters
        omega
      have rest_blank : ∀ c ∈ (item.closing ++ trail).tail, isspace c = true := by
        intro c mem
        obtain ⟨blanks, style, word⟩ := item
        cases style with
        | plain => exact blank c (List.mem_of_mem_tail mem)
        | quoted double => exact blank c mem
      rw [starts_blank rest_blank]
      exact ⟨[[]], rfl, by simp⟩
  | cons arg args ih =>
    obtain ⟨arg_valid, args_valid⟩ := List.forall_mem_cons.mp args_valid
    obtain ⟨arg_apart, apart⟩ := List.forall_mem_cons.mp apart
    obtain ⟨turns, rfl⟩ := Nat.exists_eq_succ_of_ne_zero (Nat.ne_of_gt (Nat.zero_lt_of_lt enough))
    have first : ∀ c ∈ (arg.render ++ (args.flatMap Item.render ++ trail)).head?,
        isspace c = true := by
      intro c head
      obtain ⟨b, blanks, eq⟩ := List.exists_cons_of_ne_nil arg_apart
      refine arg_valid.blanks c ?_
      rw [Item.render, Item.opening, eq] at head
      rw [eq]
      cases head
      exact List.mem_cons_self
    obtain ⟨some_char, next, next_valid, word, tail⟩ :=
      next_item item arg_valid arg_apart (args.flatMap Item.render ++ trail)
    have ends := item_ends item first
    have length := congrArg List.length tail
    rw [List.length_tail] at length
    have letters := List.length_pos_iff.mpr some_char
    rw [List.flatMap_cons, List.append_assoc] at enough ⊢
    obtain ⟨last, read, none⟩ := ih next_valid args_valid apart (show _ < turns by
      rw [← length]
      simp only [Item.render, List.append_assoc, List.length_append] at enough letters ⊢
      omega)
    refine ⟨last, ?_, none⟩
    rw [Item.render, List.append_assoc, List.append_assoc, starts_item valid ends,
      if_neg some_char, tail, read, word]
    rfl

section
variable (scriptPath : Text) (access : Text → Bool)

def CommandLine.fork (cl : CommandLine) : ConnFork :=
  ⟨some (resolve scriptPath access cl.program.word), cl.words⟩

theorem render_starts (cl : CommandLine) : ∃ last,
    starts (cl.render.length + 1) cl.render = cl.program.word :: (cl.words ++ last) ∧
      ∀ w ∈ last, w = [] :=
  starts_line cl.program_valid cl.args_valid cl.apart cl.trail_blank (Nat.lt_succ_self _)

theorem first_word (cl : CommandLine) : (Parsing.nextElement cl.render).1 = cl.program.word := by
  obtain ⟨last, read, -⟩ := render_starts cl
  rw [starts] at read
  dsimp only at read
  split at read
  · exact (List.cons.inj read).1
  · exact (List.cons.inj read).1

theorem fork_words (program : Text) (words : List Text) {last : List Text} (none : ∀ w ∈ last, w = [])
    (wanted : List Text) :
    ExeElement.fork scriptPath access (program :: (words ++ last)) =
        ⟨some (resolve scriptPath access program), wanted⟩ ↔
      program ≠ [] ∧ words.filter (· ≠ []) = wanted := by
  have dropped : last.filter (· ≠ []) = [] := by
    rw [List.filter_eq_nil_iff]
    simpa using none
  by_cases some_char : program = []
  · simp [ExeElement.fork, some_char]
  · rw [ExeElement.fork, List.tail_cons, List.filter_append, dropped, List.append_nil]
    simp [some_char, Option.filter]

theorem connFork_render (cl : CommandLine) :
    (connFork scriptPath access cl.render).1 = cl.fork scriptPath access ↔
      cl.program.word ≠ [] ∧ ∀ w ∈ cl.words, w ≠ [] := by
  obtain ⟨last, read, none⟩ := render_starts cl
  rw [connFork_starts, read, CommandLine.fork, fork_words _ _ _ _ none]
  refine and_congr_right fun _ => ?_
  rw [List.filter_eq_self]
  simp

theorem connFork_render_alone (cl : CommandLine) :
    (connFork scriptPath access (alone cl.render)).1 = cl.fork scriptPath access ↔
      cl.program.word ≠ [] ∧ cl.words = [] := by
  obtain ⟨read, start⟩ := nextElement_alone cl.render
  obtain ⟨length, -⟩ := alone_length cl.render
  obtain ⟨length', -⟩ := alone_length (alone cl.render)
  rw [read, start] at length'
  dsimp only at length'
  have one : (alone (alone cl.render)).length = (alone cl.render).length := by omega
  rw [connFork_one _ _ one, read, first_word, CommandLine.fork]
  have words := fork_words scriptPath access cl.program.word [] (List.forall_mem_nil _) cl.words
  rw [List.nil_append] at words
  rw [words, List.filter_nil]
  exact and_congr_right fun _ => eq_comm

theorem connFork_cuts (t : Text) :
    ∀ i ∈ (connFork scriptPath access t).2, (alone t).length ≤ i ∧ i < t.length := by
  obtain ⟨-, short⟩ := alone_length t
  rcases short.eq_or_lt with one | more
  · rw [connFork_one _ _ one]
    simp
  · obtain ⟨words, cuts, eq, range⟩ := connFork_more scriptPath access more
    rw [eq]
    exact List.forall_mem_cons.mpr ⟨⟨le_rfl, more⟩, range⟩

theorem alone_is_front (t : Text) : alone t <+: t := List.take_prefix _ _

theorem Stands.executed {buffer text : Text} {start : ℕ} (stands : Stands buffer start text) :
    Stands (ExeElement.setZeros ((connFork scriptPath access text).2.map (start + ·)) buffer) start
      (alone text) := by
  obtain ⟨-, short⟩ := alone_length text
  rcases short.eq_or_lt with one | more
  · rw [connFork_one _ _ one, (alone_is_front text).eq_of_length one]
    exact stands
  · obtain ⟨words, cuts, eq, range⟩ := connFork_more scriptPath access more
    obtain ⟨behind, whole⟩ := alone_is_front text
    rw [eq]
    have cut : Stands (buffer.set (start + (alone text).length) zero) start (alone text) :=
      Stands.cut (whole.symm ▸ stands)
    refine Stands.setZeros cut fun i mem => ?_
    obtain ⟨j, listed, rfl⟩ := List.mem_map.mp mem
    have low := (range j listed).1
    exact .inr (by omega)

/-- The words of the elements of the last line stand in the buffer, one behind the other. -/
structure Ready (s : Loaded) : Prop where
  stands : ∀ e ∈ s.exes, e.line + 1 = s.lineNumber → Stands s.cmdBuf e.exec.start e.exec.text
  apart : ∀ e ∈ s.exes, ∀ e' ∈ s.exes, e.line + 1 = s.lineNumber → e'.line + 1 = s.lineNumber →
    e ≠ e' → e.exec.start + e.exec.text.length ≤ e'.exec.start ∨
      e'.exec.start + e'.exec.text.length ≤ e.exec.start

def left (run : List Exe) (e : Exe) : Text := if e ∈ run then alone e.exec.text else e.exec.text

theorem left_short (run : List Exe) (e : Exe) : (left run e).length ≤ e.exec.text.length := by
  unfold left
  split
  · exact (alone_is_front _).length_le
  · exact le_rfl

theorem alone_alone (t : Text) : alone (alone t) = alone t := by
  obtain ⟨read, start⟩ := nextElement_alone t
  obtain ⟨length, -⟩ := alone_length t
  rw [alone, read, start, ← length]
  exact List.take_length

theorem alone_left (run : List Exe) (e : Exe) : alone (left run e) = alone e.exec.text := by
  unfold left
  split
  · exact alone_alone _
  · rfl

/-- Other than the buffer nothing changes, and of the buffer only what was executed. -/
structure After (s : Loaded) (run : List Exe) (s' : Loaded) : Prop where
  exes : s'.exes = s.exes
  lineNumber : s'.lineNumber = s.lineNumber
  stands : ∀ e ∈ s.exes, e.line + 1 = s.lineNumber → Stands s'.cmdBuf e.exec.start (left run e)

theorem After.step {s s' : Loaded} {run : List Exe} (ready : Ready s) (after : After s run s')
    {e : Exe} (listed : e ∈ s.exes) :
    After s (run ++ [e]) (execute scriptPath access s' e).2 := by
  obtain ⟨exes, lineNumber, stands⟩ := after
  unfold ExeElement.execute
  split
  next current =>
    rw [lineNumber] at current
    have here := stands e listed current
    refine ⟨exes, lineNumber, fun e' listed' current' => ?_⟩
    simp only [here.cString]
    by_cases same : e' = e
    · subst same
      have executed := here.executed scriptPath access
      rw [alone_left] at executed
      simpa [left] using executed
    · have other : left (run ++ [e]) e' = left run e' := by
        simp [left, same]
      rw [other]
      refine (stands e' listed' current').setZeros fun i mem => ?_
      obtain ⟨j, cut, rfl⟩ := List.mem_map.mp mem
      have range := connFork_cuts scriptPath access _ j cut
      have short := left_short run e
      have short' := left_short run e'
      rcases ready.apart e listed e' listed' current current' (Ne.symm same) with before | behind
      · exact .inl (by omega)
      · exact .inr (by omega)
  next old =>
    rw [lineNumber] at old
    refine ⟨exes, lineNumber, fun e' listed' current' => ?_⟩
    have other : left (run ++ [e]) e' = left run e' := by
      have different : e' ≠ e := fun same => old (same ▸ current')
      simp [left, different]
    rw [other]
    exact stands e' listed' current'

theorem executeAll_after {s : Loaded} (ready : Ready s) {run : List Exe}
    (listed : ∀ e ∈ run, e ∈ s.exes) : After s run (executeAll scriptPath access s run) := by
  induction run using List.reverseRecOn with
  | nil =>
    refine ⟨rfl, rfl, fun e mem current => ?_⟩
    simpa [left, executeAll] using ready.stands e mem current
  | append_singleton run e ih =>
    have before := ih fun e' mem => listed e' (List.mem_append_left _ mem)
    have step : executeAll scriptPath access s (run ++ [e]) =
        (execute scriptPath access (executeAll scriptPath access s run) e).2 := by
      simp [executeAll]
    rw [step]
    exact before.step scriptPath access ready (listed e (by simp))

theorem After.forks_iff {s s' : Loaded} {run : List Exe} (after : After s run s') {e : Exe}
    (listed : e ∈ s.exes) {cl : CommandLine} (written : cl.render = e.exec.text) :
    (execute scriptPath access s' e).1 = some (cl.fork scriptPath access) ↔
      e.line + 1 = s.lineNumber ∧ (cl.program.word ≠ [] ∧ ∀ w ∈ cl.words, w ≠ []) ∧
        (e ∈ run → cl.words = []) := by
  obtain ⟨exes, lineNumber, stands⟩ := after
  unfold ExeElement.execute
  rw [lineNumber]
  split
  next current =>
    simp only [(stands e listed current).cString, Option.some.injEq, current, true_and]
    unfold left
    split
    next again =>
      rw [← written, connFork_render_alone]
      refine ⟨fun ok => ⟨⟨ok.1, by simp [ok.2]⟩, fun _ => ok.2⟩, fun ok => ⟨ok.1.1, ok.2 again⟩⟩
    next first =>
      rw [← written, connFork_render]
      exact ⟨fun ok => ⟨ok, fun again => absurd again first⟩, fun ok => ok.1⟩
  next old => simp [old]

end

section
variable {defaultDevice : Text} {goodTime : Text → Bool}

theorem lineText_whole (line : Text) : zero ∉ lineText line := by
  intro mem
  have read := (List.takeWhile_prefix _).subset mem
  obtain ⟨c, listed, same⟩ := List.mem_map.mp read
  have not_zero : c ≠ zero := by simpa [zero] using List.mem_takeWhile_imp listed
  split at same
  · exact absurd same (by decide)
  · exact not_zero same

theorem setZeros_getElem? (cuts : List ℕ) (buffer : Text) (i : ℕ) :
    (setZeros cuts buffer)[i]? =
      if i ∈ cuts then buffer[i]?.map (fun _ => zero) else buffer[i]? := by
  induction cuts generalizing buffer with
  | nil => simp [setZeros]
  | cons j cuts ih =>
    have step : setZeros (j :: cuts) buffer = setZeros cuts (buffer.set j zero) := rfl
    rw [step, ih]
    by_cases here : j = i
    · subst here
      rw [List.getElem?_set_self']
      cases buffer[j]? <;> simp
    · rw [List.getElem?_set_ne here]
      simp [Ne.symm here]

theorem stands_of_at {s : Text} {p : Parser} {w : Word} (whole : zero ∉ s) (placed : w.At s p) :
    Stands (setZeros p.cuts s) w.start w.text := by
  refine ⟨fun j within => ?_, fun c at_end => ?_, fun mem => ?_⟩
  · have uncut : w.start + j ∉ p.cuts := by
      intro cut
      rcases placed.uncut _ cut with before | behind
      · omega
      · omega
    rw [setZeros_getElem?, if_neg uncut, ← List.getElem?_drop,
      List.prefix_iff_getElem?.mp placed.text j within, List.getElem?_eq_getElem within]
  · rw [setZeros_getElem?] at at_end
    rcases placed.ended with cut | end_
    · rw [if_pos cut] at at_end
      obtain ⟨c', -, same⟩ := Option.map_eq_some_iff.mp at_end
      exact same.symm
    · have none : s[w.start + w.text.length]? = none := List.getElem?_eq_none end_.ge
      rw [none] at at_end
      split at at_end <;> contradiction
  · exact whole (List.drop_subset _ _ (placed.text.subset mem))

theorem exeWords_mem {built : List Leaf} {w : Word} (mem : w ∈ exeWords built) :
    ∃ leaf ∈ built, w ∈ leaf.params := by
  obtain ⟨leaf, listed, param⟩ := List.mem_flatMap.mp mem
  exact ⟨leaf, (List.mem_filter.mp listed).1, param⟩

theorem exeWords_apart {built : List Leaf} (apart : Positions.Apart (built.flatMap Leaf.params)) :
    ∀ w ∈ exeWords built, ∀ w' ∈ exeWords built, w ≠ w' →
      w.start + w.text.length ≤ w'.start ∨ w'.start + w'.text.length ≤ w.start := by
  have words : Positions.Apart (exeWords built) :=
    apart.sublist (List.filter_sublist.flatMap _)
  have both : (exeWords built).Pairwise (fun w w' =>
      w.start + w.text.length ≤ w'.start ∨ w'.start + w'.text.length ≤ w.start) :=
    words.imp Or.inl
  have symm : Std.Symm (fun w w' : Word =>
      w.start + w.text.length ≤ w'.start ∨ w'.start + w'.text.length ≤ w.start) :=
    ⟨fun _ _ => Or.symm⟩
  exact fun w mem w' mem' other => both.forall mem mem' other

theorem setTarget_concat {lines : List Text} {line : Text} {s' : Loaded}
    (loaded : setTarget defaultDevice goodTime (lines ++ [line]) = .ok s') :
    ∃ s p, setTarget defaultDevice goodTime lines = .ok s ∧
      parseLine defaultDevice goodTime line = .ok p ∧
      s' = ⟨s.exes ++ (exeWords p.built).map (⟨s.lineNumber, ·⟩), s.lineNumber + 1,
        setZeros p.cuts (lineText line)⟩ := by
  unfold setTarget at loaded ⊢
  rw [List.foldlM_append] at loaded
  cases first : lines.foldlM (loadLine defaultDevice goodTime) Loaded.empty with
  | error stop =>
    rw [first] at loaded
    contradiction
  | ok s =>
    rw [first] at loaded
    simp only [bind, Except.bind, List.foldlM_cons, List.foldlM_nil, loadLine] at loaded
    cases parsed : parseLine defaultDevice goodTime line with
    | error stop =>
      rw [parsed] at loaded
      contradiction
    | ok p =>
      rw [parsed] at loaded
      cases loaded
      exact ⟨s, p, rfl, rfl, rfl⟩

theorem parseLine_placed {line : Text} {p : Parser}
    (parsed : parseLine defaultDevice goodTime line = .ok p) : Positions.Inv (lineText line) p :=
  (Positions.parseElements_keeps defaultDevice goodTime _ _ _ p (opened_inv _) parsed).1

theorem setTarget_ready {lines : List Text} {s : Loaded}
    (loaded : setTarget defaultDevice goodTime lines = .ok s) :
    s.lineNumber = lines.length ∧ (∀ e ∈ s.exes, e.line < s.lineNumber) ∧ Ready s := by
  induction lines using List.reverseRecOn generalizing s with
  | nil =>
    cases loaded
    exact ⟨rfl, by simp [Loaded.empty], by simp [Loaded.empty], by simp [Loaded.empty]⟩
  | append_singleton lines line ih =>
    obtain ⟨s₀, p, first, parsed, rfl⟩ := setTarget_concat loaded
    obtain ⟨number, earlier, -⟩ := ih first
    have inv := parseLine_placed parsed
    have new {e : Exe} (mem : e ∈ s₀.exes ++ (exeWords p.built).map (⟨s₀.lineNumber, ·⟩))
        (current : e.line + 1 = s₀.lineNumber + 1) : e.exec ∈ exeWords p.built ∧
          e = ⟨s₀.lineNumber, e.exec⟩ := by
      rcases List.mem_append.mp mem with mem | mem
      · have before := earlier e mem
        omega
      · obtain ⟨w, listed, rfl⟩ := List.mem_map.mp mem
        exact ⟨listed, rfl⟩
    refine ⟨by simp [number], fun e mem => ?_, fun e mem current => ?_, ?_⟩
    · rcases List.mem_append.mp mem with mem | mem
      · exact (earlier e mem).trans (Nat.lt_succ_self _)
      · obtain ⟨w, listed, rfl⟩ := List.mem_map.mp mem
        exact Nat.lt_succ_self _
    · obtain ⟨leaf, built, param⟩ := exeWords_mem (new mem current).1
      exact stands_of_at (lineText_whole line) ((inv.leaves leaf built).params _ param)
    · intro e mem e' mem' current current' other
      obtain ⟨listed, eq⟩ := new mem current
      obtain ⟨listed', eq'⟩ := new mem' current'
      refine exeWords_apart inv.apart _ listed _ listed' fun same => other ?_
      rw [eq, eq', same]

def Repeats (scriptPath : Text) (access : Text → Bool) (s : Loaded) (run : List Exe) : Prop :=
  ∀ before e after, run = before ++ e :: after → ∀ cl : CommandLine, cl.render = e.exec.text →
    (execute scriptPath access (executeAll scriptPath access s before) e).1 =
      some (cl.fork scriptPath access)

end

def oneArgument : CommandLine where
  program := ⟨[], .plain, "a".toList⟩
  args := [⟨[' '], .plain, "b".toList⟩]
  trail := []
  program_valid := ⟨by simp, by simp [isspace]⟩
  args_valid := List.forall_mem_singleton.mpr ⟨by simp [isspace], by simp [isspace]⟩
  apart := List.forall_mem_singleton.mpr (by simp)
  trail_blank := Parsing.nothing_blank

theorem once_loaded : setTarget "C0".toList (fun _ => true) ["exe 'a b'".toList] =
    .ok ⟨[⟨0, ⟨"a b".toList, 5⟩⟩], 1, setZeros [3, 8] "exe 'a b'".toList⟩ := rfl

theorem loop_loaded : setTarget "C0".toList (fun _ => true)
      ["for 2 \x7b exe 'a b' \x7d".toList] =
    .ok ⟨[⟨0, ⟨"a b".toList, 13⟩⟩], 1,
      setZeros [3, 5, 7, 11, 16] "for 2 \x7b exe 'a b' \x7d".toList⟩ := rfl

end Rts2.Scripts.ExeElement
