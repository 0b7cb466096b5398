import Rts2.Scripts.Positions

/-! Where an element of a script of several lines is told to be, and where its text stands. -/
namespace Rts2.Scripts.Positions

open Parsing

variable {defaultDevice : Text} {goodTime : Text → Bool}

theorem parseLine_inv {line : Text} {p : Parser}
    (parsed : parseLine defaultDevice goodTime line = .ok p) : Inv (lineText line) p := by
  refine (parseElements_keeps defaultDevice goodTime _ _ _ p ?_ parsed).1
  exact ⟨rfl, List.suffix_refl _, by simp, Nat.zero_le _, by simp, List.Pairwise.nil⟩

theorem parseLine_ends (line : Text) :
    parseLine defaultDevice goodTime line ≠ .error .turns := by
  apply parseElements_ends (s := lineText line)
  · exact ⟨rfl, List.suffix_refl _, by simp, Nat.zero_le _, by simp, List.Pairwise.nil⟩
  · exact Nat.lt_succ_self _

def HasElement (defaultDevice : Text) (goodTime : Text → Bool) (line : Text) : Prop :=
  ∃ p, parseLine defaultDevice goodTime line = .ok p ∧ p.built ≠ []

def Bare (lines : List Text) : Prop := ∀ line ∈ lines, lineText line = []

def comments (lines : List Text) : ℕ := lines.countP hasComment

def Placed.Delimited (e : Placed) (whole : Text) : Prop :=
  e.startPos = e.own ∧ (whole.drop e.startPos).take e.len = e.text

/-- The offset counts blanks and three characters for a comment, nothing of the lines. -/
structure Loaded (lines : List Text) (sc : Script) : Prop where
  number : sc.commentNumber = comments lines + 1
  offset : sc.lineOffset ≤ sc.wholeScript.length
  counted : sc.lineOffset = sc.wholeScript.length ↔ Bare lines ∧ comments lines < 10
  nothing : sc.wholeScript = [] ↔ Bare lines ∧ comments lines = 0
  texts : ∀ e ∈ sc.elements, e.text <+: sc.wholeScript.drop e.own ∧ e.len ≤ e.text.length

theorem mark_length (n : ℕ) : 3 ≤ (Script.mark n).length ∧
    ((Script.mark n).length = 3 ↔ n < 10) := by
  have eq : (Script.mark n).length = (Lib.decimal n).length + 2 := by
    have natural : ¬ (n : Int) < 0 := by omega
    simp [Script.mark, writeInt, Lib.decimalInt, natural]
  have some_digit := List.length_pos_iff.mpr (Lib.decimal_ne_nil n)
  refine ⟨by omega, ?_⟩
  have one_digit : (Lib.decimal n).length ≤ 1 ↔ n < 10 := by
    constructor
    · intro short
      by_contra more
      unfold Lib.decimal at short
      rw [if_neg (by omega), List.length_map, List.length_reverse,
        Nat.digits_length_le_iff (by decide)] at short
      omega
    · exact fun small => Lib.decimal_length Nat.one_pos (by omega)
  omega

theorem bare_concat {lines : List Text} {line : Text} :
    Bare (lines ++ [line]) ↔ Bare lines ∧ lineText line = [] := by
  simp [Bare, or_imp, forall_and]

theorem comments_concat (lines : List Text) (line : Text) :
    comments (lines ++ [line]) = comments lines + if hasComment line then 1 else 0 := by
  simp [comments, List.countP_append, List.countP_cons]

theorem loaded_empty : Loaded [] Script.empty := by
  constructor <;> simp [Script.empty, Bare, comments]

theorem text_append {whole text : Text} {own : ℕ} (stands : text <+: whole.drop own)
    (more : Text) : text <+: (whole ++ more).drop own := by
  rw [List.drop_append]
  exact stands.trans (List.prefix_append _ _)

theorem Loaded.separate {lines : List Text} {sc : Script} (loaded : Loaded lines sc) :
    Loaded lines sc.separate := by
  unfold Script.separate
  split
  next blank =>
    obtain ⟨number, offset, counted, nothing, texts⟩ := loaded
    refine ⟨number, ?_, ?_, ?_, ?_⟩
    · simpa using offset
    · simpa using counted
    · refine ⟨by simp, fun none => ?_⟩
      exact absurd (nothing.mpr none) blank.1
    · exact fun e mem => (texts e mem).imp_left (text_append · _)
  · exact loaded

def Script.addText (sc : Script) (line : Text) (p : Parser) : Script :=
  { sc with
    wholeScript := sc.wholeScript ++ lineText line
    elements := sc.elements ++ p.built.map (sc.place (lineText line)) }

theorem addLine_eq (sc : Script) (line : Text) (p : Parser) :
    sc.addLine line p = if hasComment line then
      (sc.separate.addText line p).addComment p.commandStart else sc.separate.addText line p :=
  rfl

structure Texted (lines : List Text) (line : Text) (sc : Script) : Prop where
  number : sc.commentNumber = comments lines + 1
  offset : sc.lineOffset + (lineText line).length ≤ sc.wholeScript.length
  counted : sc.lineOffset + (lineText line).length = sc.wholeScript.length ↔
    Bare lines ∧ comments lines < 10
  nothing : sc.wholeScript = [] ↔ Bare (lines ++ [line]) ∧ comments lines = 0
  texts : ∀ e ∈ sc.elements, e.text <+: sc.wholeScript.drop e.own ∧ e.len ≤ e.text.length

theorem Loaded.addText {lines : List Text} {line : Text} {sc : Script} {p : Parser}
    (loaded : Loaded lines sc) (inv : Inv (lineText line) p) :
    Texted lines line (sc.addText line p) := by
  obtain ⟨number, offset, counted, nothing, texts⟩ := loaded
  refine ⟨number, ?_, ?_, ?_, ?_⟩
  · simpa [Script.addText] using offset
  · simpa [Script.addText] using counted
  · rw [bare_concat]
    simp only [Script.addText, List.append_eq_nil_iff, nothing]
    tauto
  · intro e mem
    rcases List.mem_append.mp mem with mem | mem
    · exact (texts e mem).imp_left (text_append · _)
    · obtain ⟨leaf, built, rfl⟩ := List.mem_map.mp mem
      have read := (inv.leaves leaf built).read
      have total := pos_eq inv.size inv.suffix
      simp only [Script.addText, Script.place, ← List.drop_drop, List.drop_left]
      refine ⟨List.take_prefix _ _, ?_⟩
      rw [List.length_take, List.length_drop]
      omega

theorem Texted.loaded {lines : List Text} {line : Text} {sc : Script}
    (texted : Texted lines line sc) (none : hasComment line = false) :
    Loaded (lines ++ [line]) sc := by
  obtain ⟨number, offset, counted, nothing, texts⟩ := texted
  have same : comments (lines ++ [line]) = comments lines := by
    rw [comments_concat, none]
    rfl
  refine ⟨number.trans (by rw [same]), by omega, ?_, by rw [same, nothing], texts⟩
  rw [same, bare_concat]
  have empty : lineText line = [] ↔ (lineText line).length = 0 := List.length_eq_zero_iff.symm
  rw [empty]
  constructor
  · intro whole
    obtain ⟨bare, few⟩ := counted.mp (by omega)
    exact ⟨⟨bare, by omega⟩, few⟩
  · rintro ⟨⟨bare, bare'⟩, few⟩
    have whole := counted.mpr ⟨bare, few⟩
    omega

theorem addComment_eq (sc : Script) (commandStart : ℕ) :
    ∃ blank : Text, (blank = [] ↔ sc.wholeScript = []) ∧
      sc.addComment commandStart = ⟨sc.wholeScript ++ blank ++ Script.mark sc.commentNumber,
        sc.lineOffset + blank.length + 3, sc.commentNumber + 1,
        sc.elements ++ [⟨commandStart + sc.lineOffset, 2, (sc.wholeScript ++ blank).length,
          '#' :: writeInt sc.commentNumber⟩]⟩ := by
  by_cases some_text : sc.wholeScript = []
  · exact ⟨[], by simp [some_text], by simp [Script.addComment, some_text]⟩
  · exact ⟨[' '], by simp [some_text], by simp [Script.addComment, some_text]⟩

theorem Texted.addComment {lines : List Text} {line : Text} {sc : Script}
    (texted : Texted lines line sc) (comment : hasComment line = true) (commandStart : ℕ) :
    Loaded (lines ++ [line]) (sc.addComment commandStart) := by
  obtain ⟨number, offset, counted, nothing, texts⟩ := texted
  obtain ⟨some_mark, three⟩ := mark_length sc.commentNumber
  obtain ⟨blank, -, added⟩ := addComment_eq sc commandStart
  have one_more : comments (lines ++ [line]) = comments lines + 1 := by
    rw [comments_concat, comment]
    rfl
  have empty : lineText line = [] ↔ (lineText line).length = 0 := List.length_eq_zero_iff.symm
  rw [added]
  refine ⟨?_, ?_, ?_, ?_, ?_⟩
  · rw [one_more, number]
  · simp only [List.length_append]
    omega
  · rw [one_more, bare_concat, empty]
    simp only [List.length_append]
    constructor
    · intro whole
      obtain ⟨bare, few⟩ := counted.mp (by omega)
      have digits := three.mp (by omega)
      exact ⟨⟨bare, by omega⟩, by omega⟩
    · rintro ⟨⟨bare, bare'⟩, few⟩
      have whole := counted.mpr ⟨bare, by omega⟩
      have digits := three.mpr (by omega)
      omega
  · rw [one_more]
    refine ⟨fun none => ?_, fun none => absurd none.2 (Nat.succ_ne_zero _)⟩
    have length := congrArg List.length none
    simp only [List.length_append, List.length_nil] at length
    omega
  · intro e mem
    rcases List.mem_append.mp mem with mem | mem
    · rw [List.append_assoc]
      exact (texts e mem).imp_left (text_append · _)
    · rw [List.mem_singleton.mp mem]
      simp only [List.drop_left]
      refine ⟨⟨[' '], by simp [Script.mark]⟩, ?_⟩
      have digits := List.length_pos_iff.mpr (Lib.decimalInt_ne_nil sc.commentNumber)
      simpa [writeInt] using Nat.succ_le_of_lt digits

theorem Loaded.addLine {lines : List Text} {line : Text} {sc : Script} {p : Parser}
    (loaded : Loaded lines sc) (inv : Inv (lineText line) p) :
    Loaded (lines ++ [line]) (sc.addLine line p) := by
  have texted : Texted lines line (sc.separate.addText line p) := loaded.separate.addText inv
  rw [addLine_eq]
  split
  next comment => exact texted.addComment comment _
  next none => exact texted.loaded (Bool.eq_false_iff.mpr none)

def Placed.Right (e : Placed) : Prop := e.startPos = e.own ∧ e.len = e.text.length

theorem Placed.delimited_iff {e : Placed} {whole : Text} (stands : e.text <+: whole.drop e.own)
    (short : e.len ≤ e.text.length) : e.Delimited whole ↔ e.Right := by
  refine and_congr_right fun start => ?_
  rw [start]
  constructor
  · intro same
    have length := congrArg List.length same
    rw [List.length_take] at length
    omega
  · intro same
    rw [same]
    exact (List.prefix_iff_eq_take.mp stands).symm

/-- What may stand before a line whose elements are told where they stand. -/
structure Undisplaced (defaultDevice : Text) (goodTime : Text → Bool) (before : List Text)
    (line : Text) : Prop where
  elements : HasElement defaultDevice goodTime line → Bare before ∧ comments before < 10
  comment : hasComment line = true → Bare (before ++ [line]) ∧ comments before = 0

theorem Loaded.placed {lines : List Text} {line : Text} {sc : Script} {p : Parser}
    (loaded : Loaded lines sc) (inv : Inv (lineText line) p) :
    (∀ e ∈ p.built.map (sc.place (lineText line)), e.Right) ↔
      (p.built ≠ [] → Bare lines ∧ comments lines < 10) := by
  have leaf_right (leaf : Leaf) (mem : leaf ∈ p.built) :
      (sc.place (lineText line) leaf).Right ↔ Bare lines ∧ comments lines < 10 := by
    have placed := inv.leaves leaf mem
    have told := placed.commandStart
    have read := placed.read
    have total := pos_eq inv.size inv.suffix
    rw [← loaded.counted, Placed.Right]
    simp only [Script.place, List.length_take, List.length_drop]
    omega
  constructor
  · intro right some_leaf
    obtain ⟨leaf, mem⟩ := List.exists_mem_of_ne_nil _ some_leaf
    exact (leaf_right leaf mem).mp (right _ (List.mem_map_of_mem mem))
  · intro few e mem
    obtain ⟨leaf, built, rfl⟩ := List.mem_map.mp mem
    exact (leaf_right leaf built).mpr (few (List.ne_nil_of_mem built))

theorem Texted.comment_right {lines : List Text} {line : Text} {sc : Script}
    (texted : Texted lines line sc) {commandStart : ℕ}
    (within : commandStart ≤ (lineText line).length) :
    (∀ e ∈ (sc.addComment commandStart).elements, e.Right) ↔
      (∀ e ∈ sc.elements, e.Right) ∧ Bare (lines ++ [line]) ∧ comments lines = 0 := by
  obtain ⟨blank, blank_iff, added⟩ := addComment_eq sc commandStart
  obtain ⟨number, offset, counted, nothing, texts⟩ := texted
  obtain ⟨some_mark, three⟩ := mark_length sc.commentNumber
  have digits : ('#' :: writeInt sc.commentNumber).length + 1 =
      (Script.mark sc.commentNumber).length := by
    simp [Script.mark]
  simp only [added, List.forall_mem_append, List.forall_mem_singleton]
  refine and_congr_right fun _ => ?_
  rw [← nothing, ← List.length_eq_zero_iff]
  rw [← List.length_eq_zero_iff, ← List.length_eq_zero_iff] at blank_iff
  rw [← List.length_eq_zero_iff] at nothing
  simp only [Placed.Right, List.length_append]
  constructor
  · rintro ⟨start, -⟩
    omega
  · intro none
    have first := nothing.mp none
    omega

theorem Loaded.line_right {lines : List Text} {line : Text} {sc : Script} {p : Parser}
    (loaded : Loaded lines sc) (parsed : parseLine defaultDevice goodTime line = .ok p) :
    (∀ e ∈ (sc.addLine line p).elements, e.Right) ↔
      (∀ e ∈ sc.elements, e.Right) ∧ Undisplaced defaultDevice goodTime lines line := by
  have inv := parseLine_inv parsed
  have texted : Texted lines line (sc.separate.addText line p) := loaded.separate.addText inv
  have has : HasElement defaultDevice goodTime line ↔ p.built ≠ [] := by
    refine ⟨?_, fun some_leaf => ⟨p, parsed, some_leaf⟩⟩
    rintro ⟨p', parsed', some_leaf⟩
    rw [parsed] at parsed'
    cases parsed'
    exact some_leaf
  have separated : sc.separate.elements = sc.elements := by
    unfold Script.separate
    split <;> rfl
  have texts : (∀ e ∈ (sc.separate.addText line p).elements, e.Right) ↔
      (∀ e ∈ sc.elements, e.Right) ∧ (p.built ≠ [] → Bare lines ∧ comments lines < 10) := by
    rw [← loaded.separate.placed inv, ← separated]
    exact List.forall_mem_append
  have within : p.commandStart ≤ (lineText line).length := by
    have total := pos_eq inv.size inv.suffix
    have before := inv.commandStart
    omega
  rw [addLine_eq]
  split
  next comment =>
    rw [texted.comment_right within, texts, and_assoc]
    refine and_congr_right fun _ => ⟨fun both => ⟨?_, fun _ => both.2⟩, fun both => ?_⟩
    · exact fun element => both.1 (has.mp element)
    · exact ⟨fun some_leaf => both.elements (has.mpr some_leaf), both.comment comment⟩
  next none =>
    rw [texts]
    refine and_congr_right fun _ => ⟨fun few => ⟨?_, fun comment => absurd comment none⟩, ?_⟩
    · exact fun element => few (has.mp element)
    · exact fun both some_leaf => both.elements (has.mpr some_leaf)

theorem setTarget_concat (lines : List Text) (line : Text) {sc' : Script}
    (loaded : setTarget defaultDevice goodTime (lines ++ [line]) = .ok sc') :
    ∃ sc p, setTarget defaultDevice goodTime lines = .ok sc ∧
      parseLine defaultDevice goodTime line = .ok p ∧ sc' = sc.addLine line p := by
  unfold setTarget at loaded ⊢
  rw [List.foldlM_append] at loaded
  cases first : lines.foldlM (parseScript defaultDevice goodTime) Script.empty with
  | error stop =>
    rw [first] at loaded
    contradiction
  | ok sc =>
    rw [first] at loaded
    simp only [bind, Except.bind, List.foldlM_cons, List.foldlM_nil, parseScript] at loaded
    cases parsed : parseLine defaultDevice goodTime line with
    | error stop =>
      rw [parsed] at loaded
      contradiction
    | ok p =>
      rw [parsed] at loaded
      cases loaded
      exact ⟨sc, p, rfl, rfl, rfl⟩

theorem forall_line_concat {P : List Text → Text → Prop} {lines : List Text} {last : Text} :
    (∀ before line after, lines ++ [last] = before ++ line :: after → P before line) ↔
      (∀ before line after, lines = before ++ line :: after → P before line) ∧ P lines last := by
  constructor
  · intro all
    refine ⟨fun before line after eq => ?_, all lines last [] rfl⟩
    exact all before line (after ++ [last]) (by simp [eq])
  · rintro ⟨all, at_last⟩ before line after eq
    rcases List.eq_nil_or_concat after with rfl | ⟨after', last', rfl⟩
    · obtain ⟨rfl, eq'⟩ := List.append_inj' eq rfl
      cases eq'
      exact at_last
    · rw [List.concat_eq_append, ← List.cons_append, ← List.append_assoc] at eq
      exact all before line after' (List.append_inj' eq rfl).1

theorem setTarget_right {lines : List Text} {sc : Script}
    (loaded : setTarget defaultDevice goodTime lines = .ok sc) :
    Loaded lines sc ∧ ((∀ e ∈ sc.elements, e.Right) ↔
      ∀ before line after, lines = before ++ line :: after →
        Undisplaced defaultDevice goodTime before line) := by
  induction lines using List.reverseRecOn generalizing sc with
  | nil =>
    cases loaded
    exact ⟨loaded_empty, by simp [Script.empty]⟩
  | append_singleton lines line ih =>
    obtain ⟨sc₀, p, first, parsed, rfl⟩ := setTarget_concat lines line loaded
    obtain ⟨before, right⟩ := ih first
    refine ⟨before.addLine (parseLine_inv parsed), ?_⟩
    rw [before.line_right parsed, right]
    exact forall_line_concat.symm

theorem setTarget_ends (lines : List Text) :
    setTarget defaultDevice goodTime lines ≠ .error .turns := by
  induction lines using List.reverseRecOn with
  | nil => simp [setTarget, pure, Except.pure]
  | append_singleton lines line ih =>
    have ended : parseLine defaultDevice goodTime line ≠ .error .turns := parseLine_ends line
    unfold setTarget at ih ⊢
    rw [List.foldlM_append]
    cases first : lines.foldlM (parseScript defaultDevice goodTime) Script.empty with
    | error stop =>
      rw [first] at ih
      simpa [bind, Except.bind] using ih
    | ok sc =>
      simp only [bind, Except.bind, List.foldlM_cons, List.foldlM_nil, parseScript]
      cases parsed : parseLine defaultDevice goodTime line with
      | error stop =>
        rw [parsed] at ended
        simpa using ended
      | ok p => simp [pure, Except.pure]

/-- Each element is told where its text stands just where no text stands in the lines before it,
and fewer than ten comments; a comment only where it is the first of a script with no text
before it. -/
theorem elements_delimited_iff {lines : List Text} {sc : Script}
    (loaded : setTarget defaultDevice goodTime lines = .ok sc) :
    (∀ e ∈ sc.elements, e.Delimited sc.wholeScript) ↔
      ∀ before line after, lines = before ++ line :: after →
        Undisplaced defaultDevice goodTime before line := by
  obtain ⟨placed, right⟩ := setTarget_right loaded
  rw [← right]
  refine forall₂_congr fun e mem => ?_
  obtain ⟨stands, short⟩ := placed.texts e mem
  exact Placed.delimited_iff stands short

theorem one_line_delimited : ∃ sc,
    setTarget "C0".toList (fun _ => true) ["E 10 D 3".toList] = .ok sc ∧
      ∀ e ∈ sc.elements, e.Delimited sc.wholeScript := by
  have loaded : setTarget "C0".toList (fun _ => true) ["E 10 D 3".toList] =
      .ok ⟨"E 10 D 3".toList, 0, 1, [⟨0, 5, 0, "E 10 ".toList⟩, ⟨5, 3, 5, "D 3".toList⟩]⟩ := rfl
  refine ⟨_, loaded, (elements_delimited_iff loaded).mpr ?_⟩
  intro before line after eq
  obtain ⟨rfl, rfl, rfl⟩ : before = [] ∧ line = "E 10 D 3".toList ∧ after = [] := by
    cases before with
    | nil => simpa [eq_comm] using eq
    | cons first before => simp at eq
  exact ⟨fun _ => ⟨by simp [Bare], by decide⟩, fun comment => absurd comment (by decide)⟩

/-- The second line is told to begin at the second character of the first. -/
theorem second_line_displaced : ∃ sc,
    setTarget "C0".toList (fun _ => true) ["E 10".toList, "D 3".toList] = .ok sc ∧
      ∃ e ∈ sc.elements, e.text = "D 3".toList ∧
        (sc.wholeScript.drop e.startPos).take e.len = " 10".toList := by
  refine ⟨⟨"E 10 D 3".toList, 1, 1, [⟨0, 4, 0, "E 10".toList⟩, ⟨1, 3, 5, "D 3".toList⟩]⟩, rfl,
    ⟨1, 3, 5, "D 3".toList⟩, ?_, rfl, rfl⟩
  exact List.mem_cons_of_mem _ (List.mem_singleton.mpr rfl)

end Rts2.Scripts.Positions
