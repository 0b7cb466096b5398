import Rts2.Values.Splitting

/-! Values that are arrays: setValueCharArr, which sets one from a text, and setFromValue. -/
namespace Rts2.Values

open Scripts.Parsing (Text isspace atoi writeInt)

/-- Doubles as a stream writes them in fixed notation, and as atof reads them. -/
structure Doubles (F : Type) where
  write : F → Text
  atof : Text → F
  plain : ∀ x, Scripts.Parsing.PlainWord (write x)
  whole : ∀ x, Char.ofNat 0 ∉ write x

structure ArrayClass (α : Type) where
  /-- An element as getValue writes it. -/
  write : α → Text
  /-- setValueCharArr of the words of a text: whether they are accepted, and what is left. -/
  setWords : List α → List Text → Bool × List α
  /-- setFromValue copies the elements of an array of the type. -/
  copies : Bool

namespace ArrayClass

variable {α : Type} (c : ArrayClass α)

def getValue (value : List α) : Text := joined (value.map c.write)

def setValueCharArr (value : List α) (text : Text) : Bool × List α :=
  c.setWords value (SplitStr (text.takeWhile (· ≠ Char.ofNat 0)))

def setFromValue (value newValue : List α) : List α :=
  if c.copies then newValue else (c.setValueCharArr value (c.getValue newValue)).2

end ArrayClass

def pushWords {α : Type} (read : Text → Option α) (value : List α) : List Text → Bool × List α
  | [] => (true, value)
  | word :: words =>
    match read word with
    | some x => pushWords read (value ++ [x]) words
    | none => (false, value)

def StringArray : ArrayClass Text where
  write := writeWord
  setWords _ words := (true, words)
  copies := false

def DoubleArray {F : Type} (floats : Doubles F) : ArrayClass F where
  write := floats.write
  setWords := pushWords fun word => some (floats.atof word)
  copies := true

def TimeArray {F : Type} (floats : Doubles F) : ArrayClass F := { DoubleArray floats with copies := true }

def IntegerArray : ArrayClass ℤ where
  write := writeInt
  setWords := pushWords fun word => some (atoi word)
  copies := true

def charToBool (in_value : Text) : Option Bool :=
  let lower := in_value.map Char.toLower
  if ["on".toList, "true".toList, "yes".toList, "1".toList].contains lower then some true
  else if ["off".toList, "false".toList, "no".toList, "0".toList].contains lower then some false
  else none

def BoolArray : ArrayClass Bool where
  write b := writeInt (if b then 1 else 0)
  setWords := pushWords charToBool
  copies := true

/-- An array set from the text of a list, or from an array with that list, is the list; a text that
is refused leaves it. -/
structure Law {α : Type} (c : ArrayClass α) (old new : List α) (text : Text) : Prop where
  set : c.setValueCharArr old (c.getValue new) = (true, new)
  from_ : c.setFromValue old new = new
  refused : (c.setValueCharArr old text).1 = false → (c.setValueCharArr old text).2 = old

def cut (text : Text) : Text := text.takeWhile (· ≠ Char.ofNat 0)

theorem cut_whole {text : Text} (whole : Char.ofNat 0 ∉ text) : cut text = text := by
  rw [cut, List.takeWhile_eq_self_iff]
  intro c mem
  rw [decide_eq_true_eq]
  rintro rfl
  exact whole mem

theorem zero_not_cut (text : Text) : Char.ofNat 0 ∉ cut text := fun mem => by
  simpa using List.mem_takeWhile_imp mem

theorem plain_kept {w : Text} (plain : Scripts.Parsing.PlainWord w) :
    Kept w ∧ writeWord w = w := by
  have unspaced : ' ' ∉ w := fun mem => absurd (plain.no_space ' ' mem) (by decide)
  refine ⟨⟨plain.some_char, fun spaced => absurd spaced unspaced, fun _ => ⟨plain.no_space, plain.no_quote⟩⟩, ?_⟩
  rw [writeWord, if_neg unspaced]

theorem joined_mem {ws : List Text} {c : Char} (mem : c ∈ joined ws) : c = ' ' ∨ ∃ w ∈ ws, c ∈ w := by
  induction ws with
  | nil => simp [joined] at mem
  | cons w ws ih =>
    cases ws with
    | nil => exact .inr ⟨w, by simp, by simpa [joined] using mem⟩
    | cons w' ws =>
      rw [joined_cons, List.mem_append, List.mem_cons] at mem
      rcases mem with here | blank | later
      · exact .inr ⟨w, by simp, here⟩
      · exact .inl blank
      · obtain blank | ⟨v, listed, inside⟩ := ih later
        · exact .inl blank
        · exact .inr ⟨v, List.mem_cons_of_mem _ listed, inside⟩

theorem writeWord_mem {w : Text} {c : Char} (other : c ≠ '"') : c ∈ writeWord w ↔ c ∈ w := by
  unfold writeWord
  split
  · simp [other]
  · rfl

theorem SplitStr_mem {text w : Text} {c : Char} (listed : w ∈ SplitStr text) (mem : c ∈ w) :
    c ∈ text := by
  obtain ⟨token, found, rfl⟩ := List.mem_map.mp listed
  have counted := (splitTokens_counted c (text.length + 1) text).opened
  have some_letter : 0 < letters c (splitTokens (text.length + 1) text) := by
    have own : 0 < token.2.count c := List.count_pos_iff.mpr mem
    exact own.trans_le (List.le_sum_of_mem (List.mem_map_of_mem found))
  exact List.count_pos_iff.mp (by omega)

theorem StringArray_law (old new : List Text) (text : Text) :
    Law StringArray old new text ↔ ∀ w ∈ new, Kept w ∧ Char.ofNat 0 ∉ w := by
  have read (value : List Text) : StringArray.setValueCharArr value (StringArray.getValue new) =
      (true, SplitStr (cut (joined (new.map writeWord)))) := rfl
  have zero_free (whole : ∀ w ∈ new, Char.ofNat 0 ∉ w) :
      cut (joined (new.map writeWord)) = joined (new.map writeWord) := by
    refine cut_whole fun mem => ?_
    obtain blank | ⟨v, listed, inside⟩ := joined_mem mem
    · exact absurd blank (by decide)
    · obtain ⟨w, found, rfl⟩ := List.mem_map.mp listed
      exact whole w found ((writeWord_mem (by decide)).mp inside)
  constructor
  · intro law
    have same := law.set
    rw [read] at same
    have words : SplitStr (cut (joined (new.map writeWord))) = new := congrArg Prod.snd same
    have whole : ∀ w ∈ new, Char.ofNat 0 ∉ w := by
      intro w listed mem
      rw [← words] at listed
      exact zero_not_cut _ (SplitStr_mem listed mem)
    rw [zero_free whole, SplitStr_joined_iff] at words
    exact fun w mem => ⟨words w mem, whole w mem⟩
  · intro kept
    have words : SplitStr (cut (joined (new.map writeWord))) = new := by
      rw [zero_free fun w mem => (kept w mem).2]
      exact SplitStr_joined fun w mem => (kept w mem).1
    refine ⟨by rw [read, words], ?_, fun refused => by cases refused⟩
    change (StringArray.setValueCharArr old (StringArray.getValue new)).2 = new
    rw [read, words]

theorem SplitStr_plain {α : Type} {write : α → Text} (plain : ∀ x, Scripts.Parsing.PlainWord (write x))
    (whole : ∀ x, Char.ofNat 0 ∉ write x) (new : List α) :
    SplitStr (cut (joined (new.map write))) = new.map write := by
  have same : new.map write = (new.map write).map writeWord := by
    rw [List.map_map]
    exact List.map_congr_left fun x _ => (plain_kept (plain x)).2.symm
  have no_zero : Char.ofNat 0 ∉ joined (new.map write) := by
    intro mem
    obtain blank | ⟨v, listed, inside⟩ := joined_mem mem
    · exact absurd blank (by decide)
    · obtain ⟨x, found, rfl⟩ := List.mem_map.mp listed
      exact whole x inside
  rw [cut_whole no_zero]
  conv_lhs => rw [same]
  refine SplitStr_joined fun w mem => ?_
  obtain ⟨x, found, rfl⟩ := List.mem_map.mp mem
  exact (plain_kept (plain x)).1

theorem pushWords_some {α : Type} {read : Text → Option α} {f : Text → α} {words : List Text}
    (reads : ∀ w ∈ words, read w = some (f w)) (value : List α) :
    pushWords read value words = (true, value ++ words.map f) := by
  induction words generalizing value with
  | nil => simp [pushWords]
  | cons w words ih =>
    obtain ⟨first, others⟩ := List.forall_mem_cons.mp reads
    rw [pushWords, first]
    dsimp only
    rw [ih others]
    simp

theorem append_eq_right {α : Type} {old new read : List α} (same : read.length = new.length) :
    old ++ read = new ↔ old = [] ∧ read = new := by
  constructor
  · intro eq
    have length := congrArg List.length eq
    rw [List.length_append] at length
    have none : old = [] := List.length_eq_zero_iff.mp (by omega)
    exact ⟨none, by rw [← eq, none, List.nil_append]⟩
  · rintro ⟨rfl, rfl⟩
    rfl

theorem law_push {α : Type} {c : ArrayClass α} {f : Text → α} (copies : c.copies = true)
    (pushes : c.setWords = pushWords fun word => some (f word))
    (plain : ∀ x, Scripts.Parsing.PlainWord (c.write x)) (whole : ∀ x, Char.ofNat 0 ∉ c.write x)
    (old new : List α) (text : Text) :
    Law c old new text ↔ old = [] ∧ ∀ x ∈ new, f (c.write x) = x := by
  have read : c.setValueCharArr old (c.getValue new) = (true, old ++ new.map (f ∘ c.write)) := by
    rw [ArrayClass.setValueCharArr, pushes]
    change pushWords _ old (SplitStr (cut (joined (new.map c.write)))) = _
    rw [SplitStr_plain plain whole, pushWords_some (f := f) fun _ _ => rfl, List.map_map]
  have accepted : (c.setValueCharArr old text).1 = true := by
    rw [ArrayClass.setValueCharArr, pushes, pushWords_some (f := f) fun _ _ => rfl]
  have law : Law c old new text ↔ old ++ new.map (f ∘ c.write) = new := by
    refine ⟨fun law => ?_, fun same => ⟨by rw [read, same], ?_, fun refused => ?_⟩⟩
    · have same := law.set
      rw [read] at same
      exact congrArg Prod.snd same
    · rw [ArrayClass.setFromValue, if_pos copies]
    · rw [accepted] at refused
      contradiction
  have each := List.map_inj_left (l := new) (f := f ∘ c.write) (g := id)
  rw [List.map_id] at each
  rw [law, append_eq_right (List.length_map ..), each]
  rfl

theorem pushWords_accepted {α : Type} (read : Text → Option α) (value : List α) (words : List Text) :
    (pushWords read value words).1 = true ↔ ∀ w ∈ words, read w ≠ none := by
  induction words generalizing value with
  | nil => simp [pushWords]
  | cons w words ih =>
    cases first : read w with
    | none => simp [pushWords, first]
    | some x => simp [pushWords, first, ih]

theorem pushWords_length {α : Type} (read : Text → Option α) (value : List α) (words : List Text) :
    value.length ≤ (pushWords read value words).2.length := by
  induction words generalizing value with
  | nil => exact le_rfl
  | cons w words ih =>
    cases first : read w with
    | none => simp [pushWords, first]
    | some x =>
      have longer := ih (value ++ [x])
      simp only [pushWords, first]
      rw [List.length_append] at longer
      omega

theorem pushWords_refused {α : Type} (read : Text → Option α) (value : List α) (words : List Text) :
    ((pushWords read value words).1 = false → (pushWords read value words).2 = value) ↔
      ((∀ w ∈ words.head?, read w ≠ none) → ∀ w ∈ words, read w ≠ none) := by
  cases words with
  | nil => simp [pushWords]
  | cons w words =>
    cases first : read w with
    | none => simp [pushWords, first]
    | some x =>
      have longer := pushWords_length read (value ++ [x]) words
      have accepted := pushWords_accepted read (value ++ [x]) words
      have step : pushWords read value (w :: words) = pushWords read (value ++ [x]) words := by
        simp [pushWords, first]
      have changed : (pushWords read (value ++ [x]) words).2 ≠ value := by
        intro same
        rw [same, List.length_append] at longer
        simp at longer
      rw [step]
      simp only [changed, imp_false, Bool.not_eq_false, accepted]
      simp [first]

theorem BoolArray_law (old new : List Bool) (text : Text) : Law BoolArray old new text ↔ old = [] ∧
    ((∀ w ∈ (SplitStr (cut text)).head?, charToBool w ≠ none) →
      ∀ w ∈ SplitStr (cut text), charToBool w ≠ none) := by
  have plain (b : Bool) : Scripts.Parsing.PlainWord (BoolArray.write b) :=
    Scripts.Parsing.writeInt_plain _
  have whole (b : Bool) : Char.ofNat 0 ∉ BoolArray.write b := by
    cases b <;> decide
  have reads : ∀ w ∈ new.map BoolArray.write, charToBool w = some (w == "1".toList) := by
    intro w mem
    obtain ⟨b, -, rfl⟩ := List.mem_map.mp mem
    cases b <;> decide
  have back : (new.map BoolArray.write).map (· == "1".toList) = new := by
    rw [List.map_map]
    have each := List.map_inj_left (l := new) (f := (· == "1".toList) ∘ BoolArray.write) (g := id)
    rw [List.map_id] at each
    refine each.mpr fun b _ => ?_
    cases b <;> decide
  have read : BoolArray.setValueCharArr old (BoolArray.getValue new) = (true, old ++ new) := by
    change pushWords charToBool old (SplitStr (cut (joined (new.map BoolArray.write)))) = _
    rw [SplitStr_plain plain whole, pushWords_some reads, back]
  have refused := pushWords_refused charToBool old (SplitStr (cut text))
  constructor
  · intro law
    have same := law.set
    rw [read] at same
    exact ⟨((append_eq_right rfl).mp (congrArg Prod.snd same)).1, refused.mp law.refused⟩
  · rintro ⟨rfl, first⟩
    exact ⟨by rw [read, List.nil_append], rfl, refused.mpr first⟩

/-- The law of each class: a StringArray reads its words back unless they are empty, have a quote
beside a blank, other white space without one, or a quote in front; the others push behind what
they had, and a BoolArray also keeps what it pushed before a word that it refuses. -/
theorem array_law {F : Type} (floats : Doubles F) :
    (∀ old new text, Law StringArray old new text ↔ ∀ w ∈ new, Kept w ∧ Char.ofNat 0 ∉ w) ∧
    (∀ old new text, Law (DoubleArray floats) old new text ↔
      old = [] ∧ ∀ x ∈ new, floats.atof (floats.write x) = x) ∧
    (∀ old new text, Law (TimeArray floats) old new text ↔
      old = [] ∧ ∀ x ∈ new, floats.atof (floats.write x) = x) ∧
    (∀ old new text, Law IntegerArray old new text ↔ old = []) ∧
    (∀ old new text, Law BoolArray old new text ↔ old = [] ∧
      ((∀ w ∈ (SplitStr (cut text)).head?, charToBool w ≠ none) →
        ∀ w ∈ SplitStr (cut text), charToBool w ≠ none)) := by
  refine ⟨StringArray_law, law_push rfl rfl floats.plain floats.whole,
    law_push rfl rfl floats.plain floats.whole, fun old new text => ?_, BoolArray_law⟩
  have law := law_push (c := IntegerArray) (f := atoi) rfl rfl Scripts.Parsing.writeInt_plain
    (fun z mem => by
      have name := Scripts.Parsing.writeInt_name mem
      exact absurd name (by decide)) old new text
  rw [law]
  exact and_iff_left fun z _ => Scripts.Parsing.atoi_writeInt z

/-- A second set of an integer array is pushed behind the first. -/
theorem integers_pushed : IntegerArray.setValueCharArr [1] (IntegerArray.getValue [2]) =
    (true, [1, 2]) := by decide

end Rts2.Values
