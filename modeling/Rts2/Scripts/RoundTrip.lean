import Rts2.Scripts.Rereads

/-! Which scripts are read as they were printed. -/
namespace Rts2.Scripts.Parsing

open Lib

variable {F : Type}

section

variable [NatCast F] {fl : Floats F} {around : Surroundings F}

theorem words_length (first : Text) (others : List Text) :
    first.length ≤ (words first others).length := by
  simp [words]

theorem braces_length (t : Text) : (braces t).length = t.length + 5 := by
  simp [braces]

mutual

theorem turns_element (e : Element F) (text : Text) (printed : printElement fl around e = some text) :
    e.turns < text.length := by
  cases e with
  | changeValue device valName op operands =>
    rw [printElement] at printed
    obtain ⟨value, -, rfl⟩ := Option.map_eq_some_iff.mp printed
    simp [Element.turns]
  | signalEnd sig_num els =>
    rw [printElement] at printed
    obtain ⟨inner, inside, rfl⟩ := Option.map_eq_some_iff.mp printed
    have few := turns_elements els inner inside
    rw [Element.turns, List.length_append, braces_length]
    omega
  | acquired els elses =>
    rw [printElement] at printed
    obtain ⟨inner, inside, printed⟩ := Option.bind_eq_some_iff.mp printed
    obtain ⟨other, otherwise, printed⟩ := Option.bind_eq_some_iff.mp printed
    cases printed
    have few := turns_elements els inner inside
    rw [Element.turns, List.length_append, List.length_append, braces_length]
    cases elses with
    | nil => simp [turnsAll]; omega
    | cons e elses =>
      have few' := turns_elements (e :: elses) other otherwise
      simp [braces_length]
      omega
  | elementFor max els =>
    rw [printElement] at printed
    obtain ⟨inner, inside, rfl⟩ := Option.map_eq_some_iff.mp printed
    have few := turns_elements els inner inside
    rw [Element.turns, List.length_append, braces_length]
    omega
  | elementWhile condition max_cycles els =>
    rw [printElement] at printed
    obtain ⟨inner, inside, rfl⟩ := Option.map_eq_some_iff.mp printed
    have few := turns_elements els inner inside
    rw [Element.turns, List.length_append, braces_length]
    omega
  | elementDo condition max_cycles els =>
    rw [printElement] at printed
    obtain ⟨condition', -, printed⟩ := Option.bind_eq_some_iff.mp printed
    obtain ⟨value, -, printed⟩ := Option.bind_eq_some_iff.mp printed
    obtain ⟨inner, inside, printed⟩ := Option.bind_eq_some_iff.mp printed
    cases printed
    have few := turns_elements els inner inside
    rw [Element.turns, List.length_append, braces_length]
    omega
  | once els =>
    rw [printElement] at printed
    obtain ⟨inner, inside, rfl⟩ := Option.map_eq_some_iff.mp printed
    have few := turns_elements els inner inside
    rw [Element.turns, List.length_append, braces_length]
    omega
  | _ =>
    rw [printElement] at printed
    cases printed
    exact Nat.lt_of_lt_of_le (by simp [Element.turns]) (words_length _ _)

theorem turns_elements (els : List (Element F)) (text : Text)
    (printed : printElements fl around els = some text) : turnsAll els ≤ text.length + 1 := by
  cases els with
  | nil => simp [turnsAll]
  | cons e els =>
    rw [printElements] at printed
    obtain ⟨text₁, one, printed⟩ := Option.bind_eq_some_iff.mp printed
    obtain ⟨texts, others, printed⟩ := Option.bind_eq_some_iff.mp printed
    have few := turns_element e text₁ one
    have few' := turns_elements els texts others
    rw [turnsAll]
    cases els with
    | nil =>
      cases printed
      simp [turnsAll]
      omega
    | cons next els =>
      cases printed
      simp
      omega

end

end

def Clear (t : Text) : Prop := ∀ c ∈ t, c = ' ' ∨ isspace c = false ∧ c ≠ '#'

namespace Clear

theorem append {t t' : Text} (clear : Clear t) (clear' : Clear t') : Clear (t ++ t') := by
  intro c mem
  rcases List.mem_append.mp mem with mem | mem
  · exact clear c mem
  · exact clear' c mem

theorem space {t : Text} (clear : Clear t) : Clear (' ' :: t) := by
  intro c mem
  rcases List.mem_cons.mp mem with rfl | mem
  · exact .inl rfl
  · exact clear c mem

theorem of_plain {w : Text} (plain : PlainWord w) : Clear w := by
  intro c mem
  refine .inr ⟨plain.no_space c mem, ?_⟩
  rintro rfl
  exact plain.no_comment mem

theorem words {first : Text} {others : List Text} (clear : Clear first)
    (clear_others : ∀ w ∈ others, Clear w) : Clear (words first others) := by
  apply clear.append
  intro c mem
  obtain ⟨w, listed, mem⟩ := List.mem_flatMap.mp mem
  exact (clear_others w listed).space c mem

theorem braces {t : Text} (clear : Clear t) : Clear (braces t) := by
  have opening : Clear " \x7b ".toList := by simp [Clear, isspace]
  have closing : Clear " \x7d".toList := by simp [Clear, isspace]
  exact (opening.append clear).append closing

end Clear

section

variable {fl : Floats F} {around : Surroundings F}

theorem clear_written [NatCast F] (writes : fl.Writes) {e : Element F} {name : Text} {keyword : Keyword}
    {params : List (Param F)} (written : e.written = some (name, keyword, params))
    (printable : Printable e) {text : Text} (printed : printElement fl around e = some text) :
    Clear text := by
  rw [print_written fl around written] at printed
  cases printed
  have known := (written_spec written).1
  have name_plain := (plainName_spec (List.all_eq_true.mp keywords_plain _ (keywordOf_mem known))).1
  apply Clear.words (.of_plain name_plain)
  intro w listed
  obtain ⟨param, mem, rfl⟩ := List.mem_map.mp listed
  exact .of_plain ((written_plain written printable param mem).word writes)

theorem clear_operands (writes : fl.Writes) {operands : List (Operand F)}
    (formed : ∀ operand ∈ operands, FormedOperand operand) {text : Text}
    (written : writeOperands fl around operands = some text) : Clear text := by
  induction operands generalizing text with
  | nil =>
    cases written
    exact fun c mem => nomatch mem
  | cons operand operands ih =>
    obtain ⟨formed_first, formed⟩ := List.forall_mem_cons.mp formed
    rw [writeOperands] at written
    obtain ⟨first, one, written⟩ := Option.bind_eq_some_iff.mp written
    have name := writeOperand_name writes formed_first one
    have clear : Clear first := by
      intro c mem
      refine .inr ⟨isName_not_space (name c mem), ?_⟩
      rintro rfl
      cases name '#' mem
    split at written
    · cases written
      exact clear
    · obtain ⟨texts, others, written⟩ := Option.bind_eq_some_iff.mp written
      cases written
      exact clear.append (ih formed others).space

variable [NatCast F]

mutual

theorem clear_element (writes : fl.Writes) (e : Element F) (text : Text) (printable : Printable e)
    (printed : printElement fl around e = some text) : Clear text := by
  have count (name : Text) (plain : plainName name = true) (n : Int) : Clear (words name [writeInt n]) := by
    apply Clear.words (.of_plain (plainName_spec plain).1)
    intro w listed
    obtain rfl := List.mem_singleton.mp listed
    exact .of_plain (writeInt_plain n)
  cases e with
  | center => exact printable.elim
  | changeValue device valName op operands =>
    obtain ⟨named, operator, formed⟩ := printable
    rw [printElement] at printed
    obtain ⟨value, written, rfl⟩ := Option.map_eq_some_iff.mp printed
    have clear_device : Clear (if device.isEmpty then [] else device ++ ['.']) := by
      rcases named.device with ⟨rfl, -, -⟩ | ⟨plain, -, -, -⟩
      · exact fun c mem => nomatch mem
      · split
        · exact fun c mem => nomatch mem
        · exact (Clear.of_plain plain).append (by simp [Clear, isspace])
    have clear_name : Clear valName := fun c mem => .inr (named.name c mem).2
    have clear_op : Clear [op] := by
      rcases operator_cases operator with rfl | rfl | rfl <;> simp [Clear, isspace]
    rw [List.append_cons]
    exact ((clear_device.append clear_name).append clear_op).append
      (clear_operands writes formed written)
  | command device cmd args =>
    rw [printElement] at printed
    cases printed
    obtain ⟨plain, -, -, plain_args⟩ := printable
    apply Clear.words (.of_plain (plainName_spec (by decide)).1)
    intro w listed
    rcases List.mem_cons.mp listed with rfl | listed
    · exact .of_plain plain
    · exact .of_plain (plain_args w listed)
  | signalEnd sig_num els =>
    rw [printElement] at printed
    obtain ⟨inner, inside, rfl⟩ := Option.map_eq_some_iff.mp printed
    exact (count _ (by decide) _).append (clear_elements writes els inner printable inside).braces
  | acquired els elses =>
    rw [printElement] at printed
    obtain ⟨inner, inside, printed⟩ := Option.bind_eq_some_iff.mp printed
    obtain ⟨other, otherwise, printed⟩ := Option.bind_eq_some_iff.mp printed
    cases printed
    have name : Clear "ifacq".toList := .of_plain (plainName_spec (by decide)).1
    have clear := clear_elements writes els inner printable.1 inside
    have clear' := clear_elements writes elses other printable.2 otherwise
    have word : Clear " else ".toList := by simp [Clear, isspace]
    refine (name.append clear.braces).append ?_
    split
    · exact fun c mem => nomatch mem
    · exact word.append clear'.braces
  | elementFor max els =>
    rw [printElement] at printed
    obtain ⟨inner, inside, rfl⟩ := Option.map_eq_some_iff.mp printed
    exact (count _ (by decide) _).append (clear_elements writes els inner printable inside).braces
  | elementWhile condition max_cycles els =>
    rw [printElement] at printed
    obtain ⟨inner, inside, rfl⟩ := Option.map_eq_some_iff.mp printed
    exact (count _ (by decide) _).append (clear_elements writes els inner printable inside).braces
  | elementDo condition max_cycles els =>
    rw [printElement] at printed
    obtain ⟨condition', -, printed⟩ := Option.bind_eq_some_iff.mp printed
    obtain ⟨value, written, printed⟩ := Option.bind_eq_some_iff.mp printed
    obtain ⟨inner, inside, printed⟩ := Option.bind_eq_some_iff.mp printed
    cases printed
    have clear_value : Clear value := fun c mem => .inr (condition_written writes written c mem)
    exact ((count _ (by decide) _).append clear_value).append
      (clear_elements writes els inner printable inside).braces
  | once els =>
    rw [printElement] at printed
    obtain ⟨inner, inside, rfl⟩ := Option.map_eq_some_iff.mp printed
    have name : Clear "once".toList := .of_plain (plainName_spec (by decide)).1
    exact name.append (clear_elements writes els inner printable inside).braces
  | _ => exact clear_written writes rfl printable printed

theorem clear_elements (writes : fl.Writes) (els : List (Element F)) (text : Text)
    (printable : PrintableAll els) (printed : printElements fl around els = some text) :
    Clear text := by
  cases els with
  | nil =>
    cases printed
    exact fun c mem => nomatch mem
  | cons e els =>
    rw [printElements] at printed
    obtain ⟨text₁, one, printed⟩ := Option.bind_eq_some_iff.mp printed
    obtain ⟨texts, others, printed⟩ := Option.bind_eq_some_iff.mp printed
    have clear := clear_element writes e text₁ printable.1 one
    have clear' := clear_elements writes els texts printable.2.1 others
    split at printed
    · cases printed
      exact clear
    · cases printed
      exact clear.append clear'.space

end

end

section

variable [NatCast F] [Add F] [Mul F] [Div F] [Neg F]
variable {fl : Floats F} {around : Surroundings F} {defaultDevice : Text}

mutual

theorem kept_prints_element (e : Element F) (kept : Kept fl defaultDevice e) :
    ∃ text, printElement fl around e = some text := by
  cases e with
  | changeValue device valName op operands =>
    obtain ⟨-, ⟨operand, rfl, keeps⟩, -⟩ := kept
    cases operand with
    | randomNumber _from _to => exact keeps.elim
    | number val => exact ⟨_, by rw [printElement]; rfl⟩
    | string str => exact ⟨_, by rw [printElement]; rfl⟩
  | signalEnd sig_num els =>
    obtain ⟨inner, inside⟩ := kept_prints els kept
    exact ⟨_, by rw [printElement, inside]; rfl⟩
  | acquired els elses =>
    obtain ⟨inner, inside⟩ := kept_prints els kept.1
    obtain ⟨other, otherwise⟩ := kept_prints elses kept.2
    exact ⟨_, by rw [printElement, inside, otherwise]; rfl⟩
  | elementFor max els =>
    obtain ⟨inner, inside⟩ := kept_prints els kept
    exact ⟨_, by rw [printElement, inside]; rfl⟩
  | once els =>
    obtain ⟨inner, inside⟩ := kept_prints els kept
    exact ⟨_, by rw [printElement, inside]; rfl⟩
  | elementWhile => exact kept.elim
  | elementDo => exact kept.elim
  | _ => exact ⟨_, by rw [printElement]⟩

theorem kept_prints (els : List (Element F)) (kept : KeptAll fl defaultDevice els) :
    ∃ text, printElements fl around els = some text := by
  cases els with
  | nil => exact ⟨[], rfl⟩
  | cons e els =>
    obtain ⟨text, one⟩ := kept_prints_element e kept.1
    obtain ⟨texts, others⟩ := kept_prints els kept.2
    exact ⟨_, by rw [printElements, one, others]; rfl⟩

end

def ReadsAsPrinted (fl : Floats F) (around : Surroundings F) (defaultDevice : Text)
    (elements : List (Element F)) : Prop :=
  ∃ text, printScript fl around elements = some text ∧
    parseScript fl defaultDevice text = .ok elements

theorem parseScript_clear {text : Text} (clear : Clear text) :
    parseScript fl defaultDevice text =
      (parseBlock fl defaultDevice (text.length + 1) text).map Prod.fst := by
  have same : text.map (fun c => if c = '\n' ∨ c = '\r' ∨ c = '\t' then ' ' else c) = text := by
    have kept : text.map (fun c => if c = '\n' ∨ c = '\r' ∨ c = '\t' then ' ' else c) =
        text.map id := by
      apply List.map_congr_left
      intro c mem
      rcases clear c mem with rfl | ⟨no_space, -⟩
      · rfl
      · rw [if_neg]
        · rfl
        · rintro (rfl | rfl | rfl) <;> cases no_space
    rw [kept, List.map_id]
  have no_comment : '#' ∉ text := by
    intro mem
    rcases clear '#' mem with same | ⟨-, other⟩
    · cases same
    · exact other rfl
  simp only [parseScript, same, if_neg no_comment]

/-- A script whose words need no quotes is read as it was printed if and only if each element of it
is kept. -/
theorem printed_script_iff (writes : fl.Writes) {elements : List (Element F)}
    (printable : PrintableAll elements) :
    ReadsAsPrinted fl around defaultDevice elements ↔ KeptAll fl defaultDevice elements := by
  have reread (text : Text) (printed : printScript fl around elements = some text) :
      Rereads (parseBlock fl defaultDevice (text.length + 1) text) elements
        (KeptAll fl defaultDevice elements) [] :=
    reread_elements writes elements (text.length + 1) text text [] [] printable printed
      (turns_elements elements text printed) (by simp [Same]) .eof
  constructor
  · rintro ⟨text, printed, read⟩
    rw [parseScript_clear (clear_elements writes elements text printable printed)] at read
    cases block : parseBlock fl defaultDevice (text.length + 1) text with
    | error stop =>
      rw [block] at read
      cases read
    | ok result =>
      obtain ⟨elements', rest⟩ := result
      rw [block] at read
      cases read
      exact (reread text printed).only rest block
  · intro kept
    obtain ⟨text, printed⟩ : ∃ text, printScript fl around elements = some text :=
      kept_prints elements kept
    obtain ⟨rest, block, -⟩ := (reread text printed).reads kept
    refine ⟨text, printed, ?_⟩
    rw [parseScript_clear (clear_elements writes elements text printable printed), block]
    rfl

end

def integers : Floats Int where
  write := writeInt
  atof := atoi
  narrow := id
  eq := fun x y => x = y
  lt := fun x y => x < y

theorem integers_write : integers.Writes where
  some_char := fun n => (writeInt_plain n).some_char
  name := fun _ _ mem => writeInt_name mem

def alone : Surroundings Int where
  random := fun _ _ => none
  getValueDouble := fun _ _ => none

def acquiredScript : List (Element Int) :=
  [.acquired [.changeValue "W0".toList "filter".toList '=' [.string "R"], .elementFor 3 [.expose 20]]
    [.box 10 10 64 32, .signalEnd 2 [.waitAcquire]]]

theorem acquiredScript_reads : ReadsAsPrinted integers alone "C0".toList acquiredScript := by
  have plain (w : Text) (name : plainName w = true) : PlainWord w := (plainName_spec name).1
  have value : Printable (.changeValue "W0".toList "filter".toList '=' [.string "R"] : Element Int) := by
    have name := plainName_spec (w := "filter".toList) (by decide)
    have named : NamedValue "W0".toList "filter".toList := by
      refine ⟨fun c mem => ⟨name.2.2 c mem, name.1.no_space c mem, ?_⟩,
        .inr ⟨plain _ (by decide), by decide, by decide, by decide⟩⟩
      rintro rfl
      exact name.1.no_comment mem
    refine ⟨named, rfl, fun operand mem => ?_⟩
    obtain rfl := List.mem_singleton.mp mem
    exact ⟨by simp [isName, isalnum, isalpha], ⟨'R', rfl, by decide⟩, by decide⟩
  have printable : PrintableAll acquiredScript := by
    simpa [acquiredScript, PrintableAll, Printable, Element.elseless] using value
  refine (printed_script_iff integers_write printable).mpr ?_
  simp [acquiredScript, KeptAll, Kept, KeepsOperand, integers, atoi_writeInt]

/-- BOX writes its second parameter twice. -/
theorem box_drifts :
    ∃ elements, parseScript integers "C0".toList "BOX 1 2 3 4".toList = .ok elements ∧
      ¬ ReadsAsPrinted integers alone "C0".toList elements := by
  refine ⟨[.box 1 2 3 4], by rfl, ?_⟩
  rintro ⟨text, printed, read⟩
  have same : "BOX 2 2 3 4".toList = text := Option.some.inj printed
  have other : parseScript integers "C0".toList "BOX 2 2 3 4".toList = .ok [.box 2 2 3 4] := by rfl
  rw [← same, other] at read
  cases read

end Rts2.Scripts.Parsing
