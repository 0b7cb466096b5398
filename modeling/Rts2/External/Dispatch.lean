import Rts2.External.Execute

/-! Which command a word of a script runs: the chain of ConnExe::processCommand. The words are
taken without zero bytes, as C strings; the theorems hold of any bytes. -/
namespace Rts2.External

inductive OwnWord where
  | C
  | CT
  | V
  | set_own
  | G
  | get_own
  | S
  | waitidle
  | waitmask
  | log
  | run_device
  | exec_device
  | tempentry
  | register_randevous
  | wait_randevous
  deriving DecidableEq, Repr

def OwnWord.exact : List (String × OwnWord) :=
  [("C", C), ("CT", CT), ("V", V), ("set_own", set_own), ("G", G), ("get_own", get_own),
    ("S", S), ("waitidle", waitidle), ("waitmask", waitmask), ("log", log),
    ("run_device", run_device), ("exec_device", exec_device)]

/-- What the value commands are tested with. -/
inductive Keyword where
  | double
  | timevalue
  | integer
  | string
  | bool
  | onoff
  | double_array
  | stat
  deriving DecidableEq, Repr

namespace Keyword

def expected : Keyword → List UInt8
  | double => bytes "double"
  | timevalue => bytes "timevalue"
  | integer => bytes "integer"
  | string => bytes "string"
  | bool => bytes "bool"
  | onoff => bytes "onoff"
  | double_array => bytes "double_array"
  | stat => bytes "stat"

def chain : List Keyword := [double, timevalue, integer, string, bool, onoff, double_array, stat]

theorem mem_chain (keyword : Keyword) : keyword ∈ chain := by
  cases keyword <;> decide

end Keyword

def valueFits : BitVec 32 := 0x00000100
def valueWritable : BitVec 32 := 0x02000000
def valueScriptTemporary : BitVec 32 := 0x04000000

def flagOf (letter : UInt8) : BitVec 32 :=
  if letter = 119 then valueWritable
  else if letter = 102 then valueFits
  else if letter = 116 then valueScriptTemporary
  else 0

def scanFlags : List UInt8 → BitVec 32
  | [] => 0
  | letter :: rest => flagOf letter ||| scanFlags rest

def startsWith (cmd expected : List UInt8) : Bool :=
  strcasecmp (cmd.take expected.length) expected

def isValueCommand (cmd expected : List UInt8) : Option (BitVec 32) :=
  if startsWith cmd expected then
    match cmd.drop expected.length with
    | [] => some 0
    | c :: rest => if c = 95 then some (scanFlags rest) else some 0
  else none

def forwardedWords : List (List UInt8) :=
  [bytes "value_create", bytes "value_delete", bytes "value_add", bytes "double_array_add",
    bytes "stat_add"]

inductive Branch where
  | own (word : OwnWord)
  | value (keyword : Keyword) (vflags : BitVec 32)
  | forwarded
  | unknown
  deriving DecidableEq, Repr

def ownExact (cmd : List UInt8) : Option OwnWord :=
  (OwnWord.exact.find? (fun entry => cmd = bytes entry.1)).map (·.2)

def valueCommand (cmd : List UInt8) : Option (Keyword × BitVec 32) :=
  Keyword.chain.findSome? (fun keyword =>
    (isValueCommand cmd keyword.expected).map (fun vflags => (keyword, vflags)))

def dispatch (cmd : List UInt8) : Branch :=
  match ownExact cmd with
  | some word => .own word
  | none =>
    if strcasecmp cmd (bytes "tempentry") then .own .tempentry
    else match valueCommand cmd with
    | some (keyword, vflags) => .value keyword vflags
    | none =>
      if strcasecmp cmd (bytes "register_randevous") then .own .register_randevous
      else if strcasecmp cmd (bytes "wait_randevous") then .own .wait_randevous
      else if forwardedWords.any (strcasecmp cmd) then .forwarded
      else .unknown

def Form (keyword : Keyword) (w : List UInt8) : Prop :=
  startsWith w keyword.expected = true ∧
    (w.drop keyword.expected.length = [] ∨
      ∃ letters, w.drop keyword.expected.length = 95 :: letters ∧
        ∀ c ∈ letters, c = 119 ∨ c = 102 ∨ c = 116)

def Named (w : List UInt8) : Prop :=
  (∃ entry ∈ OwnWord.exact, w = bytes entry.1) ∨ strcasecmp w (bytes "tempentry") = true ∨
    strcasecmp w (bytes "register_randevous") = true ∨
    strcasecmp w (bytes "wait_randevous") = true

structure Dispatched (w : List UInt8) : Prop where
  value : ∀ keyword vflags, dispatch w = .value keyword vflags → Form keyword w
  forwarded : dispatch w = .forwarded ↔ w ∈ forwardedWords
  unknown : ¬ Named w → (∀ keyword, ¬ Form keyword w) → w ∉ forwardedWords →
    dispatch w = .unknown

/-- The word goes on as a keyword only in that keyword's own form, and is no other spelling of a
forwarded word. -/
def Plain (w : List UInt8) : Prop :=
  (∀ keyword : Keyword, startsWith w keyword.expected = true → Form keyword w) ∧
    ∀ word ∈ forwardedWords, strcasecmp w word = true → w = word

theorem strcasecmp_iff {s t : List UInt8} :
    strcasecmp s t = true ↔ s.map toLower = t.map toLower := by
  simp [strcasecmp]

theorem strcasecmp_take_iff {w lower : List UInt8} (fixed : lower.map toLower = lower) :
    strcasecmp (w.take lower.length) lower = true ↔ lower <+: w.map toLower := by
  rw [strcasecmp_iff, fixed, List.map_take, List.prefix_iff_eq_take, eq_comm]

theorem Keyword.expected_lower (keyword : Keyword) :
    keyword.expected.map toLower = keyword.expected := by
  cases keyword <;> decide

theorem startsWith_iff {w : List UInt8} {keyword : Keyword} :
    startsWith w keyword.expected = true ↔ keyword.expected <+: w.map toLower :=
  strcasecmp_take_iff keyword.expected_lower

theorem Keyword.expected_prefix : ∀ k ∈ chain, ∀ l ∈ chain, k.expected <+: l.expected →
    k = l ∨ k = double ∧ l = double_array := by
  decide

theorem startsWith_both {w : List UInt8} {k l : Keyword}
    (first : startsWith w k.expected = true) (second : startsWith w l.expected = true) :
    k = l ∨ k = .double ∧ l = .double_array ∨ k = .double_array ∧ l = .double := by
  rw [startsWith_iff] at first second
  rcases List.prefix_or_prefix_of_prefix first second with shorter | shorter
  · rcases Keyword.expected_prefix k k.mem_chain l l.mem_chain shorter with same | pair
    · exact .inl same
    · exact .inr (.inl pair)
  · rcases Keyword.expected_prefix l l.mem_chain k k.mem_chain shorter with same | pair
    · exact .inl same.symm
    · exact .inr (.inr pair.symm)

theorem not_startsWith {w lower : List UInt8} {keyword : Keyword}
    (same : strcasecmp w lower = true) (other : ¬ keyword.expected <+: lower.map toLower) :
    startsWith w keyword.expected = false := by
  rw [strcasecmp_iff] at same
  rw [← Bool.not_eq_true, startsWith_iff, same]
  exact other

theorem strcasecmp_refl (w : List UInt8) : strcasecmp w w = true := strcasecmp_iff.mpr rfl

theorem own_other : ∀ entry ∈ OwnWord.exact, ∀ keyword ∈ Keyword.chain,
    ¬ keyword.expected <+: (bytes entry.1).map toLower := by
  decide

theorem tempentry_other : ∀ keyword ∈ Keyword.chain,
    ¬ keyword.expected <+: (bytes "tempentry").map toLower := by
  decide

theorem ownExact_iff {w : List UInt8} :
    (ownExact w).isSome = true ↔ ∃ entry ∈ OwnWord.exact, w = bytes entry.1 := by
  simp [ownExact, List.find?_isSome]

theorem ownExact_keyword {w : List UInt8} {keyword : Keyword}
    (starts : startsWith w keyword.expected = true) : ownExact w = none := by
  by_contra some
  obtain ⟨entry, listed, rfl⟩ := ownExact_iff.mp (Option.isSome_iff_ne_none.mpr some)
  exact absurd starts (by
    simp [not_startsWith (strcasecmp_refl _) (own_other entry listed keyword keyword.mem_chain)])

theorem tempentry_keyword {w : List UInt8} {keyword : Keyword}
    (starts : startsWith w keyword.expected = true) :
    strcasecmp w (bytes "tempentry") = false := by
  rw [← Bool.not_eq_true]
  intro same
  exact absurd starts (by
    simp [not_startsWith same (tempentry_other keyword keyword.mem_chain)])

theorem isValueCommand_isSome (w expected : List UInt8) :
    (isValueCommand w expected).isSome = startsWith w expected := by
  unfold isValueCommand
  by_cases starts : startsWith w expected = true
  · rw [if_pos starts, starts]
    split
    · rfl
    · split <;> rfl
  · rw [if_neg starts]
    simp [starts]

theorem valueCommand_some {w : List UInt8} {keyword : Keyword} {vflags : BitVec 32}
    (found : valueCommand w = some (keyword, vflags)) :
    isValueCommand w keyword.expected = some vflags := by
  obtain ⟨k, _, eq⟩ := List.exists_of_findSome?_eq_some found
  obtain ⟨flags, is, pair⟩ := Option.map_eq_some_iff.mp eq
  cases pair
  exact is

theorem valueCommand_starts {w : List UInt8} {keyword : Keyword} {vflags : BitVec 32}
    (found : valueCommand w = some (keyword, vflags)) :
    startsWith w keyword.expected = true := by
  rw [← isValueCommand_isSome, valueCommand_some found]
  rfl

theorem valueCommand_none {w : List UInt8} :
    valueCommand w = none ↔ ∀ keyword : Keyword, startsWith w keyword.expected = false := by
  simp only [valueCommand, List.findSome?_eq_none_iff, Option.map_eq_none_iff]
  constructor
  · intro none keyword
    rw [← isValueCommand_isSome, none keyword keyword.mem_chain]
    rfl
  · intro none keyword _
    rw [← Option.isNone_iff_eq_none, ← Option.not_isSome, isValueCommand_isSome, none]
    rfl

theorem valueCommand_double {w : List UInt8}
    (starts : startsWith w Keyword.double.expected = true) :
    ∃ vflags, valueCommand w = some (.double, vflags) := by
  rw [← isValueCommand_isSome, Option.isSome_iff_exists] at starts
  obtain ⟨vflags, is⟩ := starts
  exact ⟨vflags, by simp [valueCommand, Keyword.chain, is]⟩

theorem dispatch_keyword {w : List UInt8} {keyword : Keyword}
    (starts : startsWith w keyword.expected = true) :
    ∃ k vflags, valueCommand w = some (k, vflags) ∧ dispatch w = .value k vflags := by
  obtain ⟨⟨k, vflags⟩, found⟩ : ∃ found, valueCommand w = some found := by
    rw [← Option.ne_none_iff_exists']
    intro none
    rw [valueCommand_none.mp none keyword] at starts
    cases starts
  refine ⟨k, vflags, found, ?_⟩
  simp [dispatch, ownExact_keyword starts, tempentry_keyword starts, found]

theorem dispatch_value {w : List UInt8} {keyword : Keyword} {vflags : BitVec 32}
    (runs : dispatch w = .value keyword vflags) :
    valueCommand w = some (keyword, vflags) := by
  unfold dispatch at runs
  split at runs
  · cases runs
  · split at runs
    · cases runs
    · split at runs
      · cases runs
        assumption
      · split at runs
        · cases runs
        · split at runs
          · cases runs
          · split at runs <;> cases runs

theorem not_form {w : List UInt8} {keyword : Keyword}
    (spelled : keyword.expected ++ [95, 97] <+: w.map toLower) : ¬ Form keyword w := by
  obtain ⟨tail, eq⟩ := spelled
  have after : (w.drop keyword.expected.length).map toLower = 95 :: 97 :: tail := by
    rw [List.map_drop, ← eq, List.append_assoc, List.drop_left]
    rfl
  rintro ⟨-, ends | ⟨letters, rest, only⟩⟩
  · rw [ends] at after
    cases after
  · rw [rest] at after
    cases letters with
    | nil => cases after
    | cons c letters =>
      have first : toLower c = 97 := (List.cons.inj (List.cons.inj after).2).1
      rcases only c (List.mem_cons_self ..) with rfl | rfl | rfl <;> cases first

theorem not_form_double {w : List UInt8}
    (longer : startsWith w Keyword.double_array.expected = true) : ¬ Form .double w :=
  not_form (List.IsPrefix.trans (by decide) (startsWith_iff.mp longer))

theorem forwarded_lower : ∀ word ∈ forwardedWords, word.map toLower = word := by
  decide

theorem forwarded_other : ∀ word ∈ forwardedWords, ∀ keyword ∈ Keyword.chain,
    keyword.expected <+: word → keyword.expected ++ [95, 97] <+: word := by
  decide

theorem forwarded_not_own : ∀ word ∈ forwardedWords,
    (∀ entry ∈ OwnWord.exact, (bytes entry.1).map toLower ≠ word) ∧
      (bytes "tempentry").map toLower ≠ word ∧ (bytes "register_randevous").map toLower ≠ word ∧
      (bytes "wait_randevous").map toLower ≠ word := by
  decide

theorem forwarded_form {w word : List UInt8} {keyword : Keyword} (listed : word ∈ forwardedWords)
    (same : strcasecmp w word = true) (starts : startsWith w keyword.expected = true) :
    ¬ Form keyword w := by
  rw [strcasecmp_iff, forwarded_lower word listed] at same
  rw [startsWith_iff, same] at starts
  apply not_form
  rw [same]
  exact forwarded_other word listed keyword keyword.mem_chain starts

theorem dispatch_forwarded {w word : List UInt8} (listed : word ∈ forwardedWords)
    (same : strcasecmp w word = true)
    (none : ∀ keyword : Keyword, startsWith w keyword.expected = false) :
    dispatch w = .forwarded := by
  have lower : w.map toLower = word := by
    rw [← forwarded_lower word listed]
    exact strcasecmp_iff.mp same
  obtain ⟨notOwn, notTemp, notRegister, notWait⟩ := forwarded_not_own word listed
  have own : ownExact w = Option.none := by
    rw [← Option.not_isSome_iff_eq_none, ownExact_iff]
    rintro ⟨entry, mem, rfl⟩
    exact notOwn entry mem lower
  have temp : ¬ strcasecmp w (bytes "tempentry") = true :=
    fun eq => notTemp ((strcasecmp_iff.mp eq).symm.trans lower)
  have register : ¬ strcasecmp w (bytes "register_randevous") = true :=
    fun eq => notRegister ((strcasecmp_iff.mp eq).symm.trans lower)
  have wait : ¬ strcasecmp w (bytes "wait_randevous") = true :=
    fun eq => notWait ((strcasecmp_iff.mp eq).symm.trans lower)
  have any : forwardedWords.any (strcasecmp w) = true := List.any_eq_true.mpr ⟨word, listed, same⟩
  simp only [dispatch, own, if_neg temp, valueCommand_none.mpr none, if_neg register, if_neg wait,
    if_pos any]

theorem forwarded_any {w : List UInt8} (runs : dispatch w = .forwarded) :
    ∃ word ∈ forwardedWords, strcasecmp w word = true := by
  unfold dispatch at runs
  split at runs
  · cases runs
  · split at runs
    · cases runs
    · split at runs
      · cases runs
      · split at runs
        · cases runs
        · split at runs
          · cases runs
          · split at runs
            next listed => exact List.any_eq_true.mp listed
            next => cases runs

theorem own_named {w : List UInt8} {word : OwnWord} (runs : dispatch w = .own word) :
    Named w := by
  unfold dispatch at runs
  split at runs
  next own => exact .inl (ownExact_iff.mp (Option.isSome_iff_exists.mpr ⟨_, own⟩))
  · split at runs
    next same => exact .inr (.inl same)
    · split at runs
      · cases runs
      · split at runs
        next same => exact .inr (.inr (.inl same))
        · split at runs
          next same => exact .inr (.inr (.inr same))
          · split at runs <;> cases runs

theorem Plain.dispatched {w : List UInt8} (plain : Plain w) : Dispatched w where
  value keyword vflags runs := plain.1 keyword (valueCommand_starts (dispatch_value runs))
  forwarded := by
    constructor
    · intro runs
      obtain ⟨word, listed, same⟩ := forwarded_any runs
      rw [plain.2 word listed same]
      exact listed
    · intro listed
      apply dispatch_forwarded listed (strcasecmp_refl w)
      intro keyword
      rw [← Bool.not_eq_true]
      intro starts
      exact forwarded_form listed (strcasecmp_refl w) starts (plain.1 keyword starts)
  unknown notNamed noForm notListed := by
    cases runs : dispatch w with
    | own word => exact absurd (own_named runs) notNamed
    | value keyword vflags =>
      exact absurd (plain.1 keyword (valueCommand_starts (dispatch_value runs))) (noForm keyword)
    | forwarded =>
      obtain ⟨word, listed, same⟩ := forwarded_any runs
      rw [plain.2 word listed same] at notListed
      exact absurd listed notListed
    | unknown => rfl

theorem Dispatched.keyword {w : List UInt8} (right : Dispatched w) (keyword : Keyword)
    (starts : startsWith w keyword.expected = true) : Form keyword w := by
  obtain ⟨k, vflags, found, runs⟩ := dispatch_keyword starts
  have form := right.value k vflags runs
  rcases startsWith_both form.1 starts with rfl | ⟨rfl, rfl⟩ | ⟨rfl, rfl⟩
  · exact form
  · exact absurd form (not_form_double starts)
  · obtain ⟨other, first⟩ := valueCommand_double starts
    rw [first] at found
    cases found

theorem Dispatched.plain {w : List UInt8} (right : Dispatched w) : Plain w := by
  refine ⟨right.keyword, ?_⟩
  intro word listed same
  have none : ∀ keyword : Keyword, startsWith w keyword.expected = false := by
    intro keyword
    rw [← Bool.not_eq_true]
    intro starts
    exact forwarded_form listed same starts (right.keyword keyword starts)
  have other := right.forwarded.mp (dispatch_forwarded listed same none)
  rw [strcasecmp_iff, forwarded_lower w other, forwarded_lower word listed] at same
  exact same

theorem expected_dispatch : ∀ keyword ∈ Keyword.chain,
    dispatch keyword.expected =
      if keyword = .double_array then .value .double 0 else .value keyword 0 := by
  decide

theorem not_double_array (w : List UInt8) (vflags : BitVec 32) :
    dispatch w ≠ .value .double_array vflags := by
  intro runs
  have found := dispatch_value runs
  have shorter : startsWith w Keyword.double.expected = true := by
    have longer := startsWith_iff.mp (valueCommand_starts found)
    rw [startsWith_iff]
    exact List.IsPrefix.trans (by decide) longer
  obtain ⟨other, first⟩ := valueCommand_double shorter
  rw [first] at found
  cases found

theorem keyword_reached (keyword : Keyword) :
    (∃ w vflags, dispatch w = .value keyword vflags) ↔ keyword ≠ .double_array := by
  constructor
  · rintro ⟨w, vflags, runs⟩ rfl
    exact not_double_array w vflags runs
  · intro other
    exact ⟨keyword.expected, 0, by
      rw [expected_dispatch keyword keyword.mem_chain, if_neg other]⟩

theorem forwarded_reached : ∀ word ∈ forwardedWords, dispatch word = .forwarded ↔
    word ≠ bytes "double_array_add" ∧ word ≠ bytes "stat_add" := by
  decide

/-- A word is dispatched as it should be exactly when it is plain; double_array, double_array_add
and stat_add are never reached. -/
theorem dispatched_iff (w : List UInt8) :
    (Dispatched w ↔ Plain w) ∧
    (∀ keyword, (∃ w vflags, dispatch w = .value keyword vflags) ↔ keyword ≠ .double_array) ∧
    ∀ word ∈ forwardedWords, dispatch word = .forwarded ↔
      word ≠ bytes "double_array_add" ∧ word ≠ bytes "stat_add" :=
  ⟨⟨Dispatched.plain, Plain.dispatched⟩, keyword_reached, forwarded_reached⟩

theorem double_array_runs_double :
    dispatch (bytes "double_array") = .value .double 0 ∧ ¬ Dispatched (bytes "double_array") := by
  have runs : dispatch (bytes "double_array") = .value .double 0 := by decide
  refine ⟨runs, fun right => not_form_double ?_ (right.value _ _ runs)⟩
  decide

end Rts2.External
