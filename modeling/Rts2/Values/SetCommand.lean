import Rts2.Lib.Run
import Rts2.Values.ValueClasses

/-! Daemon::setValue of a command with `=` in a state that does not queue it, with a hook that accepts it: when the
value has the content requested, and when it lies between its limits. -/
namespace Rts2.Values.SetCommand

open Classes Lib
open Scripts.Parsing (Text)

universe u

variable {K : Type} [LinearOrder K]

inductive Base where
  | integer
  | long
  | float
  | double

inductive Kind (K : Type) where
  | integer
  | long
  | bool
  | selection (names : List Text)
  | string
  | double (d : Display K)
  | float
  | raDec (d : Display K)
  | altAz
  | pid
  | doubleMinMax (d : Display K)
  | integerMinMax
  | stat (d : Display K) (count : ℕ)
  | rectangle (base : Base)
  | doubleArray
  | integerArray
  | boolArray
  | stringArray

abbrev Base.Content (K : Type) : Base → Type
  | integer | long => ℤ
  | float | double => Option K

def Display.none : Display K := ⟨id, fun _ => rfl⟩

def Base.cls (n : Numbers K) : (base : Base) → ValueClass (base.Content K)
  | integer => ValueInteger
  | long => ValueLong
  | float => ValueFloat n
  | double => ValueDouble n Display.none

namespace Kind

abbrev Content : Kind K → Type
  | integer | long | bool | selection _ => ℤ
  | string => Text
  | double _ | float => Option K
  | raDec _ | altAz => Option K × Option K
  | pid => PID
  | doubleMinMax _ => DoubleMinMax K
  | integerMinMax => IntegerMinMax
  | stat _ _ => Stat K
  | rectangle base => Rectangle (base.Content K)
  | doubleArray => List (Option K)
  | integerArray => List ℤ
  | boolArray => List Bool
  | stringArray => List Text

def cls (n : Numbers K) : (k : Kind K) → ValueClass k.Content
  | integer => ValueInteger
  | long => ValueLong
  | bool => ValueBool
  | selection names => ValueSelection names
  | string => ValueString
  | double d => ValueDouble n d
  | float => ValueFloat n
  | raDec d => ValueRaDec n d
  | altAz => ValueAltAz n
  | pid => ValuePID n
  | doubleMinMax d => ValueDoubleMinMax n d
  | integerMinMax => ValueIntegerMinMax
  | stat d count => Classes.ValueDoubleStat n d count
  | rectangle base => ValueRectangle n (base.cls n)
  | doubleArray => Classes.DoubleArray n
  | integerArray => Classes.IntegerArray
  | boolArray => Classes.BoolArray
  | stringArray => Classes.StringArray

def Displayed : (k : Kind K) → k.Content → Prop
  | double d, v => v.map d.norm = v
  | raDec d, v => (v.1.map d.norm, v.2.map d.norm) = v
  | doubleMinMax d, v => v.value.map d.norm = v.value
  | stat d _, v => v.value.map d.norm = v.value
  | _, _ => True

abbrev Held (k : Kind K) : Type := {v : k.Content // k.Displayed v}

/-- The content is the one that was read from the command; angles are kept as they are displayed, and measurements are not
in a command. -/
def Agrees : (k : Kind K) → (new requested : k.Content) → Prop
  | double d, new, requested => new = requested.map d.norm
  | raDec d, new, requested => new = (requested.1.map d.norm, requested.2.map d.norm)
  | doubleMinMax d, new, requested => new = ⟨requested.value.map d.norm, requested.min, requested.max⟩
  | stat d _, new, requested => new.value = requested.value.map d.norm ∧ new.numMes = requested.numMes ∧
      new.numbers = requested.numbers
  | _, new, requested => new = requested

def Faithful : (k : Kind K) → (old requested : k.Content) → Prop
  | pid, old, requested => old.get = requested.get → old = requested
  | doubleMinMax _, old, requested => same old.value requested.value = true → old.min = requested.min ∧ old.max = requested.max
  | integerMinMax, old, requested => old.value = requested.value → old.min = requested.min ∧ old.max = requested.max
  | stat _ _, old, requested => same old.value requested.value = true →
      old.numMes = requested.numMes ∧ old.numbers = requested.numbers
  | stringArray, old, requested =>
    if Values.StringArray.isEqual old requested then old = requested else ∀ w ∈ requested, Whole w
  | _, _, _ => True

end Kind

/-- Daemon::setCondValue and doSetValue: the content left, none where the operation fails. -/
def outcome {V : Type} (c : ValueClass V) (old newValue : V) : Option V :=
  if c.isEqual old newValue then some old
  else
    match c.doOpValue newValue with
    | none => none
    | some newValue => some (if c.isEqual old newValue then old else c.setFromValue old newValue)

def read {V : Type} (c : ValueClass V) (old : V) (ai : Option Text) (rest : Text) : Parsed V :=
  match ai with
  | some ai => c.setIndexed old ai rest
  | none =>
    match c.setValue old rest with
    | some newValue => .value newValue
    | none => .error

theorem same_iff {a b : Option K} : same a b = true ↔ a = b ∧ a.isSome = true := by
  simp [same, and_comm]

theorem setValueDouble_displayed (d : Display K) {value : Option K} (displayed : value.map d.norm = value)
    (in_value : Option K) : (Classes.setValueDouble d value in_value).map d.norm = Classes.setValueDouble d value in_value := by
  unfold Classes.setValueDouble
  split
  · exact displayed
  · rw [Option.map_map]
    congr 1
    exact funext d.norm_norm

theorem setValueDouble_eq (d : Display K) {value : Option K} (displayed : value.map d.norm = value)
    (in_value : Option K) : Classes.setValueDouble d value in_value = in_value.map d.norm := by
  unfold Classes.setValueDouble
  split
  · rename_i equal
    rw [← (same_iff.mp equal).1, displayed]
  · rfl

theorem outcome_always {V : Type} {c : ValueClass V} (accepts : ∀ v, c.doOpValue v = some v) (old newValue : V) :
    outcome c old newValue = some (if c.isEqual old newValue then old else c.setFromValue old newValue) := by
  unfold outcome
  split
  · rfl
  · rename_i other
    simp only [accepts, if_neg other]

theorem outcome_other {V : Type} {c : ValueClass V} {old newValue left : V} (other : ¬ c.isEqual old newValue = true)
    (set : outcome c old newValue = some left) :
    ∃ made, c.doOpValue newValue = some made ∧ left = if c.isEqual old made then old else c.setFromValue old made := by
  rw [outcome, if_neg other] at set
  split at set
  · cases set
  · rename_i made accepted
    exact ⟨made, accepted, (Option.some.inj set).symm⟩

def Exact {V : Type} (c : ValueClass V) : Prop := ∀ old newValue, c.isEqual old newValue = true → old = newValue

theorem exact_set {V : Type} {c : ValueClass V} (accepts : ∀ v, c.doOpValue v = some v) (exact_ : Exact c)
    {old newValue : V} (copied : c.setFromValue old newValue = newValue) : outcome c old newValue = some newValue := by
  rw [outcome_always accepts]
  split
  · rename_i equal
    rw [exact_ old newValue equal]
  · rw [copied]

theorem exact_plain {V : Type} [DecidableEq V] (setValue : V → Text → Option V) (setValueCharArr : V → Text → Option V) :
    Exact (plain setValue setValueCharArr) := fun _ _ equal => of_decide_eq_true equal

theorem exact_same : ∀ old newValue : Option K, same old newValue = true → old = newValue :=
  fun _ _ equal => (same_iff.mp equal).1

theorem exact_pair : ∀ old newValue : Option K × Option K, samePair old newValue = true → old = newValue := by
  intro old newValue equal
  simp only [samePair, Bool.and_eq_true] at equal
  exact Prod.ext (exact_same _ _ equal.1) (exact_same _ _ equal.2)

theorem exact_list {α : Type} {same : α → α → Bool} (exact_ : ∀ a b, same a b = true → a = b) {old newValue : List α}
    (equal : (old.length = newValue.length && (old.zip newValue).all fun p => same p.1 p.2) = true) : old = newValue := by
  simp only [Bool.and_eq_true, decide_eq_true_eq] at equal
  obtain ⟨length, each⟩ := equal
  apply List.ext_getElem length
  intro i h h'
  have inside : i < (old.zip newValue).length := by
    rw [List.length_zip]
    omega
  have pair := List.all_eq_true.mp each _ (List.getElem_mem inside)
  rw [List.getElem_zip] at pair
  exact exact_ _ _ pair

theorem base_exact (n : Numbers K) (base : Base) :
    (∀ v, (base.cls n).doOpValue v = some v) ∧ Exact (base.cls n) ∧
      ∀ old newValue, (base.cls n).setFromValue old newValue = newValue := by
  cases base with
  | integer => exact ⟨fun _ => rfl, exact_plain _ _, fun _ _ => rfl⟩
  | long => exact ⟨fun _ => rfl, exact_plain _ _, fun _ _ => rfl⟩
  | float =>
    refine ⟨fun _ => rfl, exact_same, fun old newValue => ?_⟩
    change (if same old newValue then old else newValue) = newValue
    split
    · rename_i equal
      exact exact_same _ _ equal
    · rfl
  | double =>
    refine ⟨fun _ => rfl, exact_same, fun old newValue => ?_⟩
    change Classes.setValueDouble Display.none old newValue = newValue
    rw [setValueDouble_eq Display.none (by simp [Display.none])]
    simp [Display.none]

theorem limits_made {n : Numbers K} {d : Display K} {newValue made : DoubleMinMax K}
    (accepted : (ValueDoubleMinMax n d).doOpValue newValue = some made) : made = newValue := by
  change (if DoubleMinMax.outside newValue.value newValue.min newValue.max then none else some newValue) = some made at accepted
  split at accepted
  · cases accepted
  · exact (Option.some.inj accepted).symm

theorem integer_limits_made {newValue made : IntegerMinMax} (accepted : ValueIntegerMinMax.doOpValue newValue = some made) :
    made = newValue := by
  change (if IntegerMinMax.outside newValue.value newValue.min newValue.max then none else some newValue) = some made at accepted
  split at accepted
  · cases accepted
  · exact (Option.some.inj accepted).symm

def Parsable : (k : Kind K) → k.Content → Prop
  | .pid, newValue => newValue = PID.of newValue.get.1 newValue.get.2.1 newValue.get.2.2
  | _, _ => True

theorem agrees_exact {V : Type} {o : Option V} {newValue : V} {P : Prop} (trivial_ : P) (h : o = some newValue) :
    (∀ left, o = some left → left = newValue) ↔ P := by
  constructor
  · exact fun _ => trivial_
  · intro _ left eq
    exact (Option.some.inj (h.symm.trans eq)).symm

theorem set_agrees (n : Numbers K) (k : Kind K) (old : k.Held) {newValue : k.Content} (parsable : Parsable k newValue) :
    (∀ left, outcome (k.cls n) old.1 newValue = some left → k.Agrees left newValue) ↔ k.Faithful old.1 newValue := by
  obtain ⟨old, displayed⟩ := old
  cases k with
  | integer => exact agrees_exact trivial (exact_set (fun _ => rfl) (exact_plain _ _) rfl)
  | long => exact agrees_exact trivial (exact_set (fun _ => rfl) (exact_plain _ _) rfl)
  | bool => exact agrees_exact trivial (exact_set (fun _ => rfl) (exact_plain _ _) rfl)
  | selection names => exact agrees_exact trivial (exact_set (fun _ => rfl) (exact_plain _ _) rfl)
  | string => exact agrees_exact trivial (exact_set (fun _ => rfl) (exact_plain _ _) rfl)
  | double d =>
    have set : outcome (ValueDouble n d) old newValue = some (newValue.map d.norm) := by
      rw [outcome_always fun _ => rfl]
      change some (if same old newValue then old else Classes.setValueDouble d old newValue) = _
      split
      · rename_i equal
        rw [exact_same _ _ equal] at displayed ⊢
        exact congrArg some displayed.symm
      · rw [setValueDouble_eq d displayed]
    exact agrees_exact trivial set
  | float => exact agrees_exact trivial (exact_set (c := ValueFloat n) (fun _ => rfl) exact_same ((base_exact n .float).2.2 old newValue))
  | raDec d =>
    have set : outcome (ValueRaDec n d) old newValue = some (newValue.1.map d.norm, newValue.2.map d.norm) := by
      rw [outcome_always fun _ => rfl]
      change some (if samePair old newValue then old else (newValue.1.map d.norm, newValue.2.map d.norm)) = _
      split
      · rename_i equal
        rw [exact_pair _ _ equal] at displayed ⊢
        exact congrArg some displayed.symm
      · rfl
    exact agrees_exact trivial set
  | altAz => exact agrees_exact trivial (exact_set (c := ValueAltAz n) (fun _ => rfl) exact_pair rfl)
  | pid =>
    rw [outcome_always fun _ => rfl]
    change (∀ left, some (if decide (old.get = newValue.get) = true then old
      else old.setPID newValue.get.1 newValue.get.2.1 newValue.get.2.2) = some left → left = newValue) ↔
        (old.get = newValue.get → old = newValue)
    by_cases equal : old.get = newValue.get
    · simp [equal]
    · have set : old.setPID newValue.get.1 newValue.get.2.1 newValue.get.2.2 = newValue := by
        rw [PID.setPID, if_neg equal]
        exact parsable.symm
      simp [equal, set]
  | doubleMinMax d =>
    by_cases equal : same old.value newValue.value = true
    · have set : outcome (ValueDoubleMinMax n d) old newValue = some old := if_pos equal
      have shown : newValue.value.map d.norm = old.value := by
        rw [← exact_same _ _ equal]
        exact displayed
      constructor
      · intro agrees _
        have all : old = ⟨newValue.value.map d.norm, newValue.min, newValue.max⟩ := agrees old set
        have min := congrArg DoubleMinMax.min all
        have max := congrArg DoubleMinMax.max all
        exact ⟨min, max⟩
      · intro faithful left eq
        obtain rfl := Option.some.inj (set.symm.trans eq)
        exact DoubleMinMax.ext shown.symm (faithful equal).1 (faithful equal).2
    · refine ⟨fun _ h => (equal h).elim, fun _ left eq => ?_⟩
      obtain ⟨made, accepted, rfl⟩ := outcome_other equal eq
      rw [limits_made accepted]
      change (if same old.value newValue.value then old
        else (⟨Classes.setValueDouble d old.value newValue.value, newValue.min, newValue.max⟩ : DoubleMinMax K)) =
          ⟨newValue.value.map d.norm, newValue.min, newValue.max⟩
      rw [if_neg equal, setValueDouble_eq d displayed]
  | integerMinMax =>
    by_cases equal : old.value = newValue.value
    · have set : outcome ValueIntegerMinMax old newValue = some old := if_pos (decide_eq_true equal)
      constructor
      · intro agrees _
        have all : old = newValue := agrees old set
        exact ⟨congrArg IntegerMinMax.min all, congrArg IntegerMinMax.max all⟩
      · intro faithful left eq
        obtain rfl := Option.some.inj (set.symm.trans eq)
        exact IntegerMinMax.ext equal (faithful equal).1 (faithful equal).2
    · have other : ¬ ValueIntegerMinMax.isEqual old newValue = true := by
        intro h
        exact equal (of_decide_eq_true h)
      refine ⟨fun _ h => (equal h).elim, fun _ left eq => ?_⟩
      obtain ⟨made, accepted, rfl⟩ := outcome_other other eq
      rw [integer_limits_made accepted, if_neg other]
      rfl
  | stat d count =>
    rw [outcome_always fun _ => rfl]
    change (∀ left, some (if same old.value newValue.value then old
      else { newValue with value := Classes.setValueDouble d old.value newValue.value }) = some left →
        left.value = newValue.value.map d.norm ∧ left.numMes = newValue.numMes ∧ left.numbers = newValue.numbers) ↔
          (same old.value newValue.value = true → _)
    by_cases equal : same old.value newValue.value = true
    · have shown : newValue.value.map d.norm = old.value := by
        rw [← exact_same _ _ equal]
        exact displayed
      simp [equal, shown]
    · have set := setValueDouble_eq d displayed newValue.value
      simp [equal, set]
  | rectangle base =>
    obtain ⟨accepts, exact_, copied⟩ := base_exact n base
    have parts : Exact (ValueRectangle n (base.cls n)) := by
      intro old newValue equal
      change ((((base.cls n).isEqual old.x newValue.x && (base.cls n).isEqual old.y newValue.y) &&
        (base.cls n).isEqual old.w newValue.w) && (base.cls n).isEqual old.h newValue.h) = true at equal
      simp only [Bool.and_eq_true] at equal
      obtain ⟨⟨⟨x, y⟩, w⟩, h⟩ := equal
      cases old
      cases newValue
      congr
      · exact exact_ _ _ x
      · exact exact_ _ _ y
      · exact exact_ _ _ w
      · exact exact_ _ _ h
    have set : (ValueRectangle n (base.cls n)).setFromValue old newValue = newValue := by
      change Rectangle.mk _ _ _ _ = newValue
      rw [copied, copied, copied, copied]
    exact agrees_exact trivial (exact_set (c := ValueRectangle n (base.cls n)) (fun _ => rfl) parts set)
  | doubleArray => exact agrees_exact trivial (exact_set (fun _ => rfl) (fun _ _ => exact_list exact_same) rfl)
  | integerArray =>
    exact agrees_exact trivial (exact_set (fun _ => rfl) (fun _ _ => exact_list fun _ _ => of_decide_eq_true) rfl)
  | boolArray =>
    exact agrees_exact trivial (exact_set (fun _ => rfl) (fun _ _ => exact_list fun _ _ => of_decide_eq_true) rfl)
  | stringArray =>
    have copied : Values.StringArray.setFromValue old newValue = newValue ↔ ∀ w ∈ newValue, Whole w := by
      constructor
      · intro set
        refine (StringArray_law old newValue []).mp ⟨?_, set, fun refused => by cases refused⟩
        exact Prod.ext rfl set
      · exact StringArray_set
    rw [outcome_always fun _ => rfl]
    change (∀ left, some (if Values.StringArray.isEqual old newValue then old
      else Values.StringArray.setFromValue old newValue) = some left → left = newValue) ↔
        (if Values.StringArray.isEqual old newValue then old = newValue else ∀ w ∈ newValue, Whole w)
    split
    · simp
    · rw [← copied]
      simp

theorem get_of (p i d : ℤ) : (PID.of p i d).get = (p, i, d) := by
  have shown (z : ℤ) : PID.shown (z / PID.factor) = z := by
    have whole : (z : ℚ) / PID.factor * PID.factor = z := div_mul_cancel₀ _ (by norm_num [PID.factor])
    rw [PID.shown, whole]
    simp
  simp only [PID.get, PID.of, shown]

omit [LinearOrder K] in
theorem setPID_parsable (p i d : ℤ) :
    Parsable (K := K) .pid (PID.setPID (PID.of 0 0 0) p i d) := by
  have set : PID.setPID (PID.of 0 0 0) p i d = PID.of p i d := by
    unfold PID.setPID
    split
    · rename_i equal
      rw [get_of] at equal
      cases equal
      rfl
    · rfl
  change PID.setPID (PID.of 0 0 0) p i d = _
  rw [set, get_of]

theorem read_value {V : Type} {c : ValueClass V} {old newValue : V} {rest : Text}
    (parsed : read c old none rest = .value newValue) : c.setValue old rest = some newValue := by
  unfold read at parsed
  dsimp only at parsed
  split at parsed
  · cases parsed
    assumption
  · cases parsed

theorem read_parsable {n : Numbers K} (k : Kind K) {old newValue : k.Content} {ai : Option Text} {rest : Text}
    (parsed : read (k.cls n) old ai rest = .value newValue) : Parsable k newValue := by
  cases k with
  | pid =>
    cases ai with
    | some ai => cases parsed
    | none =>
      have set : (ValuePID n).setValue old rest = some newValue := read_value parsed
      simp only [ValuePID, Option.bind_eq_bind, Option.bind_eq_some_iff, Option.some.injEq] at set
      obtain ⟨_, -, _, -, _, -, rfl⟩ := set
      exact setPID_parsable _ _ _
  | _ => trivial

/-- What a daemon is made of: its values with their names, and which of them are writable and saved to a file. -/
structure Device (ι : Type u) (K : Type) where
  kind : ι → Kind K
  numbers : Numbers K
  getCondValue : Text → Option ι
  isWritable : ι → Bool
  isAutosave : ι → Bool
  autosaveFile : Bool

variable {ι : Type u}

/-- The contents, the changes that wait, and what the file of autosaved values was written from. -/
structure Daemon (dev : Device ι K) where
  contents : (i : ι) → (dev.kind i).Held
  queValues : List (Σ i, (dev.kind i).Content)
  saved : Option ((i : ι) → (dev.kind i).Held)

inductive Answer where
  | ok
  | error
  | undefined
deriving DecidableEq

namespace Device

variable (dev : Device ι K)

def find (v_name : Text) : Option (ι × Option Text) :=
  match v_name.findIdx? (· = '[') with
  | some ca =>
    if v_name.getLast? ≠ some ']' then none
    else (dev.getCondValue (v_name.take ca)).map fun i => (i, some (v_name.drop (ca + 1)).dropLast)
  | none =>
    match dev.getCondValue v_name with
    | some i => some (i, none)
    | none =>
      match v_name.reverse.findIdx? (· = '_') with
      | none => none
      | some behind => (dev.getCondValue (v_name.take (v_name.length - 1 - behind))).map fun i =>
          (i, some (v_name.drop (v_name.length - behind)))

end Device

theorem setFromValue_displayed (n : Numbers K) (k : Kind K) (old : k.Held) (newValue : k.Content) :
    k.Displayed ((k.cls n).setFromValue old.1 newValue) := by
  obtain ⟨old, displayed⟩ := old
  cases k with
  | double d => exact setValueDouble_displayed d displayed newValue
  | raDec d =>
    have twice (v : Option K) : (v.map d.norm).map d.norm = v.map d.norm := by
      rw [Option.map_map]
      congr 1
      exact funext d.norm_norm
    exact Prod.ext (twice newValue.1) (twice newValue.2)
  | doubleMinMax d => exact setValueDouble_displayed d displayed newValue.value
  | stat d count => exact setValueDouble_displayed d displayed newValue.value
  | _ => trivial

namespace Daemon

variable {dev : Device ι K} [DecidableEq ι]

def change (s : Daemon dev) (i : ι) (newValue : (dev.kind i).Content) : Daemon dev :=
  let contents := Function.update s.contents i
    ⟨((dev.kind i).cls dev.numbers).setFromValue (s.contents i).1 newValue, setFromValue_displayed _ _ _ _⟩
  { s with
    contents := contents
    saved := if dev.isAutosave i ∧ dev.autosaveFile then some contents else s.saved }

def setCondValue (s : Daemon dev) (i : ι) (newValue : (dev.kind i).Content) : Answer × Daemon dev :=
  let c := (dev.kind i).cls dev.numbers
  if c.isEqual (s.contents i).1 newValue then (.ok, s)
  else
    match c.doOpValue newValue with
    | none => (.error, s)
    | some newValue => (.ok, if c.isEqual (s.contents i).1 newValue then s else s.change i newValue)

/-- Daemon::setValue behind the name and the operator =. -/
def setValue (s : Daemon dev) (v_name rest : Text) : Answer × Daemon dev :=
  match dev.find v_name with
  | none => (.error, s)
  | some (i, ai) =>
    if dev.isWritable i = false then (.error, s)
    else
      match read ((dev.kind i).cls dev.numbers) (s.contents i).1 ai rest with
      | .error => (.error, s)
      | .undefined => (.undefined, s)
      | .value newValue => s.setCondValue i newValue

end Daemon

namespace Daemon

variable {dev : Device ι K} [DecidableEq ι]

structure Requests (s : Daemon dev) (v_name rest : Text) (i : ι) (ai : Option Text) (newValue : (dev.kind i).Content) : Prop where
  found : dev.find v_name = some (i, ai)
  writable : dev.isWritable i = true
  parsed : read ((dev.kind i).cls dev.numbers) (s.contents i).1 ai rest = .value newValue

def Right (s : Daemon dev) (v_name rest : Text) : Prop :=
  match s.setValue v_name rest with
  | (.ok, s') => ∃ i ai newValue, s.Requests v_name rest i ai newValue ∧
      (dev.kind i).Agrees (s'.contents i).1 newValue ∧ (∀ j ≠ i, s'.contents j = s.contents j) ∧ s'.queValues = s.queValues
  | (.error, s') => s' = s
  | (.undefined, _) => False

/-- An index of elements is within its array, and a content that is equal to the class is the one requested. -/
def Faithful (s : Daemon dev) (v_name rest : Text) : Prop :=
  ∀ i ai, dev.find v_name = some (i, ai) → dev.isWritable i = true →
    read ((dev.kind i).cls dev.numbers) (s.contents i).1 ai rest ≠ .undefined ∧
      ∀ newValue, read ((dev.kind i).cls dev.numbers) (s.contents i).1 ai rest = .value newValue →
        (dev.kind i).Faithful (s.contents i).1 newValue

theorem setCondValue_outcome (s : Daemon dev) (i : ι) (newValue : (dev.kind i).Content) :
    (outcome ((dev.kind i).cls dev.numbers) (s.contents i).1 newValue = none ∧ s.setCondValue i newValue = (.error, s)) ∨
      ∃ left s', outcome ((dev.kind i).cls dev.numbers) (s.contents i).1 newValue = some left ∧
        s.setCondValue i newValue = (.ok, s') ∧ (s'.contents i).1 = left ∧ (∀ j ≠ i, s'.contents j = s.contents j) ∧
          s'.queValues = s.queValues := by
  unfold outcome setCondValue
  dsimp only
  split
  · exact .inr ⟨(s.contents i).1, s, rfl, rfl, rfl, fun _ _ => rfl, rfl⟩
  · cases accepted : ((dev.kind i).cls dev.numbers).doOpValue newValue with
    | none => exact .inl ⟨rfl, rfl⟩
    | some made =>
      refine .inr ⟨_, _, rfl, rfl, ?_, ?_, ?_⟩
      · split
        · rfl
        · simp [change]
      · intro j other
        split
        · rfl
        · simp [change, Function.update_of_ne other]
      · split
        · rfl
        · rfl

theorem right_iff (s : Daemon dev) (v_name rest : Text) : s.Right v_name rest ↔ s.Faithful v_name rest := by
  unfold Right Faithful setValue
  cases found : dev.find v_name with
  | none => simp
  | some target =>
    obtain ⟨i, ai⟩ := target
    by_cases writable : dev.isWritable i = false
    · simp [writable]
    · have writable' : dev.isWritable i = true := by simpa using writable
      dsimp only
      rw [if_neg writable]
      cases parsed : read ((dev.kind i).cls dev.numbers) (s.contents i).1 ai rest with
      | error => simp [parsed]
      | undefined => simp [parsed, writable']
      | value newValue =>
        have agrees := set_agrees dev.numbers (dev.kind i) (s.contents i) (read_parsable _ parsed)
        have requests : s.Requests v_name rest i ai newValue := ⟨found, writable', parsed⟩
        have faithful : (∀ i_1 ai_1, some (i, ai) = some (i_1, ai_1) → dev.isWritable i_1 = true →
            read ((dev.kind i_1).cls dev.numbers) (s.contents i_1).1 ai_1 rest ≠ .undefined ∧
              ∀ newValue, read ((dev.kind i_1).cls dev.numbers) (s.contents i_1).1 ai_1 rest = .value newValue →
                (dev.kind i_1).Faithful (s.contents i_1).1 newValue) ↔
            (dev.kind i).Faithful (s.contents i).1 newValue := by
          constructor
          · exact fun all => (all i ai rfl writable').2 newValue parsed
          · intro one j aj eq _
            cases eq
            rw [parsed]
            refine ⟨by simp, fun other eq => ?_⟩
            cases eq
            exact one
        rw [faithful, ← agrees]
        obtain ⟨none_, set⟩ | ⟨left, s', some_, set, content, others, queue⟩ := s.setCondValue_outcome i newValue
        · simp [set, none_]
        · simp only [set, some_]
          constructor
          · rintro ⟨j, aj, other, requested, agreed, -⟩ left' eq
            obtain ⟨rfl, rfl⟩ := Prod.mk.inj (Option.some.inj (found.symm.trans requested.found))
            have same := requested.parsed.symm.trans parsed
            cases same
            rw [← Option.some.inj eq, ← content]
            exact agreed
          · intro all
            exact ⟨i, ai, newValue, requests, content ▸ all left rfl, others, queue⟩

end Daemon

def limitsGiven (n : Numbers K) (rest : Text) : Kind K → Bool
  | .doubleMinMax _ => (n.paramNextDouble (unquoteRest rest)).any fun p => !paramEnd p.2
  | .integerMinMax => (paramNextInteger (unquoteRest rest)).any fun p => !paramEnd p.2
  | _ => false

def Kind.Between : (k : Kind K) → k.Content → Prop
  | .doubleMinMax _, content => ∃ v lo hi, content = ⟨some v, some lo, some hi⟩ ∧ lo ≤ v ∧ v ≤ hi
  | .integerMinMax, content => content.min ≤ content.value ∧ content.value ≤ content.max
  | _, _ => True

def Kind.Sound (n : Numbers K) (rest : Text) : (k : Kind K) → k.Content → Prop
  | .doubleMinMax d, newValue => newValue.value.isSome = true ∧
      (limitsGiven n rest (.doubleMinMax d) = true → newValue.min.isSome = true ∧ newValue.max.isSome = true) ∧
      DoubleMinMax.outside newValue.value newValue.min newValue.max = false
  | _, _ => True

theorem between_double {d : Display K} {content : DoubleMinMax K} (value : content.value.isSome = true)
    (min : content.min.isSome = true) (max : content.max.isSome = true)
    (inside : DoubleMinMax.outside content.value content.min content.max = false) :
    (Kind.doubleMinMax d).Between content := by
  obtain ⟨value_, min_, max_⟩ := content
  obtain ⟨v, rfl⟩ := Option.isSome_iff_exists.mp value
  obtain ⟨lo, rfl⟩ := Option.isSome_iff_exists.mp min
  obtain ⟨hi, rfl⟩ := Option.isSome_iff_exists.mp max
  simp only [DoubleMinMax.outside, less, Option.any_some, Bool.or_eq_false_iff, decide_eq_false_iff_not, not_lt] at inside
  exact ⟨v, lo, hi, rfl, inside.1, inside.2⟩

theorem read_double {n : Numbers K} {d : Display K} {old newValue : DoubleMinMax K} {ai : Option Text} {rest : Text}
    (parsed : read (ValueDoubleMinMax n d) old ai rest = .value newValue) :
    newValue.value.map d.norm = newValue.value ∧
      (limitsGiven n rest (.doubleMinMax d) = false → newValue.min = old.min ∧ newValue.max = old.max) := by
  have twice (v : Option K) : (v.map d.norm).map d.norm = v.map d.norm := by
    rw [Option.map_map]
    congr 1
    exact funext d.norm_norm
  cases ai with
  | some ai => cases parsed
  | none =>
    have set := read_value parsed
    simp only [ValueDoubleMinMax, Option.bind_eq_bind, Option.bind_eq_some_iff] at set
    obtain ⟨⟨v, t⟩, first, set⟩ := set
    dsimp only at set
    split at set
    · split at set
      · cases set
      · cases set
        exact ⟨twice v, fun _ => ⟨rfl, rfl⟩⟩
    · rename_i more
      simp only [Option.bind_eq_some_iff] at set
      obtain ⟨⟨lo, t'⟩, -, ⟨hi, -, set⟩⟩ := set
      split at set
      · cases set
      · cases set
        refine ⟨twice v, fun given => ?_⟩
        simp [limitsGiven, first, more] at given

theorem read_integer {old newValue : IntegerMinMax} {ai : Option Text} {rest : Text}
    (parsed : read ValueIntegerMinMax old ai rest = .value newValue) :
    newValue.min ≤ newValue.value ∧ newValue.value ≤ newValue.max := by
  have inside {v lo hi : ℤ} (h : ¬ IntegerMinMax.outside v lo hi = true) : lo ≤ v ∧ v ≤ hi := by
    simp only [IntegerMinMax.outside, Bool.or_eq_true, decide_eq_true_eq, not_or, not_lt] at h
    exact h
  cases ai with
  | some ai => cases parsed
  | none =>
    have set := read_value parsed
    simp only [ValueIntegerMinMax, Option.bind_eq_bind, Option.bind_eq_some_iff] at set
    obtain ⟨⟨v, t⟩, first, set⟩ := set
    dsimp only at set
    split at set
    · split at set
      · cases set
      · rename_i within
        cases set
        exact inside within
    · simp only [Option.bind_eq_some_iff] at set
      obtain ⟨⟨lo, t'⟩, -, ⟨hi, -, set⟩⟩ := set
      split at set
      · cases set
      · rename_i within
        cases set
        exact inside within

structure Command where
  v_name : Text
  rest : Text

structure Limited (dev : Device ι K) where
  daemon : Daemon dev
  limited : ι → Prop

namespace Limited

variable {dev : Device ι K} [DecidableEq ι]

def step (s : Limited dev) (c : Command) : Limited dev where
  daemon := (s.daemon.setValue c.v_name c.rest).2
  limited i := s.limited i ∨ (s.daemon.setValue c.v_name c.rest).1 = .ok ∧
    (dev.find c.v_name).map Prod.fst = some i ∧ limitsGiven dev.numbers c.rest (dev.kind i) = true

def start (s : Daemon dev) : Limited dev := ⟨s, fun _ => False⟩

def Meets (s : Limited dev) (c : Command) : Prop :=
  s.daemon.Faithful c.v_name c.rest ∧ ∀ i ai newValue, s.daemon.Requests c.v_name c.rest i ai newValue →
    (dev.kind i).Sound dev.numbers c.rest newValue

def Kept (s : Limited dev) : Prop := ∀ i, s.limited i → (dev.kind i).Between (s.daemon.contents i).1

theorem between_request {k : Kind K} {n : Numbers K} {old newValue left : k.Content} {ai : Option Text} {rest : Text}
    (parsed : read (k.cls n) old ai rest = .value newValue) (agrees : k.Agrees left newValue)
    (sound : k.Sound n rest newValue) (kept : limitsGiven n rest k = true ∨ k.Between old) : k.Between left := by
  cases k with
  | doubleMinMax d =>
    obtain ⟨shown, limits⟩ := read_double parsed
    obtain ⟨value, given, inside⟩ := sound
    have content : left = newValue := agrees.trans (DoubleMinMax.ext shown rfl rfl)
    subst content
    by_cases some_limits : limitsGiven n rest (.doubleMinMax d) = true
    · exact between_double value (given some_limits).1 (given some_limits).2 inside
    · obtain ⟨v, lo, hi, rfl, -, -⟩ := kept.resolve_left some_limits
      obtain ⟨min, max⟩ := limits (by simpa using some_limits)
      exact between_double value (by rw [min]; rfl) (by rw [max]; rfl) inside
  | integerMinMax =>
    have content : left = newValue := agrees
    subst content
    exact read_integer parsed
  | _ => trivial

theorem step_kept {s : Limited dev} {c : Command} (kept : s.Kept) (meets : s.Meets c) : (s.step c).Kept := by
  obtain ⟨faithful, sound⟩ := meets
  have right := (s.daemon.right_iff c.v_name c.rest).mpr faithful
  intro i limited
  unfold Daemon.Right at right
  change (dev.kind i).Between ((s.daemon.setValue c.v_name c.rest).2.contents i).1
  change s.limited i ∨ (s.daemon.setValue c.v_name c.rest).1 = .ok ∧ _ at limited
  generalize s.daemon.setValue c.v_name c.rest = answered at right limited
  obtain ⟨answer, s'⟩ := answered
  cases answer with
  | ok =>
    obtain ⟨j, ai, newValue, requests, agrees, others, -⟩ := right
    by_cases here : i = j
    · subst here
      refine between_request requests.parsed agrees (sound i ai newValue requests) ?_
      rcases limited with before | ⟨-, -, given⟩
      · exact .inr (kept i before)
      · exact .inl given
    · change (dev.kind i).Between (s'.contents i).1
      rw [others i here]
      rcases limited with before | ⟨-, named, -⟩
      · exact kept i before
      · rw [requests.found] at named
        exact (here (Option.some.inj named).symm).elim
  | error =>
    obtain rfl : s' = s.daemon := right
    rcases limited with before | ⟨impossible, -⟩
    · exact kept i before
    · cases impossible
  | undefined => exact right.elim

end Limited

def limitedDevice : Device Unit ℚ where
  kind _ := .integerMinMax
  numbers := ⟨fun _ => none, fun _ => none, fun _ => none, fun _ => none, fun _ => none, fun _ => none, fun _ => []⟩
  getCondValue v_name := if v_name = "X".toList then some () else none
  isWritable _ := true
  isAutosave _ := false
  autosaveFile := false

end Rts2.Values.SetCommand
