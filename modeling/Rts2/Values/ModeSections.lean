import Rts2.Kernel.Status
import Rts2.Values.IniParser
import Rts2.Values.SetCommand

/-! Modes of a device: the sections of a mode file are written to the values entry by entry, through the queue of changes
and past it, and MODE is set by the caller. -/
namespace Rts2.Values.Modes

open Classes Lib
open Kernel (Status)
open Ini (IniValue IniSection)
open SetCommand (Kind set_agrees limits_made integer_limits_made outcome get_of setFromValue_displayed)
open Scripts.Parsing (Text atoi)

universe u

variable {K : Type} [LinearOrder K]

inductive Limit where
  | min
  | max
deriving DecidableEq

def suffixLimit (suffix : Text) : Option Limit :=
  if suffix.map Char.toLower = "min".toList then some .min
  else if suffix.map Char.toLower = "max".toList then some .max
  else none

def setLimit (c : DoubleMinMax K) (limit : Limit) (in_limit : Option K) : DoubleMinMax K :=
  match limit with
  | .min => { c with min := in_limit }
  | .max => { c with max := in_limit }

omit [LinearOrder K] in
@[simp] theorem setLimit_value (c : DoubleMinMax K) (limit : Limit) (in_limit : Option K) :
    (setLimit c limit in_limit).value = c.value := by
  cases limit <;> rfl

inductive Suffixed (k : Kind K) where
  | error
  | undefined
  | set (content : k.Held)

/-- A limit goes to a double with limits. An integer with limits is cast to one, and written past its end. -/
def castLimit (n : Numbers K) : (k : Kind K) → k.Held → Limit → Text → Suffixed k
  | .doubleMinMax d, old, limit, value => .set ⟨setLimit old.1 limit (n.atof value), by
      change (setLimit old.1 limit (n.atof value)).value.map d.norm = (setLimit old.1 limit (n.atof value)).value
      rw [setLimit_value]
      exact old.2⟩
  | .integerMinMax, _, _, _ => .undefined
  | _, _, _, _ => .error

def setSuffix (n : Numbers K) (k : Kind K) (old : k.Held) (suffix value : Text) : Suffixed k :=
  match suffixLimit suffix with
  | none => .error
  | some limit => castLimit n k old limit value

variable {ι : Type u}

structure Settings (kind : ι → Kind K) where
  contents : (i : ι) → (kind i).Held
  queValues : List (Σ i, (kind i).Content)
  state : Status

/-- What the method setValue of a device leaves: its return value, the new content, and the values. -/
structure Hook (kind : ι → Kind K) (i : ι) where
  ret : ℤ
  new_value : (kind i).Content
  values : Settings kind

inductive Own (ι : Type u) where
  | modesel
  | value (i : ι)

/-- `stack` is the number of nested changes of MODE that there is room for. -/
structure Device (ι : Type u) (K : Type) where
  kind : ι → Kind K
  numbers : Numbers K
  getOwnValue : Text → Option (Own ι)
  stateCondition : ι → Status
  setValue : (i : ι) → (kind i).Content → Settings kind → Hook kind i
  stack : ℕ

namespace Settings

variable {kind : ι → Kind K} [DecidableEq ι]

def put (v : Settings kind) (i : ι) (content : (kind i).Held) : Settings kind :=
  { v with contents := Function.update v.contents i content }

def que (v : Settings kind) (i : ι) (new_value : (kind i).Content) : Settings kind :=
  { v with queValues := v.queValues ++ [⟨i, new_value⟩] }

omit [LinearOrder K] in
@[simp] theorem put_same (v : Settings kind) (i : ι) (content : (kind i).Held) : (v.put i content).contents i = content :=
  Function.update_self ..

omit [LinearOrder K] in
theorem put_other (v : Settings kind) {i j : ι} (other : j ≠ i) (content : (kind i).Held) :
    (v.put i content).contents j = v.contents j :=
  Function.update_of_ne other ..

omit [LinearOrder K] in
theorem put_self (v : Settings kind) (i : ι) : v.put i (v.contents i) = v := by
  unfold put
  rw [Function.update_eq_self]

end Settings

namespace Device

variable (dev : Device ι K) [DecidableEq ι]

def cls (i : ι) : ValueClass (dev.kind i).Content := (dev.kind i).cls dev.numbers

def queValueChange (i : ι) (state : Status) : Bool := dev.stateCondition i &&& state != 0

def Waits (v : Settings dev.kind) (i : ι) (new_value : (dev.kind i).Content) : Prop :=
  ((dev.cls i).isEqual (v.contents i).1 new_value = false ∨ v.queValues ≠ []) ∧ dev.queValueChange i v.state = true

instance (v : Settings dev.kind) (i : ι) (new_value : (dev.kind i).Content) : Decidable (dev.Waits v i new_value) :=
  inferInstanceAs (Decidable (_ ∧ _))

def copy (v : Settings dev.kind) (i : ι) (new_value : (dev.kind i).Content) : Settings dev.kind :=
  if (dev.cls i).isEqual (v.contents i).1 new_value then v
  else v.put i ⟨(dev.cls i).setFromValue (v.contents i).1 new_value, setFromValue_displayed _ _ _ _⟩

def doSetValue (v : Settings dev.kind) (i : ι) (new_value : (dev.kind i).Content) : ℤ × Settings dev.kind :=
  match (dev.cls i).doOpValue new_value with
  | none => (-2, v)
  | some made =>
    let hook := dev.setValue i made v
    if hook.ret < 0 then (hook.ret, hook.values)
    else if hook.ret = 0 then (0, dev.copy hook.values i hook.new_value)
    else (0, hook.values)

/-- Daemon::setCondValue with =. -/
def setCondValue (v : Settings dev.kind) (i : ι) (new_value : (dev.kind i).Content) : ℤ × Settings dev.kind :=
  if dev.Waits v i new_value then (-1, v.que i new_value)
  else if (dev.cls i).isEqual (v.contents i).1 new_value then (0, v)
  else dev.doSetValue v i new_value

end Device

structure ModeSel where
  names : List Text
  index : ℤ

/-- The values, the sections of the mode file and MODE. No function reads `applied`, the section last applied. -/
structure Daemon (dev : Device ι K) where
  values : Settings dev.kind
  modeconf : List IniSection
  modesel : Option ModeSel
  applied : Option IniSection

namespace Daemon

variable {dev : Device ι K} [DecidableEq ι]

/-- setCondValue of MODE, which no state queues; `assign` is not set for += and -=, with the new index as the result. -/
def setModesel (setMode : ℤ → Daemon dev → Option (Bool × Daemon dev)) (assign : Bool) (s : Daemon dev) (m : ℤ) :
    Option (Bool × Daemon dev) :=
  match s.modesel with
  | none => some (false, s)
  | some sel =>
    if assign = true ∧ sel.index = m then some (true, s)
    else
      match setMode m s with
      | some (true, s') => some (true, { s' with modesel := s'.modesel.map ({ · with index := m }) })
      | failed => failed

/-- One turn of the loop of setSectionValues: false where it returns -1, none where its behaviour is not defined. -/
def setEntry (setMode : ℤ → Daemon dev → Option (Bool × Daemon dev)) (s : Daemon dev) (e : IniValue) :
    Option (Bool × Daemon dev) :=
  match dev.getOwnValue e.valueName with
  | none => some (false, s)
  | some .modesel =>
    if e.valueSuffix ≠ [] then some (false, s)
    else
      match s.modesel.bind fun sel => ValueSelection.setValueCharArr sel.names e.value with
      | none => some (false, s)
      | some m => setModesel setMode true s m
  | some (.value i) =>
    if e.valueSuffix ≠ [] then
      match setSuffix dev.numbers (dev.kind i) (s.values.contents i) e.valueSuffix e.value with
      | .error => some (false, s)
      | .undefined => none
      | .set content => some (true, { s with values := s.values.put i content })
    else
      match (dev.cls i).setValueCharArr (s.values.contents i).1 e.value with
      | none => some (false, s)
      | some new_value =>
        let set := dev.setCondValue s.values i new_value
        -- the -1 of a hook is not told from that of the queue
        some (set.1 ≠ -2, { s with values := set.2 })

def setSectionValues (setMode : ℤ → Daemon dev → Option (Bool × Daemon dev)) :
    List IniValue → Daemon dev → Option (Bool × Daemon dev)
  | [], s => some (true, s)
  | e :: rest, s =>
    match setEntry setMode s e with
    | some (true, s') => setSectionValues setMode rest s'
    | failed => failed

def setMode : ℕ → ℤ → Daemon dev → Option (Bool × Daemon dev)
  | 0, _, _ => none
  | depth + 1, new_mode, s =>
    match s.modesel with
    | none => some (false, s)
    | some sel =>
      if new_mode < 0 ∨ sel.names.length ≤ new_mode then some (false, s)
      else
        match s.modeconf[new_mode.toNat]? with
        | none => none
        | some sect =>
          match setSectionValues (setMode depth) sect.values s with
          | some (true, s') => some (true, { s' with applied := some sect })
          | failed => failed

def reloaded (s : Daemon dev) (sections : List IniSection) : Daemon dev :=
  { s with modeconf := sections, modesel := some ⟨sections.map IniSection.sectName, (s.modesel.map ModeSel.index).getD 0⟩ }

/-- `sections` are what was read of the file, to its end if it is `loaded`. -/
def loadModefile (s : Daemon dev) (loaded : Bool) (sections : List IniSection) : Option (Bool × Daemon dev) :=
  if loaded then setMode (dev.stack + 1) 0 (s.reloaded sections) else some (false, { s with modeconf := sections })

end Daemon

/-- A client sets MODE; the mode file is read, at the start and at a HUP; a script ends; and anything else that happens
to the values. -/
inductive Event (dev : Device ι K) where
  | change (assign : Bool) (m : ℤ)
  | loadModefile (loaded : Bool) (sections : List IniSection)
  | scriptEnds
  | other (values : Settings dev.kind)

namespace Daemon

variable {dev : Device ι K} [DecidableEq ι]

def change (s : Daemon dev) (assign : Bool) (m : ℤ) : Option (Bool × Daemon dev) :=
  setModesel (setMode (dev.stack + 1)) assign s m

def step (s : Daemon dev) : Event dev → Daemon dev
  | .change assign m => ((s.change assign m).map Prod.snd).getD s
  | .loadModefile loaded sections =>
    match s.modesel, s.loadModefile loaded sections with
    | none, some (false, _) => s  -- initValues fails, and the daemon exits
    | _, result => (result.map Prod.snd).getD s
  | .scriptEnds =>
    match s.modesel with
    | none => s
    | some _ => ((setMode (dev.stack + 1) 0 s).map Prod.snd).getD s
  | .other values => { s with values := values }

def init (values : Settings dev.kind) : Daemon dev := ⟨values, [], none, none⟩

end Daemon

def Written : (k : Kind K) → (left requested : k.Content) → Prop
  | .pid, left, requested => left.get = requested.get
  | .doubleMinMax d, left, requested => left.value = requested.value.map d.norm
  | .integerMinMax, left, requested => left.value = requested.value
  | .stat d _, left, requested => left.value = requested.value.map d.norm
  | k, left, requested => k.Agrees left requested

def Readable : (k : Kind K) → (old requested : k.Content) → Prop
  | .stringArray, old, requested => (Kind.stringArray (K := K)).Faithful old requested
  | _, _, _ => True

def LimitIs (n : Numbers K) (limit : Limit) (value : Text) : (k : Kind K) → k.Content → Prop
  | .doubleMinMax _, content => (match limit with | .min => content.min | .max => content.max) = n.atof value
  | .integerMinMax, content => (match limit with | .min => content.min | .max => content.max) = int32 (atoi value)
  | _, _ => False

namespace Device

variable (dev : Device ι K)

/-- The value named has the content written or a change to it waits; a limit is set, and no change that waits takes
it back. -/
inductive InForce (v : Settings dev.kind) (modesel : Option ModeSel) (e : IniValue) : Prop
  | modesel (named : dev.getOwnValue e.valueName = some .modesel) (plain : e.valueSuffix = []) (sel : ModeSel)
    (is : modesel = some sel) (index : ValueSelection.setValueCharArr sel.names e.value = some sel.index)
  | limit (i : ι) (named : dev.getOwnValue e.valueName = some (.value i)) (limit : Limit)
    (known : suffixLimit e.valueSuffix = some limit)
    (set : LimitIs dev.numbers limit e.value (dev.kind i) (v.contents i).1)
    (waiting : ∀ queued, ⟨i, queued⟩ ∈ v.queValues → LimitIs dev.numbers limit e.value (dev.kind i) queued)
  | content (i : ι) (named : dev.getOwnValue e.valueName = some (.value i)) (plain : e.valueSuffix = [])
    (old requested : (dev.kind i).Content) (parsed : (dev.cls i).setValueCharArr old e.value = some requested)
    (set : Written (dev.kind i) (v.contents i).1 requested ∨ ⟨i, requested⟩ ∈ v.queValues)

def Overwrites (later e : IniValue) : Prop :=
  dev.getOwnValue later.valueName = dev.getOwnValue e.valueName ∧ suffixLimit later.valueSuffix = suffixLimit e.valueSuffix

def AllInForce (v : Settings dev.kind) (modesel : Option ModeSel) (entries : List IniValue) : Prop :=
  ∀ pre e post, entries = pre ++ e :: post → (∀ later ∈ post, ¬ dev.Overwrites later e) → dev.InForce v modesel e

def Standing (v : Settings dev.kind) (modesel : Option ModeSel) (entries : List IniValue) (next : IniValue) : Prop :=
  ∀ pre e post, entries = pre ++ e :: post → (∀ later ∈ post, ¬ dev.Overwrites later e) → ¬ dev.Overwrites next e →
    dev.InForce v modesel e

end Device

theorem doOp_made {n : Numbers K} {k : Kind K} {new_value made : k.Content}
    (accepted : (k.cls n).doOpValue new_value = some made) : made = new_value := by
  cases k with
  | doubleMinMax d => exact limits_made accepted
  | integerMinMax => exact integer_limits_made accepted
  | _ => exact (Option.some.inj accepted).symm

theorem equal_written {n : Numbers K} {k : Kind K} {old : k.Held} {new_value : k.Content}
    (equal : (k.cls n).isEqual old.1 new_value = true) (readable : Readable k old.1 new_value) :
    Written k old.1 new_value := by
  have left : outcome (k.cls n) old.1 new_value = some old.1 := if_pos equal
  obtain ⟨old, displayed⟩ := old
  cases k with
  | pid =>
    have same : old.get = new_value.get := of_decide_eq_true equal
    exact same
  | doubleMinMax d =>
    change old.value = new_value.value.map d.norm
    rw [← (SetCommand.same_iff.mp equal).1]
    exact displayed.symm
  | integerMinMax =>
    have same : old.value = new_value.value := of_decide_eq_true equal
    exact same
  | stat d count =>
    change old.value = new_value.value.map d.norm
    rw [← (SetCommand.same_iff.mp equal).1]
    exact displayed.symm
  | stringArray => exact (set_agrees n .stringArray ⟨old, displayed⟩ trivial).mpr readable old left
  | _ => exact (set_agrees n _ ⟨old, displayed⟩ trivial).mpr trivial old left

theorem copied_written {n : Numbers K} {k : Kind K} {old : k.Held} {new_value : k.Content}
    (other : ¬ (k.cls n).isEqual old.1 new_value = true) (readable : Readable k old.1 new_value) :
    Written k ((k.cls n).setFromValue old.1 new_value) new_value := by
  obtain ⟨old, displayed⟩ := old
  cases k with
  | pid =>
    change (old.setPID new_value.get.1 new_value.get.2.1 new_value.get.2.2).get = new_value.get
    have different : ¬ old.get = new_value.get := fun h => other (decide_eq_true h)
    rw [PID.setPID, if_neg different, get_of]
  | doubleMinMax d => exact SetCommand.setValueDouble_eq d displayed new_value.value
  | integerMinMax => rfl
  | stat d count => exact SetCommand.setValueDouble_eq d displayed new_value.value
  | stringArray =>
    refine (set_agrees n .stringArray ⟨old, displayed⟩ trivial).mpr readable _ ?_
    exact (SetCommand.outcome_always (fun _ => rfl) _ _).trans (congrArg some (if_neg other))
  | _ =>
    refine (set_agrees n _ ⟨old, displayed⟩ trivial).mpr trivial _ ?_
    exact (SetCommand.outcome_always (fun _ => rfl) _ _).trans (congrArg some (if_neg other))

theorem read_limits {n : Numbers K} {k : Kind K} {old new_value : k.Content} {t : Text}
    (parsed : (k.cls n).setValueCharArr old t = some new_value) (limit : Limit) (value : Text)
    (kept : LimitIs n limit value k old) : LimitIs n limit value k new_value := by
  cases k with
  | doubleMinMax d =>
    obtain rfl := Option.some.inj parsed
    cases limit <;> exact kept
  | integerMinMax =>
    obtain rfl := Option.some.inj parsed
    cases limit <;> exact kept
  | _ => exact kept.elim

theorem copied_limits {n : Numbers K} {k : Kind K} (old : k.Content) {new_value : k.Content} {limit : Limit} {value : Text}
    (new_limit : LimitIs n limit value k new_value) :
    LimitIs n limit value k ((k.cls n).setFromValue old new_value) := by
  cases k with
  | doubleMinMax d => cases limit <;> exact new_limit
  | integerMinMax => exact new_limit
  | _ => exact new_limit.elim

omit [LinearOrder K] in
theorem setSuffix_set {n : Numbers K} {k : Kind K} {old content : k.Held} {suffix value : Text}
    (set : setSuffix n k old suffix value = .set content) :
    ∃ limit, suffixLimit suffix = some limit ∧ LimitIs n limit value k content.1 ∧
      (∀ requested, Written k old.1 requested → Written k content.1 requested) ∧
        ∀ other value', other ≠ limit → LimitIs n other value' k old.1 → LimitIs n other value' k content.1 := by
  unfold setSuffix at set
  split at set
  · cases set
  · rename_i limit known
    refine ⟨limit, known, ?_⟩
    cases k with
    | doubleMinMax d =>
      cases set
      refine ⟨?_, ?_, ?_⟩
      · cases limit <;> rfl
      · intro requested written
        exact (setLimit_value ..).trans written
      · intro other value' different kept
        cases limit <;> cases other
        · exact (different rfl).elim
        · exact kept
        · exact kept
        · exact (different rfl).elim
    | _ => cases set

section Frames

variable {dev : Device ι K} [DecidableEq ι] {v : Settings dev.kind} {modesel : Option ModeSel} {e next : IniValue}

theorem inForce_limit {i : ι} {content : (dev.kind i).Held} (named : dev.getOwnValue next.valueName = some (.value i))
    (set : setSuffix dev.numbers (dev.kind i) (v.contents i) next.valueSuffix next.value = .set content)
    (kept : ¬ dev.Overwrites next e) (before : dev.InForce v modesel e) : dev.InForce (v.put i content) modesel e := by
  obtain ⟨limit, known, -, written, limits⟩ := setSuffix_set set
  cases before with
  | modesel own plain sel is index => exact .modesel own plain sel is index
  | limit j own other other_known in_content in_queue =>
    refine .limit j own other other_known ?_ in_queue
    by_cases here : j = i
    · subst here
      rw [Settings.put_same]
      refine limits other _ ?_ in_content
      rintro rfl
      exact kept ⟨named.trans own.symm, known.trans other_known.symm⟩
    · rw [Settings.put_other v here]
      exact in_content
  | content j own plain old requested parsed set =>
    refine .content j own plain old requested parsed (set.imp (fun in_content => ?_) id)
    by_cases here : j = i
    · subst here
      rw [Settings.put_same]
      exact written requested in_content
    · rw [Settings.put_other v here]
      exact in_content

omit [DecidableEq ι] in
theorem inForce_que {i : ι} {new_value : (dev.kind i).Content}
    (limits : ∀ limit value, LimitIs dev.numbers limit value (dev.kind i) (v.contents i).1 →
      LimitIs dev.numbers limit value (dev.kind i) new_value)
    (before : dev.InForce v modesel e) : dev.InForce (v.que i new_value) modesel e := by
  cases before with
  | modesel own plain sel is index => exact .modesel own plain sel is index
  | limit j own limit known in_content in_queue =>
    refine .limit j own limit known in_content fun queued mem => ?_
    rcases List.mem_append.mp mem with old | added
    · exact in_queue queued old
    · obtain ⟨rfl, same⟩ := Sigma.mk.inj (List.mem_singleton.mp added)
      obtain rfl := eq_of_heq same
      exact limits limit _ in_content
  | content j own plain old requested parsed set =>
    exact .content j own plain old requested parsed (set.imp id fun mem => List.mem_append_left _ mem)

theorem inForce_copy {i : ι} {new_value : (dev.kind i).Content}
    (limits : ∀ limit, dev.getOwnValue e.valueName = some (.value i) → suffixLimit e.valueSuffix = some limit →
      LimitIs dev.numbers limit e.value (dev.kind i) new_value)
    (kept : dev.getOwnValue e.valueName = some (.value i) → e.valueSuffix ≠ [])
    (before : dev.InForce v modesel e) : dev.InForce (dev.copy v i new_value) modesel e := by
  unfold Device.copy
  split
  · exact before
  · cases before with
    | modesel own plain sel is index => exact .modesel own plain sel is index
    | limit j own limit known in_content in_queue =>
      refine .limit j own limit known ?_ in_queue
      by_cases here : j = i
      · subst here
        rw [Settings.put_same]
        exact copied_limits _ (limits limit own known)
      · rw [Settings.put_other v here]
        exact in_content
    | content j own plain old requested parsed set =>
      have here : j ≠ i := by
        rintro rfl
        exact kept own plain
      refine .content j own plain old requested parsed ?_
      rw [Settings.put_other v here]
      exact set

omit [DecidableEq ι] in
theorem standing_imp {v' : Settings dev.kind} {pre : List IniValue}
    (frame : ∀ e, ¬ dev.Overwrites next e → dev.InForce v modesel e → dev.InForce v' modesel e)
    (all : dev.AllInForce v modesel pre) : dev.Standing v' modesel pre next :=
  fun before e post split last kept => frame e kept (all before e post split last)

omit [DecidableEq ι] in
theorem allInForce_nil : dev.AllInForce v modesel [] := fun _ _ _ split => by simp at split

omit [DecidableEq ι] in
theorem allInForce_concat {pre : List IniValue} (standing : dev.Standing v modesel pre next)
    (set : dev.InForce v modesel next) : dev.AllInForce v modesel (pre ++ [next]) := by
  intro before e post split last
  rcases List.eq_nil_or_concat post with rfl | ⟨post, final, rfl⟩
  · obtain ⟨-, same⟩ := List.append_inj' split rfl
    obtain rfl := List.singleton_inj.mp same
    exact set
  · rw [List.concat_eq_append] at split last
    rw [← List.cons_append, ← List.append_assoc] at split
    obtain ⟨rfl, same⟩ := List.append_inj' split rfl
    obtain rfl := List.singleton_inj.mp same
    refine standing before e post rfl (fun later mem => last later (List.mem_append_left _ mem)) ?_
    exact last next (List.mem_append_right _ (List.mem_singleton_self next))

omit [DecidableEq ι] in
theorem inForce_limitIs {i : ι} {limit : Limit} (inForce : dev.InForce v modesel e)
    (named : dev.getOwnValue e.valueName = some (.value i)) (known : suffixLimit e.valueSuffix = some limit) :
    LimitIs dev.numbers limit e.value (dev.kind i) (v.contents i).1 := by
  cases inForce with
  | modesel own =>
    rw [named] at own
    cases own
  | limit j own other other_known in_content =>
    obtain rfl := Option.some.inj (known.symm.trans other_known)
    rw [named] at own
    cases own
    exact in_content
  | content j own plain =>
    rw [plain] at known
    cases known

end Frames

namespace Device

variable (dev : Device ι K) [DecidableEq ι]

/-- A content that is written: it waits, or the value has it, or the hook accepts it and leaves in force what the entries
before wrote. -/
def Taken (v : Settings dev.kind) (modesel : Option ModeSel) (pre : List IniValue) (e : IniValue) (i : ι)
    (new_value : (dev.kind i).Content) : Prop :=
  if dev.Waits v i new_value then True
  else if (dev.cls i).isEqual (v.contents i).1 new_value then Readable (dev.kind i) (v.contents i).1 new_value
  else
    (dev.cls i).doOpValue new_value ≠ none ∧ (dev.setValue i new_value v).ret = 0 ∧
      (dev.setValue i new_value v).new_value = new_value ∧ dev.Standing (dev.setValue i new_value v).values modesel pre e ∧
        Readable (dev.kind i) ((dev.setValue i new_value v).values.contents i).1 new_value

end Device

namespace Daemon

variable {dev : Device ι K} [DecidableEq ι]

/-- The entry can be written after the entries `pre` of its section. -/
inductive Fits (s : Daemon dev) (pre : List IniValue) (e : IniValue) : Prop
  | modesel (named : dev.getOwnValue e.valueName = some .modesel) (plain : e.valueSuffix = []) (sel : ModeSel)
    (is : s.modesel = some sel) (index : ValueSelection.setValueCharArr sel.names e.value = some sel.index)
  | limit (i : ι) (named : dev.getOwnValue e.valueName = some (.value i)) (content : (dev.kind i).Held)
    (set : setSuffix dev.numbers (dev.kind i) (s.values.contents i) e.valueSuffix e.value = .set content)
    (waiting : ∀ limit queued, suffixLimit e.valueSuffix = some limit → ⟨i, queued⟩ ∈ s.values.queValues →
      LimitIs dev.numbers limit e.value (dev.kind i) queued)
  | content (i : ι) (named : dev.getOwnValue e.valueName = some (.value i)) (plain : e.valueSuffix = [])
    (new_value : (dev.kind i).Content)
    (parsed : (dev.cls i).setValueCharArr (s.values.contents i).1 e.value = some new_value)
    (taken : dev.Taken s.values s.modesel pre e i new_value)

def after (s : Daemon dev) (e : IniValue) : Daemon dev := ((setEntry (fun _ _ => none) s e).map Prod.snd).getD s

def Applies (s : Daemon dev) (entries : List IniValue) : Prop :=
  Guarded (fun reached e => (reached.1 ++ [e], reached.2.after e)) (fun reached e => reached.2.Fits reached.1 e)
    (([] : List IniValue), s) entries

/-- The entry is passed and leaves everything as it is. -/
inductive Idle (s : Daemon dev) (e : IniValue) : Prop
  | modesel (named : dev.getOwnValue e.valueName = some .modesel) (plain : e.valueSuffix = []) (sel : ModeSel)
    (is : s.modesel = some sel) (index : ValueSelection.setValueCharArr sel.names e.value = some sel.index)
  | limit (i : ι) (named : dev.getOwnValue e.valueName = some (.value i))
    (set : setSuffix dev.numbers (dev.kind i) (s.values.contents i) e.valueSuffix e.value = .set (s.values.contents i))
  | equal (i : ι) (named : dev.getOwnValue e.valueName = some (.value i)) (plain : e.valueSuffix = [])
    (new_value : (dev.kind i).Content)
    (parsed : (dev.cls i).setValueCharArr (s.values.contents i).1 e.value = some new_value)
    (now : ¬ dev.Waits s.values i new_value) (equal : (dev.cls i).isEqual (s.values.contents i).1 new_value = true)
  | hook (i : ι) (named : dev.getOwnValue e.valueName = some (.value i)) (plain : e.valueSuffix = [])
    (new_value made : (dev.kind i).Content)
    (parsed : (dev.cls i).setValueCharArr (s.values.contents i).1 e.value = some new_value)
    (now : ¬ dev.Waits s.values i new_value) (other : ¬ (dev.cls i).isEqual (s.values.contents i).1 new_value = true)
    (accepted : (dev.cls i).doOpValue new_value = some made) (passed : (dev.setValue i made s.values).ret ≠ -2)
    (left : (dev.setValue i made s.values).values = s.values)
    (kept : (dev.setValue i made s.values).ret = 0 →
      (dev.cls i).isEqual (s.values.contents i).1 (dev.setValue i made s.values).new_value = true)

/-- The entry is refused and leaves everything as it is. -/
inductive Refused (s : Daemon dev) (e : IniValue) : Prop
  | unknown (named : dev.getOwnValue e.valueName = none)
  | suffix_of_mode (named : dev.getOwnValue e.valueName = some .modesel) (suffixed : e.valueSuffix ≠ [])
  | mode (named : dev.getOwnValue e.valueName = some .modesel) (plain : e.valueSuffix = [])
    (unread : s.modesel.bind (fun sel => ValueSelection.setValueCharArr sel.names e.value) = none)
  | suffix (i : ι) (named : dev.getOwnValue e.valueName = some (.value i)) (suffixed : e.valueSuffix ≠ [])
    (error : setSuffix dev.numbers (dev.kind i) (s.values.contents i) e.valueSuffix e.value = .error)
  | content (i : ι) (named : dev.getOwnValue e.valueName = some (.value i)) (plain : e.valueSuffix = [])
    (unread : (dev.cls i).setValueCharArr (s.values.contents i).1 e.value = none)
  | change (i : ι) (named : dev.getOwnValue e.valueName = some (.value i)) (plain : e.valueSuffix = [])
    (new_value : (dev.kind i).Content)
    (parsed : (dev.cls i).setValueCharArr (s.values.contents i).1 e.value = some new_value)
    (now : ¬ dev.Waits s.values i new_value) (other : ¬ (dev.cls i).isEqual (s.values.contents i).1 new_value = true)
    (hook : ∀ made, (dev.cls i).doOpValue new_value = some made →
      (dev.setValue i made s.values).ret = -2 ∧ (dev.setValue i made s.values).values = s.values)

inductive Harmless (s : Daemon dev) : List IniValue → Prop
  | refused {e : IniValue} (rest : List IniValue) (refused : s.Refused e) : Harmless s (e :: rest)
  | idle {e : IniValue} {rest : List IniValue} (idle : s.Idle e) (later : Harmless s rest) : Harmless s (e :: rest)

theorem taken_inForce {s : Daemon dev} {pre : List IniValue} {e : IniValue} {i : ι} {new_value : (dev.kind i).Content}
    (all : dev.AllInForce s.values s.modesel pre) (named : dev.getOwnValue e.valueName = some (.value i))
    (plain : e.valueSuffix = []) (parsed : (dev.cls i).setValueCharArr (s.values.contents i).1 e.value = some new_value)
    (taken : dev.Taken s.values s.modesel pre e i new_value) :
    ∃ values ret, dev.setCondValue s.values i new_value = (ret, values) ∧ ret ≠ -2 ∧
      dev.AllInForce values s.modesel (pre ++ [e]) := by
  unfold Device.Taken at taken
  unfold Device.setCondValue
  split at taken
  · rename_i waits
    refine ⟨_, _, if_pos waits, by decide, allInForce_concat ?_ ?_⟩
    · exact standing_imp (fun _ _ => inForce_que fun limit value => read_limits parsed limit value) all
    · exact .content i named plain _ new_value parsed (.inr (List.mem_append_right _ (List.mem_singleton_self _)))
  · rename_i now
    rw [if_neg now]
    split at taken
    · rename_i equal
      refine ⟨_, _, if_pos equal, by decide, allInForce_concat ?_ ?_⟩
      · exact standing_imp (fun _ _ before => before) all
      · exact .content i named plain _ new_value parsed (.inl (equal_written equal taken))
    · rename_i other
      rw [if_neg other]
      obtain ⟨accepted, ret, new_content, standing, readable⟩ := taken
      obtain ⟨made, accepted⟩ := Option.ne_none_iff_exists'.mp accepted
      obtain rfl := doOp_made accepted
      have set : dev.doSetValue s.values i made = (0, dev.copy (dev.setValue i made s.values).values i made) := by
        simp [Device.doSetValue, accepted, ret, new_content]
      refine ⟨_, _, set, by decide, allInForce_concat ?_ ?_⟩
      · intro before earlier post split last kept
        have at_first := all before earlier post split last
        refine inForce_copy ?_ ?_ (standing before earlier post split last kept)
        · intro limit own known
          exact read_limits parsed limit _ (inForce_limitIs at_first own known)
        · intro own bare
          exact kept ⟨named.trans own.symm, congrArg suffixLimit (plain.trans bare.symm)⟩
      · refine .content i named plain _ made parsed (.inl ?_)
        unfold Device.copy
        split
        · rename_i equal
          exact equal_written equal readable
        · rename_i different
          rw [Settings.put_same]
          exact copied_written different readable

theorem fits_entry {s : Daemon dev} {pre : List IniValue} {e : IniValue} (all : dev.AllInForce s.values s.modesel pre)
    (fits : s.Fits pre e) : ∃ values, (∀ setMode, setEntry setMode s e = some (true, { s with values := values })) ∧
      dev.AllInForce values s.modesel (pre ++ [e]) := by
  cases fits with
  | modesel named plain sel is index =>
    refine ⟨s.values, fun setMode => ?_, allInForce_concat (standing_imp (fun _ _ before => before) all) ?_⟩
    · have passed : setEntry setMode s e = some (true, s) := by simp [setEntry, named, plain, is, index, setModesel]
      exact passed
    · exact .modesel named plain sel is index
  | limit i named content set waiting =>
    obtain ⟨limit, known, limit_is, -, -⟩ := setSuffix_set set
    have suffixed : e.valueSuffix ≠ [] := by
      intro plain
      rw [plain] at known
      cases known
    refine ⟨s.values.put i content, fun setMode => ?_, allInForce_concat ?_ ?_⟩
    · simp [setEntry, named, suffixed, set]
    · exact standing_imp (fun _ kept before => inForce_limit named set kept before) all
    · refine .limit i named limit known ?_ fun queued mem => waiting limit queued known mem
      rw [Settings.put_same]
      exact limit_is
  | content i named plain new_value parsed taken =>
    obtain ⟨values, ret, set, passed, inForce⟩ := taken_inForce all named plain parsed taken
    refine ⟨values, fun setMode => ?_, inForce⟩
    simp [setEntry, named, plain, parsed, set, passed]

theorem section_applies {s : Daemon dev} {pre entries : List IniValue} (all : dev.AllInForce s.values s.modesel pre)
    (applies : Guarded (fun reached e => (reached.1 ++ [e], reached.2.after e)) (fun reached e => reached.2.Fits reached.1 e)
      (pre, s) entries) :
    ∃ values, (∀ setMode, setSectionValues setMode entries s = some (true, { s with values := values })) ∧
      dev.AllInForce values s.modesel (pre ++ entries) := by
  induction entries generalizing s pre with
  | nil =>
    rw [List.append_nil]
    exact ⟨s.values, fun _ => rfl, all⟩
  | cons e rest ih =>
    obtain ⟨fits, applies⟩ := applies
    obtain ⟨values, set, inForce⟩ := fits_entry all fits
    have reached : s.after e = { s with values := values } := by
      rw [after, set]
      rfl
    dsimp only at applies
    rw [reached] at applies
    obtain ⟨last, set_rest, final⟩ := ih (s := { s with values := values }) inForce applies
    refine ⟨last, fun setMode => ?_, ?_⟩
    · rw [setSectionValues, set]
      exact set_rest setMode
    · rw [List.append_assoc] at final
      exact final

theorem idle_entry {s : Daemon dev} {e : IniValue} (idle : s.Idle e)
    (setMode : ℤ → Daemon dev → Option (Bool × Daemon dev)) : setEntry setMode s e = some (true, s) := by
  cases idle with
  | modesel named plain sel is index => simp [setEntry, named, plain, is, index, setModesel]
  | limit i named set =>
    obtain ⟨limit, known, -⟩ := setSuffix_set set
    have suffixed : e.valueSuffix ≠ [] := by
      intro plain
      rw [plain] at known
      cases known
    simp [setEntry, named, suffixed, set, Settings.put_self]
  | equal i named plain new_value parsed now equal =>
    have set : dev.setCondValue s.values i new_value = (0, s.values) := by
      rw [Device.setCondValue, if_neg now, if_pos equal]
    simp [setEntry, named, plain, parsed, set]
  | hook i named plain new_value made parsed now other accepted passed left kept =>
    have set : ∃ ret, dev.setCondValue s.values i new_value = (ret, s.values) ∧ ret ≠ -2 := by
      rw [Device.setCondValue, if_neg now, if_neg other, Device.doSetValue, accepted]
      dsimp only
      rw [left]
      split
      · exact ⟨_, rfl, passed⟩
      · split
        · rename_i zero
          rw [Device.copy, if_pos (kept zero)]
          exact ⟨_, rfl, by decide⟩
        · exact ⟨_, rfl, by decide⟩
    obtain ⟨ret, set, passed⟩ := set
    simp [setEntry, named, plain, parsed, set, passed]

theorem refused_entry {s : Daemon dev} {e : IniValue} (refused : s.Refused e)
    (setMode : ℤ → Daemon dev → Option (Bool × Daemon dev)) : setEntry setMode s e = some (false, s) := by
  cases refused with
  | unknown named => simp [setEntry, named]
  | suffix_of_mode named suffixed => simp [setEntry, named, suffixed]
  | mode named plain unread => simp [setEntry, named, plain, unread]
  | suffix i named suffixed error => simp [setEntry, named, suffixed, error]
  | content i named plain unread => simp [setEntry, named, plain, unread]
  | change i named plain new_value parsed now other hook =>
    have set : dev.setCondValue s.values i new_value = (-2, s.values) := by
      rw [Device.setCondValue, if_neg now, if_neg other, Device.doSetValue]
      cases accepted : (dev.cls i).doOpValue new_value with
      | none => rfl
      | some made =>
        obtain ⟨ret, left⟩ := hook made accepted
        simp [ret, left]
    simp [setEntry, named, plain, parsed, set]

theorem section_harmless {s : Daemon dev} {entries : List IniValue} (harmless : s.Harmless entries)
    (setMode : ℤ → Daemon dev → Option (Bool × Daemon dev)) :
    setSectionValues setMode entries s = some (false, s) := by
  induction harmless with
  | refused rest refused => rw [setSectionValues, refused_entry refused]
  | idle idle later ih =>
    rw [setSectionValues, idle_entry idle]
    exact ih

/-- MODE is not set to a section, or its section applies, or it is refused before it changes anything. A section that
sets MODE sets it to what it is. -/
def Settles (s : Daemon dev) (sel : ModeSel) (m : ℤ) : Prop :=
  m < 0 ∨ sel.names.length ≤ m ∨ ∃ sect, s.modeconf[m.toNat]? = some sect ∧
    (s.Harmless sect.values ∨ sel.names[m.toNat]? = some sect.sectName ∧ s.Applies sect.values ∧
      (sel.index = m ∨ ∀ e ∈ sect.values, ∀ i, dev.getOwnValue e.valueName = some i → i ≠ .modesel))

def Meets (s : Daemon dev) : Event dev → Prop
  | .change assign m => ∀ sel, s.modesel = some sel →
    if assign = true ∧ sel.index = m then
      ∀ sect, s.modeconf[m.toNat]? = some sect → dev.AllInForce s.values s.modesel sect.values
    else s.Settles sel m
  | .loadModefile loaded sections => loaded = true → ∃ sel, (s.reloaded sections).modesel = some sel ∧
      (s.reloaded sections).Settles sel 0 ∧
        (s.modesel = none ∨ sel.index = 0 ∧ ∃ sect, sections[0]? = some sect ∧ (s.reloaded sections).Applies sect.values)
  | .scriptEnds => ∀ sel, s.modesel = some sel → s.Settles sel 0 ∧
      (sel.index = 0 ∨ sel.names = [] ∨ ∃ sect, s.modeconf[0]? = some sect ∧ s.Harmless sect.values)
  | .other _ => True

def Carried (s : Daemon dev) (m : ℤ) : Option (Bool × Daemon dev) → Prop
  | none => False
  | some (false, s') => s'.values = s.values ∧ s'.modesel = s.modesel
  | some (true, s') => ∀ sect, s.modeconf[m.toNat]? = some sect → dev.AllInForce s'.values s'.modesel sect.values

def Right (s : Daemon dev) : Event dev → Prop
  | .change assign m => s.Carried m (s.change assign m)
  | .loadModefile loaded sections => loaded = true →
      (s.reloaded sections).Carried 0 (setMode (dev.stack + 1) 0 (s.reloaded sections))
  | .scriptEnds => s.modesel ≠ none → s.Carried 0 (setMode (dev.stack + 1) 0 s)
  | .other _ => True

def Named (s : Daemon dev) : Prop :=
  ∀ sel, s.modesel = some sel → ∃ sect, s.applied = some sect ∧ 0 ≤ sel.index ∧
    sel.names[sel.index.toNat]? = some sect.sectName

theorem harmless_not_applies {s : Daemon dev} {entries : List IniValue} (harmless : s.Harmless entries) :
    ¬ s.Applies entries := by
  intro applies
  obtain ⟨values, set, -⟩ := section_applies allInForce_nil applies
  have refused := section_harmless harmless fun _ _ => none
  rw [set] at refused
  cases refused

theorem setMode_settles {s : Daemon dev} {sel : ModeSel} {m : ℤ} (is : s.modesel = some sel) (settles : s.Settles sel m)
    (depth : ℕ) :
    setMode (depth + 1) m s = some (false, s) ∧
        (m < 0 ∨ sel.names.length ≤ m ∨ ∃ sect, s.modeconf[m.toNat]? = some sect ∧ ¬ s.Applies sect.values) ∨
      ∃ sect values, 0 ≤ m ∧ s.modeconf[m.toNat]? = some sect ∧ sel.names[m.toNat]? = some sect.sectName ∧
        s.Applies sect.values ∧
        (sel.index = m ∨ ∀ e ∈ sect.values, ∀ i, dev.getOwnValue e.valueName = some i → i ≠ .modesel) ∧
          setMode (depth + 1) m s = some (true, { s with values := values, applied := some sect }) ∧
            dev.AllInForce values s.modesel sect.values := by
  have entered (inside : ¬ (m < 0 ∨ sel.names.length ≤ m)) {sect : IniSection} {answer : Bool} {s' : Daemon dev}
      (found : s.modeconf[m.toNat]? = some sect)
      (set : setSectionValues (setMode depth) sect.values s = some (answer, s')) :
      setMode (depth + 1) m s = some (answer, if answer then { s' with applied := some sect } else s') := by
    rw [setMode, is]
    dsimp only
    rw [if_neg inside, found]
    dsimp only
    rw [set]
    cases answer <;> rfl
  by_cases outside : m < 0 ∨ sel.names.length ≤ m
  · left
    refine ⟨?_, outside.imp id .inl⟩
    rw [setMode, is]
    exact if_pos outside
  · have inside := not_or.mp outside
    obtain ⟨sect, found, harmless | ⟨named, applies, mode⟩⟩ := (settles.resolve_left inside.1).resolve_left inside.2
    · left
      exact ⟨entered outside found (section_harmless harmless _), .inr (.inr ⟨sect, found, harmless_not_applies harmless⟩)⟩
    · right
      obtain ⟨values, set, all⟩ := section_applies allInForce_nil applies
      exact ⟨sect, values, not_lt.mp inside.1, found, named, applies, mode, entered outside found (set _), all⟩

omit [DecidableEq ι] in
theorem allInForce_mode {v : Settings dev.kind} {a b : Option ModeSel} {entries : List IniValue}
    (others : ∀ e ∈ entries, ∀ i, dev.getOwnValue e.valueName = some i → i ≠ .modesel)
    (all : dev.AllInForce v a entries) : dev.AllInForce v b entries := by
  intro pre e post split last
  have other := others e (by rw [split]; simp)
  cases all pre e post split last with
  | modesel named => exact (other _ named rfl).elim
  | limit i named limit known set waiting => exact .limit i named limit known set waiting
  | content i named plain old requested parsed set => exact .content i named plain old requested parsed set

theorem change_settles {s : Daemon dev} {assign : Bool} {m : ℤ} (meets : s.Meets (.change assign m)) :
    s.Right (.change assign m) ∧ (s.Named → (s.step (.change assign m)).Named) := by
  have left (named : s.Named) {answer : Bool} (set : s.change assign m = some (answer, s)) :
      (s.step (.change assign m)).Named := by
    rw [step, set]
    exact named
  change s.Carried m (s.change assign m) ∧ _
  cases is : s.modesel with
  | none =>
    have set : s.change assign m = some (false, s) := by simp [change, setModesel, is]
    refine ⟨?_, fun named => left named set⟩
    rw [set]
    exact ⟨rfl, rfl⟩
  | some sel =>
    have meets := meets sel is
    split at meets
    · rename_i same
      have set : s.change assign m = some (true, s) := by simp [change, setModesel, is, same]
      refine ⟨?_, fun named => left named set⟩
      rw [set]
      exact meets
    · rename_i other
      obtain ⟨refused, -⟩ | ⟨sect, values, low, found, named, -, mode, set, all⟩ := setMode_settles is meets dev.stack
      · have set : s.change assign m = some (false, s) := by simp [change, setModesel, is, other, refused]
        refine ⟨?_, fun named => left named set⟩
        rw [set]
        exact ⟨rfl, rfl⟩
      · have set : s.change assign m =
            some (true, { s with values := values, applied := some sect, modesel := some { sel with index := m } }) := by
          simp [change, setModesel, is, other, set]
        rw [set]
        constructor
        · intro sect' found'
          obtain rfl := Option.some.inj (found.symm.trans found')
          rcases mode with rfl | others
          · exact is ▸ all
          · exact allInForce_mode others all
        · intro _ sel' is'
          rw [step, set] at is' ⊢
          obtain rfl := Option.some.inj is'
          exact ⟨sect, rfl, low, named⟩

theorem meets_right {s : Daemon dev} {e : Event dev} (meets : s.Meets e) : s.Right e := by
  cases e with
  | change assign m => exact (change_settles meets).1
  | loadModefile loaded sections =>
    intro ended
    obtain ⟨sel, is, settles, -⟩ := meets ended
    obtain ⟨refused, -⟩ | ⟨sect, values, -, found, -, -, -, set, all⟩ := setMode_settles is settles dev.stack
    · rw [refused]
      exact ⟨rfl, rfl⟩
    · rw [set]
      intro sect' found'
      obtain rfl := Option.some.inj (found.symm.trans found')
      exact all
  | scriptEnds =>
    intro there
    obtain ⟨sel, is⟩ := Option.ne_none_iff_exists'.mp there
    obtain ⟨refused, -⟩ | ⟨sect, values, -, found, -, -, -, set, all⟩ := setMode_settles is (meets sel is).1 dev.stack
    · rw [refused]
      exact ⟨rfl, rfl⟩
    · rw [set]
      intro sect' found'
      obtain rfl := Option.some.inj (found.symm.trans found')
      exact all
  | other values => trivial

theorem step_named {s : Daemon dev} {e : Event dev} (named : s.Named) (meets : s.Meets e) : (s.step e).Named := by
  cases e with
  | change assign m => exact (change_settles meets).2 named
  | loadModefile loaded sections =>
    cases loaded with
    | false =>
      rw [step, loadModefile]
      cases is : s.modesel with
      | none => exact named
      | some sel =>
        intro sel' is'
        exact named sel' (is.trans is')
    | true =>
      obtain ⟨sel, is, settles, first⟩ := meets rfl
      have start : s.modesel = none ∨ sel.index = 0 := first.imp id And.left
      obtain ⟨refused, why⟩ | ⟨sect, values, -, found, name, -, -, set, all⟩ := setMode_settles is settles dev.stack
      · rcases first with absent | ⟨-, sect, first, applies⟩
        · simp only [step, loadModefile, if_true, absent, refused]
          exact named
        · exfalso
          obtain negative | none_ | ⟨sect', found, fails⟩ := why
          · exact absurd negative (lt_irrefl 0)
          · obtain rfl := Option.some.inj is
            have inside := (List.getElem?_eq_some_iff.mp first).1
            simp only [List.length_map] at none_
            omega
          · obtain rfl := Option.some.inj (first.symm.trans found)
            exact fails applies
      · have stepped : s.step (.loadModefile true sections) =
            { s.reloaded sections with values := values, applied := some sect } := by
          simp only [step, loadModefile, if_true, set]
          cases s.modesel <;> rfl
        rw [stepped]
        intro sel' is'
        obtain rfl := Option.some.inj (is.symm.trans is')
        have zero : sel.index = 0 := by
          rcases start with absent | zero
          · obtain rfl := Option.some.inj is
            simp [absent]
          · exact zero
        exact ⟨sect, rfl, zero.ge, by rw [zero]; exact name⟩
  | scriptEnds =>
    cases is : s.modesel with
    | none =>
      rw [step, is]
      exact named
    | some sel =>
      obtain ⟨settles, first⟩ := meets sel is
      obtain ⟨refused, -⟩ | ⟨sect, values, -, found, name, applies, -, set, all⟩ := setMode_settles is settles dev.stack
      · rw [step, is, refused]
        exact named
      · rw [step, is, set]
        have zero : sel.index = 0 := by
          rcases first with zero | empty | ⟨sect', found', harmless⟩
          · exact zero
          · rw [empty] at name
            cases name
          · obtain rfl := Option.some.inj (found.symm.trans found')
            exact (harmless_not_applies harmless applies).elim
        intro sel' is'
        obtain rfl := Option.some.inj (is.symm.trans is')
        exact ⟨sect, rfl, zero.ge, by rw [zero]; exact name⟩
  | other values => exact named

end Daemon

def oneInteger : Device Unit ℚ where
  kind _ := .integer
  numbers := ⟨fun _ => none, fun _ => none, fun _ => none, fun _ => none, fun _ => none, fun _ => none, fun _ => []⟩
  getOwnValue v_name :=
    if v_name = "A".toList then some (.value ()) else if v_name = "MODE".toList then some .modesel else none
  stateCondition _ := 0
  setValue _ new_value v := ⟨0, new_value, v⟩
  stack := 1

def sample (rest : List IniValue) : List IniSection :=
  [⟨"normal".toList, [⟨"A".toList, [], "0".toList, []⟩]⟩, ⟨"fast".toList, ⟨"A".toList, [], "1".toList, []⟩ :: rest⟩]

def started : Daemon oneInteger := Daemon.init ⟨fun _ => ⟨(0 : ℤ), trivial⟩, [], 0⟩

def integer (s : Daemon oneInteger) : ℤ := (s.values.contents ()).1

end Rts2.Values.Modes
