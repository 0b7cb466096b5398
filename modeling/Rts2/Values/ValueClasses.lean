import Rts2.Values.Ranges
import Rts2.Values.Selections

/-! The classes of values: what a set command reads into a duplicate of a value, when two contents are equal, and
how one is copied to the other. A double is none where it is NaN. -/
namespace Rts2.Values.Classes

open Scripts.Parsing (Text isspace skip atoi)

variable {K : Type} [LinearOrder K]

def paramEnd (t : Text) : Bool := skip t = []

def paramNextString (enddelim : List Char) (t : Text) : Option (Text × Text) :=
  match skip t with
  | [] => none
  | c :: rest =>
    if c = '"' then some (rest.takeWhile (· ≠ '"'), (rest.dropWhile (· ≠ '"')).tail)
    else
      let inside (c : Char) : Bool := !isspace c && c ∉ enddelim
      some ((c :: rest).takeWhile inside, ((c :: rest).dropWhile inside).tail)

def unquoteRest (t : Text) : Text :=
  match skip t with
  | [] => []
  | ch :: rest =>
    if ch = '"' ∨ ch = '\'' then (rest.reverse.dropWhile fun c => isspace c || c = ch).reverse else ch :: rest

theorem tail_dropWhile_length (p : Char → Bool) (t : Text) : (t.dropWhile p).tail.length ≤ t.length := by
  have drop := (List.dropWhile_suffix p (l := t)).length_le
  rw [List.length_tail]
  omega

theorem paramNextString_length {enddelim : List Char} {t word rest : Text}
    (h : paramNextString enddelim t = some (word, rest)) : rest.length < t.length := by
  have blanks : (skip t).length ≤ t.length := (List.dropWhile_suffix isspace).length_le
  unfold paramNextString at h
  split at h
  · cases h
  · rename_i c u eq
    rw [eq, List.length_cons] at blanks
    split at h
    · obtain ⟨-, rfl⟩ := Prod.mk.inj (Option.some.inj h)
      have := tail_dropWhile_length (· ≠ '"') u
      omega
    · obtain ⟨-, rfl⟩ := Prod.mk.inj (Option.some.inj h)
      rw [List.dropWhile_cons]
      split
      · have := tail_dropWhile_length (fun c => !isspace c && c ∉ enddelim) u
        omega
      · rw [List.tail_cons]
        omega

/-- What the library reads: %lf and %f of sscanf, atof, three integers, and the readers of coordinates. -/
structure Numbers (K : Type) where
  scanDouble : Text → Option (Option K)
  scanFloat : Text → Option (Option K)
  atof : Text → Option K
  scanIntegers : Text → Option (ℤ × ℤ × ℤ)
  parseDMS : Text → Option (Option K)
  parseRaDec : Text → Option (Option K × Option K)
  splitColons : Text → List Text

namespace Numbers

variable (n : Numbers K)

def paramNextDouble (t : Text) : Option (Option K × Text) := do
  let (word, rest) ← paramNextString [','] t
  if word.map Char.toLower = "nan".toList then some (none, rest)
  else do
    let v ← n.scanDouble word
    some (v, rest)

def paramDoubles : ℕ → Text → Option (List (Option K) × Text)
  | 0, t => some ([], t)
  | count + 1, t => do
    let (v, t) ← n.paramNextDouble t
    let (vs, t) ← paramDoubles count t
    some (v :: vs, t)

def paramNextFloat (t : Text) : Option (Option K × Text) := do
  let (word, rest) ← paramNextString [','] t
  let v ← n.scanFloat word
  some (v, rest)

def paramNextDMS (t : Text) : Option (Option K × Text) := do
  let (word, rest) ← paramNextString [] t
  let v ← n.parseDMS word
  some (v, rest)

end Numbers

def paramNextInteger (t : Text) : Option (ℤ × Text) := do
  let (word, rest) ← paramNextString [','] t
  let (v, num_end) := strtol word
  if num_end = [] then some (int32 v, rest) else none

def paramNextLong (t : Text) : Option (ℤ × Text) := do
  let (word, rest) ← paramNextString [','] t
  let (v, num_end) := strtol word
  if num_end = [] then some (v, rest) else none

def ended {α : Type} (p : α × Text) : Option α := if paramEnd p.2 then some p.1 else none

def paramWords {α : Type} (enddelim : List Char) (read : Text → Option α) (t : Text) : Option (List α) :=
  if paramEnd t then some []
  else
    match _h : paramNextString enddelim t with
    | none => none
    | some (word, rest) => do
      let v ← read word
      let vs ← paramWords enddelim read rest
      some (v :: vs)
termination_by t.length
decreasing_by exact paramNextString_length _h

inductive Parsed (V : Type) where
  | error
  | value (newValue : V)
  | undefined
deriving DecidableEq

/-- The methods of a class. `setValue` and `setValueCharArr` read into a duplicate of a value with the given content,
which keeps limits and names; `setIndexed` reads elements of an array; `doOpValue` is the one of `=`. -/
structure ValueClass (V : Type) where
  setValue : V → Text → Option V
  setIndexed : V → Text → Text → Parsed V
  setValueCharArr : V → Text → Option V
  doOpValue : V → Option V
  isEqual : V → V → Bool
  setFromValue : V → V → V

structure Display (K : Type) where
  norm : K → K
  norm_norm : ∀ x, norm (norm x) = norm x

def same (a b : Option K) : Bool := a.isSome && a = b

def less (a b : Option K) : Bool := a.any fun a => b.any (a < ·)

def setValueDouble (d : Display K) (value in_value : Option K) : Option K :=
  if same value in_value then value else in_value.map d.norm

def plain {V : Type} [DecidableEq V] (setValue : V → Text → Option V) (setValueCharArr : V → Text → Option V) :
    ValueClass V where
  setValue := setValue
  setIndexed _ _ _ := .error
  setValueCharArr := setValueCharArr
  doOpValue newValue := some newValue
  isEqual a b := a = b
  setFromValue _ newValue := newValue

def ValueInteger : ValueClass ℤ :=
  plain (fun _ t => (paramNextInteger t).bind ended) fun _ t => some (int32 (atoi t))

def ValueLong : ValueClass ℤ :=
  plain (fun _ t => (paramNextLong t).bind ended) fun _ t => some (strtol t).1

def ValueBool : ValueClass ℤ :=
  plain (fun _ t => do
    let word ← (paramNextString [] t).bind ended
    let b ← charToBool word
    some (if b then 1 else 0)) fun _ t => (charToBool t).map fun b => if b then 1 else 0

def ValueSelection (names : List Text) : ValueClass ℤ :=
  plain (fun _ t => do
    let word ← (paramNextString [] t).bind ended
    Values.ValueSelection.setValueCharArr names word) fun _ t => Values.ValueSelection.setValueCharArr names t

def ValueString.setValue (t : Text) : Option Text :=
  match skip t with
  | [] => none
  | c :: rest =>
    if c = '"' then
      match (rest.reverse.dropWhile isspace) with
      | '"' :: inside => some inside.reverse
      | _ => none
    else (paramNextString [] (c :: rest)).bind ended

def ValueString : ValueClass Text :=
  plain (fun _ t => ValueString.setValue t) fun _ t => some t

def ValueDouble (n : Numbers K) (d : Display K) : ValueClass (Option K) where
  setValue _ t := (n.paramNextDouble t).bind ended
  setIndexed _ _ _ := .error
  setValueCharArr _ t := some ((n.atof t).map d.norm)
  doOpValue newValue := some newValue
  isEqual := same
  setFromValue := setValueDouble d

def ValueFloat (n : Numbers K) : ValueClass (Option K) where
  setValue _ t := (n.paramNextFloat t).bind ended
  setIndexed _ _ _ := .error
  setValueCharArr _ t := some (n.atof t)
  doOpValue newValue := some newValue
  isEqual := same
  setFromValue value newValue := if same value newValue then value else newValue

def samePair (a b : Option K × Option K) : Bool := same a.1 b.1 && same a.2 b.2

def ValueRaDec (n : Numbers K) (d : Display K) : ValueClass (Option K × Option K) where
  setValue _ t := do
    let (r, t) ← n.paramNextDMS (unquoteRest t)
    if paramEnd t then some (r.map d.norm, r.map d.norm)
    else do
      let d_ ← (n.paramNextDMS t).bind ended
      some (r.map d.norm, d_.map d.norm)
  setIndexed _ _ _ := .error
  setValueCharArr _ t := (n.parseRaDec t).map fun v => (v.1.map d.norm, v.2.map d.norm)
  doOpValue newValue := some newValue
  isEqual := samePair
  setFromValue _ newValue := (newValue.1.map d.norm, newValue.2.map d.norm)

def ValueAltAz (n : Numbers K) : ValueClass (Option K × Option K) where
  setValue _ t := do
    let (alt, t) ← n.paramNextDouble (unquoteRest t)
    if paramEnd t then some (alt, alt)
    else do
      let az ← (n.paramNextDouble t).bind ended
      some (alt, az)
  setIndexed _ _ _ := .error
  setValueCharArr _ t := n.parseRaDec t
  doOpValue newValue := some newValue
  isEqual := samePair
  setFromValue _ newValue := newValue

structure PID where
  kP : ℚ
  kI : ℚ
  kD : ℚ
deriving DecidableEq

namespace PID

def factor : ℚ := 1000000

def shown (k : ℚ) : ℤ := (k * factor).num.tdiv (k * factor).den

def get (c : PID) : ℤ × ℤ × ℤ := (shown c.kP, shown c.kI, shown c.kD)

def of (p i d : ℤ) : PID := ⟨p / factor, i / factor, d / factor⟩

def setPID (c : PID) (p i d : ℤ) : PID := if c.get = (p, i, d) then c else of p i d

end PID

def ValuePID (n : Numbers K) : ValueClass PID where
  setValue _ t := do
    let (p, t) ← paramNextInteger (unquoteRest t)
    let (i, t) ← paramNextInteger t
    let d ← (paramNextInteger t).bind ended
    some (PID.setPID (PID.of 0 0 0) p i d)
  setIndexed _ _ _ := .error
  setValueCharArr _ t := (n.scanIntegers t).map fun (p, i, d) => PID.setPID (PID.of 0 0 0) p i d
  doOpValue newValue := some newValue
  isEqual a b := a.get = b.get
  setFromValue value newValue := value.setPID newValue.get.1 newValue.get.2.1 newValue.get.2.2

@[ext]
structure DoubleMinMax (K : Type) where
  value : Option K
  min : Option K
  max : Option K
deriving DecidableEq

def DoubleMinMax.outside (new_val min max : Option K) : Bool := less new_val min || less max new_val

def ValueDoubleMinMax (n : Numbers K) (d : Display K) : ValueClass (DoubleMinMax K) where
  setValue old t := do
    let (new_val, t) ← n.paramNextDouble (unquoteRest t)
    if paramEnd t then
      if DoubleMinMax.outside new_val old.min old.max then none else some { old with value := new_val.map d.norm }
    else do
      let (min, t) ← n.paramNextDouble t
      let max ← (n.paramNextDouble t).bind ended
      if DoubleMinMax.outside new_val min max then none else some ⟨new_val.map d.norm, min, max⟩
  setIndexed _ _ _ := .error
  setValueCharArr old t := some { old with value := (n.atof t).map d.norm }
  doOpValue newValue := if DoubleMinMax.outside newValue.value newValue.min newValue.max then none else some newValue
  isEqual a b := same a.value b.value
  setFromValue value newValue := ⟨setValueDouble d value.value newValue.value, newValue.min, newValue.max⟩

@[ext]
structure IntegerMinMax where
  value : ℤ
  min : ℤ
  max : ℤ
deriving DecidableEq

def IntegerMinMax.outside (new_val min max : ℤ) : Bool := new_val < min || max < new_val

def ValueIntegerMinMax : ValueClass IntegerMinMax where
  setValue old t := do
    let (new_val, t) ← paramNextInteger (unquoteRest t)
    if paramEnd t then
      if IntegerMinMax.outside new_val old.min old.max then none else some { old with value := new_val }
    else do
      let (min, t) ← paramNextInteger t
      let max ← (paramNextInteger t).bind ended
      if IntegerMinMax.outside new_val min max then none else some ⟨new_val, min, max⟩
  setIndexed _ _ _ := .error
  setValueCharArr old t := some { old with value := int32 (atoi t) }
  doOpValue newValue := if IntegerMinMax.outside newValue.value newValue.min newValue.max then none else some newValue
  isEqual a b := a.value = b.value
  setFromValue _ newValue := newValue

/-- The numbers of a statistics, with those of its trend for a time series, and its measurements. -/
structure Stat (K : Type) where
  value : Option K
  numMes : ℤ
  numbers : List (Option K)
  valueList : List (Option K × Option K)

/-- ValueDoubleStat with 4 numbers and ValueDoubleTimeserie with 6: mode, min, max, stdev, alpha and beta. -/
def ValueDoubleStat (n : Numbers K) (d : Display K) (count : ℕ) : ValueClass (Stat K) where
  setValue _ t := do
    let (value, t) ← n.paramNextDouble t
    let (numMes, t) ← paramNextInteger t
    let (numbers, t) ← n.paramDoubles count t
    if paramEnd t then some ⟨value, numMes, numbers, []⟩ else none
  setIndexed _ _ _ := .error
  setValueCharArr _ t := some ⟨(n.atof t).map d.norm, 0, List.replicate count none, []⟩
  doOpValue newValue := some newValue
  isEqual a b := same a.value b.value
  setFromValue value newValue := { newValue with value := setValueDouble d value.value newValue.value }

structure Rectangle (V : Type) where
  x : V
  y : V
  w : V
  h : V

def ValueRectangle {V : Type} (n : Numbers K) (c : ValueClass V) : ValueClass (Rectangle V) where
  setValue old t := do
    let (val, t) ← paramNextString [] (unquoteRest t)
    let x ← c.setValueCharArr old.x val
    let (val, t) ← paramNextString [] t
    let y ← c.setValueCharArr old.y val
    let (val, t) ← paramNextString [] t
    let w ← c.setValueCharArr old.w val
    let (val, t) ← paramNextString [] t
    let h ← c.setValueCharArr old.h val
    if paramEnd t then some ⟨x, y, w, h⟩ else none
  setIndexed _ _ _ := .error
  setValueCharArr old t :=
    match n.splitColons t with
    | [x, y, w, h] =>
      some ⟨(c.setValueCharArr old.x x).getD old.x, (c.setValueCharArr old.y y).getD old.y,
        (c.setValueCharArr old.w w).getD old.w, (c.setValueCharArr old.h h).getD old.h⟩
    | _ => none
  doOpValue newValue := some newValue
  isEqual a b := c.isEqual a.x b.x && c.isEqual a.y b.y && c.isEqual a.w b.w && c.isEqual a.h b.h
  setFromValue value newValue :=
    ⟨c.setFromValue value.x newValue.x, c.setFromValue value.y newValue.y, c.setFromValue value.w newValue.w,
      c.setFromValue value.h newValue.h⟩

def setElements {α : Type} (duplicate : List α) (size : ℕ) (ai : Text) (val : Option α) : Parsed (List α) :=
  match parseRange ai size with
  | .overflow => .undefined
  | .indices indices endp =>
    if endp ≠ [] then .error
    else
      match val with
      | none => .error
      | some val =>
        match setValues val indices duplicate with
        | none => .undefined
        | some newValue => .value newValue

def numberArray {α : Type} (same : α → α → Bool) (enddelim : List Char) (read : Text → Option α)
    (setWords : List α → List Text → Bool × List α) : ValueClass (List α) where
  setValue _ t := paramWords enddelim read (unquoteRest t)
  setIndexed old ai t :=
    setElements old old.length ai (((paramNextString enddelim t).bind ended).bind read)
  setValueCharArr _ t :=
    let (accepted, newValue) := setWords [] (SplitStr t)
    if accepted then some newValue else none
  doOpValue newValue := some newValue
  isEqual a b := a.length = b.length && (a.zip b).all fun p => same p.1 p.2
  setFromValue _ newValue := newValue

def Numbers.double (n : Numbers K) (word : Text) : Option (Option K) :=
  if word.map Char.toLower = "nan".toList then some none else n.scanDouble word

def DoubleArray (n : Numbers K) : ValueClass (List (Option K)) :=
  numberArray same [','] n.double (pushWords fun word => some (n.atof word))

def IntegerArray : ValueClass (List ℤ) :=
  numberArray (fun a b => a = b) [','] (fun word => if (strtol word).2 = [] then some (int32 (strtol word).1) else none)
    (pushWords fun word => some (int32 (atoi word)))

def BoolArray : ValueClass (List Bool) :=
  numberArray (fun a b => a = b) [] charToBool (pushWords charToBool)

def StringArray : ValueClass (List Text) where
  setValue _ t := paramWords [] some t
  setIndexed old ai t :=
    setElements (Values.StringArray.duplicate old) old.length ai ((paramNextString [] t).bind ended)
  setValueCharArr _ t := some (SplitStr t)
  doOpValue newValue := some newValue
  isEqual a b := Values.StringArray.isEqual a b
  setFromValue value newValue := Values.StringArray.setFromValue value newValue

end Rts2.Values.Classes
