import Rts2.Kernel.Arithmetic

/-! What += and -= of a client make of a value of numbers: a sum, and a difference where the class takes the
operand from the old value. -/
namespace Rts2.Kernel

universe u

def SameNumber (angle : Bool) (x y : ℚ) : Prop := if angle then ∃ turns : ℤ, x - y = 360 * turns else x = y

def Opposite (angle : Bool) (x y : ℚ) : Prop := if angle then ∃ halves : ℤ, x - y = 180 * halves else x = y

theorem SameNumber.rfl' {angle : Bool} (x : ℚ) : SameNumber angle x x := by
  cases angle
  · rfl
  · exact ⟨0, by simp⟩

theorem SameNumber.symm {angle : Bool} {x y : ℚ} (same : SameNumber angle x y) : SameNumber angle y x := by
  cases angle
  · exact Eq.symm same
  · obtain ⟨turns, apart⟩ := same
    exact ⟨-turns, by push_cast; linarith⟩

theorem SameNumber.trans {angle : Bool} {x y z : ℚ} (first : SameNumber angle x y) (second : SameNumber angle y z) :
    SameNumber angle x z := by
  cases angle
  · exact Eq.trans first second
  · obtain ⟨turns, apart⟩ := first
    obtain ⟨more, further⟩ := second
    exact ⟨turns + more, by push_cast; linarith⟩

theorem SameNumber.add {angle : Bool} {x y x' y' : ℚ} (first : SameNumber angle x x') (second : SameNumber angle y y') :
    SameNumber angle (x + y) (x' + y') := by
  cases angle
  · exact congrArg₂ (· + ·) first second
  · obtain ⟨turns, apart⟩ := first
    obtain ⟨more, further⟩ := second
    exact ⟨turns + more, by push_cast; linarith⟩

theorem SameNumber.sub {angle : Bool} {x y x' y' : ℚ} (first : SameNumber angle x x') (second : SameNumber angle y y') :
    SameNumber angle (x - y) (x' - y') := by
  cases angle
  · exact congrArg₂ (· - ·) first second
  · obtain ⟨turns, apart⟩ := first
    obtain ⟨more, further⟩ := second
    exact ⟨turns - more, by push_cast; linarith⟩

def combine (minus : Bool) (o v : ℚ) : ℚ := if minus then o - v else o + v

def opOf (minus : Bool) : Char := if minus then '-' else '+'

theorem SameNumber.combine {angle : Bool} (minus : Bool) {o v o' v' : ℚ} (first : SameNumber angle o o')
    (second : SameNumber angle v v') : SameNumber angle (combine minus o v) (combine minus o' v') := by
  cases minus
  · exact first.add second
  · exact first.sub second

theorem same_sub_swap {angle : Bool} (o v : ℚ) : SameNumber angle (v - o) (o - v) ↔ Opposite angle v o := by
  cases angle
  · constructor
    · intro same
      have same : v - o = o - v := same
      show v = o
      linarith
    · intro same
      have same : v = o := same
      show v - o = o - v
      rw [same]
  · constructor
    · rintro ⟨turns, apart⟩
      exact ⟨turns, by linarith⟩
    · rintro ⟨halves, apart⟩
      exact ⟨halves, by linarith⟩

def swapped (minus : Bool) (o v : ℚ) : ℚ := if minus then v - o else v + o

theorem same_swapped {angle : Bool} (minus : Bool) (o v : ℚ) :
    SameNumber angle (swapped minus o v) (combine minus o v) ↔ (minus = true → Opposite angle v o) := by
  cases minus
  · have sums : swapped false o v = combine false o v := add_comm v o
    simp only [sums, Bool.false_eq_true, false_imp_iff, iff_true]
    exact .rfl' _
  · simp only [true_imp_iff]
    exact same_sub_swap o v

theorem setAngle_same (dist180 : Bool) (x : ℚ) : SameNumber dist180 (setAngle dist180 x) x := by
  cases dist180
  · rfl
  · by_cases large : 180 < ln_range_degrees x
    · have there : setAngle true x = ln_range_degrees x - 360 := by simp [setAngle, large]
      rw [there]
      exact ⟨-⌊x / 360⌋ - 1, by simp only [ln_range_degrees]; push_cast; ring⟩
    · have there : setAngle true x = ln_range_degrees x := by simp [setAngle, large]
      rw [there]
      exact ⟨-⌊x / 360⌋, by simp only [ln_range_degrees]; push_cast; ring⟩

theorem setValueDouble_same (dist180 : Bool) (value x : ℚ) :
    SameNumber dist180 (ValueDouble.setValueDouble dist180 value x) x := by
  unfold ValueDouble.setValueDouble
  split
  case isTrue same =>
    rw [same]
    exact .rfl' x
  case isFalse => exact setAngle_same dist180 x

theorem get_setPID (p : Int) : ValuePID.get (p / ValuePID.factor) = p := by
  have exact_ : (p : ℚ) / ValuePID.factor * ValuePID.factor = p := div_mul_cancel₀ _ (by decide)
  simp [ValuePID.get, exact_]

namespace Content

def components : Content → List ℚ
  | .integer value => [value]
  | .long value => [value]
  | .float value => [value]
  | .double value => [value]
  | .doubleMinMax value _ _ => [value]
  | .integerMinMax value _ _ => [value]
  | .raDec ra decl => [ra, decl]
  | .altAz alt az => [alt, az]
  | .pid p i d => [ValuePID.get p, ValuePID.get i, ValuePID.get d]

def angle (dist180 : Bool) : Content → Bool
  | .double _ => dist180
  | .doubleMinMax _ _ _ => dist180
  | .raDec _ _ => dist180
  | _ => false

def written : Content → List ℚ → Option (List ℚ)
  | .integer _, [v] => (paramNextInteger v).map fun k : Int => [(k : ℚ)]
  | .long _, [v] => (paramNextInteger v).map fun k : Int => [(k : ℚ)]
  | .float _, [v] => some [v]
  | .double _, [v] => some [v]
  | .doubleMinMax _ _ _, [v] => some [v]
  | .doubleMinMax _ _ _, [v, _, _] => some [v]
  | .integerMinMax _ _ _, [v] => (paramNextInteger v).map fun k : Int => [(k : ℚ)]
  | .integerMinMax _ _ _, [v, min, max] => do
    let v ← paramNextInteger v
    let _ ← paramNextInteger min
    let _ ← paramNextInteger max
    some [(v : ℚ)]
  | .raDec _ _, [r] => some [r, r]
  | .raDec _ _, [r, d] => some [r, d]
  | .altAz _ _, [alt] => some [alt, alt]
  | .altAz _ _, [alt, az] => some [alt, az]
  | .pid _ _ _, [p, i, d] => do
    let p ← paramNextInteger p
    let i ← paramNextInteger i
    let d ← paramNextInteger d
    some [(p : ℚ), (i : ℚ), (d : ℚ)]
  | _, _ => none

def OutOfLimits (x : ℚ) : Content → List ℚ → Prop
  | .doubleMinMax _ _ _, [_, min, max] => ValueDoubleMinMax.outside (some min) (some max) x
  | .doubleMinMax _ min max, _ => ValueDoubleMinMax.outside min max x
  | .integerMinMax _ _ _, [_, min, max] => x < min ∨ max < x
  | .integerMinMax _ min max, _ => x < min ∨ max < x
  | _, _ => False

def SameType : Content → Content → Prop
  | .integer _, .integer _ => True
  | .long _, .long _ => True
  | .float _, .float _ => True
  | .double _, .double _ => True
  | .doubleMinMax _ _ _, .doubleMinMax _ _ _ => True
  | .integerMinMax _ _ _, .integerMinMax _ _ _ => True
  | .raDec _ _, .raDec _ _ => True
  | .altAz _ _, .altAz _ _ => True
  | .pid _ _ _, .pid _ _ _ => True
  | _, _ => False

def after (dist180 : Bool) (op : Char) (o operand : Content) : Option Content :=
  (doOpValue dist180 op o operand).map fun new => if o.isEqual new then o else setFromValue dist180 o new

/-- A request as it ends: the operand was read with the limits of `asked`, and used on `o`. -/
def outcome (dist180 minus : Bool) (asked o : Content) (words : List ℚ) : Option Content :=
  (setValue dist180 asked words).bind (after dist180 (opOf minus) o)

def target (dist180 minus : Bool) (o : Content) (words : List ℚ) : ℚ :=
  match o, words with
  | .doubleMinMax value _ _, v :: _ => combine minus value (setAngle dist180 v)
  | .integerMinMax value _ _, v :: _ => combine minus value v
  | _, _ => 0

def Meets (dist180 minus : Bool) (asked o : Content) (words v : List ℚ) : Prop :=
  (outcome dist180 minus asked o words = none ↔ OutOfLimits (target dist180 minus o words) o words) ∧
    ∀ new, outcome dist180 minus asked o words = some new →
      List.Forall₂ (SameNumber (angle dist180 o)) new.components (List.zipWith (combine minus) o.components v)

/-- A difference of a value of several numbers has the same one both ways; the operand of a min-max value
and its result are in the limits copied with the operand just where the result is in the limits. -/
def Holds (dist180 minus : Bool) (asked o : Content) (words v : List ℚ) : Prop :=
  match o with
  | .raDec _ _ | .altAz _ _ | .pid _ _ _ => minus = true → List.Forall₂ (Opposite (angle dist180 o)) v o.components
  | .doubleMinMax _ _ _ | .integerMinMax _ _ _ =>
    (OutOfLimits (words.headD 0) asked words ∨ OutOfLimits (target dist180 minus o words) asked words) ↔
      OutOfLimits (target dist180 minus o words) o words
  | _ => True

theorem paramNextInteger_some {word : ℚ} {v : Int} (read : paramNextInteger word = some v) : word = v := by
  unfold paramNextInteger at read
  split at read
  case isTrue whole =>
    injection read with read
    rw [← read]
    exact (Rat.coe_int_num_of_den_eq_one whole).symm
  case isFalse => cases read

@[simp] theorem paramNextInteger_int (v : Int) : paramNextInteger v = some v := by
  simp [paramNextInteger]

theorem numberOp_opOf {α : Type u} [Add α] [Sub α] (minus : Bool) (o v : α) :
    numberOp (opOf minus) o v = some (if minus then o - v else o + v) := by
  cases minus <;> rfl

theorem forall₂_one {angle : Bool} {x y : ℚ} (same : SameNumber angle x y) : List.Forall₂ (SameNumber angle) [x] [y] :=
  .cons same .nil

theorem forall₂_two {angle : Bool} {x y x' y' : ℚ} (first : SameNumber angle x x') (second : SameNumber angle y y') :
    List.Forall₂ (SameNumber angle) [x, y] [x', y'] :=
  .cons first (.cons second .nil)

theorem forall₂_rfl {angle : Bool} (xs : List ℚ) : List.Forall₂ (SameNumber angle) xs xs := by
  induction xs with
  | nil => exact .nil
  | cons x xs ih => exact .cons (.rfl' x) ih

theorem forall₂_symm {angle : Bool} {xs ys : List ℚ} (same : List.Forall₂ (SameNumber angle) xs ys) :
    List.Forall₂ (SameNumber angle) ys xs := by
  induction same with
  | nil => exact .nil
  | cons first _ ih => exact .cons first.symm ih

theorem forall₂_trans {angle : Bool} {xs ys zs : List ℚ} (first : List.Forall₂ (SameNumber angle) xs ys)
    (second : List.Forall₂ (SameNumber angle) ys zs) : List.Forall₂ (SameNumber angle) xs zs := by
  induction first generalizing zs with
  | nil => exact second
  | cons same _ ih =>
    cases second with
    | cons further rest => exact .cons (same.trans further) (ih rest)

theorem outcome_made {dist180 minus : Bool} {asked o operand made : Content} {words : List ℚ}
    (reads : setValue dist180 asked words = some operand)
    (makes : doOpValue dist180 (opOf minus) o operand = some made) :
    outcome dist180 minus asked o words = some (if o.isEqual made then o else setFromValue dist180 o made) := by
  simp only [outcome, reads, Option.bind_some, after, makes, Option.map_some]

theorem meets_iff_of_made {dist180 minus : Bool} {asked o operand made : Content} {words v : List ℚ} (result : List ℚ)
    (reads : setValue dist180 asked words = some operand)
    (makes : doOpValue dist180 (opOf minus) o operand = some made)
    (inside : ¬ OutOfLimits (target dist180 minus o words) o words)
    (kept : o.isEqual made = true → List.Forall₂ (SameNumber (angle dist180 o)) o.components result)
    (sets : List.Forall₂ (SameNumber (angle dist180 o)) (setFromValue dist180 o made).components result) :
    Meets dist180 minus asked o words v ↔
      List.Forall₂ (SameNumber (angle dist180 o)) result (List.zipWith (combine minus) o.components v) := by
  have ends := outcome_made reads makes
  have final : List.Forall₂ (SameNumber (angle dist180 o))
      (if o.isEqual made then o else setFromValue dist180 o made).components result := by
    split
    case isTrue equal => exact kept equal
    case isFalse => exact sets
  constructor
  · intro meets
    exact forall₂_trans (forall₂_symm final) (meets.2 _ ends)
  · intro same
    constructor
    · simp [ends, inside]
    · intro new is_new
      rw [ends] at is_new
      injection is_new with is_new
      rw [← is_new]
      exact forall₂_trans final same

theorem meets_of_made {dist180 minus : Bool} {asked o : Content} {words v : List ℚ} (operand made : Content)
    (reads : setValue dist180 asked words = some operand)
    (makes : doOpValue dist180 (opOf minus) o operand = some made)
    (inside : ¬ OutOfLimits (target dist180 minus o words) o words)
    (kept : o.isEqual made = true →
      List.Forall₂ (SameNumber (angle dist180 o)) o.components (List.zipWith (combine minus) o.components v))
    (sets : List.Forall₂ (SameNumber (angle dist180 o)) (setFromValue dist180 o made).components
      (List.zipWith (combine minus) o.components v)) : Meets dist180 minus asked o words v :=
  (meets_iff_of_made _ reads makes inside kept sets).mpr (forall₂_rfl _)

theorem meets_of_plain {dist180 minus : Bool} {asked o : Content} {words v : List ℚ} (operand made : Content)
    (reads : setValue dist180 asked words = some operand)
    (makes : doOpValue dist180 (opOf minus) o operand = some made)
    (inside : ¬ OutOfLimits (target dist180 minus o words) o words)
    (equal : o.isEqual made = true → o = made)
    (sets : setFromValue dist180 o made = made)
    (same : List.Forall₂ (SameNumber (angle dist180 o)) made.components (List.zipWith (combine minus) o.components v)) :
    Meets dist180 minus asked o words v := by
  refine meets_of_made operand made reads makes inside ?_ ?_
  · intro is_equal
    have kept := equal is_equal
    rw [← kept] at same
    exact same
  · rw [sets]
    exact same

theorem meets_integer (dist180 minus : Bool) (asked o : Int) {words v : List ℚ}
    (operand : (integer asked).written words = some v) :
    Meets dist180 minus (.integer asked) (.integer o) words v := by
  match words, operand with
  | [w], operand =>
    obtain ⟨k, read, rfl⟩ := Option.map_eq_some_iff.mp operand
    apply meets_of_plain (.integer k) (.integer (if minus then o - k else o + k))
    · simp only [setValue, read, Option.map_some]
    · simp only [doOpValue, ValueInteger.doOpValue, numberOp_opOf, Option.map_some]
    · simp [OutOfLimits]
    · simp [isEqual]
    · rfl
    · apply forall₂_one
      cases minus <;> simp [combine, angle, SameNumber]

theorem meets_long (dist180 minus : Bool) (asked o : Int) {words v : List ℚ}
    (operand : (long asked).written words = some v) : Meets dist180 minus (.long asked) (.long o) words v := by
  match words, operand with
  | [w], operand =>
    obtain ⟨k, read, rfl⟩ := Option.map_eq_some_iff.mp operand
    apply meets_of_plain (.long k) (.long (if minus then o - k else o + k))
    · simp only [setValue, read, Option.map_some]
    · simp only [doOpValue, ValueLong.doOpValue, numberOp_opOf, Option.map_some]
    · simp [OutOfLimits]
    · simp [isEqual]
    · rfl
    · apply forall₂_one
      cases minus <;> simp [combine, angle, SameNumber]

theorem meets_float (dist180 minus : Bool) (asked o : ℚ) {words v : List ℚ}
    (operand : (float asked).written words = some v) : Meets dist180 minus (.float asked) (.float o) words v := by
  match words, operand with
  | [w], rfl =>
    apply meets_of_plain (.float w) (.float (if minus then o - w else o + w))
    · rfl
    · simp only [doOpValue, ValueFloat.doOpValue, numberOp_opOf, Option.map_some]
    · simp [OutOfLimits]
    · simp [isEqual]
    · rfl
    · apply forall₂_one
      cases minus <;> simp [combine, angle, SameNumber]

theorem meets_double (dist180 minus : Bool) (asked o : ℚ) {words v : List ℚ}
    (operand : (double asked).written words = some v) :
    Meets dist180 minus (.double asked) (.double o) words v := by
  match words, operand with
  | [w], rfl =>
    have made := setValueDouble_same dist180 w (combine minus o w)
    apply meets_of_made (.double w)
      (.double (ValueDouble.setValueDouble dist180 w (combine minus o w)))
    · rfl
    · simp only [doOpValue, ValueDouble.doOpValue, numberOp_opOf, Option.map_some, combine]
    · simp [OutOfLimits]
    · intro equal
      have equal : o = ValueDouble.setValueDouble dist180 w (combine minus o w) := by simpa [isEqual] using equal
      apply forall₂_one
      rw [← equal] at made
      exact made
    · apply forall₂_one
      exact (setValueDouble_same dist180 o _).trans made

theorem raDec_iff (dist180 minus : Bool) (asked o : ℚ × ℚ) {words v : List ℚ}
    (operand : (raDec asked.1 asked.2).written words = some v) :
    Meets dist180 minus (.raDec asked.1 asked.2) (.raDec o.1 o.2) words v ↔
      (minus = true → List.Forall₂ (Opposite dist180) v [o.1, o.2]) := by
  -- one number is taken for both
  obtain ⟨r, d, rfl, reads⟩ : ∃ r d, v = [r, d] ∧
      setValue dist180 (.raDec asked.1 asked.2) words = some (ValueRaDec.setValueRaDec dist180 r d) := by
    match words, operand with
    | [r], rfl => exact ⟨r, r, rfl, rfl⟩
    | [r, d], rfl => exact ⟨r, d, rfl, rfl⟩
  let ra := swapped minus o.1 (setAngle dist180 r)
  let decl := swapped minus o.2 (setAngle dist180 d)
  have makes : doOpValue dist180 (opOf minus) (.raDec o.1 o.2) (ValueRaDec.setValueRaDec dist180 r d) =
      some (ValueRaDec.setValueRaDec dist180 ra decl) := by
    cases minus <;> rfl
  have to_ra : SameNumber dist180 ra (swapped minus o.1 r) := by
    cases minus
    · exact (setAngle_same dist180 r).add (.rfl' _)
    · exact (setAngle_same dist180 r).sub (.rfl' _)
  have to_decl : SameNumber dist180 decl (swapped minus o.2 d) := by
    cases minus
    · exact (setAngle_same dist180 d).add (.rfl' _)
    · exact (setAngle_same dist180 d).sub (.rfl' _)
  have made_ra := (setAngle_same dist180 ra).trans to_ra
  have made_decl := (setAngle_same dist180 decl).trans to_decl
  rw [meets_iff_of_made [swapped minus o.1 r, swapped minus o.2 d] reads makes]
  · simp only [components, List.zipWith_cons_cons, List.zipWith_nil_left, angle, List.forall₂_cons,
      List.Forall₂.nil, and_true, same_swapped]
    tauto
  · simp [OutOfLimits]
  · intro equal
    have equal : o.1 = setAngle dist180 ra ∧ o.2 = setAngle dist180 decl := by
      simpa [isEqual, ValueRaDec.setValueRaDec] using equal
    rw [← equal.1] at made_ra
    rw [← equal.2] at made_decl
    exact forall₂_two made_ra made_decl
  · apply forall₂_two
    · exact (setAngle_same dist180 _).trans made_ra
    · exact (setAngle_same dist180 _).trans made_decl

theorem altAz_iff (dist180 minus : Bool) (asked o : ℚ × ℚ) {words v : List ℚ}
    (operand : (altAz asked.1 asked.2).written words = some v) :
    Meets dist180 minus (.altAz asked.1 asked.2) (.altAz o.1 o.2) words v ↔
      (minus = true → List.Forall₂ (Opposite false) v [o.1, o.2]) := by
  obtain ⟨alt, az, rfl, reads⟩ : ∃ alt az, v = [alt, az] ∧
      setValue dist180 (.altAz asked.1 asked.2) words = some (.altAz alt az) := by
    match words, operand with
    | [r], rfl => exact ⟨r, r, rfl, rfl⟩
    | [r, d], rfl => exact ⟨r, d, rfl, rfl⟩
  have makes : doOpValue dist180 (opOf minus) (.altAz o.1 o.2) (.altAz alt az) =
      some (.altAz (swapped minus o.1 alt) (swapped minus o.2 az)) := by
    cases minus <;> rfl
  rw [meets_iff_of_made [swapped minus o.1 alt, swapped minus o.2 az] reads makes]
  · simp only [components, List.zipWith_cons_cons, List.zipWith_nil_left, angle, List.forall₂_cons,
      List.Forall₂.nil, and_true, same_swapped]
    tauto
  · simp [OutOfLimits]
  · intro equal
    have equal : o.1 = swapped minus o.1 alt ∧ o.2 = swapped minus o.2 az := by simpa [isEqual] using equal
    exact forall₂_two equal.1 equal.2
  · exact forall₂_rfl _

def swappedPID (minus : Bool) (o : ℚ) (v : Int) : Int := if minus then v - ValuePID.get o else v + ValuePID.get o

theorem swappedPID_cast (minus : Bool) (o : ℚ) (v : Int) :
    (swappedPID minus o v : ℚ) = swapped minus (ValuePID.get o) v := by
  cases minus <;> simp [swappedPID, swapped]

theorem pid_iff (dist180 minus : Bool) (asked o : ℚ × ℚ × ℚ) {words v : List ℚ}
    (operand : (pid asked.1 asked.2.1 asked.2.2).written words = some v) :
    Meets dist180 minus (.pid asked.1 asked.2.1 asked.2.2) (.pid o.1 o.2.1 o.2.2) words v ↔
      (minus = true → List.Forall₂ (Opposite false) v (components (.pid o.1 o.2.1 o.2.2))) := by
  obtain ⟨p, i, d, rfl, reads⟩ : ∃ p i d : Int, v = [(p : ℚ), (i : ℚ), (d : ℚ)] ∧
      setValue dist180 (.pid asked.1 asked.2.1 asked.2.2) words = some (ValuePID.setPID p i d) := by
    match words, operand with
    | [p, i, d], operand =>
      simp only [written, Option.bind_eq_bind, Option.bind_eq_some_iff, Option.some.injEq] at operand
      obtain ⟨p', read_p, i', read_i, d', read_d, rfl⟩ := operand
      exact ⟨p', i', d', rfl, by simp [setValue, read_p, read_i, read_d]⟩
  have makes : doOpValue dist180 (opOf minus) (.pid o.1 o.2.1 o.2.2) (ValuePID.setPID p i d) =
      some (ValuePID.setPID (swappedPID minus o.1 p) (swappedPID minus o.2.1 i) (swappedPID minus o.2.2 d)) := by
    cases minus <;> simp [doOpValue, ValuePID.setPID, ValuePID.doOpValue, opOf, swappedPID, get_setPID]
  rw [meets_iff_of_made
    [(swappedPID minus o.1 p : ℚ), (swappedPID minus o.2.1 i : ℚ), (swappedPID minus o.2.2 d : ℚ)]
    reads makes]
  · simp only [components, List.zipWith_cons_cons, List.zipWith_nil_left, angle, List.forall₂_cons,
      List.Forall₂.nil, and_true, swappedPID_cast, same_swapped]
    tauto
  · simp [OutOfLimits]
  · intro equal
    have equal : (ValuePID.get o.1 = swappedPID minus o.1 p ∧ ValuePID.get o.2.1 = swappedPID minus o.2.1 i) ∧
        ValuePID.get o.2.2 = swappedPID minus o.2.2 d := by
      simpa [isEqual, ValuePID.setPID, get_setPID] using equal
    simp only [components, equal.1.1.symm, equal.1.2.symm, equal.2.symm]
    exact forall₂_rfl _
  · simp only [setFromValue, ValuePID.setPID, components, get_setPID]
    exact forall₂_rfl _

theorem limits_iff {dist180 minus : Bool} {asked o : Content} {words v : List ℚ}
    (refused : outcome dist180 minus asked o words = none ↔
      OutOfLimits (words.headD 0) asked words ∨ OutOfLimits (target dist180 minus o words) asked words)
    (makes : ∀ new, outcome dist180 minus asked o words = some new →
      List.Forall₂ (SameNumber (angle dist180 o)) new.components (List.zipWith (combine minus) o.components v)) :
    Meets dist180 minus asked o words v ↔
      ((OutOfLimits (words.headD 0) asked words ∨ OutOfLimits (target dist180 minus o words) asked words) ↔
        OutOfLimits (target dist180 minus o words) o words) := by
  unfold Meets
  rw [refused]
  exact and_iff_left makes

theorem doubleMinMax_makes (dist180 minus : Bool) (o w : ℚ) (l u : Option ℚ) :
    ValueDoubleMinMax.doOpValue dist180 (opOf minus) o w l u =
      if ValueDoubleMinMax.outside l u (combine minus o w) then none
      else some (ValueDouble.setValueDouble dist180 w (combine minus o w)) := by
  cases minus <;> rfl

def combineInt (minus : Bool) (o v : Int) : Int := if minus then o - v else o + v

theorem combineInt_cast (minus : Bool) (o v : Int) : (combineInt minus o v : ℚ) = combine minus o v := by
  cases minus <;> simp [combineInt, combine]

theorem integerMinMax_makes (minus : Bool) (o v l u : Int) :
    ValueIntegerMinMax.doOpValue (opOf minus) o v l u =
      if ValueIntegerMinMax.outside l u (combineInt minus o v) then none else some (combineInt minus o v) := by
  cases minus <;> rfl

theorem doubleMinMax_iff (dist180 minus : Bool) (value o : ℚ) (asked_min asked_max min max : Option ℚ)
    {words v : List ℚ} (operand : (doubleMinMax value asked_min asked_max).written words = some v) :
    Meets dist180 minus (.doubleMinMax value asked_min asked_max) (.doubleMinMax o min max) words v ↔
      ((OutOfLimits (words.headD 0) (.doubleMinMax value asked_min asked_max) words ∨
          OutOfLimits (target dist180 minus (.doubleMinMax o min max) words)
            (.doubleMinMax value asked_min asked_max) words) ↔
        OutOfLimits (target dist180 minus (.doubleMinMax o min max) words) (.doubleMinMax o min max) words) := by
  -- the limits the operand is read with
  obtain ⟨w, l, u, rest, rfl, rfl, reads, limits⟩ : ∃ w l u rest, words = w :: rest ∧ v = [w] ∧
      setValue dist180 (.doubleMinMax value asked_min asked_max) words =
        (if ValueDoubleMinMax.outside l u w then none else some (.doubleMinMax (setAngle dist180 w) l u)) ∧
      ∀ x, OutOfLimits x (.doubleMinMax value asked_min asked_max) words ↔ ValueDoubleMinMax.outside l u x := by
    match words, operand with
    | [w], rfl => exact ⟨w, asked_min, asked_max, [], rfl, rfl, rfl, fun _ => Iff.rfl⟩
    | [w, l, u], rfl => exact ⟨w, some l, some u, [l, u], rfl, rfl, rfl, fun _ => Iff.rfl⟩
  have aim : target dist180 minus (.doubleMinMax o min max) (w :: rest) = combine minus o (setAngle dist180 w) := rfl
  have made := setValueDouble_same dist180 (setAngle dist180 w) (combine minus o (setAngle dist180 w))
  have meant := made.trans (SameNumber.combine minus (.rfl' o) (setAngle_same dist180 w))
  apply limits_iff
  · simp only [limits, aim, List.headD_cons, outcome, reads]
    by_cases refused : ValueDoubleMinMax.outside l u w = true
    · simp [refused]
    · by_cases outside : ValueDoubleMinMax.outside l u (combine minus o (setAngle dist180 w)) = true
      · simp [after, doOpValue, doubleMinMax_makes, outside]
      · simp [refused, after, doOpValue, doubleMinMax_makes, outside]
  · intro new is_new
    simp only [outcome, reads] at is_new
    by_cases refused : ValueDoubleMinMax.outside l u w = true
    · rw [if_pos refused] at is_new
      cases is_new
    · rw [if_neg refused] at is_new
      simp only [Option.bind_some, after, doOpValue, doubleMinMax_makes] at is_new
      by_cases outside : ValueDoubleMinMax.outside l u (combine minus o (setAngle dist180 w)) = true
      · rw [if_pos outside] at is_new
        cases is_new
      · rw [if_neg outside] at is_new
        injection is_new with is_new
        rw [← is_new]
        beta_reduce
        split
        case isTrue equal =>
          have equal := of_decide_eq_true equal
          rw [← equal] at meant
          exact forall₂_one meant
        case isFalse => exact forall₂_one ((setValueDouble_same dist180 o _).trans meant)

theorem integerMinMax_iff (dist180 minus : Bool) (value o asked_min asked_max min max : Int)
    {words v : List ℚ} (operand : (integerMinMax value asked_min asked_max).written words = some v) :
    Meets dist180 minus (.integerMinMax value asked_min asked_max) (.integerMinMax o min max) words v ↔
      ((OutOfLimits (words.headD 0) (.integerMinMax value asked_min asked_max) words ∨
          OutOfLimits (target dist180 minus (.integerMinMax o min max) words)
            (.integerMinMax value asked_min asked_max) words) ↔
        OutOfLimits (target dist180 minus (.integerMinMax o min max) words) (.integerMinMax o min max) words) := by
  obtain ⟨k, l, u, rest, rfl, rfl, reads, limits⟩ : ∃ (k l u : Int) (rest : List ℚ), words = (k : ℚ) :: rest ∧
      v = [(k : ℚ)] ∧
      setValue dist180 (.integerMinMax value asked_min asked_max) words =
        (if ValueIntegerMinMax.outside l u k then none else some (.integerMinMax k l u)) ∧
      ∀ x : Int, OutOfLimits x (.integerMinMax value asked_min asked_max) words ↔
        ValueIntegerMinMax.outside l u x := by
    match words, operand with
    | [w], operand =>
      obtain ⟨k, read, rfl⟩ := Option.map_eq_some_iff.mp operand
      refine ⟨k, asked_min, asked_max, [], ?_, rfl, ?_, ?_⟩
      · rw [paramNextInteger_some read]
      · simp [setValue, read]
      · intro x
        simp [OutOfLimits, ValueIntegerMinMax.outside]
    | [w, l, u], operand =>
      simp only [written, Option.bind_eq_bind, Option.bind_eq_some_iff, Option.some.injEq] at operand
      obtain ⟨k, read, l', read_l, u', read_u, rfl⟩ := operand
      refine ⟨k, l', u', [l, u], ?_, rfl, ?_, ?_⟩
      · rw [paramNextInteger_some read]
      · simp [setValue, read, read_l, read_u]
      · intro x
        simp [OutOfLimits, ValueIntegerMinMax.outside, paramNextInteger_some read_l, paramNextInteger_some read_u]
  have aim : target dist180 minus (.integerMinMax o min max) ((k : ℚ) :: rest) = combineInt minus o k :=
    (combineInt_cast minus o k).symm
  apply limits_iff
  · rw [aim, limits, List.headD_cons, limits]
    simp only [outcome, reads]
    by_cases refused : ValueIntegerMinMax.outside l u k = true
    · simp [refused]
    · by_cases outside : ValueIntegerMinMax.outside l u (combineInt minus o k) = true
      · simp [after, doOpValue, integerMinMax_makes, outside]
      · simp [refused, after, doOpValue, integerMinMax_makes, outside]
  · intro new is_new
    simp only [outcome, reads] at is_new
    have meant := combineInt_cast minus o k
    by_cases refused : ValueIntegerMinMax.outside l u k = true
    · rw [if_pos refused] at is_new
      cases is_new
    · rw [if_neg refused] at is_new
      simp only [Option.bind_some, after, doOpValue, integerMinMax_makes] at is_new
      by_cases outside : ValueIntegerMinMax.outside l u (combineInt minus o k) = true
      · rw [if_pos outside] at is_new
        cases is_new
      · rw [if_neg outside] at is_new
        injection is_new with is_new
        rw [← is_new]
        beta_reduce
        split
        case isTrue equal =>
          have equal := of_decide_eq_true equal
          rw [← equal] at meant
          exact forall₂_one meant
        case isFalse => exact forall₂_one meant

theorem meets_iff {dist180 minus : Bool} {asked o : Content} {words v : List ℚ} (typed : SameType asked o)
    (operand : asked.written words = some v) :
    Meets dist180 minus asked o words v ↔ Holds dist180 minus asked o words v := by
  cases asked with
  | integer value =>
    cases o with
    | integer o => exact iff_of_true (meets_integer dist180 minus value o operand) trivial
    | _ => cases typed
  | long value =>
    cases o with
    | long o => exact iff_of_true (meets_long dist180 minus value o operand) trivial
    | _ => cases typed
  | float value =>
    cases o with
    | float o => exact iff_of_true (meets_float dist180 minus value o operand) trivial
    | _ => cases typed
  | double value =>
    cases o with
    | double o => exact iff_of_true (meets_double dist180 minus value o operand) trivial
    | _ => cases typed
  | doubleMinMax value asked_min asked_max =>
    cases o with
    | doubleMinMax o min max => exact doubleMinMax_iff dist180 minus value o asked_min asked_max min max operand
    | _ => cases typed
  | integerMinMax value asked_min asked_max =>
    cases o with
    | integerMinMax o min max => exact integerMinMax_iff dist180 minus value o asked_min asked_max min max operand
    | _ => cases typed
  | raDec ra decl =>
    cases o with
    | raDec ra' decl' => exact raDec_iff dist180 minus (ra, decl) (ra', decl') operand
    | _ => cases typed
  | altAz alt az =>
    cases o with
    | altAz alt' az' => exact altAz_iff dist180 minus (alt, az) (alt', az') operand
    | _ => cases typed
  | pid p i d =>
    cases o with
    | pid p' i' d' => exact pid_iff dist180 minus (p, i, d) (p', i', d') operand
    | _ => cases typed

def arity : Content → Nat
  | .raDec _ _ => 2
  | .altAz _ _ => 2
  | .pid _ _ _ => 3
  | _ => 1

theorem components_length (c : Content) : c.components.length = c.arity := by
  cases c <;> rfl

theorem SameType.arity {asked o : Content} (typed : SameType asked o) : asked.arity = o.arity := by
  cases asked <;> cases o <;> first | rfl | cases typed

theorem written_length {c : Content} {words v : List ℚ} (operand : c.written words = some v) :
    v.length = c.arity := by
  unfold written at operand
  split at operand <;>
    simp only [Option.bind_eq_bind, Option.bind_eq_some_iff, Option.map_eq_some_iff, Option.some.injEq,
      reduceCtorEq] at operand <;>
    grind [Content.arity]

theorem restored {angle : Bool} {o v n n' : List ℚ} (long : v.length = o.length)
    (added : List.Forall₂ (SameNumber angle) n (List.zipWith (combine false) o v))
    (taken : List.Forall₂ (SameNumber angle) n' (List.zipWith (combine true) n v)) :
    List.Forall₂ (SameNumber angle) n' o := by
  induction o generalizing v n n' with
  | nil =>
    cases v with
    | nil =>
      cases added
      cases taken
      exact .nil
    | cons w v => cases long
  | cons x o ih =>
    cases v with
    | nil => cases long
    | cons w v =>
      cases added with
      | cons first rest =>
        cases taken with
        | cons back others =>
          refine .cons ?_ (ih (by simpa using long) rest others)
          have sum : combine true (combine false x w) w = x := by simp [combine]
          exact sum ▸ back.trans (SameNumber.combine true first (.rfl' w))

theorem doOpValue_typed {dist180 : Bool} {op : Char} {o operand made : Content}
    (makes : doOpValue dist180 op o operand = some made) : SameType o made := by
  cases o <;> cases operand <;>
    simp only [doOpValue, ValueRaDec.doOpValue, ValueRaDec.setValueRaDec, ValueAltAz.doOpValue, ValuePID.doOpValue,
      ValuePID.setPID, Option.map_eq_some_iff, reduceCtorEq] at makes <;>
    first
      | (obtain ⟨_, _, rfl⟩ := makes; trivial)
      | (split at makes <;> cases makes <;> trivial)

theorem after_typed {dist180 : Bool} {op : Char} {o operand new : Content}
    (makes : after dist180 op o operand = some new) : SameType o new := by
  obtain ⟨made, is_made, rfl⟩ := Option.map_eq_some_iff.mp makes
  have typed := doOpValue_typed is_made
  split
  · cases o <;> trivial
  · cases o <;> cases made <;> trivial

theorem SameType.angle {o new : Content} (dist180 : Bool) (typed : SameType o new) :
    angle dist180 new = angle dist180 o := by
  cases o <;> cases new <;> first | rfl | cases typed

theorem doSetValue_contents {ι : Type u} [DecidableEq ι] (stateCondition : ι → Status) (dist180 : ι → Bool)
    (s : Values ι Content) (x : ι) (op : Char) (operand : Content) :
    ((numeric stateCondition dist180).doSetValue s ⟨x, op, operand⟩).contents x =
      (after (dist180 x) op (s.contents x) operand).getD (s.contents x) := by
  unfold DeviceClass.doSetValue after
  simp only [numeric]
  cases doOpValue (dist180 x) op (s.contents x) operand with
  | none => rfl
  | some made =>
    simp only [DeviceClass.rewrite, List.foldl_nil, true_and, Option.map_some, Option.getD_some]
    by_cases equal : (s.contents x).isEqual made = true
    · simp [equal]
    · simp [equal]

end Content

open Content in
/-- Operations of clients, at once or from the queue: the sum or difference in every component, refused just
where that is out of the limits, holds just where the classes of several numbers need no difference and the
limits of the operand decide as those of the value; and then a difference restores what a sum was made of. -/
theorem operations_iff {ι : Type u} [DecidableEq ι] (stateCondition : ι → Status) (dist180 : ι → Bool)
    (s : Values ι Content) (x : ι) (asked : Content) (words v : List ℚ)
    (typed : SameType asked (s.contents x)) (operand : asked.written words = some v) :
    (∀ minus given, ((numeric stateCondition dist180).doSetValue s ⟨x, opOf minus, given⟩).contents x =
      (after (dist180 x) (opOf minus) (s.contents x) given).getD (s.contents x)) ∧
    (∀ minus, Meets (dist180 x) minus asked (s.contents x) words v ↔
      Holds (dist180 x) minus asked (s.contents x) words v) ∧
    ∀ sum difference, outcome (dist180 x) false asked (s.contents x) words = some sum →
      outcome (dist180 x) true asked sum words = some difference →
      Holds (dist180 x) false asked (s.contents x) words v → Holds (dist180 x) true asked sum words v →
      List.Forall₂ (SameNumber (angle (dist180 x) (s.contents x))) difference.components (s.contents x).components := by
  refine ⟨?_, ?_, ?_⟩
  · intro minus given
    exact doSetValue_contents stateCondition dist180 s x (opOf minus) given
  · intro minus
    exact meets_iff typed operand
  · intro sum difference is_sum is_difference plus minus
    obtain ⟨given, _, makes⟩ := Option.bind_eq_some_iff.mp is_sum
    have of_sum := after_typed makes
    have typed_sum : SameType asked sum := by
      cases asked <;> cases of_old : s.contents x <;> cases sum <;>
        simp_all [SameType]
    have added := ((meets_iff typed operand).mpr plus).2 sum is_sum
    have taken := ((meets_iff typed_sum operand).mpr minus).2 difference is_difference
    rw [of_sum.angle] at taken
    apply restored ?_ added taken
    rw [written_length operand, components_length, typed.arity]

open Content in
theorem exposure_plus :
    Meets false false (.doubleMinMax 15 (some 1) (some 20)) (.doubleMinMax 15 (some 1) (some 20)) [3] [3] := by
  have iff := (operations_iff (fun _ : Unit => 0) (fun _ => false)
    ⟨fun _ => .doubleMinMax 15 (some 1) (some 20), []⟩ () (.doubleMinMax 15 (some 1) (some 20)) [3] [3]
    trivial rfl).2.1 false
  apply iff.mpr
  norm_num [Holds, OutOfLimits, target, combine, setAngle, ValueDoubleMinMax.outside]

open Content in
/-- A difference of coordinates has the wrong sign; a step below the limits of a value is refused. -/
theorem offset_minus :
    ¬ Meets false true (.raDec 10 20) (.raDec 10 20) [1, 2] [1, 2] ∧
      ¬ Meets false true (.altAz 10 20) (.altAz 10 20) [1, 2] [1, 2] ∧
      ¬ Meets false true (.pid 0 0 0) (.pid 0 0 0) [1, 1, 1] [1, 1, 1] ∧
      ¬ Meets false false (.doubleMinMax 15 (some 10) (some 20)) (.doubleMinMax 15 (some 10) (some 20)) [3] [3] := by
  refine ⟨fun meets => ?_, fun meets => ?_, fun meets => ?_, fun meets => ?_⟩
  · have opposite := (raDec_iff false true (10, 20) (10, 20) rfl).mp meets rfl
    cases opposite with
    | cons first _ => exact absurd first (by norm_num [Opposite])
  · have opposite := (altAz_iff false true (10, 20) (10, 20) rfl).mp meets rfl
    cases opposite with
    | cons first _ => exact absurd first (by norm_num [Opposite])
  · have opposite := (pid_iff false true (0, 0, 0) (0, 0, 0) (by decide)).mp meets rfl
    cases opposite with
    | cons first _ => exact absurd first (by norm_num [Opposite, ValuePID.get])
  · have agree := (doubleMinMax_iff false false 15 15 (some 10) (some 20) (some 10) (some 20) rfl).mp meets
    norm_num [OutOfLimits, target, combine, setAngle, ValueDoubleMinMax.outside] at agree

end Rts2.Kernel
