import Rts2.Db.Constraints
import Rts2.Lib.Intervals

/-! Where constraints change on the grid of their samples, the intervals cover just the times at which they
are satisfied, and the violated ones just the rest. -/
namespace Rts2.Db

open Lib

theorem julian_strictMono : StrictMono julian_from_timet := by
  intro s t less
  have less : (s : ℚ) < t := by exact_mod_cast less
  unfold julian_from_timet
  linarith

theorem timet_of_julian (t : Int) : timet_from_julian (julian_from_timet t) = t := by
  have back : (julian_from_timet t - 2440587.5) * 86400 = t := by
    unfold julian_from_timet
    ring
  rw [timet_from_julian, back, Int.floor_intCast_add]
  norm_num

theorem julian_step (t step : Int) : julian_from_timet t + step / 86400 = julian_from_timet (t + step) := by
  unfold julian_from_timet
  push_cast
  ring

theorem truncate_le {x : ℚ} {n : Int} (less : x < n) : truncate x ≤ n := by
  have pos : (0 : Int) < x.den := by exact_mod_cast x.den_pos
  have num : x.num < n * x.den := by
    rw [← Rat.num_div_den x, div_lt_iff₀ (by exact_mod_cast x.den_pos)] at less
    exact_mod_cast less
  calc x.num.tdiv x.den ≤ (n * x.den).tdiv x.den := Int.tdiv_le_tdiv pos num.le
    _ = n := Int.mul_tdiv_cancel n pos.ne'

theorem mergeOne_ordered {mi : Int × Int} {add : List (Int × Int)} {lo hi c : Int} (ordered : Ordered lo hi add)
    (inside : c ≤ mi.2) (after : c ≤ max mi.1 lo) (proper : mi.1 ≤ mi.2) (searching : Bool) :
    Ordered c mi.2 (mergeOne mi searching add) := by
  induction add generalizing lo c searching with
  | nil => exact inside
  | cons a rest ih =>
    obtain ⟨from_, forward, later⟩ := ordered
    unfold mergeOne
    split
    case isTrue => exact inside
    case isFalse =>
      split
      case isTrue early => exact ih later inside (by omega) true
      case isFalse =>
        split
        case isTrue => exact inside
        case isFalse =>
          refine ⟨by simp only; omega, by simp only; omega, ?_⟩
          exact ih later (by simp only; omega) (by simp only; omega) false

theorem mergeOne_covers {mi : Int × Int} {add : List (Int × Int)} {lo hi : Int} (ordered : Ordered lo hi add)
    (searching : Bool) (x : ℚ) :
    Covers julian_from_timet (mergeOne mi searching add) x ↔
      Spans julian_from_timet mi x ∧ Covers julian_from_timet add x := by
  have mono := julian_strictMono.monotone
  induction add generalizing lo searching with
  | nil => simp [mergeOne]
  | cons a rest ih =>
    obtain ⟨from_, forward, later⟩ := ordered
    -- an interval that begins so late has nothing in that of the master
    have none_late : mi.2 ≤ a.1 → ¬ (Spans julian_from_timet mi x ∧ Covers julian_from_timet (a :: rest) x) := by
      rintro past ⟨inside, covers⟩
      have whole : Ordered a.1 hi (a :: rest) := ⟨le_refl _, forward, later⟩
      have begins := (whole.covered mono covers).1
      exact absurd (inside.2.trans_le ((mono past).trans begins)) (lt_irrefl x)
    unfold mergeOne
    split
    case isTrue stops => exact iff_of_false (covers_nil _ _) (none_late (not_lt.mp stops.2))
    case isFalse =>
      split
      case isTrue early =>
        have merged := ih later true
        rw [covers_cons]
        have not_a : Spans julian_from_timet mi x → ¬ Spans julian_from_timet a x := fun inside here =>
          absurd (here.2.trans_le ((mono early.le).trans inside.1)) (lt_irrefl x)
        tauto
      case isFalse reaches =>
        split
        case isTrue late => exact iff_of_false (covers_nil _ _) (none_late late.le)
        case isFalse =>
          have merged := ih later false
          rw [covers_cons, covers_cons]
          have both : Spans julian_from_timet (max mi.1 a.1, min mi.2 a.2) x ↔
              Spans julian_from_timet mi x ∧ Spans julian_from_timet a x := by
            simp only [Spans, mono.map_max, mono.map_min, max_le_iff, lt_min_iff]
            tauto
          tauto

theorem mergeIntervals_ordered {lo hi lo' hi' : Int} {master add : List (Int × Int)}
    (ordered : Ordered lo hi master) (added : Ordered lo' hi' add) : Ordered lo hi (mergeIntervals master add) := by
  have merged : Ordered lo hi (master.flatMap (mergeOne · false add)) := by
    induction master generalizing lo with
    | nil => exact ordered
    | cons mi master ih =>
      obtain ⟨from_, forward, later⟩ := ordered
      have first : Ordered mi.1 mi.2 (mergeOne mi false add) :=
        mergeOne_ordered added forward (le_max_left _ _) forward false
      exact (first.mono from_).append (ih later)
  unfold mergeIntervals
  split
  · exact ordered.le
  · exact merged

theorem mergeIntervals_covers {lo' hi' : Int} (master : List (Int × Int)) {add : List (Int × Int)}
    (added : Ordered lo' hi' add) (x : ℚ) :
    Covers julian_from_timet (mergeIntervals master add) x ↔
      Covers julian_from_timet master x ∧ Covers julian_from_timet add x := by
  have merged : Covers julian_from_timet (master.flatMap (mergeOne · false add)) x ↔
      Covers julian_from_timet master x ∧ Covers julian_from_timet add x := by
    induction master with
    | nil => simp
    | cons mi master ih =>
      rw [List.flatMap_cons, covers_append, covers_cons, ih, mergeOne_covers added]
      tauto
  unfold mergeIntervals
  split
  case isTrue none_left =>
    obtain rfl | rfl := none_left
    · simp
    · simp
  case isFalse => exact merged

theorem mergeOne_early {mi : Int × Int} {add : List (Int × Int)} (early : ∀ a ∈ add, a.1 ≤ mi.1 ∧ a.2 ≤ mi.1)
    (proper : mi.1 ≤ mi.2) (searching : Bool) : ∀ p ∈ mergeOne mi searching add, p = (mi.1, mi.1) := by
  induction add generalizing searching with
  | nil => simp [mergeOne]
  | cons a rest ih =>
    obtain ⟨begins, ends⟩ := early a List.mem_cons_self
    have rest_early : ∀ b ∈ rest, b.1 ≤ mi.1 ∧ b.2 ≤ mi.1 := fun b there => early b (List.mem_cons_of_mem a there)
    unfold mergeOne
    split
    case isTrue => simp
    case isFalse =>
      split
      case isTrue => exact ih rest_early true
      case isFalse reaches =>
        split
        case isTrue => simp
        case isFalse =>
          intro p there
          obtain rfl | later := List.mem_cons.mp there
          · have at_end : a.2 = mi.1 := le_antisymm ends (not_lt.mp reaches)
            rw [at_end, max_eq_left begins, min_eq_right proper]
          · exact ih rest_early false p later

theorem ordered_of_empty {c d : Int} {ps : List (Int × Int)} (empty : ∀ p ∈ ps, p = (c, c)) (le : c ≤ d) :
    Ordered c d ps := by
  induction ps with
  | nil => exact le
  | cons p ps ih =>
    obtain rfl := empty p List.mem_cons_self
    exact ⟨le_refl c, le_refl c, ih fun q there => empty q (List.mem_cons_of_mem _ there)⟩

theorem mergeIntervals_early {lo hi : Int} {master add : List (Int × Int)} (ordered : Ordered lo hi master)
    (early : ∀ a ∈ add, a.1 ≤ lo ∧ a.2 ≤ lo) :
    Ordered lo hi (mergeIntervals master add) ∧ ∀ x, ¬ Covers julian_from_timet (mergeIntervals master add) x := by
  have empty : ∀ mi ∈ master, ∀ p ∈ mergeOne mi false add, p = (mi.1, mi.1) := by
    intro mi there
    obtain ⟨after, proper, _⟩ := ordered.within mi there
    exact mergeOne_early (fun a added => ⟨(early a added).1.trans after, (early a added).2.trans after⟩) proper false
  have merged : Ordered lo hi (master.flatMap (mergeOne · false add)) := by
    clear early
    induction master generalizing lo with
    | nil => exact ordered
    | cons mi master ih =>
      obtain ⟨from_, forward, later⟩ := ordered
      have first := ordered_of_empty (empty mi List.mem_cons_self) forward
      exact (first.mono from_).append (ih later fun m there => empty m (List.mem_cons_of_mem mi there))
  unfold mergeIntervals
  split
  · exact ⟨ordered.le, fun x => covers_nil _ x⟩
  · refine ⟨merged, ?_⟩
    rintro x ⟨p, there, after, before⟩
    obtain ⟨mi, in_master, merged_in⟩ := List.mem_flatMap.mp there
    rw [empty mi in_master p merged_in] at after before
    exact absurd (after.trans_lt before) (lt_irrefl _)

def OnGrid (satisfies : ℚ → Bool × Option ℚ) (from_ to_ step : Int) : Prop :=
  ∀ (k : ℕ) x, julian_from_timet (from_ + k * step) ≤ x → x < julian_from_timet (from_ + k * step + step) →
    x < julian_from_timet to_ → (satisfies x).1 = (satisfies (julian_from_timet (from_ + k * step))).1

def Taken (satisfies : ℚ → Bool × Option ℚ) (from_ step : Int) (x : ℚ) : Prop :=
  (satisfies x).1 = true ∨ ∃ k : ℕ, julian_from_timet (from_ + k * step) ≤ x ∧
    (satisfies (julian_from_timet (from_ + k * step))).2 = none

/-- The loop at T: the intervals are known up to V, and since then it is as vf tells. -/
structure Sampled (taken : ℚ → Prop) (from_ to_ T V : Int) (vf : Option ℚ) (ret : List (Int × Int)) : Prop where
  reached : V ≤ T
  ordered : Ordered from_ V ret
  covers : ∀ x, julian_from_timet from_ ≤ x → x < julian_from_timet V → x < julian_from_timet to_ →
    (Covers julian_from_timet ret x ↔ taken x)
  since : ∀ x, julian_from_timet V ≤ x → x < julian_from_timet T → x < julian_from_timet to_ →
    (taken x ↔ vf.isSome = true)
  vf : vf = none ∨ vf = some (julian_from_timet V)

section
variable {taken : ℚ → Prop} {from_ to_ T V : Int} {ret : List (Int × Int)}

theorem Sampled.begins (taken : ℚ → Prop) (from_ to_ : Int) : Sampled taken from_ to_ from_ from_ none [] where
  reached := le_refl from_
  ordered := le_refl from_
  covers _ from_le less _ := absurd (from_le.trans_lt less) (lt_irrefl _)
  since _ after less _ := absurd (after.trans_lt less) (lt_irrefl _)
  vf := .inl rfl

theorem Sampled.closed {vf : Option ℚ} (sampled : Sampled taken from_ to_ T V vf ret) {x : ℚ}
    (after : julian_from_timet V ≤ x) : ¬ Covers julian_from_timet ret x := fun covers =>
  absurd (sampled.ordered.covered julian_strictMono.monotone covers).2 (not_lt.mpr after)

theorem Sampled.skip (sampled : Sampled taken from_ to_ T V none ret) : Sampled taken from_ to_ T T none ret where
  reached := le_refl T
  ordered := sampled.ordered.mono_right sampled.reached
  covers x from_le less inside := by
    by_cases known : x < julian_from_timet V
    · exact sampled.covers x from_le known inside
    · have since := sampled.since x (not_lt.mp known) less inside
      exact iff_of_false (sampled.closed (not_lt.mp known)) (by simp [since])
  since x after less _ := absurd (after.trans_lt less) (lt_irrefl _)
  vf := .inl rfl

theorem Sampled.close (sampled : Sampled taken from_ to_ T V (some (julian_from_timet V)) ret) :
    Sampled taken from_ to_ T T none (ret ++ [(V, T)]) where
  reached := le_refl T
  ordered := sampled.ordered.append ⟨le_refl V, sampled.reached, le_refl T⟩
  covers x from_le less inside := by
    rw [covers_append, covers_cons]
    by_cases known : x < julian_from_timet V
    · have not_in : ¬ Spans julian_from_timet (V, T) x := fun span => absurd span.1 (not_le.mpr known)
      simp only [not_in, covers_nil, or_false]
      exact sampled.covers x from_le known inside
    · have since := sampled.since x (not_lt.mp known) less inside
      exact iff_of_true (.inr (.inl ⟨not_lt.mp known, less⟩)) (by simp [since])
  since x after less _ := absurd (after.trans_lt less) (lt_irrefl _)
  vf := .inl rfl

theorem Sampled.next {vf : Option ℚ} (sampled : Sampled taken from_ to_ T V vf ret) {T' : Int} (later : T ≤ T')
    (same : ∀ x, julian_from_timet T ≤ x → x < julian_from_timet T' → x < julian_from_timet to_ →
      (taken x ↔ vf.isSome = true)) : Sampled taken from_ to_ T' V vf ret where
  reached := sampled.reached.trans later
  ordered := sampled.ordered
  covers := sampled.covers
  since x after less inside := by
    by_cases sampled_before : x < julian_from_timet T
    · exact sampled.since x after sampled_before inside
    · exact same x (not_lt.mp sampled_before) less inside
  vf := sampled.vf

theorem Sampled.open_ (sampled : Sampled taken from_ to_ T T none ret) {T' : Int} (later : T ≤ T')
    (same : ∀ x, julian_from_timet T ≤ x → x < julian_from_timet T' → x < julian_from_timet to_ →
      (taken x ↔ true = true)) : Sampled taken from_ to_ T' T (some (julian_from_timet T)) ret where
  reached := later
  ordered := sampled.ordered
  covers := sampled.covers
  since x after less inside := same x after less inside
  vf := .inr rfl

variable {satisfies : ℚ → Bool × Option ℚ} {step : Int}

def Numbered (satisfies : ℚ → Bool × Option ℚ) (from_ step : Int) (k : ℕ) : Prop :=
  ∀ j < k, (satisfies (julian_from_timet (from_ + j * step))).2 ≠ none

theorem next_sample (forward : 0 < step) (grid : OnGrid satisfies from_ to_ step)
    (hints : ∀ t, (satisfies t).2 = some 0 ∨ (satisfies t).2 = none ∧ (satisfies t).1 = true) {k : ℕ}
    (at_k : T = from_ + k * step) (numbered : Numbered satisfies from_ step k) (before : T < to_) :
    ∃ T', Constraint.nextSample (julian_from_timet to_) step (julian_from_timet T)
        (satisfies (julian_from_timet T)).2 = julian_from_timet T' ∧ T < T' ∧
      (T' < to_ → ∃ k : ℕ, T' = from_ + k * step ∧ Numbered satisfies from_ step k) ∧
      ∀ x, julian_from_timet T ≤ x → x < julian_from_timet T' → x < julian_from_timet to_ →
        (Taken satisfies from_ step x ↔ (satisfies (julian_from_timet T)).1 = true) := by
  obtain zero_hint | ⟨no_hint, ok⟩ := hints (julian_from_timet T)
  · have numbered' : Numbered satisfies from_ step (k + 1) := by
      intro j less
      obtain before_k | rfl := Nat.lt_succ_iff_lt_or_eq.mp less
      · exact numbered j before_k
      · rw [← at_k, zero_hint]
        exact Option.some_ne_none 0
    refine ⟨T + step, ?_, by omega, fun _ => ⟨k + 1, by rw [at_k]; push_cast; ring, numbered'⟩, ?_⟩
    · rw [zero_hint, Constraint.nextSample, if_neg (lt_irrefl _)]
      exact julian_step T step
    · intro x from_le less inside
      have cell := grid k x (at_k ▸ from_le) (at_k ▸ less) inside
      rw [← at_k] at cell
      rw [Taken, cell]
      refine or_iff_left ?_
      rintro ⟨j, upto, no_number⟩
      have earlier : from_ + j * step < from_ + (k + 1 : ℕ) * step := by
        have bound := julian_strictMono.lt_iff_lt.mp (upto.trans_lt less)
        rw [at_k] at bound
        push_cast
        linarith
      have less_k : (j : Int) < (k + 1 : ℕ) := lt_of_mul_lt_mul_right (by linarith) forward.le
      exact numbered' j (by exact_mod_cast less_k) no_number
  · refine ⟨to_, by rw [no_hint]; rfl, before, fun less => absurd less (lt_irrefl to_), ?_⟩
    intro x from_le _ _
    rw [at_k] at from_le no_hint
    exact iff_of_true (.inr ⟨k, from_le, no_hint⟩) ok

theorem sample_spec (forward : 0 < step) (grid : OnGrid satisfies from_ to_ step)
    (hints : ∀ t, (satisfies t).2 = some 0 ∨ (satisfies t).2 = none ∧ (satisfies t).1 = true) {fuel : Nat}
    {vf : Option ℚ} (at_sample : T < to_ → ∃ k : ℕ, T = from_ + k * step ∧ Numbered satisfies from_ step k)
    (enough : (to_ - T).toNat < fuel) (sampled : Sampled (Taken satisfies from_ step) from_ to_ T V vf ret) :
    ∃ ivs E, Constraint.sample satisfies (julian_from_timet to_) step fuel (julian_from_timet T) vf ret = some ivs ∧
      Ordered from_ E ivs ∧ ∀ x, julian_from_timet from_ ≤ x → x < julian_from_timet to_ →
        (Covers julian_from_timet ivs x ↔ Taken satisfies from_ step x) := by
  induction fuel generalizing T V vf ret with
  | zero => omega
  | succ fuel ih =>
    unfold Constraint.sample
    by_cases before : T < to_
    · rw [if_pos (julian_strictMono before)]
      obtain ⟨k, at_k, numbered⟩ := at_sample before
      obtain ⟨T', is_next, later, on_grid, same⟩ := next_sample forward grid hints at_k numbered before
      simp only [is_next]
      have enough' : (to_ - T').toNat < fuel := by
        clear on_grid at_k is_next
        omega
      cases ok : (satisfies (julian_from_timet T)).1 with
      | true =>
        rw [ok] at same
        cases vf with
        | none => exact ih on_grid enough' (sampled.skip.open_ later.le same)
        | some v => exact ih on_grid enough' (sampled.next later.le same)
      | false =>
        rw [ok] at same
        cases vf with
        | none => exact ih on_grid enough' (sampled.next later.le same)
        | some v =>
          obtain none_ | is_v := sampled.vf
          · cases none_
          · injection is_v with is_v
            subst is_v
            simp only [timet_of_julian]
            exact ih on_grid enough' (sampled.close.next later.le same)
    · rw [if_neg (not_lt.mpr (julian_strictMono.monotone (not_lt.mp before)))]
      have ended : ∀ x, x < julian_from_timet to_ → x < julian_from_timet T := fun x less =>
        less.trans_le (julian_strictMono.monotone (not_lt.mp before))
      cases vf with
      | none =>
        have whole := sampled.skip
        exact ⟨ret, T, rfl, whole.ordered, fun x from_le less => whole.covers x from_le (ended x less) less⟩
      | some v =>
        obtain none_ | is_v := sampled.vf
        · cases none_
        · injection is_v with is_v
          subst is_v
          have whole := sampled.close
          refine ⟨ret ++ [(V, T)], T, by simp only [timet_of_julian], whole.ordered, ?_⟩
          exact fun x from_le less => whole.covers x from_le (ended x less) less

end

namespace Constraint

variable (sky : Sky)

def SampledOnGrid (tar : Target) (from_ to_ step : Int) : Constraint → Prop
  | .interval .time _ => True
  | .interval kind intervals =>
    OnGrid (fun JD => satisfy sky tar JD (.interval kind intervals)) from_ to_ (sampleStep tar step kind)
  | .maxRepeat _ => True

/-- What the intervals of the constraint have of the time: nothing where they are those of a time constraint. -/
def TakenAt (tar : Target) (from_ step : Int) (x : ℚ) : Constraint → Prop
  | .interval .time _ => False
  | .interval kind intervals =>
    Taken (fun JD => satisfy sky tar JD (.interval kind intervals)) from_ (sampleStep tar step kind) x
  | .maxRepeat n => (satisfy sky tar x (.maxRepeat n)).1 = true

def Early (from_ : Int) : Constraint → Prop
  | .interval .time intervals => ∀ i ∈ intervals, (∀ l, i.upper = some l → l < from_) ∧ ∀ u, i.lower = some u → u < from_
  | _ => True

/-- The constraint is one of time; its bounds are as numbers outside from_ and to_ and so are its times. -/
def Outside (from_ to_ : Int) : Constraint → Prop
  | .interval .time intervals => ∀ i ∈ intervals,
      ((∃ l, i.upper = some l ∧ l < from_) ∨ ∃ u, i.lower = some u ∧ to_ < u) ∧
      ∀ x, julian_from_timet from_ ≤ x → x < julian_from_timet to_ → i.satisfy (some x) = false
  | _ => False

theorem hint_of_interval (tar : Target) (kind : IntervalKind) (intervals : List ConstraintDoubleInterval) (JD : ℚ) :
    (satisfy sky tar JD (.interval kind intervals)).2 = some 0 ∨
      (satisfy sky tar JD (.interval kind intervals)).2 = none ∧
      (satisfy sky tar JD (.interval kind intervals)).1 = true := by
  simp only [satisfy]
  cases value sky tar JD kind with
  | none => exact .inr ⟨rfl, rfl⟩
  | some val => exact .inl rfl

theorem sampleStep_pos {step : Int} (forward : 0 < step) (tar : Target) (kind : IntervalKind) :
    0 < sampleStep tar step kind := by
  unfold sampleStep
  split
  · split
    · norm_num
    · exact forward
  · exact forward

theorem timeIntervals_early {from_ to_ : Int} {i : ConstraintDoubleInterval} (upper : ∀ l, i.upper = some l → l < from_)
    (lower : ∀ u, i.lower = some u → u < from_) : ∀ a ∈ timeIntervals from_ to_ i, a.1 = from_ ∧ a.2 ≤ from_ := by
  unfold timeIntervals
  cases is_upper : i.upper with
  | none =>
    cases is_lower : i.lower with
    | none => simp
    | some u =>
      simp only
      split
      · simp only [List.mem_singleton, forall_eq, true_and]
        exact truncate_le (lower u is_lower)
      · simp
  | some l =>
    have less := upper l is_upper
    cases is_lower : i.lower with
    | none => simp [not_le.mpr less]
    | some u => simp [not_le.mpr less]

theorem timeIntervals_outside {from_ to_ : Int} {i : ConstraintDoubleInterval}
    (outside : (∃ l, i.upper = some l ∧ l < from_) ∨ ∃ u, i.lower = some u ∧ to_ < u) :
    timeIntervals from_ to_ i = [] := by
  unfold timeIntervals
  obtain ⟨l, is_upper, less⟩ | ⟨u, is_lower, past⟩ := outside
  · rw [is_upper]
    cases i.lower with
    | none => simp [not_le.mpr less]
    | some u => simp [not_le.mpr less]
  · rw [is_lower]
    cases i.upper with
    | none => simp [not_le.mpr past]
    | some l => simp [not_le.mpr past]

theorem outside_violated (tar : Target) {c : Constraint} {from_ to_ : Int} (outside : Outside from_ to_ c) {x : ℚ}
    (from_le : julian_from_timet from_ ≤ x) (less : x < julian_from_timet to_) : (satisfy sky tar x c).1 = false := by
  cases c with
  | interval kind intervals =>
    cases kind with
    | time =>
      simp only [satisfy, value, isBetween, List.any_eq_false]
      intro i there
      rw [(outside i there).2 x from_le less]
      exact Bool.false_ne_true
    | _ => exact outside.elim
  | maxRepeat n => exact outside.elim

theorem getSatisfiedIntervals_sampled {kind : IntervalKind} (sampled : kind ≠ .time) {tar : Target}
    {from_ to_ step : Int} (forward : 0 < step) {fuel : Nat} (enough : (to_ - from_).toNat < fuel)
    {intervals : List ConstraintDoubleInterval} (grid : SampledOnGrid sky tar from_ to_ step (.interval kind intervals)) :
    ∃ ivs E, getSatisfiedIntervals sky fuel tar from_ to_ step (.interval kind intervals) = some ivs ∧
      Ordered from_ E ivs ∧ ∀ x, julian_from_timet from_ ≤ x → x < julian_from_timet to_ →
        (Covers julian_from_timet ivs x ↔ TakenAt sky tar from_ step x (.interval kind intervals)) := by
  have numbered (taken : ℚ → Bool × Option ℚ) (step : Int) : from_ < to_ →
      ∃ k : ℕ, from_ = from_ + k * step ∧ Numbered taken from_ step k :=
    fun _ => ⟨0, by simp, fun j less => absurd less (Nat.not_lt_zero j)⟩
  cases kind with
  | time => exact absurd rfl sampled
  | _ =>
    exact sample_spec (sampleStep_pos forward tar _) grid (hint_of_interval sky tar _ intervals) (numbered _ _) enough
      (Sampled.begins _ from_ to_)

theorem getSatisfiedIntervals_spec {c : Constraint} (sampled : ∀ intervals, c ≠ .interval .time intervals) {tar : Target}
    {from_ to_ step : Int} (forward : 0 < step) (proper : from_ < to_) {fuel : Nat}
    (enough : (to_ - from_).toNat < fuel) (grid : SampledOnGrid sky tar from_ to_ step c) :
    ∃ ivs E, getSatisfiedIntervals sky fuel tar from_ to_ step c = some ivs ∧ Ordered from_ E ivs ∧
      ∀ x, julian_from_timet from_ ≤ x → x < julian_from_timet to_ →
        (Covers julian_from_timet ivs x ↔ TakenAt sky tar from_ step x c) := by
  cases c with
  | interval kind intervals =>
    have not_time : kind ≠ .time := fun is_time => sampled intervals (by rw [is_time])
    exact getSatisfiedIntervals_sampled sky not_time forward enough grid
  | maxRepeat n =>
    refine ⟨_, to_, rfl, ?_, ?_⟩
    · split
      · exact ⟨le_refl from_, proper.le, le_refl to_⟩
      · exact proper.le
    · intro x from_le less
      simp only [TakenAt, satisfy]
      by_cases limits : 0 < n
      · by_cases fewer : tar.getTotalNumberOfObservations < n
        · simp [limits, fewer, Spans, from_le, less]
        · simp [limits, fewer, not_le.mpr limits]
      · simp [limits, not_lt.mp limits, Spans, from_le, less]

theorem merged_spec {c : Constraint} {tar : Target} {from_ to_ step : Int} (forward : 0 < step) (proper : from_ < to_)
    {fuel : Nat} (enough : (to_ - from_).toNat < fuel) (grid : SampledOnGrid sky tar from_ to_ step c)
    (early : Early from_ c) {satisfied : List (Int × Int)} (ordered : Ordered from_ to_ satisfied) :
    ∃ intervals, getSatisfiedIntervals sky fuel tar from_ to_ step c = some intervals ∧
      Ordered from_ to_ (mergeIntervals satisfied intervals) ∧
      ∀ x, julian_from_timet from_ ≤ x → x < julian_from_timet to_ →
        (Covers julian_from_timet (mergeIntervals satisfied intervals) x ↔
          Covers julian_from_timet satisfied x ∧ TakenAt sky tar from_ step x c) := by
  by_cases is_time : ∃ intervals, c = .interval .time intervals
  · obtain ⟨intervals, rfl⟩ := is_time
    have inverted : ∀ a ∈ intervals.flatMap (timeIntervals from_ to_), a.1 ≤ from_ ∧ a.2 ≤ from_ := by
      intro a there
      obtain ⟨i, in_intervals, of_i⟩ := List.mem_flatMap.mp there
      obtain ⟨begins, ends⟩ := timeIntervals_early (early i in_intervals).1 (early i in_intervals).2 a of_i
      exact ⟨begins.le, ends⟩
    obtain ⟨merged, nothing⟩ := mergeIntervals_early ordered inverted
    refine ⟨_, rfl, merged, ?_⟩
    exact fun x _ _ => iff_of_false (nothing x) (fun both => both.2)
  · obtain ⟨intervals, E, got, added, taken⟩ :=
      getSatisfiedIntervals_spec sky (not_exists.mp is_time) forward proper enough grid
    refine ⟨intervals, got, mergeIntervals_ordered ordered added, ?_⟩
    intro x from_le less
    rw [mergeIntervals_covers satisfied added, taken x from_le less]

end Constraint

namespace Constraints

variable (sky : Sky)

theorem satisfiedLoop_spec {tar : Target} {from_ to_ step : Int} (forward : 0 < step) (proper : from_ < to_)
    {fuel : Nat} (enough : (to_ - from_).toNat < fuel) {cons : List Constraint}
    (grid : ∀ c ∈ cons, c.SampledOnGrid sky tar from_ to_ step) (early : ∀ c ∈ cons, c.Early from_)
    {satisfied : List (Int × Int)} (ordered : Ordered from_ to_ satisfied) :
    ∃ ivs, satisfiedLoop sky fuel tar from_ to_ step cons satisfied = some ivs ∧ Ordered from_ to_ ivs ∧
      ∀ x, julian_from_timet from_ ≤ x → x < julian_from_timet to_ →
        (Covers julian_from_timet ivs x ↔
          Covers julian_from_timet satisfied x ∧ ∀ c ∈ cons, c.TakenAt sky tar from_ step x) := by
  induction cons generalizing satisfied with
  | nil => exact ⟨satisfied, rfl, ordered, by simp⟩
  | cons c cons ih =>
    obtain ⟨on_grid, grids⟩ := List.forall_mem_cons.mp grid
    obtain ⟨first_early, rest_early⟩ := List.forall_mem_cons.mp early
    obtain ⟨intervals, got, merged, left⟩ := c.merged_spec sky forward proper enough on_grid first_early ordered
    obtain ⟨ivs, rest, within, covers⟩ := ih grids rest_early merged
    refine ⟨ivs, by rw [satisfiedLoop, got]; exact rest, within, ?_⟩
    intro x from_le less
    rw [covers x from_le less, left x from_le less, List.forall_mem_cons, and_assoc]

theorem satisfiedLoop_nil {tar : Target} {from_ to_ step : Int} (forward : 0 < step) (proper : from_ < to_)
    {fuel : Nat} (enough : (to_ - from_).toNat < fuel) {cons : List Constraint}
    (grid : ∀ c ∈ cons, c.SampledOnGrid sky tar from_ to_ step) (satisfied : List (Int × Int))
    (none_left : satisfied = [] ∨ ∃ c ∈ cons, c.Outside from_ to_) :
    satisfiedLoop sky fuel tar from_ to_ step cons satisfied = some [] := by
  induction cons generalizing satisfied with
  | nil =>
    obtain rfl | ⟨c, there, _⟩ := none_left
    · rfl
    · cases there
  | cons c cons ih =>
    obtain ⟨on_grid, grids⟩ := List.forall_mem_cons.mp grid
    have has : ∃ intervals, c.getSatisfiedIntervals sky fuel tar from_ to_ step = some intervals ∧
        (c.Outside from_ to_ → intervals = []) := by
      by_cases is_time : ∃ intervals, c = .interval .time intervals
      · obtain ⟨intervals, rfl⟩ := is_time
        refine ⟨_, rfl, fun outside => ?_⟩
        rw [List.flatMap_eq_nil_iff]
        exact fun i there => Constraint.timeIntervals_outside (outside i there).1
      · obtain ⟨intervals, _, got, _⟩ :=
          c.getSatisfiedIntervals_spec sky (not_exists.mp is_time) forward proper enough on_grid
        refine ⟨intervals, got, fun outside => absurd ?_ is_time⟩
        cases c with
        | interval kind intervals =>
          cases kind with
          | time => exact ⟨intervals, rfl⟩
          | _ => exact outside.elim
        | maxRepeat n => exact outside.elim
    obtain ⟨intervals, got, outside⟩ := has
    rw [satisfiedLoop, got]
    refine ih grids _ ?_
    obtain rfl | ⟨c', there, is_outside⟩ := none_left
    · exact .inl (if_pos (.inr rfl))
    · obtain rfl | later := List.mem_cons.mp there
      · exact .inl (if_pos (.inl (outside is_outside)))
      · exact .inr ⟨c', later, is_outside⟩

end Constraints

theorem reverseLoop_gaps (t to_ : Int) (intervals : List (Int × Int)) :
    reverseLoop t to_ intervals = gaps t to_ intervals := by
  induction intervals generalizing t with
  | nil => rfl
  | cons i rest ih => rw [reverseLoop, gaps, ih]

theorem reverseInterval_gaps {from_ to_ : Int} (proper : from_ < to_) (intervals : List (Int × Int)) :
    reverseInterval from_ to_ intervals = gaps from_ to_ intervals := by
  unfold reverseInterval
  split
  case isTrue none_left => rw [none_left, gaps, if_pos proper]
  case isFalse => exact reverseLoop_gaps from_ to_ intervals

namespace Constraints

variable (sky : Sky)

/-- The satisfied intervals are ordered, disjoint and inside the asked one and cover the times at which the
constraints are satisfied, and the violated ones the other times. -/
def Exact (fuel : Nat) (tar : Target) (from_ to_ step : Int) (cons : List Constraint) : Prop :=
  ∃ satisfied violated, getSatisfiedIntervals sky fuel tar from_ to_ step cons = some satisfied ∧
    getViolatedIntervals sky fuel tar from_ to_ step cons = some violated ∧
    Ordered from_ to_ satisfied ∧ Ordered from_ to_ violated ∧
    ∀ x, julian_from_timet from_ ≤ x → x < julian_from_timet to_ →
      (Covers julian_from_timet satisfied x ↔ satisfy sky tar x cons = true) ∧
      (Covers julian_from_timet violated x ↔ satisfy sky tar x cons = false)

theorem exact_iff {fuel : Nat} {tar : Target} {from_ to_ step : Int} (proper : from_ < to_) {cons : List Constraint}
    {ivs : List (Int × Int)} (got : getSatisfiedIntervals sky fuel tar from_ to_ step cons = some ivs)
    (ordered : Ordered from_ to_ ivs) : Exact sky fuel tar from_ to_ step cons ↔
      ∀ x, julian_from_timet from_ ≤ x → x < julian_from_timet to_ →
        (Covers julian_from_timet ivs x ↔ satisfy sky tar x cons = true) := by
  constructor
  · rintro ⟨satisfied, violated, got', _, _, _, covers⟩ x from_le less
    rw [got] at got'
    injection got' with same
    rw [same]
    exact (covers x from_le less).1
  · intro covers
    refine ⟨ivs, gaps from_ to_ ivs, got, ?_, ordered, gaps_ordered ordered, ?_⟩
    · rw [getViolatedIntervals, got, Option.map_some, reverseInterval_gaps proper]
    · intro x from_le less
      refine ⟨covers x from_le less, ?_⟩
      rw [gaps_covers julian_strictMono.monotone ordered from_le less, covers x from_le less]
      simp

def field : Target where
  getAirmass _ := some 1
  getZenitDistance _ := some 20
  getHourAngle _ := some 0
  getPositionDec _ := some 10
  getAlt _ := some 70
  getAz _ := some 180
  getLunarDistance _ := some 40
  getSolarDistance _ := some 100
  hasConstantPosition := true
  getTotalNumberOfObservations := 3

def sunset : Sky where
  lunarAltitude _ := 20
  lunarPhase _ := 90
  sunAltitude JD := if JD < julian_from_timet 1700001800 then -5 else -15

end Constraints

end Rts2.Db
