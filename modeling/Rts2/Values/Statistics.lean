import Rts2.Lib.Statistics

/-! Values that keep measurements, and show what describes them: a list of numbers, or of numbers with their
times. A number that is not a number is none; the deviation is kept as its square. -/
namespace Rts2.Values

open Rts2.Lib

def ln_range_degrees (angle : ℚ) : ℚ := angle - 360 * ⌊angle / 360⌋

def displayed (degDist180 : Bool) (in_value : ℚ) : ℚ :=
  if degDist180 then
    let value := ln_range_degrees in_value
    if 180 < value then value - 360 else value
  else in_value

def setValueDouble (degDist180 : Bool) (value : Option ℚ) (in_value : ℚ) : Option ℚ :=
  if value ≠ some in_value then some (displayed degDist180 in_value) else value

structure StatClass (α C : Type) where
  /-- A window of no size is none. -/
  sizeTested : Bool
  /-- What is shown of no measurement. -/
  cleared : C
  /-- What is shown of the measurements, given the number shown before. -/
  calculated : Option ℚ → List α → Option ℚ × C

structure StatContent where
  mode : Option ℚ
  min : Option ℚ
  max : Option ℚ
  stdev2 : Option ℚ
deriving DecidableEq

structure TimeserieContent extends StatContent where
  alpha : Option ℚ
  beta : Option ℚ
deriving DecidableEq

def addSquare (stdev value : Option ℚ) (x : ℚ) : Option ℚ := do
  let s ← stdev
  let v ← value
  return s + (x - v) * (x - v)

def statLoop (value : Option ℚ) : List ℚ → ℚ × Option ℚ → ℚ × Option ℚ
  | [], acc => acc
  | x :: sorted, (sum, stdev) => statLoop value sorted (sum + x, addSquare stdev value x)

def ValueDoubleStat.calculated (degDist180 : Bool) (value : Option ℚ) (valueList : List ℚ) : Option ℚ × StatContent :=
  let sorted := valueList.mergeSort fun a b => decide (a ≤ b)
  let numMes : ℚ := valueList.length
  let (sum, stdev) := statLoop value sorted (0, some 0)
  (setValueDouble degDist180 value (sum / numMes),
    { min := sorted.head?
      max := sorted.getLast?
      stdev2 := stdev.map (· / numMes)
      mode := middle sorted })

def ValueDoubleStat.noContent : StatContent := ⟨none, none, none, none⟩

def ValueDoubleStat (degDist180 : Bool) : StatClass ℚ StatContent where
  sizeTested := true
  cleared := ValueDoubleStat.noContent
  calculated := ValueDoubleStat.calculated degDist180

def pairLe (a b : ℚ × ℚ) : Bool := decide (a.1 < b.1) || (decide (a.1 = b.1) && decide (a.2 ≤ b.2))

def sumLoop : List (ℚ × ℚ) → ℚ × ℚ → ℚ × ℚ
  | [], acc => acc
  | p :: sorted, (sum, sum2) => sumLoop sorted (sum + p.1, sum2 + p.2)

structure TrendSums where
  stdev : Option ℚ
  sx : ℚ
  alpha : ℚ
  alpha2 : ℚ

def trendLoop (value : Option ℚ) (sum2 : ℚ) : List (ℚ × ℚ) → TrendSums → TrendSums
  | [], acc => acc
  | p :: sorted, acc =>
    let x := p.2 - sum2
    trendLoop value sum2 sorted
      { stdev := addSquare acc.stdev value p.1
        sx := acc.sx + x
        alpha := acc.alpha + x * p.1
        alpha2 := acc.alpha2 + x * x }

def quotient (a b : ℚ) : Option ℚ := if b = 0 then none else some (a / b)

def ValueDoubleTimeserie.calculated (degDist180 : Bool) (value : Option ℚ) (valueList : List (ℚ × ℚ)) :
    Option ℚ × TimeserieContent :=
  let sorted := valueList.mergeSort pairLe
  let numMes : ℚ := valueList.length
  let (sum, sum2) := sumLoop sorted (0, 0)
  let value' := setValueDouble degDist180 value (sum / numMes)
  let sums := trendLoop value' (sum2 / numMes) sorted ⟨some 0, 0, 0, 0⟩
  let beta := quotient (sums.alpha - sums.sx * sum / numMes) (sums.alpha2 - sums.sx * sums.sx / numMes)
  (value',
    { min := (sorted.map Prod.fst).head?
      max := (sorted.map Prod.fst).getLast?
      stdev2 := sums.stdev.map (· / numMes)
      beta := beta
      alpha := beta.map fun b => (sum - b * sums.alpha) / numMes
      mode := middle (sorted.map Prod.fst) })

def ValueDoubleTimeserie.noContent : TimeserieContent := ⟨ValueDoubleStat.noContent, none, none⟩

def ValueDoubleTimeserie (degDist180 : Bool) : StatClass (ℚ × ℚ) TimeserieContent where
  sizeTested := false
  cleared := ValueDoubleTimeserie.noContent
  calculated := ValueDoubleTimeserie.calculated degDist180

structure StatValue (α C : Type) where
  value : Option ℚ
  numMes : Nat
  content : C
  valueList : List α

inductive StatCall (α : Type) where
  | addValue (in_val : α)
  | addValueMax (in_val : α) (maxQueSize : Nat)
  | clearStat
  | calculate
  | send

variable {α C : Type} (c : StatClass α C)

def StatValue.init : StatValue α C := ⟨none, 0, c.cleared, []⟩

/-- Measurements are removed while there are as many as fit; taking one from an empty list is undefined. -/
def popFront (maxQueSize : Nat) : List α → Option (List α)
  | [] => if maxQueSize = 0 then none else some []
  | x :: valueList => if maxQueSize ≤ valueList.length + 1 then popFront maxQueSize valueList else some (x :: valueList)

def keptBefore (sizeTested : Bool) (maxQueSize : Nat) (valueList : List α) : Option (List α) :=
  if sizeTested = true ∧ maxQueSize = 0 then some valueList else popFront maxQueSize valueList

def StatValue.clearStat (s : StatValue α C) : StatValue α C :=
  { s with numMes := 0, content := c.cleared, valueList := [] }

def StatValue.calculate (s : StatValue α C) : StatValue α C :=
  if s.valueList = [] then s
  else { s with
    value := (c.calculated s.value s.valueList).1
    numMes := s.valueList.length
    content := (c.calculated s.value s.valueList).2 }

def StatValue.send (s : StatValue α C) : StatValue α C :=
  if s.numMes ≠ s.valueList.length then s.calculate c else s

def StatValue.call (s : StatValue α C) : StatCall α → Option (StatValue α C)
  | .addValue x => some { s with valueList := s.valueList ++ [x] }
  | .addValueMax x maxQueSize =>
    (keptBefore c.sizeTested maxQueSize s.valueList).map fun kept => { s with valueList := kept ++ [x] }
  | .clearStat => some (s.clearStat c)
  | .calculate => some (s.calculate c)
  | .send => some (s.send c)

def StatValue.sent : StatValue α C → List (StatCall α) → Option (List (StatValue α C))
  | _, [] => some []
  | s, call :: calls => do
    let s' ← s.call c call
    let rest ← s'.sent calls
    match call with
    | .send => return s' :: rest
    | _ => return rest

/-- The measurements held, those each calculation was of, the last first, and how many the last was of since
the measurements were cleared. -/
structure History (α : Type) where
  held : List α
  calculated : List (List α)
  number : Nat

def History.start : History α := ⟨[], [], 0⟩

def History.calculate (h : History α) : History α :=
  if h.held = [] then h else ⟨h.held, h.held :: h.calculated, h.held.length⟩

/-- The calls as far as the measurements go; a send counts them, and calculates when they are not as many as
at the last calculation. -/
def History.call (sizeTested : Bool) (h : History α) : StatCall α → Option (History α)
  | .addValue x => some { h with held := h.held ++ [x] }
  | .addValueMax x maxQueSize =>
    (keptBefore sizeTested maxQueSize h.held).map fun kept => { h with held := kept ++ [x] }
  | .clearStat => some { h with held := [], number := 0 }
  | .calculate => some h.calculate
  | .send => some (if h.number ≠ h.held.length then h.calculate else h)

def History.sends (sizeTested : Bool) : History α → List (StatCall α) → Option (List (History α))
  | _, [] => some []
  | h, call :: calls => do
    let h' ← h.call sizeTested call
    let rest ← h'.sends sizeTested calls
    match call with
    | .send => return h' :: rest
    | _ => return rest

def shownAfter : List (List α) → Option ℚ
  | [] => none
  | D :: earlier => (c.calculated (shownAfter earlier) D).1

def History.view (h : History α) : StatValue α C :=
  ⟨shownAfter c h.calculated, h.number,
    if h.number = 0 then c.cleared
    else match h.calculated with
      | [] => c.cleared
      | D :: earlier => (c.calculated (shownAfter c earlier) D).2,
    h.held⟩

theorem calculate_view (h : History α) : (h.view c).calculate c = h.calculate.view c := by
  by_cases empty : h.held = []
  · simp [StatValue.calculate, History.calculate, History.view, empty]
  · simp [StatValue.calculate, History.calculate, History.view, empty, shownAfter]

theorem call_view (h : History α) (call : StatCall α) :
    (h.view c).call c call = (h.call c.sizeTested call).map (History.view c) := by
  cases call with
  | addValue x => rfl
  | addValueMax x maxQueSize =>
    change (keptBefore c.sizeTested maxQueSize h.held).map _ = ((keptBefore c.sizeTested maxQueSize h.held).map _).map _
    rw [Option.map_map]
    rfl
  | clearStat => rfl
  | calculate => exact congrArg some (calculate_view c h)
  | send =>
    simp only [StatValue.call, StatValue.send, History.call, Option.map_some, Option.some.injEq]
    by_cases counted : h.number = h.held.length
    · rw [if_neg (by simpa [History.view] using counted), if_neg (by simpa using counted)]
    · rw [if_pos (by simpa [History.view] using counted), if_pos counted, calculate_view]

theorem sent_view (h : History α) (calls : List (StatCall α)) :
    (h.view c).sent c calls = (h.sends c.sizeTested calls).map (List.map (History.view c)) := by
  induction calls generalizing h with
  | nil => rfl
  | cons call calls ih =>
    simp only [StatValue.sent, History.sends, call_view]
    cases hcall : h.call c.sizeTested call with
    | none => rfl
    | some h' =>
      simp only [Option.map_some, Option.bind_eq_bind, Option.bind_some, ih]
      cases hrest : h'.sends c.sizeTested calls with
      | none => rfl
      | some hs => cases call <;> rfl

/-- What holds of each history: a calculation is of measurements, and its number is theirs. -/
structure History.Counts (h : History α) : Prop where
  none_ : h.held = [] → h.number = 0
  some_ : ∀ D ∈ h.calculated, D ≠ []
  last : h.number ≠ 0 → ∃ D earlier, h.calculated = D :: earlier ∧ h.number = D.length

theorem History.start_counts : (History.start : History α).Counts :=
  ⟨fun _ => rfl, by simp [History.start], fun h => (h rfl).elim⟩

theorem History.Counts.calculate {h : History α} (counts : h.Counts) : h.calculate.Counts := by
  by_cases empty : h.held = []
  · rwa [History.calculate, if_pos empty]
  · rw [History.calculate, if_neg empty]
    refine ⟨fun h' => (empty h').elim, ?_, fun _ => ⟨_, _, rfl, rfl⟩⟩
    intro D hD
    rcases List.mem_cons.mp hD with rfl | hD
    · exact empty
    · exact counts.some_ D hD

theorem History.Counts.call {sizeTested : Bool} {h h' : History α} (counts : h.Counts) {call : StatCall α}
    (hcall : h.call sizeTested call = some h') : h'.Counts := by
  cases call with
  | addValue x =>
    obtain rfl := Option.some.inj hcall
    exact ⟨fun empty => by simp at empty, counts.some_, counts.last⟩
  | addValueMax x maxQueSize =>
    obtain ⟨kept, -, rfl⟩ := Option.map_eq_some_iff.mp hcall
    exact ⟨fun empty => by simp at empty, counts.some_, counts.last⟩
  | clearStat =>
    obtain rfl := Option.some.inj hcall
    exact ⟨fun _ => rfl, counts.some_, fun h' => (h' rfl).elim⟩
  | calculate =>
    obtain rfl := Option.some.inj hcall
    exact counts.calculate
  | send =>
    obtain rfl := Option.some.inj hcall
    split
    · exact counts.calculate
    · exact counts

theorem History.sends_counted {sizeTested : Bool} {h : History α} (counts : h.Counts) {calls : List (StatCall α)}
    {hs : List (History α)} (sends : h.sends sizeTested calls = some hs) :
    ∀ h' ∈ hs, h'.Counts ∧ h'.number = h'.held.length := by
  induction calls generalizing h hs with
  | nil =>
    obtain rfl := Option.some.inj sends
    simp
  | cons call calls ih =>
    simp only [History.sends, Option.bind_eq_bind, Option.bind_eq_some_iff] at sends
    obtain ⟨h₁, hcall, rest, hrest, sends⟩ := sends
    have counts₁ := counts.call hcall
    have after := ih counts₁ hrest
    cases call with
    | send =>
      obtain rfl := Option.some.inj sends
      intro h' hh'
      rcases List.mem_cons.mp hh' with rfl | hh'
      · refine ⟨counts₁, ?_⟩
        obtain rfl := Option.some.inj hcall
        by_cases counted : h.number = h.held.length
        · rw [if_neg (by simpa using counted)]
          exact counted
        · rw [if_pos counted]
          by_cases empty : h.held = []
          · simp [History.calculate, empty, counts.none_ empty]
          · simp [History.calculate, empty]
      · exact after h' hh'
    | addValue x =>
      obtain rfl := Option.some.inj sends
      exact after
    | addValueMax x maxQueSize =>
      obtain rfl := Option.some.inj sends
      exact after
    | clearStat =>
      obtain rfl := Option.some.inj sends
      exact after
    | calculate =>
      obtain rfl := Option.some.inj sends
      exact after

theorem displayed_displayed (deg : Bool) (x : ℚ) : displayed deg (displayed deg x) = displayed deg x := by
  cases deg with
  | false => rfl
  | true =>
    have from_ : 0 ≤ ln_range_degrees x := by
      have := Int.floor_le (x / 360)
      simp only [ln_range_degrees]
      linarith
    have below : ln_range_degrees x < 360 := by
      have := Int.lt_floor_add_one (x / 360)
      simp only [ln_range_degrees]
      linarith
    have wrapped : ∀ (y : ℚ) (k : ℤ), 0 ≤ y → y < 360 → ln_range_degrees (y + 360 * k) = y := by
      intro y k from_ below
      have floor : ⌊(y + 360 * k) / 360⌋ = k := by
        rw [Int.floor_eq_iff]
        constructor <;> linarith
      rw [ln_range_degrees, floor]
      ring
    by_cases over_ : 180 < ln_range_degrees x
    · have back := wrapped (ln_range_degrees x) (-1) from_ below
      have same : ln_range_degrees (ln_range_degrees x - 360) = ln_range_degrees x := by
        rw [← back]
        congr 1
        rw [back]
        push_cast
        ring
      simp [displayed, over_, same]
    · have same := wrapped (ln_range_degrees x) 0 from_ below
      have same : ln_range_degrees (ln_range_degrees x) = ln_range_degrees x := by simpa using same
      simp [displayed, over_, same]

theorem setValueDouble_eq (deg : Bool) {value : Option ℚ} (shown : ∀ v ∈ value, displayed deg v = v) (x : ℚ) :
    setValueDouble deg value x = some (displayed deg x) := by
  by_cases same : value = some x
  · rw [setValueDouble, if_neg (by simpa using same), shown x same, same]
  · rw [setValueDouble, if_pos same]

theorem statLoop_eq (value : Option ℚ) (l : List ℚ) (sum : ℚ) (stdev : Option ℚ) :
    statLoop value l (sum, stdev) =
      (sum + l.sum, if l = [] then stdev else do
        let s ← stdev
        let v ← value
        return s + (l.map fun x => (x - v) ^ 2).sum) := by
  induction l generalizing sum stdev with
  | nil => simp [statLoop]
  | cons x l ih =>
    rw [statLoop, ih, if_neg (List.cons_ne_nil x l)]
    by_cases empty : l = []
    · subst empty
      cases stdev <;> cases value <;> simp [addSquare, pow_two]
    · rw [if_neg empty]
      cases stdev <;> cases value <;> simp [addSquare, pow_two, add_assoc]

theorem stat_calculated (deg : Bool) {value : Option ℚ} (shown : ∀ v ∈ value, displayed deg v = v) {D : List ℚ}
    (some_ : D ≠ []) :
    ∃ mode, IsMedian D mode ∧ (ValueDoubleStat deg).calculated value D =
      (some (displayed deg (mean D)), ⟨mode, D.min?, D.max?, value.map fun v => meanSquare v D⟩) := by
  have perm := List.mergeSort_perm D fun a b => decide (a ≤ b)
  have ordered : (D.mergeSort fun a b => decide (a ≤ b)).Pairwise (· ≤ ·) := by
    have : (D.mergeSort fun a b => decide (a ≤ b)).Pairwise fun a b => decide (a ≤ b) = true := List.pairwise_mergeSort
      (by intro a b c; simpa using le_trans) (by intro a b; simpa using le_total a b) D
    simpa using this
  refine ⟨middle (D.mergeSort fun a b => decide (a ≤ b)), ⟨_, perm, ordered, rfl⟩, ?_⟩
  have not_nil : (D.mergeSort fun a b => decide (a ≤ b)) ≠ [] := by
    intro nil
    rw [nil] at perm
    exact some_ perm.nil_eq.symm
  have squares : ∀ v, ((D.mergeSort fun a b => decide (a ≤ b)).map fun x => (x - v) ^ 2).sum =
      (D.map fun x => (x - v) ^ 2).sum := fun v => (perm.map _).sum_eq
  simp only [ValueDoubleStat, ValueDoubleStat.calculated, statLoop_eq, if_neg not_nil, zero_add, perm.sum_eq, squares,
    head_ordered perm ordered, last_ordered perm ordered]
  rw [← mean, setValueDouble_eq deg shown]
  cases value <;> simp [meanSquare]

theorem sumLoop_eq (l : List (ℚ × ℚ)) (sum sum2 : ℚ) :
    sumLoop l (sum, sum2) = (sum + (l.map Prod.fst).sum, sum2 + (l.map Prod.snd).sum) := by
  induction l generalizing sum sum2 with
  | nil => simp [sumLoop]
  | cons p l ih => simp [sumLoop, ih, add_assoc]

theorem trendLoop_eq (value : Option ℚ) (time : ℚ) (l : List (ℚ × ℚ)) (acc : TrendSums) :
    trendLoop value time l acc =
      { stdev := (statLoop value (l.map Prod.fst) (0, acc.stdev)).2
        sx := acc.sx + (l.map fun p => p.2 - time).sum
        alpha := acc.alpha + trend time l
        alpha2 := acc.alpha2 + spread time l } := by
  induction l generalizing acc with
  | nil => simp [trendLoop, statLoop, trend, spread]
  | cons p l ih =>
    have from_zero : ∀ x stdev, (statLoop value (l.map Prod.fst) (x, stdev)).2 =
        (statLoop value (l.map Prod.fst) (0, stdev)).2 := by
      intro x stdev
      rw [statLoop_eq, statLoop_eq]
    rw [trendLoop, ih]
    simp only [List.map_cons, statLoop, from_zero (0 + p.1), List.sum_cons, trend, spread, TrendSums.mk.injEq,
      true_and]
    exact ⟨by ring, by ring, by ring⟩

theorem pairLe_sorted (D : List (ℚ × ℚ)) : ((D.mergeSort pairLe).map Prod.fst).Pairwise (· ≤ ·) := by
  have ordered : (D.mergeSort pairLe).Pairwise fun a b => pairLe a b = true := List.pairwise_mergeSort
    (by
      rintro ⟨a, a'⟩ ⟨b, b'⟩ ⟨c, c'⟩
      simp only [pairLe, Bool.or_eq_true, decide_eq_true_eq, Bool.and_eq_true]
      rintro (h | ⟨rfl, h⟩) (g | ⟨rfl, g⟩)
      · exact .inl (h.trans g)
      · exact .inl h
      · exact .inl g
      · exact .inr ⟨rfl, h.trans g⟩)
    (by
      rintro ⟨a, a'⟩ ⟨b, b'⟩
      simp only [pairLe, Bool.or_eq_true, decide_eq_true_eq, Bool.and_eq_true]
      rcases lt_trichotomy a b with h | rfl | h
      · exact .inl (.inl h)
      · rcases le_total a' b' with h | h
        · exact .inl (.inr ⟨rfl, h⟩)
        · exact .inr (.inr ⟨rfl, h⟩)
      · exact .inr (.inl h)) D
  rw [List.pairwise_map]
  apply ordered.imp
  intro p q h
  simp only [pairLe, Bool.or_eq_true, decide_eq_true_eq, Bool.and_eq_true] at h
  rcases h with h | h
  · exact h.le
  · exact h.1.le

theorem timeserie_calculated (deg : Bool) {value : Option ℚ} (shown : ∀ v ∈ value, displayed deg v = v)
    {D : List (ℚ × ℚ)} (some_ : D ≠ []) :
    ∃ mode, IsMedian (D.map Prod.fst) mode ∧ (ValueDoubleTimeserie deg).calculated value D =
      (some (displayed deg (meanValue D)),
        { mode := mode
          min := (D.map Prod.fst).min?
          max := (D.map Prod.fst).max?
          stdev2 := some (meanSquare (displayed deg (meanValue D)) (D.map Prod.fst))
          beta := quotient (trend (meanTime D) D) (spread (meanTime D) D)
          alpha := (quotient (trend (meanTime D) D) (spread (meanTime D) D)).map fun b =>
            meanValue D - b * trend (meanTime D) D / D.length }) := by
  have perm := List.mergeSort_perm D pairLe
  have perm_values := perm.map Prod.fst
  have ordered := pairLe_sorted D
  refine ⟨middle ((D.mergeSort pairLe).map Prod.fst), ⟨_, perm_values, ordered, rfl⟩, ?_⟩
  have not_nil : (D.mergeSort pairLe).map Prod.fst ≠ [] := by
    intro nil
    rw [nil] at perm_values
    exact some_ (List.map_eq_nil_iff.mp perm_values.nil_eq.symm)
  have time_eq : (D.map Prod.snd).sum / D.length = meanTime D := by simp [meanTime, mean]
  have value_eq : (D.map Prod.fst).sum / D.length = meanValue D := by simp [meanValue, mean]
  have deviations : ((D.mergeSort pairLe).map fun p => p.2 - meanTime D).sum = 0 := by
    rw [(perm.map _).sum_eq, sum_deviations_mean]
  have trend_eq : trend (meanTime D) (D.mergeSort pairLe) = trend (meanTime D) D := (perm.map _).sum_eq
  have spread_eq : spread (meanTime D) (D.mergeSort pairLe) = spread (meanTime D) D := (perm.map _).sum_eq
  have squares : ∀ v, (((D.mergeSort pairLe).map Prod.fst).map fun x => (x - v) ^ 2).sum =
      ((D.map Prod.fst).map fun x => (x - v) ^ 2).sum := fun v => (perm_values.map _).sum_eq
  simp only [ValueDoubleTimeserie, ValueDoubleTimeserie.calculated, sumLoop_eq, trendLoop_eq, statLoop_eq, if_neg not_nil,
    zero_add, perm_values.sum_eq, (perm.map Prod.snd).sum_eq, squares, time_eq, value_eq, deviations, trend_eq, spread_eq,
    head_ordered perm_values ordered, last_ordered perm_values ordered, setValueDouble_eq deg shown, zero_mul, zero_div,
    sub_zero]
  simp [meanSquare, sub_div, value_eq]

structure Described (V : List ℚ) (value : Option ℚ) (numMes : Nat) (content : StatContent) : Prop where
  number : numMes = V.length
  average : value = if V = [] then none else some (mean V)
  least : content.min = V.min?
  greatest : content.max = V.max?
  median : IsMedian V content.mode
  deviation : content.stdev2 = if V = [] then none else some (meanSquare (mean V) V)

def StatValue.Describes (s : StatValue ℚ StatContent) : Prop := Described s.valueList s.value s.numMes s.content

def Differ (V : List (ℚ × ℚ)) : Prop := ∃ p ∈ V, ∃ q ∈ V, p.2 ≠ q.2

def StatValue.DescribesTrend (s : StatValue (ℚ × ℚ) TimeserieContent) : Prop :=
  Described (s.valueList.map Prod.fst) s.value s.numMes s.content.toStatContent ∧
    ∃ a b, s.content.alpha = some a ∧ s.content.beta = some b ∧ LeastSquares (meanTime s.valueList) a b s.valueList

def Alike (D V : List ℚ) : Prop := D.min? = V.min? ∧ D.max? = V.max? ∧ ∃ m, IsMedian D m ∧ IsMedian V m

/-- Of the last two lists the statistics were calculated of: the last is like the one held, and the mean shown
before it does not enter its deviation. -/
def Steady (deg : Bool) (h : History ℚ) : Prop :=
  (h.held = [] → h.calculated = []) ∧
    (h.held ≠ [] → ∃ D before earlier, h.calculated = D :: before :: earlier ∧ Alike D h.held ∧
      displayed deg (mean D) = mean h.held ∧
      meanSquare (mean D) D + (mean D - displayed deg (mean before)) ^ 2 = meanSquare (mean h.held) h.held)

def slope (V : List (ℚ × ℚ)) : ℚ := trend (meanTime V) V / spread (meanTime V) V

def TrendSteady (deg : Bool) (h : History (ℚ × ℚ)) : Prop :=
  Differ h.held → ∃ D earlier, h.calculated = D :: earlier ∧ Alike (D.map Prod.fst) (h.held.map Prod.fst) ∧
    displayed deg (meanValue D) = meanValue h.held ∧
    meanSquare (meanValue D) (D.map Prod.fst) + (meanValue D - displayed deg (meanValue D)) ^ 2 =
      meanSquare (meanValue h.held) (h.held.map Prod.fst) ∧
    Differ D ∧ slope D = slope h.held ∧ meanValue D - slope D * trend (meanTime D) D / D.length = meanValue h.held

theorem shownAfter_stat (deg : Bool) {calculated : List (List ℚ)} (some_ : ∀ D ∈ calculated, D ≠ []) :
    shownAfter (ValueDoubleStat deg) calculated = calculated.head?.map fun D => displayed deg (mean D) := by
  induction calculated with
  | nil => rfl
  | cons D earlier ih =>
    have before := ih fun D' hD => some_ D' (by simp [hD])
    have shown : ∀ v ∈ shownAfter (ValueDoubleStat deg) earlier, displayed deg v = v := by
      intro v hv
      rw [before] at hv
      obtain ⟨D', -, rfl⟩ := Option.map_eq_some_iff.mp hv
      exact displayed_displayed deg _
    obtain ⟨mode, -, eq⟩ := stat_calculated deg shown (some_ D (by simp))
    rw [shownAfter, eq]
    rfl

theorem shownAfter_timeserie (deg : Bool) {calculated : List (List (ℚ × ℚ))} (some_ : ∀ D ∈ calculated, D ≠ []) :
    shownAfter (ValueDoubleTimeserie deg) calculated = calculated.head?.map fun D => displayed deg (meanValue D) := by
  induction calculated with
  | nil => rfl
  | cons D earlier ih =>
    have before := ih fun D' hD => some_ D' (by simp [hD])
    have shown : ∀ v ∈ shownAfter (ValueDoubleTimeserie deg) earlier, displayed deg v = v := by
      intro v hv
      rw [before] at hv
      obtain ⟨D', -, rfl⟩ := Option.map_eq_some_iff.mp hv
      exact displayed_displayed deg _
    obtain ⟨mode, -, eq⟩ := timeserie_calculated deg shown (some_ D (by simp))
    rw [shownAfter, eq]
    rfl

theorem isMedian_nil {m : Option ℚ} : IsMedian [] m ↔ m = none := by
  constructor
  · rintro ⟨s, perm, -, rfl⟩
    obtain rfl := perm.eq_nil
    rfl
  · rintro rfl
    exact ⟨[], List.Perm.nil, List.Pairwise.nil, rfl⟩

theorem isMedian_iff {D V : List ℚ} {m : Option ℚ} (median : IsMedian D m) :
    IsMedian V m ↔ ∃ m', IsMedian D m' ∧ IsMedian V m' := by
  constructor
  · intro h
    exact ⟨m, median, h⟩
  · rintro ⟨m', hD, hV⟩
    rwa [median.unique hD]

theorem stat_describes (deg : Bool) {h : History ℚ} (counts : h.Counts) (counted : h.number = h.held.length) :
    (h.view (ValueDoubleStat deg)).Describes ↔ Steady deg h := by
  by_cases empty : h.held = []
  · have number := counts.none_ empty
    have view : h.view (ValueDoubleStat deg) =
        ⟨h.calculated.head?.map fun D => displayed deg (mean D), 0, ValueDoubleStat.noContent, []⟩ := by
      simp only [History.view, number, if_true, shownAfter_stat deg counts.some_, empty]
      rfl
    rw [view]
    constructor
    · intro described
      refine ⟨fun _ => ?_, fun h' => (h' empty).elim⟩
      have none_ := described.average
      simpa using none_
    · intro steady
      rw [steady.1 empty]
      exact ⟨rfl, rfl, rfl, rfl, isMedian_nil.mpr rfl, rfl⟩
  · obtain ⟨D, earlier, calculated, length_eq⟩ := counts.last (by rw [counted]; simpa using empty)
    have some_ := counts.some_
    rw [calculated] at some_
    have before := shownAfter_stat deg fun D' (hD : D' ∈ earlier) => some_ D' (by simp [hD])
    have shown : ∀ v ∈ shownAfter (ValueDoubleStat deg) earlier, displayed deg v = v := by
      intro v hv
      rw [before] at hv
      obtain ⟨D', -, rfl⟩ := Option.map_eq_some_iff.mp hv
      exact displayed_displayed deg _
    obtain ⟨mode, median, eq⟩ := stat_calculated deg shown (some_ D (by simp))
    have not_zero : h.number ≠ 0 := by
      rw [counted]
      simpa using empty
    have view : h.view (ValueDoubleStat deg) =
        ⟨some (displayed deg (mean D)), h.number, ⟨mode, D.min?, D.max?,
          (shownAfter (ValueDoubleStat deg) earlier).map fun v => meanSquare v D⟩, h.held⟩ := by
      simp only [History.view, calculated, if_neg not_zero, shownAfter, eq]
    have deviation : ∀ v, meanSquare v D = meanSquare (mean D) D + (mean D - v) ^ 2 :=
      fun v => meanSquare_eq v (some_ D (by simp))
    rw [view, before]
    constructor
    · intro described
      refine ⟨fun h' => (empty h').elim, fun _ => ?_⟩
      have average := described.average
      have squares := described.deviation
      rw [if_neg empty] at average squares
      obtain ⟨v, hv, eq_squares⟩ := Option.map_eq_some_iff.mp squares
      obtain ⟨P, hP, rfl⟩ := Option.map_eq_some_iff.mp hv
      obtain ⟨rest, rfl⟩ := List.head?_eq_some_iff.mp hP
      rw [deviation] at eq_squares
      exact ⟨D, P, rest, calculated,
        ⟨described.least, described.greatest, (isMedian_iff median).mp described.median⟩, Option.some.inj average, eq_squares⟩
    · intro steady
      obtain ⟨D', P, rest, calculated', ⟨least, greatest, medians⟩, average, squares⟩ := steady.2 empty
      rw [calculated] at calculated'
      obtain ⟨rfl, rfl⟩ := List.cons.inj calculated'
      refine ⟨counted, ?_, least, greatest, (isMedian_iff median).mpr medians, ?_⟩
      · change _ = if h.held = [] then none else some (mean h.held)
        rw [if_neg empty, ← average]
      · change _ = if h.held = [] then none else some (meanSquare (mean h.held) h.held)
        rw [if_neg empty, ← squares, ← deviation]
        rfl

theorem timeserie_describes (deg : Bool) {h : History (ℚ × ℚ)} (counts : h.Counts)
    (counted : h.number = h.held.length) :
    (Differ h.held → (h.view (ValueDoubleTimeserie deg)).DescribesTrend) ↔ TrendSteady deg h := by
  apply imp_congr_right
  intro differ
  have empty : h.held ≠ [] := by
    intro empty
    obtain ⟨p, hp, -⟩ := differ
    simp [empty] at hp
  have empty_values : h.held.map Prod.fst ≠ [] := by simpa using empty
  have not_zero : h.number ≠ 0 := by
    rw [counted]
    simpa using empty
  obtain ⟨D, earlier, calculated, length_eq⟩ := counts.last not_zero
  have some_ := counts.some_
  rw [calculated] at some_
  have before := shownAfter_timeserie deg fun D' (hD : D' ∈ earlier) => some_ D' (by simp [hD])
  have shown : ∀ v ∈ shownAfter (ValueDoubleTimeserie deg) earlier, displayed deg v = v := by
    intro v hv
    rw [before] at hv
    obtain ⟨D', -, rfl⟩ := Option.map_eq_some_iff.mp hv
    exact displayed_displayed deg _
  obtain ⟨mode, median, eq⟩ := timeserie_calculated deg shown (some_ D (by simp))
  have deviation : ∀ v, meanSquare v (D.map Prod.fst) =
      meanSquare (meanValue D) (D.map Prod.fst) + (meanValue D - v) ^ 2 :=
    fun v => meanSquare_eq v (by simpa using some_ D (by simp))
  have pos := (spread_pos_iff _).mpr differ
  have view : h.view (ValueDoubleTimeserie deg) =
      ⟨((ValueDoubleTimeserie deg).calculated (shownAfter (ValueDoubleTimeserie deg) earlier) D).1, h.number,
        ((ValueDoubleTimeserie deg).calculated (shownAfter (ValueDoubleTimeserie deg) earlier) D).2, h.held⟩ := by
    simp only [History.view, calculated, if_neg not_zero, shownAfter]
  have average_eq : mean (h.held.map Prod.fst) = meanValue h.held := rfl
  rw [view, eq]
  constructor
  · rintro ⟨described, a, b, alpha, beta, least_squares⟩
    obtain ⟨rfl, rfl⟩ := (leastSquares_iff pos a b).mp least_squares
    have average := described.average
    have squares := described.deviation
    rw [if_neg empty_values] at average squares
    have spreads : spread (meanTime D) D ≠ 0 := by
      intro zero
      simp [quotient, zero] at beta
    simp only [quotient, if_neg spreads, Option.map_some, Option.some.injEq] at alpha beta
    rw [Option.some.injEq, deviation, average_eq] at squares
    exact ⟨D, earlier, calculated, ⟨described.least, described.greatest, (isMedian_iff median).mp described.median⟩,
      Option.some.inj average, squares,
      (spread_pos_iff _).mp (lt_of_le_of_ne (spread_nonneg _ _) spreads.symm), beta, alpha⟩
  · rintro ⟨D', rest, calculated', ⟨least, greatest, medians⟩, average, squares, differs, slopes, moved⟩
    rw [calculated] at calculated'
    obtain ⟨rfl, rfl⟩ := List.cons.inj calculated'
    have spreads := ((spread_pos_iff _).mpr differs).ne'
    refine ⟨⟨?_, ?_, least, greatest, (isMedian_iff median).mpr medians, ?_⟩, meanValue h.held, slope h.held, ?_, ?_,
      (leastSquares_iff pos _ _).mpr ⟨rfl, rfl⟩⟩
    · simpa using counted
    · change _ = if h.held.map Prod.fst = [] then none else some (mean (h.held.map Prod.fst))
      rw [if_neg empty_values, average_eq, ← average]
    · change _ = if h.held.map Prod.fst = [] then none else some (meanSquare (mean (h.held.map Prod.fst)) _)
      rw [if_neg empty_values, average_eq, ← squares, ← deviation]
    · simp only [quotient, if_neg spreads, Option.map_some, Option.some.injEq]
      exact moved
    · simp only [quotient, if_neg spreads, Option.some.injEq]
      exact slopes

def SentAll (P : StatValue α C → Prop) (calls : List (StatCall α)) : Prop :=
  ∃ sent, (StatValue.init c).sent c calls = some sent ∧ ∀ s ∈ sent, P s

def SendsAll (sizeTested : Bool) (P : History α → Prop) (calls : List (StatCall α)) : Prop :=
  ∃ sends, History.start.sends sizeTested calls = some sends ∧ ∀ h ∈ sends, P h

theorem sentAll_iff (P : StatValue α C → Prop) (Q : History α → Prop)
    (same : ∀ h : History α, h.Counts → h.number = h.held.length → (P (h.view c) ↔ Q h)) (calls : List (StatCall α)) :
    SentAll c P calls ↔ SendsAll c.sizeTested Q calls := by
  have start : (StatValue.init c) = History.start.view c := rfl
  have each : ∀ {hs : List (History α)}, History.start.sends c.sizeTested calls = some hs →
      ((∀ s ∈ hs.map (History.view c), P s) ↔ ∀ h ∈ hs, Q h) := by
    intro hs sends
    have counted := History.sends_counted History.start_counts sends
    rw [List.forall_mem_map]
    exact forall₂_congr fun h hh => same h (counted h hh).1 (counted h hh).2
  rw [SentAll, SendsAll, start, sent_view]
  constructor
  · rintro ⟨sent, eq, all⟩
    obtain ⟨hs, sends, rfl⟩ := Option.map_eq_some_iff.mp eq
    exact ⟨hs, sends, (each sends).mp all⟩
  · rintro ⟨hs, sends, all⟩
    exact ⟨_, by rw [sends]; rfl, (each sends).mpr all⟩

/-- What is sent describes the measurements when the last two calculations were steady. -/
theorem statistics_described (deg : Bool) :
    (∀ calls, SentAll (ValueDoubleStat deg) StatValue.Describes calls ↔ SendsAll true (Steady deg) calls) ∧
      ∀ calls, SentAll (ValueDoubleTimeserie deg) (fun s => Differ s.valueList → s.DescribesTrend) calls ↔
        SendsAll false (TrendSteady deg) calls :=
  ⟨sentAll_iff (ValueDoubleStat deg) _ _ fun _ counts counted => stat_describes deg counts counted,
    sentAll_iff (ValueDoubleTimeserie deg) _ _ fun _ counts counted => timeserie_describes deg counts counted⟩

/-- The first deviation is from no number. -/
theorem first_deviation_unknown : ¬ ∀ deg,
    (∀ calls, SentAll (ValueDoubleStat deg) StatValue.Describes calls) ∧
      ∀ calls, SentAll (ValueDoubleTimeserie deg) (fun s => Differ s.valueList → s.DescribesTrend) calls := by
  intro all
  have sent := (all false).1 [.addValue 1, .addValue 3, .send]
  obtain ⟨sends, eq, steady⟩ := (sentAll_iff (ValueDoubleStat false) _ _
    (fun _ counts counted => stat_describes false counts counted) _).mp sent
  have once : History.start.sends true [.addValue 1, .addValue 3, .send] =
      some [(⟨[1, 3], [[1, 3]], 2⟩ : History ℚ)] := rfl
  obtain rfl := Option.some.inj (once.symm.trans eq)
  have last := steady _ (List.mem_singleton.mpr rfl)
  obtain ⟨D, before, earlier, two, -⟩ := last.2 (List.cons_ne_nil 1 [3])
  cases two

end Rts2.Values
