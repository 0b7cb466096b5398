import Rts2.Teld.GemCounts

/-! The counts of a target of a german equatorial mount: the position and the flipped one are normalized, moved by the
pointing model and checked, then one of them is chosen. -/
namespace Rts2.Teld.Gem

variable {K : Type} [Field K] [LinearOrder K] [FloorRing K]

@[simp] def literal (n : ℕ) : K := n

omit [LinearOrder K] [FloorRing K] in
theorem literal_ofNat (n : ℕ) [n.AtLeastTwo] : (literal (OfNat.ofNat n) : K) = OfNat.ofNat n := Nat.cast_ofNat

def ln_range_degrees (angle : K) : K := angle - literal 360 * ⌊angle / literal 360⌋

def fmod (x y : K) : K := x - y * int32_t (x / y)

structure Change (K : Type) where
  ra : K
  dec : K

/-- A call of sky2counts: the target behind the corrections, where the mount is, how it may flip, and the code it
calls. The pointing model can depend on the flip and on the counts. -/
structure Call (K : Type) where
  ls : K
  ra : K
  dec : K
  alt : K
  ac : ℤ
  dc : ℤ
  used_flipping : ℤ
  haMargin : K
  flip_move_start : ℤ
  flip_longest_path : ℤ
  haZeroPos : ℤ
  ra_ticks : ℤ
  updateLimits : ℤ
  applyModel : Bool → ℤ → ℤ → Change K
  counts2hrz : ℤ → ℤ → Hrz K

/-- What a call returns and leaves; the counts are not written where it fails. -/
structure Answer where
  ret : ℤ
  use_flipped : Bool
  ac : ℤ
  dc : ℤ
  flip_longest_path : ℤ

namespace Mount

variable (m : Mount K) (c : Call K)

def hourAngle : K :=
  let ha := ln_range_degrees (c.ls - c.ra)
  if literal 180 < ha then ha - literal 360 else ha

def targetAc : ℤ := int32_t ((hourAngle c - m.ha.zero) * m.ha.cpd)

def targetDc : ℤ := int32_t ((c.dec - m.dec.zero) * m.dec.cpd)

def countsOf (flipped : Bool) : ℤ × ℤ :=
  if flipped then
    (m.targetAc c - int32_t (|m.ha.cpd * literal 360| / literal 2),
      m.targetDc c + int32_t ((literal 90 - c.dec) * literal 2 * m.dec.cpd))
  else (m.targetAc c, m.targetDc c)

variable (counted : m.Counted)

def normalized (flipped : Bool) : Normalized :=
  m.normalizeCountValues c.counts2hrz counted c.ac c.dc (m.countsOf c flipped).1 (m.countsOf c flipped).2

def moved (flipped : Bool) : ℤ × ℤ :=
  let t := m.normalized c counted flipped
  if t.ret = 0 then
    let model_change := c.applyModel flipped t.t_ac t.t_dc
    (t.t_ac + int32_t (model_change.ra * m.ha.cpd), t.t_dc - int32_t (model_change.dec * m.dec.cpd))
  else (t.t_ac, t.t_dc)

def outside (counts : ℤ × ℤ) : Bool :=
  (counts.2 < m.dec.min || m.dec.max < counts.2) || (counts.1 < m.ha.min || m.ha.max < counts.1)

def getHACWDAngle (ha_count : ℤ) : K :=
  let haCpdSign : K := if 0 < m.ha.cpd then 1 else -1
  if c.haZeroPos = 1 then -literal 360 * ((ha_count + (m.ha.zero + haCpdSign * literal 90) * m.ha.cpd) / c.ra_ticks)
  else literal 360 * ((ha_count + (m.ha.zero - haCpdSign * literal 90) * m.ha.cpd) / c.ra_ticks)

def counterweight (ha_count : ℤ) : K :=
  let diff := |fmod (m.getHACWDAngle c ha_count) (literal 360)|
  if literal 180 < diff then literal 360 - diff else diff

def wayTo (counts : ℤ × ℤ) : ℤ := max |c.ac - counts.1| |c.dc - counts.2|

def chooseFlip : Bool × ℤ :=
  let n := m.moved c counted false
  let f := m.moved c counted true
  match c.used_flipping with
  | 0 => (wayTo c f < wayTo c n, c.flip_longest_path)
  | 1 => (c.flip_move_start = 1, c.flip_longest_path)
  | 2 => (c.flip_move_start = 0, c.flip_longest_path)
  | 3 => (false, c.flip_longest_path)
  | 4 => (true, c.flip_longest_path)
  | 5 =>
    if c.flip_longest_path = 0 then (false, c.flip_longest_path)
    else if c.flip_longest_path = 1 then (true, c.flip_longest_path)
    else if wayTo c n < wayTo c f then (true, 1)
    else (false, 0)
  | 6 => (m.counterweight c f.1 < m.counterweight c n.1, c.flip_longest_path)
  | 7 => (m.counterweight c n.1 < m.counterweight c f.1, c.flip_longest_path)
  | _ => (false, c.flip_longest_path)

def closeToMargin (use_flipped : Bool) : Bool :=
  let t_margin : K := (m.moved c counted use_flipped).1
  0 < c.haMargin &&
    if 0 < m.ha.cpd then m.ha.max - c.haMargin * m.ha.cpd < t_margin
    else t_margin < m.ha.min - c.haMargin * m.ha.cpd

def sky2countsCounted : Answer :=
  let failed : Answer := ⟨-1, false, c.ac, c.dc, c.flip_longest_path⟩
  if c.alt < -5 then failed
  else if c.updateLimits ≠ 0 then failed
  else
    let n := m.moved c counted false
    let f := m.moved c counted true
    let ret_n := (m.normalized c counted false).ret
    let ret_n := if (m.normalized c counted false).ret = 0 && m.outside n then -1 else ret_n
    let ret_f := (m.normalized c counted true).ret
    -- also the checks of the flipped position set the result of the other one
    let ret_n := if ret_f = 0 && m.outside f then -1 else ret_n
    if ret_n ≠ 0 && ret_f ≠ 0 then failed
    else
      let (use_flipped, flip_longest_path) :=
        if ret_n ≠ 0 then (true, c.flip_longest_path)
        else if ret_f ≠ 0 then (false, c.flip_longest_path)
        else
          let chosen := m.chooseFlip c counted
          (if m.closeToMargin c counted chosen.1 then !chosen.1 else chosen.1, chosen.2)
      let t := if use_flipped then f else n
      ⟨0, use_flipped, t.1, t.2, flip_longest_path⟩

instance : Decidable m.Counted := inferInstanceAs (Decidable (_ ∧ _))

def sky2counts : Option Answer :=
  if counted : m.Counted then some (m.sky2countsCounted c counted) else none

def Passed (flipped : Bool) : Prop :=
  c.updateLimits = 0 ∧ (m.normalized c counted flipped).ret = 0 ∧ m.outside (m.moved c counted flipped) = false

/-- The counts that are returned are those of the flip that is reported, which passed its checks; for a target that
is not below the horizon the call fails only when neither did. -/
def RightAnswer (a : Answer) : Prop :=
  (a.ret = 0 → (a.ac, a.dc) = m.moved c counted a.use_flipped ∧ m.Passed c counted a.use_flipped ∧
    (m.ha.min ≤ a.ac ∧ a.ac ≤ m.ha.max) ∧ m.dec.min ≤ a.dc ∧ a.dc ≤ m.dec.max) ∧
  (a.ret ≠ 0 → ¬c.alt < -5 → ¬m.Passed c counted false ∧ ¬m.Passed c counted true)

def RightFlip : Prop := ∀ a counted, m.sky2counts c = some a → m.RightAnswer c counted a

def PushedOut : Prop :=
  (m.normalized c counted true).ret = 0 ∧ m.outside (m.moved c counted true) = true

end Mount

omit [Field K] [LinearOrder K] [FloorRing K] in
theorem outside_false {m : Mount K} {counts : ℤ × ℤ} (inside : m.outside counts = false) :
    (m.ha.min ≤ counts.1 ∧ counts.1 ≤ m.ha.max) ∧ m.dec.min ≤ counts.2 ∧ counts.2 ≤ m.dec.max := by
  simp only [Mount.outside, Bool.or_eq_false_iff, decide_eq_false_iff_not, not_lt] at inside
  exact ⟨inside.2, inside.1⟩

section Answers

variable (m : Mount K) (c : Call K) (counted : m.Counted)

theorem right_taken {flipped : Bool} (passed : m.Passed c counted flipped) (longest : ℤ) :
    m.RightAnswer c counted
      ⟨0, flipped, (m.moved c counted flipped).1, (m.moved c counted flipped).2, longest⟩ :=
  ⟨fun _ => ⟨rfl, passed, outside_false passed.2.2⟩, fun failed => absurd rfl failed⟩

theorem right_failed (none_ : ¬c.alt < -5 → ¬m.Passed c counted false ∧ ¬m.Passed c counted true) :
    m.RightAnswer c counted ⟨-1, false, c.ac, c.dc, c.flip_longest_path⟩ :=
  ⟨fun ok => (by simp at ok), fun _ => none_⟩

theorem answer_pushed (above : ¬c.alt < -5) (limits : c.updateLimits = 0) (pushed : m.PushedOut c counted) :
    ¬m.RightAnswer c counted (m.sky2countsCounted c counted) := by
  obtain ⟨accepted, out⟩ := pushed
  have answer : m.sky2countsCounted c counted =
      ⟨0, true, (m.moved c counted true).1, (m.moved c counted true).2, c.flip_longest_path⟩ := by
    simp only [Mount.sky2countsCounted, if_neg above, limits, accepted, out]
    rfl
  rw [answer]
  rintro ⟨taken, -⟩
  obtain ⟨-, ⟨-, -, inside⟩, -⟩ := taken rfl
  exact nomatch inside.symm.trans out

theorem answer_kept (kept : ¬m.PushedOut c counted) :
    m.RightAnswer c counted (m.sky2countsCounted c counted) := by
  unfold Mount.sky2countsCounted
  dsimp only
  split
  · rename_i below
    exact right_failed m c counted fun above => absurd below above
  · split
    · rename_i limits
      exact right_failed m c counted fun _ => ⟨fun passed => limits passed.1, fun passed => limits passed.1⟩
    · rename_i limits
      have known : c.updateLimits = 0 := not_not.mp limits
      have flipped : ((m.normalized c counted true).ret = 0 && m.outside (m.moved c counted true)) = false := by
        by_contra out
        rw [Bool.not_eq_false, Bool.and_eq_true, decide_eq_true_eq] at out
        exact kept out
      simp only [flipped, Bool.false_eq_true, if_false]
      have pass_f : (m.normalized c counted true).ret = 0 → m.Passed c counted true := by
        intro ok
        rw [ok] at flipped
        exact ⟨known, ok, by simpa using flipped⟩
      have pass_n : (if (m.normalized c counted false).ret = 0 && m.outside (m.moved c counted false) then (-1 : ℤ)
          else (m.normalized c counted false).ret) = 0 ↔ m.Passed c counted false := by
        split
        · rename_i out
          rw [Bool.and_eq_true, decide_eq_true_eq] at out
          exact iff_of_false (by decide) fun passed => nomatch passed.2.2.symm.trans out.2
        · rename_i inside
          refine ⟨fun ok => ⟨known, ok, ?_⟩, fun passed => passed.2.1⟩
          simpa [ok] using inside
      generalize (if (m.normalized c counted false).ret = 0 && m.outside (m.moved c counted false) then (-1 : ℤ)
        else (m.normalized c counted false).ret) = ret_n at pass_n ⊢
      split
      · rename_i both
        rw [Bool.and_eq_true, decide_eq_true_eq, decide_eq_true_eq] at both
        exact right_failed m c counted fun _ => ⟨fun passed => both.1 (pass_n.mpr passed), fun passed => both.2 passed.2.1⟩
      · rename_i one
        rw [Bool.and_eq_true, decide_eq_true_eq, decide_eq_true_eq, not_and, not_not] at one
        split
        · rename_i only_f
          exact right_taken m c counted (pass_f (one only_f)) _
        · rename_i ok_n
          have passed_n := pass_n.mp (not_not.mp ok_n)
          split
          · exact right_taken m c counted passed_n _
          · rename_i ok_f
            have passed_f := pass_f (not_not.mp ok_f)
            -- both passed, and any choice between them is right
            generalize (if m.closeToMargin c counted (m.chooseFlip c counted).1 then !(m.chooseFlip c counted).1
              else (m.chooseFlip c counted).1) = use_flipped
            cases use_flipped with
            | false => exact right_taken m c counted passed_n _
            | true => exact right_taken m c counted passed_f _

end Answers

theorem flip_iff (m : Mount K) (c : Call K) :
    m.RightFlip c ↔ c.alt < -5 ∨ c.updateLimits ≠ 0 ∨ ∀ counted, ¬m.PushedOut c counted := by
  constructor
  · intro right
    by_contra other
    simp only [not_or, not_forall, not_not] at other
    obtain ⟨above, limits, counted, pushed⟩ := other
    have answer : m.sky2counts c = some (m.sky2countsCounted c counted) := dif_pos counted
    exact answer_pushed m c counted above limits pushed (right _ counted answer)
  · intro fine a counted answer
    have returned : m.sky2counts c = some (m.sky2countsCounted c counted) := dif_pos counted
    obtain rfl := Option.some.inj (returned.symm.trans answer)
    by_cases pushed : m.PushedOut c counted
    · rcases fine with below | limits | kept
      · have failed : m.sky2countsCounted c counted = ⟨-1, false, c.ac, c.dc, c.flip_longest_path⟩ := if_pos below
        rw [failed]
        exact right_failed m c counted fun above => absurd below above
      · by_cases below : c.alt < -5
        · have failed : m.sky2countsCounted c counted = ⟨-1, false, c.ac, c.dc, c.flip_longest_path⟩ := if_pos below
          rw [failed]
          exact right_failed m c counted fun above => absurd below above
        · have failed : m.sky2countsCounted c counted = ⟨-1, false, c.ac, c.dc, c.flip_longest_path⟩ := by
            simp only [Mount.sky2countsCounted, if_neg below, if_pos limits]
          rw [failed]
          exact right_failed m c counted fun _ => ⟨fun passed => limits passed.1, fun passed => limits passed.1⟩
      · exact absurd pushed (kept counted)
    · exact answer_kept m c counted pushed

/-- A target is right exactly when the model does not move an accepted flipped position outside the limits. -/
theorem sky2counts_right (m : Mount K) (c : Call K) :
    m.RightFlip c ↔ c.alt < -5 ∨ c.updateLimits ≠ 0 ∨ ∀ counted, ¬m.PushedOut c counted := flip_iff m c

theorem normalize_here (m : Mount K) (counts2hrz : ℤ → ℤ → Hrz K) (counted : m.Counted) {ac dc : ℤ}
    (half : 0 ≤ m.ha.half ∧ 0 ≤ m.dec.half) (inside : m.Inside ac) (limits : m.ha.min ≤ ac ∧ ac ≤ m.ha.max)
    (limits' : m.dec.min ≤ dc ∧ dc ≤ m.dec.max) (level : m.goesDown counts2hrz dc ac dc = false) :
    m.normalizeCountValues counts2hrz counted ac dc ac dc = ⟨0, ac, dc, false⟩ := by
  obtain ⟨half_ac, half_dc⟩ := half
  have diff_ac : m.diffAc ac dc ac dc = 0 := by
    simp only [Mount.diffAc, sub_self, Int.zero_tmod]
    rw [if_neg (by omega), if_neg (by omega)]
  have diff_dc : m.diffDc dc dc = 0 := by
    simp only [Mount.diffDc, sub_self, Int.zero_tmod]
    rw [if_neg (by omega), if_neg (by omega)]
  unfold Mount.normalizeCountValues
  simp only [diff_ac, diff_dc, sub_zero, settle_inside inside.1 inside.2, Lib.Turns.stepUp_of_le limits'.1,
    Lib.Turns.stepDown_of_le limits'.2, level]
  simp [not_lt.mpr limits.1, not_lt.mpr limits.2, not_lt.mpr limits'.1, not_lt.mpr limits'.2]

def thousand : Call ℚ where
  ls := 0
  ra := 0
  dec := 0
  alt := 45
  ac := -18000
  dc := 18000
  used_flipping := 0
  haMargin := 0
  flip_move_start := 0
  flip_longest_path := -1
  haZeroPos := 0
  ra_ticks := 36000
  updateLimits := 0
  applyModel flipped _ _ := if flipped then ⟨-1000, 0⟩ else ⟨0, 0⟩
  counts2hrz _ _ := ⟨45, 90⟩

theorem int32_t_intCast (n : ℤ) : int32_t (n : ℚ) = n := by
  rw [int32_t]
  split
  · exact Int.floor_intCast n
  · exact Int.ceil_intCast n

theorem thousand_counts : hundred.countsOf thousand true = (-18000, 18000) := by
  have angle : Mount.hourAngle thousand = 0 := by norm_num [Mount.hourAngle, ln_range_degrees, literal, thousand]
  have ac : hundred.targetAc thousand = 0 := by
    rw [Mount.targetAc, angle, ← int32_t_intCast 0]
    norm_num [hundred]
  have dc : hundred.targetDc thousand = 0 := by
    rw [Mount.targetDc, ← int32_t_intCast 0]
    norm_num [hundred, thousand]
  have half : int32_t (|hundred.ha.cpd * literal 360| / literal 2) = 18000 := by
    rw [← int32_t_intCast 18000]
    norm_num [hundred, literal]
  have pole : int32_t ((literal 90 - thousand.dec) * literal 2 * hundred.dec.cpd) = 18000 := by
    rw [← int32_t_intCast 18000]
    norm_num [hundred, thousand, literal]
  simp only [Mount.countsOf, if_true, ac, dc, half, pole]
  rfl

theorem thousand_stays : hundred.normalized thousand hundred.counted true = ⟨0, -18000, 18000, false⟩ := by
  have half : 0 ≤ hundred.ha.half ∧ 0 ≤ hundred.dec.half := ⟨half_nonneg _, half_nonneg _⟩
  have level : hundred.goesDown thousand.counts2hrz 18000 (-18000) 18000 = false := by simp [Mount.goesDown, thousand]
  rw [Mount.normalized, thousand_counts]
  exact normalize_here hundred.toMount thousand.counts2hrz hundred.counted half ⟨by decide, by decide⟩
    ⟨by decide, by decide⟩ ⟨by decide, by decide⟩ level

theorem pushed_outside : ¬hundred.RightFlip thousand := by
  rw [flip_iff]
  have moved : hundred.moved thousand hundred.counted true = (-118000, 18000) := by
    have change : int32_t ((-1000 : ℚ) * hundred.ha.cpd) = -100000 := by
      rw [← int32_t_intCast (-100000)]
      norm_num [hundred]
    have none_ : int32_t ((0 : ℚ) * hundred.dec.cpd) = 0 := by
      rw [← int32_t_intCast 0]
      norm_num
    have model : thousand.applyModel true (-18000) 18000 = ⟨-1000, 0⟩ := rfl
    simp only [Mount.moved, thousand_stays, if_true, model, change, none_]
    rfl
  rintro (below | limits | kept)
  · exact absurd below (by norm_num [thousand])
  · exact limits rfl
  · refine kept hundred.counted ⟨by rw [thousand_stays], ?_⟩
    rw [moved]
    decide

end Rts2.Teld.Gem
