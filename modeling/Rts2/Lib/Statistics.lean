import Mathlib

/-! Numbers that describe a list of measurements: the mean, the median, the squares of the deviations from a
number, and the line through measurements taken at times that leaves the least squares. -/
namespace Rts2.Lib

universe u

section Order

variable {β : Type u} [LinearOrder β]

theorem head_ordered {s l : List β} (perm : s.Perm l) (ordered : s.Pairwise (· ≤ ·)) : s.head? = l.min? := by
  cases s with
  | nil =>
    obtain rfl := perm.nil_eq
    rfl
  | cons x s =>
    symm
    rw [List.head?_cons, List.min?_eq_some_iff]
    refine ⟨perm.mem_iff.mp (by simp), ?_⟩
    intro y hy
    rcases List.mem_cons.mp (perm.mem_iff.mpr hy) with rfl | hy
    · exact le_rfl
    · exact (List.pairwise_cons.mp ordered).1 y hy

theorem last_ordered {s l : List β} (perm : s.Perm l) (ordered : s.Pairwise (· ≤ ·)) : s.getLast? = l.max? := by
  rcases List.eq_nil_or_concat s with rfl | ⟨s, x, rfl⟩
  · obtain rfl := perm.nil_eq
    rfl
  · symm
    rw [List.concat_eq_append] at perm ordered ⊢
    rw [List.getLast?_concat, List.max?_eq_some_iff]
    refine ⟨perm.mem_iff.mp (by simp), ?_⟩
    intro y hy
    rcases List.mem_append.mp (perm.mem_iff.mpr hy) with hy | hy
    · exact (List.pairwise_append.mp ordered).2.2 y hy x (by simp)
    · rw [List.mem_singleton.mp hy]

end Order

variable {K : Type u} [Field K]

def mean (l : List K) : K := l.sum / l.length

def meanSquare (c : K) (l : List K) : K := (l.map fun x => (x - c) ^ 2).sum / l.length

def middle (l : List K) : Option K :=
  if l.length % 2 = 1 then l[l.length / 2]?
  else do
    let a ← l[l.length / 2 - 1]?
    let b ← l[l.length / 2]?
    return mean [a, b]

variable [LinearOrder K]

def IsMedian (l : List K) (m : Option K) : Prop :=
  ∃ s : List K, s.Perm l ∧ s.Pairwise (· ≤ ·) ∧ m = middle s

theorem IsMedian.unique {l : List K} {m m' : Option K} (h : IsMedian l m) (h' : IsMedian l m') : m = m' := by
  obtain ⟨s, perm, ordered, rfl⟩ := h
  obtain ⟨s', perm', ordered', rfl⟩ := h'
  have same : s = s' := (perm.trans perm'.symm).eq_of_pairwise (fun _ _ _ _ => le_antisymm) ordered ordered'
  rw [same]

variable [IsStrictOrderedRing K]

theorem length_ne_zero {α : Type u} {l : List α} (some_ : l ≠ []) : (l.length : K) ≠ 0 := by
  have := List.length_pos_iff.mpr some_
  positivity

theorem sum_squares (c : K) (l : List K) :
    (l.map fun x => (x - c) ^ 2).sum = (l.map fun x => x ^ 2).sum - 2 * c * l.sum + l.length * c ^ 2 := by
  induction l with
  | nil => simp
  | cons x l ih =>
    simp only [List.map_cons, List.sum_cons, List.length_cons, ih, Nat.cast_add, Nat.cast_one]
    ring

theorem meanSquare_eq (c : K) {l : List K} (some_ : l ≠ []) :
    meanSquare c l = meanSquare (mean l) l + (mean l - c) ^ 2 := by
  have n := length_ne_zero (K := K) some_
  simp only [meanSquare, sum_squares, mean]
  field_simp
  ring

/-- The sum of the squared distances of the measurements from the line, given by its value and slope at the
time c; a measurement is its value and its time. -/
def residual (c a b : K) (l : List (K × K)) : K := (l.map fun p => (p.1 - (a + b * (p.2 - c))) ^ 2).sum

def LeastSquares (c a b : K) (l : List (K × K)) : Prop := ∀ a' b', residual c a b l ≤ residual c a' b' l

def meanTime (l : List (K × K)) : K := mean (l.map Prod.snd)

def meanValue (l : List (K × K)) : K := mean (l.map Prod.fst)

def spread (c : K) (l : List (K × K)) : K := (l.map fun p => (p.2 - c) ^ 2).sum

def trend (c : K) (l : List (K × K)) : K := (l.map fun p => (p.2 - c) * p.1).sum

theorem sum_deviations (c : K) (l : List (K × K)) :
    (l.map fun p => p.2 - c).sum = (l.map Prod.snd).sum - l.length * c := by
  induction l with
  | nil => simp
  | cons p l ih =>
    simp only [List.map_cons, List.sum_cons, List.length_cons, ih, Nat.cast_add, Nat.cast_one]
    ring

theorem sum_deviations_mean (l : List (K × K)) : (l.map fun p => p.2 - meanTime l).sum = 0 := by
  rw [sum_deviations, meanTime, mean, List.length_map]
  rcases eq_or_ne l [] with rfl | some_
  · simp
  · have n := length_ne_zero (K := K) some_
    field_simp
    ring

theorem residual_expand (c a b : K) (l : List (K × K)) :
    residual c a b l = (l.map fun p => p.1 ^ 2).sum - 2 * a * (l.map Prod.fst).sum - 2 * b * trend c l +
      l.length * a ^ 2 + 2 * a * b * (l.map fun p => p.2 - c).sum + b ^ 2 * spread c l := by
  induction l with
  | nil => simp [residual, trend, spread]
  | cons p l ih =>
    simp only [residual, trend, spread, List.map_cons, List.sum_cons, List.length_cons, Nat.cast_add,
      Nat.cast_one] at ih ⊢
    rw [ih]
    ring

theorem spread_nonneg (c : K) (l : List (K × K)) : 0 ≤ spread c l := by
  apply List.sum_nonneg
  intro x hx
  obtain ⟨p, -, rfl⟩ := List.mem_map.mp hx
  exact sq_nonneg _

theorem spread_eq_zero (c : K) (l : List (K × K)) : spread c l = 0 ↔ ∀ p ∈ l, p.2 = c := by
  induction l with
  | nil => simp [spread]
  | cons p l ih =>
    have split : spread c (p :: l) = (p.2 - c) ^ 2 + spread c l := by simp [spread]
    rw [split, add_eq_zero_iff_of_nonneg (sq_nonneg _) (spread_nonneg c l), ih, sq_eq_zero_iff, sub_eq_zero,
      List.forall_mem_cons]

theorem spread_pos {l : List (K × K)} (differ : ∃ p ∈ l, ∃ q ∈ l, p.2 ≠ q.2) (c : K) : 0 < spread c l := by
  apply lt_of_le_of_ne (spread_nonneg c l)
  intro zero
  obtain ⟨p, hp, q, hq, ne⟩ := differ
  have same := (spread_eq_zero c l).mp zero.symm
  exact ne ((same p hp).trans (same q hq).symm)

theorem spread_mean_le (c : K) (l : List (K × K)) : spread (meanTime l) l ≤ spread c l := by
  rcases eq_or_ne l [] with rfl | some_
  · simp [spread]
  · have n := length_ne_zero (K := K) some_
    have apart := meanSquare_eq c (l := l.map Prod.snd) (by simpa using some_)
    simp only [meanSquare, List.map_map, List.length_map] at apart
    field_simp at apart
    have eq : spread c l = spread (meanTime l) l + l.length * (meanTime l - c) ^ 2 := apart
    rw [eq]
    have : 0 ≤ (l.length : K) * (meanTime l - c) ^ 2 := by positivity
    linarith

theorem spread_pos_iff (l : List (K × K)) : 0 < spread (meanTime l) l ↔ ∃ p ∈ l, ∃ q ∈ l, p.2 ≠ q.2 := by
  constructor
  · intro pos
    by_contra same
    push Not at same
    cases l with
    | nil => simp [spread] at pos
    | cons p l =>
      have zero : spread p.2 (p :: l) = 0 := (spread_eq_zero _ _).mpr fun q hq => same q hq p (by simp)
      have le := spread_mean_le p.2 (p :: l)
      linarith
  · intro differ
    exact spread_pos differ _

theorem residual_eq {l : List (K × K)} (pos : 0 < spread (meanTime l) l) (a b : K) :
    residual (meanTime l) a b l =
      residual (meanTime l) (meanValue l) (trend (meanTime l) l / spread (meanTime l) l) l +
        l.length * (a - meanValue l) ^ 2 +
        spread (meanTime l) l * (b - trend (meanTime l) l / spread (meanTime l) l) ^ 2 := by
  have some_ : l ≠ [] := by
    rintro rfl
    simp [spread] at pos
  have n := length_ne_zero (K := K) some_
  have ne := pos.ne'
  have values : (l.map Prod.fst).sum = l.length * meanValue l := by
    rw [meanValue, mean, List.length_map]
    field_simp
  rw [residual_expand, residual_expand, sum_deviations_mean, values]
  generalize spread (meanTime l) l = S at ne
  field_simp
  ring

theorem leastSquares_iff {l : List (K × K)} (pos : 0 < spread (meanTime l) l) (a b : K) :
    LeastSquares (meanTime l) a b l ↔ a = meanValue l ∧ b = trend (meanTime l) l / spread (meanTime l) l := by
  have some_ : l ≠ [] := by
    rintro rfl
    simp [spread] at pos
  have n : (0 : K) < l.length := by
    have := List.length_pos_iff.mpr some_
    positivity
  constructor
  · intro least
    have best := least (meanValue l) (trend (meanTime l) l / spread (meanTime l) l)
    rw [residual_eq pos a b] at best
    have first : 0 ≤ (l.length : K) * (a - meanValue l) ^ 2 := by positivity
    have second : 0 ≤ spread (meanTime l) l * (b - trend (meanTime l) l / spread (meanTime l) l) ^ 2 := by positivity
    have first_zero : (l.length : K) * (a - meanValue l) ^ 2 = 0 := by linarith
    have second_zero : spread (meanTime l) l * (b - trend (meanTime l) l / spread (meanTime l) l) ^ 2 = 0 := by linarith
    constructor
    · exact sub_eq_zero.mp (sq_eq_zero_iff.mp ((mul_eq_zero.mp first_zero).resolve_left n.ne'))
    · exact sub_eq_zero.mp (sq_eq_zero_iff.mp ((mul_eq_zero.mp second_zero).resolve_left pos.ne'))
  · rintro ⟨rfl, rfl⟩ a' b'
    rw [residual_eq pos a' b']
    have first : 0 ≤ (l.length : K) * (a' - meanValue l) ^ 2 := by positivity
    have second : 0 ≤ spread (meanTime l) l * (b' - trend (meanTime l) l / spread (meanTime l) l) ^ 2 := by positivity
    linarith

end Rts2.Lib
