import Mathlib

/-! Lists of half-open intervals. The bounds are of one order and the points of another, into which the
bounds are embedded; an ordered list lies between two bounds with its intervals one after the other. -/
namespace Rts2.Lib

universe u v

variable {α : Type u} {β : Type v} [LinearOrder β]

def Spans (e : α → β) (p : α × α) (x : β) : Prop := e p.1 ≤ x ∧ x < e p.2

def Covers (e : α → β) (ps : List (α × α)) (x : β) : Prop := ∃ p ∈ ps, Spans e p x

@[simp] theorem covers_nil (e : α → β) (x : β) : ¬ Covers e [] x := by
  simp [Covers]

@[simp] theorem covers_cons (e : α → β) (p : α × α) (ps : List (α × α)) (x : β) :
    Covers e (p :: ps) x ↔ Spans e p x ∨ Covers e ps x := by
  simp [Covers]

@[simp] theorem covers_append (e : α → β) (ps qs : List (α × α)) (x : β) :
    Covers e (ps ++ qs) x ↔ Covers e ps x ∨ Covers e qs x := by
  simp only [Covers, List.mem_append, or_and_right, exists_or]

variable [LinearOrder α]

def Ordered (lo hi : α) : List (α × α) → Prop
  | [] => lo ≤ hi
  | p :: ps => lo ≤ p.1 ∧ p.1 ≤ p.2 ∧ Ordered p.2 hi ps

def gaps (lo hi : α) : List (α × α) → List (α × α)
  | [] => if lo < hi then [(lo, hi)] else []
  | p :: ps => (if lo < p.1 then [(lo, p.1)] else []) ++ gaps p.2 hi ps

theorem Ordered.le {lo hi : α} {ps : List (α × α)} (ordered : Ordered lo hi ps) : lo ≤ hi := by
  induction ps generalizing lo with
  | nil => exact ordered
  | cons p ps ih => exact ordered.1.trans (ordered.2.1.trans (ih ordered.2.2))

theorem Ordered.mono {lo lo' hi : α} {ps : List (α × α)} (below : lo' ≤ lo) (ordered : Ordered lo hi ps) :
    Ordered lo' hi ps := by
  cases ps with
  | nil => exact below.trans ordered
  | cons p ps => exact ⟨below.trans ordered.1, ordered.2⟩

theorem Ordered.mono_right {lo hi hi' : α} {ps : List (α × α)} (ordered : Ordered lo hi ps) (above : hi ≤ hi') :
    Ordered lo hi' ps := by
  induction ps generalizing lo with
  | nil => exact ordered.trans above
  | cons p ps ih => exact ⟨ordered.1, ordered.2.1, ih ordered.2.2⟩

theorem Ordered.within {lo hi : α} {ps : List (α × α)} (ordered : Ordered lo hi ps) :
    ∀ p ∈ ps, lo ≤ p.1 ∧ p.1 ≤ p.2 ∧ p.2 ≤ hi := by
  induction ps generalizing lo with
  | nil => simp
  | cons q ps ih =>
    intro p there
    obtain rfl | later := List.mem_cons.mp there
    · exact ⟨ordered.1, ordered.2.1, ordered.2.2.le⟩
    · obtain ⟨after, rest⟩ := ih ordered.2.2 p later
      exact ⟨ordered.1.trans (ordered.2.1.trans after), rest⟩

theorem Ordered.append {lo mid hi : α} {ps qs : List (α × α)} (first : Ordered lo mid ps)
    (second : Ordered mid hi qs) : Ordered lo hi (ps ++ qs) := by
  induction ps generalizing lo with
  | nil => exact second.mono first
  | cons p ps ih => exact ⟨first.1, first.2.1, ih first.2.2⟩

section
variable {e : α → β} (mono : Monotone e)
include mono

theorem Ordered.covered {lo hi : α} {ps : List (α × α)} (ordered : Ordered lo hi ps) {x : β}
    (covers : Covers e ps x) : e lo ≤ x ∧ x < e hi := by
  obtain ⟨p, there, from_, upto⟩ := covers
  obtain ⟨after, _, before⟩ := ordered.within p there
  exact ⟨(mono after).trans from_, upto.trans_le (mono before)⟩

omit mono in
theorem gaps_ordered {lo hi : α} {ps : List (α × α)} (ordered : Ordered lo hi ps) :
    Ordered lo hi (gaps lo hi ps) := by
  induction ps generalizing lo with
  | nil =>
    unfold gaps
    split
    case isTrue less => exact ⟨le_refl lo, less.le, le_refl hi⟩
    case isFalse => exact ordered
  | cons p ps ih =>
    have rest := ih ordered.2.2
    unfold gaps
    split
    case isTrue less => exact ⟨le_refl lo, less.le, rest.mono ordered.2.1⟩
    case isFalse => exact rest.mono (ordered.1.trans ordered.2.1)

theorem gaps_covers {lo hi : α} {ps : List (α × α)} (ordered : Ordered lo hi ps) {x : β}
    (from_ : e lo ≤ x) (upto : x < e hi) : Covers e (gaps lo hi ps) x ↔ ¬ Covers e ps x := by
  induction ps generalizing lo with
  | nil =>
    have less : lo < hi := by
      by_contra no
      exact absurd (from_.trans_lt upto) (not_lt.mpr (mono (not_lt.mp no)))
    simp [gaps, less, Spans, from_, upto]
  | cons p ps ih =>
    have later : Covers e ps x → e p.2 ≤ x := fun covers => (ordered.2.2.covered mono covers).1
    have gap : Covers e (if lo < p.1 then [(lo, p.1)] else []) x ↔ x < e p.1 := by
      split
      case isTrue less => simp [Spans, from_]
      case isFalse no =>
        have reached : e p.1 ≤ e lo := mono (not_lt.mp no)
        simp [(reached.trans from_)]
    rw [gaps, covers_append, covers_cons, gap]
    by_cases reached : e p.2 ≤ x
    · have not_before : ¬ x < e p.1 := not_lt.mpr ((mono ordered.2.1).trans reached)
      have not_in : ¬ Spans e p x := fun inside => absurd inside.2 (not_lt.mpr reached)
      simp only [not_before, not_in, false_or]
      exact ih ordered.2.2 reached
    · have none_later : ¬ Covers e ps x := fun covers => reached (later covers)
      have none_gap : ¬ Covers e (gaps p.2 hi ps) x := fun covers =>
        reached ((gaps_ordered ordered.2.2).covered mono covers).1
      simp only [none_later, none_gap, or_false]
      constructor
      · exact fun before inside => absurd inside.1 (not_le.mpr before)
      · intro outside
        by_contra no
        exact outside ⟨not_lt.mp no, not_le.mp reached⟩

end

end Rts2.Lib
