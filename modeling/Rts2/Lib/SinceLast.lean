import Mathlib

/-! A list cut at the last of its marked elements: what stands before it, and the list from it on.
A list without a mark is not cut. -/
namespace Rts2.Lib

universe u

variable {α : Type u} {p : α → Bool}

def beforeLast (p : α → Bool) : List α → List α
  | [] => []
  | a :: l => if l.any p then a :: beforeLast p l else []

def sinceLast (p : α → Bool) : List α → List α
  | [] => []
  | a :: l => if l.any p then sinceLast p l else a :: l

@[simp] theorem beforeLast_append_sinceLast (l : List α) :
    beforeLast p l ++ sinceLast p l = l := by
  induction l with
  | nil => rfl
  | cons a l ih =>
    cases marked : l.any p with
    | true => simp [beforeLast, sinceLast, marked, ih]
    | false => simp [beforeLast, sinceLast, marked]

theorem sinceLast_suffix (l : List α) : sinceLast p l <:+ l :=
  ⟨beforeLast p l, beforeLast_append_sinceLast l⟩

theorem mem_sinceLast_concat (l : List α) (a : α) : a ∈ sinceLast p (l ++ [a]) := by
  induction l with
  | nil => simp [sinceLast]
  | cons b l ih =>
    rw [List.cons_append, sinceLast]
    split
    · exact ih
    · simp

theorem sinceLast_of_unmarked {l : List α} (none : l.tail.any p = false) :
    sinceLast p l = l ∧ beforeLast p l = [] := by
  cases l with
  | nil => exact ⟨rfl, rfl⟩
  | cons a l => simp_all [sinceLast, beforeLast]

theorem sinceLast_tail_unmarked (l : List α) : (sinceLast p l).tail.any p = false := by
  induction l with
  | nil => rfl
  | cons a l ih =>
    cases marked : l.any p with
    | true => simp only [sinceLast, marked, if_true, ih]
    | false => simp only [sinceLast, marked, Bool.false_eq_true, if_false, List.tail_cons]

theorem sinceLast_append {a : α} (marked : p a = true) (before after : List α) :
    sinceLast p (before ++ a :: after) = sinceLast p (a :: after) := by
  induction before with
  | nil => rfl
  | cons b before ih => simp [sinceLast, marked, ih]

theorem beforeLast_append {a : α} (marked : p a = true) (before after : List α) :
    beforeLast p (before ++ a :: after) = before ++ beforeLast p (a :: after) := by
  induction before with
  | nil => rfl
  | cons b before ih => simp [beforeLast, marked, ih]

theorem sinceLast_suffix_of_marked {a : α} (marked : p a = true) (before after : List α) :
    sinceLast p (before ++ a :: after) <:+ a :: after := by
  rw [sinceLast_append marked]
  exact sinceLast_suffix (a :: after)

theorem sinceLast_eq_cons {l : List α} (marked : l.any p = true) :
    ∃ before a after, l = before ++ a :: after ∧ p a = true ∧ after.any p = false ∧
      sinceLast p l = a :: after := by
  induction l with
  | nil => simp at marked
  | cons b l ih =>
    cases later : l.any p with
    | true =>
      obtain ⟨before, a, after, rfl, here, none, cut⟩ := ih later
      exact ⟨b :: before, a, after, rfl, here, none, by simp only [sinceLast, later, if_true, cut]⟩
    | false =>
      have here : p b = true := by simpa [later] using marked
      exact ⟨[], b, l, rfl, here, later, by simp [sinceLast, later]⟩

end Rts2.Lib
