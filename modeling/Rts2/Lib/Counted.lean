import Mathlib

/-! Objects shared by counted pointers. The count of an object is the number of the pointers to it, and it is
deleted with the last of them. -/
namespace Rts2.Lib

universe u

/-- The objects by address, none once deleted, with their counts, and the address of the next one. -/
structure Counted (β : Type u) where
  mem : Nat → Option β
  count : Nat → Nat
  next : Nat

namespace Counted

variable {β : Type u}

def new (h : Counted β) (x : β) : Counted β :=
  { mem := Function.update h.mem h.next (some x), count := Function.update h.count h.next 1, next := h.next + 1 }

def acquire (h : Counted β) (a : Nat) : Counted β := { h with count := Function.update h.count a (h.count a + 1) }

def release (h : Counted β) (a : Nat) : Counted β :=
  { h with
    mem := if h.count a = 1 then Function.update h.mem a none else h.mem
    count := Function.update h.count a (h.count a - 1) }

def write (h : Counted β) (a : Nat) (x : β) : Counted β := { h with mem := Function.update h.mem a (some x) }

def acquireAll (h : Counted β) (ps : List Nat) : Counted β := ps.foldl acquire h

def releaseAll (h : Counted β) (ps : List Nat) : Counted β := ps.foldl release h

structure Holds (h : Counted β) (ps : List Nat) : Prop where
  counts : ∀ a, h.count a = ps.count a
  alive : ∀ a ∈ ps, (h.mem a).isSome = true
  allocated : ∀ a ∈ ps, a < h.next

section
variable {h : Counted β} {ps qs : List Nat}

theorem Holds.perm (holds : h.Holds ps) (same : ps.Perm qs) : h.Holds qs where
  counts a := (holds.counts a).trans (same.count_eq a)
  alive a there := holds.alive a (same.mem_iff.mpr there)
  allocated a there := holds.allocated a (same.mem_iff.mpr there)

theorem Holds.fresh (holds : h.Holds ps) : h.next ∉ ps := fun there =>
  absurd (holds.allocated _ there) (lt_irrefl _)

theorem Holds.new (holds : h.Holds ps) (x : β) : (h.new x).Holds (h.next :: ps) where
  counts a := by
    rw [List.count_cons, Counted.new]
    by_cases here : a = h.next
    · subst here
      simp [List.count_eq_zero.mpr holds.fresh]
    · simp [here, holds.counts a, Ne.symm here]
  alive a there := by
    obtain rfl | before := List.mem_cons.mp there
    · simp [Counted.new]
    · have other : a ≠ h.next := fun same => holds.fresh (same ▸ before)
      simp [Counted.new, other, holds.alive a before]
  allocated a there := by
    obtain rfl | before := List.mem_cons.mp there
    · exact Nat.lt_succ_self _
    · exact Nat.lt_succ_of_lt (holds.allocated a before)

theorem Holds.acquire (holds : h.Holds ps) {a : Nat} (there : a ∈ ps) : (h.acquire a).Holds (a :: ps) where
  counts b := by
    rw [List.count_cons, Counted.acquire]
    by_cases here : b = a
    · subst here
      simp [holds.counts b]
    · simp [here, holds.counts b, Ne.symm here]
  alive b in_ := by
    obtain rfl | before := List.mem_cons.mp in_
    · exact holds.alive b there
    · exact holds.alive b before
  allocated b in_ := by
    obtain rfl | before := List.mem_cons.mp in_
    · exact holds.allocated b there
    · exact holds.allocated b before

theorem release_mem {a b : Nat} (holds : h.Holds (a :: ps)) (left : b ∈ ps) : (h.release a).mem b = h.mem b := by
  unfold release
  split
  case isTrue last =>
    have none_left : a ∉ ps := by
      rw [holds.counts, List.count_cons_self] at last
      exact List.count_eq_zero.mp (Nat.succ.inj last)
    have other : b ≠ a := fun same => none_left (same ▸ left)
    simp [other]
  case isFalse => rfl

theorem Holds.release {a : Nat} (holds : h.Holds (a :: ps)) : (h.release a).Holds ps where
  counts b := by
    have before := holds.counts b
    rw [List.count_cons] at before
    rw [Counted.release]
    by_cases here : b = a
    · subst here
      simp_all
    · simp [here, Ne.symm here] at before ⊢
      exact before
  alive b left := by
    rw [release_mem holds left]
    exact holds.alive b (List.mem_cons_of_mem a left)
  allocated b left := holds.allocated b (List.mem_cons_of_mem a left)

theorem Holds.acquireAll (holds : h.Holds ps) (there : ∀ a ∈ qs, a ∈ ps) : (h.acquireAll qs).Holds (qs ++ ps) := by
  induction qs generalizing h ps with
  | nil => exact holds
  | cons a qs ih =>
    obtain ⟨first, later⟩ := List.forall_mem_cons.mp there
    have rest := ih (holds.acquire first) fun b in_ => List.mem_cons_of_mem a (later b in_)
    exact rest.perm List.perm_middle

@[simp] theorem acquireAll_mem (h : Counted β) (qs : List Nat) : (h.acquireAll qs).mem = h.mem := by
  induction qs generalizing h with
  | nil => rfl
  | cons a qs ih => exact ih (h.acquire a)

@[simp] theorem acquireAll_next (h : Counted β) (qs : List Nat) : (h.acquireAll qs).next = h.next := by
  induction qs generalizing h with
  | nil => rfl
  | cons a qs ih => exact ih (h.acquire a)

theorem releaseAll_mem (holds : h.Holds (qs ++ ps)) {b : Nat} (left : b ∈ ps) : (h.releaseAll qs).mem b = h.mem b := by
  induction qs generalizing h with
  | nil => rfl
  | cons a qs ih =>
    have first : (h.release a).Holds (qs ++ ps) := holds.release
    calc ((h.release a).releaseAll qs).mem b = (h.release a).mem b := ih first
      _ = h.mem b := release_mem holds (List.mem_append_right qs left)

end

end Counted

end Rts2.Lib
