import Mathlib

/-! Lists by what comes first in them: the first element that is wanted, when all before it may be
passed over. -/
namespace Rts2.Lib

universe u

variable {α : Type u} {p q pass skip : α → Prop}

/-- `a` is wanted and every element before it may be passed. -/
def First (p pass : α → Prop) (l : List α) (a : α) : Prop :=
  ∃ before after, l = before ++ a :: after ∧ p a ∧ ∀ b ∈ before, pass b

theorem first_nil (a : α) : ¬ First p pass [] a := by
  rintro ⟨before, after, nil, _⟩
  simp at nil

theorem first_cons (a b : α) (l : List α) :
    First p pass (b :: l) a ↔ (a = b ∧ p a) ∨ (pass b ∧ First p pass l a) := by
  constructor
  · rintro ⟨before, after, split, wanted, passed⟩
    cases before with
    | nil =>
      obtain ⟨rfl, _⟩ := List.cons.inj split
      exact .inl ⟨rfl, wanted⟩
    | cons c before =>
      obtain ⟨rfl, rest⟩ := List.cons.inj split
      exact .inr ⟨passed b (by simp), before, after, rest, wanted,
        fun d mem => passed d (List.mem_cons_of_mem b mem)⟩
  · rintro (⟨rfl, wanted⟩ | ⟨passed, before, after, rfl, wanted, rest⟩)
    · exact ⟨[], l, rfl, wanted, by simp⟩
    · refine ⟨b :: before, after, rfl, wanted, ?_⟩
      simpa [passed] using rest

theorem First.wanted {l : List α} {a : α} (first : First p pass l a) : p a := by
  obtain ⟨_, _, _, wanted, _⟩ := first
  exact wanted

theorem First.mem {l : List α} {a : α} (first : First p pass l a) : a ∈ l := by
  obtain ⟨before, after, rfl, _⟩ := first
  simp

theorem First.unique (stops : ∀ a, pass a → ¬ p a) {l : List α} {a b : α}
    (first : First p pass l a) (other : First p pass l b) : a = b := by
  induction l with
  | nil => exact absurd first (first_nil a)
  | cons c l ih =>
    rcases (first_cons a c l).mp first with ⟨rfl, wanted⟩ | ⟨passed, first⟩
    · rcases (first_cons b a l).mp other with ⟨rfl, _⟩ | ⟨passed, _⟩
      · rfl
      · exact absurd wanted (stops a passed)
    · rcases (first_cons b c l).mp other with ⟨rfl, wanted⟩ | ⟨_, other⟩
      · exact absurd wanted (stops b passed)
      · exact ih first other

theorem exists_first_of_mem {l : List α} {a : α} (mem : a ∈ l) (wanted : p a) :
    ∃ b, First p (fun c => ¬ p c) l b := by
  induction l with
  | nil => simp at mem
  | cons c l ih =>
    by_cases here : p c
    · exact ⟨c, (first_cons c c l).mpr (.inl ⟨rfl, here⟩)⟩
    · have later : a ∈ l := by
        rcases List.mem_cons.mp mem with rfl | later
        · exact absurd wanted here
        · exact later
      obtain ⟨b, first⟩ := ih later
      exact ⟨b, (first_cons b c l).mpr (.inr ⟨here, first⟩)⟩

theorem first_congr (fewer : ∀ a, q a → p a) (stops : ∀ a, skip a → ¬ q a)
    (passes : ∀ a, pass a ↔ skip a ∧ ¬ p a) {l : List α} (found : ∀ a, First p pass l a → q a)
    (a : α) : First q skip l a ↔ First p pass l a := by
  induction l with
  | nil => exact iff_of_false (first_nil a) (first_nil a)
  | cons b l ih =>
    rw [first_cons, first_cons]
    by_cases here : p b
    · have narrow : q b := found b ((first_cons b b l).mpr (.inl ⟨rfl, here⟩))
      have no_skip : ¬ skip b := fun skipped => stops b skipped narrow
      have no_pass : ¬ pass b := fun passed => ((passes b).mp passed).2 here
      constructor
      · rintro (⟨rfl, _⟩ | ⟨skipped, _⟩)
        · exact .inl ⟨rfl, here⟩
        · exact absurd skipped no_skip
      · rintro (⟨rfl, _⟩ | ⟨passed, _⟩)
        · exact .inl ⟨rfl, narrow⟩
        · exact absurd passed no_pass
    · have same : skip b ↔ pass b := by simp [passes, here]
      by_cases passed : pass b
      · have tail : First q skip l a ↔ First p pass l a :=
          ih fun c first => found c ((first_cons c b l).mpr (.inr ⟨passed, first⟩))
        constructor
        · rintro (⟨rfl, wanted⟩ | ⟨_, first⟩)
          · exact absurd (fewer a wanted) here
          · exact .inr ⟨passed, tail.mp first⟩
        · rintro (⟨rfl, wanted⟩ | ⟨_, first⟩)
          · exact absurd wanted here
          · exact .inr ⟨same.mpr passed, tail.mpr first⟩
      · constructor
        · rintro (⟨rfl, wanted⟩ | ⟨skipped, _⟩)
          · exact absurd (fewer a wanted) here
          · exact absurd (same.mp skipped) passed
        · rintro (⟨rfl, wanted⟩ | ⟨contra, _⟩)
          · exact absurd wanted here
          · exact absurd contra passed

theorem find?_eq_some_iff_first {l : List α} {test : α → Bool} {a : α} :
    l.find? test = some a ↔ First (fun b => test b = true) (fun b => ¬ test b = true) l a := by
  rw [List.find?_eq_some_iff_append]
  constructor
  · rintro ⟨wanted, before, after, split, passed⟩
    exact ⟨before, after, split, wanted, fun b mem => by simpa using passed b mem⟩
  · rintro ⟨before, after, split, wanted, passed⟩
    exact ⟨wanted, before, after, split, fun b mem => by simpa using passed b mem⟩

theorem filter_append_of_pairwise {test : α → Bool} {l : List α}
    (first : l.Pairwise fun a b => test b = true → test a = true) :
    l.filter test ++ l.filter (fun a => !test a) = l := by
  induction l with
  | nil => rfl
  | cons a l ih =>
    obtain ⟨before, first⟩ := List.pairwise_cons.mp first
    cases here : test a with
    | true => simp [here, ih first]
    | false =>
      have none : ∀ b ∈ l, test b = false := by
        intro b mem
        have later := before b mem
        simpa [here] using later
      have all : l.filter (fun a => !test a) = l := List.filter_eq_self.mpr fun b mem => by
        simp [none b mem]
      simpa [here, all] using none

end Rts2.Lib
