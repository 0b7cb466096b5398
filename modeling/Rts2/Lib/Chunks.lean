import Mathlib

/-! Consumers of a stream that arrives in pieces. A reader that keeps its own buffer is
compared with a machine that takes one symbol at a time: if every piece the reader takes
moves its abstraction as the machine moves over the symbols of the piece, then the way the
stream was cut cannot be seen afterwards. -/
namespace Rts2.Lib

universe u v w x y

variable {α : Type u} {β : Type v} {ρ : Type w} {ε : Type x} {ι : Type y}

/-- The machine over a piece, symbol by symbol; `none` once a symbol is refused. -/
def consume (step : α → β → Option α) (a : α) (xs : List β) : Option α := xs.foldlM step a

@[simp] theorem consume_nil (step : α → β → Option α) (a : α) : consume step a [] = some a := rfl

@[simp] theorem consume_cons (step : α → β → Option α) (a : α) (x : β) (xs : List β) :
    consume step a (x :: xs) = (step a x).bind (fun b => consume step b xs) := by
  simp only [consume, List.foldlM_cons, Option.bind_eq_bind]

theorem consume_append (step : α → β → Option α) (a : α) (xs ys : List β) :
    consume step a (xs ++ ys) = (consume step a xs).bind (fun b => consume step b ys) := by
  simp only [consume, List.foldlM_append, Option.bind_eq_bind]

def Ready (feed : ρ → ι → Except ε ρ) (ready : ρ → ι → Prop) : ρ → List ι → Prop
  | _, [] => True
  | r, xs :: xss =>
    ready r xs ∧
      match feed r xs with
      | .ok r' => Ready feed ready r' xss
      | .error _ => True

instance decidableReady (feed : ρ → ι → Except ε ρ) (ready : ρ → ι → Prop)
    [∀ r x, Decidable (ready r x)] :
    ∀ (r : ρ) (xs : List ι), Decidable (Ready feed ready r xs)
  | _, [] => isTrue trivial
  | r, xs :: xss =>
    have : Decidable (match feed r xs with
        | .ok r' => Ready feed ready r' xss
        | .error _ => True) :=
      match feed r xs with
      | .ok r' => decidableReady feed ready r' xss
      | .error _ => isTrue trivial
    inferInstanceAs (Decidable (_ ∧ _))

def feedAll (feed : ρ → ι → Except ε ρ) (r : ρ) (xs : List ι) : Except ε ρ := xs.foldlM feed r

def Ends (P : ρ → Prop) (Q : ε → Prop) : Except ε ρ → Prop
  | .ok r => P r
  | .error e => Q e

theorem feedAll_cons (feed : ρ → ι → Except ε ρ) (r : ρ) (x : ι) (xs : List ι) :
    feedAll feed r (x :: xs) =
      match feed r x with
      | .ok r' => feedAll feed r' xs
      | .error e => .error e := by
  simp only [feedAll, List.foldlM_cons]
  cases feed r x <;> rfl

theorem feedAll_invariant (feed : ρ → ι → Except ε ρ) (ready : ρ → ι → Prop) (P : ρ → Prop)
    (Q : ε → Prop) (kept : ∀ r x, P r → ready r x → Ends P Q (feed r x)) (xs : List ι) (r : ρ)
    (initial : P r) (inputs : Ready feed ready r xs) : Ends P Q (feedAll feed r xs) := by
  induction xs generalizing r with
  | nil => exact initial
  | cons x xs ih =>
    obtain ⟨now, later⟩ := inputs
    have next := kept r x initial now
    rw [feedAll_cons]
    cases fed : feed r x with
    | error e =>
      rw [fed] at next
      exact next
    | ok r' =>
      rw [fed] at next later
      exact ih r' next later

def Both {ρ' : Type*} {ε' : Type*} (R : ρ → ρ' → Prop) (S : ε → ε' → Prop) :
    Except ε ρ → Except ε' ρ' → Prop
  | .ok r, .ok r' => R r r'
  | .error e, .error e' => S e e'
  | .ok _, .error _ | .error _, .ok _ => False

theorem both_refl {R : ρ → ρ → Prop} {S : ε → ε → Prop} (reads : ∀ r, R r r) (fails : ∀ e, S e e)
    (result : Except ε ρ) : Both R S result result := by
  cases result with
  | ok r => exact reads r
  | error e => exact fails e

theorem feedAll_both (feed : ρ → ι → Except ε ρ) (R : ρ → ρ → Prop) (S : ε → ε → Prop)
    (kept : ∀ r r' x, R r r' → Both R S (feed r x) (feed r' x)) (xs : List ι) (r r' : ρ)
    (initial : R r r') : Both R S (feedAll feed r xs) (feedAll feed r' xs) := by
  induction xs generalizing r r' with
  | nil => exact initial
  | cons x xs ih =>
    have next := kept r r' x initial
    rw [feedAll_cons, feedAll_cons]
    cases fed : feed r x <;> cases fed' : feed r' x <;> rw [fed, fed'] at next
    · exact next
    · contradiction
    · contradiction
    · exact ih _ _ next

theorem feedAll_simulates (step : α → β → Option α) (feed : ρ → List β → Except ε ρ)
    (ready : ρ → List β → Prop) (R : ρ → α → Prop)
    (simulation : ∀ r a xs b, R r a → ready r xs → consume step a xs = some b →
      ∃ r', feed r xs = .ok r' ∧ R r' b)
    (xss : List (List β)) (r : ρ) (a b : α) (related : R r a)
    (pieces : Ready feed ready r xss) (accepted : consume step a xss.flatten = some b) :
    ∃ r', feedAll feed r xss = .ok r' ∧ R r' b := by
  induction xss generalizing r a with
  | nil =>
    have same : a = b := by simpa using accepted
    exact ⟨r, rfl, same ▸ related⟩
  | cons xs xss ih =>
    rw [List.flatten_cons, consume_append, Option.bind_eq_some_iff] at accepted
    obtain ⟨c, head, tail⟩ := accepted
    obtain ⟨r', fed, next⟩ := simulation r a xs c related pieces.1 head
    have ready := pieces.2
    rw [fed] at ready
    obtain ⟨r'', all, last⟩ := ih r' c next ready tail
    refine ⟨r'', ?_, last⟩
    rw [feedAll_cons, fed]
    exact all

end Rts2.Lib
