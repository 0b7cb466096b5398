import Mathlib

/-! Evaluation with fuel: what it gives once there is enough. -/
namespace Rts2.Lib

variable {α β : Type}

def Gives (f : Nat → Option α) (a : α) : Prop := ∃ n, ∀ fuel, n ≤ fuel → f fuel = some a

namespace Gives

theorem now (a : α) : Gives (fun _ => some a) a := ⟨0, fun _ _ => rfl⟩

theorem next {f g : Nat → Option α} {a : α} (step : ∀ fuel, f (fuel + 1) = g fuel)
    (gives : Gives g a) : Gives f a := by
  obtain ⟨n, enough⟩ := gives
  refine ⟨n + 1, fun fuel least => ?_⟩
  obtain ⟨more, rfl⟩ := Nat.exists_eq_add_of_le' least
  exact (step (more + n)).trans (enough _ (Nat.le_add_left n more))

theorem bind {f : Nat → Option α} {g : α → Nat → Option β} {a : α} {b : β} (first : Gives f a)
    (last : Gives (g a) b) : Gives (fun fuel => (f fuel).bind fun a => g a fuel) b := by
  obtain ⟨n, enough⟩ := first
  obtain ⟨m, more⟩ := last
  refine ⟨max n m, fun fuel least => ?_⟩
  simp only [enough fuel (le_of_max_le_left least), Option.bind_some]
  exact more fuel (le_of_max_le_right least)

theorem unique {f : Nat → Option α} {a b : α} (first : Gives f a) (second : Gives f b) : a = b := by
  obtain ⟨n, enough⟩ := first
  obtain ⟨m, more⟩ := second
  exact Option.some.inj ((enough _ (le_max_left n m)).symm.trans (more _ (le_max_right n m)))

theorem isSome {f : Nat → Option α} {a : α} (gives : Gives f a) :
    ∃ n, ∀ fuel, n ≤ fuel → (f fuel).isSome := by
  obtain ⟨n, enough⟩ := gives
  exact ⟨n, fun fuel least => by rw [enough fuel least, Option.isSome_some]⟩

theorem eq {f : Nat → Option α} {a b : α} (gives : Gives f a)
    (more : ∀ fuel a, f fuel = some a → f (fuel + 1) = some a) {fuel : Nat} (result : f fuel = some b) :
    b = a := by
  obtain ⟨n, enough⟩ := gives
  have later (k : Nat) : f (fuel + k) = some b := by
    induction k with
    | zero => exact result
    | succ k ih => exact more _ b ih
  exact Option.some.inj ((later n).symm.trans (enough _ (Nat.le_add_left n fuel)))

end Gives

end Rts2.Lib
