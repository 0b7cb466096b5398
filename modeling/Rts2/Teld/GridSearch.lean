import Rts2.Lib.BestFirst

/-! The search of the D50 mount on the grid of intermediate targets, whatever the times of the passages
between them are. -/
namespace Rts2.Teld

open Lib

variable {K : Type} [LinearOrder K] [Add K] [Zero K]

def range (first last : Int) : List Int :=
  (List.range (last + 1 - first).toNat).map fun (k : Nat) => first + (k : Int)

theorem mem_range {first last i : Int} : i ∈ range first last ↔ first ≤ i ∧ i ≤ last := by
  simp only [range, List.mem_map, List.mem_range]
  constructor
  · rintro ⟨k, bound, rfl⟩
    omega
  · rintro ⟨least, most⟩
    exact ⟨(i - first).toNat, by omega, by omega⟩

/-- The grid, its size, and what the search asks about its targets: a passage is refused by a time
that is not positive, `full` is the time of the whole movement to the final position. The start stands
in the cell ia, id, and tries the targets up to r cells from it. -/
structure Grid (K : Type) where
  na : Nat
  nd : Nat
  isSafe : Nat → Bool
  checkPassage : Nat → Nat → K
  full : Nat → K
  ia : Int
  id : Int
  r : Int

namespace Grid

def START (grid : Grid K) : Nat := grid.na * grid.nd
def TARGET (grid : Grid K) : Nat := grid.na * grid.nd + 1

def inCells (grid : Grid K) (u : Nat) (is js : List Int) : List Nat :=
  is.flatMap fun (i : Int) => js.filterMap fun (j : Int) =>
    if i < 0 ∨ grid.na ≤ i ∨ j < 0 ∨ grid.nd ≤ j then none
    else
      let v : Nat := (i * (grid.nd : Int) + j).toNat
      if v = u ∨ !grid.isSafe v then none else some v

def nexts (grid : Grid K) (u : Nat) : List Nat :=
  if u = grid.TARGET then []
  else grid.TARGET ::
    if u = grid.START then
      grid.inCells u (range (grid.ia - grid.r + 1) (grid.ia + grid.r))
        (range (grid.id - grid.r + 1) (grid.id + grid.r))
    else
      let ia : Int := (u / grid.nd : Nat)
      let id : Int := (u % grid.nd : Nat)
      grid.inCells u (range (ia - 1) (ia + 1)) (range (id - 1) (id + 1))

def graph (grid : Grid K) : Network Nat K where
  start := grid.START
  target := grid.TARGET
  nexts := grid.nexts
  time u v := if grid.checkPassage u v ≤ 0 then none else some (grid.checkPassage u v)
  bound := grid.full

def search (fuel : Nat) (grid : Grid K) : Option (Search Nat K) := Search.run grid.graph fuel (Search.start grid.graph)

def cell (grid : Grid K) (i j : Int) (v : Nat) : Prop :=
  0 ≤ i ∧ i < grid.na ∧ 0 ≤ j ∧ j < grid.nd ∧ (v : Int) = i * grid.nd + j

/-- The steps: from anywhere to the target, from the start to the safe grid targets around it, and
from a grid target to its eight neighbours that are safe; all with an accepted passage. -/
inductive Allowed (grid : Grid K) : Nat → Nat → Prop
  | target {u : Nat} (other : u ≠ grid.TARGET) (passage : 0 < grid.checkPassage u grid.TARGET) :
    Allowed grid u grid.TARGET
  | start {i j : Int} {v : Nat} (at_ : grid.cell i j v)
      (near : grid.ia - grid.r < i ∧ i ≤ grid.ia + grid.r ∧ grid.id - grid.r < j ∧ j ≤ grid.id + grid.r)
      (safe : grid.isSafe v) (passage : 0 < grid.checkPassage grid.START v) :
    Allowed grid grid.START v
  | neighbour {i j k l : Int} {u v : Nat} (from_ : grid.cell i j u) (at_ : grid.cell k l v)
      (near : |k - i| ≤ 1 ∧ |l - j| ≤ 1) (other : v ≠ u) (safe : grid.isSafe v)
      (passage : 0 < grid.checkPassage u v) : Allowed grid u v

omit [LinearOrder K] [Add K] [Zero K] in
theorem mem_inCells {grid : Grid K} {u v : Nat} {is js : List Int} :
    v ∈ grid.inCells u is js ↔
      ∃ i ∈ is, ∃ j ∈ js, grid.cell i j v ∧ v ≠ u ∧ grid.isSafe v = true := by
  simp only [inCells, List.mem_flatMap, List.mem_filterMap]
  refine exists_congr fun i => and_congr_right fun _ => exists_congr fun j => and_congr_right fun _ => ?_
  split
  · rename_i out
    refine iff_of_false (fun none_ => by cases none_) fun inside => ?_
    obtain ⟨⟨i_least, i_most, j_least, j_most, _⟩, _⟩ := inside
    omega
  · rename_i inside
    have positive : 0 ≤ i * grid.nd := Int.mul_nonneg (by omega) (Int.natCast_nonneg _)
    have exact_ : ((i * grid.nd + j).toNat : Int) = i * grid.nd + j := by omega
    simp only [cell]
    split
    · rename_i skipped
      refine iff_of_false (fun none_ => by cases none_) fun found => ?_
      obtain ⟨⟨_, _, _, _, value⟩, other, safe⟩ := found
      have same : (i * grid.nd + j).toNat = v := by omega
      rw [same] at skipped
      simp [other, safe] at skipped
    · rename_i kept
      obtain ⟨other, safe⟩ := not_or.mp kept
      rw [Option.some_inj]
      constructor
      · rintro rfl
        exact ⟨⟨by omega, by omega, by omega, by omega, exact_⟩, other, by simpa using safe⟩
      · rintro ⟨⟨_, _, _, _, value⟩, _⟩
        omega

omit [LinearOrder K] [Add K] [Zero K] in
theorem cell_lt {grid : Grid K} {i j : Int} {v : Nat} (at_ : grid.cell i j v) : v < grid.START := by
  obtain ⟨i_least, i_most, j_least, j_most, value⟩ := at_
  have row : i * grid.nd ≤ (grid.na - 1) * grid.nd :=
    Int.mul_le_mul_of_nonneg_right (by omega) (Int.natCast_nonneg _)
  have all : ((grid.na : Int) - 1) * grid.nd + grid.nd = (grid.START : Nat) := by
    rw [START, Nat.cast_mul]
    ring
  omega

omit [LinearOrder K] [Add K] [Zero K] in
theorem cell_of_lt {grid : Grid K} {v : Nat} (inside : v < grid.START) :
    grid.cell (v / grid.nd : Nat) (v % grid.nd : Nat) v := by
  have wide : 0 < grid.nd := by
    rw [START] at inside
    exact Nat.pos_of_mul_pos_left (Nat.zero_lt_of_lt inside)
  have row : v / grid.nd < grid.na := Nat.div_lt_of_lt_mul (by rw [Nat.mul_comm]; exact inside)
  have column := Nat.mod_lt v wide
  have value : (v : Int) = (v / grid.nd : Nat) * grid.nd + (v % grid.nd : Nat) := by
    exact_mod_cast (Nat.div_add_mod' v grid.nd).symm
  exact ⟨Int.natCast_nonneg _, Int.ofNat_lt.mpr row, Int.natCast_nonneg _, Int.ofNat_lt.mpr column,
    value⟩

omit [LinearOrder K] [Add K] [Zero K] in
theorem cell_unique {grid : Grid K} {i j k l : Int} {v : Nat} (at_ : grid.cell i j v)
    (same : grid.cell k l v) : i = k ∧ j = l := by
  have parts {i j : Int} (at_ : grid.cell i j v) : (v : Int) / grid.nd = i ∧ (v : Int) % grid.nd = j := by
    obtain ⟨_, _, j_least, j_most, value⟩ := at_
    refine (Int.ediv_emod_unique (by omega)).mpr ⟨?_, j_least, j_most⟩
    rw [value, Int.mul_comm, Int.add_comm]
  exact ⟨(parts at_).1.symm.trans (parts same).1, (parts at_).2.symm.trans (parts same).2⟩

omit [Add K] in
theorem step_iff {grid : Grid K} {u v : Nat} : Search.Step grid.graph u v ↔
    v ∈ grid.nexts u ∧ 0 < grid.checkPassage u v := by
  refine and_congr_right fun _ => ?_
  simp only [graph]
  split
  · rename_i refused
    exact iff_of_false (fun none_ => by cases none_) (not_lt.mpr refused)
  · rename_i accepted
    exact iff_of_true rfl (not_le.mp accepted)

omit [Add K] in
theorem step_of_allowed {grid : Grid K} {u v : Nat} (allowed : grid.Allowed u v) :
    Search.Step grid.graph u v := by
  rw [step_iff]
  cases allowed with
  | target other passage =>
    refine ⟨?_, passage⟩
    rw [nexts, if_neg other]
    exact List.mem_cons_self
  | @start i j v at_ near safe passage =>
    refine ⟨?_, passage⟩
    have other : grid.START ≠ grid.TARGET := Nat.ne_of_lt (Nat.lt_succ_self _)
    rw [nexts, if_neg other, if_pos rfl]
    refine List.mem_cons_of_mem _ (mem_inCells.mpr ⟨i, mem_range.mpr (by omega), j,
      mem_range.mpr (by omega), at_, ?_, safe⟩)
    exact (cell_lt at_).ne
  | @neighbour i j k l u v from_ at_ near other safe passage =>
    refine ⟨?_, passage⟩
    have before := cell_lt from_
    have inner : u ≠ grid.TARGET := by
      have last : grid.START < grid.TARGET := Nat.lt_succ_self _
      omega
    rw [nexts, if_neg inner, if_neg before.ne]
    obtain ⟨rfl, rfl⟩ := cell_unique from_ (cell_of_lt before)
    obtain ⟨row, column⟩ := near
    rw [abs_le] at row column
    exact List.mem_cons_of_mem _ (mem_inCells.mpr ⟨k, mem_range.mpr (by omega), l,
      mem_range.mpr (by omega), at_, other, safe⟩)

omit [Add K] in
theorem allowed_of_step {grid : Grid K} {u v : Nat} (inside : u ≤ grid.TARGET)
    (step : Search.Step grid.graph u v) : grid.Allowed u v ∧ v ≤ grid.TARGET := by
  obtain ⟨next, passage⟩ := step_iff.mp step
  have last : grid.START < grid.TARGET := Nat.lt_succ_self _
  rw [nexts] at next
  split at next
  · cases next
  · rename_i other
    rcases List.mem_cons.mp next with rfl | next
    · exact ⟨.target other passage, le_refl _⟩
    · split at next
      · rename_i here
        subst here
        obtain ⟨i, row, j, column, at_, _, safe⟩ := mem_inCells.mp next
        rw [mem_range] at row column
        exact ⟨.start at_ (by omega) safe passage, ((cell_lt at_).trans last).le⟩
      · rename_i away
        have before : u < grid.START := by
          have bound : u ≤ grid.START + 1 := inside
          have other : u ≠ grid.START + 1 := other
          omega
        obtain ⟨i, row, j, column, at_, fresh, safe⟩ := mem_inCells.mp next
        rw [mem_range] at row column
        refine ⟨.neighbour (cell_of_lt before) at_ ?_ fresh safe passage, ((cell_lt at_).trans last).le⟩
        rw [abs_le, abs_le]
        omega

omit [Add K] in
theorem steps_iff {grid : Grid K} {v : Nat} :
    Relation.ReflTransGen (Search.Step grid.graph) grid.START v ↔
      Relation.ReflTransGen grid.Allowed grid.START v := by
  constructor
  · intro steps
    have inside : Relation.ReflTransGen grid.Allowed grid.START v ∧ v ≤ grid.TARGET := by
      induction steps with
      | refl => exact ⟨.refl, Nat.le_succ _⟩
      | tail _ step ih =>
        obtain ⟨allowed, inside⟩ := allowed_of_step ih.2 step
        exact ⟨ih.1.tail allowed, inside⟩
    exact inside.1
  · intro steps
    induction steps with
    | refl => exact .refl
    | tail _ allowed ih => exact ih.tail (step_of_allowed allowed)

/-- What the search leaves: parents that lead from every node that has one to the start, by allowed steps between targets
that are safe, and for the target one exactly if allowed steps lead to it. -/
structure Searched (grid : Grid K) (s : Search Nat K) : Prop where
  root : s.parent grid.START = none
  trails : ∀ v, (s.parent v).isSome → ∃ path, Search.Trail s.parent grid.START v path
  links : ∀ u v, s.parent v = some u → grid.Allowed u v ∧ (u = grid.START ∨ grid.isSafe u = true) ∧
    (v = grid.TARGET ∨ grid.isSafe v = true)
  target : (s.parent grid.TARGET).isSome ↔ Relation.ReflTransGen grid.Allowed grid.START grid.TARGET

theorem exists_searched (grid : Grid K) : ∃ s, Gives (fun fuel => grid.search fuel) s ∧ grid.Searched s := by
  let nodes := Finset.range (grid.TARGET + 1)
  have last : grid.START < grid.TARGET := Nat.lt_succ_self _
  have inside (u v : Nat) (next : v ∈ grid.graph.nexts u) : v ∈ nodes := by
    rw [Finset.mem_range]
    simp only [graph, nexts] at next
    split at next
    · cases next
    · rcases List.mem_cons.mp next with rfl | next
      · exact Nat.lt_succ_self _
      · have cell : ∃ i j, grid.cell i j v := by
          split at next
          · obtain ⟨i, _, j, _, at_, _⟩ := mem_inCells.mp next
            exact ⟨i, j, at_⟩
          · obtain ⟨i, _, j, _, at_, _⟩ := mem_inCells.mp next
            exact ⟨i, j, at_⟩
        obtain ⟨i, j, at_⟩ := cell
        exact ((cell_lt at_).trans last).trans (Nat.lt_succ_self _)
  obtain ⟨s, gives, ended⟩ := Search.search_ends (G := grid.graph)
    (Finset.mem_range.mpr (last.trans (Nat.lt_succ_self _))) inside
  have reached {v : Nat} {path : List Nat} (trail : Search.Trail s.parent grid.START v path) :
      v ≤ grid.TARGET ∧ (v = grid.START ∨ v = grid.TARGET ∨ grid.isSafe v = true) := by
    induction trail with
    | start => exact ⟨last.le, .inl rfl⟩
    | next _ link _ ih =>
      obtain ⟨allowed, bound⟩ := allowed_of_step ih.1 (ended.sound.parent _ _ link).2
      refine ⟨bound, .inr ?_⟩
      cases allowed with
      | target => exact .inl rfl
      | start _ _ safe => exact .inr safe
      | neighbour _ _ _ _ safe => exact .inr safe
  have links {u v : Nat} (link : s.parent v = some u) :
      grid.Allowed u v ∧ v ≠ grid.START ∧ (u = grid.START ∨ grid.isSafe u = true) ∧
        (v = grid.TARGET ∨ grid.isSafe v = true) := by
    obtain ⟨closed, step⟩ := ended.sound.parent v u link
    obtain ⟨path, trail, _⟩ := ended.sound.trail u closed
    obtain ⟨bound, from_⟩ := reached trail
    have allowed := (allowed_of_step bound step).1
    cases allowed with
    | target other passage =>
      exact ⟨.target other passage, last.ne', from_.imp_right fun safe => safe.resolve_left other,
        .inl rfl⟩
    | start at_ near safe passage =>
      exact ⟨.start at_ near safe passage, (cell_lt at_).ne, .inl rfl, .inr safe⟩
    | neighbour before at_ near other safe passage =>
      refine ⟨.neighbour before at_ near other safe passage, (cell_lt at_).ne, ?_, .inr safe⟩
      exact from_.imp_right fun safe => safe.resolve_left ((cell_lt before).trans last).ne
  refine ⟨s, gives, ?_, fun v linked => ended.trail (.inr linked), fun u v link => ?_, ?_⟩
  · cases back : s.parent grid.START with
    | none => rfl
    | some u => exact absurd rfl (links back).2.1
  · obtain ⟨allowed, _, from_, at_⟩ := links link
    exact ⟨allowed, from_, at_⟩
  · exact (ended.target_iff last.ne').trans steps_iff

/-- The search ends, with parents that lead from every node that has one to the start, by allowed steps
between targets that are safe, and gives the target one exactly if allowed steps lead to it. -/
theorem search_spec (grid : Grid K) : ∃ s, Gives (fun fuel => grid.search fuel) s ∧
    s.parent grid.START = none ∧
    (∀ v, (s.parent v).isSome → ∃ path, Search.Trail s.parent grid.START v path) ∧
    (∀ u v, s.parent v = some u → grid.Allowed u v ∧ (u = grid.START ∨ grid.isSafe u = true) ∧
      (v = grid.TARGET ∨ grid.isSafe v = true)) ∧
    ((s.parent grid.TARGET).isSome ↔ Relation.ReflTransGen grid.Allowed grid.START grid.TARGET) := by
  obtain ⟨s, gives, searched⟩ := grid.exists_searched
  exact ⟨s, gives, searched.root, searched.trails, searched.links, searched.target⟩

end Grid

end Rts2.Teld
