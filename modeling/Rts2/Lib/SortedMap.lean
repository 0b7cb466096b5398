import Mathlib

/-! Maps as lists of entries in the order of their keys, with a cursor that goes from an entry to
the next. -/
namespace Rts2.Lib

universe u v

variable {K : Type u} {V : Type v} [LinearOrder K]

def insertEntry (k : K) (v : V) : List (K × V) → List (K × V)
  | [] => [(k, v)]
  | p :: l =>
    if k < p.1 then (k, v) :: p :: l
    else if p.1 < k then p :: insertEntry k v l
    else (k, v) :: l

theorem insertEntry_keys (k : K) (v : V) (l : List (K × V)) {j : K} :
    j ∈ (insertEntry k v l).map Prod.fst ↔ j = k ∨ j ∈ l.map Prod.fst := by
  induction l with
  | nil => simp [insertEntry]
  | cons p l ih =>
    rw [insertEntry]
    split
    · simp
    · split
      · rw [List.map_cons, List.mem_cons, ih, List.map_cons, List.mem_cons]
        exact or_left_comm
      · rename_i below above
        have same : p.1 = k := le_antisymm (not_lt.mp below) (not_lt.mp above)
        simp [same]

theorem insertEntry_subperm (k : K) (v : V) (l : List (K × V)) :
    (insertEntry k v l).Subperm ((k, v) :: l) := by
  induction l with
  | nil => exact .refl _
  | cons p l ih =>
    rw [insertEntry]
    split
    · exact .refl _
    · split
      · exact ((List.subperm_cons p).mpr ih).trans (List.Perm.swap _ _ _).subperm
      · exact ((List.sublist_cons_self p l).cons_cons _).subperm

theorem insertEntry_sorted (k : K) (v : V) {l : List (K × V)}
    (sorted : l.Pairwise fun p q => p.1 < q.1) :
    (insertEntry k v l).Pairwise fun p q => p.1 < q.1 := by
  induction l with
  | nil => simp [insertEntry]
  | cons p l ih =>
    obtain ⟨first, rest⟩ := List.pairwise_cons.mp sorted
    rw [insertEntry]
    split
    · rename_i below
      refine List.pairwise_cons.mpr ⟨fun q mem => ?_, sorted⟩
      rcases List.mem_cons.mp mem with rfl | mem
      · exact below
      · exact below.trans (first q mem)
    · split
      · rename_i above
        refine List.pairwise_cons.mpr ⟨fun q mem => ?_, ih rest⟩
        have key := List.mem_map_of_mem (f := Prod.fst) mem
        rcases (insertEntry_keys k v l).mp key with same | key
        · exact same ▸ above
        · obtain ⟨r, listed, same⟩ := List.mem_map.mp key
          exact same ▸ first r listed
      · rename_i below above
        have same : p.1 = k := le_antisymm (not_lt.mp below) (not_lt.mp above)
        exact List.pairwise_cons.mpr ⟨fun q mem => same ▸ first q mem, rest⟩

theorem insertEntry_perm {k : K} (v : V) {l : List (K × V)} (fresh : k ∉ l.map Prod.fst) :
    (insertEntry k v l).Perm ((k, v) :: l) := by
  induction l with
  | nil => rfl
  | cons p l ih =>
    rw [List.map_cons, List.mem_cons, not_or] at fresh
    rw [insertEntry]
    split
    · rfl
    · split
      · exact ((ih fresh.2).cons p).trans (.swap _ _ _)
      · rename_i below above
        exact absurd (le_antisymm (not_lt.mp above) (not_lt.mp below)) fresh.1

theorem mem_insertEntry {k : K} {v : V} {l : List (K × V)} (sorted : l.Pairwise fun p q => p.1 < q.1) {q : K × V} :
    q ∈ insertEntry k v l ↔ q = (k, v) ∨ q ∈ l ∧ q.1 ≠ k := by
  induction l with
  | nil => simp [insertEntry]
  | cons p l ih =>
    obtain ⟨first, rest⟩ := List.pairwise_cons.mp sorted
    rw [insertEntry]
    split
    · rename_i below
      have away : ∀ r ∈ p :: l, r.1 ≠ k := by
        intro r mem
        rcases List.mem_cons.mp mem with rfl | mem
        · exact below.ne'
        · exact (below.trans (first r mem)).ne'
      rw [List.mem_cons]
      exact or_congr_right ⟨fun mem => ⟨mem, away q mem⟩, And.left⟩
    · split
      · rename_i above
        rw [List.mem_cons, ih rest, List.mem_cons]
        constructor
        · rintro (rfl | new | ⟨mem, other⟩)
          · exact .inr ⟨.inl rfl, above.ne⟩
          · exact .inl new
          · exact .inr ⟨.inr mem, other⟩
        · rintro (new | ⟨rfl | mem, other⟩)
          · exact .inr (.inl new)
          · exact .inl rfl
          · exact .inr (.inr ⟨mem, other⟩)
      · rename_i below above
        have same : p.1 = k := le_antisymm (not_lt.mp below) (not_lt.mp above)
        rw [List.mem_cons, List.mem_cons]
        refine or_congr_right ⟨fun mem => ⟨.inr mem, ?_⟩, ?_⟩
        · exact same ▸ (first q mem).ne'
        · rintro ⟨rfl | mem, other⟩
          · exact absurd same other
          · exact mem

theorem insertEntry_map_fst {k : K} (v : V) {l : List (K × V)}
    (sorted : l.Pairwise fun p q => p.1 < q.1) (taken : k ∈ l.map Prod.fst) :
    (insertEntry k v l).map Prod.fst = l.map Prod.fst := by
  induction l with
  | nil => simp at taken
  | cons p l ih =>
    obtain ⟨first, rest⟩ := List.pairwise_cons.mp sorted
    rw [insertEntry]
    split
    · rename_i below
      rcases List.mem_cons.mp taken with same | taken
      · exact absurd below (by simp [same])
      · obtain ⟨q, mem, same⟩ := List.mem_map.mp taken
        exact absurd (first q mem) (same ▸ below.asymm)
    · split
      · rename_i above
        rcases List.mem_cons.mp taken with same | taken
        · exact absurd above (by simp [same])
        · rw [List.map_cons, ih rest taken, List.map_cons]
      · rename_i below above
        simp [le_antisymm (not_lt.mp above) (not_lt.mp below)]

structure SortedMap (K : Type u) (V : Type v) [LinearOrder K] where
  entries : List (K × V)
  sorted : entries.Pairwise fun p q => p.1 < q.1

namespace SortedMap

def empty : SortedMap K V := ⟨[], .nil⟩

variable (m : SortedMap K V)

def keys : List K := m.entries.map Prod.fst

def insert (k : K) (v : V) : SortedMap K V :=
  ⟨insertEntry k v m.entries, insertEntry_sorted k v m.sorted⟩

def erase (k : K) : SortedMap K V := ⟨m.entries.filter (·.1 ≠ k), m.sorted.filter _⟩

def find (k : K) : Option V := (m.entries.find? (·.1 = k)).map Prod.snd

def values : List V := m.entries.map Prod.snd

def sift (f : V → V ⊕ V) : SortedMap K V :=
  ⟨m.entries.filterMap fun p => (f p.2).getLeft?.map (p.1, ·), by
    refine List.pairwise_filterMap.mpr (m.sorted.imp ?_)
    rintro p q less _ there _ other
    obtain ⟨_, _, rfl⟩ := Option.map_eq_some_iff.mp there
    obtain ⟨_, _, rfl⟩ := Option.map_eq_some_iff.mp other
    exact less⟩

def sifted (f : V → V ⊕ V) : List V := m.entries.filterMap fun p => (f p.2).getRight?

def first : Option (K × V) := m.entries.head?

def next (k : K) : Option (K × V) := m.entries.find? (k < ·.1)

theorem mem_keys {p : K × V} (mem : p ∈ m.entries) : p.1 ∈ m.keys := List.mem_map_of_mem mem

theorem unique {p q : K × V} (mem : p ∈ m.entries) (other : q ∈ m.entries) (same : p.1 = q.1) :
    p = q := by
  have nodup : (m.entries.map Prod.fst).Nodup := List.pairwise_map.mpr (m.sorted.imp ne_of_lt)
  exact List.inj_on_of_nodup_map nodup mem other same

theorem nodup : m.entries.Nodup := m.sorted.imp fun less same => less.ne (congrArg Prod.fst same)

theorem insert_keys (k : K) (v : V) {j : K} : j ∈ (m.insert k v).keys ↔ j = k ∨ j ∈ m.keys :=
  insertEntry_keys k v m.entries

theorem foldl_erase (ks : List K) :
    (ks.foldl erase m).entries = m.entries.filter (·.1 ∉ ks) := by
  induction ks generalizing m with
  | nil => simp
  | cons k ks ih =>
    rw [List.foldl_cons, ih, erase, List.filter_filter]
    refine List.filter_congr fun p _ => ?_
    simp [Bool.and_comm]

theorem find_mem {k : K} {v : V} (found : m.find k = some v) : (k, v) ∈ m.entries := by
  obtain ⟨p, there, rfl⟩ := Option.map_eq_some_iff.mp found
  have same := List.find?_some there
  simp only [decide_eq_true_eq] at same
  rw [← same]
  exact List.mem_of_find?_eq_some there

theorem find_none {k : K} : m.find k = none ↔ k ∉ m.keys := by
  unfold find keys
  rw [Option.map_eq_none_iff, List.find?_eq_none, List.mem_map]
  constructor
  · rintro none ⟨p, mem, rfl⟩
    exact none p mem (decide_eq_true rfl)
  · intro away p mem same
    exact away ⟨p, mem, of_decide_eq_true same⟩

theorem mem_erase {k : K} {p : K × V} : p ∈ (m.erase k).entries ↔ p ∈ m.entries ∧ p.1 ≠ k := by
  simp [erase]

theorem mem_insert {k : K} {v : V} {p : K × V} : p ∈ (m.insert k v).entries ↔ p = (k, v) ∨ p ∈ m.entries ∧ p.1 ≠ k :=
  mem_insertEntry m.sorted

theorem insert_erase_perm (k : K) (v : V) : (m.insert k v).entries.Perm ((k, v) :: (m.erase k).entries) := by
  refine (List.perm_ext_iff_of_nodup (m.insert k v).nodup ?_).mpr fun p => ?_
  · refine List.nodup_cons.mpr ⟨fun mem => ?_, (m.erase k).nodup⟩
    exact (m.mem_erase.mp mem).2 rfl
  · rw [m.mem_insert, List.mem_cons, m.mem_erase]

theorem erase_perm {k : K} {v : V} (mem : (k, v) ∈ m.entries) : m.entries.Perm ((k, v) :: (m.erase k).entries) := by
  refine (List.perm_ext_iff_of_nodup m.nodup ?_).mpr fun p => ?_
  · refine List.nodup_cons.mpr ⟨fun there => ?_, (m.erase k).nodup⟩
    exact (m.mem_erase.mp there).2 rfl
  · rw [List.mem_cons, m.mem_erase]
    constructor
    · intro there
      by_cases same : p.1 = k
      · exact .inl (m.unique there mem same)
      · exact .inr ⟨there, same⟩
    · rintro (rfl | ⟨there, _⟩)
      · exact mem
      · exact there

theorem sift_perm {γ : Type*} {f : V → V ⊕ V} (g : V → γ) (same : ∀ v, g ((f v).elim id id) = g v) :
    (m.values.map g).Perm ((m.sifted f).map g ++ (m.sift f).values.map g) := by
  unfold values sifted sift
  dsimp only
  generalize m.entries = l
  induction l with
  | nil => exact .nil
  | cons p l ih =>
    have here := same p.2
    rw [List.filterMap_cons, List.filterMap_cons, List.map_cons, List.map_cons, ← here]
    cases f p.2 with
    | inl v => exact (ih.cons (g v)).trans List.perm_middle.symm
    | inr v => exact ih.cons (g v)

theorem sift_inl {f : V → V ⊕ V} (left : ∀ p ∈ m.entries, f p.2 = .inl p.2) : m.sift f = m := by
  obtain ⟨entries, sorted⟩ := m
  have same : entries.filterMap (fun p => (f p.2).getLeft?.map (p.1, ·)) = entries :=
    (List.filterMap_congr fun p mem => by rw [left p mem]; rfl).trans (List.filterMap_some ..)
  unfold sift
  simp only [same]

theorem sifted_inl {f : V → V ⊕ V} (left : ∀ p ∈ m.entries, f p.2 = .inl p.2) : m.sifted f = [] :=
  List.filterMap_eq_nil_iff.mpr fun p mem => by rw [left p mem]; rfl

theorem mem_sift {f : V → V ⊕ V} {p : K × V} :
    p ∈ (m.sift f).entries ↔ ∃ v, (p.1, v) ∈ m.entries ∧ f v = .inl p.2 := by
  unfold sift
  rw [List.mem_filterMap]
  constructor
  · rintro ⟨q, mem, taken⟩
    obtain ⟨v, left, rfl⟩ := Option.map_eq_some_iff.mp taken
    exact ⟨q.2, mem, Sum.getLeft?_eq_some_iff.mp left⟩
  · rintro ⟨v, mem, left⟩
    exact ⟨(p.1, v), mem, by simp [left]⟩

theorem mem_sifted {f : V → V ⊕ V} {v : V} : v ∈ m.sifted f ↔ ∃ w ∈ m.values, f w = .inr v := by
  unfold sifted values
  rw [List.mem_filterMap]
  constructor
  · rintro ⟨q, mem, right⟩
    exact ⟨q.2, List.mem_map_of_mem mem, Sum.getRight?_eq_some_iff.mp right⟩
  · rintro ⟨w, mem, right⟩
    obtain ⟨q, there, rfl⟩ := List.mem_map.mp mem
    exact ⟨q, there, Sum.getRight?_eq_some_iff.mpr right⟩

theorem insert_perm {k : K} (v : V) (fresh : k ∉ m.keys) : (m.insert k v).entries.Perm ((k, v) :: m.entries) :=
  insertEntry_perm v fresh

theorem first_none (ended : m.first = none) : m.entries = [] := List.head?_eq_none_iff.mp ended

theorem first_some {p : K × V} (found : m.first = some p) :
    p ∈ m.entries ∧ ∀ q ∈ m.entries, p.1 ≤ q.1 := by
  obtain ⟨rest, split⟩ := List.head?_eq_some_iff.mp found
  have sorted := m.sorted
  rw [split] at sorted ⊢
  refine ⟨by simp, fun q mem => ?_⟩
  rcases List.mem_cons.mp mem with rfl | mem
  · rfl
  · exact ((List.pairwise_cons.mp sorted).1 q mem).le

theorem next_none {k : K} (ended : m.next k = none) : ∀ q ∈ m.entries, q.1 ≤ k := by
  intro q mem
  simpa using List.find?_eq_none.mp ended q mem

theorem next_some {k : K} {p : K × V} (found : m.next k = some p) :
    p ∈ m.entries ∧ k < p.1 ∧ ∀ q ∈ m.entries, q.1 < p.1 → q.1 ≤ k := by
  obtain ⟨after, before, rest, split, passed⟩ := List.find?_eq_some_iff_append.mp found
  refine ⟨List.mem_of_find?_eq_some found, by simpa using after, fun q mem less => ?_⟩
  have sorted := m.sorted
  rw [split] at mem sorted
  rcases List.mem_append.mp mem with mem | mem
  · simpa using passed q mem
  · rcases List.mem_cons.mp mem with rfl | mem
    · exact absurd less (lt_irrefl _)
    · have later := (List.pairwise_cons.mp (List.pairwise_append.mp sorted).2.1).1 q mem
      exact absurd less later.asymm

end SortedMap

end Rts2.Lib
