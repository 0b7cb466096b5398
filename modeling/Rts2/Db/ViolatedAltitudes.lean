import Rts2.Db.Constraints

/-! The altitudes a constraint forbids. The sweep comes down from the zenith and takes the remaining interval
that ends highest; a returned interval has its upper bound first. -/
namespace Rts2.Db

deriving instance DecidableEq for ConstraintDoubleInterval

namespace ConstraintDoubleInterval

def bottom (i : ConstraintDoubleInterval) : ℚ := i.lower.getD (-90)

def HoldsAltitude (i : ConstraintDoubleInterval) : Prop :=
  max (-90) i.bottom < min 90 (i.upper.getD 90)

def Reaches (i : ConstraintDoubleInterval) (x : ℚ) : Prop :=
  ∃ l ∈ i.lower, ∃ u ∈ i.upper, min l u ≤ x ∧ x < max l u

theorem satisfy_iff (i : ConstraintDoubleInterval) (x : ℚ) (inside : -90 ≤ x) :
    i.satisfy (some x) = true ↔ i.bottom ≤ x ∧ ∀ u ∈ i.upper, x < u := by
  obtain ⟨l, u⟩ := i
  cases l <;> cases u <;> simp [satisfy, between, bottom, inside]

theorem HoldsAltitude.bottom_lt {i : ConstraintDoubleInterval} (h : i.HoldsAltitude) : i.bottom < 90 :=
  (max_lt_iff.mp (lt_min_iff.mp h).1).2

theorem HoldsAltitude.upper_gt {i : ConstraintDoubleInterval} (h : i.HoldsAltitude) {u : ℚ} (hu : i.upper = some u) :
    -90 < u ∧ i.bottom < u := by
  have below := (lt_min_iff.mp h).2
  rw [hu] at below
  exact max_lt_iff.mp below

theorem reaches_swapped {l u : ℚ} (h : u < l) (x : ℚ) : Reaches ⟨some l, some u⟩ x ↔ u ≤ x ∧ x < l := by
  simp only [Reaches, Option.mem_some, exists_eq_left', min_eq_right h.le, max_eq_left h.le]

end ConstraintDoubleInterval

open ConstraintDoubleInterval

def getAltitudeIntervals (altitude : ℚ → ℚ) (intervals : List ConstraintDoubleInterval) :
    List ConstraintDoubleInterval :=
  intervals.map fun iter => ⟨iter.upper.map altitude, iter.lower.map altitude⟩

structure AltitudeConstraint where
  altitude : ℚ → ℚ
  intervals : List ConstraintDoubleInterval
  holds : ∀ i ∈ getAltitudeIntervals altitude intervals, i.HoldsAltitude

def higher (iter : ConstraintDoubleInterval) (ah : ℚ) : Option ℚ :=
  match iter.upper, iter.lower with
  | some upper, _ => if ah < upper then some upper else none
  | none, some lower => if ah < lower then some lower else none
  | none, none => none

def findHighest : List ConstraintDoubleInterval → Nat → Nat × ℚ → Nat × ℚ
  | [], _, found => found
  | iter :: rest, k, (highest, ah) =>
    match higher iter ah with
    | some ah' => findHighest rest (k + 1) (k, ah')
    | none => findHighest rest (k + 1) (highest, ah)

def takeHighest (first : ConstraintDoubleInterval) (rest : List ConstraintDoubleInterval) :
    ConstraintDoubleInterval × Nat × ℚ :=
  let found := findHighest rest 1 (0, first.upper.getD (-90))
  ((first :: rest).getD found.1 first, found)

def over_highest (alt ah : ℚ) (highest : ConstraintDoubleInterval) : List ConstraintDoubleInterval :=
  if highest.upper ≠ none ∧ ah < alt then [⟨some alt, some ah⟩] else []

def sweep : Nat → List ConstraintDoubleInterval → ℚ → List ConstraintDoubleInterval →
    Option (List ConstraintDoubleInterval)
  | 0, _, _, _ => none
  | fuel + 1, si, alt, ac =>
    if -90 < alt then
      match si with
      | [] => sweep fuel [] (-90) (if ac ≠ [] ∨ alt < 90 then ac ++ [⟨some alt, some (-90)⟩] else ac)
      | first :: rest =>
        let (highest, place, ah) := takeHighest first rest
        sweep fuel ((first :: rest).eraseIdx place) highest.bottom (ac ++ over_highest alt ah highest)
    else some ac

def getAltitudeViolatedIntervals (fuel : Nat) (c : AltitudeConstraint) : Option (List ConstraintDoubleInterval) :=
  sweep fuel (getAltitudeIntervals c.altitude c.intervals) 90 []

def takenFirst : Nat → List ConstraintDoubleInterval → List ConstraintDoubleInterval
  | 0, _ => []
  | _ + 1, [] => []
  | n + 1, first :: rest =>
    let (highest, place, _) := takeHighest first rest
    highest :: takenFirst n ((first :: rest).eraseIdx place)

def order (si : List ConstraintDoubleInterval) : List ConstraintDoubleInterval := takenFirst si.length si

def EndsOver (h i : ConstraintDoubleInterval) : Prop := ∀ u ∈ h.upper, ∀ u' ∈ i.upper, u' ≤ u

/-- What is found is in the list, with its altitude, and no upper bound is over that. -/
structure Found (before : List ConstraintDoubleInterval) (found : Nat × ℚ) : Prop where
  lt : found.1 < before.length
  altitude : ∀ h, before[found.1]? = some h → ∀ u ∈ h.upper, found.2 = u
  above : ∀ i ∈ before, ∀ u ∈ i.upper, u ≤ found.2

theorem Found.next {before : List ConstraintDoubleInterval} {found : Nat × ℚ} (f : Found before found)
    (iter : ConstraintDoubleInterval) :
    Found (before ++ [iter])
      (match higher iter found.2 with
        | some ah' => (before.length, ah')
        | none => found) := by
  obtain ⟨highest, ah⟩ := found
  have stays : higher iter ah = none → ∀ u ∈ iter.upper, u ≤ ah := by
    intro none_ u hu
    obtain ⟨l, u'⟩ := iter
    obtain rfl : u' = some u := hu
    by_contra over_
    simp [higher, not_le.mp over_] at none_
  have rises : ∀ ah', higher iter ah = some ah' → ah < ah' ∧ ∀ u ∈ iter.upper, ah' = u := by
    intro ah' some_
    obtain ⟨l, u⟩ := iter
    cases u with
    | some u =>
      simp only [higher, Option.ite_none_right_eq_some, Option.some.injEq] at some_
      obtain ⟨lt, rfl⟩ := some_
      exact ⟨lt, by simp⟩
    | none =>
      cases l with
      | none => simp [higher] at some_
      | some l =>
        simp only [higher, Option.ite_none_right_eq_some, Option.some.injEq] at some_
        obtain ⟨lt, rfl⟩ := some_
        exact ⟨lt, by simp⟩
  cases hh : higher iter ah with
  | none =>
    constructor
    · have := f.lt
      simp only [List.length_append, List.length_cons, List.length_nil]
      omega
    · intro h hget
      rw [List.getElem?_append_left f.lt] at hget
      exact f.altitude h hget
    · intro i hi u hu
      rcases List.mem_append.mp hi with hi | hi
      · exact f.above i hi u hu
      · obtain rfl : i = iter := by simpa using hi
        exact stays hh u hu
  | some ah' =>
    obtain ⟨lt, is_⟩ := rises ah' hh
    constructor
    · simp
    · intro h hget
      have same : iter = h := by simpa using hget
      exact same ▸ is_
    · intro i hi u hu
      rcases List.mem_append.mp hi with hi | hi
      · exact (f.above i hi u hu).trans lt.le
      · obtain rfl : i = iter := by simpa using hi
        exact (is_ u hu).ge

theorem findHighest_found (rest : List ConstraintDoubleInterval) :
    ∀ (before : List ConstraintDoubleInterval) (found : Nat × ℚ), Found before found →
      Found (before ++ rest) (findHighest rest before.length found) := by
  induction rest with
  | nil =>
    intro before found f
    simpa [findHighest] using f
  | cons iter rest ih =>
    intro before found f
    have next := f.next iter
    have step := ih (before ++ [iter]) _ next
    rw [List.append_assoc, List.singleton_append, List.length_append, List.length_singleton] at step
    cases hh : higher iter found.2 with
    | none =>
      rw [hh] at step
      simpa only [findHighest, hh] using step
    | some ah' =>
      rw [hh] at step
      simpa only [findHighest, hh] using step

theorem split_at_place {n : Nat} (l : List ConstraintDoubleInterval) (lt : n < l.length) :
    ∃ left h right, l = left ++ h :: right ∧ left.length = n :=
  ⟨l.take n, l[n], l.drop (n + 1), by simp, by simp only [List.length_take]; omega⟩

theorem takeHighest_spec (first : ConstraintDoubleInterval) (rest : List ConstraintDoubleInterval) :
    ∃ left right, first :: rest = left ++ (takeHighest first rest).1 :: right ∧
      (first :: rest).eraseIdx (takeHighest first rest).2.1 = left ++ right ∧
      (∀ u ∈ (takeHighest first rest).1.upper, (takeHighest first rest).2.2 = u) ∧
      ∀ i ∈ first :: rest, EndsOver (takeHighest first rest).1 i := by
  have start : Found [first] (0, first.upper.getD (-90)) := by
    constructor
    · simp
    · intro h hget u hu
      obtain rfl : first = h := by simpa using hget
      simp [Option.mem_def.mp hu]
    · intro i hi u hu
      obtain rfl : i = first := by simpa using hi
      simp [Option.mem_def.mp hu]
  have found := findHighest_found rest [first] _ start
  change Found (first :: rest) (takeHighest first rest).2 at found
  have taken : (takeHighest first rest).1 = (first :: rest).getD (takeHighest first rest).2.1 first := rfl
  generalize (takeHighest first rest).2 = place at found taken ⊢
  obtain ⟨left, h, right, split, len⟩ := split_at_place (first :: rest) found.lt
  have taken : (takeHighest first rest).1 = h := by
    rw [taken, split, ← len]
    simp
  rw [taken]
  have altitude := found.altitude h (by rw [split, ← len]; simp)
  refine ⟨left, right, split, ?_, altitude, ?_⟩
  · rw [split, ← len]
    simp [List.eraseIdx_append_of_length_le]
  · intro i hi u hu u' hu'
    exact (found.above i hi u' hu').trans_eq (altitude u hu)

theorem takenFirst_perm : ∀ (n : Nat) (si : List ConstraintDoubleInterval), si.length = n →
    (takenFirst n si).Perm si
  | 0, si, len => by
    obtain rfl := List.length_eq_zero_iff.mp len
    exact List.Perm.nil
  | n + 1, [], len => by simp at len
  | n + 1, first :: rest, len => by
    obtain ⟨left, right, split, erased, -, -⟩ := takeHighest_spec first rest
    have shorter : (left ++ right).length = n := by
      have := congrArg List.length split
      simp only [List.length_append, List.length_cons] at this len ⊢
      omega
    have rest_perm := takenFirst_perm n (left ++ right) shorter
    simp only [takenFirst, erased]
    rw [split]
    exact (rest_perm.cons _).trans List.perm_middle.symm

theorem takenFirst_sorted : ∀ (n : Nat) (si : List ConstraintDoubleInterval), si.length = n →
    (takenFirst n si).Pairwise EndsOver
  | 0, si, _ => List.Pairwise.nil
  | n + 1, [], _ => List.Pairwise.nil
  | n + 1, first :: rest, len => by
    obtain ⟨left, right, split, erased, -, above⟩ := takeHighest_spec first rest
    have shorter : (left ++ right).length = n := by
      have := congrArg List.length split
      simp only [List.length_append, List.length_cons] at this len ⊢
      omega
    simp only [takenFirst, erased]
    refine List.Pairwise.cons ?_ (takenFirst_sorted n (left ++ right) shorter)
    intro i hi
    apply above i
    rw [split]
    have := (takenFirst_perm n (left ++ right) shorter).mem_iff.mp hi
    simp only [List.mem_append, List.mem_cons] at this ⊢
    tauto

theorem order_perm (si : List ConstraintDoubleInterval) : (order si).Perm si := takenFirst_perm _ si rfl

theorem order_sorted (si : List ConstraintDoubleInterval) : (order si).Pairwise EndsOver := takenFirst_sorted _ si rfl

def violated : ℚ → List ConstraintDoubleInterval → List ConstraintDoubleInterval
  | alt, [] => if -90 < alt then [⟨some alt, some (-90)⟩] else []
  | alt, h :: rest =>
    if -90 < alt then over_highest alt (h.upper.getD (-90)) h ++ violated h.bottom rest else []

theorem violated_below {alt : ℚ} (low : ¬ -90 < alt) (L : List ConstraintDoubleInterval) : violated alt L = [] := by
  cases L <;> simp [violated, low]

theorem over_highest_found {alt ah : ℚ} {h : ConstraintDoubleInterval} (found : ∀ u ∈ h.upper, ah = u) :
    over_highest alt ah h = over_highest alt (h.upper.getD (-90)) h := by
  cases hu : h.upper with
  | none => simp [over_highest, hu]
  | some u => simp [over_highest, hu, found u hu]

theorem sweep_eq : ∀ (n : Nat) (si : List ConstraintDoubleInterval) (alt : ℚ) (ac : List ConstraintDoubleInterval)
    (fuel : Nat), si.length = n → n + 2 ≤ fuel → (∀ i ∈ si, i.HoldsAltitude) → (si = [] → alt < 90) →
    sweep fuel si alt ac = some (ac ++ violated alt (takenFirst n si))
  | _, si, alt, ac, 0, _, enough, _, _ => by omega
  | n, [], alt, ac, fuel + 1, len, enough, _, below => by
    obtain ⟨fuel, rfl⟩ : ∃ f, fuel = f + 1 := ⟨fuel - 1, by omega⟩
    by_cases low : -90 < alt
    · cases n <;> simp [sweep, low, below rfl, violated, takenFirst]
    · cases n <;> simp [sweep, low, violated, takenFirst]
  | 0, first :: rest, _, _, _, len, _, _, _ => by simp at len
  | n + 1, first :: rest, alt, ac, fuel + 1, len, enough, holds, _ => by
    by_cases low : -90 < alt
    · obtain ⟨left, right, split, erased, altitude, -⟩ := takeHighest_spec first rest
      have shorter : (left ++ right).length = n := by
        have := congrArg List.length split
        simp only [List.length_append, List.length_cons] at this len ⊢
        omega
      have holds_rest : ∀ i ∈ left ++ right, i.HoldsAltitude := by
        intro i hi
        apply holds i
        rw [split]
        simp only [List.mem_append, List.mem_cons] at hi ⊢
        tauto
      have highest : (takeHighest first rest).1.HoldsAltitude := by
        apply holds
        rw [split]
        simp
      simp only [sweep, if_pos low, takenFirst, violated, erased]
      rw [sweep_eq n (left ++ right) _ _ fuel shorter (by omega) holds_rest (fun _ => highest.bottom_lt),
        over_highest_found altitude, List.append_assoc]
    · simp [sweep, low, violated, takenFirst]

def level : ℚ → List ConstraintDoubleInterval → ℚ
  | alt, [] => alt
  | _, h :: rest => level h.bottom rest

@[simp] theorem level_concat (alt : ℚ) (before : List ConstraintDoubleInterval) (h : ConstraintDoubleInterval) :
    level alt (before ++ [h]) = h.bottom := by
  induction before generalizing alt with
  | nil => rfl
  | cons i before ih => exact ih i.bottom

theorem level_append (alt : ℚ) (before after : List ConstraintDoubleInterval) :
    level alt (before ++ after) = level (level alt before) after := by
  induction before generalizing alt with
  | nil => rfl
  | cons i before ih => exact ih i.bottom

theorem level_lt_or (alt : ℚ) (before : List ConstraintDoubleInterval) :
    (before = [] ∧ level alt before = alt) ∨ ∃ front h, before = front ++ [h] ∧ level alt before = h.bottom := by
  rcases List.eq_nil_or_concat before with rfl | ⟨front, h, rfl⟩
  · exact .inl ⟨rfl, rfl⟩
  · exact .inr ⟨front, h, by simp, by simp⟩

def Passes (before : List ConstraintDoubleInterval) : Prop := ∀ i ∈ before, -90 < i.bottom

theorem level_passes {alt : ℚ} {before : List ConstraintDoubleInterval} (low : -90 < alt) (passes : Passes before) :
    -90 < level alt before := by
  rcases level_lt_or alt before with ⟨-, eq⟩ | ⟨front, h, rfl, eq⟩
  · rwa [eq]
  · rw [eq]
    exact passes h (by simp)

theorem violated_append {alt : ℚ} {before : List ConstraintDoubleInterval} (low : -90 < alt) (passes : Passes before)
    (after : List ConstraintDoubleInterval) :
    ∃ front, violated alt (before ++ after) = front ++ violated (level alt before) after := by
  induction before generalizing alt with
  | nil => exact ⟨[], rfl⟩
  | cons h before ih =>
    obtain ⟨front, eq⟩ := ih (passes h (by simp)) (fun i hi => passes i (by simp [hi]))
    exact ⟨over_highest alt (h.upper.getD (-90)) h ++ front, by
      rw [List.cons_append, violated, if_pos low, eq, List.append_assoc, level]⟩

theorem mem_violated (alt : ℚ) (L : List ConstraintDoubleInterval) (r : ConstraintDoubleInterval) (low : -90 < alt) :
    r ∈ violated alt L ↔
      (∃ before h after u, L = before ++ h :: after ∧ Passes before ∧ h.upper = some u ∧ u < level alt before ∧
        r = ⟨some (level alt before), some u⟩) ∨
      (Passes L ∧ r = ⟨some (level alt L), some (-90)⟩) := by
  induction L generalizing alt with
  | nil => simp [violated, low, Passes, level]
  | cons h rest ih =>
    have here : r ∈ over_highest alt (h.upper.getD (-90)) h ↔
        ∃ u, h.upper = some u ∧ u < alt ∧ r = ⟨some alt, some u⟩ := by
      cases hu : h.upper <;> simp [over_highest, hu]
    simp only [violated, if_pos low, List.mem_append, here]
    by_cases deep : -90 < h.bottom
    · rw [ih h.bottom deep]
      constructor
      · rintro (⟨u, hu, lt, rfl⟩ | ⟨before, h', after, u, rfl, passes, hu, lt, rfl⟩ | ⟨passes, rfl⟩)
        · exact .inl ⟨[], h, rest, u, rfl, by simp [Passes], hu, lt, rfl⟩
        · refine .inl ⟨h :: before, h', after, u, rfl, ?_, hu, lt, rfl⟩
          simpa [Passes, deep] using passes
        · refine .inr ⟨?_, rfl⟩
          simpa [Passes, deep] using passes
      · rintro (⟨before, h', after, u, split, passes, hu, lt, rfl⟩ | ⟨passes, rfl⟩)
        · cases before with
          | nil =>
            obtain ⟨rfl, rfl⟩ := List.cons.inj split
            exact .inl ⟨u, hu, lt, rfl⟩
          | cons i before =>
            obtain ⟨rfl, rfl⟩ := List.cons.inj split
            exact .inr (.inl ⟨before, h', after, u, rfl, fun j hj => passes j (by simp [hj]), hu, lt, rfl⟩)
        · exact .inr (.inr ⟨fun j hj => passes j (by simp [hj]), rfl⟩)
    · rw [violated_below deep]
      constructor
      · rintro (⟨u, hu, lt, rfl⟩ | impossible)
        · exact .inl ⟨[], h, rest, u, rfl, by simp [Passes], hu, lt, rfl⟩
        · simp at impossible
      · rintro (⟨before, h', after, u, split, passes, hu, lt, rfl⟩ | ⟨passes, rfl⟩)
        · cases before with
          | nil =>
            obtain ⟨rfl, rfl⟩ := List.cons.inj split
            exact .inl ⟨u, hu, lt, rfl⟩
          | cons i before =>
            obtain ⟨rfl, rfl⟩ := List.cons.inj split
            exact (deep (passes h (by simp))).elim
        · exact (deep (passes h (by simp))).elim

def Uncovered (L : List ConstraintDoubleInterval) (x : ℚ) : Prop :=
  -90 ≤ x ∧ x < 90 ∧ ∀ i ∈ L, i.satisfy (some x) = false

def Disjoint_ (r s : ConstraintDoubleInterval) : Prop := ∀ x, ¬ (r.Reaches x ∧ s.Reaches x)

def Right (si ac : List ConstraintDoubleInterval) : Prop :=
  ac.Pairwise Disjoint_ ∧ ∀ x, (∃ r ∈ ac, r.Reaches x) ↔ Uncovered si x

/-- Where the sweep says that something is violated under its level, the level is under all it must be. -/
def Descends (L : List ConstraintDoubleInterval) : Prop :=
  (∀ before h after, L = before ++ h :: after → Passes before → ∀ u, h.upper = some u → u < level 90 before →
    (∀ i ∈ before, level 90 before ≤ i.bottom) ∧ ∀ i ∈ L, i.upper = none → level 90 before ≤ i.bottom) ∧
  (Passes L → ∀ i ∈ L, level 90 L ≤ i.bottom)

theorem not_satisfied (i : ConstraintDoubleInterval) (x : ℚ) (inside : -90 ≤ x) :
    i.satisfy (some x) = false ↔ (i.bottom ≤ x → ∃ u, i.upper = some u ∧ u ≤ x) := by
  rw [← Bool.not_eq_true, i.satisfy_iff x inside]
  cases i.upper <;> simp

theorem uncovered_returned {L : List ConstraintDoubleInterval} {x : ℚ} (uncovered : Uncovered L x) :
    ∃ r ∈ violated 90 L, r.Reaches x := by
  obtain ⟨inside, below, free⟩ := uncovered
  suffices general : ∀ alt, x < alt → ∃ r ∈ violated alt L, r.Reaches x from general 90 below
  induction L with
  | nil =>
    intro alt lt
    have low : -90 < alt := inside.trans_lt lt
    exact ⟨⟨some alt, some (-90)⟩, by simp [violated, low], (reaches_swapped low x).mpr ⟨inside, lt⟩⟩
  | cons h rest ih =>
    intro alt lt
    have low : -90 < alt := inside.trans_lt lt
    rw [violated, if_pos low]
    by_cases over_ : x < h.bottom
    · obtain ⟨r, hr, reaches⟩ := ih (fun i hi => free i (by simp [hi])) h.bottom over_
      exact ⟨r, List.mem_append_right _ hr, reaches⟩
    · obtain ⟨u, hu, le⟩ := (not_satisfied h x inside).mp (free h (by simp)) (not_lt.mp over_)
      refine ⟨⟨some alt, some u⟩, List.mem_append_left _ ?_, (reaches_swapped (le.trans_lt lt) x).mpr ⟨le, lt⟩⟩
      simp [over_highest, hu, le.trans_lt lt]

section Sweep

variable {L : List ConstraintDoubleInterval} (holds : ∀ i ∈ L, i.HoldsAltitude) (sorted : L.Pairwise EndsOver)

include holds in
theorem level_le {before after : List ConstraintDoubleInterval} (split : L = before ++ after) : level 90 before ≤ 90 := by
  rcases level_lt_or 90 before with ⟨-, eq⟩ | ⟨front, h, rfl, eq⟩
  · exact eq.le
  · rw [eq]
    exact (holds h (by simp [split])).bottom_lt.le

include sorted in
theorem ends_over {before after : List ConstraintDoubleInterval} {h : ConstraintDoubleInterval}
    (split : L = before ++ h :: after) : (∀ i ∈ before, EndsOver i h) ∧ ∀ i ∈ after, EndsOver h i := by
  rw [split, List.pairwise_append, List.pairwise_cons] at sorted
  exact ⟨fun i hi => sorted.2.2 i hi h (by simp), sorted.2.1.1⟩

include holds sorted in
theorem returned_uncovered (descends : Descends L) {r : ConstraintDoubleInterval} (hr : r ∈ violated 90 L) {x : ℚ}
    (reaches : r.Reaches x) : Uncovered L x := by
  rcases (mem_violated 90 L r (by norm_num)).mp hr with
    ⟨before, h, after, u, split, passes, hu, lt, rfl⟩ | ⟨passes, rfl⟩
  · obtain ⟨le, below⟩ := (reaches_swapped lt x).mp reaches
    obtain ⟨over_before, over_open⟩ := descends.1 before h after split passes u hu lt
    have inside : -90 ≤ x := ((holds h (by simp [split])).upper_gt hu).1.le.trans le
    refine ⟨inside, below.trans_le (level_le holds split), ?_⟩
    intro i hi
    apply (not_satisfied i x inside).mpr
    intro at_bottom
    have reached : i.bottom < level 90 before := at_bottom.trans_lt below
    have place := hi
    rw [split, List.mem_append, List.mem_cons] at place
    rcases place with place | rfl | place
    · exact (not_le_of_gt reached (over_before i place)).elim
    · exact ⟨u, hu, le⟩
    · cases hu' : i.upper with
      | none => exact (not_le_of_gt reached (over_open i hi hu')).elim
      | some u' => exact ⟨u', rfl, ((ends_over sorted split).2 i place u hu u' hu').trans le⟩
  · have low := level_passes (by norm_num : (-90 : ℚ) < 90) passes
    obtain ⟨inside, below⟩ := (reaches_swapped low x).mp reaches
    refine ⟨inside, below.trans_le (level_le holds (List.append_nil _).symm), ?_⟩
    intro i hi
    apply (not_satisfied i x inside).mpr
    intro at_bottom
    exact (not_le_of_gt (at_bottom.trans_lt below) (descends.2 passes i hi)).elim

include holds in
theorem descends_disjoint (descends : Descends L) (rest : List ConstraintDoubleInterval) :
    ∀ before, L = before ++ rest → Passes before → (violated (level 90 before) rest).Pairwise Disjoint_ := by
  induction rest with
  | nil =>
    intro before _ passes
    simp [violated, level_passes (by norm_num : (-90 : ℚ) < 90) passes]
  | cons h rest ih =>
    intro before split passes
    have low := level_passes (by norm_num : (-90 : ℚ) < 90) passes
    have split' : L = (before ++ [h]) ++ rest := by simp [split]
    rw [violated, if_pos low]
    by_cases deep : -90 < h.bottom
    · have passes' : Passes (before ++ [h]) := by
        intro i hi
        rcases List.mem_append.mp hi with hi | hi
        · exact passes i hi
        · rwa [List.mem_singleton.mp hi]
      have tail := ih (before ++ [h]) split' passes'
      rw [level_concat] at tail
      refine List.pairwise_append.mpr ⟨?_, tail, ?_⟩
      · unfold over_highest
        split <;> simp
      · intro r hr s hs x ⟨in_r, in_s⟩
        obtain ⟨u, hu, lt, rfl⟩ : ∃ u, h.upper = some u ∧ u < level 90 before ∧ r = ⟨some (level 90 before), some u⟩ := by
          cases hu : h.upper <;> simp_all [over_highest]
        have from_ := ((reaches_swapped lt x).mp in_r).1
        have over_bottom := ((holds h (by simp [split])).upper_gt hu).2
        rcases (mem_violated h.bottom rest s deep).mp hs with
          ⟨b, h', a, u', split_rest, passes_b, hu', lt', rfl⟩ | ⟨passes_rest, rfl⟩
        · have upto := ((reaches_swapped lt' x).mp in_s).2
          have level_eq : level 90 (before ++ h :: b) = level h.bottom b := by rw [level_append, level]
          have passes_all : Passes (before ++ h :: b) := by
            intro i hi
            rcases List.mem_append.mp hi with hi | hi
            · exact passes i hi
            · rcases List.mem_cons.mp hi with rfl | hi
              · exact deep
              · exact passes_b i hi
          have under := (descends.1 (before ++ h :: b) h' a (by rw [split, split_rest]; simp) passes_all u' hu'
            (by rw [level_eq]; exact lt')).1 h (by simp)
          rw [level_eq] at under
          linarith
        · have upto := ((reaches_swapped (level_passes deep passes_rest) x).mp in_s).2
          have level_eq : level 90 L = level h.bottom rest := by rw [split, level_append, level]
          have passes_all : Passes L := by
            intro i hi
            rw [split] at hi
            rcases List.mem_append.mp hi with hi | hi
            · exact passes i hi
            · rcases List.mem_cons.mp hi with rfl | hi
              · exact deep
              · exact passes_rest i hi
          have under := descends.2 passes_all h (by simp [split])
          rw [level_eq] at under
          linarith
    · rw [violated_below deep, List.append_nil]
      unfold over_highest
      split <;> simp

include holds sorted in
theorem right_of_descends (descends : Descends L) : Right L (violated 90 L) := by
  constructor
  · exact descends_disjoint holds descends L [] rfl (by simp [Passes])
  · intro x
    constructor
    · rintro ⟨r, hr, reaches⟩
      exact returned_uncovered holds sorted descends hr reaches
    · exact uncovered_returned

theorem Right.free {r : ConstraintDoubleInterval} {ac : List ConstraintDoubleInterval} (right : Right L ac)
    (hr : r ∈ ac) {x : ℚ} (reaches : r.Reaches x) {i : ConstraintDoubleInterval} (hi : i ∈ L) (at_bottom : i.bottom ≤ x) :
    ∃ u, i.upper = some u ∧ u ≤ x := by
  obtain ⟨inside, -, free⟩ := (right.2 x).mp ⟨r, hr, reaches⟩
  exact (not_satisfied i x inside).mp (free i hi) at_bottom

theorem once_over (right : Right L (violated 90 L)) {front back after : List ConstraintDoubleInterval}
    {i h : ConstraintDoubleInterval} (split : L = front ++ i :: (back ++ h :: after))
    (passes : Passes (front ++ i :: back)) {u : ℚ} (hi : i.upper = some u) (hh : h.upper = some u)
    (lt : u < level 90 (front ++ i :: back)) : level 90 front ≤ u := by
  by_contra over_
  have passes_front : Passes front := fun j hj => passes j (by simp [hj])
  have deep : -90 < i.bottom := passes i (by simp)
  have low := level_passes (by norm_num : (-90 : ℚ) < 90) passes_front
  obtain ⟨above, eq⟩ := violated_append (by norm_num : (-90 : ℚ) < 90) passes_front (i :: (back ++ h :: after))
  rw [split, eq, violated, if_pos low] at right
  have first : (⟨some (level 90 front), some u⟩ : ConstraintDoubleInterval) ∈
      over_highest (level 90 front) (i.upper.getD (-90)) i := by
    simp [over_highest, hi, not_le.mp over_]
  rw [level_append, level] at lt
  have second : (⟨some (level i.bottom back), some u⟩ : ConstraintDoubleInterval) ∈
      violated i.bottom (back ++ h :: after) :=
    (mem_violated _ _ _ deep).mpr
      (.inl ⟨back, h, after, u, rfl, fun j hj => passes j (by simp [hj]), hh, lt, rfl⟩)
  have apart := (List.pairwise_append.mp (List.pairwise_append.mp right.1).2.1).2.2 _ first _ second u
  exact apart ⟨(reaches_swapped (not_le.mp over_) u).mpr ⟨le_rfl, not_le.mp over_⟩,
    (reaches_swapped lt u).mpr ⟨le_rfl, lt⟩⟩

include holds sorted in
theorem descends_of_right (right : Right L (violated 90 L)) : Descends L := by
  constructor
  · intro before h after split passes u hu lt
    have returned : (⟨some (level 90 before), some u⟩ : ConstraintDoubleInterval) ∈ violated 90 L :=
      (mem_violated _ _ _ (by norm_num)).mpr (.inl ⟨before, h, after, u, split, passes, hu, lt, rfl⟩)
    -- an interval that begins under the level ends under its own bottom or under u
    have ends : ∀ i ∈ L, i.bottom < level 90 before → ∃ u', i.upper = some u' ∧ u' ≤ max u i.bottom := by
      intro i hi under
      exact right.free returned ((reaches_swapped lt _).mpr ⟨le_max_left _ _, max_lt lt under⟩) hi (le_max_right _ _)
    constructor
    · suffices by_place : ∀ n front i back, before = front ++ i :: back → front.length = n →
          level 90 before ≤ i.bottom by
        intro i hi
        obtain ⟨front, back, split_i⟩ := List.append_of_mem hi
        exact by_place _ front i back split_i rfl
      intro n
      induction n using Nat.strong_induction_on with
      | _ n ih =>
        intro front i back split_i len
        by_contra under
        have hi : i ∈ L := by simp [split, split_i]
        obtain ⟨u', hu', le⟩ := ends i hi (not_le.mp under)
        have bottom_lt := ((holds i hi).upper_gt hu').2
        have ordered : u ≤ u' := (ends_over sorted split).1 i (by simp [split_i]) u' hu' u hu
        obtain rfl : u' = u := by
          rcases le_max_iff.mp le with le | le
          · exact le_antisymm le ordered
          · linarith
        have placed : L = front ++ i :: (back ++ h :: after) := by simp [split, split_i]
        have level_front := once_over right placed (split_i ▸ passes) hu' hu (split_i ▸ lt)
        rcases level_lt_or 90 front with ⟨rfl, eq⟩ | ⟨front', j, rfl, eq⟩
        · have := level_le holds split
          rw [eq] at level_front
          linarith
        · have upto := ih front'.length (by rw [← len]; simp) front' j (i :: back) (by simp [split_i]) rfl
          rw [eq] at level_front
          linarith
    · intro i hi unbounded
      by_contra under
      obtain ⟨u', hu', -⟩ := ends i hi (not_le.mp under)
      rw [unbounded] at hu'
      cases hu'
  · intro passes i hi
    by_contra under
    have low := level_passes (by norm_num : (-90 : ℚ) < 90) passes
    have returned : (⟨some (level 90 L), some (-90)⟩ : ConstraintDoubleInterval) ∈ violated 90 L :=
      (mem_violated _ _ _ (by norm_num)).mpr (.inr ⟨passes, rfl⟩)
    obtain ⟨u, hu, le⟩ := right.free returned
      ((reaches_swapped low _).mpr ⟨(passes i hi).le, not_le.mp under⟩) hi le_rfl
    exact not_lt_of_ge le ((holds i hi).upper_gt hu).2

end Sweep

theorem Right.congr {si si' ac : List ConstraintDoubleInterval} (same : ∀ i, i ∈ si ↔ i ∈ si') :
    Right si ac ↔ Right si' ac := by
  simp only [Right, Uncovered, same]

/-- The forbidden altitudes are returned rightly when there is an interval and the sweep descends. -/
theorem violated_altitudes (c : AltitudeConstraint) :
    ∃ ac, (∀ fuel, c.intervals.length + 2 ≤ fuel → getAltitudeViolatedIntervals fuel c = some ac) ∧
      (Right (getAltitudeIntervals c.altitude c.intervals) ac ↔
        c.intervals ≠ [] ∧ Descends (order (getAltitudeIntervals c.altitude c.intervals))) := by
  have holds := c.holds
  have length_eq : (getAltitudeIntervals c.altitude c.intervals).length = c.intervals.length := by
    simp [getAltitudeIntervals]
  by_cases empty : c.intervals = []
  · have none_ : getAltitudeIntervals c.altitude c.intervals = [] := by simp [getAltitudeIntervals, empty]
    refine ⟨[], ?_, ?_⟩
    · intro fuel enough
      obtain ⟨fuel, rfl⟩ : ∃ f, fuel = f + 2 := ⟨fuel - 2, by omega⟩
      simp [getAltitudeViolatedIntervals, none_, sweep]
    · rw [none_]
      have wrong : ¬ Right [] [] := by
        intro right
        have := (right.2 0).mpr ⟨by norm_num, by norm_num, by simp⟩
        simp at this
      simp [wrong, empty]
  · have nonempty : getAltitudeIntervals c.altitude c.intervals ≠ [] := by simp [getAltitudeIntervals, empty]
    have perm := order_perm (getAltitudeIntervals c.altitude c.intervals)
    have holds' : ∀ i ∈ order (getAltitudeIntervals c.altitude c.intervals), i.HoldsAltitude :=
      fun i hi => holds i (perm.mem_iff.mp hi)
    refine ⟨violated 90 (order (getAltitudeIntervals c.altitude c.intervals)), ?_, ?_⟩
    · intro fuel enough
      have run := sweep_eq _ _ 90 [] fuel rfl (by omega) holds (fun h => (nonempty h).elim)
      rwa [List.nil_append] at run
    · rw [Right.congr fun i => perm.mem_iff.symm, and_iff_right empty]
      exact ⟨descends_of_right holds' (order_sorted _), right_of_descends holds' (order_sorted _)⟩

def nestedAltitudes : AltitudeConstraint where
  altitude zd := 90 - zd
  intervals := [⟨some 10, some 90⟩, ⟨some 30, some 70⟩]
  holds := by
    intro i hi
    simp only [getAltitudeIntervals, List.map_cons, List.map_nil, List.mem_cons, List.not_mem_nil, or_false] at hi
    rcases hi with rfl | rfl <;> norm_num [HoldsAltitude, bottom]

/-- The inner interval raises the level of the sweep again. -/
theorem nested_altitudes_returned : ¬ ∀ c : AltitudeConstraint,
    ∃ ac, (∀ fuel, c.intervals.length + 2 ≤ fuel → getAltitudeViolatedIntervals fuel c = some ac) ∧
      Right (getAltitudeIntervals c.altitude c.intervals) ac := by
  intro all
  obtain ⟨ac, run, right⟩ := all nestedAltitudes
  have returned : getAltitudeViolatedIntervals 4 nestedAltitudes =
      some [⟨some 90, some 80⟩, ⟨some 20, some (-90)⟩] := by decide +kernel
  obtain rfl := Option.some.inj ((run 4 le_rfl).symm.trans returned)
  have low : (⟨some 20, some (-90)⟩ : ConstraintDoubleInterval).Reaches 10 :=
    (reaches_swapped (by norm_num) 10).mpr (by norm_num)
  obtain ⟨u, hu, le⟩ := right.free (by simp) low (i := ⟨some 0, some 80⟩) (by norm_num [nestedAltitudes, getAltitudeIntervals])
    (by norm_num [bottom])
  obtain rfl : 80 = u := by simpa using hu
  norm_num at le

end Rts2.Db
