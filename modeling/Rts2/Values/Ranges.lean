import Rts2.Values.Arrays

/-! The indices that a text of ranges names, and the elements of an array that are set with them. -/
namespace Rts2.Values

open Scripts.Parsing (Text isdigit)

inductive RangeState where
  | FROM
  | TO
  | ARRAY_LEFT
deriving DecidableEq

structure RangeParser where
  from_ : ℕ
  to_ : ℕ
  state : RangeState
  ret : List ℕ

/-- The indices and `endp`; a number that is no int has no defined result. -/
inductive RangeResult where
  | indices (ret : List ℕ) (endp : Text)
  | overflow

def decimalValue (c : Char) : ℕ := c.toNat - 48

def pushed (array_size from_ to_ : ℕ) (state : RangeState) : List ℕ :=
  let first := if 0 < from_ then from_ - 1 else from_
  let last :=
    if to_ = 0 ∨ array_size < to_ then
      if state = .TO then array_size
      else if array_size < to_ then first else first + 1
    else to_
  List.range' first (last - first)

def RangeParser.push (array_size : ℕ) (p : RangeParser) : List ℕ :=
  p.ret ++ pushed array_size p.from_ p.to_ p.state

def parseRangeFrom (array_size : ℕ) (p : RangeParser) : Text → RangeResult
  | [] => .indices (p.push array_size) []
  | c :: rest =>
    if isdigit c then
      if p.state = .TO then
        let to_ := p.to_ * 10 + decimalValue c
        if to_ < 2 ^ 31 then parseRangeFrom array_size { p with to_ } rest else .overflow
      else
        let from_ := p.from_ * 10 + decimalValue c
        if from_ < 2 ^ 31 then parseRangeFrom array_size { p with from_, state := .FROM } rest
        else .overflow
    else if c = ':' then
      if p.state = .TO then .indices p.ret (c :: rest)
      else parseRangeFrom array_size { p with state := .TO } rest
    else if c = ',' then
      parseRangeFrom array_size ⟨0, 0, .ARRAY_LEFT, p.push array_size⟩ rest
    else .indices p.ret (c :: rest)

def parseRange (range_str : Text) (array_size : ℕ) : RangeResult :=
  if range_str = [] then .indices (List.range array_size) []
  else parseRangeFrom array_size ⟨0, 0, .FROM, []⟩ range_str

structure Number where
  digits : Text
  some_digit : digits ≠ []
  all : ∀ c ∈ digits, isdigit c = true

def Number.value (n : Number) : ℕ := Scripts.Parsing.digitsValue n.digits

inductive RangeItem where
  | single (n : Number)
  | between (n m : Number)
  | onwards (n : Number)
  | upTo (m : Number)

namespace RangeItem

def text : RangeItem → Text
  | single n => n.digits
  | between n m => n.digits ++ ':' :: m.digits
  | onwards n => n.digits ++ [':']
  | upTo m => ':' :: m.digits

def Names : RangeItem → ℕ → Prop
  | single n, k => k = n.value
  | between n m, k => n.value ≤ k ∧ k ≤ m.value
  | onwards n, k => n.value ≤ k
  | upTo m, k => k ≤ m.value

def Small : RangeItem → Prop
  | single n => n.value < 2 ^ 31
  | between n m => n.value < 2 ^ 31 ∧ m.value < 2 ^ 31
  | onwards n => n.value < 2 ^ 31
  | upTo m => m.value < 2 ^ 31

def read : RangeItem → ℕ × ℕ × RangeState
  | single n => (n.value, 0, .FROM)
  | between n m => (n.value, m.value, .TO)
  | onwards n => (n.value, 0, .TO)
  | upTo m => (0, m.value, .TO)

def pushes (array_size : ℕ) (item : RangeItem) : List ℕ :=
  pushed array_size item.read.1 item.read.2.1 item.read.2.2

end RangeItem

def indexText : List RangeItem → Text
  | [] => []
  | item :: items => item.text ++ items.flatMap (fun item => ',' :: item.text)

def Named (items : List RangeItem) (array_size k : ℕ) : Prop :=
  k < array_size ∧ (items = [] ∨ ∃ item ∈ items, item.Names (k + 1))

theorem digits_grow (digits : Text) (v : ℕ) :
    v ≤ digits.foldl (fun v c => v * 10 + decimalValue c) v := by
  induction digits generalizing v with
  | nil => exact le_rfl
  | cons c digits ih =>
    have further := ih (v * 10 + decimalValue c)
    rw [List.foldl_cons]
    omega

theorem parseRangeFrom_to (array_size from_ to_ : ℕ) (ret : List ℕ) {digits : Text}
    (all : ∀ c ∈ digits, isdigit c = true) (rest : Text)
    (small : digits.foldl (fun v c => v * 10 + decimalValue c) to_ < 2 ^ 31) :
    parseRangeFrom array_size ⟨from_, to_, .TO, ret⟩ (digits ++ rest) =
      parseRangeFrom array_size
        ⟨from_, digits.foldl (fun v c => v * 10 + decimalValue c) to_, .TO, ret⟩ rest := by
  induction digits generalizing to_ with
  | nil => rfl
  | cons c digits ih =>
    obtain ⟨digit, all⟩ := List.forall_mem_cons.mp all
    have more := digits_grow digits (to_ * 10 + decimalValue c)
    rw [List.foldl_cons] at small ⊢
    rw [List.cons_append, parseRangeFrom, if_pos digit, if_pos rfl]
    dsimp only
    rw [if_pos (by omega)]
    exact ih _ all small

theorem parseRangeFrom_from (array_size from_ : ℕ) {state : RangeState} (before : state ≠ .TO)
    (ret : List ℕ) {digits : Text} (all : ∀ c ∈ digits, isdigit c = true) (some_digit : digits ≠ [])
    (rest : Text) (small : digits.foldl (fun v c => v * 10 + decimalValue c) from_ < 2 ^ 31) :
    parseRangeFrom array_size ⟨from_, 0, state, ret⟩ (digits ++ rest) =
      parseRangeFrom array_size
        ⟨digits.foldl (fun v c => v * 10 + decimalValue c) from_, 0, .FROM, ret⟩ rest := by
  induction digits generalizing from_ state with
  | nil => exact absurd rfl some_digit
  | cons c digits ih =>
    obtain ⟨digit, all⟩ := List.forall_mem_cons.mp all
    have more := digits_grow digits (from_ * 10 + decimalValue c)
    rw [List.foldl_cons] at small ⊢
    rw [List.cons_append, parseRangeFrom, if_pos digit, if_neg before]
    dsimp only
    rw [if_pos (by omega)]
    cases digits with
    | nil => rfl
    | cons d digits => exact ih _ (by decide) all (by simp) small

theorem parseRangeFrom_overflow (array_size : ℕ) (p : RangeParser) {digits : Text}
    (all : ∀ c ∈ digits, isdigit c = true) (rest : Text)
    (int_ : p.from_ < 2 ^ 31 ∧ p.to_ < 2 ^ 31)
    (large : 2 ^ 31 ≤ digits.foldl (fun v c => v * 10 + decimalValue c)
      (if p.state = .TO then p.to_ else p.from_)) :
    parseRangeFrom array_size p (digits ++ rest) = .overflow := by
  induction digits generalizing p with
  | nil =>
    rw [List.foldl_nil] at large
    split at large <;> omega
  | cons c digits ih =>
    obtain ⟨digit, all⟩ := List.forall_mem_cons.mp all
    rw [List.foldl_cons] at large
    rw [List.cons_append, parseRangeFrom, if_pos digit]
    split
    next to_ =>
      rw [if_pos to_] at large
      dsimp only
      split
      next small =>
        refine ih _ all ⟨int_.1, small⟩ ?_
        rw [if_pos to_]
        exact large
      · rfl
    next from_ =>
      rw [if_neg from_] at large
      dsimp only
      split
      next small =>
        refine ih _ all ⟨small, int_.2⟩ ?_
        exact large
      · rfl

theorem Number.value_eq (n : Number) :
    n.digits.foldl (fun v c => v * 10 + decimalValue c) 0 = n.value := rfl

theorem parseRangeFrom_colon (array_size : ℕ) {p : RangeParser} (before : p.state ≠ .TO)
    (rest : Text) : parseRangeFrom array_size p (':' :: rest) =
      parseRangeFrom array_size { p with state := .TO } rest := by
  rw [parseRangeFrom, if_neg (by decide), if_pos rfl, if_neg before]

theorem parseRangeFrom_item (array_size : ℕ) {state : RangeState} (before : state ≠ .TO)
    (ret : List ℕ) (item : RangeItem) (rest : Text) :
    (item.Small → parseRangeFrom array_size ⟨0, 0, state, ret⟩ (item.text ++ rest) =
      parseRangeFrom array_size ⟨item.read.1, item.read.2.1, item.read.2.2, ret⟩ rest) ∧
    (¬ item.Small →
      parseRangeFrom array_size ⟨0, 0, state, ret⟩ (item.text ++ rest) = .overflow) := by
  have first (n : Number) (small : n.value < 2 ^ 31) (rest : Text) :
      parseRangeFrom array_size ⟨0, 0, state, ret⟩ (n.digits ++ rest) =
        parseRangeFrom array_size ⟨n.value, 0, .FROM, ret⟩ rest :=
    parseRangeFrom_from array_size 0 before ret n.all n.some_digit rest small
  have first_large (n : Number) (large : ¬ n.value < 2 ^ 31) (rest : Text) :
      parseRangeFrom array_size ⟨0, 0, state, ret⟩ (n.digits ++ rest) = .overflow := by
    refine parseRangeFrom_overflow array_size _ n.all rest ⟨by simp, by simp⟩ ?_
    rw [if_neg before]
    exact Nat.le_of_not_lt large
  have colon (from_ : ℕ) {st : RangeState} (st_before : st ≠ .TO) (rest : Text) :
      parseRangeFrom array_size ⟨from_, 0, st, ret⟩ (':' :: rest) =
        parseRangeFrom array_size ⟨from_, 0, .TO, ret⟩ rest :=
    parseRangeFrom_colon array_size (p := ⟨from_, 0, st, ret⟩) st_before rest
  have second (from_ : ℕ) (m : Number) (small : m.value < 2 ^ 31) (rest : Text) :
      parseRangeFrom array_size ⟨from_, 0, .TO, ret⟩ (m.digits ++ rest) =
        parseRangeFrom array_size ⟨from_, m.value, .TO, ret⟩ rest :=
    parseRangeFrom_to array_size from_ 0 ret m.all rest small
  have second_large {from_ : ℕ} (from_small : from_ < 2 ^ 31) (m : Number)
      (large : ¬ m.value < 2 ^ 31) (rest : Text) :
      parseRangeFrom array_size ⟨from_, 0, .TO, ret⟩ (m.digits ++ rest) = .overflow :=
    parseRangeFrom_overflow array_size _ m.all rest ⟨from_small, by simp⟩
      (Nat.le_of_not_lt large)
  cases item with
  | single n => exact ⟨fun small => first n small rest, fun large => first_large n large rest⟩
  | between n m =>
    simp only [RangeItem.text, RangeItem.Small, RangeItem.read, List.append_assoc,
      List.cons_append]
    refine ⟨fun small => ?_, fun large => ?_⟩
    · rw [first n small.1, colon _ (by decide), second _ m small.2]
    · by_cases n_small : n.value < 2 ^ 31
      · rw [first n n_small, colon _ (by decide)]
        exact second_large n_small m (fun m_small => large ⟨n_small, m_small⟩) rest
      · exact first_large n n_small _
  | onwards n =>
    simp only [RangeItem.text, RangeItem.Small, RangeItem.read, List.append_assoc,
      List.cons_append, List.nil_append]
    refine ⟨fun small => ?_, fun large => first_large n large _⟩
    rw [first n small, colon _ (by decide)]
  | upTo m =>
    simp only [RangeItem.text, RangeItem.Small, RangeItem.read, List.cons_append]
    refine ⟨fun small => ?_, fun large => ?_⟩
    · rw [colon _ before, second _ m small]
    · rw [colon _ before]
      exact second_large (by simp) m large rest

theorem parseRangeFrom_items (array_size : ℕ) {state : RangeState} (before : state ≠ .TO)
    (ret : List ℕ) (item : RangeItem) (items : List RangeItem) :
    ((∀ i ∈ item :: items, i.Small) →
      parseRangeFrom array_size ⟨0, 0, state, ret⟩ (indexText (item :: items)) =
        .indices (ret ++ (item :: items).flatMap (RangeItem.pushes array_size)) []) ∧
    (¬ (∀ i ∈ item :: items, i.Small) →
      parseRangeFrom array_size ⟨0, 0, state, ret⟩ (indexText (item :: items)) = .overflow) := by
  induction items generalizing item state ret with
  | nil =>
    obtain ⟨small_read, large_read⟩ := parseRangeFrom_item array_size before ret item []
    simp only [indexText, List.flatMap_nil, List.forall_mem_singleton]
    refine ⟨fun small => ?_, large_read⟩
    rw [small_read small]
    simp [parseRangeFrom, RangeParser.push, RangeItem.pushes]
  | cons next items ih =>
    obtain ⟨small_read, large_read⟩ := parseRangeFrom_item array_size before ret item
      (',' :: indexText (next :: items))
    have text : indexText (item :: next :: items) =
        item.text ++ ',' :: indexText (next :: items) := by
      simp [indexText]
    have comma (p : RangeParser) (rest : Text) : parseRangeFrom array_size p (',' :: rest) =
        parseRangeFrom array_size ⟨0, 0, .ARRAY_LEFT, p.push array_size⟩ rest := by
      rw [parseRangeFrom, if_neg (by decide), if_neg (by decide), if_pos rfl]
    rw [text, List.forall_mem_cons]
    by_cases small : item.Small
    · obtain ⟨rest_small, rest_large⟩ := ih (by decide : RangeState.ARRAY_LEFT ≠ .TO)
        (ret ++ item.pushes array_size) next
      rw [small_read small, comma]
      refine ⟨fun all => ?_, fun large => ?_⟩
      · change parseRangeFrom array_size ⟨0, 0, .ARRAY_LEFT, ret ++ item.pushes array_size⟩ _ = _
        rw [rest_small all.2, List.flatMap_cons (x := item), List.append_assoc]
      · exact rest_large fun all => large ⟨small, all⟩
    · exact ⟨fun all => absurd all.1 small, fun _ => large_read small⟩

theorem RangeItem.text_ne_nil (item : RangeItem) : item.text ≠ [] := by
  cases item with
  | single n => exact n.some_digit
  | between n m => simp [RangeItem.text]
  | onwards n => simp [RangeItem.text]
  | upTo m => simp [RangeItem.text]

theorem parseRange_items (array_size : ℕ) (item : RangeItem) (items : List RangeItem) :
    ((∀ i ∈ item :: items, i.Small) → parseRange (indexText (item :: items)) array_size =
      .indices ((item :: items).flatMap (RangeItem.pushes array_size)) []) ∧
    (¬ (∀ i ∈ item :: items, i.Small) →
      parseRange (indexText (item :: items)) array_size = .overflow) := by
  have some_char : indexText (item :: items) ≠ [] := by
    simp [indexText, item.text_ne_nil]
  rw [parseRange, if_neg some_char]
  exact parseRangeFrom_items array_size (by decide) [] item items

theorem mem_pushed {array_size from_ to_ k : ℕ} {state : RangeState} :
    k ∈ pushed array_size from_ to_ state ↔ from_ ≤ k + 1 ∧
      k < (if to_ = 0 ∨ array_size < to_ then
        if state = .TO then array_size else if array_size < to_ then from_ - 1 else from_ - 1 + 1
      else to_) := by
  have first : (if 0 < from_ then from_ - 1 else from_) = from_ - 1 := by
    split <;> omega
  rw [pushed, first, List.mem_range'_1]
  omega

theorem mem_pushes_single {array_size k : ℕ} {n : Number} :
    k ∈ (RangeItem.single n).pushes array_size ↔ n.value ≤ k + 1 ∧ k < n.value - 1 + 1 := by
  change k ∈ pushed array_size n.value 0 .FROM ↔ _
  rw [mem_pushed]
  simp

theorem mem_pushes_between {array_size k : ℕ} {n m : Number} :
    k ∈ (RangeItem.between n m).pushes array_size ↔ n.value ≤ k + 1 ∧
      k < if m.value = 0 ∨ array_size < m.value then array_size else m.value := by
  change k ∈ pushed array_size n.value m.value .TO ↔ _
  rw [mem_pushed, if_pos rfl]

theorem mem_pushes_onwards {array_size k : ℕ} {n : Number} :
    k ∈ (RangeItem.onwards n).pushes array_size ↔ n.value ≤ k + 1 ∧ k < array_size := by
  change k ∈ pushed array_size n.value 0 .TO ↔ _
  rw [mem_pushed, if_pos rfl, if_pos (.inl rfl)]

theorem mem_pushes_upTo {array_size k : ℕ} {m : Number} :
    k ∈ (RangeItem.upTo m).pushes array_size ↔
      k < if m.value = 0 ∨ array_size < m.value then array_size else m.value := by
  change k ∈ pushed array_size 0 m.value .TO ↔ _
  rw [mem_pushed, if_pos rfl]
  exact and_iff_right (Nat.zero_le _)

theorem RangeItem.pushes_named {array_size k : ℕ} {item : RangeItem} (within : k < array_size)
    (names : item.Names (k + 1)) : k ∈ item.pushes array_size := by
  cases item with
  | single n =>
    have at_ : k + 1 = n.value := names
    rw [mem_pushes_single]
    omega
  | between n m =>
    obtain ⟨low, high⟩ := names
    rw [mem_pushes_between]
    refine ⟨low, ?_⟩
    split <;> omega
  | onwards n =>
    rw [mem_pushes_onwards]
    exact ⟨names, within⟩
  | upTo m =>
    have high : k + 1 ≤ m.value := names
    rw [mem_pushes_upTo]
    split <;> omega

/-- What is right of the ranges of a text: numbers are int, no single index is behind the array, and
a zero, where the code takes it for the first index or for the end of the array, is among other
ranges that name these. -/
def Right (items : List RangeItem) (array_size : ℕ) (item : RangeItem) : Prop :=
  item.Small ∧ match item with
    | .single n => n.value ≤ array_size ∧ (n.value = 0 → Named items array_size 0)
    | .between n m => m.value = 0 → ∀ k < array_size, n.value ≤ k + 1 → Named items array_size k
    | .onwards _ => True
    | .upTo m => m.value = 0 → ∀ k < array_size, Named items array_size k

theorem right_iff {items : List RangeItem} {array_size : ℕ} {item : RangeItem} (listed : item ∈ items)
    (small : item.Small) :
    Right items array_size item ↔ ∀ k ∈ item.pushes array_size, Named items array_size k := by
  have named {k : ℕ} (within : k < array_size) (names : item.Names (k + 1)) :
      Named items array_size k := ⟨within, .inr ⟨item, listed, names⟩⟩
  simp only [Right, small, true_and]
  cases item with
  | single n =>
    simp only [mem_pushes_single]
    constructor
    · rintro ⟨within, zero⟩ k ⟨low, high⟩
      by_cases none : n.value = 0
      · obtain rfl : k = 0 := by omega
        exact zero none
      · exact named (by omega) (show k + 1 = n.value by omega)
    · intro all
      have at_ := all (n.value - 1) ⟨by omega, by omega⟩
      refine ⟨?_, fun none => ?_⟩
      · have within := at_.1
        omega
      · rw [none] at at_
        exact at_
  | between n m =>
    simp only [mem_pushes_between]
    constructor
    · rintro zero k ⟨low, high⟩
      by_cases none : m.value = 0
      · rw [if_pos (.inl none)] at high
        exact zero none k high low
      · refine named ?_ ⟨low, ?_⟩
        · split at high <;> omega
        · split at high <;> omega
    · intro all none k within low
      exact all k ⟨low, by rw [if_pos (.inl none)]; exact within⟩
  | onwards n =>
    simp only [mem_pushes_onwards, true_iff]
    rintro k ⟨low, high⟩
    exact named high low
  | upTo m =>
    simp only [mem_pushes_upTo]
    constructor
    · rintro zero k high
      by_cases none : m.value = 0
      · rw [if_pos (.inl none)] at high
        exact zero none k high
      · refine named ?_ (show k + 1 ≤ m.value from ?_)
        · split at high <;> omega
        · split at high <;> omega
    · intro all none k within
      exact all k (by rw [if_pos (.inl none)]; exact within)

def Exact (items : List RangeItem) (array_size : ℕ) : Prop :=
  ∃ ret, parseRange (indexText items) array_size = .indices ret [] ∧
    ∀ k, k ∈ ret ↔ Named items array_size k

theorem exact_iff (items : List RangeItem) (array_size : ℕ) :
    Exact items array_size ↔ ∀ item ∈ items, Right items array_size item := by
  cases items with
  | nil =>
    refine iff_of_true ⟨List.range array_size, rfl, fun k => ?_⟩ (by simp)
    simp [Named]
  | cons first others =>
    obtain ⟨small_read, large_read⟩ := parseRange_items array_size first others
    constructor
    · rintro ⟨ret, read, named⟩
      have small : ∀ i ∈ first :: others, i.Small := by
        by_contra large
        rw [large_read large] at read
        contradiction
      rw [small_read small] at read
      cases read
      intro item listed
      refine (right_iff listed (small item listed)).mpr fun k mem => (named k).mp ?_
      exact List.mem_flatMap.mpr ⟨item, listed, mem⟩
    · intro right
      refine ⟨_, small_read fun item listed => (right item listed).1, fun k => ⟨fun mem => ?_, ?_⟩⟩
      · obtain ⟨item, listed, at_⟩ := List.mem_flatMap.mp mem
        exact (right_iff listed (right item listed).1).mp (right item listed) k at_
      · rintro ⟨within, none | ⟨item, listed, names⟩⟩
        · contradiction
        · exact List.mem_flatMap.mpr ⟨item, listed, RangeItem.pushes_named within names⟩

def setValues {α : Type} (val : α) : List ℕ → List α → Option (List α)
  | [], value => some value
  | i :: index, value =>
    if i < value.length then setValues val index (value.set i val) else none

namespace ArrayClass

variable {α : Type} [DecidableEq α] (c : ArrayClass α)

def isEqual (value other_val : List α) : Bool :=
  if c.copies then value = other_val else cut (c.getValue value) = cut (c.getValue other_val)

def duplicate (old_value : List α) : List α := c.setFromValue [] old_value

/-- Daemon::setValue of elements, where it is not queued; a text that is not read to its end is
answered with an error. -/
def setIndexed (ai : Text) (val : α) (old_value : List α) : Option (List α) :=
  match parseRange ai old_value.length with
  | .overflow => none
  | .indices indices endp =>
    if endp ≠ [] then some old_value
    else
      match setValues val indices (c.duplicate old_value) with
      | none => none
      | some newValue =>
        some (if c.isEqual old_value newValue then old_value else c.setFromValue old_value newValue)

def ElementsSet (items : List RangeItem) (val : α) (old : List α) : Prop :=
  ∃ new, c.setIndexed (indexText items) val old = some new ∧ ∀ k,
    (Named items old.length k → new[k]? = some val) ∧
      (¬ Named items old.length k → new[k]? = old[k]?)

end ArrayClass

theorem setValues_spec {α : Type} (val : α) {index : List ℕ} {value : List α}
    (within : ∀ i ∈ index, i < value.length) : ∃ new, setValues val index value = some new ∧
      ∀ k, new[k]? = if k ∈ index then some val else value[k]? := by
  induction index generalizing value with
  | nil => exact ⟨value, rfl, by simp⟩
  | cons i index ih =>
    obtain ⟨first, others⟩ := List.forall_mem_cons.mp within
    obtain ⟨new, set, elements⟩ := ih (by simpa using others : ∀ j ∈ index, j < (value.set i val).length)
    refine ⟨new, by rw [setValues, if_pos first, set], fun k => ?_⟩
    rw [elements]
    by_cases later : k ∈ index
    · simp [later]
    · by_cases here : k = i
      · subst here
        simp [later, first]
      · simp [later, here, List.getElem?_set_ne (Ne.symm here)]

section
variable {α : Type} [DecidableEq α] {c : ArrayClass α} {items : List RangeItem} {val : α} {old : List α}

theorem elementsSet_of_exact (duplicates : c.duplicate old = old)
    (sets : ∀ new, (∀ x ∈ new, x = val ∨ x ∈ old) →
      (if c.isEqual old new then old else c.setFromValue old new) = new)
    (exact_ : Exact items old.length) : c.ElementsSet items val old := by
  obtain ⟨ret, read, named⟩ := exact_
  obtain ⟨new, set, elements⟩ := setValues_spec val
    fun i mem => ((named i).mp mem).1
  have only : ∀ x ∈ new, x = val ∨ x ∈ old := by
    intro x mem
    obtain ⟨k, at_⟩ := List.mem_iff_getElem?.mp mem
    rw [elements] at at_
    split at at_
    · exact .inl (Option.some.inj at_).symm
    · exact .inr (List.mem_of_getElem? at_)
  refine ⟨new, ?_, fun k => ⟨fun names => ?_, fun none => ?_⟩⟩
  · simp only [ArrayClass.setIndexed, read, duplicates, set, ne_eq, not_true, if_false]
    rw [sets new only]
  · rw [elements, if_pos ((named k).mpr names)]
  · rw [elements, if_neg fun mem => none ((named k).mp mem)]

theorem indexed_copies (copies : c.copies = true) :
    (Exact items old.length ∧ c.ElementsSet items val old) ↔
      ∀ item ∈ items, Right items old.length item := by
  rw [← exact_iff]
  refine and_iff_left_of_imp (elementsSet_of_exact ?_ fun new _ => ?_)
  · rw [ArrayClass.duplicate, ArrayClass.setFromValue, if_pos copies]
  · rw [ArrayClass.isEqual, if_pos copies, ArrayClass.setFromValue, if_pos copies]
    split
    next same => simpa using same
    next => rfl

end

def Whole (w : Text) : Prop := Kept w ∧ Char.ofNat 0 ∉ w

theorem StringArray_set {old new : List Text} (whole : ∀ w ∈ new, Whole w) :
    StringArray.setFromValue old new = new :=
  ((StringArray_law old new []).mpr whole).from_

theorem StringArray_texts {old new : List Text} (old_whole : ∀ w ∈ old, Whole w)
    (new_whole : ∀ w ∈ new, Whole w) (same : StringArray.isEqual old new = true) : old = new := by
  have texts : cut (StringArray.getValue old) = cut (StringArray.getValue new) :=
    of_decide_eq_true same
  have read (value : List Text) (whole : ∀ w ∈ value, Whole w) :
      SplitStr (cut (StringArray.getValue value)) = value :=
    congrArg Prod.snd ((StringArray_law [] value []).mpr whole).set
  rw [← read old old_whole, texts, read new new_whole]

theorem indexed_strings {items : List RangeItem} {val : Text} {old : List Text}
    (old_whole : ∀ w ∈ old, Whole w) (val_whole : Whole val) :
    (Exact items old.length ∧ StringArray.ElementsSet items val old) ↔
      ∀ item ∈ items, Right items old.length item := by
  rw [← exact_iff]
  refine and_iff_left_of_imp (elementsSet_of_exact (StringArray_set old_whole) fun new only => ?_)
  have new_whole : ∀ w ∈ new, Whole w := by
    intro w mem
    rcases only w mem with rfl | listed
    · exact val_whole
    · exact old_whole w listed
  split
  next same => exact StringArray_texts old_whole new_whole same
  next => exact StringArray_set new_whole

/-- Indices are read, and elements are set with them, just where each range of the text is right; of
strings, where the old ones and the new one are read back as they are. -/
theorem index_ranges {F : Type} [DecidableEq F] (floats : Doubles F) (items : List RangeItem) :
    (∀ array_size, Exact items array_size ↔ ∀ item ∈ items, Right items array_size item) ∧
    (∀ old val, (Exact items old.length ∧ (DoubleArray floats).ElementsSet items val old) ↔
      ∀ item ∈ items, Right items old.length item) ∧
    (∀ old val, (Exact items old.length ∧ (TimeArray floats).ElementsSet items val old) ↔
      ∀ item ∈ items, Right items old.length item) ∧
    (∀ old val, (Exact items old.length ∧ IntegerArray.ElementsSet items val old) ↔
      ∀ item ∈ items, Right items old.length item) ∧
    (∀ old val, (Exact items old.length ∧ BoolArray.ElementsSet items val old) ↔
      ∀ item ∈ items, Right items old.length item) ∧
    (∀ old val, (∀ w ∈ old, Whole w) → Whole val →
      ((Exact items old.length ∧ StringArray.ElementsSet items val old) ↔
        ∀ item ∈ items, Right items old.length item)) :=
  ⟨exact_iff items, fun _ _ => indexed_copies rfl, fun _ _ => indexed_copies rfl,
    fun _ _ => indexed_copies rfl, fun _ _ => indexed_copies rfl,
    fun _ _ => indexed_strings⟩

def wholeDoubles : Doubles ℤ where
  write := Scripts.Parsing.writeInt
  atof := Scripts.Parsing.atoi
  plain := Scripts.Parsing.writeInt_plain
  whole z mem := absurd (Scripts.Parsing.writeInt_name mem) (by decide)

theorem second_string_set :
    StringArray.ElementsSet [.single ⟨"2".toList, by simp, by simp [isdigit]⟩] "c".toList
      ["a".toList, "b".toList] := by
  have letter (w : Text) (listed : w ∈ ["a".toList, "b".toList, "c".toList]) : Whole w := by
    simp only [List.mem_cons, List.not_mem_nil, or_false] at listed
    rcases listed with rfl | rfl | rfl
    · exact ⟨⟨by simp, by simp, by simp [Scripts.Parsing.isspace]⟩, by decide⟩
    · exact ⟨⟨by simp, by simp, by simp [Scripts.Parsing.isspace]⟩, by decide⟩
    · exact ⟨⟨by simp, by simp, by simp [Scripts.Parsing.isspace]⟩, by decide⟩
  refine (((index_ranges wholeDoubles _).2.2.2.2.2 ["a".toList, "b".toList] "c".toList
    (fun w mem => letter w (by simp at mem ⊢; tauto)) (letter _ (by simp))).mpr ?_).2
  refine List.forall_mem_singleton.mpr ⟨?_, ?_, fun none => ?_⟩
  · change 2 < 2 ^ 31
    decide
  · exact le_rfl
  · contradiction

/-- An index behind an array of three is returned, and written. -/
theorem index_behind : parseRange "5".toList 3 = .indices [4] [] ∧
    IntegerArray.setIndexed "5".toList 7 [1, 2, 3] = none := by
  constructor
  · rfl
  · rfl

end Rts2.Values
