import Mathlib

/-! The table of descriptors a block gives to poll (). Each pass of the loop writes it from its start; the table
is made larger where the count reaches pollsize, which is not changed by that. -/
namespace Rts2.Kernel.PollTable

abbrev POLLS_SIZE : Nat := 200

structure PollFd where
  fd : Int
  events : BitVec 16
  revents : BitVec 16
  deriving DecidableEq

/-- A place of fds that was not written since it was allocated is none. -/
structure Block where
  fds : List (Option PollFd)
  pollsize : Nat
  npolls : Nat

def Block.init : Block := ⟨List.replicate POLLS_SIZE none, POLLS_SIZE, 0⟩

def Block.grow (b : Block) : Option Block :=
  if b.npolls ≤ b.fds.length then
    some { b with fds := b.fds.take b.npolls ++ List.replicate POLLS_SIZE none }
  else none

def Block.addPollFD (fd : Int) (events : BitVec 16) (b : Block) : Option Block := do
  let b ← if b.npolls = b.pollsize then b.grow else some b
  if b.npolls < b.fds.length then
    some { b with fds := b.fds.set b.npolls (some ⟨fd, events, 0⟩), npolls := b.npolls + 1 }
  else none

def Block.addAll : List (Int × BitVec 16) → Block → Option Block
  | [], b => some b
  | (fd, events) :: adds, b => do
    let b ← b.addPollFD fd events
    b.addAll adds

def Block.addPollSocks (adds : List (Int × BitVec 16)) (b : Block) : Option Block :=
  Block.addAll adds { b with npolls := 0 }

def Block.ppoll (report : Nat → BitVec 16) (b : Block) : Block :=
  { b with fds := b.fds.mapIdx fun i e => if i < b.npolls then e.map ({ · with revents := report i }) else e }

def search (fd : Int) : List (Option PollFd) → Option (BitVec 16)
  | [] => some 0
  | none :: _ => none
  | some e :: fds => if e.fd = fd then some e.revents else search fd fds

def Block.getPollEvents (fd : Int) (b : Block) : Option (BitVec 16) := search fd (b.fds.take b.npolls)

/-- A pass: what the connections register, and what poll () reports for each entry. -/
structure Pass where
  adds : List (Int × BitVec 16)
  report : Nat → BitVec 16

def entry (add : Int × BitVec 16) : PollFd := ⟨add.1, add.2, 0⟩

def Block.Registered (entries : List PollFd) (b : Block) : Prop :=
  b.npolls = entries.length ∧ b.fds.take b.npolls = entries.map some

def Reported (p : Pass) (b : Block) : Prop :=
  ∀ (i : Nat) (add : Int × BitVec 16), p.adds[i]? = some add → b.getPollEvents add.1 = some (p.report i)

/-- In every pass each write is inside the table, all entries are there in their order when poll () is called,
and their events are found after it. -/
def Right : List Pass → Block → Prop
  | [], _ => True
  | p :: passes, b =>
    ∃ b', b.addPollSocks p.adds = some b' ∧ b'.Registered (p.adds.map entry) ∧ Reported p (b'.ppoll p.report) ∧
      Right passes (b'.ppoll p.report)

def Pass.Alike (p : Pass) : Prop :=
  ∀ (i j : Nat) (a a' : Int × BitVec 16), p.adds[i]? = some a → p.adds[j]? = some a' → a.1 = a'.1 → p.report i = p.report j

structure Block.Sized (b : Block) : Prop where
  pollsize : b.pollsize = POLLS_SIZE
  allocated : b.fds.length = POLLS_SIZE ∨ b.fds.length = 2 * POLLS_SIZE

theorem init_sized : Block.init.Sized := ⟨rfl, .inl (List.length_replicate ..)⟩

variable {b b' : Block} {entries : List PollFd}

theorem Block.Registered.le (registered : b.Registered entries) : entries.length ≤ b.fds.length := by
  obtain ⟨count, same⟩ := registered
  have lengths := congrArg List.length same
  rw [List.length_take, List.length_map, count] at lengths
  omega

theorem registered_set (registered : b.Registered entries) (inside : b.npolls < b.fds.length) (e : PollFd) :
    Block.Registered (entries ++ [e]) { b with fds := b.fds.set b.npolls (some e), npolls := b.npolls + 1 } := by
  obtain ⟨count, same⟩ := registered
  constructor
  · simp only [List.length_append, List.length_singleton, count]
  · simp only [List.map_append, List.map_singleton]
    rw [List.take_succ_eq_append_getElem (by rw [List.length_set]; exact inside), List.take_set,
      List.set_eq_of_length_le (List.length_take_le _ _), List.getElem_set_self, same]

theorem addPollFD_step (sized : b.Sized) (registered : b.Registered entries) (fd : Int) (events : BitVec 16)
    (room : entries.length < 2 * POLLS_SIZE) :
    ∃ b', b.addPollFD fd events = some b' ∧ b'.Sized ∧ b'.Registered (entries ++ [⟨fd, events, 0⟩]) := by
  have count := registered.1
  have le := registered.le
  by_cases full : b.npolls = b.pollsize
  · -- the entries are copied to a table of twice the size, also where it had that size already
    have at_ : b.npolls = POLLS_SIZE := full.trans sized.pollsize
    have grown : b.grow = some { b with fds := b.fds.take b.npolls ++ List.replicate POLLS_SIZE none } :=
      if_pos (count ▸ le)
    have kept : Block.Registered entries { b with fds := b.fds.take b.npolls ++ List.replicate POLLS_SIZE none } := by
      refine ⟨count, ?_⟩
      rw [List.take_append_of_le_length (by rw [List.length_take]; exact le_min le_rfl (count ▸ le)), List.take_take, min_self]
      exact registered.2
    have size : (b.fds.take b.npolls ++ List.replicate POLLS_SIZE (none : Option PollFd)).length = 2 * POLLS_SIZE := by
      rw [List.length_append, List.length_take, List.length_replicate]
      omega
    have inside : b.npolls < (b.fds.take b.npolls ++ List.replicate POLLS_SIZE (none : Option PollFd)).length := by
      rw [size, at_]
      decide
    refine ⟨_, ?_, ?_, registered_set kept inside ⟨fd, events, 0⟩⟩
    · simp only [Block.addPollFD, if_pos full, grown]
      exact if_pos inside
    · exact ⟨sized.pollsize, .inr (by rw [List.length_set, size])⟩
  · have inside : b.npolls < b.fds.length := by
      have pollsize := sized.pollsize
      rcases sized.allocated with single | double <;> omega
    refine ⟨_, ?_, ?_, registered_set registered inside ⟨fd, events, 0⟩⟩
    · simp only [Block.addPollFD, if_neg full]
      exact if_pos inside
    · exact ⟨sized.pollsize, by rw [List.length_set]; exact sized.allocated⟩

theorem addPollFD_outside (sized : b.Sized) (registered : b.Registered entries) (fd : Int) (events : BitVec 16)
    (full : entries.length = 2 * POLLS_SIZE) : b.addPollFD fd events = none := by
  have count := registered.1
  have le := registered.le
  have pollsize := sized.pollsize
  have not_grown : b.npolls ≠ b.pollsize := by
    rw [count, full, pollsize]
    decide
  simp only [Block.addPollFD, if_neg not_grown]
  apply if_neg
  rcases sized.allocated with single | double <;> omega

theorem addAll_room (adds : List (Int × BitVec 16)) (sized : b.Sized) (registered : b.Registered entries)
    (room : entries.length + adds.length ≤ 2 * POLLS_SIZE) :
    ∃ b', b.addAll adds = some b' ∧ b'.Sized ∧ b'.Registered (entries ++ adds.map entry) := by
  induction adds generalizing b entries with
  | nil =>
    rw [List.map_nil, List.append_nil]
    exact ⟨b, rfl, sized, registered⟩
  | cons add adds ih =>
    rw [List.length_cons] at room
    obtain ⟨b₁, step, sized₁, registered₁⟩ := addPollFD_step sized registered add.1 add.2 (by omega)
    obtain ⟨b₂, rest, sized₂, registered₂⟩ := ih sized₁ registered₁ (by
      rw [List.length_append, List.length_singleton]
      omega)
    refine ⟨b₂, ?_, sized₂, ?_⟩
    · rw [Block.addAll, step]
      exact rest
    · rw [List.append_assoc] at registered₂
      exact registered₂

theorem addAll_outside (adds : List (Int × BitVec 16)) (sized : b.Sized) (registered : b.Registered entries)
    (within : entries.length ≤ 2 * POLLS_SIZE) (beyond : 2 * POLLS_SIZE < entries.length + adds.length) :
    b.addAll adds = none := by
  induction adds generalizing b entries with
  | nil => exact absurd beyond (Nat.not_lt.mpr within)
  | cons add adds ih =>
    rw [List.length_cons] at beyond
    rcases Nat.eq_or_lt_of_le within with full | room
    · rw [Block.addAll, addPollFD_outside sized registered add.1 add.2 full]
      rfl
    · obtain ⟨b₁, step, sized₁, registered₁⟩ := addPollFD_step sized registered add.1 add.2 room
      have rest := ih sized₁ registered₁ (by rw [List.length_append, List.length_singleton]; exact room)
        (by rw [List.length_append, List.length_singleton]; omega)
      rw [Block.addAll, step]
      exact rest

theorem restart_sized (sized : b.Sized) : Block.Sized { b with npolls := 0 } := ⟨sized.pollsize, sized.allocated⟩

theorem restart_registered (b : Block) : Block.Registered [] { b with npolls := 0 } := ⟨rfl, rfl⟩

theorem addPollSocks_room (sized : b.Sized) {adds : List (Int × BitVec 16)} (fits : adds.length ≤ 2 * POLLS_SIZE) :
    ∃ b', b.addPollSocks adds = some b' ∧ b'.Sized ∧ b'.Registered (adds.map entry) :=
  addAll_room adds (restart_sized sized) (restart_registered b) (by rw [List.length_nil, Nat.zero_add]; exact fits)

theorem addPollSocks_fits (sized : b.Sized) {adds : List (Int × BitVec 16)} (added : b.addPollSocks adds = some b') :
    adds.length ≤ 2 * POLLS_SIZE := by
  by_contra beyond
  have outside := addAll_outside adds (restart_sized sized) (restart_registered b) (Nat.zero_le _)
    (by rw [List.length_nil, Nat.zero_add]; exact Nat.lt_of_not_le beyond)
  exact nomatch added.symm.trans outside

theorem ppoll_sized (sized : b.Sized) (report : Nat → BitVec 16) : (b.ppoll report).Sized :=
  ⟨sized.pollsize, by simpa only [Block.ppoll, List.length_mapIdx] using sized.allocated⟩

theorem ppoll_take (registered : b.Registered entries) (report : Nat → BitVec 16) :
    (b.ppoll report).fds.take (b.ppoll report).npolls =
      (entries.mapIdx fun i e => { e with revents := report i }).map some := by
  obtain ⟨count, same⟩ := registered
  apply List.ext_getElem?
  intro i
  have here := congrArg (·[i]?) same
  simp only [List.getElem?_take, List.getElem?_map] at here
  simp only [Block.ppoll, List.getElem?_take, List.getElem?_mapIdx, List.getElem?_map]
  split
  · rename_i inside
    rw [if_pos inside] at here
    rw [here]
    cases entries[i]? with
    | none => rfl
    | some e => rfl
  · rename_i outside
    rw [if_neg outside] at here
    cases at_ : entries[i]? with
    | none => rfl
    | some e => rw [at_] at here; exact nomatch here

theorem search_found (fd : Int) {entries : List PollFd} (present : ∃ e ∈ entries, e.fd = fd) :
    ∃ (i : Nat) (e : PollFd), entries[i]? = some e ∧ e.fd = fd ∧ search fd (entries.map some) = some e.revents := by
  induction entries with
  | nil =>
    obtain ⟨e, mem, _⟩ := present
    exact nomatch mem
  | cons e entries ih =>
    by_cases same : e.fd = fd
    · exact ⟨0, e, rfl, same, if_pos same⟩
    · have later : ∃ e ∈ entries, e.fd = fd := by
        obtain ⟨e', mem, at_⟩ := present
        rcases List.mem_cons.mp mem with rfl | mem
        · exact absurd at_ same
        · exact ⟨e', mem, at_⟩
      obtain ⟨i, e', at_, of_, found⟩ := ih later
      exact ⟨i + 1, e', at_, of_, (if_neg same).trans found⟩

theorem reported_iff {p : Pass} (registered : b.Registered (p.adds.map entry)) :
    Reported p (b.ppoll p.report) ↔ p.Alike := by
  have events (fd : Int) : (b.ppoll p.report).getPollEvents fd =
      search fd (((p.adds.map entry).mapIdx fun i e => { e with revents := p.report i }).map some) :=
    congrArg (search fd) (ppoll_take registered p.report)
  constructor
  · intro reported i j a a' at_i at_j same
    have first := reported i a at_i
    have second := reported j a' at_j
    rw [same] at first
    exact Option.some.inj (first.symm.trans second)
  · intro alike i a at_i
    rw [events]
    obtain ⟨j, e, at_j, of_, found⟩ := @search_found a.1
      ((p.adds.map entry).mapIdx fun i e => { e with revents := p.report i })
      ⟨⟨a.1, a.2, p.report i⟩, List.mem_of_getElem? (i := i) (by simp [at_i, entry]), rfl⟩
    simp only [List.getElem?_mapIdx, List.getElem?_map, Option.map_map, Option.map_eq_some_iff] at at_j
    obtain ⟨a', at_j, rfl⟩ := at_j
    rw [found]
    exact congrArg some (alike j i a' a at_j at_i of_)

theorem right_iff (passes : List Pass) (sized : b.Sized) :
    Right passes b ↔ ∀ p ∈ passes, p.adds.length ≤ 2 * POLLS_SIZE ∧ p.Alike := by
  induction passes generalizing b with
  | nil => exact ⟨fun _ _ mem => (List.not_mem_nil mem).elim, fun _ => trivial⟩
  | cons p passes ih =>
    rw [List.forall_mem_cons]
    constructor
    · rintro ⟨b', added, registered, reported, rest⟩
      have fits := addPollSocks_fits sized added
      obtain ⟨b₁, added₁, sized₁, _⟩ := addPollSocks_room sized fits
      obtain rfl := Option.some.inj (added₁.symm.trans added)
      exact ⟨⟨fits, (reported_iff registered).mp reported⟩, (ih (ppoll_sized sized₁ p.report)).mp rest⟩
    · rintro ⟨⟨fits, alike⟩, others⟩
      obtain ⟨b', added, sized', registered⟩ := addPollSocks_room sized fits
      exact ⟨b', added, registered, (reported_iff registered).mpr alike, (ih (ppoll_sized sized' p.report)).mpr others⟩

/-- Over any passes the table is right exactly when none registers more than twice POLLS_SIZE descriptors; where a
descriptor is registered twice, poll () has to report the same for both. -/
theorem poll_table (passes : List Pass) :
    Right passes Block.init ↔ ∀ p ∈ passes, p.adds.length ≤ 2 * POLLS_SIZE ∧ p.Alike :=
  right_iff passes init_sized

def crowded : Pass := ⟨(List.range 401).map fun (fd : Nat) => ((fd : Int), 1), fun _ => 0⟩

theorem crowded_outside : ¬Right [crowded] Block.init := by
  rw [right_iff [crowded] init_sized]
  intro fits
  have few := (fits crowded (List.mem_singleton.mpr rfl)).1
  simp only [crowded, List.length_map, List.length_range] at few
  exact absurd few (by decide)

end Rts2.Kernel.PollTable
