import Rts2.Kernel.CommandMatch

/-! The commands of a process and who holds them. A command is made by a caller and handed to a connection; each
connection numbers what it is given, and keeps here the pointer behind each number. -/
namespace Rts2.Kernel.Owners

open Lib Sender

/-- A connection of the process. The last two fields are read by no function: the pointers of the commands in the order
the connection was given them, and the broadcasts it got a command of, with the number it gave that command. -/
structure Holder where
  centrald : Bool
  sender : Sender
  pointers : List Nat
  copies : List (Nat × Nat)

/-- Command objects are numbered; `gone` lists those that were deleted and that no connection of the list knew. For each
broadcast `sent` has the number of connections it was for; `past` are the broadcasts of connections no longer there. -/
structure Process where
  connections : List Holder
  made : Nat
  gone : List Nat
  sent : List Nat
  past : List Nat

namespace Holder

def pointer (h : Holder) (id : Nat) : Nat := h.pointers.getD id 0

def after (h : Holder) (sender : Sender) (next : Nat) : Holder :=
  { h with sender := sender, pointers := h.pointers ++ List.range' next (sender.made - h.sender.made) }

def held (h : Holder) : List Nat := h.sender.commands.map fun cmd => h.pointer cmd.id

def deleted (h : Holder) : List Nat :=
  (h.sender.finished ++ h.sender.failed ++ h.sender.discarded).map h.pointer

end Holder

/-- The calls of `queAll` name the connections found for the addresses, one for each address. -/
inductive ProcessEvent where
  | connection (index : Nat) (e : QueEvent)
  | added (centrald : Bool) (connClass : ConnClass) (connState : ConnState) (sock : Bool) (bopState : Status)
  | removed (index : Nat)
  | queAll (found : List Nat) (req : Request) (ok : Nat → Bool)
  | queAllCentraldsText (req : Request) (ok : Nat → Bool)
  | queAllCentralds (req : Request) (ok : Nat → Bool)

namespace Process

def init : Process := ⟨[], 0, [], [], []⟩

def onConnection (p : Process) (index : Nat) (e : QueEvent) : Process :=
  match p.connections[index]? with
  | none => p
  | some h =>
    { p with
      connections := p.connections.set index (h.after (h.sender.step e) p.made)
      made := p.made + ((h.sender.step e).made - h.sender.made) }

def give (command : Nat) (req : Request) (ok : Nat → Bool) (p : Process) (index : Nat) : Process :=
  match p.connections[index]? with
  | none => p
  | some h =>
    let sender := h.sender.queCommand req (ok index)
    let besides := sender.made - h.sender.made - 1
    { p with
      connections := p.connections.set index
        { h with
          sender := sender
          pointers := h.pointers ++ command :: List.range' p.made besides
          copies := h.copies ++ [(p.sent.length, h.sender.made)] }
      made := p.made + besides }

def giveNew (req : Request) (ok : Nat → Bool) (p : Process) (index : Nat) : Process :=
  give p.made req ok { p with made := p.made + 1 } index

def queAll (p : Process) (found : List Nat) (req : Request) (ok : Nat → Bool) : Process :=
  let command := p.made
  let p := found.foldl (giveNew req ok) { p with made := p.made + 1 }
  { p with gone := p.gone ++ [command], sent := p.sent ++ [found.length] }

def centraldConns (p : Process) : List Nat :=
  (List.range p.connections.length).filter fun index => p.connections[index]?.any (·.centrald)

def queAllCentraldsText (p : Process) (req : Request) (ok : Nat → Bool) : Process :=
  let n := p.centraldConns.length
  let p := p.centraldConns.foldl (giveNew req ok) p
  { p with sent := p.sent ++ [n] }

def queAllCentralds (p : Process) (req : Request) (ok : Nat → Bool) : Process :=
  let command := p.made
  let n := p.centraldConns.length
  let p := p.centraldConns.foldl (give command req ok) { p with made := p.made + 1 }
  { p with sent := p.sent ++ [n] }

def removed (p : Process) (index : Nat) : Process :=
  match p.connections[index]? with
  | none => p
  | some h =>
    { p with
      connections := p.connections.eraseIdx index
      gone := p.gone ++ { h with sender := h.sender.queClear }.deleted
      past := p.past ++ h.copies.map Prod.fst }

def step (p : Process) : ProcessEvent → Process
  | .connection index e => p.onConnection index e
  | .added centrald connClass connState sock bopState =>
    { p with connections := p.connections ++ [⟨centrald, fresh connClass connState sock bopState, [], []⟩] }
  | .removed index => p.removed index
  | .queAll found req ok => p.queAll found req ok
  | .queAllCentraldsText req ok => p.queAllCentraldsText req ok
  | .queAllCentralds req ok => p.queAllCentralds req ok

/-- When the program makes these calls: a connection is removed when it is marked for deletion, outside its handlers. -/
def Enabled (p : Process) : ProcessEvent → Prop
  | .connection index e => ∀ h ∈ p.connections[index]?, h.sender.Enabled e
  | .added _ connClass connState sock _ => Constructed connClass connState sock
  | .removed index => ∀ h ∈ p.connections[index]?, h.sender.connState = .delete ∧ h.sender.handling = false
  | .queAll found _ _ => ∀ index ∈ found, index < p.connections.length
  | .queAllCentraldsText .. | .queAllCentralds .. => True

def held (p : Process) : List Nat := p.connections.flatMap Holder.held

def deleted (p : Process) : List Nat := p.connections.flatMap Holder.deleted ++ p.gone

def copied (p : Process) : List Nat := p.connections.flatMap (fun h => h.copies.map Prod.fst) ++ p.past

/-- Every command made is held once, by one connection, or was deleted once; the returns a connection handles are of
the commands written on its sockets, in order, and a command whose return was handled was written; a broadcast to n
connections gave n commands, and none of the connections two. -/
structure Owned (p : Process) : Prop where
  once : (p.held ++ p.deleted).Perm (List.range p.made)
  returns : ∀ h ∈ p.connections, h.sender.Matched
  written : ∀ h ∈ p.connections, ∀ id ∈ h.sender.finished, id ∈ h.sender.written.map Prod.snd
  copies : ∀ h ∈ p.connections, (h.copies.map Prod.fst).Nodup
  reached : ∀ number n, p.sent[number]? = some n → p.copied.count number = n

/-- The pointer of one command goes to one connection, no connection is found for two addresses, and none is deleted with
a command that was sent. -/
def Holds (p : Process) : ProcessEvent → Prop
  | .removed index =>
    ∀ h ∈ p.connections[index]?, ¬ (h.sender.runningCommand.isSome ∧ h.sender.runningCommandStatus = .send)
  | .queAll found _ _ => found.Nodup
  | .queAllCentralds _ _ => p.centraldConns.length = 1
  | .connection .. | .added .. | .queAllCentraldsText .. => True

end Process

section Made

variable (c : Sender)

@[simp] theorem failSentCommand_made : c.failSentCommand.made = c.made := by
  unfold failSentCommand
  split
  · rfl
  · split
    · dsimp only
      split <;> rfl
    · rfl

@[simp] theorem connectionError_made : c.connectionError.made = c.made := by
  unfold connectionError
  split
  · rfl
  · split
    · rfl
    · exact failSentCommand_made _

@[simp] theorem send_made (cmd : Command) (ok : Bool) : (c.send cmd ok).made = c.made := by
  unfold send
  split
  · rfl
  · split
    · rfl
    · split
      · rfl
      · exact connectionError_made c

variable {c} {n : Nat}

theorem sendCommand_made (le : n ≤ c.made) (ok : Bool) : n ≤ (c.sendCommand ok).made := by
  unfold sendCommand setRunningProgress
  grind [send_made]

theorem sendNextCommand_made (le : n ≤ c.made) (ok : Bool) : n ≤ (c.sendNextCommand ok).made := by
  unfold sendNextCommand
  split
  · exact le
  · apply sendCommand_made
    exact le

theorem queCommand_made (le : n ≤ c.made) (req : Request) (ok : Bool) : n + 1 ≤ (c.queCommand req ok).made := by
  unfold queCommand
  dsimp only
  split
  · exact Nat.succ_le_succ le
  · exact sendCommand_made (Nat.succ_le_succ le) ok

theorem queSend_made (le : n ≤ c.made) (req : Request) (ok : Bool) : n + 1 ≤ (c.queSend req ok).made := by
  unfold queSend
  dsimp only
  split
  · exact Nat.succ_le_succ le
  · split
    · exact sendCommand_made (Nat.succ_le_succ le) ok
    · split
      · exact Nat.succ_le_succ le
      · exact sendCommand_made (Nat.succ_le_succ le) ok

theorem connConnected_made (le : n ≤ c.made) (ok : Bool) : n ≤ (c.connConnected ok).made := by
  unfold connConnected
  split
  · exact le
  · apply Nat.le_of_succ_le
    apply queSend_made
    rw [failSentCommand_made]
    exact le

theorem init_made (le : n ≤ c.made) (connects : Connects) (ok : Bool) : n ≤ (c.init connects ok).made := by
  unfold Sender.init
  dsimp only
  split
  · exact le
  · apply connConnected_made
    exact le
  · split
    · exact le
    · exact le.trans_eq (connectionError_made c).symm

theorem step_made (c : Sender) (e : QueEvent) : c.made ≤ (c.step e).made := by
  have same := Nat.le_refl c.made
  cases e with
  | queCommand req ok => exact Nat.le_of_succ_le (queCommand_made same req ok)
  | queSend req ok => exact Nat.le_of_succ_le (queSend_made same req ok)
  | queClear => exact same
  | commandReturn =>
    unfold Sender.step commandReturn
    dsimp only
    split <;> exact same
  | returned reque ok =>
    unfold Sender.step returned
    dsimp only
    split
    · apply sendCommand_made
      exact same
    · apply sendNextCommand_made
      exact same
  | setBopState in_value ok =>
    unfold Sender.step setBopState
    dsimp only
    split
    · apply sendCommand_made
      exact same
    · exact same
  | masterStateChanged ok =>
    unfold Sender.step masterStateChanged
    dsimp only
    split
    · apply sendCommand_made
      exact same
    · exact same
  | setConnState new_conn_state ok =>
    unfold Sender.step setConnState
    dsimp only
    have next : c.made ≤ (if (new_conn_state = .authOk ∨ new_conn_state = .connected) ∧ c.runningCommand = none then
        c.sendNextCommand ok else c).made := by
      split
      · exact sendNextCommand_made same ok
      · exact same
    split
    · rw [connectionError_made]
      exact next
    · exact next
  | connectionError => exact (connectionError_made c).ge
  | init connects ok => exact init_made same connects ok
  | connConnected ok => exact connConnected_made same ok
  | reconnectSocket connects ok =>
    unfold Sender.step reconnectSocket
    dsimp only
    split
    · exact (connectionError_made c.leaveSocket).ge
    · exact init_made (c := c.leaveSocket) same .inprogress ok
    · exact init_made (c := c.leaveSocket) same .done ok
  | deleteConnection conn => exact same

end Made

section Lists

variable {α β : Type} {f : α → List β}

theorem flatMap_set {list : List α} {i : Nat} {a a' : α} {more : List β} (at_i : list[i]? = some a)
    (grows : f a' = f a ++ more) : ((list.set i a').flatMap f).Perm (list.flatMap f ++ more) := by
  induction list generalizing i with
  | nil => cases at_i
  | cons b rest ih =>
    cases i with
    | zero =>
      cases at_i
      rw [List.set_cons_zero, List.flatMap_cons, List.flatMap_cons, grows, List.append_assoc, List.append_assoc]
      exact List.Perm.append_left _ List.perm_append_comm
    | succ i =>
      rw [List.set_cons_succ, List.flatMap_cons, List.flatMap_cons, List.append_assoc]
      exact List.Perm.append_left _ (ih at_i)

theorem flatMap_eraseIdx {list : List α} {i : Nat} {a : α} (at_i : list[i]? = some a) :
    (list.flatMap f).Perm ((list.eraseIdx i).flatMap f ++ f a) := by
  induction list generalizing i with
  | nil => cases at_i
  | cons b rest ih =>
    cases i with
    | zero =>
      cases at_i
      rw [List.eraseIdx_zero, List.tail_cons, List.flatMap_cons]
      exact List.perm_append_comm
    | succ i =>
      rw [List.eraseIdx_cons_succ, List.flatMap_cons, List.flatMap_cons, List.append_assoc]
      exact List.Perm.append_left _ (ih at_i)

theorem mem_set_of {list : List α} {i : Nat} {a x : α} (mem : x ∈ list.set i a) : x ∈ list ∨ x = a :=
  List.mem_or_eq_of_mem_set mem

theorem range_add (m n : Nat) : List.range (m + n) = List.range m ++ List.range' m n := by
  rw [List.range_eq_range', List.range_eq_range', ← List.range'_append_1, Nat.zero_add]

theorem map_getD_range (list : List Nat) : (List.range list.length).map (fun id => list.getD id 0) = list := by
  refine List.ext_getElem (by simp) fun i _ bound => ?_
  simp [List.getD_eq_getElem?_getD, List.getElem?_eq_getElem bound]

end Lists

namespace Process

variable {p : Process}

/-- Each connection keeps its commands, and knows their pointers; a pointer is known to one connection, is of a command
that is gone, or of one that waits to be handed over. -/
structure Keeps (p : Process) (waiting : List Nat) : Prop where
  senders : ∀ h ∈ p.connections, h.sender.Kept ∧ h.pointers.length = h.sender.made
  table : (p.connections.flatMap Holder.pointers ++ p.gone ++ waiting).Perm (List.range p.made)

structure Copied (p : Process) : Prop where
  copies : ∀ h ∈ p.connections, (h.copies.map Prod.fst).Nodup
  known : ∀ number ∈ p.copied, number < p.sent.length
  reached : ∀ number n, p.sent[number]? = some n → p.copied.count number = n

theorem holder_places {h : Holder} (kept : h.sender.Kept) (known : h.pointers.length = h.sender.made) :
    (h.held ++ h.deleted).Perm h.pointers := by
  have places := kept.places.map h.pointer
  have numbered : (List.range h.sender.made).map h.pointer = h.pointers := by
    rw [← known]
    exact map_getD_range h.pointers
  rw [numbered] at places
  refine List.Perm.trans ?_ places.symm
  unfold Holder.held Holder.deleted
  have apart : (h.sender.finished ++ h.sender.failed ++ h.sender.discarded ++ h.sender.commands.map Command.id).map h.pointer =
      (h.sender.finished ++ h.sender.failed ++ h.sender.discarded).map h.pointer ++
        h.sender.commands.map fun cmd => h.pointer cmd.id := by
    rw [List.map_append, List.map_map]
    rfl
  rw [apart]
  exact List.perm_append_comm

theorem flatMap_perm_append {α β : Type} (list : List α) (f g : α → List β) :
    (list.flatMap f ++ list.flatMap g).Perm (list.flatMap fun a => f a ++ g a) := by
  induction list with
  | nil => exact .refl _
  | cons a rest ih =>
    rw [List.flatMap_cons, List.flatMap_cons, List.flatMap_cons, List.append_assoc, List.append_assoc]
    refine List.Perm.append_left _ ?_
    exact List.perm_append_comm_assoc .. |>.trans (List.Perm.append_left _ ih)

theorem places (senders : ∀ h ∈ p.connections, h.sender.Kept ∧ h.pointers.length = h.sender.made) :
    (p.held ++ p.deleted).Perm (p.connections.flatMap Holder.pointers ++ p.gone) := by
  unfold held deleted
  rw [← List.append_assoc]
  refine List.Perm.append_right _ ((flatMap_perm_append ..).trans ?_)
  generalize p.connections = connections at senders
  induction connections with
  | nil => exact .refl _
  | cons h rest ih =>
    obtain ⟨kept, known⟩ := senders h (List.mem_cons_self ..)
    rw [List.flatMap_cons, List.flatMap_cons]
    exact (holder_places kept known).append (ih fun other mem => senders other (List.mem_cons_of_mem _ mem))

theorem Keeps.owned (keeps : p.Keeps []) (copied : p.Copied) : p.Owned where
  once := (places keeps.senders).trans (by simpa using keeps.table)
  returns h mem := (keeps.senders h mem).1.matched
  written h mem _ finished := (keeps.senders h mem).1.written_of_finished finished
  copies := copied.copies
  reached := copied.reached

theorem owned_length (senders : ∀ h ∈ p.connections, h.sender.Kept ∧ h.pointers.length = h.sender.made)
    (owned : p.Owned) : (p.connections.flatMap Holder.pointers).length + p.gone.length = p.made := by
  have same := (places senders).symm.trans owned.once
  simpa using same.length_eq

theorem Keeps.onConnection {waiting : List Nat} (keeps : p.Keeps waiting) {index : Nat} {e : QueEvent}
    (enabled : p.Enabled (.connection index e)) : (p.onConnection index e).Keeps waiting := by
  unfold Process.onConnection
  cases at_index : p.connections[index]? with
  | none => exact keeps
  | some h =>
    obtain ⟨kept, known⟩ := keeps.senders h (List.mem_of_getElem? at_index)
    have grew := step_made h.sender e
    refine ⟨fun other mem => ?_, ?_⟩
    · cases mem_set_of mem with
      | inl before => exact keeps.senders other before
      | inr new =>
        rw [new]
        refine ⟨step_kept h.sender e kept (enabled h at_index), ?_⟩
        simp only [Holder.after, List.length_append, List.length_range', known]
        omega
    · dsimp only
      rw [range_add]
      have grows : (h.after (h.sender.step e) p.made).pointers =
          h.pointers ++ List.range' p.made ((h.sender.step e).made - h.sender.made) := rfl
      have table := flatMap_set at_index grows
      refine ((table.append_right p.gone).append_right waiting).trans ?_
      refine List.Perm.trans ?_ (keeps.table.append_right _)
      simp only [List.append_assoc]
      refine List.Perm.append_left _ ?_
      rw [← List.append_assoc p.gone]
      exact List.perm_append_comm

theorem Keeps.new {waiting : List Nat} (keeps : p.Keeps waiting) :
    Keeps { p with made := p.made + 1 } (p.made :: waiting) := by
  refine ⟨keeps.senders, ?_⟩
  dsimp only
  rw [List.range_succ]
  refine List.Perm.trans ?_ (keeps.table.append_right _)
  rw [List.append_assoc _ waiting]
  exact List.Perm.append_left _ (List.perm_append_singleton p.made waiting).symm

theorem Keeps.give {waiting : List Nat} {command : Nat} (keeps : p.Keeps (command :: waiting)) (req : Request)
    (ok : Nat → Bool) {index : Nat} (inside : index < p.connections.length) :
    (give command req ok p index).Keeps waiting := by
  unfold Process.give
  rw [List.getElem?_eq_getElem inside]
  have at_index := List.getElem?_eq_getElem inside
  generalize p.connections[index] = h at at_index
  obtain ⟨kept, known⟩ := keeps.senders h (List.mem_of_getElem? at_index)
  have grew := queCommand_made (Nat.le_refl h.sender.made) req (ok index)
  refine ⟨fun other mem => ?_, ?_⟩
  · cases mem_set_of mem with
    | inl before => exact keeps.senders other before
    | inr new =>
      rw [new]
      refine ⟨queCommand_kept kept req (ok index), ?_⟩
      simp only [List.length_append, List.length_cons, List.length_range', known]
      omega
  · dsimp only
    rw [range_add]
    refine ((flatMap_set (f := Holder.pointers) at_index rfl).append_right _).append_right _ |>.trans ?_
    refine List.Perm.trans ?_ (keeps.table.append_right _)
    simp only [List.append_assoc, List.cons_append]
    refine List.Perm.append_left _ ?_
    refine List.Perm.trans ?_ (List.perm_middle).symm
    refine List.Perm.cons _ ?_
    rw [← List.append_assoc p.gone]
    exact List.perm_append_comm

def marks (p : Process) (index : Nat) : Option (List Nat) := p.connections[index]?.map fun h => h.copies.map Prod.fst

/-- What the commands of the present broadcast, given to the connections found, change besides the commands. -/
structure Spreads (p p' : Process) (found : List Nat) : Prop where
  length : p'.connections.length = p.connections.length
  gone : p'.gone = p.gone
  sent : p'.sent = p.sent
  marks : ∀ index, p'.marks index = (p.marks index).map (· ++ List.replicate (found.count index) p.sent.length)
  copied : p'.copied.Perm (p.copied ++ List.replicate found.length p.sent.length)

theorem Spreads.refl (p : Process) : Spreads p p [] := by
  refine ⟨rfl, rfl, rfl, fun index => ?_, ?_⟩
  · simp
  · simp

theorem Spreads.cons {p' p'' : Process} {index : Nat} {rest : List Nat} (first : Spreads p p' [index])
    (later : Spreads p' p'' rest) : Spreads p p'' (index :: rest) := by
  refine ⟨later.length.trans first.length, later.gone.trans first.gone, later.sent.trans first.sent, fun other => ?_, ?_⟩
  · rw [later.marks, first.marks, first.sent, Option.map_map]
    congr 1
    funext marks
    simp only [Function.comp_apply, List.append_assoc, List.replicate_append_replicate, List.count_cons, List.count_nil]
    congr 2
    omega
  · refine later.copied.trans ((first.copied.append_right _).trans ?_)
    rw [first.sent, List.append_assoc, List.replicate_append_replicate, List.length_singleton, List.length_cons]
    rw [Nat.add_comm 1]

theorem marks_set {h h' : Holder} {index : Nat} (at_index : p.connections[index]? = some h) (made : Nat) {more : List Nat}
    (grows : h'.copies.map Prod.fst = h.copies.map Prod.fst ++ more) (other : Nat) :
    marks { p with connections := p.connections.set index h', made := made } other =
      (p.marks other).map (· ++ if other = index then more else []) := by
  unfold marks
  by_cases same : other = index
  · rw [same, List.getElem?_set_self (List.getElem?_eq_some_iff.mp at_index).1, at_index]
    simp [grows]
  · rw [List.getElem?_set_ne (Ne.symm same), if_neg same]
    simp only [List.append_nil]
    cases p.connections[other]? <;> rfl

theorem copied_set {h h' : Holder} {index : Nat} (at_index : p.connections[index]? = some h) (made : Nat) {more : List Nat}
    (grows : h'.copies.map Prod.fst = h.copies.map Prod.fst ++ more) :
    (copied { p with connections := p.connections.set index h', made := made }).Perm (p.copied ++ more) := by
  unfold copied
  refine ((flatMap_set (f := fun h => h.copies.map Prod.fst) at_index grows).append_right _).trans ?_
  rw [List.append_assoc, List.append_assoc]
  exact List.Perm.append_left _ List.perm_append_comm

theorem give_spreads (command : Nat) (req : Request) (ok : Nat → Bool) {index : Nat}
    (inside : index < p.connections.length) : Spreads p (give command req ok p index) [index] := by
  unfold give
  rw [List.getElem?_eq_getElem inside]
  have at_index := List.getElem?_eq_getElem inside
  generalize p.connections[index] = h at at_index
  refine ⟨List.length_set, rfl, rfl, fun other => ?_, ?_⟩
  · refine (marks_set at_index _ (List.map_append ..) other).trans ?_
    congr 1
    funext marks
    by_cases same : other = index
    · simp [same]
    · simp [same, Ne.symm same]
  · exact copied_set at_index _ (List.map_append ..)

theorem onConnection_spreads (p : Process) (index : Nat) (e : QueEvent) : Spreads p (p.onConnection index e) [] := by
  unfold Process.onConnection
  cases at_index : p.connections[index]? with
  | none => exact Spreads.refl p
  | some h =>
    have grows : (h.after (h.sender.step e) p.made).copies.map Prod.fst = h.copies.map Prod.fst ++ [] :=
      (List.append_nil _).symm
    refine ⟨List.length_set, rfl, rfl, fun other => ?_, copied_set at_index _ grows⟩
    refine (marks_set at_index _ grows other).trans ?_
    simp

theorem giveNew_loop {waiting found : List Nat} (req : Request) (ok : Nat → Bool) (keeps : p.Keeps waiting)
    (inside : ∀ index ∈ found, index < p.connections.length) :
    (found.foldl (giveNew req ok) p).Keeps waiting ∧ Spreads p (found.foldl (giveNew req ok) p) found := by
  induction found generalizing p with
  | nil => exact ⟨keeps, Spreads.refl p⟩
  | cons index rest ih =>
    have here := inside index (List.mem_cons_self ..)
    have spreads : Spreads p (giveNew req ok p index) [index] := by
      obtain ⟨length, gone, sent, marks, copied⟩ := give_spreads p.made req ok (p := { p with made := p.made + 1 }) here
      exact ⟨length, gone, sent, marks, copied⟩
    have given : (giveNew req ok p index).Keeps waiting := keeps.new.give req ok here
    obtain ⟨kept, later⟩ := ih given fun other mem => by
      rw [spreads.length]
      exact inside other (List.mem_cons_of_mem _ mem)
    exact ⟨kept, spreads.cons later⟩

theorem give_loop {found : List Nat} (command : Nat) (req : Request) (ok : Nat → Bool)
    (senders : ∀ h ∈ p.connections, h.sender.Kept ∧ h.pointers.length = h.sender.made)
    (inside : ∀ index ∈ found, index < p.connections.length) :
    let p' := found.foldl (give command req ok) p
    (∀ h ∈ p'.connections, h.sender.Kept ∧ h.pointers.length = h.sender.made) ∧ p'.gone = p.gone ∧
    (p'.connections.flatMap Holder.pointers).length + p.made =
      (p.connections.flatMap Holder.pointers).length + p'.made + found.length := by
  induction found generalizing p with
  | nil => exact ⟨senders, rfl, rfl⟩
  | cons index rest ih =>
    have here := inside index (List.mem_cons_self ..)
    have spreads := give_spreads command req ok here
    have given : (∀ h ∈ (give command req ok p index).connections,
          h.sender.Kept ∧ h.pointers.length = h.sender.made) ∧
        ((give command req ok p index).connections.flatMap Holder.pointers).length + p.made =
          (p.connections.flatMap Holder.pointers).length + (give command req ok p index).made + 1 := by
      unfold give
      rw [List.getElem?_eq_getElem here]
      have at_index := List.getElem?_eq_getElem here
      generalize p.connections[index] = h at at_index
      obtain ⟨kept, known⟩ := senders h (List.mem_of_getElem? at_index)
      have grew := queCommand_made (Nat.le_refl h.sender.made) req (ok index)
      constructor
      · intro other mem
        cases mem_set_of mem with
        | inl before => exact senders other before
        | inr new =>
          rw [new]
          refine ⟨queCommand_kept kept req (ok index), ?_⟩
          simp only [List.length_append, List.length_cons, List.length_range', known]
          omega
      · rw [(flatMap_set (f := Holder.pointers) at_index rfl).length_eq]
        simp only [List.length_append, List.length_cons, List.length_range']
        omega
    obtain ⟨kept, gone, counted⟩ := ih given.1 fun other mem => by
      rw [spreads.length]
      exact inside other (List.mem_cons_of_mem _ mem)
    refine ⟨kept, gone.trans spreads.gone, ?_⟩
    have first := given.2
    rw [List.foldl_cons, List.length_cons]
    omega

theorem forall_marks {P : List Nat → Prop} :
    (∀ h ∈ p.connections, P (h.copies.map Prod.fst)) ↔ ∀ index marks, p.marks index = some marks → P marks := by
  constructor
  · intro all index marks at_index
    obtain ⟨h, found, rfl⟩ := Option.map_eq_some_iff.mp at_index
    exact all h (List.mem_of_getElem? found)
  · intro all h mem
    obtain ⟨index, found⟩ := List.mem_iff_getElem?.mp mem
    exact all index _ (Option.map_eq_some_iff.mpr ⟨h, found, rfl⟩)

theorem Spreads.nodup_iff {p' : Process} {found : List Nat} (spreads : Spreads p p' found) (copied : p.Copied)
    (inside : ∀ index ∈ found, index < p.connections.length) :
    (∀ h ∈ p'.connections, (h.copies.map Prod.fst).Nodup) ↔ found.Nodup := by
  have fresh (index : Nat) (marks : List Nat) (at_index : p.marks index = some marks) :
      marks.Nodup ∧ p.sent.length ∉ marks := by
    obtain ⟨h, found, rfl⟩ := Option.map_eq_some_iff.mp at_index
    have mem := List.mem_of_getElem? found
    refine ⟨copied.copies h mem, fun old => Nat.lt_irrefl _ (copied.known _ ?_)⟩
    exact List.mem_append_left _ (List.mem_flatMap.mpr ⟨h, mem, old⟩)
  rw [forall_marks, List.nodup_iff_count_le_one]
  constructor
  · intro all index
    by_cases listed : index ∈ found
    · obtain ⟨before, was⟩ : ∃ before, p.marks index = some before := by
        unfold Process.marks
        rw [List.getElem?_eq_getElem (inside index listed)]
        exact ⟨_, rfl⟩
      have nodup := all index _ (by rw [spreads.marks, was]; rfl)
      have short := (List.nodup_append.mp nodup).2.1
      exact List.nodup_replicate.mp short
    · rw [List.count_eq_zero_of_not_mem listed]
      exact Nat.zero_le 1
  · intro once index marks at_index
    rw [spreads.marks] at at_index
    obtain ⟨before, was, rfl⟩ := Option.map_eq_some_iff.mp at_index
    obtain ⟨nodup, new⟩ := fresh index before was
    refine List.nodup_append.mpr ⟨nodup, List.nodup_replicate.mpr (once index), ?_⟩
    intro number old other copy same
    rw [List.eq_of_mem_replicate copy] at same
    exact new (same ▸ old)

theorem Spreads.copied_sent {p' p'' : Process} {found : List Nat} (spreads : Spreads p p' found) (copied : p.Copied)
    (inside : ∀ index ∈ found, index < p.connections.length) (once : found.Nodup)
    (same : p''.connections = p'.connections) (past : p''.past = p'.past) (sent : p''.sent = p'.sent ++ [found.length]) :
    p''.Copied := by
  have copies : p''.copied.Perm (p.copied ++ List.replicate found.length p.sent.length) := by
    refine List.Perm.trans (List.Perm.of_eq ?_) spreads.copied
    unfold Process.copied
    rw [same, past]
  have length : p''.sent.length = p.sent.length + 1 := by
    rw [sent, spreads.sent, List.length_append, List.length_singleton]
  refine ⟨?_, fun number mem => ?_, fun number n at_number => ?_⟩
  · rw [same]
    exact (spreads.nodup_iff copied inside).mpr once
  · rw [length]
    cases List.mem_append.mp (copies.mem_iff.mp mem) with
    | inl old => exact Nat.lt_succ_of_lt (copied.known number old)
    | inr new => exact List.eq_of_mem_replicate new ▸ Nat.lt_succ_self _
  · rw [copies.count_eq, List.count_append, List.count_replicate]
    rw [sent, spreads.sent] at at_number
    by_cases new : number = p.sent.length
    · have none : p.copied.count number = 0 := by
        refine List.count_eq_zero_of_not_mem fun mem => ?_
        exact Nat.lt_irrefl _ (new ▸ copied.known number mem)
      rw [new, List.getElem?_concat_length] at at_number
      rw [none, new, beq_self_eq_true, if_pos rfl, Nat.zero_add]
      exact Option.some.inj at_number
    · have old : number < p.sent.length := by
        have bound := (List.getElem?_eq_some_iff.mp at_number).1
        rw [List.length_append, List.length_singleton] at bound
        omega
      rw [List.getElem?_append_left old] at at_number
      rw [if_neg (by simpa using Ne.symm new), Nat.add_zero]
      exact copied.reached number n at_number

theorem Copied.next (copied : p.Copied) : Copied { p with made := p.made + 1 } :=
  ⟨copied.copies, copied.known, copied.reached⟩

theorem Copied.removed (copied : p.Copied) (index : Nat) : (p.removed index).Copied := by
  unfold Process.removed
  cases at_index : p.connections[index]? with
  | none => exact copied
  | some h =>
    have same : (Process.copied { p with
        connections := p.connections.eraseIdx index
        gone := p.gone ++ { h with sender := h.sender.queClear }.deleted
        past := p.past ++ h.copies.map Prod.fst }).Perm p.copied := by
      unfold Process.copied
      refine List.Perm.trans ?_ ((flatMap_eraseIdx (f := fun h => h.copies.map Prod.fst) at_index).append_right _).symm
      rw [List.append_assoc]
      exact List.Perm.append_left _ List.perm_append_comm
    refine ⟨fun other mem => copied.copies other (List.mem_of_mem_eraseIdx mem), fun number mem => ?_, fun number n at_number => ?_⟩
    · exact copied.known number (same.mem_iff.mp mem)
    · rw [same.count_eq]
      exact copied.reached number n at_number

theorem queClear_held (h : Holder) : ({ h with sender := h.sender.queClear } : Holder).held = [] ↔
    ¬ (h.sender.runningCommand.isSome ∧ h.sender.runningCommandStatus = .send) := by
  unfold Holder.held commands queClear
  by_cases sent : h.sender.runningCommandStatus = .send
  · simp [sent, Option.isSome_iff_ne_none]
  · simp [sent]

theorem removed_keeps (keeps : p.Keeps []) {index : Nat} {h : Holder} (at_index : p.connections[index]? = some h)
    (free : h.sender.handling = false) :
    (∀ other ∈ p.connections.eraseIdx index, other.sender.Kept ∧ other.pointers.length = other.sender.made) ∧
    (({ h with sender := h.sender.queClear } : Holder).held ++ ({ h with sender := h.sender.queClear } : Holder).deleted).Perm
      h.pointers ∧
    ((p.connections.eraseIdx index).flatMap Holder.pointers ++ h.pointers ++ p.gone).Perm (List.range p.made) := by
  obtain ⟨kept, known⟩ := keeps.senders h (List.mem_of_getElem? at_index)
  refine ⟨fun other mem => keeps.senders other (List.mem_of_mem_eraseIdx mem), ?_, ?_⟩
  · exact holder_places (h := { h with sender := h.sender.queClear }) (queClear_kept kept free) known
  · have table := keeps.table
    rw [List.append_nil] at table
    exact ((flatMap_eraseIdx at_index).symm.append_right _).trans table

theorem mem_centraldConns {index : Nat} (mem : index ∈ p.centraldConns) : index < p.connections.length :=
  List.mem_range.mp (List.mem_filter.mp mem).1

theorem centraldConns_nodup (p : Process) : p.centraldConns.Nodup := List.nodup_range.filter _

theorem step_keeps (keeps : p.Keeps []) (copied : p.Copied) {e : ProcessEvent} (enabled : p.Enabled e)
    (holds : p.Holds e) : (p.step e).Keeps [] ∧ (p.step e).Copied := by
  cases e with
  | connection index e =>
    refine ⟨keeps.onConnection enabled, ?_⟩
    have spreads := onConnection_spreads p index e
    refine ⟨(spreads.nodup_iff copied nofun).mpr .nil, ?_, ?_⟩
    · intro number mem
      rw [show (p.step (.connection index e)).sent = p.sent from spreads.sent]
      exact copied.known number (by simpa using spreads.copied.mem_iff.mp mem)
    · intro number n at_number
      rw [show (p.step (.connection index e)).sent = p.sent from spreads.sent] at at_number
      have same := spreads.copied.count_eq number
      rw [List.length_nil, List.replicate_zero, List.append_nil] at same
      exact same.trans (copied.reached number n at_number)
  | added centrald connClass connState sock bopState =>
    constructor
    · refine ⟨fun h mem => ?_, ?_⟩
      · cases List.mem_append.mp mem with
        | inl before => exact keeps.senders h before
        | inr new =>
          rw [List.mem_singleton.mp new]
          exact ⟨fresh_kept connClass connState sock bopState, rfl⟩
      · have table := keeps.table
        simpa [step] using table
    · have same : (p.step (.added centrald connClass connState sock bopState)).copied = p.copied := by
        simp [step, Process.copied]
      refine ⟨fun h mem => ?_, fun number mem => copied.known number (same ▸ mem), fun number n at_number => ?_⟩
      · cases List.mem_append.mp mem with
        | inl before => exact copied.copies h before
        | inr new =>
          rw [List.mem_singleton.mp new]
          exact .nil
      · rw [same]
        exact copied.reached number n at_number
  | removed index =>
    refine ⟨?_, copied.removed index⟩
    unfold step Process.removed
    dsimp only
    cases at_index : p.connections[index]? with
    | none => exact keeps
    | some h =>
      obtain ⟨senders, cleared, table⟩ := removed_keeps keeps at_index (enabled h at_index).2
      refine ⟨senders, ?_⟩
      rw [(queClear_held h).mpr (holds h at_index), List.nil_append] at cleared
      dsimp only
      rw [List.append_nil]
      refine List.Perm.trans (List.Perm.append_left _ (List.Perm.append_left _ cleared)) ?_
      refine List.Perm.trans ?_ table
      rw [List.append_assoc]
      exact List.Perm.append_left _ List.perm_append_comm
  | queAll found req ok =>
    obtain ⟨kept, spreads⟩ := giveNew_loop req ok keeps.new enabled
    constructor
    · refine ⟨kept.senders, ?_⟩
      have table := kept.table
      dsimp only [step, Process.queAll]
      rwa [List.append_nil, ← List.append_assoc]
    · exact spreads.copied_sent copied.next enabled holds rfl rfl rfl
  | queAllCentraldsText req ok =>
    obtain ⟨kept, spreads⟩ := giveNew_loop req ok keeps fun _ => mem_centraldConns
    exact ⟨⟨kept.senders, kept.table⟩,
      spreads.copied_sent copied (fun _ => mem_centraldConns) (centraldConns_nodup p) rfl rfl rfl⟩
  | queAllCentralds req ok =>
    obtain ⟨index, only⟩ := List.length_eq_one_iff.mp holds
    have inside : index < p.connections.length := mem_centraldConns (only ▸ List.mem_singleton_self index)
    have given := keeps.new.give req ok inside
    have spreads := give_spreads p.made req ok (p := { p with made := p.made + 1 }) inside
    unfold step queAllCentralds
    dsimp only
    rw [only]
    constructor
    · exact ⟨given.senders, given.table⟩
    · refine spreads.copied_sent copied.next ?_ ?_ rfl rfl rfl
      · intro other mem
        rw [List.mem_singleton.mp mem]
        exact inside
      · exact List.nodup_singleton index

theorem step_exact (keeps : p.Keeps []) (copied : p.Copied) {e : ProcessEvent} (enabled : p.Enabled e)
    (owned : (p.step e).Owned) : p.Holds e := by
  have all := keeps.table.length_eq
  simp only [List.length_append, List.length_nil, List.length_range] at all
  cases e with
  | connection index e => trivial
  | added centrald connClass connState sock bopState => trivial
  | queAllCentraldsText req ok => trivial
  | removed index =>
    intro h at_index
    obtain ⟨senders, cleared, table⟩ := removed_keeps keeps at_index (enabled h at_index).2
    have left : (p.step (.removed index)) = { p with
        connections := p.connections.eraseIdx index
        gone := p.gone ++ { h with sender := h.sender.queClear }.deleted
        past := p.past ++ h.copies.map Prod.fst } := by
      unfold step Process.removed
      dsimp only
      rw [at_index]
    rw [left] at owned
    have counted := owned_length senders owned
    have cleared := cleared.length_eq
    have table := table.length_eq
    simp only [List.length_append, List.length_range] at counted cleared table
    refine (queClear_held h).mp (List.eq_nil_of_length_eq_zero ?_)
    omega
  | queAll found req ok =>
    obtain ⟨_, spreads⟩ := giveNew_loop req ok keeps.new enabled
    exact (spreads.nodup_iff copied.next enabled).mp owned.copies
  | queAllCentralds req ok =>
    obtain ⟨senders, gone, counted⟩ := give_loop (p := { p with made := p.made + 1 }) p.made req ok keeps.senders
      fun index mem => mem_centraldConns (p := p) mem
    have total := owned_length (p := p.step (.queAllCentralds req ok)) senders owned
    change (List.flatMap Holder.pointers
        (p.centraldConns.foldl (Process.give p.made req ok) { p with made := p.made + 1 }).connections).length +
      (p.centraldConns.foldl (Process.give p.made req ok) { p with made := p.made + 1 }).gone.length =
        (p.centraldConns.foldl (Process.give p.made req ok) { p with made := p.made + 1 }).made at total
    rw [gone] at total
    change p.centraldConns.length = 1
    dsimp only at counted total
    omega

theorem init_keeps : init.Keeps [] := by
  refine ⟨fun h mem => ?_, .refl []⟩
  simp [init] at mem

theorem init_copied : init.Copied := by
  refine ⟨fun h mem => ?_, fun number mem => ?_, fun number n at_number => ?_⟩
  · simp [init] at mem
  · simp [init, copied] at mem
  · simp [init] at at_number

/-- The commands of a process have one owner in every state of a run just when each of its steps holds what is asked. -/
theorem one_owner_iff (es : List ProcessEvent) (runs : Guarded step Enabled init es) :
    (∀ done, done <+: es → (run step init done).Owned) ↔ Guarded step Holds init es := by
  refine prefixes_iff_guarded_enabled (P := fun p => p.Keeps [] ∧ p.Copied) ?_ ?_ ?_ ⟨init_keeps, init_copied⟩ runs
  · exact fun p kept => kept.1.owned kept.2
  · exact fun p e kept enabled holds => step_keeps kept.1 kept.2 enabled holds
  · exact fun p e kept enabled owned => step_exact kept.1 kept.2 enabled owned

def info : Request := { cls := .plain, bopMask := 0, originator := none, notCalled := rfl, states := absurd rfl }

def twoCentralds : List ProcessEvent :=
  [.added true (.connection true) .connected true 0, .added true (.connection true) .connected true 0,
    .queAllCentralds info fun _ => true]

def oneCentrald : List ProcessEvent :=
  [.added true (.connection true) .connected true 0, .added false (.connection true) .connected true 0,
    .queAllCentralds info fun _ => true, .queAll [1] info fun _ => true, .connection 1 .commandReturn,
    .connection 1 (.returned false true), .queAllCentraldsText info fun _ => true]

theorem oneCentrald_enabled : Guarded step Enabled init oneCentrald := by
  refine ⟨.inl rfl, .inl rfl, trivial, ?_, ?_, ?_, trivial, trivial⟩
  · unfold Enabled
    decide
  · unfold Enabled
    decide
  · unfold Enabled
    decide

theorem oneCentrald_owned :
    Guarded step Holds init oneCentrald ∧ ∀ done, done <+: oneCentrald → (run step init done).Owned := by
  have holds : Guarded step Holds init oneCentrald := by
    refine ⟨trivial, trivial, ?_, ?_, trivial, trivial, trivial, trivial⟩
    · unfold Holds
      decide
    · exact List.nodup_singleton 1
  exact ⟨holds, (one_owner_iff oneCentrald oneCentrald_enabled).mpr holds⟩

theorem shared_command : ¬ ∀ es, Guarded step Enabled init es → ∀ done, done <+: es → (run step init done).Owned := by
  intro always
  have owned := always twoCentralds ⟨.inl rfl, .inl rfl, trivial, trivial⟩ twoCentralds (List.prefix_refl _)
  have counted := owned.once.length_eq
  revert counted
  decide

end Process

end Rts2.Kernel.Owners
