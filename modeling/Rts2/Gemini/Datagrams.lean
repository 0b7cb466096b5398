import Rts2.Lib.Run

/-! Commands to a Gemini mount go as datagrams with a number; a NACK asks what became of the last one. The mount takes them in
the order they were sent, unless they are lost, and its replies come when they do. -/
namespace Rts2.Gemini

open Lib

/-- A call of `sendAndReceive`; its number is read by no function. -/
structure Exchange (P : Type) where
  number : Nat
  payload : P
  maxResyncAttempts : Nat
  deriving DecidableEq

inductive Datagram (P : Type) where
  | command (number : Nat) (exchange : Exchange P)
  | nack (number : Nat)
  deriving DecidableEq

namespace Datagram

variable {P : Type}

def number : Datagram P → Nat
  | .command number _ => number
  | .nack number => number

def carried : Datagram P → Option (Exchange P)
  | .command _ exchange => some exchange
  | .nack _ => none

end Datagram

structure Reply (R : Type) where
  number : Nat
  lastNumber : Nat
  payload : R
  deriving DecidableEq

inductive Wait (P : Type) where
  | free
  | reply (exchange : Exchange P) (cmdNum attempt : Nat)
  | nack (exchange : Exchange P) (cmdNum nackNum attempt : Nat)
  deriving DecidableEq

def Wait.numbers : Wait P → Option (Exchange P × Nat × Option Nat)
  | .free => none
  | .reply exchange cmdNum _ => some (exchange, cmdNum, none)
  | .nack exchange cmdNum nackNum _ => some (exchange, cmdNum, some nackNum)

/-- The last command that the mount received is its number and the response to it. The fields from `exchanges` on are read by
no function: how many exchanges were begun, what the mount executed with its response, and what they returned. -/
structure Link (P R : Type) where
  nextDatagramNumber : Nat
  wait : Wait P
  toMount : List (Datagram P)
  last : Nat × R
  replies : List (Reply R)
  exchanges : Nat
  executed : List (Exchange P × R)
  returned : List (Exchange P × Option R)
  deriving DecidableEq

/-- A reply is received, or none in time; a datagram reaches the mount, which has a response where it is a command. -/
inductive LinkEvent (P R : Type) where
  | sendAndReceive (payload : P) (maxResyncAttempts : Nat)
  | receive (reply : Reply R)
  | timeOut
  | deliver (response : R)
  | lose
  | loseReply (reply : Reply R)

namespace Link

variable {P R : Type} [DecidableEq R] (m : Link P R)

def fresh (last : Nat × R) : Link P R where
  nextDatagramNumber := 0
  wait := .free
  toMount := []
  last := last
  replies := []
  exchanges := 0
  executed := []
  returned := []

def transmit (datagram : Datagram P) : Link P R :=
  { m with toMount := m.toMount ++ [datagram], nextDatagramNumber := (m.nextDatagramNumber + 1) % 2 ^ 32 }

def sendCommand (exchange : Exchange P) : Link P R :=
  { m.transmit (.command m.nextDatagramNumber exchange) with wait := .reply exchange m.nextDatagramNumber 0 }

def returns (exchange : Exchange P) (response : Option R) : Link P R :=
  { m with wait := .free, returned := m.returned ++ [(exchange, response)] }

def sendAndReceive (payload : P) (maxResyncAttempts : Nat) : Link P R :=
  let exchange : Exchange P := ⟨m.exchanges, payload, maxResyncAttempts⟩
  let m := { m with exchanges := m.exchanges + 1 }.sendCommand exchange
  if maxResyncAttempts = 0 then m.returns exchange none else m

def sendNack (exchange : Exchange P) (cmdNum attempt : Nat) : Link P R :=
  { m.transmit (.nack m.nextDatagramNumber) with wait := .nack exchange cmdNum m.nextDatagramNumber attempt }

def received (reply : Option (Reply R)) : Link P R :=
  match m.wait with
  | .free => m
  | .reply exchange cmdNum attempt =>
    match reply.filter (·.number = cmdNum) with
    | some reply => m.returns exchange (some reply.payload)
    | none => m.sendNack exchange cmdNum attempt
  | .nack exchange cmdNum nackNum attempt =>
    match reply.filter (·.number = nackNum) with
    | some reply =>
      if reply.lastNumber = cmdNum then m.returns exchange (some reply.payload)
      else m.sendCommand exchange
    | none =>
      if attempt + 1 < exchange.maxResyncAttempts then { m with wait := .reply exchange cmdNum (attempt + 1) }
      else m.returns exchange none

def deliver (response : R) : Link P R :=
  match m.toMount with
  | [] => m
  | .command number exchange :: rest =>
    { m with
      toMount := rest
      last := (number, response)
      replies := m.replies ++ [⟨number, 0, response⟩]
      executed := m.executed ++ [(exchange, response)] }
  | .nack number :: rest =>
    { m with toMount := rest, replies := m.replies ++ [⟨number, m.last.1, m.last.2⟩] }

def drop (reply : Reply R) : Link P R := { m with replies := m.replies.erase reply }

def step (m : Link P R) : LinkEvent P R → Link P R
  | .sendAndReceive payload maxResyncAttempts =>
    match m.wait with
    | .free => m.sendAndReceive payload maxResyncAttempts
    | .reply .. | .nack .. => m
  | .receive reply =>
    match m.wait with
    | .free => m
    | .reply .. | .nack .. => if reply ∈ m.replies then (m.received (some reply)).drop reply else m
  | .timeOut => m.received none
  | .deliver response => m.deliver response
  | .lose => { m with toMount := m.toMount.tail }
  | .loseReply reply => m.drop reply

/-- The mount executes each exchange at most once, and what an exchange returned is the mount's response to it. -/
def Faithful : Prop :=
  (m.executed.map Prod.fst).Nodup ∧ ∀ exchange response, (exchange, some response) ∈ m.returned → (exchange, response) ∈ m.executed

def Unused (number : Nat) : Prop :=
  (∀ d ∈ m.toMount, d.number ≠ number) ∧ (∀ r ∈ m.replies, r.number ≠ number) ∧
    ∀ exchange cmdNum nackNum, m.wait.numbers = some (exchange, cmdNum, nackNum) → cmdNum ≠ number

/-- A number is given again only when nothing with it is under way; and no command is lost whose number is that of the last
command the mount received. -/
def Tells (m : Link P R) : LinkEvent P R → Prop
  | .sendAndReceive .. | .receive _ | .timeOut => m.Unused m.nextDatagramNumber
  | .lose => ∀ number exchange, m.toMount.head? = some (.command number exchange) → number ≠ m.last.1
  | .deliver _ | .loseReply _ => True

structure Queued (exchange : Exchange P) (cmdNum : Nat) (nackNum : Option Nat) : Prop where
  sent : ∃ older nacks, m.toMount = older ++ .command cmdNum exchange :: nacks ∧
    (∀ d ∈ nacks, d.carried = none ∧ d.number ≠ cmdNum) ∧ ∀ d ∈ older, d.number ≠ cmdNum ∧ nackNum ≠ some d.number
  replies : ∀ r ∈ m.replies, r.number ≠ cmdNum ∧ nackNum ≠ some r.number
  other : nackNum ≠ some cmdNum

structure Came (exchange : Exchange P) (cmdNum : Nat) (nackNum : Option Nat) : Prop where
  nacks : ∀ d ∈ m.toMount, d.carried = none ∧ d.number ≠ cmdNum
  last : m.last.1 = cmdNum
  executed : (exchange, m.last.2) ∈ m.executed
  replies : ∀ r ∈ m.replies, (r.number = cmdNum → r.payload = m.last.2) ∧
    (nackNum = some r.number → r.lastNumber = cmdNum ∧ r.payload = m.last.2)

structure Lost (exchange : Exchange P) (cmdNum : Nat) (nackNum : Option Nat) : Prop where
  nacks : ∀ d ∈ m.toMount, d.carried = none ∧ d.number ≠ cmdNum
  last : m.last.1 ≠ cmdNum
  absent : exchange ∉ m.executed.map Prod.fst
  replies : ∀ r ∈ m.replies, r.number ≠ cmdNum ∧ (nackNum = some r.number → r.lastNumber ≠ cmdNum)

def Stage (exchange : Exchange P) (cmdNum : Nat) (nackNum : Option Nat) : Prop :=
  m.Queued exchange cmdNum nackNum ∨ m.Came exchange cmdNum nackNum ∨ m.Lost exchange cmdNum nackNum

def Staged : Prop :=
  ∀ exchange cmdNum nackNum, m.wait.numbers = some (exchange, cmdNum, nackNum) →
    exchange.number < m.exchanges ∧ m.Stage exchange cmdNum nackNum

def sent : List (Exchange P) := m.toMount.filterMap Datagram.carried ++ m.executed.map Prod.fst

structure Booked (m : Link P R) : Prop where
  once : m.sent.Nodup
  numbered : ∀ exchange ∈ m.sent, exchange.number < m.exchanges
  returned : ∀ exchange response, (exchange, some response) ∈ m.returned → (exchange, response) ∈ m.executed

variable {m} {exchange : Exchange P} {cmdNum : Nat} {nackNum : Option Nat}

theorem carried_none {ds : List (Datagram P)} (nacks : ∀ d ∈ ds, d.carried = none) : ds.filterMap Datagram.carried = [] := by
  rw [List.filterMap_eq_nil_iff]
  exact nacks

theorem Stage.drop (stage : m.Stage exchange cmdNum nackNum) (reply : Reply R) :
    (m.drop reply).Stage exchange cmdNum nackNum := by
  rcases stage with queued | came | lost
  · exact .inl ⟨queued.sent, fun r mem => queued.replies r (List.mem_of_mem_erase mem), queued.other⟩
  · exact .inr (.inl ⟨came.nacks, came.last, came.executed, fun r mem => came.replies r (List.mem_of_mem_erase mem)⟩)
  · exact .inr (.inr ⟨lost.nacks, lost.last, lost.absent, fun r mem => lost.replies r (List.mem_of_mem_erase mem)⟩)

theorem Stage.waits (stage : m.Stage exchange cmdNum nackNum) (wait : Wait P) :
    { m with wait := wait }.Stage exchange cmdNum nackNum := by
  rcases stage with queued | came | lost
  · exact .inl ⟨queued.sent, queued.replies, queued.other⟩
  · exact .inr (.inl ⟨came.nacks, came.last, came.executed, came.replies⟩)
  · exact .inr (.inr ⟨lost.nacks, lost.last, lost.absent, lost.replies⟩)

theorem Stage.forget (stage : m.Stage exchange cmdNum nackNum) : m.Stage exchange cmdNum none := by
  rcases stage with queued | came | lost
  · obtain ⟨older, nacks, split, after, before⟩ := queued.sent
    exact .inl ⟨⟨older, nacks, split, after, fun d mem => ⟨(before d mem).1, nofun⟩⟩, fun r mem => ⟨(queued.replies r mem).1, nofun⟩,
      nofun⟩
  · exact .inr (.inl ⟨came.nacks, came.last, came.executed, fun r mem => ⟨(came.replies r mem).1, nofun⟩⟩)
  · exact .inr (.inr ⟨lost.nacks, lost.last, lost.absent, fun r mem => ⟨(lost.replies r mem).1, nofun⟩⟩)

theorem Stage.nack (stage : m.Stage exchange cmdNum none) (unused : m.Unused m.nextDatagramNumber)
    (differs : m.nextDatagramNumber ≠ cmdNum) (wait : Wait P) :
    { m.transmit (.nack m.nextDatagramNumber) with wait := wait }.Stage exchange cmdNum (some m.nextDatagramNumber) := by
  have new (r : Reply R) (mem : r ∈ m.replies) : some m.nextDatagramNumber ≠ some r.number :=
    fun same => unused.2.1 r mem (Option.some.inj same).symm
  have still {ds : List (Datagram P)} (nacks : ∀ d ∈ ds, d.carried = none ∧ d.number ≠ cmdNum) :
      ∀ d ∈ ds ++ [.nack m.nextDatagramNumber], d.carried = none ∧ d.number ≠ cmdNum := by
    intro d mem
    rcases List.mem_append.mp mem with before | now
    · exact nacks d before
    · rw [List.mem_singleton.mp now]
      exact ⟨rfl, differs⟩
  rcases stage with queued | came | lost
  · obtain ⟨older, nacks, split, after, before⟩ := queued.sent
    refine .inl ⟨⟨older, nacks ++ [.nack m.nextDatagramNumber], ?_, still after, fun d mem => ⟨(before d mem).1, fun same => ?_⟩⟩,
      fun r mem => ⟨(queued.replies r mem).1, new r mem⟩, fun same => differs (Option.some.inj same)⟩
    · change m.toMount ++ _ = _
      rw [split]
      simp
    · have here : d ∈ m.toMount := by
        rw [split]
        exact List.mem_append_left _ mem
      exact unused.1 d here (Option.some.inj same).symm
  · exact .inr (.inl ⟨still came.nacks, came.last, came.executed,
      fun r mem => ⟨(came.replies r mem).1, fun same => absurd same (new r mem)⟩⟩)
  · exact .inr (.inr ⟨still lost.nacks, lost.last, lost.absent,
      fun r mem => ⟨(lost.replies r mem).1, fun same => absurd same (new r mem)⟩⟩)

theorem sendCommand_queued (unused : m.Unused m.nextDatagramNumber) (exchange : Exchange P) :
    (m.sendCommand exchange).Queued exchange m.nextDatagramNumber none where
  sent := ⟨m.toMount, [], rfl, fun _ mem => (List.not_mem_nil mem).elim, fun d mem => ⟨unused.1 d mem, nofun⟩⟩
  replies r mem := ⟨unused.2.1 r mem, nofun⟩
  other := nofun

theorem Booked.sendCommand (booked : m.Booked) (new : exchange ∉ m.sent) (numbered : exchange.number < m.exchanges) :
    (m.sendCommand exchange).Booked := by
  have sent : (m.sendCommand exchange).sent.Perm (exchange :: m.sent) := by
    unfold Link.sent Link.sendCommand transmit
    dsimp only
    rw [List.filterMap_append, List.append_assoc]
    exact List.perm_middle
  constructor
  · rw [sent.nodup_iff, List.nodup_cons]
    exact ⟨new, booked.once⟩
  · intro e mem
    rcases List.mem_cons.mp (sent.mem_iff.mp mem) with rfl | before
    · exact numbered
    · exact booked.numbered e before
  · exact booked.returned

theorem Booked.sublist {n : Link P R} (booked : m.Booked) (sent : n.sent.Sublist m.sent) (exchanges : n.exchanges = m.exchanges)
    (returned : n.returned = m.returned) (executed : n.executed = m.executed) : n.Booked := by
  constructor
  · exact booked.once.sublist sent
  · rw [exchanges]
    exact fun e mem => booked.numbered e (sent.subset mem)
  · rw [returned, executed]
    exact booked.returned

theorem Booked.nack (booked : m.Booked) (number : Nat) (wait : Wait P) :
    { m.transmit (.nack number) with wait := wait }.Booked := by
  refine booked.sublist ?_ rfl rfl rfl
  unfold Link.sent transmit
  dsimp only
  rw [List.filterMap_append]
  simp [Datagram.carried]

theorem Booked.returns (booked : m.Booked) {response : Option R}
    (executed : ∀ r, response = some r → (exchange, r) ∈ m.executed) : (m.returns exchange response).Booked := by
  refine ⟨booked.once, booked.numbered, fun e r mem => ?_⟩
  rcases List.mem_append.mp mem with before | now
  · exact booked.returned e r before
  · cases List.mem_singleton.mp now
    exact executed r rfl

theorem Stage.response (stage : m.Stage exchange cmdNum nackNum) {reply : Reply R} (mem : reply ∈ m.replies)
    (own : reply.number = cmdNum ∨ nackNum = some reply.number ∧ reply.lastNumber = cmdNum) :
    (exchange, reply.payload) ∈ m.executed := by
  rcases stage with queued | came | lost
  · obtain ⟨command, nack⟩ := queued.replies reply mem
    rcases own with own | own
    · contradiction
    · exact absurd own.1 nack
  · obtain ⟨command, nack⟩ := came.replies reply mem
    have payload : reply.payload = m.last.2 := own.elim command (fun own => (nack own.1).2)
    rw [payload]
    exact came.executed
  · obtain ⟨command, nack⟩ := lost.replies reply mem
    rcases own with own | own
    · contradiction
    · exact absurd own.2 (nack own.1)

theorem Stage.lost (stage : m.Stage exchange cmdNum nackNum) {reply : Reply R} (mem : reply ∈ m.replies)
    (own : nackNum = some reply.number) (other : reply.lastNumber ≠ cmdNum) : exchange ∉ m.sent := by
  rcases stage with queued | came | lost
  · exact absurd own (queued.replies reply mem).2
  · exact absurd ((came.replies reply mem).2 own).1 other
  · unfold sent
    rw [carried_none fun d mem => (lost.nacks d mem).1, List.nil_append]
    exact lost.absent

theorem Booked.deliver (booked : m.Booked) (response : R) : (m.deliver response).Booked := by
  unfold Link.deliver
  split
  · exact booked
  · rename_i number exchange rest next
    have sent : (m.executed ++ [(exchange, response)]).map Prod.fst = m.executed.map Prod.fst ++ [exchange] := by simp
    have perm : List.Perm (rest.filterMap Datagram.carried ++ (m.executed ++ [(exchange, response)]).map Prod.fst) m.sent := by
      unfold Link.sent
      rw [next, sent, ← List.append_assoc]
      exact List.perm_append_singleton _ _
    refine ⟨perm.nodup_iff.mpr booked.once, fun e mem => booked.numbered e (perm.mem_iff.mp mem), fun e r mem => ?_⟩
    exact List.mem_append_left _ (booked.returned e r mem)
  · rename_i number rest next
    refine booked.sublist ?_ rfl rfl rfl
    unfold Link.sent
    dsimp only
    rw [next]
    exact List.Sublist.refl _

theorem Stage.deliver (stage : m.Stage exchange cmdNum nackNum) (response : R) :
    (m.deliver response).Stage exchange cmdNum nackNum := by
  unfold Link.deliver
  rcases stage with queued | came | lost
  · obtain ⟨older, nacks, split, after, before⟩ := queued.sent
    cases older with
    | nil =>
      rw [split, List.nil_append]
      refine .inr (.inl ⟨after, rfl, List.mem_append_right _ (List.mem_singleton_self _), fun r mem => ?_⟩)
      rcases List.mem_append.mp mem with old | new
      · obtain ⟨command, nack⟩ := queued.replies r old
        exact ⟨fun own => absurd own command, fun own => absurd own nack⟩
      · rw [List.mem_singleton.mp new]
        exact ⟨fun _ => rfl, fun own => absurd own queued.other⟩
    | cons d older =>
      have first := before d List.mem_cons_self
      have rest (e : Datagram P) (mem : e ∈ older) := before e (List.mem_cons_of_mem d mem)
      rw [split, List.cons_append]
      have replies {reply : Reply R} (number : reply.number = d.number) (r : Reply R) (mem : r ∈ m.replies ++ [reply]) :
          r.number ≠ cmdNum ∧ nackNum ≠ some r.number := by
        rcases List.mem_append.mp mem with old | new
        · exact queued.replies r old
        · rw [List.mem_singleton.mp new, number]
          exact first
      cases d with
      | command number other => exact .inl ⟨⟨older, nacks, rfl, after, rest⟩, replies rfl, queued.other⟩
      | nack number => exact .inl ⟨⟨older, nacks, rfl, after, rest⟩, replies rfl, queued.other⟩
  · cases queue : m.toMount with
    | nil => exact .inr (.inl came)
    | cons d rest =>
      have nacks := came.nacks
      rw [queue] at nacks
      have later (e : Datagram P) (mem : e ∈ rest) := nacks e (List.mem_cons_of_mem d mem)
      cases d with
      | command number other => exact absurd (nacks _ List.mem_cons_self).1 nofun
      | nack number =>
        refine .inr (.inl ⟨later, came.last, came.executed, fun r mem => ?_⟩)
        rcases List.mem_append.mp mem with old | new
        · exact came.replies r old
        · rw [List.mem_singleton.mp new]
          exact ⟨fun _ => rfl, fun _ => ⟨came.last, rfl⟩⟩
  · cases queue : m.toMount with
    | nil => exact .inr (.inr lost)
    | cons d rest =>
      have nacks := lost.nacks
      rw [queue] at nacks
      have later (e : Datagram P) (mem : e ∈ rest) := nacks e (List.mem_cons_of_mem d mem)
      cases d with
      | command number other => exact absurd (nacks _ List.mem_cons_self).1 nofun
      | nack number =>
        refine .inr (.inr ⟨later, lost.last, lost.absent, fun r mem => ?_⟩)
        rcases List.mem_append.mp mem with old | new
        · exact lost.replies r old
        · rw [List.mem_singleton.mp new]
          exact ⟨(nacks _ List.mem_cons_self).2, fun _ => lost.last⟩

theorem Stage.lose (stage : m.Stage exchange cmdNum nackNum) (once : m.sent.Nodup)
    (told : ∀ number exchange, m.toMount.head? = some (.command number exchange) → number ≠ m.last.1) :
    { m with toMount := m.toMount.tail }.Stage exchange cmdNum nackNum := by
  rcases stage with queued | came | lost
  · obtain ⟨older, nacks, split, after, before⟩ := queued.sent
    cases older with
    | nil =>
      rw [List.nil_append] at split
      have number := told cmdNum exchange (by rw [split, List.head?_cons])
      have absent : exchange ∉ m.executed.map Prod.fst := by
        unfold sent at once
        have carried : (Datagram.command cmdNum exchange).carried = some exchange := rfl
        rw [split, List.filterMap_cons_some carried, List.cons_append, List.nodup_cons] at once
        exact fun mem => once.1 (List.mem_append_right _ mem)
      rw [split]
      exact .inr (.inr ⟨after, number.symm, absent, fun r mem => ⟨(queued.replies r mem).1,
        fun own => absurd own (queued.replies r mem).2⟩⟩)
    | cons d older =>
      rw [split]
      exact .inl ⟨⟨older, nacks, rfl, after, fun e mem => before e (List.mem_cons_of_mem d mem)⟩, queued.replies, queued.other⟩
  · exact .inr (.inl ⟨fun d mem => came.nacks d (List.mem_of_mem_tail mem), came.last, came.executed, came.replies⟩)
  · exact .inr (.inr ⟨fun d mem => lost.nacks d (List.mem_of_mem_tail mem), lost.last, lost.absent, lost.replies⟩)

theorem Booked.lose (booked : m.Booked) : { m with toMount := m.toMount.tail }.Booked := by
  refine booked.sublist ?_ rfl rfl rfl
  exact ((List.tail_sublist _).filterMap _).append_right _

theorem Booked.drop (booked : m.Booked) (reply : Reply R) : (m.drop reply).Booked :=
  ⟨booked.once, booked.numbered, booked.returned⟩

theorem received_kept (booked : m.Booked) (staged : m.Staged) (unused : m.Unused m.nextDatagramNumber)
    {reply : Option (Reply R)} (came : ∀ r, reply = some r → r ∈ m.replies) :
    (m.received reply).Booked ∧ (m.received reply).Staged := by
  unfold received
  cases wait : m.wait with
  | free => exact ⟨booked, staged⟩
  | reply exchange cmdNum attempt =>
    obtain ⟨numbered, stage⟩ := staged exchange cmdNum none (by rw [wait]; rfl)
    have differs := unused.2.2 exchange cmdNum none (by rw [wait]; rfl)
    dsimp only
    split
    · rename_i r own
      obtain ⟨arrived, number⟩ := Option.filter_eq_some_iff.mp own
      have response := stage.response (came r arrived) (.inl (of_decide_eq_true number))
      exact ⟨booked.returns fun _ same => Option.some.inj same ▸ response, nofun⟩
    · refine ⟨booked.nack _ _, ?_⟩
      rintro _ _ _ ⟨⟩
      exact ⟨numbered, stage.nack unused differs.symm _⟩
  | nack exchange cmdNum nackNum attempt =>
    obtain ⟨numbered, stage⟩ := staged exchange cmdNum (some nackNum) (by rw [wait]; rfl)
    dsimp only
    split
    · rename_i r own
      obtain ⟨arrived, number⟩ := Option.filter_eq_some_iff.mp own
      have nack : some nackNum = some r.number := congrArg some (of_decide_eq_true number).symm
      split
      · rename_i last
        have response := stage.response (came r arrived) (.inr ⟨nack, last⟩)
        exact ⟨booked.returns fun _ same => Option.some.inj same ▸ response, nofun⟩
      · rename_i other
        refine ⟨booked.sendCommand (stage.lost (came r arrived) nack other) numbered, ?_⟩
        rintro _ _ _ ⟨⟩
        exact ⟨numbered, .inl (sendCommand_queued unused exchange)⟩
    · split
      · refine ⟨⟨booked.once, booked.numbered, booked.returned⟩, ?_⟩
        rintro _ _ _ ⟨⟩
        exact ⟨numbered, stage.forget.waits _⟩
      · exact ⟨booked.returns nofun, nofun⟩

theorem sendAndReceive_kept (booked : m.Booked) (unused : m.Unused m.nextDatagramNumber) (payload : P)
    (maxResyncAttempts : Nat) :
    (m.sendAndReceive payload maxResyncAttempts).Booked ∧ (m.sendAndReceive payload maxResyncAttempts).Staged := by
  have counted : { m with exchanges := m.exchanges + 1 }.Booked :=
    ⟨booked.once, fun e mem => (booked.numbered e mem).trans (Nat.lt_succ_self _), booked.returned⟩
  have new : (⟨m.exchanges, payload, maxResyncAttempts⟩ : Exchange P) ∉ m.sent := fun mem => (booked.numbered _ mem).false
  have sends := counted.sendCommand new (Nat.lt_succ_self _)
  unfold sendAndReceive
  dsimp only
  split
  · exact ⟨sends.returns nofun, nofun⟩
  · refine ⟨sends, ?_⟩
    rintro _ _ _ ⟨⟩
    exact ⟨Nat.lt_succ_self _, .inl (sendCommand_queued (m := { m with exchanges := m.exchanges + 1 }) unused _)⟩

theorem step_kept (booked : m.Booked) (staged : m.Staged) (e : LinkEvent P R) (tells : Tells m e) :
    (m.step e).Booked ∧ (m.step e).Staged := by
  cases e with
  | sendAndReceive payload maxResyncAttempts =>
    unfold step
    dsimp only
    split
    · exact sendAndReceive_kept booked tells payload maxResyncAttempts
    · exact ⟨booked, staged⟩
    · exact ⟨booked, staged⟩
  | receive reply =>
    have takes (mem : reply ∈ m.replies) :
        ((m.received (some reply)).drop reply).Booked ∧ ((m.received (some reply)).drop reply).Staged := by
      obtain ⟨booked', staged'⟩ := received_kept booked staged tells (fun r same => Option.some.inj same ▸ mem)
      exact ⟨booked'.drop reply, fun e c k waits => ⟨(staged' e c k waits).1, (staged' e c k waits).2.drop reply⟩⟩
    unfold step
    dsimp only
    split
    · exact ⟨booked, staged⟩
    all_goals
      split
      · rename_i mem
        exact takes mem
      · exact ⟨booked, staged⟩
  | timeOut =>
    have none : (m.received none).Booked ∧ (m.received none).Staged := received_kept booked staged tells fun _ _ => by contradiction
    exact none
  | deliver response =>
    have same : (m.deliver response).wait = m.wait ∧ (m.deliver response).exchanges = m.exchanges := by
      unfold deliver
      split <;> exact ⟨rfl, rfl⟩
    refine ⟨booked.deliver response, fun e c k waits => ?_⟩
    change (m.deliver response).wait.numbers = _ at waits
    rw [same.1] at waits
    obtain ⟨numbered, stage⟩ := staged e c k waits
    exact ⟨same.2 ▸ numbered, stage.deliver response⟩
  | lose => exact ⟨booked.lose, fun e c k waits => ⟨(staged e c k waits).1, (staged e c k waits).2.lose booked.once tells⟩⟩
  | loseReply reply =>
    exact ⟨booked.drop reply, fun e c k waits => ⟨(staged e c k waits).1, (staged e c k waits).2.drop reply⟩⟩

/-- In every run in which numbers tell the datagrams apart the exchanges are faithful, whatever the mount last received. -/
theorem exchanges_faithful (last : Nat × R) (es : List (LinkEvent P R)) (tells : Guarded step Tells (fresh last : Link P R) es) :
    ∀ done, done <+: es → (run step (fresh last : Link P R) done).Faithful := by
  rintro done ⟨rest, rfl⟩
  have before := ((guarded_append step Tells _ done rest).mp tells).1
  have initial : (fresh last : Link P R).Booked ∧ (fresh last : Link P R).Staged :=
    ⟨⟨List.nodup_nil, fun _ mem => (List.not_mem_nil mem).elim, fun _ _ mem => (List.not_mem_nil mem).elim⟩, nofun⟩
  have booked := (run_invariant step Tells (fun m => m.Booked ∧ m.Staged)
    (fun _ e kept tells => step_kept kept.1 kept.2 e tells) _ done initial before).1
  exact ⟨booked.once.of_append_right, booked.returned⟩

def toldLost : List (LinkEvent Nat Nat) :=
  [.sendAndReceive 5 5, .lose, .timeOut, .deliver 0, .receive ⟨1, 7, 9⟩, .deliver 8, .receive ⟨2, 0, 8⟩]

theorem told_lost : (run step (fresh (7, 9) : Link Nat Nat) toldLost).Faithful := by
  refine exchanges_faithful (7, 9) toldLost ⟨?_, ?_, ?_, trivial, ?_, trivial, ?_, trivial⟩ toldLost (List.prefix_refl _)
  · exact ⟨by decide, by decide, nofun⟩
  · rintro _ _ ⟨⟩
    decide
  all_goals
    refine ⟨by decide, by decide, ?_⟩
    rintro _ _ _ ⟨⟩
    decide

/-- Both numberings begin at zero: the driver's, whose first command is lost, and that of the run before it, whose first
command is the last that the mount received. -/
def restarted : List (LinkEvent Nat Nat) := [.sendAndReceive 5 5, .lose, .timeOut, .deliver 0, .receive ⟨1, 0, 9⟩]

/-- The exchange returns the response to the command of the run before, and its own was never received. -/
theorem restarted_unfaithful : ¬∀ done, done <+: restarted → (run step (fresh (0, 9) : Link Nat Nat) done).Faithful := by
  intro faithful
  obtain ⟨-, executed⟩ := faithful restarted (List.prefix_refl _)
  have response := executed ⟨0, 5, 5⟩ 9 (by decide)
  revert response
  decide

end Link
end Rts2.Gemini
