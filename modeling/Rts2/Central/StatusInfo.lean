import Rts2.Central.Weather
import Rts2.Lib.Run

/-! The answers of centrald to status_info. A request is passed on to the other connections, and
answered when none of them has a command of the requester left. -/
namespace Rts2.Central

open Kernel Lib

/-- A command on the queue of a connection: a status_info for the connection that asked, of one of
the requests, or any other command. -/
inductive Cmd where
  | statusInfo (control_conn : Option Nat) (request : Nat)
  | other
  deriving DecidableEq

/-- centrald sends its commands without a BOP mask, so they are sent as soon as they run. -/
inductive CommandStatus where
  | send | returning
  deriving DecidableEq

structure ConnCentrald where
  name : Name
  type : ConnType
  up : Bool
  runningCommand : Option Cmd
  runningCommandStatus : CommandStatus
  commandQue : List Cmd
  statusCommandRunning : Int

/-- The connections are numbers, which createConnection gives them, and `heap` holds them. The last
two fields are read by no function: who asked the requests, and whom centrald answered. -/
structure Polls where
  connNum : Nat
  connections : List Nat
  heap : Nat → ConnCentrald
  asked : List Nat
  oks : List Nat

namespace Cmd

def isOriginator (conn : Nat) : Cmd → Bool
  | .statusInfo control_conn _ => control_conn = some conn
  | .other => false

def request : Cmd → Option Nat
  | .statusInfo _ request => some request
  | .other => none

def control_conn : Cmd → Option Nat
  | .statusInfo control_conn _ => control_conn
  | .other => none

def deleteConnection (conn : Nat) : Cmd → Cmd
  | .statusInfo control_conn request =>
    .statusInfo (if control_conn = some conn then none else control_conn) request
  | .other => .other

end Cmd

namespace ConnCentrald

def created : ConnCentrald := ⟨[], .notDefined, true, none, .returning, [], 0⟩

def commands (conn : ConnCentrald) : List Cmd := conn.runningCommand.toList ++ conn.commandQue

def queEmptyForOriginator (conn : ConnCentrald) (testOriginator : Nat) : Bool :=
  !(conn.runningCommand.any (·.isOriginator testOriginator) &&
      conn.runningCommandStatus != .returning) &&
    !conn.commandQue.any (·.isOriginator testOriginator)

def queCommand (conn : ConnCentrald) (cmd : Cmd) : ConnCentrald :=
  if conn.runningCommand.isSome ∨ ¬ conn.up then { conn with commandQue := conn.commandQue ++ [cmd] }
  else { conn with runningCommand := some cmd, runningCommandStatus := .send }

def sendNextCommand (conn : ConnCentrald) : ConnCentrald :=
  match conn.commandQue with
  | [] => { conn with runningCommand := none }
  | cmd :: commandQue =>
    { conn with
      runningCommand := some cmd
      runningCommandStatus := .send
      commandQue := commandQue }

def deleteConnection (conn : ConnCentrald) (deleted : Nat) : ConnCentrald :=
  { conn with
    runningCommand := conn.runningCommand.map (·.deleteConnection deleted)
    commandQue := conn.commandQue.map (·.deleteConnection deleted) }

end ConnCentrald

namespace Polls

def init : Polls := ⟨0, [], fun _ => .created, [], []⟩

def update (s : Polls) (conn : Nat) (f : ConnCentrald → ConnCentrald) : Polls :=
  { s with heap := Function.update s.heap conn (f (s.heap conn)) }

def commandOriginatorPending (s : Polls) (originator : Nat) (exclude_conn : Option Nat) : Bool :=
  s.connections.any fun conn =>
    some conn ≠ exclude_conn && !(s.heap conn).queEmptyForOriginator originator

def answers (s : Polls) (this : Nat) (conn : Option Nat) : Bool :=
  match conn with
  | some _ => !s.commandOriginatorPending this conn
  | none => (s.heap this).statusCommandRunning ≠ 0 && !s.commandOriginatorPending this none

def updateStatusWait (s : Polls) (this : Nat) (conn : Option Nat) : Polls :=
  if s.answers this conn then
    { s.update this fun c => { c with statusCommandRunning := c.statusCommandRunning - 1 } with
      oks := s.oks ++ [this] }
  else s

variable (blockDevice : Name → Name → Bool)

/-- The connections a request of `conn` is passed on to. -/
def asks (s : Polls) (conn test_conn : Nat) : Bool :=
  test_conn ≠ conn && (s.heap test_conn).type ≠ .client &&
    ((s.heap conn).type ≠ .device || blockDevice (s.heap conn).name (s.heap test_conn).name)

/-- A status_info of `conn`; without anyone to ask it is answered at once. -/
def statusInfo (s : Polls) (conn : Nat) : Polls :=
  let cs := Cmd.statusInfo (some conn) s.asked.length
  let sent := { s with
    heap := fun test_conn =>
      if test_conn ∈ s.connections ∧ s.asks blockDevice conn test_conn then
        (s.heap test_conn).queCommand cs
      else s.heap test_conn
    asked := s.asked ++ [conn] }
  if s.connections.countP (s.asks blockDevice conn) = 0 then { sent with oks := s.oks ++ [conn] }
  else sent.update conn fun c => { c with statusCommandRunning := c.statusCommandRunning + 1 }

def commandReturn (s : Polls) (conn : Nat) : Polls :=
  match (s.heap conn).runningCommand with
  | none => s
  | some cmd =>
    let s := s.update conn fun c => { c with runningCommandStatus := .returning }
    let s :=
      match cmd with
      | .statusInfo (some control_conn) _ => s.updateStatusWait control_conn (some conn)
      | .statusInfo none _ | .other => s
    s.update conn ConnCentrald.sendNextCommand

def connectionRemoved (s : Polls) (conn : Nat) : Polls :=
  let s := { s with
    connections := s.connections.erase conn
    heap := fun c =>
      if c ∈ s.connections ∧ c ≠ conn then (s.heap c).deleteConnection conn else s.heap c }
  s.connections.foldl (fun s iter => s.updateStatusWait iter none) s

end Polls

inductive PollEvent where
  | createConnection
  | register (conn : Nat) (name : Name) (type : ConnType)
  | statusInfo (conn : Nat)
  | queCommand (conn : Nat)
  | commandReturn (conn : Nat)
  | connectionError (conn : Nat)
  | connectionRemoved (conn : Nat)

namespace Polls

def Enabled (s : Polls) : PollEvent → Prop
  | .createConnection => True
  | .register conn _ _ | .statusInfo conn | .queCommand conn | .commandReturn conn
  | .connectionError conn | .connectionRemoved conn => conn ∈ s.connections

instance (s : Polls) : DecidablePred s.Enabled
  | .createConnection => isTrue trivial
  | .register _ _ _ | .statusInfo _ | .queCommand _ | .commandReturn _ | .connectionError _
  | .connectionRemoved _ => inferInstanceAs (Decidable (_ ∈ _))

variable (blockDevice : Name → Name → Bool)

def step (s : Polls) : PollEvent → Polls
  | .createConnection =>
    { s with
      connNum := s.connNum + 1
      connections := s.connections ++ [s.connNum + 1]
      heap := Function.update s.heap (s.connNum + 1) .created }
  | .register conn name type => s.update conn fun c => { c with name := name, type := type }
  | .statusInfo conn => s.statusInfo blockDevice conn
  | .queCommand conn => s.update conn (·.queCommand .other)
  | .commandReturn conn => s.commandReturn conn
  | .connectionError conn => s.update conn fun c => { c with up := false }
  | .connectionRemoved conn => s.connectionRemoved conn

def requestsOf (asked : List Nat) (conn : Nat) : List Nat :=
  (List.range asked.length).filter fun r => asked[r]? = some conn

def Pending (s : Polls) (connections : List Nat) (conn request : Nat) : Prop :=
  ∃ d ∈ connections, .statusInfo (some conn) request ∈ (s.heap d).commands

instance (s : Polls) (connections : List Nat) (conn request : Nat) :
    Decidable (s.Pending connections conn request) := inferInstanceAs (Decidable (∃ d ∈ _, _))

def outstanding (s : Polls) (conn : Nat) : List Nat :=
  (requestsOf s.asked conn).filter fun r => s.Pending s.connections conn r

/-- Every request is answered once, when all it was passed on to answered or left, and
statusCommandRunning counts those that are not answered. -/
def Answered (s : Polls) : Prop :=
  ∀ conn ∈ s.connections,
    s.oks.count conn + (s.outstanding conn).length = (requestsOf s.asked conn).length ∧
      (s.heap conn).statusCommandRunning = (s.outstanding conn).length

def Waits (s : Polls) (connections : List Nat) (conn : Nat) : Prop :=
  ∃ r, s.Pending connections conn r

/-- Requests of one connection are not in each other's way: the return that ends one finds no
command of another one elsewhere, and the removal of a connection ends the only one that is left,
or none. -/
def Unmixed (s : Polls) : PollEvent → Prop
  | .commandReturn conn => ∀ control_conn request,
      (s.heap conn).runningCommand = some (.statusInfo (some control_conn) request) →
        s.Waits (s.connections.erase conn) control_conn →
          s.Pending (s.connections.erase conn) control_conn request
  | .connectionRemoved conn => ∀ c ∈ s.connections.erase conn,
      (s.Waits (s.connections.erase conn) c →
        ∀ r ∈ s.outstanding c, s.Pending (s.connections.erase conn) c r) ∧
      (¬ s.Waits (s.connections.erase conn) c → (s.outstanding c).length ≤ 1)
  | .createConnection | .register .. | .statusInfo _ | .queCommand _ | .connectionError _ => True

theorem isOriginator_iff (conn : Nat) (cmd : Cmd) :
    cmd.isOriginator conn = true ↔ ∃ r, cmd = .statusInfo (some conn) r := by
  cases cmd with
  | statusInfo control_conn request => simp [Cmd.isOriginator]
  | other => simp [Cmd.isOriginator]

theorem queCommand_commands (c : ConnCentrald) (cmd : Cmd) :
    (c.queCommand cmd).commands.Perm (cmd :: c.commands) := by
  unfold ConnCentrald.queCommand
  split
  · unfold ConnCentrald.commands
    rw [← List.append_assoc]
    exact List.perm_append_singleton cmd _
  · rename_i free
    have none : c.runningCommand = none := by
      by_contra some
      exact free (.inl (Option.isSome_iff_ne_none.mpr some))
    simp [ConnCentrald.commands, none]

theorem sendNextCommand_commands (c : ConnCentrald) :
    c.sendNextCommand.commands = c.commandQue := by
  unfold ConnCentrald.sendNextCommand ConnCentrald.commands
  cases queue : c.commandQue with
  | nil => simp
  | cons cmd rest => simp

theorem deleteConnection_commands (c : ConnCentrald) (conn : Nat) :
    (c.deleteConnection conn).commands = c.commands.map (·.deleteConnection conn) := by
  unfold ConnCentrald.deleteConnection ConnCentrald.commands
  cases c.runningCommand <;> simp

theorem mem_map_deleteConnection {conn deleted r : Nat} (other : conn ≠ deleted)
    (commands : List Cmd) : .statusInfo (some conn) r ∈ commands.map (·.deleteConnection deleted) ↔
      .statusInfo (some conn) r ∈ commands := by
  constructor
  · intro mem
    obtain ⟨cmd, listed, same⟩ := List.mem_map.mp mem
    cases cmd with
    | other => simp [Cmd.deleteConnection] at same
    | statusInfo control_conn request =>
      simp only [Cmd.deleteConnection] at same
      split at same
      · simp at same
      · exact same ▸ listed
  · intro mem
    refine List.mem_map.mpr ⟨_, mem, ?_⟩
    simp [Cmd.deleteConnection, other]

theorem queEmpty_iff {c : ConnCentrald}
    (sending : c.runningCommand.isSome → c.runningCommandStatus = .send) (conn : Nat) :
    c.queEmptyForOriginator conn = false ↔ ∃ r, .statusInfo (some conn) r ∈ c.commands := by
  have any : (c.queEmptyForOriginator conn = false) ↔
      ∃ cmd ∈ c.commands, cmd.isOriginator conn = true := by
    unfold ConnCentrald.queEmptyForOriginator ConnCentrald.commands
    cases running : c.runningCommand with
    | none => simp
    | some cmd =>
      rw [running] at sending
      cases here : cmd.isOriginator conn <;> simp [sending rfl, here]
  rw [any]
  constructor
  · rintro ⟨cmd, listed, originator⟩
    obtain ⟨r, rfl⟩ := (isOriginator_iff conn cmd).mp originator
    exact ⟨r, listed⟩
  · rintro ⟨r, listed⟩
    exact ⟨_, listed, (isOriginator_iff conn _).mpr ⟨r, rfl⟩⟩

structure Queue (asked connections : List Nat) (c : ConnCentrald) : Prop where
  sending : c.runningCommand.isSome → c.runningCommandStatus = .send
  own : ∀ conn r, .statusInfo (some conn) r ∈ c.commands →
    asked[r]? = some conn ∧ conn ∈ connections
  below : ∀ r ∈ c.commands.filterMap (·.request), r < asked.length
  once : (c.commands.filterMap (·.request)).Nodup

structure Kept (s : Polls) : Prop where
  nodup : s.connections.Nodup
  conns : ∀ c ∈ s.connections, c ≤ s.connNum
  askers : ∀ c ∈ s.asked, c ≤ s.connNum
  answers : ∀ c ∈ s.oks, c ≤ s.connNum
  queues : ∀ d ∈ s.connections, Queue s.asked s.connections (s.heap d)
  balance : ∀ c ∈ s.connections,
    (s.oks.count c : Int) + (s.heap c).statusCommandRunning = (requestsOf s.asked c).length

def Counts (s : Polls) : Prop :=
  ∀ c ∈ s.connections, (s.heap c).statusCommandRunning = (s.outstanding c).length

theorem answered_iff {s : Polls} (kept : s.Kept) : s.Answered ↔ s.Counts := by
  constructor
  · exact fun answered c mem => (answered c mem).2
  · intro counts c mem
    have balance := kept.balance c mem
    have count := counts c mem
    exact ⟨by omega, count⟩

theorem originatorPending_iff {s : Polls} (conn : Nat) (exclude_conn : Option Nat)
    (sending : ∀ d ∈ s.connections, some d ≠ exclude_conn →
      (s.heap d).runningCommand.isSome → (s.heap d).runningCommandStatus = .send) :
    s.commandOriginatorPending conn exclude_conn = true ↔
      s.Waits (s.connections.filter fun d => some d ≠ exclude_conn) conn := by
  unfold commandOriginatorPending Waits Pending
  simp only [List.any_eq_true, Bool.and_eq_true, Bool.not_eq_true', decide_eq_true_eq,
    List.mem_filter]
  constructor
  · rintro ⟨d, mem, other, busy⟩
    obtain ⟨r, listed⟩ := (queEmpty_iff (sending d mem other) conn).mp busy
    exact ⟨r, d, ⟨mem, other⟩, listed⟩
  · rintro ⟨r, d, ⟨mem, other⟩, listed⟩
    exact ⟨d, mem, other, (queEmpty_iff (sending d mem other) conn).mpr ⟨r, listed⟩⟩

theorem outstanding_congr {s s' : Polls} {conn : Nat} (asked : s'.asked = s.asked)
    (pending : ∀ r, s'.Pending s'.connections conn r ↔ s.Pending s.connections conn r) :
    s'.outstanding conn = s.outstanding conn := by
  unfold outstanding
  rw [asked]
  exact List.filter_congr fun r _ => by simp [pending r]

theorem counts_of_frame {s s' : Polls} (counts : s.Counts)
    (connections : s'.connections = s.connections) (asked : s'.asked = s.asked)
    (count : ∀ c ∈ s.connections,
      (s'.heap c).statusCommandRunning = (s.heap c).statusCommandRunning)
    (pending : ∀ d ∈ s.connections, ∀ c r, .statusInfo (some c) r ∈ (s'.heap d).commands ↔
      .statusInfo (some c) r ∈ (s.heap d).commands) : s'.Counts := by
  intro c mem
  rw [connections] at mem
  have same : s'.outstanding c = s.outstanding c := by
    refine outstanding_congr asked fun r => ?_
    unfold Pending
    rw [connections]
    exact exists_congr fun d => and_congr_right fun mem => pending d mem c r
  rw [count c mem, same]
  exact counts c mem

theorem Queue.frame {asked connections connections' : List Nat} {c c' : ConnCentrald}
    (queue : Queue asked connections c) (still : connections ⊆ connections')
    (commands : c'.commands.Perm c.commands ∨ c'.commands.Perm (.other :: c.commands) ∨
      c'.commands = c.commands.tail)
    (sending : c'.runningCommand.isSome → c'.runningCommandStatus = .send) :
    Queue asked connections' c' := by
  have mem (cmd : Cmd) (listed : cmd ∈ c'.commands) : cmd ∈ c.commands ∨ cmd = .other := by
    rcases commands with same | more | less
    · exact .inl (same.mem_iff.mp listed)
    · exact (List.mem_cons.mp (more.mem_iff.mp listed)).symm
    · exact .inl (List.mem_of_mem_tail (less ▸ listed))
  have requests : (c'.commands.filterMap (·.request)).Subperm (c.commands.filterMap (·.request)) := by
    rcases commands with same | more | less
    · exact (same.filterMap _).subperm
    · exact (more.filterMap _).subperm
    · rw [less]
      exact ((List.tail_sublist _).filterMap _).subperm
  refine ⟨sending, fun conn r listed => ?_, fun r listed => ?_, ?_⟩
  · obtain ⟨asks, here⟩ := queue.own conn r ((mem _ listed).resolve_right (by simp))
    exact ⟨asks, still here⟩
  · exact queue.below r (requests.subset listed)
  · obtain ⟨l, same, sub⟩ := requests
    exact same.nodup_iff.mp (queue.once.sublist sub)

def settled (c : ConnCentrald) (n : Nat) : ConnCentrald :=
  { c with statusCommandRunning := c.statusCommandRunning - n }

theorem settled_zero (c : ConnCentrald) : settled c 0 = c := by
  simp [settled]

theorem settled_settled (c : ConnCentrald) (m n : Nat) :
    settled (settled c m) n = settled c (m + n) := by
  simp only [settled]
  congr 1
  push_cast
  ring

def credit (s : Polls) (due : List Nat) : Polls :=
  { s with heap := fun c => settled (s.heap c) (due.count c), oks := s.oks ++ due }

theorem credit_nil (s : Polls) : s.credit [] = s := by
  simp [credit, settled_zero]

theorem credit_credit (s : Polls) (due due' : List Nat) :
    (s.credit due).credit due' = s.credit (due ++ due') := by
  simp [credit, settled_settled, List.append_assoc]

theorem updateStatusWait_eq (s : Polls) (this : Nat) (conn : Option Nat) :
    s.updateStatusWait this conn = s.credit (if s.answers this conn then [this] else []) := by
  unfold updateStatusWait
  split
  · simp only [update, credit]
    congr 1
    funext c
    by_cases here : c = this
    · simp [here, settled]
    · have apart : ¬ this = c := fun same => here same.symm
      simp [here, apart, settled_zero]
  · exact (credit_nil s).symm

theorem answers_congr {s s' : Polls} (connections : s'.connections = s.connections)
    (queues : ∀ d conn,
      (s'.heap d).queEmptyForOriginator conn = (s.heap d).queEmptyForOriginator conn)
    {this : Nat} (count : (s'.heap this).statusCommandRunning = (s.heap this).statusCommandRunning)
    (conn : Option Nat) : s'.answers this conn = s.answers this conn := by
  have pending (exclude_conn : Option Nat) : s'.commandOriginatorPending this exclude_conn =
      s.commandOriginatorPending this exclude_conn := by
    unfold commandOriginatorPending
    exact List.any_congr connections fun d => by rw [queues d this]
  unfold answers
  rw [pending, pending, count]

theorem credit_answers (s : Polls) {due : List Nat} {this : Nat} (others : due.count this = 0)
    (conn : Option Nat) : (s.credit due).answers this conn = s.answers this conn := by
  have same : ∀ d c, ((s.credit due).heap d).queEmptyForOriginator c =
      (s.heap d).queEmptyForOriginator c := fun _ _ => rfl
  have connections : (s.credit due).connections = s.connections := rfl
  refine answers_congr connections same ?_ conn
  simp [credit, settled, others]

theorem foldl_updateStatusWait (s : Polls) (l : List Nat) (nodup : l.Nodup) :
    l.foldl (fun s iter => s.updateStatusWait iter none) s =
      s.credit (l.filter (s.answers · none)) := by
  induction l generalizing s with
  | nil => exact (credit_nil s).symm
  | cons a l ih =>
    obtain ⟨fresh, nodup⟩ := List.nodup_cons.mp nodup
    have others (c : Nat) (mem : c ∈ l) :
        (s.updateStatusWait a none).answers c none = s.answers c none := by
      have other : ¬ a = c := fun same => fresh (same ▸ mem)
      rw [updateStatusWait_eq]
      refine credit_answers s ?_ none
      split <;> simp [other]
    rw [List.foldl_cons, ih _ nodup, List.filter_congr others, updateStatusWait_eq, credit_credit]
    congr 1
    cases due : s.answers a none <;> simp [due]

theorem kept_of_frame {s s' : Polls} (kept : s.Kept) (connNum : s'.connNum = s.connNum)
    (connections : s'.connections = s.connections) (asked : s'.asked = s.asked)
    (oks : s'.oks = s.oks) (queues : ∀ d ∈ s.connections, Queue s.asked s.connections (s'.heap d))
    (count : ∀ c ∈ s.connections,
      (s'.heap c).statusCommandRunning = (s.heap c).statusCommandRunning) : s'.Kept := by
  obtain ⟨nodup, conns, askers, answers, _, balance⟩ := kept
  rw [← connections, ← asked] at queues
  rw [← connections] at nodup conns count balance
  rw [← connNum] at conns askers answers
  refine ⟨nodup, conns, asked ▸ askers, oks ▸ answers, queues, fun c mem => ?_⟩
  rw [oks, count c mem, asked]
  exact balance c mem

theorem update_kept {s : Polls} (kept : s.Kept) (conn : Nat) (f : ConnCentrald → ConnCentrald)
    (queue : ∀ c, Queue s.asked s.connections c → Queue s.asked s.connections (f c))
    (count : ∀ c, (f c).statusCommandRunning = c.statusCommandRunning) :
    (s.update conn f).Kept := by
  refine kept_of_frame kept rfl rfl rfl rfl (fun d mem => ?_) fun c mem => ?_
  · by_cases here : d = conn
    · subst here
      simpa [update] using queue _ (kept.queues d mem)
    · simpa [update, here] using kept.queues d mem
  · by_cases here : c = conn
    · subst here
      simp [update, count]
    · simp [update, here]

theorem update_counts {s : Polls} (counts : s.Counts) (conn : Nat)
    (f : ConnCentrald → ConnCentrald)
    (count : ∀ c, (f c).statusCommandRunning = c.statusCommandRunning)
    (same : ∀ c conn r, .statusInfo (some conn) r ∈ (f c).commands ↔
      .statusInfo (some conn) r ∈ c.commands) : (s.update conn f).Counts := by
  refine counts_of_frame counts rfl rfl (fun c mem => ?_) fun d mem c r => ?_
  · by_cases here : c = conn
    · subst here
      simp [update, count]
    · simp [update, here]
  · by_cases here : d = conn
    · subst here
      simp [update, same]
    · simp [update, here]

theorem plain_queue {asked connections : List Nat} {c c' : ConnCentrald}
    (queue : Queue asked connections c)
    (same : c'.runningCommand = c.runningCommand)
    (status : c'.runningCommandStatus = c.runningCommandStatus)
    (que : c'.commandQue = c.commandQue) : Queue asked connections c' := by
  have commands : c'.commands = c.commands := by
    unfold ConnCentrald.commands
    rw [same, que]
  refine queue.frame (List.Subset.refl _) (.inl (commands ▸ List.Perm.refl _)) ?_
  rw [same, status]
  exact queue.sending

theorem queCommand_sending {c : ConnCentrald} (cmd : Cmd)
    (sending : c.runningCommand.isSome → c.runningCommandStatus = .send) :
    (c.queCommand cmd).runningCommand.isSome → (c.queCommand cmd).runningCommandStatus = .send := by
  unfold ConnCentrald.queCommand
  split
  · exact sending
  · exact fun _ => rfl

theorem queCommand_count (c : ConnCentrald) (cmd : Cmd) :
    (c.queCommand cmd).statusCommandRunning = c.statusCommandRunning := by
  unfold ConnCentrald.queCommand
  split <;> rfl

theorem mem_queCommand (c : ConnCentrald) (cmd cmd' : Cmd) :
    cmd' ∈ (c.queCommand cmd).commands ↔ cmd' = cmd ∨ cmd' ∈ c.commands := by
  rw [(queCommand_commands c cmd).mem_iff, List.mem_cons]

theorem requestsOf_new {s : Polls} (kept : s.Kept) {c : Nat} (new : s.connNum < c) :
    requestsOf s.asked c = [] := by
  refine List.filter_eq_nil_iff.mpr fun r _ => ?_
  intro asks
  have mem := List.mem_of_getElem? (of_decide_eq_true asks)
  have old := kept.askers c mem
  omega

theorem createConnection_kept {s : Polls} (kept : s.Kept) :
    (s.step blockDevice .createConnection).Kept := by
  have new : s.connNum + 1 ∉ s.connections := fun mem => by
    have old := kept.conns _ mem
    omega
  obtain ⟨nodup, conns, askers, answers, queues, balance⟩ := kept
  refine ⟨?_, ?_, ?_, ?_, ?_, ?_⟩
  · exact List.nodup_append.mpr ⟨nodup, List.nodup_singleton _, fun a mem b mem' => by
      rintro rfl
      exact new (List.mem_singleton.mp mem' ▸ mem)⟩
  · intro c mem
    rcases List.mem_append.mp mem with mem | mem
    · exact (conns c mem).trans (Nat.le_succ _)
    · exact le_of_eq (List.mem_singleton.mp mem)
  · exact fun c mem => (askers c mem).trans (Nat.le_succ _)
  · exact fun c mem => (answers c mem).trans (Nat.le_succ _)
  · intro d mem
    by_cases here : d = s.connNum + 1
    · subst here
      simp only [step, Function.update_self]
      exact ⟨by simp [ConnCentrald.created], by simp [ConnCentrald.created, ConnCentrald.commands],
        by simp [ConnCentrald.created, ConnCentrald.commands],
        by simp [ConnCentrald.created, ConnCentrald.commands]⟩
    · have mem : d ∈ s.connections := by
        simpa [step, here] using mem
      simp only [step, Function.update_of_ne here]
      exact (queues d mem).frame (List.subset_append_left _ _) (.inl (List.Perm.refl _))
        (queues d mem).sending
  · intro c mem
    change _ = ((requestsOf s.asked c).length : Int)
    by_cases here : c = s.connNum + 1
    · subst here
      have quiet : s.oks.count (s.connNum + 1) = 0 := List.count_eq_zero.mpr fun mem => by
        have old := answers _ mem
        omega
      have kept : s.Kept := ⟨nodup, conns, askers, answers, queues, balance⟩
      simp [step, quiet, requestsOf_new kept (Nat.lt_succ_self _), ConnCentrald.created]
    · have mem : c ∈ s.connections := by
        simpa [step, here] using mem
      simpa only [step, Function.update_of_ne here] using balance c mem

theorem createConnection_counts {s : Polls} (kept : s.Kept) (counts : s.Counts) :
    (s.step blockDevice .createConnection).Counts := by
  intro c mem
  have pending (r : Nat) : (s.step blockDevice .createConnection).Pending
      (s.step blockDevice .createConnection).connections c r ↔ s.Pending s.connections c r := by
    constructor
    · rintro ⟨d, mem, listed⟩
      by_cases here : d = s.connNum + 1
      · subst here
        simp [step, ConnCentrald.created, ConnCentrald.commands] at listed
      · exact ⟨d, by simpa [step, here] using mem, by simpa [step, here] using listed⟩
    · rintro ⟨d, mem, listed⟩
      have here : d ≠ s.connNum + 1 := fun same => by
        have old := kept.conns d mem
        omega
      exact ⟨d, by simp [step, mem], by simpa [step, here] using listed⟩
  have same : (s.step blockDevice .createConnection).outstanding c = s.outstanding c :=
    outstanding_congr rfl pending
  rw [same]
  by_cases here : c = s.connNum + 1
  · subst here
    simp [step, outstanding, requestsOf_new kept (Nat.lt_succ_self _), ConnCentrald.created]
  · have mem : c ∈ s.connections := by
      simpa [step, here] using mem
    simpa only [step, Function.update_of_ne here] using counts c mem

def answered (s : Polls) (conn : Nat) : Cmd → List Nat
  | .statusInfo (some control_conn) _ =>
    if s.commandOriginatorPending control_conn (some conn) then [] else [control_conn]
  | .statusInfo none _ | .other => []

theorem commandReturn_eq {s : Polls} {conn : Nat} {cmd : Cmd}
    (running : (s.heap conn).runningCommand = some cmd) :
    s.commandReturn conn =
      ((s.update conn fun c => { c with runningCommandStatus := .returning }).credit
        (s.answered conn cmd)).update conn ConnCentrald.sendNextCommand := by
  have excluded (c : Nat) :
      (s.update conn fun c => { c with runningCommandStatus := .returning }).answers c (some conn) =
        !s.commandOriginatorPending c (some conn) := by
    unfold answers commandOriginatorPending
    refine congrArg (! ·) (List.any_congr rfl fun d => ?_)
    by_cases here : d = conn
    · simp [here]
    · simp [update, here]
  unfold commandReturn
  rw [running]
  dsimp only
  congr 1
  cases cmd with
  | other => exact (credit_nil _).symm
  | statusInfo control_conn request =>
    cases control_conn with
    | none => exact (credit_nil _).symm
    | some control_conn =>
      dsimp only
      rw [updateStatusWait_eq, excluded]
      simp only [answered]
      cases s.commandOriginatorPending control_conn (some conn) <;> simp

theorem count_answered (s : Polls) (conn c : Nat) (cmd : Cmd) :
    (s.answered conn cmd).count c = if cmd.isOriginator c ∧
      s.commandOriginatorPending c (some conn) = false then 1 else 0 := by
  cases cmd with
  | other => simp [answered, Cmd.isOriginator]
  | statusInfo control_conn request =>
    cases control_conn with
    | none => simp [answered, Cmd.isOriginator]
    | some control_conn =>
      by_cases here : control_conn = c
      · subst here
        cases pending : s.commandOriginatorPending control_conn (some conn) <;>
          simp [answered, Cmd.isOriginator, pending]
      · simp only [answered]
        cases s.commandOriginatorPending control_conn (some conn) <;> simp [Cmd.isOriginator, here]

theorem credit_balance {s : Polls} (kept : s.Kept) (due : List Nat) (c : Nat)
    (mem : c ∈ s.connections) : ((s.credit due).oks.count c : Int) +
      ((s.credit due).heap c).statusCommandRunning = (requestsOf s.asked c).length := by
  have balance := kept.balance c mem
  simp only [credit, settled, List.count_append]
  push_cast
  omega

theorem answered_mem {s : Polls} (kept : s.Kept) {conn c : Nat} {cmd : Cmd}
    (mem : conn ∈ s.connections) (running : (s.heap conn).runningCommand = some cmd)
    (due : c ∈ s.answered conn cmd) : c ∈ s.connections ∧ ∃ r, cmd = .statusInfo (some c) r := by
  have positive := List.count_pos_iff.mpr due
  rw [count_answered] at positive
  have originator : cmd.isOriginator c = true := by
    by_contra other
    simp [other] at positive
  obtain ⟨r, rfl⟩ := (isOriginator_iff c cmd).mp originator
  have listed : .statusInfo (some c) r ∈ (s.heap conn).commands := by
    simp [ConnCentrald.commands, running]
  exact ⟨((kept.queues conn mem).own c r listed).2, r, rfl⟩

theorem commandReturn_count {s : Polls} {conn : Nat} {cmd : Cmd}
    (running : (s.heap conn).runningCommand = some cmd) (c : Nat) :
    ((s.commandReturn conn).heap c).statusCommandRunning =
      (s.heap c).statusCommandRunning - (s.answered conn cmd).count c := by
  rw [commandReturn_eq running]
  by_cases here : c = conn
  · subst here
    simp only [update, credit, Function.update_self]
    unfold ConnCentrald.sendNextCommand
    split <;> rfl
  · simp [update, credit, Function.update_of_ne here, settled]

theorem commandReturn_kept {s : Polls} (kept : s.Kept) {conn : Nat} (mem : conn ∈ s.connections) :
    (s.commandReturn conn).Kept := by
  cases running : (s.heap conn).runningCommand with
  | none =>
    unfold commandReturn
    rw [running]
    exact kept
  | some cmd =>
    have count := commandReturn_count running
    rw [commandReturn_eq running] at count ⊢
    refine ⟨kept.nodup, kept.conns, kept.askers, ?_, ?_, ?_⟩
    · intro c listed
      rcases List.mem_append.mp listed with old | due
      · exact kept.answers c old
      · exact kept.conns c (answered_mem kept mem running due).1
    · intro d listed
      by_cases here : d = conn
      · subst here
        simp only [update, credit, Function.update_self]
        refine (kept.queues d mem).frame (List.Subset.refl _) (.inr (.inr ?_)) ?_
        · rw [sendNextCommand_commands]
          simp [ConnCentrald.commands, running, settled]
        · unfold ConnCentrald.sendNextCommand
          split <;> simp
      · simp only [update, credit, Function.update_of_ne here]
        exact plain_queue (kept.queues d listed) rfl rfl rfl
    · intro c listed
      rw [count c]
      exact credit_balance kept (s.answered conn cmd) c listed

theorem filter_exclude (connections : List Nat) (conn d : Nat) (nodup : connections.Nodup) :
    (d ∈ connections.filter fun d => some d ≠ some conn) ↔ d ∈ connections.erase conn := by
  simp [nodup.mem_erase_iff, and_comm]

theorem pending_mem {s : Polls} {l l' : List Nat} (same : ∀ d, d ∈ l ↔ d ∈ l') (c r : Nat) :
    s.Pending l c r ↔ s.Pending l' c r := by
  unfold Pending
  simp only [same]

theorem excluded_iff {s : Polls} (kept : s.Kept) (conn c : Nat) :
    s.commandOriginatorPending c (some conn) = true ↔ s.Waits (s.connections.erase conn) c := by
  rw [originatorPending_iff c (some conn) fun d mem _ => (kept.queues d mem).sending]
  unfold Waits
  exact exists_congr fun r =>
    pending_mem (fun d => filter_exclude s.connections conn d kept.nodup) c r

theorem commandReturn_pending {s : Polls} (kept : s.Kept) {conn : Nat} {cmd : Cmd}
    (mem : conn ∈ s.connections) (running : (s.heap conn).runningCommand = some cmd) (c r : Nat) :
    (s.commandReturn conn).Pending s.connections c r ↔
      s.Pending s.connections c r ∧
        (cmd = .statusInfo (some c) r → s.Pending (s.connections.erase conn) c r) := by
  have here : ((s.commandReturn conn).heap conn).commands = (s.heap conn).commandQue := by
    rw [commandReturn_eq running]
    simp [update, credit, sendNextCommand_commands, settled]
  have others (d : Nat) (other : d ≠ conn) :
      ((s.commandReturn conn).heap d).commands = (s.heap d).commands := by
    rw [commandReturn_eq running]
    simp only [update, credit, Function.update_of_ne other]
    rfl
  have commands : (s.heap conn).commands = cmd :: (s.heap conn).commandQue := by
    simp [ConnCentrald.commands, running]
  have once := (kept.queues conn mem).once
  rw [commands] at once
  constructor
  · rintro ⟨d, listed, waits⟩
    by_cases at_conn : d = conn
    · subst at_conn
      rw [here] at waits
      refine ⟨⟨d, listed, commands ▸ List.mem_cons_of_mem _ waits⟩, ?_⟩
      rintro rfl
      -- the queue would hold a second command of the request
      have twice := (List.nodup_cons.mp once).1
      have again : r ∈ (s.heap d).commandQue.filterMap (·.request) :=
        List.mem_filterMap.mpr ⟨_, waits, rfl⟩
      exact absurd again twice
    · rw [others d at_conn] at waits
      exact ⟨⟨d, listed, waits⟩, fun _ => ⟨d, (kept.nodup.mem_erase_iff).mpr ⟨at_conn, listed⟩, waits⟩⟩
  · rintro ⟨⟨d, listed, waits⟩, elsewhere⟩
    by_cases at_conn : d = conn
    · subst at_conn
      rw [commands] at waits
      rcases List.mem_cons.mp waits with same | waits
      · obtain ⟨d', listed', waits'⟩ := elsewhere same.symm
        obtain ⟨other, listed'⟩ := kept.nodup.mem_erase_iff.mp listed'
        exact ⟨d', listed', (others d' other).symm ▸ waits'⟩
      · exact ⟨d, listed, here.symm ▸ waits⟩
    · exact ⟨d, listed, (others d at_conn).symm ▸ waits⟩

theorem outstanding_nodup (s : Polls) (conn : Nat) : (s.outstanding conn).Nodup :=
  (List.nodup_range.filter _).filter _

theorem mem_outstanding {s : Polls} {d c r : Nat} (kept : s.Kept) (mem : d ∈ s.connections)
    (listed : .statusInfo (some c) r ∈ (s.heap d).commands) : r ∈ s.outstanding c := by
  obtain ⟨asks, _⟩ := (kept.queues d mem).own c r listed
  have inside := (List.getElem?_eq_some_iff.mp asks).1
  have pending : s.Pending s.connections c r := ⟨d, mem, listed⟩
  refine List.mem_filter.mpr ⟨List.mem_filter.mpr ⟨List.mem_range.mpr inside, ?_⟩, ?_⟩
  · exact decide_eq_true asks
  · exact decide_eq_true pending

theorem length_filter_one {l : List Nat} (nodup : l.Nodup) {r : Nat} (mem : r ∈ l) (held : Prop)
    [Decidable held] : (l.filter fun a => decide (a = r → held)).length =
      l.length - if held then 0 else 1 := by
  by_cases still : held
  · simp [still]
  · have all : (l.filter fun a => decide (a = r → held)) = l.erase r := by
      rw [nodup.erase_eq_filter]
      exact List.filter_congr fun a _ => by by_cases same : a = r <;> simp [still, same]
    rw [all, List.length_erase_of_mem mem, if_neg still]

theorem commandReturn_iff {s : Polls} (kept : s.Kept) (counts : s.Counts) {conn : Nat}
    (mem : conn ∈ s.connections) :
    (s.commandReturn conn).Counts ↔ s.Unmixed (.commandReturn conn) := by
  cases running : (s.heap conn).runningCommand with
  | none =>
    have same : s.commandReturn conn = s := by
      unfold commandReturn
      rw [running]
    rw [same]
    exact iff_of_true counts fun _ _ some => by simp [running] at some
  | some cmd =>
    have connections : (s.commandReturn conn).connections = s.connections := by
      rw [commandReturn_eq running]
      rfl
    have outstanding (c : Nat) : (s.commandReturn conn).outstanding c =
        (s.outstanding c).filter fun r =>
          decide (cmd = .statusInfo (some c) r → s.Pending (s.connections.erase conn) c r) := by
      have asked : (s.commandReturn conn).asked = s.asked := by
        rw [commandReturn_eq running]
        rfl
      unfold Polls.outstanding
      rw [asked, connections, List.filter_filter]
      refine List.filter_congr fun r _ => ?_
      rw [decide_eq_decide.mpr (commandReturn_pending kept mem running c r), Bool.decide_and,
        Bool.and_comm]
    have law (c : Nat) (listed : c ∈ s.connections) :
        ((s.commandReturn conn).heap c).statusCommandRunning =
          ((s.commandReturn conn).outstanding c).length ↔
        ∀ r, cmd = .statusInfo (some c) r → s.Waits (s.connections.erase conn) c →
          s.Pending (s.connections.erase conn) c r := by
      rw [commandReturn_count running, outstanding, counts c listed, count_answered]
      by_cases originator : ∃ r, cmd = .statusInfo (some c) r
      · obtain ⟨r, rfl⟩ := originator
        have first : r ∈ s.outstanding c :=
          mem_outstanding kept mem (by simp [ConnCentrald.commands, running])
        have positive := List.length_pos_of_mem first
        have narrow : ((s.outstanding c).filter fun r' => decide
            (Cmd.statusInfo (some c) r = .statusInfo (some c) r' →
              s.Pending (s.connections.erase conn) c r')) =
            (s.outstanding c).filter fun r' =>
              decide (r' = r → s.Pending (s.connections.erase conn) c r) := by
          refine List.filter_congr fun r' _ => decide_eq_decide.mpr ?_
          constructor
          · rintro held rfl
            exact held rfl
          · rintro held same
            obtain rfl : r = r' := by simpa using same
            exact held rfl
        have waits : s.Pending (s.connections.erase conn) c r → s.Waits (s.connections.erase conn) c :=
          fun pending => ⟨r, pending⟩
        rw [narrow, length_filter_one (outstanding_nodup s c) first]
        by_cases held : s.Pending (s.connections.erase conn) c r
        · have excluded := (excluded_iff kept conn c).mpr (waits held)
          simp [held, excluded]
        · by_cases waiting : s.Waits (s.connections.erase conn) c
          · have excluded := (excluded_iff kept conn c).mpr waiting
            refine iff_of_false (fun same => ?_) fun unmixed => held (unmixed r rfl waiting)
            simp only [excluded, held, if_false] at same
            simp at same
            omega
          · have excluded : s.commandOriginatorPending c (some conn) = false := by
              simpa using fun pending => waiting ((excluded_iff kept conn c).mp pending)
            refine iff_of_true ?_ fun r' _ waits => absurd ⟨_, waits.choose_spec⟩ waiting
            simp only [excluded, held, Cmd.isOriginator, if_false]
            simp
            omega
      · have other : cmd.isOriginator c = false := by
          simpa using fun same => originator ((isOriginator_iff c cmd).mp same)
        have all : ((s.outstanding c).filter fun r => decide
            (cmd = .statusInfo (some c) r → s.Pending (s.connections.erase conn) c r)) =
              s.outstanding c :=
          List.filter_eq_self.mpr fun r _ => decide_eq_true fun same => absurd ⟨r, same⟩ originator
        rw [all]
        simp only [other]
        refine iff_of_true (by simp) fun r same => absurd ⟨r, same⟩ originator
    unfold Counts Unmixed
    rw [connections]
    constructor
    · intro counts' c r same
      obtain rfl := Option.some.inj (running.symm.trans same)
      have listed : .statusInfo (some c) r ∈ (s.heap conn).commands := by
        simp [ConnCentrald.commands, running]
      have here := ((kept.queues conn mem).own c r listed).2
      exact (law c here).mp (counts' c here) r rfl
    · intro unmixed c here
      refine (law c here).mpr fun r same => unmixed c r ?_
      rw [running, same]

theorem requestsOf_append (asked : List Nat) (conn c : Nat) :
    requestsOf (asked ++ [conn]) c =
      requestsOf asked c ++ if conn = c then [asked.length] else [] := by
  unfold requestsOf
  rw [List.length_append, List.length_singleton, List.range_succ, List.filter_append]
  congr 1
  · refine List.filter_congr fun r mem => ?_
    rw [List.getElem?_append_left (List.mem_range.mp mem)]
  · by_cases here : conn = c <;> simp [here]

def passed (s : Polls) (conn test_conn : Nat) : ConnCentrald :=
  if test_conn ∈ s.connections ∧ s.asks blockDevice conn test_conn then
    (s.heap test_conn).queCommand (.statusInfo (some conn) s.asked.length)
  else s.heap test_conn

def Asks (s : Polls) (conn : Nat) : Prop := ∃ d ∈ s.connections, s.asks blockDevice conn d = true

theorem asks_iff (s : Polls) (conn : Nat) :
    s.connections.countP (s.asks blockDevice conn) = 0 ↔ ¬ s.Asks blockDevice conn := by
  simp [List.countP_eq_zero, Asks]

instance (s : Polls) (conn : Nat) : Decidable (s.Asks blockDevice conn) :=
  inferInstanceAs (Decidable (∃ d ∈ _, _))

theorem passed_count (s : Polls) (conn d : Nat) :
    (s.passed blockDevice conn d).statusCommandRunning = (s.heap d).statusCommandRunning := by
  unfold passed
  split
  · exact queCommand_count _ _
  · rfl

theorem statusInfo_eq (s : Polls) (conn : Nat) :
    s.statusInfo blockDevice conn =
      { s with
        heap := fun d =>
          { s.passed blockDevice conn d with
            statusCommandRunning := (s.heap d).statusCommandRunning +
              if d = conn ∧ s.Asks blockDevice conn then 1 else 0 }
        asked := s.asked ++ [conn]
        oks := s.oks ++ if s.Asks blockDevice conn then [] else [conn] } := by
  unfold statusInfo
  dsimp only
  have asks := asks_iff blockDevice s conn
  by_cases someone : s.Asks blockDevice conn
  · rw [if_neg (mt asks.mp (not_not.mpr someone))]
    simp only [update, someone, and_true, if_true, List.append_nil]
    congr 1
    funext d
    by_cases here : d = conn
    · subst here
      rw [Function.update_self, if_pos rfl, ← passed_count blockDevice s d d]
      rfl
    · rw [Function.update_of_ne here, if_neg here, add_zero, ← passed_count blockDevice s conn d]
      rfl
  · rw [if_pos (asks.mpr someone)]
    simp only [someone, and_false, if_false, add_zero]
    congr 1
    funext d
    rw [← passed_count blockDevice s conn d]
    rfl

theorem passed_queue {s : Polls} (kept : s.Kept) {conn d : Nat} (asker : conn ∈ s.connections)
    (mem : d ∈ s.connections) :
    Queue (s.asked ++ [conn]) s.connections (s.passed blockDevice conn d) := by
  obtain ⟨sending, own, below, once⟩ := kept.queues d mem
  have old (c r : Nat) (listed : .statusInfo (some c) r ∈ (s.heap d).commands) :
      (s.asked ++ [conn])[r]? = some c ∧ c ∈ s.connections := by
    obtain ⟨asks, here⟩ := own c r listed
    have inside := (List.getElem?_eq_some_iff.mp asks).1
    exact ⟨by rw [List.getElem?_append_left inside, asks], here⟩
  have longer : (s.asked ++ [conn]).length = s.asked.length + 1 := by simp
  unfold passed
  split
  · have requests := (queCommand_commands (s.heap d) (.statusInfo (some conn) s.asked.length)).filterMap
      (·.request)
    have first : (Cmd.statusInfo (some conn) s.asked.length).request = some s.asked.length := rfl
    rw [List.filterMap_cons_some first] at requests
    refine ⟨queCommand_sending _ sending, fun c r listed => ?_, fun r listed => ?_, ?_⟩
    · rcases (mem_queCommand _ _ _).mp listed with same | listed
      · obtain ⟨rfl, rfl⟩ : c = conn ∧ r = s.asked.length := by simpa using same
        exact ⟨by simp, asker⟩
      · exact old c r listed
    · rcases List.mem_cons.mp (requests.mem_iff.mp listed) with rfl | listed
      · omega
      · have bound := below r listed
        omega
    · refine requests.nodup_iff.mpr (List.nodup_cons.mpr ⟨fun again => ?_, once⟩)
      have bound := below _ again
      omega
  · exact ⟨sending, old, fun r listed => by have bound := below r listed; omega, once⟩

theorem statusInfo_kept {s : Polls} (kept : s.Kept) {conn : Nat} (mem : conn ∈ s.connections) :
    (s.statusInfo blockDevice conn).Kept := by
  rw [statusInfo_eq]
  refine ⟨kept.nodup, kept.conns, ?_, ?_, ?_, ?_⟩
  · intro c listed
    rcases List.mem_append.mp listed with old | new
    · exact kept.askers c old
    · exact List.mem_singleton.mp new ▸ kept.conns conn mem
  · intro c listed
    rcases List.mem_append.mp listed with old | new
    · exact kept.answers c old
    · split at new
      · simp at new
      · exact List.mem_singleton.mp new ▸ kept.conns conn mem
  · exact fun d listed => plain_queue (passed_queue blockDevice kept mem listed) rfl rfl rfl
  · intro c listed
    have balance := kept.balance c listed
    simp only [requestsOf_append, List.count_append, List.length_append]
    by_cases here : conn = c
    · subst here
      by_cases someone : s.Asks blockDevice conn
      · simp [someone]
        omega
      · simp [someone]
        omega
    · have apart : ¬ c = conn := fun same => here same.symm
      by_cases someone : s.Asks blockDevice conn
      · simp [someone, here, apart]
        omega
      · simp [someone, here, apart]
        omega

theorem passed_mem {s : Polls} {conn d c r : Nat} (mem : d ∈ s.connections) :
    .statusInfo (some c) r ∈ (s.passed blockDevice conn d).commands ↔
      .statusInfo (some c) r ∈ (s.heap d).commands ∨
        s.asks blockDevice conn d ∧ c = conn ∧ r = s.asked.length := by
  unfold passed
  split
  · rename_i asked
    rw [mem_queCommand]
    simp [asked.2, or_comm]
  · rename_i passed
    have unasked : ¬ s.asks blockDevice conn d = true := fun asks => passed ⟨mem, asks⟩
    simp [unasked]

theorem statusInfo_outstanding {s : Polls} (kept : s.Kept) (conn c : Nat) :
    (s.statusInfo blockDevice conn).outstanding c =
      s.outstanding c ++ if conn = c ∧ s.Asks blockDevice conn then [s.asked.length] else [] := by
  have pending (r : Nat) : (s.statusInfo blockDevice conn).Pending s.connections c r ↔
      s.Pending s.connections c r ∨
        s.Asks blockDevice conn ∧ c = conn ∧ r = s.asked.length := by
    rw [statusInfo_eq]
    constructor
    · rintro ⟨d, mem, listed⟩
      rcases (passed_mem blockDevice mem).mp listed with old | ⟨asks, same⟩
      · exact .inl ⟨d, mem, old⟩
      · exact .inr ⟨⟨d, mem, asks⟩, same⟩
    · rintro (⟨d, mem, old⟩ | ⟨⟨d, mem, asks⟩, same⟩)
      · exact ⟨d, mem, (passed_mem blockDevice mem).mpr (.inl old)⟩
      · exact ⟨d, mem, (passed_mem blockDevice mem).mpr (.inr ⟨asks, same⟩)⟩
  have fresh : ¬ s.Pending s.connections c s.asked.length := by
    rintro ⟨d, mem, listed⟩
    have bound := (kept.queues d mem).below s.asked.length
      (List.mem_filterMap.mpr ⟨_, listed, rfl⟩)
    omega
  have connections : (s.statusInfo blockDevice conn).connections = s.connections := by
    rw [statusInfo_eq]
  have asked : (s.statusInfo blockDevice conn).asked = s.asked ++ [conn] := by
    rw [statusInfo_eq]
  unfold outstanding
  rw [asked, connections, requestsOf_append, List.filter_append]
  congr 1
  · refine List.filter_congr fun r mem => decide_eq_decide.mpr ?_
    have inside : r < s.asked.length := List.mem_range.mp (List.mem_filter.mp mem).1
    have other : r ≠ s.asked.length := by omega
    simp [pending, other]
  · by_cases here : conn = c
    · subst here
      by_cases someone : s.Asks blockDevice conn <;> simp [pending, fresh, someone]
    · simp [here]

theorem statusInfo_counts {s : Polls} (kept : s.Kept) (counts : s.Counts) (conn : Nat) :
    (s.statusInfo blockDevice conn).Counts := by
  intro c listed
  rw [statusInfo_outstanding blockDevice kept]
  rw [statusInfo_eq] at listed ⊢
  have count := counts c listed
  by_cases here : conn = c
  · subst here
    by_cases someone : s.Asks blockDevice conn <;> simp [count, someone]
  · have apart : ¬ c = conn := fun same => here same.symm
    simp [count, here, apart]

def removed (s : Polls) (conn : Nat) : Polls :=
  { s with
    connections := s.connections.erase conn
    heap := fun c =>
      if c ∈ s.connections ∧ c ≠ conn then (s.heap c).deleteConnection conn else s.heap c }

theorem connectionRemoved_eq {s : Polls} (kept : s.Kept) (conn : Nat) :
    s.connectionRemoved conn = (s.removed conn).credit
      ((s.connections.erase conn).filter ((s.removed conn).answers · none)) :=
  foldl_updateStatusWait (s.removed conn) _ (kept.nodup.erase conn)

theorem removed_heap {s : Polls} (kept : s.Kept) {conn d : Nat}
    (mem : d ∈ s.connections.erase conn) :
    (s.removed conn).heap d = (s.heap d).deleteConnection conn := by
  obtain ⟨other, listed⟩ := kept.nodup.mem_erase_iff.mp mem
  simp [removed, other, listed]

theorem deleteConnection_requests (c : ConnCentrald) (conn : Nat) :
    (c.deleteConnection conn).commands.filterMap (·.request) =
      c.commands.filterMap (·.request) := by
  rw [deleteConnection_commands, List.filterMap_map]
  refine List.filterMap_congr fun cmd _ => ?_
  cases cmd <;> rfl

theorem removed_pending {s : Polls} (conn : Nat) (kept : s.Kept) {c : Nat} (other : c ≠ conn)
    (r : Nat) :
    (s.removed conn).Pending (s.connections.erase conn) c r ↔
      s.Pending (s.connections.erase conn) c r := by
  unfold Pending
  refine exists_congr fun d => and_congr_right fun mem => ?_
  rw [removed_heap kept mem, deleteConnection_commands, mem_map_deleteConnection other]

theorem removed_kept {s : Polls} (kept : s.Kept) (conn : Nat) : (s.removed conn).Kept := by
  have mem_of_mem {c : Nat} (mem : c ∈ s.connections.erase conn) : c ∈ s.connections :=
    List.mem_of_mem_erase mem
  refine ⟨kept.nodup.erase conn, fun c mem => kept.conns c (mem_of_mem mem), kept.askers,
    kept.answers, fun d mem => ?_, fun c mem => ?_⟩
  · obtain ⟨sending, own, below, once⟩ := kept.queues d (mem_of_mem mem)
    rw [removed_heap kept mem]
    refine ⟨?_, fun c r listed => ?_, ?_, ?_⟩
    · simpa [ConnCentrald.deleteConnection] using sending
    · rw [deleteConnection_commands] at listed
      have other : c ≠ conn := by
        rintro rfl
        obtain ⟨cmd, _, same⟩ := List.mem_map.mp listed
        cases cmd with
        | other => simp [Cmd.deleteConnection] at same
        | statusInfo control_conn request =>
          simp only [Cmd.deleteConnection] at same
          split at same
          · simp at same
          · rename_i stays
            have back : control_conn = some c := congrArg Cmd.control_conn same
            exact stays back
      obtain ⟨asks, here⟩ := own c r ((mem_map_deleteConnection other _).mp listed)
      exact ⟨asks, kept.nodup.mem_erase_iff.mpr ⟨other, here⟩⟩
    · rw [deleteConnection_requests]
      exact below
    · rw [deleteConnection_requests]
      exact once
  · rw [removed_heap kept mem]
    exact kept.balance c (mem_of_mem mem)

theorem credit_kept {s : Polls} (kept : s.Kept) {due : List Nat} (listed : due ⊆ s.connections) :
    (s.credit due).Kept := by
  refine ⟨kept.nodup, kept.conns, kept.askers, fun c mem => ?_,
    fun d mem => plain_queue (kept.queues d mem) rfl rfl rfl,
    fun c mem => credit_balance kept due c mem⟩
  rcases List.mem_append.mp mem with old | new
  · exact kept.answers c old
  · exact kept.conns c (listed new)

theorem connectionRemoved_kept {s : Polls} (kept : s.Kept) (conn : Nat) :
    (s.connectionRemoved conn).Kept := by
  rw [connectionRemoved_eq kept]
  exact credit_kept (removed_kept kept conn) fun c mem => List.mem_of_mem_filter mem

theorem connectionRemoved_iff {s : Polls} (kept : s.Kept) (counts : s.Counts) (conn : Nat) :
    (s.connectionRemoved conn).Counts ↔ s.Unmixed (.connectionRemoved conn) := by
  have law (c : Nat) (mem : c ∈ s.connections.erase conn) :
      ((s.connectionRemoved conn).heap c).statusCommandRunning =
        ((s.connectionRemoved conn).outstanding c).length ↔
      (s.Waits (s.connections.erase conn) c →
        ∀ r ∈ s.outstanding c, s.Pending (s.connections.erase conn) c r) ∧
      (¬ s.Waits (s.connections.erase conn) c → (s.outstanding c).length ≤ 1) := by
    obtain ⟨other, listed⟩ := kept.nodup.mem_erase_iff.mp mem
    have pending (r : Nat) := removed_pending conn kept other r
    have waits : (s.removed conn).Waits (s.connections.erase conn) c ↔
        s.Waits (s.connections.erase conn) c := exists_congr pending
    have outstanding : (s.connectionRemoved conn).outstanding c =
        (s.outstanding c).filter fun r => s.Pending (s.connections.erase conn) c r := by
      rw [connectionRemoved_eq kept]
      unfold Polls.outstanding
      rw [List.filter_filter]
      refine List.filter_congr fun r _ => ?_
      have after : ((s.removed conn).credit
          ((s.connections.erase conn).filter ((s.removed conn).answers · none))).Pending
            (s.connections.erase conn) c r ↔ s.Pending (s.connections.erase conn) c r := pending r
      have before (left : s.Pending (s.connections.erase conn) c r) : s.Pending s.connections c r := by
        obtain ⟨d, mem, waits⟩ := left
        exact ⟨d, List.mem_of_mem_erase mem, waits⟩
      rw [← Bool.decide_and]
      exact decide_eq_decide.mpr
        (after.trans ⟨fun left => ⟨left, before left⟩, And.left⟩)
    have answers : (s.removed conn).answers c none = true ↔
        (s.outstanding c).length ≠ 0 ∧ ¬ s.Waits (s.connections.erase conn) c := by
      have all : (s.removed conn).connections.filter (fun d => some d ≠ none) =
          s.connections.erase conn := by simp [removed]
      have looks := originatorPending_iff c none fun d mem _ =>
        ((removed_kept kept conn).queues d mem).sending
      rw [all, waits] at looks
      have count : ((s.heap c).deleteConnection conn).statusCommandRunning =
          (s.outstanding c).length := counts c listed
      simp [Polls.answers, removed_heap kept mem, count, ← looks]
    have count : ((s.connectionRemoved conn).heap c).statusCommandRunning =
        (s.outstanding c).length -
          if (s.removed conn).answers c none = true then 1 else 0 := by
      rw [connectionRemoved_eq kept]
      have once := List.Nodup.count (a := c) ((kept.nodup.erase conn).filter
        fun c => (s.removed conn).answers c none)
      simp only [credit, settled, once, List.mem_filter, mem, true_and, removed_heap kept mem]
      rw [← counts c listed]
      simp [ConnCentrald.deleteConnection]
    rw [count, outstanding]
    by_cases waiting : s.Waits (s.connections.erase conn) c
    · rw [if_neg fun due => (answers.mp due).2 waiting]
      simp only [waiting, true_imp_iff, not_true, false_imp_iff, and_true]
      have whole := List.length_filter_eq_length_iff (l := s.outstanding c)
        (p := fun r => decide (s.Pending (s.connections.erase conn) c r))
      simp only [decide_eq_true_eq] at whole
      rw [← whole]
      omega
    · have none : (s.outstanding c).filter (fun r => s.Pending (s.connections.erase conn) c r) = [] :=
        List.filter_eq_nil_iff.mpr fun r _ pending => waiting ⟨r, of_decide_eq_true pending⟩
      rw [none]
      simp only [waiting, false_imp_iff, not_false_eq_true, true_imp_iff, true_and, answers, and_true,
        List.length_nil]
      split <;> omega
  have connections : (s.connectionRemoved conn).connections = s.connections.erase conn := by
    rw [connectionRemoved_eq kept]
    rfl
  unfold Counts Unmixed
  rw [connections]
  exact forall₂_congr law

theorem step_kept {s : Polls} (kept : s.Kept) {e : PollEvent} (enabled : s.Enabled e) :
    (s.step blockDevice e).Kept := by
  cases e with
  | createConnection => exact createConnection_kept blockDevice kept
  | register conn name type =>
    let registered (c : ConnCentrald) := { c with name := name, type := type }
    refine update_kept kept conn registered (fun c queue => ?_) fun c => ?_
    · exact plain_queue queue rfl rfl rfl
    · rfl
  | statusInfo conn => exact statusInfo_kept blockDevice kept enabled
  | queCommand conn =>
    refine update_kept kept conn _ (fun c queue => ?_) fun c => queCommand_count c .other
    exact queue.frame (List.Subset.refl _) (.inr (.inl (queCommand_commands c .other)))
      (queCommand_sending .other queue.sending)
  | commandReturn conn => exact commandReturn_kept kept enabled
  | connectionError conn =>
    let down (c : ConnCentrald) := { c with up := false }
    refine update_kept kept conn down (fun c queue => ?_) fun c => ?_
    · exact plain_queue queue rfl rfl rfl
    · rfl
  | connectionRemoved conn => exact connectionRemoved_kept kept conn

theorem step_iff {s : Polls} (kept : s.Kept) (counts : s.Counts) {e : PollEvent}
    (enabled : s.Enabled e) : (s.step blockDevice e).Counts ↔ s.Unmixed e := by
  cases e with
  | createConnection =>
    exact iff_of_true (createConnection_counts blockDevice kept counts) trivial
  | register conn name type =>
    exact iff_of_true (update_counts counts conn _ (fun _ => rfl) fun _ _ _ => Iff.rfl) trivial
  | statusInfo conn => exact iff_of_true (statusInfo_counts blockDevice kept counts conn) trivial
  | queCommand conn =>
    refine iff_of_true (update_counts counts conn _ (fun c => queCommand_count c .other) ?_) trivial
    intro c conn r
    simp [mem_queCommand]
  | commandReturn conn => exact commandReturn_iff kept counts enabled
  | connectionError conn =>
    exact iff_of_true (update_counts counts conn _ (fun _ => rfl) fun _ _ _ => Iff.rfl) trivial
  | connectionRemoved conn => exact connectionRemoved_iff kept counts conn

theorem init_kept : init.Kept :=
  ⟨List.nodup_nil, by simp [init], by simp [init], by simp [init], by simp [init], by simp [init]⟩

instance (s : Polls) : Decidable s.Answered :=
  inferInstanceAs (Decidable (∀ conn ∈ _, _ ∧ _))

def threeConnections : List PollEvent :=
  [.createConnection, .createConnection, .createConnection, .register 3 [3] .client]

end Polls

/-- Whatever the block_by configuration: in every run, all requests of all connections are answered
once and in time, and the counters are right, if and only if requests of one connection are never
in each other's way. -/
theorem status_info_answered_iff (blockDevice : Name → Name → Bool) (events : List PollEvent)
    (enabled : Guarded (Polls.step blockDevice) Polls.Enabled Polls.init events) :
    Guarded (Polls.step blockDevice) (fun s e => (s.step blockDevice e).Answered) Polls.init events ↔
      Guarded (Polls.step blockDevice) Polls.Unmixed Polls.init events := by
  refine guarded_congr_invariant (P := fun s => s.Kept ∧ s.Counts) ?_ ?_ ?_ enabled
  · rintro s e ⟨kept, _⟩ enabled answered
    have kept' := Polls.step_kept blockDevice kept enabled
    exact ⟨kept', (Polls.answered_iff kept').mp answered⟩
  · rintro s e ⟨kept, counts⟩ enabled
    rw [Polls.answered_iff (Polls.step_kept blockDevice kept enabled)]
    exact Polls.step_iff blockDevice kept counts enabled
  · exact ⟨Polls.init_kept, by simp [Polls.Counts, Polls.init]⟩

theorem status_info_answered_sample :
    Guarded (Polls.step fun _ _ => true) (fun s e => (s.step (fun _ _ => true) e).Answered)
      Polls.init (Polls.threeConnections ++ [.statusInfo 3, .commandReturn 1, .commandReturn 2]) ↔
    Guarded (Polls.step fun _ _ => true) Polls.Unmixed Polls.init
      (Polls.threeConnections ++ [.statusInfo 3, .commandReturn 1, .commandReturn 2]) :=
  status_info_answered_iff (fun _ _ => true)
    (Polls.threeConnections ++ [.statusInfo 3, .commandReturn 1, .commandReturn 2])
    (by decide)

def Polls.Balanced (s : Polls) : Prop :=
  ∀ c ∈ s.connections, (s.oks.count c : Int) + (s.heap c).statusCommandRunning = (Polls.requestsOf s.asked c).length

/-- Also where requests are in each other's way, each is answered or still counted. -/
theorem requests_balanced (blockDevice : Name → Name → Bool) (events : List PollEvent)
    (enabled : Guarded (Polls.step blockDevice) Polls.Enabled Polls.init events) :
    (run (Polls.step blockDevice) Polls.init events).Balanced :=
  (run_invariant (Polls.step blockDevice) Polls.Enabled Polls.Kept
    (fun _ _ kept enabled => Polls.step_kept blockDevice kept enabled) _ events Polls.init_kept enabled).balance

theorem three_balanced : (run (Polls.step fun _ _ => true) Polls.init Polls.threeConnections).Balanced :=
  requests_balanced _ _ (by decide)

/-- A connection asks a second time before the first request is answered, which then never is. -/
theorem status_info_unanswered :
    Guarded (Polls.step fun _ _ => true) Polls.Enabled Polls.init (Polls.threeConnections ++
      [.statusInfo 3, .statusInfo 3, .commandReturn 1, .commandReturn 2, .commandReturn 1,
        .commandReturn 2]) ∧
      ¬ Guarded (Polls.step fun _ _ => true)
        (fun s e => (s.step (fun _ _ => true) e).Answered) Polls.init (Polls.threeConnections ++
          [.statusInfo 3, .statusInfo 3, .commandReturn 1, .commandReturn 2, .commandReturn 1,
            .commandReturn 2]) := by
  decide

end Rts2.Central
