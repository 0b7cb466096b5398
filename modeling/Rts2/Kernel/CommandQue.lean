import Rts2.Kernel.Reader
import Rts2.Kernel.Status
import Rts2.Lib.Run

/-! The sending half of Connection: the queue of commands, the one that runs, and its call
progress, with the ways a connection is lost and made again. -/
namespace Rts2.Kernel

open Lib

def bopWhileState : Status := 0x1000
def bopCipMask : Status := 0x6000
def cipNotCalled : Status := 0x0000
def cipWait : Status := 0x2000
def cipRun : Status := 0x4000
def cipReturn : Status := 0x6000

inductive CommandClass where
  | plain | sendKey | register | authorize | deviceStatus
  deriving DecidableEq

structure Command where
  id : Nat
  cls : CommandClass
  bopMask : Status
  originator : Option Nat
  deriving DecidableEq

/-- What a caller of queCommand and queSend makes: a command with no call progress, and with some
state to wait for when it waits for one. -/
structure Request where
  cls : CommandClass
  bopMask : Status
  originator : Option Nat
  notCalled : bopMask &&& bopCipMask = cipNotCalled
  states : bopMask &&& bopWhileState ≠ 0 → bopMask &&& Kernel.bopMask ≠ 0
  deriving DecidableEq

inductive RunningStatus where
  | waiting | send | returning
  deriving DecidableEq

inductive Connects where
  | failed | inprogress | done
  deriving DecidableEq

/-- The fields from `handling` on are read by no function. A return line is handled while its
handlers run; sockets and commands are numbered, and listed as they were written and answered. -/
structure Sender where
  connClass : ConnClass
  connState : ConnState
  sock : Option Nat
  runningCommand : Option Command
  runningCommandStatus : RunningStatus
  commandQue : List Command
  bopState : Status
  handling : Bool
  socks : Nat
  made : Nat
  unanswered : List Nat
  written : List (Nat × Nat)
  answered : List (Nat × Nat)
  requeued : List Nat
  finished : List Nat
  failed : List Nat
  discarded : List Nat

namespace Command

def getStatusCallProgress (cmd : Command) : Status := cmd.bopMask &&& bopCipMask

def setStatusCallProgress (cmd : Command) (call_progress : Status) : Command :=
  { cmd with bopMask := (cmd.bopMask &&& ~~~bopCipMask) ||| (call_progress &&& bopCipMask) }

end Command

namespace Sender

variable (c : Sender)

def getFullBopState : Status := c.bopState

def Shows (cmd : Command) : Prop := c.getFullBopState &&& cmd.bopMask &&& Kernel.bopMask ≠ 0

instance (cmd : Command) : Decidable (c.Shows cmd) := inferInstanceAs (Decidable (_ ≠ _))

def close (state : ConnState) : Sender :=
  { c with sock := none, unanswered := [], connState := state }

def failSentCommand : Sender :=
  match c.runningCommand with
  | none => c
  | some cmd =>
    if c.runningCommandStatus = .send then
      let c := { c with runningCommand := none, failed := c.failed ++ [cmd.id] }
      if cmd.cls = .register then c.close .broken else c
    else c

def connectionError : Sender :=
  match c.connClass with
  | .connection canDelete => c.close (if canDelete then .delete else .broken)
  | .devConnectionMaster =>
    if c.connState = .broken then c.close .broken else (c.close .broken).failSentCommand

/-- Command::send, a sendMsg; a write that fails drops the connection. -/
def send (cmd : Command) (ok : Bool) : Sender :=
  match c.sock with
  | none => c
  | some sock =>
    if c.connState = .inprogress then c
    else if ok then
      { c with unanswered := c.unanswered ++ [cmd.id], written := c.written ++ [(sock, cmd.id)] }
    else c.connectionError

def setRunningProgress (call_progress : Status) : Sender :=
  { c with runningCommand := c.runningCommand.map (·.setStatusCallProgress call_progress) }

def statInfoCall : Command :=
  { id := c.made, cls := .deviceStatus, bopMask := cipReturn, originator := none }

def sendCommand (ok : Bool) : Sender :=
  match c.runningCommand with
  | none => c
  | some cmd =>
    if cmd.bopMask ≠ 0 then
      if cmd.bopMask &&& bopWhileState ≠ 0 then
        if c.Shows cmd then
          if cmd.getStatusCallProgress = cipWait then { c with runningCommandStatus := .waiting }
          else
            { (c.send cmd ok).setRunningProgress cipWait with runningCommandStatus := .send }
        else c.setRunningProgress cipRun
      else if cmd.getStatusCallProgress = cipNotCalled then
        let sent := ({ c with made := c.made + 1 }.send c.statInfoCall ok).setRunningProgress cipWait
        { sent with
          commandQue := sent.runningCommand.toList ++ sent.commandQue
          runningCommand := some c.statInfoCall
          runningCommandStatus := .send }
      else if cmd.getStatusCallProgress = cipReturn then c
      else
        -- CIP_WAIT falls through to CIP_RUN
        let c := c.setRunningProgress cipRun
        if c.Shows cmd then { c with runningCommandStatus := .waiting }
        else { (c.send cmd ok).setRunningProgress cipReturn with runningCommandStatus := .send }
    else { c.send cmd ok with runningCommandStatus := .send }

def sendNextCommand (ok : Bool) : Sender :=
  match c.commandQue with
  | [] => { c with runningCommand := none }
  | cmd :: commandQue =>
    { c with runningCommand := some cmd, commandQue := commandQue }.sendCommand ok

def accept (req : Request) : Command :=
  { id := c.made, cls := req.cls, bopMask := req.bopMask, originator := req.originator }

def queCommand (req : Request) (ok : Bool) : Sender :=
  let cmd := c.accept req
  let c := { c with made := c.made + 1 }
  if c.runningCommand.isSome ∨ (c.connState ≠ .authOk ∧ c.connState ≠ .connected) then
    { c with commandQue := c.commandQue ++ [cmd] }
  else { c with runningCommand := some cmd }.sendCommand ok

def queSend (req : Request) (ok : Bool) : Sender :=
  let cmd := c.accept req
  let c := { c with made := c.made + 1 }
  if c.connState = .connecting ∨ c.connState = .inprogress ∨ c.connState = .unknow then
    { c with commandQue := cmd :: c.commandQue }
  else
    match c.runningCommand with
    | none => { c with runningCommand := some cmd }.sendCommand ok
    | some running =>
      if c.runningCommandStatus = .send ∨ c.runningCommandStatus = .returning then
        { c with commandQue := cmd :: c.commandQue }
      else
        { c with
          commandQue := running :: c.commandQue
          runningCommand := some cmd }.sendCommand ok

def queEmpty : Bool :=
  if c.runningCommandStatus ≠ .returning ∧ c.runningCommand.isSome then false
  else c.commandQue.isEmpty

def queEmptyForOriginator (testOriginator : Option Nat) : Bool :=
  if c.runningCommandStatus ≠ .returning ∧ c.runningCommand.any (·.originator = testOriginator) then
    false
  else !c.commandQue.any (·.originator = testOriginator)

/-- Called with `running` false only. -/
def queClear : Sender :=
  let dropped := if c.runningCommandStatus = .send then none else c.runningCommand
  { c with
    runningCommand := if c.runningCommandStatus = .send then c.runningCommand else none
    commandQue := []
    discarded := c.discarded ++ (dropped.toList ++ c.commandQue).map Command.id }

/-- A return line is read. What runs between this and `returned` are its handlers. -/
def commandReturn : Sender :=
  match c.runningCommand with
  | none => { c with unanswered := c.unanswered.tail }
  | some cmd =>
    { c with
      runningCommandStatus := .returning
      handling := true
      unanswered := c.unanswered.tail
      answered := c.answered ++ (c.sock.map (·, cmd.id)).toList }

def returned (reque : Bool) (ok : Bool) : Sender :=
  let ids := c.runningCommand.toList.map Command.id
  if reque then
    { c with handling := false, requeued := c.requeued ++ ids }.sendCommand ok
  else { c with handling := false, finished := c.finished ++ ids }.sendNextCommand ok

def setConnState (new_conn_state : ConnState) (ok : Bool) : Sender :=
  let c :=
    if (new_conn_state = .authOk ∨ new_conn_state = .connected) ∧ c.runningCommand = none then
      c.sendNextCommand ok
    else c
  let c := { c with connState := new_conn_state }
  if new_conn_state = .authFailed then c.connectionError else c

def setBopState (in_value : Status) (ok : Bool) : Sender :=
  let c := { c with bopState := in_value }
  if c.runningCommand.any (·.getStatusCallProgress = cipRun) then c.sendCommand ok else c

def masterStateChanged (ok : Bool) : Sender :=
  if c.runningCommand.any (·.getStatusCallProgress = cipRun) then c.sendCommand ok else c

def commandRegister : Request :=
  { cls := .register, bopMask := 0, originator := none
    notCalled := by decide, states := by decide }

def connConnected (ok : Bool) : Sender :=
  match c.connClass with
  | .connection _ => { c with connState := .authPending }
  | .devConnectionMaster =>
    ({ c with connState := .authPending }.failSentCommand).queSend commandRegister ok

def init (connects : Connects) (ok : Bool) : Sender :=
  let opened := { c with sock := some c.socks, socks := c.socks + 1 }
  match connects with
  | .inprogress => { opened with connState := .inprogress }
  | .done => opened.connConnected ok
  | .failed =>
    match c.connClass with
    | .connection _ => c
    | .devConnectionMaster => c.connectionError

/-- reconnectSocket before it connects: the auth of the old socket is deleted, any other command
goes again. -/
def leaveSocket : Sender :=
  let key := c.runningCommand.toList.filter fun cmd : Command => cmd.cls = .sendKey
  let other := c.runningCommand.toList.filter fun cmd : Command => cmd.cls ≠ .sendKey
  { c with
    sock := none
    unanswered := []
    runningCommand := none
    commandQue := other ++ c.commandQue
    connState := .connecting
    discarded := c.discarded ++ key.map Command.id }

def reconnectSocket (connects : Connects) (ok : Bool) : Sender :=
  match connects with
  | .failed => c.leaveSocket.connectionError
  | .inprogress | .done => c.leaveSocket.init connects ok

def deleteConnection (conn : Nat) : Sender :=
  let forget (cmd : Command) : Command :=
    { cmd with originator := if cmd.originator = some conn then none else cmd.originator }
  { c with
    runningCommand := c.runningCommand.map forget
    commandQue := c.commandQue.map forget }

end Sender

inductive QueEvent where
  | queCommand (req : Request) (ok : Bool)
  | queSend (req : Request) (ok : Bool)
  | queClear
  | commandReturn
  | returned (reque ok : Bool)
  | setBopState (in_value : Status) (ok : Bool)
  | masterStateChanged (ok : Bool)
  | setConnState (new_conn_state : ConnState) (ok : Bool)
  | connectionError
  | init (connects : Connects) (ok : Bool)
  | connConnected (ok : Bool)
  | reconnectSocket (connects : Connects) (ok : Bool)
  | deleteConnection (conn : Nat)

namespace Sender

variable (c : Sender)

def step (c : Sender) : QueEvent → Sender
  | .queCommand req ok => c.queCommand req ok
  | .queSend req ok => c.queSend req ok
  | .queClear => c.queClear
  | .commandReturn => c.commandReturn
  | .returned reque ok => c.returned reque ok
  | .setBopState in_value ok => c.setBopState in_value ok
  | .masterStateChanged ok => c.masterStateChanged ok
  | .setConnState new_conn_state ok => c.setConnState new_conn_state ok
  | .connectionError => c.connectionError
  | .init connects ok => c.init connects ok
  | .connConnected ok => c.connConnected ok
  | .reconnectSocket connects ok => c.reconnectSocket connects ok
  | .deleteConnection conn => c.deleteConnection conn

def Cold (state : ConnState) : Prop :=
  state = .unknow ∨ state = .resolvingDevice ∨ state = .connecting ∨ state = .inprogress

instance : DecidablePred Cold := fun _ => inferInstanceAs (Decidable (_ ∨ _))

/-- When the program makes these calls. The peer answers what was written, only a command without
a mask returns RTS2_COMMAND_REQUE, and a socket is opened where none is. -/
def Enabled : QueEvent → Prop
  | .queCommand .. | .setBopState .. | .masterStateChanged _ | .connectionError
  | .deleteConnection _ => True
  | .queSend .. => c.connClass = .devConnectionMaster ∨ c.sock.isSome ∨ c.connState = .unknow ∨
      c.connState = .connecting
  | .queClear => c.handling = false
  | .commandReturn => c.handling = false ∧ c.unanswered ≠ []
  | .returned reque _ => c.handling = true ∧
      (reque = true → c.runningCommand.all (·.bopMask = 0) = true)
  | .setConnState state _ => c.sock.isSome ∧ c.connState ≠ .inprogress ∧ ¬ Cold state ∧
      state ≠ .broken
  | .init .. => c.handling = false ∧ c.sock = none ∧
      match c.connClass with
      | .connection _ => Cold c.connState
      | .devConnectionMaster => c.connState = .broken
  | .connConnected _ => c.handling = false ∧ c.sock.isSome ∧ c.connState = .inprogress
  | .reconnectSocket .. => c.handling = false ∧ c.connState = .authPending ∧
      c.connClass ≠ .devConnectionMaster

instance : DecidablePred c.Enabled
  | .queCommand .. | .setBopState .. | .masterStateChanged _ | .connectionError
  | .deleteConnection _ => isTrue trivial
  | .queSend .. => inferInstanceAs (Decidable (_ ∨ _))
  | .queClear => inferInstanceAs (Decidable (_ = _))
  | .commandReturn | .returned _ _ | .setConnState _ _ | .connConnected _ | .reconnectSocket _ _ =>
    inferInstanceAs (Decidable (_ ∧ _))
  | .init _ _ =>
    match h : c.connClass with
    | .connection _ => decidable_of_iff (c.handling = false ∧ c.sock = none ∧ Cold c.connState)
        (by simp [Enabled, h])
    | .devConnectionMaster => decidable_of_iff
        (c.handling = false ∧ c.sock = none ∧ c.connState = .broken) (by simp [Enabled, h])

def fresh (connClass : ConnClass) (connState : ConnState) (sock : Bool) (bopState : Status) :
    Sender where
  connClass := connClass
  connState := connState
  sock := if sock then some 0 else none
  runningCommand := none
  runningCommandStatus := .returning
  commandQue := []
  bopState := bopState
  handling := false
  socks := if sock then 1 else 0
  made := 0
  unanswered := []
  written := []
  answered := []
  requeued := []
  finished := []
  failed := []
  discarded := []

def Constructed : ConnClass → ConnState → Bool → Prop
  | .connection _, connState, true => connState = .connected ∨ connState = .unknow
  | .connection _, connState, false => Cold connState ∧ connState ≠ .inprogress
  | .devConnectionMaster, connState, sock => connState = .broken ∧ sock = false

end Sender

namespace Command

def WhileState (cmd : Command) : Prop := cmd.bopMask &&& bopWhileState ≠ 0

instance (cmd : Command) : Decidable cmd.WhileState := inferInstanceAs (Decidable (_ ≠ _))

def Sendable (cmd : Command) : Prop :=
  if cmd.WhileState then
    cmd.bopMask &&& Kernel.bopMask ≠ 0 ∧ cmd.getStatusCallProgress ≠ cipWait
  else cmd.getStatusCallProgress ≠ cipReturn

instance (cmd : Command) : Decidable cmd.Sendable :=
  inferInstanceAs (Decidable (if cmd.WhileState then _ ∧ _ else _ ≠ _))

variable (cmd : Command)

theorem set_and (cmd : Command) (p m : Status) : (cmd.setStatusCallProgress p).bopMask &&& m =
    (cmd.bopMask &&& (~~~bopCipMask &&& m)) ||| (p &&& (bopCipMask &&& m)) := by
  ext i inside
  simp only [setStatusCallProgress, BitVec.getElem_and, BitVec.getElem_or]
  grind

@[simp] theorem set_id (p : Status) : (cmd.setStatusCallProgress p).id = cmd.id := rfl

@[simp] theorem set_cls (p : Status) : (cmd.setStatusCallProgress p).cls = cmd.cls := rfl

@[simp] theorem set_originator (p : Status) :
    (cmd.setStatusCallProgress p).originator = cmd.originator := rfl

theorem set_progress (p : Status) :
    (cmd.setStatusCallProgress p).getStatusCallProgress = p &&& bopCipMask := by
  have cleared : ~~~bopCipMask &&& bopCipMask = 0 := by decide
  have kept : bopCipMask &&& bopCipMask = bopCipMask := by decide
  rw [getStatusCallProgress, set_and, cleared, kept]
  simp

theorem set_whileState (p : Status) : (cmd.setStatusCallProgress p).WhileState ↔ cmd.WhileState := by
  have kept : ~~~bopCipMask &&& bopWhileState = bopWhileState := by decide
  have apart : bopCipMask &&& bopWhileState = 0 := by decide
  rw [WhileState, WhileState, set_and, kept, apart]
  simp

theorem set_states (p : Status) :
    (cmd.setStatusCallProgress p).bopMask &&& Kernel.bopMask = cmd.bopMask &&& Kernel.bopMask := by
  have kept : ~~~bopCipMask &&& Kernel.bopMask = Kernel.bopMask := by decide
  have apart : bopCipMask &&& Kernel.bopMask = 0 := by decide
  rw [set_and, kept, apart]
  simp

def queuedMask (cmd : Command) : Status := cmd.bopMask &&& ~~~bopCipMask

@[simp] theorem set_queuedMask (p : Status) :
    (cmd.setStatusCallProgress p).queuedMask = cmd.queuedMask := by
  have kept : ~~~bopCipMask &&& ~~~bopCipMask = ~~~bopCipMask := by decide
  have apart : bopCipMask &&& ~~~bopCipMask = 0 := by decide
  rw [queuedMask, set_and, kept, apart]
  simp [queuedMask]

theorem set_set (p q : Status) :
    (cmd.setStatusCallProgress p).setStatusCallProgress q = cmd.setStatusCallProgress q := by
  have cleared : (cmd.setStatusCallProgress p).bopMask &&& ~~~bopCipMask =
      cmd.bopMask &&& ~~~bopCipMask := cmd.set_queuedMask p
  rw [setStatusCallProgress, cleared]
  rfl

theorem unmasked_progress {cmd : Command} (unmasked : cmd.bopMask = 0) :
    cmd.getStatusCallProgress = cipNotCalled := by
  rw [getStatusCallProgress, unmasked]
  decide

theorem unmasked_whileState {cmd : Command} (unmasked : cmd.bopMask = 0) : ¬ cmd.WhileState := by
  rw [WhileState, unmasked]
  decide

theorem unmasked_sendable {cmd : Command} (unmasked : cmd.bopMask = 0) : cmd.Sendable := by
  rw [Sendable, if_neg (unmasked_whileState unmasked), unmasked_progress unmasked]
  decide

theorem set_sendable {p : Status} (sendable : cmd.Sendable)
    (waits : cmd.WhileState → p &&& bopCipMask ≠ cipWait)
    (returns : ¬ cmd.WhileState → p &&& bopCipMask ≠ cipReturn) :
    (cmd.setStatusCallProgress p).Sendable := by
  unfold Sendable at sendable ⊢
  rw [set_progress]
  by_cases whileState : cmd.WhileState
  · rw [if_pos ((set_whileState cmd p).mpr whileState), set_states]
    rw [if_pos whileState] at sendable
    exact ⟨sendable.1, waits whileState⟩
  · rw [if_neg (fun w => whileState ((set_whileState cmd p).mp w))]
    exact returns whileState

end Command

namespace Sender

variable {c s : Sender} {cmd : Command} {ok : Bool}

theorem accept_sendable (req : Request) : (c.accept req).Sendable := by
  unfold Command.Sendable
  have progress : (c.accept req).getStatusCallProgress = cipNotCalled := req.notCalled
  rw [progress]
  split
  · rename_i whileState
    exact ⟨req.states whileState, by decide⟩
  · decide

theorem shows_set (p : Status) : c.Shows (cmd.setStatusCallProgress p) ↔ c.Shows cmd := by
  unfold Shows
  rw [BitVec.and_assoc, BitVec.and_assoc, Command.set_states]

def Held (c : Sender) (cmd : Command) : Prop :=
  cmd.getStatusCallProgress = cipRun ∧ cmd.Sendable ∧ (cmd.WhileState ↔ ¬ c.Shows cmd)

def Down (c : Sender) : Prop := c.sock = none ∨ c.connState = .inprogress

/-- The connection after a write that was skipped, or that failed and dropped it. -/
inductive Fell (c : Sender) (ok : Bool) : Sender → Prop where
  | skipped (down : c.Down) : Fell c ok c
  | dropped (fails : ok = false) (state : ConnState) (closed : state = .delete ∨ state = .broken) :
      Fell c ok (c.close state)

/-- A connection that sends the command, or the status_info the command waits for. -/
inductive Runs (c : Sender) (cmd : Command) : Sender → Command → Prop where
  | same (r : Command) (id : r.id = cmd.id) (originator : r.originator = cmd.originator)
      (cls : r.cls = cmd.cls) (progress : r.getStatusCallProgress ≠ cipRun)
      (shows_ : cmd.WhileState → c.Shows cmd) (mask : r.queuedMask = cmd.queuedMask)
      (hidden : cmd.bopMask ≠ 0 → ¬ cmd.WhileState →
        cmd.getStatusCallProgress ≠ cipNotCalled ∧ ¬ c.Shows cmd) :
      Runs c cmd { c with runningCommand := some r } r
  | asks (masked : cmd.bopMask ≠ 0) (plain : ¬ cmd.WhileState)
      (uncalled : cmd.getStatusCallProgress = cipNotCalled) : Runs c cmd
      { c with
        made := c.made + 1
        runningCommand := some c.statInfoCall
        commandQue := cmd.setStatusCallProgress cipWait :: c.commandQue } c.statInfoCall

/-- What sendCommand does with the running command. The last two cases are writes that fail on a
link to centrald which finds a command waiting for its reply. -/
inductive Ran (c : Sender) (cmd : Command) (ok : Bool) : Sender → Prop where
  | stuck (status : RunningStatus) (never : ¬ cmd.Sendable) :
      Ran c cmd ok { c with runningCommandStatus := status }
  | held (status : RunningStatus) (held : cmd.Sendable → c.Held (cmd.setStatusCallProgress cipRun))
      (same : status = if cmd.WhileState then c.runningCommandStatus else .waiting)
      (called : ¬ cmd.WhileState → cmd.getStatusCallProgress ≠ cipNotCalled) : Ran c cmd ok
      { c with
        runningCommand := some (cmd.setStatusCallProgress cipRun)
        runningCommandStatus := status }
  | written (s : Sender) (r : Command) (sock : Nat) (runs : Runs c cmd s r)
      (opened : c.sock = some sock) (up : c.connState ≠ .inprogress) (wrote : ok = true) :
      Ran c cmd ok
      { s with
        runningCommandStatus := .send
        unanswered := c.unanswered ++ [r.id]
        written := c.written ++ [(sock, r.id)] }
  | lost (s t : Sender) (r : Command) (runs : Runs c cmd s r) (fell : Fell s ok t) :
      Ran c cmd ok { t with runningCommandStatus := .send }
  | failed (fails : ok = false) : Ran c cmd ok
      { c.close .broken with
        runningCommand := none
        runningCommandStatus := .send
        failed := c.failed ++ [cmd.id] }
  | askFailed (fails : ok = false) : Ran c cmd ok
      { c.close .broken with
        made := c.made + 1
        runningCommand := some c.statInfoCall
        runningCommandStatus := .send
        failed := c.failed ++ [cmd.id] }

theorem runs_upright {r : Command} (runs : c.Runs cmd s r) (link : c.sock.isSome)
    (up : c.connState ≠ .inprogress) (t : Sender) : ¬ Fell s true t := by
  have same : s.sock = c.sock ∧ s.connState = c.connState := by cases runs <;> exact ⟨rfl, rfl⟩
  intro fell
  cases fell with
  | skipped down =>
    rcases down with closed | connecting
    · simp [same.1 ▸ closed] at link
    · exact up (same.2 ▸ connecting)
  | dropped fails => contradiction

theorem connectionError_cases (c : Sender) : (∃ state, (state = .delete ∨ state = .broken) ∧
      c.connectionError = c.close state) ∨
    ∃ cmd, c.runningCommand = some cmd ∧ c.runningCommandStatus = .send ∧
      c.connectionError =
        { c.close .broken with runningCommand := none, failed := c.failed ++ [cmd.id] } := by
  unfold connectionError
  cases c.connClass with
  | connection canDelete =>
    left
    cases canDelete with
    | false => exact ⟨.broken, .inr rfl, rfl⟩
    | true => exact ⟨.delete, .inl rfl, rfl⟩
  | devConnectionMaster =>
    dsimp only
    split
    · exact .inl ⟨.broken, .inr rfl, rfl⟩
    · cases running : c.runningCommand with
      | none => exact .inl ⟨.broken, .inr rfl, by simp [failSentCommand, close, running]⟩
      | some cmd =>
        by_cases sent : c.runningCommandStatus = .send
        · refine .inr ⟨cmd, rfl, sent, ?_⟩
          by_cases register : cmd.cls = .register <;>
            simp [failSentCommand, close, running, sent, register]
        · exact .inl ⟨.broken, .inr rfl, by simp [failSentCommand, close, running, sent]⟩

theorem send_cases (c : Sender) (cmd : Command) (ok : Bool) : Fell c ok (c.send cmd ok) ∨
    (∃ sock, c.sock = some sock ∧ c.connState ≠ .inprogress ∧ ok = true ∧ c.send cmd ok =
      { c with
        unanswered := c.unanswered ++ [cmd.id]
        written := c.written ++ [(sock, cmd.id)] }) ∨
    ∃ running, c.runningCommand = some running ∧ ok = false ∧ c.send cmd ok =
      { c.close .broken with runningCommand := none, failed := c.failed ++ [running.id] } := by
  unfold send
  cases opened : c.sock with
  | none => exact .inl (.skipped (.inl opened))
  | some sock =>
    dsimp only
    split
    · rename_i connecting
      exact .inl (.skipped (.inr connecting))
    · rename_i up
      cases ok with
      | true => exact .inr (.inl ⟨sock, rfl, up, rfl, rfl⟩)
      | false =>
        rw [if_neg (by decide)]
        obtain ⟨state, closed, same⟩ | ⟨running, runs, _, same⟩ := c.connectionError_cases
        · exact .inl (same ▸ .dropped rfl state closed)
        · exact .inr (.inr ⟨running, runs, rfl, same⟩)

theorem sent_ran (c : Sender) {cmd r : Command} (ok : Bool) (mark : Command → Command)
    (id : r.id = cmd.id) (number : (mark r).id = cmd.id)
    (runs : Runs c cmd { c with runningCommand := some (mark r) } (mark r)) : Ran c cmd ok
      { { c with runningCommand := some r }.send cmd ok with
        runningCommand := ({ c with runningCommand := some r }.send cmd ok).runningCommand.map mark
        runningCommandStatus := .send } := by
  obtain fell | ⟨sock, opened, up, wrote, same⟩ | ⟨running, runs', fails, same⟩ :=
    send_cases { c with runningCommand := some r } cmd ok
  · generalize sent : { c with runningCommand := some r }.send cmd ok = t at fell
    cases fell with
    | skipped down => exact .lost _ _ _ runs (.skipped down)
    | dropped fails state closed => exact .lost _ _ _ runs (.dropped fails state closed)
  · rw [same]
    rw [← number]
    exact .written _ _ sock runs opened up wrote
  · rw [same]
    obtain rfl := Option.some.inj runs'
    rw [id]
    exact .failed fails

theorem asked_ran (c : Sender) {cmd : Command} (running : c.runningCommand = some cmd) (ok : Bool)
    (masked : cmd.bopMask ≠ 0) (plain : ¬ cmd.WhileState)
    (uncalled : cmd.getStatusCallProgress = cipNotCalled) : Ran c cmd ok
      (let sent := ({ c with made := c.made + 1 }.send c.statInfoCall ok).setRunningProgress cipWait
      { sent with
        commandQue := sent.runningCommand.toList ++ sent.commandQue
        runningCommand := some c.statInfoCall
        runningCommandStatus := .send }) := by
  have runs := Runs.asks (c := c) masked plain uncalled
  obtain fell | ⟨sock, opened, up, wrote, same⟩ | ⟨running', runs', fails, same⟩ :=
    send_cases { c with made := c.made + 1 } c.statInfoCall ok
  · generalize { c with made := c.made + 1 }.send c.statInfoCall ok = t at fell
    cases fell with
    | skipped down =>
      have lost : Ran c cmd ok _ := .lost _ _ _ runs (.skipped down)
      simpa [setRunningProgress, running] using lost
    | dropped fails state closed =>
      have lost : Ran c cmd ok _ := .lost _ _ _ runs (.dropped fails state closed)
      simpa [setRunningProgress, running, close] using lost
  · rw [same]
    have written := Ran.written _ _ sock runs opened up wrote
    simpa [setRunningProgress, running] using written
  · rw [same]
    obtain rfl := Option.some.inj (running.symm.trans runs')
    have failed : Ran c cmd ok _ := .askFailed fails
    simpa [setRunningProgress, close] using failed

theorem sendCommand_ran {c : Sender} (running : c.runningCommand = some cmd) (ok : Bool) :
    Ran c cmd ok (c.sendCommand ok) := by
  have self : { c with runningCommand := some cmd } = c := by rw [← running]
  have advanced (p : Status) : c.setRunningProgress p =
      { c with runningCommand := some (cmd.setStatusCallProgress p) } := by
    simp [setRunningProgress, running]
  unfold sendCommand
  split
  · rename_i idle
    simp [running] at idle
  rename_i running' runs'
  obtain rfl := Option.some.inj (running.symm.trans runs')
  split
  · rename_i masked
    have marked (p : Status) (other : p &&& bopCipMask ≠ cipRun)
        (shows_ : cmd.WhileState → c.Shows cmd)
        (hidden : ¬ cmd.WhileState → cmd.getStatusCallProgress ≠ cipNotCalled ∧ ¬ c.Shows cmd) :
        Runs c cmd { c with runningCommand := some (cmd.setStatusCallProgress p) }
          (cmd.setStatusCallProgress p) :=
      .same _ rfl rfl rfl (by rwa [Command.set_progress]) shows_ (cmd.set_queuedMask p)
        fun _ => hidden
    split
    · rename_i whileState
      have whileState : cmd.WhileState := whileState
      split
      · rename_i shows_
        split
        · rename_i waits
          refine .stuck .waiting ?_
          rw [Command.Sendable, if_pos whileState]
          exact fun sendable => sendable.2 waits
        · have ran := sent_ran c ok (·.setStatusCallProgress cipWait) rfl rfl
            (marked cipWait (by decide) (fun _ => shows_) (absurd whileState))
          rw [self] at ran
          exact ran
      · rename_i hidden
        rw [advanced]
        refine .held c.runningCommandStatus (fun sendable => ⟨?_, ?_, ?_⟩)
          (if_pos whileState).symm (absurd whileState)
        · rw [Command.set_progress]
          decide
        · exact cmd.set_sendable sendable (fun _ => by decide) (fun _ => by decide)
        · rw [Command.set_whileState, shows_set]
          exact iff_of_true whileState hidden
    · rename_i plain
      have plain : ¬ cmd.WhileState := plain
      split
      · rename_i uncalled
        exact asked_ran c running ok masked plain uncalled
      · rename_i called
        split
        · rename_i returns
          refine .stuck c.runningCommandStatus ?_
          rw [Command.Sendable, if_neg plain]
          exact fun sendable => sendable returns
        · rw [advanced]
          dsimp only
          split
          · rename_i shows
            refine .held .waiting (fun sendable => ⟨?_, ?_, ?_⟩) (if_neg plain).symm fun _ => called
            · rw [Command.set_progress]
              decide
            · exact cmd.set_sendable sendable (fun _ => by decide) (fun _ => by decide)
            · rw [Command.set_whileState, shows_set]
              exact iff_of_false plain (not_not.mpr shows)
          · rename_i hidden
            exact sent_ran c (r := cmd.setStatusCallProgress cipRun) ok
              (·.setStatusCallProgress cipReturn) rfl rfl (by
                have same := marked cipReturn (by decide) (fun whileState => absurd whileState plain)
                  fun _ => ⟨called, fun shows_ => hidden shows_⟩
                rwa [← cmd.set_set cipRun cipReturn] at same)
  · rename_i unmasked
    have runs : Runs c cmd { c with runningCommand := some cmd } cmd := by
      have never := Command.unmasked_whileState (not_not.mp unmasked)
      refine .same cmd rfl rfl rfl ?_ (fun whileState => absurd whileState never) rfl
        fun masked => absurd (not_not.mp unmasked) masked
      rw [Command.unmasked_progress (not_not.mp unmasked)]
      decide
    have ran := sent_ran c ok id rfl rfl runs
    rw [self, Option.map_id] at ran
    exact ran

end Sender

end Rts2.Kernel
