import Rts2.Kernel.CommandReplies

/-! The queue is worked off: a command that runs and is not out is held until its state shows, and
every command on the queue can be sent. -/
namespace Rts2.Kernel

open Lib

namespace Sender

variable {c s : Sender} {cmd : Command} {ok : Bool}

/-- The queue is worked off: the running command is out, held, or was sent to a link that is down;
the others can be sent. -/
structure Waits (c : Sender) : Prop where
  running : ∀ cmd, c.runningCommand = some cmd → c.handling = false → c.unanswered = [] →
    c.runningCommandStatus = .send ∧ c.Down ∧ cmd.getStatusCallProgress ≠ cipRun ∨ c.Held cmd
  queued : ∀ cmd ∈ c.commandQue, cmd.Sendable

structure Flows (c : Sender) : Prop extends c.Waits where
  cold : c.connClass ≠ .devConnectionMaster → Cold c.connState → c.runningCommand = none
  idle : c.runningCommand = none → c.connState = .authOk ∨ c.connState = .connected →
    c.sock.isSome → c.commandQue = []
  resolved : c.sock.isSome → c.connState ≠ .resolvingDevice ∧ c.connState ≠ .connecting

structure Leaves (c s : Sender) : Prop extends s.Waits where
  state : s.connState = c.connState ∨ s.connState = .delete ∨ s.connState = .broken
  connClass : s.connClass = c.connClass
  sock : s.sock = c.sock ∨ s.sock = none
  idle : s.runningCommand = none → s.sock = none

def Again (c : Sender) : QueEvent → Prop
  | .reconnectSocket .. => ∀ cmd ∈ c.runningCommand, cmd.cls = .sendKey ∨ cmd.Sendable
  | .queCommand .. | .queSend .. | .queClear | .commandReturn | .returned .. | .setBopState ..
  | .masterStateChanged _ | .setConnState .. | .connectionError | .init .. | .connConnected _
  | .deleteConnection _ => True

instance (c : Sender) : DecidablePred c.Again
  | .reconnectSocket .. => inferInstanceAs (Decidable (∀ cmd ∈ _, _))
  | .queCommand .. | .queSend .. | .queClear | .commandReturn | .returned .. | .setBopState ..
  | .masterStateChanged _ | .setConnState .. | .connectionError | .init .. | .connConnected _
  | .deleteConnection _ => isTrue trivial

theorem ask_sendable {cmd : Command} (plain : ¬ cmd.WhileState) :
    (cmd.setStatusCallProgress cipWait).Sendable := by
  rw [Command.Sendable, if_neg (fun w => plain ((cmd.set_whileState cipWait).mp w)),
    Command.set_progress]
  decide

theorem runs_progress {r : Command} (runs : c.Runs cmd s r) : s.runningCommand = some r ∧
    r.getStatusCallProgress ≠ cipRun := by
  cases runs with
  | same r id originator cls progress => exact ⟨rfl, progress⟩
  | asks => exact ⟨rfl, statInfoCall_progress c⟩

theorem ran_leaves (sendable : cmd.Sendable)
    (queued : ∀ cmd ∈ c.commandQue, cmd.Sendable) (ran : c.Ran cmd ok s) : Leaves c s := by
  have asked (plain : ¬ cmd.WhileState) :
      ∀ q ∈ cmd.setStatusCallProgress cipWait :: c.commandQue, q.Sendable := by
    intro q listed
    rcases List.mem_cons.mp listed with rfl | listed
    · exact ask_sendable plain
    · exact queued q listed
  cases ran with
  | stuck status never => exact absurd sendable never
  | held status held same =>
    refine ⟨⟨?_, queued⟩, .inl rfl, rfl, .inl rfl, by simp⟩
    intro other running _ _
    obtain rfl := Option.some.inj running
    exact .inr (held sendable)
  | written s r sock runs opened up wrote =>
    have out (xs : List Nat) : c.unanswered ++ [r.id] ≠ [] := by simp
    cases runs with
    | same r id originator cls progress =>
      refine ⟨⟨fun _ _ _ none => ?_, queued⟩, .inl rfl, rfl, .inl rfl, by simp⟩
      exact absurd none (out [])
    | asks masked plain =>
      refine ⟨⟨fun _ _ _ none => ?_, asked plain⟩, .inl rfl, rfl, .inl rfl, by simp⟩
      exact absurd none (out [])
  | lost s t r runs fell =>
    obtain ⟨running, progress⟩ := runs_progress runs
    have listed : ∀ q ∈ s.commandQue, q.Sendable := by
      cases runs with
      | same => exact queued
      | asks masked plain => exact asked plain
    have same : s.connState = c.connState ∧ s.connClass = c.connClass ∧ s.sock = c.sock := by
      cases runs <;> exact ⟨rfl, rfl, rfl⟩
    have sent (down : Down s) (other : Command) (runs : s.runningCommand = some other) :
        other.getStatusCallProgress ≠ cipRun :=
      Option.some.inj (running.symm.trans runs) ▸ progress
    cases fell with
    | skipped down =>
      exact ⟨⟨fun other runs _ _ => .inl ⟨rfl, down, sent down other runs⟩, listed⟩,
        .inl same.1, same.2.1, .inl same.2.2, by simp [running]⟩
    | dropped fails state closed =>
      refine ⟨⟨fun other runs _ _ => .inl ⟨rfl, .inl rfl, ?_⟩, listed⟩, .inr closed, same.2.1,
        .inr rfl, fun _ => rfl⟩
      exact Option.some.inj (running.symm.trans runs) ▸ progress
  | failed =>
    exact ⟨⟨by simp, queued⟩, .inr (.inr rfl), rfl, .inr rfl, fun _ => rfl⟩
  | askFailed =>
    refine ⟨⟨fun other runs _ _ => .inl ⟨rfl, .inl rfl, ?_⟩, queued⟩, .inr (.inr rfl), rfl,
      .inr rfl, fun _ => rfl⟩
    exact Option.some.inj runs ▸ statInfoCall_progress c

theorem sendCommand_leaves (ok : Bool) (running : c.runningCommand = some cmd) (sendable : cmd.Sendable)
    (queued : ∀ cmd ∈ c.commandQue, cmd.Sendable) : Leaves c (c.sendCommand ok) :=
  ran_leaves sendable queued (sendCommand_ran running ok)

theorem hot_of_state {state : ConnState} (moved : s.connState = state ∨ s.connState = .delete ∨
    s.connState = .broken) (hot : ¬ Cold state) : ¬ Cold s.connState := by
  rcases moved with same | closed | closed
  · rwa [same]
  · rw [closed]
    decide
  · rw [closed]
    decide

theorem Leaves.flows (leaves : Leaves c s)
    (hot : c.connClass = .devConnectionMaster ∨ ¬ Cold c.connState)
    (opened : c.sock.isSome → c.connState ≠ .resolvingDevice ∧ c.connState ≠ .connecting) :
    s.Flows := by
  refine ⟨leaves.toWaits, fun other cold => ?_, fun idle _ isOpen => ?_, fun isOpen => ?_⟩
  · rcases hot with master | hot
    · exact absurd (leaves.connClass.trans master) other
    · exact absurd cold (hot_of_state leaves.state hot)
  · simp [leaves.idle idle] at isOpen
  · have sock : s.sock = c.sock := by
      rcases leaves.sock with same | closed
      · exact same
      · simp [closed] at isOpen
    rcases leaves.state with same | closed | closed
    · rw [same]
      exact opened (sock ▸ isOpen)
    · simp [closed]
    · simp [closed]

theorem Flows.hot (flows : c.Flows) (running : c.runningCommand ≠ none) :
    c.connClass = .devConnectionMaster ∨ ¬ Cold c.connState := by
  by_cases master : c.connClass = .devConnectionMaster
  · exact .inl master
  · exact .inr fun cold => running (flows.cold master cold)

theorem sendNextCommand_waits (ok : Bool) (queued : ∀ cmd ∈ c.commandQue, cmd.Sendable) :
    (c.sendNextCommand ok).runningCommand = none ∧ (c.sendNextCommand ok).commandQue = [] ∧
        c.sendNextCommand ok = { c with runningCommand := none } ∨
      Leaves c (c.sendNextCommand ok) := by
  unfold sendNextCommand
  split
  · rename_i queue
    exact .inl ⟨rfl, queue, rfl⟩
  · rename_i cmd rest queue
    rw [queue] at queued
    have leaves := sendCommand_leaves ok (c := { c with
      runningCommand := some cmd
      commandQue := rest }) rfl (queued cmd List.mem_cons_self)
      (fun q listed => queued q (List.mem_cons_of_mem cmd listed))
    exact .inr ⟨leaves.toWaits, leaves.state, leaves.connClass, leaves.sock, leaves.idle⟩

theorem queCommand_flows (flows : c.Flows) (req : Request) (ok : Bool) :
    (c.queCommand req ok).Flows := by
  unfold queCommand
  dsimp only
  split
  · rename_i waits
    refine ⟨⟨flows.running, ?_⟩, flows.cold, fun idle ready => ?_, flows.resolved⟩
    · intro q listed
      rcases List.mem_append.mp listed with before | now
      · exact flows.queued q before
      · rw [List.mem_singleton.mp now]
        exact accept_sendable req
    · rcases waits with running | ⟨unauthorized, unconnected⟩
      · rw [idle] at running
        contradiction
      · rcases ready with ready | ready
        · exact absurd ready unauthorized
        · exact absurd ready unconnected
  · rename_i free
    have ready : c.connState = .authOk ∨ c.connState = .connected := by
      by_contra other
      rw [not_or] at other
      exact free (.inr other)
    refine Leaves.flows (sendCommand_leaves ok rfl (accept_sendable req) flows.queued) (.inr ?_)
      flows.resolved
    rcases ready with ready | ready
    · simp [ready, Cold]
    · simp [ready, Cold]

theorem queSend_flows (single : c.Single) (flows : c.Flows) (req : Request) (ok : Bool)
    (enabled : c.Enabled (.queSend req ok)) : (c.queSend req ok).Flows := by
  have pushed (idle : c.runningCommand = none → c.connState ≠ .authOk ∧ c.connState ≠ .connected) :
      Flows { c with made := c.made + 1, commandQue := c.accept req :: c.commandQue } := by
    refine ⟨⟨flows.running, ?_⟩, flows.cold, fun none ready => ?_, flows.resolved⟩
    · intro q listed
      rcases List.mem_cons.mp listed with rfl | listed
      · exact accept_sendable req
      · exact flows.queued q listed
    · rcases ready with ready | ready
      · exact absurd ready (idle none).1
      · exact absurd ready (idle none).2
  unfold queSend
  dsimp only
  split
  · rename_i connecting
    refine pushed fun _ => ?_
    rcases connecting with state | state | state <;> simp [state]
  · rename_i up
    simp only [not_or] at up
    have hot : c.connClass = .devConnectionMaster ∨ ¬ Cold c.connState := by
      rcases enabled with master | opened | unknow | connecting
      · exact .inl master
      · right
        rintro (state | state | state | state)
        · exact up.2.2 state
        · exact (flows.resolved opened).1 state
        · exact up.1 state
        · exact up.2.1 state
      · exact absurd unknow up.2.2
      · exact absurd connecting up.1
    split
    · exact Leaves.flows (sendCommand_leaves ok rfl (accept_sendable req) flows.queued) hot flows.resolved
    · rename_i running runs
      split
      · exact pushed fun none => by simp [runs] at none
      · rename_i displaced
        have waits : c.runningCommandStatus = .waiting := waiting_of_displaced displaced
        obtain ⟨answered, free⟩ := single.waiting waits
        have held : c.Held running := by
          obtain ⟨sent, _⟩ | held := flows.running running runs free answered
          · simp [waits] at sent
          · exact held
        refine Leaves.flows (sendCommand_leaves ok rfl (accept_sendable req) ?_) hot flows.resolved
        intro q listed
        rcases List.mem_cons.mp listed with rfl | listed
        · exact held.2.1
        · exact flows.queued q listed

theorem queClear_flows (flows : c.Flows) : c.queClear.Flows := by
  unfold queClear
  refine ⟨⟨fun cmd running => ?_, by simp⟩, fun other cold => ?_, fun _ _ _ => rfl, flows.resolved⟩
  · dsimp only at running ⊢
    split at running
    · exact flows.running cmd running
    · contradiction
  · have idle := flows.cold other cold
    simp [idle]

theorem commandReturn_flows (flows : c.Flows) (reply : c.unanswered ≠ []) (single : c.Single) :
    c.commandReturn.Flows := by
  obtain answered | ⟨cmd, running, _⟩ := single.out
  · exact absurd answered reply
  unfold commandReturn
  split
  · rename_i idle
    simp [running] at idle
  · refine ⟨⟨?_, flows.queued⟩, flows.cold, ?_, flows.resolved⟩
    · simp
    · simp [running]

theorem sendNextCommand_flows (queued : ∀ cmd ∈ c.commandQue, cmd.Sendable)
    (hot : c.connClass = .devConnectionMaster ∨ ¬ Cold c.connState)
    (opened : c.sock.isSome → c.connState ≠ .resolvingDevice ∧ c.connState ≠ .connecting) :
    (c.sendNextCommand ok).Flows := by
  obtain ⟨idle, queue, same⟩ | leaves := sendNextCommand_waits ok queued
  · rw [same] at queue ⊢
    exact ⟨⟨by simp, queued⟩, fun _ _ => rfl, fun _ _ _ => queue, opened⟩
  · exact leaves.flows hot opened

theorem returned_flows (single : c.Single) (flows : c.Flows) (handles : c.handling = true)
    (reque ok : Bool) (unmasked : reque = true → c.runningCommand.all (·.bopMask = 0) = true) :
    (c.returned reque ok).Flows := by
  obtain ⟨cmd, running, _⟩ := single.handler handles
  have hot := flows.hot (by simp [running])
  unfold returned
  dsimp only
  split
  · rename_i again
    have plain : cmd.bopMask = 0 := by simpa [running] using unmasked again
    exact Leaves.flows (sendCommand_leaves ok running (Command.unmasked_sendable plain) flows.queued)
      hot flows.resolved
  · exact sendNextCommand_flows flows.queued hot flows.resolved

theorem again_flows (single : c.Single) (flows : c.Flows) (bopState : Status) (ok : Bool)
    (waits : c.runningCommand.any (·.getStatusCallProgress = cipRun) = true) :
    ({ c with bopState := bopState }.sendCommand ok).Flows := by
  obtain ⟨cmd, running, progress⟩ := (Option.any_eq_true _ _).mp waits
  have progress := of_decide_eq_true progress
  obtain ⟨answered, free⟩ := single.again running progress
  have sendable : cmd.Sendable := by
    obtain ⟨_, _, other⟩ | held := flows.running cmd running free answered
    · exact absurd progress other
    · exact held.2.1
  exact Leaves.flows (sendCommand_leaves ok running sendable flows.queued)
    (flows.hot (by simp [running])) flows.resolved

theorem setBopState_flows (single : c.Single) (flows : c.Flows) (in_value : Status) (ok : Bool) :
    (c.setBopState in_value ok).Flows := by
  unfold setBopState
  dsimp only
  split
  · rename_i waits
    exact again_flows single flows in_value ok waits
  · rename_i other
    refine ⟨⟨fun cmd running free answered => ?_, flows.queued⟩, flows.cold, flows.idle, flows.resolved⟩
    obtain lost | held := flows.running cmd running free answered
    · exact .inl lost
    · have progress : c.runningCommand.any (·.getStatusCallProgress = cipRun) = true := by
        simp only [show c.runningCommand = some cmd from running, Option.any_some]
        exact decide_eq_true held.1
      exact absurd progress other

theorem masterStateChanged_flows (single : c.Single) (flows : c.Flows) (ok : Bool) :
    (c.masterStateChanged ok).Flows := by
  unfold masterStateChanged
  split
  · rename_i waits
    exact again_flows single flows c.bopState ok waits
  · exact flows

theorem closed_flows (single : c.Single) (flows : c.Flows) {state : ConnState}
    (closed : state = .delete ∨ state = .broken) : (c.close state).Flows := by
  refine ⟨⟨fun cmd running free _ => ?_, flows.queued⟩, fun _ cold => ?_, ?_, ?_⟩
  · obtain answered | ⟨out, runs, _, sent, progress, _⟩ := single.out
    · obtain ⟨sent, _, progress⟩ | held := flows.running cmd running free answered
      · exact .inl ⟨sent, .inl rfl, progress⟩
      · exact .inr held
    · obtain rfl := Option.some.inj (runs.symm.trans running)
      exact .inl ⟨sent, .inl rfl, progress⟩
  · rcases closed with rfl | rfl
    · exact absurd cold (by decide : ¬ Cold .delete)
    · exact absurd cold (by decide : ¬ Cold .broken)
  · simp [close]
  · simp [close]

theorem connectionError_flows (single : c.Single) (flows : c.Flows) : c.connectionError.Flows := by
  obtain ⟨state, closed, same⟩ | ⟨cmd, running, sent, same⟩ := c.connectionError_cases
  · rw [same]
    exact closed_flows single flows closed
  · rw [same]
    have closed := closed_flows single flows (.inr rfl : ConnState.broken = .delete ∨ _)
    exact ⟨⟨by simp, closed.queued⟩, fun _ _ => rfl, by simp [close], closed.resolved⟩

theorem setConnState_flows (kept : c.Kept) (flows : c.Flows) (state : ConnState) (ok : Bool)
    (enabled : c.Enabled (.setConnState state ok)) : (c.setConnState state ok).Flows := by
  obtain ⟨_, up, hot, _⟩ := enabled
  have connects : state ≠ .inprogress := by
    rintro rfl
    exact hot (by decide)
  have moved (s : Sender) (kept : s.Kept) (waits : s.Waits) (up : s.connState ≠ .inprogress)
      (idle : s.runningCommand = none → state = .authOk ∨ state = .connected → s.sock.isSome →
        s.commandQue = []) : Flows (if state = ConnState.authFailed then
      connectionError { s with connState := state } else { s with connState := state }) := by
    have flows : Flows { s with connState := state } := by
      refine ⟨⟨fun cmd running free answered => ?_, waits.queued⟩, fun _ cold => absurd cold hot,
        idle, fun _ => ⟨?_, ?_⟩⟩
      · obtain ⟨sent, down, progress⟩ | held := waits.running cmd running free answered
        · exact .inl ⟨sent, .inl (down.resolve_right up), progress⟩
        · exact .inr held
      · rintro rfl
        exact hot (by decide)
      · rintro rfl
        exact hot (by decide)
    split
    · exact connectionError_flows (moved_kept kept state connects).toSingle flows
    · exact flows
  by_cases starts : (state = .authOk ∨ state = .connected) ∧ c.runningCommand = none
  · simp only [setConnState, if_pos starts]
    refine moved _ (startNext_kept kept starts.2 ok) ?_ ?_ ?_
    · obtain ⟨idle, queue, same⟩ | leaves := sendNextCommand_waits ok flows.queued
      · rw [same]
        exact ⟨by simp, flows.queued⟩
      · exact leaves.toWaits
    · obtain ⟨_, _, same⟩ | leaves := sendNextCommand_waits ok flows.queued
      · rw [same]
        exact up
      · rcases leaves.state with same | closed | closed
        · rwa [same]
        · simp [closed]
        · simp [closed]
    · intro idle _ isOpen
      obtain ⟨_, queue, _⟩ | leaves := sendNextCommand_waits ok flows.queued
      · exact queue
      · simp [leaves.idle idle] at isOpen
  · simp only [setConnState, if_neg starts]
    refine moved c kept flows.toWaits up ?_
    exact fun idle ready _ => absurd ⟨ready, idle⟩ starts

theorem failSentCommand_connClass (c : Sender) : c.failSentCommand.connClass = c.connClass := by
  unfold failSentCommand
  split
  · rfl
  · split
    · dsimp only
      split <;> rfl
    · rfl

theorem failSentCommand_flows (master : c.connClass = .devConnectionMaster)
    (state : c.connState = .authPending) (queued : ∀ cmd ∈ c.commandQue, cmd.Sendable)
    (held : c.runningCommandStatus ≠ .send → ∀ cmd, c.runningCommand = some cmd →
      c.handling = false → c.unanswered = [] → c.Held cmd) : c.failSentCommand.Flows := by
  have still (held : ∀ cmd, c.runningCommand = some cmd → c.handling = false → c.unanswered = [] →
      c.Held cmd) : c.Flows := by
    refine ⟨⟨fun cmd running free answered => .inr (held cmd running free answered), queued⟩,
      fun other => absurd master other, ?_, ?_⟩
    · simp [state]
    · simp [state]
  unfold failSentCommand
  split
  · rename_i idle
    exact still (by simp [idle])
  · split
    · dsimp only
      split
      · exact ⟨⟨by simp [close], queued⟩, fun _ _ => rfl, by simp [close], by simp [close]⟩
      · exact ⟨⟨by simp, queued⟩, fun _ _ => rfl, by simp [state], by simp [state]⟩
    · rename_i unsent
      exact still (held unsent)

theorem connConnected_flows (kept : c.Kept) (answered : c.unanswered = [])
    (queued : ∀ cmd ∈ c.commandQue, cmd.Sendable)
    (held : c.runningCommandStatus ≠ .send → ∀ cmd, c.runningCommand = some cmd →
      c.handling = false → c.unanswered = [] → c.Held cmd)
    (cold : c.connClass ≠ .devConnectionMaster → c.runningCommand = none) (ok : Bool) :
    (c.connConnected ok).Flows := by
  unfold connConnected
  split
  · rename_i connection
    have idle : c.runningCommand = none := cold (by simp [connection])
    exact ⟨⟨by simp [idle], queued⟩, fun _ _ => idle, by simp, by simp⟩
  · rename_i master
    have moved := moved_kept kept .authPending (by decide)
    have flows : ({ c with connState := .authPending } : Sender).failSentCommand.Flows :=
      failSentCommand_flows master rfl queued held
    refine queSend_flows (failSentCommand_kept moved answered).toSingle flows _ ok (.inl ?_)
    rw [failSentCommand_connClass]
    exact master

theorem init_flows (kept : c.Kept) (flows : c.Flows) (closed : c.sock = none)
    (cold : c.connClass ≠ .devConnectionMaster → Cold c.connState) (connects : Connects) (ok : Bool) :
    (c.init connects ok).Flows := by
  have answered : c.unanswered = [] := by
    obtain answered | ⟨_, _, _, _, _, _, opened, _⟩ := kept.out
    · exact answered
    · simp [closed] at opened
  have idle (other : c.connClass ≠ .devConnectionMaster) : c.runningCommand = none :=
    flows.cold other (cold other)
  have still (cmd : Command) (running : c.runningCommand = some cmd) (free : c.handling = false) :
      (c.runningCommandStatus = .send ∧ cmd.getStatusCallProgress ≠ cipRun) ∨ c.Held cmd := by
    obtain ⟨sent, _, progress⟩ | held := flows.running cmd running free answered
    · exact .inl ⟨sent, progress⟩
    · exact .inr held
  have pairs := paired_opened kept.toPaired answered
  unfold init
  cases connects with
  | inprogress =>
    refine ⟨⟨fun cmd running free _ => ?_, flows.queued⟩, fun other _ => idle other, by simp, by simp⟩
    obtain ⟨sent, progress⟩ | held := still cmd running free
    · exact .inl ⟨sent, .inr rfl, progress⟩
    · exact .inr held
  | done =>
    have opened : Kept { c with sock := some c.socks, socks := c.socks + 1 } :=
      ⟨⟨kept.places, kept.cycles⟩, pairs, ⟨.inl answered, kept.handler⟩⟩
    refine connConnected_flows opened answered flows.queued ?_ idle ok
    intro unsent cmd running free _
    obtain ⟨sent, _⟩ | held := still cmd running free
    · exact absurd sent unsent
    · exact held
  | failed =>
    dsimp only
    split
    · exact flows
    · exact connectionError_flows kept.toSingle flows

theorem reconnectSocket_flows (kept : c.Kept) (flows : c.Flows) (connects : Connects) (ok : Bool)
    (enabled : c.Enabled (.reconnectSocket connects ok))
    (again : c.Again (.reconnectSocket connects ok)) : (c.reconnectSocket connects ok).Flows := by
  have left := leaveSocket_kept kept enabled.1
  have flows : c.leaveSocket.Flows := by
    refine ⟨⟨by simp [leaveSocket], fun q listed => ?_⟩, fun _ _ => rfl, ?_, ?_⟩
    · rcases List.mem_append.mp listed with running | listed
      · obtain ⟨running, other⟩ := List.mem_filter.mp running
        rcases again q (Option.mem_toList.mp running) with key | sendable
        · exact absurd key (of_decide_eq_true other)
        · exact sendable
      · exact flows.queued q listed
    · simp [leaveSocket]
    · simp [leaveSocket]
  have cold : c.leaveSocket.connClass ≠ .devConnectionMaster → Cold c.leaveSocket.connState :=
    fun _ => .inr (.inr (.inl rfl))
  cases connects with
  | failed => exact connectionError_flows left.toSingle flows
  | inprogress => exact init_flows left flows rfl cold .inprogress ok
  | done => exact init_flows left flows rfl cold .done ok

theorem deleteConnection_flows (flows : c.Flows) (conn : Nat) : (c.deleteConnection conn).Flows := by
  refine ⟨⟨fun cmd running free answered => ?_, fun q listed => ?_⟩, fun other cold => ?_,
    fun idle ready isOpen => ?_, flows.resolved⟩
  · obtain ⟨old, runs, rfl⟩ := Option.map_eq_some_iff.mp running
    exact flows.running old runs free answered
  · obtain ⟨old, before, rfl⟩ := List.mem_map.mp listed
    exact flows.queued old before
  · exact Option.map_eq_none_iff.mpr (flows.cold other cold)
  · exact List.map_eq_nil_iff.mpr (flows.idle (Option.map_eq_none_iff.mp idle) ready isOpen)

theorem step_flows (c : Sender) (e : QueEvent) (kept : c.Kept) (flows : c.Flows)
    (enabled : c.Enabled e) (again : c.Again e) : (c.step e).Flows := by
  cases e with
  | queCommand req ok => exact queCommand_flows flows req ok
  | queSend req ok => exact queSend_flows kept.toSingle flows req ok enabled
  | queClear => exact queClear_flows flows
  | commandReturn => exact commandReturn_flows flows enabled.2 kept.toSingle
  | returned reque ok => exact returned_flows kept.toSingle flows enabled.1 reque ok enabled.2
  | setBopState in_value ok => exact setBopState_flows kept.toSingle flows in_value ok
  | masterStateChanged ok => exact masterStateChanged_flows kept.toSingle flows ok
  | setConnState state ok => exact setConnState_flows kept flows state ok enabled
  | connectionError => exact connectionError_flows kept.toSingle flows
  | init connects ok =>
    refine init_flows kept flows enabled.2.1 (fun other => ?_) connects ok
    have state := enabled.2.2
    cases connClass : c.connClass with
    | connection => simpa only [connClass] using state
    | devConnectionMaster => exact absurd connClass other
  | connConnected ok =>
    obtain ⟨free, _, connecting⟩ := enabled
    have answered : c.unanswered = [] := by
      obtain answered | ⟨_, _, _, _, _, _, _, up⟩ := kept.out
      · exact answered
      · exact absurd connecting up
    refine connConnected_flows kept answered flows.queued ?_ ?_ ok
    · intro unsent cmd running _ _
      obtain ⟨sent, _⟩ | held := flows.running cmd running free answered
      · exact absurd sent unsent
      · exact held
    · exact fun other => flows.cold other (.inr (.inr (.inr connecting)))
  | reconnectSocket connects ok => exact reconnectSocket_flows kept flows connects ok enabled again
  | deleteConnection conn => exact deleteConnection_flows flows conn

theorem fresh_flows {connClass : ConnClass} {connState : ConnState} {sock : Bool}
    (made : Constructed connClass connState sock) (bopState : Status) :
    (fresh connClass connState sock bopState).Flows := by
  refine ⟨⟨by simp [fresh], by simp [fresh]⟩, fun _ _ => rfl, fun _ _ _ => rfl, fun isOpen => ?_⟩
  cases sock with
  | false => simp [fresh] at isOpen
  | true =>
    cases connClass with
    | connection => rcases made with rfl | rfl <;> simp [fresh]
    | devConnectionMaster => simp [Constructed] at made

end Sender

end Rts2.Kernel
