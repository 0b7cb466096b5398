import Rts2.Kernel.CommandMatch

/-! A command and the loss of its socket: what becomes of the running command when a connection is made again or the
link to centrald breaks, and how the commands that are left are sent and answered later. -/
namespace Rts2.Kernel

open Lib

namespace Sender

variable {c s : Sender} {cmd : Command} {ok : Bool}

/-- What the handshake of a connection this side opens does: the state in which the auth is awaited is entered when the
socket is connected, only the auth is sent in front of the queue, and its handlers leave the state. -/
def Handshake (c : Sender) : QueEvent → Prop
  | .setConnState new_conn_state _ => c.connClass = .devConnectionMaster ∨ new_conn_state ≠ .authPending
  | .queSend req _ => c.connClass = .devConnectionMaster ∨ req.cls = .sendKey ∧ req.bopMask = 0
  | .returned _ _ => c.runningCommand.any (·.cls = .sendKey) = true → c.connState ≠ .authPending
  | .queCommand .. | .queClear | .commandReturn | .setBopState .. | .masterStateChanged _ | .connectionError
  | .init .. | .connConnected _ | .reconnectSocket .. | .deleteConnection _ => True

instance (c : Sender) : DecidablePred c.Handshake
  | .setConnState .. | .queSend .. => inferInstanceAs (Decidable (_ ∨ _))
  | .returned .. => inferInstanceAs (Decidable (_ → _))
  | .queCommand .. | .queClear | .commandReturn | .setBopState .. | .masterStateChanged _ | .connectionError
  | .init .. | .connConnected _ | .reconnectSocket .. | .deleteConnection _ => isTrue trivial

def Awaiting (c : Sender) : Prop :=
  c.connClass ≠ .devConnectionMaster → c.connState = .authPending → ∀ cmd ∈ c.runningCommand, cmd.cls = .sendKey ∧ cmd.bopMask = 0

theorem ran_state (ran : c.Ran cmd ok s) :
    (s.connState = c.connState ∨ s.connState = .delete ∨ s.connState = .broken) ∧ s.connClass = c.connClass := by
  cases ran with
  | stuck => exact ⟨.inl rfl, rfl⟩
  | held => exact ⟨.inl rfl, rfl⟩
  | written s r sock runs => cases runs <;> exact ⟨.inl rfl, rfl⟩
  | lost s t r runs fell =>
    have same : s.connState = c.connState ∧ s.connClass = c.connClass := by cases runs <;> exact ⟨rfl, rfl⟩
    cases fell with
    | skipped => exact ⟨.inl same.1, same.2⟩
    | dropped fails state closed => exact ⟨.inr closed, same.2⟩
  | failed => exact ⟨.inr (.inr rfl), rfl⟩
  | askFailed => exact ⟨.inr (.inr rfl), rfl⟩

theorem sendCommand_state (c : Sender) (ok : Bool) :
    ((c.sendCommand ok).connState = c.connState ∨ (c.sendCommand ok).connState = .delete ∨
      (c.sendCommand ok).connState = .broken) ∧ (c.sendCommand ok).connClass = c.connClass := by
  cases running : c.runningCommand with
  | none =>
    unfold sendCommand
    rw [running]
    exact ⟨.inl rfl, rfl⟩
  | some cmd => exact ran_state (sendCommand_ran running ok)

theorem sendCommand_unmasked (other : c.connClass ≠ .devConnectionMaster) (running : c.runningCommand = some cmd)
    (unmasked : cmd.bopMask = 0) (ok : Bool) : (c.sendCommand ok).runningCommand = some cmd := by
  unfold sendCommand
  rw [running]
  simp only [unmasked, ne_eq, not_true_eq_false, if_false]
  unfold send
  split
  · exact running
  · split
    · exact running
    · split
      · exact running
      · unfold connectionError
        cases connClass : c.connClass with
        | connection canDelete => exact running
        | devConnectionMaster => exact absurd connClass other

theorem Awaiting.of_state {t : Sender} (class_ : t.connClass = c.connClass)
    (state : t.connState = c.connState ∨ t.connState = .delete ∨ t.connState = .broken)
    (away : c.connClass ≠ .devConnectionMaster → c.connState ≠ .authPending) : t.Awaiting := by
  intro other pending
  rcases state with same | closed | closed
  · exact absurd (same.symm.trans pending) (away (class_ ▸ other))
  · rw [closed] at pending
    cases pending
  · rw [closed] at pending
    cases pending

theorem awaiting_none (idle : c.runningCommand = none) : c.Awaiting := by
  intro _ _ cmd running
  rw [idle] at running
  cases running

theorem sendNextCommand_state (c : Sender) (ok : Bool) :
    ((c.sendNextCommand ok).connState = c.connState ∨ (c.sendNextCommand ok).connState = .delete ∨
      (c.sendNextCommand ok).connState = .broken) ∧ (c.sendNextCommand ok).connClass = c.connClass := by
  unfold sendNextCommand
  split
  · exact ⟨.inl rfl, rfl⟩
  · exact sendCommand_state _ ok

theorem queCommand_awaiting (awaiting : c.Awaiting) (req : Request) (ok : Bool) : (c.queCommand req ok).Awaiting := by
  unfold queCommand
  dsimp only
  split
  · exact awaiting
  · rename_i ready
    obtain ⟨state, class_⟩ := sendCommand_state
      { c with made := c.made + 1, runningCommand := some (c.accept req) } ok
    refine Awaiting.of_state class_ state fun _ pending => ready (.inr ?_)
    dsimp only at pending
    rw [pending]
    exact ⟨by decide, by decide⟩

theorem queSend_awaiting (awaiting : c.Awaiting) {req : Request} (handshake : c.Handshake (.queSend req ok)) :
    (c.queSend req ok).Awaiting := by
  have runs (t : Sender) (class_ : t.connClass = c.connClass) (running : t.runningCommand = some (c.accept req)) :
      (t.sendCommand ok).Awaiting := by
    intro other _ cmd runs
    rw [(sendCommand_state t ok).2, class_] at other
    obtain ⟨key, unmasked⟩ := handshake.resolve_left other
    rw [sendCommand_unmasked (class_ ▸ other) running unmasked] at runs
    cases runs
    exact ⟨key, unmasked⟩
  unfold queSend
  dsimp only
  split
  · exact awaiting
  · split
    · exact runs _ rfl rfl
    · split
      · exact awaiting
      · exact runs _ rfl rfl

@[simp] theorem connectionError_class (c : Sender) : c.connectionError.connClass = c.connClass := by
  obtain ⟨state, _, same⟩ | ⟨cmd, _, _, same⟩ := c.connectionError_cases
  · rw [same]
    rfl
  · rw [same]
    rfl

theorem queSend_class (c : Sender) (req : Request) (ok : Bool) : (c.queSend req ok).connClass = c.connClass := by
  unfold queSend
  dsimp only
  split
  · rfl
  · split
    · exact (sendCommand_state _ ok).2
    · split
      · rfl
      · exact (sendCommand_state _ ok).2

theorem connConnected_class (c : Sender) (ok : Bool) : (c.connConnected ok).connClass = c.connClass := by
  unfold connConnected
  split
  · rfl
  · exact (queSend_class _ _ ok).trans (failSentCommand_connClass _)

theorem init_class (c : Sender) (connects : Connects) (ok : Bool) : (c.init connects ok).connClass = c.connClass := by
  unfold init
  cases connects with
  | failed =>
    dsimp only
    split
    · rfl
    · exact connectionError_class c
  | inprogress => rfl
  | done => exact connConnected_class _ ok

theorem setConnState_class (c : Sender) (state : ConnState) (ok : Bool) :
    (c.setConnState state ok).connClass = c.connClass := by
  unfold setConnState
  dsimp only
  have next : (if (state = .authOk ∨ state = .connected) ∧ c.runningCommand = none then c.sendNextCommand ok
      else c).connClass = c.connClass := by
    split
    · exact (sendNextCommand_state c ok).2
    · rfl
  split
  · exact (connectionError_class _).trans next
  · exact next

theorem step_class (c : Sender) (e : QueEvent) : (c.step e).connClass = c.connClass := by
  cases e with
  | queCommand req ok =>
    unfold step queCommand
    dsimp only
    split
    · rfl
    · exact (sendCommand_state _ ok).2
  | queSend req ok => exact queSend_class c req ok
  | queClear => rfl
  | commandReturn =>
    unfold step commandReturn
    dsimp only
    split <;> rfl
  | returned reque ok =>
    unfold step returned
    dsimp only
    split
    · exact (sendCommand_state _ ok).2
    · exact (sendNextCommand_state _ ok).2
  | setBopState in_value ok =>
    unfold step setBopState
    dsimp only
    split
    · exact (sendCommand_state _ ok).2
    · rfl
  | masterStateChanged ok =>
    unfold step masterStateChanged
    dsimp only
    split
    · exact (sendCommand_state _ ok).2
    · rfl
  | setConnState state ok => exact setConnState_class c state ok
  | connectionError => exact connectionError_class c
  | init connects ok => exact init_class c connects ok
  | connConnected ok => exact connConnected_class c ok
  | reconnectSocket connects ok =>
    unfold step reconnectSocket
    cases connects with
    | failed => exact connectionError_class c.leaveSocket
    | inprogress => exact init_class c.leaveSocket .inprogress ok
    | done => exact init_class c.leaveSocket .done ok
  | deleteConnection conn => rfl

theorem init_awaiting (other : c.connClass ≠ .devConnectionMaster) (idle : c.runningCommand = none)
    (connects : Connects) (ok : Bool) : (c.init connects ok).Awaiting := by
  refine awaiting_none ?_
  unfold init connConnected
  cases connClass : c.connClass with
  | connection canDelete => cases connects <;> exact idle
  | devConnectionMaster => exact absurd connClass other

theorem connectionError_awaiting (other : c.connClass ≠ .devConnectionMaster) : c.connectionError.Awaiting := by
  intro _ pending
  obtain ⟨state, closed | closed, same⟩ | ⟨cmd, _, _, same⟩ := c.connectionError_cases
  · rw [same, closed] at pending
    cases pending
  · rw [same, closed] at pending
    cases pending
  · rw [same] at pending
    cases pending

theorem setConnState_awaiting (other : c.connClass ≠ .devConnectionMaster) {state : ConnState}
    (away : state ≠ .authPending) (ok : Bool) : (c.setConnState state ok).Awaiting := by
  unfold setConnState
  dsimp only
  have next : (if (state = .authOk ∨ state = .connected) ∧ c.runningCommand = none then c.sendNextCommand ok
      else c).connClass = c.connClass := by
    split
    · exact (sendNextCommand_state c ok).2
    · rfl
  generalize (if (state = .authOk ∨ state = .connected) ∧ c.runningCommand = none then c.sendNextCommand ok
    else c) = t at next
  split
  · exact connectionError_awaiting (c := { t with connState := state }) (next ▸ other)
  · exact fun _ pending => absurd pending away

theorem step_awaiting (kept : c.Kept) (flows : c.Flows) (awaiting : c.Awaiting) {e : QueEvent} (enabled : c.Enabled e)
    (handshake : c.Handshake e) : (c.step e).Awaiting := by
  by_cases master : c.connClass = .devConnectionMaster
  · exact fun other => absurd ((step_class c e).trans master) other
  cases e with
  | queCommand req ok => exact queCommand_awaiting awaiting req ok
  | queSend req ok => exact queSend_awaiting awaiting handshake
  | queClear =>
    intro other pending cmd running
    refine awaiting other pending cmd ?_
    unfold step queClear at running
    dsimp only at running
    split at running
    · exact running
    · cases running
  | commandReturn =>
    unfold step commandReturn
    dsimp only
    split
    · exact awaiting
    · exact awaiting
  | returned reque ok =>
    obtain ⟨cmd, running, _⟩ := kept.handler enabled.1
    have away (other : c.connClass ≠ .devConnectionMaster) : c.connState ≠ .authPending := by
      intro pending
      refine handshake ?_ pending
      rw [running]
      exact decide_eq_true (awaiting other pending cmd running).1
    unfold step returned
    dsimp only
    split
    · obtain ⟨state, class_⟩ := sendCommand_state
        { c with handling := false, requeued := c.requeued ++ c.runningCommand.toList.map Command.id } ok
      exact Awaiting.of_state class_ state away
    · obtain ⟨state, class_⟩ := sendNextCommand_state
        { c with handling := false, finished := c.finished ++ c.runningCommand.toList.map Command.id } ok
      exact Awaiting.of_state class_ state away
  | setBopState in_value ok =>
    unfold step setBopState
    dsimp only
    split
    · rename_i waits
      obtain ⟨cmd, running, progress⟩ := (Option.any_eq_true _ _).mp waits
      obtain ⟨state, class_⟩ := sendCommand_state { c with bopState := in_value } ok
      refine Awaiting.of_state class_ state fun other pending => ?_
      have idle := Command.unmasked_progress (awaiting other pending cmd running).2
      rw [of_decide_eq_true progress] at idle
      exact absurd idle (by decide)
    · exact awaiting
  | masterStateChanged ok =>
    unfold step masterStateChanged
    dsimp only
    split
    · rename_i waits
      obtain ⟨cmd, running, progress⟩ := (Option.any_eq_true _ _).mp waits
      obtain ⟨state, class_⟩ := sendCommand_state c ok
      refine Awaiting.of_state class_ state fun other pending => ?_
      have idle := Command.unmasked_progress (awaiting other pending cmd running).2
      rw [of_decide_eq_true progress] at idle
      exact absurd idle (by decide)
    · exact awaiting
  | setConnState state ok => exact setConnState_awaiting master (handshake.resolve_left master) ok
  | connectionError => exact connectionError_awaiting master
  | init connects ok =>
    refine init_awaiting master (flows.cold master ?_) connects ok
    have cold := enabled.2.2
    cases connClass : c.connClass with
    | connection => simpa only [connClass] using cold
    | devConnectionMaster => exact absurd connClass master
  | connConnected ok =>
    refine awaiting_none ?_
    have idle := flows.cold master (.inr (.inr (.inr enabled.2.2)))
    unfold step connConnected
    cases connClass : c.connClass with
    | connection canDelete => exact idle
    | devConnectionMaster => exact absurd connClass master
  | reconnectSocket connects ok =>
    unfold step reconnectSocket
    cases connects with
    | failed => exact connectionError_awaiting (c := c.leaveSocket) master
    | inprogress => exact init_awaiting (c := c.leaveSocket) master rfl .inprogress ok
    | done => exact init_awaiting (c := c.leaveSocket) master rfl .done ok
  | deleteConnection conn =>
    intro other pending cmd running
    obtain ⟨old, runs, rfl⟩ := Option.map_eq_some_iff.mp running
    exact awaiting other pending old runs

theorem handshake_again (awaiting : c.Awaiting) {e : QueEvent} (enabled : c.Enabled e) : c.Again e := by
  cases e with
  | reconnectSocket connects ok => exact fun cmd running => .inl (awaiting enabled.2.2 enabled.2.1 cmd running).1
  | _ => trivial

def Proper (c : Sender) (e : QueEvent) : Prop := c.Enabled e ∧ c.Handshake e

instance (c : Sender) : DecidablePred c.Proper := fun _ => inferInstanceAs (Decidable (_ ∧ _))

structure Going (c : Sender) : Prop where
  kept : c.Kept
  flows : c.Flows
  awaiting : c.Awaiting

theorem step_going (c : Sender) (e : QueEvent) (going : c.Going) (proper : c.Proper e) : (c.step e).Going where
  kept := step_kept c e going.kept proper.1
  flows := step_flows c e going.kept going.flows proper.1 (handshake_again going.awaiting proper.1)
  awaiting := step_awaiting going.kept going.flows going.awaiting proper.1 proper.2

def turns (cmd : Command) : Nat :=
  if cmd.bopMask ≠ 0 ∧ ¬ cmd.WhileState ∧ cmd.getStatusCallProgress = cipNotCalled then 2 else 1

def rank (c : Sender) : Nat := 2 * (c.commandQue.map turns).sum + if c.runningCommand.isSome then 1 else 0

structure Up (c : Sender) : Prop extends c.Going where
  link : c.sock.isSome
  authorized : c.connState = .authOk
  free : c.handling = false

theorem turns_pos (cmd : Command) : 1 ≤ turns cmd := by
  unfold turns
  split <;> decide

theorem sendCommand_up (running : c.runningCommand = some cmd) (sendable : cmd.Sendable) (link : c.sock.isSome)
    (up : c.connState ≠ .inprogress) :
    (c.sendCommand true).sock = c.sock ∧ (c.sendCommand true).connState = c.connState ∧
    (c.sendCommand true).handling = c.handling ∧ (c.sendCommand true).finished = c.finished ∧
    ((∃ r, (c.sendCommand true).runningCommand = some r ∧ r.id = cmd.id ∧ (c.sendCommand true).commandQue = c.commandQue) ∨
      turns cmd = 2 ∧ (c.sendCommand true).runningCommand.isSome ∧
        (c.sendCommand true).commandQue = cmd.setStatusCallProgress cipWait :: c.commandQue) := by
  have ran := sendCommand_ran running true
  generalize c.sendCommand true = s at ran
  cases ran with
  | stuck status never => exact absurd sendable never
  | held => exact ⟨rfl, rfl, rfl, rfl, .inl ⟨_, rfl, rfl, rfl⟩⟩
  | written s r sock runs =>
    cases runs with
    | same r id => exact ⟨rfl, rfl, rfl, rfl, .inl ⟨r, rfl, id, rfl⟩⟩
    | asks masked plain uncalled => exact ⟨rfl, rfl, rfl, rfl, .inr ⟨if_pos ⟨masked, plain, uncalled⟩, rfl, rfl⟩⟩
  | lost s t r runs fell => exact absurd fell (runs_upright runs link up t)
  | failed fails => contradiction
  | askFailed fails => contradiction

theorem turns_waiting {cmd : Command} : turns (cmd.setStatusCallProgress cipWait) = 1 := by
  refine if_neg fun twice => ?_
  have progress := twice.2.2
  rw [Command.set_progress] at progress
  exact absurd progress (by decide)

theorem sendNextCommand_up (queued : ∀ cmd ∈ c.commandQue, cmd.Sendable) (link : c.sock.isSome)
    (up : c.connState ≠ .inprogress) :
    (c.sendNextCommand true).sock = c.sock ∧ (c.sendNextCommand true).connState = c.connState ∧
    (c.sendNextCommand true).handling = c.handling ∧ (c.sendNextCommand true).finished = c.finished ∧
    rank (c.sendNextCommand true) ≤ 2 * (c.commandQue.map turns).sum ∧
    ∀ q ∈ c.commandQue, q.id ∈ (c.sendNextCommand true).commands.map Command.id := by
  unfold sendNextCommand
  cases queue : c.commandQue with
  | nil => exact ⟨rfl, rfl, rfl, rfl, by simp [rank, queue], by simp⟩
  | cons cmd rest =>
    rw [queue] at queued
    dsimp only
    obtain ⟨sock, state, handling, finished, runs⟩ := sendCommand_up
      (c := { c with runningCommand := some cmd, commandQue := rest }) rfl
      (queued cmd (List.mem_cons_self ..)) link up
    refine ⟨sock, state, handling, finished, ?_, fun q mem => ?_⟩
    · unfold rank
      rw [List.map_cons, List.sum_cons]
      have one := turns_pos cmd
      obtain ⟨r, running, _, same⟩ | ⟨two, running, same⟩ := runs
      · simp only [running, same, Option.isSome_some, if_pos]
        omega
      · simp only [running, same, if_pos, List.map_cons, List.sum_cons, turns_waiting]
        omega
    · unfold commands
      obtain ⟨r, running, number, same⟩ | ⟨_, _, same⟩ := runs
      · rw [running, same]
        cases List.mem_cons.mp mem with
        | inl first => simp [first, number]
        | inr later =>
          rw [List.map_append]
          exact List.mem_append_right _ (List.mem_map_of_mem later)
      · rw [same, List.map_append]
        refine List.mem_append_right _ ?_
        cases List.mem_cons.mp mem with
        | inl first => simp [first]
        | inr later => exact List.mem_map_of_mem (List.mem_cons_of_mem _ later)

theorem reply_reached (up : c.Up) (running : c.runningCommand = some cmd) (out : c.unanswered ≠ []) :
    ∃ s, Reaches step Proper c s ∧ s.Up ∧ cmd.id ∈ s.finished ∧ rank s < rank c ∧
      ∀ q ∈ c.commandQue, q.id ∈ s.commands.map Command.id := by
  have answers : c.Proper .commandReturn := ⟨⟨up.free, out⟩, trivial⟩
  have going := step_going c _ up.toGoing answers
  have first : Reaches step Proper c (c.step .commandReturn) := Reaches.step answers
  have same : c.step .commandReturn = { c with
      runningCommandStatus := .returning
      handling := true
      unanswered := c.unanswered.tail
      answered := c.answered ++ (c.sock.map (·, cmd.id)).toList } := by
    unfold step commandReturn
    dsimp only
    split
    · rename_i idle
      rw [running] at idle
      cases idle
    · rename_i other runs
      rw [Option.some.inj (running.symm.trans runs)]
  generalize c.step .commandReturn = h at going first same
  have handling : h.handling = true := by rw [same]
  have state : h.connState = .authOk := by rw [same]; exact up.authorized
  have runs : h.runningCommand = some cmd := by rw [same]; exact running
  have queue : h.commandQue = c.commandQue := by rw [same]
  have link : h.sock.isSome := by rw [same]; exact up.link
  have returns : h.Proper (.returned false true) := by
    refine ⟨⟨handling, fun again => nomatch again⟩, fun _ pending => ?_⟩
    rw [state] at pending
    cases pending
  obtain ⟨sock, next_state, free, finished, less, listed⟩ := sendNextCommand_up
    (c := { h with handling := false, finished := h.finished ++ h.runningCommand.toList.map Command.id })
    going.flows.queued link (by rw [state]; decide)
  refine ⟨h.step (.returned false true), first.trans (Reaches.step returns),
    ⟨step_going h _ going returns, ?_, next_state.trans state, free⟩, ?_, ?_, ?_⟩
  · exact (congrArg Option.isSome sock).trans link
  · refine finished ▸ List.mem_append_right _ ?_
    rw [runs]
    exact List.mem_singleton_self _
  · refine Nat.lt_of_le_of_lt less ?_
    dsimp only
    unfold rank
    rw [queue, running]
    exact Nat.lt_succ_self _
  · intro q mem
    exact listed q (queue ▸ mem)

theorem write_reached (up : c.Up) (running : c.runningCommand = some cmd) (answered : c.unanswered = []) :
    ∃ s r, Reaches step Proper c s ∧ s.Up ∧ s.runningCommand = some r ∧ r.id = cmd.id ∧ s.unanswered ≠ [] ∧
      s.commandQue = c.commandQue := by
  have connected : c.connState ≠ .inprogress := by
    rw [up.authorized]
    decide
  have held : c.Held cmd := by
    obtain ⟨_, closed | connecting, _⟩ | held := up.flows.running cmd running up.free answered
    · have link := up.link
      simp [closed] at link
    · exact absurd connecting connected
    · exact held
  obtain ⟨word, ready⟩ := sendable_ready c held.2.1
  have proper : c.Proper (.setBopState word true) := ⟨trivial, trivial⟩
  have waits : ({ c with bopState := word } : Sender).runningCommand.any (·.getStatusCallProgress = cipRun) = true := by
    simpa [running] using held.1
  have sent : c.step (.setBopState word true) = { c with bopState := word }.sendCommand true := if_pos waits
  have written := ready_written (c := { c with bopState := word }) running held.1 held.2.1 ready up.link connected
  obtain ⟨sock, state, free, _, runs⟩ := sendCommand_up (c := { c with bopState := word }) running held.2.1 up.link connected
  have once : turns cmd ≠ 2 := by
    have uncalled : cmd.getStatusCallProgress ≠ cipNotCalled := by
      rw [held.1]
      decide
    unfold turns
    rw [if_neg fun twice => uncalled twice.2.2]
    decide
  obtain ⟨r, now, number, queue⟩ := runs.resolve_right fun asks => once asks.1
  refine ⟨c.step (.setBopState word true), r, Reaches.step proper,
    ⟨step_going c _ up.toGoing proper, ?_, ?_, ?_⟩, ?_, number, ?_, ?_⟩
  · rw [sent, sock]
    exact up.link
  · rw [sent, state]
    exact up.authorized
  · rw [sent, free]
    exact up.free
  · rw [sent, now]
  · rw [sent, written]
    simp
  · rw [sent, queue]

theorem finished_reached (n : Nat) (up : c.Up) (few : rank c ≤ n) {id : Nat} (listed : id ∈ c.commands.map Command.id) :
    ∃ s, Reaches step Proper c s ∧ id ∈ s.finished := by
  induction n generalizing c with
  | zero =>
    have idle : c.runningCommand = none := by
      cases running : c.runningCommand with
      | none => rfl
      | some cmd =>
        unfold rank at few
        rw [running] at few
        simp at few
    have queue := up.flows.idle idle (.inl up.authorized) up.link
    simp [commands, idle, queue] at listed
  | succ n ih =>
    cases running : c.runningCommand with
    | none =>
      have queue := up.flows.idle running (.inl up.authorized) up.link
      simp [commands, running, queue] at listed
    | some cmd =>
      have out : ∃ s r, Reaches step Proper c s ∧ s.Up ∧ s.runningCommand = some r ∧ r.id = cmd.id ∧ s.unanswered ≠ [] ∧
          s.commandQue = c.commandQue := by
        by_cases answered : c.unanswered = []
        · exact write_reached up running answered
        · exact ⟨c, cmd, Reaches.refl .., up, running, rfl, answered, rfl⟩
      obtain ⟨w, r, first, written, runs, number, unanswered, queue⟩ := out
      obtain ⟨s, second, next, finished, less, kept⟩ := reply_reached written runs unanswered
      have same : rank w = rank c := by
        unfold rank
        rw [queue, runs, running]
        rfl
      unfold commands at listed
      rw [running, List.map_append, List.mem_append] at listed
      cases listed with
      | inl first_one =>
        rw [Option.toList_some, List.map_singleton, List.mem_singleton] at first_one
        exact ⟨s, first.trans second, by rw [first_one, ← number]; exact finished⟩
      | inr later =>
        obtain ⟨q, mem, rfl⟩ := List.mem_map.mp later
        obtain ⟨t, third, done⟩ := ih next (by omega) (kept q (queue ▸ mem))
        exact ⟨t, (first.trans second).trans third, done⟩

theorem link_finishes (going : c.Going) (link : c.sock.isSome) (connected : c.connState ≠ .inprogress)
    (free : c.handling = false) {id : Nat} (listed : id ∈ c.commands.map Command.id) :
    ∃ s, Reaches step Proper c s ∧ id ∈ s.finished := by
  have proper : c.Proper (.setConnState .authOk true) :=
    ⟨⟨link, connected, by decide, by decide⟩, .inr (by decide)⟩
  have next := step_going c _ going proper
  have same : c.step (.setConnState .authOk true) =
      { (if c.runningCommand = none then c.sendNextCommand true else c) with connState := .authOk } := by
    unfold step setConnState
    simp
  obtain ⟨sock, _, handling, _, _, kept⟩ := sendNextCommand_up going.flows.queued link connected
  have up : (c.step (.setConnState .authOk true)).Up ∧
      id ∈ (c.step (.setConnState .authOk true)).commands.map Command.id := by
    by_cases idle : c.runningCommand = none
    · rw [if_pos idle] at same
      unfold commands at listed
      rw [idle, Option.toList_none, List.nil_append] at listed
      obtain ⟨q, mem, rfl⟩ := List.mem_map.mp listed
      refine ⟨⟨next, ?_, ?_, ?_⟩, ?_⟩
      · rw [same]
        exact (congrArg Option.isSome sock).trans link
      · rw [same]
      · rw [same]
        exact handling.trans free
      · rw [same]
        exact kept q mem
    · rw [if_neg idle] at same
      refine ⟨⟨next, ?_, ?_, ?_⟩, ?_⟩
      · rw [same]
        exact link
      · rw [same]
      · rw [same]
        exact free
      · rw [same]
        exact listed
  obtain ⟨s, later, finished⟩ := finished_reached _ up.1 (Nat.le_refl _) up.2
  exact ⟨s, (Reaches.step proper).trans later, finished⟩

theorem reconnectSocket_commands (other : c.connClass ≠ .devConnectionMaster) (connects : Connects) (ok : Bool) :
    (c.reconnectSocket connects ok).commands = (c.runningCommand.toList.filter (·.cls ≠ .sendKey)) ++ c.commandQue ∧
    (c.reconnectSocket connects ok).discarded =
      c.discarded ++ (c.runningCommand.toList.filter (·.cls = .sendKey)).map Command.id := by
  unfold reconnectSocket init connConnected connectionError commands
  cases connClass : c.connClass with
  | devConnectionMaster => exact absurd connClass other
  | connection canDelete =>
    have same : c.leaveSocket.connClass = .connection canDelete := connClass
    cases connects with
    | failed => simp only [same]; exact ⟨rfl, rfl⟩
    | inprogress => exact ⟨rfl, rfl⟩
    | done => simp only [same]; exact ⟨rfl, rfl⟩

theorem break_fails (master : c.connClass = .devConnectionMaster) (linked : c.connState ≠ .broken)
    (running : c.runningCommand = some cmd) :
    (c.runningCommandStatus = .send →
      c.connectionError.failed = c.failed ++ [cmd.id] ∧ c.connectionError.runningCommand = none) ∧
    (c.runningCommandStatus ≠ .send →
      c.connectionError.failed = c.failed ∧ c.connectionError.runningCommand = some cmd) := by
  unfold connectionError failSentCommand close
  simp only [master, if_neg linked, running]
  constructor
  · intro sent
    rw [if_pos sent]
    split <;> exact ⟨rfl, rfl⟩
  · intro unsent
    rw [if_neg unsent]
    exact ⟨rfl, rfl⟩

/-- What becomes of the commands of a connection that loses its socket: each is completed once at most; at a reconnect
only the auth of the old socket runs, which is deleted; a break of the link to centrald fails the command that was sent;
when the link is up again each command that is left can be written and answered. -/
structure GoesOn (c : Sender) : Prop where
  once : (c.finished ++ c.failed ++ c.discarded ++ c.commands.map Command.id).Nodup
  reconnect : ∀ connects ok, c.Enabled (.reconnectSocket connects ok) →
    (∀ cmd ∈ c.runningCommand, cmd.cls = .sendKey) ∧ (c.reconnectSocket connects ok).commands = c.commandQue ∧
    (c.reconnectSocket connects ok).discarded = c.discarded ++ c.runningCommand.toList.map Command.id
  breaks : c.connClass = .devConnectionMaster → c.connState ≠ .broken → ∀ cmd ∈ c.runningCommand,
    (c.runningCommandStatus = .send →
      c.connectionError.failed = c.failed ++ [cmd.id] ∧ c.connectionError.runningCommand = none) ∧
    (c.runningCommandStatus ≠ .send →
      c.connectionError.failed = c.failed ∧ c.connectionError.runningCommand = some cmd)
  again : c.sock.isSome → c.connState ≠ .inprogress → c.handling = false →
    ∀ cmd ∈ c.commands, ∃ s, Reaches step Proper c s ∧ cmd.id ∈ s.finished

theorem Going.goesOn (going : c.Going) : c.GoesOn where
  once := (going.kept.places.nodup_iff).mp List.nodup_range
  reconnect connects ok enabled := by
    have only : ∀ cmd ∈ c.runningCommand, cmd.cls = .sendKey := fun cmd running =>
      (going.awaiting enabled.2.2 enabled.2.1 cmd running).1
    obtain ⟨commands, discarded⟩ := reconnectSocket_commands enabled.2.2 connects ok
    refine ⟨only, ?_, ?_⟩
    · rw [commands]
      cases running : c.runningCommand with
      | none => rfl
      | some cmd => simp [only cmd running]
    · rw [discarded]
      cases running : c.runningCommand with
      | none => rfl
      | some cmd => simp [only cmd running]
  breaks master linked _ running := break_fails master linked running
  again link connected free _ mem := link_finishes going link connected free (List.mem_map_of_mem mem)

/-- In every run of a connection this side opens, or of the link to centrald, no command is stuck by a loss of the
socket. -/
theorem commands_go_on {connClass : ConnClass} {connState : ConnState} {sock : Bool}
    (made : Constructed connClass connState sock) (bopState : Status) (es : List QueEvent)
    (runs : Guarded step Proper (fresh connClass connState sock bopState) es) :
    (run step (fresh connClass connState sock bopState) es).GoesOn := by
  have start : (fresh connClass connState sock bopState).Going :=
    ⟨fresh_kept connClass connState sock bopState, fresh_flows made bopState, awaiting_none rfl⟩
  exact (run_invariant step Proper Going step_going _ es start runs).goesOn

def retriedRun : List QueEvent :=
  [.init .done true, .queCommand maskedRequest true, .queSend keyRequest true, .reconnectSocket .done true,
    .queSend keyRequest true, .commandReturn, .setConnState .authOk true, .returned false true]

theorem commands_go_on_sample : (run step (fresh (.connection true) .connecting false 0) retriedRun).GoesOn :=
  commands_go_on client_constructed 0 retriedRun (by decide)

/-- The auth of the old socket is neither failed nor written again. -/
theorem auth_deleted : ¬ ∀ es : List QueEvent, Guarded step Proper (fresh (.connection true) .connecting false 0) es →
    ∀ connects ok, (run step (fresh (.connection true) .connecting false 0) es).Enabled (.reconnectSocket connects ok) →
      ∀ cmd ∈ (run step (fresh (.connection true) .connecting false 0) es).runningCommand,
        cmd.id ∈ ((run step (fresh (.connection true) .connecting false 0) es).reconnectSocket connects ok).failed ∨
        cmd.id ∈ ((run step (fresh (.connection true) .connecting false 0) es).reconnectSocket connects ok).commands.map
          Command.id := by
  intro law
  have lost := law [.init .done true, .queSend keyRequest true] (by decide) .done true (by decide)
  revert lost
  decide

end Sender

end Rts2.Kernel
