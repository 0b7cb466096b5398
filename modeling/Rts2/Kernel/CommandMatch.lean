import Rts2.Kernel.CommandFlow

/-! Commands and their replies: what holds of a connection whatever it is asked to send, and however
often its link breaks and is made again. -/
namespace Rts2.Kernel

open Lib

namespace Sender

variable {c s : Sender} {cmd : Command} {ok : Bool}

/-- At most one command is out, the returns of a socket are of the commands written on it, in
their order, and a socket is lost with at most one command that was not answered. A command is
answered once for each time its handler puts it back, and once more to be finished; until then it
runs, is on the queue, or was failed or discarded. -/
structure Matched (c : Sender) : Prop where
  single : c.unanswered.length ≤ 1
  matched : ∀ sock, c.answeredOn sock <+: c.writtenOn sock
  once : ∀ sock, (c.writtenOn sock).length ≤ (c.answeredOn sock).length + 1
  current : ∀ sock, c.sock = some sock → c.writtenOn sock = c.answeredOn sock ++ c.unanswered
  cycles : (c.answered.map Prod.snd).Perm (c.requeued ++ c.finished ++ c.inHandler)
  places : (List.range c.made).Perm
    (c.finished ++ c.failed ++ c.discarded ++ c.commands.map Command.id)

def Ready (c : Sender) (cmd : Command) : Prop := cmd.WhileState ↔ c.Shows cmd

/-- The command is not sent in the state the connection is in, there is a state in which it is,
and the update to such a state writes it. -/
def Awaits (c : Sender) (cmd : Command) : Prop :=
  ¬ c.Ready cmd ∧ (∃ word, { c with bopState := word }.Ready cmd) ∧
    ∀ word, { c with bopState := word }.Ready cmd → (c.setBopState word true).unanswered = [cmd.id]

/-- When the link is up and nothing is out, the running command awaits a state of the other side,
and without one the queue of an authorized connection is empty. -/
def Working (c : Sender) : Prop :=
  c.sock.isSome → c.connState ≠ .inprogress → c.handling = false → c.unanswered = [] →
    (∀ cmd ∈ c.runningCommand, c.Awaits cmd) ∧
      (c.runningCommand = none → c.connState = .authOk ∨ c.connState = .connected →
        c.commandQue = [])

theorem Kept.matched (kept : c.Kept) : c.Matched := by
  refine ⟨?_, fun sock => ?_, fun sock => ?_, fun sock opened => (kept.opened sock opened).2,
    kept.cycles, kept.places⟩
  · obtain answered | ⟨cmd, _, out, _⟩ := kept.out
    · simp [answered]
    · simp [out]
  · obtain ⟨rest, _, same⟩ := kept.paired sock
    exact ⟨rest, same.symm⟩
  · obtain ⟨rest, short, same⟩ := kept.paired sock
    rw [same, List.length_append]
    exact Nat.add_le_add_left short _

theorem Kept.written_of_finished (kept : c.Kept) {id : Nat} (finished : id ∈ c.finished) :
    id ∈ c.written.map Prod.snd := by
  have answered : id ∈ c.answered.map Prod.snd :=
    kept.cycles.mem_iff.mpr (List.mem_append_left _ (List.mem_append_right _ finished))
  obtain ⟨entry, mem, named⟩ := List.mem_map.mp answered
  obtain ⟨rest, _, same⟩ := kept.paired entry.1
  have here : id ∈ c.answeredOn entry.1 :=
    List.mem_map.mpr ⟨entry, List.mem_filter.mpr ⟨mem, decide_eq_true rfl⟩, named⟩
  have written : id ∈ c.writtenOn entry.1 := by
    rw [same]
    exact List.mem_append_left _ here
  obtain ⟨write, write_mem, same_id⟩ := List.mem_map.mp written
  exact List.mem_map.mpr ⟨write, (List.mem_filter.mp write_mem).1, same_id⟩

theorem held_unready {c : Sender} {cmd : Command} (held : c.Held cmd) : ¬ c.Ready cmd := by
  have hidden := held.2.2
  unfold Ready
  tauto

theorem sendable_ready (c : Sender) {cmd : Command} (sendable : cmd.Sendable) :
    ∃ word, { c with bopState := word }.Ready cmd := by
  unfold Command.Sendable at sendable
  by_cases whileState : cmd.WhileState
  · rw [if_pos whileState] at sendable
    refine ⟨cmd.bopMask, iff_of_true whileState ?_⟩
    simpa [Shows, getFullBopState] using sendable.1
  · refine ⟨0, iff_of_false whileState ?_⟩
    simp [Shows, getFullBopState]

theorem ready_written {c : Sender} {cmd : Command} (running : c.runningCommand = some cmd)
    (progress : cmd.getStatusCallProgress = cipRun) (sendable : cmd.Sendable) (ready : c.Ready cmd)
    (opened : c.sock.isSome) (up : c.connState ≠ .inprogress) :
    (c.sendCommand true).unanswered = c.unanswered ++ [cmd.id] := by
  have ran := sendCommand_ran running true
  generalize c.sendCommand true = s at ran
  cases ran with
  | stuck status never => exact absurd sendable never
  | held status held same =>
    have hidden := (held sendable).2.2
    rw [Command.set_whileState, shows_set] at hidden
    unfold Ready at ready
    tauto
  | written s r sock runs =>
    cases runs with
    | same r id => rw [id]
    | asks masked plain uncalled =>
      rw [progress] at uncalled
      exact absurd uncalled (by decide)
  | lost s t r runs fell => exact absurd fell (runs_upright runs opened up t)
  | failed fails => contradiction
  | askFailed fails => contradiction

theorem Held.awaits {c : Sender} {cmd : Command} (running : c.runningCommand = some cmd)
    (held : c.Held cmd) (opened : c.sock.isSome) (up : c.connState ≠ .inprogress)
    (answered : c.unanswered = []) : c.Awaits cmd := by
  have unready := held_unready held
  obtain ⟨progress, sendable, _⟩ := held
  refine ⟨unready, sendable_ready c sendable, fun word ready => ?_⟩
  have waits : c.runningCommand.any (·.getStatusCallProgress = cipRun) = true := by
    simpa [running] using progress
  have written := ready_written (c := { c with bopState := word }) running progress sendable ready
    opened up
  unfold setBopState
  dsimp only
  rw [if_pos waits, written, answered]
  rfl

theorem Flows.working (flows : c.Flows) : c.Working := by
  intro opened up free answered
  refine ⟨fun cmd running => ?_, fun idle ready => flows.idle idle ready opened⟩
  obtain ⟨_, closed | connecting, _⟩ | held := flows.running cmd running free answered
  · simp [closed] at opened
  · exact absurd connecting up
  · exact held.awaits running opened up answered

/-- Whatever a connection is asked to send, and however often its link breaks: commands and replies
match, and the queue is worked off if no reconnect puts a command on it that cannot be sent. -/
theorem commands_matched {connClass : ConnClass} {connState : ConnState} {sock : Bool}
    (made : Constructed connClass connState sock) (bopState : Status) (es : List QueEvent)
    (runs : Guarded step Enabled (fresh connClass connState sock bopState) es) :
    (run step (fresh connClass connState sock bopState) es).Matched ∧
      (Guarded step Again (fresh connClass connState sock bopState) es →
        (run step (fresh connClass connState sock bopState) es).Working) := by
  have start := fresh_kept connClass connState sock bopState
  constructor
  · exact (run_invariant step Enabled Kept step_kept _ es start runs).matched
  · intro again
    have both := run_invariant step (fun c e => c.Enabled e ∧ c.Again e) (fun c => c.Kept ∧ c.Flows)
      (fun c e kept guard => ⟨step_kept c e kept.1 guard.1,
        step_flows c e kept.1 kept.2 guard.1 guard.2⟩) _ es
      ⟨start, fresh_flows made bopState⟩ (guarded_and.mpr ⟨runs, again⟩)
    exact both.2.working

def keyRequest : Request := { commandRegister with cls := .sendKey }

def maskedRequest : Request :=
  { cls := .plain, bopMask := 0x01000000, originator := none
    notCalled := by decide, states := by decide }

def waitingRun : List QueEvent :=
  [.init .done true, .queCommand maskedRequest true, .queSend keyRequest true, .commandReturn,
    .setConnState .authOk true, .returned false true, .setBopState 0x01000000 true, .commandReturn,
    .returned false true, .setBopState 0 true]

theorem client_constructed : Constructed (.connection true) .connecting false :=
  ⟨by decide, by decide⟩

theorem commands_matched_sample :
    (run step (fresh (.connection true) .connecting false 0) waitingRun).Matched ∧
      (Guarded step Again (fresh (.connection true) .connecting false 0) waitingRun →
        (run step (fresh (.connection true) .connecting false 0) waitingRun).Working) :=
  commands_matched client_constructed 0 waitingRun (by decide)

/-- An auth is not answered before the socket is given up: the first return is of the next auth. -/
theorem replies_shifted : ¬ ∀ es : List QueEvent,
    Guarded step Enabled (fresh (.connection true) .connecting false 0) es →
      (run step (fresh (.connection true) .connecting false 0) es).answered.map Prod.snd <+:
        (run step (fresh (.connection true) .connecting false 0) es).written.map Prod.snd := by
  intro law
  have prefix_ := law [.init .done true, .queSend keyRequest true, .reconnectSocket .done true,
    .queSend keyRequest true, .commandReturn] (by decide)
  revert prefix_
  decide

end Sender

end Rts2.Kernel
