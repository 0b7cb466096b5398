import Rts2.Kernel.Reconnect

/-! The link of a device to centrald: the register is the first command on each new socket, if no command stands in its
way that was not failed before. -/
namespace Rts2.Kernel

open Lib

namespace Sender

variable {c s : Sender} {cmd : Command} {ok : Bool}

def Completes (e : QueEvent) : Prop := e = .init .done true ∨ e = .connConnected true

instance : DecidablePred Completes
  | .init connects ok => decidable_of_iff (connects = .done ∧ ok = true) (by simp [Completes])
  | .connConnected ok => decidable_of_iff (ok = true) (by simp [Completes])
  | .queCommand .. | .queSend .. | .queClear | .commandReturn | .returned .. | .setBopState .. | .masterStateChanged _
  | .setConnState .. | .connectionError | .reconnectSocket .. | .deleteConnection _ => isFalse (by simp [Completes])

/-- The new socket is there, the register is the running command, and it alone was written on the socket. -/
def Registered (c s : Sender) : Prop :=
  ∃ cmd sock, s.runningCommand = some cmd ∧ cmd.cls = .register ∧ cmd.id = c.made ∧ s.sock = some sock ∧
    s.writtenOn sock = [cmd.id]

/-- Every command is in one place, it is written once, and once more for each time it is put back by its handler, what
is finished was written, and what is left on a link that is up can be written and answered. -/
structure Settled (c : Sender) : Prop where
  once : (c.finished ++ c.failed ++ c.discarded ++ c.commands.map Command.id).Nodup
  writes : ∀ id, (c.written.map Prod.snd).count id ≤ c.requeued.count id + 1
  finished : ∀ id ∈ c.finished, id ∈ c.written.map Prod.snd
  again : c.sock.isSome → c.connState ≠ .inprogress → c.handling = false →
    ∀ cmd ∈ c.commands, ∃ s, Reaches step Proper c s ∧ cmd.id ∈ s.finished

def Obeys (c : Sender) (e : QueEvent) : Prop := (Completes e → Registered c (c.step e)) ∧ (c.step e).Settled

/-- What runs when the link connects is failed or displaced, and failing it does not end the link. -/
def Holds (c : Sender) (e : QueEvent) : Prop :=
  Completes e → ∀ cmd ∈ c.runningCommand,
    c.runningCommandStatus = .waiting ∨ c.runningCommandStatus = .send ∧ cmd.cls ≠ .register

instance (c : Sender) : DecidablePred c.Holds := fun _ => inferInstanceAs (Decidable (_ → _))

/-- A link that is broken has no socket, and nothing is written before it is connected; a write that was not answered is
of the command that is out, or of one that was failed. -/
structure Link (c : Sender) : Prop where
  master : c.connClass = .devConnectionMaster
  broken : c.connState = .broken → c.sock = none
  quiet : ∀ sock, c.sock = some sock → c.connState = .inprogress → c.writtenOn sock = []
  writes : ∀ id, (c.written.map Prod.snd).count id ≤
    (c.answered.map Prod.snd).count id + c.unanswered.count id + c.failed.count id

theorem Link.same (link : c.Link) (class_ : s.connClass = c.connClass) (state : s.connState = c.connState)
    (sock : s.sock = c.sock) (written : s.written = c.written) (unanswered : s.unanswered = c.unanswered)
    (answered : s.answered = c.answered) (failed : s.failed = c.failed) : s.Link := by
  refine ⟨class_ ▸ link.master, state ▸ sock ▸ link.broken, fun here opened connecting => ?_, fun id => ?_⟩
  · unfold writtenOn
    rw [written]
    exact link.quiet here (sock ▸ opened) (state ▸ connecting)
  · rw [written, answered, unanswered, failed]
    exact link.writes id

theorem Link.close (link : c.Link) (state : ConnState) (connecting : state ≠ .inprogress)
    (answered : c.unanswered = []) : (c.close state).Link := by
  refine ⟨link.master, fun _ => rfl, nofun, fun id => ?_⟩
  have writes := link.writes id
  rw [answered] at writes
  exact writes

theorem Link.written (link : c.Link) {sock : Nat} (opened : c.sock = some sock) (up : c.connState ≠ .inprogress)
    (id : Nat) {t : Sender} (class_ : t.connClass = c.connClass) (state : t.connState = c.connState) (sock' : t.sock = c.sock)
    (written : t.written = c.written ++ [(sock, id)]) (unanswered : t.unanswered = c.unanswered ++ [id])
    (answered : t.answered = c.answered) (failed : t.failed = c.failed) : t.Link := by
  refine ⟨class_.trans link.master, fun broken => ?_, fun _ _ connecting => absurd (state ▸ connecting) up, fun other => ?_⟩
  · rw [sock']
    exact link.broken (state ▸ broken)
  · have writes := link.writes other
    rw [written, unanswered, answered, failed]
    simp only [List.map_append, List.map_cons, List.map_nil, List.count_append]
    omega

theorem ran_link (link : c.Link) (answered : c.unanswered = []) (running : c.runningCommand = some cmd)
    (ran : c.Ran cmd ok s) : s.Link := by
  cases ran with
  | stuck => exact ⟨link.master, link.broken, link.quiet, link.writes⟩
  | held => exact ⟨link.master, link.broken, link.quiet, link.writes⟩
  | written s r sock runs opened up wrote =>
    cases runs with
    | same r => exact link.written opened up r.id rfl rfl rfl rfl rfl rfl rfl
    | asks => exact link.written opened up c.statInfoCall.id rfl rfl rfl rfl rfl rfl rfl
  | lost s t r runs fell =>
    have same : s.Link ∧ s.unanswered = [] := by
      cases runs with
      | same => exact ⟨⟨link.master, link.broken, link.quiet, link.writes⟩, answered⟩
      | asks => exact ⟨⟨link.master, link.broken, link.quiet, link.writes⟩, answered⟩
    have fallen : t.Link := by
      cases fell with
      | skipped => exact same.1
      | dropped fails state closed =>
        refine same.1.close state ?_ same.2
        rcases closed with rfl | rfl
        · decide
        · decide
    exact ⟨fallen.master, fallen.broken, fallen.quiet, fallen.writes⟩
  | failed =>
    refine ⟨link.master, fun _ => rfl, nofun, fun id => ?_⟩
    have writes := link.writes id
    rw [answered] at writes
    dsimp only [Sender.close]
    rw [List.count_append, List.count_nil]
    rw [List.count_nil] at writes
    omega
  | askFailed =>
    refine ⟨link.master, fun _ => rfl, nofun, fun id => ?_⟩
    have writes := link.writes id
    rw [answered] at writes
    dsimp only [Sender.close]
    rw [List.count_append, List.count_nil]
    rw [List.count_nil] at writes
    omega

theorem sendCommand_link (link : c.Link) (answered : c.unanswered = []) (ok : Bool) : (c.sendCommand ok).Link := by
  cases running : c.runningCommand with
  | none =>
    unfold sendCommand
    rw [running]
    exact link
  | some cmd => exact ran_link link answered running (sendCommand_ran running ok)

theorem unanswered_of_closed (kept : c.Kept) (closed : c.sock = none) : c.unanswered = [] := by
  obtain answered | ⟨_, _, _, _, _, _, opened, _⟩ := kept.out
  · exact answered
  · simp [closed] at opened

theorem connectionError_link (kept : c.Kept) (link : c.Link) : c.connectionError.Link := by
  have closed : c.connectionError.sock = none ∧ c.connectionError.written = c.written ∧
      c.connectionError.answered = c.answered ∧ c.connectionError.unanswered = [] := by
    obtain ⟨state, _, same⟩ | ⟨cmd, _, _, same⟩ := c.connectionError_cases
    · rw [same]
      exact ⟨rfl, rfl, rfl, rfl⟩
    · rw [same]
      exact ⟨rfl, rfl, rfl, rfl⟩
  obtain ⟨sock, written, answered, unanswered⟩ := closed
  have failed (id : Nat) : c.unanswered.count id + c.failed.count id ≤ c.connectionError.failed.count id := by
    by_cases linked : c.connState = .broken
    · have none := unanswered_of_closed kept (link.broken linked)
      have same : c.connectionError = c.close .broken := by
        unfold connectionError
        simp only [link.master, if_pos linked]
      rw [none, same]
      exact (Nat.zero_add _).le
    · obtain none | ⟨cmd, running, out, sent, _⟩ := kept.out
      · rw [none, List.count_nil, Nat.zero_add]
        obtain ⟨state, _, same⟩ | ⟨cmd, _, _, same⟩ := c.connectionError_cases
        · rw [same]
          exact Nat.le_refl _
        · rw [same, List.count_append]
          exact Nat.le_add_right _ _
      · rw [((break_fails link.master linked running).1 sent).1, out, List.count_append]
        omega
  refine ⟨(connectionError_class c).trans link.master, fun _ => sock, ?_, fun id => ?_⟩
  · rw [sock]
    exact nofun
  · have writes := link.writes id
    have more := failed id
    rw [written, answered, unanswered, List.count_nil]
    omega

theorem sendNextCommand_link (link : c.Link) (answered : c.unanswered = []) (ok : Bool) :
    (c.sendNextCommand ok).Link := by
  unfold sendNextCommand
  split
  · exact ⟨link.master, link.broken, link.quiet, link.writes⟩
  · refine sendCommand_link ?_ ?_ ok
    · exact link.same rfl rfl rfl rfl rfl rfl rfl
    · exact answered

theorem queSend_link (kept : c.Kept) (link : c.Link) (req : Request) (ok : Bool) : (c.queSend req ok).Link := by
  unfold queSend
  dsimp only
  split
  · exact ⟨link.master, link.broken, link.quiet, link.writes⟩
  · split
    · rename_i idle
      have answered := (kept.toSingle.idle idle).1
      refine sendCommand_link ?_ ?_ ok
      · exact link.same rfl rfl rfl rfl rfl rfl rfl
      · exact answered
    · split
      · exact ⟨link.master, link.broken, link.quiet, link.writes⟩
      · rename_i displaced
        have answered := (kept.toSingle.waiting (waiting_of_displaced displaced)).1
        refine sendCommand_link ?_ ?_ ok
        · exact link.same rfl rfl rfl rfl rfl rfl rfl
        · exact answered

theorem failSentCommand_link (link : c.Link) (answered : c.unanswered = []) : c.failSentCommand.Link := by
  have more (id : Nat) (cmd : Command) : (c.written.map Prod.snd).count id ≤
      (c.answered.map Prod.snd).count id + c.unanswered.count id + (c.failed ++ [cmd.id]).count id := by
    have writes := link.writes id
    rw [List.count_append]
    omega
  unfold failSentCommand
  split
  · exact link
  · rename_i cmd running
    split
    · dsimp only
      split
      · refine ⟨link.master, fun _ => rfl, nofun, fun id => ?_⟩
        have writes := more id cmd
        rw [answered] at writes
        exact writes
      · exact ⟨link.master, link.broken, link.quiet, fun id => more id cmd⟩
    · exact link

theorem connConnected_master (master : c.connClass = .devConnectionMaster) (ok : Bool) :
    c.connConnected ok = ({ c with connState := .authPending }.failSentCommand).queSend commandRegister ok := by
  unfold connConnected
  split
  · rename_i connection
    rw [master] at connection
    cases connection
  · rfl

theorem connConnected_link (kept : c.Kept) (link : c.Link) (answered : c.unanswered = []) (ok : Bool) :
    (c.connConnected ok).Link := by
  rw [connConnected_master link.master]
  have moved : Link { c with connState := .authPending } := ⟨link.master, nofun, nofun, link.writes⟩
  have still : Kept { c with connState := .authPending } := moved_kept kept .authPending (by decide)
  exact queSend_link (failSentCommand_kept still answered) (failSentCommand_link moved answered) _ ok

theorem opened_kept (kept : c.Kept) (closed : c.sock = none) :
    { c with sock := some c.socks, socks := c.socks + 1 }.Kept ∧
      { c with sock := some c.socks, socks := c.socks + 1 }.writtenOn c.socks = [] := by
  have answered := unanswered_of_closed kept closed
  have pairs := paired_opened kept.toPaired answered
  refine ⟨⟨⟨kept.places, kept.cycles⟩, pairs, ⟨.inl answered, kept.handler⟩⟩, ?_⟩
  unfold writtenOn
  rw [List.map_eq_nil_iff, List.filter_eq_nil_iff]
  intro entry listed here
  exact absurd (of_decide_eq_true here) (Nat.ne_of_lt (kept.socks entry listed))

theorem init_link (kept : c.Kept) (link : c.Link) (closed : c.sock = none) (connects : Connects) (ok : Bool) :
    (c.init connects ok).Link := by
  obtain ⟨opened, unwritten⟩ := opened_kept kept closed
  have answered := unanswered_of_closed kept closed
  unfold init
  cases connects with
  | inprogress =>
    refine ⟨link.master, nofun, fun sock here _ => ?_, link.writes⟩
    obtain rfl := Option.some.inj here
    exact unwritten
  | done =>
    -- connConnected leaves INPROGRESS and BROKEN before it writes
    have master : ({ c with sock := some c.socks, socks := c.socks + 1 } : Sender).connClass = .devConnectionMaster :=
      link.master
    have moved : Link { c with sock := some c.socks, socks := c.socks + 1, connState := .authPending } :=
      ⟨link.master, nofun, nofun, link.writes⟩
    have still := moved_kept opened .authPending (by decide)
    dsimp only
    rw [connConnected_master master]
    exact queSend_link (failSentCommand_kept still answered) (failSentCommand_link moved answered) _ ok
  | failed =>
    simp only [link.master]
    exact connectionError_link kept link

theorem setConnState_link (kept : c.Kept) (link : c.Link) {state : ConnState} (up : state ≠ .inprogress)
    (linked : state ≠ .broken) (ok : Bool) : (c.setConnState state ok).Link := by
  have next : (if (state = .authOk ∨ state = .connected) ∧ c.runningCommand = none then c.sendNextCommand ok
      else c).Kept ∧ (if (state = .authOk ∨ state = .connected) ∧ c.runningCommand = none then c.sendNextCommand ok
      else c).Link := by
    split
    · rename_i starts
      exact ⟨startNext_kept kept starts.2 ok, sendNextCommand_link link (kept.toSingle.idle starts.2).1 ok⟩
    · exact ⟨kept, link⟩
  unfold setConnState
  dsimp only
  generalize (if (state = .authOk ∨ state = .connected) ∧ c.runningCommand = none then c.sendNextCommand ok
    else c) = t at next
  obtain ⟨kept, link⟩ := next
  have moved : Link { t with connState := state } :=
    ⟨link.master, fun broken => absurd broken linked, fun _ _ connecting => absurd connecting up, link.writes⟩
  split
  · exact connectionError_link (moved_kept kept state up) moved
  · exact moved

theorem commandReturn_link (kept : c.Kept) (link : c.Link) (reply : c.unanswered ≠ []) : c.commandReturn.Link := by
  obtain answered | ⟨cmd, running, out, _, _, _, opened, _⟩ := kept.out
  · exact absurd answered reply
  obtain ⟨sock, opened⟩ := Option.isSome_iff_exists.mp opened
  unfold commandReturn
  split
  · rename_i idle
    rw [running] at idle
    cases idle
  · rename_i other runs
    obtain rfl := Option.some.inj (running.symm.trans runs)
    refine ⟨link.master, link.broken, link.quiet, fun id => ?_⟩
    have writes := link.writes id
    rw [out] at writes
    simp only [out, opened, Option.map_some, Option.toList_some, List.map_append, List.map_cons, List.map_nil,
      List.count_append, List.tail_cons, List.count_nil]
    omega

theorem again_link (kept : c.Kept) (link : c.Link) (bopState : Status) (ok : Bool)
    (waits : c.runningCommand.any (·.getStatusCallProgress = cipRun) = true) :
    ({ c with bopState := bopState }.sendCommand ok).Link := by
  obtain ⟨cmd, running, progress⟩ := (Option.any_eq_true _ _).mp waits
  have answered := (kept.toSingle.again running (of_decide_eq_true progress)).1
  refine sendCommand_link ?_ ?_ ok
  · exact link.same rfl rfl rfl rfl rfl rfl rfl
  · exact answered

theorem step_link (c : Sender) (e : QueEvent) (kept : c.Kept) (link : c.Link) (enabled : c.Enabled e) :
    (c.step e).Link := by
  cases e with
  | queCommand req ok =>
    unfold step queCommand
    dsimp only
    split
    · exact link.same rfl rfl rfl rfl rfl rfl rfl
    · rename_i free
      have idle : c.runningCommand = none := by
        by_contra running
        exact free (.inl (Option.isSome_iff_ne_none.mpr running))
      refine sendCommand_link ?_ ?_ ok
      · exact link.same rfl rfl rfl rfl rfl rfl rfl
      · exact (kept.toSingle.idle idle).1
  | queSend req ok => exact queSend_link kept link req ok
  | queClear => exact link.same rfl rfl rfl rfl rfl rfl rfl
  | commandReturn => exact commandReturn_link kept link enabled.2
  | returned reque ok =>
    obtain ⟨_, _, _, _, answered⟩ := kept.handler enabled.1
    unfold step returned
    dsimp only
    split
    · refine sendCommand_link ?_ ?_ ok
      · exact link.same rfl rfl rfl rfl rfl rfl rfl
      · exact answered
    · refine sendNextCommand_link ?_ ?_ ok
      · exact link.same rfl rfl rfl rfl rfl rfl rfl
      · exact answered
  | setBopState in_value ok =>
    unfold step setBopState
    dsimp only
    split
    · rename_i waits
      exact again_link kept link in_value ok waits
    · exact link.same rfl rfl rfl rfl rfl rfl rfl
  | masterStateChanged ok =>
    unfold step masterStateChanged
    dsimp only
    split
    · rename_i waits
      exact again_link kept link c.bopState ok waits
    · exact link
  | setConnState state ok =>
    refine setConnState_link kept link ?_ enabled.2.2.2 ok
    rintro rfl
    exact enabled.2.2.1 (.inr (.inr (.inr rfl)))
  | connectionError => exact connectionError_link kept link
  | init connects ok => exact init_link kept link enabled.2.1 connects ok
  | connConnected ok =>
    refine connConnected_link kept link ?_ ok
    obtain answered | ⟨_, _, _, _, _, _, _, up⟩ := kept.out
    · exact answered
    · exact absurd enabled.2.2 up
  | reconnectSocket connects ok => exact absurd link.master enabled.2.2
  | deleteConnection conn => exact link.same rfl rfl rfl rfl rfl rfl rfl

theorem current_le (kept : c.Kept) (id : Nat) :
    c.inHandler.count id + c.unanswered.count id ≤ (c.commands.map Command.id).count id := by
  unfold commands
  rw [List.map_append, List.count_append]
  by_cases handles : c.handling = true
  · obtain ⟨_, _, _, _, answered⟩ := kept.handler handles
    unfold inHandler
    rw [answered, if_pos handles, List.count_nil]
    omega
  · unfold inHandler
    rw [if_neg handles, List.count_nil]
    obtain answered | ⟨cmd, running, out, _⟩ := kept.out
    · rw [answered, List.count_nil]
      omega
    · rw [out, running, Option.toList_some, List.map_singleton]
      omega

theorem settled (kept : c.Kept) (flows : c.Flows) (link : c.Link) : c.Settled where
  once := (kept.places.nodup_iff).mp List.nodup_range
  writes id := by
    have once := List.nodup_iff_count_le_one.mp ((kept.places.nodup_iff).mp List.nodup_range) id
    have cycles := (List.perm_iff_count.mp kept.cycles) id
    have current := current_le kept id
    have writes := link.writes id
    simp only [List.count_append] at once cycles
    omega
  finished id mem := kept.written_of_finished mem
  again opened connected free cmd mem := by
    have going : c.Going := ⟨kept, flows, fun other => absurd link.master other⟩
    exact link_finishes going opened connected free (List.mem_map_of_mem mem)

theorem sendCommand_takes {sock : Nat} (running : c.runningCommand = some cmd) (unmasked : cmd.bopMask = 0)
    (opened : c.sock = some sock) (up : c.connState ≠ .inprogress) : c.sendCommand true = { c with
      runningCommandStatus := .send
      unanswered := c.unanswered ++ [cmd.id]
      written := c.written ++ [(sock, cmd.id)] } := by
  unfold sendCommand
  split
  · rename_i idle
    rw [running] at idle
    cases idle
  · rename_i other runs
    obtain rfl := Option.some.inj (running.symm.trans runs)
    rw [if_neg (not_not.mpr unmasked)]
    unfold send
    split
    · rename_i closed
      rw [opened] at closed
      cases closed
    · rename_i here opens
      obtain rfl := Option.some.inj (opened.symm.trans opens)
      rw [if_neg up, if_pos rfl]

theorem sendCommand_closed (running : c.runningCommand = some cmd) (unmasked : cmd.bopMask = 0)
    (closed : c.sock = none) (ok : Bool) : (c.sendCommand ok).sock = none := by
  unfold sendCommand
  rw [running]
  simp only [unmasked, ne_eq, not_true_eq_false, if_false]
  unfold send
  simp only [closed]

theorem queSend_idle (idle : c.runningCommand = none)
    (away : ¬ (c.connState = .connecting ∨ c.connState = .inprogress ∨ c.connState = .unknow)) (req : Request) (ok : Bool) :
    c.queSend req ok = { c with made := c.made + 1, runningCommand := some (c.accept req) }.sendCommand ok := by
  unfold queSend
  dsimp only
  rw [if_neg away]
  split
  · rfl
  · rename_i runs
    rw [idle] at runs
    cases runs

theorem queSend_registered {sock : Nat} (pending : c.connState = .authPending) (opened : c.sock = some sock)
    (quiet : c.writtenOn sock = []) (displaced : c.runningCommand = none ∨ c.runningCommandStatus = .waiting)
    (made : s.made = c.made) : Registered s (c.queSend commandRegister true) := by
  have away : ¬ (c.connState = .connecting ∨ c.connState = .inprogress ∨ c.connState = .unknow) := by
    rw [pending]
    decide
  have up : c.connState ≠ .inprogress := fun connecting => away (.inr (.inl connecting))
  have takes (que : List Command) : Registered s ({ c with
      made := c.made + 1
      commandQue := que
      runningCommand := some (c.accept commandRegister) }.sendCommand true) := by
    have written := sendCommand_takes (c := { c with
      made := c.made + 1
      commandQue := que
      runningCommand := some (c.accept commandRegister) }) rfl rfl opened up
    rw [written]
    refine ⟨c.accept commandRegister, sock, rfl, rfl, made.symm, opened, ?_⟩
    refine (written_append c sock sock c.made).trans ?_
    rw [quiet, if_pos rfl]
    rfl
  cases running : c.runningCommand with
  | none =>
    rw [queSend_idle running away]
    exact takes c.commandQue
  | some cmd =>
    have waiting := displaced.resolve_left (by rw [running]; exact nofun)
    unfold queSend
    dsimp only
    rw [if_neg away]
    split
    · rename_i idle
      rw [running] at idle
      cases idle
    · rename_i other _
      rw [if_neg (by rw [waiting]; decide)]
      exact takes (other :: c.commandQue)

theorem register_first (kept : c.Kept) (pending : c.connState = .authPending) {sock : Nat}
    (opened : c.sock = some sock) (quiet : c.writtenOn sock = []) :
    Registered c (c.failSentCommand.queSend commandRegister true) ↔ ∀ cmd ∈ c.runningCommand,
      c.runningCommandStatus = .waiting ∨ c.runningCommandStatus = .send ∧ cmd.cls ≠ .register := by
  cases running : c.runningCommand with
  | none =>
    have unchanged : c.failSentCommand = c := by
      unfold failSentCommand
      rw [running]
    rw [unchanged]
    exact iff_of_true (queSend_registered pending opened quiet (.inl running) rfl) (fun _ runs => nomatch runs)
  | some cmd =>
    simp only [Option.mem_def, Option.some.injEq, forall_eq']
    by_cases sent : c.runningCommandStatus = .send
    · have failed : c.failSentCommand = if cmd.cls = .register then
            close { c with runningCommand := none, failed := c.failed ++ [cmd.id] } .broken
          else { c with runningCommand := none, failed := c.failed ++ [cmd.id] } := by
        unfold failSentCommand
        simp only [running, sent, if_true]
      rw [failed, sent]
      split
      · rename_i register
        -- its handler ends the new link
        refine iff_of_false ?_ (by simp [register])
        rintro ⟨_, other, _, _, _, here, _⟩
        rw [queSend_idle rfl (by simp [close]), sendCommand_closed rfl rfl rfl true] at here
        cases here
      · rename_i other
        exact iff_of_true (queSend_registered pending opened quiet (.inl rfl) rfl) (.inr ⟨rfl, other⟩)
    · have unchanged : c.failSentCommand = c := by
        unfold failSentCommand
        simp only [running, if_neg sent]
      rw [unchanged]
      by_cases waiting : c.runningCommandStatus = .waiting
      · exact iff_of_true (queSend_registered pending opened quiet (.inr waiting) rfl) (.inl waiting)
      · refine iff_of_false ?_ (by simp [sent, waiting])
        rintro ⟨first, _, runs, _, number, _⟩
        have returning : c.runningCommandStatus = .returning := by
          by_contra other
          exact waiting (waiting_of_displaced (not_or.mpr ⟨sent, other⟩))
        have pushed : (c.queSend commandRegister true).runningCommand = some cmd := by
          unfold queSend
          simp [running, returning, pending]
        obtain rfl : cmd = first := Option.some.inj (pushed.symm.trans runs)
        have listed : cmd.id ∈ List.range c.made := by
          refine kept.places.mem_iff.mpr (List.mem_append_right _ ?_)
          unfold commands
          rw [running]
          exact List.mem_cons_self
        rw [List.mem_range] at listed
        exact absurd number (Nat.ne_of_lt listed)

theorem connConnected_registered (kept : c.Kept) (master : c.connClass = .devConnectionMaster) {sock : Nat}
    (opened : c.sock = some sock) (quiet : c.writtenOn sock = []) :
    Registered c (c.connConnected true) ↔ ∀ cmd ∈ c.runningCommand,
      c.runningCommandStatus = .waiting ∨ c.runningCommandStatus = .send ∧ cmd.cls ≠ .register := by
  rw [connConnected_master master]
  exact register_first (moved_kept kept .authPending (by decide)) rfl opened quiet

theorem step_registered (kept : c.Kept) (link : c.Link) {e : QueEvent} (enabled : c.Enabled e) :
    (Completes e → Registered c (c.step e)) ↔ c.Holds e := by
  unfold Holds
  by_cases completes : Completes e
  · simp only [completes, true_imp_iff]
    rcases completes with rfl | rfl
    · obtain ⟨opened, quiet⟩ := opened_kept kept enabled.2.1
      exact connConnected_registered opened link.master rfl quiet
    · obtain ⟨sock, opened⟩ := Option.isSome_iff_exists.mp enabled.2.1
      exact connConnected_registered kept link.master opened (link.quiet sock opened enabled.2.2)
  · exact iff_of_true (fun now => absurd now completes) (fun now => absurd now completes)

/-- In every run of the link to centrald: each connect puts the register first on its socket, in front of the commands of
the clients, just when no connect finds a command in its handlers or a register that was not failed. -/
theorem registered_iff (bopState : Status) (es : List QueEvent)
    (runs : Guarded step Enabled (fresh .devConnectionMaster .broken false bopState) es) :
    Guarded step Obeys (fresh .devConnectionMaster .broken false bopState) es ↔
      Guarded step Holds (fresh .devConnectionMaster .broken false bopState) es := by
  refine guarded_congr_invariant (P := fun c => c.Kept ∧ c.Flows ∧ c.Link) ?_ ?_ ?_ runs
  · rintro c e ⟨kept, flows, link⟩ enabled _
    refine ⟨step_kept c e kept enabled, ?_, step_link c e kept link enabled⟩
    refine step_flows c e kept flows enabled ?_
    cases e with
    | reconnectSocket connects ok => exact absurd link.master enabled.2.2
    | _ => trivial
  · rintro c e ⟨kept, flows, link⟩ enabled
    have later := settled (step_kept c e kept enabled) (step_flows c e kept flows enabled ?_) (step_link c e kept link enabled)
    · rw [← step_registered kept link enabled]
      exact and_iff_left later
    · cases e with
      | reconnectSocket connects ok => exact absurd link.master enabled.2.2
      | _ => trivial
  · have made : Constructed .devConnectionMaster .broken false := ⟨rfl, rfl⟩
    exact ⟨fresh_kept .., fresh_flows made bopState, rfl, fun _ => rfl, nofun, fun id => Nat.le_refl 0⟩

def authorizeRequest : Request := { commandRegister with cls := .authorize }

def authorizeRun : List QueEvent :=
  [.init .done true, .commandReturn, .setConnState .authOk true, .returned false true, .queSend authorizeRequest true,
    .connectionError, .queSend authorizeRequest true, .init .inprogress true, .connConnected true]

theorem registered_iff_authorize : Guarded step Obeys (fresh .devConnectionMaster .broken false 0) authorizeRun ↔
    Guarded step Holds (fresh .devConnectionMaster .broken false 0) authorizeRun :=
  registered_iff 0 authorizeRun (by decide)

/-- The write of the first register fails: it runs still when the next socket is connected, and failing it there ends
that link. -/
theorem register_lost : ¬ ∀ es : List QueEvent,
    Guarded step Enabled (fresh .devConnectionMaster .broken false 0) es →
      Guarded step Obeys (fresh .devConnectionMaster .broken false 0) es := by
  intro law
  obtain ⟨_, ⟨registered, _⟩, _⟩ := law [.init .done false, .init .done true] (by decide)
  obtain ⟨_, sock, _, _, _, opened, _⟩ := registered (.inl rfl)
  have closed : (run step (fresh .devConnectionMaster .broken false 0) [.init .done false, .init .done true]).sock = none := by
    decide
  exact nomatch closed.symm.trans opened

end Sender

end Rts2.Kernel
