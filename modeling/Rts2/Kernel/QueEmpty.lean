import Rts2.Kernel.CommandFlow

/-! Whether a connection has commands left. queEmpty and queEmptyForOriginator look at the status of
the running command, which a command that waits for a bit to show leaves as it was. -/
namespace Rts2.Kernel

open Lib

namespace Sender

variable {c s : Sender} {cmd : Command}

def Pending (c : Sender) (cmd : Command) : Prop :=
  cmd ∈ c.commandQue ∨
    c.runningCommand = some cmd ∧ (cmd.getStatusCallProgress = cipRun ∨ cmd.id ∈ c.unanswered)

/-- The queue is empty when nothing is pending, and a command without a mask goes out at once when
none is out. -/
structure QueExact (c : Sender) : Prop where
  queEmpty : c.queEmpty = true ↔ ∀ cmd, ¬ c.Pending cmd
  queEmptyForOriginator : ∀ o, c.queEmptyForOriginator o = true ↔
    ∀ cmd, c.Pending cmd → cmd.originator ≠ o
  queSend : c.handling = false → c.unanswered = [] → ∀ req : Request, req.bopMask = 0 →
    (c.queSend req true).unanswered = [c.made]

def OnLink : QueEvent → Prop
  | .queCommand _ ok | .queSend _ ok | .returned _ ok | .setBopState _ ok
  | .masterStateChanged ok => ok = true
  | .setConnState state ok => ok = true ∧ state ≠ .authFailed
  | .queClear | .commandReturn | .deleteConnection _ => True
  | .connectionError | .init .. | .connConnected _ | .reconnectSocket .. => False

instance : DecidablePred OnLink
  | .queCommand .. | .queSend .. | .returned .. | .setBopState .. | .masterStateChanged _ =>
    inferInstanceAs (Decidable (_ = _))
  | .setConnState .. => inferInstanceAs (Decidable (_ ∧ _))
  | .queClear | .commandReturn | .deleteConnection _ => isTrue trivial
  | .connectionError | .init .. | .connConnected _ | .reconnectSocket .. => isFalse id

def starts (c : Sender) : QueEvent → Option Command
  | .queCommand req _ =>
    if c.runningCommand.isSome ∨ (c.connState ≠ .authOk ∧ c.connState ≠ .connected) then none
    else some (c.accept req)
  | .queSend req _ =>
    if c.runningCommand.isSome ∧ c.runningCommandStatus ≠ .waiting then none
    else some (c.accept req)
  | .returned reque _ => if reque then none else c.commandQue.head?
  | .setConnState state _ =>
    if (state = .authOk ∨ state = .connected) ∧ c.runningCommand = none then c.commandQue.head?
    else none
  | .queClear | .commandReturn | .setBopState .. | .masterStateChanged _ | .connectionError
  | .init .. | .connConnected _ | .reconnectSocket .. | .deleteConnection _ => none

/-- No call starts a command that waits for a bit to show while it does not, unless the status is
WAITING already. -/
def Marks (c : Sender) (e : QueEvent) : Prop :=
  ∀ cmd ∈ c.starts e, cmd.WhileState → c.Shows cmd ∨ c.runningCommandStatus = .waiting

def Marked (c : Sender) : Prop :=
  ∀ cmd, c.runningCommand = some cmd → c.handling = false → c.unanswered = [] →
    c.runningCommandStatus = .waiting

structure Linked (c : Sender) : Prop extends c.Kept, c.Flows where
  link : c.sock.isSome
  up : ¬ Cold c.connState
  unsent : c.runningCommand = none → c.runningCommandStatus ≠ .send

theorem Linked.connected (linked : c.Linked) : c.connState ≠ .inprogress :=
  fun connecting => linked.up (.inr (.inr (.inr connecting)))

theorem Linked.held (linked : c.Linked) (running : c.runningCommand = some cmd)
    (free : c.handling = false) (answered : c.unanswered = []) : c.Held cmd := by
  obtain ⟨_, closed | connecting, _⟩ | held := linked.running cmd running free answered
  · have link := linked.link
    simp [closed] at link
  · exact absurd connecting linked.connected
  · exact held

theorem unmasked_written (running : c.runningCommand = some cmd) (unmasked : cmd.bopMask = 0)
    (link : c.sock.isSome) (up : c.connState ≠ .inprogress) :
    (c.sendCommand true).unanswered = c.unanswered ++ [cmd.id] := by
  obtain ⟨sock, link⟩ := Option.isSome_iff_exists.mp link
  unfold sendCommand
  split
  · rename_i idle
    simp [running] at idle
  · rename_i other runs
    obtain rfl := Option.some.inj (running.symm.trans runs)
    simp [unmasked, send, link, up]

theorem Linked.queSend_runs (linked : c.Linked) (req : Request) (ok : Bool) :
    (c.runningCommand = none ∨ c.runningCommandStatus = .waiting) ∧
      c.queSend req ok = { c with
        made := c.made + 1
        runningCommand := some (c.accept req)
        commandQue := c.commands }.sendCommand ok ∨
    c.runningCommand.isSome ∧ c.runningCommandStatus ≠ .waiting ∧
      c.queSend req ok = { c with made := c.made + 1, commandQue := c.accept req :: c.commandQue } := by
  have up : ¬ (c.connState = .connecting ∨ c.connState = .inprogress ∨ c.connState = .unknow) := by
    have up := linked.up
    unfold Cold at up
    tauto
  unfold queSend
  dsimp only
  rw [if_neg up]
  split
  · rename_i idle
    simp [commands, idle]
  · rename_i running runs
    split
    · rename_i other
      refine .inr ⟨by simp [runs], ?_, rfl⟩
      rcases other with sent | returning
      · simp [sent]
      · simp [returning]
    · rename_i displaced
      refine .inl ⟨.inr (waiting_of_displaced displaced), ?_⟩
      simp [commands, runs]

theorem Linked.pending_iff (linked : c.Linked) (marked : c.Marked)
    (running : c.runningCommand = some cmd) :
    (cmd.getStatusCallProgress = cipRun ∨ cmd.id ∈ c.unanswered) ↔
      c.runningCommandStatus ≠ .returning := by
  cases free : c.handling with
  | true =>
    obtain ⟨other, runs, returning, progress, answered⟩ := linked.handler free
    obtain rfl := Option.some.inj (running.symm.trans runs)
    simp [returning, progress, answered]
  | false =>
    obtain answered | ⟨other, runs, out, sent, _⟩ := linked.out
    · have held := linked.held running free answered
      simp [held.1, marked cmd running free answered]
    · obtain rfl := Option.some.inj (running.symm.trans runs)
      simp [out, sent]

theorem Linked.queEmpty_iff (linked : c.Linked) (marked : c.Marked) :
    c.queEmpty = true ↔ ∀ cmd, ¬ c.Pending cmd := by
  unfold queEmpty Pending
  cases running : c.runningCommand with
  | none => simp [List.isEmpty_iff, List.eq_nil_iff_forall_not_mem]
  | some cmd =>
    have pending := linked.pending_iff marked running
    by_cases returning : c.runningCommandStatus = .returning
    · have idle := pending.not.mpr (not_not.mpr returning)
      rw [if_neg (by simp [returning]), List.isEmpty_iff, List.eq_nil_iff_forall_not_mem]
      constructor
      · rintro none other (listed | ⟨same, waits⟩)
        · exact none other listed
        · obtain rfl := Option.some.inj same
          exact idle waits
      · exact fun none other listed => none other (.inl listed)
    · rw [if_pos (by simp [returning])]
      refine iff_of_false (by simp) fun none => none cmd (.inr ⟨rfl, pending.mpr returning⟩)

theorem Linked.queEmptyForOriginator_iff (linked : c.Linked) (marked : c.Marked) (o : Option Nat) :
    c.queEmptyForOriginator o = true ↔ ∀ cmd, c.Pending cmd → cmd.originator ≠ o := by
  unfold queEmptyForOriginator Pending
  have queue : (!c.commandQue.any (·.originator = o)) = true ↔
      ∀ cmd ∈ c.commandQue, cmd.originator ≠ o := by simp
  cases running : c.runningCommand with
  | none =>
    rw [if_neg (by simp), queue]
    simp
  | some cmd =>
    have pending := linked.pending_iff marked running
    by_cases counted : c.runningCommandStatus ≠ .returning ∧ cmd.originator = o
    · rw [if_pos (by simpa using counted)]
      refine iff_of_false (by simp) fun none => ?_
      exact none cmd (.inr ⟨rfl, pending.mpr counted.1⟩) counted.2
    · rw [if_neg (by simpa using counted), queue]
      constructor
      · rintro others other (listed | ⟨same, waits⟩) here
        · exact others other listed here
        · obtain rfl := Option.some.inj same
          exact counted ⟨pending.mp waits, here⟩
      · exact fun others other listed => others other (.inl listed)

theorem Linked.exact_iff (linked : c.Linked) : c.QueExact ↔ c.Marked := by
  constructor
  · intro exact_ cmd running free answered
    have atOnce := exact_.queSend free answered commandRegister rfl
    obtain ⟨starts, _⟩ | ⟨_, _, pushed⟩ := linked.queSend_runs commandRegister true
    · rcases starts with idle | waiting
      · simp [idle] at running
      · exact waiting
    · rw [pushed, answered] at atOnce
      contradiction
  · intro marked
    refine ⟨linked.queEmpty_iff marked, linked.queEmptyForOriginator_iff marked, ?_⟩
    intro free answered req unmasked
    obtain ⟨_, runs⟩ | ⟨runs, other, _⟩ := linked.queSend_runs req true
    · have written := unmasked_written (c := { c with
        made := c.made + 1
        runningCommand := some (c.accept req)
        commandQue := c.commands }) rfl unmasked linked.link linked.connected
      rw [runs, written, answered]
      rfl
    · obtain ⟨cmd, running⟩ := Option.isSome_iff_exists.mp runs
      exact absurd (marked cmd running free answered) other

theorem sendCommand_marked {c : Sender} (running : c.runningCommand = some cmd)
    (sendable : cmd.Sendable) (link : c.sock.isSome) (up : c.connState ≠ .inprogress)
    (free : c.handling = false) (answered : c.unanswered = []) :
    ((c.sendCommand true).sock = c.sock ∧ (c.sendCommand true).connState = c.connState ∧
        (c.sendCommand true).runningCommand ≠ none) ∧
      ((c.sendCommand true).Marked ↔
        (cmd.WhileState → c.Shows cmd ∨ c.runningCommandStatus = .waiting)) := by
  have ran := sendCommand_ran running true
  generalize c.sendCommand true = s at ran
  cases ran with
  | stuck status never => exact absurd sendable never
  | held status held same =>
    refine ⟨⟨rfl, rfl, by simp⟩, ?_⟩
    have hidden := (held sendable).2.2
    rw [Command.set_whileState, shows_set] at hidden
    have marked : Marked { c with
        runningCommand := some (cmd.setStatusCallProgress cipRun)
        runningCommandStatus := status } ↔ status = .waiting :=
      ⟨fun marked => marked _ rfl free answered, fun waiting _ _ _ _ => waiting⟩
    rw [marked, same]
    by_cases whileState : cmd.WhileState
    · simp [whileState, hidden.mp whileState]
    · simp [whileState]
  | written s r sock runs =>
    have same : s.sock = c.sock ∧ s.connState = c.connState ∧ s.runningCommand ≠ none := by
      cases runs <;> exact ⟨rfl, rfl, by simp⟩
    refine ⟨same, iff_of_true ?_ fun whileState => ?_⟩
    · intro _ _ _ out
      simp at out
    · cases runs with
      | same r id originator cls progress shows_ => exact .inl (shows_ whileState)
      | asks masked plain => exact absurd whileState plain
  | lost s t r runs fell => exact absurd fell (runs_upright runs link up t)
  | failed fails => contradiction
  | askFailed fails => contradiction

/-- The link is up after a call, and where the held was marked, it is if the condition holds. -/
structure Stays (s : Sender) (before condition : Prop) : Prop where
  link : s.sock.isSome
  up : ¬ Cold s.connState
  unsent : s.runningCommand = none → s.runningCommandStatus ≠ .send
  marked : before → (s.Marked ↔ condition)

theorem sendCommand_stays {c : Sender} (running : c.runningCommand = some cmd)
    (sendable : cmd.Sendable) (link : c.sock.isSome) (up : ¬ Cold c.connState)
    (free : c.handling = false) (answered : c.unanswered = []) : Stays (c.sendCommand true) True
      (cmd.WhileState → c.Shows cmd ∨ c.runningCommandStatus = .waiting) := by
  have connected : c.connState ≠ .inprogress := fun state => up (.inr (.inr (.inr state)))
  obtain ⟨⟨sock, state, runs⟩, marked⟩ :=
    sendCommand_marked running sendable link connected free answered
  refine ⟨?_, ?_, fun idle => absurd idle runs, fun _ => marked⟩
  · rwa [sock]
  · rwa [state]

theorem sendNextCommand_stays (queued : ∀ cmd ∈ c.commandQue, cmd.Sendable) (link : c.sock.isSome)
    (up : ¬ Cold c.connState) (free : c.handling = false) (answered : c.unanswered = [])
    (unsent : c.runningCommandStatus ≠ .send) : Stays (c.sendNextCommand true) True
      (∀ cmd ∈ c.commandQue.head?, cmd.WhileState →
        c.Shows cmd ∨ c.runningCommandStatus = .waiting) := by
  unfold sendNextCommand
  split
  · rename_i queue
    refine ⟨link, up, fun _ => unsent, fun _ => iff_of_true (fun _ running => ?_) ?_⟩
    · contradiction
    · simp [queue]
  · rename_i cmd rest queue
    have stays := sendCommand_stays (c := { c with
      runningCommand := some cmd
      commandQue := rest }) rfl (queued cmd (by simp [queue])) link up free answered
    refine ⟨stays.link, stays.up, stays.unsent, fun given => (stays.marked given).trans ?_⟩
    rw [queue, List.head?_cons]
    simp only [Option.mem_some_iff, forall_eq']
    rfl

theorem marks_none {e : QueEvent} (none : c.starts e = none) : c.Marks e := by
  unfold Marks
  simp [none]

theorem marks_some {e : QueEvent} (some : c.starts e = some cmd) : c.Marks e ↔
    (cmd.WhileState → c.Shows cmd ∨ c.runningCommandStatus = .waiting) := by
  unfold Marks
  simp [some]

theorem Linked.stays (linked : c.Linked) {e : QueEvent} (none : c.starts e = none) :
    Stays c c.Marked (c.Marks e) :=
  ⟨linked.link, linked.up, linked.unsent, fun marked => iff_of_true marked (marks_none none)⟩

theorem queCommand_stays (linked : c.Linked) (req : Request) :
    Stays (c.queCommand req true) c.Marked (c.Marks (.queCommand req true)) := by
  unfold queCommand
  dsimp only
  split
  · rename_i waits
    have stays := linked.stays (e := .queCommand req true) (if_pos waits)
    exact ⟨stays.link, stays.up, stays.unsent, stays.marked⟩
  · rename_i free
    have idle : c.runningCommand = none := by
      by_contra running
      exact free (.inl (Option.isSome_iff_ne_none.mpr running))
    obtain ⟨answered, returned⟩ := linked.toSingle.idle idle
    have stays := sendCommand_stays (c := { c with
      made := c.made + 1
      runningCommand := some (c.accept req) }) rfl (accept_sendable req) linked.link linked.up
      returned answered
    have first : c.starts (.queCommand req true) = some (c.accept req) := if_neg free
    exact ⟨stays.link, stays.up, stays.unsent,
      fun _ => (stays.marked trivial).trans (marks_some first).symm⟩

theorem queSend_stays (linked : c.Linked) (req : Request) :
    Stays (c.queSend req true) c.Marked (c.Marks (.queSend req true)) := by
  obtain ⟨starts, runs⟩ | ⟨running, other, pushed⟩ := linked.queSend_runs req true
  · obtain ⟨answered, free⟩ : c.unanswered = [] ∧ c.handling = false := by
      rcases starts with idle | waiting
      · exact linked.toSingle.idle idle
      · exact linked.toSingle.waiting waiting
    have stays := sendCommand_stays (c := { c with
      made := c.made + 1
      runningCommand := some (c.accept req)
      commandQue := c.commands }) rfl (accept_sendable req) linked.link linked.up free answered
    have first : c.starts (.queSend req true) = some (c.accept req) := by
      refine if_neg ?_
      rintro ⟨running, other⟩
      rcases starts with idle | waiting
      · simp [idle] at running
      · exact other waiting
    rw [runs]
    exact ⟨stays.link, stays.up, stays.unsent,
      fun _ => (stays.marked trivial).trans (marks_some first).symm⟩
  · have stays := linked.stays (e := .queSend req true) (if_pos ⟨running, other⟩)
    rw [pushed]
    exact ⟨stays.link, stays.up, stays.unsent, stays.marked⟩

theorem queClear_stays (linked : c.Linked) : Stays c.queClear c.Marked (c.Marks .queClear) := by
  have stays := linked.stays (e := .queClear) rfl
  unfold queClear
  refine ⟨stays.link, stays.up, fun idle => ?_,
    fun marked => iff_of_true (fun cmd running => ?_) (marks_none rfl)⟩
  · dsimp only at idle ⊢
    split at idle
    · exact linked.unsent idle
    · assumption
  · dsimp only at running ⊢
    split at running
    · exact marked cmd running
    · contradiction

theorem commandReturn_stays (linked : c.Linked) (reply : c.unanswered ≠ []) :
    Stays c.commandReturn c.Marked (c.Marks .commandReturn) := by
  obtain answered | ⟨cmd, running, _⟩ := linked.out
  · exact absurd answered reply
  unfold commandReturn
  split
  · rename_i idle
    simp [running] at idle
  · refine ⟨linked.link, linked.up, by simp,
      fun _ => iff_of_true (fun _ _ free => ?_) (marks_none rfl)⟩
    contradiction

theorem returned_stays (linked : c.Linked) (handles : c.handling = true) (reque : Bool)
    (unmasked : reque = true → c.runningCommand.all (·.bopMask = 0) = true) :
    Stays (c.returned reque true) c.Marked (c.Marks (.returned reque true)) := by
  obtain ⟨cmd, running, returning, _, answered⟩ := linked.handler handles
  unfold returned
  dsimp only
  cases reque with
  | true =>
    have plain : cmd.bopMask = 0 := by simpa [running] using unmasked rfl
    have stays := sendCommand_stays (c := { c with
      handling := false
      requeued := c.requeued ++ c.runningCommand.toList.map Command.id }) running
      (Command.unmasked_sendable plain) linked.link linked.up rfl answered
    refine ⟨stays.link, stays.up, stays.unsent, fun _ => (stays.marked trivial).trans ?_⟩
    refine iff_of_true (fun whileState => ?_) (marks_none rfl)
    exact absurd whileState (Command.unmasked_whileState plain)
  | false =>
    have stays := sendNextCommand_stays (c := { c with
      handling := false
      finished := c.finished ++ c.runningCommand.toList.map Command.id }) linked.queued linked.link
      linked.up rfl answered (by simp [returning])
    exact ⟨stays.link, stays.up, stays.unsent, fun _ => stays.marked trivial⟩

theorem again_stays (linked : c.Linked) (bopState : Status)
    (waits : c.runningCommand.any (·.getStatusCallProgress = cipRun) = true) :
    Stays ({ c with bopState := bopState }.sendCommand true) c.Marked True := by
  obtain ⟨cmd, running, progress⟩ := (Option.any_eq_true _ _).mp waits
  obtain ⟨answered, free⟩ := linked.toSingle.again running (of_decide_eq_true progress)
  have held := linked.held running free answered
  have stays := sendCommand_stays (c := { c with bopState := bopState }) running held.2.1 linked.link
    linked.up free answered
  refine ⟨stays.link, stays.up, stays.unsent, fun marked => (stays.marked trivial).trans
    (iff_true_intro fun _ => ?_)⟩
  exact .inr (marked cmd running free answered)

theorem setConnState_stays (linked : c.Linked) (state : ConnState)
    (hot : ¬ Cold state) (authorized : state ≠ .authFailed) :
    Stays (c.setConnState state true) c.Marked (c.Marks (.setConnState state true)) := by
  unfold setConnState
  dsimp only
  rw [if_neg authorized]
  split
  · rename_i starts
    obtain ⟨answered, free⟩ := linked.toSingle.idle starts.2
    have stays := sendNextCommand_stays linked.queued linked.link linked.up free answered
      (linked.unsent starts.2)
    have first : c.starts (.setConnState state true) = c.commandQue.head? := if_pos starts
    refine ⟨stays.link, hot, stays.unsent, ?_⟩
    unfold Marks
    rw [first]
    exact fun _ => stays.marked trivial
  · rename_i other
    have stays := linked.stays (e := .setConnState state true) (if_neg other)
    exact ⟨stays.link, hot, stays.unsent, stays.marked⟩

theorem step_stays (linked : c.Linked) (e : QueEvent) (enabled : c.Enabled e)
    (onLink : OnLink e) : Stays (c.step e) c.Marked (c.Marks e) := by
  cases e with
  | queCommand req ok =>
    obtain rfl : ok = true := onLink
    exact queCommand_stays linked req
  | queSend req ok =>
    obtain rfl : ok = true := onLink
    exact queSend_stays linked req
  | queClear => exact queClear_stays linked
  | commandReturn => exact commandReturn_stays linked enabled.2
  | returned reque ok =>
    obtain rfl : ok = true := onLink
    exact returned_stays linked enabled.1 reque enabled.2
  | setBopState in_value ok =>
    obtain rfl : ok = true := onLink
    unfold step setBopState
    dsimp only
    split
    · rename_i waits
      have stays := again_stays linked in_value waits
      exact ⟨stays.link, stays.up, stays.unsent, fun marked => (stays.marked marked).trans
        (iff_of_true trivial (marks_none rfl))⟩
    · have stays := linked.stays (e := .setBopState in_value true) rfl
      exact ⟨stays.link, stays.up, stays.unsent, stays.marked⟩
  | masterStateChanged ok =>
    obtain rfl : ok = true := onLink
    unfold step masterStateChanged
    dsimp only
    split
    · rename_i waits
      have stays := again_stays linked c.bopState waits
      exact ⟨stays.link, stays.up, stays.unsent, fun marked => (stays.marked marked).trans
        (iff_of_true trivial (marks_none rfl))⟩
    · exact linked.stays rfl
  | setConnState state ok =>
    obtain ⟨rfl, authorized⟩ := onLink
    exact setConnState_stays linked state enabled.2.2.1 authorized
  | connectionError => exact absurd onLink id
  | init connects ok => exact absurd onLink id
  | connConnected ok => exact absurd onLink id
  | reconnectSocket connects ok => exact absurd onLink id
  | deleteConnection conn =>
    refine ⟨linked.link, linked.up, fun idle => linked.unsent (Option.map_eq_none_iff.mp idle),
      fun marked => iff_of_true (fun cmd running => ?_) (marks_none rfl)⟩
    obtain ⟨old, runs, rfl⟩ := Option.map_eq_some_iff.mp running
    exact marked old runs

theorem step_linked (linked : c.Linked) (e : QueEvent) (enabled : c.Enabled e)
    (onLink : OnLink e) : (c.step e).Linked := by
  have again : c.Again e := by
    cases e with
    | reconnectSocket => exact absurd onLink id
    | _ => trivial
  have stays := step_stays linked e enabled onLink
  exact { toKept := step_kept c e linked.toKept enabled
          toFlows := step_flows c e linked.toKept linked.toFlows enabled again
          link := stays.link
          up := stays.up
          unsent := stays.unsent }

theorem fresh_linked (connClass : ConnClass) {connState : ConnState} (up : ¬ Cold connState)
    (bopState : Status) : (fresh connClass connState true bopState).Linked where
  toKept := fresh_kept connClass connState true bopState
  running := by simp [fresh]
  queued := by simp [fresh]
  cold := fun _ _ => rfl
  idle := fun _ _ _ => rfl
  resolved := fun _ =>
    ⟨fun state => up (.inr (.inl state)), fun state => up (.inr (.inr (.inl state)))⟩
  link := rfl
  up := up
  unsent := by simp [fresh]

/-- Whatever is queued, answered and reported on a link that is up, both predicates are exact and a
queSend goes out at once in every state reached, if and only if no call starts a command with
BOP_WHILE_STATE while its bit does not show and the status is not WAITING already. -/
theorem que_exact_iff (connClass : ConnClass) {connState : ConnState} (up : ¬ Cold connState)
    (bopState : Status) (es : List QueEvent)
    (runs : Guarded step (fun c e => c.Enabled e ∧ OnLink e)
      (fresh connClass connState true bopState) es) :
    Guarded step (fun c e => (c.step e).QueExact) (fresh connClass connState true bopState) es ↔
      Guarded step Marks (fresh connClass connState true bopState) es := by
  have linked := fresh_linked connClass up bopState
  have marked : (fresh connClass connState true bopState).Marked := by simp [Marked, fresh]
  have same (c : Sender) (e : QueEvent) (kept : c.Linked ∧ c.Marked) (now : c.Enabled e ∧ OnLink e) :
      (c.step e).QueExact ↔ c.Marks e := by
    have linked := step_linked kept.1 e now.1 now.2
    exact linked.exact_iff.trans ((step_stays kept.1 e now.1 now.2).marked kept.2)
  refine guarded_congr_invariant (P := fun c => c.Linked ∧ c.Marked) ?_ same ⟨linked, marked⟩ runs
  intro c e kept now exact_
  have linked := step_linked kept.1 e now.1 now.2
  exact ⟨linked, linked.exact_iff.mp exact_⟩

def whileRequest : Request :=
  { cls := .plain, bopMask := 0x01001000, originator := some 1
    notCalled := by decide, states := by decide }

def exposureRun : List QueEvent :=
  [.setBopState 0x01000000 true, .queCommand whileRequest true, .queCommand commandRegister true,
    .commandReturn, .returned false true]

theorem que_exact_sample :
    Guarded step (fun c e => (c.step e).QueExact) (fresh (.connection true) .authOk true 0)
        exposureRun ↔
      Guarded step Marks (fresh (.connection true) .authOk true 0) exposureRun :=
  que_exact_iff (.connection true) (by decide) 0 exposureRun (by decide)

/-- A command that is queued before the exposure it waits for is taken is held, and the queue says
it is empty. -/
theorem que_held_silently : ¬ ∀ es : List QueEvent,
    Guarded step (fun c e => c.Enabled e ∧ OnLink e) (fresh (.connection true) .authOk true 0) es →
      Guarded step (fun c e => (c.step e).QueExact) (fresh (.connection true) .authOk true 0) es := by
  intro law
  have exact_ := (law [.queCommand whileRequest true] (by decide)).1
  have empty : ((fresh (.connection true) .authOk true 0).step
      (.queCommand whileRequest true)).queEmpty = true := by decide
  refine exact_.queEmpty.mp empty _ (.inr ⟨rfl, .inl ?_⟩)
  decide

end Sender

end Rts2.Kernel
