import Rts2.Kernel.QueEmpty

/-! Commands that wait for states to end. A device_status is sent for such a command and answered
before it is written, and it is written when the state has no bit of its mask, at once when an
update takes the last one away. -/
namespace Rts2.Kernel

open Lib

namespace Command

variable (cmd : Command)

theorem queuedMask_states : cmd.queuedMask &&& Kernel.bopMask = cmd.bopMask &&& Kernel.bopMask := by
  have kept : ~~~bopCipMask &&& Kernel.bopMask = Kernel.bopMask := by decide
  rw [queuedMask, BitVec.and_assoc, kept]

theorem queuedMask_whileState : cmd.queuedMask &&& bopWhileState = cmd.bopMask &&& bopWhileState := by
  have kept : ~~~bopCipMask &&& bopWhileState = bopWhileState := by decide
  rw [queuedMask, BitVec.and_assoc, kept]

end Command

def Blocks (mask : Status) : Prop := mask ≠ 0 ∧ mask &&& bopWhileState = 0

namespace Sender

variable {c s : Sender} {cmd : Command} {ok : Bool} {masks : Nat → Status}
  {probes : Nat → Option Nat}

def updateStatusWait (c : Sender) (ok : Bool) : Sender :=
  if c.runningCommand.any (·.getStatusCallProgress = cipWait) then c.sendCommand ok else c

end Sender

inductive BopEvent where
  | que (e : QueEvent)
  | updateStatusWait (ok : Bool)

namespace BopEvent

def queues : BopEvent → Option Status
  | .que (.queCommand req _) | .que (.queSend req _) => some req.bopMask
  | .que _ | .updateStatusWait _ => none

def Updates : BopEvent → Prop
  | .que (.setBopState ..) | .que (.masterStateChanged _) | .updateStatusWait _ => True
  | .que _ => False

end BopEvent

namespace Sender

def bopStep (c : Sender) : BopEvent → Sender
  | .que e => c.step e
  | .updateStatusWait ok => c.updateStatusWait ok

def BopEnabled (c : Sender) : BopEvent → Prop
  | .que e => c.Enabled e ∧ OnLink e
  | .updateStatusWait _ => c.handling = true ∧ ∃ cmd ∈ c.runningCommand, cmd.bopMask = cipReturn

instance (c : Sender) : DecidablePred c.BopEnabled
  | .que e => inferInstanceAs (Decidable (c.Enabled e ∧ OnLink e))
  | .updateStatusWait _ => inferInstanceAs (Decidable (_ ∧ ∃ cmd ∈ _, _))

/-- The device_status of each command, after a call which made more commands than it was given: the
last is for the command it waits before. -/
def noted (given : Nat) (probes : Nat → Option Nat) (s : Sender) : Nat → Option Nat :=
  if s.made = given then probes
  else match s.commandQue.head? with
    | none => probes
    | some cmd => Function.update probes cmd.id (some (s.made - 1))

end Sender

/-- A connection, with the mask each command was queued with and the device_status sent for it. -/
structure Asking where
  sender : Sender
  masks : Nat → Status
  probes : Nat → Option Nat

namespace Asking

def fresh (connClass : ConnClass) (connState : ConnState) (bopState : Status) : Asking where
  sender := .fresh connClass connState true bopState
  masks := fun _ => 0
  probes := fun _ => none

def step (a : Asking) (e : BopEvent) : Asking where
  sender := a.sender.bopStep e
  masks := match e.queues with
    | none => a.masks
    | some mask => Function.update a.masks a.sender.made mask
  probes := (a.sender.bopStep e).noted (a.sender.made + e.queues.toList.length) a.probes

/-- What the call writes of a command that waits for states to end is written after the reply to
its device_status, in a state with no bit of its mask; and the waiting command is written by an
update that leaves no bit. -/
structure BopSafe (a : Asking) (e : BopEvent) : Prop where
  blocked : ∀ entry ∈ (a.step e).sender.written.drop a.sender.written.length,
    Blocks ((a.step e).masks entry.2) →
      (a.step e).sender.getFullBopState &&& (a.step e).masks entry.2 &&& Kernel.bopMask = 0 ∧
        ∃ probe, (a.step e).probes entry.2 = some probe ∧
          probe ∈ a.sender.answered.map Prod.snd
  released : ∀ cmd, a.sender.runningCommand = some cmd →
    a.sender.runningCommandStatus = .waiting → Blocks (a.masks cmd.id) → e.Updates →
      (a.step e).sender.getFullBopState &&& a.masks cmd.id &&& Kernel.bopMask = 0 →
        ∃ sock, (a.step e).sender.written = a.sender.written ++ [(sock, cmd.id)]

end Asking

namespace Sender

variable {c s : Sender} {cmd : Command} {given : Nat} {masks : Nat → Status}
  {probes : Nat → Option Nat}

def Answered (c : Sender) (probes : Nat → Option Nat) (id : Nat) : Prop :=
  ∃ probe, probes id = some probe ∧ probe ∈ c.answered.map Prod.snd

def Asked (c : Sender) (probes : Nat → Option Nat) (id : Nat) : Prop :=
  ∃ probe, probes id = some probe ∧
    ∃ r, c.runningCommand = some r ∧ r.id = probe ∧ r.bopMask = cipReturn

/-- Each command has the mask it was queued with, and call progress only after its device_status. -/
structure Fits (c : Sender) (masks : Nat → Status) (probes : Nat → Option Nat) : Prop where
  queued : ∀ cmd ∈ c.commands, cmd.queuedMask = masks cmd.id
  unmade : ∀ id, c.made ≤ id → masks id = 0
  probed : ∀ cmd ∈ c.commands, Blocks (masks cmd.id) → cmd.getStatusCallProgress ≠ cipNotCalled →
    c.Answered probes cmd.id ∨ cmd.getStatusCallProgress = cipWait ∧ c.Asked probes cmd.id
  handled : c.handling = true → ∀ cmd, c.runningCommand = some cmd →
    cmd.id ∈ c.answered.map Prod.snd

def Advanced (c : Sender) (masks : Nat → Status) (probes : Nat → Option Nat) : Prop :=
  ∀ cmd ∈ c.commands, Blocks (masks cmd.id) → cmd.getStatusCallProgress ≠ cipNotCalled →
    c.Answered probes cmd.id

structure Serves (c : Sender) (masks : Nat → Status) (probes : Nat → Option Nat) (s : Sender) :
    Prop where
  fits : s.Fits masks probes
  written : ∃ new, s.written = c.written ++ new ∧ ∀ entry ∈ new, Blocks (masks entry.2) →
    s.getFullBopState &&& masks entry.2 &&& Kernel.bopMask = 0 ∧ c.Answered probes entry.2

theorem Fits.masked (fits : c.Fits masks probes) (listed : cmd ∈ c.commands)
    (blocks : Blocks (masks cmd.id)) : cmd.bopMask ≠ 0 ∧ ¬ cmd.WhileState := by
  obtain ⟨masked, plain⟩ := blocks
  rw [← fits.queued cmd listed] at masked plain
  refine ⟨fun unmasked => masked ?_, not_not.mpr ?_⟩
  · rw [Command.queuedMask, unmasked]
    decide
  · rwa [← cmd.queuedMask_whileState]

theorem Fits.shows_iff (fits : c.Fits masks probes) (listed : cmd ∈ c.commands) :
    ¬ c.Shows cmd ↔ c.getFullBopState &&& masks cmd.id &&& Kernel.bopMask = 0 := by
  rw [Shows, not_not, BitVec.and_assoc, BitVec.and_assoc, ← cmd.queuedMask_states,
    fits.queued cmd listed]

theorem Answered.mono {id : Nat} (answered : c.Answered probes id)
    (later : ∀ p ∈ c.answered.map Prod.snd, p ∈ s.answered.map Prod.snd) : s.Answered probes id := by
  obtain ⟨probe, noted, listed⟩ := answered
  exact ⟨probe, noted, later probe listed⟩

theorem Fits.settled (fits : c.Fits masks probes)
    (other : ∀ r, c.runningCommand = some r → r.bopMask ≠ cipReturn) : c.Advanced masks probes := by
  intro cmd listed blocks called
  obtain answered | ⟨_, _, _, r, running, _, probe⟩ := fits.probed cmd listed blocks called
  · exact answered
  · exact absurd probe (other r running)

theorem Fits.handled_settled (fits : c.Fits masks probes) (handles : c.handling = true) :
    c.Advanced masks probes := by
  intro cmd listed blocks called
  obtain answered | ⟨_, probe, noted, r, running, rfl, _⟩ := fits.probed cmd listed blocks called
  · exact answered
  · exact ⟨r.id, noted, fits.handled handles r running⟩

theorem noted_same (probes : Nat → Option Nat) (made : s.made = given) :
    s.noted given probes = probes := if_pos made

theorem Serves.unasked (made : s.made = given) (serves : c.Serves masks probes s) :
    c.Serves masks (s.noted given probes) s := by rwa [noted_same probes made]

theorem noted_asks (given : Nat) (probes : Nat → Option Nat) {rest : List Command}
    (made : s.made = given + 1) (queue : s.commandQue = cmd :: rest) :
    s.noted given probes = Function.update probes cmd.id (some given) := by
  unfold noted
  rw [if_neg (by omega), queue, List.head?_cons]
  simp [made]

theorem Answered.noted {id other probe : Nat} (answered : c.Answered probes id) (ne : id ≠ other) :
    c.Answered (Function.update probes other (some probe)) id := by
  obtain ⟨found, noted, listed⟩ := answered
  exact ⟨found, by rwa [Function.update_of_ne ne], listed⟩

theorem Fits.advanced (fits : c.Fits masks probes) (settled : c.Advanced masks probes)
    (running : c.runningCommand = some cmd) (free : c.handling = false) {r : Command}
    (id : r.id = cmd.id) (mask : r.queuedMask = cmd.queuedMask)
    (called : Blocks (masks cmd.id) → cmd.getStatusCallProgress ≠ cipNotCalled)
    (runs : s.runningCommand = some r) (queue : s.commandQue = c.commandQue) (made : s.made = c.made)
    (answered : s.answered = c.answered) (handling : s.handling = c.handling) :
    s.Fits masks probes := by
  have listed (q : Command) (later : q ∈ c.commandQue) : q ∈ c.commands :=
    List.mem_append_right _ later
  have first : cmd ∈ c.commands := by simp [commands, running]
  have of_commands {q : Command} (here : q ∈ s.commands) : q = r ∨ q ∈ c.commandQue := by
    simpa [commands, runs, queue] using here
  have kept {id : Nat} (before : c.Answered probes id) : s.Answered probes id :=
    before.mono fun p now => answered ▸ now
  refine ⟨fun q here => ?_, fun id unmade => fits.unmade id (made ▸ unmade), ?_, fun handles => ?_⟩
  · rcases of_commands here with rfl | later
    · rw [mask, id]
      exact fits.queued cmd first
    · exact fits.queued q (listed q later)
  · intro q here blocks progress
    rcases of_commands here with rfl | later
    · rw [id] at blocks ⊢
      exact .inl (kept (settled cmd first blocks (called blocks)))
    · exact .inl (kept (settled q (listed q later) blocks progress))
  · rw [handling, free] at handles
    contradiction

theorem sendCommand_serves (fits : c.Fits masks probes) (settled : c.Advanced masks probes)
    (running : c.runningCommand = some cmd) (sendable : cmd.Sendable) (link : c.sock.isSome)
    (up : c.connState ≠ .inprogress) (free : c.handling = false)
    (unique : (c.commands.map Command.id).Nodup) :
    c.Serves masks ((c.sendCommand true).noted c.made probes) (c.sendCommand true) := by
  have first : cmd ∈ c.commands := by simp [commands, running]
  have ran := sendCommand_ran running true
  generalize c.sendCommand true = s at ran ⊢
  cases ran with
  | stuck status never => exact absurd sendable never
  | held status held same called =>
    refine .unasked rfl ⟨fits.advanced settled running free (r := cmd.setStatusCallProgress cipRun) rfl
      (cmd.set_queuedMask cipRun) (fun blocks => ?_) rfl rfl rfl rfl rfl, [], (List.append_nil _).symm, by simp⟩
    exact called (fits.masked first blocks).2
  | written s r sock runs opened isUp wrote =>
    cases runs with
    | same r id originator cls progress shows_ mask hidden =>
      have called (blocks : Blocks (masks cmd.id)) := hidden (fits.masked first blocks).1
        (fits.masked first blocks).2
      refine .unasked rfl ⟨fits.advanced settled running free id mask (fun blocks => (called blocks).1) rfl rfl rfl
        rfl rfl, [(sock, r.id)], rfl, fun entry listed blocks => ?_⟩
      rw [List.mem_singleton.mp listed] at blocks ⊢
      dsimp only at blocks ⊢
      rw [id] at blocks ⊢
      obtain ⟨progressed, ended⟩ := called blocks
      exact ⟨(fits.shows_iff first).mp ended, settled cmd first blocks progressed⟩
    | asks masked plain uncalled =>
      have unasked : ¬ Blocks (masks c.made) := fun blocks => blocks.1 (fits.unmade _ le_rfl)
      rw [noted_asks c.made probes rfl rfl]
      refine ⟨⟨fun q here => ?_, fun id unmade => ?_, fun q here blocks progress => ?_, ?_⟩,
        [(sock, c.made)], rfl, fun entry listed blocks => ?_⟩
      · rcases List.mem_cons.mp here with rfl | here
        · have none : cipReturn &&& ~~~bopCipMask = 0 := by decide
          exact none.trans (fits.unmade _ le_rfl).symm
        · rcases List.mem_cons.mp here with rfl | later
          · exact (cmd.set_queuedMask cipWait).trans (fits.queued cmd first)
          · exact fits.queued q (List.mem_append_right _ later)
      · exact fits.unmade id ((Nat.le_succ _).trans unmade)
      · rcases List.mem_cons.mp here with rfl | here
        · exact absurd blocks unasked
        · rcases List.mem_cons.mp here with rfl | later
          · refine .inr ⟨?_, c.made, Function.update_self .., c.statInfoCall, rfl, rfl, rfl⟩
            rw [Command.set_progress]
            decide
          · have other : q.id ≠ cmd.id := by
              rw [commands, running] at unique
              have apart := (List.nodup_cons.mp unique).1
              exact fun same => apart (same ▸ List.mem_map_of_mem later)
            have before := settled q (List.mem_append_right _ later) blocks progress
            exact .inl (before.noted other)
      · intro handles
        exact absurd (handles.symm.trans free) (by decide)
      · rw [List.mem_singleton.mp listed] at blocks
        exact absurd blocks unasked
  | lost s t r runs fell => exact absurd fell (runs_upright runs link up t)
  | failed fails => contradiction
  | askFailed fails => contradiction

theorem Kept.unique (kept : c.Kept) : (c.commands.map Command.id).Nodup := by
  have all := (kept.places.nodup_iff).mp List.nodup_range
  exact (List.nodup_append.mp all).2.1

theorem Kept.before (kept : c.Kept) (listed : cmd ∈ c.commands) : cmd.id < c.made := by
  have placed : cmd.id ∈ List.range c.made :=
    kept.places.mem_iff.mpr (List.mem_append_right _ (List.mem_map_of_mem listed))
  exact List.mem_range.mp placed

theorem Fits.accept (kept : c.Kept) (fits : c.Fits masks probes) (req : Request)
    (listed : ∀ q ∈ s.commands, q = c.accept req ∨ q ∈ c.commands) (made : s.made = c.made + 1)
    (answered : s.answered = c.answered) (handling : s.handling = false ∨
      s.handling = c.handling ∧ s.runningCommand = c.runningCommand)
    (asked : ∀ id, c.Asked probes id → s.Asked probes id) :
    s.Fits (Function.update masks c.made req.bopMask) probes := by
  have other {q : Command} (before : q ∈ c.commands) :
      Function.update masks c.made req.bopMask q.id = masks q.id :=
    Function.update_of_ne (kept.before before).ne _ _
  have kept_ {id : Nat} (before : c.Answered probes id) : s.Answered probes id :=
    before.mono fun p now => answered ▸ now
  refine ⟨fun q here => ?_, fun id unmade => ?_, fun q here blocks progress => ?_,
    fun handles r running => ?_⟩
  · rcases listed q here with rfl | before
    · rw [show (c.accept req).id = c.made from rfl, Function.update_self, Command.queuedMask]
      ext i inside
      have uncalled := congrArg (·[i]) req.notCalled
      simp only [cipNotCalled, BitVec.getElem_and] at uncalled
      simp [Sender.accept]
      grind
    · rw [other before]
      exact fits.queued q before
  · rw [Function.update_of_ne (by omega)]
    exact fits.unmade id (by omega)
  · rcases listed q here with rfl | before
    · exact absurd req.notCalled progress
    · rw [other before] at blocks
      obtain answered | ⟨waits, asks⟩ := fits.probed q before blocks progress
      · exact .inl (kept_ answered)
      · exact .inr ⟨waits, asked q.id asks⟩
  · rcases handling with free | ⟨same, runs⟩
    · rw [free] at handles
      contradiction
    · rw [answered]
      exact fits.handled (same ▸ handles) r (runs ▸ running)

theorem Serves.silent (fits : s.Fits masks probes) (written : s.written = c.written) :
    c.Serves masks probes s := ⟨fits, [], by rw [written, List.append_nil], by simp⟩

theorem Serves.of {d : Sender} (serves : d.Serves masks probes s) (written : d.written = c.written)
    (answered : d.answered = c.answered) : c.Serves masks probes s := by
  obtain ⟨new, appended, safe⟩ := serves.written
  refine ⟨serves.fits, new, written ▸ appended, fun entry listed blocks => ?_⟩
  obtain ⟨ended, before⟩ := safe entry listed blocks
  exact ⟨ended, before.mono fun p now => answered ▸ now⟩

theorem Linked.unasked (linked : c.Linked) (free : c.handling = false) (answered : c.unanswered = [])
    (r : Command) (running : c.runningCommand = some r) : r.bopMask ≠ cipReturn := by
  intro probe
  have progress := (linked.held running free answered).1
  rw [Command.getStatusCallProgress, probe] at progress
  exact absurd progress (by decide)

theorem accept_unasked (req : Request) : (c.accept req).bopMask ≠ cipReturn := by
  intro probe
  have uncalled := req.notCalled
  rw [show req.bopMask = cipReturn from probe] at uncalled
  exact absurd uncalled (by decide)

theorem started_serves (linked : c.Linked) (fits : c.Fits masks probes) (req : Request)
    (free : c.handling = false) (answered : c.unanswered = []) :
    c.Serves (Function.update masks c.made req.bopMask)
      (({ c with
        made := c.made + 1
        runningCommand := some (c.accept req)
        commandQue := c.commands }.sendCommand true).noted (c.made + 1) probes)
      ({ c with
        made := c.made + 1
        runningCommand := some (c.accept req)
        commandQue := c.commands }.sendCommand true) := by
  have fits := fits.accept linked.toKept req (s := { c with
    made := c.made + 1
    runningCommand := some (c.accept req)
    commandQue := c.commands }) (fun q listed => List.mem_cons.mp listed) rfl rfl (.inl free)
    fun id ⟨_, _, r, running, _, probe⟩ =>
      absurd probe (linked.unasked free answered r running)
  have settled := fits.settled fun r running => Option.some.inj running ▸ accept_unasked req
  have unique : ((c.accept req :: c.commands).map Command.id).Nodup := by
    refine List.nodup_cons.mpr ⟨fun listed => ?_, linked.toKept.unique⟩
    obtain ⟨q, before, same⟩ := List.mem_map.mp listed
    exact absurd same (linked.toKept.before before).ne
  exact (sendCommand_serves fits settled rfl (accept_sendable req) linked.link linked.connected free
    unique).of rfl rfl

theorem queCommand_serves (linked : c.Linked) (fits : c.Fits masks probes) (req : Request) :
    c.Serves (Function.update masks c.made req.bopMask)
      ((c.queCommand req true).noted (c.made + 1) probes) (c.queCommand req true) := by
  unfold queCommand
  dsimp only
  split
  · refine .unasked rfl (.silent ?_ rfl)
    refine fits.accept linked.toKept req (fun q listed => ?_) rfl rfl (.inr ⟨rfl, rfl⟩) fun _ => id
    rcases List.mem_append.mp listed with running | later
    · exact .inr (List.mem_append_left _ running)
    · rcases List.mem_append.mp later with queued | new
      · exact .inr (List.mem_append_right _ queued)
      · exact .inl (List.mem_singleton.mp new)
  · rename_i starts
    have idle : c.runningCommand = none := by
      by_contra running
      exact starts (.inl (Option.isSome_iff_ne_none.mpr running))
    obtain ⟨answered, free⟩ := linked.toSingle.idle idle
    have serves := started_serves linked fits req free answered
    rwa [show c.commands = c.commandQue by simp [commands, idle]] at serves

theorem queSend_serves (linked : c.Linked) (fits : c.Fits masks probes) (req : Request) :
    c.Serves (Function.update masks c.made req.bopMask)
      ((c.queSend req true).noted (c.made + 1) probes) (c.queSend req true) := by
  obtain ⟨starts, runs⟩ | ⟨_, _, pushed⟩ := linked.queSend_runs req true
  · obtain ⟨answered, free⟩ : c.unanswered = [] ∧ c.handling = false := by
      rcases starts with idle | waiting
      · exact linked.toSingle.idle idle
      · exact linked.toSingle.waiting waiting
    rw [runs]
    exact started_serves linked fits req free answered
  · rw [pushed]
    refine .unasked rfl (.silent ?_ rfl)
    refine fits.accept linked.toKept req (fun q listed => ?_) rfl rfl (.inr ⟨rfl, rfl⟩) fun _ => id
    rcases List.mem_append.mp listed with running | later
    · exact .inr (List.mem_append_left _ running)
    · rcases List.mem_cons.mp later with new | queued
      · exact .inl new
      · exact .inr (List.mem_append_right _ queued)

theorem queClear_fits (fits : c.Fits masks probes) : c.queClear.Fits masks probes := by
  have listed (q : Command) (here : q ∈ c.queClear.commands) : c.runningCommandStatus = .send ∧
      q ∈ c.commands := by
    simp only [queClear, commands, List.append_nil, Option.mem_toList] at here
    split at here
    · rename_i sent
      exact ⟨sent, by simp [commands, here]⟩
    · contradiction
  refine ⟨fun q here => fits.queued q (listed q here).2, fits.unmade, fun q here blocks progress => ?_,
    fun handles r running => ?_⟩
  · obtain answered | ⟨waits, probe, noted, r, running, asks⟩ :=
      fits.probed q (listed q here).2 blocks progress
    · exact .inl answered
    · refine .inr ⟨waits, probe, noted, r, ?_, asks⟩
      rw [queClear, if_pos (listed q here).1, running]
  · dsimp only [queClear] at running
    split at running
    · exact fits.handled handles r running
    · contradiction

theorem commandReturn_fits (fits : c.Fits masks probes) (link : c.sock.isSome) :
    c.commandReturn.Fits masks probes := by
  obtain ⟨sock, opened⟩ := Option.isSome_iff_exists.mp link
  unfold commandReturn
  split
  · exact ⟨fits.queued, fits.unmade, fits.probed, fits.handled⟩
  · rename_i cmd running
    refine ⟨fits.queued, fits.unmade, fun q here blocks progress => ?_, fun _ r runs => ?_⟩
    · obtain answered | asked := fits.probed q here blocks progress
      · refine .inl (answered.mono fun p now => ?_)
        rw [List.map_append]
        exact List.mem_append_left _ now
      · exact .inr asked
    · have same := Option.some.inj (running.symm.trans runs)
      simp [opened, same]

theorem sendNextCommand_serves (fits : c.Fits masks probes) (settled : c.Advanced masks probes)
    (queued : ∀ cmd ∈ c.commandQue, cmd.Sendable) (link : c.sock.isSome)
    (up : c.connState ≠ .inprogress) (free : c.handling = false)
    (unique : (c.commands.map Command.id).Nodup) :
    c.Serves masks ((c.sendNextCommand true).noted c.made probes) (c.sendNextCommand true) := by
  unfold sendNextCommand
  split
  · rename_i queue
    refine .unasked rfl (.silent ?_ rfl)
    refine ⟨fun q here => ?_, fits.unmade, fun q here => ?_, fun _ _ running => ?_⟩
    · simp [commands, queue] at here
    · simp [commands, queue] at here
    · contradiction
  · rename_i cmd rest queue
    have listed (q : Command) (here : q ∈ cmd :: rest) : q ∈ c.commands :=
      List.mem_append_right _ (queue ▸ here)
    have fits : Fits { c with runningCommand := some cmd, commandQue := rest } masks probes := by
      refine ⟨fun q here => fits.queued q (listed q here), fits.unmade,
        fun q here blocks progress => ?_, fun handles => ?_⟩
      · exact .inl (settled q (listed q here) blocks progress)
      · rw [show c.handling = true from handles] at free
        contradiction
    have settled : Advanced { c with runningCommand := some cmd, commandQue := rest } masks probes :=
      fun q here blocks progress => settled q (listed q here) blocks progress
    refine (sendCommand_serves fits settled rfl (queued cmd (by simp [queue])) link up free ?_).of rfl
      rfl
    rw [commands, List.map_append, queue] at unique
    exact (List.nodup_append.mp unique).2.1

theorem returned_serves (linked : c.Linked) (fits : c.Fits masks probes) (handles : c.handling = true)
    (reque : Bool) (unmasked : reque = true → c.runningCommand.all (·.bopMask = 0) = true) :
    c.Serves masks ((c.returned reque true).noted c.made probes) (c.returned reque true) := by
  obtain ⟨cmd, running, _, _, _⟩ := linked.handler handles
  have settled := fits.handled_settled handles
  unfold returned
  dsimp only
  cases reque with
  | true =>
    have plain : cmd.bopMask = 0 := by simpa [running] using unmasked rfl
    have again : Fits { c with
        handling := false
        requeued := c.requeued ++ c.runningCommand.toList.map Command.id } masks probes :=
      ⟨fits.queued, fits.unmade, fits.probed, by simp⟩
    exact (sendCommand_serves again settled running (Command.unmasked_sendable plain) linked.link
      linked.connected rfl linked.toKept.unique).of rfl rfl
  | false =>
    have next : Fits { c with
        handling := false
        finished := c.finished ++ c.runningCommand.toList.map Command.id } masks probes :=
      ⟨fits.queued, fits.unmade, fits.probed, by simp⟩
    exact (sendNextCommand_serves next settled linked.queued linked.link linked.connected rfl
      linked.toKept.unique).of rfl rfl

theorem again_serves (linked : c.Linked) (fits : c.Fits masks probes) (in_value : Status)
    (waits : c.runningCommand.any (·.getStatusCallProgress = cipRun) = true) :
    c.Serves masks (({ c with bopState := in_value }.sendCommand true).noted c.made probes)
      ({ c with bopState := in_value }.sendCommand true) := by
  obtain ⟨cmd, running, progress⟩ := (Option.any_eq_true _ _).mp waits
  obtain ⟨answered, free⟩ := linked.toSingle.again running (of_decide_eq_true progress)
  have settled := fits.settled (linked.unasked free answered)
  have updated : Fits { c with bopState := in_value } masks probes :=
    ⟨fits.queued, fits.unmade, fits.probed, fits.handled⟩
  exact (sendCommand_serves updated settled running (linked.held running free answered).2.1
    linked.link linked.connected free linked.toKept.unique).of rfl rfl

theorem setBopState_serves (linked : c.Linked) (fits : c.Fits masks probes) (in_value : Status) :
    c.Serves masks ((c.setBopState in_value true).noted c.made probes)
      (c.setBopState in_value true) := by
  unfold setBopState
  dsimp only
  split
  · rename_i waits
    exact again_serves linked fits in_value waits
  · exact .unasked rfl (.silent ⟨fits.queued, fits.unmade, fits.probed, fits.handled⟩ rfl)

theorem masterStateChanged_serves (linked : c.Linked) (fits : c.Fits masks probes) :
    c.Serves masks ((c.masterStateChanged true).noted c.made probes) (c.masterStateChanged true) := by
  unfold masterStateChanged
  split
  · rename_i waits
    exact again_serves linked fits c.bopState waits
  · exact .unasked rfl (.silent fits rfl)

theorem setConnState_serves (linked : c.Linked) (fits : c.Fits masks probes) (state : ConnState)
    (authorized : state ≠ .authFailed) :
    c.Serves masks ((c.setConnState state true).noted c.made probes) (c.setConnState state true) := by
  unfold setConnState
  dsimp only
  rw [if_neg authorized]
  split
  · rename_i starts
    obtain ⟨answered, free⟩ := linked.toSingle.idle starts.2
    have settled := fits.settled (linked.unasked free answered)
    have serves := sendNextCommand_serves fits settled linked.queued linked.link linked.connected free
      linked.toKept.unique
    exact ⟨⟨serves.fits.queued, serves.fits.unmade, serves.fits.probed, serves.fits.handled⟩,
      serves.written⟩
  · exact .unasked rfl (.silent ⟨fits.queued, fits.unmade, fits.probed, fits.handled⟩ rfl)

theorem deleteConnection_fits (fits : c.Fits masks probes) (conn : Nat) :
    (c.deleteConnection conn).Fits masks probes := by
  have old (q : Command) (here : q ∈ (c.deleteConnection conn).commands) : ∃ before ∈ c.commands,
      before.id = q.id ∧ before.bopMask = q.bopMask := by
    simp only [commands, deleteConnection, List.mem_append, Option.mem_toList,
      Option.mem_def, Option.map_eq_some_iff, List.mem_map] at here
    rcases here with ⟨before, running, rfl⟩ | ⟨before, queued, rfl⟩
    · exact ⟨before, by simp [commands, running], rfl, rfl⟩
    · exact ⟨before, List.mem_append_right _ queued, rfl, rfl⟩
  refine ⟨fun q here => ?_, fits.unmade, fun q here blocks progress => ?_, fun handles r running => ?_⟩
  · obtain ⟨before, listed, id, mask⟩ := old q here
    rw [Command.queuedMask, ← mask, ← id]
    exact fits.queued before listed
  · obtain ⟨before, listed, id, mask⟩ := old q here
    rw [Command.getStatusCallProgress, ← mask] at progress ⊢
    rw [← id] at blocks ⊢
    obtain answered | ⟨waits, probe, noted, r, running, same, asks⟩ :=
      fits.probed before listed blocks progress
    · exact .inl answered
    · exact .inr ⟨waits, probe, noted, _, congrArg (Option.map _) running, same, asks⟩
  · obtain ⟨before, runs, rfl⟩ := Option.map_eq_some_iff.mp running
    exact fits.handled handles before runs

theorem updateStatusWait_same {ok : Bool} (asks : ∃ cmd ∈ c.runningCommand, cmd.bopMask = cipReturn) :
    c.updateStatusWait ok = c := by
  obtain ⟨cmd, running, probe⟩ := asks
  rw [updateStatusWait, if_neg]
  rw [Option.mem_def.mp running, Option.any_some, Command.getStatusCallProgress, probe]
  decide

theorem bopStep_serves (linked : c.Linked) (fits : c.Fits masks probes) (e : BopEvent)
    (enabled : c.BopEnabled e) : c.Serves
      (match e.queues with
        | none => masks
        | some mask => Function.update masks c.made mask)
      ((c.bopStep e).noted (c.made + e.queues.toList.length) probes) (c.bopStep e) := by
  cases e with
  | updateStatusWait ok =>
    rw [bopStep, updateStatusWait_same enabled.2]
    exact .unasked rfl (.silent fits rfl)
  | que e =>
    obtain ⟨enabled, onLink⟩ := enabled
    cases e with
    | queCommand req ok =>
      obtain rfl : ok = true := onLink
      exact queCommand_serves linked fits req
    | queSend req ok =>
      obtain rfl : ok = true := onLink
      exact queSend_serves linked fits req
    | queClear => exact .unasked rfl (.silent (queClear_fits fits) rfl)
    | commandReturn =>
      have same : c.commandReturn.made = c.made ∧ c.commandReturn.written = c.written := by
        unfold commandReturn
        split <;> exact ⟨rfl, rfl⟩
      exact .unasked same.1 (.silent (commandReturn_fits fits linked.link) same.2)
    | returned reque ok =>
      obtain rfl : ok = true := onLink
      exact returned_serves linked fits enabled.1 reque enabled.2
    | setBopState in_value ok =>
      obtain rfl : ok = true := onLink
      exact setBopState_serves linked fits in_value
    | masterStateChanged ok =>
      obtain rfl : ok = true := onLink
      exact masterStateChanged_serves linked fits
    | setConnState state ok =>
      obtain ⟨rfl, authorized⟩ := onLink
      exact setConnState_serves linked fits state authorized
    | connectionError => exact absurd onLink id
    | init connects ok => exact absurd onLink id
    | connConnected ok => exact absurd onLink id
    | reconnectSocket connects ok => exact absurd onLink id
    | deleteConnection conn =>
      exact .unasked rfl (.silent (deleteConnection_fits fits conn) rfl)

theorem sendCommand_bopState (c : Sender) : (c.sendCommand true).bopState = c.bopState := by
  cases running : c.runningCommand with
  | none => simp [sendCommand, running]
  | some cmd =>
    have ran := sendCommand_ran running true
    generalize c.sendCommand true = s at ran ⊢
    cases ran with
    | stuck | held | failed | askFailed => rfl
    | written s r sock runs => cases runs <;> rfl
    | lost s t r runs fell =>
      have same : s.bopState = c.bopState := by cases runs <;> rfl
      cases fell <;> exact same

theorem sendCommand_releases (running : c.runningCommand = some cmd) (held : cmd.Sendable)
    (link : c.sock.isSome) (up : c.connState ≠ .inprogress) (plain : ¬ cmd.WhileState)
    (called : cmd.getStatusCallProgress = cipRun) (ended : ¬ c.Shows cmd) :
    ∃ sock, (c.sendCommand true).written = c.written ++ [(sock, cmd.id)] := by
  have ran := sendCommand_ran running true
  generalize c.sendCommand true = s at ran ⊢
  cases ran with
  | stuck status never => exact absurd held never
  | held status waits =>
    have shows_ := (waits held).2.2
    rw [Command.set_whileState, shows_set] at shows_
    exact absurd (shows_.mpr ended) plain
  | written s r sock runs =>
    cases runs with
    | same r id => exact ⟨sock, by rw [id]⟩
    | asks masked plain uncalled =>
      rw [called] at uncalled
      exact absurd uncalled (by decide)
  | lost s t r runs fell => exact absurd fell (runs_upright runs link up t)
  | failed fails => contradiction
  | askFailed fails => contradiction

end Sender

namespace Asking

open Sender

variable {a : Asking} {e : BopEvent}

structure Kept (a : Asking) : Prop where
  linked : a.sender.Linked
  fits : a.sender.Fits a.masks a.probes

theorem step_safe (kept : a.Kept) (enabled : a.sender.BopEnabled e) : a.BopSafe e := by
  have serves := bopStep_serves kept.linked kept.fits e enabled
  obtain ⟨new, appended, safe⟩ := serves.written
  refine ⟨fun entry listed blocks => ?_, fun cmd running waits blocks updates ended => ?_⟩
  · have written : (a.step e).sender.written = a.sender.written ++ new := appended
    rw [written, List.drop_left] at listed
    exact safe entry listed blocks
  · obtain ⟨answered, free⟩ := kept.linked.toSingle.waiting waits
    have held := kept.linked.held running free answered
    have listed : cmd ∈ a.sender.commands := by simp [commands, running]
    have plain := (kept.fits.masked listed blocks).2
    have again : a.sender.runningCommand.any (·.getStatusCallProgress = cipRun) = true := by
      rw [running, Option.any_some]
      exact decide_eq_true held.1
    have released (in_value : Status)
        (ended : in_value &&& a.masks cmd.id &&& Kernel.bopMask = 0) : ∃ sock,
        ({ a.sender with bopState := in_value }.sendCommand true).written =
          a.sender.written ++ [(sock, cmd.id)] := by
      have updated : Sender.Fits { a.sender with bopState := in_value } a.masks a.probes :=
        ⟨kept.fits.queued, kept.fits.unmade, kept.fits.probed, kept.fits.handled⟩
      exact sendCommand_releases running held.2.1 kept.linked.link kept.linked.connected plain held.1
        ((updated.shows_iff listed).mpr ended)
    cases e with
    | updateStatusWait ok =>
      exact absurd (enabled.1.symm.trans free) (by decide)
    | que e =>
      obtain ⟨enabled, onLink⟩ := enabled
      cases e with
      | setBopState in_value ok =>
        obtain rfl : ok = true := onLink
        have runs : (a.step (.que (.setBopState in_value true))).sender =
            { a.sender with bopState := in_value }.sendCommand true := if_pos again
        rw [runs, getFullBopState, sendCommand_bopState] at ended
        rw [runs]
        exact released in_value ended
      | masterStateChanged ok =>
        obtain rfl : ok = true := onLink
        have runs : (a.step (.que (.masterStateChanged true))).sender =
            { a.sender with bopState := a.sender.bopState }.sendCommand true := if_pos again
        rw [runs, getFullBopState, sendCommand_bopState] at ended
        rw [runs]
        exact released a.sender.bopState ended
      | _ => exact absurd updates id

theorem step_kept (kept : a.Kept) (enabled : a.sender.BopEnabled e) : (a.step e).Kept := by
  refine ⟨?_, (bopStep_serves kept.linked kept.fits e enabled).fits⟩
  cases e with
  | updateStatusWait ok =>
    have same : (a.step (.updateStatusWait ok)).sender = a.sender :=
      updateStatusWait_same enabled.2
    rw [same]
    exact kept.linked
  | que e => exact step_linked kept.linked e enabled.1 enabled.2

theorem fresh_kept (connClass : ConnClass) {connState : ConnState} (up : ¬ Cold connState)
    (bopState : Status) : (fresh connClass connState bopState).Kept where
  linked := fresh_linked connClass up bopState
  fits := ⟨by simp [fresh, Sender.fresh, commands], fun _ _ => rfl,
    by simp [fresh, Sender.fresh, commands], by simp [fresh, Sender.fresh]⟩

/-- Whatever is queued, answered and reported on a link that is up, a command that waits for states
to end is written after the reply to the device_status sent for it, while the state has no bit of
its mask; and an update that leaves no bit writes it when it is the one that waits. -/
theorem bop_blocks (connClass : ConnClass) {connState : ConnState} (up : ¬ Cold connState)
    (bopState : Status) (es : List BopEvent)
    (runs : Guarded step (fun a e => a.sender.BopEnabled e) (fresh connClass connState bopState) es) :
    Guarded step BopSafe (fresh connClass connState bopState) es := by
  have kept := fresh_kept connClass up bopState
  generalize fresh connClass connState bopState = a at runs kept ⊢
  induction es generalizing a with
  | nil => trivial
  | cons e es ih =>
    obtain ⟨now, later⟩ := runs
    exact ⟨step_safe kept now, ih _ later (step_kept kept now)⟩

def moveRequest : Request :=
  { cls := .plain, bopMask := 0x02000000, originator := some 1
    notCalled := by decide, states := by decide }

def moveRun : List BopEvent :=
  [.que (.queCommand moveRequest true), .que (.setBopState 0x02000000 true), .que .commandReturn,
    .updateStatusWait true, .que (.returned false true), .que (.queSend commandRegister true),
    .que .commandReturn, .que (.returned false true), .que (.setBopState 0 true)]

theorem move_blocked : Guarded step BopSafe (fresh (.connection true) .authOk 0) moveRun :=
  bop_blocks (.connection true) (by decide) 0 moveRun (by decide)

end Asking

end Rts2.Kernel
