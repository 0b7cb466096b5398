import Rts2.Kernel.CommandQue

/-! Commands and their replies on one connection, in every run: one command is out at a time, the
replies of a socket go to the commands written on it, and every command is in one place. -/
namespace Rts2.Kernel

open Lib

namespace Sender

variable {c s : Sender} {cmd : Command} {ok : Bool}

def commands (c : Sender) : List Command := c.runningCommand.toList ++ c.commandQue

def writtenOn (c : Sender) (sock : Nat) : List Nat :=
  (c.written.filter (·.1 = sock)).map Prod.snd

def answeredOn (c : Sender) (sock : Nat) : List Nat :=
  (c.answered.filter (·.1 = sock)).map Prod.snd

def inHandler (c : Sender) : List Nat :=
  if c.handling then c.runningCommand.toList.map Command.id else []

/-- Every command is in one place, and was answered once for each time it went round. -/
structure Counted (c : Sender) : Prop where
  places : (List.range c.made).Perm
    (c.finished ++ c.failed ++ c.discarded ++ c.commands.map Command.id)
  cycles : (c.answered.map Prod.snd).Perm (c.requeued ++ c.finished ++ c.inHandler)

/-- What was written on a socket was answered in order, but for the last command. -/
structure Paired (c : Sender) : Prop where
  socks : ∀ entry ∈ c.written, entry.1 < c.socks
  opened : ∀ sock, c.sock = some sock →
    sock < c.socks ∧ c.writtenOn sock = c.answeredOn sock ++ c.unanswered
  paired : ∀ sock, ∃ rest, rest.length ≤ 1 ∧ c.writtenOn sock = c.answeredOn sock ++ rest

/-- The command that is out is the running one, which no change of the state sends again. -/
structure Single (c : Sender) : Prop where
  out : c.unanswered = [] ∨ ∃ cmd, c.runningCommand = some cmd ∧ c.unanswered = [cmd.id] ∧
    c.runningCommandStatus = .send ∧ cmd.getStatusCallProgress ≠ cipRun ∧
    c.handling = false ∧ c.sock.isSome ∧ c.connState ≠ .inprogress
  handler : c.handling = true → ∃ cmd, c.runningCommand = some cmd ∧
    c.runningCommandStatus = .returning ∧ cmd.getStatusCallProgress ≠ cipRun ∧ c.unanswered = []

structure Kept (c : Sender) : Prop extends c.Counted, c.Paired, c.Single

theorem perm_of_total {made : Nat} {xs ys : List Nat} (places : (List.range made).Perm xs)
    (same : ∀ i, xs.count i = ys.count i) : (List.range made).Perm ys :=
  List.perm_iff_count.mpr fun i => ((List.perm_iff_count.mp places) i).trans (same i)

theorem perm_of_next {made : Nat} {xs ys : List Nat} (places : (List.range made).Perm xs)
    (same : ∀ i, xs.count i + [made].count i = ys.count i) : (List.range (made + 1)).Perm ys := by
  rw [List.range_succ]
  refine List.perm_iff_count.mpr fun i => ?_
  rw [List.count_append, (List.perm_iff_count.mp places) i, same i]

theorem runs_counted {r : Command} (running : c.runningCommand = some cmd)
    (free : c.handling = false) (counted : c.Counted) (runs : c.Runs cmd s r) : s.Counted := by
  obtain ⟨places, cycles⟩ := counted
  cases runs with
  | same r id =>
    constructor
    · simpa [commands, running, id] using places
    · simpa [inHandler, free] using cycles
  | asks =>
    constructor
    · refine perm_of_next places fun i => ?_
      simp [commands, running, statInfoCall, List.count_cons]
      omega
    · simpa [inHandler, free] using cycles

theorem fell_counted {t : Sender} (counted : s.Counted) (fell : Fell s ok t) : t.Counted := by
  cases fell with
  | skipped => exact counted
  | dropped => exact ⟨counted.places, counted.cycles⟩

theorem ran_counted (running : c.runningCommand = some cmd) (free : c.handling = false)
    (counted : c.Counted) (ran : c.Ran cmd ok s) : s.Counted := by
  obtain ⟨places, cycles⟩ := counted
  cases ran with
  | stuck status never => exact ⟨places, cycles⟩
  | held status held same =>
    constructor
    · simpa [commands, running] using places
    · simpa [inHandler, free] using cycles
  | written s r sock runs opened up wrote =>
    have counted := runs_counted running free ⟨places, cycles⟩ runs
    exact ⟨counted.places, counted.cycles⟩
  | lost s t r runs fell =>
    have counted := fell_counted (runs_counted running free ⟨places, cycles⟩ runs) fell
    exact ⟨counted.places, counted.cycles⟩
  | failed fails =>
    constructor
    · refine perm_of_total places fun i => ?_
      simp [commands, running, close, List.count_cons]
      omega
    · simpa [inHandler, close, free] using cycles
  | askFailed fails =>
    constructor
    · refine perm_of_next places fun i => ?_
      simp [commands, running, close, statInfoCall, List.count_cons]
      omega
    · simpa [inHandler, close, free] using cycles

theorem paired_close (paired : c.Paired) (state : ConnState) : (c.close state).Paired :=
  ⟨paired.socks, fun sock opened => by simp [close] at opened, paired.paired⟩

theorem written_append (c : Sender) (sock other id : Nat) :
    { c with written := c.written ++ [(sock, id)] }.writtenOn other =
      c.writtenOn other ++ if sock = other then [id] else [] := by
  unfold writtenOn
  rw [List.filter_append, List.map_append]
  by_cases here : sock = other <;> simp [here]

theorem paired_written (paired : c.Paired) {sock : Nat} (opened : c.sock = some sock)
    (answered : c.unanswered = []) (id : Nat) :
    { c with unanswered := [id], written := c.written ++ [(sock, id)] }.Paired := by
  obtain ⟨below, same⟩ := paired.opened sock opened
  rw [answered, List.append_nil] at same
  have kept (other : Nat) : { c with
      unanswered := [id]
      written := c.written ++ [(sock, id)] }.writtenOn other =
        c.writtenOn other ++ if sock = other then [id] else [] := written_append c sock other id
  constructor
  · intro entry listed
    rcases List.mem_append.mp listed with before | now
    · exact paired.socks entry before
    · rw [List.mem_singleton.mp now]
      exact below
  · intro other here
    have other_sock : sock = other := Option.some.inj (opened.symm.trans here)
    subst other_sock
    refine ⟨below, ?_⟩
    rw [kept, if_pos rfl, same]
    rfl
  · intro other
    rw [kept]
    by_cases here : sock = other
    · subst here
      exact ⟨[id], Nat.le_refl 1, by rw [if_pos rfl, same]; rfl⟩
    · rw [if_neg here, List.append_nil]
      exact paired.paired other

theorem ran_paired (answered : c.unanswered = []) (paired : c.Paired) (ran : c.Ran cmd ok s) :
    s.Paired := by
  obtain ⟨socks, opened, pairs⟩ := paired
  cases ran with
  | stuck | held => exact ⟨socks, opened, pairs⟩
  | written s r sock runs open_ up wrote =>
    rw [answered]
    have written := paired_written ⟨socks, opened, pairs⟩ open_ answered r.id
    cases runs <;> exact ⟨written.socks, written.opened, written.paired⟩
  | lost s t r runs fell =>
    have ran : s.Paired := by cases runs <;> exact ⟨socks, opened, pairs⟩
    cases fell with
    | skipped => exact ⟨ran.socks, ran.opened, ran.paired⟩
    | dropped fails state =>
      have closed := paired_close ran state
      exact ⟨closed.socks, closed.opened, closed.paired⟩
  | failed | askFailed =>
    have closed := paired_close ⟨socks, opened, pairs⟩ .broken
    exact ⟨closed.socks, closed.opened, closed.paired⟩

theorem statInfoCall_progress (c : Sender) : c.statInfoCall.getStatusCallProgress ≠ cipRun := by
  change cipReturn &&& bopCipMask ≠ cipRun
  decide

theorem ran_single (answered : c.unanswered = []) (free : c.handling = false)
    (ran : c.Ran cmd ok s) : s.Single := by
  cases ran with
  | stuck | held =>
    refine ⟨.inl answered, ?_⟩
    simp [free]
  | written s r sock runs opened up wrote =>
    have out : r.getStatusCallProgress ≠ cipRun := by
      cases runs with
      | same r id originator cls progress => exact progress
      | asks => exact statInfoCall_progress c
    cases runs with
    | same =>
      refine ⟨.inr ⟨r, rfl, by simp [answered], rfl, out, free, ?_, up⟩, by simp [free]⟩
      simp [opened]
    | asks =>
      refine ⟨.inr ⟨_, rfl, by simp [answered], rfl, out, free, ?_, up⟩, by simp [free]⟩
      simp [opened]
  | lost s t r runs fell =>
    have same : s.unanswered = [] ∧ s.handling = false := by cases runs <;> exact ⟨answered, free⟩
    cases fell with
    | skipped => exact ⟨.inl same.1, by simp [same.2]⟩
    | dropped => exact ⟨.inl rfl, by simp [close, same.2]⟩
  | failed | askFailed => exact ⟨.inl rfl, by simp [close, free]⟩

theorem sendCommand_kept (running : c.runningCommand = some cmd) (answered : c.unanswered = [])
    (free : c.handling = false) (counted : c.Counted) (paired : c.Paired) :
    (c.sendCommand ok).Kept := by
  have ran := sendCommand_ran running ok
  exact { toCounted := ran_counted running free counted ran
          toPaired := ran_paired answered paired ran
          toSingle := ran_single answered free ran }

theorem waiting_of_displaced (displaced : ¬ (c.runningCommandStatus = .send ∨
    c.runningCommandStatus = .returning)) : c.runningCommandStatus = .waiting := by
  cases status : c.runningCommandStatus with
  | waiting => rfl
  | send => exact absurd (.inl status) displaced
  | returning => exact absurd (.inr status) displaced

theorem Single.idle (single : c.Single) (idle : c.runningCommand = none) :
    c.unanswered = [] ∧ c.handling = false := by
  constructor
  · obtain answered | ⟨cmd, running, _⟩ := single.out
    · exact answered
    · simp [idle] at running
  · by_contra handling
    obtain ⟨cmd, running, _⟩ := single.handler (by simpa using handling)
    simp [idle] at running

theorem Single.again (single : c.Single) {cmd : Command} (running : c.runningCommand = some cmd)
    (waits : cmd.getStatusCallProgress = cipRun) : c.unanswered = [] ∧ c.handling = false := by
  constructor
  · obtain answered | ⟨other, runs, _, _, progress, _⟩ := single.out
    · exact answered
    · obtain rfl := Option.some.inj (running.symm.trans runs)
      exact absurd waits progress
  · by_contra handling
    obtain ⟨other, runs, _, progress, _⟩ := single.handler (by simpa using handling)
    obtain rfl := Option.some.inj (running.symm.trans runs)
    exact absurd waits progress

theorem Single.waiting (single : c.Single) (waits : c.runningCommandStatus = .waiting) :
    c.unanswered = [] ∧ c.handling = false := by
  constructor
  · obtain answered | ⟨cmd, _, _, sent, _⟩ := single.out
    · exact answered
    · simp [waits] at sent
  · by_contra handling
    obtain ⟨cmd, _, returning, _⟩ := single.handler (by simpa using handling)
    simp [waits] at returning

theorem queCommand_kept (kept : c.Kept) (req : Request) (ok : Bool) : (c.queCommand req ok).Kept := by
  obtain ⟨⟨places, cycles⟩, paired, single⟩ := kept
  unfold queCommand
  dsimp only
  split
  · have placed : Counted { c with
        made := c.made + 1
        commandQue := c.commandQue ++ [c.accept req] } := by
      refine ⟨perm_of_next places fun i => ?_, cycles⟩
      simp [commands, accept]
      omega
    exact ⟨placed, ⟨paired.socks, paired.opened, paired.paired⟩, ⟨single.out, single.handler⟩⟩
  · rename_i free
    have idle : c.runningCommand = none := by
      by_contra running
      exact free (.inl (Option.isSome_iff_ne_none.mpr running))
    obtain ⟨answered, returned⟩ := single.idle idle
    refine sendCommand_kept rfl answered returned ⟨perm_of_next places fun i => ?_, ?_⟩
      ⟨paired.socks, paired.opened, paired.paired⟩
    · simp [commands, accept, idle, List.count_cons]
      omega
    · simpa [inHandler, returned] using cycles

theorem queSend_kept (kept : c.Kept) (req : Request) (ok : Bool) : (c.queSend req ok).Kept := by
  obtain ⟨⟨places, cycles⟩, paired, single⟩ := kept
  have pushed : Kept { c with
      made := c.made + 1
      commandQue := c.accept req :: c.commandQue } := by
    refine ⟨⟨perm_of_next places fun i => ?_, cycles⟩,
      ⟨paired.socks, paired.opened, paired.paired⟩, ⟨single.out, single.handler⟩⟩
    simp [commands, accept, List.count_cons]
    omega
  unfold queSend
  dsimp only
  split
  · exact pushed
  split
  · rename_i idle
    obtain ⟨answered, returned⟩ := single.idle idle
    refine sendCommand_kept rfl answered returned ⟨perm_of_next places fun i => ?_, ?_⟩
      ⟨paired.socks, paired.opened, paired.paired⟩
    · simp [commands, accept, idle, List.count_cons]
      omega
    · simpa [inHandler, returned] using cycles
  · rename_i running runs
    split
    · exact pushed
    · rename_i displaced
      obtain ⟨answered, returned⟩ := single.waiting (waiting_of_displaced displaced)
      refine sendCommand_kept rfl answered returned ⟨perm_of_next places fun i => ?_, ?_⟩
        ⟨paired.socks, paired.opened, paired.paired⟩
      · simp [commands, accept, runs, List.count_cons]
        omega
      · simpa [inHandler, returned] using cycles

theorem sendNextCommand_kept (answered : c.unanswered = []) (free : c.handling = false)
    (counted : { c with runningCommand := none }.Counted) (paired : c.Paired) :
    (c.sendNextCommand ok).Kept := by
  unfold sendNextCommand
  split
  · exact ⟨⟨counted.places, counted.cycles⟩, ⟨paired.socks, paired.opened, paired.paired⟩,
      ⟨.inl answered, by simp [free]⟩⟩
  · rename_i cmd rest queue
    refine sendCommand_kept rfl answered free ⟨?_, ?_⟩
      ⟨paired.socks, paired.opened, paired.paired⟩
    · have places := counted.places
      simpa [commands, queue] using places
    · have cycles := counted.cycles
      simpa [inHandler, free] using cycles

theorem queClear_kept (kept : c.Kept) (free : c.handling = false) : c.queClear.Kept := by
  obtain ⟨⟨places, cycles⟩, paired, single⟩ := kept
  unfold queClear
  by_cases sent : c.runningCommandStatus = .send
  · refine ⟨⟨perm_of_total places fun i => ?_, ?_⟩,
      ⟨paired.socks, paired.opened, paired.paired⟩, ⟨?_, ?_⟩⟩
    · simp [commands, sent]
      omega
    · simpa [inHandler, free] using cycles
    · simpa [sent] using single.out
    · simp [free]
  · have answered : c.unanswered = [] := by
      obtain answered | ⟨_, _, _, status, _⟩ := single.out
      · exact answered
      · exact absurd status sent
    refine ⟨⟨perm_of_total places fun i => ?_, ?_⟩,
      ⟨paired.socks, paired.opened, paired.paired⟩, ⟨.inl answered, ?_⟩⟩
    · simp [commands, sent]
    · simpa [inHandler, free] using cycles
    · simp [free]

theorem answered_append (c : Sender) (sock other id : Nat) :
    { c with answered := c.answered ++ [(sock, id)] }.answeredOn other =
      c.answeredOn other ++ if sock = other then [id] else [] := by
  unfold answeredOn
  rw [List.filter_append, List.map_append]
  by_cases here : sock = other <;> simp [here]

theorem paired_answered (paired : c.Paired) {sock id : Nat} (opened : c.sock = some sock)
    (out : c.unanswered = [id]) :
    { c with unanswered := [], answered := c.answered ++ [(sock, id)] }.Paired := by
  obtain ⟨below, same⟩ := paired.opened sock opened
  rw [out] at same
  have kept (other : Nat) : { c with
      unanswered := []
      answered := c.answered ++ [(sock, id)] }.answeredOn other =
        c.answeredOn other ++ if sock = other then [id] else [] := answered_append c sock other id
  refine ⟨paired.socks, ?_, ?_⟩
  · intro other here
    have here_sock : sock = other := Option.some.inj (opened.symm.trans here)
    subst here_sock
    refine ⟨below, ?_⟩
    rw [kept, if_pos rfl, List.append_nil]
    exact same
  · intro other
    rw [kept]
    by_cases here : sock = other
    · subst here
      exact ⟨[], Nat.zero_le 1, by rw [if_pos rfl, List.append_nil]; exact same⟩
    · rw [if_neg here, List.append_nil]
      exact paired.paired other

theorem commandReturn_kept (kept : c.Kept) (free : c.handling = false)
    (reply : c.unanswered ≠ []) : c.commandReturn.Kept := by
  obtain ⟨⟨places, cycles⟩, paired, single⟩ := kept
  obtain answered | ⟨cmd, running, out, sent, progress, _, opened, up⟩ := single.out
  · exact absurd answered reply
  obtain ⟨sock, opened⟩ := Option.isSome_iff_exists.mp opened
  have returned : c.commandReturn = { c with
      runningCommandStatus := .returning
      handling := true
      unanswered := []
      answered := c.answered ++ [(sock, cmd.id)] } := by
    unfold commandReturn
    split
    · rename_i idle
      simp [running] at idle
    · rename_i other runs
      obtain rfl := Option.some.inj (running.symm.trans runs)
      simp [out, opened]
  rw [returned]
  have pairs := paired_answered paired opened out
  refine ⟨⟨places, ?_⟩, ⟨pairs.socks, pairs.opened, pairs.paired⟩, ⟨.inl rfl, ?_⟩⟩
  · refine List.perm_iff_count.mpr fun i => ?_
    have total := (List.perm_iff_count.mp cycles) i
    simp [inHandler, free, running] at total ⊢
    omega
  · exact fun _ => ⟨cmd, running, rfl, progress, rfl⟩

theorem returned_kept (kept : c.Kept) (handles : c.handling = true) (reque ok : Bool) :
    (c.returned reque ok).Kept := by
  obtain ⟨⟨places, cycles⟩, paired, single⟩ := kept
  obtain ⟨cmd, running, returning, progress, answered⟩ := single.handler handles
  unfold returned
  simp only [running, Option.toList_some, List.map_cons, List.map_nil]
  cases reque with
  | true =>
    rw [if_pos rfl]
    refine sendCommand_kept rfl answered rfl ⟨?_, ?_⟩
      ⟨paired.socks, paired.opened, paired.paired⟩
    · simpa [commands, running] using places
    refine List.perm_iff_count.mpr fun i => ?_
    have total := (List.perm_iff_count.mp cycles) i
    simp [inHandler, handles, running, List.count_cons] at total ⊢
    omega
  | false =>
    refine sendNextCommand_kept answered rfl ⟨perm_of_total places fun i => ?_, ?_⟩
      ⟨paired.socks, paired.opened, paired.paired⟩
    · simp [commands, running, List.count_cons]
      omega
    · refine List.perm_iff_count.mpr fun i => ?_
      have total := (List.perm_iff_count.mp cycles) i
      simp [inHandler, handles, running, List.count_cons] at total ⊢
      omega

theorem closed_kept (kept : c.Kept) (state : ConnState) : (c.close state).Kept := by
  have pairs := paired_close kept.toPaired state
  refine ⟨⟨kept.places, kept.cycles⟩, pairs, ⟨.inl rfl, fun handles => ?_⟩⟩
  obtain ⟨cmd, running, returning, progress, _⟩ := kept.handler handles
  exact ⟨cmd, running, returning, progress, rfl⟩

theorem free_of_sent (single : c.Single) (sent : c.runningCommandStatus = .send) :
    c.handling = false := by
  by_contra handles
  obtain ⟨_, _, returning, _⟩ := single.handler (by simpa using handles)
  simp [sent] at returning

theorem failed_kept (kept : c.Kept) (running : c.runningCommand = some cmd)
    (sent : c.runningCommandStatus = .send) (answered : c.unanswered = []) :
    { c with runningCommand := none, failed := c.failed ++ [cmd.id] }.Kept := by
  have free := free_of_sent kept.toSingle sent
  refine ⟨⟨perm_of_total kept.places fun i => ?_, ?_⟩,
    ⟨kept.socks, kept.opened, kept.paired⟩, ⟨.inl answered, ?_⟩⟩
  · simp [commands, running, List.count_cons]
    omega
  · have cycles := kept.cycles
    simpa [inHandler, free] using cycles
  · simp [free]

theorem connectionError_kept (kept : c.Kept) : c.connectionError.Kept := by
  obtain ⟨state, _, same⟩ | ⟨cmd, running, sent, same⟩ := c.connectionError_cases
  · rw [same]
    exact closed_kept kept state
  · rw [same]
    exact failed_kept (closed_kept kept .broken) running sent rfl

theorem failSentCommand_kept (kept : c.Kept) (answered : c.unanswered = []) :
    c.failSentCommand.Kept := by
  unfold failSentCommand
  split
  · exact kept
  · rename_i cmd running
    split
    · rename_i sent
      have failed := failed_kept kept running sent answered
      dsimp only
      split
      · exact closed_kept failed .broken
      · exact failed
    · exact kept

theorem moved_kept (kept : c.Kept) (state : ConnState) (up : state ≠ .inprogress) :
    { c with connState := state }.Kept := by
  refine ⟨⟨kept.places, kept.cycles⟩, ⟨kept.socks, kept.opened, kept.paired⟩, ?_, kept.handler⟩
  obtain answered | ⟨cmd, running, out, sent, progress, free, opened, _⟩ := kept.out
  · exact .inl answered
  · exact .inr ⟨cmd, running, out, sent, progress, free, opened, up⟩

theorem connConnected_kept (kept : c.Kept) (answered : c.unanswered = []) (ok : Bool) :
    (c.connConnected ok).Kept := by
  unfold connConnected
  have moved := moved_kept kept .authPending (by decide)
  split
  · exact moved
  · exact queSend_kept (failSentCommand_kept moved answered) _ ok

theorem paired_opened (paired : c.Paired) (answered : c.unanswered = []) :
    { c with sock := some c.socks, socks := c.socks + 1 }.Paired := by
  have unwritten : c.writtenOn c.socks = [] := by
    unfold writtenOn
    rw [List.map_eq_nil_iff, List.filter_eq_nil_iff]
    intro entry listed here
    exact absurd (of_decide_eq_true here) (Nat.ne_of_lt (paired.socks entry listed))
  refine ⟨fun entry listed => Nat.lt_succ_of_lt (paired.socks entry listed), ?_, paired.paired⟩
  intro sock opened
  obtain rfl := Option.some.inj opened
  obtain ⟨rest, _, same⟩ := paired.paired c.socks
  rw [unwritten] at same
  obtain ⟨none, _⟩ := List.append_eq_nil_iff.mp same.symm
  refine ⟨Nat.lt_succ_self _, ?_⟩
  calc c.writtenOn c.socks = [] := unwritten
    _ = c.answeredOn c.socks ++ c.unanswered := by rw [none, answered, List.append_nil]

theorem init_kept (kept : c.Kept) (answered : c.unanswered = []) (connects : Connects) (ok : Bool) :
    (c.init connects ok).Kept := by
  have pairs := paired_opened kept.toPaired answered
  have opened : Kept { c with sock := some c.socks, socks := c.socks + 1 } :=
    ⟨⟨kept.places, kept.cycles⟩, pairs, ⟨.inl answered, kept.handler⟩⟩
  unfold init
  cases connects with
  | inprogress =>
    exact ⟨⟨kept.places, kept.cycles⟩, ⟨pairs.socks, pairs.opened, pairs.paired⟩,
      ⟨.inl answered, kept.handler⟩⟩
  | done => exact connConnected_kept opened answered ok
  | failed =>
    dsimp only
    split
    · exact kept
    · exact connectionError_kept kept

theorem leaveSocket_kept (kept : c.Kept) (free : c.handling = false) : c.leaveSocket.Kept := by
  have closed := paired_close kept.toPaired .connecting
  refine ⟨⟨perm_of_total kept.places fun i => ?_, ?_⟩,
    ⟨closed.socks, closed.opened, closed.paired⟩, ⟨.inl rfl, ?_⟩⟩
  · cases running : c.runningCommand with
    | none => simp [leaveSocket, commands, running]
    | some cmd => by_cases key : cmd.cls = .sendKey <;>
      simp [leaveSocket, commands, running, key, List.count_cons]
  · have cycles := kept.cycles
    simpa [leaveSocket, inHandler, free] using cycles
  · simp [leaveSocket, free]

theorem reconnectSocket_kept (kept : c.Kept) (free : c.handling = false) (connects : Connects)
    (ok : Bool) : (c.reconnectSocket connects ok).Kept := by
  have left := leaveSocket_kept kept free
  cases connects with
  | failed => exact connectionError_kept left
  | inprogress => exact init_kept left rfl .inprogress ok
  | done => exact init_kept left rfl .done ok

theorem again_kept (kept : c.Kept) (ok : Bool)
    (waits : c.runningCommand.any (·.getStatusCallProgress = cipRun) = true) :
    (c.sendCommand ok).Kept := by
  obtain ⟨cmd, running, progress⟩ := (Option.any_eq_true _ _).mp waits
  obtain ⟨answered, free⟩ := kept.toSingle.again running (of_decide_eq_true progress)
  exact sendCommand_kept running answered free kept.toCounted kept.toPaired

theorem startNext_kept (kept : c.Kept) (idle : c.runningCommand = none) (ok : Bool) :
    (c.sendNextCommand ok).Kept := by
  obtain ⟨answered, free⟩ := kept.toSingle.idle idle
  refine sendNextCommand_kept answered free ⟨?_, ?_⟩ kept.toPaired
  · simpa [commands, idle] using kept.places
  · simpa [inHandler, free] using kept.cycles

theorem setConnState_kept (kept : c.Kept) (state : ConnState) (up : state ≠ .inprogress) (ok : Bool) :
    (c.setConnState state ok).Kept := by
  unfold setConnState
  dsimp only
  have moved (s : Sender) (kept : s.Kept) : Kept (if state = ConnState.authFailed then
      connectionError { s with connState := state } else { s with connState := state }) := by
    split
    · exact connectionError_kept (moved_kept kept state up)
    · exact moved_kept kept state up
  refine moved _ ?_
  split
  · rename_i starts
    exact startNext_kept kept starts.2 ok
  · exact kept

theorem deleteConnection_kept (kept : c.Kept) (conn : Nat) : (c.deleteConnection conn).Kept := by
  unfold deleteConnection
  dsimp only
  refine ⟨⟨?_, ?_⟩, ⟨kept.socks, kept.opened, kept.paired⟩, ⟨?_, ?_⟩⟩
  · have places := kept.places
    cases running : c.runningCommand <;>
      simpa [commands, running, Function.comp_def] using places
  · have cycles := kept.cycles
    cases running : c.runningCommand <;> simpa [inHandler, running] using cycles
  · obtain answered | ⟨cmd, running, rest⟩ := kept.out
    · exact .inl answered
    · refine .inr ⟨{ cmd with
        originator := if cmd.originator = some conn then none else cmd.originator }, ?_, rest⟩
      simp [running]
  · intro handles
    obtain ⟨cmd, running, rest⟩ := kept.handler handles
    refine ⟨{ cmd with
      originator := if cmd.originator = some conn then none else cmd.originator }, ?_, rest⟩
    simp [running]

theorem step_kept (c : Sender) (e : QueEvent) (kept : c.Kept) (enabled : c.Enabled e) :
    (c.step e).Kept := by
  cases e with
  | queCommand req ok => exact queCommand_kept kept req ok
  | queSend req ok => exact queSend_kept kept req ok
  | queClear => exact queClear_kept kept enabled
  | commandReturn => exact commandReturn_kept kept enabled.1 enabled.2
  | returned reque ok => exact returned_kept kept enabled.1 reque ok
  | setBopState in_value ok =>
    have kept : { c with bopState := in_value }.Kept :=
      ⟨⟨kept.places, kept.cycles⟩, ⟨kept.socks, kept.opened, kept.paired⟩, ⟨kept.out, kept.handler⟩⟩
    unfold step setBopState
    dsimp only
    split
    · rename_i waits
      exact again_kept kept ok waits
    · exact kept
  | masterStateChanged ok =>
    unfold step masterStateChanged
    dsimp only
    split
    · rename_i waits
      exact again_kept kept ok waits
    · exact kept
  | setConnState state ok =>
    refine setConnState_kept kept state ?_ ok
    rintro rfl
    exact enabled.2.2.1 (.inr (.inr (.inr rfl)))
  | connectionError => exact connectionError_kept kept
  | init connects ok =>
    refine init_kept kept ?_ connects ok
    obtain answered | ⟨_, _, _, _, _, _, opened, _⟩ := kept.out
    · exact answered
    · simp [enabled.2.1] at opened
  | connConnected ok =>
    refine connConnected_kept kept ?_ ok
    obtain answered | ⟨_, _, _, _, _, _, _, up⟩ := kept.out
    · exact answered
    · exact absurd enabled.2.2 up
  | reconnectSocket connects ok => exact reconnectSocket_kept kept enabled.1 connects ok
  | deleteConnection conn => exact deleteConnection_kept kept conn

theorem fresh_kept (connClass : ConnClass) (connState : ConnState) (sock : Bool) (bopState : Status) :
    (fresh connClass connState sock bopState).Kept := by
  refine ⟨⟨.refl [], .refl []⟩, ⟨?_, ?_, ?_⟩, ⟨.inl rfl, ?_⟩⟩
  · simp [fresh]
  · intro other opened
    cases sock with
    | false => simp [fresh] at opened
    | true =>
      obtain rfl : 0 = other := by simpa [fresh] using opened
      exact ⟨Nat.zero_lt_one, rfl⟩
  · exact fun _ => ⟨[], Nat.zero_le 1, rfl⟩
  · simp [fresh]

end Sender

end Rts2.Kernel
