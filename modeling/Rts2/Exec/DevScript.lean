import Rts2.Lib.Run

/-! A camera that runs scripts: the current and the next target, the script, the command it prepared, and the kill of a
running script. A call that posts an event to the whole program may find the camera called again before it goes on; so
the calls that are not finished are a stack, and a step finishes the first or handles an event. -/
namespace Rts2.Exec

structure Target where
  targetID : Int
  obsTargetID : Int
  obsId : Int
  deriving DecidableEq

structure Assigned where
  target : Target
  number : Nat
  deriving DecidableEq

/-- What Script::nextCommand hands out: the bits of the mask, and the connections of the devices it is for, none for the
camera itself. -/
structure Handed where
  exposure : Bool
  telMove : Bool
  whileState : Bool
  conns : List Nat
  deriving DecidableEq

structure ScriptCommand where
  id : Nat
  handed : Handed
  deriving DecidableEq

inductive NextCommand where
  | stopTarget | next | endScript | keep | waiting | resync | checkWait | waitAcqusition | acqusitionImage | waitSignal
  | waitMirror | waitSearch
  deriving DecidableEq

def NextCommand.negative : NextCommand → Bool
  | .stopTarget | .next | .endScript => true
  | .keep | .waiting | .resync | .checkWait | .waitAcqusition | .acqusitionImage | .waitSignal | .waitMirror
  | .waitSearch => false

/-- What the script answers: how many commands it handed out for devices that are not there, and the one it hands out at
last. After NEXT_COMMAND_PRECISION_OK it is asked again. The devices that waited for an acquisition may end their scripts
when it ends; the targets are what the executor then gives with EVENT_SCRIPT_ENDED. -/
inductive Answer where
  | ret (r : NextCommand) (missing : Nat) (comd : Option Handed)
  | precisionFailed (missing : Nat) (comd : Option Handed) (given : List Target)
  | precisionOk (missing : Nat) (comd : Option Handed) (given : List Target) (again : Answer)

inductive AcqEnd where
  | precisionOk | precisionFailed | aborted
  deriving DecidableEq

inductive WaitScript where
  | noWait | slave | master | signal | mirror | search
  deriving DecidableEq

/-- What a call reads from the script, the camera and the mount; queExpNum is none where the camera has no such value,
and `more` is a positive return of queCommand. -/
structure Surroundings where
  emptyScript : Bool
  executedCount : Nat
  failedCount : Nat
  answer : Answer
  queueEmpty : Bool
  queExpNum : Option Int
  exposing : Bool
  waitForMetaData : Bool
  wasMoved : Bool
  waitMove : Bool
  blocked : Bool
  isLastCommand : Bool
  originatorPending : Bool
  more : Bool

def Surroundings.still (answer : Answer) : Surroundings where
  emptyScript := false
  executedCount := 1
  failedCount := 0
  answer := answer
  queueEmpty := true
  queExpNum := some 0
  exposing := false
  waitForMetaData := false
  wasMoved := true
  waitMove := false
  blocked := false
  isLastCommand := false
  originatorPending := false
  more := false

inductive Kill where
  | stopTarget | killAll | setTargetKill | setTargetKillNotClear
  deriving DecidableEq

/-- The calls that are not finished. -/
inductive Call where
  | posting
  | nextCommand (triggerCommand : Option Nat)
  | clearKill
  | loop
  | startAfterEnd
  | exposureStartedRest
  | exposureEndRest
  | triggeredRest
  deriving DecidableEq

/-- The fields from `assigned` on are read by no function, those of commands apart: the number of targets given, those
whose script was started, which another target or a kill superseded, whose execution failed before, and which have no
script; the target that waits for its kill command, those given with one, those the answer of one took, and those that
another kill or target followed while they waited; the commands that were handed out, queued and to whom, deleted with
their script, deleted by the start of one, or for a device that is not there; those that were not answered, and whether
they are for an exposure; and the exposures that did not start, fail or end. -/
structure DevScript where
  currentTarget : Option Assigned
  nextTarget : Option Assigned
  killTarget : Option Assigned
  nextComd : Option ScriptCommand
  cmdConns : List Nat
  waitScript : WaitScript
  scriptKillCommand : Option Nat
  scriptKillcallScriptEnds : Bool
  script : Option Nat
  dont_execute_for : Int
  dont_execute_for_obsid : Int
  scriptLoopCount : Nat
  lastTargetObsID : Int
  waitForExposure : Bool
  waitMetaData : Bool
  made : Nat
  stack : List Call
  assigned : Nat
  started : List Nat
  superseded : List Nat
  disabled : List Nat
  idle : List Nat
  waiting : Option Nat
  kills : List (Nat × Nat)
  taken : List (Nat × Nat)
  outdated : List Nat
  handed : List ScriptCommand
  queued : List (Nat × Option Nat)
  deleted : List ScriptCommand
  restarted : List ScriptCommand
  missing : List Nat
  outstanding : List (Nat × Bool)
  awaited : List Nat

namespace DevScript

variable (c : DevScript)

def push (calls : List Call) : DevScript := { c with stack := calls ++ c.stack }

def deleteNextComd : DevScript := { c with nextComd := none, deleted := c.deleted ++ c.nextComd.toList }

def nextAsCurrent : DevScript :=
  if c.currentTarget.isNone then { c with currentTarget := c.nextTarget, nextTarget := none } else c

/-- The rest of startTarget. CommandScriptEnds and the values that tell of the script are queued besides. -/
def startCurrent (t : Assigned) (a : Surroundings) : DevScript :=
  let c := { c with
    scriptLoopCount := if c.lastTargetObsID = t.target.obsTargetID then c.scriptLoopCount + 1 else 0 }
  if a.emptyScript then { c with currentTarget := none, idle := c.idle ++ [t.number] }
  else { c with
    script := some t.number
    started := c.started ++ [t.number]
    nextComd := none
    restarted := c.restarted ++ c.nextComd.toList }

def startTarget (a : Surroundings) : DevScript :=
  let c := { c with cmdConns := [] }.nextAsCurrent
  c.currentTarget.elim c fun t => c.startCurrent t a

def setNextTarget (in_target : Assigned) : DevScript :=
  let c := { c with superseded := c.superseded ++ c.nextTarget.toList.map Assigned.number }
  if in_target.target.targetID = c.dont_execute_for ∧ in_target.target.obsId = c.dont_execute_for_obsid then
    { c with nextTarget := none, disabled := c.disabled ++ [in_target.number] }
  else
    { c with
      nextTarget := some in_target
      outdated := c.outdated ++ c.waiting.toList
      dont_execute_for := -1
      dont_execute_for_obsid := -1 }

def give (t : Target) : DevScript := { c with assigned := c.assigned + 1 }.setNextTarget ⟨t, c.assigned⟩

def dontExecute (t : Target) : DevScript :=
  { c with dont_execute_for := t.targetID, dont_execute_for_obsid := t.obsId }

def disableTarget (t : Target) : DevScript :=
  let c := c.dontExecute t
  if c.nextTarget.any (·.target.targetID = t.targetID) then
    { c with nextTarget := none, disabled := c.disabled ++ c.nextTarget.toList.map Assigned.number }
  else c

def endScript (a : Surroundings) : DevScript :=
  match c.currentTarget with
  | none => { c with script := none }.push [.posting]
  | some t =>
    let c := { c with lastTargetObsID := t.target.obsTargetID }
    let c := if a.executedCount = 0 ∧ t.target.targetID ≥ 0 then c.disableTarget t.target else c
    let c := if a.failedCount > 0 then c.dontExecute t.target else c
    { c with script := none, currentTarget := none }.push [.posting]

def deleteScript (a : Surroundings) : DevScript :=
  let c := { c with waitScript := .noWait }.deleteNextComd
  if c.script.isSome then c.endScript a else c

def getNextCommand (missing : Nat) (comd : Option Handed) : DevScript :=
  let next := comd.map fun h => (⟨c.made + missing, h⟩ : ScriptCommand)
  { c with
    nextComd := next
    cmdConns := (comd.map Handed.conns).getD []
    made := c.made + missing + next.toList.length
    handed := c.handed ++ next.toList
    missing := c.missing ++ List.range' c.made missing }

def answer (r : NextCommand) : DevScript :=
  match r with
  | .waitAcqusition => { c with waitScript := .slave }
  | .acqusitionImage => { c with waitScript := .master }
  | .waitSignal => { c with waitScript := .signal }
  | .waitMirror => { c with waitScript := .mirror }
  | .waitSearch => { c with waitScript := .search }
  | .stopTarget => c.currentTarget.elim c fun t => c.dontExecute t.target
  | .next | .endScript | .keep | .waiting | .resync | .checkWait => c

def nextPreparedCommand : Answer → DevScript → NextCommand × DevScript
  | .ret r missing comd, c => if c.nextComd.isSome then (.keep, c) else (r, (c.getNextCommand missing comd).answer r)
  | .precisionFailed missing comd given, c =>
    if c.nextComd.isSome then (.keep, c)
    else (.endScript, given.foldl give { c.getNextCommand missing comd with waitScript := .noWait })
  | .precisionOk missing comd given again, c =>
    if c.nextComd.isSome then (.keep, c)
    else nextPreparedCommand again (given.foldl give { c.getNextCommand missing comd with waitScript := .noWait })

def queCommand (cmd : ScriptCommand) (devices : List (Option Nat)) (exposure : Bool) : DevScript :=
  { c with
    nextComd := none
    waitForExposure := exposure
    queued := c.queued ++ devices.map (cmd.id, ·)
    outstanding := c.outstanding ++ devices.map fun _ => (cmd.id, exposure)
    awaited := if exposure then c.awaited ++ [cmd.id] else c.awaited }

def Held (a : Surroundings) (cmd : ScriptCommand) : Prop :=
  if cmd.handed.whileState then a.queExpNum.any (· ≠ 0) = true ∨ a.queueEmpty = false
  else if cmd.handed.telMove then a.queExpNum.any (· ≠ 0) = true ∨ c.waitForExposure = true
  else cmd.handed.exposure = true ∧ c.waitForExposure = true

instance (a : Surroundings) (cmd : ScriptCommand) : Decidable (c.Held a cmd) :=
  inferInstanceAs (Decidable (if cmd.handed.whileState then _ ∨ _ else if cmd.handed.telMove then _ ∨ _ else _ ∧ _))

def doCommand (a : Surroundings) (cmd : ScriptCommand) : DevScript :=
  let c := { c with waitMetaData := false }
  let again (c : DevScript) : DevScript := if a.more then c.push [.loop] else c
  if cmd.handed.exposure ∧ c.currentTarget.isSome ∧ a.wasMoved = false then c
  else if cmd.handed.exposure ∧ a.waitForMetaData = true then { c with waitMetaData := true }
  else if c.Held a cmd then c
  else if c.cmdConns ≠ [] then
    if cmd.handed.whileState = false ∧ (a.queueEmpty = false ∨ a.queExpNum.any (· > 0) = true ∨ a.blocked = true) then c
    else again (c.queCommand cmd (c.cmdConns.map some) false)
  else again (c.queCommand cmd [none] cmd.handed.exposure)

def haveCommand (a : Surroundings) : DevScript :=
  if a.waitMove = true ∨ c.waitScript ∉ [.noWait, .master] then c
  else
    match c.nextComd with
    | none => c
    | some cmd => c.doCommand a cmd

def canEndScript (a : Surroundings) : Bool := !a.queExpNum.any (· ≠ 0) && !a.exposing

def loop (a : Surroundings) : DevScript :=
  if c.script.isNone ∨ c.waitScript = .slave then c
  else
    let (ret, c) := nextPreparedCommand a.answer c
    if ret.negative && a.queueEmpty && canEndScript a then (c.push [.startAfterEnd]).deleteScript a
    else c.haveCommand a

def startAfterEnd (a : Surroundings) : DevScript :=
  let c := c.startTarget a
  if c.script.isNone then c
  else
    let (ret, c) := nextPreparedCommand a.answer c
    if ret.negative then c.deleteScript a else c.haveCommand a

/-- DevClientCameraExec::nextCommand; the target of a kill is set when its command is answered. -/
def nextCommand (triggerCommand : Option Nat) (a : Surroundings) : DevScript :=
  if c.scriptKillCommand.isSome ∧ triggerCommand = c.scriptKillCommand then
    let c := c.push [.clearKill, .loop]
    match c.currentTarget, c.killTarget with
    | none, some t =>
      let c := { c with waiting := none, taken := c.taken ++ triggerCommand.toList.map (·, t.number) }
      ((c.setNextTarget t).startTarget a).push [.nextCommand none]
    | _, _ => c
  else c.push [.loop]

def clearKill : DevScript :=
  { c with
    killTarget := none
    scriptKillCommand := none
    scriptKillcallScriptEnds := false
    waiting := none
    superseded := c.superseded ++ c.waiting.toList }

/-- The target of a kill, and the command queued for it; EVENT_KILL_ALL has none, and leaves that of another kill. -/
def setKill (kind : Kill) (arg : Option Target) : DevScript :=
  let id := c.made
  let c := { c with
    scriptKillCommand := some id
    scriptKillcallScriptEnds := decide (kind ≠ Kill.setTargetKillNotClear)
    outdated := c.outdated ++ c.waiting.toList
    made := id + 1
    outstanding := c.outstanding ++ [(id, false)] }
  if kind = Kill.killAll then c
  else
    let c := { c with killTarget := none, waiting := none, superseded := c.superseded ++ c.waiting.toList }
    arg.elim c fun t => { c with
      killTarget := some ⟨t, c.assigned⟩
      waiting := some c.assigned
      assigned := c.assigned + 1
      kills := c.kills ++ [(id, c.assigned)] }

def stopScript (kind : Kill) : DevScript :=
  let c :=
    if kind = Kill.stopTarget then c.currentTarget.elim c fun t => c.dontExecute t.target
    else { c with waitForExposure := false, dont_execute_for := -1, dont_execute_for_obsid := -1 }
  { c with
    superseded := c.superseded ++ c.nextTarget.toList.map Assigned.number
    currentTarget := none
    nextTarget := none
    waitScript := .noWait
    script := none }.deleteNextComd

def kill (kind : Kill) (arg : Option Target) : DevScript := (c.stopScript kind).setKill kind arg

def setTarget (in_target : Target) (a : Surroundings) : DevScript :=
  let c := c.give in_target
  if c.currentTarget.isSome then c else (c.startTarget a).push [.nextCommand none]

def observe (a : Surroundings) : DevScript :=
  if c.currentTarget.isSome then c.push [.nextCommand none] else (c.startTarget a).push [.nextCommand none]

def scriptEnded (arg : Option Target) (a : Surroundings) : DevScript :=
  let c := arg.elim c c.give
  if c.currentTarget.isSome then c else c.observe a

def scriptRunning : Bool := c.script.isSome || c.killTarget.isSome || c.nextTarget.isSome

def acqusitionEnd (acqEnd : AcqEnd) (a : Surroundings) : DevScript :=
  if c.waitScript ≠ .slave then c
  else
    let c := { c with waitScript := .noWait }
    match acqEnd with
    | .precisionOk => c.push [.nextCommand none]
    | .precisionFailed => c.deleteScript a
    | .aborted => c

def mirrorFinish : DevScript :=
  if c.script.isSome ∧ c.waitScript = .mirror then { c with waitScript := .noWait }.push [.nextCommand none] else c

def signal (sig : Int) : DevScript :=
  if c.script.isSome ∧ sig = -1 then { c with waitScript := .noWait }.push [.nextCommand none] else c

def exposureStarted : DevScript :=
  let first := if c.nextComd.any (·.handed.whileState) then [.nextCommand none] else []
  c.push (first ++ [.exposureStartedRest])

def exposureStartedRest : DevScript :=
  if c.waitForExposure then
    let c := { c with waitForExposure := false }
    if c.nextComd.any (·.handed.telMove) then c.push [.nextCommand none] else c
  else c

def exposureEnd (a : Surroundings) : DevScript :=
  let c := c.push [.exposureEndRest]
  if c.script.isSome ∧ c.nextComd = none ∧ a.isLastCommand = true ∧ ¬ a.queExpNum.any (· ≠ 0) = true ∧
      a.originatorPending = false then
    (c.push [.posting]).deleteScript a
  else c

def exposureEndRest (a : Surroundings) : DevScript :=
  let ready := c.cmdConns ≠ [] ∧ c.nextComd.any (! ·.handed.whileState) = true ∧ a.exposing = false ∧ a.queExpNum = some 0
  if ready ∨ c.nextComd = none then c.push [.nextCommand none] else c

def readoutEnd : DevScript := c.push ((if c.script.isNone then [.posting] else []) ++ [.nextCommand none])

end DevScript

/-- The events of a camera that runs scripts; the last are of commands and exposures whose ends it is not told. -/
inductive ScriptEvent where
  | setTarget (t : Target)
  | observe
  | scriptEnded (arg : Option Target)
  | stopObservation
  | kill (kind : Kill) (arg : Option Target)
  | nextCommand
  | acqusitionEnd (acqEnd : AcqEnd)
  | mirrorFinish
  | signal (sig : Int)
  | triggered
  | commandOK (id : Nat)
  | commandFailed (id : Nat)
  | exposureStarted (id : Nat)
  | exposureEnd
  | exposureFailed (ids : List Nat)
  | readoutEnd
  | commandLost (id : Nat)
  | exposureLost (ids : List Nat)

inductive Step where
  | post (e : ScriptEvent) (a : Surroundings)
  | go (a : Surroundings)

namespace DevScript

variable (c : DevScript)

def answered (id : Nat) : DevScript := { c with outstanding := c.outstanding.eraseP (·.1 = id) }

def noLonger (ids : List Nat) : DevScript := { c with awaited := c.awaited.filter (· ∉ ids) }

def post (a : Surroundings) : ScriptEvent → DevScript
  | .setTarget t => c.setTarget t a
  | .observe => c.observe a
  | .scriptEnded arg => c.scriptEnded arg a
  | .stopObservation => c.deleteScript a
  | .kill kind arg => c.kill kind arg
  | .nextCommand => c.push [.nextCommand none]
  | .acqusitionEnd acqEnd => c.acqusitionEnd acqEnd a
  | .mirrorFinish => c.mirrorFinish
  | .signal sig => c.signal sig
  | .triggered => c.push [.triggeredRest]
  | .commandOK id => (c.answered id).push [.nextCommand (some id)]
  | .commandFailed id => { (c.answered id).noLonger [id] with waitForExposure := false }.push [.nextCommand none]
  | .exposureStarted id => (c.noLonger [id]).exposureStarted
  | .exposureEnd => c.exposureEnd a
  | .exposureFailed ids => (c.noLonger ids).push [.nextCommand none]
  | .readoutEnd => c.readoutEnd
  | .commandLost id => (c.answered id).noLonger [id]
  | .exposureLost ids => c.noLonger ids

def resume (a : Surroundings) : Call → DevScript
  | .posting => c
  | .nextCommand triggerCommand => c.nextCommand triggerCommand a
  | .clearKill => c.clearKill
  | .loop => c.loop a
  | .startAfterEnd => c.startAfterEnd a
  | .exposureStartedRest => c.exposureStartedRest
  | .exposureEndRest => c.exposureEndRest a
  | .triggeredRest => if c.waitForExposure then c else c.push [.nextCommand none]

def go (a : Surroundings) : DevScript :=
  match c.stack with
  | [] => c
  | call :: rest => { c with stack := rest }.resume a call

def step (c : DevScript) : Step → DevScript
  | .post e a => c.post a e
  | .go a => c.go a

/-- What the other connections and the executor tell may come while an event is posted to the whole program; what the
camera tells comes between calls. A command is answered, or given up with its connection, once for each device; the
camera tells of exposures of others too. -/
def Enabled (c : DevScript) : Step → Prop
  | .post e _ =>
    match e with
    | .commandOK id | .commandFailed id => c.stack = [] ∧ id ∈ c.outstanding.map Prod.fst
    | .commandLost id => (c.stack = [] ∨ c.stack.head? = some .posting) ∧ id ∈ c.outstanding.map Prod.fst
    | .triggered | .exposureStarted _ | .exposureEnd | .exposureFailed _ | .readoutEnd => c.stack = []
    | .setTarget _ | .observe | .scriptEnded _ | .stopObservation | .kill .. | .nextCommand | .acqusitionEnd _
    | .mirrorFinish | .signal _ | .exposureLost _ => c.stack = [] ∨ c.stack.head? = some .posting
  | .go _ => c.stack ≠ []

instance (c : DevScript) : DecidablePred (Enabled c)
  | .post (.commandOK _) _ | .post (.commandFailed _) _ => inferInstanceAs (Decidable (_ ∧ _))
  | .post (.commandLost _) _ => inferInstanceAs (Decidable ((_ ∨ _) ∧ _))
  | .post .triggered _ | .post (.exposureStarted _) _ | .post .exposureEnd _ | .post (.exposureFailed _) _
  | .post .readoutEnd _ => inferInstanceAs (Decidable (_ = _))
  | .post (.setTarget _) _ | .post .observe _ | .post (.scriptEnded _) _ | .post .stopObservation _ | .post (.kill ..) _
  | .post .nextCommand _ | .post (.acqusitionEnd _) _ | .post .mirrorFinish _ | .post (.signal _) _
  | .post (.exposureLost _) _ => inferInstanceAs (Decidable (_ ∨ _))
  | .go _ => inferInstanceAs (Decidable (_ ≠ _))

def fresh : DevScript where
  currentTarget := none
  nextTarget := none
  killTarget := none
  nextComd := none
  cmdConns := []
  waitScript := .noWait
  scriptKillCommand := none
  scriptKillcallScriptEnds := false
  script := none
  dont_execute_for := -1
  dont_execute_for_obsid := -1
  scriptLoopCount := 0
  lastTargetObsID := -1
  waitForExposure := false
  waitMetaData := false
  made := 0
  stack := []
  assigned := 0
  started := []
  superseded := []
  disabled := []
  idle := []
  waiting := none
  kills := []
  taken := []
  outdated := []
  handed := []
  queued := []
  deleted := []
  restarted := []
  missing := []
  outstanding := []
  awaited := []

end DevScript

end Rts2.Exec
