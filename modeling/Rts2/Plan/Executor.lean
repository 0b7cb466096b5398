import Rts2.Plan.Queue
import Rts2.Kernel.Status

/-! The executor: its current target, the queue of the next ones, the targets it is done with, and
the observations it records of them. -/
namespace Rts2.Plan

open Kernel

/-- A target object. `observation` is the Observation it holds, by its number; `obs_id` is the
number that setObsId writes, which getObsId does not read. -/
structure Target where
  target_id : Nat
  name : String
  observation : Option Nat
  obs_id : Option Nat
  observationStart : Bool

/-- What the targets, the clock, the scripts and the database answer while an event is handled.
`created` is the row createTarget finds, if it finds one. -/
structure World (τ δ : Type) where
  now : τ
  julian : τ → δ
  isAboveHorizon : Nat → δ → Bool
  isContinues : Nat → Int
  scriptRunning : Int
  created : Option (Nat × String)

/-- The targets are numbered as they are made. `starts` and `ends` are the starts and ends of
observations as they are written to the database. -/
structure Executor (τ : Type) where
  target : Nat → Target
  made : Nat
  deleted : List Nat
  queue : ExecutorQueue Nat τ
  static_qid : Nat
  currentTarget : Option Nat
  targetsQue : List Nat
  enabled : Bool
  autoLoop : Bool
  defaultAutoLoop : Bool
  ignoreDay : Bool
  execEnd : Bool
  masterState : Status
  nextObs : Nat
  starts : List (Nat × Nat)
  ends : List Nat

def blankTarget : Target where
  target_id := 0
  name := ""
  observation := none
  obs_id := none
  observationStart := false

def Executor.fresh {τ : Type} (auto ignore : Bool) : Executor τ where
  target _ := blankTarget
  made := 0
  deleted := []
  queue := { entries := [], currentTarget := none, removed := [], executed := [], deleted := [] }
  static_qid := 0
  currentTarget := none
  targetsQue := []
  enabled := true
  autoLoop := auto
  defaultAutoLoop := auto
  ignoreDay := ignore
  execEnd := false
  masterState := serverdHardOff
  nextObs := 1
  starts := []
  ends := []

variable {τ δ : Type}

namespace Executor

def getTargetID (s : Executor τ) (t : Nat) : Int := (s.target t).target_id

def setTarget (s : Executor τ) (t : Nat) (tar : Target) : Executor τ :=
  { s with target := Function.update s.target t tar }

def createTarget (s : Executor τ) (row : Nat × String) : Executor τ :=
  { s with
    target := Function.update s.target s.made
      { target_id := row.1, name := row.2, observation := none, obs_id := none,
        observationStart := false }
    made := s.made + 1 }

def endObservation (s : Executor τ) (w : World τ δ) (t : Nat) (in_next_id : Int) :
    Executor τ × Int :=
  if w.isContinues t = 1 ∧ in_next_id = s.getTargetID t then (s, 1)
  else
    match (s.target t).observation with
    | some o =>
      ({ s.setTarget t { s.target t with obs_id := none, observationStart := false } with
          ends := s.ends ++ [o] }, 0)
    | none => (s.setTarget t { s.target t with observationStart := false }, 0)

def startObservation (s : Executor τ) (t : Nat) : Executor τ :=
  if (s.target t).observationStart then s
  else
    match (s.target t).observation with
    | some o =>
      { s.setTarget t { s.target t with observationStart := true } with
        starts := s.starts ++ [(t, o)] }
    | none => s.setTarget t { s.target t with observationStart := true }

/-- startSlew: a new Observation, unless there is one; `inserted` says if the database took it. -/
def startSlew (s : Executor τ) (t : Nat) (inserted : Bool) : Executor τ :=
  match (s.target t).observation with
  | some _ => s
  | none =>
    if inserted then
      { s.setTarget t { s.target t with observation := some s.nextObs, obs_id := some s.nextObs } with
        nextObs := s.nextObs + 1 }
    else s

def updateSlew (s : Executor τ) (t : Nat) (inserted : Bool) : Executor τ := s.startSlew t inserted

def newObsSlew (s : Executor τ) (w : World τ δ) (t : Nat) (inserted : Bool) : Executor τ :=
  let s := (s.endObservation w t (-1)).1
  (s.setTarget t { s.target t with observation := none }).updateSlew t inserted

def processTarget (s : Executor τ) (t : Nat) : Executor τ :=
  { s with targetsQue := s.targetsQue ++ [t] }

/-- The queue as one of its methods left it. The targets it deleted end their observations as they
are destroyed. -/
def setQueue (s : Executor τ) (q : ExecutorQueue Nat τ) : Executor τ :=
  { s with
    queue := { q with deleted := [] }
    deleted := s.deleted ++ q.deleted
    ends := s.ends ++ q.deleted.filterMap (fun t => (s.target t).observation) }

/-- `delete` of a target that no one holds yet. -/
def deleteTarget (s : Executor τ) (t : Nat) : Executor τ :=
  { s with
    deleted := s.deleted ++ [t]
    ends := s.ends ++ (s.target t).observation.toList }

def asks (s : Executor τ) (w : World τ δ) : Targets Nat τ δ where
  getTargetID := s.getTargetID
  getTargetName t := (s.target t).name
  observationStarted t := (s.target t).observationStart
  isAboveHorizon := w.isAboveHorizon
  julian := w.julian

def queued (s : Executor τ) (t : Nat) (t_start t_end : Option τ) : QueuedTarget Nat τ where
  qid := s.static_qid + 1
  target := t
  t_start := t_start
  t_end := t_end
  unobservable_reported := false

def addTarget (s : Executor τ) (t : Nat) (t_start t_end : Option τ) : Executor τ :=
  { s with
    queue := s.queue.addTarget (s.queued t t_start t_end)
    static_qid := s.static_qid + 1 }

def addFront (s : Executor τ) (t : Nat) : Executor τ :=
  { s with
    queue := s.queue.addFront (s.queued t none none)
    static_qid := s.static_qid + 1 }

def resetAutoLoop (s : Executor τ) : Executor τ := { s with autoLoop := s.defaultAutoLoop }

def clearNextTargets (s : Executor τ) : Executor τ :=
  (s.setQueue (s.queue.setCurrentTarget s.currentTarget).clearNext).resetAutoLoop

def started (s : Executor τ) : Bool :=
  match s.currentTarget with
  | some t => (s.target t).observationStart
  | none => false

def dropStarted (s : Executor τ) : Executor τ :=
  if s.autoLoop = false ∧ s.started = true then { s with currentTarget := none } else s

def takeFront (s : Executor τ) (w : World τ δ) : Executor τ :=
  match s.queue.entries with
  | front :: _ =>
    match s.currentTarget with
    | some t =>
      if (s.endObservation w t (s.getTargetID front.target)).2 = 1 ∧
          s.getTargetID front.target = s.getTargetID t then
        (s.endObservation w t (s.getTargetID front.target)).1
      else
        { (s.endObservation w t (s.getTargetID front.target)).1.processTarget t with
          currentTarget := some front.target }
    | none => { s with currentTarget := some front.target }
  | [] => s

def changeTarget (s : Executor τ) (w : World τ δ) : Executor τ :=
  s.dropStarted.resetAutoLoop.takeFront w

def remakes (s : Executor τ) (w : World τ δ) : Bool :=
  match s.currentTarget with
  | some t =>
    w.isContinues t = 2 &&
      match s.queue.entries with
      | front :: _ => s.getTargetID front.target = s.getTargetID t
      | [] => true
  | none => false

variable [LinearOrder τ] [LinearOrder δ]

def beforeChange (s : Executor τ) (w : World τ δ) : Executor τ :=
  s.setQueue ((s.queue.setCurrentTarget s.currentTarget).beforeChange (s.asks w) w.now)

def doSwitch (s : Executor τ) (w : World τ δ) : Executor τ :=
  let s := s.beforeChange w
  if s.remakes w then
    match w.created with
    | some row => ((s.createTarget row).addFront s.made).changeTarget w
    | none => s
  else s.changeTarget w

omit [LinearOrder τ] [LinearOrder δ] in
def dismiss (s : Executor τ) (w : World τ δ) : Executor τ :=
  match s.currentTarget with
  | some t =>
    { (s.endObservation w t (-1)).1.processTarget t with currentTarget := none }.clearNextTargets
  | none => s.clearNextTargets

def getMasterState (s : Executor τ) : Status :=
  s.masterState &&& (serverdStatusMask ||| serverdOnoffMask)

inductive Switch where
  | clear
  | dismiss
  | doSwitch
  deriving DecidableEq

def switch (s : Executor τ) : Switch :=
  if s.enabled = false then .clear
  else if s.execEnd = true ∨ (s.autoLoop = false ∧ s.queue.entries.isEmpty = true) then .dismiss
  else if s.ignoreDay = true then .doSwitch
  else if [serverdEvening, serverdDusk, serverdNight, serverdDawn].contains s.getMasterState then
    .doSwitch
  else .dismiss

def switchTarget (s : Executor τ) (w : World τ δ) : Executor τ :=
  match s.switch with
  | .clear => s.clearNextTargets
  | .dismiss => { s with execEnd := false }.dismiss w
  | .doSwitch => s.doSwitch w

def setNow (s : Executor τ) (w : World τ δ) (newTarget : Nat) : Executor τ :=
  match s.currentTarget with
  | some t =>
    { (s.endObservation w t (-1)).1.processTarget t with
        currentTarget := some newTarget }.clearNextTargets
  | none => { s with currentTarget := some newTarget }.clearNextTargets

end Executor

/-- What a handler leaves to be done: to switch the target in a state, to observe a target at once,
or nothing. -/
inductive Call (τ : Type) where
  | switchTarget (s : Executor τ)
  | setNow (s : Executor τ) (newTarget : Nat)
  | stay (s : Executor τ)

/-- What is asked about a GRB: that its validity period is zero, whether it meets its constraints,
is above the horizon and enabled, whether it is a worse position of the GRB observed now, and
whether it is within the two limits from the current target. -/
structure GrbAnswers where
  grbdValidityZero : Bool
  checkConstraints : Bool
  isAboveHorizon : Bool
  getTargetEnabled : Bool
  worseUpdate : Bool
  withinSepLimit : Bool
  withinMinSep : Bool

inductive Event (τ : Type) where
  | queueTarget (t_start t_end : Option τ)
  | setNext (nextId : Int)
  | now (nextId : Int)
  | grb (answers : GrbAnswers)
  | shower (observed : Bool)
  | skip
  | endCommand
  | stopCommand
  | clear
  | removeIndex (index : Int)
  | setEnabled (value : Bool)
  | setAutoLoop (value : Bool)
  | setDefaultAutoLoop (value : Bool)
  | setIgnoreDay (value : Bool)
  | setMasterState (new_state : Status)
  | lastReadout
  | scriptEnded
  | moveFailed (kill : Bool)
  | newTarget (inserted : Bool)
  | changeTarget (inserted : Bool)
  | slewToTarget (closes inserted : Bool)
  | exposureStarted

namespace Executor

def queueTarget (s : Executor τ) (w : World τ δ) (t_start t_end : Option τ) : Call τ :=
  match w.created with
  | some row =>
    match s.currentTarget with
    | some _ => .stay ((s.createTarget row).addTarget s.made t_start t_end)
    | none => .switchTarget ((s.createTarget row).addTarget s.made t_start t_end)
  | none => .stay s

def setNext (s : Executor τ) (w : World τ δ) (nextId : Int) : Call τ :=
  match s.queue.entries with
  | front :: _ =>
    if s.getTargetID front.target = nextId then .stay s
    else s.clearNextTargets.queueTarget w none none
  | [] => s.queueTarget w none none

def setNowId (s : Executor τ) (w : World τ δ) (nextId : Int) : Call τ :=
  match s.currentTarget with
  | some _ =>
    match w.created with
    | some row => .setNow (s.createTarget row) s.made
    | none => .stay s
  | none => s.setNext w nextId

def setGrb (s : Executor τ) (w : World τ δ) (grb : GrbAnswers) : Call τ :=
  if ¬ [serverdNight, serverdDusk, serverdDawn].contains s.getMasterState then .stay s
  else if grb.grbdValidityZero then .stay s
  else
    match w.created with
    | some row =>
      let p := s.createTarget row
      if !grb.checkConstraints then .stay (p.deleteTarget s.made)
      else if !grb.isAboveHorizon then .stay (p.deleteTarget s.made)
      else if !grb.getTargetEnabled then .stay (p.deleteTarget s.made)
      else
        match s.currentTarget with
        | some _ =>
          if grb.worseUpdate then .stay (p.deleteTarget s.made)
          else if !grb.withinSepLimit then .setNow p s.made
          else if grb.withinMinSep then .stay (p.deleteTarget s.made)
          else .stay (p.clearNextTargets.addTarget s.made none none)
        | none => .setNow p s.made
    | none => .stay s

def targetShower : Int := 12

def setShower (s : Executor τ) (w : World τ δ) (observed : Bool) : Call τ :=
  if s.getMasterState ≠ serverdNight then .stay s
  else if s.currentTarget.isSome ∧ observed then .stay s
  else s.setNowId w targetShower

def skip (s : Executor τ) (w : World τ δ) : Call τ :=
  match s.queue.entries with
  | front :: _ => s.setNowId w (s.getTargetID front.target)
  | [] => .stay s

def whenIdle (s : Executor τ) (w : World τ δ) : Call τ :=
  if w.scriptRunning = 0 then .switchTarget s else .stay s

def stop (s : Executor τ) (w : World τ δ) : Call τ := s.clearNextTargets.whenIdle w

def changeMasterState (s : Executor τ) (w : World τ δ) : Call τ :=
  if s.ignoreDay then .stay s
  else if [serverdNight, serverdMorning, serverdEvening, serverdDawn, serverdDusk].contains
      s.getMasterState then
    if s.currentTarget = none ∧ s.queue.entries ≠ [] then .switchTarget { s with execEnd := false }
    else .stay { s with execEnd := false }
  else s.stop w

def scriptEnded (s : Executor τ) (w : World τ δ) : Call τ :=
  match s.currentTarget with
  | some t =>
    if (s.target t).observationStart then s.whenIdle w
    else if w.scriptRunning = 0 then .switchTarget (s.startObservation t)
    else .stay s
  | none => s.whenIdle w

def onCurrent (s : Executor τ) (act : Executor τ → Nat → Executor τ) : Call τ :=
  match s.currentTarget with
  | some t => .stay (act s t)
  | none => .stay s

def call (s : Executor τ) (w : World τ δ) : Event τ → Call τ
  | .queueTarget t_start t_end => s.queueTarget w t_start t_end
  | .setNext nextId => s.setNext w nextId
  | .now nextId => s.setNowId w nextId
  | .grb answers => s.setGrb w answers
  | .shower observed => s.setShower w observed
  | .skip => s.skip w
  | .endCommand => .stay { s with execEnd := true }
  | .stopCommand => { s with execEnd := true }.stop w
  | .clear => .stay s.clearNextTargets
  | .removeIndex index => .stay (s.setQueue (s.queue.removeIndex index))
  | .setEnabled value => if value then .stay s else s.stop w
  | .setAutoLoop value => .stay { s with autoLoop := value }
  | .setDefaultAutoLoop value => .stay { s with defaultAutoLoop := value }
  | .setIgnoreDay value => .stay { s with ignoreDay := value }
  | .setMasterState new_state =>
    if s.masterState &&& ~~~bopMask = new_state &&& ~~~bopMask then
      .stay { s with masterState := new_state }
    else { s with masterState := new_state }.changeMasterState w
  | .lastReadout => s.whenIdle w
  | .scriptEnded => s.scriptEnded w
  | .moveFailed kill => if kill then .stay s else s.whenIdle w
  | .newTarget inserted => s.onCurrent (fun s t => s.newObsSlew w t inserted)
  | .changeTarget inserted => s.onCurrent (fun s t => s.updateSlew t inserted)
  | .slewToTarget closes inserted => s.onCurrent (fun s t =>
      (if closes then (s.endObservation w t (-1)).1 else s).startSlew t inserted)
  | .exposureStarted => s.onCurrent (fun s t => s.startObservation t)

def written (s : Executor τ) : Event τ → Executor τ
  | .setEnabled value => { s with enabled := value }
  | _ => s

def step [LinearOrder τ] [LinearOrder δ] (s : Executor τ) (we : World τ δ × Event τ) : Executor τ :=
  (match s.call we.1 we.2 with
    | .switchTarget p => p.switchTarget we.1
    | .setNow p newTarget => p.setNow we.1 newTarget
    | .stay p => p).written we.2

end Executor

end Rts2.Plan
