import Mathlib

/-! The queue of the executor. Times are compared as the source compares its doubles: an
undefined start or end, none here, is not before any time. -/
namespace Rts2.Plan

variable {T τ δ : Type}

/-- removed_t. A negative reason files the entry with the removed ones, any other with the executed
ones. -/
inductive Removed where
  | timesExpired
  | started
  | nextNeeded
  deriving DecidableEq

def Removed.value : Removed → Int
  | .timesExpired => -1
  | .started => 1
  | .nextNeeded => 2

structure Targets (T τ δ : Type) where
  getTargetID : T → Int
  getTargetName : T → String
  observationStarted : T → Bool
  isAboveHorizon : T → δ → Bool
  julian : τ → δ

structure QueuedTarget (T τ : Type) where
  qid : Nat
  target : T
  t_start : Option τ
  t_end : Option τ
  unobservable_reported : Bool
  deriving DecidableEq

structure Filed where
  id : Int
  name : String
  qid : Nat
  deriving DecidableEq

structure ExecutorQueue (T τ : Type) where
  entries : List (QueuedTarget T τ)
  currentTarget : Option T
  removed : List (Filed × Removed)
  executed : List Filed
  deleted : List T

def ExecutorQueue.targets (q : ExecutorQueue T τ) : List T := q.entries.map (·.target)

namespace QueuedTarget

def plain (e : QueuedTarget T τ) : QueuedTarget T τ := { e with unobservable_reported := false }

@[simp] theorem plain_target (e : QueuedTarget T τ) : e.plain.target = e.target := rfl

@[simp] theorem plain_plain (e : QueuedTarget T τ) : e.plain.plain = e.plain := rfl

end QueuedTarget

variable [LinearOrder τ]

/-- `!std::isnan (t) && t <= now` -/
def passed (now : τ) : Option τ → Bool
  | some t => t ≤ now
  | none => false

namespace QueuedTarget

def filed (w : Targets T τ δ) (e : QueuedTarget T τ) : Filed where
  id := w.getTargetID e.target
  name := w.getTargetName e.target
  qid := e.qid

def due (now : τ) (e : QueuedTarget T τ) : Bool := passed now e.t_start || passed now e.t_end

def ended (now : τ) (e : QueuedTarget T τ) : Bool := passed now e.t_end

/-- `std::isnan (t_start) || t_start <= now` -/
def startReached (now : τ) (e : QueuedTarget T τ) : Bool :=
  e.t_start.isNone || passed now e.t_start

def timed (e : QueuedTarget T τ) : Bool := !(e.t_start.isNone && e.t_end.isNone)

def isAboveHorizon [LinearOrder δ] (w : Targets T τ δ) (JD : δ) (e : QueuedTarget T τ) : Bool :=
  match e.t_start with
  | some t => w.isAboveHorizon e.target (if w.julian t > JD then w.julian t else JD)
  | none => w.isAboveHorizon e.target JD

omit [LinearOrder τ] in
@[simp] theorem isAboveHorizon_plain [LinearOrder δ] (w : Targets T τ δ) (JD : δ)
    (e : QueuedTarget T τ) : e.plain.isAboveHorizon w JD = e.isAboveHorizon w JD := rfl

end QueuedTarget

variable [DecidableEq T]

namespace ExecutorQueue

def removeEntry (w : Targets T τ δ) (q : ExecutorQueue T τ) (e : QueuedTarget T τ)
    (reason : Removed) : ExecutorQueue T τ where
  entries := q.entries
  removed := if reason.value < 0 then q.removed ++ [(e.filed w, reason)] else q.removed
  executed := if reason.value < 0 then q.executed else q.executed ++ [e.filed w]
  deleted := if q.currentTarget = some e.target then q.deleted else q.deleted ++ [e.target]
  currentTarget := if q.currentTarget = some e.target then none else q.currentTarget

/-- The first loop of filterExpired, at an entry with `seen` before it. -/
def removeBefore (w : Targets T τ δ) (now : τ) (q : ExecutorQueue T τ)
    (seen : List (QueuedTarget T τ)) : List (QueuedTarget T τ) → ExecutorQueue T τ
  | [] => { q with entries := seen }
  | e :: rest =>
    if e.due now then
      removeBefore w now (seen.foldl (fun q irem => q.removeEntry w irem .nextNeeded) q) [e] rest
    else removeBefore w now q (seen ++ [e]) rest

def removeExpired (w : Targets T τ δ) (now : τ) (q : ExecutorQueue T τ)
    (kept : List (QueuedTarget T τ)) : List (QueuedTarget T τ) → ExecutorQueue T τ
  | [] => { q with entries := kept }
  | e :: rest =>
    if e.ended now then removeExpired w now (q.removeEntry w e .timesExpired) kept rest
    else if w.observationStarted e.target then
      removeExpired w now (q.removeEntry w e .started) kept rest
    else removeExpired w now q (kept ++ [e]) rest

def filterExpired (w : Targets T τ δ) (now : τ) (q : ExecutorQueue T τ) : ExecutorQueue T τ :=
  let p := q.removeBefore w now [] q.entries
  p.removeExpired w now [] p.entries

variable [LinearOrder δ]

def skipUnobservable (w : Targets T τ δ) (JD : δ) (skipped : List (QueuedTarget T τ)) :
    List (QueuedTarget T τ) → List (QueuedTarget T τ) × List (QueuedTarget T τ)
  | [] => ([], skipped)
  | e :: rest =>
    if e.isAboveHorizon w JD then ({ e with unobservable_reported := false } :: rest, skipped)
    else if e.timed && w.observationStarted e.target then skipUnobservable w JD skipped rest
    else skipUnobservable w JD (skipped ++ [{ e with unobservable_reported := true }]) rest

def filterUnobservable (w : Targets T τ δ) (now : τ) (q : ExecutorQueue T τ) :
    ExecutorQueue T τ × List (QueuedTarget T τ) :=
  let (entries, skipped) := skipUnobservable w (w.julian now) [] q.entries
  ({ q with entries := entries }, skipped)

def filter (w : Targets T τ δ) (now : τ) (q : ExecutorQueue T τ) : ExecutorQueue T τ × Bool :=
  let (p, skipped) := (q.filterExpired w now).filterUnobservable w now
  match p.entries with
  | front :: rest =>
    if front.startReached now then ({ p with entries := front :: (skipped ++ rest) }, true)
    else ({ p with entries := skipped ++ front :: rest }, false)
  | [] => ({ p with entries := skipped }, false)

def addFront (q : ExecutorQueue T τ) (e : QueuedTarget T τ) : ExecutorQueue T τ :=
  { q with entries := e :: q.entries }

def addTarget (q : ExecutorQueue T τ) (e : QueuedTarget T τ) : ExecutorQueue T τ :=
  { q with entries := q.entries ++ [e] }

/-- The place of an index, counted from the end when it is negative; the end itself is the place of
a missing one, and of minus one. -/
def findIndex (q : ExecutorQueue T τ) (index : Int) : Nat :=
  if index < 0 then q.entries.length - (-(index + 1)).toNat else min index.toNat q.entries.length

def removeIndex (q : ExecutorQueue T τ) (index : Int) : ExecutorQueue T τ :=
  match q.entries[q.findIndex index]? with
  | some e =>
    { q with
      entries := q.entries.eraseIdx (q.findIndex index)
      deleted := if q.currentTarget = some e.target then q.deleted else q.deleted ++ [e.target]
      currentTarget := if q.currentTarget = some e.target then none else q.currentTarget }
  | none => q

def setCurrentTarget (q : ExecutorQueue T τ) (ct : Option T) : ExecutorQueue T τ :=
  { q with currentTarget := ct }

def clearNext (q : ExecutorQueue T τ) : ExecutorQueue T τ :=
  { q with
    entries := []
    deleted := q.deleted ++
      ((q.entries.map (·.target)).filter (fun t => q.currentTarget ≠ some t)) }

def beforeChange (w : Targets T τ δ) (now : τ) (q : ExecutorQueue T τ) : ExecutorQueue T τ :=
  (q.filter w now).1

end ExecutorQueue

end Rts2.Plan
