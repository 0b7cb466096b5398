import Rts2.External.Execute
import Rts2.Lib.Run

/-! Exposures of an external script. The handlers of camera events are told no exposure; here each
event names the one it belongs to, and so do the answers the script is written. -/
namespace Rts2.External

open Lib Kernel

inductive CameraEvent where
  | errorReported
  | exposureEnd (expectImage : Bool)
  | exposureFailed
  | processImage (image : List UInt8)
  deriving DecidableEq, Repr

namespace ConnExecute

def handle (c : ConnExecute) : CameraEvent → ConnExecute
  | .errorReported => c.errorReported
  | .exposureEnd expectImage => c.exposureEnd expectImage
  | .exposureFailed => c.exposureFailed
  | .processImage image => c.processImage image

def camera (c : ConnExecute) (e : CameraEvent) : ConnExecute :=
  if c.masterElement = false then c else c.handle e

def inactive (c : ConnExecute) : ConnExecute := if c.masterElement = false then c else c.notActive

def Waits (c : ConnExecute) : Prop :=
  c.exposure_started = .started ∨ c.exposure_started = .ended

instance (c : ConnExecute) : Decidable c.Waits := inferInstanceAs (Decidable (_ ∨ _))

def Acts (c : ConnExecute) : CameraEvent → Prop
  | .errorReported => c.Waits
  | .exposureEnd _ => c.exposure_started = .started
  | .exposureFailed => c.Waits
  | .processImage _ => c.exposure_started = .ended

instance (c : ConnExecute) : DecidablePred c.Acts
  | .errorReported => inferInstanceAs (Decidable c.Waits)
  | .exposureEnd _ => inferInstanceAs (Decidable (_ = _))
  | .exposureFailed => inferInstanceAs (Decidable c.Waits)
  | .processImage _ => inferInstanceAs (Decidable (_ = _))

end ConnExecute

def isReply (line : List UInt8) : Bool := line ≠ bytes "! error detected while running the script"

def isTerminal (line : List UInt8) : Bool :=
  (bytes "image ").isPrefixOf line || line = bytes "exposure_end_noimage" ||
    line = bytes "exposure_failed" || line = bytes "ERR" ||
    line = bytes "& exposure interrupted" || line = bytes "& readout interruped"

def replies (c c' : ConnExecute) : List (List UInt8) :=
  (c'.written.drop c.written.length).filter isReply

/-- What the camera did for an exposure: its first end, its image data, and whether it failed, was
in error or lost its script. -/
structure Course where
  ended : Option Bool
  delivered : Bool
  broken : Bool
  deriving DecidableEq, Repr

namespace Course

def new : Course := ⟨none, false, false⟩

def after (c : Course) : CameraEvent → Course
  | .errorReported => { c with broken := true }
  | .exposureEnd expectImage => { c with ended := some (c.ended.getD expectImage) }
  | .exposureFailed => { c with broken := true }
  | .processImage _ => { c with delivered := true }

def isOver (c : Course) : Bool :=
  c.broken || c.ended = some false || (c.ended = some true && c.delivered)

end Course

/-- A reply that was written: the exposure whose event wrote it, and the exposure the script
takes it for, which is the last one accepted. -/
structure Reply where
  line : List UInt8
  source : Nat
  exposure : Nat
  deriving DecidableEq, Repr

structure Exposures where
  conn : ConnExecute
  accepted : Nat
  course : Nat → Course
  replied : List Reply

inductive ExposureEvent where
  | line (w : World) (text : List UInt8)
  | camera (exposure : Nat) (event : CameraEvent)
  | notActive
  | nextCommand
  | move (moved : Bool)
  | idle (w : World)

namespace Word

def isExposure : Word → Bool
  | exposure _ _ => true
  | _ => false

def stops : Word → Bool
  | end_script => true
  | end_target => true
  | stop_target => true
  | _ => false

end Word

namespace Exposures

def fresh : Exposures where
  conn := .fresh
  accepted := 0
  course := fun _ => .new
  replied := []

def heard (s : Exposures) (source : Nat) (conn : ConnExecute) : Exposures :=
  { s with
    conn := conn
    replied := s.replied ++
      (replies s.conn conn).map (fun line => ⟨line, source, s.accepted - 1⟩) }

def went (s : Exposures) (n : Nat) (course : Course) : Exposures :=
  if n < s.accepted then { s with course := Function.update s.course n course } else s

def interrupted (s : Exposures) (conn : ConnExecute) : Exposures :=
  (s.heard (s.accepted - 1) conn).went (s.accepted - 1)
    { s.course (s.accepted - 1) with broken := true }

def line (s : Exposures) (w : World) (word : Word) (rest : List UInt8) : Exposures :=
  let conn := s.conn.processCommand w word rest
  if s.conn.queued.length < conn.queued.length then
    { s with conn := conn, accepted := s.accepted + 1 }
  else if word.stops then s.interrupted conn
  else { s with conn := conn }

def step (s : Exposures) : ExposureEvent → Exposures
  | .line w text => s.line w (readLine text).1 (readLine text).2
  | .camera n e => (s.heard n (s.conn.camera e)).went n ((s.course n).after e)
  | .notActive => s.interrupted s.conn.inactive
  | .nextCommand => { s with conn := s.conn.nextCommand }
  | .move moved => { s with conn := s.conn.postEvent moved }
  | .idle w => { s with conn := s.conn.idle w }

def terminals (s : Exposures) (n : Nat) : Nat :=
  s.replied.countP (fun r => r.exposure = n && isTerminal r.line)

/-- The script asks for an exposure only after the terminal reply to the one before, and the camera
events are of exposures it asked for. -/
def Enabled (s : Exposures) (e : ExposureEvent) : Prop :=
  s.conn.crashed = false ∧
    match e with
    | .line _ text =>
      (readLine text).1.isExposure → s.accepted = 0 ∨ 0 < s.terminals (s.accepted - 1)
    | .camera n _ => s.accepted = 0 ∨ n < s.accepted
    | _ => True

/-- Each exposure has one terminal reply once its camera events are over, and no event replies to
another exposure than its own. -/
structure Fair (s : Exposures) : Prop where
  once : ∀ n < s.accepted, (s.course n).isOver → s.terminals n = 1
  own : ∀ r ∈ s.replied, r.source = r.exposure

/-- A late event meets no state it acts on, and the end of an exposure with an image comes before
the image. -/
def Timely (s : Exposures) : ExposureEvent → Prop
  | .camera n e => s.conn.Acts e →
      n + 1 = s.accepted ∧ (e = .exposureEnd true → (s.course n).delivered = false)
  | _ => True

end Exposures

/-- Nothing; a step from the exposure to its image; or the end of the exposure. -/
inductive Outcome (c c' : ConnExecute) : Prop where
  | quiet (same : c'.exposure_started = c.exposure_started) (silent : replies c c' = [])
  | reading (started : c.exposure_started = .started) (ended : c'.exposure_started = .ended)
      (told : replies c c' ≠ []) (open_ : (replies c c').countP isTerminal = 0)
  | closed (waits : c.Waits) (over_ : ¬ c'.Waits) (told : (replies c c').countP isTerminal = 1)

structure Beside (c c' : ConnExecute) : Prop where
  active : c'.active = c.active
  endScript : c'.endScript = c.endScript
  masterElement : c'.masterElement = c.masterElement

structure Aside (c c' : ConnExecute) : Prop extends Beside c c' where
  exposure_started : c'.exposure_started = c.exposure_started
  queued : c'.queued = c.queued

namespace Aside

variable {c c' c'' : ConnExecute}

theorem refl (c : ConnExecute) : Aside c c := ⟨⟨rfl, rfl, rfl⟩, rfl, rfl⟩

theorem trans (first : Aside c c') (second : Aside c' c'') : Aside c c'' where
  active := second.active.trans first.active
  endScript := second.endScript.trans first.endScript
  masterElement := second.masterElement.trans first.masterElement
  exposure_started := second.exposure_started.trans first.exposure_started
  queued := second.queued.trans first.queued

theorem write (c : ConnExecute) (msg : List UInt8) : Aside c (c.writeToProcess msg) :=
  ⟨⟨rfl, rfl, rfl⟩, rfl, rfl⟩

theorem crash (c : ConnExecute) : Aside c c.crash := ⟨⟨rfl, rfl, rfl⟩, rfl, rfl⟩

theorem reply (c : ConnExecute) (answer : Option (List UInt8)) : Aside c (c.reply answer) :=
  write c _

theorem checkWait (c : ConnExecute) (w : World) : Aside c (c.checkWait w) := by
  unfold ConnExecute.checkWait
  split
  · exact crash c
  · split
    · exact refl c
    · exact ⟨⟨rfl, rfl, rfl⟩, rfl, rfl⟩

theorem startWait (c : ConnExecute) (w : World) (type : WaitType) (device : List UInt8)
    (mask timeout : Int) : Aside c (c.startWait w type device mask timeout) := by
  unfold ConnExecute.startWait
  split
  · exact crash c
  · exact write c _
  · refine trans ?_ (checkWait _ w)
    exact ⟨⟨rfl, rfl, rfl⟩, rfl, rfl⟩

theorem wait (c : ConnExecute) (w : World) (type : WaitType) (rest : List UInt8) :
    Aside c (c.wait w type rest) := by
  unfold ConnExecute.wait
  split
  · exact refl c
  · exact startWait c w type _ _ _

theorem imageCommand (c : ConnExecute) (w : World) (command : ImageCommand) (rest : List UInt8) :
    Aside c (c.imageCommand w command rest) := by
  unfold ConnExecute.imageCommand
  split
  · exact refl c
  · split
    · split
      · split
        · exact write c _
        · exact refl c
      · split
        · exact write c _
        · exact ⟨⟨rfl, rfl, rfl⟩, rfl, rfl⟩
    · exact refl c

theorem wait_target_move (c : ConnExecute) (w : World) : Aside c (c.wait_target_move w) := by
  unfold ConnExecute.wait_target_move
  split
  · exact crash c
  · split
    · split
      · exact write c _
      · exact ⟨⟨rfl, rfl, rfl⟩, rfl, rfl⟩
    · exact trans (write c _) (write _ _)

theorem requeue (c : ConnExecute) (w : World) (rest : List UInt8) :
    Aside c (c.requeue w rest) := by
  unfold ConnExecute.requeue
  split
  · exact refl c
  · split
    · exact refl c
    · split
      · exact crash c
      · split
        · exact write c _
        · split <;> exact write c _

theorem getValue (c : ConnExecute) (w : World) (rest : List UInt8) :
    Aside c (c.getValue w rest) := by
  unfold ConnExecute.getValue
  split
  · exact refl c
  · split
    · exact refl c
    · split
      · exact crash c
      · exact reply c _

theorem processCommand (c : ConnExecute) (w : World) (word : Word) (rest : List UInt8)
    (plain : word.isExposure = false) (goes : word.stops = false) :
    Aside c (c.processCommand w word rest) := by
  cases word with
  | exposure noblock form => contradiction
  | image command => exact imageCommand c w command rest
  | delete =>
    simp only [ConnExecute.processCommand]
    split
    · exact refl c
    · exact ⟨⟨rfl, rfl, rfl⟩, rfl, rfl⟩
  | process =>
    simp only [ConnExecute.processCommand]
    split
    · exact refl c
    · split
      · exact refl c
      · exact ⟨⟨rfl, rfl, rfl⟩, rfl, rfl⟩
  | value =>
    simp only [ConnExecute.processCommand]
    split
    · exact reply c _
    · exact refl c
  | device_by_type =>
    simp only [ConnExecute.processCommand]
    split
    · exact refl c
    · split <;> exact write c _
  | end_script => contradiction
  | end_target => contradiction
  | stop_target => contradiction
  | wait_target_move => exact wait_target_move c w
  | target_disable =>
    simp only [ConnExecute.processCommand]
    split
    · exact crash c
    · exact refl c
  | target_tempdisable =>
    simp only [ConnExecute.processCommand]
    split
    · exact crash c
    · exact refl c
  | loopcount => exact write c _
  | run_device =>
    simp only [ConnExecute.processCommand]
    split <;> exact write c _
  | requeue => exact requeue c w rest
  | G => exact getValue c w rest
  | get_own =>
    simp only [ConnExecute.processCommand]
    split
    · exact refl c
    · exact reply c _
  | S =>
    simp only [ConnExecute.processCommand]
    split
    · exact refl c
    · split
      · exact crash c
      · exact reply c _
  | waitidle => exact wait c w .idle rest
  | waitmask => exact wait c w .mask rest
  | exec_device => exact write c _
  | other => exact refl c

end Aside

namespace ConnExecute

theorem exposure_accepts (c : ConnExecute) (w : World) (noblock : Bool) (form : ExposureForm)
    (rest : List UInt8) :
    Aside c (c.exposure w noblock form rest) ∨
      c.active = true ∧ c.masterElement = true ∧ Beside c (c.exposure w noblock form rest) ∧
        (c.exposure w noblock form rest).exposure_started = .started ∧
        (c.exposure w noblock form rest).queued.length = c.queued.length + 1 := by
  have queued (expandPath : Option (List UInt8)) (on : c.active = true) :
      Aside c (c.queExposure w noblock expandPath form) ∨
        c.active = true ∧ c.masterElement = true ∧
          Beside c (c.queExposure w noblock expandPath form) ∧
          (c.queExposure w noblock expandPath form).exposure_started = .started ∧
          (c.queExposure w noblock expandPath form).queued.length = c.queued.length + 1 := by
    unfold queExposure
    split
    · exact .inl (.refl c)
    · rename_i here
      have linked : c.masterElement = true := by
        by_contra off
        exact here (.inl (by simpa using off))
      exact .inr ⟨on, linked, ⟨rfl, rfl, rfl⟩, rfl, by simp⟩
  unfold exposure
  split
  · exact .inl (.write c _)
  · rename_i on
    have on : c.active = true := by simpa using on
    cases form with
    | plain => exact queued none on
    | wfn =>
      simp only
      split
      · exact .inl (.refl c)
      · exact queued _ on
    | overwrite =>
      simp only
      split
      · exact .inl (.refl c)
      · exact queued _ on

theorem waits_congr {c c' : ConnExecute} (same : c'.exposure_started = c.exposure_started) :
    c'.Waits ↔ c.Waits := by
  unfold Waits
  rw [same]

theorem replies_self (c : ConnExecute) : replies c c = [] := by simp [replies]

theorem terminal_image (image : List UInt8) :
    isTerminal (bytes "image " ++ image) = true ∧ isReply (bytes "image " ++ image) = true := by
  constructor
  · simp [isTerminal]
  · simp only [isReply, ne_eq, decide_eq_true_eq]
    intro same
    have first : some (105 : UInt8) = some 33 := congrArg List.head? same
    exact absurd first (by decide)

theorem handle_beside (c : ConnExecute) (e : CameraEvent) : Beside c (c.handle e) := by
  cases e with
  | errorReported =>
    change Beside c c.errorReported
    unfold errorReported
    split <;> exact ⟨rfl, rfl, rfl⟩
  | exposureEnd expectImage =>
    change Beside c (c.exposureEnd expectImage)
    unfold exposureEnd
    split
    · split <;> exact ⟨rfl, rfl, rfl⟩
    · exact ⟨rfl, rfl, rfl⟩
  | exposureFailed =>
    change Beside c c.exposureFailed
    unfold exposureFailed
    split <;> exact ⟨rfl, rfl, rfl⟩
  | processImage image =>
    change Beside c (c.processImage image)
    unfold processImage
    split <;> exact ⟨rfl, rfl, rfl⟩

theorem camera_beside (c : ConnExecute) (e : CameraEvent) : Beside c (c.camera e) := by
  unfold camera
  split
  · exact ⟨rfl, rfl, rfl⟩
  · exact handle_beside c e

theorem camera_acts (c : ConnExecute) (e : CameraEvent) (linked : c.masterElement = true)
    (acts : c.Acts e) :
    if e = .exposureEnd true then
      (c.camera e).exposure_started = .ended ∧ replies c (c.camera e) ≠ [] ∧
        (replies c (c.camera e)).countP isTerminal = 0
    else ¬ (c.camera e).Waits ∧ (replies c (c.camera e)).countP isTerminal = 1 := by
  have passed : c.camera e = c.handle e := if_neg (by simp [linked])
  rw [passed]
  cases e with
  | errorReported =>
    rcases acts with state | state
    all_goals
      simp only [handle, errorReported, state, writeToProcess, Waits, replies, List.append_assoc,
        List.drop_left]
      decide
  | exposureEnd expectImage =>
    have state : c.exposure_started = .started := acts
    cases expectImage
    all_goals
      simp only [handle, exposureEnd, state, writeToProcess, Waits, replies, List.drop_left, if_true,
        Bool.false_eq_true, if_false]
      decide
  | exposureFailed =>
    rcases acts with state | state
    all_goals
      simp only [handle, exposureFailed, state, writeToProcess, Waits, replies, List.append_assoc,
        List.drop_left]
      decide
  | processImage image =>
    have state : c.exposure_started = .ended := acts
    simp only [handle, processImage, state, writeToProcess, Waits, replies, List.drop_left, if_true]
    simp [terminal_image]

theorem camera_quiet (c : ConnExecute) (e : CameraEvent) (still : ¬ c.Acts e) :
    (c.camera e).exposure_started = c.exposure_started ∧ replies c (c.camera e) = [] := by
  have unchanged {c' : ConnExecute} (same : c' = c) :
      c'.exposure_started = c.exposure_started ∧ replies c c' = [] := by
    rw [same]
    exact ⟨rfl, replies_self c⟩
  unfold camera
  split
  · exact unchanged rfl
  · cases e with
    | errorReported =>
      simp only [handle, errorReported]
      split
      · rename_i idle
        refine ⟨rfl, ?_⟩
        simp only [writeToProcess, replies, List.drop_left]
        decide
      · exact absurd (.inl ‹_›) still
      · exact absurd (.inr ‹_›) still
      · exact unchanged rfl
    | exposureEnd expectImage => exact unchanged (if_neg still)
    | exposureFailed =>
      simp only [handle, exposureFailed]
      split
      · exact absurd (.inl ‹_›) still
      · exact absurd (.inr ‹_›) still
      · exact unchanged rfl
    | processImage image => exact unchanged (if_neg still)

theorem notActive_outcome (c : ConnExecute) :
    ¬ c.notActive.Waits ∧ c.notActive.active = false ∧ c.notActive.endScript = c.endScript ∧
      c.notActive.masterElement = c.masterElement ∧
      ((replies c c.notActive).countP isTerminal = if c.Waits then 1 else 0) ∧
      (¬ c.Waits → replies c c.notActive = []) ∧ c.notActive.queued = c.queued := by
  unfold notActive
  split
  · rename_i state
    have waits : c.Waits := .inl state
    refine ⟨(by rintro (h | h) <;> cases h), rfl, rfl, rfl, ?_, fun off => absurd waits off, rfl⟩
    rw [if_pos waits]
    simp only [writeToProcess, replies, List.drop_left]
    decide
  · rename_i state
    have waits : c.Waits := .inr state
    refine ⟨(by rintro (h | h) <;> cases h), rfl, rfl, rfl, ?_, fun off => absurd waits off, rfl⟩
    rw [if_pos waits]
    simp only [writeToProcess, replies, List.drop_left]
    decide
  · rename_i started ended
    have over_ : ¬ c.Waits := fun waits => waits.elim started ended
    have silent : replies c { c with active := false } = [] := by simp [replies]
    refine ⟨over_, rfl, rfl, rfl, ?_, fun _ => silent, rfl⟩
    rw [silent, if_neg over_]
    rfl

end ConnExecute

namespace Exposures

variable {s : Exposures}

@[simp] theorem heard_conn (s : Exposures) (source : Nat) (conn : ConnExecute) :
    (s.heard source conn).conn = conn := rfl

@[simp] theorem heard_accepted (s : Exposures) (source : Nat) (conn : ConnExecute) :
    (s.heard source conn).accepted = s.accepted := rfl

theorem terminals_heard (s : Exposures) (source : Nat) (conn : ConnExecute) (n : Nat) :
    (s.heard source conn).terminals n = s.terminals n +
      if n = s.accepted - 1 then (replies s.conn conn).countP isTerminal else 0 := by
  unfold terminals heard
  rw [List.countP_append, List.countP_map]
  congr 1
  split
  · rename_i here
    apply List.countP_congr
    intro line _
    simp [here]
  · rename_i other
    rw [List.countP_eq_zero]
    intro line _
    simp [Ne.symm other]

@[simp] theorem went_conn (s : Exposures) (n : Nat) (course : Course) :
    (s.went n course).conn = s.conn := by
  unfold went
  split <;> rfl

@[simp] theorem went_accepted (s : Exposures) (n : Nat) (course : Course) :
    (s.went n course).accepted = s.accepted := by
  unfold went
  split <;> rfl

@[simp] theorem went_replied (s : Exposures) (n : Nat) (course : Course) :
    (s.went n course).replied = s.replied := by
  unfold went
  split <;> rfl

@[simp] theorem went_terminals (s : Exposures) (n m : Nat) (course : Course) :
    (s.went n course).terminals m = s.terminals m := by
  simp [terminals]

theorem went_course (s : Exposures) (n m : Nat) (course : Course) :
    (s.went n course).course m = if m = n ∧ n < s.accepted then course else s.course m := by
  unfold went
  split
  · rename_i inside
    by_cases same : m = n
    · subst same
      simp [inside]
    · simp [same]
  · rename_i outside
    rw [if_neg (fun h => outside h.2)]

/-- Each exposure but the last has its terminal reply, and the last has one just when the script
waits no more; the state of the exposure follows the last one. -/
structure Kept (s : Exposures) : Prop where
  before : ∀ n, n + 1 < s.accepted → s.terminals n = 1
  last : ∀ n, n + 1 = s.accepted → s.terminals n = if s.conn.Waits then 0 else 1
  after : ∀ n, s.accepted ≤ n → s.terminals n = 0 ∧ s.course n = .new
  first : s.conn.Waits → 0 < s.accepted
  quiet : s.conn.active = false → ¬ s.conn.Waits
  ending : s.conn.endScript = true → s.conn.active = false
  linked : s.conn.masterElement = false → s.conn.endScript = true
  own : ∀ r ∈ s.replied, r.source = r.exposure
  started : ∀ n, n + 1 = s.accepted → s.conn.exposure_started = .started →
    (s.course n).ended = none ∧ (s.course n).broken = false
  ended : ∀ n, n + 1 = s.accepted → s.conn.exposure_started = .ended →
    s.course n = ⟨some true, false, false⟩

theorem fresh_kept : fresh.Kept where
  before := by simp [fresh]
  last := by simp [fresh]
  after := by simp [fresh, terminals]
  first := by decide
  quiet := by decide
  ending := by decide
  linked := by decide
  own := by simp [fresh]
  started := by simp [fresh]
  ended := by simp [fresh]

theorem Kept.fair (kept : s.Kept) : s.Fair where
  own := kept.own
  once := by
    intro n inside isOver
    rcases Nat.lt_or_eq_of_le (Nat.succ_le_of_lt inside) with more | last
    · exact kept.before n more
    · rw [kept.last n last, if_neg]
      rintro (state | state)
      · obtain ⟨open_, whole⟩ := kept.started n last state
        simp [Course.isOver, open_, whole] at isOver
      · simp [Course.isOver, kept.ended n last state] at isOver

theorem Kept.beside (kept : s.Kept) {conn : ConnExecute}
    (same : conn.exposure_started = s.conn.exposure_started)
    (active : conn.active = s.conn.active) (endScript : conn.endScript = s.conn.endScript)
    (linked : conn.masterElement = false → conn.endScript = true) :
    Kept { s with conn := conn } where
  before := kept.before
  last := by
    intro n last
    have counted := kept.last n last
    simp only [ConnExecute.waits_congr same]
    exact counted
  after := kept.after
  first := fun waits => kept.first ((ConnExecute.waits_congr same).mp waits)
  quiet := fun off waits => kept.quiet (active ▸ off) ((ConnExecute.waits_congr same).mp waits)
  ending := fun on => active.trans (kept.ending (endScript ▸ on))
  linked := linked
  own := kept.own
  started := fun n last state => kept.started n last (same ▸ state)
  ended := fun n last state => kept.ended n last (same ▸ state)

theorem Kept.heard (kept : s.Kept) {n : Nat} {conn : ConnExecute} {course : Course}
    (own : replies s.conn conn ≠ [] → n + 1 = s.accepted) (waits : conn.Waits → s.conn.Waits)
    (told : (replies s.conn conn).countP isTerminal = if s.conn.Waits ∧ ¬ conn.Waits then 1 else 0)
    (quiet : conn.active = false → ¬ conn.Waits)
    (ending : conn.endScript = true → conn.active = false)
    (linked : conn.masterElement = false → conn.endScript = true)
    (started : conn.exposure_started = .started →
      s.conn.exposure_started = .started ∧
        (n + 1 = s.accepted → course.ended = none ∧ course.broken = false))
    (ended : conn.exposure_started = .ended →
      (n + 1 = s.accepted → course = ⟨some true, false, false⟩) ∧
        (n + 1 ≠ s.accepted → s.conn.exposure_started = .ended)) :
    ((s.heard n conn).went n course).Kept where
  before := by
    intro m more
    simp only [went_accepted, heard_accepted] at more
    have other : ¬ m = s.accepted - 1 := by omega
    simp only [went_terminals, terminals_heard, if_neg other, kept.before m more, Nat.add_zero]
  last := by
    intro m last
    simp only [went_accepted, heard_accepted] at last
    have here : m = s.accepted - 1 := by omega
    simp only [went_terminals, went_conn, heard_conn, terminals_heard, if_pos here,
      kept.last m last, told]
    by_cases before : s.conn.Waits
    · by_cases after : conn.Waits <;> simp [before, after]
    · have after : ¬ conn.Waits := fun h => before (waits h)
      simp [before, after]
  after := by
    intro m outside
    simp only [went_accepted, heard_accepted] at outside
    obtain ⟨none_, new⟩ := kept.after m outside
    simp only [went_terminals, terminals_heard, none_, went_course]
    constructor
    · split
      · have still : ¬ s.conn.Waits := by
          intro waiting
          have some_ := kept.first waiting
          omega
        rw [told, if_neg (fun h => still h.1)]
      · rfl
    · split
      · rename_i inside
        have within : n < s.accepted := inside.2
        omega
      · exact new
  first := by
    intro waiting
    simp only [went_conn, heard_conn, went_accepted, heard_accepted] at waiting ⊢
    exact kept.first (waits waiting)
  quiet := by simpa using quiet
  ending := by simpa using ending
  linked := by simpa using linked
  own := by
    intro r mem
    simp only [went_replied] at mem
    rcases List.mem_append.mp mem with old | new
    · exact kept.own r old
    · obtain ⟨line, told, rfl⟩ := List.mem_map.mp new
      have here := own (List.ne_nil_of_mem told)
      change n = s.accepted - 1
      omega
  started := by
    intro m last state
    simp only [went_conn, heard_conn, went_accepted, heard_accepted] at last state
    obtain ⟨before, fresh⟩ := started state
    rw [went_course]
    split
    · rename_i here
      exact fresh (here.1 ▸ last)
    · exact kept.started m last before
  ended := by
    intro m last state
    simp only [went_conn, heard_conn, went_accepted, heard_accepted] at last state
    obtain ⟨here, other⟩ := ended state
    rw [went_course, heard_accepted]
    split
    · rename_i same
      exact here (same.1 ▸ last)
    · rename_i differs
      exact kept.ended m last (other (by omega))

theorem camera_kept (kept : s.Kept) {n : Nat} {e : CameraEvent} (timely : s.Timely (.camera n e)) :
    (s.step (.camera n e)).Kept := by
  obtain ⟨active, endScript, masterElement⟩ := s.conn.camera_beside e
  have quiet : (s.conn.camera e).active = false → ¬ s.conn.Waits :=
    fun off => kept.quiet (active ▸ off)
  have ending : (s.conn.camera e).endScript = true → (s.conn.camera e).active = false :=
    fun on => active.trans (kept.ending (endScript ▸ on))
  have linked : (s.conn.camera e).masterElement = false → (s.conn.camera e).endScript = true :=
    fun off => endScript.trans (kept.linked (masterElement ▸ off))
  by_cases acts : s.conn.Acts e
  · obtain ⟨last, prompt⟩ := timely acts
    have waits : s.conn.Waits := by
      cases e with
      | errorReported => exact acts
      | exposureEnd expectImage => exact .inl acts
      | exposureFailed => exact acts
      | processImage image => exact .inr acts
    have here : s.conn.masterElement = true := by
      by_contra off
      have ends := kept.linked (by simpa using off)
      exact kept.quiet (kept.ending ends) waits
    have effect := s.conn.camera_acts e here acts
    by_cases reading : e = .exposureEnd true
    · rw [if_pos reading] at effect
      obtain ⟨ended, -, silent⟩ := effect
      have still : (s.conn.camera e).Waits := .inr ended
      apply kept.heard (fun _ => last) (fun _ => waits)
      · rw [silent, if_neg (fun h => h.2 still)]
      · exact fun off => absurd waits (quiet off)
      · exact ending
      · exact linked
      · intro started
        rw [ended] at started
        contradiction
      · refine fun _ => ⟨fun _ => ?_, fun elsewhere => absurd last elsewhere⟩
        subst reading
        obtain ⟨open_, whole⟩ := kept.started n last acts
        simp [Course.after, open_, whole, prompt rfl]
    · rw [if_neg reading] at effect
      obtain ⟨over_, told⟩ := effect
      apply kept.heard (fun _ => last) (fun waiting => absurd waiting over_)
      · rw [told, if_pos ⟨waits, over_⟩]
      · exact fun _ => over_
      · exact ending
      · exact linked
      · exact fun started => absurd (.inl started) over_
      · exact fun ended => absurd (.inr ended) over_
  · obtain ⟨same, silent⟩ := s.conn.camera_quiet e acts
    have waits := ConnExecute.waits_congr same
    apply kept.heard (fun told => absurd silent told) waits.mp
    · rw [silent, if_neg (fun h => h.2 (waits.mpr h.1))]
      rfl
    · exact fun off waiting => quiet off (waits.mp waiting)
    · exact ending
    · exact linked
    · intro started
      rw [same] at started
      refine ⟨started, fun last => ?_⟩
      obtain ⟨open_, whole⟩ := kept.started n last started
      cases e with
      | errorReported => exact absurd (.inl started) acts
      | exposureEnd expectImage => exact absurd started acts
      | exposureFailed => exact absurd (.inl started) acts
      | processImage image => exact ⟨open_, whole⟩
    · intro ended
      rw [same] at ended
      refine ⟨fun last => ?_, fun _ => ended⟩
      have course := kept.ended n last ended
      cases e with
      | errorReported => exact absurd (.inr ended) acts
      | exposureEnd expectImage => rw [course]; rfl
      | exposureFailed => exact absurd (.inr ended) acts
      | processImage image => exact absurd ended acts

theorem interrupted_kept (kept : s.Kept) {conn : ConnExecute} (over_ : ¬ conn.Waits)
    (ending : conn.endScript = true → conn.active = false)
    (linked : conn.masterElement = false → conn.endScript = true)
    (told : (replies s.conn conn).countP isTerminal = if s.conn.Waits then 1 else 0)
    (silent : ¬ s.conn.Waits → replies s.conn conn = []) : (s.interrupted conn).Kept := by
  have still : s.conn.Waits ∧ ¬ conn.Waits ↔ s.conn.Waits := and_iff_left over_
  apply kept.heard
  · intro some_
    have waits : s.conn.Waits := by
      by_contra off
      exact some_ (silent off)
    have first := kept.first waits
    omega
  · exact fun waits => absurd waits over_
  · rw [told]
    simp only [still]
  · exact fun _ => over_
  · exact ending
  · exact linked
  · exact fun started => absurd (.inl started) over_
  · exact fun ended => absurd (.inr ended) over_

theorem notActive_kept (kept : s.Kept) : (s.step .notActive).Kept := by
  change (s.interrupted s.conn.inactive).Kept
  by_cases linked : s.conn.masterElement = false
  · have same : s.conn.inactive = s.conn := if_pos linked
    have still := kept.quiet (kept.ending (kept.linked linked))
    rw [same]
    apply interrupted_kept kept still kept.ending kept.linked
    · simp [ConnExecute.replies_self, still]
    · exact fun _ => s.conn.replies_self
  · have same : s.conn.inactive = s.conn.notActive := if_neg linked
    obtain ⟨over_, off, endScript, masterElement, told, silent, -⟩ := s.conn.notActive_outcome
    rw [same]
    apply interrupted_kept kept over_ (fun _ => off) _ told silent
    exact fun unlinked => endScript.trans (kept.linked (masterElement ▸ unlinked))

theorem stops_kept (kept : s.Kept) (w : World) {word : Word} (rest : List UInt8)
    (stops : word.stops = true) :
    (s.interrupted (s.conn.processCommand w word rest)).Kept ∧
      (s.conn.processCommand w word rest).queued = s.conn.queued := by
  have told : (s.interrupted s.conn.notActive).Kept ∧ s.conn.notActive.queued = s.conn.queued := by
    obtain ⟨over_, off, endScript, masterElement, told, silent, queued⟩ := s.conn.notActive_outcome
    refine ⟨interrupted_kept kept over_ (fun _ => off) ?_ told silent, queued⟩
    exact fun unlinked => endScript.trans (kept.linked (masterElement ▸ unlinked))
  cases word with
  | end_target => exact told
  | stop_target => exact told
  | end_script =>
    simp only [ConnExecute.processCommand]
    split
    · rename_i unlinked
      have still : ¬ s.conn.crash.Waits := kept.quiet (kept.ending (kept.linked unlinked))
      have silent : replies s.conn s.conn.crash = [] := s.conn.replies_self
      refine ⟨interrupted_kept kept still kept.ending kept.linked ?_ (fun _ => silent), rfl⟩
      rw [silent, if_neg (kept.quiet (kept.ending (kept.linked unlinked)))]
      rfl
    · obtain ⟨over_, off, endScript, masterElement, told, silent, queued⟩ :=
        ConnExecute.notActive_outcome { s.conn with endScript := true }
      refine ⟨interrupted_kept kept over_ (fun _ => off) ?_ told silent, queued⟩
      exact fun _ => endScript
  | _ => contradiction

theorem asked_kept (kept : s.Kept) (w : World) (noblock : Bool) (form : ExposureForm)
    (rest : List UInt8)
    (answered : s.accepted = 0 ∨ 0 < s.terminals (s.accepted - 1)) :
    let conn := s.conn.exposure w noblock form rest
    (if s.conn.queued.length < conn.queued.length then
      { s with conn := conn, accepted := s.accepted + 1 }
    else { s with conn := conn }).Kept := by
  have over_ : s.accepted ≠ 0 → ¬ s.conn.Waits := by
    intro some_ waits
    have counted := kept.last (s.accepted - 1) (by omega)
    rw [if_pos waits] at counted
    omega
  intro conn
  rcases s.conn.exposure_accepts w noblock form rest with aside | ⟨active, linked, beside, started, longer⟩
  · have short : ¬ s.conn.queued.length < conn.queued.length := by
      rw [aside.queued]
      exact Nat.lt_irrefl _
    rw [if_neg short]
    apply kept.beside aside.exposure_started aside.active aside.endScript
    exact fun off => aside.endScript.trans (kept.linked (aside.masterElement ▸ off))
  · rw [if_pos (Nat.lt_of_lt_of_eq (Nat.lt_succ_self _) longer.symm)]
    have active' : conn.active = true := beside.active.trans active
    have waits : conn.Waits := .inl started
    refine { before := ?_, last := ?_, after := ?_, first := fun _ => Nat.succ_pos _, quiet := ?_,
             ending := ?_, linked := ?_, own := kept.own, started := ?_, ended := ?_ }
    · intro n more
      change n + 1 < s.accepted + 1 at more
      rcases Nat.lt_or_eq_of_le (Nat.le_of_lt_succ more) with earlier | last
      · exact kept.before n earlier
      · have counted := kept.last n last
        rw [if_neg (over_ (by omega))] at counted
        exact counted
    · intro n last
      change n + 1 = s.accepted + 1 at last
      rw [if_pos waits]
      exact (kept.after n (by omega)).1
    · intro n outside
      change s.accepted + 1 ≤ n at outside
      exact kept.after n (by omega)
    · intro off
      rw [active'] at off
      contradiction
    · intro on
      have off := kept.ending (beside.endScript ▸ on)
      rw [active] at off
      contradiction
    · intro off
      rw [beside.masterElement, linked] at off
      contradiction
    · intro n last _
      change n + 1 = s.accepted + 1 at last
      have new : s.course n = .new := (kept.after n (by omega)).2
      change (s.course n).ended = none ∧ (s.course n).broken = false
      rw [new]
      exact ⟨rfl, rfl⟩
    · intro n last ended
      rw [started] at ended
      contradiction

theorem line_kept (kept : s.Kept) (w : World) (word : Word) (rest : List UInt8)
    (answered : word.isExposure → s.accepted = 0 ∨ 0 < s.terminals (s.accepted - 1)) :
    (s.line w word rest).Kept := by
  have aside {conn : ConnExecute} (aside : Aside s.conn conn) :
      ¬ s.conn.queued.length < conn.queued.length ∧ Kept { s with conn := conn } := by
    refine ⟨by rw [aside.queued]; exact Nat.lt_irrefl _, ?_⟩
    apply kept.beside aside.exposure_started aside.active aside.endScript
    exact fun off => aside.endScript.trans (kept.linked (aside.masterElement ▸ off))
  simp only [line]
  cases asks : word.isExposure with
  | true =>
    cases word with
    | exposure noblock form =>
      have next := asked_kept kept w noblock form rest (answered rfl)
      simp only [ConnExecute.processCommand, Word.stops, Bool.false_eq_true, if_false]
      exact next
    | _ => contradiction
  | false =>
    cases stops : word.stops with
    | true =>
      obtain ⟨next, same⟩ := stops_kept kept w rest stops
      rw [if_neg (by rw [same]; exact Nat.lt_irrefl _), if_pos rfl]
      exact next
    | false =>
      obtain ⟨short, next⟩ := aside (.processCommand s.conn w word rest asks stops)
      rw [if_neg short, if_neg (by simp)]
      exact next

theorem step_kept (s : Exposures) (e : ExposureEvent) (kept : s.Kept) (enabled : s.Enabled e)
    (timely : s.Timely e) : (s.step e).Kept := by
  cases e with
  | line w text => exact line_kept kept w _ _ enabled.2
  | camera n e => exact camera_kept kept timely
  | notActive => exact notActive_kept kept
  | nextCommand =>
    change Kept { s with conn := s.conn.nextCommand }
    unfold ConnExecute.nextCommand
    split
    · rename_i ends
      exact kept.beside rfl rfl rfl (fun _ => ends)
    · exact kept.beside rfl rfl rfl kept.linked
  | move moved =>
    change Kept { s with conn := s.conn.postEvent moved }
    unfold ConnExecute.postEvent
    split
    · exact kept.beside rfl rfl rfl kept.linked
    · split <;> exact kept.beside rfl rfl rfl kept.linked
  | idle w =>
    change Kept { s with conn := s.conn.idle w }
    unfold ConnExecute.idle
    split
    · exact kept.beside rfl rfl rfl kept.linked
    · have aside := Aside.checkWait s.conn w
      apply kept.beside aside.exposure_started aside.active aside.endScript
      exact fun off => aside.endScript.trans (kept.linked (aside.masterElement ▸ off))

theorem step_timely (s : Exposures) (e : ExposureEvent) (kept : s.Kept) (fair : (s.step e).Fair) :
    s.Timely e := by
  cases e with
  | camera n e =>
    intro acts
    have waits : s.conn.Waits := by
      cases e with
      | errorReported => exact acts
      | exposureEnd expectImage => exact .inl acts
      | exposureFailed => exact acts
      | processImage image => exact .inr acts
    have some_ := kept.first waits
    have here : s.conn.masterElement = true := by
      by_contra off
      exact kept.quiet (kept.ending (kept.linked (by simpa using off))) waits
    have effect := s.conn.camera_acts e here acts
    have told : replies s.conn (s.conn.camera e) ≠ [] := by
      intro silent
      rw [silent] at effect
      split at effect
      · exact effect.2.1 rfl
      · exact absurd effect.2 (by simp)
    obtain ⟨line, mem⟩ := List.exists_mem_of_ne_nil _ told
    have same : n = s.accepted - 1 := by
      apply fair.own ⟨line, n, s.accepted - 1⟩
      change _ ∈ ((s.heard n (s.conn.camera e)).went n _).replied
      rw [went_replied]
      exact List.mem_append_right _ (List.mem_map.mpr ⟨line, mem, rfl⟩)
    have last : n + 1 = s.accepted := by omega
    refine ⟨last, fun reading => ?_⟩
    subst reading
    by_contra early
    have delivered : (s.course n).delivered = true := by simpa using early
    obtain ⟨open_, -⟩ := kept.started n last acts
    have once := fair.once n
    change n < ((s.heard n _).went n _).accepted → (((s.heard n _).went n _).course n).isOver →
      ((s.heard n _).went n _).terminals n = 1 at once
    rw [went_accepted, went_terminals, went_course, terminals_heard, kept.last n last,
      if_pos waits, if_pos same] at once
    have over_ := once (by rw [heard_accepted]; omega) (by
      rw [if_pos ⟨rfl, by rw [heard_accepted]; omega⟩]
      simp [Course.isOver, Course.after, open_, delivered])
    rw [if_pos rfl] at effect
    omega
  | _ => trivial

instance (s : Exposures) : DecidablePred s.Enabled
  | .line _ text => inferInstanceAs (Decidable (_ ∧ ((readLine text).1.isExposure = true → _)))
  | .camera _ _ => inferInstanceAs (Decidable (_ ∧ (_ ∨ _)))
  | .notActive => inferInstanceAs (Decidable (_ ∧ True))
  | .nextCommand => inferInstanceAs (Decidable (_ ∧ True))
  | .move _ => inferInstanceAs (Decidable (_ ∧ True))
  | .idle _ => inferInstanceAs (Decidable (_ ∧ True))

/-- In the runs of a script that waits for each terminal reply, every exposure has its one reply
and no event replies to another exposure just when no late event meets a state it acts on and
no image comes before the end of its exposure. -/
theorem exposures_answered_iff (es : List ExposureEvent) (runs : Guarded step Enabled fresh es) :
    (∀ done, done <+: es → (run step fresh done).Fair) ↔ Guarded step Timely fresh es :=
  prefixes_iff_guarded_enabled (fun _ => Kept.fair) step_kept
    (fun s e kept _ => step_timely s e kept) fresh_kept runs

def sampleWorld : World where
  now := 0
  connections := []
  centraldConns := []
  getOwnValue := fun _ => none
  deviceName := none
  connection := some ⟨bytes "C0", 3, 0, fun _ => none⟩
  client := true
  target := none
  loopCount := none
  moveImage := fun _ path _ => .ok path
  scansDouble := fun _ => false

def asks : ExposureEvent := .line sampleWorld (bytes "exposure")

def askedTwice : List ExposureEvent :=
  [asks, .camera 0 (.exposureEnd true), .camera 0 (.processImage (bytes "/a")), asks,
    .camera 1 .errorReported, .camera 1 .exposureFailed]

theorem exposures_answered_sample : Guarded step Enabled fresh askedTwice ∧
    ∀ done, done <+: askedTwice → (run step fresh done).Fair := by
  have enabled : Guarded step Enabled fresh askedTwice := by decide
  refine ⟨enabled, (exposures_answered_iff askedTwice enabled).mpr ?_⟩
  exact ⟨trivial, fun _ => by decide, fun _ => by decide, trivial,
    fun _ => by decide, fun acts => absurd acts (by decide), trivial⟩

/-- An error is reported, the script asks for the next exposure, and the failure of the first
replies to it. -/
theorem failure_answers_next : ¬ ∀ es : List ExposureEvent, Guarded step Enabled fresh es →
    ∀ done, done <+: es → (run step fresh done).Fair := by
  intro law
  have fair := law [asks, .camera 0 .errorReported, asks, .camera 0 .exposureFailed]
    (by decide) _ (List.prefix_refl _)
  have own := fair.own ⟨bytes "exposure_failed", 0, 1⟩ (by decide)
  exact absurd own (by decide)

end Exposures

end Rts2.External
