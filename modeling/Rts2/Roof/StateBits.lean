import Rts2.Roof.D50

/-! The state word of a dome: the bits that each operation of the skeleton masks in, beside what the
operation does. -/
namespace Rts2.Roof

open Lib

abbrev Status := BitVec 32

def DEVICE_ERROR_MASK : Status := 0x000f0000
def DEVICE_BLOCK_CLOSE : Status := 0x00002000
def DEVICE_BLOCK_OPEN : Status := 0x00004000
def BOP_EXPOSURE : Status := 0x01000000
def BOP_TEL_MOVE : Status := 0x04000000
def DOME_DOME_MASK : Status := 0x01f
def DOME_STOPPED_MASK : Status := 0x020
def DOME_STOPPED : Status := 0x020

def DomeState.bits : DomeState → Status
  | .DOME_UNKNOW => 0x000
  | .DOME_CLOSED => 0x001
  | .DOME_OPENING => 0x002
  | .DOME_OPENED => 0x004
  | .DOME_CLOSING => 0x008
  | .DOME_WAIT_CLOSING => 0x010

namespace Status

def maskState (state : Status) (state_mask new_state : Status) : Status :=
  (state &&& ~~~(DEVICE_ERROR_MASK ||| state_mask)) ||| new_state

theorem maskState_in {s mask new field : Status} (inside : field &&& ~~~mask = 0) :
    s.maskState mask new &&& field = new &&& field := by
  ext i bound
  have covered : (field[i] && !mask[i]) = false := by
    rw [← BitVec.getElem_not, ← BitVec.getElem_and, inside]
    exact BitVec.getElem_zero bound
  revert covered
  simp only [maskState, BitVec.getElem_and, BitVec.getElem_or, BitVec.getElem_not]
  cases s[i] <;> cases new[i] <;> cases field[i] <;> cases mask[i] <;> simp

theorem maskState_out {s mask new field : Status} (outside : field &&& (DEVICE_ERROR_MASK ||| mask) = 0)
    (kept : new &&& field = 0) : s.maskState mask new &&& field = s &&& field := by
  ext i bound
  have free : (field[i] && (DEVICE_ERROR_MASK[i] || mask[i])) = false := by
    rw [← BitVec.getElem_or, ← BitVec.getElem_and, outside]
    exact BitVec.getElem_zero bound
  have clear : (new[i] && field[i]) = false := by
    rw [← BitVec.getElem_and, kept]
    exact BitVec.getElem_zero bound
  revert free clear
  simp only [maskState, BitVec.getElem_and, BitVec.getElem_or, BitVec.getElem_not]
  cases s[i] <;> cases new[i] <;> cases field[i] <;> cases mask[i] <;> simp

end Status

structure Fields where
  dome : Status
  exposure : Status
  telMove : Status
  blockOpen : Status
  blockClose : Status
  stopped : Status

def Status.fields (s : Status) : Fields where
  dome := s &&& DOME_DOME_MASK
  exposure := s &&& BOP_EXPOSURE
  telMove := s &&& BOP_TEL_MOVE
  blockOpen := s &&& DEVICE_BLOCK_OPEN
  blockClose := s &&& DEVICE_BLOCK_CLOSE
  stopped := s &&& DOME_STOPPED_MASK

/-- A dome with its state word; it is halted from a stop until an opening or a closing starts. -/
structure WordDome (σ : Type) where
  dome : Dome σ
  status : Status
  halted : Bool

namespace WordDome

variable {σ : Type} (D : Driver σ)

def moveMask : Status :=
  DOME_DOME_MASK ||| BOP_EXPOSURE ||| BOP_TEL_MOVE ||| DEVICE_BLOCK_OPEN ||| DEVICE_BLOCK_CLOSE

def opened (s : Status) : Status :=
  s.maskState moveMask (DomeState.DOME_OPENED.bits ||| DEVICE_BLOCK_CLOSE)

def opening (s : Status) : Status :=
  s.maskState moveMask (DomeState.DOME_OPENING.bits ||| BOP_EXPOSURE ||| BOP_TEL_MOVE |||
    DEVICE_BLOCK_OPEN ||| DEVICE_BLOCK_CLOSE)

def closed (s : Status) : Status :=
  s.maskState moveMask (DomeState.DOME_CLOSED.bits ||| DEVICE_BLOCK_OPEN)

def waiting (s : Status) : Status :=
  s.maskState (DOME_DOME_MASK ||| BOP_EXPOSURE ||| BOP_TEL_MOVE) DomeState.DOME_WAIT_CLOSING.bits

def closing (s : Status) : Status :=
  s.maskState moveMask (DomeState.DOME_CLOSING.bits ||| DEVICE_BLOCK_OPEN ||| DEVICE_BLOCK_CLOSE)

def halt (s : Status) : Status :=
  s.maskState (DOME_STOPPED_MASK ||| BOP_EXPOSURE ||| BOP_TEL_MOVE) DOME_STOPPED

def closingEnded (s : Status) : Status :=
  s.maskState (DOME_DOME_MASK ||| DEVICE_BLOCK_OPEN ||| DEVICE_BLOCK_CLOSE)
    (DomeState.DOME_CLOSED.bits ||| DEVICE_BLOCK_OPEN)

def StartsOpening (isGoodWeather : Bool) (driver : σ) : Prop :=
  (D.isOpened driver).1 ≠ -2 ∧ isGoodWeather = true ∧ (D.startOpen (D.isOpened driver).2).1 = 0

instance (isGoodWeather : Bool) (driver : σ) : Decidable (StartsOpening D isGoodWeather driver) := by
  unfold StartsOpening
  infer_instance

def domeOpenStart (isGoodWeather : Bool) (m : WordDome σ) : WordDome σ where
  dome := (Dome.domeOpenStart D isGoodWeather m.dome).2
  status :=
    let (ret, driver) := D.isOpened m.dome.driver
    if ret = -2 then opened m.status
    else if !isGoodWeather then m.status
    else if (D.startOpen driver).1 ≠ 0 then m.status
    else opening m.status
  halted := m.halted && !decide (StartsOpening D isGoodWeather m.dome.driver)

def StartsClosing (driver : σ) : Prop :=
  (D.isClosed driver).1 ≠ -2 ∧ (D.startClose (D.isClosed driver).2).1 = 0

instance (driver : σ) : Decidable (StartsClosing D driver) := by
  unfold StartsClosing
  infer_instance

def domeCloseStart (quiet : Bool) (m : WordDome σ) : WordDome σ where
  dome := (Dome.domeCloseStart D quiet m.dome).2
  status :=
    let (ret, driver) := D.isClosed m.dome.driver
    if ret = -2 then closed m.status
    else if (D.startClose driver).1 < 0 then m.status
    else if 0 < (D.startClose driver).1 then waiting m.status
    else closing m.status
  halted := m.halted && !decide (StartsClosing D m.dome.driver)

def domeStop (m : WordDome σ) : WordDome σ where
  dome := (Dome.domeStop D m.dome).2
  status := if (D.stop m.dome.driver).1 < 0 then m.status else halt m.status
  halted := m.halted || 0 ≤ (D.stop m.dome.driver).1

def checkOpening (m : WordDome σ) : WordDome σ where
  dome := Dome.checkOpening D m.dome
  status :=
    if m.status &&& DOME_DOME_MASK = DomeState.DOME_OPENING.bits then
      let ret := (D.isOpened m.dome.driver).1
      if ret = -1 ∨ ret = -2 then opened m.status else m.status
    else if m.status &&& DOME_DOME_MASK = DomeState.DOME_CLOSING.bits then
      let ret := (D.isClosed m.dome.driver).1
      if ret = -1 ∨ ret = -2 then closingEnded m.status else m.status
    else m.status
  halted := m.halted

def closeRequest (m : WordDome σ) : WordDome σ :=
  domeCloseStart D false { m with dome := { m.dome with wanted := true, retried := 0 } }

def idle (settled isGoodWeather autoClose : Bool) (m : WordDome σ) : WordDome σ :=
  if !settled then m
  else
    let m := checkOpening D m
    if isGoodWeather then m else if autoClose then closeRequest D m else m

def retry (m : WordDome σ) : WordDome σ :=
  domeCloseStart D false { m with dome := { m.dome with
    retryTimers := m.dome.retryTimers - 1
    retried := if m.dome.planned then m.dome.retried + 1 else m.dome.retried } }

def step (m : WordDome σ) : Dome.Call → WordDome σ
  | .openStart isGoodWeather => domeOpenStart D isGoodWeather m
  | .closeStart => closeRequest D m
  | .masterClose autoClose => if autoClose then closeRequest D m else m
  | .quietClose => domeCloseStart D true m
  | .stop => domeStop D m
  | .idle settled isGoodWeather autoClose => idle D settled isGoodWeather autoClose m
  | .retry => retry D m

def start (d : Dome σ) : WordDome σ where
  dome := d
  status := Status.maskState 0 DOME_DOME_MASK d.state.bits
  halted := false

/-- Exposures and moves are blocked exactly while the dome opens and is not stopped, the closing of
the observatory in every state but closed, its opening in every state but opened; the dome is stopped
only after a stop. -/
structure Right (f : Fields) (halted : Bool) : Prop where
  exposure : f.exposure ≠ 0 ↔ f.dome = DomeState.DOME_OPENING.bits ∧ f.stopped = 0
  telMove : f.telMove ≠ 0 ↔ f.dome = DomeState.DOME_OPENING.bits ∧ f.stopped = 0
  blockClose : f.blockClose ≠ 0 ↔ f.dome ≠ DomeState.DOME_CLOSED.bits
  blockOpen : f.blockOpen ≠ 0 ↔ f.dome ≠ DomeState.DOME_OPENED.bits
  stopped : f.stopped ≠ 0 → halted = true

def Kept : WordDome σ → List Dome.Call → Prop
  | m, [] => Right m.status.fields m.halted
  | m, call :: calls => Right m.status.fields m.halted ∧ (m.step D call).Kept calls

/-- A close that starts finds a dome that is not stopped; one that has to wait finds neither the dome
opened nor closed. -/
def ClosesWell (m : WordDome σ) : Prop :=
  (StartsClosing D m.dome.driver → m.status &&& DOME_STOPPED_MASK = 0) ∧
    ((D.isClosed m.dome.driver).1 ≠ -2 → 0 < (D.startClose (D.isClosed m.dome.driver).2).1 →
      m.status &&& DOME_DOME_MASK ≠ DomeState.DOME_OPENED.bits ∧
        m.status &&& DOME_DOME_MASK ≠ DomeState.DOME_CLOSED.bits)

def GoesWell (m : WordDome σ) : Dome.Call → Prop
  | .openStart isGoodWeather =>
    StartsOpening D isGoodWeather m.dome.driver → m.status &&& DOME_STOPPED_MASK = 0
  | .closeStart | .quietClose | .retry => ClosesWell D m
  | .masterClose autoClose => autoClose = true → ClosesWell D m
  | .stop => True
  | .idle settled isGoodWeather autoClose =>
    settled = true → isGoodWeather = false → autoClose = true → ClosesWell D (checkOpening D m)

def AllGoWell : WordDome σ → List Dome.Call → Prop
  | _, [] => True
  | m, call :: calls => GoesWell D m call ∧ (m.step D call).AllGoWell calls

theorem fields_opened (s : Status) : (opened s).fields =
    ⟨DomeState.DOME_OPENED.bits, 0, 0, 0, DEVICE_BLOCK_CLOSE, s &&& DOME_STOPPED_MASK⟩ := by
  simp (disch := decide) only [Status.fields, opened, Status.maskState_in, Status.maskState_out]
  rfl

theorem fields_opening (s : Status) : (opening s).fields =
    ⟨DomeState.DOME_OPENING.bits, BOP_EXPOSURE, BOP_TEL_MOVE, DEVICE_BLOCK_OPEN, DEVICE_BLOCK_CLOSE,
      s &&& DOME_STOPPED_MASK⟩ := by
  simp (disch := decide) only [Status.fields, opening, Status.maskState_in, Status.maskState_out]
  rfl

theorem fields_closed (s : Status) : (closed s).fields =
    ⟨DomeState.DOME_CLOSED.bits, 0, 0, DEVICE_BLOCK_OPEN, 0, s &&& DOME_STOPPED_MASK⟩ := by
  simp (disch := decide) only [Status.fields, closed, Status.maskState_in, Status.maskState_out]
  rfl

theorem fields_waiting (s : Status) : (waiting s).fields =
    ⟨DomeState.DOME_WAIT_CLOSING.bits, 0, 0, s &&& DEVICE_BLOCK_OPEN, s &&& DEVICE_BLOCK_CLOSE,
      s &&& DOME_STOPPED_MASK⟩ := by
  simp (disch := decide) only [Status.fields, waiting, Status.maskState_in, Status.maskState_out]
  rfl

theorem fields_closing (s : Status) : (closing s).fields =
    ⟨DomeState.DOME_CLOSING.bits, 0, 0, DEVICE_BLOCK_OPEN, DEVICE_BLOCK_CLOSE,
      s &&& DOME_STOPPED_MASK⟩ := by
  simp (disch := decide) only [Status.fields, closing, Status.maskState_in, Status.maskState_out]
  rfl

theorem fields_halt (s : Status) : (halt s).fields =
    ⟨s &&& DOME_DOME_MASK, 0, 0, s &&& DEVICE_BLOCK_OPEN, s &&& DEVICE_BLOCK_CLOSE, DOME_STOPPED⟩ := by
  simp (disch := decide) only [Status.fields, halt, Status.maskState_in, Status.maskState_out]
  rfl

theorem fields_closingEnded (s : Status) : (closingEnded s).fields =
    ⟨DomeState.DOME_CLOSED.bits, s &&& BOP_EXPOSURE, s &&& BOP_TEL_MOVE, DEVICE_BLOCK_OPEN, 0,
      s &&& DOME_STOPPED_MASK⟩ := by
  simp (disch := decide) only [Status.fields, closingEnded, Status.maskState_in, Status.maskState_out]
  rfl

def Shows (m : WordDome σ) : Prop := m.status &&& DOME_DOME_MASK = m.dome.state.bits

theorem bits_inj {state state' : DomeState} (same : state.bits = state'.bits) : state = state' := by
  revert same
  cases state <;> cases state' <;> decide

theorem start_shows (d : Dome σ) : (start d).Shows := by
  rw [Shows, start, Status.maskState_in (by decide)]
  cases d.state <;> decide

theorem shows_of_fields {m : WordDome σ} {s : Status} {f : Fields} (status : m.status = s)
    (fields : s.fields = f) (dome : f.dome = m.dome.state.bits) : m.Shows := by
  rw [Shows, status, ← dome, ← fields]
  rfl

theorem domeOpenStart_shows {m : WordDome σ} (same : m.Shows) (isGoodWeather : Bool) :
    (domeOpenStart D isGoodWeather m).Shows := by
  by_cases ended : (D.isOpened m.dome.driver).1 = -2
  · refine shows_of_fields (if_pos ended) (fields_opened _) ?_
    simp only [domeOpenStart, Dome.domeOpenStart, ended, if_true]
  · cases isGoodWeather with
    | false => simpa [Shows, domeOpenStart, Dome.domeOpenStart, ended] using same
    | true =>
      by_cases started : (D.startOpen (D.isOpened m.dome.driver).2).1 = 0
      · have status : (domeOpenStart D true m).status = opening m.status := by
          simp [domeOpenStart, ended, started]
        refine shows_of_fields status (fields_opening _) ?_
        simp [domeOpenStart, Dome.domeOpenStart, ended, started]
      · simpa [Shows, domeOpenStart, Dome.domeOpenStart, ended, started] using same

theorem domeCloseStart_shows {m : WordDome σ} (same : m.Shows) (quiet : Bool) :
    (domeCloseStart D quiet m).Shows := by
  by_cases ended : (D.isClosed m.dome.driver).1 = -2
  · refine shows_of_fields (if_pos ended) (fields_closed _) ?_
    simp only [domeCloseStart, Dome.domeCloseStart, ended, if_true]
  · by_cases failed : (D.startClose (D.isClosed m.dome.driver).2).1 < 0
    · simpa [Shows, domeCloseStart, Dome.domeCloseStart, ended, failed] using same
    · by_cases waits : 0 < (D.startClose (D.isClosed m.dome.driver).2).1
      · have status : (domeCloseStart D quiet m).status = waiting m.status := by
          simp [domeCloseStart, ended, failed, waits]
        refine shows_of_fields status (fields_waiting _) ?_
        simp [domeCloseStart, Dome.domeCloseStart, ended, failed, waits]
      · have status : (domeCloseStart D quiet m).status = closing m.status := by
          simp [domeCloseStart, ended, failed, waits]
        refine shows_of_fields status (fields_closing _) ?_
        simp [domeCloseStart, Dome.domeCloseStart, ended, failed, waits]

theorem domeStop_shows {m : WordDome σ} (same : m.Shows) : (domeStop D m).Shows := by
  by_cases failed : (D.stop m.dome.driver).1 < 0
  · simpa [Shows, domeStop, Dome.domeStop, failed] using same
  · have status : (domeStop D m).status = halt m.status := if_neg failed
    refine shows_of_fields status (fields_halt _) (Eq.trans same ?_)
    simp [domeStop, Dome.domeStop, failed]

theorem closeFailed_state (d : Dome σ) : d.closeFailed.state = d.state := by
  unfold Dome.closeFailed
  split <;> rfl

theorem checkOpening_shows {m : WordDome σ} (same : m.Shows) : (checkOpening D m).Shows := by
  have opens : m.status &&& DOME_DOME_MASK = DomeState.DOME_OPENING.bits ↔
      m.dome.state = .DOME_OPENING := by
    rw [same]
    exact ⟨fun h => bits_inj h, fun h => congrArg _ h⟩
  have closes : m.status &&& DOME_DOME_MASK = DomeState.DOME_CLOSING.bits ↔
      m.dome.state = .DOME_CLOSING := by
    rw [same]
    exact ⟨fun h => bits_inj h, fun h => congrArg _ h⟩
  cases state : m.dome.state with
  | DOME_OPENING =>
    by_cases ended : (D.isOpened m.dome.driver).1 = -1 ∨ (D.isOpened m.dome.driver).1 = -2
    · have status : (checkOpening D m).status = opened m.status := by
        simp only [checkOpening, opens, state, if_true, ended]
      refine shows_of_fields status (fields_opened _) ?_
      simp only [checkOpening, Dome.checkOpening, state, ended, if_true]
    · have status : (checkOpening D m).status = m.status := by
        simp only [checkOpening, opens, state, if_true, ended, if_false]
      rw [Shows, status, same]
      simp only [checkOpening, Dome.checkOpening, state, ended, if_false]
  | DOME_CLOSING =>
    have other : DomeState.DOME_CLOSING ≠ .DOME_OPENING := by decide
    by_cases ended : (D.isClosed m.dome.driver).1 = -1 ∨ (D.isClosed m.dome.driver).1 = -2
    · have status : (checkOpening D m).status = closingEnded m.status := by
        simp only [checkOpening, opens, closes, state, other, if_false, if_true, ended]
      refine shows_of_fields status (fields_closingEnded _) ?_
      simp only [checkOpening, Dome.checkOpening, state]
      split
      · split
        · rfl
        · rw [closeFailed_state]
      · rename_i late
        rw [if_pos (ended.resolve_left late)]
        split
        · rw [closeFailed_state]
        · rfl
    · have status : (checkOpening D m).status = m.status := by
        simp only [checkOpening, opens, closes, state, other, if_false, if_true, ended]
      rw [Shows, status, same]
      obtain ⟨early, running⟩ := not_or.mp ended
      simp only [checkOpening, Dome.checkOpening, state, early, running, if_false]
  | DOME_UNKNOW | DOME_CLOSED | DOME_OPENED | DOME_WAIT_CLOSING =>
    simpa [Shows, checkOpening, Dome.checkOpening, opens, closes, state] using same

theorem closeRequest_shows {m : WordDome σ} (same : m.Shows) : (closeRequest D m).Shows :=
  domeCloseStart_shows D (m := { m with dome := { m.dome with wanted := true, retried := 0 } }) same false

theorem retry_shows {m : WordDome σ} (same : m.Shows) : (retry D m).Shows :=
  domeCloseStart_shows D (m := { m with dome := { m.dome with
    retryTimers := m.dome.retryTimers - 1
    retried := if m.dome.planned then m.dome.retried + 1 else m.dome.retried } }) same false

theorem step_shows {m : WordDome σ} (same : m.Shows) (call : Dome.Call) :
    (m.step D call).Shows ∧ (m.step D call).dome = Dome.step D m.dome call := by
  cases call with
  | openStart isGoodWeather => exact ⟨domeOpenStart_shows D same isGoodWeather, rfl⟩
  | closeStart => exact ⟨closeRequest_shows D same, rfl⟩
  | masterClose autoClose =>
    cases autoClose with
    | true => exact ⟨closeRequest_shows D same, rfl⟩
    | false => exact ⟨same, rfl⟩
  | quietClose => exact ⟨domeCloseStart_shows D same true, rfl⟩
  | stop => exact ⟨domeStop_shows D same, rfl⟩
  | idle settled isGoodWeather autoClose =>
    have checked := checkOpening_shows D same
    cases settled with
    | false => exact ⟨same, rfl⟩
    | true =>
      cases isGoodWeather with
      | true => exact ⟨checked, rfl⟩
      | false =>
        cases autoClose with
        | true => exact ⟨closeRequest_shows D checked, rfl⟩
        | false => exact ⟨checked, rfl⟩
  | retry => exact ⟨retry_shows D same, rfl⟩

theorem right_still {dome blockOpen blockClose stopped : Status} {halted : Bool}
    (still : dome ≠ DomeState.DOME_OPENING.bits)
    (closes : blockClose ≠ 0 ↔ dome ≠ DomeState.DOME_CLOSED.bits)
    (opens : blockOpen ≠ 0 ↔ dome ≠ DomeState.DOME_OPENED.bits)
    (stops : stopped ≠ 0 → halted = true) :
    Right ⟨dome, 0, 0, blockOpen, blockClose, stopped⟩ halted :=
  have blocks : (0 : Status) ≠ 0 ↔ dome = DomeState.DOME_OPENING.bits ∧ stopped = 0 :=
    iff_of_false (fun other => other rfl) fun opening => still opening.1
  ⟨blocks, blocks, closes, opens, stops⟩

theorem run_shows (d : Dome σ) (calls : List Dome.Call) :
    (run (step D) (start d) calls).Shows ∧ (run (step D) (start d) calls).dome = run (Dome.step D) d calls := by
  suffices follows : ∀ m : WordDome σ, m.Shows →
      (run (step D) m calls).Shows ∧ (run (step D) m calls).dome = run (Dome.step D) m.dome calls from
    follows (start d) (start_shows d)
  induction calls with
  | nil => exact fun m same => ⟨same, rfl⟩
  | cons call calls ih =>
    intro m same
    obtain ⟨next, dome⟩ := step_shows D same call
    rw [run_cons, run_cons, ← dome]
    exact ih (m.step D call) next

section

variable {s : Status} {halted : Bool}

theorem right_opened (stops : s &&& DOME_STOPPED_MASK ≠ 0 → halted = true) :
    Right (opened s).fields halted := by
  rw [fields_opened]
  exact right_still (by decide) (by decide) (by decide) stops

theorem right_closed (stops : s &&& DOME_STOPPED_MASK ≠ 0 → halted = true) :
    Right (closed s).fields halted := by
  rw [fields_closed]
  exact right_still (by decide) (by decide) (by decide) stops

theorem right_opening_iff :
    Right (opening s).fields false ↔ s &&& DOME_STOPPED_MASK = 0 := by
  rw [fields_opening]
  constructor
  · intro right
    by_contra stopped
    exact Bool.false_ne_true (right.stopped stopped)
  · intro free
    have exposure : BOP_EXPOSURE ≠ 0 := by decide
    have telMove : BOP_TEL_MOVE ≠ 0 := by decide
    have closes : DEVICE_BLOCK_CLOSE ≠ 0 ↔
        DomeState.DOME_OPENING.bits ≠ DomeState.DOME_CLOSED.bits := by decide
    have opens : DEVICE_BLOCK_OPEN ≠ 0 ↔
        DomeState.DOME_OPENING.bits ≠ DomeState.DOME_OPENED.bits := by decide
    exact ⟨iff_of_true exposure ⟨rfl, free⟩, iff_of_true telMove ⟨rfl, free⟩, closes, opens,
      fun stopped => absurd free stopped⟩

theorem right_closing_iff :
    Right (closing s).fields false ↔ s &&& DOME_STOPPED_MASK = 0 := by
  rw [fields_closing]
  constructor
  · intro right
    by_contra stopped
    exact Bool.false_ne_true (right.stopped stopped)
  · intro free
    exact right_still (by decide) (by decide) (by decide) fun stopped => absurd free stopped

theorem right_waiting_iff (right : Right s.fields halted) :
    Right (waiting s).fields halted ↔ s &&& DOME_DOME_MASK ≠ DomeState.DOME_OPENED.bits ∧
      s &&& DOME_DOME_MASK ≠ DomeState.DOME_CLOSED.bits := by
  rw [fields_waiting]
  constructor
  · intro waits
    have opened : DomeState.DOME_WAIT_CLOSING.bits ≠ DomeState.DOME_OPENED.bits := by decide
    have closed : DomeState.DOME_WAIT_CLOSING.bits ≠ DomeState.DOME_CLOSED.bits := by decide
    exact ⟨right.blockOpen.mp (waits.blockOpen.mpr opened),
      right.blockClose.mp (waits.blockClose.mpr closed)⟩
  · rintro ⟨opened, closed⟩
    exact right_still (by decide)
      (iff_of_true (right.blockClose.mpr closed) (by decide))
      (iff_of_true (right.blockOpen.mpr opened) (by decide)) right.stopped

theorem right_halt (right : Right s.fields halted) : Right (halt s).fields true := by
  rw [fields_halt]
  have blocks : (0 : Status) ≠ 0 ↔
      s &&& DOME_DOME_MASK = DomeState.DOME_OPENING.bits ∧ DOME_STOPPED = 0 :=
    iff_of_false (fun other => other rfl) fun opening => absurd opening.2 (by decide)
  exact ⟨blocks, blocks, right.blockClose, right.blockOpen, fun _ => rfl⟩

theorem right_closingEnded (right : Right s.fields halted)
    (state : s &&& DOME_DOME_MASK = DomeState.DOME_CLOSING.bits) :
    Right (closingEnded s).fields halted := by
  have still : s.fields.dome ≠ DomeState.DOME_OPENING.bits := by
    change s &&& DOME_DOME_MASK ≠ _
    rw [state]
    decide
  have exposure : s &&& BOP_EXPOSURE = 0 := by
    by_contra blocked
    exact still (right.exposure.mp blocked).1
  have telMove : s &&& BOP_TEL_MOVE = 0 := by
    by_contra blocked
    exact still (right.telMove.mp blocked).1
  rw [fields_closingEnded, exposure, telMove]
  exact right_still (by decide) (by decide) (by decide) right.stopped

end

theorem domeOpenStart_right {m : WordDome σ} (right : Right m.status.fields m.halted)
    (isGoodWeather : Bool) : Right (domeOpenStart D isGoodWeather m).status.fields
        (domeOpenStart D isGoodWeather m).halted ↔ GoesWell D m (.openStart isGoodWeather) := by
  by_cases starts : StartsOpening D isGoodWeather m.dome.driver
  · obtain ⟨ended, rfl, started⟩ := starts
    have status : (domeOpenStart D true m).status = opening m.status := by
      simp [domeOpenStart, ended, started]
    have halted : (domeOpenStart D true m).halted = false := by
      simp [domeOpenStart, StartsOpening, ended, started]
    rw [status, halted, right_opening_iff]
    exact ⟨fun free _ => free, fun well => well ⟨ended, rfl, started⟩⟩
  · have halted : (domeOpenStart D isGoodWeather m).halted = m.halted := by
      simp [domeOpenStart, starts]
    refine iff_of_true ?_ fun start => absurd start starts
    rw [halted]
    by_cases ended : (D.isOpened m.dome.driver).1 = -2
    · have status : (domeOpenStart D isGoodWeather m).status = opened m.status := if_pos ended
      exact status ▸ right_opened right.stopped
    · have status : (domeOpenStart D isGoodWeather m).status = m.status := by
        cases isGoodWeather with
        | false => simp [domeOpenStart, ended]
        | true =>
          have failed : (D.startOpen (D.isOpened m.dome.driver).2).1 ≠ 0 :=
            fun started => starts ⟨ended, rfl, started⟩
          simp [domeOpenStart, ended, failed]
      exact status ▸ right

theorem domeCloseStart_right {m : WordDome σ} (right : Right m.status.fields m.halted)
    (quiet : Bool) : Right (domeCloseStart D quiet m).status.fields
        (domeCloseStart D quiet m).halted ↔ ClosesWell D m := by
  by_cases starts : StartsClosing D m.dome.driver
  · have status : (domeCloseStart D quiet m).status = closing m.status := by
      simp [domeCloseStart, starts.1, starts.2]
    have halted : (domeCloseStart D quiet m).halted = false := by
      simp [domeCloseStart, starts]
    rw [status, halted, right_closing_iff]
    refine ⟨fun free => ⟨fun _ => free, fun _ waits => ?_⟩, fun well => well.1 starts⟩
    rw [starts.2] at waits
    exact absurd waits (lt_irrefl 0)
  · have halted : (domeCloseStart D quiet m).halted = m.halted := by
      simp [domeCloseStart, starts]
    rw [halted]
    by_cases ended : (D.isClosed m.dome.driver).1 = -2
    · have status : (domeCloseStart D quiet m).status = closed m.status := if_pos ended
      exact iff_of_true (status ▸ right_closed right.stopped)
        ⟨fun start => absurd start starts, fun other => absurd ended other⟩
    · have started : (D.startClose (D.isClosed m.dome.driver).2).1 ≠ 0 :=
        fun started => starts ⟨ended, started⟩
      by_cases waits : 0 < (D.startClose (D.isClosed m.dome.driver).2).1
      · have status : (domeCloseStart D quiet m).status = waiting m.status := by
          simp [domeCloseStart, ended, waits, waits.le]
        rw [status, right_waiting_iff right]
        exact ⟨fun well => ⟨fun start => absurd start starts, fun _ _ => well⟩,
          fun well => well.2 ended waits⟩
      · have failed : (D.startClose (D.isClosed m.dome.driver).2).1 < 0 := by omega
        have status : (domeCloseStart D quiet m).status = m.status := by
          simp [domeCloseStart, ended, failed]
        exact iff_of_true (status ▸ right)
          ⟨fun start => absurd start starts, fun _ wait => absurd wait waits⟩

theorem checkOpening_right {m : WordDome σ} (right : Right m.status.fields m.halted) :
    Right (checkOpening D m).status.fields (checkOpening D m).halted := by
  change Right (checkOpening D m).status.fields m.halted
  simp only [checkOpening]
  split
  · split
    · exact right_opened right.stopped
    · exact right
  · split
    · rename_i state
      split
      · exact right_closingEnded right state
      · exact right
    · exact right

theorem step_right {m : WordDome σ} (right : Right m.status.fields m.halted) (call : Dome.Call) :
    Right (m.step D call).status.fields (m.step D call).halted ↔ GoesWell D m call := by
  cases call with
  | openStart isGoodWeather => exact domeOpenStart_right D right isGoodWeather
  | closeStart => exact domeCloseStart_right D (m := { m with dome := _ }) right false
  | masterClose autoClose =>
    cases autoClose with
    | true =>
      refine (domeCloseStart_right D (m := { m with dome := _ }) right false).trans ?_
      exact ⟨fun well _ => well, fun well => well rfl⟩
    | false => exact iff_of_true right nofun
  | quietClose => exact domeCloseStart_right D right true
  | stop =>
    refine iff_of_true ?_ trivial
    by_cases failed : (D.stop m.dome.driver).1 < 0
    · simpa [step, domeStop, failed, not_le.mpr failed] using right
    · simpa [step, domeStop, failed, not_lt.mp failed] using right_halt right
  | idle settled isGoodWeather autoClose =>
    have checked := checkOpening_right D right
    cases settled with
    | false => exact iff_of_true right nofun
    | true =>
      cases isGoodWeather with
      | true => exact iff_of_true checked nofun
      | false =>
        cases autoClose with
        | true =>
          refine (domeCloseStart_right D (m := { checkOpening D m with dome := _ }) checked false).trans ?_
          exact ⟨fun well _ _ _ => well, fun well => well rfl rfl rfl⟩
        | false => exact iff_of_true checked nofun
  | retry => exact domeCloseStart_right D (m := { m with dome := _ }) right false

/-- The bits are right in every state of a run exactly if they are when it starts, no opening or
closing starts while the dome is shown as stopped, and no close waits with the dome opened or
closed. -/
theorem kept_iff (m : WordDome σ) (calls : List Dome.Call) :
    m.Kept D calls ↔ Right m.status.fields m.halted ∧ m.AllGoWell D calls := by
  induction calls generalizing m with
  | nil => exact ⟨fun right => ⟨right, trivial⟩, fun all => all.1⟩
  | cons call calls ih =>
    rw [Kept, AllGoWell, ih]
    constructor
    · rintro ⟨right, next, rest⟩
      exact ⟨right, (step_right D right call).mp next, rest⟩
    · rintro ⟨right, well, rest⟩
      exact ⟨right, (step_right D right call).mpr well, rest⟩

theorem start_wrong (d : Dome σ) : ¬Right (start d).status.fields (start d).halted := by
  intro right
  have word : (start d).status = d.state.bits := by
    change Status.maskState 0 DOME_DOME_MASK d.state.bits = d.state.bits
    cases d.state <;> decide
  have closes := right.blockClose
  have opens := right.blockOpen
  simp only [Status.fields, word] at closes opens
  revert closes opens
  cases d.state <;> decide

/-- So does the daemon of the roof, whatever its board reads. -/
theorem restart_wrong :
    ¬∀ (h : D50.House) (calls : List Dome.Call), (start (D50.restart h).dome).Kept D50.driver calls := by
  intro all
  let ford : Ford := ⟨0, 0, 0, [], Stream'.const ⟨some 4, true, true, 0⟩⟩
  exact start_wrong _ (all ⟨⟨D50.start ford, .DOME_UNKNOW, 0, 0, false, false, false, false, 0⟩, true⟩ [])

end WordDome

end Rts2.Roof
