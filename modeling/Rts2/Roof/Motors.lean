import Rts2.Roof.D50

/-! The two motors of the roof: what each operation of the driver does to their outputs, and that
these are never on together. -/
namespace Rts2.Roof

open Lib

theorem bothOn_cleared : ∀ outputs : BitVec 8,
    bothOn (outputs &&& ~~~(Vystup.OTEVIRANI.pin ||| Vystup.ZAVIRANI.pin)) = false := by
  decide

def Vystup.IsMotor (i : Vystup) : Prop := i = .OTEVIRANI ∨ i = .ZAVIRANI

def Vystup.other (i : Vystup) : Vystup := if i = .OTEVIRANI then .ZAVIRANI else .OTEVIRANI

theorem Vystup.IsMotor.port {motor : Vystup} (is_motor : motor.IsMotor) : motor.port = .B := by
  obtain rfl | rfl := is_motor <;> rfl

theorem Vystup.IsMotor.other {motor : Vystup} (is_motor : motor.IsMotor) : motor.other.IsMotor := by
  obtain rfl | rfl := is_motor
  · exact .inr rfl
  · exact .inl rfl

theorem bothOn_set (motor : Vystup) (is_motor : motor.IsMotor) :
    ∀ outputs : BitVec 8, outputs &&& motor.other.pin = 0 → bothOn (outputs ||| motor.pin) = false := by
  obtain rfl | rfl := is_motor <;> decide

structure Ford.Safe (f : Ford) : Prop where
  now : bothOn f.outputs = false
  before : ∀ outputs ∈ f.driven, bothOn outputs = false

def Ford.Fresh (f : Ford) : Prop := f.portB = f.outputs

theorem Ford.Fresh.getPortState {f : Ford} (fresh : f.Fresh) {motor : Vystup}
    (is_motor : motor.IsMotor) : f.getPortState motor = f.drives motor := by
  simp only [Ford.getPortState, Ford.drives, stav_portu, is_motor.port, show f.portB = f.outputs from fresh]

theorem Ford.Safe.other_off {f : Ford} (safe : f.Safe) {motor : Vystup} (is_motor : motor.IsMotor)
    (runs : f.drives motor = true) : f.drives motor.other = false := by
  have apart := safe.now
  obtain rfl | rfl := is_motor
  all_goals
    simp only [bothOn, drives, Vystup.other] at *
    grind

theorem Ford.Safe.write {f g : Ford} (safe : f.Safe) {outputs : BitVec 8}
    (apart : bothOn outputs = false)
    (wrote : g.outputs = f.outputs ∧ g.driven = f.driven ∨
      g.outputs = outputs ∧ g.driven = f.driven ++ [outputs]) : g.Safe := by
  obtain ⟨same, driven⟩ | ⟨set, driven⟩ := wrote
  · exact ⟨by rw [same]; exact safe.now, by rw [driven]; exact safe.before⟩
  · refine ⟨by rw [set]; exact apart, ?_⟩
    rw [driven]
    intro b mem
    obtain before | now := List.mem_append.mp mem
    · exact safe.before b before
    · rw [List.mem_singleton.mp now]
      exact apart

namespace D50

/-- An operation that only looks at the world. -/
structure Looks (d d' : D50) : Prop where
  same : d' = { d with ford := d'.ford }
  outputs : d'.ford.outputs = d.ford.outputs
  driven : d'.ford.driven = d.ford.driven

theorem Looks.refl (d : D50) : Looks d d := ⟨rfl, rfl, rfl⟩

theorem Looks.trans {d e f : D50} (first : Looks d e) (second : Looks e f) : Looks d f := by
  refine ⟨?_, second.outputs.trans first.outputs, second.driven.trans first.driven⟩
  rw [second.same, first.same]

theorem Looks.safe {d d' : D50} (looks : Looks d d') (safe : d.ford.Safe) : d'.ford.Safe :=
  ⟨by rw [looks.outputs]; exact safe.now, by rw [looks.driven]; exact safe.before⟩

theorem Looks.drives {d d' : D50} (looks : Looks d d') (motor : Vystup) :
    d'.ford.drives motor = d.ford.drives motor := by
  simp only [Ford.drives, looks.outputs]

theorem zjisti_looks (d : D50) : Looks d d.zjisti_stav_portu.2 :=
  ⟨rfl, d.ford.zjisti_spec.1, d.ford.zjisti_spec.2.1⟩

theorem zjisti_fresh {d : D50} (ok : d.zjisti_stav_portu.1 = 0) :
    d.zjisti_stav_portu.2.ford.Fresh :=
  (d.ford.zjisti_spec.2.2 ok).trans d.ford.zjisti_spec.1.symm

theorem time_looks (d : D50) : Looks d d.time.2 := ⟨rfl, rfl, rfl⟩

theorem seen {d : D50} (fresh : d.ford.Fresh) {motor : Vystup} (is_motor : motor.IsMotor) :
    d.getPortState motor = d.ford.drives motor :=
  fresh.getPortState is_motor

structure Still (d : D50) : Prop where
  opening : d.ford.drives .OTEVIRANI = false
  closing : d.ford.drives .ZAVIRANI = false

theorem Still.off {d : D50} (still : d.Still) {motor : Vystup} (is_motor : motor.IsMotor) :
    d.ford.drives motor = false := by
  obtain rfl | rfl := is_motor
  · exact still.opening
  · exact still.closing

structure Stops (d : D50) (r : Int × D50) : Prop where
  same : r.2 = { d with ford := r.2.ford, stopFailed := r.2.stopFailed }
  safe : d.ford.Safe → r.2.ford.Safe
  result : r.1 = 0 ∧ r.2.Still ∧ r.2.stopFailed = false ∨ r.1 = -1 ∧ r.2.stopFailed = true

theorem switchOffPins_safe {d : D50} (safe : d.ford.Safe) :
    (d.switchOffPins .OTEVIRANI .ZAVIRANI).2.ford.Safe :=
  safe.write (bothOn_cleared d.ford.outputs)
    (d.ford.vypni_spec (Vystup.OTEVIRANI.pin ||| Vystup.ZAVIRANI.pin))

theorem Stops.after {d e : D50} {r : Int × D50} (same : e = { d with ford := e.ford })
    (safe : d.ford.Safe → e.ford.Safe) (stops : Stops e r) : Stops d r := by
  refine ⟨?_, fun start => stops.safe (safe start), stops.result⟩
  have later := stops.same
  rw [same] at later
  exact later

theorem stopMotorsLoop_spec (i : Nat) (d : D50) : Stops d (d.stopMotorsLoop i) := by
  induction i generalizing d with
  | zero => exact ⟨rfl, id, .inr ⟨rfl, rfl⟩⟩
  | succ i again =>
    simp only [stopMotorsLoop]
    have switched : d.ford.Safe → (d.switchOffPins .OTEVIRANI .ZAVIRANI).2.ford.Safe := switchOffPins_safe
    generalize written : d.switchOffPins .OTEVIRANI .ZAVIRANI = w at switched ⊢
    have same : w.2 = { d with ford := w.2.ford } := by rw [← written]; rfl
    by_cases ok : w.1 = 0
    · rw [if_pos ok]
      have read := w.2.zjisti_looks
      by_cases off : w.2.zjisti_stav_portu.1 = 0 ∧
          !w.2.zjisti_stav_portu.2.getPortState .OTEVIRANI ∧
          !w.2.zjisti_stav_portu.2.getPortState .ZAVIRANI
      · rw [if_pos off]
        obtain ⟨ok, opening, closing⟩ := off
        have seen_off : ∀ motor : Vystup, motor.IsMotor →
            (!w.2.zjisti_stav_portu.2.getPortState motor) = true →
            w.2.zjisti_stav_portu.2.ford.drives motor = false := by
          intro motor is_motor off
          exact (seen (zjisti_fresh ok) is_motor).symm.trans (by simpa using off)
        refine ⟨?_, fun safe => read.safe (switched safe), .inl ⟨rfl, ⟨?_, ?_⟩, rfl⟩⟩
        · rw [read.same, same]
        · exact seen_off _ (.inl rfl) opening
        · exact seen_off _ (.inr rfl) closing
      · rw [if_neg off]
        refine (again _).after ?_ (fun safe => read.safe (switched safe))
        rw [read.same, same]
    · rw [if_neg ok]
      exact (again w.2).after same switched

theorem stopMotors_spec (d : D50) : Stops d d.stopMotors := stopMotorsLoop_spec 3 d

theorem ZAP_safe {d : D50} {motor : Vystup} (is_motor : motor.IsMotor)
    (off : d.ford.drives motor.other = false) (safe : d.ford.Safe) : (d.ZAP motor).2.ford.Safe := by
  have wrote := d.ford.zapni_spec motor.pin
  rw [← is_motor.port] at wrote
  exact safe.write (bothOn_set motor is_motor _ (by simpa [Ford.drives] using off)) wrote

theorem onlyMotor_looks (motor : Vystup) (d : D50) : Looks d (d.onlyMotor motor).2 := by
  simp only [onlyMotor]
  split <;> exact d.zjisti_looks

theorem onlyMotor_only {motor : Vystup} (is_motor : motor.IsMotor) {d : D50}
    (only : (d.onlyMotor motor).1 = 1) : d.ford.drives motor.other = false := by
  by_cases failed : d.zjisti_stav_portu.1 ≠ 0
  · simp [onlyMotor, failed] at only
  · have ok : d.zjisti_stav_portu.1 = 0 := by simpa using failed
    have off : d.zjisti_stav_portu.2.getPortState motor.other = false := by
      by_contra on
      simp [onlyMotor, failed] at only
      exact on only.2
    have seen_off := (seen (zjisti_fresh ok) is_motor.other).symm.trans off
    exact (d.zjisti_looks.drives motor.other).symm.trans seen_off

def Resting (d : D50) : Prop := d.Still ∨ d.stopFailed = true

theorem Stops.resting {d : D50} {r : Int × D50} (stops : Stops d r) : r.2.Resting := by
  obtain ⟨-, still, -⟩ | ⟨-, failed⟩ := stops.result
  · exact .inl still
  · exact .inr failed

structure Starts (motor : Vystup) (d : D50) (r : Int × D50) : Prop where
  safe : d.ford.Safe → r.2.ford.Safe
  result : r.1 = 0 ∧ r.2.ford.drives motor.other = false ∨ r.1 ≠ 0 ∧ r.2.Resting

theorem Starts.after {motor : Vystup} {d e : D50} {r : Int × D50} (safe : d.ford.Safe → e.ford.Safe)
    (starts : Starts motor e r) : Starts motor d r :=
  ⟨fun start => starts.safe (safe start), starts.result⟩

theorem Stops.starts {motor : Vystup} {d : D50} {r : Int × D50} (stops : Stops d r) :
    Starts motor d (-1, r.2) :=
  ⟨stops.safe, .inr ⟨by simp, stops.resting⟩⟩

theorem switchOn_spec {motor : Vystup} (is_motor : motor.IsMotor) {d : D50}
    (off : d.ford.drives motor.other = false) : Starts motor d (d.startMotor false motor) := by
  have switched : d.ford.Safe → (d.ZAP motor).2.ford.Safe := ZAP_safe is_motor off
  simp only [startMotor, Bool.false_eq_true, if_false]
  rw [if_neg (by simp)]
  by_cases written : (d.ZAP motor).1 ≠ 0
  · rw [if_pos written]
    exact (stopMotors_spec _).starts.after switched
  · rw [if_neg written]
    have looks := onlyMotor_looks motor (d.ZAP motor).2
    by_cases only : ((d.ZAP motor).2.onlyMotor motor).1 ≠ 1
    · rw [if_pos only]
      exact (stopMotors_spec _).starts.after (fun safe => looks.safe (switched safe))
    · rw [if_neg only]
      have alone := onlyMotor_only is_motor (by simpa using only)
      exact ⟨fun safe => looks.safe (switched safe), .inl ⟨rfl, (looks.drives motor.other).trans alone⟩⟩

theorem startMotor_spec {motor : Vystup} (is_motor : motor.IsMotor) {stopFirst : Bool} {d : D50}
    (off : stopFirst = false → d.ford.drives motor.other = false) :
    Starts motor d (d.startMotor stopFirst motor) := by
  cases stopFirst with
  | false => exact switchOn_spec is_motor (off rfl)
  | true =>
    have stops := d.stopMotors_spec
    obtain ⟨ok, still, -⟩ | ⟨failed, -⟩ := stops.result
    · have stopped : d.startMotor true motor = d.stopMotors.2.startMotor false motor := by
        simp [startMotor, ok]
      rw [stopped]
      exact (switchOn_spec is_motor (still.off is_motor.other)).after stops.safe
    · have same : d.startMotor true motor = (-1, d.stopMotors.2) := by simp [startMotor, failed]
      rw [same]
      exact stops.starts

/-- An operation that leaves the motors, their timeouts and what is known of the mount as they are. -/
structure Keeps (d d' : D50) : Prop where
  outputs : d'.ford.outputs = d.ford.outputs
  driven : d'.ford.driven = d.ford.driven
  stopFailed : d'.stopFailed = d.stopFailed
  timeToOpenMax : d'.timeToOpenMax = d.timeToOpenMax
  timeToCloseMax : d'.timeToCloseMax = d.timeToCloseMax
  connMount : d'.connMount = d.connMount
  ignoreMountState : d'.ignoreMountState = d.ignoreMountState

theorem Looks.keeps {d d' : D50} (looks : Looks d d') : Keeps d d' := by
  refine ⟨looks.outputs, looks.driven, ?_, ?_, ?_, ?_, ?_⟩ <;> rw [looks.same]

theorem Keeps.safe {d d' : D50} (keeps : Keeps d d') (safe : d.ford.Safe) : d'.ford.Safe :=
  ⟨by rw [keeps.outputs]; exact safe.now, by rw [keeps.driven]; exact safe.before⟩

theorem Keeps.drives {d d' : D50} (keeps : Keeps d d') (motor : Vystup) :
    d'.ford.drives motor = d.ford.drives motor := by
  simp only [Ford.drives, keeps.outputs]

theorem Keeps.resting {d d' : D50} (keeps : Keeps d d') (resting : d.Resting) : d'.Resting := by
  obtain still | failed := resting
  · exact .inl ⟨(keeps.drives _).trans still.opening, (keeps.drives _).trans still.closing⟩
  · exact .inr (keeps.stopFailed.trans failed)

theorem atEnd_looks (koncak other : Vystup) (timeToMin timeToMax : Nat) (d : D50) :
    Looks d (d.atEnd koncak other timeToMin timeToMax).2 := by
  simp only [atEnd]
  split
  · exact d.zjisti_looks.trans (time_looks _)
  · split <;> exact (d.zjisti_looks.trans (time_looks _)).trans (time_looks _)

theorem isOpened_looks (d : D50) : Looks d d.isOpened.2 := d.atEnd_looks _ _ _ _

theorem isClosed_looks (d : D50) : Looks d d.isClosed.2 := d.atEnd_looks _ _ _ _

theorem atEnd_other {koncak other : Vystup} (is_motor : other.IsMotor) {timeToMin timeToMax : Nat}
    {d : D50} (ended : (d.atEnd koncak other timeToMin timeToMax).1 = -2) :
    d.ford.drives other = false := by
  simp only [atEnd] at ended
  split at ended
  case isTrue made =>
    obtain ⟨ok, -, off, -⟩ := made
    have off : d.zjisti_stav_portu.2.time.2.getPortState other = false := by simpa using off
    exact (d.zjisti_looks.drives other).symm.trans ((seen (zjisti_fresh ok) is_motor).symm.trans off)
  case isFalse =>
    split at ended <;> simp at ended

structure Rests (d d' : D50) : Prop where
  safe : d.ford.Safe → d'.ford.Safe
  resting : d'.Resting

theorem stop_spec (d : D50) : Rests d d.stop.2 := by
  have stops := stopMotors_spec { d with
    timeToOpenMax := 0, timeToOpenMin := 0, timeToCloseMax := 0, timeToCloseMin := 0 }
  exact ⟨stops.safe, stops.resting⟩

theorem endMove_spec (koncak : Vystup) (d : D50) : Rests d (d.endMove koncak).2 := by
  have stops := d.stopMotors_spec
  have read := d.stopMotors.2.zjisti_looks
  have rests := read.keeps.resting stops.resting
  simp only [endMove]
  split
  · exact ⟨fun safe => read.safe (stops.safe safe), rests⟩
  · split <;> exact ⟨fun safe => read.safe (stops.safe safe), rests⟩

theorem endOpen_spec (d : D50) : Rests d d.endOpen.2 := by
  have ends := endMove_spec .KONCAK_OTEVRENI { d with timeToOpenMax := 0, timeToOpenMin := 0 }
  exact ⟨ends.safe, ends.resting⟩

theorem endClose_spec (d : D50) : Rests d d.endClose.2 := by
  have ends := endMove_spec .KONCAK_ZAVRENI { d with timeToCloseMax := 0, timeToCloseMin := 0 }
  exact ⟨ends.safe, ends.resting⟩

/-- What a start of a movement gives: the motor runs alone and has its timeout, nothing changed, or
the motors rest. -/
structure Moves (motor : Vystup) (timeToMax : D50 → Nat) (d : D50) (r : Int × D50) : Prop where
  safe : d.ford.Safe → r.2.ford.Safe
  result : r.1 = 0 ∧ timeToMax r.2 ≠ 0 ∧ r.2.ford.drives motor.other = false ∨
    r.1 < 0 ∧ Keeps d r.2 ∨ r.1 ≠ 0 ∧ r.2.Resting

theorem timeOpen_spec (minimal : Nat) (d : D50) :
    (d.timeOpen minimal).timeToOpenMax ≠ 0 ∧ (d.timeOpen minimal).ford.outputs = d.ford.outputs ∧
      (d.timeOpen minimal).ford.driven = d.ford.driven :=
  ⟨Nat.succ_ne_zero _, rfl, rfl⟩

theorem timeClose_spec (minimal : Nat) (d : D50) :
    (d.timeClose minimal).timeToCloseMax ≠ 0 ∧ (d.timeClose minimal).ford.outputs = d.ford.outputs ∧
      (d.timeClose minimal).ford.driven = d.ford.driven :=
  ⟨Nat.succ_ne_zero _, rfl, rfl⟩

theorem Moves.of_timed {motor : Vystup} {timeToMax : D50 → Nat} {d e f : D50}
    (safe : d.ford.Safe → e.ford.Safe) (alone : e.ford.drives motor.other = false)
    (timed : timeToMax f ≠ 0 ∧ f.ford.outputs = e.ford.outputs ∧ f.ford.driven = e.ford.driven) :
    Moves motor timeToMax d (0, f) := by
  obtain ⟨set, outputs, driven⟩ := timed
  refine ⟨fun start => ⟨?_, ?_⟩, .inl ⟨rfl, set, ?_⟩⟩
  · rw [outputs]
    exact (safe start).now
  · rw [driven]
    exact (safe start).before
  · simpa only [Ford.drives, outputs] using alone

theorem startOpen_spec (d : D50) : Moves .OTEVIRANI D50.timeToOpenMax d d.startOpen := by
  have read := d.zjisti_looks
  simp only [startOpen]
  by_cases failed : d.zjisti_stav_portu.1 ≠ 0
  · rw [if_pos failed]
    have ret := d.ford.zjisti_ret.resolve_left failed
    exact ⟨read.safe, .inr (.inl ⟨show d.ford.zjisti_stav_portu.1 < 0 by omega, read.keeps⟩)⟩
  · rw [if_neg failed]
    have ok : d.zjisti_stav_portu.1 = 0 := by simpa using failed
    have closing : d.zjisti_stav_portu.2.getPortState .ZAVIRANI =
        d.zjisti_stav_portu.2.ford.drives .ZAVIRANI := seen (zjisti_fresh ok) (.inr rfl)
    by_cases runs : d.zjisti_stav_portu.2.getPortState .OTEVIRANI ∧
        !d.zjisti_stav_portu.2.getPortState .ZAVIRANI
    · rw [if_pos runs]
      have alone : d.zjisti_stav_portu.2.ford.drives .ZAVIRANI = false := by
        rw [← closing]
        simpa using runs.2
      by_cases unset : d.zjisti_stav_portu.2.timeToOpenMax = 0
      · rw [if_pos unset]
        exact .of_timed read.safe alone (timeOpen_spec _ _)
      · rw [if_neg unset]
        exact .of_timed read.safe alone ⟨unset, rfl, rfl⟩
    · rw [if_neg runs]
      have is_motor : Vystup.IsMotor .OTEVIRANI := .inl rfl
      have starts := (startMotor_spec is_motor (fun off => closing.symm.trans off)).after read.safe
      obtain ⟨ok, alone⟩ | ⟨failed, rests⟩ := starts.result
      · rw [if_neg (by simpa using ok)]
        exact .of_timed starts.safe alone (timeOpen_spec _ _)
      · rw [if_pos failed]
        exact ⟨starts.safe, .inr (.inr ⟨by simp, rests⟩)⟩

theorem closeRoof_spec {d : D50} (fresh : d.ford.Fresh) :
    Moves .ZAVIRANI D50.timeToCloseMax d
      (d.closeRoof (d.getPortState .ZAVIRANI && !d.getPortState .OTEVIRANI)) := by
  have opening : d.getPortState .OTEVIRANI = d.ford.drives .OTEVIRANI := seen fresh (.inl rfl)
  simp only [closeRoof]
  by_cases runs : (d.getPortState .ZAVIRANI && !d.getPortState .OTEVIRANI) = true
  · rw [if_pos runs]
    have alone : d.ford.drives .OTEVIRANI = false := by
      rw [← opening]
      simp at runs
      exact runs.2
    by_cases unset : d.timeToCloseMax = 0
    · rw [if_pos unset]
      exact .of_timed id alone (timeClose_spec _ _)
    · rw [if_neg unset]
      exact .of_timed id alone ⟨unset, rfl, rfl⟩
  · rw [if_neg runs]
    have starts : Starts .ZAVIRANI d (startMotor
        (getPortState { d with parkSentAt := 0 } .OTEVIRANI ||
          getPortState { d with parkSentAt := 0 } .ZAVIRANI) .ZAVIRANI { d with parkSentAt := 0 }) := by
      have off : (d.getPortState .OTEVIRANI || d.getPortState .ZAVIRANI) = false →
          d.ford.drives .OTEVIRANI = false := fun off =>
        opening.symm.trans (Bool.or_eq_false_iff.mp off).1
      have spec := startMotor_spec (d := { d with parkSentAt := 0 }) (.inr rfl) off
      exact ⟨spec.safe, spec.result⟩
    obtain ⟨ok, alone⟩ | ⟨failed, rests⟩ := starts.result
    · rw [if_neg (by simpa using ok)]
      exact .of_timed starts.safe alone (timeClose_spec _ _)
    · rw [if_pos failed]
      exact ⟨starts.safe, .inr (.inr ⟨by simp, rests⟩)⟩

def Passes (d d' : D50) : Prop :=
  d' = { d with ford := { d.ford with replies := d'.ford.replies } }

theorem Passes.keeps {d d' : D50} (passes : Passes d d') : Keeps d d' := by
  rw [passes]
  exact ⟨rfl, rfl, rfl, rfl, rfl, rfl, rfl⟩

theorem getMountState_passes (d : D50) : Passes d d.getMountState.2 := by
  simp only [getMountState]
  repeat' split
  all_goals rfl

def MountUnsafe (d : D50) : Prop :=
  d.ignoreMountState = false ∧ (d.getMountState.1 = 1 ∨ d.getMountState.1 = 2)

instance (d : D50) : Decidable d.MountUnsafe := by
  unfold MountUnsafe
  infer_instance

theorem MountUnsafe.connected {d : D50} (away : d.MountUnsafe) : d.connMount.connected = true := by
  by_contra off
  obtain ⟨-, state⟩ := away
  rw [getMountState, if_pos (by simpa using off)] at state
  simp at state

theorem heedMount_safe {mountState : Int} (near : ¬ (mountState = 1 ∨ mountState = 2)) (closing : Bool)
    (d : D50) :
    d.heedMount mountState closing = (none, closing, d) ∨
      d.heedMount mountState closing = (some (-1), closing, d) := by
  obtain ⟨not_moving, not_away⟩ := not_or.mp near
  by_cases silent : mountState = -1
  · cases closing with
    | true => exact .inl (by simp [heedMount, silent])
    | false => exact .inr (by simp [heedMount, silent])
  · exact .inl (by simp [heedMount, not_moving, not_away, silent])

theorem heedMount_waits {mountState : Int} (away : mountState = 1 ∨ mountState = 2) (d : D50) :
    ∃ ret d', d.heedMount mountState false = (some ret, false, d') ∧ Keeps d d' ∧ ret ≠ 0 ∧
      (d.connMount.connected = true → ret = 1) := by
  obtain rfl | rfl := away
  · exact ⟨1, d, by simp [heedMount], ⟨rfl, rfl, rfl, rfl, rfl, rfl, rfl⟩, by simp, fun _ => rfl⟩
  · by_cases recent : d.getNow.1 < d.getNow.2.parkSentAt + 1000 * PARK_REPEAT_SEC
    · exact ⟨1, d.getNow.2, by simp [heedMount, recent], ⟨rfl, rfl, rfl, rfl, rfl, rfl, rfl⟩, by simp, fun _ => rfl⟩
    · cases connected : d.getNow.2.connMount.connected with
      | false =>
        have off : d.connMount.connected = false := connected
        exact ⟨-1, d.getNow.2, by simp [heedMount, recent, connected], ⟨rfl, rfl, rfl, rfl, rfl, rfl, rfl⟩,
          by simp, by simp [off]⟩
      | true =>
        exact ⟨1, { d.getNow.2.getNow.2 with
          parks := d.getNow.2.getNow.2.parks + 1, parkSentAt := d.getNow.2.getNow.1 },
          by simp [heedMount, recent, connected], ⟨rfl, rfl, rfl, rfl, rfl, rfl, rfl⟩, by simp, fun _ => rfl⟩

theorem heedMount_stops {mountState : Int} (away : mountState = 1 ∨ mountState = 2) (d : D50) :
    ∃ ret c d', d.heedMount mountState true = (some ret, c, d') ∧ ret ≠ 0 ∧
      (d.ford.Safe → d'.ford.Safe) ∧ d'.Resting := by
  have stops := stopMotors_spec { d with timeToCloseMax := 0, timeToCloseMin := 0 }
  generalize stopped : stopMotors { d with timeToCloseMax := 0, timeToCloseMin := 0 } = s at stops
  obtain ⟨ok, still, set⟩ | ⟨failed, -⟩ := stops.result
  · have same : d.heedMount mountState true = s.2.heedMount mountState false := by
      obtain rfl | rfl := away <;> simp [heedMount, stopped, ok]
    obtain ⟨ret, d', waits, keeps, not_done, -⟩ := heedMount_waits away s.2
    exact ⟨ret, false, d', same.trans waits, not_done, fun safe => keeps.safe (stops.safe safe),
      keeps.resting stops.resting⟩
  · exact ⟨-1, true, s.2, by obtain rfl | rfl := away <;> simp [heedMount, stopped, failed], by simp,
      stops.safe, stops.resting⟩

def Waits (d : D50) : Prop := d.zjisti_stav_portu.1 = 0 ∧ d.zjisti_stav_portu.2.MountUnsafe

instance (d : D50) : Decidable d.Waits := by
  unfold Waits
  infer_instance

theorem Keeps.trans {d e f : D50} (first : Keeps d e) (second : Keeps e f) : Keeps d f :=
  ⟨second.outputs.trans first.outputs, second.driven.trans first.driven,
    second.stopFailed.trans first.stopFailed, second.timeToOpenMax.trans first.timeToOpenMax,
    second.timeToCloseMax.trans first.timeToCloseMax, second.connMount.trans first.connMount,
    second.ignoreMountState.trans first.ignoreMountState⟩

def Closing (d : D50) : Bool := d.ford.drives .ZAVIRANI && !d.ford.drives .OTEVIRANI

theorem startClose_read {d : D50} (ok : d.zjisti_stav_portu.1 = 0) :
    (∀ ret c e, d.zjisti_stav_portu.2.checkMount d.Closing = (some ret, c, e) →
      d.startClose = (ret, e)) ∧
    ∀ c e, d.zjisti_stav_portu.2.checkMount d.Closing = (none, c, e) →
      d.startClose = e.closeRoof c := by
  have opening := (seen (zjisti_fresh ok) (.inl rfl)).trans (d.zjisti_looks.drives .OTEVIRANI)
  have closing := (seen (zjisti_fresh ok) (.inr rfl)).trans (d.zjisti_looks.drives .ZAVIRANI)
  have runs : (d.zjisti_stav_portu.2.getPortState .ZAVIRANI &&
      !d.zjisti_stav_portu.2.getPortState .OTEVIRANI) = d.Closing := by
    rw [opening, closing, Closing]
  constructor
  · intro ret c e check
    simp [startClose, ok, runs, check]
  · intro c e check
    simp [startClose, ok, runs, check]

theorem MountUnsafe.check {d : D50} (away : d.MountUnsafe) (closing : Bool) :
    d.checkMount closing = d.getMountState.2.heedMount d.getMountState.1 closing := by
  simp [checkMount, away.1]

theorem startClose_waits {d : D50} (waits : d.Waits) (runs : d.Closing = false) :
    d.startClose.1 = 1 ∧ Keeps d d.startClose.2 := by
  obtain ⟨ok, away⟩ := waits
  have connected := away.connected
  have passes := d.zjisti_stav_portu.2.getMountState_passes
  obtain ⟨ret, e, waited, keeps, -, done⟩ := heedMount_waits away.2 d.zjisti_stav_portu.2.getMountState.2
  have same : d.startClose = (ret, e) := by
    refine (startClose_read ok).1 ret false e ?_
    rw [runs, away.check, waited]
  rw [same]
  refine ⟨done ?_, (d.zjisti_looks.keeps.trans passes.keeps).trans keeps⟩
  rw [show d.zjisti_stav_portu.2.getMountState.2 = _ from passes]
  exact connected

theorem checkMount_safe {d : D50} (near : ¬ d.MountUnsafe) (closing : Bool) :
    ∃ e, Passes d e ∧
      (d.checkMount closing = (none, closing, e) ∨ d.checkMount closing = (some (-1), closing, e)) := by
  by_cases ignored : d.ignoreMountState = true
  · exact ⟨d, rfl, .inl (by simp [checkMount, ignored])⟩
  · refine ⟨d.getMountState.2, d.getMountState_passes, ?_⟩
    have safe : ¬ (d.getMountState.1 = 1 ∨ d.getMountState.1 = 2) := fun away =>
      near ⟨by simpa using ignored, away⟩
    have check : d.checkMount closing = d.getMountState.2.heedMount d.getMountState.1 closing := by
      simp [checkMount, ignored]
    rw [check]
    exact heedMount_safe safe closing _

theorem Passes.fresh {d e : D50} (passes : Passes d e) (fresh : d.ford.Fresh) :
    e.ford.Fresh ∧ ∀ motor, e.getPortState motor = d.getPortState motor := by
  rw [passes]
  exact ⟨fresh, fun motor => rfl⟩

theorem Moves.after {motor : Vystup} {timeToMax : D50 → Nat} {d e : D50} {r : Int × D50}
    (keeps : Keeps d e) (moves : Moves motor timeToMax e r) : Moves motor timeToMax d r := by
  refine ⟨fun safe => moves.safe (keeps.safe safe), ?_⟩
  obtain done | ⟨failed, same⟩ | rests := moves.result
  · exact .inl done
  · exact .inr (.inl ⟨failed, keeps.trans same⟩)
  · exact .inr (.inr rests)

theorem startClose_spec {d : D50} (careful : d.Waits → d.ford.drives .OTEVIRANI = false) :
    Moves .ZAVIRANI D50.timeToCloseMax d d.startClose := by
  by_cases failed : d.zjisti_stav_portu.1 ≠ 0
  · have ret := d.ford.zjisti_ret.resolve_left failed
    have same : d.startClose = d.zjisti_stav_portu := by simp [startClose, failed]
    rw [same]
    exact ⟨d.zjisti_looks.safe,
      .inr (.inl ⟨show d.ford.zjisti_stav_portu.1 < 0 by omega, d.zjisti_looks.keeps⟩)⟩
  · have ok : d.zjisti_stav_portu.1 = 0 := by simpa using failed
    by_cases away : d.zjisti_stav_portu.2.MountUnsafe
    · cases runs : d.Closing with
      | true =>
        obtain ⟨ret, c, e, stopped, not_done, safe, rests⟩ :=
          heedMount_stops away.2 d.zjisti_stav_portu.2.getMountState.2
        have same : d.startClose = (ret, e) :=
          (startClose_read ok).1 ret c e (by rw [runs, away.check, stopped])
        have read := d.zjisti_looks.keeps.trans (getMountState_passes _).keeps
        rw [same]
        exact ⟨fun start => safe (read.safe start), .inr (.inr ⟨not_done, rests⟩)⟩
      | false =>
        obtain ⟨ret, keeps⟩ := startClose_waits ⟨ok, away⟩ runs
        have still : d.Still := by
          have off := careful ⟨ok, away⟩
          exact ⟨off, by simpa [Closing, off] using runs⟩
        exact ⟨keeps.safe, .inr (.inr ⟨by simp [ret], keeps.resting (.inl still)⟩)⟩
    · obtain ⟨e, passes, goes | refused⟩ := checkMount_safe away d.Closing
      · have same : d.startClose = e.closeRoof d.Closing := (startClose_read ok).2 _ _ goes
        obtain ⟨fresh, kept⟩ := passes.fresh (zjisti_fresh ok)
        have read := d.zjisti_looks.keeps.trans passes.keeps
        have closing : (e.getPortState .ZAVIRANI && !e.getPortState .OTEVIRANI) = d.Closing := by
          rw [seen fresh (.inl rfl), seen fresh (.inr rfl), read.drives, read.drives, Closing]
        have moves := closeRoof_spec fresh
        rw [closing, ← same] at moves
        exact moves.after read
      · have same : d.startClose = (-1, e) := (startClose_read ok).1 _ _ _ refused
        have read := d.zjisti_looks.keeps.trans passes.keeps
        rw [same]
        exact ⟨read.safe, .inr (.inl ⟨by simp, read⟩)⟩

theorem startClose_safe {d : D50} (safe : d.ford.Safe) : d.startClose.2.ford.Safe := by
  by_cases waits : d.Waits ∧ d.ford.drives .OTEVIRANI = true
  · exact (startClose_waits waits.1 (by simp [Closing, waits.2])).2.safe safe
  · refine (startClose_spec fun away => ?_).safe safe
    by_contra on
    exact waits ⟨away, by simpa using on⟩

def known (d : D50) : ConnMount × Bool := (d.connMount, d.ignoreMountState)

theorem Keeps.known {d e : D50} (keeps : Keeps d e) : e.known = d.known :=
  Prod.ext keeps.connMount keeps.ignoreMountState

theorem stopMotors_known (d : D50) : d.stopMotors.2.known = d.known := by
  rw [d.stopMotors_spec.same]
  rfl

theorem startMotor_known (stopFirst : Bool) (motor : Vystup) (d : D50) :
    (d.startMotor stopFirst motor).2.known = d.known := by
  have first : (if stopFirst = true then d.stopMotors else (0, d)).2.known = d.known := by
    cases stopFirst with
    | true => exact d.stopMotors_known
    | false => rfl
  generalize stopped : (if stopFirst = true then d.stopMotors else (0, d)) = s at first
  have switched : (s.2.ZAP motor).2.known = d.known := first
  have looked := (onlyMotor_looks motor (s.2.ZAP motor).2).keeps.known.trans switched
  simp only [startMotor, stopped]
  split
  · exact first
  · split
    · exact (stopMotors_known _).trans switched
    · split
      · exact (stopMotors_known _).trans looked
      · exact looked

theorem startOpen_known (d : D50) : d.startOpen.2.known = d.known := by
  have read := d.zjisti_looks.keeps.known
  simp only [startOpen]
  split
  · exact read
  · split
    · split <;> exact read
    · have started := (startMotor_known (d.zjisti_stav_portu.2.getPortState .ZAVIRANI) .OTEVIRANI _).trans read
      split <;> exact started

theorem endMove_known (koncak : Vystup) (d : D50) : (d.endMove koncak).2.known = d.known := by
  have read := ((zjisti_looks d.stopMotors.2).keeps.known).trans d.stopMotors_known
  simp only [endMove]
  split
  · exact read
  · split <;> exact read

theorem heedMount_known (mountState : Int) (closing : Bool) (d : D50) :
    (d.heedMount mountState closing).2.2.known = d.known := by
  simp only [heedMount]
  generalize stops : (closing && (decide (mountState = 1) || decide (mountState = 2))) = s
  have first : (if s = true then stopMotors { d with timeToCloseMax := 0, timeToCloseMin := 0 }
      else ((0 : Int), d)).2.known = d.known := by
    cases s with
    | true => exact stopMotors_known _
    | false => rfl
  generalize (if s = true then stopMotors { d with timeToCloseMax := 0, timeToCloseMin := 0 }
    else ((0 : Int), d)) = r at first
  repeat' split
  all_goals exact first

theorem closeRoof_known (closing : Bool) (d : D50) : (d.closeRoof closing).2.known = d.known := by
  simp only [closeRoof]
  split
  · split <;> rfl
  · have started := startMotor_known
      (getPortState { d with parkSentAt := 0 } .OTEVIRANI || getPortState { d with parkSentAt := 0 } .ZAVIRANI)
      .ZAVIRANI { d with parkSentAt := 0 }
    split <;> exact started

theorem startClose_known (d : D50) : d.startClose.2.known = d.known := by
  have read := d.zjisti_looks.keeps.known
  simp only [startClose]
  split
  · exact read
  · generalize closing : (d.zjisti_stav_portu.2.getPortState .ZAVIRANI &&
      !d.zjisti_stav_portu.2.getPortState .OTEVIRANI) = c
    have checked : (d.zjisti_stav_portu.2.checkMount c).2.2.known = d.known := by
      simp only [checkMount]
      split
      · exact read
      · exact ((heedMount_known _ _ _).trans (getMountState_passes _).keeps.known).trans read
    cases check : d.zjisti_stav_portu.2.checkMount c with
    | mk ret rest =>
      rw [check] at checked
      cases ret with
      | some ret => exact checked
      | none => exact (closeRoof_known _ _).trans checked

theorem known_kept (what : ConnMount × Bool) : driver.Kept (fun d => d.known = what) where
  startOpen d known := d.startOpen_known.trans known
  isOpened d known := d.isOpened_looks.keeps.known.trans known
  endOpen _ known := (endMove_known _ _).trans known
  startClose d known := d.startClose_known.trans known
  isClosed d known := d.isClosed_looks.keeps.known.trans known
  endClose _ known := (endMove_known _ _).trans known
  stop _ known := (stopMotors_known _).trans known

theorem driver_safe : driver.Kept (fun d => d.ford.Safe) where
  startOpen d := d.startOpen_spec.safe
  isOpened d := d.isOpened_looks.safe
  endOpen d := d.endOpen_spec.safe
  startClose _ := startClose_safe
  isClosed d := d.isClosed_looks.safe
  endClose d := d.endClose_spec.safe
  stop d := d.stop_spec.safe

theorem step_safe {d : Dome D50} (safe : d.driver.ford.Safe) (event : Event) :
    (step d event).driver.ford.Safe := by
  cases event with
  | call call => exact driver_safe.step safe call
  | mount connMount => exact safe
  | ignoreMount ignore => exact safe
  | info => exact d.driver.zjisti_looks.safe safe

theorem init_safe {d : D50} (safe : d.ford.Safe) : d.init.2.ford.Safe := by
  have read := d.zjisti_looks.safe safe
  simp only [init]
  split
  · exact read
  · split
    · split <;> exact d.zjisti_stav_portu.2.stopMotors_spec.safe read
    · exact read

theorem houseStep_safe {h : House} (safe : h.dome.driver.ford.Safe) (event : HouseEvent) :
    (houseStep h event).dome.driver.ford.Safe := by
  cases event with
  | event event =>
    simp only [houseStep]
    split
    · exact step_safe safe event
    · exact safe
  | restart => exact init_safe (d := D50.start h.dome.driver.ford) safe

/-- The motors are never on together, after any events and restarts, whatever is read and whichever
writes are lost. -/
theorem never_both {h : House} (safe : h.dome.driver.ford.Safe) (events : List HouseEvent) :
    (run houseStep h events).dome.driver.ford.Safe :=
  run_invariant houseStep (fun _ _ => True) (fun h => h.dome.driver.ford.Safe)
    (fun _ event safe _ => houseStep_safe safe event) h events safe (guarded_true houseStep h events)

def board : Ford where
  portA := 0
  portB := 0
  outputs := 0
  driven := []
  replies := fun n => { read := some 0, takesEffect := true, writes := true, now := 1000 * n }

def house : House where
  dome :=
    { driver := D50.start { board with outputs := Vystup.ZAVIRANI.pin }
      state := .DOME_UNKNOW, retryTimers := 0, closeRetries := 0, closeFailReported := false
      quietClose := false, wanted := false, planned := false, retried := 0 }
  running := false

def restarts : List HouseEvent := [.restart, .event (.call (.openStart true))]

theorem never_both_restart :
    (run houseStep house restarts).dome.driver.ford.driven = [0, Vystup.OTEVIRANI.pin] ∧
      (run houseStep house restarts).dome.driver.ford.Safe :=
  ⟨by decide, never_both ⟨by decide, by simp [house, D50.start, board]⟩ restarts⟩

end D50

end Rts2.Roof
