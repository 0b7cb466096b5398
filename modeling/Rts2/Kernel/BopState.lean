import Rts2.Kernel.ValueQue
import Rts2.Kernel.ValueReentry

/-! The full BOP state of a device: what centrald sent, with the masks of the conditions of the values that are
queued. It is computed by setFullBopState alone, while the queue changes in other places and in hooks. -/
namespace Rts2.Kernel

open Lib

def bopExposure : Status := 0x01000000
def bopReadout : Status := 0x02000000
def camExposing : Status := 0x001

abbrev MaskQueValueBopState := Status → Status → Status

def Device.maskQueValueBopState : MaskQueValueBopState := fun new_state _ => new_state

def Camera.maskQueValueBopState : MaskQueValueBopState := fun new_state valueQueCondition =>
  let new_state := if valueQueCondition &&& camExposing ≠ 0 then new_state ||| bopExposure else new_state
  if valueQueCondition &&& camReading ≠ 0 then new_state ||| bopReadout else new_state

def masked (mask : MaskQueValueBopState) (new_state : Status) (queValues : List Waiting) : Status :=
  queValues.foldl (fun new_state queVal => mask new_state queVal.stateCondition) new_state

/-- The last two fields are read by no function: the state the clients were sent, and the queue the full state was
computed from. -/
structure BopDevice where
  changes : Changes
  masterBopState : Status
  fullBopState : Status
  sent : Status
  computed : List Waiting

inductive BopChange where
  | setFullBopState (new_state : Status)
  | change (e : ChangeEvent)

namespace BopDevice

def init (state : Status) : BopDevice where
  changes := Changes.init state
  masterBopState := 0
  fullBopState := 0
  sent := 0
  computed := []

variable (grow : Nat → Nat) (mask : MaskQueValueBopState)

def setFullBopState (s : BopDevice) (new_state : Status) : BopDevice :=
  let full := masked mask new_state s.changes.queValues
  { s with masterBopState := new_state, fullBopState := full, sent := full, computed := s.changes.queValues }

def Valid (s : Changes) (loop : Loop) : Prop :=
  ¬ (loop.current ∈ s.freed ∨ loop.buffer ≠ s.buffer ∨ s.queValues.length ≤ loop.iter)

instance (s : Changes) (loop : Loop) : Decidable (Valid s loop) := inferInstanceAs (Decidable (¬ _))

def loopEnds (s : Changes) : Bool :=
  match s.frames with
  | some loop :: frames => Valid s loop ∧ s.hookReturns.frames = frames
  | _ => false

def step (s : BopDevice) : BopChange → BopDevice
  | .setFullBopState new_state => s.setFullBopState mask new_state
  | .change .hookReturns =>
    let s' := { s with changes := s.changes.hookReturns }
    if loopEnds s.changes then s'.setFullBopState mask s'.masterBopState else s'
  | .change (.setCondValue stateCondition idle) => { s with changes := s.changes.setCondValue grow stateCondition idle }
  | .change (.setState new_state) => { s with changes := s.changes.setState new_state }
  | .change .killAll => { s with changes := s.changes.killAll }

def Ends (s : BopDevice) : BopChange → Prop
  | .setFullBopState _ => True
  | .change (.setCondValue stateCondition idle) => s.changes.holds stateCondition idle ∨ idle = true
  | .change (.setState new_state) => (s.changes.setState new_state).frames = s.changes.frames
  | .change .killAll => True
  | .change .hookReturns => ∃ frame, s.changes.frames = frame :: s.changes.hookReturns.frames

/-- The full state, what the clients were sent and the masked state of the queue are one. -/
structure Agrees (s : BopDevice) : Prop where
  intact : s.changes.fault = false
  clients : s.sent = s.fullBopState
  queue : s.fullBopState = masked mask s.masterBopState s.changes.queValues

def Obeys (s : BopDevice) (e : BopChange) : Prop := s.Ends e → (s.step grow mask e).Agrees mask

def SameMasks (s : BopDevice) (queValues : List Waiting) : Prop :=
  masked mask s.masterBopState queValues = masked mask s.masterBopState s.computed

/-- The operations that do not compute the full state leave values with the masks it was computed from; a hook
returns to a valid iterator. -/
def Holds (s : BopDevice) : BopChange → Prop
  | .setFullBopState _ => True
  | .change (.setCondValue stateCondition idle) =>
    if s.changes.holds stateCondition idle then
      s.SameMasks mask (s.changes.queValues ++ [⟨s.changes.next, stateCondition⟩])
    else idle = true → s.SameMasks mask s.changes.queValues
  | .change (.setState new_state) =>
    (s.changes.setState new_state).frames = s.changes.frames → s.SameMasks mask s.changes.queValues
  | .change .killAll => s.SameMasks mask []
  | .change .hookReturns =>
    match s.changes.frames with
    | [] => True
    | none :: _ => s.SameMasks mask s.changes.queValues
    | some loop :: _ => Valid s.changes loop

structure Computed (s : BopDevice) : Prop where
  intact : s.changes.fault = false
  clients : s.sent = s.fullBopState
  full : s.fullBopState = masked mask s.masterBopState s.computed

variable {grow mask}

theorem Computed.agrees_iff {s : BopDevice} (computed : s.Computed mask) :
    s.Agrees mask ↔ s.SameMasks mask s.changes.queValues := by
  constructor
  · intro agrees
    exact agrees.queue.symm.trans computed.full
  · intro same
    exact ⟨computed.intact, computed.clients, computed.full.trans same.symm⟩

theorem setFullBopState_computed {s : BopDevice} (intact : s.changes.fault = false) (new_state : Status) :
    (s.setFullBopState mask new_state).Computed mask := ⟨intact, rfl, rfl⟩

theorem setFullBopState_agrees {s : BopDevice} (intact : s.changes.fault = false) (new_state : Status) :
    (s.setFullBopState mask new_state).Agrees mask := ⟨intact, rfl, rfl⟩

theorem checkQue_frames (c : Changes) (fakeState : Status) (iter : Nat) :
    (c.checkQue fakeState iter).fault = c.fault ∧ (c.checkQue fakeState iter).queValues = c.queValues ∧
    (c.checkQue fakeState iter = c ∨ ∃ frame, (c.checkQue fakeState iter).frames = frame :: c.frames) := by
  unfold Changes.checkQue
  cases Changes.nextReleased fakeState iter (c.queValues.drop iter) with
  | none => exact ⟨rfl, rfl, .inl rfl⟩
  | some found => exact ⟨rfl, rfl, .inr ⟨_, rfl⟩⟩

theorem setCondValue_fault (grow : Nat → Nat) (c : Changes) (stateCondition : Status) (idle : Bool) :
    (c.setCondValue grow stateCondition idle).fault = c.fault := by
  unfold Changes.setCondValue Changes.push_back
  split
  · split <;> rfl
  · split <;> rfl

theorem setState_kept (c : Changes) (new_state : Status) :
    (c.setState new_state).fault = c.fault ∧ (c.setState new_state).queValues = c.queValues := by
  unfold Changes.setState
  split
  · exact ⟨rfl, rfl⟩
  · obtain ⟨fault, queue, _⟩ := checkQue_frames { c with state := new_state } new_state 0
    exact ⟨fault, queue⟩

theorem setCondValue_queue (grow : Nat → Nat) (c : Changes) (stateCondition : Status) (idle : Bool) :
    (c.setCondValue grow stateCondition idle).queValues =
      if c.holds stateCondition idle then c.queValues ++ [⟨c.next, stateCondition⟩] else c.queValues := by
  unfold Changes.setCondValue Changes.push_back
  split
  · split <;> rfl
  · split <;> rfl

theorem hookReturns_valid {c : Changes} {loop : Loop} {frames : List (Option Loop)}
    (running : c.frames = some loop :: frames) (valid : Valid c loop) : c.hookReturns.fault = c.fault := by
  unfold Changes.hookReturns
  rw [running]
  simp only [if_neg valid]
  exact (checkQue_frames _ _ _).1

theorem hookReturns_lost {c : Changes} {loop : Loop} {frames : List (Option Loop)}
    (running : c.frames = some loop :: frames) (lost : ¬ Valid c loop) :
    c.hookReturns.fault = true ∧ c.hookReturns.frames = frames := by
  unfold Changes.hookReturns
  rw [running]
  simp only [if_pos (not_not.mp lost), and_self]

theorem loopEnds_iff {c : Changes} {loop : Loop} {frames : List (Option Loop)} (running : c.frames = some loop :: frames) :
    loopEnds c = true ↔ Valid c loop ∧ c.hookReturns.frames = frames := by
  unfold loopEnds
  rw [running]
  simp

theorem step_computed {s : BopDevice} (computed : s.Computed mask) {e : BopChange} (holds : s.Holds mask e) :
    (s.step grow mask e).Computed mask := by
  obtain ⟨intact, clients, full⟩ := computed
  cases e with
  | setFullBopState new_state => exact setFullBopState_computed intact new_state
  | change e =>
    cases e with
    | setCondValue stateCondition idle =>
      exact ⟨(setCondValue_fault grow s.changes stateCondition idle).trans intact, clients, full⟩
    | setState new_state => exact ⟨(setState_kept s.changes new_state).1.trans intact, clients, full⟩
    | killAll => exact ⟨intact, clients, full⟩
    | hookReturns =>
      have returned : s.changes.hookReturns.fault = false := by
        unfold Holds at holds
        cases running : s.changes.frames with
        | nil =>
          unfold Changes.hookReturns
          rw [running]
          exact intact
        | cons frame frames =>
          rw [running] at holds
          cases frame with
          | none =>
            unfold Changes.hookReturns
            rw [running]
            exact intact
          | some loop => exact (hookReturns_valid running holds).trans intact
      simp only [step]
      split
      · exact setFullBopState_computed returned _
      · exact ⟨returned, clients, full⟩

theorem obeys_iff {s : BopDevice} (computed : s.Computed mask) (e : BopChange) :
    s.Obeys grow mask e ↔ s.Holds mask e := by
  cases e with
  | setFullBopState new_state =>
    exact iff_of_true (fun _ => setFullBopState_agrees computed.intact new_state) trivial
  | change e =>
    cases e with
    | setCondValue stateCondition idle =>
      have after : ({ s with changes := s.changes.setCondValue grow stateCondition idle } : BopDevice).Computed mask :=
        ⟨(setCondValue_fault grow s.changes stateCondition idle).trans computed.intact, computed.clients, computed.full⟩
      have queue := setCondValue_queue grow s.changes stateCondition idle
      simp only [Obeys, Ends, step, after.agrees_iff, queue, Holds]
      by_cases held : s.changes.holds stateCondition idle
      · simp only [held, true_or, true_imp_iff, if_true]
        exact Iff.rfl
      · simp only [held, false_or, if_false]
        exact Iff.rfl
    | setState new_state =>
      obtain ⟨fault, queue⟩ := setState_kept s.changes new_state
      have after : ({ s with changes := s.changes.setState new_state } : BopDevice).Computed mask :=
        ⟨fault.trans computed.intact, computed.clients, computed.full⟩
      simp only [Obeys, Ends, step, after.agrees_iff, queue, Holds]
      exact Iff.rfl
    | killAll =>
      have after : ({ s with changes := s.changes.killAll } : BopDevice).Computed mask :=
        ⟨computed.intact, computed.clients, computed.full⟩
      simp only [Obeys, Ends, step, after.agrees_iff, Holds, true_imp_iff]
      exact Iff.rfl
    | hookReturns =>
      cases running : s.changes.frames with
      | nil =>
        have never : ¬ s.Ends (.change .hookReturns) := by
          rintro ⟨frame, same⟩
          rw [running] at same
          cases same
        simp only [Holds, running]
        exact iff_of_true (fun ends => absurd ends never) trivial
      | cons frame frames =>
        cases frame with
        | none =>
          have returned : s.changes.hookReturns = { s.changes with frames := frames } := by
            unfold Changes.hookReturns
            rw [running]
          have goes_on : loopEnds s.changes = false := by
            unfold loopEnds
            rw [running]
          have after : ({ s with changes := s.changes.hookReturns } : BopDevice).Computed mask := by
            rw [returned]
            exact ⟨computed.intact, computed.clients, computed.full⟩
          have ends : s.Ends (.change .hookReturns) := ⟨none, by rw [running, returned]⟩
          have stepped : s.step grow mask (.change .hookReturns) = { s with changes := s.changes.hookReturns } := by
            simp only [step, goes_on, Bool.false_eq_true, if_false]
          simp only [Obeys, stepped, after.agrees_iff, Holds, running]
          rw [forall_prop_of_true ends, returned]
          exact Iff.rfl
        | some loop =>
          simp only [Obeys, Holds, running]
          by_cases valid : Valid s.changes loop
          · refine iff_of_true ?_ valid
            rintro ⟨frame, same⟩
            rw [running] at same
            injection same with _ same
            have ends := (loopEnds_iff running).mpr ⟨valid, same.symm⟩
            simp only [step, ends, if_true]
            apply setFullBopState_agrees
            exact (hookReturns_valid running valid).trans computed.intact
          · obtain ⟨faults, returned⟩ := hookReturns_lost running valid
            refine iff_of_false ?_ valid
            intro obeys
            have agrees := obeys ⟨some loop, by rw [running, returned]⟩
            have goes_on : ¬ loopEnds s.changes = true := fun ends => valid ((loopEnds_iff running).mp ends).1
            have intact := agrees.intact
            simp only [step, if_neg goes_on] at intact
            rw [faults] at intact
            cases intact

/-- In a run every operation that is over leaves the full state, what the clients were sent and the masked queue
one, just where each step holds. -/
theorem bop_states_agree (grow : Nat → Nat) (mask : MaskQueValueBopState) (state : Status) (events : List BopChange) :
    Guarded (step grow mask) (Obeys grow mask) (init state) events ↔
      Guarded (step grow mask) (Holds mask) (init state) events :=
  (guarded_congr_invariant (P := Computed mask) (fun _ _ computed _ holds => step_computed computed holds)
    (fun _ e computed _ => (obeys_iff computed e).symm) ⟨rfl, rfl, rfl⟩ (guarded_true _ _ _)).symm

/-- A value that waits for the end of the exposure is queued: neither the full state nor the clients learn of it;
once they do, killAll leaves them a mask of no value. -/
theorem bop_states_part :
    ¬ Guarded (step (· + 1) Camera.maskQueValueBopState) (Obeys (· + 1) Camera.maskQueValueBopState) (init camExposing)
      [.change (.setCondValue camExposing false)] ∧
    ¬ Guarded (step (· + 1) Camera.maskQueValueBopState) (Obeys (· + 1) Camera.maskQueValueBopState) (init camExposing)
      [.change (.setCondValue camExposing false), .setFullBopState 0, .change .killAll] := by
  constructor
  · rintro ⟨obeys, _⟩
    have queue := (obeys (.inl (by decide))).queue
    exact absurd queue (by decide)
  · rintro ⟨_, _, obeys, _⟩
    have queue := (obeys trivial).queue
    exact absurd queue (by decide)

end BopDevice

end Rts2.Kernel
