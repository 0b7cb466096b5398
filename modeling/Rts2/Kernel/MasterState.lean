import Rts2.Kernel.Status
import Rts2.Lib.Run

/-! The state of the whole system, as a Block with several centralds sees it. -/
namespace Rts2.Kernel

open Lib

universe u

variable {κ : Type u} [DecidableEq κ]

inductive Notice where
  | changeMasterState (old_state new_state : Status)
  | bopStateChanged
  deriving DecidableEq

structure Block (κ : Type u) where
  stateMasterConn : Option κ
  masterState : Status
  notices : List Notice

namespace Block

def onoff (word : Status) : Status := word &&& serverdOnoffMask

def weather (word : Status) : Status := word &&& weatherMask

def ignores (b : Block κ) (conn : κ) (new_state : Status) : Bool :=
  b.stateMasterConn.isSome && b.stateMasterConn != some conn &&
    ((onoff new_state != serverdHardOff && weather new_state != badWeather &&
        onoff new_state != serverdStandby) ||
      (onoff b.masterState == serverdHardOff && onoff new_state == serverdStandby))

def setMasterState (b : Block κ) (conn : κ) (new_state : Status) : Block κ :=
  if b.ignores conn new_state then b
  else
    { b with
      masterState := new_state
      notices := b.notices ++
        (if b.masterState &&& ~~~bopMask ≠ new_state &&& ~~~bopMask then
          [.changeMasterState b.masterState new_state] else []) ++
        (if b.masterState &&& bopMask ≠ new_state &&& bopMask then [.bopStateChanged] else []) }

def setMasterConn (b : Block κ) (conn : κ) : Block κ := { b with stateMasterConn := some conn }

end Block

inductive MasterCall (κ : Type u) where
  | setMasterConn (conn : κ)
  | setMasterState (conn : κ) (new_state : Status)

def Block.call (b : Block κ) : MasterCall κ → Block κ
  | .setMasterConn conn => b.setMasterConn conn
  | .setMasterState conn new_state => b.setMasterState conn new_state

def Block.NonMaster (b : Block κ) (conn : κ) : Prop :=
  ∃ master, b.stateMasterConn = some master ∧ conn ≠ master

def readiness (word : Status) : Nat :=
  if Block.onoff word = serverdOn then 2 else if Block.onoff word = serverdStandby then 1 else 0

def Block.Safe (b : Block κ) : MasterCall κ → Prop
  | .setMasterConn _ => True
  | .setMasterState conn new_state =>
    b.NonMaster conn →
      ¬ (Block.weather b.masterState = badWeather ∧
          Block.weather (b.setMasterState conn new_state).masterState = goodWeather) ∧
        readiness (b.setMasterState conn new_state).masterState ≤ readiness b.masterState ∧
        (b.ignores conn new_state = true →
          (b.setMasterState conn new_state).masterState = b.masterState ∧
            (b.setMasterState conn new_state).notices = b.notices)

/-- The words that get through from another connection and make the system good or ready: an off
or standby word clears bad weather with it, a bad weather word may say on, and standby leaves
soft off. -/
def Raises (old_state new_state : Status) : Prop :=
  (Block.weather old_state = badWeather ∧ Block.weather new_state = goodWeather ∧
      (Block.onoff new_state = serverdHardOff ∨
        Block.onoff new_state = serverdStandby ∧ Block.onoff old_state ≠ serverdHardOff)) ∨
    (Block.weather new_state = badWeather ∧ Block.onoff new_state = serverdOn ∧
      Block.onoff old_state ≠ serverdOn) ∨
    (Block.onoff new_state = serverdStandby ∧ Block.onoff old_state = serverdSoftOff)

instance (old_state new_state : Status) : Decidable (Raises old_state new_state) :=
  inferInstanceAs (Decidable (_ ∨ _ ∨ _))

def Block.Quiet (b : Block κ) : MasterCall κ → Prop
  | .setMasterConn _ => True
  | .setMasterState conn new_state => b.NonMaster conn → ¬ Raises b.masterState new_state

def Passes (old_state new_state : Status) : Prop :=
  (Block.onoff new_state = serverdHardOff ∨ Block.weather new_state = badWeather ∨
      Block.onoff new_state = serverdStandby) ∧
    ¬ (Block.onoff old_state = serverdHardOff ∧ Block.onoff new_state = serverdStandby)

theorem ignores_other {b : Block κ} {conn : κ} (other : b.NonMaster conn) (new_state : Status) :
    b.ignores conn new_state = true ↔ ¬ Passes b.masterState new_state := by
  obtain ⟨master, known, differs⟩ := other
  simp only [Block.ignores, known, Option.isSome_some, Bool.true_and, Passes]
  simp [Ne.symm differs]
  tauto

theorem setMasterState_passes {b : Block κ} {conn : κ} (other : b.NonMaster conn)
    {new_state : Status} (passes : Passes b.masterState new_state) :
    (b.setMasterState conn new_state).masterState = new_state := by
  have taken : ¬ b.ignores conn new_state = true := by
    rw [ignores_other other]
    exact not_not.mpr passes
  simp [Block.setMasterState, taken]

theorem setMasterState_ignored {b : Block κ} {conn : κ} {new_state : Status}
    (ignored : b.ignores conn new_state = true) : b.setMasterState conn new_state = b := by
  simp [Block.setMasterState, ignored]

theorem raises_iff (old_state new_state : Status) :
    Raises old_state new_state ↔ Passes old_state new_state ∧
      (Block.weather old_state = badWeather ∧ Block.weather new_state = goodWeather ∨
        readiness old_state < readiness new_state) := by
  unfold Raises Passes readiness
  rcases weather_cases old_state with w | w <;> rcases weather_cases new_state with w' | w' <;>
    rcases onoff_cases old_state with o | o | o | o <;>
    rcases onoff_cases new_state with o' | o' | o' | o' <;>
    simp only [Block.weather, Block.onoff, w, w', o, o'] <;> decide

theorem safe_iff (b : Block κ) (call : MasterCall κ) : b.Safe call ↔ b.Quiet call := by
  cases call with
  | setMasterConn conn => exact Iff.rfl
  | setMasterState conn new_state =>
    constructor
    · intro safe other raises
      obtain ⟨passes, harm⟩ := (raises_iff _ _).mp raises
      obtain ⟨weather, ready, _⟩ := safe other
      rw [setMasterState_passes other passes] at weather ready
      rcases harm with harm | harm
      · exact weather harm
      · exact absurd harm (not_lt.mpr ready)
    · intro quiet other
      by_cases passes : Passes b.masterState new_state
      · have taken : ¬ b.ignores conn new_state = true := by
          rw [ignores_other other]
          exact not_not.mpr passes
        have harmless := fun harm => quiet other ((raises_iff _ _).mpr ⟨passes, harm⟩)
        rw [setMasterState_passes other passes]
        refine ⟨fun weather => harmless (.inl weather), ?_, fun ignored => absurd ignored taken⟩
        exact not_lt.mp fun ready => harmless (.inr ready)
      · rw [setMasterState_ignored ((ignores_other other new_state).mpr passes)]
        refine ⟨fun weather => ?_, le_refl _, fun _ => ⟨rfl, rfl⟩⟩
        have both := weather.1.symm.trans weather.2
        exact absurd both (by decide)

/-- Whatever the connections say and in whatever order: the calls of the other connections are
safe if and only if none of their words raises the state it arrives in. -/
theorem setMasterState_safe_iff (b : Block κ) (calls : List (MasterCall κ)) :
    Guarded Block.call Block.Safe b calls ↔ Guarded Block.call Block.Quiet b calls :=
  guarded_congr safe_iff b calls

/-- In bad weather, standby from another centrald is taken with the good weather it carries. -/
theorem setMasterState_unsafe :
    ¬ ∀ (b : Block Nat) (calls : List (MasterCall Nat)), Guarded Block.call Block.Safe b calls := by
  intro safe
  have law := (safe ⟨some 1, 0x80000000, []⟩ [.setMasterState 2 0x10]).1 ⟨1, rfl, by decide⟩
  exact law.1 ⟨by decide, by decide⟩

end Rts2.Kernel
