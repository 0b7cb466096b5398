import Rts2.Kernel.Status
import Rts2.Lib.Run

/-! The queue of value changes when the hooks change the device. While checkQueChanges calls a
hook it holds an iterator into the vector, and the hook may set values, change the state, which
starts another checkQueChanges inside the first one, or kill the device. -/
namespace Rts2.Kernel

open Lib

structure Waiting where
  serial : Nat
  stateCondition : Status
  deriving DecidableEq

def Waiting.queValueChange (w : Waiting) (state : Status) : Bool := w.stateCondition &&& state != 0

/-- A checkQueChanges that waits for the hook of the change `current`. Its iterator is an index
into a buffer of the vector, and is valid only as long as the vector keeps that buffer. -/
structure Loop where
  fakeState : Status
  iter : Nat
  current : Nat
  buffer : Nat
  deriving DecidableEq

/-- `frames` are the hooks that run, the innermost first: of a change from the queue, with the loop
it was called from, or of one that was made at once. `fault` says that freed memory or an invalid
iterator was used. -/
structure Changes where
  state : Status
  queValues : List Waiting
  buffer : Nat
  capacity : Nat
  frames : List (Option Loop)
  next : Nat
  applied : List Nat
  discarded : List Nat
  freed : List Nat
  fault : Bool

/-- What the running hook, or the device when none runs, does next. `idle` says that the change
sets the value to its content. The rest of killAll is a scriptEnds and a change of the state. -/
inductive ChangeEvent where
  | setCondValue (stateCondition : Status) (idle : Bool)
  | setState (new_state : Status)
  | killAll
  | hookReturns

namespace Changes

def init (state : Status) : Changes := ⟨state, [], 0, 0, [], 0, [], [], [], false⟩

def loops (s : Changes) : List Loop := s.frames.reduceOption

def push_back (grow : Nat → Nat) (s : Changes) (w : Waiting) : Changes :=
  if s.queValues.length = s.capacity then
    { s with
      queValues := s.queValues ++ [w]
      buffer := s.buffer + 1
      capacity := grow s.capacity }
  else { s with queValues := s.queValues ++ [w] }

def holds (s : Changes) (stateCondition : Status) (idle : Bool) : Prop :=
  (¬ idle ∨ s.queValues ≠ []) ∧ stateCondition &&& s.state ≠ 0

instance (s : Changes) (stateCondition : Status) (idle : Bool) :
    Decidable (s.holds stateCondition idle) := inferInstanceAs (Decidable (_ ∧ _))

def setCondValue (grow : Nat → Nat) (s : Changes) (stateCondition : Status) (idle : Bool) :
    Changes :=
  if s.holds stateCondition idle then
    { s.push_back grow ⟨s.next, stateCondition⟩ with next := s.next + 1 }
  else if idle then s
  else { s with frames := none :: s.frames }

def nextReleased (fakeState : Status) : Nat → List Waiting → Option (Nat × Waiting)
  | _, [] => none
  | iter, queVal :: rest =>
    if queVal.queValueChange fakeState then nextReleased fakeState (iter + 1) rest
    else some (iter, queVal)

def checkQue (s : Changes) (fakeState : Status) (iter : Nat) : Changes :=
  match nextReleased fakeState iter (s.queValues.drop iter) with
  | none => s
  | some (iter, queVal) =>
    { s with
      frames := some ⟨fakeState, iter, queVal.serial, s.buffer⟩ :: s.frames
      applied := s.applied ++ [queVal.serial] }

def setState (s : Changes) (new_state : Status) : Changes :=
  if s.state = new_state then s else { s with state := new_state }.checkQue new_state 0

def killAll (s : Changes) : Changes :=
  { s with
    queValues := []
    discarded := s.discarded ++ s.queValues.map (·.serial)
    freed := s.freed ++ s.queValues.map (·.serial) }

def hookReturns (s : Changes) : Changes :=
  match s.frames with
  | [] => s
  | none :: frames => { s with frames := frames }
  | some loop :: frames =>
    if loop.current ∈ s.freed ∨ loop.buffer ≠ s.buffer ∨ s.queValues.length ≤ loop.iter then
      { s with frames := frames, fault := true }
    else
      { s with
        frames := frames
        queValues := s.queValues.eraseIdx loop.iter
        freed := s.freed ++ [loop.current] }.checkQue loop.fakeState loop.iter

def step (grow : Nat → Nat) (s : Changes) : ChangeEvent → Changes
  | .setCondValue stateCondition idle => s.setCondValue grow stateCondition idle
  | .setState new_state => s.setState new_state
  | .killAll => s.killAll
  | .hookReturns => s.hookReturns

def waiting (s : Changes) : List Nat :=
  (s.queValues.map (·.serial)).filter (· ∉ s.loops.map (·.current))

/-- Each change that was queued is made once, or discarded once, or waits; none that was removed is
in the queue, and none was used. -/
structure ExactlyOnce (s : Changes) : Prop where
  account : (s.applied ++ s.discarded ++ s.waiting).Perm (List.range s.next)
  removed : ∀ w ∈ s.queValues, w.serial ∉ s.freed
  intact : s.fault = false

/-- What a hook that checkQueChanges called may do: queue changes as long as the vector has room
for them, and change the state to one that holds back its own change and those before it. -/
def Sparing (s : Changes) : ChangeEvent → Prop
  | .setCondValue stateCondition idle => s.holds stateCondition idle →
      s.loops = [] ∨ s.queValues.length < s.capacity
  | .setState new_state => s.state ≠ new_state → ∀ loop ∈ s.loops,
      ∀ w ∈ s.queValues.take (loop.iter + 1), w.queValueChange new_state
  | .killAll => s.loops = []
  | .hookReturns => True

/-- Every loop points at its change, and the inner loops are further on than the outer ones. -/
structure Sound (s : Changes) : Prop where
  intact : s.fault = false
  points : ∀ loop ∈ s.loops, loop.buffer = s.buffer ∧
    ∃ w, s.queValues[loop.iter]? = some w ∧ w.serial = loop.current
  deeper : s.loops.Pairwise fun inner outer => outer.iter < inner.iter
  removed : (s.freed ++ s.queValues.map (·.serial)).Perm (List.range s.next)
  made : (s.applied ++ s.discarded).Perm (s.freed ++ s.loops.map (·.current))

theorem nextReleased_some {fakeState : Status} {iter : Nat} {queue : List Waiting} {j : Nat}
    {w : Waiting} (next : nextReleased fakeState iter queue = some (j, w)) :
    ∃ k, j = iter + k ∧ queue[k]? = some w ∧ ¬ w.queValueChange fakeState := by
  induction queue generalizing iter with
  | nil => simp [nextReleased] at next
  | cons queVal rest ih =>
    unfold nextReleased at next
    split at next
    · obtain ⟨k, rfl, found, released⟩ := ih next
      exact ⟨k + 1, by omega, by simpa using found, released⟩
    · rename_i released
      obtain ⟨rfl, rfl⟩ : iter = j ∧ queVal = w := by simpa using next
      exact ⟨0, by simp, by simp, released⟩

theorem checkQue_sound {s : Changes} (sound : s.Sound) {fakeState : Status} {iter : Nat}
    (passes : ∀ loop ∈ s.loops, ∀ j w, iter ≤ j → j ≤ loop.iter → s.queValues[j]? = some w →
      w.queValueChange fakeState) : (s.checkQue fakeState iter).Sound := by
  unfold checkQue
  split
  · exact sound
  · rename_i j w next
    obtain ⟨k, rfl, found, released⟩ := nextReleased_some next
    rw [List.getElem?_drop] at found
    obtain ⟨intact, points, deeper, removed, made⟩ := sound
    have further : ∀ loop ∈ s.loops, loop.iter < iter + k := by
      intro loop mem
      by_contra behind
      exact released (passes loop mem _ w (by omega) (by omega) found)
    refine ⟨intact, ?_, ?_, removed, ?_⟩
    · intro loop mem
      rcases List.mem_cons.mp mem with rfl | mem
      · exact ⟨rfl, w, found, rfl⟩
      · exact points loop mem
    · exact List.pairwise_cons.mpr ⟨further, deeper⟩
    · have last : (s.applied ++ [w.serial] ++ s.discarded).Perm
          (w.serial :: (s.applied ++ s.discarded)) := by
        simp
      have first : (w.serial :: (s.freed ++ s.loops.map (·.current))).Perm
          (s.freed ++ w.serial :: s.loops.map (·.current)) := List.perm_middle.symm
      exact (last.trans (made.cons w.serial)).trans first

theorem Sound.nodup {s : Changes} (sound : s.Sound) :
    (s.freed ++ s.queValues.map (·.serial)).Nodup :=
  sound.removed.nodup_iff.mpr List.nodup_range

theorem Sound.not_freed {s : Changes} (sound : s.Sound) {w : Waiting} (mem : w ∈ s.queValues) :
    w.serial ∉ s.freed := fun freed =>
  (List.nodup_append.mp sound.nodup).2.2 _ freed _ (List.mem_map_of_mem mem) rfl

theorem setCondValue_sound (grow : Nat → Nat) {s : Changes} (sound : s.Sound)
    (stateCondition : Status) (idle : Bool) (sparing : s.Sparing (.setCondValue stateCondition idle)) :
    (s.setCondValue grow stateCondition idle).Sound := by
  unfold setCondValue
  split
  · rename_i held
    have room := sparing held
    obtain ⟨intact, points, deeper, removed, made⟩ := sound
    have numbered : (s.freed ++
        (s.queValues ++ [(⟨s.next, stateCondition⟩ : Waiting)]).map (·.serial)).Perm
        (List.range (s.next + 1)) := by
      rw [List.range_succ, List.map_append, ← List.append_assoc]
      exact removed.append_right [s.next]
    have listed : ∀ loop ∈ s.loops, ∃ w,
        (s.queValues ++ [⟨s.next, stateCondition⟩])[loop.iter]? = some w ∧
          w.serial = loop.current := by
      intro loop mem
      obtain ⟨_, w, found, same⟩ := points loop mem
      exact ⟨w, by rw [List.getElem?_append_left (List.getElem?_eq_some_iff.mp found).1, found], same⟩
    unfold push_back
    split
    · rename_i full
      have none : s.loops = [] := room.resolve_right (by omega)
      refine ⟨intact, ?_, deeper, numbered, made⟩
      intro loop mem
      exact absurd (show loop ∈ s.loops from mem) (by simp [none])
    · exact ⟨intact, fun loop mem => ⟨(points loop mem).1, listed loop mem⟩, deeper, numbered, made⟩
  · split
    · exact sound
    · exact ⟨sound.intact, sound.points, sound.deeper, sound.removed, sound.made⟩

theorem setState_sound {s : Changes} (sound : s.Sound) (new_state : Status)
    (sparing : s.Sparing (.setState new_state)) : (s.setState new_state).Sound := by
  unfold setState
  split
  · exact sound
  · rename_i changes
    refine checkQue_sound (s := { s with state := new_state })
      ⟨sound.intact, sound.points, sound.deeper, sound.removed, sound.made⟩ ?_
    intro loop mem j w _ before found
    refine sparing changes loop mem w (List.mem_take_iff_getElem.mpr ?_)
    obtain ⟨inside, rfl⟩ := List.getElem?_eq_some_iff.mp found
    exact ⟨j, lt_min (Nat.lt_succ_of_le before) inside, rfl⟩

theorem killAll_sound {s : Changes} (sound : s.Sound) (sparing : s.loops = []) :
    s.killAll.Sound := by
  obtain ⟨intact, _, _, removed, made⟩ := sound
  have none : s.killAll.loops = [] := sparing
  refine ⟨intact, by simp [none], by simp [none], by simpa [killAll] using removed, ?_⟩
  rw [sparing, List.map_nil, List.append_nil] at made
  rw [none]
  simp only [killAll, List.map_nil, List.append_nil, ← List.append_assoc]
  exact made.append_right _

theorem hookReturns_sound {s : Changes} (sound : s.Sound) : s.hookReturns.Sound := by
  unfold hookReturns
  split
  · exact sound
  · rename_i frames running
    have same : s.loops = frames.reduceOption := by simp [loops, running]
    have points := sound.points
    have deeper := sound.deeper
    have made := sound.made
    rw [same] at points deeper made
    exact ⟨sound.intact, points, deeper, sound.removed, made⟩
  · rename_i loop frames running
    have outer : s.loops = loop :: frames.reduceOption := by simp [loops, running]
    have points := sound.points
    have deeper := sound.deeper
    have made := sound.made
    rw [outer] at points deeper made
    obtain ⟨buffer, w, found, same⟩ := points loop (by simp)
    obtain ⟨inside, here⟩ := List.getElem?_eq_some_iff.mp found
    have listed : w ∈ s.queValues := List.mem_of_getElem? found
    have valid : ¬ (loop.current ∈ s.freed ∨ loop.buffer ≠ s.buffer ∨
        s.queValues.length ≤ loop.iter) := by
      have not_freed := sound.not_freed listed
      rw [same] at not_freed
      simp [not_freed, buffer, inside]
    rw [if_neg valid]
    obtain ⟨below, deeper⟩ := List.pairwise_cons.mp deeper
    refine checkQue_sound (s := { s with
        frames := frames
        queValues := s.queValues.eraseIdx loop.iter
        freed := s.freed ++ [loop.current] }) ⟨sound.intact, ?_, deeper, ?_, ?_⟩ ?_
    · intro outer mem
      obtain ⟨buffer', w', found', same'⟩ := points outer (List.mem_cons_of_mem loop mem)
      exact ⟨buffer', w', by rw [List.getElem?_eraseIdx_of_lt (below outer mem), found'], same'⟩
    · have taken := (List.getElem_cons_eraseIdx_perm inside).map (·.serial)
      rw [List.map_cons, here, same] at taken
      have moved : (s.freed ++ [loop.current] ++
          (s.queValues.eraseIdx loop.iter).map (·.serial)).Perm
            (s.freed ++ s.queValues.map (·.serial)) := by
        simpa using taken.append_left s.freed
      exact moved.trans sound.removed
    · simpa [loops] using made
    · intro outer mem j _ after before _
      have apart := below outer mem
      omega

theorem step_sound (grow : Nat → Nat) {s : Changes} (sound : s.Sound) (e : ChangeEvent)
    (sparing : s.Sparing e) : (s.step grow e).Sound := by
  cases e with
  | setCondValue stateCondition idle => exact setCondValue_sound grow sound stateCondition idle sparing
  | setState new_state => exact setState_sound sound new_state sparing
  | killAll => exact killAll_sound sound sparing
  | hookReturns => exact hookReturns_sound sound

theorem init_sound (state : Status) : (init state).Sound :=
  ⟨rfl, by simp [init, loops], by simp [init, loops], by simp [init], by simp [init, loops]⟩

theorem Sound.exactlyOnce {s : Changes} (sound : s.Sound) : s.ExactlyOnce := by
  refine ⟨?_, fun w mem => sound.not_freed mem, sound.intact⟩
  have serials : (s.queValues.map (·.serial)).Nodup := (List.nodup_append.mp sound.nodup).2.1
  have listed : ∀ loop ∈ s.loops, loop.current ∈ s.queValues.map (·.serial) := by
    intro loop mem
    obtain ⟨_, w, found, same⟩ := sound.points loop mem
    exact List.mem_map.mpr ⟨w, List.mem_of_getElem? found, same⟩
  have apart : (s.loops.map (·.current)).Nodup := by
    refine List.pairwise_map.mpr (sound.deeper.imp_of_mem ?_)
    intro inner outer mem mem' further same
    obtain ⟨_, w, found, rfl'⟩ := sound.points inner mem
    obtain ⟨_, w', found', rfl''⟩ := sound.points outer mem'
    have position : inner.iter = outer.iter := by
      refine (List.getElem?_inj ?_ serials).mp ?_
      · simpa using (List.getElem?_eq_some_iff.mp found).1
      · simp [found, found', rfl', rfl'', same]
    omega
  have running : ((s.queValues.map (·.serial)).filter (· ∈ s.loops.map (·.current))).Perm
      (s.loops.map (·.current)) := by
    refine (List.perm_ext_iff_of_nodup (serials.filter _) apart).mpr fun serial => ?_
    simp only [List.mem_filter, decide_eq_true_eq, and_iff_right_iff_imp]
    intro current
    obtain ⟨loop, mem, rfl⟩ := List.mem_map.mp current
    exact listed loop mem
  have queued : (s.loops.map (·.current) ++ s.waiting).Perm (s.queValues.map (·.serial)) := by
    have split := List.filter_append_perm (· ∈ s.loops.map (·.current)) (s.queValues.map (·.serial))
    have waiting : s.waiting =
        (s.queValues.map (·.serial)).filter (fun q => !decide (q ∈ s.loops.map (·.current))) := by
      simp only [Changes.waiting, decide_not]
    rw [waiting]
    exact (running.symm.append_right _).trans split
  have all := (sound.made.append_right s.waiting).trans
    (List.append_assoc _ _ _ ▸ queued.append_left s.freed)
  exact all.trans sound.removed

instance (s : Changes) : DecidablePred s.Sparing
  | .setCondValue _ _ => inferInstanceAs (Decidable (_ → _ ∨ _))
  | .setState _ => inferInstanceAs (Decidable (_ → ∀ loop ∈ _, ∀ w ∈ _, _))
  | .killAll => inferInstanceAs (Decidable (_ = _))
  | .hookReturns => isTrue trivial

end Changes

/-- Whatever the hooks do, as long as those that checkQueChanges calls are sparing: each queued
change is made once or discarded once, and none is used after it was removed. -/
theorem queued_once (grow : Nat → Nat) (state : Status) (events : List ChangeEvent)
    (sparing : Guarded (Changes.step grow) Changes.Sparing (Changes.init state) events) :
    (run (Changes.step grow) (Changes.init state) events).ExactlyOnce :=
  (run_invariant (Changes.step grow) Changes.Sparing Changes.Sound
    (fun _ e sound sparing => Changes.step_sound grow sound e sparing) (Changes.init state) events
    (Changes.init_sound state) sparing).exactlyOnce

/-- Two changes wait for bits of the state; when the first is made, its hook changes the state to
`new_state`. -/
def Changes.nested (new_state : Status) : List ChangeEvent :=
  [.setCondValue 1 false, .setCondValue 2 false, .setState 0, .setState new_state, .hookReturns]

theorem queued_once_sample :
    (run (Changes.step (· + 1)) (Changes.init 3) (Changes.nested 1)).ExactlyOnce :=
  queued_once (· + 1) 3 (Changes.nested 1) (by decide)

/-- The hook of a queued change sets another state that does not hold the change back: the change
is made a second time while it is made. -/
theorem queued_twice :
    ¬ (run (Changes.step (· + 1)) (Changes.init 3) (Changes.nested 4)).ExactlyOnce := by
  rintro ⟨account, _, _⟩
  have twice := account.nodup_iff.mpr List.nodup_range
  exact absurd twice (by decide)

end Rts2.Kernel
