import Rts2.Kernel.Status
import Rts2.Lib.Run
import Rts2.Lib.Select

/-! The queue of value changes. A change waits while the state of the device has a bit of the
condition of its value; the others are made at once. -/
namespace Rts2.Kernel

open Lib

universe u v w

variable {ι : Type u} {V : Type v} {κ : Type w}

/-- What setValue does with the old and the new content of a value: its return value, the new
content as it leaves it, and the values it sets by itself. -/
structure Hook (ι : Type u) (V : Type v) where
  ret : Int
  new_value : V
  rewrites : List (ι × V)

structure DeviceClass (ι : Type u) (V : Type v) where
  stateCondition : ι → Status
  doOpValue : ι → Char → V → V → Option V
  isEqual : ι → V → V → Bool
  setFromValue : ι → V → V → V
  setValue : ι → V → V → Hook ι V

structure Change (ι : Type u) (V : Type v) where
  value : ι
  op : Char
  new_value : V

/-- A change that was accepted; `serial` tells it from equal ones. -/
structure ValueQue (ι : Type u) (V : Type v) extends Change ι V where
  serial : Nat

/-- The contents of the values, and the calls of setValue with its two contents. -/
structure Values (ι : Type u) (V : Type v) where
  contents : ι → V
  hooks : List (ι × V × V)

/-- The last two fields are read by no function: the changes that were accepted, and of those
the ones that were made, both in order. -/
structure Daemon (ι : Type u) (V : Type v) where
  state : Status
  values : Values ι V
  queValues : List (ValueQue ι V)
  accepted : List (ValueQue ι V)
  applied : List (ValueQue ι V)

def Daemon.init (state : Status) (contents : ι → V) : Daemon ι V :=
  ⟨state, ⟨contents, []⟩, [], [], []⟩

namespace DeviceClass

variable (d : DeviceClass ι V)

def queValueChange (value : ι) (state : Status) : Bool := d.stateCondition value &&& state != 0

variable [DecidableEq ι]

def rewrite (contents : ι → V) (rewrites : List (ι × V)) : ι → V :=
  rewrites.foldl (fun contents r => Function.update contents r.1 r.2) contents

def doSetValue (s : Values ι V) (c : Change ι V) : Values ι V :=
  let old_value := s.contents c.value
  match d.doOpValue c.value c.op old_value c.new_value with
  | none => s
  | some new_value =>
    let hook := d.setValue c.value old_value new_value
    let contents := rewrite s.contents hook.rewrites
    { contents :=
        if hook.ret = 0 ∧ ¬ d.isEqual c.value (contents c.value) hook.new_value then
          Function.update contents c.value
            (d.setFromValue c.value (contents c.value) hook.new_value)
        else contents
      hooks := s.hooks ++ [(c.value, old_value, new_value)] }

def idle (s : Values ι V) (c : Change ι V) : Bool :=
  c.op == '=' && d.isEqual c.value (s.contents c.value) c.new_value

def setCondValue (s : Daemon ι V) (c : Change ι V) : Daemon ι V :=
  let entry : ValueQue ι V := { c with serial := s.accepted.length }
  if (¬ d.idle s.values c ∨ s.queValues ≠ []) ∧ d.queValueChange c.value s.state then
    { s with queValues := s.queValues ++ [entry], accepted := s.accepted ++ [entry] }
  else if d.idle s.values c then s
  else
    { s with
      values := d.doSetValue s.values c
      accepted := s.accepted ++ [entry]
      applied := s.applied ++ [entry] }

/-- The loop of checkQueChanges: what stays in the queue, what is made, and what that makes of
the values. -/
def checkQue (fakeState : Status) :
    List (ValueQue ι V) → Values ι V → List (ValueQue ι V) × List (ValueQue ι V) × Values ι V
  | [], s => ([], [], s)
  | queVal :: rest, s =>
    if d.queValueChange queVal.value fakeState then
      let (kept, made, s) := checkQue fakeState rest s
      (queVal :: kept, made, s)
    else
      let (kept, made, s) := checkQue fakeState rest (d.doSetValue s queVal.toChange)
      (kept, queVal :: made, s)

def checkQueChanges (s : Daemon ι V) (fakeState : Status) : Daemon ι V :=
  let (kept, made, values) := d.checkQue fakeState s.queValues s.values
  { s with values := values, queValues := kept, applied := s.applied ++ made }

def setState (s : Daemon ι V) (new_state : Status) : Daemon ι V :=
  if s.state = new_state then s else d.checkQueChanges { s with state := new_state } new_state

end DeviceClass

inductive ValueEvent (ι : Type u) (V : Type v) where
  | setCondValue (c : Change ι V)
  | setState (new_state : Status)

namespace DeviceClass

variable [DecidableEq ι] (d : DeviceClass ι V)

def step (s : Daemon ι V) : ValueEvent ι V → Daemon ι V
  | .setCondValue c => d.setCondValue s c
  | .setState new_state => d.setState s new_state

def oneByOne (s : Values ι V) (changes : List (ValueQue ι V)) : Values ι V :=
  run (fun s q => d.doSetValue s q.toChange) s changes

/-- Nothing is let through while an earlier change of its group stays in the queue: not a change
that arrives, and none of the changes that a new state releases. -/
def Orderly (group : ι → κ) (s : Daemon ι V) : ValueEvent ι V → Prop
  | .setCondValue c =>
    ∀ q ∈ s.queValues, group q.value = group c.value → d.queValueChange c.value s.state
  | .setState new_state => new_state ≠ s.state → s.queValues.Pairwise fun earlier later =>
      group earlier.value = group later.value → d.queValueChange earlier.value new_state →
        d.queValueChange later.value new_state

instance [DecidableEq κ] (group : ι → κ) (s : Daemon ι V) : DecidablePred (d.Orderly group s)
  | .setCondValue _ => inferInstanceAs (Decidable (∀ q ∈ _, _ → _))
  | .setState _ => inferInstanceAs (Decidable (_ → List.Pairwise _ _))

def DropsAlone (group : ι → κ) (s : Daemon ι V) : ValueEvent ι V → Prop
  | .setCondValue c => (d.setCondValue s c).accepted = s.accepted →
      ∀ q ∈ s.queValues, group q.value ≠ group c.value
  | .setState _ => True

end DeviceClass

def Daemon.arrived (s : Daemon ι V) : List (ValueQue ι V) :=
  s.accepted.filter fun q => q.serial ∉ s.queValues.map (·.serial)

namespace DeviceClass

variable [DecidableEq ι] (d : DeviceClass ι V)

theorem checkQue_eq (fakeState : Status) (queue : List (ValueQue ι V)) (s : Values ι V) :
    d.checkQue fakeState queue s =
      (queue.filter fun q => d.queValueChange q.value fakeState,
        queue.filter fun q => !d.queValueChange q.value fakeState,
        d.oneByOne s (queue.filter fun q => !d.queValueChange q.value fakeState)) := by
  induction queue generalizing s with
  | nil => rfl
  | cons q rest ih =>
    unfold checkQue
    by_cases waits : d.queValueChange q.value fakeState = true
    · simp [waits, ih]
    · simp [waits, ih, oneByOne]

theorem setState_eq {s : Daemon ι V} {new_state : Status} (changes : s.state ≠ new_state) :
    d.setState s new_state =
      { s with
        state := new_state
        values := d.oneByOne s.values
          (s.queValues.filter fun q => !d.queValueChange q.value new_state)
        queValues := s.queValues.filter fun q => d.queValueChange q.value new_state
        applied := s.applied ++ s.queValues.filter fun q => !d.queValueChange q.value new_state } := by
  simp only [setState, if_neg changes, checkQueChanges, checkQue_eq]

theorem rewrite_other {group : ι → κ} {k : κ} (rewrites : List (ι × V))
    (contents : ι → V) (others : ∀ r ∈ rewrites, group r.1 ≠ k) {v : ι} (mine : group v = k) :
    rewrite contents rewrites v = contents v := by
  induction rewrites generalizing contents with
  | nil => rfl
  | cons r rest ih =>
    obtain ⟨first, others⟩ := List.forall_mem_cons.mp others
    have apart : v ≠ r.1 := fun same => first (same ▸ mine)
    exact (ih _ others).trans (Function.update_of_ne apart _ _)

theorem rewrite_congr {group : ι → κ} {k : κ} (rewrites : List (ι × V))
    {contents contents' : ι → V} (same : ∀ v, group v = k → contents v = contents' v) (v : ι) (mine : group v = k) :
    rewrite contents rewrites v = rewrite contents' rewrites v := by
  induction rewrites generalizing contents contents' with
  | nil => exact same v mine
  | cons r rest ih =>
    refine ih fun w mine' => ?_
    dsimp only
    by_cases here : w = r.1
    · rw [here, Function.update_self, Function.update_self]
    · rw [Function.update_of_ne here, Function.update_of_ne here]
      exact same w mine'

section Groups

variable [DecidableEq κ] (group : ι → κ)

def view (k : κ) (s : Values ι V) : ({v : ι // group v = k} → V) × List (ι × V × V) :=
  (fun v => s.contents v, s.hooks.filter fun h => group h.1 = k)

def Closed : Prop :=
  ∀ value old_value new_value, ∀ r ∈ (d.setValue value old_value new_value).rewrites,
    group r.1 = group value

variable {d group}

theorem view_other (closed : d.Closed group) (s : Values ι V) (c : Change ι V) {k : κ}
    (other : group c.value ≠ k) : view group k (d.doSetValue s c) = view group k s := by
  unfold doSetValue
  dsimp only
  cases d.doOpValue c.value c.op (s.contents c.value) c.new_value with
  | none => rfl
  | some new_value =>
    have kept (v : ι) (mine : group v = k) := rewrite_other (k := k)
      (d.setValue c.value (s.contents c.value) new_value).rewrites s.contents
      (fun r mem => (closed _ _ _ r mem).trans_ne other) mine
    have apart (v : ι) (mine : group v = k) : v ≠ c.value := fun same => other (same ▸ mine)
    refine Prod.ext (funext fun ⟨v, mine⟩ => ?_) ?_
    · dsimp only [view]
      split
      · rw [Function.update_of_ne (apart v mine), kept v mine]
      · exact kept v mine
    · simp [view, other]

theorem view_own {s t : Values ι V} {c : Change ι V} {k : κ} (own : group c.value = k)
    (same : view group k s = view group k t) :
    view group k (d.doSetValue s c) = view group k (d.doSetValue t c) := by
  have contents (v : ι) (mine : group v = k) : s.contents v = t.contents v :=
    congrFun (congrArg Prod.fst same) ⟨v, mine⟩
  have hooks := congrArg Prod.snd same
  unfold doSetValue
  dsimp only
  rw [contents c.value own]
  cases d.doOpValue c.value c.op (t.contents c.value) c.new_value with
  | none => exact same
  | some new_value =>
    have rewritten := rewrite_congr (d.setValue c.value (t.contents c.value) new_value).rewrites
      contents
    refine Prod.ext (funext fun ⟨v, mine⟩ => ?_) ?_
    · dsimp only [view]
      rw [rewritten c.value own]
      split
      · by_cases here : v = c.value
        · rw [here, Function.update_self, Function.update_self]
        · rw [Function.update_of_ne here, Function.update_of_ne here]
          exact rewritten v mine
      · exact rewritten v mine
    · simp only [view] at hooks ⊢
      rw [List.filter_append, List.filter_append, hooks]

theorem view_oneByOne (closed : d.Closed group) (k : κ) (s : Values ι V)
    (changes : List (ValueQue ι V)) :
    view group k (d.oneByOne s changes) =
      view group k (d.oneByOne s (changes.filter fun q => group q.value = k)) := by
  refine run_view_filter (view group k) (fun q : ValueQue ι V => decide (group q.value = k))
    ?_ ?_ rfl changes
  · intro s q other
    exact view_other closed s q.toChange (by simpa using other)
  · intro s t q own same
    exact view_own (by simpa using own) same

end Groups

variable {d} {group : ι → κ} in
theorem dropsAlone {s : Daemon ι V} {e : ValueEvent ι V} (orderly : d.Orderly group s e) :
    d.DropsAlone group s e := by
  cases e with
  | setState new_state => trivial
  | setCondValue c =>
    intro dropped q mem same
    have waits : d.queValueChange c.value s.state := orderly q mem same
    have some_queued : s.queValues ≠ [] := List.ne_nil_of_mem mem
    simp [setCondValue, waits, some_queued] at dropped

structure InOrder [DecidableEq κ] (group : ι → κ) (contents : ι → V) (s : Daemon ι V) : Prop where
  values : s.values = d.oneByOne ⟨contents, []⟩ s.applied
  groups : ∀ k, s.accepted.filter (fun q => group q.value = k) =
    s.applied.filter (fun q => group q.value = k) ++ s.queValues.filter fun q => group q.value = k
  serials : s.accepted.map (·.serial) = List.range s.accepted.length

variable {d} [DecidableEq κ] {group : ι → κ} {contents : ι → V}

theorem init_inOrder (state : Status) : d.InOrder group contents (Daemon.init state contents) :=
  ⟨rfl, fun _ => rfl, rfl⟩

theorem setCondValue_inOrder {s : Daemon ι V} (inOrder : d.InOrder group contents s)
    (c : Change ι V) (orderly : d.Orderly group s (.setCondValue c)) :
    d.InOrder group contents (d.setCondValue s c) := by
  obtain ⟨values, groups, serials⟩ := inOrder
  have numbered : (s.accepted ++ [(⟨c, s.accepted.length⟩ : ValueQue ι V)]).map (·.serial) =
      List.range (s.accepted ++ [(⟨c, s.accepted.length⟩ : ValueQue ι V)]).length := by
    simp [serials, List.range_succ]
  unfold setCondValue
  dsimp only
  split
  · refine ⟨values, fun k => ?_, numbered⟩
    simp only [List.filter_append, groups k, List.append_assoc]
  · rename_i passes
    split
    · exact ⟨values, groups, serials⟩
    · rename_i changes
      -- nothing of its group waits, or the change would wait too
      have alone (q : ValueQue ι V) (mem : q ∈ s.queValues) : group q.value ≠ group c.value :=
        fun same => passes ⟨.inl changes, orderly q mem same⟩
      refine ⟨?_, fun k => ?_, numbered⟩
      · simp only [values, oneByOne, run_append]
        rfl
      · by_cases mine : group c.value = k
        · have none : s.queValues.filter (fun q => group q.value = k) = [] :=
            List.filter_eq_nil_iff.mpr fun q mem => by simpa [mine] using alone q mem
          simp [List.filter_append, groups k, none]
        · simp [List.filter_append, groups k, mine]

theorem setState_inOrder {s : Daemon ι V} (inOrder : d.InOrder group contents s)
    (new_state : Status) (orderly : d.Orderly group s (.setState new_state)) :
    d.InOrder group contents (d.setState s new_state) := by
  by_cases changes : s.state = new_state
  · simpa [setState, changes] using inOrder
  · obtain ⟨values, groups, serials⟩ := inOrder
    rw [setState_eq d changes]
    refine ⟨?_, fun k => ?_, serials⟩
    · simp only [values, oneByOne, run_append]
    · have first : (s.queValues.filter fun q => group q.value = k).Pairwise fun earlier later =>
          (!d.queValueChange later.value new_state) = true →
            (!d.queValueChange earlier.value new_state) = true := by
        refine List.pairwise_filter.mpr ((orderly (Ne.symm changes)).imp ?_)
        intro earlier later waits mine mine' released
        simp only [decide_eq_true_eq] at mine mine'
        by_contra stays
        simp [waits (mine.trans mine'.symm) (by simpa using stays)] at released
      have split := filter_append_of_pairwise first
      simp only [Bool.not_not] at split
      rw [groups k, ← split]
      simp [List.filter_append, List.filter_filter, Bool.and_comm]

theorem step_inOrder {s : Daemon ι V} (inOrder : d.InOrder group contents s)
    (e : ValueEvent ι V) (orderly : d.Orderly group s e) :
    d.InOrder group contents (d.step s e) := by
  cases e with
  | setCondValue c => exact setCondValue_inOrder inOrder c orderly
  | setState new_state => exact setState_inOrder inOrder new_state orderly

theorem arrived_group {s : Daemon ι V} (inOrder : d.InOrder group contents s) (k : κ) :
    s.arrived.filter (fun q => group q.value = k) =
      s.applied.filter fun q => group q.value = k := by
  have nodup : (s.accepted.map (·.serial)).Nodup := by
    rw [inOrder.serials]
    exact List.nodup_range
  have accepted (q : ValueQue ι V) (either : q ∈ s.applied ∨ q ∈ s.queValues) :
      q ∈ s.accepted := by
    have mem : q ∈ s.accepted.filter fun r => group r.value = group q.value := by
      rw [inOrder.groups, List.mem_append]
      simpa using either
    exact List.mem_of_mem_filter mem
  have apart (q : ValueQue ι V) (made : q ∈ s.applied) : q.serial ∉ s.queValues.map (·.serial) := by
    intro mem
    obtain ⟨r, waits, serial⟩ := List.mem_map.mp mem
    -- an entry of that serial would be the same one, made and waiting
    obtain rfl := List.inj_on_of_nodup_map nodup (accepted r (.inr waits)) (accepted q (.inl made)) serial
    have twice := (List.Nodup.of_map _ nodup).filter fun q => decide (group q.value = group r.value)
    rw [inOrder.groups] at twice
    exact (List.nodup_append.mp twice).2.2 r (by simpa using made) r (by simpa using waits) rfl
  unfold Daemon.arrived
  rw [List.filter_filter]
  have swap : (fun q : ValueQue ι V => decide (group q.value = k) &&
      decide (q.serial ∉ s.queValues.map (·.serial))) =
      fun q => decide (q.serial ∉ s.queValues.map (·.serial)) && decide (group q.value = k) :=
    funext fun q => Bool.and_comm _ _
  rw [swap, ← List.filter_filter, inOrder.groups, List.filter_append]
  have made : (s.applied.filter fun q => group q.value = k).filter
      (fun q => decide (q.serial ∉ s.queValues.map (·.serial))) =
        s.applied.filter fun q => group q.value = k :=
    List.filter_eq_self.mpr fun q mem => by simpa using apart q (List.mem_of_mem_filter mem)
  have waits : (s.queValues.filter fun q => group q.value = k).filter
      (fun q => decide (q.serial ∉ s.queValues.map (·.serial))) = [] :=
    List.filter_eq_nil_iff.mpr fun q mem => by
      have listed := List.mem_map_of_mem (f := (·.serial)) (List.mem_of_mem_filter mem)
      simpa using listed
  rw [made, waits, List.append_nil]

theorem run_inOrder (state : Status) (contents : ι → V) (events : List (ValueEvent ι V))
    (orderly : Guarded d.step (d.Orderly group) (Daemon.init state contents) events) :
    d.InOrder group contents (run d.step (Daemon.init state contents) events) :=
  run_invariant d.step (d.Orderly group) (d.InOrder group contents)
    (fun _ e inOrder orderly => step_inOrder inOrder e orderly) _ events (init_inOrder state) orderly

end DeviceClass

/-- Whatever the hooks do within the groups of values: in a run that lets no change through while
an earlier one of its group waits, the contents of all values and the hooks called for each of
them are those of making the accepted changes one by one in the order they arrived, and no change
is dropped while one of its group waits. -/
theorem value_changes_in_order [DecidableEq ι] [DecidableEq κ] (d : DeviceClass ι V)
    (group : ι → κ) (closed : d.Closed group) (state : Status) (contents : ι → V)
    (events : List (ValueEvent ι V))
    (orderly : Guarded d.step (d.Orderly group) (Daemon.init state contents) events) :
    let s := run d.step (Daemon.init state contents) events
    let inTurn := d.oneByOne ⟨contents, []⟩ s.arrived
    s.values.contents = inTurn.contents ∧
      (∀ v, s.values.hooks.filter (·.1 = v) = inTurn.hooks.filter (·.1 = v)) ∧
      Guarded d.step (d.DropsAlone group) (Daemon.init state contents) events := by
  intro s inTurn
  have inOrder := DeviceClass.run_inOrder state contents events orderly
  have views (k : κ) : DeviceClass.view group k s.values = DeviceClass.view group k inTurn := by
    rw [inOrder.values, DeviceClass.view_oneByOne closed, ← DeviceClass.arrived_group inOrder,
      ← DeviceClass.view_oneByOne closed]
  refine ⟨funext fun v => ?_, fun v => ?_, ?_⟩
  · exact congrFun (congrArg Prod.fst (views (group v))) ⟨v, rfl⟩
  · have hooks := congrArg (fun view => view.2.filter (·.1 = v)) (views (group v))
    have narrower : (fun h : ι × V × V => decide (h.1 = v) && decide (group h.1 = group v)) =
        fun h => decide (h.1 = v) := by
      funext h
      by_cases here : h.1 = v <;> simp [here]
    simpa only [DeviceClass.view, List.filter_filter, narrower] using hooks
  · exact orderly.mono fun _ _ => DeviceClass.dropsAlone

inductive CameraValue where
  | mode | exposure
  deriving DecidableEq

def camReading : Status := 0x002

/-- A change of mode waits for the readout; `condition` is what a change of exposure waits for. -/
def camera (condition : Status) : DeviceClass CameraValue Int where
  stateCondition
    | .mode => camReading
    | .exposure => condition
  doOpValue _ op old_value new_value :=
    if op = '=' then some new_value
    else if op = '+' then some (old_value + new_value)
    else if op = '-' then some (old_value - new_value)
    else none
  isEqual _ old_value new_value := old_value = new_value
  setFromValue _ _ new_value := new_value
  setValue
    | .mode, _, new_value => ⟨0, new_value, [(.exposure, 0)]⟩
    | .exposure, _, new_value => ⟨0, new_value, []⟩

def readout (exposure : Int) : List (ValueEvent CameraValue Int) :=
  [.setState camReading, .setCondValue ⟨.mode, '=', 1⟩, .setCondValue ⟨.exposure, '=', exposure⟩,
    .setState 0]

theorem value_changes_in_order_sample :
    let s := run (camera camReading).step (Daemon.init 0 fun _ => 20) (readout 20)
    let inTurn := (camera camReading).oneByOne ⟨fun _ => 20, []⟩ s.arrived
    s.values.contents = inTurn.contents ∧
      (∀ v, s.values.hooks.filter (·.1 = v) = inTurn.hooks.filter (·.1 = v)) ∧
      Guarded (camera camReading).step ((camera camReading).DropsAlone fun _ => ())
        (Daemon.init 0 fun _ => 20) (readout 20) :=
  value_changes_in_order (camera camReading) (fun _ => ()) (fun _ _ _ _ _ => rfl) 0 (fun _ => 20)
    (readout 20) (by decide)

/-- An exposure that waits for nothing is set before the mode, which came first and resets it. -/
theorem value_changes_overtake :
    let s := run (camera 0).step (Daemon.init 0 fun _ => 20) (readout 30)
    let inTurn := (camera 0).oneByOne ⟨fun _ => 20, []⟩ s.accepted
    s.queValues = [] ∧ s.values.contents .exposure = 0 ∧ inTurn.contents .exposure = 30 := by
  decide

end Rts2.Kernel
