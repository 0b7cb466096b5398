import Rts2.Plan.Ownership

/-! What a client is answered that asks the executor for a target, and whether a request that fails leaves the queue and
the current target as they were. -/
namespace Rts2.Plan

open Lib Kernel

variable {τ δ : Type}

/-- The requests for a target. Each target is made by a createTarget of its own; a parameter of the queue command that is
no number is none; `next_id` is the value before it is written. -/
inductive Request (τ δ : Type) where
  | next (w : World τ δ) (nextId : Int)
  | queue (params : List (Option (World τ δ)))
  | now (w : World τ δ) (nextId : Int)
  | skip (w : World τ δ)
  | writeNext (w : World τ δ) (next_id value : Int)

namespace Executor

section

variable [LinearOrder τ] [LinearOrder δ] (s : Executor τ)

def switchTargetRet (w : World τ δ) : Option Int :=
  match s.switch with
  | .clear => some (-1)
  | .dismiss =>
    if s.execEnd = true ∨ (s.autoLoop = false ∧ s.queue.entries.isEmpty = true) then some 0 else some (-1)
  | .doSwitch => if (s.beforeChange w).remakes w ∧ w.created = none then none else some 0

def queueTargetRet (w : World τ δ) : Int :=
  match w.created with
  | none => -2
  | some row =>
    match s.currentTarget with
    | some _ => 0
    | none =>
      if ((s.createTarget row).addTarget s.made none none).switchTargetRet w = some 0 then 0 else -2

def setNextRet (w : World τ δ) (nextId : Int) : Int :=
  match s.queue.entries with
  | front :: _ => if s.getTargetID front.target = nextId then 0 else s.clearNextTargets.queueTargetRet w
  | [] => s.queueTargetRet w

def setNowRet (w : World τ δ) (nextId : Int) : Int :=
  match s.currentTarget with
  | some _ => if w.created = none then -2 else 0
  | none => s.setNextRet w nextId

def skipRet (w : World τ δ) : Int :=
  match s.queue.entries with
  | front :: _ => s.setNowRet w (s.getTargetID front.target)
  | [] => -2

def setValueRet (w : World τ δ) (nextId : Int) : Int := if s.setNextRet w nextId ≠ 0 then 0 else -2

def queueParams : Executor τ → List (Option (World τ δ)) → Executor τ × Nat
  | s, [] => (s, 0)
  | s, none :: params => ((queueParams s params).1, (queueParams s params).2 + 1)
  | s, some w :: params =>
    let rest := queueParams (s.step (w, .queueTarget none none)) params
    (rest.1, rest.2 + if s.queueTargetRet w = 0 then 0 else 1)

def request : Request τ δ → Executor τ × Int
  | .next w nextId => (s.step (w, .setNext nextId), s.setNextRet w nextId)
  | .queue params => ((s.queueParams params).1, if (s.queueParams params).2 = 0 then 0 else -2)
  | .now w nextId => (s.step (w, .now nextId), s.setNowRet w nextId)
  | .skip w => (s.step (w, .skip), s.skipRet w)
  | .writeNext w next_id value =>
    if next_id = value then (s, 0) else (s.step (w, .setNext value), s.setValueRet w value)

omit [LinearOrder τ] [LinearOrder δ] in
def Same (s s' : Executor τ) : Prop := s'.queue.entries = s.queue.entries ∧ s'.currentTarget = s.currentTarget

/-- A request that fails leaves the queue and the current target, and one that changes them succeeds. -/
def AllOrNothing (r : Request τ δ) : Prop :=
  ((s.request r).2 ≠ 0 → s.Same (s.request r).1) ∧ (¬s.Same (s.request r).1 → (s.request r).2 = 0)

end

section

variable (s : Executor τ)

def observes : Bool :=
  s.ignoreDay || [serverdEvening, serverdDusk, serverdNight, serverdDawn].contains s.getMasterState

/-- What a target that was made meets in an executor: one that observes another, that takes no target, that was told to
end, or that starts to observe it. -/
inductive Footing where
  | busy | refuses | ends | starts
  deriving DecidableEq

def footing : Footing :=
  if s.currentTarget.isSome then .busy
  else if s.enabled = false then .refuses
  else if s.execEnd = true then .ends
  else if s.observes then .starts
  else .refuses

def Asked (nextId : Int) : Prop := ∃ front ∈ s.queue.entries.head?, s.getTargetID front.target = nextId

/-- A next request finds no queue to clear, or its target is asked for already, or is made and not refused. -/
def NextMeets (w : World τ δ) (nextId : Int) : Prop :=
  s.queue.entries = [] ∨ s.Asked nextId ∨ w.created ≠ none ∧ s.footing ≠ .refuses

def madeCount (params : List (Option (World τ δ))) : Nat := params.countP (·.any (·.created.isSome))

def QueueMeets (params : List (Option (World τ δ))) : Prop :=
  madeCount params = 0 ∨
    match s.footing with
    | .busy | .starts => madeCount params = params.length
    | .refuses => s.queue.entries = []
    | .ends =>
      if madeCount params = 1 then params.length = 1 ∨ s.queue.entries = []
      else if s.observes then madeCount params = params.length
      else s.queue.entries = []

def Meets : Request τ δ → Prop
  | .next w nextId => s.NextMeets w nextId
  | .queue params => s.QueueMeets params
  | .now w nextId => s.currentTarget ≠ none ∨ s.NextMeets w nextId
  | .skip _ => True
  | .writeNext w next_id value =>
    next_id = value ∨ s.Asked value ∨ w.created = none ∨ s.footing = .refuses ∨
      s.footing = .ends ∧ s.queue.entries = []

end

variable {s : Executor τ} {w : World τ δ}

theorem clear_footing : s.clearNextTargets.footing = s.footing := rfl

theorem queued_switch (row : Nat × String) :
    ((s.createTarget row).addTarget s.made none none).switch =
      if s.enabled = false then .clear else if s.execEnd = true then .dismiss
      else if s.observes then .doSwitch else .dismiss := by
  have some_ : ((s.createTarget row).addTarget s.made none none).queue.entries.isEmpty = false := by
    simp [addTarget, ExecutorQueue.addTarget]
  unfold switch
  rw [some_]
  simp only [Bool.false_eq_true, and_false, or_false]
  change (if s.enabled = false then Switch.clear else if s.execEnd = true then .dismiss
    else if s.ignoreDay = true then .doSwitch
    else if [serverdEvening, serverdDusk, serverdNight, serverdDawn].contains s.getMasterState then .doSwitch
    else .dismiss) = _
  unfold observes
  cases s.ignoreDay <;> simp

variable [LinearOrder τ] [LinearOrder δ]

theorem step_unmade (unmade : w.created = none) :
    s.step (w, .queueTarget none none) = s ∧ s.queueTargetRet w = -2 := by
  constructor
  · simp [step, call, queueTarget, unmade, written]
  · simp [queueTargetRet, unmade]

theorem step_busy {t : Nat} (busy : s.currentTarget = some t) {row : Nat × String} (made : w.created = some row) :
    s.step (w, .queueTarget none none) = (s.createTarget row).addTarget s.made none none ∧ s.queueTargetRet w = 0 := by
  constructor
  · simp [step, call, queueTarget, made, busy, written]
  · simp [queueTargetRet, made, busy]

theorem step_idle (idle : s.currentTarget = none) {row : Nat × String} (made : w.created = some row) :
    s.step (w, .queueTarget none none) = ((s.createTarget row).addTarget s.made none none).switchTarget w ∧
      s.queueTargetRet w =
        if ((s.createTarget row).addTarget s.made none none).switchTargetRet w = some 0 then 0 else -2 := by
  constructor
  · simp [step, call, queueTarget, made, idle, written]
  · simp only [queueTargetRet, made, idle]

omit [LinearOrder τ] [LinearOrder δ] in
theorem footing_busy_iff : s.footing = .busy ↔ s.currentTarget ≠ none := by
  rw [← Option.isSome_iff_ne_none]
  unfold footing
  split_ifs <;> simp_all

omit [LinearOrder τ] [LinearOrder δ] in
theorem dismiss_idle (idle : s.currentTarget = none) : s.dismiss w = s.clearNextTargets := by
  unfold dismiss
  rw [idle]

omit [LinearOrder τ] [LinearOrder δ] in
theorem footing_cases :
    (∃ t, s.currentTarget = some t ∧ s.footing = .busy) ∨
      s.currentTarget = none ∧
        (s.enabled = false ∧ s.footing = .refuses ∨ s.enabled = true ∧
          (s.execEnd = true ∧ s.footing = .ends ∨ s.execEnd = false ∧
            (s.observes = true ∧ s.footing = .starts ∨ s.observes = false ∧ s.footing = .refuses))) := by
  unfold footing
  cases s.currentTarget with
  | some t => exact .inl ⟨t, rfl, rfl⟩
  | none =>
    right
    cases s.enabled <;> cases s.execEnd <;> cases s.observes <;> simp

omit [LinearOrder τ] [LinearOrder δ] in
theorem queued_some (row : Nat × String) :
    ((s.createTarget row).addTarget s.made none none).queue.entries.isEmpty = false := by
  simp [addTarget, ExecutorQueue.addTarget]

theorem queued_refuses (refuses : s.footing = .refuses) {row : Nat × String} (made : w.created = some row) :
    (s.step (w, .queueTarget none none)).queue.entries = [] ∧
      (s.step (w, .queueTarget none none)).currentTarget = none ∧
      (s.step (w, .queueTarget none none)).footing = .refuses ∧ s.queueTargetRet w = -2 := by
  have way := queued_switch (s := s) row
  rcases footing_cases (s := s) with ⟨_, _, other⟩ | ⟨idle, ⟨off, _⟩ | ⟨on, ⟨_, other⟩ | ⟨run, ⟨_, other⟩ | ⟨day, _⟩⟩⟩⟩
  · rw [refuses] at other
    cases other
  · obtain ⟨stepped, returned⟩ := step_idle idle made
    rw [if_pos off] at way
    rw [stepped, returned, switchTarget, switchTargetRet, way]
    exact ⟨rfl, idle, refuses, rfl⟩
  · rw [refuses] at other
    cases other
  · rw [refuses] at other
    cases other
  · obtain ⟨stepped, returned⟩ := step_idle idle made
    rw [if_neg (by simp [on]), if_neg (by simp [run]), if_neg (by simp [day])] at way
    have not_ : ¬(((s.createTarget row).addTarget s.made none none).execEnd = true ∨
        (((s.createTarget row).addTarget s.made none none).autoLoop = false ∧
          ((s.createTarget row).addTarget s.made none none).queue.entries.isEmpty = true)) := by
      rintro (told | ⟨_, none_⟩)
      · exact Bool.false_ne_true (run.symm.trans told)
      · exact Bool.false_ne_true ((queued_some row).symm.trans none_)
    rw [stepped, returned, switchTarget, switchTargetRet, way]
    dsimp only
    rw [dismiss_idle (s := { (s.createTarget row).addTarget s.made none none with execEnd := false }) idle,
      if_neg not_]
    refine ⟨rfl, idle, ?_, rfl⟩
    rw [← refuses, clear_footing]
    unfold footing
    rw [show s.execEnd = false from run]
    rfl

theorem queued_ends (ends : s.footing = .ends) {row : Nat × String} (made : w.created = some row) :
    (s.step (w, .queueTarget none none)).queue.entries = [] ∧
      (s.step (w, .queueTarget none none)).currentTarget = none ∧
      (s.step (w, .queueTarget none none)).footing = (if s.observes then .starts else .refuses) ∧
      s.queueTargetRet w = 0 := by
  have way := queued_switch (s := s) row
  rcases footing_cases (s := s) with ⟨_, _, other⟩ | ⟨idle, ⟨_, other⟩ | ⟨on, ⟨told, _⟩ | ⟨run, ⟨_, other⟩ | ⟨_, other⟩⟩⟩⟩
  · rw [ends] at other
    cases other
  · rw [ends] at other
    cases other
  · obtain ⟨stepped, returned⟩ := step_idle idle made
    rw [if_neg (by simp [on]), if_pos told] at way
    rw [stepped, returned, switchTarget, switchTargetRet, way]
    dsimp only
    rw [dismiss_idle (s := { (s.createTarget row).addTarget s.made none none with execEnd := false }) idle]
    refine ⟨rfl, idle, ?_, if_pos (if_pos (.inl told))⟩
    rw [clear_footing]
    change (if s.currentTarget.isSome then Footing.busy else if s.enabled = false then .refuses
      else if false = true then .ends else if s.observes then .starts else .refuses) = _
    rw [idle, on]
    simp
  · rw [ends] at other
    cases other
  · rw [ends] at other
    cases other

theorem filter_keeps_last (asks : Targets Nat τ δ) (now : τ) {q : ExecutorQueue Nat τ} {e : QueuedTarget Nat τ}
    (last : ∃ es, q.entries = es ++ [e]) (timeless : e.t_start = none ∧ e.t_end = none)
    (unstarted : asks.observationStarted e.target = false) : (q.filter asks now).1.entries ≠ [] := by
  obtain ⟨es, last⟩ := last
  have survives : e ∈ q.survivors asks now := by
    refine List.mem_filter.mpr ⟨?_, ?_⟩
    · rw [last]
      exact mem_sinceLast_concat es e
    · simp [QueuedTarget.remains, QueuedTarget.ended, passed, timeless.2, unstarted]
  have perm := ExecutorQueue.filter_plain asks now q
  intro none_
  rw [none_, List.map_nil] at perm
  have empty := List.map_eq_nil_iff.mp perm.nil_eq.symm
  rw [empty] at survives
  cases survives

omit [LinearOrder τ] [LinearOrder δ] in
theorem changeTarget_idle (idle : s.currentTarget = none) (some_ : s.queue.entries ≠ []) :
    (s.changeTarget w).currentTarget ≠ none := by
  have kept : s.dropStarted = s := by
    unfold dropStarted started
    rw [idle]
    simp
  unfold changeTarget takeFront
  rw [kept]
  change (match s.queue.entries with | front :: _ => _ | [] => _ : Executor τ).currentTarget ≠ none
  cases entries : s.queue.entries with
  | nil => exact absurd entries some_
  | cons front rest =>
    change (match s.currentTarget with | some t => _ | none => _ : Executor τ).currentTarget ≠ none
    rw [idle]
    simp

theorem queued_starts (starts : s.footing = .starts) {row : Nat × String} (made : w.created = some row) :
    (s.step (w, .queueTarget none none)).currentTarget ≠ none ∧ s.queueTargetRet w = 0 := by
  have way := queued_switch (s := s) row
  rcases footing_cases (s := s) with ⟨_, _, other⟩ | ⟨idle, ⟨_, other⟩ | ⟨on, ⟨_, other⟩ | ⟨run, ⟨night, _⟩ | ⟨_, other⟩⟩⟩⟩
  · rw [starts] at other
    cases other
  · rw [starts] at other
    cases other
  · rw [starts] at other
    cases other
  · obtain ⟨stepped, returned⟩ := step_idle idle made
    rw [if_neg (by simp [on]), if_neg (by simp [run]), if_pos night] at way
    rw [stepped, returned, switchTarget, switchTargetRet, way]
    dsimp only
    have still : (((s.createTarget row).addTarget s.made none none).beforeChange w).currentTarget = none := idle
    have again : ¬(((s.createTarget row).addTarget s.made none none).beforeChange w).remakes w = true := by
      simp [remakes, still]
    have some_ : (((s.createTarget row).addTarget s.made none none).beforeChange w).queue.entries ≠ [] := by
      refine filter_keeps_last (e := (s.createTarget row).queued s.made none none) _ _ ⟨s.queue.entries, rfl⟩
        ⟨rfl, rfl⟩ ?_
      change ((s.createTarget row).target s.made).observationStart = false
      simp [createTarget]
    refine ⟨?_, if_pos (if_neg fun both => again both.1)⟩
    rw [doSwitch, if_neg again]
    exact changeTarget_idle still some_
  · rw [starts] at other
    cases other

omit [LinearOrder τ] [LinearOrder δ] in
theorem madeCount_failed (param : Option (World τ δ)) (params : List (Option (World τ δ)))
    (failed : ∀ w, param = some w → w.created = none) : madeCount (param :: params) = madeCount params := by
  refine List.countP_cons_of_neg ?_
  cases param with
  | none => simp
  | some w => simp [failed w rfl]

omit [LinearOrder τ] [LinearOrder δ] in
theorem madeCount_made {row : Nat × String} (made : w.created = some row) (params : List (Option (World τ δ))) :
    madeCount (some w :: params) = madeCount params + 1 :=
  List.countP_cons_of_pos (by simp [made])

theorem queueParams_failed (param : Option (World τ δ)) (params : List (Option (World τ δ)))
    (failed : ∀ w, param = some w → w.created = none) :
    s.queueParams (param :: params) = ((s.queueParams params).1, (s.queueParams params).2 + 1) := by
  cases param with
  | none => rfl
  | some w =>
    obtain ⟨stepped, returned⟩ := step_unmade (s := s) (failed w rfl)
    rw [queueParams, stepped, returned]
    rfl

theorem queueParams_made (params : List (Option (World τ δ))) :
    s.queueParams (some w :: params) = (((s.step (w, .queueTarget none none)).queueParams params).1,
      ((s.step (w, .queueTarget none none)).queueParams params).2 + if s.queueTargetRet w = 0 then 0 else 1) := rfl

theorem params_induction {motive : Executor τ → List (Option (World τ δ)) → Prop} (nil : ∀ s, motive s [])
    (failed : ∀ s param params, (∀ w, param = some w → w.created = none) → motive s params →
      motive s (param :: params))
    (made : ∀ s w params row, w.created = some row → motive (s.step (w, .queueTarget none none)) params →
      motive s (some w :: params)) (s : Executor τ) (params : List (Option (World τ δ))) : motive s params := by
  induction params generalizing s with
  | nil => exact nil s
  | cons param params ih =>
    cases param with
    | none => exact failed s none params (fun w none_ => nomatch none_) (ih s)
    | some w =>
      cases created : w.created with
      | none =>
        refine failed s (some w) params ?_ (ih s)
        rintro w' same
        cases same
        exact created
      | some row => exact made s w params row created (ih _)

theorem params_unmade (params : List (Option (World τ δ))) (unmade : madeCount params = 0) :
    s.queueParams params = (s, params.length) := by
  induction s, params using params_induction with
  | nil s => rfl
  | failed s param params failed ih =>
    rw [madeCount_failed param params failed] at unmade
    rw [queueParams_failed param params failed, ih unmade]
    rfl
  | made s w params row made ih =>
    rw [madeCount_made made] at unmade
    cases unmade

theorem params_busy (params : List (Option (World τ δ))) {t : Nat} (busy : s.currentTarget = some t) :
    (s.queueParams params).1.currentTarget = some t ∧
      (s.queueParams params).1.queue.entries.length = s.queue.entries.length + madeCount params ∧
      madeCount params + (s.queueParams params).2 = params.length := by
  induction s, params using params_induction with
  | nil s => exact ⟨busy, rfl, rfl⟩
  | failed s param params failed ih =>
    obtain ⟨current, entries, count⟩ := ih busy
    rw [madeCount_failed param params failed, queueParams_failed param params failed, List.length_cons]
    exact ⟨current, entries, by omega⟩
  | made s w params row made ih =>
    obtain ⟨stepped, returned⟩ := step_busy busy made
    have current : (s.step (w, .queueTarget none none)).currentTarget = some t := by
      rw [stepped]
      exact busy
    obtain ⟨current, entries, count⟩ := ih current
    have more : (s.step (w, .queueTarget none none)).queue.entries.length = s.queue.entries.length + 1 := by
      rw [stepped]
      exact List.length_append
    rw [queueParams_made, madeCount_made made, returned, List.length_cons]
    exact ⟨current, entries.trans (by omega), by simp; omega⟩

theorem params_refuses (params : List (Option (World τ δ))) (refuses : s.footing = .refuses)
    (some_ : madeCount params ≠ 0) :
    (s.queueParams params).1.currentTarget = none ∧ (s.queueParams params).1.queue.entries = [] ∧
      (s.queueParams params).2 = params.length := by
  induction s, params using params_induction with
  | nil s => exact absurd rfl some_
  | failed s param params failed ih =>
    rw [madeCount_failed param params failed] at some_
    obtain ⟨current, entries, count⟩ := ih refuses some_
    rw [queueParams_failed param params failed, List.length_cons]
    exact ⟨current, entries, by rw [count]⟩
  | made s w params row made ih =>
    obtain ⟨cleared, idle, again, returned⟩ := queued_refuses refuses made
    rw [queueParams_made, returned, List.length_cons]
    by_cases rest : madeCount params = 0
    · rw [params_unmade params rest]
      exact ⟨idle, cleared, rfl⟩
    · obtain ⟨current, entries, count⟩ := ih again rest
      exact ⟨current, entries, by rw [count]; rfl⟩

theorem params_starts (params : List (Option (World τ δ))) (starts : s.footing = .starts)
    (some_ : madeCount params ≠ 0) :
    (s.queueParams params).1.currentTarget ≠ none ∧ madeCount params + (s.queueParams params).2 = params.length := by
  induction s, params using params_induction with
  | nil s => exact absurd rfl some_
  | failed s param params failed ih =>
    rw [madeCount_failed param params failed] at some_ ⊢
    obtain ⟨current, count⟩ := ih starts some_
    rw [queueParams_failed param params failed, List.length_cons]
    exact ⟨current, by omega⟩
  | made s w params row made ih =>
    obtain ⟨observed, returned⟩ := queued_starts starts made
    obtain ⟨t, busy⟩ := Option.ne_none_iff_exists'.mp observed
    obtain ⟨current, _, count⟩ := params_busy params busy
    rw [queueParams_made, madeCount_made made, returned, List.length_cons]
    exact ⟨by rw [current]; simp, by simp; omega⟩

theorem params_ends (params : List (Option (World τ δ))) (ends : s.footing = .ends) (some_ : madeCount params ≠ 0) :
    if madeCount params = 1 then
      (s.queueParams params).1.currentTarget = none ∧ (s.queueParams params).1.queue.entries = [] ∧
        1 + (s.queueParams params).2 = params.length
    else if s.observes then
      (s.queueParams params).1.currentTarget ≠ none ∧ madeCount params + (s.queueParams params).2 = params.length
    else
      (s.queueParams params).1.currentTarget = none ∧ (s.queueParams params).1.queue.entries = [] ∧
        (s.queueParams params).2 ≠ 0 := by
  induction s, params using params_induction with
  | nil s => exact absurd rfl some_
  | failed s param params failed ih =>
    rw [madeCount_failed param params failed] at some_ ⊢
    have rest := ih ends some_
    rw [queueParams_failed param params failed, List.length_cons]
    split_ifs at rest ⊢
    · exact ⟨rest.1, rest.2.1, by have := rest.2.2; omega⟩
    · exact ⟨rest.1, by have := rest.2; omega⟩
    · exact ⟨rest.1, rest.2.1, Nat.succ_ne_zero _⟩
  | made s w params row made ih =>
    obtain ⟨cleared, idle, next, returned⟩ := queued_ends ends made
    rw [queueParams_made, madeCount_made made, returned, List.length_cons]
    by_cases rest : madeCount params = 0
    · rw [params_unmade params rest, rest]
      exact ⟨idle, cleared, by simp; omega⟩
    · rw [if_neg (by omega)]
      by_cases observes : s.observes = true
      · rw [if_pos observes] at next ⊢
        obtain ⟨current, count⟩ := params_starts params next rest
        exact ⟨current, by simp; omega⟩
      · rw [if_neg observes] at next ⊢
        obtain ⟨current, entries, count⟩ := params_refuses params next rest
        refine ⟨current, entries, ?_⟩
        have length : madeCount params ≤ params.length := List.countP_le_length
        simp
        omega

omit [LinearOrder τ] [LinearOrder δ] in
theorem held_processed (held : Held s) {t : Nat} (current : s.currentTarget = some t) (next_id : Int)
    {next : Option Nat} (below : ∀ u, next = some u → u < s.made) :
    Held { (s.endObservation w t next_id).1.processTarget t with currentTarget := next } := by
  have alike := endObservation_alike s w t next_id
  have ended := alike.held held
  have made := alike.made
  refine ⟨?_, ended.once, ended.clean⟩
  rintro u (same | mem | mem | mem)
  · exact (below u same).trans_le made.ge
  · exact ended.below u (.inr (.inl mem))
  · rcases List.mem_append.mp mem with mem | mem
    · exact ended.below u (.inr (.inr (.inl mem)))
    · obtain rfl := List.mem_singleton.mp mem
      exact (held.below _ (.inl current)).trans_le made.ge
  · exact ended.below u (.inr (.inr (.inr mem)))

omit [LinearOrder τ] [LinearOrder δ] in
theorem held_clear (held : Held s) : Held s.clearNextTargets :=
  (clear_alike s).held (held_setQueue held (clear_spares held).1)

omit [LinearOrder τ] [LinearOrder δ] in
theorem held_current (held : Held s) {next : Option Nat} (below : ∀ u, next = some u → u < s.made) :
    Held { s with currentTarget := next } := by
  refine ⟨?_, held.once, held.clean⟩
  rintro u (same | mem)
  · exact below u same
  · exact held.below u (.inr mem)

omit [LinearOrder τ] [LinearOrder δ] in
theorem held_dismiss (held : Held s) : Held (s.dismiss w) := by
  unfold dismiss
  cases current : s.currentTarget with
  | none => exact held_clear held
  | some t => exact held_clear (held_processed held current (-1) (fun u none_ => nomatch none_))

omit [LinearOrder τ] [LinearOrder δ] in
theorem held_setNow (held : Held s) {newTarget : Nat} (below : newTarget < s.made) : Held (s.setNow w newTarget) := by
  have new : ∀ u, some newTarget = some u → u < s.made := fun u same => Option.some.inj same ▸ below
  unfold setNow
  cases current : s.currentTarget with
  | none => exact held_clear (held_current held new)
  | some t => exact held_clear (held_processed held current (-1) new)

omit [LinearOrder τ] [LinearOrder δ] in
theorem held_changeTarget (held : Held s) : Held (s.changeTarget w) := by
  have dropped : Held s.dropStarted.resetAutoLoop := by
    refine (resetAutoLoop_alike _).held ?_
    unfold dropStarted
    split
    · exact held_current held (fun u none_ => nomatch none_)
    · exact held
  unfold changeTarget takeFront
  cases entries : s.dropStarted.resetAutoLoop.queue.entries with
  | nil => exact dropped
  | cons front rest =>
    have below : ∀ u, some front.target = some u → u < s.dropStarted.resetAutoLoop.made := by
      rintro u same
      cases same
      exact dropped.below _ (.inr (.inl (List.mem_map_of_mem (by rw [entries]; simp))))
    dsimp only
    cases current : s.dropStarted.resetAutoLoop.currentTarget with
    | none => exact held_current dropped below
    | some t =>
      dsimp only
      split
      · exact (endObservation_alike _ w t _).held dropped
      · exact held_processed dropped current _ below

theorem held_switchTarget (held : Held s) : Held (s.switchTarget w) := by
  have filtered : Held (s.beforeChange w) := held_setQueue held (beforeChange_spares held w).1
  unfold switchTarget
  cases s.switch with
  | clear => exact held_clear held
  | dismiss =>
    have alike : Alike s { s with execEnd := false } := ⟨rfl, rfl, rfl, rfl, rfl⟩
    exact held_dismiss (alike.held held)
  | doSwitch =>
    unfold doSwitch
    dsimp only
    split
    · cases w.created with
      | none => exact filtered
      | some row =>
        exact held_changeTarget (held_addFront (held_created filtered row) (unheld_created filtered row))
    · exact held_changeTarget filtered

omit [LinearOrder τ] [LinearOrder δ] in
theorem held_parts (w : World τ δ) : Parts (Held (τ := τ)) (fun _ _ => True) w where
  flags held same :=
    Alike.held ⟨same.made, same.deleted, same.queue, same.currentTarget, same.targetsQue⟩ held
  cleared := held_clear
  queued row t_start t_end held :=
    held_addTarget (held_created held row) (unheld_created held row) t_start t_end
  replaced row held := held_addTarget (held_clear (held_created held row))
    (unheld_clear (held_created held row) (unheld_created held row)) none none
  discarded row held := held_deleted (held_created held row) (unheld_created held row).made
  begun held _ := (startObservation_alike _ _).held held
  removed index held _ := held_setQueue held (ExecutorQueue.removeIndex_spares held.clean index).1
  renewed inserted held _ := (newObsSlew_alike _ w _ inserted).held held
  slewed inserted held _ := (startSlew_alike _ _ inserted).held held
  closed inserted held _ _ :=
    ((endObservation_alike _ w _ _).trans (startSlew_alike _ _ inserted)).held held

theorem step_held (held : Held s) (we : World τ δ × Event τ) : Held (s.step we) := by
  have allows : Allows (fun _ => True) (fun _ => True) (s.call we.1 we.2) := by
    cases s.call we.1 we.2 <;> trivial
  exact step_keeps (held_parts we.1) (fun held _ => held_switchTarget held)
    (fun row held _ => held_setNow (held_created held row) (unheld_created held row).made) held we.2 trivial allows

theorem run_held (auto ignore : Bool) (es : List (World τ δ × Event τ)) : Held (run step (fresh auto ignore) es) := by
  refine run_invariant step (fun _ _ => True) Held (fun s we held _ => step_held held we) _ es ?_
    (guarded_true step _ es)
  exact (fresh_owned auto ignore).toHeld

theorem targets_once (auto ignore : Bool) (es : List (World τ δ × Event τ)) :
    (run step (fresh auto ignore) es).queue.targets.Nodup ∧
      ∀ t ∈ (run step (fresh auto ignore) es).queue.targets, t < (run step (fresh auto ignore) es).made := by
  obtain ⟨below, once, -⟩ := run_held auto ignore es
  exact ⟨once, fun t listed => below t (.inr (.inl listed))⟩

omit [LinearOrder τ] [LinearOrder δ] in
theorem asked_iff {front : QueuedTarget Nat τ} {rest : List (QueuedTarget Nat τ)} (entries : s.queue.entries = front :: rest)
    (nextId : Int) : s.Asked nextId ↔ s.getTargetID front.target = nextId := by
  unfold Asked
  rw [entries]
  simp

theorem setNext_asked {nextId : Int} (asked : s.Asked nextId) :
    s.step (w, .setNext nextId) = s ∧ s.setNextRet w nextId = 0 := by
  cases entries : s.queue.entries with
  | nil =>
    obtain ⟨front, mem, _⟩ := asked
    rw [entries] at mem
    cases mem
  | cons front rest =>
    have same := (asked_iff entries nextId).mp asked
    constructor
    · simp [step, call, setNext, entries, same, written]
    · simp [setNextRet, entries, same]

theorem setNext_other {nextId : Int} (other : ¬s.Asked nextId) :
    ∃ p : Executor τ, p.queue.entries = [] ∧ p.currentTarget = s.currentTarget ∧ p.footing = s.footing ∧
      p.made = s.made ∧ s.step (w, .setNext nextId) = p.step (w, .queueTarget none none) ∧
      s.setNextRet w nextId = p.queueTargetRet w := by
  cases entries : s.queue.entries with
  | nil =>
    refine ⟨s, entries, rfl, rfl, rfl, ?_, ?_⟩
    · simp [step, call, setNext, entries, written]
    · simp [setNextRet, entries]
  | cons front rest =>
    have different : s.getTargetID front.target ≠ nextId := fun same => other ((asked_iff entries nextId).mpr same)
    refine ⟨s.clearNextTargets, rfl, rfl, rfl, rfl, ?_, ?_⟩
    · simp [step, call, setNext, entries, different, written]
    · simp [setNextRet, entries, different]

theorem queueTargetRet_iff : s.queueTargetRet w = 0 ↔ w.created ≠ none ∧ s.footing ≠ .refuses := by
  cases made : w.created with
  | none => simp [(step_unmade made).2]
  | some row =>
    cases footing : s.footing with
    | busy =>
      obtain ⟨t, busy⟩ := Option.ne_none_iff_exists'.mp (footing_busy_iff.mp footing)
      simp [(step_busy busy made).2]
    | refuses => simp [(queued_refuses footing made).2.2.2]
    | ends => simp [(queued_ends footing made).2.2.2]
    | starts => simp [(queued_starts footing made).2]

theorem queued_error (empty : s.queue.entries = []) (error : s.queueTargetRet w ≠ 0) :
    (s.step (w, .queueTarget none none)).queue.entries = [] ∧
      (s.step (w, .queueTarget none none)).currentTarget = s.currentTarget := by
  cases made : w.created with
  | none =>
    rw [(step_unmade made).1]
    exact ⟨empty, rfl⟩
  | some row =>
    have refuses : s.footing = .refuses := by
      by_contra taken
      exact error (queueTargetRet_iff.mpr ⟨by rw [made]; simp, taken⟩)
    obtain ⟨cleared, idle, _, _⟩ := queued_refuses refuses made
    refine ⟨cleared, idle.trans ?_⟩
    by_contra busy
    rw [footing_busy_iff.mpr fun none_ => busy none_.symm] at refuses
    cases refuses

omit [LinearOrder τ] [LinearOrder δ] in
theorem idle_of_footing (other : s.footing ≠ .busy) : s.currentTarget = none := by
  by_contra busy
  exact other (footing_busy_iff.mpr busy)

theorem next_iff (nextId : Int) :
    (s.setNextRet w nextId ≠ 0 → s.Same (s.step (w, .setNext nextId))) ↔ s.NextMeets w nextId := by
  by_cases asked : s.Asked nextId
  · obtain ⟨stepped, returned⟩ := setNext_asked (w := w) asked
    exact iff_of_true (fun error => absurd returned error) (.inr (.inl asked))
  · obtain ⟨p, empty, current, footing, _, stepped, returned⟩ := setNext_other (w := w) asked
    rw [stepped, returned]
    have taken := queueTargetRet_iff (s := p) (w := w)
    rw [footing] at taken
    constructor
    · intro kept
      by_cases error : p.queueTargetRet w = 0
      · exact .inr (.inr (taken.mp error))
      · exact .inl ((kept error).1.symm.trans (queued_error empty error).1)
    · intro meets error
      obtain ⟨cleared, same⟩ := queued_error empty error
      rcases meets with none_ | asks | made
      · exact ⟨cleared.trans none_.symm, same.trans current⟩
      · exact absurd asks asked
      · exact absurd (taken.mpr made) error

theorem writeNext_iff (held : Held s) (value : Int) :
    (s.setValueRet w value ≠ 0 → s.Same (s.step (w, .setNext value))) ↔
      s.Asked value ∨ w.created = none ∨ s.footing = .refuses ∨ s.footing = .ends ∧ s.queue.entries = [] := by
  have error : s.setValueRet w value ≠ 0 ↔ s.setNextRet w value = 0 := by
    unfold setValueRet
    split <;> simp_all
  rw [error]
  by_cases asked : s.Asked value
  · refine iff_of_true (fun _ => ?_) (.inl asked)
    rw [(setNext_asked asked).1]
    exact ⟨rfl, rfl⟩
  · obtain ⟨p, empty, current, footing, numbered, stepped, returned⟩ := setNext_other (w := w) asked
    rw [stepped, returned, queueTargetRet_iff, footing]
    cases made : w.created with
    | none => simp
    | some row =>
      cases foot : s.footing with
      | busy =>
        obtain ⟨t, busy⟩ := Option.ne_none_iff_exists'.mp (footing_busy_iff.mp foot)
        refine iff_of_false (fun kept => ?_) (by simp [asked])
        obtain ⟨entries, _⟩ := kept ⟨by simp, by simp⟩
        rw [(step_busy (current.trans busy) made).1] at entries
        have mem : p.made ∈ s.queue.targets := by
          rw [ExecutorQueue.targets, ← entries]
          simp [addTarget, ExecutorQueue.addTarget, queued]
        exact (held.below _ (.inr (.inl mem))).ne numbered
      | refuses => simp
      | ends =>
        obtain ⟨cleared, idle, _, _⟩ := queued_ends (footing.trans foot) made
        have same : s.Same (p.step (w, .queueTarget none none)) ↔ s.queue.entries = [] := by
          unfold Same
          rw [cleared, idle, idle_of_footing (by simp [foot])]
          exact (and_iff_left rfl).trans eq_comm
        simp [asked, same]
      | starts =>
        have observed := (queued_starts (footing.trans foot) made).1
        refine iff_of_false (fun kept => ?_) (by simp [asked])
        exact observed ((kept ⟨by simp, by simp⟩).2.trans (idle_of_footing (by simp [foot])))

theorem queue_iff (params : List (Option (World τ δ))) :
    ((s.queueParams params).2 ≠ 0 → s.Same (s.queueParams params).1) ↔ s.QueueMeets params := by
  unfold QueueMeets
  by_cases none_ : madeCount params = 0
  · rw [params_unmade params none_]
    exact iff_of_true (fun _ => ⟨rfl, rfl⟩) (.inl none_)
  · have cleared {p : Executor τ} (idle : s.footing ≠ .busy) (current : p.currentTarget = none)
        (entries : p.queue.entries = []) : s.Same p ↔ s.queue.entries = [] := by
      unfold Same
      rw [current, entries, idle_of_footing idle]
      exact (and_iff_left rfl).trans eq_comm
    have observed {p : Executor τ} (idle : s.footing ≠ .busy) (current : p.currentTarget ≠ none) : ¬s.Same p :=
      fun same => current (same.2.trans (idle_of_footing idle))
    have whole (changed : ¬s.Same (s.queueParams params).1)
        (count : madeCount params + (s.queueParams params).2 = params.length) :
        ((s.queueParams params).2 ≠ 0 → s.Same (s.queueParams params).1) ↔ madeCount params = params.length := by
      constructor
      · intro kept
        by_contra less
        exact changed (kept (by omega))
      · intro all error
        omega
    cases foot : s.footing with
    | busy =>
      obtain ⟨t, busy⟩ := Option.ne_none_iff_exists'.mp (footing_busy_iff.mp foot)
      obtain ⟨_, entries, count⟩ := params_busy params busy
      have changed : ¬s.Same (s.queueParams params).1 := by
        intro same
        rw [same.1] at entries
        omega
      exact (whole changed count).trans (or_iff_right none_).symm
    | starts =>
      obtain ⟨current, count⟩ := params_starts params foot none_
      exact (whole (observed (by simp [foot]) current) count).trans (or_iff_right none_).symm
    | refuses =>
      obtain ⟨current, entries, count⟩ := params_refuses params foot none_
      have some_ : (s.queueParams params).2 ≠ 0 := by
        have length : madeCount params ≤ params.length := List.countP_le_length
        omega
      simp only [none_, cleared (by simp [foot]) current entries, false_or, some_, ne_eq, not_false_eq_true,
        forall_const]
    | ends =>
      have rest := params_ends params foot none_
      simp only [none_, false_or]
      split_ifs at rest ⊢
      · obtain ⟨current, entries, count⟩ := rest
        rw [cleared (by simp [foot]) current entries]
        have error : (s.queueParams params).2 ≠ 0 ↔ params.length ≠ 1 := by omega
        rw [error]
        tauto
      · obtain ⟨current, count⟩ := rest
        exact whole (observed (by simp [foot]) current) count
      · obtain ⟨current, entries, some_⟩ := rest
        simp only [cleared (by simp [foot]) current entries, some_, ne_eq, not_false_eq_true, forall_const]

theorem now_iff (nextId : Int) :
    (s.setNowRet w nextId ≠ 0 → s.Same (s.step (w, .now nextId))) ↔
      s.currentTarget ≠ none ∨ s.NextMeets w nextId := by
  cases current : s.currentTarget with
  | none =>
    have stepped : s.step (w, .now nextId) = s.step (w, .setNext nextId) := by
      simp [step, call, setNowId, current, written]
    have returned : s.setNowRet w nextId = s.setNextRet w nextId := by simp [setNowRet, current]
    rw [stepped, returned, next_iff]
    simp
  | some t =>
    refine iff_of_true (fun error => ?_) (.inl (by simp))
    cases made : w.created with
    | none => simp [step, call, setNowId, current, made, written, Same]
    | some row => simp [setNowRet, current, made] at error

theorem skip_same (error : s.skipRet w ≠ 0) : s.Same (s.step (w, .skip)) := by
  cases entries : s.queue.entries with
  | nil => simp [step, call, skip, entries, written, Same]
  | cons front rest =>
    have asked : s.Asked (s.getTargetID front.target) := (asked_iff entries _).mpr rfl
    have stepped : s.step (w, .skip) = s.step (w, .now (s.getTargetID front.target)) := by
      simp [step, call, skip, entries, written]
    have returned : s.skipRet w = s.setNowRet w (s.getTargetID front.target) := by simp [skipRet, entries]
    rw [stepped]
    rw [returned] at error
    exact (now_iff _).mpr (.inr (.inr (.inl asked))) error

/-- A request in any state that the executor reaches is all or nothing exactly if its condition holds. -/
theorem request_allOrNothing_iff (auto ignore : Bool) (es : List (World τ δ × Event τ)) (r : Request τ δ) :
    (run step (fresh auto ignore) es).AllOrNothing r ↔ (run step (fresh auto ignore) es).Meets r := by
  have held := run_held auto ignore es
  generalize run step (fresh auto ignore) es = s at held ⊢
  have once : s.AllOrNothing r ↔ ((s.request r).2 ≠ 0 → s.Same (s.request r).1) := by
    unfold AllOrNothing
    constructor
    · exact And.left
    · intro kept
      exact ⟨kept, fun changed => by_contra fun error => changed (kept error)⟩
  rw [once]
  cases r with
  | next w nextId => exact next_iff nextId
  | queue params =>
    have error : (s.request (.queue params)).2 ≠ 0 ↔ (s.queueParams params).2 ≠ 0 := by
      simp only [request]
      split <;> simp_all
    rw [error]
    exact queue_iff params
  | now w nextId => exact now_iff nextId
  | skip w => exact iff_of_true skip_same trivial
  | writeNext w next_id value =>
    simp only [request, Meets]
    split
    · rename_i same
      exact iff_of_true (fun error => absurd rfl error) (.inl same)
    · rename_i other
      exact (writeNext_iff held value).trans (or_iff_right other).symm

/-- A next request for a target that is not in the database clears the queue and fails; the next value written for one that
is there reports an error with the target queued. -/
theorem failed_requests_change :
    ¬(run step (fresh true false) sampleNight).AllOrNothing (.next (sampleWorld 5 1 none) 2000) ∧
      ¬(run step (fresh true false) sampleNight).AllOrNothing
        (.writeNext (sampleWorld 5 1 (some (2000, "burst"))) 1000 2000) := by
  constructor
  · intro kept
    have same := kept.1 (by decide)
    exact absurd same.1 (by decide)
  · intro kept
    have same := kept.1 (by decide)
    exact absurd same.1 (by decide)

end Executor

end Rts2.Plan
