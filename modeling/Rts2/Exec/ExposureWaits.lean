import Rts2.Exec.StartedOnce

/-! The flag that holds back a script until its exposure starts. -/
namespace Rts2.Exec.DevScript

open Lib

/-- While the flag is set an exposure command of the camera is not answered, or an exposure did not start, fail or end; or
one started, and the call that was told of it goes on to clear the flag. -/
def Awaits (c : DevScript) : Prop :=
  c.waitForExposure = true → (∃ p ∈ c.outstanding, p.2 = true) ∨ c.awaited ≠ [] ∨ .exposureStartedRest ∈ c.stack

def Left (c : DevScript) (outstanding : List (Nat × Bool)) (ids : List Nat) : Prop :=
  c.waitForExposure = true →
    (∃ p ∈ outstanding, p.2 = true) ∨ (∃ id ∈ c.awaited, id ∉ ids) ∨ .exposureStartedRest ∈ c.stack

/-- A command that is answered or given up, and exposures that fail or are killed, leave something to wait for, when the
flag is set. -/
def ExposureLeft (c : DevScript) : Step → Prop
  | .post (.commandOK id) _ => c.Left (c.outstanding.eraseP (·.1 = id)) []
  | .post (.commandLost id) _ => c.Left (c.outstanding.eraseP (·.1 = id)) [id]
  | .post (.exposureFailed ids) _ | .post (.exposureLost ids) _ => c.Left c.outstanding ids
  | .post .. | .go _ => True

variable {c : DevScript} (a : Surroundings)

theorem Awaits.quiet {c' : DevScript} (awaits : Awaits c) (quiet : Quiet c c') : Awaits c' := by
  intro flag
  rcases quiet.waits flag with before | some
  · rcases awaits before with ⟨p, inside, exposure⟩ | some | inside
    · exact Or.inl ⟨p, quiet.outstanding inside, exposure⟩
    · exact Or.inr (Or.inl (ne_nil_of_subset quiet.awaited some))
    · obtain ⟨calls, _, stack⟩ := quiet.calls
      exact Or.inr (Or.inr (stack ▸ List.mem_append_right calls inside))
  · exact Or.inr (Or.inl some)

theorem Awaits.setKill (awaits : Awaits c) (kind : Kill) (arg : Option Target) : Awaits (c.setKill kind arg) := by
  have more : Awaits { c with outstanding := c.outstanding ++ [(c.made, false)] } := fun flag =>
    (awaits flag).imp_left fun ⟨p, inside, exposure⟩ => ⟨p, List.mem_append_left _ inside, exposure⟩
  unfold DevScript.setKill
  dsimp only
  split
  · exact more
  · cases arg <;> exact more

theorem Awaits.setNextTarget (awaits : Awaits c) (t : Assigned) : Awaits (c.setNextTarget t) := by
  unfold DevScript.setNextTarget
  dsimp only
  split <;> exact awaits

theorem Awaits.nextCommand (awaits : Awaits c) (triggerCommand : Option Nat) :
    Awaits (c.nextCommand triggerCommand a) := by
  have pushed : ∀ calls, Awaits (c.push calls) := fun calls flag =>
    (awaits flag).imp_right (Or.imp_right (List.mem_append_right calls))
  unfold DevScript.nextCommand
  split
  · dsimp only
    split
    · rename_i t idle kill
      have taken : Awaits { c.push [.clearKill, .loop] with
          waiting := none
          taken := c.taken ++ triggerCommand.toList.map (·, t.number) } := pushed _
      exact ((taken.setNextTarget t).quiet (startTarget_quiet _ a)).quiet (pushNextCommand_quiet _)
    · exact pushed _
  · exact pushed _

theorem Awaits.post (awaits : Awaits c) (e : ScriptEvent) (left : ExposureLeft c (.post e a)) : Awaits (c.post a e) := by
  have less : ∀ {outstanding ids}, Left c outstanding ids →
      Awaits { c with outstanding := outstanding, awaited := c.awaited.filter (· ∉ ids) } := by
    intro outstanding ids left flag
    refine (left flag).imp_right (Or.imp_left fun ⟨id, inside, other⟩ => ?_)
    exact List.ne_nil_of_mem (List.mem_filter.mpr ⟨inside, by simpa using other⟩)
  cases e with
  | kill kind arg => exact (awaits.quiet (c.stopScript_quiet kind)).setKill kind arg
  | commandOK id =>
    intro flag
    rcases left flag with some | ⟨id, inside, _⟩ | inside
    · exact Or.inl some
    · exact Or.inr (Or.inl (List.ne_nil_of_mem inside))
    · exact Or.inr (Or.inr (List.mem_append_right _ inside))
  | commandFailed id => nofun
  | commandLost id => exact less left
  | exposureStarted id =>
    exact fun _ => Or.inr (Or.inr (List.mem_append_left _ (List.mem_append_right _ (List.mem_singleton.mpr rfl))))
  | exposureFailed ids => exact (less left).quiet (pushNextCommand_quiet _)
  | exposureLost ids => exact less left
  | triggered => exact awaits.quiet (c.post_quiet a .triggered trivial)
  | exposureEnd => exact awaits.quiet (c.post_quiet a .exposureEnd trivial)
  | readoutEnd => exact awaits.quiet (c.post_quiet a .readoutEnd trivial)
  | setTarget t => exact awaits.quiet (c.post_quiet a (.setTarget t) trivial)
  | observe => exact awaits.quiet (c.post_quiet a .observe trivial)
  | scriptEnded arg => exact awaits.quiet (c.post_quiet a (.scriptEnded arg) trivial)
  | stopObservation => exact awaits.quiet (c.post_quiet a .stopObservation trivial)
  | nextCommand => exact awaits.quiet (c.post_quiet a .nextCommand trivial)
  | acqusitionEnd acqEnd => exact awaits.quiet (c.post_quiet a (.acqusitionEnd acqEnd) trivial)
  | mirrorFinish => exact awaits.quiet (c.post_quiet a .mirrorFinish trivial)
  | signal sig => exact awaits.quiet (c.post_quiet a (.signal sig) trivial)

theorem exposureStartedRest_flag : c.exposureStartedRest.waitForExposure = false := by
  unfold DevScript.exposureStartedRest
  dsimp only
  split
  · split <;> rfl
  · rename_i unset
    exact Bool.eq_false_iff.mpr unset

theorem Awaits.go (awaits : Awaits c) : Awaits (c.go a) := by
  cases head : c.stack with
  | nil =>
    unfold DevScript.go
    rw [head]
    exact awaits
  | cons call rest =>
    have popped : call ≠ .exposureStartedRest → Awaits { c with stack := rest } := by
      intro other flag
      refine (awaits flag).imp_right (Or.imp_right fun inside => ?_)
      rw [head] at inside
      exact (List.mem_cons.mp inside).resolve_left (Ne.symm other)
    rw [go_of_head c a head]
    cases call with
    | exposureStartedRest =>
      intro flag
      cases flag.symm.trans (exposureStartedRest_flag (c := { c with stack := rest }))
    | nextCommand triggerCommand => exact (popped nofun).nextCommand a triggerCommand
    | clearKill => exact popped nofun
    | posting => exact popped nofun
    | loop => exact (popped nofun).quiet (loop_quiet _ a)
    | startAfterEnd => exact (popped nofun).quiet (startAfterEnd_quiet _ a)
    | exposureEndRest => exact (popped nofun).quiet (exposureEndRest_quiet _ a)
    | triggeredRest => exact (popped nofun).quiet (triggeredRest_quiet _)

theorem Awaits.exposureLeft {e : Step} (enabled : Enabled c e) (after : Awaits (c.step e)) : ExposureLeft c e := by
  have back : ∀ {ids : List Nat}, c.awaited.filter (· ∉ ids) ≠ [] → ∃ id ∈ c.awaited, id ∉ ids := by
    intro ids some
    obtain ⟨id, inside⟩ := List.exists_mem_of_ne_nil _ some
    exact ⟨id, (List.mem_filter.mp inside).1, by simpa using (List.mem_filter.mp inside).2⟩
  cases e with
  | go a => trivial
  | post e a =>
    cases e with
    | commandOK id =>
      intro flag
      rcases after flag with some | some | inside
      · exact Or.inl some
      · obtain ⟨id, inside⟩ := List.exists_mem_of_ne_nil _ some
        exact Or.inr (Or.inl ⟨id, inside, List.not_mem_nil⟩)
      · exact Or.inr (Or.inr ((List.mem_append.mp inside).resolve_left (by simp)))
    | commandLost id => exact fun flag => (after flag).imp_right (Or.imp_left back)
    | exposureFailed ids =>
      intro flag
      rcases after flag with some | some | inside
      · exact Or.inl some
      · exact Or.inr (Or.inl (back some))
      · exact Or.inr (Or.inr ((List.mem_append.mp inside).resolve_left (by simp)))
    | exposureLost ids => exact fun flag => (after flag).imp_right (Or.imp_left back)
    | setTarget | observe | scriptEnded | stopObservation | kill | nextCommand | acqusitionEnd | mirrorFinish | signal
    | triggered | commandFailed | exposureStarted | exposureEnd | readoutEnd => trivial

theorem Awaits.step (awaits : Awaits c) (e : Step) (left : ExposureLeft c e) : Awaits (c.step e) := by
  cases e with
  | post e a => exact awaits.post a e left
  | go a => exact awaits.go a

/-- In every state of a run the flag is set only while something is left to wait for, just when every command that is
answered or given up, and every failed or killed exposure, left something. -/
theorem awaits_iff (es : List Step) (enabled : Guarded step Enabled fresh es) :
    (∀ done, done <+: es → Awaits (run step fresh done)) ↔ Guarded step ExposureLeft fresh es := by
  refine prefixes_iff_guarded_enabled (P := Awaits) ?_ ?_ ?_ ?_ enabled
  · exact fun _ => id
  · exact fun _ e awaits _ left => awaits.step e left
  · exact fun _ e _ enabled after => after.exposureLeft enabled
  · intro flag
    cases flag

/-- An exposure is queued, accepted and started. -/
theorem awaits_started :
    let none := Surroundings.still (.ret .keep 0 .none)
    let es : List Step :=
      [.post (.setTarget ⟨1, 1, 1⟩) none, .go none, .go (.still (.ret .keep 0 (some ⟨true, false, false, []⟩))),
        .post (.commandOK 0) none, .go none, .go none, .post (.exposureStarted 0) none, .go none]
    (∀ done, done <+: es → Awaits (run step fresh done)) ↔ Guarded step ExposureLeft fresh es := by
  refine awaits_iff _ ?_
  decide

/-- The observation is stopped while an exposure is queued at the camera, and the kill drops it: the flag stays set. -/
theorem awaits_killed : ¬∀ es, Guarded step Enabled fresh es → ∀ done, done <+: es → Awaits (run step fresh done) := by
  intro awaits
  let none := Surroundings.still (.ret .keep 0 .none)
  let es : List Step :=
    [.post (.setTarget ⟨1, 1, 1⟩) none, .go none, .go (.still (.ret .keep 0 (some ⟨true, false, false, []⟩))),
      .post (.commandOK 0) none, .go none, .go none, .post (.kill .stopTarget .none) none,
      .post (.exposureLost [0]) none, .post (.commandOK 1) none, .go none, .go none, .go none]
  have facts : (run step fresh es).waitForExposure = true ∧ (run step fresh es).outstanding = [] ∧
      (run step fresh es).awaited = [] ∧ (run step fresh es).stack = [] := by decide
  have after := awaits es (by decide) es (List.prefix_refl es)
  generalize run step fresh es = c at facts after
  obtain ⟨flag, answered, none, stack⟩ := facts
  rcases after flag with ⟨p, inside, _⟩ | some | inside
  · rw [answered] at inside
    cases inside
  · exact some none
  · rw [stack] at inside
    cases inside

end Rts2.Exec.DevScript
