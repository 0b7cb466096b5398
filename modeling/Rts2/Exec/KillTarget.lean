import Rts2.Exec.StartedOnce

/-! The target of a kill waits for the answer of the command queued for it. -/
namespace Rts2.Exec.DevScript

open Lib

/-- Between calls a target waits only while its own command is not answered; the answer took it once, unless another kill
or target followed, and nothing else did. -/
structure KillsAnswered (c : DevScript) : Prop where
  unanswered : c.stack = [] → ∀ t, c.killTarget = some t → ∃ id, (id, t.number) ∈ c.kills ∧ id ∈ c.outstanding.map Prod.fst
  answered : c.stack = [] → ∀ id n, (id, n) ∈ c.kills →
    id ∈ c.outstanding.map Prod.fst ∨ n ∈ c.outdated ∨ (id, n) ∈ c.taken
  own : ∀ id n, (id, n) ∈ c.taken → (id, n) ∈ c.kills ∧ n ∉ c.outdated
  once : (c.taken.map Prod.snd).Nodup
  started : ∀ id n, (id, n) ∈ c.taken → n ∈ c.started ∨ n ∈ c.idle ∨ n ∈ c.disabled
  only : ∀ id n, (id, n) ∈ c.kills → n ∈ c.started → (id, n) ∈ c.taken

/-- The command of the waiting target is answered, not failed and not given up; no EVENT_KILL_ALL comes while a target
waits, no kill with a target while the answer of one is handled, and no target that followed had ended, or had no
script, when the answer comes. -/
def OneKill (c : DevScript) : Step → Prop
  | .post (.commandFailed id) _ | .post (.commandLost id) _ => c.scriptKillCommand = some id → c.killTarget = none
  | .post (.kill .killAll _) _ => .clearKill ∈ c.stack ∨ c.killTarget = none
  | .post (.kill _ arg) _ => .clearKill ∈ c.stack → arg = none
  | .post .. => True
  | .go _ => c.scriptKillCommand.isSome = true → c.stack.head? = some (.nextCommand c.scriptKillCommand) →
    c.currentTarget = none → ∀ t ∈ c.killTarget, t.number ∉ c.outdated

instance (c : DevScript) : DecidablePred (OneKill c)
  | .post (.commandFailed _) _ | .post (.commandLost _) _ => inferInstanceAs (Decidable (_ → _))
  | .post (.kill .killAll _) _ => inferInstanceAs (Decidable (_ ∨ _))
  | .post (.kill .stopTarget _) _ | .post (.kill .setTargetKill _) _ | .post (.kill .setTargetKillNotClear _) _ =>
    inferInstanceAs (Decidable (_ → _))
  | .post (.setTarget _) _ | .post .observe _ | .post (.scriptEnded _) _ | .post .stopObservation _
  | .post .nextCommand _ | .post (.acqusitionEnd _) _ | .post .mirrorFinish _ | .post (.signal _) _ | .post .triggered _
  | .post (.commandOK _) _ | .post (.exposureStarted _) _ | .post .exposureEnd _ | .post (.exposureFailed _) _
  | .post .readoutEnd _ | .post (.exposureLost _) _ => isTrue trivial
  | .go _ => inferInstanceAs (Decidable (_ → _ → _ → ∀ t ∈ _, _))

theorem mem_answered {c : DevScript} {id id' : Nat} (unanswered : id' ∈ c.outstanding.map Prod.fst) (other : id' ≠ id) :
    id' ∈ (c.answered id).outstanding.map Prod.fst := by
  obtain ⟨p, inside, rfl⟩ := List.mem_map.mp unanswered
  exact List.mem_map_of_mem ((List.mem_eraseP_of_neg (by simpa using other)).mpr inside)

/-- What the kills keep. -/
structure Kills (c : DevScript) : Prop where
  waits : Waits c
  below : ∀ n, c.Has n → n < c.assigned
  made : ∀ p ∈ c.kills, p.1 < c.made ∧ p.2 < c.assigned
  ids : (c.kills.map Prod.snd).Nodup
  scripted : .clearKill ∉ c.stack → ∀ n, c.waiting = some n → ∃ id, c.scriptKillCommand = some id ∧ (id, n) ∈ c.kills ∧
    (id ∈ c.outstanding.map Prod.fst ∨ .nextCommand (some id) ∈ c.stack)
  cleared : .clearKill ∈ c.stack → ∀ n, c.waiting = some n → n ∈ c.outdated
  busy : c.Busy → ∀ n, c.waiting = some n → n ∈ c.outdated
  settled : ∀ id n, (id, n) ∈ c.kills → c.waiting = some n ∨ n ∈ c.outdated ∨ (id, n) ∈ c.taken
  fresh : ∀ id n, (id, n) ∈ c.taken → c.waiting ≠ some n
  own : ∀ id n, (id, n) ∈ c.taken → (id, n) ∈ c.kills ∧ n ∉ c.outdated
  once : (c.taken.map Prod.snd).Nodup
  only : ∀ id n, (id, n) ∈ c.kills → c.Has n → (id, n) ∈ c.taken

variable {c : DevScript} (a : Surroundings)

theorem waiting_mem {n : Nat} : n ∈ c.waiting.toList ↔ c.waiting = some n := by
  cases c.waiting <;> simp [eq_comm]

theorem Kills.quiet {c' : DevScript} (kills : Kills c) (waits : Waits c') (quiet : Quiet c c') : Kills c' where
  waits := waits
  below n has := by
    rcases quiet.has n has with before | fresh
    · exact (kills.below n before).trans_le quiet.assigned
    · exact fresh.2
  made p inside := by
    rw [quiet.kills] at inside
    have made := kills.made p inside
    exact ⟨made.1.trans_le quiet.made, made.2.trans_le quiet.assigned⟩
  ids := quiet.kills ▸ kills.ids
  scripted outside n waiting := by
    obtain ⟨calls, _, stack⟩ := quiet.calls
    rw [quiet.waiting] at waiting
    obtain ⟨id, script, inside, unanswered⟩ :=
      kills.scripted (fun inside => outside (stack ▸ List.mem_append_right calls inside)) n waiting
    refine ⟨id, quiet.scriptKillCommand.trans script, quiet.kills ▸ inside, ?_⟩
    rw [stack]
    exact unanswered.imp (List.map_subset _ quiet.outstanding ·) (List.mem_append_right calls)
  cleared inside n waiting := by
    obtain ⟨calls, plain, stack⟩ := quiet.calls
    rw [stack] at inside
    have before := (List.mem_append.mp inside).resolve_left fun inside => plain _ inside
    exact quiet.outdated (kills.cleared before n (quiet.waiting ▸ waiting))
  busy now n waiting := by
    rw [quiet.waiting] at waiting
    rcases quiet.busy now with before | out
    · exact quiet.outdated (kills.busy before n waiting)
    · exact out (waiting_mem.mpr waiting)
  settled id n inside := by
    rw [quiet.kills] at inside
    rw [quiet.waiting, quiet.taken]
    exact (kills.settled id n inside).imp_right (Or.imp_left fun out => quiet.outdated out)
  fresh id n taken := by
    rw [quiet.taken] at taken
    rw [quiet.waiting]
    exact kills.fresh id n taken
  own id n taken := by
    rw [quiet.taken] at taken
    rw [quiet.kills]
    refine ⟨(kills.own id n taken).1, fun out => ?_⟩
    rcases List.mem_append.mp (quiet.only out) with out | waiting
    · exact (kills.own id n taken).2 out
    · exact kills.fresh id n taken (waiting_mem.mp waiting)
  once := quiet.taken ▸ kills.once
  only id n inside has := by
    rw [quiet.kills] at inside
    rw [quiet.taken]
    rcases quiet.has n has with before | fresh
    · exact kills.only id n inside before
    · exact absurd (kills.made _ inside).2 (Nat.not_lt.mpr fresh.1)

theorem Kills.event {c' : DevScript} (kills : Kills c) (between : c.stack = [] ∨ c.stack.head? = some .posting)
    (quiet : Quiet c c') : Kills c' := kills.quiet (kills.waits.quiet between quiet) quiet

theorem Kills.pop (kills : Kills c) {call : Call} {rest : List Call} (head : c.stack = call :: rest)
    (plain : call.Plain) : Kills { c with stack := rest } where
  waits := kills.waits.go_quiet head plain (Quiet.refl _)
  below := kills.below
  made := kills.made
  ids := kills.ids
  scripted outside n waiting := by
    have outside : .clearKill ∉ c.stack := by
      rw [head]
      rintro (_ | ⟨_, inside⟩)
      · exact plain
      · exact outside inside
    obtain ⟨id, script, inside, unanswered⟩ := kills.scripted outside n waiting
    refine ⟨id, script, inside, unanswered.imp_right fun inside => ?_⟩
    rw [head] at inside
    rcases List.mem_cons.mp inside with rfl | inside
    · exact plain.elim
    · exact inside
  cleared inside := kills.cleared (head ▸ List.mem_cons_of_mem call inside)
  busy := kills.busy
  settled := kills.settled
  fresh := kills.fresh
  own := kills.own
  once := kills.once
  only := kills.only

theorem Kills.resume {c' : DevScript} (kills : Kills c) {call : Call} {rest : List Call} (head : c.stack = call :: rest)
    (plain : call.Plain) (quiet : Quiet { c with stack := rest } c') : Kills c' :=
  (kills.pop head plain).quiet (kills.waits.go_quiet head plain quiet) quiet

theorem stopScript_not_busy (kind : Kill) : ¬(c.stopScript kind).Busy := by
  rintro (now | now) <;> cases now

theorem Kills.own_more (kills : Kills c) {id n : Nat} (taken : (id, n) ∈ c.taken) :
    (id, n) ∈ c.kills ∧ n ∉ c.outdated ++ c.waiting.toList := by
  refine ⟨(kills.own id n taken).1, fun out => ?_⟩
  rcases List.mem_append.mp out with out | waiting
  · exact (kills.own id n taken).2 out
  · exact kills.fresh id n taken (waiting_mem.mp waiting)

theorem Kills.settled_more (kills : Kills c) {id n : Nat} (inside : (id, n) ∈ c.kills) :
    n ∈ c.outdated ++ c.waiting.toList ∨ (id, n) ∈ c.taken := by
  rcases kills.settled id n inside with waiting | out | taken
  · exact Or.inl (List.mem_append_right _ (waiting_mem.mpr waiting))
  · exact Or.inl (List.mem_append_left _ out)
  · exact Or.inr taken

theorem Kills.killAll (kills : Kills c) (arg : Option Target) (meets : .clearKill ∈ c.stack ∨ c.killTarget = none) :
    Kills (c.setKill .killAll arg) := by
  have handled : ∀ n, c.waiting = some n → .clearKill ∈ c.stack := by
    intro n waiting
    by_contra outside
    have none := kills.waits.waiting outside
    rw [meets.resolve_left outside, waiting] at none
    cases none
  have out : ∀ n, c.waiting = some n → n ∈ c.outdated := fun n waiting => kills.cleared (handled n waiting) n waiting
  exact {
    waits := kills.waits.setKill .killAll arg
    below := kills.below
    made := fun p inside => ⟨Nat.lt_succ_of_lt (kills.made p inside).1, (kills.made p inside).2⟩
    ids := kills.ids
    scripted := fun outside n waiting => absurd (handled n waiting) outside
    cleared := fun inside n waiting => List.mem_append_left _ (out n waiting)
    busy := fun _ n waiting => List.mem_append_left _ (out n waiting)
    settled := fun id n inside => Or.inr (kills.settled_more inside)
    fresh := kills.fresh
    own := fun _ _ => kills.own_more
    once := kills.once
    only := kills.only }

theorem Kills.setKill (kills : Kills c) (idle : ¬c.Busy) {kind : Kill} (target : kind ≠ .killAll) (arg : Option Target)
    (meets : .clearKill ∈ c.stack → arg = none) : Kills (c.setKill kind arg) := by
  have waits := kills.waits.setKill kind arg
  unfold DevScript.setKill at waits ⊢
  dsimp only at waits ⊢
  rw [if_neg target] at waits ⊢
  cases arg with
  | none =>
    exact {
      waits := waits
      below := kills.below
      made := fun p inside => ⟨Nat.lt_succ_of_lt (kills.made p inside).1, (kills.made p inside).2⟩
      ids := kills.ids
      scripted := nofun
      cleared := nofun
      busy := nofun
      settled := fun id n inside => Or.inr (kills.settled_more inside)
      fresh := nofun
      own := fun _ _ => kills.own_more
      once := kills.once
      only := kills.only }
  | some t =>
    have outside : .clearKill ∉ c.stack := fun inside => Option.some_ne_none t (meets inside)
    exact {
      waits := waits
      below := fun n has => Nat.lt_succ_of_lt (kills.below n has)
      made := fun p inside => by
        rcases List.mem_append.mp inside with inside | last
        · exact ⟨Nat.lt_succ_of_lt (kills.made p inside).1, Nat.lt_succ_of_lt (kills.made p inside).2⟩
        · rw [List.mem_singleton.mp last]
          exact ⟨Nat.lt_succ_self _, Nat.lt_succ_self _⟩
      ids := by
        refine (List.map_append ▸ List.nodup_append.mpr ⟨kills.ids, List.nodup_singleton _, ?_⟩ :
          ((c.kills ++ [(c.made, c.assigned)]).map Prod.snd).Nodup)
        intro n before m last same
        obtain ⟨p, inside, rfl⟩ := List.mem_map.mp before
        have new : m = c.assigned := List.mem_singleton.mp last
        exact absurd (same.trans new) (Nat.ne_of_lt (kills.made p inside).2)
      scripted := fun _ n waiting => by
        cases waiting
        exact ⟨c.made, rfl, List.mem_append_right _ (List.mem_singleton.mpr rfl), Or.inl (by simp)⟩
      cleared := fun inside => absurd inside outside
      busy := fun busy => absurd busy idle
      settled := fun id n inside => by
        rcases List.mem_append.mp inside with inside | last
        · exact Or.inr (kills.settled_more inside)
        · cases List.mem_singleton.mp last
          exact Or.inl rfl
      fresh := fun id n taken waiting => by
        cases waiting
        exact absurd (kills.made _ (kills.own id _ taken).1).2 (Nat.lt_irrefl _)
      own := fun id n taken => ⟨List.mem_append_left _ (kills.own_more taken).1, (kills.own_more taken).2⟩
      once := kills.once
      only := fun id n inside has => by
        rcases List.mem_append.mp inside with inside | last
        · exact kills.only id n inside has
        · cases List.mem_singleton.mp last
          exact absurd (kills.below _ has) (Nat.lt_irrefl _) }

theorem Kills.clearKill (kills : Kills c) {rest : List Call} (head : c.stack = .clearKill :: rest) :
    Kills { c with stack := rest }.clearKill where
  waits := kills.waits.clearKill head
  below := kills.below
  made := kills.made
  ids := kills.ids
  scripted := nofun
  cleared := nofun
  busy := nofun
  settled id n inside := by
    rcases kills.settled id n inside with waiting | settled
    · exact Or.inr (Or.inl (kills.cleared (head ▸ List.mem_cons_self) n waiting))
    · exact Or.inr settled
  fresh := nofun
  own := kills.own
  once := kills.once
  only := kills.only

theorem Kills.untaken (kills : Kills c) {id : Nat} (alone : c.stack = [.nextCommand (some id)])
    (followed : c.currentTarget.isSome = true ∨ c.killTarget = none) :
    Kills ({ c with stack := [] }.push [.clearKill, .loop]) := by
  refine { kills with waits := ?_, scripted := ?_, cleared := fun _ n waiting => ?_ }
  · apply Waits.of_clearKill <;> simp [push]
  · exact fun outside => absurd List.mem_cons_self outside
  · rcases followed with busy | none
    · exact kills.busy (Or.inl busy) n waiting
    · have none' := kills.waits.waiting (by rw [alone]; simp)
      rw [none, show c.waiting = some n from waiting] at none'
      cases none'

theorem Kills.taken (kills : Kills c) {id : Nat} (alone : c.stack = [.nextCommand (some id)])
    (script : c.scriptKillCommand = some id) {t : Assigned} (kill : c.killTarget = some t)
    (current : t.number ∉ c.outdated) :
    Kills { c with stack := [.clearKill, .loop], waiting := none, taken := c.taken ++ [(id, t.number)] } := by
  have outside : .clearKill ∉ c.stack := by rw [alone]; simp
  have waiting : c.waiting = some t.number := by rw [← kills.waits.waiting outside, kill]; rfl
  obtain ⟨id', script', given, _⟩ := kills.scripted outside _ waiting
  cases script.symm.trans script'
  have new : ∀ {id' n}, (id', n) ∈ c.taken ++ [(id, t.number)] → (id', n) ∈ c.taken ∨ id' = id ∧ n = t.number := by
    intro id' n taken
    exact (List.mem_append.mp taken).imp_right fun last => Prod.mk.inj (List.mem_singleton.mp last)
  refine { kills with
    waits := ?_
    scripted := nofun
    cleared := nofun
    busy := nofun
    settled := fun id' n inside => ?_
    fresh := nofun
    own := fun id' n taken => ?_
    once := ?_
    only := fun id' n inside has => List.mem_append_left _ (kills.only id' n inside has) }
  · apply Waits.of_clearKill <;> simp
  · rcases kills.settled id' n inside with waits | out | taken
    · have same : t.number = n := Option.some.inj (waiting.symm.trans waits)
      subst same
      have same := List.inj_on_of_nodup_map kills.ids inside given rfl
      exact Or.inr (Or.inr (List.mem_append_right _ (List.mem_singleton.mpr same)))
    · exact Or.inr (Or.inl out)
    · exact Or.inr (Or.inr (List.mem_append_left _ taken))
  · rcases new taken with taken | ⟨rfl, rfl⟩
    · exact kills.own id' n taken
    · exact ⟨given, current⟩
  · rw [List.map_append, List.nodup_append]
    refine ⟨kills.once, List.nodup_singleton _, fun n before m last same => ?_⟩
    obtain ⟨⟨id', n'⟩, taken, rfl⟩ := List.mem_map.mp before
    rw [List.mem_singleton.mp last] at same
    cases (same : n' = t.number)
    exact kills.fresh id' _ taken waiting

theorem Kills.setNextTarget (kills : Kills c) {id : Nat} {t : Assigned} (taken : (id, t.number) ∈ c.taken)
    (waiting : c.waiting = none) : Kills (c.setNextTarget t) := by
  have given := (kills.own id _ taken).1
  have same : c.outdated ++ c.waiting.toList = c.outdated := by rw [waiting]; exact List.append_nil _
  have has : ∀ {n}, { c with nextTarget := some t }.Has n → c.Has n ∨ n = t.number := by
    rintro n (now | now | now)
    · exact Or.inl (Or.inl now)
    · exact Or.inl (Or.inr (Or.inl now))
    · exact Or.inr (by simpa [eq_comm] using now)
  unfold DevScript.setNextTarget
  dsimp only
  split
  · have less := c.targets_quiet c.currentTarget none fun t now => now.elim Or.inl nofun
    exact kills.quiet ⟨kills.waits.waiting, kills.waits.alone⟩ (less.trans (disabled_quiet _ 0 _ _))
  · rw [same]
    refine { kills with
      waits := ⟨kills.waits.waiting, kills.waits.alone⟩
      below := fun n now => ?_
      busy := fun _ n waits => ?_
      only := fun id' n inside now => ?_ }
    · rcases has now with before | rfl
      · exact kills.below n before
      · exact (kills.made _ given).2
    · cases waiting.symm.trans waits
    · rcases has now with before | rfl
      · exact kills.only id' n inside before
      · cases List.inj_on_of_nodup_map kills.ids inside given rfl
        exact taken

theorem Kills.nextCommand (kills : Kills c) {id : Nat} (alone : c.stack = [.nextCommand (some id)])
    (current : c.scriptKillCommand = some id → c.currentTarget = none →
      ∀ t, c.killTarget = some t → t.number ∉ c.outdated) :
    Kills ({ c with stack := [] }.nextCommand (some id) a) := by
  unfold DevScript.nextCommand
  split
  · rename_i trigger
    have script : c.scriptKillCommand = some id := trigger.2.symm
    dsimp only
    split
    · rename_i t idle kill
      have taken := kills.taken alone script kill (current script idle t kill)
      have next := taken.setNextTarget (List.mem_append_right _ (List.mem_singleton.mpr rfl)) rfl
      refine next.quiet ?_ ((startTarget_quiet _ a).trans (pushNextCommand_quiet _))
      apply Waits.of_clearKill <;> simp [push, startTarget_stack, setNextTarget_stack]
    · rename_i followed
      refine kills.untaken alone ?_
      cases current : c.currentTarget with
      | some t => exact Or.inl rfl
      | none =>
        cases kill : c.killTarget with
        | none => exact Or.inr rfl
        | some t => exact (followed t current kill).elim
  · rename_i other
    have outside : .clearKill ∉ c.stack := by rw [alone]; simp
    refine { kills with waits := ?_, scripted := fun _ n waiting => ?_, cleared := fun inside => ?_ }
    · refine ⟨fun _ => kills.waits.waiting outside, fun id inside => ?_⟩
      simp [push] at inside
    · obtain ⟨id', script, given, unanswered⟩ := kills.scripted outside n waiting
      refine ⟨id', script, given, Or.inl (unanswered.resolve_right fun inside => ?_)⟩
      rw [alone] at inside
      cases List.mem_singleton.mp inside
      exact other ⟨by rw [show _ = _ from script]; rfl, script.symm⟩
    · simp [push] at inside

def Begins (c : DevScript) (n : Nat) : Prop := n ∈ c.started ∨ n ∈ c.idle ∨ n ∈ c.disabled

theorem Begins.quiet {c' : DevScript} {n : Nat} (begins : Begins c n) (quiet : Quiet c c') : Begins c' n := by
  rcases begins with started | idle | disabled
  · exact Or.inl (quiet.started.subset started)
  · exact Or.inr (Or.inl (quiet.idle idle))
  · exact Or.inr (Or.inr (quiet.disabled disabled))

theorem Begins.setNextTarget {n : Nat} (begins : Begins c n) (t : Assigned) : Begins (c.setNextTarget t) n := by
  unfold DevScript.setNextTarget
  dsimp only
  split
  · exact begins.imp_right (Or.imp_right (List.mem_append_left _))
  · exact begins

theorem startTarget_begins (idle : c.currentTarget = none) {t : Assigned} (next : c.nextTarget = some t) :
    Begins (c.startTarget a) t.number := by
  rw [startTarget_of_none a idle, next, Option.elim_some, startCurrent]
  dsimp only
  split
  · exact Or.inr (Or.inl (List.mem_append_right _ (List.mem_singleton.mpr rfl)))
  · exact Or.inl (List.mem_append_right _ (List.mem_singleton.mpr rfl))

theorem setNextTarget_begins (idle : c.currentTarget = none) (t : Assigned) :
    Begins ((c.setNextTarget t).startTarget a) t.number := by
  have idle' := (setNextTarget_currentTarget t).trans idle
  by_cases ignored : t.target.targetID = c.dont_execute_for ∧ t.target.obsId = c.dont_execute_for_obsid
  · refine Begins.quiet (Or.inr (Or.inr ?_)) (startTarget_quiet _ a)
    unfold DevScript.setNextTarget
    dsimp only
    rw [if_pos ignored]
    exact List.mem_append_right _ (List.mem_singleton.mpr rfl)
  · refine startTarget_begins a idle' ?_
    unfold DevScript.setNextTarget
    dsimp only
    rw [if_neg ignored]

theorem setNextTarget_taken (t : Assigned) : (c.setNextTarget t).taken = c.taken := by
  unfold DevScript.setNextTarget; dsimp only; split <;> rfl

def Begun (c : DevScript) : Prop := ∀ id n, (id, n) ∈ c.taken → Begins c n

theorem Begun.quiet {c' : DevScript} (begun : Begun c) (quiet : Quiet c c') : Begun c' :=
  fun id n taken => (begun id n (quiet.taken ▸ taken)).quiet quiet

theorem Begun.startNext (begun : Begun c) {id : Nat} {t : Assigned} (idle : c.currentTarget = none) :
    Begun (({ c with waiting := none, taken := c.taken ++ [(id, t.number)] }.setNextTarget t).startTarget a) := by
  intro id' n taken
  have quiet := startTarget_quiet ({ c with waiting := none, taken := c.taken ++ [(id, t.number)] }.setNextTarget t) a
  rw [quiet.taken, setNextTarget_taken] at taken
  rcases List.mem_append.mp taken with taken | last
  · have before : Begins { c with waiting := none, taken := c.taken ++ [(id, t.number)] } n := begun id' n taken
    exact (before.setNextTarget t).quiet quiet
  · cases List.mem_singleton.mp last
    exact setNextTarget_begins a (c := { c with waiting := none, taken := c.taken ++ [(id, t.number)] }) idle t

theorem Begun.nextCommand (begun : Begun c) (id : Nat) : Begun (c.nextCommand (some id) a) := by
  have pushed : Begun (c.push [.clearKill, .loop]) := begun
  unfold DevScript.nextCommand
  split
  · dsimp only
    split
    · rename_i t idle kill
      exact pushed.startNext a idle
    · exact begun
  · exact begun

theorem Begun.setKill (begun : Begun c) (kind : Kill) (arg : Option Target) : Begun (c.setKill kind arg) := by
  unfold DevScript.setKill
  dsimp only
  split
  · exact begun
  · cases arg <;> exact begun

theorem Kills.answered (kills : Kills c) {id : Nat} (meets : c.scriptKillCommand = some id → c.killTarget = none) :
    Kills (c.answered id) := by
  refine { kills with waits := ⟨kills.waits.waiting, kills.waits.alone⟩, scripted := fun outside n waiting => ?_ }
  obtain ⟨id', script, given, unanswered⟩ := kills.scripted outside n waiting
  have other : id' ≠ id := by
    rintro rfl
    have none := kills.waits.waiting outside
    rw [meets script, show c.waiting = some n from waiting] at none
    cases none
  refine ⟨id', script, given, unanswered.imp_left fun inside => ?_⟩
  exact mem_answered inside other

theorem Kills.commandOK (kills : Kills c) (none : c.stack = []) (id : Nat) :
    Kills ((c.answered id).push [.nextCommand (some id)]) := by
  have waits : Waits (c.answered id) := ⟨kills.waits.waiting, kills.waits.alone⟩
  have stack : ((c.answered id).push [.nextCommand (some id)]).stack = [.nextCommand (some id)] := by
    simp [push, DevScript.answered, none]
  refine { kills with waits := waits.push_answer none id, scripted := fun _ n waiting => ?_, cleared := fun inside => ?_ }
  · obtain ⟨id', script, given, unanswered⟩ := kills.scripted (none ▸ List.not_mem_nil) n waiting
    refine ⟨id', script, given, ?_⟩
    rw [stack]
    by_cases same : id' = id
    · exact Or.inr (same ▸ List.mem_cons_self)
    · refine Or.inl (mem_answered (unanswered.resolve_right fun inside => ?_) same)
      rw [none] at inside
      cases inside
  · rw [stack] at inside
    cases List.mem_singleton.mp inside

theorem Kills.noLonger (kills : Kills c) (ids : List Nat) : Kills (c.noLonger ids) :=
  { kills with waits := ⟨kills.waits.waiting, kills.waits.alone⟩ }

theorem Kills.post (kills : Kills c) (e : ScriptEvent) (enabled : Enabled c (.post e a)) (meets : OneKill c (.post e a)) :
    Kills (c.post a e) := by
  cases e with
  | kill kind arg =>
    have quiet := c.stopScript_quiet kind
    have stopped := kills.event enabled quiet
    have handled : .clearKill ∈ (c.stopScript kind).stack ↔ .clearKill ∈ c.stack := by
      obtain ⟨calls, plain, stack⟩ := quiet.calls
      rw [stack, List.mem_append]
      exact or_iff_right fun inside => plain _ inside
    have one : kind ≠ .killAll → Kills (c.kill kind arg) := by
      intro target
      refine stopped.setKill (stopScript_not_busy kind) target arg fun inside => ?_
      cases kind with
      | killAll => exact absurd rfl target
      | stopTarget | setTargetKill | setTargetKillNotClear => exact meets (handled.mp inside)
    cases kind with
    | killAll => exact stopped.killAll arg (meets.imp handled.mpr quiet.killTarget.trans)
    | stopTarget | setTargetKill | setTargetKillNotClear => exact one nofun
  | commandOK id => exact kills.commandOK enabled.1 id
  | commandFailed id =>
    have failed : Kills { (c.answered id).noLonger [id] with waitForExposure := false } :=
      { (kills.answered meets).noLonger [id] with waits := ⟨kills.waits.waiting, kills.waits.alone⟩ }
    exact failed.event (Or.inl enabled.1) (pushNextCommand_quiet _)
  | commandLost id => exact (kills.answered meets).noLonger [id]
  | exposureStarted id => exact (kills.noLonger [id]).event (Or.inl enabled) (exposureStarted_quiet _)
  | exposureFailed ids => exact (kills.noLonger ids).event (Or.inl enabled) (pushNextCommand_quiet _)
  | exposureLost ids => exact kills.noLonger ids
  | triggered => exact kills.event (Or.inl enabled) (c.post_quiet a .triggered trivial)
  | exposureEnd => exact kills.event (Or.inl enabled) (c.post_quiet a .exposureEnd trivial)
  | readoutEnd => exact kills.event (Or.inl enabled) (c.post_quiet a .readoutEnd trivial)
  | setTarget t => exact kills.event enabled (c.post_quiet a (.setTarget t) trivial)
  | observe => exact kills.event enabled (c.post_quiet a .observe trivial)
  | scriptEnded arg => exact kills.event enabled (c.post_quiet a (.scriptEnded arg) trivial)
  | stopObservation => exact kills.event enabled (c.post_quiet a .stopObservation trivial)
  | nextCommand => exact kills.event enabled (c.post_quiet a .nextCommand trivial)
  | acqusitionEnd acqEnd => exact kills.event enabled (c.post_quiet a (.acqusitionEnd acqEnd) trivial)
  | mirrorFinish => exact kills.event enabled (c.post_quiet a .mirrorFinish trivial)
  | signal sig => exact kills.event enabled (c.post_quiet a (.signal sig) trivial)

theorem Kills.go (kills : Kills c) (enabled : Enabled c (.go a)) (meets : OneKill c (.go a)) : Kills (c.go a) := by
  obtain ⟨call, rest, head⟩ := List.exists_cons_of_ne_nil enabled
  have quiet := fun plain => kills.resume head plain (resume_quiet _ a call plain)
  rw [go_of_head c a head]
  cases call with
  | nextCommand triggerCommand =>
    cases triggerCommand with
    | none => exact quiet trivial
    | some id =>
      have alone := kills.waits.alone id (head ▸ List.mem_cons_self)
      obtain ⟨_, rfl⟩ := List.cons.inj (head.symm.trans alone)
      refine kills.nextCommand a alone fun script idle t kill => ?_
      exact meets (by rw [script]; rfl) (by rw [alone, script]; rfl) idle t kill
  | clearKill => exact kills.clearKill head
  | posting | loop | startAfterEnd | exposureStartedRest | exposureEndRest | triggeredRest => exact quiet trivial

theorem Begun.post (begun : Begun c) (e : ScriptEvent) : Begun (c.post a e) := by
  cases e with
  | kill kind arg => exact (begun.quiet (c.stopScript_quiet kind)).setKill kind arg
  | commandOK id | commandFailed id | commandLost id | exposureFailed ids | exposureLost ids => exact begun
  | exposureStarted id => exact begun
  | triggered => exact begun.quiet (c.post_quiet a .triggered trivial)
  | exposureEnd => exact begun.quiet (c.post_quiet a .exposureEnd trivial)
  | readoutEnd => exact begun.quiet (c.post_quiet a .readoutEnd trivial)
  | setTarget t => exact begun.quiet (c.post_quiet a (.setTarget t) trivial)
  | observe => exact begun.quiet (c.post_quiet a .observe trivial)
  | scriptEnded arg => exact begun.quiet (c.post_quiet a (.scriptEnded arg) trivial)
  | stopObservation => exact begun.quiet (c.post_quiet a .stopObservation trivial)
  | nextCommand => exact begun.quiet (c.post_quiet a .nextCommand trivial)
  | acqusitionEnd acqEnd => exact begun.quiet (c.post_quiet a (.acqusitionEnd acqEnd) trivial)
  | mirrorFinish => exact begun.quiet (c.post_quiet a .mirrorFinish trivial)
  | signal sig => exact begun.quiet (c.post_quiet a (.signal sig) trivial)

theorem Begun.go (begun : Begun c) : Begun (c.go a) := by
  cases head : c.stack with
  | nil =>
    unfold DevScript.go
    rw [head]
    exact begun
  | cons call rest =>
    have popped : Begun { c with stack := rest } := begun
    rw [go_of_head c a head]
    cases call with
    | nextCommand triggerCommand =>
      cases triggerCommand with
      | none => exact popped.quiet (resume_quiet _ a (.nextCommand none) trivial)
      | some id => exact popped.nextCommand a id
    | clearKill => exact popped
    | posting => exact popped
    | loop => exact popped.quiet (loop_quiet _ a)
    | startAfterEnd => exact popped.quiet (startAfterEnd_quiet _ a)
    | exposureStartedRest => exact popped.quiet (exposureStartedRest_quiet _)
    | exposureEndRest => exact popped.quiet (exposureEndRest_quiet _ a)
    | triggeredRest => exact popped.quiet (triggeredRest_quiet _)

theorem kills_fresh : Kills DevScript.fresh where
  waits := Accounted.fresh.waits
  below n has := by simp [Has, DevScript.fresh] at has
  made := by simp [DevScript.fresh]
  ids := List.nodup_nil
  scripted := nofun
  cleared := nofun
  busy := nofun
  settled := by simp [DevScript.fresh]
  fresh := nofun
  own := by simp [DevScript.fresh]
  once := List.nodup_nil
  only := by simp [DevScript.fresh]

theorem Kills.answeredAll (kills : Kills c) (begun : Begun c) : KillsAnswered c where
  unanswered none t kill := by
    have outside : .clearKill ∉ c.stack := none ▸ List.not_mem_nil
    have waiting : c.waiting = some t.number := by rw [← kills.waits.waiting outside, kill]; rfl
    obtain ⟨id, _, given, unanswered⟩ := kills.scripted outside _ waiting
    exact ⟨id, given, unanswered.resolve_right fun inside => List.not_mem_nil (none ▸ inside)⟩
  answered none id n inside := by
    refine (kills.settled id n inside).imp_left fun waiting => ?_
    obtain ⟨id', _, given, unanswered⟩ := kills.scripted (none ▸ List.not_mem_nil) n waiting
    cases List.inj_on_of_nodup_map kills.ids inside given rfl
    exact unanswered.resolve_right fun inside => List.not_mem_nil (none ▸ inside)
  own := kills.own
  once := kills.once
  started := begun
  only id n inside started := kills.only id n inside (Or.inl started)

theorem kills_answered (es : List Step) (enabled : Guarded step Enabled fresh es) (meets : Guarded step OneKill fresh es) :
    KillsAnswered (run step fresh es) := by
  have kept := run_invariant step (fun c e => Enabled c e ∧ OneKill c e) (fun c => Kills c ∧ Begun c) ?_ fresh es
    ⟨kills_fresh, fun _ _ taken => (List.not_mem_nil taken).elim⟩ (guarded_and.mpr ⟨enabled, meets⟩)
  · exact kept.1.answeredAll kept.2
  · rintro c (⟨e, a⟩ | a) ⟨kills, begun⟩ ⟨enabled, meets⟩
    · exact ⟨kills.post a e enabled meets, begun.post a e⟩
    · exact ⟨kills.go a enabled meets, begun.go a⟩

/-- A kill with a target, and another before the first is answered; the answers come in order. -/
theorem kills_answered_two :
    let none := Surroundings.still (.ret .keep 0 .none)
    KillsAnswered (run step fresh
      [.post (.setTarget ⟨1, 1, 1⟩) none, .go none, .go none, .post (.kill .setTargetKill (some ⟨2, 2, 2⟩)) none,
        .post (.kill .setTargetKillNotClear (some ⟨3, 3, 3⟩)) none, .post (.commandOK 0) none, .go none, .go none,
        .post (.commandOK 1) none, .go none, .go none, .go none, .go none, .go none]) := by
  refine kills_answered _ ?_ ?_
  · decide
  · decide

/-- The kill command fails, and its target waits on. -/
theorem kill_failed : ¬∀ es, Guarded step Enabled fresh es → KillsAnswered (run step fresh es) := by
  intro answered
  let none := Surroundings.still (.ret .keep 0 .none)
  have failed := answered
    [.post (.kill .setTargetKill (some ⟨1, 1, 1⟩)) none, .post (.commandFailed 0) none, .go none, .go none]
    (by decide)
  obtain ⟨id, _, unanswered⟩ := failed.unanswered rfl ⟨⟨1, 1, 1⟩, 0⟩ rfl
  exact absurd unanswered (List.not_mem_nil)

end Rts2.Exec.DevScript
