import Rts2.Teld.Corrections

/-! The offset of a target is kept twice, as the one in force and the one that waits for the next move. What a client asked
for is counted beside, and compared with what each started move uses. -/
namespace Rts2.Teld.Telescope

open Lib

variable {P A : Type} [DecidableEq P] [AddCommGroup A] [DecidableEq A]

/-- The state in which the target of an event is set; parking forgets a minor planet. -/
def targetSet (m : Telescope P A) : Event P A → Option (Telescope P A)
  | .move p _ | .resync p _ => some ((m.setOri (some p)).setMpec "")
  | .moveMpec orbit _ _ => some (m.setMpec orbit)
  | .altAz none _ => some (m.setMpec "")
  | .altAz (some p) _ => some ((m.setMpec "").setOri (some p))
  | .writeOri p _ => if p ≠ none ∧ m.ori = p then none else some ((m.setOri p).setMpec "")
  | .writeMpec orbit valid _ => if m.mpec = orbit ∨ valid = false then none else some (m.setMpec orbit)
  | .writeTarAltAz (some p) _ => some (m.setOri (some p))
  | .park _ => if m.moving = .parking ∨ m.blockMove then none else some (m.setMpec "")
  | .masterState new _ =>
    let stopped := m.stopRule new
    if stopped.parksOnStandby new = false ∨ stopped.moving = .parking ∨ stopped.blockMove then none
    else some (m.setMpec "")
  | _ => none

/-- The offset an event asks for; a change that is answered with an error asks for none. -/
def written (m : Telescope P A) (asked : A) : Event P A → Option A
  | .writeOffs a _ | .writeWoffs a => some a
  | .scriptEnds => some 0
  | e@(.change a _) => some (if (m.step e).lastMove = some true then asked + a else asked)
  | _ => none

/-- The offset that was asked for since the last new target, or the last park: the value that was written last, and the
changes behind it. -/
def expected (m : Telescope P A) (asked : A) (e : Event P A) : A :=
  match m.written asked e with
  | some a => a
  | none =>
    if (m.step e).moveNum ≠ m.moveNum ∧ (m.step e).lastMove = none then 0
    else match m.targetSet e with
      | some t => if t.newTarget then 0 else asked
      | none => asked

def Books : Telescope P A → A → List (Event P A) → Prop
  | _, _, [] => True
  | m, asked, e :: es =>
    ((m.step e).lastMove = some true → (m.step e).offs = m.expected asked e) ∧
      Books (m.step e) (m.expected asked e) es

instance (m : Telescope P A) : Decidable m.Located := inferInstanceAs (Decidable (_ ∨ _))

def takes (m : Telescope P A) (o : Outcome P) : Bool :=
  decide m.Located && !m.refuses o && o.accessible && o.starts

def Pending (m : Telescope P A) : Prop := m.Located ∧ m.newTarget = true

/-- No offset is written or changed for a target whose move did not start; OFFS is written when no offset waits; one that
is written to wait is another than the one before, or already asked for; a change is started, and adds to one offset, or
adds nothing; and a target that is set in place of one whose move did not start is new. -/
def Regular (m : Telescope P A) (e : Event P A) : Prop :=
  match e with
  | .writeOffs _ _ => ¬m.Pending ∧ m.woffsChanged = false
  | .writeWoffs a => ¬m.Pending ∧ (m.woffs = a → m.woffsChanged = true ∨ m.offs = a)
  | .scriptEnds => ¬m.Pending ∧ (m.woffs = 0 → m.woffsChanged = true ∨ m.offs = 0)
  | .change a o => ¬m.Pending ∧ ((m.woffsChanged = true ∨ m.woffs = m.offs) ∧ m.takes o = true ∨ a = 0)
  | e => m.Pending → ∀ t, m.targetSet e = some t → t.newTarget = true

def inForce (m : Telescope P A) : A := if m.woffsChanged then m.woffs else m.offs

/-- What was asked for is in force, or nothing is when the move is still to be numbered. -/
def Booked (m : Telescope P A) (asked : A) : Prop :=
  m.Located → if m.newTarget then asked = 0 else m.inForce = asked

def book (m : Telescope P A) : A × A × Bool × Option P × Bool × String × Bool × Option Bool × Nat :=
  (m.offs, m.woffs, m.woffsChanged, m.ori, m.oriChanged, m.mpec, m.mpecChanged, m.lastMove, m.moveNum)

variable {m n t : Telescope P A} {asked : A}

omit [DecidableEq P] [DecidableEq A] in
theorem Booked.same (booked : Booked m asked) (same : book n = book m) : Booked n asked := by
  simp only [book, Prod.mk.injEq] at same
  obtain ⟨offs, woffs, changed, ori, oriChanged, mpec, mpecChanged, -⟩ := same
  simp only [Booked, Located, newTarget, inForce, offs, woffs, changed, ori, oriChanged, mpec, mpecChanged]
  exact booked

theorem stopTracking_book (m : Telescope P A) (stopMsg : Bool) : book (m.stopTracking stopMsg) = book m := by
  obtain ⟨_, _, _, stopped⟩ := m.stopTracking_eq stopMsg
  rw [stopped]
  rfl

theorem setTracking_book (m : Telescope P A) (track : Nat) : book (m.setTracking track true false) = book m := by
  obtain ⟨_, _, _, _, set⟩ := m.setTracking_eq track true false
  rw [set]
  rfl

theorem startTracking_book (m : Telescope P A) (check : Bool) : book (m.startTracking check) = book m := by
  obtain ⟨_, _, _, _, started⟩ := m.startTracking_eq check
  rw [started]
  rfl

omit [DecidableEq P] [DecidableEq A] in
theorem renumbered_inForce (m : Telescope P A) : m.renumbered.inForce = if m.newTarget then 0 else m.inForce := by
  unfold renumbered
  split <;> rfl

/-- What a try to move leaves; only a started one settles the target. -/
structure Tried (m n : Telescope P A) (ok : Bool) : Prop where
  inForce : n.inForce = m.renumbered.inForce
  mpec : n.mpec = m.mpec
  started : ok = true → n.offs = m.renumbered.inForce ∧ n.newTarget = false
  failed : ok = false → n.mpecChanged = m.mpecChanged ∧ (n.ori = none ∨ n.ori = m.ori ∧ n.oriChanged = m.oriChanged)

omit [DecidableEq P] [DecidableEq A] in
theorem corrected_inForce (m : Telescope P A) : m.corrected.inForce = m.inForce ∧ m.corrected.offs = m.inForce := by
  unfold corrected inForce
  dsimp only
  split_ifs <;> simp_all

omit [DecidableEq P] [DecidableEq A] in
theorem prepared_target (m : Telescope P A) : m.renumbered.corrected.mpec = m.mpec ∧
    m.renumbered.corrected.mpecChanged = m.mpecChanged ∧ m.renumbered.corrected.ori = m.ori ∧
    m.renumbered.corrected.oriChanged = m.oriChanged := by
  unfold renumbered corrected
  dsimp only
  split_ifs <;> exact ⟨rfl, rfl, rfl, rfl⟩

/-- What a failed try leaves of the offsets and the target. -/
structure Left (m n : Telescope P A) : Prop where
  offs : n.offs = m.offs
  woffs : n.woffs = m.woffs
  woffsChanged : n.woffsChanged = m.woffsChanged
  mpec : n.mpec = m.mpec
  mpecChanged : n.mpecChanged = m.mpecChanged
  ori : n.ori = none ∨ n.ori = m.ori ∧ n.oriChanged = m.oriChanged

omit [DecidableEq P] [DecidableEq A] in
theorem Left.tried (left : Left m.renumbered.corrected n) : Tried m n false := by
  obtain ⟨mpec, mpecChanged, ori, oriChanged⟩ := m.prepared_target
  have same : n.inForce = m.renumbered.corrected.inForce := by
    simp only [inForce, left.offs, left.woffs, left.woffsChanged]
  refine ⟨same.trans (corrected_inForce _).1, left.mpec.trans mpec, fun started => Bool.noConfusion started, fun _ => ?_⟩
  refine ⟨left.mpecChanged.trans mpecChanged, left.ori.imp_right fun kept => ?_⟩
  exact ⟨kept.1.trans ori, kept.2.trans oriChanged⟩

omit [DecidableEq P] [DecidableEq A] in
theorem rollback_left (left : Left m n) (before : Telescope P A) : Left m (n.rollback before) := by
  obtain ⟨offs, woffs, woffsChanged, mpec, mpecChanged, ori⟩ := left
  unfold rollback
  split
  · exact ⟨offs, woffs, woffsChanged, mpec, mpecChanged, ori⟩
  · exact ⟨offs, woffs, woffsChanged, mpec, mpecChanged, ori⟩

theorem inaccessible_left (m : Telescope P A) : Left m m.inaccessible := by
  obtain ⟨_, _, _, stopped⟩ := (m.setOri none).stopTracking_eq false
  unfold inaccessible
  rw [stopped]
  exact ⟨rfl, rfl, rfl, rfl, rfl, .inl rfl⟩

theorem movementFailed_left (m : Telescope P A) : Left m m.movementFailed := by
  obtain ⟨_, _, _, stopped⟩ := m.stopTracking_eq false
  unfold movementFailed
  rw [stopped]
  exact ⟨rfl, rfl, rfl, rfl, rfl, .inr ⟨rfl, rfl⟩⟩

omit [DecidableEq P] [AddCommGroup A] [DecidableEq A] in
theorem told_left (m : Telescope P A) (correction : Bool) :
    Left m { (m.moveStarted correction).call .startResync with arrived := none } := by
  cases correction <;> exact ⟨rfl, rfl, rfl, rfl, rfl, .inr ⟨rfl, rfl⟩⟩

omit [DecidableEq P] [AddCommGroup A] [DecidableEq A] in
theorem Left.trans {k : Telescope P A} (first : Left m n) (second : Left n k) : Left m k := by
  refine ⟨second.offs.trans first.offs, second.woffs.trans first.woffs, second.woffsChanged.trans first.woffsChanged,
    second.mpec.trans first.mpec, second.mpecChanged.trans first.mpecChanged, ?_⟩
  rcases second.ori with none_ | ⟨ori, changed⟩
  · exact .inl none_
  · exact first.ori.imp ori.trans fun kept => ⟨ori.trans kept.1, changed.trans kept.2⟩

theorem resync_tried (m : Telescope P A) (o : Outcome P) (correction : Bool) :
    Tried m (m.resync o correction).1 (m.resync o correction).2 ∧
      (m.refuses o = false → o.accessible = true → o.starts = true → (m.resync o correction).2 = true) := by
  have told := told_left m.renumbered.corrected correction
  unfold resync
  rw [← m.prepared_refuses o]
  dsimp only
  split
  · rename_i refused
    have still : Left m.renumbered.corrected m.renumbered.corrected := ⟨rfl, rfl, rfl, rfl, rfl, .inr ⟨rfl, rfl⟩⟩
    exact ⟨(rollback_left still _).tried, fun allowed => Bool.noConfusion (refused.symm.trans allowed)⟩
  · split
    · rename_i below
      exact ⟨(rollback_left (inaccessible_left _) _).tried, fun _ above => Bool.noConfusion (below.symm.trans above)⟩
    · cases o.starts with
      | true =>
        refine ⟨⟨?_, told.mpec.trans m.prepared_target.1, fun _ => ⟨?_, ?_⟩, fun failed => Bool.noConfusion failed⟩,
          fun _ _ _ => rfl⟩
        · exact told.offs.trans (corrected_inForce _).2
        · exact told.offs.trans (corrected_inForce _).2
        · simp [newTarget, moves]
      | false =>
        exact ⟨(rollback_left (told.trans (movementFailed_left _)) _).tried, fun _ _ starts => Bool.noConfusion starts⟩

omit [DecidableEq P] [DecidableEq A] in
theorem Tried.booked {ok : Bool} (tried : Tried m n ok) (located : m.Located) (booked : Booked m asked) :
    Booked n asked ∧ (ok = true → n.offs = asked) := by
  have before := booked located
  have same : m.renumbered.inForce = asked := by
    rw [renumbered_inForce]
    split at before
    · rename_i new
      rw [if_pos new, before]
    · rename_i old
      rw [if_neg old, before]
  refine ⟨fun known => ?_, fun started => (tried.started started).1.trans same⟩
  split
  · rename_i new
    cases ok with
    | true => exact Bool.noConfusion (new.symm.trans (tried.started rfl).2)
    | false =>
      obtain ⟨mpecChanged, ori⟩ := tried.failed rfl
      have pending : m.newTarget = true := by
        unfold newTarget at new ⊢
        rw [tried.mpec, mpecChanged] at new
        split
        · rename_i planet
          rwa [if_pos planet] at new
        · rename_i fixed
          rw [if_neg fixed] at new
          have empty : n.mpec = "" := tried.mpec.trans (not_not.mp fixed)
          rcases ori with none_ | ⟨-, changed⟩
          · exact absurd none_ (known.resolve_left (not_not.mpr empty))
          · rwa [changed] at new
      rwa [if_pos pending] at before
  · exact tried.inForce.trans same

theorem targeted_booked (booked : Booked m asked) (orbit : P) : Booked (m.targeted orbit) asked := by
  intro located
  have known : m.Located := by
    unfold Located targeted at located
    dsimp only at located
    split at located
    · rename_i planet
      exact .inl planet
    · exact located
  have same : (m.targeted orbit).inForce = m.inForce := by
    unfold targeted
    dsimp only
    split <;> rfl
  rw [targeted_newTarget, same]
  exact booked known

theorem startResyncMove_booked (booked : Booked m asked) (o : Outcome P) (correction : Bool) :
    Booked (m.startResyncMove o correction).1 asked ∧
      ((m.startResyncMove o correction).1.lastMove = some true → (m.startResyncMove o correction).1.offs = asked) := by
  have targets := targeted_booked booked o.orbit
  unfold startResyncMove
  dsimp only
  split
  · exact ⟨fun located => targets located, fun started => by simp at started⟩
  · rename_i known
    obtain ⟨left, uses⟩ := ((m.targeted o.orbit).resync_tried o correction).1.booked (.inr known) targets
    exact ⟨fun located => left located, fun started => uses (Option.some.inj started)⟩

theorem startResyncMove_answers (m : Telescope P A) (o : Outcome P) (correction : Bool) :
    (m.startResyncMove o correction).1.lastMove ≠ none ∧
      (m.takes o = true → (m.startResyncMove o correction).1.lastMove = some true) := by
  unfold startResyncMove
  dsimp only
  split
  · rename_i unknown
    refine ⟨nofun, fun takes => ?_⟩
    simp only [Telescope.takes, Bool.and_eq_true, decide_eq_true_eq] at takes
    exact absurd unknown ((m.targeted_located o.orbit).mpr takes.1.1.1)
  · refine ⟨nofun, fun takes => ?_⟩
    simp only [Telescope.takes, Bool.and_eq_true, Bool.not_eq_true'] at takes
    obtain ⟨⟨⟨-, allowed⟩, accessible⟩, starting⟩ := takes
    rw [← m.targeted_refuses o.orbit o] at allowed
    exact congrArg some (((m.targeted o.orbit).resync_tried o correction).2 allowed accessible starting)

/-- A target is set, which is new where none was known. -/
structure Sets (m t : Telescope P A) : Prop where
  inForce : t.inForce = m.inForce
  fresh : ¬m.Located → t.Located → t.newTarget = true

omit [AddCommGroup A] [DecidableEq A] in
theorem setOri_sets (m : Telescope P A) (p : Option P) : Sets m (m.setOri p) := by
  refine ⟨rfl, fun unknown known => ?_⟩
  simp only [Located, not_or, not_not] at unknown
  have some_ : p ≠ none := known.resolve_left (not_not.mpr unknown.1)
  have other : m.ori ≠ p := fun same => some_ (same.symm.trans unknown.2)
  simp [newTarget, setOri, unknown.1, other]

omit [DecidableEq P] [AddCommGroup A] [DecidableEq A] in
theorem setMpec_sets (m : Telescope P A) (orbit : String) : Sets m (m.setMpec orbit) := by
  refine ⟨rfl, fun unknown known => ?_⟩
  simp only [Located, not_or, not_not] at unknown
  have some_ : orbit ≠ "" := known.resolve_right (not_not.mpr unknown.2)
  simp [newTarget, setMpec, unknown.1, some_, some_.symm]

omit [AddCommGroup A] [DecidableEq A] in
theorem setBoth_sets (m : Telescope P A) (p : Option P) : Sets m ((m.setOri p).setMpec "") := by
  refine ⟨rfl, fun unknown known => ?_⟩
  simp only [Located, not_or, not_not] at unknown
  have some_ : p ≠ none := known.resolve_left fun planet => planet rfl
  have other : m.ori ≠ p := fun same => some_ (same.symm.trans unknown.2)
  simp [newTarget, setOri, setMpec, other]

omit [DecidableEq P] [DecidableEq A] in
theorem Sets.booked (sets : Sets m t) (booked : Booked m asked) (regular : m.Pending → t.newTarget = true) :
    Booked t (if t.newTarget then 0 else asked) := by
  intro known
  split
  · rfl
  · rename_i old
    have located : m.Located := by
      by_contra unknown
      exact old (sets.fresh unknown known)
    have before := booked located
    rw [if_neg fun new => old (regular ⟨located, new⟩)] at before
    exact sets.inForce.trans before

section Steps

variable {e : Event P A}

theorem expected_kept (unwritten : m.written asked e = none) (unset : m.targetSet e = none)
    (number : (m.step e).moveNum = m.moveNum ∨ (m.step e).lastMove ≠ none) : m.expected asked e = asked := by
  have none_ : ¬((m.step e).moveNum ≠ m.moveNum ∧ (m.step e).lastMove = none) := fun both =>
    number.elim both.1 fun tried => tried both.2
  simp only [expected, unwritten, unset, if_neg none_]

theorem expected_set (unwritten : m.written asked e = none) (set : m.targetSet e = some t)
    (number : (m.step e).moveNum = m.moveNum ∨ (m.step e).lastMove ≠ none) :
    m.expected asked e = if t.newTarget then 0 else asked := by
  have none_ : ¬((m.step e).moveNum ≠ m.moveNum ∧ (m.step e).lastMove = none) := fun both =>
    number.elim both.1 fun tried => tried both.2
  simp only [expected, unwritten, set, if_neg none_]

theorem step_quiet (quiet : m.lastMove = none) (e : Event P A) : m.step e = m.handle e := by
  cases m
  subst quiet
  rfl

theorem moveTo_book (m : Telescope P A) (o : Outcome P) :
    book (m.moveTo o) = book ((m.startTracking true).startResyncMove o false).1 := by
  unfold moveTo
  dsimp only
  split
  · rfl
  · exact stopTracking_book _ true

/-- An event that tries to move leaves what the try leaves, and the state it is tried in has what is asked for. -/
theorem tries_booked (booked : Booked m asked) (regular : Regular m e) {o : Outcome P} {correction : Bool}
    (trying : m.tries e = some (t, o, correction)) : book (m.handle e) = book (t.startResyncMove o correction).1 ∧
      ((m.step e).lastMove ≠ none → (t.takes o = true → (m.step e).lastMove = some true) →
        Booked t (m.expected asked e)) := by
  have sets {t' : Telescope P A} (unwritten : m.written asked e = none) (set : m.targetSet e = some t') (sets : Sets m t')
      (regular : m.Pending → ∀ t, m.targetSet e = some t → t.newTarget = true) (same : book t = book t')
      (tried : (m.step e).lastMove ≠ none) : Booked t (m.expected asked e) := by
    rw [expected_set unwritten set (.inr tried)]
    exact (sets.booked booked fun pending => regular pending t' set).same same
  cases e with
  | move p o' =>
    cases trying
    exact ⟨moveTo_book _ _, fun tried _ => sets rfl rfl (setBoth_sets m _) regular (startTracking_book _ _) tried⟩
  | moveMpec orbit valid o' =>
    cases valid with
    | false => cases trying
    | true =>
      cases trying
      exact ⟨moveTo_book _ _, fun tried _ => sets rfl rfl (setMpec_sets m _) regular (startTracking_book _ _) tried⟩
  | altAz p o' =>
    cases p with
    | none => cases trying
    | some p =>
      cases trying
      obtain ⟨_, _, _, stopped⟩ := (m.setMpec "").stopTracking_eq true
      exact ⟨rfl, fun tried _ => sets rfl rfl (setBoth_sets m (some p)) regular (by rw [stopped]; rfl) tried⟩
  | resync p o' =>
    cases trying
    exact ⟨rfl, fun tried _ => sets rfl rfl (setBoth_sets m _) regular rfl tried⟩
  | writeOri p o' =>
    simp only [tries] at trying
    split at trying
    · cases trying
    · rename_i differs
      cases trying
      simp only [handle, if_neg differs]
      exact ⟨trivial, fun tried _ => sets rfl (if_neg differs) (setBoth_sets m _) regular rfl tried⟩
  | writeMpec orbit valid o' =>
    simp only [tries] at trying
    split at trying
    · cases trying
    · rename_i differs
      cases trying
      simp only [handle, if_neg differs]
      exact ⟨trivial, fun tried _ => sets rfl (if_neg differs) (setMpec_sets m _) regular rfl tried⟩
  | writeTarAltAz p o' =>
    cases p with
    | none => cases trying
    | some p =>
      cases trying
      exact ⟨rfl, fun tried _ => sets rfl rfl (setOri_sets m _) regular rfl tried⟩
  | writeOffs a o' =>
    simp only [tries] at trying
    split at trying
    · cases trying
    · rename_i differs
      cases trying
      obtain ⟨settled, idle⟩ := regular
      simp only [handle, if_neg differs]
      refine ⟨trivial, fun _ _ located => (if_neg fun new => settled ⟨located, new⟩).mpr ?_⟩
      simp [inForce, idle, expected, written]
  | change a o' =>
    cases trying
    obtain ⟨settled, added⟩ := regular
    refine ⟨rfl, fun _ takes located => ?_⟩
    have old : m.newTarget ≠ true := fun new => settled ⟨located, new⟩
    have before := booked located
    rw [if_neg old] at before
    have asks : m.expected asked (.change a o) = asked + a := by
      rcases added with ⟨-, taken⟩ | rfl
      · have started := takes taken
        simp [expected, written, started]
      · simp [expected, written]
    have sum : m.woffsChanged = true ∨ m.woffs = m.offs ∨ a = 0 := by
      rcases added with ⟨waits | same, -⟩ | none_
      · exact .inl waits
      · exact .inr (.inl same)
      · exact .inr (.inr none_)
    rw [asks]
    refine (if_neg old).mpr ?_
    rw [← before]
    simp only [inForce, setWoffs]
    rcases sum with waits | same | rfl
    · simp [waits]
    · simp [same]
    · simp
  | checkMoves poll o' =>
    cases poll with
    | running | failed => cases trying
    | ended ok => cases ok with
      | false => cases trying
      | true =>
        simp only [tries] at trying
        split at trying
        · rename_i carries
          cases trying
          have same := startTracking_book m false
          simp only [handle]
          rw [checkMoves_carries carries.1 carries.2 o]
          refine ⟨rfl, fun tried _ => ?_⟩
          rw [expected_kept rfl rfl (.inr tried)]
          exact (booked.same same).same rfl
        · cases trying
  | bopState telMove o' =>
    simp only [tries] at trying
    split at trying
    · rename_i carries
      cases trying
      simp only [handle, setFullBopState, if_pos carries]
      refine ⟨trivial, fun tried _ => ?_⟩
      rw [expected_kept rfl rfl (.inr tried)]
      exact booked
    · cases trying
  | writeWoffs | writeOffsAltAz | correct | park | stop | wormStop | wormStart | writeTracking | writeSettings
  | trackingTimer | belowHorizon | masterState | scriptEnds => cases trying

omit [DecidableEq P] [DecidableEq A] in
theorem booked_zero (none_ : n.inForce = 0) : Booked n 0 := fun _ => by
  split
  · rfl
  · exact none_

theorem startPark_book (m : Telescope P A) (o : ParkOutcome) :
    (m.moving = .parking ∨ m.blockMove) ∧ m.startPark o = m ∨
      ¬(m.moving = .parking ∨ m.blockMove) ∧ (book (m.startPark o) = book (m.setMpec "") ∨
        (m.startPark o).inForce = 0 ∧ (m.startPark o).lastMove = m.lastMove ∧
          (m.startPark o).moveNum = m.moveNum + 1) := by
  obtain ⟨_, _, _, stopped⟩ := stopTracking_eq { m.setMpec "" with tracks := false } true
  unfold startPark
  dsimp only
  rw [stopped]
  split
  · rename_i refused
    exact .inl ⟨refused, rfl⟩
  · rename_i allowed
    refine .inr ⟨allowed, ?_⟩
    split
    · exact .inl rfl
    · cases o.starts with
      | none => exact .inl rfl
      | some forget => cases forget <;> exact .inr ⟨rfl, rfl, rfl⟩

theorem checkMoves_book {poll : Poll} {o : Outcome P} (rests : m.tries (.checkMoves poll o) = none) :
    book (m.checkMoves poll o) = book m := by
  unfold checkMoves
  cases moving : m.moving with
  | observing | parked => rfl
  | parking => cases poll <;> rfl
  | moving => cases poll with
    | running | failed => rfl
    | ended ok => cases ok with
      | false => rfl
      | true =>
        have nothing : m.correction = false := by
          by_contra waits
          rw [Bool.not_eq_false] at waits
          simp [tries, moving, waits] at rests
        obtain ⟨_, _, _, _, started⟩ := m.startTracking_eq false
        have idle : (m.woffsChanged || m.wcorrChanged) = false := nothing
        simp only [endMove, started, correction, idle, if_true, if_false, Bool.true_eq_false, Bool.false_eq_true]
        rfl

omit [DecidableEq P] [AddCommGroup A] [DecidableEq A] in
theorem standbyRule_book (m : Telescope P A) (old new : MasterState) : book (m.standbyRule old new) = book m := by
  unfold standbyRule
  split_ifs <;> rfl

theorem stopRule_book (m : Telescope P A) (new : MasterState) : book (m.stopRule new) = book m := by
  unfold stopRule
  split_ifs
  · exact stopTracking_book _ true
  · rfl
  · rfl

theorem rests_booked (quiet : m.lastMove = none) (booked : Booked m asked) (regular : Regular m e)
    (rests : m.tries e = none) : Booked (m.handle e) (m.expected asked e) ∧ (m.handle e).lastMove = none := by
  have kept (unwritten : m.written asked e = none) (unset : m.targetSet e = none) (same : book (m.handle e) = book m) :
      Booked (m.handle e) (m.expected asked e) ∧ (m.handle e).lastMove = none := by
    have fields := same
    simp only [book, Prod.mk.injEq] at fields
    obtain ⟨-, -, -, -, -, -, -, note, number⟩ := fields
    rw [expected_kept unwritten unset (.inl (by rw [step_quiet quiet, number]))]
    exact ⟨booked.same same, note.trans quiet⟩
  have set {t : Telescope P A} (unwritten : m.written asked e = none) (set : m.targetSet e = some t) (sets : Sets m t)
      (regular : m.Pending → ∀ t, m.targetSet e = some t → t.newTarget = true) (same : book (m.handle e) = book t)
      (number : t.moveNum = m.moveNum) (note : t.lastMove = m.lastMove) :
      Booked (m.handle e) (m.expected asked e) ∧ (m.handle e).lastMove = none := by
    have fields := same
    simp only [book, Prod.mk.injEq] at fields
    obtain ⟨-, -, -, -, -, -, -, note', number'⟩ := fields
    rw [expected_set unwritten set (.inl (by rw [step_quiet quiet, number', number]))]
    exact ⟨(sets.booked booked fun pending => regular pending t set).same same, (note'.trans note).trans quiet⟩
  have zero (unwritten : m.written asked e = none) (none_ : (m.handle e).inForce = 0)
      (note : (m.handle e).lastMove = m.lastMove) (number : (m.handle e).moveNum = m.moveNum + 1) :
      Booked (m.handle e) (m.expected asked e) ∧ (m.handle e).lastMove = none := by
    have parked : m.expected asked e = 0 := by
      have parks : (m.step e).moveNum ≠ m.moveNum ∧ (m.step e).lastMove = none := by
        rw [step_quiet quiet]
        exact ⟨by omega, note.trans quiet⟩
      simp only [expected, unwritten, if_pos parks]
    rw [parked]
    exact ⟨booked_zero none_, note.trans quiet⟩
  cases e with
  | move | resync | change => cases rests
  | moveMpec orbit valid o => cases valid with
    | true => cases rests
    | false => exact set rfl rfl (setMpec_sets m orbit) regular rfl rfl rfl
  | altAz p o => cases p with
    | some p => cases rests
    | none => exact set rfl rfl (setMpec_sets m "") regular (stopTracking_book _ true) rfl rfl
  | writeOri p o =>
    simp only [tries, ite_eq_left_iff, reduceCtorEq, imp_false, not_not] at rests
    exact kept rfl (if_pos rests) (by simp only [handle, if_pos rests])
  | writeMpec orbit valid o =>
    simp only [tries, ite_eq_left_iff, reduceCtorEq, imp_false, not_not] at rests
    exact kept rfl (if_pos rests) (by simp only [handle, if_pos rests])
  | writeTarAltAz p o => cases p with
    | some p => cases rests
    | none => exact kept rfl rfl rfl
  | writeOffs a o =>
    simp only [tries, ite_eq_left_iff, reduceCtorEq, imp_false, not_not] at rests
    obtain ⟨settled, idle⟩ := regular
    simp only [handle, if_pos rests]
    refine ⟨fun located => (if_neg fun new => settled ⟨located, new⟩).mpr ?_, quiet⟩
    simp [inForce, idle, expected, written, rests]
  | writeWoffs a =>
    obtain ⟨settled, known⟩ := regular
    have asks : m.expected asked (.writeWoffs a) = a := rfl
    rw [asks]
    simp only [handle]
    split
    · rename_i same
      refine ⟨fun located => (if_neg fun new => settled ⟨located, new⟩).mpr ?_, quiet⟩
      rcases known same with waits | used
      · simp [inForce, waits, same]
      · simp [inForce, used, same]
    · rename_i differs
      refine ⟨fun located => (if_neg fun new => settled ⟨located, new⟩).mpr ?_, quiet⟩
      simp [inForce, setWoffs, differs]
  | writeOffsAltAz => exact kept rfl rfl rfl
  | correct c =>
    refine kept rfl rfl ?_
    simp only [handle, correct]
    split_ifs <;> rfl
  | park o =>
    rcases m.startPark_book o with ⟨refused, same⟩ | ⟨allowed, same | ⟨none_, note, number⟩⟩
    · exact kept rfl (if_pos refused) (congrArg book same)
    · exact set rfl (if_neg allowed) (setMpec_sets m "") regular same rfl rfl
    · exact zero rfl none_ note number
  | stop | wormStop | belowHorizon => exact kept rfl rfl (stopTracking_book m true)
  | wormStart =>
    refine kept rfl rfl ?_
    simp only [handle, wormStart]
    split
    · rfl
    · exact startTracking_book m true
  | writeTracking track =>
    refine kept rfl rfl ?_
    simp only [handle, writeTracking]
    split_ifs <;> first | rfl | exact setTracking_book m track
  | writeSettings => exact kept rfl rfl rfl
  | trackingTimer =>
    refine kept rfl rfl ?_
    simp only [handle]
    split_ifs <;> rfl
  | checkMoves poll o =>
    exact kept rfl rfl (checkMoves_book rests)
  | bopState telMove o =>
    simp only [tries, ite_eq_right_iff, reduceCtorEq, imp_false] at rests
    exact kept rfl rfl (by simp only [handle, setFullBopState, if_neg rests])
  | masterState new o =>
    have stopped := m.stopRule_book new
    have forgets : book ((m.stopRule new).setMpec "") = book (m.setMpec "") := by
      simp only [book, Prod.mk.injEq] at stopped
      simp only [book, setMpec, stopped]
    have stands := standbyRule_book (if (m.stopRule new).parksOnStandby new then (m.stopRule new).startPark o else
      m.stopRule new) m.masterState new
    by_cases parks : (m.stopRule new).parksOnStandby new = true
    · rw [if_pos parks] at stands
      have handles : m.handle (.masterState new o) = ((m.stopRule new).startPark o).standbyRule m.masterState new := by
        simp only [handle, changeMasterState, if_pos parks]
      rw [← handles] at stands
      rcases (m.stopRule new).startPark_book o with ⟨refused, same⟩ | ⟨allowed, same | ⟨none_, note, number⟩⟩
      · exact kept rfl (if_pos (.inr refused)) (stands.trans ((congrArg book same).trans stopped))
      · exact set rfl (if_neg fun refused => refused.elim (fun stays => Bool.noConfusion (parks.symm.trans stays)) allowed)
          (setMpec_sets m "") regular (stands.trans (same.trans forgets)) rfl rfl
      · simp only [book, Prod.mk.injEq] at stands stopped
        obtain ⟨offs, woffs, changed, -, -, -, -, note', number'⟩ := stands
        refine zero rfl ?_ (note'.trans (note.trans stopped.2.2.2.2.2.2.2.1))
          (number'.trans (number.trans (congrArg (· + 1) stopped.2.2.2.2.2.2.2.2)))
        simpa only [inForce, offs, woffs, changed] using none_
    · rw [if_neg parks] at stands
      have handles : m.handle (.masterState new o) = (m.stopRule new).standbyRule m.masterState new := by
        simp only [handle, changeMasterState, if_neg parks]
      rw [← handles] at stands
      exact kept rfl (if_pos (.inl (Bool.not_eq_true _ ▸ parks))) (stands.trans stopped)
  | scriptEnds =>
    obtain ⟨settled, known⟩ := regular
    have asks : m.expected asked .scriptEnds = 0 := rfl
    rw [asks]
    refine ⟨fun located => (if_neg fun new => settled ⟨located, new⟩).mpr ?_, quiet⟩
    by_cases same : m.woffs = 0
    · rcases known same with waits | used
      · simp [inForce, handle, setWoffs, waits]
      · simp [inForce, handle, setWoffs, used, same]
    · simp [inForce, handle, setWoffs, same]

theorem handle_booked (quiet : m.lastMove = none) (booked : Booked m asked) (regular : Regular m e) :
    Booked (m.handle e) (m.expected asked e) ∧
      ((m.handle e).lastMove = some true → (m.handle e).offs = m.expected asked e) := by
  cases trying : m.tries e with
  | none =>
    obtain ⟨rests, note⟩ := rests_booked quiet booked regular trying
    exact ⟨rests, fun started => nomatch note.symm.trans started⟩
  | some tried =>
    obtain ⟨t, o, correction⟩ := tried
    obtain ⟨same, tried_booked⟩ := tries_booked booked regular trying
    have fields := same
    simp only [book, Prod.mk.injEq] at fields
    obtain ⟨offs, -, -, -, -, -, -, note, -⟩ := fields
    obtain ⟨tried, takes⟩ := t.startResyncMove_answers o correction
    rw [← note, ← step_quiet quiet] at tried takes
    obtain ⟨left, uses⟩ := startResyncMove_booked (tried_booked tried takes) o correction
    exact ⟨left.same same, fun started => offs.trans (uses (note.symm.trans started))⟩

def noted (m : Telescope P A) : Telescope P A := { m with lastMove := none }

omit [DecidableEq P] [AddCommGroup A] [DecidableEq A] in
theorem stopRule_noted (m : Telescope P A) (new : MasterState) : m.noted.stopRule new = (m.stopRule new).noted := by
  unfold stopRule stopTracking setTracking noted
  dsimp only
  split_ifs <;> rfl

omit [AddCommGroup A] [DecidableEq A] in
theorem targetSet_noted (m : Telescope P A) (e : Event P A) : m.noted.targetSet e = (m.targetSet e).map noted := by
  cases e with
  | altAz p o | writeTarAltAz p o => cases p <;> rfl
  | masterState new o =>
    simp only [targetSet, stopRule_noted]
    exact (apply_ite (Option.map noted) _ none (some (m.setMpec ""))).symm
  | writeOri p o => exact (apply_ite (Option.map noted) _ none (some ((m.setOri p).setMpec ""))).symm
  | writeMpec orbit valid o => exact (apply_ite (Option.map noted) _ none (some (m.setMpec orbit))).symm
  | park o => exact (apply_ite (Option.map noted) _ none (some (m.setMpec ""))).symm
  | _ => rfl

theorem expected_noted (m : Telescope P A) (asked : A) (e : Event P A) :
    m.noted.expected asked e = m.expected asked e := by
  have asks : m.noted.written asked e = m.written asked e := by
    cases e <;> rfl
  have steps : m.noted.step e = m.step e := rfl
  have number : m.noted.moveNum = m.moveNum := rfl
  simp only [expected, asks, steps, number, targetSet_noted]
  cases m.targetSet e <;> rfl

omit [DecidableEq A] in
theorem Regular.noted (regular : Regular m e) : Regular m.noted e := by
  have sets (regular : m.Pending → ∀ t, m.targetSet e = some t → t.newTarget = true) :
      m.noted.Pending → ∀ t, m.noted.targetSet e = some t → t.newTarget = true := by
    intro pending t set
    rw [targetSet_noted, Option.map_eq_some_iff] at set
    obtain ⟨t', set', rfl⟩ := set
    exact regular pending t' set'
  cases e with
  | writeOffs | writeWoffs | scriptEnds | change => exact regular
  | _ => exact sets regular

theorem step_booked (booked : Booked m asked) (regular : Regular m e) :
    Booked (m.step e) (m.expected asked e) ∧
      ((m.step e).lastMove = some true → (m.step e).offs = m.expected asked e) := by
  have quiet : Booked m.noted asked := booked
  rw [← expected_noted]
  exact handle_booked rfl quiet regular.noted

end Steps

theorem run_books (es : List (Event P A)) (booked : Booked m asked) (regular : Guarded step Regular m es) :
    Books m asked es := by
  induction es generalizing m asked with
  | nil => trivial
  | cons e es ih =>
    obtain ⟨left, uses⟩ := step_booked booked regular.1
    exact ⟨uses, ih left regular.2⟩

/-- In every run whose steps are regular each started move uses the offset that was asked for. -/
theorem offsets_booked (hasTracking parkingBlockMove blockOnStandby : Bool) (standbyPark : Nat) (ori : Option P)
    (es : List (Event P A))
    (regular : Guarded step Regular (fresh hasTracking parkingBlockMove blockOnStandby standbyPark ori : Telescope P A) es) :
    Books (fresh hasTracking parkingBlockMove blockOnStandby standbyPark ori : Telescope P A) 0 es :=
  run_books es (booked_zero rfl) regular

instance (m : Telescope P A) : Decidable m.Pending := inferInstanceAs (Decidable (_ ∧ _))

/-- A move, an offset that is written, an increment, and one that is written to wait for the next move. -/
def offsetMoves : List (Event Int Int) :=
  [.move 10 arrives, .checkMoves (.ended true) arrives, .writeOffs 3 arrives, .writeWoffs 4, .change 2 arrives,
    .resync 10 arrives]

theorem offset_moves_booked :
    Books (fresh true false false 0 (some 0) : Telescope Int Int) 0 offsetMoves ∧
      (run step (fresh true false false 0 (some 0) : Telescope Int Int) offsetMoves).offs = 6 := by
  refine ⟨offsets_booked true false false 0 (some 0) offsetMoves ⟨?_, ?_, ?_, ?_, ?_, ?_, trivial⟩, by decide⟩
  · rintro - t ⟨⟩
    decide
  · exact fun _ t set => nomatch set
  · exact ⟨by decide, by decide⟩
  · exact ⟨by decide, by decide⟩
  · exact ⟨by decide, .inl ⟨by decide, by decide⟩⟩
  · exact fun pending => absurd pending (by decide)

def refusedChange : List (Event Int Int) :=
  [.move 10 arrives, .checkMoves (.ended true) arrives, .change 5 { arrives with starts := false }, .resync 10 arrives]

/-- The increment of a change that was answered with an error is part of the next move. -/
theorem refused_change_stays :
    ¬Books (fresh true false false 0 (some 0) : Telescope Int Int) 0 refusedChange := by
  rintro ⟨-, -, -, uses, -⟩
  revert uses
  decide

end Rts2.Teld.Telescope
