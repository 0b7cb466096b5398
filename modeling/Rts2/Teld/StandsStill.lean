import Rts2.Teld.Telescope

/-! While the observatory is stopped no telescope moves: block_move is set, and with it no motion is called of the mount. -/
namespace Rts2.Teld.Telescope

open Lib

variable {P A : Type} [DecidableEq P] [AddCommGroup A] [DecidableEq A]

def moved (m : Telescope P A) : Bool := m.calls.any (·.2)

/-- block_move is true while the observatory is stopped, and no motion was called while it was true. -/
def StandsStill (m : Telescope P A) : Prop :=
  (m.masterState.stopEverything = true → m.blockMove = true) ∧ m.moved = false

/-- Starting to track runs the tracking; `check` takes the default for off. -/
def startsTracking (m : Telescope P A) (check : Bool) : Prop :=
  m.hasTracking = true ∧
    (if check ∧ m.tracking = 0 then m.defaultTracking else m.tracking) ∈ [1, 2, 3]

/-- While block_move is true no move command, end of a move, written tracking or timer runs the tracking; and when the
observatory is switched on, or the driver meets it on, while it is stopped, block_on_standby is not set. -/
def Stays (m : Telescope P A) : Event P A → Prop
  | .move .. | .moveMpec _ true _ => m.blockMove = true → ¬m.startsTracking true
  | .writeTracking track =>
    m.blockMove = true → ¬(m.hasTracking = true ∧ track ≠ m.tracking ∧ (track = 2 ∨ track = 3))
  | .trackingTimer => m.blockMove = true → ¬(m.trackingTimer = true ∧ m.tracks = true)
  | .checkMoves (.ended true) _ => m.moving = .moving → m.blockMove = true → ¬m.startsTracking false
  | .masterState new _ =>
    new.stopEverything = true →
      ¬(m.blockOnStandby = true ∧ new.offOrStandby = false ∧ m.masterState.offOrStandby = true)
  | .moveMpec _ false _ | .altAz .. | .resync .. | .writeOri .. | .writeMpec .. | .writeTarAltAz .. | .writeOffs ..
  | .writeWoffs _ | .writeOffsAltAz | .change .. | .correct _ | .park _ | .stop | .wormStop | .wormStart
  | .writeSettings .. | .checkMoves .running _ | .checkMoves .failed _ | .checkMoves (.ended false) _ | .belowHorizon
  | .bopState .. | .scriptEnds => True

def Unmoved (m m' : Telescope P A) : Prop :=
  m'.blockMove = m.blockMove ∧ m'.masterState = m.masterState ∧ m'.moved = m.moved

theorem Unmoved.refl (m : Telescope P A) : Unmoved m m := ⟨rfl, rfl, rfl⟩

theorem Unmoved.trans {m n k : Telescope P A} (first : Unmoved m n) (second : Unmoved n k) : Unmoved m k :=
  ⟨second.1.trans first.1, second.2.1.trans first.2.1, second.2.2.trans first.2.2⟩

theorem call_moved (m : Telescope P A) (motion : Motion) : (m.call motion).moved = (m.moved || m.blockMove) := by
  simp [call, moved]

theorem call_unmoved {m : Telescope P A} (free : m.blockMove = false) (motion : Motion) :
    Unmoved m (m.call motion) := by
  refine ⟨rfl, rfl, ?_⟩
  rw [call_moved, free, Bool.or_false]

theorem stopTracking_unmoved (m : Telescope P A) (stopMsg : Bool) : Unmoved m (m.stopTracking stopMsg) := by
  obtain ⟨_, _, _, stopped⟩ := m.stopTracking_eq stopMsg
  rw [stopped]
  exact ⟨rfl, rfl, rfl⟩

theorem setTracking_moved (m : Telescope P A) (track : Nat) :
    (m.setTracking track true false).moved = true ↔
      m.moved = true ∨ m.hasTracking = true ∧ track ∈ [1, 2, 3] ∧ m.blockMove = true := by
  have listed : track ∈ [1, 2, 3] ↔ track = 1 ∨ track = 2 ∨ track = 3 := by simp
  unfold setTracking
  rw [listed]
  cases has : m.hasTracking with
  | false => simp
  | true =>
    by_cases on : track = 1 ∨ track = 2 ∨ track = 3
    · simp only [on, if_true, true_and, Bool.true_eq_false, if_false]
      exact (Bool.eq_iff_iff.mp (call_moved _ .runTracking)).trans Bool.or_eq_true_iff
    · simp only [on, if_false, false_and, and_false, or_false, Bool.true_eq_false, Bool.false_eq_true]
      exact Iff.rfl

theorem setTracking_kept (m : Telescope P A) (track : Nat) :
    (m.setTracking track true false).blockMove = m.blockMove ∧
      (m.setTracking track true false).masterState = m.masterState := by
  unfold setTracking
  dsimp only
  split_ifs <;> exact ⟨rfl, rfl⟩

theorem startTracking_moved (m : Telescope P A) (check : Bool) :
    (m.startTracking check).moved = true ↔ m.moved = true ∨ m.startsTracking check ∧ m.blockMove = true := by
  unfold startTracking startsTracking
  cases has : m.hasTracking with
  | false => simp [setTracking, has]
  | true =>
    by_cases takes : check = true ∧ m.tracking = 0
    · simp only [takes, true_and, and_self, if_true]
      rw [setTracking_moved]
      simp [moved, has]
    · simp only [takes, true_and, if_false]
      rw [setTracking_moved]
      simp [has]

theorem startTracking_kept (m : Telescope P A) (check : Bool) :
    (m.startTracking check).blockMove = m.blockMove ∧ (m.startTracking check).masterState = m.masterState := by
  unfold startTracking
  dsimp only
  split
  · exact setTracking_kept _ _
  · exact setTracking_kept m _

theorem rollback_unmoved (m before : Telescope P A) : Unmoved m (m.rollback before) := by
  unfold rollback
  split <;> exact ⟨rfl, rfl, rfl⟩

theorem corrected_unmoved (m : Telescope P A) : Unmoved m m.corrected := by
  unfold corrected
  dsimp only
  split_ifs <;> exact ⟨rfl, rfl, rfl⟩

theorem renumbered_unmoved (m : Telescope P A) : Unmoved m m.renumbered := by
  unfold renumbered
  split <;> exact ⟨rfl, rfl, rfl⟩

theorem targeted_unmoved (m : Telescope P A) (orbit : P) : Unmoved m (m.targeted orbit) := by
  unfold targeted
  dsimp only
  split <;> exact ⟨rfl, rfl, rfl⟩

theorem inaccessible_unmoved (m : Telescope P A) : Unmoved m m.inaccessible :=
  ⟨(stopTracking_unmoved (m.setOri none) false).1, (stopTracking_unmoved (m.setOri none) false).2.1,
    (stopTracking_unmoved (m.setOri none) false).2.2⟩

theorem movementFailed_unmoved (m : Telescope P A) : Unmoved m m.movementFailed :=
  ⟨(stopTracking_unmoved m false).1, (stopTracking_unmoved m false).2.1, (stopTracking_unmoved m false).2.2⟩

theorem moveStarted_unmoved (m : Telescope P A) (correction : Bool) : Unmoved m (m.moveStarted correction) := by
  cases correction <;> exact ⟨rfl, rfl, rfl⟩

theorem resync_unmoved (m : Telescope P A) (o : Outcome P) (correction : Bool) :
    Unmoved m (m.resync o correction).1 := by
  have added := (renumbered_unmoved m).trans (corrected_unmoved _)
  unfold resync
  dsimp only
  split
  · exact added.trans (rollback_unmoved _ _)
  · rename_i goes
    have free : m.renumbered.corrected.blockMove = false := by
      by_contra blocked
      rw [Bool.not_eq_false] at blocked
      exact goes (by simp [refuses, blocked])
    have called : Unmoved m
        { (m.renumbered.corrected.moveStarted correction).call .startResync with arrived := none } := by
      have started := moveStarted_unmoved m.renumbered.corrected correction
      exact (added.trans started).trans ((call_unmoved (started.1.trans free) .startResync).trans ⟨rfl, rfl, rfl⟩)
    split
    · exact (added.trans (inaccessible_unmoved _)).trans (rollback_unmoved _ _)
    · split
      · exact called.trans ⟨rfl, rfl, rfl⟩
      · exact (called.trans (movementFailed_unmoved _)).trans (rollback_unmoved _ _)

theorem startResyncMove_unmoved (m : Telescope P A) (o : Outcome P) (correction : Bool) :
    Unmoved m (m.startResyncMove o correction).1 := by
  unfold startResyncMove
  dsimp only
  split
  · exact (targeted_unmoved m o.orbit).trans ⟨rfl, rfl, rfl⟩
  · exact ((targeted_unmoved m o.orbit).trans (resync_unmoved _ o correction)).trans ⟨rfl, rfl, rfl⟩

theorem parks_unmoved (m : Telescope P A) (forget : Bool) : Unmoved m (m.parks forget) := by
  cases forget <;> exact ⟨rfl, rfl, rfl⟩

theorem startPark_unmoved (m : Telescope P A) (o : ParkOutcome) : Unmoved m (m.startPark o) := by
  unfold startPark
  dsimp only
  split
  · exact .refl m
  · rename_i goes
    have free : m.blockMove = false := by simpa using (not_or.mp goes).2
    split
    · exact ⟨rfl, rfl, rfl⟩
    · have stopped : Unmoved m ({ m.setMpec "" with tracks := false }.stopTracking true) :=
        Unmoved.trans (n := { m.setMpec "" with tracks := false }) ⟨rfl, rfl, rfl⟩ (stopTracking_unmoved _ true)
      have called : Unmoved m ({ m.setMpec "" with tracks := false }.stopTracking true).toldToPark :=
        stopped.trans ((call_unmoved (stopped.1.trans free) .startPark).trans ⟨rfl, rfl, rfl⟩)
      split
      · exact called
      · rename_i forget _
        exact called.trans (parks_unmoved _ forget)

variable {m m' : Telescope P A}

theorem Unmoved.stands (same : Unmoved m m') (still : StandsStill m) : StandsStill m' := by
  unfold StandsStill
  rw [same.1, same.2.1, same.2.2]
  exact still

theorem stands_iff {r : Prop} (still : StandsStill m)
    (kept : m'.blockMove = m.blockMove ∧ m'.masterState = m.masterState)
    (ran : m'.moved = true ↔ m.moved = true ∨ r ∧ m.blockMove = true) :
    StandsStill m' ↔ (m.blockMove = true → ¬r) := by
  unfold StandsStill
  rw [kept.1, kept.2, ← Bool.not_eq_true, ran, still.2]
  constructor
  · rintro ⟨-, quiet⟩ blocked starts
    exact quiet (.inr ⟨starts, blocked⟩)
  · intro quiet
    refine ⟨still.1, ?_⟩
    rintro (moved | ⟨starts, blocked⟩)
    · contradiction
    · exact quiet blocked starts

theorem moveTo_stands (still : StandsStill m) (o : Outcome P) :
    StandsStill (m.moveTo o) ↔ (m.blockMove = true → ¬m.startsTracking true) := by
  have rest : Unmoved (m.startTracking true) (m.moveTo o) := by
    unfold moveTo
    have tried := startResyncMove_unmoved (m.startTracking true) o false
    dsimp only
    split
    · exact tried
    · exact tried.trans (stopTracking_unmoved _ true)
  have kept := startTracking_kept m true
  refine stands_iff still ⟨rest.1.trans kept.1, rest.2.1.trans kept.2⟩ ?_
  rw [rest.2.2]
  exact startTracking_moved m true

theorem setFullBopState_unmoved (m : Telescope P A) (telMove : Bool) (o : Outcome P) :
    Unmoved m (m.setFullBopState telMove o) := by
  unfold setFullBopState
  split
  · exact startResyncMove_unmoved m o true
  · exact .refl m

theorem moveAltAz_unmoved (m : Telescope P A) (p : Option P) (o : Outcome P) : Unmoved m (m.moveAltAz p o) := by
  cases p with
  | none => exact .refl m
  | some p => exact Unmoved.trans (n := m.setOri (some p)) ⟨rfl, rfl, rfl⟩ (startResyncMove_unmoved _ o false)

theorem checkMoves_stands (still : StandsStill m) (poll : Poll) (o : Outcome P) :
    StandsStill (m.checkMoves poll o) ↔ m.Stays (.checkMoves poll o) := by
  cases moving : m.moving with
  | observing | parked => cases poll with
    | running | failed => simpa [checkMoves, moving, Stays] using still
    | ended ok => cases ok <;> simpa [checkMoves, moving, Stays] using still
  | parking =>
    have ended : StandsStill { m.parked with going := false } := still
    cases poll with
    | running => simpa [checkMoves, moving, Stays] using still
    | failed => simpa only [checkMoves, moving, Stays, iff_true] using ended
    | ended ok => cases ok <;> simpa [checkMoves, moving, Stays] using ended
  | moving =>
    have ended : StandsStill { m.observes with going := false } := still
    cases poll with
    | running => simpa [checkMoves, moving, Stays] using still
    | failed => simpa only [checkMoves, moving, Stays, iff_true] using ended
    | ended ok =>
      cases ok with
      | false =>
        simp only [checkMoves, moving, Stays, endMove, if_true, if_false, Bool.false_eq_true]
        exact iff_of_true ended trivial
      | true =>
        have rest : Unmoved (m.startTracking false) (m.checkMoves (.ended true) o) := by
          simp only [checkMoves, moving, endMove, if_true, Bool.true_eq_false, if_false]
          split
          · exact Unmoved.trans (n := { m.startTracking false with going := false, moveCompleted := true, arrived := some (m.startTracking false).startedNum })
              ⟨rfl, rfl, rfl⟩ (startResyncMove_unmoved _ o true)
          · exact ⟨rfl, rfl, rfl⟩
        have kept := startTracking_kept m false
        simp only [Stays, moving, true_imp_iff]
        refine stands_iff still ⟨rest.1.trans kept.1, rest.2.1.trans kept.2⟩ ?_
        rw [rest.2.2]
        exact startTracking_moved m false

theorem stopRule_kept (m : Telescope P A) (new : MasterState) :
    (m.stopRule new).masterState = new ∧ (m.stopRule new).blockOnStandby = m.blockOnStandby ∧
      (m.stopRule new).moved = m.moved ∧ (new.stopEverything = true → (m.stopRule new).blockMove = true) := by
  obtain ⟨_, _, _, stopped⟩ := stopTracking_eq { m with masterState := new, blockMove := true } true
  unfold stopRule
  rw [stopped]
  split
  · exact ⟨rfl, rfl, rfl, fun _ => rfl⟩
  · rename_i goes
    split <;> exact ⟨rfl, rfl, rfl, fun stops => absurd stops goes⟩

theorem standbyRule_stands (m : Telescope P A) (old new : MasterState) (master : m.masterState = new)
    (still : StandsStill m) :
    StandsStill (m.standbyRule old new) ↔
      (new.stopEverything = true →
        ¬(m.blockOnStandby = true ∧ new.offOrStandby = false ∧ old.offOrStandby = true)) := by
  have same : m.moved = false := still.2
  have stops := still.1
  rw [master] at stops
  unfold standbyRule StandsStill
  cases standby : m.blockOnStandby with
  | false => simpa [master, same] using stops
  | true =>
    cases off : new.offOrStandby with
    | true => simpa [moved] using same
    | false =>
      cases was : old.offOrStandby with
      | false => simpa [master, same] using stops
      | true => simpa [master, moved] using fun _ => same

theorem changeMasterState_stands (still : StandsStill m) (new : MasterState) (o : ParkOutcome) :
    StandsStill (m.changeMasterState new o) ↔ m.Stays (.masterState new o) := by
  obtain ⟨master, standby, moved, stops⟩ := stopRule_kept m new
  have first : StandsStill (m.stopRule new) := ⟨fun stopped => stops (master ▸ stopped), moved.trans still.2⟩
  unfold changeMasterState
  dsimp only
  split
  · have parked := startPark_unmoved (m.stopRule new) o
    rw [standbyRule_stands _ _ _ (parked.2.1.trans master) (parked.stands first), startPark_blockOnStandby, standby]
    exact Iff.rfl
  · rw [standbyRule_stands _ _ _ master first, standby]
    exact Iff.rfl

theorem wormStart_stands (still : StandsStill m) : StandsStill m.wormStart ↔ m.Stays .wormStart := by
  refine iff_of_true ?_ trivial
  unfold wormStart
  split
  · exact still
  · rename_i goes
    have free : m.blockMove = false := by simpa using (not_or.mp goes).1
    refine (stands_iff still (startTracking_kept m true) (startTracking_moved m true)).mpr (fun blocked => ?_)
    rw [free] at blocked
    contradiction

theorem writeTracking_stands (still : StandsStill m) (track : Nat) :
    StandsStill (m.writeTracking track) ↔ m.Stays (.writeTracking track) := by
  unfold writeTracking
  simp only [Stays]
  split_ifs with same on
  · refine iff_of_true still (fun _ runs => ?_)
    rcases same with none | equal
    · simp [none] at runs
    · exact runs.2.1 equal
  · refine iff_of_true still (fun _ runs => ?_)
    rcases runs.2.2 with two | three <;> omega
  · obtain ⟨has, differs⟩ := not_or.mp same
    refine (stands_iff (r := m.hasTracking = true ∧ track ∈ [1, 2, 3]) still (setTracking_kept m track) ?_).trans ?_
    · rw [setTracking_moved, and_assoc]
    · refine forall_congr' fun blocked => not_congr ?_
      have other : track ≠ 1 := fun first => on ⟨first, .inl blocked⟩
      simp [differs, other]

theorem step_stands (still : StandsStill m) (e : Event P A) : StandsStill (m.step e) ↔ m.Stays e := by
  have here : StandsStill { m with lastMove := none } := still
  have kept {m' : Telescope P A} (same : Unmoved m m') : StandsStill m' ↔ True := iff_true_intro (same.stands still)
  unfold step
  cases e with
  | move p o => exact moveTo_stands (m := ({ m with lastMove := none }.setOri (some p)).setMpec "") still o
  | moveMpec orbit valid o =>
    cases valid with
    | false => exact kept ⟨rfl, rfl, rfl⟩
    | true => exact moveTo_stands (m := { m with lastMove := none }.setMpec orbit) still o
  | altAz p o =>
    have stopped := stopTracking_unmoved ({ m with lastMove := none }.setMpec "") true
    exact kept ((Unmoved.trans (m := m) ⟨rfl, rfl, rfl⟩ stopped).trans (moveAltAz_unmoved _ p o))
  | resync p o =>
    exact kept (Unmoved.trans (m := m) (n := ({ m with lastMove := none }.setOri (some p)).setMpec "") ⟨rfl, rfl, rfl⟩
      (startResyncMove_unmoved _ o false))
  | writeOri p o =>
    simp only [handle]
    split
    · exact kept ⟨rfl, rfl, rfl⟩
    · exact kept (Unmoved.trans (m := m) (n := ({ m with lastMove := none }.setOri p).setMpec "") ⟨rfl, rfl, rfl⟩
        (startResyncMove_unmoved _ o false))
  | writeMpec orbit valid o =>
    simp only [handle]
    split
    · exact kept ⟨rfl, rfl, rfl⟩
    · exact kept (Unmoved.trans (m := m) (n := { m with lastMove := none }.setMpec orbit) ⟨rfl, rfl, rfl⟩
        (startResyncMove_unmoved _ o false))
  | writeTarAltAz p o => exact kept (Unmoved.trans (m := m) ⟨rfl, rfl, rfl⟩ (moveAltAz_unmoved { m with lastMove := none } p o))
  | writeOffs a o =>
    simp only [handle]
    split
    · exact kept ⟨rfl, rfl, rfl⟩
    · exact kept (Unmoved.trans (m := m) (n := { m with lastMove := none, offs := a }) ⟨rfl, rfl, rfl⟩
        (startResyncMove_unmoved _ o false))
  | writeWoffs a =>
    simp only [handle]
    split <;> exact kept ⟨rfl, rfl, rfl⟩
  | writeOffsAltAz => exact kept ⟨rfl, rfl, rfl⟩
  | change a o =>
    exact kept (Unmoved.trans (m := m)
      (n := { { m with lastMove := none }.setWoffs (m.woffs + a) with offs := m.offs + a }) ⟨rfl, rfl, rfl⟩
      (startResyncMove_unmoved _ o true))
  | correct c =>
    refine kept ?_
    simp only [handle, correct]
    split_ifs <;> exact ⟨rfl, rfl, rfl⟩
  | park o => exact kept (Unmoved.trans (m := m) ⟨rfl, rfl, rfl⟩ (startPark_unmoved { m with lastMove := none } o))
  | stop | wormStop | belowHorizon =>
    exact kept (Unmoved.trans (m := m) ⟨rfl, rfl, rfl⟩ (stopTracking_unmoved { m with lastMove := none } true))
  | wormStart => exact wormStart_stands here
  | writeTracking track => exact writeTracking_stands here track
  | writeSettings => exact kept ⟨rfl, rfl, rfl⟩
  | trackingTimer =>
    simp only [handle, Stays]
    split_ifs with off tracks
    · exact iff_of_true still (fun _ on => by simp [off] at on)
    · refine stands_iff (r := m.trackingTimer = true ∧ m.tracks = true) still ⟨rfl, rfl⟩ ?_
      have on : m.trackingTimer = true := by simpa using off
      simp only [on, tracks, and_self, true_and]
      exact (Bool.eq_iff_iff.mp (call_moved _ .runTracking)).trans Bool.or_eq_true_iff
    · have off : ¬(m.trackingTimer = true ∧ m.tracks = true) := fun both => tracks both.2
      exact iff_of_true still (fun _ => off)
  | checkMoves poll o => exact checkMoves_stands here poll o
  | masterState new o => exact changeMasterState_stands here new o
  | bopState telMove o =>
    exact kept (Unmoved.trans (m := m) ⟨rfl, rfl, rfl⟩ (setFullBopState_unmoved { m with lastMove := none } telMove o))
  | scriptEnds => exact kept ⟨rfl, rfl, rfl⟩

/-- In every run the telescope stands still while the observatory is stopped just when none of the ways past block_move is
taken. -/
theorem stands_still_iff (hasTracking parkingBlockMove blockOnStandby : Bool) (standbyPark : Nat) (ori : Option P)
    (es : List (Event P A)) :
    (∀ done, done <+: es →
        StandsStill (run step (fresh hasTracking parkingBlockMove blockOnStandby standbyPark ori : Telescope P A) done)) ↔
      Guarded step Stays (fresh hasTracking parkingBlockMove blockOnStandby standbyPark ori) es := by
  have initial : StandsStill (fresh hasTracking parkingBlockMove blockOnStandby standbyPark ori : Telescope P A) :=
    ⟨nofun, rfl⟩
  exact prefixes_iff_guarded (P := StandsStill) (fun _ e still => step_stands still e) initial es

def switchedOn : List (Event Int Int) :=
  [.masterState ⟨true, false, .night⟩ ⟨true, none⟩]

/-- A driver that blocks on standby and meets the observatory on and stopped is free to move. -/
theorem stopped_free :
    ¬∀ done, done <+: switchedOn → StandsStill (run step (fresh true false true 0 none : Telescope Int Int) done) := by
  intro stands
  have last := (stands switchedOn (List.prefix_refl _)).1
  revert last
  decide

end Rts2.Teld.Telescope
