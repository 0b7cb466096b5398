import Rts2.Teld.Telescope

/-! Corrections of the pointing wait until a move carries them out. What a telescope is corrected by is the sum of those whose
move was started, and a move that fails takes none. -/
namespace Rts2.Teld.Telescope

open Lib

variable {P A : Type} [DecidableEq P] [AddCommGroup A] [DecidableEq A]

/-- CORR_ is the sum of the corrections whose move was started since the last number, and each was added at most once. -/
def Summed (m : Telescope P A) : Prop := m.corr = m.applied.sum ∧ m.added.Nodup

/-- A correction that is answered as ignored changes nothing; one that is accepted was measured for the present number, whose
move arrived with nothing moved since; and after a failed move CORR_ and the image and observation of it are as before, and no
correction waits. -/
def Conserves (m : Telescope P A) (e : Event P A) : Prop :=
  (∀ c, e = .correct c → (m.correct c).2 = .ignored → m.step e = { m with lastMove := none }) ∧
    (∀ c, e = .correct c → (m.correct c).2 = .accepted → c.corMark = m.moveNum ∧ m.arrived = some m.moveNum) ∧
    ((m.step e).lastMove = some false →
      (m.step e).corr = m.corr ∧ (m.step e).corrImgId = m.corrImgId ∧ (m.step e).corrObsId = m.corrObsId ∧
        (m.step e).wcorrChanged = false)

def tries (m : Telescope P A) : Event P A → Option (Telescope P A × Outcome P × Bool)
  | .move p o => some (((m.setOri (some p)).setMpec "").startTracking true, o, false)
  | .moveMpec orbit true o => some ((m.setMpec orbit).startTracking true, o, false)
  | .altAz (some p) o => some (((m.setMpec "").stopTracking true).setOri (some p), o, false)
  | .resync p o => some ((m.setOri (some p)).setMpec "", o, false)
  | .writeOri p o => if p ≠ none ∧ m.ori = p then none else some ((m.setOri p).setMpec "", o, false)
  | .writeMpec orbit valid o => if m.mpec = orbit ∨ valid = false then none else some (m.setMpec orbit, o, false)
  | .writeTarAltAz (some p) o => some (m.setOri (some p), o, false)
  | .writeOffs a o => if m.offs = a then none else some ({ m with offs := a }, o, false)
  | .change a o => some ({ m.setWoffs (m.woffs + a) with offs := m.offs + a }, o, true)
  | .checkMoves (.ended true) o =>
    if m.moving = .moving ∧ m.correction = true then
      some ({ m.startTracking false with going := false, moveCompleted := true, arrived := some m.startedNum }, o, true)
    else none
  | .bopState telMove o => if m.correction ∧ telMove = false then some (m, o, true) else none
  | .moveMpec _ false _ | .altAz none _ | .writeTarAltAz none _ | .writeWoffs _ | .writeOffsAltAz | .correct _ | .park _
  | .stop | .wormStop | .wormStart | .writeTracking _ | .writeSettings .. | .trackingTimer | .checkMoves .running _
  | .checkMoves .failed _ | .checkMoves (.ended false) _ | .belowHorizon | .masterState .. | .scriptEnds => none

def fails (m : Telescope P A) (o : Outcome P) : Prop := m.refuses o = true ∨ o.accessible = false ∨ o.starts = false

/-- Where the target is not known nothing waits; a move to a new target does not fail where something was corrected, nor is
it refused while another is under way. -/
def Restores (m : Telescope P A) (o : Outcome P) : Prop :=
  (¬m.Located → m.wcorrChanged = false) ∧
    (m.Located → m.newTarget = true →
      (m.fails o → m.corr = 0 ∧ m.corrImgId = 0 ∧ m.corrObsId = 0) ∧ (m.refuses o = true → m.moving ≠ .moving))

/-- No correction that would be taken has an error between the bounds below which it is ignored and is small; no offset in
altitude and azimuth is written once a move arrived; and each try to move leaves nothing behind where it fails. -/
def Proper (m : Telescope P A) (e : Event P A) : Prop :=
  (∀ c, e = .correct c → ¬(m.measured c = true ∧ m.ignoreCorrection ≤ c.posErr ∧ c.posErr < m.smallCorrection)) ∧
    (e = .writeOffsAltAz → m.moveCompleted = false) ∧
    (∀ t o correction, { m with lastMove := none }.tries e = some (t, o, correction) → t.Restores o)

def taken (m : Telescope P A) : List Nat := if m.wcorrChanged then m.added ++ [m.stored] else m.added

structure Dropped (m m' : Telescope P A) : Prop where
  corr : m'.corr = m.corr
  img : m'.corrImgId = m.corrImgId
  obs : m'.corrObsId = m.corrObsId
  waits : m'.wcorrChanged = false
  applied : m'.applied = m.applied
  stored : m'.stored = m.stored
  added : m'.added = m.taken

structure Carried (m m' : Telescope P A) : Prop where
  corr : m'.corr = if m.wcorrChanged then m.corr + m.wcorr else m.corr
  waits : m'.wcorrChanged = false
  applied : m'.applied = if m.wcorrChanged then m.applied ++ [m.wcorr] else m.applied
  stored : m'.stored = m.stored
  added : m'.added = m.taken

def Uncorrected (m m' : Telescope P A) : Prop :=
  m'.corr = m.corr ∧ m'.corrImgId = m.corrImgId ∧ m'.corrObsId = m.corrObsId ∧ m'.wcorr = m.wcorr ∧
    m'.wcorrChanged = m.wcorrChanged ∧ m'.applied = m.applied ∧ m'.stored = m.stored ∧ m'.added = m.added

variable {m n k : Telescope P A}

theorem Uncorrected.trans (first : Uncorrected m n) (second : Uncorrected n k) : Uncorrected m k := by
  obtain ⟨corr, img, obs, wcorr, waits, applied, stored, added⟩ := first
  obtain ⟨corr', img', obs', wcorr', waits', applied', stored', added'⟩ := second
  exact ⟨corr'.trans corr, img'.trans img, obs'.trans obs, wcorr'.trans wcorr, waits'.trans waits, applied'.trans applied,
    stored'.trans stored, added'.trans added⟩

theorem Dropped.uncorrected (dropped : Dropped m n) (same : Uncorrected n k) : Dropped m k := by
  obtain ⟨corr, img, obs, -, waits, applied, stored, added⟩ := same
  exact ⟨corr.trans dropped.corr, img.trans dropped.img, obs.trans dropped.obs, waits.trans dropped.waits,
    applied.trans dropped.applied, stored.trans dropped.stored, added.trans dropped.added⟩

theorem corrected_adds (m : Telescope P A) :
    m.corrected.corr = (if m.wcorrChanged then m.corr + m.wcorr else m.corr) ∧
      m.corrected.wcorr = m.wcorr ∧ m.corrected.wcorrChanged = m.wcorrChanged ∧ m.corrected.applied = m.applied ∧
      m.corrected.stored = m.stored ∧ m.corrected.added = m.taken := by
  unfold corrected taken
  cases changed : m.wcorrChanged <;> cases offset : m.woffsChanged <;> simp [changed, offset]

theorem corrected_idle (idle : m.wcorrChanged = false) : Uncorrected m m.corrected := by
  unfold corrected
  rw [idle]
  cases offset : m.woffsChanged <;> simp [Uncorrected, idle, offset]

theorem rollback_dropped (same : Uncorrected m.corrected n) : Dropped m (n.rollback m) := by
  obtain ⟨-, -, waits, applied, stored, added⟩ := corrected_adds m
  unfold rollback
  split
  · exact ⟨rfl, rfl, rfl, rfl, same.2.2.2.2.2.1.trans applied, same.2.2.2.2.2.2.1.trans stored,
      same.2.2.2.2.2.2.2.trans added⟩
  · rename_i idle
    rw [Bool.not_eq_true] at idle
    have kept := (corrected_idle idle).trans same
    exact ⟨kept.1, kept.2.1, kept.2.2.1, kept.2.2.2.2.1.trans idle, kept.2.2.2.2.2.1, kept.2.2.2.2.2.2.1,
      same.2.2.2.2.2.2.2.trans added⟩

theorem stopTracking_uncorrected (m : Telescope P A) (stopMsg : Bool) : Uncorrected m (m.stopTracking stopMsg) := by
  obtain ⟨_, _, _, stopped⟩ := m.stopTracking_eq stopMsg
  rw [stopped]
  exact ⟨rfl, rfl, rfl, rfl, rfl, rfl, rfl, rfl⟩

theorem inaccessible_uncorrected (m : Telescope P A) : Uncorrected m m.inaccessible :=
  (stopTracking_uncorrected (m.setOri none) false).trans ⟨rfl, rfl, rfl, rfl, rfl, rfl, rfl, rfl⟩

theorem movementFailed_uncorrected (m : Telescope P A) : Uncorrected m m.movementFailed :=
  (stopTracking_uncorrected m false).trans ⟨rfl, rfl, rfl, rfl, rfl, rfl, rfl, rfl⟩

theorem told_uncorrected (m : Telescope P A) (correction : Bool) :
    Uncorrected m { (m.moveStarted correction).call .startResync with arrived := none } := by
  cases correction <;> exact ⟨rfl, rfl, rfl, rfl, rfl, rfl, rfl, rfl⟩

theorem moves_carried (same : Uncorrected m.corrected n) : Carried m n.moves := by
  obtain ⟨adds, wcorr, waits, applied, stored, added⟩ := corrected_adds m
  obtain ⟨corr, -, -, wcorr', waits', applied', stored', added'⟩ := same
  refine ⟨corr.trans adds, rfl, ?_, stored'.trans stored, added'.trans added⟩
  simp only [moves, waits', waits, wcorr', wcorr, applied', applied]

theorem resync_corrects (m : Telescope P A) (o : Outcome P) (correction : Bool) :
    if (m.resync o correction).2 then Carried m.renumbered (m.resync o correction).1
    else m.fails o ∧ Dropped m.renumbered (m.resync o correction).1 := by
  have same : Uncorrected m.renumbered.corrected m.renumbered.corrected := ⟨rfl, rfl, rfl, rfl, rfl, rfl, rfl, rfl⟩
  have told := told_uncorrected m.renumbered.corrected correction
  unfold resync fails
  rw [← m.prepared_refuses o]
  dsimp only
  split
  · rename_i refused
    exact ⟨.inl refused, rollback_dropped same⟩
  · split
    · rename_i below
      exact ⟨.inr (.inl below), rollback_dropped (inaccessible_uncorrected _)⟩
    · cases starts : o.starts with
      | true => exact moves_carried told
      | false => exact ⟨.inr (.inr rfl), rollback_dropped (told.trans (movementFailed_uncorrected _))⟩

/-- The sum, and the numbers of the corrections that were added: all were stored, and the one that waits was not added. -/
structure Ledger (m : Telescope P A) : Prop where
  sum : m.corr = m.applied.sum
  once : m.added.Nodup
  stored : ∀ number ∈ m.added, number ≤ m.stored
  waits : m.wcorrChanged = true → m.stored ∉ m.added

theorem Ledger.uncorrected (ledger : Ledger m) (same : Uncorrected m n) : Ledger n := by
  obtain ⟨corr, -, -, -, waits, applied, stored, added⟩ := same
  constructor
  · rw [corr, applied]
    exact ledger.sum
  · rw [added]
    exact ledger.once
  · rw [added, stored]
    exact ledger.stored
  · rw [waits, stored, added]
    exact ledger.waits

theorem Ledger.taken (ledger : Ledger m) : m.taken.Nodup ∧ ∀ number ∈ m.taken, number ≤ m.stored := by
  unfold Telescope.taken
  split
  · rename_i changed
    have fresh := ledger.waits changed
    constructor
    · rw [List.nodup_append]
      refine ⟨ledger.once, List.nodup_singleton _, fun a old b new => ?_⟩
      rintro rfl
      rw [List.mem_singleton.mp new] at old
      exact fresh old
    · intro number added
      rcases List.mem_append.mp added with old | new
      · exact ledger.stored number old
      · exact (List.mem_singleton.mp new).le
  · exact ⟨ledger.once, ledger.stored⟩

theorem Ledger.dropped (ledger : Ledger m) (dropped : Dropped m n) : Ledger n := by
  obtain ⟨once, stored⟩ := ledger.taken
  constructor
  · rw [dropped.corr, dropped.applied]
    exact ledger.sum
  · rw [dropped.added]
    exact once
  · rw [dropped.added, dropped.stored]
    exact stored
  · intro waits
    rw [dropped.waits] at waits
    contradiction

theorem Ledger.carried (ledger : Ledger m) (carried : Carried m n) : Ledger n := by
  obtain ⟨once, stored⟩ := ledger.taken
  constructor
  · rw [carried.corr, carried.applied]
    split
    · rw [List.sum_append, List.sum_singleton, ledger.sum]
    · exact ledger.sum
  · rw [carried.added]
    exact once
  · rw [carried.added, carried.stored]
    exact stored
  · intro waits
    rw [carried.waits] at waits
    contradiction

theorem Ledger.incMoveNum (ledger : Ledger m) : Ledger m.incMoveNum := by
  constructor
  · exact List.sum_nil.symm
  · exact ledger.once
  · exact ledger.stored
  · intro waits
    contradiction

theorem Ledger.renumbered (ledger : Ledger m) : Ledger m.renumbered := by
  unfold Telescope.renumbered
  split
  · exact ledger.incMoveNum
  · exact ledger

theorem targeted_uncorrected (m : Telescope P A) (orbit : P) : Uncorrected m (m.targeted orbit) := by
  unfold targeted
  dsimp only
  split <;> exact ⟨rfl, rfl, rfl, rfl, rfl, rfl, rfl, rfl⟩

theorem Ledger.startResyncMove (ledger : Ledger m) (o : Outcome P) (correction : Bool) :
    Ledger (m.startResyncMove o correction).1 := by
  have target := ledger.uncorrected (targeted_uncorrected m o.orbit)
  have tried : Ledger ((m.targeted o.orbit).resync o correction).1 := by
    have corrects := resync_corrects (m.targeted o.orbit) o correction
    split at corrects
    · exact target.renumbered.carried corrects
    · exact target.renumbered.dropped corrects.2
  unfold Telescope.startResyncMove
  dsimp only
  split
  · exact target.uncorrected ⟨rfl, rfl, rfl, rfl, rfl, rfl, rfl, rfl⟩
  · exact tried.uncorrected ⟨rfl, rfl, rfl, rfl, rfl, rfl, rfl, rfl⟩

theorem targeted_newTarget (m : Telescope P A) (orbit : P) : (m.targeted orbit).newTarget = m.newTarget := by
  unfold targeted newTarget
  by_cases planet : m.mpec = "" <;> simp [planet, setOri]

theorem targeted_refuses (m : Telescope P A) (orbit : P) (o : Outcome P) :
    (m.targeted orbit).refuses o = m.refuses o := by
  unfold targeted
  dsimp only
  split <;> rfl

theorem startResyncMove_restores {o : Outcome P} (restores : m.Restores o) (correction : Bool)
    (failed : (m.startResyncMove o correction).2 = false) :
    (m.startResyncMove o correction).1.corr = m.corr ∧ (m.startResyncMove o correction).1.corrImgId = m.corrImgId ∧
      (m.startResyncMove o correction).1.corrObsId = m.corrObsId ∧
      (m.startResyncMove o correction).1.wcorrChanged = false := by
  have target := targeted_uncorrected m o.orbit
  have known := m.targeted_located o.orbit
  unfold startResyncMove at failed ⊢
  dsimp only at failed ⊢
  split at failed <;> rename_i ori
  · rw [if_pos ori]
    have unknown : ¬m.Located := fun located => known.mpr located ori
    exact ⟨target.1, target.2.1, target.2.2.1, target.2.2.2.2.1.trans (restores.1 unknown)⟩
  · rw [if_neg ori]
    have located : m.Located := known.mp ori
    have corrects := resync_corrects (m.targeted o.orbit) o correction
    rw [failed] at corrects
    simp only [Bool.false_eq_true, if_false] at corrects
    obtain ⟨fails, dropped⟩ := corrects
    have same : (m.targeted o.orbit).renumbered.corr = m.corr ∧ (m.targeted o.orbit).renumbered.corrImgId = m.corrImgId ∧
        (m.targeted o.orbit).renumbered.corrObsId = m.corrObsId := by
      unfold renumbered
      rw [targeted_newTarget]
      split
      · rename_i new
        have failed' : m.fails o := by
          unfold Telescope.fails at fails ⊢
          rwa [targeted_refuses] at fails
        obtain ⟨corr, img, obs⟩ := (restores.2 located new).1 failed'
        exact ⟨corr.symm, img.symm, obs.symm⟩
      · exact ⟨target.1, target.2.1, target.2.2.1⟩
    exact ⟨dropped.corr.trans same.1, dropped.img.trans same.2.1, dropped.obs.trans same.2.2, dropped.waits⟩

def SameMove (m n : Telescope P A) : Prop :=
  n.moving = m.moving ∧ n.startedNum = m.startedNum ∧ n.moveNum = m.moveNum ∧ n.moveCompleted = m.moveCompleted ∧
    n.arrived = m.arrived

theorem SameMove.trans (first : SameMove m n) (second : SameMove n k) : SameMove m k := by
  obtain ⟨moving, started, number, completed, arrived⟩ := first
  obtain ⟨moving', started', number', completed', arrived'⟩ := second
  exact ⟨moving'.trans moving, started'.trans started, number'.trans number, completed'.trans completed,
    arrived'.trans arrived⟩

/-- A move under way has the present number; and if one arrived, so has it, and nothing moved since. -/
def Numbered (m : Telescope P A) : Prop :=
  (m.moveCompleted = true → m.arrived = some m.moveNum) ∧ (m.moving = .moving → m.startedNum = m.moveNum)

theorem Numbered.sameMove (numbered : Numbered m) (same : SameMove m n) : Numbered n := by
  obtain ⟨moving, started, number, completed, arrived⟩ := same
  unfold Numbered
  rw [moving, started, number, completed, arrived]
  exact numbered

theorem rollback_sameMove (m before : Telescope P A) : SameMove m (m.rollback before) := by
  unfold rollback
  split <;> exact ⟨rfl, rfl, rfl, rfl, rfl⟩

theorem corrected_sameMove (m : Telescope P A) : SameMove m m.corrected := by
  unfold corrected
  dsimp only
  split_ifs <;> exact ⟨rfl, rfl, rfl, rfl, rfl⟩

theorem stopTracking_sameMove (m : Telescope P A) (stopMsg : Bool) : SameMove m (m.stopTracking stopMsg) := by
  obtain ⟨_, _, _, stopped⟩ := m.stopTracking_eq stopMsg
  rw [stopped]
  exact ⟨rfl, rfl, rfl, rfl, rfl⟩

theorem resync_numbered {o : Outcome P} (numbered : m.moving = .moving → m.startedNum = m.moveNum)
    (refused : m.newTarget = true → m.refuses o = true → m.moving ≠ .moving) (completed : m.moveCompleted = false)
    (correction : Bool) : (m.resync o correction).1.Numbered := by
  have start : m.renumbered.moveCompleted = false := by
    unfold renumbered
    split <;> exact completed
  have added := (corrected_sameMove m.renumbered).2.2.2.1
  unfold resync
  dsimp only
  rw [m.prepared_refuses o]
  split
  · rename_i stays
    have same : m.renumbered.moving = .moving → m.renumbered.startedNum = m.renumbered.moveNum := by
      unfold renumbered
      split
      · rename_i new
        exact fun moving => absurd moving (refused new stays)
      · exact numbered
    have kept := (corrected_sameMove m.renumbered).trans (rollback_sameMove _ m.renumbered)
    have before : m.renumbered.Numbered := ⟨fun arrived => by rw [start] at arrived; contradiction, same⟩
    exact before.sameMove kept
  · have idle {x : Telescope P A} (observes : x.moving = .observing) (completed : x.moveCompleted = false) : x.Numbered :=
      ⟨fun arrived => by rw [completed] at arrived; contradiction, fun moving => by rw [observes] at moving; contradiction⟩
    have told : { (m.renumbered.corrected.moveStarted correction).call .startResync with arrived := none }.moveCompleted =
        false := by
      cases correction <;> exact added.trans start
    split
    · have kept := rollback_sameMove m.renumbered.corrected.inaccessible m.renumbered
      have stopped := (stopTracking_sameMove (m.renumbered.corrected.setOri none) false).2.2.2.1
      exact idle (kept.1.trans rfl) (kept.2.2.2.1.trans (stopped.trans (added.trans start)))
    · split
      · exact ⟨fun arrived => by rw [show _ = false from told] at arrived; contradiction, fun _ => rfl⟩
      · have kept := rollback_sameMove
          { (m.renumbered.corrected.moveStarted correction).call .startResync with arrived := none }.movementFailed m.renumbered
        have stopped := (stopTracking_sameMove
          { (m.renumbered.corrected.moveStarted correction).call .startResync with arrived := none } false).2.2.2.1
        exact idle (kept.1.trans rfl) (kept.2.2.2.1.trans (stopped.trans told))

theorem startResyncMove_numbered {o : Outcome P} (restores : m.Restores o)
    (numbered : m.moving = .moving → m.startedNum = m.moveNum) (correction : Bool) :
    (m.startResyncMove o correction).1.Numbered := by
  have target : (m.targeted o.orbit).moving = m.moving ∧ (m.targeted o.orbit).startedNum = m.startedNum ∧
      (m.targeted o.orbit).moveNum = m.moveNum ∧ (m.targeted o.orbit).moveCompleted = false := by
    unfold targeted
    dsimp only
    split <;> exact ⟨rfl, rfl, rfl, rfl⟩
  obtain ⟨moving, started, number, completed⟩ := target
  have known := m.targeted_located o.orbit
  have numbered' : (m.targeted o.orbit).moving = .moving → (m.targeted o.orbit).startedNum = (m.targeted o.orbit).moveNum := by
    rw [moving, started, number]
    exact numbered
  unfold startResyncMove
  dsimp only
  split <;> rename_i ori
  · exact ⟨fun arrived => by rw [show _ = false from completed] at arrived; contradiction, numbered'⟩
  · refine resync_numbered numbered' (fun new stays => ?_) completed correction
    rw [targeted_newTarget] at new
    rw [targeted_refuses] at stays
    rw [moving]
    exact (restores.2 (known.mp ori) new).2 stays

def Kept (m n : Telescope P A) : Prop := Uncorrected m n ∧ SameMove m n ∧ n.lastMove = m.lastMove

theorem Kept.refl (m : Telescope P A) : Kept m m :=
  ⟨⟨rfl, rfl, rfl, rfl, rfl, rfl, rfl, rfl⟩, ⟨rfl, rfl, rfl, rfl, rfl⟩, rfl⟩

theorem Kept.trans (first : Kept m n) (second : Kept n k) : Kept m k :=
  ⟨first.1.trans second.1, first.2.1.trans second.2.1, second.2.2.trans first.2.2⟩

theorem stopTracking_kept (m : Telescope P A) (stopMsg : Bool) : Kept m (m.stopTracking stopMsg) := by
  obtain ⟨_, _, _, stopped⟩ := m.stopTracking_eq stopMsg
  rw [stopped]
  exact ⟨⟨rfl, rfl, rfl, rfl, rfl, rfl, rfl, rfl⟩, ⟨rfl, rfl, rfl, rfl, rfl⟩, rfl⟩

theorem setTracking_held (m : Telescope P A) (track : Nat) : Kept m (m.setTracking track true false) := by
  obtain ⟨_, _, _, _, set⟩ := m.setTracking_eq track true false
  rw [set]
  exact ⟨⟨rfl, rfl, rfl, rfl, rfl, rfl, rfl, rfl⟩, ⟨rfl, rfl, rfl, rfl, rfl⟩, rfl⟩

theorem startTracking_held (m : Telescope P A) (check : Bool) : Kept m (m.startTracking check) := by
  obtain ⟨_, _, _, _, started⟩ := m.startTracking_eq check
  rw [started]
  exact ⟨⟨rfl, rfl, rfl, rfl, rfl, rfl, rfl, rfl⟩, ⟨rfl, rfl, rfl, rfl, rfl⟩, rfl⟩

theorem setMpec_kept (m : Telescope P A) (orbit : String) : Kept m (m.setMpec orbit) :=
  ⟨⟨rfl, rfl, rfl, rfl, rfl, rfl, rfl, rfl⟩, ⟨rfl, rfl, rfl, rfl, rfl⟩, rfl⟩

theorem setOri_kept (m : Telescope P A) (p : Option P) : Kept m (m.setOri p) :=
  ⟨⟨rfl, rfl, rfl, rfl, rfl, rfl, rfl, rfl⟩, ⟨rfl, rfl, rfl, rfl, rfl⟩, rfl⟩

def Sound (m : Telescope P A) : Prop := Ledger m ∧ Numbered m

theorem Sound.kept (sound : Sound m) (same : Kept m n) : Sound n :=
  ⟨sound.1.uncorrected same.1, sound.2.sameMove same.2.1⟩

def Prepared (m t : Telescope P A) : Prop :=
  Uncorrected m t ∧ t.moving = m.moving ∧ t.startedNum = m.startedNum ∧ t.moveNum = m.moveNum

theorem Kept.prepared (same : Kept m n) : Prepared m n := ⟨same.1, same.2.1.1, same.2.1.2.1, same.2.1.2.2.1⟩

theorem moveTo_tries (m : Telescope P A) (o : Outcome P) :
    Kept ((m.startTracking true).startResyncMove o false).1 (m.moveTo o) := by
  unfold moveTo
  dsimp only
  split
  · exact .refl _
  · exact stopTracking_kept _ true

theorem checkMoves_carries (moving : m.moving = .moving) (waits : m.correction = true) (o : Outcome P) :
    m.checkMoves (.ended true) o =
      ({ m.startTracking false with going := false, moveCompleted := true, arrived := some m.startedNum }.startResyncMove o
        true).1 := by
  obtain ⟨_, _, _, _, started⟩ := m.startTracking_eq false
  have waits' : (m.woffsChanged || m.wcorrChanged) = true := waits
  unfold checkMoves
  rw [moving]
  simp only [endMove, started, correction, waits', if_true, if_false, Bool.true_eq_false]

theorem handle_tries {e : Event P A} {t : Telescope P A} {o : Outcome P} {correction : Bool}
    (trying : m.tries e = some (t, o, correction)) :
    Prepared m t ∧ Kept (t.startResyncMove o correction).1 (m.handle e) := by
  cases e with
  | move p o' =>
    simp only [tries, Option.some.injEq, Prod.mk.injEq] at trying
    obtain ⟨rfl, rfl, rfl⟩ := trying
    exact ⟨(((setOri_kept m _).trans (setMpec_kept _ "")).trans (startTracking_held _ true)).prepared, moveTo_tries _ _⟩
  | moveMpec orbit valid o' =>
    cases valid with
    | false => simp [tries] at trying
    | true =>
      simp only [tries, Option.some.injEq, Prod.mk.injEq] at trying
      obtain ⟨rfl, rfl, rfl⟩ := trying
      exact ⟨((setMpec_kept m orbit).trans (startTracking_held _ true)).prepared, moveTo_tries _ _⟩
  | altAz p o' =>
    cases p with
    | none => simp [tries] at trying
    | some p =>
      simp only [tries, Option.some.injEq, Prod.mk.injEq] at trying
      obtain ⟨rfl, rfl, rfl⟩ := trying
      exact ⟨(((setMpec_kept m "").trans (stopTracking_kept _ true)).trans (setOri_kept _ _)).prepared, .refl _⟩
  | resync p o' =>
    simp only [tries, Option.some.injEq, Prod.mk.injEq] at trying
    obtain ⟨rfl, rfl, rfl⟩ := trying
    exact ⟨((setOri_kept m _).trans (setMpec_kept _ "")).prepared, .refl _⟩
  | writeOri p o' =>
    simp only [tries] at trying
    split at trying
    · simp at trying
    · rename_i differs
      simp only [Option.some.injEq, Prod.mk.injEq] at trying
      obtain ⟨rfl, rfl, rfl⟩ := trying
      simp only [handle, if_neg differs]
      exact ⟨((setOri_kept m _).trans (setMpec_kept _ "")).prepared, .refl _⟩
  | writeMpec orbit valid o' =>
    simp only [tries] at trying
    split at trying
    · simp at trying
    · rename_i differs
      simp only [Option.some.injEq, Prod.mk.injEq] at trying
      obtain ⟨rfl, rfl, rfl⟩ := trying
      simp only [handle, if_neg differs]
      exact ⟨(setMpec_kept m orbit).prepared, .refl _⟩
  | writeTarAltAz p o' =>
    cases p with
    | none => simp [tries] at trying
    | some p =>
      simp only [tries, Option.some.injEq, Prod.mk.injEq] at trying
      obtain ⟨rfl, rfl, rfl⟩ := trying
      exact ⟨(setOri_kept m _).prepared, .refl _⟩
  | writeOffs a o' =>
    simp only [tries] at trying
    split at trying
    · simp at trying
    · rename_i differs
      simp only [Option.some.injEq, Prod.mk.injEq] at trying
      obtain ⟨rfl, rfl, rfl⟩ := trying
      simp only [handle, if_neg differs]
      exact ⟨⟨⟨rfl, rfl, rfl, rfl, rfl, rfl, rfl, rfl⟩, rfl, rfl, rfl⟩, .refl _⟩
  | change a o' =>
    simp only [tries, Option.some.injEq, Prod.mk.injEq] at trying
    obtain ⟨rfl, rfl, rfl⟩ := trying
    exact ⟨⟨⟨rfl, rfl, rfl, rfl, rfl, rfl, rfl, rfl⟩, rfl, rfl, rfl⟩, .refl _⟩
  | checkMoves poll o' =>
    cases poll with
    | running | failed => simp [tries] at trying
    | ended ok => cases ok with
      | false => simp [tries] at trying
      | true =>
        simp only [tries] at trying
        split at trying
        · rename_i carries
          simp only [Option.some.injEq, Prod.mk.injEq] at trying
          obtain ⟨rfl, rfl, rfl⟩ := trying
          have held := startTracking_held m false
          refine ⟨⟨held.1.trans ⟨rfl, rfl, rfl, rfl, rfl, rfl, rfl, rfl⟩, held.2.1.1, held.2.1.2.1, held.2.1.2.2.1⟩, ?_⟩
          simp only [handle]
          rw [checkMoves_carries carries.1 carries.2 o']
          exact .refl _
        · simp at trying
  | bopState telMove o' =>
    simp only [tries] at trying
    split at trying
    · rename_i carries
      simp only [Option.some.injEq, Prod.mk.injEq] at trying
      obtain ⟨rfl, rfl, rfl⟩ := trying
      simp only [handle, setFullBopState, if_pos carries]
      exact ⟨(Kept.refl m).prepared, .refl _⟩
    · simp at trying
  | writeWoffs | writeOffsAltAz | correct | park | stop | wormStop | wormStart | writeTracking | writeSettings
  | trackingTimer | belowHorizon | masterState | scriptEnds => simp [tries] at trying

theorem parks_sound (sound : Sound m) (completed : m.moveCompleted = false) (forget : Bool) : Sound (m.parks forget) := by
  have inc := sound.1.incMoveNum
  have idle : (m.parks forget).moveCompleted = false := by cases forget <;> exact completed
  refine ⟨?_, fun arrived => by rw [idle] at arrived; contradiction, fun moving => ?_⟩
  · cases forget <;> exact inc.uncorrected ⟨rfl, rfl, rfl, rfl, rfl, rfl, rfl, rfl⟩
  · cases forget <;> cases moving

theorem correct_sound (sound : Sound m) (c : Correction A) :
    Sound (m.correct c).1 ∧ (m.correct c).1.lastMove = m.lastMove := by
  have fresh : m.stored + 1 ∉ m.added := fun added => absurd (sound.1.stored _ added) (Nat.not_succ_le_self _)
  have stored : Ledger { m.setWcorr c.total with wCorrImgId := c.imgId, wCorrObsId := c.obsId, stored := m.stored + 1 } :=
    { sum := sound.1.sum
      once := sound.1.once
      stored := fun number added => Nat.le_succ_of_le (sound.1.stored number added)
      waits := fun _ => fresh }
  unfold correct
  dsimp only
  split_ifs
  · exact ⟨sound, rfl⟩
  · exact ⟨sound, rfl⟩
  · exact ⟨⟨stored, sound.2⟩, rfl⟩
  · exact ⟨⟨stored.uncorrected ⟨rfl, rfl, rfl, rfl, rfl, rfl, rfl, rfl⟩, sound.2⟩, rfl⟩

theorem startPark_sound (sound : Sound m) (o : ParkOutcome) :
    Sound (m.startPark o) ∧ (m.startPark o).lastMove = m.lastMove := by
  have refused : Kept m { m.setMpec "" with tracks := false } :=
    (setMpec_kept m "").trans ⟨⟨rfl, rfl, rfl, rfl, rfl, rfl, rfl, rfl⟩, ⟨rfl, rfl, rfl, rfl, rfl⟩, rfl⟩
  have stopped := refused.trans (stopTracking_kept _ true)
  unfold startPark
  dsimp only
  split
  · exact ⟨sound, rfl⟩
  · split
    · exact ⟨sound.kept refused, rfl⟩
    · generalize { m.setMpec "" with tracks := false }.stopTracking true = s at stopped ⊢
      have told : Sound s.toldToPark := by
        have sound' := sound.kept stopped
        exact ⟨sound'.1.uncorrected ⟨rfl, rfl, rfl, rfl, rfl, rfl, rfl, rfl⟩, nofun, sound'.2.2⟩
      split
      · exact ⟨told, stopped.2.2⟩
      · rename_i forget _
        have completed : s.toldToPark.moveCompleted = false := rfl
        have parks : (s.toldToPark.parks forget).lastMove = s.lastMove := by cases forget <;> rfl
        exact ⟨parks_sound told completed forget, parks.trans stopped.2.2⟩

theorem checkMoves_rests (sound : Sound m) {poll : Poll} {o : Outcome P} (rests : m.tries (.checkMoves poll o) = none) :
    Sound (m.checkMoves poll o) ∧ (m.checkMoves poll o).lastMove = m.lastMove := by
  have parked : Sound { m.parked with going := false } := ⟨sound.1.uncorrected ⟨rfl, rfl, rfl, rfl, rfl, rfl, rfl, rfl⟩, sound.2.1, nofun⟩
  have observes : Sound { m.observes with going := false } :=
    ⟨sound.1.uncorrected ⟨rfl, rfl, rfl, rfl, rfl, rfl, rfl, rfl⟩, sound.2.1, nofun⟩
  unfold checkMoves
  cases moving : m.moving with
  | observing | parked => exact ⟨sound, rfl⟩
  | parking => cases poll with
    | running => exact ⟨sound, rfl⟩
    | failed | ended ok => exact ⟨parked, rfl⟩
  | moving => cases poll with
    | running => exact ⟨sound, rfl⟩
    | failed => exact ⟨observes, rfl⟩
    | ended ok => cases ok with
      | false =>
        simp only [endMove, if_true, Bool.false_eq_true, if_false]
        exact ⟨observes, rfl⟩
      | true =>
        have nothing : m.correction = false := by
          by_contra waits
          rw [Bool.not_eq_false] at waits
          simp [tries, moving, waits] at rests
        have held := startTracking_held m false
        have idle : (m.startTracking false).correction = false := by
          obtain ⟨_, _, _, _, started⟩ := m.startTracking_eq false
          rw [started]
          exact nothing
        simp only [correction] at idle
        simp only [endMove, correction, idle, if_true, Bool.true_eq_false, if_false, Bool.false_eq_true]
        rw [show (m.startTracking false).startedNum = m.startedNum from held.2.1.2.1]
        refine ⟨⟨(sound.1.uncorrected held.1).uncorrected ⟨rfl, rfl, rfl, rfl, rfl, rfl, rfl, rfl⟩, ?_⟩, held.2.2⟩
        refine ⟨fun _ => ?_, nofun⟩
        rw [sound.2.2 moving]
        exact congrArg some held.2.1.2.2.1.symm

theorem changeMasterState_sound (sound : Sound m) (new : MasterState) (o : ParkOutcome) :
    Sound (m.changeMasterState new o) ∧ (m.changeMasterState new o).lastMove = m.lastMove := by
  have standby (n : Telescope P A) (old : MasterState) : Kept n (n.standbyRule old new) := by
    unfold standbyRule
    split_ifs <;> exact ⟨⟨rfl, rfl, rfl, rfl, rfl, rfl, rfl, rfl⟩, ⟨rfl, rfl, rfl, rfl, rfl⟩, rfl⟩
  have stop : Kept m (m.stopRule new) := by
    unfold stopRule
    split_ifs
    · exact Kept.trans (n := { m with masterState := new, blockMove := true })
        ⟨⟨rfl, rfl, rfl, rfl, rfl, rfl, rfl, rfl⟩, ⟨rfl, rfl, rfl, rfl, rfl⟩, rfl⟩ (stopTracking_kept _ true)
    · exact ⟨⟨rfl, rfl, rfl, rfl, rfl, rfl, rfl, rfl⟩, ⟨rfl, rfl, rfl, rfl, rfl⟩, rfl⟩
    · exact ⟨⟨rfl, rfl, rfl, rfl, rfl, rfl, rfl, rfl⟩, ⟨rfl, rfl, rfl, rfl, rfl⟩, rfl⟩
  have first := sound.kept stop
  unfold changeMasterState
  dsimp only
  split
  · obtain ⟨parked, note⟩ := startPark_sound first o
    exact ⟨parked.kept (standby _ _), (standby _ _).2.2.trans (note.trans stop.2.2)⟩
  · exact ⟨first.kept (standby _ _), (standby _ _).2.2.trans stop.2.2⟩

theorem handle_rests (sound : Sound m) {e : Event P A} (rests : m.tries e = none)
    (offset : e = .writeOffsAltAz → m.moveCompleted = false) :
    Sound (m.handle e) ∧ (m.handle e).lastMove = m.lastMove := by
  have kept {n : Telescope P A} (same : Kept m n) : Sound n ∧ n.lastMove = m.lastMove := ⟨sound.kept same, same.2.2⟩
  cases e with
  | move | resync | change => simp [tries] at rests
  | moveMpec orbit valid o => cases valid with
    | true => simp [tries] at rests
    | false => exact kept (setMpec_kept m orbit)
  | altAz p o => cases p with
    | some p => simp [tries] at rests
    | none => exact kept ((setMpec_kept m "").trans (stopTracking_kept _ true))
  | writeOri p o =>
    simp only [tries, ite_eq_left_iff, reduceCtorEq, imp_false, not_not] at rests
    simp only [handle]
    rw [if_pos rests]
    exact kept (.refl m)
  | writeMpec orbit valid o =>
    simp only [tries, ite_eq_left_iff, reduceCtorEq, imp_false, not_not] at rests
    simp only [handle]
    rw [if_pos rests]
    exact kept (.refl m)
  | writeTarAltAz p o => cases p with
    | some p => simp [tries] at rests
    | none => exact kept (.refl m)
  | writeOffs a o =>
    simp only [tries, ite_eq_left_iff, reduceCtorEq, imp_false, not_not] at rests
    simp only [handle]
    rw [if_pos rests]
    exact kept (.refl m)
  | writeWoffs a =>
    simp only [handle]
    split
    · exact kept (.refl m)
    · exact kept ⟨⟨rfl, rfl, rfl, rfl, rfl, rfl, rfl, rfl⟩, ⟨rfl, rfl, rfl, rfl, rfl⟩, rfl⟩
  | writeOffsAltAz =>
    refine ⟨⟨sound.1.uncorrected ⟨rfl, rfl, rfl, rfl, rfl, rfl, rfl, rfl⟩, fun arrived => ?_, sound.2.2⟩, rfl⟩
    have completed : m.moveCompleted = true := arrived
    rw [offset rfl] at completed
    contradiction
  | correct c => exact correct_sound sound c
  | park o => exact startPark_sound sound o
  | stop | wormStop | belowHorizon => exact kept (stopTracking_kept m true)
  | wormStart =>
    simp only [handle, wormStart]
    split
    · exact kept (.refl m)
    · exact kept (startTracking_held m true)
  | writeTracking track =>
    simp only [handle, writeTracking]
    split_ifs <;> first | exact kept (.refl m) | exact kept (setTracking_held m track)
  | writeSettings => exact kept ⟨⟨rfl, rfl, rfl, rfl, rfl, rfl, rfl, rfl⟩, ⟨rfl, rfl, rfl, rfl, rfl⟩, rfl⟩
  | trackingTimer =>
    simp only [handle]
    split_ifs <;> exact kept (.refl m)
  | checkMoves poll o => exact checkMoves_rests sound rests
  | bopState telMove o =>
    simp only [tries, ite_eq_right_iff, reduceCtorEq, imp_false] at rests
    simp only [handle, setFullBopState]
    rw [if_neg rests]
    exact kept (.refl m)
  | masterState new o => exact changeMasterState_sound sound new o
  | scriptEnds => exact kept ⟨⟨rfl, rfl, rfl, rfl, rfl, rfl, rfl, rfl⟩, ⟨rfl, rfl, rfl, rfl, rfl⟩, rfl⟩

theorem Sound.noted (sound : Sound m) : Sound { m with lastMove := none } :=
  ⟨sound.1.uncorrected ⟨rfl, rfl, rfl, rfl, rfl, rfl, rfl, rfl⟩, sound.2⟩

theorem handle_sound (sound : Sound m) (unnoted : m.lastMove = none) (e : Event P A)
    (offset : e = .writeOffsAltAz → m.moveCompleted = false)
    (restores : ∀ t o correction, m.tries e = some (t, o, correction) → t.Restores o) :
    Sound (m.handle e) ∧ ((m.handle e).lastMove = some false →
      (m.handle e).corr = m.corr ∧ (m.handle e).corrImgId = m.corrImgId ∧ (m.handle e).corrObsId = m.corrObsId ∧
        (m.handle e).wcorrChanged = false) := by
  cases trying : m.tries e with
  | none =>
    obtain ⟨sound', note⟩ := handle_rests sound trying offset
    refine ⟨sound', fun failed => ?_⟩
    rw [note, unnoted] at failed
    contradiction
  | some try_ =>
    obtain ⟨t, o, correction⟩ := try_
    obtain ⟨⟨same, moving, started, number⟩, left⟩ := handle_tries trying
    have proper := restores t o correction trying
    have numbered : t.moving = .moving → t.startedNum = t.moveNum := by
      rw [moving, started, number]
      exact sound.2.2
    have moved : Sound (t.startResyncMove o correction).1 :=
      ⟨(sound.1.uncorrected same).startResyncMove o correction, startResyncMove_numbered proper numbered correction⟩
    refine ⟨moved.kept left, fun failed => ?_⟩
    have note : (t.startResyncMove o correction).1.lastMove = some (t.startResyncMove o correction).2 := rfl
    rw [left.2.2, note] at failed
    obtain ⟨corr, img, obs, waits⟩ := startResyncMove_restores proper correction (Option.some.inj failed)
    obtain ⟨corr', img', obs', -, waits', -⟩ := left.1
    exact ⟨corr'.trans (corr.trans same.1), img'.trans (img.trans same.2.1), obs'.trans (obs.trans same.2.2.1),
      waits'.trans waits⟩

theorem correct_answers (c : Correction A)
    (large : ¬(m.measured c = true ∧ m.ignoreCorrection ≤ c.posErr ∧ c.posErr < m.smallCorrection)) :
    (m.correct c).2 = .ignored ∧ (m.correct c).1 = m ∨ (m.correct c).2 = .accepted ∧ m.measured c = true := by
  unfold correct
  dsimp only
  split_ifs with unmeasured ignored small
  · exact .inl ⟨rfl, rfl⟩
  · exact .inl ⟨rfl, rfl⟩
  · exact absurd ⟨by simpa using unmeasured, not_lt.mp ignored, small⟩ large
  · exact .inr ⟨rfl, by simpa using unmeasured⟩

theorem correct_answer (m : Telescope P A) (c : Correction A) :
    (m.correct c).2 =
      if m.measured c = true ∧ m.ignoreCorrection ≤ c.posErr ∧ m.smallCorrection ≤ c.posErr then .accepted else .ignored := by
  by_cases measured : m.measured c = true
  · by_cases ignored : c.posErr < m.ignoreCorrection
    · simp [correct, measured, ignored]
    · by_cases small : c.posErr < m.smallCorrection <;> simp [correct, setWcorr, measured, ignored, small, not_lt.mp]
  · simp [correct, measured]

theorem correct_noted (c : Correction A) : ({ m with lastMove := none }.correct c).2 = (m.correct c).2 := by
  rw [correct_answer, correct_answer]
  rfl

theorem step_sound (sound : Sound m) (e : Event P A) (proper : Proper m e) : Sound (m.step e) ∧ Conserves m e := by
  have noted : Sound { m with lastMove := none } :=
    ⟨sound.1.uncorrected ⟨rfl, rfl, rfl, rfl, rfl, rfl, rfl, rfl⟩, sound.2⟩
  obtain ⟨large, offset, restores⟩ := proper
  obtain ⟨sound', failed⟩ := handle_sound noted rfl e offset restores
  refine ⟨sound', fun c command ignored => ?_, fun c command accepted => ?_, failed⟩
  · subst command
    rcases correct_answers (m := { m with lastMove := none }) c (large c rfl) with ⟨-, same⟩ | ⟨answer, -⟩
    · exact same
    · rw [correct_noted, ignored] at answer
      contradiction
  · subst command
    rcases correct_answers c (large c rfl) with ⟨answer, -⟩ | ⟨-, measured⟩
    · rw [accepted] at answer
      contradiction
    · unfold Telescope.measured at measured
      simp only [Bool.and_eq_true, decide_eq_true_eq] at measured
      obtain ⟨⟨⟨mark, completed⟩, -⟩, -⟩ := measured
      exact ⟨mark, sound.2.1 completed⟩

/-- In every run whose steps are proper the corrections are conserved, in every state and by every step. -/
theorem corrections_conserved (hasTracking parkingBlockMove blockOnStandby : Bool) (standbyPark : Nat) (ori : Option P)
    (es : List (Event P A))
    (proper : Guarded step Proper (fresh hasTracking parkingBlockMove blockOnStandby standbyPark ori : Telescope P A) es) :
    (∀ done, done <+: es →
        (run step (fresh hasTracking parkingBlockMove blockOnStandby standbyPark ori : Telescope P A) done).Summed) ∧
      Guarded step Conserves (fresh hasTracking parkingBlockMove blockOnStandby standbyPark ori : Telescope P A) es := by
  have initial : (fresh hasTracking parkingBlockMove blockOnStandby standbyPark ori : Telescope P A).Sound :=
    ⟨⟨rfl, List.nodup_nil, nofun, nofun⟩, nofun, nofun⟩
  constructor
  · rintro done ⟨rest, rfl⟩
    have before := ((guarded_append step Proper _ done rest).mp proper).1
    have sound := run_invariant step Proper Sound (fun _ e sound proper => (step_sound sound e proper).1) _ done initial before
    exact ⟨sound.1.sum, sound.1.once⟩
  · have kept (m : Telescope P A) (e : Event P A) (sound : Sound m) (_ : True) (proper : Proper m e) : Sound (m.step e) :=
      (step_sound sound e proper).1
    have same (m : Telescope P A) (e : Event P A) (sound : Sound m) (_ : True) :
        Proper m e ↔ Proper m e ∧ Conserves m e :=
      ⟨fun proper => ⟨proper, (step_sound sound e proper).2⟩, fun both => both.1⟩
    have both := (guarded_congr_invariant kept same initial (guarded_true step _ es)).mp proper
    exact both.mono fun _ _ both => both.2

theorem Proper.of_tries {t : Telescope P A} {e : Event P A} {o : Outcome P} {correction : Bool}
    (trying : { m with lastMove := none }.tries e = some (t, o, correction)) (restores : t.Restores o) : Proper m e := by
  refine ⟨?_, ?_, ?_⟩
  · rintro c rfl
    contradiction
  · rintro rfl
    contradiction
  · intro t' o' correction' trying'
    rw [trying, Option.some_inj, Prod.mk.injEq, Prod.mk.injEq] at trying'
    obtain ⟨rfl, rfl, rfl⟩ := trying'
    exact restores

theorem Proper.checkMoves (idle : m.correction = false) (o : Outcome P) : Proper m (.checkMoves (.ended true) o) := by
  refine ⟨nofun, nofun, fun t o' correction trying => ?_⟩
  have none : { m with lastMove := none }.tries (.checkMoves (.ended true) o) = none :=
    if_neg (fun moves => Bool.noConfusion (idle.symm.trans moves.2))
  rw [none] at trying
  contradiction

theorem Proper.correct {c : Correction A} (large : m.smallCorrection ≤ c.posErr) : Proper m (.correct c) := by
  refine ⟨?_, nofun, fun t o correction trying => ?_⟩
  · rintro c ⟨⟩ ⟨-, -, small⟩
    exact absurd small (not_lt.mpr large)
  · have none : { m with lastMove := none }.tries (.correct c) = none := rfl
    rw [none] at trying
    contradiction

theorem Restores.of_old (located : m.Located) (old : m.newTarget = false) (o : Outcome P) : m.Restores o := by
  refine ⟨fun unlocated => absurd located unlocated, fun _ new => ?_⟩
  rw [old] at new
  contradiction

theorem Proper.bopState (waits : m.correction = true) (located : m.Located) (old : m.newTarget = false) (o : Outcome P) :
    Proper m (.bopState false o) :=
  Proper.of_tries (if_pos ⟨waits, rfl⟩) (Restores.of_old (m := { m with lastMove := none }) located old o)

def arrives : Outcome Int := ⟨0, true, true, true⟩

def carriedCorrection : List (Event Int Int) :=
  [.move 10 arrives, .checkMoves (.ended true) arrives, .correct ⟨1, 0, 0, 1, 1, 3, 1⟩, .bopState false arrives]

theorem carried_conserved :
    Guarded step Conserves (fresh true false false 0 (some 0) : Telescope Int Int) carriedCorrection := by
  have moved : Proper (fresh true false false 0 (some 0) : Telescope Int Int) (.move 10 arrives) := by
    refine Proper.of_tries rfl ?_
    unfold Restores fails Located
    decide
  have located : Located (run step (fresh true false false 0 (some 0) : Telescope Int Int) (carriedCorrection.take 3)) := by
    unfold Located
    decide
  exact (corrections_conserved true false false 0 (some 0) carriedCorrection
    ⟨moved, .checkMoves (by decide) _, .correct (by decide),
      .bopState (by decide) located (by decide) _, trivial⟩).2

def smallIgnored : List (Event Int Int) :=
  [.writeSettings false 0 1 0 0 1, .move 10 arrives, .checkMoves (.ended true) arrives,
    .correct ⟨1, 0, 0, 1, 1, 3, 1 / 2⟩]

/-- It is answered as ignored, but waits for the next move. -/
theorem ignored_correction_waits :
    ¬((∀ done, done <+: smallIgnored → (run step (fresh true false false 0 (some 0) : Telescope Int Int) done).Summed) ∧
      Guarded step Conserves (fresh true false false 0 (some 0) : Telescope Int Int) smallIgnored) := by
  rintro ⟨-, -, -, -, ⟨ignores, -⟩, -⟩
  have same := ignores _ rfl (by decide +kernel)
  have waits := congrArg wcorrChanged same
  revert waits
  decide +kernel

end Rts2.Teld.Telescope
