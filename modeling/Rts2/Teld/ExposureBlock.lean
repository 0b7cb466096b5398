import Rts2.Teld.Telescope

/-! A telescope blocks exposures ahead of a move for an offset or a correction, and while it moves or parks. The cameras of
the observatory wait as long as it does. -/
namespace Rts2.Teld.Telescope

open Lib

variable {P A : Type} [DecidableEq P] [AddCommGroup A] [DecidableEq A]

def UnderWay (m : Telescope P A) : Prop := m.going = true ∧ (m.moving = .moving ∨ m.moving = .parking)

def EndReleases (m : Telescope P A) : Prop :=
  ∀ poll o, poll ≠ .running → m.correction = false → (m.checkMoves poll o).bopExposure = false

/-- The next BOP update without BOP_TEL_MOVE carries out what waits, or drops it and clears the bit. -/
def UpdateReleases (m : Telescope P A) : Prop :=
  ∀ o, (m.setFullBopState false o).bopExposure = false ∨ (m.setFullBopState false o).UnderWay

def Released (m : Telescope P A) : Prop :=
  m.bopExposure = true → m.UnderWay ∧ m.EndReleases ∨ m.correction = true ∧ m.UpdateReleases

/-- A move would be refused by nothing but the mount: neither blocked nor parking, nor is there a move to stop first. -/
def Free (m : Telescope P A) : Prop :=
  m.blockMove = false ∧ ¬(m.parkingBlockMove = true ∧ m.moving = .parking) ∧ m.moving ≠ .moving ∧ m.correcting = false

def NotRefused (m : Telescope P A) (located : Prop) (o : Outcome P) : Prop :=
  m.bopExposure = true → located ∧ m.refuses o = false ∨ m.UnderWay

def blocks (m : Telescope P A) (new : MasterState) : Bool :=
  let stopped := new.stopEverything || !m.masterState.stopEverything && m.blockMove
  if m.blockOnStandby then new.offOrStandby || !m.masterState.offOrStandby && stopped else stopped

def triesPark (m : Telescope P A) (new : MasterState) : Prop :=
  m.parksOnStandby new = true ∧ new.stopEverything = false ∧ (m.masterState.stopEverything = true ∨ m.blockMove = false)

/-- Exposures are blocked for an offset or a correction only where the move for it will not be refused, and a correction
differs from what waited; while they are blocked without a move under way, no move is refused for block_move, parking, a
mount that does not stop or an unknown target, at the end of a move neither; block_move is not set; and the elements of a
minor planet are not forgotten without another target. -/
def Releases (m : Telescope P A) : Event P A → Prop
  | .move _ o | .resync _ o | .altAz (some _) o | .writeTarAltAz (some _) o => m.NotRefused True o
  | .moveMpec orbit true o => m.NotRefused (orbit ≠ "" ∨ m.ori ≠ none) o
  | .moveMpec orbit false _ => m.bopExposure = true → m.UnderWay ∨ orbit ≠ "" ∨ m.ori ≠ none
  | .altAz none _ => m.bopExposure = true → m.UnderWay ∨ m.ori ≠ none
  | .writeOri p o => p ≠ none ∧ m.ori = p ∨ m.NotRefused (p ≠ none) o
  | .writeMpec orbit valid o => m.mpec = orbit ∨ valid = false ∨ m.NotRefused (orbit ≠ "" ∨ m.ori ≠ none) o
  | .writeOffs a o => m.offs = a ∨ m.NotRefused m.Located o
  | .change _ o => m.NotRefused m.Located o
  | .writeWoffs a => m.woffs = a ∨ m.UnderWay ∨ m.Free ∧ m.Located
  | .correct c =>
    m.measured c = true → m.ignoreCorrection ≤ c.posErr → m.smallCorrection ≤ c.posErr →
      m.UnderWay ∨ (m.correction = true ∨ m.wcorr ≠ c.total) ∧ m.Free ∧ m.Located
  | .park o =>
    m.moving ≠ .parking → m.blockMove = false → o.starts = none → m.bopExposure = true → m.UnderWay ∨ m.ori ≠ none
  | .checkMoves (.ended true) o =>
    m.moving = .moving → m.correction = true → m.bopExposure = true → m.Located ∧ m.refuses o = false
  | .masterState new o =>
    m.bopExposure = true → m.UnderWay ∨ m.triesPark new ∧ o.starts ≠ none ∨
      m.blocks new = false ∧ (m.triesPark new → m.ori ≠ none)
  | .writeTarAltAz none _ | .writeOffsAltAz | .stop | .wormStop | .wormStart | .writeTracking _ | .writeSettings ..
  | .trackingTimer | .checkMoves .running _ | .checkMoves .failed _ | .checkMoves (.ended false) _ | .belowHorizon
  | .bopState .. | .scriptEnds => True

def Standing (m m' : Telescope P A) : Prop :=
  m'.bopExposure = m.bopExposure ∧ m'.going = m.going ∧ m'.moving = m.moving ∧ m'.correcting = m.correcting ∧
    m'.blockMove = m.blockMove ∧ m'.parkingBlockMove = m.parkingBlockMove

variable {m m' m'' : Telescope P A}

theorem Standing.refl (m : Telescope P A) : Standing m m := ⟨rfl, rfl, rfl, rfl, rfl, rfl⟩

theorem Standing.trans (first : Standing m m') (second : Standing m' m'') : Standing m m'' := by
  obtain ⟨bop, going, moving, correcting, blocked, parking⟩ := first
  obtain ⟨bop', going', moving', correcting', blocked', parking'⟩ := second
  exact ⟨bop'.trans bop, going'.trans going, moving'.trans moving, correcting'.trans correcting, blocked'.trans blocked,
    parking'.trans parking⟩

theorem Standing.refuses (same : Standing m m') (o : Outcome P) : m'.refuses o = m.refuses o := by
  obtain ⟨-, -, moving, correcting, blocked, parking⟩ := same
  unfold Telescope.refuses
  rw [moving, correcting, blocked, parking]

theorem Standing.underWay (same : Standing m m') : m'.UnderWay ↔ m.UnderWay := by
  unfold UnderWay
  rw [same.2.1, same.2.2.1]

theorem Standing.free (same : Standing m m') : m'.Free ↔ m.Free := by
  obtain ⟨-, -, moving, correcting, blocked, parking⟩ := same
  unfold Free
  rw [moving, correcting, blocked, parking]

theorem stopTracking_standing (m : Telescope P A) (stopMsg : Bool) : Standing m (m.stopTracking stopMsg) := by
  obtain ⟨_, _, _, stopped⟩ := m.stopTracking_eq stopMsg
  rw [stopped]
  exact ⟨rfl, rfl, rfl, rfl, rfl, rfl⟩

theorem Free.refuses (free : m.Free) (o : Outcome P) : m.refuses o = false := by
  obtain ⟨blocked, parking, moving, correcting⟩ := free
  have parks : (m.parkingBlockMove && decide (m.moving = .parking)) = false := by simpa using parking
  simp [Telescope.refuses, blocked, parks, moving, correcting]

theorem free_of_refuses (o : Outcome P) (stops : o.stops = false) (goes : m.refuses o = false) : m.Free := by
  simp only [Telescope.refuses, stops, Bool.not_false, Bool.and_true, Bool.or_eq_false_iff, decide_eq_false_iff_not] at goes
  obtain ⟨⟨blocked, parking⟩, moving, correcting⟩ := goes
  exact ⟨blocked, by simpa using parking, moving, correcting⟩

theorem rollback_standing (m before : Telescope P A) : Standing m (m.rollback before) := by
  unfold rollback
  split <;> exact ⟨rfl, rfl, rfl, rfl, rfl, rfl⟩

theorem corrected_standing (m : Telescope P A) : Standing m m.corrected := by
  unfold corrected
  dsimp only
  split_ifs <;> exact ⟨rfl, rfl, rfl, rfl, rfl, rfl⟩

theorem renumbered_standing (m : Telescope P A) : Standing m m.renumbered := by
  unfold renumbered
  split <;> exact ⟨rfl, rfl, rfl, rfl, rfl, rfl⟩

theorem targeted_standing (m : Telescope P A) (orbit : P) : Standing m (m.targeted orbit) := by
  unfold targeted
  dsimp only
  split <;> exact ⟨rfl, rfl, rfl, rfl, rfl, rfl⟩

theorem resync_ends (o : Outcome P) (correction : Bool) (goes : m.refuses o = false) :
    (m.resync o correction).1.bopExposure = false ∨ (m.resync o correction).1.UnderWay := by
  have same := (renumbered_standing m).trans (corrected_standing _)
  have goes' : ¬m.renumbered.corrected.refuses o = true := by rw [same.refuses o, goes]; exact Bool.false_ne_true
  unfold resync
  simp only [if_neg goes']
  split
  · exact .inl (rollback_standing _ _).1
  · split
    · exact .inr ⟨rfl, .inl (by cases correction <;> rfl)⟩
    · exact .inl (rollback_standing _ _).1

theorem resync_refused (o : Outcome P) (correction : Bool) (stays : m.refuses o = true) :
    Standing m (m.resync o correction).1 := by
  have same := (renumbered_standing m).trans (corrected_standing _)
  have stays' : m.renumbered.corrected.refuses o = true := by rw [same.refuses o, stays]
  unfold resync
  simp only [if_pos stays']
  exact same.trans (rollback_standing _ _)

theorem startResyncMove_ends (o : Outcome P) (correction : Bool) (located : m.Located) (goes : m.refuses o = false) :
    (m.startResyncMove o correction).1.bopExposure = false ∨ (m.startResyncMove o correction).1.UnderWay := by
  have known := (targeted_located m o.orbit).mpr located
  unfold startResyncMove
  simp only [if_neg known]
  exact resync_ends o correction (((targeted_standing m o.orbit).refuses o).trans goes)

theorem startResyncMove_refused (o : Outcome P) (correction : Bool) (stays : ¬(m.Located ∧ m.refuses o = false)) :
    Standing m (m.startResyncMove o correction).1 ∧
      ¬((m.startResyncMove o correction).1.Free ∧ (m.startResyncMove o correction).1.Located) := by
  have target := targeted_standing m o.orbit
  by_cases located : m.Located
  · have known := (targeted_located m o.orbit).mpr located
    have refused : (m.targeted o.orbit).refuses o = true := by
      rw [target.refuses o]
      exact Bool.not_eq_false _ ▸ fun goes => stays ⟨located, goes⟩
    have same : Standing m (m.startResyncMove o correction).1 := by
      unfold startResyncMove
      simp only [if_neg known]
      exact target.trans (resync_refused o correction refused)
    refine ⟨same, fun both => ?_⟩
    have goes := (same.free.mp both.1).refuses o
    exact stays ⟨located, goes⟩
  · have unknown : (m.targeted o.orbit).ori = none := by
      by_contra known
      exact located ((targeted_located m o.orbit).mp known)
    have left : (m.startResyncMove o correction).1 = { m.targeted o.orbit with lastMove := some false } := by
      unfold startResyncMove
      simp only [if_pos unknown]
    rw [left]
    refine ⟨target, fun both => located ?_⟩
    rcases both.2 with planet | known
    · refine .inl (fun empty => planet ?_)
      simpa [targeted, empty] using empty
    · exact absurd unknown known

theorem UnderWay.endReleases (underWay : m.UnderWay) : m.EndReleases := by
  intro poll o ends nothing
  have waits : (m.startTracking false).correction = m.correction := by
    obtain ⟨_, _, _, _, started⟩ := m.startTracking_eq false
    rw [started]
    rfl
  rcases underWay.2 with moving | parking
  · cases poll with
    | running => contradiction
    | failed => simp only [checkMoves, moving, observes]
    | ended ok =>
      cases ok with
      | false => simp only [checkMoves, moving, observes, if_true]
      | true =>
        have none : (m.startTracking false).correction = false := waits.trans nothing
        simp only [correction] at none
        simp only [checkMoves, moving, endMove, correction, none, observes, if_true, if_false, Bool.true_eq_false,
          Bool.false_eq_true]
  · cases poll with
    | running => contradiction
    | failed | ended ok => simp only [checkMoves, parking, parked]

section

variable [Inhabited P]

theorem updateReleases_iff (blocked : m.bopExposure = true) (waits : m.correction = true) (rests : ¬m.UnderWay) :
    m.UpdateReleases ↔ m.Free ∧ m.Located := by
  have carries (o : Outcome P) : m.setFullBopState false o = (m.startResyncMove o true).1 := by
    simp [setFullBopState, waits]
  unfold UpdateReleases
  simp only [carries]
  constructor
  · intro releases
    let o : Outcome P := { orbit := default, stops := false, accessible := true, starts := true }
    by_contra stays
    have refused : ¬(m.Located ∧ m.refuses o = false) := fun goes => stays ⟨free_of_refuses o rfl goes.2, goes.1⟩
    obtain ⟨same, -⟩ := startResyncMove_refused o true refused
    rcases releases o with clear | underWay
    · rw [same.1, blocked] at clear
      contradiction
    · exact rests (same.underWay.mp underWay)
  · rintro ⟨free, located⟩ o
    exact startResyncMove_ends o true located (free.refuses o)

theorem released_iff : m.Released ↔
    (m.bopExposure = true → m.UnderWay ∨ m.correction = true ∧ m.Free ∧ m.Located) := by
  unfold Released
  refine imp_congr_right fun blocked => ?_
  by_cases underWay : m.UnderWay
  · exact iff_of_true (.inl ⟨underWay, underWay.endReleases⟩) (.inl underWay)
  · simp only [underWay, false_and, false_or]
    exact and_congr_right fun waits => updateReleases_iff blocked waits underWay

theorem released_of_clear (clear : m.bopExposure = false) : m.Released := by
  intro blocked
  rw [clear] at blocked
  contradiction

theorem UnderWay.released (underWay : m.UnderWay) : m.Released := fun _ => .inl ⟨underWay, underWay.endReleases⟩

theorem startResyncMove_released (o : Outcome P) (correction : Bool) :
    (m.startResyncMove o correction).1.Released ↔ m.NotRefused m.Located o := by
  unfold NotRefused
  by_cases goes : m.Located ∧ m.refuses o = false
  · refine iff_of_true ?_ (fun _ => .inl goes)
    rcases startResyncMove_ends o correction goes.1 goes.2 with clear | underWay
    · exact released_of_clear clear
    · exact underWay.released
  · obtain ⟨same, stuck⟩ := startResyncMove_refused o correction goes
    rw [released_iff, same.1, same.underWay]
    refine imp_congr_right fun _ => ?_
    constructor
    · rintro (underWay | ⟨-, both⟩)
      · exact .inr underWay
      · exact absurd both stuck
    · rintro (both | underWay)
      · exact absurd both goes
      · exact .inl underWay

theorem released_congr (same : Standing m m') (waits : m'.correction = m.correction) (target : m'.Located ↔ m.Located) :
    m'.Released ↔ m.Released := by
  rw [released_iff, released_iff, same.1, same.underWay, same.free, waits, target]

theorem stopTracking_released (m : Telescope P A) (stopMsg : Bool) : (m.stopTracking stopMsg).Released ↔ m.Released := by
  refine released_congr (stopTracking_standing m stopMsg) ?_ ?_
  · obtain ⟨_, _, _, stopped⟩ := m.stopTracking_eq stopMsg
    rw [stopped]
    rfl
  · obtain ⟨_, _, _, stopped⟩ := m.stopTracking_eq stopMsg
    rw [stopped]
    exact Iff.rfl

theorem startTracking_released (m : Telescope P A) (check : Bool) : (m.startTracking check).Released ↔ m.Released := by
  obtain ⟨_, _, _, _, started⟩ := m.startTracking_eq check
  rw [started]
  exact released_congr ⟨rfl, rfl, rfl, rfl, rfl, rfl⟩ rfl Iff.rfl

theorem tried_released {n : Telescope P A} {target : Prop} (same : Standing m n) (located : n.Located ↔ target) (o : Outcome P)
    (correction : Bool) : (n.startResyncMove o correction).1.Released ↔ m.NotRefused target o := by
  rw [startResyncMove_released]
  unfold NotRefused
  rw [same.1, same.refuses o, same.underWay, located]

theorem moveTo_released {n : Telescope P A} {target : Prop} (same : Standing m n) (located : n.Located ↔ target) (o : Outcome P) :
    (n.moveTo o).Released ↔ m.NotRefused target o := by
  obtain ⟨_, _, _, _, started⟩ := n.startTracking_eq true
  have tracks : Standing m (n.startTracking true) := by
    rw [started]
    exact same.trans ⟨rfl, rfl, rfl, rfl, rfl, rfl⟩
  have located' : (n.startTracking true).Located ↔ target := by
    rw [started]
    exact located
  rw [← tried_released tracks located' o false]
  unfold moveTo
  dsimp only
  split
  · exact Iff.rfl
  · exact stopTracking_released _ true

theorem checkMoves_released (released : m.Released) (poll : Poll) (o : Outcome P) :
    (m.checkMoves poll o).Released ↔ m.Releases (.checkMoves poll o) := by
  have clear {m' : Telescope P A} (bop : m'.bopExposure = false) : m'.Released ↔ True :=
    iff_true_intro (released_of_clear bop)
  cases moving : m.moving with
  | observing | parked => cases poll with
    | running | failed => simpa only [checkMoves, moving, Releases, iff_true] using released
    | ended ok => cases ok <;> simpa [checkMoves, moving, Releases] using released
  | parking => cases poll with
    | running => simpa only [checkMoves, moving, Releases, iff_true] using released
    | failed =>
      simp only [checkMoves, moving, Releases]
      exact clear rfl
    | ended ok =>
      simp only [checkMoves, moving]
      cases ok with
      | false => exact clear rfl
      | true => exact (clear rfl).trans (by simp [Releases, moving])
  | moving => cases poll with
    | running => simpa only [checkMoves, moving, Releases, iff_true] using released
    | failed =>
      simp only [checkMoves, moving, Releases]
      exact clear rfl
    | ended ok => cases ok with
      | false =>
        simp only [checkMoves, moving, Releases, if_true]
        exact clear rfl
      | true =>
        obtain ⟨track, timer, tracks, calls, started⟩ := m.startTracking_eq false
        let arrived : Telescope P A :=
          { m with
            tracking := track
            trackingTimer := timer
            tracks := tracks
            calls := calls
            going := false
            moveCompleted := true
            arrived := some m.startedNum }
        have left : m.checkMoves (.ended true) o =
            if m.correction then (arrived.startResyncMove o true).1 else arrived.observes := by
          unfold checkMoves
          rw [moving]
          simp only [endMove, started, if_true, if_false, Bool.true_eq_false]
          rfl
        have still : ¬arrived.UnderWay := fun underWay => Bool.false_ne_true underWay.1
        have tried : (arrived.startResyncMove o true).1.Released ↔
            (m.bopExposure = true → m.Located ∧ m.refuses o = false) := by
          rw [startResyncMove_released]
          refine imp_congr_right fun _ => ?_
          rw [or_iff_left still]
          exact Iff.rfl
        rw [left]
        simp only [Releases, moving, true_imp_iff]
        split
        · rename_i waits
          simpa only [waits, true_imp_iff] using tried
        · rename_i nothing
          exact iff_of_true (released_of_clear rfl) (fun waits => absurd waits nothing)

theorem raised_released (bop : m'.bopExposure = true) (underWay : m'.UnderWay ↔ m.UnderWay) (free : m'.Free ↔ m.Free)
    (located : m'.Located ↔ m.Located) : m'.Released ↔ m.UnderWay ∨ m'.correction = true ∧ m.Free ∧ m.Located := by
  rw [released_iff, bop, underWay, free, located]
  exact ⟨fun blocked => blocked rfl, fun releases _ => releases⟩

theorem correct_released (released : m.Released) (c : Correction A) :
    (m.correct c).1.Released ↔ m.Releases (.correct c) := by
  unfold correct
  simp only [Releases]
  split_ifs with notMeasured ignored small
  · exact iff_of_true released (fun measured => by simp [measured] at notMeasured)
  · exact iff_of_true released (fun _ large => absurd ignored (not_lt.mpr large))
  · refine iff_of_true ?_ (fun _ _ large => absurd small (not_lt.mpr large))
    rw [released_iff] at released ⊢
    intro blocked
    rcases released blocked with underWay | ⟨waits, free, located⟩
    · exact .inl underWay
    · refine .inr ⟨?_, free, located⟩
      rcases Bool.or_eq_true_iff.mp waits with offset | correction
      · exact Bool.or_eq_true_iff.mpr (.inl offset)
      · exact Bool.or_eq_true_iff.mpr (.inr (Bool.or_eq_true_iff.mpr (.inl correction)))
  · have measured : m.measured c = true := by simpa using notMeasured
    have waits : (m.woffsChanged || (m.wcorrChanged || decide (m.wcorr ≠ c.total))) = true ↔
        m.correction = true ∨ m.wcorr ≠ c.total := by
      simp [correction, or_assoc]
    have large : m.smallCorrection ≤ c.posErr := not_lt.mp small
    simp only [measured, not_lt.mp ignored, large, true_imp_iff]
    rw [← waits]
    refine raised_released (m := m) ?_ ?_ ?_ ?_
    · rfl
    · exact Iff.rfl
    · exact Iff.rfl
    · exact Iff.rfl

/-- A try to park leaves the bit, what waits and what would refuse a move as they were; block_move is left too. -/
def Resting (m m' : Telescope P A) : Prop :=
  m'.bopExposure = m.bopExposure ∧ m'.going = m.going ∧ m'.moving = m.moving ∧ m'.correcting = m.correcting ∧
    m'.parkingBlockMove = m.parkingBlockMove ∧ m'.correction = m.correction ∧ m'.ori = m.ori

theorem Resting.trans (first : Resting m m') (second : Resting m' m'') : Resting m m'' := by
  obtain ⟨bop, going, moving, correcting, parking, waits, ori⟩ := first
  obtain ⟨bop', going', moving', correcting', parking', waits', ori'⟩ := second
  exact ⟨bop'.trans bop, going'.trans going, moving'.trans moving, correcting'.trans correcting, parking'.trans parking,
    waits'.trans waits, ori'.trans ori⟩

theorem Resting.released (same : Resting m m') (released : m.Released) :
    m'.Released ↔ (m.bopExposure = true → m.UnderWay ∨ m'.blockMove = false ∧ (m'.mpec ≠ "" ∨ m.ori ≠ none)) := by
  obtain ⟨bop, going, moving, correcting, parking, waits, ori⟩ := same
  rw [released_iff] at released ⊢
  unfold UnderWay Free Located at *
  rw [bop, going, moving, correcting, parking, waits, ori]
  refine imp_congr_right fun blocked => ?_
  rcases released blocked with underWay | ⟨waiting, ⟨-, free⟩, -⟩
  · exact iff_of_true (.inl underWay) (.inl underWay)
  · refine or_congr Iff.rfl ⟨fun both => ⟨both.2.1.1, both.2.2⟩, fun both => ⟨waiting, ⟨both.1, free⟩, both.2⟩⟩

theorem parks_underWay (m : Telescope P A) (forget : Bool) : (m.parks forget).UnderWay := by
  cases forget <;> exact ⟨rfl, .inr rfl⟩

theorem toldToPark_resting (m : Telescope P A) :
    Resting m m.toldToPark ∧ m.toldToPark.blockMove = m.blockMove ∧ m.toldToPark.mpec = m.mpec :=
  ⟨⟨rfl, rfl, rfl, rfl, rfl, rfl, rfl⟩, rfl, rfl⟩

theorem startPark_tries (m : Telescope P A) (o : ParkOutcome) :
    (m.startPark o).UnderWay ∧ o.starts ≠ none ∨
      Resting m (m.startPark o) ∧ (m.startPark o).blockMove = m.blockMove ∧
        (m.moving ≠ .parking ∧ m.blockMove = false → (m.startPark o).mpec = "" ∧ (o.starts = none ∨ m.moving = .moving)) ∧
        (m.moving = .parking ∨ m.blockMove = true → (m.startPark o).mpec = m.mpec) := by
  obtain ⟨track, timer, tracks, stopped⟩ := stopTracking_eq { m.setMpec "" with tracks := false } true
  unfold startPark
  dsimp only
  rw [stopped]
  split
  · rename_i refused
    refine .inr ⟨⟨rfl, rfl, rfl, rfl, rfl, rfl, rfl⟩, rfl, fun tried => ?_, fun _ => rfl⟩
    rcases refused with parking | blocked
    · exact absurd parking tried.1
    · rw [tried.2] at blocked
      contradiction
  · rename_i goes
    split
    · rename_i runs
      exact .inr ⟨⟨rfl, rfl, rfl, rfl, rfl, rfl, rfl⟩, rfl, fun _ => ⟨rfl, .inr runs.1⟩, fun refused => absurd refused goes⟩
    · cases starts : o.starts with
      | none =>
        have told := toldToPark_resting
          { { m.setMpec "" with tracks := false } with tracking := track, trackingTimer := timer, tracks := tracks }
        refine .inr ⟨told.1, told.2.1, fun _ => ⟨told.2.2, .inl rfl⟩, fun refused => absurd refused goes⟩
      | some forget =>
        exact .inl ⟨parks_underWay _ forget, nofun⟩

theorem startPark_released (released : m.Released) (o : ParkOutcome) :
    (m.startPark o).Released ↔ m.Releases (.park o) := by
  simp only [Releases]
  rcases startPark_tries m o with ⟨underWay, starts⟩ | ⟨same, blocked, tried, refused⟩
  · exact iff_of_true underWay.released (fun _ _ none => absurd none starts)
  · rw [same.released released, blocked]
    constructor
    · intro after parking free none bop
      rcases after bop with underWay | ⟨-, known⟩
      · exact .inl underWay
      · rw [(tried ⟨parking, free⟩).1] at known
        exact .inr (known.resolve_left (fun differs => differs rfl))
    · intro tries bop
      rcases (released_iff.mp released) bop with underWay | ⟨-, free, located⟩
      · exact .inl underWay
      by_cases parking : m.moving = .parking
      · rw [refused (.inl parking)]
        exact .inr ⟨free.1, located⟩
      · have none := (tried ⟨parking, free.1⟩).2.resolve_right free.2.2.1
        exact (tries parking free.1 none bop).imp id (fun known => ⟨free.1, .inr known⟩)

theorem stopRule_resting (m : Telescope P A) (new : MasterState) :
    Resting m (m.stopRule new) ∧ (m.stopRule new).mpec = m.mpec ∧
      (m.stopRule new).parksOnStandby new = m.parksOnStandby new ∧
      (m.stopRule new).blockOnStandby = m.blockOnStandby ∧
      (m.stopRule new).blockMove = (new.stopEverything || !m.masterState.stopEverything && m.blockMove) := by
  obtain ⟨_, _, _, stopped⟩ := stopTracking_eq { m with masterState := new, blockMove := true } true
  unfold stopRule
  rw [stopped]
  split
  · rename_i stops
    exact ⟨⟨rfl, rfl, rfl, rfl, rfl, rfl, rfl⟩, rfl, rfl, rfl, by rw [stops]; rfl⟩
  · rename_i goes
    rw [Bool.not_eq_true] at goes
    split
    · rename_i stopped
      exact ⟨⟨rfl, rfl, rfl, rfl, rfl, rfl, rfl⟩, rfl, rfl, rfl, by rw [goes, stopped]; rfl⟩
    · rename_i free
      rw [Bool.not_eq_true] at free
      exact ⟨⟨rfl, rfl, rfl, rfl, rfl, rfl, rfl⟩, rfl, rfl, rfl, by rw [goes, free]; rfl⟩

theorem standbyRule_resting (m : Telescope P A) (old new : MasterState) :
    Resting m (m.standbyRule old new) ∧ (m.standbyRule old new).mpec = m.mpec ∧
      (m.standbyRule old new).blockMove =
        if m.blockOnStandby then new.offOrStandby || !old.offOrStandby && m.blockMove else m.blockMove := by
  unfold standbyRule
  cases m.blockOnStandby with
  | false => exact ⟨⟨rfl, rfl, rfl, rfl, rfl, rfl, rfl⟩, rfl, rfl⟩
  | true =>
    simp only [Bool.true_eq_false, if_false, if_true]
    split
    · rename_i off
      exact ⟨⟨rfl, rfl, rfl, rfl, rfl, rfl, rfl⟩, rfl, by rw [off]; rfl⟩
    · rename_i on
      rw [Bool.not_eq_true] at on
      split
      · rename_i was
        exact ⟨⟨rfl, rfl, rfl, rfl, rfl, rfl, rfl⟩, rfl, by rw [on, was]; rfl⟩
      · rename_i was
        rw [Bool.not_eq_true] at was
        exact ⟨⟨rfl, rfl, rfl, rfl, rfl, rfl, rfl⟩, rfl, by rw [on, was]; rfl⟩

theorem Resting.underWay (same : Resting m m') : m'.UnderWay ↔ m.UnderWay := by
  unfold UnderWay
  rw [same.2.1, same.2.2.1]

theorem triesPark_iff (m : Telescope P A) (new : MasterState) :
    m.triesPark new ↔ m.parksOnStandby new = true ∧ (m.stopRule new).blockMove = false := by
  rw [(stopRule_resting m new).2.2.2.2]
  unfold triesPark
  cases new.stopEverything <;> cases m.masterState.stopEverything <;> simp

theorem standing_released (released : m.Released) (new : MasterState) (same : Resting m m') (planet : m'.mpec = m.mpec)
    (blocked : m'.blockMove = m.blocks new) (stays : ¬m.triesPark new) (o : ParkOutcome) :
    m'.Released ↔ m.Releases (.masterState new o) := by
  rw [same.released released, planet, blocked]
  refine imp_congr_right fun bop => ?_
  rcases (released_iff.mp released) bop with underWay | ⟨-, -, located⟩
  · exact iff_of_true (.inl underWay) (.inl underWay)
  · constructor
    · rintro (underWay | ⟨free, -⟩)
      · exact .inl underWay
      · exact .inr (.inr ⟨free, fun tries => absurd tries stays⟩)
    · rintro (underWay | ⟨tries, -⟩ | ⟨free, -⟩)
      · exact .inl underWay
      · exact absurd tries stays
      · exact .inr ⟨free, located⟩

theorem changeMasterState_released (released : m.Released) (new : MasterState) (o : ParkOutcome) :
    (m.changeMasterState new o).Released ↔ m.Releases (.masterState new o) := by
  obtain ⟨first, planet, parks, standby, blocked⟩ := stopRule_resting m new
  have tries := triesPark_iff m new
  unfold changeMasterState
  dsimp only
  split
  · rename_i parking
    rw [parks] at parking
    have second := standbyRule_resting ((m.stopRule new).startPark o) m.masterState new
    rcases startPark_tries (m.stopRule new) o with ⟨underWay, starts⟩ | ⟨same, left, tried, refused⟩
    · refine iff_of_true (second.1.underWay.mpr underWay).released (fun _ => ?_)
      cases held : (m.stopRule new).blockMove with
      | false => exact .inr (.inl ⟨tries.mpr ⟨parking, held⟩, starts⟩)
      | true =>
        have kept : (m.stopRule new).startPark o = m.stopRule new := by
          unfold startPark
          rw [if_pos (.inr held)]
        rw [kept] at underWay
        exact .inl (first.underWay.mp underWay)
    · have after := (first.trans same).trans second.1
      have blocks' : (((m.stopRule new).startPark o).standbyRule m.masterState new).blockMove = m.blocks new := by
        rw [second.2.2, startPark_blockOnStandby, standby, left, blocked]
        rfl
      cases held : (m.stopRule new).blockMove with
      | true =>
        refine standing_released released new after ?_ blocks' (fun tried => ?_) o
        · rw [second.2.1, refused (.inr held), planet]
        · rw [(tries.mp tried).2] at held
          contradiction
      | false =>
        have moving : (m.stopRule new).moving ≠ .parking := by
          rw [first.2.2.1]
          intro parks
          simp [parksOnStandby, parks] at parking
        have now := tried ⟨moving, held⟩
        have parked : m.triesPark new := tries.mpr ⟨parking, held⟩
        rw [after.released released, second.2.1, now.1, blocks']
        refine imp_congr_right fun bop => ?_
        rcases (released_iff.mp released) bop with underWay | ⟨-, free, -⟩
        · exact iff_of_true (.inl underWay) (.inl underWay)
        · have none : o.starts = none := now.2.resolve_right (first.2.2.1 ▸ free.2.2.1)
          simp [parked, none]
  · rename_i stays
    rw [parks] at stays
    have second := standbyRule_resting (m.stopRule new) m.masterState new
    refine standing_released released new (first.trans second.1) (second.2.1.trans planet) ?_ (fun tried => stays tried.1) o
    rw [second.2.2, standby, blocked]
    rfl

theorem setTracking_released (m : Telescope P A) (track : Nat) :
    (m.setTracking track true false).Released ↔ m.Released := by
  obtain ⟨_, _, _, _, set⟩ := m.setTracking_eq track true false
  rw [set]
  exact released_congr ⟨rfl, rfl, rfl, rfl, rfl, rfl⟩ rfl Iff.rfl

theorem setMpec_released (released : m.Released) (orbit : String) :
    (m.setMpec orbit).Released ↔ (m.bopExposure = true → m.UnderWay ∨ orbit ≠ "" ∨ m.ori ≠ none) := by
  rw [released_iff] at released ⊢
  refine imp_congr_right fun blocked => ?_
  rcases released blocked with underWay | ⟨waits, free, -⟩
  · exact iff_of_true (.inl underWay) (.inl underWay)
  · exact or_congr Iff.rfl ⟨fun both => both.2.2, fun located => ⟨waits, free, located⟩⟩

theorem setWoffs_released (released : m.Released) (a : A) : (m.setWoffs a).Released := by
  rw [released_iff] at released ⊢
  intro blocked
  rcases released blocked with underWay | ⟨waits, free, located⟩
  · exact .inl underWay
  · refine .inr ⟨?_, free, located⟩
    rcases Bool.or_eq_true_iff.mp waits with offset | correction
    · exact Bool.or_eq_true_iff.mpr (.inl (Bool.or_eq_true_iff.mpr (.inl offset)))
    · exact Bool.or_eq_true_iff.mpr (.inr correction)

theorem moveAltAz_released {target : Telescope P A} (same : Standing m target) (p : P) (o : Outcome P) :
    (target.moveAltAz (some p) o).Released ↔ m.NotRefused True o :=
  tried_released (n := target.setOri (some p)) (same.trans ⟨rfl, rfl, rfl, rfl, rfl, rfl⟩)
    (iff_true_intro (.inr (Option.some_ne_none p))) o false

theorem handle_released (released : m.Released) (e : Event P A) : (m.handle e).Released ↔ m.Releases e := by
  have kept {m' : Telescope P A} (same : m'.Released ↔ m.Released) : m'.Released ↔ True :=
    iff_true_intro (same.mpr released)
  cases e with
  | move p o => exact moveTo_released ⟨rfl, rfl, rfl, rfl, rfl, rfl⟩ (iff_true_intro (.inr (Option.some_ne_none p))) o
  | moveMpec orbit valid o =>
    cases valid with
    | false => exact setMpec_released released orbit
    | true => exact moveTo_released (n := m.setMpec orbit) ⟨rfl, rfl, rfl, rfl, rfl, rfl⟩ Iff.rfl o
  | altAz p o =>
    have stopped := stopTracking_standing (m.setMpec "") true
    cases p with
    | none =>
      refine (stopTracking_released (m.setMpec "") true).trans ((setMpec_released released "").trans ?_)
      simp [Releases]
    | some p => exact moveAltAz_released (Standing.trans (m := m) ⟨rfl, rfl, rfl, rfl, rfl, rfl⟩ stopped) p o
  | resync p o => exact tried_released ⟨rfl, rfl, rfl, rfl, rfl, rfl⟩ (iff_true_intro (.inr (Option.some_ne_none p))) o false
  | writeOri p o =>
    have tried : (((m.setOri p).setMpec "").startResyncMove o false).1.Released ↔ m.NotRefused (p ≠ none) o :=
      tried_released (n := (m.setOri p).setMpec "") ⟨rfl, rfl, rfl, rfl, rfl, rfl⟩ (by simp [Located, setMpec, setOri]) o
        false
    simp only [handle, Releases]
    split
    · rename_i same
      exact iff_of_true released (.inl same)
    · rename_i differs
      simpa only [differs, false_or] using tried
  | writeMpec orbit valid o =>
    have tried : ((m.setMpec orbit).startResyncMove o false).1.Released ↔ m.NotRefused (orbit ≠ "" ∨ m.ori ≠ none) o :=
      tried_released (n := m.setMpec orbit) ⟨rfl, rfl, rfl, rfl, rfl, rfl⟩ Iff.rfl o false
    simp only [handle, Releases, ← or_assoc]
    split
    · rename_i same
      exact iff_of_true released (.inl same)
    · rename_i differs
      simpa only [differs, false_or] using tried
  | writeTarAltAz p o =>
    cases p with
    | none => exact kept Iff.rfl
    | some p => exact moveAltAz_released (.refl m) p o
  | writeOffs a o =>
    have tried : ({ m with offs := a }.startResyncMove o false).1.Released ↔ m.NotRefused m.Located o :=
      tried_released (n := { m with offs := a }) ⟨rfl, rfl, rfl, rfl, rfl, rfl⟩ Iff.rfl o false
    simp only [handle, Releases]
    split
    · rename_i same
      exact iff_of_true released (.inl same)
    · rename_i differs
      simpa only [differs, false_or] using tried
  | writeWoffs a =>
    have raised : { m.setWoffs a with bopExposure := true }.Released ↔
        m.UnderWay ∨ { m.setWoffs a with bopExposure := true }.correction = true ∧ m.Free ∧ m.Located :=
      raised_released rfl Iff.rfl Iff.rfl Iff.rfl
    simp only [handle, Releases]
    split
    · rename_i same
      exact iff_of_true released (.inl same)
    · rename_i differs
      have waits : { m.setWoffs a with bopExposure := true }.correction = true := by
        simp [correction, setWoffs, differs]
      simpa only [differs, false_or, waits, true_and] using raised
  | writeOffsAltAz => exact kept (released_congr ⟨rfl, rfl, rfl, rfl, rfl, rfl⟩ rfl Iff.rfl)
  | change a o => exact tried_released ⟨rfl, rfl, rfl, rfl, rfl, rfl⟩ Iff.rfl o true
  | correct c => exact correct_released released c
  | park o => exact startPark_released released o
  | stop | wormStop | belowHorizon => exact kept (stopTracking_released m true)
  | wormStart =>
    refine kept ?_
    simp only [handle, wormStart]
    split
    · exact Iff.rfl
    · exact startTracking_released m true
  | writeTracking track =>
    refine kept ?_
    simp only [handle, writeTracking]
    split_ifs <;> first | exact Iff.rfl | exact setTracking_released m track
  | writeSettings => exact kept (released_congr ⟨rfl, rfl, rfl, rfl, rfl, rfl⟩ rfl Iff.rfl)
  | trackingTimer =>
    refine kept ?_
    simp only [handle]
    split_ifs <;> first | exact Iff.rfl | exact released_congr ⟨rfl, rfl, rfl, rfl, rfl, rfl⟩ rfl Iff.rfl
  | checkMoves poll o => exact checkMoves_released released poll o
  | masterState new o => exact changeMasterState_released released new o
  | bopState telMove o =>
    refine iff_true_intro ?_
    simp only [handle, setFullBopState]
    split
    · rename_i carries
      refine (startResyncMove_released o true).mpr (fun blocked => ?_)
      rcases (released_iff.mp released) blocked with underWay | ⟨-, free, located⟩
      · exact .inr underWay
      · exact .inl ⟨located, free.refuses o⟩
    · exact released
  | scriptEnds => exact iff_true_intro (setWoffs_released released 0)

theorem step_released (released : m.Released) (e : Event P A) : (m.step e).Released ↔ m.Releases e := by
  have same : Standing m { m with lastMove := none } := ⟨rfl, rfl, rfl, rfl, rfl, rfl⟩
  have here : Released { m with lastMove := none } := (released_congr same rfl Iff.rfl).mpr released
  exact handle_released here e

/-- In every run the bit is released in all states just when every step meets the condition. -/
theorem exposures_released_iff (hasTracking parkingBlockMove blockOnStandby : Bool) (standbyPark : Nat) (ori : Option P)
    (es : List (Event P A)) :
    (∀ done, done <+: es →
        (run step (fresh hasTracking parkingBlockMove blockOnStandby standbyPark ori : Telescope P A) done).Released) ↔
      Guarded step Releases (fresh hasTracking parkingBlockMove blockOnStandby standbyPark ori) es := by
  have initial : (fresh hasTracking parkingBlockMove blockOnStandby standbyPark ori : Telescope P A).Released :=
    released_of_clear rfl
  exact prefixes_iff_guarded (P := Released) (fun _ e released => step_released released e) initial es

/-- A move arrives, and an astrometric correction of its image is accepted; then the telescope is blocked, and the next
update drops the correction. -/
def droppedCorrection : List (Event Int Int) :=
  [.masterState ⟨false, false, .night⟩ ⟨true, none⟩, .move 10 ⟨0, true, true, true⟩, .checkMoves (.ended true) ⟨0, true, true, true⟩,
    .correct ⟨1, 0, 0, 1, 1, 3, 1⟩, .masterState ⟨true, false, .night⟩ ⟨true, none⟩, .bopState false ⟨0, true, true, true⟩]

/-- The bit is left set with nothing waiting and nothing moving. -/
theorem exposures_left_blocked :
    ¬∀ done, done <+: droppedCorrection → (run step (fresh true false false 0 (some 0) : Telescope Int Int) done).Released := by
  intro released
  have last := released droppedCorrection (List.prefix_refl _)
  have blocked : (run step (fresh true false false 0 (some 0) : Telescope Int Int) droppedCorrection).bopExposure = true := by
    decide
  have rests : (run step (fresh true false false 0 (some 0) : Telescope Int Int) droppedCorrection).going = false := by
    decide
  have nothing : (run step (fresh true false false 0 (some 0) : Telescope Int Int) droppedCorrection).correction = false := by
    decide
  generalize run step (fresh true false false 0 (some 0)) droppedCorrection = m at last blocked rests nothing
  rcases last blocked with ⟨underWay, -⟩ | ⟨waits, -⟩
  · rw [underWay.1] at rests
    contradiction
  · rw [nothing] at waits
    contradiction

end

end Rts2.Teld.Telescope
