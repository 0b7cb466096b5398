import Rts2.Roof.Mount

/-! The interlock of the roof and the mount: where the copies that the two decide on are not behind, the
roof does not close over a free move. -/
namespace Rts2.Roof

open Lib

theorem ConnMount.inside_kept {queue : List ToDome} {conn : ConnMount}
    (quiet : .insideDome false ∉ queue)
    (leaves : (queue.foldl ConnMount.receive conn).insideDome = some 0) :
    conn.insideDome = some 0 := by
  induction queue generalizing conn with
  | nil => exact leaves
  | cons message queue ih =>
    have later := ih (fun mem => quiet (List.mem_cons_of_mem _ mem)) leaves
    cases message with
    | state moving => exact later
    | infotime time => exact later
    | insideDome inside =>
      cases inside with
      | false => exact absurd List.mem_cons_self quiet
      | true => simp [receive] at later

theorem ConnMount.folded_inside {queue : List ToDome} {conn conn' : ConnMount}
    (same : conn.insideDome = conn'.insideDome) :
    (queue.foldl ConnMount.receive conn).insideDome = (queue.foldl ConnMount.receive conn').insideDome := by
  induction queue generalizing conn conn' with
  | nil => exact same
  | cons message queue ih =>
    refine ih ?_
    cases message with
    | insideDome inside => rfl
    | _ => exact same

theorem ConnDome.folded_state {queue : List ToMount} {conn conn' : ConnDome}
    (same : conn.state = conn'.state) :
    (queue.foldl ConnDome.receive conn).state = (queue.foldl ConnDome.receive conn').state := by
  induction queue generalizing conn conn' with
  | nil => exact same
  | cons message queue ih =>
    refine ih ?_
    cases message with
    | state state => rfl
    | _ => exact same

theorem ConnDome.state_kept {queue : List ToMount} {conn : ConnDome} {state : DomeState}
    (quiet : .state state ∉ queue)
    (ends : (queue.foldl ConnDome.receive conn).state = state) : conn.state = state := by
  induction queue generalizing conn with
  | nil => exact ends
  | cons message queue ih =>
    have later := ih (fun mem => quiet (List.mem_cons_of_mem _ mem)) ends
    cases message with
    | state first =>
      have same : first = state := later
      exact absurd (by simp [same]) quiet
    | roofOpened opened => exact later
    | infotime time => exact later
    | park => exact later
    | info => exact later

namespace D50

structure ClosingOff (conn : ConnMount) (d : D50) : Prop where
  conn : d.connMount = conn
  watching : d.ignoreMountState = false
  off : d.ford.drives .ZAVIRANI = false

variable {conn : ConnMount}

theorem closing_cleared : ∀ outputs : BitVec 8, outputs &&& Vystup.ZAVIRANI.pin = 0 →
    (outputs &&& ~~~(Vystup.OTEVIRANI.pin ||| Vystup.ZAVIRANI.pin)) &&& Vystup.ZAVIRANI.pin = 0 := by
  decide

theorem closing_unset : ∀ outputs : BitVec 8, outputs &&& Vystup.ZAVIRANI.pin = 0 →
    (outputs ||| Vystup.OTEVIRANI.pin) &&& Vystup.ZAVIRANI.pin = 0 := by
  decide

theorem closing_written {f g : Ford} {change : BitVec 8 → BitVec 8}
    (leaves : ∀ outputs : BitVec 8, outputs &&& Vystup.ZAVIRANI.pin = 0 →
      change outputs &&& Vystup.ZAVIRANI.pin = 0)
    (wrote : g.outputs = f.outputs ∧ g.driven = f.driven ∨
      g.outputs = change f.outputs ∧ g.driven = f.driven ++ [change f.outputs])
    (off : f.drives .ZAVIRANI = false) : g.drives .ZAVIRANI = false := by
  obtain ⟨same, -⟩ | ⟨set, -⟩ := wrote
  · simpa [Ford.drives, same] using off
  · have zero : f.outputs &&& Vystup.ZAVIRANI.pin = 0 := by simpa [Ford.drives] using off
    simp [Ford.drives, set, leaves _ zero]

theorem ClosingOff.keeps {d e : D50} (off : d.ClosingOff conn) (keeps : Keeps d e) : e.ClosingOff conn :=
  ⟨keeps.connMount.trans off.conn, keeps.ignoreMountState.trans off.watching,
    (keeps.drives .ZAVIRANI).trans off.off⟩

theorem ClosingOff.stopMotorsLoop {d : D50} (off : d.ClosingOff conn) (i : Nat) :
    (d.stopMotorsLoop i).2.ClosingOff conn := by
  induction i generalizing d with
  | zero => exact ⟨off.conn, off.watching, off.off⟩
  | succ i again =>
    have switched : (d.switchOffPins .OTEVIRANI .ZAVIRANI).2.ClosingOff conn := by
      exact ⟨off.conn, off.watching, closing_written closing_cleared (d.ford.vypni_spec _) off.off⟩
    have read := switched.keeps (zjisti_looks _).keeps
    simp only [D50.stopMotorsLoop]
    split
    · split
      · exact ⟨read.conn, read.watching, read.off⟩
      · exact again read
    · exact again switched

theorem ClosingOff.startMotor {d : D50} (off : d.ClosingOff conn) (stopFirst : Bool) :
    (d.startMotor stopFirst .OTEVIRANI).2.ClosingOff conn := by
  have first : (if stopFirst = true then d.stopMotors else (0, d)).2.ClosingOff conn := by
    cases stopFirst with
    | true => exact off.stopMotorsLoop 3
    | false => exact off
  generalize stopped : (if stopFirst = true then d.stopMotors else (0, d)) = s at first
  have switched : (s.2.ZAP .OTEVIRANI).2.ClosingOff conn :=
    ⟨first.conn, first.watching, closing_written closing_unset (s.2.ford.zapni_spec _) first.off⟩
  have looked := switched.keeps (onlyMotor_looks .OTEVIRANI _).keeps
  simp only [D50.startMotor, stopped]
  split
  · exact first
  · split
    · exact switched.stopMotorsLoop 3
    · split
      · exact looked.stopMotorsLoop 3
      · exact looked

theorem ClosingOff.startOpen {d : D50} (off : d.ClosingOff conn) : d.startOpen.2.ClosingOff conn := by
  have read := off.keeps d.zjisti_looks.keeps
  simp only [D50.startOpen]
  split
  · exact read
  · split
    · split
      · exact ⟨read.conn, read.watching, read.off⟩
      · exact read
    · have started := read.startMotor (d.zjisti_stav_portu.2.getPortState .ZAVIRANI)
      split
      · exact started
      · exact ⟨started.conn, started.watching, started.off⟩

theorem ClosingOff.endMove {d : D50} (off : d.ClosingOff conn) (koncak : Vystup) :
    (d.endMove koncak).2.ClosingOff conn := by
  have stopped := off.stopMotorsLoop 3
  have read := stopped.keeps (zjisti_looks _).keeps
  simp only [D50.endMove]
  split
  · exact read
  · split <;> exact read

theorem getMountState_outside {d : D50} (outside : d.connMount.insideDome ≠ some 1) :
    d.getMountState.1 = -1 ∨ d.getMountState.1 = 1 ∨ d.getMountState.1 = 2 := by
  have same : d.getNow.2.connMount = d.connMount := rfl
  simp only [getMountState, same]
  repeat' split
  all_goals simp_all

theorem ClosingOff.startClose {d : D50} (off : d.ClosingOff conn) (leaves : conn.insideDome ≠ some 1) :
    d.startClose.2.ClosingOff conn := by
  by_cases failed : d.zjisti_stav_portu.1 ≠ 0
  · have same : d.startClose = d.zjisti_stav_portu := by simp [D50.startClose, failed]
    rw [same]
    exact off.keeps d.zjisti_looks.keeps
  · have ok : d.zjisti_stav_portu.1 = 0 := by simpa using failed
    have runs : d.Closing = false := by simp [Closing, off.off]
    by_cases away : d.zjisti_stav_portu.2.MountUnsafe
    · exact off.keeps (startClose_waits ⟨ok, away⟩ runs).2
    · have read := off.keeps d.zjisti_looks.keeps
      have silent : d.zjisti_stav_portu.2.getMountState.1 = -1 := by
        have outside : d.zjisti_stav_portu.2.connMount.insideDome ≠ some 1 := by rwa [read.conn]
        refine (getMountState_outside outside).resolve_right (fun state => away ⟨read.watching, state⟩)
      have check : d.zjisti_stav_portu.2.checkMount d.Closing =
          (some (-1), false, d.zjisti_stav_portu.2.getMountState.2) := by
        simp [checkMount, read.watching, heedMount, silent, runs]
      rw [(startClose_read ok).1 _ _ _ check]
      exact read.keeps (getMountState_passes _).keeps

theorem closingOff_other : { driver with startClose := fun d => (0, d) }.Kept (ClosingOff conn) where
  startOpen _ off := off.startOpen
  isOpened d off := off.keeps d.isOpened_looks.keeps
  endOpen d off := by
    have reset : ClosingOff conn { d with timeToOpenMax := 0, timeToOpenMin := 0 } :=
      ⟨off.conn, off.watching, off.off⟩
    exact reset.endMove _
  startClose _ off := off
  isClosed d off := off.keeps d.isClosed_looks.keeps
  endClose d off := by
    have reset : ClosingOff conn { d with timeToCloseMax := 0, timeToCloseMin := 0 } :=
      ⟨off.conn, off.watching, off.off⟩
    exact reset.endMove _
  stop d off := by
    have reset : ClosingOff conn { d with
        timeToOpenMax := 0, timeToOpenMin := 0, timeToCloseMax := 0, timeToCloseMin := 0 } :=
      ⟨off.conn, off.watching, off.off⟩
    exact reset.stopMotorsLoop 3

theorem closingOff_kept (leaves : conn.insideDome ≠ some 1) : driver.Kept (ClosingOff conn) :=
  { closingOff_other with startClose := fun _ off => off.startClose leaves }

end D50

namespace Mount

/-- The last message to the dome says whether the mount stays inside, over a copy that the dome has. -/
def Synced (conn : ConnMount) (m : Mount) : Prop :=
  (m.sent.foldl ConnMount.receive conn).insideDome = some m.insideDomeOnly.toInt

def FreeTold (m : Mount) : Prop := m.motion = .free → m.insideDomeOnly = false

/-- The drives stop, or no failure leaves them in a free move after the mount told that it stays
inside. -/
def Fits (e : Surroundings) (m : Mount) : Prop :=
  m.motion = .free → e.stops = true ∨ e.pathFound = true ∨ getDomeState e.now m.connDome = 0

/-- A move makes the drives move freely: it has a path, the roof was seen open, and nothing that is heeded
showed that it closes. -/
def Frees (e : Surroundings) (m : Mount) : Prop :=
  e.pathFound = true ∧ getDomeState e.now m.connDome = 0 ∧
    (domeCloses m.connDome = true → m.parking = true)

variable {conn : ConnMount} {e : Surroundings}

theorem synced_maskState {m : Mount} (synced : Synced conn m) (moving : TelMoving) :
    Synced conn (m.maskState moving) := by
  simpa [Synced, maskState, send, List.foldl_append, ConnMount.receive] using synced

theorem synced_info {m : Mount} (synced : Synced conn m) (now : Nat) :
    Synced conn (m.send (.infotime now)) := by
  simpa [Synced, send, List.foldl_append, ConnMount.receive] using synced

theorem synced_inside (m : Mount) (inside : Bool) : Synced conn (m.setInsideDomeOnlyMovement inside) := by
  simp [Synced, setInsideDomeOnlyMovement, send, List.foldl_append, ConnMount.receive]

structure Stopped (m m' : Mount) : Prop where
  sent : m'.sent = m.sent
  insideDomeOnly : m'.insideDomeOnly = m.insideDomeOnly
  connDome : m'.connDome = m.connDome
  moving : m'.moving = m.moving
  parking : m'.parking = true → m.parking = true
  motion : m'.motion = .rest ∨ m'.motion = m.motion

theorem Stopped.refl (m : Mount) : Stopped m m := ⟨rfl, rfl, rfl, rfl, id, .inr rfl⟩

theorem Stopped.trans {m n o : Mount} (first : Stopped m n) (second : Stopped n o) : Stopped m o := by
  refine ⟨second.sent.trans first.sent, second.insideDomeOnly.trans first.insideDomeOnly,
    second.connDome.trans first.connDome, second.moving.trans first.moving,
    fun flag => first.parking (second.parking flag), ?_⟩
  obtain rest | same := second.motion
  · exact .inl rest
  · rw [same]
    exact first.motion

theorem stopMove_spec (e : Surroundings) (m : Mount) :
    Stopped m (m.stopMove e).2 ∧ (e.stops = true → (m.stopMove e).2.motion = .rest) := by
  unfold stopMove
  by_cases moves : m.motion ≠ .rest ∨ e.drivesMove
  · simp only [if_pos moves]
    cases stops : e.stops with
    | true => exact ⟨⟨rfl, rfl, rfl, rfl, by simp, .inl rfl⟩, fun _ => rfl⟩
    | false => exact ⟨⟨rfl, rfl, rfl, rfl, by simp, .inr rfl⟩, by simp⟩
  · simp only [if_neg moves]
    have rest : m.motion = .rest := by simpa using (not_or.mp moves).1
    exact ⟨.refl m, fun _ => rest⟩

theorem Stopped.synced {m m' : Mount} (stopped : Stopped m m') (synced : Synced conn m) :
    Synced conn m' := by
  unfold Synced
  rw [stopped.sent, stopped.insideDomeOnly]
  exact synced

theorem Stopped.free {m m' : Mount} (stopped : Stopped m m') (free : m'.motion = .free) :
    m.motion = .free := by
  obtain rest | same := stopped.motion
  · simp [rest] at free
  · exact same.symm.trans free

theorem Stopped.freeTold {m m' : Mount} (stopped : Stopped m m') (told : m.FreeTold) : m'.FreeTold :=
  fun free => stopped.insideDomeOnly.trans (told (stopped.free free))

theorem Stopped.fits {m m' : Mount} (stopped : Stopped m m') (fits : Fits e m) : Fits e m' := by
  intro free
  rw [stopped.connDome]
  exact fits (stopped.free free)

theorem Stopped.frees {m m' : Mount} (stopped : Stopped m m') (frees : Frees e m') : Frees e m := by
  obtain ⟨found, opened, heeded⟩ := frees
  rw [stopped.connDome] at opened heeded
  exact ⟨found, opened, fun closes => stopped.parking (heeded closes)⟩

theorem startDrives_spec (conn : ConnMount) (e : Surroundings) (m : Mount) (inside park : Bool) :
    let r := (m.setInsideDomeOnlyMovement inside).startDrives park e
    Synced conn r.2 ∧
      (r.1 = 0 ∧ e.pathFound = true ∧ (r.2.motion = .free → inside = false ∧ park = false) ∧
          r.2.insideDomeOnly = inside ∨
        r.1 ≠ 0 ∧ e.pathFound = false ∧ r.2.motion = m.motion ∧ r.2.insideDomeOnly = inside) := by
  have synced : Synced conn (m.setInsideDomeOnlyMovement inside) := synced_inside m inside
  intro r
  cases found : e.pathFound with
  | false =>
    have same : r = (-1, m.setInsideDomeOnlyMovement inside) := by simp [r, startDrives, found]
    rw [same]
    exact ⟨synced, .inr ⟨by simp, rfl, rfl, rfl⟩⟩
  | true =>
    have same : r = (0, { m.setInsideDomeOnlyMovement inside with
        motion := if park then .park else if inside then .inside else .free }) := by
      simp only [r, startDrives, found]
      rfl
    rw [same]
    refine ⟨synced, .inl ⟨rfl, rfl, ?_, rfl⟩⟩
    cases park <;> cases inside <;> simp

theorem startResync_spec {m : Mount} (synced : Synced conn m) (told : m.FreeTold) (park : Bool) :
    let r := m.startResync park e
    Synced conn r.2 ∧
      (r.1 = 0 ∧ (r.2.motion = .free → r.2.insideDomeOnly = false ∧ park = false ∧ Frees e m) ∨
        r.1 ≠ 0 ∧ r.2.motion = m.motion ∧ (r.2.FreeTold ∨
          e.pathFound = false ∧ getDomeState e.now m.connDome ≠ 0)) := by
  intro r
  have refused : r = (-1, m) → Synced conn r.2 ∧
      (r.1 = 0 ∧ (r.2.motion = .free → r.2.insideDomeOnly = false ∧ park = false ∧ Frees e m) ∨
        r.1 ≠ 0 ∧ r.2.motion = m.motion ∧ (r.2.FreeTold ∨
          e.pathFound = false ∧ getDomeState e.now m.connDome ≠ 0)) := by
    intro same
    rw [same]
    exact ⟨synced, .inr ⟨by simp, rfl, .inl told⟩⟩
  by_cases closes : !m.parking ∧ domeCloses m.connDome
  · exact refused (if_pos closes)
  · have heeded : domeCloses m.connDome = true → m.parking = true := by
      intro seen
      by_contra flag
      exact closes ⟨by simpa using flag, seen⟩
    have allowed : r = _ := if_neg closes
    by_cases opened : getDomeState e.now m.connDome = 0
    · have same : r = (m.setInsideDomeOnlyMovement false).startDrives park e :=
        allowed.trans (by simp [opened])
      obtain ⟨synced, ⟨ok, found, free, leaves⟩ | ⟨failed, -, motion, leaves⟩⟩ :=
        startDrives_spec conn e m false park
      · rw [same]
        exact ⟨synced, .inl ⟨ok, fun moves => ⟨leaves, (free moves).2, found, opened, heeded⟩⟩⟩
      · rw [same]
        exact ⟨synced, .inr ⟨failed, motion, .inl (fun _ => leaves)⟩⟩
    · by_cases above : e.aboveCeiling = true
      · exact refused (allowed.trans (by simp [opened, above]))
      · by_cases differ : e.encodersDiffer = true
        · exact refused (allowed.trans (by simp [opened, above, differ]))
        · have same : r = (m.setInsideDomeOnlyMovement true).startDrives park e :=
            allowed.trans (by simp [opened, above, differ])
          obtain ⟨synced, ⟨ok, -, free, -⟩ | ⟨failed, missing, motion, -⟩⟩ :=
            startDrives_spec conn e m true park
          · rw [same]
            exact ⟨synced, .inl ⟨ok, fun moves => by simpa using (free moves).1⟩⟩
          · rw [same]
            exact ⟨synced, .inr ⟨failed, motion, .inr ⟨missing, opened⟩⟩⟩

structure Tells (conn : ConnMount) (frees : Prop) (m m' : Mount) : Prop where
  synced : Synced conn m'
  told : m'.FreeTold
  free : m'.motion = .free → m.motion = .free ∨ frees

theorem Stopped.tells {m m' : Mount} (stopped : Stopped m m') (synced : Synced conn m)
    (told : m.FreeTold) {frees : Prop} : Tells conn frees m m' :=
  ⟨stopped.synced synced, stopped.freeTold told, fun free => .inl (stopped.free free)⟩

theorem startResyncMove_spec {m : Mount} (synced : Synced conn m) (told : m.FreeTold) (fits : Fits e m)
    (park : Bool) : Tells conn (park = false ∧ Frees e m) m (m.startResyncMove park e).2 := by
  have same : Tells conn (park = false ∧ Frees e m) m m := ⟨synced, told, .inl⟩
  unfold startResyncMove
  by_cases blocked : e.blockMove = true
  · simp only [if_pos blocked]
    exact same
  · by_cases parks : m.moving = .TEL_PARKING
    · simp only [if_neg blocked, if_pos parks]
      exact same
    · simp only [if_neg blocked, if_neg parks]
      have first : Stopped m (if m.moving = .TEL_MOVING then m.stopMove e else (0, m)).2 := by
        by_cases moves : m.moving = .TEL_MOVING
        · rw [if_pos moves]
          exact (m.stopMove_spec e).1
        · rw [if_neg moves]
          exact .refl m
      generalize (if m.moving = .TEL_MOVING then m.stopMove e else (0, m)) = s at first
      by_cases failed : s.1 ≠ 0
      · rw [if_pos failed]
        exact first.tells synced told
      · rw [if_neg failed]
        by_cases bad : (!e.targetGood) = true
        · rw [if_pos bad]
          have again := (s.2.stopMove_spec e).1
          refine ⟨synced_maskState (again.synced (first.synced synced)) _, ?_, ?_⟩
          · exact again.freeTold (first.freeTold told)
          · exact fun free => .inl (first.free (again.free free))
        · rw [if_neg bad]
          have starts := startResync_spec (e := e) (synced_maskState (first.synced synced) .TEL_MOVING)
            (first.freeTold told) park
          generalize (s.2.maskState .TEL_MOVING).startResync park e = r at starts
          obtain ⟨synced, ⟨ok, free⟩ | ⟨failed, motion, told⟩⟩ := starts
          · rw [if_neg (by simpa using ok)]
            refine ⟨synced, fun moves => (free moves).1, fun moves => .inr ⟨(free moves).2.1, ?_⟩⟩
            exact first.frees (free moves).2.2
          · rw [if_pos failed]
            obtain ⟨again, rests⟩ := r.2.stopMove_spec e
            have before : (r.2.stopMove e).2.motion = .free → s.2.motion = .free := fun free =>
              motion.symm.trans (again.free free)
            refine ⟨synced_maskState (again.synced synced) _, fun free => ?_, fun free => ?_⟩
            · obtain told | ⟨missing, refused⟩ := told
              · exact again.freeTold told free
              · obtain stops | found | opened := first.fits fits (before free)
                · exact absurd ((rests stops).symm.trans free) (by simp)
                · exact absurd (missing.symm.trans found) (by simp)
                · exact absurd opened refused
            · exact .inl (first.free (before free))

theorem Tells.after {m n o : Mount} {frees frees' : Prop} (first : Tells conn frees m n)
    (then_frees : frees → frees') (second : Tells conn frees' n o) : Tells conn frees' m o :=
  ⟨second.synced, second.told, fun free => (second.free free).elim
    (fun before => (first.free before).imp_right then_frees) .inr⟩

theorem Tells.maskState {m n : Mount} {frees : Prop} (tells : Tells conn frees m n) (moving : TelMoving) :
    Tells conn frees m (n.maskState moving) :=
  ⟨synced_maskState tells.synced moving, tells.told, tells.free⟩

theorem startPark_spec {m : Mount} (synced : Synced conn m) (told : m.FreeTold) (fits : Fits e m) :
    Tells conn False m (m.startPark e).2 := by
  have same : Tells conn False m m := ⟨synced, told, .inl⟩
  unfold startPark
  by_cases parks : m.moving = .TEL_PARKING
  · simp only [if_pos parks]
    exact same
  · by_cases blocked : e.blockMove = true
    · simp only [if_neg parks, if_pos blocked]
      exact same
    · simp only [if_neg parks, if_neg blocked]
      have first : Stopped m (if m.moving = .TEL_MOVING then m.stopMove e else (0, m)).2 := by
        by_cases moves : m.moving = .TEL_MOVING
        · rw [if_pos moves]
          exact (m.stopMove_spec e).1
        · rw [if_neg moves]
          exact .refl m
      generalize (if m.moving = .TEL_MOVING then m.stopMove e else (0, m)) = s at first
      by_cases failed : s.1 ≠ 0
      · rw [if_pos failed]
        exact first.tells synced told
      · rw [if_neg failed]
        have stopped := first.trans (s.2.stopMove_spec e).1
        have moves := startResyncMove_spec (m := { (s.2.stopMove e).2 with parking := true })
          (stopped.synced synced) (stopped.freeTold told) (stopped.fits fits) true
        have tells : Tells conn False m _ :=
          (stopped.tells synced told).after id ⟨moves.synced, moves.told,
            fun free => (moves.free free).imp_right (fun frees => by simp at frees)⟩
        split
        · exact tells
        · exact tells.maskState _

theorem checkMoves_tells {m : Mount} (synced : Synced conn m) (told : m.FreeTold) (isMoving : Int)
    (good : Bool) : Tells conn False m (m.checkMoves isMoving good) := by
  have same : Tells conn False m m := ⟨synced, told, .inl⟩
  have rested : Tells conn False m { m with motion := .rest } :=
    ⟨synced, fun free => by simp at free, fun free => by simp at free⟩
  have parked : Tells conn False m (m.endPark good) :=
    ⟨synced_inside _ good, fun free => by simp [endPark, setInsideDomeOnlyMovement, send] at free,
      fun free => by simp [endPark, setInsideDomeOnlyMovement, send] at free⟩
  unfold checkMoves
  cases m.moving with
  | TEL_MOVING =>
    simp only []
    split
    · exact same.maskState _
    · split
      · exact rested.maskState _
      · exact same
  | TEL_PARKING =>
    simp only []
    split
    · exact same.maskState _
    · split
      · exact parked.maskState _
      · exact same
  | TEL_OBSERVING | TEL_PARKED => exact same

def CallFrees (m : Mount) : Call → Prop
  | .move e => Frees e m
  | .abort returns _ => returns = true
  | _ => False

def CallFits (m : Mount) : Call → Prop
  | .move e | .park e => Fits e m
  | _ => True

theorem step_tells {m : Mount} (synced : Synced conn m) (told : m.FreeTold) {call : Call}
    (fits : CallFits m call) : Tells conn (CallFrees m call) m (m.step call) := by
  cases call with
  | move e =>
    have moves := startResyncMove_spec synced told fits false
    exact ⟨moves.synced, moves.told, fun free => (moves.free free).imp_right And.right⟩
  | park e => exact startPark_spec synced told fits
  | stop e => exact (m.stopMove_spec e).1.tells synced told
  | check isMoving good => exact checkMoves_tells synced told isMoving good
  | abort returns e =>
    have tells : Tells conn False m _ := (m.stopMove_spec e).1.tells synced told
    cases returns with
    | false => exact ⟨tells.synced, tells.told, fun free => (tells.free free).imp_right False.elim⟩
    | true => exact ⟨synced_inside _ false, fun _ => rfl, fun _ => .inr rfl⟩
  | info now => exact ⟨synced_info synced now, told, .inl⟩
  | link connected ready => exact ⟨synced, told, .inl⟩

theorem receive_tells {m : Mount} (synced : Synced conn m) (told : m.FreeTold) {message : ToMount}
    (fits : Fits e { m with connDome := m.connDome.receive message } ∨ message ≠ .park) :
    Tells conn False m (m.receive e message) := by
  cases message with
  | park =>
    have fits := fits.resolve_right (by simp)
    exact startPark_spec (m := { m with connDome := m.connDome.receive .park }) synced told fits
  | info => exact ⟨synced_info (m := { m with connDome := m.connDome.receive .info }) synced e.now, told, .inl⟩
  | state state => exact ⟨synced, told, .inl⟩
  | roofOpened opened => exact ⟨synced, told, .inl⟩
  | infotime time => exact ⟨synced, told, .inl⟩

/-! What the mount does leaves its copy of the dome. -/

theorem startDrives_conn (park : Bool) (m : Mount) : (m.startDrives park e).2.connDome = m.connDome := by
  unfold startDrives
  split <;> rfl

theorem startResync_conn (park : Bool) (m : Mount) : (m.startResync park e).2.connDome = m.connDome := by
  unfold startResync
  split
  · rfl
  · split
    · split
      · rfl
      · split
        · rfl
        · exact startDrives_conn _ _
    · exact startDrives_conn _ _

theorem stopMoving_conn (m : Mount) :
    (if m.moving = .TEL_MOVING then m.stopMove e else (0, m)).2.connDome = m.connDome := by
  split
  · exact (m.stopMove_spec e).1.connDome
  · rfl

theorem startResyncMove_conn (park : Bool) (m : Mount) :
    (m.startResyncMove park e).2.connDome = m.connDome := by
  have first := stopMoving_conn (e := e) m
  simp only [startResyncMove]
  generalize (if m.moving = .TEL_MOVING then m.stopMove e else (0, m)) = s at first
  have stopped := (s.2.stopMove_spec e).1.connDome.trans first
  have started := (startResync_conn (e := e) park (s.2.maskState .TEL_MOVING)).trans first
  generalize (s.2.maskState .TEL_MOVING).startResync park e = r at started
  have again := (r.2.stopMove_spec e).1.connDome.trans started
  repeat' split
  all_goals first | rfl | assumption

theorem startPark_conn (m : Mount) : (m.startPark e).2.connDome = m.connDome := by
  have first := stopMoving_conn (e := e) m
  simp only [startPark]
  generalize (if m.moving = .TEL_MOVING then m.stopMove e else (0, m)) = s at first
  have stopped := (s.2.stopMove_spec e).1.connDome.trans first
  have moved := (startResyncMove_conn (e := e) true
    { (s.2.stopMove e).2 with parking := true }).trans stopped
  repeat' split
  all_goals first | rfl | assumption

theorem step_domeState (m : Mount) (call : Call) : (m.step call).connDome.state = m.connDome.state := by
  cases call with
  | move e => exact congrArg ConnDome.state (startResyncMove_conn false m)
  | park e => exact congrArg ConnDome.state (startPark_conn m)
  | stop e => exact congrArg ConnDome.state (m.stopMove_spec e).1.connDome
  | check isMoving good =>
    simp only [step, checkMoves]
    repeat' split
    all_goals rfl
  | abort returns e =>
    have stopped := (m.stopMove_spec e).1.connDome
    cases returns <;> exact congrArg ConnDome.state stopped
  | info now => rfl
  | link connected ready => rfl

theorem receive_conn (m : Mount) (message : ToMount) :
    (m.receive e message).connDome = m.connDome.receive message := by
  cases message with
  | park => exact startPark_conn _
  | info => rfl
  | state state => rfl
  | roofOpened opened => rfl
  | infotime time => rfl

theorem getDomeState_connected {now : Nat} {dome : ConnDome} (opened : getDomeState now dome = 0) :
    dome.connected = true := by
  by_contra off
  rw [getDomeState, if_pos (by simpa using off)] at opened
  simp at opened

end Mount

namespace Dome

def AsksClose : Call → Prop
  | .closeStart | .masterClose true | .quietClose | .retry | .idle true false true => True
  | _ => False

theorem step_other {σ : Type} (D : Driver σ) (startClose : σ → Int × σ) (d : Dome σ) {call : Call}
    (other : ¬ AsksClose call) : step D d call = step { D with startClose := startClose } d call := by
  cases call with
  | openStart isGoodWeather => rfl
  | stop => rfl
  | closeStart | quietClose | retry => exact absurd trivial other
  | masterClose autoClose =>
    cases autoClose with
    | true => exact absurd trivial other
    | false => rfl
  | idle settled isGoodWeather autoClose =>
    cases settled with
    | false => rfl
    | true =>
      cases isGoodWeather with
      | true => rfl
      | false =>
        cases autoClose with
        | true => exact absurd trivial other
        | false => rfl

end Dome

namespace World

/-- The two agree, but for what is on its way, and the roof does not close over a free move. -/
structure Interlocked (w : World) : Prop where
  watching : w.dome.driver.ignoreMountState = false
  synced : w.mount.Synced w.dome.driver.connMount
  told : w.mount.FreeTold
  state : (w.toMount.foldl ConnDome.receive w.mount.connDome).state = w.dome.state
  apart : w.dome.driver.ford.drives .ZAVIRANI = true → w.mount.motion ≠ .free

def Careful (w : World) : Turn → Prop
  | .dome call =>
    Dome.AsksClose call → w.mount.motion = .free → .insideDome false ∉ w.mount.sent
  | .mount (.move e) =>
    Mount.Fits e w.mount ∧
      (e.pathFound = true → Mount.getDomeState e.now w.mount.connDome = 0 →
        w.dome.driver.ford.drives .ZAVIRANI = true →
          w.dome.state = .DOME_CLOSING ∧ .state .DOME_CLOSING ∉ w.toMount ∧
            w.mount.parking = false)
  | .mount (.park e) => Mount.Fits e w.mount
  | .mount (.abort returns _) =>
    returns = true → w.dome.driver.ford.drives .ZAVIRANI = false
  | .mountReceives e => w.toMount.head? = some .park → Mount.Fits e w.mount
  | _ => True

theorem Interlocked.keeps {w : World} (held : w.Interlocked) {driver : D50}
    (keeps : D50.Keeps w.dome.driver driver) :
    Interlocked { w with dome := { w.dome with driver := driver } } := by
  refine ⟨keeps.ignoreMountState.trans held.watching, ?_, held.told, held.state, fun on => ?_⟩
  · have conn : driver.connMount = w.dome.driver.connMount := keeps.connMount
    have synced : w.mount.Synced driver.connMount := by
      rw [conn]
      exact held.synced
    exact synced
  · exact held.apart ((keeps.drives .ZAVIRANI).symm.trans on)

theorem dome_interlocked {w : World} (held : w.Interlocked) {call : Dome.Call}
    (careful : w.Careful (.dome call)) : (w.domeStep call).Interlocked := by
  have known : (Dome.step D50.driver w.dome call).driver.known = w.dome.driver.known :=
    (D50.known_kept _).step rfl call
  have conn : (Dome.step D50.driver w.dome call).driver.connMount = w.dome.driver.connMount :=
    congrArg Prod.fst known
  refine ⟨(congrArg Prod.snd known).trans held.watching, ?_, held.told, ?_, fun on free => ?_⟩
  · unfold Mount.Synced
    rw [show (w.domeStep call).dome.driver.connMount = w.dome.driver.connMount from conn]
    exact held.synced
  · simp [domeStep, List.foldl_append, ConnDome.receive]
  · have on : (Dome.step D50.driver w.dome call).driver.ford.drives .ZAVIRANI = true := on
    have before : w.dome.driver.ford.drives .ZAVIRANI = false := by
      by_contra runs
      exact held.apart (by simpa using runs) free
    have off : w.dome.driver.ClosingOff w.dome.driver.connMount := ⟨rfl, held.watching, before⟩
    by_cases asks : Dome.AsksClose call
    · -- the copy of the mount shows what it told last, so no close starts
      have leaves : w.dome.driver.connMount.insideDome = some 0 := by
        refine ConnMount.inside_kept (careful asks free) ?_
        rw [held.synced, held.told free]
        rfl
      have kept := (D50.closingOff_kept (by simp [leaves])).step off call
      exact absurd (kept.off.symm.trans on) (by simp)
    · rw [Dome.step_other D50.driver (fun d => (0, d)) w.dome asks] at on
      exact absurd ((D50.closingOff_other.step off call).off.symm.trans on) (by simp)

theorem mount_interlocked {w : World} (held : w.Interlocked) {call : Mount.Call}
    (careful : w.Careful (.mount call)) : (w.step (.mount call)).Interlocked := by
  have fits : Mount.CallFits w.mount call := by
    cases call with
    | move e => exact careful.1
    | park e => exact careful
    | _ => trivial
  have tells := Mount.step_tells held.synced held.told fits
  refine ⟨held.watching, tells.synced, tells.told, ?_, fun on free => ?_⟩
  · exact (ConnDome.folded_state (Mount.step_domeState w.mount call)).trans held.state
  · obtain before | frees := tells.free free
    · exact held.apart on before
    · cases call with
      | move e =>
        obtain ⟨found, opened, heeded⟩ := frees
        obtain ⟨closing, told, flag⟩ := careful.2 found opened on
        have copy := ConnDome.state_kept (told) (held.state.trans closing)
        have closes : Mount.domeCloses w.mount.connDome = true := by
          simp [Mount.domeCloses, Mount.getDomeState_connected opened, copy]
        exact absurd (flag.symm.trans (heeded closes)) (by simp)
      | abort returns e => exact absurd ((careful frees).symm.trans on) (by simp)
      | _ => exact frees

theorem step_interlocked {w : World} (held : w.Interlocked) {turn : Turn} (careful : w.Careful turn) :
    (w.step turn).Interlocked := by
  cases turn with
  | dome call => exact dome_interlocked held careful
  | mount call => exact mount_interlocked held careful
  | domeInfo now =>
    have read := held.keeps w.dome.driver.zjisti_looks.keeps
    simp only [step, domeInfo]
    split
    · exact read
    · refine ⟨read.watching, read.synced, read.told, ?_, read.apart⟩
      simp only [List.foldl_append]
      exact read.state
  | domeLink connected ready =>
    refine ⟨held.watching, ?_, held.told, held.state, held.apart⟩
    have synced : (w.mount.sent.foldl ConnMount.receive w.dome.driver.connMount).insideDome =
        some w.mount.insideDomeOnly.toInt := held.synced
    have copied : (w.mount.sent.foldl ConnMount.receive
        { w.dome.driver.connMount with connected := connected, ready := ready }).insideDome =
        (w.mount.sent.foldl ConnMount.receive w.dome.driver.connMount).insideDome :=
      ConnMount.folded_inside rfl
    exact copied.trans synced
  | domeReceives =>
    simp only [step]
    cases sent : w.mount.sent with
    | nil => exact held
    | cons message rest =>
      have synced := held.synced
      rw [Mount.Synced, sent] at synced
      exact ⟨held.watching, synced, held.told, held.state, held.apart⟩
  | mountReceives e =>
    simp only [step]
    cases queue : w.toMount with
    | nil => exact held
    | cons message rest =>
      have fits : Mount.Fits e { w.mount with connDome := w.mount.connDome.receive message } ∨
          message ≠ .park := by
        by_cases park : message = .park
        · refine .inl ?_
          have fits := careful (by rw [queue, park]; rfl)
          rw [park]
          exact fits
        · exact .inr park
      have tells := Mount.receive_tells held.synced held.told fits
      refine ⟨held.watching, tells.synced, tells.told, ?_, fun on free => ?_⟩
      · have state := held.state
        rw [queue] at state
        rw [Mount.receive_conn]
        exact state
      · exact held.apart on ((tells.free free).resolve_right id)

/-- The roof does not close over a free move, in any run whose turns do not decide on a copy that is
behind. -/
theorem roof_apart {w : World} (start : w.Interlocked) {turns : List Turn}
    (careful : Guarded step Careful w turns) :
    let w := run step w turns
    w.dome.driver.ford.drives .ZAVIRANI = true → w.mount.motion ≠ .free :=
  (run_invariant step Careful Interlocked (fun _ _ held careful => step_interlocked held careful) w turns
    start careful).apart

def evening : World where
  dome :=
    { driver :=
        { D50.start
            { portA := Vystup.KONCAK_OTEVRENI.pin, portB := 0, outputs := 0, driven := []
              replies := fun n =>
                { read := some Vystup.KONCAK_OTEVRENI.pin, takesEffect := true, writes := true
                  now := 1000 * n } } with
          connMount :=
            { connected := true, ready := true, infotime := some 0, insideDome := some 1
              moving := .TEL_PARKED } }
      state := .DOME_OPENED, retryTimers := 0, closeRetries := 0, closeFailReported := false
      quietClose := false, wanted := false, planned := false, retried := 0 }
  mount :=
    { moving := .TEL_PARKED, motion := .rest, parking := false, insideDomeOnly := true
      connDome :=
        { connected := true, ready := true, infotime := some 0, roofOpened := some true
          state := .DOME_OPENED }
      sent := [] }
  toMount := []

def calm : Surroundings where
  now := 1000
  blockMove := false
  targetGood := true
  drivesMove := false
  stops := true
  aboveCeiling := false
  encodersDiffer := false
  pathFound := true

theorem evening_interlocked : evening.Interlocked where
  watching := rfl
  synced := rfl
  told := fun free => by simp [evening] at free
  state := rfl
  apart := fun _ => by simp [evening]

def refused : List Turn :=
  [.dome .closeStart, .mountReceives calm, .mount (.move calm), .domeReceives]

theorem refused_apart :
    (run step evening refused).dome.driver.ford.drives .ZAVIRANI = true ∧
      (run step evening refused).mount.motion ≠ .free := by
  have careful : Guarded step Careful evening refused := by
    refine ⟨fun _ free => absurd free (by decide), fun head => absurd head (by decide),
      ⟨fun _ => .inl rfl, fun _ _ _ => ?_⟩, trivial, trivial⟩
    decide
  have closes : (run step evening refused).dome.driver.ford.drives .ZAVIRANI = true := by
    decide
  exact ⟨closes, roof_apart evening_interlocked careful closes⟩

/-- The mount starts to leave while the close of the roof is on its way to it. -/
theorem roof_races :
    let w := run step evening [.dome .closeStart, .mount (.move calm)]
    w.dome.driver.ford.drives .ZAVIRANI = true ∧ w.mount.motion = .free := by
  decide

end World

end Rts2.Roof
