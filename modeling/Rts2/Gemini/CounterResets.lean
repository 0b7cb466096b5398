import Rts2.Gemini.Startup

/-! A cold or warm start sets the Dec counter to half a circle, wherever the telescope is. -/
namespace Rts2.Gemini.Mount

open Lib

/-- A pass judges a startup; before the boot, or without one at the reading before, the counter was away. -/
def ResetByStart (m : Mount) : Prop :=
  m.status.startupCount ≠ m.lastStartupCount ∧
    if m.status.bootObserved then ∃ dec ∈ m.booted, m.status.away (some dec) = true
    else m.status.away m.previous = true

/-- A pass handles a new reading; nothing had moved for 10 s, and the counter was away at the reading before. -/
def ResetUnseen (m : Mount) (now : ℚ) : Prop :=
  m.status.startupCount = m.lastStartupCount ∧ m.status.startupComplete = true ∧
    m.status.axisTimestamp ≠ m.lastAxisSampleTimestamp ∧ m.status.moveInProgress = false ∧ m.status.parking = false ∧
    now - m.lastMotionAt > 10 ∧ m.status.away m.previous = true

def AtCwdUnexplained (m : Mount) : Prop :=
  m.status.atCwd = true ∧ m.pendingHumanStartup = none ∧ m.rezeroState = .idle

def Reset (m : Mount) : Event → Prop
  | .info => m.AtCwdUnexplained ∧ m.ResetByStart
  | .idle now _ => m.AtCwdUnexplained ∧ (m.ResetByStart ∨ m.ResetUnseen now)
  | .handshake _ | .readGeometry _ | .readAxis _ | .startedUp | .polled .. | .motion .. | .position .. | .setStartupMode _
  | .reset | .automaticRezero .. | .stop _ | .astrometry .. | .incident _ => False

def Caught (m : Mount) (e : Event) : Prop := m.Reset e → (m.step e).positionTrust = .lost

def LostBefore (m : Mount) : Prop := (m.checkBootMenu m.status).positionTrust = .lost

/-- After a boot, the driver answered the boot menu with a warm or a cold start, or the position was lost before; without
one, the counter was away when an earlier run of the driver saved it, or lost; or the reading before was handled. -/
def Told (m : Mount) : Prop :=
  if m.status.startupCount = m.lastStartupCount then m.LostBefore ∨ m.status.away m.lastDecTicks = true
  else if m.status.bootObserved then
    m.LostBefore ∨ m.status.bootSelection = 'W' ∨ m.status.bootSelection = 'C' ∨
      m.status.startupCount = 1 ∧ m.savedTrust = .lost
  else m.savedTrust = .lost ∨ m.status.away m.savedDecTicks = true

structure Started (m : Mount) : Prop where
  unseen : m.status.bootObserved = false →
    m.status.startupCount = 0 ∨ m.status.startupCount = 1 ∧ m.status.startupComplete = true ∧ m.postStartup = .done
  judged : m.lastStartupCount ≤ m.status.startupCount

variable {m : Mount}

theorem setPositionTrust_trust (trust : Trust) (reason : Reason) :
    (m.setPositionTrust trust reason).positionTrust = trust := by
  unfold setPositionTrust
  split
  · rename_i same
    exact same.1.symm
  · rfl

theorem judgeOwnStartup_lost (st : Status) (atCwd : st.atCwd = true)
    (baseline : m.lastDecTicks = some st.decAxisTicks) (first : st.bootObserved = false → m.lastStartupCount = 1) :
    (m.judgeOwnStartup st).positionTrust = .lost ↔
      if st.bootObserved then
        m.positionTrust = .lost ∨ st.bootSelection = 'W' ∨ st.bootSelection = 'C' ∨ m.carriedLost = true
      else m.savedTrust = .lost ∨ st.away m.savedDecTicks = true := by
  have same : m.lastDecTicks.any (fun dec => st.geometry.any (·.decHalf = dec)) = true := by
    rw [baseline]
    exact (Bool.and_eq_true_iff.mp atCwd).2
  unfold judgeOwnStartup
  cases seen : st.bootObserved with
  | false =>
    have one := first seen
    have carried : m.carriedLost = true ↔ m.savedTrust = .lost := by simp [carriedLost, one]
    simp only [one, Nat.lt_irrefl, if_false, if_true, atCwd, true_and, Bool.false_eq_true]
    split_ifs with lost away
    · simp [setPositionTrust_trust, carried.mp lost]
    · simp [setPositionTrust_trust, away]
    · simp [setPositionTrust_trust, mt carried.mpr lost, away]
  | true =>
    simp only [Bool.true_eq_false, if_false, if_true, same, not_true, and_false]
    split_ifs with selection carried lost
    · rcases selection with w | w <;> simp [setPositionTrust_trust, w]
    · simp [setPositionTrust_trust, carried]
    · exact iff_of_true (of_decide_eq_true lost) (.inl (of_decide_eq_true lost))
    · have held : m.positionTrust ≠ .lost := fun gone => lost (decide_eq_true gone)
      obtain ⟨notW, notC⟩ := not_or.mp selection
      refine iff_of_false (by simp [setPositionTrust_trust]) ?_
      rintro (gone | w | c | taken)
      exacts [held gone, notW w, notC c, carried taken]

def OnlyVerdict (m m' : Mount) : Prop :=
  ∃ trust reason forBootMenu,
    m' = { m with positionTrust := trust, positionReason := reason, lostOnlyForBootMenu := forBootMenu }

theorem setPositionTrust_verdict (m : Mount) (trust : Trust) (reason : Reason) :
    OnlyVerdict m (m.setPositionTrust trust reason) := by
  unfold setPositionTrust
  split
  · exact ⟨_, _, _, rfl⟩
  · exact ⟨_, _, _, rfl⟩

theorem OnlyVerdict.trans {m m' m'' : Mount} (first : OnlyVerdict m m') (second : OnlyVerdict m' m'') :
    OnlyVerdict m m'' := by
  obtain ⟨trust, reason, forBootMenu, rfl⟩ := first
  obtain ⟨trust', reason', forBootMenu', rfl⟩ := second
  exact ⟨trust', reason', forBootMenu', rfl⟩

theorem OnlyVerdict.refl (m : Mount) : OnlyVerdict m m := ⟨_, _, _, rfl⟩

theorem checkBootMenu_verdict (m : Mount) (st : Status) : OnlyVerdict m (m.checkBootMenu st) := by
  unfold checkBootMenu
  split
  · exact (setPositionTrust_verdict m _ _).trans ⟨_, _, _, rfl⟩
  · exact .refl m

theorem checkStartup_lost (started : Started m) (unexplained : m.AtCwdUnexplained)
    (fresh : m.status.startupCount ≠ m.lastStartupCount) :
    (m.checkStartup m.status).positionTrust = .lost ↔ m.Told := by
  obtain ⟨atCwd, pending, idle⟩ := unexplained
  have valid : m.status.axisValid = true := (Bool.and_eq_true_iff.mp atCwd).1
  obtain ⟨trust, reason, forBootMenu, menu⟩ := checkBootMenu_verdict m m.status
  have first : m.status.bootObserved = false → m.status.startupCount = 1 := by
    intro unseen
    have judged := started.judged
    rcases started.unseen unseen with none | ⟨one, -⟩ <;> omega
  have before : m.LostBefore ↔ trust = .lost := by rw [LostBefore, menu]
  unfold checkStartup Told
  rw [if_neg fresh, before]
  simp only [menu, fresh, if_false, judgeStartup, idle, pending, valid, if_true, reduceCtorEq]
  rw [judgeOwnStartup_lost m.status atCwd rfl first]
  simp [carriedLost]

theorem checkPositionEvidence_judged (st : Status) (now : ℚ) (seen : st.axisTimestamp = m.lastAxisSampleTimestamp) :
    (m.checkPositionEvidence st now).positionTrust = m.positionTrust := by
  unfold checkPositionEvidence
  split_ifs <;> simp_all

theorem setPositionTrust_rezeroState (m : Mount) (trust : Trust) (reason : Reason) :
    (m.setPositionTrust trust reason).rezeroState = m.rezeroState := by
  obtain ⟨_, _, _, only⟩ := setPositionTrust_verdict m trust reason
  rw [only]

theorem checkPositionEvidence_rezero (m : Mount) (st : Status) (now : ℚ) :
    (m.checkPositionEvidence st now).rezeroState = m.rezeroState := by
  unfold checkPositionEvidence
  dsimp only
  split_ifs <;> simp only [setPositionTrust_rezeroState]

theorem judgeOwnStartup_kept (m : Mount) (st : Status) :
    (m.judgeOwnStartup st).rezeroState = m.rezeroState ∧
      (m.judgeOwnStartup st).lastAxisSampleTimestamp = m.lastAxisSampleTimestamp := by
  have only : OnlyVerdict m (m.judgeOwnStartup st) := by
    unfold judgeOwnStartup
    split_ifs <;> first | exact .refl m | exact setPositionTrust_verdict m _ _
  obtain ⟨_, _, _, own⟩ := only
  rw [own]
  exact ⟨rfl, rfl⟩

theorem checkStartup_baseline (pending : m.pendingHumanStartup = none) (idle : m.rezeroState = .idle)
    (valid : m.status.axisValid = true) (fresh : m.status.startupCount ≠ m.lastStartupCount) :
    (m.checkStartup m.status).rezeroState = .idle ∧
      (m.checkStartup m.status).lastAxisSampleTimestamp = m.status.axisTimestamp := by
  obtain ⟨trust, reason, forBootMenu, menu⟩ := checkBootMenu_verdict m m.status
  unfold checkStartup
  simp only [menu, fresh, if_false, judgeStartup, idle, pending, valid, if_true, reduceCtorEq]
  simp only [judgeOwnStartup_kept, idle, and_self]

theorem runRezero_idle {m : Mount} (idle : m.rezeroState = .idle) (st : Status) (now : ℚ) (accepted : Bool) :
    m.runRezero st now accepted = m := by
  simp only [runRezero, idle]

theorem idle_judges (started : Started m) (unexplained : m.AtCwdUnexplained)
    (fresh : m.status.startupCount ≠ m.lastStartupCount) (now : ℚ) (accepted : Bool) :
    (m.step (.idle now accepted)).positionTrust = .lost ↔ m.Told := by
  rw [← checkStartup_lost started unexplained fresh]
  obtain ⟨atCwd, pending, idle⟩ := unexplained
  have valid : m.status.axisValid = true := (Bool.and_eq_true_iff.mp atCwd).1
  have judged := checkStartup_baseline pending idle valid fresh
  have still := (checkPositionEvidence_rezero (m.checkStartup m.status) m.status now).trans judged.1
  rw [step, runRezero_idle still, checkPositionEvidence_judged m.status now judged.2.symm]

theorem checkPositionEvidence_lost (st : Status) (now : ℚ) (idle : m.rezeroState = .idle)
    (pending : m.pendingHumanStartup = none) (moving : st.moveInProgress = false) (parking : st.parking = false)
    (atCwd : st.atCwd = true) (newer : st.axisTimestamp ≠ m.lastAxisSampleTimestamp) (quiet : now - m.lastMotionAt > 10) :
    (m.checkPositionEvidence st now).positionTrust = .lost ↔
      m.positionTrust = .lost ∨ st.away m.lastDecTicks = true := by
  have valid : st.axisValid = true := (Bool.and_eq_true_iff.mp atCwd).1
  have known : st.geometry ≠ none := by
    intro unknown
    simp [Status.atCwd, unknown] at atCwd
  have rests : ¬(st.moveInProgress = true ∨ st.parking = true ∨ m.rezeroState ≠ .idle) := by simp [moving, parking, idle]
  have looks : ¬(st.axisValid = false ∨ st.geometry = none ∨ st.axisTimestamp = m.lastAxisSampleTimestamp) := by
    simp [valid, known, newer]
  unfold checkPositionEvidence
  simp only [if_neg rests, if_neg looks]
  by_cases away : st.away m.lastDecTicks = true
  · rw [if_pos ⟨atCwd, away, quiet, pending, idle⟩]
    exact iff_of_true (setPositionTrust_trust _ _) (.inr away)
  · rw [if_neg (fun evidence => away evidence.2.1)]
    simp only [away, or_false, Bool.false_eq_true]

theorem idle_handles (unexplained : m.AtCwdUnexplained) (now : ℚ) (unseen : m.ResetUnseen now) (accepted : Bool) :
    (m.step (.idle now accepted)).positionTrust = .lost ↔ m.Told := by
  obtain ⟨atCwd, pending, idle⟩ := unexplained
  obtain ⟨judged, -, newer, moving, parking, quiet, -⟩ := unseen
  obtain ⟨trust, reason, forBootMenu, menu⟩ := checkBootMenu_verdict m m.status
  have before : m.LostBefore ↔ trust = .lost := by rw [LostBefore, menu]
  have same : m.checkStartup m.status = m.checkBootMenu m.status := by simp only [checkStartup, judged, if_true, menu]
  have still : ((m.checkBootMenu m.status).checkPositionEvidence m.status now).rezeroState = .idle := by
    rw [checkPositionEvidence_rezero, menu]
    exact idle
  rw [Told, if_pos judged, before, step, same, runRezero_idle still, menu]
  exact checkPositionEvidence_lost m.status now idle pending moving parking atCwd newer quiet

theorem caught_iff (started : Started m) (e : Event) : Caught m e ↔ (m.Reset e → m.Told) := by
  unfold Caught
  refine imp_congr_right fun reset => ?_
  cases e with
  | info => exact checkStartup_lost started reset.1 reset.2.1
  | idle now accepted =>
    obtain ⟨unexplained, byStart | unseen⟩ := reset
    · exact idle_judges started unexplained byStart.1 now accepted
    · exact idle_handles unexplained now unseen accepted
  | handshake | readGeometry | readAxis | startedUp | polled | motion | position | setStartupMode | reset
  | automaticRezero | stop | astrometry | incident => exact reset.elim

def Undisturbed (m m' : Mount) : Prop :=
  m'.status = m.status ∧ m'.postStartup = m.postStartup ∧ m'.lastStartupCount = m.lastStartupCount

theorem OnlyVerdict.undisturbed {m m' : Mount} (only : OnlyVerdict m m') : Undisturbed m m' := by
  obtain ⟨_, _, _, rfl⟩ := only
  exact ⟨rfl, rfl, rfl⟩

theorem Undisturbed.trans {m n k : Mount} (first : Undisturbed m n) (second : Undisturbed n k) : Undisturbed m k :=
  ⟨second.1.trans first.1, second.2.1.trans first.2.1, second.2.2.trans first.2.2⟩

theorem Started.undisturbed {m m' : Mount} (started : Started m) (same : Undisturbed m m') : Started m' := by
  obtain ⟨status, postStartup, count⟩ := same
  constructor
  · rw [status, postStartup]
    exact started.unseen
  · rw [status, count]
    exact started.judged

theorem Started.booted {m m' : Mount} (started : Started m) (seen : m'.status.bootObserved = true)
    (count : m.status.startupCount ≤ m'.status.startupCount) (judged : m'.lastStartupCount = m.lastStartupCount) :
    Started m' := by
  constructor
  · intro unseen
    rw [seen] at unseen
    contradiction
  · rw [judged]
    exact started.judged.trans count

theorem Started.requestReboot (started : Started m) (selection : StartupMode) : Started (m.requestReboot selection) := by
  unfold Mount.requestReboot
  dsimp only
  split_ifs
  · exact started.booted rfl le_rfl rfl
  · exact started.booted rfl le_rfl rfl

theorem abortRezero_undisturbed (m : Mount) (why : String) (now : ℚ) : Undisturbed m (m.abortRezero why now) :=
  Undisturbed.trans (n := m.setRezeroState .idle now) ⟨rfl, rfl, rfl⟩ (setPositionTrust_verdict _ _ _).undisturbed

theorem judgeStartup_undisturbed (m : Mount) (st : Status) : Undisturbed m (m.judgeStartup st) := by
  have own (m : Mount) : Undisturbed m (m.judgeOwnStartup st) := by
    unfold judgeOwnStartup
    split_ifs <;> first | exact ⟨rfl, rfl, rfl⟩ | exact (setPositionTrust_verdict m _ _).undisturbed
  have human (m : Mount) (said : StartupMode) : Undisturbed m (m.judgeHumanStartup st said) := by
    unfold judgeHumanStartup
    split_ifs <;> exact (setPositionTrust_verdict m _ _).undisturbed
  unfold judgeStartup
  dsimp only
  split
  · exact ⟨rfl, rfl, rfl⟩
  · split <;> split
    · exact Undisturbed.trans (n := { m with
        lastDecTicks := some st.decAxisTicks
        lastAxisSampleTimestamp := st.axisTimestamp
        pendingHumanStartup := none }) ⟨rfl, rfl, rfl⟩ (human _ _)
    · exact Undisturbed.trans (n := { m with pendingHumanStartup := none }) ⟨rfl, rfl, rfl⟩ (human _ _)
    · exact Undisturbed.trans (n := { m with
        lastDecTicks := some st.decAxisTicks
        lastAxisSampleTimestamp := st.axisTimestamp }) ⟨rfl, rfl, rfl⟩ (own _)
    · exact own m

theorem Started.checkStartup (started : Started m) : Started (m.checkStartup m.status) := by
  have menu := (checkBootMenu_verdict m m.status).undisturbed
  unfold Mount.checkStartup
  dsimp only
  split
  · exact started.undisturbed menu
  · have judged := judgeStartup_undisturbed
      { m.checkBootMenu m.status with lastStartupCount := m.status.startupCount } m.status
    constructor
    · rw [show _ = m.status from judged.1.trans menu.1, show _ = m.postStartup from judged.2.1.trans menu.2.1]
      exact started.unseen
    · rw [show _ = m.status from judged.1.trans menu.1, show _ = m.status.startupCount from judged.2.2]

theorem checkPositionEvidence_undisturbed (m : Mount) (st : Status) (now : ℚ) :
    Undisturbed m (m.checkPositionEvidence st now) := by
  unfold checkPositionEvidence
  dsimp only
  have verdict (m : Mount) := (setPositionTrust_verdict m .lost .counterJumped).undisturbed
  split_ifs <;> first | exact ⟨rfl, rfl, rfl⟩ | exact ⟨(verdict _).1, (verdict _).2.1, (verdict _).2.2⟩

theorem Started.runRezero (started : Started m) (st : Status) (now : ℚ) (accepted : Bool) :
    Started (m.runRezero st now accepted) := by
  have waits : Undisturbed m (m.rezeroWaits (now - m.rezeroSince) now) := by
    unfold rezeroWaits
    split
    · exact Undisturbed.trans (n := m.setRezeroState .idle now) ⟨rfl, rfl, rfl⟩
        (setPositionTrust_verdict _ _ _).undisturbed
    · exact ⟨rfl, rfl, rfl⟩
  have asked (m : Mount) (started : Started m) : Started ((m.requestReboot .cold).setRezeroState .rebooting now) :=
    (started.requestReboot .cold).undisturbed ⟨rfl, rfl, rfl⟩
  have judged (trust : Trust) (reason : Reason) : Undisturbed m ((m.setRezeroState .idle now).setPositionTrust trust reason) :=
    Undisturbed.trans (n := m.setRezeroState .idle now) ⟨rfl, rfl, rfl⟩ (setPositionTrust_verdict _ _ _).undisturbed
  unfold Mount.runRezero
  dsimp only
  split
  · exact started
  · split_ifs
    · exact started.undisturbed (judged _ _)
    · exact started
    · exact started.undisturbed ⟨rfl, rfl, rfl⟩
    · exact started.undisturbed (judged _ _)
  · split_ifs <;> first
      | exact started
      | exact started.undisturbed ⟨rfl, rfl, rfl⟩
      | exact started.undisturbed (judged _ _)
  · split_ifs <;> first
      | exact started
      | exact started.undisturbed ⟨rfl, rfl, rfl⟩
      | exact started.undisturbed (judged _ _)
      | exact asked _ (started.undisturbed ⟨rfl, rfl, rfl⟩)
  · split
    · exact started.undisturbed waits
    · split_ifs
      · exact started.undisturbed waits
      · exact started.undisturbed (judged _ _)
      · exact started.undisturbed (judged _ _)

theorem Started.pollStartupState (started : Started m) (done : m.postStartup = .done) (response : Option Char) :
    Started (m.pollStartupState response) := by
  have notUp (response : Char) : (m.notUp response).status.bootObserved = true ∧
      m.status.startupCount = (m.notUp response).status.startupCount ∧
        (m.notUp response).lastStartupCount = m.lastStartupCount := by
    unfold Mount.notUp
    dsimp only
    split <;> exact ⟨rfl, rfl, rfl⟩
  unfold Mount.pollStartupState
  split
  · exact ⟨started.unseen, started.judged⟩
  · obtain ⟨seen, count, judged⟩ := notUp 'b'
    have waiting : Started (m.notUp 'b') := started.booted seen count.le judged
    unfold answerBootMenu
    split
    · exact waiting
    · split_ifs
      · exact waiting.booted seen le_rfl rfl
      · exact waiting
  · dsimp only
    split_ifs with up complete
    · exact ⟨started.unseen, started.judged⟩
    · refine ⟨fun unseen => ?_, started.judged⟩
      rcases started.unseen unseen with none | ⟨-, complete', -⟩
      · exact .inl none
      · exact absurd complete' complete
    · obtain ⟨seen, count, judged⟩ := notUp _
      exact started.booted seen count.le judged

theorem beginRezero_undisturbed (m : Mount) (targetRa targetDec : Int) (now : ℚ) :
    Undisturbed m (m.beginRezero targetRa targetDec now) := by
  unfold beginRezero
  split
  · exact ⟨rfl, rfl, rfl⟩
  · split <;> exact ⟨rfl, rfl, rfl⟩

theorem Started.positionCommand (started : Started m) (said : Position) (now : ℚ) :
    Started (m.positionCommand said now) := by
  have waiting (said : StartupMode) : Started { m with pendingHumanStartup := some said } :=
    started.undisturbed ⟨rfl, rfl, rfl⟩
  have verdict (trust : Trust) (reason : Reason) : Started (m.setPositionTrust trust reason) :=
    started.undisturbed (setPositionTrust_verdict m trust reason).undisturbed
  have answered (m : Mount) (started : Started m) (mode : StartupMode) : Started (m.selectStartup mode) :=
    ⟨started.unseen, started.judged⟩
  unfold Mount.positionCommand
  split
  · split
    · split
      · exact started
      · exact started.undisturbed (abortRezero_undisturbed m _ now)
    · exact started
  · split
    · exact started
    · exact started.undisturbed (beginRezero_undisturbed m _ _ now)
    · split
      · exact verdict .assumed .operatorOk
      · exact started
    · exact verdict .lost .operatorLost
    · split
      · exact answered _ (waiting .restart) .restart
      · exact started
    · dsimp only
      split
      · exact answered _ (waiting _) _
      · split
        · exact started.undisturbed ⟨rfl, rfl, rfl⟩
        · exact (waiting _).requestReboot _

theorem Started.read {m m' : Mount} (started : Started m) (seen : m'.status.bootObserved = m.status.bootObserved)
    (count : m'.status.startupCount = m.status.startupCount)
    (complete : m'.status.startupComplete = m.status.startupComplete)
    (judged : m'.lastStartupCount = m.lastStartupCount)
    (stage : m.postStartup = .done → m'.postStartup = .done) : Started m' := by
  constructor
  · rw [seen, count, complete]
    intro unseen
    rcases started.unseen unseen with none | ⟨one, up, done⟩
    · exact .inl none
    · exact .inr ⟨one, up, stage done⟩
  · rw [count, judged]
    exact started.judged

theorem Started.startedUp (started : Started m) (rest : m.postStartup = .rest) : Started m.startedUp := by
  constructor
  · intro unseen
    rcases started.unseen unseen with none | ⟨-, -, done⟩
    · exact .inr ⟨congrArg (· + 1) none, rfl, rfl⟩
    · rw [done] at rest
      contradiction
  · exact started.judged.trans (Nat.le_succ _)

theorem Started.step (started : Started m) (e : Event) : Started (m.step e) := by
  cases e with
  | handshake response =>
    simp only [Mount.step]
    split
    · rename_i done
      exact started.pollStartupState done response
    · exact started
  | readGeometry g =>
    simp only [Mount.step]
    split_ifs with stage
    · have running : m.postStartup ≠ .done := by simp [stage]
      cases g <;> exact started.read rfl rfl rfl rfl (fun done => absurd done running)
    · cases g <;> exact started.read rfl rfl rfl rfl id
    · exact started
  | readAxis ticks =>
    simp only [Mount.step]
    split_ifs with stage
    · have running : m.postStartup ≠ .done := by simp [stage]
      cases ticks <;> exact started.read rfl rfl rfl rfl (fun done => absurd done running)
    · cases ticks <;> exact started.read rfl rfl rfl rfl id
    · exact started
  | startedUp =>
    simp only [Mount.step]
    split
    · rename_i rest
      exact started.startedUp rest
    · exact started
  | polled connected slewing => exact ⟨started.unseen, started.judged⟩
  | motion moveInProgress parking => exact ⟨started.unseen, started.judged⟩
  | info => exact started.checkStartup
  | idle now accepted =>
    exact (started.checkStartup.undisturbed (checkPositionEvidence_undisturbed _ m.status now)).runRezero m.status now accepted
  | position said now => exact started.positionCommand said now
  | setStartupMode mode => exact ⟨started.unseen, started.judged⟩
  | reset => exact started.requestReboot .none
  | automaticRezero targetRa targetDec now =>
    simp only [Mount.step]
    split
    · exact started
    · exact started.undisturbed (beginRezero_undisturbed m _ _ now)
  | stop now =>
    simp only [Mount.step, stopMove]
    split
    · exact started.undisturbed (abortRezero_undisturbed m _ now)
    · exact started
  | astrometry agrees text =>
    simp only [Mount.step, evaluateSkyEvidence]
    split_ifs <;> first | exact started | exact started.undisturbed (setPositionTrust_verdict m _ _).undisturbed
  | incident text => exact started.undisturbed (setPositionTrust_verdict m _ _).undisturbed

/-- No counter reset is overlooked in a run just when each of them could be told. -/
theorem resets_caught_iff (savedTrust : Trust) (savedReason : String) (savedDecTicks : Option Int) (es : List Event) :
    Guarded step Caught (fresh savedTrust savedReason savedDecTicks) es ↔
      Guarded step (fun m e => m.Reset e → m.Told) (fresh savedTrust savedReason savedDecTicks) es := by
  have initial : Started (fresh savedTrust savedReason savedDecTicks) := ⟨fun _ => .inl rfl, le_rfl⟩
  exact guarded_congr_invariant (fun _ e started _ _ => started.step e) (fun _ e started _ => caught_iff started e) initial
    (guarded_true step _ es)

def coldStartBehind : List Event :=
  [.handshake (some 'G'), .readGeometry (some ⟨1000, 1000, 1900, 100⟩), .readAxis (some (500, 700)), .startedUp,
    .idle 1 true, .handshake (some 'B'), .handshake (some 'G'), .readGeometry (some ⟨1000, 1000, 1900, 100⟩),
    .readAxis (some (1000, 1000)), .startedUp, .idle 2 true]

/-- The new reading is compared with itself. -/
theorem reset_overlooked : ¬Guarded step Caught (fresh .unknown "" none) coldStartBehind := by
  intro caught
  have last : Caught (run step (fresh .unknown "" none) (coldStartBehind.take 10)) (.idle 2 true) :=
    ((guarded_append step Caught _ (coldStartBehind.take 10) [.idle 2 true]).mp caught).2.1
  have assumed : (run step (fresh .unknown "" none) coldStartBehind).positionTrust = .assumed := by decide
  have unexplained : (run step (fresh .unknown "" none) (coldStartBehind.take 10)).AtCwdUnexplained := by
    unfold AtCwdUnexplained
    decide
  have byStart : (run step (fresh .unknown "" none) (coldStartBehind.take 10)).ResetByStart := by
    unfold ResetByStart
    decide
  have lost : (run step (fresh .unknown "" none) coldStartBehind).positionTrust = .lost := last ⟨unexplained, .inl byStart⟩
  rw [assumed] at lost
  contradiction

end Rts2.Gemini.Mount
