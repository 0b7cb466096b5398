import Rts2.Db.Satisfied
import Rts2.Kernel.Status
import Rts2.Lib.Fuel
import Rts2.Roof.StateBits

/-! The phases of a day, from the times at which the Sun rises and sets at two horizons, and what centrald does as they
go by. Times are seconds, or Julian dates. -/
namespace Rts2.Central.DayCycle

open Lib Kernel Db Roof.Status

inductive Horizon where
  | night | day
  deriving DecidableEq

inductive Turn where
  | rise | transit | set

/-- A struct ln_rst_time. -/
abbrev RST := Turn → ℚ

def RST.Whole (rst : RST) : Prop := rst .rise ≠ 0 ∧ rst .transit ≠ 0 ∧ rst .set ≠ 0

instance (rst : RST) : Decidable rst.Whole := inferInstanceAs (Decidable (_ ∧ _ ∧ _))

/-- What ln_get_solar_rst_horizon returns at a date, and the times it writes. -/
abbrev Solar := ℚ → Horizon → Int × RST

/-- One of the times of next_naut at the next day. A zero is no time; where a day is missing, the time between is taken. -/
def look (jd found last now : ℚ) : ℚ :=
  let found := if found = 0 ∧ jd < now then now else found
  if last ≠ 0 ∧ 3 / 2 < now - last ∧ jd < (now + last) / 2 then (now + last) / 2 else found

/-- The locals of next_naut: rst_naut and rst are found, last_naut and last_rst are last. -/
structure Search where
  t_jd : ℚ
  found : Horizon → RST
  last : Horizon → RST
  sun_naut : Int
  sun_rs : Bool

namespace Search

/-- The times of the horizon of the day only count where the call returns zero. -/
def next (solar : Solar) (jd : ℚ) (s : Search) : Search :=
  let sun := solar s.t_jd
  { t_jd := s.t_jd + 1
    found := fun h turn =>
      if h = .night ∨ (sun h).1 = 0 then look jd (s.found h turn) (s.last h turn) ((sun h).2 turn) else s.found h turn
    last := fun h => if h = .night ∨ (sun h).1 = 0 then (sun h).2 else s.last h
    sun_naut := (sun .night).1
    sun_rs := s.sun_rs || (sun .day).1 = 0 }

def Goes (s : Search) : Prop :=
  s.sun_naut ≠ 0 ∨ ¬(s.found .night).Whole ∨ ¬(s.found .day).Whole ∧ s.sun_rs = true

instance (s : Search) : Decidable s.Goes := inferInstanceAs (Decidable (_ ∨ _ ∨ _))

def loop (solar : Solar) (jd : ℚ) : Nat → Search → Option Search
  | 0, _ => none
  | fuel + 1, s => if (s.next solar jd).Goes then loop solar jd fuel (s.next solar jd) else some (s.next solar jd)

end Search

def next_naut (solar : Solar) (jd : ℚ) (fuel : Nat) : Option Search :=
  Search.loop solar jd fuel ⟨jd - 2, fun _ _ => 0, fun _ _ => 0, 0, false⟩

def serverdDay : Status := 0x000

structure Announced where
  curr_type : Status
  type : Status
  event : ℚ
  deriving DecidableEq

def Announced.ev_time (a : Announced) : Int := timet_from_julian a.event

def announce (jd : ℚ) (rst rst_naut : RST) (sun_rs : Bool) (in_eve_time in_mor_time : Int) : Announced :=
  let eve_time : ℚ := in_eve_time / 86400
  let mor_time : ℚ := in_mor_time / 86400
  if rst_naut .rise ≤ rst_naut .set then ⟨serverdNight, serverdDawn, rst_naut .rise⟩
  else if sun_rs then
    if rst .set < rst .rise then
      if rst .set - eve_time < jd then ⟨serverdEvening, serverdDusk, rst .set⟩
      else if jd < rst .rise + mor_time - 1 then ⟨serverdMorning, serverdDay, rst .rise + mor_time - 1⟩
      else ⟨serverdDay, serverdEvening, rst .set - eve_time⟩
    else if rst_naut .rise < rst .rise then ⟨serverdDusk, serverdNight, rst_naut .set⟩
    else ⟨serverdDawn, serverdMorning, rst .rise⟩
  else if jd < rst_naut .transit then ⟨serverdDawn, serverdDusk, rst_naut .transit⟩
  else ⟨serverdDusk, serverdNight, rst_naut .set⟩

def next_event (solar : Solar) (in_eve_time in_mor_time : Int) (start_time : Int) (fuel : Nat) : Option Announced :=
  (next_naut solar (julian_from_timet start_time) fuel).map fun s =>
    announce (julian_from_timet start_time) (s.found .day) (s.found .night) s.sun_rs in_eve_time in_mor_time

/-- The state of centrald, as its idle routine sees it. -/
structure Centrald where
  state : Status
  next_event_time : Int
  next_event_type : Status
  nextStateChange : Int
  nextState : Status
  switchedStandby : List ℚ
  morning_off : Bool
  morning_standby : Bool

namespace Centrald

def phase (c : Centrald) : Status := c.state &&& serverdStatusMask

def onoff (c : Centrald) : Status := c.state &&& serverdOnoffMask

/-- The switch-off rule, as the day begins. -/
def ruled (c : Centrald) (call_state : Status) : Status :=
  if c.phase = serverdMorning ∧ call_state &&& serverdStatusMask = serverdDay then
    if c.morning_off then maskState c.state serverdOnoffMask serverdHardOff
    else if c.morning_standby ∧ ¬(c.onoff = serverdHardOff ∨ c.onoff = serverdSoftOff) then
      maskState c.state serverdOnoffMask serverdStandby
    else c.state
  else c.state

def idle (solar : Solar) (in_eve_time in_mor_time : Int) (curr_time : Int) (c : Centrald) (fuel : Nat) :
    Option Centrald :=
  if curr_time < c.next_event_time then some c
  else (next_event solar in_eve_time in_mor_time curr_time fuel).map fun a =>
    if c.state = a.curr_type then { c with next_event_type := a.type, next_event_time := a.ev_time }
    else { c with
      next_event_type := a.type
      next_event_time := a.ev_time
      nextStateChange := a.ev_time
      nextState := a.type
      switchedStandby := if a.type = serverdDusk then [] else c.switchedStandby
      state := maskState (c.ruled a.curr_type) serverdStatusMask a.curr_type }

/-- The idle routine at so many seconds after the first. -/
def polls (solar : Solar) (in_eve_time in_mor_time : Int) (start : Int) (c : Centrald) (fuel : Nat) :
    Nat → Option Centrald
  | 0 => idle solar in_eve_time in_mor_time start c fuel
  | n + 1 => (polls solar in_eve_time in_mor_time start c fuel n).bind fun c =>
    idle solar in_eve_time in_mor_time (start + (n + 1)) c fuel

end Centrald

/-- The times at which the Sun is at the horizons, and which of them the library gives for a date. -/
structure Schedule where
  time : Horizon → Turn → ℤ → ℚ
  index : Horizon → Turn → ℚ → ℤ
  index_next : ∀ h turn x, index h turn (x + 1) = index h turn x + 1
  near : ∀ h turn x, time h turn (index h turn x) ≤ x + 2
  drift : ∀ h turn d, time h turn d + 9 / 10 ≤ time h turn (d + 1) ∧ time h turn (d + 1) ≤ time h turn d + 11 / 10
  dawn : ∀ d, time .night .rise d < time .day .rise d
  light : ∀ d, time .day .rise d < time .day .set d
  dusk : ∀ d, time .day .set d < time .night .set d
  dark : ∀ d, time .night .set d < time .night .rise (d + 1)

variable {S : Schedule} {jd : ℚ}

def Schedule.solar (S : Schedule) : Solar := fun x h => (0, fun turn => S.time h turn (S.index h turn x))

/-- The first of the times after the date. -/
def Next (E : ℤ → ℚ) (jd x : ℚ) : Prop := ∃ d, x = E d ∧ E (d - 1) ≤ jd ∧ jd < E d

/-- What next_naut has after the times up to the given one. -/
def Looked (E : ℤ → ℚ) (jd found last : ℚ) (i : ℤ) : Prop :=
  (last = 0 ∨ last = E i) ∧ (found = 0 ∧ E i ≤ jd ∨ found ≠ 0 ∧ Next E jd found)

theorem Looked.look {E : ℤ → ℚ} {found last : ℚ} {i : ℤ} (looked : Looked E jd found last i) (start : 0 ≤ jd)
    (drift : E (i + 1) ≤ E i + 11 / 10) : Looked E jd (look jd found last (E (i + 1))) (E (i + 1)) (i + 1) := by
  have whole : ¬(last ≠ 0 ∧ 3 / 2 < E (i + 1) - last ∧ jd < (E (i + 1) + last) / 2) := by
    rintro ⟨some_, far, -⟩
    rcases looked.1 with zero | rfl
    · exact some_ zero
    · linarith
  refine ⟨.inr rfl, ?_⟩
  unfold DayCycle.look
  dsimp only
  rw [if_neg whole]
  rcases looked.2 with ⟨rfl, before⟩ | ⟨some_, next⟩
  · by_cases later : jd < E (i + 1)
    · rw [if_pos ⟨rfl, later⟩]
      exact .inr ⟨(start.trans_lt later).ne', i + 1, rfl, by rwa [add_sub_cancel_right], later⟩
    · rw [if_neg fun both => later both.2]
      exact .inl ⟨rfl, not_lt.mp later⟩
  · rw [if_neg fun both => some_ both.1]
    exact .inr ⟨some_, next⟩

/-- The times before the next date have been looked at. -/
def Search.Runs (S : Schedule) (jd : ℚ) (s : Search) : Prop :=
  ∀ h turn, Looked (S.time h turn) jd (s.found h turn) (s.last h turn) (S.index h turn s.t_jd - 1)

theorem Search.Runs.next {s : Search} (runs : s.Runs S jd) (start : 0 ≤ jd) : (s.next S.solar jd).Runs S jd := by
  intro h turn
  have looked := (runs h turn).look start (by linarith [(S.drift h turn (S.index h turn s.t_jd - 1)).2])
  rw [sub_add_cancel] at looked
  simp only [Search.next, S.index_next, add_sub_cancel_right, Schedule.solar, or_true, if_true]
  exact looked

theorem Search.goes_iff (s : Search) : (s.next S.solar jd).Goes ↔ ∃ h turn, (s.next S.solar jd).found h turn = 0 := by
  have always : (s.next S.solar jd).sun_rs = true := by simp [Search.next, Schedule.solar]
  have naut : (s.next S.solar jd).sun_naut = 0 := rfl
  simp only [Goes, naut, always, RST.Whole, and_true, ne_eq, not_true, false_or]
  constructor
  · intro lacks
    by_contra whole
    push Not at whole
    exact lacks.elim (fun lacks => lacks ⟨whole _ _, whole _ _, whole _ _⟩) fun lacks =>
      lacks ⟨whole _ _, whole _ _, whole _ _⟩
  · rintro ⟨h, turn, zero⟩
    cases h <;> cases turn <;> simp [zero]

/-- The search ends once all times are later than the date, and has found the next of each. -/
theorem Search.loop_gives {s : Search} (runs : s.Runs S jd) (start : 0 ≤ jd) (n : ℕ)
    (far : ∀ h turn, jd < S.time h turn (S.index h turn s.t_jd + n)) :
    ∃ s', Gives (fun fuel => loop S.solar jd fuel s) s' ∧ s'.sun_rs = true ∧
      ∀ h turn, Next (S.time h turn) jd (s'.found h turn) := by
  induction n generalizing s with
  | zero =>
    have later := runs.next start
    have found : ∀ h turn, ((s.next S.solar jd).found h turn) ≠ 0 ∧
        Next (S.time h turn) jd ((s.next S.solar jd).found h turn) := by
      intro h turn
      refine (later h turn).2.resolve_left fun before => ?_
      have above := far h turn
      have below := before.2
      simp only [Search.next, S.index_next, add_sub_cancel_right] at below
      simp only [Nat.cast_zero, add_zero] at above
      linarith
    have stops : ¬(s.next S.solar jd).Goes := fun goes =>
      let ⟨h, turn, zero⟩ := s.goes_iff.mp goes
      (found h turn).1 zero
    exact ⟨_, Gives.next (fun _ => if_neg stops) (Gives.now _), by simp [Search.next, Schedule.solar],
      fun h turn => (found h turn).2⟩
  | succ n ih =>
    have later := runs.next start
    by_cases goes : (s.next S.solar jd).Goes
    · obtain ⟨s', gives, ends⟩ := ih later fun h turn => by
        have above := far h turn
        simp only [Search.next, S.index_next]
        rwa [Nat.cast_succ, add_comm (n : ℤ) 1, ← add_assoc] at above
      exact ⟨s', Gives.next (fun _ => if_pos goes) gives, ends⟩
    · refine ⟨_, Gives.next (fun _ => if_neg goes) (Gives.now _), by simp [Search.next, Schedule.solar], fun h turn => ?_⟩
      exact ((later h turn).2.resolve_left fun before => goes (s.goes_iff.mpr ⟨h, turn, before.1⟩)).2

theorem Schedule.mono (S : Schedule) (h : Horizon) (turn : Turn) : StrictMono (S.time h turn) :=
  strictMono_int_of_lt_succ fun d => by linarith [(S.drift h turn d).1]

theorem Schedule.grows (S : Schedule) (h : Horizon) (turn : Turn) (d : ℤ) (n : ℕ) :
    S.time h turn d + 9 / 10 * n ≤ S.time h turn (d + n) := by
  induction n with
  | zero => simp
  | succ n ih =>
    have more := (S.drift h turn (d + n)).1
    push_cast
    rw [← add_assoc]
    linarith

theorem next_naut_gives (S : Schedule) (start : 0 ≤ jd) : ∃ s, Gives (next_naut S.solar jd) s ∧ s.sun_rs = true ∧
    ∀ h turn, Next (S.time h turn) jd (s.found h turn) := by
  have enough (h : Horizon) (turn : Turn) : ∃ n : ℕ, ∀ m, n ≤ m → jd < S.time h turn (S.index h turn (jd - 2) + m) := by
    obtain ⟨n, more⟩ := exists_nat_gt ((jd - S.time h turn (S.index h turn (jd - 2))) / (9 / 10))
    refine ⟨n, fun m least => ?_⟩
    have grown := S.grows h turn (S.index h turn (jd - 2)) m
    rw [div_lt_iff₀ (by norm_num)] at more
    have least : (n : ℚ) ≤ m := by exact_mod_cast least
    linarith
  choose n far using enough
  refine Search.loop_gives (fun h turn => ⟨.inl rfl, .inl ⟨rfl, ?_⟩⟩) start
    (n .night .rise + n .night .transit + n .night .set + n .day .rise + n .day .transit + n .day .set) fun h turn => ?_
  · have near := S.near h turn (jd - 2)
    rw [sub_add_cancel] at near
    exact ((S.mono h turn).monotone (sub_le_self _ zero_le_one)).trans near
  · exact far h turn _ (by cases h <;> cases turn <;> omega)

/-- The search ends, and finds the first rise, transit and set after the date at each of the horizons. -/
theorem next_naut_first (S : Schedule) (jd : ℚ) (start : 0 ≤ jd) : ∃ s, Gives (next_naut S.solar jd) s ∧ ∀ h turn,
    jd < s.found h turn ∧ (∃ d, s.found h turn = S.time h turn d) ∧
      ∀ d, jd < S.time h turn d → s.found h turn ≤ S.time h turn d := by
  obtain ⟨s, gives, -, next⟩ := next_naut_gives S start
  refine ⟨s, gives, fun h turn => ?_⟩
  obtain ⟨k, found, before, later⟩ := next h turn
  rw [found]
  refine ⟨later, ⟨k, rfl⟩, fun d after_ => (S.mono h turn).monotone ?_⟩
  have above := (S.mono h turn).lt_iff_lt.mp (before.trans_lt after_)
  omega

namespace Schedule

variable (S) (eve mor : Int)

def dawnStart (d : ℤ) : ℚ := S.time .night .rise d
def sunrise (d : ℤ) : ℚ := S.time .day .rise d
def sunset (d : ℤ) : ℚ := S.time .day .set d
def nightfall (d : ℤ) : ℚ := S.time .night .set d

/-- The sunrise is that of the next day. -/
def morningEnd (d : ℤ) : ℚ := S.sunrise (d + 1) + (mor : ℚ) / 86400 - 1

def eveningStart (d : ℤ) : ℚ := S.sunset d - (eve : ℚ) / 86400

/-- What is announced from the dawn of a day to that of the next. -/
def announced (d : ℤ) (jd : ℚ) : Announced :=
  if jd < S.sunrise d then ⟨serverdDawn, serverdMorning, S.sunrise d⟩
  else if jd < S.sunset d then
    if S.eveningStart eve d < jd then ⟨serverdEvening, serverdDusk, S.sunset d⟩
    else if jd < S.morningEnd mor d then ⟨serverdMorning, serverdDay, S.morningEnd mor d⟩
    else ⟨serverdDay, serverdEvening, S.eveningStart eve d⟩
  else if jd < S.nightfall d then ⟨serverdDusk, serverdNight, S.nightfall d⟩
  else ⟨serverdNight, serverdDawn, S.dawnStart (d + 1)⟩

def Within (d : ℤ) (jd : ℚ) : Prop := S.dawnStart d ≤ jd ∧ jd < S.dawnStart (d + 1)

variable {S eve mor}

theorem next_eq {h : Horizon} {turn : Turn} {x : ℚ} (next : Next (S.time h turn) jd x) (d : ℤ)
    (before : S.time h turn (d - 1) ≤ jd) (later : jd < S.time h turn d) : x = S.time h turn d := by
  obtain ⟨k, rfl, lower, upper⟩ := next
  have above := (S.mono h turn).lt_iff_lt.mp (before.trans_lt upper)
  have below := (S.mono h turn).lt_iff_lt.mp (lower.trans_lt later)
  rw [show k = d by omega]

theorem announce_eq {found : Horizon → RST} {d : ℤ} (next : ∀ h turn, Next (S.time h turn) jd (found h turn))
    (within : S.Within d jd) :
    announce jd (found .day) (found .night) true eve mor = S.announced eve mor d jd := by
  obtain ⟨begun, goes⟩ := within
  have before := S.dark (d - 1)
  rw [sub_add_cancel] at before
  have night := S.dusk (d - 1)
  have evening := S.light (d - 1)
  have dawn := S.dawn d
  have light := S.light d
  have dusk := S.dusk d
  have dark := S.dark d
  have dawn' := S.dawn (d + 1)
  have light' := S.light (d + 1)
  have dusk' := S.dusk (d + 1)
  have rises := next_eq (next .night .rise) (d + 1) (by rwa [add_sub_cancel_right]) goes
  have at_ (h : Horizon) (turn : Turn) (past : S.time h turn (d - 1) ≤ jd) (coming : jd < S.time h turn (d + 1)) :
      found h turn = if jd < S.time h turn d then S.time h turn d else S.time h turn (d + 1) := by
    split
    · exact next_eq (next h turn) d past ‹_›
    · exact next_eq (next h turn) (d + 1) (by rw [add_sub_cancel_right]; linarith) coming
  simp only [dawnStart] at begun goes
  have sets := at_ .night .set (by linarith) (by linarith)
  have dayRise := at_ .day .rise (by linarith) (by linarith)
  have daySet := at_ .day .set (by linarith) (by linarith)
  unfold announce announced morningEnd eveningStart sunrise sunset nightfall dawnStart
  dsimp only
  rw [rises, sets, dayRise, daySet, if_pos rfl]
  rcases lt_or_ge jd (S.time .day .rise d) with a | a
  · have b := a.trans light
    rw [if_pos a, if_pos b, if_pos (b.trans dusk), if_neg dark.not_ge, if_neg light.not_gt, if_pos a,
      if_neg (by linarith)]
  rw [if_neg a.not_gt, if_neg a.not_gt]
  rcases lt_or_ge jd (S.time .day .set d) with b | b
  · rw [if_pos b, if_pos (b.trans dusk), if_neg dark.not_ge, if_pos (by linarith), if_pos b]
  rw [if_neg b.not_gt, if_neg b.not_gt]
  rcases lt_or_ge jd (S.time .night .set d) with c | c
  · rw [if_pos c, if_neg dark.not_ge, if_neg light'.not_gt, if_pos dawn', if_pos c]
  · rw [if_neg c.not_gt, if_pos (by linarith), if_neg c.not_gt]

theorem next_event_gives (eve mor : Int) {d : ℤ} {t : Int} (start : 0 ≤ julian_from_timet t)
    (within : S.Within d (julian_from_timet t)) :
    Gives (next_event S.solar eve mor t) (S.announced eve mor d (julian_from_timet t)) := by
  obtain ⟨s, ⟨n, gives⟩, rises, next⟩ := next_naut_gives S start
  refine ⟨n, fun fuel least => ?_⟩
  rw [next_event, gives fuel least, Option.map_some, rises, announce_eq next within]

theorem within_unique {d k : ℤ} (first : S.Within d jd) (second : S.Within k jd) : d = k := by
  have above := (S.mono .night .rise).lt_iff_lt.mp (first.1.trans_lt second.2)
  have below := (S.mono .night .rise).lt_iff_lt.mp (second.1.trans_lt first.2)
  omega

theorem within_some (S : Schedule) (start : 0 ≤ jd) : ∃ d, S.Within d jd := by
  obtain ⟨_, -, -, next⟩ := next_naut_gives S start
  obtain ⟨d, -, begun, goes⟩ := next .night .rise
  exact ⟨d - 1, begun, by rwa [dawnStart, sub_add_cancel]⟩

/-- The first second after a date. -/
def after (x : ℚ) : ℚ := julian_from_timet (timet_from_julian x + 1)

theorem lt_after (x : ℚ) : x < after x := by
  have below := Int.lt_floor_add_one ((x - 2440587.5) * 86400 + 1 / 2)
  unfold after julian_from_timet timet_from_julian
  push_cast
  linarith

theorem timet_mono : Monotone timet_from_julian := fun x y less => Int.floor_mono (by linarith)

/-- Each phase of the day goes on into the second after its start. -/
structure Lasting (S : Schedule) (eve mor : Int) (d : ℤ) : Prop where
  dawn : after (S.dawnStart d) < S.sunrise d
  morning : after (S.sunrise d) < S.morningEnd mor d
  day : after (S.morningEnd mor d) ≤ S.eveningStart eve d
  evening : after (S.eveningStart eve d) < S.sunset d
  dusk : after (S.sunset d) < S.nightfall d
  night : after (S.nightfall d) < S.dawnStart (d + 1)

theorem announced_later (eve mor : Int) {d : ℤ} (within : S.Within d jd) : jd ≤ (S.announced eve mor d jd).event := by
  have goes := within.2
  unfold announced
  split_ifs <;> dsimp only <;> linarith

/-- The announced phase is the next one, up to the second after its start. -/
theorem follows (lasting : ∀ d, S.Lasting eve mor d) {d : ℤ} (within : S.Within d jd) {x : ℚ} (from_ : jd ≤ x)
    (until_ : x ≤ after (S.announced eve mor d jd).event) :
    ∃ k, S.Within k x ∧ (S.announced eve mor k x = S.announced eve mor d jd ∧ x ≤ (S.announced eve mor d jd).event ∨
      (S.announced eve mor k x).curr_type = (S.announced eve mor d jd).type ∧
        (S.announced eve mor d jd).event ≤ x) := by
  obtain ⟨begun, goes⟩ := within
  obtain ⟨dawn, morning, day, evening, dusk, night⟩ := lasting d
  have dawn' := (lasting (d + 1)).dawn
  have light' : S.sunrise (d + 1) < S.sunset (d + 1) := S.light (d + 1)
  have dusk' : S.sunset (d + 1) < S.nightfall (d + 1) := S.dusk (d + 1)
  have dark' : S.nightfall (d + 1) < S.dawnStart (d + 1 + 1) := S.dark (d + 1)
  have a := lt_after (S.sunrise d)
  have b := lt_after (S.morningEnd mor d)
  have c := lt_after (S.eveningStart eve d)
  have e := lt_after (S.sunset d)
  have f := lt_after (S.nightfall d)
  have g := lt_after (S.dawnStart (d + 1))
  unfold announced at until_ ⊢
  by_cases last : ¬jd < S.nightfall d ∧ S.dawnStart (d + 1) ≤ x
  · -- only the night goes over into another day
    obtain ⟨night_, past⟩ := last
    rw [if_neg (by linarith), if_neg (by linarith), if_neg night_] at until_ ⊢
    refine ⟨d + 1, ⟨past, by linarith⟩, .inr ⟨?_, past⟩⟩
    rw [if_pos (until_.trans_lt dawn')]
  · rw [not_and, not_le] at last
    refine ⟨d, ?_, ?_⟩
    · split_ifs at until_ with h1 h2 h3 h4 h5 <;> dsimp only at until_ <;> refine ⟨by linarith, ?_⟩ <;>
        first | linarith | exact last h5
    · split_ifs at until_ ⊢ <;> dsimp only at until_ ⊢ <;>
        first | exact .inl ⟨rfl, by linarith⟩ | exact .inr ⟨rfl, by linarith⟩ | exact .inl ⟨rfl, (last ‹_›).le⟩ |
          linarith

def At (S : Schedule) (d : ℤ) (t : Int) : Prop := S.Within d (julian_from_timet t)

def told (S : Schedule) (eve mor : Int) (d : ℤ) (t : Int) : Announced := S.announced eve mor d (julian_from_timet t)

/-- The next second is before the announced time, or of the announced phase. -/
theorem next_second (lasting : ∀ d, S.Lasting eve mor d) {d : ℤ} {t : Int} (within : S.At d t) :
    t ≤ (S.told eve mor d t).ev_time ∧ ∃ k, S.At k (t + 1) ∧
      (S.told eve mor k (t + 1) = S.told eve mor d t ∧ t + 1 ≤ (S.told eve mor d t).ev_time ∨
        (S.told eve mor k (t + 1)).curr_type = (S.told eve mor d t).type ∧ (S.told eve mor d t).ev_time ≤ t + 1) := by
  have later := timet_mono (announced_later eve mor within)
  rw [timet_of_julian] at later
  have soon := julian_strictMono.monotone (add_le_add_left later 1)
  obtain ⟨k, inside, same | next⟩ := follows lasting within (julian_strictMono (lt_add_one t)).le soon
  · have until_ := timet_mono same.2
    rw [timet_of_julian] at until_
    exact ⟨later, k, inside, .inl ⟨same.1, until_⟩⟩
  · have from_ := timet_mono next.2
    rw [timet_of_julian] at from_
    exact ⟨later, k, inside, .inr ⟨next.1, from_⟩⟩

end Schedule

/-- The last phase is the morning. -/
def following (phase : Status) : Status := if phase = serverdMorning then serverdDay else phase + 1

theorem Schedule.told_type (S : Schedule) (eve mor : Int) (d : ℤ) (t : Int) :
    (S.told eve mor d t).type = following (S.told eve mor d t).curr_type ∧
      (S.told eve mor d t).curr_type &&& serverdStatusMask = (S.told eve mor d t).curr_type ∧
      (S.told eve mor d t).curr_type &&& serverdOnoffMask = 0 := by
  unfold told announced
  split_ifs <;> dsimp only <;> decide

namespace Centrald

variable {eve mor : Int} {c c' : Centrald} {t : Int}

/-- The phase is the one that next_event gives, and its end is awaited. -/
def Agrees (S : Schedule) (eve mor : Int) (c : Centrald) (t : Int) : Prop :=
  ∃ d, S.At d t ∧ c.phase = (S.told eve mor d t).curr_type ∧ c.next_event_time = (S.told eve mor d t).ev_time

/-- No phase is skipped, and as the day begins the rule is applied. -/
structure Follows (c c' : Centrald) : Prop where
  phase : c'.phase = c.phase ∨ c'.phase = following c.phase
  switched : c.phase = serverdMorning → c'.phase = serverdDay → c'.onoff =
    if c.morning_off then serverdHardOff
    else if c.morning_standby ∧ ¬(c.onoff = serverdHardOff ∨ c.onoff = serverdSoftOff) then serverdStandby
    else c.onoff

theorem idle_evaluates (eve mor : Int) {d : ℤ} (start : 0 ≤ julian_from_timet t) (within : S.At d t)
    (due : ¬t < c.next_event_time) :
    ∃ c', Gives (c.idle S.solar eve mor t) c' ∧ c'.phase = (S.told eve mor d t).curr_type ∧
      c'.next_event_time = (S.told eve mor d t).ev_time ∧
        (c'.phase = c.phase ∨ c'.phase = following c.phase → Follows c c') := by
  obtain ⟨n, gives⟩ := Schedule.next_event_gives eve mor start within
  obtain ⟨-, own, off⟩ := S.told_type eve mor d t
  refine ⟨_, ⟨n, fun fuel least => by rw [idle, if_neg due, gives fuel least, Option.map_some]⟩, ?_⟩
  rw [← show S.told eve mor d t = S.announced eve mor d (julian_from_timet t) from rfl]
  generalize S.told eve mor d t = a at *
  by_cases same : c.state = a.curr_type
  · have phase : c.phase = a.curr_type := by rw [Centrald.phase, same, own]
    rw [if_pos same]
    exact ⟨phase, rfl, fun next => ⟨next, fun morning day => absurd (morning.symm.trans day) (by decide)⟩⟩
  · have phase : maskState (c.ruled a.curr_type) serverdStatusMask a.curr_type &&& serverdStatusMask = a.curr_type := by
      rw [maskState_in (by decide), own]
    rw [if_neg same]
    refine ⟨phase, rfl, fun next => ⟨next, fun morning day => ?_⟩⟩
    have day : a.curr_type = serverdDay := phase.symm.trans day
    refine (maskState_out (by decide) off : _ &&& serverdOnoffMask = _).trans ?_
    rw [ruled, if_pos ⟨morning, own.trans day⟩]
    split_ifs
    · exact maskState_in (by decide)
    · exact maskState_in (by decide)
    · rfl

theorem idle_agrees (lasting : ∀ d, S.Lasting eve mor d) (start : 0 ≤ julian_from_timet t) (agrees : c.Agrees S eve mor t) :
    ∃ c', Gives (c.idle S.solar eve mor (t + 1)) c' ∧ c'.Agrees S eve mor (t + 1) ∧ Follows c c' := by
  obtain ⟨d, within, phase, ends⟩ := agrees
  obtain ⟨later, k, inside, next⟩ := Schedule.next_second lasting within
  have after_ := start.trans (julian_strictMono (lt_add_one t)).le
  by_cases waits : t + 1 < c.next_event_time
  · refine ⟨c, ⟨0, fun fuel _ => if_pos waits⟩, ?_, .inl rfl, fun morning day =>
      absurd (morning.symm.trans day) (by decide)⟩
    rcases next with ⟨same, -⟩ | ⟨-, over_⟩
    · exact ⟨k, inside, by rw [phase, same], by rw [ends, same]⟩
    · rw [ends] at waits
      omega
  · obtain ⟨c', gives, now, event, followed⟩ := idle_evaluates eve mor after_ inside waits
    refine ⟨c', gives, ⟨k, inside, now, event⟩, followed ?_⟩
    rw [now, phase]
    rcases next with ⟨same, -⟩ | ⟨comes, -⟩
    · exact .inl (congrArg _ same)
    · exact .inr (comes.trans (S.told_type eve mor d t).1)

end Centrald

/-- The run of the idle routine, one second after another. -/
theorem polls_run {eve mor : Int} (lasting : ∀ d, S.Lasting eve mor d) {t : Int} {c : Centrald}
    (start : 0 ≤ julian_from_timet t) (due : c.next_event_time ≤ t) : ∃ r : ℕ → Centrald, ∀ n,
      Gives (fun fuel => c.polls S.solar eve mor t fuel n) (r n) ∧ (r n).Agrees S eve mor (t + n) ∧
        Centrald.Follows (r n) (r (n + 1)) := by
  have steps (n : ℕ) (c' : Centrald) (agrees : c'.Agrees S eve mor (t + n)) : ∃ c'',
      Gives (c'.idle S.solar eve mor (t + (n + 1))) c'' ∧ c''.Agrees S eve mor (t + (n + 1 : ℕ)) ∧
        Centrald.Follows c' c'' := by
    have later : 0 ≤ julian_from_timet (t + n) := start.trans (julian_strictMono.monotone (by omega))
    simpa only [add_assoc, Nat.cast_succ] using Centrald.idle_agrees lasting later agrees
  have polled (n : ℕ) : ∃ c', Gives (fun fuel => c.polls S.solar eve mor t fuel n) c' ∧ c'.Agrees S eve mor (t + n) := by
    induction n with
    | zero =>
      obtain ⟨d, within⟩ := Schedule.within_some S start
      obtain ⟨c', gives, now, event, -⟩ := Centrald.idle_evaluates eve mor start within due.not_gt
      exact ⟨c', gives, d, by simpa using ⟨within, now, event⟩⟩
    | succ n ih =>
      obtain ⟨c', gives, agrees⟩ := ih
      obtain ⟨c'', gives', agrees', -⟩ := steps n c' agrees
      exact ⟨c'', gives.bind gives', agrees'⟩
  choose r gives agrees using polled
  refine ⟨r, fun n => ⟨gives n, agrees n, ?_⟩⟩
  obtain ⟨c', gives', -, followed⟩ := steps n (r n) (agrees n)
  rwa [(gives (n + 1)).unique ((gives n).bind gives')]

def evenTime : Horizon → Turn → ℚ
  | .night, .rise => 1 / 5
  | .day, .rise => 1 / 4
  | _, .transit => 1 / 2
  | .day, .set => 3 / 4
  | .night, .set => 4 / 5

/-- All days are alike. -/
def even : Schedule where
  time h turn d := 2440587.5 + d + evenTime h turn
  index _ _ x := ⌊x - 2440587.5⌋
  index_next _ _ x := by rw [add_sub_right_comm, Int.floor_add_one]
  near h turn x := by
    have below := Int.floor_le (x - 2440587.5)
    cases h <;> cases turn <;> dsimp only [evenTime] <;> linarith
  drift _ _ d := by
    push_cast
    constructor <;> linarith
  dawn d := by norm_num [evenTime]
  light d := by norm_num [evenTime]
  dusk d := by norm_num [evenTime]
  dark d := by
    push_cast
    norm_num [evenTime, add_assoc]

theorem even_first : ∃ s, Gives (next_naut even.solar 0) s ∧ ∀ h turn, 0 < s.found h turn ∧
    (∃ d, s.found h turn = even.time h turn d) ∧ ∀ d, 0 < even.time h turn d → s.found h turn ≤ even.time h turn d :=
  next_naut_first even 0 le_rfl

theorem Schedule.after_le (x : ℚ) : after x ≤ x + 3 / 172800 := by
  have below := Int.floor_le ((x - 2440587.5) * 86400 + 1 / 2)
  unfold after julian_from_timet timet_from_julian
  push_cast
  linarith

theorem even_times (d : ℤ) : even.dawnStart d = 2440587.5 + d + 1 / 5 ∧ even.sunrise d = 2440587.5 + d + 1 / 4 ∧
    even.sunset d = 2440587.5 + d + 3 / 4 ∧ even.nightfall d = 2440587.5 + d + 4 / 5 := ⟨rfl, rfl, rfl, rfl⟩

theorem even_lasting (d : ℤ) : even.Lasting 7200 1800 d := by
  have late := Schedule.after_le
  obtain ⟨dawn, rise, set, fall⟩ := even_times d
  obtain ⟨dawn', rise', -⟩ := even_times (d + 1)
  push_cast at dawn' rise'
  constructor <;> first | refine (late _).trans_lt ?_ | refine (late _).trans ?_
  all_goals
    simp only [Schedule.morningEnd, Schedule.eveningStart, dawn, rise, set, fall, dawn', rise', Int.cast_ofNat]
    linarith

end Rts2.Central.DayCycle
