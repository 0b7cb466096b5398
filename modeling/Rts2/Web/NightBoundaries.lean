import Rts2.Central.DayCycle

/-! The night that the web pages show, from the events that centrald goes by. -/
namespace Rts2.Web

open Lib Kernel Db Central.DayCycle Schedule

structure Boundaries where
  sunset : Int
  nightStart : Int
  nightEnd : Int
  sunrise : Int

def Boundaries.see (b : Boundaries) (currType : Status) (cursor evTime : Int) : Boundaries :=
  if currType = serverdDusk then if b.sunset = 0 then { b with sunset := cursor } else b
  else if currType = serverdNight then
    if b.nightStart = 0 then { b with nightStart := cursor, nightEnd := evTime } else b
  else if currType = serverdMorning then if b.sunrise = 0 then { b with sunrise := cursor } else b
  else b

def walk (solar : Solar) (eveningTime morningTime : Int) (fuel : Nat) : Nat → Int → Boundaries → Option Boundaries
  | 0, _, b => some b
  | i + 1, cursor, b =>
    if b.sunset ≠ 0 ∧ b.sunrise ≠ 0 then some b
    else (next_event solar eveningTime morningTime (cursor + 1) fuel).bind fun a =>
      if a.ev_time ≤ cursor then some b
      else walk solar eveningTime morningTime fuel i a.ev_time (b.see a.curr_type cursor a.ev_time)

def findNightBoundaries (solar : Solar) (noon eveningTime morningTime : Int) (fuel : Nat) : Option (Bool × Boundaries) :=
  (walk solar eveningTime morningTime fuel 24 noon ⟨0, 0, 0, 0⟩).map fun b =>
    (decide (b.sunset ≠ 0 ∧ b.sunrise ≠ 0 ∧ b.sunset < b.sunrise), b)

def nightOf (S : Schedule) (d : ℤ) : Boundaries :=
  ⟨timet_from_julian (S.sunset d), timet_from_julian (S.nightfall d), timet_from_julian (S.dawnStart (d + 1)),
    timet_from_julian (S.sunrise (d + 1))⟩

variable {S : Schedule} {eve mor : Int}

theorem walk_step {d : ℤ} {i : Nat} {cursor : Int} {b r : Boundaries} {a : Announced} (goes : b.sunset = 0 ∨ b.sunrise = 0)
    (here : 0 ≤ julian_from_timet (cursor + 1) ∧ S.At d (cursor + 1)) (is : S.told eve mor d (cursor + 1) = a)
    (rest : Gives (fun fuel => walk S.solar eve mor fuel i a.ev_time (b.see a.curr_type cursor a.ev_time)) r) :
    Gives (fun fuel => walk S.solar eve mor fuel (i + 1) cursor b) r := by
  have later := timet_mono (announced_later eve mor here.2)
  rw [timet_of_julian] at later
  obtain ⟨n, gives⟩ := next_event_gives eve mor here.1 here.2
  obtain ⟨k, enough⟩ := rest
  subst is
  refine ⟨max n k, fun fuel least => ?_⟩
  dsimp only [walk]
  rw [if_neg (by tauto), gives fuel (le_of_max_le_left least), Option.bind_some]
  exact (if_neg (not_le.mpr (Int.add_one_le_iff.mp later))).trans (enough fuel (le_of_max_le_right least))

theorem findNightBoundaries_right (S : Schedule) (eve mor : Int) (lasting : ∀ d, S.Lasting eve mor d) (d : ℤ) (noon : Int)
    (recent : 0 ≤ noon) (day : S.morningEnd mor d ≤ julian_from_timet (noon + 1))
    (light : julian_from_timet (noon + 1) ≤ S.eveningStart eve d) :
    Gives (findNightBoundaries S.solar noon eve mor) (true, nightOf S d) := by
  obtain ⟨dawn, morning, daytime, evening, dusk, night⟩ := lasting d
  obtain ⟨dawn', morning', daytime', evening', -⟩ := lasting (d + 1)
  have begun : S.dawnStart d < S.sunrise d := S.dawn d
  have rises := lt_after (S.sunrise d)
  have cools := lt_after (S.eveningStart eve d)
  have sets := lt_after (S.sunset d)
  have falls := lt_after (S.nightfall d)
  have dawns := lt_after (S.dawnStart (d + 1))
  have rises' := lt_after (S.sunrise (d + 1))
  have warms' := lt_after (S.morningEnd mor (d + 1))
  have cools' := lt_after (S.eveningStart eve (d + 1))
  have ends : S.sunset (d + 1) < S.dawnStart (d + 1 + 1) := (S.dusk (d + 1)).trans (S.dark (d + 1))
  have start : (0 : ℚ) ≤ julian_from_timet (noon + 1) := by
    unfold julian_from_timet
    positivity
  have told : S.told eve mor d (noon + 1) = ⟨serverdDay, serverdEvening, S.eveningStart eve d⟩ ∧
      S.announced eve mor d (after (S.eveningStart eve d)) = ⟨serverdEvening, serverdDusk, S.sunset d⟩ ∧
      S.announced eve mor d (after (S.sunset d)) = ⟨serverdDusk, serverdNight, S.nightfall d⟩ ∧
      S.announced eve mor d (after (S.nightfall d)) = ⟨serverdNight, serverdDawn, S.dawnStart (d + 1)⟩ ∧
      S.announced eve mor (d + 1) (after (S.dawnStart (d + 1))) = ⟨serverdDawn, serverdMorning, S.sunrise (d + 1)⟩ ∧
      S.announced eve mor (d + 1) (after (S.sunrise (d + 1))) =
        ⟨serverdMorning, serverdDay, S.morningEnd mor (d + 1)⟩ := by
    unfold Schedule.told announced
    refine ⟨?_, ?_, ?_, ?_, ?_, ?_⟩ <;> split_ifs <;> first | rfl | linarith
  obtain ⟨first, second, third, fourth, fifth, sixth⟩ := told
  have positive := timet_mono (light.trans (cools.trans evening).le)
  rw [timet_of_julian] at positive
  have again := timet_mono (show julian_from_timet (timet_from_julian (S.sunset d) + 1) ≤ S.sunrise (d + 1) by
    change after (S.sunset d) ≤ _
    linarith)
  rw [timet_of_julian] at again
  have step (x : ℚ) (k : ℤ) (later : 0 ≤ x) (lower : S.dawnStart k ≤ x) (upper : after x < S.dawnStart (k + 1)) :
      0 ≤ after x ∧ S.Within k (after x) :=
    ⟨later.trans (lt_after x).le, lower.trans (lt_after x).le, upper⟩
  obtain ⟨n, walked⟩ : Gives (fun fuel => walk S.solar eve mor fuel 24 noon ⟨0, 0, 0, 0⟩) (nightOf S d) := by
    refine walk_step (.inr rfl) ⟨start, by linarith, by linarith⟩ first ?_
    refine walk_step (.inr rfl) (step _ d (by linarith) (by linarith) (by linarith)) second ?_
    refine walk_step (.inr rfl) (step _ d (by linarith) (by linarith) (by linarith)) third ?_
    refine walk_step (.inr rfl) (step _ d (by linarith) (by linarith) (by linarith)) fourth ?_
    refine walk_step (.inr rfl) (step _ (d + 1) (by linarith) (by linarith) (by linarith)) fifth ?_
    refine walk_step (.inr rfl) (step _ (d + 1) (by linarith) (by linarith) (by linarith)) sixth ?_
    exact ⟨0, fun fuel _ => if_pos (show (nightOf S d).sunset ≠ 0 ∧ (nightOf S d).sunrise ≠ 0 by
      dsimp only [nightOf]
      omega)⟩
  refine ⟨n, fun fuel least => ?_⟩
  have found := walked fuel least
  dsimp only at found
  rw [findNightBoundaries, found, Option.map_some, decide_eq_true]
  dsimp only [nightOf]
  omega

theorem even_night : Gives (findNightBoundaries even.solar 43200 7200 1800) (true, nightOf even 0) := by
  refine findNightBoundaries_right even 7200 1800 even_lasting 0 43200 (by decide) ?_ ?_
  · norm_num [morningEnd, even_times, julian_from_timet]
  · norm_num [eveningStart, even_times, julian_from_timet]

end Rts2.Web
