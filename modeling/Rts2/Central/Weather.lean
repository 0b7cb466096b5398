import Rts2.Central.OpenClose
import Rts2.Lib.Run

/-! The weather centrald announces. It is evaluated over the connections and the names of
required_devices, by a list of names that shrinks with each good device and grows with each other
connection in bad weather. -/
namespace Rts2.Central

open Kernel Lib

inductive ConnType where
  | notDefined | client | device
  deriving DecidableEq, Repr

/-- A connection as the weather sees it; one that is not connected waits for its removal. -/
structure Conn where
  name : Name
  type : ConnType
  connected : Bool
  state : Status
  deriving DecidableEq

def Conn.isGoodWeather (conn : Conn) : Bool := conn.state &&& weatherMask == goodWeather

structure Weather where
  connections : List Conn
  requiredDevices : List Name
  state : Status
  badWeatherDevices : List Name
  badWeatherReason : Name
  badWeatherDevice : Name

namespace Weather

def init (requiredDevices : List Name) : Weather where
  connections := []
  requiredDevices := requiredDevices
  state := serverdHardOff ||| badWeather
  badWeatherDevices := []
  badWeatherReason := []
  badWeatherDevice := []

def good (w : Weather) : Bool := w.state &&& weatherMask == goodWeather

def nullText : Name := [78, 85, 76, 76]

def failedArr : List Conn → List Name → List Name
  | [], failed => failed
  | conn :: rest, failed =>
    if conn.name ∈ failed then
      if conn.isGoodWeather ∧ conn.connected then failedArr rest (failed.erase conn.name)
      else failedArr rest failed
    else if conn.isGoodWeather then failedArr rest failed
    else failedArr rest (failed ++ [conn.name])

def setWeatherState (w : Weather) (good_weather : Bool) : Weather :=
  { w with
    state := (w.state &&& ~~~(deviceErrorMask ||| weatherMask)) |||
      (if good_weather then goodWeather else badWeather) }

def blame (w : Weather) (device : Name) (msg : Option Name) : Weather :=
  if w.badWeatherReason = [] ∧ ∃ conn ∈ w.connections, conn.name = device ∧ ¬ conn.isGoodWeather then
    { w with badWeatherReason := msg.getD nullText, badWeatherDevice := device }
  else w

def weatherChanged (w : Weather) (device : Name) (msg : Option Name) : Weather :=
  let failed := failedArr w.connections w.requiredDevices
  let w := { w.blame device msg with badWeatherDevices := failed }
  let w := w.setWeatherState (failed = [])
  if failed = [] then { w with badWeatherReason := [], badWeatherDevice := [] } else w

def findName (w : Weather) (in_name : Name) : Option Conn :=
  w.connections.find? (·.name = in_name)

def login (w : Weather) (i : Nat) (in_name : Name) : Weather :=
  match w.connections[i]? with
  | none => w
  | some conn =>
    if conn.type = .notDefined then
      { w with connections := w.connections.set i { conn with name := in_name, type := .client } }
    else w

def register (w : Weather) (i : Nat) (reg_device : Name) : Weather :=
  match w.connections[i]? with
  | none => w
  | some conn =>
    if conn.type = .notDefined ∧ (w.findName reg_device).isNone then
      { w with connections := w.connections.set i { conn with name := reg_device, type := .device } }
    else w

def readyText : Name := [100, 101, 118, 105, 99, 101, 32, 114, 101, 97, 100, 121]

def removedText : Name :=
  [99, 111, 110, 110, 101, 99, 116, 105, 111, 110, 32, 114, 101, 109, 111, 118, 101, 100]

/-- ConnCentrald::setState, with what it does to the weather. -/
def setState (w : Weather) (i : Nat) (value : Status) (msg : Option Name) : Weather :=
  match w.connections[i]? with
  | none => w
  | some conn =>
    let w := { w with connections := w.connections.set i { conn with state := value } }
    let w :=
      if conn.state &&& deviceNotReady ≠ value &&& deviceNotReady ∧ value &&& deviceNotReady = 0 then
        w.weatherChanged conn.name (some readyText)
      else w
    if conn.state &&& weatherMask ≠ value &&& weatherMask then w.weatherChanged conn.name msg else w

def connectionError (w : Weather) (i : Nat) : Weather :=
  match w.connections[i]? with
  | none => w
  | some conn => { w with connections := w.connections.set i { conn with connected := false } }

def connectionRemoved (w : Weather) (i : Nat) : Weather :=
  match w.connections[i]? with
  | none => w
  | some conn =>
    ({ w with connections := w.connections.eraseIdx i } : Weather).weatherChanged conn.name
      (some removedText)

end Weather

/-- What centrald's connections and its configuration do to the weather. `requiredDevices` comes
from a client that sets the value and from reloadConfig. -/
inductive WeatherEvent where
  | accept
  | login (i : Nat) (in_name : Name)
  | register (i : Nat) (reg_device : Name)
  | setState (i : Nat) (value : Status) (msg : Option Name)
  | connectionError (i : Nat)
  | connectionRemoved (i : Nat)
  | requiredDevices (names : List Name)
  | weatherChanged (device : Name) (msg : Option Name)

namespace Weather

def step (w : Weather) : WeatherEvent → Weather
  | .accept => { w with connections := w.connections ++ [⟨[], .notDefined, true, 0⟩] }
  | .login i in_name => w.login i in_name
  | .register i reg_device => w.register i reg_device
  | .setState i value msg => w.setState i value msg
  | .connectionError i => w.connectionError i
  | .connectionRemoved i => w.connectionRemoved i
  | .requiredDevices names => { w with requiredDevices := names }
  | .weatherChanged device msg => w.weatherChanged device msg

def Met (w : Weather) (name : Name) : Prop :=
  ∃ conn ∈ w.connections,
    conn.name = name ∧ conn.type = .device ∧ conn.connected ∧ conn.isGoodWeather

structure Lawful (w : Weather) : Prop where
  required : ∀ name ∈ w.requiredDevices, w.Met name
  reports : ∀ conn ∈ w.connections, conn.isGoodWeather

def evaluated (w : Weather) : WeatherEvent → Option Weather
  | .setState i value _ =>
    match w.connections[i]? with
    | none => none
    | some conn =>
      if (conn.state &&& deviceNotReady ≠ value &&& deviceNotReady ∧
          value &&& deviceNotReady = 0) ∨
          conn.state &&& weatherMask ≠ value &&& weatherMask then
        some { w with connections := w.connections.set i { conn with state := value } }
      else none
  | .connectionRemoved i =>
    match w.connections[i]? with
    | none => none
    | some _ => some { w with connections := w.connections.eraseIdx i }
  | .weatherChanged _ _ => some w
  | .accept | .login .. | .register .. | .connectionError _ | .requiredDevices _ => none

/-- Good weather is lawful, and an evaluation finds it when the law allows it. -/
structure Obeys (w : Weather) (e : WeatherEvent) : Prop where
  safe : (w.step e).good → (w.step e).Lawful
  live : ∀ v, w.evaluated e = some v → v.Lawful → (w.step e).good

/-- A list of connections and required names that the loop does not confuse: no good connection
takes a bad one of its name off the list, only devices stand for required names, and a name that
is required twice is there twice. -/
structure Plain (w : Weather) : Prop where
  unmasked : w.connections.Pairwise fun conn other =>
    conn.name = other.name → other.isGoodWeather → other.connected → conn.isGoodWeather
  devices : ∀ conn ∈ w.connections, conn.name ∈ w.requiredDevices → conn.isGoodWeather →
    conn.connected → w.Met conn.name
  single : w.Lawful → ∀ name, w.requiredDevices.count name ≤
    w.connections.countP fun conn => conn.name = name ∧ conn.connected

/-- Evaluations meet plain lists. While the weather is good, required_devices is changed to names
that are met, and no write fails to a good device of a required name. -/
def Sound (w : Weather) : WeatherEvent → Prop
  | .requiredDevices names => w.good → ∀ name ∈ names, w.Met name
  | .connectionError i => w.good → ∀ conn, w.connections[i]? = some conn →
      conn.type = .device → conn.connected → conn.name ∉ w.requiredDevices
  | e => ∀ v, w.evaluated e = some v → v.Plain

theorem failedArr_cons (conn : Conn) (rest : List Conn) (failed : List Name) :
    failedArr (conn :: rest) failed =
      if conn.name ∈ failed then
        if conn.isGoodWeather ∧ conn.connected then failedArr rest (failed.erase conn.name)
        else failedArr rest failed
      else if conn.isGoodWeather then failedArr rest failed
      else failedArr rest (failed ++ [conn.name]) := rfl

theorem mem_failedArr {name : Name} (connections : List Conn) (failed : List Name)
    (mem : name ∈ failed)
    (none : ∀ conn ∈ connections, conn.name = name → ¬ (conn.isGoodWeather ∧ conn.connected)) :
    name ∈ failedArr connections failed := by
  induction connections generalizing failed with
  | nil => exact mem
  | cons conn rest ih =>
    have later := fun other mem => none other (List.mem_cons_of_mem conn mem)
    rw [failedArr_cons]
    split
    · split
      · rename_i fine
        have other : conn.name ≠ name := fun same => none conn (by simp) same fine
        exact ih _ ((List.mem_erase_of_ne other.symm).mpr mem) later
      · exact ih _ mem later
    · split
      · exact ih _ mem later
      · exact ih _ (List.mem_append_left _ mem) later

theorem exists_of_mem {name : Name} {connections : List Conn} {failed : List Name}
    (mem : name ∈ failed) (empty : failedArr connections failed = []) :
    ∃ conn ∈ connections, conn.name = name ∧ conn.isGoodWeather ∧ conn.connected := by
  by_contra none
  push Not at none
  have stays := mem_failedArr connections failed mem
    fun conn mem same fine => none conn mem same fine.1 fine.2
  simp [empty] at stays

theorem reports_of_empty {connections : List Conn} {failed : List Name}
    (unmasked : connections.Pairwise fun conn other =>
      conn.name = other.name → other.isGoodWeather → other.connected → conn.isGoodWeather)
    (empty : failedArr connections failed = []) :
    ∀ conn ∈ connections, conn.isGoodWeather := by
  induction connections generalizing failed with
  | nil => simp
  | cons conn rest ih =>
    obtain ⟨first, unmasked⟩ := List.pairwise_cons.mp unmasked
    have masked (failed' : List Name) (mem : conn.name ∈ failed')
        (empty : failedArr rest failed' = []) : conn.isGoodWeather := by
      obtain ⟨other, mem, same, fine, connected⟩ := exists_of_mem mem empty
      exact first other mem same.symm fine connected
    rw [failedArr_cons] at empty
    rw [List.forall_mem_cons]
    split at empty
    · rename_i mem
      split at empty
      · rename_i fine
        exact ⟨fine.1, ih unmasked empty⟩
      · exact ⟨masked failed mem empty, ih unmasked empty⟩
    · split at empty
      · rename_i fine
        exact ⟨fine, ih unmasked empty⟩
      · exact ⟨masked _ (by simp) empty, ih unmasked empty⟩

theorem failedArr_eq_nil {connections : List Conn} {failed : List Name}
    (reports : ∀ conn ∈ connections, conn.isGoodWeather)
    (enough : ∀ name, failed.count name ≤
      connections.countP fun conn => conn.name = name ∧ conn.connected) :
    failedArr connections failed = [] := by
  induction connections generalizing failed with
  | nil =>
    have none (name : Name) : name ∉ failed := by
      simpa [List.count_eq_zero] using enough name
    exact List.eq_nil_iff_forall_not_mem.mpr none
  | cons conn rest ih =>
    obtain ⟨fine, reports⟩ := List.forall_mem_cons.mp reports
    simp only [List.countP_cons, decide_eq_true_eq] at enough
    rw [failedArr_cons]
    by_cases mem : conn.name ∈ failed
    · by_cases connected : conn.connected
      · rw [if_pos mem, if_pos ⟨fine, connected⟩]
        refine ih reports fun name => ?_
        have bound := enough name
        rw [List.count_erase]
        by_cases same : conn.name = name
        · simp [same, connected] at bound ⊢
          omega
        · simpa [same] using bound
      · rw [if_pos mem, if_neg (by simp [connected])]
        exact ih reports fun name => by simpa [connected] using enough name
    · rw [if_neg mem, if_pos fine]
      refine ih reports fun name => ?_
      have bound := enough name
      by_cases same : conn.name = name
      · have gone : failed.count name = 0 := List.count_eq_zero.mpr (same ▸ mem)
        omega
      · simpa [same] using bound

theorem setWeatherState_good (w : Weather) (good_weather : Bool) :
    (w.setWeatherState good_weather).good = good_weather := by
  have cleared : w.state &&& ~~~(deviceErrorMask ||| weatherMask) &&& weatherMask = 0#32 := by
    ext i inside
    simp
  have same (v : Status) : (w.state &&& ~~~(deviceErrorMask ||| weatherMask) ||| v) &&& weatherMask =
      v &&& weatherMask := by
    rw [BitVec.and_or_distrib_right, cleared, BitVec.zero_or]
  unfold good setWeatherState
  dsimp only
  rw [same]
  cases good_weather <;> decide

theorem weatherChanged_frame (w : Weather) (device : Name) (msg : Option Name) :
    (w.weatherChanged device msg).connections = w.connections ∧
      (w.weatherChanged device msg).requiredDevices = w.requiredDevices := by
  unfold weatherChanged blame setWeatherState
  dsimp only
  split <;> split <;> exact ⟨rfl, rfl⟩

theorem weatherChanged_good (w : Weather) (device : Name) (msg : Option Name) :
    (w.weatherChanged device msg).good ↔ failedArr w.connections w.requiredDevices = [] := by
  have set (v : Weather) : (v.setWeatherState
      (failedArr w.connections w.requiredDevices = [])).good ↔
        failedArr w.connections w.requiredDevices = [] := by
    rw [setWeatherState_good, decide_eq_true_eq]
  unfold weatherChanged
  dsimp only
  split
  · exact set _
  · exact set _

theorem failedArr_iff {w : Weather} (plain : w.Plain) :
    failedArr w.connections w.requiredDevices = [] ↔ w.Lawful := by
  constructor
  · intro empty
    refine ⟨fun name mem => ?_, reports_of_empty plain.unmasked empty⟩
    obtain ⟨conn, listed, rfl, fine, connected⟩ := exists_of_mem mem empty
    exact plain.devices conn listed mem fine connected
  · intro lawful
    exact failedArr_eq_nil lawful.reports (plain.single lawful)

theorem lawful_congr {v w : Weather} (connections : v.connections = w.connections)
    (requiredDevices : v.requiredDevices = w.requiredDevices) (lawful : w.Lawful) : v.Lawful := by
  obtain ⟨required, reports⟩ := lawful
  refine ⟨fun name mem => ?_, connections ▸ reports⟩
  obtain ⟨conn, listed, rest⟩ := required name (requiredDevices ▸ mem)
  exact ⟨conn, connections ▸ listed, rest⟩

theorem step_of_evaluated {w v : Weather} {e : WeatherEvent} (evaluated : w.evaluated e = some v) :
    (w.step e).connections = v.connections ∧ (w.step e).requiredDevices = v.requiredDevices ∧
      ((w.step e).good ↔ failedArr v.connections v.requiredDevices = []) := by
  have once (u : Weather) (device : Name) (msg : Option Name) (connections : u.connections = v.connections)
      (required : u.requiredDevices = v.requiredDevices) :
      (u.weatherChanged device msg).connections = v.connections ∧
        (u.weatherChanged device msg).requiredDevices = v.requiredDevices ∧
          ((u.weatherChanged device msg).good ↔
            failedArr v.connections v.requiredDevices = []) := by
    obtain ⟨same, same'⟩ := weatherChanged_frame u device msg
    rw [weatherChanged_good, same, same', connections, required]
    exact ⟨rfl, rfl, Iff.rfl⟩
  cases e with
  | setState i value msg =>
    simp only [Weather.evaluated, step, setState] at evaluated ⊢
    cases known : w.connections[i]? with
    | none => simp [known] at evaluated
    | some conn =>
      simp only [known] at evaluated ⊢
      split at evaluated
      · rename_i changed
        obtain rfl := Option.some.inj evaluated
        split
        · split
          · exact once _ _ _ (weatherChanged_frame _ _ _).1 (weatherChanged_frame _ _ _).2
          · exact once _ _ _ rfl rfl
        · rename_i same
          rw [if_pos (changed.resolve_right same)]
          exact once _ _ _ rfl rfl
      · simp at evaluated
  | connectionRemoved i =>
    simp only [Weather.evaluated, step, connectionRemoved] at evaluated ⊢
    cases known : w.connections[i]? with
    | none => simp [known] at evaluated
    | some conn =>
      simp only [known] at evaluated ⊢
      obtain rfl := Option.some.inj evaluated
      exact once _ _ _ rfl rfl
  | weatherChanged device msg =>
    obtain rfl := Option.some.inj evaluated
    exact once w device msg rfl rfl
  | _ => simp [Weather.evaluated] at evaluated

theorem lawful_set {w : Weather} (lawful : w.Lawful) {i : Nat} {conn conn' : Conn}
    (known : w.connections[i]? = some conn) (reports : conn.isGoodWeather → conn'.isGoodWeather)
    (stays : conn.name ∈ w.requiredDevices → conn.type = .device → conn.connected →
      conn'.name = conn.name ∧ conn'.type = .device ∧ conn'.connected) :
    ({ w with connections := w.connections.set i conn' } : Weather).Lawful := by
  obtain ⟨inside, rfl⟩ := List.getElem?_eq_some_iff.mp known
  constructor
  · intro name mem
    obtain ⟨other, listed, rfl, device, connected, fine⟩ := lawful.required name mem
    obtain ⟨j, bound, rfl⟩ := List.mem_iff_getElem.mp listed
    by_cases same : i = j
    · subst same
      obtain ⟨same_name, device', connected'⟩ := stays mem device connected
      exact ⟨conn', List.mem_iff_getElem.mpr ⟨i, by simpa using inside, by simp⟩, same_name, device',
        connected', reports fine⟩
    · exact ⟨w.connections[j], List.mem_iff_getElem.mpr ⟨j, by simpa using bound, by simp [same]⟩,
        rfl, device, connected, fine⟩
  · intro other listed
    rcases List.mem_or_eq_of_mem_set listed with listed | rfl
    · exact lawful.reports other listed
    · exact reports (lawful.reports _ (List.getElem_mem inside))

theorem lawful_accept {w : Weather} (lawful : w.Lawful) : (w.step .accept).Lawful := by
  constructor
  · intro name mem
    obtain ⟨conn, listed, rest⟩ := lawful.required name mem
    exact ⟨conn, List.mem_append_left _ listed, rest⟩
  · intro conn listed
    rcases List.mem_append.mp listed with listed | listed
    · exact lawful.reports conn listed
    · obtain rfl := List.mem_singleton.mp listed
      decide

theorem quiet_lawful {w : Weather} {e : WeatherEvent} (quiet : w.evaluated e = none)
    (sound : w.Sound e) (lawful : w.good → w.Lawful) : (w.step e).good → (w.step e).Lawful := by
  cases e with
  | accept => exact fun good => lawful_accept (lawful good)
  | login i in_name =>
    simp only [step, login]
    cases known : w.connections[i]? with
    | none => exact lawful
    | some conn =>
      dsimp only
      split
      · rename_i undefined
        exact fun good => lawful_set (lawful good) known id fun _ device => by simp [undefined] at device
      · exact lawful
  | register i reg_device =>
    simp only [step, register]
    cases known : w.connections[i]? with
    | none => exact lawful
    | some conn =>
      dsimp only
      split
      · rename_i undefined
        exact fun good => lawful_set (lawful good) known id
          fun _ device => by simp [undefined.1] at device
      · exact lawful
  | setState i value msg =>
    simp only [Weather.evaluated, step, setState] at quiet ⊢
    cases known : w.connections[i]? with
    | none => exact lawful
    | some conn =>
      simp only [known] at quiet ⊢
      split at quiet
      · simp at quiet
      · rename_i same
        push Not at same
        rw [if_neg (by simpa using same.2), if_neg (by simpa using same.1)]
        refine fun good => lawful_set (lawful good) known ?_ fun _ device connected =>
          ⟨rfl, device, connected⟩
        unfold Conn.isGoodWeather
        rw [same.2]
        exact id
  | connectionError i =>
    simp only [step, connectionError]
    cases known : w.connections[i]? with
    | none => exact lawful
    | some conn =>
      exact fun good => lawful_set (lawful good) known id
        fun mem device connected => absurd mem (sound good conn known device connected)
  | connectionRemoved i =>
    simp only [Weather.evaluated, step, connectionRemoved] at quiet ⊢
    cases known : w.connections[i]? with
    | none => exact lawful
    | some conn => simp [known] at quiet
  | requiredDevices names => exact fun good => ⟨sound good, (lawful good).reports⟩
  | weatherChanged device msg => simp [Weather.evaluated] at quiet

theorem obeys {w : Weather} {e : WeatherEvent} (lawful : w.good → w.Lawful) (sound : w.Sound e) :
    w.Obeys e := by
  cases evaluated : w.evaluated e with
  | none => exact ⟨quiet_lawful evaluated sound lawful, by simp [evaluated]⟩
  | some v =>
    have plain : v.Plain := by
      cases e with
      | setState i value msg => exact sound v evaluated
      | connectionRemoved i => exact sound v evaluated
      | weatherChanged device msg => exact sound v evaluated
      | _ => simp [Weather.evaluated] at evaluated
    obtain ⟨connections, required, good⟩ := step_of_evaluated evaluated
    refine ⟨fun fine => ?_, fun v' known lawful' => ?_⟩
    · exact lawful_congr connections required ((failedArr_iff plain).mp (good.mp fine))
    · obtain rfl := Option.some.inj (evaluated.symm.trans known)
      exact good.mpr ((failedArr_iff plain).mpr lawful')

end Weather

/-- In every run of sound steps good weather is announced only as the law allows it, and every
evaluation announces it when the law allows it. -/
theorem weather_law (requiredDevices : List Name) (events : List WeatherEvent)
    (sound : Guarded Weather.step Weather.Sound (Weather.init requiredDevices) events) :
    Guarded Weather.step Weather.Obeys (Weather.init requiredDevices) events := by
  have initial : (Weather.init requiredDevices).good → (Weather.init requiredDevices).Lawful :=
    fun good => by
      have bad : (serverdHardOff ||| badWeather) &&& weatherMask ≠ goodWeather := by decide
      simp [Weather.good, Weather.init, bad] at good
  refine (guarded_congr_invariant (P := fun w => w.good → w.Lawful) ?_ ?_ initial sound).mp
    (guarded_true _ _ _)
  · exact fun w e lawful sound _ => (Weather.obeys lawful sound).safe
  · exact fun w e lawful sound => iff_of_true trivial (Weather.obeys lawful sound)

theorem weather_law_sample :
    Guarded Weather.step Weather.Obeys (Weather.init [[7]])
      [.accept, .register 0 [7], .weatherChanged [7] none] := by
  refine weather_law [[7]] _ ⟨(fun v none => nomatch none), (fun v none => nomatch none), ?_, trivial⟩
  intro v evaluated
  have connections : v.connections = [⟨[7], .device, true, 0⟩] := by
    rw [← Option.some.inj evaluated]
    decide
  have required : v.requiredDevices = [[7]] := by
    rw [← Option.some.inj evaluated]
    decide
  refine ⟨by simp [connections], fun conn listed _ fine connected => ?_, fun _ name => ?_⟩
  · rw [connections, List.mem_singleton] at listed
    exact ⟨conn, by simp [connections, listed], rfl, by simp [listed], connected, fine⟩
  · rw [connections, required]
    simp [List.count_singleton, List.countP_cons]

def Weather.impostor : List WeatherEvent :=
  [.accept, .register 0 [7], .setState 0 badWeather none, .accept, .login 1 [7], .accept,
    .connectionRemoved 2]

/-- The client answers for the device: good weather, with the required device reporting bad. -/
theorem weather_law_broken :
    ¬ Guarded Weather.step Weather.Obeys (Weather.init [[7]]) Weather.impostor := by
  rintro ⟨_, _, _, _, _, _, obeys, _⟩
  have reports := (obeys.safe (by decide)).reports ⟨[7], .device, true, badWeather⟩
    (by decide)
  exact absurd reports (by decide)

end Rts2.Central
