import Rts2.Central.Weather

/-! What blocks the devices. Centrald sends each device the bits of the connections that block it, and
carries in its own state the bits of all connections. -/
namespace Rts2.Central

open Kernel Lib

structure BopConn where
  name : Name
  type : ConnType
  state : Status
  sent : Option Status
  deriving DecidableEq

def BopConn.getBopState (conn : BopConn) : Status := conn.state &&& bopMask

structure IniSection where
  sectName : Name
  blockedBy : Option Name
  deriving DecidableEq

def blockedByLoop : List UInt8 → List Name → Option Name → List Name × Option Name
  | [], blockedBy, deviceName => (blockedBy, deviceName)
  | c :: val, blockedBy, deviceName =>
    if c = 32 then
      match deviceName with
      | none => blockedByLoop val blockedBy none
      | some name => blockedByLoop val (blockedBy ++ [name]) none
    else blockedByLoop val blockedBy (some (deviceName.getD [] ++ [c]))

def createBlockedBy (val : Name) : Option (List Name) :=
  match blockedByLoop val [] none with
  | (blockedBy, some deviceName) => some (blockedBy ++ [deviceName])
  | (blockedBy, none) => if blockedBy = [] then none else some blockedBy

def IniSection.containedInBlockedBy (sect : IniSection) (querying_device : Name) : Bool :=
  match sect.blockedBy.bind createBlockedBy with
  | none => true
  | some names => names.contains querying_device

def blockDevice (config : List IniSection) (device_name querying_device : Name) : Bool :=
  match config.find? (·.sectName = device_name) with
  | none => true
  | some sect => sect.containedInBlockedBy querying_device

structure BopMask where
  connections : List BopConn
  config : List IniSection
  state : Status

namespace BopMask

def init (config : List IniSection) : BopMask where
  connections := []
  config := config
  state := serverdHardOff ||| badWeather

def maskState (c : BopMask) (state_mask new_state : Status) : BopMask :=
  { c with state := (c.state &&& ~~~(deviceErrorMask ||| state_mask)) ||| new_state }

def stateLoop (c : BopMask) (device : Name) : List BopConn → Status → Status
  | [], sta => sta
  | test_conn :: rest, sta =>
    if blockDevice c.config device test_conn.name then stateLoop c device rest (sta ||| test_conn.getBopState)
    else stateLoop c device rest sta

def getStateForConnection (c : BopMask) (conn : BopConn) : Status :=
  if conn.type = .device then
    c.stateLoop conn.name c.connections (c.state &&& (~~~bopMask &&& ~~~deviceErrorMask))
  else c.state

def sendBopMessage (c : BopMask) (conn : BopConn) : BopConn := { conn with sent := some (c.getStateForConnection conn) }

def sendLoop (c : BopMask) : List BopConn → Status → List BopConn × Status
  | [], bopState => ([], bopState)
  | conn :: rest, bopState =>
    let (sent, bopState) := sendLoop c rest (bopState ||| conn.getBopState)
    ((if conn.type = .device then c.sendBopMessage conn else conn) :: sent, bopState)

def bopMaskChanged (c : BopMask) : BopMask :=
  let bopState : Status := 0
  let c := c.maskState bopMask bopState
  { c with connections := (c.sendLoop c.connections bopState).1 }

def setWeatherState (c : BopMask) (good_weather : Bool) : BopMask :=
  c.maskState weatherMask (if good_weather then goodWeather else badWeather)

def setStopState (c : BopMask) (stop_state : Bool) : BopMask :=
  c.maskState stopMask (if stop_state then stopEverything else 0)

/-- ConnCentrald::setState -/
def setState (c : BopMask) (i : Nat) (value : Status) (good stop : Bool) : BopMask :=
  match c.connections[i]? with
  | none => c
  | some conn =>
    let c := { c with connections := c.connections.set i { conn with state := value } }
    let c := if conn.state &&& deviceNotReady ≠ value &&& deviceNotReady ∧ value &&& deviceNotReady = 0 then
      (c.setWeatherState good).setStopState stop else c
    let c := if conn.state &&& weatherMask ≠ value &&& weatherMask then c.setWeatherState good else c
    let c := if conn.state &&& stopMask ≠ value &&& stopMask then c.setStopState stop else c
    if conn.state &&& bopMask ≠ value &&& bopMask then c.bopMaskChanged else c

def updateStatusWait (c : BopMask) (i : Nat) : BopMask :=
  match c.connections[i]? with
  | none => c
  | some conn => { c with connections := c.connections.set i (c.sendBopMessage conn) }

def connectionRemoved (c : BopMask) (i : Nat) (good stop : Bool) (waits : List Nat) : BopMask :=
  let c := { c with connections := c.connections.eraseIdx i }
  let c := ((c.setWeatherState good).setStopState stop).bopMaskChanged
  waits.foldl updateStatusWait c

def login (c : BopMask) (i : Nat) (in_name : Name) : BopMask :=
  match c.connections[i]? with
  | none => c
  | some conn =>
    if conn.type = .notDefined then
      { c with connections := c.connections.set i { conn with name := in_name, type := .client } }
    else c

def register (c : BopMask) (i : Nat) (reg_device : Name) : BopMask :=
  match c.connections[i]? with
  | none => c
  | some conn =>
    if conn.type = .notDefined ∧ (c.connections.find? (·.name = reg_device)).isNone then
      { c with connections := c.connections.set i { conn with name := reg_device, type := .device } }
    else c

end BopMask

/-- What happens to centrald: connections come, are named, report and go, its own state is changed, and the
configuration is read again. -/
inductive BopEvent where
  | accept
  | login (i : Nat) (in_name : Name)
  | register (i : Nat) (reg_device : Name)
  | setState (i : Nat) (value : Status) (good stop : Bool)
  | connectionRemoved (i : Nat) (good stop : Bool) (waits : List Nat)
  | updateStatusWait (i : Nat)
  | weatherChanged (good : Bool)
  | stopChanged (stop : Bool)
  | maskCentralState (state_mask new_state : Status)
  | reloadConfig (config : List IniSection)

namespace BopMask

def Enabled (c : BopMask) : BopEvent → Prop
  | .setState i .. | .connectionRemoved i .. => i < c.connections.length
  | .maskCentralState _ new_state => new_state &&& bopMask = 0
  | _ => True

def step (c : BopMask) : BopEvent → BopMask
  | .accept => { c with connections := c.connections ++ [⟨[], .notDefined, deviceNotReady, none⟩] }
  | .login i in_name => c.login i in_name
  | .register i reg_device => c.register i reg_device
  | .setState i value good stop => c.setState i value good stop
  | .connectionRemoved i good stop waits => c.connectionRemoved i good stop waits
  | .updateStatusWait i => c.updateStatusWait i
  | .weatherChanged good => c.setWeatherState good
  | .stopChanged stop => c.setStopState stop
  | .maskCentralState state_mask new_state => c.maskState state_mask new_state
  | .reloadConfig config => { c with config := config }

def union : List BopConn → Status
  | [] => 0
  | conn :: rest => conn.getBopState ||| union rest

def blocking (c : BopMask) (device : Name) : Status :=
  union (c.connections.filter fun conn => blockDevice c.config device conn.name)

def Sent (c : BopMask) : Prop :=
  ∀ conn ∈ c.connections, conn.type = .device →
    ∃ sta, conn.sent = some sta ∧ sta &&& bopMask = c.blocking conn.name

def Own (c : BopMask) : Prop := c.state &&& bopMask = union c.connections

def Obeys (c : BopMask) (e : BopEvent) : Prop :=
  match e with
  | .setState .. | .connectionRemoved .. => (c.step e).Sent ∧ (c.step e).Own
  | _ => True

/-- No connection blocks after a report or a removal; a report that leaves the bits of its connection finds the
devices told. -/
def Holds (c : BopMask) : BopEvent → Prop
  | .setState i value _ _ => value &&& bopMask = 0 ∧ (∀ conn ∈ c.connections.eraseIdx i, conn.getBopState = 0) ∧
      ((∃ conn, c.connections[i]? = some conn ∧ conn.getBopState ≠ value &&& bopMask) ∨ c.Sent)
  | .connectionRemoved i _ _ _ => ∀ conn ∈ c.connections.eraseIdx i, conn.getBopState = 0
  | _ => True

def Clear (c : BopMask) : Prop := c.state &&& bopMask = 0

theorem maskState_clear {c : BopMask} (clear : c.Clear) (state_mask : Status) {new_state : Status}
    (none_new : new_state &&& bopMask = 0) : (c.maskState state_mask new_state).Clear := by
  unfold Clear maskState at *
  have kept : c.state &&& ~~~(deviceErrorMask ||| state_mask) &&& bopMask = 0 := by
    rw [BitVec.and_assoc, BitVec.and_comm (~~~_), ← BitVec.and_assoc, clear]
    exact BitVec.zero_and
  rw [BitVec.and_or_distrib_right, kept, none_new]
  exact BitVec.or_zero

theorem setWeatherState_clear {c : BopMask} (clear : c.Clear) (good : Bool) : (c.setWeatherState good).Clear := by
  apply maskState_clear clear
  cases good <;> decide

theorem setStopState_clear {c : BopMask} (clear : c.Clear) (stop : Bool) : (c.setStopState stop).Clear := by
  apply maskState_clear clear
  cases stop <;> decide

theorem union_masked (conns : List BopConn) : union conns &&& bopMask = union conns := by
  induction conns with
  | nil => decide
  | cons conn rest ih =>
    rw [union, BitVec.and_or_distrib_right, ih, BopConn.getBopState, BitVec.and_assoc, BitVec.and_self]

theorem union_eq_zero (conns : List BopConn) : union conns = 0 ↔ ∀ conn ∈ conns, conn.getBopState = 0 := by
  induction conns with
  | nil => simp [union]
  | cons conn rest ih =>
    have both : conn.getBopState ||| union rest = 0 ↔ conn.getBopState = 0 ∧ union rest = 0 := BitVec.or_eq_zero_iff
    rw [union, both, ih, List.forall_mem_cons]

theorem stateLoop_eq (c : BopMask) (device : Name) (conns : List BopConn) (sta : Status) :
    c.stateLoop device conns sta = sta ||| union (conns.filter fun conn => blockDevice c.config device conn.name) := by
  induction conns generalizing sta with
  | nil => simp [stateLoop, union]
  | cons conn rest ih =>
    unfold stateLoop
    split
    case isTrue blocks => simp only [ih, List.filter_cons, blocks, if_true, union, BitVec.or_assoc]
    case isFalse free => simp only [ih, List.filter_cons, free, if_false, Bool.false_eq_true]

theorem getStateForConnection_bop (c : BopMask) {conn : BopConn} (device : conn.type = .device) :
    c.getStateForConnection conn &&& bopMask = c.blocking conn.name := by
  have none_own : c.state &&& (~~~bopMask &&& ~~~deviceErrorMask) &&& bopMask = 0 := by
    rw [BitVec.and_assoc]
    have masks : ~~~bopMask &&& ~~~deviceErrorMask &&& bopMask = 0 := by decide
    rw [masks]
    exact BitVec.and_zero
  rw [getStateForConnection, if_pos device, stateLoop_eq, BitVec.and_or_distrib_right, none_own, union_masked]
  exact BitVec.zero_or

theorem sendLoop_map (c : BopMask) (conns : List BopConn) (bopState : Status) :
    (c.sendLoop conns bopState).1 = conns.map fun conn => if conn.type = .device then c.sendBopMessage conn else conn := by
  induction conns generalizing bopState with
  | nil => rfl
  | cons conn rest ih => rw [List.map_cons, ← ih (bopState ||| conn.getBopState)]; rfl

def view (conn : BopConn) : Name × ConnType × Status := (conn.name, conn.type, conn.getBopState)

theorem union_congr {conns conns' : List BopConn} (same : conns'.map view = conns.map view) (p : Name → Bool) :
    union (conns'.filter fun conn => p conn.name) = union (conns.filter fun conn => p conn.name) := by
  induction conns generalizing conns' with
  | nil => rw [List.map_eq_nil_iff.mp same]
  | cons conn rest ih =>
    cases conns' with
    | nil => cases same
    | cons conn' rest' =>
      rw [List.map_cons, List.map_cons] at same
      injection same with head tail
      have name : conn'.name = conn.name := congrArg Prod.fst head
      have bop : conn'.getBopState = conn.getBopState := congrArg (·.2.2) head
      have rest_same := ih tail
      cases blocks : p conn.name with
      | true => simp only [List.filter_cons, name, blocks, if_true, union, bop, rest_same]
      | false => simp only [List.filter_cons, name, blocks, if_false, Bool.false_eq_true, rest_same]

theorem blocking_congr {c c' : BopMask} (same : c'.connections.map view = c.connections.map view)
    (config : c'.config = c.config) (device : Name) : c'.blocking device = c.blocking device := by
  unfold blocking
  rw [config]
  exact union_congr same (blockDevice c.config device)

theorem union_all_congr {conns conns' : List BopConn} (same : conns'.map view = conns.map view) :
    union conns' = union conns := by
  have all := union_congr same fun _ => true
  simpa using all

theorem sendBopMessage_view (c : BopMask) (conn : BopConn) : view (c.sendBopMessage conn) = view conn := rfl

theorem bopMaskChanged_view (c : BopMask) : c.bopMaskChanged.connections.map view = c.connections.map view := by
  simp only [bopMaskChanged, sendLoop_map, List.map_map]
  apply List.map_congr_left
  intro conn _
  simp only [Function.comp_apply]
  split
  · rfl
  · rfl

theorem bopMaskChanged_sent (c : BopMask) : c.bopMaskChanged.Sent := by
  intro conn' there device
  have blocks := blocking_congr (bopMaskChanged_view c) rfl conn'.name
  simp only [bopMaskChanged, sendLoop_map, List.mem_map] at there
  obtain ⟨conn, _, rfl⟩ := there
  by_cases is_device : conn.type = .device
  · rw [if_pos is_device] at blocks ⊢
    refine ⟨_, rfl, ?_⟩
    rw [blocks]
    exact getStateForConnection_bop _ is_device
  · rw [if_neg is_device] at device
    exact absurd device is_device

theorem bopMaskChanged_clear (c : BopMask) : c.bopMaskChanged.Clear := by
  have none_left : c.state &&& ~~~(deviceErrorMask ||| bopMask) &&& bopMask = 0 := by
    have masks : ~~~(deviceErrorMask ||| bopMask) &&& bopMask = 0 := by decide
    rw [BitVec.and_assoc, masks]
    exact BitVec.and_zero
  unfold Clear bopMaskChanged maskState
  rw [BitVec.and_or_distrib_right, none_left]
  exact BitVec.or_zero

theorem own_iff {c : BopMask} (clear : c.Clear) : c.Own ↔ ∀ conn ∈ c.connections, conn.getBopState = 0 := by
  rw [Own, clear, ← union_eq_zero]
  exact eq_comm

def told (conn : BopConn) : (Name × ConnType × Status) × Option Status := (view conn, conn.sent)

theorem view_of_told {conns conns' : List BopConn} (same : conns'.map told = conns.map told) :
    conns'.map view = conns.map view := by
  have first := congrArg (List.map Prod.fst) same
  simpa [List.map_map, Function.comp_def, told] using first

theorem sent_congr {c c' : BopMask} (same : c'.connections.map told = c.connections.map told)
    (config : c'.config = c.config) : c'.Sent ↔ c.Sent := by
  have sent (d d' : BopMask) (same : d'.connections.map told = d.connections.map told) (config : d'.config = d.config)
      (is_sent : d.Sent) : d'.Sent := by
    intro conn' there device
    have in_map : told conn' ∈ d.connections.map told := same ▸ List.mem_map_of_mem there
    obtain ⟨conn, there_too, told_same⟩ := List.mem_map.mp in_map
    injection told_same with same_view same_sent
    injection same_view with name rest
    injection rest with type _
    obtain ⟨sta, was_sent, bits⟩ := is_sent conn there_too (type.trans device)
    refine ⟨sta, same_sent ▸ was_sent, ?_⟩
    rw [bits, name]
    exact (blocking_congr (view_of_told same) config conn'.name).symm
  exact ⟨sent c' c same.symm config.symm, sent c c' same config⟩

theorem map_set_same {α β : Type} (f : α → β) (l : List α) {i : Nat} {old new : α} (at_i : l[i]? = some old)
    (same : f new = f old) : (l.set i new).map f = l.map f := by
  rw [List.map_set, same]
  have mapped : (l.map f)[i]? = some (f old) := by rw [List.getElem?_map, at_i]; rfl
  obtain ⟨inside, is_old⟩ := List.getElem?_eq_some_iff.mp mapped
  rw [← is_old]
  exact List.set_getElem_self inside

theorem setState_spec {c : BopMask} {i : Nat} {conn : BopConn} (at_i : c.connections[i]? = some conn) (value : Status)
    (good stop : Bool) : ∃ c' : BopMask,
      c'.connections = c.connections.set i { conn with state := value } ∧ c'.config = c.config ∧ (c.Clear → c'.Clear) ∧
      c.setState i value good stop =
        if conn.state &&& bopMask ≠ value &&& bopMask then c'.bopMaskChanged else c' := by
  unfold setState
  rw [at_i]
  refine ⟨_, ?_, ?_, ?_, rfl⟩
  · split <;> split <;> split <;> rfl
  · split <;> split <;> split <;> rfl
  · intro clear
    have listed : Clear { c with connections := c.connections.set i { conn with state := value } } := clear
    have ready (p : Prop) [Decidable p] (d : BopMask) (clear : d.Clear) :
        (if p then (d.setWeatherState good).setStopState stop else d).Clear := by
      split
      · exact setStopState_clear (setWeatherState_clear clear good) stop
      · exact clear
    have weather (p : Prop) [Decidable p] (d : BopMask) (clear : d.Clear) :
        (if p then d.setWeatherState good else d).Clear := by
      split
      · exact setWeatherState_clear clear good
      · exact clear
    have stops (p : Prop) [Decidable p] (d : BopMask) (clear : d.Clear) :
        (if p then d.setStopState stop else d).Clear := by
      split
      · exact setStopState_clear clear stop
      · exact clear
    exact stops _ _ (weather _ _ (ready _ _ listed))

theorem updateStatusWait_view (c : BopMask) (i : Nat) : (c.updateStatusWait i).connections.map view = c.connections.map view := by
  unfold updateStatusWait
  cases at_i : c.connections[i]? with
  | none => rfl
  | some conn => exact map_set_same view c.connections at_i (sendBopMessage_view c conn)

theorem updateStatusWait_sent {c : BopMask} (sent : c.Sent) (i : Nat) : (c.updateStatusWait i).Sent := by
  have views := updateStatusWait_view c i
  have config : (c.updateStatusWait i).config = c.config := by
    unfold updateStatusWait
    cases c.connections[i]? with
    | none => rfl
    | some conn => rfl
  intro conn' there device
  rw [blocking_congr views config]
  unfold updateStatusWait at there
  cases at_i : c.connections[i]? with
  | none =>
    rw [at_i] at there
    exact sent conn' there device
  | some conn =>
    rw [at_i] at there
    obtain before | rfl := List.mem_or_eq_of_mem_set there
    · exact sent conn' before device
    · exact ⟨_, rfl, getStateForConnection_bop c device⟩

theorem updateStatusWaits_kept (c : BopMask) (waits : List Nat) :
    (c.Sent → (waits.foldl updateStatusWait c).Sent) ∧
    (waits.foldl updateStatusWait c).connections.map view = c.connections.map view ∧
    (waits.foldl updateStatusWait c).state = c.state := by
  induction waits generalizing c with
  | nil => exact ⟨id, rfl, rfl⟩
  | cons i waits ih =>
    obtain ⟨sent, views, state⟩ := ih (c.updateStatusWait i)
    refine ⟨fun is_sent => sent (updateStatusWait_sent is_sent i), views.trans (updateStatusWait_view c i), state.trans ?_⟩
    unfold updateStatusWait
    cases c.connections[i]? with
    | none => rfl
    | some conn => rfl

theorem connectionRemoved_view (c : BopMask) (i : Nat) (good stop : Bool) (waits : List Nat) :
    (c.connectionRemoved i good stop waits).connections.map view = (c.connections.eraseIdx i).map view :=
  (updateStatusWaits_kept _ waits).2.1.trans (bopMaskChanged_view _)

theorem connectionRemoved_sent (c : BopMask) (i : Nat) (good stop : Bool) (waits : List Nat) :
    (c.connectionRemoved i good stop waits).Sent :=
  (updateStatusWaits_kept _ waits).1 (bopMaskChanged_sent _)

theorem connectionRemoved_clear (c : BopMask) (i : Nat) (good stop : Bool) (waits : List Nat) :
    (c.connectionRemoved i good stop waits).Clear := by
  unfold Clear connectionRemoved
  rw [(updateStatusWaits_kept _ waits).2.2]
  exact bopMaskChanged_clear _

theorem step_clear {c : BopMask} (clear : c.Clear) {e : BopEvent} (enabled : c.Enabled e) : (c.step e).Clear := by
  cases e with
  | accept => exact clear
  | login i in_name =>
    simp only [step, login]
    split
    · exact clear
    · split
      · exact clear
      · exact clear
  | register i reg_device =>
    simp only [step, register]
    split
    · exact clear
    · split
      · exact clear
      · exact clear
  | setState i value good stop =>
    obtain ⟨c', _, _, kept, spec⟩ := setState_spec (List.getElem?_eq_getElem enabled) value good stop
    simp only [step, spec]
    split
    · exact bopMaskChanged_clear c'
    · exact kept clear
  | connectionRemoved i good stop waits => exact connectionRemoved_clear c i good stop waits
  | updateStatusWait i =>
    simp only [step, updateStatusWait]
    split
    · exact clear
    · exact clear
  | weatherChanged good => exact setWeatherState_clear clear good
  | stopChanged stop => exact setStopState_clear clear stop
  | maskCentralState state_mask new_state => exact maskState_clear clear state_mask enabled
  | reloadConfig config => exact clear

theorem zero_of_view {conns conns' : List BopConn} (same : conns'.map view = conns.map view) :
    (∀ conn ∈ conns', conn.getBopState = 0) ↔ ∀ conn ∈ conns, conn.getBopState = 0 := by
  rw [← union_eq_zero, ← union_eq_zero, union_all_congr same]

theorem zero_of_set {conns : List BopConn} {i : Nat} (inside : i < conns.length) (conn : BopConn) :
    (∀ other ∈ conns.set i conn, other.getBopState = 0) ↔
      conn.getBopState = 0 ∧ ∀ other ∈ conns.eraseIdx i, other.getBopState = 0 := by
  induction conns generalizing i with
  | nil => exact absurd inside (Nat.not_lt_zero i)
  | cons first rest ih =>
    cases i with
    | zero => simp
    | succ i =>
      have later := ih (Nat.lt_of_succ_lt_succ inside)
      rw [List.set_cons_succ, List.eraseIdx_cons_succ, List.forall_mem_cons, List.forall_mem_cons, later]
      tauto

theorem obeys_iff {c : BopMask} (clear : c.Clear) {e : BopEvent} (enabled : c.Enabled e) : c.Obeys e ↔ c.Holds e := by
  have own := own_iff (step_clear clear enabled)
  cases e with
  | setState i value good stop =>
    obtain ⟨conn, at_i⟩ : ∃ conn, c.connections[i]? = some conn := ⟨_, List.getElem?_eq_getElem enabled⟩
    obtain ⟨c', conns, config, _, spec⟩ := setState_spec at_i value good stop
    have stepped : c.step (.setState i value good stop) =
        if conn.getBopState ≠ value &&& bopMask then c'.bopMaskChanged else c' := spec
    have views : (c.step (.setState i value good stop)).connections.map view = c'.connections.map view := by
      rw [stepped]
      split
      · exact bopMaskChanged_view c'
      · rfl
    have zero := zero_of_view views
    rw [conns, zero_of_set enabled] at zero
    have sent_iff : (c.step (.setState i value good stop)).Sent ↔
        (∃ conn, c.connections[i]? = some conn ∧ conn.getBopState ≠ value &&& bopMask) ∨ c.Sent := by
      rw [stepped]
      by_cases changed : conn.getBopState ≠ value &&& bopMask
      · rw [if_pos changed]
        exact iff_of_true (bopMaskChanged_sent c') (.inl ⟨conn, at_i, changed⟩)
      · rw [if_neg changed]
        have same_bop : ({ conn with state := value } : BopConn).getBopState = conn.getBopState :=
          (not_not.mp changed).symm
        have same : c'.connections.map told = c.connections.map told := by
          rw [conns]
          apply map_set_same told c.connections at_i
          simp only [told, view, same_bop]
        rw [sent_congr same config]
        refine ⟨.inr, fun either => either.resolve_left ?_⟩
        rintro ⟨conn', at_i', changed'⟩
        obtain rfl := Option.some.inj (at_i.symm.trans at_i')
        exact changed changed'
    have both : c.Obeys (.setState i value good stop) ↔ (c.step (.setState i value good stop)).Sent ∧
        (c.step (.setState i value good stop)).Own := Iff.rfl
    rw [both, sent_iff, own, zero]
    exact and_comm.trans and_assoc
  | connectionRemoved i good stop waits =>
    have zero := zero_of_view (connectionRemoved_view c i good stop waits)
    exact (and_iff_right (connectionRemoved_sent c i good stop waits)).trans (own.trans zero)
  | accept => exact Iff.rfl
  | login i in_name => exact Iff.rfl
  | register i reg_device => exact Iff.rfl
  | updateStatusWait i => exact Iff.rfl
  | weatherChanged good => exact Iff.rfl
  | stopChanged stop => exact Iff.rfl
  | maskCentralState state_mask new_state => exact Iff.rfl
  | reloadConfig config => exact Iff.rfl

/-- In a run every report and every removal leaves the unions right just where each of them finds nothing that
blocks. -/
theorem unions_right (config : List IniSection) (events : List BopEvent)
    (runs : Guarded step Enabled (init config) events) :
    Guarded step Obeys (init config) events ↔ Guarded step Holds (init config) events :=
  guarded_congr_invariant (P := Clear) (fun _ _ clear enabled _ => step_clear clear enabled)
    (fun _ _ clear enabled => obeys_iff clear enabled)
    (show (serverdHardOff ||| badWeather) &&& bopMask = 0 by decide) runs

/-- A camera that does not block goes, and the mount is told so. -/
theorem idle_camera_goes : Guarded step Obeys (init [])
    [.accept, .register 0 [67], .accept, .register 1 [84], .connectionRemoved 0 true false [0]] := by
  apply (unions_right [] _ ?_).mpr
  · exact ⟨trivial, trivial, trivial, trivial, by simp only [Holds]; decide, trivial⟩
  · exact ⟨trivial, trivial, trivial, trivial, by simp only [Enabled]; decide, trivial⟩

/-- A camera reports that it exposes: centrald does not carry the bit. -/
theorem exposure_lost : ¬ Guarded step Obeys (init [])
    [.accept, .register 0 [67], .setState 0 0x01000000 true false] := by
  rintro ⟨_, _, ⟨_, own⟩, _⟩
  exact absurd own (by unfold Own; decide)

end BopMask

end Rts2.Central
