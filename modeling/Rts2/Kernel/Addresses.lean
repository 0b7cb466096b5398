import Rts2.Lib.Run

/-! The connections of a block to the devices centrald announces. Records of addresses, connections and connections
that wait for the idle pass are kept apart, and every look-up for a connection reads the second list alone. -/
namespace Rts2.Kernel.Addresses

open Lib

def DEVICE_NAME_SIZE : Nat := 50

def deviceName (p_name : String) : String := String.ofList (p_name.toList.take (DEVICE_NAME_SIZE - 1))

structure NetworkAddress where
  host_num : Int
  centrald_num : Int
  centrald_id : Int
  name : String
  host : String
  port : Int
  type : Int
  reconnectAt : Nat
  reconnectTries : Nat
  lastReconnect : Nat

namespace NetworkAddress

def new (host_num centrald_num centrald_id : Int) (name host : String) (port type : Int) : NetworkAddress where
  host_num := host_num
  centrald_num := centrald_num
  centrald_id := centrald_id
  name := deviceName name
  host := host
  port := port
  type := type
  reconnectAt := 0
  reconnectTries := 0
  lastReconnect := 0

def isAddress (addr : NetworkAddress) (centrald_num : Int) (name : String) : Bool :=
  addr.centrald_num = centrald_num && addr.name = name

def isRegistration (addr : NetworkAddress) (host_num centrald_id : Int) (name : String) : Bool :=
  addr.host_num = host_num && addr.centrald_id = centrald_id && addr.name = name

def update (addr : NetworkAddress) (centrald_id : Int) (new_host : String) (new_port new_type : Int) : NetworkAddress :=
  { addr with
    centrald_id := centrald_id, host := new_host, port := new_port, type := new_type, reconnectAt := 0,
    reconnectTries := 0 }

def RECONNECT_GOOD_SEC : Nat := 60
def RECONNECT_FIRST_SEC : Nat := 10
def RECONNECT_MAX_SEC : Nat := 300

def delay (reconnectTries : Nat) : Nat := min (RECONNECT_FIRST_SEC <<< min reconnectTries 5) RECONNECT_MAX_SEC

def planReconnect (addr : NetworkAddress) (now : Nat) : NetworkAddress :=
  let reconnectTries := if now - addr.lastReconnect ≥ RECONNECT_GOOD_SEC then 0 else addr.reconnectTries
  { addr with reconnectTries := reconnectTries + 1, reconnectAt := now + delay reconnectTries }

def reconnectDue (addr : NetworkAddress) (now : Nat) : Bool := addr.reconnectAt > 0 && now ≥ addr.reconnectAt

def reconnectPlanned (addr : NetworkAddress) : Bool := addr.reconnectAt > 0

def reconnecting (addr : NetworkAddress) (now : Nat) : NetworkAddress :=
  { addr with reconnectAt := 0, lastReconnect := now }

end NetworkAddress

inductive ConnState where
  | unknow
  | resolvingDevice
  | connecting
  | inprogress
  | connected
  | broken
  | delete
  | authPending
  | authOk
  | authFailed
  deriving DecidableEq

/-- `ours` of a connection createClientConnection made; the others were accepted. -/
structure Connection where
  ours : Bool
  name : String
  centraldNum : Int
  conn_state : ConnState
  canDelete : Bool

/-- What init () of a new connection came to: the address or the socket failed, connect () is in progress, or the key
is asked for. -/
inductive Opened where
  | failed
  | inprogress
  | connected

def Opened.conn_state : Opened → ConnState
  | .failed => .connecting
  | .inprogress => .inprogress
  | .connected => .authPending

def Connection.new (addr : NetworkAddress) (opened : Opened) : Connection where
  ours := true
  name := addr.name
  centraldNum := addr.centrald_num
  conn_state := opened.conn_state
  canDelete := true

def Connection.isOpen (conn : Connection) : Bool := conn.conn_state ≠ .delete && conn.conn_state ≠ .broken

def Connection.leadsTo (conn : Connection) (name : String) : Bool :=
  conn.ours && conn.conn_state ≠ .delete && conn.name = name

/-- What a class of blocks answers for a name and a type: the devices it connects to, and those createClientConnection
makes a connection for. -/
structure Kind where
  willConnect : String → Int → Bool
  connects : String → Bool

structure Block where
  connections : List Connection
  connections_added : List Connection
  blockAddress : List NetworkAddress
  now : Nat

def changeFirst {α : Type} (test : α → Bool) (change : α → α) : List α → List α
  | [] => []
  | a :: rest => if test a then change a :: rest else a :: changeFirst test change rest

namespace Block

def init (now : Nat) : Block := ⟨[], [], [], now⟩

def getOpenConnection (b : Block) (name : String) : Option Connection := b.connections.find? fun conn => conn.name = name

def findAddress (b : Block) (centraldNum : Int) (name : String) : Option NetworkAddress :=
  b.blockAddress.find? fun addr => addr.isAddress centraldNum name

def findAddressName (b : Block) (name : String) : Option NetworkAddress :=
  b.blockAddress.find? fun addr => addr.name = name

def addConnection (b : Block) (conn : Connection) : Block :=
  { b with connections_added := b.connections_added ++ [conn] }

variable (kind : Kind)

def createClientConnection (b : Block) (addr : NetworkAddress) (opened : Opened) : Block :=
  if kind.connects addr.name then b.addConnection (.new addr opened) else b

def addAddress (b : Block) (in_addr : NetworkAddress) (opened : Opened) : Block :=
  match b.getOpenConnection in_addr.name with
  | some _ => b
  | none =>
    if kind.willConnect in_addr.name in_addr.type then b.createClientConnection kind in_addr opened else b

structure Announcement where
  host_num : Int
  centrald_num : Int
  centrald_id : Int
  name : String
  host : String
  port : Int
  type : Int

def device (b : Block) (p : Announcement) (opened : Opened) : Block :=
  let update := fun addr : NetworkAddress => addr.update p.centrald_id p.host p.port p.type
  match b.findAddress p.centrald_num p.name with
  | some addr =>
    { b with blockAddress := changeFirst (fun addr => addr.isAddress p.centrald_num p.name) update b.blockAddress }.addAddress
      kind (update addr) opened
  | none =>
    let addr := NetworkAddress.new p.host_num p.centrald_num p.centrald_id p.name p.host p.port p.type
    { b with blockAddress := b.blockAddress ++ [addr] }.addAddress kind addr opened

def deleteAddress (b : Block) (host_num centrald_id : Int) (name : String) : Block :=
  { b with blockAddress := b.blockAddress.eraseP fun addr => addr.isRegistration host_num centrald_id name }

def addressLost (b : Block) (conn : Connection) : Block :=
  match b.findAddress conn.centraldNum conn.name with
  | none => b
  | some addr =>
    if kind.willConnect addr.name addr.type then
      { b with
        blockAddress := changeFirst (fun addr => addr.isAddress conn.centraldNum conn.name)
          (fun addr => addr.planReconnect b.now) b.blockAddress }
    else b

/-- One turn of the loop of reconnectAddresses; the records it is through with are those of the state. -/
def reconnectAddress (opened : NetworkAddress → Opened) (b : Block) (addr : NetworkAddress) : Block :=
  if addr.reconnectDue b.now then
    let b := { b with blockAddress := b.blockAddress ++ [addr.reconnecting b.now] }
    match b.getOpenConnection addr.name with
    | some conn =>
      if conn.conn_state ≠ .delete then b else b.createClientConnection kind addr (opened addr)
    | none => b.createClientConnection kind addr (opened addr)
  else { b with blockAddress := b.blockAddress ++ [addr] }

def reconnectAddresses (b : Block) (opened : NetworkAddress → Opened) : Block :=
  b.blockAddress.foldl (reconnectAddress kind opened) { b with blockAddress := [] }

def idle (b : Block) (opened : NetworkAddress → Opened) : Block :=
  let b := b.reconnectAddresses kind opened
  { b with connections := b.connections ++ b.connections_added, connections_added := [] }

def getConnection (b : Block) (name : String) (opened : Opened) : Block :=
  match b.getOpenConnection name with
  | some _ => b
  | none =>
    match b.findAddressName name with
    | none => b
    | some addr => b.createClientConnection kind addr opened

structure Place where
  added : Bool
  index : Nat

def at_ (b : Block) (place : Place) : Option Connection :=
  if place.added then b.connections_added[place.index]? else b.connections[place.index]?

def change (b : Block) (place : Place) (f : Connection → Connection) : Block :=
  if place.added then { b with connections_added := b.connections_added.modify place.index f }
  else { b with connections := b.connections.modify place.index f }

def connectionError (b : Block) (place : Place) : Block :=
  match b.at_ place with
  | none => b
  | some conn =>
    let b := b.change place fun conn => { conn with conn_state := if conn.canDelete then .delete else .broken }
    if conn.isOpen && conn.name ≠ "" then b.addressLost kind conn else b

def deleteConnection (b : Block) (index : Nat) : Block :=
  match b.connections[index]? with
  | none => b
  | some conn => if conn.conn_state = .delete then { b with connections := b.connections.eraseIdx index } else b

end Block

/-- `progress` is every other change of the state of a connection; `left` and `named` are of a connection the other side
opened: its exit or its refused authorization, and this_device. -/
inductive Event where
  | device (p : Block.Announcement) (opened : Opened)
  | delete_device (host_num centrald_id : Int) (name : String)
  | connectionError (place : Block.Place)
  | getConnection (name : String) (opened : Opened)
  | idle (opened : NetworkAddress → Opened)
  | deleteConnection (index : Nat)
  | accepted
  | named (place : Block.Place) (centraldNum : Int) (name : String)
  | left (place : Block.Place)
  | progress (place : Block.Place) (conn_state : ConnState)
  | clock (seconds : Nat)

namespace Block

variable (kind : Kind)

def accepted : Connection := ⟨false, "", -1, .connected, true⟩

def step (b : Block) : Event → Block
  | .device p opened => b.device kind p opened
  | .delete_device host_num centrald_id name => b.deleteAddress host_num centrald_id name
  | .connectionError place => b.connectionError kind place
  | .getConnection name opened => b.getConnection kind name opened
  | .idle opened => b.idle kind opened
  | .deleteConnection index => b.deleteConnection index
  | .accepted => b.addConnection accepted
  | .named place centraldNum name =>
    b.change place fun conn => if conn.ours then conn else { conn with centraldNum := centraldNum, name := name }
  | .left place => b.change place fun conn => if conn.ours then conn else { conn with conn_state := .delete }
  | .progress place conn_state =>
    b.change place fun conn =>
      if conn.isOpen ∧ conn_state ≠ .delete ∧ conn_state ≠ .broken then { conn with conn_state := conn_state } else conn
  | .clock seconds => { b with now := b.now + seconds }

def held (b : Block) (name : String) : Nat := (b.connections ++ b.connections_added).countP fun conn => conn.leadsTo name

def wanted (addr : NetworkAddress) : Bool := kind.willConnect addr.name addr.type && kind.connects addr.name

def Known (records : List NetworkAddress) (name : String) : Prop :=
  ∃ addr ∈ records, addr.name = name ∧ wanted kind addr

def Planned (records : List NetworkAddress) (name : String) : Prop :=
  ∃ addr ∈ records, addr.name = name ∧ addr.reconnectPlanned

/-- At most one connection to each device, and one or a reconnect to each wanted device whose address is known. -/
structure Right (b : Block) : Prop where
  one : ∀ name, b.held name ≤ 1
  served : ∀ name, Known kind b.blockAddress name →
    0 < b.held name ∨ ∃ addr ∈ b.blockAddress, addr.name = name ∧ addr.reconnectPlanned ∧ addr.reconnectAt ≤ b.now + 300

def announced (b : Block) (p : Announcement) : NetworkAddress :=
  match b.findAddress p.centrald_num p.name with
  | some addr => addr.update p.centrald_id p.host p.port p.type
  | none => .new p.host_num p.centrald_num p.centrald_id p.name p.host p.port p.type

def others (b : Block) (p : Announcement) : List NetworkAddress :=
  b.blockAddress.eraseP fun addr => addr.isAddress p.centrald_num p.name

def Blocked (b : Block) (name : String) : Prop := ∃ conn, b.getOpenConnection name = some conn ∧ conn.conn_state ≠ .delete

/-- A connection or a reconnect to the name is left, when a wanted device of the name is among the records. -/
def Left (b : Block) (records : List NetworkAddress) (name : String) : Prop :=
  Known kind records name → 0 < b.held name ∨ Planned records name

/-- No connection the look-up misses stands beside a new one, and a plan is given up only for a connection. -/
def Holds (b : Block) : Event → Prop
  | .device p _ =>
    let addr := b.announced p
    if (b.getOpenConnection addr.name).isNone ∧ wanted kind addr then b.held addr.name = 0
    else Known kind (addr :: b.others p) addr.name → 0 < b.held addr.name ∨ Planned (b.others p) addr.name
  | .delete_device host_num centrald_id name =>
    b.Left kind (b.blockAddress.eraseP fun addr => addr.isRegistration host_num centrald_id name) name
  | .connectionError place =>
    ∀ conn, b.at_ place = some conn → conn.leadsTo conn.name → Known kind b.blockAddress conn.name →
      Planned b.blockAddress conn.name ∨
        conn.name ≠ "" ∧ ∃ addr, b.findAddress conn.centraldNum conn.name = some addr ∧ kind.willConnect addr.name addr.type
  | .getConnection name _ =>
    b.getOpenConnection name = none →
      ∀ addr, b.findAddressName name = some addr → kind.connects name → b.held name = 0
  | .idle _ =>
    ∀ addr ∈ b.blockAddress, addr.reconnectDue b.now → kind.connects addr.name →
      (b.Blocked addr.name →
        0 < b.held addr.name ∨
          ∃ later ∈ b.blockAddress, later.name = addr.name ∧ later.reconnectPlanned ∧ ¬ later.reconnectDue b.now) ∧
      (¬ b.Blocked addr.name →
        b.held addr.name = 0 ∧
          b.blockAddress.countP (fun due => due.reconnectDue b.now && due.name = addr.name) = 1)
  | _ => True

end Block

section Lists

variable {α : Type} {test : α → Bool} {change : α → α}

theorem mem_eraseP_find {a : α} {list : List α} (found : list.find? test = some a) (x : α) :
    x ∈ list ↔ x = a ∨ x ∈ list.eraseP test := by
  induction list with
  | nil => cases found
  | cons b rest ih =>
    cases tested : test b with
    | true =>
      rw [List.find?_cons_of_pos tested] at found
      rw [List.eraseP_cons_of_pos tested, ← Option.some.inj found, List.mem_cons]
    | false =>
      rw [List.find?_cons_of_neg (by simp [tested])] at found
      rw [List.eraseP_cons_of_neg (by simp [tested]), List.mem_cons, List.mem_cons, ih found]
      exact or_left_comm

theorem mem_changeFirst (change : α → α) {a : α} {list : List α} (found : list.find? test = some a) (x : α) :
    x ∈ changeFirst test change list ↔ x = change a ∨ x ∈ list.eraseP test := by
  induction list with
  | nil => cases found
  | cons b rest ih =>
    unfold changeFirst
    cases tested : test b with
    | true =>
      rw [List.find?_cons_of_pos tested] at found
      rw [List.eraseP_cons_of_pos tested, ← Option.some.inj found, if_pos rfl, List.mem_cons]
    | false =>
      rw [List.find?_cons_of_neg (by simp [tested])] at found
      rw [List.eraseP_cons_of_neg (by simp [tested]), if_neg Bool.false_ne_true, List.mem_cons, List.mem_cons, ih found]
      exact or_left_comm

theorem countP_modify (test : α → Bool) (change : α → α) {a : α} {list : List α} {i : Nat} (at_i : list[i]? = some a) :
    (list.modify i change).countP test + (if test a then 1 else 0) = list.countP test + if test (change a) then 1 else 0 := by
  induction list generalizing i with
  | nil => cases at_i
  | cons b rest ih =>
    cases i with
    | zero =>
      cases at_i
      simp only [List.modify_zero_cons, List.countP_cons]
      omega
    | succ i =>
      have same := ih at_i
      simp only [List.modify_succ_cons, List.countP_cons]
      omega

theorem countP_modify_same (same : ∀ a, test (change a) = test a) (list : List α) (i : Nat) :
    (list.modify i change).countP test = list.countP test := by
  cases at_i : list[i]? with
  | none => rw [List.modify_eq_self (List.getElem?_eq_none_iff.mp at_i)]
  | some a =>
    have counted := countP_modify test change at_i
    rw [same a] at counted
    exact Nat.add_right_cancel counted

theorem countP_eraseIdx {a : α} {list : List α} {i : Nat} (at_i : list[i]? = some a) (fails : test a = false) :
    (list.eraseIdx i).countP test = list.countP test := by
  induction list generalizing i with
  | nil => cases at_i
  | cons b rest ih =>
    cases i with
    | zero =>
      cases at_i
      rw [List.eraseIdx_zero, List.tail_cons, List.countP_cons_of_neg (by simp [fails])]
    | succ i => rw [List.eraseIdx_cons_succ, List.countP_cons, List.countP_cons, ih at_i]

theorem mem_modify_of {list : List α} {i : Nat} {x : α} (mem : x ∈ list.modify i change) :
    x ∈ list ∨ ∃ a ∈ list, x = change a := by
  induction list generalizing i with
  | nil => cases i <;> cases mem
  | cons b rest ih =>
    cases i with
    | zero =>
      rw [List.modify_zero_cons, List.mem_cons] at mem
      cases mem with
      | inl changed => exact .inr ⟨b, List.mem_cons_self .., changed⟩
      | inr kept => exact .inl (List.mem_cons_of_mem _ kept)
    | succ i =>
      rw [List.modify_succ_cons, List.mem_cons] at mem
      cases mem with
      | inl first => exact .inl (first ▸ List.mem_cons_self ..)
      | inr later =>
        cases ih later with
        | inl kept => exact .inl (List.mem_cons_of_mem _ kept)
        | inr changed =>
          obtain ⟨a, mem_a, changed⟩ := changed
          exact .inr ⟨a, List.mem_cons_of_mem _ mem_a, changed⟩

end Lists

namespace Block

variable {kind : Kind} {b : Block}

/-- The next attempt is at most 300 s away, a plan is of a device this block connects to, and a connection of ours is
never broken. -/
structure Sound (kind : Kind) (b : Block) : Prop where
  soon : ∀ addr ∈ b.blockAddress, addr.reconnectAt ≤ b.now + 300
  willing : ∀ addr ∈ b.blockAddress, addr.reconnectPlanned → kind.willConnect addr.name addr.type
  ours : ∀ conn ∈ b.connections ++ b.connections_added, conn.ours → conn.canDelete ∧ conn.conn_state ≠ .broken

def Served (kind : Kind) (b : Block) : Prop :=
  (∀ name, b.held name ≤ 1) ∧ ∀ name, b.Left kind b.blockAddress name

theorem right_iff (soon : ∀ addr ∈ b.blockAddress, addr.reconnectAt ≤ b.now + 300) : b.Right kind ↔ b.Served kind := by
  constructor
  · intro right
    refine ⟨right.one, fun name known => (right.served name known).imp_right ?_⟩
    exact fun ⟨addr, mem, named, planned, _⟩ => ⟨addr, mem, named, planned⟩
  · intro ⟨one, served⟩
    refine ⟨one, fun name known => (served name known).imp_right ?_⟩
    exact fun ⟨addr, mem, named, planned⟩ => ⟨addr, mem, named, planned, soon addr mem⟩

theorem served_congr {b' : Block} (held : ∀ name, b'.held name = b.held name) (records : b'.blockAddress = b.blockAddress) :
    b'.Served kind ↔ b.Served kind := by
  unfold Served Left
  simp only [held, records]

theorem delay_le (reconnectTries : Nat) : NetworkAddress.delay reconnectTries ≤ 300 := Nat.min_le_right _ _

@[simp] theorem leadsTo_new (addr : NetworkAddress) (opened : Opened) (name : String) :
    (Connection.new addr opened).leadsTo name = decide (addr.name = name) := by
  cases opened <;> rfl

theorem held_addConnection (b : Block) (conn : Connection) (name : String) :
    (b.addConnection conn).held name = b.held name + if conn.leadsTo name then 1 else 0 := by
  unfold held addConnection
  rw [← List.append_assoc, List.countP_append, List.countP_singleton]

theorem held_createClientConnection (kind : Kind) (b : Block) (addr : NetworkAddress) (opened : Opened) (name : String) :
    (b.createClientConnection kind addr opened).held name =
      b.held name + if kind.connects addr.name ∧ addr.name = name then 1 else 0 := by
  unfold createClientConnection
  by_cases connects : kind.connects addr.name = true
  · rw [if_pos connects, held_addConnection]
    simp [connects]
  · rw [if_neg connects]
    simp [connects]

theorem createClientConnection_kept (kind : Kind) (b : Block) (addr : NetworkAddress) (opened : Opened) :
    (b.createClientConnection kind addr opened).blockAddress = b.blockAddress ∧
    (b.createClientConnection kind addr opened).connections = b.connections ∧
    (b.createClientConnection kind addr opened).now = b.now := by
  unfold createClientConnection addConnection
  split <;> exact ⟨rfl, rfl, rfl⟩

theorem createClientConnection_ours (b : Block) (addr : NetworkAddress) (opened : Opened) {conn : Connection}
    (mem : conn ∈ (b.createClientConnection kind addr opened).connections_added) :
    conn ∈ b.connections_added ∨ conn = .new addr opened := by
  unfold createClientConnection addConnection at mem
  split at mem
  · simpa using mem
  · exact .inl mem

theorem new_ours (addr : NetworkAddress) (opened : Opened) :
    (Connection.new addr opened).canDelete ∧ (Connection.new addr opened).conn_state ≠ .broken := by
  cases opened <;> exact ⟨rfl, nofun⟩

theorem Sound.createClientConnection (sound : b.Sound kind) (addr : NetworkAddress) (opened : Opened) :
    (b.createClientConnection kind addr opened).Sound kind := by
  obtain ⟨records, connections, now⟩ := createClientConnection_kept kind b addr opened
  refine ⟨?_, ?_, ?_⟩
  · rw [records, now]
    exact sound.soon
  · rw [records]
    exact sound.willing
  · intro conn mem ours
    rw [List.mem_append, connections] at mem
    cases mem with
    | inl listed => exact sound.ours conn (List.mem_append_left _ listed) ours
    | inr waiting =>
      cases createClientConnection_ours b addr opened waiting with
      | inl before => exact sound.ours conn (List.mem_append_right _ before) ours
      | inr made => exact made ▸ new_ours addr opened

theorem held_change {place : Place} {conn : Connection} (at_place : b.at_ place = some conn)
    (f : Connection → Connection) (name : String) :
    (b.change place f).held name + (if conn.leadsTo name then 1 else 0) =
      b.held name + if (f conn).leadsTo name then 1 else 0 := by
  unfold at_ at at_place
  unfold change held
  cases added : place.added with
  | true =>
    rw [added, if_pos rfl] at at_place
    have counted := countP_modify (fun conn => conn.leadsTo name) f at_place
    simp only [if_pos, List.countP_append]
    omega
  | false =>
    rw [added, if_neg Bool.false_ne_true] at at_place
    have counted := countP_modify (fun conn => conn.leadsTo name) f at_place
    simp only [if_neg Bool.false_ne_true, List.countP_append]
    omega

theorem held_change_same (b : Block) (place : Place) {f : Connection → Connection}
    (same : ∀ conn name, (f conn).leadsTo name = conn.leadsTo name) (name : String) :
    (b.change place f).held name = b.held name := by
  unfold change held
  split
  · rw [List.countP_append, countP_modify_same (fun conn => same conn name), List.countP_append]
  · rw [List.countP_append, countP_modify_same (fun conn => same conn name), List.countP_append]

@[simp] theorem change_blockAddress (b : Block) (place : Place) (f : Connection → Connection) :
    (b.change place f).blockAddress = b.blockAddress := by
  unfold change
  split <;> rfl

@[simp] theorem change_now (b : Block) (place : Place) (f : Connection → Connection) :
    (b.change place f).now = b.now := by
  unfold change
  split <;> rfl

theorem Sound.change (sound : b.Sound kind) (place : Place) {f : Connection → Connection}
    (kept : ∀ conn, (conn.ours → conn.canDelete ∧ conn.conn_state ≠ .broken) → (f conn).ours →
      (f conn).canDelete ∧ (f conn).conn_state ≠ .broken) : (b.change place f).Sound kind := by
  refine ⟨?_, ?_, ?_⟩
  · rw [change_blockAddress, change_now]
    exact sound.soon
  · rw [change_blockAddress]
    exact sound.willing
  · intro conn mem
    have from_ : conn ∈ b.connections ++ b.connections_added ∨
        ∃ old ∈ b.connections ++ b.connections_added, conn = f old := by
      unfold Block.change at mem
      split at mem
      · cases List.mem_append.mp mem with
        | inl listed => exact .inl (List.mem_append_left _ listed)
        | inr waiting =>
          refine (mem_modify_of waiting).imp (List.mem_append_right _) ?_
          exact fun ⟨old, old_mem, changed⟩ => ⟨old, List.mem_append_right _ old_mem, changed⟩
      · cases List.mem_append.mp mem with
        | inl listed =>
          refine (mem_modify_of listed).imp (List.mem_append_left _) ?_
          exact fun ⟨old, old_mem, changed⟩ => ⟨old, List.mem_append_left _ old_mem, changed⟩
        | inr waiting => exact .inl (List.mem_append_right _ waiting)
    cases from_ with
    | inl same => exact sound.ours conn same
    | inr changed =>
      obtain ⟨old, old_mem, rfl⟩ := changed
      exact kept old (sound.ours old old_mem)

theorem addAddress_cases (b : Block) (in_addr : NetworkAddress) (opened : Opened) :
    b.addAddress kind in_addr opened =
      if (b.getOpenConnection in_addr.name).isNone ∧ kind.willConnect in_addr.name in_addr.type then
        b.createClientConnection kind in_addr opened
      else b := by
  unfold addAddress
  cases b.getOpenConnection in_addr.name with
  | some conn => exact (if_neg fun both => Bool.false_ne_true both.1).symm
  | none => simp

theorem Sound.addAddress (sound : b.Sound kind) (in_addr : NetworkAddress) (opened : Opened) :
    (b.addAddress kind in_addr opened).Sound kind := by
  rw [addAddress_cases]
  split
  · exact sound.createClientConnection in_addr opened
  · exact sound

theorem Sound.records (sound : b.Sound kind) {records : List NetworkAddress}
    (kept : ∀ addr ∈ records, addr ∈ b.blockAddress ∨ addr.reconnectAt = 0) :
    ({ b with blockAddress := records } : Block).Sound kind := by
  refine ⟨fun addr mem => ?_, fun addr mem planned => ?_, sound.ours⟩
  · cases kept addr mem with
    | inl old => exact sound.soon addr old
    | inr none => exact none ▸ Nat.zero_le _
  · cases kept addr mem with
    | inl old => exact sound.willing addr old planned
    | inr none => simp [NetworkAddress.reconnectPlanned, none] at planned

def announce (b : Block) (p : Announcement) : List NetworkAddress :=
  match b.findAddress p.centrald_num p.name with
  | some _ =>
    changeFirst (fun addr => addr.isAddress p.centrald_num p.name)
      (fun addr => addr.update p.centrald_id p.host p.port p.type) b.blockAddress
  | none => b.blockAddress ++ [b.announced p]

theorem device_eq (b : Block) (p : Announcement) (opened : Opened) :
    b.device kind p opened = { b with blockAddress := b.announce p }.addAddress kind (b.announced p) opened := by
  unfold device announce announced
  cases b.findAddress p.centrald_num p.name <;> rfl

theorem announced_plan (b : Block) (p : Announcement) : (b.announced p).reconnectAt = 0 := by
  unfold announced
  cases b.findAddress p.centrald_num p.name <;> rfl

theorem mem_announce (b : Block) (p : Announcement) (addr : NetworkAddress) :
    addr ∈ b.announce p ↔ addr = b.announced p ∨ addr ∈ b.others p := by
  unfold announce announced others
  cases found : b.findAddress p.centrald_num p.name with
  | some old => exact mem_changeFirst _ found addr
  | none =>
    rw [List.eraseP_of_forall_not (List.find?_eq_none.mp found), List.mem_append, List.mem_singleton]
    exact or_comm

theorem mem_old (b : Block) (p : Announcement) (addr : NetworkAddress) (other : addr.name ≠ (b.announced p).name) :
    addr ∈ b.announce p ↔ addr ∈ b.blockAddress := by
  unfold announce
  unfold announced at other
  cases found : b.findAddress p.centrald_num p.name with
  | some old =>
    rw [found] at other
    have new : addr ≠ old.update p.centrald_id p.host p.port p.type := fun same => other (same ▸ rfl)
    have was : addr ≠ old := fun same => other (same ▸ rfl)
    exact ((mem_changeFirst _ found addr).trans (or_iff_right new)).trans
      ((mem_eraseP_find found addr).trans (or_iff_right was)).symm
  | none =>
    rw [found] at other
    rw [List.mem_append, List.mem_singleton]
    refine or_iff_left fun same => other ?_
    rw [same]
    unfold announced
    rw [found]

theorem Sound.device (sound : b.Sound kind) (p : Announcement) (opened : Opened) : (b.device kind p opened).Sound kind := by
  rw [device_eq]
  refine (sound.records fun addr mem => ?_).addAddress _ opened
  cases (mem_announce b p addr).mp mem with
  | inl new => exact .inr (new ▸ announced_plan b p)
  | inr other => exact .inl (List.mem_of_mem_eraseP other)

theorem Sound.addressLost (sound : b.Sound kind) (conn : Connection) : (b.addressLost kind conn).Sound kind := by
  unfold Block.addressLost
  cases found : b.findAddress conn.centraldNum conn.name with
  | none => exact sound
  | some addr =>
    by_cases willing : kind.willConnect addr.name addr.type = true
    · simp only [if_pos willing]
      refine ⟨fun record mem => ?_, fun record mem planned => ?_, sound.ours⟩
      · cases (mem_changeFirst _ found record).mp mem with
        | inl lost =>
          rw [lost]
          exact Nat.add_le_add_left (delay_le _) _
        | inr other => exact sound.soon record (List.mem_of_mem_eraseP other)
      · cases (mem_changeFirst _ found record).mp mem with
        | inl lost =>
          rw [lost]
          exact willing
        | inr other => exact sound.willing record (List.mem_of_mem_eraseP other) planned
    · simp only [if_neg willing]
      exact sound

theorem Sound.connectionError (sound : b.Sound kind) (place : Place) : (b.connectionError kind place).Sound kind := by
  have dropped : (b.change place fun conn =>
      { conn with conn_state := if conn.canDelete then .delete else .broken }).Sound kind := by
    refine sound.change place fun conn kept ours => ?_
    have canDelete := (kept ours).1
    exact ⟨canDelete, by simp [canDelete]⟩
  unfold Block.connectionError
  cases b.at_ place with
  | none => exact sound
  | some conn =>
    dsimp only
    split
    · exact dropped.addressLost conn
    · exact dropped

theorem Sound.deleteConnection (sound : b.Sound kind) (index : Nat) : (b.deleteConnection index).Sound kind := by
  unfold Block.deleteConnection
  cases b.connections[index]? with
  | none => exact sound
  | some conn =>
    dsimp only
    split
    · refine ⟨sound.soon, sound.willing, fun other mem => sound.ours other ?_⟩
      cases List.mem_append.mp mem with
      | inl listed => exact List.mem_append_left _ (List.mem_of_mem_eraseIdx listed)
      | inr waiting => exact List.mem_append_right _ waiting
    · exact sound

theorem Sound.getConnection (sound : b.Sound kind) (name : String) (opened : Opened) :
    (b.getConnection kind name opened).Sound kind := by
  unfold Block.getConnection
  cases b.getOpenConnection name with
  | some conn => exact sound
  | none =>
    cases b.findAddressName name with
    | none => exact sound
    | some addr => exact sound.createClientConnection addr opened

def turned (now : Nat) (addr : NetworkAddress) : NetworkAddress :=
  if addr.reconnectDue now then addr.reconnecting now else addr

def reopens (kind : Kind) (b : Block) (addr : NetworkAddress) : Bool :=
  addr.reconnectDue b.now && (b.getOpenConnection addr.name).all (fun conn => conn.conn_state = .delete) &&
    kind.connects addr.name

theorem blocked_iff (b : Block) (name : String) :
    b.Blocked name ↔ (b.getOpenConnection name).all (fun conn => conn.conn_state = .delete) = false := by
  unfold Blocked
  cases b.getOpenConnection name with
  | none => simp
  | some conn => simp

theorem reconnectAddress_eq (opened : NetworkAddress → Opened) (b : Block) (addr : NetworkAddress) :
    b.reconnectAddress kind opened addr =
      if addr.reconnectDue b.now && (b.getOpenConnection addr.name).all (fun conn => conn.conn_state = .delete) then
        { b with blockAddress := b.blockAddress ++ [turned b.now addr] }.createClientConnection kind addr (opened addr)
      else { b with blockAddress := b.blockAddress ++ [turned b.now addr] } := by
  unfold reconnectAddress turned
  cases due : addr.reconnectDue b.now with
  | false => rfl
  | true =>
    simp only [if_pos, Bool.true_and]
    have same : Block.getOpenConnection { b with blockAddress := b.blockAddress ++ [addr.reconnecting b.now] } addr.name =
        b.getOpenConnection addr.name := rfl
    rw [same]
    cases b.getOpenConnection addr.name with
    | none => rfl
    | some conn =>
      by_cases deleted : conn.conn_state = ConnState.delete
      · simp [deleted]
      · simp [deleted]

theorem reconnectAddress_step (kind : Kind) (opened : NetworkAddress → Opened) (b : Block) (addr : NetworkAddress) :
    (b.reconnectAddress kind opened addr).blockAddress = b.blockAddress ++ [turned b.now addr] ∧
    (b.reconnectAddress kind opened addr).connections = b.connections ∧
    (b.reconnectAddress kind opened addr).now = b.now ∧
    ∀ name, (b.reconnectAddress kind opened addr).held name =
      b.held name + if reopens kind b addr && addr.name = name then 1 else 0 := by
  rw [reconnectAddress_eq]
  unfold reopens
  cases addr.reconnectDue b.now && (b.getOpenConnection addr.name).all (fun conn => conn.conn_state = .delete) with
  | false => exact ⟨rfl, rfl, rfl, fun _ => rfl⟩
  | true =>
    rw [if_pos rfl]
    obtain ⟨records, connections, now⟩ := createClientConnection_kept kind
      { b with blockAddress := b.blockAddress ++ [turned b.now addr] } addr (opened addr)
    refine ⟨records, connections, now, fun name => ?_⟩
    rw [held_createClientConnection kind]
    simp [Block.held]

theorem reconnect_loop (kind : Kind) (opened : NetworkAddress → Opened) (records : List NetworkAddress) (b : Block) :
    (records.foldl (reconnectAddress kind opened) b).blockAddress = b.blockAddress ++ records.map (turned b.now) ∧
    (records.foldl (reconnectAddress kind opened) b).connections = b.connections ∧
    (records.foldl (reconnectAddress kind opened) b).now = b.now ∧
    ∀ name, (records.foldl (reconnectAddress kind opened) b).held name =
      b.held name + records.countP fun addr => reopens kind b addr && addr.name = name := by
  induction records generalizing b with
  | nil => exact ⟨(List.append_nil _).symm, rfl, rfl, fun _ => rfl⟩
  | cons addr rest ih =>
    obtain ⟨records, connections, now, held⟩ := reconnectAddress_step kind opened b addr
    obtain ⟨rest_records, rest_connections, rest_now, rest_held⟩ := ih (b.reconnectAddress kind opened addr)
    have same : reopens kind (b.reconnectAddress kind opened addr) = reopens kind b := by
      funext other
      unfold reopens getOpenConnection
      rw [connections, now]
    rw [List.foldl_cons]
    refine ⟨?_, rest_connections.trans connections, rest_now.trans now, fun name => ?_⟩
    · rw [rest_records, records, now, List.append_assoc]
      rfl
    · rw [rest_held name, held name, same, List.countP_cons]
      omega

theorem idle_records (kind : Kind) (b : Block) (opened : NetworkAddress → Opened) :
    (b.idle kind opened).blockAddress = b.blockAddress.map (turned b.now) ∧ (b.idle kind opened).now = b.now := by
  obtain ⟨records, _, now, _⟩ := reconnect_loop kind opened b.blockAddress { b with blockAddress := [] }
  exact ⟨records, now⟩

theorem idle_held (kind : Kind) (b : Block) (opened : NetworkAddress → Opened) (name : String) :
    (b.idle kind opened).held name =
      b.held name + b.blockAddress.countP fun addr => reopens kind b addr && addr.name = name := by
  obtain ⟨_, _, _, held⟩ := reconnect_loop kind opened b.blockAddress { b with blockAddress := [] }
  refine Eq.trans ?_ (held name)
  unfold idle Block.held reconnectAddresses
  rw [List.append_nil]

theorem reconnectAddress_ours (opened : NetworkAddress → Opened) (b : Block) (addr : NetworkAddress) {conn : Connection}
    (mem : conn ∈ (b.reconnectAddress kind opened addr).connections_added) :
    conn ∈ b.connections_added ∨ ∃ addr opened, conn = .new addr opened := by
  rw [reconnectAddress_eq] at mem
  split at mem
  · exact (createClientConnection_ours _ addr (opened addr) mem).imp_right fun new => ⟨_, _, new⟩
  · exact .inl mem

theorem reconnect_loop_ours (opened : NetworkAddress → Opened) (records : List NetworkAddress) (b : Block)
    {conn : Connection} (mem : conn ∈ (records.foldl (reconnectAddress kind opened) b).connections_added) :
    conn ∈ b.connections_added ∨ ∃ addr opened, conn = .new addr opened := by
  induction records generalizing b with
  | nil => exact .inl mem
  | cons addr rest ih =>
    cases ih (b.reconnectAddress kind opened addr) mem with
    | inl waiting => exact reconnectAddress_ours opened b addr waiting
    | inr new => exact .inr new

theorem Sound.idle (sound : b.Sound kind) (opened : NetworkAddress → Opened) : (b.idle kind opened).Sound kind := by
  obtain ⟨records, now⟩ := idle_records kind b opened
  refine ⟨fun addr mem => ?_, fun addr mem planned => ?_, fun conn mem ours => ?_⟩
  · rw [records] at mem
    obtain ⟨old, old_mem, rfl⟩ := List.mem_map.mp mem
    rw [now]
    unfold turned
    split
    · exact Nat.zero_le _
    · exact sound.soon old old_mem
  · rw [records] at mem
    obtain ⟨old, old_mem, rfl⟩ := List.mem_map.mp mem
    unfold turned at planned ⊢
    split at planned
    · simp [NetworkAddress.reconnecting, NetworkAddress.reconnectPlanned] at planned
    · rename_i not_due
      rw [if_neg not_due]
      exact sound.willing old old_mem planned
  · obtain ⟨_, connections, _, _⟩ := reconnect_loop kind opened b.blockAddress { b with blockAddress := [] }
    change conn ∈ (_ ++ _) ++ [] at mem
    rw [List.append_nil, List.mem_append] at mem
    cases mem with
    | inl listed => exact sound.ours conn (List.mem_append_left _ (connections ▸ listed)) ours
    | inr waiting =>
      cases reconnect_loop_ours opened b.blockAddress _ waiting with
      | inl before => exact sound.ours conn (List.mem_append_right _ before) ours
      | inr made =>
        obtain ⟨addr, opened, rfl⟩ := made
        exact new_ours addr opened

theorem step_sound (sound : b.Sound kind) (e : Event) : (b.step kind e).Sound kind := by
  cases e with
  | device p opened => exact sound.device p opened
  | delete_device host_num centrald_id name =>
    exact sound.records fun addr mem => .inl (List.mem_of_mem_eraseP mem)
  | connectionError place => exact sound.connectionError place
  | getConnection name opened => exact sound.getConnection name opened
  | idle opened => exact sound.idle opened
  | deleteConnection index => exact sound.deleteConnection index
  | accepted =>
    refine ⟨sound.soon, sound.willing, fun other mem ours => ?_⟩
    cases List.mem_append.mp mem with
    | inl listed => exact sound.ours other (List.mem_append_left _ listed) ours
    | inr waiting =>
      cases List.mem_append.mp waiting with
      | inl before => exact sound.ours other (List.mem_append_right _ before) ours
      | inr new =>
        rw [List.mem_singleton.mp new] at ours
        cases ours
  | named place centraldNum name =>
    refine sound.change place fun conn kept ours => ?_
    split at ours
    · rename_i own
      simpa [own] using kept own
    · rename_i other
      exact absurd ours other
  | left place =>
    refine sound.change place fun conn kept ours => ?_
    split at ours
    · rename_i own
      simpa [own] using kept own
    · rename_i other
      exact absurd ours other
  | progress place conn_state =>
    refine sound.change place fun conn kept ours => ?_
    split at ours
    · rename_i goes
      rw [if_pos goes]
      exact ⟨(kept ours).1, goes.2.2⟩
    · rename_i stays
      rw [if_neg stays]
      exact kept ours
  | clock seconds =>
    exact ⟨fun addr mem => (sound.soon addr mem).trans (by simp [step]), sound.willing, sound.ours⟩

theorem Known.of_mem {records : List NetworkAddress} {addr : NetworkAddress} (mem : addr ∈ records)
    (wanted : wanted kind addr) : Known kind records addr.name := ⟨addr, mem, rfl, wanted⟩

theorem left_congr {b' : Block} {records records' : List NetworkAddress} {name : String}
    (same : ∀ addr : NetworkAddress, addr.name = name → (addr ∈ records' ↔ addr ∈ records))
    (held : b'.held name = b.held name) : b'.Left kind records' name ↔ b.Left kind records name := by
  have known : Known kind records' name ↔ Known kind records name :=
    exists_congr fun addr => ⟨fun ⟨mem, named, wanted⟩ => ⟨(same addr named).mp mem, named, wanted⟩,
      fun ⟨mem, named, wanted⟩ => ⟨(same addr named).mpr mem, named, wanted⟩⟩
  have planned : Planned records' name ↔ Planned records name :=
    exists_congr fun addr => ⟨fun ⟨mem, named, plan⟩ => ⟨(same addr named).mp mem, named, plan⟩,
      fun ⟨mem, named, plan⟩ => ⟨(same addr named).mpr mem, named, plan⟩⟩
  unfold Left
  rw [known, planned, held]

theorem created_served (served : b.Served kind) (addr : NetworkAddress) (connects : kind.connects addr.name)
    {b' : Block} (held : ∀ name, b'.held name = b.held name + if kind.connects addr.name ∧ addr.name = name then 1 else 0)
    (others : ∀ name, name ≠ addr.name → (b'.Left kind b'.blockAddress name ↔ b.Left kind b.blockAddress name)) :
    b'.Served kind ↔ b.held addr.name = 0 := by
  have new : b'.held addr.name = b.held addr.name + 1 := by
    rw [held, if_pos ⟨connects, rfl⟩]
  constructor
  · intro after
    have one := after.1 addr.name
    omega
  · intro free
    refine ⟨fun name => ?_, fun name => ?_⟩
    · by_cases same : addr.name = name
      · rw [← same]
        omega
      · rw [held, if_neg fun both => same both.2]
        exact served.1 name
    · by_cases same : name = addr.name
      · rw [same]
        exact fun _ => .inl (by omega)
      · exact (others name same).mpr (served.2 name)

theorem device_served (served : b.Served kind) (p : Announcement) (opened : Opened) :
    (b.device kind p opened).Served kind ↔ b.Holds kind (.device p opened) := by
  have others (b' : Block) (records : b'.blockAddress = b.announce p) (name : String)
      (other : name ≠ (b.announced p).name) (held : b'.held name = b.held name) :
      b'.Left kind b'.blockAddress name ↔ b.Left kind b.blockAddress name := by
    refine left_congr (fun addr named => ?_) held
    rw [records]
    exact mem_old b p addr (named ▸ other)
  have no_plan : (b.announced p).reconnectPlanned = false := by
    simp [NetworkAddress.reconnectPlanned, announced_plan]
  rw [device_eq, addAddress_cases]
  change _ ↔ if (b.getOpenConnection (b.announced p).name).isNone ∧ wanted kind (b.announced p) then
    b.held (b.announced p).name = 0
    else Known kind (b.announced p :: b.others p) (b.announced p).name →
      0 < b.held (b.announced p).name ∨ Planned (b.others p) (b.announced p).name
  have look : Block.getOpenConnection { b with blockAddress := b.announce p } (b.announced p).name =
      b.getOpenConnection (b.announced p).name := rfl
  rw [look]
  by_cases creates : (b.getOpenConnection (b.announced p).name).isNone ∧ wanted kind (b.announced p)
  · obtain ⟨none, wanted⟩ := creates
    have both := Bool.and_eq_true_iff.mp wanted
    simp only [if_pos (show _ ∧ _ from ⟨none, both.1⟩), if_pos (show _ ∧ _ from ⟨none, wanted⟩)]
    have held := held_createClientConnection kind { b with blockAddress := b.announce p } (b.announced p) opened
    refine created_served served (b.announced p) both.2 held fun name other => ?_
    refine others _ (createClientConnection_kept kind _ _ _).1 name other ?_
    rw [held, if_neg fun both => other both.2.symm]
    rfl
  · have unchanged : (if (b.getOpenConnection (b.announced p).name).isNone ∧
          kind.willConnect (b.announced p).name (b.announced p).type then
        Block.createClientConnection kind { b with blockAddress := b.announce p } (b.announced p) opened
        else { b with blockAddress := b.announce p }) = { b with blockAddress := b.announce p } := by
      split
      · rename_i looks
        unfold Block.createClientConnection
        refine if_neg fun connects => creates ⟨looks.1, ?_⟩
        exact Bool.and_eq_true_iff.mpr ⟨looks.2, connects⟩
      · rfl
    rw [unchanged]
    have known : Known kind (b.announce p) (b.announced p).name ↔
        Known kind (b.announced p :: b.others p) (b.announced p).name :=
      exists_congr fun addr => and_congr_left' ((mem_announce b p addr).trans List.mem_cons.symm)
    have planned : Planned (b.announce p) (b.announced p).name ↔ Planned (b.others p) (b.announced p).name := by
      refine exists_congr fun addr => ?_
      rw [mem_announce]
      constructor
      · rintro ⟨new | other, named, plan⟩
        · rw [new, no_plan] at plan
          cases plan
        · exact ⟨other, named, plan⟩
      · exact fun ⟨other, named, plan⟩ => ⟨.inr other, named, plan⟩
    rw [if_neg creates, ← known, ← planned]
    constructor
    · intro after
      exact after.2 (b.announced p).name
    · intro holds
      refine ⟨served.1, fun name => ?_⟩
      by_cases same : name = (b.announced p).name
      · rw [same]
        exact holds
      · exact (others { b with blockAddress := b.announce p } rfl name same rfl).mpr (served.2 name)

theorem delete_device_served (served : b.Served kind) (host_num centrald_id : Int) (name : String) :
    (b.deleteAddress host_num centrald_id name).Served kind ↔ b.Holds kind (.delete_device host_num centrald_id name) := by
  constructor
  · intro after
    exact after.2 name
  · intro holds
    refine ⟨served.1, fun other => ?_⟩
    by_cases same : other = name
    · rw [same]
      exact holds
    · refine (left_congr (fun addr named => ?_) rfl).mpr (served.2 other)
      refine List.mem_eraseP_of_neg fun registered => same ?_
      rw [← named]
      exact of_decide_eq_true (Bool.and_eq_true_iff.mp registered).2

theorem findAddress_name {centraldNum : Int} {name : String} {addr : NetworkAddress}
    (found : b.findAddress centraldNum name = some addr) : addr.name = name := by
  have tested := List.find?_some (p := fun addr : NetworkAddress => addr.isAddress centraldNum name) found
  exact of_decide_eq_true (Bool.and_eq_true_iff.mp tested).2

theorem addressLost_planned (kind : Kind) (b : Block) (conn : Connection) (name : String) :
    (Known kind (b.addressLost kind conn).blockAddress name ↔ Known kind b.blockAddress name) ∧
    (Planned (b.addressLost kind conn).blockAddress name ↔ Planned b.blockAddress name ∨
      conn.name = name ∧ ∃ addr, b.findAddress conn.centraldNum conn.name = some addr ∧
        kind.willConnect addr.name addr.type) := by
  unfold Block.addressLost
  cases found : b.findAddress conn.centraldNum conn.name with
  | none => simp
  | some addr =>
    have named : addr.name = conn.name := findAddress_name found
    by_cases willing : kind.willConnect addr.name addr.type = true
    · simp only [if_pos willing]
      have old := mem_eraseP_find found
      have lost := mem_changeFirst (fun addr => addr.planReconnect b.now) found
      constructor
      · constructor
        · rintro ⟨record, mem, here, wanted⟩
          cases (lost record).mp mem with
          | inl changed =>
            rw [changed] at here wanted
            exact ⟨addr, (old addr).mpr (.inl rfl), here, wanted⟩
          | inr other => exact ⟨record, (old record).mpr (.inr other), here, wanted⟩
        · rintro ⟨record, mem, here, wanted⟩
          cases (old record).mp mem with
          | inl same =>
            rw [same] at here wanted
            exact ⟨addr.planReconnect b.now, (lost _).mpr (.inl rfl), here, wanted⟩
          | inr other => exact ⟨record, (lost record).mpr (.inr other), here, wanted⟩
      · constructor
        · rintro ⟨record, mem, here, plan⟩
          cases (lost record).mp mem with
          | inl changed =>
            rw [changed] at here
            exact .inr ⟨named.symm.trans here, addr, rfl, willing⟩
          | inr other => exact .inl ⟨record, (old record).mpr (.inr other), here, plan⟩
        · have planned : (addr.planReconnect b.now).reconnectPlanned = true := by
            refine decide_eq_true (Nat.lt_of_lt_of_le ?_ (Nat.le_add_left _ _))
            unfold NetworkAddress.delay
            refine lt_min ?_ (by decide)
            exact Nat.lt_of_lt_of_le (by decide) (Nat.le_shiftLeft ..)
          rintro (⟨record, mem, here, plan⟩ | ⟨same, _⟩)
          · cases (old record).mp mem with
            | inl is_addr =>
              rw [is_addr] at here
              exact ⟨addr.planReconnect b.now, (lost _).mpr (.inl rfl), here, planned⟩
            | inr other => exact ⟨record, (lost record).mpr (.inr other), here, plan⟩
          · exact ⟨addr.planReconnect b.now, (lost _).mpr (.inl rfl), named.trans same, planned⟩
    · simp only [if_neg willing]
      simp [willing]

@[simp] theorem addressLost_held (b : Block) (conn : Connection) (name : String) :
    (b.addressLost kind conn).held name = b.held name := by
  unfold Block.addressLost
  cases b.findAddress conn.centraldNum conn.name with
  | none => rfl
  | some addr =>
    dsimp only
    split <;> rfl

theorem at_mem {place : Place} {conn : Connection} (at_place : b.at_ place = some conn) :
    conn ∈ b.connections ++ b.connections_added := by
  unfold at_ at at_place
  split at at_place
  · exact List.mem_append_right _ (List.mem_of_getElem? at_place)
  · exact List.mem_append_left _ (List.mem_of_getElem? at_place)

theorem dropped_held (sound : b.Sound kind) {place : Place} {conn : Connection} (at_place : b.at_ place = some conn)
    (name : String) :
    (b.change place fun conn => { conn with conn_state := if conn.canDelete then .delete else .broken }).held name +
      (if conn.leadsTo name then 1 else 0) = b.held name := by
  have nowhere : Connection.leadsTo { conn with conn_state := if conn.canDelete then .delete else .broken } name = false := by
    unfold Connection.leadsTo
    cases ours : conn.ours with
    | false => rfl
    | true => simp [(sound.ours conn (at_mem at_place) ours).1]
  rw [held_change at_place, nowhere]
  rfl

theorem connectionError_served (sound : b.Sound kind) (served : b.Served kind) (place : Place) :
    (b.connectionError kind place).Served kind ↔ b.Holds kind (.connectionError place) := by
  unfold Block.connectionError
  change _ ↔ ∀ conn, b.at_ place = some conn → conn.leadsTo conn.name → Known kind b.blockAddress conn.name →
    Planned b.blockAddress conn.name ∨
      conn.name ≠ "" ∧ ∃ addr, b.findAddress conn.centraldNum conn.name = some addr ∧ kind.willConnect addr.name addr.type
  cases at_place : b.at_ place with
  | none => exact iff_of_true served nofun
  | some conn =>
    have held := dropped_held sound at_place
    have only : (∀ conn', some conn = some conn' → conn'.leadsTo conn'.name → Known kind b.blockAddress conn'.name →
        Planned b.blockAddress conn'.name ∨ conn'.name ≠ "" ∧ ∃ addr,
          b.findAddress conn'.centraldNum conn'.name = some addr ∧ kind.willConnect addr.name addr.type) ↔
        (conn.leadsTo conn.name → Known kind b.blockAddress conn.name → Planned b.blockAddress conn.name ∨
          conn.name ≠ "" ∧ ∃ addr,
            b.findAddress conn.centraldNum conn.name = some addr ∧ kind.willConnect addr.name addr.type) :=
      ⟨fun all => all conn rfl, fun one conn' same => Option.some.inj same ▸ one⟩
    rw [only]
    dsimp only
    generalize dropped : (b.change place fun conn =>
      { conn with conn_state := if conn.canDelete then .delete else .broken }) = b'
    have records : b'.blockAddress = b.blockAddress := dropped ▸ change_blockAddress b place _
    have looks : b'.findAddress conn.centraldNum conn.name = b.findAddress conn.centraldNum conn.name := by
      unfold findAddress
      rw [records]
    rw [dropped] at held
    obtain ⟨lost_known, lost_planned⟩ := forall_and.mp (addressLost_planned kind b' conn)
    rw [records] at lost_known lost_planned
    rw [looks] at lost_planned
    have fewer : ∀ name, b'.held name ≤ 1 := fun name =>
      Nat.le_trans (Nat.le_add_right _ _) ((held name).trans_le (served.1 name))
    have other (name : String) (other : ¬ conn.leadsTo name) : b'.Left kind b'.blockAddress name := by
      have same := held name
      rw [if_neg other, Nat.add_zero] at same
      exact (left_congr (fun _ _ => by rw [records]) same).mpr (served.2 name)
    have lost_other (name : String) (other : ¬ conn.leadsTo name) :
        (b'.addressLost kind conn).Left kind (b'.addressLost kind conn).blockAddress name := by
      have same := held name
      rw [if_neg other, Nat.add_zero] at same
      intro known
      rw [addressLost_held, same, lost_planned]
      exact (served.2 name ((lost_known name).mp known)).imp_right .inl
    cases leads : conn.leadsTo conn.name with
    | false =>
      have nowhere (name : String) : ¬ conn.leadsTo name := by
        intro leads_name
        have named : conn.name = name := of_decide_eq_true (Bool.and_eq_true_iff.mp leads_name).2
        rw [← named, leads] at leads_name
        cases leads_name
      refine iff_of_true ?_ nofun
      split
      · exact ⟨fun name => (addressLost_held b' conn name).trans_le (fewer name), fun name => lost_other name (nowhere name)⟩
      · exact ⟨fewer, fun name => other name (nowhere name)⟩
    | true =>
      have here (name : String) (different : name ≠ conn.name) : ¬ conn.leadsTo name := fun leads_name =>
        different (of_decide_eq_true (Bool.and_eq_true_iff.mp leads_name).2).symm
      obtain ⟨ours_alive, _⟩ := Bool.and_eq_true_iff.mp leads
      obtain ⟨ours, alive⟩ := Bool.and_eq_true_iff.mp ours_alive
      have is_open : conn.isOpen = true :=
        Bool.and_eq_true_iff.mpr ⟨alive, decide_eq_true (sound.ours conn (at_mem at_place) ours).2⟩
      have none : b'.held conn.name = 0 := by
        have counted := held conn.name
        rw [if_pos leads] at counted
        have one := served.1 conn.name
        omega
      rw [is_open, Bool.true_and]
      by_cases unnamed : conn.name = ""
      · rw [if_neg (by simp [unnamed])]
        constructor
        · intro after _ known
          have left := after.2 conn.name (records ▸ known)
          rw [none, records] at left
          exact .inl (left.resolve_left (Nat.lt_irrefl 0))
        · intro holds
          refine ⟨fewer, fun name => ?_⟩
          by_cases same : name = conn.name
          · rw [same]
            intro known
            rw [records] at known ⊢
            exact .inr ((holds rfl known).resolve_right fun named => named.1 unnamed)
          · exact other name (here name same)
      · rw [if_pos (by simp [unnamed])]
        constructor
        · intro after _ known
          have left := after.2 conn.name ((lost_known conn.name).mpr known)
          rw [addressLost_held, none, lost_planned] at left
          exact (left.resolve_left (Nat.lt_irrefl 0)).imp_right fun found => ⟨unnamed, found.2⟩
        · intro holds
          refine ⟨fun name => (addressLost_held b' conn name).trans_le (fewer name), fun name => ?_⟩
          by_cases same : name = conn.name
          · rw [same]
            intro known
            rw [lost_planned]
            exact .inr ((holds rfl ((lost_known conn.name).mp known)).imp_right fun found => ⟨rfl, found.2⟩)
          · exact lost_other name (here name same)

theorem getConnection_served (served : b.Served kind) (name : String) (opened : Opened) :
    (b.getConnection kind name opened).Served kind ↔ b.Holds kind (.getConnection name opened) := by
  unfold Block.getConnection
  change _ ↔ (b.getOpenConnection name = none →
      ∀ addr, b.findAddressName name = some addr → kind.connects name → b.held name = 0)
  cases b.getOpenConnection name with
  | some conn => exact iff_of_true served nofun
  | none =>
    cases found : b.findAddressName name with
    | none => exact iff_of_true served fun _ _ => nofun
    | some addr =>
      have named : addr.name = name :=
        of_decide_eq_true (List.find?_some (p := fun addr : NetworkAddress => decide (addr.name = name)) found)
      dsimp only
      by_cases connects : kind.connects name = true
      · have held := held_createClientConnection kind b addr opened
        have same := (createClientConnection_kept kind b addr opened).1
        refine (created_served served addr (named ▸ connects) held fun other different => ?_).trans ?_
        · refine left_congr (fun _ _ => by rw [same]) ?_
          rw [held, if_neg fun both => different both.2.symm, Nat.add_zero]
        · rw [named]
          exact ⟨fun free _ _ _ _ => free, fun holds => holds rfl addr rfl connects⟩
      · have unchanged : b.createClientConnection kind addr opened = b := if_neg (named ▸ connects)
        rw [unchanged]
        exact iff_of_true served fun _ _ _ connects' => absurd connects' connects

theorem turned_name (now : Nat) (addr : NetworkAddress) :
    (turned now addr).name = addr.name ∧ (turned now addr).type = addr.type := by
  unfold turned
  split <;> exact ⟨rfl, rfl⟩

theorem turned_planned (now : Nat) (addr : NetworkAddress) :
    (turned now addr).reconnectPlanned ↔ addr.reconnectPlanned ∧ ¬ addr.reconnectDue now := by
  unfold turned
  cases due : addr.reconnectDue now with
  | true => simp [NetworkAddress.reconnectPlanned, NetworkAddress.reconnecting]
  | false => simp

theorem idle_known (b : Block) (opened : NetworkAddress → Opened) (name : String) :
    (Known kind (b.idle kind opened).blockAddress name ↔ Known kind b.blockAddress name) ∧
    (Planned (b.idle kind opened).blockAddress name ↔
      ∃ later ∈ b.blockAddress, later.name = name ∧ later.reconnectPlanned ∧ ¬ later.reconnectDue b.now) := by
  unfold Known Planned wanted
  rw [(idle_records kind b opened).1]
  constructor
  · simp only [List.mem_map, exists_exists_and_eq_and, (turned_name _ _).1, (turned_name _ _).2]
  · simp only [List.mem_map, exists_exists_and_eq_and, (turned_name _ _).1, turned_planned]

theorem due_planned {now : Nat} {addr : NetworkAddress} (due : addr.reconnectDue now) : addr.reconnectPlanned :=
  (Bool.and_eq_true_iff.mp due).1

theorem reopens_iff (addr : NetworkAddress) :
    reopens kind b addr ↔ addr.reconnectDue b.now ∧ ¬ b.Blocked addr.name ∧ kind.connects addr.name := by
  unfold reopens
  rw [blocked_iff, Bool.not_eq_false, Bool.and_eq_true_iff, Bool.and_eq_true_iff, and_assoc]

theorem idle_served (sound : b.Sound kind) (served : b.Served kind) (opened : NetworkAddress → Opened) :
    (b.idle kind opened).Served kind ↔ b.Holds kind (.idle opened) := by
  have held := idle_held kind b opened
  constructor
  · intro ⟨one, left⟩ addr mem due connects
    have willing := sound.willing addr mem (due_planned due)
    have known : Known kind b.blockAddress addr.name :=
      Known.of_mem mem (Bool.and_eq_true_iff.mpr ⟨willing, connects⟩)
    refine ⟨fun blocked => ?_, fun free => ?_⟩
    · have none : b.blockAddress.countP (fun other => reopens kind b other && other.name = addr.name) = 0 := by
        refine List.countP_eq_zero.mpr fun other _ both => ?_
        obtain ⟨reopened, named⟩ := Bool.and_eq_true_iff.mp both
        have free := ((reopens_iff other).mp reopened).2.1
        rw [of_decide_eq_true named] at free
        exact free blocked
      have after := left addr.name ((idle_known b opened addr.name).1.mpr known)
      rw [held, none, Nat.add_zero, (idle_known b opened addr.name).2] at after
      exact after
    · have same : b.blockAddress.countP (fun other => reopens kind b other && other.name = addr.name) =
          b.blockAddress.countP (fun other => other.reconnectDue b.now && other.name = addr.name) := by
        refine List.countP_congr fun other _ => ?_
        rw [Bool.and_eq_true_iff, Bool.and_eq_true_iff, reopens_iff]
        refine and_congr_left fun named => ?_
        rw [of_decide_eq_true named]
        exact ⟨fun reopened => reopened.1, fun due => ⟨due, free, connects⟩⟩
      have some : 0 < b.blockAddress.countP (fun other => other.reconnectDue b.now && other.name = addr.name) :=
        List.countP_pos_iff.mpr ⟨addr, mem, Bool.and_eq_true_iff.mpr ⟨due, decide_eq_true rfl⟩⟩
      have after := one addr.name
      rw [held, same] at after
      omega
  · intro holds
    refine ⟨fun name => ?_, fun name known => ?_⟩
    · rw [held]
      by_cases some : b.blockAddress.countP (fun other => reopens kind b other && other.name = name) = 0
      · rw [some]
        exact served.1 name
      · obtain ⟨addr, mem, both⟩ := List.countP_pos_iff.mp (Nat.pos_of_ne_zero some)
        obtain ⟨reopened, named⟩ := Bool.and_eq_true_iff.mp both
        obtain ⟨due, free, connects⟩ := (reopens_iff addr).mp reopened
        obtain ⟨alone, counted⟩ := (holds addr mem due connects).2 free
        rw [of_decide_eq_true named] at alone counted
        have fewer : b.blockAddress.countP (fun other => reopens kind b other && other.name = name) ≤
            b.blockAddress.countP (fun other => other.reconnectDue b.now && other.name = name) := by
          refine List.countP_mono_left fun other _ both => ?_
          rw [Bool.and_eq_true_iff] at both ⊢
          exact ⟨((reopens_iff other).mp both.1).1, both.2⟩
        omega
    · rw [held, (idle_known b opened name).2]
      have known_before := (idle_known b opened name).1.mp known
      cases served.2 name known_before with
      | inl before => exact .inl (Nat.lt_of_lt_of_le before (Nat.le_add_right _ _))
      | inr planned =>
        obtain ⟨addr, mem, named, plan⟩ := planned
        by_cases due : addr.reconnectDue b.now = true
        · obtain ⟨record, _, record_named, wanted⟩ := known_before
          have connects : kind.connects addr.name = true := by
            rw [named, ← record_named]
            exact (Bool.and_eq_true_iff.mp wanted).2
          obtain ⟨if_blocked, _⟩ := holds addr mem due connects
          by_cases blocked : b.Blocked addr.name
          · rw [named] at if_blocked blocked
            exact (if_blocked blocked).imp_left fun before => Nat.lt_of_lt_of_le before (Nat.le_add_right _ _)
          · have reopened : reopens kind b addr = true := (reopens_iff addr).mpr ⟨due, blocked, connects⟩
            have made : 0 < b.blockAddress.countP (fun other => reopens kind b other && other.name = name) :=
              List.countP_pos_iff.mpr ⟨addr, mem, Bool.and_eq_true_iff.mpr ⟨reopened, decide_eq_true named⟩⟩
            exact .inl (Nat.lt_of_lt_of_le made (Nat.le_add_left _ _))
        · exact .inr ⟨addr, mem, named, plan, due⟩

theorem deleteConnection_held (b : Block) (index : Nat) (name : String) :
    (b.deleteConnection index).held name = b.held name ∧ (b.deleteConnection index).blockAddress = b.blockAddress := by
  unfold Block.deleteConnection
  cases at_index : b.connections[index]? with
  | none => exact ⟨rfl, rfl⟩
  | some conn =>
    by_cases deleted : conn.conn_state = ConnState.delete
    · have nowhere : conn.leadsTo name = false := by
        simp [Connection.leadsTo, deleted]
      simp only [if_pos deleted, and_true]
      unfold held
      rw [List.countP_append, countP_eraseIdx at_index nowhere, List.countP_append]
    · simp only [if_neg deleted, and_self]

theorem step_served (sound : b.Sound kind) (served : b.Served kind) (e : Event) :
    (b.step kind e).Served kind ↔ b.Holds kind e := by
  cases e with
  | device p opened => exact device_served served p opened
  | delete_device host_num centrald_id name => exact delete_device_served served host_num centrald_id name
  | connectionError place => exact connectionError_served sound served place
  | getConnection name opened => exact getConnection_served served name opened
  | idle opened => exact idle_served sound served opened
  | deleteConnection index =>
    refine iff_of_true ((served_congr (fun name => ?_) ?_).mpr served) trivial
    · exact (deleteConnection_held b index name).1
    · exact (deleteConnection_held b index "").2
  | accepted =>
    have same : (b.addConnection accepted).Served kind ↔ b.Served kind :=
      served_congr (fun name => held_addConnection b accepted name) rfl
    exact iff_of_true (same.mpr served) trivial
  | named place centraldNum name =>
    refine iff_of_true ((served_congr (held_change_same b place ?_) (change_blockAddress ..)).mpr served) trivial
    intro conn other
    cases ours : conn.ours with
    | true => rw [if_pos rfl]
    | false => simp [Connection.leadsTo, ours]
  | left place =>
    refine iff_of_true ((served_congr (held_change_same b place ?_) (change_blockAddress ..)).mpr served) trivial
    intro conn other
    cases ours : conn.ours with
    | true => rw [if_pos rfl]
    | false => simp [Connection.leadsTo, ours]
  | progress place conn_state =>
    refine iff_of_true ((served_congr (held_change_same b place ?_) (change_blockAddress ..)).mpr served) trivial
    intro conn other
    by_cases goes : conn.isOpen ∧ conn_state ≠ .delete ∧ conn_state ≠ .broken
    · have alive : conn.conn_state ≠ .delete := of_decide_eq_true (Bool.and_eq_true_iff.mp goes.1).1
      rw [if_pos goes]
      simp [Connection.leadsTo, goes.2.1, alive]
    · rw [if_neg goes]
  | clock seconds => exact iff_of_true ((served_congr (fun _ => rfl) rfl).mpr served) trivial

theorem init_sound (kind : Kind) (now : Nat) : (init now).Sound kind := ⟨nofun, nofun, nofun⟩

theorem init_served (kind : Kind) (now : Nat) : (init now).Served kind :=
  ⟨fun _ => Nat.zero_le _, fun _ ⟨_, mem, _⟩ => nomatch mem⟩

/-- One connection to each device, and one or a reconnect in the next 300 s to each wanted one, in every state of a run
just when each of its steps holds what is asked of it. -/
theorem one_connection_iff (kind : Kind) (now : Nat) (es : List Event) :
    (∀ done, done <+: es → (run (step kind) (init now) done).Right kind) ↔
      Guarded (step kind) (Holds kind) (init now) es := by
  refine prefixes_iff_guarded_enabled (P := fun b => b.Sound kind ∧ b.Served kind) ?_ ?_ ?_
    ⟨init_sound kind now, init_served kind now⟩ (guarded_true ..)
  · exact fun b kept => (right_iff kept.1.soon).mpr kept.2
  · exact fun b e kept _ holds => ⟨step_sound kept.1 e, (step_served kept.1 kept.2 e).mpr holds⟩
  · intro b e kept _ right
    exact (step_served kept.1 kept.2 e).mp ((right_iff (step_sound kept.1 e).soon).mp right)

/-- Over any events, also where a device has two connections or none. -/
theorem always_sound (kind : Kind) (now : Nat) (es : List Event) : (run (step kind) (init now) es).Sound kind :=
  run_invariant (step kind) (fun _ _ => True) (Sound kind) (fun _ e sound _ => step_sound sound e) _ es
    (init_sound kind now) (guarded_true ..)

def announcedTwice : List Event :=
  let wheel (centrald : Int) : Announcement := ⟨centrald, centrald, 5, "W0", "localhost", 5000, 8⟩
  [.device (wheel 1) .inprogress, .device (wheel 2) .inprogress]

theorem second_connection :
    ¬ ∀ (kind : Kind) (now : Nat) (es done : List Event), done <+: es → (run (step kind) (init now) done).Right kind := by
  intro always
  have one := (always ⟨fun _ _ => true, fun _ => true⟩ 1000 announcedTwice announcedTwice (List.prefix_refl _)).one "W0"
  revert one
  decide

end Block

end Rts2.Kernel.Addresses
