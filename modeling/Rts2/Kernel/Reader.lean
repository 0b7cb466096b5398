import Rts2.Kernel.Data

/-! The reading half of Connection: receive fills the line buffer, processBuffer cuts it into
lines, processLine runs the data commands, and bytes of a binary chunk go to the channel the
last PROTO_DATA line named. -/
namespace Rts2.Kernel

universe u

inductive ConnState where
  | unknow | resolvingDevice | connecting | inprogress | connected | broken | delete
  | authPending | authOk | authFailed
  deriving DecidableEq, Repr

/-- Which connectionError runs: the one of Connection, where `canDelete ()` decides the state,
or the one of DevConnectionMaster. -/
inductive ConnClass where
  | connection (canDelete : Bool)
  | devConnectionMaster
  deriving DecidableEq, Repr

/-- What the reader calls and what it stores, in order, one `stored` for each byte. A PROTO_DATA
line is `named` with the number of channels its data connection has, and is a `header` with what
remains of its channel once it is accepted. -/
inductive Event where
  | line (text : List UInt8)
  | named (id chan : Int) (count : Option Nat)
  | header (id chan size : Int) (rest : Nat)
  | stored (id chan : Int) (byte : UInt8)
  | newDataConn (id : Int)
  | dataReceived (id chan : Int) (count : Nat)
  | fullDataReceived (id : Int) (channels : DataChannels)
  deriving DecidableEq, Repr

inductive Effect where
  | keep
  | setState (state : ConnState)
  | drop
  deriving DecidableEq, Repr

/-- The code a subclass and its otherDevice put around the reader, with a state of their own.
`line` runs every command that is not a data command. -/
structure Subclass (σ : Type u) where
  connClass : ConnClass
  otherDevice : σ → Bool
  line : σ → List UInt8 → σ × Effect
  newDataConn : σ → Int → σ × Effect
  fullDataReceived : σ → Int → DataChannels → σ × Effect

def Subclass.passive : Subclass Unit :=
  ⟨.connection true, fun _ => true, fun _ _ => ((), .keep), fun _ _ => ((), .keep),
    fun _ _ _ => ((), .keep)⟩

structure Core (σ : Type u) where
  activeReadData : Int
  activeReadChannel : Int
  readChannels : Int → Option DataChannels
  connState : ConnState
  /-- `sock >= 0` -/
  sock : Bool
  outer : σ
  log : List Event

structure Crash (σ : Type u) where
  fault : Fault
  core : Core σ

variable {σ : Type u}

namespace Core

def emit (c : Core σ) (e : Event) : Core σ := { c with log := c.log ++ [e] }

@[simp] theorem emit_activeReadData (c : Core σ) (e : Event) :
    (c.emit e).activeReadData = c.activeReadData := rfl

@[simp] theorem emit_activeReadChannel (c : Core σ) (e : Event) :
    (c.emit e).activeReadChannel = c.activeReadChannel := rfl

@[simp] theorem emit_readChannels (c : Core σ) (e : Event) :
    (c.emit e).readChannels = c.readChannels := rfl

@[simp] theorem emit_log (c : Core σ) (e : Event) : (c.emit e).log = c.log ++ [e] := rfl

@[simp] theorem emit_outer (c : Core σ) (e : Event) : (c.emit e).outer = c.outer := rfl

def connectionError (sub : Subclass σ) (c : Core σ) : Core σ :=
  match sub.connClass with
  | .connection canDelete =>
    { c with
      activeReadData := -1
      connState := if canDelete then .delete else .broken
      sock := false }
  | .devConnectionMaster =>
    if c.connState = .broken then { c with sock := false }
    else { c with connState := .broken, sock := false }

def dropConnection (sub : Subclass σ) (c : Core σ) : Core σ := c.connectionError sub

def react (sub : Subclass σ) (c : Core σ) (result : σ × Effect) : Core σ :=
  match result.2 with
  | .keep => { c with outer := result.1 }
  | .setState state => { c with outer := result.1, connState := state }
  | .drop => { c with outer := result.1 }.dropConnection sub

def setChannels (c : Core σ) (id : Int) (channels : Option DataChannels) : Core σ :=
  { c with readChannels := Function.update c.readChannels id channels }

theorem connectionError_negative (sub : Subclass σ) (c : Core σ) (h : c.activeReadData < 0) :
    (c.connectionError sub).activeReadData < 0 := by
  unfold connectionError
  split
  · simp
  · split <;> exact h

@[simp] theorem connectionError_readChannels (sub : Subclass σ) (c : Core σ) :
    (c.connectionError sub).readChannels = c.readChannels := by
  unfold connectionError
  split
  · rfl
  · split <;> rfl

@[simp] theorem connectionError_log (sub : Subclass σ) (c : Core σ) :
    (c.connectionError sub).log = c.log := by
  unfold connectionError
  split
  · rfl
  · split <;> rfl

theorem react_negative (sub : Subclass σ) (c : Core σ) (result : σ × Effect)
    (h : c.activeReadData < 0) : (c.react sub result).activeReadData < 0 := by
  unfold react
  split
  · exact h
  · exact h
  · exact connectionError_negative sub _ h

@[simp] theorem react_readChannels (sub : Subclass σ) (c : Core σ) (result : σ × Effect) :
    (c.react sub result).readChannels = c.readChannels := by
  unfold react
  split
  · rfl
  · rfl
  · exact connectionError_readChannels sub _

@[simp] theorem react_log (sub : Subclass σ) (c : Core σ) (result : σ × Effect) :
    (c.react sub result).log = c.log := by
  unfold react
  split
  · rfl
  · rfl
  · exact connectionError_log sub _

@[simp] theorem setChannels_activeReadData (c : Core σ) (id : Int) (channels : Option DataChannels) :
    (c.setChannels id channels).activeReadData = c.activeReadData := rfl

@[simp] theorem setChannels_activeReadChannel (c : Core σ) (id : Int)
    (channels : Option DataChannels) :
    (c.setChannels id channels).activeReadChannel = c.activeReadChannel := rfl

@[simp] theorem setChannels_readChannels (c : Core σ) (id : Int) (channels : Option DataChannels) :
    (c.setChannels id channels).readChannels = Function.update c.readChannels id channels := rfl

@[simp] theorem setChannels_log (c : Core σ) (id : Int) (channels : Option DataChannels) :
    (c.setChannels id channels).log = c.log := rfl

@[simp] theorem setChannels_outer (c : Core σ) (id : Int) (channels : Option DataChannels) :
    (c.setChannels id channels).outer = c.outer := rfl

def setActiveReadData (c : Core σ) (id : Int) : Core σ := { c with activeReadData := id }

def setActiveReadChannel (c : Core σ) (chan : Int) : Core σ := { c with activeReadChannel := chan }

def refuse (sub : Subclass σ) (c : Core σ) : Core σ :=
  (c.setActiveReadData (-1)).dropConnection sub

def newDataConn (sub : Subclass σ) (c : Core σ) (id : Int) : Core σ :=
  if sub.otherDevice c.outer then
    (c.emit (.newDataConn id)).react sub (sub.newDataConn c.outer id)
  else c

def fullDataReceived (sub : Subclass σ) (c : Core σ) (id : Int) (channels : DataChannels) :
    Core σ :=
  if sub.otherDevice c.outer then
    (c.emit (.fullDataReceived id channels)).react sub (sub.fullDataReceived c.outer id channels)
  else c

@[simp] theorem newDataConn_readChannels (sub : Subclass σ) (c : Core σ) (id : Int) :
    (c.newDataConn sub id).readChannels = c.readChannels := by
  unfold newDataConn
  split <;> simp

theorem newDataConn_negative (sub : Subclass σ) (c : Core σ) (id : Int)
    (h : c.activeReadData < 0) : (c.newDataConn sub id).activeReadData < 0 := by
  unfold newDataConn
  split
  · exact react_negative sub _ _ h
  · exact h

@[simp] theorem fullDataReceived_readChannels (sub : Subclass σ) (c : Core σ) (id : Int)
    (channels : DataChannels) :
    (c.fullDataReceived sub id channels).readChannels = c.readChannels := by
  unfold fullDataReceived
  split <;> simp

@[simp] theorem dropConnection_readChannels (sub : Subclass σ) (c : Core σ) :
    (c.dropConnection sub).readChannels = c.readChannels := connectionError_readChannels sub c

@[simp] theorem dropConnection_log (sub : Subclass σ) (c : Core σ) :
    (c.dropConnection sub).log = c.log := connectionError_log sub c

@[simp] theorem refuse_readChannels (sub : Subclass σ) (c : Core σ) :
    (c.refuse sub).readChannels = c.readChannels := connectionError_readChannels sub _

@[simp] theorem refuse_log (sub : Subclass σ) (c : Core σ) : (c.refuse sub).log = c.log :=
  connectionError_log sub _

theorem refuse_negative (sub : Subclass σ) (c : Core σ) : (c.refuse sub).activeReadData < 0 :=
  connectionError_negative sub _ (by simp [setActiveReadData])

theorem fullDataReceived_log (sub : Subclass σ) (c : Core σ) (id : Int) (channels : DataChannels)
    (told : sub.otherDevice c.outer = true) :
    (c.fullDataReceived sub id channels).log = c.log ++ [.fullDataReceived id channels] := by
  simp [fullDataReceived, told]

theorem fullDataReceived_negative (sub : Subclass σ) (c : Core σ) (id : Int)
    (channels : DataChannels) (h : c.activeReadData < 0) :
    (c.fullDataReceived sub id channels).activeReadData < 0 := by
  unfold fullDataReceived
  split
  · exact react_negative sub _ _ h
  · exact h

def emitStored (c : Core σ) (data : List UInt8) : Core σ :=
  { c with log := c.log ++ data.map (.stored c.activeReadData c.activeReadChannel) }

/-- `readChannels[activeReadData]` with the channel `at (activeReadChannel)`. -/
def activeChannel (c : Core σ) : Except (Crash σ) (DataChannels × DataRead) :=
  match c.readChannels c.activeReadData with
  | none => .error ⟨.nullChannels, c⟩
  | some channels =>
    match channels.at? c.activeReadChannel with
    | none => .error ⟨.channelIndex, c⟩
    | some d => .ok (channels, d)

/-- A call on the active channel left it as `d` and stored `data` in it. -/
def stored (c : Core σ) (channels : DataChannels) (d : DataRead) (data : List UInt8) : Core σ :=
  (c.setChannels c.activeReadData (some (channels.put c.activeReadChannel d))).emitStored data

end Core

def protoBinary : List UInt8 := [67]
def protoData : List UInt8 := [68]
def protoBinaryKilled : List UInt8 := [72]
def protoShared : List UInt8 := [73]
def protoSharedFull : List UInt8 := [74]
def protoSharedKilled : List UInt8 := [75]

def binaryCommand (sub : Subclass σ) (c : Core σ) (params : List UInt8) :
    Except (Crash σ) (Core σ) :=
  match paramNextInteger 0 params with
  | (_, false, _) => .ok (c.refuse sub)
  | (data_conn, true, rest) =>
    match DataChannels.initFromConnection rest with
    | .error fault => .error ⟨fault, c⟩
    | .ok chann => .ok ((c.setChannels data_conn (some chann)).newDataConn sub data_conn)

def readChannel (sub : Subclass σ) (c : Core σ) (params : List UInt8) : Except (Crash σ) (Core σ) :=
  match c.activeChannel with
  | .error crash => .error crash
  | .ok (channels, d) =>
    match paramNextSSizeT d.binaryReadChunkSize params with
    | (size, known, rest) =>
      let sized := channels.put c.activeReadChannel { d with binaryReadChunkSize := size }
      let c := c.setChannels c.activeReadData (some sized)
      if known = false ∨ paramEnd rest = false then .ok (c.refuse sub)
      else .ok (c.emit (.header c.activeReadData c.activeReadChannel size d.binaryReadDataSize))

def dataCommand (sub : Subclass σ) (c : Core σ) (params : List UInt8) :
    Except (Crash σ) (Core σ) :=
  match paramNextInteger c.activeReadData params with
  | (data, false, _) => .ok ((c.setActiveReadData data).refuse sub)
  | (data, true, rest) =>
    match paramNextInteger c.activeReadChannel rest with
    | (chan, false, _) => .ok (((c.setActiveReadData data).setActiveReadChannel chan).refuse sub)
    | (chan, true, rest) =>
      let count := (c.readChannels data).map List.length
      readChannel sub
        (((c.setActiveReadData data).setActiveReadChannel chan).emit (.named data chan count)) rest

def binaryKilledCommand (sub : Subclass σ) (c : Core σ) (params : List UInt8) : Core σ :=
  match paramNextInteger 0 params with
  | (_, false, _) => c.dropConnection sub
  | (dC, true, _) =>
    match c.readChannels dC with
    | none => c
    | some channels => (c.fullDataReceived sub dC channels).setChannels dC none

/-- PROTO_SHARED, for a peer that shares no memory with this process: `shmat` fails. -/
def sharedCommand (sub : Subclass σ) (c : Core σ) : Core σ := c.dropConnection sub

def sharedEndCommand (sub : Subclass σ) (c : Core σ) (params : List UInt8) :
    Except (Crash σ) (Core σ) :=
  match paramNextInteger 0 params with
  | (_, false, _) => .ok (c.dropConnection sub)
  | (dC, true, rest) =>
    if paramEnd rest = false then .ok (c.dropConnection sub) else
    match c.readChannels dC with
    | none => .ok c
    | some channels =>
      let c := c.fullDataReceived sub dC channels
      if channels.isEmpty then .ok (c.setChannels dC none) else .error ⟨.sharedCast, c⟩

def processLine (sub : Subclass σ) (c : Core σ) (text : List UInt8) : Except (Crash σ) (Core σ) :=
  let c := c.emit (.line text)
  let command := text.takeWhile (!isSpace ·)
  let params := (text.dropWhile (!isSpace ·)).tail
  if command = protoBinary then binaryCommand sub c params
  else if command = protoData then dataCommand sub c params
  else if command = protoBinaryKilled then .ok (binaryKilledCommand sub c params)
  else if command = protoShared then .ok (sharedCommand sub c)
  else if command = protoSharedFull ∨ command = protoSharedKilled then sharedEndCommand sub c params
  else .ok (c.react sub (sub.line c.outer text))

/-- What dataReceived does after it told the device: the data connection is closed when
nothing remains, the chunk when it is read. -/
def finishData (sub : Subclass σ) (c : Core σ) (channels : DataChannels) :
    Except (Crash σ) (Core σ) :=
  if channels.getRestSize = 0 then
    .ok (((c.fullDataReceived sub c.activeReadData channels).setChannels c.activeReadData none
      ).setActiveReadData (-1))
  else
    match channels.at? c.activeReadChannel with
    | none => .error ⟨.channelIndex, c⟩
    | some d => if d.binaryReadChunkSize = 0 then .ok (c.setActiveReadData (-1)) else .ok c

def dataReceived (sub : Subclass σ) (c : Core σ) : Except (Crash σ) (Core σ) :=
  match c.readChannels c.activeReadData with
  | none => .error ⟨.endIterator, c⟩
  | some channels =>
    if sub.otherDevice c.outer then
      if (channels.at? c.activeReadChannel).isNone then .error ⟨.channelIndex, c⟩
      else
        let told := Event.dataReceived c.activeReadData c.activeReadChannel channels.length
        finishData sub (c.emit told) channels
    else finishData sub c channels

def inLine (c : UInt8) : Bool := c ≠ 0 && c ≠ 10 && c ≠ 13

inductive Scan where
  /-- The end of the buffer, or a NUL; the text is moved to its front. -/
  | kept (text : List UInt8)
  /-- A CR without LF: the text before it is skipped. -/
  | lost (rest : List UInt8)
  | line (text rest : List UInt8)
  deriving DecidableEq, Repr

/-- The scan has stopped before `tail`, at NUL, LF, CR or the end. -/
def endOfLine (text : List UInt8) : List UInt8 → Scan
  | [] => .kept text
  | c :: rest =>
    if c = 0 then .kept text
    else if c = 10 then .line text rest
    else
      match rest with
      | [] => .kept (text ++ [13])
      | d :: rest =>
        if d = 10 then .line text rest
        else if d = 0 then .kept (text ++ [13])
        else .lost (d :: rest)

def scan (bytes : List UInt8) : Scan :=
  let start := bytes.dropWhile isSpace
  endOfLine (start.takeWhile inLine) (start.dropWhile inLine)

def binaryStart (sub : Subclass σ) (c : Core σ) (data : List UInt8) :
    Except (Crash σ) (Core σ × Nat) :=
  match c.activeChannel with
  | .error crash => .error crash
  | .ok (channels, d) =>
    match d.addData data with
    | .error fault => .error ⟨fault, c⟩
    | .ok (d, readSize) =>
      match dataReceived sub (c.stored channels d (data.take readSize)) with
      | .error crash => .error crash
      | .ok c => .ok (c, readSize)

theorem endOfLine_length (text tail : List UInt8) :
    (∀ rest, endOfLine text tail = .lost rest → rest.length < tail.length) ∧
    (∀ line rest, endOfLine text tail = .line line rest → rest.length < tail.length) := by
  rcases tail with _ | ⟨c, _ | ⟨d, rest⟩⟩
  · simp [endOfLine]
  · simp only [endOfLine]
    split_ifs <;> simp
  · simp only [endOfLine]
    split_ifs <;> simp

theorem scan_length (bytes : List UInt8) :
    (∀ rest, scan bytes = .lost rest → rest.length < bytes.length) ∧
    (∀ text rest, scan bytes = .line text rest → rest.length < bytes.length) := by
  have start := (List.dropWhile_sublist isSpace (l := bytes)).length_le
  have stop := (List.dropWhile_sublist inLine (l := bytes.dropWhile isSpace)).length_le
  have shorter := endOfLine_length ((bytes.dropWhile isSpace).takeWhile inLine)
    ((bytes.dropWhile isSpace).dropWhile inLine)
  exact ⟨fun rest h => by have := shorter.1 rest h; omega,
    fun text rest h => by have := shorter.2 text rest h; omega⟩

/-- The body of the loop once a line has ended: its command, then the chunk it may have begun.
The bytes after it are what is left to scan. -/
def lineStep (sub : Subclass σ) (c : Core σ) (text rest : List UInt8) :
    Except (Crash σ) (Core σ × List UInt8) :=
  match processLine sub c text with
  | .error crash => .error crash
  | .ok c =>
    if 0 ≤ c.activeReadData then
      match binaryStart sub c rest with
      | .error crash => .error crash
      | .ok (c, readSize) => .ok (c, rest.drop readSize)
    else .ok (c, rest)

theorem lineStep_length {sub : Subclass σ} {c c' : Core σ} {text rest left : List UInt8}
    (done : lineStep sub c text rest = .ok (c', left)) : left.length ≤ rest.length := by
  unfold lineStep at done
  split at done
  · contradiction
  · split at done
    · split at done
      · contradiction
      · cases done
        simp
    · cases done
      exact Nat.le_refl _

def processLoop (sub : Subclass σ) (c : Core σ) (bytes : List UInt8) :
    Except (Crash σ) (Core σ × List UInt8) :=
  match _ : scan bytes with
  | .kept text => .ok (c, text)
  | .lost rest => processLoop sub c rest
  | .line text rest =>
    match _ : lineStep sub c text rest with
    | .error crash => .error crash
    | .ok (c, left) => processLoop sub c left
termination_by bytes.length
decreasing_by
  · exact (scan_length bytes).1 rest ‹_›
  · exact Nat.lt_of_le_of_lt (lineStep_length ‹_›) ((scan_length bytes).2 text rest ‹_›)

section
variable (sub : Subclass σ) (c : Core σ) {bytes text rest : List UInt8}

theorem processLoop_kept (found : scan bytes = .kept text) :
    processLoop sub c bytes = .ok (c, text) := by
  rw [processLoop]
  split <;> simp_all

theorem processLoop_lost (found : scan bytes = .lost rest) :
    processLoop sub c bytes = processLoop sub c rest := by
  rw [processLoop]
  split <;> simp_all

theorem processLoop_line (found : scan bytes = .line text rest) :
    processLoop sub c bytes =
      match lineStep sub c text rest with
      | .error crash => .error crash
      | .ok (c, left) => processLoop sub c left := by
  rw [processLoop]
  split
  · simp_all
  · simp_all
  · rename_i line
    cases found.symm.trans line
    split <;> rename_i done <;> rw [done]

end

/-- `buf` is the text between buf and buf_top. -/
structure Reader (σ : Type u) where
  core : Core σ
  buf : List UInt8
  bufSize : Nat

def maxData : Nat := 2000

def checkBufferSize (r : Reader σ) : Reader σ :=
  if r.bufSize = r.buf.length then { r with bufSize := r.bufSize + maxData } else r

@[simp] theorem checkBufferSize_core (r : Reader σ) : (checkBufferSize r).core = r.core := by
  unfold checkBufferSize
  split <;> rfl

@[simp] theorem checkBufferSize_buf (r : Reader σ) : (checkBufferSize r).buf = r.buf := by
  unfold checkBufferSize
  split <;> rfl

theorem checkBufferSize_room {r : Reader σ} (room : r.buf.length ≤ r.bufSize) :
    r.buf.length < (checkBufferSize r).bufSize ∧ r.bufSize ≤ (checkBufferSize r).bufSize := by
  unfold checkBufferSize
  split
  · simp only [maxData]
    omega
  · omega

def processBuffer (sub : Subclass σ) (r : Reader σ) : Except (Crash σ) (Reader σ) :=
  match processLoop sub r.core r.buf with
  | .error crash => .error crash
  | .ok (core, kept) => .ok { r with core := core, buf := kept }

/-- What `read ()` returns; an error other than EINTR is `failed`. -/
inductive ReadResult where
  | data (bytes : List UInt8)
  | eof
  | interrupted
  | failed
  deriving DecidableEq, Repr

def Core.readable (c : Core σ) : Prop :=
  c.connState ≠ .delete ∧ c.sock = true ∧ c.connState ≠ .connecting

instance (c : Core σ) : Decidable c.readable := inferInstanceAs (Decidable (_ ∧ _ ∧ _))

def receiveBinary (sub : Subclass σ) (c : Core σ) (result : ReadResult) :
    Except (Crash σ) (Core σ) :=
  match c.activeChannel with
  | .error crash => .error crash
  | .ok (channels, d) =>
    match result with
    | .data bytes => dataReceived sub (c.stored channels (d.getData bytes) bytes)
    | .failed => dataReceived sub (c.dropConnection sub)
    | .eof | .interrupted => .ok c

def receiveText (sub : Subclass σ) (r : Reader σ) (result : ReadResult) :
    Except (Crash σ) (Reader σ) :=
  let r := checkBufferSize r
  match result with
  | .data bytes => processBuffer sub { r with buf := r.buf ++ bytes }
  | .failed | .eof => .ok { r with core := r.core.dropConnection sub }
  | .interrupted => .ok r

def receive (sub : Subclass σ) (r : Reader σ) (result : ReadResult) : Except (Crash σ) (Reader σ) :=
  if ¬ r.core.readable then .ok r
  else if 0 ≤ r.core.activeReadData then
    match receiveBinary sub r.core result with
    | .error crash => .error crash
    | .ok core => .ok { r with core := core }
  else receiveText sub r result

/-- The size receive asks `read ()` for. -/
def requested (r : Reader σ) : Int :=
  if 0 ≤ r.core.activeReadData then
    match r.core.activeChannel with
    | .error _ => 0
    | .ok (_, d) => d.binaryReadChunkSize
  else (checkBufferSize r).bufSize - r.buf.length

def ReadOf (r : Reader σ) : ReadResult → Prop
  | .data bytes => bytes ≠ [] ∧ bytes.length ≤ requested r
  | .eof | .interrupted | .failed => True

instance (r : Reader σ) : ∀ result : ReadResult, Decidable (ReadOf r result)
  | .data _ => inferInstanceAs (Decidable (_ ∧ _))
  | .eof | .interrupted | .failed => isTrue trivial

def Core.fresh (outer : σ) : Core σ := ⟨-1, 0, fun _ => none, .connected, true, outer, []⟩

def Reader.fresh (outer : σ) : Reader σ := ⟨Core.fresh outer, [], maxData⟩

end Rts2.Kernel
