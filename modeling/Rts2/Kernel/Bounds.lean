import Rts2.Kernel.Log
import Rts2.Kernel.Demux

/-! What the lines and bytes of any peer can do to the channels of a connection. -/
namespace Rts2.Kernel

open Lib

universe u

variable {σ : Type u}

def AllChannels (Q : DataRead → Prop) (c : Core σ) : Prop :=
  ∀ id channels, c.readChannels id = some channels → IsInt id ∧ ∀ d ∈ channels, Q d

section
variable {Q : DataRead → Prop} {c : Core σ}

theorem AllChannels.congr {c' : Core σ} (all : AllChannels Q c)
    (same : c'.readChannels = c.readChannels) : AllChannels Q c' := by
  intro id channels known
  exact all id channels (same ▸ known)

theorem AllChannels.set (all : AllChannels Q c) {id : Int} {channels : DataChannels}
    (int : IsInt id) (new : ∀ d ∈ channels, Q d) : AllChannels Q (c.setChannels id (some channels)) := by
  intro other found known
  by_cases here : other = id
  · subst here
    simp only [Core.setChannels_readChannels, Function.update_self, Option.some.injEq] at known
    exact ⟨int, known ▸ new⟩
  · simp only [Core.setChannels_readChannels, Function.update_of_ne here] at known
    exact all other found known

theorem AllChannels.erase (all : AllChannels Q c) (id : Int) :
    AllChannels Q (c.setChannels id none) := by
  intro other found known
  by_cases here : other = id
  · subst here
    simp at known
  · simp only [Core.setChannels_readChannels, Function.update_of_ne here] at known
    exact all other found known

theorem put_all {channels : DataChannels} (all : ∀ d ∈ channels, Q d) (chan : Int) {e : DataRead}
    (new : Q e) : ∀ d ∈ channels.put chan e, Q d := by
  intro d mem
  rcases List.mem_or_eq_of_mem_set mem with mem | rfl
  · exact all d mem
  · exact new

theorem at?_mem {channels : DataChannels} {chan : Int} {d : DataRead}
    (found : channels.at? chan = some d) : d ∈ channels := by
  obtain ⟨n, _, _, here⟩ := DataChannels.at?_some found
  exact List.mem_of_getElem? here

theorem strtol_le (text : List UInt8) : (strtol text).1 ≤ longMax := by
  have clamped (value : Int) : max longMin (min longMax value) ≤ longMax := by
    simp only [longMin, longMax]
    omega
  have zero : (0 : Int) ≤ longMax := by simp [longMax]
  unfold strtol
  dsimp only
  split_ifs
  · exact zero
  · exact clamped _
  · exact clamped _
  · exact zero
  · exact clamped _
  · exact clamped _

theorem paramNextLong_le {text rest : List UInt8} {value : Int}
    (read : paramNextLong 0 text = (value, true, rest)) : value ≤ longMax := by
  unfold paramNextLong paramNextNumber at read
  split at read
  · simp at read
  · have same : (strtol _).1 = value := congrArg Prod.fst read
    exact same ▸ strtol_le _

theorem readSizes_ends (new : ∀ size : Nat, (size : Int) ≤ longMax → Q (DataRead.new size))
    (count : Nat) (text : List UInt8) :
    Ends (fun read => ∀ d ∈ read.1, Q d) (fun fault => fault = .uncaughtError ∨ fault = .badAlloc)
      (DataChannels.readSizes count text) := by
  induction count generalizing text with
  | zero => simp [DataChannels.readSizes, Ends]
  | succ count ih =>
    unfold DataChannels.readSizes
    split
    · exact Or.inl rfl
    · rename_i chansize tail number
      split
      · exact Or.inr rfl
      · rename_i positive
        have rest := ih tail
        split <;> rename_i later <;> rw [later] at rest
        · exact rest
        · intro d mem
          rcases List.mem_cons.mp mem with rfl | mem
          · apply new
            have bound := paramNextLong_le number
            omega
          · exact rest d mem

theorem initFromConnection_ends
    (new : ∀ size : Nat, (size : Int) ≤ longMax → Q (DataRead.new size)) (text : List UInt8) :
    Ends (fun channels => ∀ d ∈ channels, Q d)
      (fun fault => fault = .uncaughtError ∨ fault = .badAlloc)
      (DataChannels.initFromConnection text) := by
  unfold DataChannels.initFromConnection
  split
  · exact Or.inl rfl
  · split
    · exact Or.inl rfl
    · rename_i channum rest _
      have sizes := readSizes_ends new channum.toNat rest
      split <;> rename_i read <;> rw [read] at sizes
      · exact sizes
      · split
        · exact sizes
        · exact Or.inl rfl

def Fault.addressing : Fault → Bool
  | .nullChannels | .channelIndex | .endIterator => true
  | .uncaughtError | .badAlloc | .memcpySize | .sharedCast => false

def Misnamed (log : List Event) : Prop :=
  ∃ (id chan : Int) (count : Option Nat), .named id chan count ∈ log ∧
    ∀ n : Nat, count = some n → ¬ (0 ≤ chan ∧ chan < n)

structure LineCrash (Q : DataRead → Prop) (crash : Crash σ) : Prop where
  all : AllChannels Q crash.core
  copied : crash.fault ≠ .memcpySize
  named : crash.fault.addressing = true → Misnamed crash.core.log

def Chosen (c : Core σ) : Prop :=
  ∃ channels d, c.activeChannel = .ok (channels, d) ∧
    .header c.activeReadData c.activeReadChannel d.binaryReadChunkSize d.binaryReadDataSize ∈ c.log

structure LineEnd (Q : DataRead → Prop) (c : Core σ) : Prop where
  all : AllChannels Q c
  chosen : 0 ≤ c.activeReadData → Chosen c

theorem LineEnd.idle (all : AllChannels Q c) (idle : c.activeReadData < 0) : LineEnd Q c :=
  ⟨all, fun active => absurd idle (by omega)⟩

theorem DataChannels.at?_none {channels : DataChannels} {chan : Int}
    (missing : channels.at? chan = none) : ¬ (0 ≤ chan ∧ chan < channels.length) := by
  unfold DataChannels.at? at missing
  split at missing
  · omega
  · have outside := List.getElem?_eq_none_iff.mp missing
    omega

theorem activeChannel_misnamed {crash : Crash σ} (ends : c.activeChannel = .error crash)
    (named : .named c.activeReadData c.activeReadChannel
      ((c.readChannels c.activeReadData).map List.length) ∈ c.log) :
    crash.core = c ∧ crash.fault ≠ .memcpySize ∧ Misnamed c.log := by
  unfold Core.activeChannel at ends
  split at ends
  · rename_i unknown
    cases ends
    refine ⟨rfl, by simp, _, _, _, named, ?_⟩
    simp [unknown]
  · rename_i channels known
    split at ends
    · rename_i missing
      cases ends
      refine ⟨rfl, by simp, _, _, _, named, ?_⟩
      intro n count
      simp only [known, Option.map_some, Option.some.injEq] at count
      subst count
      exact DataChannels.at?_none missing
    · contradiction

section
variable (sub : Subclass σ) (closed : ∀ d size, Q d → Q { d with binaryReadChunkSize := size })
  (new : ∀ size : Nat, (size : Int) ≤ longMax → Q (DataRead.new size))
include closed new

omit closed in
theorem binaryCommand_channels (all : AllChannels Q c) (idle : c.activeReadData < 0)
    (params : List UInt8) : Ends (LineEnd Q) (LineCrash Q) (binaryCommand sub c params) := by
  unfold binaryCommand
  split
  · exact LineEnd.idle (all.congr (by simp)) (Core.refuse_negative sub c)
  · rename_i data_conn rest number
    have channels := initFromConnection_ends new rest
    split <;> rename_i read <;> rw [read] at channels
    · rcases channels with rfl | rfl
      · exact ⟨all, by simp, by simp [Fault.addressing]⟩
      · exact ⟨all, by simp, by simp [Fault.addressing]⟩
    · apply LineEnd.idle
      · exact (all.set (paramNextInteger_int number) channels).congr (by simp)
      · exact Core.newDataConn_negative sub _ _ idle

omit new in
theorem readChannel_channels (all : AllChannels Q c)
    (named : .named c.activeReadData c.activeReadChannel
      ((c.readChannels c.activeReadData).map List.length) ∈ c.log)
    (params : List UInt8) : Ends (LineEnd Q) (LineCrash Q) (readChannel sub c params) := by
  unfold readChannel
  split
  · rename_i ends
    obtain ⟨same, copied, missing⟩ := activeChannel_misnamed ends named
    exact ⟨same ▸ all, copied, fun _ => same ▸ missing⟩
  · rename_i channels d found
    obtain ⟨known, here⟩ := activeChannel_ok.mp found
    dsimp only
    generalize paramNextSSizeT d.binaryReadChunkSize params = read
    obtain ⟨size, _, _⟩ := read
    dsimp only
    have kept : AllChannels Q (c.setChannels c.activeReadData
        (some (channels.put c.activeReadChannel { d with binaryReadChunkSize := size }))) :=
      all.set (all _ _ known).1
        (put_all (all _ _ known).2 _ (closed d size ((all _ _ known).2 d (at?_mem here))))
    split
    · exact LineEnd.idle (kept.congr (by simp)) (Core.refuse_negative sub _)
    · refine ⟨kept.congr (by simp), fun _ => ?_⟩
      refine ⟨_, { d with binaryReadChunkSize := size },
        activeChannel_ok.mpr ⟨?_, DataChannels.at?_put here _⟩, ?_⟩
      · simp
      · simp

omit new in
theorem dataCommand_channels (all : AllChannels Q c) (params : List UInt8) :
    Ends (LineEnd Q) (LineCrash Q) (dataCommand sub c params) := by
  unfold dataCommand
  split
  · exact LineEnd.idle (all.congr (by simp [Core.setActiveReadData])) (Core.refuse_negative sub _)
  · split
    · apply LineEnd.idle _ (Core.refuse_negative sub _)
      exact all.congr (by simp [Core.setActiveReadData, Core.setActiveReadChannel])
    · apply readChannel_channels sub closed
      · exact all.congr rfl
      · simp [Core.setActiveReadData, Core.setActiveReadChannel]

omit closed new in
theorem binaryKilledCommand_channels (all : AllChannels Q c) (idle : c.activeReadData < 0)
    (params : List UInt8) : LineEnd Q (binaryKilledCommand sub c params) := by
  unfold binaryKilledCommand
  split
  · exact LineEnd.idle (all.congr (by simp)) (Core.connectionError_negative sub c idle)
  · split
    · exact LineEnd.idle all idle
    · apply LineEnd.idle
      · exact AllChannels.erase (all.congr (by simp)) _
      · exact Core.fullDataReceived_negative sub _ _ _ idle

omit closed new in
theorem sharedEndCommand_channels (all : AllChannels Q c) (idle : c.activeReadData < 0)
    (params : List UInt8) : Ends (LineEnd Q) (LineCrash Q) (sharedEndCommand sub c params) := by
  unfold sharedEndCommand
  split
  · exact LineEnd.idle (all.congr (by simp)) (Core.connectionError_negative sub c idle)
  · split
    · exact LineEnd.idle (all.congr (by simp)) (Core.connectionError_negative sub c idle)
    · split
      · exact LineEnd.idle all idle
      · have told (dC : Int) (channels : DataChannels) :
            AllChannels Q (c.fullDataReceived sub dC channels) := all.congr (by simp)
        dsimp only
        split
        · exact LineEnd.idle ((told _ _).erase _) (Core.fullDataReceived_negative sub _ _ _ idle)
        · exact ⟨told _ _, by simp, by simp [Fault.addressing]⟩

theorem processLine_channels (all : AllChannels Q c) (idle : c.activeReadData < 0)
    (text : List UInt8) : Ends (LineEnd Q) (LineCrash Q) (processLine sub c text) := by
  have all : AllChannels Q (c.emit (.line text)) := all.congr rfl
  have idle : (c.emit (.line text)).activeReadData < 0 := idle
  unfold processLine
  dsimp only
  split_ifs
  · exact binaryCommand_channels sub new all idle _
  · exact dataCommand_channels sub closed all _
  · exact binaryKilledCommand_channels sub all idle _
  · exact LineEnd.idle (all.congr (by simp [sharedCommand])) (Core.connectionError_negative sub _ idle)
  · exact sharedEndCommand_channels sub all idle _
  · exact LineEnd.idle (all.congr (by simp)) (Core.react_negative sub _ _ idle)

end

section
variable (sub : Subclass σ) {channels : DataChannels} {d : DataRead}

/-- The chunk goes on only in the channel it was in. -/
structure Continues (Q : DataRead → Prop) (channels : DataChannels) (d : DataRead) (c : Core σ) :
    Prop where
  all : AllChannels Q c
  same : 0 ≤ c.activeReadData → c.activeChannel = .ok (channels, d)
  more : 0 ≤ c.activeReadData → d.binaryReadChunkSize ≠ 0

theorem finishData_continues (all : AllChannels Q c) (found : c.activeChannel = .ok (channels, d)) :
    ∃ c', finishData sub c channels = .ok c' ∧ Continues Q channels d c' := by
  obtain ⟨_, here⟩ := activeChannel_ok.mp found
  have closing {c' : Core σ} (all : AllChannels Q c') :
      Continues Q channels d (c'.setActiveReadData (-1)) :=
    ⟨all.congr rfl, by simp [Core.setActiveReadData], by simp [Core.setActiveReadData]⟩
  unfold finishData
  split
  · exact ⟨_, rfl, closing (AllChannels.erase (all.congr (by simp)) _)⟩
  · simp only [here]
    split
    · exact ⟨_, rfl, closing all⟩
    · rename_i more
      exact ⟨c, rfl, all, fun _ => found, fun _ => more⟩

theorem dataReceived_continues (all : AllChannels Q c)
    (found : c.activeChannel = .ok (channels, d)) :
    ∃ c', dataReceived sub c = .ok c' ∧ Continues Q channels d c' := by
  obtain ⟨known, here⟩ := activeChannel_ok.mp found
  unfold dataReceived
  simp only [known, here, Option.isNone_some, Bool.false_eq_true, if_false]
  split
  · have told : AllChannels Q
        (c.emit (.dataReceived c.activeReadData c.activeReadChannel channels.length)) :=
      all.congr rfl
    exact finishData_continues sub told (activeChannel_ok.mpr ⟨known, here⟩)
  · exact finishData_continues sub all found

theorem stored_continues (all : AllChannels Q c) (found : c.activeChannel = .ok (channels, d))
    {e : DataRead} (new : Q e) (data : List UInt8) :
    ∃ c', dataReceived sub (c.stored channels e data) = .ok c' ∧
      Continues Q (channels.put c.activeReadChannel e) e c' := by
  obtain ⟨known, here⟩ := activeChannel_ok.mp found
  apply dataReceived_continues sub
  · exact (all.set (all _ _ known).1 (put_all (all _ _ known).2 _ new)).congr rfl
  · apply activeChannel_ok.mpr
    exact ⟨by simp [Core.stored, Core.emitStored], DataChannels.at?_put here e⟩

/-- What the channels hold, from one step to the next. `G` is what the log is known to be, `Fit`
what holds of the channel a chunk is read into. -/
structure Discipline (G : List Event → Prop) (Q Fit : DataRead → Prop) : Prop where
  earlier : ∀ {log log' : List Event}, (∀ e ∈ log, e ∈ log') → G log' → G log
  new : ∀ size : Nat, (size : Int) ≤ longMax → Q (DataRead.new size)
  closed : ∀ d size, Q d → Q { d with binaryReadChunkSize := size }
  chosen : ∀ {log id chan d}, G log →
    .header id chan d.binaryReadChunkSize d.binaryReadDataSize ∈ log → Q d → Fit d
  store : ∀ {d} {data : List UInt8}, Q d → Fit d → data.length ≤ d.binaryReadChunkSize →
    Q (d.store data) ∧ Fit (d.store data)

structure Held (Q Fit : DataRead → Prop) (c : Core σ) : Prop where
  all : AllChannels Q c
  active : 0 ≤ c.activeReadData → ∃ channels d, c.activeChannel = .ok (channels, d) ∧ Fit d ∧
    0 < d.binaryReadChunkSize

structure Stopped (Q Fit : DataRead → Prop) (crash : Crash σ) : Prop where
  all : AllChannels Q crash.core
  copied : crash.fault = .memcpySize → ∃ d, Fit d ∧ d.binaryReadChunkSize < 0
  named : crash.fault.addressing = true → Misnamed crash.core.log

variable {G : List Event → Prop} {Fit : DataRead → Prop} (rules : Discipline G Q Fit)
include rules

omit rules in
theorem Continues.held (kept : Continues Q channels d c) (fit : Fit d)
    (size : 0 ≤ d.binaryReadChunkSize) : Held Q Fit c := by
  refine ⟨kept.all, fun active => ⟨channels, d, kept.same active, fit, ?_⟩⟩
  have more := kept.more active
  omega

theorem binaryStart_held (all : AllChannels Q c) (found : c.activeChannel = .ok (channels, d))
    (good : Q d) (fit : Fit d) (data : List UInt8) :
    Ends (fun result => Held Q Fit result.1 ∧
        (0 ≤ result.1.activeReadData → data.drop result.2 = []))
      (Stopped Q Fit) (binaryStart sub c data) := by
  unfold binaryStart
  simp only [found]
  by_cases negative : min (data.length : Int) d.binaryReadChunkSize < 0
  · simp only [DataRead.addData, negative, if_true]
    refine ⟨all, fun _ => ⟨d, fit, by omega⟩, by simp [Fault.addressing]⟩
  · simp only [DataRead.addData, negative, if_false]
    generalize size : (min (data.length : Int) d.binaryReadChunkSize).toNat = n
    have taken : (data.take n).length = n := by simp; omega
    have size : ((data.take n).length : Int) ≤ d.binaryReadChunkSize := by omega
    obtain ⟨kept, fits⟩ := rules.store good fit size
    obtain ⟨c', told, ends⟩ := stored_continues sub all found kept (data.take n)
    rw [told]
    have chunk := DataRead.store_chunk d (data.take n)
    refine ⟨ends.held fits (by omega), fun active => ?_⟩
    -- a chunk that goes on has taken every byte there was
    have more := ends.more active
    rw [chunk, taken] at more
    exact List.drop_eq_nil_of_le (by omega)

theorem lineStep_held (held : Held Q Fit c) (idle : c.activeReadData < 0) (text rest : List UInt8) :
    Ends (fun result => G result.1.log →
        Held Q Fit result.1 ∧ (0 ≤ result.1.activeReadData → result.2 = []))
      (fun crash => G crash.core.log → Stopped Q Fit crash) (lineStep sub c text rest) := by
  have line := processLine_channels sub rules.closed rules.new held.all idle text
  unfold lineStep
  split <;> rename_i ran <;> rw [ran] at line
  · intro _
    exact ⟨line.all, fun copied => absurd copied line.copied, line.named⟩
  · rename_i begun
    split
    · rename_i active
      obtain ⟨channels, d, found, header⟩ := line.chosen active
      have good : Q d := by
        obtain ⟨known, here⟩ := activeChannel_ok.mp found
        exact (line.all _ _ known).2 d (at?_mem here)
      have log := binaryStart_log sub begun active rest
      have started (known : G begun.log) := binaryStart_held sub rules line.all found good
        (rules.chosen known header good) rest
      split <;> rename_i outcome <;> rw [outcome] at log started
      · intro known
        exact started (rules.earlier (fun _ => log.mem) known)
      · intro known
        exact started (rules.earlier (fun _ => log.mem) known)
    · rename_i waits
      exact fun _ => ⟨⟨line.all, fun active => absurd active waits⟩, fun active => absurd active waits⟩

theorem processLoop_held (bytes : List UInt8) (held : Held Q Fit c)
    (idle : 0 ≤ c.activeReadData → bytes = []) :
    Ends (fun result => G result.1.log → Held Q Fit result.1)
      (fun crash => G crash.core.log → Stopped Q Fit crash) (processLoop sub c bytes) := by
  generalize size : bytes.length = n
  induction n using Nat.strong_induction_on generalizing bytes c with
  | _ n ih =>
  subst size
  cases found : scan bytes with
  | kept text =>
    rw [processLoop_kept sub c found]
    exact fun _ => held
  | lost rest =>
    have shorter := (scan_length bytes).1 rest found
    rw [processLoop_lost sub c found]
    apply ih _ shorter rest held _ rfl
    intro active
    simp [idle active] at shorter
  | line text rest =>
    have shorter := (scan_length bytes).2 text rest found
    have waits : c.activeReadData < 0 := by
      by_contra active
      simp [idle (by omega)] at shorter
    have line := lineStep_held sub rules held waits text rest
    rw [processLoop_line sub c found]
    split <;> rename_i outcome <;> rw [outcome] at line
    · exact line
    · rename_i c' left
      have log := processLoop_log sub c' left
      have next (known : G c'.log) := ih left.length
        (Nat.lt_of_le_of_lt (lineStep_length outcome) shorter) left (line known).1 (line known).2 rfl
      cases ends : processLoop sub c' left with
      | ok result =>
        rw [ends] at log next
        exact fun known => next (rules.earlier (fun _ => log.mem) known) known
      | error crash =>
        rw [ends] at log next
        exact fun known => next (rules.earlier (fun _ => log.mem) known) known

theorem receiveText_held {r : Reader σ} (held : Held Q Fit r.core) (idle : r.core.activeReadData < 0)
    (result : ReadResult) :
    Ends (fun r' => G r'.core.log → Held Q Fit r'.core)
      (fun crash => G crash.core.log → Stopped Q Fit crash) (receiveText sub r result) := by
  have dropped : Held Q Fit (r.core.dropConnection sub) := by
    refine ⟨held.all.congr (by simp), fun active => ?_⟩
    have negative := Core.connectionError_negative sub r.core idle
    exact absurd negative (not_lt.mpr active)
  unfold receiveText
  split
  · rename_i bytes
    have loop := processLoop_held sub rules (r.buf ++ bytes) held (fun active => by omega)
    unfold processBuffer
    simp only [checkBufferSize_core, checkBufferSize_buf]
    split <;> rename_i outcome <;> rw [outcome] at loop <;> exact loop
  · exact fun _ => by simpa using dropped
  · exact fun _ => by simpa using dropped
  · exact fun _ => by simpa using held

theorem receiveBinary_held (held : Held Q Fit c) (active : 0 ≤ c.activeReadData)
    {result : ReadResult} (read : result ≠ .failed)
    (within : ∀ bytes channels d, result = .data bytes → c.activeChannel = .ok (channels, d) →
      bytes.length ≤ d.binaryReadChunkSize) :
    ∃ c', receiveBinary sub c result = .ok c' ∧ Held Q Fit c' := by
  obtain ⟨channels, d, found, fit, _⟩ := held.active active
  obtain ⟨known, here⟩ := activeChannel_ok.mp found
  unfold receiveBinary
  simp only [found]
  cases result with
  | data bytes =>
    have size := within bytes channels d rfl found
    obtain ⟨kept, fits⟩ := rules.store ((held.all _ _ known).2 d (at?_mem here)) fit size
    have chunk := DataRead.store_chunk d bytes
    obtain ⟨c', told, ends⟩ := stored_continues sub held.all found kept bytes
    exact ⟨c', told, ends.held fits (by omega)⟩
  | failed => contradiction
  | eof => exact ⟨c, rfl, held⟩
  | interrupted => exact ⟨c, rfl, held⟩

theorem receive_held {r : Reader σ} (held : Held Q Fit r.core) {result : ReadResult}
    (wellRead : ReadOf r result)
    (read : r.core.readable → 0 ≤ r.core.activeReadData → result ≠ .failed) :
    Ends (fun r' => G r'.core.log → Held Q Fit r'.core)
      (fun crash => G crash.core.log → Stopped Q Fit crash) (receive sub r result) := by
  unfold receive
  split
  · exact fun _ => held
  · rename_i readable
    split
    · rename_i active
      have read := read (not_not.mp readable) active
      obtain ⟨c', ran, next⟩ := receiveBinary_held sub rules held active read (by
        intro bytes channels d same found
        subst same
        have size := wellRead.2
        simpa only [requested, active, if_true, found] using size)
      rw [ran]
      exact fun _ => next
    · exact receiveText_held sub rules held (by omega) result

end

section
variable (sub : Subclass σ) {Fit : DataRead → Prop}

theorem dataReceived_idle (all : AllChannels Q c) (idle : c.activeReadData < 0) :
    Ends (Held Q Fit) (fun crash => AllChannels Q crash.core ∧ crash.fault ≠ .memcpySize)
      (dataReceived sub c) := by
  have closing {c : Core σ} (all : AllChannels Q c) : Held Q Fit (c.setActiveReadData (-1)) :=
    ⟨all.congr rfl, by simp [Core.setActiveReadData]⟩
  have finish {c : Core σ} (all : AllChannels Q c) (idle : c.activeReadData < 0)
      (channels : DataChannels) :
      Ends (Held Q Fit) (fun crash => AllChannels Q crash.core ∧ crash.fault ≠ .memcpySize)
        (finishData sub c channels) := by
    unfold finishData
    split
    · exact closing (AllChannels.erase (all.congr (by simp)) _)
    · split
      · exact ⟨all, by simp⟩
      · split
        · exact closing all
        · exact ⟨all, fun active => absurd idle (not_lt.mpr active)⟩
  unfold dataReceived
  split
  · exact ⟨all, by simp⟩
  · split
    · split
      · exact ⟨all, by simp⟩
      · exact finish (c := c.emit _) (all.congr rfl) idle _
    · exact finish all idle _

theorem receiveFailed_held (held : Held Q Fit c) (active : 0 ≤ c.activeReadData) :
    Ends (Held Q Fit) (fun crash => AllChannels Q crash.core ∧ crash.fault ≠ .memcpySize)
      (receiveBinary sub c .failed) := by
  obtain ⟨channels, d, found, fit, positive⟩ := held.active active
  have all : AllChannels Q (c.dropConnection sub) := held.all.congr (by simp)
  unfold receiveBinary
  simp only [found]
  by_cases idle : (c.dropConnection sub).activeReadData < 0
  · exact dataReceived_idle sub all idle
  · have same : (c.dropConnection sub).activeReadData = c.activeReadData ∧
        (c.dropConnection sub).activeReadChannel = c.activeReadChannel := by
      unfold Core.dropConnection Core.connectionError at idle ⊢
      split at idle
      · simp at idle
      · split <;> exact ⟨rfl, rfl⟩
    have found : (c.dropConnection sub).activeChannel = .ok (channels, d) := by
      rw [activeChannel_ok, same.1, same.2, Core.dropConnection_readChannels]
      exact activeChannel_ok.mp found
    obtain ⟨c', told, ends⟩ := dataReceived_continues sub all found
    rw [told]
    exact ends.held fit positive.le

theorem receive_kept {G : List Event → Prop} (rules : Discipline G Q Fit) {r : Reader σ}
    (held : Held Q Fit r.core) {result : ReadResult} (wellRead : ReadOf r result) :
    Ends (fun r' => G r'.core.log → Held Q Fit r'.core)
      (fun crash => G crash.core.log → AllChannels Q crash.core ∧
        (crash.fault = .memcpySize → ∃ d, Fit d ∧ d.binaryReadChunkSize < 0))
      (receive sub r result) := by
  by_cases failing : 0 ≤ r.core.activeReadData ∧ result = .failed
  · obtain ⟨active, rfl⟩ := failing
    have read := receiveFailed_held sub held active
    unfold receive
    split
    · exact fun _ => held
    · split <;> rename_i outcome <;> rw [outcome] at read
      · exact fun _ => ⟨read.1, fun copied => absurd copied read.2⟩
      · exact fun _ => read
  · have read := receive_held sub rules held wellRead
      (fun _ active same => failing ⟨active, same⟩)
    cases ends : receive sub r result with
    | ok r' =>
      rw [ends] at read
      exact read
    | error crash =>
      rw [ends] at read
      exact fun known => ⟨(read known).all, (read known).copied⟩

end

end

end Rts2.Kernel
