import Rts2.Kernel.Reader
import Rts2.Lib.Chunks

/-! The log of a connection only grows, also when the process ends. -/
namespace Rts2.Kernel

open Lib

universe u

variable {σ : Type u}

def Event.tells : Event → Bool
  | .dataReceived .. => true
  | .line _ | .named .. | .header .. | .stored .. | .newDataConn _ | .fullDataReceived .. => false

def Event.Told : Event → Prop
  | .dataReceived id chan count => 0 ≤ id ∧ 0 ≤ chan ∧ chan < count
  | .line _ | .named .. | .header .. | .stored .. | .newDataConn _ | .fullDataReceived .. => True

def Grows (K : Event → Prop) (log log' : List Event) : Prop :=
  ∃ more, log' = log ++ more ∧ ∀ e ∈ more, K e

theorem Grows.same {K : Event → Prop} {log log' : List Event} (h : log' = log) :
    Grows K log log' := ⟨[], by simp [h], by simp⟩

theorem Grows.emit {K : Event → Prop} (c : Core σ) (e : Event) (h : K e) :
    Grows K c.log (c.emit e).log := ⟨[e], rfl, by simpa using h⟩

theorem Grows.trans {K : Event → Prop} {log more last : List Event} (h : Grows K log more)
    (h' : Grows K more last) : Grows K log last := by
  obtain ⟨first, rfl, new⟩ := h
  obtain ⟨second, rfl, new'⟩ := h'
  refine ⟨first ++ second, by simp, ?_⟩
  intro e mem
  rcases List.mem_append.mp mem with mem | mem
  · exact new e mem
  · exact new' e mem

theorem Grows.mem {K : Event → Prop} {log log' : List Event} (h : Grows K log log') {e : Event}
    (mem : e ∈ log) : e ∈ log' := by
  obtain ⟨more, rfl, _⟩ := h
  exact List.mem_append_left _ mem

def Extends {α : Type u} (K : Event → Prop) (log : List Event) (core : α → Core σ)
    (result : Except (Crash σ) α) : Prop :=
  Ends (fun a => Grows K log (core a).log) (fun crash => Grows K log crash.core.log) result

theorem Extends.trans {α : Type u} {K : Event → Prop} {log more : List Event}
    {core : α → Core σ} {result : Except (Crash σ) α} (h : Grows K log more)
    (e : Extends K more core result) : Extends K log core result := by
  cases result with
  | ok a => exact h.trans e
  | error crash => exact h.trans e

theorem Grows.weaken {K L : Event → Prop} (weaker : ∀ e, K e → L e) {log log' : List Event}
    (h : Grows K log log') : Grows L log log' := by
  obtain ⟨more, same, new⟩ := h
  exact ⟨more, same, fun e mem => weaker e (new e mem)⟩

theorem Extends.weaken {α : Type u} {K L : Event → Prop} (weaker : ∀ e, K e → L e)
    {log : List Event} {core : α → Core σ} {result : Except (Crash σ) α}
    (e : Extends K log core result) : Extends L log core result := by
  cases result with
  | ok a => exact Grows.weaken weaker e
  | error crash => exact Grows.weaken weaker e

section
variable (sub : Subclass σ) (c : Core σ)

theorem activeChannel_crash {crash : Crash σ} (ends : c.activeChannel = .error crash) :
    crash.core = c := by
  unfold Core.activeChannel at ends
  split at ends
  · cases ends
    rfl
  · split at ends
    · cases ends
      rfl
    · contradiction

abbrev Quiet (e : Event) : Prop := e.tells = false

theorem Quiet.told {e : Event} (quiet : Quiet e) : e.Told := by
  cases e with
  | dataReceived => simp [Quiet, Event.tells] at quiet
  | _ => trivial

theorem newDataConn_grows (id : Int) : Grows Quiet c.log (c.newDataConn sub id).log := by
  unfold Core.newDataConn
  split
  · exact (Grows.emit (K := Quiet) c _ rfl).trans (Grows.same (Core.react_log sub _ _))
  · exact Grows.same rfl

theorem fullDataReceived_grows (id : Int) (channels : DataChannels) :
    Grows Quiet c.log (c.fullDataReceived sub id channels).log := by
  unfold Core.fullDataReceived
  split
  · exact (Grows.emit (K := Quiet) c _ rfl).trans (Grows.same (Core.react_log sub _ _))
  · exact Grows.same rfl

theorem binaryCommand_log (params : List UInt8) :
    Extends Quiet c.log id (binaryCommand sub c params) := by
  unfold binaryCommand
  split
  · exact Grows.same (by simp)
  · split
    · exact Grows.same rfl
    · exact newDataConn_grows sub (c.setChannels _ _) _

theorem readChannel_log (params : List UInt8) :
    Extends Quiet c.log id (readChannel sub c params) := by
  unfold readChannel
  split
  · rename_i ends
    exact Grows.same (by rw [activeChannel_crash c ends])
  · dsimp only
    split
    · exact Grows.same (by simp)
    · exact Grows.emit (c.setChannels _ _) _ rfl

theorem dataCommand_log (params : List UInt8) :
    Extends Quiet c.log id (dataCommand sub c params) := by
  unfold dataCommand
  split
  · exact Grows.same (by simp [Core.setActiveReadData])
  · split
    · exact Grows.same (by simp [Core.setActiveReadData, Core.setActiveReadChannel])
    · exact Extends.trans (Grows.emit ((c.setActiveReadData _).setActiveReadChannel _) _ rfl)
        (readChannel_log sub _ _)

theorem sharedEndCommand_log (params : List UInt8) :
    Extends Quiet c.log id (sharedEndCommand sub c params) := by
  unfold sharedEndCommand
  split
  · exact Grows.same (by simp)
  · split
    · exact Grows.same (by simp)
    · split
      · exact Grows.same rfl
      · dsimp only
        split
        · exact fullDataReceived_grows sub c _ _
        · exact fullDataReceived_grows sub c _ _

theorem binaryKilledCommand_log (params : List UInt8) :
    Grows Quiet c.log (binaryKilledCommand sub c params).log := by
  unfold binaryKilledCommand
  split
  · exact Grows.same (by simp)
  · split
    · exact Grows.same rfl
    · exact fullDataReceived_grows sub c _ _

theorem processLine_log (text : List UInt8) :
    Extends Quiet (c.emit (.line text)).log id (processLine sub c text) := by
  unfold processLine
  dsimp only
  split_ifs
  · exact binaryCommand_log sub _ _
  · exact dataCommand_log sub _ _
  · exact binaryKilledCommand_log sub _ _
  · exact Grows.same (by simp [sharedCommand])
  · exact sharedEndCommand_log sub _ _
  · exact Grows.same (by simp)

theorem finishData_log (channels : DataChannels) :
    Extends Quiet c.log id (finishData sub c channels) := by
  unfold finishData
  split
  · exact fullDataReceived_grows sub c _ _
  · split
    · exact Grows.same rfl
    · split
      · exact Grows.same rfl
      · exact Grows.same rfl

theorem dataReceived_log {K : Event → Prop} (quiet : ∀ e, Quiet e → K e)
    (told : ∀ (chan : Int) (count : Nat), 0 ≤ chan → chan < count →
      K (.dataReceived c.activeReadData chan count)) :
    Extends K c.log id (dataReceived sub c) := by
  unfold dataReceived
  split
  · exact Grows.same rfl
  · split
    · split
      · exact Grows.same rfl
      · rename_i present
        obtain ⟨d, here⟩ := Option.ne_none_iff_exists'.mp (by simpa using present)
        obtain ⟨n, same, inside, _⟩ := DataChannels.at?_some here
        have new := told c.activeReadChannel _ (by omega) (by rw [same]; exact_mod_cast inside)
        apply Extends.trans (Grows.emit c _ new)
        exact (finishData_log sub _ _).weaken quiet
    · exact (finishData_log sub c _).weaken quiet

theorem stored_log (channels : DataChannels) (d : DataRead) (data : List UInt8) :
    Grows Quiet c.log (c.stored channels d data).log := by
  refine ⟨_, rfl, ?_⟩
  intro e mem
  obtain ⟨b, _, rfl⟩ := List.mem_map.mp mem
  rfl

theorem dataReceived_told (active : 0 ≤ c.activeReadData) :
    Extends Event.Told c.log id (dataReceived sub c) :=
  dataReceived_log sub c (fun _ => Quiet.told) (fun _ _ first last => ⟨active, first, last⟩)

theorem stored_told (channels : DataChannels) (d : DataRead) (data : List UInt8)
    (active : 0 ≤ c.activeReadData) :
    Extends Event.Told c.log id (dataReceived sub (c.stored channels d data)) :=
  Extends.trans ((stored_log c channels d data).weaken fun _ => Quiet.told)
    (dataReceived_told sub _ active)

theorem binaryStart_log (active : 0 ≤ c.activeReadData) (data : List UInt8) :
    Extends Event.Told c.log Prod.fst (binaryStart sub c data) := by
  unfold binaryStart
  split
  · rename_i ends
    exact Grows.same (by rw [activeChannel_crash c ends])
  · split
    · exact Grows.same rfl
    · rename_i channels _ _ _ d readSize _
      have told := stored_told sub c channels d (data.take readSize) active
      split <;> rename_i result <;> rw [result] at told <;> exact told

theorem lineStep_log (text rest : List UInt8) :
    Extends Event.Told (c.emit (.line text)).log Prod.fst (lineStep sub c text rest) := by
  have line := (processLine_log sub c text).weaken fun _ => Quiet.told
  unfold lineStep
  split
  · rename_i result
    rw [result] at line
    exact line
  · rename_i begun result
    rw [result] at line
    have grown : Grows Event.Told (c.emit (.line text)).log begun.log := line
    split
    · rename_i active
      have started := Extends.trans grown (binaryStart_log sub begun active rest)
      split <;> rename_i result <;> rw [result] at started <;> exact started
    · exact line

theorem processLoop_log (bytes : List UInt8) :
    Extends Event.Told c.log Prod.fst (processLoop sub c bytes) := by
  generalize size : bytes.length = n
  induction n using Nat.strong_induction_on generalizing bytes c with
  | _ n ih =>
  subst size
  cases found : scan bytes with
  | kept text =>
    rw [processLoop_kept sub c found]
    exact Grows.same rfl
  | lost rest =>
    rw [processLoop_lost sub c found]
    exact ih _ ((scan_length bytes).1 rest found) c rest rfl
  | line text rest =>
    have first : Grows Event.Told c.log (c.emit (.line text)).log := Grows.emit c _ trivial
    have line := Extends.trans first (lineStep_log sub c text rest)
    have shorter := (scan_length bytes).2 text rest found
    rw [processLoop_line sub c found]
    split <;> rename_i result <;> rw [result] at line
    · exact line
    · exact Extends.trans line (ih _ (Nat.lt_of_le_of_lt (lineStep_length result) shorter) _ _ rfl)

theorem receiveBinary_told (active : 0 ≤ c.activeReadData) {result : ReadResult}
    (read : result ≠ .failed) : Extends Event.Told c.log id (receiveBinary sub c result) := by
  unfold receiveBinary
  split
  · rename_i ends
    exact Grows.same (by rw [activeChannel_crash c ends])
  · cases result with
    | data bytes => exact stored_told sub c _ _ _ active
    | failed => contradiction
    | eof => exact Grows.same rfl
    | interrupted => exact Grows.same rfl

theorem receiveText_log (r : Reader σ) (result : ReadResult) :
    Extends Event.Told r.core.log Reader.core (receiveText sub r result) := by
  unfold receiveText
  split
  · rename_i bytes
    have loop := processLoop_log sub r.core ((checkBufferSize r).buf ++ bytes)
    unfold processBuffer
    simp only [checkBufferSize_core]
    split <;> rename_i outcome <;> rw [outcome] at loop <;> exact loop
  · exact Grows.same (by simp)
  · exact Grows.same (by simp)
  · exact Grows.same (by rw [checkBufferSize_core])

theorem receive_told (r : Reader σ) {result : ReadResult}
    (read : r.core.readable → 0 ≤ r.core.activeReadData → result ≠ .failed) :
    Extends Event.Told r.core.log Reader.core (receive sub r result) := by
  unfold receive
  split
  · exact Grows.same rfl
  · rename_i readable
    split
    · rename_i active
      have read := receiveBinary_told sub r.core active (read (not_not.mp readable) active)
      split <;> rename_i outcome <;> rw [outcome] at read <;> exact read
    · exact receiveText_log sub r result

theorem receiveBinary_log (result : ReadResult) :
    Extends (fun _ => True) c.log id (receiveBinary sub c result) := by
  have received (c : Core σ) := dataReceived_log (K := fun _ => True) sub c (by simp) (by simp)
  unfold receiveBinary
  split
  · rename_i ends
    exact Grows.same (by rw [activeChannel_crash c ends])
  · split
    · exact Extends.trans ((stored_log c _ _ _).weaken (by simp)) (received _)
    · exact Extends.trans (Grows.same (by simp)) (received _)
    · exact Grows.same rfl
    · exact Grows.same rfl

theorem receive_log (r : Reader σ) (result : ReadResult) :
    Extends (fun _ => True) r.core.log Reader.core (receive sub r result) := by
  unfold receive
  split
  · exact Grows.same rfl
  · split
    · have read := receiveBinary_log sub r.core result
      split <;> rename_i outcome <;> rw [outcome] at read <;> exact read
    · exact (receiveText_log sub r result).weaken (by simp)

end

end Rts2.Kernel
