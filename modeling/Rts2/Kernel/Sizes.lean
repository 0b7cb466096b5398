import Rts2.Kernel.Bounds

/-! The sizes of the channels. DataRead trusts the size a PROTO_DATA line gives for the chunk,
so that its buffer holds as long as every chunk fits in what remains of its channel. -/
namespace Rts2.Kernel

open Lib

universe u

variable {σ : Type u}

def DataRead.Within (d : DataRead) : Prop :=
  d.stored.length + d.binaryReadDataSize = d.declared ∧ (d.declared : Int) ≤ longMax

def DataRead.ChunkFits (d : DataRead) : Prop :=
  0 ≤ d.binaryReadChunkSize ∧ d.binaryReadChunkSize ≤ d.binaryReadDataSize

def Event.HeaderFits : Event → Prop
  | .header _ _ size rest => 0 ≤ size ∧ size ≤ rest
  | .line _ | .named .. | .stored .. | .newDataConn _ | .dataReceived .. | .fullDataReceived .. => True

instance : DecidablePred Event.HeaderFits
  | .header .. => inferInstanceAs (Decidable (_ ∧ _))
  | .line _ | .named .. | .stored .. | .newDataConn _ | .dataReceived .. | .fullDataReceived .. =>
    isTrue trivial

def HeadersFit (log : List Event) : Prop := ∀ e ∈ log, e.HeaderFits

instance (log : List Event) : Decidable (HeadersFit log) := List.decidableBAll _ log

theorem within_new (size : Nat) (bound : (size : Int) ≤ longMax) : (DataRead.new size).Within := by
  simp [DataRead.Within, DataRead.new, bound]

theorem store_within {d : DataRead} {data : List UInt8} (within : d.Within) (fits : d.ChunkFits)
    (size : data.length ≤ d.binaryReadChunkSize) :
    (d.store data).Within ∧ (d.store data).ChunkFits := by
  obtain ⟨sum, bound⟩ := within
  obtain ⟨_, fits⟩ := fits
  have small : d.binaryReadDataSize < sizeModulus := by
    simp only [longMax] at bound
    simp only [sizeModulus]
    omega
  have rest : (d.store data).binaryReadDataSize = d.binaryReadDataSize - data.length :=
    DataRead.store_rest (by omega) small
  constructor
  · simp only [DataRead.Within, rest, DataRead.store_stored, DataRead.store_declared,
      List.length_append]
    exact ⟨by omega, bound⟩
  · simp only [DataRead.ChunkFits, rest, DataRead.store_chunk]
    omega

theorem sizes_discipline : Discipline HeadersFit DataRead.Within DataRead.ChunkFits where
  earlier := fun grown fit e mem => fit e (grown e mem)
  new := within_new
  closed := fun _ _ within => within
  chosen := fun fit header _ => fit _ header
  store := store_within

def lastCore : Except (Crash σ) (Reader σ) → Core σ
  | .ok r => r.core
  | .error crash => crash.core

def InBounds : Except (Crash σ) (Reader σ) → Prop :=
  Ends (fun r => AllChannels DataRead.Within r.core)
    (fun crash => AllChannels DataRead.Within crash.core ∧ crash.fault ≠ .memcpySize)

theorem receive_sizes (sub : Subclass σ) {r : Reader σ} (result : ReadResult)
    (held : HeadersFit r.core.log → Held DataRead.Within DataRead.ChunkFits r.core)
    (wellRead : ReadOf r result) :
    Ends (fun r' => HeadersFit r'.core.log → Held DataRead.Within DataRead.ChunkFits r'.core)
      (fun crash => HeadersFit crash.core.log →
        AllChannels DataRead.Within crash.core ∧ crash.fault ≠ .memcpySize)
      (receive sub r result) := by
  have log := receive_log sub r result
  have step (fit : HeadersFit r.core.log) :=
    receive_kept sub sizes_discipline (held fit) wellRead
  cases ends : receive sub r result with
  | ok r' =>
    rw [ends] at log step
    exact fun fit => step (sizes_discipline.earlier (fun _ => log.mem) fit) fit
  | error crash =>
    rw [ends] at log step
    intro fit
    obtain ⟨all, copied⟩ := step (sizes_discipline.earlier (fun _ => log.mem) fit) fit
    refine ⟨all, fun copy => ?_⟩
    obtain ⟨d, fits, negative⟩ := copied copy
    exact absurd negative (not_lt.mpr fits.1)

/-- Whatever a peer sends and however its reads end, the channels stay within their sizes as
long as the announced chunks do. -/
theorem receive_in_bounds (sub : Subclass σ) (outer : σ) (reads : List ReadResult)
    (ready : Ready (receive sub) ReadOf (Reader.fresh outer) reads)
    (fit : HeadersFit (lastCore (feedAll (receive sub) (Reader.fresh outer) reads)).log) :
    InBounds (feedAll (receive sub) (Reader.fresh outer) reads) := by
  have initial : Held DataRead.Within DataRead.ChunkFits (Core.fresh outer) :=
    ⟨by simp [AllChannels, Core.fresh], by simp [Core.fresh]⟩
  have run := feedAll_invariant (receive sub) ReadOf
    (fun r => HeadersFit r.core.log → Held DataRead.Within DataRead.ChunkFits r.core)
    (fun crash => HeadersFit crash.core.log →
      AllChannels DataRead.Within crash.core ∧ crash.fault ≠ .memcpySize)
    (fun r result held wellRead => receive_sizes sub result held wellRead)
    reads (Reader.fresh outer) (fun _ => initial) ready
  cases ends : feedAll (receive sub) (Reader.fresh outer) reads with
  | ok r =>
    rw [ends] at run fit
    exact (run fit).all
  | error crash =>
    rw [ends] at run fit
    exact run fit

/-- "C 1 0 1 2", "D 1 0 2" and two bytes. -/
theorem receive_in_bounds_sample :
    InBounds (feedAll (receive Subclass.passive) (Reader.fresh ())
      [.data [67, 32, 49, 32, 48, 32, 49, 32, 50, 10, 68, 32, 49, 32, 48, 32, 50, 10, 97, 98]]) :=
  receive_in_bounds Subclass.passive () _ (by decide +kernel) (by decide +kernel)

def overflowing : ReadResult :=
  .data [67, 32, 49, 32, 48, 32, 49, 32, 50, 10, 68, 32, 49, 32, 48, 32, 51, 10, 97, 98, 99]

/-- All three bytes are stored, past the size of the channel, and the connection stays up. -/
theorem receive_overflow :
    ¬ ∀ reads, Ready (receive Subclass.passive) ReadOf (Reader.fresh ()) reads →
      InBounds (feedAll (receive Subclass.passive) (Reader.fresh ()) reads) := by
  intro bounded
  have overflow : (feedAll (receive Subclass.passive) (Reader.fresh ()) [overflowing]).toOption.map (fun r => (r.core.readChannels 1, r.core.connState)) =
      some (some [⟨2, [97, 98, 99], sizeModulus - 1, 0⟩], .connected) := by
    decide +kernel
  have run := bounded [overflowing] (by decide +kernel)
  cases ends : feedAll (receive Subclass.passive) (Reader.fresh ()) [overflowing] with
  | error crash => simp [ends, Except.toOption] at overflow
  | ok r =>
    rw [ends] at run overflow
    obtain ⟨known, _⟩ : r.core.readChannels 1 = some [⟨2, [97, 98, 99], sizeModulus - 1, 0⟩] ∧
        r.core.connState = .connected := by
      simpa [Except.toOption] using overflow
    have within := (run 1 _ known).2 _ (List.mem_singleton_self _)
    simp [DataRead.Within, sizeModulus] at within

end Rts2.Kernel
