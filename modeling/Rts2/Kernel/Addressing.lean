import Rts2.Kernel.Sizes

/-! The active ids. processLine stores them before it looks for the channel, and nothing asks
later whether it is there. -/
namespace Rts2.Kernel

open Lib

universe u

variable {σ : Type u}

def Addressed (c : Core σ) : Prop :=
  0 ≤ c.activeReadData → ∃ channels d, c.readChannels c.activeReadData = some channels ∧
    channels.at? c.activeReadChannel = some d

def Event.NamesChannel : Event → Prop
  | .named _ chan (some count) => 0 ≤ chan ∧ chan < count
  | .named _ _ none => False
  | .line _ | .header .. | .stored .. | .newDataConn _ | .dataReceived .. | .fullDataReceived .. => True

instance : DecidablePred Event.NamesChannel
  | .named _ _ (some _) => inferInstanceAs (Decidable (_ ∧ _))
  | .named _ _ none => isFalse id
  | .line _ | .header .. | .stored .. | .newDataConn _ | .dataReceived .. | .fullDataReceived .. =>
    isTrue trivial

def NamesChannels (log : List Event) : Prop := ∀ e ∈ log, e.NamesChannel

instance (log : List Event) : Decidable (NamesChannels log) := List.decidableBAll _ log

def ChunkRead (r : Reader σ) (result : ReadResult) : Prop :=
  r.core.readable → 0 ≤ r.core.activeReadData → result ≠ .failed ∧ result ≠ .eof

instance (r : Reader σ) (result : ReadResult) : Decidable (ChunkRead r result) :=
  inferInstanceAs (Decidable (_ → _ → _))

def WellAddressed : Except (Crash σ) (Reader σ) → Prop :=
  Ends (fun r => Addressed r.core ∧ ∀ e ∈ r.core.log, e.Told)
    (fun crash => crash.fault.addressing = false ∧ ∀ e ∈ crash.core.log, e.Told)

theorem NamesChannels.not_misnamed {log : List Event} (named : NamesChannels log) :
    ¬ Misnamed log := by
  rintro ⟨id, chan, count, mem, missing⟩
  have present := named _ mem
  cases count with
  | none => exact present
  | some count => exact missing count rfl present

theorem addressing_discipline : Discipline NamesChannels (fun _ => True) (fun _ => True) where
  earlier := fun grown named e mem => named e (grown e mem)
  new := fun _ _ => trivial
  closed := fun _ _ _ => trivial
  chosen := fun _ _ _ => trivial
  store := fun _ _ _ => ⟨trivial, trivial⟩

theorem Held.addressed {Q Fit : DataRead → Prop} {c : Core σ} (held : Held Q Fit c) :
    Addressed c := by
  intro active
  obtain ⟨channels, d, found, _⟩ := held.active active
  exact ⟨channels, d, activeChannel_ok.mp found⟩

theorem Grows.every {K : Event → Prop} {log log' : List Event} (h : Grows K log log')
    (all : ∀ e ∈ log, K e) : ∀ e ∈ log', K e := by
  obtain ⟨more, rfl, new⟩ := h
  intro e mem
  rcases List.mem_append.mp mem with mem | mem
  · exact all e mem
  · exact new e mem

/-- What a run keeps: the channels are held as long as the lines name channels, and the device
has been told of channels only. -/
structure Served (c : Core σ) : Prop where
  held : NamesChannels c.log → Held (fun _ => True) (fun _ => True) c
  told : ∀ e ∈ c.log, e.Told

theorem receive_served (sub : Subclass σ) {r : Reader σ} (result : ReadResult)
    (served : Served r.core) (ready : ReadOf r result ∧ ChunkRead r result) :
    Ends (fun r' => Served r'.core)
      (fun crash => (NamesChannels crash.core.log → crash.fault.addressing = false) ∧
        ∀ e ∈ crash.core.log, e.Told)
      (receive sub r result) := by
  have read : r.core.readable → 0 ≤ r.core.activeReadData → result ≠ .failed :=
    fun readable active => (ready.2 readable active).1
  have told := receive_told sub r read
  have step (named : NamesChannels r.core.log) :=
    receive_held sub addressing_discipline (served.held named) ready.1 read
  cases ends : receive sub r result with
  | ok r' =>
    rw [ends] at told step
    refine ⟨fun named => ?_, Grows.every told served.told⟩
    exact step (addressing_discipline.earlier (fun _ => told.mem) named) named
  | error crash =>
    rw [ends] at told step
    refine ⟨fun named => ?_, Grows.every told served.told⟩
    have stopped := step (addressing_discipline.earlier (fun _ => told.mem) named) named
    by_contra missing
    exact named.not_misnamed (stopped.named (by simpa using missing))

def fate : Except (Crash σ) (Reader σ) → Except Fault (ConnState × Int)
  | .ok r => .ok (r.core.connState, r.core.activeReadData)
  | .error crash => .error crash.fault

def unknownData : ReadResult := .data [68, 32, 55, 32, 48, 32, 49, 10]

def halfChunk : ReadResult :=
  .data [67, 32, 49, 32, 48, 32, 49, 32, 50, 10, 68, 32, 49, 32, 48, 32, 50, 10, 97]

end Rts2.Kernel
