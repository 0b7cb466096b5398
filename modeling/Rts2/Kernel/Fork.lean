import Rts2.Kernel.Messages
import Rts2.Lib.Run

/-! The standard input of a forked process: writeToProcess writes to the pipe at once, and what the
pipe does not take is written when a poll finds it writable. -/
namespace Rts2.Kernel

open Lib

/-- What `write ()` answers: a number of bytes, or EAGAIN. -/
inductive PipeResult where
  | taken (size : Nat)
  | again
  deriving DecidableEq

/-- `sockwrite` is true while the write end of the pipe is open; `written` is what the pipe took,
`asked` the messages that were to be written. -/
structure ConnFork where
  sockwrite : Bool
  input : List UInt8
  written : List UInt8
  asked : List (List UInt8)
  deriving DecidableEq

/-- What happens to a connection: messages are written, and the block adds its descriptors, polls
them and calls writable. A poll that does not find the pipe writable has no result. -/
inductive ForkEvent where
  | writeToProcess (msg : List UInt8) (result : PipeResult)
  | writeToProcessInt (msg : Int) (result : PipeResult)
  | poll (result : Option PipeResult)
  deriving DecidableEq

namespace ConnFork

def opened : ConnFork where
  sockwrite := true
  input := []
  written := []
  asked := []

def writeToProcess (c : ConnFork) (msg : List UInt8) (result : PipeResult) : ConnFork :=
  let c := { c with asked := c.asked ++ [msg] }
  if c.sockwrite = false then c
  else
    match result with
    | .taken size => { c with
        written := c.written ++ (c.input ++ msg ++ [10]).take size
        input := (c.input ++ msg ++ [10]).drop size }
    | .again => c

def writeToProcessInt (c : ConnFork) (msg : Int) (result : PipeResult) : ConnFork :=
  c.writeToProcess (decimalInt msg) result

def add (c : ConnFork) : ConnFork :=
  if c.input.length > 0 ∧ c.sockwrite = false then { c with input := [] } else c

def writable (c : ConnFork) (result : Option PipeResult) : ConnFork :=
  if c.input.length > 0 then
    match result with
    | some (.taken size) => { c with
        written := c.written ++ c.input.take size
        input := c.input.drop size
        sockwrite := !(c.input.drop size).isEmpty }
    | _ => c
  else c

def step (c : ConnFork) : ForkEvent → ConnFork
  | .writeToProcess msg result => c.writeToProcess msg result
  | .writeToProcessInt msg result => c.writeToProcessInt msg result
  | .poll result => c.add.writable result

def lines (c : ConnFork) : List UInt8 := c.asked.flatMap (· ++ [10])

/-- The channel is open, the script was written a prefix of the lines, and all of them once the
pipe takes what is left. -/
def Delivers (c : ConnFork) : Prop :=
  c.sockwrite = true ∧ c.written <+: c.lines ∧
    (c.step (.poll (some (.taken c.input.length)))).written = c.lines

def Leaves (c : ConnFork) : ForkEvent → Prop
  | .writeToProcess _ result => result ≠ .again
  | .writeToProcessInt _ result => result ≠ .again
  | .poll result => ∀ size, result = some (.taken size) → c.input = [] ∨ size < c.input.length

theorem delivers_iff (c : ConnFork) :
    c.Delivers ↔ c.sockwrite = true ∧ c.written ++ c.input = c.lines := by
  have flushed (here : c.sockwrite = true) :
      (c.step (.poll (some (.taken c.input.length)))).written = c.written ++ c.input := by
    cases rest : c.input with
    | nil => simp [step, add, writable, rest]
    | cons b rest => simp [step, add, writable, rest, here]
  constructor
  · rintro ⟨here, -, all⟩
    exact ⟨here, (flushed here).symm.trans all⟩
  · rintro ⟨here, all⟩
    exact ⟨here, all ▸ List.prefix_append _ _, (flushed here).trans all⟩

theorem writeToProcess_delivers (c : ConnFork) (msg : List UInt8) (result : PipeResult)
    (delivers : c.Delivers) : (c.writeToProcess msg result).Delivers ↔ result ≠ .again := by
  rw [delivers_iff] at delivers ⊢
  obtain ⟨here, all⟩ := delivers
  cases result with
  | taken size =>
    refine iff_of_true ?_ (by simp)
    simp only [writeToProcess, here, Bool.true_eq_false, if_false, List.append_assoc,
      List.take_append_drop, lines, List.flatMap_append, true_and]
    rw [← List.append_assoc c.written, all]
    simp [lines]
  | again =>
    refine iff_of_false ?_ (by simp)
    rintro ⟨-, lost⟩
    have lengths := congrArg List.length lost
    simp only [writeToProcess, here, Bool.true_eq_false, if_false, all] at lengths
    simp [lines] at lengths

theorem poll_delivers (c : ConnFork) (result : Option PipeResult) (delivers : c.Delivers) :
    (c.step (.poll result)).Delivers ↔ c.Leaves (.poll result) := by
  rw [delivers_iff] at delivers ⊢
  obtain ⟨here, all⟩ := delivers
  have added : c.add = c := by simp [add, here]
  simp only [step, added, Leaves]
  by_cases empty : c.input = []
  · have still : c.writable result = c := by simp [writable, empty]
    rw [still]
    exact iff_of_true ⟨here, all⟩ (fun size _ => .inl empty)
  · have some_ : c.input.length > 0 := List.length_pos_iff.mpr empty
    rcases result with _ | size | _
    · have still : c.writable none = c := by simp [writable]
      rw [still]
      exact iff_of_true ⟨here, all⟩ (by simp)
    · rw [writable, if_pos some_]
      constructor
      · rintro ⟨still, -⟩ n same
        obtain rfl : size = n := by simpa using same
        refine .inr ?_
        simpa [List.drop_eq_nil_iff] using still
      · intro short
        have less := (short size rfl).resolve_left empty
        refine ⟨by simpa [List.drop_eq_nil_iff] using less, ?_⟩
        simp only [List.append_assoc, List.take_append_drop]
        exact all
    · have still : c.writable (some .again) = c := by simp [writable]
      rw [still]
      exact iff_of_true ⟨here, all⟩ (by simp)

theorem step_delivers (c : ConnFork) (e : ForkEvent) (delivers : c.Delivers) :
    (c.step e).Delivers ↔ c.Leaves e := by
  cases e with
  | writeToProcess msg result => exact writeToProcess_delivers c msg result delivers
  | writeToProcessInt msg result => exact writeToProcess_delivers c (decimalInt msg) result delivers
  | poll result => exact poll_delivers c result delivers

/-- The script is written all lines in order, over a channel that stays open, just in the runs in
which no message meets a full pipe and no poll writes all of a rest. -/
theorem delivers_iff_leaves (es : List ForkEvent) :
    (∀ done, done <+: es → (run step opened done).Delivers) ↔ Guarded step Leaves opened es :=
  prefixes_iff_guarded step_delivers ((delivers_iff opened).mpr ⟨rfl, rfl⟩) es

/-- A short write, the rest on the next poll, and another message: the channel is closed by then and
the message is lost. -/
theorem message_lost : ¬ ∀ es : List ForkEvent, ∀ done, done <+: es →
    (run step opened done).Delivers := by
  intro law
  have delivers := law [.writeToProcess [48] (.taken 1), .poll (some (.taken 1)),
    .writeToProcess [49] (.taken 2)] _ (List.prefix_refl _)
  exact absurd delivers.1 (by decide)

end ConnFork

end Rts2.Kernel
