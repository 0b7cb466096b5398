import Rts2.Kernel.Params

/-! Receiving side of binary transfers: DataRead and DataChannels. -/
namespace Rts2.Kernel

def sizeModulus : Nat := 2 ^ 64

/-- What ends the process inside the reader: an exception nobody catches or a call whose
behaviour C++ leaves undefined. -/
inductive Fault where
  /-- `rts2core::Error` thrown by initFromConnection -/
  | uncaughtError
  /-- `new char[]` of a negative size -/
  | badAlloc
  /-- member call on the null pointer `readChannels[id]` creates -/
  | nullChannels
  /-- `at ()` outside of the vector -/
  | channelIndex
  /-- `memcpy` of a negative size -/
  | memcpySize
  /-- `readChannels.end ()` dereferenced -/
  | endIterator
  /-- cast of a DataRead to DataSharedRead -/
  | sharedCast
  deriving DecidableEq, Repr

/-- One channel. `declared` is the length of binaryReadBuff, `stored` its bytes before
binaryReadTop; nothing in the class keeps the second within the first. -/
structure DataRead where
  declared : Nat
  stored : List UInt8
  binaryReadDataSize : Nat
  binaryReadChunkSize : Int
  deriving DecidableEq, Repr

abbrev DataChannels := List DataRead

namespace DataRead

def new (size : Nat) : DataRead := ⟨size, [], size, -1⟩

def store (d : DataRead) (data : List UInt8) : DataRead :=
  { d with
    stored := d.stored ++ data
    binaryReadDataSize :=
      (((d.binaryReadDataSize : Int) - data.length) % (sizeModulus : Int)).toNat
    binaryReadChunkSize := d.binaryReadChunkSize - data.length }

def addData (d : DataRead) (data : List UInt8) : Except Fault (DataRead × Nat) :=
  let data_size := min (data.length : Int) d.binaryReadChunkSize
  if data_size < 0 then .error .memcpySize
  else .ok (d.store (data.take data_size.toNat), data_size.toNat)

def getData (d : DataRead) (data : List UInt8) : DataRead := d.store data

def getRestSize (d : DataRead) : Nat := d.binaryReadDataSize

@[simp] theorem store_declared (d : DataRead) (data : List UInt8) :
    (d.store data).declared = d.declared := rfl

@[simp] theorem store_stored (d : DataRead) (data : List UInt8) :
    (d.store data).stored = d.stored ++ data := rfl

@[simp] theorem store_chunk (d : DataRead) (data : List UInt8) :
    (d.store data).binaryReadChunkSize = d.binaryReadChunkSize - data.length := rfl

theorem store_rest {d : DataRead} {data : List UInt8}
    (fits : data.length ≤ d.binaryReadDataSize) (size : d.binaryReadDataSize < sizeModulus) :
    (d.store data).binaryReadDataSize = d.binaryReadDataSize - data.length := by
  simp only [store, sizeModulus] at *
  omega

theorem store_append {d : DataRead} (data more : List UInt8) :
    (d.store data).store more = d.store (data ++ more) := by
  simp only [store, List.append_assoc, List.length_append, DataRead.mk.injEq, true_and, sizeModulus]
  omega

end DataRead

theorem sum_set {rest : List Nat} {chan size : Nat} (here : rest[chan]? = some size) (left : Nat) :
    (rest.set chan left).sum + size = rest.sum + left := by
  induction rest generalizing chan with
  | nil => simp at here
  | cons first rest ih =>
    cases chan with
    | zero =>
      simp only [List.getElem?_cons_zero, Option.some.injEq] at here
      simp only [List.set_cons_zero, List.sum_cons, here]
      omega
    | succ chan =>
      have tail := ih (by simpa using here)
      simp only [List.set_cons_succ, List.sum_cons]
      omega

theorem le_sum {rest : List Nat} {chan size : Nat} (here : rest[chan]? = some size) :
    size ≤ rest.sum := by
  have whole := sum_set here 0
  omega

namespace DataChannels

def readSizes : Nat → List UInt8 → Except Fault (DataChannels × List UInt8)
  | 0, text => .ok ([], text)
  | count + 1, text =>
    match paramNextLong 0 text with
    | (_, false, _) => .error .uncaughtError
    | (chansize, true, rest) =>
      if chansize < 0 then .error .badAlloc
      else
        match readSizes count rest with
        | .error fault => .error fault
        | .ok (channels, rest) => .ok (DataRead.new chansize.toNat :: channels, rest)

def initFromConnection (text : List UInt8) : Except Fault DataChannels :=
  match paramNextInteger 0 text with
  | (_, false, _) => .error .uncaughtError
  | (_, true, rest) =>
    match paramNextInteger 0 rest with
    | (_, false, _) => .error .uncaughtError
    | (channum, true, rest) =>
      match readSizes channum.toNat rest with
      | .error fault => .error fault
      | .ok (channels, rest) => if paramEnd rest then .ok channels else .error .uncaughtError

/-- `at ()`, which takes the channel number as unsigned. -/
def at? (channels : DataChannels) (chan : Int) : Option DataRead :=
  if chan < 0 then none else channels[chan.toNat]?

def put (channels : DataChannels) (chan : Int) (d : DataRead) : DataChannels :=
  channels.set chan.toNat d

def total (channels : DataChannels) : Nat := (channels.map DataRead.getRestSize).sum

def getRestSize (channels : DataChannels) : Nat := channels.total % sizeModulus

theorem at?_some {channels : DataChannels} {chan : Int} {d : DataRead}
    (found : channels.at? chan = some d) :
    ∃ n : Nat, chan = n ∧ n < channels.length ∧ channels[n]? = some d := by
  unfold at? at found
  split at found
  · contradiction
  · obtain ⟨inside, _⟩ := List.getElem?_eq_some_iff.mp found
    exact ⟨chan.toNat, by omega, inside, found⟩

theorem at?_put {channels : DataChannels} {chan : Int} {d : DataRead}
    (found : channels.at? chan = some d) (e : DataRead) :
    (channels.put chan e).at? chan = some e := by
  obtain ⟨n, rfl, inside, _⟩ := at?_some found
  simp [at?, put, inside]

theorem put_put (channels : DataChannels) (chan : Int) (d e : DataRead) :
    (channels.put chan d).put chan e = channels.put chan e := by
  simp [put]

theorem total_put {channels : DataChannels} {chan : Int} {d : DataRead}
    (found : channels.at? chan = some d) (e : DataRead) :
    (channels.put chan e).total + d.binaryReadDataSize = channels.total + e.binaryReadDataSize := by
  obtain ⟨n, rfl, _, here⟩ := at?_some found
  rw [put, total, List.map_set]
  exact sum_set (by simp [here, DataRead.getRestSize]) _

theorem rest_le_total {channels : DataChannels} {chan : Int} {d : DataRead}
    (found : channels.at? chan = some d) : d.binaryReadDataSize ≤ channels.total := by
  have whole := total_put found ⟨0, [], 0, 0⟩
  simp only at whole
  omega

end DataChannels

end Rts2.Kernel
