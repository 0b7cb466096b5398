import Rts2.Kernel.Reader

/-! Sending side of binary transfers on a connection that is up: startBinaryData,
sendBinaryData and endBinaryData. -/
namespace Rts2.Kernel

open Lib

abbrev DataWrite := List Nat

def DataWrite.getDataSize (d : DataWrite) : Nat := d.sum % sizeModulus

def DataWrite.dataWritten (d : DataWrite) (chan size : Nat) : DataWrite :=
  d.modify chan (fun rest => (((rest : Int) - size) % (sizeModulus : Int)).toNat)

/-- `sent` is what the socket has taken. -/
structure Writer where
  dataConn : Int
  writeChannels : Int → Option DataWrite
  sent : List UInt8

/-- What `send ()` returns; an error other than EINTR is `failed`. -/
inductive SendResult where
  | sent (size : Nat)
  | interrupted
  | failed
  deriving DecidableEq, Repr

def field (n : Int) : List UInt8 := 32 :: decimalInt n

def fields (ns : List Int) : List UInt8 := ns.flatMap field

def binaryMessage (dataConn dataType : Int) (chansize : List Nat) : List UInt8 :=
  protoBinary ++ fields (dataConn :: dataType :: (chansize.length : Int) :: chansize.map Int.ofNat)

def dataMessage (data_conn : Int) (chan dataSize : Nat) : List UInt8 :=
  protoData ++ fields [data_conn, (chan : Int), (dataSize : Int)]

namespace Writer

def sendMsg (w : Writer) (msg : List UInt8) : Writer := { w with sent := w.sent ++ (msg ++ [10]) }

def startBinaryData (w : Writer) (dataType : Int) (chansize : List Nat) : Writer × Int :=
  let dataConn := w.dataConn + 1
  let w := { w with dataConn := dataConn }.sendMsg (binaryMessage dataConn dataType chansize)
  ({ w with writeChannels := Function.update w.writeChannels dataConn (some chansize) }, dataConn)

def getWriteBinaryDataSize (w : Writer) (data_conn : Int) : Nat :=
  match w.writeChannels data_conn with
  | none => 0
  | some channels => channels.getDataSize

def dataWritten (w : Writer) (data_conn : Int) (chan : Nat) (data : List UInt8) : Writer :=
  let w := { w with sent := w.sent ++ data }
  match w.writeChannels data_conn with
  | none => w
  | some channels =>
    let channels := channels.dataWritten chan data.length
    let left := if channels.getDataSize ≤ 0 then none else some channels
    { w with writeChannels := Function.update w.writeChannels data_conn left }

/-- The loop of sendBinaryData over what `send ()` returns, with the bytes from binaryWriteTop to
binaryEnd; `none` while it has not ended, or where `send ()` would have taken more than given. -/
def sendLoop (data_conn : Int) (chan : Nat) :
    List SendResult → Writer → List UInt8 → Nat → Option (Writer × Int)
  | [], w, top, _ => if top = [] then some (w, 0) else none
  | result :: results, w, top, dataSize =>
    if top = [] then some (w, 0)
    else
      let dataSize := min dataSize (w.getWriteBinaryDataSize data_conn)
      match result with
      | .interrupted => sendLoop data_conn chan results w top dataSize
      | .failed => some (w, -1)
      | .sent ret =>
        if ret ≤ dataSize then
          sendLoop data_conn chan results (w.dataWritten data_conn chan (top.take ret))
            (top.drop ret) (dataSize - ret)
        else none

def sendBinaryData (w : Writer) (data_conn : Int) (chan : Nat) (data : List UInt8)
    (results : List SendResult) : Option (Writer × Int) :=
  sendLoop data_conn chan results (w.sendMsg (dataMessage data_conn chan data.length)) data
    data.length

end Writer

/-- One call of sendBinaryData, with what `send ()` returned inside it. -/
structure SendCall where
  chan : Nat
  data : List UInt8
  results : List SendResult
  deriving DecidableEq, Repr

def Writer.sendCalls (data_conn : Int) : List SendCall → Writer → Option Writer
  | [], w => some w
  | call :: calls, w =>
    match w.sendBinaryData data_conn call.chan call.data call.results with
    | some (w, 0) => sendCalls data_conn calls w
    | _ => none

def Fits : List Nat → List SendCall → Prop
  | rest, [] => ∀ size ∈ rest, size = 0
  | rest, call :: calls =>
    ∃ size, rest[call.chan]? = some size ∧ call.data.length ≤ size ∧
      Fits (rest.set call.chan (size - call.data.length)) calls

def callBytes (data_conn : Int) (call : SendCall) : List UInt8 :=
  dataMessage data_conn call.chan call.data.length ++ 10 :: call.data

def transferBytes (data_conn dataType : Int) (chansize : List Nat) (calls : List SendCall) :
    List UInt8 :=
  binaryMessage data_conn dataType chansize ++ 10 :: calls.flatMap (callBytes data_conn)

/-! However `send ()` cut the data, what the socket has taken is the header and the data. -/

theorem dataWritten_sent (w : Writer) (data_conn : Int) (chan : Nat) (data : List UInt8) :
    (w.dataWritten data_conn chan data).sent = w.sent ++ data := by
  unfold Writer.dataWritten
  dsimp only
  split <;> rfl

theorem sendLoop_sent {data_conn : Int} {chan : Nat} (results : List SendResult) {w w' : Writer}
    {top : List UInt8} {dataSize : Nat}
    (done : Writer.sendLoop data_conn chan results w top dataSize = some (w', 0)) :
    w'.sent = w.sent ++ top := by
  induction results generalizing w top dataSize with
  | nil =>
    unfold Writer.sendLoop at done
    split at done
    · rename_i empty
      cases done
      simp [empty]
    · contradiction
  | cons result results ih =>
    unfold Writer.sendLoop at done
    split at done
    · rename_i empty
      cases done
      simp [empty]
    · dsimp only at done
      split at done
      · exact ih done
      · simp at done
      · split at done
        · rw [ih done, dataWritten_sent, List.append_assoc, List.take_append_drop]
        · contradiction

theorem sendCalls_sent {data_conn : Int} (calls : List SendCall) {w w' : Writer}
    (done : Writer.sendCalls data_conn calls w = some w') :
    w'.sent = w.sent ++ calls.flatMap (callBytes data_conn) := by
  induction calls generalizing w with
  | nil =>
    cases Option.some.inj done
    simp
  | cons call calls ih =>
    unfold Writer.sendCalls at done
    split at done
    · rename_i sent
      rw [ih done, sendLoop_sent call.results sent]
      simp [Writer.sendMsg, callBytes, List.append_assoc]
    · contradiction

theorem transfer_sent {dataType : Int} {chansize : List Nat} {calls : List SendCall}
    {w w' : Writer}
    (done : (w.startBinaryData dataType chansize).1.sendCalls (w.dataConn + 1) calls = some w') :
    w'.sent = w.sent ++ transferBytes (w.dataConn + 1) dataType chansize calls := by
  rw [sendCalls_sent calls done]
  simp [Writer.startBinaryData, Writer.sendMsg, transferBytes, List.append_assoc]

end Rts2.Kernel
