import Rts2.Kernel.SharedData

/-! Images of the camera in shared memory: a readout registers the client in a segment for each channel,
or goes over TCP, and writes the header and then the image. -/
namespace Rts2.Camd

open Lib Kernel

def sizeofImghdr : Nat := 44

def RTS2_DATA_USHORT : Int := 20
def RTS2_DATA_ULONG : Int := 40
def RTS2_DATA_FLOAT : Int := -32

def maxPixelByteSize (dataTypes : List Int) : Int :=
  dataTypes.foldl (fun ms type =>
    if type = RTS2_DATA_ULONG ∧ ms < 4 then 4
    else if ms < type.tdiv 8 then type.tdiv 8 else ms) 0

def usedPixelByteSize (dataType : Int) : Nat :=
  if dataType = RTS2_DATA_ULONG then 4 else (dataType.tdiv 8).natAbs

def dataBufferSize (width height : Nat) (dataTypes : List Int) : Nat :=
  width * height * (maxPixelByteSize dataTypes).toNat

def chipByteSize (width height : Nat) (dataType : Int) : Nat := width * height * usedPixelByteSize dataType

inductive ImageTransfer where
  | TCPIP
  | SHARED
  | FITS
deriving DecidableEq

/-- Bytes written to the shared memory: the segment of the channel as it then was, if it has one. -/
structure Write where
  segment : Option (Nat × SharedDataSegment)
  start : Nat
  bytes : Nat
  /-- The client the image is for. -/
  client : Int

structure Camera where
  sharedData : DataSharedWrite
  currentImageTransfer : ImageTransfer
  /-- The number of the data connection, if one is open. -/
  currentImageData : Option Nat
  /-- The id of the client of the exposure. -/
  exposureConn : Option Int
  lastExposureBytes : Nat
  dataChannels : Nat
  /-- The image is only looked at. -/
  statisticOnly : Bool
  dataWritten : Nat → Nat
  /-- The image that is read out. -/
  imageBytes : Nat
  imageChannels : Nat
  imageConn : Int
  writes : List Write

namespace Camera

def addClients (chansize : Nat) (client : Int) : List Nat → DataSharedWrite → List Nat × DataSharedWrite
  | [], d => ([], d)
  | chan :: chans, d =>
    match d.addClient chansize chan client with
    | none => ([], d)
    | some (seg, d) =>
      let (segments, d) := addClients chansize client chans d
      (seg :: segments, d)

/-- dataConn is the number of the data connection, if its message was sent; locks tells which segments
can be locked. -/
def startImageData (conn : Int) (dataConn : Option Nat) (locks : Nat → Bool) (s : Camera) : Camera :=
  if s.currentImageTransfer = .FITS then s
  else
    let chansize := s.lastExposureBytes + sizeofImghdr
    let (segments, d) := addClients chansize conn (List.range s.dataChannels) s.sharedData.clearChan2Seg
    if segments.length < s.dataChannels then
      let d := segments.foldl (fun d seg => d.removeClient seg conn (locks seg)) d
      { s with
        sharedData := d.clearChan2Seg, currentImageData := dataConn, currentImageTransfer := .TCPIP
        exposureConn := some conn }
    else
      { s with
        sharedData := d, currentImageData := dataConn, currentImageTransfer := .SHARED
        exposureConn := some conn }

def write (chan place bytes : Nat) (s : Camera) : Camera :=
  let segment := s.sharedData.channel chan
  let start := match segment with
    | none => place
    | some (_, seg) => seg.offset + place
  { s with writes := s.writes ++ [{ segment := segment, start := start, bytes := bytes, client := s.imageConn }] }

def sendFirstLine (s : Camera) (chan : Nat) : Camera :=
  match s.currentImageTransfer with
  | .SHARED =>
    let s := s.write chan 0 sizeofImghdr
    { s with sharedData := s.sharedData.dataWritten chan sizeofImghdr }
  | .TCPIP => s
  | .FITS => s

def readoutStart (s : Camera) : Camera := (List.range s.dataChannels).foldl sendFirstLine s

def startExposure (bytes channels : Nat) (s : Camera) : Camera :=
  { s with lastExposureBytes := bytes, dataChannels := channels }

def beginImage (conn : Int) (s : Camera) : Camera :=
  { s with imageBytes := s.lastExposureBytes, imageChannels := s.dataChannels, imageConn := conn }

def openImage (conn : Int) (dataConn : Option Nat) (locks : Nat → Bool) (s : Camera) : Camera :=
  if s.statisticOnly then { s with currentImageData := none } else s.startImageData conn dataConn locks

def startNext (next : Option (Nat × Nat)) (s : Camera) : Camera :=
  match next with
  | none => s
  | some (bytes, channels) => s.startExposure bytes channels

def camReadout (conn : Int) (next : Option (Nat × Nat)) (dataConn : Option Nat) (locks : Nat → Bool)
    (s : Camera) : Camera :=
  let s := (s.beginImage conn).openImage conn dataConn locks
  let s : Camera := { s.startNext next with dataWritten := fun _ => 0 }
  if s.currentImageData ≠ none ∨ s.currentImageTransfer = .FITS ∨ s.statisticOnly then s.readoutStart else s

def sendReadoutData (chan bytes : Nat) (s : Camera) : Camera :=
  let s :=
    if s.currentImageTransfer = .SHARED then
      let s := s.write chan (sizeofImghdr + s.dataWritten chan) bytes
      { s with sharedData := s.sharedData.dataWritten chan bytes }
    else s
  { s with dataWritten := Function.update s.dataWritten chan (s.dataWritten chan + bytes) }

def endReadout (s : Camera) : Camera :=
  if s.currentImageTransfer = .SHARED ∧ s.exposureConn ≠ none then { s with currentImageData := none } else s

def killAll (s : Camera) : Camera :=
  if s.exposureConn ≠ none ∧ s.currentImageData ≠ none then
    match s.currentImageTransfer with
    | .SHARED =>
      { s with
        sharedData := s.sharedData.endChannels s.imageChannels, currentImageTransfer := .TCPIP
        currentImageData := none }
    | .TCPIP => { s with currentImageData := none }
    | .FITS => { s with currentImageTransfer := .TCPIP, currentImageData := none }
  else s

def deleteConnection (conn : Int) (locks : Nat → Bool) (s : Camera) : Camera :=
  let s := if s.exposureConn = some conn then { s with exposureConn := none } else s
  { s with
    sharedData := (List.range s.sharedData.segments.length).foldl
      (fun d seg => d.removeClient seg conn (locks seg)) s.sharedData }

inductive Event where
  /-- A client's exposure is taken. -/
  | camExpose (conn : Int)
  | startExposure (bytes channels : Nat)
  | setStatisticOnly (only : Bool)
  | camReadout (next : Option (Nat × Nat)) (dataConn : Option Nat) (locks : Nat → Bool)
  | sendReadoutData (chan bytes : Nat)
  | endReadout
  | killAll
  /-- A client is done with a segment. -/
  | removeClient (segnum : Nat) (client_id : Int) (locks : Bool)
  | deleteConnection (conn : Int) (locks : Nat → Bool)
  | setFitsTransfer

def step (s : Camera) : Event → Camera
  | .camExpose conn => { s with exposureConn := some conn }
  | .startExposure bytes channels => s.startExposure bytes channels
  | .setStatisticOnly only => { s with statisticOnly := only }
  | .camReadout next dataConn locks =>
    match s.exposureConn with
    | none => s
    | some conn => s.camReadout conn next dataConn locks
  | .sendReadoutData chan bytes => s.sendReadoutData chan bytes
  | .endReadout => s.endReadout
  | .killAll => s.killAll
  | .removeClient segnum client_id locks =>
    { s with sharedData := s.sharedData.removeClient segnum client_id locks }
  | .deleteConnection conn locks => s.deleteConnection conn locks
  | .setFitsTransfer => { s with currentImageTransfer := .FITS }

def start (numseg segsize : Nat) : Camera where
  sharedData := .create numseg segsize
  currentImageTransfer := .TCPIP
  currentImageData := none
  exposureConn := none
  lastExposureBytes := 0
  dataChannels := 1
  statisticOnly := false
  dataWritten := fun _ => 0
  imageBytes := 0
  imageChannels := 0
  imageConn := 0
  writes := []

end Camera

end Rts2.Camd
