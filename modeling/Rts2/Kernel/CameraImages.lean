import Rts2.Lib.Run
import Rts2.Lib.SortedMap

/-! The images of a camera client: the current one, those whose data are on their way or were received, and the queue
of those checked by a timer for the metadata of other devices. -/
namespace Rts2.Kernel

open Lib

structure ImageDeviceWait where
  devclient : Nat
  after : Int
  deriving DecidableEq

/-- Images are numbered as they are created; exEnd is none for NAN. -/
structure CameraImage where
  image : Nat
  exEnd : Option Int
  dataWriten : Bool
  deviceWaits : List ImageDeviceWait
  triggerWaits : List Nat
  prematurelyReceived : List Nat
  deriving DecidableEq

/-- A device that writes to images, as EVENT_WRITE_TO_IMAGE finds it: whether it has values to be written before the end
and when triggered, whether it is a camera in CAM_EXPOSING_NOIM, and the time. -/
structure DevClientWriteImage where
  devClient : Nat
  beforeEnd : Bool
  triggered : Bool
  noImage : Bool
  now : Int
  deriving DecidableEq

namespace CameraImage

variable (ci : CameraImage)

def new (image : Nat) (prematurelyReceived : List Nat) : CameraImage where
  image := image
  exEnd := none
  dataWriten := false
  deviceWaits := []
  triggerWaits := []
  prematurelyReceived := prematurelyReceived

def waitForDevice (devClient : Nat) (after : Int) : CameraImage :=
  if devClient ∈ ci.prematurelyReceived then ci
  else { ci with deviceWaits := ci.deviceWaits ++ [⟨devClient, after⟩] }

def waitForTrigger (w : DevClientWriteImage) : CameraImage :=
  if w.devClient ∈ ci.prematurelyReceived then ci
  else if w.noImage then ci
  else { ci with triggerWaits := ci.triggerWaits ++ [w.devClient] }

def answers (devClient : Nat) (infoTime : Option Int) (idw : ImageDeviceWait) : Bool :=
  idw.devclient = devClient ∧ infoTime.all (idw.after ≤ ·)

def waitingFor (devClient : Nat) (infoTime : Option Int) : CameraImage :=
  { ci with deviceWaits := ci.deviceWaits.filter (! answers devClient infoTime ·) }

def awaits (devClient : Nat) (infoTime : Option Int) : Bool := ci.deviceWaits.any (answers devClient infoTime)

def wasTriggered (devClient : Nat) : CameraImage :=
  { ci with triggerWaits := ci.triggerWaits.erase devClient }

def waitForMetaData : Bool := !(ci.deviceWaits.isEmpty && ci.triggerWaits.isEmpty)

def canDelete : Bool := if ci.exEnd.isNone || !ci.dataWriten then false else !ci.waitForMetaData

def writeToImage (w : DevClientWriteImage) : CameraImage :=
  let ci := if w.beforeEnd then ci.waitForDevice w.devClient w.now else ci
  if w.triggered then ci.waitForTrigger w else ci

def postMaster (ws : List DevClientWriteImage) : CameraImage := ws.foldl writeToImage ci

end CameraImage

/-- How the creation of an image ends: createImage returns no image or throws, cameraMetadata throws, the header cannot
be written, or the other devices write to the image. -/
inductive Creation where
  | refused | broken | unwritten | written (ws : List DevClientWriteImage)

/-- How a FITS file is taken over: it is not opened, it is not copied, its image is not written, or the other devices
write to its image. -/
inductive FitsFile where
  | unopened | uncopied | unwritten (ws : List DevClientWriteImage) | written (ws : List DevClientWriteImage)

inductive Deletion where
  | replaced | old | failed | killed
  deriving DecidableEq

/-- A client whose exposureFailed clears its images, or one that leaves them. The fields from `timers` on are read by no
function: the images of the timers that run, in their order; what was processed, with the image of the timer that
processed it; and what was deleted. -/
structure DevClientCameraImage where
  clears : Bool
  readChannels : List Int
  images : SortedMap Int CameraImage
  actualImage : Option CameraImage
  checkImages : List Nat
  prematurelyReceived : List Nat
  created : Nat
  timers : List Nat
  processed : List (CameraImage × Option Nat)
  deleted : List (CameraImage × Deletion)

namespace DevClientCameraImage

variable (c : DevClientCameraImage)

def deleteAll (cis : List CameraImage) (reason : Deletion) : DevClientCameraImage :=
  { c with deleted := c.deleted ++ cis.map (·, reason) }

def finish (timer : Option Nat) (ci : CameraImage) : DevClientCameraImage :=
  { c with
    checkImages := c.checkImages.erase ci.image
    processed := c.processed ++ [(ci, timer)] }

def processCameraImage (timer : Option Nat) (data_conn : Int) (ci : CameraImage) : DevClientCameraImage :=
  { c.finish timer ci with images := c.images.erase data_conn }

def createActual : Creation → DevClientCameraImage
  | .refused => c
  | .broken => { c with created := c.created + 1 }
  | .unwritten => { c.deleteAll c.actualImage.toList .replaced with
      actualImage := some (.new c.created c.prematurelyReceived)
      prematurelyReceived := []
      created := c.created + 1 }
  | .written ws => { c.deleteAll c.actualImage.toList .replaced with
      actualImage := some ((CameraImage.new c.created c.prematurelyReceived).postMaster ws)
      prematurelyReceived := []
      created := c.created + 1 }

def exposureStarted (expectImage : Bool) (creation : Creation) : DevClientCameraImage :=
  if expectImage = false then c else c.createActual creation

def exposureEnd (now : Int) : DevClientCameraImage :=
  { c with actualImage := c.actualImage.map fun ci => { ci with exEnd := some now } }

def newDataConn (data_conn : Int) (creation : Creation) : DevClientCameraImage :=
  match c.actualImage, creation with
  | some ci, _ => { c with images := c.images.insert data_conn ci, actualImage := none }
  | none, .written ws =>
    let c := c.createActual (.written ws)
    { c with images := c.actualImage.elim c.images (c.images.insert data_conn), actualImage := none }
  | none, creation => c.createActual creation

def processSifted (f : CameraImage → CameraImage ⊕ CameraImage) : DevClientCameraImage :=
  { (c.images.sifted f).foldl (finish · none) c with images := c.images.sift f }

def deleteOld : DevClientCameraImage :=
  let f (ci : CameraImage) : CameraImage ⊕ CameraImage := if ci.canDelete then .inr ci else .inl ci
  { c.deleteAll (c.images.sifted f) .old with images := c.images.sift f }

def imagesInfoOK (client : Nat) (infoTime : Option Int) : DevClientCameraImage :=
  c.processSifted fun ci =>
    let told := ci.waitingFor client infoTime
    if ci.awaits client infoTime && told.canDelete then .inr told else .inl told

def imagesWasTriggered (client : Nat) : DevClientCameraImage :=
  c.processSifted fun ci =>
    let told := ci.wasTriggered client
    if decide (client ∈ ci.triggerWaits) && told.canDelete then .inr told else .inl told

def writeImage (data_conn : Int) (noImage : Bool) (now : Int) : DevClientCameraImage :=
  match c.images.find data_conn with
  | none => c
  | some ci =>
    let ci := { ci with dataWriten := true, exEnd := if noImage then some now else ci.exEnd }
    let c := { c with images := c.images.insert data_conn ci }
    if ci.canDelete then c.processCameraImage none data_conn ci
    else { c with timers := c.timers ++ [ci.image], checkImages := c.checkImages ++ [ci.image] }

def allImageDataReceived (data_conn : Int) (noImage : Bool) (now : Int) (creation : Creation) :
    DevClientCameraImage :=
  let c := if data_conn = -1 ∧ (c.images.find data_conn).isNone then c.newDataConn data_conn creation else c
  c.deleteOld.writeImage data_conn noImage now

def clearImages (reason : Deletion) : DevClientCameraImage :=
  { c.deleteAll c.images.values reason with images := .empty }

def exposureFailed : DevClientCameraImage := if c.clears then c.clearImages .failed else c

def fullDataReceived (data_conn : Int) (restSize : Nat) (noImage : Bool) (now : Int) (creation : Creation) :
    DevClientCameraImage :=
  if restSize > 0 then c.exposureFailed else c.allImageDataReceived data_conn noImage now creation

def deleteActual (reason : Deletion) : DevClientCameraImage :=
  { c.deleteAll c.actualImage.toList reason with actualImage := none }

def fitsImage (now : Int) (ws : List DevClientWriteImage) : DevClientCameraImage :=
  let ci : CameraImage := { CameraImage.new c.created c.prematurelyReceived with exEnd := some now }
  { c with
    images := c.images.insert 0 (ci.postMaster ws)
    created := c.created + 1
    prematurelyReceived := [] }

def fitsData (now : Int) (file : FitsFile) : DevClientCameraImage :=
  let eraseZero (c : DevClientCameraImage) : DevClientCameraImage :=
    { c.deleteActual .replaced with images := c.images.erase 0 }
  match file, c.actualImage with
  | .unopened, _ => eraseZero c.exposureFailed
  | _, none => c
  | .uncopied, some _ => eraseZero (c.deleteActual .replaced).exposureFailed
  | .unwritten ws, some _ => eraseZero ((c.deleteActual .replaced).fitsImage now ws).exposureFailed
  | .written ws, some _ =>
    eraseZero (((c.deleteActual .replaced).fitsImage now ws).allImageDataReceived 0 false now .refused)

def infoOK (client : Nat) (infoTime : Option Int) : DevClientCameraImage :=
  let c := c.imagesInfoOK client infoTime
  { c with actualImage := c.actualImage.map (·.waitingFor client infoTime) }

def eventTriggered (client : Nat) : DevClientCameraImage :=
  let handled := (c.images.values ++ c.actualImage.toList).any fun ci => decide (client ∈ ci.triggerWaits)
  let c := c.imagesWasTriggered client
  { c with
    actualImage := c.actualImage.map (·.wasTriggered client)
    prematurelyReceived := if handled then c.prematurelyReceived else c.prematurelyReceived ++ [client] }

def killAll : DevClientCameraImage := (c.clearImages .killed).deleteActual .killed

def metadataTimeout : DevClientCameraImage :=
  let c' := { c with timers := c.timers.tail }
  match c.checkImages.head? with
  | none => c'
  | some image =>
    match c.images.entries.find? (·.2.image = image) with
    | none => c'
    | some p => c'.processCameraImage c.timers.head? p.1 p.2

end DevClientCameraImage

/-- What a camera client is told. A connection that is opened for data has its channels until the data are complete or
their transfer is killed. -/
inductive ImageEvent where
  | exposureStarted (expectImage : Bool) (creation : Creation)
  | exposureEnd (now : Int)
  | newDataConn (data_conn : Int) (creation : Creation)
  | fullDataReceived (data_conn : Int) (restSize : Nat) (noImage : Bool) (now : Int) (creation : Creation)
  | fitsData (now : Int) (file : FitsFile)
  | infoOK (client : Nat) (infoTime : Option Int)
  | infoFailed (client : Nat) (infoTime : Option Int)
  | triggered (client : Nat)
  | metadataTimeout
  | exposureFailed
  | killAll

namespace DevClientCameraImage

def step (c : DevClientCameraImage) : ImageEvent → DevClientCameraImage
  | .exposureStarted expectImage creation => c.exposureStarted expectImage creation
  | .exposureEnd now => c.exposureEnd now
  | .newDataConn data_conn creation =>
    { c with readChannels := c.readChannels.insert data_conn }.newDataConn data_conn creation
  | .fullDataReceived data_conn restSize noImage now creation =>
    { c with readChannels := c.readChannels.filter (· ≠ data_conn) }.fullDataReceived data_conn restSize noImage now creation
  | .fitsData now file => c.fitsData now file
  | .infoOK client infoTime => c.infoOK client infoTime
  | .infoFailed client infoTime => c.infoOK client infoTime
  | .triggered client => c.eventTriggered client
  | .metadataTimeout => c.metadataTimeout
  | .exposureFailed => c.exposureFailed
  | .killAll => c.killAll

def Enabled (c : DevClientCameraImage) : ImageEvent → Prop
  | .fullDataReceived data_conn .. => data_conn ∈ c.readChannels
  | .metadataTimeout => c.timers ≠ []
  | .exposureStarted .. | .exposureEnd _ | .newDataConn .. | .fitsData .. | .infoOK .. | .infoFailed .. | .triggered _
  | .exposureFailed | .killAll => True

instance (c : DevClientCameraImage) : DecidablePred c.Enabled
  | .fullDataReceived .. => inferInstanceAs (Decidable (_ ∈ _))
  | .metadataTimeout => inferInstanceAs (Decidable (_ ≠ _))
  | .exposureStarted .. | .exposureEnd _ | .newDataConn .. | .fitsData .. | .infoOK .. | .infoFailed .. | .triggered _
  | .exposureFailed | .killAll => isTrue trivial

def fresh (clears : Bool) : DevClientCameraImage where
  clears := clears
  readChannels := []
  images := .empty
  actualImage := none
  checkImages := []
  prematurelyReceived := []
  created := 0
  timers := []
  processed := []
  deleted := []

end DevClientCameraImage

end Rts2.Kernel
