import Rts2.Kernel.Params

/-! The connection to an external script: ConnExecute over ConnExe. A line the script writes is
processed against what the executor knows when it is read. -/
namespace Rts2.External

open Kernel Lib

def bytes (text : String) : List UInt8 := text.toList.map (fun c => UInt8.ofNat c.toNat)

structure Device where
  name : List UInt8
  otherType : Nat
  state : BitVec 32
  getValue : List UInt8 → Option (List UInt8)

def deviceTypeMount : Nat := 2
def deviceTypeSelector : Nat := 22

def telMaskMoving : BitVec 32 := 0x007
def telMoving : BitVec 32 := 0x001
def deviceStatusMask : BitVec 32 := 0xfff
def bopExposure : BitVec 32 := 0x01000000

def Device.isIdle (d : Device) : Bool := d.state &&& deviceStatusMask = 0

structure Target where
  wasMoved : Bool
  targetID : Int

inductive ImageCommand where
  | dark
  | flat
  | archive
  | trash
  | rename
  | move
  | copy
  deriving DecidableEq, Repr

/-- `connection`, `client`, `target` and `loopCount` are what the Execute element of the script
answers; `moveImage` is the new path of an image that is moved to the place its parameters
name, or the text of the error the move throws. -/
structure World where
  now : Int
  connections : List Device
  centraldConns : List Device
  getOwnValue : List UInt8 → Option (List UInt8)
  deviceName : Option (List UInt8)
  connection : Option Device
  client : Bool
  target : Option Target
  loopCount : Option Int
  moveImage : ImageCommand → List UInt8 → List UInt8 → Except (List UInt8) (List UInt8)
  /-- sscanf reads a double from the word. -/
  scansDouble : List UInt8 → Bool

namespace World

def getOpenConnection (w : World) (name : List UInt8) : Option Device :=
  w.connections.find? (fun d => d.name = name)

def getOpenConnectionType (w : World) (type : Nat) : Option Device :=
  w.connections.find? (fun d => d.otherType = type)

end World

def isCentraldName (name : List UInt8) : Bool := name = bytes ".." || name = bytes "centrald"

def toLower (c : UInt8) : UInt8 := if 65 ≤ c ∧ c ≤ 90 then c + 32 else c

def strcasecmp (s t : List UInt8) : Bool := s.map toLower = t.map toLower

def deviceTypes : List (String × Nat) :=
  [("TELESCOPE", 2), ("CCD", 3), ("DOME", 4), ("WEATHER", 5), ("PHOT", 7), ("PLAN", 8),
    ("FOCUS", 10), ("COPULA", 12), ("FW", 13), ("SENSOR", 15), ("EXEC", 20), ("SELECTOR", 22),
    ("IMGP", 21)]

def getDeviceType (name : List UInt8) : Option Nat :=
  (deviceTypes.find? (fun entry => strcasecmp name (bytes entry.1))).map (·.2)

def skipDouble (w : World) (text : List UInt8) : Option (List UInt8) :=
  match paramNextString [44] text with
  | none => none
  | some (word, rest) =>
    if strcasecmp word (bytes "nan") = true ∨ w.scansDouble word = true then some rest else none

/-- The values of exposure_started: 0, 1, 2 and from -1 down to -6. -/
inductive ExposureStarted where
  | idle
  | started
  | ended
  | startedError
  | endedError
  | startedFailed
  | endedFailed
  | interrupted
  | readoutInterrupted
  deriving DecidableEq, Repr

inductive WaitType where
  | none
  | idle
  | mask
  deriving DecidableEq, Repr

structure Exposure where
  bopMask : BitVec 32
  checks : Bool
  expandPath : Option (List UInt8)
  overwrite : Bool
  deriving DecidableEq, Repr

/-- `masterElement` is false once the pointer to the Execute element is null; `endScript` is the
flag of that element. `written` are the lines written to the script, `queued` the exposures
queued on the camera. -/
structure ConnExecute where
  active : Bool
  waitType : WaitType
  waitDevice : List UInt8
  waitMask : BitVec 32
  waitEnd : Int
  masterElement : Bool
  endScript : Bool
  images : List (List UInt8)
  exposure_started : ExposureStarted
  keep_next_image : Bool
  waitTargetMove : Bool
  written : List (List UInt8)
  queued : List Exposure
  /-- The executor died on a null pointer or left. -/
  crashed : Bool
  deriving DecidableEq, Repr

inductive ExposureForm where
  | plain
  | wfn
  | overwrite
  deriving DecidableEq, Repr

/-- The first word of a line; `other` stands for those that neither answer nor change what is
kept here. -/
inductive Word where
  | exposure (noblock : Bool) (form : ExposureForm)
  | image (command : ImageCommand)
  | delete
  | process
  | value
  | device_by_type
  | end_script
  | end_target
  | stop_target
  | wait_target_move
  | target_disable
  | target_tempdisable
  | loopcount
  | run_device
  | requeue
  | G
  | get_own
  | S
  | waitidle
  | waitmask
  | exec_device
  | other
  deriving DecidableEq, Repr

namespace Word

def words : List (String × Word) :=
  [("dark", image .dark), ("flat", image .flat), ("archive", image .archive),
    ("trash", image .trash), ("rename", image .rename), ("move", image .move),
    ("copy", image .copy), ("delete", delete), ("process", process), ("?", value),
    ("device_by_type", device_by_type), ("end_script", end_script), ("end_target", end_target),
    ("stop_target", stop_target), ("wait_target_move", wait_target_move),
    ("target_disable", target_disable), ("target_tempdisable", target_tempdisable),
    ("loopcount", loopcount), ("run_device", run_device), ("requeue", requeue), ("G", G),
    ("get_own", get_own), ("S", S), ("waitidle", waitidle), ("waitmask", waitmask),
    ("exec_device", exec_device)]

def exposureForm (expcmd : List UInt8) : Option ExposureForm :=
  if expcmd = [] then some .plain
  else if strcasecmp expcmd (bytes "_wfn") then some .wfn
  else if strcasecmp expcmd (bytes "_overwrite") then some .overwrite
  else none

def ofExposure (cmd : List UInt8) : Option Word :=
  if strcasecmp (cmd.take 8) (bytes "exposure") then
    let noblock := strcasecmp ((cmd.drop 8).take 8) (bytes "_noblock")
    (exposureForm (cmd.drop (if noblock then 16 else 8))).map (exposure noblock)
  else none

def ofText (cmd : List UInt8) : Word :=
  ((ofExposure cmd).or ((words.find? (fun entry => cmd = bytes entry.1)).map (·.2))).getD other

end Word

def readLine (line : List UInt8) : Word × List UInt8 :=
  match paramNextString [] line with
  | none => (.other, [])
  | some (cmd, rest) => (Word.ofText cmd, rest)

namespace ConnExecute

def fresh : ConnExecute where
  active := true
  waitType := .none
  waitDevice := []
  waitMask := 0
  waitEnd := 0
  masterElement := true
  endScript := false
  images := []
  exposure_started := .idle
  keep_next_image := false
  waitTargetMove := false
  written := []
  queued := []
  crashed := false

def writeToProcess (c : ConnExecute) (msg : List UInt8) : ConnExecute :=
  { c with written := c.written ++ [msg] }

def crash (c : ConnExecute) : ConnExecute := { c with crashed := true }

def element {α : Type} (c : ConnExecute) (answer : Option α) : Option α :=
  if c.masterElement then answer else none

def notActive (c : ConnExecute) : ConnExecute :=
  match c.exposure_started with
  | .started => { c.writeToProcess (bytes "& exposure interrupted") with
      exposure_started := .interrupted, active := false }
  | .ended => { c.writeToProcess (bytes "& readout interruped") with
      exposure_started := .readoutInterrupted, active := false }
  | _ => { c with active := false }

def errorReported (c : ConnExecute) : ConnExecute :=
  match c.exposure_started with
  | .idle => c.writeToProcess (bytes "! error detected while running the script")
  | .started => { c.writeToProcess (bytes "exposure_failed") with exposure_started := .startedError }
  | .ended => { (c.writeToProcess (bytes "! device failed")).writeToProcess (bytes "ERR") with
      exposure_started := .endedError }
  | _ => c

def exposureEnd (c : ConnExecute) (expectImage : Bool) : ConnExecute :=
  if c.exposure_started = .started then
    if expectImage then
      { c.writeToProcess (bytes "exposure_end") with exposure_started := .ended }
    else
      { c.writeToProcess (bytes "exposure_end_noimage") with exposure_started := .idle }
  else c

def exposureFailed (c : ConnExecute) : ConnExecute :=
  match c.exposure_started with
  | .started => { c.writeToProcess (bytes "exposure_failed") with exposure_started := .startedFailed }
  | .ended => { (c.writeToProcess (bytes "! exposure failed")).writeToProcess (bytes "ERR") with
      exposure_started := .endedFailed }
  | _ => c

def processImage (c : ConnExecute) (image : List UInt8) : ConnExecute :=
  if c.exposure_started = .ended then
    { c.writeToProcess (bytes "image " ++ image) with
      images := if c.keep_next_image then c.images else c.images ++ [image]
      keep_next_image := false
      exposure_started := .idle }
  else c

def queExposure (c : ConnExecute) (w : World) (noblock : Bool) (expandPath : Option (List UInt8))
    (form : ExposureForm) : ConnExecute :=
  if c.masterElement = false ∨ w.connection.isNone = true ∨ w.client = false then c
  else { c with
    queued := c.queued ++ [⟨if noblock then 0 else bopExposure, !noblock, expandPath,
      decide (form = .overwrite)⟩]
    keep_next_image := c.keep_next_image || decide (form ≠ .plain)
    exposure_started := .started }

def exposure (c : ConnExecute) (w : World) (noblock : Bool) (form : ExposureForm)
    (rest : List UInt8) : ConnExecute :=
  if c.active = false then c.writeToProcess (bytes "& script is not active")
  else
    match form with
    | .plain => c.queExposure w noblock none form
    | _ =>
      match paramNextString [] rest with
      | none => c
      | some (imagename, _) => c.queExposure w noblock (some imagename) form

def readImage (command : ImageCommand) (rest : List UInt8) :
    Option (List UInt8 × List UInt8) :=
  match paramNextString [] rest with
  | none => none
  | some (imagename, rest) =>
    match command with
    | .rename | .move | .copy => (paramNextString [] rest).map (fun read => (imagename, read.1))
    | _ => some (imagename, [])

def imageCommand (c : ConnExecute) (w : World) (command : ImageCommand) (rest : List UInt8) :
    ConnExecute :=
  match readImage command rest with
  | none => c
  | some (imagename, expandPath) =>
    if imagename ∈ c.images then
      match w.moveImage command imagename expandPath with
      | .error what =>
        if command = .rename then c.writeToProcess (bytes "E failed " ++ what) else c
      | .ok path =>
        if command = .copy then c.writeToProcess imagename
        else { c.writeToProcess path with images := c.images.erase imagename }
    else c

def reply (c : ConnExecute) (answer : Option (List UInt8)) : ConnExecute :=
  c.writeToProcess (answer.getD (bytes "ERR"))

def getConnectionForScript (w : World) (name : List UInt8) : Option (Option Device) :=
  if isCentraldName name then
    match w.centraldConns with
    | [conn] => some (some conn)
    | _ => none
  else some (w.getOpenConnection name)

def waitReply (c : ConnExecute) (w : World) (conn : Option Device) : Option (List UInt8) :=
  match conn with
  | none => some (bytes "ERR")
  | some conn =>
    if c.waitEnd ≤ w.now then some (bytes "0")
    else if c.waitType = .idle then
      if (conn.otherType = deviceTypeMount ∧ conn.state &&& telMaskMoving ≠ telMoving) ∨
          conn.isIdle = true then
        some (bytes "1")
      else none
    else if conn.state &&& c.waitMask = c.waitMask then some (bytes "1")
    else none

def checkWait (c : ConnExecute) (w : World) : ConnExecute :=
  match getConnectionForScript w c.waitDevice with
  | none => c.crash
  | some conn =>
    match c.waitReply w conn with
    | none => c
    | some msg => { c with waitType := .none }.writeToProcess msg

def startWait (c : ConnExecute) (w : World) (type : WaitType) (device : List UInt8) (mask : Int)
    (timeout : Int) : ConnExecute :=
  match getConnectionForScript w device with
  | none => c.crash
  | some none => c.writeToProcess (bytes "ERR")
  | some (some _) =>
    { c with
      waitType := type
      waitDevice := device
      waitMask := BitVec.ofInt 32 mask
      waitEnd := w.now + timeout }.checkWait w

def readWait (type : WaitType) (rest : List UInt8) : Option (List UInt8 × Int × Int) :=
  match paramNextString [] rest with
  | none => none
  | some (device, rest) =>
    if type = .mask then
      match paramNextInteger 0 rest with
      | (mask, true, rest) =>
        match paramNextInteger 0 rest with
        | (timeout, true, _) => some (device, mask, timeout)
        | _ => none
      | _ => none
    else
      match paramNextInteger 0 rest with
      | (timeout, true, _) => some (device, 0, timeout)
      | _ => none

def wait (c : ConnExecute) (w : World) (type : WaitType) (rest : List UInt8) : ConnExecute :=
  match readWait type rest with
  | none => c
  | some (device, mask, timeout) => c.startWait w type device mask timeout

def wait_target_move (c : ConnExecute) (w : World) : ConnExecute :=
  if c.masterElement = false then c.crash
  else
    match w.target with
    | some target =>
      if target.wasMoved then c.writeToProcess (bytes "0") else { c with waitTargetMove := true }
    | none =>
      (c.writeToProcess (bytes "! there isn't target to wait for")).writeToProcess (bytes "ERR")

def requeue (c : ConnExecute) (w : World) (rest : List UInt8) : ConnExecute :=
  match paramNextString [] rest with
  | none => c
  | some (_, rest) =>
    if (skipDouble w rest).isNone then c
    else if c.masterElement = false then c.crash
    else if w.target.isNone then c.writeToProcess (bytes "! cannot get target")
    else
      match w.getOpenConnectionType deviceTypeSelector with
      | some conn => c.writeToProcess conn.name
      | none => c.writeToProcess (bytes "! cannot find any selector")

def getValue (c : ConnExecute) (w : World) (rest : List UInt8) : ConnExecute :=
  match paramNextString [] rest with
  | none => c
  | some (device, rest) =>
    match paramNextString [] rest with
    | none => c
    | some (value, _) =>
      match getConnectionForScript w device with
      | none => c.crash
      | some conn => c.reply (conn.bind (fun d => d.getValue value))

/-- ConnExecute::processCommand, which leaves the words it does not know to ConnExe. -/
def processCommand (c : ConnExecute) (w : World) (word : Word) (rest : List UInt8) :
    ConnExecute :=
  match word with
  | .exposure noblock form => c.exposure w noblock form rest
  | .image command => c.imageCommand w command rest
  | .delete =>
    match paramNextString [] rest with
    | none => c
    | some (imagename, _) => { c with images := c.images.erase imagename }
  | .process =>
    match paramNextString [] rest with
    | none => c
    | some (imagename, _) =>
      if c.masterElement = false ∨ w.client = false then c
      else { c with images := c.images.erase imagename }
  | .value =>
    match paramNextString [] rest, c.element w.connection with
    | some (value, _), some conn => c.reply (conn.getValue value)
    | _, _ => c
  | .device_by_type =>
    match (paramNextString [] rest).bind (fun read => getDeviceType read.1) with
    | none => c
    | some type =>
      match w.getOpenConnectionType type with
      | some conn => c.writeToProcess conn.name
      | none => c.writeToProcess (bytes "! cannot find device with given name")
  | .end_script =>
    if c.masterElement = false then c.crash else { c with endScript := true }.notActive
  | .end_target => c.notActive
  | .stop_target => c.notActive
  | .wait_target_move => c.wait_target_move w
  | .target_disable => if c.masterElement = false then c.crash else c
  | .target_tempdisable =>
    if (paramNextInteger 0 rest).2.1 = true ∧ c.masterElement = false then c.crash else c
  | .loopcount => c.writeToProcess (decimalInt ((c.element w.loopCount).getD (-1)))
  | .run_device =>
    match c.element w.connection with
    | none => c.writeToProcess (bytes "& not active")
    | some conn => c.writeToProcess conn.name
  | .requeue => c.requeue w rest
  | .G => c.getValue w rest
  | .get_own =>
    match paramNextString [] rest with
    | none => c
    | some (value, _) => c.reply (w.getOwnValue value)
  | .S =>
    match paramNextString [] rest with
    | none => c
    | some (device, _) =>
      match getConnectionForScript w device with
      | none => c.crash
      | some conn => c.reply (conn.map (fun d => decimalInt d.state.toInt))
  | .waitidle => c.wait w .idle rest
  | .waitmask => c.wait w .mask rest
  | .exec_device => c.writeToProcess (w.deviceName.getD (bytes "None"))
  | .other => c

/-- ConnExe::processLine; an error that is thrown is only logged. -/
def processLine (c : ConnExecute) (w : World) (line : List UInt8) : ConnExecute :=
  c.processCommand w (readLine line).1 (readLine line).2

def idle (c : ConnExecute) (w : World) : ConnExecute :=
  if c.waitType = .none then c else c.checkWait w

def postEvent (c : ConnExecute) (moved : Bool) : ConnExecute :=
  if c.waitTargetMove = false then c
  else if moved then c.writeToProcess (bytes "0")
  else (c.writeToProcess (bytes "! move failed")).writeToProcess (bytes "ERR")

/-- Execute::defnextCommand lets go of the connection when the script asked for the end. -/
def nextCommand (c : ConnExecute) : ConnExecute :=
  if c.endScript then { c with masterElement := false } else c

end ConnExecute

end Rts2.External
