import CanSniffer.Lib.Transition
import CanSniffer.Storage.FileHandler

/-! What the web server hands out besides its pages (`fs_custom.c`, `fs_custom_logs.c`): the log
files, read from the card as the connection takes them, and texts rendered into static buffers. -/

namespace CanSniffer.Web

open Lib Storage

inductive FsBuffer
  | metaData
  | statusData
  | debugData
  | configData
  | iapStatusData
  | iapPrepareResultData
  | iapApplyResultData
  deriving DecidableEq, Repr

def jsonResponseHeader : List Char :=
  "HTTP/1.1 200 OK\r\nContent-Type: application/json\r\nConnection: close\r\n\r\n".toList

def FsBuffer.size : FsBuffer → Nat
  | .metaData => 128
  | .statusData => 5120
  | .debugData => jsonResponseHeader.length + 4096
  | .configData => 96
  | .iapStatusData => 640
  | .iapPrepareResultData => 96
  | .iapApplyResultData => 96

/-- The handler of a route; with `headerIncluded` the JSON header goes before the text. -/
inductive FsHandler
  | openLogs
  | openVersion
  | openPostRedirect
  | render (buffer : FsBuffer) (headerIncluded : Bool)
  deriving DecidableEq, Repr

def fsCustomRoutes : List (String × FsHandler) :=
  [("/logs/CAN.LOG", .openLogs),
    ("/logs/meta", .render .metaData false),
    ("/logs/config", .render .configData false),
    ("/logger/status", .render .statusData false),
    ("/logger/debug", .render .debugData true),
    ("/logger/errors", .render .debugData true),
    ("/iap/status", .render .iapStatusData false),
    ("/api/version", .openVersion),
    ("/api/card", .render .statusData false),
    ("/iap/prepare", .render .iapPrepareResultData false),
    ("/iap/apply", .render .iapApplyResultData false),
    ("/postredir", .openPostRedirect)]

def findRoute (name : String) : Option FsHandler :=
  (fsCustomRoutes.find? fun r => r.1.toList.isPrefixOf name.toList).map Prod.snd

def canLogPath (name : String) : String := String.ofList (name.toList.take 63)

inductive FsData
  | buffer (buffer : FsBuffer)
  | constant
  deriving DecidableEq, Repr

/-- An open file; `pextension` is whether it points to the request state.  Not in the program:
`own` is what it should be sent, `received` what its reads returned, `ended` whether one of them
said that there is no more. -/
structure FsFile where
  pextension : Bool
  data : Option FsData
  len : Nat
  own : List UInt8
  received : List UInt8
  ended : Bool
  deriving DecidableEq, Repr

structure RenderAnswer (room : Nat) where
  written : List UInt8
  payload : Option Nat
  written_le : written.length ≤ room
  payload_le : ∀ n ∈ payload, n ≤ written.length

abbrev FsCustomRenderFn := (room : Nat) → RenderAnswer room

structure OpenLogAnswers where
  opened : FResult
  sync : Answer
  ready : FResult

/-- `CanLogReadFileDevice` with its `readTargetSize`, the `byteCount` of `reqState`, and the
buffers.  Not in the program: `owner` is the handle the device is open for. -/
structure FsCustom where
  files : Nat → Option FsFile
  buffers : FsBuffer → List UInt8
  device : FatFsDevice
  readTargetSize : Nat
  byteCount : Nat
  owner : Option Nat

inductive FsCall
  | open (h : Nat) (name : String) (log : OpenLogAnswers) (render : FsCustomRenderFn)
  | read (h : Nat) (count : Int) (a : Answer)
  | close (h : Nat) (sync : Answer) (ready : FResult)

def intMax : Nat := 0x7FFFFFFF

namespace FsCustom

def start (buffers : FsBuffer → List UInt8) : FsCustom where
  files := fun _ => none
  buffers := buffers
  device := { file := { fs := false, err := .ok, fptr := 0, data := [] }, fflags := 0 }
  readTargetSize := 0
  byteCount := 0
  owner := none

def setFile (s : FsCustom) (h : Nat) (f : Option FsFile) : FsCustom :=
  { s with files := fun i => if i = h then f else s.files i }

def setBuffer (s : FsCustom) (b : FsBuffer) (content : List UInt8) : FsCustom :=
  { s with buffers := fun i => if i = b then content else s.buffers i }

def logsOpenFile (volume : String → Option (List UInt8)) (s : FsCustom) (h : Nat) (name : String)
    (a : OpenLogAnswers) : FsCustom :=
  let r := s.device.openFileForRead (volume (canLogPath name)) a.opened
  let s := { s with byteCount := 0, device := r.1, owner := none }
  if r.2 ≠ .ok then s
  else if intMax < r.1.getFileSize then { s with device := (r.1.closeFile a.sync a.ready).1 }
  else
    { s with readTargetSize := r.1.getFileSize, owner := some h }.setFile h
      (some {
        pextension := true
        data := none
        len := r.1.getFileSize
        own := r.1.file.data
        received := []
        ended := false })

/-- `FsCustomLogs_Read`; `none` is `FS_READ_EOF`. -/
def logsRead (s : FsCustom) (f : FsFile) (count : Int) (a : Answer) :
    FsCustom × Option (List UInt8) :=
  if f.pextension = false then (s, none)
  else if s.readTargetSize ≤ s.byteCount then ({ s with byteCount := 0 }, none)
  else if count ≤ 0 then (s, none)
  else
    let len := min count.toNat (s.readTargetSize - s.byteCount)
    let r := s.device.readFile len a
    if r.2.1 ≠ .ok then ({ s with device := r.1 }, none)
    else ({ s with device := r.1, byteCount := s.byteCount + len }, some r.2.2)

def logsClose (s : FsCustom) (f : FsFile) (sync : Answer) (ready : FResult) : FsCustom :=
  if f.pextension then { s with device := (s.device.closeFile sync ready).1, owner := none } else s

def headerSize (headerIncluded : Bool) : Nat :=
  if headerIncluded then jsonResponseHeader.length else 0

def writeAt (buffer : List UInt8) (ofs : Nat) (bytes : List UInt8) : List UInt8 :=
  buffer.take ofs ++ bytes ++ buffer.drop (ofs + bytes.length)

def rendered (buffer : List UInt8) (headerIncluded : Bool) (a : RenderAnswer room) : List UInt8 :=
  let buffer := writeAt buffer (headerSize headerIncluded) a.written
  match a.payload with
  | some _ =>
    writeAt buffer 0
      ((jsonResponseHeader.take (headerSize headerIncluded)).map fun c => UInt8.ofNat c.toNat)
  | none => buffer

def openRendered (s : FsCustom) (h : Nat) (b : FsBuffer) (headerIncluded : Bool)
    (render : FsCustomRenderFn) : FsCustom :=
  if b.size ≤ headerSize headerIncluded then s
  else
    let a := render (b.size - headerSize headerIncluded)
    let content := rendered (s.buffers b) headerIncluded a
    let s := s.setBuffer b content
    match a.payload with
    | some n =>
      s.setFile h (some {
        pextension := false
        data := some (.buffer b)
        len := headerSize headerIncluded + n
        own := content.take (headerSize headerIncluded + n)
        received := []
        ended := false })
    | none => s

def constantFile : FsFile where
  pextension := false
  data := some .constant
  len := 0
  own := []
  received := []
  ended := false

def openCustom (volume : String → Option (List UInt8)) (s : FsCustom) (h : Nat) (name : String)
    (log : OpenLogAnswers) (render : FsCustomRenderFn) : FsCustom :=
  match findRoute name with
  | some .openLogs => s.logsOpenFile volume h name log
  | some .openVersion => s.setFile h (some constantFile)
  | some .openPostRedirect => s.setFile h (some constantFile)
  | some (.render b headerIncluded) => s.openRendered h b headerIncluded render
  | none => s

def receive (f : FsFile) (count : Int) : Option (List UInt8) → FsFile
  | some bytes => { f with received := f.received ++ bytes }
  | none => { f with ended := f.ended || decide (0 < count) }

/-- A handle is opened while it is free, then read and closed. -/
def step (volume : String → Option (List UInt8)) : Step FsCustom FsCall
  | s, .open h name log render =>
    match s.files h with
    | none => some (s.openCustom volume h name log render)
    | some _ => none
  | s, .read h count a =>
    match s.files h with
    | some f =>
      let r := s.logsRead f count a
      some (r.1.setFile h (some (receive f count r.2)))
    | none => none
  | s, .close h sync ready =>
    match s.files h with
    | some f => some ((s.logsClose f sync ready).setFile h none)
    | none => none

end FsCustom

end CanSniffer.Web
