import CanSniffer.Storage.FatFs
import CanSniffer.Storage.JsonValue

/-! Preallocation of the log files (`CanLogManager.c`), by the sizes of the files.  What the card
and the volume answer to a call is an argument of it. -/

namespace CanSniffer.Logging

open Storage Lib Decimal

def preallocMarkerVersion : UInt32 := 1
def preallocMarkerMaxSize : Nat := 128

structure SeekAnswer where
  res : FResult
  room : Nat

/-- To `f_open` without a mode that creates the file. -/
def openExisting (file : Option Nat) (res : FResult) : FResult :=
  if res ≠ .ok then res
  else if file.isSome then .ok
  else .noFile

def createNew (file : Option Nat) (res : FResult) : Option Nat × FResult :=
  if res ≠ .ok then (file, res)
  else if file.isSome then (file, .exist)
  else (some 0, .ok)

structure LogFil where
  size : Nat
  fptr : Nat

namespace LogFil

/-- With option 0 the clusters are looked for and not yet taken. -/
def fExpand (fp : LogFil) (fsz : UInt32) (res : FResult) : FResult :=
  if res ≠ .ok then res
  else if fsz = 0 ∨ fp.size ≠ 0 then .denied
  else .ok

/-- A full disk ends the growth without an error. -/
def fLseek (fp : LogFil) (ofs : UInt32) (a : SeekAnswer) : LogFil × FResult :=
  if a.res ≠ .ok then (fp, a.res)
  else
    let fptr := min ofs.toNat (max fp.size a.room)
    ({ size := max fp.size fptr, fptr }, .ok)

def fWrite (fp : LogFil) (btw : Nat) (a : WriteAnswer) : LogFil × FResult × Nat :=
  if a.ready ≠ .ok then (fp, a.ready, 0)
  else
    let bw := min a.accepted btw
    ({ size := max fp.size (fp.fptr + bw), fptr := fp.fptr + bw }, a.res, bw)

end LogFil

structure VerifyAnswers where
  opened : FResult
  seek : FResult

/-- The seek tells nothing of the size: beyond its end a file opened for reading is left at its
end. -/
def verifyPreallocation (file : Option Nat) (logFileSize : UInt32) (a : VerifyAnswers) : Bool :=
  if openExisting file a.opened ≠ .ok then false
  else if logFileSize = 0 then false
  else a.seek = .ok

section Marker

variable (json : CoreJson)

def parseMarkerValue (buffer : List UInt8) (key : String) : Option UInt32 :=
  match json.getValue buffer key with
  | none => none
  | some value => if 16 ≤ value.length then none else some (convertToInteger value 0)

structure MarkerAnswers where
  opened : FResult
  read : FResult

def preallocMarkerMatches (marker : Option (List UInt8)) (logFileSize logFileCount : UInt32)
    (a : MarkerAnswers) : Bool :=
  match marker with
  | none => false
  | some buffer =>
    if a.opened ≠ .ok then false
    else if buffer.length = 0 ∨ preallocMarkerMaxSize ≤ buffer.length then false
    else if a.read ≠ .ok then false
    else
      parseMarkerValue json buffer "version" = some preallocMarkerVersion
        ∧ parseMarkerValue json buffer "log_file_size" = some logFileSize
        ∧ parseMarkerValue json buffer "log_file_count" = some logFileCount

end Marker

def preallocMarkerText (logFileSize logFileCount : UInt32) : List UInt8 :=
  ascii "\x7b\"version\":" ++ unsigned preallocMarkerVersion.toNat
    ++ ascii ",\"log_file_size\":" ++ unsigned logFileSize.toNat
    ++ ascii ",\"log_file_count\":" ++ unsigned logFileCount.toNat ++ ascii "\x7d"

/-- What the calls of the file handler return; a write that fails has taken `accepted` bytes. -/
structure MarkerStoreAnswers where
  opened : FResult
  write : FResult
  accepted : Nat
  flush : FResult
  close : FResult

/-- The second component is what came into the marker file. -/
def storePreallocMarker (logFileSize logFileCount : UInt32) (a : MarkerStoreAnswers) :
    FResult × Option (List UInt8) :=
  if a.opened ≠ .ok then (a.opened, none)
  else
    let content := preallocMarkerText logFileSize logFileCount
    if preallocMarkerMaxSize ≤ content.length then (.invalidParameter, some [])
    else
      let res := a.write
      let res := if res = .ok then a.flush else res
      let res := if a.close ≠ .ok ∧ res = .ok then .diskErr else res
      (res, some (if a.write = .ok then content else content.take a.accepted))

/-- `seek` answers the seek that ends this far before the end. -/
structure FileAnswers where
  verify : VerifyAnswers
  create : FResult
  opened : FResult
  expand : FResult
  seek : UInt32 → SeekAnswer
  write : WriteAnswer
  rewind : FResult
  close : FResult

def seekFallbacks : List UInt32 := [512, 1024, 3 * 512, 4 * 512, 5 * 512]

/-- A seek is tried when the one before it failed. -/
def trySeek (logFileSize : UInt32) (seek : UInt32 → SeekAnswer) (s : LogFil × FResult)
    (back : UInt32) : LogFil × FResult :=
  if s.2 ≠ .ok then s.1.fLseek (logFileSize - back) (seek back) else s

def seekNearEnd (fp : LogFil) (logFileSize : UInt32) (seek : UInt32 → SeekAnswer) :
    LogFil × FResult :=
  seekFallbacks.foldl (trySeek logFileSize seek) (fp.fLseek (logFileSize - 1) (seek 1))

/-- What is done with a log file that could be opened; without the flag an error is counted. -/
def expandLogFile (size : Nat) (logFileSize : UInt32) (a : FileAnswers) : Nat × Bool :=
  let fp : LogFil := { size, fptr := 0 }
  let res := fp.fExpand logFileSize a.expand
  let (fp, res) := if res = .ok then seekNearEnd fp logFileSize a.seek else (fp, res)
  let (fp, res, bytesWritten) := if res = .ok then fp.fWrite 1 a.write else (fp, res, 0)
  let res := if res = .ok ∧ bytesWritten = 1 then a.rewind else res
  (fp.size, bytesWritten = 1 ∧ res = .ok ∧ a.close = .ok)

def preallocateLogFile (file : Option Nat) (logFileSize : UInt32) (a : FileAnswers) :
    Option Nat × Bool :=
  if verifyPreallocation file logFileSize a.verify then (file, true)
  else
    let (file, res) := createNew file a.create
    let res := if res = .exist then openExisting file a.opened else res
    match res, file with
    | .ok, some size =>
      let (size, ok) := expandLogFile size logFileSize a
      (some size, ok)
    | _, _ => (file, false)

def preallocateTurn (logFileSize : UInt32) (a : Nat → FileAnswers)
    (s : (Nat → Option Nat) × Nat) (i : Nat) : (Nat → Option Nat) × Nat :=
  let (file, ok) := preallocateLogFile (s.1 i) logFileSize (a i)
  (fun j => if j = i then file else s.1 j, if ok then s.2 else s.2 + 1)

/-- The files afterwards, and `CanLogPreallocErrorCount`. -/
def preallocateLoop (logFileSize : UInt32) (a : Nat → FileAnswers) (dir : Nat → Option Nat)
    (logFileCount : Nat) : (Nat → Option Nat) × Nat :=
  (List.range logFileCount).foldl (preallocateTurn logFileSize a) (dir, 0)

/-- `last` and `lastAgain` answer the two looks at the last file. -/
structure PreallocAnswers where
  marker : MarkerAnswers
  last : VerifyAnswers
  lastAgain : VerifyAnswers
  file : Nat → FileAnswers
  store : MarkerStoreAnswers
  opened : FResult

/-- `stored` is what the call put into the marker file. -/
structure Preallocated where
  res : FResult
  dir : Nat → Option Nat
  errorCount : Nat
  stored : Option (List UInt8)

def getMaxLogIndex (logFileCount : UInt32) : UInt32 :=
  if 0 < logFileCount then logFileCount - 1 else 0

def finishPreallocation (dir : Nat → Option Nat) (errorCount : Nat) (markerValid : Bool)
    (logFileSize logFileCount : UInt32) (a : PreallocAnswers) : Preallocated :=
  let (res, stored) :=
    if errorCount = 0 ∧ ¬markerValid then storePreallocMarker logFileSize logFileCount a.store
    else (.ok, none)
  if res ≠ .ok then { res, dir, errorCount, stored }
  else if errorCount ≠ 0 then { res := .diskErr, dir, errorCount, stored }
  else
    -- the first file is opened to be appended to, which creates it
    let dir := fun j => if j = 0 ∧ a.opened = .ok then some ((dir 0).getD 0) else dir j
    { res := a.opened, dir, errorCount, stored }

/-- `dir` has the sizes of the files `CAN.LOG0`, `CAN.LOG1`, … that are there. -/
def preallocateLogFiles (json : CoreJson) (dir : Nat → Option Nat) (marker : Option (List UInt8))
    (logFileSize logFileCount : UInt32) (a : PreallocAnswers) : Preallocated :=
  if logFileSize = 0 ∨ logFileCount = 0 then
    { res := .invalidParameter, dir, errorCount := 0, stored := none }
  else
    let last := dir (getMaxLogIndex logFileCount).toNat
    let markerValid := preallocMarkerMatches json marker logFileSize logFileCount a.marker
      && verifyPreallocation last logFileSize a.last
    let complete := markerValid || verifyPreallocation last logFileSize a.lastAgain
    let (dir, errorCount) :=
      if complete then (dir, 0)
      else preallocateLoop logFileSize a.file dir logFileCount.toNat
    finishPreallocation dir errorCount markerValid logFileSize logFileCount a

end CanSniffer.Logging
