import CanSniffer.Drivers.CommTypes
import CanSniffer.Logging.CanLogSession
import CanSniffer.Storage.FileHandler

/-! The task that stores blocks (`SdBridgeTask_ActionHook`, `appCanLogStoreBlock` and what they
call in `CanLogManager.c`).  It is cut where the logger may come in between. -/

universe u

namespace CanSniffer.Logging

open Lib Lib.Bytes Drivers Storage

/-- `CanLogCtrlData.CanLog`.  `closed` is not in the program: what was written to each file
that has been closed, in the order of closing. -/
structure CanLogFile where
  writeFileDevice : FatFsDevice
  fileHeadIndex : Nat
  openRes : FResult
  closed : List (List UInt8)

structure StoreAnswers where
  write : WriteFileAnswers
  pending : Bool
  sync : Answer

/-- The configured size and number of log files, and the answers to the calls of a rotation. -/
structure RotateAnswers where
  logFileSize : Nat
  logFileCount : Nat
  closeSync : Answer
  closeReady : FResult
  reopen : OpenAnswers
  sync : Answer

namespace CanLogFile

def opened (index : Nat) : CanLogFile where
  writeFileDevice := {
    file := { fs := true, err := .ok, fptr := 0, data := [] }
    fflags := faOpenAppend ||| faWrite }
  fileHeadIndex := index
  openRes := .ok
  closed := []

def files (c : CanLogFile) : List (List UInt8) :=
  if c.writeFileDevice.file.fs then c.closed ++ [c.writeFileDevice.file.data] else c.closed

def storeToSd (c : CanLogFile) (data : List UInt8) (a : StoreAnswers) :
    CanLogFile × CommStatus :=
  let (writeFileDevice, fr) := c.writeFileDevice.writeFile data a.write
  let c := { c with writeFileDevice }
  if fr = .ok then
    if writeFileDevice.syncPending a.pending then
      if writeFileDevice.flush a.sync ≠ .ok then (c, .error) else (c, .success)
    else (c, .success)
  else (c, .error)

/-- `appCanLogCheckNewFileOpenLocked`; the flush after the new file was opened changes nothing. -/
def checkNewFileOpenLocked (c : CanLogFile) (a : RotateAnswers) : CanLogFile :=
  if a.logFileSize ≤ c.writeFileDevice.getBufferedFileSize then
    let r := c.writeFileDevice.closeFile a.closeSync a.closeReady
    if r.2 = .ok then
      let c := { c with
        writeFileDevice := r.1
        closed := c.files }
      if 0 < a.logFileCount then
        let (writeFileDevice, openRes) := c.writeFileDevice.openFileForOverWrite a.reopen
        { c with
          fileHeadIndex := (c.fileHeadIndex + 1) % a.logFileCount
          writeFileDevice
          openRes }
      else c
    else { c with writeFileDevice := r.1 }
  else c

end CanLogFile

/-- Where `SdBridgeTask_ActionHook` stands. -/
inductive SdPoint
  | idle
  | ready
  | read
  | store
  | rotate
  | consume
  deriving DecidableEq

def Block.cnt (b : Block) : Nat := getUint8 b.data 3

/-- The log and the file it goes to.  Not in the program: the block of the last failed store, the
blocks that were written whole, and how many writes have failed since the last of them. -/
structure SdBridge (ρ : Type u) where
  log : Session ρ
  canLog : CanLogFile
  point : SdPoint
  failed : Option Block
  written : List Block
  failures : Nat

/-- `actionHook` starts `SdBridgeTask_ActionHook`, the events after it are its parts; the first
two are calls of the logger. -/
inductive SdEvent
  | addEntry (entry : LogEntry)
  | fillBlockWithPadding
  | actionHook
  | isBlockReady
  | readNextBlock
  | storeToSd (a : StoreAnswers)
  | checkNewFile (a : RotateAnswers)
  | consume

namespace SdBridge

variable {ρ : Type u} [Lwrb ρ]

def start (s : CanLogBuffer ρ) (index : Nat) : SdBridge ρ where
  log := .start s
  canLog := .opened index
  point := .idle
  failed := none
  written := []
  failures := 0

def lastStored (s : SdBridge ρ) : Option Block :=
  match s.point with
  | .rotate | .consume => s.log.lastRead
  | _ => none

def stored (s : SdBridge ρ) : List Block := s.log.consumed ++ s.lastStored.toList

variable [LawfulLwrb ρ]

def readNextBlock (s : SdBridge ρ) : SdBridge ρ :=
  let r := s.log.buf.readNextBlock
  { s with
    log := s.log.afterRead r.1 r.2
    point := match r.2 with
      | .ok _ => .store
      | .error _ => .idle }

/-- `appCanLogStoreToSd` on the block that was read; the hook ends when it fails. -/
def storeToSd (s : SdBridge ρ) (b : Block) (a : StoreAnswers) : SdBridge ρ :=
  let r := s.canLog.storeToSd b.data a
  let fr := (s.canLog.writeFileDevice.writeFile b.data a.write).2
  { s with
    canLog := r.1
    point := if r.2 = .success then .rotate else .idle
    failed := if r.2 = .success then s.failed else some b
    written := if fr = .ok then s.written ++ [b] else s.written
    failures := if fr = .ok then 0 else s.failures + 1 }

def consume (s : SdBridge ρ) (b : Block) : SdBridge ρ :=
  { s with
    log := { s.log with
      buf := s.log.buf.consume b.len b.frameCount
      lastRead := none
      consumed := s.log.consumed ++ [b] }
    point := .ready
    failed := none }

def step : Step (SdBridge ρ) SdEvent
  | s, .addEntry entry => (Session.step s.log (.addEntry entry)).map fun log => { s with log }
  | s, .fillBlockWithPadding =>
    (Session.step s.log .fillBlockWithPadding).map fun log => { s with log }
  | s, .actionHook =>
    match s.point with
    | .idle => some { s with point := .ready }
    | _ => none
  | s, .isBlockReady =>
    match s.point with
    | .ready => some { s with point := if s.log.buf.isBlockReady then .read else .idle }
    | _ => none
  | s, .readNextBlock =>
    match s.point with
    | .read => some s.readNextBlock
    | _ => none
  | s, .storeToSd a =>
    match s.point, s.log.lastRead with
    | .store, some b => some (s.storeToSd b a)
    | _, _ => none
  | s, .checkNewFile a =>
    match s.point with
    | .rotate => some { s with canLog := s.canLog.checkNewFileOpenLocked a, point := .consume }
    | _ => none
  | s, .consume =>
    match s.point, s.log.lastRead with
    | .consume, some b => some (s.consume b)
    | _, _ => none

end SdBridge

end CanSniffer.Logging
