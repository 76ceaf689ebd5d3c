import CanSniffer.Lib.LastWindow
import CanSniffer.Logging.CanLogSession

/-! The files the blocks go to, one after the other and over again (`CanLogManager.c`).
`SdBridge` has the writer's side of them with its faults; here the writes succeed, and the files
keep what they held before. -/

namespace CanSniffer.Logging

open Lib

def maxLogFileSize : UInt32 := 10 * 1024 * 1024
def maxLogFileCount : UInt32 := 640

structure LogFileConfig where
  logFileSize : Nat
  logFileCount : Nat
  count_pos : 0 < logFileCount
  count_lt : logFileCount < UInt32.size

def setFileConfig (logFileSize logFileCount : UInt32) : LogFileConfig where
  logFileSize := (if logFileSize = 0 then maxLogFileSize else logFileSize).toNat
  logFileCount := (if logFileCount = 0 then maxLogFileCount else logFileCount).toNat
  count_pos := by
    split
    · decide
    · next hne => exact Nat.pos_of_ne_zero fun h => hne (UInt32.toNat_inj.mp h)
  count_lt := UInt32.toNat_lt _

def LogFileConfig.maxLogIndex (cfg : LogFileConfig) : Nat :=
  if 0 < cfg.logFileCount then cfg.logFileCount - 1 else 0

structure Store where
  file : Nat
  offset : Nat
  block : Block
  deriving DecidableEq

def Store.overwrites (b a : Store) : Bool :=
  b.file = a.file ∧ b.offset < a.offset + a.block.data.length ∧
    a.offset < b.offset + b.block.data.length

/-- `CanLogCtrlData.CanLog`, the position in its open file and what is in the files
`CAN.LOG0`, `CAN.LOG1`, ….  `stores` is not in the program: the blocks stored since boot. -/
structure LogFiles where
  content : Nat → List UInt8
  fptr : Nat
  fileHeadIndex : Nat
  fileTailIndex : Nat
  fileIndexWrapped : Bool
  stores : List Store

namespace LogFiles

/-- After `appCanLogHandlerInit`, which keeps the files. -/
def start (old : Nat → List UInt8) : LogFiles where
  content := old
  fptr := 0
  fileHeadIndex := 0
  fileTailIndex := 0
  fileIndexWrapped := false
  stores := []

def storeToSd (s : LogFiles) (b : Block) : LogFiles :=
  let data := s.content s.fileHeadIndex
  { s with
    content := Function.update s.content s.fileHeadIndex
      (data.take s.fptr ++ b.data ++ data.drop (s.fptr + b.data.length))
    fptr := s.fptr + b.data.length
    stores := s.stores ++ [⟨s.fileHeadIndex, s.fptr, b⟩] }

/-- `appCanLogCheckNewFileOpenLocked`, where `closed` is whether the file could be closed. The new
file is opened for overwriting and keeps its content. -/
def checkNewFileOpenLocked (cfg : LogFileConfig) (closed : Bool) (s : LogFiles) : LogFiles :=
  if cfg.logFileSize ≤ s.fptr then
    if closed ∧ 0 < cfg.logFileCount then
      let fileIndexWrapped := if cfg.maxLogIndex ≤ s.fileHeadIndex then true else s.fileIndexWrapped
      let fileHeadIndex := (s.fileHeadIndex + 1) % cfg.logFileCount
      { s with
        fptr := 0
        fileHeadIndex
        fileTailIndex :=
          if fileIndexWrapped then (fileHeadIndex + 1) % cfg.logFileCount else s.fileTailIndex
        fileIndexWrapped }
    else s
  else s

def held (s : LogFiles) : List Store := unreplaced Store.overwrites s.stores

/-- The files with blocks stored since boot, in the order of the newest block of each. -/
def holding (s : LogFiles) : List Nat := (s.held.map Store.file).dedup

end LogFiles

structure StoreEvent (epoch : UInt8) where
  block : Block
  carries : ∃ es, Carries epoch es block
  closed : Bool

def LogFiles.storeBlock {epoch : UInt8} (cfg : LogFileConfig) (s : LogFiles)
    (e : StoreEvent epoch) : LogFiles :=
  (s.storeToSd e.block).checkNewFileOpenLocked cfg e.closed

/-- Wherever a block could begin, the data is of another epoch. -/
def OlderEpoch (epoch : UInt8) (data : List UInt8) : Prop :=
  ∀ j, j * blockSize < data.length → ∃ e, data[j * blockSize + 2]? = some e ∧ e ≠ epoch

structure OldFiles (epoch : UInt8) where
  data : Nat → List UInt8
  older : ∀ i, OlderEpoch epoch (data i)

def LogFiles.run {epoch : UInt8} (cfg : LogFileConfig) (old : OldFiles epoch)
    (es : List (StoreEvent epoch)) : LogFiles :=
  es.foldl (storeBlock cfg) (start old.data)

end CanSniffer.Logging
