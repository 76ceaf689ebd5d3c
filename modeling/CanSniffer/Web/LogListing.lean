import CanSniffer.Logging.LogFiles
import CanSniffer.Web.ParseCanLog

namespace CanSniffer.Web

open Logging

structure LogsMeta where
  head : Nat
  tail : Nat
  capacity : Nat
  latest : Nat
  fileSize : Nat
  deriving DecidableEq

def renderMeta (cfg : LogFileConfig) (s : LogFiles) : LogsMeta :=
  let capacity := cfg.logFileCount
  let progression :=
    if s.fileTailIndex ≤ s.fileHeadIndex then
      (s.fileHeadIndex - s.fileTailIndex + 1) % UInt32.size
    else (capacity + (s.fileHeadIndex + UInt32.size - s.fileTailIndex + 1)) % UInt32.size
  let head := if progression < 2 then s.fileTailIndex else s.fileHeadIndex
  { head
    tail := s.fileTailIndex
    capacity
    latest := (head + capacity - 1) % UInt32.size % capacity
    fileSize := cfg.logFileSize }

/-- The page's loop over the files from `i` to `head`, and `head`; `none` when it has not ended
after `fuel` rounds. -/
def idxList (head capacity : Nat) : Nat → Nat → Option (List Nat)
  | 0, _ => none
  | fuel + 1, i =>
    if i = head then some [head]
    else (idxList head capacity fuel ((i + 1) % capacity)).map (i :: ·)

def listing (cfg : LogFileConfig) (s : LogFiles) (fuel : Nat) : Option (List Nat) :=
  let m := renderMeta cfg s
  idxList m.head m.capacity fuel m.tail

def joined (s : LogFiles) (files : List Nat) : List UInt8 := files.flatMap s.content

end CanSniffer.Web
