import CanSniffer.Lib.Lwrb
import CanSniffer.Logging.CanLogEntry

/-! The staging ring of the log (`CanLogBuffer.c`).  Block boundaries are not stored:
they are where the ring pointers are multiples of `blockSize`. -/

universe u

namespace CanSniffer.Logging

open Lib Lib.Bytes

inductive ClbReturnType
  | ok
  | notOk
  | bufferFull
  | writePadding
  | writeHeader
  | writeEntry
  deriving DecidableEq, Repr

structure CanLogBuffer (ρ : Type u) where
  rb1 : ρ
  epochCount : UInt8
  blockCount : UInt8
  frameCount1 : Nat
  frameCount2 : Nat
  frameDropCount : Nat
  backlog : Nat

structure Block where
  data : List UInt8
  len : Nat
  frameCount : Nat
  deriving DecidableEq, Repr

def paddingChunk : List UInt8 := List.replicate 32 0xFF

def headerPlaceholder : List UInt8 := List.replicate sizeofCanLogBlockHeaderType 0

def chunkLen (remaining : Nat) : Nat :=
  if paddingChunk.length < remaining then paddingChunk.length else remaining

theorem chunkLen_le (n : Nat) : chunkLen n ≤ n := by
  unfold chunkLen
  split <;> omega

theorem chunkLen_pos (h : 0 < n) : 0 < chunkLen n := by
  unfold chunkLen
  split
  · decide
  · exact h

theorem length_take_paddingChunk (n : Nat) :
    (paddingChunk.take (chunkLen n)).length = chunkLen n := by
  rw [List.length_take, Nat.min_eq_left]
  unfold chunkLen
  split <;> omega

section Padding

variable {ρ : Type u} [Lwrb ρ]

/-- The loop both padding writers share; `false` when a chunk did not go in whole. -/
def writePadding (rb : ρ) (remaining : Nat) : ρ × Bool :=
  if 0 < remaining then
    let chunk := chunkLen remaining
    let w := Lwrb.write rb (paddingChunk.take chunk)
    if chunk ≠ w.2 then (w.1, false) else writePadding w.1 (remaining - chunk)
  else (rb, true)
termination_by remaining
decreasing_by
  next h _ =>
    have := chunkLen_pos h
    omega

variable [LawfulLwrb ρ]

theorem writePadding_ok {rb rb' : ρ} {n : Nat} (h : writePadding rb n = (rb', true)) :
    n ≤ Lwrb.getFree rb ∧ Lwrb.getFree rb' = Lwrb.getFree rb - n := by
  fun_induction writePadding rb n with
  | case1 rb n hn chunk w hw => simp at h
  | case2 rb n hn chunk w hw ih =>
    have hle := chunkLen_le n
    have hcount := LawfulLwrb.count_write rb (paddingChunk.take chunk)
    have hfree := Lwrb.getFree_write rb (paddingChunk.take chunk)
    rw [length_take_paddingChunk] at hcount hfree
    have := ih h
    simp only [w, chunk, ne_eq, Decidable.not_not] at *
    omega
  | case3 rb n hn =>
    cases h
    omega

end Padding

namespace CanLogBuffer

variable {ρ : Type u} [Lwrb ρ]

def boot : CanLogBuffer ρ where
  rb1 := Lwrb.init logBufferSize
  epochCount := 0
  blockCount := 0
  frameCount1 := 0
  frameCount2 := 0
  frameDropCount := 0
  backlog := 0

/-- Only the ring is set up; the counters keep their values. -/
def init (s : CanLogBuffer ρ) : CanLogBuffer ρ := { s with rb1 := Lwrb.init logBufferSize }

def setEpochCount (s : CanLogBuffer ρ) (epoch : UInt8) : CanLogBuffer ρ :=
  { s with epochCount := epoch }

/-- Every round that goes on has stored something, so the ring bounds their number. -/
def addEntry [LawfulLwrb ρ] (s : CanLogBuffer ρ) (entry : List UInt8) (entryTotalSize : Nat) :
    CanLogBuffer ρ × ClbReturnType :=
  let offset := Lwrb.wPtr s.rb1 % blockSize
  let spaceInBlock := blockSize - offset
  let freeSpace := Lwrb.getFree s.rb1
  if offset = 0 then
    if freeSpace < headerPlaceholder.length then (s, .bufferFull)
    else
      let w := Lwrb.write s.rb1 headerPlaceholder
      if headerPlaceholder.length ≠ w.2 then ({ s with rb1 := w.1 }, .writeHeader)
      else addEntry { s with rb1 := w.1 } entry entryTotalSize
  else if spaceInBlock < entryTotalSize then
    if freeSpace < spaceInBlock then (s, .bufferFull)
    else
      match _h : writePadding s.rb1 spaceInBlock with
      | (rb1, false) => ({ s with rb1 }, .writePadding)
      | (rb1, true) => addEntry { s with rb1 } entry entryTotalSize
  else if freeSpace < entryTotalSize then (s, .bufferFull)
  else
    let w := Lwrb.write s.rb1 (entry.take entryTotalSize)
    if entryTotalSize = w.2 then
      let frameCount1 :=
        if getUint8 entry 0 = clbEntryTypeFrame.toNat then s.frameCount1 + 1 else s.frameCount1
      ({ s with rb1 := w.1, frameCount1 }, .ok)
    else ({ s with rb1 := w.1 }, .writeEntry)
termination_by Lwrb.getFree s.rb1
decreasing_by
  · simp only [Lwrb.getFree_write, headerPlaceholder, List.length_replicate,
      sizeofCanLogBlockHeaderType] at *
    omega
  · have hpad := writePadding_ok _h
    have hlt : Lwrb.wPtr s.rb1 % blockSize < blockSize := Nat.mod_lt _ (by decide)
    simp only [spaceInBlock, offset] at *
    omega

def fillBlockWithPadding (s : CanLogBuffer ρ) : CanLogBuffer ρ × ClbReturnType :=
  let offset := Lwrb.wPtr s.rb1 % blockSize
  if offset = 0 then (s, .ok)
  else
    let padLen := blockSize - offset
    let freeSpace := Lwrb.getFree s.rb1
    let linearSpace := Lwrb.linearWrite s.rb1
    if freeSpace < padLen ∨ linearSpace < padLen then (s, .notOk)
    else
      match writePadding s.rb1 padLen with
      | (rb1, false) => ({ s with rb1 }, .notOk)
      | (rb1, true) => ({ s with rb1 }, .ok)

def isBlockReady (s : CanLogBuffer ρ) : Bool :=
  let skipToAlign := Lwrb.rPtr s.rb1 % blockSize
  let fullLen := Lwrb.getFull s.rb1
  let linearLen := Lwrb.linearRead s.rb1
  if skipToAlign ≠ 0 then
    let toBoundary := blockSize - skipToAlign
    if fullLen ≤ toBoundary then false
    else if linearLen ≤ toBoundary then false
    else blockSize ≤ fullLen - toBoundary ∧ blockSize ≤ linearLen - toBoundary
  else blockSize ≤ fullLen ∧ blockSize ≤ linearLen

/-- The smallest and the largest size `UsedSlots` takes for an entry of this type. -/
def entrySizes (type : Nat) : Nat × Nat :=
  if type = clbEntryTypeFrame.toNat then
    (sizeofCanLogEntryType, sizeofCanLogEntryType + clbEntryMaxDataLength)
  else if type = clbEntryTypeSync.toNat then (sizeofCanLogSyncType, sizeofCanLogSyncType)
  else (0, 0)

/-- The loop of `UsedSlots`, after `skipBytes` bytes and `entriesRead` entries. -/
def countSlots (rb : ρ) (skipBytes entriesRead : Nat) : Nat :=
  let bytesAvailable := Lwrb.getFull rb
  if bytesAvailable ≤ skipBytes then entriesRead
  else if skipBytes = 0 ∧ Lwrb.rPtr rb % blockSize ≠ 0 then
    let skipToAlign := blockSize - Lwrb.rPtr rb % blockSize
    if bytesAvailable < skipToAlign then entriesRead
    else countSlots rb (skipBytes + skipToAlign) entriesRead
  else
    let blockOffset := (Lwrb.rPtr rb + skipBytes) % blockSize
    if blockOffset = 0 ∧ sizeofCanLogBlockHeaderType ≤ bytesAvailable - skipBytes then
      countSlots rb (skipBytes + sizeofCanLogBlockHeaderType) entriesRead
    else
      let blockRemaining := blockSize - blockOffset
      if blockRemaining < 3 then
        if bytesAvailable - skipBytes < blockRemaining then entriesRead
        else countSlots rb (skipBytes + blockRemaining) entriesRead
      else
        let entryHeader := Lwrb.peek rb skipBytes 3
        if entryHeader.length ≠ 3 then entriesRead
        else
          let entryTotalSize := getUint8 entryHeader 2
          let sizes := entrySizes (getUint8 entryHeader 0)
          if entryTotalSize = 0 then entriesRead
          else if entryTotalSize < sizes.1 ∨ sizes.2 < entryTotalSize then entriesRead
          else if bytesAvailable - skipBytes < entryTotalSize then entriesRead
          else if (Lwrb.peek rb skipBytes entryTotalSize).length ≠ entryTotalSize then entriesRead
          else countSlots rb (skipBytes + entryTotalSize) (entriesRead + 1)
termination_by Lwrb.getFull rb - skipBytes
decreasing_by
  · have hlt : Lwrb.rPtr rb % blockSize < blockSize := Nat.mod_lt _ (by decide)
    simp only [bytesAvailable, skipToAlign] at *
    omega
  · simp only [bytesAvailable, sizeofCanLogBlockHeaderType] at *
    omega
  · have hlt : (Lwrb.rPtr rb + skipBytes) % blockSize < blockSize := Nat.mod_lt _ (by decide)
    simp only [bytesAvailable, blockRemaining, blockOffset] at *
    omega
  · simp only [bytesAvailable, entryTotalSize, entryHeader] at *
    omega

def usedSlots (s : CanLogBuffer ρ) : Nat := countSlots s.rb1 0 0

structure Scan where
  offset : Nat
  frameCount : Nat
  entriesCount : Nat
  deriving DecidableEq, Repr

/-- Where the scan has read an entry, or why it stops there. -/
def scanEntries (rb : ρ) (blockAvailable : Nat) (a : Scan) : Scan :=
  if blockAvailable - a.offset < 3 then a
  else
    let entryHeader := Lwrb.peek rb a.offset 3
    if entryHeader.length ≠ 3 then a
    else
      let totalLen := getUint8 entryHeader 2
      let entryType := getUint8 entryHeader 0
      if totalLen < 3 ∨ blockSize < totalLen then a
      else if entryType = clbEntryTypeNone.toNat then a
      else if entryType ≠ clbEntryTypeFrame.toNat ∧ entryType ≠ clbEntryTypeSync.toNat ∧
          entryType ≠ clbEntryTypeMarker.toNat then a
      else if blockAvailable < a.offset + totalLen then a
      else
        scanEntries rb blockAvailable {
          offset := a.offset + totalLen
          frameCount :=
            if entryType = clbEntryTypeFrame.toNat then a.frameCount + 1 else a.frameCount
          entriesCount := a.entriesCount + 1 }
termination_by blockAvailable - a.offset
decreasing_by
  simp only [totalLen, entryHeader] at *
  omega

/-- The part of `ReadNextBlock` after the block is known to be there. -/
def emitBlock (s : CanLogBuffer ρ) (blockAvailable : Nat) :
    CanLogBuffer ρ × Except ClbReturnType Block :=
  let scan := scanEntries s.rb1 blockAvailable ⟨sizeofCanLogBlockHeaderType, 0, 0⟩
  if scan.offset ≠ sizeofCanLogBlockHeaderType then
    let blockHeader : CanLogBlockHeaderType := {
      version := canlogVersion
      headerSize := .ofNat sizeofCanLogBlockHeaderType
      epoch := s.epochCount
      cnt := s.blockCount
      blockSize := .ofNat blockSize
      blockFill := .ofNat scan.offset
      ingressFrames := .ofNat s.frameCount1
      entriesCount := .ofNat scan.entriesCount }
    let rb1 := Lwrb.patch s.rb1 blockHeader.bytes
    ({ s with rb1, blockCount := s.blockCount + 1 },
      .ok ⟨Lwrb.peek rb1 0 blockSize, blockSize, scan.frameCount⟩)
  else (s, .error .notOk)

def readNextBlock (s : CanLogBuffer ρ) : CanLogBuffer ρ × Except ClbReturnType Block :=
  let misaligned := Lwrb.rPtr s.rb1 % blockSize
  let skipToAlign := blockSize - misaligned
  if misaligned ≠ 0 ∧ Lwrb.getFull s.rb1 < skipToAlign then (s, .error .notOk)
  else
    let s := if misaligned ≠ 0 then { s with rb1 := Lwrb.skip s.rb1 skipToAlign } else s
    let full := Lwrb.getFull s.rb1
    let linearLen := Lwrb.linearRead s.rb1
    let blockAvailable := if blockSize < full then blockSize else full
    if blockAvailable < sizeofCanLogBlockHeaderType + 3 then (s, .error .notOk)
    else if linearLen < blockSize then (s, .error .notOk)
    else if blockAvailable < blockSize then
      let padLen := blockSize - blockAvailable
      if Lwrb.getFree s.rb1 < padLen then (s, .error .notOk)
      else
        match writePadding s.rb1 padLen with
        | (rb1, false) => ({ s with rb1 }, .error .notOk)
        | (rb1, true) => emitBlock { s with rb1 } blockSize
    else emitBlock s blockAvailable

def consume (s : CanLogBuffer ρ) (len frameCount : Nat) : CanLogBuffer ρ :=
  let rb1 := Lwrb.skip s.rb1 len
  let frameCount2 := s.frameCount2 + frameCount
  let backlog := if frameCount2 < s.frameCount1 then s.frameCount1 - frameCount2 else s.backlog
  let frameDropCount := if blockSize < backlog then backlog - blockSize else 0
  let rb1 :=
    if Lwrb.getFull rb1 = 0 ∧ Lwrb.rPtr rb1 % blockSize ≠ 0 then Lwrb.reset rb1 else rb1
  { s with rb1, frameCount2, backlog, frameDropCount }

end CanLogBuffer

end CanSniffer.Logging
