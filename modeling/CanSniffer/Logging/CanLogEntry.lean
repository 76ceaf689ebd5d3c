import CanSniffer.Lib.Bytes

namespace CanSniffer.Logging

open Lib Lib.Bytes

def canlogVersion : UInt8 := 2
def blockSize : Nat := 64 * 1024
def logBufferSize : Nat := 8 * blockSize
def clbEntryMaxDataLength : Nat := 64

def clbEntryTypeNone : UInt8 := 0
def clbEntryTypeFrame : UInt8 := 1
def clbEntryTypeSync : UInt8 := 2
def clbEntryTypeMarker : UInt8 := 3

structure CanLogEntryHeaderType where
  type : UInt8
  headerLen : UInt8
  totalLen : UInt8
  deriving DecidableEq, Repr

def CanLogEntryHeaderType.bytes (h : CanLogEntryHeaderType) : List UInt8 :=
  [h.type, h.headerLen, h.totalLen]

structure CanLogEntryType where
  header : CanLogEntryHeaderType
  timestamp : UInt32
  canId : UInt32
  channel : UInt8
  dlcFlags : UInt8
  dataLen : UInt8
  data : List UInt8
  deriving DecidableEq, Repr

def sizeofCanLogEntryType : Nat := 14

def CanLogEntryType.bytes (e : CanLogEntryType) : List UInt8 :=
  e.header.bytes ++ (le32 e.timestamp ++ (le32 e.canId ++
    (e.channel :: e.dlcFlags :: e.dataLen :: e.data)))

structure CanLogSyncType where
  header : CanLogEntryHeaderType
  timestamp : UInt32
  absTimeHigh : UInt32
  deriving DecidableEq, Repr

def sizeofCanLogSyncType : Nat := 11

def CanLogSyncType.bytes (e : CanLogSyncType) : List UInt8 :=
  e.header.bytes ++ (le32 e.timestamp ++ le32 e.absTimeHigh)

structure CanLogBlockHeaderType where
  version : UInt8
  headerSize : UInt8
  epoch : UInt8
  cnt : UInt8
  blockSize : UInt32
  blockFill : UInt32
  ingressFrames : UInt32
  entriesCount : UInt32
  deriving DecidableEq, Repr

def sizeofCanLogBlockHeaderType : Nat := 20

def CanLogBlockHeaderType.bytes (h : CanLogBlockHeaderType) : List UInt8 :=
  h.version :: h.headerSize :: h.epoch :: h.cnt ::
    (le32 h.blockSize ++ (le32 h.blockFill ++ (le32 h.ingressFrames ++ le32 h.entriesCount)))

@[simp] theorem CanLogEntryType.length_bytes (e : CanLogEntryType) :
    e.bytes.length = sizeofCanLogEntryType + e.data.length := by
  simp [bytes, CanLogEntryHeaderType.bytes, sizeofCanLogEntryType]
  omega

@[simp] theorem CanLogBlockHeaderType.length_bytes (h : CanLogBlockHeaderType) :
    h.bytes.length = sizeofCanLogBlockHeaderType := rfl

/-- A frame entry whose lengths agree with each other, as every caller builds it. -/
structure FrameEntry extends CanLogEntryType where
  type_eq : header.type = clbEntryTypeFrame
  total_len : header.totalLen.toNat = sizeofCanLogEntryType + data.length
  data_len : dataLen.toNat = data.length
  data_le : data.length ≤ clbEntryMaxDataLength
  deriving DecidableEq

structure SyncEntry extends CanLogSyncType where
  type_eq : header.type = clbEntryTypeSync
  total_len : header.totalLen.toNat = sizeofCanLogSyncType
  deriving DecidableEq

def FrameEntry.ofFields (headerLen : UInt8) (timestamp canId : UInt32) (channel dlcFlags : UInt8)
    (data : List UInt8) (h : data.length ≤ clbEntryMaxDataLength) : FrameEntry where
  header := ⟨clbEntryTypeFrame, headerLen, .ofNat (sizeofCanLogEntryType + data.length)⟩
  timestamp := timestamp
  canId := canId
  channel := channel
  dlcFlags := dlcFlags
  dataLen := .ofNat data.length
  data := data
  type_eq := rfl
  total_len := by
    simp only [UInt8.toNat_ofNat', sizeofCanLogEntryType, clbEntryMaxDataLength] at *
    omega
  data_len := by
    simp only [UInt8.toNat_ofNat', clbEntryMaxDataLength] at *
    omega
  data_le := h

def SyncEntry.ofFields (headerLen : UInt8) (timestamp absTimeHigh : UInt32) : SyncEntry where
  header := ⟨clbEntryTypeSync, headerLen, .ofNat sizeofCanLogSyncType⟩
  timestamp := timestamp
  absTimeHigh := absTimeHigh
  type_eq := rfl
  total_len := rfl

inductive LogEntry
  | frame : FrameEntry → LogEntry
  | sync : SyncEntry → LogEntry
  deriving DecidableEq

namespace LogEntry

def bytes : LogEntry → List UInt8
  | .frame e => e.toCanLogEntryType.bytes
  | .sync e => e.toCanLogSyncType.bytes

def header : LogEntry → CanLogEntryHeaderType
  | .frame e => e.header
  | .sync e => e.header

def size (e : LogEntry) : Nat := e.bytes.length

def isFrame : LogEntry → Bool
  | .frame _ => true
  | .sync _ => false

def frame? : LogEntry → Option FrameEntry
  | .frame e => some e
  | .sync _ => none

def frames (es : List LogEntry) : List FrameEntry := es.filterMap frame?

@[simp] theorem size_frame (e : FrameEntry) :
    (frame e).size = sizeofCanLogEntryType + e.data.length :=
  e.toCanLogEntryType.length_bytes

@[simp] theorem size_sync (e : SyncEntry) : (sync e).size = sizeofCanLogSyncType := rfl

theorem size_bounds (e : LogEntry) : 11 ≤ e.size ∧ e.size ≤ 78 := by
  cases e with
  | frame e =>
    have := e.data_le
    simp only [size_frame, sizeofCanLogEntryType, clbEntryMaxDataLength] at *
    omega
  | sync e => simp [sizeofCanLogSyncType]

theorem total_len (e : LogEntry) : e.header.totalLen.toNat = e.size := by
  cases e with
  | frame e => exact e.total_len.trans e.length_bytes.symm
  | sync e => exact e.total_len

theorem bytes_eq_header_append (e : LogEntry) :
    ∃ bs, e.bytes = e.header.bytes ++ bs := by
  cases e with
  | frame e => exact ⟨_, rfl⟩
  | sync e => exact ⟨_, rfl⟩

theorem type_eq (e : LogEntry) :
    e.header.type = if e.isFrame then clbEntryTypeFrame else clbEntryTypeSync := by
  cases e with
  | frame e => exact e.type_eq
  | sync e => exact e.type_eq

@[simp] theorem frames_append (es fs : List LogEntry) :
    frames (es ++ fs) = frames es ++ frames fs :=
  List.filterMap_append

def readFrame (bs : List UInt8) : Option FrameEntry :=
  let header := ⟨.ofNat (getUint8 bs 0), .ofNat (getUint8 bs 1), .ofNat (getUint8 bs 2)⟩
  let entry : CanLogEntryType := {
    header
    timestamp := .ofNat (getUint32 bs 3)
    canId := .ofNat (getUint32 bs 7)
    channel := .ofNat (getUint8 bs 11)
    dlcFlags := .ofNat (getUint8 bs 12)
    dataLen := .ofNat (getUint8 bs 13)
    data := slice bs 14 (getUint8 bs 13) }
  if h : entry.header.type = clbEntryTypeFrame ∧
      entry.header.totalLen.toNat = sizeofCanLogEntryType + entry.data.length ∧
      entry.dataLen.toNat = entry.data.length ∧ entry.data.length ≤ clbEntryMaxDataLength then
    some ⟨entry, h.1, h.2.1, h.2.2.1, h.2.2.2⟩
  else none

def readSync (bs : List UInt8) : Option SyncEntry :=
  let header := ⟨.ofNat (getUint8 bs 0), .ofNat (getUint8 bs 1), .ofNat (getUint8 bs 2)⟩
  let entry : CanLogSyncType := {
    header
    timestamp := .ofNat (getUint32 bs 3)
    absTimeHigh := .ofNat (getUint32 bs 7) }
  if h : entry.header.type = clbEntryTypeSync ∧
      entry.header.totalLen.toNat = sizeofCanLogSyncType then
    some ⟨entry, h.1, h.2⟩
  else none

def read (bs : List UInt8) : Option (LogEntry × List UInt8) :=
  match readFrame bs with
  | some e => some (.frame e, bs.drop (frame e).size)
  | none =>
    match readSync bs with
    | some e => some (.sync e, bs.drop (sync e).size)
    | none => none

theorem readFrame_bytes (e : FrameEntry) (bs : List UInt8) :
    readFrame (e.toCanLogEntryType.bytes ++ bs) = some e := by
  obtain ⟨⟨⟨type, headerLen, totalLen⟩, timestamp, canId, channel, dlcFlags, dataLen, data⟩,
    htype, htotal, hlen, hle⟩ := e
  have hdata : slice (data ++ bs) 0 dataLen.toNat = data := by
    rw [show dataLen.toNat = data.length from hlen, slice_append_zero]
  simp [readFrame, CanLogEntryType.bytes, CanLogEntryHeaderType.bytes, hdata]
  exact ⟨htype, htotal, hlen, hle⟩

theorem readSync_bytes (e : SyncEntry) (bs : List UInt8) :
    readSync (e.toCanLogSyncType.bytes ++ bs) = some e := by
  obtain ⟨⟨⟨type, headerLen, totalLen⟩, timestamp, absTimeHigh⟩, htype, htotal⟩ := e
  simp [readSync, CanLogSyncType.bytes, CanLogEntryHeaderType.bytes]
  exact ⟨htype, htotal⟩

theorem readFrame_of_type (bs : List UInt8) (h : getUint8 bs 0 ≠ 1) : readFrame bs = none := by
  have hlt := getUint8_lt bs 0
  refine dif_neg ?_
  rintro ⟨ht, -⟩
  have := congrArg UInt8.toNat ht
  simp only [UInt8.toNat_ofNat', clbEntryTypeFrame, UInt8.reduceToNat] at this
  omega

theorem readSync_of_type (bs : List UInt8) (h : getUint8 bs 0 ≠ 2) : readSync bs = none := by
  have hlt := getUint8_lt bs 0
  refine dif_neg ?_
  rintro ⟨ht, -⟩
  have := congrArg UInt8.toNat ht
  simp only [UInt8.toNat_ofNat', clbEntryTypeSync, UInt8.reduceToNat] at this
  omega

theorem read_eq_none (bs : List UInt8) (h1 : getUint8 bs 0 ≠ 1) (h2 : getUint8 bs 0 ≠ 2) :
    read bs = none := by
  simp [read, readFrame_of_type bs h1, readSync_of_type bs h2]

def codec : Codec LogEntry where
  encode := bytes
  decode := read
  encode_pos e := by
    have := e.size_bounds
    exact Nat.lt_of_lt_of_le (by decide) this.1
  decode_encode e bs := by
    cases e with
    | frame e =>
      simp only [bytes, read, readFrame_bytes]
      rw [size, bytes, List.drop_left]
    | sync e =>
      have h : getUint8 (e.toCanLogSyncType.bytes ++ bs) 0 ≠ 1 := by
        simp [CanLogSyncType.bytes, CanLogEntryHeaderType.bytes, e.type_eq, clbEntryTypeSync]
      simp only [bytes, read, readFrame_of_type _ h, readSync_bytes]
      rw [size, bytes, List.drop_left]

def encodeAll (es : List LogEntry) : List UInt8 := codec.encodeAll es

end LogEntry

end CanSniffer.Logging
