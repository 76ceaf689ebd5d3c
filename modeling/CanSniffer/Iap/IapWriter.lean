/-! Writing a firmware image to its flash slot and reading it back (`IapWriter.c`).  A context is
one that `IapWriter_Init` accepted.  What the flash answers to a call is an argument. -/

namespace CanSniffer.Iap

inductive StorageStatus
  | ok
  | param
  | range
  | align
  | verify
  | io
  deriving DecidableEq, Repr

/-- The bytes of the slot.  Not in the program: `touched` is where a byte was erased or written
since it was last read. -/
structure Slot where
  bytes : Nat → UInt8
  touched : Nat → Bool

/-- A failed erase may have erased part of the range. -/
structure EraseAnswer where
  status : StorageStatus
  erased : Nat → Bool

/-- A failed write may have left something else in part of the range. -/
structure WriteAnswer where
  status : StorageStatus
  left : Nat → Option UInt8

namespace Slot

def erase (s : Slot) (len : Nat) (a : EraseAnswer) : Slot where
  bytes i := if i < len ∧ (a.status = .ok ∨ a.erased i = true) then 0xFF else s.bytes i
  touched i := s.touched i || decide (i < len ∧ (a.status = .ok ∨ a.erased i = true))

def write (s : Slot) (ofs : Nat) (data : List UInt8) (a : WriteAnswer) : Slot where
  bytes i :=
    if ofs ≤ i ∧ i < ofs + data.length then
      if a.status = .ok then data.getD (i - ofs) 0 else (a.left i).getD (s.bytes i)
    else s.bytes i
  touched i :=
    s.touched i ||
      decide (ofs ≤ i ∧ i < ofs + data.length ∧ (a.status = .ok ∨ (a.left i).isSome = true))

def slice (s : Slot) (ofs len : Nat) : List UInt8 := (List.range' ofs len).map s.bytes

def markRead (s : Slot) (ofs len : Nat) : Slot :=
  { s with touched := fun i => s.touched i && !decide (ofs ≤ i ∧ i < ofs + len) }

end Slot

inductive IapWriterStatus
  | ok
  | param
  | state
  | range
  | align
  | sequence
  | storage
  | verify
  deriving DecidableEq, Repr

def mapStorageError : StorageStatus → IapWriterStatus
  | .ok => .ok
  | .align => .align
  | .range => .range
  | .verify => .verify
  | .param => .storage
  | .io => .storage

/-- What `IapWriter_Init` checks, as far as the writer rests on it. -/
structure IapWriterConfig where
  slotSize : Nat
  eraseSize : Nat
  progSize : Nat
  slot_lt : slotSize < 0x100000000
  erase_pos : 0 < eraseSize
  prog_pos : 0 < progSize
  erase_dvd : slotSize % eraseSize = 0

def fnv1aOffsetBasis : UInt32 := 2166136261
def fnv1aPrime : UInt32 := 16777619

def hashBytes (seed : UInt32) (data : List UInt8) : UInt32 :=
  data.foldl (fun hash b => (hash ^^^ b.toUInt32) * fnv1aPrime) seed

theorem hashBytes_append (seed : UInt32) (xs ys : List UInt8) :
    hashBytes seed (xs ++ ys) = hashBytes (hashBytes seed xs) ys :=
  List.foldl_append

def uint32Max : Nat := 0xFFFFFFFF

def roundUp (value alignment : Nat) : Option Nat :=
  if alignment = 0 then none
  else if value % alignment = 0 then some value
  else if uint32Max - (alignment - value % alignment) < value then none
  else some (value + (alignment - value % alignment))

/-- `IapWriterContextType`, with the slot its storage operations reach.  Not in the program:
`payload` is what was written since the image was begun. -/
structure IapWriter where
  config : IapWriterConfig
  slot : Slot
  expectedSize : Nat
  receivedSize : Nat
  payloadHash : UInt32
  verifyHash : UInt32
  verifyOffset : Nat
  active : Bool
  finalized : Bool
  verifyActive : Bool
  slotPrepared : Bool
  payload : List UInt8

namespace IapWriter

def init (config : IapWriterConfig) (slot : Slot) : IapWriter where
  config := config
  slot := slot
  expectedSize := 0
  receivedSize := 0
  payloadHash := 0
  verifyHash := 0
  verifyOffset := 0
  active := false
  finalized := false
  verifyActive := false
  slotPrepared := false
  payload := []

def eraseSlot (w : IapWriter) (len : Nat) (a : EraseAnswer) : IapWriter :=
  { w with slot := w.slot.erase len a }

def started (w : IapWriter) (imageSize : Nat) : IapWriter :=
  { w with
    expectedSize := imageSize
    receivedSize := 0
    payloadHash := fnv1aOffsetBasis
    verifyHash := fnv1aOffsetBasis
    verifyOffset := 0
    active := true
    finalized := false
    verifyActive := false
    slotPrepared := false
    payload := [] }

def begin (w : IapWriter) (imageSize : Nat) (a : EraseAnswer) : IapWriter × IapWriterStatus :=
  if w.active then (w, .state)
  else if imageSize = 0 ∨ w.config.slotSize < imageSize then (w, .range)
  else if imageSize % w.config.progSize ≠ 0 then (w, .align)
  else
    match roundUp imageSize w.config.eraseSize with
    | none => (w, .range)
    | some eraseLen =>
      if w.config.slotSize < eraseLen then (w, .range)
      else if w.slotPrepared then (w.started imageSize, .ok)
      else if a.status ≠ .ok then (w.eraseSlot eraseLen a, mapStorageError a.status)
      else ((w.eraseSlot eraseLen a).started imageSize, .ok)

def writeChunk (w : IapWriter) (offset : Nat) (data : List UInt8) (a : WriteAnswer) :
    IapWriter × IapWriterStatus :=
  if data = [] then (w, .param)
  else if w.active = false ∨ w.finalized then (w, .state)
  else if offset ≠ w.receivedSize then (w, .sequence)
  else if offset % w.config.progSize ≠ 0 ∨ data.length % w.config.progSize ≠ 0 then (w, .align)
  else if w.expectedSize < offset + data.length then (w, .range)
  else
    let w := { w with slot := w.slot.write offset data a }
    if a.status ≠ .ok then (w, mapStorageError a.status)
    else
      ({ w with
        payloadHash := hashBytes w.payloadHash data
        receivedSize := w.receivedSize + data.length
        payload := w.payload ++ data }, .ok)

def finalize (w : IapWriter) : IapWriter × IapWriterStatus :=
  if w.active = false ∨ w.finalized then (w, .state)
  else if w.receivedSize ≠ w.expectedSize then (w, .state)
  else
    ({ w with
      verifyHash := fnv1aOffsetBasis
      verifyOffset := 0
      verifyActive := false
      active := false
      finalized := true }, .ok)

def verifyBufSize : Nat := 256

def verifyStart (w : IapWriter) : IapWriter :=
  if w.verifyActive then w
  else { w with verifyHash := fnv1aOffsetBasis, verifyOffset := 0, verifyActive := true }

def verifyRead (w : IapWriter) (len : Nat) : IapWriter :=
  { w with
    slot := w.slot.markRead w.verifyOffset len
    verifyHash := hashBytes w.verifyHash (w.slot.slice w.verifyOffset len)
    verifyOffset := w.verifyOffset + len }

def verifyEnd (w : IapWriter) : IapWriter × IapWriterStatus :=
  if w.verifyHash ≠ w.payloadHash then (w, .verify) else ({ w with verifyActive := false }, .ok)

/-- `a` is the answer to the read; the last part of the result is whether the image was read to
its end. -/
def verifyStep (w : IapWriter) (maxStepBytes : Nat) (a : StorageStatus) :
    IapWriter × IapWriterStatus × Bool :=
  if maxStepBytes = 0 then (w, .param, false)
  else if w.active ∨ w.finalized = false then (w, .state, false)
  else
    let w := w.verifyStart
    if w.expectedSize < w.verifyOffset then (w, .state, false)
    else if w.verifyOffset = w.expectedSize then (w.verifyEnd.1, w.verifyEnd.2, true)
    else if a ≠ .ok then (w, mapStorageError a, false)
    else
      let w := w.verifyRead (min (min maxStepBytes verifyBufSize) (w.expectedSize - w.verifyOffset))
      if w.verifyOffset = w.expectedSize then (w.verifyEnd.1, w.verifyEnd.2, true)
      else (w, .ok, false)

def abort (w : IapWriter) : IapWriter × IapWriterStatus :=
  ({ w with
    active := false
    finalized := false
    expectedSize := 0
    receivedSize := 0
    payloadHash := 0
    verifyHash := 0
    verifyOffset := 0
    verifyActive := false
    slotPrepared := false
    payload := [] }, .ok)

end IapWriter

end CanSniffer.Iap
