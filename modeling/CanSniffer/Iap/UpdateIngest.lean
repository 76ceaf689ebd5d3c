import CanSniffer.Iap.IapWriter

namespace CanSniffer.Iap

inductive IngestStatus
  | ok
  | param
  | state
  | unavailable
  | sequence
  | range
  | align
  | backend
  deriving DecidableEq, Repr

def mapWriterStatus : IapWriterStatus → IngestStatus
  | .ok => .ok
  | .param => .param
  | .state => .state
  | .sequence => .sequence
  | .range => .range
  | .align => .align
  | .storage => .backend
  | .verify => .backend

def ingestAdapterAlignMax : Nat := 64

/-- `pending` is the part of the buffer that is in use. -/
structure IngestAdapter where
  writer : IapWriter
  pending : List UInt8

structure ChunkAnswers where
  first : WriteAnswer
  main : WriteAnswer

/-- The buffer filled from the chunk: its content, how much of it the chunk gave at most, what is
left of the chunk, and where the buffer goes. -/
structure Refill where
  pending : List UInt8
  freeLen : Nat
  updatedLen : Nat
  updatedOffset : Nat

namespace IngestAdapter

def init (writer : IapWriter) : IngestAdapter where
  writer := writer
  pending := []

def begin (x : IngestAdapter) (imageSize : Nat) (a : EraseAnswer) : IngestAdapter × IngestStatus :=
  let r := x.writer.begin imageSize a
  ({ writer := r.1, pending := [] }, mapWriterStatus r.2)

def checkOffsetSequence (x : IngestAdapter) (offset : Nat) : IngestStatus :=
  if offset ≠ x.writer.receivedSize + x.pending.length then .sequence else .ok

def refill (x : IngestAdapter) (offset : Nat) (data : List UInt8) (progSize : Nat) : Refill :=
  if 0 < x.pending.length then
    let freeLen := progSize - x.pending.length
    if freeLen ≤ data.length then
      { pending := x.pending ++ data.take freeLen
        freeLen
        updatedLen := data.length - freeLen
        updatedOffset := offset - x.pending.length }
    else
      { pending := x.pending ++ data
        freeLen
        updatedLen := 0
        updatedOffset := offset - x.pending.length }
  else { pending := [], freeLen := 0, updatedLen := data.length, updatedOffset := 0 }

def writePending (x : IngestAdapter) (offset progSize : Nat) (a : WriteAnswer) :
    IngestAdapter × IngestStatus :=
  if x.pending.length = progSize then
    let r := x.writer.writeChunk offset x.pending a
    ({ writer := r.1, pending := [] }, mapWriterStatus r.2)
  else (x, .ok)

def keepRemainder (x : IngestAdapter) (rest : List UInt8) : IngestAdapter :=
  if x.pending = [] then { x with pending := rest } else x

def alignedLen (updatedLen progSize : Nat) : Nat :=
  if progSize ≤ updatedLen then updatedLen - updatedLen % progSize else 0

def writeChunk (x : IngestAdapter) (offset : Nat) (data : List UInt8) (a : ChunkAnswers) :
    IngestAdapter × IngestStatus :=
  let progSize := x.writer.config.progSize
  if data = [] then (x, .param)
  else if ingestAdapterAlignMax < progSize then (x, .backend)
  else if x.checkOffsetSequence offset ≠ .ok then (x, x.checkOffsetSequence offset)
  else if progSize < x.pending.length then (x, .state)
  else
    let f := x.refill offset data progSize
    let r := writePending { x with pending := f.pending } f.updatedOffset progSize a.first
    if r.2 ≠ .ok then r
    else
      let len := alignedLen f.updatedLen progSize
      let x := r.1.keepRemainder ((data.drop (f.freeLen + len)).take (f.updatedLen - len))
      if len = 0 then (x, .ok)
      else
        let w := x.writer.writeChunk (offset + f.freeLen) ((data.drop f.freeLen).take len) a.main
        ({ x with writer := w.1 }, mapWriterStatus w.2)

def finalize (x : IngestAdapter) : IngestAdapter × IngestStatus :=
  if x.pending ≠ [] then (x, .align)
  else
    let r := x.writer.finalize
    ({ x with writer := r.1 }, mapWriterStatus r.2)

def abort (x : IngestAdapter) : IngestAdapter × IngestStatus :=
  let r := x.writer.abort
  ({ writer := r.1, pending := [] }, mapWriterStatus r.2)

end IngestAdapter

/-- `UpdateIngestPipelineContextType`; its binding is the adapter. -/
structure PipelineContext where
  expectedSize : Nat
  receivedSize : Nat
  active : Bool
  deriving DecidableEq, Repr

namespace PipelineContext

def reset : PipelineContext where
  expectedSize := 0
  receivedSize := 0
  active := false

/-- `registered` is whether the registry has a binding. -/
def begin (x : IngestAdapter) (registered : Bool) (c : PipelineContext) (contentSize : Nat)
    (a : EraseAnswer) : IngestAdapter × PipelineContext × IngestStatus :=
  if contentSize = 0 then (x, c, .param)
  else if registered = false then (x, reset, .unavailable)
  else
    let r := x.begin contentSize a
    if r.2 ≠ .ok then (r.1, reset, r.2)
    else (r.1, { expectedSize := contentSize, receivedSize := 0, active := true }, .ok)

def push (x : IngestAdapter) (c : PipelineContext) (data : List UInt8) (a : ChunkAnswers) :
    IngestAdapter × PipelineContext × IngestStatus :=
  if c.active = false ∨ data = [] then (x, c, .param)
  else if c.expectedSize < c.receivedSize ∨ c.expectedSize - c.receivedSize < data.length then
    (x, c, .range)
  else
    let r := x.writeChunk c.receivedSize data a
    if r.2 ≠ .ok then (r.1, c, r.2)
    else (r.1, { c with receivedSize := c.receivedSize + data.length }, .ok)

def finish (x : IngestAdapter) (c : PipelineContext) :
    IngestAdapter × PipelineContext × IngestStatus :=
  if c.active = false then (x, c, .state)
  else if c.receivedSize ≠ c.expectedSize then (x.abort.1, reset, .state)
  else (x.finalize.1, reset, x.finalize.2)

def abort (x : IngestAdapter) (c : PipelineContext) :
    IngestAdapter × PipelineContext × IngestStatus :=
  if c.active = false then (x, c, .state) else (x.abort.1, reset, x.abort.2)

end PipelineContext

end CanSniffer.Iap
