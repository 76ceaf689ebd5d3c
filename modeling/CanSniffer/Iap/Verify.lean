import CanSniffer.Iap.UpdateIngest
import CanSniffer.Lib.Transition

namespace CanSniffer.Iap

open Lib

inductive IapVerifyState
  | idle
  | pending
  | verifying
  | verified
  | error
  deriving DecidableEq, Repr

inductive IapPrepareStatus
  | ok
  | param
  | state
  | backend
  deriving DecidableEq, Repr

structure IapVerifyRuntime where
  state : IapVerifyState
  processed : Nat
  total : Nat
  deriving DecidableEq, Repr

def iapVerifyStepBytes : Nat := 1024

/-- A pipeline context for every upload.  Not in the program: `uploaded` is the image of the upload
that was finalized last. -/
structure IapState where
  adapter : IngestAdapter
  registered : Bool
  verify : IapVerifyRuntime
  pipelines : Nat → PipelineContext
  uploaded : Option (List UInt8)

inductive IapEvent
  | prepareUploadSlot (a : EraseAnswer)
  | begin (c contentSize : Nat) (a : EraseAnswer)
  | push (c : Nat) (data : List UInt8) (a : ChunkAnswers)
  | finish (c : Nat)
  | abort (c : Nat)
  | verifyRequest
  | verifyPoll (a : StorageStatus)
  | verifyReset

namespace IapState

abbrev writer (s : IapState) : IapWriter := s.adapter.writer

def setWriter (s : IapState) (writer : IapWriter) : IapState := { s with adapter.writer := writer }

def verifyReset (s : IapState) : IapState := { s with verify := { state := .idle, processed := 0, total := 0 } }

def verifyRequest (s : IapState) : IapState :=
  if s.writer.finalized = false then
    { s with verify := { state := .error, processed := 0, total := s.writer.expectedSize } }
  else { s with verify := { state := .pending, processed := 0, total := s.writer.expectedSize } }

def verifyPollStep (s : IapState) (a : StorageStatus) : IapState :=
  let r := s.writer.verifyStep iapVerifyStepBytes a
  let s := s.setWriter r.1
  if r.2.1 ≠ .ok then { s with verify.state := .error }
  else
    { s with
      verify := {
        state := if r.2.2 then .verified else .verifying
        processed := r.1.verifyOffset
        total := r.1.expectedSize } }

def verifyPoll (s : IapState) (a : StorageStatus) : IapState :=
  match s.verify.state with
  | .pending =>
    if s.writer.finalized = false then { s with verify.state := .error } else s.verifyPollStep a
  | .verifying => s.verifyPollStep a
  | _ => s

def isVerified (s : IapState) : Bool := decide (s.verify.state = .verified)

def prepareUploadSlot (s : IapState) (a : EraseAnswer) : IapState × IapPrepareStatus :=
  if s.writer.active then (s, .state)
  else
    let w := s.writer.eraseSlot s.writer.config.slotSize a
    if a.status ≠ .ok then (s.setWriter w, .backend)
    else ((s.setWriter { w with slotPrepared := true }).verifyReset, .ok)

def setPipeline (s : IapState) (c : Nat) (p : PipelineContext) : IapState :=
  { s with pipelines := fun i => if i = c then p else s.pipelines i }

def beginStatus (s : IapState) (contentSize : Nat) (a : EraseAnswer) : IngestStatus :=
  (PipelineContext.begin s.adapter s.registered .reset contentSize a).2.2

def pushStatus (s : IapState) (c : Nat) (data : List UInt8) (a : ChunkAnswers) : IngestStatus :=
  (PipelineContext.push s.adapter (s.pipelines c) data a).2.2

def finishStatus (s : IapState) (c : Nat) : IngestStatus :=
  (PipelineContext.finish s.adapter (s.pipelines c)).2.2

def postBegin (s : IapState) (c contentSize : Nat) (a : EraseAnswer) : IapState :=
  let r := PipelineContext.begin s.adapter s.registered .reset contentSize a
  { s.verifyReset with adapter := r.1 }.setPipeline c r.2.1

def push (s : IapState) (c : Nat) (data : List UInt8) (a : ChunkAnswers) : IapState :=
  let r := PipelineContext.push s.adapter (s.pipelines c) data a
  { s with adapter := r.1 }.setPipeline c r.2.1

def postFinish (s : IapState) (c : Nat) : IapState :=
  let r := PipelineContext.finish s.adapter (s.pipelines c)
  let t := { s with adapter := r.1 }.setPipeline c r.2.1
  if r.2.2 = .ok then { t with uploaded := some r.1.writer.payload }.verifyRequest else t

def abort (s : IapState) (c : Nat) : IapState :=
  let r := PipelineContext.abort s.adapter (s.pipelines c)
  { s with adapter := r.1 }.setPipeline c r.2.1

def start (config : IapWriterConfig) (slot : Slot) : IapState where
  adapter := .init (.init config slot)
  registered := true
  verify := { state := .idle, processed := 0, total := 0 }
  pipelines := fun _ => .reset
  uploaded := none

def step : Step IapState IapEvent
  | s, .prepareUploadSlot a => some (s.prepareUploadSlot a).1
  | s, .begin c contentSize a => some (s.postBegin c contentSize a)
  | s, .push c data a => some (s.push c data a)
  | s, .finish c => some (s.postFinish c)
  | s, .abort c => some (s.abort c)
  | s, .verifyRequest => some s.verifyRequest
  | s, .verifyPoll a => some (s.verifyPoll a)
  | s, .verifyReset => some s.verifyReset

end IapState

end CanSniffer.Iap
