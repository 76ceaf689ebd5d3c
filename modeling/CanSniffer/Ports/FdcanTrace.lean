import CanSniffer.Lib.Cells

/-! The trace of the message port's fill level around its peak (`instrumentation.c` with
`COMPONENT_TRACE_FDCANMSGPORT`).  `none` is an access outside `TraceData`; the value that triggers
is a build option. -/

namespace CanSniffer.Ports

open Lib

def traceCountMax : Nat := 4002

def triggerPreCount : Nat := (traceCountMax - 1) / 2

def triggerPostCount : Nat := traceCountMax - triggerPreCount - 1

structure TraceEntry where
  timestamp : UInt32
  value : UInt32
  deriving DecidableEq, Repr

inductive FdcanTraceState
  | rolling
  | postTrigger
  | frozen
  deriving DecidableEq, Repr

structure FdcanTrace where
  traceData : Nat → TraceEntry
  state : FdcanTraceState
  peakValue : UInt32
  preWriteIndex : Nat
  preValidCount : Nat
  writeIndex : Nat
  postCount : Nat
  storedCount : Nat

namespace FdcanTrace

def boot : FdcanTrace where
  traceData := fun _ => ⟨0, 0⟩
  state := .rolling
  peakValue := 0
  preWriteIndex := 0
  preValidCount := 0
  writeIndex := 0
  postCount := 0
  storedCount := 0

def triggerAllowed (trigger value : UInt32) : Bool := trigger ≤ value

def storeRolling (s : FdcanTrace) (entry : TraceEntry) : Option FdcanTrace := do
  let traceData ← Cells.write traceCountMax s.traceData s.preWriteIndex entry
  let next := s.preWriteIndex + 1
  let valid :=
    if s.preValidCount < triggerPreCount then s.preValidCount + 1 else s.preValidCount
  return { s with
    traceData
    preWriteIndex := if triggerPreCount ≤ next then 0 else next
    preValidCount := valid
    storedCount := valid }

def linearizePreTrigger (s : FdcanTrace) : Option FdcanTrace := do
  let start := if s.preValidCount = triggerPreCount then s.preWriteIndex else 0
  let source := fun i =>
    if triggerPreCount ≤ start + i then start + i - triggerPreCount else start + i
  let upper ←
    Cells.copy traceCountMax source (triggerPreCount + 1) s.traceData s.preValidCount
  let traceData ←
    Cells.copy traceCountMax (triggerPreCount + 1 + ·) 0 upper s.preValidCount
  return { s with traceData }

def startPostTrigger (s : FdcanTrace) (entry : TraceEntry) : Option FdcanTrace := do
  let s ← s.linearizePreTrigger
  let traceData ← Cells.write traceCountMax s.traceData s.preValidCount entry
  return { s with
    traceData
    writeIndex := s.preValidCount + 1
    postCount := 0
    storedCount := s.preValidCount + 1
    state := .postTrigger }

def recenterOnNewPeak (s : FdcanTrace) (entry : TraceEntry) : Option FdcanTrace := do
  let keepCount := if triggerPreCount < s.writeIndex then triggerPreCount else s.writeIndex
  let moved ←
    if 0 < keepCount then
      Cells.move traceCountMax 0 (s.writeIndex - keepCount) keepCount s.traceData
    else some s.traceData
  let traceData ← Cells.write traceCountMax moved keepCount entry
  return { s with
    traceData
    writeIndex := keepCount + 1
    postCount := 0
    storedCount := keepCount + 1 }

def storePostTrigger (s : FdcanTrace) (entry : TraceEntry) : Option FdcanTrace :=
  if traceCountMax ≤ s.writeIndex then some { s with state := .frozen }
  else do
    let traceData ← Cells.write traceCountMax s.traceData s.writeIndex entry
    return { s with
      traceData
      writeIndex := s.writeIndex + 1
      postCount := s.postCount + 1
      storedCount := s.writeIndex + 1
      state := if triggerPostCount ≤ s.postCount + 1 then .frozen else s.state }

def traceEntry (trigger : UInt32) (s : FdcanTrace) (entry : TraceEntry) : Option FdcanTrace :=
  match s.state with
  | .rolling =>
    if triggerAllowed trigger entry.value then
      { s with peakValue := entry.value }.startPostTrigger entry
    else s.storeRolling entry
  | .postTrigger =>
    if s.peakValue ≤ entry.value then
      { s with peakValue := entry.value }.recenterOnNewPeak entry
    else s.storePostTrigger entry
  | .frozen => some s

def run (trigger : UInt32) (s : FdcanTrace) (samples : List TraceEntry) : Option FdcanTrace :=
  samples.foldlM (traceEntry trigger) s

end FdcanTrace

end CanSniffer.Ports
