import CanSniffer.Logging.CanLogSession
import CanSniffer.Logging.FillEntry
import CanSniffer.Logging.RuntimeChecks
import CanSniffer.Ports.FdcanMsgPort

/-! The tracer (`appCanLogHandlerPoll` in `CanLogManager.c`) and the tasks around it.
A poll is cut where another task may come in between. -/

universe u

namespace CanSniffer.Logging

open Lib Drivers Ports

def canlogIngestBatchMax : Nat := 256
def clmSyncEmitIntervalUs : UInt64 := 30 * 60 * 1000000

def absTimeToTimestamp (x : UInt64) : UInt32 := x.toUInt32
def absTimeToAbsHigh (x : UInt64) : UInt32 := (x >>> 32).toUInt32

/-- A received frame with the time it arrived, of which it carries the low half. -/
structure TimedFrame where
  frame : ClassicFrame
  arrival : Nat
  timestamp_eq : frame.timestamp = UInt32.ofNat arrival
  fits : frame.Fits

/-- What an accepted entry is about: a sync was written at `absTime` with the low half of
`source`, a frame arrived at `arrival`. -/
inductive Logged
  | sync (absTime source : Nat)
  | frame (arrival : Nat)
  deriving DecidableEq, Repr

/-- Where `appCanLogHandlerPoll` stands. -/
inductive PollPoint
  | idle
  | flush
  | prepare
  | drain (localFrameCount : Nat)
  | store (localFrameCount : Nat) (newFrame : TimedFrame)
  | account
  | idleSync
  | commit
  | check

structure ChannelSequence where
  sequence : ScSequenceType
  sequenceIndex : UInt32

/-- `CanLogCtrlData`, the static variables of the poll and its local `AbsTime`, the counters, and
what the poll works on.  `logged`, `lastFrameArrival`, `lost`, `syncRefused` and `farApart` are
not in the program: they record what the entries were about, and what went wrong since the start. -/
structure CanLogManager (ρ : Type u) where
  runCanTracer : Bool
  runCanTracerOld : Bool
  emitSyncEntry : Bool
  commitLog : Bool
  framesLost : Bool
  nextPeriodicSyncAbsTime : UInt64
  lastFrameTimestamp : UInt32
  lastFrameTimestampValid : Bool
  absTime : UInt64
  can1 : ChannelSequence
  can2 : ChannelSequence
  checks : RuntimeChecks
  port : FdcanMsgPort TimedFrame canFrameBufferElementsCount
  log : Session ρ
  point : PollPoint
  logged : List Logged
  lastFrameArrival : Nat
  lost : Bool
  syncRefused : Bool
  farApart : Bool

inductive SdCall
  | readNextBlock
  | consume

def SdCall.call : SdCall → BufferCall
  | .readNextBlock => .readNextBlock
  | .consume => .consume

/-- `poll` starts `appCanLogHandlerPoll`; the events after it are its parts.  Their arguments are
what the clock, the drivers and memory answer. -/
inductive TracerEvent
  | setTracer (run : Bool)
  | bridge (frame : TimedFrame)
  | canAbsDrop
  | overrun (channel : Channel)
  | sd (call : SdCall)
  | poll (absTime : UInt64) (started : Bool)
  | flush
  | prepare (absTime : UInt64)
  | fetch (absTime : UInt64)
  | store (beyond : Vector UInt8 56) (opened : Bool)
  | account
  | idleSync
  | commit
  | check

namespace ChannelSequence

def init : ChannelSequence where
  sequence := .init 0 ScSequenceType.uint32Max
  sequenceIndex := 0

/-- What the drain loop does with the sequence number of a frame. -/
def checkSequence (c : ChannelSequence) (rxSequence : UInt32) : ChannelSequence where
  sequence := (c.sequence.checkSequence rxSequence).1
  sequenceIndex := rxSequence

def account (c : ChannelSequence) : ChannelSequence × Nat :=
  match c.sequence.getMissingCount with
  | .ok missing => ({ c with sequence := (c.sequence.reset c.sequenceIndex).1 }, missing.toNat)
  | .error _ => (c, 0)

end ChannelSequence

namespace CanLogManager

variable {ρ : Type u} [Lwrb ρ]

/-- After `appCanLogHandlerInit`, in boot number `epoch`; `zero` is a cleared frame. -/
def start (zero : TimedFrame) (epoch : UInt8) : CanLogManager ρ where
  runCanTracer := false
  runCanTracerOld := false
  emitSyncEntry := false
  commitLog := false
  framesLost := false
  nextPeriodicSyncAbsTime := 0
  lastFrameTimestamp := 0
  lastFrameTimestampValid := false
  absTime := 0
  can1 := .init
  can2 := .init
  checks := .init
  port := (FdcanMsgPort.boot zero).init
  log := .start (CanLogBuffer.boot.setEpochCount epoch)
  point := .idle
  logged := []
  lastFrameArrival := 0
  lost := false
  syncRefused := false
  farApart := false

def bridge (s : CanLogManager ρ) (frame : TimedFrame) : CanLogManager ρ :=
  let port := s.port.receive frame
  { s with
    port
    checks := { s.checks with
      canBridgeTaskFrameCount := s.checks.canBridgeTaskFrameCount + 1 }
    lost := s.lost || decide (s.port.frameDropCount < port.frameDropCount) }

def canAbsDrop (s : CanLogManager ρ) : CanLogManager ρ :=
  { s with
    checks := { s.checks with canAbsFrameDropCount := s.checks.canAbsFrameDropCount + 1 }
    lost := true }

def overrun (s : CanLogManager ρ) : Channel → CanLogManager ρ
  | .can1 => { s with
    checks := { s.checks with
      canAbsCan1RxFrameDropCount := s.checks.canAbsCan1RxFrameDropCount + 1 }
    lost := true }
  | .can2 => { s with
    checks := { s.checks with
      canAbsCan2RxFrameDropCount := s.checks.canAbsCan2RxFrameDropCount + 1 }
    lost := true }

variable [LawfulLwrb ρ]

def offer (log : Session ρ) (entry : LogEntry) : Session ρ × ClbReturnType :=
  let r := log.buf.addEntry entry.bytes entry.size
  let accepted := if r.2 = .ok then log.accepted ++ [entry] else log.accepted
  ({ log with buf := r.1, accepted }, r.2)

def storeToFrameBuffer (s : CanLogManager ρ) (entry : LogEntry) (what : Logged) :
    CanLogManager ρ × CommStatus :=
  let (log, bufferRes) := offer s.log entry
  if bufferRes ≠ .ok then
    let c := s.checks
    let c := { c with canLogManagerFrameDropCount1 := c.canLogManagerFrameDropCount1 + 1 }
    let c := if bufferRes = .bufferFull then
        { c with canLogManagerFrameDropCount2 := c.canLogManagerFrameDropCount2 + 1 }
      else c
    ({ s with log, checks := c }, .error)
  else ({ s with log, logged := s.logged ++ [what] }, .success)

/-- `CanLogManager_EmitSyncEntry`, with the time whose low half is `frameTimestamp`. -/
def emitSync (s : CanLogManager ρ) (absTime : UInt64) (frameTimestamp : UInt32) (source : Nat) :
    CanLogManager ρ :=
  let sync := SyncEntry.ofFields 3 frameTimestamp (absTimeToAbsHigh absTime)
  let (s, res) := s.storeToFrameBuffer (.sync sync) (.sync absTime.toNat source)
  if res = .success then s else { s with syncRefused := true }

/-- The test made before the drain loop and for each frame in it. -/
def scheduleSync (s : CanLogManager ρ) (absTime : UInt64) : CanLogManager ρ :=
  let s := { s with absTime }
  if s.nextPeriodicSyncAbsTime ≠ 0 ∧ s.nextPeriodicSyncAbsTime ≤ absTime then
    { s with
      emitSyncEntry := true
      nextPeriodicSyncAbsTime := absTime + clmSyncEmitIntervalUs }
  else s

/-- The branches on a changed `runCanTracer`; `started` is whether the controllers did start. -/
def poll (s : CanLogManager ρ) (absTime : UInt64) (started : Bool) : CanLogManager ρ :=
  if s.runCanTracerOld = s.runCanTracer then { s with point := .prepare }
  else if s.runCanTracer then
    let buf := { s.log.buf with frameCount1 := 0, frameCount2 := 0, frameDropCount := 0 }
    { s with
      emitSyncEntry := true
      absTime
      nextPeriodicSyncAbsTime := absTime + clmSyncEmitIntervalUs
      lastFrameTimestampValid := false
      framesLost := false
      checks := .init
      log := { s.log with buf }
      port := { s.port with frameDropCount := 0 }
      runCanTracer := started
      runCanTracerOld := started
      point := .prepare
      lost := false
      syncRefused := false
      farApart := false }
  else { s with runCanTracerOld := s.runCanTracer, commitLog := true, point := .flush }

/-- From the head of the drain loop to the sync entry before a frame. -/
def fetch (s : CanLogManager ρ) (n : Nat) (absTime : UInt64) : CanLogManager ρ :=
  if n < canlogIngestBatchMax ∨ s.runCanTracer = false then
    let r := s.port.read
    let s := { s with port := r.1 }
    match r.2.received, r.2.dst with
    | true, some newFrame =>
      let s := { s with checks := { s.checks with
        canLogManagerFrameCount := s.checks.canLogManagerFrameCount + 1 } }
      let s := s.scheduleSync absTime
      let s := if s.emitSyncEntry then
          { s with emitSyncEntry := false }.emitSync absTime newFrame.frame.timestamp
            newFrame.arrival
        else s
      { s with point := .store (n + 1) newFrame }
    | _, _ => { s with point := .account }
  else { s with point := .account }

/-- From the sequence check of a frame to the end of its round. -/
def store (s : CanLogManager ρ) (n : Nat) (newFrame : TimedFrame) (beyond : Vector UInt8 56)
    (opened : Bool) : CanLogManager ρ :=
  let frame := newFrame.frame
  let entry := appCanLogFillEntry frame newFrame.fits beyond frame.timestamp frame.channel
  let s :=
    if entry.channel = 1 then { s with can1 := s.can1.checkSequence frame.rxSequence }
    else if entry.channel = 2 then { s with can2 := s.can2.checkSequence frame.rxSequence }
    else s
  let (s, res) := s.storeToFrameBuffer (.frame entry) (.frame newFrame.arrival)
  if res ≠ .success then { s with runCanTracer := false, lost := true, point := .account }
  else
    let s := { s with
      lastFrameTimestamp := frame.timestamp
      lastFrameArrival := newFrame.arrival
      lastFrameTimestampValid := true }
    if opened then { s with point := .drain n }
    else { s with runCanTracer := false, point := .account }

def account (s : CanLogManager ρ) : CanLogManager ρ :=
  let (can1, missing1) := s.can1.account
  let (can2, missing2) := s.can2.account
  { s with
    can1
    can2
    checks := { s.checks with
      canLogManagerCan1MissingCount := s.checks.canLogManagerCan1MissingCount + missing1
      canLogManagerCan2MissingCount := s.checks.canLogManagerCan2MissingCount + missing2 }
    lost := s.lost || decide (missing1 ≠ 0 ∨ missing2 ≠ 0)
    point := .idleSync }

def idleSync (s : CanLogManager ρ) : CanLogManager ρ :=
  let s := if s.emitSyncEntry then
      let (timestamp32, source) :=
        if s.lastFrameTimestampValid then (s.lastFrameTimestamp, s.lastFrameArrival)
        else (absTimeToTimestamp s.absTime, s.absTime.toNat)
      { s with emitSyncEntry := false }.emitSync s.absTime timestamp32 source
    else s
  { s with point := .commit }

def commit (s : CanLogManager ρ) : CanLogManager ρ :=
  if s.commitLog then
    let buf := if 0 < s.log.buf.usedSlots then s.log.buf.fillBlockWithPadding.1 else s.log.buf
    { s with log := { s.log with buf }, commitLog := false, point := .check }
  else { s with point := .check }

def check (s : CanLogManager ρ) : CanLogManager ρ :=
  let err := s.checks.checkDropCounts s.port.frameDropCount s.log.buf.frameDropCount
  { s with
    framesLost := if err = .framesDropped then true else s.framesLost
    farApart := s.farApart || decide (1024 < s.checks.frameDelta1)
    point := .idle }

/-- The other tasks run at any point, also the one that sets `runCanTracer`. -/
def step : Step (CanLogManager ρ) TracerEvent
  | s, .setTracer runCanTracer => some { s with runCanTracer }
  | s, .bridge frame => some (s.bridge frame)
  | s, .canAbsDrop => some s.canAbsDrop
  | s, .overrun channel => some (s.overrun channel)
  | s, .sd call => (Session.step s.log call.call).map fun log => { s with log }
  | s, .poll absTime started =>
    match s.point with
    | .idle => some (s.poll absTime started)
    | _ => none
  | s, .flush =>
    match s.point with
    | .flush => s.port.flush.map fun port => { s with port, point := .prepare }
    | _ => none
  | s, .prepare absTime =>
    match s.point with
    | .prepare => some { s.scheduleSync absTime with point := .drain 0 }
    | _ => none
  | s, .fetch absTime =>
    match s.point with
    | .drain n => some (s.fetch n absTime)
    | _ => none
  | s, .store beyond opened =>
    match s.point with
    | .store n newFrame => some (s.store n newFrame beyond opened)
    | _ => none
  | s, .account =>
    match s.point with
    | .account => some s.account
    | _ => none
  | s, .idleSync =>
    match s.point with
    | .idleSync => some s.idleSync
    | _ => none
  | s, .commit =>
    match s.point with
    | .commit => some s.commit
    | _ => none
  | s, .check =>
    match s.point with
    | .check => some s.check
    | _ => none

end CanLogManager

end CanSniffer.Logging
