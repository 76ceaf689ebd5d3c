import CanSniffer.Drivers.Fdcan
import CanSniffer.Lib.Mailbox
import CanSniffer.Lib.Transition

namespace CanSniffer.Drivers

open Lib

def fdcanRamRxElements : Nat := 64
def swRxFrameBufferSize : Nat := 10 * fdcanRamRxElements
def fdcanIrqRxWatermark : Nat := 54
def rxIsrMaxFramesPerChannel : Nat := fdcanIrqRxWatermark

def getTimerPeriod (arr : UInt16) : UInt64 := (arr.toUInt64 + 1) * 1

def convertCountToTimestamp (cnt : UInt32) : UInt64 := 1 * cnt.toUInt64

def reconstructFullTimestamp (period hardwareTimestamp globalTimestamp lastTimestamp : UInt64) :
    UInt64 × UInt64 :=
  if period = 0 then (hardwareTimestamp, lastTimestamp)
  else
    let currentTimerValue := globalTimestamp % period
    let epochCount := globalTimestamp / period
    let timeDiff := hardwareTimestamp.toInt64 - currentTimerValue.toInt64
    let epochCount :=
      if (period / 2).toInt64 < timeDiff then epochCount - 1
      else if timeDiff < -(period / 2).toInt64 then epochCount + 1
      else epochCount
    let reconstructed := epochCount * period + hardwareTimestamp
    let reconstructed :=
      if lastTimestamp ≠ 0 ∧ lastTimestamp ≤ globalTimestamp ∧
          globalTimestamp - lastTimestamp ≤ 2 * period then
        if reconstructed + period / 2 < lastTimestamp then
          let delta := lastTimestamp - (reconstructed + period / 2)
          reconstructed + (delta + period - 1) / period * period
        else reconstructed
      else reconstructed
    (reconstructed, reconstructed)

/-- The enabled interrupt causes, `FDCAN_IRQ_NOTIFICATION`. -/
structure RxFifo0ITs where
  watermark : Bool
  messageLost : Bool

def RxFifo0ITs.notified (its : RxFifo0ITs) : Bool := its.watermark || its.messageLost

/-- A controller with what `fdcan.c` and `CanAbs.c` keep for it.  With each frame in the FIFO
stands the time it arrived, which only the hardware knows.  Not in the program: `interrupt` is the
true time of its last interrupt, `betweenUpdates` is whether the timer's interrupt had then cleared
the update flag and not yet added the period. -/
structure CanDriver where
  rxFifo0 : Mailbox (RxMessage × Nat) fdcanRamRxElements
  messageLost : Bool
  irqPending : Bool
  mostRecentInterruptTimestamp : UInt64
  interrupt : Nat
  betweenUpdates : Bool
  lastHardwareTimestamp : UInt64
  sequenceIndex : UInt32
  rxRingBuffer : Mailbox ClassicFrame swRxFrameBufferSize
  rxFrameDropCount : Nat

/-- What `NewFrame` holds before a read, and what the HAL answers in it. -/
structure HalRead where
  newFrame : ClassicFrame
  received : Bool
  activated : Bool

inductive ReadOutcome
  | stored : ClassicFrame → ReadOutcome
  | refused : ClassicFrame → ReadOutcome
  | failed

namespace CanDriver

def boot : CanDriver where
  rxFifo0 := .empty
  messageLost := false
  irqPending := false
  mostRecentInterruptTimestamp := 0
  interrupt := 0
  betweenUpdates := false
  lastHardwareTimestamp := 0
  sequenceIndex := 0
  rxRingBuffer := .empty
  rxFrameDropCount := 0

def getRxMessage (d : CanDriver) (received : Bool) : CanDriver × Option RxMessage :=
  if received then
    match d.rxFifo0.receive with
    | some (m, rxFifo0) => ({ d with rxFifo0 }, some m.1)
    | none => (d, none)
  else (d, none)

/-- The driver's `read`: without an Rx interrupt flag it succeeds and does nothing. -/
def read (d : CanDriver) (its : RxFifo0ITs) (hal : HalRead) : CanDriver × FdcanReadResult :=
  if its.notified then
    let (d, rx) := d.getRxMessage hal.received
    (d, fdcanRead hal.newFrame true rx hal.activated)
  else (d, fdcanRead hal.newFrame false none hal.activated)

def readFrame (d : CanDriver) (channel : Channel) (period : UInt64) (its : RxFifo0ITs)
    (hal : HalRead) : CanDriver × ReadOutcome :=
  let (d, r) := d.read its hal
  if r.status = .success then
    let (timestamp, lastHardwareTimestamp) :=
      reconstructFullTimestamp period (convertCountToTimestamp r.frame.timestamp)
        d.mostRecentInterruptTimestamp d.lastHardwareTimestamp
    let sequenceIndex := d.sequenceIndex + 1
    let frame : ClassicFrame := { r.frame with
      channel := channel.number
      timestamp := timestamp.toUInt32
      rxSequence := sequenceIndex }
    let d := { d with lastHardwareTimestamp, sequenceIndex }
    match d.rxRingBuffer.send frame with
    | some rxRingBuffer => ({ d with rxRingBuffer }, .stored frame)
    | none => (d, .refused frame)
  else (d, .failed)

def countLost (d : CanDriver) (its : RxFifo0ITs) : CanDriver :=
  if its.messageLost || d.messageLost then
    { d with messageLost := false, rxFrameDropCount := d.rxFrameDropCount + 1 }
  else d

def arrive (d : CanDriver) (period : UInt64) (now : Nat) (m : RxMessage) : CanDriver :=
  let m := { m with header.rxTimestamp := UInt32.ofNat (now % period.toNat) }
  match d.rxFifo0.send (m, now) with
  | some rxFifo0 =>
    { d with
      rxFifo0
      irqPending := d.irqPending || decide (rxFifo0.items.length = fdcanIrqRxWatermark) }
  | none => { d with messageLost := true, irqPending := true }

end CanDriver

/-- Where `HAL_FDCAN_RxFifo0Callback` stands in its two calls. -/
structure Isr where
  channel : Channel
  its : RxFifo0ITs
  framesProcessed : Nat

/-- A frame in the software ring, with its arrival and the interrupt it was computed from. -/
structure StoredFrame where
  frame : ClassicFrame
  arrival : Nat
  interrupt : Nat
  betweenUpdates : Bool

/-- Where the timer's interrupt stands, with what `CANABS_CheckIsrPollPeriod` has found out. -/
inductive TimerPoint
  | idle
  | flagCleared
  | periodAdded
  | periodReached
  | framesAvailable (any : Bool)
  deriving DecidableEq, Repr

/-- Both controllers and the clock: `now` is the true time, `time` and `updateFlag` are what the
program can see of it. -/
structure CanAbs where
  now : Nat
  time : UInt64
  updateFlag : Bool
  timer : TimerPoint
  can1 : CanDriver
  can2 : CanDriver
  isr : Option Isr
  frameCount : Nat
  frameDropCount : Nat
  stored : List StoredFrame

inductive CanEvent
  | wait : Nat → CanEvent
  | arrive : Channel → RxMessage → CanEvent
  | clearFlag
  | addPeriod
  | checkPeriod
  | checkFrames
  | setPending
  | interrupt : Channel → Option RxFifo0ITs → CanEvent
  | read : HalRead → CanEvent
  | leave
  | receive : Channel → CanEvent

namespace CanAbs

def boot : CanAbs where
  now := 0
  time := 0
  updateFlag := false
  timer := .idle
  can1 := .boot
  can2 := .boot
  isr := none
  frameCount := 0
  frameDropCount := 0
  stored := []

def driver (s : CanAbs) : Channel → CanDriver
  | .can1 => s.can1
  | .can2 => s.can2

def setDriver (s : CanAbs) (d : CanDriver) : Channel → CanAbs
  | .can1 => { s with can1 := d }
  | .can2 => { s with can2 := d }

def getTimestamp (s : CanAbs) (arr : UInt16) : UInt64 :=
  let cnt := UInt32.ofNat (s.now % (getTimerPeriod arr).toNat)
  let timestamp := s.time + (cnt * 1).toUInt64
  if s.updateFlag then timestamp + getTimerPeriod arr else timestamp

/-- `TIMx_IRQHandler` acknowledges its interrupt. -/
def timIrqHandler (s : CanAbs) : CanAbs := { s with updateFlag := false, timer := .flagCleared }

def timInterruptCallback (s : CanAbs) (arr : UInt16) : CanAbs :=
  { s with time := s.time + getTimerPeriod arr, timer := .periodAdded }

def checkPeriod (s : CanAbs) (arr : UInt16) : CanAbs :=
  let periodReachedCan1 :=
    decide (getTimerPeriod arr ≤ s.time - s.can1.mostRecentInterruptTimestamp)
  let periodReachedCan2 :=
    decide (getTimerPeriod arr ≤ s.time - s.can2.mostRecentInterruptTimestamp)
  if !periodReachedCan1 && !periodReachedCan2 then { s with timer := .idle }
  else { s with timer := .periodReached }

def checkFrames (s : CanAbs) : CanAbs :=
  let anyFrameAvailableCan1 := decide (0 < s.can1.rxFifo0.items.length)
  let anyFrameAvailableCan2 := decide (0 < s.can2.rxFifo0.items.length)
  { s with timer := .framesAvailable (anyFrameAvailableCan1 || anyFrameAvailableCan2) }

def setPending (s : CanAbs) (anyFrameAvailable : Bool) : CanAbs :=
  let s := { s with timer := .idle }
  if s.can1.irqPending || s.can2.irqPending then s
  else if anyFrameAvailable then { s with can1 := { s.can1 with irqPending := true } }
  else s

def enter (s : CanAbs) (c : Channel) (its : RxFifo0ITs) : CanAbs :=
  { s.setDriver ((s.driver c).countLost its) c with isr := some ⟨c, its, 0⟩ }

/-- `CanAbs_ReadAllAvailableFrames` returns; after the second call the interrupt is over. -/
def leave (s : CanAbs) (i : Isr) : CanAbs :=
  match i.channel with
  | .can1 => s.enter .can2 i.its
  | .can2 => { s with isr := none }

/-- `FDCAN_1_IRQHandler` and `FDCAN_2_IRQHandler`; `its` is what the HAL calls back with. -/
def irqHandler (s : CanAbs) (arr : UInt16) (c : Channel) (its : Option RxFifo0ITs) : CanAbs :=
  let s := s.setDriver { s.driver c with
    irqPending := false
    mostRecentInterruptTimestamp := s.getTimestamp arr
    interrupt := s.now
    betweenUpdates := decide (s.timer = .flagCleared) } c
  match its with
  | some its => s.enter .can1 its
  | none => s

def readFrame (s : CanAbs) (arr : UInt16) (i : Isr) (hal : HalRead) : CanAbs :=
  let d := s.driver i.channel
  let (d', outcome) := d.readFrame i.channel (getTimerPeriod arr) i.its hal
  let s := s.setDriver d' i.channel
  let isr := some { i with framesProcessed := i.framesProcessed + 1 }
  match outcome with
  | .stored frame => { s with
      isr
      frameCount := s.frameCount + 1
      stored := s.stored ++ (d.rxFifo0.items.take 1).map fun m =>
        ⟨frame, m.2, d.interrupt, d.betweenUpdates⟩ }
  | .refused _ => { s with
      isr
      frameCount := s.frameCount + 1
      frameDropCount := s.frameDropCount + 1 }
  | .failed => { s with frameDropCount := s.frameDropCount + 1 }.leave i

def canRead (s : CanAbs) (i : Isr) : Bool :=
  decide (i.framesProcessed < rxIsrMaxFramesPerChannel) &&
    decide (0 < (s.driver i.channel).rxFifo0.items.length)

def clockEnd : Nat := 0x8000000000000000

/-- An overflow of the timer that is not in `Time` yet. -/
def overflowed (s : CanAbs) : Bool := s.updateFlag || decide (s.timer = .flagCleared)

/-- The timer's interrupt adds an overflow before the timer overflows again. -/
def canWait (s : CanAbs) (arr : UInt16) (n : Nat) : Bool :=
  let period := (getTimerPeriod arr).toNat
  decide (s.now + n < clockEnd) &&
    decide ((s.now + n) / period ≤ s.now / period + if s.overflowed then 0 else 1)

/-- Frames arrive and time passes at any point.  The handlers of the controllers run one at a time,
the timer's while none of them does, and the tasks while no handler does. -/
def step (arr : UInt16) : Step CanAbs CanEvent
  | s, .wait n =>
    if s.canWait arr n then
      let period := (getTimerPeriod arr).toNat
      some { s with
        now := s.now + n
        updateFlag := s.updateFlag || decide (s.now / period < (s.now + n) / period) }
    else none
  | s, .arrive c m => some (s.setDriver ((s.driver c).arrive (getTimerPeriod arr) s.now m) c)
  | s, .clearFlag =>
    if s.isr.isNone && s.updateFlag && decide (s.timer = .idle) then some s.timIrqHandler else none
  | s, .addPeriod =>
    if s.isr.isNone && decide (s.timer = .flagCleared) then some (s.timInterruptCallback arr)
    else none
  | s, .checkPeriod =>
    if s.isr.isNone && decide (s.timer = .periodAdded) then some (s.checkPeriod arr) else none
  | s, .checkFrames =>
    if s.isr.isNone && decide (s.timer = .periodReached) then some s.checkFrames else none
  | s, .setPending =>
    match s.timer with
    | .framesAvailable any => if s.isr.isNone then some (s.setPending any) else none
    | _ => none
  | s, .interrupt c its =>
    if s.isr.isNone && (s.driver c).irqPending && its.all RxFifo0ITs.notified then
      some (s.irqHandler arr c its)
    else none
  | s, .read hal => s.isr.bind fun i => if s.canRead i then some (s.readFrame arr i hal) else none
  | s, .leave => s.isr.bind fun i => if s.canRead i then none else some (s.leave i)
  | s, .receive c =>
    if s.isr.isNone && decide (s.timer = .idle) then
      (s.driver c).rxRingBuffer.receive.map fun r =>
        s.setDriver { s.driver c with rxRingBuffer := r.2 } c
    else none

end CanAbs

end CanSniffer.Drivers
