import CanSniffer.Lib.RingBuffer
import CanSniffer.Lib.Transition

/-! The SPI driver: transactions are queued by `SPI_Send` and carried out, one a call, by
`SPI_Poll` (`spi.c`, `Spi_Cmds.c`).  What the HAL does is the label of a poll.
Transfers fit the bounce buffers: `aTxBuffer` has 19 bytes and `aRxBuffer` 32. -/

namespace CanSniffer.Drivers

open Lib

/-- The members of `comm_status_t` that the driver's queue returns. -/
inductive CommCode
  | success
  | error
  | timeout
  | invalidParameter
  | nullPointer
  | txFull
  | rxFull
  deriving DecidableEq, Repr

def CommCode.value : CommCode → UInt8
  | .success => 0
  | .error => 1
  | .timeout => 2
  | .invalidParameter => 3
  | .nullPointer => 5
  | .txFull => 7
  | .rxFull => 8

inductive HalStatus
  | ok
  | error
  | busy
  | timeout
  deriving DecidableEq, Repr

def HalStatus.value : HalStatus → UInt8
  | .ok => 0
  | .error => 1
  | .busy => 2
  | .timeout => 3

def HalStatus.toComm : HalStatus → CommCode
  | .ok => .success
  | .timeout => .timeout
  | .busy | .error => .error

/-- `SPI_DIR_`; `other` is every byte above them. -/
inductive SpiDirection
  | txRx
  | txOnly
  | rxOnly
  | pollByte
  | other
  deriving DecidableEq, Repr

/-- `callback` and `context` are addresses. -/
structure SpiTransaction where
  id : UInt32
  timeout : UInt32
  length : UInt16
  direction : SpiDirection
  prio : UInt8
  maxRetries : UInt32
  token : UInt8
  invert : Bool
  usePoll : Bool
  callback : Option Nat
  context : Nat
  deriving DecidableEq, Repr

structure SpiSlot where
  usedLen : UInt16
  transaction : SpiTransaction
  data : Nat → UInt8

structure SpiMessage where
  payload : Nat → UInt8
  length : UInt32
  transaction : SpiTransaction

structure Completion where
  callback : Nat
  context : Nat
  status : UInt8
  data : List UInt8
  deriving DecidableEq, Repr

def SpiTransaction.complete (t : SpiTransaction) (err : UInt8) (data : List UInt8) :
    List Completion :=
  match t.callback with
  | none => []
  | some callback => [{ callback, context := t.context, status := err, data }]

def SpiSlot.complete (slot : SpiSlot) (err : UInt8) : List Completion :=
  slot.transaction.complete err ((List.range slot.usedLen.toNat).map slot.data)

/-- One single-byte exchange: a failed one may still have written the buffer. -/
inductive HalByte
  | received (b : UInt8)
  | failed (left : Option UInt8)
  deriving DecidableEq, Repr

def HalByte.after (byte : UInt8) : HalByte → UInt8
  | .received b => b
  | .failed left => left.getD byte

/-- How `Spi_NotifyTransferIssued` ends: notified by the completion interrupt, notified
otherwise (the error interrupt, or a notification meant for the task), or timed out. -/
inductive Issued
  | complete
  | failed
  | timeout
  deriving DecidableEq, Repr

/-- What the HAL does during a poll: the result of the polled call or of the DMA start, what the
receive buffer holds afterwards, and the exchanges of a byte poll. -/
structure HalAnswers where
  res : HalStatus
  issued : Issued
  rx : Nat → UInt8
  byte : Nat → HalByte

inductive SpiBin
  | low
  | medium
  deriving DecidableEq, Repr

def spiPriorityN : UInt8 := 3

def spiSlotCount : Nat := 3

def spiSlotMetaBytes : UInt32 := 32

def spiSlotStride : UInt32 := 576

structure SpiDriver where
  tx : SpiBin → RingBuffer SpiSlot spiSlotCount
  rx : SpiBin → RingBuffer SpiSlot spiSlotCount

structure SpiPending where
  bin : SpiBin
  transaction : SpiTransaction
  rxSlot : Nat
  deriving DecidableEq, Repr

namespace SpiTransaction

def pollExit (t : SpiTransaction) (byte : UInt8) : Bool :=
  if t.invert then byte == t.token else byte != t.token

/-- The byte and `err` with which the `do … while` loop ends; the status of an exchange is
dropped. -/
def pollByteLoop (t : SpiTransaction) (answer : Nat → HalByte) :
    Nat → Nat → UInt8 → UInt8 × UInt8
  | 0, _, byte => (byte, 1)
  | fuel + 1, retries, byte =>
    if t.pollExit ((answer retries).after byte) then ((answer retries).after byte, 0)
    else pollByteLoop t answer fuel (retries + 1) ((answer retries).after byte)

/-- The loop's body runs once even for `max_retries = 0`. -/
def tries (t : SpiTransaction) : Nat := max 1 t.maxRetries.toNat

def pollByte (t : SpiTransaction) (answer : Nat → HalByte) : UInt8 × UInt8 :=
  t.pollByteLoop answer t.tries 0 t.token

end SpiTransaction

/-- `Spi_GetSlots`: the third bin has no slots. -/
def SpiBin.ofPriority (prio : UInt8) : Option SpiBin :=
  if spiPriorityN ≤ prio then none
  else if prio = 0 then some .low
  else if prio = 1 then some .medium
  else none

namespace SpiDriver

def setTx (s : SpiDriver) (b : SpiBin) (rb : RingBuffer SpiSlot spiSlotCount) : SpiDriver :=
  { s with tx := Function.update s.tx b rb }

def setRx (s : SpiDriver) (b : SpiBin) (rb : RingBuffer SpiSlot spiSlotCount) : SpiDriver :=
  { s with rx := Function.update s.rx b rb }

def init (slot : SpiSlot) : SpiDriver where
  tx := fun _ => .empty (fun _ => slot) spiSlotCount (by decide)
  rx := fun _ => .empty (fun _ => slot) spiSlotCount (by decide)

def highest (rings : SpiBin → RingBuffer SpiSlot spiSlotCount) : Option SpiBin :=
  [spiPriorityN - 1, spiPriorityN - 2, spiPriorityN - 3].findSome? fun prio =>
    (SpiBin.ofPriority prio).filter fun b => (rings b).elementCount ≠ 0

/-- `SPI_Send`, with `m_PrepareTxSlot`. -/
def send (s : SpiDriver) (msg : SpiMessage) : SpiDriver × CommCode :=
  match SpiBin.ofPriority msg.transaction.prio with
  | none => (s, .nullPointer)
  | some b =>
    if (s.tx b).isFull then (s, .txFull)
    else if (s.rx b).isFull then (s, .rxFull)
    else if spiSlotStride - spiSlotMetaBytes < msg.length ∨ 65535 < msg.length then
      (s, .invalidParameter)
    else
      match (s.tx b).reserve with
      | none => (s, .nullPointer)
      | some (i, rb) =>
        (s.setTx b (rb.modify i fun slot =>
          { usedLen := msg.length.toUInt16
            transaction := { msg.transaction with length := msg.length.toUInt16 }
            data := fun k => if k < msg.length.toNat then msg.payload k else slot.data k }),
         .success)

/-- `Spi_NotifyRxData`: the oldest receive slot of the highest priority that has one. -/
def notifyRxData (s : SpiDriver) (err : UInt8) : SpiDriver × List Completion :=
  match highest s.rx with
  | none => (s, [])
  | some b =>
    match (s.rx b).peekAt 0 with
    | none => (s, [])
    | some i => (s.setRx b (s.rx b).pop, ((s.rx b).slots i).complete err)

def store (s : SpiDriver) (p : SpiPending) (len : Nat) (bytes : Nat → UInt8) : SpiDriver :=
  s.setRx p.bin ((s.rx p.bin).modify p.rxSlot fun slot =>
    { slot with data := fun k => if k < len then bytes k else slot.data k })

/-- The body that `Spi_Send`, `Spi_SendReceiveMsg` and `Spi_Receive` share: whether the received
bytes are copied to the slot, and whether a timeout is passed on to the slot's owner. -/
def dma (received reported : Bool) (s : SpiDriver) (p : SpiPending) (h : HalAnswers) :
    SpiDriver × List Completion :=
  match h.res with
  | .error | .timeout => (s, [])
  | .ok | .busy =>
    match h.issued with
    | .timeout => if reported then s.notifyRxData 1 else (s, [])
    | .complete | .failed =>
      (if received then s.store p p.transaction.length.toNat h.rx else s).notifyRxData 0

def sendDma := dma false false

def sendReceiveMsg := dma true true

def receiveDma := dma true false

def polled (received : Bool) (s : SpiDriver) (p : SpiPending) (h : HalAnswers) :
    SpiDriver × List Completion :=
  (if received then s.store p p.transaction.length.toNat h.rx else s).notifyRxData
    (if h.res.toComm ≠ .success then 1 else 0)

/-- The `SPI_DIR_POLL_BYTE` branch of `SPI_Poll`. -/
def pollBytes (s : SpiDriver) (p : SpiPending) (h : HalAnswers) : SpiDriver × List Completion :=
  let r := p.transaction.pollByte h.byte
  let s := s.setRx p.bin ((s.rx p.bin).modify p.rxSlot fun slot =>
    { slot with data := Function.update slot.data 0 r.1, usedLen := 1 })
  s.notifyRxData r.2

def transfer (s : SpiDriver) (p : SpiPending) (h : HalAnswers) : SpiDriver × List Completion :=
  match p.transaction.direction with
  | .txOnly => if p.transaction.usePoll then s.polled false p h else s.sendDma p h
  | .rxOnly => if p.transaction.usePoll then s.polled true p h else s.receiveDma p h
  | .txRx => if p.transaction.usePoll then s.polled true p h else s.sendReceiveMsg p h
  | .pollByte => s.pollBytes p h
  | .other => (s, [])

/-- `SPI_Poll` up to the `switch`: the oldest slot of the highest priority and a receive slot. -/
def pollBegin (s : SpiDriver) : Option (SpiPending × SpiDriver) :=
  (highest s.tx).bind fun b =>
    ((s.tx b).peekAt 0).bind fun i =>
      (s.rx b).reserve.map fun r =>
        let transaction := ((s.tx b).slots i).transaction
        ({ bin := b, transaction, rxSlot := r.1 },
         s.setRx b (r.2.modify r.1 fun slot =>
          { slot with transaction, usedLen := transaction.length }))

/-- `SPI_Poll` from the `switch` on; the transmit slot is removed in any case. -/
def pollEnd (s : SpiDriver) (p : SpiPending) (h : HalAnswers) : SpiDriver × List Completion :=
  let r := s.transfer p h
  (r.1.setTx p.bin (r.1.tx p.bin).pop, r.2)

def poll (s : SpiDriver) (h : HalAnswers) : SpiDriver × List Completion :=
  match s.pollBegin with
  | none => (s, [])
  | some (p, t) => t.pollEnd p h

end SpiDriver

inductive SpiEvent
  | send (msg : SpiMessage)
  | poll (h : HalAnswers)

def SpiDriver.step : Step SpiDriver SpiEvent
  | s, .send msg => some (s.send msg).1
  | s, .poll h => some (s.poll h).1

end CanSniffer.Drivers
