import CanSniffer.Drivers.Spi

/-! The blocking calls of `SpiAbs.c`, the SPI task that carries them out and the notifications
of `spi_port_freertos.c`.  A step is one stretch of the caller, of the task or of the interrupt. -/

namespace CanSniffer.Drivers

open Lib

inductive SpiCall
  | readByte
  | writByte
  | send
  | receive
  | pollForResponse
  | pollForIdle (maxRetries : UInt32)
  deriving DecidableEq, Repr

/-- `TaskContextType`; `data` is what the callback copied to the call's buffer. -/
structure TaskContext where
  status : UInt8
  bytes : UInt16
  done : Bool
  data : Option (List UInt8)
  deriving DecidableEq, Repr

inductive SpiTask
  | waiting
  | issued (p : SpiPending) (res : HalStatus)
  deriving DecidableEq, Repr

inductive DmaState
  | idle
  | running
  | complete
  | failed
  deriving DecidableEq, Repr

/-- Not in the program: the transaction that was served for the call, with what the HAL did. -/
structure CallReturn where
  context : Nat
  value : UInt8
  delivered : Option (List UInt8)
  served : Option (SpiTransaction × HalAnswers)

/-- Contexts are numbered in the order of the calls. Not in the program: `returned`, `late` (the
contexts that a callback was run with after their call had returned) and `served`. -/
structure SpiAbsState where
  drv : SpiDriver
  task : SpiTask
  notified : Bool
  dma : DmaState
  call : Option (SpiCall × Nat)
  contexts : Nat → TaskContext
  next : Nat
  returned : List CallReturn
  late : List Nat
  served : Nat → Option (SpiTransaction × HalAnswers)

inductive SpiAbsEvent
  | call (c : SpiCall) (data : Nat → UInt8) (bytes : UInt16)
  | ret
  | giveUp
  | serve (h : HalAnswers)
  | interrupt (ok : Bool)
  | wake (rx : Nat → UInt8)
  | expire

def spiSendCallback : Nat := 1

def spiReceiveCallback : Nat := 2

def aRxSpiDummy : Nat → UInt8 := fun _ => 0xFF

namespace SpiCall

def transaction (context : Nat) : SpiCall → SpiTransaction
  | .readByte =>
    { id := 1, timeout := 100, length := 0, direction := .txRx, prio := 0, maxRetries := 0
      token := 0, invert := false, usePoll := true, callback := some spiReceiveCallback, context }
  | .writByte =>
    { id := 1, timeout := 100, length := 0, direction := .txRx, prio := 0, maxRetries := 0
      token := 0, invert := false, usePoll := true, callback := some spiSendCallback, context }
  | .send =>
    { id := 1, timeout := 100, length := 0, direction := .txRx, prio := 0, maxRetries := 0
      token := 0, invert := false, usePoll := false, callback := some spiSendCallback, context }
  | .receive =>
    { id := 1, timeout := 100, length := 0, direction := .txRx, prio := 0, maxRetries := 0
      token := 0, invert := false, usePoll := false, callback := some spiReceiveCallback, context }
  | .pollForResponse =>
    { id := 0, timeout := 100, length := 1, direction := .pollByte, prio := 0, maxRetries := 20
      token := 0xFF, invert := false, usePoll := false, callback := some spiReceiveCallback
      context }
  | .pollForIdle maxRetries =>
    { id := 0, timeout := 100, length := 1, direction := .pollByte, prio := 0, maxRetries
      token := 0xFF, invert := true, usePoll := false, callback := some spiReceiveCallback
      context }

def bytes (bytes : UInt16) : SpiCall → UInt16
  | .send | .receive => bytes
  | .readByte | .writByte | .pollForResponse | .pollForIdle _ => 1

def payload (data : Nat → UInt8) : SpiCall → Nat → UInt8
  | .send | .writByte => data
  | .readByte | .receive | .pollForResponse | .pollForIdle _ => aRxSpiDummy

def message (c : SpiCall) (context : Nat) (data : Nat → UInt8) (bytes : UInt16) : SpiMessage where
  payload := c.payload data
  length := (c.bytes bytes).toUInt32
  transaction := c.transaction context

/-- The byte polls notify the task only after `SPI_Send` accepted the transaction. -/
def notifies (code : CommCode) : SpiCall → Bool
  | .pollForResponse | .pollForIdle _ => code == .success
  | .readByte | .writByte | .send | .receive => true

def value (context : TaskContext) : SpiCall → UInt8
  | .readByte | .writByte | .send | .receive => HalStatus.ok.value
  | .pollForResponse =>
    match context.data with
    | some (b :: _) => if b = 0xFF then 1 else 0
    -- a byte poll's callback always stores one byte
    | _ => 1
  | .pollForIdle _ => context.status

end SpiCall

namespace SpiAbsState

def init (slot : SpiSlot) : SpiAbsState where
  drv := .init slot
  task := .waiting
  notified := false
  dma := .idle
  call := none
  contexts := fun _ => ⟨0, 0, false, none⟩
  next := 0
  returned := []
  late := []
  served := fun _ => none

/-- The two completion callbacks, whose bodies are the same. -/
def complete (s : SpiAbsState) (c : Completion) : SpiAbsState :=
  { s with
    contexts := Function.update s.contexts c.context
      { status := c.status, bytes := c.data.length.toUInt16, done := true, data := some c.data }
    late := if c.context ∈ s.returned.map CallReturn.context then s.late ++ [c.context]
      else s.late }

def finish (s : SpiAbsState) (drv : SpiDriver) (p : SpiPending) (h : HalAnswers) : SpiAbsState :=
  (drv.pollEnd p h).2.foldl complete
    { s with
      drv := (drv.pollEnd p h).1
      task := .waiting
      served := Function.update s.served p.transaction.context (some (p.transaction, h)) }

def leave (s : SpiAbsState) (context : Nat) (value : UInt8) : SpiAbsState :=
  { s with
    call := none
    returned := s.returned ++
      [{ context, value, delivered := (s.contexts context).data, served := s.served context }] }

def startsDma (t : SpiTransaction) : Bool :=
  match t.direction with
  | .txRx | .txOnly | .rxOnly => !t.usePoll
  | .pollByte | .other => false

def serve (s : SpiAbsState) (h : HalAnswers) : SpiAbsState :=
  if (s.drv.tx .low).elementCount = 0 then s
  else
    match s.drv.pollBegin with
    | none => s
    | some (p, drv) =>
      if startsDma p.transaction && (h.res == .ok || h.res == .busy) then
        { s with
          drv
          task := .issued p h.res
          dma := if h.res = .ok then DmaState.running else s.dma }
      else s.finish drv p h

def answers (s : SpiAbsState) (res : HalStatus) (rx : Nat → UInt8) : HalAnswers where
  res
  issued := if s.dma = .complete then .complete else .failed
  rx
  byte := fun _ => .failed none

def woken (s : SpiAbsState) : SpiAbsState :=
  { s with notified := false, dma := if s.dma = .running then .running else .idle }

def step : Step SpiAbsState SpiAbsEvent
  | s, .call c data bytes =>
    match s.call with
    | some _ => none
    | none =>
      let r := s.drv.send (c.message s.next data bytes)
      let t := { s with
        drv := r.1
        notified := s.notified || c.notifies r.2
        contexts := Function.update s.contexts s.next ⟨0, c.bytes bytes, false, none⟩
        next := s.next + 1 }
      if r.2 = .success then some { t with call := some (c, s.next) }
      else some (t.leave s.next r.2.value)
  | s, .ret =>
    match s.call with
    | none => none
    | some (c, context) =>
      if (s.contexts context).done then some (s.leave context (c.value (s.contexts context)))
      else none
  | s, .giveUp =>
    match s.call with
    | none => none
    | some (_, context) =>
      if (s.contexts context).done then none else some (s.leave context HalStatus.timeout.value)
  | s, .serve h =>
    if s.task = .waiting ∧ s.notified then some ({ s with notified := false }.serve h) else none
  | s, .interrupt ok =>
    if s.dma = .running then
      some { s with dma := if ok then DmaState.complete else .failed, notified := true }
    else none
  | s, .wake rx =>
    match s.task with
    | .waiting => none
    | .issued p res =>
      if s.notified then
        some (s.woken.finish s.drv p (s.answers res rx))
      else none
  | s, .expire =>
    match s.task with
    | .waiting => none
    | .issued p res =>
      some (s.finish s.drv p ⟨res, .timeout, fun _ => 0, fun _ => .failed none⟩)

end SpiAbsState

end CanSniffer.Drivers
