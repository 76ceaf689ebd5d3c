import CanSniffer.Drivers.CommTypes
import CanSniffer.Lib.Transition

/-! The commands of a controller (`FDCAN_Ioctl` in `fdcan.c`) and what the tracer does with them.
What the HAL answers to a call is an argument. -/

namespace CanSniffer.Drivers

open Lib

inductive CommDriverState
  | uninitialized
  | initialized
  | stopped
  | started
  | off
  deriving DecidableEq, Repr

inductive HalMode
  | normal
  | busMonitoring
  | externalLoopback
  deriving DecidableEq, Repr

def fdcanMode1 : UInt32 := 1
def fdcanMode2 : UInt32 := 2
def fdcanMode3 : UInt32 := 3
def fdcanMode4 : UInt32 := 4

structure BitTiming where
  prescaler : UInt16
  seg1 : UInt8
  seg2 : UInt8
  sjw : UInt8
  deriving DecidableEq, Repr

/-- A `CommDriver` with its `hfdcan`.  Not in the program: `running` is whether the controller was
started and not stopped or initialised since, `selectedOff` whether the last mode asked for is
mode 3. -/
structure FdcanDriver where
  state : CommDriverState
  mode : HalMode
  timing : BitTiming
  running : Bool
  selectedOff : Bool
  deriving DecidableEq, Repr

/-- What the calls of a stop return, and `HAL_FDCAN_ERROR_NOT_STARTED` in `ErrorCode` after it. -/
structure StopAnswers where
  deactivated : Bool
  stopped : Bool
  aborted : Bool
  notStarted : Bool

/-- `timings` is what `CANFD_CalculateBitTimingRegister` finds for the clock. -/
inductive IoctlCmd
  | setBaudrate (baudrate : UInt32) (timings : Option BitTiming) (initialized : Bool)
  | setFilterMask
  | start (started : Bool)
  | stop (a : StopAnswers)
  | setMode (mode : UInt32) (initialized : Bool)

namespace FdcanDriver

def init (d : FdcanDriver) (initialized : Bool) : FdcanDriver × CommStatus :=
  if initialized then ({ d with running := false }, .success) else (d, .error)

def setBaudrate (d : FdcanDriver) (baudrate : UInt32) (timings : Option BitTiming)
    (initialized : Bool) : FdcanDriver × CommStatus :=
  if baudrate = 250000 ∨ baudrate = 500000 ∨ baudrate = 1000000 then
    match timings with
    | some timing => { d with timing }.init initialized
    | none => (d, .error)
  else (d, .invalidParameter)

def setMode (d : FdcanDriver) (mode : UInt32) (initialized : Bool) : FdcanDriver × CommStatus :=
  if mode = fdcanMode1 then { d with mode := .normal }.init initialized
  else if mode = fdcanMode2 then { d with mode := .busMonitoring }.init initialized
  else if mode = fdcanMode4 then { d with mode := .externalLoopback }.init initialized
  else (d, .invalidParameter)

def start (d : FdcanDriver) (started : Bool) : FdcanDriver × CommStatus :=
  if d.state = .started then ({ d with state := .started }, .success)
  else if started then ({ d with state := .started, running := true }, .success)
  else (d, .error)

/-- After a stop the HAL refuses to abort requests, which leaves its mark in `ErrorCode`. -/
def stop (d : FdcanDriver) (a : StopAnswers) : FdcanDriver × CommStatus :=
  let (d, res) :=
    if d.state ≠ .started then (d, .success)
    else if a.deactivated = false then (d, .error)
    else if a.stopped = false then (d, .error)
    else if a.aborted = false then ({ d with running := false }, .error)
    else ({ d with running := false }, .success)
  if res = .success ∨ a.notStarted then ({ d with state := .stopped }, res) else (d, res)

def ioctl (d : FdcanDriver) : IoctlCmd → FdcanDriver × CommStatus
  | .setBaudrate baudrate timings initialized =>
    let (d, res) := d.setBaudrate baudrate timings initialized
    if res = .success then ({ d with state := .initialized }, res) else (d, res)
  | .start started => d.start started
  | .stop a => d.stop a
  | .setMode mode initialized =>
    let (d, res) := { d with selectedOff := decide (mode = fdcanMode3) }.setMode mode initialized
    if res = .success ∧ mode = fdcanMode3 then ({ d with state := .off }, res)
    else if res = .success then ({ d with state := .initialized }, res)
    else (d, res)
  | .setFilterMask => (d, .error)

def tracerStart (d : FdcanDriver) (started : Bool) : FdcanDriver :=
  if d.state = .off then d else (d.ioctl (.start started)).1

end FdcanDriver

end CanSniffer.Drivers
