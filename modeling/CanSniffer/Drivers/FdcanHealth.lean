import CanSniffer.Drivers.CommTypes

namespace CanSniffer.Drivers

structure FdcanRegisters where
  psr : UInt32
  ecr : UInt32
  rxf0s : UInt32
  ir : UInt32
  deriving DecidableEq

/-- The `FDCAN_` bits of the device header, which is not part of the repository. -/
structure FdcanBits where
  irRf0l : UInt32
  irElo : UInt32
  irEp : UInt32
  irEw : UInt32
  irBo : UInt32
  irPea : UInt32
  irPed : UInt32
  irAra : UInt32
  rxf0sRf0l : UInt32
  psrEp : UInt32
  psrEw : UInt32
  psrBo : UInt32
  psrPxe : UInt32
  psrLec : UInt32
  psrLecPos : UInt32
  psrDlec : UInt32
  psrDlecPos : UInt32
  ecrTec : UInt32
  ecrRec : UInt32
  ecrRp : UInt32
  ecrCel : UInt32

namespace FdcanBits

variable (bits : FdcanBits)

def protocolErrorIrMask : UInt32 := bits.irElo ||| bits.irPea ||| bits.irPed ||| bits.irAra

def errorStateIrMask : UInt32 := bits.irEp ||| bits.irEw ||| bits.irBo

def errorEventIrMask : UInt32 := bits.protocolErrorIrMask ||| bits.errorStateIrMask

end FdcanBits

def isLastErrorCodeActive (code : UInt32) : Bool := code ≠ 0 ∧ code ≠ 7

def psrHasInterestingError (bits : FdcanBits) (psr : UInt32) : Bool :=
  let lec := (psr &&& bits.psrLec) >>> bits.psrLecPos
  let dlec := (psr &&& bits.psrDlec) >>> bits.psrDlecPos
  if psr &&& (bits.psrEp ||| bits.psrEw ||| bits.psrBo ||| bits.psrPxe) ≠ 0 then true
  else isLastErrorCodeActive lec || isLastErrorCodeActive dlec

def ecrHasInterestingError (bits : FdcanBits) (ecr : UInt32) : Bool :=
  ecr &&& (bits.ecrTec ||| bits.ecrRec ||| bits.ecrRp ||| bits.ecrCel) ≠ 0

def rxFifo0LostActive (bits : FdcanBits) (r : FdcanRegisters) : Bool :=
  r.rxf0s &&& bits.rxf0sRf0l ≠ 0 ∨ r.ir &&& bits.irRf0l ≠ 0

structure FdcanHealthState where
  protocolStatusLatched : UInt32
  errorCounterLatched : UInt32
  rxFifo0StatusLatched : UInt32
  interruptFlagsLatched : UInt32
  activeErrorEventIrFlags : UInt32
  rxFifo0LostActive : Bool
  rxFifo0LostEvents : UInt64
  protocolErrorEvents : UInt64
  errorWarningEvents : UInt64
  errorPassiveEvents : UInt64
  busOffEvents : UInt64
  deriving DecidableEq

structure FdcanHealthStats where
  protocolStatus : UInt32
  errorCounter : UInt32
  rxFifo0Status : UInt32
  interruptFlags : UInt32
  protocolStatusLatched : UInt32
  errorCounterLatched : UInt32
  rxFifo0StatusLatched : UInt32
  interruptFlagsLatched : UInt32
  rxFifo0LostEvents : UInt64
  protocolErrorEvents : UInt64
  errorWarningEvents : UInt64
  errorPassiveEvents : UInt64
  busOffEvents : UInt64
  deriving DecidableEq

namespace FdcanHealthState

def reset : FdcanHealthState where
  protocolStatusLatched := 0
  errorCounterLatched := 0
  rxFifo0StatusLatched := 0
  interruptFlagsLatched := 0
  activeErrorEventIrFlags := 0
  rxFifo0LostActive := false
  rxFifo0LostEvents := 0
  protocolErrorEvents := 0
  errorWarningEvents := 0
  errorPassiveEvents := 0
  busOffEvents := 0

def hasLatch (s : FdcanHealthState) : Bool :=
  s.protocolStatusLatched ||| s.errorCounterLatched ||| s.rxFifo0StatusLatched |||
    s.interruptFlagsLatched ≠ 0

/-- `CanAbs_PrimeFdcanHealthState`; without a controller there is nothing to read. -/
def prime (bits : FdcanBits) (s : FdcanHealthState) : Option FdcanRegisters → FdcanHealthState
  | none => s
  | some r =>
    { s with
      rxFifo0LostActive := Drivers.rxFifo0LostActive bits r
      activeErrorEventIrFlags := r.ir &&& bits.errorEventIrMask }

def latch (s : FdcanHealthState) (r : FdcanRegisters) : FdcanHealthState :=
  { s with
    protocolStatusLatched := r.psr
    errorCounterLatched := r.ecr
    rxFifo0StatusLatched := r.rxf0s
    interruptFlagsLatched := r.ir }

/-- An event counter, advanced where its flag is newly up. -/
def countEvent (events : UInt64) (isNew : Bool) : UInt64 := if isNew then events + 1 else events

def capture (bits : FdcanBits) (s : FdcanHealthState) (r : FdcanRegisters) : FdcanHealthState :=
  let lostActive := Drivers.rxFifo0LostActive bits r
  let isNewLost := lostActive && !s.rxFifo0LostActive
  let active := r.ir &&& bits.errorEventIrMask
  let new := active &&& ~~~s.activeErrorEventIrFlags
  let isNewFlag (flags : UInt32) : Bool := new &&& flags ≠ 0
  let latchSnapshot := isNewLost || isNewFlag bits.protocolErrorIrMask || isNewFlag bits.irEw ||
    isNewFlag bits.irEp || isNewFlag bits.irBo
  let s := { s with
    rxFifo0LostEvents := countEvent s.rxFifo0LostEvents isNewLost
    rxFifo0LostActive := lostActive
    activeErrorEventIrFlags := active
    protocolErrorEvents := countEvent s.protocolErrorEvents (isNewFlag bits.protocolErrorIrMask)
    errorWarningEvents := countEvent s.errorWarningEvents (isNewFlag bits.irEw)
    errorPassiveEvents := countEvent s.errorPassiveEvents (isNewFlag bits.irEp)
    busOffEvents := countEvent s.busOffEvents (isNewFlag bits.irBo) }
  let latchSnapshot := latchSnapshot ||
    !s.hasLatch && (psrHasInterestingError bits r.psr || ecrHasInterestingError bits r.ecr)
  if latchSnapshot then s.latch r else s

/-- `CanAbs_GetFdcanHealth`; without a controller it fails. -/
def getFdcanHealth (s : FdcanHealthState) : Option FdcanRegisters → Option FdcanHealthStats
  | none => none
  | some r =>
    some
      { protocolStatus := r.psr
        errorCounter := r.ecr
        rxFifo0Status := r.rxf0s
        interruptFlags := r.ir
        protocolStatusLatched := s.protocolStatusLatched
        errorCounterLatched := s.errorCounterLatched
        rxFifo0StatusLatched := s.rxFifo0StatusLatched
        interruptFlagsLatched := s.interruptFlagsLatched
        rxFifo0LostEvents := s.rxFifo0LostEvents
        protocolErrorEvents := s.protocolErrorEvents
        errorWarningEvents := s.errorWarningEvents
        errorPassiveEvents := s.errorPassiveEvents
        busOffEvents := s.busOffEvents }

end FdcanHealthState

structure FdcanHealth where
  can1 : FdcanHealthState
  can2 : FdcanHealthState

/-- What is done to the two states: an `CanAbs_Init_Can`, a `CanAbs_ResetFdcanHealth` with what
each controller answers, and a sample of an interrupt. -/
inductive HealthOp
  | init : Channel → HealthOp
  | reset : Option FdcanRegisters → Option FdcanRegisters → HealthOp
  | capture : Channel → FdcanRegisters → HealthOp

namespace FdcanHealth

def boot : FdcanHealth := ⟨.reset, .reset⟩

def getFdcanHealthState (h : FdcanHealth) : Channel → FdcanHealthState
  | .can1 => h.can1
  | .can2 => h.can2

def setFdcanHealthState (h : FdcanHealth) (s : FdcanHealthState) : Channel → FdcanHealth
  | .can1 => { h with can1 := s }
  | .can2 => { h with can2 := s }

def resetFdcanHealth (bits : FdcanBits) (r1 r2 : Option FdcanRegisters) : FdcanHealth :=
  ⟨FdcanHealthState.reset.prime bits r1, FdcanHealthState.reset.prime bits r2⟩

def step (bits : FdcanBits) (h : FdcanHealth) : HealthOp → FdcanHealth
  | .init c => h.setFdcanHealthState .reset c
  | .reset r1 r2 => resetFdcanHealth bits r1 r2
  | .capture c r => h.setFdcanHealthState ((h.getFdcanHealthState c).capture bits r) c

def run (bits : FdcanBits) (h : FdcanHealth) (ops : List HealthOp) : FdcanHealth :=
  ops.foldl (step bits) h

end FdcanHealth

end CanSniffer.Drivers
