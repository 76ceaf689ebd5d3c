import CanSniffer.Drivers.FdcanIoctl

/-! The bit timing registers (`fdcan_utils.c`) and the bit rate that `FDCAN_SetBaudrate` programs.
Unsigned arithmetic is modulo `UInt32.size`; a division by zero cannot happen for the bit rates in
use. -/

namespace CanSniffer.Drivers

structure RegValue where
  byte0 : UInt8
  byte1 : UInt8
  byte2 : UInt8
  byte3 : UInt8
  deriving DecidableEq, Repr

namespace RegValue

def merge (r : RegValue) : UInt32 :=
  r.byte3.toUInt32 <<< 24 ||| r.byte2.toUInt32 <<< 16 ||| r.byte1.toUInt32 <<< 8 |||
    r.byte0.toUInt32

def ofReg (reg : UInt32) : RegValue where
  byte0 := reg.toUInt8
  byte1 := (reg >>> 8).toUInt8
  byte2 := (reg >>> 16).toUInt8
  byte3 := (reg >>> 24).toUInt8

def field (reg width pos : UInt32) : UInt32 := (reg &&& (width <<< pos)) >>> pos

def getPrescaler (r : RegValue) (isDataPhase : Bool) : UInt16 :=
  ((if isDataPhase then field r.merge 0x1F 16 else field r.merge 0x1FF 16) + 1).toUInt16

def getSeg1 (r : RegValue) (isDataPhase : Bool) : UInt8 :=
  ((if isDataPhase then field r.merge 0xF 4 else field r.merge 0xFF 8) + 1).toUInt8

def getSeg2 (r : RegValue) (isDataPhase : Bool) : UInt8 :=
  ((if isDataPhase then field r.merge 0xF 0 else field r.merge 0x7F 0) + 1).toUInt8

def getSJW (r : RegValue) (isDataPhase : Bool) : UInt8 :=
  ((if isDataPhase then field r.merge 0xF 8 else field r.merge 0x7F 24) + 1).toUInt8

end RegValue

def samplePointFactor : Nat := 10000

def syncSeg : Nat := 1

/-- `reg_value`, for a jump width of at least 1: in the nominal phase the prescaler's ninth bit is the
first one of the jump width. -/
def timingReg (isDataPhase : Bool) (prescaler sjw seg1 seg2 : Nat) : UInt32 :=
  if isDataPhase then
    UInt32.ofNat (prescaler - 1) <<< 16 ||| UInt32.ofNat (sjw - 1) <<< 8 |||
      UInt32.ofNat (seg1 - 1) <<< 4 ||| UInt32.ofNat (seg2 - 1)
  else
    UInt32.ofNat (prescaler - 1) <<< 16 ||| UInt32.ofNat (sjw - 1) <<< 24 |||
      UInt32.ofNat (seg1 - 1) <<< 8 ||| UInt32.ofNat (seg2 - 1)

/-- One round of the search; `none` where it goes on. -/
def tryTq (clockHz bitrate samplePoint sjw : Nat) (isDataPhase : Bool) (tqNum : Nat) :
    Option RegValue :=
  let totalTqFreq := bitrate * tqNum % UInt32.size
  let prescaler := clockHz / totalTqFreq
  if tqNum * samplePoint % UInt32.size % samplePointFactor ≠ 0 then none
  else if prescaler = 0 ∨ (isDataPhase ∧ 32 < prescaler) ∨ (¬ isDataPhase ∧ 512 < prescaler) then
    none
  else
    let actualBitrate := clockHz / (prescaler * tqNum % UInt32.size)
    if actualBitrate ≠ bitrate then none
    else
      -- both are cut to eight bits
      let seg1 := (tqNum * samplePoint % UInt32.size / samplePointFactor + UInt32.size - syncSeg) %
        UInt32.size % UInt8.size
      let seg2 := (tqNum + UInt32.size - seg1 - 1) % UInt32.size % UInt8.size
      if 0 < seg1 ∧ 0 < seg2 then
        let sjw := if seg2 < sjw then seg2 else sjw
        some (.ofReg (timingReg isDataPhase prescaler sjw seg1 seg2))
      else none

/-- The search from `tqNum` time quanta down to eight: what is returned and what is written. -/
def timingLoop (clockHz bitrate samplePoint sjw : Nat) (isDataPhase : Bool) :
    Nat → UInt8 × Option RegValue
  | 0 => (1, none)
  | tqNum + 1 =>
    if tqNum + 1 < 8 then (1, none)
    else
      match tryTq clockHz bitrate samplePoint sjw isDataPhase (tqNum + 1) with
      | some reg => (0, some reg)
      | none => timingLoop clockHz bitrate samplePoint sjw isDataPhase tqNum

def maxTq (clockHz bitrate : Nat) : Nat :=
  if 512 < clockHz / bitrate then 512 else clockHz / bitrate

/-- `CANFD_CalculateBitTimingRegister`; `false`, its answer to a zero argument, is `RES_OK`. -/
def calculateBitTimingRegister (clockHz bitrate samplePoint sjw : UInt32) (isDataPhase : Bool) :
    UInt8 × Option RegValue :=
  if clockHz = 0 ∨ bitrate = 0 then (0, none)
  else
    timingLoop clockHz.toNat bitrate.toNat samplePoint.toNat sjw.toNat isDataPhase
      (maxTq clockHz.toNat bitrate.toNat)

/-- The timings of `FDCAN_SetBaudrate`, which zeroes the register before it is calculated. -/
def baudrateTimings (fdcanClock baudrate : UInt32) : Option BitTiming :=
  let r := calculateBitTimingRegister fdcanClock baudrate 7500 1 false
  if r.1 = 0 then
    let timings := r.2.getD ⟨0, 0, 0, 0⟩
    some {
      prescaler := timings.getPrescaler false
      seg1 := timings.getSeg1 false
      seg2 := timings.getSeg2 false
      sjw := timings.getSJW false }
  else none

end CanSniffer.Drivers
