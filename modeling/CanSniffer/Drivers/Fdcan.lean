import CanSniffer.Drivers.CommTypes

/-! Reading one frame from the hardware FIFO (`FDCAN_Read` in `fdcan.c`).  What the
HAL calls return is an argument. -/

namespace CanSniffer.Drivers

inductive RxFrameType
  | data
  | remote
  deriving DecidableEq, Repr

/-- `FDCAN_RxHeaderTypeDef`; `dataLength` is the code of the `FDCAN_DLC_BYTES_` constant. -/
structure RxHeader where
  identifier : UInt32
  extendedId : Bool
  rxFrameType : RxFrameType
  dataLength : Fin 16
  errorPassive : Bool
  bitRateSwitch : Bool
  fdFormat : Bool
  rxTimestamp : UInt32
  deriving DecidableEq

structure RxMessage where
  header : RxHeader
  data : Vector UInt8 64
  deriving DecidableEq

def dlcAndLength : Nat → UInt16 × UInt16
  | 0 => (0, 0)
  | 1 => (1, 1)
  | 2 => (2, 2)
  | 3 => (3, 3)
  | 4 => (4, 4)
  | 5 => (5, 5)
  | 6 => (6, 6)
  | 7 => (7, 7)
  | 8 => (8, 8)
  | 9 => (9, 12)
  | 10 => (10, 16)
  | 11 => (11, 20)
  | 12 => (12, 24)
  | 13 => (13, 32)
  | 14 => (14, 48)
  | 15 => (15, 64)
  | _ => (0, 0)

def flagBit (b : Bool) : UInt16 := if b then 1 else 0

def packFlags (h : RxHeader) : UInt16 :=
  let flags := 0
  let flags := FlagField.brs.set (flagBit h.bitRateSwitch) flags
  let flags := FlagField.esi.set (flagBit h.errorPassive) flags
  let flags := FlagField.ide.set (flagBit h.extendedId) flags
  let flags := FlagField.fdf.set (flagBit h.fdFormat) flags
  let flags := FlagField.dlc.set (dlcAndLength h.dataLength).1 flags
  FlagField.dataLen.set (dlcAndLength h.dataLength).2 flags

theorem get_packFlags_aux : ∀ (brs esi ide fdf : Bool) (dlc : Fin 16),
    let flags := packFlags ⟨0, ide, .data, dlc, esi, brs, fdf, 0⟩
    FlagField.brs.get flags = flagBit brs ∧ FlagField.esi.get flags = flagBit esi ∧
      FlagField.ide.get flags = flagBit ide ∧ FlagField.fdf.get flags = flagBit fdf ∧
      FlagField.dlc.get flags = (dlcAndLength dlc).1 ∧
      FlagField.dataLen.get flags = (dlcAndLength dlc).2 := by
  decide +kernel

theorem get_packFlags (h : RxHeader) :
    FlagField.brs.get (packFlags h) = flagBit h.bitRateSwitch ∧
      FlagField.esi.get (packFlags h) = flagBit h.errorPassive ∧
      FlagField.ide.get (packFlags h) = flagBit h.extendedId ∧
      FlagField.fdf.get (packFlags h) = flagBit h.fdFormat ∧
      FlagField.dlc.get (packFlags h) = (dlcAndLength h.dataLength).1 ∧
      FlagField.dataLen.get (packFlags h) = (dlcAndLength h.dataLength).2 :=
  get_packFlags_aux h.bitRateSwitch h.errorPassive h.extendedId h.fdFormat h.dataLength

theorem dataLen_packFlags_le (h : RxHeader) :
    (FlagField.dataLen.get (packFlags h)).toNat ≤ 64 := by
  obtain ⟨-, -, -, -, -, hlen⟩ := get_packFlags h
  rw [hlen]
  have (c : Fin 16) : (dlcAndLength c).2.toNat ≤ 64 := by
    revert c
    decide +kernel
  exact this _

/-- The frame after the call, and the bytes the call stored behind the end of its `data`. -/
structure FdcanReadResult where
  status : CommStatus
  frame : ClassicFrame
  overrun : List UInt8

/-- `notified` is the test of `RxFifo0ITs`, `rx` and `activated` are the HAL's answers. -/
def fdcanRead (frame : ClassicFrame) (notified : Bool) (rx : Option RxMessage)
    (activated : Bool) : FdcanReadResult :=
  if notified then
    match rx with
    | none => ⟨.error, frame, []⟩
    | some m =>
      let dlcDlFlags := packFlags m.header
      let payloadLen := (FlagField.dataLen.get dlcDlFlags).toNat
      let payloadLen := if 64 < payloadLen then 64 else payloadLen
      { status := if activated then .success else .error
        frame := { frame with
          id := m.header.identifier
          timestamp := m.header.rxTimestamp
          dlcDlFlags
          data := .ofFn fun i => if i < payloadLen then m.data[i] else frame.data[i] }
        overrun := (m.data.toList.take payloadLen).drop 8 }
  else ⟨.success, frame, []⟩

theorem fits_fdcanRead (frame : ClassicFrame) (m : RxMessage) (activated : Bool) :
    (fdcanRead frame true (some m) activated).frame.Fits := dataLen_packFlags_le m.header

end CanSniffer.Drivers
