import CanSniffer.Drivers.CommTypes
import CanSniffer.Logging.CanLogEntry

namespace CanSniffer.Logging

open Drivers

/-- `CAN_FLAG_IDE_Pos`, `CAN_FLAG_RTR_FDF_Pos`, `CAN_FLAG_BRS_Pos` and `CAN_FLAG_ESI_Pos`. -/
def canFlags (f : ClassicFrame) : UInt8 :=
  (FlagField.brs.get f.dlcDlFlags <<< 6 ||| FlagField.esi.get f.dlcDlFlags <<< 7 |||
    FlagField.fdf.get f.dlcDlFlags <<< 5 ||| FlagField.ide.get f.dlcDlFlags <<< 4).toUInt8

def makeDlcFlags (dlc flags : UInt8) : UInt8 := (dlc &&& 0x0F) ||| (flags &&& 0xF0)

theorem length_copied {f : ClassicFrame} (h : f.Fits) (beyond : Vector UInt8 56) :
    ((f.data ++ beyond).toList.take f.dataLen.toNat).length = f.dataLen.toNat := by
  rw [List.length_take, Vector.length_toList, Nat.min_eq_left]
  exact h

/-- `beyond` is what lies behind the frame's eight data bytes when they are copied. -/
def appCanLogFillEntry (frame : ClassicFrame) (fits : frame.Fits) (beyond : Vector UInt8 56)
    (timestamp : UInt32) (channel : UInt8) : FrameEntry where
  header := {
    type := clbEntryTypeFrame
    headerLen := 3
    totalLen := .ofNat (sizeofCanLogEntryType + frame.dataLen.toNat) }
  timestamp := timestamp
  canId := frame.id
  channel := channel
  dlcFlags := makeDlcFlags frame.dlc.toUInt8 (canFlags frame)
  dataLen := frame.dataLen.toUInt8
  data := (frame.data ++ beyond).toList.take frame.dataLen.toNat
  type_eq := rfl
  total_len := by
    rw [length_copied fits]
    simp only [UInt8.toNat_ofNat', sizeofCanLogEntryType, ClassicFrame.Fits] at *
    omega
  data_len := by
    rw [length_copied fits]
    simp only [UInt16.toNat_toUInt8, ClassicFrame.Fits] at *
    omega
  data_le := by
    rw [length_copied fits]
    exact fits

end CanSniffer.Logging
