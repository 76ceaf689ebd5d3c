namespace CanSniffer.Drivers

inductive CommStatus
  | success
  | error
  | invalidState
  | noRxSlot
  | invalidParameter
  deriving DecidableEq, Repr

inductive Channel
  | can1
  | can2
  deriving DecidableEq, Repr

def Channel.number : Channel → UInt8
  | .can1 => 1
  | .can2 => 2

/-- Where a value lies in `dlc_dl_flags`: the `_POS` and `_MASK` of its macros. -/
structure FlagField where
  pos : UInt16
  mask : UInt16

namespace FlagField

def dlc : FlagField := ⟨0, 0x000F⟩
def dataLen : FlagField := ⟨4, 0x07F0⟩
def fdf : FlagField := ⟨11, 0x0800⟩
def brs : FlagField := ⟨12, 0x1000⟩
def esi : FlagField := ⟨13, 0x2000⟩
def ide : FlagField := ⟨14, 0x4000⟩

def get (f : FlagField) (flags : UInt16) : UInt16 := (flags &&& f.mask) >>> f.pos

def set (f : FlagField) (val flags : UInt16) : UInt16 :=
  (flags &&& ~~~f.mask) ||| ((val <<< f.pos) &&& f.mask)

end FlagField

/-- `FDCAN_ClassicFrameType`; a local variable that nothing has set may hold anything. -/
structure ClassicFrame where
  id : UInt32
  timestamp : UInt32
  rxSequence : UInt32
  dlcDlFlags : UInt16
  channel : UInt8
  data : Vector UInt8 8
  deriving DecidableEq

namespace ClassicFrame

def dlc (f : ClassicFrame) : UInt16 := FlagField.dlc.get f.dlcDlFlags
def dataLen (f : ClassicFrame) : UInt16 := FlagField.dataLen.get f.dlcDlFlags

def zero : ClassicFrame where
  id := 0
  timestamp := 0
  rxSequence := 0
  dlcDlFlags := 0
  channel := 0
  data := .replicate 8 0

def Fits (f : ClassicFrame) : Prop := f.dataLen.toNat ≤ 64

end ClassicFrame

end CanSniffer.Drivers
