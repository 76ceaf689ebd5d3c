/-! Erasing and programming the internal flash (`flash.c`).  The device header and the HAL are
parameters; addresses are those of the whole 32-bit address space.  `HAL_FLASH_Unlock` changes
nothing that is modelled. -/

namespace CanSniffer.Drivers

/-- What the device header defines: `FLASH_BASE`, `FLASH_END`, `FLASH_SIZE`, `FLASH_SECTOR_SIZE`,
the two bank bases and `FLASH_NB_32BITWORD_IN_FLASHWORD`. -/
structure FlashDevice where
  base : UInt32
  last : UInt32
  size : UInt32
  sectorSize : UInt32
  bank1Base : UInt32
  bank2Base : UInt32
  wordsInFlashword : UInt32
  size_eq : size.toNat = last.toNat + 1 - base.toNat
  last_lt : last.toNat + 1 < UInt32.size
  sector_pos : 0 < sectorSize.toNat
  bank1_eq : bank1Base = base
  bank2_ge : base.toNat ≤ bank2Base.toNat
  bank2_le : bank2Base.toNat ≤ last.toNat
  base_aligned : sectorSize.toNat ∣ base.toNat
  bank2_aligned : sectorSize.toNat ∣ bank2Base.toNat
  word_pos : 0 < wordsInFlashword.toNat
  word_small : wordsInFlashword.toNat * 32 < UInt32.size

/-- The STM32H745: two banks of eight sectors of 128 KiB, flash words of 32 bytes. -/
def stm32h745 : FlashDevice where
  base := 0x08000000
  last := 0x081FFFFF
  size := 0x00200000
  sectorSize := 0x00020000
  bank1Base := 0x08000000
  bank2Base := 0x08100000
  wordsInFlashword := 8
  size_eq := rfl
  last_lt := by decide
  sector_pos := by decide
  bank1_eq := rfl
  bank2_ge := by decide
  bank2_le := by decide
  base_aligned := by decide
  bank2_aligned := by decide
  word_pos := by decide
  word_small := by decide

inductive FlashStatus
  | ok
  | range
  | align
  | hw
  | param
  deriving DecidableEq, Repr

/-- `FlashInfoType`, zero until `Flash_Init`. -/
structure FlashInfo where
  baseAddr : UInt32
  endAddr : UInt32
  totalSize : UInt32
  writeAlignment : UInt32
  eraseSizeMin : UInt32
  progSizeMin : UInt32
  sectorSize : UInt32
  sourceAlignment : UInt32
  deriving DecidableEq, Repr

def FlashInfo.zero : FlashInfo := ⟨0, 0, 0, 0, 0, 0, 0, 0⟩

def FlashDevice.flashwordSize (d : FlashDevice) : UInt32 := d.wordsInFlashword * 4

def FlashInfo.init (d : FlashDevice) : FlashInfo where
  baseAddr := d.base
  endAddr := d.last + 1
  totalSize := d.last - d.base + 1
  writeAlignment := d.flashwordSize
  eraseSizeMin := d.sectorSize
  progSizeMin := d.wordsInFlashword * 32 / 8
  sectorSize := d.sectorSize
  sourceAlignment := 4

inductive FlashBank
  | bank1
  | bank2
  deriving DecidableEq, Repr

/-- A call of `HAL_FLASHEx_Erase` for one sector, or of `HAL_FLASH_Program` for one flash word. -/
inductive HalCall
  | erase (banks : FlashBank) (sector : UInt32)
  | program (flashAddress dataAddress : UInt32)
  deriving DecidableEq, Repr

abbrev Memory := Nat → UInt8

def HalCall.Touches (d : FlashDevice) : HalCall → Nat → Prop
  | .erase .bank1 sector, a =>
    d.bank1Base.toNat + sector.toNat * d.sectorSize.toNat ≤ a ∧
      a < d.bank1Base.toNat + (sector.toNat + 1) * d.sectorSize.toNat
  | .erase .bank2 sector, a =>
    d.bank2Base.toNat + sector.toNat * d.sectorSize.toNat ≤ a ∧
      a < d.bank2Base.toNat + (sector.toNat + 1) * d.sectorSize.toNat
  | .program flashAddress _, a =>
    flashAddress.toNat ≤ a ∧ a < flashAddress.toNat + d.flashwordSize.toNat

/-- The HAL: what the call with this number does to the memory, and whether it answers `HAL_OK`.
It leaves alone what the call does not name. -/
structure FlashHal (d : FlashDevice) where
  act : Nat → Memory → HalCall → Memory × Bool
  frame : ∀ k m call a, ¬ call.Touches d a → (act k m call).1 a = m a

instance (d : FlashDevice) : (call : HalCall) → (a : Nat) → Decidable (call.Touches d a)
  | .erase .bank1 _, _ => inferInstanceAs (Decidable (_ ∧ _))
  | .erase .bank2 _, _ => inferInstanceAs (Decidable (_ ∧ _))
  | .program _ _, _ => inferInstanceAs (Decidable (_ ∧ _))

/-- A flash that works: erasing sets every bit, programming clears bits. -/
def FlashHal.working (d : FlashDevice) : FlashHal d where
  act _ m call :=
    (fun a =>
      if call.Touches d a then
        match call with
        | .erase _ _ => 0xFF
        | .program flashAddress dataAddress =>
          m a &&& m (dataAddress.toNat + (a - flashAddress.toNat))
      else m a, true)
  frame _ _ _ _ h := if_neg h

/-- Whether `Flash_Init` has stored `Info`, the memory, and the HAL calls so far with their
answers. -/
structure FlashState where
  initialized : Bool
  mem : Memory
  calls : List (HalCall × Bool)

inductive FlashAccess
  | read
  | write
  | erase
  deriving DecidableEq, Repr

namespace FlashState

def addressCheck (info : FlashInfo) (addr len : UInt32) (type : FlashAccess) : FlashStatus :=
  if 0 = len then .param
  else if addr < info.baseAddr ∨ info.totalSize < len then .range
  else if 0xFFFFFFFF - len < addr ∨ info.endAddr < addr + len then .range
  else
    match type with
    | .read => .ok
    | .write =>
      if addr % info.writeAlignment ≠ 0 ∨ info.progSizeMin = 0 then .param
      else if addr % info.progSizeMin ≠ 0 ∨ len % info.progSizeMin ≠ 0 then .align
      else .ok
    | .erase =>
      if addr % info.eraseSizeMin ≠ 0 ∨ len < info.eraseSizeMin ∨ len % info.sectorSize ≠ 0 then
        .align
      else .ok

def info (d : FlashDevice) (s : FlashState) : FlashInfo :=
  if s.initialized then .init d else .zero

def flashInit (s : FlashState) : FlashState := { s with initialized := true }

/-- The lazy call of `Flash_Init` in `Flash_GetInfo` and `Flash_Erase`. -/
def ensureInit (d : FlashDevice) (s : FlashState) : FlashState :=
  if (s.info d).totalSize = 0 then s.flashInit else s

variable {d : FlashDevice}

def halCall (hal : FlashHal d) (s : FlashState) (call : HalCall) : FlashState × Bool :=
  let r := hal.act s.calls.length s.mem call
  ({ s with mem := r.1, calls := s.calls ++ [(call, r.2)] }, r.2)

/-- What `EraseInitStruct` is set to; `none` is an address in no bank. -/
def eraseInit (d : FlashDevice) (sectorSize addr : UInt32) : Option HalCall :=
  if d.bank1Base ≤ addr ∧ addr < d.bank2Base then
    some (.erase .bank1 ((addr - d.bank1Base) / sectorSize))
  else if d.bank2Base ≤ addr ∧ addr ≤ d.last then
    some (.erase .bank2 ((addr - d.bank2Base) / sectorSize))
  else none

def eraseSector (hal : FlashHal d) (s : FlashState) (addr : UInt32) : FlashState × FlashStatus :=
  let info := s.info d
  match addressCheck info addr info.sectorSize .erase with
  | .ok =>
    if 0xFFFFFFFF - info.sectorSize < addr ∨ info.endAddr < addr + info.sectorSize then (s, .range)
    else
      match eraseInit d info.sectorSize addr with
      | none => (s, .param)
      | some call =>
        let (t, ok) := s.halCall hal call
        (t, if ok then .ok else .hw)
  | e => (s, e)

def eraseLoop (hal : FlashHal d) (addr len sectorSize : UInt32) :
    Nat → UInt32 → FlashState → Option (FlashState × FlashStatus)
  | 0, _, _ => none
  | fuel + 1, off, s =>
    if off < len then
      match s.eraseSector hal (addr + off) with
      | (t, .ok) => eraseLoop hal addr len sectorSize fuel (off + sectorSize) t
      | (t, e) => some (t, e)
    else some (s, .ok)

def flashErase (hal : FlashHal d) (s : FlashState) (addr len : UInt32) :
    Option (FlashState × FlashStatus) :=
  let s := s.ensureInit d
  match addressCheck (s.info d) addr len .erase with
  | .ok => eraseLoop hal addr len (s.info d).sectorSize (len.toNat + 1) 0 s
  | e => some (s, e)

def writeLoop (hal : FlashHal d) (addr len source : UInt32) :
    Nat → UInt32 → Bool → FlashState → Option (FlashState × Bool)
  | 0, _, _, _ => none
  | fuel + 1, off, ok, s =>
    if off < len then
      match s.halCall hal (.program (addr + off) (source + off)) with
      | (t, true) => writeLoop hal addr len source fuel (off + d.flashwordSize) true t
      | (t, false) => some (t, false)
    else some (s, ok)

/-- `Flash_Write`; a null `src` is the address 0. -/
def flashWrite (hal : FlashHal d) (s : FlashState) (addr src len : UInt32) :
    Option (FlashState × FlashStatus) :=
  match addressCheck (s.info d) addr len .write with
  | .ok =>
    if src = 0 then some (s, .param)
    else if src % (s.info d).sourceAlignment ≠ 0 ∨ len % (s.info d).progSizeMin ≠ 0 ∨
        len % d.flashwordSize ≠ 0 then some (s, .align)
    else
      (writeLoop hal addr len src (len.toNat + 1) 0 false s).map fun r =>
        (r.1, if r.2 then .ok else .hw)
  | e => some (s, e)

/-- What `Flash_Read` returns; the copy itself is no part of the state. -/
def flashRead (d : FlashDevice) (s : FlashState) (addr dst len : UInt32) : FlashStatus :=
  match addressCheck (s.info d) addr len .read with
  | .ok => if dst = 0 then .param else .ok
  | e => e

end FlashState

end CanSniffer.Drivers
