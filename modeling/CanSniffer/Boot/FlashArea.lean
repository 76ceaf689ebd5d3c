import CanSniffer.Drivers.Flash

/-! The flash areas of the bootloader (`mcuboot_port.c`, `bootloader_flash.c`), in the
overwrite-only layout.  A failed assertion stops the program if assertions are compiled in. -/

namespace CanSniffer.Boot

open Drivers

def flashSectorSize : UInt32 := 0x20000

/-- The device the bootloader is linked for; `deviceBaseAddr` is `FLASH_DEVICE_BASE_ADDR`. -/
structure BootFlash where
  device : FlashDevice
  deviceBaseAddr : UInt32
  base_eq : deviceBaseAddr = device.base
  sector_eq : device.sectorSize = flashSectorSize

theorem stm32h745_base : 0x08000000 = stm32h745.base := rfl

theorem stm32h745_sectorSize : stm32h745.sectorSize = flashSectorSize := rfl

def stm32h745Boot : BootFlash where
  device := stm32h745
  deviceBaseAddr := 0x08000000
  base_eq := stm32h745_base
  sector_eq := stm32h745_sectorSize

/-- Where an area lies in the device: whole sectors. -/
structure FlashExtent (b : BootFlash) where
  faOff : UInt32
  faSize : UInt32
  inside : b.device.base.toNat + faOff.toNat + faSize.toNat ≤ b.device.last.toNat + 1
  off_aligned : flashSectorSize.toNat ∣ faOff.toNat
  size_aligned : flashSectorSize.toNat ∣ faSize.toNat

structure FlashArea (b : BootFlash) extends FlashExtent b where
  faId : UInt8
  faDeviceId : UInt8

structure FlashSector where
  fsOff : UInt32
  fsSize : UInt32
  deriving DecidableEq, Repr

/-- The extents that the linker script gives the three areas. -/
structure FlashLayout (b : BootFlash) where
  bootloader : FlashExtent b
  primaryImg0 : FlashExtent b
  secondaryImg0 : FlashExtent b

def linkerLayout : FlashLayout stm32h745Boot where
  bootloader := ⟨0, 0x20000, by decide, by decide, by decide⟩
  primaryImg0 := ⟨0x20000, 0x60000, by decide, by decide, by decide⟩
  secondaryImg0 := ⟨0x80000, 0x60000, by decide, by decide, by decide⟩

def flashDeviceInternalFlash : UInt8 := 0

def FlashLayout.areas {b : BootFlash} (l : FlashLayout b) : List (FlashArea b) :=
  [{ l.bootloader with faId := 0, faDeviceId := flashDeviceInternalFlash },
    { l.primaryImg0 with faId := 1, faDeviceId := flashDeviceInternalFlash },
    { l.secondaryImg0 with faId := 2, faDeviceId := flashDeviceInternalFlash }]

/-- What a function of the port leaves: the driver, the ranges read through a pointer into the
flash, and its result; no result is a failed assertion. -/
structure AreaResult where
  state : FlashState
  reads : List (UInt32 × UInt32)
  res : Option Int

namespace FlashArea

variable {b : BootFlash}

/-- `boot_internal_flash_read`; true is `BTL_E_OK`.  The copy goes to the buffer `dst`. -/
def bootInternalFlashRead (b : BootFlash) (s : FlashState) (addr dst len : UInt32) :
    FlashState × Bool :=
  match s.flashRead b.device addr dst len with
  | .ok =>
    ({ s with mem := fun a =>
        if dst.toNat ≤ a ∧ a < dst.toNat + len.toNat then s.mem (addr.toNat + (a - dst.toNat))
        else s.mem a }, true)
  | _ => (s, false)

/-- `boot_internal_flash_write`; false is a failed assertion. -/
def bootInternalFlashWrite (hal : FlashHal b.device) (asserts : Bool) (s : FlashState)
    (addr src len : UInt32) : Option (FlashState × Bool) :=
  (s.flashWrite hal addr src len).map fun r => (r.1, !asserts || r.2 = .ok)

/-- `boot_internal_flash_erase_sector`; false is a failed assertion. -/
def bootInternalFlashEraseSector (hal : FlashHal b.device) (asserts : Bool) (s : FlashState)
    (addr : UInt32) : Option (FlashState × Bool) :=
  let s := s.ensureInit b.device
  (s.flashErase hal addr (s.info b.device).sectorSize).map fun r => (r.1, !asserts || r.2 = .ok)

def flashAreaRead (s : FlashState) (fa : FlashArea b) (off dst len : UInt32) : AreaResult :=
  if dst = 0 then ⟨s, [], some (-1)⟩
  else if fa.faDeviceId ≠ flashDeviceInternalFlash then ⟨s, [], some (-1)⟩
  else if fa.faSize < off ∨ fa.faSize - off < len then ⟨s, [], some (-1)⟩
  else
    let addr := b.deviceBaseAddr + fa.faOff + off
    match bootInternalFlashRead b s addr dst len with
    | (t, true) => ⟨t, [(addr, len)], some 0⟩
    | (t, false) => ⟨t, [], some (-1)⟩

def sameBytes (mem : Memory) (addr src len : UInt32) : Bool :=
  (List.range len.toNat).all fun i => mem (addr.toNat + i) == mem (src.toNat + i)

def flashAreaWrite (hal : FlashHal b.device) (asserts : Bool) (s : FlashState) (fa : FlashArea b)
    (off src len : UInt32) : Option AreaResult :=
  if src = 0 then some ⟨s, [], some (-1)⟩
  else if fa.faDeviceId ≠ flashDeviceInternalFlash then some ⟨s, [], some (-1)⟩
  else if fa.faSize < off ∨ fa.faSize - off < len then some ⟨s, [], some (-1)⟩
  else
    let addr := b.deviceBaseAddr + fa.faOff + off
    (bootInternalFlashWrite hal asserts s addr src len).map fun r =>
      if r.2 then
        -- the program is only noticed to have failed when it is read back
        ⟨r.1, [(addr, len)], some (if sameBytes r.1.mem addr src len then 0 else -1)⟩
      else ⟨r.1, [], none⟩

def eraseSectors (hal : FlashHal b.device) (asserts : Bool) (startAddr len : UInt32) :
    Nat → UInt32 → FlashState → Option (FlashState × Bool)
  | 0, _, _ => none
  | fuel + 1, i, s =>
    if i < len then do
      let (t, returns) ← bootInternalFlashEraseSector hal asserts s (startAddr + i)
      if returns then eraseSectors hal asserts startAddr len fuel (i + flashSectorSize) t
      else some (t, false)
    else some (s, true)

def allErased (mem : Memory) (addr len : UInt32) : Bool :=
  (List.range len.toNat).all fun i => mem (addr.toNat + i) == 0xFF

def flashAreaErase (hal : FlashHal b.device) (asserts : Bool) (s : FlashState) (fa : FlashArea b)
    (off len : UInt32) : Option AreaResult :=
  if fa.faDeviceId ≠ flashDeviceInternalFlash then some ⟨s, [], some (-1)⟩
  else if len % flashSectorSize ≠ 0 ∨ off % flashSectorSize ≠ 0 then some ⟨s, [], some (-1)⟩
  else if 0xFFFFFFFF - len < off ∨ fa.faSize < off + len ∨ off % flashSectorSize ≠ 0 then
    some ⟨s, [], some (-1)⟩
  else
    let startAddr := b.deviceBaseAddr + fa.faOff + off
    (eraseSectors hal asserts startAddr len (len.toNat + 1) 0 s).map fun r =>
      if r.2 then
        ⟨r.1, [(startAddr, len)], some (if allErased r.1.mem startAddr len then 0 else -1)⟩
      else ⟨r.1, [], none⟩

def lookup (l : FlashLayout b) (id : Int) : Option (FlashArea b) :=
  l.areas.find? fun area => id = area.faId.toNat

/-- `flash_area_get_sectors`: the new `*count` and what is stored in `sectors`, which is asked for
or a null pointer. -/
def flashAreaGetSectors (l : FlashLayout b) (id : Int) (count : Option UInt32) (sectors : Bool) :
    Option (UInt32 × List FlashSector) :=
  match lookup l id, count with
  | some fa, some count =>
    if fa.faDeviceId ≠ flashDeviceInternalFlash then none
    else
      let totalCount := fa.faSize / flashSectorSize
      if sectors = false then some (totalCount, [])
      else if count < totalCount then none
      else
        some (totalCount, (List.range totalCount.toNat).map fun i =>
          ⟨UInt32.ofNat i * flashSectorSize, flashSectorSize⟩)
  | _, _ => none

/-- `Flash_GetSectorByAddr`: the offset in the device and the size. -/
def flashGetSectorByAddr (d : FlashDevice) (s : FlashState) (addr : UInt32) :
    Option (UInt32 × UInt32) :=
  if addr < d.base ∨ d.base + d.size ≤ addr then none
  else
    let devOff := addr - d.base
    let sectorSize := (s.info d).sectorSize
    some (devOff / sectorSize * sectorSize, sectorSize)

/-- `flash_area_get_sector`; `none` is its result -1. -/
def flashAreaGetSector (s : FlashState) (fa : FlashArea b) (off : Int) : Option FlashSector :=
  if off < 0 then none
  else if 0xFFFFFFFF < off ∨ (fa.faSize.toNat : Int) ≤ off then none
  else
    let sectorAbsAddr := b.deviceBaseAddr + fa.faOff + UInt32.ofNat off.toNat
    (flashGetSectorByAddr b.device s sectorAbsAddr).map fun sector =>
      ⟨sector.1 - fa.faOff, sector.2⟩

end FlashArea

end CanSniffer.Boot
