import CanSniffer.Boot.FlashArea
import CanSniffer.Drivers.FlashLaws

namespace CanSniffer.Boot

open Drivers

def FlashSector.Contains (sector : FlashSector) (off : Int) : Prop :=
  sector.fsOff.toNat ≤ off ∧ off < sector.fsOff.toNat + sector.fsSize.toNat

namespace FlashArea

open FlashState (Within)

variable {b : BootFlash} {hal : FlashHal b.device} {asserts : Bool} {s t : FlashState}
  {fa : FlashArea b} {off src dst len : UInt32}

def lo (fa : FlashArea b) : Nat := b.device.base.toNat + fa.faOff.toNat

def hi (fa : FlashArea b) : Nat := fa.lo + fa.faSize.toNat

/-- What a call for a range may leave: a range that leaves the area is refused with nothing done,
and only addresses of the area are changed or read. -/
structure Confined (fa : FlashArea b) (s : FlashState) (off len : UInt32) (r : AreaResult) :
    Prop where
  refuses : fa.faSize.toNat < off.toNat + len.toNat → r = ⟨s, [], some (-1)⟩
  within : Within b.device fa.lo fa.hi s r.state
  reads : ∀ range ∈ r.reads, fa.lo ≤ range.1.toNat ∧ range.1.toNat + range.2.toNat ≤ fa.hi

theorem hi_lt (fa : FlashArea b) : fa.hi < 4294967296 := by
  have hlast := b.device.last_lt
  have hinside := fa.inside
  simp only [UInt32.size] at hlast
  rw [hi, lo]
  omega

theorem toNat_addr (h : off.toNat ≤ fa.faSize.toNat) :
    (b.deviceBaseAddr + fa.faOff + off).toNat = fa.lo + off.toNat := by
  have hlt := fa.hi_lt
  rw [hi, lo] at hlt
  rw [b.base_eq, UInt32.toNat_add, UInt32.toNat_add, lo]
  omega

theorem fits_iff (size off len : UInt32) :
    (size < off ∨ size - off < len) ↔ size.toNat < off.toNat + len.toNat := by
  by_cases h : off ≤ size
  · have hle := UInt32.le_iff_toNat_le.mp h
    rw [UInt32.lt_iff_toNat_lt, UInt32.lt_iff_toNat_lt, UInt32.toNat_sub_of_le _ _ h]
    omega
  · have hlt := UInt32.lt_iff_toNat_lt.mp (UInt32.not_le.mp h)
    simp only [UInt32.not_le.mp h, true_or, true_iff]
    omega

theorem fits_iff' (size off len : UInt32) :
    (0xFFFFFFFF - len < off ∨ size < off + len) ↔ size.toNat < off.toNat + len.toNat := by
  have hmax : (0xFFFFFFFF : UInt32).toNat = 4294967295 := rfl
  have hlen := len.toNat_lt
  have hoff := off.toNat_lt
  have hsize := size.toNat_lt
  have hle : len ≤ (0xFFFFFFFF : UInt32) := by
    rw [UInt32.le_iff_toNat_le, hmax]
    omega
  rw [UInt32.lt_iff_toNat_lt, UInt32.lt_iff_toNat_lt, UInt32.toNat_sub_of_le _ _ hle,
    UInt32.toNat_add, hmax]
  omega

theorem Confined.refused (fa : FlashArea b) (s : FlashState) (off len : UInt32) :
    Confined fa s off len ⟨s, [], some (-1)⟩ :=
  ⟨fun _ => rfl, .refl _ _ _ s, by simp⟩

theorem sameBytes_iff (mem : Memory) (addr src len : UInt32) :
    sameBytes mem addr src len = true ↔
      ∀ i, i < len.toNat → mem (addr.toNat + i) = mem (src.toNat + i) := by
  simp [sameBytes]

theorem allErased_iff (mem : Memory) (addr len : UInt32) :
    allErased mem addr len = true ↔ ∀ i, i < len.toNat → mem (addr.toNat + i) = 0xFF := by
  simp [allErased]

/-- What `flash_area_read` may leave: besides the buffer nothing is changed. -/
structure Copies (fa : FlashArea b) (s : FlashState) (off dst len : UInt32) (r : AreaResult) :
    Prop where
  refuses : fa.faSize.toNat < off.toNat + len.toNat → r = ⟨s, [], some (-1)⟩
  calls : r.state.calls = s.calls
  keeps : r.state.initialized = s.initialized
  mem : ∀ a, ¬ (dst.toNat ≤ a ∧ a < dst.toNat + len.toNat) → r.state.mem a = s.mem a
  reads : ∀ range ∈ r.reads, fa.lo ≤ range.1.toNat ∧ range.1.toNat + range.2.toNat ≤ fa.hi
  copies : r.res = some 0 →
    ∀ i, i < len.toNat → r.state.mem (dst.toNat + i) = s.mem (fa.lo + off.toNat + i)

theorem Copies.refused (fa : FlashArea b) (s : FlashState) (off dst len : UInt32) :
    Copies fa s off dst len ⟨s, [], some (-1)⟩ :=
  ⟨fun _ => rfl, rfl, rfl, fun _ _ => rfl, by simp, by simp⟩

theorem flashAreaRead_copies (s : FlashState) (fa : FlashArea b) (off dst len : UInt32) :
    Copies fa s off dst len (flashAreaRead s fa off dst len) := by
  unfold flashAreaRead
  split
  · exact .refused fa s off dst len
  · split
    · exact .refused fa s off dst len
    · split
      · exact .refused fa s off dst len
      · rename_i hbounds
        rw [fits_iff] at hbounds
        have haddr : (b.deviceBaseAddr + fa.faOff + off).toNat = fa.lo + off.toNat :=
          toNat_addr (by omega)
        simp only [bootInternalFlashRead]
        cases hread : s.flashRead b.device (b.deviceBaseAddr + fa.faOff + off) dst len with
        | ok =>
          refine ⟨fun h => absurd h hbounds, rfl, rfl, fun a ha => if_neg ha, ?_, ?_⟩
          · intro range hrange
            rw [List.mem_singleton.mp hrange]
            simp only [haddr, hi]
            omega
          · intro _ i hi
            have hin : dst.toNat ≤ dst.toNat + i ∧ dst.toNat + i < dst.toNat + len.toNat := by
              omega
            simp only [if_pos hin, haddr, Nat.add_sub_cancel_left]
        | range => exact .refused fa s off dst len
        | align => exact .refused fa s off dst len
        | hw => exact .refused fa s off dst len
        | param => exact .refused fa s off dst len

theorem flashAreaWrite_spec (hal : FlashHal b.device) (asserts : Bool) (s : FlashState)
    (fa : FlashArea b) (off src len : UInt32) :
    ∃ r, flashAreaWrite hal asserts s fa off src len = some r ∧ Confined fa s off len r ∧
      (r.res = some 0 → ∀ i, i < len.toNat →
        r.state.mem (fa.lo + off.toNat + i) = r.state.mem (src.toNat + i)) := by
  have hrefused : Confined fa s off len ⟨s, [], some (-1)⟩ := .refused fa s off len
  unfold flashAreaWrite
  split
  · exact ⟨_, rfl, hrefused, by simp⟩
  · split
    · exact ⟨_, rfl, hrefused, by simp⟩
    · split
      · exact ⟨_, rfl, hrefused, by simp⟩
      · rename_i hbounds
        rw [fits_iff] at hbounds
        have haddr : (b.deviceBaseAddr + fa.faOff + off).toNat = fa.lo + off.toNat :=
          toNat_addr (by omega)
        obtain ⟨t, status, hwrite, -⟩ :=
          FlashState.flashWrite_spec hal s (b.deviceBaseAddr + fa.faOff + off) src len
        have hwithin : Within b.device fa.lo fa.hi s t := by
          refine (FlashState.flashWrite_within hwrite).mono ?_ ?_
          · omega
          · rw [hi]
            omega
        simp only [bootInternalFlashWrite, hwrite, Option.map_some]
        split
        · refine ⟨_, rfl, ⟨fun h => absurd h hbounds, hwithin, ?_⟩, ?_⟩
          · intro range hrange
            rw [List.mem_singleton.mp hrange]
            simp only [haddr, hi]
            omega
          · intro hres
            rw [← haddr, ← sameBytes_iff]
            by_contra hdiff
            simp [hdiff] at hres
        · exact ⟨_, rfl, ⟨fun h => absurd h hbounds, hwithin, by simp⟩, by simp⟩

theorem toNat_flashSectorSize : flashSectorSize.toNat = 0x20000 := rfl

theorem bootInternalFlashEraseSector_spec (hal : FlashHal b.device) (asserts : Bool)
    (s : FlashState) (addr : UInt32) :
    ∃ t returns, bootInternalFlashEraseSector hal asserts s addr = some (t, returns) ∧
      Within b.device addr.toNat (addr.toNat + flashSectorSize.toNat) s t := by
  have hsize : (s.flashInit.info b.device).sectorSize = flashSectorSize := by
    rw [FlashState.info_of_initialized rfl]
    exact b.sector_eq
  obtain ⟨t, status, herase, -⟩ :=
    FlashState.flashErase_spec hal s.flashInit addr flashSectorSize
  refine ⟨t, !asserts || status = .ok, ?_,
    (Within.flashInit _ _ _ s).trans (FlashState.flashErase_within herase)⟩
  simp only [bootInternalFlashEraseSector, FlashState.ensureInit_eq, hsize, herase,
    Option.map_some]

theorem eraseSectors_spec (hal : FlashHal b.device) (asserts : Bool) (startAddr : UInt32)
    (hend : startAddr.toNat + len.toNat < 4294967296) (hlen : flashSectorSize.toNat ∣ len.toNat)
    (fuel : Nat) {i : UInt32} (hi : flashSectorSize.toNat ∣ i.toNat) (hle : i.toNat ≤ len.toNat)
    (hfuel : len.toNat < i.toNat + fuel) (s : FlashState) :
    ∃ t returns, eraseSectors hal asserts startAddr len fuel i s = some (t, returns) ∧
      Within b.device startAddr.toNat (startAddr.toNat + len.toNat) s t := by
  induction fuel generalizing i s with
  | zero => omega
  | succ fuel ih =>
    rw [toNat_flashSectorSize] at hlen hi
    rw [eraseSectors]
    split
    · rename_i hlt
      rw [UInt32.lt_iff_toNat_lt] at hlt
      have hstep : i.toNat + 0x20000 ≤ len.toNat := by omega
      have haddr : (startAddr + i).toNat = startAddr.toNat + i.toNat := by
        rw [UInt32.toNat_add]
        omega
      have hnext : (i + flashSectorSize).toNat = i.toNat + 0x20000 := by
        rw [UInt32.toNat_add, toNat_flashSectorSize]
        omega
      obtain ⟨t, returns, herase, hwithin⟩ :=
        bootInternalFlashEraseSector_spec hal asserts s (startAddr + i)
      rw [haddr, toNat_flashSectorSize] at hwithin
      have hsector : Within b.device startAddr.toNat (startAddr.toNat + len.toNat) s t :=
        hwithin.mono (by omega) (by omega)
      cases returns with
      | true =>
        obtain ⟨u, returns, hrest, hwithin'⟩ :=
          ih (i := i + flashSectorSize) (by rw [hnext, toNat_flashSectorSize]; omega) (by omega)
            (by omega) t
        refine ⟨u, returns, ?_, hsector.trans hwithin'⟩
        simp [herase, hrest]
      | false =>
        refine ⟨t, false, ?_, hsector⟩
        simp [herase]
    · exact ⟨s, true, rfl, .refl _ _ _ s⟩

theorem flashAreaErase_spec (hal : FlashHal b.device) (asserts : Bool) (s : FlashState)
    (fa : FlashArea b) (off len : UInt32) :
    ∃ r, flashAreaErase hal asserts s fa off len = some r ∧ Confined fa s off len r ∧
      (r.res = some 0 → ∀ i, i < len.toNat → r.state.mem (fa.lo + off.toNat + i) = 0xFF) := by
  have hrefused : Confined fa s off len ⟨s, [], some (-1)⟩ := .refused fa s off len
  unfold flashAreaErase
  split
  · exact ⟨_, rfl, hrefused, by simp⟩
  · split
    · exact ⟨_, rfl, hrefused, by simp⟩
    · split
      · exact ⟨_, rfl, hrefused, by simp⟩
      · rename_i haligned hbounds
        have hfits : ¬ fa.faSize.toNat < off.toNat + len.toNat := by
          rw [← fits_iff']
          exact fun h => hbounds (h.elim .inl fun h => .inr (.inl h))
        have hlen : flashSectorSize.toNat ∣ len.toNat := by
          rw [FlashState.dvd_iff_mod_eq_zero]
          by_contra hlen
          exact haligned (.inl hlen)
        have haddr : (b.deviceBaseAddr + fa.faOff + off).toNat = fa.lo + off.toNat :=
          toNat_addr (by omega)
        have hlt := fa.hi_lt
        rw [hi] at hlt
        obtain ⟨t, returns, hloop, hwithin⟩ := eraseSectors_spec hal asserts
          (b.deviceBaseAddr + fa.faOff + off) (by omega) hlen (len.toNat + 1) (i := 0)
          ⟨0, rfl⟩ (Nat.zero_le _) (by change _ < 0 + _; omega) s
        have hwithin' : Within b.device fa.lo fa.hi s t := by
          refine hwithin.mono ?_ ?_
          · omega
          · rw [hi]
            omega
        simp only [hloop, Option.map_some]
        cases returns with
        | true =>
          refine ⟨_, rfl, ⟨fun h => absurd h hfits, hwithin', ?_⟩, ?_⟩
          · intro range hrange
            rw [List.mem_singleton.mp hrange]
            simp only [haddr, hi]
            omega
          · intro hres
            rw [← haddr]
            refine (allErased_iff t.mem _ len).mp ?_
            by_contra hleft
            simp [hleft] at hres
        | false => exact ⟨_, rfl, ⟨fun h => absurd h hfits, hwithin', by simp⟩, by simp⟩

def sectorAt (i : Nat) : FlashSector := ⟨UInt32.ofNat i * flashSectorSize, flashSectorSize⟩

theorem areas_spec (l : FlashLayout b) (hfa : fa ∈ l.areas) :
    lookup l fa.faId.toNat = some fa ∧ fa.faDeviceId = flashDeviceInternalFlash := by
  simp only [FlashLayout.areas, List.mem_cons, List.not_mem_nil, or_false] at hfa
  obtain rfl | rfl | rfl := hfa
  · exact ⟨rfl, rfl⟩
  · exact ⟨rfl, rfl⟩
  · exact ⟨rfl, rfl⟩

def sectors (fa : FlashArea b) : List FlashSector :=
  (List.range (fa.faSize / flashSectorSize).toNat).map sectorAt

theorem flashAreaGetSectors_eq (l : FlashLayout b) (hfa : fa ∈ l.areas) {count : UInt32}
    (hcount : fa.faSize / flashSectorSize ≤ count) :
    flashAreaGetSectors l fa.faId.toNat (some count) true =
      some (fa.faSize / flashSectorSize, fa.sectors) := by
  obtain ⟨hlookup, hdevice⟩ := areas_spec l hfa
  simp only [flashAreaGetSectors, hlookup]
  rw [if_neg (by simp [hdevice]), if_neg (by simp), if_neg (UInt32.not_lt.mpr hcount)]
  rfl

theorem toNat_sectorAt {i : Nat} (h : i < (fa.faSize / flashSectorSize).toNat) :
    (sectorAt i).fsOff.toNat = i * 0x20000 ∧ i * 0x20000 + 0x20000 ≤ fa.faSize.toNat := by
  have hsize := fa.faSize.toNat_lt
  rw [UInt32.toNat_div, toNat_flashSectorSize] at h
  rw [sectorAt, UInt32.toNat_mul, UInt32.toNat_ofNat', toNat_flashSectorSize]
  omega

theorem flashGetSectorByAddr_eq (hs : s.initialized = true) (fa : FlashArea b) (off : UInt32)
    (hoff : off.toNat < fa.faSize.toNat) :
    (flashGetSectorByAddr b.device s (b.deviceBaseAddr + fa.faOff + off)).map
        (fun sector => (⟨sector.1 - fa.faOff, sector.2⟩ : FlashSector)) =
      some (sectorAt (off.toNat / 0x20000)) := by
  have hlast := b.device.last_lt
  have hsize := b.device.size_eq
  have hbank := b.device.bank2_ge
  have hbank' := b.device.bank2_le
  have hinside := fa.inside
  have haligned := fa.off_aligned
  have hsector : (s.info b.device).sectorSize = flashSectorSize := by
    rw [FlashState.info_of_initialized hs]
    exact b.sector_eq
  simp only [UInt32.size] at hlast
  rw [toNat_flashSectorSize] at haligned
  have haddr : (b.deviceBaseAddr + fa.faOff + off).toNat = fa.lo + off.toNat :=
    toNat_addr (by omega)
  rw [lo] at haddr
  have hbase : b.device.base ≤ b.deviceBaseAddr + fa.faOff + off := by
    rw [UInt32.le_iff_toNat_le, haddr]
    omega
  have hrange : ¬ (b.deviceBaseAddr + fa.faOff + off < b.device.base ∨
      b.device.base + b.device.size ≤ b.deviceBaseAddr + fa.faOff + off) := by
    rw [UInt32.lt_iff_toNat_lt, UInt32.le_iff_toNat_le, haddr, UInt32.toNat_add]
    omega
  rw [flashGetSectorByAddr, if_neg hrange, Option.map_some]
  have hdevice : (b.deviceBaseAddr + fa.faOff + off - b.device.base).toNat =
      fa.faOff.toNat + off.toNat := by
    rw [UInt32.toNat_sub_of_le _ _ hbase, haddr]
    omega
  have hfirst : ((b.deviceBaseAddr + fa.faOff + off - b.device.base) / flashSectorSize *
      flashSectorSize).toNat = fa.faOff.toNat + off.toNat / 0x20000 * 0x20000 := by
    rw [UInt32.toNat_mul, UInt32.toNat_div, hdevice, toNat_flashSectorSize]
    omega
  have hle : fa.faOff ≤ (b.deviceBaseAddr + fa.faOff + off - b.device.base) / flashSectorSize *
      flashSectorSize := by
    rw [UInt32.le_iff_toNat_le, hfirst]
    omega
  have hentry : (b.deviceBaseAddr + fa.faOff + off - b.device.base) / flashSectorSize *
      flashSectorSize - fa.faOff = UInt32.ofNat (off.toNat / 0x20000) * flashSectorSize := by
    rw [← UInt32.toNat_inj, UInt32.toNat_sub_of_le _ _ hle, hfirst, UInt32.toNat_mul,
      UInt32.toNat_ofNat', toNat_flashSectorSize]
    have hlt := off.toNat_lt
    omega
  rw [sectorAt, ← hentry, hsector]

theorem flashAreaGetSector_eq (hs : s.initialized = true) (fa : FlashArea b) (off : Int) :
    flashAreaGetSector s fa off =
      if 0 ≤ off ∧ off < fa.faSize.toNat then some (sectorAt (off.toNat / 0x20000)) else none := by
  have hsize := fa.faSize.toNat_lt
  unfold flashAreaGetSector
  split
  · rw [if_neg (by omega)]
  · split
    · rw [if_neg (by omega)]
    · have hofNat : (UInt32.ofNat off.toNat).toNat = off.toNat := by
        rw [UInt32.toNat_ofNat']
        omega
      have hsector := flashGetSectorByAddr_eq hs fa (UInt32.ofNat off.toNat) (by omega)
      rw [if_pos (by omega)]
      rw [hofNat] at hsector
      exact hsector

theorem flashAreaGetSector_iff (hs : s.initialized = true) (fa : FlashArea b) (off : Int)
    (sector : FlashSector) :
    flashAreaGetSector s fa off = some sector ↔ sector ∈ fa.sectors ∧ sector.Contains off := by
  have hcount : (fa.faSize / flashSectorSize).toNat = fa.faSize.toNat / 0x20000 := by
    rw [UInt32.toNat_div, toNat_flashSectorSize]
  have haligned := fa.size_aligned
  rw [toNat_flashSectorSize] at haligned
  rw [flashAreaGetSector_eq hs]
  constructor
  · intro h
    split at h
    · obtain rfl := Option.some.inj h
      have hlt : off.toNat / 0x20000 < (fa.faSize / flashSectorSize).toNat := by omega
      obtain ⟨hoff, -⟩ := toNat_sectorAt hlt
      refine ⟨List.mem_map.mpr ⟨_, List.mem_range.mpr hlt, rfl⟩, ?_⟩
      rw [FlashSector.Contains, hoff]
      change _ ∧ off < _ + ((0x20000 : Nat) : Int)
      omega
    · cases h
  · rintro ⟨hmem, hcontains⟩
    obtain ⟨i, hi, rfl⟩ := List.mem_map.mp hmem
    rw [List.mem_range] at hi
    obtain ⟨hoff, hend⟩ := toNat_sectorAt hi
    rw [FlashSector.Contains, hoff] at hcontains
    change _ ∧ off < _ + ((0x20000 : Nat) : Int) at hcontains
    rw [if_pos (by omega)]
    have hindex : off.toNat / 0x20000 = i := by omega
    rw [hindex]

theorem nodup_sectors (fa : FlashArea b) : fa.sectors.Nodup := by
  refine List.pairwise_map.mpr (List.nodup_range.imp_of_mem ?_)
  intro i j hi hj hne h
  obtain ⟨hoff, -⟩ := toNat_sectorAt (List.mem_range.mp hi)
  obtain ⟨hoff', -⟩ := toNat_sectorAt (List.mem_range.mp hj)
  rw [h, hoff'] at hoff
  omega

/-- An area keeps to itself, its erased and its written bytes are what was asked for, and its two
descriptions of the sectors agree once `boot_internal_flash_init` has stored `Info`. -/
theorem flashArea_keeps_to_itself (l : FlashLayout b) (fa : FlashArea b) (hfa : fa ∈ l.areas)
    (hal : FlashHal b.device) (asserts : Bool) (s : FlashState) (off len src dst : UInt32) :
    Copies fa s off dst len (flashAreaRead s fa off dst len) ∧
    (∃ r, flashAreaWrite hal asserts s fa off src len = some r ∧ Confined fa s off len r ∧
      (r.res = some 0 → ∀ i, i < len.toNat →
        r.state.mem (fa.lo + off.toNat + i) = r.state.mem (src.toNat + i) ∧
        (¬ (fa.lo ≤ src.toNat + i ∧ src.toNat + i < fa.hi) →
          r.state.mem (src.toNat + i) = s.mem (src.toNat + i)))) ∧
    (∃ r, flashAreaErase hal asserts s fa off len = some r ∧ Confined fa s off len r ∧
      (r.res = some 0 → ∀ i, i < len.toNat → r.state.mem (fa.lo + off.toNat + i) = 0xFF)) ∧
    (s.initialized = true →
      (∀ off, (flashAreaGetSector s fa off).isSome = true ↔ 0 ≤ off ∧ off < fa.faSize.toNat) ∧
      ∃ sectors, sectors.Nodup ∧
        (∀ count, fa.faSize / flashSectorSize ≤ count →
          flashAreaGetSectors l fa.faId.toNat (some count) true =
            some (fa.faSize / flashSectorSize, sectors)) ∧
        ∀ off sector, flashAreaGetSector s fa off = some sector ↔
          sector ∈ sectors ∧ sector.Contains off) := by
  obtain ⟨r, hr, hconfined, hbytes⟩ := flashAreaWrite_spec hal asserts s fa off src len
  refine ⟨flashAreaRead_copies s fa off dst len, ⟨r, hr, hconfined, ?_⟩,
    flashAreaErase_spec hal asserts s fa off len, fun hs => ⟨?_, fa.sectors, nodup_sectors fa,
      fun count hcount => flashAreaGetSectors_eq l hfa hcount, flashAreaGetSector_iff hs fa⟩⟩
  · intro hres i hi
    exact ⟨hbytes hres i hi, fun hout => hconfined.within.mem _ hout⟩
  · intro off
    rw [flashAreaGetSector_eq hs]
    split
    · rename_i h
      exact ⟨fun _ => h, fun _ => rfl⟩
    · rename_i h
      exact ⟨fun hsome => by simp at hsome, fun hin => absurd hin h⟩

theorem flashArea_primaryImg0 :
    let fa : FlashArea stm32h745Boot :=
      { linkerLayout.primaryImg0 with faId := 1, faDeviceId := flashDeviceInternalFlash }
    let s : FlashState := ⟨true, fun a => if a < 0x24000000 then 0xFF else 0, []⟩
    ∃ r, flashAreaWrite (.working stm32h745) true s fa 0x25040 0x24000000 32 = some r ∧
      r.res = some 0 ∧ Confined fa s 0x25040 32 r ∧
      (∀ i, i < 32 → r.state.mem (0x08045040 + i) = r.state.mem (0x24000000 + i)) ∧
      (∀ off, (flashAreaGetSector s fa off).isSome = true ↔ 0 ≤ off ∧ off < 0x60000) ∧
      flashAreaGetSector s fa 0x25040 = some ⟨0x20000, 0x20000⟩ := by
  intro fa s
  obtain ⟨-, ⟨r, hr, hconfined, hbytes⟩, -, hsector⟩ := flashArea_keeps_to_itself linkerLayout fa
    (by simp [FlashLayout.areas, fa]) (.working stm32h745) true s 0x25040 32 0x24000000 0x24000000
  have hres : (flashAreaWrite (.working stm32h745) true s fa 0x25040 0x24000000 32).bind
      AreaResult.res = some 0 := by decide +kernel
  have hlo : fa.lo + UInt32.toNat 0x25040 = 0x08045040 := by decide +kernel
  have hsrc : UInt32.toNat 0x24000000 = 0x24000000 := by decide +kernel
  have hlen : UInt32.toNat 32 = 32 := by decide +kernel
  rw [hr] at hres
  rw [hlo, hsrc, hlen] at hbytes
  exact ⟨r, hr, hres, hconfined, fun i hi => (hbytes hres i hi).1, (hsector rfl).1,
    by decide +kernel⟩

end FlashArea

end CanSniffer.Boot
