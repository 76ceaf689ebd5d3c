import CanSniffer.Drivers.SpiLaws
import CanSniffer.Lib.Bits
import CanSniffer.Sd.Registers

namespace CanSniffer.Sd

open Drivers Lib

/-- The poll ended with a byte that its last exchange received. -/
def BytePoll.Received (p : BytePoll) (b : UInt8) : Prop :=
  ∃ byte r, p = .done byte ∧ pollForResponse.EndsAt byte r ∧ byte r = .received b

namespace RegisterAnswers

def resp (a : RegisterAnswers) : Nat → UInt8
  | 0 => a.command.r1.response a.old
  | k + 1 => (a.token k).response (a.resp k)

structure Delivered (a : RegisterAnswers) : Prop where
  r1 : ∃ b, b ≠ 0xFF ∧ a.command.r1.Received b
  token : ∃ k, k + 1 < maxReadResponseAttempts ∧ (∀ j, j < k → a.resp (j + 1) = 0xFF) ∧
    (a.token k).Received startToken
  data : ∃ rx, a.data = .done true rx

def TokenSeen (a : RegisterAnswers) : Prop := tokenByte a (a.resp 0) = startToken

end RegisterAnswers

/-- A result 0 means that the register was read, and any other one that the structure is left
alone. -/
def ReadSound {α : Type} (a : RegisterAnswers)
    (read : (Nat → UInt8) → α → UInt8 × (Nat → UInt8) × α) : Prop :=
  ∀ buffer old, ((read buffer old).1 = 0 → a.Delivered) ∧
    ((read buffer old).1 ≠ 0 → (read buffer old).2.2 = old)

section Read

variable {a : RegisterAnswers}

theorem BytePoll.Received.response {p : BytePoll} {b old : UInt8} (h : p.Received b) :
    p.response old = b := by
  obtain ⟨byte, r, rfl, hends, hbyte⟩ := h
  rw [BytePoll.response, pollForResponse.pollByte_of_endsAt hends]
  cases r <;> simp [SpiTransaction.byteAfter, hbyte, HalByte.after]

theorem RegisterAnswers.Delivered.answered (h : a.Delivered) : a.resp 0 ≠ 0xFF := by
  obtain ⟨b, hb, hreceived⟩ := h.r1
  rwa [RegisterAnswers.resp, hreceived.response]

theorem readCSD_sound_iff (a : RegisterAnswers) :
    ReadSound a (readCSD a) ↔ a.resp 0 ≠ 0xFF ∧ (a.TokenSeen → a.Delivered) := by
  have hresp : commandResponse .cmd9 0 a.command a.old = a.resp 0 := rfl
  unfold ReadSound RegisterAnswers.TokenSeen
  simp only [readCSD, hresp]
  by_cases hr1 : a.resp 0 = 0xFF
  · simp only [hr1, if_true, ne_eq, not_true_eq_false, false_and, iff_false, false_imp_iff,
      and_true]
    intro hsound
    exact (hsound (fun _ => 0) (csd2Bitfield fun _ => 0) trivial).answered hr1
  · by_cases htoken : tokenByte a (a.resp 0) = startToken
    · simp only [hr1, htoken, if_true, if_false, ne_eq, not_true_eq_false, false_imp_iff, and_true,
        true_imp_iff, not_false_eq_true, true_and]
      exact ⟨fun h => h (fun _ => 0) (csd2Bitfield fun _ => 0), fun h _ _ => h⟩
    · simp [hr1, htoken]

theorem readCID_sound_iff (a : RegisterAnswers) :
    ReadSound a (readCID a) ↔ (a.resp 0 ≠ 0xFF → a.TokenSeen → a.Delivered) := by
  have hresp : commandResponse .cmd10 0 a.command a.old = a.resp 0 := rfl
  unfold ReadSound RegisterAnswers.TokenSeen
  simp only [readCID, hresp]
  by_cases hr1 : a.resp 0 = 0xFF
  · simp [hr1, eNotOk]
  · by_cases htoken : tokenByte a (a.resp 0) = startToken
    · simp only [hr1, htoken, if_true, if_false, eOk, ne_eq, not_true_eq_false, false_imp_iff,
        and_true, true_imp_iff, not_false_eq_true]
      exact ⟨fun h => h (fun _ => 0) (cid2Fields fun _ => 0), fun h _ _ => h⟩
    · simp [hr1, htoken, eNotOk]

end Read

def csdRegister (raw : Nat → UInt8) : Nat := Bits.ofBytes raw csdLength

def csdBits (raw : Nat → UInt8) (hi lo : Nat) : Nat := Bits.range (csdRegister raw) hi lo

/-- Every field that is set is the range that the type's comments give for it. -/
structure Documented (raw : Nat → UInt8) (csd : SdCsd) : Prop where
  csdStructure : csd.csdStructure.toNat = csdBits raw 127 126
  taac : csd.taac.toNat = csdBits raw 119 112
  nsac : csd.nsac.toNat = csdBits raw 111 104
  tranSpeed : csd.tranSpeed.toNat = csdBits raw 103 96
  ccc : csd.ccc.toNat = csdBits raw 95 84
  readBlLen : csd.readBlLen.toNat = csdBits raw 83 80
  readBlPartial : csd.readBlPartial.toNat = csdBits raw 79 79
  cSize : csd.cSize.toNat = csdBits raw 69 48
  eraseBlkEn : csd.eraseBlkEn.toNat = csdBits raw 46 46
  sectorSize : csd.sectorSize.toNat = csdBits raw 45 39
  fileFormat : csd.fileFormat.toNat = csdBits raw 11 10
  crc : csd.crc.toNat = csdBits raw 7 1
  always1 : csd.always1.toNat = csdBits raw 0 0

/-- For structure 1 both capacities are the documented one. -/
def CapacitySound (raw : Nat → UInt8) : Prop :=
  csdBits raw 127 126 = 1 →
    ∃ n : UInt32, n.toNat = (csdBits raw 69 48 + 1) * 1024 ∧
      totalBlocks512 (csd2Bitfield raw) = (eOk, n) ∧
      getSectorCount (csd2Bitfield raw) = (resOk, some n)

section Fields

variable {raw : Nat → UInt8} {mask : UInt8} {start v w : Nat}

theorem extractCsdBits_eq (hmask : mask.toNat + 1 = 1 <<< v) (hv : 0 < v)
    (hw : w = min v (8 - start % 8)) (hlt : start < 128) :
    (extractCsdBits (fun i => raw (csdLength - 1 - i)) mask start).toNat =
      csdBits raw (start + w - 1) start := by
  have hpos : 8 * (start / 8) + start % 8 = start := Nat.div_add_mod start 8
  have hshift : (UInt8.ofNat (start - start / 8 * 8)).toNat % 8 = start % 8 := by
    rw [UInt8.toNat_ofNat']
    omega
  have hmask' : mask.toNat = 2 ^ v - 1 := by
    rw [Nat.one_shiftLeft] at hmask
    omega
  have hbyte : csdRegister raw >>> (8 * (start / 8)) % 256 =
      (raw (csdLength - 1 - start / 8)).toNat :=
    Bits.ofBytes_shiftRight (show start / 8 < 16 by omega)
  have hrange : Bits.range (csdRegister raw) (8 * (start / 8) + start % 8 + w - 1)
      (8 * (start / 8) + start % 8) =
        (csdRegister raw >>> (8 * (start / 8)) % 256) >>> (start % 8) % (1 <<< w) :=
    Bits.range_of_byte (by omega) (by omega)
  rw [hpos, hbyte] at hrange
  rw [csdBits, hrange, extractCsdBits, UInt8.toNat_and, UInt8.toNat_shiftRight, hshift, hmask',
    Nat.and_two_pow_sub_one_eq_mod, Nat.one_shiftLeft]
  rcases Nat.le_total v (8 - start % 8) with h | h
  · rw [hw, Nat.min_eq_left h]
  · have hbound : (raw (csdLength - 1 - start / 8)).toNat >>> (start % 8) < 2 ^ w := by
      rw [hw, Nat.min_eq_right h, Nat.shiftRight_eq_div_pow]
      refine Nat.div_lt_of_lt_mul ?_
      rw [← Nat.pow_add, show start % 8 + (8 - start % 8) = 8 by omega]
      exact UInt8.toNat_lt _
    rw [Nat.mod_eq_of_lt hbound, Nat.mod_eq_of_lt]
    refine Nat.lt_of_lt_of_le hbound (Nat.pow_le_pow_right (by decide) ?_)
    omega

theorem csdBits_lt (raw : Nat → UInt8) (hi lo : Nat) : csdBits raw hi lo < 1 <<< (hi + 1 - lo) :=
  Bits.range_lt

theorem toNat_ccc (raw : Nat → UInt8) :
    (csd2Bitfield raw).ccc.toNat = csdBits raw 87 84 * 256 + csdBits raw 95 92 := by
  have hlow : (extractCsdBits (fun i => raw (csdLength - 1 - i)) 0x0F 92).toNat =
      csdBits raw 95 92 := extractCsdBits_eq (v := 4) (w := 4) rfl (by decide) rfl (by decide)
  have hhigh : (extractCsdBits (fun i => raw (csdLength - 1 - i)) 0xFF 84).toNat =
      csdBits raw 87 84 := extractCsdBits_eq (v := 8) (w := 4) rfl (by decide) rfl (by decide)
  have hlt : csdBits raw 87 84 < 16 := csdBits_lt raw 87 84
  have hlt' : csdBits raw 95 92 < 16 := csdBits_lt raw 95 92
  have hshift : csdBits raw 87 84 <<< 8 % 65536 = csdBits raw 87 84 <<< 8 := by
    rw [Nat.shiftLeft_eq]
    omega
  have hor : csdBits raw 87 84 <<< 8 ||| csdBits raw 95 92 =
      csdBits raw 87 84 * 256 + csdBits raw 95 92 :=
    Bits.shiftLeft_or_of_lt (k := 8) (show _ < 256 by omega)
  rw [← hor, ← hshift, ← hlow, ← hhigh]
  simp only [csd2Bitfield, UInt16.toNat_or, UInt16.toNat_shiftLeft, UInt8.toNat_toUInt16]
  rfl

theorem toNat_cSize (raw : Nat → UInt8) :
    (csd2Bitfield raw).cSize.toNat = csdBits raw 69 48 := by
  have h0 : (extractCsdBits (fun i => raw (csdLength - 1 - i)) 0xFF 48).toNat =
      csdBits raw 55 48 := extractCsdBits_eq (v := 8) (w := 8) rfl (by decide) rfl (by decide)
  have h1 : (extractCsdBits (fun i => raw (csdLength - 1 - i)) 0xFF 56).toNat =
      csdBits raw 63 56 := extractCsdBits_eq (v := 8) (w := 8) rfl (by decide) rfl (by decide)
  have h2 : (extractCsdBits (fun i => raw (csdLength - 1 - i)) 0x3F 64).toNat =
      csdBits raw 69 64 := extractCsdBits_eq (v := 6) (w := 6) rfl (by decide) rfl (by decide)
  have hlt0 : csdBits raw 55 48 < 256 := csdBits_lt raw 55 48
  have hlt1 : csdBits raw 63 56 < 256 := csdBits_lt raw 63 56
  have hlt2 : csdBits raw 69 64 < 64 := csdBits_lt raw 69 64
  have hupper : csdBits raw 69 56 = csdBits raw 69 64 * 256 + csdBits raw 63 56 :=
    Bits.range_split (by decide) (by decide)
  have hall : csdBits raw 69 48 = csdBits raw 69 56 * 256 + csdBits raw 55 48 :=
    Bits.range_split (by decide) (by decide)
  have hshift2 : csdBits raw 69 64 <<< 16 % 4294967296 = csdBits raw 69 64 <<< 16 := by
    rw [Nat.shiftLeft_eq]
    omega
  have hshift1 : csdBits raw 63 56 <<< 8 % 4294967296 = csdBits raw 63 56 <<< 8 := by
    rw [Nat.shiftLeft_eq]
    omega
  have hlow : csdBits raw 63 56 <<< 8 ||| csdBits raw 55 48 =
      csdBits raw 63 56 * 256 + csdBits raw 55 48 := Bits.shiftLeft_or_of_lt (k := 8) hlt0
  have hor : csdBits raw 69 64 <<< 16 ||| (csdBits raw 63 56 * 256 + csdBits raw 55 48) =
      csdBits raw 69 64 * 65536 + (csdBits raw 63 56 * 256 + csdBits raw 55 48) :=
    Bits.shiftLeft_or_of_lt (k := 16) (show _ < 65536 by omega)
  calc (csd2Bitfield raw).cSize.toNat
      = csdBits raw 69 64 <<< 16 % 4294967296 ||| csdBits raw 63 56 <<< 8 % 4294967296 |||
          csdBits raw 55 48 := by
        rw [← h0, ← h1, ← h2]
        simp only [csd2Bitfield, UInt32.toNat_or, UInt32.toNat_shiftLeft, UInt8.toNat_toUInt32]
        rfl
    _ = csdBits raw 69 48 := by
        rw [hshift2, hshift1, Nat.or_assoc, hlow, hor]
        omega

theorem toNat_csdStructure (raw : Nat → UInt8) :
    (csd2Bitfield raw).csdStructure.toNat = csdBits raw 127 126 :=
  extractCsdBits_eq (v := 2) (w := 2) rfl (by decide) rfl (by decide)

theorem toNat_sectorSize (raw : Nat → UInt8) :
    (csd2Bitfield raw).sectorSize.toNat = csdBits raw 39 39 :=
  extractCsdBits_eq (v := 7) (w := 1) rfl (by decide) rfl (by decide)

/-- The command classes lose four bits and are swapped, the sector size loses six bits. -/
theorem documented_iff (raw : Nat → UInt8) :
    Documented raw (csd2Bitfield raw) ↔
      csdBits raw 91 88 = 0 ∧ csdBits raw 95 92 = csdBits raw 87 84 ∧ csdBits raw 45 40 = 0 := by
  have hccc : csdBits raw 95 84 = csdBits raw 95 92 * 256 + csdBits raw 91 84 :=
    Bits.range_split (by decide) (by decide)
  have hccc' : csdBits raw 91 84 = csdBits raw 91 88 * 16 + csdBits raw 87 84 :=
    Bits.range_split (by decide) (by decide)
  have hsector : csdBits raw 45 39 = csdBits raw 45 40 * 2 + csdBits raw 39 39 :=
    Bits.range_split (by decide) (by decide)
  have hlt : csdBits raw 87 84 < 16 := csdBits_lt raw 87 84
  have hlt' : csdBits raw 95 92 < 16 := csdBits_lt raw 95 92
  have hlt'' : csdBits raw 91 88 < 16 := csdBits_lt raw 91 88
  constructor
  · intro h
    have hc := h.ccc
    have hs := h.sectorSize
    rw [toNat_ccc] at hc
    rw [toNat_sectorSize] at hs
    omega
  · rintro ⟨hmiddle, hends, hupper⟩
    exact {
      csdStructure := toNat_csdStructure raw
      taac := extractCsdBits_eq (v := 8) (w := 8) rfl (by decide) rfl (by decide)
      nsac := extractCsdBits_eq (v := 8) (w := 8) rfl (by decide) rfl (by decide)
      tranSpeed := extractCsdBits_eq (v := 8) (w := 8) rfl (by decide) rfl (by decide)
      ccc := by rw [toNat_ccc]; omega
      readBlLen := extractCsdBits_eq (v := 4) (w := 4) rfl (by decide) rfl (by decide)
      readBlPartial := extractCsdBits_eq (v := 1) (w := 1) rfl (by decide) rfl (by decide)
      cSize := toNat_cSize raw
      eraseBlkEn := extractCsdBits_eq (v := 1) (w := 1) rfl (by decide) rfl (by decide)
      sectorSize := by rw [toNat_sectorSize]; omega
      fileFormat := extractCsdBits_eq (v := 2) (w := 2) rfl (by decide) rfl (by decide)
      crc := extractCsdBits_eq (v := 7) (w := 7) rfl (by decide) rfl (by decide)
      always1 := extractCsdBits_eq (v := 1) (w := 1) rfl (by decide) rfl (by decide) }

theorem capacitySound_iff (raw : Nat → UInt8) :
    CapacitySound raw ↔ (csdBits raw 127 126 = 1 →
      csdBits raw 69 48 ≠ 0 ∧ csdBits raw 69 48 ≠ 0x3FFFFF) := by
  have hlt : csdBits raw 69 48 < 4194304 := csdBits_lt raw 69 48
  refine imp_congr_right fun hone => ?_
  have hstructure : (csd2Bitfield raw).csdStructure = 1 := by
    rw [← UInt8.toNat_inj, toNat_csdStructure, hone]
    rfl
  have hzero : (csd2Bitfield raw).cSize = 0 ↔ csdBits raw 69 48 = 0 := by
    rw [← UInt32.toNat_inj, toNat_cSize]
    rfl
  have hsize : UInt32.size ≤ ((csd2Bitfield raw).cSize.toNat + 1) * 1024 ↔
      csdBits raw 69 48 = 0x3FFFFF := by
    rw [toNat_cSize, UInt32.size]
    omega
  simp only [totalBlocks512, getSectorCount, hstructure, hzero, hsize]
  by_cases hmin : csdBits raw 69 48 = 0
  · simp [hmin, resError, resOk]
  · by_cases hmax : csdBits raw 69 48 = 0x3FFFFF
    · simp [hmax, eCapacityOverflow, eOk]
    · have hcount : (UInt32.ofNat ((csdBits raw 69 48 + 1) * 1024)).toNat =
          (csdBits raw 69 48 + 1) * 1024 := UInt32.toNat_ofNat_of_lt' (by
        rw [UInt32.size]
        omega)
      refine iff_of_true ⟨_, hcount, ?_⟩ ⟨hmin, hmax⟩
      rw [toNat_cSize]
      simp [hmin, hmax]

end Fields

/-- When a register read reports the truth, which CSD registers are decoded as documented, and for
which of them both capacities are right. -/
theorem registers_sound_iff (a : RegisterAnswers) (raw : Nat → UInt8) :
    (ReadSound a (readCSD a) ↔ a.resp 0 ≠ 0xFF ∧ (a.TokenSeen → a.Delivered)) ∧
    (ReadSound a (readCID a) ↔ (a.resp 0 ≠ 0xFF → a.TokenSeen → a.Delivered)) ∧
    (Documented raw (csd2Bitfield raw) ↔
      csdBits raw 91 88 = 0 ∧ csdBits raw 95 92 = csdBits raw 87 84 ∧ csdBits raw 45 40 = 0) ∧
    (CapacitySound raw ↔ (csdBits raw 127 126 = 1 →
      csdBits raw 69 48 ≠ 0 ∧ csdBits raw 69 48 ≠ 0x3FFFFF)) :=
  ⟨readCSD_sound_iff a, readCID_sound_iff a, documented_iff raw, capacitySound_iff raw⟩

def unansweredCard : RegisterAnswers where
  command := { sent := .done true fun _ => 0xFF, r1 := .done fun _ => .received 0xFF }
  token _ := .done fun _ => .received 0xFF
  data := .done true fun _ => 0xFF
  old := 0

/-- The register of a card that does not answer is read with success. -/
theorem registers_unsound :
    ¬ ((∀ a : RegisterAnswers, ReadSound a (readCSD a)) ∧
      (∀ a : RegisterAnswers, ReadSound a (readCID a)) ∧
      (∀ raw, Documented raw (csd2Bitfield raw)) ∧ ∀ raw, CapacitySound raw) := by
  rintro ⟨hsound, -⟩
  exact ((readCSD_sound_iff unansweredCard).mp (hsound unansweredCard)).1 (by decide)

end CanSniffer.Sd
