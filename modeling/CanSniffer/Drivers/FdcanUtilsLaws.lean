import CanSniffer.Drivers.FdcanUtils
import CanSniffer.Lib.Bits
import CanSniffer.Lib.Search

namespace CanSniffer.Drivers

open Lib

def SupportedRate := { b : UInt32 // b = 250000 ∨ b = 500000 ∨ b = 1000000 }

/-- The arguments of a calculation, the sample point inside the bit. -/
structure NominalRequest where
  clockHz : UInt32
  bitrate : SupportedRate
  samplePoint : UInt32
  sjw : UInt32
  sample_pos : 0 < samplePoint
  sample_lt : samplePoint < 10000
  sjw_pos : 0 < sjw

namespace NominalRequest

def timing (r : NominalRequest) : UInt8 × Option RegValue :=
  calculateBitTimingRegister r.clockHz r.bitrate.val r.samplePoint r.sjw false

/-- What the register decodes to is what was asked for, in the ranges of its fields. -/
structure MetBy (r : NominalRequest) (prescaler seg1 seg2 sjw : Nat) : Prop where
  rate : r.clockHz.toNat / (prescaler * (1 + seg1 + seg2)) = r.bitrate.val.toNat
  sample : (1 + seg1) * 10000 = r.samplePoint.toNat * (1 + seg1 + seg2)
  sjw_pos : 1 ≤ sjw
  sjw_le : sjw ≤ min r.sjw.toNat seg2
  prescaler_range : 1 ≤ prescaler ∧ prescaler ≤ 512
  seg1_range : 1 ≤ seg1 ∧ seg1 ≤ 256
  seg2_range : 1 ≤ seg2 ∧ seg2 ≤ 128
  sjw_range : sjw ≤ 128

def Sound (r : NominalRequest) : Prop :=
  r.timing.1 = 0 → ∃ reg, r.timing.2 = some reg ∧
    r.MetBy (reg.getPrescaler false).toNat (reg.getSeg1 false).toNat (reg.getSeg2 false).toNat
      (reg.getSJW false).toNat

def prescaler (r : NominalRequest) (tq : Nat) : Nat :=
  r.clockHz.toNat / (r.bitrate.val.toNat * tq)

def beforeSample (r : NominalRequest) (tq : Nat) : Nat := tq * r.samplePoint.toNat / 10000

/-- A bit of `tq` time quanta hits sample point and bit rate, and neither segment is empty once it
is cut to eight bits. -/
structure Accepted (r : NominalRequest) (tq : Nat) : Prop where
  whole : tq * r.samplePoint.toNat % 10000 = 0
  prescaler_pos : 0 < r.prescaler tq
  prescaler_le : r.prescaler tq ≤ 512
  rate : r.clockHz.toNat / (r.prescaler tq * tq) = r.bitrate.val.toNat
  seg1 : r.beforeSample tq ≠ 1 ∧ r.beforeSample tq ≠ 257
  seg2 : tq - r.beforeSample tq ≠ 256

def maxTq (r : NominalRequest) : Nat := Drivers.maxTq r.clockHz.toNat r.bitrate.val.toNat

def Chosen (r : NominalRequest) (tq : Nat) : Prop := Greatest r.Accepted 8 r.maxTq tq

/-- The segments fit their fields, and the bit that prescaler and jump width share has one value for
both. -/
structure Fits (r : NominalRequest) (tq : Nat) : Prop where
  seg1 : r.beforeSample tq ≤ 256
  seg2 : tq - r.beforeSample tq ≤ 128
  shared : 256 < r.prescaler tq ↔ min r.sjw.toNat (tq - r.beforeSample tq) % 2 = 0

def ofBaudrate (fdcanClock : UInt32) (baudrate : SupportedRate) : NominalRequest where
  clockHz := fdcanClock
  bitrate := baudrate
  samplePoint := 7500
  sjw := 1
  sample_pos := by decide
  sample_lt := by decide
  sjw_pos := by decide

end NominalRequest

/-- Whatever the driver's state, a success leaves the timings of the bit rate asked for. -/
def BaudrateSound (fdcanClock : UInt32) (baudrate : SupportedRate) : Prop :=
  ∀ (d d' : FdcanDriver) (initialized : Bool),
    d.setBaudrate baudrate.val (baudrateTimings fdcanClock baudrate.val) initialized =
        (d', .success) →
      fdcanClock.toNat / (d'.timing.prescaler.toNat *
        (1 + d'.timing.seg1.toNat + d'.timing.seg2.toNat)) = baudrate.val.toNat

section Register

variable {reg width pos : UInt32} {r : RegValue}

theorem toNat_merge (r : RegValue) : r.merge.toNat =
    r.byte3.toNat * 16777216 + r.byte2.toNat * 65536 + r.byte1.toNat * 256 + r.byte0.toNat := by
  have hshift : ∀ b : UInt8, (b.toUInt32 <<< 24).toNat = b.toNat <<< 24 ∧
      (b.toUInt32 <<< 16).toNat = b.toNat <<< 16 ∧ (b.toUInt32 <<< 8).toNat = b.toNat <<< 8 := by
    intro b
    have hb := b.toNat_lt
    refine ⟨?_, ?_, ?_⟩ <;>
    · rw [UInt32.toNat_shiftLeft, UInt8.toNat_toUInt32]
      refine Nat.mod_eq_of_lt ?_
      rw [Nat.shiftLeft_eq]
      simp
      omega
  have h0 := r.byte0.toNat_lt
  have h1 := r.byte1.toNat_lt
  have h2 := r.byte2.toNat_lt
  have low : r.byte1.toNat <<< 8 ||| r.byte0.toNat = r.byte1.toNat * 256 + r.byte0.toNat :=
    Bits.shiftLeft_or_of_lt (k := 8) h0
  have mid : r.byte2.toNat <<< 16 ||| (r.byte1.toNat * 256 + r.byte0.toNat) =
      r.byte2.toNat * 65536 + (r.byte1.toNat * 256 + r.byte0.toNat) :=
    Bits.shiftLeft_or_of_lt (k := 16) (show _ < 65536 by omega)
  have high : r.byte3.toNat <<< 24 |||
        (r.byte2.toNat * 65536 + (r.byte1.toNat * 256 + r.byte0.toNat)) =
      r.byte3.toNat * 16777216 +
        (r.byte2.toNat * 65536 + (r.byte1.toNat * 256 + r.byte0.toNat)) :=
    Bits.shiftLeft_or_of_lt (k := 24) (show _ < 16777216 by omega)
  rw [RegValue.merge, UInt32.toNat_or, UInt32.toNat_or, UInt32.toNat_or, (hshift _).1,
    (hshift _).2.1, (hshift _).2.2, UInt8.toNat_toUInt32, Nat.or_assoc, Nat.or_assoc, low, mid,
    high]
  omega

theorem merge_ofReg (reg : UInt32) : (RegValue.ofReg reg).merge = reg := by
  apply UInt32.toNat_inj.mp
  have hlt := reg.toNat_lt
  have h24 : UInt32.toNat 24 % 32 = 24 := rfl
  have h16 : UInt32.toNat 16 % 32 = 16 := rfl
  have h8 : UInt32.toNat 8 % 32 = 8 := rfl
  rw [toNat_merge]
  simp only [RegValue.ofReg, UInt32.toNat_shiftRight, UInt32.toNat_toUInt8,
    Nat.shiftRight_eq_div_pow, h24, h16, h8]
  omega

theorem toNat_field {k : Nat} (hwidth : width.toNat = 1 <<< k - 1) (hpos : pos.toNat < 32)
    (h : width.toNat <<< pos.toNat < UInt32.size) :
    (RegValue.field reg width pos).toNat = reg.toNat / 1 <<< pos.toNat % 1 <<< k := by
  rw [RegValue.field, UInt32.toNat_shiftRight, UInt32.toNat_and, UInt32.toNat_shiftLeft,
    Nat.mod_eq_of_lt hpos, Nat.mod_eq_of_lt h, Nat.shiftRight_and_distrib,
    Nat.shiftLeft_shiftRight, hwidth, Nat.one_shiftLeft, Nat.and_two_pow_sub_one_eq_mod,
    Nat.shiftRight_eq_div_pow, Nat.one_shiftLeft]

theorem toNat_getPrescaler (r : RegValue) :
    (r.getPrescaler false).toNat = r.merge.toNat / 65536 % 512 + 1 := by
  have hfield : (RegValue.field r.merge 0x1FF 16).toNat = r.merge.toNat / 65536 % 512 :=
    toNat_field (k := 9) rfl (by decide) (by decide)
  have hone : UInt32.toNat 1 = 1 := rfl
  simp only [RegValue.getPrescaler, Bool.false_eq_true, if_false, UInt32.toNat_toUInt16,
    UInt32.toNat_add, hfield, hone]
  omega

theorem toNat_getSeg1 (r : RegValue) :
    (r.getSeg1 false).toNat = (r.merge.toNat / 256 % 256 + 1) % 256 := by
  have hfield : (RegValue.field r.merge 0xFF 8).toNat = r.merge.toNat / 256 % 256 :=
    toNat_field (k := 8) rfl (by decide) (by decide)
  have hone : UInt32.toNat 1 = 1 := rfl
  simp only [RegValue.getSeg1, Bool.false_eq_true, if_false, UInt32.toNat_toUInt8,
    UInt32.toNat_add, hfield, hone]
  omega

theorem toNat_getSeg2 (r : RegValue) :
    (r.getSeg2 false).toNat = r.merge.toNat % 128 + 1 := by
  have hfield : (RegValue.field r.merge 0x7F 0).toNat = r.merge.toNat / 1 % 128 :=
    toNat_field (k := 7) rfl (by decide) (by decide)
  have hone : UInt32.toNat 1 = 1 := rfl
  simp only [RegValue.getSeg2, Bool.false_eq_true, if_false, UInt32.toNat_toUInt8,
    UInt32.toNat_add, hfield, hone]
  omega

theorem toNat_getSJW (r : RegValue) :
    (r.getSJW false).toNat = r.merge.toNat / 16777216 % 128 + 1 := by
  have hfield : (RegValue.field r.merge 0x7F 24).toNat = r.merge.toNat / 16777216 % 128 :=
    toNat_field (k := 7) rfl (by decide) (by decide)
  have hone : UInt32.toNat 1 = 1 := rfl
  simp only [RegValue.getSJW, Bool.false_eq_true, if_false, UInt32.toNat_toUInt8,
    UInt32.toNat_add, hfield, hone]
  omega

theorem or_shared {p j : Nat} (hp : p < 512) (hj : j < 256) :
    (p ||| j <<< 8) % 512 = (if p < 256 ∧ j % 2 = 1 then p + 256 else p) ∧
      (p ||| j <<< 8) / 256 % 128 = (if 256 ≤ p ∧ j % 2 = 0 then j + 1 else j) % 128 ∧
      p ||| j <<< 8 < 65536 := by
  have hone : ∀ j : Fin 256, 1 ||| j.val = if j.val % 2 = 0 then j.val + 1 else j.val := by
    decide +kernel
  have hsplit : p ||| j <<< 8 = (p / 256 ||| j) * 256 + p % 256 := by
    have hlow : p % 256 < 1 <<< 8 := Nat.mod_lt p (by decide)
    have hp' : (p / 256) <<< 8 ||| p % 256 = p :=
      (Bits.shiftLeft_or_of_lt hlow).trans (Nat.div_add_mod' p 256)
    calc p ||| j <<< 8 = ((p / 256) <<< 8 ||| p % 256) ||| j <<< 8 := by rw [hp']
      _ = (p / 256 ||| j) <<< 8 ||| p % 256 := by
        rw [Nat.shiftLeft_or_distrib, Nat.or_assoc, Nat.or_comm (p % 256), Nat.or_assoc]
      _ = (p / 256 ||| j) * 256 + p % 256 := Bits.shiftLeft_or_of_lt hlow
  rw [hsplit]
  rcases (show p / 256 = 0 ∨ p / 256 = 1 by omega) with hq | hq
  · rw [hq, Nat.zero_or]
    refine ⟨?_, ?_, by omega⟩ <;> split <;> omega
  · rw [hq, hone ⟨j, hj⟩]
    dsimp only
    refine ⟨?_, ?_, ?_⟩ <;> (repeat' split) <;> omega

/-- The four parts of the register that is written, in which prescaler and jump width overlap. -/
theorem toNat_timingReg {p j a b : Nat} (hp : p < 512) (hj : j < 256) (ha : a < 256)
    (hb : b < 256) :
    (timingReg false (p + 1) (j + 1) (a + 1) (b + 1)).toNat =
      (p ||| j <<< 8) * 65536 + a * 256 + b := by
  have hword := (or_shared hp hj).2.2
  have hshift : ∀ n : Nat, n < 512 → (UInt32.ofNat n <<< 16).toNat = n <<< 16 ∧
      (UInt32.ofNat n <<< 8).toNat = n <<< 8 ∧
      (n < 256 → (UInt32.ofNat n <<< 24).toNat = n <<< 24) := by
    intro n hn
    have hofNat : (UInt32.ofNat n).toNat = n := UInt32.toNat_ofNat_of_lt' (by
      simp only [UInt32.size]
      omega)
    refine ⟨?_, ?_, fun hlt => ?_⟩ <;>
    · rw [UInt32.toNat_shiftLeft, hofNat]
      refine Nat.mod_eq_of_lt ?_
      rw [Nat.shiftLeft_eq]
      simp
      omega
  have hofNat : (UInt32.ofNat b).toNat = b := UInt32.toNat_ofNat_of_lt' (by
    simp only [UInt32.size]
    omega)
  simp only [timingReg, Bool.false_eq_true, if_false, Nat.add_sub_cancel, UInt32.toNat_or,
    (hshift p hp).1, (hshift j (by omega)).2.2 hj, (hshift a (by omega)).2.1, hofNat]
  have hupper : p <<< 16 ||| j <<< 24 = (p ||| j <<< 8) <<< 16 := by
    rw [Nat.shiftLeft_or_distrib, ← Nat.shiftLeft_add]
  have low : a <<< 8 ||| b = a * 256 + b := Bits.shiftLeft_or_of_lt (k := 8) hb
  have high : (p ||| j <<< 8) <<< 16 ||| (a * 256 + b) =
      (p ||| j <<< 8) * 65536 + (a * 256 + b) :=
    Bits.shiftLeft_or_of_lt (k := 16) (show _ < 65536 by omega)
  rw [hupper, Nat.or_assoc, low, high]
  omega

end Register

namespace NominalRequest

variable {r : NominalRequest} {tq : Nat}

def seg1 (r : NominalRequest) (tq : Nat) : Nat := (r.beforeSample tq - 1) % 256

def seg2 (r : NominalRequest) (tq : Nat) : Nat := (tq - r.beforeSample tq) % 256

theorem bitrate_cases (r : NominalRequest) : r.bitrate.val.toNat = 250000 ∨
    r.bitrate.val.toNat = 500000 ∨ r.bitrate.val.toNat = 1000000 := by
  rcases r.bitrate.property with h | h | h <;> rw [h]
  · exact .inl rfl
  · exact .inr (.inl rfl)
  · exact .inr (.inr rfl)

theorem maxTq_le (r : NominalRequest) : r.maxTq ≤ 512 := by
  unfold maxTq Drivers.maxTq
  split <;> omega

theorem samplePoint_range (r : NominalRequest) :
    0 < r.samplePoint.toNat ∧ r.samplePoint.toNat < 10000 :=
  ⟨UInt32.lt_iff_toNat_lt.mp r.sample_pos, UInt32.lt_iff_toNat_lt.mp r.sample_lt⟩

theorem beforeSample_lt (r : NominalRequest) (hge : 8 ≤ tq) : r.beforeSample tq < tq := by
  have hsp := r.samplePoint_range.2
  refine Nat.div_lt_of_lt_mul ?_
  rw [Nat.mul_comm]
  exact Nat.mul_lt_mul_of_pos_right hsp (by omega)

theorem beforeSample_mul (h : tq * r.samplePoint.toNat % 10000 = 0) :
    r.beforeSample tq * 10000 = tq * r.samplePoint.toNat :=
  Nat.div_mul_cancel (Nat.dvd_of_mod_eq_zero h)

theorem beforeSample_pos (hge : 8 ≤ tq) (h : tq * r.samplePoint.toNat % 10000 = 0) :
    0 < r.beforeSample tq := by
  have hmul := beforeSample_mul h
  have hpos : 0 < tq * r.samplePoint.toNat := Nat.mul_pos (by omega) r.samplePoint_range.1
  omega

theorem seg1_of_le (hpos : 0 < r.beforeSample tq) (h : r.beforeSample tq ≤ 256) :
    1 + r.seg1 tq = r.beforeSample tq := by
  unfold seg1
  omega

theorem seg2_of_le (h : tq - r.beforeSample tq < 256) : r.seg2 tq = tq - r.beforeSample tq :=
  Nat.mod_eq_of_lt h

theorem Accepted.seg1_range (h : r.Accepted tq) (hge : 8 ≤ tq) (hle : tq ≤ 512) :
    0 < r.seg1 tq ∧ r.seg1 tq < 256 := by
  have hbefore := r.beforeSample_lt hge
  have hpos := beforeSample_pos hge h.whole
  have hcut := h.seg1
  unfold NominalRequest.seg1
  omega

theorem Accepted.seg2_range (h : r.Accepted tq) (hge : 8 ≤ tq) (hle : tq ≤ 512) :
    0 < r.seg2 tq ∧ r.seg2 tq < 256 := by
  have hbefore := r.beforeSample_lt hge
  have hpos := beforeSample_pos hge h.whole
  have hcut := h.seg2
  unfold NominalRequest.seg2
  omega

theorem tryTq_eq (hge : 8 ≤ tq) (hle : tq ≤ 512) :
    tryTq r.clockHz.toNat r.bitrate.val.toNat r.samplePoint.toNat r.sjw.toNat false tq =
      if tq * r.samplePoint.toNat % 10000 ≠ 0 then none
      else if r.prescaler tq = 0 ∨ 512 < r.prescaler tq then none
      else if r.clockHz.toNat / (r.prescaler tq * tq) ≠ r.bitrate.val.toNat then none
      else if 0 < r.seg1 tq ∧ 0 < r.seg2 tq then
        some (.ofReg (timingReg false (r.prescaler tq) (min r.sjw.toNat (r.seg2 tq)) (r.seg1 tq)
          (r.seg2 tq)))
      else none := by
  have hbefore := r.beforeSample_lt hge
  have htotal : r.bitrate.val.toNat * tq < UInt32.size := by
    simp only [UInt32.size]
    rcases r.bitrate_cases with h | h | h <;> rw [h] <;> omega
  have hsample : tq * r.samplePoint.toNat < UInt32.size :=
    Nat.lt_of_le_of_lt (Nat.mul_le_mul hle (Nat.le_of_lt r.samplePoint_range.2)) (by decide)
  have hprescaler : r.clockHz.toNat / (r.bitrate.val.toNat * tq) = r.prescaler tq := rfl
  have hdiv : tq * r.samplePoint.toNat / 10000 = r.beforeSample tq := rfl
  simp only [tryTq, samplePointFactor, syncSeg, Nat.mod_eq_of_lt htotal, Nat.mod_eq_of_lt hsample,
    hprescaler, hdiv, Bool.false_eq_true, false_and, false_or, not_false_eq_true, true_and]
  by_cases hwhole : tq * r.samplePoint.toNat % 10000 = 0
  case neg => simp only [ne_eq, hwhole, not_false_eq_true, if_true]
  by_cases hrange : r.prescaler tq = 0 ∨ 512 < r.prescaler tq
  case pos => simp only [hrange, if_true]
  have hpos := beforeSample_pos hge hwhole
  have hproduct : r.prescaler tq * tq < UInt32.size :=
    Nat.lt_of_le_of_lt (Nat.mul_le_mul (show r.prescaler tq ≤ 512 by omega) hle) (by decide)
  have hseg1 : (r.beforeSample tq + UInt32.size - 1) % UInt32.size % UInt8.size = r.seg1 tq := by
    simp only [seg1, UInt32.size, UInt8.size]
    omega
  have hseg2 : (tq + UInt32.size - r.seg1 tq - 1) % UInt32.size % UInt8.size = r.seg2 tq := by
    simp only [seg1, seg2, UInt32.size, UInt8.size]
    omega
  have hmin : (if r.seg2 tq < r.sjw.toNat then r.seg2 tq else r.sjw.toNat) =
      min r.sjw.toNat (r.seg2 tq) := by
    split <;> omega
  rw [Nat.mod_eq_of_lt hproduct, hseg1, hseg2, hmin]

theorem tryTq_of_accepted (hge : 8 ≤ tq) (hle : tq ≤ 512) (h : r.Accepted tq) :
    tryTq r.clockHz.toNat r.bitrate.val.toNat r.samplePoint.toNat r.sjw.toNat false tq =
      some (.ofReg (timingReg false (r.prescaler tq) (min r.sjw.toNat (r.seg2 tq)) (r.seg1 tq)
        (r.seg2 tq))) := by
  have hsegs := And.intro (h.seg1_range hge hle).1 (h.seg2_range hge hle).1
  rw [tryTq_eq hge hle, if_neg (fun hne => hne h.whole), if_neg,
    if_neg (fun hne => hne h.rate), if_pos hsegs]
  rintro (hzero | hmany)
  · exact absurd hzero (Nat.ne_of_gt h.prescaler_pos)
  · exact absurd h.prescaler_le (Nat.not_le.mpr hmany)

theorem tryTq_of_not_accepted (hge : 8 ≤ tq) (hle : tq ≤ 512) (h : ¬ r.Accepted tq) :
    tryTq r.clockHz.toNat r.bitrate.val.toNat r.samplePoint.toNat r.sjw.toNat false tq = none := by
  rw [tryTq_eq hge hle]
  split
  · rfl
  rename_i hwhole
  split
  · rfl
  rename_i hrange
  split
  · rfl
  rename_i hrate
  split
  case isFalse => rfl
  rename_i hsegs
  unfold seg1 seg2 at hsegs
  exact absurd ⟨Decidable.not_not.mp hwhole, by omega, by omega, Decidable.not_not.mp hrate,
    by omega, by omega⟩ h

theorem timing_cases (hclock : r.clockHz ≠ 0) :
    (∃ tq, r.Chosen tq ∧ r.timing = (0, some (.ofReg (timingReg false (r.prescaler tq)
      (min r.sjw.toNat (r.seg2 tq)) (r.seg1 tq) (r.seg2 tq))))) ∨
    (∀ tq, 8 ≤ tq → tq ≤ r.maxTq → ¬ r.Accepted tq) ∧ r.timing = (1, none) := by
  have hbitrate : ¬ r.bitrate.val = 0 := by
    intro hzero
    have hnat := congrArg UInt32.toNat hzero
    rcases r.bitrate_cases with h | h | h <;> rw [h] at hnat <;> exact absurd hnat (by decide)
  have hmax := r.maxTq_le
  have htiming : r.timing = timingLoop r.clockHz.toNat r.bitrate.val.toNat r.samplePoint.toNat
      r.sjw.toNat false r.maxTq :=
    if_neg (not_or.mpr ⟨hclock, hbitrate⟩)
  rw [htiming]
  refine countdown_cases (Nat.zero_lt_succ 7) (fun n hlt => ?_) (fun n hge hle hacc => ?_)
    fun n hge hle hacc => ?_
  · cases n with
    | zero => rfl
    | succ n => exact if_pos hlt
  · obtain ⟨n, rfl⟩ : ∃ k, n = k + 1 := ⟨n - 1, by omega⟩
    rw [timingLoop, if_neg (Nat.not_lt.mpr hge), tryTq_of_accepted hge (by omega) hacc]
  · rw [timingLoop, if_neg (Nat.not_lt.mpr hge), tryTq_of_not_accepted hge (by omega) hacc]

structure Decoded (r : NominalRequest) (tq : Nat) (reg : RegValue) : Prop where
  prescaler : (reg.getPrescaler false).toNat =
    if r.prescaler tq ≤ 256 ∧ min r.sjw.toNat (r.seg2 tq) % 2 = 0 then r.prescaler tq + 256
    else r.prescaler tq
  seg1 : (reg.getSeg1 false).toNat = r.seg1 tq
  seg2 : (reg.getSeg2 false).toNat = (r.seg2 tq - 1) % 128 + 1
  sjw : (reg.getSJW false).toNat =
    (if 256 < r.prescaler tq ∧ min r.sjw.toNat (r.seg2 tq) % 2 = 1
      then min r.sjw.toNat (r.seg2 tq) else min r.sjw.toNat (r.seg2 tq) - 1) % 128 + 1

theorem decoded_of_accepted (hge : 8 ≤ tq) (hle : tq ≤ 512) (h : r.Accepted tq) :
    r.Decoded tq (.ofReg (timingReg false (r.prescaler tq) (min r.sjw.toNat (r.seg2 tq))
      (r.seg1 tq) (r.seg2 tq))) := by
  have hprescaler := h.prescaler_pos
  have hprescaler_le := h.prescaler_le
  have hsjw : 0 < r.sjw.toNat := UInt32.lt_iff_toNat_lt.mp r.sjw_pos
  have hseg1 := h.seg1_range hge hle
  have hseg2 := h.seg2_range hge hle
  obtain ⟨p, hp⟩ : ∃ p, r.prescaler tq = p + 1 := ⟨r.prescaler tq - 1, by omega⟩
  obtain ⟨j, hj⟩ : ∃ j, min r.sjw.toNat (r.seg2 tq) = j + 1 :=
    ⟨min r.sjw.toNat (r.seg2 tq) - 1, by omega⟩
  obtain ⟨a, ha⟩ : ∃ a, r.seg1 tq = a + 1 := ⟨r.seg1 tq - 1, by omega⟩
  obtain ⟨b, hb⟩ : ∃ b, r.seg2 tq = b + 1 := ⟨r.seg2 tq - 1, by omega⟩
  have hp' : p < 512 := by omega
  have hj' : j < 256 := by omega
  obtain ⟨hlow, hhigh, -⟩ := or_shared hp' hj'
  have hreg := toNat_timingReg (a := a) (b := b) hp' hj' (by omega) (by omega)
  rw [hj, hp, ha, hb]
  refine ⟨?_, ?_, ?_, ?_⟩
  · rw [toNat_getPrescaler, merge_ofReg, hreg, hp,
      show ((p ||| j <<< 8) * 65536 + a * 256 + b) / 65536 = p ||| j <<< 8 by omega, hlow, hj]
    split <;> split <;> omega
  · rw [toNat_getSeg1, merge_ofReg, hreg]
    omega
  · rw [toNat_getSeg2, merge_ofReg, hreg]
    omega
  · rw [toNat_getSJW, merge_ofReg, hreg,
      show ((p ||| j <<< 8) * 65536 + a * 256 + b) / 16777216 = (p ||| j <<< 8) / 256 by omega,
      hhigh, hp, hj]
    split <;> split <;> omega

theorem rate_ne (h : r.Accepted tq) {n : Nat} (hn : r.prescaler tq < n) :
    r.clockHz.toNat / (n * tq) ≠ r.bitrate.val.toNat := by
  intro hrate
  have hpos : 0 < r.bitrate.val.toNat := by
    rcases r.bitrate_cases with h | h | h <;> rw [h] <;> decide
  have hle : r.bitrate.val.toNat * (n * tq) ≤ r.clockHz.toNat := by
    rw [← hrate]
    exact Nat.div_mul_le_self _ _
  have htq : 0 < tq := by
    refine Nat.pos_of_ne_zero fun hzero => ?_
    have hrate' := h.rate
    rw [hzero, Nat.mul_zero, Nat.div_zero] at hrate'
    omega
  have hn' : n ≤ r.prescaler tq := by
    rw [prescaler, Nat.le_div_iff_mul_le (Nat.mul_pos hpos htq)]
    calc n * (r.bitrate.val.toNat * tq) = r.bitrate.val.toNat * (n * tq) := Nat.mul_left_comm ..
      _ ≤ r.clockHz.toNat := hle
  omega

theorem segments_of_sample (hge : 8 ≤ tq) (hle : tq ≤ 512) (h : r.Accepted tq)
    (hsample : (1 + r.seg1 tq) * 10000 =
      r.samplePoint.toNat * (1 + r.seg1 tq + ((r.seg2 tq - 1) % 128 + 1))) :
    r.beforeSample tq ≤ 256 ∧ tq - r.beforeSample tq ≤ 128 := by
  have hbefore := r.beforeSample_lt hge
  have hpos := beforeSample_pos hge h.whole
  have hmul := beforeSample_mul h.whole
  obtain ⟨hsp, hsp'⟩ := r.samplePoint_range
  have hone := h.seg1
  have htwo := h.seg2
  obtain ⟨d, hd⟩ : ∃ d, tq = r.beforeSample tq + d := ⟨tq - r.beforeSample tq, by omega⟩
  by_cases hfits : r.beforeSample tq ≤ 256
  · refine ⟨hfits, ?_⟩
    rw [seg1_of_le hpos hfits, hmul, Nat.mul_comm] at hsample
    have heq := Nat.eq_of_mul_eq_mul_left hsp hsample
    omega
  · -- both sides lose 256 time quanta at the front
    exfalso
    have hseg1 : 1 + r.seg1 tq + 256 = r.beforeSample tq := by
      unfold seg1
      omega
    have hseg2 : r.seg2 tq = d := by
      unfold seg2
      omega
    have hmul' : (1 + r.seg1 tq + 256) * 10000 = r.samplePoint.toNat * (1 + r.seg1 tq) +
        r.samplePoint.toNat * d + r.samplePoint.toNat * 256 := by
      rw [hseg1, hmul, Nat.mul_comm tq, ← Nat.mul_add, ← Nat.mul_add]
      exact congrArg (r.samplePoint.toNat * ·) (by omega)
    rw [hseg2, Nat.mul_add] at hsample
    rcases Nat.lt_or_ge 128 d with hlong | hshort
    · have hd' : d = (d - 1) % 128 + 1 + 128 := by omega
      have hparts : r.samplePoint.toNat * d =
          r.samplePoint.toNat * ((d - 1) % 128 + 1) + r.samplePoint.toNat * 128 := by
        rw [← Nat.mul_add, ← hd']
      omega
    · rw [show (d - 1) % 128 + 1 = d by omega] at hsample
      omega

theorem segments_add (hge : 8 ≤ tq) (hpos : 0 < r.beforeSample tq)
    (hfirst : r.beforeSample tq ≤ 256) (hsecond : tq - r.beforeSample tq ≤ 128) :
    1 + r.seg1 tq + ((r.seg2 tq - 1) % 128 + 1) = tq := by
  have hbefore := r.beforeSample_lt hge
  rw [seg1_of_le hpos hfirst, seg2_of_le (by omega)]
  omega

variable {reg : RegValue}

theorem fits_of_metBy (hge : 8 ≤ tq) (hle : tq ≤ 512) (h : r.Accepted tq)
    (hreg : r.Decoded tq reg)
    (hmet : r.MetBy (reg.getPrescaler false).toNat (reg.getSeg1 false).toNat
      (reg.getSeg2 false).toNat (reg.getSJW false).toNat) : r.Fits tq := by
  have hsample := hmet.sample
  have hrate := hmet.rate
  have hjump := hmet.sjw_le
  rw [hreg.seg1, hreg.seg2] at hsample
  obtain ⟨hfirst, hsecond⟩ := segments_of_sample hge hle h hsample
  rw [hreg.prescaler, hreg.seg1, hreg.seg2,
    segments_add hge (beforeSample_pos hge h.whole) hfirst hsecond] at hrate
  rw [hreg.sjw, hreg.seg2] at hjump
  have hseg2 : r.seg2 tq = tq - r.beforeSample tq := seg2_of_le (by omega)
  refine ⟨hfirst, hsecond, ?_⟩
  rw [← hseg2]
  constructor
  · intro hbig
    rcases Nat.mod_two_eq_zero_or_one (min r.sjw.toNat (r.seg2 tq)) with heven | hodd
    · exact heven
    · have hpos := h.seg2_range hge hle
      rw [if_pos ⟨hbig, hodd⟩] at hjump
      omega
  · intro heven
    refine Nat.lt_of_not_le fun hsmall => ?_
    rw [if_pos ⟨hsmall, heven⟩] at hrate
    exact rate_ne h (by omega) hrate

theorem metBy_of_fits (hge : 8 ≤ tq) (h : r.Accepted tq) (hreg : r.Decoded tq reg)
    (hfits : r.Fits tq) :
    r.MetBy (reg.getPrescaler false).toNat (reg.getSeg1 false).toNat (reg.getSeg2 false).toNat
      (reg.getSJW false).toNat := by
  obtain ⟨hfirst, hsecond, hshared⟩ := hfits
  have hbefore := r.beforeSample_lt hge
  have hpos := beforeSample_pos hge h.whole
  have hsjw : 0 < r.sjw.toNat := UInt32.lt_iff_toNat_lt.mp r.sjw_pos
  have hone := h.seg1
  have hseg1 := seg1_of_le hpos hfirst
  have hseg2 : r.seg2 tq = tq - r.beforeSample tq := seg2_of_le (by omega)
  have hseg2' : (tq - r.beforeSample tq - 1) % 128 + 1 = tq - r.beforeSample tq := by omega
  rw [← hseg2] at hshared
  rw [hreg.prescaler, hreg.seg1, hreg.seg2, hreg.sjw,
    if_neg (fun hb => absurd (hshared.mpr hb.2) (by omega)),
    if_neg (fun hb => absurd (hshared.mp hb.1) (by omega)), hseg2, hseg2']
  refine ⟨?_, ?_, by omega, by omega, ⟨h.prescaler_pos, h.prescaler_le⟩, ⟨by omega, by omega⟩,
    ⟨by omega, hsecond⟩, by omega⟩
  · rw [hseg1, Nat.add_sub_cancel' (Nat.le_of_lt hbefore)]
    exact h.rate
  · rw [hseg1, beforeSample_mul h.whole, Nat.add_sub_cancel' (Nat.le_of_lt hbefore), Nat.mul_comm]

theorem timing_of_clock_eq_zero (hclock : r.clockHz = 0) : r.timing = (0, none) :=
  if_pos (.inl hclock)

theorem sound_iff (r : NominalRequest) :
    r.Sound ↔ r.clockHz ≠ 0 ∧ ∀ tq, r.Chosen tq → r.Fits tq := by
  by_cases hclock : r.clockHz = 0
  · refine iff_of_false (fun hsound => ?_) fun h => h.1 hclock
    rw [Sound, timing_of_clock_eq_zero hclock] at hsound
    obtain ⟨reg, hreg, -⟩ := hsound rfl
    cases hreg
  have hmax := r.maxTq_le
  rcases timing_cases hclock with ⟨tq, hchosen, htiming⟩ | ⟨hnone, htiming⟩
  · have hle : tq ≤ 512 := Nat.le_trans hchosen.le hmax
    have hreg := decoded_of_accepted hchosen.ge hle hchosen.holds
    rw [Sound, htiming]
    constructor
    · intro hsound
      refine ⟨hclock, fun t ht => ?_⟩
      obtain ⟨reg, hsome, hmet⟩ := hsound rfl
      cases hsome
      rw [ht.unique hchosen]
      exact fits_of_metBy hchosen.ge hle hchosen.holds hreg hmet
    · rintro ⟨-, hfits⟩ -
      exact ⟨_, rfl, metBy_of_fits hchosen.ge hchosen.holds hreg (hfits tq hchosen)⟩
  · refine iff_of_true (fun hzero => ?_) ⟨hclock, fun tq h => absurd h.holds (hnone tq h.ge h.le)⟩
    rw [htiming] at hzero
    exact absurd hzero (by decide)

theorem afterSample_le (hle : tq ≤ 512) (hsp : r.samplePoint = 7500)
    (hwhole : tq * r.samplePoint.toNat % 10000 = 0) : tq - r.beforeSample tq ≤ 128 := by
  have hmul := beforeSample_mul hwhole
  rw [hsp, show UInt32.toNat 7500 = 7500 from rfl] at hmul
  omega

theorem rate_ne_of_short (hle : tq ≤ 512) (h : r.Accepted tq) {n : Nat} (hn : tq = n + 256)
    (hpos : 0 < n) : r.clockHz.toNat / (r.prescaler tq * n) ≠ r.bitrate.val.toNat := by
  intro hrate
  have hbound : r.clockHz.toNat < (r.bitrate.val.toNat + 1) * (r.prescaler tq * n) :=
    (Nat.div_lt_iff_lt_mul (Nat.mul_pos h.prescaler_pos hpos)).mp (by omega)
  have hlow : r.bitrate.val.toNat * (r.prescaler tq * tq) ≤ r.clockHz.toNat := by
    have hdiv := Nat.div_mul_le_self r.clockHz.toNat (r.prescaler tq * tq)
    rwa [h.rate] at hdiv
  have hlt : r.prescaler tq * (r.bitrate.val.toNat * tq) <
      r.prescaler tq * ((r.bitrate.val.toNat + 1) * n) := by
    rw [Nat.mul_left_comm, Nat.mul_left_comm _ (_ + 1)]
    exact Nat.lt_of_le_of_lt hlow hbound
  have hlt' := Nat.lt_of_mul_lt_mul_left hlt
  rcases r.bitrate_cases with hb | hb | hb <;> rw [hb] at hlt' <;> omega

theorem rate_iff (hge : 8 ≤ tq) (hle : tq ≤ 512) (h : r.Accepted tq)
    (hreg : r.Decoded tq reg) (hsp : r.samplePoint = 7500) (hsjw : r.sjw = 1) :
    r.clockHz.toNat / ((reg.getPrescaler false).toNat *
        (1 + (reg.getSeg1 false).toNat + (reg.getSeg2 false).toNat)) = r.bitrate.val.toNat ↔
      r.beforeSample tq ≤ 256 := by
  have hbefore := r.beforeSample_lt hge
  have hpos := beforeSample_pos hge h.whole
  have hafter := afterSample_le hle hsp h.whole
  have hone := h.seg1
  have hseg2 : r.seg2 tq = tq - r.beforeSample tq := seg2_of_le (by omega)
  have hmin : min r.sjw.toNat (r.seg2 tq) = 1 := by
    rw [hsjw, hseg2]
    exact Nat.min_eq_left (show 1 ≤ _ by omega)
  rw [hreg.prescaler, hreg.seg1, hreg.seg2, hmin, if_neg (fun h => absurd h.2 (by decide))]
  by_cases hfits : r.beforeSample tq ≤ 256
  · refine iff_of_true ?_ hfits
    rw [segments_add hge hpos hfits hafter]
    exact h.rate
  · rw [hseg2]
    refine iff_of_false (rate_ne_of_short hle h ?_ (by omega)) hfits
    unfold seg1
    omega

end NominalRequest

theorem baudrateSound_iff_timings (fdcanClock : UInt32) (baudrate : SupportedRate) :
    BaudrateSound fdcanClock baudrate ↔ ∀ t, baudrateTimings fdcanClock baudrate.val = some t →
      fdcanClock.toNat / (t.prescaler.toNat * (1 + t.seg1.toNat + t.seg2.toNat)) =
        baudrate.val.toNat := by
  have hsupported := baudrate.property
  constructor
  · intro hsound t ht
    let d : FdcanDriver := ⟨.initialized, .normal, t, false, false⟩
    refine hsound d d true ?_
    rw [FdcanDriver.setBaudrate.eq_def, if_pos hsupported, ht]
    rfl
  · intro hall d d' initialized hset
    rw [FdcanDriver.setBaudrate.eq_def, if_pos hsupported] at hset
    cases ht : baudrateTimings fdcanClock baudrate.val with
    | none => simp [ht] at hset
    | some t =>
      cases initialized with
      | false => simp [ht, FdcanDriver.init] at hset
      | true =>
        simp only [ht, FdcanDriver.init, if_true, Prod.mk.injEq, and_true] at hset
        rw [← hset]
        exact hall t ht

open NominalRequest in
theorem baudrateSound_iff (fdcanClock : UInt32) (baudrate : SupportedRate) :
    BaudrateSound fdcanClock baudrate ↔ fdcanClock ≠ 0 ∧
      ∀ tq, (ofBaudrate fdcanClock baudrate).Chosen tq →
        (ofBaudrate fdcanClock baudrate).beforeSample tq ≤ 256 := by
  have htiming : calculateBitTimingRegister fdcanClock baudrate.val 7500 1 false =
      (ofBaudrate fdcanClock baudrate).timing := rfl
  rw [baudrateSound_iff_timings]
  by_cases hclock : fdcanClock = 0
  · refine iff_of_false (fun hall => ?_) fun h => h.1 hclock
    have hrate := hall ⟨1, 1, 1, 1⟩ (by
      rw [baudrateTimings, htiming, timing_of_clock_eq_zero hclock]
      decide)
    rw [hclock] at hrate
    rcases (ofBaudrate fdcanClock baudrate).bitrate_cases with h | h | h <;>
      exact absurd (hrate.trans h) (by decide)
  rcases timing_cases (r := ofBaudrate fdcanClock baudrate) hclock with
    ⟨tq, hchosen, heq⟩ | ⟨hnone, heq⟩
  · have hle : tq ≤ 512 := Nat.le_trans hchosen.le (maxTq_le _)
    have hrate := rate_iff hchosen.ge hle hchosen.holds
      (decoded_of_accepted hchosen.ge hle hchosen.holds) rfl rfl
    rw [baudrateTimings, htiming, heq]
    constructor
    · intro hall
      refine ⟨hclock, fun t ht => ?_⟩
      rw [ht.unique hchosen]
      exact hrate.mp (hall _ rfl)
    · rintro ⟨-, hfits⟩ t ht
      cases ht
      exact hrate.mpr (hfits tq hchosen)
  · refine iff_of_true (fun t ht => ?_) ⟨hclock, fun tq h => absurd h.holds (hnone tq h.ge h.le)⟩
    rw [baudrateTimings, htiming, heq] at ht
    cases ht

open NominalRequest in
/-- When a result of 0 is the register that was asked for, and when `FDCAN_SetBaudrate` programs the
bit rate that it was given. -/
theorem bitTiming_sound_iff (r : NominalRequest) (fdcanClock : UInt32) (baudrate : SupportedRate) :
    (r.Sound ↔ r.clockHz ≠ 0 ∧ ∀ tq, r.Chosen tq → r.Fits tq) ∧
      (BaudrateSound fdcanClock baudrate ↔ fdcanClock ≠ 0 ∧
        ∀ tq, (ofBaudrate fdcanClock baudrate).Chosen tq →
          (ofBaudrate fdcanClock baudrate).beforeSample tq ≤ 256) :=
  ⟨sound_iff r, baudrateSound_iff fdcanClock baudrate⟩

/-- At 100 MHz the search stops at 400 time quanta, whose first segment of 299 is cut to 43, and the
controller is programmed for 694444 bit/s. -/
theorem bitTiming_unsound :
    ¬ ((∀ r : NominalRequest, r.Sound) ∧
      ∀ fdcanClock baudrate, BaudrateSound fdcanClock baudrate) := by
  rintro ⟨-, hsound⟩
  have ht : baudrateTimings 100000000 250000 = some ⟨1, 43, 100, 1⟩ := by decide +kernel
  let d : FdcanDriver := ⟨.initialized, .normal, ⟨1, 43, 100, 1⟩, false, false⟩
  have hrate := hsound 100000000 ⟨250000, .inl rfl⟩ d d true (by
    rw [ht]
    rfl)
  exact absurd hrate (by decide)

end CanSniffer.Drivers
