import CanSniffer.Drivers.Spi

/-! The bus clock of the SPI driver (`spi_utils.h`, `Spi_Init` and `Spi_goHighSpeed` in
`Spi_Cmds.c`).  What the HAL answers is an argument; of the fields of `Init` only the prescaler is
kept. -/

namespace CanSniffer.Drivers

inductive BaudratePrescaler
  | by2 | by4 | by8 | by16 | by32 | by64 | by128 | by256
  deriving DecidableEq, Repr

namespace BaudratePrescaler

def divisor : BaudratePrescaler → Nat
  | .by2 => 2
  | .by4 => 4
  | .by8 => 8
  | .by16 => 16
  | .by32 => 32
  | .by64 => 64
  | .by128 => 128
  | .by256 => 256

def Within (p : BaudratePrescaler) (spiClock maxOutClock : Nat) : Prop :=
  spiClock ≤ p.divisor * maxOutClock

instance (p : BaudratePrescaler) (spiClock maxOutClock : Nat) :
    Decidable (p.Within spiClock maxOutClock) :=
  inferInstanceAs (Decidable (_ ≤ _))

end BaudratePrescaler

def computePrescaler (spiClock : UInt32) (maxOutClock : UInt64) : BaudratePrescaler :=
  let factor := (spiClock.toUInt64 / maxOutClock).toUInt32
  if factor ≤ 2 then .by2
  else if factor ≤ 4 then .by4
  else if factor ≤ 8 then .by8
  else if factor ≤ 16 then .by16
  else if factor ≤ 32 then .by32
  else if factor ≤ 64 then .by64
  else if factor ≤ 128 then .by128
  else .by256

inductive SpiInstance
  | spi1 | spi2 | spi3 | spi4 | spi5 | spi6
  deriving DecidableEq, Repr

structure SpiHandle where
  inst : Option SpiInstance
  baudRatePrescaler : BaudratePrescaler
  deriving DecidableEq, Repr

/-- `Spi_Init`; `periphClkFreq` is `HAL_RCCEx_GetPeriphCLKFreq` and `hal` what `HAL_SPI_Init`
returns. -/
def spiInit (periphClkFreq : SpiInstance → UInt32) (handle : SpiHandle) (hal : HalStatus) :
    SpiHandle × HalStatus :=
  ({ handle with
      inst := some .spi1
      baudRatePrescaler := computePrescaler (periphClkFreq .spi1) 4000000 }, hal)

def spiGoHighSpeed (periphClkFreq : SpiInstance → UInt32) (handle : SpiHandle) (hal : HalStatus) :
    SpiHandle × CommCode :=
  match handle.inst with
  | none => (handle, .invalidParameter)
  | some i =>
    ({ handle with baudRatePrescaler := computePrescaler (periphClkFreq i) 25000000 },
      hal.toComm)

/-- If any prescaler keeps the bus clock within the maximum, this one does and is the smallest. -/
def BestPrescaler (p : BaudratePrescaler) (spiClock maxOutClock : Nat) : Prop :=
  (∃ q : BaudratePrescaler, q.Within spiClock maxOutClock) →
    p.Within spiClock maxOutClock ∧
      ∀ q : BaudratePrescaler, q.Within spiClock maxOutClock → p.divisor ≤ q.divisor

def JustAbove (spiClock maxOutClock : Nat) : Prop :=
  ∃ p : BaudratePrescaler, p ≠ .by256 ∧ p.divisor * maxOutClock < spiClock ∧
    spiClock < (p.divisor + 1) * maxOutClock

open BaudratePrescaler

theorem divisor_le_by256 (p : BaudratePrescaler) : p.divisor ≤ BaudratePrescaler.by256.divisor := by
  cases p <;> decide

theorem toNat_factor (spiClock : UInt32) (maxOutClock : UInt64) :
    (spiClock.toUInt64 / maxOutClock).toUInt32.toNat = spiClock.toNat / maxOutClock.toNat := by
  have hle := Nat.div_le_self spiClock.toNat maxOutClock.toNat
  have hlt := spiClock.toNat_lt
  rw [UInt64.toNat_toUInt32, UInt64.toNat_div, UInt32.toNat_toUInt64]
  exact Nat.mod_eq_of_lt (Nat.lt_of_le_of_lt hle hlt)

theorem computePrescaler_le_iff (spiClock : UInt32) (maxOutClock : UInt64) {p : BaudratePrescaler}
    (hp : p ≠ .by256) :
    (computePrescaler spiClock maxOutClock).divisor ≤ p.divisor ↔
      spiClock.toNat / maxOutClock.toNat ≤ p.divisor := by
  rw [← toNat_factor]
  unfold computePrescaler
  simp only [UInt32.le_iff_toNat_le]
  generalize (spiClock.toUInt64 / maxOutClock).toUInt32.toNat = factor
  cases p <;> grind [divisor, UInt32.toNat_ofNat]

theorem bestPrescaler_computePrescaler_iff (spiClock : UInt32) {maxOutClock : UInt64}
    (hmax : 0 < maxOutClock.toNat) :
    BestPrescaler (computePrescaler spiClock maxOutClock) spiClock.toNat maxOutClock.toNat ↔
      ¬ JustAbove spiClock.toNat maxOutClock.toNat := by
  have hfloor : ∀ p : BaudratePrescaler, spiClock.toNat / maxOutClock.toNat ≤ p.divisor ↔
      spiClock.toNat < (p.divisor + 1) * maxOutClock.toNat := by
    intro p
    rw [← Nat.lt_succ_iff, Nat.div_lt_iff_lt_mul hmax]
  constructor
  · rintro hbest ⟨p, hp, hlow, hhigh⟩
    have hchosen := (computePrescaler_le_iff spiClock maxOutClock hp).mpr ((hfloor p).mpr hhigh)
    have hlast : BaudratePrescaler.by256.Within spiClock.toNat maxOutClock.toNat := by
      have hlt : p.divisor + 1 ≤ BaudratePrescaler.by256.divisor := by
        cases p <;> first | decide | exact absurd rfl hp
      exact Nat.le_trans (Nat.le_of_lt hhigh) (Nat.mul_le_mul_right _ hlt)
    have hwithin := (hbest ⟨_, hlast⟩).1
    exact Nat.not_lt.mpr (Nat.le_trans hwithin (Nat.mul_le_mul_right _ hchosen)) hlow
  · rintro hclear ⟨q, hq⟩
    refine ⟨?_, ?_⟩
    · by_cases hlast : computePrescaler spiClock maxOutClock = .by256
      · rw [hlast]
        exact Nat.le_trans hq (Nat.mul_le_mul_right _ (divisor_le_by256 q))
      · have hhigh := (hfloor _).mp
          ((computePrescaler_le_iff spiClock maxOutClock hlast).mp (Nat.le_refl _))
        exact Nat.not_lt.mp fun hlow => hclear ⟨_, hlast, hlow, hhigh⟩
    · intro r hr
      by_cases hlast : r = .by256
      · rw [hlast]
        exact divisor_le_by256 _
      · refine (computePrescaler_le_iff spiClock maxOutClock hlast).mpr ((hfloor r).mpr ?_)
        rw [Nat.succ_mul]
        exact Nat.lt_of_le_of_lt hr (Nat.lt_add_of_pos_right hmax)

/-- The two speeds are the right ones exactly if the kernel clock lies just above no multiple. -/
theorem spiSpeeds_iff (periphClkFreq : SpiInstance → UInt32) (handle : SpiHandle) (i : SpiInstance)
    (hal : HalStatus) :
    (BestPrescaler (spiInit periphClkFreq handle hal).1.baudRatePrescaler
        (periphClkFreq .spi1).toNat 4000000 ↔
      ¬ JustAbove (periphClkFreq .spi1).toNat 4000000) ∧
    (BestPrescaler
        (spiGoHighSpeed periphClkFreq { handle with inst := some i } hal).1.baudRatePrescaler
        (periphClkFreq i).toNat 25000000 ↔
      ¬ JustAbove (periphClkFreq i).toNat 25000000) :=
  ⟨bestPrescaler_computePrescaler_iff _ (show 0 < (4000000 : UInt64).toNat by decide),
    bestPrescaler_computePrescaler_iff _ (show 0 < (25000000 : UInt64).toNat by decide)⟩

/-- PLL2 with `PLL2FRACN = 1`: SPI1 runs on 100000120 Hz and the card on more than 25 MHz. -/
theorem spiGoHighSpeed_above_max :
    ¬ ∀ (periphClkFreq : SpiInstance → UInt32) (handle : SpiHandle) (hal : HalStatus),
      handle.inst = some .spi1 →
        BestPrescaler (spiGoHighSpeed periphClkFreq handle hal).1.baudRatePrescaler
          (periphClkFreq .spi1).toNat 25000000 := by
  intro h
  have hbest := h (fun _ => 100000120) ⟨some .spi1, .by2⟩ .ok rfl
  exact absurd (hbest ⟨.by256, by decide⟩).1 (by decide)

end CanSniffer.Drivers
