import CanSniffer.Drivers.CanAbsLaws

namespace CanSniffer.Drivers

open Lib

section

variable {p g hw last : UInt64} {t : Nat}

structure Stamped (p g hw : UInt64) (t : Nat) : Prop where
  period_pos : 0 < p.toNat
  arrival_lt : t < 0x4000000000000000
  interrupt_lt : g.toNat < 0x4000000000000000
  after : 2 * ((g.toNat : Int) - t) < p.toNat
  before : 2 * ((t : Int) - g.toNat) < p.toNat
  count : hw.toNat = t % p.toNat

namespace Stamped

theorem count_lt (h : Stamped p g hw t) : hw.toNat < 0x8000000000000000 := by
  have hle := Nat.mod_le t p.toNat
  rw [h.count]
  exact Nat.lt_of_le_of_lt hle (Nat.lt_trans h.arrival_lt (by decide))

theorem position_lt (h : Stamped p g hw t) : (g % p).toNat < 0x8000000000000000 := by
  rw [UInt64.toNat_mod]
  exact Nat.lt_of_le_of_lt (Nat.mod_le ..) (Nat.lt_trans h.interrupt_lt (by decide))

theorem timeDiff_eq (h : Stamped p g hw t) :
    (hw.toInt64 - (g % p).toInt64).toInt = ((t % p.toNat : Nat) : Int) - (g.toNat % p.toNat : Nat) := by
  rw [toInt_sub_toInt64 h.count_lt h.position_lt, h.count, UInt64.toNat_mod]

theorem nearest_eq (h : Stamped p g hw t) : nearest p.toNat g.toNat hw.toNat = t := by
  rw [h.count, Int.natCast_emod]
  exact (nearest_eq_iff (Int.ofNat_lt.mpr h.period_pos)).mpr (.inl ⟨h.before, h.after⟩)

theorem epoch_pos (h : Stamped p g hw t)
    (hprevious : (p / 2).toInt64 < hw.toInt64 - (g % p).toInt64) : 0 < (g / p).toNat := by
  rw [Int64.lt_iff_toInt_lt, toInt_toInt64 (toNat_half_lt p), h.timeDiff_eq, UInt64.toNat_div,
    show UInt64.toNat 2 = 2 from rfl] at hprevious
  rw [UInt64.toNat_div]
  refine Nat.div_pos ?_ h.period_pos
  rcases Nat.lt_or_ge g.toNat p.toNat with hlt | hge
  · rw [Nat.mod_eq_of_lt hlt] at hprevious
    have hle := Nat.mod_le t p.toNat
    have hbefore := h.before
    omega
  · exact hge

theorem epoch_lt (h : Stamped p g hw t) : (g / p).toNat + 1 < 0x8000000000000000 := by
  rw [UInt64.toNat_div]
  have hle := Nat.div_le_self g.toNat p.toNat
  have hlt := h.interrupt_lt
  omega

end Stamped

/-- The result is the arrival itself, which is also kept as the last one, and neither the epoch nor
the signed difference wraps around on the way. -/
theorem reconstructFullTimestamp_exact (h : Stamped p g hw t) (hlast : last.toNat ≤ t) :
    reconstructFullTimestamp p hw g last = (UInt64.ofNat t, UInt64.ofNat t) ∧
      (hw.toInt64 - (g % p).toInt64).toInt =
        ((t % p.toNat : Nat) : Int) - (g.toNat % p.toNat : Nat) ∧
      ((p / 2).toInt64 < hw.toInt64 - (g % p).toInt64 → 0 < (g / p).toNat) ∧
      (g / p).toNat + 1 < 0x8000000000000000 := by
  refine ⟨?_, h.timeDiff_eq, h.epoch_pos, h.epoch_lt⟩
  have hp0 : p ≠ 0 := by
    rintro rfl
    exact Nat.lt_irrefl 0 h.period_pos
  have hR := epoch_spec (p := p) (Nat.lt_trans h.interrupt_lt (by decide)) h.count_lt
  rw [h.nearest_eq] at hR
  have ht := h.arrival_lt
  unfold reconstructFullTimestamp
  rw [if_neg hp0]
  simp only
  generalize hepoch : (if (p / 2).toInt64 < hw.toInt64 - (g % p).toInt64 then g / p - 1
      else if hw.toInt64 - (g % p).toInt64 < -(p / 2).toInt64 then g / p + 1
      else g / p) * p + hw = R at hR ⊢
  have hRt : R.toNat = t := by
    simp only [UInt64.size] at hR
    omega
  have hR' : R = UInt64.ofNat t := by rw [← hRt, UInt64.ofNat_toNat]
  have hhalf := toNat_half_lt p
  -- the last time is not later than this one, so nothing is corrected
  have hnot : ¬R + p / 2 < last := by
    rw [UInt64.lt_iff_toNat_lt, UInt64.toNat_add, hRt]
    omega
  rw [if_neg hnot, ite_self, hR']

theorem reconstructFullTimestamp_exact_overflow :
    Stamped 64000 128010 63990 127990 ∧ reconstructFullTimestamp 64000 63990 128010 127000 =
      (127990, 127990) := by
  have h : Stamped 64000 128010 63990 127990 := by
    constructor <;> decide
  exact ⟨h, (reconstructFullTimestamp_exact h (by decide)).1⟩

end

end CanSniffer.Drivers
