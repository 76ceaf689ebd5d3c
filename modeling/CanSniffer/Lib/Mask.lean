namespace CanSniffer.Lib

namespace Mask

def bit (i : Nat) : UInt32 := 1 <<< UInt32.ofNat i

def below (n : Nat) : UInt32 := if 32 ≤ n then 0xFFFFFFFF else bit n - 1

def popcount (m : UInt32) : Nat := (List.range 32).countP (m.toNat.testBit ·)

def Mem (i : Nat) (m : UInt32) : Prop := m.toNat.testBit i = true

instance (i : Nat) (m : UInt32) : Decidable (Mem i m) := inferInstanceAs (Decidable (_ = _))

variable {i j : Nat} {m k : UInt32}

theorem toNat_bit (hi : i < 32) : (bit i).toNat = Nat.pow 2 i := by
  have hmod : i % 4294967296 % 32 = i := by omega
  have hlt : Nat.pow 2 i < 4294967296 := Nat.pow_lt_pow_right (by decide) hi
  rw [bit, UInt32.toNat_shiftLeft, UInt32.toNat_ofNat', hmod, Nat.shiftLeft_eq]
  change 1 * Nat.pow 2 i % 4294967296 = _
  rw [Nat.one_mul, Nat.mod_eq_of_lt hlt]

@[simp] theorem mem_zero : ¬ Mem i 0 := by simp [Mem]

@[simp] theorem mem_or : Mem i (m ||| k) ↔ Mem i m ∨ Mem i k := by simp [Mem]

@[simp] theorem mem_and : Mem i (m &&& k) ↔ Mem i m ∧ Mem i k := by simp [Mem]

theorem mem_bit (hi : i < 32) : Mem j (bit i) ↔ j = i := by
  have htest : Nat.testBit (Nat.pow 2 i) j = decide (i = j) := Nat.testBit_two_pow
  rw [Mem, toNat_bit hi, htest, decide_eq_true_eq]
  exact eq_comm

theorem lt_of_mem (h : Mem i m) : i < 32 := by
  rcases Nat.lt_or_ge i 32 with hlt | hge
  · exact hlt
  · have hpow : 4294967296 ≤ Nat.pow 2 i := Nat.pow_le_pow_right (show 0 < 2 by decide) hge
    have hfalse : m.toNat.testBit i = false :=
      Nat.testBit_lt_two_pow (Nat.lt_of_lt_of_le m.toNat_lt hpow)
    rw [Mem, hfalse] at h
    cases h

theorem ext (h : ∀ i, Mem i m ↔ Mem i k) : m = k := by
  apply UInt32.toNat_inj.mp
  apply Nat.eq_of_testBit_eq
  intro i
  exact Bool.eq_iff_iff.mpr (h i)

theorem mem_below {n : Nat} (hi : i < 32) : Mem i (below n) ↔ i < n := by
  have htest (k : Nat) : Nat.testBit (Nat.pow 2 k - 1) i = decide (i < k) :=
    Nat.testBit_two_pow_sub_one k i
  rw [below]
  split
  · have hall : (0xFFFFFFFF : UInt32).toNat = Nat.pow 2 32 - 1 := rfl
    rw [Mem, hall, htest, decide_eq_true_eq]
    omega
  · rename_i hn
    have hone : (1 : UInt32) ≤ bit n := by
      rw [UInt32.le_iff_toNat_le, toNat_bit (by omega)]
      exact Nat.pow_pos (show 0 < 2 by decide)
    rw [Mem, UInt32.toNat_sub_of_le _ _ hone, toNat_bit (by omega)]
    change Nat.testBit (Nat.pow 2 n - 1) i = true ↔ _
    rw [htest, decide_eq_true_eq]

theorem and_bit_eq_zero_iff (hi : i < 32) : m &&& bit i = 0 ↔ ¬ Mem i m := by
  constructor
  · intro hzero hmem
    have hboth : Mem i (m &&& bit i) := mem_and.mpr ⟨hmem, (mem_bit hi).mpr rfl⟩
    rw [hzero] at hboth
    exact mem_zero hboth
  · intro hmem
    apply ext
    intro j
    rw [mem_and, mem_bit hi]
    constructor
    · rintro ⟨hj, rfl⟩
      exact absurd hj hmem
    · intro hj
      exact absurd hj mem_zero

end Mask

end CanSniffer.Lib
