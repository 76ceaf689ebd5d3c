namespace CanSniffer.Lib

namespace Bits

theorem forall_byte {p : UInt8 → Prop} (h : ∀ n : Fin 256, p ⟨⟨n⟩⟩) (b : UInt8) : p b := h b.toFin

def ofBytes (raw : Nat → UInt8) : Nat → Nat
  | 0 => 0
  | n + 1 => ofBytes raw n * 256 + (raw n).toNat

def range (reg hi lo : Nat) : Nat := reg >>> lo % (1 <<< (hi + 1 - lo))

variable {raw : Nat → UInt8} {reg hi mid lo n k s w : Nat}

theorem ofBytes_shiftRight (h : k < n) :
    ofBytes raw n >>> (8 * k) % 256 = (raw (n - 1 - k)).toNat := by
  induction n generalizing k with
  | zero => omega
  | succ n ih =>
    have hlt := (raw n).toNat_lt
    have hbyte : (ofBytes raw n * 256 + (raw n).toNat) >>> 8 = ofBytes raw n := by
      rw [Nat.shiftRight_eq_div_pow]
      omega
    cases k with
    | zero =>
      rw [Nat.mul_zero, Nat.shiftRight_zero, ofBytes, Nat.add_sub_cancel, Nat.sub_zero]
      omega
    | succ k =>
      have hshift : 8 * (k + 1) = 8 + 8 * k := by omega
      rw [ofBytes, hshift, Nat.shiftRight_add, hbyte, ih (by omega)]
      exact congrArg (fun i => (raw i).toNat) (by omega)

theorem range_of_byte (hw : 0 < w) (h : s + w ≤ 8) :
    range reg (8 * k + s + w - 1) (8 * k + s) =
      (reg >>> (8 * k) % 256) >>> s % (1 <<< w) := by
  have hwidth : 8 * k + s + w - 1 + 1 - (8 * k + s) = w := by omega
  rw [range, hwidth, Nat.shiftRight_add, Nat.one_shiftLeft]
  refine Nat.eq_of_testBit_eq fun i => ?_
  rw [show 256 = 2 ^ 8 from rfl]
  simp only [Nat.testBit_mod_two_pow, Nat.testBit_shiftRight]
  by_cases hi : i < w
  · simp [hi, show s + i < 8 by omega]
  · simp [hi]

theorem range_split (h : lo < mid) (h' : mid ≤ hi) :
    range reg hi lo = range reg hi mid * (1 <<< (mid - lo)) + range reg (mid - 1) lo := by
  have hwidth : hi + 1 - lo = (mid - lo) + (hi + 1 - mid) := by omega
  have hlow : mid - 1 + 1 - lo = mid - lo := by omega
  have hmid : mid = lo + (mid - lo) := by omega
  have hshift : reg >>> mid = reg >>> lo / 2 ^ (mid - lo) := by
    rw [← Nat.shiftRight_eq_div_pow, ← Nat.shiftRight_add, ← hmid]
  simp only [range]
  rw [hwidth, hlow, hshift, Nat.one_shiftLeft, Nat.one_shiftLeft, Nat.one_shiftLeft, Nat.pow_add,
    Nat.mod_mul, Nat.mul_comm (2 ^ (mid - lo))]
  exact Nat.add_comm _ _

theorem shiftLeft_or_of_lt {a b k : Nat} (h : b < 1 <<< k) : a <<< k ||| b = a * (1 <<< k) + b := by
  rw [Nat.one_shiftLeft] at h ⊢
  rw [← Nat.shiftLeft_add_eq_or_of_lt h, Nat.shiftLeft_eq]

theorem range_lt : range reg hi lo < 1 <<< (hi + 1 - lo) :=
  Nat.mod_lt _ (by rw [Nat.one_shiftLeft]; exact Nat.two_pow_pos _)

end Bits

end CanSniffer.Lib
