import Mathlib.Algebra.Polynomial.Div

universe u

namespace CanSniffer.Lib

namespace Crc

open Polynomial

variable {R : Type u} [CommRing R] {n : Nat} {p : R[X]}

/-- The remainder of `m * X ^ n` modulo `X ^ n + p`. -/
noncomputable def remainder (n : Nat) (p m : R[X]) : R[X] := (m * X ^ n) %ₘ (X ^ n + p)

theorem degree_generator [Nontrivial R] (hp : p.degree < n) :
    degree (X ^ n + p) = (n : WithBot Nat) := by
  rw [degree_add_eq_left_of_degree_lt (by rwa [degree_X_pow]), degree_X_pow]

theorem degree_remainder_lt [Nontrivial R] (hp : p.degree < n) (m : R[X]) :
    (remainder n p m).degree < n := by
  have h := degree_modByMonic_lt (m * X ^ n) (monic_X_pow_add hp)
  rwa [degree_generator hp] at h

@[simp] theorem remainder_zero : remainder n p 0 = 0 := by
  rw [remainder, zero_mul, zero_modByMonic]

theorem remainder_mul_X_add_C [Nontrivial R] (hn : 0 < n) (hp : p.degree < n) (m : R[X]) (b : R) :
    remainder n p (m * X + C b) =
      remainder n p m * X - C ((remainder n p m).coeff (n - 1)) * X ^ n -
        C ((remainder n p m).coeff (n - 1) + b) * p := by
  have hmonic := monic_X_pow_add hp
  have hdegree := degree_remainder_lt hp m
  have hdiv : remainder n p m + (X ^ n + p) * ((m * X ^ n) /ₘ (X ^ n + p)) = m * X ^ n :=
    modByMonic_add_div _ _
  generalize remainder n p m = r at hdegree hdiv
  generalize (m * X ^ n) /ₘ (X ^ n + p) = q at hdiv
  refine (div_modByMonic_unique (q * X + C (r.coeff (n - 1) + b)) _ hmonic ⟨?_, ?_⟩).2
  · have hmessage : (m * X + C b) * X ^ n = (m * X ^ n) * X + C b * X ^ n := by ring
    rw [hmessage, ← hdiv, C_add]
    ring
  · rw [degree_generator hp, degree_lt_iff_coeff_zero]
    rw [degree_lt_iff_coeff_zero] at hdegree hp
    intro i hi
    obtain ⟨i, rfl⟩ : ∃ k, i = k + 1 := ⟨i - 1, by omega⟩
    rw [coeff_sub, coeff_sub, coeff_mul_X, coeff_C_mul, coeff_C_mul, coeff_X_pow, hp _ hi, mul_zero,
      sub_zero]
    by_cases htop : i + 1 = n
    · rw [if_pos htop, ← htop, Nat.add_sub_cancel, mul_one, sub_self]
    · rw [if_neg htop, mul_zero, sub_zero]
      exact hdegree i (by omega)

end Crc

end CanSniffer.Lib
