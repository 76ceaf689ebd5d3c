universe u

namespace CanSniffer.Lib

structure Greatest (P : Nat → Prop) (low high i : Nat) : Prop where
  ge : low ≤ i
  le : i ≤ high
  holds : P i
  most : ∀ j, i < j → j ≤ high → ¬ P j

namespace Greatest

variable {P : Nat → Prop} {low high i j : Nat}

theorem unique (hi : Greatest P low high i) (hj : Greatest P low high j) : i = j := by
  rcases Nat.lt_trichotomy i j with hlt | heq | hgt
  · exact absurd hj.holds (hi.most j hlt hj.le)
  · exact heq
  · exact absurd hi.holds (hj.most i hgt hi.le)

theorem succ (hi : Greatest P low high i) (hmiss : ¬ P (high + 1)) :
    Greatest P low (high + 1) i where
  ge := hi.ge
  le := Nat.le_succ_of_le hi.le
  holds := hi.holds
  most j hlt hle := by
    rcases Nat.le_succ_iff.mp hle with h | rfl
    · exact hi.most j hlt h
    · exact hmiss

theorem self (hle : low ≤ high) (hhit : P high) : Greatest P low high high where
  ge := hle
  le := Nat.le_refl high
  holds := hhit
  most _ hlt hle := absurd hle (Nat.not_le.mpr hlt)

end Greatest

section Countdown

variable {β : Type u} {search hit : Nat → β} {miss : β} {P : Nat → Prop} {low high : Nat}

theorem countdown_cases (hpos : 0 < low) (hend : ∀ n, n < low → search n = miss)
    (hhit : ∀ n, low ≤ n → n ≤ high → P n → search n = hit n)
    (hmiss : ∀ n, low ≤ n + 1 → n + 1 ≤ high → ¬ P (n + 1) → search (n + 1) = search n) :
    (∃ i, Greatest P low high i ∧ search high = hit i) ∨
      (∀ i, low ≤ i → i ≤ high → ¬ P i) ∧ search high = miss := by
  suffices h : ∀ n, n ≤ high → (∃ i, Greatest P low n i ∧ search n = hit i) ∨
      (∀ i, low ≤ i → i ≤ n → ¬ P i) ∧ search n = miss from h high (Nat.le_refl high)
  intro n
  induction n with
  | zero => exact fun _ => .inr ⟨fun i hge hle => absurd hge (by omega), hend 0 hpos⟩
  | succ n ih =>
    intro hle
    by_cases hlow : n + 1 < low
    · exact .inr ⟨fun i hge hle => absurd hge (by omega), hend _ hlow⟩
    have hlow := Nat.not_lt.mp hlow
    by_cases hP : P (n + 1)
    · exact .inl ⟨n + 1, .self hlow hP, hhit _ hlow hle hP⟩
    rw [hmiss n hlow hle hP]
    rcases ih (Nat.le_of_succ_le hle) with ⟨i, hi, heq⟩ | ⟨hnone, heq⟩
    · exact .inl ⟨i, hi.succ hP, heq⟩
    · refine .inr ⟨fun i hge hle' => ?_, heq⟩
      rcases Nat.le_succ_iff.mp hle' with h | rfl
      · exact hnone i hge h
      · exact hP

end Countdown

end CanSniffer.Lib
