namespace CanSniffer.Lib

/-- Closer than half a period to `ref`; at exactly half a period, not across an overflow. -/
def Near (period ref t : Int) : Prop :=
  (2 * (t - ref) < period ∧ 2 * (ref - t) < period) ∨
  ((2 * (t - ref) = period ∨ 2 * (ref - t) = period) ∧ t / period = ref / period)

/-- Of the times at which the counter shows `count`, the one by `ref`. -/
def nearest (period ref count : Int) : Int :=
  if period / 2 < count - ref % period then (ref / period - 1) * period + count
  else if count - ref % period < -(period / 2) then (ref / period + 1) * period + count
  else ref / period * period + count

/-- `t` moved by whole periods that are also multiples of `modulus`. -/
def NearUpTo (modulus period ref t : Int) : Prop :=
  ∃ t', period ∣ t' - t ∧ modulus ∣ t' - t ∧ Near period ref t'

variable {period ref t modulus : Int}

theorem nearest_eq_add (period ref count : Int) :
    ∃ k, nearest period ref count = k * period + count ∧
      (period / 2 < count - ref % period ∧ k = ref / period - 1 ∨
        count - ref % period < -(period / 2) ∧ k = ref / period + 1 ∨
        ¬period / 2 < count - ref % period ∧ ¬count - ref % period < -(period / 2) ∧
          k = ref / period) := by
  unfold nearest
  split
  · next h => exact ⟨_, rfl, .inl ⟨h, rfl⟩⟩
  · next h =>
    split
    · next h' => exact ⟨_, rfl, .inr (.inl ⟨h', rfl⟩)⟩
    · next h' => exact ⟨_, rfl, .inr (.inr ⟨h, h', rfl⟩)⟩

theorem ediv_add_mul (hp : 0 < period) (h0 : 0 ≤ count) (hlt : count < period) (k : Int) :
    (k * period + count) / period = k := by
  rw [Int.add_comm, Int.add_mul_ediv_right _ _ (Int.ne_of_gt hp), Int.ediv_eq_zero_of_lt h0 hlt,
    Int.zero_add]

theorem emod_add_mul (h0 : 0 ≤ count) (hlt : count < period) (k : Int) :
    (k * period + count) % period = count := by
  rw [Int.add_comm, Int.add_mul_emod_self_right, Int.emod_eq_of_lt h0 hlt]

theorem nearest_emod (h0 : 0 ≤ count) (hlt : count < period) :
    nearest period ref count % period = count := by
  obtain ⟨k, hk, -⟩ := nearest_eq_add period ref count
  rw [hk, emod_add_mul h0 hlt]

theorem near_nearest (h0 : 0 ≤ count) (hlt : count < period) :
    Near period ref (nearest period ref count) := by
  have hp : 0 < period := Int.lt_of_le_of_lt h0 hlt
  obtain ⟨k, hk, hcase⟩ := nearest_eq_add period ref count
  have href := Int.mul_ediv_add_emod ref period
  have hr0 := Int.emod_nonneg ref (Int.ne_of_gt hp)
  have hrlt := Int.emod_lt_of_pos ref hp
  rw [Int.mul_comm] at href
  rw [hk]
  unfold Near
  rw [ediv_add_mul hp h0 hlt]
  rcases hcase with ⟨hlarge, rfl⟩ | ⟨hsmall, rfl⟩ | ⟨hl, hs, rfl⟩
  · rw [Int.sub_mul, Int.one_mul]
    omega
  · rw [Int.add_mul, Int.one_mul]
    omega
  · omega

theorem Near.unique (hp : 0 < period) {s : Int} (hs : Near period ref s) (ht : Near period ref t)
    (h : s % period = t % period) : s = t := by
  have hs' := Int.mul_ediv_add_emod s period
  have ht' := Int.mul_ediv_add_emod t period
  have hr' := Int.mul_ediv_add_emod ref period
  have hr0 := Int.emod_nonneg ref (Int.ne_of_gt hp)
  have hrlt := Int.emod_lt_of_pos ref hp
  have ht0 := Int.emod_nonneg t (Int.ne_of_gt hp)
  have htlt := Int.emod_lt_of_pos t hp
  rw [h] at hs'
  suffices hdiv : s / period = t / period by rw [← hs', hdiv, ht']
  -- the quotients differ by less than one in one of the two ways, or both lie in `ref`'s period
  have hbound (a b : Int) (hab : a < b) : period * a + period ≤ period * b := by
    have := Int.mul_le_mul_of_nonneg_left (Int.add_one_le_of_lt hab) (Int.le_of_lt hp)
    rwa [Int.mul_add, Int.mul_one] at this
  unfold Near at hs ht
  rcases Int.lt_trichotomy (s / period) (t / period) with hlt | heq | hgt
  · have := hbound _ _ hlt
    omega
  · exact heq
  · have := hbound _ _ hgt
    omega

theorem nearest_eq_iff (hp : 0 < period) :
    nearest period ref (t % period) = t ↔ Near period ref t := by
  have h0 := Int.emod_nonneg t (Int.ne_of_gt hp)
  have hlt := Int.emod_lt_of_pos t hp
  constructor
  · intro h
    rw [← h]
    exact near_nearest h0 hlt
  · intro h
    exact Near.unique hp (near_nearest h0 hlt) h (nearest_emod h0 hlt)

theorem nearest_congr_iff (hp : 0 < period) :
    modulus ∣ nearest period ref (t % period) - t ↔ NearUpTo modulus period ref t := by
  have h0 := Int.emod_nonneg t (Int.ne_of_gt hp)
  have hlt := Int.emod_lt_of_pos t hp
  constructor
  · intro h
    refine ⟨_, ?_, h, near_nearest h0 hlt⟩
    exact Int.dvd_of_emod_eq_zero
      (Int.emod_eq_emod_iff_emod_sub_eq_zero.mp (nearest_emod h0 hlt))
  · rintro ⟨t', hperiod, hmod, hnear⟩
    have : t % period = t' % period := (Int.emod_eq_emod_iff_emod_sub_eq_zero.mpr
      (Int.emod_eq_zero_of_dvd hperiod)).symm
    rwa [this, (nearest_eq_iff hp).mpr hnear]

section Following

variable {period since count a b t : Nat}

/-- The first time from `since` on at which the counter shows `count`. -/
def following (period since count : Nat) : Nat :=
  if count < since % period then (since / period + 1) * period + count
  else since / period * period + count

theorem following_mod (h : count < period) : following period since count % period = count := by
  unfold following
  split <;> rw [Nat.mul_add_mod_self_right, Nat.mod_eq_of_lt h]

theorem following_bounds (since : Nat) (h : count < period) :
    since ≤ following period since count ∧ following period since count < since + period := by
  have hsince := Nat.div_add_mod' since period
  have hlt := Nat.mod_lt since (Nat.zero_lt_of_lt h)
  unfold following
  split
  · rw [Nat.succ_mul (since / period)]
    omega
  · omega

theorem eq_of_mod_eq (h : a % period = b % period) (ha : t ≤ a) (ha' : a < t + period)
    (hb : t ≤ b) (hb' : b < t + period) : a = b := by
  have hab : a - b = 0 := by
    rw [← Nat.mod_eq_of_lt (by omega : a - b < period)]
    exact Nat.sub_mod_eq_zero_of_mod_eq h
  have hba : b - a = 0 := by
    rw [← Nat.mod_eq_of_lt (by omega : b - a < period)]
    exact Nat.sub_mod_eq_zero_of_mod_eq h.symm
  omega

theorem following_eq_iff (hp : 0 < period) :
    following period since (t % period) = t ↔ since ≤ t ∧ t < since + period := by
  have hlt := Nat.mod_lt t hp
  have hbounds := following_bounds since hlt
  constructor
  · intro h
    rwa [h] at hbounds
  · rintro ⟨hle, hlt'⟩
    exact eq_of_mod_eq (following_mod hlt) hbounds.1 hbounds.2 hle hlt'

end Following

end CanSniffer.Lib
