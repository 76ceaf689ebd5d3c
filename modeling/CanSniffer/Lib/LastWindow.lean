import Mathlib.Data.List.Dedup

universe u

namespace CanSniffer.Lib

variable {α : Type u}

def unreplaced (replaces : α → α → Bool) : List α → List α
  | [] => []
  | a :: later =>
    if later.any (replaces · a) then unreplaced replaces later
    else a :: unreplaced replaces later

variable {replaces : α → α → Bool} {l : List α} {a b : α}

theorem unreplaced_append_singleton (l : List α) (b : α) :
    unreplaced replaces (l ++ [b]) = (unreplaced replaces l).filter (!replaces b ·) ++ [b] := by
  induction l with
  | nil => simp [unreplaced]
  | cons a l ih =>
    simp only [List.cons_append, unreplaced, List.any_append, List.any_cons, List.any_nil,
      Bool.or_false, ih]
    cases hl : l.any (replaces · a) <;> cases hb : replaces b a <;> simp [hb]

theorem mem_of_mem_unreplaced (h : a ∈ unreplaced replaces l) : a ∈ l := by
  induction l with
  | nil => cases h
  | cons b l ih =>
    rw [unreplaced] at h
    split at h
    · exact List.mem_cons_of_mem b (ih h)
    · rcases List.mem_cons.mp h with rfl | h
      · exact List.mem_cons_self
      · exact List.mem_cons_of_mem b (ih h)

theorem pairwise_unreplaced (l : List α) :
    (unreplaced replaces l).Pairwise fun a b => replaces b a = false := by
  induction l with
  | nil => exact .nil
  | cons a l ih =>
    rw [unreplaced]
    split
    · exact ih
    · rename_i hany
      refine .cons ?_ ih
      intro b hb
      by_contra hne
      exact hany (List.any_eq_true.mpr ⟨b, mem_of_mem_unreplaced hb, by simpa using hne⟩)

variable [DecidableEq α]

theorem dedup_append_singleton (l : List α) (b : α) :
    (l ++ [b]).dedup = l.dedup.filter (· ≠ b) ++ [b] := by
  induction l with
  | nil => rfl
  | cons a l ih =>
    by_cases hmem : a ∈ l
    · rw [List.cons_append, List.dedup_cons_of_mem (List.mem_append_left _ hmem), ih,
        List.dedup_cons_of_mem hmem]
    · by_cases hab : a = b
      · subst hab
        rw [List.cons_append, List.dedup_cons_of_mem (by simp), ih, List.dedup_cons_of_notMem hmem]
        simp
      · rw [List.cons_append, List.dedup_cons_of_notMem (by simp [hmem, hab]), ih,
          List.dedup_cons_of_notMem hmem]
        simp [hab]

theorem dedup_map_unreplaced {β : Type u} {replaces : β → β → Bool} (f : β → α)
    (hsame : ∀ a b, replaces b a = true → f b = f a) (l : List β) :
    ((unreplaced replaces l).map f).dedup = (l.map f).dedup := by
  induction l with
  | nil => rfl
  | cons a l ih =>
    have hmem : f a ∈ (unreplaced replaces l).map f ↔ f a ∈ l.map f := by
      rw [← List.mem_dedup, ih, List.mem_dedup]
    rw [unreplaced, List.map_cons, List.dedup_cons]
    split
    · rename_i hany
      obtain ⟨b, hb, hr⟩ := List.any_eq_true.mp hany
      have hin : f a ∈ l.map f := List.mem_map.mpr ⟨b, hb, hsame a b hr⟩
      rw [ih, if_pos hin]
    · rw [List.map_cons, List.dedup_cons, ih]
      simp only [hmem]

/-- The last `n` of the numbers below `w`, or all of them, modulo `n`. -/
def lastWindow (n w : Nat) : List Nat := (List.range' (w - n) (min w n)).map (· % n)

variable {n w : Nat}

@[simp] theorem length_lastWindow : (lastWindow n w).length = min w n := by simp [lastWindow]

theorem mod_ne_of_lt {i j : Nat} (hlt : i < j) (hnear : j < i + n) : i % n ≠ j % n := by
  intro hmod
  have hzero : (j - i) % n = 0 := Nat.sub_mod_eq_zero_of_mod_eq hmod.symm
  rw [Nat.mod_eq_of_lt (by omega)] at hzero
  omega

theorem lastWindow_succ (hn : 0 < n) :
    lastWindow n (w + 1) = (lastWindow n w).filter (· ≠ w % n) ++ [w % n] := by
  have hkeep : ∀ a k, a + k = w → k < n →
      ((List.range' a k).map (· % n)).filter (· ≠ w % n) = (List.range' a k).map (· % n) := by
    intro a k hw hk
    refine List.filter_eq_self.mpr ?_
    simp only [List.mem_map, List.mem_range'_1]
    rintro _ ⟨i, hi, rfl⟩
    simpa using mod_ne_of_lt (by omega) (by omega)
  rcases Nat.lt_or_ge w n with hlt | hge
  · rw [lastWindow, lastWindow, Nat.sub_eq_zero_of_le hlt, Nat.sub_eq_zero_of_le (by omega),
      Nat.min_eq_left hlt, Nat.min_eq_left (by omega), hkeep 0 w (by omega) hlt,
      List.range'_1_concat, List.map_append]
    simp
  · obtain ⟨k, rfl⟩ : ∃ k, n = k + 1 := ⟨n - 1, by omega⟩
    obtain ⟨a, rfl⟩ := Nat.exists_eq_add_of_le hge
    have hfirst : a % (k + 1) = (k + 1 + a) % (k + 1) := (Nat.add_mod_left ..).symm
    have hw : k + 1 + a + 1 - (k + 1) = a + 1 := by omega
    have hw' : a + 1 + k = k + 1 + a := by omega
    have hrange : List.range' a (k + 1) = a :: List.range' (a + 1) k := List.range'_succ
    rw [lastWindow, lastWindow, hw, Nat.add_sub_cancel_left, Nat.min_eq_right (by omega),
      Nat.min_eq_right (by omega), hrange, List.map_cons, hfirst,
      List.filter_cons_of_neg (by simp), hkeep (a + 1) k hw' (Nat.lt_succ_self k),
      List.range'_1_concat, List.map_append, hw']
    rfl

theorem lastWindow_again (hn : 0 < n) :
    (lastWindow n (w + 1)).filter (· ≠ w % n) ++ [w % n] = lastWindow n (w + 1) := by
  rw [lastWindow_succ hn, List.filter_append, List.filter_filter]
  simp

theorem lastWindow_succ_eq_iff (hn : 0 < n) :
    lastWindow n (w + 1) = lastWindow n w ↔ n = 1 ∧ 0 < w := by
  constructor
  · intro h
    have hlen := congrArg List.length h
    rw [length_lastWindow, length_lastWindow] at hlen
    have hle : n ≤ w := by omega
    have hhead := congrArg List.head? h
    obtain ⟨k, rfl⟩ : ∃ k, n = k + 1 := ⟨n - 1, by omega⟩
    obtain ⟨a, rfl⟩ := Nat.exists_eq_add_of_le hle
    have hw : k + 1 + a + 1 - (k + 1) = a + 1 := by omega
    rw [lastWindow, lastWindow, hw, Nat.add_sub_cancel_left, Nat.min_eq_right (by omega),
      Nat.min_eq_right (by omega), List.range'_succ, List.range'_succ] at hhead
    refine ⟨?_, by omega⟩
    by_contra hk
    exact mod_ne_of_lt (n := k + 1) (Nat.lt_succ_self a) (by omega) (Option.some.inj hhead).symm
  · rintro ⟨rfl, hw⟩
    have hone : ∀ w, 0 < w → lastWindow 1 w = [0] := by
      intro w hw
      rw [lastWindow, Nat.min_eq_right hw]
      simp [List.range'_succ, Nat.mod_one]
    rw [hone w hw, hone (w + 1) (Nat.succ_pos w)]

end CanSniffer.Lib
