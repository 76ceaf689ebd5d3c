namespace CanSniffer.Lib.Serial

def gap (previous x : UInt32) : Nat := (x - previous - 1).toNat

def skipped : UInt32 → List UInt32 → Nat
  | _, [] => 0
  | previous, x :: xs => gap previous x + skipped x xs

def Ascending : UInt32 → List UInt32 → Prop
  | _, [] => True
  | previous, x :: xs => x ≠ previous ∧ Ascending x xs

instance : (previous : UInt32) → (xs : List UInt32) → Decidable (Ascending previous xs)
  | _, [] => isTrue trivial
  | previous, x :: xs =>
    have := instDecidableAscending x xs
    inferInstanceAs (Decidable (x ≠ previous ∧ Ascending x xs))

theorem skipped_append_singleton (previous x : UInt32) (xs : List UInt32) :
    skipped previous (xs ++ [x]) = skipped previous xs + gap (xs.getLastD previous) x := by
  induction xs generalizing previous with
  | nil => simp [skipped]
  | cons y ys ih =>
    simp only [List.cons_append, skipped, ih, List.getLastD_cons]
    omega

theorem ascending_append_singleton (previous x : UInt32) (xs : List UInt32) :
    Ascending previous (xs ++ [x]) ↔ Ascending previous xs ∧ x ≠ xs.getLastD previous := by
  induction xs generalizing previous with
  | nil => simp [Ascending]
  | cons y ys ih =>
    simp only [List.cons_append, Ascending, ih, List.getLastD_cons, and_assoc]

theorem ofNat_skipped (previous : UInt32) (xs : List UInt32) :
    UInt32.ofNat (skipped previous xs) =
      xs.getLastD previous - previous - UInt32.ofNat xs.length := by
  induction xs generalizing previous with
  | nil => simp [skipped]
  | cons x xs ih =>
    simp only [skipped, gap, UInt32.ofNat_add, ih, UInt32.ofNat_toNat, List.getLastD_cons,
      List.length_cons]
    generalize xs.getLastD x = last
    generalize UInt32.ofNat xs.length = n
    grind

theorem skipped_eq {previous : UInt32} {xs : List UInt32}
    (h : skipped previous xs < UInt32.size) :
    skipped previous xs = (xs.getLastD previous - previous - UInt32.ofNat xs.length).toNat := by
  rw [← ofNat_skipped, UInt32.toNat_ofNat', Nat.mod_eq_of_lt h]

end CanSniffer.Lib.Serial
