import CanSniffer.Lib.LastWindow

universe u

namespace CanSniffer.Lib

variable {α : Type u} {get get' : Nat → Option α} {n : Nat} {l : List α}

/-- The last `n` values, or all of them, each in the cell of its number modulo `n`. -/
def HoldsRecent (get : Nat → Option α) (n : Nat) (l : List α) : Prop :=
  ∀ j, j < l.length → l.length ≤ j + n → get (j % n) = l[j]?

def oldestCell (n count : Nat) : Nat := if count < n then 0 else count % n

namespace HoldsRecent

theorem nil : HoldsRecent get n [] := fun _ hj => absurd hj (Nat.not_lt_zero _)

theorem push {a : α} (h : HoldsRecent get n l) (hnew : get' (l.length % n) = some a)
    (hold : ∀ k, k ≠ l.length % n → get' k = get k) : HoldsRecent get' n (l ++ [a]) := by
  intro j hj hnear
  rw [List.length_append, List.length_singleton] at hj hnear
  rcases Nat.lt_or_eq_of_le (Nat.le_of_lt_succ hj) with hlt | rfl
  · rw [hold _ (mod_ne_of_lt hlt (by omega)), h j hlt (by omega), List.getElem?_append_left hlt]
  · rw [hnew, List.getElem?_concat_length]

theorem read (h : HoldsRecent get n l) {i : Nat} (hi : i < min l.length n) :
    get ((oldestCell n l.length + i) % n) = (l.drop (l.length - n))[i]? := by
  rw [List.getElem?_drop, ← h _ (by omega) (by omega), oldestCell]
  split
  · rw [Nat.sub_eq_zero_of_le (by omega)]
  · rename_i hfull
    obtain ⟨k, hk⟩ := Nat.exists_eq_add_of_le (Nat.not_lt.mp hfull)
    rw [hk, Nat.add_sub_cancel_left, Nat.mod_add_mod, Nat.add_assoc, Nat.add_mod_left]

end HoldsRecent

end CanSniffer.Lib
