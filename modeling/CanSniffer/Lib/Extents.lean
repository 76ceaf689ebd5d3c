universe u

namespace CanSniffer.Lib

variable {β : Type u} (start len : β → Nat) (p : Nat)

/-- The pieces cover the range from `a` to `b` in order, and their ends are multiples of `p`. -/
def Laid : Nat → List β → Nat → Prop
  | a, [], b => a = b
  | a, x :: xs, b => start x = a ∧ 0 < len x ∧ a % p = 0 ∧ len x % p = 0 ∧ Laid (a + len x) xs b

namespace Laid

variable {start len p} {a b c : Nat} {x : β} {xs ys : List β}

theorem append (h : Laid start len p a xs b) (h' : Laid start len p b ys c) :
    Laid start len p a (xs ++ ys) c := by
  induction xs generalizing a with
  | nil =>
    cases h
    exact h'
  | cons x xs ih =>
    obtain ⟨hstart, hpos, ha, hlen, h⟩ := h
    exact ⟨hstart, hpos, ha, hlen, ih h⟩

theorem le (h : Laid start len p a xs b) : a ≤ b := by
  induction xs generalizing a with
  | nil => exact Nat.le_of_eq h
  | cons x xs ih => exact Nat.le_trans (Nat.le_add_right ..) (ih h.2.2.2.2)

theorem of_mem (h : Laid start len p a xs b) (hx : x ∈ xs) :
    a ≤ start x ∧ start x + len x ≤ b ∧ start x % p = 0 ∧ len x % p = 0 ∧ 0 < len x := by
  induction xs generalizing a with
  | nil => cases hx
  | cons y ys ih =>
    obtain ⟨hstart, hpos, ha, hlen, h⟩ := h
    cases hx with
    | head => exact ⟨hstart ▸ Nat.le_refl _, hstart ▸ h.le, hstart ▸ ha, hlen, hpos⟩
    | tail _ hx =>
      obtain ⟨hle, hrest⟩ := ih h hx
      exact ⟨Nat.le_trans (Nat.le_add_right ..) hle, hrest⟩

theorem pairwise (h : Laid start len p a xs b) :
    xs.Pairwise fun x y => start x + len x ≤ start y := by
  induction xs generalizing a with
  | nil => exact .nil
  | cons x xs ih =>
    obtain ⟨hstart, -, -, -, h⟩ := h
    refine .cons ?_ (ih h)
    intro y hy
    exact hstart ▸ (h.of_mem hy).1

end Laid

end CanSniffer.Lib
