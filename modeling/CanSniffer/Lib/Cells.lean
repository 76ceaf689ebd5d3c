import Mathlib.Logic.Function.Basic

universe u

namespace CanSniffer.Lib

namespace Cells

variable {α : Type u} {size n dst : Nat} {src : Nat → Nat} {data : Nat → α}

def read (size : Nat) (data : Nat → α) (i : Nat) : Option α :=
  if i < size then some (data i) else none

def write (size : Nat) (data : Nat → α) (i : Nat) (a : α) : Option (Nat → α) :=
  if i < size then some (Function.update data i a) else none

/-- `for (i = 0; i < n; i++) data[dst + i] = data[src(i)]`. -/
def copy (size : Nat) (src : Nat → Nat) (dst : Nat) (data : Nat → α) : Nat → Option (Nat → α)
  | 0 => some data
  | n + 1 => do
    let data ← copy size src dst data n
    let a ← read size data (src n)
    write size data (dst + n) a

/-- `memmove(&data[dst], &data[src], n)`, which reads before it writes. -/
def move (size dst src n : Nat) (data : Nat → α) : Option (Nat → α) :=
  if dst + n ≤ size ∧ src + n ≤ size then
    some fun k => if dst ≤ k ∧ k < dst + n then data (src + (k - dst)) else data k
  else none

theorem write_of_lt (h : n < size) (data : Nat → α) (a : α) :
    write size data n a = some (Function.update data n a) := if_pos h

theorem copy_eq (hsrc : ∀ i, i < n → src i < size) (hdst : dst + n ≤ size)
    (hapart : ∀ i, i < n → src i < dst ∨ dst + n ≤ src i) :
    copy size src dst data n =
      some fun k => if dst ≤ k ∧ k < dst + n then data (src (k - dst)) else data k := by
  induction n with
  | zero =>
    rw [copy]
    congr 1
    funext k
    rw [if_neg (by omega)]
  | succ n ih =>
    have hlast := hapart n (Nat.lt_succ_self n)
    rw [copy, ih (fun i hi => hsrc i (by omega)) (by omega)
      (fun i hi => by have := hapart i (by omega); omega)]
    simp only [Option.bind_eq_bind, Option.bind_some, read, if_pos (hsrc n (Nat.lt_succ_self n)),
      write, if_pos (show dst + n < size by omega)]
    congr 1
    funext k
    rw [if_neg (by omega)]
    by_cases hk : k = dst + n
    · rw [hk, Function.update_self, if_pos (by omega), Nat.add_sub_cancel_left]
    · rw [Function.update_of_ne hk]
      by_cases hin : dst ≤ k ∧ k < dst + n
      · rw [if_pos hin, if_pos (by omega)]
      · rw [if_neg hin, if_neg (by omega)]

theorem move_eq {src : Nat} (hdst : dst + n ≤ size) (hsrc : src + n ≤ size) :
    move size dst src n data =
      some fun k => if dst ≤ k ∧ k < dst + n then data (src + (k - dst)) else data k :=
  if_pos ⟨hdst, hsrc⟩

end Cells

end CanSniffer.Lib
