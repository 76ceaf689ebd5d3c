import Mathlib.Data.Nat.ModEq
import Mathlib.Logic.Function.Basic
import Mathlib.Data.List.Basic

universe u

namespace CanSniffer.Lib

structure RingBuffer (α : Type u) (bufferLength : Nat) where
  slots : Nat → α
  head : Nat
  tail : Nat
  elementCount : Nat
  isFull : Bool
  tail_lt : tail < bufferLength
  count_le : elementCount ≤ bufferLength
  head_eq : head = (tail + elementCount) % bufferLength
  isFull_eq : isFull = decide (elementCount = bufferLength)

namespace RingBuffer

variable {α : Type u} {n : Nat} {rb : RingBuffer α n}

def empty (slots : Nat → α) (n : Nat) (h : 0 < n) : RingBuffer α n where
  slots := slots
  head := 0
  tail := 0
  elementCount := 0
  isFull := false
  tail_lt := h
  count_le := n.zero_le
  head_eq := by simp
  isFull_eq := by simp; omega

def wrapIndex (index length : Nat) : Nat := index % length

def count (rb : RingBuffer α n) : Nat :=
  if rb.head = rb.tail then
    if rb.isFull then n else 0
  else if rb.tail < rb.head then rb.head - rb.tail
  else n - (rb.tail - rb.head)

def peekAt (rb : RingBuffer α n) (pos : Nat) : Option Nat :=
  if rb.count ≤ pos then none else some ((rb.tail + pos) % n)

/-- The reserved slot's index and the ring without it. -/
def reserve (rb : RingBuffer α n) : Option (Nat × RingBuffer α n) :=
  if h : rb.isFull then none
  else
    some (rb.head, { rb with
      head := wrapIndex (rb.head + 1) n
      elementCount := rb.elementCount + 1
      isFull := decide (rb.elementCount + 1 = n)
      count_le := by
        have hf := rb.isFull_eq
        have hle := rb.count_le
        simp only [Bool.not_eq_true] at h
        rw [h] at hf
        have := of_decide_eq_false hf.symm
        omega
      head_eq := by rw [wrapIndex, rb.head_eq, Nat.mod_add_mod, Nat.add_assoc]
      isFull_eq := rfl })

def modify (rb : RingBuffer α n) (i : Nat) (f : α → α) : RingBuffer α n :=
  { rb with slots := Function.update rb.slots i (f (rb.slots i)) }

def pop (rb : RingBuffer α n) : RingBuffer α n :=
  if h : rb.elementCount = 0 then rb
  else
    { rb with
      tail := wrapIndex (rb.tail + 1) n
      elementCount := rb.elementCount - 1
      isFull := false
      tail_lt := Nat.mod_lt _ (Nat.zero_lt_of_lt rb.tail_lt)
      count_le := Nat.le_trans (Nat.sub_le _ _) rb.count_le
      head_eq := by
        rw [rb.head_eq, wrapIndex, Nat.mod_add_mod]
        congr 1
        omega
      isFull_eq := by
        have := rb.count_le
        simp
        omega }

def toList (rb : RingBuffer α n) : List α :=
  (List.range rb.elementCount).map fun i => rb.slots ((rb.tail + i) % n)

@[simp] theorem length_toList (rb : RingBuffer α n) : rb.toList.length = rb.elementCount := by
  simp [toList]

theorem count_eq (rb : RingBuffer α n) : rb.count = rb.elementCount := by
  have ht := rb.tail_lt
  have hc := rb.count_le
  have hh := rb.head_eq
  rw [count, rb.isFull_eq]
  rcases Nat.lt_or_ge (rb.tail + rb.elementCount) n with h | h
  · rw [Nat.mod_eq_of_lt h] at hh
    split
    · split <;> simp_all
    · rw [if_pos (by omega)]
      omega
  · rw [Nat.mod_eq_sub_mod h, Nat.mod_eq_of_lt (by omega)] at hh
    split
    · rw [if_pos (by simp; omega)]
      omega
    · rw [if_neg (by omega)]
      omega

theorem isFull_iff (rb : RingBuffer α n) : rb.isFull = true ↔ rb.elementCount = n := by
  simp [rb.isFull_eq]

theorem index_injective {tail n i j : Nat} (hi : i < n) (hj : j < n)
    (h : (tail + i) % n = (tail + j) % n) : i = j := by
  have h' : i % n = j % n := Nat.ModEq.add_left_cancel' tail h
  rwa [Nat.mod_eq_of_lt hi, Nat.mod_eq_of_lt hj] at h'

theorem peekAt_eq (rb : RingBuffer α n) (pos : Nat) :
    (rb.peekAt pos).map rb.slots = rb.toList[pos]? := by
  rw [peekAt, rb.count_eq]
  split <;> rename_i h
  · simp [toList, h]
  · simp [toList, List.getElem?_range (Nat.lt_of_not_le h)]

theorem peekAt_zero {x : α} {xs : List α} (h : rb.toList = x :: xs) :
    rb.peekAt 0 = some rb.tail ∧ rb.slots rb.tail = x := by
  have hx : (rb.peekAt 0).map rb.slots = some x := by rw [rb.peekAt_eq, h]; rfl
  obtain ⟨i, hi, hslot⟩ := Option.map_eq_some_iff.mp hx
  have htail : i = rb.tail := by
    rw [peekAt] at hi
    split at hi
    · cases hi
    · simpa [Nat.mod_eq_of_lt rb.tail_lt] using hi.symm
  rw [← htail]
  exact ⟨hi, hslot⟩

theorem toList_eq_nil : rb.toList = [] ↔ rb.elementCount = 0 := by
  rw [← List.length_eq_zero_iff, length_toList]

theorem toList_ne_nil : rb.toList ≠ [] ↔ rb.elementCount ≠ 0 := not_congr toList_eq_nil

theorem reserve_eq_none : rb.reserve = none ↔ rb.isFull = true := by
  rw [reserve]
  split <;> simp_all

theorem isFull_of_reserve (h : rb.reserve = some (i, rb')) : rb.elementCount < n := by
  rw [reserve] at h
  split at h
  · cases h
  · rename_i hf
    have hne := mt rb.isFull_iff.mpr hf
    have := rb.count_le
    omega

theorem toList_modify_reserve (f : α → α) (h : rb.reserve = some (i, rb')) :
    (rb'.modify i f).toList = rb.toList ++ [f (rb.slots i)] := by
  have hlt := isFull_of_reserve h
  rw [reserve] at h
  split at h
  · cases h
  · obtain ⟨rfl, rfl⟩ := by simpa using h
    simp only [toList, modify, List.range_succ, List.map_append, List.map_cons, List.map_nil]
    rw [← rb.head_eq, Function.update_self]
    congr 1
    apply List.map_congr_left
    intro j hj
    rw [Function.update_of_ne]
    rw [rb.head_eq]
    intro he
    have hj' := List.mem_range.mp hj
    have := index_injective (Nat.lt_trans hj' hlt) hlt he
    omega

@[simp] theorem modify_tail (rb : RingBuffer α n) (i : Nat) (f : α → α) :
    (rb.modify i f).tail = rb.tail := rfl

theorem tail_of_reserve (hempty : rb.toList = []) (h : rb.reserve = some (i, rb')) :
    rb'.tail = i := by
  have hhead : rb.tail = rb.head := by
    rw [rb.head_eq, toList_eq_nil.mp hempty, Nat.add_zero, Nat.mod_eq_of_lt rb.tail_lt]
  rw [reserve] at h
  split at h
  · cases h
  · obtain ⟨rfl, rfl⟩ := by simpa using h
    exact hhead

theorem toList_modify_tail (f : α → α) (h : rb.toList = [x]) :
    (rb.modify rb.tail f).toList = [f x] := by
  have hone : rb.elementCount = 1 := by rw [← length_toList, h]; rfl
  have hx := (peekAt_zero h).2
  simp [toList, modify, hone, Nat.mod_eq_of_lt rb.tail_lt, hx]

@[simp] theorem toList_pop (rb : RingBuffer α n) : rb.pop.toList = rb.toList.tail := by
  rw [pop]
  split <;> rename_i h
  · simp [toList_eq_nil.mpr h]
  · obtain ⟨k, hk⟩ := Nat.exists_eq_succ_of_ne_zero h
    simp only [toList, hk, wrapIndex, Nat.succ_eq_add_one, Nat.add_sub_cancel,
      List.range_succ_eq_map, List.map_cons, List.map_map, List.tail_cons]
    apply List.map_congr_left
    intro j _
    rw [Nat.mod_add_mod, Function.comp_apply, Nat.add_assoc, Nat.add_comm 1 j]

end RingBuffer

end CanSniffer.Lib
