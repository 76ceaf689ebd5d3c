import Mathlib.Data.List.Basic

/-! A log of entries cut into blocks of one length.  Entries never cross a block
boundary: a block that has no room for the next entry is closed before it, and
what is left of it is padding.  A bounded number of blocks is kept, and one of
them stays open. -/

universe u

namespace CanSniffer.Lib

structure Layout (ε : Type u) where
  block : Nat
  header : Nat
  ring : Nat
  size : ε → Nat
  size_pos : ∀ e, 0 < size e
  header_lt : header < block
  room : ∀ e, header + size e < block
  ring_pos : 0 < ring

variable {ε : Type u} {L : Layout ε}

namespace Layout

def total (L : Layout ε) : List ε → Nat
  | [] => 0
  | e :: es => L.size e + total L es

def fill (L : Layout ε) (es : List ε) : Nat := L.header + L.total es

@[simp] theorem fill_nil : L.fill [] = L.header := rfl

@[simp] theorem fill_singleton (e : ε) : L.fill [e] = L.header + L.size e := rfl

theorem total_append (es fs : List ε) : L.total (es ++ fs) = L.total es + L.total fs := by
  induction es with
  | nil => simp [total]
  | cons e es ih =>
    simp only [List.cons_append, total, ih]
    omega

@[simp] theorem fill_append_singleton (es : List ε) (e : ε) :
    L.fill (es ++ [e]) = L.fill es + L.size e := by
  simp only [fill, total_append, total]
  omega

theorem header_lt_fill {es : List ε} (h : es ≠ []) : L.header < L.fill es := by
  cases es with
  | nil => contradiction
  | cons e es =>
    have := L.size_pos e
    simp only [fill, total]
    omega

end Layout

structure Sealed (L : Layout ε) where
  entries : List ε
  nonempty : entries ≠ []
  fits : L.fill entries ≤ L.block

/-- `current` is empty when no block is open: a block is opened by its first entry. -/
structure BlockLog (L : Layout ε) where
  complete : List (Sealed L)
  current : List ε
  current_lt : L.fill current < L.block
  bound : complete.length < L.ring

namespace BlockLog

def empty : BlockLog L where
  complete := []
  current := []
  current_lt := L.header_lt
  bound := L.ring_pos

def entries (l : BlockLog L) : List ε := l.complete.flatMap Sealed.entries ++ l.current

def openLen (l : BlockLog L) : Nat := if l.current = [] then 0 else L.fill l.current

def used (l : BlockLog L) : Nat := l.complete.length * L.block + l.openLen

def pad (l : BlockLog L) : Option (BlockLog L) :=
  if h : l.current = [] then some l
  else if hb : l.complete.length + 1 < L.ring then
    some {
      complete := l.complete ++ [⟨l.current, h, Nat.le_of_lt l.current_lt⟩]
      current := []
      current_lt := L.header_lt
      bound := by simpa using hb }
  else none

/-- An entry that fits exactly closes the block it is put in. -/
def add (l : BlockLog L) (e : ε) : Option (BlockLog L) :=
  if hlt : L.fill l.current + L.size e < L.block then
    some { l with current := l.current ++ [e], current_lt := by simpa using hlt }
  else if hb : l.complete.length + 1 < L.ring then
    if heq : L.fill l.current + L.size e = L.block then
      some {
        complete := l.complete ++ [⟨l.current ++ [e], by simp, by simp [heq]⟩]
        current := []
        current_lt := L.header_lt
        bound := by simpa using hb }
    else
      some {
        complete := l.complete ++ [⟨l.current, by
          intro h
          have := L.room e
          simp only [h, Layout.fill_nil] at hlt
          contradiction, Nat.le_of_lt l.current_lt⟩]
        current := [e]
        current_lt := by simpa using L.room e
        bound := by simpa using hb }
  else none

def take (l : BlockLog L) : Option (Sealed L × BlockLog L) :=
  match h : l.complete with
  | [] => none
  | b :: bs =>
    have bound : bs.length < L.ring := by
      have := l.bound
      simp only [h, List.length_cons] at this
      omega
    some (b, { l with complete := bs, bound })

theorem openLen_lt (l : BlockLog L) : l.openLen < L.block := by
  have := l.current_lt
  have := L.header_lt
  unfold openLen
  split <;> omega

theorem openLen_eq_zero_iff {l : BlockLog L} : l.openLen = 0 ↔ l.current = [] := by
  by_cases h : l.current = []
  · simp [openLen, h]
  · have := L.header_lt_fill h
    simp only [openLen, h, if_false, iff_false]
    omega

theorem openLen_of_ne {l : BlockLog L} (h : l.current ≠ []) : l.openLen = L.fill l.current :=
  if_neg h

theorem current_ne_of_full {l : BlockLog L} {e : ε}
    (h : ¬ L.fill l.current + L.size e < L.block) : l.current ≠ [] := by
  intro hc
  have := L.room e
  simp only [hc, Layout.fill_nil] at h
  contradiction

theorem add_of_lt {l : BlockLog L} {e : ε} (h : L.fill l.current + L.size e < L.block) :
    ∃ l', l.add e = some l' ∧ l'.complete = l.complete ∧ l'.current = l.current ++ [e] := by
  unfold add
  rw [dif_pos h]
  exact ⟨_, rfl, rfl, rfl⟩

theorem pad_of_lt {l : BlockLog L} (hne : l.current ≠ []) (hb : l.complete.length + 1 < L.ring) :
    ∃ (b : Sealed L) (l' : BlockLog L), l.pad = some l' ∧ b.entries = l.current ∧
      l'.complete = l.complete ++ [b] ∧ l'.current = [] := by
  unfold pad
  rw [dif_neg hne, dif_pos hb]
  exact ⟨_, _, rfl, rfl, rfl, rfl⟩

theorem entries_pad {l l' : BlockLog L} (h : l.pad = some l') : l'.entries = l.entries := by
  unfold pad at h
  split at h
  · cases h
    rfl
  · split at h
    · cases h
      simp [entries]
    · contradiction

theorem pad_cases {l l' : BlockLog L} (h : l.pad = some l') (hne : l.current ≠ []) :
    ∃ b : Sealed L, l.complete.length + 1 < L.ring ∧ b.entries = l.current ∧
      l'.complete = l.complete ++ [b] ∧ l'.current = [] := by
  unfold pad at h
  rw [dif_neg hne] at h
  split at h
  · next hb =>
    cases h
    exact ⟨_, hb, rfl, rfl, rfl⟩
  · contradiction

theorem add_cases {l l' : BlockLog L} {e : ε} (h : l.add e = some l') :
    (L.fill l.current + L.size e < L.block ∧ l'.complete = l.complete ∧
      l'.current = l.current ++ [e]) ∨
    (L.fill l.current + L.size e = L.block ∧ l.current ≠ [] ∧ l.complete.length + 1 < L.ring ∧
      ∃ b : Sealed L, b.entries = l.current ++ [e] ∧ l'.complete = l.complete ++ [b] ∧
        l'.current = []) ∨
    (L.block < L.fill l.current + L.size e ∧ l.current ≠ [] ∧ l.complete.length + 1 < L.ring ∧
      ∃ b : Sealed L, b.entries = l.current ∧ l'.complete = l.complete ++ [b] ∧
        l'.current = [e]) := by
  unfold add at h
  split at h
  · next hlt =>
    cases h
    exact .inl ⟨hlt, rfl, rfl⟩
  · next hge =>
    have hne := current_ne_of_full hge
    split at h
    · next hb =>
      split at h
      · next heq =>
        cases h
        exact .inr (.inl ⟨heq, hne, hb, _, rfl, rfl, rfl⟩)
      · next hne' =>
        cases h
        exact .inr (.inr ⟨by omega, hne, hb, _, rfl, rfl, rfl⟩)
    · contradiction

theorem complete_add {l l' : BlockLog L} {e : ε} (h : l.add e = some l') :
    ∃ bs, l'.complete = l.complete ++ bs := by
  rcases add_cases h with ⟨-, hc, -⟩ | ⟨-, -, -, b, -, hc, -⟩ | ⟨-, -, -, b, -, hc, -⟩
  · exact ⟨[], by simp [hc]⟩
  · exact ⟨[b], hc⟩
  · exact ⟨[b], hc⟩

theorem complete_pad {l l' : BlockLog L} (h : l.pad = some l') :
    ∃ bs, l'.complete = l.complete ++ bs := by
  by_cases hne : l.current = []
  · obtain rfl : l = l' := by simpa [pad, hne] using h
    exact ⟨[], by simp⟩
  · obtain ⟨b, -, -, hc, -⟩ := pad_cases h hne
    exact ⟨[b], hc⟩

theorem entries_add {l l' : BlockLog L} {e : ε} (h : l.add e = some l') :
    l'.entries = l.entries ++ [e] := by
  rcases add_cases h with ⟨-, hc, hu⟩ | ⟨-, -, -, b, hb, hc, hu⟩ | ⟨-, -, -, b, hb, hc, hu⟩ <;>
    simp [entries, *]

theorem take_eq_some {l l' : BlockLog L} {b : Sealed L} (h : l.take = some (b, l')) :
    l.complete = b :: l'.complete ∧ l'.current = l.current := by
  unfold take at h
  split at h
  · contradiction
  · next hc =>
    cases h
    exact ⟨hc, rfl⟩

theorem take_of_cons {l : BlockLog L} {b : Sealed L} {bs : List (Sealed L)}
    (h : l.complete = b :: bs) : ∃ l', l.take = some (b, l') := by
  unfold take
  split
  · next hc => simp [hc] at h
  · next hc =>
    obtain ⟨rfl, rfl⟩ := List.cons.inj (hc.symm.trans h)
    exact ⟨_, rfl⟩

theorem entries_take {l l' : BlockLog L} {b : Sealed L} (h : l.take = some (b, l')) :
    l.entries = b.entries ++ l'.entries := by
  obtain ⟨hc, hu⟩ := take_eq_some h
  simp [entries, hc, hu]

theorem pad_eq_none_iff {l : BlockLog L} :
    l.pad = none ↔ l.current ≠ [] ∧ l.complete.length + 1 = L.ring := by
  have := l.bound
  unfold pad
  split
  · next h => simp [h]
  · next h =>
    split
    · simp
      omega
    · simp only [ne_eq, h, not_false_eq_true, true_and, true_iff]
      omega

theorem add_eq_none_iff {l : BlockLog L} {e : ε} :
    l.add e = none ↔
      L.block ≤ L.fill l.current + L.size e ∧ l.complete.length + 1 = L.ring := by
  have := l.bound
  unfold add
  split
  · simp
    omega
  · split
    · split <;>
      · simp
        omega
    · simp only [true_iff]
      omega

end BlockLog

end CanSniffer.Lib
