import Mathlib.Data.List.Induction
import Mathlib.Data.List.TakeWhile

namespace CanSniffer.Lib.Decimal

def isDigit (b : UInt8) : Bool := decide (0x30 ≤ b) && decide (b ≤ 0x39)

def digit (d : Nat) : UInt8 := UInt8.ofNat (0x30 + d)

def unsigned (n : Nat) : List UInt8 := (Nat.toDigits 10 n).map Char.toUInt8

def signed (z : Int) : List UInt8 :=
  if z < 0 then 0x2D :: unsigned z.natAbs else unsigned z.natAbs

def isSpace (b : UInt8) : Bool := b == 0x20 || decide (0x09 ≤ b) && decide (b ≤ 0x0D)

def value (s : List UInt8) : Nat := s.foldl (fun n b => 10 * n + (b.toNat - 0x30)) 0

def splitSign : List UInt8 → Bool × List UInt8
  | 0x2D :: s => (true, s)
  | 0x2B :: s => (false, s)
  | s => (false, s)

def clamp (lo hi z : Int) : Int := if z < lo then lo else if hi < z then hi else z

/-- Base 10, for a `long` between `lo` and `hi`: the number and where it ends. -/
def strtol (lo hi : Int) (s : List UInt8) : Int × List UInt8 :=
  let (negative, t) := splitSign (s.dropWhile isSpace)
  let digits := t.takeWhile isDigit
  if digits = [] then (0, s)
  else
    let n : Int := value digits
    (clamp lo hi (if negative then -n else n), t.dropWhile isDigit)

theorem ne_of_isDigit {b c : UInt8} (hb : isDigit b = true) (hc : isDigit c = false) : b ≠ c := by
  rintro rfl
  rw [hb] at hc
  contradiction

theorem unsigned_of_lt {n : Nat} (h : n < 10) : unsigned n = [digit n] := by
  rw [unsigned, Nat.toDigits_of_lt_base h]
  revert n
  decide

theorem unsigned_of_le {n : Nat} (h : 10 ≤ n) :
    unsigned n = unsigned (n / 10) ++ [digit (n % 10)] := by
  have hlast := unsigned_of_lt (Nat.mod_lt n (show 10 > 0 by decide))
  rw [unsigned, Nat.toDigits_of_lt_base (Nat.mod_lt n (show 10 > 0 by decide))] at hlast
  rw [unsigned, Nat.toDigits_of_base_le (by decide) h, List.map_append, hlast, unsigned]

theorem isDigit_digit {d : Nat} (h : d < 10) : isDigit (digit d) = true := by
  revert d
  decide

theorem digit_ne_zero {d : Nat} (h : d < 10) : 0 < d → digit d ≠ 0x30 := by
  revert d
  decide

theorem isDigit_of_mem_unsigned {n : Nat} : ∀ b ∈ unsigned n, isDigit b = true := by
  induction n using Nat.strongRecOn with
  | ind n ih =>
    rcases Nat.lt_or_ge n 10 with hlt | hge
    · rw [unsigned_of_lt hlt]
      simpa using isDigit_digit hlt
    · rw [unsigned_of_le hge, List.forall_mem_append]
      exact ⟨ih (n / 10) (by omega), by simpa using isDigit_digit (Nat.mod_lt n (by decide))⟩

theorem value_append (s : List UInt8) (b : UInt8) :
    value (s ++ [b]) = 10 * value s + (b.toNat - 0x30) := by
  simp [value]

theorem value_lt {s : List UInt8} (hs : ∀ b ∈ s, isDigit b = true) :
    value s < Nat.pow 10 s.length := by
  induction s using List.reverseRecOn with
  | nil => decide
  | append_singleton s b ih =>
    obtain ⟨hs, hb⟩ := List.forall_mem_append.mp hs
    have hb := hb b List.mem_cons_self
    have hlt := ih hs
    simp only [isDigit, Bool.and_eq_true, decide_eq_true_eq, UInt8.le_iff_toNat_le,
      UInt8.reduceToNat] at hb
    rw [value_append, List.length_append, List.length_singleton]
    have hpow : Nat.pow 10 (s.length + 1) = Nat.pow 10 s.length * 10 := rfl
    omega

theorem toNat_digit {d : Nat} (h : d < 10) : (digit d).toNat - 0x30 = d := by
  revert d
  decide

@[simp] theorem value_unsigned (n : Nat) : value (unsigned n) = n := by
  induction n using Nat.strongRecOn with
  | ind n ih =>
    rcases Nat.lt_or_ge n 10 with hlt | hge
    · rw [unsigned_of_lt hlt, ← List.nil_append [_], value_append, toNat_digit hlt]
      simp [value]
    · rw [unsigned_of_le hge, value_append, ih (n / 10) (by omega),
        toNat_digit (Nat.mod_lt n (by decide))]
      omega

theorem length_unsigned_le_iff {n k : Nat} (hk : 0 < k) :
    (unsigned n).length ≤ k ↔ n < Nat.pow 10 k := by
  rw [unsigned, List.length_map]
  exact Nat.length_toDigits_le_iff (by decide) hk

theorem length_unsigned_le_ten {n : Nat} (h : n < UInt32.size) : (unsigned n).length ≤ 10 :=
  (length_unsigned_le_iff (by decide)).mpr (Nat.lt_trans h (by decide))

theorem unsigned_ne_nil (n : Nat) : unsigned n ≠ [] := by
  rw [unsigned, Ne, List.map_eq_nil_iff]
  exact Nat.toDigits_ne_nil

theorem isSpace_of_digit {b : UInt8} (h : isDigit b = true) :
    isSpace b = false ∧ b ≠ 0x2D ∧ b ≠ 0x2B := by
  have hne {c : UInt8} : isDigit c = false → b ≠ c := ne_of_isDigit h
  simp only [isDigit, Bool.and_eq_true, decide_eq_true_eq, UInt8.le_iff_toNat_le,
    UInt8.reduceToNat] at h
  refine ⟨?_, hne rfl, hne rfl⟩
  have hspace : ¬b.toNat ≤ 13 := by omega
  simp [isSpace, hne (show isDigit 0x20 = false from rfl), UInt8.le_iff_toNat_le, hspace]

theorem digits_unsigned (n : Nat) :
    (unsigned n).takeWhile isDigit = unsigned n ∧ (unsigned n).dropWhile isDigit = [] :=
  ⟨List.takeWhile_eq_self_iff.mpr isDigit_of_mem_unsigned,
    List.dropWhile_eq_nil_iff.mpr isDigit_of_mem_unsigned⟩

theorem splitSign_signed (z : Int) :
    splitSign ((signed z).dropWhile isSpace) = (decide (z < 0), unsigned z.natAbs) := by
  unfold signed
  by_cases hz : z < 0
  · rw [if_pos hz, List.dropWhile_cons_of_neg (by decide)]
    simp [splitSign, hz]
  · rw [if_neg hz]
    obtain ⟨b, s, hs⟩ := List.exists_cons_of_ne_nil (unsigned_ne_nil z.natAbs)
    have hb : isDigit b = true := isDigit_of_mem_unsigned b (by rw [hs]; exact List.mem_cons_self)
    obtain ⟨hspace, hminus, hplus⟩ := isSpace_of_digit hb
    rw [hs, List.dropWhile_cons_of_neg (by simp [hspace])]
    unfold splitSign
    split <;> simp_all

theorem strtol_signed (lo hi z : Int) : strtol lo hi (signed z) = (clamp lo hi z, []) := by
  have hvalue : (if decide (z < 0) = true then -(z.natAbs : Int) else (z.natAbs : Int)) = z := by
    by_cases hz : z < 0
    · rw [if_pos (decide_eq_true hz)]
      omega
    · rw [if_neg (by simpa using hz)]
      omega
  obtain ⟨htake, hdrop⟩ := digits_unsigned z.natAbs
  simp only [strtol, splitSign_signed, htake, hdrop, unsigned_ne_nil, if_false, value_unsigned,
    hvalue]

theorem strtol_digits (lo hi : Int) {s rest : List UInt8} (hne : s ≠ [])
    (hs : ∀ b ∈ s, isDigit b = true) (hrest : isDigit (rest.headD 0) = false) :
    strtol lo hi (s ++ rest) = (clamp lo hi (value s), rest) := by
  obtain ⟨b, t, rfl⟩ := List.exists_cons_of_ne_nil hne
  obtain ⟨hspace, hminus, hplus⟩ := isSpace_of_digit (hs b List.mem_cons_self)
  have hsplit : splitSign ((b :: t ++ rest).dropWhile isSpace) = (false, b :: t ++ rest) := by
    rw [List.cons_append, List.dropWhile_cons_of_neg (by simp [hspace])]
    unfold splitSign
    split <;> simp_all
  have hnone : rest.takeWhile isDigit = [] ∧ rest.dropWhile isDigit = rest := by
    cases rest with
    | nil => exact ⟨rfl, rfl⟩
    | cons c rest =>
      have hc : ¬isDigit c = true := by simpa using hrest
      exact ⟨List.takeWhile_cons_of_neg hc, List.dropWhile_cons_of_neg hc⟩
  simp only [strtol, hsplit, List.takeWhile_append_of_pos hs, List.dropWhile_append_of_pos hs,
    hnone, List.append_nil, hne, if_false, Bool.false_eq_true]

def IsInteger (s : List UInt8) (z : Int) : Prop :=
  ∃ digits, digits ≠ [] ∧ (∀ b ∈ digits, isDigit b = true) ∧
    (s = digits ∧ z = value digits ∨ s = 0x2D :: digits ∧ z = -value digits)

theorem strtol_integer (lo hi : Int) {s : List UInt8} {z : Int} (h : IsInteger s z) :
    strtol lo hi s = (clamp lo hi z, []) := by
  obtain ⟨digits, hne, hdigits, ⟨rfl, rfl⟩ | ⟨rfl, rfl⟩⟩ := h
  · simpa using @strtol_digits lo hi s [] hne hdigits rfl
  · have htake := List.takeWhile_eq_self_iff.mpr hdigits
    have hdrop := List.dropWhile_eq_nil_iff.mpr hdigits
    have hsplit : splitSign ((0x2D :: digits).dropWhile isSpace) = (true, digits) := by
      rw [List.dropWhile_cons_of_neg (by decide)]
      rfl
    simp only [strtol, hsplit, htake, hdrop, hne, if_false, if_true]

end CanSniffer.Lib.Decimal
