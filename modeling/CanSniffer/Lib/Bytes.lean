import Mathlib.Data.List.Basic

universe u

namespace CanSniffer.Lib

namespace Bytes

def le32 (n : UInt32) : List UInt8 :=
  [UInt8.ofNat n.toNat, UInt8.ofNat (n.toNat / 256), UInt8.ofNat (n.toNat / 65536),
    UInt8.ofNat (n.toNat / 16777216)]

def getUint8 (bs : List UInt8) (i : Nat) : Nat := (bs.getD i 0).toNat

def getUint32 (bs : List UInt8) (i : Nat) : Nat :=
  getUint8 bs i + 256 * getUint8 bs (i + 1) + 65536 * getUint8 bs (i + 2) +
    16777216 * getUint8 bs (i + 3)

def slice (bs : List UInt8) (i n : Nat) : List UInt8 := (bs.drop i).take n

@[simp] theorem length_le32 (n : UInt32) : (le32 n).length = 4 := rfl

@[simp] theorem getUint8_cons_zero (b : UInt8) (bs : List UInt8) :
    getUint8 (b :: bs) 0 = b.toNat := rfl

@[simp] theorem getUint8_cons_succ (b : UInt8) (bs : List UInt8) (i : Nat) :
    getUint8 (b :: bs) (i + 1) = getUint8 bs i := rfl

theorem getUint8_lt (bs : List UInt8) (i : Nat) : getUint8 bs i < 256 :=
  UInt8.toNat_lt _

@[simp] theorem getUint32_cons_succ (b : UInt8) (bs : List UInt8) (i : Nat) :
    getUint32 (b :: bs) (i + 1) = getUint32 bs i := by
  simp only [getUint32, Nat.add_right_comm i 1, getUint8_cons_succ]

theorem getUint8_append (xs bs : List UInt8) (i : Nat) :
    getUint8 (xs ++ bs) (xs.length + i) = getUint8 bs i := by
  simp [getUint8, List.getD_eq_getElem?_getD, List.getElem?_append_right]

theorem getUint32_append (xs bs : List UInt8) (i : Nat) :
    getUint32 (xs ++ bs) (xs.length + i) = getUint32 bs i := by
  simp only [getUint32, Nat.add_assoc, getUint8_append]

theorem slice_append (xs bs : List UInt8) (i n : Nat) :
    slice (xs ++ bs) (xs.length + i) n = slice bs i n := by
  simp [slice, List.drop_append, List.drop_eq_nil_of_le]

@[simp] theorem getUint8_le32_append (n : UInt32) (bs : List UInt8) (i : Nat) :
    getUint8 (le32 n ++ bs) (i + 4) = getUint8 bs i := by
  rw [Nat.add_comm]
  exact getUint8_append (le32 n) bs i

@[simp] theorem getUint32_le32_append (n : UInt32) (bs : List UInt8) (i : Nat) :
    getUint32 (le32 n ++ bs) (i + 4) = getUint32 bs i := by
  rw [Nat.add_comm]
  exact getUint32_append (le32 n) bs i

@[simp] theorem slice_cons_succ (b : UInt8) (bs : List UInt8) (i n : Nat) :
    slice (b :: bs) (i + 1) n = slice bs i n := rfl

@[simp] theorem slice_le32_append (m : UInt32) (bs : List UInt8) (i n : Nat) :
    slice (le32 m ++ bs) (i + 4) n = slice bs i n := by
  rw [Nat.add_comm]
  exact slice_append (le32 m) bs i n

@[simp] theorem slice_append_zero (xs bs : List UInt8) : slice (xs ++ bs) 0 xs.length = xs := by
  simp [slice]

@[simp] theorem getUint32_le32 (n : UInt32) (bs : List UInt8) :
    getUint32 (le32 n ++ bs) 0 = n.toNat := by
  have h := n.toNat_lt
  simp only [getUint32, getUint8, le32, List.cons_append, List.getD_cons_zero,
    List.getD_cons_succ, UInt8.toNat_ofNat']
  omega

end Bytes

/-- A way to write values into a byte string so that each shows where it ends. -/
structure Codec (α : Type u) where
  encode : α → List UInt8
  decode : List UInt8 → Option (α × List UInt8)
  encode_pos : ∀ a, 0 < (encode a).length
  decode_encode : ∀ a bs, decode (encode a ++ bs) = some (a, bs)

namespace Codec

variable {α : Type u} (c : Codec α)

def encodeAll (as : List α) : List UInt8 := as.flatMap c.encode

def decodeUpTo : Nat → List UInt8 → List α
  | 0, _ => []
  | n + 1, bs =>
    match c.decode bs with
    | none => []
    | some (a, rest) => a :: decodeUpTo n rest

def decodeAll (bs : List UInt8) : List α := c.decodeUpTo bs.length bs

@[simp] theorem encodeAll_nil : c.encodeAll [] = [] := rfl

@[simp] theorem encodeAll_cons (a : α) (as : List α) :
    c.encodeAll (a :: as) = c.encode a ++ c.encodeAll as := rfl

@[simp] theorem encodeAll_append (as bs : List α) :
    c.encodeAll (as ++ bs) = c.encodeAll as ++ c.encodeAll bs :=
  List.flatMap_append

theorem length_le_length_encodeAll (as : List α) : as.length ≤ (c.encodeAll as).length := by
  induction as with
  | nil => simp
  | cons a as ih =>
    have := c.encode_pos a
    simp only [List.length_cons, encodeAll_cons, List.length_append]
    omega

theorem decodeUpTo_encodeAll (as : List α) {bs : List UInt8} (h : c.decode bs = none)
    (hn : as.length ≤ n) : c.decodeUpTo n (c.encodeAll as ++ bs) = as := by
  induction as generalizing n with
  | nil => cases n <;> simp [decodeUpTo, h]
  | cons a as ih =>
    cases n with
    | zero => simp at hn
    | succ n =>
      simp only [encodeAll_cons, List.append_assoc, decodeUpTo, c.decode_encode]
      rw [ih (by simpa using hn)]

theorem decodeAll_encodeAll (as : List α) {bs : List UInt8} (h : c.decode bs = none) :
    c.decodeAll (c.encodeAll as ++ bs) = as := by
  apply c.decodeUpTo_encodeAll as h
  have := c.length_le_length_encodeAll as
  simp only [List.length_append]
  omega

end Codec

end CanSniffer.Lib
