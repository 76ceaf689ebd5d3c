/-! The `lwrb` byte ring as its callers see it.  The library itself is fetched by
the build, so it is a parameter here: `Lwrb` lists the calls and the two pointer
fields read directly, `LawfulLwrb` says that they describe one byte queue. -/

universe u

namespace CanSniffer.Lib

class Lwrb (ρ : Type u) where
  init : Nat → ρ
  size : ρ → Nat
  rPtr : ρ → Nat
  wPtr : ρ → Nat
  getFull : ρ → Nat
  getFree : ρ → Nat
  linearRead : ρ → Nat
  linearWrite : ρ → Nat
  write : ρ → List UInt8 → ρ × Nat
  peek : ρ → Nat → Nat → List UInt8
  skip : ρ → Nat → ρ
  reset : ρ → ρ
  /-- Storing bytes through the linear block read address. -/
  patch : ρ → List UInt8 → ρ

namespace Lwrb

variable {ρ : Type u} [Lwrb ρ]

def contents (rb : ρ) : List UInt8 := peek rb 0 (getFull rb)

end Lwrb

open Lwrb

/-- A byte queue of capacity `size - 1` whose elements lie from `rPtr` on, modulo `size`. -/
class LawfulLwrb (ρ : Type u) [Lwrb ρ] : Prop where
  rPtr_lt (rb : ρ) : rPtr rb < size rb
  full_lt (rb : ρ) : getFull rb < size rb
  length_contents (rb : ρ) : (contents rb).length = getFull rb
  peek_eq (rb : ρ) (k n : Nat) : peek rb k n = ((contents rb).drop k).take n
  getFree_eq (rb : ρ) : getFree rb = size rb - 1 - getFull rb
  wPtr_eq (rb : ρ) : wPtr rb = (rPtr rb + getFull rb) % size rb
  linearRead_eq (rb : ρ) : linearRead rb = min (getFull rb) (size rb - rPtr rb)
  linearWrite_eq (rb : ρ) : linearWrite rb = min (getFree rb) (size rb - wPtr rb)
  size_init (n : Nat) : 0 < n → size (init n : ρ) = n
  rPtr_init (n : Nat) : rPtr (init n : ρ) = 0
  contents_init (n : Nat) : contents (init n : ρ) = []
  size_write (rb : ρ) (bs : List UInt8) : size (write rb bs).1 = size rb
  rPtr_write (rb : ρ) (bs : List UInt8) : rPtr (write rb bs).1 = rPtr rb
  contents_write (rb : ρ) (bs : List UInt8) :
    contents (write rb bs).1 = contents rb ++ bs.take (getFree rb)
  count_write (rb : ρ) (bs : List UInt8) : (write rb bs).2 = min bs.length (getFree rb)
  size_skip (rb : ρ) (n : Nat) : size (skip rb n) = size rb
  rPtr_skip (rb : ρ) (n : Nat) :
    rPtr (skip rb n) = (rPtr rb + min n (getFull rb)) % size rb
  contents_skip (rb : ρ) (n : Nat) : contents (skip rb n) = (contents rb).drop n
  size_reset (rb : ρ) : size (reset rb) = size rb
  rPtr_reset (rb : ρ) : rPtr (reset rb) = 0
  contents_reset (rb : ρ) : contents (reset rb) = []
  size_patch (rb : ρ) (bs : List UInt8) : size (patch rb bs) = size rb
  rPtr_patch (rb : ρ) (bs : List UInt8) : rPtr (patch rb bs) = rPtr rb
  contents_patch (rb : ρ) (bs : List UInt8) : bs.length ≤ linearRead rb →
    contents (patch rb bs) = bs ++ (contents rb).drop bs.length

attribute [simp] LawfulLwrb.rPtr_init LawfulLwrb.contents_init LawfulLwrb.size_write
  LawfulLwrb.rPtr_write LawfulLwrb.size_skip LawfulLwrb.contents_skip LawfulLwrb.size_reset
  LawfulLwrb.rPtr_reset LawfulLwrb.contents_reset LawfulLwrb.size_patch LawfulLwrb.rPtr_patch

namespace Lwrb

variable {ρ : Type u} [Lwrb ρ] [LawfulLwrb ρ]

theorem getFull_eq (rb : ρ) : getFull rb = (contents rb).length :=
  (LawfulLwrb.length_contents rb).symm

@[simp] theorem getFree_write (rb : ρ) (bs : List UInt8) :
    getFree (write rb bs).1 = getFree rb - bs.length := by
  have := LawfulLwrb.getFree_eq rb
  simp only [LawfulLwrb.getFree_eq, LawfulLwrb.size_write, getFull_eq,
    LawfulLwrb.contents_write, List.length_append, List.length_take] at *
  omega

theorem write_fits {rb : ρ} {bs : List UInt8} (h : bs.length ≤ getFree rb) :
    (write rb bs).2 = bs.length ∧ contents (write rb bs).1 = contents rb ++ bs := by
  rw [LawfulLwrb.count_write, LawfulLwrb.contents_write, List.take_of_length_le h]
  exact ⟨Nat.min_eq_left h, rfl⟩

end Lwrb

/-- The plainest lawful ring: the queued bytes in order, and where the first one lies. -/
structure ByteQueue where
  size : Nat
  rPtr : Nat
  data : List UInt8
  rPtr_lt : rPtr < size
  full_lt : data.length < size

namespace ByteQueue

def free (q : ByteQueue) : Nat := q.size - 1 - q.data.length

def write (q : ByteQueue) (bs : List UInt8) : ByteQueue where
  size := q.size
  rPtr := q.rPtr
  data := q.data ++ bs.take q.free
  rPtr_lt := q.rPtr_lt
  full_lt := by
    have := q.full_lt
    simp only [List.length_append, List.length_take, free]
    omega

def skip (q : ByteQueue) (n : Nat) : ByteQueue where
  size := q.size
  rPtr := (q.rPtr + min n q.data.length) % q.size
  data := q.data.drop n
  rPtr_lt := Nat.mod_lt _ (Nat.zero_lt_of_lt q.rPtr_lt)
  full_lt := by
    have := q.full_lt
    simp only [List.length_drop]
    omega

def patch (q : ByteQueue) (bs : List UInt8) : ByteQueue where
  size := q.size
  rPtr := q.rPtr
  data := if bs.length ≤ q.data.length then bs ++ q.data.drop bs.length else q.data
  rPtr_lt := q.rPtr_lt
  full_lt := by
    have := q.full_lt
    split
    · simp only [List.length_append, List.length_drop]
      omega
    · assumption

instance : Lwrb ByteQueue where
  init n := ⟨max n 1, 0, [], by omega, by rw [List.length_nil]; omega⟩
  size := size
  rPtr := rPtr
  wPtr q := (q.rPtr + q.data.length) % q.size
  getFull q := q.data.length
  getFree := free
  linearRead q := min q.data.length (q.size - q.rPtr)
  linearWrite q := min q.free (q.size - (q.rPtr + q.data.length) % q.size)
  write q bs := (q.write bs, min bs.length q.free)
  peek q k n := (q.data.drop k).take n
  skip := skip
  reset q := ⟨q.size, 0, [], Nat.zero_lt_of_lt q.rPtr_lt, Nat.zero_lt_of_lt q.rPtr_lt⟩
  patch := patch

@[simp] theorem contents_eq (q : ByteQueue) : contents q = q.data := by
  simp [contents, Lwrb.peek, Lwrb.getFull]

instance : LawfulLwrb ByteQueue where
  rPtr_lt := rPtr_lt
  full_lt := full_lt
  length_contents q := by simp [Lwrb.getFull]
  peek_eq q k n := by simp [Lwrb.peek]
  getFree_eq q := rfl
  wPtr_eq q := rfl
  linearRead_eq q := rfl
  linearWrite_eq q := rfl
  size_init n h := by simp [Lwrb.size, Lwrb.init]; omega
  rPtr_init n := rfl
  contents_init n := rfl
  size_write q bs := rfl
  rPtr_write q bs := rfl
  contents_write q bs := by simp [Lwrb.write, write, Lwrb.getFree]
  count_write q bs := rfl
  size_skip q n := rfl
  rPtr_skip q n := rfl
  contents_skip q n := by simp [Lwrb.skip, skip]
  size_reset q := rfl
  rPtr_reset q := rfl
  contents_reset q := rfl
  size_patch q bs := rfl
  rPtr_patch q bs := rfl
  contents_patch q bs h := by
    have h' : bs.length ≤ q.data.length := Nat.le_trans h (Nat.min_le_left ..)
    simp [Lwrb.patch, patch, h']

end ByteQueue

end CanSniffer.Lib
