import CanSniffer.Drivers.Buffers
import CanSniffer.Lib.RingBuffer

namespace CanSniffer.Buffers

open Lib.RingBuffer (index_injective)

structure Slot where
  address : UInt32
  value : List UInt8
  deriving DecidableEq

namespace Fifo

def bytes (size : UInt32) (v : Nat → UInt8) : List UInt8 := (List.range size.toNat).map v

def Free (q : List Slot) (p : UInt32) : Prop := ∀ x ∈ q, x.address ≠ p

/-- What a queue of at most `cap` elements may answer to a call, and what it then holds. -/
def Accepts (cap : Nat) (size : UInt32) (q : List Slot) : Call → Result → List Slot → Prop
  | .put v, res, q' =>
    if q.length = cap then res = .status .full ∧ q' = q
    else res = .status .ok ∧ ∃ p, Free q p ∧ q' = q ++ [⟨p, bytes size v⟩]
  | .reserve, res, q' =>
    if q.length = cap then res = .pointer none ∧ q' = q
    else ∃ p value, res = .pointer (some p) ∧ Free q p ∧ q' = q ++ [⟨p, value⟩]
  | .pop, res, q' =>
    match q with
    | [] => res = .popped 1 none ∧ q' = []
    | x :: rest => res = .popped 0 (some x.value) ∧ q' = rest
  | .popPtr, res, q' =>
    match q with
    | [] => res = .pointer none ∧ q' = []
    | x :: rest => res = .pointer (some x.address) ∧ q' = rest
  | .peekAt pos, res, q' => res = .pointer (q[pos.toNat]?.map Slot.address) ∧ q' = q
  | .count, res, q' => res = .count (UInt32.ofNat q.length) ∧ q' = q
  | .write p v, res, q' =>
    res = .done ∧ q' = q.map fun x => if x.address = p then ⟨p, bytes size v⟩ else x

end Fifo

namespace RingBuffer

def slotAddress (rb : RingBuffer) (i : Nat) : UInt32 :=
  rb.startAddress + UInt32.ofNat i * rb.stride

def grown (rb : RingBuffer) : RingBuffer :=
  { rb with
    head := wrapIndex (rb.head + 1) rb.bufferLength
    elementCount := rb.elementCount + 1
    isFull := if rb.elementCount + 1 = rb.bufferLength then true else rb.isFull }

def shrunk (rb : RingBuffer) : RingBuffer :=
  { rb with
    tail := wrapIndex (rb.tail + 1) rb.bufferLength
    elementCount := rb.elementCount - 1
    isFull := false }

end RingBuffer

namespace State

variable {s t : State} {start len size stride : UInt32}

def slot (s : State) (i : Nat) : Slot :=
  ⟨s.rb.slotAddress i, load s.mem (s.rb.slotAddress i) s.rb.elementSize⟩

def contents (s : State) : List Slot :=
  (List.range s.rb.elementCount.toNat).map fun i =>
    s.slot ((s.rb.tail.toNat + i) % s.rb.bufferLength.toNat)

def Offers (s : State) : Call → Prop
  | .write p _ => ∃ x ∈ s.contents, x.address = p
  | _ => True

structure Behaves (s : State) : Prop where
  head : s.rb.head.toNat = (s.rb.tail.toNat + s.rb.elementCount.toNat) % s.rb.bufferLength.toNat
  isFull : s.rb.isFull = true ↔ s.rb.elementCount = s.rb.bufferLength
  count : s.rb.count = s.rb.elementCount
  accepts : ∀ call, s.Offers call →
    Fifo.Accepts s.rb.bufferLength.toNat s.rb.elementSize s.contents call (s.exec call).2
      (s.exec call).1.contents

inductive Reached (start len size stride : UInt32) : State → Prop
  | empty (m : Memory) : Reached start len size stride ⟨.empty start len size stride, m⟩
  | call {s : State} {c : Call} (h : Reached start len size stride s) (hc : s.Offers c) :
    Reached start len size stride (s.exec c).1

def SlotsApart (len size stride : UInt32) : Prop :=
  ∀ i j, i < len.toNat → j < len.toNat → i ≠ j →
    UInt32.ofNat i * stride ≠ UInt32.ofNat j * stride ∧
    ∀ a, a - UInt32.ofNat i * stride < size → ¬ a - UInt32.ofNat j * stride < size

structure Inv (start len size stride : UInt32) (s : State) : Prop where
  startAddress : s.rb.startAddress = start
  bufferLength : s.rb.bufferLength = len
  elementSize : s.rb.elementSize = size
  stride : s.rb.stride = stride
  tail_lt : s.rb.tail.toNat < len.toNat
  count_le : s.rb.elementCount.toNat ≤ len.toNat
  head : s.rb.head.toNat = (s.rb.tail.toNat + s.rb.elementCount.toNat) % len.toNat
  isFull : s.rb.isFull = true ↔ s.rb.elementCount = len

theorem Inv.empty (hlen : 0 < len.toNat) (m : Memory) :
    Inv start len size stride ⟨.empty start len size stride, m⟩ where
  startAddress := rfl
  bufferLength := rfl
  elementSize := rfl
  stride := rfl
  tail_lt := hlen
  count_le := Nat.zero_le _
  head := (Nat.zero_mod _).symm
  isFull := by
    constructor
    · exact fun h => absurd h Bool.false_ne_true
    · intro h
      change (0 : UInt32) = len at h
      rw [← h] at hlen
      exact absurd hlen (Nat.lt_irrefl _)

theorem Inv.mem (h : Inv start len size stride s) (m : Memory) :
    Inv start len size stride ⟨s.rb, m⟩ :=
  ⟨h.1, h.2, h.3, h.4, h.5, h.6, h.7, h.8⟩

theorem toNat_wrapIndex {i : UInt32} (hi : i.toNat < len.toNat) :
    (RingBuffer.wrapIndex (i + 1) len).toNat = (i.toNat + 1) % len.toNat := by
  have hlen := len.toNat_lt
  have hone : (1 : UInt32).toNat = 1 := rfl
  rw [RingBuffer.wrapIndex, UInt32.toNat_mod, UInt32.toNat_add, hone,
    Nat.mod_eq_of_lt (by omega : i.toNat + 1 < 2 ^ 32)]

theorem Inv.grown (h : Inv start len size stride s) (m : Memory)
    (hlt : s.rb.elementCount.toNat < len.toNat) :
    Inv start len size stride ⟨s.rb.grown, m⟩ ∧
      s.rb.grown.elementCount.toNat = s.rb.elementCount.toNat + 1 := by
  have hlen := len.toNat_lt
  have hone : (1 : UInt32).toNat = 1 := rfl
  have hcount : (s.rb.elementCount + 1).toNat = s.rb.elementCount.toNat + 1 := by
    rw [UInt32.toNat_add, hone]
    omega
  have hhead : s.rb.head.toNat < len.toNat := by
    rw [h.head]
    exact Nat.mod_lt _ (by omega)
  refine ⟨⟨h.startAddress, h.bufferLength, h.elementSize, h.stride, h.tail_lt, ?_, ?_, ?_⟩, hcount⟩
  · change (s.rb.elementCount + 1).toNat ≤ _
    omega
  · change (RingBuffer.wrapIndex (s.rb.head + 1) s.rb.bufferLength).toNat =
      (s.rb.tail.toNat + (s.rb.elementCount + 1).toNat) % len.toNat
    rw [h.bufferLength, toNat_wrapIndex hhead, hcount, h.head, Nat.mod_add_mod, Nat.add_assoc]
  · have hnot : s.rb.isFull = false := by
      rw [← Bool.not_eq_true, h.isFull, ← UInt32.toNat_inj]
      omega
    change (if s.rb.elementCount + 1 = s.rb.bufferLength then true else s.rb.isFull) = true ↔
      s.rb.elementCount + 1 = len
    rw [h.bufferLength, hnot]
    simp

theorem Inv.shrunk (h : Inv start len size stride s) (m : Memory)
    (hpos : s.rb.elementCount ≠ 0) :
    Inv start len size stride ⟨s.rb.shrunk, m⟩ ∧
      s.rb.shrunk.elementCount.toNat + 1 = s.rb.elementCount.toNat ∧
      s.rb.shrunk.tail.toNat = (s.rb.tail.toNat + 1) % len.toNat := by
  have hle := h.count_le
  have htail := h.tail_lt
  have hone : (1 : UInt32).toNat = 1 := rfl
  have hpos' : 0 < s.rb.elementCount.toNat := by
    refine Nat.pos_of_ne_zero fun hz => hpos ?_
    exact UInt32.toNat_inj.mp hz
  have hone_le : (1 : UInt32) ≤ s.rb.elementCount := by
    rw [UInt32.le_iff_toNat_le, hone]
    omega
  have hcount : (s.rb.elementCount - 1).toNat + 1 = s.rb.elementCount.toNat := by
    rw [UInt32.toNat_sub_of_le _ _ hone_le, hone]
    omega
  have htail' : s.rb.shrunk.tail.toNat = (s.rb.tail.toNat + 1) % len.toNat := by
    change (RingBuffer.wrapIndex (s.rb.tail + 1) s.rb.bufferLength).toNat = _
    rw [h.bufferLength, toNat_wrapIndex htail]
  refine ⟨⟨h.startAddress, h.bufferLength, h.elementSize, h.stride, ?_, ?_, ?_, ?_⟩, hcount, htail'⟩
  · change s.rb.shrunk.tail.toNat < _
    rw [htail']
    exact Nat.mod_lt _ (by omega)
  · change (s.rb.elementCount - 1).toNat ≤ _
    omega
  · change s.rb.head.toNat = (s.rb.shrunk.tail.toNat + (s.rb.elementCount - 1).toNat) % len.toNat
    rw [htail', Nat.mod_add_mod, h.head, ← hcount, Nat.add_assoc, Nat.add_comm 1]
  · change false = true ↔ s.rb.elementCount - 1 = len
    rw [← UInt32.toNat_inj]
    simp only [Bool.false_eq_true, false_iff]
    omega

theorem Inv.count_eq (h : Inv start len size stride s) : s.rb.count = s.rb.elementCount := by
  have htail := h.tail_lt
  have hle := h.count_le
  have hhead := h.head
  have hmod : (s.rb.tail.toNat + s.rb.elementCount.toNat) % len.toNat =
      if s.rb.tail.toNat + s.rb.elementCount.toNat < len.toNat then
        s.rb.tail.toNat + s.rb.elementCount.toNat
      else s.rb.tail.toNat + s.rb.elementCount.toNat - len.toNat := by
    split
    · rename_i hlt
      exact Nat.mod_eq_of_lt hlt
    · rename_i hge
      rw [Nat.mod_eq_sub_mod (by omega), Nat.mod_eq_of_lt (by omega)]
  rw [hmod] at hhead
  unfold RingBuffer.count
  split
  · rename_i heq
    rw [← UInt32.toNat_inj] at heq
    split
    · rename_i hfull
      rw [h.bufferLength, ← h.isFull.mp hfull]
    · rename_i hfull
      have hne := mt h.isFull.mpr hfull
      rw [← UInt32.toNat_inj] at hne ⊢
      change 0 = _
      split at hhead
      · omega
      · omega
  · rename_i hne
    rw [← UInt32.toNat_inj] at hne
    split
    · rename_i hlt
      rw [UInt32.lt_iff_toNat_lt] at hlt
      have hle' : s.rb.tail ≤ s.rb.head := UInt32.le_iff_toNat_le.mpr (Nat.le_of_lt hlt)
      rw [← UInt32.toNat_inj, UInt32.toNat_sub_of_le _ _ hle']
      split at hhead
      · omega
      · omega
    · rename_i hge
      rw [UInt32.lt_iff_toNat_lt] at hge
      have hle' : s.rb.head ≤ s.rb.tail := by
        rw [UInt32.le_iff_toNat_le]
        omega
      have hsub := UInt32.toNat_sub_of_le _ _ hle'
      have hle'' : s.rb.tail - s.rb.head ≤ s.rb.bufferLength := by
        rw [UInt32.le_iff_toNat_le, hsub, h.bufferLength]
        omega
      rw [← UInt32.toNat_inj, UInt32.toNat_sub_of_le _ _ hle'', hsub, h.bufferLength]
      split at hhead
      · omega
      · omega

@[simp] theorem length_contents (s : State) : s.contents.length = s.rb.elementCount.toNat := by
  simp [contents]

theorem getElem?_contents {i : Nat} (hi : i < s.rb.elementCount.toNat) :
    s.contents[i]? = some (s.slot ((s.rb.tail.toNat + i) % s.rb.bufferLength.toNat)) := by
  rw [contents, List.getElem?_map, List.getElem?_range hi, Option.map_some]

theorem contents_eq_nil (h : s.rb.elementCount = 0) : s.contents = [] := by
  rw [contents, h]
  rfl

theorem Inv.mem_contents (h : Inv start len size stride s) {x : Slot} (hx : x ∈ s.contents) :
    ∃ i, i < s.rb.elementCount.toNat ∧ x = s.slot ((s.rb.tail.toNat + i) % len.toNat) := by
  obtain ⟨i, hi, rfl⟩ := List.mem_map.mp hx
  rw [h.bufferLength]
  exact ⟨i, List.mem_range.mp hi, rfl⟩

theorem Inv.peek_eq (h : Inv start len size stride s) :
    s.rb.peek =
      s.rb.slotAddress ((s.rb.tail.toNat + s.rb.elementCount.toNat) % len.toNat) := by
  rw [RingBuffer.peek, RingBuffer.slotAddress, ← h.head, UInt32.ofNat_toNat]

theorem Inv.tail_eq (h : Inv start len size stride s) :
    s.rb.startAddress + s.rb.tail * s.rb.stride =
      s.rb.slotAddress ((s.rb.tail.toNat + 0) % len.toNat) := by
  rw [RingBuffer.slotAddress, Nat.add_zero, Nat.mod_eq_of_lt h.tail_lt, UInt32.ofNat_toNat]

theorem Inv.contents_grown (h : Inv start len size stride s)
    (hlt : s.rb.elementCount.toNat < len.toNat) (m : Memory) :
    (⟨s.rb.grown, m⟩ : State).contents =
      (⟨s.rb, m⟩ : State).contents ++ [⟨s.rb.peek, load m s.rb.peek s.rb.elementSize⟩] := by
  have hcount := (h.grown m hlt).2
  simp only [contents, hcount, List.range_succ, List.map_append, List.map_cons, List.map_nil]
  rw [h.peek_eq, ← h.bufferLength]
  rfl

theorem Inv.contents_shrunk (h : Inv start len size stride s) (hpos : s.rb.elementCount ≠ 0) :
    s.contents = s.slot ((s.rb.tail.toNat + 0) % len.toNat) ::
      (⟨s.rb.shrunk, s.mem⟩ : State).contents := by
  obtain ⟨-, hcount, htail⟩ := h.shrunk s.mem hpos
  simp only [contents, ← hcount, List.range_succ_eq_map, List.map_cons, List.map_map,
    h.bufferLength]
  congr 1
  refine List.map_congr_left fun i hi => ?_
  change s.slot ((s.rb.tail.toNat + (i + 1)) % len.toNat) =
    s.slot ((s.rb.shrunk.tail.toNat + i) % s.rb.bufferLength.toNat)
  rw [htail, h.bufferLength, Nat.mod_add_mod, Nat.add_assoc, Nat.add_comm 1]

theorem load_store_self (m : Memory) (p size : UInt32) (v : Nat → UInt8) :
    load (store m p size v) p size = Fifo.bytes size v := by
  refine List.map_congr_left fun i hi => ?_
  have hlt := List.mem_range.mp hi
  have hsize := size.toNat_lt
  have hi' : (UInt32.ofNat i).toNat = i := by
    rw [UInt32.toNat_ofNat']
    omega
  have hoff : p + UInt32.ofNat i - p = UInt32.ofNat i := by grind
  rw [store, hoff, if_pos (by rw [UInt32.lt_iff_toNat_lt, hi']; exact hlt), hi']

theorem load_store_of_apart {m : Memory} {p q size : UInt32} {v : Nat → UInt8}
    (h : ∀ a, a - p < size → ¬ a - q < size) : load (store m q size v) p size = load m p size := by
  refine List.map_congr_left fun i hi => ?_
  have hlt := List.mem_range.mp hi
  have hsize := size.toNat_lt
  have hoff : p + UInt32.ofNat i - p = UInt32.ofNat i := by grind
  refine if_neg (h _ ?_)
  rw [hoff, UInt32.lt_iff_toNat_lt, UInt32.toNat_ofNat']
  omega

theorem Inv.slot_store (h : Inv start len size stride s) (hapart : SlotsApart len size stride)
    {i j : Nat} (hi : i < len.toNat) (hj : j < len.toNat) (hne : i ≠ j) (v : Nat → UInt8) :
    slot ⟨s.rb, store s.mem (s.rb.slotAddress j) s.rb.elementSize v⟩ i = s.slot i := by
  have hbytes := (hapart i j hi hj hne).2
  refine congrArg (Slot.mk _) (load_store_of_apart ?_)
  intro a ha hb
  rw [RingBuffer.slotAddress, h.startAddress, h.stride, h.elementSize] at ha hb
  refine hbytes (a - start) ?_ ?_
  · have hsub : a - start - UInt32.ofNat i * stride = a - (start + UInt32.ofNat i * stride) := by
      grind
    rw [hsub]
    exact ha
  · have hsub : a - start - UInt32.ofNat j * stride = a - (start + UInt32.ofNat j * stride) := by
      grind
    rw [hsub]
    exact hb

theorem Inv.slotAddress_ne (h : Inv start len size stride s) (hapart : SlotsApart len size stride)
    {i j : Nat} (hi : i < len.toNat) (hj : j < len.toNat) (hne : i ≠ j) :
    s.rb.slotAddress i ≠ s.rb.slotAddress j := by
  intro heq
  rw [RingBuffer.slotAddress, RingBuffer.slotAddress, h.startAddress, h.stride] at heq
  exact (hapart i j hi hj hne).1 (by grind)

theorem Inv.free_peek (h : Inv start len size stride s) (hapart : SlotsApart len size stride)
    (hlt : s.rb.elementCount.toNat < len.toNat) : Fifo.Free s.contents s.rb.peek := by
  intro x hx
  obtain ⟨i, hi, rfl⟩ := h.mem_contents hx
  rw [h.peek_eq]
  have hpos : 0 < len.toNat := by omega
  refine h.slotAddress_ne hapart (Nat.mod_lt _ hpos) (Nat.mod_lt _ hpos) fun heq => ?_
  exact absurd (index_injective (by omega) hlt heq) (by omega)

theorem Inv.contents_store_peek (h : Inv start len size stride s)
    (hapart : SlotsApart len size stride) (hlt : s.rb.elementCount.toNat < len.toNat)
    (v : Nat → UInt8) :
    (⟨s.rb, store s.mem s.rb.peek s.rb.elementSize v⟩ : State).contents = s.contents := by
  refine List.map_congr_left fun i hi => ?_
  have hi' := List.mem_range.mp hi
  have hpos : 0 < len.toNat := by omega
  rw [h.peek_eq]
  refine h.slot_store hapart ?_ (Nat.mod_lt _ hpos) ?_ v
  · rw [h.bufferLength]
    exact Nat.mod_lt _ hpos
  · rw [h.bufferLength]
    exact fun heq => absurd (index_injective (Nat.lt_trans hi' hlt) hlt heq) (Nat.ne_of_lt hi')

theorem Inv.contents_write (h : Inv start len size stride s) (hapart : SlotsApart len size stride)
    {p : UInt32} (hp : ∃ x ∈ s.contents, x.address = p) (v : Nat → UInt8) :
    (⟨s.rb, store s.mem p s.rb.elementSize v⟩ : State).contents =
      s.contents.map fun x => if x.address = p then ⟨p, Fifo.bytes size v⟩ else x := by
  obtain ⟨x, hx, rfl⟩ := hp
  obtain ⟨k, hk, rfl⟩ := h.mem_contents hx
  have hle := h.count_le
  have hpos : 0 < len.toNat := by omega
  simp only [contents, List.map_map]
  refine List.map_congr_left fun i hi => ?_
  have hi' := List.mem_range.mp hi
  rw [Function.comp_apply, h.bufferLength]
  by_cases hik : i = k
  · subst hik
    rw [if_pos rfl, slot, ← h.elementSize]
    exact congrArg (Slot.mk _) (load_store_self _ _ _ _)
  · have hne : (s.rb.tail.toNat + i) % len.toNat ≠ (s.rb.tail.toNat + k) % len.toNat :=
      fun heq => hik (index_injective (by omega) (by omega) heq)
    have haddress := h.slotAddress_ne hapart (Nat.mod_lt _ hpos) (Nat.mod_lt _ hpos) hne
    exact (h.slot_store hapart (Nat.mod_lt _ hpos) (Nat.mod_lt _ hpos) hne v).trans
      (if_neg haddress).symm

theorem put_eq (rb : RingBuffer) (m : Memory) (v : Nat → UInt8) :
    rb.put m v =
      if rb.isFull then (.full, rb, m) else (.ok, rb.grown, store m rb.peek rb.elementSize v) := rfl

theorem reserve_eq (rb : RingBuffer) :
    rb.reserve = if rb.isFull then (none, rb) else (some rb.peek, rb.grown) := rfl

theorem Inv.pop_eq (h : Inv start len size stride s) (hstride : stride ≠ 0)
    (hpos : s.rb.elementCount ≠ 0) :
    let oldest := s.slot ((s.rb.tail.toNat + 0) % len.toNat)
    s.rb.popPtr = (some oldest.address, s.rb.shrunk) ∧
      s.rb.pop s.mem = (0, some oldest.value, s.rb.shrunk) := by
  have hne : ¬ 0 = s.rb.stride := by
    rw [h.stride]
    exact hstride.symm
  rw [RingBuffer.popPtr, RingBuffer.pop, if_neg hpos, if_neg hne, if_neg hpos, if_neg hne,
    h.tail_eq]
  exact ⟨rfl, rfl⟩

theorem Inv.full_iff (h : Inv start len size stride s) :
    s.contents.length = len.toNat ↔ s.rb.isFull = true := by
  rw [length_contents, h.isFull, UInt32.toNat_inj]

theorem Inv.lt_of_not_full (h : Inv start len size stride s) (hfull : ¬ s.rb.isFull = true) :
    s.rb.elementCount.toNat < len.toNat := by
  have hle := h.count_le
  rw [← h.full_iff, length_contents] at hfull
  omega

theorem Inv.peekAt_eq (h : Inv start len size stride s) (hstride : stride ≠ 0)
    (hlen : len.toNat ≤ 0x80000000) (pos : UInt32) :
    s.rb.peekAt pos = s.contents[pos.toNat]?.map Slot.address := by
  have hle := h.count_le
  have htail := h.tail_lt
  rw [RingBuffer.peekAt, h.count_eq]
  split
  · rename_i hge
    rw [UInt32.le_iff_toNat_le] at hge
    rw [List.getElem?_eq_none (by simpa using hge), Option.map_none]
  · rename_i hlt
    rw [UInt32.le_iff_toNat_le] at hlt
    rw [if_neg (by rw [h.stride]; exact hstride.symm)]
    have hphys : ((s.rb.tail + pos) % s.rb.bufferLength).toNat =
        (s.rb.tail.toNat + pos.toNat) % s.rb.bufferLength.toNat := by
      have hsum : s.rb.tail.toNat + pos.toNat < 2 ^ 32 := by omega
      rw [UInt32.toNat_mod, UInt32.toNat_add, Nat.mod_eq_of_lt hsum]
    rw [getElem?_contents (Nat.lt_of_not_le hlt), Option.map_some, slot, RingBuffer.slotAddress,
      ← hphys, UInt32.ofNat_toNat]

theorem Inv.accepts (h : Inv start len size stride s) (hstride : stride ≠ 0)
    (hlen : len.toNat ≤ 0x80000000) (hapart : SlotsApart len size stride) (c : Call)
    (hc : s.Offers c) :
    Fifo.Accepts len.toNat size s.contents c (s.exec c).2 (s.exec c).1.contents := by
  cases c with
  | put v =>
    simp only [exec, put_eq, Fifo.Accepts, h.full_iff]
    split
    · exact ⟨rfl, rfl⟩
    · rename_i hfull
      have hlt := h.lt_of_not_full hfull
      refine ⟨rfl, s.rb.peek, h.free_peek hapart hlt, ?_⟩
      rw [h.contents_grown hlt, h.contents_store_peek hapart hlt, load_store_self, h.elementSize]
  | reserve =>
    simp only [exec, reserve_eq, Fifo.Accepts, h.full_iff]
    split
    · exact ⟨rfl, rfl⟩
    · rename_i hfull
      have hlt := h.lt_of_not_full hfull
      exact ⟨s.rb.peek, _, rfl, h.free_peek hapart hlt, h.contents_grown hlt s.mem⟩
  | pop =>
    by_cases hzero : s.rb.elementCount = 0
    · simp [exec, RingBuffer.pop, hzero, contents_eq_nil hzero, Fifo.Accepts]
    · rw [exec, (h.pop_eq hstride hzero).2, h.contents_shrunk hzero]
      exact ⟨rfl, rfl⟩
  | popPtr =>
    by_cases hzero : s.rb.elementCount = 0
    · simp [exec, RingBuffer.popPtr, hzero, contents_eq_nil hzero, Fifo.Accepts]
    · rw [exec, (h.pop_eq hstride hzero).1, h.contents_shrunk hzero]
      exact ⟨rfl, rfl⟩
  | peekAt pos => exact ⟨congrArg Result.pointer (h.peekAt_eq hstride hlen pos), rfl⟩
  | count =>
    refine ⟨?_, rfl⟩
    rw [length_contents, UInt32.ofNat_toNat]
    exact congrArg Result.count h.count_eq
  | write p v => exact ⟨rfl, h.contents_write hapart hc v⟩

theorem Inv.exec (h : Inv start len size stride s) (c : Call) :
    Inv start len size stride (s.exec c).1 := by
  cases c with
  | put v =>
    simp only [State.exec, put_eq]
    split
    · exact h.mem _
    · exact (h.grown _ (h.lt_of_not_full ‹_›)).1
  | reserve =>
    simp only [State.exec, reserve_eq]
    split
    · exact h
    · exact (h.grown _ (h.lt_of_not_full ‹_›)).1
  | pop =>
    simp only [State.exec, RingBuffer.pop]
    split
    · exact h
    · split
      · exact h
      · exact (h.shrunk _ ‹_›).1
  | popPtr =>
    simp only [State.exec, RingBuffer.popPtr]
    split
    · exact h
    · split
      · exact h
      · exact (h.shrunk _ ‹_›).1
  | peekAt pos => exact h
  | count => exact h
  | write p v => exact h.mem _

theorem Reached.inv (hlen : 0 < len.toNat) (h : Reached start len size stride s) :
    Inv start len size stride s := by
  induction h with
  | empty m => exact .empty hlen m
  | call _ _ ih => exact ih.exec _

theorem Reached.fill (hlen : 0 < len.toNat) (h : Reached start len size stride s) (n : Nat)
    (hn : s.rb.elementCount.toNat + n ≤ len.toNat) :
    ∃ t, Reached start len size stride t ∧ t.rb.tail = s.rb.tail ∧
      t.rb.elementCount.toNat = s.rb.elementCount.toNat + n := by
  induction n with
  | zero => exact ⟨s, h, rfl, rfl⟩
  | succ n ih =>
    obtain ⟨t, ht, htail, hcount⟩ := ih (by omega)
    have hinv := ht.inv hlen
    have hlt : t.rb.elementCount.toNat < len.toNat := by omega
    have hfull : ¬ t.rb.isFull = true := by
      rw [← hinv.full_iff, length_contents]
      omega
    have hnext : Reached start len size stride ⟨t.rb.grown, t.mem⟩ := by
      have hcall := ht.call (c := .reserve) trivial
      rwa [State.exec, reserve_eq, if_neg hfull] at hcall
    exact ⟨_, hnext, htail, by rw [(hinv.grown t.mem hlt).2]; omega⟩

theorem Reached.drain (hlen : 0 < len.toNat) (hstride : stride ≠ 0)
    (h : Reached start len size stride s) (n : Nat) (hn : n ≤ s.rb.elementCount.toNat) :
    ∃ t, Reached start len size stride t ∧
      t.rb.tail.toNat = (s.rb.tail.toNat + n) % len.toNat ∧
      t.rb.elementCount.toNat + n = s.rb.elementCount.toNat := by
  induction n with
  | zero => exact ⟨s, h, (Nat.mod_eq_of_lt (h.inv hlen).tail_lt).symm, rfl⟩
  | succ n ih =>
    obtain ⟨t, ht, htail, hcount⟩ := ih (by omega)
    have hinv := ht.inv hlen
    have hpos : t.rb.elementCount ≠ 0 := by
      intro hz
      rw [hz] at hcount
      change 0 + n = _ at hcount
      omega
    have hnext : Reached start len size stride ⟨t.rb.shrunk, t.mem⟩ := by
      have hcall := ht.call (c := .popPtr) trivial
      rwa [State.exec, (hinv.pop_eq hstride hpos).1] at hcall
    obtain ⟨-, hcount', htail'⟩ := hinv.shrunk t.mem hpos
    refine ⟨_, hnext, ?_, ?_⟩
    · rw [htail', htail, Nat.mod_add_mod, Nat.add_assoc]
    · change t.rb.shrunk.elementCount.toNat + (n + 1) = _
      omega

def Sound (start len size stride : UInt32) : Prop :=
  ∀ s, Reached start len size stride s → s.Behaves

theorem sound_of_apart (hlen : 0 < len.toNat) (hstride : stride ≠ 0)
    (hle : len.toNat ≤ 0x80000000) (hapart : SlotsApart len size stride) :
    Sound start len size stride := by
  intro s hs
  have h := hs.inv hlen
  refine ⟨?_, ?_, h.count_eq, fun c hc => ?_⟩
  · rw [h.bufferLength]
    exact h.head
  · rw [h.bufferLength]
    exact h.isFull
  · rw [h.bufferLength, h.elementSize]
    exact h.accepts hstride hle hapart c hc

theorem apart_of_sound (hsound : Sound start len size stride) {i j : Nat} (hij : i < j)
    (hj : j < len.toNat) :
    UInt32.ofNat i * stride ≠ UInt32.ofNat j * stride ∧
      ∀ a, a - UInt32.ofNat i * stride < size → ¬ a - UInt32.ofNat j * stride < size := by
  have hlen : 0 < len.toNat := by omega
  have hbound := len.toNat_lt
  have hempty : Reached start len size stride ⟨.empty start len size stride, fun _ => 0⟩ :=
    .empty _
  obtain ⟨s, hs, htail, hcount⟩ := hempty.fill hlen j (by change 0 + j ≤ _; omega)
  change _ = 0 + j at hcount
  rw [Nat.zero_add] at hcount
  have h := hs.inv hlen
  have hlt : s.rb.elementCount.toNat < len.toNat := by omega
  have hfull : ¬ s.rb.isFull = true := by
    rw [← h.full_iff, length_contents]
    omega
  have htail' : s.rb.tail.toNat = 0 := by rw [htail]; rfl
  have hpeek : s.rb.peek = start + UInt32.ofNat j * stride := by
    rw [h.peek_eq, htail', hcount, Nat.zero_add, Nat.mod_eq_of_lt hj, RingBuffer.slotAddress,
      h.startAddress, h.stride]
  have hslot : ∀ m, (⟨s.rb, m⟩ : State).contents[i]? = some (slot ⟨s.rb, m⟩ i) := by
    intro m
    have hcount' : i < s.rb.elementCount.toNat := by omega
    have hget := getElem?_contents (s := ⟨s.rb, m⟩) hcount'
    change _ = some (slot _ ((s.rb.tail.toNat + i) % s.rb.bufferLength.toNat)) at hget
    rwa [htail', h.bufferLength, Nat.zero_add, Nat.mod_eq_of_lt (by omega)] at hget
  have haddress : s.rb.slotAddress i = start + UInt32.ofNat i * stride := by
    rw [RingBuffer.slotAddress, h.startAddress, h.stride]
  constructor
  · intro heq
    have hreserve := (hsound s hs).accepts .reserve trivial
    simp only [exec, reserve_eq, if_neg hfull, Fifo.Accepts, h.bufferLength, h.full_iff] at hreserve
    obtain ⟨p, value, hp, hfree, -⟩ := hreserve
    obtain rfl : s.rb.peek = p := by simpa using hp
    refine hfree _ (List.mem_of_getElem? (hslot s.mem)) ?_
    change s.rb.slotAddress i = s.rb.peek
    rw [haddress, hpeek, heq]
  · intro a hi hj'
    -- the byte in both slots is set to another value
    let v : Nat → UInt8 := fun _ => s.mem (start + a) + 1
    have hput := (hsound s hs).accepts (.put v) trivial
    simp only [exec, put_eq, if_neg hfull, Fifo.Accepts, h.bufferLength, h.full_iff] at hput
    obtain ⟨-, p, -, hcontents⟩ := hput
    rw [h.contents_grown hlt] at hcontents
    have hprefix := (List.append_inj' hcontents rfl).1
    have hget : (⟨s.rb, store s.mem s.rb.peek s.rb.elementSize v⟩ : State).contents[i]? =
        s.contents[i]? := congrArg (fun q : List Slot => q[i]?) hprefix
    rw [hslot, hslot s.mem] at hget
    have hload : load (store s.mem s.rb.peek s.rb.elementSize v) (s.rb.slotAddress i)
        s.rb.elementSize = load s.mem (s.rb.slotAddress i) s.rb.elementSize :=
      congrArg Slot.value (Option.some.inj hget)
    have hbyte := List.map_inj_left.mp hload (a - UInt32.ofNat i * stride).toNat (by
      rw [List.mem_range, h.elementSize]
      exact UInt32.lt_iff_toNat_lt.mp hi)
    have hhere : start + UInt32.ofNat i * stride + (a - UInt32.ofNat i * stride) = start + a := by
      grind
    have hoff : start + a - (start + UInt32.ofNat j * stride) = a - UInt32.ofNat j * stride := by
      grind
    rw [UInt32.ofNat_toNat, haddress, hhere, store, hpeek, hoff, h.elementSize, if_pos hj'] at hbyte
    change s.mem (start + a) + 1 = s.mem (start + a) at hbyte
    grind

theorem slotsApart_of_sound (hsound : Sound start len size stride) :
    SlotsApart len size stride := by
  intro i j hi hj hne
  rcases Nat.lt_or_gt_of_ne hne with hij | hij
  · exact apart_of_sound hsound hij hj
  · obtain ⟨haddress, hbytes⟩ := apart_of_sound hsound hij hi
    exact ⟨haddress.symm, fun a hi hj => hbytes a hj hi⟩

theorem length_le_of_sound (hlen : 0 < len.toNat) (hstride : stride ≠ 0)
    (hsound : Sound start len size stride) : len.toNat ≤ 0x80000000 := by
  by_contra hbig
  have hbound := len.toNat_lt
  have hempty : Reached start len size stride ⟨.empty start len size stride, fun _ => 0⟩ :=
    .empty _
  obtain ⟨s₁, hs₁, htail₁, hcount₁⟩ := hempty.fill hlen len.toNat (by change 0 + _ ≤ _; omega)
  change _ = 0 + _ at hcount₁
  obtain ⟨s₂, hs₂, htail₂, hcount₂⟩ := hs₁.drain hlen hstride (len.toNat - 1) (by omega)
  obtain ⟨s, hs, htail, hcount⟩ := hs₂.fill hlen (len.toNat - 1) (by omega)
  have h := hs.inv hlen
  have htail' : s.rb.tail.toNat = len.toNat - 1 := by
    rw [htail, htail₂, htail₁]
    change (0 + _) % _ = _
    rw [Nat.zero_add, Nat.mod_eq_of_lt (by omega)]
  have hpos : (UInt32.ofNat (len.toNat - 1)).toNat = len.toNat - 1 := by
    rw [UInt32.toNat_ofNat']
    omega
  have hpeek := (hsound s hs).accepts (.peekAt (UInt32.ofNat (len.toNat - 1))) trivial
  simp only [exec, Fifo.Accepts, hpos] at hpeek
  rw [getElem?_contents (by omega), htail', h.bufferLength, RingBuffer.peekAt, h.count_eq,
    if_neg (by rw [UInt32.le_iff_toNat_le, hpos]; omega),
    if_neg (by rw [h.stride]; exact hstride.symm)] at hpeek
  have hright : (len.toNat - 1 + (len.toNat - 1)) % len.toNat = len.toNat - 2 := by
    rw [Nat.mod_eq_sub_mod (by omega), Nat.mod_eq_of_lt (by omega)]
    omega
  have hwrong : ((s.rb.tail + UInt32.ofNat (len.toNat - 1)) % s.rb.bufferLength).toNat =
      len.toNat - 1 + (len.toNat - 1) - 4294967296 := by
    have hsum : (len.toNat - 1 + (len.toNat - 1)) % 2 ^ 32 =
        len.toNat - 1 + (len.toNat - 1) - 4294967296 := by omega
    rw [UInt32.toNat_mod, UInt32.toNat_add, hpos, htail', h.bufferLength, hsum,
      Nat.mod_eq_of_lt (by omega)]
  have haddress : s.rb.slotAddress (len.toNat - 1 + (len.toNat - 1) - 4294967296) =
      s.rb.slotAddress (len.toNat - 2) := by
    rw [← hwrong, RingBuffer.slotAddress, UInt32.ofNat_toNat, ← hright]
    exact Option.some.inj (Result.pointer.inj hpeek.1)
  exact h.slotAddress_ne (slotsApart_of_sound hsound) (by omega) (by omega) (by omega) haddress

theorem toNat_offset (hstride : 0 < stride.toNat)
    (hfits : len.toNat * stride.toNat ≤ 4294967296) {i : Nat} (hi : i < len.toNat) :
    (UInt32.ofNat i * stride).toNat = i * stride.toNat ∧
      i * stride.toNat + stride.toNat ≤ 4294967296 := by
  have hlen := len.toNat_lt
  have hle : i * stride.toNat + stride.toNat ≤ 4294967296 := by
    rw [← Nat.succ_mul]
    exact Nat.le_trans (Nat.mul_le_mul_right _ hi) hfits
  refine ⟨?_, hle⟩
  rw [UInt32.toNat_mul, UInt32.toNat_ofNat', Nat.mod_eq_of_lt (by omega : i < 2 ^ 32),
    Nat.mod_eq_of_lt (by omega : i * stride.toNat < 2 ^ 32)]

theorem slotsApart_of_le (hsize : size.toNat ≤ stride.toNat) (hstride : 0 < stride.toNat)
    (hfits : len.toNat * stride.toNat ≤ 4294967296) : SlotsApart len size stride := by
  intro i j hi hj hne
  obtain ⟨hoffi, hlei⟩ := toNat_offset hstride hfits hi
  obtain ⟨hoffj, hlej⟩ := toNat_offset hstride hfits hj
  have hapart : i * stride.toNat + stride.toNat ≤ j * stride.toNat ∨
      j * stride.toNat + stride.toNat ≤ i * stride.toNat := by
    rw [← Nat.succ_mul, ← Nat.succ_mul]
    rcases Nat.lt_or_gt_of_ne hne with hij | hij
    · exact .inl (Nat.mul_le_mul_right _ hij)
    · exact .inr (Nat.mul_le_mul_right _ hij)
  constructor
  · rw [ne_eq, ← UInt32.toNat_inj, hoffi, hoffj]
    omega
  · intro a ha hb
    have hlt := a.toNat_lt
    rw [UInt32.lt_iff_toNat_lt, UInt32.toNat_sub, hoffi] at ha
    rw [UInt32.lt_iff_toNat_lt, UInt32.toNat_sub, hoffj] at hb
    omega

/-- The ring is a bounded queue exactly when twice its length fits the index and its slots lie
apart. -/
theorem fifoSound_iff (start len size stride : UInt32) (hlen : 1 ≤ len) (hstride : stride ≠ 0) :
    Sound start len size stride ↔ len.toNat ≤ 0x80000000 ∧ SlotsApart len size stride := by
  have hpos : 0 < len.toNat := UInt32.le_iff_toNat_le.mp hlen
  constructor
  · exact fun h => ⟨length_le_of_sound hpos hstride h, slotsApart_of_sound h⟩
  · exact fun ⟨hle, hapart⟩ => sound_of_apart hpos hstride hle hapart

theorem sound_four : Sound 0x24000000 4 4 4 :=
  (fifoSound_iff 0x24000000 4 4 4 (by decide) (by decide)).mpr
    ⟨by decide, slotsApart_of_le (by decide) (by decide) (by decide)⟩

theorem not_sound_half : ¬ Sound 0x24000000 0x80000001 1 1 := by
  intro h
  have hle := length_le_of_sound (by decide) (by decide) h
  exact absurd hle (by decide)

end State

end CanSniffer.Buffers
