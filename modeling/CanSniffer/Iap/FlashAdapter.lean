import CanSniffer.Iap.IapWriterLaws
import CanSniffer.Lib.Extents

namespace CanSniffer.Iap

open Lib

inductive FlashStatus
  | ok
  | range
  | align
  | busy
  | protect
  | verify
  | hw
  | param
  deriving DecidableEq, Repr

def mapFlashStatus : FlashStatus → StorageStatus
  | .ok => .ok
  | .param => .param
  | .range => .range
  | .align => .align
  | .verify => .verify
  | .busy => .io
  | .protect => .io
  | .hw => .io

/-- What `Flash_GetInfo` says of the flash. -/
structure FlashInfo where
  progSizeMin : Nat
  sourceAlignment : Nat
  deriving DecidableEq, Repr

def flashInfo : FlashInfo where
  progSizeMin := 8 * 32 / 8
  sourceAlignment := 4

structure FlashWrite where
  offset : Nat
  data : List UInt8
  deriving DecidableEq, Repr

def FlashWrite.len (w : FlashWrite) : Nat := w.data.length

structure FlashAnswer where
  status : FlashStatus
  left : Nat → Option UInt8

def FlashAnswer.storage (a : FlashAnswer) : WriteAnswer where
  status := mapFlashStatus a.status
  left := a.left

/-- `IapFlashAdapterContextType` without its buffer. -/
structure FlashAdapterContext where
  srcAlignment : Nat
  maxChunk : Nat
  deriving DecidableEq, Repr

structure Written where
  slot : Slot
  calls : List FlashWrite
  status : StorageStatus

namespace FlashAdapter

def bounceSize : Nat := 1024

/-- `bounce` is the address of the buffer. -/
def initOps (info : FlashInfo) (bounce : Nat) : Except StorageStatus FlashAdapterContext :=
  if info.progSizeMin = 0 ∨ info.sourceAlignment = 0 then .error .verify
  else if bounce % info.sourceAlignment ≠ 0 then .error .align
  else
    let maxChunk := bounceSize / info.progSizeMin * info.progSizeMin
    if maxChunk = 0 then .error .verify
    else .ok { srcAlignment := info.sourceAlignment, maxChunk }

def copyLen (maxChunk progSizeMin updatedLen : Nat) : Nat :=
  if maxChunk < updatedLen then maxChunk
  else if progSizeMin ≤ updatedLen then updatedLen / progSizeMin * progSizeMin
  else 0

def writeLoop (maxChunk progSizeMin : Nat) (answer : Nat → FlashAnswer) (s : Slot) (offset : Nat)
    (src : List UInt8) : Written :=
  if _ : src = [] then { slot := s, calls := [], status := .ok }
  else
    let len := copyLen maxChunk progSizeMin src.length
    if _ : len = 0 then { slot := s, calls := [], status := .align }
    else
      let call : FlashWrite := { offset, data := src.take len }
      let t := s.write offset call.data (answer offset).storage
      if (answer offset).storage.status ≠ .ok then
        { slot := t, calls := [call], status := (answer offset).storage.status }
      else
        let r := writeLoop maxChunk progSizeMin answer t (offset + len) (src.drop len)
        { r with calls := call :: r.calls }
termination_by src.length
decreasing_by
  rw [List.length_drop]
  have hpos := List.length_pos_iff.mpr ‹_›
  omega

def write (c : FlashAdapterContext) (info : FlashInfo) (answer : Nat → FlashAnswer) (s : Slot)
    (offset : Nat) (src : List UInt8) : Written :=
  if c.maxChunk = 0 ∨ info.progSizeMin = 0 then { slot := s, calls := [], status := .verify }
  else if c.srcAlignment = 0 ∨ bounceSize % c.srcAlignment ≠ 0 then
    { slot := s, calls := [], status := .align }
  else writeLoop c.maxChunk info.progSizeMin answer s offset src

structure Suits (c : FlashAdapterContext) (info : FlashInfo) : Prop where
  chunk_pos : 0 < c.maxChunk
  chunk_dvd : c.maxChunk % info.progSizeMin = 0
  prog_pos : 0 < info.progSizeMin
  alignment_pos : 0 < c.srcAlignment
  alignment_dvd : bounceSize % c.srcAlignment = 0

variable {c : FlashAdapterContext} {info : FlashInfo} {bounce p m : Nat} {s : Slot} {offset : Nat}
  {src : List UInt8} {answer : Nat → FlashAnswer}

theorem initOps_suits (h : initOps info bounce = .ok c)
    (hdvd : bounceSize % info.sourceAlignment = 0) : Suits c info := by
  unfold initOps at h
  split at h
  · cases h
  · next hinfo =>
    simp only [not_or] at hinfo
    split at h
    · cases h
    · dsimp only at h
      split at h
      · cases h
      · next hchunk =>
        cases h
        exact ⟨Nat.pos_of_ne_zero hchunk, Nat.mul_mod_left .., Nat.pos_of_ne_zero hinfo.1,
          Nat.pos_of_ne_zero hinfo.2, hdvd⟩

theorem copyLen_spec {n : Nat} (hm : 0 < m) (hmp : m % p = 0) (hn : 0 < n)
    (hnp : n % p = 0) :
    0 < copyLen m p n ∧ copyLen m p n ≤ n ∧ copyLen m p n % p = 0 := by
  unfold copyLen
  split
  · next hlt => exact ⟨hm, Nat.le_of_lt hlt, hmp⟩
  · rw [if_pos (Nat.le_of_dvd hn (Nat.dvd_of_mod_eq_zero hnp)),
      Nat.div_mul_cancel (Nat.dvd_of_mod_eq_zero hnp)]
    exact ⟨hn, Nat.le_refl n, hnp⟩

end FlashAdapter

namespace Slot

variable {s : Slot}

theorem write_nil {a : WriteAnswer} (s : Slot) (offset : Nat) : s.write offset [] a = s := by
  have hnone : ∀ i, ¬(offset ≤ i ∧ i < offset + 0) := fun i => by omega
  have htouched : (s.write offset [] a).touched = s.touched := by
    funext i
    have hnot : ¬(offset ≤ i ∧ i < offset + ([] : List UInt8).length ∧
        (a.status = .ok ∨ (a.left i).isSome = true)) := fun h => hnone i ⟨h.1, h.2.1⟩
    simp only [write, hnot, decide_false, Bool.or_false]
  have hbytes : (s.write offset [] a).bytes = s.bytes := by
    funext i
    exact if_neg (hnone i)
  calc
    s.write offset [] a = ⟨(s.write offset [] a).bytes, (s.write offset [] a).touched⟩ := rfl
    _ = s := by rw [hbytes, htouched]

theorem write_append {a b c : WriteAnswer} (ha : a.status = .ok) (hb : b.status = .ok)
    (hc : c.status = .ok) (offset : Nat) (xs ys : List UInt8) :
    ((s.write offset xs a).write (offset + xs.length) ys b) = s.write offset (xs ++ ys) c := by
  have hbytes : ((s.write offset xs a).write (offset + xs.length) ys b).bytes =
      (s.write offset (xs ++ ys) c).bytes := by
    funext i
    simp only [write, ha, hb, hc, if_true, List.length_append]
    by_cases hx : offset ≤ i ∧ i < offset + xs.length
    · rw [if_neg (by omega), if_pos hx, if_pos (by omega), 
        List.getD_eq_getElem?_getD, List.getD_eq_getElem?_getD, List.getElem?_append_left (by omega)]
    · by_cases hy : offset + xs.length ≤ i ∧ i < offset + xs.length + ys.length
      · rw [if_pos hy, if_pos (by omega), List.getD_eq_getElem?_getD, List.getD_eq_getElem?_getD,
          List.getElem?_append_right (by omega), Nat.sub_add_eq]
      · rw [if_neg hy, if_neg hx, if_neg (by omega)]
  have htouched : ((s.write offset xs a).write (offset + xs.length) ys b).touched =
      (s.write offset (xs ++ ys) c).touched := by
    funext i
    simp only [write, ha, hb, hc, true_or, and_true, List.length_append, Bool.or_assoc]
    congr 1
    rw [← Bool.decide_or]
    apply decide_eq_decide.mpr
    omega
  calc
    _ = (⟨((s.write offset xs a).write (offset + xs.length) ys b).bytes,
        ((s.write offset xs a).write (offset + xs.length) ys b).touched⟩ : Slot) := rfl
    _ = s.write offset (xs ++ ys) c := by rw [hbytes, htouched]

end Slot

def okWrite : WriteAnswer where
  status := .ok
  left := fun _ => none

namespace FlashAdapter

variable {c : FlashAdapterContext} {info : FlashInfo} {p m : Nat} {s : Slot} {offset : Nat}
  {src : List UInt8} {answer : Nat → FlashAnswer}

theorem writeLoop_ok (hm : 0 < m) (hmp : m % p = 0) (hok : ∀ i, (answer i).status = .ok)
    (hoffset : offset % p = 0) (hsrc : src.length % p = 0) :
    (writeLoop m p answer s offset src).status = .ok ∧
      (writeLoop m p answer s offset src).slot = s.write offset src okWrite ∧
      Laid FlashWrite.offset FlashWrite.len p offset (writeLoop m p answer s offset src).calls
        (offset + src.length) := by
  fun_induction writeLoop m p answer s offset src with
  | case1 s offset => exact ⟨rfl, (s.write_nil offset).symm, rfl⟩
  | case2 s offset src hne len hlen =>
    exact absurd hlen (Nat.ne_of_gt (copyLen_spec hm hmp (List.length_pos_iff.mpr hne) hsrc).1)
  | case3 s offset src hne len hlen call t hfail =>
    have hstatus : (answer offset).storage.status = .ok := congrArg mapFlashStatus (hok offset)
    exact absurd hstatus hfail
  | case4 s offset src hne len hlen call t hstatus r ih =>
    obtain ⟨hpos, hle, hdvd⟩ := copyLen_spec hm hmp (List.length_pos_iff.mpr hne) hsrc
    have hcall : call.len = len := List.length_take_of_le hle
    have hrest : (src.drop len).length % p = 0 := by
      rw [List.length_drop]
      exact Nat.sub_mod_eq_zero_of_mod_eq (hsrc.trans hdvd.symm)
    have hnext : (offset + len) % p = 0 := by
      rw [Nat.add_mod, hoffset, hdvd, Nat.zero_mod]
    obtain ⟨hr, hslot, hlaid⟩ := ih hnext hrest
    refine ⟨hr, ?_, rfl, hcall ▸ hpos, hoffset, hcall ▸ hdvd, ?_⟩
    · calc
        r.slot = t.write (offset + len) (src.drop len) okWrite := hslot
        _ = (s.write offset call.data (answer offset).storage).write (offset + call.len)
              (src.drop len) okWrite := by rw [hcall]
        _ = s.write offset (call.data ++ src.drop len) okWrite :=
          Slot.write_append (Decidable.not_not.mp hstatus) rfl rfl ..
        _ = s.write offset src okWrite := by rw [List.take_append_drop]
    · rw [hcall]
      have hend : offset + len + (src.drop len).length = offset + src.length := by
        rw [List.length_drop]
        omega
      exact hend ▸ hlaid

theorem write_ok (h : Suits c info) (hok : ∀ i, (answer i).status = .ok)
    (hoffset : offset % info.progSizeMin = 0) (hsrc : src.length % info.progSizeMin = 0) :
    (write c info answer s offset src).status = .ok ∧
      (write c info answer s offset src).slot = s.write offset src okWrite ∧
      Laid FlashWrite.offset FlashWrite.len info.progSizeMin offset
        (write c info answer s offset src).calls (offset + src.length) := by
  unfold write
  rw [if_neg (fun hzero => hzero.elim (Nat.ne_of_gt h.chunk_pos) (Nat.ne_of_gt h.prog_pos)),
    if_neg (fun hbad => hbad.elim (Nat.ne_of_gt h.alignment_pos) (fun hne => hne h.alignment_dvd))]
  exact writeLoop_ok h.chunk_pos h.chunk_dvd hok hoffset hsrc

end FlashAdapter

end CanSniffer.Iap
