import CanSniffer.Iap.UploadLaws
import CanSniffer.Iap.VerifyLaws

namespace CanSniffer.Iap

namespace Slot

variable {s : Slot} {a : WriteAnswer} {data : List UInt8} {ofs n : Nat}

theorem slice_write_before (h : n ≤ ofs) : (s.write ofs data a).slice 0 n = s.slice 0 n := by
  apply slice_congr
  intro i _ hi
  exact if_neg (by omega)

end Slot

namespace IapWriter

variable {w : IapWriter}

/-- What the writer took is at the start of the slot. -/
def Stored (w : IapWriter) : Prop := w.slot.slice 0 w.receivedSize = w.payload

theorem writeChunk_result (w : IapWriter) (offset : Nat) (data : List UInt8) (a : WriteAnswer) :
    (w.writeChunk offset data a).2 ≠ .ok ∧
        ((w.writeChunk offset data a).1 = w ∨
          (w.writeChunk offset data a).1 = { w with slot := w.slot.write w.receivedSize data a }) ∨
      a.status = .ok ∧ w.writeChunk offset data a = (w.grown data a, .ok) := by
  unfold writeChunk
  split
  · exact .inl ⟨nofun, .inl rfl⟩
  · split
    · exact .inl ⟨nofun, .inl rfl⟩
    · split
      · exact .inl ⟨nofun, .inl rfl⟩
      · next hofs =>
        obtain rfl := Decidable.not_not.mp hofs
        split
        · exact .inl ⟨nofun, .inl rfl⟩
        · split
          · exact .inl ⟨nofun, .inl rfl⟩
          · dsimp only
            cases ha : a.status with
            | ok => exact .inr ⟨rfl, rfl⟩
            | param => exact .inl ⟨nofun, .inr rfl⟩
            | range => exact .inl ⟨nofun, .inr rfl⟩
            | align => exact .inl ⟨nofun, .inr rfl⟩
            | verify => exact .inl ⟨nofun, .inr rfl⟩
            | io => exact .inl ⟨nofun, .inr rfl⟩

theorem Stored.writeChunk (h : w.Stored) (offset : Nat) (data : List UInt8) (a : WriteAnswer) :
    (w.writeChunk offset data a).1.Stored := by
  rcases w.writeChunk_result offset data a with ⟨-, hw | hw⟩ | ⟨ha, hw⟩
  · rw [hw]
    exact h
  · rw [hw]
    exact (Slot.slice_write_before (Nat.le_refl _)).trans h
  · rw [hw]
    exact (Slot.write_slice_zero ha).trans (congrArg (· ++ data) h)

theorem begin_fits {imageSize : Nat} {a : EraseAnswer} (hok : (w.begin imageSize a).2 = .ok) :
    imageSize ≤ w.config.slotSize := by
  unfold begin at hok
  split at hok
  · cases hok
  · split at hok
    · cases hok
    · next hfit =>
      simp only [not_or, Nat.not_lt] at hfit
      exact hfit.2

theorem started_stored (w : IapWriter) (imageSize : Nat) : (w.started imageSize).Stored := rfl

theorem abort_stored (w : IapWriter) : w.abort.1.Stored := rfl

theorem begin_stored {imageSize : Nat} {a : EraseAnswer} (h : w.active = true → w.Stored)
    (hopen : (w.begin imageSize a).1.active = true) : (w.begin imageSize a).1.Stored := by
  cases hw : w.active with
  | true =>
    have hrefused : w.begin imageSize a = (w, .state) := if_pos hw
    rw [hrefused]
    exact h hw
  | false =>
    rcases w.begin_cases imageSize a with ⟨-, hb | ⟨len, hb⟩⟩ | ⟨-, -, hb | ⟨len, hb⟩⟩
    · rw [hb] at hopen
      exact absurd (hw.symm.trans hopen) nofun
    · rw [hb] at hopen
      exact absurd (hw.symm.trans hopen) nofun
    · rw [hb]
      exact started_stored ..
    · rw [hb]
      exact started_stored ..

theorem Stored.finalize (h : w.Stored) : w.finalize.1.Stored := by
  rcases w.finalize_cases with ⟨-, hw⟩ | ⟨-, -, -, hw⟩
  · rw [hw]
    exact h
  · rw [hw]
    exact h

theorem Stored.verifyStart (h : w.Stored) : w.verifyStart.Stored := by
  unfold IapWriter.verifyStart
  split
  · exact h
  · exact h

theorem Stored.verifyEnd (h : w.Stored) : w.verifyEnd.1.Stored := by
  unfold IapWriter.verifyEnd
  split
  · exact h
  · exact h

theorem Stored.verifyStep (h : w.Stored) (maxStepBytes : Nat) (a : StorageStatus) :
    (w.verifyStep maxStepBytes a).1.Stored := by
  rcases w.verifyStep_cases maxStepBytes a with ⟨hw | hw | ⟨len, hw⟩, -⟩ | ⟨u, hu, -, hw, -⟩
  · rw [hw]
    exact h
  · rw [hw]
    exact h.verifyStart
  · rw [hw]
    exact h.verifyStart
  · rw [hw]
    rcases hu with rfl | ⟨len, rfl⟩
    · exact h.verifyStart.verifyEnd
    · exact Stored.verifyEnd (w := w.verifyStart.verifyRead len) h.verifyStart

end IapWriter

namespace IngestAdapter

variable {x y z : IngestAdapter} {data d : List UInt8}

def content (x : IngestAdapter) : List UInt8 := x.writer.payload ++ x.pending

def count (x : IngestAdapter) : Nat := x.writer.receivedSize + x.pending.length

structure Grown (data : List UInt8) (x y : IngestAdapter) : Prop where
  content : y.content = x.content ++ data
  count : y.count = x.count + data.length

theorem Grown.trans (h : Grown data x y) (h' : Grown d y z) : Grown (data ++ d) x z := by
  constructor
  · rw [h'.content, h.content, List.append_assoc]
  · rw [h'.count, h.count, List.length_append, Nat.add_assoc]

theorem grown_pending (x : IngestAdapter) (data : List UInt8) :
    Grown data x { x with pending := x.pending ++ data } := by
  constructor
  · exact (List.append_assoc ..).symm
  · show x.writer.receivedSize + (x.pending ++ data).length = _
    rw [List.length_append, ← Nat.add_assoc]
    rfl

theorem writePending_grown {offset progSize : Nat} {a : WriteAnswer}
    (hfull : x.pending.length = progSize) (hok : (writePending x offset progSize a).2 = .ok) :
    Grown [] x (writePending x offset progSize a).1 ∧
      (writePending x offset progSize a).1.pending = [] := by
  unfold writePending at hok ⊢
  rw [if_pos hfull] at hok ⊢
  rcases x.writer.writeChunk_result offset x.pending a with ⟨hfail, -⟩ | ⟨-, hw⟩
  · exact absurd (mapWriterStatus_eq_ok.mp hok) hfail
  · dsimp only
    rw [hw]
    refine ⟨⟨?_, ?_⟩, rfl⟩
    · show (x.writer.payload ++ x.pending) ++ [] = (x.writer.payload ++ x.pending) ++ []
      rfl
    · show x.writer.receivedSize + x.pending.length + 0 = x.writer.receivedSize + x.pending.length + 0
      rfl

theorem main_grown {offset len : Nat} {a : WriteAnswer} (hnone : x.pending = []) (d : List UInt8)
    (hok : mapWriterStatus ((x.keepRemainder (d.drop len)).writer.writeChunk offset (d.take len) a).2
      = .ok) :
    Grown d x { x.keepRemainder (d.drop len) with
      writer := ((x.keepRemainder (d.drop len)).writer.writeChunk offset (d.take len) a).1 } := by
  have hkeep : x.keepRemainder (d.drop len) = { x with pending := d.drop len } := if_pos hnone
  rw [hkeep] at hok ⊢
  rcases x.writer.writeChunk_result offset (d.take len) a with ⟨hfail, -⟩ | ⟨-, hw⟩
  · exact absurd (mapWriterStatus_eq_ok.mp hok) hfail
  · dsimp only
    rw [hw]
    constructor
    · show x.writer.payload ++ d.take len ++ d.drop len = x.writer.payload ++ x.pending ++ d
      rw [hnone, List.append_nil, List.append_assoc, List.take_append_drop]
    · show x.writer.receivedSize + (d.take len).length + (d.drop len).length =
        x.writer.receivedSize + x.pending.length + d.length
      rw [hnone, List.length_nil, Nat.add_zero, Nat.add_assoc, ← List.length_append,
        List.take_append_drop]

theorem rest_grown {offset : Nat} {a : WriteAnswer} (hnone : x.pending = []) (d : List UInt8)
    (len : Nat)
    (hok : (if len = 0 then (x.keepRemainder (d.drop len), .ok)
      else ({ x.keepRemainder (d.drop len) with
          writer := ((x.keepRemainder (d.drop len)).writer.writeChunk offset (d.take len) a).1 },
        mapWriterStatus ((x.keepRemainder (d.drop len)).writer.writeChunk offset (d.take len) a).2)
      : IngestAdapter × IngestStatus).2 = .ok) :
    Grown d x (if len = 0 then (x.keepRemainder (d.drop len), .ok)
      else ({ x.keepRemainder (d.drop len) with
          writer := ((x.keepRemainder (d.drop len)).writer.writeChunk offset (d.take len) a).1 },
        mapWriterStatus ((x.keepRemainder (d.drop len)).writer.writeChunk offset (d.take len) a).2)
      : IngestAdapter × IngestStatus).1 := by
  split at hok
  · next hzero =>
    subst hzero
    have hkeep : x.keepRemainder (d.drop 0) = { x with pending := x.pending ++ d } :=
      (if_pos hnone).trans (by rw [hnone, List.drop_zero, List.nil_append])
    rw [if_pos rfl, hkeep]
    exact x.grown_pending d
  · next hzero =>
    rw [if_neg hzero]
    exact main_grown hnone d hok

def writeRefilled (x : IngestAdapter) (offset : Nat) (data : List UInt8) (a : ChunkAnswers) :
    IngestAdapter × IngestStatus :=
  let f := x.refill offset data x.writer.config.progSize
  let r := writePending { x with pending := f.pending } f.updatedOffset x.writer.config.progSize
    a.first
  if r.2 ≠ .ok then r
  else
    let len := alignedLen f.updatedLen x.writer.config.progSize
    let y := r.1.keepRemainder ((data.drop (f.freeLen + len)).take (f.updatedLen - len))
    if len = 0 then (y, .ok)
    else
      let w := y.writer.writeChunk (offset + f.freeLen) ((data.drop f.freeLen).take len) a.main
      ({ y with writer := w.1 }, mapWriterStatus w.2)

variable {offset : Nat} {a : ChunkAnswers}

theorem writeChunk_checked (hok : (x.writeChunk offset data a).2 = .ok) :
    offset = x.count ∧ x.pending.length ≤ x.writer.config.progSize ∧
      x.writeChunk offset data a = x.writeRefilled offset data a := by
  have hchecked : x.checkOffsetSequence offset = .ok → offset = x.count := by
    intro hsequence
    unfold checkOffsetSequence at hsequence
    split at hsequence
    · cases hsequence
    · next h => exact Decidable.not_not.mp h
  unfold writeChunk at hok ⊢
  dsimp only at hok ⊢
  split at hok
  · cases hok
  · next hne =>
    split at hok
    · cases hok
    · next hsmall =>
      split at hok
      · next hsequence => exact absurd hok hsequence
      · next hsequence =>
        split at hok
        · cases hok
        · next hroom =>
          rw [if_neg hne, if_neg hsmall, if_neg hsequence, if_neg hroom]
          exact ⟨hchecked (Decidable.not_not.mp hsequence), Nat.not_lt.mp hroom, rfl⟩

theorem writeRefilled_direct (hnone : x.pending = [])
    (hok : (x.writeRefilled offset data a).2 = .ok) :
    Grown data x (x.writeRefilled offset data a).1 := by
  have hrefill : x.refill offset data x.writer.config.progSize =
      { pending := [], freeLen := 0, updatedLen := data.length, updatedOffset := 0 } := by
    unfold refill
    rw [if_neg (by rw [hnone]; exact Nat.lt_irrefl 0)]
  have hkept : writePending { x with pending := [] } 0 x.writer.config.progSize a.first =
      (x, .ok) := by
    refine (if_neg (Nat.ne_of_lt x.writer.config.prog_pos)).trans ?_
    rw [← hnone]
  have hrest : ∀ k, (data.drop (0 + k)).take (data.length - k) = data.drop k :=
    take_drop_rest data 0
  unfold writeRefilled at hok ⊢
  simp only [hrefill, hkept, ne_eq, not_true_eq_false, if_false, hrest, List.drop_zero,
    Nat.add_zero] at hok ⊢
  exact rest_grown hnone data _ hok

theorem writeRefilled_wait (hpending : 0 < x.pending.length)
    (hfree : data.length < x.writer.config.progSize - x.pending.length) :
    Grown data x (x.writeRefilled offset data a).1 := by
  have hrefill : x.refill offset data x.writer.config.progSize = {
      pending := x.pending ++ data
      freeLen := x.writer.config.progSize - x.pending.length
      updatedLen := 0
      updatedOffset := offset - x.pending.length } := by
    unfold refill
    rw [if_pos hpending, if_neg (Nat.not_le.mpr hfree)]
  have hlen : ¬(x.pending ++ data).length = x.writer.config.progSize := by
    rw [List.length_append]
    omega
  have hzero : alignedLen 0 x.writer.config.progSize = 0 :=
    Nat.le_zero.mp (alignedLen_spec 0 x.writer.config.prog_pos).1
  have hfull : ¬x.pending ++ data = [] := fun hnil =>
    Nat.ne_of_gt hpending (congrArg List.length (List.append_eq_nil_iff.mp hnil).1)
  unfold writeRefilled
  simp only [hrefill, writePending, if_neg hlen, ne_eq, not_true_eq_false, if_false, hzero, if_true,
    keepRemainder, if_neg hfull]
  exact x.grown_pending data

theorem writeRefilled_fill (hpending : 0 < x.pending.length)
    (hroom : x.pending.length ≤ x.writer.config.progSize)
    (hfree : x.writer.config.progSize - x.pending.length ≤ data.length)
    (hok : (x.writeRefilled offset data a).2 = .ok) :
    Grown data x (x.writeRefilled offset data a).1 := by
  have hrefill : x.refill offset data x.writer.config.progSize = {
      pending := x.pending ++ data.take (x.writer.config.progSize - x.pending.length)
      freeLen := x.writer.config.progSize - x.pending.length
      updatedLen := data.length - (x.writer.config.progSize - x.pending.length)
      updatedOffset := offset - x.pending.length } := by
    unfold refill
    rw [if_pos hpending, if_pos hfree]
  unfold writeRefilled at hok ⊢
  simp only [hrefill, take_drop_rest] at hok ⊢
  generalize hn : x.writer.config.progSize - x.pending.length = n at hfree hok ⊢
  have hfull : (x.pending ++ data.take n).length = x.writer.config.progSize := by
    rw [List.length_append, List.length_take_of_le hfree, ← hn, Nat.add_sub_of_le hroom]
  have hwaiting := x.grown_pending (data.take n)
  generalize alignedLen (data.length - n) x.writer.config.progSize = len at hok ⊢
  split at hok
  · next hfail => exact absurd hok hfail
  · next hsent =>
    rw [if_neg hsent]
    obtain ⟨hsent, hnone⟩ := writePending_grown hfull (Decidable.not_not.mp hsent)
    have hrest := (hwaiting.trans hsent).trans (rest_grown hnone (data.drop n) len hok)
    rwa [List.append_nil, List.take_append_drop] at hrest

theorem writeChunk_grown (hok : (x.writeChunk offset data a).2 = .ok) :
    offset = x.count ∧ Grown data x (x.writeChunk offset data a).1 := by
  obtain ⟨hoffset, hroom, hchunk⟩ := writeChunk_checked hok
  rw [hchunk] at hok ⊢
  refine ⟨hoffset, ?_⟩
  rcases Nat.eq_zero_or_pos x.pending.length with hnone | hpending
  · exact writeRefilled_direct (List.eq_nil_of_length_eq_zero hnone) hok
  · rcases Nat.lt_or_ge data.length (x.writer.config.progSize - x.pending.length) with hlt | hfree
    · exact writeRefilled_wait hpending hlt
    · exact writeRefilled_fill hpending hroom hfree hok

end IngestAdapter

namespace PipelineContext

variable {x : IngestAdapter} {c : PipelineContext} {data : List UInt8} {n : Nat}

theorem push_grown {a : ChunkAnswers} (hok : (push x c data a).2.2 = .ok) :
    c.receivedSize = x.count ∧ x.Grown data (push x c data a).1 ∧
      (push x c data a).2.1 = { c with receivedSize := c.receivedSize + data.length } := by
  unfold push at hok ⊢
  split at hok
  · cases hok
  · next hactive =>
    rw [if_neg hactive]
    split at hok
    · cases hok
    · next hfit =>
      rw [if_neg hfit]
      dsimp only at hok ⊢
      split at hok
      · next hfail => exact absurd hok hfail
      · next hchunk =>
        rw [if_neg hchunk]
        obtain ⟨hcount, hgrown⟩ := IngestAdapter.writeChunk_grown (Decidable.not_not.mp hchunk)
        exact ⟨hcount, hgrown, rfl⟩

theorem finish_content (hok : (finish x c).2.2 = .ok) :
    x.count = x.writer.expectedSize ∧ (finish x c).1.writer.payload = x.content := by
  unfold finish at hok ⊢
  split at hok
  · cases hok
  · next hactive =>
    rw [if_neg hactive]
    split at hok
    · cases hok
    · next hwhole =>
      rw [if_neg hwhole]
      dsimp only at hok ⊢
      unfold IngestAdapter.finalize at hok ⊢
      split at hok
      · cases hok
      · next hpending =>
        rw [if_neg hpending]
        have hnone := Decidable.not_not.mp hpending
        rcases x.writer.finalize_cases with ⟨hfail, -⟩ | ⟨-, -, hreceived, hw⟩
        · exact absurd (mapWriterStatus_eq_ok.mp hok) hfail
        · dsimp only
          rw [hw, IngestAdapter.count, IngestAdapter.content, hnone, hreceived, List.append_nil]
          exact ⟨rfl, rfl⟩

structure Fresh (x : IngestAdapter) (c : PipelineContext) (n : Nat) : Prop where
  active : c.active = true
  received : c.receivedSize = 0
  expected : x.writer.expectedSize = n
  count : x.count = 0
  content : x.content = []

theorem begin_fresh {a : EraseAnswer} {registered : Bool}
    (hok : (begin x registered c n a).2.2 = .ok) :
    Fresh (begin x registered c n a).1 (begin x registered c n a).2.1 n ∧ n < 0x100000000 ∧
      x.writer.active = false := by
  unfold begin at hok ⊢
  split at hok
  · cases hok
  · next hpos =>
    rw [if_neg hpos]
    split at hok
    · cases hok
    · next hregistered =>
      rw [if_neg hregistered]
      dsimp only at hok ⊢
      split at hok
      · next hfail => exact absurd hok hfail
      · next hadapter =>
        rw [if_neg hadapter]
        have hwriter : (x.writer.begin n a).2 = .ok :=
          mapWriterStatus_eq_ok.mp (Decidable.not_not.mp hadapter)
        have hidle : x.writer.active = false := by
          rcases x.writer.begin_cases n a with ⟨hfail, -⟩ | ⟨-, hidle, -⟩
          · exact absurd hwriter hfail
          · exact hidle
        obtain ⟨-, slot, hstarted⟩ := IapWriter.begin_of_ok hwriter
        have hlt : n < 0x100000000 :=
          Nat.lt_of_le_of_lt (IapWriter.begin_fits hwriter) x.writer.config.slot_lt
        have hbegun : (x.begin n a).1 =
            { writer := { x.writer with slot := slot }.started n, pending := [] } :=
          congrArg (fun w => IngestAdapter.mk w []) hstarted
        rw [hbegun]
        exact ⟨⟨rfl, rfl, rfl, rfl, rfl⟩, hlt, hidle⟩

theorem begin_failed {a : EraseAnswer} {registered : Bool}
    (hfail : (begin x registered reset n a).2.2 ≠ .ok) :
    (begin x registered reset n a).2.1 = reset := by
  unfold begin at hfail ⊢
  split
  · rfl
  · next hpos =>
    rw [if_neg hpos] at hfail
    split
    · rfl
    · next hregistered =>
      rw [if_neg hregistered] at hfail
      dsimp only at hfail ⊢
      split
      · rfl
      · next hok =>
        rw [if_neg hok] at hfail
        exact absurd rfl hfail

theorem begin_busy {a : EraseAnswer} (registered : Bool) (hbusy : x.writer.active = true) :
    (begin x registered c n a).1.writer = x.writer ∧
      ((begin x registered c n a).1.pending = x.pending ∨
        (begin x registered c n a).1.pending = []) := by
  have hrefused : x.begin n a = ({ writer := x.writer, pending := [] }, .state) := by
    unfold IngestAdapter.begin
    rw [show x.writer.begin n a = (x.writer, .state) from if_pos hbusy]
    rfl
  unfold begin
  split
  · exact ⟨rfl, .inl rfl⟩
  · split
    · exact ⟨rfl, .inl rfl⟩
    · rw [hrefused]
      exact ⟨rfl, .inr rfl⟩

end PipelineContext

namespace IapWriter

variable {w : IapWriter}

theorem verifyStep_untouched (maxStepBytes : Nat) (a : StorageStatus)
    (h : w.verifyActive = true → w.Untouched w.verifyOffset) :
    (w.verifyStep maxStepBytes a).1.verifyActive = true →
      (w.verifyStep maxStepBytes a).1.Untouched (w.verifyStep maxStepBytes a).1.verifyOffset := by
  have hend : ∀ u : IapWriter, u.Untouched u.verifyOffset →
      u.verifyEnd.1.Untouched u.verifyEnd.1.verifyOffset := by
    intro u hu
    unfold verifyEnd
    split
    · exact hu
    · exact hu
  have hstart := verifyStart_untouched h
  rcases w.verifyStep_cases maxStepBytes a with ⟨hw | hw | ⟨len, hw⟩, -⟩ | ⟨u, hu, -, hw, -⟩
  · rw [hw]
    exact h
  · rw [hw]
    exact fun _ => hstart
  · rw [hw]
    exact fun _ => verifyRead_untouched hstart len
  · rw [hw]
    rcases hu with rfl | ⟨len, rfl⟩
    · exact fun _ => hend _ hstart
    · exact fun _ => hend _ (verifyRead_untouched hstart len)

end IapWriter

namespace IapState

variable {s : IapState}

/-- A verification was asked for and has not gone wrong. -/
def Settled (s : IapState) : Prop :=
  s.verify.state = .pending ∨ s.verify.state = .verifying ∨ s.verify.state = .verified

/-- The state while verifications are asked for only by the end of an upload. -/
structure Intact (s : IapState) : Prop where
  inv : s.Inv
  whole : s.Settled → s.writer.finalized = true
  reading : s.Settled → s.writer.verifyActive = true → s.writer.Untouched s.writer.verifyOffset
  stored : s.writer.active = true ∨ s.Settled → s.writer.Stored

/-- An erase that fails leaves the slot as it was. -/
def CleanErase (a : EraseAnswer) : Prop := a.status ≠ .ok → ∀ i, a.erased i = false

theorem not_settled_of_idle (h : s.verify.state = .idle) : ¬s.Settled := by
  rintro (hs | hs | hs)
  · rw [h] at hs
    cases hs
  · rw [h] at hs
    cases hs
  · rw [h] at hs
    cases hs

theorem not_settled_of_error (h : s.verify.state = .error) : ¬s.Settled := by
  rintro (hs | hs | hs)
  · rw [h] at hs
    cases hs
  · rw [h] at hs
    cases hs
  · rw [h] at hs
    cases hs

theorem Intact.not_settled (h : s.Intact) (hw : s.writer.active = true) : ¬s.Settled := by
  intro hs
  exact absurd (hw.symm.trans (h.inv.sound.whole (h.whole hs)).1) nofun

theorem start_intact (config : IapWriterConfig) (slot : Slot) : (start config slot).Intact := by
  refine ⟨start_inv config slot, fun hs => absurd hs (not_settled_of_idle rfl),
    fun hs => absurd hs (not_settled_of_idle rfl), ?_⟩
  rintro (hw | hs)
  · cases hw
  · exact absurd hs (not_settled_of_idle rfl)

theorem Intact.verified (h : s.Intact) (hv : s.isVerified = true) :
    s.uploaded = some s.writer.payload ∧
      s.writer.slot.slice 0 s.writer.payload.length = s.writer.payload ∧
      s.writer.Untouched s.writer.payload.length := by
  have hstate := of_decide_eq_true hv
  obtain ⟨hfin, -, -, huntouched⟩ := h.inv.verified hstate
  have hlen := (h.inv.sound.hash (.inr hfin)).2
  have hstored := h.stored (.inr (.inr (.inr hstate)))
  refine ⟨h.inv.uploaded hfin, hlen ▸ hstored, ?_⟩
  rw [← hlen, (h.inv.sound.whole hfin).2]
  exact huntouched

theorem Intact.verifyReset (h : s.Intact) : s.verifyReset.Intact := by
  refine ⟨h.inv.verifyReset, fun hs => absurd hs (not_settled_of_idle rfl),
    fun hs => absurd hs (not_settled_of_idle rfl), ?_⟩
  rintro (hw | hs)
  · exact h.stored (.inl hw)
  · exact absurd hs (not_settled_of_idle rfl)

theorem Intact.postBegin (h : s.Intact) (c contentSize : Nat) (a : EraseAnswer) :
    (s.postBegin c contentSize a).Intact := by
  have hidle : ¬(s.postBegin c contentSize a).Settled := not_settled_of_idle rfl
  refine ⟨h.inv.postBegin c contentSize a, fun hs => absurd hs hidle, fun hs => absurd hs hidle, ?_⟩
  rintro (hw | hs)
  · have hstored : s.writer.active = true → s.writer.Stored := fun hw => h.stored (.inl hw)
    unfold IapState.postBegin at hw ⊢
    change (PipelineContext.begin ..).1.writer.active = true at hw
    change (PipelineContext.begin ..).1.writer.Stored
    rcases PipelineContext.begin_cases s.adapter s.registered contentSize a with
      ⟨-, hsame | ⟨-, hbegun⟩⟩ | ⟨-, -, hbegun⟩
    · rw [hsame] at hw ⊢
      exact hstored hw
    · rw [hbegun] at hw ⊢
      exact IapWriter.begin_stored hstored hw
    · rw [hbegun] at hw ⊢
      exact IapWriter.begin_stored hstored hw
  · exact absurd hs hidle

theorem Intact.push (h : s.Intact) (c : Nat) (data : List UInt8) (a : ChunkAnswers) :
    (s.push c data a).Intact := by
  have hinv := h.inv.push c data a
  let P (w : IapWriter) := (s.writer.Stored → w.Stored) ∧ (s.writer.active = false → w = s.writer) ∧
    w.active = s.writer.active
  have hP : P (PipelineContext.push s.adapter (s.pipelines c) data a).1.writer := by
    refine PipelineContext.push_writer (P := P) ⟨id, fun _ => rfl, rfl⟩ ?_ _ _ _
    rintro w offset data a ⟨hs, hw, ha⟩
    refine ⟨fun h => (hs h).writeChunk .., ?_, (w.writeChunk_active ..).trans ha⟩
    intro hidle
    exact (IapWriter.writeChunk_of_inactive (ha.trans hidle) ..).trans (hw hidle)
  obtain ⟨hstored, hsame, hactive⟩ := hP
  have hwriter : s.Settled → (s.push c data a).writer = s.writer := fun hs =>
    hsame (h.inv.sound.whole (h.whole hs)).1
  refine ⟨hinv, ?_, ?_, ?_⟩
  · intro hs
    rw [hwriter hs]
    exact h.whole hs
  · intro hs
    rw [hwriter hs]
    exact h.reading hs
  · rintro (hw | hs)
    · exact hstored (h.stored (.inl (hactive.symm.trans hw)))
    · exact hstored (h.stored (.inr hs))

theorem Intact.closed {t : IapState} (h : t.Inv) (hsettled : ¬t.Settled)
    (hstored : t.writer.Stored) : t.Intact :=
  ⟨h, fun hs => absurd hs hsettled, fun hs => absurd hs hsettled, fun _ => hstored⟩

theorem Intact.postFinish (h : s.Intact) (c : Nat) : (s.postFinish c).Intact := by
  have hinv := h.inv.postFinish c
  unfold IapState.postFinish at hinv ⊢
  rcases PipelineContext.finish_cases s.adapter (s.pipelines c) with
    ⟨-, hr⟩ | ⟨hactive, -, hw⟩
  · rw [hr] at hinv ⊢
    show (s.setPipeline c (s.pipelines c)).Intact
    rw [setPipeline_eq_self]
    exact h
  · have hopen := h.inv.solo.writer c hactive
    have hstored := h.stored (.inl hopen)
    have hsettled := h.not_settled hopen
    dsimp only at hinv ⊢
    generalize PipelineContext.finish s.adapter (s.pipelines c) = r at hw hinv ⊢
    rcases hw with ⟨hfail, hw⟩ | ⟨hfail, hw⟩ | ⟨hok, hfin, hw⟩
    · rw [if_neg hfail] at hinv ⊢
      refine .closed hinv hsettled ?_
      change r.1.writer.Stored
      rw [hw]
      exact hstored
    · rw [if_neg hfail] at hinv ⊢
      refine .closed hinv hsettled ?_
      change r.1.writer.Stored
      rw [hw]
      exact IapWriter.abort_stored _
    · rw [if_pos hok] at hinv ⊢
      have hfinal : r.1.writer.finalized = true ∧ r.1.writer.verifyActive = false := by
        rcases s.writer.finalize_cases with ⟨hfail, -⟩ | ⟨-, -, -, hf⟩
        · exact absurd hfin hfail
        · rw [hw, hf]
          exact ⟨rfl, rfl⟩
      have hwriter : ∀ t : IapState, t.verifyRequest.writer = t.writer := by
        intro t
        unfold IapState.verifyRequest
        split
        · rfl
        · rfl
      refine ⟨hinv, fun _ => ?_, fun _ hreading => ?_, fun _ => ?_⟩
      · rw [hwriter]
        exact hfinal.1
      · rw [hwriter] at hreading
        exact absurd (hfinal.2.symm.trans hreading) nofun
      · rw [hwriter]
        show r.1.writer.Stored
        rw [hw]
        exact hstored.finalize

theorem Intact.abort (h : s.Intact) (c : Nat) : (s.abort c).Intact := by
  have hinv := h.inv.abort c
  unfold IapState.abort at hinv ⊢
  rcases PipelineContext.abort_cases s.adapter (s.pipelines c) with ⟨-, hr⟩ | ⟨hactive, -, hw⟩
  · rw [hr] at hinv ⊢
    show (s.setPipeline c (s.pipelines c)).Intact
    rw [setPipeline_eq_self]
    exact h
  · have hsettled := h.not_settled (h.inv.solo.writer c hactive)
    refine .closed hinv hsettled ?_
    change (PipelineContext.abort ..).1.writer.Stored
    rw [hw]
    exact IapWriter.abort_stored _

theorem Intact.resetPipeline (h : s.Intact) (c : Nat) : (s.setPipeline c .reset).Intact :=
  ⟨⟨h.inv.sound, h.inv.uploaded, h.inv.verified, h.inv.solo.setPipeline rfl id nofun⟩, h.whole,
    h.reading, h.stored⟩

theorem Intact.prepareUploadSlot {a : EraseAnswer} (h : s.Intact) (hclean : CleanErase a) :
    (s.prepareUploadSlot a).1.Intact := by
  have hinv := h.inv.prepareUploadSlot (a := a) fun _ hfail i _ => hclean hfail i
  unfold IapState.prepareUploadSlot at hinv ⊢
  split
  · exact h
  · next hidle =>
    rw [if_neg hidle] at hinv
    dsimp only at hinv ⊢
    split
    · next hfail =>
      rw [if_pos hfail] at hinv
      have hsame : s.writer.slot.erase s.writer.config.slotSize a = s.writer.slot := by
        simp [Slot.erase, hfail, hclean hfail]
      have hwriter : s.setWriter (s.writer.eraseSlot s.writer.config.slotSize a) = s := by
        unfold IapState.setWriter IapWriter.eraseSlot
        rw [hsame]
      rw [hwriter]
      exact h
    · next hok =>
      rw [if_neg hok] at hinv
      have hsettled : ∀ t : IapState, ¬t.verifyReset.Settled := fun t => not_settled_of_idle rfl
      refine ⟨hinv, fun hs => absurd hs (hsettled _), fun hs => absurd hs (hsettled _), ?_⟩
      rintro (hw | hs)
      · exact absurd hw hidle
      · exact absurd hs (hsettled _)

theorem Intact.verifyPollStep {a : StorageStatus} (h : s.Intact) (hs : s.Settled) :
    (s.verifyPollStep a).Intact := by
  have hinv := h.inv.verifyPollStep a (h.reading hs)
  have hstored := (h.stored (.inr hs)).verifyStep iapVerifyStepBytes a
  have hreading := IapWriter.verifyStep_untouched iapVerifyStepBytes a (h.reading hs)
  have hfinalized := (s.writer.verifyStep_same iapVerifyStepBytes a).finalized.trans (h.whole hs)
  unfold IapState.verifyPollStep at hinv ⊢
  dsimp only at hinv ⊢
  split
  · next hfail =>
    rw [if_pos hfail] at hinv
    exact .closed hinv (not_settled_of_error rfl) hstored
  · next hok =>
    rw [if_neg hok] at hinv
    exact ⟨hinv, fun _ => hfinalized, fun _ => hreading, fun _ => hstored⟩

theorem Intact.verifyPoll (h : s.Intact) (a : StorageStatus) : (s.verifyPoll a).Intact := by
  unfold IapState.verifyPoll
  split
  · next hpending =>
    split
    · next hopen => exact absurd (hopen.symm.trans (h.whole (.inl hpending))) nofun
    · exact h.verifyPollStep (.inl hpending)
  · next hverifying => exact h.verifyPollStep (.inr (.inl hverifying))
  · exact h

end IapState

end CanSniffer.Iap
