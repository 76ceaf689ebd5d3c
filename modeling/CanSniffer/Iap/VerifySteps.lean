import CanSniffer.Iap.IapWriterLaws
import CanSniffer.Lib.Transition

namespace CanSniffer.Iap

open Lib

/-- The calls that a writer gets; the first one is `Iap_PrepareUploadSlot`. -/
inductive IapWriterCall
  | prepareSlot (a : EraseAnswer)
  | begin (imageSize : Nat) (a : EraseAnswer)
  | writeChunk (offset : Nat) (data : List UInt8) (a : WriteAnswer)
  | finalize
  | verifyStep (maxStepBytes : Nat) (a : StorageStatus)
  | abort

structure VerifyCall where
  maxStepBytes : Nat
  read : StorageStatus
  deriving DecidableEq, Repr

namespace IapWriter

def prepareSlot (w : IapWriter) (a : EraseAnswer) : IapWriter :=
  if w.active then w
  else
    let u := w.eraseSlot w.config.slotSize a
    if a.status ≠ .ok then u else { u with slotPrepared := true }

def step : Step IapWriter IapWriterCall
  | w, .prepareSlot a => some (w.prepareSlot a)
  | w, .begin imageSize a => some (w.begin imageSize a).1
  | w, .writeChunk offset data a => some (w.writeChunk offset data a).1
  | w, .finalize => some w.finalize.1
  | w, .verifyStep maxStepBytes a => some (w.verifyStep maxStepBytes a).1
  | w, .abort => some w.abort.1

def verifyCall (w : IapWriter) (c : VerifyCall) : IapWriter × IapWriterStatus × Bool :=
  w.verifyStep c.maxStepBytes c.read

def verifyCalls (w : IapWriter) (calls : List VerifyCall) : IapWriter :=
  calls.foldl (fun w c => (w.verifyCall c).1) w

def verifyLoop (reads : Nat → StorageStatus) :
    Nat → Nat → IapWriter → Option (IapWriter × IapWriterStatus)
  | 0, _, _ => none
  | fuel + 1, i, w =>
    let r := w.verifyStep verifyBufSize (reads i)
    if r.2.1 = .ok ∧ r.2.2 = false then verifyLoop reads fuel (i + 1) r.1 else some (r.1, r.2.1)

def finalizeAndVerify (w : IapWriter) (reads : Nat → StorageStatus) (fuel : Nat) :
    Option (IapWriter × IapWriterStatus) :=
  let r := w.finalize
  if r.2 ≠ .ok then some r else verifyLoop reads fuel 0 r.1

def processed (w : IapWriter) : Nat := w.verifyStart.verifyOffset

variable {w u : IapWriter} {c : IapWriterCall} {n : Nat} {a : StorageStatus}

theorem processed_of_idle (h : w.verifyActive = false) : w.processed = 0 := by
  unfold processed verifyStart
  rw [h, if_neg nofun]

theorem processed_of_active (h : w.verifyActive = true) : w.processed = w.verifyOffset := by
  unfold processed verifyStart
  rw [if_pos h]

@[simp] theorem verifyStart_active (w : IapWriter) : w.verifyStart.verifyActive = true := by
  unfold verifyStart
  split
  · next h => exact h
  · rfl

theorem verifyStart_keeps (w : IapWriter) :
    w.verifyStart.active = w.active ∧ w.verifyStart.finalized = w.finalized ∧
      w.verifyStart.expectedSize = w.expectedSize ∧ w.verifyStart.payloadHash = w.payloadHash ∧
      w.verifyStart.slot = w.slot := by
  unfold verifyStart
  split
  · exact ⟨rfl, rfl, rfl, rfl, rfl⟩
  · exact ⟨rfl, rfl, rfl, rfl, rfl⟩

theorem verifyEnd_offset (w : IapWriter) : w.verifyEnd.1.verifyOffset = w.verifyOffset := by
  unfold verifyEnd
  split
  · rfl
  · rfl

theorem verifyEnd_status (w : IapWriter) :
    w.verifyEnd.2 = if w.verifyHash = w.payloadHash then .ok else .verify := by
  unfold verifyEnd
  by_cases h : w.verifyHash = w.payloadHash
  · rw [if_neg (not_not_intro h), if_pos h]
  · rw [if_pos h, if_neg h]

def Bounded (w : IapWriter) : Prop := w.processed ≤ w.expectedSize

theorem verifyStep_spec (hclosed : w.active = false) (hfin : w.finalized = true) (hn : 0 < n)
    (hbound : w.Bounded) :
    w.processed = w.expectedSize ∧
        w.verifyStep n a = (w.verifyStart.verifyEnd.1, w.verifyStart.verifyEnd.2, true) ∨
      w.processed < w.expectedSize ∧ a ≠ .ok ∧
        w.verifyStep n a = (w.verifyStart, mapStorageError a, false) ∨
      a = .ok ∧ ∃ len, 0 < len ∧ w.processed + len ≤ w.expectedSize ∧
        w.verifyStep n a =
          if w.processed + len = w.expectedSize then
            ((w.verifyStart.verifyRead len).verifyEnd.1, (w.verifyStart.verifyRead len).verifyEnd.2,
              true)
          else (w.verifyStart.verifyRead len, .ok, false) := by
  have hsize := w.verifyStart_keeps.2.2.1
  unfold Bounded processed at *
  unfold verifyStep
  rw [if_neg (Nat.ne_of_gt hn), if_neg (by simp [hclosed, hfin])]
  dsimp only
  rw [hsize, if_neg (Nat.not_lt.mpr hbound)]
  by_cases hend : w.verifyStart.verifyOffset = w.expectedSize
  · rw [if_pos hend]
    exact .inl ⟨hend, rfl⟩
  · have hlt := Nat.lt_of_le_of_ne hbound hend
    rw [if_neg hend]
    by_cases ha : a = .ok
    · rw [if_neg (not_not_intro ha)]
      refine .inr (.inr ⟨ha, min (min n verifyBufSize) (w.expectedSize - w.verifyStart.verifyOffset),
        ?_, ?_, ?_⟩)
      · simp only [verifyBufSize]
        omega
      · omega
      · show (if _ = w.verifyStart.expectedSize then _ else _) = _
        rw [hsize]
        rfl
    · rw [if_pos ha]
      exact .inr (.inl ⟨hlt, ha, rfl⟩)

theorem bounded_iff : w.Bounded ↔ (w.verifyActive = true → w.verifyOffset ≤ w.expectedSize) := by
  unfold Bounded
  cases hactive : w.verifyActive with
  | false => simp [processed_of_idle hactive]
  | true => simp [processed_of_active hactive]

theorem bounded_of_idle (h : w.verifyActive = false) : w.Bounded :=
  bounded_iff.mpr fun hactive => absurd (h.symm.trans hactive) nofun

theorem Bounded.congr (h : w.Bounded) (hactive : u.verifyActive = w.verifyActive)
    (hoffset : u.verifyOffset = w.verifyOffset) (hsize : u.expectedSize = w.expectedSize) :
    u.Bounded := by
  rw [bounded_iff, hactive, hoffset, hsize]
  exact bounded_iff.mp h

theorem verifyEnd_bounded (h : w.verifyOffset = w.expectedSize) : w.verifyEnd.1.Bounded := by
  unfold verifyEnd
  split
  · exact bounded_iff.mpr fun _ => Nat.le_of_eq h
  · exact bounded_of_idle rfl

theorem verifyStart_bounded (h : w.Bounded) : w.verifyStart.Bounded := by
  unfold Bounded at *
  rw [processed_of_active (verifyStart_active w), w.verifyStart_keeps.2.2.1]
  exact h

theorem verifyRead_processed (h : w.verifyActive = true) (len : Nat) :
    (w.verifyRead len).processed = w.verifyOffset + len :=
  processed_of_active h

theorem verifyStep_bounded (h : w.Bounded) (n : Nat) (a : StorageStatus) :
    (w.verifyStep n a).1.Bounded := by
  by_cases hopen : n = 0 ∨ w.active = true ∨ w.finalized = false
  · have hsame : (w.verifyStep n a).1 = w := by
      unfold verifyStep
      split
      · rfl
      · next hn => rw [if_pos (hopen.resolve_left hn)]
    rw [hsame]
    exact h
  · simp only [not_or, Bool.not_eq_true, Bool.not_eq_false] at hopen
    have hsize := w.verifyStart_keeps.2.2.1
    rcases verifyStep_spec hopen.2.1 hopen.2.2 (Nat.pos_of_ne_zero hopen.1) h with
      ⟨hend, hr⟩ | ⟨-, -, hr⟩ | ⟨-, len, -, hle, hr⟩
    · rw [hr]
      exact verifyEnd_bounded (hend.trans hsize.symm)
    · rw [hr]
      exact verifyStart_bounded h
    · rw [hr]
      split
      · next hend => exact verifyEnd_bounded (hend.trans hsize.symm)
      · show (w.verifyStart.verifyRead len).processed ≤ w.verifyStart.expectedSize
        rw [verifyRead_processed (verifyStart_active w), hsize]
        exact hle

theorem begin_bounded (h : w.Bounded) (imageSize : Nat) (a : EraseAnswer) :
    (w.begin imageSize a).1.Bounded := by
  rcases w.begin_cases imageSize a with ⟨-, hw | ⟨len, hw⟩⟩ | ⟨-, -, hw | ⟨len, hw⟩⟩
  · rw [hw]
    exact h
  · rw [hw]
    exact h.congr rfl rfl rfl
  · rw [hw]
    exact bounded_of_idle rfl
  · rw [hw]
    exact bounded_of_idle rfl

theorem writeChunk_bounded (h : w.Bounded) (offset : Nat) (data : List UInt8) (a : WriteAnswer) :
    (w.writeChunk offset data a).1.Bounded := by
  rcases w.writeChunk_cases offset data a with ⟨-, hw⟩ | ⟨-, hw | hw⟩
  · rw [hw]
    exact h
  · rw [hw]
    exact h.congr rfl rfl rfl
  · rw [hw]
    exact h.congr rfl rfl rfl

theorem step_sound_bounded (h : w.Sound ∧ w.Bounded) (hu : step w c = some u) :
    u.Sound ∧ u.Bounded := by
  obtain ⟨hs, hb⟩ := h
  cases c with
  | prepareSlot a =>
    cases hu
    unfold prepareSlot
    split
    · exact ⟨hs, hb⟩
    · have he := hs.eraseSlot w.config.slotSize a
      dsimp only
      split
      · exact ⟨he, hb.congr rfl rfl rfl⟩
      · exact ⟨⟨he.hash, he.whole, he.read⟩, hb.congr rfl rfl rfl⟩
  | begin imageSize a =>
    cases hu
    exact ⟨hs.begin imageSize a, begin_bounded hb imageSize a⟩
  | writeChunk offset data a =>
    cases hu
    exact ⟨hs.writeChunk offset data a, writeChunk_bounded hb offset data a⟩
  | finalize =>
    cases hu
    refine ⟨hs.finalize, ?_⟩
    rcases w.finalize_cases with ⟨-, hw⟩ | ⟨-, -, -, hw⟩
    · rw [hw]
      exact hb
    · rw [hw]
      exact bounded_of_idle rfl
  | verifyStep n a =>
    cases hu
    exact ⟨hs.verifyStep n a, verifyStep_bounded hb n a⟩
  | abort =>
    cases hu
    exact ⟨.abort w, bounded_of_idle rfl⟩

theorem run_sound_bounded {config : IapWriterConfig} {slot : Slot} {cs : List IapWriterCall}
    (h : Step.run step (init config slot) cs = some w) : w.Sound ∧ w.Bounded :=
  Step.run_invariant (I := fun w => w.Sound ∧ w.Bounded) step_sound_bounded
    ⟨init_sound config slot, bounded_of_idle rfl⟩ h

/-- A verification that can go on: its hash is that of the bytes it has read. -/
structure Verifying (w : IapWriter) : Prop where
  closed : w.active = false
  finalized : w.finalized = true
  bounded : w.Bounded
  hash : w.verifyStart.verifyHash = hashBytes fnv1aOffsetBasis (w.slot.slice 0 w.processed)

theorem Sound.verifying (h : w.Sound) (hb : w.Bounded) (hfin : w.finalized = true)
    (hkept : w.verifyActive = true → w.Untouched w.verifyOffset) : w.Verifying := by
  refine ⟨(h.whole hfin).1, hfin, hb, ?_⟩
  have hread := h.verifyStart.read (w.verifyStart_keeps.2.1.trans hfin) (verifyStart_untouched hkept)
  rw [w.verifyStart_keeps.2.2.2.2] at hread
  exact hread

def verdict (w : IapWriter) : IapWriterStatus :=
  if hashBytes fnv1aOffsetBasis (w.slot.slice 0 w.expectedSize) = w.payloadHash then .ok else .verify

/-- The verification of one image, over the same bytes. -/
structure SameBytes (w u : IapWriter) : Prop where
  expectedSize : u.expectedSize = w.expectedSize
  payloadHash : u.payloadHash = w.payloadHash
  bytes : u.slot.bytes = w.slot.bytes

theorem SameBytes.slice (h : w.SameBytes u) (ofs len : Nat) :
    u.slot.slice ofs len = w.slot.slice ofs len := by
  unfold Slot.slice
  rw [h.bytes]

theorem SameBytes.verdict (h : w.SameBytes u) : u.verdict = w.verdict := by
  unfold IapWriter.verdict
  rw [h.slice, h.expectedSize, h.payloadHash]

theorem SameBytes.trans {v : IapWriter} (h : w.SameBytes u) (h' : u.SameBytes v) : w.SameBytes v :=
  ⟨h'.expectedSize.trans h.expectedSize, h'.payloadHash.trans h.payloadHash, h'.bytes.trans h.bytes⟩

theorem verifyStart_sameBytes (w : IapWriter) : w.SameBytes w.verifyStart := by
  obtain ⟨-, -, hsize, hhash, hslot⟩ := w.verifyStart_keeps
  exact ⟨hsize, hhash, congrArg Slot.bytes hslot⟩

theorem verifyEnd_verdict (h : w.SameBytes u) (hend : u.verifyOffset = w.expectedSize)
    (hhash : u.verifyHash = hashBytes fnv1aOffsetBasis (u.slot.slice 0 u.verifyOffset)) :
    u.verifyEnd.2 = w.verdict := by
  rw [verifyEnd_status, hhash, hend, ← h.verdict]
  unfold IapWriter.verdict
  rw [h.expectedSize]

structure Reported (w : IapWriter) (before : Nat) (r : IapWriter × IapWriterStatus × Bool) :
    Prop where
  kept : before ≤ r.1.verifyOffset
  grown : r.2.1 = .ok → before < w.expectedSize → before < r.1.verifyOffset
  ended : r.2.2 = true ↔ r.1.verifyOffset = w.expectedSize
  verdict : r.2.2 = true → r.2.1 = w.verdict

theorem mapStorageError_eq_ok {a : StorageStatus} : mapStorageError a = .ok ↔ a = .ok := by
  cases a with
  | ok => simp [mapStorageError]
  | param => simp [mapStorageError]
  | range => simp [mapStorageError]
  | align => simp [mapStorageError]
  | verify => simp [mapStorageError]
  | io => simp [mapStorageError]

theorem verifyStart_of_active (h : w.verifyActive = true) : w.verifyStart = w := if_pos h

theorem verifyRead_hash (hhash : w.verifyHash = hashBytes fnv1aOffsetBasis (w.slot.slice 0 w.verifyOffset))
    (len : Nat) :
    (w.verifyRead len).verifyHash =
      hashBytes fnv1aOffsetBasis ((w.verifyRead len).slot.slice 0 (w.verifyRead len).verifyOffset) := by
  calc
    hashBytes w.verifyHash (w.slot.slice w.verifyOffset len)
      = hashBytes fnv1aOffsetBasis (w.slot.slice 0 w.verifyOffset ++ w.slot.slice w.verifyOffset len) := by
        rw [hashBytes_append, hhash]
    _ = hashBytes fnv1aOffsetBasis (w.slot.slice 0 (w.verifyOffset + len)) := by
        rw [Slot.slice_add, Nat.zero_add]

theorem verifying_of_active (hclosed : w.active = false) (hfin : w.finalized = true)
    (hactive : w.verifyActive = true) (hle : w.verifyOffset ≤ w.expectedSize)
    (hhash : w.verifyHash = hashBytes fnv1aOffsetBasis (w.slot.slice 0 w.verifyOffset)) :
    w.Verifying := by
  refine ⟨hclosed, hfin, bounded_iff.mpr fun _ => hle, ?_⟩
  rw [verifyStart_of_active hactive, processed_of_active hactive]
  exact hhash

theorem Verifying.step (h : w.Verifying) (hn : 0 < n) (a : StorageStatus) :
    Reported w w.processed (w.verifyStep n a) ∧
      ((w.verifyStep n a).2.2 = false →
        (w.verifyStep n a).1.Verifying ∧ w.SameBytes (w.verifyStep n a).1 ∧
          (w.verifyStep n a).1.processed = (w.verifyStep n a).1.verifyOffset ∧
          (a = .ok → (w.verifyStep n a).2.1 = .ok)) := by
  have hsame := w.verifyStart_sameBytes
  have hactive := verifyStart_active w
  obtain ⟨hclosed, hfin, hsize, -, hslot⟩ := w.verifyStart_keeps
  have hhash : w.verifyStart.verifyHash =
      hashBytes fnv1aOffsetBasis (w.verifyStart.slot.slice 0 w.verifyStart.verifyOffset) := by
    rw [hslot]
    exact h.hash
  rcases verifyStep_spec (a := a) h.closed h.finalized hn h.bounded with
    ⟨hend, hr⟩ | ⟨hlt, ha, hr⟩ | ⟨-, len, hlen, hle, hr⟩
  · rw [hr]
    have hoffset : w.verifyStart.verifyEnd.1.verifyOffset = w.processed := verifyEnd_offset _
    refine ⟨⟨Nat.le_of_eq hoffset.symm, fun _ hlt => absurd hend (Nat.ne_of_lt hlt),
      ⟨fun _ => hoffset.trans hend, fun _ => rfl⟩, fun _ => ?_⟩, nofun⟩
    exact verifyEnd_verdict hsame hend hhash
  · rw [hr]
    refine ⟨⟨Nat.le_refl _, fun hok => absurd (mapStorageError_eq_ok.mp hok) ha,
      ⟨nofun, fun hend => absurd hend (Nat.ne_of_lt hlt)⟩, nofun⟩, fun _ =>
        ⟨?_, hsame, processed_of_active hactive, fun hok => absurd hok ha⟩⟩
    exact verifying_of_active (hclosed.trans h.closed) (hfin.trans h.finalized) hactive
      (hsize ▸ h.bounded) hhash
  · have hread := verifyRead_hash hhash len
    have hreadSame : w.SameBytes (w.verifyStart.verifyRead len) := hsame.trans ⟨rfl, rfl, rfl⟩
    have hoffset : (w.verifyStart.verifyRead len).verifyOffset = w.processed + len := rfl
    have hgrown : w.processed < w.processed + len := Nat.lt_add_of_pos_right hlen
    by_cases hend : w.processed + len = w.expectedSize
    · rw [hr, if_pos hend]
      have hlast : (w.verifyStart.verifyRead len).verifyEnd.1.verifyOffset = w.processed + len :=
        verifyEnd_offset _
      refine ⟨⟨hlast ▸ Nat.le_of_lt hgrown, fun _ _ => hlast ▸ hgrown,
        ⟨fun _ => hlast.trans hend, fun _ => rfl⟩, fun _ => ?_⟩, nofun⟩
      exact verifyEnd_verdict hreadSame (hoffset.trans hend) hread
    · rw [hr, if_neg hend]
      refine ⟨⟨Nat.le_of_lt hgrown, fun _ _ => hgrown, ⟨nofun, fun h => absurd h hend⟩, nofun⟩,
        fun _ => ⟨?_, hreadSame, processed_of_active hactive, fun _ => rfl⟩⟩
      exact verifying_of_active (hclosed.trans h.closed) (hfin.trans h.finalized) hactive
        (hsize ▸ hle) hread

theorem verifyLoop_verdict {reads : Nat → StorageStatus} (hreads : ∀ i, reads i = .ok) {fuel : Nat}
    (h : w.Verifying) (hfuel : w.expectedSize - w.processed < fuel) (i : Nat) :
    ∃ u, verifyLoop reads fuel i w = some (u, w.verdict) := by
  induction fuel generalizing w i with
  | zero => exact absurd hfuel (Nat.not_lt_zero _)
  | succ fuel ih =>
    obtain ⟨hreport, hnext⟩ := h.step (show 0 < verifyBufSize from Nat.succ_pos _) (reads i)
    unfold verifyLoop
    dsimp only
    cases hdone : (w.verifyStep verifyBufSize (reads i)).2.2 with
    | true =>
      rw [if_neg (fun hgo => nomatch hgo.2), hreport.verdict hdone]
      exact ⟨_, rfl⟩
    | false =>
      obtain ⟨hverifying, hsame, hprocessed, hok⟩ := hnext hdone
      have hok := hok (hreads i)
      have hbound := hverifying.bounded
      have hopen : ¬(w.verifyStep verifyBufSize (reads i)).1.verifyOffset = w.expectedSize := fun hend =>
        absurd (hdone.symm.trans (hreport.ended.mpr hend)) nofun
      have hkept := hreport.kept
      unfold Bounded at hbound
      rw [hprocessed, hsame.expectedSize] at hbound
      have hgrown := hreport.grown hok (by omega)
      rw [if_pos ⟨hok, rfl⟩, ← hsame.verdict]
      apply ih hverifying
      rw [hprocessed, hsame.expectedSize]
      omega

theorem Verifying.calls {calls : List VerifyCall} (h : w.Verifying)
    (hpos : ∀ d ∈ calls, 0 < d.maxStepBytes)
    (hopen : ∀ pre d post, calls = pre ++ d :: post → ((w.verifyCalls pre).verifyCall d).2.2 = false) :
    (w.verifyCalls calls).Verifying ∧ w.SameBytes (w.verifyCalls calls) := by
  induction calls generalizing w with
  | nil => exact ⟨h, rfl, rfl, rfl⟩
  | cons d calls ih =>
    obtain ⟨-, hnext⟩ := h.step (hpos d List.mem_cons_self) d.read
    obtain ⟨hverifying, hsame, -⟩ := hnext (hopen [] d calls rfl)
    obtain ⟨hlast, hsame'⟩ := ih hverifying (fun e he => hpos e (List.mem_cons_of_mem d he))
      fun pre e post hsplit => hopen (d :: pre) e post (congrArg (d :: ·) hsplit)
    exact ⟨hlast, hsame.trans hsame'⟩

def okReads (calls : List VerifyCall) : Nat := calls.countP fun c => c.read = .ok

theorem Verifying.step_ok (h : w.Verifying) (hn : 0 < n) (ha : a = .ok) :
    (w.verifyStep n a).2.1 = .ok ∨ (w.verifyStep n a).2.2 = true := by
  obtain ⟨-, hnext⟩ := h.step hn a
  cases hdone : (w.verifyStep n a).2.2 with
  | true => exact .inr rfl
  | false => exact .inl ((hnext hdone).2.2.2 ha)

theorem Verifying.advance (h : w.Verifying) (hn : 0 < n) (a : StorageStatus)
    (hdone : (w.verifyStep n a).2.2 = false) :
    (w.verifyStep n a).1.processed < w.expectedSize ∧
      w.processed + (if a = .ok then 1 else 0) ≤ (w.verifyStep n a).1.processed := by
  obtain ⟨hreport, hnext⟩ := h.step hn a
  obtain ⟨hverifying, hsame, hprocessed, hok⟩ := hnext hdone
  have hopen : (w.verifyStep n a).1.verifyOffset ≠ w.expectedSize := fun hend =>
    absurd (hdone.symm.trans (hreport.ended.mpr hend)) nofun
  have hbound := hverifying.bounded
  have hkept := hreport.kept
  unfold Bounded at hbound
  rw [hprocessed, hsame.expectedSize] at hbound
  rw [hprocessed]
  refine ⟨by omega, ?_⟩
  split
  · next ha => exact hreport.grown (hok ha) (by omega)
  · exact hkept

theorem Verifying.reaches {calls : List VerifyCall} (h : w.Verifying)
    (hpos : ∀ d ∈ calls, 0 < d.maxStepBytes) (hne : calls ≠ [])
    (henough : w.expectedSize ≤ w.processed + okReads calls) :
    ∃ pre d post, calls = pre ++ d :: post ∧ ((w.verifyCalls pre).verifyCall d).2.2 = true ∧
      ((w.verifyCalls pre).verifyCall d).2.1 = w.verdict := by
  induction calls generalizing w with
  | nil => exact absurd rfl hne
  | cons d calls ih =>
    have hd := hpos d List.mem_cons_self
    obtain ⟨hreport, hnext⟩ := h.step hd d.read
    cases hdone : (w.verifyStep d.maxStepBytes d.read).2.2 with
    | true => exact ⟨[], d, calls, rfl, hdone, hreport.verdict hdone⟩
    | false =>
      obtain ⟨hverifying, hsame, -⟩ := hnext hdone
      obtain ⟨hahead, hgrown⟩ := h.advance hd d.read hdone
      have hcount : okReads (d :: calls) = okReads calls + if d.read = .ok then 1 else 0 := by
        simp [okReads, List.countP_cons]
      rw [hcount] at henough
      have hmore : calls ≠ [] := by
        rintro rfl
        have hnone : okReads [] = 0 := rfl
        omega
      obtain ⟨pre, e, post, hsplit, hend, hverdict⟩ := ih hverifying
        (fun e he => hpos e (List.mem_cons_of_mem d he)) hmore
        (by rw [hsame.expectedSize]; omega)
      exact ⟨d :: pre, e, post, congrArg (d :: ·) hsplit, hend, hverdict.trans hsame.verdict⟩

theorem verdict_eq_ok_iff : w.verdict = .ok ↔
    hashBytes fnv1aOffsetBasis (w.slot.slice 0 w.expectedSize) = w.payloadHash := by
  unfold verdict
  split
  · next h => exact iff_of_true rfl h
  · next h => exact iff_of_false nofun h

/-- Every step of a verification goes on to the verdict that the slot deserves, which is the one of
a verification that is run through at once; a step whose read succeeds goes on or ends, and enough
of them come to the end. -/
theorem verifySteps_verdict {config : IapWriterConfig} {slot : Slot} {cs : List IapWriterCall}
    {calls : List VerifyCall} {d : VerifyCall}
    (hrun : Step.run step (init config slot) cs = some w) (hfin : w.finalized = true)
    (hkept : w.verifyActive = true → w.Untouched w.verifyOffset)
    (hpos : ∀ e ∈ calls, 0 < e.maxStepBytes) (hd : 0 < d.maxStepBytes)
    (hopen : ∀ pre e post, calls = pre ++ e :: post → ((w.verifyCalls pre).verifyCall e).2.2 = false) :
    Reported w (w.verifyCalls calls).processed ((w.verifyCalls calls).verifyCall d) ∧
      (d.read = .ok → ((w.verifyCalls calls).verifyCall d).2.1 = .ok ∨
        ((w.verifyCalls calls).verifyCall d).2.2 = true) ∧
      (∀ pre e, calls = pre ++ [e] →
        (w.verifyCalls calls).processed = ((w.verifyCalls pre).verifyCall e).1.verifyOffset) ∧
      (((w.verifyCalls calls).verifyCall d).2.2 = true →
        (((w.verifyCalls calls).verifyCall d).2.1 = .ok ↔
          hashBytes fnv1aOffsetBasis (w.slot.slice 0 w.expectedSize) = w.payloadHash) ∧
        ∀ (u : IapWriter) (reads : Nat → StorageStatus), u.finalize = (w, .ok) → (∀ i, reads i = .ok) →
          ∃ v, u.finalizeAndVerify reads (w.expectedSize + 1) =
            some (v, ((w.verifyCalls calls).verifyCall d).2.1)) ∧
      (∀ more : List VerifyCall, (∀ e ∈ more, 0 < e.maxStepBytes) → more ≠ [] →
        w.expectedSize ≤ w.processed + okReads more →
        ∃ pre e post, more = pre ++ e :: post ∧ ((w.verifyCalls pre).verifyCall e).2.2 = true ∧
          (((w.verifyCalls pre).verifyCall e).2.1 = .ok ↔
            hashBytes fnv1aOffsetBasis (w.slot.slice 0 w.expectedSize) = w.payloadHash)) ∧
      (w.slot.slice 0 w.expectedSize = w.payload →
        hashBytes fnv1aOffsetBasis (w.slot.slice 0 w.expectedSize) = w.payloadHash) ∧
      w.payloadHash = hashBytes fnv1aOffsetBasis w.payload ∧ w.payload.length = w.expectedSize := by
  obtain ⟨hsound, hbound⟩ := run_sound_bounded hrun
  have hstart := hsound.verifying hbound hfin hkept
  obtain ⟨hverifying, hsame⟩ := hstart.calls hpos hopen
  obtain ⟨hreport, -⟩ := hverifying.step hd d.read
  have hreport : Reported w (w.verifyCalls calls).processed ((w.verifyCalls calls).verifyCall d) := by
    refine ⟨hreport.kept, ?_, ?_, ?_⟩
    · rw [← hsame.expectedSize]
      exact hreport.grown
    · rw [← hsame.expectedSize]
      exact hreport.ended
    · rw [← hsame.verdict]
      exact hreport.verdict
  obtain ⟨hhash, hlen⟩ := hsound.hash (.inr hfin)
  refine ⟨hreport, hverifying.step_ok hd, ?_, fun hdone => ⟨?_, ?_⟩, ?_, fun hintact => ?_, hhash,
    hlen.symm.trans (hsound.whole hfin).2⟩
  · rintro pre e rfl
    obtain ⟨hbefore, -⟩ := hstart.calls (fun f hf => hpos f (List.mem_append_left [e] hf))
      fun p f q hsplit => hopen p f (q ++ [e]) (by rw [hsplit, List.append_assoc]; rfl)
    obtain ⟨-, hnext⟩ := hbefore.step (hpos e (List.mem_append_right pre List.mem_cons_self)) e.read
    have hlast : w.verifyCalls (pre ++ [e]) = ((w.verifyCalls pre).verifyCall e).1 := by
      unfold verifyCalls
      rw [List.foldl_append]
      rfl
    rw [hlast]
    exact (hnext (hopen pre e [] rfl)).2.2.1
  · rw [hreport.verdict hdone]
    exact verdict_eq_ok_iff
  · intro u reads hu hreads
    have hfuel : w.expectedSize - w.processed < w.expectedSize + 1 := by omega
    have hloop := verifyLoop_verdict hreads hstart hfuel 0
    unfold finalizeAndVerify
    simp only [hu, ne_eq, not_true_eq_false, if_false, hreport.verdict hdone]
    exact hloop
  · intro more hmore hne henough
    obtain ⟨pre, e, post, hsplit, hend, hverdict⟩ := hstart.reaches hmore hne henough
    refine ⟨pre, e, post, hsplit, hend, ?_⟩
    rw [hverdict]
    exact verdict_eq_ok_iff
  · rw [hintact, hhash]

def fourBytes : IapWriterConfig where
  slotSize := 4
  eraseSize := 4
  progSize := 4
  slot_lt := Nat.le_of_ble_eq_true rfl
  erase_pos := Nat.zero_lt_succ 3
  prog_pos := Nat.zero_lt_succ 3
  erase_dvd := rfl

def zeros : Slot where
  bytes := fun _ => 0
  touched := fun _ => false

def fourWritten : IapWriter :=
  (((init fourBytes zeros).begin 4 { status := .ok, erased := fun _ => true }).1.writeChunk 0
    [1, 2, 3, 4] { status := .ok, left := fun _ => none }).1.finalize.1

/-- Three bytes are read, then a read fails, then the last byte is read, and the slot verifies. -/
theorem verifySteps_verdict_retried :
    ((fourWritten.verifyCalls [⟨3, .ok⟩, ⟨3, .io⟩]).verifyCall ⟨300, .ok⟩).2 = (.ok, true) := by
  have hrun : Step.run step (init fourBytes zeros)
      [.begin 4 { status := .ok, erased := fun _ => true },
        .writeChunk 0 [1, 2, 3, 4] { status := .ok, left := fun _ => none }, .finalize] =
      some fourWritten := rfl
  have hopen : ∀ pre e post, [VerifyCall.mk 3 .ok, ⟨3, .io⟩] = pre ++ e :: post →
      ((fourWritten.verifyCalls pre).verifyCall e).2.2 = false := by
    intro pre e post hsplit
    cases pre with
    | nil =>
      cases hsplit
      decide +kernel
    | cons c pre =>
      cases pre with
      | nil =>
        cases hsplit
        decide +kernel
      | cons c' pre => simp at hsplit
  have hlast : 0 < (VerifyCall.mk 300 .ok).maxStepBytes := Nat.succ_pos 299
  have hdone : ((fourWritten.verifyCalls [⟨3, .ok⟩, ⟨3, .io⟩]).verifyCall ⟨300, .ok⟩).2.2 = true := by
    decide +kernel
  have hhash : hashBytes fnv1aOffsetBasis (fourWritten.slot.slice 0 fourWritten.expectedSize) =
      fourWritten.payloadHash := by decide +kernel
  obtain ⟨-, -, -, hend, -⟩ :=
    verifySteps_verdict hrun rfl nofun (by simp) hlast hopen
  exact Prod.ext ((hend hdone).1.mpr hhash) hdone

end IapWriter

end CanSniffer.Iap
