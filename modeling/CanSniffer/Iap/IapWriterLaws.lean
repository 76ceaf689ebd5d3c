import CanSniffer.Iap.IapWriter

namespace CanSniffer.Iap

namespace Slot

variable {s t : Slot} {ofs len n : Nat}

theorem slice_add (s : Slot) (ofs len n : Nat) :
    s.slice ofs (len + n) = s.slice ofs len ++ s.slice (ofs + len) n := by
  simp only [slice, ← List.map_append]
  rw [← List.range'_append_1]

theorem slice_congr (h : ∀ i, ofs ≤ i → i < ofs + len → t.bytes i = s.bytes i) :
    t.slice ofs len = s.slice ofs len := by
  apply List.map_congr_left
  intro i hi
  rw [List.mem_range'_1] at hi
  exact h i hi.1 hi.2

theorem erase_bytes_of_untouched {a : EraseAnswer} {i : Nat}
    (h : (s.erase len a).touched i = false) :
    (s.erase len a).bytes i = s.bytes i ∧ s.touched i = false := by
  simp only [erase, Bool.or_eq_false_iff, decide_eq_false_iff_not] at h ⊢
  exact ⟨if_neg h.2, h.1⟩

theorem erase_untouched_of_erased {a : EraseAnswer} {i : Nat} (hs : s.touched i = false)
    (hfail : a.status ≠ .ok) (hi : a.erased i = false) : (s.erase len a).touched i = false := by
  simp [erase, hs, hfail, hi]

theorem markRead_untouched_iff {i : Nat} :
    (s.markRead ofs len).touched i = false ↔ s.touched i = false ∨ ofs ≤ i ∧ i < ofs + len := by
  cases h : s.touched i with
  | false => simp [markRead, h]
  | true => simp [markRead, h]

end Slot

namespace IapWriter

variable {w : IapWriter}

/-- No byte that the verification has read was erased or written since. -/
def Untouched (w : IapWriter) (n : Nat) : Prop := ∀ i < n, w.slot.touched i = false

structure Sound (w : IapWriter) : Prop where
  hash : w.active = true ∨ w.finalized = true →
    w.payloadHash = hashBytes fnv1aOffsetBasis w.payload ∧ w.receivedSize = w.payload.length
  whole : w.finalized = true → w.active = false ∧ w.receivedSize = w.expectedSize
  read : w.finalized = true → w.Untouched w.verifyOffset →
    w.verifyHash = hashBytes fnv1aOffsetBasis (w.slot.slice 0 w.verifyOffset)

theorem init_sound (config : IapWriterConfig) (slot : Slot) : (init config slot).Sound := by
  refine ⟨?_, nofun, nofun⟩
  rintro (h | h)
  · cases h
  · cases h

theorem Sound.eraseSlot (h : w.Sound) (len : Nat) (a : EraseAnswer) : (w.eraseSlot len a).Sound := by
  refine ⟨h.hash, h.whole, ?_⟩
  intro hf hu
  have hkept : ∀ i < w.verifyOffset, (w.slot.erase len a).bytes i = w.slot.bytes i ∧
      w.slot.touched i = false := fun i hi => Slot.erase_bytes_of_untouched (hu i hi)
  have hread := h.read hf fun i hi => (hkept i hi).2
  have hslice : (w.slot.erase len a).slice 0 w.verifyOffset = w.slot.slice 0 w.verifyOffset := by
    apply Slot.slice_congr
    intro i _ hi
    exact (hkept i (Nat.zero_add w.verifyOffset ▸ hi)).1
  exact hread.trans (congrArg _ hslice.symm)

theorem started_sound (w : IapWriter) (imageSize : Nat) : (w.started imageSize).Sound := by
  refine ⟨?_, nofun, nofun⟩
  intro _
  exact ⟨rfl, rfl⟩

theorem begin_cases (w : IapWriter) (imageSize : Nat) (a : EraseAnswer) :
    (w.begin imageSize a).2 ≠ .ok ∧
        ((w.begin imageSize a).1 = w ∨ ∃ len, (w.begin imageSize a).1 = w.eraseSlot len a) ∨
      (w.begin imageSize a).2 = .ok ∧ w.active = false ∧
        ((w.begin imageSize a).1 = w.started imageSize ∨
          ∃ len, (w.begin imageSize a).1 = (w.eraseSlot len a).started imageSize) := by
  unfold begin
  split
  · exact .inl ⟨nofun, .inl rfl⟩
  · next hactive =>
    split
    · exact .inl ⟨nofun, .inl rfl⟩
    · split
      · exact .inl ⟨nofun, .inl rfl⟩
      · split
        · exact .inl ⟨nofun, .inl rfl⟩
        · next len _ =>
          split
          · exact .inl ⟨nofun, .inl rfl⟩
          · split
            · exact .inr ⟨rfl, Bool.eq_false_iff.mpr hactive, .inl rfl⟩
            · split
              · next hfail =>
                refine .inl ⟨?_, .inr ⟨len, rfl⟩⟩
                cases hs : a.status with
                | ok => exact absurd hs hfail
                | param => nofun
                | range => nofun
                | align => nofun
                | verify => nofun
                | io => nofun
              · exact .inr ⟨rfl, Bool.eq_false_iff.mpr hactive, .inr ⟨len, rfl⟩⟩

theorem Sound.begin (h : w.Sound) (imageSize : Nat) (a : EraseAnswer) :
    (w.begin imageSize a).1.Sound := by
  rcases w.begin_cases imageSize a with ⟨-, hw | ⟨len, hw⟩⟩ | ⟨-, -, hw | ⟨len, hw⟩⟩
  · rw [hw]
    exact h
  · rw [hw]
    exact h.eraseSlot len a
  · rw [hw]
    exact started_sound w imageSize
  · rw [hw]
    exact started_sound _ imageSize

theorem writeChunk_cases (w : IapWriter) (offset : Nat) (data : List UInt8) (a : WriteAnswer) :
    (w.writeChunk offset data a).2 ≠ .ok ∧ (w.writeChunk offset data a).1 = w ∨
      (w.active = true ∧ w.finalized = false) ∧
        ((w.writeChunk offset data a).1 = { w with slot := w.slot.write offset data a } ∨
          (w.writeChunk offset data a).1 = { w with
            slot := w.slot.write offset data a
            payloadHash := hashBytes w.payloadHash data
            receivedSize := w.receivedSize + data.length
            payload := w.payload ++ data }) := by
  unfold writeChunk
  split
  · exact .inl ⟨nofun, rfl⟩
  · split
    · exact .inl ⟨nofun, rfl⟩
    · next hopen =>
      have hopen : w.active = true ∧ w.finalized = false := by simpa using hopen
      split
      · exact .inl ⟨nofun, rfl⟩
      · split
        · exact .inl ⟨nofun, rfl⟩
        · split
          · exact .inl ⟨nofun, rfl⟩
          · dsimp only
            split
            · exact .inr ⟨hopen, .inl rfl⟩
            · exact .inr ⟨hopen, .inr rfl⟩

theorem writeChunk_of_inactive (h : w.active = false) (offset : Nat) (data : List UInt8)
    (a : WriteAnswer) : (w.writeChunk offset data a).1 = w := by
  rcases w.writeChunk_cases offset data a with ⟨-, hw⟩ | ⟨⟨ha, -⟩, -⟩
  · exact hw
  · exact absurd (h.symm.trans ha) nofun

theorem writeChunk_active (w : IapWriter) (offset : Nat) (data : List UInt8) (a : WriteAnswer) :
    (w.writeChunk offset data a).1.active = w.active := by
  rcases w.writeChunk_cases offset data a with ⟨-, hw⟩ | ⟨-, hw | hw⟩
  · rw [hw]
  · rw [hw]
  · rw [hw]

theorem Sound.writeChunk (h : w.Sound) (offset : Nat) (data : List UInt8) (a : WriteAnswer) :
    (w.writeChunk offset data a).1.Sound := by
  rcases w.writeChunk_cases offset data a with ⟨-, hw⟩ | ⟨⟨ha, hf⟩, hw | hw⟩
  · rw [hw]
    exact h
  · rw [hw]
    exact ⟨h.hash, h.whole, fun hfin => absurd (hf.symm.trans hfin) nofun⟩
  · rw [hw]
    obtain ⟨hhash, hlen⟩ := h.hash (.inl ha)
    refine ⟨fun _ => ⟨?_, ?_⟩, fun hfin => absurd (hf.symm.trans hfin) nofun,
      fun hfin => absurd (hf.symm.trans hfin) nofun⟩
    · exact (congrArg (hashBytes · data) hhash).trans (hashBytes_append ..).symm
    · show w.receivedSize + data.length = (w.payload ++ data).length
      rw [List.length_append, hlen]

theorem finalize_cases (w : IapWriter) :
    w.finalize.2 ≠ .ok ∧ w.finalize.1 = w ∨
      w.finalize.2 = .ok ∧ w.active = true ∧ w.receivedSize = w.expectedSize ∧
        w.finalize.1 = { w with
          verifyHash := fnv1aOffsetBasis
          verifyOffset := 0
          verifyActive := false
          active := false
          finalized := true } := by
  unfold finalize
  split
  · exact .inl ⟨nofun, rfl⟩
  · next hopen =>
    split
    · exact .inl ⟨nofun, rfl⟩
    · next hwhole =>
      exact .inr ⟨rfl, by simpa using fun h => hopen (.inl h), Decidable.not_not.mp hwhole, rfl⟩

theorem Sound.finalize (h : w.Sound) : w.finalize.1.Sound := by
  rcases w.finalize_cases with ⟨-, hw⟩ | ⟨-, ha, hwhole, hw⟩
  · rw [hw]
    exact h
  · rw [hw]
    exact ⟨fun _ => h.hash (.inl ha), fun _ => ⟨rfl, hwhole⟩, fun _ _ => rfl⟩

theorem Sound.abort (w : IapWriter) : w.abort.1.Sound := by
  refine ⟨?_, nofun, nofun⟩
  rintro (h | h)
  · cases h
  · cases h

theorem Sound.verifyStart (h : w.Sound) : w.verifyStart.Sound := by
  unfold IapWriter.verifyStart
  split
  · exact h
  · exact ⟨h.hash, h.whole, fun _ _ => rfl⟩

theorem Sound.verifyRead (h : w.Sound) (len : Nat) : (w.verifyRead len).Sound := by
  refine ⟨h.hash, h.whole, ?_⟩
  intro hf hu
  have hbefore : w.Untouched w.verifyOffset := by
    intro i hi
    rcases Slot.markRead_untouched_iff.mp (hu i (Nat.lt_add_right len hi)) with hi' | hi'
    · exact hi'
    · exact absurd hi (Nat.not_lt.mpr hi'.1)
  calc
    hashBytes w.verifyHash (w.slot.slice w.verifyOffset len)
      = hashBytes (hashBytes fnv1aOffsetBasis (w.slot.slice 0 w.verifyOffset))
          (w.slot.slice w.verifyOffset len) := by rw [← h.read hf hbefore]
    _ = hashBytes fnv1aOffsetBasis (w.slot.slice 0 (w.verifyOffset + len)) := by
      rw [Slot.slice_add, hashBytes_append, Nat.zero_add]

theorem Sound.verifyEnd (h : w.Sound) : w.verifyEnd.1.Sound := by
  unfold IapWriter.verifyEnd
  split
  · exact h
  · exact ⟨h.hash, h.whole, h.read⟩

theorem verifyStep_cases (w : IapWriter) (maxStepBytes : Nat) (a : StorageStatus) :
    ((w.verifyStep maxStepBytes a).1 = w ∨ (w.verifyStep maxStepBytes a).1 = w.verifyStart ∨
        ∃ len, (w.verifyStep maxStepBytes a).1 = w.verifyStart.verifyRead len) ∧
        (w.verifyStep maxStepBytes a).2.2 = false ∨
      (∃ u, (u = w.verifyStart ∨ ∃ len, u = w.verifyStart.verifyRead len) ∧
        u.verifyOffset = u.expectedSize ∧ (w.verifyStep maxStepBytes a).1 = u.verifyEnd.1 ∧
        (w.verifyStep maxStepBytes a).2 = (u.verifyEnd.2, true)) := by
  unfold verifyStep
  split
  · exact .inl ⟨.inl rfl, rfl⟩
  · split
    · exact .inl ⟨.inl rfl, rfl⟩
    · dsimp only
      split
      · exact .inl ⟨.inr (.inl rfl), rfl⟩
      · split
        · next hend => exact .inr ⟨w.verifyStart, .inl rfl, hend, rfl, rfl⟩
        · split
          · exact .inl ⟨.inr (.inl rfl), rfl⟩
          · split
            · next hend => exact .inr ⟨_, .inr ⟨_, rfl⟩, hend, rfl, rfl⟩
            · exact .inl ⟨.inr (.inr ⟨_, rfl⟩), rfl⟩

theorem Sound.verifyStep (h : w.Sound) (maxStepBytes : Nat) (a : StorageStatus) :
    (w.verifyStep maxStepBytes a).1.Sound := by
  rcases w.verifyStep_cases maxStepBytes a with ⟨hw | hw | ⟨len, hw⟩, -⟩ | ⟨u, hu, -, hw, -⟩
  · rw [hw]
    exact h
  · rw [hw]
    exact h.verifyStart
  · rw [hw]
    exact h.verifyStart.verifyRead len
  · rw [hw]
    rcases hu with rfl | ⟨len, rfl⟩
    · exact h.verifyStart.verifyEnd
    · exact (h.verifyStart.verifyRead len).verifyEnd

theorem verifyStart_untouched (h : w.verifyActive = true → w.Untouched w.verifyOffset) :
    w.verifyStart.Untouched w.verifyStart.verifyOffset := by
  unfold verifyStart
  split
  · next hactive => exact h hactive
  · exact nofun

theorem verifyRead_untouched (h : w.Untouched w.verifyOffset) (len : Nat) :
    (w.verifyRead len).Untouched (w.verifyRead len).verifyOffset := by
  intro i hi
  apply Slot.markRead_untouched_iff.mpr
  by_cases hlt : i < w.verifyOffset
  · exact .inl (h i hlt)
  · exact .inr ⟨Nat.not_lt.mp hlt, hi⟩

theorem verifyStep_verified (maxStepBytes : Nat) (a : StorageStatus)
    (h : w.verifyActive = true → w.Untouched w.verifyOffset)
    (hok : (w.verifyStep maxStepBytes a).2 = (.ok, true)) :
    (w.verifyStep maxStepBytes a).1.verifyOffset = (w.verifyStep maxStepBytes a).1.expectedSize ∧
      (w.verifyStep maxStepBytes a).1.verifyHash = (w.verifyStep maxStepBytes a).1.payloadHash ∧
      (w.verifyStep maxStepBytes a).1.Untouched (w.verifyStep maxStepBytes a).1.verifyOffset := by
  rcases w.verifyStep_cases maxStepBytes a with ⟨-, hnot⟩ | ⟨u, hu, hend, hw, hres⟩
  · rw [hok] at hnot
    cases hnot
  · have huntouched : u.Untouched u.verifyOffset := by
      rcases hu with rfl | ⟨len, rfl⟩
      · exact verifyStart_untouched h
      · exact verifyRead_untouched (verifyStart_untouched h) len
    rw [hw]
    rw [hok] at hres
    unfold verifyEnd at hres ⊢
    split
    · next hdiffer =>
      rw [if_pos hdiffer] at hres
      cases hres
    · next hsame => exact ⟨hend, Decidable.not_not.mp hsame, huntouched⟩

theorem finalized_of_verifyStep {maxStepBytes : Nat} {a : StorageStatus}
    (h : (w.verifyStep maxStepBytes a).2.1 = .ok) : w.finalized = true := by
  unfold verifyStep at h
  split at h
  · cases h
  · split at h
    · cases h
    · next hopen =>
      simp only [not_or, Bool.not_eq_false] at hopen
      exact hopen.2

/-- The image is another matter than how far it was read. -/
structure SameImage (w u : IapWriter) : Prop where
  active : u.active = w.active
  finalized : u.finalized = w.finalized
  expectedSize : u.expectedSize = w.expectedSize
  payload : u.payload = w.payload

theorem verifyStart_same (w : IapWriter) : w.SameImage w.verifyStart := by
  unfold verifyStart
  split
  · exact ⟨rfl, rfl, rfl, rfl⟩
  · exact ⟨rfl, rfl, rfl, rfl⟩

theorem verifyEnd_same (w : IapWriter) : w.SameImage w.verifyEnd.1 := by
  unfold verifyEnd
  split
  · exact ⟨rfl, rfl, rfl, rfl⟩
  · exact ⟨rfl, rfl, rfl, rfl⟩

theorem SameImage.trans {u v : IapWriter} (h : w.SameImage u) (h' : u.SameImage v) :
    w.SameImage v :=
  ⟨h'.active.trans h.active, h'.finalized.trans h.finalized,
    h'.expectedSize.trans h.expectedSize, h'.payload.trans h.payload⟩

theorem verifyStep_same (w : IapWriter) (maxStepBytes : Nat) (a : StorageStatus) :
    w.SameImage (w.verifyStep maxStepBytes a).1 := by
  have hread : ∀ len, w.SameImage (w.verifyStart.verifyRead len) := fun len =>
    w.verifyStart_same.trans ⟨rfl, rfl, rfl, rfl⟩
  rcases w.verifyStep_cases maxStepBytes a with ⟨hw | hw | ⟨len, hw⟩, -⟩ | ⟨u, hu, -, hw, -⟩
  · rw [hw]
    exact ⟨rfl, rfl, rfl, rfl⟩
  · rw [hw]
    exact w.verifyStart_same
  · rw [hw]
    exact hread len
  · rw [hw]
    rcases hu with rfl | ⟨len, rfl⟩
    · exact w.verifyStart_same.trans (verifyEnd_same _)
    · exact (hread len).trans (verifyEnd_same _)

end IapWriter

end CanSniffer.Iap
