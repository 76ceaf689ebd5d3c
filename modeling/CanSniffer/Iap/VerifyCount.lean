import CanSniffer.Iap.StoredImage

namespace CanSniffer.Iap

namespace IapWriter

variable {w : IapWriter}

def Small (w : IapWriter) : Prop := w.expectedSize < 0x100000000

theorem Small.begin (h : w.Small) (imageSize : Nat) (a : EraseAnswer) :
    (w.begin imageSize a).1.Small := by
  rcases w.begin_cases imageSize a with ⟨-, hw | ⟨len, hw⟩⟩ | ⟨hok, -, hw | ⟨len, hw⟩⟩
  · rw [hw]
    exact h
  · rw [hw]
    exact h
  · rw [hw]
    exact Nat.lt_of_le_of_lt (begin_fits hok) w.config.slot_lt
  · rw [hw]
    exact Nat.lt_of_le_of_lt (begin_fits hok) w.config.slot_lt

theorem Small.writeChunk (h : w.Small) (offset : Nat) (data : List UInt8) (a : WriteAnswer) :
    (w.writeChunk offset data a).1.Small := by
  rcases w.writeChunk_result offset data a with ⟨-, hw | hw⟩ | ⟨-, hw⟩
  · rw [hw]
    exact h
  · rw [hw]
    exact h
  · rw [hw]
    exact h

theorem Small.finalize (h : w.Small) : w.finalize.1.Small := by
  rcases w.finalize_cases with ⟨-, hw⟩ | ⟨-, -, -, hw⟩
  · rw [hw]
    exact h
  · rw [hw]
    exact h

theorem abort_small (w : IapWriter) : w.abort.1.Small := by
  show 0 < 0x100000000
  decide

theorem verifyStep_counts {n : Nat} {a : StorageStatus} (hok : (w.verifyStep n a).2.1 = .ok) :
    (w.verifyStep n a).1.verifyOffset ≤ (w.verifyStep n a).1.expectedSize ∧
      ((w.verifyStep n a).2.2 = true →
        (w.verifyStep n a).1.verifyOffset = (w.verifyStep n a).1.expectedSize) := by
  have hend (u : IapWriter) (hu : u.verifyOffset = u.expectedSize) :
      u.verifyEnd.1.verifyOffset = u.verifyEnd.1.expectedSize := by
    unfold verifyEnd
    split
    · exact hu
    · exact hu
  unfold verifyStep at hok ⊢
  split at hok
  · cases hok
  · next hn =>
    rw [if_neg hn]
    split at hok
    · cases hok
    · next hready =>
      rw [if_neg hready]
      dsimp only at hok ⊢
      split at hok
      · cases hok
      · next hle =>
        rw [if_neg hle]
        split at hok
        · next hwhole =>
          rw [if_pos hwhole]
          exact ⟨Nat.le_of_eq (hend _ hwhole), fun _ => hend _ hwhole⟩
        · next hrest =>
          rw [if_neg hrest]
          split at hok
          · next hfail =>
            cases a with
            | ok => exact absurd rfl hfail
            | _ => cases hok
          · next hread =>
            rw [if_neg hread]
            split
            · next hwhole => exact ⟨Nat.le_of_eq (hend _ hwhole), fun _ => hend _ hwhole⟩
            · refine ⟨?_, nofun⟩
              show w.verifyStart.verifyOffset + _ ≤ w.verifyStart.expectedSize
              omega

end IapWriter

structure IapVerifyRuntime.Counts (v : IapVerifyRuntime) : Prop where
  within : v.processed ≤ v.total
  small : v.total < 0x100000000
  whole : v.state = .verified → v.processed = v.total

namespace IapState

variable {s : IapState}

structure Counted (s : IapState) : Prop where
  writer : s.writer.Small
  verify : s.verify.Counts

theorem counts_reset : IapVerifyRuntime.Counts { state := .idle, processed := 0, total := 0 } :=
  ⟨Nat.le_refl _, by decide, nofun⟩

theorem counts_error {v : IapVerifyRuntime} (h : v.Counts) : { v with state := .error }.Counts :=
  ⟨h.within, h.small, nofun⟩

theorem start_counted (config : IapWriterConfig) (slot : Slot) : (start config slot).Counted :=
  ⟨by show 0 < 0x100000000; decide, counts_reset⟩

theorem Counted.verifyReset (h : s.Counted) : s.verifyReset.Counted := ⟨h.writer, counts_reset⟩

theorem Counted.verifyRequest (h : s.Counted) : s.verifyRequest.Counted := by
  unfold IapState.verifyRequest
  split
  · exact ⟨h.writer, Nat.zero_le _, h.writer, nofun⟩
  · exact ⟨h.writer, Nat.zero_le _, h.writer, nofun⟩

theorem Counted.setPipeline (h : s.Counted) (c : Nat) (p : PipelineContext) :
    (s.setPipeline c p).Counted := ⟨h.writer, h.verify⟩

theorem Counted.prepareUploadSlot (h : s.Counted) (a : EraseAnswer) :
    (s.prepareUploadSlot a).1.Counted := by
  unfold IapState.prepareUploadSlot
  split
  · exact h
  · dsimp only
    split
    · exact ⟨h.writer, h.verify⟩
    · exact ⟨h.writer, counts_reset⟩

theorem Counted.postBegin (h : s.Counted) (c contentSize : Nat) (a : EraseAnswer) :
    (s.postBegin c contentSize a).Counted := by
  refine ⟨?_, counts_reset⟩
  show (PipelineContext.begin ..).1.writer.Small
  rcases PipelineContext.begin_cases s.adapter s.registered contentSize a with
    ⟨-, hsame | ⟨-, hbegun⟩⟩ | ⟨-, -, hbegun⟩
  · rw [hsame]
    exact h.writer
  · rw [hbegun]
    exact h.writer.begin contentSize a
  · rw [hbegun]
    exact h.writer.begin contentSize a

theorem Counted.push (h : s.Counted) (c : Nat) (data : List UInt8) (a : ChunkAnswers) :
    (s.push c data a).Counted :=
  ⟨PipelineContext.push_writer (P := IapWriter.Small) h.writer
    (fun _ offset data a hw => hw.writeChunk offset data a) _ _ _, h.verify⟩

theorem Counted.abort (h : s.Counted) (c : Nat) : (s.abort c).Counted := by
  refine ⟨?_, h.verify⟩
  show (PipelineContext.abort ..).1.writer.Small
  rcases PipelineContext.abort_cases s.adapter (s.pipelines c) with ⟨-, hr⟩ | ⟨-, -, hw⟩
  · rw [hr]
    exact h.writer
  · rw [hw]
    exact IapWriter.abort_small _

theorem Counted.postFinish (h : s.Counted) (c : Nat) : (s.postFinish c).Counted := by
  have hwriter : (PipelineContext.finish s.adapter (s.pipelines c)).1.writer.Small := by
    rcases PipelineContext.finish_cases s.adapter (s.pipelines c) with
      ⟨-, hr⟩ | ⟨-, -, ⟨-, hw⟩ | ⟨-, hw⟩ | ⟨-, -, hw⟩⟩
    · rw [hr]
      exact h.writer
    · rw [hw]
      exact h.writer
    · rw [hw]
      exact IapWriter.abort_small _
    · rw [hw]
      exact h.writer.finalize
  unfold IapState.postFinish
  dsimp only
  split
  · exact Counted.verifyRequest ⟨hwriter, h.verify⟩
  · exact ⟨hwriter, h.verify⟩

theorem Counted.verifyPollStep (h : s.Counted) (a : StorageStatus) :
    (s.verifyPollStep a).Counted := by
  have hwriter : (s.writer.verifyStep iapVerifyStepBytes a).1.Small := by
    unfold IapWriter.Small
    rw [(s.writer.verifyStep_same iapVerifyStepBytes a).expectedSize]
    exact h.writer
  unfold IapState.verifyPollStep
  dsimp only
  split
  · exact ⟨hwriter, counts_error h.verify⟩
  · next hok =>
    obtain ⟨hle, hwhole⟩ := IapWriter.verifyStep_counts (Decidable.not_not.mp hok)
    refine ⟨hwriter, hle, hwriter, ?_⟩
    intro hverified
    refine hwhole ?_
    dsimp only at hverified
    split at hverified
    · next hdone => exact hdone
    · cases hverified

theorem Counted.verifyPoll (h : s.Counted) (a : StorageStatus) : (s.verifyPoll a).Counted := by
  unfold IapState.verifyPoll
  split
  · split
    · exact ⟨h.writer, counts_error h.verify⟩
    · exact h.verifyPollStep a
  · exact h.verifyPollStep a
  · exact h

end IapState

end CanSniffer.Iap
