import CanSniffer.Iap.IapWriterLaws
import CanSniffer.Iap.UpdateIngest

namespace CanSniffer.Iap

theorem mapWriterStatus_eq_ok {status : IapWriterStatus} : mapWriterStatus status = .ok ↔ status = .ok := by
  cases status with
  | ok => simp [mapWriterStatus]
  | param => simp [mapWriterStatus]
  | state => simp [mapWriterStatus]
  | range => simp [mapWriterStatus]
  | align => simp [mapWriterStatus]
  | sequence => simp [mapWriterStatus]
  | storage => simp [mapWriterStatus]
  | verify => simp [mapWriterStatus]

namespace IngestAdapter

variable {x : IngestAdapter} {P : IapWriter → Prop}

@[simp] theorem keepRemainder_writer (x : IngestAdapter) (rest : List UInt8) :
    (x.keepRemainder rest).writer = x.writer := by
  unfold keepRemainder
  split
  · rfl
  · rfl

theorem writeChunk_writer (hx : P x.writer)
    (hstep : ∀ w offset data a, P w → P (w.writeChunk offset data a).1) (offset : Nat)
    (data : List UInt8) (a : ChunkAnswers) : P (x.writeChunk offset data a).1.writer := by
  have hpending : ∀ pending offset progSize a,
      P (writePending { x with pending } offset progSize a).1.writer := by
    intro pending offset progSize a
    unfold writePending
    split
    · exact hstep _ _ _ _ hx
    · exact hx
  unfold writeChunk
  dsimp only
  split
  · exact hx
  · split
    · exact hx
    · split
      · exact hx
      · split
        · exact hx
        · split
          · exact hpending ..
          · split
            · rw [keepRemainder_writer]
              exact hpending ..
            · rw [keepRemainder_writer]
              exact hstep _ _ _ _ (hpending ..)

end IngestAdapter

namespace PipelineContext

variable {x : IngestAdapter} {c : PipelineContext} {P : IapWriter → Prop}

theorem push_writer (hx : P x.writer)
    (hstep : ∀ w offset data a, P w → P (w.writeChunk offset data a).1) (c : PipelineContext)
    (data : List UInt8) (a : ChunkAnswers) : P (push x c data a).1.writer := by
  have hchunk := IngestAdapter.writeChunk_writer hx hstep c.receivedSize data a
  unfold push
  split
  · exact hx
  · split
    · exact hx
    · dsimp only
      split
      · exact hchunk
      · exact hchunk

theorem push_active (x : IngestAdapter) (c : PipelineContext) (data : List UInt8)
    (a : ChunkAnswers) : (push x c data a).2.1.active = c.active := by
  unfold push
  split
  · rfl
  · split
    · rfl
    · dsimp only
      split
      · rfl
      · rfl

theorem begin_cases (x : IngestAdapter) (registered : Bool) (contentSize : Nat) (a : EraseAnswer) :
    (begin x registered reset contentSize a).2.1.active = false ∧
        ((begin x registered reset contentSize a).1.writer = x.writer ∨
          (x.writer.begin contentSize a).2 ≠ .ok ∧
            (begin x registered reset contentSize a).1.writer = (x.writer.begin contentSize a).1) ∨
      (begin x registered reset contentSize a).2.1.active = true ∧
        (x.writer.begin contentSize a).2 = .ok ∧
        (begin x registered reset contentSize a).1.writer = (x.writer.begin contentSize a).1 := by
  unfold begin
  split
  · exact .inl ⟨rfl, .inl rfl⟩
  · split
    · exact .inl ⟨rfl, .inl rfl⟩
    · dsimp only
      split
      · next hfail =>
        exact .inl ⟨rfl, .inr ⟨fun h => hfail (mapWriterStatus_eq_ok.mpr h), rfl⟩⟩
      · next hok =>
        exact .inr ⟨rfl, mapWriterStatus_eq_ok.mp (Decidable.not_not.mp hok), rfl⟩

theorem finish_cases (x : IngestAdapter) (c : PipelineContext) :
    c.active = false ∧ finish x c = (x, c, .state) ∨
      c.active = true ∧ (finish x c).2.1 = reset ∧
        ((finish x c).2.2 ≠ .ok ∧ (finish x c).1.writer = x.writer ∨
          (finish x c).2.2 ≠ .ok ∧ (finish x c).1.writer = x.writer.abort.1 ∨
          (finish x c).2.2 = .ok ∧ x.writer.finalize.2 = .ok ∧
            (finish x c).1.writer = x.writer.finalize.1) := by
  unfold finish
  cases hc : c.active with
  | false => exact .inl ⟨rfl, rfl⟩
  | true =>
    right
    refine ⟨rfl, ?_⟩
    rw [if_neg nofun]
    split
    · exact ⟨rfl, .inr (.inl ⟨nofun, rfl⟩)⟩
    · refine ⟨rfl, ?_⟩
      unfold IngestAdapter.finalize
      split
      · exact .inl ⟨nofun, rfl⟩
      · rcases x.writer.finalize_cases with ⟨hfail, hw⟩ | ⟨hok, -, -, -⟩
        · exact .inl ⟨fun h => hfail (mapWriterStatus_eq_ok.mp h), hw⟩
        · exact .inr (.inr ⟨mapWriterStatus_eq_ok.mpr hok, hok, rfl⟩)

theorem abort_cases (x : IngestAdapter) (c : PipelineContext) :
    c.active = false ∧ abort x c = (x, c, .state) ∨
      c.active = true ∧ (abort x c).2.1 = reset ∧ (abort x c).1.writer = x.writer.abort.1 := by
  unfold abort
  cases hc : c.active with
  | false => exact .inl ⟨rfl, rfl⟩
  | true => exact .inr ⟨rfl, rfl, rfl⟩

end PipelineContext

end CanSniffer.Iap
