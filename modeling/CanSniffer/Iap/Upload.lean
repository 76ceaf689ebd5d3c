import CanSniffer.Iap.UpdateIngestLaws
import CanSniffer.Iap.FlashAdapter

namespace CanSniffer.Iap

namespace IngestAdapter

/-- What a part of the upload hands to the writer, and where it goes. -/
def chunks (x : IngestAdapter) (offset : Nat) (data : List UInt8) : List (Nat × List UInt8) :=
  let progSize := x.writer.config.progSize
  let f := x.refill offset data progSize
  let len := alignedLen f.updatedLen progSize
  (if f.pending.length = progSize then [(f.updatedOffset, f.pending)] else []) ++
    if len = 0 then [] else [(offset + f.freeLen, (data.drop f.freeLen).take len)]

end IngestAdapter

/-- The writer takes the chunks one after the other; the storage answers each alike. -/
def IapWriter.Takes (a : WriteAnswer) : IapWriter → List (Nat × List UInt8) → IapWriter → Prop
  | w, [], w' => w = w'
  | w, k :: ks, w' =>
    (w.writeChunk k.1 k.2 a).2 = .ok ∧ Takes a (w.writeChunk k.1 k.2 a).1 ks w'

namespace IngestAdapter

theorem takes_main (x : IngestAdapter) (offset len : Nat) (data rest : List UInt8)
    (a : WriteAnswer) :
    let r : IngestAdapter × IngestStatus :=
      if len = 0 then (x.keepRemainder rest, .ok)
      else
        let w := (x.keepRemainder rest).writer.writeChunk offset data a
        ({ x.keepRemainder rest with writer := w.1 }, mapWriterStatus w.2)
    r.2 = .ok → x.writer.Takes a (if len = 0 then [] else [(offset, data)]) r.1.writer := by
  by_cases hlen : len = 0
  · rw [if_pos hlen, if_pos hlen]
    intro _ _
    exact (x.keepRemainder_writer rest).symm
  · rw [if_neg hlen, if_neg hlen, x.keepRemainder_writer]
    intro _ h
    exact ⟨mapWriterStatus_eq_ok.mp h, rfl⟩

theorem takes_chunks {x : IngestAdapter} {offset : Nat} {data : List UInt8} {a : WriteAnswer}
    (h : (x.writeChunk offset data ⟨a, a⟩).2 = .ok) :
    x.writer.Takes a (x.chunks offset data) (x.writeChunk offset data ⟨a, a⟩).1.writer := by
  unfold writeChunk at h ⊢
  unfold chunks
  by_cases hempty : data = []
  · rw [if_pos hempty] at h
    cases h
  rw [if_neg hempty] at h ⊢
  by_cases halign : ingestAdapterAlignMax < x.writer.config.progSize
  · rw [if_pos halign] at h
    cases h
  rw [if_neg halign] at h ⊢
  by_cases hoffset : x.checkOffsetSequence offset = .ok
  · rw [if_neg (Decidable.not_not.mpr hoffset)] at h ⊢
    by_cases hpending : x.writer.config.progSize < x.pending.length
    · rw [if_pos hpending] at h
      cases h
    rw [if_neg hpending] at h ⊢
    dsimp only at h ⊢
    generalize x.refill offset data x.writer.config.progSize = f at h ⊢
    generalize alignedLen f.updatedLen x.writer.config.progSize = len at h ⊢
    by_cases hfull : f.pending.length = x.writer.config.progSize
    · simp only [writePending, if_pos hfull] at h ⊢
      by_cases hfirst : mapWriterStatus (x.writer.writeChunk f.updatedOffset f.pending a).2 = .ok
      · rw [if_neg (Decidable.not_not.mpr hfirst)] at h ⊢
        refine ⟨mapWriterStatus_eq_ok.mp hfirst, ?_⟩
        exact takes_main _ _ _ _ _ _ h
      · rw [if_pos hfirst] at h
        exact absurd h hfirst
    · simp only [writePending, if_neg hfull, ne_eq, not_true_eq_false, if_false] at h ⊢
      exact takes_main _ _ _ _ _ _ h
  · rw [if_pos hoffset] at h
    exact absurd h hoffset

end IngestAdapter

structure UploadFlash where
  adapter : FlashAdapterContext
  info : FlashInfo
  answer : Nat → FlashAnswer
  erase : EraseAnswer

namespace UploadFlash

def writeChunks (f : UploadFlash) : Slot → List (Nat × List UInt8) → Written
  | s, [] => { slot := s, calls := [], status := .ok }
  | s, k :: ks =>
    let r := FlashAdapter.write f.adapter f.info f.answer s k.1 k.2
    if r.status ≠ .ok then r
    else
      let t := f.writeChunks r.slot ks
      { t with calls := r.calls ++ t.calls }

structure Works (f : UploadFlash) : Prop where
  erase : f.erase.status = .ok
  write : ∀ offset, (f.answer offset).status = .ok

end UploadFlash

/-- `status` is the answer to the last call; `slot` and `writes` are the flash's own. -/
structure Upload where
  adapter : IngestAdapter
  context : PipelineContext
  status : IngestStatus
  slot : Slot
  writes : List FlashWrite

namespace Upload

def begin (f : UploadFlash) (x : IngestAdapter) (c : PipelineContext) (contentSize : Nat) : Upload :=
  let r := PipelineContext.begin x true c contentSize f.erase
  { adapter := r.1, context := r.2.1, status := r.2.2, slot := r.1.writer.slot, writes := [] }

/-- The writer gets the status of the flash adapter; what a failed write leaves is not needed
here. -/
def push (f : UploadFlash) (u : Upload) (data : List UInt8) : Upload :=
  let w := f.writeChunks u.slot (u.adapter.chunks u.context.receivedSize data)
  let a : WriteAnswer := { status := w.status, left := fun _ => none }
  let r := PipelineContext.push u.adapter u.context data { first := a, main := a }
  { adapter := r.1
    context := r.2.1
    status := r.2.2
    slot := w.slot
    writes := u.writes ++ w.calls }

def pushAll (f : UploadFlash) (u : Upload) (parts : List (List UInt8)) : Upload :=
  parts.foldl (push f) u

def finish (u : Upload) : Upload :=
  let r := PipelineContext.finish u.adapter u.context
  { u with adapter := r.1, context := r.2.1, status := r.2.2 }

end Upload

end CanSniffer.Iap
