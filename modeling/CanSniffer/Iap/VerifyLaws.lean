import CanSniffer.Iap.UpdateIngestLaws
import CanSniffer.Iap.Verify

namespace CanSniffer.Iap

open Lib

namespace IapState

variable {s t : IapState} {e : IapEvent} {c : Nat}

/-- The slot holds what the last finalized upload wrote, as far as its hash tells, and no byte of
it was erased or written since it was read. -/
def HoldsUpload (s : IapState) : Prop :=
  ∃ image, s.uploaded = some image ∧ s.writer.expectedSize = image.length ∧
    hashBytes fnv1aOffsetBasis (s.writer.slot.slice 0 s.writer.expectedSize) =
      hashBytes fnv1aOffsetBasis image ∧
    s.writer.Untouched s.writer.expectedSize

def Trustworthy (s : IapState) : Prop := s.isVerified = true → s.HoldsUpload

/-- An erase that fails leaves a verified image whole, and no verification is carried on over
bytes that were touched after it had read them. -/
def Kept (s : IapState) : IapEvent → Prop
  | .prepareUploadSlot a =>
    s.verify.state = .verified → a.status ≠ .ok →
      ∀ i < s.writer.expectedSize, a.erased i = false
  | .verifyPoll _ =>
    s.verify.state = .pending ∨ s.verify.state = .verifying → s.writer.verifyActive = true →
      s.writer.Untouched s.writer.verifyOffset
  | _ => True

/-- At most one pipeline is active, and only while the writer is. -/
structure Solo (s : IapState) : Prop where
  writer : ∀ c, (s.pipelines c).active = true → s.writer.active = true
  one : ∀ c d, (s.pipelines c).active = true → (s.pipelines d).active = true → c = d

structure Inv (s : IapState) : Prop where
  sound : s.writer.Sound
  uploaded : s.writer.finalized = true → s.uploaded = some s.writer.payload
  verified : s.verify.state = .verified →
    s.writer.finalized = true ∧ s.writer.verifyOffset = s.writer.expectedSize ∧
      s.writer.verifyHash = s.writer.payloadHash ∧ s.writer.Untouched s.writer.expectedSize
  solo : s.Solo

theorem Inv.trustworthy (h : s.Inv) : s.Trustworthy := by
  intro hv
  obtain ⟨hfin, hoffset, hsame, huntouched⟩ := h.verified (of_decide_eq_true hv)
  obtain ⟨hhash, hlen⟩ := h.sound.hash (.inr hfin)
  have hread := h.sound.read hfin (hoffset ▸ huntouched)
  refine ⟨s.writer.payload, h.uploaded hfin, ?_, ?_, huntouched⟩
  · rw [← (h.sound.whole hfin).2, hlen]
  · rw [← hoffset, ← hread, hsame, hhash]

theorem start_inv (config : IapWriterConfig) (slot : Slot) : (start config slot).Inv :=
  ⟨IapWriter.init_sound config slot, nofun, nofun, ⟨nofun, nofun⟩⟩

theorem Inv.not_verified (h : s.Inv) (hw : s.writer.active = true) : s.verify.state ≠ .verified := by
  intro hv
  have hfin := (h.verified hv).1
  exact absurd (hw.symm.trans (h.sound.whole hfin).1) nofun

theorem setPipeline_pipelines (s : IapState) (c i : Nat) (p : PipelineContext) :
    (s.setPipeline c p).pipelines i = if i = c then p else s.pipelines i := rfl

theorem Solo.setPipeline {p : PipelineContext} (h : s.Solo) (ht : t.pipelines = s.pipelines)
    (hw : s.writer.active = true → t.writer.active = true)
    (hp : p.active = true → (s.pipelines c).active = true) : (t.setPipeline c p).Solo := by
  have hle : ∀ i, ((t.setPipeline c p).pipelines i).active = true → (s.pipelines i).active = true := by
    intro i hi
    rw [setPipeline_pipelines, ht] at hi
    split at hi
    · next hic => exact hic ▸ hp hi
    · exact hi
  exact ⟨fun i hi => hw (h.writer i (hle i hi)), fun i j hi hj => h.one i j (hle i hi) (hle j hj)⟩

theorem Solo.reset (h : s.Solo) (ht : t.pipelines = s.pipelines)
    (hc : (s.pipelines c).active = true) : (t.setPipeline c .reset).Solo := by
  have hnone : ∀ i, ((t.setPipeline c .reset).pipelines i).active ≠ true := by
    intro i hi
    rw [setPipeline_pipelines, ht] at hi
    split at hi
    · cases hi
    · next hic => exact hic (h.one i c hi hc)
  exact ⟨fun i hi => absurd hi (hnone i), fun i _ hi => absurd hi (hnone i)⟩

theorem Solo.postBegin (h : s.Solo) (c contentSize : Nat) (a : EraseAnswer) :
    (s.postBegin c contentSize a).Solo := by
  unfold IapState.postBegin
  generalize hr : PipelineContext.begin s.adapter s.registered .reset contentSize a = r
  rcases PipelineContext.begin_cases s.adapter s.registered contentSize a with
    ⟨hinactive, hw⟩ | ⟨-, hok, hw⟩
  · rw [hr] at hinactive hw
    have hwriter : r.1.writer.active = s.writer.active := by
      rcases hw with hw | ⟨hfail, hw⟩
      · exact congrArg IapWriter.active hw
      · rcases s.writer.begin_cases contentSize a with ⟨-, hb | ⟨len, hb⟩⟩ | ⟨hok, -⟩
        · exact congrArg IapWriter.active (hw.trans hb)
        · exact (congrArg IapWriter.active (hw.trans hb)).trans rfl
        · exact absurd hok hfail
    exact h.setPipeline rfl (fun ha => hwriter.trans ha) fun hp => absurd (hinactive.symm.trans hp) nofun
  · rw [hr] at hw
    rcases s.writer.begin_cases contentSize a with ⟨hfail, -⟩ | ⟨-, hidle, hstarted⟩
    · exact absurd hok hfail
    · have hactive : r.1.writer.active = true := by
        rcases hstarted with hb | ⟨len, hb⟩
        · exact congrArg IapWriter.active (hw.trans hb)
        · exact congrArg IapWriter.active (hw.trans hb)
      have honly : ∀ i, ((IapState.setPipeline { s.verifyReset with adapter := r.1 } c r.2.1).pipelines i).active
          = true → i = c := by
        intro i hi
        rw [setPipeline_pipelines] at hi
        split at hi
        · next hic => exact hic
        · exact absurd (hidle.symm.trans (h.writer i hi)) nofun
      exact ⟨fun _ _ => hactive, fun i j hi hj => (honly i hi).trans (honly j hj).symm⟩

theorem Solo.push (h : s.Solo) (c : Nat) (data : List UInt8) (a : ChunkAnswers) :
    (s.push c data a).Solo := by
  have hactive := PipelineContext.push_active s.adapter (s.pipelines c) data a
  have hwriter : (PipelineContext.push s.adapter (s.pipelines c) data a).1.writer.active =
      s.writer.active :=
    PipelineContext.push_writer (P := fun w => w.active = s.writer.active) rfl
      (fun w offset d b hw => (w.writeChunk_active offset d b).trans hw) (s.pipelines c) data a
  exact h.setPipeline rfl (fun hw => hwriter.trans hw) fun hp => hactive ▸ hp

theorem setPipeline_eq_self (s : IapState) (c : Nat) : s.setPipeline c (s.pipelines c) = s := by
  have hsame : (s.setPipeline c (s.pipelines c)).pipelines = s.pipelines := by
    funext i
    rw [setPipeline_pipelines]
    split
    · next hic => rw [hic]
    · rfl
  show { s with pipelines := (s.setPipeline c (s.pipelines c)).pipelines } = s
  rw [hsame]

theorem verifyRequest_solo (h : s.Solo) : s.verifyRequest.Solo := by
  unfold IapState.verifyRequest
  split
  · exact ⟨h.writer, h.one⟩
  · exact ⟨h.writer, h.one⟩

theorem Solo.postFinish (h : s.Solo) (c : Nat) : (s.postFinish c).Solo := by
  unfold IapState.postFinish
  rcases PipelineContext.finish_cases s.adapter (s.pipelines c) with ⟨-, hr⟩ | ⟨hactive, hreset, -⟩
  · rw [hr]
    show (s.setPipeline c (s.pipelines c)).Solo
    rw [setPipeline_eq_self]
    exact h
  · dsimp only
    rw [hreset]
    have hsolo : ∀ x : IngestAdapter, (IapState.setPipeline { s with adapter := x } c .reset).Solo :=
      fun x => h.reset rfl hactive
    split
    · exact verifyRequest_solo ⟨(hsolo _).writer, (hsolo _).one⟩
    · exact hsolo _

theorem Solo.abort (h : s.Solo) (c : Nat) : (s.abort c).Solo := by
  unfold IapState.abort
  rcases PipelineContext.abort_cases s.adapter (s.pipelines c) with ⟨-, hr⟩ | ⟨hactive, hreset, -⟩
  · rw [hr]
    show (s.setPipeline c (s.pipelines c)).Solo
    rw [setPipeline_eq_self]
    exact h
  · dsimp only
    rw [hreset]
    exact h.reset rfl hactive

theorem Solo.verifyPollStep (h : s.Solo) (a : StorageStatus) : (s.verifyPollStep a).Solo := by
  have hsame := s.writer.verifyStep_same iapVerifyStepBytes a
  unfold IapState.verifyPollStep
  generalize s.writer.verifyStep iapVerifyStepBytes a = r at hsame
  have hsolo : (s.setWriter r.1).Solo :=
    ⟨fun c hc => hsame.active.trans (h.writer c hc), h.one⟩
  dsimp only
  split
  · exact ⟨hsolo.writer, hsolo.one⟩
  · exact ⟨hsolo.writer, hsolo.one⟩

theorem Solo.verifyPoll (h : s.Solo) (a : StorageStatus) : (s.verifyPoll a).Solo := by
  unfold IapState.verifyPoll
  split
  · split
    · exact ⟨h.writer, h.one⟩
    · exact h.verifyPollStep a
  · exact h.verifyPollStep a
  · exact h

theorem Solo.prepareUploadSlot (h : s.Solo) (a : EraseAnswer) : (s.prepareUploadSlot a).1.Solo := by
  unfold IapState.prepareUploadSlot
  split
  · exact h
  · dsimp only
    split
    · exact ⟨h.writer, h.one⟩
    · exact ⟨h.writer, h.one⟩

theorem step_solo (h : s.Solo) (ht : step s e = some t) : t.Solo := by
  cases e with
  | prepareUploadSlot a =>
    cases ht
    exact h.prepareUploadSlot a
  | begin c contentSize a =>
    cases ht
    exact h.postBegin c contentSize a
  | push c data a =>
    cases ht
    exact h.push c data a
  | finish c =>
    cases ht
    exact h.postFinish c
  | abort c =>
    cases ht
    exact h.abort c
  | verifyRequest =>
    cases ht
    exact verifyRequest_solo h
  | verifyPoll a =>
    cases ht
    exact h.verifyPoll a
  | verifyReset =>
    cases ht
    exact ⟨h.writer, h.one⟩

theorem Inv.prepareUploadSlot {a : EraseAnswer} (h : s.Inv)
    (hkept : s.Kept (.prepareUploadSlot a)) : (s.prepareUploadSlot a).1.Inv := by
  unfold IapState.prepareUploadSlot
  split
  · exact h
  · have hsound := h.sound.eraseSlot s.writer.config.slotSize a
    dsimp only
    split
    · next hfail =>
      refine ⟨hsound, h.uploaded, ?_, ⟨h.solo.writer, h.solo.one⟩⟩
      intro hv
      obtain ⟨hfin, hoffset, hsame, huntouched⟩ := h.verified hv
      refine ⟨hfin, hoffset, hsame, ?_⟩
      intro i hi
      exact Slot.erase_untouched_of_erased (huntouched i hi) hfail (hkept hv hfail i hi)
    · exact ⟨⟨hsound.hash, hsound.whole, hsound.read⟩, h.uploaded, nofun,
        ⟨h.solo.writer, h.solo.one⟩⟩

theorem Inv.verifyReset (h : s.Inv) : s.verifyReset.Inv :=
  ⟨h.sound, h.uploaded, nofun, ⟨h.solo.writer, h.solo.one⟩⟩

theorem Inv.verifyRequest (h : s.Inv) : s.verifyRequest.Inv := by
  unfold IapState.verifyRequest
  split
  · exact ⟨h.sound, h.uploaded, nofun, ⟨h.solo.writer, h.solo.one⟩⟩
  · exact ⟨h.sound, h.uploaded, nofun, ⟨h.solo.writer, h.solo.one⟩⟩

theorem Inv.postBegin (h : s.Inv) (c contentSize : Nat) (a : EraseAnswer) :
    (s.postBegin c contentSize a).Inv := by
  have hsolo := h.solo.postBegin c contentSize a
  have hbegun := h.sound.begin contentSize a
  unfold IapState.postBegin at hsolo ⊢
  generalize hr : PipelineContext.begin s.adapter s.registered .reset contentSize a = r at hsolo ⊢
  have hwriter : (r.1.writer = s.writer ∨ ∃ len, r.1.writer = s.writer.eraseSlot len a) ∨
      r.1.writer = (s.writer.begin contentSize a).1 ∧ r.1.writer.finalized = false := by
    rcases PipelineContext.begin_cases s.adapter s.registered contentSize a with
      ⟨-, hw | ⟨hfail, hw⟩⟩ | ⟨-, hok, hw⟩
    · rw [hr] at hw
      exact .inl (.inl hw)
    · rw [hr] at hw
      rcases s.writer.begin_cases contentSize a with ⟨-, hb | ⟨len, hb⟩⟩ | ⟨hok, -⟩
      · exact .inl (.inl (hw.trans hb))
      · exact .inl (.inr ⟨len, hw.trans hb⟩)
      · exact absurd hok hfail
    · rw [hr] at hw
      rcases s.writer.begin_cases contentSize a with ⟨hfail, -⟩ | ⟨-, -, hb | ⟨len, hb⟩⟩
      · exact absurd hok hfail
      · exact .inr ⟨hw, congrArg IapWriter.finalized (hw.trans hb)⟩
      · exact .inr ⟨hw, congrArg IapWriter.finalized (hw.trans hb)⟩
  rcases hwriter with (hw | ⟨len, hw⟩) | ⟨hw, hopen⟩
  · refine ⟨?_, ?_, nofun, hsolo⟩
    · show r.1.writer.Sound
      rw [hw]
      exact h.sound
    · show r.1.writer.finalized = true → s.uploaded = some r.1.writer.payload
      rw [hw]
      exact h.uploaded
  · refine ⟨?_, ?_, nofun, hsolo⟩
    · show r.1.writer.Sound
      rw [hw]
      exact h.sound.eraseSlot len a
    · show r.1.writer.finalized = true → s.uploaded = some r.1.writer.payload
      rw [hw]
      exact h.uploaded
  · refine ⟨?_, fun hfin => absurd (hopen.symm.trans hfin) nofun, nofun, hsolo⟩
    show r.1.writer.Sound
    rw [hw]
    exact hbegun

theorem Inv.push (h : s.Inv) (c : Nat) (data : List UInt8) (a : ChunkAnswers) :
    (s.push c data a).Inv := by
  let P (w : IapWriter) := w.Sound ∧ w.active = s.writer.active ∧ (s.writer.active = false → w = s.writer)
  have hP : P (PipelineContext.push s.adapter (s.pipelines c) data a).1.writer := by
    refine PipelineContext.push_writer (P := P) ⟨h.sound, rfl, fun _ => rfl⟩ ?_ _ _ _
    rintro w offset data a ⟨hs, ha, hw⟩
    refine ⟨hs.writeChunk .., (w.writeChunk_active ..).trans ha, ?_⟩
    intro hidle
    exact (IapWriter.writeChunk_of_inactive (ha.trans hidle) ..).trans (hw hidle)
  obtain ⟨hs, ha, hw⟩ := hP
  have hsolo := h.solo.push c data a
  unfold IapState.push at hsolo ⊢
  generalize PipelineContext.push s.adapter (s.pipelines c) data a = r at hs ha hw hsolo ⊢
  refine ⟨hs, ?_, ?_, hsolo⟩
  · intro hfin
    have hsame := hw (ha.symm.trans (hs.whole hfin).1)
    rw [show (setPipeline { s with adapter := r.1 } c r.2.1).writer = s.writer from hsame] at hfin ⊢
    exact h.uploaded hfin
  · intro hv
    have hsame := hw ((h.sound.whole (h.verified hv).1).1)
    rw [show (setPipeline { s with adapter := r.1 } c r.2.1).writer = s.writer from hsame]
    exact h.verified hv

theorem Inv.postFinish (h : s.Inv) (c : Nat) : (s.postFinish c).Inv := by
  unfold IapState.postFinish
  rcases PipelineContext.finish_cases s.adapter (s.pipelines c) with
    ⟨-, hr⟩ | ⟨hactive, hreset, hw⟩
  · rw [hr]
    show (s.setPipeline c (s.pipelines c)).Inv
    rw [setPipeline_eq_self]
    exact h
  · have hopen := h.solo.writer c hactive
    dsimp only
    rw [hreset]
    generalize PipelineContext.finish s.adapter (s.pipelines c) = r at hw
    have hsolo : (setPipeline { s with adapter := r.1 } c .reset).Solo := h.solo.reset rfl hactive
    have hnot : (setPipeline { s with adapter := r.1 } c .reset).verify.state ≠ .verified :=
      h.not_verified hopen
    rcases hw with ⟨hfail, hw⟩ | ⟨hfail, hw⟩ | ⟨hok, hfin, hw⟩
    · rw [if_neg hfail]
      refine ⟨?_, ?_, fun hv => absurd hv hnot, hsolo⟩
      · show r.1.writer.Sound
        rw [hw]
        exact h.sound
      · show r.1.writer.finalized = true → s.uploaded = some r.1.writer.payload
        rw [hw]
        exact h.uploaded
    · rw [if_neg hfail]
      refine ⟨?_, ?_, fun hv => absurd hv hnot, hsolo⟩
      · show r.1.writer.Sound
        rw [hw]
        exact .abort _
      · show r.1.writer.finalized = true → s.uploaded = some r.1.writer.payload
        rw [hw]
        nofun
    · rw [if_pos hok]
      apply Inv.verifyRequest
      refine ⟨?_, fun _ => rfl, fun hv => absurd hv hnot, ⟨hsolo.writer, hsolo.one⟩⟩
      show r.1.writer.Sound
      rw [hw]
      exact h.sound.finalize

theorem Inv.abort (h : s.Inv) (c : Nat) : (s.abort c).Inv := by
  unfold IapState.abort
  rcases PipelineContext.abort_cases s.adapter (s.pipelines c) with ⟨-, hr⟩ | ⟨hactive, hreset, hw⟩
  · rw [hr]
    show (s.setPipeline c (s.pipelines c)).Inv
    rw [setPipeline_eq_self]
    exact h
  · dsimp only
    rw [hreset]
    generalize PipelineContext.abort s.adapter (s.pipelines c) = r at hw
    refine ⟨?_, ?_, fun hv => absurd hv (h.not_verified (h.solo.writer c hactive)),
      h.solo.reset rfl hactive⟩
    · show r.1.writer.Sound
      rw [hw]
      exact .abort _
    · show r.1.writer.finalized = true → s.uploaded = some r.1.writer.payload
      rw [hw]
      nofun

theorem Inv.verifyPollStep (h : s.Inv) (a : StorageStatus)
    (hkept : s.writer.verifyActive = true → s.writer.Untouched s.writer.verifyOffset) :
    (s.verifyPollStep a).Inv := by
  have hsound := h.sound.verifyStep iapVerifyStepBytes a
  have hsame := s.writer.verifyStep_same iapVerifyStepBytes a
  have hverified := IapWriter.verifyStep_verified iapVerifyStepBytes a hkept
  have hfinalized : (s.writer.verifyStep iapVerifyStepBytes a).2.1 = .ok → s.writer.finalized = true :=
    IapWriter.finalized_of_verifyStep
  unfold IapState.verifyPollStep
  generalize s.writer.verifyStep iapVerifyStepBytes a = r at hsound hsame hverified hfinalized
  have hsolo : (s.setWriter r.1).Solo :=
    ⟨fun c hc => hsame.active.trans (h.solo.writer c hc), h.solo.one⟩
  have huploaded : r.1.finalized = true → s.uploaded = some r.1.payload := by
    rw [hsame.finalized, hsame.payload]
    exact h.uploaded
  dsimp only
  split
  · exact ⟨hsound, huploaded, nofun, ⟨hsolo.writer, hsolo.one⟩⟩
  · next hok =>
    have hok := Decidable.not_not.mp hok
    refine ⟨hsound, huploaded, ?_, ⟨hsolo.writer, hsolo.one⟩⟩
    intro hv
    have hdone : r.2.2 = true := by
      cases hd : r.2.2 with
      | true => rfl
      | false =>
        rw [hd] at hv
        cases hv
    obtain ⟨hoffset, hhash, huntouched⟩ := hverified (Prod.ext hok hdone)
    refine ⟨hsame.finalized.trans (hfinalized hok), hoffset, hhash, ?_⟩
    exact hoffset ▸ huntouched

theorem Inv.verifyPoll {a : StorageStatus} (h : s.Inv) (hkept : s.Kept (.verifyPoll a)) :
    (s.verifyPoll a).Inv := by
  unfold IapState.verifyPoll
  split
  · next hpending =>
    split
    · exact ⟨h.sound, h.uploaded, nofun, ⟨h.solo.writer, h.solo.one⟩⟩
    · exact h.verifyPollStep a (hkept (.inl hpending))
  · next hverifying => exact h.verifyPollStep a (hkept (.inr hverifying))
  · exact h

theorem step_inv (h : s.Inv) (hkept : s.Kept e) (ht : step s e = some t) : t.Inv := by
  cases e with
  | prepareUploadSlot a =>
    cases ht
    exact h.prepareUploadSlot hkept
  | begin c contentSize a =>
    cases ht
    exact h.postBegin c contentSize a
  | push c data a =>
    cases ht
    exact h.push c data a
  | finish c =>
    cases ht
    exact h.postFinish c
  | abort c =>
    cases ht
    exact h.abort c
  | verifyRequest =>
    cases ht
    exact h.verifyRequest
  | verifyPoll a =>
    cases ht
    exact h.verifyPoll hkept
  | verifyReset =>
    cases ht
    exact h.verifyReset

theorem run_trustworthy {config : IapWriterConfig} {slot : Slot} {es : List IapEvent}
    (hkept : Step.Along step Kept (start config slot) es)
    (h : Step.run step (start config slot) es = some t) : t.Trustworthy :=
  (Step.run_invariant_along (fun hs hc ht => step_inv hs hc ht) (start_inv config slot) hkept
    h).trustworthy

def oneSector : IapWriterConfig where
  slotSize := 32
  eraseSize := 32
  progSize := 32
  slot_lt := by decide
  erase_pos := by decide
  prog_pos := by decide
  erase_dvd := by decide

def verifiedUpload : List IapEvent :=
  [.begin 0 32 { status := .ok, erased := fun _ => false },
    .push 0 (List.replicate 32 0)
      { first := { status := .ok, left := fun _ => none }
        main := { status := .ok, left := fun _ => none } },
    .finish 0,
    .verifyPoll .ok]

/-- The slot is prepared again, the erase fails half way, and the image still counts as verified. -/
theorem failed_erase_trusted :
    ¬∀ (config : IapWriterConfig) (slot : Slot) (es : List IapEvent) (t : IapState),
      Step.run step (start config slot) es = some t → t.Trustworthy := by
  intro h
  have htrusted := h oneSector { bytes := fun _ => 0, touched := fun _ => true }
    (verifiedUpload ++ [.prepareUploadSlot { status := .io, erased := fun i => decide (i < 16) }]) _ rfl
  obtain ⟨image, -, -, -, huntouched⟩ := htrusted (by decide +kernel)
  exact absurd (huntouched 0 (by decide +kernel)) (by decide +kernel)

theorem run_trustworthy_upload :
    ∃ t, Step.run step (start oneSector { bytes := fun _ => 0, touched := fun _ => true })
      verifiedUpload = some t ∧ t.Trustworthy := by
  refine (fun hrun => ⟨_, hrun, run_trustworthy ?_ hrun⟩) rfl
  refine ⟨trivial, ?_⟩
  rintro t ⟨⟩
  refine ⟨trivial, ?_⟩
  rintro t ⟨⟩
  refine ⟨trivial, ?_⟩
  rintro t ⟨⟩
  refine ⟨?_, fun _ _ => trivial⟩
  intro _ hactive
  exact absurd hactive (by decide +kernel)

end IapState

end CanSniffer.Iap
