import CanSniffer.Iap.UploadLaws
import CanSniffer.Iap.VerifyLaws

namespace CanSniffer.Iap

open Lib

namespace IngestAdapter

theorem writeChunk_out_of_sequence {x : IngestAdapter} {offset : Nat}
    (h : offset ≠ x.writer.receivedSize + x.pending.length) (data : List UInt8) (a : ChunkAnswers) :
    (x.writeChunk offset data a).2 ≠ .ok := by
  have hcheck : x.checkOffsetSequence offset = .sequence := if_pos h
  unfold writeChunk
  dsimp only
  split
  · nofun
  · split
    · nofun
    · rw [hcheck, if_pos nofun]
      nofun

end IngestAdapter

namespace IapWriter

theorem verifyStep_of_active {w : IapWriter} (h : w.active = true) (maxStepBytes : Nat)
    (a : StorageStatus) :
    (w.verifyStep maxStepBytes a).1 = w ∧ (w.verifyStep maxStepBytes a).2.1 ≠ .ok := by
  unfold verifyStep
  split
  · exact ⟨rfl, nofun⟩
  · rw [if_pos (.inl h)]
    exact ⟨rfl, nofun⟩

end IapWriter

namespace PipelineContext

theorem push_out_of_sequence {x : IngestAdapter} {c : PipelineContext}
    (h : c.receivedSize ≠ x.writer.receivedSize + x.pending.length) (data : List UInt8)
    (a : ChunkAnswers) : (push x c data a).2.2 ≠ .ok := by
  unfold push
  split
  · nofun
  · split
    · nofun
    · have hchunk := IngestAdapter.writeChunk_out_of_sequence h data a
      simp only [hchunk, ne_eq, not_false_eq_true, if_true]

end PipelineContext

namespace IapState

variable {s t : IapState} {e : IapEvent} {es : List IapEvent} {c : Nat} {image rest : List UInt8}

def abortStatus (s : IapState) (c : Nat) : IngestStatus :=
  (PipelineContext.abort s.adapter (s.pipelines c)).2.2

/-- While `c` uploads, it pushes its parts, and what other pipelines ask for is refused. -/
def Turn (c : Nat) (s : IapState) : IapEvent → Prop
  | .push d data a =>
    if d = c then data ≠ [] ∧ a.first.status = .ok ∧ a.main.status = .ok
    else s.pushStatus d data a ≠ .ok
  | .begin d contentSize a => d ≠ c ∧ s.beginStatus contentSize a ≠ .ok
  | .finish d => d ≠ c ∧ s.finishStatus d ≠ .ok
  | .abort d => d ≠ c ∧ s.abortStatus d ≠ .ok
  | _ => True

def sent (c : Nat) : List IapEvent → List UInt8
  | [] => []
  | .push d data _ :: es => if d = c then data ++ sent c es else sent c es
  | _ :: es => sent c es

def Served (c : Nat) (s : IapState) : IapEvent → Prop
  | .push d data a => d = c → s.pushStatus c data a = .ok
  | _ => True

/-- No pipeline begins with a size while bytes of another one wait. -/
def Spared (s : IapState) : IapEvent → Prop
  | .begin _ contentSize _ => contentSize ≠ 0 → s.adapter.pending = []
  | _ => True

structure Occupied (c : Nat) (s : IapState) : Prop where
  active : (s.pipelines c).active = true
  solo : s.Solo
  registered : s.registered = true

structure Ongoing (c : Nat) (image rest : List UInt8) (s : IapState) : Prop where
  uploading : (s.pipelines c).Uploading image rest s.adapter
  occupied : s.Occupied c

structure Disturbed (c : Nat) (s : IapState) : Prop where
  lost : s.writer.receivedSize + s.adapter.pending.length < (s.pipelines c).receivedSize
  occupied : s.Occupied c

structure Beside (c : Nat) (s : IapState) (e : IapEvent) (t : IapState) : Prop where
  pipeline : t.pipelines c = s.pipelines c
  occupied : t.Occupied c
  writer : t.writer = s.writer
  spared : s.Spared e → t.adapter = s.adapter
  cleared : ¬s.Spared e → t.adapter.pending = []

theorem Occupied.idle {d : Nat} (h : s.Occupied c) (hd : d ≠ c) : (s.pipelines d).active = false := by
  cases hactive : (s.pipelines d).active with
  | false => rfl
  | true => exact absurd (h.solo.one d c hactive h.active) hd

theorem Occupied.beside_self (h : s.Occupied c) (he : s.Spared e) : Beside c s e s :=
  ⟨rfl, h, rfl, fun _ => rfl, fun hnot => absurd he hnot⟩

theorem Occupied.beside_verify (h : s.Occupied c) (he : s.Spared e) (ha : t.adapter = s.adapter)
    (hp : t.pipelines = s.pipelines) (hr : t.registered = s.registered) : Beside c s e t := by
  have hw : t.writer = s.writer := congrArg IngestAdapter.writer ha
  refine ⟨congrFun hp c, ⟨?_, ⟨?_, ?_⟩, hr.trans h.registered⟩, hw, fun _ => ha,
    fun hnot => absurd he hnot⟩
  · rw [hp]
    exact h.active
  · rw [hp, hw]
    exact h.solo.writer
  · rw [hp]
    exact h.solo.one

theorem Occupied.begin {d contentSize : Nat} {a : EraseAnswer} (h : s.Occupied c) (hd : d ≠ c) :
    Beside c s (.begin d contentSize a) (s.postBegin d contentSize a) := by
  have hwriter := h.solo.writer c h.active
  have hrefused : s.adapter.begin contentSize a = ({ writer := s.writer, pending := [] }, .state) := by
    have hbegin : s.writer.begin contentSize a = (s.writer, .state) := by
      unfold IapWriter.begin
      rw [if_pos hwriter]
    unfold IngestAdapter.begin
    rw [hbegin]
    rfl
  have hbegin : PipelineContext.begin s.adapter s.registered .reset contentSize a =
      if contentSize = 0 then (s.adapter, .reset, .param)
      else ({ writer := s.writer, pending := [] }, .reset, .state) := by
    unfold PipelineContext.begin
    rw [h.registered, hrefused]
    rfl
  unfold postBegin
  rw [hbegin]
  have hsolo : ∀ x : IngestAdapter, x.writer = s.writer →
      (setPipeline { s.verifyReset with adapter := x } d .reset).Solo := fun x hx =>
    h.solo.setPipeline rfl (fun _ => (congrArg IapWriter.active hx).trans hwriter) nofun
  have hc : ∀ u : IapState, u.pipelines = s.pipelines →
      (u.setPipeline d .reset).pipelines c = s.pipelines c := by
    intro u hu
    rw [setPipeline_pipelines, if_neg (Ne.symm hd), hu]
  by_cases hzero : contentSize = 0
  · rw [if_pos hzero]
    have hc := hc { s.verifyReset with adapter := s.adapter } rfl
    exact ⟨hc, ⟨(congrArg _ hc).trans h.active, hsolo _ rfl, h.registered⟩, rfl, fun _ => rfl,
      fun hnot => absurd (fun hsize => absurd hzero hsize) hnot⟩
  · rw [if_neg hzero]
    have hc := hc { s.verifyReset with adapter := { writer := s.writer, pending := [] } } rfl
    refine ⟨hc, ⟨(congrArg _ hc).trans h.active, hsolo _ rfl, h.registered⟩, rfl, ?_, fun _ => rfl⟩
    intro hspared
    show ({ writer := s.writer, pending := [] } : IngestAdapter) = s.adapter
    rw [← hspared hzero]

theorem verifyRequest_same (s : IapState) :
    s.verifyRequest.adapter = s.adapter ∧ s.verifyRequest.pipelines = s.pipelines ∧
      s.verifyRequest.registered = s.registered := by
  unfold verifyRequest
  split
  · exact ⟨rfl, rfl, rfl⟩
  · exact ⟨rfl, rfl, rfl⟩

theorem Occupied.step (h : s.Occupied c) (hturn : s.Turn c e) (hother : ∀ data a, e ≠ .push c data a)
    (ht : step s e = some t) : Beside c s e t := by
  have hwriter := h.solo.writer c h.active
  cases e with
  | prepareUploadSlot a =>
    cases ht
    unfold prepareUploadSlot
    rw [if_pos hwriter]
    exact h.beside_self trivial
  | begin d contentSize a =>
    cases ht
    exact h.begin hturn.1
  | push d data a =>
    cases ht
    have hd : d ≠ c := fun hdc => hother data a (hdc ▸ rfl)
    have hpush : PipelineContext.push s.adapter (s.pipelines d) data a =
        (s.adapter, s.pipelines d, .param) := by
      unfold PipelineContext.push
      rw [if_pos (.inl (h.idle hd))]
    unfold push
    rw [hpush]
    show Beside c s _ (s.setPipeline d (s.pipelines d))
    rw [setPipeline_eq_self]
    exact h.beside_self trivial
  | finish d =>
    cases ht
    have hfinish : PipelineContext.finish s.adapter (s.pipelines d) =
        (s.adapter, s.pipelines d, .state) := if_pos (h.idle hturn.1)
    unfold postFinish
    rw [hfinish]
    show Beside c s _ (s.setPipeline d (s.pipelines d))
    rw [setPipeline_eq_self]
    exact h.beside_self trivial
  | abort d =>
    cases ht
    have habort : PipelineContext.abort s.adapter (s.pipelines d) =
        (s.adapter, s.pipelines d, .state) := if_pos (h.idle hturn.1)
    unfold abort
    rw [habort]
    show Beside c s _ (s.setPipeline d (s.pipelines d))
    rw [setPipeline_eq_self]
    exact h.beside_self trivial
  | verifyRequest =>
    cases ht
    obtain ⟨ha, hp, hr⟩ := verifyRequest_same s
    exact h.beside_verify trivial ha hp hr
  | verifyPoll a =>
    cases ht
    obtain ⟨hsame, hfail⟩ := IapWriter.verifyStep_of_active hwriter iapVerifyStepBytes a
    have hstep : Beside c s (.verifyPoll a) (s.verifyPollStep a) := by
      unfold verifyPollStep
      simp only [hfail, hsame, ne_eq, not_false_eq_true, if_true]
      exact h.beside_verify trivial rfl rfl rfl
    unfold verifyPoll
    split
    · split
      · exact h.beside_verify trivial rfl rfl rfl
      · exact hstep
    · exact hstep
    · exact h.beside_self trivial
  | verifyReset =>
    cases ht
    exact h.beside_verify trivial rfl rfl rfl

theorem Ongoing.beside (h : s.Ongoing c image rest) (hb : Beside c s e t) (he : s.Spared e) :
    t.Ongoing c image rest := by
  refine ⟨?_, hb.occupied⟩
  rw [hb.pipeline, hb.spared he]
  exact h.uploading

theorem Disturbed.beside (h : s.Disturbed c) (hb : Beside c s e t) : t.Disturbed c := by
  refine ⟨?_, hb.occupied⟩
  rw [hb.pipeline, hb.writer]
  have hlost := h.lost
  by_cases he : s.Spared e
  · rw [hb.spared he]
    exact hlost
  · rw [hb.cleared he, List.length_nil]
    omega

theorem Ongoing.disturbed (h : s.Ongoing c image rest) (hb : Beside c s e t) (he : ¬s.Spared e) :
    t.Disturbed c := by
  refine ⟨?_, hb.occupied⟩
  have hwaiting : s.adapter.pending ≠ [] := by
    intro hnil
    apply he
    cases e with
    | begin d contentSize a => exact fun _ => hnil
    | prepareUploadSlot a => trivial
    | push d data a => trivial
    | finish d => trivial
    | abort d => trivial
    | verifyRequest => trivial
    | verifyPoll a => trivial
    | verifyReset => trivial
  have hpos := List.length_pos_iff.mpr hwaiting
  rw [hb.pipeline, hb.writer, hb.cleared he, h.uploading.received, List.length_nil]
  exact Nat.add_lt_add_left hpos _

@[simp] theorem push_pipeline (s : IapState) (c : Nat) (data : List UInt8) (a : ChunkAnswers) :
    (s.push c data a).pipelines c = (PipelineContext.push s.adapter (s.pipelines c) data a).2.1 :=
  if_pos rfl

theorem Occupied.push (h : s.Occupied c) (data : List UInt8) (a : ChunkAnswers) :
    (s.push c data a).Occupied c := by
  refine ⟨?_, h.solo.push c data a, h.registered⟩
  rw [push_pipeline, PipelineContext.push_active]
  exact h.active

theorem Ongoing.push {data : List UInt8} {a : ChunkAnswers} (h : s.Ongoing c image (data ++ rest))
    (hne : data ≠ []) (hfirst : a.first.status = .ok) (hmain : a.main.status = .ok) :
    s.pushStatus c data a = .ok ∧ (s.push c data a).Ongoing c image rest := by
  obtain ⟨hok, huploading, -⟩ := PipelineContext.push_uploading h.uploading hne hfirst hmain
  refine ⟨hok, ?_, h.occupied.push data a⟩
  rw [push_pipeline]
  exact huploading

theorem Disturbed.push (h : s.Disturbed c) (data : List UInt8) (a : ChunkAnswers) :
    s.pushStatus c data a ≠ .ok :=
  PipelineContext.push_out_of_sequence (Nat.ne_of_gt h.lost) data a

theorem sent_of_other (hother : ∀ data a, e ≠ .push c data a) : sent c (e :: es) = sent c es := by
  cases e with
  | push d data a =>
    have hd : d ≠ c := fun hdc => hother data a (hdc ▸ rfl)
    rw [sent, if_neg hd]
  | begin d contentSize a => rfl
  | prepareUploadSlot a => rfl
  | finish d => rfl
  | abort d => rfl
  | verifyRequest => rfl
  | verifyPoll a => rfl
  | verifyReset => rfl

theorem sent_push (c : Nat) (data : List UInt8) (a : ChunkAnswers) (es : List IapEvent) :
    sent c (.push c data a :: es) = data ++ sent c es := by rw [sent, if_pos rfl]

theorem served_of_other (hother : ∀ data a, e ≠ .push c data a) : Served c s e := by
  cases e with
  | push d data a => exact fun hd => absurd (hd ▸ rfl) (hother data a)
  | begin d contentSize a => trivial
  | prepareUploadSlot a => trivial
  | finish d => trivial
  | abort d => trivial
  | verifyRequest => trivial
  | verifyPoll a => trivial
  | verifyReset => trivial

theorem eq_push_or (c : Nat) (e : IapEvent) :
    (∃ data a, e = .push c data a) ∨ ∀ data a, e ≠ .push c data a := by
  by_cases h : ∃ data a, e = .push c data a
  · exact .inl h
  · exact .inr fun data a he => h ⟨data, a, he⟩

theorem turn_push {data : List UInt8} {a : ChunkAnswers} (h : s.Turn c (.push c data a)) :
    data ≠ [] ∧ a.first.status = .ok ∧ a.main.status = .ok := by
  simpa only [Turn, if_pos] using h

theorem Ongoing.run (h : s.Ongoing c image (sent c es ++ rest)) (hturn : Step.Along step (Turn c) s es)
    (hspared : Step.Along step Spared s es) (hrun : Step.run step s es = some t) :
    t.Ongoing c image rest ∧ Step.Along step (Served c) s es := by
  induction es generalizing s with
  | nil =>
    cases hrun
    exact ⟨h, trivial⟩
  | cons e es ih =>
    obtain ⟨u, hu, hrun⟩ := Step.run_cons_eq_some.mp hrun
    have hone : ∀ v, step s e = some v → u = v := fun v hv => Option.some.inj (hu.symm.trans hv)
    rcases eq_push_or c e with ⟨data, a, rfl⟩ | hother
    · obtain ⟨hne, hfirst, hmain⟩ := turn_push hturn.1
      rw [sent_push, List.append_assoc] at h
      obtain ⟨hserved, hnext⟩ := h.push hne hfirst hmain
      cases hu
      obtain ⟨hend, hrest⟩ := ih hnext (hturn.2 _ rfl) (hspared.2 _ rfl) hrun
      exact ⟨hend, fun _ => hserved, fun v hv => hone v hv ▸ hrest⟩
    · rw [sent_of_other hother] at h
      have hnext := h.beside (h.occupied.step hturn.1 hother hu) hspared.1
      obtain ⟨hend, hrest⟩ := ih hnext (hturn.2 u hu) (hspared.2 u hu) hrun
      exact ⟨hend, served_of_other hother, fun v hv => hone v hv ▸ hrest⟩

theorem Disturbed.run (h : s.Disturbed c) (hturn : Step.Along step (Turn c) s es)
    (hserved : Step.Along step (Served c) s es) (hrun : Step.run step s es = some t) :
    sent c es = [] := by
  induction es generalizing s with
  | nil => rfl
  | cons e es ih =>
    obtain ⟨u, hu, hrun⟩ := Step.run_cons_eq_some.mp hrun
    rcases eq_push_or c e with ⟨data, a, rfl⟩ | hother
    · exact absurd (hserved.1 rfl) (h.push data a)
    · rw [sent_of_other hother]
      exact ih (h.beside (h.occupied.step hturn.1 hother hu)) (hturn.2 u hu) (hserved.2 u hu) hrun

theorem Ongoing.spared_of_last (h : s.Ongoing c image []) (e : IapEvent) : s.Spared e := by
  cases e with
  | begin d contentSize a => exact fun _ => h.uploading.receiving.pending_of_last
  | prepareUploadSlot a => trivial
  | push d data a => trivial
  | finish d => trivial
  | abort d => trivial
  | verifyRequest => trivial
  | verifyPoll a => trivial
  | verifyReset => trivial

theorem Ongoing.spared (h : s.Ongoing c image (sent c es)) (hturn : Step.Along step (Turn c) s es)
    (hserved : Step.Along step (Served c) s es) (hrun : Step.run step s es = some t) :
    Step.Along step Spared s es := by
  induction es generalizing s with
  | nil => trivial
  | cons e es ih =>
    obtain ⟨u, hu, hrun⟩ := Step.run_cons_eq_some.mp hrun
    have hone : ∀ v, step s e = some v → u = v := fun v hv => Option.some.inj (hu.symm.trans hv)
    rcases eq_push_or c e with ⟨data, a, rfl⟩ | hother
    · obtain ⟨hne, hfirst, hmain⟩ := turn_push hturn.1
      rw [sent_push] at h
      obtain ⟨-, hnext⟩ := h.push hne hfirst hmain
      cases hu
      have hrest := ih hnext (hturn.2 _ rfl) (hserved.2 _ rfl) hrun
      exact ⟨trivial, fun v hv => hone v hv ▸ hrest⟩
    · rw [sent_of_other hother] at h
      have hb := h.occupied.step hturn.1 hother hu
      by_cases he : s.Spared e
      · have hrest := ih (h.beside hb he) (hturn.2 u hu) (hserved.2 u hu) hrun
        exact ⟨he, fun v hv => hone v hv ▸ hrest⟩
      · have hnone := (h.disturbed hb he).run (hturn.2 u hu) (hserved.2 u hu) hrun
        rw [hnone] at h
        exact absurd (h.spared_of_last e) he

theorem step_registered (ht : step s e = some t) : t.registered = s.registered := by
  cases e with
  | prepareUploadSlot a =>
    cases ht
    unfold prepareUploadSlot
    split
    · rfl
    · dsimp only
      split
      · rfl
      · rfl
  | begin d contentSize a =>
    cases ht
    rfl
  | push d data a =>
    cases ht
    rfl
  | finish d =>
    cases ht
    unfold postFinish
    dsimp only
    split
    · exact (verifyRequest_same _).2.2
    · rfl
  | abort d =>
    cases ht
    rfl
  | verifyRequest =>
    cases ht
    exact (verifyRequest_same s).2.2
  | verifyPoll a =>
    cases ht
    have hstep : (s.verifyPollStep a).registered = s.registered := by
      unfold verifyPollStep
      dsimp only
      split
      · rfl
      · rfl
    unfold verifyPoll
    split
    · split
      · rfl
      · exact hstep
    · exact hstep
    · rfl
  | verifyReset =>
    cases ht
    rfl

theorem run_solo_registered {config : IapWriterConfig} {slot : Slot} {pre : List IapEvent}
    (h : Step.run step (start config slot) pre = some s) : s.Solo ∧ s.registered = true :=
  Step.run_invariant (I := fun s => s.Solo ∧ s.registered = true)
    (fun hs ht => ⟨step_solo hs.1 ht, (step_registered ht).trans hs.2⟩) ⟨⟨nofun, nofun⟩, rfl⟩ h

theorem Ongoing.begin {a : EraseAnswer} (hsolo : s.Solo) (hregistered : s.registered = true)
    (hsmall : s.writer.config.progSize ≤ ingestAdapterAlignMax)
    (hok : s.beginStatus image.length a = .ok) :
    (s.postBegin c image.length a).Ongoing c image image := by
  have hsolo := hsolo.postBegin c image.length a
  have hregistered' := hregistered
  unfold beginStatus at hok
  rw [hregistered] at hok
  obtain ⟨hbegun, -⟩ := PipelineContext.begin_uploading hsmall hok
  have hpipeline : (s.postBegin c image.length a).pipelines c =
      (PipelineContext.begin s.adapter true .reset image.length a).2.1 := by
    unfold postBegin
    rw [setPipeline_pipelines, if_pos rfl, hregistered]
  have hadapter : (s.postBegin c image.length a).adapter =
      (PipelineContext.begin s.adapter true .reset image.length a).1 := by
    show (PipelineContext.begin s.adapter s.registered .reset image.length a).1 = _
    rw [hregistered]
  refine ⟨?_, ?_, hsolo, hregistered'⟩
  · rw [hpipeline, hadapter]
    exact hbegun
  · rw [hpipeline]
    exact hbegun.active

theorem Ongoing.finish (h : s.Ongoing c image []) :
    s.finishStatus c = .ok ∧ (s.postFinish c).writer.slot.slice 0 image.length = image := by
  obtain ⟨hok, hslot, hcontent⟩ := PipelineContext.finish_uploading h.uploading
  refine ⟨hok, ?_⟩
  have hwriter : (s.postFinish c).writer = (PipelineContext.finish s.adapter (s.pipelines c)).1.writer := by
    unfold postFinish
    dsimp only
    rw [if_pos hok]
    exact congrArg IngestAdapter.writer (verifyRequest_same _).1
  rw [hwriter, hslot]
  exact hcontent

/-- Whatever other pipelines ask for and are refused, an upload is taken to its end exactly if none
of them begins while bytes of the upload wait. -/
theorem upload_undisturbed_iff {config : IapWriterConfig} {slot : Slot} {pre : List IapEvent}
    {a : EraseAnswer} (hpre : Step.run step (start config slot) pre = some s)
    (hsmall : s.writer.config.progSize ≤ ingestAdapterAlignMax)
    (hbegin : s.beginStatus image.length a = .ok)
    (hturn : Step.Along step (Turn c) (s.postBegin c image.length a) es) (hsent : sent c es = image)
    (hrun : Step.run step (s.postBegin c image.length a) es = some t) :
    (Step.Along step (Served c) (s.postBegin c image.length a) es ∧ t.finishStatus c = .ok ∧
        (t.postFinish c).writer.slot.slice 0 image.length = image) ↔
      Step.Along step Spared (s.postBegin c image.length a) es := by
  obtain ⟨hsolo, hregistered⟩ := run_solo_registered hpre
  have hongoing : ∀ rest, rest = image → (s.postBegin c image.length a).Ongoing c image rest := by
    rintro rest rfl
    exact .begin hsolo hregistered hsmall hbegin
  constructor
  · rintro ⟨hserved, -, -⟩
    exact (hongoing _ hsent).spared hturn hserved hrun
  · intro hspared
    have hall : sent c es ++ [] = image := (List.append_nil _).trans hsent
    obtain ⟨hend, hserved⟩ := (hongoing _ hall).run hturn hspared hrun
    exact ⟨hserved, hend.finish⟩

def blank : Slot where
  bytes := fun _ => 0
  touched := fun _ => false

def erased : EraseAnswer where
  status := .ok
  erased := fun _ => true

def bothTaken : ChunkAnswers where
  first := okWrite
  main := okWrite

def intrusion : List IapEvent :=
  [.push 0 (List.replicate 10 7) bothTaken, .begin 1 32 erased,
    .push 0 (List.replicate 54 7) bothTaken]

theorem refused_begin_disturbs :
    ¬∀ (config : IapWriterConfig) (slot : Slot) (pre es : List IapEvent) (s t : IapState) (c : Nat)
      (image : List UInt8) (a : EraseAnswer), Step.run step (start config slot) pre = some s →
      s.writer.config.progSize ≤ ingestAdapterAlignMax → s.beginStatus image.length a = .ok →
      Step.Along step (Turn c) (s.postBegin c image.length a) es → sent c es = image →
      Step.run step (s.postBegin c image.length a) es = some t →
      Step.Along step (Served c) (s.postBegin c image.length a) es ∧ t.finishStatus c = .ok ∧
        (t.postFinish c).writer.slot.slice 0 image.length = image := by
  intro h
  have hturn : Step.Along step (Turn 0) ((start Upload.twoWords blank).postBegin 0 64 erased) intrusion := by
    refine ⟨⟨nofun, rfl, rfl⟩, ?_⟩
    rintro t ⟨⟩
    refine ⟨⟨nofun, by decide +kernel⟩, ?_⟩
    rintro t ⟨⟩
    exact ⟨⟨nofun, rfl, rfl⟩, fun _ _ => trivial⟩
  obtain ⟨hserved, -⟩ := h Upload.twoWords blank [] intrusion _ _ 0 (List.replicate 64 7) erased rfl
    (by decide) (by decide +kernel) hturn (by decide +kernel) rfl
  exact absurd ((hserved.2 _ rfl |>.2 _ rfl).1 rfl) (by decide +kernel)

/-- The second pipeline asks once the first 32 bytes are in the slot. -/
theorem upload_undisturbed_iff_between :
    ∃ t, Step.run step ((start Upload.twoWords blank).postBegin 0 (List.replicate 64 (7 : UInt8)).length erased)
        [.push 0 (List.replicate 32 7) bothTaken, .begin 1 32 erased,
          .push 0 (List.replicate 32 7) bothTaken] = some t ∧ t.finishStatus 0 = .ok := by
  have hturn : Step.Along step (Turn 0)
      ((start Upload.twoWords blank).postBegin 0 (List.replicate 64 (7 : UInt8)).length erased)
      [.push 0 (List.replicate 32 7) bothTaken, .begin 1 32 erased,
        .push 0 (List.replicate 32 7) bothTaken] := by
    refine ⟨⟨nofun, rfl, rfl⟩, ?_⟩
    rintro t ⟨⟩
    refine ⟨⟨nofun, by decide +kernel⟩, ?_⟩
    rintro t ⟨⟩
    exact ⟨⟨nofun, rfl, rfl⟩, fun _ _ => trivial⟩
  have hspared : Step.Along step Spared
      ((start Upload.twoWords blank).postBegin 0 (List.replicate 64 (7 : UInt8)).length erased)
      [.push 0 (List.replicate 32 7) bothTaken, .begin 1 32 erased,
        .push 0 (List.replicate 32 7) bothTaken] := by
    refine ⟨trivial, ?_⟩
    rintro t ⟨⟩
    refine ⟨fun _ => by decide +kernel, ?_⟩
    rintro t ⟨⟩
    exact ⟨trivial, fun _ _ => trivial⟩
  have hpre : Step.run step (start Upload.twoWords blank) [] = some (start Upload.twoWords blank) := rfl
  have hbegin : (start Upload.twoWords blank).beginStatus (List.replicate 64 (7 : UInt8)).length erased =
      .ok := by decide +kernel
  refine (fun hrun => ⟨_, hrun, ((upload_undisturbed_iff hpre (by decide) hbegin hturn
    (by decide +kernel) hrun).mpr hspared).2.1⟩) rfl

end IapState

end CanSniffer.Iap
