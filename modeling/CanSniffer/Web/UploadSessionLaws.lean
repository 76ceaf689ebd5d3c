import CanSniffer.Web.UploadSession

namespace CanSniffer.Iap

theorem IapWriter.writeChunk_expectedSize (w : IapWriter) (offset : Nat) (data : List UInt8)
    (a : WriteAnswer) : (w.writeChunk offset data a).1.expectedSize = w.expectedSize := by
  rcases w.writeChunk_result offset data a with ⟨-, hw | hw⟩ | ⟨-, hw⟩
  · rw [hw]
  · rw [hw]
  · rw [hw]
    rfl

namespace IapState

variable {s : IapState} {c d : Nat}

theorem push_of_inactive (h : (s.pipelines c).active = false) (data : List UInt8)
    (a : ChunkAnswers) : s.push c data a = s ∧ s.pushStatus c data a = .param := by
  have hpush : PipelineContext.push s.adapter (s.pipelines c) data a =
      (s.adapter, s.pipelines c, .param) := if_pos (.inl h)
  refine ⟨?_, ?_⟩
  · unfold IapState.push
    rw [hpush]
    exact s.setPipeline_eq_self c
  · unfold pushStatus
    rw [hpush]

theorem abort_of_inactive (h : (s.pipelines c).active = false) : s.abort c = s := by
  have habort : PipelineContext.abort s.adapter (s.pipelines c) =
      (s.adapter, s.pipelines c, .state) := if_pos h
  unfold IapState.abort
  rw [habort]
  exact s.setPipeline_eq_self c

theorem postFinish_of_inactive (h : (s.pipelines c).active = false) :
    s.postFinish c = s ∧ s.finishStatus c = .state := by
  have hfinish : PipelineContext.finish s.adapter (s.pipelines c) =
      (s.adapter, s.pipelines c, .state) := if_pos h
  refine ⟨?_, ?_⟩
  · unfold IapState.postFinish
    rw [hfinish]
    exact s.setPipeline_eq_self c
  · unfold finishStatus
    rw [hfinish]

theorem push_pipeline_active (s : IapState) (c : Nat) (data : List UInt8) (a : ChunkAnswers) :
    ((s.push c data a).pipelines c).active = (s.pipelines c).active := by
  unfold IapState.push
  dsimp only
  rw [setPipeline_pipelines, if_pos rfl]
  exact PipelineContext.push_active ..

theorem Solo.inactive (h : s.Solo) (hc : (s.pipelines c).active = true) (hne : d ≠ c) :
    (s.pipelines d).active = false := by
  cases hd : (s.pipelines d).active with
  | false => rfl
  | true => exact absurd (h.one d c hd hc) hne

structure Apart (s t : IapState) (c : Nat) : Prop where
  pipelines : ∀ d, d ≠ c → t.pipelines d = s.pipelines d
  adapter : ∀ d, d ≠ c → (s.pipelines d).active = true → t.adapter = s.adapter

theorem Apart.of_inactive {t : IapState} (hpipes : ∀ d, d ≠ c → t.pipelines d = s.pipelines d)
    (h : s.Solo) (hsame : (s.pipelines c).active = false → t.adapter = s.adapter) : s.Apart t c :=
  ⟨hpipes, fun _ hd hactive => hsame (h.inactive hactive hd.symm)⟩

theorem Apart.trans {t u : IapState} (h : s.Apart t c) (h' : t.Apart u c) : s.Apart u c := by
  constructor
  · intro d hd
    exact (h'.pipelines d hd).trans (h.pipelines d hd)
  · intro d hd hactive
    have hstill : (t.pipelines d).active = true := by
      rw [h.pipelines d hd]
      exact hactive
    exact (h'.adapter d hd hstill).trans (h.adapter d hd hactive)

theorem setPipeline_pipelines_of_ne (s : IapState) {p : PipelineContext} (h : d ≠ c) :
    (s.setPipeline c p).pipelines d = s.pipelines d := if_neg h

theorem push_apart (h : s.Solo) (c : Nat) (data : List UInt8) (a : ChunkAnswers) :
    s.Apart (s.push c data a) c :=
  .of_inactive (fun _ hd => setPipeline_pipelines_of_ne _ hd) h fun hc =>
    congrArg IapState.adapter (push_of_inactive hc data a).1

theorem abort_inactive (s : IapState) (c : Nat) : ((s.abort c).pipelines c).active = false := by
  rcases PipelineContext.abort_cases s.adapter (s.pipelines c) with ⟨hc, -⟩ | ⟨-, hreset, -⟩
  · rw [abort_of_inactive hc]
    exact hc
  · unfold IapState.abort
    dsimp only
    rw [setPipeline_pipelines, if_pos rfl, hreset]
    rfl

theorem abort_apart (h : s.Solo) (c : Nat) : s.Apart (s.abort c) c :=
  .of_inactive (fun _ hd => setPipeline_pipelines_of_ne _ hd) h fun hc =>
    congrArg IapState.adapter (abort_of_inactive hc)

theorem verifyRequest_pipelines (s : IapState) : s.verifyRequest.pipelines = s.pipelines := by
  unfold verifyRequest
  split
  · rfl
  · rfl

theorem postFinish_apart (h : s.Solo) (c : Nat) : s.Apart (s.postFinish c) c := by
  refine .of_inactive ?_ h fun hc => congrArg IapState.adapter (postFinish_of_inactive hc).1
  intro d hd
  unfold IapState.postFinish
  dsimp only
  split
  · rw [verifyRequest_pipelines]
    exact setPipeline_pipelines_of_ne _ hd
  · exact setPipeline_pipelines_of_ne _ hd

theorem postFinish_inactive (s : IapState) (c : Nat) :
    ((s.postFinish c).pipelines c).active = false := by
  rcases PipelineContext.finish_cases s.adapter (s.pipelines c) with ⟨hc, -⟩ | ⟨-, hreset, -⟩
  · rw [(postFinish_of_inactive hc).1]
    exact hc
  · unfold IapState.postFinish
    dsimp only
    split
    · rw [verifyRequest_pipelines]
      exact congrArg PipelineContext.active ((if_pos rfl).trans hreset)
    · exact congrArg PipelineContext.active ((if_pos rfl).trans hreset)

theorem postFinish_uploaded_of_failed (h : s.finishStatus c ≠ .ok) :
    (s.postFinish c).uploaded = s.uploaded := by
  unfold finishStatus at h
  unfold IapState.postFinish
  dsimp only
  rw [if_neg h]
  rfl

theorem prepareUploadSlot_pipelines (s : IapState) (a : EraseAnswer) :
    (s.prepareUploadSlot a).1.pipelines = s.pipelines := by
  unfold prepareUploadSlot
  split
  · rfl
  · dsimp only
    split
    · rfl
    · rfl

theorem prepareUploadSlot_uploaded (s : IapState) (a : EraseAnswer) :
    (s.prepareUploadSlot a).1.uploaded = s.uploaded := by
  unfold prepareUploadSlot
  split
  · rfl
  · dsimp only
    split
    · rfl
    · rfl

theorem verifyPollStep_pipelines (s : IapState) (a : StorageStatus) :
    (s.verifyPollStep a).pipelines = s.pipelines ∧ (s.verifyPollStep a).uploaded = s.uploaded := by
  unfold verifyPollStep
  dsimp only
  split
  · exact ⟨rfl, rfl⟩
  · exact ⟨rfl, rfl⟩

theorem verifyPoll_pipelines (s : IapState) (a : StorageStatus) :
    (s.verifyPoll a).pipelines = s.pipelines := by
  unfold verifyPoll
  split
  · split
    · rfl
    · exact (s.verifyPollStep_pipelines a).1
  · exact (s.verifyPollStep_pipelines a).1
  · rfl

theorem verifyPoll_uploaded (s : IapState) (a : StorageStatus) :
    (s.verifyPoll a).uploaded = s.uploaded := by
  unfold verifyPoll
  split
  · split
    · rfl
    · exact (s.verifyPollStep_pipelines a).2
  · exact (s.verifyPollStep_pipelines a).2
  · rfl

theorem verifyPoll_of_not_settled {a : StorageStatus} (h : ¬s.Settled) : s.verifyPoll a = s := by
  unfold verifyPoll
  split
  · next hpending => exact absurd (.inl hpending) h
  · next hverifying => exact absurd (.inr (.inl hverifying)) h
  · rfl

end IapState

end CanSniffer.Iap

namespace CanSniffer.Web

open Lib Iap

namespace Streams

variable {iap iap' : IapState} {e e' : PostEntry} {i : Nat} {body : List UInt8}

/-- What an upload is does not hang on the connection of its entry. -/
structure SameUpload (e e' : PostEntry) : Prop where
  mode : e'.mode = e.mode
  iapFailed : e'.iapFailed = e.iapFailed
  received : e'.received = e.received
  contentLen : e'.contentLen = e.contentLen

theorem SameUpload.refl (e : PostEntry) : SameUpload e e := ⟨rfl, rfl, rfl, rfl⟩

theorem congr (h : Streams iap e i body) (he : SameUpload e e')
    (hadapter : iap'.adapter = iap.adapter) (hpipe : iap'.pipelines i = iap.pipelines i) :
    Streams iap' e' i body := by
  obtain ⟨hmode, hfailed, hreceived, hlen⟩ := he
  refine ⟨hmode.trans h.mode, hlen ▸ h.announced, hfailed.trans h.going, ?_, ?_, ?_, ?_, ?_⟩
  · rw [hreceived, hlen]
    exact h.received
  · rw [hpipe, hreceived]
    exact h.pipeline
  · rw [hlen]
    show iap'.adapter.writer.expectedSize = _
    rw [hadapter]
    exact h.expected
  · rw [hadapter, hreceived]
    exact h.count
  · rw [hadapter, hreceived, hlen]
    exact h.content

theorem received_le (h : Streams iap e i body) : e.received ≤ e.contentLen := by
  rw [h.received]
  exact List.length_take_le ..

theorem full (h : Streams iap e i body) (hfull : e.contentLen - e.received = 0)
    (data : List UInt8) : Streams iap e i (body ++ data) := by
  have hle := h.received_le
  have hlen : e.contentLen ≤ body.length := by
    have hreceived := h.received
    rw [List.length_take] at hreceived
    omega
  have htake : (body ++ data).take e.contentLen = body.take e.contentLen :=
    List.take_append_of_le_length hlen
  refine ⟨h.mode, h.announced, h.going, ?_, h.pipeline, h.expected, h.count, ?_⟩
  · rw [htake]
    exact h.received
  · rw [htake]
    exact h.content

theorem take_append (h : Streams iap e i body) (hroom : ¬e.contentLen - e.received = 0)
    (data : List UInt8) : (body ++ data).take e.contentLen =
      body.take e.contentLen ++ data.take (e.contentLen - e.received) := by
  have hreceived := h.received
  rw [List.length_take] at hreceived
  have hshort : body.length = e.received := by omega
  rw [List.take_append, hshort]

theorem pushed (h : Streams iap e i body)
    {data : List UInt8} {a : ChunkAnswers} (hroom : ¬e.contentLen - e.received = 0)
    (hok : iap.pushStatus i (data.take (e.contentLen - e.received)) a = .ok) :
    Streams (iap.push i (data.take (e.contentLen - e.received)) a)
      { e with received := e.received + (data.take (e.contentLen - e.received)).length } i
      (body ++ data) := by
  have htake := h.take_append hroom data
  generalize data.take (e.contentLen - e.received) = part at hok htake ⊢
  have hexpected : (PipelineContext.push iap.adapter (iap.pipelines i) part a).1.writer.expectedSize =
      iap.writer.expectedSize :=
    PipelineContext.push_writer (P := fun w => w.expectedSize = iap.writer.expectedSize) rfl
      (fun w offset d b hw => (w.writeChunk_expectedSize offset d b).trans hw) _ part a
  unfold IapState.pushStatus at hok
  obtain ⟨hcount, hgrown, hcontext⟩ := PipelineContext.push_grown hok
  have hsent := hcount.symm.trans h.pipeline
  unfold IapState.push
  generalize PipelineContext.push iap.adapter (iap.pipelines i) part a = r at hexpected hgrown hcontext ⊢
  refine ⟨h.mode, h.announced, h.going, ?_, ?_, hexpected.trans h.expected, ?_, ?_⟩
  · show e.received + part.length = ((body ++ data).take e.contentLen).length
    rw [htake, List.length_append, ← h.received]
  · show ((IapState.setPipeline { iap with adapter := r.1 } i r.2.1).pipelines i).receivedSize =
      e.received + part.length
    rw [IapState.setPipeline_pipelines, if_pos rfl, hcontext]
    exact congrArg (· + part.length) h.pipeline
  · show r.1.count ≤ e.received + part.length
    exact Nat.le_of_eq (hgrown.count.trans (congrArg (· + part.length) hsent))
  · intro _
    show r.1.content = (body ++ data).take e.contentLen
    rw [hgrown.content, htake, h.content hsent]

theorem begun {contentSize conn : Nat} {contentLen : Int} {a : EraseAnswer}
    (hpos : 0 < contentLen) (hsize : contentSize = contentLen.toNat)
    (hok : iap.beginStatus contentSize a = .ok) :
    Streams (iap.postBegin i contentSize a)
      (.alloc conn (contentLen % 0x100000000).toNat .iapBin) i [] := by
  obtain ⟨hfresh, hlt, -⟩ := PipelineContext.begin_fresh hok
  have hlen : contentSize = (contentLen % 0x100000000).toNat := by omega
  unfold IapState.postBegin
  generalize PipelineContext.begin iap.adapter iap.registered .reset contentSize a = r at hfresh
  refine ⟨rfl, by show 0 < (contentLen % 0x100000000).toNat; omega, rfl, by rw [List.take_nil]; rfl,
    ?_, ?_, ?_, ?_⟩
  · show ((IapState.setPipeline { iap.verifyReset with adapter := r.1 } i r.2.1).pipelines i).receivedSize
      = 0
    rw [IapState.setPipeline_pipelines, if_pos rfl]
    exact hfresh.received
  · exact hfresh.expected.trans hlen
  · exact Nat.le_of_eq hfresh.count
  · intro _
    rw [List.take_nil]
    exact hfresh.content

theorem finished (h : Streams iap e i body) (hok : iap.finishStatus i = .ok) :
    (iap.postFinish i).uploaded = some (body.take e.contentLen) ∧ e.contentLen ≤ body.length := by
  unfold IapState.finishStatus at hok
  obtain ⟨hcount, hpayload⟩ := PipelineContext.finish_content hok
  have hfull : e.received = e.contentLen :=
    Nat.le_antisymm h.received_le ((hcount.trans h.expected).symm ▸ h.count)
  have hcontent := h.content ((hcount.trans h.expected).trans hfull.symm)
  constructor
  · unfold IapState.postFinish
    dsimp only
    rw [if_pos hok, hpayload, hcontent]
    unfold IapState.verifyRequest
    split
    · rfl
    · rfl
  · have hreceived := h.received
    rw [List.length_take] at hreceived
    omega

theorem busy {c contentSize : Nat} {a : EraseAnswer} (h : Streams iap e i body) (hne : i ≠ c)
    (hbusy : iap.writer.active = true) : Streams (iap.postBegin c contentSize a) e i body := by
  obtain ⟨hwriter, hpending⟩ := PipelineContext.begin_busy (c := .reset) (n := contentSize)
    (a := a) iap.registered hbusy
  have hpipe : (iap.postBegin c contentSize a).pipelines i = iap.pipelines i :=
    IapState.setPipeline_pipelines_of_ne _ hne
  have hadapter : (iap.postBegin c contentSize a).adapter =
      (PipelineContext.begin iap.adapter iap.registered .reset contentSize a).1 := rfl
  generalize iap.postBegin c contentSize a = t at hpipe hadapter ⊢
  rw [← hadapter] at hwriter hpending
  refine ⟨h.mode, h.announced, h.going, h.received, ?_, ?_, ?_, ?_⟩
  · rw [hpipe]
    exact h.pipeline
  · exact (congrArg IapWriter.expectedSize hwriter).trans h.expected
  · rcases hpending with hsame | hnone
    · rw [IngestAdapter.count, hwriter, hsame]
      exact h.count
    · rw [IngestAdapter.count, hwriter, hnone]
      exact Nat.le_trans (Nat.le_add_right ..) h.count
  · rcases hpending with hsame | hnone
    · rw [IngestAdapter.count, IngestAdapter.content, hwriter, hsame]
      exact h.content
    · intro hcount
      rw [IngestAdapter.count, hwriter, hnone] at hcount
      -- nothing was waiting, or more has come than the entry knows of
      have hle := h.count
      unfold IngestAdapter.count at hle
      have hempty : iap.adapter.pending = [] :=
        List.eq_nil_of_length_eq_zero (by rw [List.length_nil] at hcount; omega)
      rw [IngestAdapter.content, hwriter, hnone, ← hempty]
      apply h.content
      rw [IngestAdapter.count, hempty]
      exact hcount

end Streams

namespace HttpdPost

variable {s : HttpdPost} {i j conn : Nat} {e : PostEntry}

theorem entry_setEntry_of_ne (h : j ≠ i) : (s.setEntry i e).entry j = s.entry j := by
  simp only [entry, setEntry, List.getD_eq_getElem?_getD, List.getElem?_set_ne h.symm]

theorem entry_setEntry_self (h : i < s.connMap.length) : (s.setEntry i e).entry i = e := by
  simp [entry, setEntry, List.getD_eq_getElem?_getD, h]

theorem lt_of_iapBin (h : (s.entry i).mode = .iapBin) : i < s.connMap.length := by
  rcases Nat.lt_or_ge i s.connMap.length with hlt | hge
  · exact hlt
  · simp [entry, List.getD_eq_getElem?_getD, List.getElem?_eq_none hge, PostEntry.empty] at h

theorem mapFreeIndex_lt (h : s.mapFreeIndex = some i) : i < s.connMap.length := by
  rw [mapFreeIndex, List.findIdx?_eq_some_iff_getElem] at h
  exact h.1

theorem mapFree_iap (s : HttpdPost) (conn : Nat) : (s.mapFree conn).iap = s.iap := by
  unfold mapFree
  split
  · rfl
  · rfl

theorem mapFree_entry (s : HttpdPost) (conn j : Nat) :
    Streams.SameUpload (s.entry j) ((s.mapFree conn).entry j) := by
  unfold mapFree
  split
  · next i _ =>
    by_cases hj : j = i
    · subst hj
      rcases Nat.lt_or_ge j s.connMap.length with hlt | hge
      · rw [entry_setEntry_self hlt]
        exact ⟨rfl, rfl, rfl, rfl⟩
      · have hset : s.setEntry j { s.entry j with conn := none } = s := by
          simp only [setEntry, List.set_eq_of_length_le hge]
        rw [hset]
        exact .refl _
    · rw [entry_setEntry_of_ne hj]
      exact .refl _
  · exact .refl _

end HttpdPost

namespace UploadLedger

theorem setBody_self (l : UploadLedger) (i : Nat) : l.setBody i (l.bodies i) = l := by
  have hsame : (l.setBody i (l.bodies i)).bodies = l.bodies := by
    funext j
    simp only [setBody]
    split
    · next hj => rw [hj]
    · rfl
  show { l with bodies := (l.setBody i (l.bodies i)).bodies } = l
  rw [hsame]

theorem setBody_setBody (l : UploadLedger) (i : Nat) (body body' : List UInt8) :
    (l.setBody i body).setBody i body' = l.setBody i body' := by
  unfold setBody
  congr 1
  funext j
  split
  · rfl
  · next hj => exact if_neg hj

theorem setBody_bodies (l : UploadLedger) (i : Nat) (body : List UInt8) :
    (l.setBody i body).bodies i = body := if_pos rfl

end UploadLedger

namespace Flow

variable {s t : HttpdPost} {l : UploadLedger} {i conn : Nat} {body : List UInt8}

theorem others (h : Flow s l) (hapart : s.iap.Apart t.iap i)
    (hentry : ∀ j, j ≠ i → Streams.SameUpload (s.entry j) (t.entry j)) :
    ∀ j, j ≠ i → (t.iap.pipelines j).active = true →
      Streams t.iap (t.entry j) j (l.bodies j) := by
  intro j hj hactive
  have hpipe := hapart.pipelines j hj
  rw [hpipe] at hactive
  exact (h.streams j hactive).congr (hentry j hj) (hapart.adapter j hj hactive) hpipe

theorem setBody (h : Flow s l) (hintact : t.iap.Intact) (hapart : s.iap.Apart t.iap i)
    (hentry : ∀ j, j ≠ i → Streams.SameUpload (s.entry j) (t.entry j))
    (huploaded : t.iap.uploaded = s.iap.uploaded)
    (hi : (t.iap.pipelines i).active = true → Streams t.iap (t.entry i) i body) :
    Flow t (l.setBody i body) := by
  refine ⟨hintact, ?_, ?_⟩
  · intro j hactive
    by_cases hj : j = i
    · subst hj
      rw [show (l.setBody j body).bodies j = body from if_pos rfl]
      exact hi hactive
    · rw [show (l.setBody i body).bodies j = l.bodies j from if_neg hj]
      exact h.others hapart hentry j hj hactive
  · rw [huploaded]
    exact h.uploaded

theorem pushSegment (h : Flow s (l.setBody i body)) (himage : (s.entry i).mode = .iapBin)
    (data : List UInt8) (a : ChunkAnswers) :
    Flow (s.pushSegment i data a) (l.setBody i (body ++ data)) := by
  have hlt := HttpdPost.lt_of_iapBin himage
  have hstreams := h.streams i
  rw [UploadLedger.setBody_bodies] at hstreams
  rw [← l.setBody_setBody i body]
  unfold HttpdPost.pushSegment
  dsimp only
  split
  · next hfailed =>
    refine h.setBody h.intact ⟨fun _ _ => rfl, fun _ _ _ => rfl⟩ (fun _ _ => .refl _) rfl ?_
    intro hactive
    exact absurd ((hstreams hactive).going.symm.trans hfailed) nofun
  · split
    · next hfull =>
      exact h.setBody h.intact ⟨fun _ _ => rfl, fun _ _ _ => rfl⟩ (fun _ _ => .refl _) rfl
        fun hactive => (hstreams hactive).full hfull data
    · next hroom =>
      have hpush := h.intact.push i (data.take ((s.entry i).contentLen - (s.entry i).received)) a
      have hapart := IapState.push_apart h.intact.inv.solo i
        (data.take ((s.entry i).contentLen - (s.entry i).received)) a
      split
      · refine h.setBody (hpush.abort i) (hapart.trans (IapState.abort_apart hpush.inv.solo i)) ?_ rfl
          ?_
        · intro j hj
          rw [HttpdPost.entry_setEntry_of_ne hj]
          exact .refl _
        · intro hactive
          exact absurd ((IapState.abort_inactive _ i).symm.trans hactive) nofun
      · next hok =>
        refine h.setBody hpush hapart ?_ rfl ?_
        · intro j hj
          rw [HttpdPost.entry_setEntry_of_ne hj]
          exact .refl _
        · intro hactive
          have hbefore : (s.iap.pipelines i).active = true :=
            (IapState.push_pipeline_active ..).symm.trans hactive
          rw [HttpdPost.entry_setEntry_self]
          · exact (hstreams hbefore).pushed hroom (Decidable.not_not.mp hok)
          · exact hlt

theorem receiveSegment (h : Flow s (l.setBody i body)) (data : List UInt8) (a : ChunkAnswers) :
    Flow (s.receiveSegment i data a).1 (l.setBody i (body ++ data)) := by
  unfold HttpdPost.receiveSegment
  dsimp only
  split
  · next hform =>
    rw [← l.setBody_setBody i body]
    refine h.setBody h.intact ⟨fun _ _ => rfl, fun _ _ _ => rfl⟩ ?_ rfl ?_
    · intro j hj
      rw [HttpdPost.entry_setEntry_of_ne hj]
      exact .refl _
    · intro hactive
      exact absurd (hform.symm.trans (h.streams i hactive).mode) nofun
  · next himage =>
    have himage : (s.entry i).mode = .iapBin := by
      cases hm : (s.entry i).mode with
      | formKv => exact absurd hm himage
      | iapBin => rfl
    exact h.pushSegment himage data a

theorem receiveSegments (h : Flow s (l.setBody i body)) (segments : List (List UInt8 × ChunkAnswers)) :
    Flow (s.receiveSegments i segments).1 (l.setBody i (body ++ segments.flatMap Prod.fst)) := by
  induction segments generalizing s body with
  | nil =>
    rw [List.flatMap_nil, List.append_nil]
    exact h
  | cons seg segs ih =>
    have hrest := ih (h.receiveSegment seg.1 seg.2)
    rwa [List.append_assoc] at hrest

theorem receiveData (h : Flow s l) (segments : List (List UInt8 × ChunkAnswers)) :
    Flow (s.receiveData conn segments).1 (l.note s conn (.receive segments)) := by
  unfold HttpdPost.receiveData UploadLedger.note
  dsimp only
  split
  · cases hlookup : s.mapLookup conn with
    | none => exact h
    | some i =>
      rw [← l.setBody_self i] at h
      exact h.receiveSegments segments
  · exact h

theorem free (h : Flow s l) (conn : Nat) (current valid : Option Nat) :
    Flow { s.mapFree conn with current, valid } l := by
  have hiap := s.mapFree_iap conn
  refine ⟨?_, ?_, ?_⟩
  · show (s.mapFree conn).iap.Intact
    rw [hiap]
    exact h.intact
  · intro j hactive
    have hactive : ((s.mapFree conn).iap.pipelines j).active = true := hactive
    rw [hiap] at hactive
    exact (h.streams j hactive).congr (s.mapFree_entry conn j) (congrArg IapState.adapter hiap)
      (congrFun (congrArg IapState.pipelines hiap) j)
  · show ∀ image, (s.mapFree conn).iap.uploaded = some image → _
    rw [hiap]
    exact h.uploaded

theorem same (h : Flow s l) (hiap : t.iap = s.iap) (hentry : t.connMap = s.connMap) : Flow t l := by
  have hentry : ∀ j, t.entry j = s.entry j := by
    intro j
    rw [HttpdPost.entry, hentry]
    rfl
  refine ⟨?_, ?_, ?_⟩
  · rw [hiap]
    exact h.intact
  · intro j
    rw [hiap, hentry]
    exact h.streams j
  · rw [hiap]
    exact h.uploaded

theorem beginIap {contentLen : Int} {a : EraseAnswer} (h : Flow s (l.setBody i []))
    (hfree : (s.iap.pipelines i).active = false)
    (hi : s.entry i = .alloc conn (contentLen % 0x100000000).toNat .iapBin) :
    Flow (s.beginIap i contentLen a).1 (l.setBody i []) := by
  unfold HttpdPost.beginIap
  dsimp only
  split
  · next hpos =>
    have hintact := h.intact.postBegin i contentLen.toNat a
    have hother : ∀ j, j ≠ i → (s.iap.postBegin i contentLen.toNat a).pipelines j =
        s.iap.pipelines j := fun j hj => IapState.setPipeline_pipelines_of_ne _ hj
    split
    · next hfail =>
      refine ⟨hintact, ?_, h.uploaded⟩
      intro j hactive
      by_cases hj : j = i
      · subst hj
        have hreset : (s.iap.postBegin j contentLen.toNat a).pipelines j = .reset :=
          (if_pos rfl).trans (PipelineContext.begin_failed hfail)
        exact absurd ((congrArg PipelineContext.active hreset).symm.trans hactive) nofun
      · have hbefore : (s.iap.pipelines j).active = true := hother j hj ▸ hactive
        exact (h.streams j hbefore).busy hj (h.intact.inv.solo.writer j hbefore)
    · next hok =>
      have hok := Decidable.not_not.mp hok
      refine ⟨hintact, ?_, h.uploaded⟩
      intro j hactive
      by_cases hj : j = i
      · subst hj
        rw [UploadLedger.setBody_bodies]
        show Streams _ (s.entry j) j []
        rw [hi]
        exact .begun hpos rfl hok
      · have hbefore : (s.iap.pipelines j).active = true := hother j hj ▸ hactive
        have hidle := (PipelineContext.begin_fresh hok).2.2
        exact absurd (hidle.symm.trans (h.intact.inv.solo.writer j hbefore)) nofun
  · refine ⟨h.intact.verifyReset, ?_, h.uploaded⟩
    intro j hactive
    exact (h.streams j hactive).congr (.refl _) rfl rfl

theorem alloc (h : Flow s l) (i conn contentLen : Nat) (mode : PostMode) :
    Flow { s with
      current := some conn
      valid := none
      connMap := s.connMap.set i (.alloc conn contentLen mode)
      iap := s.iap.setPipeline i .reset } (l.setBody i []) := by
  refine h.setBody (h.intact.resetPipeline i)
    ⟨fun j hj => IapState.setPipeline_pipelines_of_ne _ hj, fun _ _ _ => rfl⟩ ?_ rfl ?_
  · intro j hj
    have hentry := HttpdPost.entry_setEntry_of_ne (s := s) (e := .alloc conn contentLen mode) hj
    exact ⟨congrArg PostEntry.mode hentry, congrArg PostEntry.iapFailed hentry,
      congrArg PostEntry.received hentry, congrArg PostEntry.contentLen hentry⟩
  · intro hactive
    have hreset := IapState.setPipeline_pipelines s.iap i i .reset
    rw [if_pos rfl] at hreset
    exact absurd ((congrArg PipelineContext.active hreset).symm.trans hactive) nofun

theorem begin (h : Flow s l) (uri : String) (contentLen : Int) (a : EraseAnswer) :
    Flow (s.begin conn uri contentLen a).1 (l.note s conn (.begin uri contentLen a)) := by
  unfold HttpdPost.begin UploadLedger.note
  dsimp only
  cases hmode : HttpdPost.postMode uri with
  | none =>
    rw [if_pos (.inl rfl)]
    exact h
  | some mode =>
    dsimp only
    by_cases hcurrent : s.current = some conn
    · rw [if_pos hcurrent, if_pos (.inr hcurrent)]
      exact h
    · rw [if_neg hcurrent, if_neg (by simp [hcurrent])]
      cases hfree : s.mapFreeIndex with
      | none => exact h.same rfl rfl
      | some i =>
        have hlt := HttpdPost.mapFreeIndex_lt hfree
        have halloc := h.alloc i conn (contentLen % 0x100000000).toNat mode
        dsimp only
        generalize ht : HttpdPost.mk (s.connMap.set i (.alloc conn
          (contentLen % 0x100000000).toNat mode)) (some conn) none s.upload
          (s.iap.setPipeline i .reset) = t at halloc ⊢
        have hreset : (t.iap.pipelines i).active = false := by
          rw [← ht]
          exact congrArg PipelineContext.active (if_pos rfl)
        have hentry : t.entry i = .alloc conn (contentLen % 0x100000000).toNat mode := by
          rw [← ht]
          exact HttpdPost.entry_setEntry_self hlt
        have hflow : Flow (if mode = .iapBin then t.beginIap i contentLen a else (t, true)).1
            (l.setBody i []) := by
          split
          · next himage => exact halloc.beginIap hreset (himage ▸ hentry)
          · exact halloc
        generalize (if mode = .iapBin then t.beginIap i contentLen a else (t, true)) = r at hflow ⊢
        split
        · exact hflow.same rfl rfl
        · exact hflow.free conn none _

theorem posted (h : Flow s l) (r : Nat × List UInt8) :
    Flow s { l with posted := r :: l.posted } := by
  refine ⟨h.intact, h.streams, ?_⟩
  intro image himage
  obtain ⟨r', hr', hup⟩ := h.uploaded image himage
  exact ⟨r', List.mem_cons_of_mem _ hr', hup⟩

theorem closed (h : Flow s l) (hintact : t.iap.Intact) (hapart : s.iap.Apart t.iap i)
    (hentry : ∀ j, j ≠ i → Streams.SameUpload (s.entry j) (t.entry j))
    (hi : (t.iap.pipelines i).active = false)
    (huploaded : ∀ image, t.iap.uploaded = some image →
      ∃ r ∈ l.posted, 0 < r.1 ∧ r.1 ≤ r.2.length ∧ image = r.2.take r.1) : Flow t l := by
  refine ⟨hintact, ?_, huploaded⟩
  intro j hactive
  by_cases hj : j = i
  · rw [hj, hi] at hactive
    cases hactive
  · exact h.others hapart hentry j hj hactive

theorem finishBody (h : Flow s l) (i : Nat) : Flow (s.finishBody i).1 (l.post (s.entry i) i) := by
  unfold HttpdPost.finishBody UploadLedger.post
  dsimp only
  cases hmode : (s.entry i).mode with
  | formKv =>
    rw [if_pos rfl, if_neg (show ¬PostMode.formKv = .iapBin from nofun)]
    split
    · refine h.closed (i := i) h.intact ⟨fun _ _ => rfl, fun _ _ _ => rfl⟩ ?_ ?_ h.uploaded
      · intro j hj
        rw [HttpdPost.entry_setEntry_of_ne hj]
        exact .refl _
      · cases hactive : (s.iap.pipelines i).active with
        | false => exact hactive
        | true => exact absurd (hmode.symm.trans (h.streams i hactive).mode) nofun
    · exact h
  | iapBin =>
    have hposted := h.posted ((s.entry i).contentLen, l.bodies i)
    rw [if_neg (show ¬PostMode.iapBin = .formKv from nofun), if_pos rfl]
    split
    · exact hposted.same rfl rfl
    · split
      · exact hposted.closed (h.intact.abort i) (IapState.abort_apart h.intact.inv.solo i)
          (fun _ _ => .refl _) (IapState.abort_inactive ..) hposted.uploaded
      · have hintact := h.intact.postFinish i
        have hapart := IapState.postFinish_apart h.intact.inv.solo i
        have hinactive := s.iap.postFinish_inactive i
        split
        · next hfail =>
          refine hposted.closed hintact hapart (fun _ _ => .refl _) hinactive ?_
          rw [IapState.postFinish_uploaded_of_failed hfail]
          exact hposted.uploaded
        · next hok =>
          have hok := Decidable.not_not.mp hok
          refine hposted.closed hintact hapart (fun _ _ => .refl _) hinactive ?_
          have hactive : (s.iap.pipelines i).active = true := by
            cases hactive : (s.iap.pipelines i).active with
            | true => rfl
            | false =>
              rw [(IapState.postFinish_of_inactive hactive).2] at hok
              cases hok
          have hstreams := h.streams i hactive
          obtain ⟨hup, hlen⟩ := hstreams.finished hok
          intro image himage
          rw [hup] at himage
          exact ⟨_, List.mem_cons_self, hstreams.announced, hlen, (Option.some.inj himage).symm⟩

theorem finished (h : Flow s l) : Flow (s.finished conn).1 (l.note s conn .finished) := by
  unfold HttpdPost.finished UploadLedger.note
  by_cases hcurrent : s.current = some conn
  · rw [if_pos hcurrent]
    by_cases hvalid : s.valid = some conn
    · rw [if_pos hvalid]
      dsimp only
      rw [if_pos ⟨hcurrent, hvalid⟩]
      cases hlookup : s.mapLookup conn with
      | none => exact h
      | some i => exact (h.finishBody i).free conn none none
    · rw [if_neg hvalid]
      dsimp only
      rw [if_neg (by simp [hvalid])]
      exact h.same rfl rfl
  · rw [if_neg hcurrent]
    dsimp only
    rw [if_neg (by simp [hcurrent])]
    exact h

theorem call (h : Flow s l) (conn : Nat) (c : PostCall) :
    Flow (s.call conn c).1 (l.note s conn c) := by
  cases c with
  | begin uri contentLen a => exact h.begin uri contentLen a
  | receive segments => exact h.receiveData segments
  | finished => exact h.finished

theorem clearSingleIapSession (h : Flow s l) (i : Nat) : Flow (s.clearSingleIapSession i) l := by
  unfold HttpdPost.clearSingleIapSession
  dsimp only
  split
  · exact h
  · split
    · have hentry : ∀ j, j ≠ i → Streams.SameUpload (s.entry j) ((s.setEntry i .empty).entry j) := by
        intro j hj
        rw [HttpdPost.entry_setEntry_of_ne hj]
        exact .refl _
      have hiap : (if (s.entry i).iapFailed then s.iap else s.iap.abort i).Intact ∧
          s.iap.Apart (if (s.entry i).iapFailed then s.iap else s.iap.abort i) i ∧
          (if (s.entry i).iapFailed then s.iap else s.iap.abort i).uploaded = s.iap.uploaded := by
        split
        · exact ⟨h.intact, ⟨fun _ _ => rfl, fun _ _ _ => rfl⟩, rfl⟩
        · exact ⟨h.intact.abort i, IapState.abort_apart h.intact.inv.solo i, rfl⟩
      generalize (if (s.entry i).iapFailed then s.iap else s.iap.abort i) = iap at hiap ⊢
      obtain ⟨hintact, hapart, huploaded⟩ := hiap
      refine h.closed (hintact.resetPipeline i) (hapart.trans
        ⟨fun j hj => IapState.setPipeline_pipelines_of_ne _ hj, fun _ _ _ => rfl⟩) hentry
        (congrArg PipelineContext.active (if_pos rfl)) ?_
      show ∀ image, iap.uploaded = some image → _
      rw [huploaded]
      exact h.uploaded
    · exact h

theorem resetIapUploadSession (h : Flow s l) : Flow s.resetIapUploadSession l := by
  have hclear : ∀ (is : List Nat) (t : HttpdPost), Flow t l →
      Flow (is.foldl HttpdPost.clearSingleIapSession t) l := by
    intro is
    induction is with
    | nil => exact fun t ht => ht
    | cons i is ih => exact fun t ht => ih _ (ht.clearSingleIapSession i)
  exact (hclear _ s h).same rfl rfl

theorem renderPrepare {a : EraseAnswer} (h : Flow s l) (isLoggerActive : Bool)
    (hclean : IapState.CleanErase a) : Flow (s.renderPrepare isLoggerActive a).1 l := by
  unfold HttpdPost.renderPrepare
  split
  · exact h
  · have hreset := h.resetIapUploadSession
    generalize s.resetIapUploadSession = t at hreset
    have hintact := hreset.intact.prepareUploadSlot hclean
    have hflow : Flow { t with iap := (t.iap.prepareUploadSlot a).1 } l := by
      refine ⟨hintact, ?_, ?_⟩
      · intro j hactive
        have hbefore : (t.iap.pipelines j).active = true := by
          rwa [← t.iap.prepareUploadSlot_pipelines a]
        have hopen := hreset.intact.inv.solo.writer j hbefore
        have hrefused : t.iap.prepareUploadSlot a = (t.iap, .state) := if_pos hopen
        rw [hrefused]
        exact hreset.streams j hbefore
      · rw [t.iap.prepareUploadSlot_uploaded a]
        exact hreset.uploaded
    dsimp only
    split
    · exact hflow
    · exact hflow

theorem renderApply (h : Flow s l) (isLoggerActive : Bool) :
    Flow (s.renderApply isLoggerActive).1 l := by
  unfold HttpdPost.renderApply HttpdPost.clearIapUploadReady
  split
  · exact h
  · split
    · exact h
    · dsimp only
      split
      · exact h.same rfl rfl
      · exact h

theorem verifyPoll (h : Flow s l) (a : StorageStatus) :
    Flow { s with iap := s.iap.verifyPoll a } l := by
  refine ⟨h.intact.verifyPoll a, ?_, ?_⟩
  · intro j hactive
    have hbefore : (s.iap.pipelines j).active = true := by
      rwa [← s.iap.verifyPoll_pipelines a]
    have hsettled := h.intact.not_settled (h.intact.inv.solo.writer j hbefore)
    have hsame : s.iap.verifyPoll a = s.iap := IapState.verifyPoll_of_not_settled hsettled
    rw [hsame]
    exact h.streams j hbefore
  · rw [s.iap.verifyPoll_uploaded a]
    exact h.uploaded

theorem start (config : IapWriterConfig) (slot : Slot) (upload : IapUploadStatus)
    (l : UploadLedger) : Flow (.idle upload (.start config slot)) l :=
  ⟨IapState.start_intact config slot, nofun, nofun⟩

end Flow

end CanSniffer.Web
