import CanSniffer.Iap.VerifyCount
import CanSniffer.Web.UploadSessionLaws

namespace CanSniffer.Web

open Lib Iap

def Received (posted : List (Nat × List UInt8)) (total : Nat) : Prop :=
  ∃ r ∈ posted, r.1 = total ∧ 0 < total ∧ total ≤ r.2.length

structure IapUploadStatus.Told (u : IapUploadStatus) (posted : List (Nat × List UInt8)) : Prop where
  within : u.received ≤ u.total % UInt32.size
  ready : u.state = .ready →
    u.errorReason = .none ∧ u.received = u.total ∧ Received posted u.total
  error : u.state = .error → u.errorReason ≠ .none

theorem IapUploadStatus.init_told (posted : List (Nat × List UInt8)) :
    IapUploadStatus.init.Told posted :=
  ⟨Nat.le_refl _, nofun, nofun⟩

theorem IapUploadStatus.Told.mono {u : IapUploadStatus} {posted posted' : List (Nat × List UInt8)}
    (h : u.Told posted) (hsub : posted ⊆ posted') : u.Told posted' := by
  refine ⟨h.within, ?_, h.error⟩
  intro hready
  obtain ⟨hnone, hwhole, r, hr, hlen⟩ := h.ready hready
  exact ⟨hnone, hwhole, r, hsub hr, hlen⟩

def PostEntry.Within (e : PostEntry) : Prop :=
  e.contentLen < UInt32.size ∧ (e.mode = .iapBin → e.received ≤ e.contentLen)

structure Told (s : HttpdPost) (posted : List (Nat × List UInt8)) : Prop where
  upload : s.upload.Told posted
  entries : ∀ i, (s.entry i).Within
  iap : s.iap.Counted

namespace Told

variable {s t : HttpdPost} {posted : List (Nat × List UInt8)} {i conn : Nat} {e : PostEntry}

theorem empty_within : PostEntry.empty.Within := ⟨by decide, nofun⟩

theorem within_set (h : ∀ j, (s.entry j).Within) (he : e.Within) (i j : Nat) :
    ((s.setEntry i e).entry j).Within := by
  by_cases hj : j = i
  · subst hj
    rcases Nat.lt_or_ge j s.connMap.length with hlt | hge
    · rw [HttpdPost.entry_setEntry_self hlt]
      exact he
    · have hset : s.setEntry j e = s := by
        simp only [HttpdPost.setEntry, List.set_eq_of_length_le hge]
      rw [hset]
      exact h j
  · rw [HttpdPost.entry_setEntry_of_ne hj]
    exact h j

theorem within_same {e' : PostEntry} (h : e.Within) (he : Streams.SameUpload e e') : e'.Within := by
  obtain ⟨hmode, -, hreceived, hlen⟩ := he
  refine ⟨hlen ▸ h.1, ?_⟩
  intro himage
  rw [hreceived, hlen]
  exact h.2 (hmode.symm.trans himage)

theorem within_mod {received total : Nat} (h : received ≤ total) (hlt : total < UInt32.size) :
    received ≤ total % UInt32.size := by
  rwa [Nat.mod_eq_of_lt hlt]

theorem failed {received total : Nat} {reason : UploadError} (u : IapUploadStatus)
    (status : IngestStatus) (hreason : reason ≠ .none) (h : received ≤ total % UInt32.size) :
    ((u.set .error received total).setError reason status).Told posted :=
  ⟨h, nofun, fun _ => hreason⟩

theorem going {received total : Nat} (u : IapUploadStatus) (h : received ≤ total % UInt32.size) :
    (u.set .inProgress received total).Told posted :=
  ⟨h, nofun, nofun⟩

theorem mapFree (h : Told s posted) (conn : Nat) (current valid : Option Nat) :
    Told { s.mapFree conn with current, valid } posted := by
  have hupload : (s.mapFree conn).upload = s.upload := by
    unfold HttpdPost.mapFree
    split
    · rfl
    · rfl
  refine ⟨?_, fun j => within_same (h.entries j) (s.mapFree_entry conn j), ?_⟩
  · show (s.mapFree conn).upload.Told posted
    rw [hupload]
    exact h.upload
  · show (s.mapFree conn).iap.Counted
    rw [s.mapFree_iap]
    exact h.iap

theorem beginIap (h : Told s posted) (i : Nat) (contentLen : Int) (a : EraseAnswer) :
    Told (s.beginIap i contentLen a).1 posted := by
  unfold HttpdPost.beginIap
  dsimp only
  split
  · have hiap := h.iap.postBegin i contentLen.toNat a
    split
    · exact ⟨failed _ _ nofun (Nat.zero_le _), h.entries, hiap⟩
    · exact ⟨⟨Nat.zero_le _, nofun, nofun⟩, h.entries, hiap⟩
  · exact ⟨failed _ _ nofun (Nat.zero_le _), h.entries, h.iap.verifyReset⟩

theorem begin (h : Told s posted) (uri : String) (contentLen : Int) (a : EraseAnswer) :
    Told (s.begin conn uri contentLen a).1 posted := by
  unfold HttpdPost.begin
  split
  · exact h
  · next mode _ =>
    split
    · exact h
    · split
      · exact ⟨h.upload, h.entries, h.iap⟩
      · next i _ =>
        have hlen : (contentLen % 0x100000000).toNat < UInt32.size := by
          show _ < 0x100000000
          omega
        have halloc : (PostEntry.alloc conn (contentLen % 0x100000000).toNat mode).Within :=
          ⟨hlen, fun _ => Nat.zero_le _⟩
        dsimp only
        generalize ht : HttpdPost.mk (s.connMap.set i (.alloc conn
          (contentLen % 0x100000000).toNat mode)) (some conn) none s.upload
          (s.iap.setPipeline i .reset) = t
        have htold : Told t posted := by
          rw [← ht]
          exact ⟨h.upload, within_set h.entries halloc i, h.iap.setPipeline i .reset⟩
        have hbegun : Told (if mode = .iapBin then t.beginIap i contentLen a else (t, true)).1
            posted := by
          split
          · exact htold.beginIap i contentLen a
          · exact htold
        generalize (if mode = .iapBin then t.beginIap i contentLen a else (t, true)) = r at hbegun ⊢
        split
        · exact ⟨hbegun.upload, hbegun.entries, hbegun.iap⟩
        · exact hbegun.mapFree conn none _

theorem pushSegment (h : Told s posted) (himage : (s.entry i).mode = .iapBin) (data : List UInt8)
    (a : ChunkAnswers) : Told (s.pushSegment i data a) posted := by
  obtain ⟨hsmall, hle⟩ := h.entries i
  have hle := hle himage
  unfold HttpdPost.pushSegment
  dsimp only
  split
  · exact h
  · split
    · exact h
    · have hpush := h.iap.push i (data.take ((s.entry i).contentLen - (s.entry i).received)) a
      split
      · refine ⟨failed _ _ nofun (within_mod hle hsmall), ?_, hpush.abort i⟩
        apply within_set
        · exact h.entries
        · exact ⟨hsmall, fun _ => hle⟩
      · have hgrown : (s.entry i).received +
            (data.take ((s.entry i).contentLen - (s.entry i).received)).length ≤
              (s.entry i).contentLen := by
          rw [List.length_take]
          omega
        refine ⟨going _ (within_mod hgrown hsmall), ?_, hpush⟩
        apply within_set
        · exact h.entries
        · exact ⟨hsmall, fun _ => hgrown⟩

theorem receiveSegment (h : Told s posted) (i : Nat) (data : List UInt8) (a : ChunkAnswers) :
    Told (s.receiveSegment i data a).1 posted := by
  unfold HttpdPost.receiveSegment
  dsimp only
  split
  · next hform =>
    refine ⟨h.upload, ?_, h.iap⟩
    apply within_set
    · exact h.entries
    · exact ⟨(h.entries i).1, fun himage => absurd (hform.symm.trans himage) nofun⟩
  · next himage =>
    have himage : (s.entry i).mode = .iapBin := by
      cases hm : (s.entry i).mode with
      | formKv => exact absurd hm himage
      | iapBin => rfl
    exact h.pushSegment himage data a

theorem receiveSegments (h : Told s posted) (i : Nat)
    (segments : List (List UInt8 × ChunkAnswers)) :
    Told (s.receiveSegments i segments).1 posted := by
  induction segments generalizing s with
  | nil => exact h
  | cons seg segs ih => exact ih (h.receiveSegment i seg.1 seg.2)

theorem receiveData (h : Told s posted) (segments : List (List UInt8 × ChunkAnswers)) :
    Told (s.receiveData conn segments).1 posted := by
  unfold HttpdPost.receiveData
  split
  · split
    · exact h
    · next i _ => exact h.receiveSegments i segments
  · exact h

theorem add (h : Told s posted) (r : Nat × List UInt8) : Told s (r :: posted) :=
  ⟨h.upload.mono (List.subset_cons_self r posted), h.entries, h.iap⟩

theorem finishBody {l : UploadLedger} (h : Told s l.posted) (hflow : Flow s l) (i : Nat) :
    Told (s.finishBody i).1 (l.post (s.entry i) i).posted := by
  obtain ⟨hsmall, hle⟩ := h.entries i
  unfold HttpdPost.finishBody UploadLedger.post
  dsimp only
  cases hmode : (s.entry i).mode with
  | formKv =>
    rw [if_pos rfl, if_neg (show ¬PostMode.formKv = .iapBin from nofun)]
    split
    · refine ⟨h.upload, ?_, h.iap⟩
      apply within_set
      · exact h.entries
      · exact ⟨hsmall, nofun⟩
    · exact h
  | iapBin =>
    have h := h.add ((s.entry i).contentLen, l.bodies i)
    have hmod := within_mod (hle hmode) hsmall
    rw [if_neg (show ¬PostMode.iapBin = .formKv from nofun), if_pos rfl]
    split
    · exact ⟨failed _ _ nofun hmod, h.entries, h.iap⟩
    · split
      · exact ⟨failed _ _ nofun hmod, h.entries, h.iap.abort i⟩
      · have hfinish := h.iap.postFinish i
        split
        · exact ⟨failed _ _ nofun hmod, h.entries, hfinish⟩
        · next hok =>
          have hok := Decidable.not_not.mp hok
          have hactive : (s.iap.pipelines i).active = true := by
            cases hactive : (s.iap.pipelines i).active with
            | true => rfl
            | false =>
              rw [(IapState.postFinish_of_inactive hactive).2] at hok
              cases hok
          have hstreams := hflow.streams i hactive
          have hreceived : Received (((s.entry i).contentLen, l.bodies i) :: l.posted)
              (s.entry i).contentLen :=
            ⟨_, List.mem_cons_self, rfl, hstreams.announced, (hstreams.finished hok).2⟩
          exact ⟨⟨within_mod (Nat.le_refl _) hsmall, fun _ => ⟨rfl, rfl, hreceived⟩, nofun⟩,
            h.entries, hfinish⟩

theorem finished {l : UploadLedger} (h : Told s l.posted) (hflow : Flow s l) :
    Told (s.finished conn).1 (l.note s conn .finished).posted := by
  unfold HttpdPost.finished UploadLedger.note
  by_cases hcurrent : s.current = some conn
  · rw [if_pos hcurrent]
    by_cases hvalid : s.valid = some conn
    · rw [if_pos hvalid]
      dsimp only
      rw [if_pos ⟨hcurrent, hvalid⟩]
      cases hlookup : s.mapLookup conn with
      | none => exact h
      | some i => exact (h.finishBody hflow i).mapFree conn none none
    · rw [if_neg hvalid]
      dsimp only
      rw [if_neg (by simp [hvalid])]
      exact ⟨h.upload, h.entries, h.iap⟩
  · rw [if_neg hcurrent]
    dsimp only
    rw [if_neg (by simp [hcurrent])]
    exact h

theorem note_begin {l : UploadLedger} (uri : String) (contentLen : Int) (a : EraseAnswer) :
    (l.note s conn (.begin uri contentLen a)).posted = l.posted := by
  unfold UploadLedger.note
  dsimp only
  split
  · rfl
  · split
    · rfl
    · rfl

theorem note_receive {l : UploadLedger} (segments : List (List UInt8 × ChunkAnswers)) :
    (l.note s conn (.receive segments)).posted = l.posted := by
  unfold UploadLedger.note
  dsimp only
  split
  · split
    · rfl
    · rfl
  · rfl

theorem call {l : UploadLedger} (h : Told s l.posted) (hflow : Flow s l) (conn : Nat)
    (c : PostCall) : Told (s.call conn c).1 (l.note s conn c).posted := by
  cases c with
  | begin uri contentLen a =>
    rw [note_begin]
    exact h.begin uri contentLen a
  | receive segments =>
    rw [note_receive]
    exact h.receiveData segments
  | finished => exact h.finished hflow

theorem cleared (u : IapUploadStatus) : ((u.set .idle 0 0).setError .none .ok).Told posted :=
  ⟨Nat.le_refl _, nofun, nofun⟩

theorem clearSingleIapSession (h : Told s posted) (i : Nat) :
    Told (s.clearSingleIapSession i) posted := by
  unfold HttpdPost.clearSingleIapSession
  dsimp only
  split
  · exact h
  · split
    · refine ⟨h.upload, fun j => within_set h.entries empty_within i j, ?_⟩
      refine IapState.Counted.setPipeline ?_ i .reset
      split
      · exact h.iap
      · exact h.iap.abort i
    · exact h

theorem resetIapUploadSession (h : Told s posted) : Told s.resetIapUploadSession posted := by
  have hclear : ∀ (is : List Nat) (t : HttpdPost), Told t posted →
      Told (is.foldl HttpdPost.clearSingleIapSession t) posted := by
    intro is
    induction is with
    | nil => exact fun t ht => ht
    | cons i is ih => exact fun t ht => ih _ (ht.clearSingleIapSession i)
  have hcleared := hclear (List.range s.connMap.length) s h
  exact ⟨cleared _, hcleared.entries, hcleared.iap⟩

theorem renderPrepare (h : Told s posted) (isLoggerActive : Bool) (a : EraseAnswer) :
    Told (s.renderPrepare isLoggerActive a).1 posted := by
  unfold HttpdPost.renderPrepare
  split
  · exact h
  · have hreset := h.resetIapUploadSession
    generalize s.resetIapUploadSession = t at hreset
    have hprepared := hreset.iap.prepareUploadSlot a
    dsimp only
    split
    · exact ⟨hreset.upload, hreset.entries, hprepared⟩
    · exact ⟨hreset.upload, hreset.entries, hprepared⟩

theorem renderApply (h : Told s posted) (isLoggerActive : Bool) :
    Told (s.renderApply isLoggerActive).1 posted := by
  unfold HttpdPost.renderApply HttpdPost.clearIapUploadReady
  split
  · exact h
  · split
    · exact h
    · dsimp only
      split
      · exact ⟨cleared _, h.entries, h.iap⟩
      · exact h

theorem verifyPoll (h : Told s posted) (a : StorageStatus) :
    Told { s with iap := s.iap.verifyPoll a } posted :=
  ⟨h.upload, h.entries, h.iap.verifyPoll a⟩

theorem start (config : IapWriterConfig) (slot : Slot) (posted : List (Nat × List UInt8)) :
    Told (.idle .init (.start config slot)) posted := by
  refine ⟨IapUploadStatus.init_told posted, ?_, IapState.start_counted config slot⟩
  intro i
  have hentry : (HttpdPost.idle .init (.start config slot)).entry i = .empty := by
    rw [HttpdPost.entry, HttpdPost.idle, List.getD_eq_getElem?_getD, List.getElem?_replicate]
    split
    · rfl
    · rfl
  rw [hentry]
  exact empty_within

end Told

end CanSniffer.Web
