import CanSniffer.Web.HttpdPost

namespace CanSniffer.Web

open Lib Iap

namespace HttpdPost

variable {e : PostEntry} {rest : List PostEntry} {c : Nat} {current valid : Option Nat}
  {u : IapUploadStatus} {p : IapState}

/-- What is done for the first entry does not depend on the others. -/
def Local {β : Type} (f : HttpdPost → HttpdPost × β) : Prop :=
  ∀ e current valid u p, ∃ e' u' p' b, e'.conn = e.conn ∧
    ∀ rest, f ⟨e :: rest, current, valid, u, p⟩ = (⟨e' :: rest, current, valid, u', p'⟩, b)

theorem local_of_single {β : Type} {f : HttpdPost → HttpdPost × β}
    (h : ∀ e current valid u p rest,
      ((f ⟨[e], current, valid, u, p⟩).1.entry 0).conn = e.conn ∧
        f ⟨e :: rest, current, valid, u, p⟩ =
          (⟨(f ⟨[e], current, valid, u, p⟩).1.entry 0 :: rest, current, valid,
            (f ⟨[e], current, valid, u, p⟩).1.upload, (f ⟨[e], current, valid, u, p⟩).1.iap⟩,
            (f ⟨[e], current, valid, u, p⟩).2)) : Local f := by
  intro e current valid u p
  exact ⟨_, _, _, _, (h e current valid u p []).1, fun rest => (h e current valid u p rest).2⟩

theorem receiveSegment_local (data : List UInt8) (a : ChunkAnswers) :
    Local fun s => s.receiveSegment 0 data a := by
  refine local_of_single fun e current valid u p rest => ?_
  by_cases hform : e.mode = .formKv
  · simp [receiveSegment, entry, setEntry, hform]
  · by_cases hfailed : e.iapFailed = true
    · simp [receiveSegment, pushSegment, entry, hform, hfailed]
    · by_cases hfull : e.contentLen - e.received = 0
      · simp [receiveSegment, pushSegment, entry, hform, hfailed, hfull]
      · by_cases hstatus : p.pushStatus 0 (data.take (e.contentLen - e.received)) a = .ok
        · simp [receiveSegment, pushSegment, entry, setEntry, hform, hfailed, hfull, hstatus]
        · simp [receiveSegment, pushSegment, entry, setEntry, hform, hfailed, hfull, hstatus]

theorem receiveSegments_local (segments : List (List UInt8 × ChunkAnswers)) :
    Local fun s => s.receiveSegments 0 segments := by
  induction segments with
  | nil =>
    intro e current valid u p
    exact ⟨e, u, p, [], rfl, fun _ => rfl⟩
  | cons seg segs ih =>
    intro e current valid u p
    obtain ⟨e₁, u₁, p₁, b₁, hconn₁, h₁⟩ := receiveSegment_local seg.1 seg.2 e current valid u p
    obtain ⟨e₂, u₂, p₂, b₂, hconn₂, h₂⟩ := ih e₁ current valid u₁ p₁
    refine ⟨e₂, u₂, p₂, b₁ ++ b₂, hconn₂.trans hconn₁, fun rest => ?_⟩
    dsimp only at h₁ h₂ ⊢
    rw [receiveSegments, h₁ rest, h₂ rest]

theorem finishBody_local : Local fun s => s.finishBody 0 := by
  refine local_of_single fun e current valid u p rest => ?_
  by_cases hform : e.mode = .formKv
  · by_cases hpair : e.form.phase = true ∧ e.form.vlen ≠ 0
    · simp [finishBody, entry, setEntry, hform, hpair]
    · simp [finishBody, entry, hform, hpair]
  · by_cases hfailed : e.iapFailed = true
    · simp [finishBody, entry, hform, hfailed]
    · by_cases hwhole : e.received = e.contentLen
      · by_cases hstatus : p.finishStatus 0 = .ok
        · simp [finishBody, entry, hform, hfailed, hwhole, hstatus]
        · simp [finishBody, entry, hform, hfailed, hwhole, hstatus]
      · simp [finishBody, entry, hform, hfailed, hwhole]

theorem mapLookup_first (h : e.conn = some c) :
    mapLookup ⟨e :: rest, current, valid, u, p⟩ c = some 0 := by
  simp [mapLookup, List.findIdx?_cons, h]

theorem mapFreeIndex_first (h : e.conn = none) :
    mapFreeIndex ⟨e :: rest, current, valid, u, p⟩ = some 0 := by
  simp [mapFreeIndex, List.findIdx?_cons, h]

theorem mapFree_first (h : e.conn = some c) :
    mapFree ⟨e :: rest, current, valid, u, p⟩ c =
      ⟨{ e with conn := none } :: rest, current, valid, u, p⟩ := by
  unfold mapFree
  rw [mapLookup_first h]
  rfl

theorem receiveData_first (h : e.conn = some c) (valid : Option Nat)
    (segments : List (List UInt8 × ChunkAnswers)) :
    ∃ e' u' p' o, e'.conn = some c ∧ ∀ rest,
      receiveData ⟨e :: rest, some c, valid, u, p⟩ c segments =
        (⟨e' :: rest, some c, valid, u', p'⟩, o) := by
  obtain ⟨e', u', p', b, hconn, hr⟩ := receiveSegments_local segments e (some c) valid u p
  refine ⟨e', u', p', { ok := true, pairs := b, responseUri := none }, hconn.trans h, fun rest => ?_⟩
  dsimp only at hr
  unfold receiveData
  rw [if_pos rfl, mapLookup_first h]
  dsimp only
  rw [hr rest]

theorem finished_first (h : e.conn = some c) :
    ∃ e' u' p' o, e'.conn = none ∧ ∀ rest,
      finished ⟨e :: rest, some c, some c, u, p⟩ c = (⟨e' :: rest, none, none, u', p'⟩, o) := by
  obtain ⟨e', u', p', b, hconn, hr⟩ := finishBody_local e (some c) (some c) u p
  refine ⟨{ e' with conn := none }, u', p', { ok := true, pairs := b, responseUri := some "/postredir" },
    rfl, fun rest => ?_⟩
  dsimp only at hr
  unfold finished
  rw [if_pos rfl, if_pos rfl, mapLookup_first h]
  dsimp only
  rw [hr rest, mapFree_first (hconn.trans h)]

theorem beginIap_first (contentLen : Int) (a : EraseAnswer) :
    ∃ u' p' b, ∀ connMap current valid,
      beginIap ⟨connMap, current, valid, u, p⟩ 0 contentLen a =
        (⟨connMap, current, valid, u', p'⟩, b) := by
  refine ⟨(beginIap ⟨[], none, none, u, p⟩ 0 contentLen a).1.upload,
    (beginIap ⟨[], none, none, u, p⟩ 0 contentLen a).1.iap,
    (beginIap ⟨[], none, none, u, p⟩ 0 contentLen a).2, fun connMap current valid => ?_⟩
  by_cases hlen : 0 < contentLen
  · by_cases hstatus : p.beginStatus contentLen.toNat a = .ok
    · simp [beginIap, hlen, hstatus]
    · simp [beginIap, hlen, hstatus]
  · simp [beginIap, hlen]

theorem begin_first {uri : String} {mode : PostMode} (hmode : postMode uri = some mode)
    (contentLen : Int) (a : EraseAnswer) :
    ∃ e' u' p' o, (o.ok = true ∧ e'.conn = some c ∨ o.ok = false ∧ e'.conn = none) ∧
      ∀ e rest valid, e.conn = none →
        begin ⟨e :: rest, none, valid, u, p⟩ c uri contentLen a =
          (⟨e' :: rest, e'.conn, e'.conn, u', p'⟩, o) := by
  obtain ⟨u', p', b, hiap⟩ := beginIap_first (u := u) (p := p.setPipeline 0 .reset) contentLen a
  let e := PostEntry.alloc c (contentLen % 0x100000000).toNat mode
  have hfree : ∀ (e : PostEntry) rest valid, e.conn = none →
      mapFreeIndex ⟨e :: rest, none, valid, u, p⟩ = some 0 := fun _ _ _ h => mapFreeIndex_first h
  by_cases hbin : mode = .iapBin
  · cases b with
    | true =>
      refine ⟨e, u', p', { ok := true, pairs := [], responseUri := some "/404.html" },
        .inl ⟨rfl, rfl⟩, fun e₀ rest valid h => ?_⟩
      simp [begin, hmode, hfree e₀ rest valid h, hbin, hiap, e, PostEntry.alloc]
    | false =>
      refine ⟨{ e with conn := none }, u', p', refused, .inr ⟨rfl, rfl⟩, fun e₀ rest valid h => ?_⟩
      simp [begin, hmode, hfree e₀ rest valid h, hbin, hiap, e, mapFree, mapLookup, setEntry, entry,
        PostEntry.alloc, List.findIdx?_cons]
  · refine ⟨e, u, p.setPipeline 0 .reset, { ok := true, pairs := [], responseUri := some "/404.html" },
      .inl ⟨rfl, rfl⟩, fun e₀ rest valid h => ?_⟩
    simp [begin, hmode, hfree e₀ rest valid h, hbin, e, PostEntry.alloc]

end HttpdPost

end CanSniffer.Web
