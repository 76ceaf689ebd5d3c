import CanSniffer.Web.FormParts
import CanSniffer.Web.PostIsolation

namespace CanSniffer.Web

open Iap

/-- The callbacks of one request for a form, whose body comes cut into callbacks and segments. -/
def formCalls (contentLen : Int) (a : EraseAnswer)
    (cut : List (List (List UInt8 × ChunkAnswers))) : List PostCall :=
  .begin "/can.cgi" contentLen a :: (cut.map .receive ++ [.finished])

def bodyOf (cut : List (List (List UInt8 × ChunkAnswers))) : List UInt8 :=
  cut.flatMap fun segments => segments.flatMap Prod.fst

section Server

variable (rest : List PostEntry) {conn : Nat} (u : IapUploadStatus) (p : IapState)

def serving (e : PostEntry) (conn : Nat) : HttpdPost := ⟨e :: rest, some conn, some conn, u, p⟩

structure FormEntry (e : PostEntry) (conn : Nat) (f : PostForm) : Prop where
  conn : e.conn = some conn
  mode : e.mode = .formKv
  form : e.form = f

theorem FormEntry.receiveSegments (segments : List (List UInt8 × ChunkAnswers)) :
    ∀ {e : PostEntry} {f : PostForm}, FormEntry e conn f →
      ∃ e', FormEntry e' conn (f.consume (segments.flatMap Prod.fst)).1 ∧
        (serving rest u p e conn).receiveSegments 0 segments =
          (serving rest u p e' conn, (f.consume (segments.flatMap Prod.fst)).2) := by
  induction segments with
  | nil => exact fun h => ⟨_, h, rfl⟩
  | cons seg segs ih =>
    intro e f h
    have hseg : (serving rest u p e conn).receiveSegment 0 seg.1 seg.2 =
        (serving rest u p { e with
            form := (f.consume seg.1).1
            received := e.received + seg.1.length } conn, (f.consume seg.1).2) := by
      simp [HttpdPost.receiveSegment, HttpdPost.entry, HttpdPost.setEntry, serving, h.mode, h.form]
    have hentry : FormEntry { e with
        form := (f.consume seg.1).1
        received := e.received + seg.1.length } conn (f.consume seg.1).1 := ⟨h.conn, h.mode, rfl⟩
    obtain ⟨e', hentry', hsegs⟩ := ih hentry
    rw [List.flatMap_cons, PostForm.consume_append]
    refine ⟨e', hentry', ?_⟩
    rw [HttpdPost.receiveSegments, hseg, hsegs]

theorem FormEntry.receive {e : PostEntry} {f : PostForm} (h : FormEntry e conn f)
    (segments : List (List UInt8 × ChunkAnswers)) :
    ∃ e', FormEntry e' conn (f.consume (segments.flatMap Prod.fst)).1 ∧
      (serving rest u p e conn).call conn (.receive segments) =
        (serving rest u p e' conn,
          { ok := true
            pairs := (f.consume (segments.flatMap Prod.fst)).2
            responseUri := none }) := by
  obtain ⟨e', hentry, hr⟩ := h.receiveSegments rest u p segments
  refine ⟨e', hentry, ?_⟩
  have hlookup : (serving rest u p e conn).mapLookup conn = some 0 :=
    HttpdPost.mapLookup_first h.conn
  have hcurrent : (serving rest u p e conn).current = some conn := rfl
  rw [HttpdPost.call, HttpdPost.receiveData, if_pos hcurrent, hlookup]
  dsimp only
  rw [hr]

theorem FormEntry.finished {e : PostEntry} {f : PostForm} (h : FormEntry e conn f) :
    ((serving rest u p e conn).call conn .finished).2.pairs = f.flush := by
  have hlookup : (serving rest u p e conn).mapLookup conn = some 0 :=
    HttpdPost.mapLookup_first h.conn
  have hcurrent : (serving rest u p e conn).current = some conn := rfl
  have hvalid : (serving rest u p e conn).valid = some conn := rfl
  have hentry : (serving rest u p e conn).entry 0 = e := rfl
  rw [HttpdPost.call, HttpdPost.finished, if_pos hcurrent, if_pos hvalid, hlookup]
  dsimp only
  rw [HttpdPost.finishBody, hentry]
  dsimp only
  rw [if_pos h.mode, h.form, PostForm.flush]
  split <;> rfl

theorem FormEntry.run (cut : List (List (List UInt8 × ChunkAnswers))) :
    ∀ {e : PostEntry} {f : PostForm}, FormEntry e conn f →
      ((serving rest u p e conn).runCalls conn (cut.map .receive ++ [.finished])).2.flatMap
          PostOutput.pairs =
        (f.consume (bodyOf cut)).2 ++ (f.consume (bodyOf cut)).1.flush := by
  induction cut with
  | nil =>
    intro e f h
    have hfinished := h.finished rest u p
    simpa [HttpdPost.runCalls, bodyOf, PostForm.consume] using hfinished
  | cons segments cut ih =>
    intro e f h
    obtain ⟨e', hentry, hcall⟩ := h.receive rest u p segments
    have hbody : bodyOf (segments :: cut) = segments.flatMap Prod.fst ++ bodyOf cut :=
      List.flatMap_cons
    rw [hbody, PostForm.consume_append, List.map_cons, List.cons_append, HttpdPost.runCalls, hcall]
    dsimp only
    rw [List.flatMap_cons, ih hentry, List.append_assoc]

theorem begin_form (e : PostEntry) (valid : Option Nat) (contentLen : Int) (a : EraseAnswer) :
    HttpdPost.call ⟨{ e with conn := none } :: rest, none, valid, u, p⟩ conn
        (.begin "/can.cgi" contentLen a) =
      (serving rest u (p.setPipeline 0 .reset)
        (.alloc conn (contentLen % 0x100000000).toNat .formKv) conn,
        { ok := true, pairs := [], responseUri := some "/404.html" }) := by
  have hmode : HttpdPost.postMode "/can.cgi" = some .formKv := by decide
  have hfree : HttpdPost.mapFreeIndex ⟨{ e with conn := none } :: rest, none, valid, u, p⟩ =
      some 0 := HttpdPost.mapFreeIndex_first rfl
  simp [HttpdPost.call, HttpdPost.begin, hmode, hfree, serving]

end Server

/-- The pairs that a server hands on during a request for a form, in order.  No other request is
open; the entry it uses and the others may hold anything. -/
def handedPairs (e : PostEntry) (rest : List PostEntry) (valid : Option Nat) (u : IapUploadStatus)
    (p : IapState) (conn : Nat) (contentLen : Int) (a : EraseAnswer)
    (cut : List (List (List UInt8 × ChunkAnswers))) : List PostPair :=
  (HttpdPost.runCalls ⟨{ e with conn := none } :: rest, none, valid, u, p⟩ conn
    (formCalls contentLen a cut)).2.flatMap PostOutput.pairs

theorem handedPairs_eq (e : PostEntry) (rest : List PostEntry) (valid : Option Nat)
    (u : IapUploadStatus) (p : IapState) (conn : Nat) (contentLen : Int) (a : EraseAnswer)
    (cut : List (List (List UInt8 × ChunkAnswers))) :
    handedPairs e rest valid u p conn contentLen a cut =
      PostForm.handedAll (List.replicate 16 0) ((bodyOf cut).splitOn 38) := by
  have hentry : FormEntry (.alloc conn (contentLen % 0x100000000).toNat .formKv) conn .init :=
    ⟨rfl, rfl, rfl⟩
  rw [handedPairs, formCalls, HttpdPost.runCalls, begin_form]
  dsimp only
  rw [List.flatMap_cons, hentry.run _ _ _ cut, List.nil_append,
    PostForm.at_init.consume (bodyOf cut) (by simp), List.nil_append]

/-- However the body is cut, the pairs handed on are those of the body if and only if its parts are
read right one after another. -/
theorem form_pairs_iff (e : PostEntry) (rest : List PostEntry) (valid : Option Nat)
    (u : IapUploadStatus) (p : IapState) (conn : Nat) (contentLen : Int) (a : EraseAnswer)
    (cut : List (List (List UInt8 × ChunkAnswers))) :
    handedPairs e rest valid u p conn contentLen a cut = pairsOf (bodyOf cut) ↔
      PartsRight (List.replicate 16 0) ((bodyOf cut).splitOn 38) := by
  rw [handedPairs_eq]
  exact handedAll_eq_iff _ _

/-- The key of the second pair is followed by what is left of the first. -/
theorem form_pairs_leftover :
    ¬ ∀ e rest valid u p conn contentLen a cut,
      handedPairs e rest valid u p conn contentLen a cut = pairsOf (bodyOf cut) := by
  intro h
  have hpairs := h .empty [] none .init PostServer.smallFlash 1 7
    { status := .ok, erased := fun _ => false }
    [[([0x78, 0x79, 61, 0x31, 38, 0x7A, 38], ⟨⟨.ok, fun _ => none⟩, ⟨.ok, fun _ => none⟩⟩)]]
  rw [handedPairs_eq] at hpairs
  exact absurd hpairs (by decide +kernel)

end CanSniffer.Web
