import CanSniffer.Web.HttpdPostLaws

namespace CanSniffer.Web

open Lib Iap

/-- A request that was accepted: what it found, its callbacks so far with their outputs, and what
the last of them left. -/
structure PostRecord where
  upload0 : IapUploadStatus
  iap0 : IapState
  calls : List PostCall
  outputs : List PostOutput
  upload : IapUploadStatus
  iap : IapState

namespace HttpdPost

def runCalls (s : HttpdPost) (conn : Nat) : List PostCall → HttpdPost × List PostOutput
  | [] => (s, [])
  | l :: ls =>
    let r := s.call conn l
    let r' := r.1.runCalls conn ls
    (r'.1, r.2 :: r'.2)

theorem runCalls_append (s : HttpdPost) (conn : Nat) (ls ms : List PostCall) :
    s.runCalls conn (ls ++ ms) =
      (((s.runCalls conn ls).1.runCalls conn ms).1,
        (s.runCalls conn ls).2 ++ ((s.runCalls conn ls).1.runCalls conn ms).2) := by
  induction ls generalizing s with
  | nil => rfl
  | cons l ls ih =>
    simp only [List.cons_append, runCalls]
    rw [ih]

end HttpdPost

namespace PostRecord

def alone (r : PostRecord) (conn : Nat) : HttpdPost × List PostOutput :=
  (HttpdPost.idle r.upload0 r.iap0).runCalls conn r.calls

structure Isolated (r : PostRecord) (conn : Nat) : Prop where
  outputs : r.outputs = (r.alone conn).2
  upload : r.upload = (r.alone conn).1.upload
  iap : r.iap = (r.alone conn).1.iap

def next (r : PostRecord) (l : PostCall) (t : HttpdPost × PostOutput) : PostRecord :=
  { r with
    calls := r.calls ++ [l]
    outputs := r.outputs ++ [t.2]
    upload := t.1.upload
    iap := t.1.iap }

theorem alone_next (r : PostRecord) (conn : Nat) (l : PostCall) (t : HttpdPost × PostOutput) :
    (r.next l t).alone conn =
      (((r.alone conn).1.call conn l).1, (r.alone conn).2 ++ [((r.alone conn).1.call conn l).2]) := by
  unfold alone next
  dsimp only
  rw [HttpdPost.runCalls_append]
  rfl

end PostRecord

/-- The accepted requests that are open, and those that have finished. -/
structure PostServer where
  http : HttpdPost
  opened : List (Nat × PostRecord)
  done : List (Nat × PostRecord)

namespace PostServer

def start (upload : IapUploadStatus) (iap : IapState) : PostServer where
  http := .idle upload iap
  opened := []
  done := []

def find (s : PostServer) (conn : Nat) : Option PostRecord := s.opened.lookup conn

def occupied (s : PostServer) : List Nat := s.http.connMap.filterMap PostEntry.conn

/-- A connection does not begin again before it has finished. -/
def step : Step PostServer (Nat × PostCall) := fun s l =>
  let t := s.http.call l.1 l.2
  match l.2, s.find l.1 with
  | .begin .., some _ => none
  | .begin .., none =>
    if t.2.ok then
      some { s with
        http := t.1
        opened := (l.1,
          { upload0 := s.http.upload
            iap0 := s.http.iap
            calls := [l.2]
            outputs := [t.2]
            upload := t.1.upload
            iap := t.1.iap }) :: s.opened }
    else some { s with http := t.1 }
  | .receive _, some r =>
    some { s with
      http := t.1
      opened := s.opened.map fun x => if x.1 = l.1 then (x.1, r.next l.2 t) else x }
  | .finished, some r =>
    some {
      http := t.1
      opened := s.opened.filter fun x => x.1 ≠ l.1
      done := (l.1, r.next l.2 t) :: s.done }
  | _, none => some { s with http := t.1 }

/-- Every accepted request is served as if it were alone, and only open ones hold entries. -/
structure Isolated (s : PostServer) : Prop where
  opened : ∀ x ∈ s.opened, x.2.Isolated x.1
  done : ∀ x ∈ s.done, x.2.Isolated x.1
  released : ∀ c ∈ s.occupied, (s.find c).isSome = true
  bounded : s.occupied.length ≤ s.opened.length

/-- No request that the server knows begins while another one is open. -/
def Kept (s : PostServer) (l : Nat × PostCall) : Prop :=
  match l.2 with
  | .begin uri _ _ => HttpdPost.postMode uri ≠ none → s.opened = []
  | _ => True

variable {s t : PostServer} {c d : Nat}

structure Idle (s : PostServer) : Prop where
  opened : s.opened = []
  current : s.http.current = none
  free : ∃ e rest, s.http.connMap = e :: rest ∧ ∀ x ∈ e :: rest, x.conn = none
  done : ∀ x ∈ s.done, x.2.Isolated x.1

/-- The one request that is open has the first entry, as it has alone. -/
structure Serving (s : PostServer) (c : Nat) (r : PostRecord) (e : PostEntry)
    (rest : List PostEntry) : Prop where
  opened : s.opened = [(c, r)]
  http : s.http = ⟨e :: rest, some c, some c, r.upload, r.iap⟩
  conn : e.conn = some c
  free : ∀ x ∈ rest, x.conn = none
  alone : ∃ rest', r.alone c = (⟨e :: rest', some c, some c, r.upload, r.iap⟩, r.outputs)
  done : ∀ x ∈ s.done, x.2.Isolated x.1

def Inv (s : PostServer) : Prop := s.Idle ∨ ∃ c r e rest, s.Serving c r e rest

theorem filterMap_conn_of_free {es : List PostEntry} (h : ∀ x ∈ es, x.conn = none) :
    es.filterMap PostEntry.conn = [] :=
  List.filterMap_eq_nil_iff.mpr h

theorem Inv.isolated (h : s.Inv) : s.Isolated := by
  rcases h with h | ⟨c, r, e, rest, h⟩
  · obtain ⟨e, rest, hmap, hfree⟩ := h.free
    have hocc : s.occupied = [] := by
      rw [occupied, hmap]
      exact filterMap_conn_of_free hfree
    refine ⟨?_, h.done, ?_, ?_⟩
    · intro x hx
      rw [h.opened] at hx
      exact absurd hx List.not_mem_nil
    · intro d hd
      rw [hocc] at hd
      exact absurd hd List.not_mem_nil
    · rw [hocc]
      exact Nat.zero_le _
  · have hocc : s.occupied = [c] := by
      rw [occupied, h.http]
      show (e :: rest).filterMap PostEntry.conn = [c]
      rw [List.filterMap_cons, h.conn, filterMap_conn_of_free h.free]
    obtain ⟨rest', halone⟩ := h.alone
    refine ⟨?_, h.done, ?_, ?_⟩
    · intro x hx
      rw [h.opened, List.mem_singleton] at hx
      subst hx
      exact ⟨by rw [halone], by rw [halone], by rw [halone]⟩
    · intro d hd
      rw [hocc, List.mem_singleton] at hd
      subst hd
      simp [find, h.opened]
    · rw [hocc, h.opened]
      exact Nat.le_refl 1

theorem start_inv (upload : IapUploadStatus) (iap : IapState) : (start upload iap).Inv := by
  refine .inl ⟨rfl, rfl, ⟨.empty, List.replicate 7 .empty, rfl, ?_⟩, fun x hx => absurd hx List.not_mem_nil⟩
  intro x hx
  rcases List.mem_cons.mp hx with rfl | hx
  · rfl
  · rw [List.eq_of_mem_replicate hx]
    rfl

theorem call_of_other {http : HttpdPost} (hd : http.current ≠ some d) {l : PostCall}
    (hl : ∀ uri n a, l = .begin uri n a → HttpdPost.postMode uri = none) :
    (http.call d l).1 = http ∧ (∀ uri n a, l = .begin uri n a → (http.call d l).2.ok = false) := by
  cases l with
  | begin uri n a =>
    have hmode := hl uri n a rfl
    simp [HttpdPost.call, HttpdPost.begin, hmode, HttpdPost.refused]
  | receive segments =>
    refine ⟨?_, fun _ _ _ h => PostCall.noConfusion h⟩
    simp [HttpdPost.call, HttpdPost.receiveData, hd]
  | finished =>
    refine ⟨?_, fun _ _ _ h => PostCall.noConfusion h⟩
    simp [HttpdPost.call, HttpdPost.finished, hd]

theorem step_of_other {l : PostCall} (hfind : s.find d = none) (hd : s.http.current ≠ some d)
    (hl : ∀ uri n a, l = .begin uri n a → HttpdPost.postMode uri = none)
    (ht : step s (d, l) = some t) : t = s := by
  obtain ⟨hsame, hok⟩ := call_of_other hd hl
  unfold step at ht
  dsimp only at ht
  rw [hfind] at ht
  cases l with
  | begin uri n a =>
    dsimp only at ht
    rw [hok uri n a rfl, hsame] at ht
    exact (Option.some.inj ht).symm
  | receive segments =>
    dsimp only at ht
    rw [hsame] at ht
    exact (Option.some.inj ht).symm
  | finished =>
    dsimp only at ht
    rw [hsame] at ht
    exact (Option.some.inj ht).symm

theorem Idle.step_begin (h : s.Idle) {uri : String} {mode : PostMode}
    (hmode : HttpdPost.postMode uri = some mode) {n : Int} {a : EraseAnswer}
    (ht : step s (c, .begin uri n a) = some t) : t.Inv := by
  obtain ⟨e₀, rest, hmap, hfree⟩ := h.free
  obtain ⟨e, u, p, o, ho, hbegin⟩ :=
    HttpdPost.begin_first (c := c) (u := s.http.upload) (p := s.http.iap) hmode n a
  have hcall : s.http.call c (.begin uri n a) = (⟨e :: rest, e.conn, e.conn, u, p⟩, o) := by
    have hhttp : s.http = ⟨e₀ :: rest, none, s.http.valid, s.http.upload, s.http.iap⟩ := by
      rw [← hmap, ← h.current]
    rw [hhttp]
    exact hbegin e₀ rest s.http.valid (hfree e₀ (List.mem_cons_self ..))
  have hrest : ∀ x ∈ rest, x.conn = none := fun x hx => hfree x (List.mem_cons_of_mem _ hx)
  have hfind : s.find c = none := by simp [find, h.opened]
  unfold step at ht
  dsimp only at ht
  rw [hfind, hcall] at ht
  dsimp only at ht
  rcases ho with ⟨hok, hconn⟩ | ⟨hok, hconn⟩
  · rw [if_pos hok] at ht
    cases ht
    refine .inr ⟨c, _, e, rest, by rw [h.opened], ?_, hconn, hrest, ?_, h.done⟩
    · rw [hconn]
    · refine ⟨List.replicate 7 .empty, ?_⟩
      have halone := hbegin .empty (List.replicate 7 .empty) none rfl
      show ((HttpdPost.idle s.http.upload s.http.iap).runCalls c [.begin uri n a]) = _
      have hidle : (HttpdPost.idle s.http.upload s.http.iap).call c (.begin uri n a) =
          (⟨e :: List.replicate 7 .empty, e.conn, e.conn, u, p⟩, o) := halone
      rw [HttpdPost.runCalls, hidle, hconn]
      rfl
  · rw [hok] at ht
    cases ht
    refine .inl ⟨h.opened, hconn, ⟨e, rest, rfl, ?_⟩, h.done⟩
    intro x hx
    rcases List.mem_cons.mp hx with rfl | hx
    · exact hconn
    · exact hrest x hx

theorem Serving.step_receive {r : PostRecord} {e : PostEntry} {rest : List PostEntry}
    (h : s.Serving c r e rest) {segments : List (List UInt8 × ChunkAnswers)}
    (ht : step s (c, .receive segments) = some t) : t.Inv := by
  obtain ⟨e', u', p', o, hconn, hreceive⟩ :=
    HttpdPost.receiveData_first (u := r.upload) (p := r.iap) h.conn (some c) segments
  have hcall : s.http.call c (.receive segments) = (⟨e' :: rest, some c, some c, u', p'⟩, o) := by
    rw [h.http]
    exact hreceive rest
  have hfind : s.find c = some r := by simp [find, h.opened]
  obtain ⟨rest', halone⟩ := h.alone
  unfold step at ht
  dsimp only at ht
  rw [hfind, hcall] at ht
  cases ht
  refine .inr ⟨c, r.next (.receive segments) (⟨e' :: rest, some c, some c, u', p'⟩, o), e', rest, ?_, rfl,
    hconn, h.free, ⟨rest', ?_⟩, h.done⟩
  · rw [h.opened]
    simp
  · rw [PostRecord.alone_next, halone]
    have hnext : HttpdPost.call ⟨e :: rest', some c, some c, r.upload, r.iap⟩ c (.receive segments) =
        (⟨e' :: rest', some c, some c, u', p'⟩, o) := hreceive rest'
    rw [hnext]
    rfl

theorem Serving.step_finished {r : PostRecord} {e : PostEntry} {rest : List PostEntry}
    (h : s.Serving c r e rest) (ht : step s (c, .finished) = some t) : t.Inv := by
  obtain ⟨e', u', p', o, hconn, hfinished⟩ :=
    HttpdPost.finished_first (u := r.upload) (p := r.iap) h.conn
  have hcall : s.http.call c .finished = (⟨e' :: rest, none, none, u', p'⟩, o) := by
    rw [h.http]
    exact hfinished rest
  have hfind : s.find c = some r := by simp [find, h.opened]
  obtain ⟨rest', halone⟩ := h.alone
  unfold step at ht
  dsimp only at ht
  rw [hfind, hcall] at ht
  cases ht
  refine .inl ⟨?_, rfl, ⟨e', rest, rfl, ?_⟩, ?_⟩
  · rw [h.opened]
    simp
  · intro x hx
    rcases List.mem_cons.mp hx with rfl | hx
    · exact hconn
    · exact h.free x hx
  · intro x hx
    rcases List.mem_cons.mp hx with rfl | hx
    · have hnext : HttpdPost.call ⟨e :: rest', some c, some c, r.upload, r.iap⟩ c .finished =
          (⟨e' :: rest', none, none, u', p'⟩, o) := hfinished rest'
      have hlast := r.alone_next c .finished (⟨e' :: rest, none, none, u', p'⟩, o)
      rw [halone, hnext] at hlast
      exact ⟨by rw [hlast]; rfl, by rw [hlast]; rfl, by rw [hlast]; rfl⟩
    · exact h.done x hx

theorem step_inv {l : Nat × PostCall} (h : s.Inv) (hkept : s.Kept l) (ht : step s l = some t) :
    t.Inv := by
  obtain ⟨d, l⟩ := l
  rcases h with h | ⟨c, r, e, rest, h⟩
  · have hother : (∀ uri n a, l = .begin uri n a → HttpdPost.postMode uri = none) → t.Inv := by
      intro hl
      have hfind : s.find d = none := by simp [find, h.opened]
      rw [step_of_other hfind (by rw [h.current]; nofun) hl ht]
      exact .inl h
    cases l with
    | begin uri n a =>
      cases hmode : HttpdPost.postMode uri with
      | some mode => exact h.step_begin hmode ht
      | none =>
        apply hother
        rintro _ _ _ ⟨⟩
        exact hmode
    | receive segments => exact hother nofun
    | finished => exact hother nofun
  · by_cases hd : d = c
    · subst hd
      cases l with
      | begin uri n a =>
        have hfind : s.find d = some r := by simp [find, h.opened]
        unfold step at ht
        dsimp only at ht
        rw [hfind] at ht
        cases ht
      | receive segments => exact h.step_receive ht
      | finished => exact h.step_finished ht
    · have hfind : s.find d = none := by
        have hne : (d == c) = false := beq_false_of_ne hd
        simp [find, h.opened, List.lookup_cons, hne]
      have hcurrent : s.http.current ≠ some d := by
        rw [h.http]
        exact fun hc => hd (Option.some.inj hc).symm
      rw [step_of_other hfind hcurrent ?_ ht]
      · exact .inr ⟨c, r, e, rest, h⟩
      · rintro uri n a rfl
        cases hmode : HttpdPost.postMode uri with
        | none => rfl
        | some mode =>
          have hopened := hkept (by rw [hmode]; exact Option.some_ne_none mode)
          exact absurd (h.opened.symm.trans hopened) (List.cons_ne_nil _ _)

/-- As long as requests come one after the other. -/
theorem run_isolated {upload : IapUploadStatus} {iap : IapState} {ls : List (Nat × PostCall)}
    (hkept : Step.Along step Kept (start upload iap) ls)
    (h : Step.run step (start upload iap) ls = some t) : t.Isolated :=
  (Step.run_invariant_along (fun hs hc ht => step_inv hs hc ht) (start_inv upload iap) hkept
    h).isolated

def smallConfig : IapWriterConfig where
  slotSize := 32
  eraseSize := 32
  progSize := 32
  slot_lt := Nat.le_of_ble_eq_true rfl
  erase_pos := Nat.succ_pos 31
  prog_pos := Nat.succ_pos 31
  erase_dvd := rfl

def smallFlash : IapState := .start smallConfig { bytes := fun _ => 0xFF, touched := fun _ => true }

def beginForm : PostCall := .begin "/can.cgi" 0 { status := .ok, erased := fun _ => false }

/-- A second request begins before the first has finished, which then keeps its entry. -/
theorem second_request_leaks :
    ¬∀ (upload : IapUploadStatus) (iap : IapState) (ls : List (Nat × PostCall)) (t : PostServer),
      Step.run step (start upload iap) ls = some t → t.Isolated := by
  intro h
  have hisolated := h .init smallFlash [(1, beginForm), (2, beginForm), (1, .finished)] _ rfl
  exact absurd hisolated.bounded (by decide +kernel)

instance (s : PostServer) : ∀ l : Nat × PostCall, Decidable (s.Kept l)
  | (_, .begin uri _ _) =>
    inferInstanceAs (Decidable (HttpdPost.postMode uri ≠ none → s.opened = []))
  | (_, .receive _) | (_, .finished) => .isTrue trivial

def noWrite : ChunkAnswers where
  first := ⟨.ok, fun _ => none⟩
  main := ⟨.ok, fun _ => none⟩

/-- The form `a=1&b=2` in two segments; between them an unknown page is asked for. -/
def formRun : List (Nat × PostCall) :=
  [(1, .begin "/can.cgi" 7 { status := .ok, erased := fun _ => false }),
    (1, .receive [([97, 61, 49, 38, 98], noWrite)]),
    (2, .begin "/can.html" 1 { status := .ok, erased := fun _ => false }),
    (2, .receive [([97], noWrite)]),
    (1, .receive [([61, 50], noWrite)]),
    (1, .finished),
    (2, beginForm)]

theorem run_isolated_form : ∃ t, Step.run step (start .init smallFlash) formRun = some t ∧
    t.done.flatMap (fun x => x.2.outputs.flatMap PostOutput.pairs) =
      [([97], [49]), ([98], [50])] ∧
    t.Isolated := by
  have hkept : Step.Along step Kept (start .init smallFlash) formRun := by
    decide +kernel
  have hpairs : (Step.run step (start .init smallFlash) formRun).map (fun t =>
      t.done.flatMap fun x => x.2.outputs.flatMap PostOutput.pairs) =
        some [([97], [49]), ([98], [50])] := by
    decide +kernel
  obtain ⟨t, hrun, hpairs⟩ := Option.map_eq_some_iff.mp hpairs
  exact ⟨t, hrun, hpairs, run_isolated hkept hrun⟩

end PostServer

end CanSniffer.Web
