import CanSniffer.Lib.Transition
import CanSniffer.Ports.FdcanMsgPort

universe u

namespace CanSniffer.Ports

open Lib

namespace FdcanMsgPort

variable {φ : Type u} {n : Nat} {p : FdcanMsgPort φ n}

def PagesFilled (p : FdcanMsgPort φ n) : Prop :=
  ∀ q ∈ p.canFrameBuffer.items, 0 < q.count

@[simp] theorem unread_of_index (h : p.indexRead = 0) : p.unread = [] := by
  simp [unread, h]

theorem receive_spec (p : FdcanMsgPort φ n) (frame : φ) :
    ((p.receive frame).inFlight = p.inFlight ++ [frame] ∧
      (p.receive frame).frameDropCount = p.frameDropCount) ∨
    ((p.receive frame).inFlight = p.inFlight ∧
      (p.receive frame).frameDropCount = p.frameDropCount + 1) := by
  unfold receive
  split
  · left
    simp [inFlight, unread, queued]
  · cases hs : p.canFrameBuffer.send p.pageReceive with
    | none => exact .inr ⟨rfl, rfl⟩
    | some buffer =>
      left
      simp [inFlight, unread, queued, Mailbox.items_send hs]

theorem PagesFilled.receive (h : p.PagesFilled) (frame : φ) : (p.receive frame).PagesFilled := by
  unfold FdcanMsgPort.receive
  split
  · exact h
  · next hfull =>
    cases hs : p.canFrameBuffer.send p.pageReceive with
    | none => exact h
    | some buffer =>
      intro q hq
      rw [show _ = buffer.items from rfl, Mailbox.items_send hs] at hq
      rcases List.mem_append.mp hq with hq | hq
      · exact h q hq
      · obtain rfl := List.mem_singleton.mp hq
        exact Nat.lt_of_lt_of_le (by decide) (Nat.not_lt.mp hfull)

theorem handOut_spec (p : FdcanMsgPort φ n) (received : Bool) :
    p.inFlight = (p.handOut received).2.dst.toList ++ (p.handOut received).1.inFlight := by
  unfold handOut
  split
  · next h =>
    have hle := p.index_le
    have hlt : p.pageRead.count - p.indexRead < p.pageRead.count := by omega
    have hidx : p.pageRead.count - p.indexRead + 1 = p.pageRead.count - (p.indexRead - 1) := by
      omega
    simp only [inFlight, unread, queued, Option.toList_some]
    rw [p.pageRead.drop_entries hlt, hidx]
    rfl
  · rfl

theorem read_spec (p : FdcanMsgPort φ n) :
    p.inFlight = p.read.2.dst.toList ++ p.read.1.inFlight := by
  unfold read
  split
  · next h0 =>
    cases hr : p.canFrameBuffer.receive with
    | none => exact handOut_spec p false
    | some pq =>
      obtain ⟨pageRead, buffer⟩ := pq
      have hitems := Mailbox.items_receive hr
      rw [← handOut_spec]
      simp [inFlight, queued, h0, hitems, unread]
  · exact handOut_spec p false

/-- `read` reports bytes exactly when it has set `dst`: a page in the buffer is never empty. -/
theorem read_received (h : p.PagesFilled) : p.read.2.received = p.read.2.dst.isSome := by
  have hand (q : FdcanMsgPort φ n) (b : Bool) (hb : b = true → 0 < q.indexRead) :
      (q.handOut b).2.received = (q.handOut b).2.dst.isSome := by
    unfold handOut
    split
    · rfl
    · next h0 =>
      cases b with
      | false => rfl
      | true => exact absurd (hb rfl) h0
  unfold read
  split
  · cases hr : p.canFrameBuffer.receive with
    | none => exact hand _ _ (by simp)
    | some pq =>
      obtain ⟨pageRead, buffer⟩ := pq
      apply hand
      intro _
      apply h
      rw [Mailbox.items_receive hr]
      exact List.mem_cons_self
  · exact hand _ _ (by simp)

theorem handOut_buffer (p : FdcanMsgPort φ n) (b : Bool) :
    (p.handOut b).1.canFrameBuffer = p.canFrameBuffer ∧
      (p.handOut b).1.frameDropCount = p.frameDropCount ∧
      (p.handOut b).1.pageReceive = p.pageReceive := by
  unfold handOut
  split <;> simp

theorem PagesFilled.read (h : p.PagesFilled) : p.read.1.PagesFilled := by
  unfold FdcanMsgPort.read PagesFilled
  split
  · cases hr : p.canFrameBuffer.receive with
    | none =>
      intro q hq
      simp only [handOut_buffer] at hq
      exact h q hq
    | some pq =>
      obtain ⟨pageRead, buffer⟩ := pq
      intro q hq
      simp only [handOut_buffer] at hq
      apply h
      rw [Mailbox.items_receive hr]
      exact List.mem_cons_of_mem _ hq
  · intro q hq
    simp only [handOut_buffer] at hq
    exact h q hq

theorem frameDropCount_read (p : FdcanMsgPort φ n) :
    p.read.1.frameDropCount = p.frameDropCount := by
  unfold FdcanMsgPort.read
  split
  · cases p.canFrameBuffer.receive <;> simp [handOut_buffer]
  · simp [handOut_buffer]

theorem flush_cases {p' : FdcanMsgPort φ n} (h : p.flush = some p') :
    (p.pageReceive.count = 0 ∧ p' = p) ∨
    (0 < p.pageReceive.count ∧ ∃ buffer, p.canFrameBuffer.send p.pageReceive = some buffer ∧
      p' = { p with canFrameBuffer := buffer, pageReceive := p.pageReceive.clear }) := by
  unfold flush at h
  split at h
  · next hpos =>
    obtain ⟨buffer, hs, rfl⟩ := Option.map_eq_some_iff.mp h
    exact .inr ⟨hpos, buffer, hs, rfl⟩
  · next hzero =>
    cases h
    exact .inl ⟨Nat.eq_zero_of_not_pos hzero, rfl⟩

theorem flush_eq_none_iff :
    p.flush = none ↔ 0 < p.pageReceive.count ∧ p.canFrameBuffer.items.length = n := by
  unfold flush
  split
  · next hpos => simp [hpos, Mailbox.send_eq_none_iff]
  · next hzero => simp [hzero]

theorem flush_spec {p' : FdcanMsgPort φ n} (h : p.flush = some p') (hf : p.PagesFilled) :
    p'.inFlight = p.inFlight ∧ p'.frameDropCount = p.frameDropCount ∧ p'.PagesFilled := by
  rcases flush_cases h with ⟨-, rfl⟩ | ⟨hpos, buffer, hs, rfl⟩
  · exact ⟨rfl, rfl, hf⟩
  · have hitems := Mailbox.items_send hs
    refine ⟨by simp [inFlight, unread, queued, hitems], rfl, ?_⟩
    intro q hq
    rw [show _ = buffer.items from rfl, hitems] at hq
    rcases List.mem_append.mp hq with hq | hq
    · exact hf q hq
    · obtain rfl := List.mem_singleton.mp hq
      exact hpos

end FdcanMsgPort

inductive PortCall (φ : Type u)
  | receive : φ → PortCall φ
  | flush
  | read

/-- The port with what was offered to it, each frame with whether it was counted as dropped, and
what was read out of it. -/
structure PortHistory (φ : Type u) (n : Nat) where
  port : FdcanMsgPort φ n
  offered : List (φ × Bool)
  returned : List φ

namespace PortHistory

variable {φ : Type u} {n : Nat} {s t : PortHistory φ n}

def start (zero : φ) : PortHistory φ n where
  port := (FdcanMsgPort.boot zero).init
  offered := []
  returned := []

def step : Step (PortHistory φ n) (PortCall φ)
  | s, .receive frame =>
    let port := s.port.receive frame
    let dropped := decide (s.port.frameDropCount < port.frameDropCount)
    some { s with port, offered := s.offered ++ [(frame, dropped)] }
  | s, .flush => s.port.flush.map fun port => { s with port }
  | s, .read =>
    let r := s.port.read
    some { s with port := r.1, returned := s.returned ++ r.2.dst.toList }

def kept (s : PortHistory φ n) : List φ := (s.offered.filter fun f => !f.2).map Prod.fst

structure Inv (s : PortHistory φ n) : Prop where
  filled : s.port.PagesFilled
  conserved : s.returned ++ s.port.inFlight = s.kept
  counted : s.port.frameDropCount = s.offered.countP Prod.snd

theorem Inv.start (zero : φ) : Inv (start zero : PortHistory φ n) where
  filled := by simp [PortHistory.start, FdcanMsgPort.init, FdcanMsgPort.PagesFilled]
  conserved := by
    simp [PortHistory.start, FdcanMsgPort.init, FdcanMsgPort.boot, FdcanMsgPort.inFlight,
      FdcanMsgPort.queued, PageType.entries, kept]
  counted := rfl

theorem step_inv {c : PortCall φ} (h : Inv s) (hs : step s c = some t) : Inv t := by
  cases c with
  | receive frame =>
    cases hs
    rcases FdcanMsgPort.receive_spec s.port frame with ⟨hin, hdrop⟩ | ⟨hin, hdrop⟩
    · refine ⟨h.filled.receive frame, ?_, ?_⟩
      · simp [kept, hin, hdrop, ← List.append_assoc, h.conserved]
      · simp [hdrop, h.counted]
    · refine ⟨h.filled.receive frame, ?_, ?_⟩
      · simpa [kept, hin, hdrop] using h.conserved
      · simp [hdrop, h.counted]
  | flush =>
    obtain ⟨port, hf, rfl⟩ := Option.map_eq_some_iff.mp hs
    obtain ⟨hin, hdrop, hfill⟩ := FdcanMsgPort.flush_spec hf h.filled
    refine ⟨hfill, ?_, ?_⟩
    · rw [hin]
      exact h.conserved
    · rw [hdrop]
      exact h.counted
  | read =>
    cases hs
    refine ⟨h.filled.read, ?_, ?_⟩
    · rw [List.append_assoc, ← FdcanMsgPort.read_spec]
      exact h.conserved
    · rw [FdcanMsgPort.frameDropCount_read]
      exact h.counted

theorem run_inv {zero : φ} {cs : List (PortCall φ)} (h : Step.run step (start zero) cs = some s) :
    Inv s :=
  Step.run_invariant step_inv (Inv.start zero) h

/-- Frames come out as they were offered, but for those counted as dropped, and pages stay
within their bounds. -/
theorem frames_conserved (zero : φ) (cs : List (PortCall φ))
    (h : Step.run step (start zero) cs = some s) :
    s.returned ++ s.port.unread ++ s.port.queued ++ s.port.pageReceive.entries = s.kept ∧
    s.port.frameDropCount = s.offered.countP Prod.snd ∧
    s.port.pageReceive.count ≤ canFramePageMaxEntries ∧
    s.port.pageRead.count ≤ canFramePageMaxEntries ∧
    s.port.indexRead ≤ s.port.pageRead.count ∧
    ∀ p ∈ s.port.canFrameBuffer.items, p.count ≤ canFramePageMaxEntries := by
  have hinv := run_inv h
  refine ⟨?_, hinv.counted, s.port.pageReceive.count_le, s.port.pageRead.count_le,
    s.port.index_le, fun p _ => p.count_le⟩
  simpa [FdcanMsgPort.inFlight] using hinv.conserved

theorem frames_conserved_two : ∃ s : PortHistory Nat canFrameBufferElementsCount,
    Step.run step (start 0) [.receive 7, .receive 8, .flush, .receive 9, .read] = some s ∧
    (s.returned = [7] ∧ s.port.unread = [8] ∧ s.port.pageReceive.entries = [9]) ∧
    s.returned ++ s.port.unread ++ s.port.queued ++ s.port.pageReceive.entries = s.kept ∧
    s.port.frameDropCount = s.offered.countP Prod.snd ∧
    s.port.pageReceive.count ≤ canFramePageMaxEntries ∧
    s.port.pageRead.count ≤ canFramePageMaxEntries ∧
    s.port.indexRead ≤ s.port.pageRead.count ∧
    ∀ p ∈ s.port.canFrameBuffer.items, p.count ≤ canFramePageMaxEntries :=
  ⟨_, rfl, by decide,
    frames_conserved 0 [.receive 7, .receive 8, .flush, .receive 9, .read] rfl⟩

end PortHistory

end CanSniffer.Ports
