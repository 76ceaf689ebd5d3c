import CanSniffer.Logging.FrameLedger

universe u

namespace CanSniffer.Logging

open Lib Drivers Ports

/-- Since the last flush, behind which `left` pages were queued, the port has taken `frames` and
`taken` pages were read. -/
structure PortTraffic where
  left : Nat
  frames : Nat
  taken : Nat
  deriving DecidableEq, Repr

namespace PortTraffic

def boot : PortTraffic where
  left := 0
  frames := 0
  taken := 0

/-- A page is sent when the first frame comes that it cannot hold. -/
def sent (b : PortTraffic) : Nat := (b.frames - 1) / canFramePageMaxEntries

/-- As many frames fill the pages for which there is room, and leave the last one open. -/
def capacity (b : PortTraffic) : Nat :=
  canFramePageMaxEntries * (canFrameBufferElementsCount + b.taken - b.left)

/-- What does not fit into the open page either is refused. -/
def bridge (b : PortTraffic) : PortTraffic :=
  { b with frames := min (b.frames + 1) (b.capacity + canFramePageMaxEntries) }

def read (b : PortTraffic) : PortTraffic :=
  if b.taken < b.left + b.sent then { b with taken := b.taken + 1 } else b

def flush (b : PortTraffic) : PortTraffic where
  left := b.left + (b.frames + (canFramePageMaxEntries - 1)) / canFramePageMaxEntries - b.taken
  frames := 0
  taken := 0

@[simp] theorem sent_flush (b : PortTraffic) : b.flush.sent = 0 := by simp [sent, flush]

end PortTraffic

structure CarriesTraffic (p : FdcanMsgPort TimedFrame canFrameBufferElementsCount)
    (b : PortTraffic) : Prop where
  pages : p.canFrameBuffer.items.length + b.taken = b.left + b.sent
  page : p.pageReceive.count + canFramePageMaxEntries * b.sent = b.frames

namespace CarriesTraffic

variable {p q : FdcanMsgPort TimedFrame canFrameBufferElementsCount} {b : PortTraffic}

theorem boot (zero : TimedFrame) : CarriesTraffic (FdcanMsgPort.boot zero).init .boot := ⟨rfl, rfl⟩

theorem bridge (h : CarriesTraffic p b) (frame : TimedFrame) :
    CarriesTraffic (p.receive frame) b.bridge := by
  obtain ⟨hpages, hpage⟩ := h
  have hle := p.canFrameBuffer.le
  have hcount := p.pageReceive.count_le
  unfold FdcanMsgPort.receive
  split
  · next hroom =>
    constructor
    · show p.canFrameBuffer.items.length + b.taken = b.left + b.bridge.sent
      simp only [PortTraffic.bridge, PortTraffic.sent, PortTraffic.capacity,
        canFrameBufferElementsCount, canFramePageMaxEntries] at *
      omega
    · show p.pageReceive.count + 1 + canFramePageMaxEntries * b.bridge.sent = b.bridge.frames
      simp only [PortTraffic.bridge, PortTraffic.sent, PortTraffic.capacity,
        canFrameBufferElementsCount, canFramePageMaxEntries] at *
      omega
  · next hfull =>
    cases hs : p.canFrameBuffer.send p.pageReceive with
    | none =>
      have hlen := Mailbox.send_eq_none_iff.mp hs
      constructor
      · show p.canFrameBuffer.items.length + b.taken = b.left + b.bridge.sent
        simp only [PortTraffic.bridge, PortTraffic.sent, PortTraffic.capacity,
          canFrameBufferElementsCount, canFramePageMaxEntries] at *
        omega
      · show p.pageReceive.count + canFramePageMaxEntries * b.bridge.sent = b.bridge.frames
        simp only [PortTraffic.bridge, PortTraffic.sent, PortTraffic.capacity,
          canFrameBufferElementsCount, canFramePageMaxEntries] at *
        omega
    | some buffer =>
      have hlen : buffer.items.length = p.canFrameBuffer.items.length + 1 := by
        rw [Mailbox.items_send hs, List.length_append, List.length_singleton]
      have hbuffer := buffer.le
      constructor
      · show buffer.items.length + b.taken = b.left + b.bridge.sent
        simp only [PortTraffic.bridge, PortTraffic.sent, PortTraffic.capacity,
          canFrameBufferElementsCount, canFramePageMaxEntries] at *
        omega
      · show 0 + 1 + canFramePageMaxEntries * b.bridge.sent = b.bridge.frames
        simp only [PortTraffic.bridge, PortTraffic.sent, PortTraffic.capacity,
          canFrameBufferElementsCount, canFramePageMaxEntries] at *
        omega

theorem handOut (h : CarriesTraffic p b) (received : Bool) :
    CarriesTraffic (p.handOut received).1 b := by
  obtain ⟨hbuffer, -, hpage⟩ := p.handOut_buffer received
  constructor
  · rw [hbuffer]
    exact h.pages
  · rw [hpage]
    exact h.page

theorem read (h : CarriesTraffic p b) :
    CarriesTraffic p.read.1 (if p.indexRead = 0 then b.read else b) := by
  unfold FdcanMsgPort.read
  split
  · cases hr : p.canFrameBuffer.receive with
    | none =>
      have hpages := h.pages
      rw [Mailbox.receive_eq_none_iff.mp hr, List.length_nil, Nat.zero_add] at hpages
      rw [PortTraffic.read, if_neg (by omega)]
      exact h.handOut false
    | some r =>
      obtain ⟨first, rest⟩ := r
      have hpages := h.pages
      rw [Mailbox.items_receive hr, List.length_cons] at hpages
      rw [PortTraffic.read, if_pos (by omega)]
      have hbegun : CarriesTraffic { p with
          canFrameBuffer := rest
          pageRead := first
          indexRead := first.count
          index_le := Nat.le_refl _ } { b with taken := b.taken + 1 } := by
        refine ⟨?_, h.page⟩
        show rest.items.length + (b.taken + 1) = b.left + b.sent
        omega
      exact hbegun.handOut true
  · exact h.handOut false

theorem flush (h : CarriesTraffic p b) (hflush : p.flush = some q) :
    CarriesTraffic q b.flush := by
  obtain ⟨hpages, hpage⟩ := h
  have hcount := p.pageReceive.count_le
  rcases FdcanMsgPort.flush_cases hflush with ⟨hempty, rfl⟩ | ⟨hpos, buffer, hs, rfl⟩
  · constructor
    · simp only [PortTraffic.flush, PortTraffic.sent, canFramePageMaxEntries] at *
      omega
    · rw [PortTraffic.sent_flush]
      exact hempty
  · have hlen : buffer.items.length = p.canFrameBuffer.items.length + 1 := by
      rw [Mailbox.items_send hs, List.length_append, List.length_singleton]
    constructor
    · show buffer.items.length + b.flush.taken = b.flush.left + b.flush.sent
      simp only [PortTraffic.flush, PortTraffic.sent, canFramePageMaxEntries] at *
      omega
    · rw [PortTraffic.sent_flush]
      rfl

theorem full_iff (h : CarriesTraffic p b) :
    0 < p.pageReceive.count ∧ p.canFrameBuffer.items.length = canFrameBufferElementsCount ↔
      b.capacity < b.frames := by
  obtain ⟨hpages, hpage⟩ := h
  have hle := p.canFrameBuffer.le
  have hcount := p.pageReceive.count_le
  simp only [PortTraffic.capacity, PortTraffic.sent, canFrameBufferElementsCount,
    canFramePageMaxEntries] at *
  omega

end CarriesTraffic

namespace CanLogManager

variable {ρ : Type u} [Lwrb ρ] [LawfulLwrb ρ] {s t : CanLogManager ρ} {b : PortTraffic}

/-- A poll reads as long as it has not left its drain loop. -/
def noteTraffic (s : CanLogManager ρ) : TracerEvent → PortTraffic → PortTraffic
  | .bridge _, b => b.bridge
  | .flush, b => b.flush
  | .fetch _, b =>
    match s.point with
    | .drain n =>
      if (n < canlogIngestBatchMax ∨ s.runCanTracer = false) ∧ s.port.indexRead = 0 then b.read
      else b
    | _ => b
  | _, b => b

omit [Lwrb ρ] [LawfulLwrb ρ] in
theorem poll_carries (h : CarriesTraffic s.port b) (absTime : UInt64) (started : Bool) :
    CarriesTraffic (s.poll absTime started).port b := by
  unfold CanLogManager.poll
  split
  · exact h
  · split
    · exact ⟨h.pages, h.page⟩
    · exact h

theorem fetch_port (s : CanLogManager ρ) (n : Nat) (absTime : UInt64) :
    (s.fetch n absTime).port =
      if n < canlogIngestBatchMax ∨ s.runCanTracer = false then s.port.read.1 else s.port := by
  unfold fetch
  split
  · simp only
    split
    · next newFrame hreceived hdst =>
      have hsched := scheduleSync_keeps { s with
        port := s.port.read.1
        checks := { s.checks with
          canLogManagerFrameCount := s.checks.canLogManagerFrameCount + 1 } } absTime
      generalize CanLogManager.scheduleSync _ absTime = u at hsched ⊢
      obtain ⟨-, hport, -⟩ := hsched
      split
      · obtain ⟨-, hemit, -⟩ := emitSync_keeps { u with emitSyncEntry := false } absTime
          newFrame.frame.timestamp newFrame.arrival
        exact hemit.trans hport
      · exact hport
    · rfl
  · rfl

theorem step_carries {e : TracerEvent} (h : CarriesTraffic s.port b) (hs : step s e = some t) :
    CarriesTraffic t.port (s.noteTraffic e b) := by
  cases step_does hs with
  | setTracer run => exact h
  | bridge frame => exact h.bridge frame
  | canAbsDrop => exact h
  | overrun channel => cases channel <;> exact h
  | sd hlog => exact h
  | poll hpoint absTime started => exact poll_carries h absTime started
  | flush hpoint hport => exact h.flush hport
  | prepare hpoint absTime =>
    show CarriesTraffic (s.scheduleSync absTime).port b
    rw [(s.scheduleSync_keeps absTime).2.1]
    exact h
  | @fetch n hpoint absTime =>
    rw [fetch_port]
    simp only [noteTraffic, hpoint]
    by_cases hgoes : n < canlogIngestBatchMax ∨ s.runCanTracer = false
    · rw [if_pos hgoes]
      simp only [hgoes, true_and]
      exact h.read
    · rw [if_neg hgoes, if_neg fun hread => hgoes hread.1]
      exact h
  | @store n newFrame hpoint beyond opened =>
    rw [(s.store_keeps n newFrame beyond opened).2.1]
    exact h
  | account hpoint => exact h
  | idleSync hpoint =>
    rw [s.idleSync_keeps.2]
    exact h
  | commit hpoint =>
    show CarriesTraffic s.commit.port b
    unfold CanLogManager.commit
    split
    · exact h
    · exact h
  | check hpoint => exact h

variable (ρ) in
def traffic (zero : TimedFrame) (epoch : UInt8) (es : List TracerEvent) : PortTraffic :=
  Step.record step noteTraffic (start zero epoch : CanLogManager ρ) es .boot

theorem run_carries {zero : TimedFrame} {epoch : UInt8} {es : List TracerEvent}
    (h : Step.run step (start zero epoch) es = some s) :
    CarriesTraffic s.port (traffic ρ zero epoch es) :=
  Step.run_record_invariant (I := fun s b => CarriesTraffic s.port b) step_carries
    (CarriesTraffic.boot zero) h

end CanLogManager

end CanSniffer.Logging
