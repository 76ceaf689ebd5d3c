import CanSniffer.Logging.PortTraffic
import CanSniffer.Logging.TracerRuns
import Mathlib.Data.List.Infix

universe u

namespace CanSniffer.Logging

open Lib Drivers Ports

namespace Session

variable {ρ : Type u} [Lwrb ρ] [LawfulLwrb ρ] {s t : Session ρ} {l l' : CanLog} {epoch : UInt8}

def storeCalls (k : Nat) : List BufferCall :=
  (List.replicate k [BufferCall.readNextBlock, .consume]).flatten

/-- Once storage has caught up, every accepted entry is in a block it took. -/
def AllStorable (s : Session ρ) : Prop :=
  ∃ k t, Step.run step s (storeCalls k) = some t ∧ t.consumed.flatMap Block.payload = s.accepted

theorem storeCalls_succ (k : Nat) :
    storeCalls (k + 1) = [.readNextBlock, .consume] ++ storeCalls k := rfl

theorem Inv.run_storeCalls (h : Inv epoch s l) (k : Nat)
    (hs : Step.run step s (storeCalls k) = some t) :
    ∃ l', Inv epoch t l' ∧ l'.current = l.current ∧ t.accepted = s.accepted := by
  induction k generalizing s l with
  | zero =>
    cases hs
    exact ⟨l, h, rfl, rfl⟩
  | succ k ih =>
    rw [storeCalls_succ] at hs
    obtain ⟨u, hone, hrest⟩ := Step.run_append_eq_some.mp hs
    obtain ⟨v, hread, hconsume⟩ := Step.run_cons_eq_some.mp hone
    obtain ⟨w, hw, hnil⟩ := Step.run_cons_eq_some.mp hconsume
    cases hread
    cases hnil
    obtain ⟨b, hb, rfl⟩ := Option.map_eq_some_iff.mp hw
    obtain ⟨lb, l', ht, hinv⟩ := h.readNextBlock.consume hb
    obtain ⟨l'', hinv', hcur, hacc⟩ := ih hinv hrest
    refine ⟨l'', hinv', ?_, ?_⟩
    · rw [hcur, (BlockLog.take_eq_some ht).2]
    · rw [hacc]
      unfold afterRead
      split <;> rfl

theorem Inv.store_all (h : Inv epoch s l) {bs : List LogBlock} (hl : l.complete = bs) :
    ∃ t l', Step.run step s (storeCalls bs.length) = some t ∧ Inv epoch t l' ∧
      l'.complete = [] ∧ l'.current = l.current ∧ t.accepted = s.accepted := by
  induction bs generalizing s l with
  | nil => exact ⟨s, l, rfl, h, hl, rfl, rfl⟩
  | cons b bs ih =>
    obtain ⟨l', ht⟩ := BlockLog.take_of_cons hl
    obtain ⟨hc, hu⟩ := BlockLog.take_eq_some ht
    obtain ⟨u, hrun, hinv, hacc, -⟩ := h.store ht
    have hl' : l'.complete = bs := (List.cons.inj (hc.symm.trans hl)).2
    obtain ⟨t, l'', hrest, hinv', hnil, hcur, hacc'⟩ := ih hinv hl'
    refine ⟨t, l'', ?_, hinv', hnil, hcur.trans hu, hacc'.trans hacc⟩
    rw [List.length_cons, storeCalls_succ, Step.run_append_eq_some]
    exact ⟨u, hrun, hrest⟩

theorem Inv.allStorable_iff (h : Inv epoch s l) : AllStorable s ↔ l.current = [] := by
  constructor
  · rintro ⟨k, t, hrun, hall⟩
    obtain ⟨l', hinv, hcur, hacc⟩ := h.run_storeCalls k hrun
    obtain ⟨gs, hg, haccept⟩ := hinv.consumed
    rw [flatMap_payload hg, ← hacc, haccept] at hall
    have hnil : l'.entries = [] := List.self_eq_append_right.mp hall
    rw [← hcur]
    exact (List.append_eq_nil_iff.mp hnil).2
  · intro hcur
    obtain ⟨t, l', hrun, hinv, hcomp, hcur', hacc⟩ := h.store_all rfl
    obtain ⟨gs, hg, haccept⟩ := hinv.consumed
    refine ⟨_, t, hrun, ?_⟩
    rw [flatMap_payload hg, ← hacc, haccept, BlockLog.entries, hcomp, hcur', hcur]
    simp

end Session

namespace CanLogManager

variable {ρ : Type u} [Lwrb ρ]

section Flush

variable {s t : CanLogManager ρ}

def Room (s : CanLogManager ρ) : Prop :=
  s.port.pageReceive.count = 0 ∨ s.port.canFrameBuffer.items.length < canFrameBufferElementsCount

omit [Lwrb ρ] in
theorem flush_eq_none_iff : s.port.flush = none ↔ ¬s.Room := by
  have hle := s.port.canFrameBuffer.le
  rw [FdcanMsgPort.flush_eq_none_iff, Room]
  omega

omit [Lwrb ρ] in
theorem not_room_bridge (h : ¬s.Room) (frame : TimedFrame) : ¬(s.bridge frame).Room := by
  have hle := s.port.canFrameBuffer.le
  have hpage := s.port.pageReceive.count_le
  unfold Room at *
  simp only [bridge, FdcanMsgPort.receive]
  split
  · simp only [PageType.addEntryToPage]
    omega
  · cases hs : s.port.canFrameBuffer.send s.port.pageReceive with
    | none => exact h
    | some buffer =>
      have := Mailbox.send_isSome.mp (hs ▸ rfl : (s.port.canFrameBuffer.send
        s.port.pageReceive).isSome = true)
      omega

variable [LawfulLwrb ρ]

def Waiting (s : CanLogManager ρ) : Prop := s.point = .flush ∧ ¬s.Room

theorem Waiting.step {e : TracerEvent} (h : s.Waiting) (hs : step s e = some t) : t.Waiting := by
  obtain ⟨hpoint, hroom⟩ := h
  cases e with
  | setTracer run =>
    cases hs
    exact ⟨hpoint, hroom⟩
  | bridge frame =>
    cases hs
    exact ⟨hpoint, not_room_bridge hroom frame⟩
  | canAbsDrop =>
    cases hs
    exact ⟨hpoint, hroom⟩
  | overrun channel =>
    cases hs
    cases channel <;> exact ⟨hpoint, hroom⟩
  | sd call =>
    obtain ⟨log, -, rfl⟩ := Option.map_eq_some_iff.mp hs
    exact ⟨hpoint, hroom⟩
  | flush =>
    simp only [CanLogManager.step, hpoint, flush_eq_none_iff.mpr hroom] at hs
    contradiction
  | _ =>
    simp only [CanLogManager.step, hpoint] at hs
    contradiction

/-- The call of the flush returns in some course of events. -/
def FlushReturns (s : CanLogManager ρ) : Prop := ∃ t, Step.Reachable step s t ∧ t.point ≠ .flush

theorem flushReturns_iff (h : s.point = .flush) : s.FlushReturns ↔ s.Room := by
  constructor
  · rintro ⟨t, hreach, hleft⟩
    by_contra hroom
    exact hleft (hreach.invariant Waiting.step ⟨h, hroom⟩).1
  · intro hroom
    cases hf : s.port.flush with
    | none => exact absurd hroom (flush_eq_none_iff.mp hf)
    | some port =>
      refine ⟨{ s with port, point := .prepare }, ⟨[.flush], ?_⟩, by simp⟩
      simp [Step.run, CanLogManager.step, h, hf]

omit [Lwrb ρ] [LawfulLwrb ρ] in
theorem room_iff {b : PortTraffic} (h : CarriesTraffic s.port b) : s.Room ↔ b.frames ≤ b.capacity := by
  rw [← not_iff_not, Nat.not_le, ← h.full_iff, ← flush_eq_none_iff, FdcanMsgPort.flush_eq_none_iff]

/-- In a run the logger never waits for ever exactly if between a flush and the next the port takes
no more frames than fill the pages that were left, with those that the polls have read. -/
theorem never_waits_for_ever_iff (zero : TimedFrame) (epoch : UInt8) (es : List TracerEvent) :
    Step.Throughout step (fun s : CanLogManager ρ => s.point = .flush → s.FlushReturns)
      (start zero epoch) es ↔
    ∀ (ds : List TracerEvent) (s : CanLogManager ρ), ds <+: es →
      Step.run step (start zero epoch) ds = some s → s.point = .flush →
      (traffic ρ zero epoch ds).frames ≤ (traffic ρ zero epoch ds).capacity := by
  constructor
  · intro h ds s hds hrun hpoint
    exact (room_iff (run_carries hrun)).mp ((flushReturns_iff hpoint).mp (h ds s hds hrun hpoint))
  · intro h ds s hds hrun hpoint
    exact (flushReturns_iff hpoint).mpr ((room_iff (run_carries hrun)).mpr (h ds s hds hrun hpoint))

/-- Twelve frames, two of them in a second page, wait when the tracer is stopped. -/
def twelveFrames : List TracerEvent :=
  startPoll 0 ++ List.replicate 12 (.bridge (emptyFrame .can2 7)) ++
    [.setTracer false, .poll 0 true, .flush, .prepare 0]

theorem never_waits_for_ever_iff_stop :
    (Step.run step (start (emptyFrame .can1 0) 0 : CanLogManager ByteQueue)
      twelveFrames).isSome = true ∧
    Step.Throughout step (fun s : CanLogManager ByteQueue => s.point = .flush → s.FlushReturns)
      (start (emptyFrame .can1 0) 0) twelveFrames := by
  have hbound : ∀ ds ∈ twelveFrames.inits, (traffic ByteQueue (emptyFrame .can1 0) 0 ds).frames ≤
      (traffic ByteQueue (emptyFrame .can1 0) 0 ds).capacity := by
    decide +kernel
  refine ⟨by decide +kernel, (never_waits_for_ever_iff (emptyFrame .can1 0) 0 _).mpr ?_⟩
  intro ds s hds _ _
  exact hbound ds ((List.mem_inits ds twelveFrames).mpr hds)

def paged (p : FdcanMsgPort TimedFrame canFrameBufferElementsCount) : Nat :=
  p.canFrameBuffer.items.length * canFramePageMaxEntries + p.pageReceive.count

omit [Lwrb ρ] [LawfulLwrb ρ] in
theorem paged_receive {p : FdcanMsgPort TimedFrame canFrameBufferElementsCount}
    (h : paged p < (canFrameBufferElementsCount + 1) * canFramePageMaxEntries)
    (frame : TimedFrame) :
    paged (p.receive frame) = paged p + 1 ∧ 0 < (p.receive frame).pageReceive.count := by
  have hpage := p.pageReceive.count_le
  unfold paged at *
  unfold FdcanMsgPort.receive
  split
  · simp [PageType.addEntryToPage]
    omega
  · next hfull =>
    cases hs : p.canFrameBuffer.send p.pageReceive with
    | none =>
      have := Mailbox.send_eq_none_iff.mp hs
      simp only [canFramePageMaxEntries, canFrameBufferElementsCount] at *
      omega
    | some buffer =>
      simp only [PageType.addEntryToPage, PageType.clear, Mailbox.items_send hs,
        List.length_append, List.length_singleton, canFramePageMaxEntries] at *
      omega

theorem run_bridges (frame : TimedFrame) (n : Nat) (hroom : paged s.port + n ≤
      (canFrameBufferElementsCount + 1) * canFramePageMaxEntries) :
    ∃ t, Step.run step s (List.replicate n (.bridge frame)) = some t ∧
      t.point = s.point ∧ t.runCanTracer = s.runCanTracer ∧
      t.runCanTracerOld = s.runCanTracerOld ∧ paged t.port = paged s.port + n ∧
      (0 < n → 0 < t.port.pageReceive.count) := by
  induction n generalizing s with
  | zero => exact ⟨s, rfl, rfl, rfl, rfl, rfl, by simp⟩
  | succ n ih =>
    obtain ⟨hpaged, hcount⟩ := paged_receive (p := s.port) (by omega) frame
    have hport : (s.bridge frame).port = s.port.receive frame := rfl
    obtain ⟨t, hrun, hpoint, hrunning, hold, hp, hpos⟩ := ih (s := s.bridge frame) (by
      rw [hport, hpaged]
      omega)
    refine ⟨t, hrun, hpoint, hrunning, hold, ?_, ?_⟩
    · rw [hp, hport, hpaged]
      omega
    · cases n with
      | zero =>
        cases hrun
        exact fun _ => hcount
      | succ n => exact fun _ => hpos (Nat.succ_pos n)

/-- With 1501 frames between a poll and the stop, the flush waits for ever. -/
theorem stop_waits_for_ever : ∃ es, ∃ s : CanLogManager ByteQueue,
    Step.run step (start (emptyFrame .can1 0) 0) es = some s ∧ s.point = .flush ∧
      ¬s.FlushReturns := by
  have hquiet := quiet_start (ρ := ByteQueue) (emptyFrame .can1 0) 0
  obtain ⟨log, -, hsync, -⟩ := offer_ok (inv_resetCounts
    (Session.Inv.start ((CanLogBuffer.boot : CanLogBuffer ByteQueue).setEpochCount 0)))
    (syncEntry 0 0) (Nat.succ_pos _)
  have hstart := run_startPoll hquiet (by decide) hsync
  have hpaged : paged (CanLogManager.started (start (emptyFrame .can1 0) 0) 0 log).port = 0 := rfl
  obtain ⟨t, hbridges, hpoint, -, hold, hp, hpos⟩ := run_bridges (emptyFrame .can1 0)
    (canFrameBufferElementsCount * canFramePageMaxEntries + 1) (by rw [hpaged]; decide)
  have hstop : Step.run step t [.setTracer false, .poll 0 true] = some { t with
      runCanTracer := false
      runCanTracerOld := false
      commitLog := true
      point := .flush } := by
    have hidle : t.point = .idle := hpoint
    have hrunning : t.runCanTracerOld = true := hold
    simp [Step.run, step, hidle, poll, hrunning]
  refine ⟨_, _, Step.run_append_eq_some.mpr ⟨_, hstart, Step.run_append_eq_some.mpr
    ⟨t, hbridges, hstop⟩⟩, rfl, ?_⟩
  rw [hpaged] at hp
  rw [flushReturns_iff rfl, Room]
  have hle := t.port.pageReceive.count_le
  simp only [paged, canFrameBufferElementsCount, canFramePageMaxEntries] at *
  omega

end Flush

section Commit

variable [LawfulLwrb ρ] {s t : CanLogManager ρ} {epoch : UInt8}

/-- Before a commit: no block is open, or at most six are waiting for storage. -/
def CanPad (s : CanLogManager ρ) : Prop :=
  Lwrb.getFull s.log.buf.rb1 % blockSize = 0 ∨ Lwrb.getFull s.log.buf.rb1 / blockSize < 7

theorem canPad_iff {l : CanLog} (h : Represents s.log.buf.rb1 l) :
    s.CanPad ↔ l.current = [] ∨ l.complete.length < 7 := by
  have hlt : l.openLen < blockSize := l.openLen_lt
  have hfull := Staged.full h
  rw [length_openBytes] at hfull
  rw [CanPad, hfull, ← BlockLog.openLen_eq_zero_iff]
  simp only [blockSize] at *
  omega

omit [LawfulLwrb ρ] in
theorem commit_log (s : CanLogManager ρ) (h : s.commitLog = true) :
    s.commit.log = { s.log with
      buf := if 0 < s.log.buf.usedSlots then s.log.buf.fillBlockWithPadding.1 else s.log.buf } := by
  rw [commit, if_pos h]

theorem pad_current {l : CanLog} :
    (l.pad.getD l).current = [] ↔ l.current = [] ∨ l.complete.length < 7 := by
  have hring : canLogLayout.ring = 8 := rfl
  cases hp : l.pad with
  | none =>
    obtain ⟨hcur, hlen⟩ := BlockLog.pad_eq_none_iff.mp hp
    refine ⟨.inl, ?_⟩
    rintro (h | h)
    · exact h
    · omega
  | some l' =>
    rw [Option.getD_some]
    by_cases hcur : l.current = []
    · rw [BlockLog.pad, dif_pos hcur] at hp
      cases hp
      simp [hcur]
    · obtain ⟨b, hb, -, -, hnil⟩ := BlockLog.pad_cases hp hcur
      exact iff_of_true hnil (.inr (by omega))

theorem allStorable_commit_iff (h : Inv epoch s) (hc : s.commitLog = true) :
    s.commit.log.AllStorable ↔ s.CanPad := by
  obtain ⟨l, hinv, -⟩ := h.log
  rw [canPad_iff hinv.represents, commit_log s hc]
  by_cases hused : 0 < s.log.buf.usedSlots
  · rw [if_pos hused, hinv.fillBlockWithPadding.allStorable_iff, pad_current]
  · have hnil : l.entries = [] := by
      by_contra hne
      exact hused ((CanLogBuffer.usedSlots_pos_iff hinv.represents).mpr hne)
    have hcur : l.current = [] := (List.append_eq_nil_iff.mp hnil).2
    rw [if_neg hused, hinv.allStorable_iff]
    exact iff_of_true hcur (.inl hcur)

/-- In a run every commit leaves all accepted entries in blocks that storage can take exactly if
each finds no open block or at most six closed ones. -/
theorem commits_leave_nothing_iff (zero : TimedFrame) (epoch : UInt8) (es : List TracerEvent) :
    Step.Throughout step (fun s : CanLogManager ρ =>
        s.point = .commit → s.commitLog = true → s.commit.log.AllStorable)
      (start zero epoch) es ↔
    Step.Throughout step (fun s : CanLogManager ρ =>
        s.point = .commit → s.commitLog = true → s.CanPad)
      (start zero epoch) es := by
  apply Step.throughout_congr
  rintro s ⟨fs, hrun⟩
  exact forall_congr' fun _ => forall_congr' fun hc => allStorable_commit_iff (run_inv hrun) hc

theorem commit_closes {l : CanLog} (hinv : Session.Inv epoch s.log l) (hne : l.current ≠ [])
    (hlen : l.complete.length < 7) (hc : s.commitLog = true) :
    ∃ l', Session.Inv epoch s.commit.log l' ∧ l'.current = [] ∧
      l'.complete.length = l.complete.length + 1 := by
  obtain ⟨b, l', hpad, -, hcomplete, hcur⟩ := BlockLog.pad_of_lt hne (Nat.succ_lt_succ hlen)
  have hused : 0 < s.log.buf.usedSlots := by
    rw [CanLogBuffer.usedSlots_pos_iff hinv.represents]
    simp [BlockLog.entries, hne]
  have hinv' := hinv.fillBlockWithPadding
  rw [hpad, Option.getD_some] at hinv'
  refine ⟨l', ?_, hcur, ?_⟩
  · rw [commit_log s hc, if_pos hused]
    exact hinv'
  · rw [hcomplete, List.length_append, List.length_singleton]

theorem run_storage {l : CanLog} (hinv : Session.Inv epoch s.log l) (hcur : l.current = [])
    (hlen : l.complete.length = 1) :
    ∃ t, Step.run step s [.sd .readNextBlock, .sd .consume] = some t ∧ t.logged = s.logged ∧
      t.log.accepted = s.log.accepted ∧ t.log.buf.stagedEntries = [] := by
  obtain ⟨b, hb⟩ := List.length_eq_one_iff.mp hlen
  obtain ⟨l', ht⟩ := BlockLog.take_of_cons hb
  obtain ⟨hc, hu⟩ := BlockLog.take_eq_some ht
  obtain ⟨log, hrun, hinv', hacc, -⟩ := hinv.store ht
  obtain ⟨log₁, hread, hrest⟩ := Step.run_cons_eq_some.mp hrun
  obtain ⟨log₂, hconsume, hnil⟩ := Step.run_cons_eq_some.mp hrest
  cases hnil
  refine ⟨{ s with log }, ?_, rfl, hacc, ?_⟩
  · exact Step.run_cons_eq_some.mpr ⟨_, step_sd hread,
      Step.run_cons_eq_some.mpr ⟨_, step_sd hconsume, rfl⟩⟩
  · rw [CanLogBuffer.stagedEntries_eq hinv'.represents, BlockLog.entries, hu, hcur]
    rw [hb] at hc
    rw [← (List.cons.inj hc).2]
    rfl

theorem run_startStop (h : s.Quiet false) (hc : s.port.pageReceive.count = 0) {l : CanLog}
    (hinv : Session.Inv epoch s.log l) (hcur : l.current = []) (hlen : l.complete.length < 7) :
    ∃ es t l', Step.run step s es = some t ∧ t.Quiet false ∧ t.port.pageReceive.count = 0 ∧
      Session.Inv epoch t.log l' ∧ l'.current = [] ∧
      l'.complete.length = l.complete.length + 1 := by
  obtain ⟨t, l₁, hrun, hinv₁, hc₁, hu₁, hpoint, hcommit, hrunning, hold, hemit, hcan1, hcan2,
    hcount, hindex, hitems⟩ := run_oneFrame h hc hinv hcur .can1 0
  obtain ⟨l₂, hinv₂, hu₂, hc₂⟩ := commit_closes hinv₁ (by rw [hu₁]; simp)
    (by rw [hc₁]; exact hlen) hcommit
  have hend : Step.run step t [.commit, .check] = some t.commit.check := by
    simp [Step.run, step, hpoint, commit, hcommit]
  refine ⟨_, t.commit.check, l₂, Step.run_append_eq_some.mpr ⟨t, hrun, hend⟩, ?_, ?_, hinv₂, hu₂,
    ?_⟩
  · constructor <;>
      simp [commit, check, hcommit, hrunning, hold, hemit, hcan1, hcan2, hindex, hitems]
  · simpa [commit, check, hcommit] using hcount
  · rw [hc₂, hc₁]

theorem run_startStops (zero : TimedFrame) (epoch : UInt8) (k : Nat) (hk : k ≤ 7) :
    ∃ es t l, Step.run step (start zero epoch : CanLogManager ρ) es = some t ∧ t.Quiet false ∧
      t.port.pageReceive.count = 0 ∧ Session.Inv epoch t.log l ∧ l.current = [] ∧
      l.complete.length = k := by
  induction k with
  | zero =>
    exact ⟨[], _, BlockLog.empty, rfl, quiet_start zero epoch, rfl,
      Session.Inv.start (CanLogBuffer.boot.setEpochCount epoch), rfl, rfl⟩
  | succ k ih =>
    obtain ⟨es, t, l, hrun, hquiet, hcount, hinv, hcur, hlen⟩ := ih (Nat.le_of_succ_le hk)
    obtain ⟨fs, u, l', hrun', hquiet', hcount', hinv', hcur', hlen'⟩ :=
      run_startStop hquiet hcount hinv hcur (by omega)
    exact ⟨es ++ fs, u, l', Step.run_append_eq_some.mpr ⟨t, hrun, hrun'⟩, hquiet', hcount', hinv',
      hcur', by omega⟩

theorem commits_leave_nothing_iff_stop : ∃ s : CanLogManager ByteQueue,
    Step.run step (start (emptyFrame .can1 0) 0)
      (startPoll 0 ++ .bridge (emptyFrame .can2 7) :: stopPoll 0) = some s ∧
    s.point = .commit ∧ s.commitLog = true ∧
    (Step.Throughout step (fun s : CanLogManager ByteQueue =>
        s.point = .commit → s.commitLog = true → s.commit.log.AllStorable)
      (start (emptyFrame .can1 0) 0)
      (startPoll 0 ++ .bridge (emptyFrame .can2 7) :: stopPoll 0) ↔
    Step.Throughout step (fun s : CanLogManager ByteQueue =>
        s.point = .commit → s.commitLog = true → s.CanPad)
      (start (emptyFrame .can1 0) 0)
      (startPoll 0 ++ .bridge (emptyFrame .can2 7) :: stopPoll 0)) := by
  obtain ⟨s, -, hrun, -, -, -, hpoint, hcommit, -⟩ := run_oneFrame
    (quiet_start (ρ := ByteQueue) (emptyFrame .can1 0) 0) rfl
    (Session.Inv.start (CanLogBuffer.boot.setEpochCount 0)) rfl .can2 7
  exact ⟨s, hrun, hpoint, hcommit, commits_leave_nothing_iff _ _ _⟩

/-- After seven starts and stops with storage stalled, the commit of the eighth stop finds no
room to pad: the frame it has just logged is in no block that storage can take. -/
theorem commit_without_room : ∃ es, ∃ s : CanLogManager ByteQueue,
    Step.run step (start (emptyFrame .can1 0) 0) es = some s ∧ s.point = .commit ∧ s.commitLog = true ∧
      (∃ e : FrameEntry, .frame e ∈ s.log.accepted) ∧ ¬s.commit.log.AllStorable := by
  obtain ⟨es, u, l, hrun, hquiet, hcount, hinv, hcur, hlen⟩ :=
    run_startStops (ρ := ByteQueue) (emptyFrame .can1 0) 0 7 (Nat.le_refl 7)
  obtain ⟨t, l₁, hrun₁, hinv₁, hc₁, hu₁, hpoint, hcommit, -⟩ :=
    run_oneFrame hquiet hcount hinv hcur .can1 0
  have hall := Step.run_append_eq_some.mpr ⟨u, hrun, hrun₁⟩
  refine ⟨_, t, hall, hpoint, hcommit, ?_, ?_⟩
  · obtain ⟨gs, -, hacc⟩ := hinv₁.consumed
    refine ⟨appCanLogFillEntry (emptyFrame .can1 0).frame (emptyFrame .can1 0).fits
      (.replicate 56 0) (emptyFrame .can1 0).frame.timestamp
      (emptyFrame .can1 0).frame.channel, ?_⟩
    rw [hacc, BlockLog.entries, hu₁]
    simp [frameEntry]
  · rw [allStorable_commit_iff (run_inv hall) hcommit, canPad_iff hinv₁.represents, hc₁, hlen, hu₁]
    simp

end Commit

end CanLogManager

end CanSniffer.Logging
