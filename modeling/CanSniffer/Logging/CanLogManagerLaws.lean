import CanSniffer.Logging.CanLogManager
import CanSniffer.Ports.FdcanMsgPortLaws

universe u

namespace CanSniffer.Logging

open Lib Drivers Ports

theorem mul_length_le_total (es : List LogEntry) : 11 * es.length ≤ canLogLayout.total es := by
  induction es with
  | nil => exact Nat.le_refl 0
  | cons e es ih =>
    have hsize := e.size_bounds
    have htotal : canLogLayout.total (e :: es) = e.size + canLogLayout.total es := rfl
    rw [htotal, List.length_cons]
    omega

theorem mul_length_flatMap_le (bs : List LogBlock) :
    11 * (bs.flatMap Sealed.entries).length ≤ bs.length * blockSize := by
  induction bs with
  | nil => exact Nat.le_refl 0
  | cons b bs ih =>
    have htotal := mul_length_le_total b.entries
    have hfits : sizeofCanLogBlockHeaderType + canLogLayout.total b.entries ≤ blockSize := b.fits
    rw [List.flatMap_cons, List.length_append, List.length_cons, Nat.succ_mul bs.length]
    omega

theorem length_entries_le (l : CanLog) : l.entries.length ≤ blockSize := by
  have hblocks := mul_length_flatMap_le l.complete
  have htotal := mul_length_le_total l.current
  have hcur : sizeofCanLogBlockHeaderType + canLogLayout.total l.current < blockSize :=
    l.current_lt
  have hbound : l.complete.length < 8 := l.bound
  rw [BlockLog.entries, List.length_append]
  simp only [blockSize] at *
  omega

variable {ρ : Type u} [Lwrb ρ]

/-- The buffer's counters never run ahead of what is in the ring. -/
structure Tallied (s : CanLogBuffer ρ) (l : CanLog) : Prop where
  count_le : s.frameCount1 ≤ s.frameCount2 + l.entries.countP LogEntry.isFrame
  backlog_le : s.backlog ≤ blockSize
  drop_count : s.frameDropCount = 0

section Log

variable [LawfulLwrb ρ] {s : CanLogBuffer ρ} {l l' : CanLog}

namespace Tallied

theorem addEntry (h : Tallied s l) (hr : Represents s.rb1 l) (e : LogEntry) :
    Tallied (s.addEntry e.bytes e.size).1 ((l.add e).getD l) := by
  have hspec := CanLogBuffer.addEntry_spec hr e
  cases hadd : l.add e with
  | none =>
    rw [hadd] at hspec
    simp only at hspec
    rw [hspec]
    exact h
  | some l' =>
    rw [hadd] at hspec
    obtain ⟨rb1, hok, -⟩ := hspec
    have hcount := h.count_le
    rw [hok]
    refine ⟨?_, h.backlog_le, h.drop_count⟩
    rw [Option.getD_some, BlockLog.entries_add hadd, List.countP_append, List.countP_cons]
    simp only [CanLogBuffer.stored, List.countP_nil]
    split <;> omega

theorem fillBlockWithPadding (h : Tallied s l) (hr : Represents s.rb1 l) :
    Tallied s.fillBlockWithPadding.1 (l.pad.getD l) := by
  have hspec := CanLogBuffer.fillBlockWithPadding_spec hr
  cases hpad : l.pad with
  | none =>
    rw [hpad] at hspec
    simp only at hspec
    rw [hspec]
    exact h
  | some l' =>
    rw [hpad] at hspec
    obtain ⟨rb1, hok, -⟩ := hspec
    rw [hok]
    refine ⟨?_, h.backlog_le, h.drop_count⟩
    rw [Option.getD_some, BlockLog.entries_pad hpad]
    exact h.count_le

theorem readNextBlock (h : Tallied s l) (hr : Represents s.rb1 l) :
    Tallied s.readNextBlock.1 l := by
  have hspec := CanLogBuffer.readNextBlock_spec hr
  cases hl : l.complete with
  | nil =>
    rw [hl] at hspec
    simp only at hspec
    rw [hspec]
    exact h
  | cons lb bs =>
    rw [hl] at hspec
    obtain ⟨rb1, hok, -⟩ := hspec
    rw [hok]
    exact ⟨h.count_le, h.backlog_le, h.drop_count⟩

omit [LawfulLwrb ρ] in
theorem consume (h : Tallied s l) {b : LogBlock} (ht : l.take = some (b, l')) (len : Nat) :
    Tallied (s.consume len (b.entries.countP LogEntry.isFrame)) l' := by
  have hcount := h.count_le
  have hbacklog := h.backlog_le
  have hle := length_entries_le l'
  have hframes := List.countP_le_length (p := LogEntry.isFrame) (l := l'.entries)
  rw [BlockLog.entries_take ht, List.countP_append] at hcount
  unfold CanLogBuffer.consume
  constructor
  case count_le =>
    simp only
    omega
  case backlog_le =>
    simp only
    split <;> omega
  case drop_count =>
    simp only
    rw [if_neg]
    split <;> omega

end Tallied

def LogInv (epoch : UInt8) (log : Session ρ) : Prop :=
  ∃ l, Session.Inv epoch log l ∧ Tallied log.buf l

namespace LogInv

variable {log log' : Session ρ} {epoch : UInt8}

theorem start (epoch : UInt8) :
    LogInv epoch (Session.start (CanLogBuffer.boot.setEpochCount epoch : CanLogBuffer ρ)) :=
  ⟨BlockLog.empty, Session.Inv.start (CanLogBuffer.boot.setEpochCount epoch), Nat.le_refl 0,
    Nat.zero_le _, rfl⟩

theorem offer (h : LogInv epoch log) (e : LogEntry) :
    LogInv epoch (CanLogManager.offer log e).1 := by
  obtain ⟨l, hinv, htally⟩ := h
  exact ⟨_, hinv.addEntry e, htally.addEntry hinv.represents e⟩

theorem fillBlockWithPadding (h : LogInv epoch log) :
    LogInv epoch { log with buf := log.buf.fillBlockWithPadding.1 } := by
  obtain ⟨l, hinv, htally⟩ := h
  exact ⟨_, hinv.fillBlockWithPadding, htally.fillBlockWithPadding hinv.represents⟩

theorem sd (h : LogInv epoch log) {call : SdCall}
    (hs : Session.step log call.call = some log') : LogInv epoch log' := by
  obtain ⟨l, hinv, htally⟩ := h
  cases call with
  | readNextBlock =>
    cases hs
    refine ⟨l, hinv.readNextBlock, ?_⟩
    have := htally.readNextBlock hinv.represents
    unfold Session.afterRead
    split <;> exact this
  | consume =>
    obtain ⟨b, hb, rfl⟩ := Option.map_eq_some_iff.mp hs
    obtain ⟨lb, l', ht, hinv'⟩ := hinv.consume hb
    obtain ⟨lb', m, ht', header, hcarry⟩ := hinv.last_read b hb
    obtain ⟨rfl, -⟩ := Prod.mk.inj (Option.some.inj (ht'.symm.trans ht))
    refine ⟨l', hinv', ?_⟩
    rw [hcarry.frame_count]
    exact htally.consume ht b.len

omit [LawfulLwrb ρ] in
theorem reset (h : LogInv epoch log) : LogInv epoch { log with
    buf := { log.buf with frameCount1 := 0, frameCount2 := 0, frameDropCount := 0 } } := by
  obtain ⟨l, hinv, htally⟩ := h
  exact ⟨l, ⟨hinv.represents, hinv.epoch_eq, hinv.consumed, hinv.emitted, hinv.last_read⟩,
    Nat.zero_le _, htally.backlog_le, rfl⟩

end LogInv

end Log

inductive Matches : LogEntry → Logged → Prop
  | sync {e : SyncEntry} {absTime source : Nat} :
    e.timestamp = UInt32.ofNat source → e.absTimeHigh.toNat = absTime / UInt32.size →
      Matches (.sync e) (.sync absTime source)
  | frame {e : FrameEntry} {arrival : Nat} :
    e.timestamp = UInt32.ofNat arrival → Matches (.frame e) (.frame arrival)

namespace CanLogManager

variable {s t : CanLogManager ρ} {epoch : UInt8}

structure Inv (epoch : UInt8) (s : CanLogManager ρ) : Prop where
  log : LogInv epoch s.log
  filled : s.port.PagesFilled
  records : List.Forall₂ Matches s.log.accepted s.logged
  last_frame : s.lastFrameTimestamp = UInt32.ofNat s.lastFrameArrival
  counted : s.checks.Counted s.port.frameDropCount ↔ s.lost = true ∨ s.syncRefused = true
  raised : s.framesLost = true → s.lost = true ∨ s.syncRefused = true ∨ s.farApart = true
  far : s.farApart = true → s.framesLost = true

theorem Inv.frame (h : Inv epoch s) {runCanTracer runCanTracerOld emitSyncEntry commitLog : Bool}
    {lastFrameTimestampValid : Bool} {nextPeriodicSyncAbsTime absTime : UInt64}
    {can1 can2 : ChannelSequence} {point : PollPoint} :
    Inv epoch { s with
      runCanTracer
      runCanTracerOld
      emitSyncEntry
      commitLog
      lastFrameTimestampValid
      nextPeriodicSyncAbsTime
      absTime
      can1
      can2
      point } :=
  ⟨h.log, h.filled, h.records, h.last_frame, h.counted, h.raised, h.far⟩

theorem toNat_absTimeToAbsHigh (absTime : UInt64) :
    (absTimeToAbsHigh absTime).toNat = absTime.toNat / UInt32.size := by
  have := absTime.toNat_lt_size
  rw [absTimeToAbsHigh, UInt64.toNat_toUInt32, UInt64.toNat_shiftRight]
  rw [show (32 : UInt64).toNat % 64 = 32 from rfl, Nat.shiftRight_eq_div_pow]
  simp only [UInt64.size, UInt32.size] at *
  omega

theorem Inv.scheduleSync (h : Inv epoch s) (absTime : UInt64) :
    Inv epoch (s.scheduleSync absTime) := by
  unfold CanLogManager.scheduleSync
  simp only
  split <;>
    exact h.frame

theorem Inv.bridge (h : Inv epoch s) (frame : TimedFrame) : Inv epoch (s.bridge frame) := by
  refine ⟨h.log, h.filled.receive frame, h.records, h.last_frame, ?_, ?_, h.far⟩
  · have hcounted := h.counted
    simp only [CanLogManager.bridge, RuntimeChecks.Counted, Bool.or_eq_true,
      decide_eq_true_eq] at *
    rcases s.port.receive_spec frame with ⟨-, hsame⟩ | ⟨-, hmore⟩
    · rw [hsame]
      simpa using hcounted
    · rw [hmore]
      simp
  · intro hraised
    rcases h.raised hraised with hlost | hrest
    · exact .inl (by simp [CanLogManager.bridge, hlost])
    · exact .inr hrest

theorem Inv.drop (h : Inv epoch s) {checks : RuntimeChecks}
    (hc : checks.Counted s.port.frameDropCount) : Inv epoch { s with checks, lost := true } :=
  ⟨h.log, h.filled, h.records, h.last_frame, iff_of_true hc (.inl rfl), fun _ => .inl rfl, h.far⟩

theorem Inv.poll (h : Inv epoch s) (absTime : UInt64) (started : Bool) :
    Inv epoch (s.poll absTime started) := by
  unfold CanLogManager.poll
  split
  · exact h.frame
  · split
    · refine ⟨h.log.reset, h.filled, h.records, h.last_frame, ?_, by simp, by simp⟩
      simp [RuntimeChecks.Counted, RuntimeChecks.init]
    · exact h.frame

theorem Inv.flush (h : Inv epoch s) {port} (hf : s.port.flush = some port) :
    Inv epoch { s with port, point := .prepare } := by
  obtain ⟨-, hdrop, hfilled⟩ := FdcanMsgPort.flush_spec hf h.filled
  refine ⟨h.log, hfilled, h.records, h.last_frame, ?_, h.raised, h.far⟩
  simp only [hdrop]
  exact h.counted

theorem Inv.account (h : Inv epoch s) : Inv epoch s.account := by
  have hcounted := h.counted
  refine ⟨h.log, h.filled, h.records, h.last_frame, ?_, ?_, h.far⟩
  · simp only [CanLogManager.account, RuntimeChecks.Counted, Bool.or_eq_true,
      decide_eq_true_eq] at *
    grind
  · intro hraised
    rcases h.raised hraised with hlost | hrest
    · exact .inl (by simp [CanLogManager.account, hlost])
    · exact .inr hrest

theorem Inv.checkDropCounts_iff (h : Inv epoch s) :
    s.checks.checkDropCounts s.port.frameDropCount s.log.buf.frameDropCount = .framesDropped ↔
      (s.lost = true ∨ s.syncRefused = true) ∨ 1024 < s.checks.frameDelta1 := by
  obtain ⟨l, -, htally⟩ := h.log
  rw [RuntimeChecks.checkDropCounts_eq_framesDropped_iff, h.counted]
  rw [htally.drop_count]
  exact Nat.zero_le _

theorem Inv.check (h : Inv epoch s) : Inv epoch s.check := by
  have hiff := h.checkDropCounts_iff
  have hraised := h.raised
  have hfar := h.far
  refine ⟨h.log, h.filled, h.records, h.last_frame, h.counted, ?_, ?_⟩
  · simp only [CanLogManager.check, Bool.or_eq_true, decide_eq_true_eq]
    split <;> grind
  · simp only [CanLogManager.check, Bool.or_eq_true, decide_eq_true_eq]
    split <;> grind

variable [LawfulLwrb ρ]

/-- What an event does, and where the loop stands for it. -/
inductive Does (s : CanLogManager ρ) : TracerEvent → CanLogManager ρ → Prop
  | setTracer (run : Bool) : Does s (.setTracer run) { s with runCanTracer := run }
  | bridge (frame : TimedFrame) : Does s (.bridge frame) (s.bridge frame)
  | canAbsDrop : Does s .canAbsDrop s.canAbsDrop
  | overrun (channel : Channel) : Does s (.overrun channel) (s.overrun channel)
  | sd {call : SdCall} {log : Session ρ} (hlog : Session.step s.log call.call = some log) :
      Does s (.sd call) { s with log }
  | poll (hpoint : s.point = .idle) (absTime : UInt64) (started : Bool) :
      Does s (.poll absTime started) (s.poll absTime started)
  | flush {port : FdcanMsgPort TimedFrame canFrameBufferElementsCount}
      (hpoint : s.point = .flush) (hport : s.port.flush = some port) :
      Does s .flush { s with port, point := .prepare }
  | prepare (hpoint : s.point = .prepare) (absTime : UInt64) :
      Does s (.prepare absTime) { s.scheduleSync absTime with point := .drain 0 }
  | fetch {n : Nat} (hpoint : s.point = .drain n) (absTime : UInt64) :
      Does s (.fetch absTime) (s.fetch n absTime)
  | store {n : Nat} {newFrame : TimedFrame} (hpoint : s.point = .store n newFrame)
      (beyond : Vector UInt8 56) (opened : Bool) :
      Does s (.store beyond opened) (s.store n newFrame beyond opened)
  | account (hpoint : s.point = .account) : Does s .account s.account
  | idleSync (hpoint : s.point = .idleSync) : Does s .idleSync s.idleSync
  | commit (hpoint : s.point = .commit) : Does s .commit s.commit
  | check (hpoint : s.point = .check) : Does s .check s.check

theorem step_does {e : TracerEvent} (hs : step s e = some t) : s.Does e t := by
  cases e with
  | setTracer run =>
    cases hs
    exact .setTracer run
  | bridge frame =>
    cases hs
    exact .bridge frame
  | canAbsDrop =>
    cases hs
    exact .canAbsDrop
  | overrun channel =>
    cases hs
    exact .overrun channel
  | sd call =>
    obtain ⟨log, hlog, rfl⟩ := Option.map_eq_some_iff.mp hs
    exact .sd hlog
  | flush =>
    simp only [step] at hs
    split at hs
    next hpoint =>
      obtain ⟨port, hport, rfl⟩ := Option.map_eq_some_iff.mp hs
      exact .flush hpoint hport
    · contradiction
  | _ =>
    simp only [step] at hs
    split at hs
    next hpoint =>
      cases hs
      constructor
      exact hpoint
    · contradiction

theorem Inv.start (zero : TimedFrame) (epoch : UInt8) :
    Inv epoch (start zero epoch : CanLogManager ρ) where
  log := LogInv.start epoch
  filled := by simp [CanLogManager.start, FdcanMsgPort.init, FdcanMsgPort.PagesFilled]
  records := .nil
  last_frame := rfl
  counted := by
    simp [CanLogManager.start, RuntimeChecks.Counted, RuntimeChecks.init, FdcanMsgPort.init]
  raised := by simp [CanLogManager.start]
  far := by simp [CanLogManager.start]

theorem storeToFrameBuffer_cases (s : CanLogManager ρ) (entry : LogEntry) (what : Logged) :
    (s.storeToFrameBuffer entry what =
        ({ s with log := (offer s.log entry).1, logged := s.logged ++ [what] }, .success) ∧
      (offer s.log entry).1.accepted = s.log.accepted ++ [entry]) ∨
    (∃ checks, s.storeToFrameBuffer entry what =
        ({ s with log := (offer s.log entry).1, checks }, .error) ∧
      checks.canLogManagerFrameDropCount1 ≠ 0 ∧
      (offer s.log entry).1.accepted = s.log.accepted) := by
  unfold storeToFrameBuffer offer
  simp only
  split
  · next hres =>
    refine .inr ⟨_, rfl, ?_, rfl⟩
    split <;> exact Nat.succ_ne_zero _
  · next hres => exact .inl ⟨rfl, if_pos (Decidable.not_not.mp hres)⟩

theorem Inv.emitSync (h : Inv epoch s) (absTime : UInt64) (source : Nat) :
    Inv epoch (s.emitSync absTime (UInt32.ofNat source) source) := by
  have hlog := h.log.offer (.sync (.ofFields 3 (UInt32.ofNat source) (absTimeToAbsHigh absTime)))
  unfold CanLogManager.emitSync
  simp only
  rcases s.storeToFrameBuffer_cases
      (.sync (.ofFields 3 (UInt32.ofNat source) (absTimeToAbsHigh absTime)))
      (.sync absTime.toNat source) with ⟨heq, hacc⟩ | ⟨checks, heq, hdrop, hacc⟩
  · rw [heq]
    refine ⟨hlog, h.filled, ?_, h.last_frame, h.counted, h.raised, h.far⟩
    rw [if_pos rfl, hacc]
    exact List.rel_append h.records
      (.cons (.sync rfl (toNat_absTimeToAbsHigh absTime)) .nil)
  · rw [heq]
    refine ⟨hlog, h.filled, ?_, h.last_frame, ?_, ?_, h.far⟩
    · rw [if_neg (by simp), hacc]
      exact h.records
    · exact iff_of_true (.inr (.inr (.inr (.inr (.inl hdrop))))) (.inr rfl)
    · exact fun _ => .inr (.inl rfl)

theorem Inv.sd (h : Inv epoch s) {call : SdCall} {log : Session ρ}
    (hs : Session.step s.log call.call = some log) : Inv epoch { s with log } := by
  have hacc : log.accepted = s.log.accepted := by
    cases call with
    | readNextBlock =>
      cases hs
      unfold Session.afterRead
      split <;> rfl
    | consume =>
      obtain ⟨b, -, rfl⟩ := Option.map_eq_some_iff.mp hs
      rfl
  refine ⟨h.log.sd hs, h.filled, ?_, h.last_frame, h.counted, h.raised, h.far⟩
  rw [hacc]
  exact h.records

theorem Inv.fetch (h : Inv epoch s) (n : Nat) (absTime : UInt64) :
    Inv epoch (s.fetch n absTime) := by
  have hread : Inv epoch { s with port := s.port.read.1 } := by
    refine ⟨h.log, h.filled.read, h.records, h.last_frame, ?_, h.raised, h.far⟩
    simp only [FdcanMsgPort.frameDropCount_read]
    exact h.counted
  unfold CanLogManager.fetch
  split
  · simp only
    split
    · next newFrame hreceived hdst =>
      have hcount : Inv epoch { s with
          port := s.port.read.1
          checks := { s.checks with
            canLogManagerFrameCount := s.checks.canLogManagerFrameCount + 1 } } :=
        ⟨hread.log, hread.filled, hread.records, hread.last_frame, hread.counted, hread.raised,
          hread.far⟩
      have hsched := hcount.scheduleSync absTime
      rw [newFrame.timestamp_eq]
      split
      · have hclear : Inv epoch { CanLogManager.scheduleSync _ absTime with
            emitSyncEntry := false } :=
          hsched.frame
        have hemit := hclear.emitSync absTime newFrame.arrival
        exact hemit.frame
      · exact hsched.frame
    · exact hread.frame
  · exact h.frame

theorem Inv.store (h : Inv epoch s) (n : Nat) (newFrame : TimedFrame) (beyond : Vector UInt8 56)
    (opened : Bool) : Inv epoch (s.store n newFrame beyond opened) := by
  have hstored (s : CanLogManager ρ) (h : Inv epoch s) (entry : FrameEntry)
      (hentry : entry.timestamp = newFrame.frame.timestamp) :
      let r := s.storeToFrameBuffer (.frame entry) (.frame newFrame.arrival)
      Inv epoch (if r.2 ≠ .success then
          { r.1 with runCanTracer := false, lost := true, point := .account }
        else if opened then { r.1 with
          lastFrameTimestamp := newFrame.frame.timestamp
          lastFrameArrival := newFrame.arrival
          lastFrameTimestampValid := true
          point := .drain n }
        else { r.1 with
          lastFrameTimestamp := newFrame.frame.timestamp
          lastFrameArrival := newFrame.arrival
          lastFrameTimestampValid := true
          runCanTracer := false
          point := .account }) := by
    have hlog := h.log.offer (.frame entry)
    have hmatch : Matches (.frame entry) (.frame newFrame.arrival) :=
      .frame (hentry.trans newFrame.timestamp_eq)
    simp only
    rcases s.storeToFrameBuffer_cases (.frame entry) (.frame newFrame.arrival) with
      ⟨heq, hacc⟩ | ⟨checks, heq, hdrop, hacc⟩
    · have hrecords : List.Forall₂ Matches (offer s.log (.frame entry)).1.accepted
          (s.logged ++ [.frame newFrame.arrival]) := by
        rw [hacc]
        exact List.rel_append h.records (.cons hmatch .nil)
      rw [heq, if_neg (by simp)]
      split <;>
        exact ⟨hlog, h.filled, hrecords, newFrame.timestamp_eq, h.counted, h.raised, h.far⟩
    · rw [heq, if_pos (by simp)]
      refine ⟨hlog, h.filled, ?_, h.last_frame, ?_, fun _ => .inl rfl, h.far⟩
      · rw [hacc]
        exact h.records
      · exact iff_of_true (.inr (.inr (.inr (.inr (.inl hdrop))))) (.inl rfl)
  unfold CanLogManager.store
  simp only
  split
  · exact hstored { s with can1 := s.can1.checkSequence newFrame.frame.rxSequence }
      h.frame _ rfl
  · split
    · exact hstored { s with can2 := s.can2.checkSequence newFrame.frame.rxSequence }
        h.frame _ rfl
    · exact hstored s h _ rfl

theorem Inv.idleSync (h : Inv epoch s) : Inv epoch s.idleSync := by
  have hclear : Inv epoch { s with emitSyncEntry := false } :=
    h.frame
  unfold CanLogManager.idleSync
  simp only
  split
  · split
    · have hemit := hclear.emitSync s.absTime s.lastFrameArrival
      rw [← h.last_frame] at hemit
      exact hemit.frame
    · have hemit := hclear.emitSync s.absTime s.absTime.toNat
      exact hemit.frame
  · exact h.frame

theorem Inv.commit (h : Inv epoch s) : Inv epoch s.commit := by
  unfold CanLogManager.commit
  split
  · simp only
    split
    · exact ⟨h.log.fillBlockWithPadding, h.filled, h.records, h.last_frame, h.counted, h.raised,
        h.far⟩
    · exact h.frame
  · exact h.frame

theorem step_inv {e : TracerEvent} (h : Inv epoch s) (hs : step s e = some t) : Inv epoch t := by
  cases step_does hs with
  | setTracer run => exact h.frame
  | bridge frame => exact h.bridge frame
  | canAbsDrop => exact h.drop (.inr (.inl (Nat.succ_ne_zero _)))
  | overrun channel =>
    cases channel with
    | can1 => exact h.drop (.inr (.inr (.inl (Nat.succ_ne_zero _))))
    | can2 => exact h.drop (.inr (.inr (.inr (.inl (Nat.succ_ne_zero _)))))
  | sd hlog => exact h.sd hlog
  | poll hpoint absTime started => exact h.poll absTime started
  | flush hpoint hport => exact h.flush hport
  | prepare hpoint absTime => exact (h.scheduleSync absTime).frame
  | fetch hpoint absTime => exact h.fetch _ absTime
  | store hpoint beyond opened => exact h.store _ _ beyond opened
  | account hpoint => exact h.account
  | idleSync hpoint => exact h.idleSync
  | commit hpoint => exact h.commit
  | check hpoint => exact h.check

theorem run_inv {zero : TimedFrame} {es : List TracerEvent}
    (h : Step.run step (start zero epoch) es = some s) : Inv epoch s :=
  Step.run_invariant step_inv (Inv.start zero epoch) h

end CanLogManager

end CanSniffer.Logging
