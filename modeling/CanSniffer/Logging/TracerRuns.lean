import CanSniffer.Logging.CanLogManagerLaws

universe u

namespace CanSniffer.Logging

open Lib Drivers Ports

def emptyFrame (channel : Channel) (arrival : Nat) : TimedFrame where
  frame := { ClassicFrame.zero with
    timestamp := UInt32.ofNat arrival
    channel := channel.number }
  arrival := arrival
  timestamp_eq := rfl
  fits := show (FlagField.dataLen.get 0).toNat ≤ 64 by decide

namespace CanLogManager

variable {ρ : Type u} [Lwrb ρ] [LawfulLwrb ρ] {s t : CanLogManager ρ} {l : CanLog}
  {epoch : UInt8}

structure Quiet (running : Bool) (s : CanLogManager ρ) : Prop where
  point : s.point = .idle
  run : s.runCanTracer = running
  run_old : s.runCanTracerOld = running
  emit : s.emitSyncEntry = false
  commit : s.commitLog = false
  can1 : s.can1 = .init
  can2 : s.can2 = .init
  index : s.port.indexRead = 0
  buffer : s.port.canFrameBuffer.items = []

omit [LawfulLwrb ρ] in
theorem quiet_start (zero : TimedFrame) (epoch : UInt8) :
    (start zero epoch : CanLogManager ρ).Quiet false := by
  constructor <;> rfl

def syncEntry (absTime : UInt64) (timestamp : UInt32) : LogEntry :=
  .sync (.ofFields 3 timestamp (absTimeToAbsHigh absTime))

def frameEntry (frame : TimedFrame) : LogEntry :=
  .frame (appCanLogFillEntry frame.frame frame.fits (.replicate 56 0) frame.frame.timestamp
    frame.frame.channel)

omit [Lwrb ρ] [LawfulLwrb ρ] in
theorem total_le_mul (es : List LogEntry) : canLogLayout.total es ≤ 78 * es.length := by
  induction es with
  | nil => exact Nat.le_refl 0
  | cons e es ih =>
    have hsize := e.size_bounds
    have htotal : canLogLayout.total (e :: es) = e.size + canLogLayout.total es := rfl
    rw [htotal, List.length_cons]
    omega

theorem offer_ok {log : Session ρ} (hinv : Session.Inv epoch log l) (e : LogEntry)
    (hfew : l.current.length < 800) :
    ∃ log' l', offer log e = (log', .ok) ∧ Session.Inv epoch log' l' ∧
      l'.complete = l.complete ∧ l'.current = l.current ++ [e] := by
  have hroom : canLogLayout.fill l.current + canLogLayout.size e < canLogLayout.block := by
    have htotal := total_le_mul l.current
    have hsize := e.size_bounds.2
    simp only [Layout.fill, canLogLayout, sizeofCanLogBlockHeaderType, blockSize] at *
    omega
  obtain ⟨l', hadd, hc, hu⟩ := BlockLog.add_of_lt hroom
  have hok : (log.buf.addEntry e.bytes e.size).2 = .ok :=
    (CanLogBuffer.addEntry_ok_iff hinv.represents e).mpr (by rw [hadd]; rfl)
  have hinv' := hinv.addEntry e
  rw [hadd, Option.getD_some] at hinv'
  exact ⟨(offer log e).1, l', Prod.ext rfl hok, hinv', hc, hu⟩

theorem storeToFrameBuffer_ok {entry : LogEntry} {log : Session ρ}
    (hoffer : offer s.log entry = (log, .ok)) (what : Logged) :
    s.storeToFrameBuffer entry what =
      ({ s with log, logged := s.logged ++ [what] }, .success) := by
  unfold storeToFrameBuffer
  rw [hoffer]
  simp

theorem emitSync_ok {absTime : UInt64} {timestamp : UInt32} {log : Session ρ}
    (hoffer : offer s.log (syncEntry absTime timestamp) = (log, .ok)) (source : Nat) :
    s.emitSync absTime timestamp source =
      { s with log, logged := s.logged ++ [.sync absTime.toNat source] } := by
  unfold emitSync
  simp only
  rw [← syncEntry, storeToFrameBuffer_ok hoffer]
  simp

theorem account_init : ChannelSequence.init.account = (.init, 0) := rfl

theorem store_ok {n : Nat} {channel : Channel} {arrival : Nat} {log : Session ρ}
    (h₁ : s.can1 = .init) (h₂ : s.can2 = .init)
    (hoffer : offer s.log (frameEntry (emptyFrame channel arrival)) = (log, .ok)) :
    s.store n (emptyFrame channel arrival) (.replicate 56 0) true = { s with
      log
      logged := s.logged ++ [.frame arrival]
      lastFrameTimestamp := UInt32.ofNat arrival
      lastFrameArrival := arrival
      lastFrameTimestampValid := true
      point := .drain n } := by
  have hcan1 : s.can1.checkSequence (emptyFrame channel arrival).frame.rxSequence = s.can1 := by
    rw [h₁]
    rfl
  have hcan2 : s.can2.checkSequence (emptyFrame channel arrival).frame.rxSequence = s.can2 := by
    rw [h₂]
    rfl
  have hstored := storeToFrameBuffer_ok hoffer (.frame arrival)
  unfold frameEntry at hstored
  unfold store
  simp only [hcan1, hcan2, ite_self]
  rw [show (emptyFrame channel arrival).arrival = arrival from rfl, hstored]
  rfl

omit [Lwrb ρ] [LawfulLwrb ρ] in
theorem read_empty {p : FdcanMsgPort TimedFrame canFrameBufferElementsCount}
    (h0 : p.indexRead = 0) (hnil : p.canFrameBuffer.items = []) : p.read = (p, ⟨false, none⟩) := by
  rw [FdcanMsgPort.read, if_pos h0, Mailbox.receive_eq_none_iff.mpr hnil]
  simp [FdcanMsgPort.handOut, h0]

def resetCounts (log : Session ρ) : Session ρ :=
  { log with buf := { log.buf with frameCount1 := 0, frameCount2 := 0, frameDropCount := 0 } }

omit [LawfulLwrb ρ] in
theorem inv_resetCounts {log : Session ρ} (h : Session.Inv epoch log l) :
    Session.Inv epoch (resetCounts log) l :=
  ⟨h.represents, h.epoch_eq, h.consumed, h.emitted, h.last_read⟩

omit [Lwrb ρ] [LawfulLwrb ρ] in
theorem scheduleSync_of_lt {absTime : UInt64} (h : absTime < s.nextPeriodicSyncAbsTime) :
    s.scheduleSync absTime = { s with absTime } := by
  rw [scheduleSync, if_neg]
  rintro ⟨-, hle⟩
  exact UInt64.lt_irrefl _ (UInt64.lt_of_lt_of_le h hle)

omit [Lwrb ρ] [LawfulLwrb ρ] in
theorem scheduleSync_of_due {absTime : UInt64} (hne : s.nextPeriodicSyncAbsTime ≠ 0)
    (hle : s.nextPeriodicSyncAbsTime ≤ absTime) : s.scheduleSync absTime = { s with
      absTime
      emitSyncEntry := true
      nextPeriodicSyncAbsTime := absTime + clmSyncEmitIntervalUs } := by
  rw [scheduleSync, if_pos ⟨hne, hle⟩]

theorem step_fetch_emit {n : Nat} {absTime : UInt64} {frame : TimedFrame} {log : Session ρ}
    {port : FdcanMsgPort TimedFrame canFrameBufferElementsCount} (hpoint : s.point = .drain n)
    (h : n < canlogIngestBatchMax ∨ s.runCanTracer = false)
    (hread : s.port.read = (port, ⟨true, some frame⟩))
    (hlt : absTime < s.nextPeriodicSyncAbsTime) (hemit : s.emitSyncEntry = true)
    (hoffer : offer s.log (syncEntry absTime frame.frame.timestamp) = (log, .ok)) :
    step s (.fetch absTime) = some { s with
      absTime
      emitSyncEntry := false
      port
      checks := { s.checks with canLogManagerFrameCount := s.checks.canLogManagerFrameCount + 1 }
      log
      logged := s.logged ++ [.sync absTime.toNat frame.arrival]
      point := .store (n + 1) frame } := by
  have hsched := scheduleSync_of_lt (s := { s with
    port
    checks := { s.checks with
      canLogManagerFrameCount := s.checks.canLogManagerFrameCount + 1 } }) hlt
  have hsent := emitSync_ok (s := { s with
    absTime
    emitSyncEntry := false
    port
    checks := { s.checks with
      canLogManagerFrameCount := s.checks.canLogManagerFrameCount + 1 } }) hoffer frame.arrival
  simp only [step, hpoint]
  rw [fetch, if_pos h]
  simp only [hread, hsched]
  rw [if_pos hemit, hsent]

theorem step_sd {call : SdCall} {log : Session ρ}
    (h : Session.step s.log call.call = some log) : step s (.sd call) = some { s with log } := by
  simp only [step, h, Option.map_some]

def startPoll (absTime : UInt64) : List TracerEvent :=
  [.setTracer true, .poll absTime true, .prepare absTime, .fetch absTime, .account, .idleSync,
    .commit, .check]

def starting (s : CanLogManager ρ) (absTime next : UInt64) (point : PollPoint) :
    CanLogManager ρ :=
  { s with
    runCanTracer := true
    runCanTracerOld := true
    emitSyncEntry := true
    nextPeriodicSyncAbsTime := next
    lastFrameTimestampValid := false
    framesLost := false
    absTime
    checks := .init
    port := { s.port with frameDropCount := 0 }
    log := resetCounts s.log
    point
    lost := false
    syncRefused := false
    farApart := false }

def started (s : CanLogManager ρ) (absTime : UInt64) (log : Session ρ) : CanLogManager ρ :=
  { s.starting absTime (absTime + clmSyncEmitIntervalUs) .idle with
    emitSyncEntry := false
    log
    logged := s.logged ++ [.sync absTime.toNat absTime.toNat] }

theorem run_startPoll (h : s.Quiet false) {absTime : UInt64}
    (hlt : absTime < absTime + clmSyncEmitIntervalUs) {log : Session ρ}
    (hoffer : offer (resetCounts s.log) (syncEntry absTime (absTimeToTimestamp absTime)) =
      (log, .ok)) :
    Step.run step s (startPoll absTime) = some (s.started absTime log) := by
  have hpoll : Step.run step s [.setTracer true, .poll absTime true] =
      some (s.starting absTime (absTime + clmSyncEmitIntervalUs) .prepare) := by
    simp [Step.run, step, h.point, h.run_old, poll, starting, resetCounts]
  unfold started
  generalize absTime + clmSyncEmitIntervalUs = next at hlt hpoll
  have hdrain : Step.run step (s.starting absTime next .prepare)
      [.prepare absTime, .fetch absTime, .account] =
        some (s.starting absTime next .idleSync) := by
    have hread : FdcanMsgPort.read { s.port with frameDropCount := 0 } =
        ({ s.port with frameDropCount := 0 }, ⟨false, none⟩) := read_empty h.index h.buffer
    simp [Step.run, step, starting, scheduleSync_of_lt, hlt, fetch, canlogIngestBatchMax, hread,
      account, h.can1, h.can2, account_init]
  have hsync : step (s.starting absTime next .idleSync) .idleSync =
      some { s.starting absTime next .commit with
        emitSyncEntry := false
        log
        logged := s.logged ++ [.sync absTime.toNat absTime.toNat] } := by
    have hemit := emitSync_ok (s := { s.starting absTime next .idleSync with
      emitSyncEntry := false }) hoffer absTime.toNat
    calc
      step (s.starting absTime next .idleSync) .idleSync =
          some { { s.starting absTime next .idleSync with emitSyncEntry := false }.emitSync absTime
            (absTimeToTimestamp absTime) absTime.toNat with point := .commit } := rfl
      _ = _ := by rw [hemit]; rfl
  have hend : Step.run step { s.starting absTime next .commit with
        emitSyncEntry := false
        log
        logged := s.logged ++ [.sync absTime.toNat absTime.toNat] } [.commit, .check] =
      some { s.starting absTime next .idle with
        emitSyncEntry := false
        log
        logged := s.logged ++ [.sync absTime.toNat absTime.toNat] } := by
    have hcheck (d : Nat) : RuntimeChecks.init.checkDropCounts 0 d = .ok := by
      simp [RuntimeChecks.checkDropCounts, RuntimeChecks.init, RuntimeChecks.frameDelta1]
    have hdelta : ¬ 1024 < RuntimeChecks.init.frameDelta1 := by decide
    simp [Step.run, step, starting, commit, h.commit, check, hcheck, hdelta]
  exact Step.run_append_eq_some.mpr ⟨_, hpoll, Step.run_append_eq_some.mpr ⟨_, hdrain,
    Step.run_cons_eq_some.mpr ⟨_, hsync, hend⟩⟩⟩

omit [Lwrb ρ] [LawfulLwrb ρ] in
theorem started_quiet (h : s.Quiet false) (absTime : UInt64) (log : Session ρ) :
    (s.started absTime log).Quiet true :=
  ⟨rfl, rfl, rfl, rfl, h.commit, h.can1, h.can2, h.index, h.buffer⟩

omit [Lwrb ρ] [LawfulLwrb ρ] in
theorem receive_of_empty {p : FdcanMsgPort TimedFrame canFrameBufferElementsCount}
    (hc : p.pageReceive.count = 0) (frame : TimedFrame) : ∃ page,
    p.receive frame = { p with pageReceive := page } ∧ page.count = 1 ∧
      page.entries = [frame] := by
  have hlt : p.pageReceive.count < canFramePageMaxEntries := by
    rw [hc]
    decide
  refine ⟨p.pageReceive.addEntryToPage frame hlt, dif_pos hlt, congrArg (· + 1) hc, ?_⟩
  have hnil : p.pageReceive.entries = [] :=
    List.length_eq_zero_iff.mp (p.pageReceive.length_entries.trans hc)
  rw [PageType.entries_addEntryToPage, hnil, List.nil_append]

omit [Lwrb ρ] [LawfulLwrb ρ] in
theorem bridge_of_empty (hc : s.port.pageReceive.count = 0) (frame : TimedFrame) :
    s.bridge frame = { s with
      port := s.port.receive frame
      checks := { s.checks with
        canBridgeTaskFrameCount := s.checks.canBridgeTaskFrameCount + 1 } } := by
  obtain ⟨page, hrecv, -⟩ := receive_of_empty hc frame
  simp [bridge, hrecv]

omit [Lwrb ρ] [LawfulLwrb ρ] in
theorem Quiet.bridge {running : Bool} (h : s.Quiet running) (hc : s.port.pageReceive.count = 0)
    (frame : TimedFrame) : (s.bridge frame).Quiet running := by
  obtain ⟨page, hrecv, -⟩ := receive_of_empty hc frame
  rw [bridge_of_empty hc frame, hrecv]
  exact ⟨h.point, h.run, h.run_old, h.emit, h.commit, h.can1, h.can2, h.index, h.buffer⟩

omit [Lwrb ρ] [LawfulLwrb ρ] in
theorem flush_one {p : FdcanMsgPort TimedFrame canFrameBufferElementsCount}
    (hc : p.pageReceive.count = 0) (h0 : p.indexRead = 0) (hnil : p.canFrameBuffer.items = [])
    (frame : TimedFrame) : ∃ q r, (p.receive frame).flush = some q ∧
      q.read = (r, ⟨true, some frame⟩) ∧ r.read = (r, ⟨false, none⟩) ∧
      r.pageReceive.count = 0 ∧ r.indexRead = 0 ∧ r.canFrameBuffer.items = [] ∧
      r.frameDropCount = p.frameDropCount := by
  obtain ⟨page, hrecv, hcount, hentries⟩ := receive_of_empty hc frame
  rw [hrecv]
  cases hs : p.canFrameBuffer.send page with
  | none =>
    have := Mailbox.send_eq_none_iff.mp hs
    rw [hnil] at this
    contradiction
  | some buffer =>
    have hitems := Mailbox.items_send hs
    rw [hnil, List.nil_append] at hitems
    have hfirst := page.drop_entries (i := 0) (by omega)
    rw [hentries] at hfirst
    have hflush : FdcanMsgPort.flush { p with pageReceive := page } =
        some { p with canFrameBuffer := buffer, pageReceive := page.clear } := by
      rw [FdcanMsgPort.flush, if_pos (by simp [hcount])]
      simp [hs]
    cases hr : buffer.receive with
    | none =>
      rw [Mailbox.receive_eq_none_iff, hitems] at hr
      contradiction
    | some r =>
      obtain ⟨first, rest⟩ := r
      obtain ⟨rfl, hrest⟩ := List.cons.inj (hitems.symm.trans (Mailbox.items_receive hr))
      refine ⟨_, { p with
        canFrameBuffer := rest
        pageReceive := page.clear
        pageRead := page
        indexRead := 0
        index_le := Nat.zero_le _ }, hflush, ?_, read_empty rfl hrest.symm, rfl, rfl, hrest.symm,
        rfl⟩
      have hget := (List.cons.inj hfirst).1
      simp [FdcanMsgPort.read, h0, hr, FdcanMsgPort.handOut, hcount, hget]

def stopPoll (absTime : UInt64) : List TracerEvent :=
  [.setTracer false, .poll absTime true, .flush, .prepare absTime, .fetch absTime] ++
    [.store (.replicate 56 0) true, .fetch absTime, .account, .idleSync]

def stopping (s : CanLogManager ρ) (port : FdcanMsgPort TimedFrame canFrameBufferElementsCount) :
    CanLogManager ρ :=
  { s with
    runCanTracer := false
    runCanTracerOld := false
    commitLog := true
    port
    point := .prepare }

def fetched (s : CanLogManager ρ) (absTime : UInt64)
    (port : FdcanMsgPort TimedFrame canFrameBufferElementsCount) (frame : TimedFrame) :
    CanLogManager ρ :=
  { s with
    absTime
    port
    checks := { s.checks with canLogManagerFrameCount := s.checks.canLogManagerFrameCount + 1 }
    point := .store 1 frame }

def drained (s : CanLogManager ρ) (arrival : Nat) (log : Session ρ) : CanLogManager ρ :=
  { s with
    log
    logged := s.logged ++ [.frame arrival]
    lastFrameTimestamp := UInt32.ofNat arrival
    lastFrameArrival := arrival
    lastFrameTimestampValid := true
    point := .commit }

section Stop

variable {absTime : UInt64} {channel : Channel} {arrival : Nat}
  {q r : FdcanMsgPort TimedFrame canFrameBufferElementsCount} {log log' : Session ρ}

theorem run_stopFlush (h : s.Quiet true) (hflush : s.port.flush = some q) (absTime : UInt64) :
    Step.run step s [.setTracer false, .poll absTime true, .flush] = some (s.stopping q) := by
  simp [Step.run, step, h.point, h.run_old, poll, hflush, stopping]

theorem run_drained (hpoint : s.point = .store 1 (emptyFrame channel arrival))
    (hrun : s.runCanTracer = false) (hemit : s.emitSyncEntry = false)
    (h₁ : s.can1 = .init) (h₂ : s.can2 = .init) (hempty : s.port.read = (s.port, ⟨false, none⟩))
    (hoffer : offer s.log (frameEntry (emptyFrame channel arrival)) = (log, .ok)) :
    Step.run step s [.store (.replicate 56 0) true, .fetch absTime, .account, .idleSync] =
      some (s.drained arrival log) := by
  have hstore : step s (.store (.replicate 56 0) true) =
      some { s.drained arrival log with point := .drain 1 } := by
    simp only [step, hpoint]
    rw [store_ok h₁ h₂ hoffer]
    rfl
  refine Step.run_cons_eq_some.mpr ⟨_, hstore, ?_⟩
  simp [Step.run, step, drained, fetch, hrun, hempty, account, h₁, h₂, account_init, idleSync,
    hemit]

theorem run_stopPoll (h : s.Quiet true) (hlt : absTime < s.nextPeriodicSyncAbsTime)
    (hflush : s.port.flush = some q)
    (hread : q.read = (r, ⟨true, some (emptyFrame channel arrival)⟩))
    (hempty : r.read = (r, ⟨false, none⟩))
    (hoffer : offer s.log (frameEntry (emptyFrame channel arrival)) = (log, .ok)) :
    Step.run step s (stopPoll absTime) = some
      (((s.stopping q).fetched absTime r (emptyFrame channel arrival)).drained arrival log) := by
  have hfetch : Step.run step (s.stopping q) [.prepare absTime, .fetch absTime] =
      some ((s.stopping q).fetched absTime r (emptyFrame channel arrival)) := by
    simp [Step.run, step, stopping, fetched, scheduleSync_of_lt, hlt, fetch, hread, h.emit]
  exact Step.run_append_eq_some.mpr ⟨_, Step.run_append_eq_some.mpr
    ⟨_, run_stopFlush h hflush absTime, hfetch⟩,
    run_drained rfl rfl h.emit h.can1 h.can2 hempty hoffer⟩

theorem run_stopPoll_due (h : s.Quiet true) (hne : s.nextPeriodicSyncAbsTime ≠ 0)
    (hle : s.nextPeriodicSyncAbsTime ≤ absTime) (hlt : absTime < absTime + clmSyncEmitIntervalUs)
    (hflush : s.port.flush = some q)
    (hread : q.read = (r, ⟨true, some (emptyFrame channel arrival)⟩))
    (hempty : r.read = (r, ⟨false, none⟩))
    (hsync : offer s.log (syncEntry absTime (UInt32.ofNat arrival)) = (log, .ok))
    (hoffer : offer log (frameEntry (emptyFrame channel arrival)) = (log', .ok)) :
    Step.run step s (stopPoll absTime) = some (CanLogManager.drained
      { (s.stopping q).fetched absTime r (emptyFrame channel arrival) with
        nextPeriodicSyncAbsTime := absTime + clmSyncEmitIntervalUs
        emitSyncEntry := false
        logged := s.logged ++ [.sync absTime.toNat arrival] } arrival log') := by
  have hprepare : step (s.stopping q) (.prepare absTime) = some { s.stopping q with
      absTime
      emitSyncEntry := true
      nextPeriodicSyncAbsTime := absTime + clmSyncEmitIntervalUs
      point := .drain 0 } := by
    have hdue := scheduleSync_of_due (s := s.stopping q) hne hle
    calc
      step (s.stopping q) (.prepare absTime) =
          some { (s.stopping q).scheduleSync absTime with point := .drain 0 } := rfl
      _ = _ := by rw [hdue]
  generalize absTime + clmSyncEmitIntervalUs = next at hlt hprepare ⊢
  have hfetch := step_fetch_emit (s := { s.stopping q with
    absTime
    emitSyncEntry := true
    nextPeriodicSyncAbsTime := next
    point := .drain 0 }) rfl (.inr rfl) hread hlt rfl hsync
  have hprefix := Step.run_append_eq_some.mpr ⟨_, run_stopFlush h hflush absTime,
    Step.run_cons_eq_some.mpr ⟨_, hprepare, Step.run_cons_eq_some.mpr ⟨_, hfetch, Step.run_nil⟩⟩⟩
  exact Step.run_append_eq_some.mpr ⟨_, hprefix,
    run_drained rfl rfl rfl h.can1 h.can2 hempty hoffer⟩

end Stop

theorem run_oneFrame (h : s.Quiet false) (hc : s.port.pageReceive.count = 0)
    (hinv : Session.Inv epoch s.log l) (hcur : l.current = []) (channel : Channel)
    (arrival : Nat) : ∃ t l',
    Step.run step s (startPoll 0 ++ .bridge (emptyFrame channel arrival) :: stopPoll 0) = some t ∧
      Session.Inv epoch t.log l' ∧ l'.complete = l.complete ∧
      l'.current = [syncEntry 0 0, frameEntry (emptyFrame channel arrival)] ∧
      t.point = .commit ∧ t.commitLog = true ∧
      t.runCanTracer = false ∧ t.runCanTracerOld = false ∧ t.emitSyncEntry = false ∧
      t.can1 = .init ∧ t.can2 = .init ∧ t.port.pageReceive.count = 0 ∧ t.port.indexRead = 0 ∧
      t.port.canFrameBuffer.items = [] := by
  obtain ⟨log, l₁, hsync, hinv₁, hc₁, hu₁⟩ :=
    offer_ok (inv_resetCounts hinv) (syncEntry 0 0) (by simp [hcur])
  rw [hcur, List.nil_append] at hu₁
  have hstart := run_startPoll h (by decide) hsync
  obtain ⟨log', l₂, hframe, hinv₂, hc₂, hu₂⟩ :=
    offer_ok hinv₁ (frameEntry (emptyFrame channel arrival)) (by simp [hu₁])
  obtain ⟨q, r, hflush, hread, hempty, hcount, hindex, hitems, -⟩ :=
    flush_one (p := (s.started 0 log).port) hc h.index h.buffer (emptyFrame channel arrival)
  have hquiet := (started_quiet h 0 log).bridge hc (emptyFrame channel arrival)
  have hstop := run_stopPoll hquiet (show (0 : UInt64) < 0 + clmSyncEmitIntervalUs by decide) hflush
    hread hempty hframe
  have hbridge : step (s.started 0 log) (.bridge (emptyFrame channel arrival)) =
      some ((s.started 0 log).bridge (emptyFrame channel arrival)) := rfl
  have hrun := Step.run_append_eq_some.mpr
    ⟨_, hstart, Step.run_cons_eq_some.mpr ⟨_, hbridge, hstop⟩⟩
  refine ⟨_, l₂, hrun, hinv₂, hc₂.trans hc₁, ?_, rfl, rfl, rfl, rfl, rfl, h.can1, h.can2, hcount,
    hindex, hitems⟩
  rw [hu₂, hu₁]
  rfl

end CanLogManager

end CanSniffer.Logging
