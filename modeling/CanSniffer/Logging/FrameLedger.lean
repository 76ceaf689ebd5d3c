import CanSniffer.Logging.CanLogManagerLaws

universe u

namespace CanSniffer.Logging

open Lib Drivers Ports

/-- Kept beside a run: the frames given to the bridge task, those that went into the log, and how
many were turned away by the port or by the log. -/
structure FrameLedger where
  offered : List TimedFrame
  taken : List TimedFrame
  refused : Nat

def FrameLedger.empty : FrameLedger := ⟨[], [], 0⟩

def entryOf (f : TimedFrame) (beyond : Vector UInt8 56) : FrameEntry :=
  appCanLogFillEntry f.frame f.fits beyond f.frame.timestamp f.frame.channel

def Fills (e : FrameEntry) (f : TimedFrame) : Prop := ∃ beyond, e = entryOf f beyond

namespace CanLogManager

variable {ρ : Type u} [Lwrb ρ] {s t : CanLogManager ρ}

def inHand (s : CanLogManager ρ) : List TimedFrame :=
  match s.point with
  | .store _ newFrame => [newFrame]
  | _ => []

variable [LawfulLwrb ρ]

def note (s : CanLogManager ρ) : TracerEvent → FrameLedger → FrameLedger
  | .bridge frame, b =>
    { b with
      offered := b.offered ++ [frame]
      refused := b.refused + ((s.port.receive frame).frameDropCount - s.port.frameDropCount) }
  | .store beyond _, b =>
    match s.point with
    | .store _ newFrame =>
      if (offer s.log (.frame (entryOf newFrame beyond))).2 = .ok then
        { b with taken := b.taken ++ [newFrame] }
      else { b with refused := b.refused + 1 }
    | _ => b
  | _, b => b

structure SameFrames (s t : CanLogManager ρ) : Prop where
  log : LogEntry.frames t.log.accepted = LogEntry.frames s.log.accepted
  rest : t.inHand ++ t.port.inFlight = s.inHand ++ s.port.inFlight

omit [Lwrb ρ] [LawfulLwrb ρ] in
theorem scheduleSync_keeps (s : CanLogManager ρ) (absTime : UInt64) :
    (s.scheduleSync absTime).log = s.log ∧ (s.scheduleSync absTime).port = s.port ∧
      (s.scheduleSync absTime).point = s.point := by
  unfold scheduleSync
  simp only
  split <;> exact ⟨rfl, rfl, rfl⟩

theorem emitSync_keeps (s : CanLogManager ρ) (absTime : UInt64) (timestamp : UInt32)
    (source : Nat) :
    LogEntry.frames (s.emitSync absTime timestamp source).log.accepted =
        LogEntry.frames s.log.accepted ∧
      (s.emitSync absTime timestamp source).port = s.port ∧
      (s.emitSync absTime timestamp source).point = s.point := by
  unfold emitSync
  simp only
  rcases s.storeToFrameBuffer_cases (.sync (.ofFields 3 timestamp (absTimeToAbsHigh absTime)))
      (.sync absTime.toNat source) with ⟨heq, hacc⟩ | ⟨checks, heq, -, hacc⟩
  · rw [heq, if_pos rfl]
    refine ⟨?_, rfl, rfl⟩
    rw [hacc]
    simp [LogEntry.frames, LogEntry.frame?]
  · rw [heq, if_neg (by simp)]
    exact ⟨congrArg LogEntry.frames hacc, rfl, rfl⟩

theorem idleSync_keeps (s : CanLogManager ρ) :
    LogEntry.frames s.idleSync.log.accepted = LogEntry.frames s.log.accepted ∧
      s.idleSync.port = s.port := by
  unfold idleSync
  simp only
  split
  · obtain ⟨hlog, hport, -⟩ := emitSync_keeps { s with emitSyncEntry := false } s.absTime
      (if s.lastFrameTimestampValid then (s.lastFrameTimestamp, s.lastFrameArrival)
        else (absTimeToTimestamp s.absTime, s.absTime.toNat)).1
      (if s.lastFrameTimestampValid then (s.lastFrameTimestamp, s.lastFrameArrival)
        else (absTimeToTimestamp s.absTime, s.absTime.toNat)).2
    exact ⟨hlog, hport⟩
  · exact ⟨rfl, rfl⟩

theorem fetch_keeps {n : Nat} (hpoint : s.point = .drain n) (hfilled : s.port.PagesFilled)
    (absTime : UInt64) : SameFrames s (s.fetch n absTime) := by
  have hspec := s.port.read_spec
  have hreceived := FdcanMsgPort.read_received hfilled
  have hnone : s.inHand = [] := by rw [inHand, hpoint]
  unfold fetch
  split
  · simp only
    split
    · next newFrame hrec hdst =>
      have hsched := scheduleSync_keeps { s with
        port := s.port.read.1
        checks := { s.checks with
          canLogManagerFrameCount := s.checks.canLogManagerFrameCount + 1 } } absTime
      generalize CanLogManager.scheduleSync _ absTime = u at hsched ⊢
      obtain ⟨hlog, hport, -⟩ := hsched
      have hrest : [newFrame] ++ u.port.inFlight = s.inHand ++ s.port.inFlight := by
        rw [hport, hnone, hspec, hdst]
        rfl
      split
      · have hemit := emitSync_keeps { u with emitSyncEntry := false } absTime
          newFrame.frame.timestamp newFrame.arrival
        generalize CanLogManager.emitSync (ρ := ρ) _ absTime _ _ = v at hemit ⊢
        obtain ⟨hlog', hport', -⟩ := hemit
        refine ⟨hlog'.trans (congrArg (fun log => LogEntry.frames log.accepted) hlog), ?_⟩
        rw [← hrest]
        exact congrArg (fun port => newFrame :: port.inFlight) hport'
      · exact ⟨congrArg (fun log => LogEntry.frames log.accepted) hlog, hrest⟩
    · next hno =>
      have hdst : s.port.read.2.dst = none := by
        cases hd : s.port.read.2.dst with
        | none => rfl
        | some f =>
          rw [hd] at hreceived
          exact absurd hd (hno f hreceived)
      rw [hdst] at hspec
      refine ⟨rfl, ?_⟩
      rw [hnone, hspec]
      rfl
  · refine ⟨rfl, ?_⟩
    rw [hnone]
    rfl

theorem storeToFrameBuffer_keeps (s : CanLogManager ρ) (entry : FrameEntry) (what : Logged) :
    (s.storeToFrameBuffer (.frame entry) what).1.port = s.port ∧
    LogEntry.frames (s.storeToFrameBuffer (.frame entry) what).1.log.accepted =
      LogEntry.frames s.log.accepted ++
        if (offer s.log (.frame entry)).2 = .ok then [entry] else [] := by
  unfold storeToFrameBuffer
  simp only
  by_cases hok : (offer s.log (.frame entry)).2 = .ok
  · have hacc : (offer s.log (.frame entry)).1.accepted = s.log.accepted ++ [.frame entry] :=
      if_pos hok
    rw [if_neg (not_not_intro hok), if_pos hok]
    refine ⟨rfl, ?_⟩
    rw [hacc, LogEntry.frames_append]
    rfl
  · have hacc : (offer s.log (.frame entry)).1.accepted = s.log.accepted := if_neg hok
    rw [if_pos hok, if_neg hok, List.append_nil]
    exact ⟨rfl, congrArg LogEntry.frames hacc⟩

theorem store_keeps (s : CanLogManager ρ) (n : Nat) (newFrame : TimedFrame)
    (beyond : Vector UInt8 56) (opened : Bool) :
    (s.store n newFrame beyond opened).inHand = [] ∧
    (s.store n newFrame beyond opened).port = s.port ∧
    LogEntry.frames (s.store n newFrame beyond opened).log.accepted =
      LogEntry.frames s.log.accepted ++
        if (offer s.log (.frame (entryOf newFrame beyond))).2 = .ok then
          [entryOf newFrame beyond] else [] := by
  have hcase (u : CanLogManager ρ) (hlog : u.log = s.log) (hport : u.port = s.port) :
      let r := u.storeToFrameBuffer (.frame (entryOf newFrame beyond)) (.frame newFrame.arrival)
      let t := if r.2 ≠ .success then
          { r.1 with runCanTracer := false, lost := true, point := .account }
        else if opened then { r.1 with
          lastFrameTimestamp := newFrame.frame.timestamp
          lastFrameArrival := newFrame.arrival
          lastFrameTimestampValid := true
          point := .drain n }
        else { r.1 with
          lastFrameTimestamp := newFrame.frame.timestamp
          lastFrameArrival := newFrame.arrival
          lastFrameTimestampValid := true
          runCanTracer := false
          point := .account }
      t.inHand = [] ∧ t.port = s.port ∧
        LogEntry.frames t.log.accepted = LogEntry.frames s.log.accepted ++
          if (offer s.log (.frame (entryOf newFrame beyond))).2 = .ok then
            [entryOf newFrame beyond] else [] := by
    have hkeeps := u.storeToFrameBuffer_keeps (entryOf newFrame beyond) (.frame newFrame.arrival)
    rw [hlog, hport] at hkeeps
    generalize u.storeToFrameBuffer (.frame (entryOf newFrame beyond)) (.frame newFrame.arrival) =
      r at hkeeps ⊢
    simp only
    split
    · exact ⟨rfl, hkeeps⟩
    · split <;> exact ⟨rfl, hkeeps⟩
  unfold CanLogManager.store
  -- the sequence check of the frame's channel touches neither the log nor the port
  exact hcase _ (by split <;> [rfl; (split <;> rfl)]) (by split <;> [rfl; (split <;> rfl)])

def ledger (s : CanLogManager ρ) (es : List TracerEvent) : FrameLedger :=
  Step.record step note s es .empty

theorem offered_ledger {es : List TracerEvent} (h : Step.run step s es = some t) :
    (ledger s es).offered = es.foldl (fun fs e =>
      match e with
      | .bridge frame => fs ++ [frame]
      | _ => fs) [] := by
  refine Step.record_eq_foldl (p := FrameLedger.offered) (fun s e b => ?_) h .empty
  cases e with
  | store beyond opened =>
    simp only [note]
    repeat' split
    all_goals rfl
  | _ => rfl

end CanLogManager

namespace FrameLedger

variable {ρ : Type u} [Lwrb ρ] {s t : CanLogManager ρ} {epoch : UInt8} {b : FrameLedger}

def held (b : FrameLedger) (s : CanLogManager ρ) : List TimedFrame :=
  b.taken ++ (s.inHand ++ s.port.inFlight)

structure Inv (epoch : UInt8) (s : CanLogManager ρ) (b : FrameLedger) : Prop where
  tracer : CanLogManager.Inv epoch s
  fills : List.Forall₂ Fills (LogEntry.frames s.log.accepted) b.taken
  order : (b.held s).Sublist b.offered
  count : b.offered.length = (b.held s).length + b.refused

theorem Inv.frame (h : Inv epoch s b) (htracer : CanLogManager.Inv epoch t)
    (hsame : s.SameFrames t) : Inv epoch t b := by
  have hheld : b.held t = b.held s := by rw [held, hsame.rest, held]
  refine ⟨htracer, ?_, ?_, ?_⟩
  · rw [hsame.log]
    exact h.fills
  · rw [hheld]
    exact h.order
  · rw [hheld]
    exact h.count

theorem Inv.bridge (h : Inv epoch s b) (frame : TimedFrame) :
    Inv epoch (s.bridge frame) { b with
      offered := b.offered ++ [frame]
      refused := b.refused + ((s.port.receive frame).frameDropCount - s.port.frameDropCount) } := by
  have hport : held b (s.bridge frame) = b.taken ++ (s.inHand ++ (s.port.receive frame).inFlight) :=
    rfl
  rcases s.port.receive_spec frame with ⟨hin, hdrop⟩ | ⟨hin, hdrop⟩
  · have hheld : held b (s.bridge frame) = b.held s ++ [frame] := by
      rw [hport, hin, held, List.append_assoc, List.append_assoc]
    refine ⟨h.tracer.bridge frame, h.fills, hheld ▸ h.order.append (List.Sublist.refl _), ?_⟩
    have hlen := congrArg List.length hheld
    rw [List.length_append] at hlen
    change (b.offered ++ [frame]).length = (held b (s.bridge frame)).length +
      (b.refused + ((s.port.receive frame).frameDropCount - s.port.frameDropCount))
    rw [hlen, List.length_append, h.count, hdrop]
    omega
  · have hheld : held b (s.bridge frame) = b.held s := by rw [hport, hin, held]
    refine ⟨h.tracer.bridge frame, h.fills,
      hheld ▸ h.order.trans (List.sublist_append_left _ _), ?_⟩
    change (b.offered ++ [frame]).length = (held b (s.bridge frame)).length +
      (b.refused + ((s.port.receive frame).frameDropCount - s.port.frameDropCount))
    rw [hheld, List.length_append, h.count, hdrop, List.length_singleton]
    omega

theorem Inv.take (h : Inv epoch s b) {newFrame : TimedFrame} {entry : FrameEntry}
    (hfills : Fills entry newFrame) (hhand : s.inHand = [newFrame])
    (htracer : CanLogManager.Inv epoch t) (hempty : t.inHand = [])
    (hport : t.port = s.port)
    (hlog : LogEntry.frames t.log.accepted = LogEntry.frames s.log.accepted ++ [entry]) :
    Inv epoch t { b with taken := b.taken ++ [newFrame] } := by
  have hheld : held { b with taken := b.taken ++ [newFrame] } t = b.held s := by
    simp [held, hhand, hempty, hport]
  refine ⟨htracer, ?_, hheld ▸ h.order, ?_⟩
  · rw [hlog]
    exact List.rel_append h.fills (.cons hfills .nil)
  · rw [hheld]
    exact h.count

theorem Inv.refuse (h : Inv epoch s b) {newFrame : TimedFrame} (hhand : s.inHand = [newFrame])
    (htracer : CanLogManager.Inv epoch t) (hempty : t.inHand = [])
    (hport : t.port = s.port)
    (hlog : LogEntry.frames t.log.accepted = LogEntry.frames s.log.accepted) :
    Inv epoch t { b with refused := b.refused + 1 } := by
  have hs : b.held s = b.taken ++ ([newFrame] ++ s.port.inFlight) := by rw [held, hhand]
  have ht : held b t = b.taken ++ s.port.inFlight := by
    rw [held, hempty, hport, List.nil_append]
  refine ⟨htracer, ?_, ?_, ?_⟩
  · rw [hlog]
    exact h.fills
  · have hsub : (held b t).Sublist (b.held s) := by
      rw [hs, ht]
      exact (List.Sublist.refl _).append (List.sublist_append_right _ _)
    exact hsub.trans h.order
  · have hcount := h.count
    change _ = (held b t).length + _
    rw [ht]
    rw [hs] at hcount
    simp only [List.length_append, List.length_singleton] at *
    omega

variable [LawfulLwrb ρ]

theorem Inv.store (h : Inv epoch s b) {n : Nat} {newFrame : TimedFrame}
    (hpoint : s.point = .store n newFrame) (beyond : Vector UInt8 56) (opened : Bool) :
    Inv epoch (s.store n newFrame beyond opened) (s.note (.store beyond opened) b) := by
  have htracer := h.tracer.store n newFrame beyond opened
  have hhand : s.inHand = [newFrame] := by rw [CanLogManager.inHand, hpoint]
  obtain ⟨hempty, hport, hlog⟩ := s.store_keeps n newFrame beyond opened
  simp only [CanLogManager.note, hpoint]
  by_cases hok : (CanLogManager.offer s.log (.frame (entryOf newFrame beyond))).2 = .ok
  · rw [if_pos hok] at hlog ⊢
    exact h.take ⟨beyond, rfl⟩ hhand htracer hempty hport hlog
  · rw [if_neg hok] at hlog ⊢
    exact h.refuse hhand htracer hempty hport (hlog.trans (List.append_nil _))

theorem step_inv {e : TracerEvent} (h : Inv epoch s b) (hs : CanLogManager.step s e = some t) :
    Inv epoch t (s.note e b) := by
  have htracer := CanLogManager.step_inv h.tracer hs
  cases CanLogManager.step_does hs with
  | setTracer run => exact h.frame htracer ⟨rfl, rfl⟩
  | bridge frame => exact h.bridge frame
  | canAbsDrop => exact h.frame htracer ⟨rfl, rfl⟩
  | overrun channel => cases channel <;> exact h.frame htracer ⟨rfl, rfl⟩
  | @sd call log hlog =>
    have hacc : log.accepted = s.log.accepted := by
      cases call with
      | readNextBlock =>
        cases hlog
        unfold Session.afterRead
        split <;> rfl
      | consume =>
        obtain ⟨_, -, rfl⟩ := Option.map_eq_some_iff.mp hlog
        rfl
    exact h.frame htracer ⟨congrArg LogEntry.frames hacc, rfl⟩
  | poll hpoint absTime started =>
    have hnone : s.inHand = [] := by rw [CanLogManager.inHand, hpoint]
    have hsame : s.SameFrames (s.poll absTime started) := by
      unfold CanLogManager.poll
      split
      · exact ⟨rfl, by rw [hnone]; rfl⟩
      · split <;> exact ⟨rfl, by rw [hnone]; rfl⟩
    exact h.frame htracer hsame
  | @flush port hpoint hport =>
    obtain ⟨hin, -, -⟩ := FdcanMsgPort.flush_spec hport h.tracer.filled
    refine h.frame htracer ⟨rfl, ?_⟩
    simp only [CanLogManager.inHand, hpoint, hin]
  | prepare hpoint absTime =>
    obtain ⟨hlog, hport, -⟩ := s.scheduleSync_keeps absTime
    refine h.frame htracer ⟨congrArg (fun log => LogEntry.frames log.accepted) hlog, ?_⟩
    simp only [CanLogManager.inHand, hpoint, hport]
  | fetch hpoint absTime =>
    exact h.frame htracer (CanLogManager.fetch_keeps hpoint h.tracer.filled absTime)
  | store hpoint beyond opened => exact h.store hpoint beyond opened
  | account hpoint => exact h.frame htracer ⟨rfl, by simp [CanLogManager.inHand, hpoint,
      CanLogManager.account]⟩
  | idleSync hpoint =>
    obtain ⟨hlog, hport⟩ := s.idleSync_keeps
    refine h.frame htracer ⟨hlog, ?_⟩
    simp only [CanLogManager.inHand, hpoint, hport]
    rfl
  | commit hpoint =>
    have hnone : s.inHand = [] := by rw [CanLogManager.inHand, hpoint]
    have hsame : s.SameFrames s.commit := by
      unfold CanLogManager.commit
      split <;> exact ⟨rfl, by rw [hnone]; rfl⟩
    exact h.frame htracer hsame
  | check hpoint =>
    refine h.frame htracer ⟨rfl, ?_⟩
    simp only [CanLogManager.inHand, hpoint, CanLogManager.check]

theorem Inv.start (zero : TimedFrame) (epoch : UInt8) :
    Inv epoch (.start zero epoch : CanLogManager ρ) .empty where
  tracer := .start zero epoch
  fills := .nil
  order := by
    simp [held, CanLogManager.start, CanLogManager.inHand, FdcanMsgPort.init, FdcanMsgPort.boot,
      FdcanMsgPort.inFlight, FdcanMsgPort.queued, PageType.entries, empty]
  count := by
    simp [held, CanLogManager.start, CanLogManager.inHand, FdcanMsgPort.init, FdcanMsgPort.boot,
      FdcanMsgPort.inFlight, FdcanMsgPort.queued, PageType.entries, empty]

theorem run_inv {zero : TimedFrame} {es : List TracerEvent}
    (h : Step.run CanLogManager.step (.start zero epoch) es = some s) :
    Inv epoch s (CanLogManager.ledger (.start zero epoch : CanLogManager ρ) es) :=
  Step.run_record_invariant step_inv (Inv.start zero epoch) h

end FrameLedger

end CanSniffer.Logging
