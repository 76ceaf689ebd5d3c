import CanSniffer.Logging.FrameLedger
import CanSniffer.Logging.TracerStop
import CanSniffer.Web.ParseCanLogLaws

universe u

namespace CanSniffer.Web

open Lib Drivers Ports Logging

def ShowsFrame (r : TraceEntry) (f : TimedFrame) : Prop := ∃ beyond, Shows r (entryOf f beyond)

variable {ρ : Type u} [Lwrb ρ]

/-- Where the frames given to the bridge task are: `shown` on the page, `waiting` in the ring, the
rest in the hands of the poll and in the port. -/
structure Accounted (s : CanLogManager ρ) (b : FrameLedger) (shown waiting : List TimedFrame) :
    Prop where
  page : ∃ rs, (parseCanLog (s.log.consumed.flatMap Block.data)).Perm rs ∧
    List.Forall₂ ShowsFrame rs shown
  ring : List.Forall₂ Fills (LogEntry.frames s.log.buf.stagedEntries) waiting
  order : (shown ++ waiting ++ (s.inHand ++ s.port.inFlight)).Sublist b.offered
  count : b.offered.length =
    (shown ++ waiting ++ (s.inHand ++ s.port.inFlight)).length + b.refused
  lossless : b.refused = 0 → shown ++ waiting ++ (s.inHand ++ s.port.inFlight) = b.offered

theorem rows_of_inv {epoch : UInt8} {s : Session ρ} {l : CanLog} (h : Session.Inv epoch s l) :
    ∃ es, s.accepted = es ++ s.buf.stagedEntries ∧
      ∃ rs, (parseCanLog (s.consumed.flatMap Block.data)).Perm rs ∧
        List.Forall₂ IsRow rs (LogEntry.frames es) := by
  obtain ⟨gs, hg, hacc⟩ := h.consumed
  obtain ⟨rs, hrs, hall⟩ := foldl_log_rows gs.flatten .init
  refine ⟨gs.flatten, ?_, rs, ?_, hall⟩
  · rw [hacc, CanLogBuffer.stagedEntries_eq h.represents]
  · rw [parseCanLog_eq hg, hrs]
    exact List.mergeSort_perm ..

theorem showsFrame_of_row {rs : List TraceEntry} {fs : List FrameEntry} {shown : List TimedFrame}
    (hrows : List.Forall₂ IsRow rs fs) (hfills : List.Forall₂ Fills fs shown) :
    List.Forall₂ ShowsFrame rs shown := by
  induction hrows generalizing shown with
  | nil =>
    cases hfills
    exact .nil
  | cons hrow _ ih =>
    cases hfills with
    | cons hfill hfills =>
      obtain ⟨beyond, rfl⟩ := hfill
      exact .cons ⟨beyond, hrow.shows⟩ (ih hfills)

theorem Accounted.of_inv {epoch : UInt8} {s : CanLogManager ρ} {b : FrameLedger}
    (h : FrameLedger.Inv epoch s b) : ∃ shown waiting, Accounted s b shown waiting := by
  obtain ⟨l, hlog, -⟩ := h.tracer.log
  obtain ⟨es, hacc, rs, hperm, hrows⟩ := rows_of_inv hlog
  have hfills := h.fills
  rw [hacc, LogEntry.frames_append] at hfills
  have hsplit := hfills.flip
  have hshown := (List.forall₂_take_append _ _ _ hsplit).flip
  have hwaiting := (List.forall₂_drop_append _ _ _ hsplit).flip
  have htaken := (List.take_append_drop (LogEntry.frames es).length b.taken).symm
  generalize b.taken.take (LogEntry.frames es).length = shown at hshown htaken
  generalize b.taken.drop (LogEntry.frames es).length = waiting at hwaiting htaken
  have hheld : b.held s = shown ++ waiting ++ (s.inHand ++ s.port.inFlight) := by
    rw [FrameLedger.held, htaken]
  refine ⟨shown, waiting, ⟨rs, hperm, showsFrame_of_row hrows hshown⟩, hwaiting, ?_, ?_, ?_⟩
  · exact hheld ▸ h.order
  · exact hheld ▸ h.count
  · intro hnone
    have hcount := h.count
    rw [hnone, Nat.add_zero] at hcount
    exact hheld ▸ h.order.eq_of_length hcount.symm

variable [LawfulLwrb ρ]

/-- In whatever order the tasks run, the page shows frames that the bridge task was given, in the
order they came before they are sorted, each once; the others wait in the ring or in the port, or
were counted as refused, and without a refusal none is missing. -/
theorem trace_accounted {zero : TimedFrame} {epoch : UInt8} {es : List TracerEvent}
    {s : CanLogManager ρ} (h : Step.run CanLogManager.step (.start zero epoch) es = some s) :
    ∃ shown waiting, Accounted s (CanLogManager.ledger (.start zero epoch : CanLogManager ρ) es)
      shown waiting :=
  Accounted.of_inv (FrameLedger.run_inv h)

/-- From a start over a stop to the block that storage takes: the frame is the only row. -/
theorem trace_accounted_one : ∃ es, ∃ s : CanLogManager ByteQueue,
    Step.run CanLogManager.step (.start (emptyFrame .can1 0) 1) es = some s ∧
    ∃ waiting, Accounted s
      (CanLogManager.ledger (.start (emptyFrame .can1 0) 1 : CanLogManager ByteQueue) es)
      [emptyFrame .can2 7] waiting := by
  obtain ⟨s, l, hrun, hinv, hcomplete, hcur, hpoint, hcommit, -⟩ := CanLogManager.run_oneFrame
    (CanLogManager.quiet_start (ρ := ByteQueue) (emptyFrame .can1 0) 1) rfl
    (Session.Inv.start (CanLogBuffer.boot.setEpochCount 1)) rfl .can2 7
  obtain ⟨l', hinv', hnil, hlen⟩ := CanLogManager.commit_closes hinv (by rw [hcur]; simp)
    (by rw [hcomplete]; decide) hcommit
  obtain ⟨t, hstore, -, hacc, hstaged⟩ := CanLogManager.run_storage hinv' hnil
    (by rw [hlen, hcomplete]; rfl)
  have hend : CanLogManager.step s .commit = some s.commit := by
    simp [CanLogManager.step, hpoint]
  have hall := Step.run_append_eq_some.mpr
    ⟨s, hrun, Step.run_cons_eq_some.mpr ⟨_, hend, hstore⟩⟩
  obtain ⟨shown, waiting, h⟩ := trace_accounted hall
  have hframe : entryOf (emptyFrame .can2 7) (.replicate 56 0) ∈
      LogEntry.frames t.log.accepted := by
    obtain ⟨gs, -, haccept⟩ := hinv.consumed
    rw [hacc, CanLogManager.commit_log s hcommit, haccept, BlockLog.entries, hcur]
    simp [LogEntry.frames, LogEntry.frame?, CanLogManager.syncEntry, CanLogManager.frameEntry,
      entryOf]
  have hpos : 0 < shown.length := by
    obtain ⟨l'', hlog, -⟩ := (FrameLedger.run_inv hall).tracer.log
    obtain ⟨fs, hfs, rs, hperm, hrows⟩ := rows_of_inv hlog
    obtain ⟨rs', hperm', hrows'⟩ := h.page
    rw [hstaged, List.append_nil] at hfs
    rw [← hrows'.length_eq, ← hperm'.length_eq, hperm.length_eq, hrows.length_eq, ← hfs]
    exact List.length_pos_of_mem hframe
  have hsub : shown.Sublist [emptyFrame .can2 7] := by
    have horder := h.order
    rw [CanLogManager.offered_ledger hall] at horder
    exact ((List.sublist_append_left shown _).trans (List.sublist_append_left _ _)).trans horder
  have hshown : shown = [emptyFrame .can2 7] :=
    hsub.eq_of_length (Nat.le_antisymm hsub.length_le hpos)
  exact ⟨_, t, hall, waiting, hshown ▸ h⟩

end CanSniffer.Web
