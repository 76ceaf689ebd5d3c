import CanSniffer.Lib.Epoch
import CanSniffer.Logging.TracerStop
import CanSniffer.Web.ParseCanLogLaws

universe u

namespace CanSniffer.Web

open Lib Logging

/-- The time a sync entry written at `absTime` with the low half of `source` stands for. -/
def reference (absTime source : Nat) : Nat :=
  absTime / UInt32.size * UInt32.size + source % UInt32.size

theorem reference_div (absTime source : Nat) :
    reference absTime source / UInt32.size = absTime / UInt32.size := by
  simp only [reference, UInt32.size]
  omega

theorem reference_mod (absTime source : Nat) :
    reference absTime source % UInt32.size = source % UInt32.size := by
  simp only [reference, UInt32.size]
  omega

/-- A frame's low half leads back to its arrival, after a sync that stands for `since`. -/
def InWindow : Option Nat → Nat → Prop
  | none, arrival => arrival < UInt32.size
  | some since, arrival => since ≤ arrival ∧ arrival < since + UInt32.size

/-- Every frame arrived within 2^32 us from what the sync before it stands for. -/
def Windows : Option Nat → List Logged → Prop
  | _, [] => True
  | _, .sync absTime source :: ls => Windows (some (reference absTime source)) ls
  | since, .frame arrival :: ls => InWindow since arrival ∧ Windows since ls

def arrivals : List Logged → List Nat
  | [] => []
  | .sync _ _ :: ls => arrivals ls
  | .frame arrival :: ls => arrival :: arrivals ls

def ParseState.Synced (s : ParseState) : Option Nat → Prop
  | none => s.lastSyncHigh = none
  | some since =>
    s.lastSyncHigh = some (since / UInt32.size) ∧ s.lastSyncLow = some (since % UInt32.size)

theorem timestamp64_none {s : ParseState} (h : s.Synced none) (low : Nat) :
    timestamp64 s low = low := by
  rw [timestamp64, h]

theorem timestamp64_some {s : ParseState} {since : Nat} (h : s.Synced (some since)) {low : Nat}
    (hlow : low < UInt32.size) : timestamp64 s low = following UInt32.size since low := by
  simp only [timestamp64, h.1, h.2, following]
  split <;> exact shiftLeft_or _ hlow

theorem timestamp64_eq_iff {s : ParseState} {since : Option Nat} (h : s.Synced since)
    (arrival : Nat) :
    timestamp64 s (arrival % UInt32.size) = arrival ↔ InWindow since arrival := by
  have hpos : 0 < UInt32.size := by decide
  cases since with
  | none =>
    rw [timestamp64_none h, InWindow]
    exact ⟨fun heq => heq ▸ Nat.mod_lt _ hpos, Nat.mod_eq_of_lt⟩
  | some since =>
    rw [timestamp64_some h (Nat.mod_lt _ hpos), following_eq_iff hpos, InWindow]

theorem toNat_timestamp (arrival : Nat) :
    (UInt32.ofNat arrival).toNat = arrival % UInt32.size := rfl

theorem ParseState.Synced.sync {e : SyncEntry} {absTime source : Nat}
    (htime : e.timestamp = UInt32.ofNat source)
    (hhigh : e.absTimeHigh.toNat = absTime / UInt32.size) (s : ParseState) :
    (s.log (.sync e)).Synced (some (reference absTime source)) := by
  refine ⟨?_, ?_⟩
  · rw [reference_div, ← hhigh]
    rfl
  · rw [reference_mod, ← toNat_timestamp, ← htime]
    rfl

theorem foldl_log_times {es : List LogEntry} {what : List Logged}
    (h : List.Forall₂ Matches es what) {s : ParseState} {since : Option Nat}
    (hs : s.Synced since) :
    ∃ ts, (es.foldl ParseState.log s).entries.map TraceEntry.timestampUs =
        s.entries.map TraceEntry.timestampUs ++ ts ∧
      (ts = arrivals what ↔ Windows since what) := by
  induction h generalizing s since with
  | nil => exact ⟨[], by simp, by simp [arrivals, Windows]⟩
  | @cons e w es what hm _ ih =>
    cases hm with
    | @sync e absTime source htime hhigh =>
      obtain ⟨ts, hts, hiff⟩ := ih (ParseState.Synced.sync htime hhigh s)
      exact ⟨ts, hts, hiff⟩
    | @frame e arrival htime =>
      have hrow : (s.row e).timestampUs = timestamp64 s (arrival % UInt32.size) := by
        rw [← toNat_timestamp, ← htime]
        rfl
      have hsame : (s.log (.frame e)).Synced since := hs
      obtain ⟨ts, hts, hiff⟩ := ih hsame
      refine ⟨(s.row e).timestampUs :: ts, ?_, ?_⟩
      · rw [List.foldl_cons, hts]
        simp [ParseState.log]
      · rw [arrivals, List.cons.injEq, hiff, hrow, timestamp64_eq_iff hs, Windows]

section Tracer

variable {ρ : Type u} [Lwrb ρ] {s : CanLogManager ρ} {epoch : UInt8}

/-- What the entries that have gone to storage are about. -/
def stored (s : CanLogManager ρ) : List Logged :=
  s.logged.take (s.logged.length - s.log.buf.stagedEntries.length)

/-- The rows, in the order of the log before `parseCanLog` sorts them, show when the frames
arrived. -/
def TimesRight (s : CanLogManager ρ) : Prop :=
  (parseBlocks (s.log.consumed.flatMap Block.data) 0 none .init).entries.map
    TraceEntry.timestampUs = arrivals (stored s)

theorem timesRight_iff (h : CanLogManager.Inv epoch s) :
    TimesRight s ↔ Windows none (stored s) := by
  obtain ⟨l, hinv, -⟩ := h.log
  obtain ⟨gs, hg, hacc⟩ := hinv.consumed
  have hparse := parseBlocks_data hg [] .init (.inl rfl)
  rw [List.nil_append, List.length_nil] at hparse
  have hlen : s.logged.length - s.log.buf.stagedEntries.length = gs.flatten.length := by
    rw [← h.records.length_eq, hacc, CanLogBuffer.stagedEntries_eq hinv.represents,
      List.length_append, Nat.add_sub_cancel]
  have hstored : List.Forall₂ Matches gs.flatten (stored s) := by
    have htake := List.forall₂_take gs.flatten.length h.records
    rw [hacc, List.take_left] at htake
    rw [stored, hlen]
    exact htake
  have hinit : ParseState.init.Synced none := rfl
  obtain ⟨ts, hts, hiff⟩ := foldl_log_times hstored hinit
  rw [TimesRight, hparse, hts]
  exact hiff

variable [LawfulLwrb ρ]

/-- In a run the times of the emitted log are right throughout exactly if every emitted frame
falls into the window of the sync before it. -/
theorem times_right_iff (zero : TimedFrame) (epoch : UInt8) (es : List TracerEvent) :
    Step.Throughout CanLogManager.step (fun s : CanLogManager ρ => TimesRight s)
      (.start zero epoch) es ↔
    Step.Throughout CanLogManager.step (fun s : CanLogManager ρ => Windows none (stored s))
      (.start zero epoch) es := by
  apply Step.throughout_congr
  rintro s ⟨fs, hrun⟩
  exact timesRight_iff (CanLogManager.run_inv hrun)

theorem times_right_iff_start :
    Step.Throughout CanLogManager.step (fun s : CanLogManager ByteQueue => TimesRight s)
      (.start (emptyFrame .can1 0) 0) (CanLogManager.startPoll 0) ↔
    Step.Throughout CanLogManager.step
      (fun s : CanLogManager ByteQueue => Windows none (stored s))
      (.start (emptyFrame .can1 0) 0) (CanLogManager.startPoll 0) :=
  times_right_iff (emptyFrame .can1 0) 0 (CanLogManager.startPoll 0)

/-- The 32-bit counter wraps in the 15 us between a frame's arrival and the poll that stores it,
and in that poll the periodic sync is due: it has the frame's low half and the poll's high one,
and the frame is shown 2^32 us late. -/
theorem sync_across_wrap : ∃ es, ∃ s : CanLogManager ByteQueue,
    Step.run CanLogManager.step (.start (emptyFrame .can1 0) 0) es = some s ∧
      stored s = [.sync 2494967306 2494967306, .sync 4294967306 4294967291,
        .frame 4294967291] ∧ ¬TimesRight s := by
  have hboot := CanLogManager.quiet_start (ρ := ByteQueue) (emptyFrame .can1 0) 0
  have hempty := Session.Inv.start ((CanLogBuffer.boot : CanLogBuffer ByteQueue).setEpochCount 0)
  obtain ⟨log₁, l₁, hstartSync, hinv₁, hc₁, hu₁⟩ :=
    CanLogManager.offer_ok (CanLogManager.inv_resetCounts hempty)
      (CanLogManager.syncEntry 2494967306 (absTimeToTimestamp 2494967306)) (Nat.succ_pos _)
  have hstart := CanLogManager.run_startPoll hboot (by decide) hstartSync
  obtain ⟨log₂, l₂, hsync, hinv₂, hc₂, hu₂⟩ := CanLogManager.offer_ok hinv₁
    (CanLogManager.syncEntry 4294967306 (UInt32.ofNat 4294967291)) (by rw [hu₁]; decide)
  obtain ⟨log₃, l₃, hframe, hinv₃, hc₃, hu₃⟩ := CanLogManager.offer_ok hinv₂
    (CanLogManager.frameEntry (emptyFrame .can1 4294967291)) (by rw [hu₂, hu₁]; decide)
  obtain ⟨q, r, hflush, hread, hnone, -⟩ := CanLogManager.flush_one (p := (CanLogManager.started
    (.start (emptyFrame .can1 0) 0 : CanLogManager ByteQueue) 2494967306 log₁).port) rfl rfl rfl
    (emptyFrame .can1 4294967291)
  have hquiet := (CanLogManager.started_quiet hboot 2494967306 log₁).bridge rfl
    (emptyFrame .can1 4294967291)
  obtain ⟨u, hstop, hlog, hpoint, hcommit, hlogged⟩ : ∃ u,
      Step.run CanLogManager.step _ (CanLogManager.stopPoll 4294967306) = some u ∧ u.log = log₃ ∧
        u.point = .commit ∧ u.commitLog = true ∧ u.logged = [.sync 2494967306 2494967306,
          .sync 4294967306 4294967291, .frame 4294967291] :=
    ⟨_, CanLogManager.run_stopPoll_due hquiet
      (show (2494967306 + clmSyncEmitIntervalUs : UInt64) ≠ 0 by decide)
      (show (2494967306 + clmSyncEmitIntervalUs : UInt64) ≤ 4294967306 by decide) (by decide)
      hflush hread hnone hsync hframe, rfl, rfl, rfl, rfl⟩
  rw [← hlog] at hinv₃
  obtain ⟨l₄, hinv₄, hcur, hlen⟩ := CanLogManager.commit_closes hinv₃ (by simp [hu₃])
    (by rw [hc₃, hc₂, hc₁]; decide) hcommit
  obtain ⟨t, hstore, hsame, -, hstaged⟩ := CanLogManager.run_storage hinv₄ hcur (by rw [hlen, hc₃, hc₂, hc₁]; rfl)
  have hbridge : CanLogManager.step (CanLogManager.started (.start (emptyFrame .can1 0) 0)
      2494967306 log₁) (.bridge (emptyFrame .can1 4294967291)) = some _ := rfl
  have hend : CanLogManager.step u .commit = some u.commit := by
    simp [CanLogManager.step, hpoint]
  have hrun := Step.run_append_eq_some.mpr ⟨_, hstart, Step.run_cons_eq_some.mpr ⟨_, hbridge,
    Step.run_append_eq_some.mpr ⟨u, hstop, Step.run_cons_eq_some.mpr ⟨_, hend, hstore⟩⟩⟩⟩
  have hstored : stored t = [.sync 2494967306 2494967306, .sync 4294967306 4294967291,
      .frame 4294967291] := by
    rw [stored, hstaged, hsame, ← hlogged]
    simp [CanLogManager.commit, hcommit]
  refine ⟨_, t, hrun, hstored, ?_⟩
  rw [timesRight_iff (CanLogManager.run_inv hrun), hstored]
  simp [Windows, InWindow, reference, UInt32.size]

end Tracer

end CanSniffer.Web
