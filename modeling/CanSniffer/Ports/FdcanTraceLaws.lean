import CanSniffer.Lib.Recent
import CanSniffer.Ports.FdcanTrace

namespace CanSniffer.Ports

open Lib

namespace FdcanTrace

/-- The first `n` cells are the last `n` samples. -/
structure Window (data : Nat → TraceEntry) (n : Nat) (samples : List TraceEntry) : Prop where
  le : n ≤ samples.length
  cell : ∀ i, i < n → some (data i) = samples[samples.length - n + i]?

structure Rolling (trigger : UInt32) (samples : List TraceEntry) (s : FdcanTrace) : Prop where
  state : s.state = .rolling
  below : ∀ e ∈ samples, e.value < trigger
  next : s.preWriteIndex = samples.length % triggerPreCount
  valid : s.preValidCount = min samples.length triggerPreCount
  cells : HoldsRecent (fun i => some (s.traceData i)) triggerPreCount samples

/-- How the accepted samples split at the one that triggered and at the latest maximum since. -/
structure Peak (trigger : UInt32) (before earlier : List TraceEntry) (peak : TraceEntry)
    (after : List TraceEntry) : Prop where
  below : ∀ e ∈ before, e.value < trigger
  triggered : ∃ first ∈ (earlier ++ [peak]).head?, trigger ≤ first.value
  rising : ∀ e ∈ earlier, e.value ≤ peak.value
  falling : ∀ e ∈ after, e.value < peak.value

structure Captured (before earlier : List TraceEntry) (peak : TraceEntry)
    (after : List TraceEntry) (s : FdcanTrace) : Prop where
  stored : s.storedCount =
    min (before.length + earlier.length) triggerPreCount + 1 + after.length
  window : Window s.traceData s.storedCount (before ++ (earlier ++ peak :: after))
  after_le : after.length ≤ triggerPostCount
  frozen : s.state = if after.length = triggerPostCount then .frozen else .postTrigger
  write : s.writeIndex = s.storedCount
  post : s.postCount = after.length
  value : s.peakValue = peak.value

theorem preCount_eq : triggerPreCount = 2000 := rfl
theorem postCount_eq : triggerPostCount = 2001 := rfl
theorem countMax_eq : traceCountMax = 4002 := rfl

variable {trigger : UInt32} {s : FdcanTrace} {n m : Nat} {data data' : Nat → TraceEntry}
  {samples before earlier after : List TraceEntry} {peak entry : TraceEntry}

theorem Window.push (h : Window data n samples) (hnew : data' n = entry)
    (hold : ∀ i, i < n → data' i = data i) : Window data' (n + 1) (samples ++ [entry]) := by
  have hle := h.le
  refine ⟨by simp; omega, ?_⟩
  intro i hi
  have hindex : (samples ++ [entry]).length - (n + 1) + i = samples.length - n + i := by
    rw [List.length_append, List.length_singleton]
    omega
  rw [hindex]
  rcases Nat.lt_or_eq_of_le (Nat.le_of_lt_succ hi) with hlt | rfl
  · rw [hold i hlt, h.cell i hlt, List.getElem?_append_left (by omega)]
  · rw [hnew, Nat.sub_add_cancel hle, List.getElem?_concat_length]

theorem Window.shrink (h : Window data n samples) (hm : m ≤ n)
    (hmove : ∀ i, i < m → data' i = data (n - m + i)) : Window data' m samples := by
  have hle := h.le
  refine ⟨by omega, ?_⟩
  intro i hi
  have hindex : samples.length - n + (n - m + i) = samples.length - m + i := by omega
  rw [hmove i hi, h.cell _ (by omega), hindex]

theorem storeRolling_spec (h : s.Rolling trigger samples) (hlow : entry.value < trigger) :
    ∃ t, s.storeRolling entry = some t ∧ t.Rolling trigger (samples ++ [entry]) := by
  have hpre := preCount_eq
  have hindex : s.preWriteIndex < triggerPreCount := by
    rw [h.next]
    exact Nat.mod_lt _ (by decide)
  have hbound : s.preWriteIndex < traceCountMax := by rw [countMax_eq]; omega
  rw [storeRolling, Cells.write_of_lt hbound]
  refine ⟨_, rfl, h.state, ?_, ?_, ?_, ?_⟩
  · intro e he
    rcases List.mem_append.mp he with he | he
    · exact h.below e he
    · rw [List.mem_singleton.mp he]
      exact hlow
  · have hnext := h.next
    simp only [List.length_append, List.length_singleton]
    rw [preCount_eq] at *
    split <;> omega
  · have hvalid := h.valid
    simp only [List.length_append, List.length_singleton]
    split <;> omega
  · refine h.cells.push ?_ ?_
    · rw [← h.next]
      simp
    · intro k hk
      rw [← h.next] at hk
      simp [Function.update_of_ne hk]

theorem linearizePreTrigger_spec (h : s.Rolling trigger samples) :
    ∃ data, s.linearizePreTrigger = some { s with traceData := data } ∧
      Window data s.preValidCount samples := by
  have hpre := preCount_eq
  have hmax := countMax_eq
  have hvalid := h.valid
  have hnext : s.preWriteIndex < triggerPreCount := by
    rw [h.next]
    exact Nat.mod_lt _ (by decide)
  unfold linearizePreTrigger
  simp only
  generalize hstart : (if s.preValidCount = triggerPreCount then s.preWriteIndex else 0) = start
  have holdest : start = oldestCell triggerPreCount samples.length := by
    rw [← hstart, oldestCell, ← h.next]
    split
    · rw [if_neg (by omega)]
    · rw [if_pos (by omega)]
  have hlt : start < triggerPreCount := by
    rw [← hstart]
    split
    · exact hnext
    · omega
  have hsource : ∀ i, i < s.preValidCount →
      (if triggerPreCount ≤ start + i then start + i - triggerPreCount else start + i) =
        (start + i) % triggerPreCount := by
    intro i hi
    split
    · rw [Nat.mod_eq_sub_mod ‹_›, Nat.mod_eq_of_lt (by omega)]
    · rw [Nat.mod_eq_of_lt (by omega)]
  rw [Cells.copy_eq (by intro i hi; split <;> omega) (by omega) (by intro i hi; split <;> omega)]
  simp only [Option.bind_eq_bind, Option.bind_some]
  rw [Cells.copy_eq (by intro i hi; omega) (by omega) (by intro i hi; omega)]
  refine ⟨_, rfl, by omega, ?_⟩
  intro i hi
  have hread := h.cells.read (i := i) (by omega)
  rw [← holdest] at hread
  have hdrop : samples.length - triggerPreCount = samples.length - s.preValidCount := by omega
  rw [if_pos (by omega), if_pos (by omega), Nat.sub_zero, Nat.add_sub_cancel_left, hsource i hi,
    hread, List.getElem?_drop, hdrop]

theorem startPostTrigger_spec (h : s.Rolling trigger samples) (hhigh : trigger ≤ entry.value) :
    ∃ t, { s with peakValue := entry.value }.startPostTrigger entry = some t ∧
      Peak trigger samples [] entry [] ∧ Captured samples [] entry [] t := by
  have hpre := preCount_eq
  have hmax := countMax_eq
  have hvalid := h.valid
  obtain ⟨data, hlinear, hwindow⟩ := linearizePreTrigger_spec
    (s := { s with peakValue := entry.value }) ⟨h.state, h.below, h.next, h.valid, h.cells⟩
  have hbound : s.preValidCount < traceCountMax := by omega
  rw [startPostTrigger, hlinear]
  simp only [Option.bind_eq_bind, Option.bind_some, Cells.write_of_lt hbound]
  refine ⟨_, rfl, ⟨h.below, ⟨entry, rfl, hhigh⟩, by simp, by simp⟩, ?_, ?_, Nat.zero_le _, rfl,
    rfl, rfl, rfl⟩
  · simp only [List.length_nil, Nat.add_zero]
    omega
  · refine hwindow.push (by simp) ?_
    intro i hi
    exact Function.update_of_ne (Nat.ne_of_lt hi) _ _

theorem Captured.room (h : Captured before earlier peak after s) (hrun : s.state = .postTrigger) :
    after.length < triggerPostCount ∧ 0 < s.storedCount ∧ s.storedCount < traceCountMax := by
  have hpre := preCount_eq
  have hpost := postCount_eq
  have hmax := countMax_eq
  have hstored := h.stored
  have hle := h.after_le
  have hne : after.length ≠ triggerPostCount := by
    intro hfull
    have hfrozen := h.frozen
    rw [if_pos hfull, hrun] at hfrozen
    cases hfrozen
  omega

theorem Peak.recenter (h : Peak trigger before earlier peak after)
    (hhigh : peak.value ≤ entry.value) :
    Peak trigger before (earlier ++ peak :: after) entry [] where
  below := h.below
  triggered := by
    obtain ⟨first, hfirst, hle⟩ := h.triggered
    refine ⟨first, ?_, hle⟩
    cases earlier with
    | nil => exact hfirst
    | cons e es => exact hfirst
  rising := by
    intro e he
    rcases List.mem_append.mp he with he | he
    · exact UInt32.le_trans (h.rising e he) hhigh
    · rcases List.mem_cons.mp he with rfl | he
      · exact hhigh
      · exact UInt32.le_trans (UInt32.le_of_lt (h.falling e he)) hhigh
  falling := by simp

theorem recenterOnNewPeak_spec (h : Captured before earlier peak after s)
    (hrun : s.state = .postTrigger) (entry : TraceEntry) :
    ∃ t, { s with peakValue := entry.value }.recenterOnNewPeak entry = some t ∧
      Captured before (earlier ++ peak :: after) entry [] t := by
  have hpre := preCount_eq
  have hmax := countMax_eq
  have hstored := h.stored
  have hwrite := h.write
  obtain ⟨-, hpos, hroom⟩ := h.room hrun
  unfold recenterOnNewPeak
  simp only
  generalize hkeep : (if triggerPreCount < s.writeIndex then triggerPreCount else s.writeIndex) =
    keep
  have hmin : keep = min s.storedCount triggerPreCount := by
    rw [← hkeep]
    split <;> omega
  rw [if_pos (by omega), Cells.move_eq (by omega) (by omega)]
  simp only [Option.bind_eq_bind, Option.bind_some]
  rw [Cells.write_of_lt (by omega)]
  have hwindow : Window (fun k => if 0 ≤ k ∧ k < 0 + keep then
      s.traceData (s.writeIndex - keep + (k - 0)) else s.traceData k) keep
      (before ++ (earlier ++ peak :: after)) := by
    refine h.window.shrink (by omega) ?_
    intro i hi
    rw [if_pos (by omega), Nat.sub_zero, hwrite]
  refine ⟨_, rfl, ?_, ?_, Nat.zero_le _, ?_, rfl, rfl, rfl⟩
  · simp only [List.length_append, List.length_cons, List.length_nil]
    omega
  · have hpush := hwindow.push (Function.update_self keep entry _) (by
      intro i hi
      exact Function.update_of_ne (Nat.ne_of_lt hi) _ _)
    simpa using hpush
  · rw [if_neg (by decide)]
    exact hrun

theorem Peak.fall (h : Peak trigger before earlier peak after) (hlow : entry.value < peak.value) :
    Peak trigger before earlier peak (after ++ [entry]) where
  below := h.below
  triggered := h.triggered
  rising := h.rising
  falling := by
    intro e he
    rcases List.mem_append.mp he with he | he
    · exact h.falling e he
    · rw [List.mem_singleton.mp he]
      exact hlow

theorem storePostTrigger_spec (h : Captured before earlier peak after s)
    (hrun : s.state = .postTrigger) (entry : TraceEntry) :
    ∃ t, s.storePostTrigger entry = some t ∧
      Captured before earlier peak (after ++ [entry]) t := by
  obtain ⟨hlt, -, hroom⟩ := h.room hrun
  have hstored := h.stored
  have hwrite := h.write
  have hpost := h.post
  rw [storePostTrigger, if_neg (by omega), Cells.write_of_lt (by omega)]
  refine ⟨_, rfl, ?_, ?_, ?_, ?_, rfl, ?_, h.value⟩
  · simp only [List.length_append, List.length_singleton]
    omega
  · have hpush := h.window.push (Function.update_self s.storedCount entry s.traceData) (by
      intro i hi
      exact Function.update_of_ne (Nat.ne_of_lt hi) _ _)
    simpa [hwrite] using hpush
  · simp only [List.length_append, List.length_singleton]
    omega
  · simp only [List.length_append, List.length_singleton, hpost, hrun]
    split
    · rw [if_pos (by omega)]
    · rw [if_neg (by omega)]
  · simp only [List.length_append, List.length_singleton, hpost]

/-- Either nothing has triggered, or the trace holds the window around the latest peak. -/
inductive Inv (trigger : UInt32) (samples : List TraceEntry) (s : FdcanTrace) : Prop
  | rolling (h : s.Rolling trigger samples)
  | captured {before earlier : List TraceEntry} {peak : TraceEntry} {after : List TraceEntry}
      (hsplit : samples = before ++ (earlier ++ peak :: after))
      (hpeak : Peak trigger before earlier peak after) (h : Captured before earlier peak after s)

theorem traceEntry_frozen (h : s.state = .frozen) (trigger : UInt32) (entry : TraceEntry) :
    s.traceEntry trigger entry = some s := by
  rw [traceEntry, h]

theorem Inv.traceEntry (h : s.Inv trigger samples) (hopen : s.state ≠ .frozen)
    (entry : TraceEntry) :
    ∃ t, s.traceEntry trigger entry = some t ∧ t.Inv trigger (samples ++ [entry]) := by
  cases h with
  | rolling h =>
    rw [FdcanTrace.traceEntry, h.state]
    by_cases hhigh : trigger ≤ entry.value
    · obtain ⟨t, ht, hpeak, hcaptured⟩ := startPostTrigger_spec h hhigh
      simp only [triggerAllowed, hhigh, decide_true, if_true]
      rw [h.state] at ht
      exact ⟨t, ht, .captured rfl hpeak hcaptured⟩
    · obtain ⟨t, ht, hrolling⟩ := storeRolling_spec h (UInt32.not_le.mp hhigh)
      simp only [triggerAllowed, hhigh, decide_false, Bool.false_eq_true, if_false]
      exact ⟨t, ht, .rolling hrolling⟩
  | @captured before earlier peak after hsplit hpeak h =>
    have hrun : s.state = .postTrigger := by
      have hfrozen := h.frozen
      split at hfrozen
      · exact absurd hfrozen hopen
      · exact hfrozen
    rw [FdcanTrace.traceEntry, hrun, hsplit]
    simp only [h.value]
    by_cases hhigh : peak.value ≤ entry.value
    · obtain ⟨t, ht, hcaptured⟩ := recenterOnNewPeak_spec h hrun entry
      rw [if_pos hhigh]
      rw [hrun] at ht
      exact ⟨t, ht, .captured (by simp) (hpeak.recenter hhigh) hcaptured⟩
    · obtain ⟨t, ht, hcaptured⟩ := storePostTrigger_spec h hrun entry
      rw [if_neg hhigh]
      exact ⟨t, ht, .captured (by simp) (hpeak.fall (UInt32.not_le.mp hhigh)) hcaptured⟩

theorem run_frozen (h : s.state = .frozen) (trigger : UInt32) (samples : List TraceEntry) :
    s.run trigger samples = some s := by
  induction samples with
  | nil => rfl
  | cons entry samples ih =>
    rw [run, List.foldlM_cons, traceEntry_frozen h]
    exact ih

theorem Inv.run (h : s.Inv trigger samples) (next : List TraceEntry) :
    ∃ t, s.run trigger next = some t ∧ ∃ taken ignored, next = taken ++ ignored ∧
      (t.state ≠ .frozen → ignored = []) ∧ t.Inv trigger (samples ++ taken) := by
  induction next generalizing s samples with
  | nil => exact ⟨s, rfl, [], [], rfl, fun _ => rfl, by simpa using h⟩
  | cons entry next ih =>
    by_cases hfrozen : s.state = .frozen
    · exact ⟨s, run_frozen hfrozen trigger _, [], entry :: next, rfl,
        fun hopen => absurd hfrozen hopen, by simpa using h⟩
    · obtain ⟨u, hu, hnext⟩ := h.traceEntry hfrozen entry
      obtain ⟨t, ht, taken, ignored, hsplit, hignored, hinv⟩ := ih hnext
      refine ⟨t, ?_, entry :: taken, ignored, by rw [hsplit]; rfl, hignored, by simpa using hinv⟩
      rw [FdcanTrace.run, List.foldlM_cons, hu]
      exact ht

theorem inv_boot (trigger : UInt32) : boot.Inv trigger [] :=
  .rolling ⟨rfl, by simp, rfl, rfl, .nil⟩

/-- Whatever the samples, the trace stays in its array, holds a gap-free window around the latest
peak and freezes exactly when enough samples below it have followed. -/
theorem run_boot (trigger : UInt32) (samples : List TraceEntry) :
    ∃ s, boot.run trigger samples = some s ∧ ∃ taken ignored, samples = taken ++ ignored ∧
      (s.state ≠ .frozen → ignored = []) ∧
      (s.state = .frozen → ∀ more, s.run trigger more = some s) ∧
      (s.state = .rolling ↔ ∀ e ∈ taken, e.value < trigger) ∧
      (s.state ≠ .rolling → ∃ before earlier peak after,
        taken = before ++ (earlier ++ peak :: after) ∧ Peak trigger before earlier peak after ∧
        Window s.traceData s.storedCount taken ∧ s.storedCount ≤ traceCountMax ∧
        s.traceData (s.storedCount - after.length - 1) = peak ∧
        s.storedCount - after.length - 1 =
          min (before.length + earlier.length) triggerPreCount ∧
        (s.state = .frozen ↔
          after.length = triggerPostCount ∨ s.storedCount = traceCountMax)) := by
  obtain ⟨s, hrun, taken, ignored, hsplit, hignored, hinv⟩ := (inv_boot trigger).run samples
  refine ⟨s, hrun, taken, ignored, hsplit, hignored, fun hf => run_frozen hf trigger, ?_⟩
  rw [List.nil_append] at hinv
  cases hinv with
  | rolling h => exact ⟨iff_of_true h.state h.below, fun hne => absurd h.state hne⟩
  | @captured before earlier peak after htaken hpeak h =>
    have hpre := preCount_eq
    have hpost := postCount_eq
    have hmax := countMax_eq
    have hstored := h.stored
    have hafter := h.after_le
    have hfrozen := h.frozen
    have hne : s.state ≠ .rolling := by
      intro hroll
      rw [hroll] at hfrozen
      split at hfrozen
      · cases hfrozen
      · cases hfrozen
    constructor
    · refine iff_of_false hne ?_
      intro hall
      obtain ⟨first, hfirst, hle⟩ := hpeak.triggered
      have hmem : first ∈ taken := by
        have := List.mem_of_mem_head? hfirst
        rw [htaken]
        rcases List.mem_append.mp this with h' | h'
        · simp [h']
        · simp [List.mem_singleton.mp h']
      exact absurd (hall first hmem) (UInt32.not_lt.mpr hle)
    · intro _
      refine ⟨before, earlier, peak, after, htaken, hpeak, htaken ▸ h.window, by omega, ?_,
        by omega, ?_⟩
      · have hcell := h.window.cell (s.storedCount - after.length - 1) (by omega)
        have hlen : (before ++ (earlier ++ peak :: after)).length - s.storedCount +
            (s.storedCount - after.length - 1) = before.length + earlier.length := by
          have hle := h.window.le
          simp only [List.length_append, List.length_cons] at hle ⊢
          omega
        rw [hlen, ← List.append_assoc, ← List.length_append,
          List.getElem?_append_right (Nat.le_refl _)] at hcell
        simpa using hcell
      · rw [hfrozen]
        split
        · simp [*]
        · simp [*]
          omega

end FdcanTrace

end CanSniffer.Ports
