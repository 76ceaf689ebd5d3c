import CanSniffer.Lib.Recent
import CanSniffer.Logging.ErrorRecorder

namespace CanSniffer.Logging

open Lib

namespace ErrorRecorder

def entries (l : List ErrorContext) : List ErrorRecorderEntry :=
  (l.zipIdx 1).map fun e => ⟨UInt32.ofNat e.2, e.1⟩

def cells (r : ErrorRecorder) (i : Nat) : Option ErrorRecorderEntry := r.recentErrors[i]?

/-- What the recorder keeps of the errors since it was cleared. -/
structure Keeps (r : ErrorRecorder) (l : List ErrorContext) : Prop where
  total : r.totalCount.toNat = l.length
  count : r.recentCount.toNat = min l.length errorRecorderRecentCount
  next : r.recentNext.toNat = l.length % errorRecorderRecentCount
  first : ∀ context, l.head? = some context → r.firstError = ⟨1, context⟩
  last : ∀ context, l.getLast? = some context →
    r.lastError = ⟨UInt32.ofNat l.length, context⟩
  recent : HoldsRecent r.cells errorRecorderRecentCount (entries l)

structure Reports (s : ErrorRecorderSnapshot) (l : List ErrorContext) : Prop where
  total : s.totalCount.toNat = l.length
  count : s.recentCount.toNat = min l.length errorRecorderRecentCount
  overwritten : s.overwrittenCount.toNat = l.length - s.recentCount.toNat
  valid : s.firstValid = (if l = [] then 0 else 1) ∧ s.lastValid = s.firstValid
  first : ∀ context, l.head? = some context → s.first = ⟨1, context⟩
  last : ∀ context, l.getLast? = some context → s.last = ⟨UInt32.ofNat l.length, context⟩
  contexts : (s.recent.toList.take s.recentCount.toNat).map (·.context) =
    l.drop (l.length - s.recentCount.toNat)
  sequences : (s.recent.toList.take s.recentCount.toNat).map (·.sequence) =
    (List.range' (l.length - s.recentCount.toNat + 1) s.recentCount.toNat).map UInt32.ofNat

variable {r : ErrorRecorder} {l : List ErrorContext} {context : ErrorContext}

theorem entries_concat (l : List ErrorContext) (context : ErrorContext) :
    entries (l ++ [context]) = entries l ++ [⟨UInt32.ofNat (l.length + 1), context⟩] := by
  simp [entries, List.zipIdx_append, Nat.add_comm]

@[simp] theorem length_entries (l : List ErrorContext) : (entries l).length = l.length := by
  simp [entries]

theorem map_context_entries (l : List ErrorContext) : (entries l).map (·.context) = l := by
  rw [entries, List.map_map]
  exact List.zipIdx_map_fst 1 l

theorem map_sequence_entries (l : List ErrorContext) :
    (entries l).map (·.sequence) = (List.range' 1 l.length).map UInt32.ofNat := by
  rw [entries, List.map_map, ← List.zipIdx_map_snd 1 l, List.map_map]
  rfl

theorem keeps_clear : clear.Keeps [] where
  total := rfl
  count := rfl
  next := rfl
  first := by simp
  last := by simp
  recent := .nil

theorem toNat_nextIndex {x : UInt8} {n : Nat} (hx : x.toNat = n % errorRecorderRecentCount) :
    (nextIndex x).toNat = (n + 1) % errorRecorderRecentCount := by
  have hlt : n % errorRecorderRecentCount < 10 := Nat.mod_lt _ (by decide)
  have hsucc : (x + 1).toNat = x.toNat + 1 := by
    rw [UInt8.toNat_add]
    exact Nat.mod_eq_of_lt (by rw [hx]; change _ + 1 < 256; omega)
  unfold nextIndex
  rw [hsucc, hx, Nat.add_mod n 1]
  unfold errorRecorderRecentCount at *
  split
  · have : n % 10 = 9 := by omega
    rw [this]
    rfl
  · rw [hsucc, hx]
    omega

theorem Keeps.record (h : r.Keeps l) (hlt : l.length + 1 < UInt32.size) (context : ErrorContext) :
    (r.record (some context)).Keeps (l ++ [context]) := by
  have hsucc : (r.totalCount + 1).toNat = l.length + 1 := by
    rw [UInt32.toNat_add, h.total]
    exact Nat.mod_eq_of_lt hlt
  have hnumber : r.totalCount + 1 = UInt32.ofNat (l.length + 1) := by
    rw [← hsucc, UInt32.ofNat_toNat]
  have hcount := h.count
  constructor
  · simpa [ErrorRecorder.record] using hsucc
  · have hone : (r.recentCount + 1).toNat = (r.recentCount.toNat + 1) % 256 := UInt8.toNat_add ..
    simp only [ErrorRecorder.record, List.length_append, List.length_singleton]
    unfold errorRecorderRecentCount at *
    split <;> omega
  · rw [List.length_append]
    exact toNat_nextIndex h.next
  · intro first hfirst
    cases l with
    | nil =>
      obtain rfl : context = first := by simpa using hfirst
      have hzero : r.totalCount = 0 := UInt32.toNat_inj.mp h.total
      simp [ErrorRecorder.record, hzero]
    | cons c cs =>
      have hne : r.totalCount ≠ 0 := by
        intro hz
        have := h.total
        simp [hz] at this
      simpa [ErrorRecorder.record, hne] using h.first first (by simpa using hfirst)
  · intro last hlast
    obtain rfl : context = last := by simpa using hlast
    simp [ErrorRecorder.record, hnumber]
  · rw [entries_concat]
    refine h.recent.push ?_ ?_
    · rw [length_entries, ← h.next, ← hnumber]
      simp [cells, ErrorRecorder.record]
    · intro k hk
      rw [length_entries, ← h.next] at hk
      simp [cells, ErrorRecorder.record, Ne.symm hk]

theorem Keeps.recordAll (h : r.Keeps l) (calls : List (Option ErrorContext))
    (hlt : l.length + (calls.filterMap id).length < UInt32.size) :
    (r.recordAll calls).Keeps (l ++ calls.filterMap id) := by
  induction calls generalizing r l with
  | nil => simpa [ErrorRecorder.recordAll] using h
  | cons call calls ih =>
    cases call with
    | none => exact ih h hlt
    | some context =>
      have hcons : (some context :: calls).filterMap id = context :: calls.filterMap id := rfl
      rw [hcons, List.length_cons] at hlt
      rw [hcons, List.append_cons]
      refine ih (h.record (by omega) context) ?_
      rw [List.length_append, List.length_singleton]
      omega

theorem Keeps.start (h : r.Keeps l) :
    (if r.recentCount.toNat = errorRecorderRecentCount then r.recentNext else 0).toNat =
      oldestCell errorRecorderRecentCount l.length := by
  rw [oldestCell, h.count, ← h.next]
  split
  · rw [if_neg (by omega)]
  · rw [if_pos (by omega)]
    rfl

theorem Keeps.take_recent (h : r.Keeps l) :
    r.getSnapshot.recent.toList.take r.recentCount.toNat =
      (entries l).drop (l.length - r.recentCount.toNat) := by
  have hcount := h.count
  have hdrop : l.length - r.recentCount.toNat = l.length - errorRecorderRecentCount := by omega
  apply List.ext_getElem?
  intro i
  rcases Nat.lt_or_ge i r.recentCount.toNat with hi | hi
  · have hread := h.recent.read (i := i) (by rw [length_entries]; omega)
    rw [length_entries, ← h.start] at hread
    rw [List.getElem?_take_of_lt hi, hdrop, ← hread]
    have hlt : i < errorRecorderRecentCount := by omega
    simp only [getSnapshot, copyRecent, cells, Vector.getElem?_toList]
    rw [Vector.getElem?_ofFn, dif_pos hlt, if_pos hi,
      Vector.getElem?_eq_getElem (Nat.mod_lt _ (by decide))]
    rfl
  · rw [List.getElem?_eq_none (by simp; omega), List.getElem?_eq_none (by simp; omega)]

theorem Keeps.reports (h : r.Keeps l) : Reports r.getSnapshot l := by
  have hcount := h.count
  have hsome : 0 < r.totalCount ↔ l ≠ [] := by
    rw [UInt32.lt_iff_toNat_lt, h.total]
    exact List.length_pos_iff
  constructor
  · exact h.total
  · exact h.count
  · have hwide : r.recentCount.toUInt32.toNat = r.recentCount.toNat := UInt8.toNat_toUInt32 ..
    change (if r.recentCount.toUInt32 < r.totalCount then r.totalCount - r.recentCount.toUInt32
      else 0).toNat = l.length - r.recentCount.toNat
    split
    · rename_i hlt
      rw [UInt32.toNat_sub_of_le _ _ (UInt32.le_of_lt hlt), h.total, hwide]
    · rename_i hge
      rw [UInt32.lt_iff_toNat_lt, h.total, hwide] at hge
      rw [Nat.sub_eq_zero_of_le (Nat.not_lt.mp hge)]
      rfl
  · refine ⟨?_, rfl⟩
    change (if 0 < r.totalCount then 1 else 0) = _
    rw [if_congr hsome rfl rfl]
    split <;> simp_all
  · intro context hhead
    have hne : l ≠ [] := by
      rintro rfl
      cases hhead
    exact (if_pos (hsome.mpr hne)).trans (h.first context hhead)
  · intro context hlast
    have hne : l ≠ [] := by
      rintro rfl
      cases hlast
    exact (if_pos (hsome.mpr hne)).trans (h.last context hlast)
  · change (r.getSnapshot.recent.toList.take r.recentCount.toNat).map _ = _
    rw [h.take_recent, List.map_drop, map_context_entries]
    rfl
  · change (r.getSnapshot.recent.toList.take r.recentCount.toNat).map _ = _
    rw [h.take_recent, List.map_drop, map_sequence_entries, ← List.map_drop, List.drop_range']
    change _ = (List.range' (l.length - r.recentCount.toNat + 1) r.recentCount.toNat).map _
    congr 2
    · omega
    · omega

/-- After any calls since the recorder was cleared. -/
theorem getSnapshot_reports (calls : List (Option ErrorContext))
    (hlt : (calls.filterMap id).length < UInt32.size) :
    Reports (clear.recordAll calls).getSnapshot (calls.filterMap id) :=
  (keeps_clear.recordAll calls (by simpa using hlt)).reports

def coded (code : Nat) : ErrorContext :=
  { ErrorRecorderEntry.zero.context with code := UInt32.ofNat code }

/-- Twelve errors and a call without one: the first two are overwritten. -/
theorem getSnapshot_twelve :
    let s := (clear.recordAll (none :: ((List.range 12).map coded).map some)).getSnapshot
    s.overwrittenCount.toNat = 2 ∧ s.first.context = coded 0 ∧
      (s.recent.toList.take s.recentCount.toNat).map (·.context) =
        (List.range' 2 10).map coded := by
  intro s
  have h := getSnapshot_reports (none :: ((List.range 12).map coded).map some) (by decide)
  have hcontexts : (none :: ((List.range 12).map coded).map some).filterMap id =
      (List.range 12).map coded := by simp
  rw [hcontexts] at h
  refine ⟨?_, ?_, ?_⟩
  · rw [h.overwritten, h.count]
    decide
  · rw [h.first (coded 0) rfl]
  · rw [h.contexts, h.count]
    rfl

end ErrorRecorder

end CanSniffer.Logging
