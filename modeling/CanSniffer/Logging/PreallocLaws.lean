import Mathlib.Data.List.TakeDrop
import CanSniffer.Logging.Prealloc

namespace CanSniffer.Logging

open Storage Lib Decimal

def Enough (logFileSize : UInt32) (file : Option Nat) : Prop :=
  ∃ size, file = some size ∧ logFileSize.toNat ≤ size

def Trusted (file : Option Nat) (a : VerifyAnswers) : Prop :=
  file.isSome = true ∧ a.opened = .ok ∧ a.seek = .ok

namespace FileAnswers

def seekUsed (a : FileAnswers) : Option UInt32 :=
  (1 :: seekFallbacks).find? fun back => (a.seek back).res = .ok

structure Made (a : FileAnswers) (file : Option Nat) : Prop where
  opened : file = none ∧ a.create = .ok ∨
    file = some 0 ∧ (a.create = .ok ∨ a.create = .exist) ∧ a.opened = .ok
  expand : a.expand = .ok
  seek : a.seekUsed.isSome = true
  write : a.write.ready = .ok ∧ a.write.res = .ok ∧ 0 < a.write.accepted
  rewind : a.rewind = .ok
  close : a.close = .ok

/-- The byte behind the seek that succeeds is the last one of the size or lies beyond it. -/
def Reaches (a : FileAnswers) (logFileSize : UInt32) : Prop :=
  ∀ back, a.seekUsed = some back →
    logFileSize.toNat ≤ min (logFileSize - back).toNat (a.seek back).room + 1

end FileAnswers

def MarkerStoreAnswers.Written (a : MarkerStoreAnswers) (logFileSize logFileCount : UInt32) :
    Prop :=
  a.opened = .ok ∧
    (a.write = .ok ∨ (preallocMarkerText logFileSize logFileCount).length ≤ a.accepted)

section File

variable {file : Option Nat} {logFileSize : UInt32}

theorem verifyPreallocation_iff (hsize : logFileSize ≠ 0) {a : VerifyAnswers} :
    verifyPreallocation file logFileSize a = true ↔ Trusted file a := by
  cases file <;> by_cases ha : a.opened = .ok <;>
    simp [verifyPreallocation, openExisting, Trusted, ha, hsize]

theorem foldl_trySeek_ok (fp : LogFil) (seek : UInt32 → SeekAnswer) (l : List UInt32) :
    l.foldl (trySeek logFileSize seek) (fp, .ok) = (fp, .ok) := by
  induction l with
  | nil => rfl
  | cons back l ih => exact ih

theorem foldl_trySeek (logFileSize : UInt32) (fp : LogFil) (seek : UInt32 → SeekAnswer)
    (l : List UInt32) :
    ∀ e : FResult, e ≠ .ok →
      match l.find? fun back => (seek back).res = .ok with
      | some back => l.foldl (trySeek logFileSize seek) (fp, e) =
          ((fp.fLseek (logFileSize - back) (seek back)).1, .ok)
      | none => (l.foldl (trySeek logFileSize seek) (fp, e)).2 ≠ .ok := by
  induction l with
  | nil => exact fun e he => he
  | cons back l ih =>
    intro e he
    have hstep : trySeek logFileSize seek (fp, e) back =
        fp.fLseek (logFileSize - back) (seek back) := if_pos he
    rw [List.foldl_cons, hstep]
    by_cases hback : (seek back).res = .ok
    · have hseek : fp.fLseek (logFileSize - back) (seek back) =
          ((fp.fLseek (logFileSize - back) (seek back)).1, .ok) := by
        simp [LogFil.fLseek, hback]
      rw [List.find?_cons_of_pos (by simpa using hback)]
      rw [hseek]
      exact foldl_trySeek_ok _ _ l
    · have hseek : fp.fLseek (logFileSize - back) (seek back) = (fp, (seek back).res) :=
        if_pos hback
      rw [List.find?_cons_of_neg (by simpa using hback), hseek]
      exact ih _ hback

theorem seekNearEnd_eq (fp : LogFil) (seek : UInt32 → SeekAnswer) :
    seekNearEnd fp logFileSize seek =
      (1 :: seekFallbacks).foldl (trySeek logFileSize seek) (fp, .diskErr) := by
  have hfirst : trySeek logFileSize seek (fp, .diskErr) 1 =
      fp.fLseek (logFileSize - 1) (seek 1) := if_pos (show FResult.diskErr ≠ .ok by decide)
  rw [seekNearEnd, List.foldl_cons, hfirst]

theorem seekNearEnd_of_some (logFileSize : UInt32) (fp : LogFil) {a : FileAnswers}
    {back : UInt32} (h : a.seekUsed = some back) :
    seekNearEnd fp logFileSize a.seek =
      ((fp.fLseek (logFileSize - back) (a.seek back)).1, .ok) := by
  have hfold := foldl_trySeek logFileSize fp a.seek (1 :: seekFallbacks) .diskErr (by decide)
  rw [← seekNearEnd_eq] at hfold
  rw [FileAnswers.seekUsed] at h
  rwa [h] at hfold

theorem seekNearEnd_of_none (logFileSize : UInt32) (fp : LogFil) {a : FileAnswers}
    (h : a.seekUsed = none) :
    (seekNearEnd fp logFileSize a.seek).2 ≠ .ok := by
  have hfold := foldl_trySeek logFileSize fp a.seek (1 :: seekFallbacks) .diskErr (by decide)
  rw [← seekNearEnd_eq] at hfold
  rw [FileAnswers.seekUsed] at h
  rwa [h] at hfold

theorem expandLogFile_of_made {a : FileAnswers} {back : UInt32} (hsize : logFileSize ≠ 0)
    (hmade : a.Made file) (hback : a.seekUsed = some back) :
    expandLogFile 0 logFileSize a =
      (min (logFileSize - back).toNat (a.seek back).room + 1, true) := by
  have hexpand : LogFil.fExpand ⟨0, 0⟩ logFileSize a.expand = .ok := by
    simp [LogFil.fExpand, hmade.expand, hsize]
  have hseek := seekNearEnd_of_some logFileSize ⟨0, 0⟩ hback
  obtain ⟨hready, hres, haccepted⟩ := hmade.write
  have hok : (a.seek back).res = .ok := by simpa using List.find?_some hback
  have hbw : min a.write.accepted 1 = 1 := by omega
  simp [expandLogFile, hexpand, hseek, LogFil.fLseek, LogFil.fWrite, hok, hready, hres, hbw,
    hmade.rewind, hmade.close]

theorem made_of_expandLogFile {a : FileAnswers} {size : Nat}
    (hok : (expandLogFile size logFileSize a).2 = true) :
    size = 0 ∧ a.expand = .ok ∧ a.seekUsed.isSome = true ∧
      (a.write.ready = .ok ∧ a.write.res = .ok ∧ 0 < a.write.accepted) ∧ a.rewind = .ok ∧
      a.close = .ok := by
  by_cases hexpand : LogFil.fExpand ⟨size, 0⟩ logFileSize a.expand = .ok
  · have hempty : size = 0 ∧ a.expand = .ok := by
      simp only [LogFil.fExpand] at hexpand
      split at hexpand
      · next hne => exact absurd hexpand hne
      · next hres =>
        split at hexpand
        · cases hexpand
        · next hsize => exact ⟨by omega, Decidable.not_not.mp hres⟩
    cases hseek : a.seekUsed with
    | none =>
      have hne := seekNearEnd_of_none logFileSize ⟨size, 0⟩ hseek
      simp [expandLogFile, hexpand, hne] at hok
    | some back =>
      have hsome := seekNearEnd_of_some logFileSize ⟨size, 0⟩ hseek
      by_cases hready : a.write.ready = .ok
      · simp [expandLogFile, hexpand, hsome, LogFil.fWrite, hready] at hok
        obtain ⟨hbw, hrewind, hclose⟩ := hok
        by_cases hres : a.write.res = .ok
        · rw [if_pos ⟨hres, hbw⟩] at hrewind
          exact ⟨hempty.1, hempty.2, rfl, ⟨hready, hres, by omega⟩, hrewind, hclose⟩
        · rw [if_neg fun h => hres h.1] at hrewind
          exact absurd hrewind hres
      · simp [expandLogFile, hexpand, hsome, LogFil.fWrite, hready] at hok
  · simp [expandLogFile, hexpand] at hok

theorem preallocateLogFile_of_trusted {a : FileAnswers} (hsize : logFileSize ≠ 0)
    (h : Trusted file a.verify) : preallocateLogFile file logFileSize a = (file, true) :=
  if_pos ((verifyPreallocation_iff hsize).mpr h)

theorem preallocateLogFile_of_made {a : FileAnswers} {back : UInt32} (hsize : logFileSize ≠ 0)
    (htrust : ¬Trusted file a.verify) (hmade : a.Made file) (hback : a.seekUsed = some back) :
    preallocateLogFile file logFileSize a =
      (some (min (logFileSize - back).toNat (a.seek back).room + 1), true) := by
  have hverify : ¬verifyPreallocation file logFileSize a.verify = true := by
    rwa [verifyPreallocation_iff hsize]
  have hexpand := expandLogFile_of_made hsize hmade hback
  rw [preallocateLogFile, if_neg hverify]
  rcases hmade.opened with ⟨rfl, hc⟩ | ⟨rfl, hc | hc, ho⟩
  · simp [createNew, hc, hexpand]
  · simp [createNew, openExisting, hc, ho, hexpand]
  · simp [createNew, openExisting, hc, ho, hexpand]

theorem made_of_preallocateLogFile {a : FileAnswers} (hsize : logFileSize ≠ 0)
    (htrust : ¬Trusted file a.verify)
    (hok : (preallocateLogFile file logFileSize a).2 = true) : a.Made file := by
  have hverify : ¬verifyPreallocation file logFileSize a.verify = true := by
    rwa [verifyPreallocation_iff hsize]
  rw [preallocateLogFile, if_neg hverify] at hok
  have hopened : ∀ size, (expandLogFile size logFileSize a).2 = true →
      (file = none ∧ a.create = .ok ∨
        file = some size ∧ (a.create = .ok ∨ a.create = .exist) ∧ a.opened = .ok) →
      a.Made file := by
    intro size hexpand hopen
    obtain ⟨rfl, hres, hseek, hwrite, hrewind, hclose⟩ := made_of_expandLogFile hexpand
    exact ⟨hopen, hres, hseek, hwrite, hrewind, hclose⟩
  cases file with
  | none =>
    by_cases hc : a.create = .ok
    · refine hopened 0 ?_ (.inl ⟨rfl, hc⟩)
      simpa [createNew, hc] using hok
    · simp [createNew, hc] at hok
  | some size =>
    have hexist : (createNew (some size) a.create).1 = some size ∧
        ((createNew (some size) a.create).2 = .exist ∧ (a.create = .ok ∨ a.create = .exist) ∨
          (createNew (some size) a.create).2 ≠ .ok ∧
            (createNew (some size) a.create).2 ≠ .exist) := by
      by_cases hc : a.create = .ok
      · simp [createNew, hc]
      · simp [createNew, hc, Decidable.em]
    obtain ⟨hfile, ⟨hres, hcreate⟩ | ⟨hne, hne'⟩⟩ := hexist
    · by_cases ho : a.opened = .ok
      · refine hopened size ?_ (.inr ⟨rfl, hcreate, ho⟩)
        simpa [hfile, hres, openExisting, ho] using hok
      · simp [hfile, hres, openExisting, ho] at hok
    · simp [hfile, hne', hne] at hok

theorem not_reaches_of_fallback {a : FileAnswers} {back : UInt32} (hback : a.seekUsed = some back)
    (hfallback : back ∈ seekFallbacks) (hle : back ≤ logFileSize) :
    ¬ a.Reaches logFileSize := by
  intro hreaches
  have hreach := hreaches back hback
  have hall : seekFallbacks.all (fun b => Nat.ble 512 b.toNat) = true := rfl
  have hdist : 512 ≤ back.toNat := Nat.le_of_ble_eq_true (List.all_eq_true.mp hall back hfallback)
  rw [UInt32.toNat_sub_of_le _ _ hle] at hreach
  have hle' := UInt32.le_iff_toNat_le.mp hle
  omega

end File

theorem preallocateLoop_spec (logFileSize : UInt32) (a : Nat → FileAnswers)
    (dir : Nat → Option Nat) (n : Nat) :
    (∀ i, (preallocateLoop logFileSize a dir n).1 i =
      if i < n then (preallocateLogFile (dir i) logFileSize (a i)).1 else dir i) ∧
    ((preallocateLoop logFileSize a dir n).2 = 0 ↔
      ∀ i, i < n → (preallocateLogFile (dir i) logFileSize (a i)).2 = true) := by
  induction n with
  | zero => simp [preallocateLoop]
  | succ n ih =>
    obtain ⟨hdir, herrors⟩ := ih
    have hn : (preallocateLoop logFileSize a dir n).1 n = dir n := by
      rw [hdir, if_neg (Nat.lt_irrefl n)]
    have hsucc : preallocateLoop logFileSize a dir (n + 1) =
        (fun j => if j = n then (preallocateLogFile (dir n) logFileSize (a n)).1
          else (preallocateLoop logFileSize a dir n).1 j,
         if (preallocateLogFile (dir n) logFileSize (a n)).2
          then (preallocateLoop logFileSize a dir n).2
          else (preallocateLoop logFileSize a dir n).2 + 1) := by
      have hturn : preallocateLoop logFileSize a dir (n + 1) =
          preallocateTurn logFileSize a (preallocateLoop logFileSize a dir n) n := by
        rw [preallocateLoop, List.range_succ, List.foldl_append]
        rfl
      rw [hturn, preallocateTurn, hn]
    rw [hsucc]
    refine ⟨fun i => ?_, ?_⟩
    · by_cases hi : i = n
      · subst hi
        simp
      · have hlt : i < n + 1 ↔ i < n := by omega
        simp [hi, hdir, hlt]
    · by_cases hok : (preallocateLogFile (dir n) logFileSize (a n)).2 = true
      · simp only [hok, if_true, herrors]
        exact ⟨fun h i hi => (Nat.lt_succ_iff_lt_or_eq.mp hi).elim (h i) (fun he => he ▸ hok),
          fun h i hi => h i (Nat.lt_succ_of_lt hi)⟩
      · simp only [if_neg hok]
        exact iff_of_false (Nat.succ_ne_zero _) fun h => hok (h n (Nat.lt_succ_self n))

theorem length_preallocMarkerText_lt (logFileSize logFileCount : UInt32) :
    (preallocMarkerText logFileSize logFileCount).length < preallocMarkerMaxSize := by
  have hlen : ∀ n : UInt32, (unsigned n.toNat).length ≤ 10 := fun n =>
    (length_unsigned_le_iff (by decide)).mpr (Nat.lt_trans n.toNat_lt (by decide))
  have h1 := hlen preallocMarkerVersion
  have h2 := hlen logFileSize
  have h3 := hlen logFileCount
  simp [preallocMarkerText, ascii, preallocMarkerMaxSize]
  omega

theorem storePreallocMarker_spec (logFileSize logFileCount : UInt32) (a : MarkerStoreAnswers) :
    ((storePreallocMarker logFileSize logFileCount a).2 =
      some (preallocMarkerText logFileSize logFileCount) ↔ a.Written logFileSize logFileCount) ∧
    ((storePreallocMarker logFileSize logFileCount a).1 = .ok →
      a.Written logFileSize logFileCount) := by
  have hlen := Nat.not_le.mpr (length_preallocMarkerText_lt logFileSize logFileCount)
  by_cases ho : a.opened = .ok
  · by_cases hw : a.write = .ok
    · simp [storePreallocMarker, MarkerStoreAnswers.Written, ho, hlen, hw]
    · simp [storePreallocMarker, MarkerStoreAnswers.Written, ho, hlen, hw]
  · simp [storePreallocMarker, MarkerStoreAnswers.Written, ho]

section Finish

variable (dir : Nat → Option Nat) (errorCount : Nat) (markerValid : Bool)
  (logFileSize logFileCount : UInt32) (a : PreallocAnswers)

theorem finishPreallocation_reported :
    let r := finishPreallocation dir errorCount markerValid logFileSize logFileCount a
    (r.res = .ok ∨ r.stored = some (preallocMarkerText logFileSize logFileCount)) ↔
      errorCount = 0 ∧ (markerValid = true ∧ a.opened = .ok ∨
        ¬markerValid = true ∧ a.store.Written logFileSize logFileCount) := by
  intro r
  by_cases herrors : errorCount = 0
  · cases hmarker : markerValid with
    | true =>
      have hr : r.res = a.opened ∧ r.stored = none := by
        simp [r, finishPreallocation, herrors, hmarker]
      simp [hr, herrors]
    | false =>
      obtain ⟨hstored, hres⟩ := storePreallocMarker_spec logFileSize logFileCount a.store
      have hr : (r.res = .ok → (storePreallocMarker logFileSize logFileCount a.store).1 = .ok) ∧
          r.stored = (storePreallocMarker logFileSize logFileCount a.store).2 := by
        by_cases hs : (storePreallocMarker logFileSize logFileCount a.store).1 = .ok
        · simp [r, finishPreallocation, herrors, hmarker, hs]
        · simp [r, finishPreallocation, herrors, hmarker, hs]
      rw [hr.2, hstored]
      simp only [herrors, true_and, reduceCtorEq, false_and, false_or, not_false_eq_true]
      exact ⟨fun h => h.elim (fun h => hres (hr.1 h)) id, .inr⟩
  · have hr : r.res = .diskErr ∧ r.stored = none := by
      simp [r, finishPreallocation, herrors]
    simp [hr, herrors]

theorem finishPreallocation_enough (hsize : logFileSize ≠ 0) (i : Nat) :
    Enough logFileSize
        ((finishPreallocation dir errorCount markerValid logFileSize logFileCount a).dir i) ↔
      Enough logFileSize (dir i) := by
  have hpos : 0 < logFileSize.toNat := by
    rwa [Nat.pos_iff_ne_zero, ne_eq, ← UInt32.toNat_zero, UInt32.toNat_inj]
  have happend : Enough logFileSize (some ((dir 0).getD 0)) ↔ Enough logFileSize (dir 0) := by
    cases h : dir 0 with
    | none => simp [Enough]; omega
    | some size => rfl
  unfold finishPreallocation
  generalize (if errorCount = 0 ∧ ¬markerValid = true then
    storePreallocMarker logFileSize logFileCount a.store else (.ok, none)) = s
  dsimp only
  split
  · rfl
  · split
    · rfl
    · dsimp only
      split
      · next hi => rw [happend, hi.1]
      · rfl

theorem finishPreallocation_size (i : Nat) :
    ((finishPreallocation dir errorCount markerValid logFileSize logFileCount a).dir i).getD 0 =
      (dir i).getD 0 := by
  unfold finishPreallocation
  generalize (if errorCount = 0 ∧ ¬markerValid = true then
    storePreallocMarker logFileSize logFileCount a.store else (.ok, none)) = s
  dsimp only
  split
  · rfl
  · split
    · rfl
    · dsimp only
      split
      · next hi => rw [hi.1, Option.getD_some]
      · rfl

end Finish

section Run

variable (json : CoreJson) (dir : Nat → Option Nat) (marker : Option (List UInt8))
  (logFileSize logFileCount : UInt32) (a : PreallocAnswers)

/-- What a preallocation stands for that succeeds or stores a marker for the configuration. -/
def PreallocationSound : Prop :=
  let r := preallocateLogFiles json dir marker logFileSize logFileCount a
  r.res = .ok ∨ r.stored = some (preallocMarkerText logFileSize logFileCount) →
    ∀ i, i < logFileCount.toNat → Enough logFileSize (r.dir i)

def lastLogFile : Option Nat := dir (getMaxLogIndex logFileCount).toNat

def MarkerValid : Prop :=
  preallocMarkerMatches json marker logFileSize logFileCount a.marker = true ∧
    Trusted (lastLogFile dir logFileCount) a.last

def Complete : Prop :=
  MarkerValid json dir marker logFileSize logFileCount a ∨
    Trusted (lastLogFile dir logFileCount) a.lastAgain

/-- No call fails that would be noticed, or none before the marker is stored. -/
structure Reported : Prop where
  size : logFileSize ≠ 0
  count : logFileCount ≠ 0
  files : Complete json dir marker logFileSize logFileCount a ∨ ∀ i, i < logFileCount.toNat →
    Trusted (dir i) (a.file i).verify ∨ (a.file i).Made (dir i)
  last : MarkerValid json dir marker logFileSize logFileCount a ∧ a.opened = .ok ∨
    ¬MarkerValid json dir marker logFileSize logFileCount a ∧
      a.store.Written logFileSize logFileCount

theorem markerValid_iff (hsize : logFileSize ≠ 0) :
    (preallocMarkerMatches json marker logFileSize logFileCount a.marker
      && verifyPreallocation (lastLogFile dir logFileCount) logFileSize a.last) = true ↔
      MarkerValid json dir marker logFileSize logFileCount a := by
  rw [Bool.and_eq_true, verifyPreallocation_iff hsize, MarkerValid]

theorem preallocateLogFiles_cases (hsize : logFileSize ≠ 0) (hcount : logFileCount ≠ 0) :
    ∃ (markerValid : Bool) (s : (Nat → Option Nat) × Nat),
      preallocateLogFiles json dir marker logFileSize logFileCount a =
        finishPreallocation s.1 s.2 markerValid logFileSize logFileCount a ∧
      (markerValid = true ↔ MarkerValid json dir marker logFileSize logFileCount a) ∧
      (Complete json dir marker logFileSize logFileCount a → s = (dir, 0)) ∧
      (¬Complete json dir marker logFileSize logFileCount a →
        s = preallocateLoop logFileSize a.file dir logFileCount.toNat) := by
  have hmarker := markerValid_iff json dir marker logFileSize logFileCount a hsize
  rw [preallocateLogFiles, if_neg (not_or.mpr ⟨hsize, hcount⟩)]
  refine ⟨_, _, rfl, hmarker, fun hcomplete => if_pos ?_, fun hcomplete => if_neg ?_⟩
  · rw [Bool.or_eq_true]
    exact hcomplete.imp hmarker.mpr (verifyPreallocation_iff hsize).mpr
  · rw [Bool.or_eq_true]
    exact fun h => hcomplete (h.imp hmarker.mp (verifyPreallocation_iff hsize).mp)

variable {json dir marker logFileSize logFileCount a}

theorem preallocateLogFile_ok_iff {file : Option Nat} {b : FileAnswers} (hsize : logFileSize ≠ 0) :
    (preallocateLogFile file logFileSize b).2 = true ↔ Trusted file b.verify ∨ b.Made file := by
  by_cases htrust : Trusted file b.verify
  · simp [preallocateLogFile_of_trusted hsize htrust, htrust]
  · refine ⟨fun h => .inr (made_of_preallocateLogFile hsize htrust h), fun h => ?_⟩
    have hmade := h.resolve_left htrust
    obtain ⟨back, hback⟩ := Option.isSome_iff_exists.mp hmade.seek
    rw [preallocateLogFile_of_made hsize htrust hmade hback]

theorem reported_iff :
    let r := preallocateLogFiles json dir marker logFileSize logFileCount a
    (r.res = .ok ∨ r.stored = some (preallocMarkerText logFileSize logFileCount)) ↔
      Reported json dir marker logFileSize logFileCount a := by
  intro r
  by_cases hzero : logFileSize = 0 ∨ logFileCount = 0
  · have hr : r = { res := .invalidParameter, dir, errorCount := 0, stored := none } :=
      if_pos hzero
    refine iff_of_false (by simp [hr]) fun h => ?_
    exact hzero.elim h.size h.count
  · obtain ⟨hsize, hcount⟩ := not_or.mp hzero
    obtain ⟨markerValid, s, hr, hmarker, hskip, hloop⟩ := preallocateLogFiles_cases json dir
      marker logFileSize logFileCount a hsize hcount
    have herrors : s.2 = 0 ↔ Complete json dir marker logFileSize logFileCount a ∨
        ∀ i, i < logFileCount.toNat →
          Trusted (dir i) (a.file i).verify ∨ (a.file i).Made (dir i) := by
      by_cases hcomplete : Complete json dir marker logFileSize logFileCount a
      · simp [hskip hcomplete, hcomplete]
      · rw [hloop hcomplete, (preallocateLoop_spec _ _ _ _).2]
        simp only [preallocateLogFile_ok_iff hsize, hcomplete, false_or]
    have hfinish := finishPreallocation_reported s.1 s.2 markerValid logFileSize logFileCount a
    rw [← hr, hmarker, herrors] at hfinish
    exact hfinish.trans ⟨fun h => ⟨hsize, hcount, h.1, h.2⟩, fun h => ⟨h.files, h.last⟩⟩

theorem Reported.enough_iff (h : Reported json dir marker logFileSize logFileCount a) (i : Nat)
    (hi : i < logFileCount.toNat) :
    Enough logFileSize ((preallocateLogFiles json dir marker logFileSize logFileCount a).dir i) ↔
      (Complete json dir marker logFileSize logFileCount a ∨ Trusted (dir i) (a.file i).verify →
        Enough logFileSize (dir i)) ∧
      (¬Complete json dir marker logFileSize logFileCount a →
        ¬Trusted (dir i) (a.file i).verify → (a.file i).Reaches logFileSize) := by
  obtain ⟨markerValid, s, hr, -, hskip, hloop⟩ := preallocateLogFiles_cases json dir
    marker logFileSize logFileCount a h.size h.count
  rw [hr, finishPreallocation_enough _ _ _ _ _ _ h.size]
  by_cases hcomplete : Complete json dir marker logFileSize logFileCount a
  · simp [hskip hcomplete, hcomplete]
  · rw [hloop hcomplete, (preallocateLoop_spec _ _ _ _).1, if_pos hi]
    by_cases htrust : Trusted (dir i) (a.file i).verify
    · simp [preallocateLogFile_of_trusted h.size htrust, htrust]
    · have hmade := (h.files.resolve_left hcomplete i hi).resolve_left htrust
      obtain ⟨back, hback⟩ := Option.isSome_iff_exists.mp hmade.seek
      rw [preallocateLogFile_of_made h.size htrust hmade hback]
      simp [Enough, hcomplete, htrust, FileAnswers.Reaches, hback]

end Run

theorem expandLogFile_of_pos {size : Nat} (h : 0 < size) (logFileSize : UInt32) (a : FileAnswers) :
    (expandLogFile size logFileSize a).1 = size := by
  have hexpand : LogFil.fExpand ⟨size, 0⟩ logFileSize a.expand ≠ .ok := by
    simp only [LogFil.fExpand]
    split
    · assumption
    · rw [if_pos (.inr (Nat.ne_of_gt h))]
      decide
  simp [expandLogFile, hexpand]

theorem preallocateLogFile_of_pos {file : Option Nat} (h : 0 < file.getD 0)
    (logFileSize : UInt32) (a : FileAnswers) :
    (preallocateLogFile file logFileSize a).1 = file := by
  cases file with
  | none => exact absurd h (Nat.lt_irrefl 0)
  | some size =>
    have hkeep : (createNew (some size) a.create).1 = some size := by
      simp only [createNew]
      split
      · rfl
      · rfl
    rw [preallocateLogFile]
    split
    · rfl
    · dsimp only
      rw [hkeep]
      split
      · next hsize =>
        cases hsize
        exact congrArg some (expandLogFile_of_pos h _ _)
      · rfl

theorem preallocateLogFiles_size (json : CoreJson) (dir : Nat → Option Nat)
    (marker : Option (List UInt8)) (logFileSize logFileCount : UInt32) (a : PreallocAnswers)
    (i : Nat) :
    ((preallocateLogFiles json dir marker logFileSize logFileCount a).dir i).getD 0 =
        (dir i).getD 0 ∨
      ((preallocateLogFiles json dir marker logFileSize logFileCount a).dir i).getD 0 =
        (preallocateLogFile (dir i) logFileSize (a.file i)).1.getD 0 := by
  by_cases hzero : logFileSize = 0 ∨ logFileCount = 0
  · rw [preallocateLogFiles, if_pos hzero]
    exact .inl rfl
  · obtain ⟨hsize, hcount⟩ := not_or.mp hzero
    obtain ⟨markerValid, s, hr, -, hskip, hloop⟩ := preallocateLogFiles_cases json dir
      marker logFileSize logFileCount a hsize hcount
    rw [hr, finishPreallocation_size]
    by_cases hcomplete : Complete json dir marker logFileSize logFileCount a
    · rw [hskip hcomplete]
      exact .inl rfl
    · rw [hloop hcomplete, (preallocateLoop_spec _ _ _ _).1]
      split
      · exact .inr rfl
      · exact .inl rfl

/-- A preallocation that is reported as done has left every file with its size if and only if the
files that were trusted had theirs, and for every other file the seek that succeeded came to the
last byte. -/
theorem preallocation_sound_iff (json : CoreJson) (dir : Nat → Option Nat)
    (marker : Option (List UInt8)) (logFileSize logFileCount : UInt32) (a : PreallocAnswers) :
    PreallocationSound json dir marker logFileSize logFileCount a ↔
      (Reported json dir marker logFileSize logFileCount a → ∀ i, i < logFileCount.toNat →
        (Complete json dir marker logFileSize logFileCount a ∨ Trusted (dir i) (a.file i).verify →
          Enough logFileSize (dir i)) ∧
        (¬Complete json dir marker logFileSize logFileCount a →
          ¬Trusted (dir i) (a.file i).verify → (a.file i).Reaches logFileSize)) := by
  refine Iff.trans (imp_congr_left reported_iff) ?_
  exact forall_congr' fun hr => forall₂_congr fun i hi => hr.enough_iff i hi

def goodCard : PreallocAnswers where
  marker := ⟨.ok, .ok⟩
  last := ⟨.ok, .ok⟩
  lastAgain := ⟨.ok, .ok⟩
  file _ :=
    { verify := ⟨.ok, .ok⟩, create := .ok, opened := .ok, expand := .ok
      seek := fun back => ⟨.ok, (2048 - back).toNat⟩
      write := ⟨.ok, 1, .ok⟩, rewind := .ok, close := .ok }
  store := ⟨.ok, .ok, 128, .ok, .ok⟩
  opened := .ok

/-- Only the last of two files is there, and it is empty: nothing is made, and success reported. -/
theorem preallocation_unsound :
    ¬ ∀ json dir marker logFileSize logFileCount a,
      PreallocationSound json dir marker logFileSize logFileCount a := by
  intro hsound
  have henough := hsound .reference (fun i => if i = 1 then some 0 else none) none 2048 2 goodCard
    (.inl (by decide +kernel)) 1 (by decide)
  obtain ⟨size, hfile, hsize⟩ := henough
  have hzero : (preallocateLogFiles .reference (fun i => if i = 1 then some 0 else none) none 2048 2
    goodCard).dir 1 = some 0 := by decide +kernel
  rw [hzero] at hfile
  cases hfile
  exact absurd hsize (by decide)

end CanSniffer.Logging
