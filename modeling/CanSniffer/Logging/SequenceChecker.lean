import CanSniffer.Logging.RuntimeChecks

namespace CanSniffer.Logging

namespace ScSequenceType

def scInit (seq : ScSequenceType) (index wrapIndex : UInt32) : ScSequenceType × ScStatusType :=
  if wrapIndex = 0 ∨ wrapIndex < index then (seq, .invParam) else (init index wrapIndex, .ok)

def checkAll (seq : ScSequenceType) (indices : List UInt32) : ScSequenceType :=
  indices.foldl (fun s x => (s.checkSequence x).1) seq

/-- How far an index lies after the one before it, where `wrapIndex` is the last. -/
def distance (wrapIndex previous x : UInt32) : Nat :=
  (x.toNat + (wrapIndex.toNat + 1) - previous.toNat) % (wrapIndex.toNat + 1)

def Moves (wrapIndex previous x : UInt32) : Prop := x ≤ wrapIndex ∧ x ≠ previous

instance (wrapIndex previous x : UInt32) : Decidable (Moves wrapIndex previous x) :=
  inferInstanceAs (Decidable (_ ∧ _))

def AllMove (wrapIndex : UInt32) : UInt32 → List UInt32 → Prop
  | _, [] => True
  | previous, x :: xs => Moves wrapIndex previous x ∧ AllMove wrapIndex x xs

def gapSum (wrapIndex : UInt32) : UInt32 → List UInt32 → Nat
  | _, [] => 0
  | previous, x :: xs => (distance wrapIndex previous x - 1) + gapSum wrapIndex x xs

def moving (wrapIndex : UInt32) : UInt32 → List UInt32 → List UInt32
  | _, [] => []
  | previous, x :: xs =>
    if Moves wrapIndex previous x then x :: moving wrapIndex x xs
    else moving wrapIndex previous xs

structure Ready (seq : ScSequenceType) : Prop where
  initialized : seq.initialized = true
  wrap_pos : seq.wrapIndex ≠ 0
  previous_le : seq.previousId ≤ seq.wrapIndex

/-- No sum or difference that an index leads to leaves the 32 bits. -/
structure NoOverflow (seq : ScSequenceType) (x : UInt32) : Prop where
  borrow : seq.previousId.toNat ≤ seq.wrapIndex.toNat
  carry : x < seq.previousId →
    seq.wrapIndex.toNat - seq.previousId.toNat + x.toNat + 1 ≤ uint32Max.toNat

theorem toNat_uint32Max : uint32Max.toNat = 4294967295 := rfl

variable {seq : ScSequenceType} {x wrapIndex previous : UInt32}

theorem le_uint32Max (x : UInt32) : x.toNat ≤ uint32Max.toNat := by
  have := x.toNat_lt_size
  simp only [UInt32.size] at this
  rw [toNat_uint32Max]
  omega

theorem gapCount_eq {delta : UInt32} (h : delta ≠ 0) (gapCount : UInt32) :
    (if delta = 1 then 0 else if 1 < delta then delta - 1 else gapCount) = delta - 1 := by
  by_cases h₁ : delta = 1
  · rw [if_pos h₁, h₁]
    rfl
  · rw [if_neg h₁, if_pos]
    rw [UInt32.lt_iff_toNat_lt]
    have h0 : delta.toNat ≠ 0 := fun hz => h (UInt32.toNat_inj.mp hz)
    have h1 : delta.toNat ≠ 1 := fun hz => h₁ (UInt32.toNat_inj.mp hz)
    change 1 < delta.toNat
    omega

theorem Ready.noOverflow (h : seq.Ready) (x : UInt32) : seq.NoOverflow x := by
  have hprevious := UInt32.le_iff_toNat_le.mp h.previous_le
  have hwrap := le_uint32Max seq.wrapIndex
  refine ⟨hprevious, ?_⟩
  intro hlt
  have hlt := UInt32.lt_iff_toNat_lt.mp hlt
  omega

theorem distance_bounds (hprevious : previous ≤ wrapIndex) (h : Moves wrapIndex previous x) :
    1 ≤ distance wrapIndex previous x ∧ distance wrapIndex previous x ≤ wrapIndex.toNat := by
  have hprevious := UInt32.le_iff_toNat_le.mp hprevious
  have hx := UInt32.le_iff_toNat_le.mp h.1
  have hne : x.toNat ≠ previous.toNat := fun he => h.2 (UInt32.toNat_inj.mp he)
  unfold distance
  rcases Nat.lt_or_gt_of_ne hne with hlt | hlt
  · rw [Nat.mod_eq_of_lt (by omega)]
    omega
  · rw [Nat.mod_eq_sub_mod (by omega), Nat.mod_eq_of_lt (by omega)]
    omega

theorem toNat_delta (hprevious : previous ≤ wrapIndex) (h : Moves wrapIndex previous x) :
    (if previous < x then x - previous else wrapIndex - previous + x + 1).toNat =
      distance wrapIndex previous x := by
  have hle := UInt32.le_iff_toNat_le.mp hprevious
  have hx := UInt32.le_iff_toNat_le.mp h.1
  have hne : x.toNat ≠ previous.toNat := fun he => h.2 (UInt32.toNat_inj.mp he)
  have hwrap := le_uint32Max wrapIndex
  rw [toNat_uint32Max] at hwrap
  unfold distance
  split
  · rename_i hlt
    have hlt' := UInt32.lt_iff_toNat_lt.mp hlt
    rw [UInt32.toNat_sub_of_le _ _ (UInt32.le_of_lt hlt), Nat.mod_eq_sub_mod (by omega),
      Nat.mod_eq_of_lt (by omega)]
    omega
  · rename_i hlt
    have hlt' := mt UInt32.lt_iff_toNat_lt.mpr hlt
    have hone : (1 : UInt32).toNat = 1 := rfl
    rw [UInt32.toNat_add, UInt32.toNat_add, UInt32.toNat_sub_of_le _ _ hprevious, hone,
      Nat.mod_eq_of_lt (by omega), Nat.mod_eq_of_lt (by omega), Nat.mod_eq_of_lt (by omega)]
    omega

theorem checkSequence_refused (h : seq.Ready) (hx : ¬ Moves seq.wrapIndex seq.previousId x) :
    (seq.checkSequence x).2 ≠ .ok ∧
      ((seq.checkSequence x).1 = seq ∨ (seq.checkSequence x).1 = { seq with gapCount := 0 }) := by
  unfold checkSequence
  rw [if_neg (by simp [h.initialized])]
  by_cases hrange : seq.wrapIndex < x
  · rw [if_pos hrange]
    exact ⟨by simp, .inl rfl⟩
  · have hsame : x = seq.previousId := by
      by_cases he : x = seq.previousId
      · exact he
      · exact absurd ⟨UInt32.not_lt.mp hrange, he⟩ hx
    rw [if_neg hrange, if_pos hsame]
    exact ⟨by simp, .inr rfl⟩

theorem checkSequence_moves (h : seq.Ready) (hx : Moves seq.wrapIndex seq.previousId x) :
    (seq.checkSequence x).2 = .ok ∧ (seq.checkSequence x).1.Ready ∧
      (seq.checkSequence x).1.wrapIndex = seq.wrapIndex ∧ (seq.checkSequence x).1.previousId = x ∧
      (seq.checkSequence x).1.missingCount.toNat = min uint32Max.toNat
        (seq.missingCount.toNat + (distance seq.wrapIndex seq.previousId x - 1)) := by
  have hdelta := toNat_delta h.previous_le hx
  have hpos := (distance_bounds h.previous_le hx).1
  unfold checkSequence
  rw [if_neg (by simp [h.initialized]), if_neg (UInt32.not_lt.mpr hx.1), if_neg hx.2]
  simp only
  generalize (if seq.previousId < x then x - seq.previousId
    else seq.wrapIndex - seq.previousId + x + 1) = delta at hdelta ⊢
  have hne : delta ≠ 0 := by
    rintro rfl
    exact absurd hdelta (by simp; omega)
  have hone : (1 : UInt32) ≤ delta := by
    rw [UInt32.le_iff_toNat_le, hdelta]
    exact hpos
  have hgap : (delta - 1).toNat = distance seq.wrapIndex seq.previousId x - 1 := by
    rw [UInt32.toNat_sub_of_le _ _ hone, hdelta]
    rfl
  have hcount := le_uint32Max seq.missingCount
  rw [gapCount_eq hne, ← hgap]
  refine ⟨trivial, ⟨h.initialized, h.wrap_pos, hx.1⟩, trivial, trivial, ?_⟩
  have hroom : delta - 1 ≤ uint32Max - seq.missingCount ↔
      seq.missingCount.toNat + (delta - 1).toNat ≤ uint32Max.toNat := by
    rw [UInt32.le_iff_toNat_le,
      UInt32.toNat_sub_of_le _ _ (UInt32.le_iff_toNat_le.mpr hcount)]
    omega
  by_cases hfit : delta - 1 ≤ uint32Max - seq.missingCount
  · have hle := hroom.mp hfit
    rw [if_pos hfit, Nat.min_eq_right hle, UInt32.toNat_add]
    rw [toNat_uint32Max] at hle
    exact Nat.mod_eq_of_lt (Nat.lt_succ_of_le hle)
  · have hlt := mt hroom.mpr hfit
    rw [if_neg hfit, Nat.min_eq_left (by omega)]

structure Counted (start wrapIndex : UInt32) (moved : List UInt32) (seq : ScSequenceType) :
    Prop where
  ready : seq.Ready
  wrap_index : seq.wrapIndex = wrapIndex
  previous : seq.previousId = moved.getLastD start
  missing : seq.missingCount.toNat = min uint32Max.toNat (gapSum wrapIndex start moved)

theorem gapSum_append_singleton (start : UInt32) (xs : List UInt32) :
    gapSum wrapIndex start (xs ++ [x]) =
      gapSum wrapIndex start xs + (distance wrapIndex (xs.getLastD start) x - 1) := by
  induction xs generalizing start with
  | nil => simp [gapSum]
  | cons y ys ih =>
    simp only [List.cons_append, gapSum, ih, List.getLastD_cons]
    omega

theorem Counted.checkAll {start : UInt32} {moved : List UInt32}
    (h : Counted start wrapIndex moved seq) (indices : List UInt32) :
    Counted start wrapIndex (moved ++ moving wrapIndex (moved.getLastD start) indices)
      (seq.checkAll indices) := by
  induction indices generalizing seq moved with
  | nil => simpa [moving, ScSequenceType.checkAll] using h
  | cons x xs ih =>
    change Counted start wrapIndex _ ((seq.checkSequence x).1.checkAll xs)
    have hwhere : Moves wrapIndex (moved.getLastD start) x ↔
        Moves seq.wrapIndex seq.previousId x := by rw [h.wrap_index, h.previous]
    rw [moving]
    split
    · rename_i hmoves
      obtain ⟨-, hready, hwrap, hprevious, hmissing⟩ :=
        checkSequence_moves h.ready (hwhere.mp hmoves)
      have hnext : Counted start wrapIndex (moved ++ [x]) (seq.checkSequence x).1 := by
        refine ⟨hready, hwrap.trans h.wrap_index, by simpa using hprevious, ?_⟩
        rw [hmissing, h.missing, gapSum_append_singleton, h.wrap_index, h.previous]
        omega
      simpa using ih hnext
    · rename_i hmoves
      refine ih ?_
      rcases (checkSequence_refused h.ready (mt hwhere.mpr hmoves)).2 with he | he
      · rw [he]
        exact h
      · rw [he]
        exact ⟨⟨h.ready.initialized, h.ready.wrap_pos, h.ready.previous_le⟩, h.wrap_index,
          h.previous, h.missing⟩

theorem moving_of_allMove {indices : List UInt32} (h : AllMove wrapIndex previous indices) :
    moving wrapIndex previous indices = indices := by
  induction indices generalizing previous with
  | nil => rfl
  | cons x xs ih => rw [moving, if_pos h.1, ih h.2]

/-- Whatever indices the checker is given, it counts the gaps between those that move it. -/
theorem scInit_checkAll (seq : ScSequenceType) {start wrapIndex : UInt32} (hwrap : wrapIndex ≠ 0)
    (hstart : start ≤ wrapIndex) (indices : List UInt32) :
    let s := (seq.scInit start wrapIndex).1.checkAll indices
    let moved := moving wrapIndex start indices
    (AllMove wrapIndex start indices → moved = indices) ∧
    s.getMissingCount = .ok s.missingCount ∧
    s.missingCount.toNat = min uint32Max.toNat (gapSum wrapIndex start moved) ∧
    s.previousId = moved.getLastD start ∧
    ∀ x,
      (Moves wrapIndex s.previousId x →
        (s.checkSequence x).2 = .ok ∧ s.NoOverflow x ∧
          1 ≤ distance wrapIndex s.previousId x ∧
          distance wrapIndex s.previousId x ≤ wrapIndex.toNat) ∧
      (¬ Moves wrapIndex s.previousId x →
        (s.checkSequence x).2 ≠ .ok ∧
          (s.checkSequence x).1.missingCount = s.missingCount ∧
          (s.checkSequence x).1.previousId = s.previousId) := by
  intro s moved
  have hinit : seq.scInit start wrapIndex = (init start wrapIndex, .ok) := by
    unfold scInit
    rw [if_neg]
    rintro (h0 | hlt)
    · exact hwrap h0
    · exact UInt32.not_lt.mpr hstart hlt
  have hcounted : Counted start wrapIndex moved s := by
    have hbase : Counted start wrapIndex [] (init start wrapIndex) :=
      ⟨⟨rfl, hwrap, hstart⟩, rfl, rfl, rfl⟩
    change Counted start wrapIndex moved ((seq.scInit start wrapIndex).1.checkAll indices)
    rw [hinit]
    exact hbase.checkAll indices
  refine ⟨moving_of_allMove, by rw [getMissingCount, if_pos hcounted.ready.initialized],
    hcounted.missing, hcounted.previous, ?_⟩
  intro x
  rw [← hcounted.wrap_index]
  constructor
  · intro hx
    exact ⟨(checkSequence_moves hcounted.ready hx).1, hcounted.ready.noOverflow x,
      distance_bounds hcounted.ready.previous_le hx⟩
  · intro hx
    obtain ⟨hres, he | he⟩ := checkSequence_refused hcounted.ready hx
    · exact ⟨hres, by rw [he], by rw [he]⟩
    · exact ⟨hres, by rw [he], by rw [he]⟩

/-- Modulo 4 from 1: two repeated or out of range, the others two, three and two apart. -/
theorem scInit_checkAll_modFour :
    (((init 0 0).scInit 1 3).1.checkAll [3, 2, 2, 9, 0]).missingCount.toNat = 4 := by
  have h := scInit_checkAll (init 0 0) (show (3 : UInt32) ≠ 0 by decide)
    (show (1 : UInt32) ≤ 3 by decide) [3, 2, 2, 9, 0]
  rw [h.2.2.1]
  decide

end ScSequenceType

end CanSniffer.Logging
