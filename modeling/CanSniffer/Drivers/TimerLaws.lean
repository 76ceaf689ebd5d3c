import CanSniffer.Drivers.Timer
import CanSniffer.Lib.Search

namespace CanSniffer.Drivers

open Lib

structure Pair (totalCounts maxArr psc arr : Nat) : Prop where
  product : (psc + 1) * (arr + 1) = totalCounts
  psc_le : psc ≤ 65535
  arr_pos : 1 ≤ arr
  arr_le : arr ≤ maxArr

def PairSound (timerClk : UInt32) (targetFreq : UInt64) (maxArr : UInt32) : Prop :=
  let total := totalCounts timerClk targetFreq
  let found := computePrescalerAndARR timerClk targetFreq maxArr
  (found ≠ none ↔ ∃ psc arr, Pair total maxArr.toNat psc arr) ∧
    ∀ psc arr, found = some (psc, arr) → Pair total maxArr.toNat psc arr ∧
      ∀ psc' arr', Pair total maxArr.toNat psc' arr' → arr' ≤ arr

/-- No factor of the counts is so large that only its low 32 bits look like a prescaler. -/
def NoneTruncated (totalCounts maxArr : Nat) : Prop :=
  ∀ arr, 1 ≤ arr → arr ≤ maxArr → totalCounts % (arr + 1) = 0 →
    UInt32.size < totalCounts / (arr + 1) →
      65536 ≤ (totalCounts / (arr + 1) - 1) % UInt32.size

def ClockMHz := { m : Nat // 0 < m ∧ m * 1000000 < UInt32.size }

/-- Whenever the timer is started on this clock, its counter ticks once a microsecond. -/
def TickSound (m : ClockMHz) : Prop :=
  ∀ c initialized started, (getTimerInputClock c timx).toNat = m.val * 1000000 →
    (timxInit c 1 initialized started).res = 0 →
      ∃ init, (timxInit c 1 initialized started).init = some init ∧
        m.val * 1000000 = (init.prescaler + 1) * 1000000

structure Hit (totalCounts arr : Nat) : Prop where
  divides : totalCounts % (arr + 1) = 0
  pos : 0 < totalCounts
  small : (totalCounts / (arr + 1) - 1) % UInt32.size ≤ 65535

section ArrLoop

variable {total maxArr arr psc : Nat}

theorem quotient_pos (h : total % (arr + 1) = 0) (hpos : 0 < total) : 0 < total / (arr + 1) :=
  Nat.div_pos (Nat.le_of_dvd hpos (Nat.dvd_of_mod_eq_zero h)) (Nat.succ_pos arr)

theorem arrLoop_cases (total maxArr : Nat) :
    (∃ arr, Greatest (Hit total) 1 maxArr arr ∧
      arrLoop total maxArr = some ((total / (arr + 1) - 1) % UInt32.size, arr)) ∨
    (∀ arr, 1 ≤ arr → arr ≤ maxArr → ¬ Hit total arr) ∧ arrLoop total maxArr = none := by
  have hcut : ∀ q, 0 < q →
      (q + UInt64.size - 1) % UInt64.size % UInt32.size = (q - 1) % UInt32.size := by
    intro q hpos
    simp only [UInt64.size, UInt32.size]
    omega
  refine countdown_cases (Nat.zero_lt_succ 0) (fun n hlt => ?_) (fun n hge hle hhit => ?_)
    fun n hge hle hmiss => ?_
  · rw [Nat.lt_one_iff.mp hlt]
    rfl
  · obtain ⟨n, rfl⟩ : ∃ k, n = k + 1 := ⟨n - 1, by omega⟩
    have hsmall := hhit.small
    have hquot := hcut _ (quotient_pos hhit.divides hhit.pos)
    rw [arrLoop, if_neg (fun hne => hne hhit.divides), hquot, if_neg (by omega)]
  · rw [arrLoop]
    split
    · rfl
    rename_i hdivides
    have hdivides := Decidable.not_not.mp hdivides
    refine if_pos (.inr ?_)
    rcases Nat.eq_zero_or_pos total with hzero | hpos
    · rw [hzero, Nat.zero_div]
      decide
    · rw [hcut _ (quotient_pos hdivides hpos)]
      refine Nat.lt_of_not_le fun hle => hmiss ⟨hdivides, hpos, by omega⟩

theorem Pair.quotient (h : Pair total maxArr psc arr) : total / (arr + 1) = psc + 1 := by
  rw [← h.product]
  exact Nat.mul_div_cancel _ (Nat.succ_pos arr)

theorem Pair.hit (h : Pair total maxArr psc arr) : Hit total arr := by
  have hle := h.psc_le
  refine ⟨?_, ?_, ?_⟩
  · rw [← h.product]
    exact Nat.mul_mod_left ..
  · rw [← h.product]
    exact Nat.mul_pos (Nat.succ_pos psc) (Nat.succ_pos arr)
  · rw [h.quotient, Nat.add_sub_cancel]
    exact Nat.le_trans (Nat.mod_le ..) hle

theorem Pair.arr_le_of_greatest (h : Pair total maxArr psc arr) {arr' : Nat}
    (harr : Greatest (Hit total) 1 maxArr arr') : arr ≤ arr' :=
  Nat.le_of_not_lt fun hlt => harr.most arr hlt h.arr_le h.hit

theorem Hit.pair (h : Hit total arr) (hpos : 1 ≤ arr) (hle : arr ≤ maxArr)
    (hquot : total / (arr + 1) ≤ UInt32.size) :
    Pair total maxArr ((total / (arr + 1) - 1) % UInt32.size) arr := by
  have hquot_pos := quotient_pos h.divides h.pos
  refine ⟨?_, h.small, hpos, hle⟩
  rw [Nat.mod_eq_of_lt (by omega), Nat.sub_add_cancel hquot_pos]
  exact Nat.div_mul_cancel (Nat.dvd_of_mod_eq_zero h.divides)

theorem quotient_le_iff (harr : Greatest (Hit total) 1 maxArr arr) :
    total / (arr + 1) ≤ UInt32.size ↔
      (∃ psc arr, Pair total maxArr psc arr) ∨ NoneTruncated total maxArr := by
  constructor
  · intro hquot
    exact .inl ⟨_, _, harr.holds.pair harr.ge harr.le hquot⟩
  · rintro (⟨psc', arr', h⟩ | htruncated)
    · have hle : total / (arr + 1) ≤ total / (arr' + 1) :=
        Nat.div_le_div_left (Nat.succ_le_succ (h.arr_le_of_greatest harr)) (Nat.succ_pos arr')
      have hquot := h.quotient
      have hpsc := h.psc_le
      simp only [UInt32.size]
      omega
    · refine Nat.le_of_not_lt fun hlt => ?_
      have hbig := htruncated arr harr.ge harr.le harr.holds.divides hlt
      have hsmall := harr.holds.small
      omega

theorem noneTruncated_of_miss (hnone : ∀ arr, 1 ≤ arr → arr ≤ maxArr → ¬ Hit total arr) :
    NoneTruncated total maxArr := by
  intro arr hpos hle hdivides hlt
  refine Nat.lt_of_not_le fun hsmall => hnone arr hpos hle ⟨hdivides, ?_, hsmall⟩
  refine Nat.pos_of_ne_zero fun hzero => absurd hlt ?_
  rw [hzero, Nat.zero_div]
  exact Nat.not_lt_zero _

end ArrLoop

theorem computePrescalerAndARR_eq (timerClk : UInt32) (targetFreq : UInt64) (maxArr : UInt32) :
    computePrescalerAndARR timerClk targetFreq maxArr =
      arrLoop (totalCounts timerClk targetFreq) maxArr.toNat := by
  by_cases hzero : targetFreq = 0
  · have htotal : totalCounts timerClk targetFreq = 0 := by
      rw [totalCounts, hzero]
      exact Nat.div_zero _
    rw [computePrescalerAndARR, if_pos hzero, htotal]
    rcases arrLoop_cases 0 maxArr.toNat with ⟨arr, harr, -⟩ | ⟨-, hloop⟩
    · exact absurd harr.holds.pos (Nat.lt_irrefl 0)
    · exact hloop.symm
  · exact if_neg hzero

theorem pairSound_iff (timerClk : UInt32) (targetFreq : UInt64) (maxArr : UInt32) :
    PairSound timerClk targetFreq maxArr ↔
      (∃ psc arr, Pair (totalCounts timerClk targetFreq) maxArr.toNat psc arr) ∨
        NoneTruncated (totalCounts timerClk targetFreq) maxArr.toNat := by
  rw [PairSound, computePrescalerAndARR_eq]
  generalize totalCounts timerClk targetFreq = total
  rcases arrLoop_cases total maxArr.toNat with ⟨arr, harr, hloop⟩ | ⟨hnone, hloop⟩
  · rw [hloop]
    constructor
    · rintro ⟨hexists, -⟩
      exact .inl (hexists.mp (Option.some_ne_none _))
    · intro hcond
      have hpair := harr.holds.pair harr.ge harr.le ((quotient_le_iff harr).mpr hcond)
      refine ⟨iff_of_true (Option.some_ne_none _) ⟨_, _, hpair⟩, ?_⟩
      rintro psc' arr' ⟨⟩
      exact ⟨hpair, fun psc' arr' h => h.arr_le_of_greatest harr⟩
  · rw [hloop]
    refine iff_of_true ⟨iff_of_false (fun hne => hne rfl) ?_, fun psc arr h => by cases h⟩
      (.inr (noneTruncated_of_miss hnone))
    rintro ⟨psc, arr, h⟩
    exact hnone arr h.arr_pos h.arr_le h.hit

theorem freqLoop_one : freqLoop 1 65535 = some 15625 := by decide +kernel

section Tick

variable {m : ClockMHz} {c : ClockConfig}

theorem totalCounts_of_clock (h : (getTimerInputClock c timx).toNat = m.val * 1000000) :
    totalCounts (getTimerInputClock c timx) 15625 = 64000 * m.val := by
  rw [totalCounts, h, show UInt64.toNat 15625 = 15625 from rfl]
  omega

theorem arrLoop_clock (m : ClockMHz) :
    ∃ arr, Greatest (Hit (64000 * m.val)) 1 65535 arr ∧ 63999 ≤ arr ∧
      arrLoop (64000 * m.val) 65535 = some (64000 * m.val / (arr + 1) - 1, arr) := by
  obtain ⟨hpos, hlt⟩ := m.property
  simp only [UInt32.size] at hlt
  have hhit : Hit (64000 * m.val) 63999 := by
    have hquot : 64000 * m.val / (63999 + 1) = m.val := Nat.mul_div_cancel_left _ (by decide)
    refine ⟨Nat.mul_mod_right .., by omega, ?_⟩
    rw [hquot]
    exact Nat.le_trans (Nat.mod_le ..) (by omega)
  rcases arrLoop_cases (64000 * m.val) 65535 with ⟨arr, harr, hloop⟩ | ⟨hnone, -⟩
  · have hle : 63999 ≤ arr := Nat.le_of_not_lt fun h => harr.most 63999 h (by decide) hhit
    refine ⟨arr, harr, hle, ?_⟩
    have hquot : 64000 * m.val / (arr + 1) ≤ 64000 * m.val := Nat.div_le_self ..
    rw [hloop, Nat.mod_eq_of_lt]
    simp only [UInt32.size]
    omega
  · exact absurd hhit (hnone 63999 (by decide) (by decide))

theorem timxInitFrom_eq {inputClock resolution : UInt32} {freq maxArr prescaler arr : Nat}
    {initialized started : Bool} (hfreq : freqLoop resolution.toNat maxArr = some freq)
    (hpair : computePrescalerAndARR inputClock (UInt64.ofNat freq) (UInt32.ofNat maxArr) =
      some (prescaler, arr)) :
    (timxInitFrom inputClock maxArr resolution initialized started).init =
        some { prescaler, period := arr } ∧
      (timxInitFrom inputClock maxArr resolution true true).res = 0 := by
  constructor <;> simp [timxInitFrom, hfreq, hpair, timxProgram]

theorem timxInit_of_clock (h : (getTimerInputClock c timx).toNat = m.val * 1000000)
    (initialized started : Bool) :
    ∃ arr, Greatest (Hit (64000 * m.val)) 1 65535 arr ∧ 63999 ≤ arr ∧
      (timxInit c 1 initialized started).init =
        some { prescaler := 64000 * m.val / (arr + 1) - 1, period := arr } ∧
      (timxInit c 1 true true).res = 0 := by
  obtain ⟨arr, harr, hle, hloop⟩ := arrLoop_clock m
  have hfreq : freqLoop (UInt32.toNat 1) 65535 = some 15625 := freqLoop_one
  have hfound : computePrescalerAndARR (getTimerInputClock c timx) (UInt64.ofNat 15625)
      (UInt32.ofNat 65535) = some (64000 * m.val / (arr + 1) - 1, arr) := by
    have hmax : (UInt32.ofNat 65535).toNat = 65535 := rfl
    have hfreq' : UInt64.ofNat 15625 = 15625 := rfl
    rw [computePrescalerAndARR, hmax, hfreq', if_neg (by decide), totalCounts_of_clock h, hloop]
  have hmax : getTimerMaxARR timx = 65535 := rfl
  obtain ⟨hinit, hres⟩ := timxInitFrom_eq hfreq hfound
  rw [timxInit, timxInit, hmax]
  exact ⟨arr, harr, hle, hinit, hres⟩

theorem tickSound_iff (m : ClockMHz) :
    TickSound m ↔ ∀ d, 64000 < d → d ≤ 65536 → 64000 * m.val % d ≠ 0 := by
  obtain ⟨hpos, hlt⟩ := m.property
  simp only [UInt32.size] at hlt
  constructor
  · intro hsound d hgt hle hdivides
    let c : ClockConfig := ⟨UInt32.ofNat (m.val * 1000000), false, 0, false⟩
    have hclock : (getTimerInputClock c timx).toNat = m.val * 1000000 :=
      UInt32.toNat_ofNat_of_lt' hlt
    obtain ⟨arr, harr, -, hinit, hres⟩ := timxInit_of_clock hclock true true
    obtain ⟨init, hinit', htick⟩ := hsound c true true hclock hres
    rw [hinit] at hinit'
    cases hinit'
    have hmul := Nat.div_mul_cancel (Nat.dvd_of_mod_eq_zero harr.holds.divides)
    have hquot_pos := quotient_pos harr.holds.divides harr.holds.pos
    have htick : m.val * 1000000 = (64000 * m.val / (arr + 1) - 1 + 1) * 1000000 := htick
    have hquot : 64000 * m.val / (arr + 1) = m.val := by omega
    have harr' : arr = 63999 := by
      rw [hquot, Nat.mul_comm] at hmul
      have := Nat.eq_of_mul_eq_mul_right hpos hmul
      omega
    -- the larger divisor would have been found first
    have hd : d - 1 + 1 = d := by omega
    refine harr.most (d - 1) (by omega) (by omega) ⟨?_, harr.holds.pos, ?_⟩
    · rw [hd]
      exact hdivides
    · have hle' : 64000 * m.val / (d - 1 + 1) ≤ 64000 * m.val / 64000 :=
        Nat.div_le_div_left (by omega) (by decide)
      rw [Nat.mul_div_cancel_left _ (by decide)] at hle'
      exact Nat.le_trans (Nat.mod_le ..) (by omega)
  · intro hnone c initialized started hclock hres
    obtain ⟨arr, harr, hge, hinit, -⟩ := timxInit_of_clock hclock initialized started
    have harr' : arr = 63999 := by
      refine Nat.le_antisymm (Nat.le_of_not_lt fun hlt => ?_) hge
      exact hnone (arr + 1) (by omega) (by have := harr.le; omega) harr.holds.divides
    refine ⟨_, hinit, ?_⟩
    rw [harr', Nat.mul_div_cancel_left _ (by decide), Nat.sub_add_cancel hpos]

end Tick

/-- When the counter of `TIMx` ticks once a microsecond, and when the search finds the pair with the
largest auto-reload exactly if there is a pair. -/
theorem timer_sound_iff (m : ClockMHz) (timerClk : UInt32) (targetFreq : UInt64) (maxArr : UInt32) :
    (TickSound m ↔ ∀ d, 64000 < d → d ≤ 65536 → 64000 * m.val % d ≠ 0) ∧
    (PairSound timerClk targetFreq maxArr ↔
      (∃ psc arr, Pair (totalCounts timerClk targetFreq) maxArr.toNat psc arr) ∨
        NoneTruncated (totalCounts timerClk targetFreq) maxArr.toNat) :=
  ⟨tickSound_iff m, pairSound_iff timerClk targetFreq maxArr⟩

/-- At 128 MHz the search prefers 65536 counts of 125 clocks to 64000 of 128, and the timer runs too
fast. -/
theorem timer_unsound :
    ¬ ((∀ m : ClockMHz, TickSound m) ∧
      ∀ timerClk targetFreq maxArr, PairSound timerClk targetFreq maxArr) := by
  rintro ⟨hsound, -⟩
  exact (tickSound_iff ⟨128, by decide⟩).mp (hsound _) 65536 (by decide) (by decide) (by decide)

end CanSniffer.Drivers
