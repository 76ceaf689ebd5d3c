import CanSniffer.Drivers.Flash
import CanSniffer.Lib.Sequential

namespace CanSniffer.Drivers

open Lib

namespace FlashDevice

def sector (d : FlashDevice) : Nat := d.sectorSize.toNat

def word (d : FlashDevice) : Nat := d.flashwordSize.toNat

structure Holds (d : FlashDevice) (unit addr len : Nat) : Prop where
  pos : 0 < len
  base_le : d.base.toNat ≤ addr
  end_le : addr + len ≤ d.last.toNat + 1
  addr_aligned : unit ∣ addr
  len_aligned : unit ∣ len

instance (d : FlashDevice) (unit addr len : Nat) : Decidable (d.Holds unit addr len) :=
  decidable_of_iff (0 < len ∧ d.base.toNat ≤ addr ∧ addr + len ≤ d.last.toNat + 1 ∧ unit ∣ addr ∧
    unit ∣ len) ⟨fun ⟨a, b, c, e, f⟩ => ⟨a, b, c, e, f⟩, fun ⟨a, b, c, e, f⟩ => ⟨a, b, c, e, f⟩⟩

def ErasesSector (d : FlashDevice) (addr : Nat) (call : HalCall) : Prop :=
  ∃ bank index, call = .erase bank index ∧
    (bank = .bank1 ↔ addr < d.bank2Base.toNat) ∧
    (match bank with | .bank1 => d.bank1Base | .bank2 => d.bank2Base).toNat +
      index.toNat * d.sector = addr

/-- The calls for a range, in order and one for each unit. -/
structure Covers (unit len : Nat) (call : Nat → HalCall → Prop) (todo : List HalCall) : Prop where
  length : todo.length * unit = len
  each : ∀ i c, todo[i]? = some c → call (i * unit) c

end FlashDevice

namespace FlashState

variable {d : FlashDevice} {hal : FlashHal d} {s t : FlashState} {addr len src : UInt32}
  {status : FlashStatus}

theorem toNat_flashwordSize (d : FlashDevice) :
    d.flashwordSize.toNat = d.wordsInFlashword.toNat * 4 := by
  have h := d.word_small
  have hfour : (4 : UInt32).toNat = 4 := rfl
  simp only [UInt32.size] at h
  rw [FlashDevice.flashwordSize, UInt32.toNat_mul, hfour, Nat.mod_eq_of_lt (by omega)]

theorem progSizeMin_eq (d : FlashDevice) : (FlashInfo.init d).progSizeMin = d.flashwordSize := by
  have h := d.word_small
  have h32 : (32 : UInt32).toNat = 32 := rfl
  have h8 : (8 : UInt32).toNat = 8 := rfl
  simp only [UInt32.size] at h
  rw [← UInt32.toNat_inj, toNat_flashwordSize]
  simp only [FlashInfo.init, UInt32.toNat_div, UInt32.toNat_mul, h32, h8]
  omega

theorem word_pos (d : FlashDevice) : 0 < d.word := by
  have h := d.word_pos
  rw [FlashDevice.word, toNat_flashwordSize]
  omega

def Inside (d : FlashDevice) (addr len : UInt32) : Prop :=
  0 < len.toNat ∧ d.base.toNat ≤ addr.toNat ∧ addr.toNat + len.toNat ≤ d.last.toNat + 1

theorem inside_iff (d : FlashDevice) (addr len : UInt32) :
    Inside d addr len ↔ 0 ≠ len ∧
      ¬ (addr < (FlashInfo.init d).baseAddr ∨ (FlashInfo.init d).totalSize < len) ∧
      ¬ (0xFFFFFFFF - len < addr ∨ (FlashInfo.init d).endAddr < addr + len) := by
  have hlast := d.last_lt
  have hbank := d.bank2_ge
  have hbank' := d.bank2_le
  have haddr := addr.toNat_lt
  have hlen := len.toNat_lt
  have hone : (1 : UInt32).toNat = 1 := rfl
  have hmax : (0xFFFFFFFF : UInt32).toNat = 4294967295 := rfl
  have hle : len ≤ (0xFFFFFFFF : UInt32) := by
    rw [UInt32.le_iff_toNat_le, hmax]
    omega
  have hbase : d.base ≤ d.last := by
    rw [UInt32.le_iff_toNat_le]
    omega
  have hzero : 0 ≠ len ↔ 0 < len.toNat := by
    rw [ne_comm, ne_eq, ← UInt32.toNat_inj]
    exact Nat.pos_iff_ne_zero.symm
  simp only [UInt32.size] at hlast
  simp only [Inside, FlashInfo.init, hzero, UInt32.lt_iff_toNat_lt, UInt32.toNat_add,
    UInt32.toNat_sub_of_le _ _ hle, UInt32.toNat_sub_of_le _ _ hbase, hone, hmax]
  omega

theorem dvd_iff_mod_eq_zero {a b : UInt32} : b.toNat ∣ a.toNat ↔ a % b = 0 := by
  rw [Nat.dvd_iff_mod_eq_zero, ← UInt32.toNat_inj, UInt32.toNat_mod]
  rfl

theorem inside_of_addressCheck {type : FlashAccess}
    (h : addressCheck (.init d) addr len type = .ok) : Inside d addr len := by
  rw [inside_iff]
  unfold addressCheck at h
  split at h
  · cases h
  · split at h
    · cases h
    · split at h
      · cases h
      · rename_i h0 h1 h2
        exact ⟨h0, h1, h2⟩

theorem addressCheck_of_inside (h : Inside d addr len) :
    (addressCheck (.init d) addr len .write =
      if addr % d.flashwordSize ≠ 0 ∨ d.flashwordSize = 0 then .param
      else if addr % d.flashwordSize ≠ 0 ∨ len % d.flashwordSize ≠ 0 then .align else .ok) ∧
    (addressCheck (.init d) addr len .erase =
      if addr % d.sectorSize ≠ 0 ∨ len < d.sectorSize ∨ len % d.sectorSize ≠ 0 then .align
      else .ok) := by
  obtain ⟨h0, h1, h2⟩ := (inside_iff d addr len).mp h
  unfold addressCheck
  rw [if_neg h0, if_neg h1, if_neg h2, if_neg h0, if_neg h1, if_neg h2, progSizeMin_eq]
  exact ⟨rfl, rfl⟩

theorem addressCheck_write_iff (d : FlashDevice) (addr len : UInt32) :
    addressCheck (.init d) addr len .write = .ok ↔ d.Holds d.word addr.toNat len.toNat := by
  have hpos : d.flashwordSize ≠ 0 := by
    intro hz
    have h := word_pos d
    rw [FlashDevice.word, hz] at h
    exact absurd h (by decide)
  constructor
  · intro h
    have hin := inside_of_addressCheck h
    rw [(addressCheck_of_inside hin).1] at h
    refine ⟨hin.1, hin.2.1, hin.2.2, dvd_iff_mod_eq_zero.mpr ?_, dvd_iff_mod_eq_zero.mpr ?_⟩
    · grind
    · grind
  · intro h
    have haddr := dvd_iff_mod_eq_zero.mp h.addr_aligned
    have hlen := dvd_iff_mod_eq_zero.mp h.len_aligned
    rw [(addressCheck_of_inside ⟨h.pos, h.base_le, h.end_le⟩).1]
    simp [haddr, hlen, hpos]

theorem addressCheck_erase_iff (d : FlashDevice) (addr len : UInt32) :
    addressCheck (.init d) addr len .erase = .ok ↔ d.Holds d.sector addr.toNat len.toNat := by
  constructor
  · intro h
    have hin := inside_of_addressCheck h
    rw [(addressCheck_of_inside hin).2] at h
    refine ⟨hin.1, hin.2.1, hin.2.2, dvd_iff_mod_eq_zero.mpr ?_, dvd_iff_mod_eq_zero.mpr ?_⟩
    · grind
    · grind
  · intro h
    have haddr := dvd_iff_mod_eq_zero.mp h.addr_aligned
    have hlen := dvd_iff_mod_eq_zero.mp h.len_aligned
    have hmin : ¬ len < d.sectorSize :=
      UInt32.not_lt.mpr (UInt32.le_iff_toNat_le.mpr (Nat.le_of_dvd h.pos h.len_aligned))
    rw [(addressCheck_of_inside ⟨h.pos, h.base_le, h.end_le⟩).2]
    simp [haddr, hlen, hmin]

theorem addressCheck_zero (addr len : UInt32) (type : FlashAccess) :
    addressCheck .zero addr len type ≠ .ok := by
  unfold addressCheck
  split
  · simp
  · rename_i hne
    have hpos : (0 : UInt32) < len := UInt32.pos_iff_ne_zero.mpr (Ne.symm hne)
    rw [if_pos (.inr hpos)]
    simp

theorem halCall_calls (s : FlashState) (call : HalCall) :
    (s.halCall hal call).1.calls = s.calls ++ [(call, (s.halCall hal call).2)] := rfl

theorem info_of_initialized (h : s.initialized = true) : s.info d = .init d := by
  rw [info, if_pos h]

theorem eraseInit_spec (h : d.Holds d.sector addr.toNat d.sector) :
    ∃ call, eraseInit d d.sectorSize addr = some call ∧ d.ErasesSector addr.toNat call := by
  have hbank := d.bank1_eq
  have hlow := d.bank2_ge
  have hbase := h.base_le
  have hend := h.end_le
  have hpos := d.sector_pos
  have hindex (b : UInt32) (hle : b.toNat ≤ addr.toNat) (hb : d.sector ∣ b.toNat) :
      b.toNat + ((addr - b) / d.sectorSize).toNat * d.sector = addr.toNat := by
    rw [UInt32.toNat_div, UInt32.toNat_sub_of_le _ _ (UInt32.le_iff_toNat_le.mpr hle)]
    change b.toNat + (addr.toNat - b.toNat) / d.sector * d.sector = addr.toNat
    rw [Nat.div_mul_cancel (Nat.dvd_sub h.addr_aligned hb)]
    omega
  unfold eraseInit
  by_cases hfirst : addr < d.bank2Base
  · have hlt := UInt32.lt_iff_toNat_lt.mp hfirst
    rw [if_pos ⟨UInt32.le_iff_toNat_le.mpr (by rw [hbank]; exact hbase), hfirst⟩]
    refine ⟨_, rfl, .bank1, _, rfl, iff_of_true rfl hlt, hindex _ ?_ ?_⟩
    · rw [hbank]
      exact hbase
    · rw [hbank]
      exact d.base_aligned
  · have hge := UInt32.le_iff_toNat_le.mp (UInt32.not_lt.mp hfirst)
    have hlast : addr ≤ d.last := by
      rw [UInt32.le_iff_toNat_le]
      change 0 < d.sector at hpos
      omega
    rw [if_neg fun hin => hfirst hin.2, if_pos ⟨UInt32.not_lt.mp hfirst, hlast⟩]
    exact ⟨_, rfl, .bank2, _, rfl, iff_of_false (by simp) (Nat.not_lt.mpr hge),
      hindex _ hge d.bank2_aligned⟩

theorem eraseSector_eq (hs : s.initialized = true) (h : d.Holds d.sector addr.toNat d.sector)
    {call : HalCall} (hcall : eraseInit d d.sectorSize addr = some call) :
    s.eraseSector hal addr =
      ((s.halCall hal call).1, if (s.halCall hal call).2 then .ok else .hw) := by
  obtain ⟨-, -, hrange⟩ := (inside_iff d addr d.sectorSize).mp ⟨h.pos, h.base_le, h.end_le⟩
  have hcheck : addressCheck (.init d) addr (FlashInfo.init d).sectorSize .erase = .ok :=
    (addressCheck_erase_iff d addr d.sectorSize).mpr h
  have hinit : eraseInit d (FlashInfo.init d).sectorSize addr = some call := hcall
  unfold eraseSector
  simp only [info_of_initialized hs, hcheck, hinit]
  exact if_neg hrange

def sectorCalls (d : FlashDevice) (addr : UInt32) : Nat → List HalCall
  | 0 => []
  | k + 1 => (eraseInit d d.sectorSize addr).toList ++ sectorCalls d (addr + d.sectorSize) k

theorem sectorCalls_spec {k : Nat} (hbase : d.base.toNat ≤ addr.toNat)
    (hend : addr.toNat + k * d.sector ≤ d.last.toNat + 1) (haligned : d.sector ∣ addr.toNat) :
    (sectorCalls d addr k).length = k ∧ ∀ i c, (sectorCalls d addr k)[i]? = some c →
      d.ErasesSector (addr.toNat + i * d.sector) c := by
  have hlast := d.last_lt
  have hpos : 0 < d.sector := d.sector_pos
  simp only [UInt32.size] at hlast
  induction k generalizing addr with
  | zero => exact ⟨rfl, by simp [sectorCalls]⟩
  | succ k ih =>
    rw [Nat.succ_mul] at hend
    have hnext : (addr + d.sectorSize).toNat = addr.toNat + d.sector := by
      rw [UInt32.toNat_add]
      exact Nat.mod_eq_of_lt (by change addr.toNat + d.sector < 4294967296; omega)
    obtain ⟨call, hcall, herases⟩ :=
      eraseInit_spec ⟨hpos, hbase, by omega, haligned, Nat.dvd_refl _⟩
    obtain ⟨hlen, heach⟩ := @ih (addr + d.sectorSize) (by omega) (by omega)
      (by rw [hnext]; exact Nat.dvd_add haligned (Nat.dvd_refl _))
    rw [sectorCalls, hcall]
    refine ⟨by simp [hlen], ?_⟩
    intro i c hc
    cases i with
    | zero =>
      obtain rfl : call = c := by simpa using hc
      simpa using herases
    | succ i =>
      have hrest := heach i c (by simpa using hc)
      rw [hnext] at hrest
      rwa [Nat.succ_mul, Nat.add_comm (i * d.sector), ← Nat.add_assoc]

theorem eraseLoop_spec (h : d.Holds d.sector addr.toNat len.toNat) (hs : s.initialized = true)
    (off : UInt32) (k fuel : Nat) (hk : off.toNat + k * d.sector = len.toNat)
    (hoff : d.sector ∣ off.toNat) (hfuel : k < fuel) :
    ∃ t ok, eraseLoop hal addr len d.sectorSize fuel off s = some (t, if ok then .ok else .hw) ∧
      UntilFailure (halCall hal) s (sectorCalls d (addr + off) k) t ok := by
  have hlast := d.last_lt
  have hend := h.end_le
  have hbase := h.base_le
  have hpos : 0 < d.sector := d.sector_pos
  simp only [UInt32.size] at hlast
  induction k generalizing s off fuel with
  | zero =>
    obtain ⟨fuel, rfl⟩ := Nat.exists_eq_succ_of_ne_zero (Nat.ne_of_gt hfuel)
    have hdone : ¬ off < len := by
      rw [UInt32.lt_iff_toNat_lt]
      omega
    rw [eraseLoop, if_neg hdone]
    exact ⟨s, true, rfl, .nil⟩
  | succ k ih =>
    obtain ⟨fuel, rfl⟩ := Nat.exists_eq_succ_of_ne_zero (Nat.ne_of_gt (Nat.zero_lt_of_lt hfuel))
    rw [Nat.succ_mul] at hk
    have hlt : off < len := by
      rw [UInt32.lt_iff_toNat_lt]
      omega
    have hsum : (addr + off).toNat = addr.toNat + off.toNat := by
      rw [UInt32.toNat_add]
      exact Nat.mod_eq_of_lt (by omega)
    have hnext : (off + d.sectorSize).toNat = off.toNat + d.sector := by
      rw [UInt32.toNat_add]
      exact Nat.mod_eq_of_lt (by change off.toNat + d.sector < 4294967296; omega)
    have hsector : d.Holds d.sector (addr + off).toNat d.sector := by
      rw [hsum]
      exact ⟨hpos, by omega, by omega, Nat.dvd_add h.addr_aligned hoff, Nat.dvd_refl _⟩
    obtain ⟨call, hcall, -⟩ := eraseInit_spec hsector
    rw [eraseLoop, if_pos hlt, eraseSector_eq hs hsector hcall, sectorCalls, hcall]
    cases hok : (s.halCall hal call).2 with
    | false => exact ⟨_, false, rfl, .fail hok⟩
    | true =>
      obtain ⟨t, ok, hloop, hrun⟩ := ih (s := (s.halCall hal call).1) hs (off + d.sectorSize) fuel
        (by omega) (by rw [hnext]; exact Nat.dvd_add hoff (Nat.dvd_refl _)) (by omega)
      rw [← UInt32.add_assoc] at hrun
      exact ⟨t, ok, hloop, .next hok hrun⟩

def programCalls (d : FlashDevice) (addr src : UInt32) : Nat → List HalCall
  | 0 => []
  | k + 1 => .program addr src :: programCalls d (addr + d.flashwordSize) (src + d.flashwordSize) k

@[simp] theorem length_programCalls (d : FlashDevice) (addr src : UInt32) (k : Nat) :
    (programCalls d addr src k).length = k := by
  induction k generalizing addr src with
  | zero => rfl
  | succ k ih => rw [programCalls, List.length_cons, ih]

theorem programCalls_spec {k i : Nat} {c : HalCall} (h : (programCalls d addr src k)[i]? = some c) :
    c = .program (addr + UInt32.ofNat (i * d.word)) (src + UInt32.ofNat (i * d.word)) := by
  induction k generalizing addr src i with
  | zero => simp [programCalls] at h
  | succ k ih =>
    cases i with
    | zero =>
      obtain rfl : HalCall.program addr src = c := by simpa [programCalls] using h
      simp
    | succ i =>
      have hword : UInt32.ofNat ((i + 1) * d.word) =
          d.flashwordSize + UInt32.ofNat (i * d.word) := by
        rw [Nat.succ_mul, UInt32.ofNat_add, FlashDevice.word, UInt32.ofNat_toNat, UInt32.add_comm]
      rw [ih (by simpa [programCalls] using h), hword, UInt32.add_assoc, UInt32.add_assoc]

theorem writeLoop_spec (src : UInt32) (hend : addr.toNat + len.toNat ≤ d.last.toNat + 1) (ok : Bool)
    (off : UInt32) (k fuel : Nat) (hk : off.toNat + k * d.word = len.toNat) (hfuel : k < fuel)
    (hexit : k = 0 → ok = true) :
    ∃ t done, writeLoop hal addr len src fuel off ok s = some (t, done) ∧
      UntilFailure (halCall hal) s (programCalls d (addr + off) (src + off) k) t done := by
  have hlast := d.last_lt
  have hpos := word_pos d
  simp only [UInt32.size] at hlast
  induction k generalizing s off ok fuel with
  | zero =>
    obtain ⟨fuel, rfl⟩ := Nat.exists_eq_succ_of_ne_zero (Nat.ne_of_gt hfuel)
    have hdone : ¬ off < len := by
      rw [UInt32.lt_iff_toNat_lt]
      omega
    rw [writeLoop, if_neg hdone, hexit rfl]
    exact ⟨s, true, rfl, .nil⟩
  | succ k ih =>
    obtain ⟨fuel, rfl⟩ := Nat.exists_eq_succ_of_ne_zero (Nat.ne_of_gt (Nat.zero_lt_of_lt hfuel))
    rw [Nat.succ_mul] at hk
    have hlt : off < len := by
      rw [UInt32.lt_iff_toNat_lt]
      omega
    have hnext : (off + d.flashwordSize).toNat = off.toNat + d.word := by
      rw [UInt32.toNat_add]
      exact Nat.mod_eq_of_lt (by change off.toNat + d.word < 4294967296; omega)
    rw [writeLoop, if_pos hlt, programCalls]
    obtain ⟨u, answer, hcall⟩ :
        ∃ u answer, s.halCall hal (.program (addr + off) (src + off)) = (u, answer) := ⟨_, _, rfl⟩
    have hu : u = (s.halCall hal (.program (addr + off) (src + off))).1 := by rw [hcall]
    have hanswer : (s.halCall hal (.program (addr + off) (src + off))).2 = answer := by rw [hcall]
    rw [hcall]
    cases answer with
    | false =>
      refine ⟨u, false, rfl, ?_⟩
      rw [hu]
      exact .fail hanswer
    | true =>
      obtain ⟨t, done, hloop, hrun⟩ := ih (s := u) true (off + d.flashwordSize) fuel (by omega)
        (by omega) fun _ => rfl
      rw [← UInt32.add_assoc, ← UInt32.add_assoc] at hrun
      rw [hu] at hrun
      exact ⟨t, done, hloop, .next hanswer hrun⟩

/-- The calls of the list are made until one fails, which decides the result. -/
def Runs (hal : FlashHal d) (s : FlashState) (todo : List HalCall) (t : FlashState)
    (status : FlashStatus) : Prop :=
  ∃ ok, UntilFailure (halCall hal) s todo t ok ∧ status = if ok then .ok else .hw

/-- The calls the state has more, for a list of calls to make, and the result. -/
def Carries (s : FlashState) (todo : List HalCall) (t : FlashState) (status : FlashStatus) : Prop :=
  ∃ done ok, t.calls = s.calls ++ done ∧ Outcome todo done ok ∧ status = if ok then .ok else .hw

theorem Runs.carries {todo : List HalCall} {status : FlashStatus} (h : Runs hal s todo t status) :
    Carries s todo t status := by
  obtain ⟨ok, hrun, hstatus⟩ := h
  obtain ⟨done, hdone, houtcome⟩ := hrun.log halCall_calls
  exact ⟨done, ok, hdone, houtcome, hstatus⟩

structure Within (d : FlashDevice) (lo hi : Nat) (s t : FlashState) : Prop where
  keeps : s.initialized = true → t.initialized = true
  mem : ∀ a, ¬ (lo ≤ a ∧ a < hi) → t.mem a = s.mem a
  calls : ∃ done, t.calls = s.calls ++ done ∧
    ∀ c ∈ done, ∀ a, c.1.Touches d a → lo ≤ a ∧ a < hi

theorem Within.refl (d : FlashDevice) (lo hi : Nat) (s : FlashState) : Within d lo hi s s :=
  ⟨id, fun _ _ => rfl, [], by simp, by simp⟩

theorem Within.flashInit (d : FlashDevice) (lo hi : Nat) (s : FlashState) :
    Within d lo hi s s.flashInit :=
  ⟨fun _ => rfl, fun _ _ => rfl, [], by simp [FlashState.flashInit], by simp⟩

theorem Within.trans {lo hi : Nat} {u : FlashState} (h : Within d lo hi s t)
    (h' : Within d lo hi t u) : Within d lo hi s u := by
  obtain ⟨done, hdone, htouch⟩ := h.calls
  obtain ⟨more, hmore, htouch'⟩ := h'.calls
  refine ⟨fun hs => h'.keeps (h.keeps hs), fun a ha => (h'.mem a ha).trans (h.mem a ha),
    done ++ more, by simp [hmore, hdone], ?_⟩
  intro c hc
  rcases List.mem_append.mp hc with hc | hc
  · exact htouch c hc
  · exact htouch' c hc

theorem Within.mono {lo hi lo' hi' : Nat} (h : Within d lo hi s t) (hlo : lo' ≤ lo)
    (hhi : hi ≤ hi') : Within d lo' hi' s t := by
  obtain ⟨done, hdone, htouch⟩ := h.calls
  refine ⟨h.keeps, fun a ha => h.mem a fun hin => ha ⟨by omega, by omega⟩, done, hdone, ?_⟩
  intro c hc a ha
  have := htouch c hc a ha
  omega

theorem Runs.within {todo : List HalCall} {status : FlashStatus} {lo hi : Nat}
    (h : Runs hal s todo t status)
    (htodo : ∀ c ∈ todo, ∀ a, c.Touches d a → lo ≤ a ∧ a < hi) : Within d lo hi s t := by
  obtain ⟨ok, hrun, -⟩ := h
  refine hrun.invariant (P := fun u => Within d lo hi s u) ?_ (.refl d lo hi s)
  intro u c hc hu
  refine hu.trans ⟨id, ?_, [(c, _)], halCall_calls u c, ?_⟩
  · intro a ha
    exact hal.frame _ _ _ _ fun htouch => ha (htodo c hc a htouch)
  · intro c' hc' a ha
    rw [List.mem_singleton.mp hc'] at ha
    exact htodo c hc a ha

theorem ensureInit_eq (d : FlashDevice) (s : FlashState) : s.ensureInit d = s.flashInit := by
  have hlast := d.last_lt
  have hbank := d.bank2_ge
  have hbank' := d.bank2_le
  have hone : (1 : UInt32).toNat = 1 := rfl
  have hbase : d.base ≤ d.last := by
    rw [UInt32.le_iff_toNat_le]
    omega
  simp only [UInt32.size] at hlast
  cases hs : s.initialized with
  | true =>
    have hne : (FlashInfo.init d).totalSize ≠ 0 := by
      intro hz
      have htotal := congrArg UInt32.toNat hz
      simp only [FlashInfo.init, UInt32.toNat_add, UInt32.toNat_sub_of_le _ _ hbase, hone] at htotal
      change _ = 0 at htotal
      omega
    rw [ensureInit, info_of_initialized hs, if_neg hne, flashInit, ← hs]
  | false =>
    have hzero : (s.info d).totalSize = 0 := by
      rw [info, if_neg (by simp [hs])]
      rfl
    rw [ensureInit, if_pos hzero]

theorem exists_count {unit len : Nat} (h : unit ∣ len) : ∃ k, 0 + k * unit = len := by
  obtain ⟨k, rfl⟩ := h
  exact ⟨k, by rw [Nat.zero_add, Nat.mul_comm]⟩

theorem flashErase_spec (hal : FlashHal d) (s : FlashState) (addr len : UInt32) :
    ∃ t status, s.flashErase hal addr len = some (t, status) ∧
      if d.Holds d.sector addr.toNat len.toNat then
        ∃ todo, FlashDevice.Covers d.sector len.toNat
            (fun off c => d.ErasesSector (addr.toNat + off) c) todo ∧
          Runs hal s.flashInit todo t status
      else t = s.flashInit ∧ status ≠ .ok := by
  have hinfo : s.flashInit.info d = .init d := info_of_initialized rfl
  unfold flashErase
  simp only [ensureInit_eq, hinfo]
  split
  · rename_i hcheck
    have h := (addressCheck_erase_iff d addr len).mp hcheck
    obtain ⟨k, hk⟩ := exists_count h.len_aligned
    have hle : k * 1 ≤ k * d.sector := Nat.mul_le_mul_left k d.sector_pos
    obtain ⟨t, ok, hloop, hrun⟩ := eraseLoop_spec (s := s.flashInit) h rfl 0 k (len.toNat + 1) hk
      (Nat.dvd_zero _) (by omega)
    rw [UInt32.add_zero] at hrun
    obtain ⟨hlength, heach⟩ := sectorCalls_spec h.base_le
      (by have := h.end_le; rw [Nat.zero_add] at hk; rwa [hk]) h.addr_aligned
    refine ⟨t, _, hloop, ?_⟩
    rw [if_pos h]
    refine ⟨sectorCalls d addr k, ⟨?_, heach⟩, ok, hrun, rfl⟩
    rw [hlength, ← hk, Nat.zero_add]
  · rename_i hcheck
    refine ⟨_, _, rfl, ?_⟩
    rw [if_neg (mt (addressCheck_erase_iff d addr len).mpr hcheck)]
    exact ⟨rfl, hcheck⟩

theorem flashWrite_spec (hal : FlashHal d) (s : FlashState) (addr src len : UInt32) :
    ∃ t status, s.flashWrite hal addr src len = some (t, status) ∧
      if s.initialized = true ∧ d.Holds d.word addr.toNat len.toNat ∧ src ≠ 0 ∧ 4 ∣ src.toNat then
        ∃ todo, FlashDevice.Covers d.word len.toNat
            (fun off c => c = .program (addr + UInt32.ofNat off) (src + UInt32.ofNat off)) todo ∧
          Runs hal s todo t status
      else t = s ∧ status ≠ .ok := by
  unfold flashWrite
  cases hs : s.initialized with
  | false =>
    have hinfo : s.info d = .zero := by
      rw [info, if_neg (by simp [hs])]
    have hcheck := addressCheck_zero addr len .write
    rw [hinfo]
    refine ⟨s, addressCheck .zero addr len .write, ?_, ?_⟩
    · split
      · exact absurd ‹_› hcheck
      · rfl
    · rw [if_neg (by simp)]
      exact ⟨rfl, hcheck⟩
  | true =>
    rw [info_of_initialized hs]
    split
    · rename_i hcheck
      have h := (addressCheck_write_iff d addr len).mp hcheck
      have hlen : len % d.flashwordSize = 0 := dvd_iff_mod_eq_zero.mp h.len_aligned
      have hfour : 4 ∣ src.toNat ↔ src % 4 = 0 := dvd_iff_mod_eq_zero (b := 4)
      rw [progSizeMin_eq]
      by_cases hnull : src = 0
      · rw [if_pos hnull]
        refine ⟨_, _, rfl, ?_⟩
        rw [if_neg (by simp [hnull])]
        exact ⟨rfl, by simp⟩
      · rw [if_neg hnull]
        by_cases haligned : src % 4 = 0
        · have hsource : ¬ (src % (FlashInfo.init d).sourceAlignment ≠ 0 ∨
              len % d.flashwordSize ≠ 0 ∨ len % d.flashwordSize ≠ 0) := by
            change ¬ (src % 4 ≠ 0 ∨ _)
            simp [haligned, hlen]
          obtain ⟨k, hk⟩ := exists_count h.len_aligned
          have hle : k * 1 ≤ k * d.word := Nat.mul_le_mul_left k (word_pos d)
          have hpos := h.pos
          obtain ⟨t, ok, hloop, hrun⟩ := writeLoop_spec (s := s) src h.end_le false 0 k
            (len.toNat + 1) hk (by omega) (by rintro rfl; omega)
          rw [UInt32.add_zero, UInt32.add_zero] at hrun
          rw [if_neg hsource, hloop]
          refine ⟨t, _, rfl, ?_⟩
          rw [if_pos ⟨rfl, h, hnull, hfour.mpr haligned⟩]
          refine ⟨programCalls d addr src k, ⟨?_, fun i c => programCalls_spec⟩, ok, hrun, rfl⟩
          rw [length_programCalls, ← hk, Nat.zero_add]
        · have hsource : src % (FlashInfo.init d).sourceAlignment ≠ 0 ∨
              len % d.flashwordSize ≠ 0 ∨ len % d.flashwordSize ≠ 0 := .inl haligned
          rw [if_pos hsource]
          refine ⟨_, _, rfl, ?_⟩
          rw [if_neg (by simp [hfour, haligned])]
          exact ⟨rfl, by simp⟩
    · rename_i hcheck
      refine ⟨_, _, rfl, ?_⟩
      rw [if_neg fun hall => hcheck ((addressCheck_write_iff d addr len).mpr hall.2.1)]
      exact ⟨rfl, hcheck⟩

/-- Every erase and every write reaches its range and nothing else. -/
theorem flash_reaches_range (d : FlashDevice) (hal : FlashHal d) (s : FlashState)
    (addr src len : UInt32) :
    (∃ t status, s.flashErase hal addr len = some (t, status) ∧
      if d.Holds d.sector addr.toNat len.toNat then
        ∃ todo, FlashDevice.Covers d.sector len.toNat
            (fun off c => d.ErasesSector (addr.toNat + off) c) todo ∧ Carries s todo t status
      else t.calls = s.calls ∧ t.mem = s.mem ∧ status ≠ .ok) ∧
    ∃ t status, s.flashWrite hal addr src len = some (t, status) ∧
      if s.initialized = true ∧ d.Holds d.word addr.toNat len.toNat ∧ src ≠ 0 ∧ 4 ∣ src.toNat then
        ∃ todo, FlashDevice.Covers d.word len.toNat
            (fun off c => c = .program (addr + UInt32.ofNat off) (src + UInt32.ofNat off)) todo ∧
          Carries s todo t status
      else t.calls = s.calls ∧ t.mem = s.mem ∧ status ≠ .ok := by
  obtain ⟨t, status, herase, hspec⟩ := flashErase_spec hal s addr len
  obtain ⟨u, result, hwrite, hspec'⟩ := flashWrite_spec hal s addr src len
  refine ⟨⟨t, status, herase, ?_⟩, u, result, hwrite, ?_⟩
  · by_cases h : d.Holds d.sector addr.toNat len.toNat
    · rw [if_pos h] at hspec ⊢
      obtain ⟨todo, hcovers, hruns⟩ := hspec
      exact ⟨todo, hcovers, hruns.carries⟩
    · rw [if_neg h] at hspec ⊢
      obtain ⟨rfl, hstatus⟩ := hspec
      exact ⟨rfl, rfl, hstatus⟩
  · by_cases h : s.initialized = true ∧ d.Holds d.word addr.toNat len.toNat ∧ src ≠ 0 ∧
        4 ∣ src.toNat
    · rw [if_pos h] at hspec' ⊢
      obtain ⟨todo, hcovers, hruns⟩ := hspec'
      exact ⟨todo, hcovers, hruns.carries⟩
    · rw [if_neg h] at hspec' ⊢
      obtain ⟨rfl, hstatus⟩ := hspec'
      exact ⟨rfl, rfl, hstatus⟩

theorem touches_of_erasesSector {a : Nat} {c : HalCall} (h : d.ErasesSector a c) {x : Nat} :
    c.Touches d x ↔ a ≤ x ∧ x < a + d.sector := by
  obtain ⟨bank, index, rfl, -, rfl⟩ := h
  cases bank with
  | bank1 =>
    simp only [HalCall.Touches, FlashDevice.sector, Nat.succ_mul]
    omega
  | bank2 =>
    simp only [HalCall.Touches, FlashDevice.sector, Nat.succ_mul]
    omega

theorem mul_add_le {unit len k i : Nat} (hk : k * unit = len) (hi : i < k) :
    i * unit + unit ≤ len := by
  rw [← hk, ← Nat.succ_mul]
  exact Nat.mul_le_mul_right unit hi

theorem flashErase_within (h : s.flashErase hal addr len = some (t, status)) :
    Within d addr.toNat (addr.toNat + len.toNat) s t := by
  obtain ⟨t', status', herase, hspec⟩ := flashErase_spec hal s addr len
  obtain ⟨rfl, rfl⟩ : t' = t ∧ status' = status := by simpa using herase.symm.trans h
  split at hspec
  · obtain ⟨todo, hcovers, hruns⟩ := hspec
    have hwithin : Within d addr.toNat (addr.toNat + len.toNat) s.flashInit t' := by
      refine hruns.within ?_
      intro c hc a ha
      obtain ⟨i, hi⟩ := List.mem_iff_getElem?.mp hc
      have hlt := (List.getElem?_eq_some_iff.mp hi).1
      have hle := mul_add_le hcovers.length hlt
      have hin := (touches_of_erasesSector (hcovers.each i c hi)).mp ha
      omega
    exact (Within.flashInit d _ _ s).trans hwithin
  · obtain ⟨rfl, -⟩ := hspec
    exact .flashInit d _ _ s

theorem flashWrite_within (h : s.flashWrite hal addr src len = some (t, status)) :
    Within d addr.toNat (addr.toNat + len.toNat) s t := by
  obtain ⟨t', status', hwrite, hspec⟩ := flashWrite_spec hal s addr src len
  obtain ⟨rfl, rfl⟩ : t' = t ∧ status' = status := by simpa using hwrite.symm.trans h
  split at hspec
  · rename_i hrange
    obtain ⟨todo, hcovers, hruns⟩ := hspec
    have hlast := d.last_lt
    have hend := hrange.2.1.end_le
    simp only [UInt32.size] at hlast
    refine hruns.within ?_
    intro c hc a ha
    obtain ⟨i, hi⟩ := List.mem_iff_getElem?.mp hc
    have hlt := (List.getElem?_eq_some_iff.mp hi).1
    have hle := mul_add_le hcovers.length hlt
    have hpos := word_pos d
    rw [hcovers.each i c hi] at ha
    have hoff : (addr + UInt32.ofNat (i * d.word)).toNat = addr.toNat + i * d.word := by
      rw [UInt32.toNat_add, UInt32.toNat_ofNat']
      omega
    simp only [HalCall.Touches, hoff] at ha
    change addr.toNat + i * d.word ≤ a ∧ a < addr.toNat + i * d.word + d.word at ha
    omega
  · obtain ⟨rfl, -⟩ := hspec
    exact .refl d _ _ _

end FlashState

end CanSniffer.Drivers
