import CanSniffer.Lib.Extents
import CanSniffer.Sd.Erase
import CanSniffer.Sd.InitializeLaws

namespace CanSniffer.Sd

open Drivers Lib

structure EraseBytes where
  csdR1 : Nat → UInt8
  csdToken : Nat → Nat → UInt8
  csd : Nat → UInt8
  start : Nat → Nat → UInt8
  last : Nat → Nat → UInt8
  erase : Nat → Nat → UInt8
  busy : Nat → Nat → Nat → UInt8
  bufferOld : Nat → UInt8
  old : UInt8

namespace EraseBytes

def answers (e : EraseBytes) : EraseAnswers where
  csd :=
    { command := polled e.csdR1, token := fun k => (polled (e.csdToken k)).r1
      data := .done true e.csd, old := e.old }
  start k := polled (e.start k)
  last k := polled (e.last k)
  erase k := polled (e.erase k)
  busy k i := (polled (e.busy k i)).r1
  buffer := e.bufferOld
  old := e.old

def Accepted (e : EraseBytes) (k : Nat) : Prop :=
  Answered (e.start k) 0x00 ∧ Answered (e.last k) 0x00 ∧ Answered (e.erase k) 0x00

/-- And it was seen to be done: all the bytes of one poll of the busy wait were 0xFF. -/
def Confirmed (e : EraseBytes) (k : Nat) : Prop :=
  e.Accepted k ∧ ∃ i, i < eraseBusyTimeoutAttempts ∧ ∀ r, r < 20 → e.busy k i r = 0xFF

end EraseBytes

namespace EraseRound

def accepted (r : EraseRound) : Bool := r.r1 == [0x00, 0x00, 0x00]

def confirmed (r : EraseRound) : Bool := r.accepted && r.idle

def first (r : EraseRound) : Nat := r.start.toNat

def blocks (r : EraseRound) : Nat := r.last.toNat + 1 - r.start.toNat

end EraseRound

/-- What the return of an erase over `total` blocks, or over a card whose capacity is unknown,
stands for. -/
structure EraseResult.Sound (e : EraseBytes) (capacity : Option UInt32) (r : EraseResult) :
    Prop where
  log : ∀ k round, r.rounds[k]? = some round →
    (round.accepted = true ↔ e.Accepted k) ∧ (round.confirmed = true ↔ e.Confirmed k)
  inRange : ∀ round ∈ r.rounds, ∃ total, capacity = some total ∧ round.start ≤ round.last ∧
    round.last < total
  /-- The confirmed ranges follow each other from block 0 to the last one that is counted. -/
  laid : Laid EraseRound.first EraseRound.blocks 1 0 (r.rounds.filter EraseRound.confirmed)
    r.erased.toNat
  /-- Only an erase that was accepted last and timed out is not counted. -/
  accepted : ∃ rest, r.rounds.filter EraseRound.accepted =
      r.rounds.filter EraseRound.confirmed ++ rest ∧
    (rest = [] ∨ ∃ round, rest = [round] ∧ round.first = r.erased.toNat ∧
      r.res = eCmdNoGoingIdle)
  erased_le : ∀ total, capacity = some total → r.erased ≤ total
  ok : r.res = eOk ↔ capacity = some r.erased

section Poll

variable {bytes : Nat → UInt8}

theorem response_eq_ff_iff : response bytes = 0xFF ↔ ∀ r, r < 20 → bytes r = 0xFF := by
  constructor
  · intro hff r hr
    induction r using Nat.strongRecOn with
    | ind r ih =>
      -- the first of the other bytes would have been the answer
      by_contra hne
      have hanswered : Answered bytes (bytes r) :=
        ⟨r, hr, rfl, hne, fun j hj => ih j hj (Nat.lt_trans hj hr)⟩
      exact hne (((response_eq_iff hne).mpr hanswered).symm.trans hff)
  · intro hall
    by_contra hne
    obtain ⟨r, hlt, hbyte, hb, -⟩ := (response_eq_iff hne).mp rfl
    exact hb (hbyte.symm.trans (hall r hlt))

theorem eraseBusyLoop_iff (busy : Nat → Nat → UInt8) (n i : Nat) (resp : UInt8) :
    (eraseBusyLoop (fun i => (polled (busy i)).r1) n i resp).2 = true ↔
      ∃ j, i ≤ j ∧ j < i + n ∧ response (busy j) = 0xFF := by
  induction n generalizing i resp with
  | zero =>
    refine iff_of_false Bool.false_ne_true ?_
    rintro ⟨j, hle, hlt, -⟩
    omega
  | succ n ih =>
    rw [eraseBusyLoop]
    by_cases hff : (polled (busy i)).r1.response resp = 0xFF
    · rw [if_pos hff]
      exact iff_of_true rfl ⟨i, Nat.le_refl i, by omega, hff⟩
    · rw [if_neg hff, ih]
      constructor
      · rintro ⟨j, hle, hlt, hj⟩
        exact ⟨j, by omega, by omega, hj⟩
      · rintro ⟨j, hle, hlt, hj⟩
        rcases Nat.eq_or_lt_of_le hle with rfl | hlt'
        · exact absurd hj hff
        · exact ⟨j, hlt', by omega, hj⟩

theorem idle_iff (busy : Nat → Nat → UInt8) (resp : UInt8) :
    (eraseBusyLoop (fun i => (polled (busy i)).r1) eraseBusyTimeoutAttempts 0 resp).2 = true ↔
      ∃ i, i < eraseBusyTimeoutAttempts ∧ ∀ r, r < 20 → busy i r = 0xFF := by
  rw [eraseBusyLoop_iff]
  simp only [Nat.zero_le, true_and, Nat.zero_add, response_eq_ff_iff]

end Poll

section Round

variable {e : EraseBytes} {total current limit chunk : UInt32} {k : Nat} {resp : UInt8}

theorem eraseChunk_spec (h : current < total) (hlimit : 0 < limit.toNat) :
    0 < (eraseChunk total current limit).toNat ∧
      current.toNat + (eraseChunk total current limit).toNat ≤ total.toNat := by
  have hlt := UInt32.lt_iff_toNat_lt.mp h
  have hone : ∀ c : UInt32, c % eraseBlockSize = 0 := by
    intro c
    rw [← UInt32.toNat_inj, UInt32.toNat_mod]
    exact Nat.mod_one _
  have hsub : (total - current).toNat = total.toNat - current.toNat :=
    UInt32.toNat_sub_of_le _ _ (Nat.le_of_lt hlt)
  unfold eraseChunk
  simp only [hone, ne_eq, not_true_eq_false, if_false]
  split
  · rename_i hsmall
    have hsmall := UInt32.lt_iff_toNat_lt.mp hsmall
    omega
  · omega

structure RoundSpec (e : EraseBytes) (k : Nat) (current chunk limit : UInt32)
    (r : EraseRound × UInt8 × RoundEnd) : Prop where
  start : r.1.start = current
  last : r.1.last = current + chunk - 1
  accepted : r.1.accepted = true ↔ e.Accepted k
  confirmed : r.1.confirmed = true ↔ e.Confirmed k
  erased : r.2.2 = .erased → r.1.confirmed = true
  shrunk : r.2.2 = .shrunk → r.1.accepted = false ∧ eraseBlockSize < limit
  failed : ∀ res, r.2.2 = .failed res →
    r.1.confirmed = false ∧ (r.1.accepted = true → res.val = eCmdNoGoingIdle)

theorem answered_zero_iff {bytes : Nat → UInt8} :
    Answered bytes 0x00 ↔ response bytes = 0x00 := (response_eq_iff (by decide)).symm

theorem RoundSpec.of_rejected {r1 : List UInt8} (hnot : ¬ e.Accepted k)
    (hr1 : r1 ≠ [0x00, 0x00, 0x00]) (res : { r : UInt8 // r ≠ eOk }) :
    RoundSpec e k current chunk limit
      (⟨current, current + chunk - 1, r1, false⟩, resp, rejected limit resp res) := by
  have haccepted : (EraseRound.mk current (current + chunk - 1) r1 false).accepted = false :=
    beq_false_of_ne hr1
  refine ⟨rfl, rfl, ?_, ?_, ?_, ?_, ?_⟩
  · rw [haccepted]
    exact iff_of_false Bool.false_ne_true hnot
  · rw [EraseRound.confirmed, haccepted]
    exact iff_of_false Bool.false_ne_true fun h => hnot h.1
  · intro hend
    simp only [rejected] at hend
    split at hend <;> cases hend
  · intro hend
    simp only [rejected] at hend
    split at hend
    · rename_i hlimit
      exact ⟨haccepted, hlimit.1⟩
    · cases hend
  · intro res' _
    rw [EraseRound.confirmed, haccepted]
    exact ⟨rfl, fun h => absurd h Bool.false_ne_true⟩

theorem eraseRound_spec :
    RoundSpec e k current chunk limit (eraseRound e.answers k current chunk limit resp) := by
  have h0' : commandResponse .cmd32 current (e.answers.start k) resp = response (e.start k) := rfl
  have h1' : ∀ old, commandResponse .cmd33 (current + chunk - 1) (e.answers.last k) old =
    response (e.last k) := fun _ => rfl
  have h2' : ∀ old, commandResponse .cmd38 0 (e.answers.erase k) old = response (e.erase k) :=
    fun _ => rfl
  simp only [eraseRound, h0', h1', h2']
  by_cases h0 : response (e.start k) = 0x00
  case neg =>
    rw [if_pos h0]
    exact .of_rejected (fun h => h0 (answered_zero_iff.mp h.1)) (by simp) _
  by_cases h1 : response (e.last k) = 0x00
  case neg =>
    rw [if_neg (fun h => h h0), if_pos h1]
    exact .of_rejected (fun h => h1 (answered_zero_iff.mp h.2.1)) (by simp) _
  by_cases h2 : response (e.erase k) = 0x00
  case neg =>
    rw [if_neg (fun h => h h0), if_neg (fun h => h h1), if_pos h2]
    exact .of_rejected (fun h => h2 (answered_zero_iff.mp h.2.2)) (by simp [h2]) _
  have haccepted : e.Accepted k :=
    ⟨answered_zero_iff.mpr h0, answered_zero_iff.mpr h1, answered_zero_iff.mpr h2⟩
  have hidle : (eraseBusyLoop (e.answers.busy k) eraseBusyTimeoutAttempts 0 0x00).2 = true ↔
      ∃ i, i < eraseBusyTimeoutAttempts ∧ ∀ r, r < 20 → e.busy k i r = 0xFF := idle_iff ..
  rw [if_neg (fun h => h h0), if_neg (fun h => h h1), if_neg (fun h => h h2), h0, h1, h2]
  generalize eraseBusyLoop (e.answers.busy k) eraseBusyTimeoutAttempts 0 0x00 = w at hidle
  refine ⟨rfl, rfl, iff_of_true rfl haccepted, hidle.trans ?_, ?_, ?_, ?_⟩
  · exact (and_iff_right haccepted).symm
  all_goals
    cases w.2
    · simp [EraseRound.confirmed, EraseRound.accepted]
    · simp [EraseRound.confirmed, EraseRound.accepted]

end Round

/-- What the loop leaves when it is entered in round `k` with everything below `first` erased. -/
structure EraseResult.SoundFrom (e : EraseBytes) (total : UInt32) (k first : Nat)
    (r : EraseResult) : Prop where
  log : ∀ j round, r.rounds[j]? = some round →
    (round.accepted = true ↔ e.Accepted (k + j)) ∧ (round.confirmed = true ↔ e.Confirmed (k + j))
  inRange : ∀ round ∈ r.rounds, round.start ≤ round.last ∧ round.last < total
  laid : Laid EraseRound.first EraseRound.blocks 1 first (r.rounds.filter EraseRound.confirmed)
    r.erased.toNat
  accepted : ∃ rest, r.rounds.filter EraseRound.accepted =
      r.rounds.filter EraseRound.confirmed ++ rest ∧
    (rest = [] ∨ ∃ round, rest = [round] ∧ round.first = r.erased.toNat ∧
      r.res = eCmdNoGoingIdle)
  erased_le : r.erased ≤ total
  ok : r.res = eOk ↔ r.erased = total

section Loop

variable {e : EraseBytes} {total current limit : UInt32} {k : Nat} {resp : UInt8}
  {r : EraseResult}

theorem EraseResult.SoundFrom.done {res : UInt8} (hle : current ≤ total)
    (hok : res = eOk ↔ current = total) :
    EraseResult.SoundFrom e total k current.toNat ⟨res, current, []⟩ where
  log _ _ h := by cases h
  inRange _ h := by cases h
  laid := rfl
  accepted := ⟨[], rfl, .inl rfl⟩
  erased_le := hle
  ok := hok

theorem EraseRound.accepted_of_confirmed {round : EraseRound} (h : round.confirmed = true) :
    round.accepted = true := (Bool.and_eq_true_iff.mp h).1

theorem EraseResult.SoundFrom.log_cons {round : EraseRound} {first : Nat}
    (hround : (round.accepted = true ↔ e.Accepted k) ∧ (round.confirmed = true ↔ e.Confirmed k))
    (h : r.SoundFrom e total (k + 1) first) (j : Nat) (x : EraseRound)
    (hx : (round :: r.rounds)[j]? = some x) :
    (x.accepted = true ↔ e.Accepted (k + j)) ∧ (x.confirmed = true ↔ e.Confirmed (k + j)) := by
  cases j with
  | zero =>
    cases hx
    exact hround
  | succ j =>
    rw [show k + (j + 1) = k + 1 + j by omega]
    exact h.log j x hx

structure ChunkFits (total current chunk : UInt32) : Prop where
  pos : 0 < chunk.toNat
  next : (current + chunk).toNat = current.toNat + chunk.toNat
  last : (current + chunk - 1).toNat = current.toNat + chunk.toNat - 1
  le : current.toNat + chunk.toNat ≤ total.toNat

theorem chunkFits (h : current < total) (hlimit : 0 < limit.toNat) :
    ChunkFits total current (eraseChunk total current limit) := by
  obtain ⟨hpos, hsum⟩ := eraseChunk_spec h hlimit
  have htotal := total.toNat_lt
  have hnext : (current + eraseChunk total current limit).toNat =
      current.toNat + (eraseChunk total current limit).toNat := by
    rw [UInt32.toNat_add]
    omega
  have hone : UInt32.toNat 1 = 1 := rfl
  refine ⟨hpos, hnext, ?_, hsum⟩
  rw [UInt32.toNat_sub_of_le _ _ (UInt32.le_iff_toNat_le.mpr (by omega)), hnext, hone]

variable {chunk : UInt32} {q : EraseRound × UInt8 × RoundEnd} {s : EraseResult}

theorem RoundSpec.inRange (hq : RoundSpec e k current chunk limit q)
    (hfits : ChunkFits total current chunk) : q.1.start ≤ q.1.last ∧ q.1.last < total := by
  have hpos := hfits.pos
  have hle := hfits.le
  rw [hq.start, hq.last, UInt32.le_iff_toNat_le, UInt32.lt_iff_toNat_lt, hfits.last]
  omega

theorem EraseResult.SoundFrom.erased (hq : RoundSpec e k current chunk limit q)
    (hend : q.2.2 = .erased) (hfits : ChunkFits total current chunk)
    (h : s.SoundFrom e total (k + 1) (current + chunk).toNat) :
    EraseResult.SoundFrom e total k current.toNat { s with rounds := q.1 :: s.rounds } := by
  have hconfirmed := hq.erased hend
  have haccepted := EraseRound.accepted_of_confirmed hconfirmed
  have hfirst : q.1.first = current.toNat := by rw [EraseRound.first, hq.start]
  have hblocks : q.1.blocks = chunk.toNat := by
    have hpos := hfits.pos
    rw [EraseRound.blocks, hq.start, hq.last, hfits.last]
    omega
  refine ⟨h.log_cons ⟨hq.accepted, hq.confirmed⟩, ?_, ?_, ?_, h.erased_le, h.ok⟩
  · intro x hx
    cases hx with
    | head => exact hq.inRange hfits
    | tail _ hx => exact h.inRange x hx
  · rw [List.filter_cons_of_pos hconfirmed]
    refine ⟨hfirst, hblocks ▸ hfits.pos, Nat.mod_one _, Nat.mod_one _, ?_⟩
    rw [hblocks, ← hfits.next]
    exact h.laid
  · rw [List.filter_cons_of_pos hconfirmed, List.filter_cons_of_pos haccepted]
    obtain ⟨rest, heq, hrest⟩ := h.accepted
    exact ⟨rest, by rw [heq]; rfl, hrest⟩

theorem EraseResult.SoundFrom.shrunk (hq : RoundSpec e k current chunk limit q)
    (hend : q.2.2 = .shrunk) (hfits : ChunkFits total current chunk)
    (h : s.SoundFrom e total (k + 1) current.toNat) :
    EraseResult.SoundFrom e total k current.toNat { s with rounds := q.1 :: s.rounds } := by
  have haccepted := (hq.shrunk hend).1
  have hconfirmed : q.1.confirmed = false := by rw [EraseRound.confirmed, haccepted]; rfl
  refine ⟨h.log_cons ⟨hq.accepted, hq.confirmed⟩, ?_, ?_, ?_, h.erased_le, h.ok⟩
  · intro x hx
    cases hx with
    | head => exact hq.inRange hfits
    | tail _ hx => exact h.inRange x hx
  · rw [List.filter_cons_of_neg (Bool.not_eq_true _ ▸ hconfirmed)]
    exact h.laid
  · rw [List.filter_cons_of_neg (Bool.not_eq_true _ ▸ haccepted),
      List.filter_cons_of_neg (Bool.not_eq_true _ ▸ hconfirmed)]
    exact h.accepted

theorem EraseResult.SoundFrom.failed {res : { r : UInt8 // r ≠ eOk }}
    (hq : RoundSpec e k current chunk limit q) (hend : q.2.2 = .failed res)
    (hfits : ChunkFits total current chunk) (hlt : current < total) :
    EraseResult.SoundFrom e total k current.toNat ⟨res.val, current, [q.1]⟩ := by
  obtain ⟨hconfirmed, htimeout⟩ := hq.failed res hend
  have hdone : EraseResult.SoundFrom e total (k + 1) current.toNat ⟨res.val, current, []⟩ :=
    .done (UInt32.le_of_lt hlt) (iff_of_false res.property (UInt32.ne_of_lt hlt))
  refine ⟨hdone.log_cons ⟨hq.accepted, hq.confirmed⟩, ?_, ?_, ?_, hdone.erased_le, hdone.ok⟩
  · intro x hx
    cases hx with
    | head => exact hq.inRange hfits
    | tail _ hx => cases hx
  · rw [List.filter_cons_of_neg (Bool.not_eq_true _ ▸ hconfirmed)]
    exact hdone.laid
  · by_cases haccepted : q.1.accepted = true
    · rw [List.filter_cons_of_pos haccepted,
        List.filter_cons_of_neg (Bool.not_eq_true _ ▸ hconfirmed)]
      refine ⟨[q.1], rfl, .inr ⟨q.1, rfl, ?_, htimeout haccepted⟩⟩
      rw [EraseRound.first, hq.start]
    · rw [List.filter_cons_of_neg haccepted,
        List.filter_cons_of_neg (Bool.not_eq_true _ ▸ hconfirmed)]
      exact ⟨[], rfl, .inl rfl⟩

theorem eraseLoop_sound (fuel : Nat) (hle : current ≤ total) (hlimit : 0 < limit.toNat)
    (h : eraseLoop e.answers total fuel k current limit resp current = some r) :
    r.SoundFrom e total k current.toNat := by
  induction fuel generalizing k current limit resp r with
  | zero => cases h
  | succ fuel ih =>
    rw [eraseLoop] at h
    split at h
    case isFalse hend =>
      cases h
      exact .done hle (iff_of_true rfl (UInt32.le_antisymm hle (UInt32.not_lt.mp hend)))
    case isTrue hlt =>
      have hfits := chunkFits hlt hlimit
      generalize eraseChunk total current limit = chunk at h hfits
      have hnz : ¬ chunk = 0 := by
        intro hzero
        have hpos := hfits.pos
        rw [hzero] at hpos
        exact absurd hpos (by decide)
      have hspec : RoundSpec e k current chunk limit
        (eraseRound e.answers k current chunk limit resp) := eraseRound_spec
      simp only [hnz, if_false] at h
      generalize eraseRound e.answers k current chunk limit resp = q at h hspec
      rw [Option.map_eq_some_iff] at h
      obtain ⟨s, hs, rfl⟩ := h
      split at hs
      case h_1 hend =>
        refine .erased hspec hend hfits (ih ?_ hlimit hs)
        rw [UInt32.le_iff_toNat_le, hfits.next]
        exact hfits.le
      case h_2 hend => exact .shrunk hspec hend hfits (ih hle (by decide) hs)
      case h_3 res hend =>
        cases hs
        exact .failed hspec hend hfits hlt

def eraseRoundsLeft (total current limit : UInt32) : Nat :=
  total.toNat - current.toNat + if eraseBlockSize < limit then 1 else 0

theorem eraseLoop_returns {erased : UInt32} (fuel : Nat) (hlimit : 0 < limit.toNat)
    (hfuel : eraseRoundsLeft total current limit < fuel) :
    ∃ r, eraseLoop e.answers total fuel k current limit resp erased = some r := by
  induction fuel generalizing k current limit resp erased with
  | zero => exact absurd hfuel (Nat.not_lt_zero _)
  | succ fuel ih =>
    rw [eraseLoop]
    split
    case isFalse hend => exact ⟨_, rfl⟩
    case isTrue hlt =>
      have hfits := chunkFits hlt hlimit
      have hspec : RoundSpec e k current (eraseChunk total current limit) limit
        (eraseRound e.answers k current (eraseChunk total current limit) limit resp) :=
        eraseRound_spec
      generalize eraseChunk total current limit = chunk at hfits hspec
      dsimp only
      split
      · exact ⟨_, rfl⟩
      generalize eraseRound e.answers k current chunk limit resp = q at hspec
      have hpos := hfits.pos
      have hle := hfits.le
      unfold eraseRoundsLeft at ih hfuel
      cases hend : q.2.2 with
      | erased =>
        obtain ⟨s, hs⟩ : ∃ r, eraseLoop e.answers total fuel (k + 1) (current + chunk) limit q.2.1
            (current + chunk) = some r := ih hlimit (by rw [hfits.next]; omega)
        exact ⟨_, by rw [hs]; rfl⟩
      | shrunk =>
        have hsecond : ¬ eraseBlockSize < eraseBlockSize := UInt32.lt_irrefl _
        rw [if_pos (hspec.shrunk hend).2] at hfuel
        obtain ⟨s, hs⟩ : ∃ r, eraseLoop e.answers total fuel (k + 1) current eraseBlockSize q.2.1
            erased = some r := ih (by decide) (by rw [if_neg hsecond]; omega)
        exact ⟨_, by rw [hs]; rfl⟩
      | failed res => exact ⟨_, rfl⟩

end Loop

def EraseBytes.capacity (e : EraseBytes) : Option UInt32 :=
  if (eraseCapacity e.answers).1 = eOk then some (eraseCapacity e.answers).2 else none

def EraseSound (e : EraseBytes) : Prop :=
  (∃ fuel r, eraseAll fuel e.answers = some r) ∧
    ∀ fuel r, eraseAll fuel e.answers = some r → r.Sound e e.capacity

/-- The result and the count are those of the ranges that the card erased. -/
theorem eraseAll_sound (e : EraseBytes) : EraseSound e := by
  unfold EraseSound EraseBytes.capacity
  by_cases hok : (eraseCapacity e.answers).1 = eOk
  · have hall : ∀ fuel, eraseAll fuel e.answers =
        eraseLoop e.answers (eraseCapacity e.answers).2 fuel 0 0 eraseChunkBlocks e.old 0 :=
      fun _ => if_neg fun h => h hok
    rw [if_pos hok]
    generalize (eraseCapacity e.answers).2 = total at hall
    constructor
    · obtain ⟨r, hr⟩ : ∃ r, eraseLoop e.answers total (eraseRoundsLeft total 0 eraseChunkBlocks + 1)
          0 0 eraseChunkBlocks e.old 0 = some r :=
        eraseLoop_returns _ (by decide) (Nat.lt_succ_self _)
      exact ⟨_, r, (hall _).trans hr⟩
    · intro fuel r hr
      rw [hall] at hr
      have h := eraseLoop_sound fuel UInt32.zero_le (by decide) hr
      exact {
        log := fun k round hround => by simpa using h.log k round hround
        inRange := fun round hround => ⟨total, rfl, h.inRange round hround⟩
        laid := h.laid
        accepted := h.accepted
        erased_le := fun _ heq => Option.some.inj heq ▸ h.erased_le
        ok := h.ok.trans ⟨fun heq => heq ▸ rfl, fun heq => (Option.some.inj heq).symm⟩ }
  · have hall : ∀ fuel, eraseAll fuel e.answers = some ⟨(eraseCapacity e.answers).1, 0, []⟩ :=
      fun _ => if_pos hok
    rw [if_neg hok]
    refine ⟨⟨0, _, hall 0⟩, fun fuel r hr => ?_⟩
    rw [hall] at hr
    cases hr
    exact {
      log := fun _ _ h => by cases h
      inRange := fun _ h => by cases h
      laid := rfl
      accepted := ⟨[], rfl, .inl rfl⟩
      erased_le := fun _ h => by cases h
      ok := iff_of_false hok fun h => by cases h }

end CanSniffer.Sd
