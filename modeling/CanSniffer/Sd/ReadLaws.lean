import CanSniffer.Sd.Read
import CanSniffer.Sd.SdLaws

namespace CanSniffer.Sd

open Drivers

/-- The poll ended with a byte that was received, and no exchange before it failed. -/
def IdleHeard (maxRetries : UInt32) (p : IdleOutcome) : Prop :=
  ∃ answer r, p = .done answer ∧
    ((SpiCall.pollForIdle maxRetries).transaction 0).EndsAt answer r ∧
    SpiTransaction.AllReceived answer r

def TokenSeen (polls : List BytePoll) : Prop :=
  ∃ p, polls.getLast? = some p ∧ p.Answered startDataMarker

/-- Block `j` of the buffer is what was received after a start token. -/
structure FetchLog.Fetched (buff : Nat → UInt8) (j : Nat) (b : FetchLog) : Prop where
  token : TokenSeen b.polls
  data : ∃ rx, b.data = some (.done true rx) ∧ ∀ i, i < sectorLength →
    buff (j * sectorLength + i) = rx i

structure ReadLog.Fetched (address : UInt32) (buff : Nat → UInt8) (cnt : UInt32) (l : ReadLog) :
    Prop where
  frame : l.frame = createCommand .cmd18 address
  sent : l.sent.Ok
  r1 : AcceptedR1 l.r1
  count : l.blocks.length = cnt.toNat
  blocks : ∀ j (b : FetchLog), l.blocks[j]? = some b → b.Fetched buff j
  stop : ∃ t p, l.stop = some (createCommand .cmd12 address, t, p) ∧ t.Ok ∧
    IdleHeard (.ofNat maxReadResponseAttempts) p

namespace ReadAnswers

def resp (a : ReadAnswers) : Nat → UInt8
  | 0 => a.r1.response a.old
  | j + 1 => (waitStartToken (a.block j).token (a.resp j)).1

def Refused (a : ReadAnswers) (cnt : UInt32) : Prop :=
  a.resp 0 = 0xFF ∨
    (∃ j, j < cnt.toNat ∧ (a.resp (j + 1) ≠ startDataMarker ∨ (a.block j).data.status ≠ 0)) ∨
    mPollForIdle (.ofNat maxReadResponseAttempts) a.idle ≠ 0

/-- What the tests do not see: an exchange that failed, an error bit in R1, or a start token that
was left in `resp.byte` by the block before. -/
def Faulty (a : ReadAnswers) (cnt : UInt32) : Prop :=
  ¬ a.command.Ok ∨ ¬ AcceptedR1 a.r1 ∨
    (∃ j, j < cnt.toNat ∧ (¬ TokenSeen (waitStartToken (a.block j).token (a.resp j)).2 ∨
      ¬ (a.block j).data.Ok)) ∨
    ¬ a.stop.Ok ∨ ¬ IdleHeard (.ofNat maxReadResponseAttempts) a.idle

def Overlooked (a : ReadAnswers) (cnt : UInt32) : Prop := ¬ a.Refused cnt ∧ a.Faulty cnt

end ReadAnswers

variable {a : ReadAnswers} {buff tmp : Nat → UInt8} {cnt address : UInt32} {s : ReadState}

def fetchLog (a : ReadAnswers) (j : Nat) : FetchLog where
  polls := (waitStartToken (a.block j).token (a.resp j)).2
  data := some (a.block j).data

def BlockReads (a : ReadAnswers) (j : Nat) : Prop :=
  a.resp (j + 1) = startDataMarker ∧ (a.block j).data.status = 0

theorem fetch_buff_of_lt {j i : Nat} (resp : UInt8) (d : Transfer) (hi : i < j * sectorLength) :
    (s.fetch j resp d).buff i = s.buff i :=
  if_neg fun h => Nat.not_lt.mpr h.1 hi

theorem fetch_buff_add {j i : Nat} {ok : Bool} {rx : Nat → UInt8} {d : Transfer} (resp : UInt8)
    (hd : d = .done ok rx) (hi : i < sectorLength) :
    (s.fetch j resp d).buff (j * sectorLength + i) = rx i := by
  have hlt : j * sectorLength + i < (j + 1) * sectorLength := by
    rw [Nat.succ_mul]
    omega
  show (if _ ∧ _ then d.byte _ _ else _) = rx i
  rw [if_pos ⟨Nat.le_add_right .., hlt⟩, Nat.add_sub_cancel_left, hd]
  rfl

theorem readBlocks_succ (a : ReadAnswers) (n j : Nat) (hs : s.resp = a.resp j) :
    (BlockReads a j ∧ readBlocks a (n + 1) j s =
      ((readBlocks a n (j + 1) (s.fetch j (a.resp (j + 1)) (a.block j).data)).1,
        (readBlocks a n (j + 1) (s.fetch j (a.resp (j + 1)) (a.block j).data)).2.1,
        fetchLog a j ::
          (readBlocks a n (j + 1) (s.fetch j (a.resp (j + 1)) (a.block j).data)).2.2)) ∨
    ¬ BlockReads a j ∧ (readBlocks a (n + 1) j s).1 ≠ eOk := by
  have hresp : (waitStartToken (a.block j).token (a.resp j)).1 = a.resp (j + 1) := rfl
  simp only [readBlocks, hs, hresp]
  by_cases htoken : a.resp (j + 1) = startDataMarker
  · by_cases hdata : (a.block j).data.status = 0
    · refine .inl ⟨⟨htoken, hdata⟩, ?_⟩
      rw [if_neg (not_not.mpr htoken), if_neg (not_not.mpr hdata)]
      rfl
    · refine .inr ⟨fun hpass => hdata hpass.2, ?_⟩
      rw [if_neg (not_not.mpr htoken), if_pos hdata]
      exact hdata
  · refine .inr ⟨fun hpass => htoken hpass.1, ?_⟩
    rw [if_pos htoken]
    exact (by decide : eCmdNoStartToken ≠ eOk)

theorem readBlocks_ok (n j : Nat) (hs : s.resp = a.resp j) :
    (readBlocks a n j s).1 = eOk ↔ ∀ i, j ≤ i → i < j + n → BlockReads a i := by
  induction n generalizing j s with
  | zero =>
    refine iff_of_true rfl ?_
    intro i hle hlt
    omega
  | succ n ih =>
    rcases readBlocks_succ a n j hs with ⟨hpass, heq⟩ | ⟨hfail, hne⟩
    · rw [heq]
      refine (ih (j + 1) rfl).trans ⟨fun h i hle hlt => ?_, fun h i hle hlt => ?_⟩
      · rcases Nat.eq_or_lt_of_le hle with rfl | hlt'
        · exact hpass
        · exact h i hlt' (by omega)
      · exact h i (by omega) (by omega)
    · refine iff_of_false hne ?_
      intro h
      exact hfail (h j (Nat.le_refl j) (by omega))

theorem readBlocks_frame (n j i : Nat) (hi : i < j * sectorLength) :
    (readBlocks a n j s).2.1.buff i = s.buff i := by
  induction n generalizing j s with
  | zero => rfl
  | succ n ih =>
    have hnext : i < (j + 1) * sectorLength := by
      rw [Nat.succ_mul]
      omega
    simp only [readBlocks]
    split
    · rfl
    · split
      · exact fetch_buff_of_lt _ _ hi
      · rw [ih (j + 1) hnext]
        exact fetch_buff_of_lt _ _ hi

theorem readBlocks_log (n j : Nat) (hs : s.resp = a.resp j)
    (h : (readBlocks a n j s).1 = eOk) :
    (readBlocks a n j s).2.2 = (List.range n).map (fun i => fetchLog a (j + i)) ∧
      ∀ k, j ≤ k → k < j + n → ∀ ok rx, (a.block k).data = .done ok rx → ∀ i, i < sectorLength →
        (readBlocks a n j s).2.1.buff (k * sectorLength + i) = rx i := by
  induction n generalizing j s with
  | zero =>
    refine ⟨rfl, fun k hle hlt => ?_⟩
    omega
  | succ n ih =>
    rcases readBlocks_succ a n j hs with ⟨hpass, heq⟩ | ⟨hfail, hne⟩
    · rw [heq] at h ⊢
      obtain ⟨hlog, hbuff⟩ := ih (j + 1) rfl h
      constructor
      · rw [hlog, List.range_succ_eq_map, List.map_cons, List.map_map]
        simp [Function.comp_def, Nat.add_assoc, Nat.add_comm 1]
      · intro k hle hlt ok rx hdata i hi
        rcases Nat.eq_or_lt_of_le hle with rfl | hlt'
        · have hnext : j * sectorLength + i < (j + 1) * sectorLength := by
            rw [Nat.succ_mul]
            omega
          rw [readBlocks_frame n (j + 1) _ hnext]
          exact fetch_buff_add _ hdata hi
        · exact hbuff k hlt' (by omega) ok rx hdata i hi
    · exact absurd h hne

theorem not_refusedRead_iff :
    ¬ a.Refused cnt ↔ a.resp 0 ≠ 0xFF ∧ (∀ j, j < cnt.toNat → BlockReads a j) ∧
      mPollForIdle (.ofNat maxReadResponseAttempts) a.idle = 0 := by
  simp only [ReadAnswers.Refused, BlockReads, not_or, not_exists, not_and, not_not, ne_eq]

def fetchedLog (address : UInt32) (cnt : UInt32) (a : ReadAnswers) : ReadLog where
  frame := createCommand .cmd18 address
  sent := a.command
  r1 := a.r1
  blocks := (List.range cnt.toNat).map (fetchLog a)
  stop := some (createCommand .cmd12 address, a.stop, a.idle)

theorem readMultiBlock_of_passes (address : UInt32) (buff tmp : Nat → UInt8) (h : ¬ a.Refused cnt) :
    (readMultiBlock address buff cnt tmp a).1 = eOk ∧
      (readMultiBlock address buff cnt tmp a).2.2 = fetchedLog address cnt a ∧
      ∀ k, k < cnt.toNat → ∀ ok rx, (a.block k).data = .done ok rx → ∀ i, i < sectorLength →
        (readMultiBlock address buff cnt tmp a).2.1.buff (k * sectorLength + i) = rx i := by
  obtain ⟨hr1, hblocks, hidle⟩ := not_refusedRead_iff.mp h
  have hs : ({ resp := a.r1.response a.old, tmp, buff } : ReadState).resp = a.resp 0 := rfl
  have hok := (readBlocks_ok cnt.toNat 0 hs).mpr fun i _ hlt => hblocks i (by omega)
  obtain ⟨hlog, hbuff⟩ := readBlocks_log cnt.toNat 0 hs hok
  have hne : ¬a.r1.response a.old = 0xFF := hr1
  simp only [readMultiBlock]
  rw [if_neg hne]
  dsimp only
  rw [if_neg fun hbad => hbad.1 hidle, hlog]
  simp only [Nat.zero_add]
  exact ⟨hok, rfl, fun k hk => hbuff k (Nat.zero_le k) (by omega)⟩

theorem readMultiBlock_ok :
    (readMultiBlock address buff cnt tmp a).1 = eOk ↔ ¬ a.Refused cnt := by
  refine ⟨fun hok => ?_, fun h => (readMultiBlock_of_passes address buff tmp h).1⟩
  have hs : ({ resp := a.r1.response a.old, tmp, buff } : ReadState).resp = a.resp 0 := rfl
  simp only [readMultiBlock] at hok
  by_cases hr1 : a.r1.response a.old = 0xFF
  · rw [if_pos hr1] at hok
    exact absurd hok (by decide : ¬(2 : UInt8) = eOk)
  · rw [if_neg hr1] at hok
    dsimp only at hok
    by_cases hidle : mPollForIdle (.ofNat maxReadResponseAttempts) a.idle = 0
    · rw [if_neg fun hbad => hbad.1 hidle] at hok
      refine not_refusedRead_iff.mpr ⟨hr1, fun j hlt => ?_, hidle⟩
      exact (readBlocks_ok cnt.toNat 0 hs).mp hok j (Nat.zero_le j) (by omega)
    · by_cases hzero : (readBlocks a cnt.toNat 0 { resp := a.r1.response a.old, tmp, buff }).1 = 0
      · rw [if_pos ⟨hidle, hzero⟩] at hok
        exact absurd hok (by decide : ¬eCmdNoGoingIdle = eOk)
      · rw [if_neg fun hbad => hzero hbad.2] at hok
        exact absurd hok hzero

theorem fetched_fetchedLog (address : UInt32) (h : ¬ a.Refused cnt) (hbuff : ∀ k, k < cnt.toNat → ∀ ok rx,
      (a.block k).data = .done ok rx → ∀ i, i < sectorLength →
        buff (k * sectorLength + i) = rx i) :
    (fetchedLog address cnt a).Fetched address buff cnt ↔ ¬ a.Faulty cnt := by
  obtain ⟨-, hblocks, -⟩ := not_refusedRead_iff.mp h
  have hget : ∀ j b, (fetchedLog address cnt a).blocks[j]? = some b ↔
      j < cnt.toNat ∧ fetchLog a j = b := by
    intro j b
    simp only [fetchedLog, List.getElem?_map, Option.map_eq_some_iff]
    by_cases hlt : j < cnt.toNat
    · simp [hlt]
    · simp [hlt]
  simp only [ReadAnswers.Faulty, not_or, not_exists, not_and, not_not]
  constructor
  · intro hs
    obtain ⟨t, p, heq, ht, hp⟩ := hs.stop
    cases heq
    refine ⟨hs.sent, hs.r1, fun j hlt => ?_, ht, hp⟩
    have hb := hs.blocks j _ ((hget j _).mpr ⟨hlt, rfl⟩)
    obtain ⟨rx, hrx, -⟩ := hb.data
    exact ⟨hb.token, rx, Option.some.inj hrx⟩
  · rintro ⟨hsent, hr1, hb, hstop, hidle⟩
    refine ⟨rfl, hsent, hr1, by simp [fetchedLog], ?_, _, _, rfl, hstop, hidle⟩
    intro j b heq
    obtain ⟨hlt, rfl⟩ := (hget j b).mp heq
    obtain ⟨htoken, rx, hrx⟩ := hb j hlt
    exact ⟨htoken, rx, congrArg some hrx, hbuff j hlt true rx hrx⟩

/-- Success means that one of the CMD18 transfers that were made brought in all the blocks. -/
def DiskReadSound (address : UInt32) (cnt : UInt32) (r : DiskRead) : Prop :=
  r.res = resOk → ∃ w ∈ r.logs, w.1 = eOk ∧ w.2.Fetched address r.buff cnt

/-- A disk read reports only what was received exactly if neither transfer has a fault that gets
past the tests, the second one only where it is made. -/
theorem mmcRead_sound_iff (sector : UInt32) (buff tmp : Nat → UInt8) (count : UInt32)
    (a : DiskReadAnswers) :
    DiskReadSound sector count (mmcRead buff sector count tmp a) ↔
      ¬ a.first.Overlooked count ∧
        (a.first.Refused count → hotReset a.reset = resOk → ¬ a.second.Overlooked count) := by
  simp only [ReadAnswers.Overlooked, not_and]
  by_cases hfirst : a.first.Refused count
  · have hw : ¬(readMultiBlock sector buff count tmp a.first).1 = eOk :=
      fun hok => readMultiBlock_ok.mp hok hfirst
    rw [and_iff_right fun h => absurd hfirst h]
    unfold mmcRead
    dsimp only
    rw [if_neg hw]
    by_cases hreset : hotReset a.reset = resOk
    · rw [if_pos hreset]
      generalize readMultiBlock sector buff count tmp a.first = w at hw ⊢
      by_cases hsecond : a.second.Refused count
      · have hv : ¬(readMultiBlock sector w.2.1.buff count w.2.1.tmp a.second).1 = eOk :=
          fun hok => readMultiBlock_ok.mp hok hsecond
        refine iff_of_true (fun hok => ?_) fun _ _ h => absurd hsecond h
        dsimp only at hok
        rw [if_neg hv] at hok
        exact absurd hok (by decide)
      · obtain ⟨hok, hlog, hbuff⟩ :=
          readMultiBlock_of_passes sector w.2.1.buff w.2.1.tmp hsecond
        have hfetched := fetched_fetchedLog sector hsecond hbuff
        rw [if_pos hok, hok, hlog]
        constructor
        · intro h _ _ _
          obtain ⟨v, hmem, hv, hv'⟩ := h rfl
          rcases List.mem_pair.mp hmem with rfl | rfl
          · exact absurd hv hw
          · exact hfetched.mp hv'
        · intro h _
          exact ⟨_, List.mem_pair.mpr (.inr rfl), rfl, hfetched.mpr (h hfirst hreset hsecond)⟩
    · rw [if_neg hreset]
      have hres : ¬resNotRdy = resOk := by decide
      exact iff_of_true (fun hok => absurd hok hres) fun _ h => absurd h hreset
  · obtain ⟨hok, hlog, hbuff⟩ := readMultiBlock_of_passes sector buff tmp hfirst
    have hfetched := fetched_fetchedLog sector hfirst hbuff
    unfold mmcRead
    dsimp only
    rw [if_pos hok, hok, hlog]
    constructor
    · intro h
      refine ⟨fun _ => ?_, fun href => absurd href hfirst⟩
      obtain ⟨v, hmem, -, hv⟩ := h rfl
      obtain rfl := List.mem_singleton.mp hmem
      exact hfetched.mp hv
    · rintro ⟨h, -⟩ -
      exact ⟨_, List.mem_singleton.mpr rfl, rfl, hfetched.mpr (h hfirst)⟩

end CanSniffer.Sd
