import CanSniffer.Drivers.SpiLaws
import CanSniffer.Sd.Sd

namespace CanSniffer.Sd

open Drivers

def Transfer.Ok (r : Transfer) : Prop := ∃ rx, r = .done true rx

/-- `b` was received in this poll, whose exchanges all succeeded. -/
def BytePoll.Answered (p : BytePoll) (b : UInt8) : Prop :=
  ∃ byte r, p = .done byte ∧ pollForResponse.EndsAt byte r ∧ SpiTransaction.AllReceived byte r ∧
    pollForResponse.byteAfter byte r = b

def BytePoll.Heard (p : BytePoll) : Prop := ∃ b, p.Answered b

/-- `illegal_command`, `crc_error`, `erase_seq_error`, `address_error` and `parameter_error`. -/
def r1Errors : UInt8 := 0x7C

def AcceptedR1 (p : BytePoll) : Prop := ∃ r1, p.Answered r1 ∧ r1 &&& r1Errors = 0

def AcceptedToken (p : BytePoll) : Prop :=
  ∃ token, p.Answered token ∧ token &&& 0x1F = dataAcceptedToken

def IdleSeen (reads : List Transfer) : Prop :=
  (∀ r ∈ reads, r.Ok) ∧ ∃ rx, reads.getLast? = some (.done true rx) ∧ rx 0 = 0xFF

/-- Block `j` of the buffer was sent whole and accepted, and the card was seen idle. -/
structure BlockLog.Stored (buff : Nat → UInt8) (j : Nat) (b : BlockLog) : Prop where
  data : b.data = blockFrame buff j
  sent : b.sent.Ok
  token : AcceptedToken b.token
  idle : IdleSeen b.reads

structure StopLog.Stopped (l : StopLog) : Prop where
  token : l.token = multiBlockStopToken
  tokenSent : l.tokenSent.Ok
  frame : l.frame = createCommand .cmd12 0
  sent : l.sent.Ok
  r1 : l.r1.Heard
  idle : IdleSeen l.reads

structure WriteLog.Stored (address : UInt32) (buff : Nat → UInt8) (cnt : UInt32) (l : WriteLog) :
    Prop where
  frame : l.frame = createCommand .cmd25 address
  sent : l.sent.Ok
  r1 : AcceptedR1 l.r1
  count : l.blocks.length = cnt.toNat
  blocks : ∀ j (b : BlockLog), l.blocks[j]? = some b → b.Stored buff j
  stop : ∃ stop, l.stop = some stop ∧ stop.Stopped

namespace WriteAnswers

def resp (a : WriteAnswers) : Nat → UInt8
  | 0 => a.r1.response a.old
  | j + 1 => (a.block j).token.response (a.resp j)

/-- One of the tests of `SD_Spi_writeMultiBlock` fails: no R1, a data response that is the CRC or
the write error code, a busy wait that never reads 0xFF, or no response to the stop. -/
def Refused (a : WriteAnswers) (cnt : UInt32) : Prop :=
  a.resp 0 = 0xFF ∨
    (∃ j, j < cnt.toNat ∧ (tokenResult (a.resp (j + 1)) ≠ eOk ∨
      (waitBusy maxReadResponseAttempts (a.block j).busy).1 ≠ 0)) ∨
    a.stopR1.response (a.resp cnt.toNat) = 0xFF ∨
    (waitBusy (maxReadResponseAttempts * 20) a.stopBusy).1 ≠ 0

/-- What the tests do not see: an exchange that failed, an error bit in R1, or a data response
other than the accepted code. -/
def Faulty (a : WriteAnswers) (cnt : UInt32) : Prop :=
  ¬ a.command.Ok ∨ ¬ AcceptedR1 a.r1 ∨
    (∃ j, j < cnt.toNat ∧ (¬ (a.block j).sent.Ok ∨ ¬ AcceptedToken (a.block j).token ∨
      ∃ r ∈ (waitBusy maxReadResponseAttempts (a.block j).busy).2, ¬ r.Ok)) ∨
    ¬ a.stopToken.Ok ∨ ¬ a.stop.Ok ∨ ¬ a.stopR1.Heard ∨
    ∃ r ∈ (waitBusy (maxReadResponseAttempts * 20) a.stopBusy).2, ¬ r.Ok

/-- A fault gets past all the tests. -/
def Overlooked (a : WriteAnswers) (cnt : UInt32) : Prop := ¬ a.Refused cnt ∧ a.Faulty cnt

end WriteAnswers

variable {a : WriteAnswers} {buff : Nat → UInt8} {cnt address : UInt32}

theorem waitBusyLoop_last (answer : Nat → Transfer) (fuel attempts : Nat) (resp : UInt8)
    (hpos : 0 < fuel) (h : (waitBusyLoop answer fuel attempts resp).1 = 0xFF) :
    ∃ r old, (waitBusyLoop answer fuel attempts resp).2.getLast? = some r ∧
      r.byte old 0 = 0xFF := by
  induction fuel generalizing attempts resp with
  | zero => omega
  | succ fuel ih =>
    rw [waitBusyLoop] at h ⊢
    by_cases hbyte : (answer attempts).byte resp 0 = 0xFF
    · exact ⟨answer attempts, resp, by simp [hbyte], hbyte⟩
    · simp only [hbyte, if_false] at h ⊢
      cases fuel with
      | zero => exact absurd h hbyte
      | succ fuel =>
        obtain ⟨r, old, hlast, hr⟩ := ih (attempts + 1) _ (Nat.succ_pos fuel) h
        exact ⟨r, old, by simp [List.getLast?_cons, hlast], hr⟩

theorem idleSeen_waitBusy {n : Nat} {b : BusyAnswers} (h : (waitBusy n b).1 = 0) :
    IdleSeen (waitBusy n b).2 ↔ ∀ r ∈ (waitBusy n b).2, r.Ok := by
  refine ⟨fun hidle => hidle.1, fun hall => ⟨hall, ?_⟩⟩
  have hff : (waitBusyLoop b.read (max 1 n) 0 b.old).1 = 0xFF := by
    rw [waitBusy] at h
    by_contra hne
    simp [hne] at h
  obtain ⟨r, old, hlast, hr⟩ := waitBusyLoop_last b.read (max 1 n) 0 b.old
    (Nat.lt_of_lt_of_le Nat.one_pos (Nat.le_max_left ..)) hff
  obtain ⟨rx, rfl⟩ := hall r (List.mem_of_getLast? hlast)
  exact ⟨rx, hlast, hr⟩

def blockLog (a : WriteAnswers) (buff : Nat → UInt8) (j : Nat) : BlockLog where
  data := blockFrame buff j
  sent := (a.block j).sent
  token := (a.block j).token
  reads := (waitBusy maxReadResponseAttempts (a.block j).busy).2

def BlockPasses (a : WriteAnswers) (j : Nat) : Prop :=
  tokenResult (a.resp (j + 1)) = eOk ∧ (waitBusy maxReadResponseAttempts (a.block j).busy).1 = 0

theorem writeBlocks_succ (a : WriteAnswers) (buff : Nat → UInt8) (n j : Nat) :
    (BlockPasses a j ∧ writeBlocks a buff (n + 1) j (a.resp j) =
      ((writeBlocks a buff n (j + 1) (a.resp (j + 1))).1,
        (writeBlocks a buff n (j + 1) (a.resp (j + 1))).2.1,
        blockLog a buff j :: (writeBlocks a buff n (j + 1) (a.resp (j + 1))).2.2)) ∨
    ¬ BlockPasses a j ∧ (writeBlocks a buff (n + 1) j (a.resp j)).1 ≠ eOk := by
  have hresp : (a.block j).token.response (a.resp j) = a.resp (j + 1) := rfl
  simp only [writeBlocks, hresp]
  by_cases htoken : tokenResult (a.resp (j + 1)) = eOk
  · by_cases hbusy : (waitBusy maxReadResponseAttempts (a.block j).busy).1 = 0
    · refine .inl ⟨⟨htoken, hbusy⟩, ?_⟩
      simp [htoken, hbusy, blockLog]
    · refine .inr ⟨fun hpass => hbusy hpass.2, ?_⟩
      simp [htoken, hbusy, eCmdNoGoingIdle, eOk]
  · refine .inr ⟨fun hpass => htoken hpass.1, ?_⟩
    simp [htoken]

theorem writeBlocks_ok (n j : Nat) :
    (writeBlocks a buff n j (a.resp j)).1 = eOk ↔ ∀ i, j ≤ i → i < j + n → BlockPasses a i := by
  induction n generalizing j with
  | zero =>
    refine iff_of_true rfl ?_
    intro i hle hlt
    omega
  | succ n ih =>
    rcases writeBlocks_succ a buff n j with ⟨hpass, heq⟩ | ⟨hfail, hne⟩
    · rw [heq, ih (j + 1)]
      constructor
      · intro h i hle hlt
        rcases Nat.eq_or_lt_of_le hle with rfl | hlt'
        · exact hpass
        · exact h i hlt' (by omega)
      · intro h i hle hlt
        exact h i (by omega) (by omega)
    · refine iff_of_false hne ?_
      intro h
      exact hfail (h j (Nat.le_refl j) (by omega))

theorem writeBlocks_log (n j : Nat) (h : (writeBlocks a buff n j (a.resp j)).1 = eOk) :
    (writeBlocks a buff n j (a.resp j)).2 =
      (a.resp (j + n), (List.range n).map fun i => blockLog a buff (j + i)) := by
  induction n generalizing j with
  | zero => rfl
  | succ n ih =>
    rcases writeBlocks_succ a buff n j with ⟨hpass, heq⟩ | ⟨hfail, hne⟩
    · rw [heq] at h ⊢
      rw [ih (j + 1) h, List.range_succ_eq_map, List.map_cons, List.map_map, Nat.add_right_comm j 1 n]
      simp [Function.comp_def, Nat.add_assoc, Nat.add_comm 1]
    · exact absurd h hne

theorem not_refused_iff :
    ¬ a.Refused cnt ↔ a.resp 0 ≠ 0xFF ∧ (∀ j, j < cnt.toNat → BlockPasses a j) ∧
      a.stopR1.response (a.resp cnt.toNat) ≠ 0xFF ∧
      (waitBusy (maxReadResponseAttempts * 20) a.stopBusy).1 = 0 := by
  simp only [WriteAnswers.Refused, BlockPasses, not_or, not_exists, not_and, not_not]

def passedLog (address : UInt32) (buff : Nat → UInt8) (cnt : UInt32) (a : WriteAnswers) :
    WriteLog where
  frame := createCommand .cmd25 address
  sent := a.command
  r1 := a.r1
  blocks := (List.range cnt.toNat).map (blockLog a buff)
  stop := some
    { token := multiBlockStopToken
      tokenSent := a.stopToken
      frame := createCommand .cmd12 0
      sent := a.stop
      r1 := a.stopR1
      reads := (waitBusy (maxReadResponseAttempts * 20) a.stopBusy).2 }

theorem writeMultiBlock_of_passes (h : ¬ a.Refused cnt) :
    writeMultiBlock address buff cnt a = (eOk, passedLog address buff cnt a) := by
  obtain ⟨hr1, hblocks, hstop, hbusy⟩ := not_refused_iff.mp h
  have hok : (writeBlocks a buff cnt.toNat 0 (a.resp 0)).1 = eOk :=
    (writeBlocks_ok cnt.toNat 0).mpr fun i _ hlt => hblocks i (by omega)
  have hlog := writeBlocks_log cnt.toNat 0 hok
  rw [Nat.zero_add] at hlog
  have hresp : a.r1.response a.old = a.resp 0 := rfl
  simp only [writeMultiBlock, hresp, hr1, if_false, hok, hlog, stopTransmission, hstop, hbusy]
  simp [passedLog]

theorem writeMultiBlock_ok : (writeMultiBlock address buff cnt a).1 = eOk ↔ ¬ a.Refused cnt := by
  refine ⟨fun hok => ?_, fun h => by rw [writeMultiBlock_of_passes h]⟩
  have hresp : a.r1.response a.old = a.resp 0 := rfl
  have hr1 : a.resp 0 ≠ 0xFF := by
    intro hr1
    simp [writeMultiBlock, hresp, hr1, eCmdNoR1, eOk] at hok
  simp only [writeMultiBlock, hresp, hr1, if_false] at hok
  have hblocks : (writeBlocks a buff cnt.toNat 0 (a.resp 0)).1 = eOk := by
    by_contra hne
    simp only [stopTransmission] at hok
    split at hok <;> simp_all [eCmdNoStopTransmissionResponse, eOk]
  have hlog := writeBlocks_log cnt.toNat 0 hblocks
  rw [Nat.zero_add] at hlog
  simp only [hblocks, hlog, stopTransmission] at hok
  refine not_refused_iff.mpr ⟨hr1, ?_, ?_, ?_⟩
  · intro j hlt
    exact (writeBlocks_ok cnt.toNat 0).mp hblocks j (Nat.zero_le j) (by omega)
  · intro hstop
    simp [hstop, eCmdNoStopTransmissionResponse, eOk] at hok
  · by_contra hbusy
    by_cases hstop : a.stopR1.response (a.resp cnt.toNat) = 0xFF <;>
      simp [hstop, hbusy, eCmdNoStopTransmissionResponse, eCmdNoGoingIdle, eOk] at hok

theorem stored_passedLog (h : ¬ a.Refused cnt) :
    (passedLog address buff cnt a).Stored address buff cnt ↔ ¬ a.Faulty cnt := by
  obtain ⟨-, hblocks, -, hbusy⟩ := not_refused_iff.mp h
  have hidle : ∀ j, j < cnt.toNat →
      (IdleSeen (blockLog a buff j).reads ↔ ∀ r ∈ (blockLog a buff j).reads, r.Ok) :=
    fun j hlt => idleSeen_waitBusy (hblocks j hlt).2
  have hstop := idleSeen_waitBusy hbusy
  have hget : ∀ j b, (passedLog address buff cnt a).blocks[j]? = some b ↔
      j < cnt.toNat ∧ blockLog a buff j = b := by
    intro j b
    simp only [passedLog, List.getElem?_map, Option.map_eq_some_iff]
    by_cases hlt : j < cnt.toNat
    · simp [hlt]
    · simp [hlt]
  simp only [WriteAnswers.Faulty, not_or, not_exists, not_and, not_not]
  constructor
  · intro hs
    obtain ⟨stop, heq, hstopped⟩ := hs.stop
    cases heq
    refine ⟨hs.sent, hs.r1, ?_, hstopped.tokenSent, hstopped.sent, hstopped.r1, hstop.mp hstopped.idle⟩
    intro j hlt
    have hb := hs.blocks j _ ((hget j _).mpr ⟨hlt, rfl⟩)
    exact ⟨hb.sent, hb.token, (hidle j hlt).mp hb.idle⟩
  · rintro ⟨hsent, hr1, hb, htokenSent, hstopSent, hstopR1, hreads⟩
    refine ⟨rfl, hsent, hr1, by simp [passedLog], ?_, _, rfl, rfl, htokenSent, rfl, hstopSent,
      hstopR1, hstop.mpr hreads⟩
    intro j b heq
    obtain ⟨hlt, rfl⟩ := (hget j b).mp heq
    obtain ⟨hsent, htoken, hall⟩ := hb j hlt
    exact ⟨rfl, hsent, htoken, (hidle j hlt).mpr hall⟩

/-- Success means that one of the CMD25 transfers that were made stored all the blocks. -/
def WriteSound (address : UInt32) (buff : Nat → UInt8) (cnt : UInt32)
    (r : UInt8 × List (UInt8 × WriteLog)) : Prop :=
  r.1 = resOk → ∃ w ∈ r.2, w.1 = eOk ∧ w.2.Stored address buff cnt

/-- A disk write reports only what is stored exactly if neither transfer has a fault that gets
past the tests, the second one only where it is made. -/
theorem mmcWrite_sound_iff (sector : UInt32) (buff : Nat → UInt8) (count : UInt32)
    (a : DiskWriteAnswers) :
    WriteSound sector buff count (mmcWrite buff sector count a) ↔
      ¬ a.first.Overlooked count ∧
        (a.first.Refused count → hotReset a.reset = resOk → ¬ a.second.Overlooked count) := by
  simp only [WriteAnswers.Overlooked, not_and]
  by_cases hfirst : a.first.Refused count
  · have hw : (writeMultiBlock sector buff count a.first).1 ≠ eOk :=
      fun hok => writeMultiBlock_ok.mp hok hfirst
    rw [mmcWrite, if_neg hw, and_iff_right fun h => absurd hfirst h]
    by_cases hreset : hotReset a.reset = resOk
    · rw [if_neg (not_not.mpr hreset)]
      by_cases hsecond : a.second.Refused count
      · have hv : (writeMultiBlock sector buff count a.second).1 ≠ eOk :=
          fun hok => writeMultiBlock_ok.mp hok hsecond
        refine iff_of_true ?_ fun _ _ h => absurd hsecond h
        intro hok
        simp [hv, resError, resOk] at hok
      · rw [writeMultiBlock_of_passes hsecond]
        have hstored : (passedLog sector buff count a.second).Stored sector buff count ↔
            ¬ a.second.Faulty count := stored_passedLog hsecond
        have hsound : WriteSound sector buff count
            (eOk, [writeMultiBlock sector buff count a.first,
              (eOk, passedLog sector buff count a.second)]) ↔ ¬ a.second.Faulty count := by
          rw [← hstored]
          constructor
          · intro h
            obtain ⟨w, hmem, hok, hw'⟩ := h rfl
            rcases List.mem_pair.mp hmem with rfl | rfl
            · exact absurd hok hw
            · exact hw'
          · intro hlog _
            exact ⟨_, List.mem_pair.mpr (.inr rfl), rfl, hlog⟩
        simp [hsound, hfirst, hreset, hsecond]
    · rw [if_pos hreset]
      refine iff_of_true ?_ fun _ h => absurd h hreset
      intro hok
      simp [resNotRdy, resOk] at hok
  · rw [mmcWrite, writeMultiBlock_of_passes hfirst]
    have hstored : (passedLog sector buff count a.first).Stored sector buff count ↔
        ¬ a.first.Faulty count := stored_passedLog hfirst
    simp [WriteSound, hfirst, ← hstored]

def idleCard : BusyAnswers := ⟨fun _ => .done true fun _ => 0xFF, 0⟩

theorem waitBusy_idleCard (n : Nat) :
    waitBusy n idleCard = (0, [.done true fun _ => 0xFF]) := by
  obtain ⟨k, hk⟩ := Nat.exists_eq_succ_of_ne_zero
    (Nat.ne_of_gt (Nat.lt_of_lt_of_le Nat.one_pos (Nat.le_max_left 1 n)))
  simp [waitBusy, hk, waitBusyLoop, idleCard, Transfer.byte]

def silentCard : WriteAnswers where
  command := .done true fun _ => 0xFF
  r1 := .done fun _ => .received 0x00
  block := fun _ =>
    { sent := .done true fun _ => 0xFF, token := .done fun _ => .received 0xFF, busy := idleCard }
  stopToken := .done true fun _ => 0xFF
  stop := .done true fun _ => 0xFF
  stopR1 := .done fun _ => .received 0x00
  stopBusy := idleCard
  old := 0xFF

theorem silentCard_resp (j : Nat) : silentCard.resp (j + 1) = 0xFF := by
  have hpoll : (pollForResponse.pollByte fun _ => .received 0xFF).1 = 0xFF := by decide
  exact hpoll

theorem silentCard_not_refused : ¬ silentCard.Refused 1 := by
  refine not_refused_iff.mpr ⟨by decide, ?_, by decide, ?_⟩
  · intro j _
    refine ⟨by rw [silentCard_resp]; decide, ?_⟩
    exact congrArg Prod.fst (waitBusy_idleCard _)
  · exact congrArg Prod.fst (waitBusy_idleCard _)

/-- One block is written, no data response arrives, and the write reports success. -/
theorem mmcWrite_unsound :
    ¬ ∀ sector buff count a, WriteSound sector buff count (mmcWrite buff sector count a) := by
  intro h
  have hw := h 0 (fun _ => 0xA5) 1
    ⟨silentCard, ⟨.gaveUp, .gaveUp, .gaveUp, .gaveUp, idleCard, 0⟩, silentCard⟩
  rw [mmcWrite, writeMultiBlock_of_passes silentCard_not_refused] at hw
  obtain ⟨w, hmem, -, hstored⟩ := hw rfl
  obtain rfl := List.mem_singleton.mp hmem
  refine (stored_passedLog silentCard_not_refused).mp hstored ?_
  refine .inr (.inr (.inl ⟨0, by decide, .inr (.inl ?_)⟩))
  rintro ⟨token, ⟨byte, r, heq, hr, -, -⟩, -⟩
  cases heq
  have hexit := hr.exit
  cases r <;> cases hexit

end CanSniffer.Sd
