import CanSniffer.Drivers.SpiLaws
import CanSniffer.Lib.Bits
import CanSniffer.Sd.Initialize

namespace CanSniffer.Sd

open Drivers

/-- The bytes the card returns during one `SD_Spi_Initialize`: the clocks before CMD0, and for each
command the bytes polled for its response or read after it. -/
structure CardBytes where
  clocks : Nat → UInt8
  goIdle : Nat → UInt8
  ifCond : Nat → UInt8
  echo : Nat → UInt8
  app : Nat → Nat → UInt8
  opCond : Nat → Nat → UInt8
  readOcr : Nat → Nat → UInt8
  ocr : Nat → Nat → UInt8

structure InitRest where
  instanceFound : Bool
  spiInit : HalStatus
  ocrOld : Nat → UInt8
  bufferOld : Nat → UInt8

def polled (bytes : Nat → UInt8) : CommandAnswers where
  sent := .done true fun _ => 0xFF
  r1 := .done fun i => .received (bytes i)

def CardBytes.answers (c : CardBytes) (e : InitRest) : InitAnswers where
  clocks i := .done true fun _ => c.clocks i
  goIdle := polled c.goIdle
  ifCond := polled c.ifCond
  echo := .done true c.echo
  app k := polled (c.app k)
  opCond k := polled (c.opCond k)
  readOcr k := polled (c.readOcr k)
  ocr k := .done true (c.ocr k)
  instanceFound := e.instanceFound
  spiInit := e.spiInit
  ocrOld := e.ocrOld
  bufferOld := e.bufferOld

def Answered (bytes : Nat → UInt8) (b : UInt8) : Prop :=
  ∃ r, r < 20 ∧ bytes r = b ∧ b ≠ 0xFF ∧ ∀ j, j < r → bytes j = 0xFF

namespace CardBytes

/-- The R1 response is idle in the bits that the source looks at. -/
def IdleIfCond (c : CardBytes) : Prop := ∃ r1, Answered c.ifCond r1 ∧ r1 &&& 0x3F = 0x01

def Echoed (c : CardBytes) : Prop := c.echo 2 = 0x01 ∧ c.echo 3 = 0xAA

/-- In the attempts that count; after a first 0x00 in the last one, which the source makes with its
error already set, the OCR is not read. -/
def OpCondReached (c : CardBytes) : Prop := ∃ k, k ≤ 100 ∧ Answered (c.opCond k) 0x00

/-- The register was read after a response without errors, with the power-up bit set. -/
def PoweredUp (c : CardBytes) : Prop := ∃ k, Answered (c.readOcr k) 0x00 ∧ 0x80 ≤ c.ocr k 0

structure Ready (c : CardBytes) (e : InitRest) : Prop where
  goIdle : Answered c.goIdle 0x01
  ifCond : c.IdleIfCond
  echo : c.Echoed
  opCond : c.OpCondReached
  ocr : c.PoweredUp
  highSpeed : goHighSpeed (c.answers e) = .success

end CardBytes

/-- The call returns, with 0 exactly if the card is ready. -/
def InitSound (c : CardBytes) (e : InitRest) : Prop :=
  (∃ fuel ret, spiInitialize fuel (c.answers e) = some ret) ∧
    ∀ fuel ret, spiInitialize fuel (c.answers e) = some ret → (ret = 0 ↔ c.Ready e)

variable {bytes : Nat → UInt8} {c : CardBytes} {e : InitRest}

def response (bytes : Nat → UInt8) : UInt8 :=
  (pollForResponse.pollByte fun i => .received (bytes i)).1

theorem byteAfter_received (r : Nat) :
    pollForResponse.byteAfter (fun i => .received (bytes i)) r = bytes r := by
  cases r <;> rfl

theorem pollExit_iff (b : UInt8) : pollForResponse.pollExit b = true ↔ b ≠ 0xFF := by
  simp [SpiTransaction.pollExit, pollForResponse, SpiCall.transaction]

theorem response_eq_iff {b : UInt8} (hb : b ≠ 0xFF) : response bytes = b ↔ Answered bytes b := by
  have hno : ∀ j, pollForResponse.pollExit (bytes j) = false ↔ bytes j = 0xFF := by
    intro j
    rw [← Bool.not_eq_true, pollExit_iff, not_not]
  rcases pollForResponse.pollByte_cases fun i => .received (bytes i) with
    ⟨r, hr, heq⟩ | ⟨hnone, -, hexit⟩
  · have hexit := hr.exit
    have hfirst := hr.first
    simp only [byteAfter_received, pollExit_iff, hno] at hexit hfirst
    rw [response, heq, byteAfter_received]
    constructor
    · rintro rfl
      exact ⟨r, hr.lt, rfl, hexit, hfirst⟩
    · rintro ⟨q, -, rfl, hq, hbefore⟩
      rcases Nat.lt_trichotomy r q with h | rfl | h
      · exact absurd (hbefore r h) hexit
      · rfl
      · exact absurd (hfirst q h) hq
  · have hff : response bytes = 0xFF := by
      rwa [← Bool.not_eq_true, pollExit_iff, not_not] at hexit
    rw [hff]
    refine iff_of_false (fun h => hb h.symm) ?_
    rintro ⟨r, hlt, rfl, -, hbefore⟩
    refine hnone r ⟨hlt, ?_, ?_⟩
    · rwa [byteAfter_received, pollExit_iff]
    · intro j hj
      rw [byteAfter_received, hno]
      exact hbefore j hj

theorem clockLoop_answers (n i : Nat) (old : UInt8) :
    (clockLoop (c.answers e).clocks n i old).1 = false := by
  induction n generalizing i old with
  | zero => rfl
  | succ n ih =>
    have hstatus : ((c.answers e).clocks i).status = 0 := rfl
    simp only [clockLoop, hstatus, ne_eq, not_true_eq_false, if_false]
    exact ih ..

theorem goIdleState_answers :
    goIdleState (c.answers e) =
      (if response c.goIdle = 0xFF then eResponse else eOk, response c.goIdle) := by
  have hsent : sendCommand .cmd0 0 (c.answers e).goIdle.sent = eOk := rfl
  simp only [goIdleState, clockLoop_answers, hsent, Bool.false_eq_true, if_false, if_true]
  by_cases hff : response c.goIdle = 0xFF <;>
    simp [CardBytes.answers, polled, BytePoll.status, BytePoll.response, ← response.eq_1, hff]

theorem opCondLoop_ok (fuel n : Nat) (old : UInt8) (h : n + fuel = 102) :
    (opCondLoop (c.answers e) fuel n old).1 = 0 ↔
      ∃ k, n ≤ k ∧ k ≤ 100 ∧ response (c.opCond k) = 0x00 := by
  induction fuel generalizing n old with
  | zero =>
    refine iff_of_false (by simp [opCondLoop]) ?_
    rintro ⟨k, hle, hlt, -⟩
    omega
  | succ fuel ih =>
    have hresp : sendOpCond ((c.answers e).opCond n) (sendApp ((c.answers e).app n) old) =
        response (c.opCond n) := rfl
    simp only [opCondLoop, hresp]
    by_cases hlast : 100 < n
    · refine iff_of_false (by simp [hlast]) ?_
      rintro ⟨k, hle, hlt, -⟩
      omega
    · by_cases hzero : response (c.opCond n) = 0x00
      · refine iff_of_true (by simp [hlast, hzero]) ?_
        exact ⟨n, Nat.le_refl n, by omega, hzero⟩
      · simp only [hlast, hzero, if_false, ne_eq, not_false_eq_true, and_self, if_true]
        rw [ih (n + 1) _ (by omega)]
        constructor
        · rintro ⟨k, hle, hlt, hk⟩
          exact ⟨k, by omega, hlt, hk⟩
        · rintro ⟨k, hle, hlt, hk⟩
          rcases Nat.eq_or_lt_of_le hle with rfl | hlt'
          · exact absurd hk hzero
          · exact ⟨k, hlt', hlt, hk⟩

theorem cpusb_eq_zero (ocr : Nat → UInt8) : cpusb ocr = 0 ↔ ¬ 0x80 ≤ ocr 0 := by
  have hfirst : ∀ b : UInt8, (b.toUInt32 <<< 24 >>> 31 &&& 1).toUInt8 = 0 ↔ ¬ 0x80 ≤ b :=
    Lib.Bits.forall_byte (by decide +kernel)
  have hrest : ∀ b : UInt8,
      b.toUInt32 <<< 16 >>> 31 = 0 ∧ b.toUInt32 <<< 8 >>> 31 = 0 ∧ b.toUInt32 >>> 31 = 0 :=
    Lib.Bits.forall_byte (by decide +kernel)
  rw [← hfirst]
  simp only [cpusb, UInt32.shiftRight_or, hrest, UInt32.or_zero]

theorem ocrLoop_left (k : Nat) (resp : UInt8) (buffer : Nat → UInt8) :
    (∃ fuel, ocrLoop (c.answers e) fuel k resp buffer = true) ↔
      ∃ j, k ≤ j ∧ response (c.readOcr j) = 0x00 ∧ 0x80 ≤ c.ocr j 0 := by
  have hresp : ∀ j old, readOCR ((c.answers e).readOcr j) old = response (c.readOcr j) :=
    fun _ _ => rfl
  have hread : ∀ j old, cpusb (readRes7 ((c.answers e).ocr j) old) = 0 ↔ ¬ 0x80 ≤ c.ocr j 0 :=
    fun j _ => cpusb_eq_zero (c.ocr j)
  constructor
  · rintro ⟨fuel, h⟩
    induction fuel generalizing k resp buffer with
    | zero => cases h
    | succ fuel ih =>
      simp only [ocrLoop, hresp, hread] at h
      have hlater : (∃ j, k + 1 ≤ j ∧ response (c.readOcr j) = 0x00 ∧ 0x80 ≤ c.ocr j 0) →
          ∃ j, k ≤ j ∧ response (c.readOcr j) = 0x00 ∧ 0x80 ≤ c.ocr j 0 := by
        rintro ⟨j, hle, hj⟩
        exact ⟨j, by omega, hj⟩
      by_cases hzero : response (c.readOcr k) = 0x00
      · by_cases hbit : 0x80 ≤ c.ocr k 0
        · exact ⟨k, Nat.le_refl k, hzero, hbit⟩
        · simp only [hzero, hbit, if_true, not_false_eq_true] at h
          exact hlater (ih _ _ _ h)
      · simp only [hzero, if_false] at h
        exact hlater (ih _ _ _ h)
  · rintro ⟨j, hle, hzero, hbit⟩
    obtain ⟨d, rfl⟩ := Nat.exists_eq_add_of_le hle
    refine ⟨d + 1, ?_⟩
    induction d generalizing k resp buffer with
    | zero => simp [ocrLoop, hresp, hread, show response (c.readOcr k) = 0x00 from hzero,
        show 0x80 ≤ c.ocr k 0 from hbit]
    | succ d ih =>
      have hnext : ∀ resp buffer, ocrLoop (c.answers e) (d + 1) (k + 1) resp buffer = true := by
        intro resp buffer
        refine ih (k + 1) resp buffer (by omega) ?_ ?_
        · rwa [Nat.add_right_comm]
        · rwa [Nat.add_right_comm]
      rw [ocrLoop]
      simp only [hresp, hnext, ite_self]

theorem idleIfCond_iff : c.IdleIfCond ↔ response c.ifCond &&& 0x3F = 0x01 := by
  constructor
  · rintro ⟨r1, hans, hr1⟩
    obtain ⟨-, -, -, hne, -⟩ := id hans
    rwa [(response_eq_iff hne).mpr hans]
  · intro h
    have hne : response c.ifCond ≠ 0xFF := by
      intro hff
      rw [hff] at h
      exact absurd h (by decide)
    exact ⟨_, (response_eq_iff hne).mp rfl, h⟩

theorem opCondReached_iff :
    c.OpCondReached ↔ ∃ k, 0 ≤ k ∧ k ≤ 100 ∧ response (c.opCond k) = 0x00 := by
  simp [CardBytes.OpCondReached, response_eq_iff (b := 0x00) (by decide)]

theorem poweredUp_iff :
    c.PoweredUp ↔ ∃ k, 0 ≤ k ∧ response (c.readOcr k) = 0x00 ∧ 0x80 ≤ c.ocr k 0 := by
  simp [CardBytes.PoweredUp, response_eq_iff (b := 0x00) (by decide)]

theorem finishInit_zero :
    finishInit (c.answers e) 0 = 0 ↔ goHighSpeed (c.answers e) = .success := by
  refine ⟨fun h => ?_, fun h => by simp [finishInit, h, CommCode.value]⟩
  by_contra hne
  exact CommCode.value_ne_zero hne h

theorem finishInit_error {retVal : UInt8} (h : retVal ≠ 0) :
    finishInit (c.answers e) retVal = resError := if_neg h

theorem spiInitialize_notIdle (h : ¬ Answered c.goIdle 0x01) :
    ∃ ret, ret ≠ 0 ∧ ∀ fuel, spiInitialize fuel (c.answers e) = some ret := by
  rw [← response_eq_iff (by decide)] at h
  by_cases hff : response c.goIdle = 0xFF
  · refine ⟨eResponse, by decide, fun fuel => ?_⟩
    rw [spiInitialize, goIdleState_answers]
    simp [hff, eResponse, eOk]
  · refine ⟨resError, by decide, fun fuel => ?_⟩
    rw [spiInitialize, goIdleState_answers]
    simp [hff, h, finishInit_error]

theorem sendIfCond_answers (old : UInt8) :
    sendIfCond (c.answers e).ifCond old = response c.ifCond := rfl

theorem echo_answers (i : Nat) : readRes7 (c.answers e).echo (c.answers e).ocrOld i = c.echo i :=
  rfl

theorem spiInitialize_skipped (hidle : Answered c.goIdle 0x01) (h : ¬ c.IdleIfCond) (fuel : Nat) :
    spiInitialize fuel (c.answers e) = some (finishInit (c.answers e) 0) := by
  rw [← response_eq_iff (by decide)] at hidle
  rw [idleIfCond_iff] at h
  rw [spiInitialize, goIdleState_answers]
  simp [hidle, sendIfCond_answers, h]

theorem spiInitialize_notReached (hidle : Answered c.goIdle 0x01) (hif : c.IdleIfCond)
    (h : ¬ (c.Echoed ∧ c.OpCondReached)) (fuel : Nat) :
    spiInitialize fuel (c.answers e) = some resError := by
  rw [← response_eq_iff (by decide)] at hidle
  rw [idleIfCond_iff] at hif
  rw [spiInitialize, goIdleState_answers]
  simp only [hidle, sendIfCond_answers, hif, echo_answers]
  by_cases hecho : c.echo 2 = 0x01 ∧ c.echo 3 = 0xAA
  · have hop : (opCondLoop (c.answers e) 102 0 (response c.ifCond)).1 ≠ 0 := by
      rw [ne_eq, opCondLoop_ok 102 0 _ rfl, ← opCondReached_iff]
      exact fun hop => h ⟨hecho, hop⟩
    simp [hecho, hop, finishInit_error]
  · simp only [if_neg hecho]
    simp [finishInit_error]

theorem spiInitialize_reached (hidle : Answered c.goIdle 0x01) (hif : c.IdleIfCond)
    (hecho : c.Echoed) (hop : c.OpCondReached) :
    ∃ resp, ∀ fuel, spiInitialize fuel (c.answers e) =
      if ocrLoop (c.answers e) fuel 0 resp e.bufferOld then some (finishInit (c.answers e) 0)
      else none := by
  rw [← response_eq_iff (by decide)] at hidle
  rw [idleIfCond_iff] at hif
  rw [opCondReached_iff, ← opCondLoop_ok (e := e) 102 0 (response c.ifCond) rfl] at hop
  refine ⟨(opCondLoop (c.answers e) 102 0 (response c.ifCond)).2, fun fuel => ?_⟩
  rw [spiInitialize, goIdleState_answers]
  have hold : (c.answers e).bufferOld = e.bufferOld := rfl
  simp only [hidle, sendIfCond_answers, hif, echo_answers, hecho.1, hecho.2, hop, hold]
  simp

theorem initSound_iff_of_eq {ret : UInt8}
    (heq : ∀ fuel, spiInitialize fuel (c.answers e) = some ret) :
    InitSound c e ↔ (ret = 0 ↔ c.Ready e) := by
  constructor
  · rintro ⟨-, h⟩
    exact h 0 ret (heq 0)
  · intro h
    refine ⟨⟨0, ret, heq 0⟩, ?_⟩
    intro fuel ret' hret
    cases (heq fuel).symm.trans hret
    exact h

theorem initSound_reached (hidle : Answered c.goIdle 0x01) (hif : c.IdleIfCond)
    (hecho : c.Echoed) (hop : c.OpCondReached) : InitSound c e ↔ c.PoweredUp := by
  obtain ⟨resp, heq⟩ := spiInitialize_reached (e := e) hidle hif hecho hop
  have hleft := ocrLoop_left (c := c) (e := e) 0 resp e.bufferOld
  rw [← poweredUp_iff] at hleft
  constructor
  · rintro ⟨⟨fuel, ret, hret⟩, -⟩
    rw [heq] at hret
    refine hleft.mp ⟨fuel, ?_⟩
    by_contra hne
    simp [hne] at hret
  · intro hpower
    refine ⟨?_, ?_⟩
    · obtain ⟨fuel, hfuel⟩ := hleft.mpr hpower
      exact ⟨fuel, _, by rw [heq, if_pos hfuel]⟩
    · intro fuel ret hret
      rw [heq] at hret
      split at hret
      · cases hret
        rw [finishInit_zero]
        exact ⟨fun hhigh => ⟨hidle, hif, hecho, hop, hpower, hhigh⟩,
          fun hready => hready.highSpeed⟩
      · cases hret

/-- The call returns 0 only for a ready card, and returns at all, exactly if a card that answered
CMD0 either fails at CMD8 and at the switch to high speed, or shows the power-up bit once ACMD41
has let it leave the idle state. -/
theorem initialize_sound_iff (c : CardBytes) (e : InitRest) :
    InitSound c e ↔ (Answered c.goIdle 0x01 →
      (¬ c.IdleIfCond → goHighSpeed (c.answers e) ≠ .success) ∧
      (c.IdleIfCond → c.Echoed → c.OpCondReached → c.PoweredUp)) := by
  by_cases hidle : Answered c.goIdle 0x01
  · rw [imp_iff_right hidle]
    by_cases hif : c.IdleIfCond
    · simp only [hif, not_true_eq_false, false_imp_iff, true_and, true_imp_iff]
      by_cases hreached : c.Echoed ∧ c.OpCondReached
      · rw [initSound_reached hidle hif hreached.1 hreached.2]
        simp only [hreached.1, hreached.2, true_imp_iff]
      · rw [initSound_iff_of_eq (spiInitialize_notReached hidle hif hreached)]
        refine iff_of_true ?_ fun hecho hop => absurd ⟨hecho, hop⟩ hreached
        exact iff_of_false (by decide) fun hready => hreached ⟨hready.echo, hready.opCond⟩
    · simp only [hif, not_false_eq_true, true_imp_iff, false_imp_iff, and_true]
      rw [initSound_iff_of_eq (spiInitialize_skipped hidle hif), finishInit_zero]
      constructor
      · intro h hhigh
        exact hif (h.mp hhigh).ifCond
      · intro hhigh
        exact iff_of_false hhigh fun hready => hif hready.ifCond
  · obtain ⟨ret, hne, heq⟩ := spiInitialize_notIdle (e := e) hidle
    rw [initSound_iff_of_eq heq]
    refine iff_of_true ?_ fun h => absurd h hidle
    exact iff_of_false hne fun hready => hidle hready.goIdle

def oldCard : CardBytes where
  clocks := fun _ => 0xFF
  goIdle := fun _ => 0x01
  ifCond := fun _ => 0x05
  echo := fun _ => 0xFF
  app := fun _ _ => 0xFF
  opCond := fun _ _ => 0xFF
  readOcr := fun _ _ => 0xFF
  ocr := fun _ _ => 0xFF

/-- It is never asked to leave the idle state, and the call reports success. -/
theorem initialize_unsound : ¬ ∀ c e, InitSound c e := by
  intro h
  obtain ⟨-, hzero⟩ := h oldCard ⟨true, .ok, fun _ => 0, fun _ => 0⟩
  obtain ⟨hecho, -⟩ := ((hzero 0 0 (by decide)).mp rfl).echo
  exact absurd hecho (by decide)

end CanSniffer.Sd
