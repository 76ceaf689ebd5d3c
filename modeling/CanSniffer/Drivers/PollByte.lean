import CanSniffer.Drivers.SpiAbs
import CanSniffer.Drivers.SpiLaws

namespace CanSniffer.Drivers

def HalByte.written : HalByte → Option UInt8
  | .received b => some b
  | .failed left => left

namespace SpiTransaction

def pollTransfersLoop (t : SpiTransaction) (answer : Nat → HalByte) : Nat → Nat → UInt8 → Nat
  | 0, _, _ => 0
  | fuel + 1, retries, byte =>
    if t.pollExit ((answer retries).after byte) then 1
    else 1 + pollTransfersLoop t answer fuel (retries + 1) ((answer retries).after byte)

def pollTransfers (t : SpiTransaction) (answer : Nat → HalByte) : Nat :=
  t.pollTransfersLoop answer t.tries 0 t.token

/-- The poll is bounded, and it succeeds with `b` exactly if one of its exchanges received `b` and
`b` meets the condition. -/
structure PollSound (t : SpiTransaction) (answer : Nat → HalByte) : Prop where
  bounded : t.pollTransfers answer ≤ max 1 t.maxRetries.toNat
  iff : ∀ b, t.pollByte answer = (b, 0) ↔
    ∃ r, r < t.pollTransfers answer ∧ answer r = .received b ∧ t.pollExit b = true

def Hits (t : SpiTransaction) (answer : Nat → HalByte) (r : Nat) : Prop :=
  ∃ b, (answer r).written = some b ∧ t.pollExit b = true

structure FirstHit (t : SpiTransaction) (answer : Nat → HalByte) (r : Nat) : Prop where
  lt : r < t.tries
  hits : t.Hits answer r
  first : ∀ j, j < r → ¬ t.Hits answer j

/-- The first exchange overwrites the preset byte where that meets the condition, and what meets it
first was received. -/
structure PollClean (t : SpiTransaction) (answer : Nat → HalByte) : Prop where
  preset : t.invert = true → (answer 0).written ≠ none
  received : ∀ r, t.FirstHit answer r → ∃ b, answer r = .received b

end SpiTransaction

/-- What became of a call of `m_PollForIdle`: not queued, given up, or completed. -/
inductive IdleOutcome
  | refused (code : { c : CommCode // c ≠ .success })
  | gaveUp
  | done (answer : Nat → HalByte)

/-- `m_PollForIdle`; the callback of a completed call stored one byte. -/
def mPollForIdle (maxRetries : UInt32) : IdleOutcome → UInt8
  | .refused code => code.val.value
  | .gaveUp => HalStatus.timeout.value
  | .done answer =>
    let r := ((SpiCall.pollForIdle maxRetries).transaction 0).pollByte answer
    (SpiCall.pollForIdle maxRetries).value
      { status := r.2, bytes := 1, done := true, data := some [r.1] }

def IdleSound (maxRetries : UInt32) (p : IdleOutcome) : Prop :=
  mPollForIdle maxRetries p = 0 → ∃ answer r b, p = .done answer ∧
    r < ((SpiCall.pollForIdle maxRetries).transaction 0).pollTransfers answer ∧
    answer r = .received b

/-- The first exchange leaves a byte, and one is received before the first 0xFF is in the buffer or
with it. -/
structure IdleClean (maxRetries : UInt32) (answer : Nat → HalByte) : Prop where
  preset : (answer 0).written ≠ none
  received : ∀ r, ((SpiCall.pollForIdle maxRetries).transaction 0).FirstHit answer r →
    ∃ j b, j ≤ r ∧ answer j = .received b

namespace SpiTransaction

variable {t : SpiTransaction} {answer : Nat → HalByte} {r : Nat}

theorem pollTransfersLoop_of_endsAt (h : t.EndsAt answer r) (fuel retries : Nat) (byte : UInt8)
    (hnext : (answer retries).after byte = t.byteAfter answer retries) (hle : retries ≤ r)
    (hfuel : r < retries + fuel) :
    retries + t.pollTransfersLoop answer fuel retries byte = r + 1 := by
  induction fuel generalizing retries byte with
  | zero => omega
  | succ fuel ih =>
    rw [pollTransfersLoop, hnext]
    rcases Nat.eq_or_lt_of_le hle with rfl | hlt
    · rw [if_pos h.exit]
    · rw [if_neg (by rw [h.first retries hlt]; exact Bool.false_ne_true)]
      have hrest := ih (retries + 1) (t.byteAfter answer retries) rfl hlt (by omega)
      omega

theorem pollTransfersLoop_of_not_endsAt (fuel retries : Nat) (byte : UInt8)
    (hnext : (answer retries).after byte = t.byteAfter answer retries)
    (hno : ∀ j, retries ≤ j → j < retries + fuel → t.pollExit (t.byteAfter answer j) = false) :
    t.pollTransfersLoop answer fuel retries byte = fuel := by
  induction fuel generalizing retries byte with
  | zero => rfl
  | succ fuel ih =>
    rw [pollTransfersLoop, hnext,
      if_neg (by rw [hno retries (Nat.le_refl _) (by omega)]; exact Bool.false_ne_true),
      ih (retries + 1) (t.byteAfter answer retries) rfl fun j hle hlt =>
        hno j (by omega) (by omega)]
    exact Nat.add_comm 1 fuel

theorem pollExit_of_not_endsAt (hno : ∀ r, ¬ t.EndsAt answer r) :
    ∀ j, j < t.tries → t.pollExit (t.byteAfter answer j) = false := by
  intro j
  induction j using Nat.strongRecOn with
  | ind j ih =>
    intro hlt
    cases hexit : t.pollExit (t.byteAfter answer j) with
    | false => rfl
    | true => exact absurd ⟨hlt, hexit, fun i hi => ih i hi (Nat.lt_trans hi hlt)⟩ (hno j)

theorem pollTransfers_cases (t : SpiTransaction) (answer : Nat → HalByte) :
    (∃ r, t.EndsAt answer r ∧ t.pollTransfers answer = r + 1) ∨
      (∀ r, ¬ t.EndsAt answer r) ∧ t.pollTransfers answer = t.tries := by
  by_cases hend : ∃ r, t.EndsAt answer r
  · obtain ⟨r, hr⟩ := hend
    have hcount := pollTransfersLoop_of_endsAt hr t.tries 0 t.token rfl (Nat.zero_le r)
      (by rw [Nat.zero_add]; exact hr.lt)
    rw [Nat.zero_add] at hcount
    exact .inl ⟨r, hr, hcount⟩
  · have hno := not_exists.mp hend
    refine .inr ⟨hno, pollTransfersLoop_of_not_endsAt t.tries 0 t.token rfl fun j _ hlt => ?_⟩
    exact pollExit_of_not_endsAt hno j (by omega)

theorem byteAfter_of_written {b : UInt8} (h : (answer r).written = some b) :
    t.byteAfter answer r = b := by
  have hafter : ∀ old, (answer r).after old = b := by
    intro old
    cases ha : answer r with
    | received x =>
      rw [ha] at h
      exact Option.some.inj h
    | failed left =>
      rw [ha] at h
      simp only [HalByte.written] at h
      rw [HalByte.after, h, Option.getD_some]
  cases r with
  | zero => exact hafter _
  | succ r => exact hafter _

theorem byteAfter_of_not_written (h : (answer r).written = none) :
    t.byteAfter answer r = (match r with | 0 => t.token | r + 1 => t.byteAfter answer r) := by
  have hafter : ∀ old, (answer r).after old = old := by
    intro old
    cases ha : answer r with
    | received x =>
      rw [ha] at h
      cases h
    | failed left =>
      rw [ha] at h
      simp only [HalByte.written] at h
      rw [HalByte.after, h, Option.getD_none]
  cases r with
  | zero => exact hafter _
  | succ r => exact hafter _

theorem pollExit_token (t : SpiTransaction) : t.pollExit t.token = t.invert := by
  unfold pollExit
  cases t.invert <;> simp

theorem pollExit_iff_hits (hpreset : t.invert = true → (answer 0).written ≠ none) (r : Nat)
    (hfirst : ∀ j, j < r → ¬ t.Hits answer j) :
    t.pollExit (t.byteAfter answer r) = true ↔ t.Hits answer r := by
  induction r with
  | zero =>
    cases hw : (answer 0).written with
    | some b => simp [byteAfter_of_written hw, Hits, hw]
    | none =>
      rw [byteAfter_of_not_written hw, pollExit_token]
      refine iff_of_false (fun hinv => hpreset hinv hw) ?_
      rintro ⟨b, hb, -⟩
      rw [hw] at hb
      cases hb
  | succ r ih =>
    cases hw : (answer (r + 1)).written with
    | some b => simp [byteAfter_of_written hw, Hits, hw]
    | none =>
      rw [byteAfter_of_not_written hw, ih fun j hj => hfirst j (Nat.lt_succ_of_lt hj)]
      refine iff_of_false (hfirst r (Nat.lt_succ_self r)) ?_
      rintro ⟨b, hb, -⟩
      rw [hw] at hb
      cases hb

theorem endsAt_iff_firstHit (hpreset : t.invert = true → (answer 0).written ≠ none) :
    t.EndsAt answer r ↔ t.FirstHit answer r := by
  constructor
  · intro h
    have hfirst : ∀ j, j < r → ¬ t.Hits answer j := by
      intro j
      induction j using Nat.strongRecOn with
      | ind j ih =>
        intro hlt hhit
        have hbelow := fun i hi => ih i hi (Nat.lt_trans hi hlt)
        have hexit := (pollExit_iff_hits hpreset j hbelow).mpr hhit
        rw [h.first j hlt] at hexit
        exact Bool.false_ne_true hexit
    exact ⟨h.lt, (pollExit_iff_hits hpreset r hfirst).mp h.exit, hfirst⟩
  · intro h
    refine ⟨h.lt, (pollExit_iff_hits hpreset r h.first).mpr h.hits, fun j hj => ?_⟩
    rw [← Bool.not_eq_true, pollExit_iff_hits hpreset j fun i hi => h.first i (Nat.lt_trans hi hj)]
    exact h.first j hj

theorem endsAt_zero_of_preset (hinv : t.invert = true) (hw : (answer 0).written = none) :
    t.EndsAt answer 0 := by
  refine ⟨Nat.lt_of_lt_of_le Nat.one_pos (Nat.le_max_left ..), ?_, fun j hj => by cases hj⟩
  rw [byteAfter_of_not_written hw, pollExit_token, hinv]

theorem pollTransfers_of_endsAt (h : t.EndsAt answer r) : t.pollTransfers answer = r + 1 := by
  rcases t.pollTransfers_cases answer with ⟨q, hq, heq⟩ | ⟨hno, -⟩
  · rwa [h.unique hq]
  · exact absurd h (hno r)

theorem written_of_received {b : UInt8} (h : answer r = .received b) :
    (answer r).written = some b := by rw [h]; rfl

theorem pollTransfers_le (t : SpiTransaction) (answer : Nat → HalByte) :
    t.pollTransfers answer ≤ max 1 t.maxRetries.toNat := by
  rcases t.pollTransfers_cases answer with ⟨r, hr, heq⟩ | ⟨-, heq⟩
  · rw [heq]
    exact hr.lt
  · exact Nat.le_of_eq heq

theorem endsAt_of_received {b : UInt8} (h : answer r = .received b) (hb : t.pollExit b = true)
    (hlt : r < t.pollTransfers answer) : t.EndsAt answer r := by
  have hexit : t.pollExit (t.byteAfter answer r) = true := by
    rwa [byteAfter_of_written (written_of_received h)]
  rcases t.pollTransfers_cases answer with ⟨q, hq, heq⟩ | ⟨hno, heq⟩
  · rcases Nat.lt_or_ge r q with hrq | hqr
    · rw [hq.first r hrq] at hexit
      exact absurd hexit Bool.false_ne_true
    · rwa [show r = q by omega]
  · rw [pollExit_of_not_endsAt hno r (by omega)] at hexit
    exact absurd hexit Bool.false_ne_true

theorem pollSound_iff (t : SpiTransaction) (answer : Nat → HalByte) :
    t.PollSound answer ↔ t.PollClean answer := by
  constructor
  · intro hsound
    have hpreset : t.invert = true → (answer 0).written ≠ none := by
      intro hinv hw
      have hend := endsAt_zero_of_preset hinv hw
      obtain ⟨q, hq, hreceived, -⟩ := (hsound.iff _).mp (pollByte_of_endsAt hend)
      rw [pollTransfers_of_endsAt hend] at hq
      rw [show q = 0 by omega] at hreceived
      rw [written_of_received hreceived] at hw
      cases hw
    refine ⟨hpreset, fun r hr => ?_⟩
    have hend := (endsAt_iff_firstHit hpreset).mpr hr
    obtain ⟨q, hq, hreceived, hb⟩ := (hsound.iff _).mp (pollByte_of_endsAt hend)
    have heq := hend.unique (endsAt_of_received hreceived hb hq)
    subst heq
    exact ⟨_, hreceived⟩
  · intro hclean
    refine ⟨t.pollTransfers_le answer, fun b => ?_⟩
    constructor
    · intro hpoll
      rcases t.pollByte_cases answer with ⟨r, hr, heq⟩ | ⟨-, herr, -⟩
      · obtain ⟨x, hx⟩ := hclean.received r ((endsAt_iff_firstHit hclean.preset).mp hr)
        have hbyte := byteAfter_of_written (t := t) (written_of_received hx)
        have hb : x = b := by
          rw [heq, hbyte] at hpoll
          exact congrArg Prod.fst hpoll
        refine ⟨r, ?_, hb ▸ hx, ?_⟩
        · rw [pollTransfers_of_endsAt hr]
          exact Nat.lt_succ_self r
        · rw [← hb, ← hbyte]
          exact hr.exit
      · rw [hpoll] at herr
        cases herr
    · rintro ⟨r, hlt, hreceived, hb⟩
      rw [pollByte_of_endsAt (endsAt_of_received hreceived hb hlt),
        byteAfter_of_written (written_of_received hreceived)]

end SpiTransaction

open SpiTransaction in
theorem idleSound_iff (maxRetries : UInt32) (answer : Nat → HalByte) :
    IdleSound maxRetries (.done answer) ↔ IdleClean maxRetries answer := by
  have hvalue : mPollForIdle maxRetries (.done answer) =
    (((SpiCall.pollForIdle maxRetries).transaction 0).pollByte answer).2 := rfl
  have hinv : ((SpiCall.pollForIdle maxRetries).transaction 0).invert = true := rfl
  rw [IdleSound, hvalue]
  constructor
  · intro hsound
    have hpreset : (answer 0).written ≠ none := by
      intro hw
      have hend := endsAt_zero_of_preset hinv hw
      obtain ⟨a, q, b, ha, hq, hreceived⟩ :=
        hsound (congrArg Prod.snd (pollByte_of_endsAt hend))
      cases ha
      rw [pollTransfers_of_endsAt hend] at hq
      rw [show q = 0 by omega] at hreceived
      rw [written_of_received hreceived] at hw
      cases hw
    refine ⟨hpreset, fun r hr => ?_⟩
    have hend := (endsAt_iff_firstHit fun _ => hpreset).mpr hr
    obtain ⟨a, q, b, ha, hq, hreceived⟩ := hsound (congrArg Prod.snd (pollByte_of_endsAt hend))
    cases ha
    rw [pollTransfers_of_endsAt hend] at hq
    exact ⟨q, b, by omega, hreceived⟩
  · intro hclean hzero
    rcases ((SpiCall.pollForIdle maxRetries).transaction 0).pollByte_cases answer with
      ⟨r, hr, -⟩ | ⟨-, herr, -⟩
    · obtain ⟨j, b, hle, hreceived⟩ :=
        hclean.received r ((endsAt_iff_firstHit fun _ => hclean.preset).mp hr)
      refine ⟨answer, j, b, rfl, ?_, hreceived⟩
      rw [pollTransfers_of_endsAt hr]
      omega
    · rw [hzero] at herr
      cases herr

theorem idleSound_of_not_done {maxRetries : UInt32} {p : IdleOutcome}
    (h : ∀ answer, p ≠ .done answer) : IdleSound maxRetries p := by
  intro hzero
  cases p with
  | refused code => exact absurd hzero (CommCode.value_ne_zero code.property)
  | gaveUp => exact absurd hzero (show HalStatus.timeout.value ≠ 0 by decide)
  | done answer => exact absurd rfl (h answer)

/-- When a byte poll reports what it received, and when a card is reported idle on what it sent. -/
theorem polls_sound_iff (t : SpiTransaction) (answer : Nat → HalByte) (maxRetries : UInt32)
    (p : IdleOutcome) :
    (t.PollSound answer ↔ t.PollClean answer) ∧
    (IdleSound maxRetries p ↔ ∀ answer, p = .done answer → IdleClean maxRetries answer) := by
  refine ⟨t.pollSound_iff answer, ?_⟩
  cases p with
  | done answer =>
    rw [idleSound_iff]
    exact ⟨fun h _ heq => IdleOutcome.done.inj heq ▸ h, fun h => h answer rfl⟩
  | refused code => exact iff_of_true (idleSound_of_not_done nofun) nofun
  | gaveUp => exact iff_of_true (idleSound_of_not_done nofun) nofun

/-- A card is reported idle when the only exchange fails. -/
theorem polls_unsound :
    ¬ ((∀ (t : SpiTransaction) (answer : Nat → HalByte), t.PollSound answer) ∧
      ∀ maxRetries p, IdleSound maxRetries p) := by
  rintro ⟨-, hsound⟩
  obtain ⟨answer, r, b, ha, -, hreceived⟩ := hsound 1 (.done fun _ => .failed none) rfl
  cases ha
  cases hreceived

end CanSniffer.Drivers
