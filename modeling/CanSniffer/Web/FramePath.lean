import CanSniffer.Drivers.Fdcan
import CanSniffer.Logging.FillEntry
import CanSniffer.Web.ParseCanLogLaws

universe u

namespace CanSniffer.Web

open Lib Drivers Logging

def loggedEntry (m : RxMessage) (slot : ClassicFrame) (beyond : Vector UInt8 56)
    (timestamp rxSequence : UInt32) (channel : UInt8) : FrameEntry :=
  let frame := (fdcanRead slot true (some m) true).frame
  let frame := { frame with timestamp, rxSequence, channel }
  appCanLogFillEntry frame (fits_fdcanRead slot m true) beyond frame.timestamp frame.channel

def IsClassic (m : RxMessage) : Prop :=
  m.header.fdFormat = false ∧ m.header.bitRateSwitch = false

def kindText : RxFrameType → String
  | .data => "Classic"
  | .remote => "Classic RTR"

def receivedBytes (m : RxMessage) : List UInt8 :=
  m.data.toList.take (min m.header.dataLength 8)

structure Preserves (m : RxMessage) (channel : UInt8) (r : TraceEntry) : Prop where
  can_id : r.canId = m.header.identifier.toNat
  is_extended : r.isExtended = m.header.extendedId
  kind : r.typeDisplay = kindText m.header.rxFrameType
  dlc : r.dlc = m.header.dataLength
  channel : r.channel = channel.toNat
  data : r.data = (receivedBytes m).map fun b => hex b.toNat

theorem map_hex_injective {as bs : List UInt8}
    (h : as.map (fun b => hex b.toNat) = bs.map fun b => hex b.toNat) : as = bs := by
  induction as generalizing bs with
  | nil => simpa using h.symm
  | cons a as ih =>
    cases bs with
    | nil => simp at h
    | cons b bs =>
      obtain ⟨hab, hrest⟩ := List.cons.inj h
      rw [hex_injective hab, ih hrest]

theorem Preserves.unique {m m' : RxMessage} {channel channel' : UInt8} {r : TraceEntry}
    (h : Preserves m channel r) (h' : Preserves m' channel' r) :
    m.header.identifier = m'.header.identifier ∧ m.header.extendedId = m'.header.extendedId ∧
      m.header.rxFrameType = m'.header.rxFrameType ∧
      m.header.dataLength = m'.header.dataLength ∧ channel = channel' ∧
      receivedBytes m = receivedBytes m' := by
  refine ⟨?_, ?_, ?_, ?_, ?_, ?_⟩
  · exact UInt32.toNat_inj.mp (h.can_id.symm.trans h'.can_id)
  · exact h.is_extended.symm.trans h'.is_extended
  · have hkind := h.kind.symm.trans h'.kind
    cases hm : m.header.rxFrameType <;> cases hm' : m'.header.rxFrameType <;>
      simp [hm, hm', kindText] at hkind ⊢
  · exact Fin.ext (h.dlc.symm.trans h'.dlc)
  · exact UInt8.toNat_inj.mp (h.channel.symm.trans h'.channel)
  · exact map_hex_injective (h.data.symm.trans h'.data)

theorem dlcFlags_bits : ∀ (ide esi : Bool) (dlc : Fin 16),
    let flags := packFlags ⟨0, ide, .data, dlc, esi, false, false, 0⟩
    let entry : UInt8 := makeDlcFlags (FlagField.dlc.get flags).toUInt8
      (FlagField.brs.get flags <<< 6 ||| FlagField.esi.get flags <<< 7 |||
        FlagField.fdf.get flags <<< 5 ||| FlagField.ide.get flags <<< 4).toUInt8
    entry.toNat &&& 0x0f = dlc ∧ (entry.toNat &&& 0xf0 &&& Flag.ide ≠ 0 ↔ ide = true) ∧
      entry.toNat &&& 0xf0 &&& Flag.rtrFdf = 0 ∧ entry.toNat &&& 0xf0 &&& Flag.brs = 0 := by
  decide +kernel

theorem loggedEntry_flags {m : RxMessage} (hm : IsClassic m) (slot : ClassicFrame)
    (beyond : Vector UInt8 56) (timestamp rxSequence : UInt32) (channel : UInt8) :
    let flags := (loggedEntry m slot beyond timestamp rxSequence channel).dlcFlags.toNat
    flags &&& 0x0f = m.header.dataLength ∧
      (flags &&& 0xf0 &&& Flag.ide ≠ 0 ↔ m.header.extendedId = true) ∧
      flags &&& 0xf0 &&& Flag.rtrFdf = 0 ∧ flags &&& 0xf0 &&& Flag.brs = 0 := by
  obtain ⟨⟨identifier, ide, kind, dlc, esi, brs, fdf, rxTimestamp⟩, data⟩ := m
  obtain ⟨rfl, rfl⟩ : fdf = false ∧ brs = false := hm
  exact dlcFlags_bits ide esi dlc

theorem dlcAndLength_small : ∀ dlc : Fin 16, dlc ≤ 8 → (dlcAndLength dlc).2.toNat = dlc := by
  decide +kernel

theorem dlcAndLength_large : ∀ dlc : Fin 16, ¬ dlc ≤ 8 → 8 < (dlcAndLength dlc).2.toNat := by
  decide +kernel

theorem dataLen_loggedEntry (m : RxMessage) (slot : ClassicFrame) (beyond : Vector UInt8 56)
    (timestamp rxSequence : UInt32) (channel : UInt8) :
    (loggedEntry m slot beyond timestamp rxSequence channel).dataLen.toNat =
      (dlcAndLength m.header.dataLength).2.toNat := by
  obtain ⟨-, -, -, -, -, hlen⟩ := get_packFlags m.header
  have hle := dataLen_packFlags_le m.header
  have : (loggedEntry m slot beyond timestamp rxSequence channel).dataLen =
      (FlagField.dataLen.get (packFlags m.header)).toUInt8 := rfl
  rw [this, UInt16.toNat_toUInt8, ← hlen]
  omega

theorem data_loggedEntry {m : RxMessage} (h : m.header.dataLength ≤ 8) (slot : ClassicFrame)
    (beyond : Vector UInt8 56) (timestamp rxSequence : UInt32) (channel : UInt8) :
    (loggedEntry m slot beyond timestamp rxSequence channel).data = receivedBytes m := by
  obtain ⟨-, -, -, -, -, hget⟩ := get_packFlags m.header
  have hlen : (FlagField.dataLen.get (packFlags m.header)).toNat = m.header.dataLength := by
    rw [hget, dlcAndLength_small _ h]
  have h8 : m.header.dataLength.val ≤ 8 := h
  have hdata : (loggedEntry m slot beyond timestamp rxSequence channel).data =
      ((fdcanRead slot true (some m) true).frame.data ++ beyond).toList.take
        (FlagField.dataLen.get (packFlags m.header)).toNat := rfl
  rw [hdata, hlen, receivedBytes, Nat.min_eq_left h8]
  apply List.ext_getElem
  · simp
  · intro i hi _
    have hi : i < m.header.dataLength.val := Nat.lt_of_lt_of_le hi (List.length_take_le ..)
    have hclamp : (if 64 < m.header.dataLength.val then 64 else m.header.dataLength.val) =
        m.header.dataLength := if_neg (by omega)
    simp only [fdcanRead, if_true, hlen, hclamp, List.getElem_take, Vector.getElem_toList]
    rw [Vector.getElem_append_left (by omega)]
    simp [hi]

theorem overrun_eq_nil_iff (m : RxMessage) (slot : ClassicFrame) (activated : Bool) :
    (fdcanRead slot true (some m) activated).overrun = [] ↔ m.header.dataLength ≤ 8 := by
  obtain ⟨-, -, -, -, -, hget⟩ := get_packFlags m.header
  have hle := dataLen_packFlags_le m.header
  have hover : (fdcanRead slot true (some m) activated).overrun = (m.data.toList.take
      (FlagField.dataLen.get (packFlags m.header)).toNat).drop 8 := by
    simp only [fdcanRead, if_true]
    rw [if_neg (Nat.not_lt.mpr hle)]
  rw [hover, List.drop_eq_nil_iff, List.length_take, Vector.length_toList, Nat.min_eq_left hle,
    hget]
  constructor
  · intro hlen
    by_cases hsmall : m.header.dataLength ≤ 8
    · exact hsmall
    · exact absurd (dlcAndLength_large _ hsmall) (Nat.not_lt.mpr hlen)
  · intro hsmall
    rw [dlcAndLength_small _ hsmall]
    exact hsmall

theorem preserves_iff {m : RxMessage} (hm : IsClassic m) {slot : ClassicFrame}
    {beyond : Vector UInt8 56} {timestamp rxSequence : UInt32} {channel : UInt8} {r : TraceEntry}
    (hr : IsRow r (loggedEntry m slot beyond timestamp rxSequence channel)) :
    Preserves m channel r ∧ (fdcanRead slot true (some m) true).overrun = [] ↔
      m.header.rxFrameType = .data ∧ m.header.dataLength ≤ 8 := by
  obtain ⟨s, rfl⟩ := hr
  obtain ⟨hdlc, hide, hfdf, hbrs⟩ := loggedEntry_flags hm slot beyond timestamp rxSequence channel
  have hlen := dataLen_loggedEntry m slot beyond timestamp rxSequence channel
  rw [overrun_eq_nil_iff]
  have hkind (h8 : m.header.dataLength ≤ 8) :
      (s.row (loggedEntry m slot beyond timestamp rxSequence channel)).typeDisplay =
        "Classic" := by
    have : ¬ 8 < (loggedEntry m slot beyond timestamp rxSequence channel).dataLen.toNat := by
      rw [hlen, dlcAndLength_small _ h8]
      exact Nat.not_lt.mpr h8
    simp [ParseState.row, frameRow, hfdf, hbrs, this]
  constructor
  · rintro ⟨hp, h8⟩
    refine ⟨?_, h8⟩
    have hk := hp.kind.symm.trans (hkind h8)
    cases hm' : m.header.rxFrameType with
    | data => rfl
    | remote => simp [hm', kindText] at hk
  · rintro ⟨hdata, h8⟩
    refine ⟨⟨rfl, ?_, ?_, hdlc, rfl, ?_⟩, h8⟩
    · simp [ParseState.row, frameRow, hide]
    · rw [hkind h8, hdata]
      rfl
    · rw [← data_loggedEntry h8 slot beyond timestamp rxSequence channel]
      rfl

def remoteMessage : RxMessage where
  header := ⟨0x123, false, .remote, 2, false, false, false, 1000⟩
  data := .replicate 64 0

def dataMessage : RxMessage where
  header := ⟨0x123, false, .data, 2, false, false, false, 1000⟩
  data := .replicate 64 0

/-- A remote frame is logged as the data frame of the same length, in whatever state the parser
meets it. -/
theorem remote_logged_as_data : IsClassic remoteMessage ∧ IsClassic dataMessage ∧
    remoteMessage.header.rxFrameType ≠ dataMessage.header.rxFrameType ∧
    loggedEntry remoteMessage .zero (.replicate 56 0) 1000 0 1 =
      loggedEntry dataMessage .zero (.replicate 56 0) 1000 0 1 ∧
    ∀ s : ParseState,
      ¬ Preserves remoteMessage 1
        (s.row (loggedEntry remoteMessage .zero (.replicate 56 0) 1000 0 1)) := by
  refine ⟨⟨rfl, rfl⟩, ⟨rfl, rfl⟩, by decide, rfl, ?_⟩
  intro s h
  have hm : IsClassic remoteMessage := ⟨rfl, rfl⟩
  have hr : IsRow (s.row (loggedEntry remoteMessage .zero (.replicate 56 0) 1000 0 1))
      (loggedEntry remoteMessage .zero (.replicate 56 0) 1000 0 1) := ⟨s, rfl⟩
  have hover := (overrun_eq_nil_iff remoteMessage .zero true).mpr (by decide)
  exact absurd ((preserves_iff hm hr).mp ⟨h, hover⟩).1 (by decide)

section Session

variable {ρ : Type u} [Lwrb ρ] [LawfulLwrb ρ]

/-- Through the log and back, a classic frame is kept, and read within its bounds, exactly when it
is a data frame of length code at most eight; rows that keep their frames tell them apart. -/
theorem frame_preserved_iff {s₀ : CanLogBuffer ρ} {cs : List BufferCall} {s : Session ρ}
    (h : Step.run Session.step (Session.start s₀) cs = some s) :
    (∃ es, s.accepted = es ++ s.buf.stagedEntries ∧
      ∃ rs, (parseCanLog (s.consumed.flatMap Block.data)).Perm rs ∧
        List.Forall₂ (fun r e => ∀ m slot beyond timestamp rxSequence channel, IsClassic m →
          e = loggedEntry m slot beyond timestamp rxSequence channel →
          (Preserves m channel r ∧ (fdcanRead slot true (some m) true).overrun = [] ↔
            m.header.rxFrameType = .data ∧ m.header.dataLength ≤ 8)) rs (LogEntry.frames es)) ∧
    ∀ m m' channel channel' r, Preserves m channel r → Preserves m' channel' r →
      m.header.identifier = m'.header.identifier ∧ m.header.extendedId = m'.header.extendedId ∧
        m.header.rxFrameType = m'.header.rxFrameType ∧
        m.header.dataLength = m'.header.dataLength ∧ channel = channel' ∧
        receivedBytes m = receivedBytes m' := by
  obtain ⟨es, hacc, rs, hperm, hrows⟩ := parseCanLog_rows h
  refine ⟨⟨es, hacc, rs, hperm, hrows.imp ?_⟩, fun _ _ _ _ _ => Preserves.unique⟩
  rintro r e hr m slot beyond timestamp rxSequence channel hm rfl
  exact preserves_iff hm hr

theorem frame_preserved_iff_data : ∃ s : Session ByteQueue,
    Step.run Session.step (Session.start .boot)
      [.addEntry (.frame (loggedEntry dataMessage .zero (.replicate 56 0) 1000 0 1)),
        .addEntry (.frame (loggedEntry remoteMessage .zero (.replicate 56 0) 1200 1 1)),
        .fillBlockWithPadding, .isBlockReady, .readNextBlock, .consume] = some s ∧
    s.accepted.length = 2 ∧ s.consumed.length = 1 ∧
    (∃ es, s.accepted = es ++ s.buf.stagedEntries ∧
      ∃ rs, (parseCanLog (s.consumed.flatMap Block.data)).Perm rs ∧
        List.Forall₂ (fun r e => ∀ m slot beyond timestamp rxSequence channel, IsClassic m →
          e = loggedEntry m slot beyond timestamp rxSequence channel →
          (Preserves m channel r ∧ (fdcanRead slot true (some m) true).overrun = [] ↔
            m.header.rxFrameType = .data ∧ m.header.dataLength ≤ 8)) rs (LogEntry.frames es)) := by
  obtain ⟨s, h, hacc, b, hcons⟩ := Session.store_entries (ρ := ByteQueue) .boot
    [.frame (loggedEntry dataMessage .zero (.replicate 56 0) 1000 0 1),
      .frame (loggedEntry remoteMessage .zero (.replicate 56 0) 1200 1 1)] (by simp) (by decide)
  exact ⟨s, h, congrArg List.length hacc, congrArg List.length hcons, (frame_preserved_iff h).1⟩

end Session

end CanSniffer.Web
