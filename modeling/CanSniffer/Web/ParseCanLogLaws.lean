import CanSniffer.Logging.CanLogSession
import CanSniffer.Web.ParseCanLog

universe u

namespace CanSniffer.Web

open Lib Lib.Bytes Logging

def ParseState.row (s : ParseState) (e : FrameEntry) : TraceEntry :=
  frameRow s e.timestamp.toNat e.canId.toNat e.channel.toNat e.dlcFlags.toNat e.dataLen.toNat
    e.data

def ParseState.log (s : ParseState) : LogEntry → ParseState
  | .frame e => { s with entries := s.entries ++ [s.row e] }
  | .sync e => { s with
      lastSyncLow := some e.timestamp.toNat
      lastSyncHigh := some e.absTimeHigh.toNat }

theorem parseFrame_bytes (s : ParseState) (e : FrameEntry) (pre post : List UInt8) :
    parseFrame (pre ++ (e.toCanLogEntryType.bytes ++ post)) pre.length (LogEntry.frame e).size s =
      s.row e := by
  have hlen : min (min e.dataLen.toNat 64) (e.data.length) = e.data.length := by
    have := e.data_le
    have := e.data_len
    simp only [clbEntryMaxDataLength] at *
    omega
  unfold parseFrame
  simp only [getUint32_append, getUint8_append, slice_append, LogEntry.size_frame,
    sizeofCanLogEntryType, Nat.add_sub_cancel_left]
  simp only [CanLogEntryType.bytes, CanLogEntryHeaderType.bytes, List.cons_append,
    List.append_assoc, List.nil_append, getUint8_cons_succ, getUint32_cons_succ,
    getUint8_le32_append, getUint32_le32_append, getUint8_cons_zero, getUint32_le32,
    slice_cons_succ, slice_le32_append, hlen, slice_append_zero]
  rfl

theorem getUint8_entry (e : LogEntry) (pre post : List UInt8) :
    getUint8 (pre ++ (e.bytes ++ post)) pre.length = e.header.type.toNat ∧
      getUint8 (pre ++ (e.bytes ++ post)) (pre.length + 2) = e.size := by
  obtain ⟨bs, hbs⟩ := e.bytes_eq_header_append
  constructor
  · have := getUint8_append pre (e.bytes ++ post) 0
    rw [Nat.add_zero] at this
    rw [this, hbs]
    rfl
  · rw [getUint8_append, hbs, ← e.total_len]
    rfl

theorem parseRecords_entry (e : LogEntry) (pre post : List UInt8) (s : ParseState)
    (hend : pre.length + e.size ≤ n) :
    parseRecords (pre ++ (e.bytes ++ post)) n pre.length s =
      parseRecords (pre ++ (e.bytes ++ post)) n (pre.length + e.size) (s.log e) := by
  have hsize := e.size_bounds
  obtain ⟨htype, htotal⟩ := getUint8_entry e pre post
  rw [parseRecords, if_pos (by omega)]
  simp only [htype, htotal]
  rw [if_neg (by omega)]
  cases e with
  | frame e =>
    have ht : (LogEntry.frame e).header.type.toNat = 1 := congrArg UInt8.toNat e.type_eq
    rw [if_pos ht, if_neg (by rw [LogEntry.size_frame]; exact Nat.not_lt.mpr (Nat.le_add_right ..))]
    have hrow := parseFrame_bytes s e pre post
    simp only [LogEntry.bytes] at *
    rw [hrow]
    rfl
  | sync e =>
    have ht : (LogEntry.sync e).header.type.toNat = 2 := congrArg UInt8.toNat e.type_eq
    rw [ht, if_neg (by decide), if_pos ⟨rfl, hsize.1⟩]
    congr 1
    simp only [LogEntry.bytes, getUint32_append, CanLogSyncType.bytes,
      CanLogEntryHeaderType.bytes, List.cons_append, List.append_assoc, List.nil_append,
      getUint32_cons_succ, getUint32_le32_append, getUint32_le32]
    rfl

theorem parseRecords_encodeAll (es : List LogEntry) (pre post : List UInt8) (s : ParseState) :
    parseRecords (pre ++ (LogEntry.encodeAll es ++ post))
      (pre.length + (LogEntry.encodeAll es).length) pre.length s = es.foldl ParseState.log s := by
  induction es generalizing pre s with
  | nil =>
    rw [parseRecords, if_neg]
    · rfl
    · simp [LogEntry.encodeAll]
  | cons e es ih =>
    have henc : LogEntry.encodeAll (e :: es) = e.bytes ++ LogEntry.encodeAll es := rfl
    have hpre : (pre ++ e.bytes).length = pre.length + e.size := List.length_append
    have hlen : (LogEntry.encodeAll (e :: es)).length =
        e.size + (LogEntry.encodeAll es).length := List.length_append
    rw [hlen, henc, List.append_assoc, ← Nat.add_assoc,
      parseRecords_entry e pre _ s (Nat.le_add_right ..), List.foldl_cons, ← ih (pre ++ e.bytes),
      hpre, List.append_assoc]

theorem parseBlocks_block {epoch : UInt8} {header : CanLogBlockHeaderType} {es : List LogEntry}
    {b : Block} (h : Emits epoch header es b) (pre post : List UInt8) (s : ParseState)
    {prev : Option Nat} (hprev : prev = none ∨ prev = some epoch.toNat) :
    parseBlocks (pre ++ (b.data ++ post)) pre.length prev s =
      parseBlocks (pre ++ (b.data ++ post)) (pre.length + b.data.length) (some epoch.toNat)
        (es.foldl ParseState.log s) := by
  have hdata : pre ++ (b.data ++ post) = pre ++ (header.bytes ++ (LogEntry.encodeAll es ++
      (List.replicate (blockSize - header.blockFill.toNat) 0xFF ++ post))) := by
    rw [h.data]
    simp only [List.append_assoc]
  have hsize : getUint8 (pre ++ (b.data ++ post)) (pre.length + 1) =
      sizeofCanLogBlockHeaderType := by
    rw [hdata, getUint8_append, ← h.header_size]
    rfl
  have hepoch : getUint8 (pre ++ (b.data ++ post)) (pre.length + 2) = epoch.toNat := by
    rw [hdata, getUint8_append, ← h.epoch_eq]
    rfl
  have hblock : getUint32 (pre ++ (b.data ++ post)) (pre.length + 4) = blockSize := by
    rw [hdata, getUint32_append, ← h.block_size]
    simp [CanLogBlockHeaderType.bytes]
  have hfill : getUint32 (pre ++ (b.data ++ post)) (pre.length + 8) = header.blockFill.toNat := by
    rw [hdata, getUint32_append]
    simp [CanLogBlockHeaderType.bytes]
  have hlen : (pre ++ (b.data ++ post)).length = pre.length + (blockSize + post.length) := by
    rw [List.length_append, List.length_append, h.length_data]
  have hrecords := parseRecords_encodeAll es (pre ++ header.bytes)
    (List.replicate (blockSize - header.blockFill.toNat) 0xFF ++ post) s
  rw [List.append_assoc, List.length_append, CanLogBlockHeaderType.length_bytes, ← hdata,
    Nat.add_assoc, ← h.block_fill] at hrecords
  have hfit := h.fill_le
  rw [parseBlocks, if_pos (by simp only [hlen, blockSize, blockHeaderMinSize]; omega)]
  simp only [hsize, hepoch, hblock, hfill, hlen]
  rw [if_neg (by decide), if_neg (by simp only [blockSize] at *; omega), if_neg, hrecords,
    h.length_data]
  rintro ⟨hnone, hsome⟩
  rcases hprev with hprev | hprev
  · exact hnone hprev
  · exact hsome hprev

theorem parseBlocks_end (view : List UInt8) (prev : Option Nat) (s : ParseState) :
    parseBlocks view view.length prev s = s := by
  rw [parseBlocks, if_neg]
  simp only [blockHeaderMinSize]
  omega

theorem parseBlocks_data {epoch : UInt8} {gs : List (List LogEntry)} {bs : List Block}
    (h : List.Forall₂ (Carries epoch) gs bs) (pre : List UInt8) (s : ParseState)
    {prev : Option Nat} (hprev : prev = none ∨ prev = some epoch.toNat) :
    parseBlocks (pre ++ bs.flatMap Block.data) pre.length prev s =
      gs.flatten.foldl ParseState.log s := by
  induction h generalizing pre s prev with
  | nil =>
    rw [List.flatMap_nil, List.append_nil, parseBlocks_end]
    rfl
  | @cons es b gs bs hc _ ih =>
    obtain ⟨header, hc⟩ := hc
    rw [List.flatMap_cons, parseBlocks_block hc pre _ s hprev, List.flatten_cons,
      List.foldl_append, ← ih (pre ++ b.data) _ (.inr rfl), List.length_append, List.append_assoc]

theorem parseCanLog_eq {epoch : UInt8} {gs : List (List LogEntry)} {bs : List Block}
    (h : List.Forall₂ (Carries epoch) gs bs) :
    parseCanLog (bs.flatMap Block.data) =
      (gs.flatten.foldl ParseState.log .init).entries.mergeSort sortsBefore := by
  unfold parseCanLog
  have := parseBlocks_data h [] .init (.inl rfl)
  rw [List.nil_append, List.length_nil] at this
  rw [this]

/-- The row shows the frame: every field, and the low word of its time. -/
structure Shows (r : TraceEntry) (e : FrameEntry) : Prop where
  can_id : r.canId = e.canId.toNat
  channel : r.channel = e.channel.toNat
  dlc : r.dlc = e.dlcFlags.toNat &&& 0x0f
  flags : r.flags = e.dlcFlags.toNat &&& 0xf0
  is_extended : r.isExtended = (e.dlcFlags.toNat &&& 0xf0 &&& Flag.ide ≠ 0)
  data : r.data = e.data.map fun b => hex b.toNat
  timestamp : r.timestampUs % UInt32.size = e.timestamp.toNat

def unhex (cs : List Char) : Nat :=
  cs.foldl (fun n c => 16 * n + (if c.isDigit then c.toNat - 48 else c.toNat - 87)) 0

theorem unhex_hex : ∀ b : Fin 256, unhex ((Nat.toDigits 16 b).leftpad 2 '0') = b := by
  decide +kernel

theorem hex_injective {a b : UInt8} (h : hex a.toNat = hex b.toNat) : a = b := by
  have ha := unhex_hex ⟨a.toNat, a.toNat_lt⟩
  rw [String.ofList_injective h, unhex_hex ⟨b.toNat, b.toNat_lt⟩] at ha
  exact UInt8.toNat_inj.mp ha.symm

theorem shiftLeft_or (high : Nat) {low : Nat} (h : low < UInt32.size) :
    high <<< 32 ||| low = high * UInt32.size + low := by
  rw [← Nat.shiftLeft_add_eq_or_of_lt h, Nat.shiftLeft_eq]

theorem timestamp64_mod (s : ParseState) {tsLow : Nat} (h : tsLow < UInt32.size) :
    timestamp64 s tsLow % UInt32.size = tsLow := by
  have hor (high : Nat) : (high <<< 32 ||| tsLow) % UInt32.size = tsLow := by
    rw [shiftLeft_or high h, Nat.mul_add_mod_self_right, Nat.mod_eq_of_lt h]
  unfold timestamp64
  split
  · exact Nat.mod_eq_of_lt h
  · split
    · exact hor _
    · split <;> exact hor _

theorem shows_row (s : ParseState) (e : FrameEntry) : Shows (s.row e) e where
  can_id := rfl
  channel := rfl
  dlc := rfl
  flags := rfl
  is_extended := by simp [ParseState.row, frameRow]
  data := rfl
  timestamp := timestamp64_mod s e.timestamp.toNat_lt

def IsRow (r : TraceEntry) (e : FrameEntry) : Prop := ∃ s : ParseState, r = s.row e

theorem IsRow.shows (h : IsRow r e) : Shows r e := by
  obtain ⟨s, rfl⟩ := h
  exact shows_row s e

theorem foldl_log_rows (es : List LogEntry) (s : ParseState) :
    ∃ rs, (es.foldl ParseState.log s).entries = s.entries ++ rs ∧
      List.Forall₂ IsRow rs (LogEntry.frames es) := by
  induction es generalizing s with
  | nil => exact ⟨[], by simp, .nil⟩
  | cons e es ih =>
    obtain ⟨rs, hrs, hall⟩ := ih (s.log e)
    cases e with
    | frame e =>
      refine ⟨s.row e :: rs, ?_, .cons ⟨s, rfl⟩ hall⟩
      rw [List.foldl_cons, hrs]
      simp [ParseState.log]
    | sync e => exact ⟨rs, hrs, hall⟩

section Session

variable {ρ : Type u} [Lwrb ρ] [LawfulLwrb ρ]

theorem parseCanLog_rows {s₀ : CanLogBuffer ρ} {cs : List BufferCall} {s : Session ρ}
    (h : Step.run Session.step (Session.start s₀) cs = some s) :
    ∃ es, s.accepted = es ++ s.buf.stagedEntries ∧
      ∃ rs, (parseCanLog (s.consumed.flatMap Block.data)).Perm rs ∧
        List.Forall₂ IsRow rs (LogEntry.frames es) := by
  obtain ⟨l, hinv⟩ := Session.run_inv h
  obtain ⟨gs, hg, hacc⟩ := hinv.consumed
  obtain ⟨rs, hrs, hall⟩ := foldl_log_rows gs.flatten .init
  refine ⟨gs.flatten, ?_, rs, ?_, hall⟩
  · rw [hacc, CanLogBuffer.stagedEntries_eq hinv.represents]
  · rw [parseCanLog_eq hg, hrs]
    exact List.mergeSort_perm ..

/-- Whatever the run and wherever entries fell across blocks, the parser shows the frames that
have left the ring, each once. -/
theorem parseCanLog_log {s₀ : CanLogBuffer ρ} {cs : List BufferCall} {s : Session ρ}
    (h : Step.run Session.step (Session.start s₀) cs = some s) :
    ∃ es, s.accepted = es ++ s.buf.stagedEntries ∧
      ∃ rs, (parseCanLog (s.consumed.flatMap Block.data)).Perm rs ∧
        List.Forall₂ Shows rs (LogEntry.frames es) := by
  obtain ⟨es, hacc, rs, hperm, hrows⟩ := parseCanLog_rows h
  exact ⟨es, hacc, rs, hperm, hrows.imp fun _ _ => IsRow.shows⟩

theorem parseCanLog_log_frames : ∃ s : Session ByteQueue,
    Step.run Session.step (Session.start .boot) [.addEntry (.sync (.ofFields 0 0 0)),
      .addEntry (.frame (.ofFields 3 5 0x123 1 2 [7, 9] (by decide))),
      .addEntry (.frame (.ofFields 4 6 0x7FF 2 1 [8] (by decide))),
      .fillBlockWithPadding, .isBlockReady, .readNextBlock, .consume] = some s ∧
    s.accepted.length = 3 ∧ s.consumed.length = 1 ∧
    ∃ es, s.accepted = es ++ s.buf.stagedEntries ∧
      ∃ rs, (parseCanLog (s.consumed.flatMap Block.data)).Perm rs ∧
        List.Forall₂ Shows rs (LogEntry.frames es) := by
  obtain ⟨s, h, hacc, b, hcons⟩ := Session.store_entries (ρ := ByteQueue) .boot
    [.sync (.ofFields 0 0 0), .frame (.ofFields 3 5 0x123 1 2 [7, 9] (by decide)),
      .frame (.ofFields 4 6 0x7FF 2 1 [8] (by decide))] (by simp) (by decide)
  exact ⟨s, h, congrArg List.length hacc, congrArg List.length hcons, parseCanLog_log h⟩

end Session

end CanSniffer.Web
