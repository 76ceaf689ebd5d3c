import CanSniffer.Logging.CanLogSession

universe u

namespace CanSniffer.Logging

open Lib Lib.Bytes

def paddingLen (block : List UInt8) : Nat :=
  blockSize - (sizeofCanLogBlockHeaderType +
    (LogEntry.encodeAll (LogEntry.codec.decodeAll
      (block.drop sizeofCanLogBlockHeaderType))).length)

/-- Every block that has bytes staged behind it ends with less than an entry header of padding. -/
def ShortPadding (bs : List UInt8) : Prop :=
  if blockSize < bs.length then
    paddingLen (bs.take blockSize) < 3 ∧ ShortPadding (bs.drop blockSize)
  else True
termination_by bs.length
decreasing_by
  simp only [List.length_drop, blockSize] at *
  omega

def Tight : List LogBlock → List LogEntry → Prop
  | [], _ => True
  | b :: blocks, current =>
    (blocks.flatMap Sealed.entries ++ current ≠ [] →
      blockSize - canLogLayout.fill b.entries < 3) ∧ Tight blocks current

theorem paddingLen_image {b : LogBlock} {header : List UInt8}
    (hlen : header.length = sizeofCanLogBlockHeaderType) :
    paddingLen (header ++ body b) = blockSize - canLogLayout.fill b.entries := by
  rw [paddingLen, List.drop_left' hlen, decodeAll_body, fill_eq]

theorem length_staged {blocks : List LogBlock} {images : List (List UInt8)} (l : CanLog)
    (hi : List.Forall₂ IsImage blocks images) :
    0 < (images.flatten ++ openBytes l.current).length ↔
      blocks.flatMap Sealed.entries ++ l.current ≠ [] := by
  have hopen := length_openBytes l
  cases hi with
  | nil =>
    change 0 < (openBytes l.current).length ↔ l.current ≠ []
    rw [hopen, Nat.pos_iff_ne_zero, ne_eq, BlockLog.openLen_eq_zero_iff]
  | cons hb hrest =>
    rename_i b image blocks images
    have hlen := hb.length_eq
    rw [List.flatten_cons, List.length_append, List.length_append, hlen, List.flatMap_cons,
      List.append_assoc]
    constructor
    · intro _ hnil
      exact b.nonempty (List.append_eq_nil_iff.mp hnil).1
    · intro _
      simp only [blockSize]
      omega

theorem tight_nil {blocks : List LogBlock} {current : List LogEntry}
    (h : blocks.flatMap Sealed.entries ++ current = []) : Tight blocks current := by
  cases blocks with
  | nil => trivial
  | cons b blocks =>
    rw [List.flatMap_cons, List.append_assoc] at h
    exact absurd (List.append_eq_nil_iff.mp h).1 b.nonempty

theorem shortPadding_iff {blocks : List LogBlock} {images : List (List UInt8)} (l : CanLog)
    (hi : List.Forall₂ IsImage blocks images) :
    ShortPadding (images.flatten ++ openBytes l.current) ↔ Tight blocks l.current := by
  induction hi with
  | nil =>
    have hlen := length_openBytes l
    have hlt : l.openLen < blockSize := l.openLen_lt
    rw [List.flatten_nil, List.nil_append, ShortPadding, if_neg (by omega)]
    rfl
  | cons hb hrest ih =>
    rename_i b image blocks images
    have hlen := hb.length_eq
    have hpos := length_staged l hrest
    obtain ⟨header, hheader, rfl⟩ := hb
    rw [List.flatten_cons, List.append_assoc, ShortPadding, List.take_left' hlen,
      List.drop_left' hlen, paddingLen_image hheader, ih, Tight, ← hpos, List.length_append, hlen]
    split
    · rename_i h
      have hmore : 0 < (images.flatten ++ openBytes l.current).length := by omega
      simp only [hmore, true_implies]
    · rename_i h
      have hnone : ¬ 0 < (images.flatten ++ openBytes l.current).length := by omega
      have htight : Tight blocks l.current := tight_nil (by
        rw [hpos] at hnone
        exact of_not_not hnone)
      simp only [hnone, false_implies, htight, and_self]

theorem counted_eq_iff (blocks : List LogBlock) (current : List LogEntry) :
    CanLogBuffer.counted blocks current =
      (blocks.flatMap Sealed.entries ++ current).length ↔ Tight blocks current := by
  induction blocks with
  | nil => exact ⟨fun _ => trivial, fun _ => rfl⟩
  | cons b blocks ih =>
    rw [CanLogBuffer.counted, Tight, List.flatMap_cons, List.append_assoc, List.length_append,
      ← ih]
    split
    · rename_i hshort
      constructor
      · intro h
        exact ⟨fun _ => hshort, Nat.add_left_cancel h⟩
      · rintro ⟨-, hrest⟩
        rw [hrest]
    · rename_i hlong
      rw [← List.length_pos_iff]
      constructor
      · intro h
        have hnil : blocks.flatMap Sealed.entries ++ current = [] :=
          List.length_eq_zero_iff.mp (by omega)
        have hcounted := (ih.mpr (tight_nil hnil))
        exact ⟨fun hpos => by omega, hcounted⟩
      · rintro ⟨hpos, -⟩
        have hnone : ¬ 0 < (blocks.flatMap Sealed.entries ++ current).length :=
          fun h => hlong (hpos h)
        omega

namespace Session

variable {ρ : Type u} [Lwrb ρ] [LawfulLwrb ρ]

/-- In any run the slots counted are the entries not yet consumed exactly when the padding between
them is short, and there are none exactly when nothing is staged. -/
theorem usedSlots_iff (s₀ : CanLogBuffer ρ) (cs : List BufferCall) (s : Session ρ)
    (h : Step.run step (start s₀) cs = some s) :
    ∃ staged, s.accepted = s.consumed.flatMap Block.payload ++ staged ∧
      (s.buf.usedSlots = staged.length ↔ ShortPadding (Lwrb.contents s.buf.rb1)) ∧
      (s.buf.usedSlots = 0 ↔ staged = []) := by
  obtain ⟨l, hinv⟩ := run_inv h
  obtain ⟨gs, hg, hacc⟩ := hinv.consumed
  have hused := CanLogBuffer.usedSlots_eq hinv.represents
  have hpos := CanLogBuffer.usedSlots_pos_iff hinv.represents
  obtain ⟨images, hi, hc⟩ := hinv.represents.bytes
  refine ⟨l.entries, by rw [hacc, flatMap_payload hg], ?_, ?_⟩
  · rw [hc, shortPadding_iff l hi, hused, ← counted_eq_iff]
    rfl
  · rw [Nat.pos_iff_ne_zero] at hpos
    exact not_iff_not.mp hpos

theorem entry_behind_block (s₀ : CanLogBuffer ρ) (e e' : LogEntry) :
    ∃ s, Step.run step (start s₀) [.addEntry e, .fillBlockWithPadding, .addEntry e'] = some s ∧
      s.accepted = [e, e'] ∧ s.consumed = [] ∧
      ∃ b : LogBlock, b.entries = [e] ∧ s.buf.usedSlots = CanLogBuffer.counted [b] [e'] := by
  have hroom (e : LogEntry) : canLogLayout.fill [] + canLogLayout.size e < canLogLayout.block :=
    canLogLayout.room e
  obtain ⟨l₁, hadd, hc₁, hu₁⟩ := BlockLog.add_of_lt (l := (BlockLog.empty : CanLog)) (hroom e)
  obtain ⟨b, l₂, hpad, hb, hc₂, hu₂⟩ := BlockLog.pad_of_lt (l := l₁) (by rw [hu₁]; simp) (by
    rw [hc₁]
    decide)
  obtain ⟨l₃, hadd', hc₃, hu₃⟩ := BlockLog.add_of_lt (l := l₂) (e := e') (by
    rw [hu₂]
    exact hroom e')
  have h₁ := (Inv.start s₀).addEntry e
  rw [hadd, Option.getD_some] at h₁
  have h₂ := h₁.fillBlockWithPadding
  rw [hpad, Option.getD_some] at h₂
  have h₃ := h₂.addEntry e'
  rw [hadd', Option.getD_some] at h₃
  have hok : ((start s₀).buf.addEntry e.bytes e.size).2 = .ok := by
    apply (CanLogBuffer.addEntry_ok_iff (Inv.start s₀).represents e).mpr
    rw [hadd]
    rfl
  have hok' := (CanLogBuffer.addEntry_ok_iff h₂.represents e').mpr (by rw [hadd']; rfl)
  refine ⟨_, rfl, ?_, rfl, b, ?_, ?_⟩
  · simp only [hok, hok', if_true]
    rfl
  · rw [hb, hu₁]
    rfl
  · have hused := CanLogBuffer.usedSlots_eq h₃.represents
    rw [hc₃, hu₃, hc₂, hu₂, hc₁] at hused
    exact hused

/-- Two staged entries, one counted. -/
theorem usedSlots_one_of_two : ∃ s : Session ByteQueue,
    Step.run step (start .boot) [.addEntry (.sync (.ofFields 3 7 1)), .fillBlockWithPadding,
      .addEntry (.sync (.ofFields 3 8 1))] = some s ∧
    s.accepted.length = 2 ∧ s.consumed = [] ∧ s.buf.usedSlots = 1 := by
  obtain ⟨s, hrun, hacc, hcons, b, hb, hused⟩ := entry_behind_block (ρ := ByteQueue) .boot
    (.sync (.ofFields 3 7 1)) (.sync (.ofFields 3 8 1))
  refine ⟨s, hrun, by rw [hacc]; rfl, hcons, ?_⟩
  rw [hused, CanLogBuffer.counted, hb, if_neg (by decide)]
  rfl

theorem usedSlots_sync : ∃ s : Session ByteQueue,
    Step.run step (start .boot) [.addEntry (.sync (.ofFields 3 7 1)), .fillBlockWithPadding,
      .addEntry (.sync (.ofFields 3 8 1))] = some s ∧
    ∃ staged, s.accepted = s.consumed.flatMap Block.payload ++ staged ∧
      (s.buf.usedSlots = staged.length ↔ ShortPadding (Lwrb.contents s.buf.rb1)) ∧
      (s.buf.usedSlots = 0 ↔ staged = []) := by
  obtain ⟨s, hrun, -⟩ := entry_behind_block (ρ := ByteQueue) .boot
    (.sync (.ofFields 3 7 1)) (.sync (.ofFields 3 8 1))
  exact ⟨s, hrun, usedSlots_iff .boot _ s hrun⟩

end Session

end CanSniffer.Logging
