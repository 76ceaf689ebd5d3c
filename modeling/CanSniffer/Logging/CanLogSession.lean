import CanSniffer.Lib.Transition
import CanSniffer.Logging.CanLogBufferLaws

universe u

namespace CanSniffer.Logging

open Lib Lib.Bytes

variable {ρ : Type u} [Lwrb ρ]

def Block.payload (b : Block) : List LogEntry :=
  let headerSize := getUint8 b.data 1
  let blockFill := getUint32 b.data 8
  LogEntry.codec.decodeAll (slice b.data headerSize (blockFill - headerSize))

/-- The entries in the ring, block after block, each block after its header. -/
def stagedFrom (bs : List UInt8) : List LogEntry :=
  if bs = [] then []
  else
    LogEntry.codec.decodeAll ((bs.take blockSize).drop sizeofCanLogBlockHeaderType) ++
      stagedFrom (bs.drop blockSize)
termination_by bs.length
decreasing_by
  have := List.length_pos_iff.mpr ‹_›
  simp only [List.length_drop, blockSize]
  omega

def CanLogBuffer.stagedEntries (s : CanLogBuffer ρ) : List LogEntry :=
  stagedFrom (Lwrb.contents s.rb1)

structure Emits (epoch : UInt8) (header : CanLogBlockHeaderType) (es : List LogEntry)
    (b : Block) : Prop where
  version : header.version = canlogVersion
  header_size : header.headerSize.toNat = sizeofCanLogBlockHeaderType
  epoch_eq : header.epoch = epoch
  block_size : header.blockSize.toNat = blockSize
  block_fill : header.blockFill.toNat =
    sizeofCanLogBlockHeaderType + (LogEntry.encodeAll es).length
  fill_le : header.blockFill.toNat ≤ blockSize
  entries_count : header.entriesCount.toNat = es.length
  nonempty : es ≠ []
  frame_count : b.frameCount = es.countP LogEntry.isFrame
  len : b.len = blockSize
  data : b.data = header.bytes ++ (LogEntry.encodeAll es ++
    List.replicate (blockSize - header.blockFill.toNat) 0xFF)
  length_data : b.data.length = blockSize

def Carries (epoch : UInt8) (es : List LogEntry) (b : Block) : Prop :=
  ∃ header, Emits epoch header es b

structure Session (ρ : Type u) where
  buf : CanLogBuffer ρ
  lastRead : Option Block
  accepted : List LogEntry
  emitted : List Block
  consumed : List Block

inductive BufferCall
  | addEntry : LogEntry → BufferCall
  | fillBlockWithPadding
  | isBlockReady
  | readNextBlock
  | consume

namespace Session

def start (s : CanLogBuffer ρ) : Session ρ where
  buf := s.init
  lastRead := none
  accepted := []
  emitted := []
  consumed := []

def afterRead (s : Session ρ) (buf : CanLogBuffer ρ) : Except ClbReturnType Block → Session ρ
  | .ok b => { s with buf, lastRead := some b, emitted := s.emitted ++ [b] }
  | .error _ => { s with buf }

/-- `consume` gives back the block of the last successful read, once. -/
def step [LawfulLwrb ρ] : Step (Session ρ) BufferCall
  | s, .addEntry e =>
    let r := s.buf.addEntry e.bytes e.size
    some { s with buf := r.1, accepted := if r.2 = .ok then s.accepted ++ [e] else s.accepted }
  | s, .fillBlockWithPadding => some { s with buf := s.buf.fillBlockWithPadding.1 }
  | s, .isBlockReady => some s
  | s, .readNextBlock => some (s.afterRead s.buf.readNextBlock.1 s.buf.readNextBlock.2)
  | s, .consume => s.lastRead.map fun b => { s with
      buf := s.buf.consume b.len b.frameCount
      lastRead := none
      consumed := s.consumed ++ [b] }

end Session

theorem read_padding (n : Nat) : LogEntry.read (List.replicate n 0xFF) = none := by
  apply LogEntry.read_eq_none <;> cases n <;> simp [getUint8]

theorem decodeAll_padding (es : List LogEntry) (n : Nat) :
    LogEntry.codec.decodeAll (LogEntry.encodeAll es ++ List.replicate n 0xFF) = es :=
  LogEntry.codec.decodeAll_encodeAll es (read_padding n)

theorem decodeAll_body (b : LogBlock) : LogEntry.codec.decodeAll (body b) = b.entries :=
  decodeAll_padding _ _

namespace Emits

theorem payload_eq (h : Emits epoch header es b) : b.payload = es := by
  have hhead : getUint8 b.data 1 = sizeofCanLogBlockHeaderType := by
    rw [← h.header_size, h.data]
    simp [CanLogBlockHeaderType.bytes]
  have hfill : getUint32 b.data 8 = header.blockFill.toNat := by
    rw [h.data]
    simp [CanLogBlockHeaderType.bytes]
  unfold Block.payload
  simp only [hhead, hfill]
  have hslice : slice b.data sizeofCanLogBlockHeaderType
      (header.blockFill.toNat - sizeofCanLogBlockHeaderType) = LogEntry.encodeAll es := by
    rw [h.block_fill, Nat.add_sub_cancel_left, h.data, slice]
    rw [List.drop_left' header.length_bytes, List.take_left]
  rw [hslice]
  simpa using decodeAll_padding es 0

end Emits

theorem stagedFrom_images {blocks : List LogBlock} {images : List (List UInt8)}
    (h : List.Forall₂ IsImage blocks images) (bs : List UInt8) :
    stagedFrom (images.flatten ++ bs) = blocks.flatMap Sealed.entries ++ stagedFrom bs := by
  induction h with
  | nil => rfl
  | @cons b image _ _ hi _ ih =>
    have hlen := hi.length_eq
    obtain ⟨header, hh, rfl⟩ := hi
    have hne : header ++ body b ≠ [] := by
      intro hnil
      rw [hnil] at hlen
      contradiction
    rw [List.flatten_cons, List.append_assoc, stagedFrom,
      if_neg fun hnil => hne (List.append_eq_nil_iff.mp hnil).1]
    rw [List.take_left' hlen, List.drop_left' hlen, List.drop_left' hh, decodeAll_body, ih,
      List.flatMap_cons, List.append_assoc]

theorem stagedFrom_openBytes (l : CanLog) : stagedFrom (openBytes l.current) = l.current := by
  by_cases hcur : l.current = []
  · rw [hcur, stagedFrom]
    simp
  · have hlen := length_openBytes l
    have hlt : l.openLen < blockSize := l.openLen_lt
    have hne : openBytes l.current ≠ [] := by
      rw [openBytes_of_ne hcur]
      simp [headerPlaceholder, sizeofCanLogBlockHeaderType]
    rw [stagedFrom, if_neg hne, List.take_of_length_le (by omega),
      List.drop_eq_nil_of_le (by omega : (openBytes l.current).length ≤ blockSize),
      openBytes_of_ne hcur, List.drop_left' (by rfl), stagedFrom, if_pos rfl, List.append_nil]
    simpa using decodeAll_padding l.current 0

theorem CanLogBuffer.stagedEntries_eq {s : CanLogBuffer ρ} {l : CanLog}
    (h : Represents s.rb1 l) : s.stagedEntries = l.entries := by
  obtain ⟨images, hi, hc⟩ := h.bytes
  rw [stagedEntries, hc, stagedFrom_images hi, stagedFrom_openBytes]
  rfl

omit [Lwrb ρ] in
theorem CanLogBuffer.carries_emitted (s : CanLogBuffer ρ) (b : LogBlock) :
    Carries s.epochCount b.entries (s.emitted b) := by
  have hfits : canLogLayout.fill b.entries ≤ blockSize := b.fits
  have hcount : b.entries.length ≤ (LogEntry.encodeAll b.entries).length :=
    LogEntry.codec.length_le_length_encodeAll b.entries
  have hfill := fill_eq b.entries
  have hbf : (s.blockHeader b).blockFill.toNat = canLogLayout.fill b.entries := by
    simp only [blockHeader, UInt32.toNat_ofNat', blockSize] at *
    omega
  refine ⟨s.blockHeader b, ?_⟩
  constructor
  case version => rfl
  case header_size => rfl
  case epoch_eq => rfl
  case block_size => rfl
  case block_fill => exact hbf.trans hfill
  case fill_le => exact Nat.le_trans (Nat.le_of_eq hbf) hfits
  case entries_count =>
    simp only [blockHeader, UInt32.toNat_ofNat', blockSize] at *
    omega
  case nonempty => exact b.nonempty
  case frame_count => rfl
  case len => rfl
  case data =>
    rw [hbf]
    rfl
  case length_data => exact List.length_append.trans (length_body b)

namespace Session

variable [LawfulLwrb ρ] {s t : Session ρ} {l : CanLog} {epoch : UInt8}

/-- What every call keeps: the ring stands for a log, and what was consumed went before it. -/
structure Inv (epoch : UInt8) (s : Session ρ) (l : CanLog) : Prop where
  represents : Represents s.buf.rb1 l
  epoch_eq : s.buf.epochCount = epoch
  consumed : ∃ gs, List.Forall₂ (Carries epoch) gs s.consumed ∧
    s.accepted = gs.flatten ++ l.entries
  emitted : ∀ b ∈ s.emitted, ∃ es, Carries epoch es b
  last_read : ∀ b ∈ s.lastRead, ∃ lb l', l.take = some (lb, l') ∧ Carries epoch lb.entries b

theorem Inv.start (s : CanLogBuffer ρ) :
    Inv s.epochCount (Session.start s) BlockLog.empty where
  represents := CanLogBuffer.init_spec
  epoch_eq := rfl
  consumed := ⟨[], .nil, rfl⟩
  emitted := by simp [Session.start]
  last_read := by simp [Session.start]

theorem take_append {l l' m : CanLog} {lb : LogBlock} {bs : List LogBlock}
    (h : l.take = some (lb, m)) (hc : l'.complete = l.complete ++ bs) :
    ∃ m', l'.take = some (lb, m') := by
  obtain ⟨hl, -⟩ := BlockLog.take_eq_some h
  exact BlockLog.take_of_cons (hc.trans (by rw [hl, List.cons_append]))

theorem Inv.addEntry (h : Inv epoch s l) (e : LogEntry) :
    Inv epoch { s with
      buf := (s.buf.addEntry e.bytes e.size).1
      accepted := if (s.buf.addEntry e.bytes e.size).2 = .ok then s.accepted ++ [e]
        else s.accepted } ((l.add e).getD l) := by
  have hspec := CanLogBuffer.addEntry_spec h.represents e
  obtain ⟨gs, hg, hacc⟩ := h.consumed
  cases hadd : l.add e with
  | none =>
    rw [hadd] at hspec
    simp only at hspec
    rw [hspec]
    exact ⟨h.represents, h.epoch_eq, h.consumed, h.emitted, h.last_read⟩
  | some l' =>
    rw [hadd] at hspec
    obtain ⟨rb1, hok, hrep⟩ := hspec
    rw [hok]
    refine ⟨hrep, h.epoch_eq, ⟨gs, hg, ?_⟩, h.emitted, ?_⟩
    · rw [if_pos rfl, hacc, Option.getD_some, BlockLog.entries_add hadd, List.append_assoc]
    · intro b hb
      obtain ⟨lb, m, ht, hcarry⟩ := h.last_read b hb
      obtain ⟨bs, hbs⟩ := BlockLog.complete_add hadd
      obtain ⟨m', ht'⟩ := take_append ht hbs
      exact ⟨lb, m', ht', hcarry⟩

theorem Inv.fillBlockWithPadding (h : Inv epoch s l) :
    Inv epoch { s with buf := s.buf.fillBlockWithPadding.1 } (l.pad.getD l) := by
  have hspec := CanLogBuffer.fillBlockWithPadding_spec h.represents
  obtain ⟨gs, hg, hacc⟩ := h.consumed
  cases hpad : l.pad with
  | none =>
    rw [hpad] at hspec
    simp only at hspec
    rw [hspec]
    exact ⟨h.represents, h.epoch_eq, h.consumed, h.emitted, h.last_read⟩
  | some l' =>
    rw [hpad] at hspec
    obtain ⟨rb1, hok, hrep⟩ := hspec
    rw [hok]
    refine ⟨hrep, h.epoch_eq, ⟨gs, hg, ?_⟩, h.emitted, ?_⟩
    · rw [Option.getD_some, BlockLog.entries_pad hpad, hacc]
    · intro b hb
      obtain ⟨lb, m, ht, hcarry⟩ := h.last_read b hb
      obtain ⟨bs, hbs⟩ := BlockLog.complete_pad hpad
      obtain ⟨m', ht'⟩ := take_append ht hbs
      exact ⟨lb, m', ht', hcarry⟩

theorem Inv.readNextBlock (h : Inv epoch s l) :
    Inv epoch (s.afterRead s.buf.readNextBlock.1 s.buf.readNextBlock.2) l := by
  have hspec := CanLogBuffer.readNextBlock_spec h.represents
  cases hl : l.complete with
  | nil =>
    rw [hl] at hspec
    simp only at hspec
    rw [hspec]
    exact ⟨h.represents, h.epoch_eq, h.consumed, h.emitted, h.last_read⟩
  | cons lb bs =>
    rw [hl] at hspec
    obtain ⟨rb1, hok, hrep⟩ := hspec
    have hcarry := s.buf.carries_emitted lb
    rw [h.epoch_eq] at hcarry
    rw [hok]
    refine ⟨hrep, h.epoch_eq, h.consumed, ?_, ?_⟩
    · intro b hb
      rcases List.mem_append.mp hb with hb | hb
      · exact h.emitted b hb
      · obtain rfl := List.mem_singleton.mp hb
        exact ⟨lb.entries, hcarry⟩
    · intro b hb
      obtain rfl : s.buf.emitted lb = b := Option.some.inj hb
      obtain ⟨m, ht⟩ := BlockLog.take_of_cons hl
      exact ⟨lb, m, ht, hcarry⟩

theorem Inv.consume (h : Inv epoch s l) (hb : s.lastRead = some b) :
    ∃ lb l', l.take = some (lb, l') ∧ Inv epoch { s with
      buf := s.buf.consume b.len b.frameCount
      lastRead := none
      consumed := s.consumed ++ [b] } l' := by
  obtain ⟨lb, l', ht, header, hcarry⟩ := h.last_read b hb
  obtain ⟨gs, hg, hacc⟩ := h.consumed
  have hrep := CanLogBuffer.consume_spec h.represents ht b.frameCount
  refine ⟨lb, l', ht, ?_, h.epoch_eq, ⟨gs ++ [lb.entries], ?_, ?_⟩, h.emitted, by simp⟩
  · rwa [hcarry.len]
  · exact List.rel_append hg (.cons ⟨header, hcarry⟩ .nil)
  · rw [hacc, BlockLog.entries_take ht]
    simp

theorem step_inv {c : BufferCall} (h : ∃ l, Inv epoch s l) (hs : step s c = some t) :
    ∃ l, Inv epoch t l := by
  obtain ⟨l, h⟩ := h
  cases c with
  | addEntry e =>
    cases hs
    exact ⟨_, h.addEntry e⟩
  | fillBlockWithPadding =>
    cases hs
    exact ⟨_, h.fillBlockWithPadding⟩
  | isBlockReady =>
    cases hs
    exact ⟨l, h⟩
  | readNextBlock =>
    cases hs
    exact ⟨l, h.readNextBlock⟩
  | consume =>
    obtain ⟨b, hb, rfl⟩ := Option.map_eq_some_iff.mp hs
    obtain ⟨-, l', -, h'⟩ := h.consume hb
    exact ⟨l', h'⟩

theorem run_inv {s₀ : CanLogBuffer ρ} {cs : List BufferCall}
    (h : Step.run step (start s₀) cs = some s) : ∃ l, Inv s₀.epochCount s l :=
  Step.run_invariant (I := fun s => ∃ l, Inv s₀.epochCount s l) step_inv
    ⟨BlockLog.empty, Inv.start s₀⟩ h

theorem flatMap_payload {gs : List (List LogEntry)} {bs : List Block}
    (h : List.Forall₂ (Carries epoch) gs bs) : bs.flatMap Block.payload = gs.flatten := by
  induction h with
  | nil => rfl
  | cons hc _ ih =>
    obtain ⟨header, hc⟩ := hc
    rw [List.flatMap_cons, hc.payload_eq, ih, List.flatten_cons]

theorem Inv.ready (h : Inv epoch s l) (hr : s.buf.isBlockReady = true) :
    ∃ b, s.buf.readNextBlock.2 = .ok b := by
  have hspec := CanLogBuffer.readNextBlock_spec h.represents
  have hne := (CanLogBuffer.isBlockReady_iff h.represents).mp hr
  cases hl : l.complete with
  | nil => contradiction
  | cons lb bs =>
    rw [hl] at hspec
    obtain ⟨rb1, hok, -⟩ := hspec
    exact ⟨_, congrArg Prod.snd hok⟩

/-- Nothing is lost, repeated or reordered between `AddEntry` and the consumed blocks, every
block that goes out is whole, and a block that is ready can be read. -/
theorem log_conserved {s₀ : CanLogBuffer ρ} {cs : List BufferCall}
    (h : Step.run step (start s₀) cs = some s) :
    s.consumed.flatMap Block.payload ++ s.buf.stagedEntries = s.accepted ∧
    (∀ b ∈ s.emitted, ∃ es, Carries s₀.epochCount es b) ∧
    (s.buf.isBlockReady = true → ∃ b, s.buf.readNextBlock.2 = .ok b) := by
  obtain ⟨l, hinv⟩ := run_inv h
  obtain ⟨gs, hg, hacc⟩ := hinv.consumed
  refine ⟨?_, hinv.emitted, hinv.ready⟩
  rw [flatMap_payload hg, CanLogBuffer.stagedEntries_eq hinv.represents, hacc]

theorem Inv.store (h : Inv epoch s l) (ht : l.take = some (lb, l')) :
    ∃ t, Step.run step s [.readNextBlock, .consume] = some t ∧ Inv epoch t l' ∧
      t.accepted = s.accepted ∧ ∃ b, t.consumed = s.consumed ++ [b] := by
  obtain ⟨hl, -⟩ := BlockLog.take_eq_some ht
  have hspec := CanLogBuffer.readNextBlock_spec h.represents
  rw [hl] at hspec
  obtain ⟨rb1, hok, -⟩ := hspec
  have hread := h.readNextBlock
  rw [hok] at hread
  obtain ⟨lb', m, ht', hinv⟩ := hread.consume (b := s.buf.emitted lb) rfl
  obtain ⟨-, rfl⟩ := Prod.mk.inj (Option.some.inj (ht'.symm.trans ht))
  refine ⟨_, ?_, hinv, rfl, _, rfl⟩
  simp only [Step.run, step, hok]
  rfl

theorem Inv.addEntries (h : Inv epoch s l) (es : List LogEntry)
    (hroom : canLogLayout.fill (l.current ++ es) < canLogLayout.block) :
    ∃ buf l', Step.run step s (es.map .addEntry) =
        some { s with buf, accepted := s.accepted ++ es } ∧
      Inv epoch { s with buf, accepted := s.accepted ++ es } l' ∧
      l'.complete = l.complete ∧ l'.current = l.current ++ es := by
  induction es generalizing s l with
  | nil =>
    rw [List.append_nil]
    exact ⟨s.buf, l, rfl, h, rfl, (List.append_nil _).symm⟩
  | cons e es ih =>
    rw [List.append_cons] at hroom
    have hlt : canLogLayout.fill l.current + canLogLayout.size e < canLogLayout.block := by
      rw [← Layout.fill_append_singleton]
      simp only [Layout.fill, Layout.total_append] at hroom ⊢
      omega
    obtain ⟨l₁, hadd, hc₁, hu₁⟩ := BlockLog.add_of_lt hlt
    have hok : (s.buf.addEntry e.bytes e.size).2 = .ok := by
      apply (CanLogBuffer.addEntry_ok_iff h.represents e).mpr
      rw [hadd]
      rfl
    have h₁ := h.addEntry e
    rw [hadd, Option.getD_some, if_pos hok] at h₁
    obtain ⟨buf, l', hrun, hinv, hc, hu⟩ := ih h₁ (by rwa [hu₁])
    rw [← List.append_cons] at hrun hinv
    refine ⟨buf, l', ?_, hinv, hc.trans hc₁, ?_⟩
    · rw [List.map_cons, Step.run_cons_eq_some]
      refine ⟨_, rfl, ?_⟩
      rw [if_pos hok]
      exact hrun
    · rw [hu, hu₁, ← List.append_cons]

def closeBlock (es : List LogEntry) : List BufferCall :=
  es.map .addEntry ++ [.fillBlockWithPadding, .isBlockReady]

theorem run_closeBlock (s₀ : CanLogBuffer ρ) (es : List LogEntry) (hne : es ≠ [])
    (hroom : canLogLayout.fill es < canLogLayout.block) :
    ∃ buf l lb, Step.run step (start s₀) (closeBlock es) =
        some { start s₀ with buf, accepted := es } ∧
      Inv s₀.epochCount { start s₀ with buf, accepted := es } l ∧ l.complete = [lb] ∧
      l.current = [] := by
  obtain ⟨buf, l₁, hadds, h₁, hc₁, hu₁⟩ := (Inv.start s₀).addEntries es hroom
  have hu : l₁.current = es := hu₁
  obtain ⟨lb, l₂, hpad, -, hc₂, hu₂⟩ := BlockLog.pad_of_lt (l := l₁) (by rwa [hu]) (by
    rw [hc₁]
    decide)
  have h₂ := h₁.fillBlockWithPadding
  rw [hpad, Option.getD_some] at h₂
  rw [hc₁] at hc₂
  exact ⟨_, l₂, lb, Step.run_append_eq_some.mpr ⟨_, hadds, rfl⟩, h₂, hc₂, hu₂⟩

theorem store_entries (s₀ : CanLogBuffer ρ) (es : List LogEntry) (hne : es ≠ [])
    (hroom : canLogLayout.fill es < canLogLayout.block) :
    ∃ t, Step.run step (start s₀) (closeBlock es ++ [.readNextBlock, .consume]) = some t ∧
      t.accepted = es ∧ ∃ b, t.consumed = [b] := by
  obtain ⟨buf, l, lb, hclose, h, hl, -⟩ := run_closeBlock s₀ es hne hroom
  obtain ⟨l', ht⟩ := BlockLog.take_of_cons hl
  obtain ⟨t, hrun, -, hacc, b, hcons⟩ := h.store ht
  exact ⟨t, Step.run_append_eq_some.mpr ⟨_, hclose, hrun⟩, hacc, b, hcons⟩

theorem log_conserved_entries : ∃ s : Session ByteQueue,
    Step.run step (start .boot) [.addEntry (.sync (.ofFields 3 7 1)),
      .addEntry (.frame (.ofFields 3 5 0x123 1 2 [7, 9] (by decide))),
      .addEntry (.sync (.ofFields 3 9 1)), .fillBlockWithPadding, .isBlockReady,
      .readNextBlock, .consume] = some s ∧
    s.accepted.length = 3 ∧ s.consumed.length = 1 ∧
    s.consumed.flatMap Block.payload ++ s.buf.stagedEntries = s.accepted ∧
    (∀ b ∈ s.emitted, ∃ es, Carries 0 es b) ∧
    (s.buf.isBlockReady = true → ∃ b, s.buf.readNextBlock.2 = .ok b) := by
  obtain ⟨s, h, hacc, b, hcons⟩ := store_entries (ρ := ByteQueue) .boot
    [.sync (.ofFields 3 7 1), .frame (.ofFields 3 5 0x123 1 2 [7, 9] (by decide)),
      .sync (.ofFields 3 9 1)] (by simp) (by decide)
  exact ⟨s, h, congrArg List.length hacc, congrArg List.length hcons, log_conserved h⟩

end Session

end CanSniffer.Logging
