import Mathlib.Data.List.Forall2
import CanSniffer.Lib.BlockLog
import CanSniffer.Logging.CanLogBuffer

/-! The staging ring refines a log of blocks: what every call does to the ring is
what the block log's operation of the same purpose does to the entries. -/

universe u

namespace CanSniffer.Logging

open Lib Lib.Bytes

def canLogLayout : Layout LogEntry where
  block := blockSize
  header := sizeofCanLogBlockHeaderType
  ring := 8
  size := LogEntry.size
  size_pos e := by
    have := e.size_bounds
    omega
  header_lt := by decide
  room e := by
    have := e.size_bounds
    simp only [sizeofCanLogBlockHeaderType, blockSize]
    omega
  ring_pos := by decide

abbrev CanLog := BlockLog canLogLayout

abbrev LogBlock := Sealed canLogLayout

theorem fill_eq (es : List LogEntry) :
    canLogLayout.fill es = sizeofCanLogBlockHeaderType + (LogEntry.encodeAll es).length := by
  have h : canLogLayout.total es = (LogEntry.encodeAll es).length := by
    induction es with
    | nil => rfl
    | cons e es ih => exact (congrArg (e.size + ·) ih).trans List.length_append.symm
  exact congrArg (sizeofCanLogBlockHeaderType + ·) h

def body (b : LogBlock) : List UInt8 :=
  LogEntry.encodeAll b.entries ++ List.replicate (blockSize - canLogLayout.fill b.entries) 0xFF

theorem length_body (b : LogBlock) :
    sizeofCanLogBlockHeaderType + (body b).length = blockSize := by
  have h : canLogLayout.fill b.entries ≤ blockSize := b.fits
  have := fill_eq b.entries
  simp only [body, List.length_append, List.length_replicate]
  omega

/-- The header bytes are left open: they are filled in when the block is read. -/
def IsImage (b : LogBlock) (bytes : List UInt8) : Prop :=
  ∃ header, header.length = sizeofCanLogBlockHeaderType ∧ bytes = header ++ body b

theorem IsImage.length_eq (h : IsImage b bytes) : bytes.length = blockSize := by
  obtain ⟨header, hlen, rfl⟩ := h
  rw [List.length_append, hlen, length_body]

theorem length_flatten_images (h : List.Forall₂ IsImage blocks images) :
    images.flatten.length = blocks.length * blockSize := by
  induction h with
  | nil => simp
  | cons h _ ih =>
    simp only [List.flatten_cons, List.length_append, List.length_cons, h.length_eq, ih,
      Nat.succ_mul]
    omega

def openBytes (es : List LogEntry) : List UInt8 :=
  if es = [] then [] else headerPlaceholder ++ LogEntry.encodeAll es

@[simp] theorem openBytes_nil : openBytes [] = [] := rfl

theorem openBytes_of_ne (h : es ≠ []) :
    openBytes es = headerPlaceholder ++ LogEntry.encodeAll es := if_neg h

theorem openBytes_append (h : es ≠ []) (e : LogEntry) :
    openBytes (es ++ [e]) = openBytes es ++ e.bytes := by
  rw [openBytes_of_ne h, openBytes_of_ne (by simp)]
  simp [LogEntry.encodeAll, LogEntry.codec]

theorem openBytes_singleton (e : LogEntry) : openBytes [e] = headerPlaceholder ++ e.bytes := by
  simp [openBytes, LogEntry.encodeAll, LogEntry.codec]

theorem length_openBytes (l : CanLog) : (openBytes l.current).length = l.openLen := by
  by_cases h : l.current = []
  · simp [h, BlockLog.openLen]
  · rw [openBytes_of_ne h, BlockLog.openLen_of_ne h, fill_eq, List.length_append]
    rfl

section Ring

variable {ρ : Type u} [Lwrb ρ]

/-- The ring starts on a block boundary and holds these closed blocks, then `tail`. -/
structure Staged (rb : ρ) (blocks : List LogBlock) (tail : List UInt8) : Prop where
  size_eq : Lwrb.size rb = logBufferSize
  aligned : Lwrb.rPtr rb % blockSize = 0
  bytes : ∃ images, List.Forall₂ IsImage blocks images ∧
    Lwrb.contents rb = images.flatten ++ tail

def Represents (rb : ρ) (l : CanLog) : Prop := Staged rb l.complete (openBytes l.current)

variable {rb : ρ}

namespace Staged

theorem close {b : LogBlock} (header : List UInt8) (h : Staged rb blocks (header ++ body b))
    (hlen : header.length = sizeofCanLogBlockHeaderType) : Staged rb (blocks ++ [b]) [] := by
  obtain ⟨images, hi, hc⟩ := h.bytes
  refine ⟨h.size_eq, h.aligned, images ++ [header ++ body b], ?_, by simp [hc]⟩
  exact List.rel_append hi (.cons ⟨header, hlen, rfl⟩ .nil)

variable [LawfulLwrb ρ]

theorem full (h : Staged rb blocks tail) :
    Lwrb.getFull rb = blocks.length * blockSize + tail.length := by
  obtain ⟨images, hi, hc⟩ := h.bytes
  rw [Lwrb.getFull_eq, hc, List.length_append, length_flatten_images hi]

theorem free (h : Staged rb blocks tail) :
    Lwrb.getFree rb = logBufferSize - 1 - (blocks.length * blockSize + tail.length) := by
  rw [LawfulLwrb.getFree_eq, h.size_eq, h.full]

theorem wPtr_mod (h : Staged rb blocks tail) (ht : tail.length < blockSize) :
    Lwrb.wPtr rb % blockSize = tail.length := by
  have := h.aligned
  rw [LawfulLwrb.wPtr_eq, h.size_eq, h.full]
  simp only [blockSize, logBufferSize] at *
  omega

theorem linearWrite (h : Staged rb blocks tail) (ht : tail.length < blockSize) :
    Lwrb.linearWrite rb < blockSize - tail.length ↔
      Lwrb.getFree rb < blockSize - tail.length := by
  have hw := h.wPtr_mod ht
  have hlt : Lwrb.wPtr rb < logBufferSize := by
    rw [LawfulLwrb.wPtr_eq, h.size_eq]
    exact Nat.mod_lt _ (by decide)
  rw [LawfulLwrb.linearWrite_eq, h.size_eq]
  simp only [blockSize, logBufferSize] at *
  omega

theorem linearRead (h : Staged rb blocks tail) (hb : blocks ≠ []) :
    blockSize ≤ Lwrb.linearRead rb := by
  have hf := h.full
  have ha := h.aligned
  have hr := LawfulLwrb.rPtr_lt rb
  have := List.length_pos_iff.mpr hb
  rw [LawfulLwrb.linearRead_eq, h.size_eq]
  rw [h.size_eq] at hr
  simp only [blockSize, logBufferSize] at *
  omega

theorem write (h : Staged rb blocks tail) (bs : List UInt8)
    (hf : bs.length ≤ Lwrb.getFree rb) :
    Staged (Lwrb.write rb bs).1 blocks (tail ++ bs) ∧ (Lwrb.write rb bs).2 = bs.length := by
  obtain ⟨images, hi, hc⟩ := h.bytes
  obtain ⟨hn, hw⟩ := Lwrb.write_fits hf
  refine ⟨⟨?_, ?_, images, hi, ?_⟩, hn⟩
  · rw [LawfulLwrb.size_write, h.size_eq]
  · rw [LawfulLwrb.rPtr_write, h.aligned]
  · rw [hw, hc, List.append_assoc]

theorem writePadding {rb : ρ} {n : Nat} (h : Staged rb blocks tail)
    (hf : n ≤ Lwrb.getFree rb) :
    ∃ rb', Logging.writePadding rb n = (rb', true) ∧
      Staged rb' blocks (tail ++ List.replicate n 0xFF) := by
  fun_induction Logging.writePadding rb n generalizing tail with
  | case1 rb n hn chunk w =>
    rename_i hw
    have hle := chunkLen_le n
    have hlen : (paddingChunk.take chunk).length = chunk := length_take_paddingChunk n
    exact absurd ((h.write _ (by omega)).2.trans hlen).symm hw
  | case2 rb n hn chunk w hw =>
    rename_i ih
    have hle : chunk ≤ n := chunkLen_le n
    have hlen : (paddingChunk.take chunk).length = chunk := length_take_paddingChunk n
    have hfree : Lwrb.getFree w.1 = _ := Lwrb.getFree_write rb (paddingChunk.take chunk)
    obtain ⟨hs, -⟩ := h.write (paddingChunk.take chunk) (by omega)
    obtain ⟨rb', hp, hs'⟩ := ih hs (by omega)
    refine ⟨rb', hp, ?_⟩
    have hrep : paddingChunk.take chunk ++ List.replicate (n - chunk) 0xFF =
        List.replicate n 0xFF := by
      have hmin : min (chunkLen n) 32 = chunkLen n := by
        simpa [paddingChunk] using hlen
      simp only [chunk, paddingChunk, List.take_replicate, hmin, List.replicate_append_replicate]
      congr 1
      omega
    rwa [List.append_assoc, hrep] at hs'
  | case3 rb n hn =>
    obtain rfl : n = 0 := by omega
    exact ⟨rb, rfl, by simpa using h⟩

theorem skip_block {b : LogBlock} (h : Staged rb (b :: blocks) tail) :
    Staged (Lwrb.skip rb blockSize) blocks tail := by
  obtain ⟨_, hi, hc⟩ := h.bytes
  obtain ⟨image, images, hb, hrest, rfl⟩ := List.forall₂_cons_left_iff.mp hi
  have hf := h.full
  have ha := h.aligned
  refine ⟨?_, ?_, images, hrest, ?_⟩
  · rw [LawfulLwrb.size_skip, h.size_eq]
  · rw [LawfulLwrb.rPtr_skip, h.size_eq]
    simp only [List.length_cons, blockSize, logBufferSize] at *
    omega
  · rw [LawfulLwrb.contents_skip, hc, List.flatten_cons, List.append_assoc]
    exact List.drop_left' hb.length_eq

end Staged

end Ring

namespace CanLogBuffer

variable {ρ : Type u} [Lwrb ρ] {s : CanLogBuffer ρ}

def stored (s : CanLogBuffer ρ) (e : LogEntry) (rb1 : ρ) : CanLogBuffer ρ :=
  { s with rb1, frameCount1 := if e.isFrame then s.frameCount1 + 1 else s.frameCount1 }

theorem entry_type (e : LogEntry) :
    getUint8 e.bytes 0 = clbEntryTypeFrame.toNat ↔ e.isFrame = true := by
  obtain ⟨bs, h⟩ := e.bytes_eq_header_append
  rw [h]
  simp only [CanLogEntryHeaderType.bytes, List.cons_append, getUint8_cons_zero, e.type_eq]
  cases e.isFrame <;> decide

variable [LawfulLwrb ρ]

theorem addEntry_room {e : LogEntry} (h : Staged s.rb1 blocks tail) (hpos : 0 < tail.length)
    (hroom : tail.length + e.size ≤ blockSize) (hfree : e.size ≤ Lwrb.getFree s.rb1) :
    ∃ rb1, s.addEntry e.bytes e.size = (s.stored e rb1, .ok) ∧
      Staged rb1 blocks (tail ++ e.bytes) := by
  have hsize := e.size_bounds
  have hoff := h.wPtr_mod (by omega)
  have hw := h.write e.bytes hfree
  have htake : e.bytes.take e.size = e.bytes := List.take_length
  refine ⟨_, ?_, hw.1⟩
  rw [addEntry]
  simp only [hoff, htake, hw.2]
  rw [if_neg (by omega), if_neg (by omega), if_neg (by omega),
    if_pos (show e.size = e.bytes.length from rfl)]
  simp only [entry_type, stored]

theorem addEntry_full {e : LogEntry} (h : Staged s.rb1 blocks tail) (hpos : 0 < tail.length)
    (htail : tail.length < blockSize) (hroom : blockSize ≤ tail.length + e.size)
    (hfree : Lwrb.getFree s.rb1 < blockSize - tail.length) :
    s.addEntry e.bytes e.size = (s, .bufferFull) := by
  have hoff := h.wPtr_mod htail
  rw [addEntry]
  simp only [hoff]
  rw [if_neg (by omega)]
  by_cases hgt : blockSize - tail.length < e.size
  · rw [if_pos hgt, if_pos hfree]
  · rw [if_neg hgt, if_pos (by omega)]

/-- An empty tail means the write pointer is on a block boundary: the header goes first. -/
theorem addEntry_start {e : LogEntry} (h : Staged s.rb1 blocks [])
    (hfree : blockSize ≤ Lwrb.getFree s.rb1 + 1) :
    ∃ rb1, s.addEntry e.bytes e.size = (s.stored e rb1, .ok) ∧
      Staged rb1 blocks (openBytes [e]) := by
  have hsize := e.size_bounds
  have hoff : Lwrb.wPtr s.rb1 % blockSize = 0 := h.wPtr_mod (by decide)
  have hlen : headerPlaceholder.length = 20 := rfl
  simp only [blockSize] at hfree
  have hw := h.write headerPlaceholder (by omega)
  rw [addEntry]
  simp only [hoff, if_true, hw.2]
  rw [if_neg (by omega), if_neg (by simp)]
  rw [openBytes_singleton]
  apply addEntry_room (s := { s with rb1 := _ }) hw.1
  · rw [List.nil_append, hlen]
    decide
  · rw [List.nil_append, hlen]
    simp only [blockSize]
    omega
  · rw [Lwrb.getFree_write]
    omega

theorem addEntry_pad {e : LogEntry} (h : Staged s.rb1 blocks tail) (hpos : 0 < tail.length)
    (htail : tail.length < blockSize) (hroom : blockSize < tail.length + e.size)
    (hfree : blockSize - tail.length ≤ Lwrb.getFree s.rb1) :
    ∃ rb1, s.addEntry e.bytes e.size = addEntry { s with rb1 } e.bytes e.size ∧
      Staged rb1 blocks (tail ++ List.replicate (blockSize - tail.length) 0xFF) := by
  have hoff := h.wPtr_mod htail
  obtain ⟨rb1, hp, hs⟩ := h.writePadding hfree
  refine ⟨rb1, ?_, hs⟩
  rw [addEntry]
  simp only [hoff]
  rw [if_neg (by omega), if_pos (by omega), if_neg (by omega)]
  split
  · next hq =>
    rw [hoff, hp] at hq
    simp at hq
  · next hq =>
    rw [hoff, hp] at hq
    cases hq
    rfl

end CanLogBuffer

theorem openBytes_close {b : LogBlock} :
    openBytes b.entries ++ List.replicate (blockSize - canLogLayout.fill b.entries) 0xFF =
      headerPlaceholder ++ body b := by
  rw [openBytes_of_ne b.nonempty, body, List.append_assoc]

namespace CanLogBuffer

variable {ρ : Type u} [Lwrb ρ] [LawfulLwrb ρ] {s : CanLogBuffer ρ} {l : CanLog}

theorem getFree_eq (h : Represents s.rb1 l) :
    Lwrb.getFree s.rb1 = logBufferSize - 1 - (l.complete.length * blockSize + l.openLen) := by
  rw [Staged.free h, length_openBytes]

theorem addEntry_open {e : LogEntry} (h : Represents s.rb1 l)
    (hlt : canLogLayout.fill l.current + e.size < blockSize) :
    ∃ rb1, s.addEntry e.bytes e.size = (s.stored e rb1, .ok) ∧
      Staged rb1 l.complete (openBytes (l.current ++ [e])) := by
  have hfree := getFree_eq h
  have hbound : l.complete.length < 8 := l.bound
  have hopen := length_openBytes l
  by_cases hcur : l.current = []
  · rw [BlockLog.openLen_eq_zero_iff.mpr hcur] at hfree
    simp only [Represents, hcur, openBytes_nil] at h
    simp only [hcur, List.nil_append]
    apply addEntry_start h
    simp only [blockSize, logBufferSize] at *
    omega
  · have hpos := Layout.header_lt_fill (L := canLogLayout) hcur
    rw [BlockLog.openLen_of_ne hcur] at hopen hfree
    rw [openBytes_append hcur]
    apply addEntry_room h
    · omega
    · omega
    · simp only [blockSize, logBufferSize] at *
      omega

theorem addEntry_fill {e : LogEntry} {b : LogBlock} (h : Represents s.rb1 l)
    (heq : canLogLayout.fill l.current + e.size = blockSize) (hcur : l.current ≠ [])
    (hb : l.complete.length + 1 < 8) (hbe : b.entries = l.current ++ [e]) :
    ∃ rb1, s.addEntry e.bytes e.size = (s.stored e rb1, .ok) ∧
      Staged rb1 (l.complete ++ [b]) [] := by
  have hfree := getFree_eq h
  have hopen := length_openBytes l
  have hpos := Layout.header_lt_fill (L := canLogLayout) hcur
  rw [BlockLog.openLen_of_ne hcur] at hopen hfree
  obtain ⟨rb1, hok, hs⟩ := addEntry_room h (e := e) (by omega) (by omega) (by
    simp only [blockSize, logBufferSize] at *
    omega)
  refine ⟨rb1, hok, Staged.close headerPlaceholder ?_ rfl⟩
  have hfill : canLogLayout.fill b.entries = blockSize := by
    rw [hbe, Layout.fill_append_singleton]
    exact heq
  rw [← openBytes_close, hfill, hbe, openBytes_append hcur]
  simpa using hs

theorem addEntry_close {e : LogEntry} {b : LogBlock} (h : Represents s.rb1 l)
    (hgt : blockSize < canLogLayout.fill l.current + e.size) (hcur : l.current ≠ [])
    (hb : l.complete.length + 1 < 8) (hbe : b.entries = l.current) :
    ∃ rb1, s.addEntry e.bytes e.size = (s.stored e rb1, .ok) ∧
      Staged rb1 (l.complete ++ [b]) (openBytes [e]) := by
  have hfree := getFree_eq h
  have hopen := length_openBytes l
  have hlt : canLogLayout.fill l.current < blockSize := l.current_lt
  have hpos := Layout.header_lt_fill (L := canLogLayout) hcur
  rw [BlockLog.openLen_of_ne hcur] at hopen hfree
  obtain ⟨rb1, hok, hs⟩ := addEntry_pad h (e := e) (by omega) (by omega) (by omega) (by
    simp only [blockSize, logBufferSize] at *
    omega)
  rw [hopen, ← hbe, openBytes_close] at hs
  have hs := Staged.close headerPlaceholder hs rfl
  have hfree' := hs.free
  rw [hok]
  obtain ⟨rb2, hok', hs'⟩ := addEntry_start (s := { s with rb1 }) (e := e) hs (by
    simp only [List.length_append, List.length_singleton, List.length_nil, blockSize,
      logBufferSize] at *
    omega)
  exact ⟨rb2, hok', hs'⟩

/-- `AddEntry` takes exactly the entries the block log takes, and otherwise changes nothing. -/
theorem addEntry_spec (h : Represents s.rb1 l) (e : LogEntry) :
    match l.add e with
    | some l' => ∃ rb1, s.addEntry e.bytes e.size = (s.stored e rb1, .ok) ∧ Represents rb1 l'
    | none => s.addEntry e.bytes e.size = (s, .bufferFull) := by
  cases hadd : l.add e with
  | some l' =>
    simp only [Represents]
    rcases BlockLog.add_cases hadd with
      ⟨hlt, hc, hu⟩ | ⟨heq, hcur, hb, b, hbe, hc, hu⟩ | ⟨hgt, hcur, hb, b, hbe, hc, hu⟩
    · rw [hc, hu]
      exact addEntry_open h hlt
    · rw [hc, hu]
      exact addEntry_fill h heq hcur hb hbe
    · rw [hc, hu]
      exact addEntry_close h hgt hcur hb hbe
  | none =>
    obtain ⟨hfill, hlen⟩ := BlockLog.add_eq_none_iff.mp hadd
    have hcur : l.current ≠ [] := BlockLog.current_ne_of_full (Nat.not_lt.mpr hfill)
    have hpos := Layout.header_lt_fill (L := canLogLayout) hcur
    have hlt : canLogLayout.fill l.current < blockSize := l.current_lt
    have hfree := getFree_eq h
    have hopen := length_openBytes l
    rw [BlockLog.openLen_of_ne hcur] at hopen hfree
    change l.complete.length + 1 = 8 at hlen
    change blockSize ≤ canLogLayout.fill l.current + e.size at hfill
    apply addEntry_full h
    · omega
    · omega
    · omega
    · simp only [blockSize, logBufferSize] at *
      omega

theorem addEntry_ok_iff (h : Represents s.rb1 l) (e : LogEntry) :
    (s.addEntry e.bytes e.size).2 = .ok ↔ (l.add e).isSome := by
  have := addEntry_spec h e
  cases hadd : l.add e with
  | some l' =>
    rw [hadd] at this
    obtain ⟨rb1, hok, -⟩ := this
    simp [hok]
  | none =>
    rw [hadd] at this
    simp only at this
    simp [this]

/-- Padding succeeds exactly when the block log can close its open block. -/
theorem fillBlockWithPadding_spec (h : Represents s.rb1 l) :
    match l.pad with
    | some l' => ∃ rb1, s.fillBlockWithPadding = ({ s with rb1 }, .ok) ∧ Represents rb1 l'
    | none => s.fillBlockWithPadding = (s, .notOk) := by
  have hbound : l.complete.length < 8 := l.bound
  have hlt : l.openLen < blockSize := l.openLen_lt
  have hopen := length_openBytes l
  have hoff := Staged.wPtr_mod h (by omega)
  have hlin := Staged.linearWrite h (by omega)
  have hfree := getFree_eq h
  rw [hopen] at hoff hlin
  unfold fillBlockWithPadding
  simp only [hoff]
  by_cases hcur : l.current = []
  · have hpad : l.pad = some l := by simp [BlockLog.pad, hcur]
    simp only [hpad, BlockLog.openLen_eq_zero_iff.mpr hcur, if_true]
    exact ⟨s.rb1, rfl, h⟩
  · have hne : l.openLen ≠ 0 := fun hz => hcur (BlockLog.openLen_eq_zero_iff.mp hz)
    rw [if_neg hne]
    cases hpad : l.pad with
    | none =>
      obtain ⟨-, hlen⟩ := BlockLog.pad_eq_none_iff.mp hpad
      change l.complete.length + 1 = 8 at hlen
      simp only
      rw [if_pos]
      left
      simp only [blockSize, logBufferSize] at *
      omega
    | some l' =>
      obtain ⟨b, hb, hbe, hc, hu⟩ := BlockLog.pad_cases hpad hcur
      change l.complete.length + 1 < 8 at hb
      have hroom : blockSize - l.openLen ≤ Lwrb.getFree s.rb1 := by
        simp only [blockSize, logBufferSize] at *
        omega
      obtain ⟨rb1, hp, hs⟩ := Staged.writePadding h hroom
      rw [if_neg (by omega), hp]
      refine ⟨rb1, rfl, ?_⟩
      rw [BlockLog.openLen_of_ne hcur, ← hbe, openBytes_close] at hs
      rw [Represents, hc, hu]
      exact Staged.close headerPlaceholder hs rfl

theorem isBlockReady_iff (h : Represents s.rb1 l) : s.isBlockReady = true ↔ l.complete ≠ [] := by
  have ha := Staged.aligned h
  have hf := Staged.full h
  have hlt : l.openLen < blockSize := l.openLen_lt
  have hlin := Staged.linearRead h
  rw [length_openBytes] at hf
  simp only [isBlockReady, ha, ne_eq, not_true_eq_false, if_false, decide_eq_true_eq]
  constructor
  · rintro ⟨hfull, -⟩ hnil
    rw [hnil, List.length_nil] at hf
    omega
  · intro hne
    have := List.length_pos_iff.mpr hne
    refine ⟨?_, hlin hne⟩
    simp only [blockSize] at *
    omega

/-- The parse stands at offset `o` of a block, behind the bytes `pre`. -/
structure At (rb : ρ) (pre rest : List UInt8) (o : Nat) : Prop where
  contents : Lwrb.contents rb = pre ++ rest
  position : ∃ q, Lwrb.rPtr rb + pre.length = q * blockSize + o
  started : 0 < pre.length

omit [LawfulLwrb ρ] in
theorem At.offset {rb : ρ} (h : At rb pre rest o) (ho : o < blockSize) :
    (Lwrb.rPtr rb + pre.length) % blockSize = o := by
  obtain ⟨q, hq⟩ := h.position
  rw [hq, Nat.mul_comm, Nat.mul_add_mod, Nat.mod_eq_of_lt ho]

omit [LawfulLwrb ρ] in
theorem At.next {rb : ρ} (h : At rb pre (bs ++ rest) o) :
    At rb (pre ++ bs) rest (o + bs.length) := by
  obtain ⟨q, hq⟩ := h.position
  have hpre := h.started
  refine ⟨by rw [h.contents, List.append_assoc], ⟨q, ?_⟩, ?_⟩
  · rw [List.length_append]
    omega
  · rw [List.length_append]
    omega

omit [LawfulLwrb ρ] in
theorem at_header {rb : ρ} {pre header rest : List UInt8}
    (hc : Lwrb.contents rb = pre ++ (header ++ rest))
    (hlen : header.length = sizeofCanLogBlockHeaderType)
    (hpos : (Lwrb.rPtr rb + pre.length) % blockSize = 0) :
    At rb (pre ++ header) rest sizeofCanLogBlockHeaderType := by
  have hheader : 0 < sizeofCanLogBlockHeaderType := by decide
  have hdiv := Nat.div_mul_cancel (Nat.dvd_of_mod_eq_zero hpos)
  refine ⟨by rw [hc, List.append_assoc], ⟨(Lwrb.rPtr rb + pre.length) / blockSize, ?_⟩, ?_⟩
  · rw [List.length_append, hlen, hdiv, Nat.add_assoc]
  · rw [List.length_append, hlen]
    omega

theorem entrySizes_bounds (e : LogEntry) :
    ¬ (e.size < (entrySizes (getUint8 e.header.bytes 0)).1 ∨
      (entrySizes (getUint8 e.header.bytes 0)).2 < e.size) := by
  rw [CanLogEntryHeaderType.bytes, getUint8_cons_zero, e.type_eq]
  cases e with
  | frame e =>
    have := e.data_le
    rw [LogEntry.size_frame]
    simp only [LogEntry.isFrame, entrySizes, if_true, clbEntryMaxDataLength] at *
    omega
  | sync e => exact (by decide : ¬ (sizeofCanLogSyncType < sizeofCanLogSyncType ∨
      sizeofCanLogSyncType < sizeofCanLogSyncType))

theorem At.full {rb : ρ} (h : At rb pre rest o) : Lwrb.getFull rb = pre.length + rest.length := by
  rw [Lwrb.getFull_eq, h.contents, List.length_append]

theorem At.peek {rb : ρ} (h : At rb pre rest o) (n : Nat) :
    Lwrb.peek rb pre.length n = rest.take n := by
  rw [LawfulLwrb.peek_eq, h.contents, List.drop_left' rfl]

theorem countSlots_entry {rb : ρ} {e : LogEntry} (h : At rb pre (e.bytes ++ rest) o) (ho : 0 < o)
    (hroom : o + e.size ≤ blockSize) (n : Nat) :
    countSlots rb pre.length n = countSlots rb (pre ++ e.bytes).length (n + 1) := by
  have hsize := e.size_bounds
  have hpre := h.started
  have hfull := h.full
  have hsizes := entrySizes_bounds e
  have htotal : getUint8 e.header.bytes 2 = e.size := e.total_len
  have hbytes : e.bytes.length = e.size := rfl
  have hhead : Lwrb.peek rb pre.length 3 = e.header.bytes := by
    obtain ⟨bs, hbs⟩ := e.bytes_eq_header_append
    rw [h.peek, hbs]
    rfl
  have hpeek : (Lwrb.peek rb pre.length e.size).length = e.size := by
    rw [h.peek, List.length_take, List.length_append, Nat.min_eq_left]
    exact Nat.le_add_right ..
  rw [List.length_append, hbytes] at hfull
  rw [countSlots, hfull, h.offset (by omega)]
  simp only [hhead, htotal]
  rw [if_neg (by omega), if_neg (by omega), if_neg (by omega), if_neg (by omega),
    if_neg (by simp [CanLogEntryHeaderType.bytes]), if_neg (by omega), if_neg hsizes,
    if_neg (by omega), if_neg (by simp [hpeek]), List.length_append, hbytes]

theorem countSlots_entries {rb : ρ} {es : List LogEntry}
    (h : At rb pre (LogEntry.encodeAll es ++ rest) o) (ho : 0 < o)
    (hroom : o + (LogEntry.encodeAll es).length ≤ blockSize) (n : Nat) :
    countSlots rb pre.length n =
      countSlots rb (pre ++ LogEntry.encodeAll es).length (n + es.length) := by
  induction es generalizing pre o n with
  | nil => rw [show LogEntry.encodeAll [] = [] from rfl, List.append_nil]; rfl
  | cons e es ih =>
    have henc : LogEntry.encodeAll (e :: es) = e.bytes ++ LogEntry.encodeAll es := rfl
    have hbytes : e.bytes.length = e.size := rfl
    rw [henc, List.append_assoc] at h
    rw [henc, List.length_append, hbytes] at hroom
    have hnext := h.next
    rw [hbytes] at hnext
    rw [countSlots_entry h ho (by omega), ih hnext (by omega) (by omega), henc,
      List.append_assoc, List.length_cons, Nat.add_assoc, Nat.add_comm 1]

theorem countSlots_header {rb : ρ} {pre header rest : List UInt8}
    (hc : Lwrb.contents rb = pre ++ (header ++ rest))
    (hlen : header.length = sizeofCanLogBlockHeaderType)
    (hpos : (Lwrb.rPtr rb + pre.length) % blockSize = 0) (n : Nat) :
    countSlots rb pre.length n = countSlots rb (pre ++ header).length n := by
  have hfull : Lwrb.getFull rb = pre.length + (sizeofCanLogBlockHeaderType + rest.length) := by
    rw [Lwrb.getFull_eq, hc, List.length_append, List.length_append, hlen]
  have hheader : 0 < sizeofCanLogBlockHeaderType := by decide
  rw [countSlots, hfull, hpos]
  simp only
  rw [if_neg (by omega), if_neg ?_, if_pos ⟨trivial, by omega⟩, List.length_append, hlen]
  rintro ⟨hzero, hne⟩
  rw [hzero, Nat.add_zero] at hpos
  exact hne hpos

theorem countSlots_padding {rb : ρ} {k : Nat}
    (h : At rb pre (List.replicate k 0xFF ++ rest) o) (ho : 0 < o) (hend : o + k = blockSize)
    (n : Nat) :
    countSlots rb pre.length n =
      if k < 3 then countSlots rb (pre ++ List.replicate k (0xFF : UInt8)).length n else n := by
  have hpre := h.started
  have hfull := h.full
  rw [List.length_append, List.length_replicate] at hfull
  split
  · rename_i hk
    by_cases hzero : k = 0
    · rw [hzero, List.replicate_zero, List.append_nil]
    · rw [countSlots, hfull, h.offset (by omega)]
      simp only
      rw [if_neg (by omega), if_neg (by omega), if_neg (by omega), if_pos (by omega),
        if_neg (by omega), List.length_append, List.length_replicate]
      congr 1
      omega
  · rename_i hk
    obtain ⟨m, rfl⟩ : ∃ m, k = m + 3 := ⟨k - 3, by omega⟩
    have hff : Lwrb.peek rb pre.length 3 = [0xFF, 0xFF, 0xFF] := by
      rw [h.peek]
      rfl
    rw [countSlots, hfull, h.offset (by omega)]
    simp only [hff]
    rw [if_neg (by omega), if_neg (by omega), if_neg (by omega), if_neg (by omega),
      if_neg (by decide), if_neg (by decide), if_pos (by decide)]

theorem countSlots_end {rb : ρ} {pre : List UInt8} (hc : Lwrb.contents rb = pre) (n : Nat) :
    countSlots rb pre.length n = n := by
  rw [countSlots, Lwrb.getFull_eq, hc, if_pos (Nat.le_refl _)]

/-- What is counted of closed blocks and an open one: the entries up to a long padding. -/
def counted : List LogBlock → List LogEntry → Nat
  | [], current => current.length
  | b :: blocks, current =>
    b.entries.length +
      if blockSize - canLogLayout.fill b.entries < 3 then counted blocks current else 0

theorem countSlots_blocks {rb : ρ} {blocks : List LogBlock} {images : List (List UInt8)}
    {current : List LogEntry} (hi : List.Forall₂ IsImage blocks images)
    (hc : Lwrb.contents rb = pre ++ (images.flatten ++ openBytes current))
    (hcurrent : canLogLayout.fill current ≤ blockSize)
    (hpos : (Lwrb.rPtr rb + pre.length) % blockSize = 0) (n : Nat) :
    countSlots rb pre.length n = n + counted blocks current := by
  have hheader : 0 < sizeofCanLogBlockHeaderType := by decide
  induction hi generalizing pre n with
  | nil =>
    rw [List.flatten_nil, List.nil_append] at hc
    by_cases hnil : current = []
    · rw [hnil, openBytes_nil, List.append_nil] at hc
      rw [countSlots_end hc, hnil]
      rfl
    · rw [openBytes_of_ne hnil] at hc
      have hat : At rb (pre ++ headerPlaceholder) (LogEntry.encodeAll current ++ [])
          sizeofCanLogBlockHeaderType := at_header (by simpa using hc) rfl hpos
      rw [fill_eq] at hcurrent
      rw [countSlots_header hc rfl hpos, countSlots_entries hat hheader hcurrent,
        countSlots_end (by rw [hc, List.append_assoc])]
      rfl
  | cons hb hrest ih =>
    rename_i b image blocks images
    obtain ⟨header, hlen, rfl⟩ := hb
    have hfits : canLogLayout.fill b.entries ≤ blockSize := b.fits
    have hfill := fill_eq b.entries
    have hbody := length_body b
    rw [List.flatten_cons, List.append_assoc, List.append_assoc] at hc
    have hat := at_header hc hlen hpos
    rw [body, List.append_assoc] at hat
    have hpad := hat.next
    rw [← hfill] at hpad
    rw [countSlots_header hc hlen hpos, countSlots_entries hat hheader (by omega),
      countSlots_padding hpad (by omega) (by omega), counted]
    split
    · have hc' : Lwrb.contents rb = (pre ++ header ++ body b) ++ (images.flatten ++
          openBytes current) := by
        rw [hc]
        simp only [List.append_assoc]
      have hpos' : (Lwrb.rPtr rb + (pre ++ header ++ body b).length) % blockSize = 0 := by
        rw [List.length_append, List.length_append, hlen, Nat.add_assoc, hbody, ← Nat.add_assoc,
          Nat.add_mod_right, hpos]
      have hlist : pre ++ header ++ LogEntry.encodeAll b.entries ++
          List.replicate (blockSize - canLogLayout.fill b.entries) 0xFF =
          pre ++ header ++ body b := by
        rw [body]
        simp only [List.append_assoc]
      rw [hlist, ih hc' hpos', Nat.add_assoc]
    · rw [Nat.add_zero]

theorem usedSlots_eq (h : Represents s.rb1 l) : s.usedSlots = counted l.complete l.current := by
  obtain ⟨images, hi, hc⟩ := h.bytes
  have hcurrent : canLogLayout.fill l.current ≤ blockSize := Nat.le_of_lt l.current_lt
  have hfirst : Lwrb.contents s.rb1 = [] ++ (images.flatten ++ openBytes l.current) := hc
  have hcount := countSlots_blocks hi hfirst hcurrent h.aligned 0
  rwa [Nat.zero_add] at hcount

theorem counted_pos_iff (blocks : List LogBlock) (current : List LogEntry) :
    0 < counted blocks current ↔ blocks.flatMap Sealed.entries ++ current ≠ [] := by
  cases blocks with
  | nil => exact List.length_pos_iff
  | cons b blocks =>
    have hpos := List.length_pos_iff.mpr b.nonempty
    constructor
    · intro _ hnil
      rw [List.flatMap_cons] at hnil
      exact b.nonempty (List.append_eq_nil_iff.mp (List.append_eq_nil_iff.mp hnil).1).1
    · intro _
      rw [counted]
      omega

theorem usedSlots_pos_iff (h : Represents s.rb1 l) : 0 < s.usedSlots ↔ l.entries ≠ [] := by
  rw [usedSlots_eq h, counted_pos_iff]
  rfl

theorem scanEntries_eq {rb : ρ} {es : List LogEntry} {pre rest : List UInt8} {a : Scan} {k : Nat}
    (hc : Lwrb.contents rb = pre ++ (LogEntry.encodeAll es ++ (List.replicate k 0xFF ++ rest)))
    (hpre : pre.length = a.offset)
    (hend : a.offset + (LogEntry.encodeAll es).length + k = blockSize) :
    scanEntries rb blockSize a =
      ⟨a.offset + (LogEntry.encodeAll es).length, a.frameCount + es.countP LogEntry.isFrame,
        a.entriesCount + es.length⟩ := by
  have hpeek : Lwrb.peek rb a.offset 3 =
      (LogEntry.encodeAll es ++ (List.replicate k 0xFF ++ rest)).take 3 := by
    rw [LawfulLwrb.peek_eq, hc, List.drop_left' hpre]
  induction es generalizing pre a with
  | nil =>
    have henc : LogEntry.encodeAll [] = [] := rfl
    rw [henc, List.length_nil] at hend
    rw [henc, List.nil_append] at hpeek
    rw [scanEntries]
    by_cases hk : k < 3
    · rw [if_pos (by omega)]
      rfl
    · obtain ⟨m, rfl⟩ : ∃ m, k = m + 3 := ⟨k - 3, by omega⟩
      have hff : Lwrb.peek rb a.offset 3 = [0xFF, 0xFF, 0xFF] := by
        rw [hpeek]
        rfl
      rw [if_neg (by omega), hff]
      rfl
  | cons e es ih =>
    have hsize := e.size_bounds
    have henc : LogEntry.encodeAll (e :: es) = e.bytes ++ LogEntry.encodeAll es := rfl
    have hlen : (LogEntry.encodeAll (e :: es)).length =
        e.size + (LogEntry.encodeAll es).length := by
      rw [henc, List.length_append]
      rfl
    have hhead : Lwrb.peek rb a.offset 3 = e.header.bytes := by
      obtain ⟨bs, hbs⟩ := e.bytes_eq_header_append
      rw [hpeek, henc, hbs]
      rfl
    have hc' : Lwrb.contents rb =
        (pre ++ e.bytes) ++ (LogEntry.encodeAll es ++ (List.replicate k 0xFF ++ rest)) := by
      rw [hc, henc]
      simp only [List.append_assoc]
    have hpre' : (pre ++ e.bytes).length = a.offset + e.size := by
      rw [List.length_append, hpre]
      rfl
    have hstep := ih (a := ⟨a.offset + e.size,
      if e.isFrame then a.frameCount + 1 else a.frameCount, a.entriesCount + 1⟩) hc' hpre'
      (by simp only; omega) (by rw [LawfulLwrb.peek_eq, hc', List.drop_left' hpre'])
    rw [scanEntries, if_neg (by omega), hhead]
    have htotal : getUint8 e.header.bytes 2 = e.size := e.total_len
    have htype : getUint8 e.header.bytes 0 = if e.isFrame then 1 else 2 := by
      simp only [CanLogEntryHeaderType.bytes, getUint8_cons_zero, e.type_eq]
      cases e.isFrame <;> rfl
    have hlen3 : e.header.bytes.length = 3 := rfl
    have hsane : ¬ (e.size < 3 ∨ blockSize < e.size) := by
      simp only [blockSize]
      omega
    have hroom : ¬ blockSize < a.offset + e.size := by omega
    simp only [hlen3, htotal, htype]
    rw [if_neg (by decide), if_neg hsane]
    rw [hlen, List.countP_cons, List.length_cons]
    cases hf : e.isFrame
    · simp only [hf, Bool.false_eq_true, if_false] at hstep ⊢
      rw [if_neg (by decide), if_neg (by decide), if_neg hroom, if_neg (by decide), hstep]
      simp only [Scan.mk.injEq]
      omega
    · simp only [hf, if_true] at hstep ⊢
      rw [if_neg (by decide), if_neg (by decide), if_neg hroom, if_pos (by decide), hstep]
      simp only [Scan.mk.injEq]
      omega

def blockHeader (s : CanLogBuffer ρ) (b : LogBlock) : CanLogBlockHeaderType where
  version := canlogVersion
  headerSize := .ofNat sizeofCanLogBlockHeaderType
  epoch := s.epochCount
  cnt := s.blockCount
  blockSize := .ofNat Logging.blockSize
  blockFill := .ofNat (canLogLayout.fill b.entries)
  ingressFrames := .ofNat s.frameCount1
  entriesCount := .ofNat b.entries.length

def emitted (s : CanLogBuffer ρ) (b : LogBlock) : Block :=
  ⟨(s.blockHeader b).bytes ++ body b, blockSize, b.entries.countP LogEntry.isFrame⟩

theorem emitBlock_eq {b : LogBlock} {blocks : List LogBlock} {tail : List UInt8}
    (h : Staged s.rb1 (b :: blocks) tail) :
    ∃ rb1, s.emitBlock blockSize =
      ({ s with rb1, blockCount := s.blockCount + 1 }, .ok (s.emitted b)) ∧
      Staged rb1 (b :: blocks) tail := by
  obtain ⟨_, hi, hc⟩ := h.bytes
  obtain ⟨_, images, ⟨header, hlen, rfl⟩, hrest, rfl⟩ := List.forall₂_cons_left_iff.mp hi
  have hlin := h.linearRead (by simp)
  have hbody := length_body b
  have hfill := fill_eq b.entries
  have hfits : canLogLayout.fill b.entries ≤ blockSize := b.fits
  have hpos : sizeofCanLogBlockHeaderType < canLogLayout.fill b.entries :=
    Layout.header_lt_fill (L := canLogLayout) b.nonempty
  have hscan : scanEntries s.rb1 blockSize ⟨sizeofCanLogBlockHeaderType, 0, 0⟩ =
      ⟨canLogLayout.fill b.entries, b.entries.countP LogEntry.isFrame, b.entries.length⟩ := by
    have hcontents : Lwrb.contents s.rb1 = header ++ (LogEntry.encodeAll b.entries ++
        (List.replicate (blockSize - canLogLayout.fill b.entries) 0xFF ++
          (images.flatten ++ tail))) := by
      rw [hc, List.flatten_cons, body]
      simp only [List.append_assoc]
    have hscan := scanEntries_eq (a := ⟨sizeofCanLogBlockHeaderType, 0, 0⟩) hcontents hlen (by
      simp only
      omega)
    rw [hscan]
    simp [hfill]
  have hpatch : Lwrb.contents (Lwrb.patch s.rb1 (s.blockHeader b).bytes) =
      ((s.blockHeader b).bytes ++ body b) ++ (images.flatten ++ tail) := by
    rw [LawfulLwrb.contents_patch _ _ (by
      rw [CanLogBlockHeaderType.length_bytes]
      exact Nat.le_trans (by decide) hlin), hc, List.flatten_cons]
    simp only [List.append_assoc]
    rw [List.drop_left' (by rw [hlen, CanLogBlockHeaderType.length_bytes])]
  refine ⟨Lwrb.patch s.rb1 (s.blockHeader b).bytes, ?_, ?_⟩
  · have hpeek : Lwrb.peek (Lwrb.patch s.rb1 (s.blockHeader b).bytes) 0 blockSize =
        (s.blockHeader b).bytes ++ body b := by
      rw [LawfulLwrb.peek_eq, hpatch, List.drop_zero]
      apply List.take_left'
      rw [List.length_append, CanLogBlockHeaderType.length_bytes, hbody]
    unfold emitBlock
    simp only [hscan]
    rw [if_pos (Nat.ne_of_gt hpos)]
    rw [emitted, ← hpeek]
    rfl
  · refine ⟨by rw [LawfulLwrb.size_patch, h.size_eq], by rw [LawfulLwrb.rPtr_patch, h.aligned],
      ((s.blockHeader b).bytes ++ body b) :: images, ?_, by rw [hpatch]; simp⟩
    exact .cons ⟨_, CanLogBlockHeaderType.length_bytes _, rfl⟩ hrest

/-- `ReadNextBlock` hands out the oldest closed block and leaves the log as it is. -/
theorem readNextBlock_spec (h : Represents s.rb1 l) :
    match l.complete with
    | [] => s.readNextBlock = (s, .error .notOk)
    | b :: _ => ∃ rb1, s.readNextBlock =
        ({ s with rb1, blockCount := s.blockCount + 1 }, .ok (s.emitted b)) ∧
        Represents rb1 l := by
  have ha := Staged.aligned h
  have hf := Staged.full h
  have hlin := LawfulLwrb.linearRead_eq s.rb1
  have hlt : l.openLen < blockSize := l.openLen_lt
  rw [length_openBytes] at hf
  unfold readNextBlock
  simp only [ha, ne_eq, not_true_eq_false, false_and, if_false]
  cases hl : l.complete with
  | nil =>
    rw [hl, List.length_nil] at hf
    have havail : (if blockSize < Lwrb.getFull s.rb1 then blockSize else Lwrb.getFull s.rb1) =
        Lwrb.getFull s.rb1 := if_neg (by omega)
    simp only [havail]
    by_cases hshort : Lwrb.getFull s.rb1 < sizeofCanLogBlockHeaderType + 3
    · rw [if_pos hshort]
    · rw [if_neg hshort, if_pos (by omega)]
  | cons b bs =>
    have hlin' := Staged.linearRead h (by simp [hl])
    have hblocks : blockSize ≤ Lwrb.getFull s.rb1 := by
      rw [hl, List.length_cons] at hf
      simp only [blockSize] at *
      omega
    have havail : (if blockSize < Lwrb.getFull s.rb1 then blockSize else Lwrb.getFull s.rb1) =
        blockSize := by
      split <;> omega
    rw [Represents, hl] at h
    rw [havail, if_neg (by decide), if_neg (by omega), if_neg (by omega)]
    simp only [Represents, hl]
    exact emitBlock_eq h

theorem consume_spec {b : LogBlock} {l' : CanLog} (h : Represents s.rb1 l)
    (ht : l.take = some (b, l')) (n : Nat) : Represents (s.consume blockSize n).rb1 l' := by
  obtain ⟨hc, hu⟩ := BlockLog.take_eq_some ht
  rw [Represents, hc] at h
  have hs := h.skip_block
  have hrb : (s.consume blockSize n).rb1 = Lwrb.skip s.rb1 blockSize := by
    simp only [consume, hs.aligned, ne_eq, not_true_eq_false, and_false, if_false]
  rw [hrb, Represents, hu]
  exact hs

theorem init_spec : Represents s.init.rb1 BlockLog.empty := by
  refine ⟨LawfulLwrb.size_init _ (by decide), ?_, [], .nil, ?_⟩
  · simp [init]
  · simp [init, BlockLog.empty]

end CanLogBuffer

end CanSniffer.Logging
