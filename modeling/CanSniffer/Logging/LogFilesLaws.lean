import CanSniffer.Logging.LogFiles
import CanSniffer.Logging.SdBridgeLaws

universe u

namespace CanSniffer.Logging

open Lib

section Pieces

variable {α : Type u} {f : α → List UInt8} {size : Nat} {l : List α} {k : Nat}

theorem length_flatMap_pieces (h : ∀ a ∈ l, (f a).length = size) :
    (l.flatMap f).length = l.length * size := by
  induction l with
  | nil => simp
  | cons a l ih =>
    rw [List.flatMap_cons, List.length_append, h a List.mem_cons_self,
      ih fun b hb => h b (List.mem_cons_of_mem a hb), List.length_cons, Nat.succ_mul, Nat.add_comm]

theorem flatMap_pieces_split (h : ∀ a ∈ l, (f a).length = size) (hk : k ≤ l.length)
    (rest : List UInt8) :
    (l.flatMap f ++ rest).take (k * size) = (l.take k).flatMap f ∧
      (l.flatMap f ++ rest).drop (k * size) = (l.drop k).flatMap f ++ rest := by
  have hlen : ((l.take k).flatMap f).length = k * size := by
    rw [length_flatMap_pieces fun a ha => h a (List.mem_of_mem_take ha), List.length_take,
      Nat.min_eq_left hk]
  have hsplit : l.flatMap f ++ rest = (l.take k).flatMap f ++ ((l.drop k).flatMap f ++ rest) := by
    rw [← List.append_assoc, ← List.flatMap_append, List.take_append_drop]
  rw [hsplit]
  exact ⟨List.take_left' hlen, List.drop_left' hlen⟩

def put (l : List α) (k : Nat) (a : α) : List α := l.take k ++ a :: l.drop (k + 1)

theorem length_put (hk : k ≤ l.length) (a : α) : (put l k a).length = max l.length (k + 1) := by
  simp only [put, List.length_append, List.length_take, List.length_cons, List.length_drop]
  omega

theorem getElem?_put (hk : k ≤ l.length) (a : α) (j : Nat) :
    (put l k a)[j]? = if j = k then some a else l[j]? := by
  have hlen : (l.take k).length = k := List.length_take_of_le hk
  rcases Nat.lt_trichotomy j k with hj | rfl | hj
  · rw [put, List.getElem?_append_left (by omega), List.getElem?_take_of_lt hj, if_neg (by omega)]
  · rw [put, List.getElem?_append_right (by omega), hlen, Nat.sub_self, if_pos rfl]
    rfl
  · obtain ⟨d, rfl⟩ := Nat.exists_eq_add_of_lt hj
    have hd : k + d + 1 - k = d + 1 := by omega
    rw [put, List.getElem?_append_right (by omega), hlen, hd, List.getElem?_cons_succ,
      List.getElem?_drop, if_neg (by omega), Nat.add_right_comm]

theorem overwrite_pieces (h : ∀ a ∈ l, (f a).length = size) (hk : k ≤ l.length) (a : α)
    (ha : (f a).length = size) (old : List UInt8) :
    (l.flatMap f ++ old.drop (l.length * size)).take (k * size) ++ f a ++
        (l.flatMap f ++ old.drop (l.length * size)).drop (k * size + (f a).length) =
      (put l k a).flatMap f ++ old.drop ((put l k a).length * size) := by
  rw [(flatMap_pieces_split h hk _).1, ha, ← Nat.succ_mul, length_put hk, put, List.flatMap_append,
    List.flatMap_cons, List.append_assoc, List.append_assoc, List.append_assoc]
  congr 2
  rcases Nat.lt_or_ge k l.length with hlt | hge
  · rw [(flatMap_pieces_split h (k := k + 1) hlt _).2, Nat.max_eq_left hlt]
  · obtain rfl : k = l.length := Nat.le_antisymm hk hge
    have hall := (flatMap_pieces_split h (Nat.le_refl _) (old.drop (l.length * size))).2
    rw [List.drop_of_length_le (Nat.le_succ _), Nat.max_eq_right (Nat.le_succ _), Nat.succ_mul,
      ← List.drop_drop, hall, List.drop_of_length_le (Nat.le_refl _), List.flatMap_nil,
      List.nil_append, List.nil_append, List.drop_drop]

end Pieces

theorem Carries.length_data {epoch : UInt8} {es : List LogEntry} {b : Block}
    (h : Carries epoch es b) : b.data.length = blockSize := by
  obtain ⟨header, h⟩ := h
  exact h.length_data

theorem overwrites_iff {a b : Store} {i j : Nat} (ha : a.block.data.length = blockSize)
    (hb : b.block.data.length = blockSize) (hi : a.offset = i * blockSize)
    (hj : b.offset = j * blockSize) :
    b.overwrites a = true ↔ b.file = a.file ∧ j = i := by
  simp only [Store.overwrites, decide_eq_true_eq, ha, hb, hi, hj, blockSize]
  constructor
  · rintro ⟨hfile, hlt, hgt⟩
    exact ⟨hfile, by omega⟩
  · rintro ⟨hfile, rfl⟩
    exact ⟨hfile, by omega, by omega⟩

namespace LogFiles

variable {cfg : LogFileConfig} {epoch : UInt8} {old : OldFiles epoch} {s : LogFiles}
  {rotations pos : Nat} {slots : Nat → List Block}

/-- After `rotations` rotations and `pos` blocks in the open file: `slots i` are the blocks in file
`i`, and after them the file is as it was. -/
structure Inv (cfg : LogFileConfig) {epoch : UInt8} (old : OldFiles epoch) (s : LogFiles)
    (rotations pos : Nat) (slots : Nat → List Block) : Prop where
  head : s.fileHeadIndex = rotations % cfg.logFileCount
  wrapped : s.fileIndexWrapped = true ↔ cfg.logFileCount ≤ rotations
  tail : s.fileTailIndex =
    if cfg.logFileCount ≤ rotations then (rotations + 1) % cfg.logFileCount else 0
  fptr : s.fptr = pos * blockSize
  pos_le : pos ≤ (slots s.fileHeadIndex).length
  content : ∀ i, s.content i =
    (slots i).flatMap Block.data ++ (old.data i).drop ((slots i).length * blockSize)
  carries : ∀ i, ∀ b ∈ slots i, ∃ es, Carries epoch es b
  held : ∀ st, st ∈ s.held ↔
    ∃ j, st.offset = j * blockSize ∧ (slots st.file)[j]? = some st.block
  holding : s.holding =
    lastWindow cfg.logFileCount (if pos = 0 then rotations else rotations + 1)

theorem holding_eq (s : LogFiles) : s.holding = (s.stores.map Store.file).dedup := by
  refine dedup_map_unreplaced Store.file ?_ s.stores
  intro a b h
  simp only [Store.overwrites, decide_eq_true_eq] at h
  exact h.1

theorem start_inv : Inv cfg old (start old.data) 0 0 fun _ => [] where
  head := (Nat.zero_mod _).symm
  wrapped := by simpa [start] using Nat.ne_of_gt cfg.count_pos
  tail := (if_neg (Nat.not_le.mpr cfg.count_pos)).symm
  fptr := (Nat.zero_mul _).symm
  pos_le := Nat.le_refl 0
  content := by simp [start]
  carries := by simp
  held := by simp [LogFiles.held, start, unreplaced]
  holding := by simp [LogFiles.holding, LogFiles.held, start, unreplaced, lastWindow]

namespace Inv

theorem length_data (h : Inv cfg old s rotations pos slots) {i : Nat} {b : Block}
    (hb : b ∈ slots i) : b.data.length = blockSize := by
  obtain ⟨es, hes⟩ := h.carries i b hb
  exact hes.length_data

theorem length_held (h : Inv cfg old s rotations pos slots) {st : Store} (hst : st ∈ s.held) :
    st.block.data.length = blockSize := by
  obtain ⟨j, -, hj⟩ := (h.held st).mp hst
  exact h.length_data (List.mem_of_getElem? hj)

theorem storeToSd (h : Inv cfg old s rotations pos slots) {b : Block}
    (hb : ∃ es, Carries epoch es b) :
    Inv cfg old (s.storeToSd b) rotations (pos + 1)
      (Function.update slots s.fileHeadIndex (put (slots s.fileHeadIndex) pos b)) := by
  have hlen : b.data.length = blockSize := by
    obtain ⟨es, hes⟩ := hb
    exact hes.length_data
  have hnew : (s.storeToSd b).held =
      s.held.filter (!(Store.mk s.fileHeadIndex s.fptr b).overwrites ·) ++
        [⟨s.fileHeadIndex, s.fptr, b⟩] :=
    unreplaced_append_singleton s.stores _
  refine
    { head := h.head
      wrapped := h.wrapped
      tail := h.tail
      fptr := ?fptr
      pos_le := ?pos_le
      content := ?content
      carries := ?carries
      held := ?held
      holding := ?holding }
  case fptr =>
    rw [LogFiles.storeToSd, hlen, h.fptr, Nat.succ_mul]
  case pos_le =>
    change pos + 1 ≤ (Function.update slots s.fileHeadIndex _ s.fileHeadIndex).length
    rw [Function.update_self, length_put h.pos_le]
    exact Nat.le_max_right ..
  case content =>
    intro i
    by_cases hi : i = s.fileHeadIndex
    · subst hi
      simp only [LogFiles.storeToSd, Function.update_self, h.content, h.fptr]
      exact overwrite_pieces (fun a => h.length_data) h.pos_le b hlen _
    · simp only [LogFiles.storeToSd, Function.update_of_ne hi, h.content]
  case carries =>
    intro i c hc
    by_cases hi : i = s.fileHeadIndex
    · subst hi
      rw [Function.update_self, put, List.mem_append, List.mem_cons] at hc
      rcases hc with hc | rfl | hc
      · exact h.carries _ c (List.mem_of_mem_take hc)
      · exact hb
      · exact h.carries _ c (List.mem_of_mem_drop hc)
    · rw [Function.update_of_ne hi] at hc
      exact h.carries i c hc
  case held =>
    intro st
    rw [hnew, List.mem_append, List.mem_singleton, List.mem_filter, h.held]
    constructor
    · rintro (⟨⟨j, hoff, hj⟩, hkeep⟩ | rfl)
      · refine ⟨j, hoff, ?_⟩
        by_cases hi : st.file = s.fileHeadIndex
        · have hne : j ≠ pos := by
            rintro rfl
            rw [Bool.not_eq_true', ← Bool.not_eq_true] at hkeep
            exact hkeep ((overwrites_iff (h.length_data (List.mem_of_getElem? hj)) hlen hoff
              h.fptr).mpr ⟨hi.symm, rfl⟩)
          rw [hi, Function.update_self, getElem?_put h.pos_le, if_neg hne, ← hi]
          exact hj
        · rwa [Function.update_of_ne hi]
      · exact ⟨pos, h.fptr, by rw [Function.update_self, getElem?_put h.pos_le, if_pos rfl]⟩
    · rintro ⟨j, hoff, hj⟩
      by_cases hi : st.file = s.fileHeadIndex
      · rw [hi, Function.update_self, getElem?_put h.pos_le] at hj
        by_cases hpos : j = pos
        · rw [if_pos hpos] at hj
          obtain ⟨file, offset, block⟩ := st
          cases hj
          subst hi hpos
          exact .inr (by rw [h.fptr, ← hoff])
        · rw [if_neg hpos] at hj
          have hj' : (slots st.file)[j]? = some st.block := by rwa [hi]
          refine .inl ⟨⟨j, hoff, hj'⟩, ?_⟩
          rw [Bool.not_eq_true', ← Bool.not_eq_true,
            overwrites_iff (h.length_data (List.mem_of_getElem? hj')) hlen hoff h.fptr]
          exact fun hsame => hpos hsame.2.symm
      · rw [Function.update_of_ne hi] at hj
        refine .inl ⟨⟨j, hoff, hj⟩, ?_⟩
        rw [Bool.not_eq_true', ← Bool.not_eq_true,
          overwrites_iff (h.length_data (List.mem_of_getElem? hj)) hlen hoff h.fptr]
        exact fun hsame => hi hsame.1.symm
  case holding =>
    have hstep : (s.storeToSd b).holding =
        s.holding.filter (· ≠ s.fileHeadIndex) ++ [s.fileHeadIndex] := by
      rw [holding_eq, holding_eq, LogFiles.storeToSd, List.map_append]
      exact dedup_append_singleton ..
    rw [hstep, h.holding, h.head, if_neg (Nat.succ_ne_zero pos)]
    by_cases hpos : pos = 0
    · rw [if_pos hpos, lastWindow_succ cfg.count_pos]
    · rw [if_neg hpos, lastWindow_again cfg.count_pos]

theorem checkNewFileOpenLocked (h : Inv cfg old s rotations pos slots) (hpos : pos ≠ 0)
    (closed : Bool) :
    Inv cfg old (s.checkNewFileOpenLocked cfg closed) rotations pos slots ∨
      Inv cfg old (s.checkNewFileOpenLocked cfg closed) (rotations + 1) 0 slots := by
  have hcount := cfg.count_pos
  rw [LogFiles.checkNewFileOpenLocked]
  by_cases hfull : cfg.logFileSize ≤ s.fptr
  · by_cases hclosed : closed = true ∧ 0 < cfg.logFileCount
    · rw [if_pos hfull, if_pos hclosed]
      have hhead : (s.fileHeadIndex + 1) % cfg.logFileCount =
          (rotations + 1) % cfg.logFileCount := by
        rw [h.head, Nat.mod_add_mod]
      have hwrapped : (if cfg.maxLogIndex ≤ s.fileHeadIndex then true else s.fileIndexWrapped) =
          true ↔ cfg.logFileCount ≤ rotations + 1 := by
        rw [LogFileConfig.maxLogIndex, if_pos hcount]
        by_cases hlt : rotations < cfg.logFileCount
        · rw [h.head, Nat.mod_eq_of_lt hlt]
          split
          · exact iff_of_true rfl (by omega)
          · rw [h.wrapped]
            exact iff_of_false (by omega) (by omega)
        · refine iff_of_true ?_ (by omega)
          split
          · rfl
          · exact h.wrapped.mpr (by omega)
      refine .inr
        { head := hhead
          wrapped := hwrapped
          tail := ?tail
          fptr := (Nat.zero_mul _).symm
          pos_le := Nat.zero_le _
          content := h.content
          carries := h.carries
          held := h.held
          holding := ?holding }
      case tail =>
        simp only [hwrapped, hhead, Nat.mod_add_mod, h.tail]
        split
        · rfl
        · rw [if_neg (by omega)]
      case holding =>
        rw [if_pos rfl]
        exact h.holding.trans (by rw [if_neg hpos])
    · rw [if_pos hfull, if_neg hclosed]
      exact .inl h
  · rw [if_neg hfull]
    exact .inl h

end Inv

theorem storeBlock_inv (e : StoreEvent epoch) (h : ∃ rotations pos slots,
    Inv cfg old s rotations pos slots) :
    ∃ rotations pos slots, Inv cfg old (s.storeBlock cfg e) rotations pos slots := by
  obtain ⟨rotations, pos, slots, h⟩ := h
  rcases (h.storeToSd e.carries).checkNewFileOpenLocked (Nat.succ_ne_zero pos) e.closed with h | h
  · exact ⟨_, _, _, h⟩
  · exact ⟨_, _, _, h⟩

theorem run_inv (cfg : LogFileConfig) (old : OldFiles epoch) (es : List (StoreEvent epoch)) :
    ∃ rotations pos slots, Inv cfg old (run cfg old es) rotations pos slots := by
  rw [run]
  generalize hs : start old.data = s
  have h : ∃ rotations pos slots, Inv cfg old s rotations pos slots :=
    ⟨0, 0, _, hs ▸ start_inv⟩
  clear hs
  induction es generalizing s with
  | nil => exact h
  | cons e es ih => exact ih _ (storeBlock_inv e h)

end LogFiles

/-- One block through the writer, with the answers to its calls. -/
structure BlockWrite (epoch : UInt8) where
  block : Block
  carries : ∃ es, Carries epoch es block
  store : StoreAnswers
  rotate : RotateAnswers

def CanLogFile.writeBlock {epoch : UInt8} : Step CanLogFile (BlockWrite epoch)
  | c, w => some ((c.storeToSd w.block.data w.store).1.checkNewFileOpenLocked w.rotate)

structure CanLogFile.Answered {epoch : UInt8} (cfg : LogFileConfig) (c : CanLogFile)
    (w : BlockWrite epoch) : Prop where
  stores : c.Stores w.block.data.length w.store
  size : w.rotate.logFileSize = cfg.logFileSize
  count : w.rotate.logFileCount = cfg.logFileCount
  reopen : w.rotate.reopen.opened = .ok ∧ w.rotate.reopen.seek.ready = .ok ∧
    w.rotate.reopen.seek.res = .ok

namespace LogFiles

variable {cfg : LogFileConfig} {epoch : UInt8} {old : OldFiles epoch} {s : LogFiles}

structure Follows (c : CanLogFile) (s : LogFiles) : Prop where
  ready : c.Ready
  fs : c.writeFileDevice.file.fs = true
  err : c.writeFileDevice.file.err = .ok
  head : c.fileHeadIndex = s.fileHeadIndex
  data : c.writeFileDevice.file.data = (s.content s.fileHeadIndex).take s.fptr
  length : c.writeFileDevice.file.data.length = s.fptr

theorem follows_start : Follows (.opened 0) (start old.data) where
  ready := CanLogFile.Ready.opened 0
  fs := rfl
  err := rfl
  head := rfl
  data := rfl
  length := rfl

namespace Follows

variable {c d : CanLogFile}

theorem storeToSd (h : Follows c s) {b : Block} {a : StoreAnswers}
    (ha : c.Stores b.data.length a) : Follows (c.storeToSd b.data a).1 (s.storeToSd b) := by
  obtain ⟨hreach, ⟨hres, haccepted⟩, -⟩ := ha
  obtain ⟨hinv, hfs, herr, hdata, -⟩ :=
    Storage.FatFsDevice.writeFile_of_reaches h.ready hreach b.data
  rw [Nat.min_eq_right haccepted, List.take_length] at hdata
  have hlen : ((s.content s.fileHeadIndex).take s.fptr).length = s.fptr := h.data ▸ h.length
  have hpart : ((s.content s.fileHeadIndex).take s.fptr ++ b.data).length =
      s.fptr + b.data.length := by
    rw [List.length_append, hlen]
  rw [CanLogFile.storeToSd_writeFile]
  exact
    { ready := hinv
      fs := hfs.trans h.fs
      err := herr.trans hres
      head := h.head
      data := by
        simp only [LogFiles.storeToSd, Function.update_self, hdata, h.data]
        exact (List.take_left' hpart).symm
      length := by rw [hdata, List.length_append, h.length]; rfl }

theorem checkNewFileOpenLocked (h : Follows c s) (cfg : LogFileConfig) {a : RotateAnswers}
    (hsize : a.logFileSize = cfg.logFileSize) (hcount : a.logFileCount = cfg.logFileCount)
    (hreopen : a.reopen.opened = .ok ∧ a.reopen.seek.ready = .ok ∧ a.reopen.seek.res = .ok) :
    Follows (c.checkNewFileOpenLocked a) (s.checkNewFileOpenLocked cfg
      ((c.writeFileDevice.closeFile a.closeSync a.closeReady).2 = .ok)) := by
  obtain ⟨hopened, hready, hres⟩ := hreopen
  have hfptr : c.writeFileDevice.getBufferedFileSize = s.fptr := by
    rw [← h.length]
    exact h.ready.at_end h.err
  rw [CanLogFile.checkNewFileOpenLocked, LogFiles.checkNewFileOpenLocked, hsize, hcount, hfptr]
  by_cases hfull : cfg.logFileSize ≤ s.fptr
  · rw [if_pos hfull, if_pos hfull]
    rcases CanLogFile.closeFile_cases c.writeFileDevice a.closeSync a.closeReady with
      hclose | ⟨hdev, hfail⟩
    · have hopen : Storage.FatFsDevice.openFileForOverWrite { c.writeFileDevice with
          file := { c.writeFileDevice.file with fs := false } } a.reopen =
          ({ file := { fs := true, err := .ok, fptr := 0, data := [] }
             fflags := Storage.faWrite }, .ok) := by
        simp [Storage.FatFsDevice.openFileForOverWrite, Storage.Fil.fOpen, Storage.Fil.fLseek,
          Storage.Fil.usable, Storage.Fil.validate, hopened, hready, hres]
      simp only [hclose, if_true, cfg.count_pos, decide_true, and_self, hopen]
      exact
        { ready := ⟨fun _ => rfl, show Storage.faWrite &&& Storage.faCreateAlways = 0 by decide⟩
          fs := rfl
          err := rfl
          head := by rw [h.head]
          data := rfl
          length := rfl }
    · simp only [hdev, hfail, if_false, decide_false, Bool.false_eq_true, false_and]
      exact h
  · rw [if_neg hfull, if_neg hfull]
    exact h

def event {epoch : UInt8} (c : CanLogFile) (w : BlockWrite epoch) : StoreEvent epoch where
  block := w.block
  carries := w.carries
  closed := decide (((c.storeToSd w.block.data w.store).1.writeFileDevice.closeFile
    w.rotate.closeSync w.rotate.closeReady).2 = .ok)

theorem storeBlock {epoch : UInt8} (h : Follows c s) {w : BlockWrite epoch}
    (ha : c.Answered cfg w) (hw : CanLogFile.writeBlock c w = some d) :
    Follows d (s.storeBlock cfg (event c w)) := by
  rw [CanLogFile.writeBlock, Option.some.injEq] at hw
  rw [LogFiles.storeBlock, event, ← hw]
  dsimp only
  have hstored : Follows (c.storeToSd w.block.data w.store).1 (s.storeToSd w.block) :=
    h.storeToSd ha.stores
  exact hstored.checkNewFileOpenLocked cfg ha.size ha.count ha.reopen

/-- Where the card answers, what the writer does to its files is what these files do. -/
theorem run {epoch : UInt8} {ws : List (BlockWrite epoch)} (h : Follows c s)
    (ha : Step.Along CanLogFile.writeBlock (CanLogFile.Answered cfg) c ws)
    (hrun : Step.run CanLogFile.writeBlock c ws = some d) :
    ∃ es : List (StoreEvent epoch), es.map StoreEvent.block = ws.map BlockWrite.block ∧
      Follows d (es.foldl (LogFiles.storeBlock cfg) s) := by
  induction ws generalizing c s with
  | nil =>
    cases hrun
    exact ⟨[], rfl, h⟩
  | cons w ws ih =>
    obtain ⟨c', hw, hrest⟩ := Step.run_cons_eq_some.mp hrun
    obtain ⟨es, hblocks, hfollows⟩ := ih (h.storeBlock ha.1 hw) (ha.2 c' hw) hrest
    exact ⟨event c w :: es, congrArg (w.block :: ·) hblocks, hfollows⟩

end Follows

/-- A run of the writer from the opening of the first file is one of `LogFiles`, with the same
blocks. -/
theorem run_follows (old : OldFiles epoch) {ws : List (BlockWrite epoch)} {c : CanLogFile}
    (ha : Step.Along CanLogFile.writeBlock (CanLogFile.Answered cfg) (.opened 0) ws)
    (hrun : Step.run CanLogFile.writeBlock (.opened 0) ws = some c) :
    ∃ es : List (StoreEvent epoch), es.map StoreEvent.block = ws.map BlockWrite.block ∧
      Follows c (run cfg old es) :=
  follows_start.run ha hrun

end LogFiles

end CanSniffer.Logging
