import CanSniffer.Logging.SdBridgeLaws
import Mathlib.Data.List.Chain

universe u

namespace CanSniffer.Logging

open Lib Lib.Bytes Drivers Storage

@[simp] theorem Block.cnt_emitted {ρ : Type u} [Lwrb ρ] (s : CanLogBuffer ρ) (lb : LogBlock) :
    (s.emitted lb).cnt = s.blockCount.toNat := by
  simp [cnt, CanLogBuffer.emitted, CanLogBuffer.blockHeader, CanLogBlockHeaderType.bytes]

theorem Block.cnt_lt (b : Block) : b.cnt < 256 := getUint8_lt ..

namespace CanLogBuffer

variable {ρ : Type u} [Lwrb ρ] [LawfulLwrb ρ] {s : CanLogBuffer ρ}

theorem blockCount_addEntry (h : Represents s.rb1 l) (e : LogEntry) :
    (s.addEntry e.bytes e.size).1.blockCount = s.blockCount := by
  have hspec := addEntry_spec h e
  cases hadd : l.add e with
  | none =>
    rw [hadd] at hspec
    simp only at hspec
    rw [hspec]
  | some l' =>
    rw [hadd] at hspec
    obtain ⟨rb1, hok, -⟩ := hspec
    rw [hok]
    rfl

theorem blockCount_fillBlockWithPadding (h : Represents s.rb1 l) :
    s.fillBlockWithPadding.1.blockCount = s.blockCount := by
  have hspec := fillBlockWithPadding_spec h
  cases hpad : l.pad with
  | none =>
    rw [hpad] at hspec
    simp only at hspec
    rw [hspec]
  | some l' =>
    rw [hpad] at hspec
    obtain ⟨rb1, hok, -⟩ := hspec
    rw [hok]

end CanLogBuffer

namespace SdBridge

variable {ρ : Type u} [Lwrb ρ] {s t : SdBridge ρ}

def Consecutive (s : SdBridge ρ) : Prop :=
  s.written.IsChain fun a b => b.cnt = (a.cnt + 1) % 256

/-- A block that is written after others comes after a number of failed writes that the counter
does not show. -/
def CountsOn (s : SdBridge ρ) : SdEvent → Prop
  | .storeToSd a =>
    s.point = .store → ∀ b ∈ s.log.lastRead,
      a.write.Reaches s.canLog.writeFileDevice.file → a.write.write.Complete b.data.length →
      s.written ≠ [] → 256 ∣ s.failures
  | _ => True

def reads (s : SdBridge ρ) : Nat := if s.point = .store then 1 else 0

/-- The counter is as far ahead of the last block written as there were reads since. -/
structure Counted (s : SdBridge ρ) : Prop where
  read : s.point = .store → ∀ b ∈ s.log.lastRead, (b.cnt + 1) % 256 = s.log.buf.blockCount.toNat
  last : ∀ b ∈ s.written.getLast?,
    s.log.buf.blockCount.toNat = (b.cnt + 1 + s.failures + s.reads) % 256

omit [Lwrb ρ] in
theorem Counted.of_same (h : s.Counted) (hstore : t.point = .store ↔ s.point = .store)
    (hread : t.log.lastRead = s.log.lastRead) (hcount : t.log.buf.blockCount = s.log.buf.blockCount)
    (hwritten : t.written = s.written) (hfailures : t.failures = s.failures) : t.Counted := by
  have hreads : t.reads = s.reads := by simp only [reads, hstore]
  constructor
  · rw [hstore, hread, hcount]
    exact h.read
  · rw [hwritten, hcount, hfailures, hreads]
    exact h.last

omit [Lwrb ρ] in
theorem Counted.storeToSd (h : s.Counted) (hpoint : s.point = .store)
    (hb : s.log.lastRead = some b) (a : StoreAnswers) : (s.storeToSd b a).Counted := by
  have hread := h.read hpoint b hb
  have hreads : s.reads = 1 := if_pos hpoint
  have hdone : (s.storeToSd b a).point ≠ .store := by
    rw [point_storeToSd]
    split <;> simp
  have hreads' : (s.storeToSd b a).reads = 0 := if_neg hdone
  refine ⟨fun hstore => absurd hstore hdone, ?_⟩
  rw [hreads', log_storeToSd]
  simp only [SdBridge.storeToSd]
  by_cases hfr : (s.canLog.writeFileDevice.writeFile b.data a.write).2 = .ok
  · simp only [hfr, if_true, List.getLast?_concat, Option.mem_def, Option.some.injEq]
    rintro _ rfl
    exact hread.symm
  · simp only [hfr, if_false]
    intro b' hb'
    have := h.last b' hb'
    rw [hreads] at this
    exact this

variable [LawfulLwrb ρ] {epoch : UInt8}

theorem Counted.readNextBlock (h : s.Counted) (hlog : Session.Inv epoch s.log l)
    (hpoint : s.point = .read) : s.readNextBlock.Counted := by
  have hspec := CanLogBuffer.readNextBlock_spec hlog.represents
  have hreads : s.reads = 0 := if_neg (by simp [hpoint])
  cases hl : l.complete with
  | nil =>
    rw [hl] at hspec
    simp only at hspec
    have heq : s.readNextBlock = { s with point := .idle } := by
      simp [SdBridge.readNextBlock, hspec, Session.afterRead]
    rw [heq]
    exact h.of_same (by simp [hpoint]) rfl rfl rfl rfl
  | cons lb bs =>
    rw [hl] at hspec
    obtain ⟨rb1, hok, -⟩ := hspec
    have hcount : s.readNextBlock.log.buf.blockCount = s.log.buf.blockCount + 1 := by
      simp [SdBridge.readNextBlock, hok, Session.afterRead]
    have hlast : s.readNextBlock.log.lastRead = some (s.log.buf.emitted lb) := by
      simp [SdBridge.readNextBlock, hok, Session.afterRead]
    have hreads' : s.readNextBlock.reads = 1 := by
      simp [reads, SdBridge.readNextBlock, hok]
    constructor
    · intro _ b hb
      obtain rfl : s.log.buf.emitted lb = b := Option.some.inj (hlast.symm.trans hb)
      rw [hcount, Block.cnt_emitted, UInt8.toNat_add]
      rfl
    · intro b hb
      have := h.last b hb
      rw [hreads'] 
      rw [hcount, UInt8.toNat_add, this, hreads]
      change _ = (b.cnt + 1 + s.failures + 1) % 256
      simp

omit [LawfulLwrb ρ] in
theorem Counted.start (s : CanLogBuffer ρ) (index : Nat) : (start s index).Counted where
  read := by simp [SdBridge.start]
  last := by simp [SdBridge.start]

theorem Counted.step {e : SdEvent} (h : s.Counted) (hinv : Inv epoch s)
    (hs : SdBridge.step s e = some t) : t.Counted := by
  obtain ⟨l, hlog, -⟩ := hinv.log
  cases e with
  | addEntry entry =>
    cases hs
    exact h.of_same Iff.rfl rfl (CanLogBuffer.blockCount_addEntry hlog.represents entry) rfl rfl
  | fillBlockWithPadding =>
    cases hs
    exact h.of_same Iff.rfl rfl (CanLogBuffer.blockCount_fillBlockWithPadding hlog.represents)
      rfl rfl
  | actionHook =>
    simp only [SdBridge.step] at hs
    split at hs
    next hpoint =>
      cases hs
      exact h.of_same (by simp [hpoint]) rfl rfl rfl rfl
    · cases hs
  | isBlockReady =>
    simp only [SdBridge.step] at hs
    split at hs
    next hpoint =>
      cases hs
      refine h.of_same ?_ rfl rfl rfl rfl
      cases s.log.buf.isBlockReady <;> simp [hpoint]
    · cases hs
  | readNextBlock =>
    simp only [SdBridge.step] at hs
    split at hs
    next hpoint =>
      cases hs
      exact h.readNextBlock hlog hpoint
    · cases hs
  | storeToSd a =>
    simp only [SdBridge.step] at hs
    split at hs
    next b hpoint hb =>
      cases hs
      exact h.storeToSd hpoint hb a
    · cases hs
  | checkNewFile a =>
    simp only [SdBridge.step] at hs
    split at hs
    next hpoint =>
      cases hs
      exact h.of_same (by simp [hpoint]) rfl rfl rfl rfl
    · cases hs
  | consume =>
    simp only [SdBridge.step] at hs
    split at hs
    next b hpoint hb =>
      cases hs
      refine ⟨?_, ?_⟩
      · intro hstore
        cases hstore
      · intro b' hb'
        have := h.last b' hb'
        rwa [reads, if_neg (by simp [hpoint])] at this
    · cases hs

theorem kept_of_step {e : SdEvent} (hs : SdBridge.step s e = some t)
    (hstore : ∀ a, e ≠ .storeToSd a) : t.written = s.written ∧ t.failures = s.failures := by
  cases e with
  | storeToSd a => exact absurd rfl (hstore a)
  | _ =>
    simp only [SdBridge.step, Option.map_eq_some_iff] at hs
    first
      | (obtain ⟨log, -, rfl⟩ := hs; exact ⟨rfl, rfl⟩)
      | (split at hs <;> cases hs; exact ⟨rfl, rfl⟩)

omit [Lwrb ρ] [LawfulLwrb ρ] in
theorem consecutive_storeToSd (hcan : s.canLog.Ready) (h : s.Counted) (hp : s.Consecutive)
    (hpoint : s.point = .store) (hb : s.log.lastRead = some b) (a : StoreAnswers) :
    (s.storeToSd b a).Consecutive ↔ s.CountsOn (.storeToSd a) := by
  have hread := h.read hpoint b hb
  have hlt := b.cnt_lt
  simp only [Consecutive, SdBridge.storeToSd, CountsOn, hpoint, hb, forall_const, Option.mem_def,
    Option.some.injEq, forall_eq']
  by_cases hr : a.write.Reaches s.canLog.writeFileDevice.file
  · obtain ⟨-, -, -, -, hok⟩ := FatFsDevice.writeFile_of_reaches hcan hr b.data
    by_cases hcomplete : a.write.write.Complete b.data.length
    · simp only [hok.mpr hcomplete, hr, hcomplete, if_true, forall_const]
      have hlast (a' : Block) (ha' : s.written.getLast? = some a') :
          b.cnt = (a'.cnt + 1) % 256 ↔ 256 ∣ s.failures := by
        have hcount := h.last a' ha'
        rw [reads, if_pos hpoint] at hcount
        omega
      have hchain : (s.written ++ [b]).IsChain (fun a b => b.cnt = (a.cnt + 1) % 256) ↔
          ∀ a' ∈ s.written.getLast?, b.cnt = (a'.cnt + 1) % 256 := by
        rw [Consecutive] at hp
        rw [List.isChain_append]
        simp [hp]
      rw [hchain]
      cases hw : s.written.getLast? with
      | none => simp [List.getLast?_eq_none_iff.mp hw]
      | some a' =>
        have hne : s.written ≠ [] := by
          rintro hnil
          rw [hnil] at hw
          contradiction
        simp only [Option.mem_def, Option.some.injEq, forall_eq', hlast a' hw, ne_eq, hne,
          not_false_eq_true, forall_const]
    · simp only [mt hok.mp hcomplete, hcomplete, if_false, false_implies, implies_true, iff_true]
      exact hp
  · obtain ⟨-, -, -, hres⟩ := FatFsDevice.writeFile_of_not_reaches hcan hr b.data
    simp only [hres, if_false, hr, false_implies, iff_true]
    exact hp

theorem along_store (hs : s.written ≠ [] → 256 ∣ s.failures) (es : List SdEvent)
    (hes : ∀ e ∈ es, ∀ a, e ≠ .storeToSd a) (a : StoreAnswers) :
    Step.Along SdBridge.step CountsOn s (es ++ [.storeToSd a]) := by
  induction es generalizing s with
  | nil => exact ⟨fun _ _ _ _ _ => hs, fun _ _ => trivial⟩
  | cons e es ih =>
    have he := hes e (List.mem_cons_self ..)
    refine ⟨?_, ?_⟩
    · cases e with
      | storeToSd a' => exact absurd rfl (he a')
      | _ => trivial
    · intro t ht
      obtain ⟨hwritten, hfailures⟩ := kept_of_step ht he
      refine ih ?_ fun e' he' => hes e' (List.mem_cons_of_mem _ he')
      rwa [hwritten, hfailures]

def noCard : StoreAnswers where
  write := {
    seek := ⟨.notReady, .ok, 0⟩
    truncate := ⟨.notReady, .ok, 0⟩
    reseek := ⟨.notReady, .ok, 0⟩
    write := ⟨.notReady, 0, .ok⟩ }
  pending := false
  sync := ⟨.notReady, .ok, 0⟩

def everyBlock : RotateAnswers where
  logFileSize := 0
  logFileCount := 8
  closeSync := ⟨.ok, .ok, 0⟩
  closeReady := .ok
  reopen := ⟨.ok, .ok, ⟨.ok, .ok, 0⟩⟩
  sync := ⟨.ok, .ok, 0⟩

omit [LawfulLwrb ρ] in
theorem writeFile_noCard {c : CanLogFile} (hfs : c.writeFileDevice.file.fs = true)
    (data : List UInt8) :
    c.writeFileDevice.writeFile data noCard.write = (c.writeFileDevice, .notReady) := by
  simp [FatFsDevice.writeFile, noCard, Fil.fLseek, Fil.fTruncate, Fil.usable, Fil.validate, hfs]

theorem run_noCard (h : Able epoch s l) (hl : l.complete = lb :: bs) (hpoint : s.point = .idle) :
    ∃ t, Step.run SdBridge.step s [.actionHook, .isBlockReady, .readNextBlock,
        .storeToSd noCard] = some t ∧ Able epoch t l ∧ t.point = .idle ∧
      t.written = s.written ∧ t.failures = s.failures + 1 := by
  obtain ⟨-, hlog, hlast, -⟩ := run_read h.log hl hpoint
  have hrun := run_store h.log hl hpoint noCard
  have hwrite := writeFile_noCard h.fs (s.log.buf.emitted lb).data
  have hstore : s.canLog.storeToSd (s.log.buf.emitted lb).data noCard = (s.canLog, .error) := by
    simp [CanLogFile.storeToSd, hwrite]
  have heq : s.reading.storeToSd (s.log.buf.emitted lb) noCard =
      { s.reading with
        point := .idle
        failed := some (s.log.buf.emitted lb)
        failures := s.failures + 1 } := by
    simp [SdBridge.storeToSd, hwrite, hstore, reading]
  rw [heq] at hrun
  exact ⟨_, hrun, ⟨hlog, h.canLog, h.fs, h.err⟩, rfl, rfl, rfl⟩

omit [Lwrb ρ] [LawfulLwrb ρ] in
theorem file_everyBlock {c : CanLogFile} (hfs : c.writeFileDevice.file.fs = true) :
    (c.checkNewFileOpenLocked everyBlock).writeFileDevice.file =
      { fs := true, err := .ok, fptr := 0, data := [] } := by
  simp [CanLogFile.checkNewFileOpenLocked, everyBlock, FatFsDevice.closeFile, hfs, Fil.fClose,
    Fil.fSync, Fil.validate, FatFsDevice.openFileForOverWrite, Fil.fOpen, Fil.fLseek, Fil.usable]

theorem run_everyBlock (h : Able epoch s l) (hl : l.complete = [lb]) (hu : l.current = [])
    (hpoint : s.point = .rotate) (hb : s.log.lastRead = some b) :
    ∃ t l', Step.run SdBridge.step s [.checkNewFile everyBlock, .consume, .isBlockReady] = some t ∧
      Able epoch t l' ∧ l'.complete = [] ∧ l'.current = [] ∧ t.point = .idle ∧
      t.written = s.written ∧ t.failures = s.failures := by
  obtain ⟨lb', l', ht, hlog⟩ := h.log.consume hb
  obtain ⟨hl', hu'⟩ := BlockLog.take_eq_some ht
  have hc : l'.complete = [] := by
    rw [hl] at hl'
    exact (List.cons.inj hl').2.symm
  have hready : (s.log.buf.consume b.len b.frameCount).isBlockReady = false := by
    rw [Bool.eq_false_iff, ne_eq, CanLogBuffer.isBlockReady_iff hlog.represents, hc]
    simp
  have hfile := file_everyBlock h.fs
  refine ⟨{ s with
    log := { s.log with
      buf := s.log.buf.consume b.len b.frameCount
      lastRead := none
      consumed := s.log.consumed ++ [b] }
    canLog := s.canLog.checkNewFileOpenLocked everyBlock
    point := .idle
    failed := none }, l', ?_,
    ⟨hlog, (CanLogFile.checkNewFileOpenLocked_cases h.canLog _).1, ?_, ?_⟩, hc, hu'.trans hu, rfl,
    rfl, rfl⟩
  · simp [Step.run, SdBridge.step, hpoint, hb, SdBridge.consume, hready]
  · simp only [hfile]
  · simp only [hfile]

theorem run_nextBlock (s₀ : CanLogBuffer ρ) (e e' : LogEntry) :
    ∃ s t l lb b, Step.run SdBridge.step (start s₀ 0) [.addEntry e, .fillBlockWithPadding,
        .actionHook, .isBlockReady, .readNextBlock, .storeToSd (wholeBlock true .ok)] = some s ∧
      Step.run SdBridge.step s [.checkNewFile everyBlock, .consume, .isBlockReady, .addEntry e',
        .fillBlockWithPadding] = some t ∧
      s.failures = 0 ∧ Able s₀.epochCount t l ∧ l.complete = [lb] ∧ t.point = .idle ∧
      t.written = [b] ∧ t.failures = 0 := by
  obtain ⟨log, l, lb, hrun, hlog, hl, hu, -⟩ :=
    run_entry (s := start s₀ 0) (.start s₀) rfl rfl e
  have hable : Able s₀.epochCount { start s₀ 0 with log } l := ⟨hlog, .opened 0, rfl, rfl⟩
  obtain ⟨s, hrun₁, hable₁, hpoint₁, -, -, hlast₁, -, hwritten₁, hfailures₁⟩ :=
    run_wholeBlock hable hl rfl .ok
  obtain ⟨t, l₂, hrun₂, hable₂, hc₂, hu₂, hpoint₂, hwritten₂, hfailures₂⟩ :=
    run_everyBlock hable₁ hl hu hpoint₁ hlast₁
  obtain ⟨log₃, l₃, lb₃, hrun₃, hlog₃, hl₃, -, -⟩ := run_entry hable₂.log hc₂ hu₂ e'
  refine ⟨s, { t with log := log₃ }, l₃, lb₃, log.buf.emitted lb,
    Step.run_append_eq_some.mpr ⟨_, hrun, hrun₁⟩, Step.run_append_eq_some.mpr ⟨t, hrun₂, hrun₃⟩,
    hfailures₁, ⟨hlog₃, hable₂.canLog, hable₂.fs, hable₂.err⟩, hl₃, hpoint₂, ?_, ?_⟩
  · exact hwritten₂.trans hwritten₁
  · exact hfailures₂.trans hfailures₁

/-- The counters of the blocks in the files step by one exactly as long as, between two of them,
the number of failed writes is a multiple of 256. -/
theorem consecutive_iff (s₀ : CanLogBuffer ρ) (index : Nat) (es : List SdEvent) :
    Step.Throughout SdBridge.step Consecutive (start s₀ index) es ↔
      Step.Along SdBridge.step CountsOn (start s₀ index) es := by
  apply Step.throughout_iff_along (I := fun s => Inv s₀.epochCount s ∧ s.Counted)
  · rintro s e t ⟨hinv, h⟩ hs
    exact ⟨step_inv hinv hs, h.step hinv hs⟩
  · rintro s e t ⟨hinv, h⟩ hp hs
    cases e with
    | storeToSd a =>
      simp only [SdBridge.step] at hs
      split at hs
      next b hpoint hb =>
        cases hs
        exact consecutive_storeToSd hinv.canLog h hp hpoint hb a
      · cases hs
    | _ =>
      refine iff_of_true ?_ trivial
      rw [Consecutive, (kept_of_step hs (by simp)).1]
      exact hp
  · rintro s e ⟨hinv, h⟩ hs
    cases e with
    | storeToSd a =>
      intro hpoint b hb
      rw [Option.mem_def] at hb
      simp [SdBridge.step, hpoint, hb] at hs
    | _ => trivial
  · exact ⟨.start s₀ index, .start s₀ index⟩
  · exact .nil

def twoBlocks : List SdEvent :=
  [.addEntry (.sync (.ofFields 3 7 1)), .fillBlockWithPadding, .actionHook, .isBlockReady,
    .readNextBlock, .storeToSd (wholeBlock true .ok)] ++
  [.checkNewFile everyBlock, .consume, .isBlockReady, .addEntry (.sync (.ofFields 4 7 1)),
    .fillBlockWithPadding, .actionHook, .isBlockReady, .readNextBlock,
    .storeToSd (wholeBlock true .ok)]

theorem consecutive_twoBlocks :
    (∃ s : SdBridge ByteQueue, Step.run SdBridge.step (start .boot 0) twoBlocks = some s ∧
      s.written.length = 2) ∧
    Step.Throughout SdBridge.step Consecutive (start (.boot : CanLogBuffer ByteQueue) 0)
      twoBlocks := by
  obtain ⟨s, t, l, lb, b, hfirst, hnext, hfailures, hable, hl, hpoint, hwritten, -⟩ :=
    run_nextBlock (.boot : CanLogBuffer ByteQueue) (.sync (.ofFields 3 7 1))
      (.sync (.ofFields 4 7 1))
  obtain ⟨u, hlast, -, -, -, -, -, -, hu, -⟩ := run_wholeBlock hable hl hpoint .ok
  refine ⟨⟨u, ?_, ?_⟩, (consecutive_iff _ _ _).mpr (Step.along_append ?_ ?_)⟩
  · exact Step.run_append_eq_some.mpr ⟨s, hfirst, Step.run_append_eq_some.mpr ⟨t, hnext, hlast⟩⟩
  · rw [hu, hwritten]
    rfl
  · exact along_store (fun hne => absurd rfl hne) [.addEntry (.sync (.ofFields 3 7 1)),
      .fillBlockWithPadding, .actionHook, .isBlockReady, .readNextBlock] (by simp) _
  · intro s' hs'
    obtain rfl := Option.some.inj (hfirst.symm.trans hs')
    refine along_store (fun _ => ?_) [.checkNewFile everyBlock, .consume, .isBlockReady,
      .addEntry (.sync (.ofFields 4 7 1)), .fillBlockWithPadding, .actionHook, .isBlockReady,
      .readNextBlock] (by simp) _
    rw [hfailures]
    exact Nat.dvd_zero 256

/-- The write of the second block fails at first, and the counter goes from 0 to 2. -/
theorem retried_block_skips :
    ¬Step.Throughout SdBridge.step Consecutive (start (.boot : CanLogBuffer ByteQueue) 0)
      [.addEntry (.sync (.ofFields 3 7 1)), .fillBlockWithPadding, .actionHook, .isBlockReady,
        .readNextBlock, .storeToSd (wholeBlock true .ok), .checkNewFile everyBlock, .consume,
        .isBlockReady, .addEntry (.sync (.ofFields 4 7 1)), .fillBlockWithPadding, .actionHook,
        .isBlockReady, .readNextBlock, .storeToSd noCard, .actionHook, .isBlockReady,
        .readNextBlock, .storeToSd (wholeBlock true .ok)] := by
  intro hall
  obtain ⟨s, t, l, lb, b, hfirst, hnext, -, hable, hl, hpoint, hwritten, hfailures⟩ :=
    run_nextBlock (.boot : CanLogBuffer ByteQueue) (.sync (.ofFields 3 7 1))
      (.sync (.ofFields 4 7 1))
  obtain ⟨u, hfail, hable', hpoint', hwritten', hfailures'⟩ := run_noCard hable hl hpoint
  obtain ⟨hread, hlog, hlast, -⟩ := run_read hable'.log hl hpoint'
  have hstore := run_store hable'.log hl hpoint' (wholeBlock true .ok)
  have hrun := Step.run_append_eq_some.mpr
    ⟨t, Step.run_append_eq_some.mpr ⟨s, hfirst, hnext⟩, hfail⟩
  have hinv : Inv 0 u.reading ∧ u.reading.Counted := by
    refine Step.run_invariant (I := fun s => Inv 0 s ∧ s.Counted) ?_ ?_
      (Step.run_append_eq_some.mpr ⟨u, hrun, hread⟩)
    · rintro s e t ⟨hinv, h⟩ hs
      exact ⟨step_inv hinv hs, h.step hinv hs⟩
    · exact ⟨.start (.boot : CanLogBuffer ByteQueue) 0, .start _ 0⟩
  have hone : u.reading.written = [b] := hwritten'.trans hwritten
  have hfailed : u.reading.failures = 1 := by
    change u.failures = 1
    rw [hfailures', hfailures]
  have hconsecutive : u.reading.Consecutive := by
    rw [Consecutive, hone]
    exact .singleton _
  have hafter := hall _ _ (List.prefix_refl _) (Step.run_append_eq_some.mpr ⟨u, hrun, hstore⟩)
  rw [consecutive_storeToSd hinv.1.canLog hinv.2 hconsecutive rfl hlast] at hafter
  have hlen : (u.log.buf.emitted lb).data.length = blockSize :=
    Front.length_data (hlog.last_read _ hlast)
  have hdvd := hafter rfl _ hlast ⟨hable'.fs, hable'.err, .inl ⟨rfl, rfl⟩, rfl⟩
    ⟨rfl, Nat.le_of_eq hlen⟩ (by rw [hone]; simp)
  rw [hfailed] at hdvd
  omega

end SdBridge

end CanSniffer.Logging
