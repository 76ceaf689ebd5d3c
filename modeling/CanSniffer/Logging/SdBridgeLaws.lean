import CanSniffer.Logging.SdBridge
import CanSniffer.Storage.FileHandlerLaws

universe u

namespace CanSniffer.Logging

open Lib Drivers Storage

def Front (epoch : UInt8) (l : CanLog) (b : Block) : Prop :=
  ∃ lb l', l.take = some (lb, l') ∧ Carries epoch lb.entries b

namespace Front

variable {epoch : UInt8} {l l' : CanLog} {b b' : Block}

theorem mono (h : Front epoch l b) {bs : List LogBlock}
    (hc : l'.complete = l.complete ++ bs) : Front epoch l' b := by
  obtain ⟨lb, m, ht, hcarry⟩ := h
  obtain ⟨m', ht'⟩ := Session.take_append ht hc
  exact ⟨lb, m', ht', hcarry⟩

theorem add (h : Front epoch l b) (e : LogEntry) : Front epoch ((l.add e).getD l) b := by
  cases hadd : l.add e with
  | none => exact h
  | some l' =>
    obtain ⟨bs, hbs⟩ := BlockLog.complete_add hadd
    exact h.mono hbs

theorem pad (h : Front epoch l b) : Front epoch (l.pad.getD l) b := by
  cases hpad : l.pad with
  | none => exact h
  | some l' =>
    obtain ⟨bs, hbs⟩ := BlockLog.complete_pad hpad
    exact h.mono hbs

theorem payload_eq (h : Front epoch l b) (h' : Front epoch l b') : b.payload = b'.payload := by
  obtain ⟨lb, m, ht, header, hcarry⟩ := h
  obtain ⟨lb', m', ht', header', hcarry'⟩ := h'
  obtain ⟨rfl, -⟩ := Prod.mk.inj (Option.some.inj (ht.symm.trans ht'))
  rw [hcarry.payload_eq, hcarry'.payload_eq]

theorem length_data (h : Front epoch l b) : b.data.length = blockSize := by
  obtain ⟨lb, m, -, header, hcarry⟩ := h
  exact hcarry.length_data

end Front

namespace CanLogFile

variable {c : CanLogFile}

def Ready (c : CanLogFile) : Prop := c.writeFileDevice.Inv

/-- The store succeeds: the write is reached and complete, and so is the sync if one is due. -/
def Stores (c : CanLogFile) (len : Nat) (a : StoreAnswers) : Prop :=
  a.write.Reaches c.writeFileDevice.file ∧ a.write.write.Complete len ∧
    (a.pending = true → a.sync.ready = .ok ∧ a.sync.res = .ok)

/-- A write that falls short takes nothing, and no sync fails after a complete one. -/
def Clean (c : CanLogFile) (len : Nat) (a : StoreAnswers) : Prop :=
  a.write.Reaches c.writeFileDevice.file →
    (a.write.write.Complete len ∧ (a.pending = true → a.sync.ready = .ok ∧ a.sync.res = .ok)) ∨
    (¬a.write.write.Complete len ∧ a.write.write.accepted = 0)

theorem flush_eq_ok_iff {dev : FatFsDevice} (hfs : dev.file.fs = true) (a : Answer) :
    dev.flush a = .ok ↔ a.ready = .ok ∧ a.res = .ok := by
  simp only [FatFsDevice.flush, Fil.fSync, Fil.validate, hfs, if_true, ne_eq]
  by_cases hready : a.ready = .ok <;> simp [hready]

theorem storeToSd_writeFile (c : CanLogFile) (data : List UInt8) (a : StoreAnswers) :
    (c.storeToSd data a).1 =
      { c with writeFileDevice := (c.writeFileDevice.writeFile data a.write).1 } := by
  simp only [storeToSd]
  split
  · split
    · split <;> rfl
    · rfl
  · rfl

theorem Ready.storeToSd (h : c.Ready) (data : List UInt8) (a : StoreAnswers) :
    (c.storeToSd data a).1.Ready := by
  rw [storeToSd_writeFile]
  by_cases hr : a.write.Reaches c.writeFileDevice.file
  · exact (FatFsDevice.writeFile_of_reaches h hr data).1
  · exact (FatFsDevice.writeFile_of_not_reaches h hr data).1

theorem storeToSd_success_iff (h : c.Ready) (data : List UInt8) (a : StoreAnswers) :
    (c.storeToSd data a).2 = .success ↔ c.Stores data.length a := by
  by_cases hr : a.write.Reaches c.writeFileDevice.file
  · obtain ⟨-, hfs, -, -, hok⟩ := FatFsDevice.writeFile_of_reaches h hr data
    have hopen := hfs.trans hr.1
    simp only [CanLogFile.storeToSd, Stores, hr, true_and]
    by_cases hcomplete : a.write.write.Complete data.length
    · rw [if_pos (hok.mpr hcomplete)]
      simp only [FatFsDevice.syncPending, hopen, Bool.true_and, hcomplete, true_and]
      by_cases hpending : a.pending = true
      · simp only [hpending, if_true, ne_eq, flush_eq_ok_iff hopen, forall_const]
        split <;> simp_all
      · simp [hpending]
    · rw [if_neg fun hres => hcomplete (hok.mp hres)]
      simp [hcomplete]
  · obtain ⟨-, -, -, hres⟩ := FatFsDevice.writeFile_of_not_reaches h hr data
    simp only [CanLogFile.storeToSd, Stores, hr, false_and, hres, if_false]
    simp

theorem files_of_reaches (h : c.Ready) {a : StoreAnswers}
    (hr : a.write.Reaches c.writeFileDevice.file) (data : List UInt8) :
    c.files = c.closed ++ [c.writeFileDevice.file.data] ∧
      (c.storeToSd data a).1.files = c.closed ++
        [c.writeFileDevice.file.data ++ data.take (min a.write.write.accepted data.length)] := by
  obtain ⟨-, hfs, -, hdata, -⟩ := FatFsDevice.writeFile_of_reaches h hr data
  rw [storeToSd_writeFile, files, files, hdata, hfs, hr.1]
  exact ⟨rfl, rfl⟩

theorem files_of_not_reaches (h : c.Ready) {a : StoreAnswers}
    (hr : ¬a.write.Reaches c.writeFileDevice.file) (data : List UInt8) :
    (c.storeToSd data a).1.files = c.files := by
  obtain ⟨-, hfs, hdata, -⟩ := FatFsDevice.writeFile_of_not_reaches h hr data
  rw [storeToSd_writeFile, files, files, hdata, hfs]

theorem closeFile_cases (dev : FatFsDevice) (sync : Answer) (ready : FResult) :
    dev.closeFile sync ready = ({ dev with file := { dev.file with fs := false } }, .ok) ∨
      ((dev.closeFile sync ready).1 = dev ∧ (dev.closeFile sync ready).2 ≠ .ok) := by
  unfold FatFsDevice.closeFile
  by_cases hfs : dev.file.fs = true
  · simp only [hfs, if_true]
    unfold Fil.fClose
    by_cases hsync : dev.file.fSync sync = .ok
    · by_cases hready : dev.file.validate ready = .ok
      · exact .inl (by simp [hsync, hready])
      · exact .inr (by simp [hsync, hready])
    · exact .inr (by simp [hsync])
  · have hclosed : dev.file.fs = false := by simpa using hfs
    left
    simp only [hclosed, Bool.false_eq_true, if_false]
    rw [← hclosed]

theorem openFileForOverWrite_cases {dev : FatFsDevice} (h : dev.Inv) (a : OpenAnswers) :
    (dev.openFileForOverWrite a).1.Inv ∧
      ((dev.openFileForOverWrite a).1.file.fs = true →
        (dev.openFileForOverWrite a).1.file.data = []) := by
  have hseek (fp : Fil) (hdata : fp.data = []) (hend : fp.AtEnd) :
      (fp.fLseek 0 a.seek).1.AtEnd ∧ (fp.fLseek 0 a.seek).1.data = [] := by
    unfold Fil.fLseek
    by_cases husable : fp.usable a.seek.ready = .ok
    · by_cases hres : a.seek.res = .ok
      · simp [husable, hres, hdata, Fil.AtEnd]
      · simp only [husable, hres, ne_eq, not_true_eq_false, not_false_eq_true, if_true, if_false]
        exact ⟨fun hok => absurd hok hres, hdata⟩
    · simp only [husable, ne_eq, not_false_eq_true, if_true]
      exact ⟨hend, hdata⟩
  have hflags : faWrite &&& faCreateAlways = 0 := by decide
  have hnew := hseek { fs := true, err := .ok, fptr := 0, data := [] } rfl fun _ => rfl
  unfold FatFsDevice.openFileForOverWrite
  by_cases hopened : a.opened = .ok
  · simp only [Fil.fOpen, hopened, ne_eq, not_true_eq_false, if_true, if_false]
    exact ⟨⟨hnew.1, hflags⟩, fun _ => hnew.2⟩
  · by_cases hcreated : a.created = .ok
    · simp only [Fil.fOpen, hopened, hcreated, ne_eq, not_true_eq_false, not_false_eq_true, if_true,
        if_false]
      exact ⟨⟨hnew.1, hflags⟩, fun _ => hnew.2⟩
    · simp only [Fil.fOpen, hopened, hcreated, ne_eq, not_false_eq_true, if_true, if_false]
      exact ⟨⟨h.at_end, hflags⟩, by simp⟩

theorem checkNewFileOpenLocked_cases (h : c.Ready) (a : RotateAnswers) :
    (c.checkNewFileOpenLocked a).Ready ∧
      ((c.checkNewFileOpenLocked a).files = c.files ∨
        (c.checkNewFileOpenLocked a).files = c.files ++ [[]]) := by
  unfold CanLogFile.checkNewFileOpenLocked
  by_cases hsize : a.logFileSize ≤ c.writeFileDevice.getBufferedFileSize
  · rw [if_pos hsize]
    rcases closeFile_cases c.writeFileDevice a.closeSync a.closeReady with hclose | ⟨hdev, hres⟩
    · rw [hclose]
      have hinv : FatFsDevice.Inv { c.writeFileDevice with
          file := { c.writeFileDevice.file with fs := false } } := ⟨h.at_end, h.fflags⟩
      by_cases hcount : 0 < a.logFileCount
      · obtain ⟨hopen, hdata⟩ := openFileForOverWrite_cases hinv a.reopen
        simp only [if_true, hcount]
        refine ⟨hopen, ?_⟩
        by_cases hfs : (FatFsDevice.openFileForOverWrite { c.writeFileDevice with
            file := { c.writeFileDevice.file with fs := false } } a.reopen).1.file.fs = true
        · right
          rw [files, if_pos hfs, hdata hfs]
        · left
          rw [files, if_neg hfs]
      · simp only [if_true, hcount, if_false]
        exact ⟨hinv, .inl (by simp [files])⟩
    · simp only [hres, if_false, hdev]
      exact ⟨h, .inl trivial⟩
  · rw [if_neg hsize]
    exact ⟨h, .inl rfl⟩

theorem Ready.opened (index : Nat) : (opened index).Ready :=
  ⟨fun _ => rfl, show (faOpenAppend ||| faWrite) &&& faCreateAlways = 0 by decide⟩

end CanLogFile

namespace SdBridge

variable {ρ : Type u} [Lwrb ρ]

/-- The files hold what was stored, block after block, and every block begins at a multiple of
the block size. -/
structure Persisted (s : SdBridge ρ) : Prop where
  bytes : s.canLog.files.flatten = s.stored.flatMap Block.data
  aligned : ∀ file ∈ s.canLog.files, blockSize ∣ file.length

/-- The block that is stored after a failed store is the one that failed. -/
def Retried (s : SdBridge ρ) : Prop :=
  ∀ b ∈ s.failed, ∀ r ∈ s.lastStored, r.payload = b.payload ∧ r.data.length = blockSize

/-- The store that is due falls short without a trace, if it does. -/
def Clean (s : SdBridge ρ) : SdEvent → Prop
  | .storeToSd a =>
    s.point = .store → ∀ b ∈ s.log.lastRead, s.canLog.Clean b.data.length a
  | _ => True

section StoreToSd

omit [Lwrb ρ]

@[simp] theorem log_storeToSd (s : SdBridge ρ) (b : Block) (a : StoreAnswers) :
    (s.storeToSd b a).log = s.log := by
  simp only [SdBridge.storeToSd]

@[simp] theorem canLog_storeToSd (s : SdBridge ρ) (b : Block) (a : StoreAnswers) :
    (s.storeToSd b a).canLog = (s.canLog.storeToSd b.data a).1 := by
  simp only [SdBridge.storeToSd]

@[simp] theorem point_storeToSd (s : SdBridge ρ) (b : Block) (a : StoreAnswers) :
    (s.storeToSd b a).point =
      if (s.canLog.storeToSd b.data a).2 = .success then .rotate else .idle := by
  simp only [SdBridge.storeToSd]

end StoreToSd

variable {s t : SdBridge ρ} {epoch : UInt8}

variable [LawfulLwrb ρ]

/-- What an event does, and where the hook stands for it. -/
inductive Does (s : SdBridge ρ) : SdEvent → SdBridge ρ → Prop
  | addEntry {entry : LogEntry} {log : Session ρ}
      (hlog : Session.step s.log (.addEntry entry) = some log) :
      Does s (.addEntry entry) { s with log }
  | fillBlockWithPadding {log : Session ρ}
      (hlog : Session.step s.log .fillBlockWithPadding = some log) :
      Does s .fillBlockWithPadding { s with log }
  | actionHook (hpoint : s.point = .idle) : Does s .actionHook { s with point := .ready }
  | isBlockReady (hpoint : s.point = .ready) :
      Does s .isBlockReady { s with point := if s.log.buf.isBlockReady then .read else .idle }
  | readNextBlock (hpoint : s.point = .read) : Does s .readNextBlock s.readNextBlock
  | storeToSd {b : Block} (hpoint : s.point = .store) (hb : s.log.lastRead = some b)
      (a : StoreAnswers) : Does s (.storeToSd a) (s.storeToSd b a)
  | checkNewFile (hpoint : s.point = .rotate) (a : RotateAnswers) :
      Does s (.checkNewFile a)
        { s with canLog := s.canLog.checkNewFileOpenLocked a, point := .consume }
  | consume {b : Block} (hpoint : s.point = .consume) (hb : s.log.lastRead = some b) :
      Does s .consume (s.consume b)

theorem step_does {e : SdEvent} (hs : step s e = some t) : s.Does e t := by
  cases e with
  | addEntry entry =>
    cases hs
    exact .addEntry rfl
  | fillBlockWithPadding =>
    cases hs
    exact .fillBlockWithPadding rfl
  | storeToSd a =>
    simp only [step] at hs
    split at hs
    next b hpoint hb =>
      cases hs
      exact .storeToSd hpoint hb a
    · cases hs
  | consume =>
    simp only [step] at hs
    split at hs
    next b hpoint hb =>
      cases hs
      exact .consume hpoint hb
    · cases hs
  | _ =>
    simp only [step] at hs
    split at hs
    next hpoint =>
      cases hs
      constructor
      exact hpoint
    · cases hs

/-- What every step keeps: a block whose store failed is still the oldest of the log. -/
structure Inv (epoch : UInt8) (s : SdBridge ρ) : Prop where
  log : ∃ l, Session.Inv epoch s.log l ∧ ∀ b ∈ s.failed, Front epoch l b
  canLog : s.canLog.Ready

theorem Inv.start (s : CanLogBuffer ρ) (index : Nat) : Inv s.epochCount (start s index) where
  log := ⟨BlockLog.empty, .start s, by simp [SdBridge.start]⟩
  canLog := .opened index

omit [LawfulLwrb ρ] in
theorem Inv.storeToSd (h : Inv epoch s) (hb : s.log.lastRead = some b) (a : StoreAnswers) :
    Inv epoch (s.storeToSd b a) := by
  obtain ⟨⟨l, hlog, hfailed⟩, hcan⟩ := h
  have hready := hcan.storeToSd b.data a
  rw [← canLog_storeToSd] at hready
  rw [← log_storeToSd s b a] at hlog
  refine ⟨⟨l, hlog, ?_⟩, hready⟩
  rw [log_storeToSd] at hlog
  unfold SdBridge.storeToSd
  by_cases hres : (s.canLog.storeToSd b.data a).2 = .success
  · simp only [hres, if_true]
    exact hfailed
  · simp only [hres, if_false]
    intro b' hb'
    obtain rfl : b = b' := Option.some.inj hb'
    exact hlog.last_read b hb

theorem step_inv {e : SdEvent} (h : Inv epoch s) (hs : step s e = some t) : Inv epoch t := by
  obtain ⟨⟨l, hlog, hfailed⟩, hcan⟩ := h
  cases step_does hs with
  | addEntry hadd =>
    cases hadd
    exact ⟨⟨_, hlog.addEntry _, fun b hb => (hfailed b hb).add _⟩, hcan⟩
  | fillBlockWithPadding hpad =>
    cases hpad
    exact ⟨⟨_, hlog.fillBlockWithPadding, fun b hb => (hfailed b hb).pad⟩, hcan⟩
  | actionHook hpoint => exact ⟨⟨l, hlog, hfailed⟩, hcan⟩
  | isBlockReady hpoint => exact ⟨⟨l, hlog, hfailed⟩, hcan⟩
  | readNextBlock hpoint => exact ⟨⟨l, hlog.readNextBlock, hfailed⟩, hcan⟩
  | storeToSd hpoint hb a => exact Inv.storeToSd ⟨⟨l, hlog, hfailed⟩, hcan⟩ hb a
  | checkNewFile hpoint a =>
    exact ⟨⟨l, hlog, hfailed⟩, (CanLogFile.checkNewFileOpenLocked_cases hcan a).1⟩
  | consume hpoint hb =>
    obtain ⟨-, l', -, hlog'⟩ := hlog.consume hb
    exact ⟨⟨l', hlog', by simp [SdBridge.consume]⟩, hcan⟩

omit [LawfulLwrb ρ] in
theorem Inv.retried (h : Inv epoch s) : s.Retried := by
  obtain ⟨⟨l, hlog, hfailed⟩, -⟩ := h
  intro b hb r hr
  have hread : s.log.lastRead = some r := by
    revert hr
    unfold lastStored
    split <;> simp
  have hfront : Front epoch l r := hlog.last_read r hread
  exact ⟨hfront.payload_eq (hfailed b hb), hfront.length_data⟩

omit [Lwrb ρ] [LawfulLwrb ρ] in
theorem Persisted.of_same (h : s.Persisted) (hfiles : t.canLog.files = s.canLog.files)
    (hstored : t.stored = s.stored) : t.Persisted where
  bytes := by rw [hfiles, hstored, h.bytes]
  aligned := by
    rw [hfiles]
    exact h.aligned

omit [LawfulLwrb ρ] in
theorem persisted_storeToSd (h : Inv epoch s) (hp : s.Persisted) (hpoint : s.point = .store)
    (hb : s.log.lastRead = some b) (a : StoreAnswers) :
    (s.storeToSd b a).Persisted ↔ s.canLog.Clean b.data.length a := by
  obtain ⟨⟨l, hlog, -⟩, hcan⟩ := h
  have hlen : b.data.length = blockSize := Front.length_data (hlog.last_read b hb)
  have hpos : 0 < b.data.length := by
    rw [hlen]
    decide
  have hstored : s.stored = s.log.consumed := by simp [stored, lastStored, hpoint]
  have hsuccess := CanLogFile.storeToSd_success_iff hcan b.data a
  by_cases hr : a.write.Reaches s.canLog.writeFileDevice.file
  · obtain ⟨hbefore, hafter⟩ := CanLogFile.files_of_reaches hcan hr b.data
    obtain ⟨hbytes, haligned⟩ := hp
    rw [hbefore] at hbytes haligned
    rw [hstored] at hbytes
    unfold SdBridge.storeToSd CanLogFile.Clean
    by_cases hstores : s.canLog.Stores b.data.length a
    · have hcomplete := hstores.2.1
      rw [Nat.min_eq_right hcomplete.2, List.take_length] at hafter
      simp only [hsuccess.mpr hstores, if_true]
      refine iff_of_true ⟨?_, ?_⟩ fun _ => .inl hstores.2
      · simp only [hafter, stored, lastStored, hb]
        simp only [List.flatten_append, List.flatten_singleton] at hbytes ⊢
        rw [← List.append_assoc, hbytes]
        simp
      · simp only [hafter]
        intro file hfile
        rcases List.mem_append.mp hfile with hfile | hfile
        · exact haligned file (List.mem_append_left _ hfile)
        · obtain rfl := List.mem_singleton.mp hfile
          have := haligned _ (List.mem_append_right _ (List.mem_singleton_self _))
          rw [List.length_append, hlen]
          exact Nat.dvd_add this (Nat.dvd_refl _)
    · simp only [mt hsuccess.mp hstores, if_false]
      constructor
      · -- nothing was stored, so the bytes the write took are too many
        rintro ⟨hbytes', -⟩ -
        simp only [hafter, stored, lastStored, Option.toList_none, List.append_nil] at hbytes'
        simp only [List.flatten_append, List.flatten_singleton] at hbytes hbytes'
        rw [← List.append_assoc, hbytes] at hbytes'
        have hnone : min a.write.write.accepted b.data.length = 0 := by
          have := congrArg List.length hbytes'
          simp only [List.length_append, List.length_take] at this
          omega
        have hzero : a.write.write.accepted = 0 := by omega
        refine .inr ⟨?_, hzero⟩
        rintro ⟨-, hle⟩
        omega
      · intro hclean
        rcases hclean hr with ⟨hcomplete, hsync⟩ | ⟨-, hzero⟩
        · exact absurd ⟨hr, hcomplete, hsync⟩ hstores
        · rw [hzero, Nat.zero_min, List.take_zero, List.append_nil] at hafter
          refine ⟨?_, ?_⟩
          · simp only [hafter, stored, lastStored, Option.toList_none, List.append_nil]
            exact hbytes
          · simp only [hafter]
            exact haligned
  · refine iff_of_true ?_ fun hreaches => absurd hreaches hr
    have hfiles := CanLogFile.files_of_not_reaches hcan hr b.data
    have hfails : (s.canLog.storeToSd b.data a).2 ≠ .success :=
      fun hres => hr (hsuccess.mp hres).1
    refine hp.of_same ?_ ?_
    · simp only [SdBridge.storeToSd, hfails, if_false, hfiles]
    · simp only [SdBridge.storeToSd, hfails, if_false, stored, lastStored, hpoint]

omit [LawfulLwrb ρ] in
theorem stored_readNextBlock (hpoint : s.point = .read) : s.readNextBlock.stored = s.stored := by
  cases hread : s.log.buf.readNextBlock.2 with
  | ok b => simp [SdBridge.readNextBlock, stored, lastStored, Session.afterRead, hread, hpoint]
  | error r => simp [SdBridge.readNextBlock, stored, lastStored, Session.afterRead, hread, hpoint]

theorem persisted_step {e : SdEvent} (h : Inv epoch s) (hp : s.Persisted)
    (hs : step s e = some t) : t.Persisted ↔ s.Clean e := by
  cases step_does hs with
  | addEntry hadd =>
    cases hadd
    exact iff_of_true (hp.of_same rfl rfl) trivial
  | fillBlockWithPadding hpad =>
    cases hpad
    exact iff_of_true (hp.of_same rfl rfl) trivial
  | actionHook hpoint =>
    exact iff_of_true (hp.of_same rfl (by simp [stored, lastStored, hpoint])) trivial
  | isBlockReady hpoint =>
    refine iff_of_true (hp.of_same rfl ?_) trivial
    cases s.log.buf.isBlockReady <;> simp [stored, lastStored, hpoint]
  | readNextBlock hpoint =>
    exact iff_of_true (hp.of_same rfl (stored_readNextBlock hpoint)) trivial
  | storeToSd hpoint hb a =>
    rw [persisted_storeToSd h hp hpoint hb a]
    simp [Clean, hpoint, hb]
  | checkNewFile hpoint a =>
    refine iff_of_true ?_ trivial
    rcases (CanLogFile.checkNewFileOpenLocked_cases h.canLog a).2 with hfiles | hfiles
    · exact hp.of_same hfiles (by simp [stored, lastStored, hpoint])
    · refine ⟨?_, ?_⟩
      · simp only [hfiles, stored, lastStored]
        simpa [stored, lastStored, hpoint] using hp.bytes
      · simp only [hfiles]
        intro file hfile
        rcases List.mem_append.mp hfile with hfile | hfile
        · exact hp.aligned file hfile
        · obtain rfl := List.mem_singleton.mp hfile
          exact Nat.dvd_zero _
  | consume hpoint hb =>
    refine iff_of_true (hp.of_same rfl ?_) trivial
    simp [SdBridge.consume, stored, lastStored, hpoint, hb]

def reading (s : SdBridge ρ) : SdBridge ρ :=
  { s with
    log := s.log.afterRead s.log.buf.readNextBlock.1 s.log.buf.readNextBlock.2
    point := .store }

omit [LawfulLwrb ρ] in
@[simp] theorem canLog_reading (s : SdBridge ρ) : s.reading.canLog = s.canLog := rfl

omit [LawfulLwrb ρ] in
@[simp] theorem consumed_reading (s : SdBridge ρ) :
    s.reading.log.consumed = s.log.consumed := by
  simp only [reading, Session.afterRead]
  split <;> rfl

theorem run_read (h : Session.Inv epoch s.log l) (hl : l.complete = lb :: bs)
    (hpoint : s.point = .idle) :
    Step.run step s [.actionHook, .isBlockReady, .readNextBlock] = some s.reading ∧
      Session.Inv epoch s.reading.log l ∧
      s.reading.log.lastRead = some (s.log.buf.emitted lb) ∧
      s.reading.log.buf.blockCount = s.log.buf.blockCount + 1 := by
  have hspec := CanLogBuffer.readNextBlock_spec h.represents
  rw [hl] at hspec
  obtain ⟨rb1, hok, -⟩ := hspec
  have hready : s.log.buf.isBlockReady = true := by
    rw [CanLogBuffer.isBlockReady_iff h.represents, hl]
    simp
  refine ⟨?_, h.readNextBlock, ?_, ?_⟩
  · simp [Step.run, step, hpoint, hready, SdBridge.readNextBlock, reading, hok]
  · simp [reading, hok, Session.afterRead]
  · simp [reading, hok, Session.afterRead]

theorem run_entry (h : Session.Inv epoch s.log l) (hc : l.complete = []) (hu : l.current = [])
    (e : LogEntry) :
    ∃ log l' lb, Step.run step s [.addEntry e, .fillBlockWithPadding] = some { s with log } ∧
      Session.Inv epoch log l' ∧ l'.complete = [lb] ∧ l'.current = [] ∧
      log.consumed = s.log.consumed := by
  have hroom : canLogLayout.fill l.current + canLogLayout.size e < canLogLayout.block := by
    rw [hu]
    exact canLogLayout.room e
  obtain ⟨l₁, hadd, hc₁, hu₁⟩ := BlockLog.add_of_lt hroom
  obtain ⟨lb, l₂, hpad, -, hc₂, hu₂⟩ := BlockLog.pad_of_lt (l := l₁) (by rw [hu₁]; simp) (by
    rw [hc₁, hc]
    decide)
  rw [hc₁, hc] at hc₂
  have h₁ := h.addEntry e
  rw [hadd, Option.getD_some] at h₁
  have h₂ := h₁.fillBlockWithPadding
  rw [hpad, Option.getD_some] at h₂
  exact ⟨_, l₂, lb, rfl, h₂, hc₂, hu₂, rfl⟩

theorem clean_of_stuck {e : SdEvent} (hs : step s e = none) : s.Clean e := by
  cases e with
  | storeToSd a =>
    intro hpoint b hb
    rw [Option.mem_def] at hb
    simp [step, hpoint, hb] at hs
  | _ => trivial

/-- The files hold every block once, whole and in order, exactly as long as no write falls short
after it took some bytes, and no sync fails after a complete one. -/
theorem persisted_iff (s₀ : CanLogBuffer ρ) (index : Nat) (es : List SdEvent) :
    Step.Throughout step (fun s => s.Persisted ∧ s.Retried) (start s₀ index) es ↔
      Step.Along step Clean (start s₀ index) es := by
  apply Step.throughout_iff_along (I := Inv s₀.epochCount)
  · exact step_inv
  · rintro s e t h ⟨hp, -⟩ hs
    rw [and_iff_left (step_inv h hs).retried]
    exact persisted_step h hp hs
  · intro s e _ hs
    exact clean_of_stuck hs
  · exact .start s₀ index
  · exact ⟨⟨rfl, by simp [SdBridge.start, CanLogFile.opened, CanLogFile.files]⟩,
      by simp [Retried, SdBridge.start]⟩

def wholeBlock (pending : Bool) (sync : FResult) : StoreAnswers where
  write := {
    seek := ⟨.ok, .ok, 0⟩
    truncate := ⟨.ok, .ok, 0⟩
    reseek := ⟨.ok, .ok, 0⟩
    write := ⟨.ok, blockSize, .ok⟩ }
  pending
  sync := ⟨.ok, sync, 0⟩

theorem run_store (h : Session.Inv epoch s.log l) (hl : l.complete = lb :: bs)
    (hpoint : s.point = .idle) (a : StoreAnswers) :
    Step.run step s [.actionHook, .isBlockReady, .readNextBlock, .storeToSd a] =
      some (s.reading.storeToSd (s.log.buf.emitted lb) a) := by
  obtain ⟨hread, -, hlast, -⟩ := run_read h hl hpoint
  have hpoint' : s.reading.point = .store := rfl
  have hstore : step s.reading (.storeToSd a) =
      some (s.reading.storeToSd (s.log.buf.emitted lb) a) := by
    simp only [step, hpoint', hlast]
  exact (Step.run_snoc hread hstore :)

theorem storeToSd_wholeBlock {c : CanLogFile} {data : List UInt8} (h : c.Ready)
    (hfs : c.writeFileDevice.file.fs = true) (herr : c.writeFileDevice.file.err = .ok)
    (hlen : data.length = blockSize) (sync : FResult) :
    (c.storeToSd data (wholeBlock true sync)).1.writeFileDevice.file.fs = true ∧
      (c.storeToSd data (wholeBlock true sync)).1.writeFileDevice.file.err = .ok ∧
      (c.storeToSd data (wholeBlock true sync)).1.files.flatten = c.files.flatten ++ data ∧
      ((c.storeToSd data (wholeBlock true sync)).2 = .success ↔ sync = .ok) ∧
      (c.writeFileDevice.writeFile data (wholeBlock true sync).write).2 = .ok := by
  have hr : (wholeBlock true sync).write.Reaches c.writeFileDevice.file :=
    ⟨hfs, herr, .inl ⟨rfl, rfl⟩, rfl⟩
  have hcomplete : (wholeBlock true sync).write.write.Complete data.length :=
    ⟨rfl, Nat.le_of_eq hlen⟩
  obtain ⟨-, hfs', herr', -, hok⟩ := FatFsDevice.writeFile_of_reaches h hr data
  obtain ⟨hbefore, hafter⟩ := CanLogFile.files_of_reaches h hr data
  rw [Nat.min_eq_right hcomplete.2, List.take_length] at hafter
  refine ⟨?_, ?_, ?_, ?_, hok.mpr hcomplete⟩
  · rw [CanLogFile.storeToSd_writeFile]
    exact hfs'.trans hfs
  · rw [CanLogFile.storeToSd_writeFile]
    exact herr'
  · rw [hafter, hbefore]
    simp
  · rw [CanLogFile.storeToSd_success_iff h]
    constructor
    · rintro ⟨-, -, hsync⟩
      exact (hsync rfl).2
    · intro hsync
      exact ⟨hr, hcomplete, fun _ => ⟨rfl, hsync⟩⟩

structure Able (epoch : UInt8) (s : SdBridge ρ) (l : CanLog) : Prop where
  log : Session.Inv epoch s.log l
  canLog : s.canLog.Ready
  fs : s.canLog.writeFileDevice.file.fs = true
  err : s.canLog.writeFileDevice.file.err = .ok

theorem run_wholeBlock (h : Able epoch s l) (hl : l.complete = lb :: bs)
    (hpoint : s.point = .idle) (sync : FResult) :
    ∃ t, Step.run step s [.actionHook, .isBlockReady, .readNextBlock,
        .storeToSd (wholeBlock true sync)] = some t ∧
      Able epoch t l ∧ t.point = (if sync = .ok then .rotate else .idle) ∧
      t.canLog.files.flatten.length = s.canLog.files.flatten.length + blockSize ∧
      t.log.consumed = s.log.consumed ∧
      t.log.lastRead = some (s.log.buf.emitted lb) ∧
      (s.log.buf.emitted lb).data.length = blockSize ∧
      t.written = s.written ++ [s.log.buf.emitted lb] ∧ t.failures = 0 := by
  obtain ⟨-, hlog, hlast, -⟩ := run_read h.log hl hpoint
  have hrun := run_store h.log hl hpoint (wholeBlock true sync)
  have hlen : (s.log.buf.emitted lb).data.length = blockSize :=
    Front.length_data (hlog.last_read _ hlast)
  obtain ⟨hfs, herr, hfiles, hres, hwrote⟩ :=
    storeToSd_wholeBlock h.canLog h.fs h.err hlen sync
  refine ⟨_, hrun, ?_, ?_, ?_, ?_, by rw [log_storeToSd, hlast], hlen, ?_⟩
  · constructor
    case log =>
      rw [log_storeToSd]
      exact hlog
    case canLog =>
      rw [canLog_storeToSd, canLog_reading]
      exact h.canLog.storeToSd _ _
    case fs =>
      rw [canLog_storeToSd, canLog_reading]
      exact hfs
    case err =>
      rw [canLog_storeToSd, canLog_reading]
      exact herr
  · simp only [point_storeToSd, canLog_reading, hres]
  · rw [canLog_storeToSd, canLog_reading, hfiles, List.length_append, hlen]
  · rw [log_storeToSd, consumed_reading]
  · simp only [SdBridge.storeToSd, canLog_reading, hwrote, if_true]
    exact ⟨rfl, trivial⟩

theorem persisted_entry :
    Step.Throughout step (fun s => s.Persisted ∧ s.Retried) (start (.boot : CanLogBuffer ByteQueue) 0)
      [.addEntry (.sync (.ofFields 3 7 1)), .fillBlockWithPadding, .actionHook, .isBlockReady,
        .readNextBlock, .storeToSd (wholeBlock true .ok), .consume] := by
  apply (persisted_iff _ _ _).mpr
  refine Step.along_of_forall step_inv (.start _ 0) ?_
  intro e he s hs
  have hstore : s.Clean (.storeToSd (wholeBlock true .ok)) := by
    intro _ b hb _
    obtain ⟨⟨l, hlog, -⟩, -⟩ := hs
    have hlen : b.data.length = blockSize := Front.length_data (hlog.last_read b hb)
    exact .inl ⟨⟨rfl, Nat.le_of_eq hlen⟩, fun _ => ⟨rfl, rfl⟩⟩
  simp only [List.mem_cons, List.not_mem_nil, or_false] at he
  rcases he with rfl | rfl | rfl | rfl | rfl | rfl | rfl
  case inr.inr.inr.inr.inr.inl => exact hstore
  all_goals trivial

/-- The first write is complete, but the sync after it fails, and the block is written again. -/
theorem unsynced_block_doubled :
    ¬Step.Throughout step (fun s => s.Persisted ∧ s.Retried)
      (start (.boot : CanLogBuffer ByteQueue) 0)
      [.addEntry (.sync (.ofFields 3 7 1)), .fillBlockWithPadding, .actionHook, .isBlockReady,
        .readNextBlock, .storeToSd (wholeBlock true .diskErr), .actionHook, .isBlockReady,
        .readNextBlock, .storeToSd (wholeBlock true .ok)] := by
  intro hall
  obtain ⟨log, l, lb, hrun, hlog, hl, -, hconsumed⟩ :=
    run_entry (s := start (.boot : CanLogBuffer ByteQueue) 0) (.start .boot) rfl rfl (.sync (.ofFields 3 7 1))
  have hable : Able 0 { start (.boot : CanLogBuffer ByteQueue) 0 with log } l :=
    ⟨hlog, .opened 0, rfl, rfl⟩
  obtain ⟨t, hrun₁, hable₁, hpoint₁, hfiles₁, hconsumed₁, -⟩ :=
    run_wholeBlock hable hl rfl .diskErr
  obtain ⟨u, hrun₂, hable₂, hpoint₂, hfiles₂, hconsumed₂, hlast, hlen, -⟩ :=
    run_wholeBlock hable₁ hl hpoint₁ .ok
  have hrun' := Step.run_append_eq_some.mpr
    ⟨t, Step.run_append_eq_some.mpr ⟨_, hrun, hrun₁⟩, hrun₂⟩
  obtain ⟨⟨hbytes, -⟩, -⟩ := hall _ _ (List.prefix_refl _) hrun'
  have hconsumed' : u.log.consumed = [] := hconsumed₂.trans (hconsumed₁.trans hconsumed)
  have hcount := congrArg List.length hbytes
  simp only [hfiles₂, hfiles₁, stored, lastStored, hpoint₂, hconsumed', hlast, if_true,
    List.nil_append, Option.toList_some, List.flatMap_singleton, hlen, blockSize] at hcount
  omega

end SdBridge

end CanSniffer.Logging
