import CanSniffer.Lib.Transition
import CanSniffer.Logging.LogFilesLaws
import CanSniffer.Logging.MetaDataLaws
import CanSniffer.Logging.PreallocLaws

namespace CanSniffer.Logging

open Lib Decimal Storage

structure LogCard where
  metaData : Option (List UInt8)
  marker : Option (List UInt8)
  file : Nat → Option (List UInt8)

/-- One boot: the configured files, what the variables of the parser held, how the volume answers
the preallocation, what a file has where it grew, and the blocks stored, each with whether the file
could be closed behind it. -/
structure LogBoot where
  logFileSize : UInt32
  logFileCount : UInt32
  dev : FatFsDevice
  stack : CanLogMetaData
  prealloc : PreallocAnswers
  clusters : Nat → Nat → UInt8
  blocks : List (Block × Bool)

def LogBoot.cfg (b : LogBoot) : LogFileConfig := setFileConfig b.logFileSize b.logFileCount

def CanLogMetaData.ofBoot (n : Nat) : CanLogMetaData where
  epoch := .ofNat n
  fileIndex := 0
  byteOffset := 0
  crc := 0

namespace LogCard

variable (json : CoreJson)

def content (s : LogCard) (i : Nat) : List UInt8 := (s.file i).getD []

def loaded (s : LogCard) (b : LogBoot) : CanLogMetaData :=
  (CanLogMetaData.load json s.metaData b.dev b.stack (.ofBoot 0)).1

def handlerInit (s : LogCard) (b : LogBoot) : CanLogMetaData :=
  { s.loaded json b with epoch := (s.loaded json b).epoch + 1 }

def epochCount (s : LogCard) (b : LogBoot) : UInt8 := (s.handlerInit json b).epoch.toUInt8

def preallocate (s : LogCard) (b : LogBoot) : Preallocated :=
  preallocateLogFiles json (fun i => (s.file i).map List.length) s.marker
    (.ofNat b.cfg.logFileSize) (.ofNat b.cfg.logFileCount) b.prealloc

/-- Behind what it had, a file that grows holds what its clusters did. -/
def grown (data : List UInt8) (size : Nat) (clusters : Nat → UInt8) : List UInt8 :=
  data ++ (List.range' data.length (size - data.length)).map clusters

def preallocated (s : LogCard) (b : LogBoot) (i : Nat) : List UInt8 :=
  grown (s.content i) (((s.preallocate json b).dir i).getD 0) (b.clusters i)

def storeAll (cfg : LogFileConfig) (content : Nat → List UInt8) (blocks : List (Block × Bool)) :
    LogFiles :=
  blocks.foldl (fun l p => (l.storeToSd p.1).checkNewFileOpenLocked cfg p.2) (.start content)

/-- Only what was made by the preallocation or opened by the writer is there afterwards. -/
def step : Step LogCard LogBoot
  | s, b =>
    let made := s.preallocate json b
    let files := storeAll b.cfg (s.preallocated json b) b.blocks
    some
      { metaData := ((s.handlerInit json b).store s.metaData b.dev).2
        marker :=
          match made.stored with
          | some text => some (overwrite s.marker text)
          | none => s.marker
        file := fun i =>
          if (made.dir i).isSome ∨ i = files.fileHeadIndex ∨ files.content i ≠ [] then
            some (files.content i)
          else none }

/-- The clusters of the files that grow have, where a block could begin, no epoch of this boot or
of a later one of the first `m`. -/
def Fresh (m : Nat) (s : LogCard) (b : LogBoot) : Prop :=
  ∀ i, s.content i = [] → ∀ k, (s.handlerInit json b).epoch.toNat ≤ k → k ≤ m →
    OlderEpoch (.ofNat k) (s.preallocated json b i)

structure Careful (m : Nat) (s : LogCard) (b : LogBoot) : Prop where
  blocks : ∀ p ∈ b.blocks, ∃ es, Carries (s.epochCount json b) es p.1
  fresh : s.Fresh json m b

end LogCard

/-- Wherever a block could begin, its epoch is one of `V`. -/
def EpochsIn (V : UInt8 → Prop) (data : List UInt8) : Prop :=
  ∀ j, j * blockSize < data.length → ∃ e, data[j * blockSize + 2]? = some e ∧ V e

namespace EpochsIn

variable {V W : UInt8 → Prop} {data : List UInt8}

theorem mono (h : EpochsIn V data) (hVW : ∀ e, V e → W e) : EpochsIn W data := by
  intro j hj
  obtain ⟨e, he, hV⟩ := h j hj
  exact ⟨e, he, hVW e hV⟩

theorem overwrite {block : List UInt8} {e : UInt8} {pos : Nat} (h : EpochsIn V data)
    (hpos : pos * blockSize ≤ data.length) (hlen : block.length = blockSize)
    (he : block[2]? = some e) (hV : V e) :
    EpochsIn V
      (data.take (pos * blockSize) ++ block ++ data.drop (pos * blockSize + block.length)) := by
  have htwo : 2 < blockSize := by decide
  intro j hj
  have htake : (data.take (pos * blockSize)).length = pos * blockSize := by
    rw [List.length_take, Nat.min_eq_left hpos]
  simp only [List.length_append, List.length_drop, htake, hlen] at hj
  rw [hlen, List.append_assoc]
  rcases Nat.lt_trichotomy j pos with hlt | rfl | hgt
  · have hle : j * blockSize + blockSize ≤ pos * blockSize := by
      rw [← Nat.succ_mul]
      exact Nat.mul_le_mul_right _ hlt
    obtain ⟨e', he', hV'⟩ := h j (by omega)
    refine ⟨e', ?_, hV'⟩
    rw [List.getElem?_append_left (by omega), List.getElem?_take_of_lt (by omega)]
    exact he'
  · refine ⟨e, ?_, hV⟩
    rw [List.getElem?_append_right (by omega), htake, Nat.add_sub_cancel_left,
      List.getElem?_append_left (by omega)]
    exact he
  · have hle : pos * blockSize + blockSize ≤ j * blockSize := by
      rw [← Nat.succ_mul]
      exact Nat.mul_le_mul_right _ hgt
    obtain ⟨e', he', hV'⟩ := h j (by omega)
    refine ⟨e', ?_, hV'⟩
    have hsum : pos * blockSize + blockSize + (j * blockSize + 2 - pos * blockSize - blockSize) =
        j * blockSize + 2 := by omega
    rw [List.getElem?_append_right (by omega), htake, List.getElem?_append_right (by omega), hlen,
      List.getElem?_drop, hsum]
    exact he'

end EpochsIn

theorem Carries.epoch_eq {epoch : UInt8} {es : List LogEntry} {b : Block}
    (h : Carries epoch es b) : b.data[2]? = some epoch := by
  obtain ⟨header, h⟩ := h
  rw [h.data, ← h.epoch_eq]
  rfl

namespace LogFiles

structure Aligned (V : UInt8 → Prop) (l : LogFiles) : Prop where
  fptr : ∃ pos, l.fptr = pos * blockSize ∧ pos * blockSize ≤ (l.content l.fileHeadIndex).length
  epochs : ∀ i, EpochsIn V (l.content i)

namespace Aligned

variable {V : UInt8 → Prop} {l : LogFiles}

theorem start {content : Nat → List UInt8} (h : ∀ i, EpochsIn V (content i)) :
    Aligned V (.start content) :=
  ⟨⟨0, (Nat.zero_mul _).symm, by rw [Nat.zero_mul]; exact Nat.zero_le _⟩, h⟩

theorem storeToSd (h : Aligned V l) {epoch : UInt8} {es : List LogEntry} {b : Block}
    (hb : Carries epoch es b) (hV : V epoch) : Aligned V (l.storeToSd b) := by
  obtain ⟨pos, hfptr, hle⟩ := h.fptr
  have hlen := hb.length_data
  constructor
  · refine ⟨pos + 1, ?_, ?_⟩
    · show l.fptr + b.data.length = (pos + 1) * blockSize
      rw [hfptr, hlen, Nat.succ_mul]
    · simp only [LogFiles.storeToSd, Function.update_self, List.length_append, List.length_take,
        List.length_drop, hfptr, hlen, Nat.succ_mul]
      omega
  · intro i
    by_cases hi : i = l.fileHeadIndex
    · subst hi
      simp only [LogFiles.storeToSd, Function.update_self, hfptr]
      exact (h.epochs _).overwrite hle hlen hb.epoch_eq hV
    · simp only [LogFiles.storeToSd, Function.update_of_ne hi]
      exact h.epochs i

theorem checkNewFileOpenLocked (h : Aligned V l) (cfg : LogFileConfig) (closed : Bool) :
    Aligned V (l.checkNewFileOpenLocked cfg closed) := by
  unfold LogFiles.checkNewFileOpenLocked
  split
  · split
    · exact ⟨⟨0, (Nat.zero_mul _).symm, by rw [Nat.zero_mul]; exact Nat.zero_le _⟩, h.epochs⟩
    · exact h
  · exact h

end Aligned

end LogFiles

namespace LogCard

variable {json : CoreJson} {cfg : LogFileConfig} {s t : LogCard} {b : LogBoot} {n m : Nat}

theorem storeAll_epochs {V : UInt8 → Prop} {content : Nat → List UInt8} {epoch : UInt8}
    {blocks : List (Block × Bool)} (h : ∀ i, EpochsIn V (content i))
    (hblocks : ∀ p ∈ blocks, ∃ es, Carries epoch es p.1) (hV : V epoch) :
    ∀ i, EpochsIn V ((storeAll cfg content blocks).content i) := by
  have haligned : LogFiles.Aligned V (storeAll cfg content blocks) := by
    unfold storeAll
    generalize hl : LogFiles.start content = l
    have hstart : LogFiles.Aligned V l := hl ▸ .start h
    clear hl
    induction blocks generalizing l with
    | nil => exact hstart
    | cons p ps ih =>
      obtain ⟨es, hes⟩ := hblocks p List.mem_cons_self
      rw [List.foldl_cons]
      exact ih (fun q hq => hblocks q (List.mem_cons_of_mem _ hq)) _
        ((hstart.storeToSd hes hV).checkNewFileOpenLocked cfg p.2)
  exact haligned.epochs

theorem length_content (s : LogCard) (i : Nat) :
    ((s.file i).map List.length).getD 0 = (s.content i).length := by
  rw [content]
  cases s.file i <;> rfl

theorem grown_of_le {data : List UInt8} {size : Nat} (h : size ≤ data.length)
    (clusters : Nat → UInt8) : grown data size clusters = data := by
  rw [grown, Nat.sub_eq_zero_of_le h, List.range'_zero, List.map_nil, List.append_nil]

theorem preallocated_cases (json : CoreJson) (s : LogCard) (b : LogBoot) (i : Nat) :
    s.preallocated json b i = s.content i ∨
      s.preallocated json b i = grown (s.content i)
        ((preallocateLogFile ((s.file i).map List.length) (.ofNat b.cfg.logFileSize)
          (b.prealloc.file i)).1.getD 0) (b.clusters i) := by
  rw [preallocated, preallocate]
  rcases preallocateLogFiles_size json (fun i => (s.file i).map List.length) s.marker
    (.ofNat b.cfg.logFileSize) (.ofNat b.cfg.logFileCount) b.prealloc i with h | h
  · rw [h, length_content]
    exact .inl (grown_of_le (Nat.le_refl _) _)
  · rw [h]
    exact .inr rfl

theorem preallocated_eq (json : CoreJson) (b : LogBoot) {i : Nat} (h : s.content i ≠ []) :
    s.preallocated json b i = s.content i := by
  rcases preallocated_cases json s b i with hkeep | hturn
  · exact hkeep
  · have hpos : 0 < ((s.file i).map List.length).getD 0 := by
      rw [length_content]
      exact List.length_pos_iff.mpr h
    rw [hturn, preallocateLogFile_of_pos hpos, length_content]
    exact grown_of_le (Nat.le_refl _) _

theorem content_step (ht : step json s b = some t) (i : Nat) :
    t.content i = (storeAll b.cfg (s.preallocated json b) b.blocks).content i := by
  cases ht
  rw [content]
  dsimp only
  split
  · rfl
  · next hnone => exact (Decidable.not_not.mp (not_or.mp (not_or.mp hnone).2).2).symm

theorem ofNat_epoch (n : Nat) : (CanLogMetaData.ofBoot n).epoch.toUInt8 = .ofNat n := by
  apply UInt8.toNat_inj.mp
  simp only [CanLogMetaData.ofBoot, UInt32.toNat_toUInt8, UInt32.toNat_ofNat', UInt8.toNat_ofNat']
  omega

theorem ofBoot_readable (hn : n < 0x80000000) : (CanLogMetaData.ofBoot n).Readable := by
  have hzero : (0 : UInt32).toNat < 0x80000000 := by decide
  refine ⟨?_, hzero, hzero, hzero⟩
  simp only [CanLogMetaData.ofBoot, UInt32.toNat_ofNat']
  omega

theorem formatLength_le (hn : n + 1 < 0x80000000) :
    (CanLogMetaData.ofBoot n).formatLength ≤ (CanLogMetaData.ofBoot (n + 1)).formatLength := by
  have hepoch (m : Nat) (hm : m < 0x80000000) : (CanLogMetaData.ofBoot m).epoch.toNat = m := by
    simp only [CanLogMetaData.ofBoot, UInt32.toNat_ofNat']
    omega
  have hle : (unsigned n).length ≤ (unsigned (n + 1)).length := by
    have hpos : 0 < (unsigned (n + 1)).length := List.length_pos_iff.mpr (unsigned_ne_nil _)
    have hlt := (length_unsigned_le_iff hpos).mp (Nat.le_refl _)
    exact (length_unsigned_le_iff hpos).mpr (by omega)
  unfold CanLogMetaData.formatLength
  rw [hepoch n (by omega), hepoch (n + 1) hn]
  exact Nat.add_le_add_right (Nat.add_le_add_right (Nat.add_le_add_right
    (Nat.add_le_add_right hle _) _) _) _

def Counted (s : LogCard) (n : Nat) : Prop :=
  s.metaData = if n = 0 then none else some (CanLogMetaData.metaFormat (.ofBoot n))

theorem loaded_eq (hjson : json.Documented) (h : s.Counted n) (hn : n < 0x80000000) :
    s.loaded json b = .ofBoot n := by
  rw [loaded]
  by_cases hzero : n = 0
  · subst hzero
    rw [h, if_pos rfl]
    rfl
  · have hlt := CanLogMetaData.formatLength_lt (.ofBoot n)
    rw [← CanLogMetaData.length_metaFormat] at hlt
    have hparse := CanLogMetaData.parse_metaFormat (.ofBoot n) []
    rw [List.append_nil] at hparse
    rw [h, if_neg hzero, CanLogMetaData.load_some, List.take_of_length_le (Nat.le_of_lt hlt),
      CanLogMetaData.parseMetaData_tree hjson (hparse.trans (if_pos rfl))]
    exact (CanLogMetaData.parsed_eq_iff _ _).mpr (ofBoot_readable hn)

theorem handlerInit_eq (hjson : json.Documented) (h : s.Counted n) (hn : n < 0x80000000) :
    s.handlerInit json b = .ofBoot (n + 1) := by
  have hsucc : (CanLogMetaData.ofBoot n).epoch + 1 = (CanLogMetaData.ofBoot (n + 1)).epoch := by
    apply UInt32.toNat_inj.mp
    simp only [CanLogMetaData.ofBoot, UInt32.toNat_add, UInt32.toNat_ofNat', UInt32.toNat_one]
    omega
  rw [handlerInit, loaded_eq hjson h hn, hsucc]
  rfl

theorem store_counted (h : s.Counted n) (hn : n + 1 < 0x80000000)
    (dev : FatFsDevice) :
    (CanLogMetaData.store s.metaData dev (.ofBoot (n + 1))).2 =
      some (CanLogMetaData.metaFormat (.ofBoot (n + 1))) := by
  have hle := formatLength_le hn
  rw [← CanLogMetaData.length_metaFormat, ← CanLogMetaData.length_metaFormat] at hle
  rw [CanLogMetaData.store_eq, h]
  dsimp only
  rw [overwrite]
  split
  · rw [Option.getD_none, List.drop_nil, List.append_nil]
  · rw [Option.getD_some, List.drop_eq_nil_of_le hle, List.append_nil]

/-- No epoch of the boots behind the first `n` of `m`. -/
def Seen (m n : Nat) (e : UInt8) : Prop := ∀ k, n < k → k ≤ m → e ≠ .ofNat k

theorem Seen.mono {e : UInt8} (h : Seen m n e) : Seen m (n + 1) e :=
  fun k hlt => h k (Nat.lt_of_succ_lt hlt)

theorem Seen.own (hm : m ≤ 256) (n : Nat) : Seen m (n + 1) (.ofNat (n + 1)) := by
  intro k hlt hle heq
  have heq := congrArg UInt8.toNat heq
  rw [UInt8.toNat_ofNat', UInt8.toNat_ofNat'] at heq
  omega

theorem epochsIn_seen {data : List UInt8} (hlt : n < m)
    (h : ∀ k, n < k → k ≤ m → OlderEpoch (.ofNat k) data) : EpochsIn (Seen m n) data := by
  intro j hj
  obtain ⟨e, he, -⟩ := h (n + 1) (Nat.lt_succ_self n) hlt j hj
  refine ⟨e, he, fun k hnk hkm => ?_⟩
  obtain ⟨e', he', hne⟩ := h k hnk hkm j hj
  rw [he] at he'
  cases he'
  exact hne

structure Inv (m : Nat) (s : LogCard) (n : Nat) : Prop where
  counted : s.Counted n
  epochs : ∀ i, EpochsIn (Seen m n) (s.content i)

namespace Inv

theorem start (hm : 0 < m) (hmeta : s.metaData = none)
    (h : ∀ k, 0 < k → k ≤ m → ∀ i, OlderEpoch (.ofNat k) (s.content i)) : s.Inv m 0 :=
  ⟨hmeta, fun i => epochsIn_seen hm fun k hpos hle => h k hpos hle i⟩

theorem epochCount (h : s.Inv m n) (hjson : json.Documented) (hn : n < 0x80000000) :
    s.epochCount json b = .ofNat (n + 1) := by
  rw [LogCard.epochCount, handlerInit_eq hjson h.counted hn, ofNat_epoch]

theorem preallocated (h : s.Inv m n) (hjson : json.Documented) (hm : m ≤ 256) (hn : n < m)
    (hfresh : s.Fresh json m b) (i : Nat) :
    EpochsIn (Seen m n) (s.preallocated json b i) := by
  by_cases hi : s.content i = []
  · refine epochsIn_seen hn fun k hlt hle => hfresh i hi k ?_ hle
    rw [handlerInit_eq hjson h.counted (by omega)]
    simp only [CanLogMetaData.ofBoot, UInt32.toNat_ofNat']
    omega
  · rw [preallocated_eq json b hi]
    exact h.epochs i

theorem step (h : s.Inv m n) (hjson : json.Documented) (hm : m ≤ 256) (hn : n < m)
    (hc : s.Careful json m b) (ht : step json s b = some t) : t.Inv m (n + 1) := by
  have hepoch := h.epochCount (b := b) hjson (by omega)
  constructor
  · cases ht
    unfold Counted
    dsimp only
    rw [handlerInit_eq hjson h.counted (by omega), store_counted h.counted (by omega)]
    rfl
  · intro i
    rw [content_step ht]
    refine storeAll_epochs
      (fun i => (h.preallocated hjson hm hn hc.fresh i).mono fun e he => he.mono)
      (fun p hp => ?_) (Seen.own hm n) i
    obtain ⟨es, hes⟩ := hc.blocks p hp
    exact ⟨es, hepoch ▸ hes⟩

end Inv

/-- Each of the first 256 boots loads what the one before stored, has an epoch of its own, and
starts to write with no block of that epoch in the files. -/
theorem boot_finds_older (json : CoreJson) (s₀ s : LogCard) (bs : List LogBoot) (b : LogBoot)
    (hjson : json.Documented) (hlen : bs.length < 256) (hmeta : s₀.metaData = none)
    (hcontent : ∀ k, 0 < k → k ≤ bs.length + 1 → ∀ i, OlderEpoch (.ofNat k) (s₀.content i))
    (hc : Step.Along (step json) (Careful json (bs.length + 1)) s₀ bs)
    (hrun : Step.run (step json) s₀ bs = some s) (hfresh : s.Fresh json (bs.length + 1) b) :
    s.loaded json b = .ofBoot bs.length ∧
      s.handlerInit json b = .ofBoot (bs.length + 1) ∧
      s.epochCount json b = .ofNat (bs.length + 1) ∧
      ∃ old : OldFiles (s.epochCount json b), old.data = s.preallocated json b ∧
        ∀ es : List (StoreEvent (s.epochCount json b)),
          storeAll b.cfg (s.preallocated json b) (es.map fun e => (e.block, e.closed)) =
            .run b.cfg old es := by
  have hinv : s.Inv (bs.length + 1) bs.length := by
    have hcount (k : Nat) : bs.foldl (fun n _ => n + 1) k = k + bs.length := by
      clear hlen hcontent hc hrun hfresh
      induction bs generalizing k with
      | nil => rfl
      | cons b bs ih =>
        rw [List.foldl_cons, ih, List.length_cons]
        omega
    have h := Step.run_foldl_along
      (I := fun s n => n ≤ bs.length → s.Inv (bs.length + 1) n) (f := fun n _ => n + 1)
      (fun h hc ht hn => (h (Nat.le_of_succ_le hn)).step hjson hlen (Nat.lt_succ_of_lt hn) hc ht)
      (fun _ => Inv.start (Nat.succ_pos _) hmeta hcontent) hc hrun
    rw [hcount, Nat.zero_add] at h
    exact h (Nat.le_refl _)
  have hepoch := hinv.epochCount (b := b) hjson (by omega)
  refine ⟨loaded_eq hjson hinv.counted (by omega), handlerInit_eq hjson hinv.counted (by omega),
    hepoch, ⟨s.preallocated json b, fun i j hj => ?_⟩, rfl, fun es => ?_⟩
  · obtain ⟨e, he, hseen⟩ := hinv.preallocated hjson hlen (Nat.lt_succ_self _) hfresh i j hj
    exact ⟨e, he, hepoch ▸ hseen _ (Nat.lt_succ_self _) (Nat.le_refl _)⟩
  · rw [storeAll, List.foldl_map]
    rfl

def bootFrame : LogBlock where
  entries := [.frame (.ofFields 3 5 0x123 1 2 [1, 2, 3, 5, 8] (by decide))]
  nonempty := List.cons_ne_nil _ _
  fits := Nat.le_of_lt (canLogLayout.room _)

/-- Seven files of a block each; what is free on the card is erased. -/
def bootOf (n : Nat) : LogBoot where
  logFileSize := 65536
  logFileCount := 7
  dev := .opened
  stack := .ofBoot 0
  prealloc := { goodCard with
    file := fun i => { goodCard.file i with seek := fun _ => ⟨.ok, blockSize⟩ } }
  clusters _ _ := 0xFF
  blocks := [(((CanLogBuffer.boot : CanLogBuffer ByteQueue).setEpochCount (.ofNat n)).emitted
    bootFrame, true)]

theorem preallocateLogFile_bootOf (file : Option Nat) (i n : Nat) :
    (preallocateLogFile file (.ofNat (bootOf n).cfg.logFileSize)
        ((bootOf n).prealloc.file i)).1.getD 0 = file.getD 0 ∨
      (preallocateLogFile file (.ofNat (bootOf n).cfg.logFileSize)
        ((bootOf n).prealloc.file i)).1.getD 0 = blockSize := by
  have hsize : UInt32.ofNat (bootOf n).cfg.logFileSize ≠ 0 := by
    show (65536 : UInt32) ≠ 0
    decide
  by_cases htrust : Trusted file ((bootOf n).prealloc.file i).verify
  · rw [preallocateLogFile_of_trusted hsize htrust]
    exact .inl rfl
  · have hnone : file = none := by
      cases file with
      | none => rfl
      | some size => exact absurd ⟨rfl, rfl, rfl⟩ htrust
    have hmade : ((bootOf n).prealloc.file i).Made file :=
      ⟨.inl ⟨hnone, rfl⟩, rfl, rfl, ⟨rfl, rfl, Nat.one_pos⟩, rfl, rfl⟩
    have hlast : min (65536 - 1 : UInt32).toNat blockSize + 1 = blockSize := by decide
    have hback : ((bootOf n).prealloc.file i).seekUsed = some 1 := rfl
    rw [preallocateLogFile_of_made hsize htrust hmade hback]
    exact .inr hlast

theorem olderEpoch_erased {epoch c : UInt8} (h : c ≠ epoch) :
    OlderEpoch epoch (grown [] blockSize fun _ => c) := by
  intro j hj
  have hlen : (grown [] blockSize fun _ => c).length = blockSize := by simp [grown]
  rw [hlen] at hj
  obtain rfl : j = 0 := by
    simp only [blockSize] at hj
    omega
  have htwo : 2 < blockSize - ([] : List UInt8).length := by decide
  refine ⟨c, ?_, h⟩
  rw [Nat.zero_mul, grown, List.nil_append, List.getElem?_map, List.getElem?_range' htwo]
  rfl

theorem fresh_bootOf (json : CoreJson) (s : LogCard) (hm : m < 255) (k : Nat) :
    s.Fresh json m (bootOf k) := by
  intro i hi e hlow hle
  have hne : (0xFF : UInt8) ≠ .ofNat e := by
    intro heq
    have heq := congrArg UInt8.toNat heq
    have hval : (0xFF : UInt8).toNat = 255 := rfl
    rw [UInt8.toNat_ofNat', hval] at heq
    omega
  have hnil : OlderEpoch (.ofNat e) [] := fun j hj => absurd hj (Nat.not_lt_zero _)
  have hsize := preallocateLogFile_bootOf ((s.file i).map List.length) i k
  rw [length_content, hi] at hsize
  rcases preallocated_cases json s (bootOf k) i with hkeep | hturn
  · rw [hkeep, hi]
    exact hnil
  · rw [hturn, hi]
    rcases hsize with hsize | hsize
    · rw [hsize]
      exact hnil
    · rw [hsize]
      exact olderEpoch_erased hne

theorem Inv.careful_bootOf (h : s.Inv m n) (hjson : json.Documented) (hm : m < 255) (hn : n < m) :
    s.Careful json m (bootOf (n + 1)) := by
  refine ⟨fun p hp => ?_, fresh_bootOf json s hm _⟩
  obtain rfl := List.mem_singleton.mp hp
  rw [h.epochCount hjson (by omega)]
  exact ⟨_, CanLogBuffer.carries_emitted
    ((CanLogBuffer.boot : CanLogBuffer ByteQueue).setEpochCount (.ofNat (n + 1))) bootFrame⟩

theorem boot_finds_older_third : ∃ s : LogCard,
    Step.run (step .reference) ⟨none, none, fun _ => none⟩ [bootOf 1, bootOf 2] = some s ∧
      s.loaded .reference (bootOf 3) = .ofBoot 2 ∧
      ∀ i, OlderEpoch 3 (s.preallocated .reference (bootOf 3) i) := by
  have hjson := CoreJson.reference_documented
  have hempty (k : Nat) (i : Nat) :
      OlderEpoch (.ofNat k) (LogCard.content ⟨none, none, fun _ => none⟩ i) :=
    fun j hj => absurd hj (Nat.not_lt_zero _)
  have hstart : Inv 3 ⟨none, none, fun _ => none⟩ 0 := .start (by decide) rfl fun k _ _ => hempty k
  have hfirst := hstart.careful_bootOf hjson (by decide) (by decide)
  obtain ⟨t, ht⟩ : ∃ t, step .reference ⟨none, none, fun _ => none⟩ (bootOf 1) = some t := ⟨_, rfl⟩
  have hone := hstart.step hjson (by decide) (by decide) hfirst ht
  have hsecond := hone.careful_bootOf hjson (by decide) (by decide)
  obtain ⟨s, hs⟩ : ∃ s, step .reference t (bootOf 2) = some s := ⟨_, rfl⟩
  have hrun : Step.run (step .reference) ⟨none, none, fun _ => none⟩ [bootOf 1, bootOf 2] =
      some s := by
    rw [Step.run_cons, ht]
    exact hs
  obtain ⟨hloaded, -, hepoch, old, hdata, -⟩ := boot_finds_older .reference
    ⟨none, none, fun _ => none⟩ s [bootOf 1, bootOf 2] (bootOf 3) hjson (by decide) rfl
    (fun k _ _ => hempty k)
    ⟨hfirst, fun t' ht' => ⟨by cases ht.symm.trans ht'; exact hsecond, fun _ _ => trivial⟩⟩ hrun
    (fresh_bootOf .reference s (by decide) 3)
  refine ⟨s, hrun, hloaded, fun i => ?_⟩
  have holder := old.older i
  rw [hdata, hepoch] at holder
  exact holder

end LogCard

end CanSniffer.Logging
