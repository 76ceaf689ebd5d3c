import Mathlib.Data.List.Perm.Subperm
import CanSniffer.Logging.LogFilesLaws
import CanSniffer.Web.LogListing
import CanSniffer.Web.ParseCanLogLaws

universe u

namespace CanSniffer.Web

open Lib Lib.Bytes Logging

def framesHeld (s : LogFiles) : List FrameEntry :=
  s.held.flatMap fun st => LogEntry.frames st.block.payload

/-- Parsing the files shows all these frames, perhaps among others. -/
def Returns (s : LogFiles) (files : List Nat) : Prop :=
  ∃ rs, rs.Subperm (parseCanLog (joined s files)) ∧ List.Forall₂ Shows rs (framesHeld s)

structure Retrievable (cfg : LogFileConfig) (s : LogFiles) : Prop where
  head_lt : s.fileHeadIndex < cfg.logFileCount
  terminates : ∃ fuel files, listing cfg s fuel = some files
  listed : ∀ fuel files, listing cfg s fuel = some files → files = s.holding
  returned : ∀ fuel files, listing cfg s fuel = some files → Returns s files

/-- A block was stored in the file at the head since it was opened, or there is no other file. -/
def HeadWritten (cfg : LogFileConfig) (s : LogFiles) : Prop :=
  0 < s.fptr ∨ (cfg.logFileCount = 1 ∧ s.stores ≠ [])

def Stale {epoch : UInt8} (old : OldFiles epoch) (s : LogFiles) (i : Nat) : Prop :=
  ∀ st ∈ s.held, st.file = i → st.offset + blockSize < (old.data i).length

def NoFrames (s : LogFiles) (i : Nat) : Prop :=
  ∀ st ∈ s.held, st.file = i → LogEntry.frames st.block.payload = []

section UpTo

variable {α : Type u} (p : α → Bool)

def upTo : List α → List α
  | [] => []
  | a :: l => if p a then [a] else a :: upTo l

def beyond : List α → List α
  | [] => []
  | a :: l => if p a then l else beyond l

theorem upTo_append_beyond (l : List α) : upTo p l ++ beyond p l = l := by
  induction l with
  | nil => rfl
  | cons a l ih =>
    rw [upTo, beyond]
    split
    · rfl
    · rw [List.cons_append, ih]

theorem forall_beyond_iff (q : α → Prop) (l : List α) :
    (∀ b ∈ beyond p l, q b) ↔ l.Pairwise fun a b => p a = true → q b := by
  induction l with
  | nil => simp [beyond]
  | cons a l ih =>
    rw [beyond, List.pairwise_cons]
    split
    · rename_i ha
      simp only [ha, true_imp_iff]
      exact ⟨fun h => ⟨h, List.pairwise_of_forall_mem_list fun _ _ b hb _ => h b hb⟩, And.left⟩
    · rename_i ha
      simpa [ha] using ih

end UpTo

section Parser

variable {epoch : UInt8} {prev : Option Nat}

theorem parseBlocks_blocks {bs : List Block} (h : ∀ b ∈ bs, ∃ es, Carries epoch es b)
    (pre post : List UInt8) (s : ParseState) (hprev : prev = none ∨ prev = some epoch.toNat)
    (hne : bs ≠ [] ∨ prev = some epoch.toNat) :
    parseBlocks (pre ++ (bs.flatMap Block.data ++ post)) pre.length prev s =
      parseBlocks (pre ++ bs.flatMap Block.data ++ post) (pre ++ bs.flatMap Block.data).length
        (some epoch.toNat) ((bs.flatMap Block.payload).foldl ParseState.log s) := by
  induction bs generalizing pre s prev with
  | nil =>
    obtain rfl : prev = some epoch.toNat := hne.resolve_left fun h => h rfl
    simp
  | cons b bs ih =>
    obtain ⟨es, header, hb⟩ := h b List.mem_cons_self
    have hrest := ih (fun c hc => h c (List.mem_cons_of_mem b hc)) (pre ++ b.data)
      (es.foldl ParseState.log s) (.inr rfl) (.inr rfl)
    rw [List.flatMap_cons, List.append_assoc, parseBlocks_block hb pre _ s hprev,
      List.flatMap_cons, hb.payload_eq, List.foldl_append, ← List.length_append,
      ← List.append_assoc pre, hrest]
    simp only [List.append_assoc]

theorem parseBlocks_stale (pre post : List UInt8) (s : ParseState)
    (h : ∃ e, post[2]? = some e ∧ e ≠ epoch) :
    parseBlocks (pre ++ post) pre.length (some epoch.toNat) s = s := by
  obtain ⟨e, he, hne⟩ := h
  have hepoch : getUint8 (pre ++ post) (pre.length + 2) = e.toNat := by
    rw [getUint8_append, getUint8, List.getD_eq_getElem?_getD, he]
    rfl
  have hstop : some epoch.toNat ≠ none ∧ some epoch.toNat ≠ some e.toNat :=
    ⟨Option.some_ne_none _, fun heq => hne (UInt8.toNat_inj.mp (Option.some.inj heq).symm)⟩
  rw [parseBlocks]
  simp only [hepoch, if_pos hstop, ite_self]

end Parser

variable {cfg : LogFileConfig} {epoch : UInt8} {old : OldFiles epoch} {s : LogFiles}
  {rotations pos : Nat} {slots : Nat → List Block}

theorem parseBlocks_joined (h : s.Inv cfg old rotations pos slots) {files : List Nat}
    (hne : ∀ i ∈ files, slots i ≠ []) (pre : List UInt8) (ps : ParseState) {prev : Option Nat}
    (hprev : prev = none ∨ prev = some epoch.toNat) :
    parseBlocks (pre ++ joined s files) pre.length prev ps =
      ((upTo (fun i => (slots i).length * blockSize < (old.data i).length) files).flatMap
        fun i => (slots i).flatMap Block.payload).foldl ParseState.log ps := by
  induction files generalizing pre ps prev with
  | nil =>
    rw [joined, List.flatMap_nil, List.append_nil, parseBlocks_end]
    rfl
  | cons i files ih =>
    have hi := hne i List.mem_cons_self
    have hjoined : joined s (i :: files) = (slots i).flatMap Block.data ++
        ((old.data i).drop ((slots i).length * blockSize) ++ joined s files) := by
      rw [joined, List.flatMap_cons, h.content, List.append_assoc]
      rfl
    rw [hjoined, parseBlocks_blocks (h.carries i) pre _ ps hprev (.inl hi), upTo]
    by_cases hstale : (slots i).length * blockSize < (old.data i).length
    · obtain ⟨e, he, hdiff⟩ := old.older i _ hstale
      rw [parseBlocks_stale _ _ _ ⟨e, ?_, hdiff⟩]
      · simp [hstale]
      · rw [List.getElem?_append_left, List.getElem?_drop, he]
        rw [List.length_drop]
        have := (List.getElem?_eq_some_iff.mp he).1
        omega
    · rw [List.drop_of_length_le (Nat.not_lt.mp hstale), List.nil_append,
        ih (fun j hj => hne j (List.mem_cons_of_mem i hj)) _ _ (.inr rfl)]
      simp [hstale]

section Held

def storesIn (slots : Nat → List Block) (i : Nat) : List Store :=
  (slots i).zipIdx.map fun p => ⟨i, p.2 * blockSize, p.1⟩

theorem mem_storesIn {i : Nat} {st : Store} :
    st ∈ storesIn slots i ↔
      st.file = i ∧ ∃ j, st.offset = j * blockSize ∧ (slots i)[j]? = some st.block := by
  obtain ⟨file, offset, block⟩ := st
  simp only [storesIn, List.mem_map, Prod.exists, List.mem_zipIdx_iff_getElem?, Store.mk.injEq]
  constructor
  · rintro ⟨b, j, hj, rfl, rfl, rfl⟩
    exact ⟨rfl, j, rfl, hj⟩
  · rintro ⟨rfl, j, rfl, hj⟩
    exact ⟨block, j, hj, rfl, rfl, rfl⟩

theorem nodup_storesIn (i : Nat) : (storesIn slots i).Nodup := by
  have hidx : (slots i).zipIdx.Nodup := by
    refine List.Nodup.of_map Prod.snd ?_
    rw [List.zipIdx_map_snd]
    exact List.nodup_range'
  refine hidx.map ?_
  rintro ⟨b, j⟩ ⟨c, k⟩ heq
  obtain ⟨-, hoff, hblock⟩ := Store.mk.inj heq
  have hjk : j = k := Nat.eq_of_mul_eq_mul_right (by decide) hoff
  rw [hjk, show b = c from hblock]

theorem flatMap_storesIn {β : Type u} (g : Block → List β) (i : Nat) :
    (storesIn slots i).flatMap (fun st => g st.block) = (slots i).flatMap g := by
  rw [storesIn, List.flatMap_map]
  conv_rhs => rw [← List.zipIdx_map_fst 0 (slots i), List.flatMap_map]

theorem slots_ne_nil (h : s.Inv cfg old rotations pos slots) {i : Nat} (hi : i ∈ s.holding) :
    slots i ≠ [] := by
  obtain ⟨st, hst, rfl⟩ := List.mem_map.mp (List.mem_dedup.mp hi)
  obtain ⟨j, -, hj⟩ := (h.held st).mp hst
  intro hnil
  rw [hnil] at hj
  cases hj

theorem nodup_held (h : s.Inv cfg old rotations pos slots) : s.held.Nodup := by
  refine (pairwise_unreplaced s.stores).imp_of_mem ?_
  rintro a _ ha - hkeep rfl
  have hlen := h.length_held ha
  simp only [Store.overwrites, hlen, blockSize, decide_eq_false_iff_not] at hkeep
  exact hkeep ⟨trivial, by omega, by omega⟩

theorem held_perm (h : s.Inv cfg old rotations pos slots) :
    s.held.Perm (s.holding.flatMap (storesIn slots)) := by
  refine (List.perm_ext_iff_of_nodup (nodup_held h) ?_).mpr ?_
  · refine List.nodup_flatMap.mpr ⟨fun i _ => nodup_storesIn i, ?_⟩
    refine (List.nodup_dedup _).imp ?_
    intro i j hne st hi hj
    exact hne ((mem_storesIn.mp hi).1.symm.trans (mem_storesIn.mp hj).1)
  · intro st
    rw [List.mem_flatMap]
    constructor
    · intro hst
      refine ⟨st.file, List.mem_dedup.mpr (List.mem_map.mpr ⟨st, hst, rfl⟩), ?_⟩
      exact mem_storesIn.mpr ⟨rfl, (h.held st).mp hst⟩
    · rintro ⟨i, -, hi⟩
      obtain ⟨rfl, hj⟩ := mem_storesIn.mp hi
      exact (h.held st).mpr hj

theorem framesHeld_perm (h : s.Inv cfg old rotations pos slots) :
    (framesHeld s).Perm
      (LogEntry.frames (s.holding.flatMap fun i => (slots i).flatMap Block.payload)) := by
  have hframes : ∀ i, (storesIn slots i).flatMap (fun st => LogEntry.frames st.block.payload) =
      LogEntry.frames ((slots i).flatMap Block.payload) := by
    intro i
    rw [flatMap_storesIn (fun b => LogEntry.frames b.payload), LogEntry.frames,
      List.filterMap_flatMap]
    rfl
  refine ((held_perm h).flatMap_right _).trans (List.Perm.of_eq ?_)
  rw [List.flatMap_assoc]
  simp only [hframes]
  rw [LogEntry.frames, List.filterMap_flatMap]
  rfl

theorem stale_iff (h : s.Inv cfg old rotations pos slots) {i : Nat} (hi : i ∈ s.holding) :
    Stale old s i ↔ (slots i).length * blockSize < (old.data i).length := by
  constructor
  · intro hstale
    obtain ⟨n, hn⟩ := Nat.exists_eq_succ_of_ne_zero
      (Nat.ne_of_gt (List.length_pos_iff.mpr (slots_ne_nil h hi)))
    obtain ⟨b, hb⟩ : ∃ b, (slots i)[n]? = some b :=
      ⟨_, List.getElem?_eq_getElem (by rw [hn]; exact Nat.lt_succ_self n)⟩
    rw [hn, Nat.succ_mul]
    exact hstale ⟨i, n * blockSize, b⟩ ((h.held _).mpr ⟨n, rfl, hb⟩) rfl
  · rintro hlt st hst rfl
    obtain ⟨j, hoff, hj⟩ := (h.held st).mp hst
    obtain ⟨hbound, -⟩ := List.getElem?_eq_some_iff.mp hj
    simp only [blockSize] at hlt hoff ⊢
    omega

theorem noFrames_iff (h : s.Inv cfg old rotations pos slots) (i : Nat) :
    NoFrames s i ↔ LogEntry.frames ((slots i).flatMap Block.payload) = [] := by
  rw [LogEntry.frames, List.filterMap_flatMap, List.flatMap_eq_nil_iff]
  constructor
  · intro hno b hb
    obtain ⟨j, hj⟩ := List.mem_iff_getElem?.mp hb
    exact hno ⟨i, j * blockSize, b⟩ ((h.held _).mpr ⟨j, rfl, hj⟩) rfl
  · rintro hall st hst rfl
    obtain ⟨j, -, hj⟩ := (h.held st).mp hst
    exact hall st.block (List.mem_of_getElem? hj)

end Held

/-- Of the files with blocks, in their order, all frames come back exactly if no file is longer
than what is written in it while a newer one holds a frame. -/
theorem returns_holding_iff (h : s.Inv cfg old rotations pos slots) :
    Returns s s.holding ↔ s.holding.Pairwise fun i j => Stale old s i → NoFrames s j := by
  let p : Nat → Bool := fun i => (slots i).length * blockSize < (old.data i).length
  let entries : Nat → List LogEntry := fun i => (slots i).flatMap Block.payload
  have hcond : (s.holding.Pairwise fun i j => Stale old s i → NoFrames s j) ↔
      LogEntry.frames ((beyond p s.holding).flatMap entries) = [] := by
    rw [LogEntry.frames, List.filterMap_flatMap, List.flatMap_eq_nil_iff,
      forall_beyond_iff p fun j => (entries j).filterMap LogEntry.frame? = []]
    refine List.Pairwise.iff_of_mem ?_
    intro i j hi _
    have hp : p i = true ↔ (slots i).length * blockSize < (old.data i).length := decide_eq_true_iff
    rw [stale_iff h hi, noFrames_iff h, hp]
    rfl
  have hsplit : LogEntry.frames (s.holding.flatMap entries) =
      LogEntry.frames ((upTo p s.holding).flatMap entries) ++
        LogEntry.frames ((beyond p s.holding).flatMap entries) := by
    rw [← LogEntry.frames_append, ← List.flatMap_append, upTo_append_beyond]
  have hheld : (framesHeld s).Perm (LogEntry.frames (s.holding.flatMap entries)) :=
    framesHeld_perm h
  -- the parser's rows, one for each frame up to the first stale file
  obtain ⟨rows, hrows, hall⟩ := foldl_log_rows ((upTo p s.holding).flatMap entries) .init
  have hparse : (parseCanLog (joined s s.holding)).Perm rows := by
    have hblocks := parseBlocks_joined h (fun i => slots_ne_nil h) [] .init (.inl rfl)
    rw [List.nil_append, List.length_nil] at hblocks
    rw [parseCanLog, hblocks]
    refine (List.mergeSort_perm ..).trans (List.Perm.of_eq ?_)
    exact hrows.trans (List.nil_append rows)
  rw [hcond]
  constructor
  · rintro ⟨rs, hsub, hshows⟩
    have hle := hsub.length_le
    rw [hparse.length_eq, hshows.length_eq, hheld.length_eq, hall.length_eq] at hle
    have htotal := congrArg List.length hsplit
    rw [List.length_append] at htotal
    exact List.length_eq_zero_iff.mp (by omega)
  · intro hnone
    rw [hnone, List.append_nil] at hsplit
    rw [hsplit] at hheld
    obtain ⟨rs, hshows, hperm⟩ := List.perm_comp_forall₂ hheld
      (hall.imp fun _ _ hrow => hrow.shows).flip
    exact ⟨rs, (hperm.trans hparse.symm).subperm, hshows.flip⟩

section Listing

variable {head capacity : Nat}

theorem idxList_unique {fuel fuel' i : Nat} {l l' : List Nat}
    (h : idxList head capacity fuel i = some l) (h' : idxList head capacity fuel' i = some l') :
    l = l' := by
  induction fuel generalizing fuel' i l l' with
  | zero => cases h
  | succ fuel ih =>
    cases fuel' with
    | zero => cases h'
    | succ fuel' =>
      rw [idxList] at h h'
      by_cases hi : i = head
      · rw [if_pos hi] at h h'
        exact Option.some.inj (h.symm.trans h')
      · rw [if_neg hi] at h h'
        obtain ⟨t, ht, rfl⟩ := Option.map_eq_some_iff.mp h
        obtain ⟨t', ht', rfl⟩ := Option.map_eq_some_iff.mp h'
        rw [ih ht ht']

theorem idxList_eq (a : Nat) {k : Nat} (hk : k < capacity) :
    idxList ((a + k) % capacity) capacity (k + 1) (a % capacity) =
      some ((List.range' a (k + 1)).map (· % capacity)) := by
  induction k generalizing a with
  | zero => simp [idxList]
  | succ k ih =>
    have hne : a % capacity ≠ (a + (k + 1)) % capacity := mod_ne_of_lt (by omega) (by omega)
    have hnext : a + (k + 1) = a + 1 + k := by omega
    rw [idxList, if_neg hne, Nat.mod_add_mod, hnext, ih (a + 1) (by omega)]
    rfl

end Listing

theorem renderMeta_head (hhead : s.fileHeadIndex < cfg.logFileCount)
    (htail : s.fileTailIndex < cfg.logFileCount) :
    (renderMeta cfg s).head = s.fileHeadIndex := by
  have hlt := cfg.count_lt
  simp only [UInt32.size] at hlt
  simp only [renderMeta, UInt32.size]
  split <;> split <;> omega

theorem head_lt (h : s.Inv cfg old rotations pos slots) : s.fileHeadIndex < cfg.logFileCount := by
  rw [h.head]
  exact Nat.mod_lt _ cfg.count_pos

theorem listing_eq (h : s.Inv cfg old rotations pos slots) :
    ∃ fuel, listing cfg s fuel = some (lastWindow cfg.logFileCount (rotations + 1)) := by
  have hcount := cfg.count_pos
  have htail : s.fileTailIndex < cfg.logFileCount := by
    rw [h.tail]
    split
    · exact Nat.mod_lt _ hcount
    · exact hcount
  have hlisting : ∀ fuel, listing cfg s fuel =
      idxList (rotations % cfg.logFileCount) cfg.logFileCount fuel s.fileTailIndex := by
    intro fuel
    rw [listing, renderMeta_head (head_lt h) htail, h.head]
    rfl
  simp only [hlisting]
  by_cases hwrapped : cfg.logFileCount ≤ rotations
  · obtain ⟨a, rfl⟩ := Nat.exists_eq_add_of_le hwrapped
    obtain ⟨k, hk⟩ : ∃ k, cfg.logFileCount = k + 1 := ⟨cfg.logFileCount - 1, by omega⟩
    have hidx := idxList_eq (a + 1) (Nat.lt_succ_self k)
    have hstart : k + 1 + a + 1 - (k + 1) = a + 1 := by omega
    have hlast : a + 1 + k = k + 1 + a := by omega
    have hfirst : (k + 1 + a + 1) % (k + 1) = (a + 1) % (k + 1) := by
      rw [Nat.add_assoc, Nat.add_mod_left]
    refine ⟨k + 1, ?_⟩
    rw [h.tail, if_pos hwrapped, hk, hfirst, ← hlast, hidx, hlast, lastWindow, hstart,
      Nat.min_eq_right (by omega)]
  · have hidx := idxList_eq 0 (Nat.not_le.mp hwrapped)
    rw [Nat.zero_add, Nat.zero_mod] at hidx
    refine ⟨rotations + 1, ?_⟩
    rw [h.tail, if_neg hwrapped, hidx, lastWindow, Nat.sub_eq_zero_of_le (by omega),
      Nat.min_eq_left (by omega)]

theorem headWritten_iff (h : s.Inv cfg old rotations pos slots) :
    HeadWritten cfg s ↔ lastWindow cfg.logFileCount (rotations + 1) = s.holding := by
  rw [HeadWritten, h.fptr, h.holding]
  by_cases hpos : pos = 0
  · subst hpos
    have hstores : s.stores ≠ [] ↔ 0 < rotations := by
      have hholding := h.holding
      rw [LogFiles.holding_eq, if_pos rfl] at hholding
      rw [Nat.pos_iff_ne_zero, ne_eq, ne_eq, not_iff_not]
      constructor
      · intro hnil
        have hlen := congrArg List.length hholding
        rw [hnil, length_lastWindow] at hlen
        have hcount := cfg.count_pos
        simp at hlen
        omega
      · rintro rfl
        have hnil : (s.stores.map Store.file).dedup = [] := hholding.trans (by simp [lastWindow])
        exact List.map_eq_nil_iff.mp ((List.dedup_eq_nil _).mp hnil)
    rw [if_pos rfl, lastWindow_succ_eq_iff cfg.count_pos, hstores]
    simp
  · rw [if_neg hpos]
    refine iff_of_true (.inl ?_) rfl
    exact Nat.mul_pos (Nat.pos_of_ne_zero hpos) (by decide)

/-- What the page gets is all there is exactly if the file at the head was written to since it was
opened, and no file is longer than what is written in it while a newer one holds a frame. -/
theorem retrievable_iff (cfg : LogFileConfig) {epoch : UInt8} (old : OldFiles epoch)
    (es : List (StoreEvent epoch)) :
    Retrievable cfg (LogFiles.run cfg old es) ↔
      HeadWritten cfg (LogFiles.run cfg old es) ∧
        (LogFiles.run cfg old es).holding.Pairwise fun i j =>
          Stale old (LogFiles.run cfg old es) i → NoFrames (LogFiles.run cfg old es) j := by
  obtain ⟨rotations, pos, slots, h⟩ := LogFiles.run_inv cfg old es
  obtain ⟨fuel, hfuel⟩ := listing_eq h
  rw [headWritten_iff h, ← returns_holding_iff h]
  constructor
  · intro hr
    have heq := hr.listed fuel _ hfuel
    exact ⟨heq, heq ▸ hr.returned fuel _ hfuel⟩
  · rintro ⟨heq, hreturns⟩
    have hany : ∀ fuel' files, listing cfg (LogFiles.run cfg old es) fuel' = some files →
        files = (LogFiles.run cfg old es).holding :=
      fun _ _ hfiles => (idxList_unique hfiles hfuel).trans heq
    exact
      { head_lt := head_lt h
        terminates := ⟨fuel, _, hfuel⟩
        listed := hany
        returned := fun fuel' files hfiles => hany fuel' files hfiles ▸ hreturns }

def oneFrame : LogBlock where
  entries := [.frame (.ofFields 3 5 0x123 1 2 [7, 9] (by decide))]
  nonempty := List.cons_ne_nil _ _
  fits := Nat.le_of_lt (canLogLayout.room _)

def storeOneFrame : StoreEvent 0 where
  block := (CanLogBuffer.boot : CanLogBuffer ByteQueue).emitted oneFrame
  carries := ⟨_, CanLogBuffer.carries_emitted (CanLogBuffer.boot : CanLogBuffer ByteQueue) oneFrame⟩
  closed := true

/-- Files of three blocks, from a time when the configured size was larger. -/
def longerFiles : OldFiles 0 where
  data := fun _ => List.replicate (3 * blockSize) 0xFF
  older := by
    intro i j hj
    rw [List.length_replicate] at hj
    have hlt : j * blockSize + 2 < 3 * blockSize := by
      have hle := Nat.mul_le_mul_right blockSize (Nat.le_of_lt_succ (Nat.lt_of_mul_lt_mul_right hj))
      have hsize : 2 < blockSize := by decide
      omega
    exact ⟨0xFF, by rw [List.getElem?_replicate, if_pos hlt], by decide⟩

def twoBlocks : LogFileConfig where
  logFileSize := 2 * blockSize
  logFileCount := 2
  count_pos := by decide
  count_lt := by decide

/-- Two blocks fill `CAN.LOG0` up to the size configured now, a third goes to `CAN.LOG1`, and its
frames are behind the old end of `CAN.LOG0`. -/
theorem not_retrievable_of_frames {e : StoreEvent 0} (hclosed : e.closed = true)
    (hframes : LogEntry.frames e.block.payload ≠ []) :
    ¬ Retrievable twoBlocks (LogFiles.run twoBlocks longerFiles [e, e, e]) := by
  intro hr
  generalize hs : LogFiles.run twoBlocks longerFiles [e, e, e] = s at hr
  have hlen : e.block.data.length = blockSize := by
    obtain ⟨es, hes⟩ := e.carries
    exact hes.length_data
  have hstores : s.stores = [⟨0, 0, e.block⟩, ⟨0, blockSize, e.block⟩, ⟨1, 0, e.block⟩] := by
    have hone : ¬ 2 * blockSize ≤ blockSize := by decide
    have htwo : 2 * blockSize ≤ blockSize + blockSize := by decide
    rw [← hs]
    simp [LogFiles.run, LogFiles.storeBlock, LogFiles.storeToSd, LogFiles.start,
      LogFiles.checkNewFileOpenLocked, LogFileConfig.maxLogIndex, twoBlocks, hlen, hclosed, hone,
      htwo]
  have hheld : s.held = s.stores := by
    rw [LogFiles.held, hstores]
    simp [unreplaced, Store.overwrites, hlen]
  have hholding : s.holding = [0, 1] := by
    rw [LogFiles.holding_eq, hstores]
    rfl
  obtain ⟨rotations, pos, slots, h⟩ := LogFiles.run_inv twoBlocks longerFiles [e, e, e]
  rw [hs] at h
  obtain ⟨fuel, hfuel⟩ := listing_eq h
  have hreturns := hr.returned fuel _ hfuel
  rw [hr.listed fuel _ hfuel, returns_holding_iff h, hholding, List.pairwise_pair] at hreturns
  refine hframes (hreturns ?_ ⟨1, 0, e.block⟩ (by simp [hheld, hstores]) rfl)
  intro st hst hfile
  have hlong : (longerFiles.data 0).length = 3 * blockSize := List.length_replicate
  rw [hheld, hstores] at hst
  rw [hlong]
  simp only [List.mem_cons, List.not_mem_nil, or_false] at hst
  rcases hst with rfl | rfl | rfl
  · exact (by decide : 0 + blockSize < 3 * blockSize)
  · exact (by decide : blockSize + blockSize < 3 * blockSize)
  · cases hfile

theorem not_retrievable :
    ¬ ∀ cfg (epoch : UInt8) (old : OldFiles epoch) es, Retrievable cfg (LogFiles.run cfg old es) := by
  intro hall
  obtain ⟨header, hemits⟩ := CanLogBuffer.carries_emitted
    (CanLogBuffer.boot : CanLogBuffer ByteQueue) oneFrame
  refine not_retrievable_of_frames (e := storeOneFrame) rfl ?_ (hall ..)
  have hpayload : storeOneFrame.block.payload = oneFrame.entries := hemits.payload_eq
  rw [hpayload]
  exact List.cons_ne_nil _ _

end CanSniffer.Web
