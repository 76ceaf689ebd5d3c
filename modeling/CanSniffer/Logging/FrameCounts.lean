import CanSniffer.Logging.CanLogSession

universe u

namespace CanSniffer.Logging

open Lib Lib.Bytes

variable {ρ : Type u} [Lwrb ρ]

def CanLogBuffer.runtimeChecksInit (s : CanLogBuffer ρ) : CanLogBuffer ρ :=
  { s with frameCount1 := 0, frameCount2 := 0, frameDropCount := 0 }

def Block.ingressFrames (b : Block) : Nat := getUint32 b.data 12

inductive CountedCall
  | buffer (c : BufferCall)
  | runtimeChecksInit

namespace FrameCounts

variable {s t : Session ρ} {l : CanLog} {epoch : UInt8}

def waiting (s : Session ρ) : List LogEntry :=
  s.accepted.drop (s.consumed.flatMap Block.payload).length

def frames (s : Session ρ) : Nat := (waiting s).countP LogEntry.isFrame

/-- The buffer as the file manager sets it up for an epoch. -/
def start (ρ : Type u) [Lwrb ρ] (epoch : UInt8) : Session ρ :=
  .start (CanLogBuffer.boot.setEpochCount epoch)

variable [LawfulLwrb ρ]

def step : Step (Session ρ) CountedCall
  | s, .buffer c => s.step c
  | s, .runtimeChecksInit => some { s with buf := s.buf.runtimeChecksInit }

/-- The counters differ by the FRAMEs that wait, the backlog a consume computes is their number,
and no block counts fewer frames than one before it. -/
def Exact (s : Session ρ) (c : CountedCall) : Prop :=
  ∀ t, step s c = some t →
    t.buf.frameCount1 = t.buf.frameCount2 + frames t ∧
    (c = .buffer .consume → t.buf.backlog = frames t) ∧
    (t.emitted.map Block.ingressFrames).Pairwise (· ≤ ·)

/-- A start finds no FRAME waiting, a consume leaves one or follows none that did, and a block is
read when the counter has reached what the block before it counted. -/
def Regular : Session ρ → CountedCall → Prop
  | s, .runtimeChecksInit => frames s = 0
  | s, .buffer .consume => ∀ b ∈ s.lastRead, b.frameCount < frames s ∨ s.buf.backlog = 0
  | s, .buffer .readNextBlock => s.buf.isBlockReady = true →
    ∀ b ∈ s.emitted.getLast?, b.ingressFrames ≤ s.buf.frameCount1 % 4294967296
  | _, _ => True

structure Inv (epoch : UInt8) (s : Session ρ) : Prop where
  session : ∃ l, Session.Inv epoch s l
  counts : s.buf.frameCount1 = s.buf.frameCount2 + frames s
  sorted : (s.emitted.map Block.ingressFrames).Pairwise (· ≤ ·)

omit [LawfulLwrb ρ] in
theorem frames_eq (h : Session.Inv epoch s l) : frames s = l.entries.countP LogEntry.isFrame := by
  obtain ⟨gs, hg, hacc⟩ := h.consumed
  rw [frames, waiting, Session.flatMap_payload hg, hacc, List.drop_left]

theorem counts_addEntry (h : Inv epoch s) (e : LogEntry)
    (hs : s.step (.addEntry e) = some t) :
    t.buf.frameCount1 = t.buf.frameCount2 + frames t ∧ t.emitted = s.emitted := by
  obtain ⟨l, hinv⟩ := h.session
  have hcounts := h.counts
  have hspec := CanLogBuffer.addEntry_spec hinv.represents e
  have hnext := hinv.addEntry e
  cases hs
  rw [frames_eq hinv] at hcounts
  refine ⟨?_, rfl⟩
  rw [frames_eq hnext]
  cases hadd : l.add e with
  | none =>
    rw [hadd] at hspec
    simp only at hspec
    simp only [hspec, Option.getD_none]
    exact hcounts
  | some l' =>
    rw [hadd] at hspec
    obtain ⟨rb1, hok, -⟩ := hspec
    rw [Option.getD_some, BlockLog.entries_add hadd, List.countP_append, List.countP_singleton]
    simp only [hok, CanLogBuffer.stored]
    cases e.isFrame
    · exact hcounts
    · change s.buf.frameCount1 + 1 = _
      rw [hcounts]
      rfl

theorem counts_fillBlockWithPadding (h : Inv epoch s)
    (hs : s.step .fillBlockWithPadding = some t) :
    t.buf.frameCount1 = t.buf.frameCount2 + frames t ∧ t.emitted = s.emitted := by
  obtain ⟨l, hinv⟩ := h.session
  have hcounts := h.counts
  have hspec := CanLogBuffer.fillBlockWithPadding_spec hinv.represents
  cases hs
  refine ⟨?_, rfl⟩
  cases hpad : l.pad with
  | none =>
    rw [hpad] at hspec
    simp only at hspec
    simp only [hspec]
    exact hcounts
  | some l' =>
    rw [hpad] at hspec
    obtain ⟨rb1, hok, -⟩ := hspec
    simp only [hok]
    exact hcounts

theorem counts_readNextBlock (h : Inv epoch s) (hs : s.step .readNextBlock = some t) :
    t.buf.frameCount1 = t.buf.frameCount2 + frames t ∧
      (t.emitted = s.emitted ∧ s.buf.isBlockReady = false ∨
        s.buf.isBlockReady = true ∧ ∃ b, t.emitted = s.emitted ++ [b] ∧
          b.ingressFrames = s.buf.frameCount1 % 4294967296) := by
  obtain ⟨l, hinv⟩ := h.session
  have hcounts := h.counts
  have hspec := CanLogBuffer.readNextBlock_spec hinv.represents
  have hready := CanLogBuffer.isBlockReady_iff hinv.represents
  cases hs
  cases hl : l.complete with
  | nil =>
    rw [hl] at hspec hready
    simp only at hspec
    simp only [hspec]
    exact ⟨hcounts, .inl ⟨rfl, by simpa using hready⟩⟩
  | cons lb bs =>
    rw [hl] at hspec hready
    obtain ⟨rb1, hok, -⟩ := hspec
    simp only [hok]
    refine ⟨hcounts, .inr ⟨hready.mpr (by simp), s.buf.emitted lb, rfl, ?_⟩⟩
    simp [Block.ingressFrames, CanLogBuffer.emitted, CanLogBlockHeaderType.bytes,
      CanLogBuffer.blockHeader]

theorem counts_consume (h : Inv epoch s) {b : Block} (hb : s.lastRead = some b)
    (hs : s.step .consume = some t) :
    t.buf.frameCount1 = t.buf.frameCount2 + frames t ∧ t.emitted = s.emitted ∧
      frames s = b.frameCount + frames t ∧
      t.buf.backlog = if 0 < frames t then frames t else s.buf.backlog := by
  obtain ⟨l, hinv⟩ := h.session
  have hcounts := h.counts
  obtain ⟨lb, l', ht, header, hcarry⟩ := hinv.last_read b hb
  obtain ⟨lb', m, ht', hinv'⟩ := hinv.consume hb
  obtain ⟨rfl, rfl⟩ := Prod.mk.inj (Option.some.inj (ht'.symm.trans ht))
  simp only [Session.step, hb, Option.map_some, Option.some.injEq] at hs
  subst hs
  have hframes := frames_eq hinv
  have hframes' := frames_eq hinv'
  rw [BlockLog.entries_take ht, List.countP_append, ← hcarry.frame_count, ← hframes'] at hframes
  rw [hframes] at hcounts
  refine ⟨?_, rfl, hframes, ?_⟩
  · change s.buf.frameCount1 = s.buf.frameCount2 + b.frameCount + _
    rw [hcounts, Nat.add_assoc]
  · change (if s.buf.frameCount2 + b.frameCount < s.buf.frameCount1 then
      s.buf.frameCount1 - (s.buf.frameCount2 + b.frameCount) else s.buf.backlog) = _
    rw [hcounts]
    split
    · rw [if_pos (by omega)]
      omega
    · rw [if_neg (by omega)]

theorem pairwise_append_singleton {ns : List Nat} {n : Nat} (h : ns.Pairwise (· ≤ ·)) :
    (ns ++ [n]).Pairwise (· ≤ ·) ↔ ∀ m ∈ ns.getLast?, m ≤ n := by
  rw [List.pairwise_append]
  constructor
  · rintro ⟨-, -, hle⟩ m hm
    exact hle m (List.mem_of_getLast? hm) n (List.mem_singleton_self n)
  · intro hlast
    refine ⟨h, List.pairwise_singleton .., ?_⟩
    intro m hm k hk
    rw [List.mem_singleton.mp hk]
    obtain ⟨last, hlast'⟩ : ∃ last, ns.getLast? = some last :=
      ⟨_, List.getLast?_eq_some_getLast (List.ne_nil_of_mem hm)⟩
    have hbound := hlast last hlast'
    obtain ⟨ys, rfl⟩ := List.getLast?_eq_some_iff.mp hlast'
    rcases List.mem_append.mp hm with hm | hm
    · exact Nat.le_trans ((List.pairwise_append.mp h).2.2 m hm last (List.mem_singleton_self _))
        hbound
    · rwa [List.mem_singleton.mp hm]

theorem Inv.step (h : Inv epoch s) {c : CountedCall} (hc : Exact s c)
    (hs : FrameCounts.step s c = some t) : Inv epoch t := by
  obtain ⟨hcounts, -, hsorted⟩ := hc t hs
  refine ⟨?_, hcounts, hsorted⟩
  cases c with
  | buffer c => exact Session.step_inv h.session hs
  | runtimeChecksInit =>
    obtain ⟨l, hinv⟩ := h.session
    cases hs
    exact ⟨l, hinv.represents, hinv.epoch_eq, hinv.consumed, hinv.emitted, hinv.last_read⟩

theorem Inv.exact_of_kept (h : Inv epoch s) {c : CountedCall} (hc : c ≠ .buffer .consume)
    (hkept : ∀ t, FrameCounts.step s c = some t →
      t.buf.frameCount1 = t.buf.frameCount2 + frames t ∧ t.emitted = s.emitted) : Exact s c := by
  intro t hs
  obtain ⟨hcounts, hemitted⟩ := hkept t hs
  refine ⟨hcounts, fun hconsume => absurd hconsume hc, ?_⟩
  rw [hemitted]
  exact h.sorted

theorem exact_iff_regular (h : Inv epoch s) (c : CountedCall) : Exact s c ↔ Regular s c := by
  have hsorted := h.sorted
  cases c with
  | runtimeChecksInit =>
    constructor
    · intro hexact
      obtain ⟨hcounts, -, -⟩ := hexact _ rfl
      change 0 = 0 + frames s at hcounts
      change frames s = 0
      omega
    · intro hzero
      refine h.exact_of_kept nofun ?_
      intro t hs
      cases hs
      refine ⟨?_, rfl⟩
      change 0 = 0 + frames s
      rw [show frames s = 0 from hzero]
  | buffer c =>
    cases c with
    | addEntry e =>
      exact iff_of_true (h.exact_of_kept nofun fun t hs => counts_addEntry h e hs) trivial
    | fillBlockWithPadding =>
      exact iff_of_true (h.exact_of_kept nofun fun t hs => counts_fillBlockWithPadding h hs) trivial
    | isBlockReady =>
      refine iff_of_true (h.exact_of_kept nofun ?_) trivial
      intro t hs
      cases hs
      exact ⟨h.counts, rfl⟩
    | readNextBlock =>
      constructor
      · intro hexact hready b hb
        obtain ⟨-, -, hsorted'⟩ := hexact _ rfl
        obtain ⟨-, hread⟩ := counts_readNextBlock h rfl
        obtain ⟨-, hfalse⟩ | ⟨-, b', hemitted, hingress⟩ := hread
        · rw [hready] at hfalse
          cases hfalse
        · rw [hemitted, List.map_append, List.map_singleton, pairwise_append_singleton hsorted,
            hingress] at hsorted'
          refine hsorted' _ ?_
          rw [List.getLast?_map, Option.mem_def, Option.map_eq_some_iff]
          exact ⟨b, hb, rfl⟩
      · intro hregular t hs
        obtain ⟨hcounts, hread⟩ := counts_readNextBlock h hs
        refine ⟨hcounts, nofun, ?_⟩
        obtain ⟨hemitted, -⟩ | ⟨hready, b', hemitted, hingress⟩ := hread
        · rwa [hemitted]
        · rw [hemitted, List.map_append, List.map_singleton, pairwise_append_singleton hsorted,
            hingress]
          intro m hm
          rw [List.getLast?_map, Option.mem_def, Option.map_eq_some_iff] at hm
          obtain ⟨b, hb, rfl⟩ := hm
          exact hregular hready b hb
    | consume =>
      cases hlast : s.lastRead with
      | none =>
        refine iff_of_true ?_ ?_
        · intro t hs
          simp [FrameCounts.step, Session.step, hlast] at hs
        · intro b hb
          rw [hlast] at hb
          cases hb
      | some b =>
        obtain ⟨t, hs⟩ : ∃ t, s.step .consume = some t := by simp [Session.step, hlast]
        obtain ⟨hcounts, hemitted, hframes, hbacklog⟩ := counts_consume h hlast hs
        constructor
        · intro hexact b' hb'
          obtain rfl : b = b' := by simpa [hlast] using hb'
          obtain ⟨-, hback, -⟩ := hexact t hs
          have hback := hback rfl
          rw [hbacklog] at hback
          split at hback
          · exact .inl (by omega)
          · exact .inr (by omega)
        · intro hregular t' hs'
          obtain rfl : t = t' := Option.some.inj (hs.symm.trans hs')
          refine ⟨hcounts, fun _ => ?_, by rwa [hemitted]⟩
          have hcase := hregular b hlast
          rw [hbacklog]
          split
          · rfl
          · omega

theorem Inv.start (epoch : UInt8) : Inv epoch (FrameCounts.start ρ epoch) where
  session := ⟨_, .start (CanLogBuffer.boot.setEpochCount epoch)⟩
  counts := rfl
  sorted := .nil

/-- In a run every step is exact exactly when every step is regular. -/
theorem exact_along_iff (epoch : UInt8) (cs : List CountedCall) :
    Step.Along step Exact (start ρ epoch) cs ↔ Step.Along step Regular (start ρ epoch) cs :=
  Step.along_congr (I := Inv epoch) (fun h => exact_iff_regular h _) (fun h hc hs => h.step hc hs)
    (.start epoch)

theorem run_buffer (s : Session ρ) (cs : List BufferCall) :
    Step.run step s (cs.map .buffer) = Step.run Session.step s cs := by
  induction cs generalizing s with
  | nil => rfl
  | cons c cs ih =>
    rw [List.map_cons, Step.run_cons, Step.run_cons]
    congr 1
    funext t
    exact ih t

theorem along_silent (s : Session ρ) {cs : List BufferCall}
    (h : ∀ c ∈ cs, c ≠ .readNextBlock ∧ c ≠ .consume) :
    Step.Along step Regular s (cs.map .buffer) := by
  apply Step.along_of_forall (I := fun _ => True) (fun _ _ => trivial) trivial
  intro c hc s _
  obtain ⟨b, hb, rfl⟩ := List.mem_map.mp hc
  obtain ⟨hread, hconsume⟩ := h b hb
  cases b with
  | readNextBlock => exact absurd rfl hread
  | consume => exact absurd rfl hconsume
  | _ => trivial

/-- Entries are added between the read of a block and its consume. -/
def consumeBlock (es : List LogEntry) : List BufferCall :=
  [.readNextBlock] ++ (es.map .addEntry ++ [.consume])

theorem along_consumeBlock {s : Session ρ} (h : Session.Inv epoch s l) (hemitted : s.emitted = [])
    (hl : l.complete = [lb]) (hu : l.current = []) (es : List LogEntry)
    (hroom : canLogLayout.fill es < canLogLayout.block)
    (hframe : 0 < es.countP LogEntry.isFrame) :
    ∃ t, Step.run Session.step s (consumeBlock es) = some t ∧
      frames t = es.countP LogEntry.isFrame ∧
      Step.Along step Regular s ((consumeBlock es).map .buffer) := by
  have hspec := CanLogBuffer.readNextBlock_spec h.represents
  rw [hl] at hspec
  obtain ⟨rb1, hok, -⟩ := hspec
  have hread := h.readNextBlock
  rw [hok] at hread
  obtain ⟨buf, l₁, hadds, h₁, hc₁, hu₁⟩ := hread.addEntries es (by rwa [hu])
  rw [hu, List.nil_append] at hu₁
  rw [hl] at hc₁
  obtain ⟨lb', l₂, ht, h₂⟩ := h₁.consume (b := s.buf.emitted lb) rfl
  obtain ⟨hl₁, hu₂⟩ := BlockLog.take_eq_some ht
  obtain ⟨rfl, hl₂⟩ := List.cons.inj (hc₁.symm.trans hl₁)
  have hafter := frames_eq h₂
  rw [BlockLog.entries, ← hl₂, hu₂, hu₁, List.flatMap_nil, List.nil_append] at hafter
  have hbefore := frames_eq h₁
  rw [BlockLog.entries, hc₁, hu₁, List.flatMap_singleton, List.countP_append] at hbefore
  have hcount := (s.buf.carries_emitted lb).choose_spec.frame_count
  have hfirst : Step.run Session.step s [.readNextBlock] =
      some (s.afterRead s.buf.readNextBlock.1 s.buf.readNextBlock.2) := rfl
  rw [hok] at hfirst
  refine ⟨_, Step.run_append_eq_some.mpr ⟨_, hfirst, Step.run_append_eq_some.mpr ⟨_, hadds, rfl⟩⟩,
    hafter, ?_⟩
  rw [consumeBlock, List.map_append, List.map_append]
  refine Step.along_append ⟨?_, fun _ _ => trivial⟩ ?_
  · intro _ b hb
    rw [hemitted] at hb
    cases hb
  · intro t ht
    rw [run_buffer, hfirst] at ht
    obtain rfl := Option.some.inj ht
    refine Step.along_append (along_silent _ (by simp)) ?_
    intro u hu
    rw [run_buffer, hadds] at hu
    obtain rfl := Option.some.inj hu
    refine ⟨?_, fun _ _ => trivial⟩
    intro b hb
    obtain rfl : s.buf.emitted lb = b := Option.some.inj hb
    left
    rw [hbefore, hcount]
    omega

theorem exact_along_consumeBlock : ∃ s : Session ByteQueue,
    Step.run Session.step (start ByteQueue 0) (
      Session.closeBlock [.frame (.ofFields 3 5 0x123 1 2 [7, 9] (by decide)),
        .frame (.ofFields 4 6 0x124 2 1 [8] (by decide))] ++
      consumeBlock [.frame (.ofFields 5 7 0x125 1 1 [3] (by decide))]) = some s ∧
    frames s = 1 ∧
    Step.Along step Exact (start ByteQueue 0) ((
      Session.closeBlock [.frame (.ofFields 3 5 0x123 1 2 [7, 9] (by decide)),
        .frame (.ofFields 4 6 0x124 2 1 [8] (by decide))] ++
      consumeBlock [.frame (.ofFields 5 7 0x125 1 1 [3] (by decide))]).map .buffer) := by
  obtain ⟨buf, l, lb, hclose, h, hl, hu⟩ := Session.run_closeBlock (ρ := ByteQueue)
    (CanLogBuffer.boot.setEpochCount 0) [.frame (.ofFields 3 5 0x123 1 2 [7, 9] (by decide)),
      .frame (.ofFields 4 6 0x124 2 1 [8] (by decide))] (by simp) (by decide)
  obtain ⟨t, hconsume, hframes, halong⟩ := along_consumeBlock h rfl hl hu
    [.frame (.ofFields 5 7 0x125 1 1 [3] (by decide))] (by decide) (by decide)
  refine ⟨t, Step.run_append_eq_some.mpr ⟨_, hclose, hconsume⟩, hframes,
    (exact_along_iff 0 _).mpr ?_⟩
  rw [List.map_append]
  refine Step.along_append (along_silent _ (by simp [Session.closeBlock])) ?_
  intro u hrun
  rw [run_buffer] at hrun
  obtain rfl := Option.some.inj (hclose.symm.trans hrun)
  exact halong

theorem start_forgets_frame (e : FrameEntry) :
    ∃ s, Step.run step (start ρ epoch) [.buffer (.addEntry (.frame e)), .runtimeChecksInit] =
        some s ∧
      s.buf.frameCount1 = 0 ∧ s.buf.frameCount2 = 0 ∧ frames s = 1 := by
  have hinv := Session.Inv.start ((CanLogBuffer.boot (ρ := ρ)).setEpochCount epoch)
  have hroom : canLogLayout.fill [] + canLogLayout.size (.frame e) < canLogLayout.block :=
    canLogLayout.room _
  obtain ⟨l, hadd, -, -⟩ := BlockLog.add_of_lt (l := (BlockLog.empty : CanLog)) hroom
  have hspec := CanLogBuffer.addEntry_spec hinv.represents (.frame e)
  have hnext := hinv.addEntry (.frame e)
  rw [hadd] at hspec hnext
  obtain ⟨rb1, hok, -⟩ := hspec
  have hframes := frames_eq hnext
  rw [Option.getD_some, BlockLog.entries_add hadd] at hframes
  exact ⟨_, rfl, rfl, rfl, hframes⟩

theorem start_forgets_waiting_frame : ∃ s : Session ByteQueue,
    Step.run step (start ByteQueue 0)
      [.buffer (.addEntry (.frame (.ofFields 3 5 0x123 1 2 [7, 9] (by decide)))),
        .runtimeChecksInit] = some s ∧
      s.buf.frameCount1 = 0 ∧ s.buf.frameCount2 = 0 ∧ frames s = 1 :=
  start_forgets_frame _

end FrameCounts

end CanSniffer.Logging
