import Mathlib.Data.List.Basic
import CanSniffer.Drivers.StaticReplay

namespace CanSniffer.Drivers

open Lib

namespace StaticReplay

def Cyclic (base count : Nat) (loads : List TxLoad) : Prop :=
  ∀ k l, loads[k]? = some l → l.identifier.toNat = (base + k % count) % 0x800

def Apart (count : Nat) (loads : List TxLoad) : Prop :=
  ∀ i j a b, loads[i]? = some a → loads[j]? = some b → i < j → j < i + count →
    a.identifier ≠ b.identifier

def taken (hal : Nat → Bool) : Nat → List Nat → List Nat
  | _, [] => []
  | calls, i :: todo =>
    if hal calls then i :: taken hal (calls + 1) todo else taken hal (calls + 1) todo

/-- The completed buffers are loaded in order, and exactly those whose load succeeds are
requested. -/
structure Rearms (n : TxBuffers) (hal : Nat → Bool) (s t : StaticReplay) (mask : UInt32) :
    Prop where
  loads : ∃ done, t.loaded = s.loaded ++ done ∧
    done.map (·.buffer) =
      taken hal s.calls ((List.range n.val).filter fun i => decide (Mask.Mem i mask)) ∧
    ∃ request, t.requested = s.requested ++ (if request = 0 then [] else [request]) ∧
      ∀ i, Mask.Mem i request ↔ i ∈ done.map (·.buffer)

/-- What the preparation sets and no later call changes. -/
structure Setup (n : TxBuffers) (base count : Nat) (s : StaticReplay) : Prop where
  bufferMask : s.bufferMask = Mask.below n.val
  baseId : s.baseId.toNat = base % 0x800
  idCount : s.idCount.toNat = count
  count_pos : 0 < count
  count_le : count ≤ 0x800

/-- The loads since `before`, and the offset of the next one. -/
structure Cycling (n : TxBuffers) (base count : Nat) (before new : List TxLoad) (s : StaticReplay) :
    Prop extends Setup n base count s where
  loaded : s.loaded = before ++ new
  cyclic : Cyclic base count new
  next : s.prepared = true → s.nextIdOffset.toNat = new.length % count

/-- Some rounds of the loop, over the buffers `todo`. -/
structure Rounds (hal : Nat → Bool) (completed : UInt32) (todo : List Nat)
    (p q : StaticReplay × UInt32) (done : List TxLoad) : Prop where
  prepared : q.1.prepared = p.1.prepared
  active : q.1.active = p.1.active
  requested : q.1.requested = p.1.requested
  calls : q.1.calls = p.1.calls + (todo.filter fun i => decide (Mask.Mem i completed)).length
  buffers : done.map (·.buffer) =
    taken hal p.1.calls (todo.filter fun i => decide (Mask.Mem i completed))
  request : ∀ j, Mask.Mem j q.2 ↔ Mask.Mem j p.2 ∨ j ∈ done.map (·.buffer)

variable {n : TxBuffers} (hal : Nat → Bool) {s t : StaticReplay} {base count i : Nat}
  {before new : List TxLoad}

theorem Cyclic.concat (h : Cyclic base count new) {l : TxLoad}
    (hl : l.identifier.toNat = (base + new.length % count) % 0x800) :
    Cyclic base count (new ++ [l]) := by
  intro k m hm
  rcases Nat.lt_trichotomy k new.length with hlt | rfl | hgt
  · exact h k m (by rwa [List.getElem?_append_left hlt] at hm)
  · obtain rfl : l = m := by simpa using hm
    exact hl
  · rw [List.getElem?_eq_none (by simp; omega)] at hm
    cases hm

theorem Cyclic.apart (h : Cyclic base count new) (hle : count ≤ 0x800) : Apart count new := by
  intro i j a b ha hb hlt hnear heq
  have hmod : (base + i % count) % 0x800 = (base + j % count) % 0x800 := by
    rw [← h i a ha, ← h j b hb, heq]
  have hcount : 0 < count := by omega
  have hi := Nat.mod_lt i hcount
  have hj := Nat.mod_lt j hcount
  have hsame : i % count = j % count := by omega
  have hzero : (j - i) % count = 0 := Nat.sub_mod_eq_zero_of_mod_eq hsame.symm
  rw [Nat.mod_eq_of_lt (by omega)] at hzero
  omega

theorem Setup.loadBuffer_eq (h : s.Setup n base count) (hi : i < n.val) (offset : UInt32) :
    ∃ l : TxLoad, l.buffer = i ∧
      l.identifier.toNat = (base + offset.toNat % count) % 0x800 ∧
      s.loadBuffer n hal i offset =
        if hal s.calls then
          ({ s with calls := s.calls + 1, loaded := s.loaded ++ [l] }, .success)
        else ({ s with calls := s.calls + 1 }, .error) := by
  have hne : s.idCount ≠ 0 := by
    intro hz
    have hcount := h.idCount
    rw [hz] at hcount
    exact absurd hcount (Nat.ne_of_lt h.count_pos)
  refine ⟨⟨(s.baseId + offset % s.idCount) &&& 0x7FF, UInt32.ofNat i &&& 0xFF, i⟩, rfl, ?_, ?_⟩
  · have hmask (x : Nat) : x &&& (0x7FF : UInt32).toNat = x % 0x800 :=
      Nat.and_two_pow_sub_one_eq_mod x 11
    rw [UInt32.toNat_and, hmask, UInt32.toNat_add, UInt32.toNat_mod, h.baseId, h.idCount]
    omega
  · rw [loadBuffer, if_neg (by rintro (hz | hge); exacts [hne hz, Nat.not_le.mpr hi hge])]

theorem Setup.mono (h : s.Setup n base count) (hmask : t.bufferMask = s.bufferMask)
    (hbase : t.baseId = s.baseId) (hcount : t.idCount = s.idCount) : t.Setup n base count :=
  ⟨hmask.trans h.bufferMask, hbase ▸ h.baseId, hcount ▸ h.idCount, h.count_pos, h.count_le⟩

theorem Cycling.mono (h : s.Cycling n base count before new) (hmask : t.bufferMask = s.bufferMask)
    (hbase : t.baseId = s.baseId) (hcount : t.idCount = s.idCount) (hloaded : t.loaded = s.loaded)
    (hprep : t.prepared = s.prepared) (hnext : t.nextIdOffset = s.nextIdOffset) :
    t.Cycling n base count before new :=
  ⟨h.toSetup.mono hmask hbase hcount, hloaded.trans h.loaded, h.cyclic,
    fun hp => hnext ▸ h.next (hprep ▸ hp)⟩

theorem loadAll_spec (h : s.Cycling n base count before new) (hprep : s.prepared = false)
    (hnext : s.nextIdOffset.toNat = n.val % count) (k : Nat) (hk : new.length + k = n.val) :
    (∃ all, (s.loadAll n hal (List.range' new.length k)).1.Cycling n base count before all) ∧
      (s.loadAll n hal (List.range' new.length k)).2 ≠ .invalidParameter := by
  induction k generalizing s new with
  | zero =>
    refine ⟨⟨new, h.toSetup.mono rfl rfl rfl, h.loaded, h.cyclic, ?_⟩, by simp [loadAll]⟩
    intro _
    rw [← hk] at hnext
    exact hnext
  | succ k ih =>
    have hlt : new.length < n.val := by omega
    obtain ⟨l, -, hident, hload⟩ := h.loadBuffer_eq hal hlt (UInt32.ofNat new.length)
    have hoffset : (UInt32.ofNat new.length).toNat = new.length :=
      UInt32.toNat_ofNat_of_lt' (by have := n.isLt; simp only [UInt32.size]; omega)
    rw [hoffset] at hident
    rw [List.range'_succ, loadAll, hload]
    by_cases htaken : hal s.calls = true
    · rw [if_pos htaken]
      have hnew : new.length + 1 = (new ++ [l]).length := by simp
      simp only [hnew]
      refine ih ⟨h.toSetup.mono rfl rfl rfl, by simp [h.loaded], h.cyclic.concat hident, ?_⟩ hprep
        hnext (by simp; omega)
      intro hp
      exact absurd (hprep.symm.trans hp) (by decide)
    · rw [if_neg htaken]
      refine ⟨⟨new, h.toSetup.mono rfl rfl rfl, h.loaded, h.cyclic, ?_⟩, by simp⟩
      intro hp
      exact absurd (hprep.symm.trans hp) (by decide)

theorem toNat_wrap {x c : UInt32} {m : Nat} (hx : x.toNat = m % c.toNat) (hpos : 0 < c.toNat)
    (hle : c.toNat ≤ 0x800) : (if c ≤ x + 1 then 0 else x + 1).toNat = (m + 1) % c.toNat := by
  have hlt := Nat.mod_lt m hpos
  have hsucc : (x + 1).toNat = m % c.toNat + 1 := by
    rw [UInt32.toNat_add, hx]
    exact Nat.mod_eq_of_lt (by change _ + 1 < 4294967296; omega)
  rw [← Nat.mod_add_mod m c.toNat 1]
  split
  · rename_i hwrap
    rw [UInt32.le_iff_toNat_le, hsucc] at hwrap
    have hlast : m % c.toNat + 1 = c.toNat := by omega
    rw [hlast, Nat.mod_self]
    rfl
  · rename_i hwrap
    rw [UInt32.le_iff_toNat_le, hsucc] at hwrap
    have hlast : m % c.toNat + 1 < c.toNat := by omega
    rw [hsucc, Nat.mod_eq_of_lt hlast]

theorem reload_spec (h : s.Cycling n base count before new) (hprep : s.prepared = true)
    (completed request : UInt32) (hi : i < n.val) :
    ∃ done, Rounds hal completed [i] (s, request) (reload n hal completed (s, request) i) done ∧
      (reload n hal completed (s, request) i).1.Cycling n base count before (new ++ done) := by
  have h32 : i < 32 := by have := n.isLt; omega
  by_cases hmem : Mask.Mem i completed
  · obtain ⟨l, hbuffer, hident, hload⟩ := h.loadBuffer_eq hal hi s.nextIdOffset
    rw [reload, if_neg (mt (Mask.and_bit_eq_zero_iff h32).mp (not_not_intro hmem)), hload]
    rw [h.next hprep, Nat.mod_mod] at hident
    by_cases htaken : hal s.calls = true
    · rw [if_pos htaken]
      refine ⟨[l], ⟨rfl, rfl, rfl, by simp [hmem], by simp [hmem, taken, htaken, hbuffer], ?_⟩,
        h.toSetup.mono rfl rfl rfl, by simp [h.loaded], h.cyclic.concat hident, ?_⟩
      · intro j
        simp [Mask.mem_bit h32, hbuffer]
      · intro _
        simp only [List.length_append, List.length_singleton]
        rw [← h.idCount]
        exact toNat_wrap (h.idCount ▸ h.next hprep) (h.idCount ▸ h.count_pos)
          (h.idCount ▸ h.count_le)
    · rw [if_neg htaken]
      refine ⟨[], ⟨rfl, rfl, rfl, by simp [hmem], by simp [hmem, taken, htaken], by simp⟩,
        h.toSetup.mono rfl rfl rfl, by simp [h.loaded], by simpa using h.cyclic,
        by simpa using h.next⟩
  · rw [reload, if_pos ((Mask.and_bit_eq_zero_iff h32).mpr hmem)]
    exact ⟨[], ⟨rfl, rfl, rfl, by simp [hmem], by simp [hmem, taken], by simp⟩,
      by simpa using h⟩

theorem taken_append (calls : Nat) (xs ys : List Nat) :
    taken hal calls (xs ++ ys) = taken hal calls xs ++ taken hal (calls + xs.length) ys := by
  induction xs generalizing calls with
  | nil => rfl
  | cons x xs ih =>
    rw [List.cons_append, taken, taken, ih, List.length_cons]
    have hcalls : calls + 1 + xs.length = calls + (xs.length + 1) := by omega
    split
    · rw [hcalls, List.cons_append]
    · rw [hcalls]

theorem Rounds.trans {completed : UInt32} {xs ys : List Nat} {p q r : StaticReplay × UInt32}
    {done more : List TxLoad} (h : Rounds hal completed xs p q done)
    (h' : Rounds hal completed ys q r more) :
    Rounds hal completed (xs ++ ys) p r (done ++ more) where
  prepared := h'.prepared.trans h.prepared
  active := h'.active.trans h.active
  requested := h'.requested.trans h.requested
  calls := by
    rw [h'.calls, h.calls, List.filter_append, List.length_append]
    omega
  buffers := by
    rw [List.map_append, h.buffers, h'.buffers, h.calls, List.filter_append, taken_append]
  request := by
    intro j
    rw [h'.request, h.request, List.map_append, List.mem_append, or_assoc]

theorem foldl_reload_spec (completed : UInt32) (todo : List Nat) (htodo : ∀ i ∈ todo, i < n.val)
    (h : s.Cycling n base count before new) (hprep : s.prepared = true) (request : UInt32) :
    ∃ done, Rounds hal completed todo (s, request)
        (todo.foldl (reload n hal completed) (s, request)) done ∧
      (todo.foldl (reload n hal completed) (s, request)).1.Cycling n base count before
        (new ++ done) := by
  induction todo generalizing s new request with
  | nil => exact ⟨[], ⟨rfl, rfl, rfl, rfl, rfl, by simp⟩, by simpa using h⟩
  | cons i todo ih =>
    obtain ⟨done, hround, hcycling⟩ :=
      reload_spec hal h hprep completed request (htodo i (List.mem_cons_self ..))
    obtain ⟨more, hrounds, hrest⟩ :=
      ih (fun j hj => htodo j (List.mem_cons_of_mem _ hj)) hcycling
        (hround.prepared.trans hprep) (reload n hal completed (s, request) i).2
    rw [List.append_assoc] at hrest
    exact ⟨done ++ more, hround.trans hal hrounds, hrest⟩

theorem rearm_cycling (h : s.Cycling n base count before new) (mask : UInt32) :
    (s.rearm mask).Cycling n base count before new := by
  unfold rearm
  split
  · exact h
  · simp only
    split
    · exact h
    · exact h.mono rfl rfl rfl rfl rfl rfl

theorem rearm_requested (hrun : s.active = true ∧ s.prepared = true) {request : UInt32}
    (hmask : request &&& s.bufferMask = request) :
    (s.rearm request).requested = s.requested ++ (if request = 0 then [] else [request]) ∧
      (s.rearm request).loaded = s.loaded := by
  rw [rearm, if_neg (by simp [hrun])]
  simp only [hmask]
  split
  · simp
  · simp

theorem mem_taken {calls : Nat} {xs : List Nat} (h : i ∈ taken hal calls xs) : i ∈ xs := by
  induction xs generalizing calls with
  | nil => cases h
  | cons x xs ih =>
    rw [taken] at h
    split at h
    · rcases List.mem_cons.mp h with rfl | h
      · exact List.mem_cons_self
      · exact List.mem_cons_of_mem x (ih h)
    · exact List.mem_cons_of_mem x (ih h)

theorem filter_and_below (mask : UInt32) :
    ((List.range n.val).filter fun i => decide (Mask.Mem i (mask &&& Mask.below n.val))) =
      (List.range n.val).filter fun i => decide (Mask.Mem i mask) := by
  apply List.filter_congr
  intro i hi
  have hlt := List.mem_range.mp hi
  have h32 : i < 32 := by have := n.isLt; omega
  rw [decide_eq_decide, Mask.mem_and, Mask.mem_below h32]
  exact and_iff_left hlt

theorem rearmCompleted_spec (h : s.Cycling n base count before new)
    (hrun : s.active = true ∧ s.prepared = true) (mask : UInt32) :
    Rearms n hal s (s.rearmCompleted n hal mask) mask ∧
      ∃ done, (s.rearmCompleted n hal mask).Cycling n base count before (new ++ done) := by
  rw [rearmCompleted]
  by_cases hzero : s.bufferMask = 0
  · rw [if_pos (.inr (.inr hzero))]
    have hnone : n.val = 0 := by
      rcases Nat.eq_zero_or_pos n.val with hn | hn
      · exact hn
      · have hmem := (Mask.mem_below (show 0 < 32 by decide)).mpr hn
        rw [← h.bufferMask, hzero] at hmem
        exact absurd hmem Mask.mem_zero
    exact ⟨⟨[], by simp, by simp [hnone, taken], 0, by simp, by simp⟩, [], by simpa using h⟩
  · rw [if_neg (by simp [hrun, hzero])]
    obtain ⟨done, hrounds, hcycling⟩ := foldl_reload_spec hal (mask &&& s.bufferMask)
      (List.range n.val) (fun i hi => List.mem_range.mp hi)
      (s := { s with lastCompletedMask := mask &&& s.bufferMask })
      (h.mono rfl rfl rfl rfl rfl rfl) hrun.2 0
    simp only
    generalize (List.range n.val).foldl (reload n hal (mask &&& s.bufferMask))
      ({ s with lastCompletedMask := mask &&& s.bufferMask }, 0) = r at hrounds hcycling
    have hbuffers := hrounds.buffers
    rw [h.bufferMask, filter_and_below] at hbuffers
    have hrequest : r.2 &&& r.1.bufferMask = r.2 := by
      apply Mask.ext
      intro j
      rw [Mask.mem_and, hcycling.bufferMask]
      refine and_iff_left_of_imp fun hj => ?_
      have hdone := ((hrounds.request j).mp hj).resolve_left Mask.mem_zero
      rw [hbuffers] at hdone
      exact (Mask.mem_below (Mask.lt_of_mem hj)).mpr
        (List.mem_range.mp (List.mem_of_mem_filter (mem_taken hal hdone)))
    obtain ⟨hreq, hload⟩ := rearm_requested
      (s := { r.1 with
        completed := r.1.completed + UInt32.ofNat (Mask.popcount (mask &&& s.bufferMask)) })
      ⟨hrounds.active.trans hrun.1, hrounds.prepared.trans hrun.2⟩ hrequest
    refine ⟨⟨done, ?_, hbuffers, r.2, ?_, ?_⟩, done, rearm_cycling ?_ r.2⟩
    · rw [hload, h.loaded, List.append_assoc]
      exact hcycling.loaded
    · rw [hreq]
      exact congrArg (· ++ _) hrounds.requested
    · intro j
      rw [hrounds.request]
      exact or_iff_right Mask.mem_zero
    · exact hcycling.mono rfl rfl rfl rfl rfl rfl

theorem rearmCompleted_idle (h : ¬ (s.active = true ∧ s.prepared = true)) (mask : UInt32) :
    s.rearmCompleted n hal mask = s := by
  rw [rearmCompleted, if_pos]
  by_cases hactive : s.active = true
  · exact .inr (.inl (by simpa using fun hp => h ⟨hactive, hp⟩))
  · exact .inl (by simpa using hactive)

theorem event_cycling (h : s.Cycling n base count before new) (e : ReplayEvent) :
    ∃ done, (s.event n hal e).Cycling n base count before (new ++ done) := by
  cases e with
  | start =>
    refine ⟨[], ?_⟩
    rw [List.append_nil]
    change s.start.1.Cycling n base count before new
    unfold start
    split
    · exact h
    · refine rearm_cycling ?_ s.bufferMask
      exact h.mono rfl rfl rfl rfl rfl rfl
  | stop =>
    refine ⟨[], ?_⟩
    rw [List.append_nil]
    exact h.mono rfl rfl rfl rfl rfl rfl
  | completed mask =>
    by_cases hrun : s.active = true ∧ s.prepared = true
    · exact (rearmCompleted_spec hal h hrun mask).2
    · change ∃ done, (s.rearmCompleted n hal mask).Cycling n base count before (new ++ done)
      rw [rearmCompleted_idle hal hrun]
      exact ⟨[], by simpa using h⟩

theorem run_cycling (h : s.Cycling n base count before new) (events : List ReplayEvent) :
    ∃ all, (s.run n hal events).Cycling n base count before all := by
  induction events generalizing s new with
  | nil => exact ⟨new, h⟩
  | cons e events ih =>
    obtain ⟨done, hevent⟩ := event_cycling hal h e
    exact ih hevent

theorem prepareInstance_cases (s : StaticReplay) (baseId : UInt32) {idCount : UInt32}
    (hcount : n.val ≤ idCount.toNat) :
    if n.val = 0 ∨ 0x800 < idCount.toNat then
      s.prepareInstance n hal baseId idCount = (s, .invalidParameter)
    else
      (s.prepareInstance n hal baseId idCount).2 ≠ .invalidParameter ∧
        ∃ all, (s.prepareInstance n hal baseId idCount).1.Cycling n baseId.toNat idCount.toNat
          s.loaded all := by
  have hlt := n.isLt
  have hbuffers : (UInt32.ofNat n.val).toNat = n.val :=
    UInt32.toNat_ofNat_of_lt' (by simp only [UInt32.size]; omega)
  have hzero : UInt32.ofNat n.val = 0 ↔ n.val = 0 := by
    rw [← UInt32.toNat_inj, hbuffers]
    rfl
  rw [prepareInstance]
  by_cases hn : n.val = 0
  · rw [if_pos (.inl hn), if_pos (hzero.mpr hn)]
  · have hne : idCount ≠ 0 := by
      rintro rfl
      exact hn (Nat.le_zero.mp hcount)
    have hsmall : ¬ idCount < UInt32.ofNat n.val := by
      rw [UInt32.lt_iff_toNat_lt, hbuffers]
      exact Nat.not_lt.mpr hcount
    simp only [if_neg (mt hzero.mp hn), if_neg hne, if_neg hsmall]
    have hrange : (0x800 : UInt32) < idCount ↔ 0x800 < idCount.toNat := UInt32.lt_iff_toNat_lt
    by_cases hlarge : 0x800 < idCount.toNat
    · rw [if_pos (.inr hlarge), if_pos (hrange.mpr hlarge)]
    · rw [if_neg (by simp [hn, hlarge]), if_neg (mt hrange.mp hlarge), List.range_eq_range']
      have hmask (x : Nat) : x &&& (0x7FF : UInt32).toNat = x % 0x800 :=
        Nat.and_two_pow_sub_one_eq_mod x 11
      have hpos := Nat.lt_of_lt_of_le (Nat.pos_of_ne_zero hn) hcount
      have hspec (q : StaticReplay)
          (hq : q.Cycling n baseId.toNat idCount.toNat s.loaded []) (hprep : q.prepared = false)
          (hnext : q.nextIdOffset.toNat = n.val % idCount.toNat) :
          (∃ all, (q.loadAll n hal (List.range' 0 n.val)).1.Cycling n baseId.toNat idCount.toNat
            s.loaded all) ∧ (q.loadAll n hal (List.range' 0 n.val)).2 ≠ .invalidParameter :=
        loadAll_spec hal hq hprep hnext n.val (Nat.zero_add _)
      refine And.symm (hspec _ ⟨⟨rfl, ?_, rfl, hpos, Nat.not_lt.mp hlarge⟩,
        (List.append_nil _).symm, ?_, ?_⟩ rfl ?_)
      · rw [UInt32.toNat_and, hmask]
      · intro k l hl
        cases hl
      · intro hp
        cases hp
      · rw [UInt32.toNat_mod, hbuffers]

/-- From the preparation on the loads follow the cycle and only what was loaded is requested. -/
theorem prepareInstance_run (n : TxBuffers) (hal : Nat → Bool) (s : StaticReplay)
    (baseId idCount : UInt32) (hcount : n.val ≤ idCount.toNat) (events : List ReplayEvent) :
    let p := s.prepareInstance n hal baseId idCount
    let t := p.1.run n hal events
    if n.val = 0 ∨ 0x800 < idCount.toNat then p = (s, .invalidParameter)
    else
      p.2 ≠ .invalidParameter ∧
      (∃ all, t.loaded = s.loaded ++ all ∧ Cyclic baseId.toNat idCount.toNat all ∧
        Apart idCount.toNat all ∧
        (t.prepared = true → t.nextIdOffset.toNat = all.length % idCount.toNat)) ∧
      ∀ mask,
        if t.active = true ∧ t.prepared = true then
          Rearms n hal t (t.rearmCompleted n hal mask) mask
        else t.rearmCompleted n hal mask = t := by
  intro p t
  have hprepare := prepareInstance_cases hal s baseId hcount
  split at hprepare
  · rw [if_pos ‹_›]
    exact hprepare
  · rw [if_neg ‹_›]
    obtain ⟨hres, all, hstart⟩ := hprepare
    obtain ⟨new, hcycling⟩ := run_cycling hal hstart events
    refine ⟨hres, ⟨new, hcycling.loaded, hcycling.cyclic, hcycling.cyclic.apart hcycling.count_le,
      hcycling.next⟩, ?_⟩
    intro mask
    split
    · exact (rearmCompleted_spec hal hcycling ‹_› mask).1
    · exact rearmCompleted_idle hal ‹_› mask

/-- Two buffers and three identifiers; the first reload of buffer 0 fails. -/
theorem prepareInstance_run_two :
    let hal : Nat → Bool := fun k => k ≠ 2
    let t := (prepareInstance 2 hal ⟨0, 0, 0, 0, 0, 0, 0, 0, false, false, 0, [], []⟩ 0x7FF 3).1.run
      2 hal [.start, .completed 3, .completed 3]
    (t.loaded.map fun l => (l.identifier, l.buffer)) =
        [(0x7FF, 0), (0, 1), (1, 1), (0x7FF, 0), (0, 1)] ∧
      t.requested = [3, 2, 3] ∧
      ∃ all, t.loaded = all ∧ Cyclic 0x7FF 3 all := by
  intro hal t
  have h := prepareInstance_run 2 hal ⟨0, 0, 0, 0, 0, 0, 0, 0, false, false, 0, [], []⟩ 0x7FF 3
    (by decide) [.start, .completed 3, .completed 3]
  rw [if_neg (by decide)] at h
  obtain ⟨all, hall, hcyclic, -⟩ := h.2.1
  exact ⟨by decide, by decide, all, hall, hcyclic⟩

end StaticReplay

end CanSniffer.Drivers
