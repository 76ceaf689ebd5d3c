import CanSniffer.Iap.Upload

namespace CanSniffer.Iap

open Lib

namespace Slot

variable {s : Slot} {a : WriteAnswer} {ofs : Nat} {data : List UInt8}

@[simp] theorem length_slice (s : Slot) (ofs len : Nat) : (s.slice ofs len).length = len := by
  rw [slice, List.length_map, List.length_range']

theorem write_slice (ha : a.status = .ok) :
    (s.write ofs data a).slice ofs data.length = data := by
  apply List.ext_getElem
  · exact length_slice ..
  · intro i hi hi'
    have hin : ofs ≤ ofs + i ∧ ofs + i < ofs + data.length := by omega
    simp only [slice, List.getElem_map, List.getElem_range', Nat.one_mul, write, if_pos hin,
      if_pos ha, Nat.add_sub_cancel_left]
    rw [List.getD_eq_getElem?_getD, List.getElem?_eq_getElem hi']
    rfl

theorem write_slice_zero (ha : a.status = .ok) :
    (s.write ofs data a).slice 0 (ofs + data.length) = s.slice 0 ofs ++ data := by
  have hbefore : (s.write ofs data a).slice 0 ofs = s.slice 0 ofs := by
    apply slice_congr
    intro i _ hi
    exact if_neg (by omega)
  rw [slice_add, hbefore, Nat.zero_add, write_slice ha]

theorem write_of_ok (ha : a.status = .ok) : s.write ofs data a = s.write ofs data okWrite := by
  have h := write_append (s := s) (a := a) (b := okWrite) (c := okWrite) ha rfl rfl ofs data []
  rwa [write_nil, List.append_nil] at h

end Slot

namespace IapWriter

variable {w : IapWriter} {a : WriteAnswer} {data : List UInt8}

def grown (w : IapWriter) (data : List UInt8) (a : WriteAnswer) : IapWriter :=
  { w with
    slot := w.slot.write w.receivedSize data a
    payloadHash := hashBytes w.payloadHash data
    receivedSize := w.receivedSize + data.length
    payload := w.payload ++ data }

theorem writeChunk_ok (hopen : w.active = true) (hfin : w.finalized = false) (ha : a.status = .ok)
    (hne : data ≠ []) (hofs : w.receivedSize % w.config.progSize = 0)
    (hlen : data.length % w.config.progSize = 0)
    (hfit : w.receivedSize + data.length ≤ w.expectedSize) :
    w.writeChunk w.receivedSize data a = (w.grown data a, .ok) := by
  unfold writeChunk
  rw [if_neg hne, if_neg (by simp [hopen, hfin]), if_neg (by simp), if_neg (by simp [hofs, hlen]),
    if_neg (Nat.not_lt.mpr hfit)]
  dsimp only
  rw [if_neg (by simp [ha])]
  rfl

theorem begin_ok {len : Nat} {a : EraseAnswer} (hidle : w.active = false) (ha : a.status = .ok)
    (hpos : 0 < len) (hfit : len ≤ w.config.slotSize) (hlen : len % w.config.progSize = 0) :
    (w.begin len a).2 = .ok := by
  have hround : ∃ n, roundUp len w.config.eraseSize = some n ∧ n ≤ w.config.slotSize := by
    have herase := w.config.erase_pos
    have hdvd := Nat.dvd_of_mod_eq_zero w.config.erase_dvd
    have hslot := w.config.slot_lt
    unfold roundUp
    rw [if_neg (Nat.ne_of_gt herase)]
    split
    · exact ⟨len, rfl, hfit⟩
    · next hrem =>
      -- the slot is made of whole sectors, so the next one still ends inside it
      have hlt : len < w.config.slotSize :=
        Nat.lt_of_le_of_ne hfit fun h => hrem (h ▸ w.config.erase_dvd)
      have hnext : len + (w.config.eraseSize - len % w.config.eraseSize) ≤ w.config.slotSize := by
        obtain ⟨k, hk⟩ := hdvd
        have hdiv := Nat.div_add_mod len w.config.eraseSize
        have hq : len / w.config.eraseSize < k := by
          apply Nat.div_lt_of_lt_mul
          rwa [← hk]
        have hmul := Nat.mul_le_mul_left w.config.eraseSize hq
        have hmod := Nat.mod_lt len herase
        rw [Nat.mul_succ, ← hk] at hmul
        omega
      rw [if_neg (by simp only [uint32Max]; omega)]
      exact ⟨_, rfl, hnext⟩
  obtain ⟨n, hn, hle⟩ := hround
  unfold begin
  rw [if_neg (by simp [hidle]), if_neg (by omega), if_neg (by simp [hlen]), hn]
  dsimp only
  rw [if_neg (Nat.not_lt.mpr hle)]
  split
  · rfl
  · rw [if_neg (by simp [ha])]

theorem begin_of_ok {len : Nat} {a : EraseAnswer} (hok : (w.begin len a).2 = .ok) :
    len % w.config.progSize = 0 ∧ ∃ s, (w.begin len a).1 = { w with slot := s }.started len := by
  constructor
  · unfold begin at hok
    split at hok
    · cases hok
    · split at hok
      · cases hok
      · split at hok
        · cases hok
        · next hwhole => exact Decidable.not_not.mp hwhole
  · rcases w.begin_cases len a with ⟨hfail, -⟩ | ⟨-, -, hw | ⟨n, hw⟩⟩
    · exact absurd hok hfail
    · exact ⟨w.slot, hw⟩
    · exact ⟨w.slot.erase n a, hw⟩

end IapWriter

namespace UploadFlash

structure Follows (f : UploadFlash) (ks : List (Nat × List UInt8)) (w w' : IapWriter) : Prop where
  status : (f.writeChunks w.slot ks).status = .ok
  slot : (f.writeChunks w.slot ks).slot = w'.slot
  laid : Laid FlashWrite.offset FlashWrite.len f.info.progSizeMin w.receivedSize
    (f.writeChunks w.slot ks).calls w'.receivedSize

variable {f : UploadFlash} {w w' : IapWriter} {ks : List (Nat × List UInt8)}

theorem Follows.nil (f : UploadFlash) (w : IapWriter) : f.Follows [] w w := ⟨rfl, rfl, rfl⟩

theorem Follows.cons {data : List UInt8} {a : WriteAnswer} (hsuits : FlashAdapter.Suits f.adapter f.info)
    (hworks : f.Works) (ha : a.status = .ok) (hofs : w.receivedSize % f.info.progSizeMin = 0)
    (hlen : data.length % f.info.progSizeMin = 0) (h : f.Follows ks (w.grown data a) w') :
    f.Follows ((w.receivedSize, data) :: ks) w w' := by
  obtain ⟨hstatus, hslot, hlaid⟩ :=
    FlashAdapter.write_ok (s := w.slot) hsuits hworks.write hofs hlen
  have hgrown : (w.grown data a).slot =
      (FlashAdapter.write f.adapter f.info f.answer w.slot w.receivedSize data).slot :=
    (Slot.write_of_ok ha).trans hslot.symm
  obtain ⟨htail, htailslot, htaillaid⟩ := h
  rw [hgrown] at htail htailslot htaillaid
  constructor
  · rw [writeChunks, if_neg (by simp [hstatus])]
    exact htail
  · rw [writeChunks, if_neg (by simp [hstatus])]
    exact htailslot
  · rw [writeChunks, if_neg (by simp [hstatus])]
    exact hlaid.append htaillaid

def Followed (ks : List (Nat × List UInt8)) (w w' : IapWriter) : Prop :=
  ∀ f : UploadFlash, FlashAdapter.Suits f.adapter f.info → f.Works →
    f.info.progSizeMin = w.config.progSize → f.Follows ks w w'

end UploadFlash

namespace IngestAdapter

/-- An image on its way: its first bytes are in the slot, the next ones wait, and the rest is still
to come. -/
structure Receiving (image rest : List UInt8) (x : IngestAdapter) : Prop where
  opened : x.writer.active = true
  unfinished : x.writer.finalized = false
  size : x.writer.expectedSize = image.length
  whole : image.length % x.writer.config.progSize = 0
  small : x.writer.config.progSize ≤ ingestAdapterAlignMax
  aligned : x.writer.receivedSize % x.writer.config.progSize = 0
  waiting : x.pending.length < x.writer.config.progSize
  content : x.writer.slot.slice 0 x.writer.receivedSize ++ x.pending ++ rest = image

structure Took (image rest : List UInt8) (ks : List (Nat × List UInt8)) (n : Nat)
    (x y : IngestAdapter) : Prop where
  receiving : y.Receiving image rest
  grown : y.writer.receivedSize + y.pending.length = x.writer.receivedSize + x.pending.length + n
  config : y.writer.config = x.writer.config
  follows : UploadFlash.Followed ks x.writer y.writer

variable {x : IngestAdapter} {image rest data : List UInt8} {a : WriteAnswer}

theorem Receiving.length (h : x.Receiving image rest) :
    x.writer.receivedSize + x.pending.length + rest.length = image.length := by
  rw [← h.content, List.length_append, List.length_append, Slot.length_slice]

theorem Receiving.pending_of_last (h : x.Receiving image []) : x.pending = [] := by
  have hlength := h.length
  have hwhole := h.whole
  rw [List.length_nil, Nat.add_zero] at hlength
  rw [← hlength, Nat.add_mod, h.aligned, Nat.zero_add, Nat.mod_mod, Nat.mod_eq_of_lt h.waiting]
    at hwhole
  exact List.eq_nil_of_length_eq_zero hwhole

theorem Receiving.grown (h : x.Receiving image (data ++ rest)) (ha : a.status = .ok)
    (hlen : (x.pending ++ data).length % x.writer.config.progSize = 0) :
    Receiving image rest { writer := x.writer.grown (x.pending ++ data) a, pending := [] } := by
  refine ⟨h.opened, h.unfinished, h.size, h.whole, h.small, ?_, x.writer.config.prog_pos, ?_⟩
  · show (x.writer.receivedSize + (x.pending ++ data).length) % x.writer.config.progSize = 0
    rw [Nat.add_mod, h.aligned, hlen, Nat.zero_mod]
  · show (x.writer.slot.write x.writer.receivedSize (x.pending ++ data) a).slice 0
        (x.writer.receivedSize + (x.pending ++ data).length) ++ [] ++ rest = image
    rw [Slot.write_slice_zero ha, ← h.content]
    simp only [List.append_assoc, List.nil_append]

theorem Receiving.writeChunk (h : x.Receiving image (data ++ rest)) (ha : a.status = .ok)
    (hne : x.pending ++ data ≠ [])
    (hlen : (x.pending ++ data).length % x.writer.config.progSize = 0) :
    x.writer.writeChunk x.writer.receivedSize (x.pending ++ data) a =
      (x.writer.grown (x.pending ++ data) a, .ok) := by
  refine IapWriter.writeChunk_ok h.opened h.unfinished ha hne h.aligned hlen ?_
  have hlength := h.length
  rw [List.length_append] at hlength ⊢
  rw [h.size]
  omega

theorem alignedLen_spec (n : Nat) {p : Nat} (hp : 0 < p) :
    alignedLen n p ≤ n ∧ alignedLen n p % p = 0 ∧ n - alignedLen n p < p := by
  unfold alignedLen
  have hmod := Nat.mod_lt n hp
  have hle := Nat.mod_le n p
  split
  · exact ⟨Nat.sub_le .., Nat.sub_mod_eq_zero_of_mod_eq (Nat.mod_mod n p).symm, by omega⟩
  · exact ⟨Nat.zero_le n, Nat.zero_mod p, by omega⟩

def mainPart (x : IngestAdapter) (d : List UInt8) (a : WriteAnswer) : IngestAdapter × IngestStatus :=
  let len := alignedLen d.length x.writer.config.progSize
  let y := x.keepRemainder (d.drop len)
  if len = 0 then (y, .ok)
  else
    let w := y.writer.writeChunk x.writer.receivedSize (d.take len) a
    ({ y with writer := w.1 }, mapWriterStatus w.2)

theorem mainPart_ok {d : List UInt8} (h : x.Receiving image (d ++ rest))
    (hnone : x.pending = []) (ha : a.status = .ok) :
    (x.mainPart d a).2 = .ok ∧
      Took image rest
        (if alignedLen d.length x.writer.config.progSize = 0 then []
          else [(x.writer.receivedSize, d.take (alignedLen d.length x.writer.config.progSize))])
        d.length x (x.mainPart d a).1 := by
  obtain ⟨hle, hdvd, hrest⟩ := alignedLen_spec d.length x.writer.config.prog_pos
  have hkeep : x.keepRemainder (d.drop (alignedLen d.length x.writer.config.progSize)) =
      { x with pending := d.drop (alignedLen d.length x.writer.config.progSize) } := if_pos hnone
  have hsplit : d.take (alignedLen d.length x.writer.config.progSize) ++
      (d.drop (alignedLen d.length x.writer.config.progSize) ++ rest) = d ++ rest := by
    rw [← List.append_assoc, List.take_append_drop]
  unfold mainPart
  dsimp only
  rw [hkeep]
  generalize alignedLen d.length x.writer.config.progSize = len at hle hdvd hrest hsplit
  have hdrop : (d.drop len).length = d.length - len := List.length_drop
  by_cases hzero : len = 0
  · subst hzero
    rw [if_pos rfl, if_pos rfl]
    refine ⟨rfl, ⟨h.opened, h.unfinished, h.size, h.whole, h.small, h.aligned, hdrop ▸ hrest, ?_⟩,
      ?_, rfl, fun f _ _ _ => .nil f x.writer⟩
    · show x.writer.slot.slice 0 x.writer.receivedSize ++ d ++ rest = image
      rw [← h.content, hnone, List.append_nil, List.append_assoc]
    · rw [hnone]
      rfl
  · rw [if_neg hzero, if_neg hzero]
    rw [← hsplit] at h
    have htake : (d.take len).length = len := List.length_take_of_le hle
    have hlen : (x.pending ++ d.take len).length % x.writer.config.progSize = 0 := by
      rw [hnone, List.nil_append, htake, hdvd]
    have hne : x.pending ++ d.take len ≠ [] := by
      rw [hnone, List.nil_append]
      apply List.ne_nil_of_length_pos
      rw [htake]
      exact Nat.pos_of_ne_zero hzero
    have hgrown := h.grown ha hlen
    have hw := h.writeChunk ha hne hlen
    rw [hnone, List.nil_append] at hgrown hw hlen
    dsimp only
    rw [hw]
    refine ⟨rfl, ⟨hgrown.opened, hgrown.unfinished, hgrown.size, hgrown.whole, hgrown.small,
      hgrown.aligned, hdrop ▸ hrest, ?_⟩, ?_, rfl, ?_⟩
    · rw [← hgrown.content, List.append_nil, List.append_assoc]
    · show x.writer.receivedSize + (d.take len).length + (d.drop len).length = _
      rw [hnone, htake, hdrop, List.length_nil]
      omega
    · exact fun f hsuits hworks hinfo =>
        .cons hsuits hworks ha (hinfo ▸ h.aligned) (hinfo ▸ hlen) (.nil f _)

theorem writeChunk_eq {as : ChunkAnswers} (h : x.Receiving image (data ++ rest)) (hne : data ≠ []) :
    x.writeChunk (x.writer.receivedSize + x.pending.length) data as =
      let f := x.refill (x.writer.receivedSize + x.pending.length) data x.writer.config.progSize
      let r := writePending { x with pending := f.pending } f.updatedOffset
        x.writer.config.progSize as.first
      if r.2 ≠ .ok then r
      else
        let len := alignedLen f.updatedLen x.writer.config.progSize
        let y := r.1.keepRemainder ((data.drop (f.freeLen + len)).take (f.updatedLen - len))
        if len = 0 then (y, .ok)
        else
          let w := y.writer.writeChunk (x.writer.receivedSize + x.pending.length + f.freeLen)
            ((data.drop f.freeLen).take len) as.main
          ({ y with writer := w.1 }, mapWriterStatus w.2) := by
  unfold IngestAdapter.writeChunk
  rw [if_neg hne, if_neg (Nat.not_lt.mpr h.small)]
  rw [if_neg (by simp [checkOffsetSequence]), if_neg (Nat.not_lt.mpr (Nat.le_of_lt h.waiting))]

theorem take_drop_rest (data : List UInt8) (n k : Nat) :
    (data.drop (n + k)).take (data.length - n - k) = (data.drop n).drop k := by
  rw [List.drop_drop, List.take_of_length_le]
  rw [List.length_drop]
  omega

def mainChunks (x : IngestAdapter) (d : List UInt8) : List (Nat × List UInt8) :=
  if alignedLen d.length x.writer.config.progSize = 0 then []
  else [(x.writer.receivedSize, d.take (alignedLen d.length x.writer.config.progSize))]

theorem writeChunk_wait (as : ChunkAnswers) (h : x.Receiving image (data ++ rest)) (hne : data ≠ [])
    (hpending : 0 < x.pending.length)
    (hfree : data.length < x.writer.config.progSize - x.pending.length) :
    x.writeChunk (x.writer.receivedSize + x.pending.length) data as =
        ({ x with pending := x.pending ++ data }, .ok) ∧
      x.chunks (x.writer.receivedSize + x.pending.length) data = [] := by
  have hrefill : x.refill (x.writer.receivedSize + x.pending.length) data
      x.writer.config.progSize = {
        pending := x.pending ++ data
        freeLen := x.writer.config.progSize - x.pending.length
        updatedLen := 0
        updatedOffset := x.writer.receivedSize } := by
    unfold refill
    rw [if_pos hpending, if_neg (Nat.not_le.mpr hfree), Nat.add_sub_cancel]
  have hlen : ¬(x.pending ++ data).length = x.writer.config.progSize := by
    rw [List.length_append]
    omega
  have hzero : alignedLen 0 x.writer.config.progSize = 0 :=
    Nat.le_zero.mp (alignedLen_spec 0 x.writer.config.prog_pos).1
  have hfull : ¬x.pending ++ data = [] := fun hnil =>
    Nat.ne_of_gt hpending (congrArg List.length (List.append_eq_nil_iff.mp hnil).1)
  constructor
  · rw [writeChunk_eq h hne, hrefill]
    simp only [writePending, if_neg hlen, ne_eq, not_true_eq_false, if_false, hzero, if_true,
      keepRemainder, if_neg hfull]
  · simp only [chunks, hrefill, if_neg hlen, hzero, if_true, List.append_nil]

theorem writeChunk_fill {as : ChunkAnswers} {n : Nat} (h : x.Receiving image (data ++ rest))
    (hne : data ≠ []) (hfirst : as.first.status = .ok) (hpending : 0 < x.pending.length)
    (hn : x.pending.length + n = x.writer.config.progSize) (hfree : n ≤ data.length) :
    Receiving image (data.drop n ++ rest)
        { writer := x.writer.grown (x.pending ++ data.take n) as.first, pending := [] } ∧
      x.writeChunk (x.writer.receivedSize + x.pending.length) data as =
        mainPart { writer := x.writer.grown (x.pending ++ data.take n) as.first, pending := [] }
          (data.drop n) as.main ∧
      x.chunks (x.writer.receivedSize + x.pending.length) data =
        (x.writer.receivedSize, x.pending ++ data.take n) ::
          mainChunks { writer := x.writer.grown (x.pending ++ data.take n) as.first, pending := [] }
            (data.drop n) := by
  have hfreeLen : x.writer.config.progSize - x.pending.length = n := by omega
  have hrefill : x.refill (x.writer.receivedSize + x.pending.length) data
      x.writer.config.progSize = {
        pending := x.pending ++ data.take n
        freeLen := n
        updatedLen := data.length - n
        updatedOffset := x.writer.receivedSize } := by
    unfold refill
    rw [if_pos hpending, hfreeLen, if_pos hfree, Nat.add_sub_cancel]
  have hfull : (x.pending ++ data.take n).length = x.writer.config.progSize := by
    rw [List.length_append, List.length_take_of_le hfree, hn]
  have hmod : (x.pending ++ data.take n).length % x.writer.config.progSize = 0 := by
    rw [hfull, Nat.mod_self]
  have hdrop : (data.drop n).length = data.length - n := List.length_drop
  have hsplit : data.take n ++ (data.drop n ++ rest) = data ++ rest := by
    rw [← List.append_assoc, List.take_append_drop]
  have hnext : x.writer.receivedSize + x.pending.length + n =
      (x.writer.grown (x.pending ++ data.take n) as.first).receivedSize := by
    show _ = x.writer.receivedSize + (x.pending ++ data.take n).length
    rw [hfull, ← hn, Nat.add_assoc]
  have hconfig : (x.writer.grown (x.pending ++ data.take n) as.first).config = x.writer.config := rfl
  have hopen := h
  rw [← hsplit] at hopen
  have hw := hopen.writeChunk hfirst (List.ne_nil_of_length_pos (by omega)) hmod
  refine ⟨hopen.grown hfirst hmod, ?_, ?_⟩
  · rw [writeChunk_eq h hne, hrefill]
    simp only [writePending, if_pos hfull, hw, mapWriterStatus, ne_eq, not_true_eq_false, if_false,
      take_drop_rest, mainPart, hdrop, hconfig, hnext]
  · simp only [chunks, hrefill, if_pos hfull, mainChunks, hdrop, hconfig, hnext, List.singleton_append]

theorem writeChunk_direct (as : ChunkAnswers) (h : x.Receiving image (data ++ rest)) (hne : data ≠ [])
    (hnone : x.pending = []) :
    x.writeChunk (x.writer.receivedSize + x.pending.length) data as = x.mainPart data as.main ∧
      x.chunks (x.writer.receivedSize + x.pending.length) data = x.mainChunks data := by
  have hrefill : x.refill (x.writer.receivedSize + x.pending.length) data
      x.writer.config.progSize =
        { pending := [], freeLen := 0, updatedLen := data.length, updatedOffset := 0 } := by
    unfold refill
    rw [if_neg (by rw [hnone]; exact Nat.lt_irrefl 0)]
  have hempty : ¬0 = x.writer.config.progSize := Nat.ne_of_lt x.writer.config.prog_pos
  have hkept : writePending { x with pending := [] } 0 x.writer.config.progSize as.first =
      (x, .ok) := by
    refine (if_neg hempty).trans ?_
    rw [← hnone]
  have hrest : ∀ k, (data.drop (0 + k)).take (data.length - k) = data.drop k :=
    take_drop_rest data 0
  simp only [Nat.zero_add] at hrest
  constructor
  · rw [writeChunk_eq h hne, hrefill]
    simp only [hkept, ne_eq, not_true_eq_false, if_false, hrest, List.drop_zero, mainPart, hnone,
      List.length_nil, Nat.add_zero, Nat.zero_add, keepRemainder_writer]
  · simp only [chunks, hrefill]
    simp only [List.length_nil, if_neg hempty, mainChunks, hnone, Nat.add_zero, List.drop_zero,
      List.nil_append]

theorem writeChunk_receiving {as : ChunkAnswers}
    (h : x.Receiving image (data ++ rest)) (hne : data ≠ []) (hfirst : as.first.status = .ok)
    (hmain : as.main.status = .ok) :
    (x.writeChunk (x.writer.receivedSize + x.pending.length) data as).2 = .ok ∧
      Took image rest (x.chunks (x.writer.receivedSize + x.pending.length) data) data.length x
        (x.writeChunk (x.writer.receivedSize + x.pending.length) data as).1 := by
  have hwait := h.waiting
  rcases Nat.eq_zero_or_pos x.pending.length with hnone | hpending
  · have hnone := List.eq_nil_of_length_eq_zero hnone
    obtain ⟨hwrite, hchunks⟩ := writeChunk_direct as h hne hnone
    rw [hwrite, hchunks]
    exact mainPart_ok h hnone hmain
  · rcases Nat.lt_or_ge data.length (x.writer.config.progSize - x.pending.length) with hlt | hfree
    · obtain ⟨hwrite, hchunks⟩ := writeChunk_wait as h hne hpending hlt
      rw [hwrite, hchunks]
      have hlen : (x.pending ++ data).length = x.pending.length + data.length :=
        List.length_append
      refine ⟨rfl, ⟨h.opened, h.unfinished, h.size, h.whole, h.small, h.aligned, ?_, ?_⟩, ?_, rfl,
        fun f _ _ _ => .nil f x.writer⟩
      · show (x.pending ++ data).length < x.writer.config.progSize
        omega
      · rw [← h.content]
        simp only [List.append_assoc]
      · show x.writer.receivedSize + (x.pending ++ data).length = _
        omega
    · have hn : x.pending.length + (x.writer.config.progSize - x.pending.length) =
          x.writer.config.progSize := Nat.add_sub_of_le (Nat.le_of_lt hwait)
      obtain ⟨hgrown, hwrite, hchunks⟩ := writeChunk_fill h hne hfirst hpending hn hfree
      obtain ⟨hok, htook⟩ := mainPart_ok hgrown rfl hmain
      have hfull : (x.pending ++ data.take (x.writer.config.progSize - x.pending.length)).length =
          x.writer.config.progSize := by
        rw [List.length_append, List.length_take_of_le hfree, hn]
      rw [hwrite, hchunks]
      refine ⟨hok, htook.receiving, ?_, htook.config, ?_⟩
      · rw [htook.grown]
        show x.writer.receivedSize + (x.pending ++ data.take _).length + 0 + (data.drop _).length = _
        rw [hfull, List.length_drop]
        omega
      · intro f hsuits hworks hinfo
        refine .cons hsuits hworks hfirst (hinfo ▸ h.aligned) ?_
          (htook.follows f hsuits hworks hinfo)
        rw [hfull, hinfo, Nat.mod_self]

end IngestAdapter

namespace PipelineContext

structure Uploading (image rest : List UInt8) (x : IngestAdapter) (c : PipelineContext) : Prop where
  active : c.active = true
  expected : c.expectedSize = image.length
  received : c.receivedSize = x.writer.receivedSize + x.pending.length
  receiving : x.Receiving image rest

variable {x : IngestAdapter} {c : PipelineContext} {image rest data : List UInt8}

theorem begin_ok {a : EraseAnswer} {len : Nat} (hidle : x.writer.active = false)
    (ha : a.status = .ok) (hpos : 0 < len) (hwhole : len % x.writer.config.progSize = 0)
    (hfit : len ≤ x.writer.config.slotSize) (c : PipelineContext) :
    (begin x true c len a).2.2 = .ok := by
  have hadapter : (x.begin len a).2 = .ok :=
    mapWriterStatus_eq_ok.mpr (IapWriter.begin_ok hidle ha hpos hfit hwhole)
  unfold begin
  rw [if_neg (Nat.ne_of_gt hpos), if_neg nofun]
  simp only [hadapter, ne_eq, not_true_eq_false, if_false]

theorem begin_uploading {a : EraseAnswer} {c : PipelineContext}
    (hsmall : x.writer.config.progSize ≤ ingestAdapterAlignMax)
    (hok : (begin x true c image.length a).2.2 = .ok) :
    Uploading image image (begin x true c image.length a).1 (begin x true c image.length a).2.1 ∧
      (begin x true c image.length a).1.writer.config = x.writer.config ∧
      (begin x true c image.length a).1.writer.receivedSize = 0 := by
  unfold begin at hok ⊢
  split at hok
  · cases hok
  · next hpos =>
    rw [if_neg hpos]
    rw [if_neg nofun] at hok ⊢
    dsimp only at hok ⊢
    split at hok
    · next hfail => exact absurd hok hfail
    · next hadapter =>
      have hwriter := mapWriterStatus_eq_ok.mp (Decidable.not_not.mp hadapter)
      obtain ⟨hwhole, s, hstarted⟩ := IapWriter.begin_of_ok hwriter
      have hbegun : x.begin image.length a =
          ({ writer := { x.writer with slot := s }.started image.length, pending := [] }, .ok) :=
        calc
          x.begin image.length a = ({ writer := (x.writer.begin image.length a).1, pending := [] },
              mapWriterStatus (x.writer.begin image.length a).2) := rfl
          _ = _ := by rw [hwriter, hstarted, mapWriterStatus]
      rw [if_neg hadapter, hbegun]
      exact ⟨⟨rfl, rfl, rfl, ⟨rfl, rfl, rfl, hwhole, hsmall, Nat.zero_mod _,
        x.writer.config.prog_pos, rfl⟩⟩, rfl, rfl⟩

theorem push_uploading {a : ChunkAnswers} (h : Uploading image (data ++ rest) x c)
    (hne : data ≠ []) (hfirst : a.first.status = .ok) (hmain : a.main.status = .ok) :
    (push x c data a).2.2 = .ok ∧ Uploading image rest (push x c data a).1 (push x c data a).2.1 ∧
      (push x c data a).1.writer.config = x.writer.config ∧
      UploadFlash.Followed (x.chunks c.receivedSize data) x.writer (push x c data a).1.writer := by
  obtain ⟨hok, htook⟩ := IngestAdapter.writeChunk_receiving h.receiving hne hfirst hmain
  rw [← h.received] at hok htook
  have hgrown := htook.grown
  rw [← h.received] at hgrown
  have hlength := h.receiving.length
  rw [← h.received, List.length_append, ← h.expected] at hlength
  have hpush : push x c data a = ((x.writeChunk c.receivedSize data a).1,
      { c with receivedSize := c.receivedSize + data.length }, .ok) := by
    unfold push
    rw [if_neg (by simp [h.active, hne]), if_neg (by omega)]
    simp only [hok, ne_eq, not_true_eq_false, if_false]
  rw [hpush]
  exact ⟨rfl, ⟨h.active, h.expected, hgrown.symm, htook.receiving⟩, htook.config, htook.follows⟩

theorem finish_uploading (h : Uploading image [] x c) :
    (finish x c).2.2 = .ok ∧ (finish x c).1.writer.slot = x.writer.slot ∧
      x.writer.slot.slice 0 image.length = image := by
  have hpending := h.receiving.pending_of_last
  have hlength := h.receiving.length
  rw [List.length_nil, Nat.add_zero] at hlength
  have hreceived : x.writer.receivedSize = image.length := by
    rw [← hlength, hpending]
    rfl
  have hfinalize : x.finalize.2 = .ok ∧ x.finalize.1.writer.slot = x.writer.slot := by
    unfold IngestAdapter.finalize
    rw [if_neg (by simp [hpending])]
    unfold IapWriter.finalize
    rw [if_neg (by simp [h.receiving.opened, h.receiving.unfinished]),
      if_neg (by simp [hreceived, h.receiving.size])]
    exact ⟨rfl, rfl⟩
  have hfinish : finish x c = (x.finalize.1, reset, x.finalize.2) := by
    unfold finish
    rw [if_neg (by simp [h.active]), if_neg (by rw [h.received, h.expected, hlength]; simp)]
  rw [hfinish]
  refine ⟨hfinalize.1, hfinalize.2, ?_⟩
  have hcontent := h.receiving.content
  rw [hpending, hreceived, List.append_nil, List.append_nil] at hcontent
  exact hcontent

end PipelineContext

namespace Upload

structure Going (f : UploadFlash) (image rest : List UInt8) (u : Upload) : Prop where
  status : u.status = .ok
  uploading : u.context.Uploading image rest u.adapter
  info : f.info.progSizeMin = u.adapter.writer.config.progSize
  slot : u.slot = u.adapter.writer.slot
  laid : Laid FlashWrite.offset FlashWrite.len f.info.progSizeMin 0 u.writes
    u.adapter.writer.receivedSize

variable {f : UploadFlash} {u : Upload} {image rest data : List UInt8}

theorem Going.push (h : u.Going f image (data ++ rest)) (hne : data ≠ [])
    (hsuits : FlashAdapter.Suits f.adapter f.info) (hworks : f.Works) :
    (u.push f data).Going f image rest := by
  have hstatus : (f.writeChunks u.slot (u.adapter.chunks u.context.receivedSize data)).status =
      .ok := by
    rw [h.slot]
    exact ((PipelineContext.push_uploading (a := { first := okWrite, main := okWrite })
      h.uploading hne rfl rfl).2.2.2 f hsuits hworks h.info).status
  let w : WriteAnswer :=
    { status := (f.writeChunks u.slot (u.adapter.chunks u.context.receivedSize data)).status
      left := fun _ => none }
  obtain ⟨hok, huploading, hconfig, hfollowed⟩ :=
    PipelineContext.push_uploading (a := { first := w, main := w }) h.uploading hne hstatus hstatus
  have hslot := (hfollowed f hsuits hworks h.info).slot
  have hlaid := (hfollowed f hsuits hworks h.info).laid
  rw [← h.slot] at hslot hlaid
  exact ⟨hok, huploading, h.info.trans (congrArg _ hconfig.symm), hslot, h.laid.append hlaid⟩

theorem Going.pushAll {parts : List (List UInt8)} (h : u.Going f image (parts.flatten ++ rest))
    (hne : ∀ part ∈ parts, part ≠ []) (hsuits : FlashAdapter.Suits f.adapter f.info)
    (hworks : f.Works) : (u.pushAll f parts).Going f image rest := by
  induction parts generalizing u with
  | nil => exact h
  | cons part parts ih =>
    rw [List.flatten_cons, List.append_assoc] at h
    exact ih (h.push (hne part List.mem_cons_self) hsuits hworks)
      fun q hq => hne q (List.mem_cons_of_mem part hq)

/-- Every cut of an image is taken to its end and leaves the image in the slot, with writes that
are aligned, stay inside the image and touch no place twice. -/
theorem upload_exact {x : IngestAdapter} {c : PipelineContext} {parts : List (List UInt8)}
    {bounce slotAddr : Nat} (hadapter : FlashAdapter.initOps f.info bounce = .ok f.adapter)
    (hsource : FlashAdapter.bounceSize % f.info.sourceAlignment = 0) (hworks : f.Works)
    (hinfo : f.info.progSizeMin = x.writer.config.progSize)
    (hsmall : f.info.progSizeMin ≤ ingestAdapterAlignMax)
    (hslot : slotAddr % f.info.progSizeMin = 0) (hidle : x.writer.active = false)
    (hne : image ≠ []) (hwhole : image.length % f.info.progSizeMin = 0)
    (hfit : image.length ≤ x.writer.config.slotSize) (hparts : parts.flatten = image)
    (hpart : ∀ part ∈ parts, part ≠ []) :
    (begin f x c image.length).status = .ok ∧
      (∀ sent left, parts = sent ++ left →
        ((begin f x c image.length).pushAll f sent).status = .ok ∧
        ((begin f x c image.length).pushAll f sent).context.receivedSize =
          ((begin f x c image.length).pushAll f sent).adapter.writer.receivedSize +
            ((begin f x c image.length).pushAll f sent).adapter.pending.length ∧
        ((begin f x c image.length).pushAll f sent).adapter.pending.length < f.info.progSizeMin) ∧
      ((begin f x c image.length).pushAll f parts).finish.status = .ok ∧
      ((begin f x c image.length).pushAll f parts).finish.slot.slice 0 image.length = image ∧
      (∀ w ∈ ((begin f x c image.length).pushAll f parts).finish.writes,
        (slotAddr + w.offset) % f.info.progSizeMin = 0 ∧ w.len % f.info.progSizeMin = 0 ∧
        slotAddr ≤ slotAddr + w.offset ∧ slotAddr + w.offset + w.len ≤ slotAddr + image.length) ∧
      ((begin f x c image.length).pushAll f parts).finish.writes.Pairwise fun v w =>
        v.offset + v.len ≤ w.offset := by
  have hsuits := FlashAdapter.initOps_suits hadapter hsource
  have hok := PipelineContext.begin_ok hidle hworks.erase (List.length_pos_iff.mpr hne)
    (hinfo ▸ hwhole) hfit c
  obtain ⟨hbegun, hconfig, hzero⟩ := PipelineContext.begin_uploading (hinfo ▸ hsmall) hok
  have hstart : (begin f x c image.length).Going f image image :=
    ⟨hok, hbegun, hinfo.trans (congrArg _ hconfig.symm), rfl, hzero.symm⟩
  have hgoing : ∀ sent left, parts = sent ++ left →
      ((begin f x c image.length).pushAll f sent).Going f image left.flatten := by
    intro sent left hsplit
    apply Going.pushAll _ (fun q hq => hpart q (hsplit ▸ List.mem_append_left left hq)) hsuits hworks
    rw [← List.flatten_append, ← hsplit, hparts]
    exact hstart
  have hall := hgoing parts [] (List.append_nil parts).symm
  obtain ⟨hfinish, -, hcontent⟩ := PipelineContext.finish_uploading hall.uploading
  refine ⟨hok, ?_, hfinish, ?_, ?_, hall.laid.pairwise⟩
  · intro sent left hsplit
    have h := hgoing sent left hsplit
    exact ⟨h.status, h.uploading.received, h.info ▸ h.uploading.receiving.waiting⟩
  · exact (congrArg (Slot.slice · 0 image.length) hall.slot).trans hcontent
  · intro w hw
    obtain ⟨-, hend, haligned, hlen, -⟩ := hall.laid.of_mem hw
    have hlength := hall.uploading.receiving.length
    refine ⟨?_, hlen, Nat.le_add_right .., ?_⟩
    · rw [Nat.add_mod, hslot, haligned, Nat.zero_mod]
    · rw [List.flatten_nil, List.length_nil] at hlength
      omega

def twoWords : IapWriterConfig where
  slotSize := 64
  eraseSize := 64
  progSize := flashInfo.progSizeMin
  slot_lt := Nat.le_of_ble_eq_true rfl
  erase_pos := Nat.zero_lt_succ 63
  prog_pos := by decide
  erase_dvd := rfl

def workingFlash : UploadFlash where
  adapter := { srcAlignment := 4, maxChunk := 1024 }
  info := flashInfo
  answer := fun _ => { status := .ok, left := fun _ => none }
  erase := { status := .ok, erased := fun _ => true }

theorem upload_exact_two_parts :
    ((begin workingFlash (.init (.init twoWords { bytes := fun _ => 0, touched := fun _ => false }))
        .reset (List.replicate 64 (7 : UInt8)).length).pushAll workingFlash
      [List.replicate 10 7, List.replicate 54 7]).finish.slot.slice 0
        (List.replicate 64 (7 : UInt8)).length = List.replicate 64 7 := by
  have hadapter : FlashAdapter.initOps workingFlash.info 0x20000000 = .ok workingFlash.adapter := rfl
  have hparts : ∀ part ∈ [List.replicate 10 (7 : UInt8), List.replicate 54 7], part ≠ [] := by
    simp
  have hprog : workingFlash.info.progSizeMin = 32 := rfl
  have hslot : 0x08100000 % workingFlash.info.progSizeMin = 0 := by rw [hprog]
  have hwhole : (List.replicate 64 (7 : UInt8)).length % workingFlash.info.progSizeMin = 0 := by
    rw [hprog, List.length_replicate]
  have hfit : (List.replicate 64 (7 : UInt8)).length ≤ twoWords.slotSize := by
    rw [List.length_replicate]
    exact Nat.le_refl 64
  have hne : List.replicate 64 (7 : UInt8) ≠ [] := by simp
  have h := upload_exact (c := .reset)
    (x := .init (.init twoWords { bytes := fun _ => 0, touched := fun _ => false }))
    hadapter rfl ⟨rfl, fun _ => rfl⟩ hprog (Nat.le_of_ble_eq_true rfl) hslot rfl hne hwhole hfit rfl
    hparts
  exact h.2.2.2.1

end Upload

end CanSniffer.Iap
