import CanSniffer.Web.FsCustom

namespace CanSniffer.Storage.FatFsDevice

variable {dev : FatFsDevice}

structure Readable (dev : FatFsDevice) (data : List UInt8) (fptr : Nat) : Prop where
  fs : dev.file.fs = true
  err : dev.file.err = .ok
  data : dev.file.data = data
  fptr : dev.file.fptr = fptr

theorem openFileForRead_spec (found : Option (List UInt8)) (res : FResult) :
    (dev.openFileForRead found res).2 ≠ .ok ∨
      ∃ data, found = some data ∧ (dev.openFileForRead found res).1.Readable data 0 := by
  by_cases hres : res = .ok
  · cases found with
    | none =>
      left
      simp [openFileForRead, Fil.fOpenRead, hres]
    | some data =>
      right
      refine ⟨data, rfl, ?_⟩
      constructor
      · simp [openFileForRead, Fil.fOpenRead, hres]
      · simp [openFileForRead, Fil.fOpenRead, hres]
      · simp [openFileForRead, Fil.fOpenRead, hres]
      · simp [openFileForRead, Fil.fOpenRead, hres]
  · left
    simp [openFileForRead, Fil.fOpenRead, hres]

theorem Readable.fRead {data : List UInt8} {fptr : Nat} {a : Answer} (h : dev.Readable data fptr)
    (hready : a.ready = .ok) (hres : a.res = .ok) (len : Nat) :
    dev.file.fRead len a =
      ({ dev.file with fptr := fptr + ((data.drop fptr).take len).length }, .ok,
        (data.drop fptr).take len) := by
  have husable : dev.file.usable a.ready = .ok := by
    simp [Fil.usable, Fil.validate, h.fs, h.err, hready]
  simp [Fil.fRead, husable, hres, h.data, h.fptr]

theorem Readable.readFile {data : List UInt8} {fptr : Nat} {a : Answer}
    (h : dev.Readable data fptr) (hready : a.ready = .ok) (hres : a.res = .ok) (len : Nat)
    (hlen : fptr + len ≤ data.length) :
    (dev.readFile len a).2 = (.ok, (data.drop fptr).take len) ∧
      (dev.readFile len a).1.Readable data (fptr + len) := by
  have htaken : ((data.drop fptr).take len).length = len := by
    rw [List.length_take, List.length_drop]
    omega
  have hread := h.fRead hready hres len
  rw [htaken] at hread
  constructor
  · simp only [FatFsDevice.readFile, hread]
    rw [if_neg fun hshort => hshort.2 htaken]
  · simp only [FatFsDevice.readFile, hread]
    exact ⟨h.fs, h.err, h.data, rfl⟩

theorem Readable.readFile_end {data : List UInt8} {a : Answer} {len : Nat}
    (h : dev.Readable data data.length) (hready : a.ready = .ok) (hres : a.res = .ok)
    (hlen : 0 < len) :
    (dev.readFile len a).2.1 ≠ .ok ∧ (dev.readFile len a).1.Readable data data.length := by
  have hread := h.fRead hready hres len
  rw [List.drop_length, List.take_nil, List.length_nil] at hread
  constructor
  · simp only [FatFsDevice.readFile, hread, List.length_nil]
    rw [if_pos ⟨trivial, Nat.ne_of_lt hlen⟩]
    nofun
  · simp only [FatFsDevice.readFile, hread]
    exact ⟨h.fs, h.err, h.data, rfl⟩

end CanSniffer.Storage.FatFsDevice

namespace CanSniffer.Web

open Lib Storage

/-- A download has had what comes first of its file, all of it once it was told so; a text is
still in its buffer. -/
def FsFile.Served (buffers : FsBuffer → List UInt8) (f : FsFile) : Prop :=
  match f.data with
  | none => f.received <+: f.own ∧ (f.ended = true → f.received = f.own)
  | some (.buffer b) => (buffers b).take f.len = f.own
  | some .constant => True

namespace FsCustom

variable {s t : FsCustom} {f g : FsFile} {h i : Nat} {volume : String → Option (List UInt8)}

def Undisturbed (s : FsCustom) : Prop := ∀ h f, s.files h = some f → f.Served s.buffers

/-- The call leaves what open handles were given alone, and a download is read only while the
device is open for it and the card answers. -/
def Kept (s : FsCustom) : FsCall → Prop
  | .open _ name _ render =>
    ∀ b hdr, findRoute name = some (.render b hdr) →
      ∀ i f, s.files i = some f → f.data = some (.buffer b) →
        (rendered (s.buffers b) hdr (render (b.size - headerSize hdr))).take f.len =
          (s.buffers b).take f.len
  | .read h count a =>
    ∀ f, s.files h = some f → f.pextension = true → 0 < count →
      s.owner = some h ∧ a.ready = .ok ∧ a.res = .ok
  | .close .. => True

@[simp] theorem setFile_files_self (s : FsCustom) (h : Nat) (f : Option FsFile) :
    (s.setFile h f).files h = f := if_pos rfl

theorem setFile_files_of_ne (s : FsCustom) (f : Option FsFile) (hi : i ≠ h) :
    (s.setFile h f).files i = s.files i := if_neg hi

@[simp] theorem setFile_buffers (s : FsCustom) (h : Nat) (f : Option FsFile) :
    (s.setFile h f).buffers = s.buffers := rfl

structure Holds (s : FsCustom) (f : FsFile) : Prop where
  pextension : f.pextension = true
  device : s.device.Readable f.own f.received.length
  target : s.readTargetSize = f.own.length
  count : s.byteCount = f.received.length ∨ s.byteCount = 0 ∧ f.received = f.own

structure Inv (s : FsCustom) : Prop where
  served : s.Undisturbed
  streamed : ∀ h f, s.files h = some f → (f.pextension = true ↔ f.data = none)
  owned : ∀ h, s.owner = some h → ∃ f, s.files h = some f ∧ s.Holds f

theorem Holds.setFile (hs : s.Holds f) (h : Nat) (g : Option FsFile) : (s.setFile h g).Holds f :=
  ⟨hs.pextension, hs.device, hs.target, hs.count⟩

theorem start_inv (buffers : FsBuffer → List UInt8) : (start buffers).Inv :=
  ⟨nofun, nofun, nofun⟩

theorem Inv.setFile {g : Option FsFile} (hs : s.Inv) (hh : s.owner ≠ some h)
    (hf : ∀ f, g = some f → f.Served s.buffers ∧ (f.pextension = true ↔ f.data = none)) :
    (s.setFile h g).Inv := by
  constructor
  · intro i f hi
    by_cases hih : i = h
    · subst hih
      rw [setFile_files_self] at hi
      exact (hf f hi).1
    · rw [setFile_files_of_ne _ _ hih] at hi
      exact hs.served i f hi
  · intro i f hi
    by_cases hih : i = h
    · subst hih
      rw [setFile_files_self] at hi
      exact (hf f hi).2
    · rw [setFile_files_of_ne _ _ hih] at hi
      exact hs.streamed i f hi
  · intro i hi
    obtain ⟨f, hfile, hholds⟩ := hs.owned i hi
    have hih : i ≠ h := by
      rintro rfl
      exact hh hi
    exact ⟨f, (setFile_files_of_ne _ _ hih).trans hfile, hholds.setFile h g⟩

theorem Inv.setOwner (hs : s.Inv) (hfiles : t.files = s.files) (hbuffers : t.buffers = s.buffers)
    (ho : t.owner = some h) (hf : f.Served s.buffers) (hdata : f.data = none)
    (hholds : t.Holds f) : (t.setFile h (some f)).Inv := by
  constructor
  · intro i g hi
    rw [setFile_buffers, hbuffers]
    by_cases hih : i = h
    · subst hih
      rw [setFile_files_self] at hi
      cases hi
      exact hf
    · rw [setFile_files_of_ne _ _ hih, hfiles] at hi
      exact hs.served i g hi
  · intro i g hi
    by_cases hih : i = h
    · subst hih
      rw [setFile_files_self] at hi
      cases hi
      exact iff_of_true hholds.pextension hdata
    · rw [setFile_files_of_ne _ _ hih, hfiles] at hi
      exact hs.streamed i g hi
  · intro i hi
    cases ho.symm.trans hi
    exact ⟨f, setFile_files_self .., hholds.setFile h (some f)⟩

theorem Holds.served (hs : s.Holds f) (hi : s.Inv) (hf : s.files h = some f) :
    f.data = none ∧ f.received <+: f.own ∧ (f.ended = true → f.received = f.own) := by
  have hdata := (hi.streamed h f hf).mp hs.pextension
  have hserved := hi.served h f hf
  simp only [FsFile.Served, hdata] at hserved
  exact ⟨hdata, hserved⟩

theorem served_of_streamed {buffers : FsBuffer → List UInt8} (hdata : f.data = none)
    (hpre : f.received <+: f.own) (hended : f.ended = true → f.received = f.own) :
    f.Served buffers := by
  simp only [FsFile.Served, hdata]
  exact ⟨hpre, hended⟩

theorem Holds.logsRead {count : Int} {a : Answer} (hs : s.Holds f)
    (hpre : f.received <+: f.own) (hcount : 0 < count) (hready : a.ready = .ok)
    (hres : a.res = .ok) :
    (f.received = f.own ∧ (s.logsRead f count a).2 = none ∧ (s.logsRead f count a).1.Holds f) ∨
      ∃ bytes, (s.logsRead f count a).2 = some bytes ∧ f.received ++ bytes <+: f.own ∧
        (s.logsRead f count a).1.Holds { f with received := f.received ++ bytes } := by
  have hlen := hpre.length_le
  unfold FsCustom.logsRead
  rw [if_neg (by simp [hs.pextension])]
  by_cases hdone : s.readTargetSize ≤ s.byteCount
  · rw [if_pos hdone]
    have hall : f.received = f.own := by
      rcases hs.count with hc | ⟨-, hr⟩
      · exact hpre.eq_of_length_le (by rw [← hs.target, ← hc]; exact hdone)
      · exact hr
    exact .inl ⟨hall, rfl, hs.pextension, hs.device, hs.target, .inr ⟨rfl, hall⟩⟩
  · rw [if_neg hdone, if_neg (Int.not_le.mpr hcount)]
    have htarget := hs.target
    generalize hn : min count.toNat (s.readTargetSize - s.byteCount) = n
    have hpos : 0 < n := by omega
    rcases hs.count with hc | ⟨hc, hall⟩
    · obtain ⟨hread, hdevice⟩ := hs.device.readFile hready hres n (by omega)
      right
      refine ⟨(f.own.drop f.received.length).take n, ?_, ?_, ?_⟩
      · simp only [hread]
        rfl
      · obtain ⟨rest, hrest⟩ := hpre
        rw [← hrest, List.drop_left]
        exact List.prefix_append_right_inj f.received |>.mpr (List.take_prefix n rest)
      · have hgot : ((f.own.drop f.received.length).take n).length = n := by
          rw [List.length_take, List.length_drop]
          omega
        simp only [hread]
        refine ⟨hs.pextension, ?_, htarget, .inl ?_⟩
        · rw [List.length_append, hgot]
          exact hdevice
        · rw [List.length_append, hgot, ← hc]
          rfl
    · have hend := hs.device
      rw [hall] at hend
      obtain ⟨hread, hdevice⟩ := hend.readFile_end hready hres hpos
      left
      simp only [hread, ne_eq, not_false_eq_true, if_true]
      refine ⟨hall, trivial, hs.pextension, ?_, htarget, .inr ⟨hc, hall⟩⟩
      rw [hall]
      exact hdevice

theorem Inv.logsRead_silent {count : Int} (hs : s.Inv) (a : Answer)
    (hsilent : f.pextension = true → count ≤ 0) :
    (s.logsRead f count a).2 = none ∧ (s.logsRead f count a).1.Inv := by
  unfold FsCustom.logsRead
  split
  · exact ⟨rfl, hs⟩
  · next hstream =>
    split
    · next hdone =>
      refine ⟨rfl, hs.served, hs.streamed, ?_⟩
      intro i hi
      obtain ⟨g, hg, hholds⟩ := hs.owned i hi
      obtain ⟨-, hpre, -⟩ := hholds.served hs hg
      refine ⟨g, hg, hholds.pextension, hholds.device, hholds.target, .inr ⟨rfl, ?_⟩⟩
      rcases hholds.count with hc | ⟨-, hall⟩
      · exact hpre.eq_of_length_le (by rw [← hholds.target, ← hc]; exact hdone)
      · exact hall
    · rw [if_pos (hsilent (Bool.not_eq_false _ ▸ hstream))]
      exact ⟨rfl, hs⟩

theorem logsRead_frame (s : FsCustom) (f : FsFile) (count : Int) (a : Answer) :
    (s.logsRead f count a).1.files = s.files ∧ (s.logsRead f count a).1.buffers = s.buffers ∧
      (s.logsRead f count a).1.owner = s.owner := by
  unfold FsCustom.logsRead
  split
  · exact ⟨rfl, rfl, rfl⟩
  · split
    · exact ⟨rfl, rfl, rfl⟩
    · split
      · exact ⟨rfl, rfl, rfl⟩
      · dsimp only
        split
        · exact ⟨rfl, rfl, rfl⟩
        · exact ⟨rfl, rfl, rfl⟩

theorem setFile_eq_self (hf : s.files h = some f) : s.setFile h (some f) = s := by
  have hfiles : (s.setFile h (some f)).files = s.files := by
    funext i
    by_cases hi : i = h
    · rw [hi, setFile_files_self, hf]
    · exact setFile_files_of_ne _ _ hi
  show { s with files := (s.setFile h (some f)).files } = s
  rw [hfiles]

theorem receive_none_of_le {count : Int} (f : FsFile) (hc : count ≤ 0) :
    receive f count none = f := by
  simp [receive, Int.not_lt.mpr hc]

theorem Inv.read {count : Int} {a : Answer} (hs : s.Inv) (hf : s.files h = some f)
    (hkept : s.Kept (.read h count a)) :
    ((s.logsRead f count a).1.setFile h (some (receive f count (s.logsRead f count a).2))).Inv := by
  obtain ⟨hfiles, hbuffers, howner⟩ := logsRead_frame s f count a
  by_cases hread : f.pextension = true ∧ 0 < count
  · obtain ⟨hown, hready, hres⟩ := hkept f hf hread.1 hread.2
    obtain ⟨f', hf', hholds⟩ := hs.owned h hown
    obtain rfl : f = f' := Option.some.inj (hf.symm.trans hf')
    obtain ⟨hdata, hpre, hended⟩ := hholds.served hs hf
    rcases hholds.logsRead hpre hread.2 hready hres with ⟨hall, hnone, ht⟩ | ⟨bytes, hsome, hp, ht⟩
    · rw [hnone]
      refine hs.setOwner hfiles hbuffers (howner.trans hown) ?_ hdata ?_
      · exact served_of_streamed hdata hpre fun _ => hall
      · exact ⟨ht.pextension, ht.device, ht.target, ht.count⟩
    · rw [hsome]
      refine hs.setOwner hfiles hbuffers (howner.trans hown) ?_ hdata ht
      refine served_of_streamed hdata hp fun hend => ?_
      have hall := hended hend
      show f.received ++ bytes = f.own
      exact hp.eq_of_length_le (by rw [List.length_append, hall]; omega)
  · have hsilent : f.pextension = true → count ≤ 0 := by
      intro hp
      exact Int.not_lt.mp fun hc => hread ⟨hp, hc⟩
    obtain ⟨hnone, hinv⟩ := hs.logsRead_silent a hsilent
    rw [hnone]
    by_cases hp : f.pextension = true
    · rw [receive_none_of_le f (hsilent hp), setFile_eq_self (hfiles ▸ hf)]
      exact hinv
    · have hdata : f.data ≠ none := fun hd => hp ((hs.streamed h f hf).mpr hd)
      refine hinv.setFile ?_ ?_
      · intro ho
        obtain ⟨f', hf', hholds⟩ := hinv.owned h ho
        rw [hfiles] at hf'
        obtain rfl : f = f' := Option.some.inj (hf.symm.trans hf')
        exact hp hholds.pextension
      · intro g hg
        cases hg
        refine ⟨?_, iff_of_false hp hdata⟩
        have hserved := hs.served h f hf
        rw [hbuffers]
        simp only [FsFile.Served, receive] at hserved ⊢
        split
        · next hnone => exact absurd hnone hdata
        · next b hb =>
          simpa only [hb] using hserved
        · trivial

theorem Inv.disown (hs : s.Inv) (hfiles : t.files = s.files) (hbuffers : t.buffers = s.buffers)
    (ho : t.owner = none) : t.Inv := by
  constructor
  · intro i f hi
    rw [hbuffers]
    exact hs.served i f (hfiles ▸ hi)
  · intro i f hi
    exact hs.streamed i f (hfiles ▸ hi)
  · intro i hi
    rw [ho] at hi
    cases hi

theorem Inv.close (hs : s.Inv) (hf : s.files h = some f) (sync : Answer) (ready : FResult) :
    ((s.logsClose f sync ready).setFile h none).Inv := by
  unfold FsCustom.logsClose
  split
  · exact (hs.disown (t := { s with device := _, owner := none }) rfl rfl rfl).setFile nofun nofun
  · next hp =>
    refine hs.setFile ?_ nofun
    intro ho
    obtain ⟨f', hf', hholds⟩ := hs.owned h ho
    obtain rfl : f = f' := Option.some.inj (hf.symm.trans hf')
    exact hp hholds.pextension

theorem Inv.logsOpenFile (hs : s.Inv) (volume : String → Option (List UInt8)) (h : Nat)
    (name : String) (a : OpenLogAnswers) : (s.logsOpenFile volume h name a).Inv := by
  have hdisown : ∀ device, ({ s with byteCount := 0, device, owner := none } : FsCustom).Inv := by
    intro device
    exact hs.disown rfl rfl rfl
  unfold FsCustom.logsOpenFile
  dsimp only
  split
  · exact hdisown _
  · next hopened =>
    split
    · exact hs.disown rfl rfl rfl
    · rcases s.device.openFileForRead_spec (volume (canLogPath name)) a.opened with hfail | ⟨data, -, hd⟩
      · exact absurd (Decidable.not_not.mp hopened) hfail
      · refine (hdisown s.device).setOwner rfl rfl rfl ?_ rfl ⟨rfl, ?_, rfl, .inl rfl⟩
        · exact served_of_streamed rfl (List.nil_prefix ..) nofun
        · rw [hd.data]
          exact hd

theorem Inv.setBuffer {b : FsBuffer} {content : List UInt8} (hs : s.Inv)
    (hagree : ∀ i f, s.files i = some f → f.data = some (.buffer b) →
      content.take f.len = (s.buffers b).take f.len) : (s.setBuffer b content).Inv := by
  refine ⟨?_, hs.streamed, ?_⟩
  · intro i f hi
    have hserved := hs.served i f hi
    unfold FsFile.Served at hserved ⊢
    split
    · next hd => simpa only [hd] using hserved
    · next b' hd =>
      simp only [hd] at hserved
      by_cases hb : b' = b
      · subst hb
        rw [← hserved, ← hagree i f hi hd]
        simp [FsCustom.setBuffer]
      · rw [← hserved]
        simp [FsCustom.setBuffer, hb]
    · trivial
  · intro i hi
    obtain ⟨f, hf, hholds⟩ := hs.owned i hi
    exact ⟨f, hf, hholds.pextension, hholds.device, hholds.target, hholds.count⟩

theorem Inv.openRendered {b : FsBuffer} {hdr : Bool} {render : FsCustomRenderFn} (hs : s.Inv)
    (hfree : s.owner ≠ some h)
    (hagree : ∀ i f, s.files i = some f → f.data = some (.buffer b) →
      (rendered (s.buffers b) hdr (render (b.size - headerSize hdr))).take f.len =
        (s.buffers b).take f.len) : (s.openRendered h b hdr render).Inv := by
  unfold FsCustom.openRendered
  split
  · exact hs
  · dsimp only
    split
    · refine (hs.setBuffer hagree).setFile hfree ?_
      intro f hf
      cases hf
      refine ⟨?_, iff_of_false nofun nofun⟩
      simp [FsFile.Served, FsCustom.setBuffer]
    · exact hs.setBuffer hagree

theorem Inv.openCustom {name : String} {log : OpenLogAnswers} {render : FsCustomRenderFn}
    (hs : s.Inv) (hfree : s.files h = none) (hkept : s.Kept (.open h name log render)) :
    (s.openCustom volume h name log render).Inv := by
  have howner : s.owner ≠ some h := by
    intro ho
    obtain ⟨f, hf, -⟩ := hs.owned h ho
    cases hfree.symm.trans hf
  have hconstant : (s.setFile h (some constantFile)).Inv := by
    refine hs.setFile howner ?_
    intro f hf
    cases hf
    exact ⟨trivial, iff_of_false nofun nofun⟩
  unfold FsCustom.openCustom
  split
  · exact hs.logsOpenFile volume h name log
  · exact hconstant
  · exact hconstant
  · next b hdr hroute => exact hs.openRendered howner (hkept b hdr hroute)
  · exact hs

theorem step_inv {l : FsCall} (hs : s.Inv) (hkept : s.Kept l) (ht : step volume s l = some t) :
    t.Inv := by
  cases l with
  | «open» h name log render =>
    simp only [step] at ht
    split at ht
    · next hfree =>
      cases ht
      exact hs.openCustom hfree hkept
    · cases ht
  | read h count a =>
    simp only [step] at ht
    split at ht
    · next f hf =>
      cases ht
      exact hs.read hf hkept
    · cases ht
  | close h sync ready =>
    simp only [step] at ht
    split at ht
    · next f hf =>
      cases ht
      exact hs.close hf sync ready
    · cases ht

/-- However the calls interleave: as long as every download is read before another one is opened
or closed, and no text is rendered over one that is still being sent. -/
theorem run_undisturbed {buffers : FsBuffer → List UInt8} {ls : List FsCall}
    (hkept : Step.Along (step volume) Kept (start buffers) ls)
    (h : Step.run (step volume) (start buffers) ls = some t) : t.Undisturbed :=
  (Step.run_invariant_along (fun hs hc ht => step_inv hs hc ht) (start_inv buffers) hkept h).served

/-- Two downloads at once: the reads of the first return the second file. -/
theorem second_download_disturbs :
    ¬∀ (volume : String → Option (List UInt8)) (buffers : FsBuffer → List UInt8)
      (ls : List FsCall) (t : FsCustom),
      Step.run (step volume) (start buffers) ls = some t → t.Undisturbed := by
  intro h
  let done : Answer := { ready := .ok, res := .ok, fptr := 0 }
  let log : OpenLogAnswers := { opened := .ok, sync := done, ready := .ok }
  let silent : FsCustomRenderFn := fun _ => ⟨[], none, Nat.zero_le _, nofun⟩
  have hdisturbed := h (fun name => if name = "/logs/CAN.LOG0" then some [1] else some [2])
    (fun _ => [])
    [.open 0 "/logs/CAN.LOG0" log silent, .open 1 "/logs/CAN.LOG1" log silent, .read 0 16 done] _ rfl
  have hserved := hdisturbed 0 _ rfl
  exact absurd hserved.1 (by decide)

theorem kept_of_no_buffer {name : String} {log : OpenLogAnswers} {render : FsCustomRenderFn}
    (hf : ∀ i f, s.files i = some f → f.data = none) : s.Kept (.open h name log render) := by
  intro b hdr _ i f hi hd
  cases (hf i f hi).symm.trans hd

def renderBytes (bytes : List UInt8) : FsCustomRenderFn := fun room =>
  { written := bytes.take room
    payload := some (bytes.take room).length
    written_le := List.length_take_le ..
    payload_le := fun _ h => Nat.le_of_eq (Option.some.inj h).symm }

/-- A download of three bytes goes on to its end while the list of the files is rendered. -/
def downloadAndMeta : List FsCall :=
  let done : Answer := { ready := .ok, res := .ok, fptr := 0 }
  let log : OpenLogAnswers := { opened := .ok, sync := done, ready := .ok }
  [.open 0 "/logs/CAN.LOG0" log (renderBytes []), .read 0 2 done,
    .open 1 "/logs/meta" log (renderBytes [91, 93]), .read 0 2 done, .read 0 2 done]

theorem run_undisturbed_meta :
    ∃ t, Step.run (step fun _ => some [1, 2, 3]) (start fun _ => []) downloadAndMeta = some t ∧
      (t.files 0).map (fun f => (f.received, f.ended)) = some ([1, 2, 3], true) ∧
      (t.files 1).map (fun f => f.own.drop (f.own.length - 2)) = some [91, 93] ∧
      t.Undisturbed := by
  refine (fun hrun => ⟨_, hrun, by decide +kernel, by decide +kernel, run_undisturbed ?_ hrun⟩) rfl
  refine ⟨kept_of_no_buffer nofun, ?_⟩
  rintro t ⟨⟩
  refine ⟨fun _ _ _ _ => ⟨rfl, rfl, rfl⟩, ?_⟩
  rintro t ⟨⟩
  refine ⟨kept_of_no_buffer ?_, ?_⟩
  · intro i f hi
    by_cases h0 : i = 0
    · subst h0
      cases hi
      rfl
    · change (if i = 0 then some _ else if i = 0 then some _ else none) = some f at hi
      rw [if_neg h0, if_neg h0] at hi
      cases hi
  · rintro t ⟨⟩
    refine ⟨fun _ _ _ _ => ⟨rfl, rfl, rfl⟩, ?_⟩
    rintro t ⟨⟩
    exact ⟨fun _ _ _ _ => ⟨rfl, rfl, rfl⟩, fun _ _ => trivial⟩

end FsCustom

end CanSniffer.Web
