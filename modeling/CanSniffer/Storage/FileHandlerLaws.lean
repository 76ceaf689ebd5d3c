import CanSniffer.Storage.FileHandler

namespace CanSniffer.Storage

namespace Fil

variable {fp : Fil}

/-- Unless a call was aborted, the file pointer is where writing ended. -/
def AtEnd (fp : Fil) : Prop := fp.err = .ok → fp.fptr = fp.data.length

theorem usable_iff {ready : FResult} :
    fp.usable ready = .ok ↔ fp.fs = true ∧ ready = .ok ∧ fp.err = .ok := by
  unfold usable validate
  cases fp.fs with
  | false => simp
  | true => by_cases h : ready = .ok <;> simp [h]

structure Same (fp fp' : Fil) : Prop where
  fs : fp'.fs = fp.fs
  data : fp'.data = fp.data
  at_end : fp'.AtEnd

theorem fLseek_fptr (h : fp.AtEnd) (a : Answer) :
    (fp.usable a.ready = .ok ∧ a.res = .ok ∧ fp.fLseek fp.fTell a = (fp, .ok)) ∨
    (¬(fp.usable a.ready = .ok ∧ a.res = .ok) ∧ (fp.fLseek fp.fTell a).2 ≠ .ok ∧
      fp.Same (fp.fLseek fp.fTell a).1) := by
  unfold fLseek
  by_cases husable : fp.usable a.ready = .ok
  · by_cases hres : a.res = .ok
    · exact .inl ⟨husable, hres, by simp [husable, hres, fTell]⟩
    · refine .inr ⟨fun hok => hres hok.2, ?_, ?_⟩
      · simp [husable, hres]
      · simp only [husable, hres, not_true_eq_false, not_false_eq_true, if_false, if_true, ne_eq]
        exact ⟨rfl, rfl, fun herr => absurd herr hres⟩
  · refine .inr ⟨fun hok => husable hok.1, ?_, ?_⟩
    · simp [husable]
    · simp only [ne_eq, husable, not_false_eq_true, if_true]
      exact ⟨rfl, rfl, h⟩

theorem fTruncate_spec (h : fp.AtEnd) (a : Answer) :
    (fp.usable a.ready = .ok ∧ a.res = .ok ∧ fp.fTruncate a = (fp, .ok)) ∨
    (¬(fp.usable a.ready = .ok ∧ a.res = .ok) ∧ (fp.fTruncate a).2 ≠ .ok ∧
      fp.Same (fp.fTruncate a).1) := by
  unfold fTruncate
  by_cases husable : fp.usable a.ready = .ok
  · have hdata : fp.data.take fp.fptr = fp.data := by
      rw [h (usable_iff.mp husable).2.2, List.take_length]
    by_cases hres : a.res = .ok
    · exact .inl ⟨husable, hres, by simp [husable, hres, hdata]⟩
    · refine .inr ⟨fun hok => hres hok.2, ?_, ?_⟩
      · simp [husable, hres]
      · simp only [husable, hres, not_true_eq_false, not_false_eq_true, if_false, if_true, ne_eq,
          hdata]
        exact ⟨rfl, rfl, fun herr => absurd herr hres⟩
  · refine .inr ⟨fun hok => husable hok.1, ?_, ?_⟩
    · simp [husable]
    · simp only [ne_eq, husable, not_false_eq_true, if_true]
      exact ⟨rfl, rfl, h⟩

theorem fWrite_of_usable {a : WriteAnswer} (husable : fp.usable a.ready = .ok) (h : fp.AtEnd)
    (buff : List UInt8) :
    fp.fWrite buff a = ({ fp with
      err := a.res
      fptr := fp.fptr + min a.accepted buff.length
      data := fp.data ++ buff.take (min a.accepted buff.length) }, a.res,
      min a.accepted buff.length) := by
  have herr := (usable_iff.mp husable).2.2
  have hdata : fp.data.take fp.fptr ++ buff.take (min a.accepted buff.length) ++
      fp.data.drop (fp.fptr + min a.accepted buff.length) =
      fp.data ++ buff.take (min a.accepted buff.length) := by
    rw [h herr, List.take_length, List.drop_eq_nil_of_le (Nat.le_add_right ..), List.append_nil]
  unfold fWrite
  by_cases hres : a.res = .ok
  · simp [husable, hdata, hres, herr]
  · simp [husable, hdata, hres]

theorem AtEnd.write (h : fp.AtEnd) (herr : fp.err = .ok) (buff : List UInt8) (n : Nat)
    (res : FResult) : AtEnd { fp with
      err := res
      fptr := fp.fptr + min n buff.length
      data := fp.data ++ buff.take (min n buff.length) } := by
  intro _
  simp only [h herr, List.length_append, List.length_take]
  omega

end Fil

def WriteFileAnswers.Positioned (a : WriteFileAnswers) : Prop :=
  (a.seek.ready = .ok ∧ a.seek.res = .ok) ∨
    (a.seek.ready ≠ .ok ∧ (a.truncate.ready = .ok ∧ a.truncate.res = .ok) ∧
      a.reseek.ready = .ok ∧ a.reseek.res = .ok)

def WriteFileAnswers.Reaches (a : WriteFileAnswers) (fp : Fil) : Prop :=
  fp.fs = true ∧ fp.err = .ok ∧ a.Positioned ∧ a.write.ready = .ok

def WriteAnswer.Complete (a : WriteAnswer) (len : Nat) : Prop := a.res = .ok ∧ len ≤ a.accepted

namespace FatFsDevice

variable {dev : FatFsDevice}

/-- What holds of the device of the log file between two calls. -/
structure Inv (dev : FatFsDevice) : Prop where
  at_end : dev.file.AtEnd
  fflags : dev.fflags &&& faCreateAlways = 0

def position (fp : Fil) (a : WriteFileAnswers) : Fil × FResult :=
  let (file, res) := fp.fLseek fp.fTell a.seek
  if res ≠ .ok then
    let (file, res) := file.fTruncate a.truncate
    if res = .ok then file.fLseek file.fTell a.reseek else (file, res)
  else (file, res)

theorem position_spec {fp : Fil} (h : fp.AtEnd) (a : WriteFileAnswers) :
    (fp.fs = true ∧ fp.err = .ok ∧ a.Positioned ∧ position fp a = (fp, .ok)) ∨
    (¬(fp.fs = true ∧ fp.err = .ok ∧ a.Positioned) ∧ (position fp a).2 ≠ .ok ∧
      fp.Same (position fp a).1) := by
  unfold position WriteFileAnswers.Positioned
  by_cases husable : fp.usable a.seek.ready = .ok
  · obtain ⟨hfs, hready, herr⟩ := Fil.usable_iff.mp husable
    by_cases hres : a.seek.res = .ok
    · refine .inl ⟨hfs, herr, .inl ⟨hready, hres⟩, ?_⟩
      simp [Fil.fLseek, husable, hres, Fil.fTell]
    · -- the aborted seek has left its mark, and nothing works on the object from here on
      have hdead (ready : FResult) :
          ¬Fil.usable { fp with err := a.seek.res, fptr := a.seek.fptr } ready = .ok :=
        fun hok => hres (Fil.usable_iff.mp hok).2.2
      have hend : Fil.AtEnd { fp with err := a.seek.res, fptr := a.seek.fptr } :=
        fun hok => absurd hok hres
      refine .inr ⟨?_, ?_⟩
      · rintro ⟨-, -, ⟨-, hok⟩ | ⟨hnot, -⟩⟩
        · exact hres hok
        · exact hnot hready
      · simp only [Fil.fLseek, husable, hres, Fil.fTruncate, hdead, ne_eq, not_true_eq_false,
          not_false_eq_true, if_true, if_false]
        exact ⟨trivial, rfl, rfl, hend⟩
  · have hseek : fp.fLseek fp.fTell a.seek = (fp, fp.usable a.seek.ready) := by
      simp [Fil.fLseek, husable]
    simp only [hseek, ne_eq, husable, not_false_eq_true, if_true]
    rcases Fil.fTruncate_spec h a.truncate with ⟨htrunc, htres, heq⟩ | ⟨hno, hfail, hsame⟩
    · obtain ⟨hfs, htready, herr⟩ := Fil.usable_iff.mp htrunc
      have hready : a.seek.ready ≠ .ok :=
        fun hready => husable (Fil.usable_iff.mpr ⟨hfs, hready, herr⟩)
      simp only [heq, if_true]
      rcases Fil.fLseek_fptr h a.reseek with ⟨hre, hrres, hreq⟩ | ⟨hrno, hrfail, hrsame⟩
      · exact .inl ⟨hfs, herr, .inr ⟨hready, ⟨htready, htres⟩, (Fil.usable_iff.mp hre).2.1, hrres⟩,
          hreq⟩
      · refine .inr ⟨?_, hrfail, hrsame⟩
        rintro ⟨-, -, ⟨hok, -⟩ | ⟨-, -, hrready, hrres⟩⟩
        · exact hready hok
        · exact hrno ⟨Fil.usable_iff.mpr ⟨hfs, hrready, herr⟩, hrres⟩
    · simp only [hfail, if_false]
      refine .inr ⟨?_, not_false, hsame⟩
      rintro ⟨hfs, herr, ⟨hok, -⟩ | ⟨-, ⟨htready, htres⟩, -⟩⟩
      · exact husable (Fil.usable_iff.mpr ⟨hfs, hok, herr⟩)
      · exact hno ⟨Fil.usable_iff.mpr ⟨hfs, htready, herr⟩, htres⟩

theorem writeFile_eq (h : dev.Inv) (content : List UInt8) (a : WriteFileAnswers) :
    dev.writeFile content a =
      let (file, res) := position dev.file a
      let (file, res, bytesWritten) :=
        if res = .ok then file.fWrite content a.write else (file, res, 0)
      ({ dev with file }, if res = .ok ∧ bytesWritten ≠ content.length then .diskErr else res) := by
  unfold writeFile
  rw [h.fflags]
  rfl

theorem writeFile_of_reaches (h : dev.Inv) {a : WriteFileAnswers} (hr : a.Reaches dev.file)
    (content : List UInt8) :
    (dev.writeFile content a).1.Inv ∧
      (dev.writeFile content a).1.file.fs = dev.file.fs ∧
      (dev.writeFile content a).1.file.err = a.write.res ∧
      (dev.writeFile content a).1.file.data =
        dev.file.data ++ content.take (min a.write.accepted content.length) ∧
      ((dev.writeFile content a).2 = .ok ↔ a.write.Complete content.length) := by
  obtain ⟨hfs, herr, hpos, hready⟩ := hr
  have husable := Fil.usable_iff.mpr ⟨hfs, hready, herr⟩
  have hposition : position dev.file a = (dev.file, .ok) := by
    rcases position_spec h.at_end a with ⟨-, -, -, heq⟩ | ⟨hno, -⟩
    · exact heq
    · exact absurd ⟨hfs, herr, hpos⟩ hno
  rw [writeFile_eq h, hposition]
  simp only [if_true, Fil.fWrite_of_usable husable h.at_end]
  refine ⟨⟨h.at_end.write herr content _ _, h.fflags⟩, trivial, trivial, trivial, ?_⟩
  unfold WriteAnswer.Complete
  by_cases hres : a.write.res = .ok
  · simp only [hres, true_and]
    split <;> simp <;> omega
  · simp [hres]

theorem writeFile_of_not_reaches (h : dev.Inv) {a : WriteFileAnswers}
    (hr : ¬a.Reaches dev.file) (content : List UInt8) :
    (dev.writeFile content a).1.Inv ∧
      (dev.writeFile content a).1.file.fs = dev.file.fs ∧
      (dev.writeFile content a).1.file.data = dev.file.data ∧
      (dev.writeFile content a).2 ≠ .ok := by
  rw [writeFile_eq h]
  rcases position_spec h.at_end a with ⟨hfs, herr, hpos, heq⟩ | ⟨hno, hfail, hsame⟩
  · have hready : ¬a.write.ready = .ok := fun hready => hr ⟨hfs, herr, hpos, hready⟩
    have husable : ¬dev.file.usable a.write.ready = .ok :=
      fun husable => hready (Fil.usable_iff.mp husable).2.1
    simp only [heq, if_true, Fil.fWrite, ne_eq, husable, not_false_eq_true, false_and, if_false]
    exact ⟨h, trivial, trivial, trivial⟩
  · simp only [hfail, if_false, false_and]
    exact ⟨⟨hsame.at_end, h.fflags⟩, hsame.fs, hsame.data, hfail⟩

end FatFsDevice

end CanSniffer.Storage
