import CanSniffer.Lib.Json
import CanSniffer.Storage.FileHandler

namespace CanSniffer.Storage

open Lib

def Answer.success : Answer where
  ready := .ok
  res := .ok
  fptr := 0

def WriteFileAnswers.success (len : Nat) : WriteFileAnswers where
  seek := .success
  truncate := .success
  reseek := .success
  write := { ready := .ok, accepted := len, res := .ok }

/-- A file that is not there is made by the second call. -/
def OpenAnswers.success (found : Option (List UInt8)) : OpenAnswers where
  opened := if found.isSome then .ok else .noFile
  created := .ok
  seek := .success

/-- What was written through an object at the beginning of its file, the rest of which stays. -/
def overwrite (found : Option (List UInt8)) (written : List UInt8) : List UInt8 :=
  written ++ (found.getD []).drop written.length

theorem take_overwrite (found : Option (List UInt8)) {written : List UInt8} {size : Nat}
    (h : written.length ≤ size) :
    (overwrite found written).take size =
      written ++ ((found.getD []).drop written.length).take (size - written.length) := by
  rw [overwrite, List.take_append, List.take_of_length_le h]

/-- Beyond its first `len` bytes an old file has nothing but whitespace, as far as a reader of
`size` bytes comes. -/
def Blank (found : Option (List UInt8)) (len size : Nat) : Prop :=
  ∀ b ∈ ((found.getD []).drop len).take (size - len), Json.isWs b = true

theorem Blank.of_length_le {found : Option (List UInt8)} {len : Nat}
    (h : (found.getD []).length ≤ len) (size : Nat) : Blank found len size := by
  intro b hb
  rw [List.drop_eq_nil_of_le h, List.take_nil] at hb
  exact absurd hb List.not_mem_nil

section

variable {found : Option (List UInt8)} {format : List UInt8} {t : Json} {size : Nat}
  (hformat : ∀ rest, Json.parse (format ++ rest) =
    if rest.all Json.isWs then some t else none)
  (hsize : format.length ≤ size)

include hformat hsize

theorem parse_overwrite (h : Blank found format.length size) :
    Json.parse ((overwrite found format).take size) = some t := by
  rw [take_overwrite found hsize, hformat]
  exact if_pos (List.all_eq_true.mpr h)

theorem parse_overwrite_eq_none (h : ¬Blank found format.length size) :
    Json.parse ((overwrite found format).take size) = none := by
  rw [take_overwrite found hsize, hformat]
  exact if_neg fun hall => h (List.all_eq_true.mp hall)

end

namespace FatFsDevice

def opened : FatFsDevice where
  file := { fs := true, err := .ok, fptr := 0, data := [] }
  fflags := faWrite

def reading (data : List UInt8) : FatFsDevice where
  file := { fs := true, err := .ok, fptr := 0, data }
  fflags := faRead

def written (content : List UInt8) : FatFsDevice where
  file := { fs := true, err := .ok, fptr := content.length, data := content }
  fflags := faWrite

@[simp] theorem openFileForOverWrite_success (dev : FatFsDevice) (found : Option (List UInt8)) :
    dev.openFileForOverWrite (.success found) = (opened, .ok) := by
  cases found <;> rfl

@[simp] theorem writeFile_success (content : List UInt8) :
    opened.writeFile content (.success content.length) = (written content, .ok) := by
  simp [writeFile, opened, written, WriteFileAnswers.success, Fil.fLseek, Fil.usable, Fil.validate,
    Answer.success, Fil.fWrite, Fil.fTell]
  exact ite_self 0

@[simp] theorem openFileForRead_success (dev : FatFsDevice) (data : List UInt8) :
    dev.openFileForRead (some data) .ok = (reading data, .ok) := rfl

theorem readFile_reading (data : List UInt8) (size : Nat) :
    ((reading data).readFile
      (if (reading data).getFileSize < size then (reading data).getFileSize else size)
      .success).2 = (.ok, data.take size) := by
  have hsize : (reading data).getFileSize = data.length := rfl
  generalize hlen : (if (reading data).getFileSize < size then (reading data).getFileSize
    else size) = len
  rw [hsize] at hlen
  have hle : len ≤ data.length := by
    rw [← hlen]
    split <;> omega
  simp [reading, readFile, Fil.fRead, Fil.usable, Fil.validate, Answer.success, hle]
  rw [← hlen]
  split <;> omega

@[simp] theorem closeFile_success (dev : FatFsDevice) : (dev.closeFile .success .ok).2 = .ok := by
  unfold closeFile
  split
  · next h => simp [Fil.fClose, Fil.fSync, Fil.validate, h, Answer.success]
  · rfl

end FatFsDevice

end CanSniffer.Storage
