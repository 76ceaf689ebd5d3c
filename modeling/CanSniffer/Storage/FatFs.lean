/-! The file object of FatFs (`ff.c`), as far as the log writer uses it.  What the card and
the volume answer to a call is an argument of it. -/

namespace CanSniffer.Storage

inductive FResult
  | ok
  | diskErr
  | intErr
  | notReady
  | noFile
  | noPath
  | invalidName
  | denied
  | exist
  | invalidObject
  | writeProtected
  | invalidDrive
  | notEnabled
  | noFilesystem
  | mkfsAborted
  | timeout
  | locked
  | notEnoughCore
  | tooManyOpenFiles
  | invalidParameter
  deriving DecidableEq, Repr

/-- `fs` is whether the object belongs to a volume, `err` the abort flag; `data` is the file, or
its beginning as far as it was written through the object. -/
structure Fil where
  fs : Bool
  err : FResult
  fptr : Nat
  data : List UInt8
  deriving DecidableEq, Repr

/-- The volume could be locked and the card is there (`ready`), the rest of the call succeeds
(`res`), and the file pointer if it is aborted. -/
structure Answer where
  ready : FResult
  res : FResult
  fptr : Nat

/-- `accepted` is how many bytes a write takes until it ends or is aborted. -/
structure WriteAnswer where
  ready : FResult
  accepted : Nat
  res : FResult

namespace Fil

def validate (fp : Fil) (ready : FResult) : FResult := if fp.fs then ready else .invalidObject

def usable (fp : Fil) (ready : FResult) : FResult :=
  let res := fp.validate ready
  if res ≠ .ok then res else fp.err

def fTell (fp : Fil) : Nat := fp.fptr

def fLseek (fp : Fil) (ofs : Nat) (a : Answer) : Fil × FResult :=
  let res := fp.usable a.ready
  if res ≠ .ok then (fp, res)
  else if a.res ≠ .ok then ({ fp with err := a.res, fptr := a.fptr }, a.res)
  else ({ fp with fptr := ofs }, .ok)

/-- A full disk ends the loop without an error. -/
def fWrite (fp : Fil) (buff : List UInt8) (a : WriteAnswer) : Fil × FResult × Nat :=
  let res := fp.usable a.ready
  if res ≠ .ok then (fp, res, 0)
  else
    let bw := min a.accepted buff.length
    let fp := { fp with
      data := fp.data.take fp.fptr ++ buff.take bw ++ fp.data.drop (fp.fptr + bw)
      fptr := fp.fptr + bw }
    if a.res ≠ .ok then ({ fp with err := a.res }, a.res, bw) else (fp, .ok, bw)

def fTruncate (fp : Fil) (a : Answer) : Fil × FResult :=
  let res := fp.usable a.ready
  if res ≠ .ok then (fp, res)
  else
    let fp := { fp with data := fp.data.take fp.fptr }
    if a.res ≠ .ok then ({ fp with err := a.res }, a.res) else (fp, .ok)

/-- A failed `f_sync` leaves no mark on the object. -/
def fSync (fp : Fil) (a : Answer) : FResult :=
  let res := fp.validate a.ready
  if res ≠ .ok then res else a.res

def fClose (fp : Fil) (sync : Answer) (ready : FResult) : Fil × FResult :=
  let res := fp.fSync sync
  if res ≠ .ok then (fp, res)
  else
    let res := fp.validate ready
    if res ≠ .ok then (fp, res) else ({ fp with fs := false }, .ok)

def fOpen (fp : Fil) (res : FResult) : Fil × FResult :=
  if res ≠ .ok then ({ fp with fs := false }, res)
  else ({ fs := true, err := .ok, fptr := 0, data := [] }, .ok)

def fOpenRead (fp : Fil) (found : Option (List UInt8)) (res : FResult) : Fil × FResult :=
  if res ≠ .ok then ({ fp with fs := false }, res)
  else
    match found with
    | some data => ({ fs := true, err := .ok, fptr := 0, data }, .ok)
    | none => ({ fp with fs := false }, .noFile)

def fSize (fp : Fil) : Nat := fp.data.length

/-- At the end of the file the read is short without an error. -/
def fRead (fp : Fil) (btr : Nat) (a : Answer) : Fil × FResult × List UInt8 :=
  let res := fp.usable a.ready
  if res ≠ .ok then (fp, res, [])
  else if a.res ≠ .ok then ({ fp with err := a.res, fptr := a.fptr }, a.res, [])
  else
    let bytes := (fp.data.drop fp.fptr).take btr
    ({ fp with fptr := fp.fptr + bytes.length }, .ok, bytes)

end Fil

end CanSniffer.Storage
