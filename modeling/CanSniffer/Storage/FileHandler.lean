import CanSniffer.Storage.FatFs

namespace CanSniffer.Storage

def faRead : UInt8 := 0x01
def faWrite : UInt8 := 0x02
def faCreateAlways : UInt8 := 0x08
def faOpenAppend : UInt8 := 0x30

structure FatFsDevice where
  file : Fil
  fflags : UInt8
  deriving DecidableEq, Repr

structure WriteFileAnswers where
  seek : Answer
  truncate : Answer
  reseek : Answer
  write : WriteAnswer

structure OpenAnswers where
  opened : FResult
  created : FResult
  seek : Answer

namespace FatFsDevice

def writeFile (dev : FatFsDevice) (content : List UInt8) (a : WriteFileAnswers) :
    FatFsDevice × FResult :=
  let truncate := dev.fflags &&& faCreateAlways
  let fileSize := if 0 < truncate then 0 else dev.file.fTell
  let (file, res) := dev.file.fLseek fileSize a.seek
  let (file, res) :=
    if res ≠ .ok then
      let (file, res) := file.fTruncate a.truncate
      if res = .ok then file.fLseek file.fTell a.reseek else (file, res)
    else (file, res)
  let (file, res, bytesWritten) :=
    if res = .ok then file.fWrite content a.write else (file, res, 0)
  -- a write that came up short is an error, but what it took stays in the file
  let res := if res = .ok ∧ bytesWritten ≠ content.length then .diskErr else res
  ({ dev with file }, res)

def flush (dev : FatFsDevice) (a : Answer) : FResult := dev.file.fSync a

/-- `pending` is whether the volume's window or its FSInfo has changed. -/
def syncPending (dev : FatFsDevice) (pending : Bool) : Bool := dev.file.fs && pending

def getBufferedFileSize (dev : FatFsDevice) : Nat := dev.file.fTell

def closeFile (dev : FatFsDevice) (sync : Answer) (ready : FResult) : FatFsDevice × FResult :=
  if dev.file.fs then
    let (file, res) := dev.file.fClose sync ready
    ({ dev with file }, res)
  else (dev, .ok)

def openFileForOverWrite (dev : FatFsDevice) (a : OpenAnswers) : FatFsDevice × FResult :=
  let (file, fr) := dev.file.fOpen a.opened
  let (file, fr) := if fr ≠ .ok then file.fOpen a.created else (file, fr)
  let (file, fr) := if fr = .ok then file.fLseek 0 a.seek else (file, fr)
  ({ dev with file, fflags := faWrite }, fr)

def openFileForRead (dev : FatFsDevice) (found : Option (List UInt8)) (res : FResult) :
    FatFsDevice × FResult :=
  let (file, fr) := dev.file.fOpenRead found res
  ({ dev with file, fflags := faRead }, fr)

def getFileSize (dev : FatFsDevice) : Nat := dev.file.fSize

def readFile (dev : FatFsDevice) (len : Nat) (a : Answer) : FatFsDevice × FResult × List UInt8 :=
  let r := dev.file.fRead len a
  ({ dev with file := r.1 }, if r.2.1 = .ok ∧ r.2.2.length ≠ len then .diskErr else r.2.1, r.2.2)

end FatFsDevice

end CanSniffer.Storage
