import CanSniffer.Storage.JsonValue
import CanSniffer.Storage.Overwrite

/-! The metadata of the log in their file (`m_MetaDataLoad` and `m_MetaDataStore` of
`CanLogManager.c`), on a card that answers every call. -/

namespace CanSniffer.Logging

open Lib Decimal Storage

structure CanLogMetaData where
  epoch : UInt32
  fileIndex : UInt32
  byteOffset : UInt32
  crc : UInt32
  deriving DecidableEq, Repr

/-- `CLB_E_OK`, or a code of `CanLogBuffer.h` in the place of a `FRESULT`. -/
inductive MetaDataResult
  | ok
  | fileOpen
  | fileRead
  | fileWrite
  | fatFs (res : FResult)
  deriving DecidableEq, Repr

def MetaDataResult.ofFResult (res : FResult) : MetaDataResult :=
  if res = .ok then .ok else .fatFs res

namespace CanLogMetaData

/-- One number of the document; `val` is what its variable holds before it is read. -/
def parseNumber (json : CoreJson) (buffer : List UInt8) (key : String) (val : UInt32)
    (set : UInt32 → CanLogMetaData) (data : CanLogMetaData) : CanLogMetaData :=
  match json.getValue buffer key with
  | some value => set (convertToInteger value val)
  | none => data

/-- `CanLogManager_ParseMetaData`; `stack` has the numbers before they are read. -/
def parseMetaData (json : CoreJson) (stack : CanLogMetaData) (buffer : List UInt8)
    (data : CanLogMetaData) : CanLogMetaData × Bool :=
  if json.validate buffer then
    let data := parseNumber json buffer "epoch" stack.epoch (fun epoch => { data with epoch }) data
    let data := parseNumber json buffer "index" stack.fileIndex
      (fun fileIndex => { data with fileIndex }) data
    let data := parseNumber json buffer "offset" stack.byteOffset
      (fun byteOffset => { data with byteOffset }) data
    let data := parseNumber json buffer "crc" stack.crc (fun crc => { data with crc }) data
    (data, (json.getValue buffer "crc").isSome)
  else (data, false)

def contentSize : Nat := 128

def metaFormat (data : CanLogMetaData) : List UInt8 :=
  ascii "\x7b\n    \"epoch\":" ++ unsigned data.epoch.toNat ++
  ascii ",\n    \"index\":" ++ unsigned data.fileIndex.toNat ++
  ascii ",\n    \"offset\":" ++ unsigned data.byteOffset.toNat ++
  ascii ",\n    \"crc\":" ++ unsigned data.crc.toNat ++ ascii "\n\x7d\n"

def toJsonString (data : CanLogMetaData) (maxLength : Nat) : List UInt8 :=
  (metaFormat data).take (maxLength - 1)

/-- The result of the parser, and of the read, is lost to that of closing the file. -/
def load (json : CoreJson) (found : Option (List UInt8)) (dev : FatFsDevice)
    (stack data : CanLogMetaData) : CanLogMetaData × MetaDataResult :=
  -- `f_stat` fails exactly where opening would
  let (dev, res) := dev.openFileForRead found .ok
  if res ≠ .ok then (data, .fileOpen)
  else
    let fileSize := dev.getFileSize
    let readSize := if fileSize < contentSize then fileSize else contentSize
    let (dev, res, content) := dev.readFile readSize .success
    let data := if res = .ok then (parseMetaData json stack content data).1 else data
    (data, .ofFResult (dev.closeFile .success .ok).2)

/-- The second component is the file afterwards. -/
def store (found : Option (List UInt8)) (dev : FatFsDevice) (data : CanLogMetaData) :
    MetaDataResult × Option (List UInt8) :=
  let (dev, res) := dev.openFileForOverWrite (.success found)
  if res ≠ .ok then (.fileOpen, found)
  else
    let string := data.toJsonString contentSize
    let content := string.take contentSize
    let (dev, res) := dev.writeFile content (.success content.length)
    (if res ≠ .ok then .fileWrite else .ok, some (overwrite found dev.file.data))

end CanLogMetaData

end CanSniffer.Logging
