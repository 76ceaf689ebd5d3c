import CanSniffer.Lib.Transition
import CanSniffer.Logging.LogFiles
import CanSniffer.Storage.JsonValue
import CanSniffer.Storage.Overwrite

/-! Formatting the card (`appCtrlCgiHandler` of `WebInterface.c`, `FatFS_SD_Formatting_Request` of
`FileHandler.c`, `appHandleFormattingRequest` of `Core0Task0.c`): a request goes to a file, and the
next start formats the card and keeps the settings in another. -/

namespace CanSniffer.App

open Lib Decimal Storage

structure LogConfig where
  clusterSize : UInt32
  logFileSize : UInt32
  logFileCount : UInt32
  deriving DecidableEq, Repr

/-- What the compiler was given for `MAX_LOG_FILE_COUNT`. -/
structure LogBuild where
  fileCount : Option UInt32
  fileCount_pos : ∀ n ∈ fileCount, 0 < n

namespace LogBuild

def clusterSize : UInt32 := 32768

def maxLogFileCount (b : LogBuild) : UInt32 := b.fileCount.getD Logging.maxLogFileCount

def defaults (b : LogBuild) : LogConfig where
  clusterSize := clusterSize
  logFileSize := Logging.maxLogFileSize
  logFileCount := b.maxLogFileCount

def fixCount (b : LogBuild) (c : LogConfig) : LogConfig :=
  if b.fileCount.isSome then { c with logFileCount := b.maxLogFileCount } else c

def setConfig (b : LogBuild) (c : LogConfig) : LogConfig where
  clusterSize := if c.clusterSize = 0 then clusterSize else c.clusterSize
  logFileSize := if c.logFileSize = 0 then Logging.maxLogFileSize else c.logFileSize
  logFileCount := if c.logFileCount = 0 then b.maxLogFileCount else c.logFileCount

end LogBuild

/-- For an `unsigned long` of 32 bits: the number and where it ends. -/
def strtoul (s : List UInt8) : UInt32 × List UInt8 :=
  let (negative, t) := splitSign (s.dropWhile isSpace)
  let digits := t.takeWhile isDigit
  if digits = [] then (0, s)
  else
    let n := value digits
    let parsed : UInt32 := if 0xFFFFFFFF < n then 0xFFFFFFFF else .ofNat n
    (if negative ∧ ¬0xFFFFFFFF < n then 0 - parsed else parsed, t.dropWhile isDigit)

def appParseUint32 (value : List UInt8) : UInt32 :=
  let (parsed, stop) := strtoul value
  if stop = value then 0 else parsed

/-- What `appCtrlCgiHandler` has read of its parameters; `actions` are the calls of
`WebInterface_GetActionHook`. -/
structure CtrlQuery where
  clusterKb : UInt32
  fileSizeMb : UInt32
  fileCount : UInt32
  formatRequested : Bool
  actions : List UInt8
  deriving DecidableEq, Repr

namespace CtrlQuery

def empty : CtrlQuery where
  clusterKb := 0
  fileSizeMb := 0
  fileCount := 0
  formatRequested := false
  actions := []

def param (q : CtrlQuery) (param value : String) : CtrlQuery :=
  if param = "action" then
    if value = "Stop" then { q with actions := q.actions ++ [0] }
    else if value = "Start" then { q with actions := q.actions ++ [1] }
    else if value = "Format" then { q with formatRequested := true }
    else q
  else if param = "cluster_kb" then { q with clusterKb := appParseUint32 (ascii value) }
  else if param = "file_size_mb" then { q with fileSizeMb := appParseUint32 (ascii value) }
  else if param = "file_count" then { q with fileCount := appParseUint32 (ascii value) }
  else q

def config (b : LogBuild) (q : CtrlQuery) : LogConfig where
  clusterSize :=
    if 0 < q.clusterKb ∧ q.clusterKb ≤ 0xFFFFFFFF / 1024 then q.clusterKb * 1024
    else LogBuild.clusterSize
  logFileSize :=
    if 0 < q.fileSizeMb ∧ q.fileSizeMb ≤ 0xFFFFFFFF / (1024 * 1024) then
      q.fileSizeMb * 1024 * 1024
    else Logging.maxLogFileSize
  logFileCount := if 0 < q.fileCount then q.fileCount else b.maxLogFileCount

end CtrlQuery

/-- `appCtrlCgiHandler`: what it asks `FatFS_SD_Formatting_Request` for. -/
def appCtrlCgiHandler (b : LogBuild) (iIndex : Nat) (params : List (String × String)) :
    Option LogConfig :=
  if iIndex = 0 then
    let q : CtrlQuery := params.foldl (fun q p => CtrlQuery.param q p.1 p.2) .empty
    if q.formatRequested then some (q.config b) else none
  else none

namespace LogConfig

def bufferSize : Nat := 128

def configFormat (c : LogConfig) : List UInt8 :=
  ascii "\x7b\"cluster_size\":" ++ unsigned c.clusterSize.toNat ++
  ascii ",\"log_file_size\":" ++ unsigned c.logFileSize.toNat ++
  ascii ",\"log_file_count\":" ++ unsigned c.logFileCount.toNat ++ ascii "\x7d"

/-- `FatFS_SD_Formatting_Request` and `appStoreLogConfigFile`, each for its file: the status and
the file afterwards. -/
def store (c : LogConfig) (found : Option (List UInt8)) (dev : FatFsDevice) :
    FResult × Option (List UInt8) :=
  let (dev, res) := dev.openFileForOverWrite (.success found)
  if res ≠ .ok then (res, found)
  else
    let content := c.configFormat
    if bufferSize ≤ content.length then (.invalidParameter, some (overwrite found []))
    else
      let (dev, res) := dev.writeFile content (.success content.length)
      (res, some (overwrite found dev.file.data))

/-- One number of the document.  A text that is no number leaves in `parsed` what was read
before it. -/
def parseSetting (json : CoreJson) (buffer : List UInt8) (key : String)
    (set : LogConfig → UInt32 → LogConfig) (r : LogConfig × UInt32) : LogConfig × UInt32 :=
  match json.getValue buffer key with
  | some value =>
    if value.length < 32 then
      let parsed := convertToInteger value r.2
      (if 0 < parsed then set r.1 parsed else r.1, parsed)
    else r
  | none => r

def parse (json : CoreJson) (buffer : List UInt8) (c : LogConfig) : LogConfig × Bool :=
  if json.validate buffer then
    let r := parseSetting json buffer "cluster_size" (fun c n => { c with clusterSize := n }) (c, 0)
    let r := parseSetting json buffer "log_file_size" (fun c n => { c with logFileSize := n }) r
    let r := parseSetting json buffer "log_file_count" (fun c n => { c with logFileCount := n }) r
    (r.1, true)
  else (c, false)

/-- What `appLoadLogConfigFile` and `appHandleFormattingRequest` do with an open file. -/
def read (json : CoreJson) (dev : FatFsDevice) (c : LogConfig) : LogConfig × Bool :=
  let fileSize := dev.getFileSize
  if fileSize = 0 then (c, false)
  else
    let readSize := if fileSize < bufferSize - 1 then fileSize else bufferSize - 1
    let (_, res, content) := dev.readFile readSize .success
    if res ≠ .ok then (c, false) else parse json content c

def load (json : CoreJson) (found : Option (List UInt8)) (dev : FatFsDevice) (c : LogConfig) :
    LogConfig × Bool :=
  let (dev, res) := dev.openFileForRead found .ok
  if res = .ok then read json dev c else (c, false)

end LogConfig

/-- What `f_mkfs`, the read of the first sector, its signature and `f_fdisk` come to. -/
structure FormatAnswers where
  mkfs : FResult
  readOk : Bool
  signature : Bool
  fdisk : FResult
  again : FResult

namespace FormatAnswers

def repartitionIfMbrIsMissing (a : FormatAnswers) : FResult :=
  if a.readOk = false then .diskErr
  else if a.signature then .mkfsAborted
  else a.fdisk

def formatFat32 (a : FormatAnswers) : FResult :=
  if a.mkfs = .mkfsAborted then
    let repartition := a.repartitionIfMbrIsMissing
    if repartition = .ok then a.again
    else if repartition ≠ .mkfsAborted then repartition
    else a.mkfs
  else a.mkfs

end FormatAnswers

structure LogVolume where
  logConfig : Option (List UInt8)
  formatRequest : Option (List UInt8)
  deriving DecidableEq, Repr

def LogVolume.empty : LogVolume where
  logConfig := none
  formatRequest := none

/-- `left` is what an erase or a format that failed leaves on the card. -/
structure BootAnswers where
  mount : FResult
  erase : Bool
  format : FormatAnswers
  remount : FResult
  left : Option LogVolume

/-- A card without a volume has no file system.  `config` is what the log manager works with.  Not
in the program: `erases` counts the calls of `SD_Spi_EraseAll`. -/
structure LogStore where
  card : Option LogVolume
  mountRes : FResult
  config : LogConfig
  erases : Nat

inductive LogStoreEvent
  | boot (a : BootAnswers)
  | request (iIndex : Nat) (params : List (String × String))

namespace LogStore

variable (json : CoreJson) (b : LogBuild) (dev : FatFsDevice)

def start (card : Option LogVolume) : LogStore where
  card := card
  mountRes := .notReady
  config := b.defaults
  erases := 0

def volume (s : LogStore) : LogVolume := if s.mountRes = .ok then s.card.getD .empty else .empty

def mount (s : LogStore) (res : FResult) : LogStore :=
  { s with mountRes := if s.card = none ∧ res = .ok then .noFilesystem else res }

def storeLogConfig (s : LogStore) (c : LogConfig) : LogStore :=
  if s.mountRes = .ok then
    { s with card := s.card.map fun v => { v with logConfig := (c.store v.logConfig dev).2 } }
  else s

def formattingRequest (s : LogStore) (c : LogConfig) : LogStore :=
  if s.mountRes = .ok then
    { s with
      card := s.card.map fun v => { v with formatRequest := (c.store v.formatRequest dev).2 } }
  else s

def format (s : LogStore) (a : BootAnswers) (c : LogConfig) : LogStore :=
  let s := { s with erases := s.erases + 1, mountRes := .diskErr, card := a.left }
  if a.erase ∧ a.format.formatFat32 = .ok then
    let s := { s with card := some .empty }.mount a.remount
    s.storeLogConfig dev c
  else s

def readFiles (v : LogVolume) : LogConfig × Bool :=
  let r := LogConfig.load json v.logConfig dev b.defaults
  let c := (LogConfig.load json v.formatRequest dev r.1).1
  (b.fixCount c, r.2)

def handleFormattingRequest (s : LogStore) (a : BootAnswers) : LogStore :=
  let v := s.volume
  let r := readFiles json b dev v
  let s := { s with config := b.setConfig r.1 }
  if v.formatRequest.isSome ∨ s.mountRes = .noFilesystem then s.format dev a r.1
  else if r.2 = false then s.storeLogConfig dev r.1
  else s

def step : Step LogStore LogStoreEvent
  | s, .boot a => some ((s.mount a.mount).handleFormattingRequest json b dev a)
  | s, .request iIndex params =>
    match appCtrlCgiHandler b iIndex params with
    | some c => some (s.formattingRequest dev c)
    | none => some s

end LogStore

/-- What the protocol is for: a request is kept until the next start, which formats the card and
takes the settings over.  A card that is `blank` is formatted by the first start. -/
structure LogSettings where
  booted : Bool
  blank : Bool
  current : LogConfig
  pending : Option LogConfig
  formats : Nat

namespace LogSettings

def start (b : LogBuild) (blank : Bool) : LogSettings where
  booted := false
  blank := blank
  current := b.defaults
  pending := none
  formats := 0

def limit (n : UInt32) : UInt32 := if 0x7FFFFFFF < n then 0x7FFFFFFF else n

/-- As far as `strtol` reads the numbers. -/
def settle (b : LogBuild) (c : LogConfig) : LogConfig :=
  b.fixCount
    { clusterSize := limit c.clusterSize
      logFileSize := limit c.logFileSize
      logFileCount := limit c.logFileCount }

def boot (b : LogBuild) (s : LogSettings) : LogSettings :=
  match s.pending with
  | some c =>
    { s with current := settle b c, pending := none, formats := s.formats + 1 }
  | none => { s with booted := true, blank := false, formats := s.formats + s.blank.toNat }

def request (s : LogSettings) (c : LogConfig) : LogSettings :=
  if s.booted then { s with pending := some c } else s

def next (b : LogBuild) (s : LogSettings) : LogStoreEvent → LogSettings
  | .boot _ => s.boot b
  | .request iIndex params => (appCtrlCgiHandler b iIndex params).elim s s.request

end LogSettings

end CanSniffer.App
