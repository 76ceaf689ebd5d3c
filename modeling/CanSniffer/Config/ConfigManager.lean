import CanSniffer.Config.SettingsHandler
import CanSniffer.Storage.Overwrite

/-! The file of the settings (`ConfigManager.c`), on a card that answers every call.  `found` is
the file before a call, if there is one. -/

namespace CanSniffer.Config

open Storage

inductive ConfigResult
  | ok
  | notOk
  | mountFailed
  | fileOpen
  | fileRead
  | fileWrite
  | invalidParam
  | notInitialized
  | parseFailed
  deriving DecidableEq, Repr

/-- `mountRes` is whether the pointer to the result of mounting is set. -/
structure ConfigManager where
  mountRes : Bool
  initialized : Bool
  fileOpen : Bool
  needsSync : Bool
  fileSize : Nat
  lastError : ConfigResult
  writeFileDevice : FatFsDevice
  deriving DecidableEq, Repr

def configBufferSize : Nat := 512

namespace ConfigManager

def validateManager (m : ConfigManager) : ConfigResult :=
  if m.mountRes then .ok else .invalidParam

def finish (m : ConfigManager) (result : ConfigResult) : ConfigManager × ConfigResult :=
  ({ m with lastError := result }, result)

def openForRead (m : ConfigManager) (found : Option (List UInt8)) :
    ConfigManager × ConfigResult :=
  let (dev, fr) := m.writeFileDevice.openFileForRead found .ok
  if fr = .ok then ({ m with writeFileDevice := dev, fileOpen := true }, .ok)
  else finish { m with writeFileDevice := dev, fileOpen := false } .fileOpen

def openForWrite (m : ConfigManager) (found : Option (List UInt8)) :
    ConfigManager × ConfigResult :=
  let (dev, fr) := m.writeFileDevice.openFileForOverWrite (.success found)
  if fr = .ok then ({ m with writeFileDevice := dev, fileOpen := true }, .ok)
  else finish { m with writeFileDevice := dev, fileOpen := false } .fileOpen

def closeFile (m : ConfigManager) : ConfigManager :=
  if m.fileOpen then
    { m with writeFileDevice := (m.writeFileDevice.closeFile .success .ok).1, fileOpen := false }
  else m

/-- The last component is what was read into the buffer. -/
def loadRaw (m : ConfigManager) (found : Option (List UInt8)) (bufferSize : Nat) :
    ConfigManager × ConfigResult × List UInt8 :=
  if m.validateManager ≠ .ok then (m, m.validateManager, [])
  else if bufferSize = 0 then
    let (m, result) := m.finish .invalidParam
    (m, result, [])
  else if !m.initialized then
    let (m, result) := m.finish .notInitialized
    (m, result, [])
  else
    let (m, result) := m.openForRead found
    if result ≠ .ok then (m, result, [])
    else
      let fileSize := m.writeFileDevice.getFileSize
      let readSize := if fileSize < bufferSize then fileSize else bufferSize
      let (dev, fr, buffer) := m.writeFileDevice.readFile readSize .success
      let m := closeFile { m with writeFileDevice := dev }
      if fr ≠ .ok then
        let (m, result) := m.finish .fileRead
        (m, result, buffer)
      else
        let (m, result) := finish { m with fileSize } .ok
        (m, result, buffer)

/-- The last component is the file afterwards. -/
def saveRaw (m : ConfigManager) (found : Option (List UInt8)) (data : List UInt8) :
    ConfigManager × ConfigResult × Option (List UInt8) :=
  if m.validateManager ≠ .ok then (m, m.validateManager, found)
  else if data = [] then
    let (m, result) := m.finish .invalidParam
    (m, result, found)
  else if !m.initialized then
    let (m, result) := m.finish .notInitialized
    (m, result, found)
  else
    let (m, result) := m.openForWrite found
    if result ≠ .ok then (m, result, found)
    else
      let (dev, fr) := m.writeFileDevice.writeFile data (.success data.length)
      let file := some (overwrite found dev.file.data)
      let m := { m with writeFileDevice := dev }
      if fr ≠ .ok then
        let (m, result) := m.closeFile.finish .fileWrite
        (m, result, file)
      else
        let (m, result) := finish { m with fileSize := data.length, needsSync := true } .ok
        (m.closeFile, result, file)

/-- With `ConfigManager_DeserializeHook` of `Core0Task0.c`. -/
def loadConfig (json : CoreJson) (m : ConfigManager) (found : Option (List UInt8))
    (stack : ParseStack) (config : AppConfig) : ConfigManager × ConfigResult × AppConfig :=
  let (m, result, buffer) := m.loadRaw found configBufferSize
  if result ≠ .ok then (m, result, config)
  else
    let (config, parsed) := parseConfig json stack buffer config
    if parsed then (m, .ok, config)
    else
      let (m, result) := m.finish .parseFailed
      (m, result, config)

def saveConfig (m : ConfigManager) (found : Option (List UInt8)) (config : AppConfig) :
    ConfigManager × ConfigResult × Option (List UInt8) :=
  m.saveRaw found (createJsonString config configBufferSize)

end ConfigManager

end CanSniffer.Config
