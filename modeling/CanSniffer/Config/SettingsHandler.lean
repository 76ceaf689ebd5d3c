import CanSniffer.App.Core0Task0
import CanSniffer.Storage.JsonValue

namespace CanSniffer.Config

open Lib Decimal Storage

structure IpAddress where
  ip0 : UInt8
  ip1 : UInt8
  ip2 : UInt8
  ip3 : UInt8
  deriving DecidableEq, Repr

structure AppConfig extends App.AppConfig where
  ip : IpAddress
  deriving DecidableEq, Repr

def IpAddress.ofArray : List UInt8 → Option IpAddress
  | [ip0, ip1, ip2, ip3] => some { ip0, ip1, ip2, ip3 }
  | _ => none

def octet (element : List UInt8) : Option UInt8 :=
  let valTmp := convertToInteger element 0
  if 255 < valTmp then none else some valTmp.toUInt8

def ipLoop : List UInt8 → List UInt8 → List UInt8 → Option IpAddress
  | [], element, arr =>
    if element = [] then none
    else (octet element).bind fun value => IpAddress.ofArray (arr ++ [value])
  | c :: ip, element, arr =>
    if isDigit c then if element.length < 3 then ipLoop ip (element ++ [c]) arr else none
    else if c = 0x2E then
      if element = [] then none
      else
        (octet element).bind fun value =>
          if 3 < (arr ++ [value]).length then none else ipLoop ip [] (arr ++ [value])
    else none

def ipStringToIntArray (ip : List UInt8) (len : UInt8) : Option IpAddress :=
  ipLoop (ip.take len.toNat) [] []

/-- The numbers that the parser reads into, before it has read one. -/
structure ParseStack where
  baudrate : UInt32
  mode : UInt32

namespace AppConfig

def setBaudrate1 (cfg : AppConfig) (baudrate : UInt32) : AppConfig :=
  { cfg with can1 := { cfg.can1 with baudrate } }

def setMode1 (cfg : AppConfig) (mode : UInt32) : AppConfig :=
  { cfg with can1 := { cfg.can1 with mode := mode.toUInt8 } }

def setBaudrate2 (cfg : AppConfig) (baudrate : UInt32) : AppConfig :=
  { cfg with can2 := { cfg.can2 with baudrate } }

def setMode2 (cfg : AppConfig) (mode : UInt32) : AppConfig :=
  { cfg with can2 := { cfg.can2 with mode := mode.toUInt8 } }

def setIp (cfg : AppConfig) (ip : Option IpAddress) : AppConfig :=
  match ip with
  | some ip => { cfg with ip }
  | none => cfg

end AppConfig

/-- One number of the document, or the variable as it was, and the settings. -/
def parseNumber (json : CoreJson) (buffer : List UInt8) (key : String) (val : UInt32)
    (set : UInt32 → AppConfig) (cfg : AppConfig) : UInt32 × AppConfig :=
  match json.getValue buffer key with
  | some value =>
    let val := convertToInteger value val
    (val, set val)
  | none => (val, cfg)

/-- Whether `SETTINGS_OK` is returned hangs on the last key alone. -/
def parseConfig (json : CoreJson) (stack : ParseStack) (buffer : List UInt8) (cfg : AppConfig) :
    AppConfig × Bool :=
  if json.validate buffer then
    let (baudrate, cfg) :=
      parseNumber json buffer "CAN1.Baudrate" stack.baudrate cfg.setBaudrate1 cfg
    let (mode, cfg) := parseNumber json buffer "CAN1.Mode" stack.mode cfg.setMode1 cfg
    let (_, cfg) := parseNumber json buffer "CAN2.Baudrate" baudrate cfg.setBaudrate2 cfg
    let (_, cfg) := parseNumber json buffer "CAN2.Mode" mode cfg.setMode2 cfg
    match json.getValue buffer "HTTP.IP" with
    | some value => (cfg.setIp (ipStringToIntArray value (UInt8.ofNat value.length)), true)
    | none => (cfg, false)
  else (cfg, false)

def tmpBufSize : Nat := 64

def numberKeys : List String := ["CAN1.Baudrate", "CAN1.Mode", "CAN2.Baudrate", "CAN2.Mode"]

/-- The bytes of `TmpBuf` that the parser writes: it copies every number, and puts a zero behind
it. -/
def tmpBufStores (json : CoreJson) (buffer : List UInt8) : List Nat :=
  if json.validate buffer then
    numberKeys.flatMap fun key =>
      match json.getValue buffer key with
      | some value => List.range value.length ++ [value.length]
      | none => []
  else []

def IpAddress.dotted (ip : IpAddress) : List UInt8 :=
  unsigned ip.ip0.toNat ++ ascii "." ++ unsigned ip.ip1.toNat ++ ascii "." ++
    unsigned ip.ip2.toNat ++ ascii "." ++ unsigned ip.ip3.toNat

def configFormat (cfg : AppConfig) : List UInt8 :=
  ascii "\x7b\n    \"CAN1\":\x7b\n        \"Baudrate\":" ++ signed (asLong cfg.can1.baudrate) ++
  ascii ",\n        \"Mode\":" ++ unsigned cfg.can1.mode.toNat ++
  ascii "\n    \x7d,\n    \"CAN2\":\x7b\n        \"Baudrate\":" ++
  signed (asLong cfg.can2.baudrate) ++
  ascii ",\n        \"Mode\":" ++ unsigned cfg.can2.mode.toNat ++
  ascii "\n    \x7d,\n    \"HTTP\":\x7b\n        \"IP\":\"" ++ cfg.ip.dotted ++
  ascii "\"\n    \x7d\n\x7d\n"

/-- `snprintf`, and the length that `strnlen` then finds. -/
def createJsonString (cfg : AppConfig) (maxLength : Nat) : List UInt8 :=
  (configFormat cfg).take (maxLength - 1)

end CanSniffer.Config
