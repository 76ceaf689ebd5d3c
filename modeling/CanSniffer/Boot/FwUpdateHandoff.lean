import CanSniffer.Lib.Transition

/-! The request to apply a firmware update, from the application (`Core0Task0.c`,
`FwUpdateHandoff.c`) to the bootloader (`mcuboot_port.c`).  Every step is one flash operation, and
power can fail between any two. -/

namespace CanSniffer.Boot

open Lib

/-- `FwUpdateHandoffRecordType`, one flash word. -/
structure FwUpdateHandoffRecord where
  magic : UInt32
  version : UInt32
  request : UInt32
  requestInv : UInt32
  crc : UInt32
  reserved0 : UInt32
  reserved1 : UInt32
  reserved2 : UInt32
  deriving DecidableEq, Repr

namespace FwUpdateHandoffRecord

def handoffMagic : UInt32 := 0x46574844
def handoffVersion : UInt32 := 1
def handoffRequestApply : UInt32 := 0x4150504C
def handoffCrcSalt : UInt32 := 0xA5A5A5A5

def handoffCrc (r : FwUpdateHandoffRecord) : UInt32 :=
  r.magic ^^^ r.version ^^^ r.request ^^^ r.requestInv ^^^ handoffCrcSalt

def isValid (r : FwUpdateHandoffRecord) : Bool :=
  if r.magic ≠ handoffMagic ∨ r.version ≠ handoffVersion ∨ r.request ≠ handoffRequestApply ∨
      r.requestInv ≠ ~~~handoffRequestApply ∨ r.crc ≠ r.handoffCrc then false
  else true

def erased : FwUpdateHandoffRecord where
  magic := 0xFFFFFFFF
  version := 0xFFFFFFFF
  request := 0xFFFFFFFF
  requestInv := 0xFFFFFFFF
  crc := 0xFFFFFFFF
  reserved0 := 0xFFFFFFFF
  reserved1 := 0xFFFFFFFF
  reserved2 := 0xFFFFFFFF

def unsigned : FwUpdateHandoffRecord where
  magic := handoffMagic
  version := handoffVersion
  request := handoffRequestApply
  requestInv := ~~~handoffRequestApply
  crc := 0
  reserved0 := 0
  reserved1 := 0
  reserved2 := 0

def apply : FwUpdateHandoffRecord := { unsigned with crc := unsigned.handoffCrc }

end FwUpdateHandoffRecord

/-- An erase or a program that fails leaves the word as it was, or erased. -/
inductive FlashResult
  | ok
  | failed (erased : Bool)
  deriving DecidableEq, Repr

namespace FlashResult

def erase (r : FlashResult) (word : FwUpdateHandoffRecord) : FwUpdateHandoffRecord :=
  match r with
  | .ok => .erased
  | .failed true => .erased
  | .failed false => word

def write (r : FlashResult) (word record : FwUpdateHandoffRecord) : FwUpdateHandoffRecord :=
  match r with
  | .ok => record
  | .failed true => .erased
  | .failed false => word

end FlashResult

/-- Where the processor is: in the bootloader, in the application, or in one of the steps of
`FwUpdateHandoff_RequestApply`. -/
inductive HandoffPoint
  | reset
  | applyRequested
  | cleared
  | bootGo
  | application
  | requestApply
  | eraseMarker
  | writeMarker
  | readBack
  | systemReset
  deriving DecidableEq, Repr

/-- Not in the program: `requests` counts the calls of `FwUpdateHandoff_RequestApply`, which are
known by their number. `owner` is the one that wrote the marker last, `written` are those that did
write it, `granted` those that returned OK, and `activated` is the owner at every call of
`boot_set_pending_multi`. -/
structure HandoffState where
  point : HandoffPoint
  marker : FwUpdateHandoffRecord
  requests : Nat
  owner : Option Nat
  written : List Nat
  granted : List Nat
  activated : List (Option Nat)
  deriving DecidableEq, Repr

/-- `readOk` is whether a read succeeds, `present` whether the secondary slot opens and starts with
the image magic. -/
inductive HandoffEvent
  | powerLoss
  | isApplyRequested (readOk : Bool)
  | clearApplyRequest (r : FlashResult)
  | activate (present : Bool)
  | bootGo (ok : Bool)
  | requestApply
  | readMarker (readOk : Bool)
  | eraseMarker (r : FlashResult)
  | writeMarker (r : FlashResult)
  | readBack (readOk : Bool)
  deriving DecidableEq, Repr

namespace HandoffState

def start (marker : FwUpdateHandoffRecord) : HandoffState where
  point := .reset
  marker := marker
  requests := 0
  owner := none
  written := []
  granted := []
  activated := []

def grant (s : HandoffState) : HandoffState :=
  { s with point := .systemReset, granted := s.requests :: s.granted }

def isApplyRequested (s : HandoffState) (readOk : Bool) : Bool := readOk && s.marker.isValid

/-- The status of `FwUpdateHandoff_ClearApplyRequest` is not looked at. -/
def clearApplyRequest (s : HandoffState) (r : FlashResult) : HandoffState :=
  { s with point := .cleared, marker := r.erase s.marker }

def activate (s : HandoffState) (present : Bool) : HandoffState :=
  if present then { s with point := .bootGo, activated := s.owner :: s.activated }
  else { s with point := .bootGo }

def eraseMarker (s : HandoffState) (r : FlashResult) : HandoffState :=
  { s with
    point := if r = .ok then .writeMarker else .application
    marker := r.erase s.marker }

def writeMarker (s : HandoffState) (r : FlashResult) : HandoffState :=
  if r = .ok then
    { s with
      point := .readBack
      marker := r.write s.marker .apply
      owner := some s.requests
      written := s.requests :: s.written }
  else { s with point := .application, marker := r.write s.marker .apply }

def step : Step HandoffState HandoffEvent
  | s, .powerLoss => some { s with point := .reset }
  | s, .isApplyRequested readOk =>
    if s.point = .reset then
      some { s with point := if s.isApplyRequested readOk then .applyRequested else .bootGo }
    else none
  | s, .clearApplyRequest r => if s.point = .applyRequested then some (s.clearApplyRequest r) else none
  | s, .activate present => if s.point = .cleared then some (s.activate present) else none
  | s, .bootGo ok =>
    if s.point = .bootGo then some { s with point := if ok then .application else .bootGo } else none
  | s, .requestApply =>
    if s.point = .application then
      some { s with point := .requestApply, requests := s.requests + 1 }
    else none
  | s, .readMarker readOk =>
    if s.point = .requestApply then
      -- a valid record is already there
      if readOk && s.marker.isValid then some s.grant else some { s with point := .eraseMarker }
    else none
  | s, .eraseMarker r => if s.point = .eraseMarker then some (s.eraseMarker r) else none
  | s, .writeMarker r => if s.point = .writeMarker then some (s.writeMarker r) else none
  | s, .readBack readOk =>
    if s.point = .readBack then
      if readOk && s.marker == .apply then some s.grant else some { s with point := .application }
    else none

end HandoffState

end CanSniffer.Boot
