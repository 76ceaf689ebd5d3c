import CanSniffer.Iap.StoredImage
import CanSniffer.Web.HttpdPost

namespace CanSniffer.Web

open Lib Iap

structure IapReply where
  ok : Bool
  reason : String
  deriving DecidableEq, Repr

namespace HttpdPost

def clearSingleIapSession (s : HttpdPost) (i : Nat) : HttpdPost :=
  let e := s.entry i
  if e.conn = none then s
  else if e.mode = .iapBin then
    { s.setEntry i .empty with
      iap := (if e.iapFailed then s.iap else s.iap.abort i).setPipeline i .reset
      current := if s.current = e.conn then none else s.current
      valid := if s.valid = e.conn then none else s.valid }
  else s

def resetIapUploadSession (s : HttpdPost) : HttpdPost :=
  let s := (List.range s.connMap.length).foldl clearSingleIapSession s
  { s with upload := (s.upload.set .idle 0 0).setError .none .ok }

def clearIapUploadReady (s : HttpdPost) : HttpdPost :=
  if s.upload.state = .ready then
    { s with upload := (s.upload.set .idle 0 0).setError .none .ok }
  else s

def renderPrepare (s : HttpdPost) (isLoggerActive : Bool) (a : EraseAnswer) :
    HttpdPost × IapReply :=
  if isLoggerActive then (s, { ok := false, reason := "logger_running" })
  else
    let s := s.resetIapUploadSession
    let r := s.iap.prepareUploadSlot a
    let s := { s with iap := r.1 }
    if r.2 ≠ .ok then (s, { ok := false, reason := "prepare_failed" })
    else (s, { ok := true, reason := "slot_erased" })

/-- `FsCustomIap_RenderApply`.  With the answer OK it raises `applyFirmwareUpdate`. -/
def renderApply (s : HttpdPost) (isLoggerActive : Bool) : HttpdPost × IapReply :=
  if isLoggerActive then (s, { ok := false, reason := "logger_running" })
  else if s.iap.isVerified = false then (s, { ok := false, reason := "image_not_verified" })
  else (s.clearIapUploadReady, { ok := true, reason := "reboot_requested" })

end HttpdPost

/-- What came with the requests: `bodies` by the entry that they were received for, `posted` with
the length that was announced, for those that brought an image and were finished. -/
structure UploadLedger where
  bodies : Nat → List UInt8
  posted : List (Nat × List UInt8)

namespace UploadLedger

def start : UploadLedger where
  bodies := fun _ => []
  posted := []

def setBody (l : UploadLedger) (i : Nat) (body : List UInt8) : UploadLedger :=
  { l with bodies := fun j => if j = i then body else l.bodies j }

/-- A form that was posted to its end is no image. -/
def post (l : UploadLedger) (e : PostEntry) (i : Nat) : UploadLedger :=
  if e.mode = .iapBin then { l with posted := (e.contentLen, l.bodies i) :: l.posted } else l

def note (s : HttpdPost) (conn : Nat) (call : PostCall) (l : UploadLedger) : UploadLedger :=
  match call with
  | .begin uri _ _ =>
    if HttpdPost.postMode uri = none ∨ s.current = some conn then l
    else
      match s.mapFreeIndex with
      | none => l
      | some i => l.setBody i []
  | .receive segments =>
    if s.current = some conn then
      match s.mapLookup conn with
      | none => l
      | some i => l.setBody i (l.bodies i ++ segments.flatMap Prod.fst)
    else l
  | .finished =>
    if s.current = some conn ∧ s.valid = some conn then
      match s.mapLookup conn with
      | none => l
      | some i => l.post (s.entry i) i
    else l

end UploadLedger

structure Streams (iap : IapState) (e : PostEntry) (i : Nat) (body : List UInt8) : Prop where
  mode : e.mode = .iapBin
  announced : 0 < e.contentLen
  going : e.iapFailed = false
  received : e.received = (body.take e.contentLen).length
  pipeline : (iap.pipelines i).receivedSize = e.received
  expected : iap.writer.expectedSize = e.contentLen
  count : iap.adapter.count ≤ e.received
  content : iap.adapter.count = e.received → iap.adapter.content = body.take e.contentLen

structure Flow (s : HttpdPost) (l : UploadLedger) : Prop where
  intact : s.iap.Intact
  streams : ∀ i, (s.iap.pipelines i).active = true →
    Streams s.iap (s.entry i) i (l.bodies i)
  uploaded : ∀ image, s.iap.uploaded = some image →
    ∃ r ∈ l.posted, 0 < r.1 ∧ r.1 ≤ r.2.length ∧ image = r.2.take r.1

end CanSniffer.Web
