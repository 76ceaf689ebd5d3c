import CanSniffer.Iap.Verify

/-! What the web server does with the body of a POST request (`httpd_post.c`): settings as key
and value pairs, or a firmware image.  A connection is a number. -/

namespace CanSniffer.Web

open Lib Iap

inductive UploadState
  | idle
  | inProgress
  | ready
  | error
  deriving DecidableEq, Repr

inductive UploadError
  | none
  | begin
  | push
  | incomplete
  | finish
  deriving DecidableEq, Repr

structure IapUploadStatus where
  state : UploadState
  received : Nat
  total : Nat
  errorReason : UploadError
  ingestStatus : IngestStatus
  deriving DecidableEq, Repr

namespace IapUploadStatus

def init : IapUploadStatus where
  state := .idle
  received := 0
  total := 0
  errorReason := .none
  ingestStatus := .ok

def set (u : IapUploadStatus) (state : UploadState) (received total : Nat) : IapUploadStatus :=
  { u with state, received, total }

def setError (u : IapUploadStatus) (errorReason : UploadError) (ingestStatus : IngestStatus) :
    IapUploadStatus :=
  { u with errorReason, ingestStatus }

end IapUploadStatus

inductive PostMode
  | formKv
  | iapBin
  deriving DecidableEq, Repr

/-- The pair that is being read; `phase` is whether it is at its value. -/
structure PostForm where
  key : List UInt8
  val : List UInt8
  klen : Nat
  vlen : Nat
  phase : Bool
  deriving DecidableEq, Repr

/-- The key and the value of a `httpd_post_cb`. -/
abbrev PostPair := List UInt8 × List UInt8

namespace PostForm

def init : PostForm where
  key := List.replicate 16 0
  val := List.replicate 32 0
  klen := 0
  vlen := 0
  phase := false

def cString (chars : List UInt8) : List UInt8 := chars.takeWhile (· ≠ 0)

def endPair (f : PostForm) : PostForm × PostPair :=
  let val := f.val.set f.vlen 0
  ({ f with val }, cString f.key, cString val)

def consumeByte (f : PostForm) (c : UInt8) : PostForm × List PostPair :=
  if c = 61 then ({ f with key := f.key.set f.klen 0, phase := true, vlen := 0 }, [])
  else if c = 38 then ({ f.endPair.1 with klen := 0, vlen := 0, phase := false }, [f.endPair.2])
  else if f.phase = false ∧ f.klen < 15 then
    ({ f with key := f.key.set f.klen c, klen := f.klen + 1 }, [])
  else if f.phase ∧ f.vlen < 31 then
    ({ f with val := f.val.set f.vlen c, vlen := f.vlen + 1 }, [])
  else (f, [])

def consume (f : PostForm) : List UInt8 → PostForm × List PostPair
  | [] => (f, [])
  | c :: cs =>
    let r := f.consumeByte c
    let r' := r.1.consume cs
    (r'.1, r.2 ++ r'.2)

end PostForm

/-- An entry of `conn_map`.  Its pipeline is the one of its index in the `IapState`. -/
structure PostEntry where
  conn : Option Nat
  form : PostForm
  received : Nat
  contentLen : Nat
  mode : PostMode
  iapFailed : Bool
  iapFailStatus : IngestStatus
  deriving DecidableEq, Repr

namespace PostEntry

def empty : PostEntry where
  conn := none
  form := .init
  received := 0
  contentLen := 0
  mode := .formKv
  iapFailed := false
  iapFailStatus := .ok

def alloc (conn contentLen : Nat) (mode : PostMode) : PostEntry :=
  { empty with conn := some conn, contentLen, mode }

end PostEntry

structure HttpdPost where
  connMap : List PostEntry
  current : Option Nat
  valid : Option Nat
  upload : IapUploadStatus
  iap : IapState

structure PostOutput where
  ok : Bool
  pairs : List PostPair
  responseUri : Option String
  deriving DecidableEq, Repr

/-- The body comes in segments; each may be pushed to the flash. -/
inductive PostCall
  | begin (uri : String) (contentLen : Int) (a : EraseAnswer)
  | receive (segments : List (List UInt8 × ChunkAnswers))
  | finished

namespace HttpdPost

def mapLookup (s : HttpdPost) (conn : Nat) : Option Nat :=
  s.connMap.findIdx? fun e => e.conn = some conn

def mapFreeIndex (s : HttpdPost) : Option Nat := s.connMap.findIdx? fun e => e.conn = none

def entry (s : HttpdPost) (i : Nat) : PostEntry := s.connMap.getD i .empty

def setEntry (s : HttpdPost) (i : Nat) (e : PostEntry) : HttpdPost :=
  { s with connMap := s.connMap.set i e }

def mapFree (s : HttpdPost) (conn : Nat) : HttpdPost :=
  match s.mapLookup conn with
  | some i => s.setEntry i { s.entry i with conn := none }
  | none => s

def postMode (uri : String) : Option PostMode :=
  if "/can.cgi".toList.isPrefixOf uri.toList then some .formKv
  else if "/iap/upload".toList.isPrefixOf uri.toList then some .iapBin
  else none

def refused : PostOutput where
  ok := false
  pairs := []
  responseUri := none

/-- The part of `httpd_post_begin` for an image; `none` is its `ERR_VAL`. -/
def beginIap (s : HttpdPost) (i : Nat) (contentLen : Int) (a : EraseAnswer) : HttpdPost × Bool :=
  let total := contentLen.toNat
  if 0 < contentLen then
    let status := s.iap.beginStatus total a
    let s := { s with iap := s.iap.postBegin i total a }
    if status ≠ .ok then
      ({ s with upload := (s.upload.set .error 0 total).setError .begin status }, false)
    else ({ s with upload := (s.upload.set .inProgress 0 total).setError .none .ok }, true)
  else
    ({ s with
      iap := s.iap.verifyReset
      upload := (s.upload.set .error 0 0).setError .begin .ok }, false)

def begin (s : HttpdPost) (conn : Nat) (uri : String) (contentLen : Int) (a : EraseAnswer) :
    HttpdPost × PostOutput :=
  match postMode uri with
  | none => (s, refused)
  | some mode =>
    if s.current = some conn then (s, refused)
    else
      match s.mapFreeIndex with
      | none => ({ s with current := none, valid := none }, refused)
      | some i =>
        let s := { s with
          current := some conn
          valid := none
          connMap := s.connMap.set i (.alloc conn (contentLen % 0x100000000).toNat mode)
          iap := s.iap.setPipeline i .reset }
        let r := if mode = .iapBin then s.beginIap i contentLen a else (s, true)
        if r.2 then
          ({ r.1 with valid := some conn },
            { ok := true, pairs := [], responseUri := some "/404.html" })
        else ({ r.1.mapFree conn with current := none }, refused)

/-- A segment of an image goes to the pipeline, as far as the image is not complete. -/
def pushSegment (s : HttpdPost) (i : Nat) (data : List UInt8) (a : ChunkAnswers) : HttpdPost :=
  let e := s.entry i
  if e.iapFailed then s
  else if e.contentLen - e.received = 0 then s
  else
    let data := data.take (e.contentLen - e.received)
    let status := s.iap.pushStatus i data a
    let iap := s.iap.push i data a
    if status ≠ .ok then
      { s with
        upload := (s.upload.set .error e.received e.contentLen).setError .push status
        iap := iap.abort i }.setEntry i { e with iapFailed := true, iapFailStatus := status }
    else
      { s with
        upload := s.upload.set .inProgress (e.received + data.length) e.contentLen
        iap }.setEntry i { e with received := e.received + data.length }

def receiveSegment (s : HttpdPost) (i : Nat) (data : List UInt8) (a : ChunkAnswers) :
    HttpdPost × List PostPair :=
  let e := s.entry i
  if e.mode = .formKv then
    let r := e.form.consume data
    (s.setEntry i { e with form := r.1, received := e.received + data.length }, r.2)
  else (s.pushSegment i data a, [])

def receiveSegments (s : HttpdPost) (i : Nat) :
    List (List UInt8 × ChunkAnswers) → HttpdPost × List PostPair
  | [] => (s, [])
  | seg :: segs =>
    let r := s.receiveSegment i seg.1 seg.2
    let r' := r.1.receiveSegments i segs
    (r'.1, r.2 ++ r'.2)

def receiveData (s : HttpdPost) (conn : Nat) (segments : List (List UInt8 × ChunkAnswers)) :
    HttpdPost × PostOutput :=
  if s.current = some conn then
    match s.mapLookup conn with
    | none => (s, refused)
    | some i =>
      let r := s.receiveSegments i segments
      (r.1, { ok := true, pairs := r.2, responseUri := none })
  else (s, refused)

def finishBody (s : HttpdPost) (i : Nat) : HttpdPost × List PostPair :=
  let e := s.entry i
  if e.mode = .formKv then
    if e.form.phase ∧ e.form.vlen ≠ 0 then
      (s.setEntry i { e with form := e.form.endPair.1 }, [e.form.endPair.2])
    else (s, [])
  else if e.iapFailed then
    ({ s with
      upload := (s.upload.set .error e.received e.contentLen).setError .push e.iapFailStatus }, [])
  else if e.received ≠ e.contentLen then
    ({ s with
      upload := (s.upload.set .error e.received e.contentLen).setError .incomplete .state
      iap := s.iap.abort i }, [])
  else
    let status := s.iap.finishStatus i
    let s := { s with iap := s.iap.postFinish i }
    if status ≠ .ok then
      ({ s with upload := (s.upload.set .error e.received e.contentLen).setError .finish status }, [])
    else
      ({ s with upload := (s.upload.set .ready e.contentLen e.contentLen).setError .none .ok }, [])

def finished (s : HttpdPost) (conn : Nat) : HttpdPost × PostOutput :=
  if s.current = some conn then
    if s.valid = some conn then
      match s.mapLookup conn with
      | none => (s, { ok := true, pairs := [], responseUri := some "/404.html" })
      | some i =>
        let r := s.finishBody i
        ({ r.1.mapFree conn with current := none, valid := none },
          { ok := true, pairs := r.2, responseUri := some "/postredir" })
    else
      ({ s with current := none, valid := none },
        { ok := true, pairs := [], responseUri := some "/404.html" })
  else (s, { ok := true, pairs := [], responseUri := some "/404.html" })

def call (s : HttpdPost) (conn : Nat) : PostCall → HttpdPost × PostOutput
  | .begin uri contentLen a => s.begin conn uri contentLen a
  | .receive segments => s.receiveData conn segments
  | .finished => s.finished conn

def numParallelConns : Nat := 8

def idle (upload : IapUploadStatus) (iap : IapState) : HttpdPost where
  connMap := List.replicate numParallelConns .empty
  current := none
  valid := none
  upload := upload
  iap := iap

end HttpdPost

end CanSniffer.Web
