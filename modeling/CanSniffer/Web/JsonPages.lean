import CanSniffer.Lib.Json
import CanSniffer.Logging.ErrorRecorder
import CanSniffer.Web.UploadSession

/-! The texts that the web server renders (`fs_custom_api.c`, `fs_custom_iap.c`, `fs_custom_logs.c`,
`fs_custom_logger.c`): each goes to a buffer of its own and is dropped where it does not fit. -/

namespace CanSniffer.Web

open Lib Decimal Logging Iap

def lu (n : Nat) : List UInt8 := unsigned (n % UInt32.size)

def trueFalse (b : Bool) : List UInt8 := if b then ascii "true" else ascii "false"

/-- `snprintf` into the whole buffer, and the check of what it returns. -/
def printed (bufferSize : Nat) (text : List UInt8) : Option (List UInt8) :=
  if bufferSize ≤ text.length then none else some text

def appendJson (bufferSize : Nat) (text buffer : List UInt8) : Option (List UInt8) :=
  if bufferSize ≤ buffer.length then none
  else if bufferSize - buffer.length ≤ text.length then none
  else some (buffer ++ text)

def stringOf (chars : List UInt8) : List UInt8 := chars.takeWhile (· ≠ 0)

def errorEntryText (e : ErrorRecorderEntry) : List UInt8 :=
  ascii "\x7b\"seq\":" ++ unsigned e.sequence.toNat ++
  ascii ",\"id\":" ++ unsigned e.context.id.toNat ++
  ascii ",\"code\":" ++ unsigned e.context.code.toNat ++
  ascii ",\"line\":" ++ unsigned e.context.line.toNat ++
  ascii ",\"arg0\":" ++ unsigned e.context.arg0.toNat ++
  ascii ",\"arg1\":" ++ unsigned e.context.arg1.toNat ++
  ascii ",\"file\":\"" ++ stringOf e.context.file.toList ++
  ascii "\",\"function\":\"" ++ stringOf e.context.function.toList ++ ascii "\"\x7d"

def errorEntryOrNullText (valid : UInt8) (e : ErrorRecorderEntry) : List UInt8 :=
  if valid ≠ 0 then errorEntryText e else ascii "null"

def appendRecent (bufferSize : Nat) (buffer : List UInt8) (e : ErrorRecorderEntry × Nat) :
    Option (List UInt8) :=
  if 0 < e.2 then
    (appendJson bufferSize (ascii ",") buffer).bind (appendJson bufferSize (errorEntryText e.1))
  else appendJson bufferSize (errorEntryText e.1) buffer

def buildErrorRecorderJson (bufferSize : Nat) (s : ErrorRecorderSnapshot) :
    Option (List UInt8) := do
  let buffer ← appendJson bufferSize
    (ascii "\x7b\"total\":" ++ unsigned s.totalCount.toNat ++
      ascii ",\"overwritten\":" ++ unsigned s.overwrittenCount.toNat ++ ascii ",\"first\":") []
  let buffer ← appendJson bufferSize (errorEntryOrNullText s.firstValid s.first) buffer
  let buffer ← appendJson bufferSize (ascii ",\"last\":") buffer
  let buffer ← appendJson bufferSize (errorEntryOrNullText s.lastValid s.last) buffer
  let buffer ← appendJson bufferSize
    (ascii ",\"recent_count\":" ++ unsigned s.recentCount.toNat ++ ascii ",\"recent\":[") buffer
  let buffer ← (s.recent.toList.take s.recentCount.toNat).zipIdx.foldlM
    (appendRecent bufferSize) buffer
  appendJson bufferSize (ascii "]\x7d") buffer

def debugErrorText (reason : String) (payloadSize maxSize : Nat) : List UInt8 :=
  ascii "\x7b\"error_reason\":\"" ++ ascii reason ++ ascii "\",\"payload_size\":" ++
    lu payloadSize ++ ascii ",\"max_size\":" ++ lu maxSize ++ ascii "\x7d"

def renderErrors (bufferSize : Nat) (s : ErrorRecorderSnapshot) : Option (List UInt8) :=
  match buildErrorRecorderJson bufferSize s with
  | some payload => some payload
  | none =>
    printed bufferSize (debugErrorText "error_recorder_payload_build_failed" 0 bufferSize)

/-- The fields of `FsCustomDebugSnapshotType`, in the order of the page. -/
def debugCounters : List String :=
  ["can_rx_frames", "can_rx_dropped_frames", "can1_rx_dropped_frames", "can2_rx_dropped_frames",
    "bridge_ingress_frames", "logger_ingress_frames", "bridge_logger_backlog_frames",
    "logger_buffer_rejected_frames", "logger_buffer_full_frames", "can1_sequence_gap_frames",
    "can2_sequence_gap_frames", "can1_id_sequence_errors", "can2_id_sequence_errors",
    "sd_buffer_ingress_frames", "sd_buffer_egress_frames", "sd_buffer_dropped_frames",
    "sd_blocks_written", "message_port_dropped_frames", "runtime_check_error_calls",
    "can1_rx_fifo0_lost_events", "can2_rx_fifo0_lost_events", "can1_protocol_error_events",
    "can2_protocol_error_events", "can1_error_warning_events", "can2_error_warning_events",
    "can1_error_passive_events", "can2_error_passive_events", "can1_bus_off_events",
    "can2_bus_off_events"]

/-- `CANLOG_DEBUG_COUNTER_PAIR` with `U64_HI` and `U64_LO` of the value. -/
def debugCounterPair (name : String) (value : UInt64) : List UInt8 :=
  ascii ("\"" ++ name ++ "_hi\":") ++ lu (value >>> 32).toNat ++
    ascii (",\"" ++ name ++ "_lo\":") ++ lu value.toNat

def debugText (snapshot : String → UInt64) : List UInt8 :=
  ascii "\x7b " ++
    ((debugCounters.map fun name => debugCounterPair name (snapshot name)).intersperse
      (ascii ",")).flatten ++ ascii "\x7d"

def renderDebug (bufferSize : Nat) (snapshot : String → UInt64) : Option (List UInt8) :=
  let text := debugText snapshot
  if bufferSize ≤ text.length then
    printed bufferSize (debugErrorText "debug_payload_too_large" text.length bufferSize)
  else some text

def ingestValue : IngestStatus → Nat
  | .ok => 0
  | .param => 1
  | .state => 2
  | .unavailable => 3
  | .sequence => 4
  | .range => 5
  | .align => 6
  | .backend => 7

def uploadStateName : UploadState → String
  | .idle => "idle"
  | .inProgress => "in_progress"
  | .ready => "ready"
  | .error => "error"

def verifyStateName : IapVerifyState → String
  | .idle => "idle"
  | .pending => "pending"
  | .verifying => "in_progress"
  | .verified => "verified"
  | .error => "error"

def errorReasonName : UploadError → String
  | .none => "none"
  | .begin => "begin"
  | .push => "push"
  | .incomplete => "incomplete"
  | .finish => "finish"

structure IapStatusPage where
  isLoggerActive : Bool
  upload : IapUploadStatus
  verify : IapVerifyRuntime
  isVerified : Bool

namespace IapStatusPage

def uploadReady (p : IapStatusPage) : Bool := p.upload.state = .ready

def applyReady (p : IapStatusPage) : Bool := !p.isLoggerActive && p.isVerified

def text (version : List UInt8) (p : IapStatusPage) : List UInt8 :=
  ascii "\x7b\"app_version\":\"" ++ version ++
  ascii "\",\"logger_active\":" ++ trueFalse p.isLoggerActive ++
  ascii ",\"upload_ready\":" ++ trueFalse p.uploadReady ++
  ascii ",\"upload_state\":\"" ++ ascii (uploadStateName p.upload.state) ++
  ascii "\",\"upload_received\":" ++ lu p.upload.received ++
  ascii ",\"upload_total\":" ++ lu p.upload.total ++
  ascii ",\"received\":" ++ lu p.upload.received ++
  ascii ",\"total\":" ++ lu p.upload.total ++
  ascii ",\"verify_state\":\"" ++ ascii (verifyStateName p.verify.state) ++
  ascii "\",\"verify_processed\":" ++ lu p.verify.processed ++
  ascii ",\"verify_total\":" ++ lu p.verify.total ++
  ascii ",\"verified\":" ++ trueFalse p.isVerified ++
  ascii ",\"apply_ready\":" ++ trueFalse p.applyReady ++
  ascii ",\"error_reason\":\"" ++ ascii (errorReasonName p.upload.errorReason) ++
  ascii "\",\"ingest_status\":" ++ lu (ingestValue p.upload.ingestStatus) ++ ascii "\x7d"

/-- The text without the version, which names neither state. -/
def fallbackText (p : IapStatusPage) : List UInt8 :=
  ascii "\x7b\"logger_active\":" ++ trueFalse p.isLoggerActive ++
  ascii ",\"upload_ready\":" ++ trueFalse p.uploadReady ++
  ascii ",\"upload_state\":\"error\",\"upload_received\":" ++ lu p.upload.received ++
  ascii ",\"upload_total\":" ++ lu p.upload.total ++
  ascii ",\"received\":" ++ lu p.upload.received ++
  ascii ",\"total\":" ++ lu p.upload.total ++
  ascii ",\"verify_state\":\"error\",\"verify_processed\":" ++ lu p.verify.processed ++
  ascii ",\"verify_total\":" ++ lu p.verify.total ++
  ascii ",\"verified\":" ++ trueFalse p.isVerified ++
  ascii ",\"apply_ready\":" ++ trueFalse p.applyReady ++
  ascii ",\"error_reason\":\"status_payload_too_large\",\"ingest_status\":" ++
    lu (ingestValue p.upload.ingestStatus) ++ ascii "\x7d"

def render (bufferSize : Nat) (version : List UInt8) (p : IapStatusPage) : Option (List UInt8) :=
  let text := p.text version
  if bufferSize ≤ text.length then printed bufferSize p.fallbackText else some text

end IapStatusPage

end CanSniffer.Web
