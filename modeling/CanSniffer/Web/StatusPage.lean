import CanSniffer.Lib.JsonCompact
import CanSniffer.Web.FsCustom
import CanSniffer.Web.JsonPages

namespace CanSniffer.Web

open Lib Decimal Iap

theorem length_lu_le (n : Nat) : (lu n).length ≤ 10 :=
  length_unsigned_le_ten (Nat.mod_lt n (by decide))

def luTree (n : Nat) : Json := .ofNat (n % UInt32.size)

def boolTree (b : Bool) : Json := .bool b

theorem lu_eq (n : Nat) : lu n = (luTree n).compact := rfl

namespace IapStatusPage

variable (p : IapStatusPage)

def tree (version : List UInt8) : Json :=
  .object [(ascii "app_version", .string version),
    (ascii "logger_active", boolTree p.isLoggerActive),
    (ascii "upload_ready", boolTree p.uploadReady),
    (ascii "upload_state", .string (ascii (uploadStateName p.upload.state))),
    (ascii "upload_received", luTree p.upload.received),
    (ascii "upload_total", luTree p.upload.total),
    (ascii "received", luTree p.upload.received),
    (ascii "total", luTree p.upload.total),
    (ascii "verify_state", .string (ascii (verifyStateName p.verify.state))),
    (ascii "verify_processed", luTree p.verify.processed),
    (ascii "verify_total", luTree p.verify.total),
    (ascii "verified", boolTree p.isVerified),
    (ascii "apply_ready", boolTree p.applyReady),
    (ascii "error_reason", .string (ascii (errorReasonName p.upload.errorReason))),
    (ascii "ingest_status", luTree (ingestValue p.upload.ingestStatus))]

theorem uploadStateName_plain (s : UploadState) :
    (ascii (uploadStateName s)).all Json.isPlain = true := by
  cases s <;> rfl

theorem verifyStateName_plain (s : IapVerifyState) :
    (ascii (verifyStateName s)).all Json.isPlain = true := by
  cases s <;> rfl

theorem errorReasonName_plain (e : UploadError) :
    (ascii (errorReasonName e)).all Json.isPlain = true := by
  cases e <;> rfl

theorem tree_lexical {version : List UInt8} (h : version.all Json.isPlain = true) :
    (p.tree version).Lexical :=
  ⟨Json.scanString_key rfl, Json.lexical_string h, Json.scanString_key rfl, trivial,
    Json.scanString_key rfl, trivial, Json.scanString_key rfl,
    Json.lexical_string (uploadStateName_plain _), Json.scanString_key rfl, Json.lexical_ofNat _,
    Json.scanString_key rfl, Json.lexical_ofNat _, Json.scanString_key rfl, Json.lexical_ofNat _,
    Json.scanString_key rfl, Json.lexical_ofNat _, Json.scanString_key rfl,
    Json.lexical_string (verifyStateName_plain _), Json.scanString_key rfl, Json.lexical_ofNat _,
    Json.scanString_key rfl, Json.lexical_ofNat _, Json.scanString_key rfl, trivial,
    Json.scanString_key rfl, trivial, Json.scanString_key rfl,
    Json.lexical_string (errorReasonName_plain _), Json.scanString_key rfl, Json.lexical_ofNat _,
    trivial⟩

end IapStatusPage

end CanSniffer.Web
