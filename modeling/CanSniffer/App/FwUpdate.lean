import CanSniffer.App.Core0Task0
import CanSniffer.Boot.FwUpdateHandoff
import CanSniffer.Web.UploadSession

/-! A firmware update as a whole: the requests, the main loop (`Core0Task0.c`), the marker and the
bootloader.  Power can fail at any point, also in the middle of an erase or a write of the slot. -/

namespace CanSniffer.App

open Lib Iap Web Boot

/-- `mounted` is whether `mountRes` is OK.  Not in the program: `requested` is the image that was in
the slot when `FwUpdateHandoff_RequestApply` was called last. -/
structure FwUpdate where
  app : Core0Task0
  post : HttpdPost
  applyFirmwareUpdate : Bool
  mounted : Bool
  handoff : HandoffState
  requested : Option (List UInt8)

/-- The settings that come with a request are events of their own.  `slot` is what a loss of power
and the bootloader leave there. -/
inductive UpdateEvent
  | param (param value : String)
  | action (action : UInt8)
  | logStopped
  | post (conn : Nat) (call : PostCall)
  | prepare (a : EraseAnswer)
  | apply
  | polled (a : StorageStatus)
  | applied
  | handoff (e : HandoffEvent)
  | powerLoss (slot : Slot)
  | bootGo (slot : Slot) (ok : Bool) (load : ConfigLoad) (mounted : Bool)

namespace FwUpdate

abbrev slot (s : FwUpdate) : Slot := s.post.iap.adapter.writer.slot

def setSlot (s : FwUpdate) (slot : Slot) : FwUpdate :=
  { s with post.iap.adapter.writer.slot := slot }

def Polling (s : FwUpdate) : Prop := s.handoff.point = .application ∧ s.app.point = .httpPoll

instance (s : FwUpdate) : Decidable s.Polling := inferInstanceAs (Decidable (_ ∧ _))

def loop (s : FwUpdate) (e : LoopEvent) : Option FwUpdate :=
  if s.handoff.point = .application then (Core0Task0.step s.app e).map fun app => { s with app }
  else none

def handoffStep (s : FwUpdate) (e : HandoffEvent) : Option FwUpdate :=
  (HandoffState.step s.handoff e).map fun handoff => { s with handoff }

def apply (s : FwUpdate) : FwUpdate :=
  let r := s.post.renderApply s.app.ctrl.runCanTracer
  { s with post := r.1, applyFirmwareUpdate := s.applyFirmwareUpdate || r.2.ok }

def handleFirmware (s : FwUpdate) : Option FwUpdate :=
  if s.applyFirmwareUpdate then
    if s.app.ctrl.runCanTracer = false ∧ s.post.iap.isVerified then
      -- the card is unmounted first
      { s with
        mounted := false
        applyFirmwareUpdate := false
        requested := s.post.iap.uploaded }.handoffStep .requestApply
    else some { s with applyFirmwareUpdate := false }
  else some s

def flashing (s : FwUpdate) : Bool :=
  decide (s.handoff.point = .application ∨ s.handoff.point = .bootGo)

def restart (s : FwUpdate) (load : ConfigLoad) (mounted : Bool) : FwUpdate :=
  { s with
    app := .start load
    post := .idle .init (.start s.post.iap.adapter.writer.config s.slot)
    applyFirmwareUpdate := false
    mounted }

def start (config : IapWriterConfig) (slot : Slot) (marker : FwUpdateHandoffRecord) : FwUpdate where
  app := .init
  post := .idle .init (.start config slot)
  applyFirmwareUpdate := false
  mounted := false
  handoff := .start marker
  requested := none

def step : Step FwUpdate UpdateEvent
  | s, .param param value => s.loop (.param param value)
  | s, .action action => s.loop (.action action)
  | s, .logStopped => s.loop .logStopped
  | s, .post conn call =>
    if s.Polling then some { s with post := (s.post.call conn call).1 } else none
  | s, .prepare a =>
    if s.Polling then some { s with post := (s.post.renderPrepare s.app.ctrl.runCanTracer a).1 }
    else none
  | s, .apply => if s.Polling then some s.apply else none
  | s, .polled a =>
    (s.loop .polled).map fun t => { t with post.iap := t.post.iap.verifyPoll a }
  | s, .applied => (s.loop .applied).bind handleFirmware
  | s, .handoff e =>
    match e with
    | .powerLoss => none
    | .bootGo _ => none
    | .requestApply => none
    | e => s.handoffStep e
  | s, .powerLoss slot =>
    (if s.flashing then s.setSlot slot else s).handoffStep .powerLoss
  | s, .bootGo slot ok load mounted =>
    ((s.setSlot slot).handoffStep (.bootGo ok)).map fun t =>
      if ok then t.restart load mounted else t

end FwUpdate

/-- What a run has seen: `applies` counts the requests to apply that were answered with OK,
`activated` is the slot at every call of `boot_set_pending_multi`. -/
structure UpdateLedger where
  uploads : UploadLedger
  applies : Nat
  activated : List Slot

namespace UpdateLedger

def start : UpdateLedger where
  uploads := .start
  applies := 0
  activated := []

def note (s : FwUpdate) (e : UpdateEvent) (l : UpdateLedger) : UpdateLedger :=
  match e with
  | .post conn call => { l with uploads := l.uploads.note s.post conn call }
  | .apply =>
    if (s.post.renderApply s.app.ctrl.runCanTracer).2.ok then { l with applies := l.applies + 1 }
    else l
  | .handoff (.activate true) => { l with activated := s.slot :: l.activated }
  | _ => l

end UpdateLedger

end CanSniffer.App
