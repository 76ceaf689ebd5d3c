import CanSniffer.Drivers.CommTypes
import CanSniffer.Lib.Mask

/-! The static replay of transmit buffers (`fdcan.c` with `CAN_STATIC_TX_REPLAY_ENABLE`).  Whether
the HAL takes a message is an argument, one answer for each call; the channel is one that replays.
-/

namespace CanSniffer.Drivers

open Lib

/-- `CAN_STATIC_TX_REPLAY_TX_BUFFERS`, which the header keeps from being more than 32. -/
abbrev TxBuffers := Fin 33

/-- A message that `HAL_FDCAN_AddMessageToTxBuffer` has taken, with the index of its buffer. -/
structure TxLoad where
  identifier : UInt32
  messageMarker : UInt32
  buffer : Nat
  deriving DecidableEq, Repr

/-- The static replay fields of `FdcanInstanceType`, then what the hardware has been asked: the
calls of the HAL, the messages it took and the words written to `TXBAR`. -/
structure StaticReplay where
  bufferMask : UInt32
  baseId : UInt32
  idCount : UInt32
  nextIdOffset : UInt32
  lastCompletedMask : UInt32
  requests : UInt32
  completed : UInt32
  reloadErrors : UInt32
  prepared : Bool
  active : Bool
  calls : Nat
  loaded : List TxLoad
  requested : List UInt32
  deriving DecidableEq, Repr

namespace StaticReplay

def loadBuffer (n : TxBuffers) (hal : Nat → Bool) (s : StaticReplay) (bufferIndex : Nat)
    (idOffset : UInt32) : StaticReplay × CommStatus :=
  if s.idCount = 0 ∨ n.val ≤ bufferIndex then (s, .invalidParameter)
  else
    let txHeader : TxLoad :=
      { identifier := (s.baseId + idOffset % s.idCount) &&& 0x7FF
        messageMarker := UInt32.ofNat bufferIndex &&& 0xFF
        buffer := bufferIndex }
    if hal s.calls then
      ({ s with calls := s.calls + 1, loaded := s.loaded ++ [txHeader] }, .success)
    else ({ s with calls := s.calls + 1 }, .error)

def loadAll (n : TxBuffers) (hal : Nat → Bool) (s : StaticReplay) :
    List Nat → StaticReplay × CommStatus
  | [] => ({ s with prepared := true }, .success)
  | i :: is =>
    match s.loadBuffer n hal i (UInt32.ofNat i) with
    | (t, .success) => t.loadAll n hal is
    | (t, _) => (t, .error)

def prepareInstance (n : TxBuffers) (hal : Nat → Bool) (s : StaticReplay)
    (baseId idCount : UInt32) : StaticReplay × CommStatus :=
  let bufferCount := UInt32.ofNat n.val
  if bufferCount = 0 then (s, .invalidParameter)
  else
    let idRange := if idCount = 0 then 1 else idCount
    if 0x800 < idRange then (s, .invalidParameter)
    else if idRange < bufferCount then (s, .invalidParameter)
    else
      { s with
        prepared := false
        active := false
        baseId := baseId &&& 0x7FF
        idCount := idRange
        nextIdOffset := bufferCount % idRange
        lastCompletedMask := 0
        reloadErrors := 0
        bufferMask := Mask.below n.val }.loadAll n hal (List.range n.val)

def rearm (s : StaticReplay) (mask : UInt32) : StaticReplay :=
  if s.active = false ∨ s.prepared = false then s
  else
    let requestMask := mask &&& s.bufferMask
    if requestMask = 0 then s
    else
      { s with
        requested := s.requested ++ [requestMask]
        requests := s.requests + UInt32.ofNat (Mask.popcount requestMask) }

/-- A round of the loop over the buffers, with the mask requested so far. -/
def reload (n : TxBuffers) (hal : Nat → Bool) (completedMask : UInt32) :
    StaticReplay × UInt32 → Nat → StaticReplay × UInt32
  | (s, requestMask), i =>
    if completedMask &&& Mask.bit i = 0 then (s, requestMask)
    else
      match s.loadBuffer n hal i s.nextIdOffset with
      | (t, .success) =>
        let next := t.nextIdOffset + 1
        ({ t with nextIdOffset := if t.idCount ≤ next then 0 else next },
          requestMask ||| Mask.bit i)
      | (t, _) => ({ t with reloadErrors := t.reloadErrors + 1 }, requestMask)

def rearmCompleted (n : TxBuffers) (hal : Nat → Bool) (s : StaticReplay)
    (completedMask : UInt32) : StaticReplay :=
  if s.active = false ∨ s.prepared = false ∨ s.bufferMask = 0 then s
  else
    let completedMask := completedMask &&& s.bufferMask
    let (t, requestMask) :=
      (List.range n.val).foldl (reload n hal completedMask)
        ({ s with lastCompletedMask := completedMask }, 0)
    { t with completed := t.completed + UInt32.ofNat (Mask.popcount completedMask) }.rearm
      requestMask

def start (s : StaticReplay) : StaticReplay × CommStatus :=
  if s.prepared = false then (s, .invalidState)
  else
    ({ s with active := true, lastCompletedMask := 0 }.rearm s.bufferMask, .success)

def stop (s : StaticReplay) : StaticReplay := { s with active := false, lastCompletedMask := 0 }

inductive ReplayEvent
  | start
  | stop
  | completed (mask : UInt32)
  deriving DecidableEq, Repr

def event (n : TxBuffers) (hal : Nat → Bool) (s : StaticReplay) : ReplayEvent → StaticReplay
  | .start => s.start.1
  | .stop => s.stop
  | .completed mask => s.rearmCompleted n hal mask

def run (n : TxBuffers) (hal : Nat → Bool) (s : StaticReplay) (events : List ReplayEvent) :
    StaticReplay :=
  events.foldl (event n hal) s

end StaticReplay

end CanSniffer.Drivers
