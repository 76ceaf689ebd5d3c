namespace CanSniffer.Logging

inductive ScStatusType
  | ok
  | init
  | sequence
  | invParam
  deriving DecidableEq, Repr

structure ScSequenceType where
  previousId : UInt32
  gapCount : UInt32
  missingCount : UInt32
  wrapIndex : UInt32
  initialized : Bool
  deriving DecidableEq, Repr

namespace ScSequenceType

def init (index wrapIndex : UInt32) : ScSequenceType where
  previousId := index
  gapCount := 0
  missingCount := 0
  wrapIndex := wrapIndex
  initialized := true

def uint32Max : UInt32 := 0xFFFFFFFF

def checkSequence (seq : ScSequenceType) (newIndex : UInt32) : ScSequenceType × ScStatusType :=
  if seq.initialized = false then (seq, .init)
  else if seq.wrapIndex < newIndex then (seq, .invParam)
  else if newIndex = seq.previousId then ({ seq with gapCount := 0 }, .sequence)
  else
    let delta :=
      if seq.previousId < newIndex then newIndex - seq.previousId
      else seq.wrapIndex - seq.previousId + newIndex + 1
    let gapCount :=
      if delta = 1 then 0
      else if 1 < delta then delta - 1
      else seq.gapCount
    let missingCount :=
      if gapCount ≤ uint32Max - seq.missingCount then seq.missingCount + gapCount else uint32Max
    ({ seq with gapCount, missingCount, previousId := newIndex }, .ok)

def getMissingCount (seq : ScSequenceType) : Except ScStatusType UInt32 :=
  if seq.initialized then .ok seq.missingCount else .error .init

def reset (seq : ScSequenceType) (index : UInt32) : ScSequenceType × ScStatusType :=
  if seq.initialized = false then (seq, .sequence)
  else if seq.wrapIndex = 0 ∨ seq.wrapIndex < index then (seq, .invParam)
  else ({ seq with previousId := index, gapCount := 0, missingCount := 0 }, .ok)

end ScSequenceType

/-- The counters of `RuntimeChecks.c`, but for those that belong to the log buffer and to the
message port. -/
structure RuntimeChecks where
  canAbsFrameDropCount : Nat
  canAbsCan1RxFrameDropCount : Nat
  canAbsCan2RxFrameDropCount : Nat
  canBridgeTaskFrameCount : Nat
  canLogManagerFrameCount : Nat
  canLogManagerFrameDropCount1 : Nat
  canLogManagerFrameDropCount2 : Nat
  canLogManagerCan1MissingCount : Nat
  canLogManagerCan2MissingCount : Nat
  canLogManagerCan1MissingIdsCount : Nat
  canLogManagerCan2MissingIdsCount : Nat

inductive RuntimeChecksErrorType
  | ok
  | framesDropped
  deriving DecidableEq, Repr

namespace RuntimeChecks

def init : RuntimeChecks where
  canAbsFrameDropCount := 0
  canAbsCan1RxFrameDropCount := 0
  canAbsCan2RxFrameDropCount := 0
  canBridgeTaskFrameCount := 0
  canLogManagerFrameCount := 0
  canLogManagerFrameDropCount1 := 0
  canLogManagerFrameDropCount2 := 0
  canLogManagerCan1MissingCount := 0
  canLogManagerCan2MissingCount := 0
  canLogManagerCan1MissingIdsCount := 0
  canLogManagerCan2MissingIdsCount := 0

def frameDelta1 (c : RuntimeChecks) : UInt64 :=
  UInt64.ofNat c.canBridgeTaskFrameCount - UInt64.ofNat c.canLogManagerFrameCount

def checkDropCounts (c : RuntimeChecks) (fdcanMsgPortFrameDropCount canLogBufferFrameDropCount : Nat) :
    RuntimeChecksErrorType :=
  if 0 ≠ fdcanMsgPortFrameDropCount then .framesDropped
  else if 0 ≠ c.canAbsFrameDropCount then .framesDropped
  else if 0 ≠ c.canAbsCan1RxFrameDropCount then .framesDropped
  else if 0 ≠ c.canAbsCan2RxFrameDropCount then .framesDropped
  else if 1024 < c.frameDelta1 then .framesDropped
  else if 1024 < canLogBufferFrameDropCount then .ok
  else if 0 ≠ c.canLogManagerFrameDropCount1 then .framesDropped
  else if 0 ≠ c.canLogManagerFrameDropCount2 then .framesDropped
  else if 0 ≠ c.canLogManagerCan1MissingCount ∨ 0 ≠ c.canLogManagerCan2MissingCount then
    .framesDropped
  else if 0 ≠ c.canLogManagerCan1MissingIdsCount ∨ 0 ≠ c.canLogManagerCan2MissingIdsCount then
    .framesDropped
  else .ok

/-- One of the counters that only a drop should move has moved. -/
def Counted (c : RuntimeChecks) (fdcanMsgPortFrameDropCount : Nat) : Prop :=
  fdcanMsgPortFrameDropCount ≠ 0 ∨ c.canAbsFrameDropCount ≠ 0 ∨
    c.canAbsCan1RxFrameDropCount ≠ 0 ∨ c.canAbsCan2RxFrameDropCount ≠ 0 ∨
    c.canLogManagerFrameDropCount1 ≠ 0 ∨ c.canLogManagerFrameDropCount2 ≠ 0 ∨
    c.canLogManagerCan1MissingCount ≠ 0 ∨ c.canLogManagerCan2MissingCount ≠ 0 ∨
    c.canLogManagerCan1MissingIdsCount ≠ 0 ∨ c.canLogManagerCan2MissingIdsCount ≠ 0

theorem checkDropCounts_eq_framesDropped_iff {c : RuntimeChecks} {port buffer : Nat}
    (hb : buffer ≤ 1024) :
    c.checkDropCounts port buffer = .framesDropped ↔ c.Counted port ∨ 1024 < c.frameDelta1 := by
  unfold checkDropCounts Counted
  rw [if_neg (Nat.not_lt.mpr hb)]
  constructor
  · grind
  · grind

end RuntimeChecks

end CanSniffer.Logging
