namespace CanSniffer.Logging

structure ErrorContext where
  id : UInt32
  code : UInt32
  arg0 : UInt32
  arg1 : UInt32
  line : UInt16
  file : Vector UInt8 20
  function : Vector UInt8 64
  deriving DecidableEq

structure ErrorRecorderEntry where
  sequence : UInt32
  context : ErrorContext
  deriving DecidableEq

namespace ErrorRecorderEntry

def zero : ErrorRecorderEntry where
  sequence := 0
  context := ⟨0, 0, 0, 0, 0, .replicate 20 0, .replicate 64 0⟩

end ErrorRecorderEntry

def errorRecorderRecentCount : Nat := 10

structure ErrorRecorder where
  firstError : ErrorRecorderEntry
  lastError : ErrorRecorderEntry
  recentErrors : Vector ErrorRecorderEntry errorRecorderRecentCount
  totalCount : UInt32
  recentCount : UInt8
  recentNext : UInt8
  recentNext_lt : recentNext.toNat < errorRecorderRecentCount

structure ErrorRecorderSnapshot where
  totalCount : UInt32
  overwrittenCount : UInt32
  firstValid : UInt8
  lastValid : UInt8
  recentCount : UInt8
  first : ErrorRecorderEntry
  last : ErrorRecorderEntry
  recent : Vector ErrorRecorderEntry errorRecorderRecentCount

namespace ErrorRecorder

def clear : ErrorRecorder where
  firstError := .zero
  lastError := .zero
  recentErrors := .replicate _ .zero
  totalCount := 0
  recentCount := 0
  recentNext := 0
  recentNext_lt := by decide

def nextIndex (recentNext : UInt8) : UInt8 :=
  if errorRecorderRecentCount ≤ (recentNext + 1).toNat then 0 else recentNext + 1

theorem nextIndex_lt (recentNext : UInt8) :
    (nextIndex recentNext).toNat < errorRecorderRecentCount := by
  unfold nextIndex
  split
  · decide
  · exact Nat.not_le.mp ‹_›

/-- `ErrorRecorder_Record`; `none` is a null pointer. -/
def record (r : ErrorRecorder) : Option ErrorContext → ErrorRecorder
  | none => r
  | some context =>
    let entry := ⟨r.totalCount + 1, context⟩
    { firstError := if r.totalCount = 0 then entry else r.firstError
      lastError := entry
      recentErrors := r.recentErrors.set r.recentNext.toNat entry r.recentNext_lt
      totalCount := r.totalCount + 1
      recentCount :=
        if r.recentCount.toNat < errorRecorderRecentCount then r.recentCount + 1 else r.recentCount
      recentNext := nextIndex r.recentNext
      recentNext_lt := nextIndex_lt r.recentNext }

/-- The loop of the snapshot; what it does not reach stays zero. -/
def copyRecent (r : ErrorRecorder) (start : UInt8) :
    Vector ErrorRecorderEntry errorRecorderRecentCount :=
  .ofFn fun i =>
    if i.val < r.recentCount.toNat then
      let index := (start.toNat + i.val) % errorRecorderRecentCount
      r.recentErrors.get ⟨index, Nat.mod_lt _ (by decide)⟩
    else .zero

def getSnapshot (r : ErrorRecorder) : ErrorRecorderSnapshot :=
  let start := if r.recentCount.toNat = errorRecorderRecentCount then r.recentNext else 0
  { totalCount := r.totalCount
    overwrittenCount :=
      if r.recentCount.toUInt32 < r.totalCount then r.totalCount - r.recentCount.toUInt32 else 0
    firstValid := if 0 < r.totalCount then 1 else 0
    lastValid := if 0 < r.totalCount then 1 else 0
    recentCount := r.recentCount
    first := if 0 < r.totalCount then r.firstError else .zero
    last := if 0 < r.totalCount then r.lastError else .zero
    recent := r.copyRecent start }

def recordAll (r : ErrorRecorder) (calls : List (Option ErrorContext)) : ErrorRecorder :=
  calls.foldl record r

end ErrorRecorder

end CanSniffer.Logging
