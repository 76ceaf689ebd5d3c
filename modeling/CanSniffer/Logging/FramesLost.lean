import CanSniffer.Logging.TracerRuns

universe u

namespace CanSniffer.Logging

open Lib Drivers Ports

namespace CanLogManager

variable {ρ : Type u} [Lwrb ρ] {s t : CanLogManager ρ} {epoch : UInt8}

omit [Lwrb ρ] in
@[simp] theorem framesLost_scheduleSync (s : CanLogManager ρ) (absTime : UInt64) :
    (s.scheduleSync absTime).framesLost = s.framesLost := by
  unfold scheduleSync
  simp only
  split <;> rfl

@[simp] theorem framesLost_commit (s : CanLogManager ρ) : s.commit.framesLost = s.framesLost := by
  unfold commit
  split <;> rfl

variable [LawfulLwrb ρ]

@[simp] theorem framesLost_storeToFrameBuffer (s : CanLogManager ρ) (entry : LogEntry)
    (what : Logged) : (s.storeToFrameBuffer entry what).1.framesLost = s.framesLost := by
  unfold storeToFrameBuffer
  simp only
  split <;> rfl

@[simp] theorem framesLost_emitSync (s : CanLogManager ρ) (absTime : UInt64)
    (timestamp : UInt32) (source : Nat) :
    (s.emitSync absTime timestamp source).framesLost = s.framesLost := by
  unfold emitSync
  simp only
  split <;> exact framesLost_storeToFrameBuffer s _ _

@[simp] theorem framesLost_fetch (s : CanLogManager ρ) (n : Nat) (absTime : UInt64) :
    (s.fetch n absTime).framesLost = s.framesLost := by
  unfold fetch
  split
  · simp only
    split
    · split <;> simp
    · rfl
  · rfl

@[simp] theorem framesLost_store (s : CanLogManager ρ) (n : Nat) (newFrame : TimedFrame)
    (beyond : Vector UInt8 56) (opened : Bool) :
    (s.store n newFrame beyond opened).framesLost = s.framesLost := by
  unfold store
  simp only
  split
  · split
    · simp
    · split <;> simp
  · split
    · split
      · simp
      · split <;> simp
    · split
      · simp
      · split <;> simp

@[simp] theorem framesLost_idleSync (s : CanLogManager ρ) :
    s.idleSync.framesLost = s.framesLost := by
  unfold idleSync
  simp only
  split
  · split <;> simp
  · rfl

end CanLogManager

end CanSniffer.Logging
