import CanSniffer.Drivers.CanAbsLaws
import Mathlib.Data.List.Forall2

namespace CanSniffer.Drivers

open Lib

structure HalAnswer where
  received : Bool
  activated : Bool

namespace CanDriver

/-- The loop of `CanAbs_ReadAllAvailableFrames` with so many rounds left; `newFrame` is its
variable `NewFrame`, which no round clears. -/
def readFrames (channel : Channel) (period : UInt64) (its : RxFifo0ITs) (hal : Nat → HalAnswer) :
    Nat → ClassicFrame → CanDriver → CanDriver × List ReadOutcome
  | 0, _, d => (d, [])
  | n + 1, newFrame, d =>
    if 0 < d.rxFifo0.items.length then
      let (d, outcome) := d.readFrame channel period its
        ⟨newFrame, (hal n).received, (hal n).activated⟩
      match outcome with
      | .stored frame | .refused frame =>
        let (d, outcomes) := readFrames channel period its hal n frame d
        (d, outcome :: outcomes)
      | .failed => (d, [.failed])
    else (d, [])

def readAllAvailableFrames (d : CanDriver) (channel : Channel) (period : UInt64)
    (its : RxFifo0ITs) (newFrame : ClassicFrame) (hal : Nat → HalAnswer) :
    CanDriver × List ReadOutcome :=
  readFrames channel period its hal rxIsrMaxFramesPerChannel newFrame (d.countLost its)

end CanDriver

def ReadOutcome.processed : ReadOutcome → Bool
  | .failed => false
  | _ => true

def ReadOutcome.dropped : ReadOutcome → Bool
  | .stored _ => false
  | _ => true

/-- What `CanAbs_Drain` meets on a channel: whether the driver has its instance, what is in
`NewFrame` at first, and the HAL's answers. -/
structure DrainAnswers where
  present : Bool
  newFrame : ClassicFrame
  hal : Nat → HalAnswer

namespace CanAbs

def drainChannel (s : CanAbs) (arr : UInt16) (c : Channel) (a : DrainAnswers) : CanAbs × Nat :=
  if a.present then
    let (d, outcomes) := (s.driver c).readAllAvailableFrames c (getTimerPeriod arr) ⟨false, false⟩
      a.newFrame a.hal
    let framesProcessed := outcomes.countP ReadOutcome.processed
    ({ s.setDriver d c with
      frameCount := s.frameCount + framesProcessed
      frameDropCount := s.frameDropCount + outcomes.countP ReadOutcome.dropped }, framesProcessed)
  else (s, 0)

/-- Also whether the task that reads the rings is notified. -/
def drain (s : CanAbs) (arr : UInt16) (a : Channel → DrainAnswers) : CanAbs × Bool :=
  let r := s.drainChannel arr .can1 (a .can1)
  let t := r.1.drainChannel arr .can2 (a .can2)
  (t.1, 0 < r.2 + t.2)

end CanAbs

structure MadeOf (channel : Channel) (m : RxMessage) (frame : ClassicFrame) : Prop where
  channel : frame.channel = channel.number
  id : frame.id = m.header.identifier
  flags : frame.dlcDlFlags = packFlags m.header
  data : frame.data.toList.take frame.dataLen.toNat =
    (m.data.toList.take 8).take frame.dataLen.toNat

/-- The software ring got what was in the FIFO, as far as the limit and the ring's places go. -/
structure Drained (channel : Channel) (d d' : CanDriver) : Prop where
  frames : ∃ frames, d'.rxRingBuffer.items = d.rxRingBuffer.items ++ frames ∧
    List.Forall₂ (fun m frame => MadeOf channel m.1 frame)
      ((d.rxFifo0.items.take rxIsrMaxFramesPerChannel).take
        (swRxFrameBufferSize - d.rxRingBuffer.items.length)) frames ∧
    frames.map ClassicFrame.rxSequence =
      (List.range frames.length).map fun i => d.sequenceIndex + 1 + UInt32.ofNat i
  fifo : d'.rxFifo0.items = d.rxFifo0.items.drop rxIsrMaxFramesPerChannel

namespace CanDriver

variable {d : CanDriver} {channel : Channel} {period : UInt64} {its : RxFifo0ITs}

theorem readFrame_unflagged (hits : its.notified = false) (d : CanDriver) (channel : Channel)
    (period : UInt64) (hal : HalRead) :
    (d.readFrame channel period its hal).1.rxFifo0 = d.rxFifo0 := by
  unfold readFrame read
  simp only [hits, Bool.false_eq_true, if_false, fdcanRead, if_true]
  split <;> rfl

theorem readFrames_unflagged (hits : its.notified = false) (hal : Nat → HalAnswer) (n : Nat)
    (newFrame : ClassicFrame) (d : CanDriver) :
    (readFrames channel period its hal n newFrame d).1.rxFifo0 = d.rxFifo0 := by
  induction n generalizing newFrame d with
  | zero => rfl
  | succ n ih =>
    have hround := readFrame_unflagged hits d channel period
      ⟨newFrame, (hal n).received, (hal n).activated⟩
    unfold readFrames
    split
    · simp only
      split
      · exact (ih _ _).trans hround
      · exact (ih _ _).trans hround
      · exact hround
    · rfl

theorem readFrames_of_empty (h : d.rxFifo0.items = []) (hal : Nat → HalAnswer) (n : Nat)
    (newFrame : ClassicFrame) : readFrames channel period its hal n newFrame d = (d, []) := by
  cases n with
  | zero => rfl
  | succ n => rw [readFrames, if_neg (by simp [h])]

theorem countLost_spec (d : CanDriver) (its : RxFifo0ITs) :
    (d.countLost its).rxFifo0 = d.rxFifo0 ∧
      (d.countLost its).rxRingBuffer = d.rxRingBuffer ∧
      (d.countLost its).sequenceIndex = d.sequenceIndex := by
  unfold countLost
  split <;> exact ⟨rfl, rfl, rfl⟩

end CanDriver

namespace Drained

variable {channel : Channel} {d d' : CanDriver}

theorem empty_of_same (h : Drained channel d d') (hfifo : d'.rxFifo0 = d.rxFifo0) :
    d.rxFifo0.items = [] := by
  have hlen := congrArg List.length h.fifo
  rw [hfifo, List.length_drop] at hlen
  apply List.length_eq_zero_iff.mp
  simp only [rxIsrMaxFramesPerChannel, fdcanIrqRxWatermark] at hlen
  omega

theorem of_empty (h : d.rxFifo0.items = []) (hfifo : d'.rxFifo0 = d.rxFifo0)
    (hring : d'.rxRingBuffer = d.rxRingBuffer) : Drained channel d d' where
  frames := ⟨[], by rw [hring, List.append_nil], by simp [h], rfl⟩
  fifo := by rw [hfifo, h, List.drop_nil]

end Drained

namespace CanAbs

theorem driver_drainChannel (s : CanAbs) (arr : UInt16) (c c' : Channel) (a : DrainAnswers) :
    (s.drainChannel arr c a).1.driver c' =
      if a.present ∧ c' = c then
        ((s.driver c).readAllAvailableFrames c (getTimerPeriod arr) ⟨false, false⟩ a.newFrame
          a.hal).1
      else s.driver c' := by
  unfold drainChannel
  by_cases hpresent : a.present = true
  · simp only [hpresent, if_true, true_and]
    exact driver_setDriver s _ c c'
  · simp [hpresent]

theorem drainChannel_spec (s : CanAbs) (arr : UInt16) (c c' : Channel) (a : DrainAnswers) :
    ((s.drainChannel arr c a).1.driver c').rxFifo0 = (s.driver c').rxFifo0 ∧
      ((s.driver c').rxFifo0.items = [] →
        ((s.drainChannel arr c a).1.driver c').rxRingBuffer = (s.driver c').rxRingBuffer) := by
  rw [driver_drainChannel]
  split
  · next h =>
    obtain ⟨-, rfl⟩ := h
    obtain ⟨hfifo, hring, -⟩ := (s.driver c').countLost_spec ⟨false, false⟩
    refine ⟨(CanDriver.readFrames_unflagged rfl _ _ _ _).trans hfifo, ?_⟩
    intro hempty
    rw [CanDriver.readAllAvailableFrames, CanDriver.readFrames_of_empty (by rw [hfifo, hempty])]
    exact hring
  · exact ⟨rfl, fun _ => rfl⟩

theorem drain_fst (s : CanAbs) (arr : UInt16) (a : Channel → DrainAnswers) :
    (s.drain arr a).1 =
      ((s.drainChannel arr .can1 (a .can1)).1.drainChannel arr .can2 (a .can2)).1 := by
  simp only [drain]

theorem drain_spec (s : CanAbs) (arr : UInt16) (c : Channel) (a : Channel → DrainAnswers) :
    ((s.drain arr a).1.driver c).rxFifo0 = (s.driver c).rxFifo0 ∧
      ((s.driver c).rxFifo0.items = [] →
        ((s.drain arr a).1.driver c).rxRingBuffer = (s.driver c).rxRingBuffer) := by
  obtain ⟨hfifo, hring⟩ := drainChannel_spec s arr .can1 c (a .can1)
  rw [drain_fst]
  generalize (s.drainChannel arr .can1 (a .can1)).1 = t at *
  obtain ⟨hfifo', hring'⟩ := drainChannel_spec t arr .can2 c (a .can2)
  refine ⟨hfifo'.trans hfifo, ?_⟩
  intro hempty
  exact (hring' (by rw [hfifo, hempty])).trans (hring hempty)

/-- The drain does what it is for exactly when there is nothing to do. -/
theorem drain_forwards_iff (s : CanAbs) (arr : UInt16) (a : Channel → DrainAnswers) :
    (∀ c, Drained c (s.driver c) ((s.drain arr a).1.driver c)) ↔
      ∀ c, (s.driver c).rxFifo0.items = [] := by
  constructor
  · intro h c
    exact (h c).empty_of_same (drain_spec s arr c a).1
  · intro h c
    obtain ⟨hfifo, hring⟩ := drain_spec s arr c a
    exact .of_empty (h c) hfifo (hring (h c))

def drainAnswers : DrainAnswers where
  present := true
  newFrame := .zero
  hal := fun _ => ⟨true, true⟩

def oneWaiting : CanAbs := boot.setDriver (CanDriver.boot.arrive 65536 7 plainFrame) .can1

theorem fifo_oneWaiting : (oneWaiting.driver .can1).rxFifo0.items ≠ [] := by
  rw [oneWaiting, driver_setDriver, if_pos rfl]
  simp [CanDriver.arrive, CanDriver.boot, Mailbox.send, Mailbox.empty, fdcanRamRxElements]

theorem drain_leaves_frame : ¬∀ c, Drained c (oneWaiting.driver c)
    ((oneWaiting.drain 65535 fun _ => drainAnswers).1.driver c) := by
  intro h
  exact fifo_oneWaiting
    ((h .can1).empty_of_same (drain_spec oneWaiting 65535 .can1 fun _ => drainAnswers).1)

end CanAbs

end CanSniffer.Drivers
