import CanSniffer.Lib.Serial
import CanSniffer.Logging.SequenceChecker
import CanSniffer.Logging.TracerRuns

universe u

namespace CanSniffer.Logging

open Lib Lib.Serial Drivers Ports

structure Delivered where
  reference : UInt32
  sequences : List UInt32
  deriving DecidableEq

namespace Delivered

def last (d : Delivered) : UInt32 := d.sequences.getLastD d.reference

def deliver (d : Delivered) (x : UInt32) : Delivered :=
  { d with sequences := d.sequences ++ [x] }

def skipped (d : Delivered) : Nat := Serial.skipped d.reference d.sequences

def Ascending (d : Delivered) : Prop := Serial.Ascending d.reference d.sequences

@[simp] theorem last_deliver (d : Delivered) (x : UInt32) : (d.deliver x).last = x := by
  simp [last, deliver]

theorem skipped_deliver (d : Delivered) (x : UInt32) :
    (d.deliver x).skipped = d.skipped + gap d.last x := skipped_append_singleton ..

theorem ascending_deliver (d : Delivered) (x : UInt32) :
    (d.deliver x).Ascending ↔ d.Ascending ∧ x ≠ d.last := ascending_append_singleton ..

end Delivered

namespace ScSequenceType

structure Full (seq : ScSequenceType) : Prop where
  initialized : seq.initialized = true
  wrap_index : seq.wrapIndex = uint32Max

theorem not_lt_uint32Max (x : UInt32) : ¬uint32Max < x := by
  rw [UInt32.lt_iff_toNat_lt]
  exact Nat.not_lt.mpr (le_uint32Max x)

theorem checkSequence_same {seq : ScSequenceType} (h : seq.Full) :
    seq.checkSequence seq.previousId = ({ seq with gapCount := 0 }, .sequence) := by
  unfold checkSequence
  rw [if_neg (by simp [h.initialized]), h.wrap_index, if_neg (not_lt_uint32Max _), if_pos rfl]

theorem delta_eq (previousId x : UInt32) :
    (if previousId < x then x - previousId else uint32Max - previousId + x + 1) =
      x - previousId := by
  split
  · rfl
  · unfold uint32Max
    grind

theorem checkSequence_new {seq : ScSequenceType} (h : seq.Full) {x : UInt32}
    (hx : x ≠ seq.previousId) :
    (seq.checkSequence x).1.Full ∧ (seq.checkSequence x).1.previousId = x ∧
      (seq.missingCount.toNat + gap seq.previousId x < UInt32.size →
        (seq.checkSequence x).1.missingCount.toNat =
          seq.missingCount.toNat + gap seq.previousId x) := by
  have hdelta : x - seq.previousId ≠ 0 := by
    intro hz
    exact hx (by grind)
  unfold checkSequence
  rw [if_neg (by simp [h.initialized]), h.wrap_index, if_neg (not_lt_uint32Max _), if_neg hx]
  simp only [delta_eq, gapCount_eq hdelta]
  refine ⟨⟨h.initialized, rfl⟩, trivial, ?_⟩
  intro hroom
  unfold gap at hroom ⊢
  have hle : x - seq.previousId - 1 ≤ uint32Max - seq.missingCount := by
    rw [UInt32.le_iff_toNat_le, UInt32.toNat_sub_of_le uint32Max seq.missingCount
      (UInt32.not_lt.mp (not_lt_uint32Max _)), toNat_uint32Max]
    simp only [UInt32.size] at hroom
    omega
  rw [if_pos hle, UInt32.toNat_add, Nat.mod_eq_of_lt hroom]

end ScSequenceType

namespace ChannelSequence

def Settled (c : ChannelSequence) : Prop := c.sequence.missingCount = 0

/-- What was counted before and what the checker has found since make up what was skipped. -/
structure Counts (c : ChannelSequence) (count : Nat) (d : Delivered) : Prop where
  full : c.sequence.Full
  previous : c.sequence.previousId = d.last
  index : c.sequenceIndex = d.last
  count : d.Ascending → d.skipped < UInt32.size →
    count + c.sequence.missingCount.toNat = d.skipped

namespace Counts

variable {c : ChannelSequence} {count : Nat} {d : Delivered}

theorem init : ChannelSequence.init.Counts 0 ⟨0, []⟩ where
  full := ⟨rfl, rfl⟩
  previous := rfl
  index := rfl
  count := fun _ _ => rfl

theorem checkSequence (h : c.Counts count d) (x : UInt32) :
    (c.checkSequence x).Counts count (d.deliver x) := by
  by_cases hx : x = c.sequence.previousId
  · subst hx
    have hc : c.checkSequence c.sequence.previousId =
        ⟨{ c.sequence with gapCount := 0 }, c.sequence.previousId⟩ := by
      rw [ChannelSequence.checkSequence, ScSequenceType.checkSequence_same h.full]
    rw [hc]
    refine ⟨⟨h.full.initialized, h.full.wrap_index⟩, ?_, ?_, ?_⟩
    · rw [d.last_deliver]
    · rw [d.last_deliver]
    · intro hasc
      exact absurd h.previous ((d.ascending_deliver _).mp hasc).2
  · obtain ⟨hfull, hprev, hmissing⟩ := ScSequenceType.checkSequence_new h.full hx
    refine ⟨hfull, ?_, ?_, ?_⟩
    · rw [d.last_deliver]
      exact hprev
    · rw [d.last_deliver]
      rfl
    intro hasc hlt
    rw [d.skipped_deliver, ← h.previous] at hlt ⊢
    have hbefore := h.count ((d.ascending_deliver x).mp hasc).1 (by omega)
    have hnow := hmissing (by omega)
    simp only [ChannelSequence.checkSequence, hnow]
    omega

theorem account (h : c.Counts count d) :
    c.account.1.Counts (count + c.account.2) d ∧ c.account.1.Settled := by
  have hindex : ¬(c.sequence.wrapIndex = 0 ∨ c.sequence.wrapIndex < c.sequenceIndex) := by
    rw [h.full.wrap_index]
    rintro (hzero | hlt)
    · contradiction
    · exact ScSequenceType.not_lt_uint32Max _ hlt
  have hreset : c.sequence.reset c.sequenceIndex =
      ({ c.sequence with
        previousId := c.sequenceIndex
        gapCount := 0
        missingCount := 0 }, .ok) := by
    unfold ScSequenceType.reset
    rw [if_neg (by simp [h.full.initialized]), if_neg hindex]
  have haccount : c.account = ({ c with sequence := { c.sequence with
      previousId := c.sequenceIndex
      gapCount := 0
      missingCount := 0 } }, c.sequence.missingCount.toNat) := by
    simp [ChannelSequence.account, ScSequenceType.getMissingCount, h.full.initialized, hreset]
  rw [haccount]
  refine ⟨⟨⟨h.full.initialized, h.full.wrap_index⟩, h.index, h.index, ?_⟩, rfl⟩
  intro hasc hlt
  exact h.count hasc hlt

theorem restart (h : c.Counts count d) (hs : c.Settled) :
    c.Counts 0 ⟨c.sequence.previousId, []⟩ where
  full := h.full
  previous := rfl
  index := h.index.trans h.previous.symm
  count := by
    intro _ _
    rw [hs]
    rfl

end Counts

end ChannelSequence

/-- The drain loop is not running, and what it found has been handed over. -/
def PollPoint.Between : PollPoint → Prop
  | .drain _ | .store _ _ | .account => False
  | _ => True

instance : DecidablePred PollPoint.Between
  | .drain _ | .store _ _ | .account => .isFalse id
  | .idle | .flush | .prepare | .idleSync | .commit | .check => .isTrue trivial

namespace CanLogManager

variable {ρ : Type u} [Lwrb ρ] {s t : CanLogManager ρ} {channel : Channel} {d : Delivered}

def tally (s : CanLogManager ρ) : Channel → ChannelSequence × Nat
  | .can1 => (s.can1, s.checks.canLogManagerCan1MissingCount)
  | .can2 => (s.can2, s.checks.canLogManagerCan2MissingCount)

def channelSequence (s : CanLogManager ρ) (channel : Channel) : ChannelSequence :=
  (s.tally channel).1

/-- `CanLogManager_CAN1_MissingCount` and `CanLogManager_CAN2_MissingCount`. -/
def missingCount (s : CanLogManager ρ) (channel : Channel) : Nat := (s.tally channel).2

/-- What the channel has delivered after the event: the drain loop delivers, and a start of the
tracer clears the counts. -/
def deliver (channel : Channel) (s : CanLogManager ρ) : TracerEvent → Delivered → Delivered
  | .poll _ _, d =>
    match s.point with
    | .idle =>
      if s.runCanTracer ∧ s.runCanTracerOld = false then
        ⟨(s.channelSequence channel).sequence.previousId, []⟩
      else d
    | _ => d
  | .store _ _, d =>
    match s.point with
    | .store _ newFrame =>
      if newFrame.frame.channel = channel.number then d.deliver newFrame.frame.rxSequence else d
    | _ => d
  | _, d => d

structure Counting (channel : Channel) (s : CanLogManager ρ) (d : Delivered) : Prop where
  counts : (s.channelSequence channel).Counts (s.missingCount channel) d
  settled : s.point.Between → (s.channelSequence channel).Settled

theorem Counting.start (zero : TimedFrame) (epoch : UInt8) :
    Counting channel (start zero epoch : CanLogManager ρ) ⟨0, []⟩ := by
  cases channel with
  | can1 => exact ⟨.init, fun _ => rfl⟩
  | can2 => exact ⟨.init, fun _ => rfl⟩

omit [Lwrb ρ] in
theorem Counting.of_same (h : Counting channel s d) (htally : t.tally channel = s.tally channel)
    (hpoint : t.point.Between → s.point.Between) : Counting channel t d := by
  have hsequence : t.channelSequence channel = s.channelSequence channel :=
    congrArg Prod.fst htally
  have hcount : t.missingCount channel = s.missingCount channel := congrArg Prod.snd htally
  constructor
  · rw [hsequence, hcount]
    exact h.counts
  · intro hbetween
    rw [hsequence]
    exact h.settled (hpoint hbetween)

section Tally

variable [LawfulLwrb ρ]

@[simp] theorem tally_storeToFrameBuffer (s : CanLogManager ρ) (entry : LogEntry)
    (what : Logged) : (s.storeToFrameBuffer entry what).1.tally = s.tally := by
  unfold storeToFrameBuffer
  simp only
  split
  · split <;> rfl
  · rfl

@[simp] theorem tally_emitSync (s : CanLogManager ρ) (absTime : UInt64) (frameTimestamp : UInt32)
    (source : Nat) : (s.emitSync absTime frameTimestamp source).tally = s.tally := by
  unfold emitSync
  simp only
  split
  · exact tally_storeToFrameBuffer ..
  · exact tally_storeToFrameBuffer s _ _

omit [Lwrb ρ] [LawfulLwrb ρ] in
@[simp] theorem tally_scheduleSync (s : CanLogManager ρ) (absTime : UInt64) :
    (s.scheduleSync absTime).tally = s.tally := by
  unfold scheduleSync
  simp only
  split <;> rfl

theorem fetch_spec (s : CanLogManager ρ) (n : Nat) (absTime : UInt64) :
    (s.fetch n absTime).tally = s.tally ∧ ¬(s.fetch n absTime).point.Between := by
  unfold fetch
  split
  · simp only
    split
    · split
      · refine ⟨?_, not_false⟩
        exact (tally_emitSync _ _ _ _).trans (tally_scheduleSync _ _)
      · exact ⟨tally_scheduleSync _ _, not_false⟩
    · exact ⟨rfl, not_false⟩
  · exact ⟨rfl, not_false⟩

def checkSequence (s : CanLogManager ρ) (frame : ClassicFrame) : CanLogManager ρ :=
  if frame.channel = 1 then { s with can1 := s.can1.checkSequence frame.rxSequence }
  else if frame.channel = 2 then { s with can2 := s.can2.checkSequence frame.rxSequence }
  else s

omit [Lwrb ρ] [LawfulLwrb ρ] in
theorem tally_checkSequence (s : CanLogManager ρ) (frame : ClassicFrame) (channel : Channel) :
    (s.checkSequence frame).tally channel =
      (if frame.channel = channel.number then
        (s.channelSequence channel).checkSequence frame.rxSequence
      else s.channelSequence channel, s.missingCount channel) := by
  unfold checkSequence
  by_cases h₁ : frame.channel = 1
  · cases channel with
    | can1 => simp [h₁, tally, channelSequence, missingCount, Channel.number]
    | can2 => simp [h₁, tally, channelSequence, missingCount, Channel.number]
  · by_cases h₂ : frame.channel = 2
    · cases channel with
      | can1 => simp [h₂, tally, channelSequence, missingCount, Channel.number]
      | can2 => simp [h₂, tally, channelSequence, missingCount, Channel.number]
    · cases channel with
      | can1 => simp [h₁, h₂, tally, channelSequence, missingCount, Channel.number]
      | can2 => simp [h₁, h₂, tally, channelSequence, missingCount, Channel.number]

theorem store_eq (s : CanLogManager ρ) (n : Nat) (newFrame : TimedFrame)
    (beyond : Vector UInt8 56) (opened : Bool) :
    s.store n newFrame beyond opened =
      let r := (s.checkSequence newFrame.frame).storeToFrameBuffer
        (.frame (appCanLogFillEntry newFrame.frame newFrame.fits beyond
          newFrame.frame.timestamp newFrame.frame.channel)) (.frame newFrame.arrival)
      if r.2 ≠ .success then { r.1 with runCanTracer := false, lost := true, point := .account }
      else
        let t := { r.1 with
          lastFrameTimestamp := newFrame.frame.timestamp
          lastFrameArrival := newFrame.arrival
          lastFrameTimestampValid := true }
        if opened then { t with point := .drain n }
        else { t with runCanTracer := false, point := .account } := rfl

theorem store_spec (s : CanLogManager ρ) (n : Nat) (newFrame : TimedFrame)
    (beyond : Vector UInt8 56) (opened : Bool) :
    (s.store n newFrame beyond opened).tally = (s.checkSequence newFrame.frame).tally ∧
      ¬(s.store n newFrame beyond opened).point.Between := by
  rw [store_eq]
  generalize s.checkSequence newFrame.frame = c
  have htally := tally_storeToFrameBuffer c
    (.frame (appCanLogFillEntry newFrame.frame newFrame.fits beyond
      newFrame.frame.timestamp newFrame.frame.channel)) (.frame newFrame.arrival)
  simp only
  split
  · exact ⟨htally, not_false⟩
  · split
    · exact ⟨htally, not_false⟩
    · exact ⟨htally, not_false⟩

end Tally

omit [Lwrb ρ] in
theorem Counting.account (h : Counting channel s d) : Counting channel s.account d := by
  obtain ⟨hcounts, hsettled⟩ := h.counts.account
  cases channel with
  | can1 => exact ⟨hcounts, fun _ => hsettled⟩
  | can2 => exact ⟨hcounts, fun _ => hsettled⟩

omit [Lwrb ρ] in
theorem Counting.poll (h : Counting channel s d) (hpoint : s.point = .idle) (absTime : UInt64)
    (started : Bool) :
    Counting channel (s.poll absTime started) (s.deliver channel (.poll absTime started) d) := by
  have hsettled := h.settled (by rw [hpoint]; trivial)
  simp only [deliver, hpoint]
  unfold CanLogManager.poll
  by_cases hsame : s.runCanTracerOld = s.runCanTracer
  · rw [if_pos hsame, if_neg (by rw [hsame]; simp)]
    exact h.of_same rfl fun _ => by rw [hpoint]; trivial
  · rw [if_neg hsame]
    by_cases hrun : s.runCanTracer = true
    · rw [if_pos hrun, if_pos ⟨hrun, by simpa [hrun] using hsame⟩]
      have hrestart := h.counts.restart hsettled
      cases channel with
      | can1 => exact ⟨hrestart, fun _ => hsettled⟩
      | can2 => exact ⟨hrestart, fun _ => hsettled⟩
    · rw [if_neg hrun, if_neg fun hboth => hrun hboth.1]
      exact h.of_same rfl fun _ => by rw [hpoint]; trivial

variable [LawfulLwrb ρ]

theorem Counting.store (h : Counting channel s d) (hpoint : s.point = .store n newFrame)
    (beyond : Vector UInt8 56) (opened : Bool) :
    Counting channel (s.store n newFrame beyond opened)
      (s.deliver channel (.store beyond opened) d) := by
  obtain ⟨htally, hbetween⟩ := store_spec s n newFrame beyond opened
  have hchannel := (congrFun htally channel).trans (tally_checkSequence ..)
  simp only [deliver, hpoint]
  refine ⟨?_, fun hb => absurd hb hbetween⟩
  rw [channelSequence, missingCount, hchannel]
  by_cases hframe : newFrame.frame.channel = channel.number
  · rw [if_pos hframe, if_pos hframe]
    exact h.counts.checkSequence _
  · rw [if_neg hframe, if_neg hframe]
    exact h.counts

theorem Counting.step {e : TracerEvent} (h : Counting channel s d) (hs : step s e = some t) :
    Counting channel t (s.deliver channel e d) := by
  cases CanLogManager.step_does hs with
  | setTracer run => exact h.of_same rfl id
  | bridge frame => exact h.of_same rfl id
  | canAbsDrop => exact h.of_same rfl id
  | overrun ch =>
    cases ch with
    | can1 => exact h.of_same rfl id
    | can2 => exact h.of_same rfl id
  | sd hlog => exact h.of_same rfl id
  | poll hpoint absTime started => exact h.poll hpoint absTime started
  | flush hpoint hport => exact h.of_same rfl fun _ => by rw [hpoint]; trivial
  | prepare hpoint absTime =>
    exact h.of_same (congrFun (tally_scheduleSync s absTime) channel) fun hb => hb.elim
  | fetch hpoint absTime =>
    obtain ⟨htally, hbetween⟩ := fetch_spec s _ absTime
    exact h.of_same (congrFun htally channel) fun hb => absurd hb hbetween
  | store hpoint beyond opened => exact h.store hpoint beyond opened
  | account hpoint => exact h.account
  | idleSync hpoint =>
    refine h.of_same ?_ fun _ => by rw [hpoint]; trivial
    unfold CanLogManager.idleSync
    split
    · exact congrFun (tally_emitSync ..) channel
    · rfl
  | commit hpoint =>
    refine h.of_same ?_ fun _ => by rw [hpoint]; trivial
    unfold CanLogManager.commit
    split
    · rfl
    · rfl
  | check hpoint => exact h.of_same rfl fun _ => by rw [hpoint]; trivial

def delivered (channel : Channel) (s : CanLogManager ρ) (es : List TracerEvent) : Delivered :=
  Step.record CanLogManager.step (deliver channel) s es ⟨0, []⟩

/-- Between the drain loops the count of a channel is the number of frames it skipped. -/
theorem missingCount_eq {zero : TimedFrame} {epoch : UInt8} {es : List TracerEvent}
    (h : Step.run CanLogManager.step (CanLogManager.start zero epoch : CanLogManager ρ) es = some s)
    (channel : Channel) (hpoint : s.point.Between) {d : Delivered}
    (hd : delivered channel (CanLogManager.start zero epoch : CanLogManager ρ) es = d)
    (hasc : d.Ascending) (hlt : d.skipped < UInt32.size) :
    s.missingCount channel = d.skipped ∧
      s.missingCount channel =
        (d.last - d.reference - UInt32.ofNat d.sequences.length).toNat := by
  have hcounting : Counting channel s d := by
    rw [← hd, delivered]
    exact Step.run_record_invariant (I := fun s d => Counting channel s d)
      (fun h hs => h.step hs) (.start zero epoch) h
  have hcount := hcounting.counts.count hasc hlt
  have hsettled : (s.channelSequence channel).sequence.missingCount = 0 := hcounting.settled hpoint
  rw [hsettled] at hcount
  have htotal : s.missingCount channel = d.skipped := hcount
  exact ⟨htotal, htotal.trans (Serial.skipped_eq hlt)⟩

def numberedFrame (channel : Channel) (rxSequence : UInt32) : TimedFrame where
  frame := { (emptyFrame channel 0).frame with rxSequence }
  arrival := 0
  timestamp_eq := rfl
  fits := (emptyFrame channel 0).fits

/-- Numbers 1, 2, 4 and 5 of the first channel and 1 of the second do not arrive. -/
def gappedFrames : List TracerEvent :=
  startPoll 0 ++ [.bridge (numberedFrame .can1 3), .bridge (numberedFrame .can2 2),
    .bridge (numberedFrame .can1 6), .setTracer false, .poll 0 true, .flush, .prepare 0,
    .fetch 0, .store (.replicate 56 0) true, .fetch 0, .store (.replicate 56 0) true,
    .fetch 0, .store (.replicate 56 0) true, .fetch 0, .account]

theorem missingCount_gappedFrames : ∃ s : CanLogManager ByteQueue,
    Step.run CanLogManager.step (CanLogManager.start (emptyFrame .can1 0) 0) gappedFrames =
      some s ∧
    s.missingCount .can1 = 4 := by
  have hbetween : (Step.run CanLogManager.step
      (CanLogManager.start (emptyFrame .can1 0) 0 : CanLogManager ByteQueue)
      gappedFrames).any (fun s => s.point.Between) = true := by
    decide +kernel
  have hd : delivered .can1 (CanLogManager.start (emptyFrame .can1 0) 0 : CanLogManager ByteQueue)
      gappedFrames = ⟨0, [3, 6]⟩ := by
    decide +kernel
  obtain ⟨s, hrun, hpoint⟩ := (Option.any_eq_true _ _).mp hbetween
  exact ⟨s, hrun, (missingCount_eq hrun .can1 (of_decide_eq_true hpoint) hd
    (show Serial.Ascending 0 [3, 6] by decide) (by decide)).1⟩

end CanLogManager

end CanSniffer.Logging
