import CanSniffer.Drivers.FdcanHealth
import CanSniffer.Lib.Consecutive
import Mathlib.Tactic.ByContra

namespace CanSniffer.Drivers

open Lib

variable {bits : FdcanBits}

def FdcanRegisters.zero : FdcanRegisters := ⟨0, 0, 0, 0⟩

/-- The error flags that one sample shows and the one before it did not. -/
def newErrorEventIrFlags (bits : FdcanBits) (p : FdcanRegisters × FdcanRegisters) : UInt32 :=
  p.2.ir &&& bits.errorEventIrMask &&& ~~~(p.1.ir &&& bits.errorEventIrMask)

def lostRose (bits : FdcanBits) (p : FdcanRegisters × FdcanRegisters) : Bool :=
  rxFifo0LostActive bits p.2 && !rxFifo0LostActive bits p.1

def flagRose (bits : FdcanBits) (flags : UInt32) (p : FdcanRegisters × FdcanRegisters) : Bool :=
  newErrorEventIrFlags bits p &&& flags ≠ 0

def eventful (bits : FdcanBits) (p : FdcanRegisters × FdcanRegisters) : Bool :=
  lostRose bits p || flagRose bits bits.protocolErrorIrMask p || flagRose bits bits.irEw p ||
    flagRose bits bits.irEp p || flagRose bits bits.irBo p

def interesting (bits : FdcanBits) (r : FdcanRegisters) : Bool :=
  psrHasInterestingError bits r.psr || ecrHasInterestingError bits r.ecr

structure HealthWindow where
  before : FdcanRegisters
  samples : List FdcanRegisters

namespace HealthWindow

def start : HealthWindow := ⟨.zero, []⟩

def step (c : Channel) (w : HealthWindow) : HealthOp → HealthWindow
  | .init c' => if c' = c then start else w
  | .reset r1 r2 =>
    match c with
    | .can1 => ⟨r1.getD .zero, []⟩
    | .can2 => ⟨r2.getD .zero, []⟩
  | .capture c' r => if c' = c then { w with samples := w.samples ++ [r] } else w

def pairs (w : HealthWindow) : List (FdcanRegisters × FdcanRegisters) :=
  consecutive w.before w.samples

def last (w : HealthWindow) : FdcanRegisters := w.samples.getLast?.getD w.before

/-- The last counted sample; before there is one, the first with an error to show. -/
def snapshot (bits : FdcanBits) (w : HealthWindow) : Option FdcanRegisters :=
  ((w.pairs.filter (eventful bits)).getLast?.map Prod.snd).or (w.samples.find? (interesting bits))

def state (bits : FdcanBits) (w : HealthWindow) : FdcanHealthState where
  protocolStatusLatched := ((w.snapshot bits).getD .zero).psr
  errorCounterLatched := ((w.snapshot bits).getD .zero).ecr
  rxFifo0StatusLatched := ((w.snapshot bits).getD .zero).rxf0s
  interruptFlagsLatched := ((w.snapshot bits).getD .zero).ir
  activeErrorEventIrFlags := w.last.ir &&& bits.errorEventIrMask
  rxFifo0LostActive := rxFifo0LostActive bits w.last
  rxFifo0LostEvents := .ofNat (w.pairs.countP (lostRose bits))
  protocolErrorEvents := .ofNat (w.pairs.countP (flagRose bits bits.protocolErrorIrMask))
  errorWarningEvents := .ofNat (w.pairs.countP (flagRose bits bits.irEw))
  errorPassiveEvents := .ofNat (w.pairs.countP (flagRose bits bits.irEp))
  busOffEvents := .ofNat (w.pairs.countP (flagRose bits bits.irBo))

end HealthWindow

section Zero

theorem ir_eq_zero_of_flagRose {flags : UInt32} {p : FdcanRegisters × FdcanRegisters}
    (h : flagRose bits flags p = true) : p.2.ir ≠ 0 := by
  intro hzero
  simp [flagRose, newErrorEventIrFlags, hzero] at h

theorem lost_of_lostRose {p : FdcanRegisters × FdcanRegisters} (h : lostRose bits p = true) :
    p.2.rxf0s ≠ 0 ∨ p.2.ir ≠ 0 := by
  by_contra hzero
  obtain ⟨hrxf0s, hir⟩ := not_or.mp hzero
  simp [lostRose, rxFifo0LostActive, not_not.mp hrxf0s, not_not.mp hir] at h

theorem hasBit_of_eventful {p : FdcanRegisters × FdcanRegisters} (h : eventful bits p = true) :
    p.2.rxf0s ≠ 0 ∨ p.2.ir ≠ 0 := by
  simp only [eventful, Bool.or_eq_true] at h
  rcases h with (((h | h) | h) | h) | h
  · exact lost_of_lostRose h
  all_goals exact .inr (ir_eq_zero_of_flagRose h)

theorem hasBit_of_interesting {r : FdcanRegisters} (h : interesting bits r = true) :
    r.psr ≠ 0 ∨ r.ecr ≠ 0 := by
  by_contra hzero
  obtain ⟨hpsr, hecr⟩ := not_or.mp hzero
  simp [interesting, psrHasInterestingError, ecrHasInterestingError, isLastErrorCodeActive,
    not_not.mp hpsr, not_not.mp hecr] at h

end Zero

theorem ofNat_countP_append {α : Type} (p : α → Bool) (l : List α) (a : α) :
    UInt64.ofNat ((l ++ [a]).countP p) =
      FdcanHealthState.countEvent (.ofNat (l.countP p)) (p a) := by
  rw [List.countP_append, List.countP_singleton, FdcanHealthState.countEvent]
  split
  · exact UInt64.ofNat_add _ _
  · rfl

namespace HealthWindow

variable (w : HealthWindow) (r : FdcanRegisters)

def push : HealthWindow := { w with samples := w.samples ++ [r] }

theorem pairs_push : (w.push r).pairs = w.pairs ++ [(w.last, r)] :=
  consecutive_append_singleton _ _ _

theorem last_push : (w.push r).last = r := by
  rw [last, push, List.getLast?_concat, Option.getD_some]

theorem snapshot_push : (w.push r).snapshot bits =
    if eventful bits (w.last, r) || !(w.snapshot bits).isSome && interesting bits r then some r
    else w.snapshot bits := by
  rw [snapshot, pairs_push, List.filter_append, push, List.find?_append]
  cases hevent : eventful bits (w.last, r) with
  | true =>
    rw [List.filter_cons_of_pos hevent, List.filter_nil, List.getLast?_concat]
    rfl
  | false =>
    rw [List.filter_cons_of_neg (by rw [hevent]; exact Bool.false_ne_true), List.filter_nil,
      List.append_nil, snapshot, List.find?_singleton]
    cases ((w.pairs.filter (eventful bits)).getLast?.map Prod.snd) with
    | some r' => rfl
    | none =>
      cases w.samples.find? (interesting bits) with
      | some r' => rfl
      | none => rfl

theorem hasLatch_state : (w.state bits).hasLatch = (w.snapshot bits).isSome := by
  have hbit (r : FdcanRegisters) (h : w.snapshot bits = some r) :
      r.psr ≠ 0 ∨ r.ecr ≠ 0 ∨ r.rxf0s ≠ 0 ∨ r.ir ≠ 0 := by
    rcases Option.or_eq_some_iff.mp h with h | ⟨-, h⟩
    · obtain ⟨p, hp, rfl⟩ := Option.map_eq_some_iff.mp h
      have hevent := (List.mem_filter.mp (List.mem_of_getLast? hp)).2
      exact .inr (.inr (hasBit_of_eventful hevent))
    · rcases hasBit_of_interesting (List.find?_some h) with hpsr | hecr
      · exact .inl hpsr
      · exact .inr (.inl hecr)
  cases h : w.snapshot bits with
  | none =>
    simp only [FdcanHealthState.hasLatch, state, h]
    rfl
  | some r =>
    simp only [FdcanHealthState.hasLatch, state, h, Option.getD_some, Option.isSome_some,
      decide_eq_true_eq, ne_eq, UInt32.or_eq_zero_iff]
    rintro ⟨⟨⟨hpsr, hecr⟩, hrxf0s⟩, hir⟩
    rcases hbit r h with h | h | h | h
    · exact h hpsr
    · exact h hecr
    · exact h hrxf0s
    · exact h hir

theorem capture_state : (w.state bits).capture bits r = (w.push r).state bits := by
  have hsnapshot : (w.push r).snapshot bits = _ := w.snapshot_push r
  rw [← hasLatch_state] at hsnapshot
  unfold FdcanHealthState.capture
  change (if (eventful bits (w.last, r) ||
    !(w.state bits).hasLatch && interesting bits r) = true then _ else _) = _
  rw [state.eq_1 bits (w.push r), pairs_push, last_push, hsnapshot]
  simp only [ofNat_countP_append]
  split
  · rfl
  · rfl

end HealthWindow

theorem state_start : HealthWindow.start.state bits = .reset := by
  have hlost : rxFifo0LostActive bits .zero = false := by
    simp [rxFifo0LostActive, FdcanRegisters.zero]
  have hactive : FdcanRegisters.zero.ir &&& bits.errorEventIrMask = 0 := UInt32.zero_and
  simp only [HealthWindow.state, HealthWindow.last, HealthWindow.start, List.getLast?_nil,
    Option.getD_none, hlost, hactive]
  rfl

theorem state_prime (r : Option FdcanRegisters) :
    (HealthWindow.mk (r.getD .zero) []).state bits = FdcanHealthState.reset.prime bits r := by
  cases r with
  | none => exact state_start
  | some r => rfl

theorem getFdcanHealthState_step {h : FdcanHealth} {c : Channel} {w : HealthWindow}
    (hw : h.getFdcanHealthState c = w.state bits) (op : HealthOp) :
    (h.step bits op).getFdcanHealthState c = (w.step c op).state bits := by
  have hget (s : FdcanHealthState) (c' : Channel) :
      (h.setFdcanHealthState s c').getFdcanHealthState c =
        if c' = c then s else h.getFdcanHealthState c := by
    cases c <;> cases c' <;> rfl
  cases op with
  | init c' =>
    rw [FdcanHealth.step, hget, HealthWindow.step]
    split
    · exact state_start.symm
    · exact hw
  | reset r1 r2 =>
    cases c with
    | can1 => exact (state_prime r1).symm
    | can2 => exact (state_prime r2).symm
  | capture c' r =>
    rw [FdcanHealth.step, hget, HealthWindow.step]
    split
    · next heq => exact heq ▸ hw ▸ w.capture_state r
    · exact hw

def window (c : Channel) (ops : List HealthOp) : HealthWindow :=
  ops.foldl (HealthWindow.step c) .start

theorem getFdcanHealthState_run (ops : List HealthOp) (c : Channel) :
    (FdcanHealth.boot.run bits ops).getFdcanHealthState c = (window c ops).state bits := by
  have hrun (h : FdcanHealth) (w : HealthWindow) (hw : h.getFdcanHealthState c = w.state bits) :
      (h.run bits ops).getFdcanHealthState c = (ops.foldl (HealthWindow.step c) w).state bits := by
    induction ops generalizing h w with
    | nil => exact hw
    | cons op ops ih => exact ih _ _ (getFdcanHealthState_step hw op)
  refine hrun _ _ ?_
  rw [state_start]
  cases c <;> rfl

/-- Whatever order interrupts, starts and resets come in, the statistics of a channel count how
often each flag was newly up in its samples since, and show the sample that tells most. -/
theorem getFdcanHealth_counts (bits : FdcanBits) (ops : List HealthOp) (c : Channel)
    (r : FdcanRegisters) :
    let w := window c ops
    let shown := (w.snapshot bits).getD .zero
    ((FdcanHealth.boot.run bits ops).getFdcanHealthState c).getFdcanHealth (some r) =
      some
        { protocolStatus := r.psr
          errorCounter := r.ecr
          rxFifo0Status := r.rxf0s
          interruptFlags := r.ir
          protocolStatusLatched := shown.psr
          errorCounterLatched := shown.ecr
          rxFifo0StatusLatched := shown.rxf0s
          interruptFlagsLatched := shown.ir
          rxFifo0LostEvents := .ofNat (w.pairs.countP (lostRose bits))
          protocolErrorEvents := .ofNat (w.pairs.countP (flagRose bits bits.protocolErrorIrMask))
          errorWarningEvents := .ofNat (w.pairs.countP (flagRose bits bits.irEw))
          errorPassiveEvents := .ofNat (w.pairs.countP (flagRose bits bits.irEp))
          busOffEvents := .ofNat (w.pairs.countP (flagRose bits bits.irBo)) } := by
  intro w shown
  rw [getFdcanHealthState_run]
  rfl

end CanSniffer.Drivers
