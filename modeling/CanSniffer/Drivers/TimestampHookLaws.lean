import CanSniffer.Drivers.TimestampHook
import CanSniffer.Drivers.CanAbsLaws

namespace CanSniffer.Drivers

open Lib

namespace TimerState

variable {arr : UInt16} {s t : TimerState} {e : TimerEvent} {es : List TimerEvent}

theorem period_pos (arr : UInt16) : 0 < period arr := by
  unfold period
  rw [toNat_getTimerPeriod]
  exact Nat.succ_pos _

/-- A reading knows whether its parts add up to the true time. -/
def Meant (arr : UInt16) (r : HookReading) : Prop :=
  r.accounted = true ↔ r.now = r.time + r.cnt + flagged arr r.uif

def Fine (arr : UInt16) (time now : Nat) : HookPoint → Prop
  | .entered => True
  | .first timeSnapshot1 => timeSnapshot1 ≤ time
  | .counted timeSnapshot1 r =>
    timeSnapshot1 ≤ r.time ∧ r.time ≤ time ∧ Meant arr r ∧ r.now ≤ now

def Since (floor : Nat) : HookPoint → Prop
  | .counted _ r => floor ≤ r.now
  | _ => True

theorem Fine.mono {time now time' now' : Nat} {p : HookPoint} (h : Fine arr time now p)
    (htime : time ≤ time') (hnow : now ≤ now') : Fine arr time' now' p := by
  cases p with
  | entered => trivial
  | first t => exact Nat.le_trans h htime
  | counted t r => exact ⟨h.1, Nat.le_trans h.2.1 htime, h.2.2.1, Nat.le_trans h.2.2.2 hnow⟩

/-- All calls that have returned were right, and what that means for the calls under way. -/
structure Ordered (arr : UInt16) (s : TimerState) : Prop where
  highest : s.highest ≤ s.now arr
  calls : ∀ c call, s.calls c = some call → call.floor ≤ s.now arr ∧ Since call.floor call.point
  returned : ∀ r ∈ s.returned, r.floor ≤ r.value

structure Inv (arr : UInt16) (s : TimerState) : Prop where
  calls : ∀ c call, s.calls c = some call → Fine arr s.time (s.now arr) call.point
  returned : ∀ r ∈ s.returned,
    r.value = r.reading.time + r.reading.cnt + flagged arr r.reading.uif ∧ Meant arr r.reading
  ordered : (∀ r ∈ s.returned, r.reading.accounted = true) → Ordered arr s

theorem start_inv (arr : UInt16) : Inv arr start :=
  ⟨nofun, nofun, fun _ => ⟨Nat.zero_le _, nofun, nofun⟩⟩

theorem reading_meant (arr : UInt16) (s : TimerState) : Meant arr (s.reading arr) := by
  unfold Meant reading accounted now
  dsimp only
  rw [decide_eq_true_eq]
  omega

theorem setCall_calls (s : TimerState) (c i : HookContext) (call : Option HookCall) :
    (s.setCall c call).calls i = if i = c then call else s.calls i := rfl

theorem Inv.goOn (h : s.Inv arr) (hcalls : t.calls = s.calls) (hreturned : t.returned = s.returned)
    (hhighest : t.highest = s.highest) (htime : s.time ≤ t.time) (hnow : s.now arr ≤ t.now arr) :
    t.Inv arr := by
  refine ⟨?_, ?_, ?_⟩
  · intro c call hcall
    rw [hcalls] at hcall
    exact (h.calls c call hcall).mono htime hnow
  · rw [hreturned]
    exact h.returned
  · intro hall
    rw [hreturned] at hall
    have ho := h.ordered hall
    refine ⟨hhighest ▸ Nat.le_trans ho.highest hnow, ?_, hreturned ▸ ho.returned⟩
    intro c call hcall
    rw [hcalls] at hcall
    exact ⟨Nat.le_trans (ho.calls c call hcall).1 hnow, (ho.calls c call hcall).2⟩

theorem Inv.setCall {c : HookContext} {p : HookPoint} {floor : Nat} (h : s.Inv arr)
    (hfine : Fine arr s.time (s.now arr) p)
    (hfloor : Ordered arr s → floor ≤ s.now arr ∧ Since floor p) :
    (s.setCall c (some { point := p, floor })).Inv arr := by
  refine ⟨?_, h.returned, ?_⟩
  · intro i call hcall
    rw [setCall_calls] at hcall
    split at hcall
    · cases hcall
      exact hfine
    · exact h.calls i call hcall
  · intro hall
    have ho := h.ordered hall
    refine ⟨ho.highest, ?_, ho.returned⟩
    intro i call hcall
    rw [setCall_calls] at hcall
    split at hcall
    · cases hcall
      exact hfloor ho
    · exact ho.calls i call hcall

theorem Inv.finish {r : HookReturn} (h : s.Inv arr)
    (hvalue : r.value = r.reading.time + r.reading.cnt + flagged arr r.reading.uif)
    (hmeant : Meant arr r.reading) (hnow : r.reading.now ≤ s.now arr)
    (hfloor : Ordered arr s → r.floor ≤ r.reading.now) : (s.finish r).Inv arr := by
  have hcalls : ∀ i call, (s.finish r).calls i = some call → s.calls i = some call := by
    intro i call hcall
    have hcall : (if i = r.context then none else s.calls i) = some call := hcall
    split at hcall
    · cases hcall
    · exact hcall
  refine ⟨fun i call hcall => h.calls i call (hcalls i call hcall), ?_, ?_⟩
  · intro q hq
    cases hq with
    | head => exact ⟨hvalue, hmeant⟩
    | tail _ hq => exact h.returned q hq
  · intro hall
    have ho := h.ordered fun q hq => hall q (List.mem_cons_of_mem r hq)
    have hright : r.value = r.reading.now :=
      hvalue.trans (hmeant.mp (hall r List.mem_cons_self)).symm
    refine ⟨Nat.max_le.mpr ⟨ho.highest, hright ▸ hnow⟩,
      fun i call hcall => ho.calls i call (hcalls i call hcall), ?_⟩
    intro q hq
    cases hq with
    | head => exact hright ▸ hfloor ho
    | tail _ hq => exact ho.returned q hq

theorem tick_now (arr : UInt16) (s : TimerState) : (s.tick arr).now arr = s.now arr + 1 := by
  unfold tick
  split
  · next hover =>
    show (s.overflows + 1) * period arr + 0 = s.overflows * period arr + s.cnt + 1
    rw [Nat.succ_mul, Nat.add_zero, Nat.add_assoc, hover]
  · rfl

theorem Inv.tick (h : s.Inv arr) : (s.tick arr).Inv arr := by
  have hnow := Nat.le_of_lt (Nat.lt_of_lt_of_eq (Nat.lt_succ_self (s.now arr)) (tick_now arr s).symm)
  have hsame : (s.tick arr).calls = s.calls ∧ (s.tick arr).returned = s.returned ∧
      (s.tick arr).highest = s.highest ∧ (s.tick arr).time = s.time := by
    unfold TimerState.tick
    split
    · exact ⟨rfl, rfl, rfl, rfl⟩
    · exact ⟨rfl, rfl, rfl, rfl⟩
  exact h.goOn hsame.1 hsame.2.1 hsame.2.2.1 (Nat.le_of_eq hsame.2.2.2.symm) hnow

theorem Inv.snapshot2 {c : HookContext} {floor timeSnapshot1 : Nat} {r : HookReading} (h : s.Inv arr)
    (hcall : s.calls c = some { point := .counted timeSnapshot1 r, floor }) :
    (s.snapshot2 arr c floor timeSnapshot1 r).Inv arr := by
  obtain ⟨hfirst, hlast, hmeant, hnow⟩ := h.calls c _ hcall
  have hfloor : Ordered arr s → floor ≤ s.now arr ∧ floor ≤ r.now := fun ho => ho.calls c _ hcall
  unfold TimerState.snapshot2
  split
  · exact h.setCall trivial fun ho => ⟨(hfloor ho).1, trivial⟩
  · next hsame =>
    have hsame := Decidable.not_not.mp hsame
    -- `Time` only grows, so it was the same when the counter was read
    have htime : timeSnapshot1 = r.time := Nat.le_antisymm hfirst (hsame ▸ hlast)
    exact h.finish (by rw [htime]) hmeant hnow fun ho => (hfloor ho).2

/-- What an event does, and when it can come. -/
inductive Does (arr : UInt16) (s : TimerState) : TimerEvent → TimerState → Prop
  | tick : Does arr s .tick (s.tick arr)
  | clearFlag (huif : s.uif = true) (hcleared : s.cleared = false) :
      Does arr s .clearFlag { s with uif := false, cleared := true }
  | addPeriod (hcleared : s.cleared = true) :
      Does arr s .addPeriod { s with time := s.time + period arr, cleared := false }
  | call (c : HookContext) :
      Does arr s (.call c) (s.setCall c (some { point := .entered, floor := s.highest }))
  | snapshot1 {c : HookContext} {floor : Nat}
      (hcall : s.calls c = some { point := .entered, floor }) :
      Does arr s (.snapshot1 c) (s.setCall c (some { point := .first s.time, floor }))
  | read {c : HookContext} {timeSnapshot1 floor : Nat} (hfree : s.free c = true)
      (hcall : s.calls c = some { point := .first timeSnapshot1, floor }) :
      Does arr s (.read c)
        (s.setCall c (some { point := .counted timeSnapshot1 (s.reading arr), floor }))
  | snapshot2 {c : HookContext} {timeSnapshot1 floor : Nat} {r : HookReading}
      (hcall : s.calls c = some { point := .counted timeSnapshot1 r, floor }) :
      Does arr s (.snapshot2 c) (s.snapshot2 arr c floor timeSnapshot1 r)

theorem step_does (ht : step arr s e = some t) : s.Does arr e t := by
  cases e with
  | tick =>
    cases ht
    exact .tick
  | clearFlag =>
    obtain ⟨hgo, ht⟩ := Option.ite_none_right_eq_some.mp ht
    cases ht
    simp only [Bool.and_eq_true, Bool.not_eq_true'] at hgo
    exact .clearFlag hgo.1.1 hgo.1.2
  | addPeriod =>
    obtain ⟨hgo, ht⟩ := Option.ite_none_right_eq_some.mp ht
    cases ht
    simp only [Bool.and_eq_true] at hgo
    exact .addPeriod hgo.1
  | call c =>
    obtain ⟨-, ht⟩ := Option.ite_none_right_eq_some.mp ht
    cases ht
    exact .call c
  | snapshot1 c =>
    simp only [step] at ht
    split at ht
    · next hcall =>
      obtain ⟨-, ht⟩ := Option.ite_none_right_eq_some.mp ht
      cases ht
      exact .snapshot1 hcall
    · cases ht
  | read c =>
    simp only [step] at ht
    split at ht
    · next hcall =>
      obtain ⟨hfree, ht⟩ := Option.ite_none_right_eq_some.mp ht
      cases ht
      exact .read hfree hcall
    · cases ht
  | snapshot2 c =>
    simp only [step] at ht
    split at ht
    · next hcall =>
      obtain ⟨-, ht⟩ := Option.ite_none_right_eq_some.mp ht
      cases ht
      exact .snapshot2 hcall
    · cases ht

theorem step_inv (h : s.Inv arr) (ht : step arr s e = some t) : t.Inv arr := by
  cases step_does ht with
  | tick => exact h.tick
  | clearFlag huif hcleared => exact h.goOn rfl rfl rfl (Nat.le_refl _) (Nat.le_refl _)
  | addPeriod hcleared => exact h.goOn rfl rfl rfl (Nat.le_add_right ..) (Nat.le_refl _)
  | call c => exact h.setCall trivial fun ho => ⟨ho.highest, trivial⟩
  | snapshot1 hcall =>
    exact h.setCall (Nat.le_refl _) fun ho => ⟨(ho.calls _ _ hcall).1, trivial⟩
  | read hfree hcall =>
    refine h.setCall ⟨h.calls _ _ hcall, Nat.le_refl _, reading_meant arr s, Nat.le_refl _⟩ ?_
    exact fun ho => ⟨(ho.calls _ _ hcall).1, (ho.calls _ _ hcall).1⟩
  | snapshot2 hcall => exact h.snapshot2 hcall

def Timely (arr : UInt16) (s : TimerState) : TimerEvent → Prop
  | .tick => s.cnt + 1 = period arr → s.overflows * period arr = s.time
  | _ => True

def Timed (c : HookContext) (r : HookReading) : Prop :=
  r.accounted = !r.cleared ∧ (r.cleared = true → c = .fdcan)

/-- At most one overflow is outstanding, and the flag or the interrupt knows of it. -/
structure Served (arr : UInt16) (s : TimerState) : Prop where
  outstanding : s.overflows * period arr = s.time + flagged arr (s.uif || s.cleared)
  exclusive : ¬(s.uif = true ∧ s.cleared = true)
  calls : ∀ c call, s.calls c = some call →
    ∀ timeSnapshot1 r, call.point = .counted timeSnapshot1 r → Timed c r
  returned : ∀ r ∈ s.returned, Timed r.context r.reading

theorem start_served (arr : UInt16) : Served arr start :=
  ⟨Nat.zero_mul _, nofun, nofun, nofun⟩

theorem Served.accounted (h : s.Served arr) : s.accounted arr = !s.cleared := by
  have hpos := period_pos arr
  have hout := h.outstanding
  unfold TimerState.accounted
  cases hcleared : s.cleared with
  | false =>
    rw [hcleared, Bool.or_false] at hout
    exact decide_eq_true hout
  | true =>
    have huif : s.uif = false := Bool.eq_false_iff.mpr fun huif => h.exclusive ⟨huif, hcleared⟩
    rw [hcleared, huif] at hout
    apply decide_eq_false
    rw [huif]
    simp only [flagged, Bool.or_true, if_true, Bool.false_eq_true, if_false] at hout ⊢
    omega

theorem Served.reading {c : HookContext} (h : s.Served arr) (hfree : s.free c = true) :
    Timed c (s.reading arr) := by
  refine ⟨h.accounted, ?_⟩
  intro hcleared
  cases c with
  | below id =>
    have hcleared : s.cleared = true := hcleared
    simp only [free, hcleared, Bool.not_true, Bool.false_and, Bool.false_eq_true] at hfree
  | fdcan => rfl

theorem Served.setCall {c : HookContext} {call : HookCall} (h : s.Served arr)
    (hcall : ∀ timeSnapshot1 r, call.point = .counted timeSnapshot1 r → Timed c r) :
    (s.setCall c (some call)).Served arr := by
  refine ⟨h.outstanding, h.exclusive, ?_, h.returned⟩
  intro i call' hi
  rw [setCall_calls] at hi
  split at hi
  · next hic =>
    cases hi
    exact hic ▸ hcall
  · exact h.calls i call' hi

theorem Served.finish {r : HookReturn} (h : s.Served arr) (hr : Timed r.context r.reading) :
    (s.finish r).Served arr := by
  refine ⟨h.outstanding, h.exclusive, ?_, ?_⟩
  · intro i call hi
    have hi : (if i = r.context then none else s.calls i) = some call := hi
    split at hi
    · cases hi
    · exact h.calls i call hi
  · intro q hq
    cases hq with
    | head => exact hr
    | tail _ hq => exact h.returned q hq

theorem Served.tick (h : s.Served arr)
    (htimely : s.cnt + 1 = period arr → s.overflows * period arr = s.time) :
    (s.tick arr).Served arr := by
  unfold TimerState.tick
  split
  · next hover =>
    have hnone := htimely hover
    have hpos := period_pos arr
    have hout := h.outstanding
    have hcleared : s.cleared = false := by
      cases hc : s.cleared with
      | false => rfl
      | true =>
        rw [hc, Bool.or_true] at hout
        simp only [flagged, if_true] at hout
        omega
    refine ⟨?_, fun hboth => absurd (hcleared.symm.trans hboth.2) nofun, h.calls, h.returned⟩
    show (s.overflows + 1) * period arr = s.time + flagged arr (true || s.cleared)
    rw [Nat.succ_mul, hnone]
    rfl
  · exact ⟨h.outstanding, h.exclusive, h.calls, h.returned⟩

theorem Served.snapshot2 {c : HookContext} {floor timeSnapshot1 : Nat} {r : HookReading}
    (h : s.Served arr) (hr : Timed c r) : (s.snapshot2 arr c floor timeSnapshot1 r).Served arr := by
  unfold TimerState.snapshot2
  split
  · exact h.setCall nofun
  · exact h.finish hr

theorem step_served (h : s.Served arr) (htimely : Timely arr s e) (ht : step arr s e = some t) :
    t.Served arr := by
  cases step_does ht with
  | tick => exact h.tick htimely
  | clearFlag huif hcleared =>
    have hout := h.outstanding
    rw [huif, hcleared] at hout
    exact ⟨hout, nofun, h.calls, h.returned⟩
  | addPeriod hcleared =>
    have hout := h.outstanding
    have huif : s.uif = false := Bool.eq_false_iff.mpr fun huif => h.exclusive ⟨huif, hcleared⟩
    refine ⟨?_, nofun, h.calls, h.returned⟩
    show s.overflows * period arr = s.time + period arr + flagged arr (s.uif || false)
    rw [hout, huif, hcleared]
    rfl
  | call c => exact h.setCall nofun
  | snapshot1 hcall => exact h.setCall nofun
  | read hfree hcall =>
    apply h.setCall
    rintro _ _ ⟨⟩
    exact h.reading hfree
  | snapshot2 hcall => exact h.snapshot2 (h.calls _ _ hcall _ _ rfl)

/-- The hook's values are the true time, and none is below one that was returned before the call,
exactly if every overflow was in `Time` or shown by the flag when the counter was read.  With a
timer that is served in time, this fails only in the FDCAN interrupt between the clearing of the
flag and the addition of the period. -/
theorem timestamps_true_iff (hrun : Step.run (step arr) start es = some s) :
    ((∀ r ∈ s.returned, r.value = r.reading.now ∧ r.floor ≤ r.value) ↔
        ∀ r ∈ s.returned, r.reading.accounted = true) ∧
      (Step.Along (step arr) (Timely arr) start es → ∀ r ∈ s.returned,
        r.reading.accounted = false ↔ r.context = .fdcan ∧ r.reading.cleared = true) := by
  have h : s.Inv arr := Step.run_invariant (I := Inv arr) step_inv (start_inv arr) hrun
  refine ⟨⟨?_, ?_⟩, ?_⟩
  · intro hright r hr
    obtain ⟨hvalue, hmeant⟩ := h.returned r hr
    exact hmeant.mpr ((hright r hr).1.symm.trans hvalue)
  · intro hall r hr
    obtain ⟨hvalue, hmeant⟩ := h.returned r hr
    exact ⟨hvalue.trans (hmeant.mp (hall r hr)).symm, (h.ordered hall).returned r hr⟩
  · intro htimely r hr
    have hserved : s.Served arr :=
      Step.run_invariant_along (fun hs hc ht => step_served hs hc ht) (start_served arr) htimely hrun
    obtain ⟨haccounted, hcontext⟩ := hserved.returned r hr
    rw [haccounted, Bool.not_eq_false']
    exact ⟨fun hcleared => ⟨hcontext hcleared, hcleared⟩, fun hboth => hboth.2⟩

def overflowed : List TimerEvent := [.call (.below 0), .tick, .snapshot1 (.below 0), .tick, .clearFlag]

theorem timestamps_true_iff_retried :
    ∃ s, Step.run (step 1) start (overflowed ++ [.addPeriod, .read (.below 0), .snapshot2 (.below 0),
      .snapshot1 (.below 0), .read (.below 0), .snapshot2 (.below 0)]) = some s ∧
      ∀ r ∈ s.returned, r.value = r.reading.now ∧ r.floor ≤ r.value := by
  refine (fun hrun => ⟨_, hrun, (timestamps_true_iff hrun).1.mpr ?_⟩) rfl
  intro r hr
  cases hr with
  | head => decide +kernel
  | tail _ hr => cases hr

/-- The FDCAN interrupt comes between the clearing of the flag and the addition of the period. -/
theorem fdcan_misses_period :
    ¬∀ (arr : UInt16) (es : List TimerEvent) (s : TimerState),
      Step.Along (step arr) (Timely arr) start es → Step.run (step arr) start es = some s →
      ∀ r ∈ s.returned, r.value = r.reading.now ∧ r.floor ≤ r.value := by
  intro h
  have htimely : Step.Along (step 1) (Timely 1) start [.tick, .tick, .clearFlag, .call .fdcan,
      .snapshot1 .fdcan, .read .fdcan, .snapshot2 .fdcan] := by
    refine ⟨fun hover => absurd hover (by decide +kernel), ?_⟩
    rintro t ⟨⟩
    refine ⟨fun _ => by decide +kernel, ?_⟩
    rintro t ⟨⟩
    refine ⟨trivial, fun t _ => ⟨trivial, fun t _ => ⟨trivial, fun t _ => ⟨trivial, fun t _ =>
      ⟨trivial, fun t _ => trivial⟩⟩⟩⟩⟩
  have hright := h 1 _ _ htimely rfl _ List.mem_cons_self
  exact absurd hright.1 (by decide +kernel)

end TimerState

end CanSniffer.Drivers
