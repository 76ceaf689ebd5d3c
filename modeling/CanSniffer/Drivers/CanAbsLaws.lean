import CanSniffer.Drivers.CanAbs
import CanSniffer.Lib.Epoch

namespace CanSniffer.Drivers

open Lib

theorem toNat_getTimerPeriod (arr : UInt16) : (getTimerPeriod arr).toNat = arr.toNat + 1 := by
  have := arr.toNat_lt_size
  unfold getTimerPeriod
  rw [UInt64.mul_one, UInt64.toNat_add, UInt16.toNat_toUInt64]
  exact Nat.mod_eq_of_lt (Nat.lt_trans (Nat.succ_lt_succ this) (by decide))

theorem toInt_toInt64 {x : UInt64} (h : x.toNat < 0x8000000000000000) :
    x.toInt64.toInt = x.toNat := by
  have : x.toInt64 = Int64.ofNat x.toNat := by
    rw [← UInt64.toInt64_ofNat', UInt64.ofNat_toNat]
  rw [this, Int64.toInt_ofNat_of_lt h]

theorem toInt_sub_toInt64 {x y : UInt64} (hx : x.toNat < 0x8000000000000000)
    (hy : y.toNat < 0x8000000000000000) :
    (x.toInt64 - y.toInt64).toInt = (x.toNat : Int) - y.toNat := by
  rw [Int64.toInt_sub, toInt_toInt64 hx, toInt_toInt64 hy]
  apply Int.bmod_eq_of_le <;> omega

theorem toInt_neg_toInt64 {x : UInt64} (hx : x.toNat < 0x8000000000000000) :
    (-x.toInt64).toInt = -(x.toNat : Int) := by
  rw [Int64.toInt_neg, toInt_toInt64 hx]
  apply Int.bmod_eq_of_le <;> omega

theorem toNat_epoch {e p h : UInt64} {k : Int}
    (hk : (e.toNat : Int) % UInt64.size = k % UInt64.size) :
    ((e * p + h).toNat : Int) = (k * p.toNat + h.toNat) % UInt64.size := by
  rw [UInt64.toNat_add, UInt64.toNat_mul]
  rw [show (2 ^ 64 : Nat) = UInt64.size from rfl, Nat.mod_add_mod, Int.natCast_emod,
    Int.natCast_add, Int.natCast_mul, Int.add_emod, Int.mul_emod, hk, ← Int.mul_emod, ← Int.add_emod]

theorem toNat_sub_one (e : UInt64) :
    ((e - 1).toNat : Int) % UInt64.size = ((e.toNat : Int) - 1) % UInt64.size := by
  have := e.toNat_lt_size
  rw [UInt64.toNat_sub, show UInt64.toNat 1 = 1 from rfl]
  simp only [UInt64.size] at *
  omega

theorem toNat_add_one (e : UInt64) :
    ((e + 1).toNat : Int) % UInt64.size = ((e.toNat : Int) + 1) % UInt64.size := by
  rw [UInt64.toNat_add, show UInt64.toNat 1 = 1 from rfl]
  simp only [UInt64.size] at *
  omega


theorem toNat_half_lt (p : UInt64) : (p / 2).toNat < 0x8000000000000000 := by
  have := p.toNat_lt
  rw [UInt64.toNat_div, show UInt64.toNat 2 = 2 from rfl]
  omega

theorem epoch_spec {p g h : UInt64} (hg : g.toNat < 0x8000000000000000)
    (hh : h.toNat < 0x8000000000000000) :
    (((if (p / 2).toInt64 < h.toInt64 - (g % p).toInt64 then g / p - 1
      else if h.toInt64 - (g % p).toInt64 < -(p / 2).toInt64 then g / p + 1
      else g / p) * p + h).toNat : Int) = nearest p.toNat g.toNat h.toNat % UInt64.size := by
  have hmod : (g % p).toNat < 0x8000000000000000 := by
    rw [UInt64.toNat_mod]
    exact Nat.lt_of_le_of_lt (Nat.mod_le ..) hg
  have hhalf : (p / 2).toNat < 0x8000000000000000 := toNat_half_lt p
  simp only [Int64.lt_iff_toInt_lt, toInt_toInt64 hhalf, toInt_sub_toInt64 hh hmod,
    toInt_neg_toInt64 hhalf]
  unfold nearest
  simp only [UInt64.toNat_mod, UInt64.toNat_div, Int.natCast_emod, Int.natCast_ediv]
  rw [show ((UInt64.toNat 2 : Nat) : Int) = 2 from rfl]
  have hdiv : ((g / p).toNat : Int) = (g.toNat : Int) / p.toNat := by
    rw [UInt64.toNat_div, Int.natCast_ediv]
  split
  · apply toNat_epoch
    rw [toNat_sub_one, hdiv]
  · split
    · apply toNat_epoch
      rw [toNat_add_one, hdiv]
    · apply toNat_epoch
      rw [hdiv]

theorem toNat_reconstructFullTimestamp {p g h : UInt64} (last : UInt64) (hp : 0 < p.toNat)
    (hple : p.toNat ≤ 0x10000) (hg : g.toNat < 0x8000000000000000) (hh : h.toNat < p.toNat) :
    ((reconstructFullTimestamp p h g last).1.toNat : Int) =
      nearest p.toNat g.toNat h.toNat % UInt64.size := by
  have hp0 : p ≠ 0 := by
    rintro rfl
    exact Nat.lt_irrefl 0 hp
  have hR := epoch_spec (p := p) hg (Nat.lt_trans (Nat.lt_of_lt_of_le hh hple) (by decide))
  unfold reconstructFullTimestamp
  rw [if_neg hp0]
  simp only
  generalize hepoch : (if (p / 2).toInt64 < h.toInt64 - (g % p).toInt64 then g / p - 1
      else if h.toInt64 - (g % p).toInt64 < -(p / 2).toInt64 then g / p + 1
      else g / p) * p + h = R at hR ⊢
  rw [← hR]
  split
  · next hlast =>
    rw [if_neg]
    intro hlt
    -- `R + p / 2` does not wrap and reaches the time of the interrupt
    have hnear : Near p.toNat g.toNat (nearest p.toNat g.toNat h.toNat) :=
      near_nearest (Int.natCast_nonneg h.toNat) (Int.ofNat_lt.mpr hh)
    have hle : last.toNat ≤ g.toNat := UInt64.le_iff_toNat_le.mp hlast.2.1
    have hlt' := UInt64.lt_iff_toNat_lt.mp hlt
    rw [UInt64.toNat_add, UInt64.toNat_div, show UInt64.toNat 2 = 2 from rfl] at hlt'
    unfold Near at hnear
    simp only [UInt64.size] at hR
    omega
  · rfl

namespace CanDriver

variable {d : CanDriver} {arr : UInt16} {its : RxFifo0ITs} {hal : HalRead}

def ReadsFrame (d : CanDriver) (arr : UInt16) (m : RxMessage) (frame : ClassicFrame) : Prop :=
  frame.timestamp = (reconstructFullTimestamp (getTimerPeriod arr)
    (convertCountToTimestamp m.header.rxTimestamp) d.mostRecentInterruptTimestamp
    d.lastHardwareTimestamp).1.toUInt32

/-- The interrupt that frames are computed from. -/
structure SameInterrupt (d d' : CanDriver) : Prop where
  timestamp : d'.mostRecentInterruptTimestamp = d.mostRecentInterruptTimestamp
  interrupt : d'.interrupt = d.interrupt
  betweenUpdates : d'.betweenUpdates = d.betweenUpdates

theorem SameInterrupt.refl (d : CanDriver) : d.SameInterrupt d := ⟨rfl, rfl, rfl⟩

theorem getRxMessage_frame (received : Bool) :
    d.SameInterrupt (d.getRxMessage received).1 ∧
    (d.getRxMessage received).1.lastHardwareTimestamp = d.lastHardwareTimestamp ∧
    ∀ m ∈ (d.getRxMessage received).1.rxFifo0.items, m ∈ d.rxFifo0.items := by
  unfold getRxMessage
  split
  · cases hr : d.rxFifo0.receive with
    | none => exact ⟨.refl d, rfl, fun m hm => hm⟩
    | some mq =>
      refine ⟨⟨rfl, rfl, rfl⟩, rfl, ?_⟩
      intro m hm
      rw [Mailbox.items_receive hr]
      exact List.mem_cons_of_mem _ hm
  · exact ⟨.refl d, rfl, fun m hm => hm⟩

theorem getRxMessage_eq_some {received : Bool} {m : RxMessage}
    (h : (d.getRxMessage received).2 = some m) : ∃ t, d.rxFifo0.items.take 1 = [(m, t)] := by
  unfold getRxMessage at h
  split at h
  · cases hr : d.rxFifo0.receive with
    | none =>
      rw [hr] at h
      contradiction
    | some mq =>
      rw [hr] at h
      obtain ⟨⟨m', t⟩, q⟩ := mq
      obtain rfl : m' = m := Option.some.inj h
      exact ⟨t, by rw [Mailbox.items_receive hr]; rfl⟩
  · contradiction

theorem readFrame_stored (hits : its.notified = true)
    (h : (d.readFrame channel (getTimerPeriod arr) its hal).2 = .stored frame) :
    ∃ m t, d.rxFifo0.items.take 1 = [(m, t)] ∧ d.ReadsFrame arr m frame := by
  obtain ⟨⟨hrecent, -, -⟩, hlast, -⟩ := getRxMessage_frame (d := d) hal.received
  unfold readFrame read at h
  rw [if_pos hits] at h
  simp only at h
  cases hm : (d.getRxMessage hal.received).2 with
  | none =>
    rw [hm] at h
    simp [fdcanRead] at h
  | some m =>
    obtain ⟨t, ht⟩ := getRxMessage_eq_some hm
    refine ⟨m, t, ht, ?_⟩
    rw [hm] at h
    unfold ReadsFrame
    split at h
    · split at h
      · obtain rfl := ReadOutcome.stored.inj h
        rw [hrecent, hlast]
        simp [fdcanRead]
      · contradiction
    · contradiction

theorem readFrame_frame (d : CanDriver) (channel : Channel) (period : UInt64) (its : RxFifo0ITs)
    (hal : HalRead) :
    d.SameInterrupt (d.readFrame channel period its hal).1 ∧
    ∀ m ∈ (d.readFrame channel period its hal).1.rxFifo0.items, m ∈ d.rxFifo0.items := by
  obtain ⟨hsame, -, hitems⟩ := getRxMessage_frame (d := d) hal.received
  have hread : d.SameInterrupt (d.read its hal).1 ∧
      ∀ m ∈ (d.read its hal).1.rxFifo0.items, m ∈ d.rxFifo0.items := by
    unfold read
    split
    · exact ⟨hsame, hitems⟩
    · exact ⟨.refl d, fun m hm => hm⟩
  obtain ⟨⟨htimestamp, hinterrupt, hbetween⟩, hitems⟩ := hread
  unfold readFrame
  simp only
  split
  · split <;> exact ⟨⟨htimestamp, hinterrupt, hbetween⟩, hitems⟩
  · exact ⟨⟨htimestamp, hinterrupt, hbetween⟩, hitems⟩

/-- What an interrupt at `interrupt` takes for its own time. -/
def sampleTime (arr : UInt16) (interrupt : Nat) (betweenUpdates : Bool) : Int :=
  if betweenUpdates then interrupt - (getTimerPeriod arr).toNat else interrupt

structure Ok (arr : UInt16) (d : CanDriver) : Prop where
  stamped : ∀ m ∈ d.rxFifo0.items,
    m.1.header.rxTimestamp.toNat = m.2 % (getTimerPeriod arr).toNat
  recent : d.mostRecentInterruptTimestamp.toNat < CanAbs.clockEnd
  sampled : (d.mostRecentInterruptTimestamp.toNat : Int) =
    sampleTime arr d.interrupt d.betweenUpdates

theorem Ok.boot : Ok arr .boot where
  stamped := by simp [CanDriver.boot]
  recent := by decide
  sampled := rfl

theorem counter_lt (arr : UInt16) (n : Nat) : n % (getTimerPeriod arr).toNat < UInt32.size := by
  have hlt := arr.toNat_lt_size
  have := Nat.mod_lt n (Nat.succ_pos arr.toNat)
  rw [toNat_getTimerPeriod]
  simp only [UInt16.size, UInt32.size, Nat.succ_eq_add_one] at *
  omega

theorem Ok.arrive (h : d.Ok arr) (now : Nat) (m : RxMessage) :
    (d.arrive (getTimerPeriod arr) now m).Ok arr := by
  unfold CanDriver.arrive
  simp only
  split
  · next q hs =>
    refine ⟨?_, h.recent, h.sampled⟩
    intro m' hm'
    rw [show _ = q.items from rfl, Mailbox.items_send hs] at hm'
    rcases List.mem_append.mp hm' with hm' | hm'
    · exact h.stamped m' hm'
    · obtain rfl := List.mem_singleton.mp hm'
      exact UInt32.toNat_ofNat_of_lt' (counter_lt arr now)
  · exact ⟨h.stamped, h.recent, h.sampled⟩

theorem Ok.readFrame (h : d.Ok arr) :
    (d.readFrame channel (getTimerPeriod arr) its hal).1.Ok arr := by
  obtain ⟨⟨htimestamp, hinterrupt, hbetween⟩, hitems⟩ :=
    readFrame_frame d channel (getTimerPeriod arr) its hal
  refine ⟨?_, ?_, ?_⟩
  · intro m hm
    exact h.stamped m (hitems m hm)
  · rw [htimestamp]
    exact h.recent
  · rw [htimestamp, hinterrupt, hbetween]
    exact h.sampled

theorem Ok.countLost (h : d.Ok arr) : (d.countLost its).Ok arr := by
  unfold CanDriver.countLost
  split
  · exact ⟨h.stamped, h.recent, h.sampled⟩
  · exact h

theorem Ok.timestamp_eq (h : d.Ok arr) {m : RxMessage} {t : Nat} (hm : (m, t) ∈ d.rxFifo0.items)
    (hr : d.ReadsFrame arr m frame) :
    (frame.timestamp.toNat : Int) = nearest (getTimerPeriod arr).toNat
      (sampleTime arr d.interrupt d.betweenUpdates) (t % (getTimerPeriod arr).toNat) %
        UInt32.size := by
  have hp := toNat_getTimerPeriod arr
  have hlt := arr.toNat_lt_size
  have hcount : (convertCountToTimestamp m.header.rxTimestamp).toNat =
      t % (getTimerPeriod arr).toNat := by
    rw [convertCountToTimestamp, UInt64.one_mul, UInt32.toNat_toUInt64]
    exact h.stamped _ hm
  have hspec := toNat_reconstructFullTimestamp d.lastHardwareTimestamp
    (p := getTimerPeriod arr) (g := d.mostRecentInterruptTimestamp)
    (h := convertCountToTimestamp m.header.rxTimestamp) (by omega)
    (by simp only [UInt16.size] at hlt; omega) h.recent
    (by rw [hcount]; exact Nat.mod_lt _ (by omega))
  rw [hr, UInt64.toNat_toUInt32, Int.natCast_emod, hspec, hcount, Int.natCast_emod, h.sampled]
  exact Int.emod_emod_of_dvd _ (by decide)

end CanDriver

namespace StoredFrame

def Right (f : StoredFrame) : Prop := f.frame.timestamp = UInt32.ofNat f.arrival

def Computed (arr : UInt16) (f : StoredFrame) : Prop :=
  (f.frame.timestamp.toNat : Int) = nearest (getTimerPeriod arr).toNat
    (CanDriver.sampleTime arr f.interrupt f.betweenUpdates)
    (f.arrival % (getTimerPeriod arr).toNat) % UInt32.size

/-- The interrupt was close to the arrival, or as far off as the low half cannot show; one that came
between the updates of flag and time was late by a period on top of that. -/
def Close (arr : UInt16) (f : StoredFrame) : Prop :=
  (f.betweenUpdates = false →
    NearUpTo UInt32.size (getTimerPeriod arr).toNat f.interrupt f.arrival) ∧
  (f.betweenUpdates = true →
    NearUpTo UInt32.size (getTimerPeriod arr).toNat (f.interrupt - (getTimerPeriod arr).toNat)
      f.arrival)

theorem close_iff {f : StoredFrame} : f.Close arr ↔ NearUpTo UInt32.size (getTimerPeriod arr).toNat
    (CanDriver.sampleTime arr f.interrupt f.betweenUpdates) f.arrival := by
  unfold Close CanDriver.sampleTime
  cases f.betweenUpdates with
  | false => simp
  | true => simp

theorem Computed.right_iff {f : StoredFrame} (h : f.Computed arr) : f.Right ↔ f.Close arr := by
  have hp : (0 : Int) < (getTimerPeriod arr).toNat := by
    rw [toNat_getTimerPeriod]
    omega
  unfold Right
  rw [close_iff, ← nearest_congr_iff hp, ← UInt32.toNat_inj, UInt32.toNat_ofNat', ← Int.natCast_inj, h,
    Int.natCast_emod, Int.dvd_iff_emod_eq_zero, ← Int.emod_eq_emod_iff_emod_sub_eq_zero]

end StoredFrame

namespace CanAbs

variable {s t : CanAbs} {arr : UInt16}

@[simp] theorem driver_setDriver (s : CanAbs) (d : CanDriver) (c c' : Channel) :
    (s.setDriver d c).driver c' = if c' = c then d else s.driver c' := by
  cases c <;> cases c' <;> rfl

structure Inv (arr : UInt16) (s : CanAbs) : Prop where
  clock : s.time.toNat + (if s.overflowed then (getTimerPeriod arr).toNat else 0) +
    s.now % (getTimerPeriod arr).toNat = s.now
  exclusive : s.timer = .flagCleared → s.updateFlag = false
  now_lt : s.now < clockEnd
  drivers : ∀ c, (s.driver c).Ok arr
  notified : ∀ i ∈ s.isr, i.its.notified = true
  computed : ∀ f ∈ s.stored, f.Computed arr

theorem Inv.boot : Inv arr boot where
  clock := by simp [CanAbs.boot, overflowed]
  exclusive := nofun
  now_lt := by decide
  drivers := by
    intro c
    cases c <;> exact CanDriver.Ok.boot
  notified := by simp [CanAbs.boot]
  computed := by simp [CanAbs.boot]

theorem Inv.setDriver (h : Inv arr s) {d : CanDriver} (hd : d.Ok arr) (c : Channel) :
    Inv arr (s.setDriver d c) where
  clock := by
    cases c <;> exact h.clock
  exclusive := by
    cases c <;> exact h.exclusive
  now_lt := by
    cases c <;> exact h.now_lt
  drivers := by
    intro c'
    rw [driver_setDriver]
    split
    · exact hd
    · exact h.drivers c'
  notified := by
    cases c <;> exact h.notified
  computed := by
    cases c <;> exact h.computed

theorem Inv.enter (h : Inv arr s) (c : Channel) {its : RxFifo0ITs} (hits : its.notified = true) :
    Inv arr (s.enter c its) := by
  have hd := h.setDriver (h.drivers c).countLost c (d := (s.driver c).countLost its)
  refine ⟨hd.clock, hd.exclusive, hd.now_lt, hd.drivers, ?_, hd.computed⟩
  intro i hi
  obtain rfl := Option.some.inj hi
  exact hits

theorem Inv.leave (h : Inv arr s) {i : Isr} (hi : i.its.notified = true) :
    Inv arr (s.leave i) := by
  unfold CanAbs.leave
  split
  · exact h.enter .can2 hi
  · exact ⟨h.clock, h.exclusive, h.now_lt, h.drivers, by simp, h.computed⟩

theorem Inv.getTimestamp (h : Inv arr s) : ((s.getTimestamp arr).toNat : Int) =
    CanDriver.sampleTime arr s.now (decide (s.timer = .flagCleared)) := by
  have hclock := h.clock
  have hnow := h.now_lt
  have hcount := CanDriver.counter_lt arr s.now
  simp only [clockEnd] at hnow
  unfold CanAbs.getTimestamp CanDriver.sampleTime
  simp only [UInt32.mul_one]
  have hcnt : (UInt32.ofNat (s.now % (getTimerPeriod arr).toNat)).toUInt64.toNat =
      s.now % (getTimerPeriod arr).toNat := by
    rw [UInt32.toNat_toUInt64, UInt32.toNat_ofNat_of_lt' hcount]
  unfold overflowed at hclock
  by_cases hcleared : s.timer = .flagCleared
  · have hflag := h.exclusive hcleared
    simp only [hflag, hcleared, decide_true, Bool.or_true, if_true] at hclock
    simp only [hflag, hcleared, decide_true, if_true, Bool.false_eq_true, if_false]
    rw [UInt64.toNat_add, hcnt]
    omega
  · simp only [hcleared, decide_false, Bool.or_false, Bool.false_eq_true, if_false] at hclock ⊢
    cases hflag : s.updateFlag with
    | true =>
      simp only [hflag, if_true] at hclock ⊢
      rw [UInt64.toNat_add, UInt64.toNat_add, hcnt]
      omega
    | false =>
      simp only [hflag, Bool.false_eq_true, if_false] at hclock ⊢
      rw [UInt64.toNat_add, hcnt]
      omega

theorem Inv.irqHandler (h : Inv arr s) (c : Channel) {its : Option RxFifo0ITs}
    (hits : its.all RxFifo0ITs.notified = true) : Inv arr (s.irqHandler arr c its) := by
  have hsample := h.getTimestamp
  have hrecent : (s.getTimestamp arr).toNat < clockEnd := by
    have hnow := h.now_lt
    unfold CanDriver.sampleTime at hsample
    split at hsample
    · omega
    · omega
  have hd := h.setDriver (c := c) (d := { s.driver c with
      irqPending := false
      mostRecentInterruptTimestamp := s.getTimestamp arr
      interrupt := s.now
      betweenUpdates := decide (s.timer = .flagCleared) })
    ⟨(h.drivers c).stamped, hrecent, hsample⟩
  unfold CanAbs.irqHandler
  cases its with
  | none => exact hd
  | some its => exact hd.enter .can1 hits

theorem Inv.goTimer (h : Inv arr s) {p : TimerPoint} (hs : s.timer ≠ .flagCleared)
    (hp : p ≠ .flagCleared) : Inv arr { s with timer := p } := by
  refine ⟨?_, fun hcleared => absurd hcleared hp, h.now_lt, h.drivers, h.notified, h.computed⟩
  have hclock := h.clock
  unfold overflowed at hclock ⊢
  rw [decide_eq_false hs] at hclock
  rw [decide_eq_false hp]
  exact hclock

theorem Inv.timIrqHandler (h : Inv arr s) (hflag : s.updateFlag = true) :
    Inv arr s.timIrqHandler := by
  refine ⟨?_, fun _ => rfl, h.now_lt, h.drivers, h.notified, h.computed⟩
  have hclock := h.clock
  unfold overflowed at hclock
  rw [hflag, Bool.true_or] at hclock
  exact hclock

theorem Inv.timInterruptCallback (h : Inv arr s) (hcleared : s.timer = .flagCleared) :
    Inv arr (s.timInterruptCallback arr) := by
  refine ⟨?_, nofun, h.now_lt, h.drivers, h.notified, h.computed⟩
  have hclock := h.clock
  have hnow := h.now_lt
  have hflag := h.exclusive hcleared
  simp only [clockEnd] at hnow
  unfold overflowed at hclock ⊢
  unfold CanAbs.timInterruptCallback
  simp only [hflag, hcleared, decide_true, Bool.or_true, if_true] at hclock
  simp only [hflag, reduceCtorEq, decide_false, Bool.or_false, Bool.false_eq_true, if_false]
  rw [UInt64.toNat_add]
  omega

theorem Inv.checkPeriod (h : Inv arr s) (hs : s.timer ≠ .flagCleared) :
    Inv arr (s.checkPeriod arr) := by
  unfold CanAbs.checkPeriod
  simp only
  split
  · exact h.goTimer hs nofun
  · exact h.goTimer hs nofun

theorem Inv.setPending (h : Inv arr s) (hs : s.timer ≠ .flagCleared) (any : Bool) :
    Inv arr (s.setPending any) := by
  have hidle : Inv arr { s with timer := .idle } := h.goTimer hs nofun
  unfold CanAbs.setPending
  simp only
  split
  · exact hidle
  · split
    · exact hidle.setDriver (d := { s.can1 with irqPending := true })
        ⟨(h.drivers .can1).stamped, (h.drivers .can1).recent, (h.drivers .can1).sampled⟩ .can1
    · exact hidle

theorem Inv.readFrame (h : Inv arr s) {i : Isr} (hi : i ∈ s.isr) (hal : HalRead) :
    Inv arr (s.readFrame arr i hal) := by
  have hits := h.notified i hi
  have hd := h.setDriver (h.drivers i.channel).readFrame i.channel (d :=
    ((s.driver i.channel).readFrame i.channel (getTimerPeriod arr) i.its hal).1)
  have hisr (n : Nat) : ∀ j ∈ some { i with framesProcessed := n }, j.its.notified = true := by
    intro j hj
    obtain rfl := Option.some.inj hj
    exact hits
  unfold CanAbs.readFrame
  simp only
  split
  · next frame hout =>
    refine ⟨hd.clock, hd.exclusive, hd.now_lt, hd.drivers, hisr _, ?_⟩
    obtain ⟨m, arrival, htake, hreads⟩ := CanDriver.readFrame_stored hits hout
    rw [htake]
    intro f hf
    rcases List.mem_append.mp hf with hf | hf
    · exact hd.computed f hf
    · obtain rfl := List.mem_singleton.mp hf
      apply (h.drivers i.channel).timestamp_eq _ hreads
      exact List.mem_of_mem_take (htake ▸ List.mem_singleton_self _)
  · exact ⟨hd.clock, hd.exclusive, hd.now_lt, hd.drivers, hisr _, hd.computed⟩
  · apply Inv.leave _ hits
    exact ⟨hd.clock, hd.exclusive, hd.now_lt, hd.drivers, hd.notified, hd.computed⟩

theorem Inv.wait (h : Inv arr s) (hw : s.canWait arr n = true) : Inv arr { s with
    now := s.now + n
    updateFlag := s.updateFlag || decide
      (s.now / (getTimerPeriod arr).toNat < (s.now + n) / (getTimerPeriod arr).toNat) } := by
  simp only [canWait, Bool.and_eq_true, decide_eq_true_eq] at hw
  obtain ⟨hlt, hover⟩ := hw
  have hclock := h.clock
  have hnow := Nat.div_add_mod s.now (getTimerPeriod arr).toNat
  have hlater := Nat.div_add_mod (s.now + n) (getTimerPeriod arr).toNat
  have hle : s.now / (getTimerPeriod arr).toNat ≤ (s.now + n) / (getTimerPeriod arr).toNat :=
    Nat.div_le_div_right (Nat.le_add_right ..)
  cases hpassed : s.overflowed with
  | true =>
    rw [hpassed, if_pos rfl] at hclock hover
    have hsame : (s.now + n) / (getTimerPeriod arr).toNat = s.now / (getTimerPeriod arr).toNat :=
      Nat.le_antisymm hover hle
    have hflag : decide (s.now / (getTimerPeriod arr).toNat <
        (s.now + n) / (getTimerPeriod arr).toNat) = false := by
      rw [hsame]
      exact decide_eq_false (Nat.lt_irrefl _)
    rw [hflag, Bool.or_false]
    refine ⟨?_, h.exclusive, hlt, h.drivers, h.notified, h.computed⟩
    show s.time.toNat + (if s.overflowed then (getTimerPeriod arr).toNat else 0) +
      (s.now + n) % (getTimerPeriod arr).toNat = s.now + n
    rw [hpassed, if_pos rfl]
    rw [hsame] at hlater
    omega
  | false =>
    rw [hpassed, if_neg Bool.false_ne_true] at hclock hover
    obtain ⟨hflag, hidle⟩ := Bool.or_eq_false_iff.mp hpassed
    refine ⟨?_, fun hcleared => absurd hcleared (of_decide_eq_false hidle), hlt, h.drivers,
      h.notified, h.computed⟩
    unfold overflowed
    simp only [hflag, hidle, Bool.false_or, Bool.or_false, decide_eq_true_eq]
    split
    · next hpast =>
      rw [Nat.le_antisymm hover hpast, Nat.mul_succ] at hlater
      omega
    · next hnot =>
      rw [Nat.le_antisymm (Nat.not_lt.mp hnot) hle] at hlater
      omega

theorem step_inv {e : CanEvent} (h : Inv arr s) (hs : step arr s e = some t) : Inv arr t := by
  cases e with
  | wait n =>
    simp only [step] at hs
    split at hs
    · next hw =>
      cases hs
      exact h.wait hw
    · contradiction
  | arrive c m =>
    cases hs
    exact h.setDriver ((h.drivers c).arrive s.now m) c
  | clearFlag =>
    obtain ⟨hc, ⟨⟩⟩ := Option.ite_none_right_eq_some.mp hs
    simp only [Bool.and_eq_true] at hc
    exact h.timIrqHandler hc.1.2
  | addPeriod =>
    obtain ⟨hc, ⟨⟩⟩ := Option.ite_none_right_eq_some.mp hs
    simp only [Bool.and_eq_true, decide_eq_true_eq] at hc
    exact h.timInterruptCallback hc.2
  | checkPeriod =>
    obtain ⟨hc, ⟨⟩⟩ := Option.ite_none_right_eq_some.mp hs
    simp only [Bool.and_eq_true, decide_eq_true_eq] at hc
    exact h.checkPeriod (hc.2 ▸ nofun)
  | checkFrames =>
    obtain ⟨hc, ⟨⟩⟩ := Option.ite_none_right_eq_some.mp hs
    simp only [Bool.and_eq_true, decide_eq_true_eq] at hc
    exact h.goTimer (hc.2 ▸ nofun) nofun
  | setPending =>
    simp only [step] at hs
    split at hs
    · next hpoint =>
      obtain ⟨-, ⟨⟩⟩ := Option.ite_none_right_eq_some.mp hs
      exact h.setPending (hpoint ▸ nofun) _
    · contradiction
  | interrupt c its =>
    simp only [step] at hs
    split at hs
    · next hc =>
      cases hs
      simp only [Bool.and_eq_true] at hc
      exact h.irqHandler c hc.2
    · contradiction
  | read hal =>
    obtain ⟨i, hi, hs⟩ := Option.bind_eq_some_iff.mp hs
    split at hs
    · cases hs
      exact h.readFrame hi hal
    · contradiction
  | leave =>
    obtain ⟨i, hi, hs⟩ := Option.bind_eq_some_iff.mp hs
    split at hs
    · contradiction
    · cases hs
      exact h.leave (h.notified i hi)
  | receive c =>
    simp only [step] at hs
    split at hs
    · obtain ⟨r, -, rfl⟩ := Option.map_eq_some_iff.mp hs
      exact h.setDriver (d := { s.driver c with rxRingBuffer := r.2 })
        ⟨(h.drivers c).stamped, (h.drivers c).recent, (h.drivers c).sampled⟩ c
    · contradiction

theorem run_inv {es : List CanEvent} (h : Step.run (step arr) boot es = some s) : Inv arr s :=
  Step.run_invariant step_inv Inv.boot h

/-- The stored timestamps are right exactly if each was computed from an interrupt of its own
channel close to the frame's arrival, which was not between the updates of flag and time. -/
theorem timestamps_right_iff {es : List CanEvent} (h : Step.run (step arr) boot es = some s) :
    (∀ f ∈ s.stored, f.Right) ↔ ∀ f ∈ s.stored, f.Close arr :=
  forall₂_congr fun f hf => ((run_inv h).computed f hf).right_iff

def plainFrame : RxMessage where
  header := ⟨0x123, false, .data, ⟨0, by decide⟩, false, false, false, 0⟩
  data := .replicate 64 0

def halOk : HalRead := ⟨.zero, true, true⟩

def polled : List CanEvent :=
  [.wait 63990, .arrive .can1 plainFrame, .wait 10, .clearFlag, .addPeriod, .checkPeriod,
    .checkFrames, .setPending, .interrupt .can1 (some ⟨true, false⟩), .read halOk]

theorem timestamps_right_iff_poll : ∃ s, Step.run (step 63999) boot polled = some s ∧
    s.stored.length = 1 ∧ ((∀ f ∈ s.stored, f.Right) ↔ ∀ f ∈ s.stored, f.Close 63999) := by
  have h : (Step.run (step 63999) boot polled).any (fun s => s.stored.length = 1) = true := by
    decide +kernel
  obtain ⟨s, hs, h⟩ := (Option.any_eq_true ..).mp h
  exact ⟨s, hs, of_decide_eq_true h, timestamps_right_iff hs⟩

/-- A frame on CAN2 waits alone; 40 ms after the start a burst on CAN1 drains it. -/
def burstOnCan1 : List CanEvent :=
  [.wait 40000, .arrive .can2 plainFrame] ++
    List.replicate fdcanIrqRxWatermark (.arrive .can1 plainFrame) ++
    [.interrupt .can1 (some ⟨true, false⟩)] ++
    List.replicate fdcanIrqRxWatermark (.read halOk) ++ [.leave, .read halOk]

theorem burst_misdates_can2 : ∃ s, Step.run (step 63999) boot burstOnCan1 = some s ∧
    ∃ f ∈ s.stored, f.frame.channel = 2 ∧ f.arrival = 40000 ∧ f.frame.timestamp = 4294943296 ∧
      ¬f.Right := by
  have h : (Step.run (step 63999) boot burstOnCan1).any (fun s => s.stored.any fun f =>
      f.frame.channel = 2 ∧ f.arrival = 40000 ∧ f.frame.timestamp = 4294943296) = true := by
    decide +kernel
  obtain ⟨s, hs, h⟩ := (Option.any_eq_true ..).mp h
  obtain ⟨f, hf, h⟩ := List.any_eq_true.mp h
  obtain ⟨hc, ha, ht⟩ := of_decide_eq_true h
  refine ⟨s, hs, f, hf, hc, ha, ht, ?_⟩
  rw [StoredFrame.Right, ha, ht]
  decide

end CanAbs

end CanSniffer.Drivers
