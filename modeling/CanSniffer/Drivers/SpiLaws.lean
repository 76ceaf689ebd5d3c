import CanSniffer.Drivers.Spi

namespace CanSniffer.Drivers

open Lib RingBuffer

def SpiBin.prio : SpiBin → Nat
  | .low => 0
  | .medium => 1

theorem CommCode.value_ne_zero {code : CommCode} (h : code ≠ .success) : code.value ≠ 0 := by
  cases code <;> simp_all [CommCode.value]

namespace SpiTransaction

def byteAfter (t : SpiTransaction) (answer : Nat → HalByte) : Nat → UInt8
  | 0 => (answer 0).after t.token
  | r + 1 => (answer (r + 1)).after (t.byteAfter answer r)

/-- Exchange `r` is the one at which the exit condition ends the loop. -/
structure EndsAt (t : SpiTransaction) (answer : Nat → HalByte) (r : Nat) : Prop where
  lt : r < t.tries
  exit : t.pollExit (t.byteAfter answer r) = true
  first : ∀ j, j < r → t.pollExit (t.byteAfter answer j) = false

theorem pollByteLoop_eq (t : SpiTransaction) (answer : Nat → HalByte) (fuel retries : Nat)
    (byte : UInt8) (hnext : (answer retries).after byte = t.byteAfter answer retries)
    (hfirst : ∀ j, j < retries → t.pollExit (t.byteAfter answer j) = false)
    (hfuel : retries + fuel = t.tries) (hpos : 0 < fuel) :
    (∃ r, t.EndsAt answer r ∧ t.pollByteLoop answer fuel retries byte = (t.byteAfter answer r, 0)) ∨
      (∀ r, ¬ t.EndsAt answer r) ∧ (t.pollByteLoop answer fuel retries byte).2 = 1 ∧
        t.pollExit (t.pollByteLoop answer fuel retries byte).1 = false := by
  induction fuel generalizing retries byte with
  | zero => omega
  | succ fuel ih =>
    rw [pollByteLoop, hnext]
    cases hexit : t.pollExit (t.byteAfter answer retries) with
    | true =>
      refine .inl ⟨retries, ⟨by omega, hexit, hfirst⟩, ?_⟩
      simp
    | false =>
      have hfirst' : ∀ j, j < retries + 1 → t.pollExit (t.byteAfter answer j) = false := by
        intro j hj
        rcases Nat.lt_succ_iff_lt_or_eq.mp hj with hj | rfl
        · exact hfirst j hj
        · exact hexit
      rw [if_neg Bool.false_ne_true]
      cases fuel with
      | zero =>
        refine .inr ⟨?_, rfl, hexit⟩
        intro r hr
        have hlt := hr.lt
        have := hr.exit.symm.trans (hfirst' r (by omega))
        cases this
      | succ fuel => exact ih (retries + 1) _ rfl hfirst' (by omega) (by omega)

theorem pollByte_cases (t : SpiTransaction) (answer : Nat → HalByte) :
    (∃ r, t.EndsAt answer r ∧ t.pollByte answer = (t.byteAfter answer r, 0)) ∨
      (∀ r, ¬ t.EndsAt answer r) ∧ (t.pollByte answer).2 = 1 ∧
        t.pollExit (t.pollByte answer).1 = false :=
  t.pollByteLoop_eq answer t.tries 0 t.token rfl (by simp) (by simp)
    (Nat.lt_of_lt_of_le Nat.one_pos (Nat.le_max_left ..))

theorem EndsAt.unique {t : SpiTransaction} {answer : Nat → HalByte} {r q : Nat}
    (hr : t.EndsAt answer r) (hq : t.EndsAt answer q) : r = q := by
  rcases Nat.lt_trichotomy r q with h | h | h
  · exact absurd (hq.first r h) (by simp [hr.exit])
  · exact h
  · exact absurd (hr.first q h) (by simp [hq.exit])

theorem pollByte_of_endsAt {t : SpiTransaction} {answer : Nat → HalByte} {r : Nat}
    (h : t.EndsAt answer r) : t.pollByte answer = (t.byteAfter answer r, 0) := by
  rcases t.pollByte_cases answer with ⟨q, hq, heq⟩ | ⟨hno, -⟩
  · rwa [h.unique hq]
  · exact absurd h (hno r)

def AllReceived (answer : Nat → HalByte) (r : Nat) : Prop :=
  ∀ j, j ≤ r → ∃ b, answer j = .received b

def Received (t : SpiTransaction) (h : HalAnswers) (bytes : List UInt8) : Prop :=
  match t.direction with
  | .txOnly => h.res = .ok ∧ (t.usePoll = true ∨ h.issued = .complete) ∧ bytes = []
  | .rxOnly | .txRx =>
    h.res = .ok ∧ (t.usePoll = true ∨ h.issued = .complete) ∧
      bytes = (List.range t.length.toNat).map h.rx
  | .pollByte =>
    ∃ r, t.EndsAt h.byte r ∧ AllReceived h.byte r ∧ bytes = [t.byteAfter h.byte r]
  | .other => False

/-- `calls` is the one run of the transaction's callback, with its own context, a status that
tells whether the transfer took place, and the bytes it brought in. -/
def Served (t : SpiTransaction) (h : HalAnswers) (calls : List Completion) : Prop :=
  match t.callback with
  | none => calls = []
  | some callback =>
    ∃ status data, calls = [⟨callback, t.context, status, data⟩] ∧
      (status = 0 ↔ ∃ bytes, t.Received h bytes) ∧ ∀ bytes, t.Received h bytes → data = bytes

/-- The transfer leaves by a path that looks the receive slot up and tells the truth. -/
def Completes (t : SpiTransaction) (h : HalAnswers) : Prop :=
  match t.direction with
  | .other => False
  | .pollByte => t.callback = none ∨ ∀ r, t.EndsAt h.byte r → AllReceived h.byte r
  | .txOnly =>
    if t.usePoll then t.callback = none ∨ h.res ≠ .ok ∨ t.length = 0
    else
      (h.res = .ok ∨ h.res = .busy) ∧ h.issued ≠ .timeout ∧
        (t.callback = none ∨ h.res = .ok ∧ h.issued = .complete ∧ t.length = 0)
  | .rxOnly =>
    t.usePoll = true ∨ (h.res = .ok ∨ h.res = .busy) ∧ h.issued ≠ .timeout ∧
      (t.callback = none ∨ h.res = .ok ∧ h.issued = .complete)
  | .txRx =>
    t.usePoll = true ∨ (h.res = .ok ∨ h.res = .busy) ∧
      (t.callback = none ∨ h.issued = .timeout ∨ h.res = .ok ∧ h.issued = .complete)

/-- What reaches the receive slot's owner: the error flag and the slot's bytes, where `stale` is
what the slot held before. -/
def delivery (t : SpiTransaction) (h : HalAnswers) (stale : Nat → UInt8) :
    Option (UInt8 × List UInt8) :=
  let polledStatus : UInt8 := if h.res.toComm ≠ .success then 1 else 0
  let own := (List.range t.length.toNat).map h.rx
  let old := (List.range t.length.toNat).map stale
  let started := h.res = .ok ∨ h.res = .busy
  match t.direction with
  | .other => none
  | .pollByte => some ((t.pollByte h.byte).2, [(t.pollByte h.byte).1])
  | .txOnly =>
    if t.usePoll then some (polledStatus, old)
    else if started ∧ h.issued ≠ .timeout then some (0, old) else none
  | .rxOnly =>
    if t.usePoll then some (polledStatus, own)
    else if started ∧ h.issued ≠ .timeout then some (0, own) else none
  | .txRx =>
    if t.usePoll then some (polledStatus, own)
    else if ¬ started then none
    else if h.issued = .timeout then some (1, old) else some (0, own)

theorem served_complete {t : SpiTransaction} {h : HalAnswers} {status : UInt8}
    {data : List UInt8} :
    t.Served h (t.complete status data) ↔
      (t.callback = none ∨ (status = 0 ↔ ∃ bytes, t.Received h bytes) ∧
        ∀ bytes, t.Received h bytes → data = bytes) := by
  rw [Served, complete]
  cases t.callback with
  | none => simp
  | some callback => simp

theorem completes_iff (t : SpiTransaction) (h : HalAnswers) (stale : Nat → UInt8) :
    t.Completes h ↔
      ∃ status data, t.delivery h stale = some (status, data) ∧
        t.Served h (t.complete status data) := by
  simp only [served_complete]
  cases hdir : t.direction with
  | other => simp [Completes, delivery, hdir]
  | pollByte =>
    simp only [Completes, delivery, Received, hdir, Option.some.injEq, Prod.mk.injEq]
    rcases t.pollByte_cases h.byte with ⟨r, hr, heq⟩ | ⟨hno, herr, -⟩
    · have hall : ∀ q, t.EndsAt h.byte q → q = r := fun q hq => hq.unique hr
      rw [heq]
      constructor
      · rintro hfine
        refine ⟨0, [t.byteAfter h.byte r], ⟨rfl, rfl⟩, hfine.imp_right fun hfine => ⟨?_, ?_⟩⟩
        · exact iff_of_true rfl ⟨_, r, hr, hfine r hr, rfl⟩
        · rintro bytes ⟨q, hq, -, rfl⟩
          rw [hall q hq]
      · rintro ⟨status, data, ⟨rfl, rfl⟩, hserved⟩
        refine hserved.imp_right ?_
        rintro ⟨hstatus, -⟩ q hq
        obtain ⟨_, p, hp, hreceived, -⟩ := hstatus.mp rfl
        rwa [hall q hq, ← hall p hp]
    · have hfail : ¬ ∃ bytes r, t.EndsAt h.byte r ∧ AllReceived h.byte r ∧
          bytes = [t.byteAfter h.byte r] := by
        rintro ⟨_, r, hr, -⟩
        exact hno r hr
      refine iff_of_true (.inr fun r hr => absurd hr (hno r)) ⟨_, _, ⟨rfl, rfl⟩, .inr ⟨?_, ?_⟩⟩
      · rw [herr]
        exact iff_of_false (by decide) hfail
      · intro bytes hbytes
        exact absurd ⟨bytes, hbytes⟩ hfail
  | txOnly =>
    simp only [Completes, delivery, Received, hdir]
    cases t.usePoll <;> cases h.res <;> cases h.issued <;>
      simp [HalStatus.toComm, ← UInt16.toNat_inj]
  | rxOnly =>
    simp only [Completes, delivery, Received, hdir]
    cases t.usePoll <;> cases h.res <;> cases h.issued <;>
      simp [HalStatus.toComm]
  | txRx =>
    simp only [Completes, delivery, Received, hdir]
    cases t.usePoll <;> cases h.res <;> cases h.issued <;>
      simp [HalStatus.toComm]

end SpiTransaction

namespace SpiDriver

def queue (s : SpiDriver) (b : SpiBin) : List SpiSlot := (s.tx b).toList

def RxEmpty (s : SpiDriver) : Prop := ∀ b, (s.rx b).toList = []

@[simp] theorem setTx_tx (s : SpiDriver) (b : SpiBin) (rb : RingBuffer SpiSlot spiSlotCount) :
    (s.setTx b rb).tx = Function.update s.tx b rb := rfl

@[simp] theorem setTx_rx (s : SpiDriver) (b : SpiBin) (rb : RingBuffer SpiSlot spiSlotCount) :
    (s.setTx b rb).rx = s.rx := rfl

@[simp] theorem setRx_tx (s : SpiDriver) (b : SpiBin) (rb : RingBuffer SpiSlot spiSlotCount) :
    (s.setRx b rb).tx = s.tx := rfl

@[simp] theorem setRx_rx (s : SpiDriver) (b : SpiBin) (rb : RingBuffer SpiSlot spiSlotCount) :
    (s.setRx b rb).rx = Function.update s.rx b rb := rfl

variable {rings : SpiBin → RingBuffer SpiSlot spiSlotCount}

theorem highest_eq (rings : SpiBin → RingBuffer SpiSlot spiSlotCount) :
    highest rings =
      if (rings .medium).elementCount ≠ 0 then some .medium
      else if (rings .low).elementCount ≠ 0 then some .low else none := by
  have hprio : [spiPriorityN - 1, spiPriorityN - 2, spiPriorityN - 3].map SpiBin.ofPriority =
      [none, some .medium, some .low] := by decide
  simp only [List.map_cons, List.map_nil, List.cons.injEq, and_true] at hprio
  simp only [highest, List.findSome?_cons, List.findSome?_nil, hprio.1, hprio.2.1, hprio.2.2,
    Option.filter_none, Option.filter_some]
  by_cases hm : (rings .medium).elementCount = 0 <;>
    by_cases hl : (rings .low).elementCount = 0 <;> simp [hm, hl]

theorem highest_eq_none : highest rings = none ↔ ∀ b, (rings b).toList = [] := by
  have hall : (∀ b, (rings b).toList = []) ↔
      (rings .medium).elementCount = 0 ∧ (rings .low).elementCount = 0 := by
    simp only [toList_eq_nil]
    exact ⟨fun h => ⟨h _, h _⟩, fun h b => by cases b; exacts [h.2, h.1]⟩
  rw [hall, highest_eq]
  by_cases hm : (rings .medium).elementCount = 0 <;>
    by_cases hl : (rings .low).elementCount = 0 <;> simp [hm, hl]

theorem highest_eq_some {b : SpiBin} :
    highest rings = some b ↔
      (rings b).toList ≠ [] ∧ ∀ b', b.prio < b'.prio → (rings b').toList = [] := by
  simp only [toList_ne_nil, toList_eq_nil]
  have hall : (∀ b', b.prio < b'.prio → (rings b').elementCount = 0) ↔
      (b = .low → (rings .medium).elementCount = 0) := by
    constructor
    · rintro h rfl
      exact h .medium (by decide)
    · intro h b' hlt
      cases b <;> cases b' <;> simp_all [SpiBin.prio]
  rw [hall, highest_eq]
  cases b <;> by_cases hm : (rings .medium).elementCount = 0 <;>
    by_cases hl : (rings .low).elementCount = 0 <;> simp [hm, hl]

structure Holds (s : SpiDriver) (p : SpiPending) (slot : SpiSlot) : Prop where
  only : (s.rx p.bin).toList = [slot]
  tail : (s.rx p.bin).tail = p.rxSlot
  others : ∀ b, b ≠ p.bin → (s.rx b).toList = []
  transaction : slot.transaction = p.transaction

variable {s : SpiDriver} {p : SpiPending} {slot : SpiSlot} {h : HalAnswers}

theorem Holds.modify (hs : s.Holds p slot) (f : SpiSlot → SpiSlot)
    (hf : (f slot).transaction = slot.transaction) :
    (s.setRx p.bin ((s.rx p.bin).modify p.rxSlot f)).Holds p (f slot) := by
  refine ⟨?_, ?_, ?_, hf.trans hs.transaction⟩
  · rw [setRx_rx, Function.update_self, ← hs.tail]
    exact toList_modify_tail f hs.only
  · simpa using hs.tail
  · intro b hb
    simpa [hb] using hs.others b hb

/-- The receive slot was looked up and released, and `calls` are the callbacks that ran. -/
structure Released (s : SpiDriver) (r : SpiDriver × List Completion) (calls : List Completion) :
    Prop where
  tx : r.1.tx = s.tx
  rx : r.1.RxEmpty
  calls : r.2 = calls

theorem Holds.notify (hs : s.Holds p slot) (err : UInt8) :
    s.Released (s.notifyRxData err) (slot.complete err) := by
  have hhigh : highest s.rx = some p.bin := by
    refine highest_eq_some.mpr ⟨by simp [hs.only], ?_⟩
    rintro b hlt
    exact hs.others b fun heq => by simp [heq] at hlt
  obtain ⟨hpeek, hslot⟩ := peekAt_zero hs.only
  simp only [notifyRxData, hhigh, hpeek, hslot]
  refine ⟨rfl, ?_, rfl⟩
  intro b
  by_cases hb : b = p.bin
  · subst hb
    simp [hs.only]
  · simpa [hb] using hs.others b hb

theorem Holds.store (hs : s.Holds p slot) (len : Nat) (bytes : Nat → UInt8) :
    (s.store p len bytes).Holds p
      { slot with data := fun k => if k < len then bytes k else slot.data k } :=
  hs.modify _ rfl

theorem Holds.notify_old (hs : s.Holds p slot) (hlen : slot.usedLen = p.transaction.length)
    (err : UInt8) :
    s.Released (s.notifyRxData err)
      (p.transaction.complete err ((List.range p.transaction.length.toNat).map slot.data)) := by
  have hnotify := hs.notify err
  rwa [SpiSlot.complete, hlen, hs.transaction] at hnotify

theorem Holds.notify_own (hs : s.Holds p slot) (hlen : slot.usedLen = p.transaction.length)
    (bytes : Nat → UInt8) (err : UInt8) :
    s.Released ((s.store p p.transaction.length.toNat bytes).notifyRxData err)
      (p.transaction.complete err ((List.range p.transaction.length.toNat).map bytes)) := by
  have hnotify := (hs.store p.transaction.length.toNat bytes).notify_old hlen err
  have hown : ((List.range p.transaction.length.toNat).map fun k =>
      if k < p.transaction.length.toNat then bytes k else slot.data k) =
      (List.range p.transaction.length.toNat).map bytes := by
    apply List.map_congr_left
    intro k hk
    rw [if_pos (List.mem_range.mp hk)]
  rw [hown] at hnotify
  exact ⟨hnotify.tx, hnotify.rx, hnotify.calls⟩

theorem Holds.pollBytes (hs : s.Holds p slot) :
    s.Released (s.pollBytes p h)
      (p.transaction.complete (p.transaction.pollByte h.byte).2
        [(p.transaction.pollByte h.byte).1]) := by
  have hnotify := (hs.modify (fun slot =>
    { slot with
      data := Function.update slot.data 0 (p.transaction.pollByte h.byte).1
      usedLen := 1 }) rfl).notify (p.transaction.pollByte h.byte).2
  refine ⟨hnotify.tx, hnotify.rx, ?_⟩
  rw [SpiDriver.pollBytes, hnotify.calls, SpiSlot.complete, hs.transaction]
  simp [List.range_succ]

theorem Holds.transfer (hs : s.Holds p slot) (hlen : slot.usedLen = p.transaction.length)
    (h : HalAnswers) :
    match p.transaction.delivery h slot.data with
    | none => s.transfer p h = (s, [])
    | some (status, data) =>
      s.Released (s.transfer p h) (p.transaction.complete status data) := by
  have hold := hs.notify_old hlen
  have hown := hs.notify_own hlen h.rx
  cases hdir : p.transaction.direction with
  | other => simp [SpiTransaction.delivery, SpiDriver.transfer, hdir]
  | pollByte =>
    simp only [SpiTransaction.delivery, SpiDriver.transfer, hdir]
    exact hs.pollBytes
  | txOnly =>
    simp only [SpiTransaction.delivery, SpiDriver.transfer, hdir, polled, sendDma, dma]
    cases p.transaction.usePoll <;> cases h.res <;> cases h.issued <;>
      simp [hold, HalStatus.toComm]
  | rxOnly =>
    simp only [SpiTransaction.delivery, SpiDriver.transfer, hdir, polled, receiveDma, dma]
    cases p.transaction.usePoll <;> cases h.res <;> cases h.issued <;>
      simp [hown, HalStatus.toComm]
  | txRx =>
    simp only [SpiTransaction.delivery, SpiDriver.transfer, hdir, polled, sendReceiveMsg, dma]
    cases p.transaction.usePoll <;> cases h.res <;> cases h.issued <;>
      simp [hold, hown, HalStatus.toComm]

structure Begun (s : SpiDriver) (p : SpiPending) (t : SpiDriver) (slot : SpiSlot)
    (rest : List SpiSlot) : Prop where
  queue : s.queue p.bin = slot :: rest
  highest : ∀ b, p.bin.prio < b.prio → s.queue b = []
  transaction : p.transaction = slot.transaction
  tx : t.tx = s.tx
  holds : ∃ rxSlot, t.Holds p rxSlot ∧ rxSlot.usedLen = p.transaction.length

theorem pollBegin_cases (hrx : s.RxEmpty) :
    (∀ b, s.queue b = []) ∧ s.pollBegin = none ∨
      ∃ p t slot rest, s.pollBegin = some (p, t) ∧ s.Begun p t slot rest := by
  cases hhigh : SpiDriver.highest s.tx with
  | none => exact .inl ⟨highest_eq_none.mp hhigh, by simp [pollBegin, hhigh]⟩
  | some b =>
    obtain ⟨hne, habove⟩ := highest_eq_some.mp hhigh
    obtain ⟨slot, rest, hq⟩ := List.exists_cons_of_ne_nil hne
    obtain ⟨hpeek, hslot⟩ := peekAt_zero hq
    cases hres : (s.rx b).reserve with
    | none =>
      have hfull := (isFull_iff _).mp (reserve_eq_none.mp hres)
      rw [toList_eq_nil.mp (hrx b)] at hfull
      cases hfull
    | some r =>
      obtain ⟨i, rb⟩ := r
      refine .inr ⟨⟨b, slot.transaction, i⟩, s.setRx b (rb.modify i fun reserved =>
        { reserved with transaction := slot.transaction, usedLen := slot.transaction.length }),
        slot, rest, ?_, hq, habove, rfl, rfl, ?_⟩
      · simp only [pollBegin, hhigh, hpeek, hres, Option.bind_some, Option.map_some, hslot]
      · refine ⟨{ (s.rx b).slots i with
          transaction := slot.transaction, usedLen := slot.transaction.length },
          ⟨?_, ?_, ?_, rfl⟩, rfl⟩
        · rw [setRx_rx, Function.update_self, toList_modify_reserve _ hres, hrx b,
            List.nil_append]
        · simpa using tail_of_reserve (hrx b) hres
        · intro b' hb'
          simpa [hb'] using hrx b'

theorem pollEnd_queue {first : SpiSlot} {rest : List SpiSlot} (hq : s.queue p.bin = first :: rest)
    (htx : (s.transfer p h).1.tx = s.tx) :
    (s.pollEnd p h).1.queue p.bin = rest ∧
      ∀ b, b ≠ p.bin → (s.pollEnd p h).1.queue b = s.queue b := by
  have hq' : (s.tx p.bin).toList = first :: rest := hq
  constructor
  · simp [SpiDriver.pollEnd, SpiDriver.queue, htx, hq']
  · intro b hne
    simp [SpiDriver.pollEnd, SpiDriver.queue, htx, hne]

theorem Holds.pollEnd {first : SpiSlot} {rest : List SpiSlot} {status : UInt8}
    {data : List UInt8} (hs : s.Holds p slot) (hlen : slot.usedLen = p.transaction.length)
    (hq : s.queue p.bin = first :: rest)
    (hd : p.transaction.delivery h slot.data = some (status, data)) :
    (s.pollEnd p h).1.RxEmpty ∧ (s.pollEnd p h).1.queue p.bin = rest ∧
      (∀ b, b ≠ p.bin → (s.pollEnd p h).1.queue b = s.queue b) ∧
      (s.pollEnd p h).2 = p.transaction.complete status data := by
  have htransfer := hs.transfer hlen h
  rw [hd] at htransfer
  obtain ⟨hrest, hothers⟩ := pollEnd_queue hq htransfer.tx
  exact ⟨htransfer.rx, hrest, hothers, htransfer.calls⟩

theorem Holds.of_rx_eq {t : SpiDriver} (hs : s.Holds p slot) (hrx : t.rx = s.rx) :
    t.Holds p slot := by
  refine ⟨?_, ?_, ?_, hs.transaction⟩
  · rw [hrx]
    exact hs.only
  · rw [hrx]
    exact hs.tail
  · rw [hrx]
    exact hs.others

/-- The poll takes the oldest transaction of the highest priority and nothing else, runs its
callback and no other, and leaves no receive slot behind. -/
structure PollOk (s : SpiDriver) (h : HalAnswers) : Prop where
  served : ∀ b slot rest, s.queue b = slot :: rest →
    (∀ b', b.prio < b'.prio → s.queue b' = []) →
    (s.poll h).1.queue b = rest ∧ (∀ b', b' ≠ b → (s.poll h).1.queue b' = s.queue b') ∧
      slot.transaction.Served h (s.poll h).2
  idle : (∀ b, s.queue b = []) → (s.poll h).2 = [] ∧ ∀ b, (s.poll h).1.queue b = []
  rx : (s.poll h).1.RxEmpty

/-- The transfer of the transaction that the poll takes, if any, leaves by a path that completes
it. -/
def PollCompletes (s : SpiDriver) (h : HalAnswers) : Prop :=
  ∀ b slot rest, s.queue b = slot :: rest → (∀ b', b.prio < b'.prio → s.queue b' = []) →
    slot.transaction.Completes h

theorem Begun.bin_eq {t : SpiDriver} {rest rest' : List SpiSlot} {slot' : SpiSlot} {b : SpiBin}
    (hb : s.Begun p t slot rest) (hq : s.queue b = slot' :: rest')
    (habove : ∀ b', b.prio < b'.prio → s.queue b' = []) : b = p.bin := by
  have hle : ¬ p.bin.prio < b.prio := fun hlt => by simp [hb.highest b hlt] at hq
  have hge : ¬ b.prio < p.bin.prio := fun hlt => by simpa [hb.queue] using habove _ hlt
  cases b <;> cases hbin : p.bin <;> simp_all [SpiBin.prio]

theorem Begun.pollCompletes_iff {t : SpiDriver} {rest : List SpiSlot}
    (hb : s.Begun p t slot rest) : s.PollCompletes h ↔ p.transaction.Completes h := by
  rw [hb.transaction]
  constructor
  · intro hC
    exact hC p.bin slot rest hb.queue hb.highest
  · intro hC b slot' rest' hq habove
    obtain rfl := hb.bin_eq hq habove
    rw [hb.queue] at hq
    cases hq
    exact hC

theorem Begun.poll_queue {t : SpiDriver} {rest : List SpiSlot} (hb : s.Begun p t slot rest)
    (hp : s.pollBegin = some (p, t)) (htx : (t.transfer p h).1.tx = t.tx) :
    (s.poll h).1.queue p.bin = rest ∧
      ∀ b, b ≠ p.bin → (s.poll h).1.queue b = s.queue b := by
  have hqueue : ∀ b, t.queue b = s.queue b := fun b => by
    simp only [SpiDriver.queue, hb.tx]
  have hpoll : s.poll h = t.pollEnd p h := by simp only [poll, hp]
  obtain ⟨hrest, hothers⟩ := pollEnd_queue ((hqueue p.bin).trans hb.queue) htx
  rw [hpoll]
  exact ⟨hrest, fun b hne => (hothers b hne).trans (hqueue b)⟩

theorem pollOk_iff (hrx : s.RxEmpty) : s.PollOk h ↔ s.PollCompletes h := by
  rcases s.pollBegin_cases hrx with ⟨hnone, hp⟩ | ⟨p, t, slot, rest, hp, hb⟩
  · have hpoll : s.poll h = (s, []) := by simp [poll, hp]
    refine iff_of_true ⟨?_, ?_, ?_⟩ ?_
    · intro b slot rest hq
      simp [hnone b] at hq
    · intro _
      simp [hpoll, hnone]
    · simpa [hpoll] using hrx
    · intro b slot rest hq
      simp [hnone b] at hq
  · obtain ⟨rxSlot, hholds, hlen⟩ := hb.holds
    rw [hb.pollCompletes_iff, p.transaction.completes_iff h rxSlot.data]
    have htransfer := hholds.transfer hlen h
    have hcalls : (s.poll h).2 = (t.transfer p h).2 := by simp [poll, hp, pollEnd]
    have hrxpoll : (s.poll h).1.rx = (t.transfer p h).1.rx := by simp [poll, hp, pollEnd]
    cases hd : p.transaction.delivery h rxSlot.data with
    | none =>
      rw [hd] at htransfer
      refine iff_of_false ?_ (by simp)
      intro hok
      have hempty := hok.rx p.bin
      rw [hrxpoll, htransfer, hholds.only] at hempty
      cases hempty
    | some d =>
      obtain ⟨status, data⟩ := d
      rw [hd] at htransfer
      obtain ⟨hrest, hothers⟩ := hb.poll_queue hp htransfer.tx
      constructor
      · intro hok
        refine ⟨status, data, rfl, ?_⟩
        have hserved := (hok.served p.bin slot rest hb.queue hb.highest).2.2
        rwa [hcalls, htransfer.calls, ← hb.transaction] at hserved
      · rintro ⟨_, _, heq, hserved⟩
        cases heq
        refine ⟨?_, ?_, ?_⟩
        · intro b slot' rest' hq habove
          obtain rfl := hb.bin_eq hq habove
          rw [hb.queue] at hq
          cases hq
          rw [hcalls, htransfer.calls, ← hb.transaction]
          exact ⟨hrest, hothers, hserved⟩
        · intro hnone
          simpa [hb.queue] using hnone p.bin
        · intro b
          rw [hrxpoll]
          exact htransfer.rx b

/-- The transactions of each bin in the order `SPI_Send` accepted and `SPI_Poll` took them. -/
structure History where
  accepted : SpiBin → List SpiTransaction
  served : SpiBin → List SpiTransaction

def note (s : SpiDriver) : SpiEvent → History → History
  | .send msg, hist =>
    match (s.send msg).2, SpiBin.ofPriority msg.transaction.prio with
    | .success, some b =>
      { hist with
        accepted := Function.update hist.accepted b
          (hist.accepted b ++ [{ msg.transaction with length := msg.length.toUInt16 }]) }
    | _, _ => hist
  | .poll _, hist =>
    match s.pollBegin with
    | none => hist
    | some (p, _) =>
      { hist with
        served := Function.update hist.served p.bin (hist.served p.bin ++ [p.transaction]) }

theorem send_cases (s : SpiDriver) (msg : SpiMessage) :
    (∃ b slot, (s.send msg).2 = .success ∧ SpiBin.ofPriority msg.transaction.prio = some b ∧
      slot.transaction = { msg.transaction with length := msg.length.toUInt16 } ∧
      (s.send msg).1.queue b = s.queue b ++ [slot] ∧
      (∀ b', b' ≠ b → (s.send msg).1.queue b' = s.queue b') ∧ (s.send msg).1.rx = s.rx) ∨
    (s.send msg).2 ≠ .success ∧ (s.send msg).1 = s := by
  rw [send]
  split
  · exact .inr ⟨by simp, rfl⟩
  · rename_i b hb
    split
    · exact .inr ⟨by simp, rfl⟩
    split
    · exact .inr ⟨by simp, rfl⟩
    split
    · exact .inr ⟨by simp, rfl⟩
    split
    · exact .inr ⟨by simp, rfl⟩
    · rename_i i rb hres
      refine .inl ⟨b, ⟨msg.length.toUInt16, { msg.transaction with length := msg.length.toUInt16 },
        fun k => if k < msg.length.toNat then msg.payload k else ((s.tx b).slots i).data k⟩,
        rfl, hb, rfl, ?_, ?_, rfl⟩
      · rw [queue, setTx_tx, Function.update_self, toList_modify_reserve _ hres, queue]
      · intro b' hne
        simp [queue, hne]

@[simp] theorem notifyRxData_tx (s : SpiDriver) (err : UInt8) :
    (s.notifyRxData err).1.tx = s.tx := by
  rw [notifyRxData]
  split
  · rfl
  · split <;> rfl

@[simp] theorem store_tx (s : SpiDriver) (p : SpiPending) (len : Nat) (bytes : Nat → UInt8) :
    (s.store p len bytes).tx = s.tx := rfl

@[simp] theorem dma_tx (received reported : Bool) (s : SpiDriver) (p : SpiPending)
    (h : HalAnswers) : (s.dma received reported p h).1.tx = s.tx := by
  rw [dma]
  cases h.res <;> cases h.issued <;> cases received <;> cases reported <;> simp

@[simp] theorem polled_tx (received : Bool) (s : SpiDriver) (p : SpiPending) (h : HalAnswers) :
    (s.polled received p h).1.tx = s.tx := by
  cases received <;> simp [polled]

@[simp] theorem transfer_tx (s : SpiDriver) (p : SpiPending) (h : HalAnswers) :
    (s.transfer p h).1.tx = s.tx := by
  rw [transfer]
  cases p.transaction.direction <;> cases p.transaction.usePoll <;>
    simp [sendDma, receiveDma, sendReceiveMsg, pollBytes]

theorem pollBegin_queue {t : SpiDriver} (hp : s.pollBegin = some (p, t)) :
    t.tx = s.tx ∧ ∃ slot rest, s.queue p.bin = slot :: rest ∧ slot.transaction = p.transaction := by
  simp only [pollBegin, Option.bind_eq_some_iff, Option.map_eq_some_iff] at hp
  obtain ⟨b, hhigh, i, hpeek, r, -, heq⟩ := hp
  cases heq
  obtain ⟨slot, rest, hq⟩ := List.exists_cons_of_ne_nil (highest_eq_some.mp hhigh).1
  obtain ⟨hpeek', hslot⟩ := peekAt_zero hq
  obtain rfl := Option.some.inj (hpeek'.symm.trans hpeek)
  exact ⟨rfl, slot, rest, hq, congrArg SpiSlot.transaction hslot.symm⟩

def InOrder (s : SpiDriver) (hist : History) : Prop :=
  ∀ b, hist.accepted b = hist.served b ++ (s.queue b).map SpiSlot.transaction

theorem InOrder.step {t : SpiDriver} {e : SpiEvent} {hist : History} (hs : s.InOrder hist)
    (ht : s.step e = some t) : t.InOrder (s.note e hist) := by
  intro b
  cases e with
  | send msg =>
    obtain rfl : (s.send msg).1 = t := Option.some.inj ht
    rcases s.send_cases msg with ⟨b', slot, hcode, hbin, hslot, hq, hothers, -⟩ | ⟨hcode, hsame⟩
    · simp only [note, hcode, hbin]
      by_cases hb : b = b'
      · subst hb
        rw [Function.update_self, hs b, hq, List.map_append, List.append_assoc, ← hslot]
        rfl
      · rw [Function.update_of_ne hb, hs b, hothers b hb]
    · rw [hsame]
      simp only [note]
      split
      · rename_i hsuccess _
        exact absurd hsuccess hcode
      · exact hs b
  | poll h =>
    obtain rfl : (s.poll h).1 = t := Option.some.inj ht
    cases hp : s.pollBegin with
    | none => simpa [note, poll, hp] using hs b
    | some r =>
      obtain ⟨p, u⟩ := r
      obtain ⟨htx, slot, rest, hq, hslot⟩ := pollBegin_queue hp
      have hq' : (s.tx p.bin).toList = slot :: rest := hq
      simp only [note, poll, hp, pollEnd, SpiDriver.queue, setTx_tx, transfer_tx, htx]
      by_cases hb : b = p.bin
      · subst hb
        simpa [hq', hslot, SpiDriver.queue] using hs p.bin
      · simpa [hb, SpiDriver.queue] using hs b

/-- The state in which `SPI_Poll` finds and leaves the rings. -/
def PollsOk (s : SpiDriver) : SpiEvent → Prop
  | .send _ => True
  | .poll h => s.PollOk h

def PollsComplete (s : SpiDriver) : SpiEvent → Prop
  | .send _ => True
  | .poll h => s.PollCompletes h

theorem RxEmpty.step {t : SpiDriver} {e : SpiEvent} (hs : s.RxEmpty) (hok : s.PollsOk e)
    (ht : s.step e = some t) : t.RxEmpty := by
  cases e with
  | send msg =>
    obtain rfl : (s.send msg).1 = t := Option.some.inj ht
    rcases s.send_cases msg with ⟨-, -, -, -, -, -, -, hrx⟩ | ⟨-, hsame⟩
    · intro b
      rw [hrx]
      exact hs b
    · rwa [hsame]
  | poll h =>
    obtain rfl : (s.poll h).1 = t := Option.some.inj ht
    exact hok.rx

/-- In every run each poll completes the transaction it takes, and the transactions of a bin are
taken in the order accepted, exactly if every transfer leaves by a path that completes it. -/
theorem polls_complete_iff (slot : SpiSlot) (es : List SpiEvent) :
    (Step.Along SpiDriver.step PollsOk (init slot) es ∧
      ∀ t, Step.run SpiDriver.step (init slot) es = some t →
        t.InOrder (Step.record SpiDriver.step note (init slot) es ⟨fun _ => [], fun _ => []⟩)) ↔
    Step.Along SpiDriver.step PollsComplete (init slot) es := by
  have hempty : (init slot).RxEmpty := fun _ => rfl
  have horder : (init slot).InOrder ⟨fun _ => [], fun _ => []⟩ := fun _ => rfl
  have hcongr : Step.Along SpiDriver.step PollsOk (init slot) es ↔
      Step.Along SpiDriver.step PollsComplete (init slot) es := by
    refine Step.along_congr ?_ RxEmpty.step hempty
    intro s e hs
    cases e with
    | send msg => exact Iff.rfl
    | poll h => exact pollOk_iff hs
  rw [hcongr]
  refine and_iff_left ?_
  intro t hrun
  exact Step.run_record_invariant InOrder.step horder hrun

def exchange (context : Nat) : SpiEvent :=
  .send
    { payload := fun _ => 0xFF
      length := 1
      transaction :=
        { id := 1, timeout := 100, length := 0, direction := .txRx, prio := 0, maxRetries := 0
          token := 0, invert := false, usePoll := false, callback := some 7, context } }

def answered (res : HalStatus) : HalAnswers :=
  { res, issued := .complete, rx := fun _ => 0x05, byte := fun _ => .failed none }

/-- The DMA start of the first transaction fails; the second poll's transfer succeeds and runs
the first one's callback. -/
theorem completion_shifted :
    ¬ (∀ slot es, Step.Along SpiDriver.step PollsOk (init slot) es) ∧
      (Step.run SpiDriver.step (init ⟨0, ⟨0, 0, 0, .txRx, 0, 0, 0, false, false, none, 0⟩, fun _ => 0⟩)
        [exchange 1, .poll (answered .error), exchange 2]).map
          (fun s => (s.poll (answered .ok)).2) = some [⟨7, 1, 0, [0]⟩] := by
  refine ⟨?_, by decide⟩
  intro hall
  have hrun := hall ⟨0, ⟨0, 0, 0, .txRx, 0, 0, 0, false, false, none, 0⟩, fun _ => 0⟩
    [exchange 1, .poll (answered .error)]
  have hpoll : PollOk _ _ := (hrun.2 _ rfl).1
  have hempty := congrArg List.length (hpoll.rx .low)
  revert hempty
  decide

end SpiDriver

end CanSniffer.Drivers
