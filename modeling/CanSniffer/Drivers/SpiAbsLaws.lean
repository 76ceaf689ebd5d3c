import CanSniffer.Drivers.SpiAbs
import CanSniffer.Drivers.SpiLaws

namespace CanSniffer.Drivers

open Lib SpiDriver

namespace SpiAbsState

def contextsGone (s : SpiAbsState) : List Nat := s.returned.map CallReturn.context

/-- A call that returned 0 had its own transaction transferred without an error and the bytes
received copied to its buffer. -/
def SoundReturn (r : CallReturn) : Prop :=
  r.value = 0 → ∃ t h bytes, r.served = some (t, h) ∧ t.context = r.context ∧
    t.Received h bytes ∧ r.delivered = some bytes

/-- Every return is sound, and no callback ran with the context of a call that had returned. -/
def CallsSound (s : SpiAbsState) : Prop :=
  (∀ r ∈ s.returned, SoundReturn r) ∧ s.late = []

def Awaited (s : SpiAbsState) (context : Nat) : Prop := ∃ c, s.call = some (c, context)

/-- The polled transfer succeeds, the DMA starts, or the exchanges of the byte poll up to the one
that ends it succeed. -/
def GoesWell (t : SpiTransaction) (h : HalAnswers) : Prop :=
  match t.direction with
  | .pollByte => ∀ r, t.EndsAt h.byte r → SpiTransaction.AllReceived h.byte r
  | .txRx | .txOnly | .rxOnly | .other => h.res = .ok

/-- The task serves a call that still waits, and neither the HAL nor the DMA reports an error or
leaves the wait to another notification. -/
def Timely (s : SpiAbsState) : SpiAbsEvent → Prop
  | .serve h =>
    ∀ p t, s.drv.pollBegin = some (p, t) →
      s.Awaited p.transaction.context ∧ GoesWell p.transaction h
  | .wake _ =>
    ∀ p res, s.task = .issued p res →
      s.Awaited p.transaction.context ∧ res = .ok ∧ s.dma = .complete
  | .expire => s.task = .waiting
  | .call .. | .ret | .giveUp | .interrupt _ => True

variable {s t : SpiAbsState} {p : SpiPending} {h : HalAnswers} {c : SpiCall} {ctx : Nat}

def own (c : SpiCall) (ctx : Nat) (len : UInt16) : SpiTransaction :=
  { c.transaction ctx with length := len }

@[simp] theorem context_own (len : UInt16) : (own c ctx len).context = ctx := by
  cases c <;> rfl

theorem callback_own (len : UInt16) : ∃ callback, (own c ctx len).callback = some callback := by
  cases c <;> exact ⟨_, rfl⟩

theorem delivery_exchange {len : UInt16} (stale : Nat → UInt8)
    (hdir : (c.transaction ctx).direction = .txRx)
    (hres : h.res = .ok) (hdma : startsDma (own c ctx len) = true → h.issued = .complete) :
    (own c ctx len).delivery h stale = some (0, (List.range len.toNat).map h.rx) ∧
      (own c ctx len).Received h ((List.range len.toNat).map h.rx) := by
  have hdir' : (own c ctx len).direction = .txRx := hdir
  simp only [startsDma, hdir'] at hdma
  simp only [SpiTransaction.delivery, SpiTransaction.Received, hdir', hres]
  cases hpoll : (own c ctx len).usePoll with
  | true => simp [HalStatus.toComm, own]
  | false => simp [own, hdma (by simp [hpoll])]

theorem value_of_pollByte_failed {len : UInt16} {bytes : UInt16}
    (hdir : (c.transaction ctx).direction = .pollByte)
    (herr : ((own c ctx len).pollByte h.byte).2 = 1)
    (hexit : (own c ctx len).pollExit ((own c ctx len).pollByte h.byte).1 = false) :
    c.value ⟨((own c ctx len).pollByte h.byte).2, bytes, true,
      some [((own c ctx len).pollByte h.byte).1]⟩ ≠ 0 := by
  cases c with
  | pollForResponse =>
    have hbyte : ((own .pollForResponse ctx len).pollByte h.byte).1 = 0xFF := by
      simpa [SpiTransaction.pollExit, own, SpiCall.transaction] using hexit
    simp [SpiCall.value, hbyte]
  | pollForIdle => simp [SpiCall.value, herr]
  | _ => cases hdir

theorem soundReturn_of_transfer {len : UInt16} (stale : Nat → UInt8)
    (hwell : GoesWell (own c ctx len) h)
    (hdma : startsDma (own c ctx len) = true → h.issued = .complete) :
    ∃ status data, (own c ctx len).delivery h stale = some (status, data) ∧
      ∀ bytes, SoundReturn ⟨ctx, c.value ⟨status, bytes, true, some data⟩, some data,
        some (own c ctx len, h)⟩ := by
  cases hdir : (c.transaction ctx).direction with
  | txRx =>
    have hres : h.res = .ok := by
      have hdir' : (own c ctx len).direction = .txRx := hdir
      simpa [GoesWell, hdir'] using hwell
    obtain ⟨hdelivery, hreceived⟩ := delivery_exchange stale hdir hres hdma
    exact ⟨_, _, hdelivery, fun _ _ => ⟨_, _, _, rfl, context_own len, hreceived, rfl⟩⟩
  | pollByte =>
    have hdir' : (own c ctx len).direction = .pollByte := hdir
    have hdelivery : (own c ctx len).delivery h stale =
        some (((own c ctx len).pollByte h.byte).2, [((own c ctx len).pollByte h.byte).1]) := by
      simp only [SpiTransaction.delivery, hdir']
    refine ⟨_, _, hdelivery, ?_⟩
    intro bytes hvalue
    rcases (own c ctx len).pollByte_cases h.byte with ⟨r, hr, heq⟩ | ⟨-, herr, hexit⟩
    · have hall : SpiTransaction.AllReceived h.byte r := by
        simp only [GoesWell, hdir'] at hwell
        exact hwell r hr
      refine ⟨_, _, [(own c ctx len).byteAfter h.byte r], rfl, context_own len, ?_, by rw [heq]⟩
      simp only [SpiTransaction.Received, hdir']
      exact ⟨r, hr, hall, rfl⟩
    · exact absurd hvalue (value_of_pollByte_failed hdir herr hexit)
  | _ => cases c <;> cases hdir

structure Serving (drv : SpiDriver) (p : SpiPending) : Prop where
  queue : ∃ slot rest, drv.queue p.bin = slot :: rest ∧ slot.transaction = p.transaction
  holds : ∃ rxSlot, drv.Holds p rxSlot ∧ rxSlot.usedLen = p.transaction.length

def Queued (s : SpiAbsState) (tr : SpiTransaction) : Prop :=
  tr.context ∈ s.contextsGone ∨
    ∃ c len, s.call = some (c, tr.context) ∧ (s.contexts tr.context).done = false ∧
      tr = own c tr.context len

structure Inv (s : SpiAbsState) : Prop where
  medium : s.drv.queue .medium = []
  rx : s.task = .waiting → s.drv.RxEmpty
  issued : ∀ p res, s.task = .issued p res → Serving s.drv p ∧ startsDma p.transaction = true
  nodup : ((s.drv.queue .low).map fun slot => slot.transaction.context).Nodup
  queued : ∀ slot, slot ∈ s.drv.queue .low → s.Queued slot.transaction
  fresh : ∀ ctx, ctx ∈ s.contextsGone → ctx < s.next
  call : ∀ c ctx, s.call = some (c, ctx) → ctx < s.next ∧ ctx ∉ s.contextsGone
  ready : ∀ c ctx, s.call = some (c, ctx) → (s.contexts ctx).done = true →
    SoundReturn ⟨ctx, c.value (s.contexts ctx), (s.contexts ctx).data, s.served ctx⟩
  sound : s.CallsSound

theorem inv_init (slot : SpiSlot) : Inv (init slot) := by
  refine ⟨rfl, fun _ _ => rfl, ?_, List.nodup_nil, ?_, ?_, ?_, ?_, ?_, rfl⟩
  · rintro p res h
    cases h
  · rintro slot h
    cases h
  · rintro ctx h
    cases h
  · rintro c ctx h
    cases h
  · rintro c ctx h
    cases h
  · rintro r h
    cases h

theorem Inv.flags (hs : Inv s) (notified : Bool) (dma : DmaState) :
    Inv { s with notified, dma } :=
  ⟨hs.medium, hs.rx, hs.issued, hs.nodup, hs.queued, hs.fresh, hs.call, hs.ready, hs.sound⟩

theorem Inv.bin_eq (hs : Inv s) {drv : SpiDriver} (htx : drv.tx = s.drv.tx)
    (hserving : Serving drv p) : p.bin = .low := by
  obtain ⟨slot, rest, hq, -⟩ := hserving.queue
  cases hbin : p.bin with
  | low => rfl
  | medium =>
    have hmedium := hs.medium
    rw [hbin, SpiDriver.queue, htx] at hq
    rw [SpiDriver.queue, hq] at hmedium
    cases hmedium

theorem Inv.finish (hs : Inv s) {drv : SpiDriver} (htx : drv.tx = s.drv.tx)
    (hserving : Serving drv p) (hlive : s.Awaited p.transaction.context)
    (hwell : GoesWell p.transaction h)
    (hdma : startsDma p.transaction = true → h.issued = .complete) : Inv (s.finish drv p h) := by
  have hbin := hs.bin_eq htx hserving
  obtain ⟨slot, rest, hq, hslot⟩ := hserving.queue
  obtain ⟨rxSlot, hholds, hlen⟩ := hserving.holds
  obtain ⟨c, hcall⟩ := hlive
  have hlow : s.drv.queue .low = slot :: rest := by
    rw [← hq, hbin, SpiDriver.queue, SpiDriver.queue, htx]
  have hgone := (hs.call c _ hcall).2
  obtain ⟨len, htr⟩ : ∃ len, p.transaction = own c p.transaction.context len := by
    rcases hs.queued slot (by simp [hlow]) with hmem | ⟨c', len, hcall', -, heq⟩
    · rw [hslot] at hmem
      exact absurd hmem hgone
    · rw [hslot, hcall] at hcall'
      cases hcall'
      exact ⟨len, by rw [← hslot, ← heq]⟩
  obtain ⟨status, data, hdelivery, hsound⟩ : ∃ status data,
      p.transaction.delivery h rxSlot.data = some (status, data) ∧
      ∀ bytes, SoundReturn ⟨p.transaction.context, c.value ⟨status, bytes, true, some data⟩,
        some data, some (p.transaction, h)⟩ := by
    rw [htr] at hwell hdma
    have htransfer := soundReturn_of_transfer rxSlot.data hwell hdma
    rwa [← htr] at htransfer
  obtain ⟨hrx, hrest, hothers, hcalls⟩ := hholds.pollEnd hlen hq hdelivery
  obtain ⟨callback, hcb⟩ : ∃ callback, p.transaction.callback = some callback := by
    rw [htr]
    exact callback_own len
  have hfinish : s.finish drv p h =
      { s with
        drv := (drv.pollEnd p h).1
        task := .waiting
        served := Function.update s.served p.transaction.context (some (p.transaction, h))
        contexts := Function.update s.contexts p.transaction.context
          ⟨status, data.length.toUInt16, true, some data⟩ } := by
    have hlate : p.transaction.context ∉ s.returned.map CallReturn.context := hgone
    simp [SpiAbsState.finish, hcalls, SpiTransaction.complete, hcb, complete, hlate]
  have hnodup := hs.nodup
  rw [hlow, List.map_cons, List.nodup_cons, hslot] at hnodup
  rw [hbin] at hrest hothers
  rw [hfinish]
  refine ⟨?_, fun _ => hrx, ?_, ?_, ?_, hs.fresh, hs.call, ?_, hs.sound⟩
  · rw [hothers .medium (by decide), ← hs.medium, SpiDriver.queue, SpiDriver.queue, htx]
  · rintro q res hq
    cases hq
  · rw [hrest]
    exact hnodup.2
  · intro slot' hmem
    rw [hrest] at hmem
    have hne : slot'.transaction.context ≠ p.transaction.context := by
      intro heq
      exact hnodup.1 (List.mem_map.mpr ⟨slot', hmem, heq⟩)
    rcases hs.queued slot' (by simp [hlow, hmem]) with hold | ⟨c', len', hcall', hdone, heq⟩
    · exact .inl hold
    · exact .inr ⟨c', len', hcall', by simpa [hne] using hdone, heq⟩
  · intro c' ctx' hcall' _
    rw [hcall] at hcall'
    cases hcall'
    simpa using hsound data.length.toUInt16

@[simp] theorem contextsGone_leave (s : SpiAbsState) (ctx : Nat) (value : UInt8) :
    (s.leave ctx value).contextsGone = s.contextsGone ++ [ctx] := by
  simp [contextsGone, leave]

theorem Inv.leave (hs : Inv s) (hcall : s.call = some (c, ctx)) {value : UInt8}
    (hsound : SoundReturn ⟨ctx, value, (s.contexts ctx).data, s.served ctx⟩) :
    Inv (s.leave ctx value) := by
  refine ⟨hs.medium, hs.rx, hs.issued, hs.nodup, ?_, ?_, ?_, ?_, ?_, hs.sound.2⟩
  · intro slot hmem
    refine .inl ?_
    rw [contextsGone_leave, List.mem_append, List.mem_singleton]
    rcases hs.queued slot hmem with hold | ⟨c', len, hcall', -, -⟩
    · exact .inl hold
    · rw [hcall] at hcall'
      cases hcall'
      exact .inr rfl
  · intro ctx' hmem
    rw [contextsGone_leave, List.mem_append, List.mem_singleton] at hmem
    rcases hmem with hold | rfl
    · exact hs.fresh ctx' hold
    · exact (hs.call c _ hcall).1
  · rintro c' ctx' hnone
    cases hnone
  · rintro c' ctx' hnone
    cases hnone
  · intro r hmem
    rw [SpiAbsState.leave, List.mem_append, List.mem_singleton] at hmem
    rcases hmem with hold | rfl
    · exact hs.sound.1 r hold
    · exact hsound

theorem ofPriority_message (data : Nat → UInt8) (bytes : UInt16) :
    SpiBin.ofPriority (c.message ctx data bytes).transaction.prio = some .low := by
  cases c <;> rfl

theorem Inv.queued_gone (hs : Inv s) (hcall : s.call = none) (slot : SpiSlot)
    (hmem : slot ∈ s.drv.queue .low) : slot.transaction.context ∈ s.contextsGone := by
  rcases hs.queued slot hmem with hold | ⟨c, len, hcall', -, -⟩
  · exact hold
  · simp [hcall] at hcall'

theorem Serving.of_append {drv drv' : SpiDriver} (hserving : Serving drv p)
    (slots : List SpiSlot) (hq : drv'.queue p.bin = drv.queue p.bin ++ slots)
    (hrx : drv'.rx = drv.rx) : Serving drv' p := by
  obtain ⟨slot, rest, hold, hslot⟩ := hserving.queue
  obtain ⟨rxSlot, hholds, hlen⟩ := hserving.holds
  exact ⟨⟨slot, rest ++ slots, by rw [hq, hold, List.cons_append], hslot⟩,
    rxSlot, hholds.of_rx_eq hrx, hlen⟩

theorem Inv.callStep (hs : Inv s) (c : SpiCall) (data : Nat → UInt8) (bytes : UInt16)
    (ht : s.step (.call c data bytes) = some t) : Inv t := by
  cases hcall : s.call with
  | some r => simp [step, hcall] at ht
  | none =>
    simp only [step, hcall] at ht
    have hnext : s.next ∉ s.contextsGone := fun hmem => absurd (hs.fresh _ hmem) (by omega)
    rcases s.drv.send_cases (c.message s.next data bytes) with
      ⟨b, slot, hcode, hbin, hslot, hq, hothers, hrx⟩ | ⟨hcode, hsame⟩
    · rw [ofPriority_message] at hbin
      cases hbin
      rw [if_pos hcode] at ht
      cases ht
      refine ⟨?_, ?_, ?_, ?_, ?_, ?_, ?_, ?_, hs.sound⟩
      · rw [hothers .medium (by decide)]
        exact hs.medium
      · intro htask b
        rw [hrx]
        exact hs.rx htask b
      · intro p res htask
        obtain ⟨hserving, hdma⟩ := hs.issued p res htask
        refine ⟨hserving.of_append [slot] ?_ hrx, hdma⟩
        rw [hs.bin_eq rfl hserving]
        exact hq
      · rw [hq, List.map_append, List.nodup_append]
        refine ⟨hs.nodup, by simp, ?_⟩
        intro ctx hmem ctx' hmem' heq
        obtain ⟨slot', hslot', rfl⟩ := List.mem_map.mp hmem
        simp only [List.map_cons, List.map_nil, List.mem_singleton, hslot] at hmem'
        have hgone := hs.queued_gone hcall slot' hslot'
        rw [heq, hmem'] at hgone
        cases c <;> exact hnext hgone
      · intro slot' hmem
        rw [hq, List.mem_append, List.mem_singleton] at hmem
        rcases hmem with hold | rfl
        · exact .inl (hs.queued_gone hcall slot' hold)
        · refine .inr ⟨c, (c.message s.next data bytes).length.toUInt16, ?_⟩
          rw [hslot]
          cases c <;> simp [own, SpiCall.message, SpiCall.transaction]
      · intro ctx hmem
        exact Nat.lt_succ_of_lt (hs.fresh ctx hmem)
      · rintro c' ctx' hnew
        cases hnew
        exact ⟨Nat.lt_succ_self _, hnext⟩
      · rintro c' ctx' hnew hdone
        cases hnew
        simp at hdone
    · rw [if_neg hcode] at ht
      cases ht
      rw [hsame]
      refine ⟨hs.medium, hs.rx, hs.issued, hs.nodup, ?_, ?_, ?_, ?_, ?_, hs.sound.2⟩
      · intro slot hmem
        refine .inl ?_
        rw [contextsGone_leave, List.mem_append]
        exact .inl (hs.queued_gone hcall slot hmem)
      · intro ctx hmem
        rw [contextsGone_leave, List.mem_append, List.mem_singleton] at hmem
        rcases hmem with hold | rfl
        · exact Nat.lt_succ_of_lt (hs.fresh ctx hold)
        · exact Nat.lt_succ_self _
      · rintro c' ctx' hnone
        cases hnone
      · rintro c' ctx' hnone
        cases hnone
      · intro r hmem
        rw [SpiAbsState.leave, List.mem_append, List.mem_singleton] at hmem
        rcases hmem with hold | rfl
        · exact hs.sound.1 r hold
        · intro hvalue
          exact absurd hvalue (CommCode.value_ne_zero hcode)

theorem serving_of_begun {drv drv' : SpiDriver} {slot : SpiSlot} {rest : List SpiSlot}
    (hb : drv.Begun p drv' slot rest) : Serving drv' p :=
  ⟨⟨slot, rest, by rw [SpiDriver.queue, hb.tx]; exact hb.queue, hb.transaction.symm⟩, hb.holds⟩

theorem startsDma_of_goesWell {tr : SpiTransaction} (hwell : GoesWell tr h)
    (hdma : startsDma tr = true) : h.res = .ok := by
  cases hdir : tr.direction <;> simp_all [GoesWell, startsDma]

theorem Inv.serveStep (hs : Inv s) (hwaiting : s.task = .waiting) (hC : s.Timely (.serve h)) :
    Inv (s.serve h) := by
  rw [serve]
  split
  · exact hs
  rcases s.drv.pollBegin_cases (hs.rx hwaiting) with ⟨-, hp⟩ | ⟨p, drv, slot, rest, hp, hb⟩
  · rw [hp]
    exact hs
  · obtain ⟨hlive, hwell⟩ := hC p drv hp
    have hserving := serving_of_begun hb
    simp only [hp]
    split
    · rename_i hstarts
      refine ⟨?_, ?_, ?_, ?_, ?_, hs.fresh, hs.call, hs.ready, hs.sound⟩
      · rw [SpiDriver.queue, hb.tx]
        exact hs.medium
      · rintro hnot
        cases hnot
      · rintro q res htask
        cases htask
        exact ⟨hserving, by simp_all⟩
      · rw [SpiDriver.queue, hb.tx]
        exact hs.nodup
      · intro slot' hmem
        rw [SpiDriver.queue, hb.tx] at hmem
        exact hs.queued slot' hmem
    · rename_i hstarts
      refine hs.finish hb.tx hserving hlive hwell ?_
      intro hdma
      simp [hdma, startsDma_of_goesWell hwell hdma] at hstarts

theorem Inv.wakeStep (hs : Inv s) {res : HalStatus} {rx : Nat → UInt8}
    (htask : s.task = .issued p res) (hC : s.Timely (.wake rx)) :
    Inv (s.woken.finish s.drv p (s.answers res rx)) := by
  obtain ⟨hlive, rfl, hdma⟩ := hC p res htask
  have hwoken : Inv s.woken := hs.flags false _
  obtain ⟨hserving, hstarts⟩ := hs.issued p .ok htask
  refine hwoken.finish rfl hserving hlive ?_ ?_
  · cases hdir : p.transaction.direction <;> simp_all [GoesWell, startsDma, answers]
  · intro _
    simp [answers, hdma]

theorem Inv.step (hs : Inv s) {e : SpiAbsEvent} (hC : s.Timely e) (ht : s.step e = some t) :
    Inv t := by
  cases e with
  | call c data bytes => exact hs.callStep c data bytes ht
  | ret =>
    simp only [SpiAbsState.step] at ht
    split at ht
    · cases ht
    · rename_i c ctx hcall
      split at ht
      · rename_i hdone
        cases ht
        exact hs.leave hcall (hs.ready c ctx hcall hdone)
      · cases ht
  | giveUp =>
    simp only [SpiAbsState.step] at ht
    split at ht
    · cases ht
    · rename_i c ctx hcall
      split at ht
      · cases ht
      · cases ht
        refine hs.leave hcall ?_
        intro hvalue
        cases hvalue
  | serve h =>
    simp only [SpiAbsState.step] at ht
    split at ht
    · rename_i henabled
      cases ht
      exact (hs.flags false s.dma).serveStep henabled.1 hC
    · cases ht
  | interrupt ok =>
    simp only [SpiAbsState.step] at ht
    split at ht
    · cases ht
      exact hs.flags true _
    · cases ht
  | wake rx =>
    simp only [SpiAbsState.step] at ht
    split at ht
    · cases ht
    · rename_i p res htask
      split at ht
      · cases ht
        exact hs.wakeStep htask hC
      · cases ht
  | expire =>
    simp only [SpiAbsState.step] at ht
    split at ht
    · cases ht
    · rename_i p res htask
      rw [show s.task = .waiting from hC] at htask
      cases htask

/-- As long as the task serves only calls that still wait and no transfer meets an error that the
calls do not look at, each call reports what happened to its own transfer and no callback runs
with the context of a call that has returned. -/
theorem calls_sound (slot : SpiSlot) (es : List SpiAbsEvent) (s : SpiAbsState)
    (hrun : Step.run SpiAbsState.step (init slot) es = some s)
    (htimely : Step.Along SpiAbsState.step Timely (init slot) es) : s.CallsSound := by
  have hI : ∀ {s e t}, Inv s → Timely s e → SpiAbsState.step s e = some t → Inv t :=
    fun hs hC ht => hs.step hC ht
  exact (Step.run_invariant_along hI (inv_init slot) htimely hrun).sound

def blankSlot : SpiSlot :=
  ⟨0, ⟨0, 0, 0, .txRx, 0, 0, 0, false, false, none, 0⟩, fun _ => 0⟩

def exchanged (res : HalStatus) : HalAnswers :=
  ⟨res, .complete, fun _ => 0x05, fun _ => .failed none⟩

def sendRun : List SpiAbsEvent :=
  [.call .send (fun _ => 0xFC) 2, .serve (exchanged .ok), .interrupt true, .wake (fun _ => 0x05),
    .ret]

theorem calls_sound_sendRun :
    ∃ s, Step.run SpiAbsState.step (init blankSlot) sendRun = some s ∧
      s.returned.map CallReturn.value = [0] ∧ s.CallsSound := by
  refine (fun hrun => ⟨_, hrun, rfl, calls_sound blankSlot sendRun _ hrun ?_⟩) rfl
  refine ⟨trivial, ?_⟩
  rintro _ ⟨⟩
  refine ⟨?_, ?_⟩
  · rintro p t ⟨⟩
    exact ⟨⟨.send, rfl⟩, rfl⟩
  rintro _ ⟨⟩
  refine ⟨trivial, ?_⟩
  rintro _ ⟨⟩
  refine ⟨?_, ?_⟩
  · rintro p res ⟨⟩
    exact ⟨⟨.send, rfl⟩, rfl, rfl⟩
  rintro _ ⟨⟩
  exact ⟨trivial, fun _ _ => trivial⟩

/-- A polled byte read that gives up before the task serves it, and one whose transfer fails. -/
theorem calls_unsound :
    (∃ s, Step.run SpiAbsState.step (init blankSlot)
        [.call .readByte (fun _ => 0) 0, .giveUp, .serve (exchanged .ok)] = some s ∧
      s.late = [0] ∧ ¬ s.CallsSound) ∧
    ∃ s, Step.run SpiAbsState.step (init blankSlot)
        [.call .readByte (fun _ => 0) 0, .serve (exchanged .timeout), .ret] = some s ∧
      s.returned.map CallReturn.value = [0] ∧ ¬ s.CallsSound := by
  refine ⟨(fun hrun => ⟨_, hrun, rfl, ?_⟩) rfl, (fun hrun => ⟨_, hrun, rfl, ?_⟩) rfl⟩
  · rintro ⟨-, hlate⟩
    cases hlate
  · rintro ⟨hsound, -⟩
    obtain ⟨t, h, bytes, hserved, -, hreceived, -⟩ := hsound _ (List.mem_singleton.mpr rfl) rfl
    cases hserved
    cases hreceived.1

end SpiAbsState

end CanSniffer.Drivers
