import CanSniffer.App.FwUpdate
import CanSniffer.Boot.FwUpdateHandoffLaws
import CanSniffer.Web.UploadSessionLaws

namespace CanSniffer.Boot.HandoffState

open Lib

variable {s t : HandoffState} {e : HandoffEvent}

structure Numbered (s : HandoffState) : Prop where
  written : ∀ n ∈ s.written, 0 < n
  requests : s.point = .requestApply ∨ s.point = .eraseMarker ∨ s.point = .writeMarker →
    0 < s.requests

theorem Numbered.goto {p : HandoffPoint} (h : s.Numbered)
    (hp : p ≠ .requestApply ∧ p ≠ .eraseMarker ∧ p ≠ .writeMarker) (word : FwUpdateHandoffRecord)
    (granted : List Nat) (activated : List (Option Nat)) :
    Numbered { s with point := p, marker := word, granted := granted, activated := activated } := by
  refine ⟨h.written, ?_⟩
  rintro (hpoint | hpoint | hpoint)
  · exact absurd hpoint hp.1
  · exact absurd hpoint hp.2.1
  · exact absurd hpoint hp.2.2

theorem step_numbered (h : s.Numbered) (ht : step s e = some t) : t.Numbered := by
  cases step_moves ht with
  | powerLoss => exact h.goto (by decide) ..
  | requested hpoint hvalid => exact h.goto (by decide) ..
  | notRequested readOk hpoint hnone => exact h.goto (by decide) ..
  | cleared r hpoint => exact h.goto (by decide) ..
  | activated hpoint => exact h.goto (by decide) ..
  | absent hpoint => exact h.goto (by decide) ..
  | booted hpoint => exact h.goto (by decide) ..
  | halted hpoint => exact h.goto (by decide) ..
  | called hpoint => exact ⟨h.written, fun _ => Nat.succ_pos _⟩
  | found hpoint hvalid => exact h.goto (by decide) ..
  | notFound readOk hpoint => exact ⟨h.written, fun _ => h.requests (.inl hpoint)⟩
  | erased hpoint => exact ⟨h.written, fun _ => h.requests (.inr (.inl hpoint))⟩
  | notErased erased hpoint => exact h.goto (by decide) ..
  | written hpoint =>
    refine ⟨?_, by rintro (h | h | h) <;> cases h⟩
    intro n hn
    cases hn with
    | head => exact h.requests (.inr (.inr hpoint))
    | tail _ hn => exact h.written n hn
  | notWritten erased hpoint => exact h.goto (by decide) ..
  | granted hpoint hmarker => exact h.goto (by decide) ..
  | notGranted readOk hpoint hnone => exact h.goto (by decide) ..

/-- The marker can be read, cleared and checked. -/
def Settles (s : HandoffState) : HandoffEvent → Prop
  | .isApplyRequested readOk => s.marker.isValid = true → readOk = true
  | .clearApplyRequest r => (r.erase s.marker).isValid = false
  | .readBack readOk => readOk = true
  | _ => True

theorem Settles.clears (h : s.Settles e) : s.Clears e := by
  cases e with
  | clearApplyRequest r => exact h
  | _ => trivial

/-- Where no request is left in the flash. -/
def quiet : HandoffPoint → Bool
  | .application | .bootGo | .cleared | .requestApply | .eraseMarker | .writeMarker => true
  | _ => false

/-- From the call of `FwUpdateHandoff_RequestApply` to the activation. -/
def busy : HandoffPoint → Bool
  | .applyRequested | .cleared | .requestApply | .eraseMarker | .writeMarker | .readBack => true
  | _ => false

def running : HandoffPoint → Bool
  | .application | .requestApply | .eraseMarker | .writeMarker | .readBack | .systemReset => true
  | _ => false

structure Stepped (s t : HandoffState) (e : HandoffEvent) : Prop where
  running : running t.point = true → running s.point = true ∨ e = .bootGo true
  requests : t.requests = if e = .requestApply then s.requests + 1 else s.requests
  activated : t.activated = if e = .activate true then s.owner :: s.activated else s.activated

theorem step_stepped (ht : step s e = some t) : s.Stepped t e := by
  cases step_moves ht with
  | powerLoss => exact ⟨nofun, rfl, rfl⟩
  | requested hpoint hvalid => exact ⟨nofun, rfl, rfl⟩
  | notRequested readOk hpoint hnone => exact ⟨nofun, rfl, rfl⟩
  | cleared r hpoint => exact ⟨nofun, rfl, rfl⟩
  | activated hpoint => exact ⟨nofun, rfl, rfl⟩
  | absent hpoint => exact ⟨nofun, rfl, rfl⟩
  | booted hpoint => exact ⟨fun _ => .inr rfl, rfl, rfl⟩
  | halted hpoint => exact ⟨nofun, rfl, rfl⟩
  | called hpoint => exact ⟨fun _ => .inl (congrArg running hpoint), rfl, rfl⟩
  | found hpoint hvalid => exact ⟨fun _ => .inl (congrArg running hpoint), rfl, rfl⟩
  | notFound readOk hpoint => exact ⟨fun _ => .inl (congrArg running hpoint), rfl, rfl⟩
  | erased hpoint => exact ⟨fun _ => .inl (congrArg running hpoint), rfl, rfl⟩
  | notErased erased hpoint => exact ⟨fun _ => .inl (congrArg running hpoint), rfl, rfl⟩
  | written hpoint => exact ⟨fun _ => .inl (congrArg running hpoint), rfl, rfl⟩
  | notWritten erased hpoint => exact ⟨fun _ => .inl (congrArg running hpoint), rfl, rfl⟩
  | granted hpoint hmarker => exact ⟨fun _ => .inl (congrArg running hpoint), rfl, rfl⟩
  | notGranted readOk hpoint hnone => exact ⟨fun _ => .inl (congrArg running hpoint), rfl, rfl⟩

structure Marked (s : HandoffState) : Prop where
  quiet : quiet s.point = true → s.marker.isValid = false
  written : s.point = .readBack → s.marker = .apply

def Underway (s : HandoffState) : Prop := s.marker.isValid = true ∨ busy s.point = true

theorem Marked.of_invalid (h : s.marker.isValid = false) (hp : s.point ≠ .readBack) : s.Marked :=
  ⟨fun _ => h, fun hpoint => absurd hpoint hp⟩

theorem isValid_erase_of_not {r : FlashResult} {word : FwUpdateHandoffRecord}
    (h : word.isValid = false) : (r.erase word).isValid = false := by
  cases hr : (r.erase word).isValid with
  | false => rfl
  | true => exact absurd (h.symm.trans (FlashResult.isValid_erase hr)) nofun

theorem not_underway (h : s.marker.isValid = false) (hp : busy s.point = false) :
    ¬s.Underway := by
  rintro (hvalid | hbusy)
  · exact absurd (h.symm.trans hvalid) nofun
  · exact absurd (hp.symm.trans hbusy) nofun

theorem rest (h : t.marker.isValid = false) (hp : t.point ≠ .readBack)
    (hidle : busy t.point = false) : t.Marked ∧ (t.Underway → s.Underway ∨ e = .requestApply) :=
  ⟨.of_invalid h hp, fun hunderway => absurd hunderway (not_underway h hidle)⟩

theorem step_marked (h : s.Marked) (hsettles : s.Settles e) (ht : step s e = some t) :
    t.Marked ∧ (t.Underway → s.Underway ∨ e = .requestApply) := by
  cases step_moves ht with
  | powerLoss =>
    refine ⟨⟨nofun, nofun⟩, ?_⟩
    rintro (hvalid | hbusy)
    · exact .inl (.inl hvalid)
    · cases hbusy
  | requested hpoint hvalid => exact ⟨⟨nofun, nofun⟩, fun _ => .inl (.inl hvalid)⟩
  | notRequested readOk hpoint hnone =>
    have hinvalid : s.marker.isValid = false := by
      unfold isApplyRequested at hnone
      cases hvalid : s.marker.isValid with
      | false => rfl
      | true =>
        have hread : readOk = true := hsettles hvalid
        rw [hread, hvalid] at hnone
        cases hnone
    exact rest hinvalid nofun rfl
  | cleared r hpoint =>
    exact ⟨.of_invalid hsettles nofun, fun _ => .inl (.inr (congrArg busy hpoint))⟩
  | activated hpoint => exact rest (h.quiet (congrArg quiet hpoint)) nofun rfl
  | absent hpoint => exact rest (h.quiet (congrArg quiet hpoint)) nofun rfl
  | booted hpoint => exact rest (h.quiet (congrArg quiet hpoint)) nofun rfl
  | halted hpoint => exact rest (h.quiet (congrArg quiet hpoint)) nofun rfl
  | called hpoint =>
    exact ⟨.of_invalid (h.quiet (congrArg quiet hpoint)) nofun, fun _ => .inr rfl⟩
  | found hpoint hvalid =>
    exact absurd ((h.quiet (congrArg quiet hpoint)).symm.trans hvalid) nofun
  | notFound readOk hpoint =>
    exact ⟨.of_invalid (h.quiet (congrArg quiet hpoint)) nofun,
      fun _ => .inl (.inr (congrArg busy hpoint))⟩
  | erased hpoint => exact ⟨.of_invalid rfl nofun, fun _ => .inl (.inr (congrArg busy hpoint))⟩
  | notErased erased hpoint =>
    exact rest (isValid_erase_of_not (h.quiet (congrArg quiet hpoint))) nofun rfl
  | written hpoint => exact ⟨⟨nofun, fun _ => rfl⟩, fun _ => .inl (.inr (congrArg busy hpoint))⟩
  | notWritten erased hpoint =>
    exact rest (isValid_erase_of_not (h.quiet (congrArg quiet hpoint))) nofun rfl
  | granted hpoint hmarker =>
    exact ⟨⟨nofun, nofun⟩, fun _ => .inl (.inr (congrArg busy hpoint))⟩
  | notGranted readOk hpoint hnone => exact absurd (h.written hpoint) (hnone hsettles)

end CanSniffer.Boot.HandoffState

namespace CanSniffer.App

open Lib Iap Web Boot

/-- The slot holds all of an image that was posted, and was read since it was touched last. -/
def HoldsPosted (posted : List (Nat × List UInt8)) (slot : Slot) : Prop :=
  ∃ r ∈ posted, 0 < r.1 ∧ r.1 ≤ r.2.length ∧ slot.slice 0 r.1 = r.2.take r.1 ∧
    ∀ i < r.1, slot.touched i = false

theorem HoldsPosted.mono {slot : Slot} {rs rs' : List (Nat × List UInt8)} (h : HoldsPosted rs slot)
    (hsub : rs ⊆ rs') : HoldsPosted rs' slot := by
  obtain ⟨r, hr, hslot⟩ := h
  exact ⟨r, hsub hr, hslot⟩

namespace FwUpdate

variable {s t : FwUpdate} {l : UpdateLedger} {e : UpdateEvent}

/-- An erase of the slot that fails leaves it as it was. -/
def Careful (s : FwUpdate) : UpdateEvent → Prop
  | .prepare a => IapState.CleanErase a
  | .handoff e => s.handoff.Settles e
  | _ => True

structure Inv (s : FwUpdate) (l : UpdateLedger) : Prop where
  flow : HandoffState.running s.handoff.point = true → Flow s.post l.uploads
  held : s.handoff.Underway → HoldsPosted l.uploads.posted s.slot
  marked : s.handoff.Marked
  handoff : s.handoff.Inv
  numbered : s.handoff.Numbered
  counted : s.handoff.requests + s.applyFirmwareUpdate.toNat ≤ l.applies
  logged : l.activated.length = s.handoff.activated.length
  activated : ∀ slot ∈ l.activated, HoldsPosted l.uploads.posted slot

theorem start_inv {config : IapWriterConfig} {slot : Slot} {marker : FwUpdateHandoffRecord}
    (h : marker.isValid = false) : (start config slot marker).Inv .start :=
  ⟨nofun, fun hunderway => absurd hunderway (HandoffState.not_underway h rfl),
    ⟨nofun, nofun⟩, HandoffState.start_inv h, ⟨nofun, nofun⟩, Nat.le_refl _, rfl, nofun⟩

theorem Inv.not_underway (h : s.Inv l) (hp : HandoffState.quiet s.handoff.point = true)
    (hbusy : HandoffState.busy s.handoff.point = false) : ¬s.handoff.Underway :=
  HandoffState.not_underway (h.marked.quiet hp) hbusy

theorem holdsPosted_of_flow {post : HttpdPost} {u : UploadLedger} (h : Flow post u)
    (hv : post.iap.isVerified = true) : HoldsPosted u.posted post.iap.adapter.writer.slot := by
  obtain ⟨hup, hslot, huntouched⟩ := h.intact.verified hv
  obtain ⟨r, hr, hpos, hlen, himage⟩ := h.uploaded _ hup
  have hsize : post.iap.writer.payload.length = r.1 := by
    rw [himage, List.length_take_of_le hlen]
  rw [hsize] at hslot huntouched
  exact ⟨r, hr, hpos, hlen, hslot.trans himage, huntouched⟩

theorem Inv.runs {u : UploadLedger} (h : s.Inv l) (hp : s.handoff.point = .application)
    (hhandoff : t.handoff = s.handoff) (hflow : Flow t.post u)
    (hposted : l.uploads.posted ⊆ u.posted)
    (hcounted : t.applyFirmwareUpdate.toNat ≤ s.applyFirmwareUpdate.toNat) :
    t.Inv { l with uploads := u } := by
  have hnone : ¬t.handoff.Underway := by
    rw [hhandoff]
    exact h.not_underway (congrArg HandoffState.quiet hp) (congrArg HandoffState.busy hp)
  refine ⟨fun _ => hflow, fun hunderway => absurd hunderway hnone, hhandoff ▸ h.marked,
    hhandoff ▸ h.handoff, hhandoff ▸ h.numbered, ?_, ?_, ?_⟩
  · rw [hhandoff]
    exact Nat.le_trans (Nat.add_le_add_left hcounted _) h.counted
  · rw [hhandoff]
    exact h.logged
  · intro slot hslot
    exact (h.activated slot hslot).mono hposted

theorem note_posted (u : UploadLedger) (post : HttpdPost) (conn : Nat) (c : PostCall) :
    u.posted ⊆ (u.note post conn c).posted := by
  unfold UploadLedger.note
  cases c with
  | begin uri contentLen a =>
    dsimp only
    split
    · exact List.Subset.refl _
    · cases post.mapFreeIndex with
      | none => exact List.Subset.refl _
      | some i => exact List.Subset.refl _
  | receive segments =>
    dsimp only
    split
    · cases post.mapLookup conn with
      | none => exact List.Subset.refl _
      | some i => exact List.Subset.refl _
    · exact List.Subset.refl _
  | finished =>
    dsimp only
    split
    · cases post.mapLookup conn with
      | none => exact List.Subset.refl _
      | some i =>
        dsimp only
        unfold UploadLedger.post
        split
        · exact List.subset_cons_self ..
        · exact List.Subset.refl _
    · exact List.Subset.refl _

theorem loop_eq_some {le : LoopEvent} (h : s.loop le = some t) :
    s.handoff.point = .application ∧ ∃ app, t = { s with app } := by
  unfold loop at h
  split at h
  · next hp =>
    rw [Option.map_eq_some_iff] at h
    obtain ⟨app, -, rfl⟩ := h
    exact ⟨hp, app, rfl⟩
  · cases h

theorem Inv.loop {le : LoopEvent} (h : s.Inv l) (ht : s.loop le = some t) : t.Inv l := by
  obtain ⟨hp, app, rfl⟩ := loop_eq_some ht
  exact h.runs hp rfl (h.flow (congrArg HandoffState.running hp)) (List.Subset.refl _) (Nat.le_refl _)

theorem handoffStep_eq_some {he : HandoffEvent} (h : s.handoffStep he = some t) :
    ∃ handoff, HandoffState.step s.handoff he = some handoff ∧ t = { s with handoff } := by
  unfold handoffStep at h
  rw [Option.map_eq_some_iff] at h
  obtain ⟨handoff, hstep, rfl⟩ := h
  exact ⟨handoff, hstep, rfl⟩

theorem Inv.handoffStep {he : HandoffEvent} (h : s.Inv l) (hsettles : s.handoff.Settles he)
    (hne : he ≠ .requestApply) (hgo : he ≠ .bootGo true) (ht : s.handoffStep he = some t) :
    t.Inv (if he = .activate true then { l with activated := s.slot :: l.activated } else l) := by
  obtain ⟨handoff, hstep, rfl⟩ := handoffStep_eq_some ht
  obtain ⟨hmarked, hunderway⟩ := HandoffState.step_marked h.marked hsettles hstep
  obtain ⟨hrunning, hrequests, hactivated⟩ := HandoffState.step_stepped hstep
  have hinv := HandoffState.step_inv h.handoff hsettles.clears hstep
  have hnumbered := HandoffState.step_numbered h.numbered hstep
  rw [if_neg hne] at hrequests
  have hflow : HandoffState.running handoff.point = true → Flow s.post l.uploads := by
    intro hr
    rcases hrunning hr with hr | hr
    · exact h.flow hr
    · exact absurd hr hgo
  have hheld : handoff.Underway → HoldsPosted l.uploads.posted s.slot := by
    intro hu
    rcases hunderway hu with hu | hu
    · exact h.held hu
    · exact absurd hu hne
  have hcounted : handoff.requests + s.applyFirmwareUpdate.toNat ≤ l.applies := by
    rw [hrequests]
    exact h.counted
  split
  · next hact =>
    subst hact
    rw [if_pos rfl] at hactivated
    have hpoint : s.handoff.point = .cleared := by
      simp only [HandoffState.step] at hstep
      split at hstep
      · next hp => exact hp
      · cases hstep
    have hslot := h.held (.inr (congrArg HandoffState.busy hpoint))
    refine ⟨hflow, hheld, hmarked, hinv, hnumbered, hcounted, ?_, ?_⟩
    · rw [hactivated, List.length_cons, List.length_cons, h.logged]
    · intro slot hmem
      cases hmem with
      | head => exact hslot
      | tail _ hmem => exact h.activated slot hmem
  · next hact =>
    rw [if_neg hact] at hactivated
    exact ⟨hflow, hheld, hmarked, hinv, hnumbered, hcounted, hactivated ▸ h.logged, h.activated⟩

theorem Inv.handleFirmware (h : s.Inv l) (hp : s.handoff.point = .application)
    (ht : s.handleFirmware = some t) : t.Inv l := by
  have hflow := h.flow (congrArg HandoffState.running hp)
  unfold FwUpdate.handleFirmware at ht
  split at ht
  · next happly =>
    split at ht
    · next hready =>
      obtain ⟨handoff, hstep, rfl⟩ := handoffStep_eq_some ht
      have hstep : HandoffState.step s.handoff .requestApply = some handoff := hstep
      obtain ⟨hmarked, -⟩ := HandoffState.step_marked (e := .requestApply) h.marked trivial hstep
      obtain ⟨-, hrequests, hactivated⟩ := HandoffState.step_stepped hstep
      rw [if_pos rfl] at hrequests
      rw [if_neg nofun] at hactivated
      have hcounted := h.counted
      rw [happly] at hcounted
      refine ⟨fun _ => hflow, fun _ => holdsPosted_of_flow hflow hready.2, hmarked,
        HandoffState.step_inv (e := .requestApply) h.handoff trivial hstep,
        HandoffState.step_numbered h.numbered hstep,
        ?_, ?_, h.activated⟩
      · show handoff.requests + 0 ≤ l.applies
        rw [hrequests]
        exact hcounted
      · show l.activated.length = handoff.activated.length
        rw [hactivated]
        exact h.logged
    · cases ht
      exact h.runs hp rfl hflow (List.Subset.refl _) (Nat.zero_le _)
  · cases ht
    exact h

theorem Inv.powerLost {slot : Slot} (h : s.Inv l) (hflash : s.flashing = true)
    (ht : (s.setSlot slot).handoffStep .powerLoss = some t) : t.Inv l := by
  obtain ⟨handoff, hstep, rfl⟩ := handoffStep_eq_some ht
  have hstep : HandoffState.step s.handoff .powerLoss = some handoff := hstep
  have hquiet : s.handoff.marker.isValid = false := by
    unfold flashing at hflash
    rcases of_decide_eq_true hflash with hp | hp
    · exact h.marked.quiet (congrArg HandoffState.quiet hp)
    · exact h.marked.quiet (congrArg HandoffState.quiet hp)
  have hinv := HandoffState.step_inv (e := .powerLoss) h.handoff trivial hstep
  have hnumbered := HandoffState.step_numbered h.numbered hstep
  cases hstep
  exact ⟨nofun, fun hu => absurd hu (HandoffState.not_underway hquiet rfl), ⟨nofun, nofun⟩, hinv,
    hnumbered, h.counted, h.logged, h.activated⟩

theorem Inv.bootGo {slot : Slot} {ok mounted : Bool} {load : ConfigLoad} (h : s.Inv l)
    (ht : ((s.setSlot slot).handoffStep (.bootGo ok)).map
      (fun u => if ok then u.restart load mounted else u) = some t) : t.Inv l := by
  rw [Option.map_eq_some_iff] at ht
  obtain ⟨u, hu, rfl⟩ := ht
  obtain ⟨handoff, hstep, rfl⟩ := handoffStep_eq_some hu
  have hstep : HandoffState.step s.handoff (.bootGo ok) = some handoff := hstep
  have hpoint : s.handoff.point = .bootGo := by
    simp only [HandoffState.step] at hstep
    split at hstep
    · next hp => exact hp
    · cases hstep
  have hquiet := h.marked.quiet (congrArg HandoffState.quiet hpoint)
  obtain ⟨hmarked, hunderway⟩ :=
    HandoffState.step_marked (e := .bootGo ok) h.marked trivial hstep
  have hnone : ¬handoff.Underway := by
    intro hu
    rcases hunderway hu with hu | hu
    · exact h.not_underway (congrArg HandoffState.quiet hpoint) (congrArg HandoffState.busy hpoint) hu
    · cases hu
  obtain ⟨-, hrequests, hactivated⟩ := HandoffState.step_stepped hstep
  have hrequest : HandoffEvent.bootGo ok ≠ .requestApply := by rintro ⟨⟩
  have hactivate : HandoffEvent.bootGo ok ≠ .activate true := by rintro ⟨⟩
  rw [if_neg hrequest] at hrequests
  rw [if_neg hactivate] at hactivated
  have hinv := HandoffState.step_inv (e := .bootGo ok) h.handoff trivial hstep
  have hnumbered := HandoffState.step_numbered h.numbered hstep
  have hlogged : l.activated.length = handoff.activated.length := hactivated ▸ h.logged
  have hcounted := h.counted
  rw [← hrequests] at hcounted
  cases ok with
  | true =>
    exact ⟨fun _ => .start .., fun hu => absurd hu hnone, hmarked, hinv, hnumbered,
      Nat.le_trans (Nat.add_le_add_left (Nat.zero_le _) _) hcounted, hlogged, h.activated⟩
  | false =>
    refine ⟨?_, fun hu => absurd hu hnone, hmarked, hinv, hnumbered, hcounted, hlogged,
      h.activated⟩
    intro hrunning
    rcases (HandoffState.step_stepped hstep).running hrunning with hr | hr
    · rw [hpoint] at hr
      cases hr
    · cases hr

theorem note_handoff (l : UpdateLedger) (s : FwUpdate) (he : HandoffEvent) :
    l.note s (.handoff he) =
      if he = .activate true then { l with activated := s.slot :: l.activated } else l := by
  cases he with
  | activate present =>
    cases present with
    | true => rfl
    | false => rfl
  | _ => rfl

theorem Inv.apply (h : s.Inv l) (hp : s.handoff.point = .application) :
    s.apply.Inv (l.note s .apply) := by
  have hflow := (h.flow (congrArg HandoffState.running hp)).renderApply s.app.ctrl.runCanTracer
  unfold FwUpdate.apply UpdateLedger.note
  dsimp only
  generalize s.post.renderApply s.app.ctrl.runCanTracer = r at hflow ⊢
  cases hok : r.2.ok with
  | true =>
    rw [if_pos rfl]
    have hraised := h.runs (t := { s with post := r.1 }) hp rfl hflow (List.Subset.refl _)
      (Nat.le_refl _)
    refine ⟨hraised.flow, hraised.held, hraised.marked, hraised.handoff, hraised.numbered, ?_,
      hraised.logged, hraised.activated⟩
    have hcounted := h.counted
    rw [Bool.or_true]
    show s.handoff.requests + 1 ≤ l.applies + 1
    omega
  | false =>
    rw [if_neg nofun, Bool.or_false]
    exact h.runs hp rfl hflow (List.Subset.refl _) (Nat.le_refl _)

theorem step_inv (h : s.Inv l) (hcareful : s.Careful e) (ht : step s e = some t) :
    t.Inv (l.note s e) := by
  cases e with
  | param param value => exact h.loop ht
  | action action => exact h.loop ht
  | logStopped => exact h.loop ht
  | post conn call =>
    simp only [step] at ht
    split at ht
    · next hp =>
      cases ht
      exact h.runs hp.1 rfl ((h.flow (congrArg HandoffState.running hp.1)).call conn call)
        (note_posted ..) (Nat.le_refl _)
    · cases ht
  | prepare a =>
    simp only [step] at ht
    split at ht
    · next hp =>
      cases ht
      exact h.runs hp.1 rfl
        ((h.flow (congrArg HandoffState.running hp.1)).renderPrepare _ hcareful)
        (List.Subset.refl _) (Nat.le_refl _)
    · cases ht
  | apply =>
    simp only [step] at ht
    split at ht
    · next hp =>
      cases ht
      exact h.apply hp.1
    · cases ht
  | polled a =>
    simp only [step] at ht
    rw [Option.map_eq_some_iff] at ht
    obtain ⟨u, hu, rfl⟩ := ht
    obtain ⟨hp, app, rfl⟩ := loop_eq_some hu
    exact h.runs hp rfl ((h.flow (congrArg HandoffState.running hp)).verifyPoll a)
      (List.Subset.refl _) (Nat.le_refl _)
  | applied =>
    simp only [step] at ht
    rw [Option.bind_eq_some_iff] at ht
    obtain ⟨u, hu, ht⟩ := ht
    have hinv := h.loop hu
    obtain ⟨hp, app, rfl⟩ := loop_eq_some hu
    exact hinv.handleFirmware hp ht
  | handoff he =>
    rw [note_handoff]
    simp only [step] at ht
    split at ht
    · cases ht
    · cases ht
    · cases ht
    · next hloss hgo hrequest => exact h.handoffStep hcareful hrequest (hgo true) ht
  | powerLoss slot =>
    simp only [step] at ht
    split at ht
    · next hflash => exact h.powerLost hflash ht
    · have hsettles : s.handoff.Settles .powerLoss := trivial
      exact h.handoffStep hsettles nofun nofun ht
  | bootGo slot ok load mounted => exact h.bootGo ht

def ledger (s : FwUpdate) (es : List UpdateEvent) : UpdateLedger :=
  Step.record step (fun s e l => l.note s e) s es .start

def blankSlot : Slot where
  bytes := fun _ => 0xFF
  touched := fun _ => true

end FwUpdate

end CanSniffer.App
