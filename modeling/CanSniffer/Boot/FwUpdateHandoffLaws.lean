import CanSniffer.Boot.FwUpdateHandoff

namespace CanSniffer.Boot

open Lib

namespace HandoffState

variable {s t : HandoffState} {e : HandoffEvent} {es : List HandoffEvent}

/-- What each event comes to, one case for each way out of it. -/
inductive Moves (s : HandoffState) : HandoffEvent → HandoffState → Prop
  | powerLoss : Moves s .powerLoss { s with point := .reset }
  | requested (hpoint : s.point = .reset) (hvalid : s.marker.isValid = true) :
    Moves s (.isApplyRequested true) { s with point := .applyRequested }
  | notRequested (readOk : Bool) (hpoint : s.point = .reset)
    (hnone : s.isApplyRequested readOk = false) :
    Moves s (.isApplyRequested readOk) { s with point := .bootGo }
  | cleared (r : FlashResult) (hpoint : s.point = .applyRequested) :
    Moves s (.clearApplyRequest r) { s with point := .cleared, marker := r.erase s.marker }
  | activated (hpoint : s.point = .cleared) :
    Moves s (.activate true) { s with point := .bootGo, activated := s.owner :: s.activated }
  | absent (hpoint : s.point = .cleared) : Moves s (.activate false) { s with point := .bootGo }
  | booted (hpoint : s.point = .bootGo) : Moves s (.bootGo true) { s with point := .application }
  | halted (hpoint : s.point = .bootGo) : Moves s (.bootGo false) { s with point := .bootGo }
  | called (hpoint : s.point = .application) :
    Moves s .requestApply { s with point := .requestApply, requests := s.requests + 1 }
  | found (hpoint : s.point = .requestApply) (hvalid : s.marker.isValid = true) :
    Moves s (.readMarker true) s.grant
  | notFound (readOk : Bool) (hpoint : s.point = .requestApply) :
    Moves s (.readMarker readOk) { s with point := .eraseMarker }
  | erased (hpoint : s.point = .eraseMarker) :
    Moves s (.eraseMarker .ok) { s with point := .writeMarker, marker := .erased }
  | notErased (erased : Bool) (hpoint : s.point = .eraseMarker) :
    Moves s (.eraseMarker (.failed erased))
      { s with point := .application, marker := (FlashResult.failed erased).erase s.marker }
  | written (hpoint : s.point = .writeMarker) :
    Moves s (.writeMarker .ok)
      { s with
        point := .readBack
        marker := .apply
        owner := some s.requests
        written := s.requests :: s.written }
  | notWritten (erased : Bool) (hpoint : s.point = .writeMarker) :
    Moves s (.writeMarker (.failed erased))
      { s with point := .application, marker := (FlashResult.failed erased).erase s.marker }
  | granted (hpoint : s.point = .readBack) (hmarker : s.marker = .apply) :
    Moves s (.readBack true) s.grant
  | notGranted (readOk : Bool) (hpoint : s.point = .readBack)
    (hnone : readOk = true → s.marker ≠ .apply) :
    Moves s (.readBack readOk) { s with point := .application }

theorem step_moves (h : step s e = some t) : s.Moves e t := by
  cases e with
  | powerLoss =>
    cases h
    exact .powerLoss
  | isApplyRequested readOk =>
    simp only [step, Option.ite_none_right_eq_some] at h
    obtain ⟨hpoint, ⟨⟩⟩ := h
    split
    · next hrequested =>
      unfold HandoffState.isApplyRequested at hrequested
      obtain ⟨rfl, hvalid⟩ := Bool.and_eq_true_iff.mp hrequested
      exact .requested hpoint hvalid
    · next hnone => exact .notRequested readOk hpoint (Bool.eq_false_iff.mpr hnone)
  | clearApplyRequest r =>
    simp only [step, Option.ite_none_right_eq_some] at h
    obtain ⟨hpoint, ⟨⟩⟩ := h
    exact .cleared r hpoint
  | activate present =>
    simp only [step, Option.ite_none_right_eq_some] at h
    obtain ⟨hpoint, ⟨⟩⟩ := h
    cases present with
    | true => exact .activated hpoint
    | false => exact .absent hpoint
  | bootGo ok =>
    simp only [step, Option.ite_none_right_eq_some] at h
    obtain ⟨hpoint, ⟨⟩⟩ := h
    cases ok with
    | true => exact .booted hpoint
    | false => exact .halted hpoint
  | requestApply =>
    simp only [step, Option.ite_none_right_eq_some] at h
    obtain ⟨hpoint, ⟨⟩⟩ := h
    exact .called hpoint
  | readMarker readOk =>
    simp only [step, Option.ite_none_right_eq_some] at h
    obtain ⟨hpoint, h⟩ := h
    split at h
    · next hfound =>
      obtain ⟨rfl, hvalid⟩ := Bool.and_eq_true_iff.mp hfound
      cases h
      exact .found hpoint hvalid
    · cases h
      exact .notFound readOk hpoint
  | eraseMarker r =>
    simp only [step, Option.ite_none_right_eq_some] at h
    obtain ⟨hpoint, ⟨⟩⟩ := h
    cases r with
    | ok => exact .erased hpoint
    | failed erased => exact .notErased erased hpoint
  | writeMarker r =>
    simp only [step, Option.ite_none_right_eq_some] at h
    obtain ⟨hpoint, ⟨⟩⟩ := h
    cases r with
    | ok => exact .written hpoint
    | failed erased =>
      cases erased with
      | true => exact .notWritten true hpoint
      | false => exact .notWritten false hpoint
  | readBack readOk =>
    simp only [step, Option.ite_none_right_eq_some] at h
    obtain ⟨hpoint, h⟩ := h
    split at h
    · next hmarker =>
      obtain ⟨rfl, hmarker⟩ := Bool.and_eq_true_iff.mp hmarker
      cases h
      exact .granted hpoint (beq_iff_eq.mp hmarker)
    · next hnone =>
      cases h
      refine .notGranted readOk hpoint ?_
      rintro rfl hmarker
      exact hnone (by rw [hmarker]; decide)

def Clears (s : HandoffState) : HandoffEvent → Prop
  | .clearApplyRequest r => (r.erase s.marker).isValid = false
  | _ => True

/-- A call that has written the marker gets to its answer. -/
def Answers (s : HandoffState) : HandoffEvent → Prop
  | .powerLoss => s.point ≠ .readBack
  | .readBack readOk => readOk = true
  | _ => True

instance (s : HandoffState) : (e : HandoffEvent) → Decidable (s.Clears e)
  | .clearApplyRequest r => inferInstanceAs (Decidable ((r.erase s.marker).isValid = false))
  | .powerLoss | .isApplyRequested _ | .activate _ | .bootGo _ | .requestApply | .readMarker _
  | .eraseMarker _ | .writeMarker _ | .readBack _ => .isTrue trivial

instance (s : HandoffState) : (e : HandoffEvent) → Decidable (s.Answers e)
  | .powerLoss => inferInstanceAs (Decidable (s.point ≠ .readBack))
  | .readBack readOk => inferInstanceAs (Decidable (readOk = true))
  | .isApplyRequested _ | .clearApplyRequest _ | .activate _ | .bootGo _ | .requestApply
  | .readMarker _ | .eraseMarker _ | .writeMarker _ => .isTrue trivial

/-- The marker is somebody's whose request has not been served. -/
def Owned (s : HandoffState) : Prop := ∃ n ∈ s.written, s.owner = some n ∧ some n ∉ s.activated

structure Inv (s : HandoffState) : Prop where
  known : ∀ n ∈ s.written, n ≤ s.requests
  fresh : s.point = .requestApply ∨ s.point = .eraseMarker ∨ s.point = .writeMarker →
    ∀ n ∈ s.written, n ≠ s.requests
  owned : s.marker.isValid = true ∨ s.point = .applyRequested ∨ s.point = .cleared → s.Owned
  cleared : s.point = .cleared → s.marker.isValid = false
  once : s.activated.Nodup
  paid : ∀ o ∈ s.activated, ∃ n ∈ s.written, o = some n

theorem start_inv {marker : FwUpdateHandoffRecord} (h : marker.isValid = false) :
    (start marker).Inv := by
  refine ⟨nofun, fun _ => nofun, ?_, nofun, List.nodup_nil, nofun⟩
  rintro (hvalid | hpoint | hpoint)
  · exact absurd (h.symm.trans hvalid) nofun
  · cases hpoint
  · cases hpoint

theorem FlashResult.isValid_erase {r : FlashResult} {word : FwUpdateHandoffRecord}
    (h : (r.erase word).isValid = true) : word.isValid = true := by
  cases r with
  | ok => cases h
  | failed erased =>
    cases erased with
    | true => cases h
    | false => exact h

theorem Inv.goto {p : HandoffPoint} {word : FwUpdateHandoffRecord} (h : s.Inv)
    (hword : word.isValid = true → s.marker.isValid = true)
    (happly : p ≠ .requestApply ∧ p ≠ .eraseMarker ∧ p ≠ .writeMarker)
    (hboot : p ≠ .applyRequested ∧ p ≠ .cleared) :
    Inv { s with point := p, marker := word } := by
  refine ⟨h.known, ?_, ?_, fun hp => absurd hp hboot.2, h.once, h.paid⟩
  · rintro (hp | hp | hp)
    · exact absurd hp happly.1
    · exact absurd hp happly.2.1
    · exact absurd hp happly.2.2
  · rintro (hvalid | hp | hp)
    · exact h.owned (.inl (hword hvalid))
    · exact absurd hp hboot.1
    · exact absurd hp hboot.2

theorem Inv.grant (h : s.Inv) : s.grant.Inv := by
  have hgoto := h.goto (p := .systemReset) id (by decide) (by decide)
  exact ⟨hgoto.known, hgoto.fresh, hgoto.owned, hgoto.cleared, hgoto.once, hgoto.paid⟩

theorem Inv.next {p : HandoffPoint} {word : FwUpdateHandoffRecord} (h : s.Inv)
    (hpoint : s.point = .requestApply ∨ s.point = .eraseMarker)
    (hword : word.isValid = true → s.marker.isValid = true)
    (hp : p ≠ .applyRequested ∧ p ≠ .cleared) : Inv { s with point := p, marker := word } := by
  have hfresh := h.fresh (hpoint.imp_right .inl)
  refine ⟨h.known, fun _ => hfresh, ?_, fun hcleared => absurd hcleared hp.2, h.once, h.paid⟩
  rintro (hvalid | hrequested | hcleared)
  · exact h.owned (.inl (hword hvalid))
  · exact absurd hrequested hp.1
  · exact absurd hcleared hp.2

theorem Inv.activate (h : s.Inv) (hpoint : s.point = .cleared) :
    Inv { s with point := .bootGo, activated := s.owner :: s.activated } := by
  have hinvalid := h.cleared hpoint
  obtain ⟨n, hwritten, howner, hnew⟩ := h.owned (.inr (.inr hpoint))
  refine ⟨h.known, nofun, ?_, nofun, ?_, ?_⟩
  · rintro (hvalid | hp | hp)
    · exact absurd (hinvalid.symm.trans hvalid) nofun
    · cases hp
    · cases hp
  · exact List.nodup_cons.mpr ⟨howner ▸ hnew, h.once⟩
  · intro o ho
    cases ho with
    | head => exact ⟨n, hwritten, howner⟩
    | tail _ ho => exact h.paid o ho

theorem Inv.write (h : s.Inv) (hpoint : s.point = .writeMarker) :
    Inv { s with
      point := .readBack
      marker := .apply
      owner := some s.requests
      written := s.requests :: s.written } := by
  have hfresh := h.fresh (.inr (.inr hpoint))
  refine ⟨?_, nofun, fun _ => ⟨s.requests, List.mem_cons_self, rfl, ?_⟩, nofun, h.once, ?_⟩
  · intro n hn
    cases hn with
    | head => exact Nat.le_refl _
    | tail _ hn => exact h.known n hn
  · intro hactivated
    obtain ⟨n, hn, heq⟩ := h.paid _ hactivated
    exact hfresh n hn (Option.some.inj heq).symm
  · intro o ho
    obtain ⟨n, hn, heq⟩ := h.paid o ho
    exact ⟨n, List.mem_cons_of_mem _ hn, heq⟩

theorem step_inv (h : s.Inv) (hclears : s.Clears e) (ht : step s e = some t) : t.Inv := by
  cases step_moves ht with
  | powerLoss => exact h.goto id (by decide) (by decide)
  | requested hpoint hvalid =>
    exact ⟨h.known, nofun, fun _ => h.owned (.inl hvalid), nofun, h.once, h.paid⟩
  | notRequested readOk hpoint hnone => exact h.goto id (by decide) (by decide)
  | cleared r hpoint =>
    exact ⟨h.known, nofun, fun _ => h.owned (.inr (.inl hpoint)), fun _ => hclears, h.once, h.paid⟩
  | activated hpoint => exact h.activate hpoint
  | absent hpoint => exact h.goto id (by decide) (by decide)
  | booted hpoint => exact h.goto id (by decide) (by decide)
  | halted hpoint => exact h.goto id (by decide) (by decide)
  | called hpoint =>
    refine ⟨fun n hn => Nat.le_succ_of_le (h.known n hn), ?_, ?_, nofun, h.once, h.paid⟩
    · intro _ n hn
      exact Nat.ne_of_lt (Nat.lt_succ_of_le (h.known n hn))
    · rintro (hvalid | hp | hp)
      · exact h.owned (.inl hvalid)
      · cases hp
      · cases hp
  | found hpoint hvalid => exact h.grant
  | notFound readOk hpoint => exact h.next (.inl hpoint) id (by decide)
  | erased hpoint => exact h.next (.inr hpoint) nofun (by decide)
  | notErased erased hpoint =>
    exact h.goto FlashResult.isValid_erase (by decide) (by decide)
  | written hpoint => exact h.write hpoint
  | notWritten erased hpoint =>
    exact h.goto FlashResult.isValid_erase (by decide) (by decide)
  | granted hpoint hmarker => exact h.grant
  | notGranted readOk hpoint hnone => exact h.goto id (by decide) (by decide)

/-- Every call that wrote the marker has returned OK or is about to. -/
structure Answered (s : HandoffState) : Prop where
  marker : s.point = .readBack → s.marker = .apply
  written : ∀ n ∈ s.written, n ∈ s.granted ∨ s.point = .readBack ∧ n = s.requests
  activated : ∀ o ∈ s.activated, ∃ n ∈ s.granted, o = some n

theorem start_answered (marker : FwUpdateHandoffRecord) : (start marker).Answered :=
  ⟨nofun, nofun, nofun⟩

theorem Answered.goto {p : HandoffPoint} {word : FwUpdateHandoffRecord} {requests : Nat}
    (h : s.Answered) (hpoint : s.point ≠ .readBack) (hp : p ≠ .readBack) :
    Answered { s with point := p, marker := word, requests := requests } := by
  refine ⟨fun hback => absurd hback hp, fun n hn => ?_, h.activated⟩
  rcases h.written n hn with hgranted | ⟨hback, -⟩
  · exact .inl hgranted
  · exact absurd hback hpoint

theorem Answered.grant (h : s.Answered) : s.grant.Answered := by
  refine ⟨nofun, fun n hn => .inl ?_, fun o ho => ?_⟩
  · rcases h.written n hn with hgranted | ⟨-, rfl⟩
    · exact List.mem_cons_of_mem _ hgranted
    · exact List.mem_cons_self
  · obtain ⟨n, hn, rfl⟩ := h.activated o ho
    exact ⟨n, List.mem_cons_of_mem _ hn, rfl⟩

theorem Answered.activate (h : s.Answered) (hinv : s.Inv) (hpoint : s.point = .cleared) :
    Answered { s with point := .bootGo, activated := s.owner :: s.activated } := by
  have hnot : s.point ≠ .readBack := hpoint ▸ nofun
  have hgone : Answered { s with point := .bootGo } := h.goto hnot nofun
  refine ⟨hgone.marker, hgone.written, fun o ho => ?_⟩
  cases ho with
  | head =>
    obtain ⟨n, hwritten, howner, -⟩ := hinv.owned (.inr (.inr hpoint))
    rcases h.written n hwritten with hgranted | ⟨hback, -⟩
    · exact ⟨n, hgranted, howner⟩
    · exact absurd hback hnot
  | tail _ ho => exact h.activated o ho

theorem Answered.write (h : s.Answered) (hpoint : s.point = .writeMarker) :
    Answered { s with
      point := .readBack
      marker := .apply
      owner := some s.requests
      written := s.requests :: s.written } := by
  refine ⟨fun _ => rfl, fun n hn => ?_, h.activated⟩
  cases hn with
  | head => exact .inr ⟨rfl, rfl⟩
  | tail _ hn =>
    rcases h.written n hn with hgranted | ⟨hback, -⟩
    · exact .inl hgranted
    · exact absurd (hpoint.symm.trans hback) nofun

theorem step_answered (h : s.Answered) (hinv : s.Inv) (hanswers : s.Answers e)
    (ht : step s e = some t) : t.Answered := by
  cases step_moves ht with
  | powerLoss => exact h.goto hanswers nofun
  | requested hpoint hvalid => exact h.goto (hpoint ▸ nofun) nofun
  | notRequested readOk hpoint hnone => exact h.goto (hpoint ▸ nofun) nofun
  | cleared r hpoint => exact h.goto (hpoint ▸ nofun) nofun
  | activated hpoint => exact h.activate hinv hpoint
  | absent hpoint => exact h.goto (hpoint ▸ nofun) nofun
  | booted hpoint => exact h.goto (hpoint ▸ nofun) nofun
  | halted hpoint => exact h.goto (hpoint ▸ nofun) nofun
  | called hpoint => exact h.goto (hpoint ▸ nofun) nofun
  | found hpoint hvalid => exact h.grant
  | notFound readOk hpoint => exact h.goto (hpoint ▸ nofun) nofun
  | erased hpoint => exact h.goto (hpoint ▸ nofun) nofun
  | notErased erased hpoint => exact h.goto (hpoint ▸ nofun) nofun
  | written hpoint => exact h.write hpoint
  | notWritten erased hpoint => exact h.goto (hpoint ▸ nofun) nofun
  | granted hpoint hmarker => exact h.grant
  | notGranted readOk hpoint hnone => exact absurd (h.marker hpoint) (hnone hanswers)

/-- No request is served twice and none that was not written; where every call that wrote the
marker gets to its answer, there are no more activations than calls that returned OK. -/
theorem activated_once {marker : FwUpdateHandoffRecord} (hmarker : marker.isValid = false)
    (hclears : Step.Along step Clears (start marker) es)
    (hrun : Step.run step (start marker) es = some s) :
    s.activated.Nodup ∧ (∀ o ∈ s.activated, ∃ n ∈ s.written, o = some n) ∧
      (Step.Along step Answers (start marker) es → s.activated.length ≤ s.granted.length) := by
  have h : s.Inv :=
    Step.run_invariant_along (fun hs hc ht => step_inv hs hc ht) (start_inv hmarker) hclears hrun
  refine ⟨h.once, h.paid, fun hanswers => ?_⟩
  have hboth : Step.Along step (fun s e => s.Clears e ∧ s.Answers e) (start marker) es :=
    Step.along_and hclears hanswers
  have hanswered : s.Inv ∧ s.Answered := by
    refine Step.run_invariant_along (I := fun s => s.Inv ∧ s.Answered) ?_
      ⟨start_inv hmarker, start_answered marker⟩ hboth hrun
    rintro s e t ⟨hinv, hs⟩ ⟨hclears, hanswers⟩ ht
    exact ⟨step_inv hinv hclears ht, step_answered hs hinv hanswers ht⟩
  have hsubset : s.activated ⊆ s.granted.map some := by
    intro o ho
    obtain ⟨n, hn, rfl⟩ := hanswered.2.activated o ho
    exact List.mem_map_of_mem hn
  have hle := h.once.length_le_of_subset hsubset
  rwa [List.length_map] at hle

def applied : List HandoffEvent :=
  [.isApplyRequested true, .bootGo true, .requestApply, .readMarker true, .eraseMarker .ok,
    .writeMarker .ok, .readBack true, .powerLoss, .isApplyRequested true]

def twice : List HandoffEvent :=
  applied ++ [.clearApplyRequest .ok, .powerLoss] ++ applied ++ [.clearApplyRequest .ok, .activate true]

theorem activated_once_applied :
    ∃ s, Step.run step (start .erased) twice = some s ∧ s.activated = [some 2] ∧
      s.activated.length ≤ s.granted.length := by
  have hclears : Step.Along step Clears (start .erased) twice := by decide
  have hanswers : Step.Along step Answers (start .erased) twice := by decide
  exact ⟨_, rfl, rfl, (activated_once rfl hclears rfl).2.2 hanswers⟩

/-- The erase of the marker fails, and the next start activates the image again. -/
theorem failed_clear_activates_twice :
    ¬∀ (marker : FwUpdateHandoffRecord) (es : List HandoffEvent) (s : HandoffState),
      marker.isValid = false → Step.run step (start marker) es = some s →
      s.activated.length ≤ s.granted.length ∧ (s.activated ≠ [] → s.written ≠ []) := by
  intro h
  have htwice := (h .erased (applied ++ [.clearApplyRequest (.failed false), .activate true, .powerLoss,
    .isApplyRequested true, .clearApplyRequest .ok, .activate true]) _ rfl rfl).1
  exact absurd htwice (by decide)

end HandoffState

end CanSniffer.Boot
