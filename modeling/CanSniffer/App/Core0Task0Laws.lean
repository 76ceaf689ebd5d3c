import CanSniffer.App.Core0Task0

namespace CanSniffer.App

open Lib

namespace Core0Task0

variable {s t : Core0Task0} {l : LoopEvent} {ls : List LoopEvent}

theorem give_current (s : Core0Task0) : s.give.Current := ⟨⟨rfl, rfl⟩, ⟨rfl, rfl⟩⟩

def Gives (s : Core0Task0) (canConfigChanged : Bool) : Prop :=
  s.ctrl.applyConfig = true ∧ s.ctrl.runCanTracer = false ∧ canConfigChanged = true

theorem handleApply_of_gives {ch : Bool} (h : s.Gives ch) :
    s.handleApply ch = { s.give with ctrl.applyConfig := false } := by
  obtain ⟨ha, hr, hc⟩ := h
  rw [handleApply, if_pos ⟨ha, hr⟩, if_pos hc]

theorem handleApply_of_not_gives {ch : Bool} (h : ¬s.Gives ch) :
    s.handleApply ch = { s with ctrl.applyConfig := false } := by
  unfold handleApply
  split
  · next hstopped =>
    rw [if_neg fun hc => h ⟨hstopped.1, hstopped.2, hc⟩]
  · rfl

theorem handleApply_current_iff {ch : Bool} :
    (s.handleApply ch).Current ↔ s.Gives ch ∨ s.Current := by
  by_cases h : s.Gives ch
  · rw [handleApply_of_gives h]
    exact iff_of_true s.give_current (.inl h)
  · rw [handleApply_of_not_gives h]
    constructor
    · intro hc
      exact .inr hc
    · rintro (hg | hc)
      · exact absurd hg h
      · exact hc

theorem handleApply_missed (s : Core0Task0) (ch : Bool) : (s.handleApply ch).missed = s.missed := by
  unfold handleApply
  split
  · split
    · rfl
    · rfl
  · rfl

def Served (s : Core0Task0) : LoopEvent → Prop
  | .applied =>
    ∀ ch, s.point = .apply ch → s.asked = true → s.ctrl.runCanTracer = false → s.Gives ch ∨ s.Current
  | _ => True

theorem afterApply_missed_iff {ch : Bool} (hp : s.point = .apply ch) (hm : s.missed = false) :
    (s.afterApply ch).missed = false ↔ s.Served .applied := by
  have hserved : s.Served .applied ↔
      (s.asked = true → s.ctrl.runCanTracer = false → (s.handleApply ch).Current) := by
    rw [handleApply_current_iff]
    constructor
    · intro h
      exact h ch hp
    · intro h ch' hp'
      cases hp.symm.trans hp'
      exact h
  rw [hserved, afterApply]
  by_cases hrun : s.ctrl.runCanTracer = true
  · simp [hrun, handleApply_missed, hm]
  · by_cases hc : (s.handleApply ch).Current
    · simp [hrun, hc, hm]
    · simp [hrun, hc, hm]

theorem step_missed (h : step s l = some t) :
    (∃ ch, s.point = .apply ch ∧ l = .applied ∧ t = s.afterApply ch) ∨
      l ≠ .applied ∧ t.missed = s.missed := by
  unfold step at h
  split at h
  · next param value hp =>
    refine .inr ⟨nofun, ?_⟩
    unfold consumeParamValues at h
    grind
  · exact .inr ⟨nofun, by cases h; rfl⟩
  · exact .inr ⟨nofun, by cases h; rfl⟩
  · next ch hp => exact .inl ⟨ch, hp, rfl, (Option.some.inj h).symm⟩
  · exact .inr ⟨nofun, by cases h; rfl⟩
  · cases h

theorem step_missed_iff (hm : s.missed = false) (h : step s l = some t) :
    t.missed = false ↔ s.Served l := by
  rcases step_missed h with ⟨ch, hp, rfl, rfl⟩ | ⟨hl, ht⟩
  · exact afterApply_missed_iff hp hm
  · rw [ht]
    refine iff_of_true hm ?_
    cases l with
    | applied => exact absurd rfl hl
    | param => trivial
    | action => trivial
    | logStopped => trivial
    | polled => trivial

theorem served_of_stuck (h : step s l = none) : s.Served l := by
  cases l with
  | applied =>
    intro ch hp
    simp [step, hp] at h
  | param => trivial
  | action => trivial
  | logStopped => trivial
  | polled => trivial

theorem start_missed (load : ConfigLoad) : (start load).missed = false := by
  cases load with
  | notInitialized => rfl
  | notLoaded => rfl
  | loaded => rfl

/-- No request is missed exactly if each one is seen, with the tracer stopped, in the pass that
also sees a setting change, or the drivers hold the settings anyway. -/
theorem served_iff (load : ConfigLoad) (ls : List LoopEvent) :
    Step.Throughout step (fun s => s.missed = false) (start load) ls ↔
      Step.Along step Served (start load) ls :=
  Step.throughout_iff_along (I := fun _ => True) (fun _ _ => trivial)
    (fun _ hm h => step_missed_iff hm h) (fun _ h => served_of_stuck h) trivial (start_missed load)

/-- The change is saved in one pass and applied in the next. -/
theorem saved_change_missed :
    ¬∀ load ls, Step.Throughout step (fun s => s.missed = false) (start load) ls := by
  intro h
  have hmissed := h .notLoaded
    [.param "baud1" "500000", .polled, .applied, .param "action" "apply", .polled, .applied]
    _ _ (List.prefix_refl _) rfl
  exact absurd hmissed (by decide)

def Unasked (g1 g2 : Given) (s : Core0Task0) : Prop :=
  s.ctrl.applyConfig = false ∧ s.driver1 = g1 ∧ s.driver2 = g2

theorem Unasked.consumeParamValues {g1 g2 : Given} {param value : String} (h : s.Unasked g1 g2)
    (hl : ¬(param = "action" ∧ value = "apply"))
    (ht : s.consumeParamValues param value = some t) : t.Unasked g1 g2 := by
  unfold Core0Task0.consumeParamValues at ht
  split at ht
  · cases ht
  · split at ht
    · cases ht
      exact h
    · split at ht
      · cases ht
        exact h
      · cases ht
        exact h

theorem Unasked.pollAction {g1 g2 : Given} (h : s.Unasked g1 g2) : s.afterPoll.Unasked g1 g2 := by
  refine ⟨?_, h.2⟩
  rw [← h.1]
  simp only [afterPoll, AppControlData.pollAction]
  grind

theorem afterApply_unasked {ch : Bool} (h : ¬s.Gives ch) :
    (s.afterApply ch).Unasked s.driver1 s.driver2 := by
  unfold afterApply
  rw [handleApply_of_not_gives h]
  split
  · exact ⟨rfl, rfl, rfl⟩
  · exact ⟨rfl, rfl, rfl⟩

theorem Unasked.step {g1 g2 : Given} (h : s.Unasked g1 g2) (hl : l ≠ .param "action" "apply")
    (ht : step s l = some t) : t.Unasked g1 g2 := by
  unfold Core0Task0.step at ht
  split at ht
  · refine h.consumeParamValues ?_ ht
    rintro ⟨rfl, rfl⟩
    exact hl rfl
  · cases ht
    exact h
  · cases ht
    exact h.pollAction
  · next ch hp =>
    cases ht
    have hgives : ¬s.Gives ch := fun hg => Bool.noConfusion (h.1.symm.trans hg.1)
    rw [← h.2.1, ← h.2.2]
    exact afterApply_unasked hgives
  · cases ht
    exact h
  · cases ht

theorem run_of_request_while_running {ch : Bool} (hp : s.point = .apply ch)
    (hrun : s.ctrl.runCanTracer = true) (hls : ∀ l ∈ ls, l ≠ .param "action" "apply")
    (h : Step.run step s (.applied :: ls) = some t) :
    t.driver1 = s.driver1 ∧ t.driver2 = s.driver2 := by
  obtain ⟨u, hu, hrest⟩ := Step.run_cons_eq_some.mp h
  have hgives : ¬s.Gives ch := fun hg => Bool.noConfusion (hrun.symm.trans hg.2.1)
  have hunasked : u.Unasked s.driver1 s.driver2 := by
    simp only [step, hp, Option.some.injEq] at hu
    rw [← hu]
    exact afterApply_unasked hgives
  have hkept := Step.run_invariant_along (C := fun _ l => l ≠ .param "action" "apply")
    (fun hs hc hst => Unasked.step hs hc hst) hunasked
    (Step.along_of_forall (I := fun _ => True) (fun _ _ => trivial) trivial fun l hl _ _ => hls l hl)
    hrest
  exact hkept.2

end Core0Task0

end CanSniffer.App
