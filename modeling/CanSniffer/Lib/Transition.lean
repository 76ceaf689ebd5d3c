/-! Labelled partial steps.  Whatever the environment chooses is part of the
label, so a run is determined by its start and its list of labels. -/

universe u v w

namespace CanSniffer.Lib

abbrev Step (σ : Type u) (Λ : Type v) := σ → Λ → Option σ

namespace Step

variable {σ : Type u} {Λ : Type v} {β : Type w} {step : Step σ Λ}

def run (step : Step σ Λ) : σ → List Λ → Option σ
  | s, [] => some s
  | s, l :: ls => (step s l).bind fun t => run step t ls

@[simp] theorem run_nil : run step s [] = some s := rfl

theorem run_cons : run step s (l :: ls) = (step s l).bind fun t => run step t ls := rfl

theorem run_cons_eq_some :
    run step s (l :: ls) = some u ↔ ∃ t, step s l = some t ∧ run step t ls = some u := by
  simp [run_cons, Option.bind_eq_some_iff]

theorem run_append (s : σ) (ls ms : List Λ) :
    run step s (ls ++ ms) = (run step s ls).bind fun t => run step t ms := by
  induction ls generalizing s with
  | nil => rfl
  | cons l ls ih =>
    simp only [List.cons_append, run_cons]
    cases step s l with
    | none => rfl
    | some t => exact ih t

theorem run_append_eq_some :
    run step s (ls ++ ms) = some u ↔ ∃ t, run step s ls = some t ∧ run step t ms = some u := by
  simp [run_append, Option.bind_eq_some_iff]

theorem run_snoc (h : run step s ls = some t) (h' : step t l = some u) :
    run step s (ls ++ [l]) = some u := by
  rw [run_append_eq_some]
  exact ⟨t, h, by simp [run_cons, h']⟩

def Reachable (step : Step σ Λ) (s t : σ) : Prop := ∃ ls, run step s ls = some t

theorem Reachable.next (h : Reachable step s t) (h' : step t l = some u) :
    Reachable step s u := by
  obtain ⟨ls, hr⟩ := h
  exact ⟨ls ++ [l], run_snoc hr h'⟩

theorem run_invariant {I : σ → Prop} (hI : ∀ {s l t}, I s → step s l = some t → I t)
    (hs : I s) (h : run step s ls = some t) : I t := by
  induction ls generalizing s with
  | nil =>
    obtain rfl : s = t := by simpa using h
    exact hs
  | cons l ls ih =>
    obtain ⟨m, hm, h⟩ := run_cons_eq_some.mp h
    exact ih (hI hs hm) h

theorem Reachable.invariant {I : σ → Prop} (hI : ∀ {s l t}, I s → step s l = some t → I t)
    (hs : I s) (h : Reachable step s t) : I t := by
  obtain ⟨ls, h⟩ := h
  exact run_invariant hI hs h

def record (step : Step σ Λ) (note : σ → Λ → β → β) : σ → List Λ → β → β
  | _, [], b => b
  | s, l :: ls, b =>
    match step s l with
    | some t => record step note t ls (note s l b)
    | none => b

theorem run_record_invariant {note : σ → Λ → β → β} {I : σ → β → Prop}
    (hI : ∀ {s l t b}, I s b → step s l = some t → I t (note s l b)) (hs : I s b)
    (h : run step s ls = some t) : I t (record step note s ls b) := by
  induction ls generalizing s b with
  | nil =>
    obtain rfl : s = t := by simpa using h
    exact hs
  | cons l ls ih =>
    obtain ⟨m, hm, h⟩ := run_cons_eq_some.mp h
    rw [record, hm]
    exact ih (hI hs hm) h

def Along (step : Step σ Λ) (C : σ → Λ → Prop) : σ → List Λ → Prop
  | _, [] => True
  | s, l :: ls => C s l ∧ ∀ t, step s l = some t → Along step C t ls

instance decidableAlong (step : Step σ Λ) (C : σ → Λ → Prop) [∀ s l, Decidable (C s l)] :
    ∀ s ls, Decidable (Along step C s ls)
  | _, [] => .isTrue trivial
  | s, l :: ls =>
    match h : step s l with
    | none => decidable_of_iff (C s l) (by simp [Along, h])
    | some t =>
      have := decidableAlong step C t ls
      decidable_of_iff (C s l ∧ Along step C t ls) (by simp [Along, h])

theorem along_and {C D : σ → Λ → Prop} (hC : Along step C s ls) (hD : Along step D s ls) :
    Along step (fun s l => C s l ∧ D s l) s ls := by
  induction ls generalizing s with
  | nil => trivial
  | cons l ls ih => exact ⟨⟨hC.1, hD.1⟩, fun t ht => ih (hC.2 t ht) (hD.2 t ht)⟩

theorem run_invariant_along {I : σ → Prop} {C : σ → Λ → Prop}
    (hI : ∀ {s l t}, I s → C s l → step s l = some t → I t)
    (hs : I s) (hC : Along step C s ls) (h : run step s ls = some t) : I t := by
  induction ls generalizing s with
  | nil =>
    obtain rfl : s = t := by simpa using h
    exact hs
  | cons l ls ih =>
    obtain ⟨m, hm, h⟩ := run_cons_eq_some.mp h
    exact ih (hI hs hC.1 hm) (hC.2 m hm) h

theorem run_record_along {note : σ → Λ → β → β} {I : σ → β → Prop} {C : σ → Λ → Prop}
    (hI : ∀ {s l t b}, I s b → C s l → step s l = some t → I t (note s l b)) (hs : I s b)
    (hC : Along step C s ls) (h : run step s ls = some t) : I t (record step note s ls b) := by
  induction ls generalizing s b with
  | nil =>
    obtain rfl : s = t := by simpa using h
    exact hs
  | cons l ls ih =>
    obtain ⟨m, hm, h⟩ := run_cons_eq_some.mp h
    rw [record, hm]
    exact ih (hI hs hC.1 hm) (hC.2 m hm) h

theorem record_eq_foldl {note : σ → Λ → β → β} {f : γ → Λ → γ} {p : β → γ}
    (hp : ∀ s l b, p (note s l b) = f (p b) l) (h : run step s ls = some t) (b : β) :
    p (record step note s ls b) = ls.foldl f (p b) := by
  induction ls generalizing s b with
  | nil => rfl
  | cons l ls ih =>
    obtain ⟨m, hm, h⟩ := run_cons_eq_some.mp h
    rw [record, hm, List.foldl_cons, ← hp s]
    exact ih h _

theorem run_foldl_along {f : β → Λ → β} {I : σ → β → Prop} {C : σ → Λ → Prop}
    (hI : ∀ {s l t b}, I s b → C s l → step s l = some t → I t (f b l)) (hs : I s b)
    (hC : Along step C s ls) (h : run step s ls = some t) : I t (ls.foldl f b) := by
  have hrecord : record step (fun _ l b => f b l) s ls b = ls.foldl f b :=
    record_eq_foldl (p := id) (fun _ _ _ => rfl) h b
  rw [← hrecord]
  exact run_record_along hI hs hC h

theorem along_append {C : σ → Λ → Prop} (hs : Along step C s ls)
    (hm : ∀ t, run step s ls = some t → Along step C t ms) : Along step C s (ls ++ ms) := by
  induction ls generalizing s with
  | nil => exact hm s rfl
  | cons l ls ih =>
    refine ⟨hs.1, ?_⟩
    intro t ht
    exact ih (hs.2 t ht) fun u hu => hm u (run_cons_eq_some.mpr ⟨t, ht, hu⟩)

theorem along_congr {I : σ → Prop} {C D : σ → Λ → Prop}
    (hCD : ∀ {s l}, I s → (C s l ↔ D s l))
    (hI : ∀ {s l t}, I s → C s l → step s l = some t → I t) (hs : I s) :
    Along step C s ls ↔ Along step D s ls := by
  induction ls generalizing s with
  | nil => exact Iff.rfl
  | cons l ls ih =>
    rw [Along, Along]
    constructor
    · rintro ⟨hC, hrest⟩
      exact ⟨(hCD hs).mp hC, fun t ht => (ih (hI hs hC ht)).mp (hrest t ht)⟩
    · rintro ⟨hD, hrest⟩
      have hC := (hCD hs).mpr hD
      exact ⟨hC, fun t ht => (ih (hI hs hC ht)).mpr (hrest t ht)⟩

theorem along_of_forall {I : σ → Prop} {C : σ → Λ → Prop}
    (hI : ∀ {s l t}, I s → step s l = some t → I t) (hs : I s)
    (hC : ∀ l ∈ ls, ∀ s, I s → C s l) : Along step C s ls := by
  induction ls generalizing s with
  | nil => trivial
  | cons l ls ih =>
    refine ⟨hC l (List.mem_cons_self ..) s hs, ?_⟩
    intro t ht
    exact ih (hI hs ht) fun m hm => hC m (List.mem_cons_of_mem _ hm)

def Throughout (step : Step σ Λ) (P : σ → Prop) (s : σ) (ls : List Λ) : Prop :=
  ∀ ms t, ms <+: ls → run step s ms = some t → P t

theorem throughout_congr {P Q : σ → Prop} (h : ∀ t, Reachable step s t → (P t ↔ Q t)) :
    Throughout step P s ls ↔ Throughout step Q s ls := by
  constructor
  · intro hP ms t hms hrun
    exact (h t ⟨ms, hrun⟩).mp (hP ms t hms hrun)
  · intro hQ ms t hms hrun
    exact (h t ⟨ms, hrun⟩).mpr (hQ ms t hms hrun)

theorem throughout_nil {P : σ → Prop} : Throughout step P s [] ↔ P s := by
  constructor
  · intro h
    exact h [] s (List.prefix_refl []) rfl
  · intro h ms t hms hrun
    obtain rfl := List.prefix_nil.mp hms
    obtain rfl : s = t := by simpa using hrun
    exact h

theorem throughout_cons {P : σ → Prop} :
    Throughout step P s (l :: ls) ↔ P s ∧ ∀ t, step s l = some t → Throughout step P t ls := by
  constructor
  · intro h
    refine ⟨h [] s (List.nil_prefix ..) rfl, ?_⟩
    intro t ht ms u hms hrun
    exact h (l :: ms) u (List.cons_prefix_cons.mpr ⟨rfl, hms⟩) (run_cons_eq_some.mpr ⟨t, ht, hrun⟩)
  · rintro ⟨hs, hrest⟩ ms u hms hrun
    cases ms with
    | nil =>
      obtain rfl : s = u := by simpa using hrun
      exact hs
    | cons m ms =>
      obtain ⟨rfl, hrestms⟩ := List.cons_prefix_cons.mp hms
      obtain ⟨t, ht, htail⟩ := run_cons_eq_some.mp hrun
      exact hrest t ht ms u hrestms htail

theorem throughout_iff_along {I P : σ → Prop} {C : σ → Λ → Prop}
    (hI : ∀ {s l t}, I s → step s l = some t → I t)
    (hstep : ∀ {s l t}, I s → P s → step s l = some t → (P t ↔ C s l))
    (hnone : ∀ {s l}, I s → step s l = none → C s l) (hs : I s) (hP : P s) :
    Throughout step P s ls ↔ Along step C s ls := by
  induction ls generalizing s with
  | nil => exact iff_of_true (throughout_nil.mpr hP) trivial
  | cons l ls ih =>
    rw [throughout_cons, Along, and_iff_right hP]
    cases hl : step s l with
    | none => exact iff_of_true (by simp) ⟨hnone hs hl, by simp⟩
    | some t =>
      have hkept := hstep hs hP hl
      constructor
      · intro h
        have ht := h t rfl
        have hPt : P t := by
          cases ls with
          | nil => exact throughout_nil.mp ht
          | cons m ms => exact (throughout_cons.mp ht).1
        refine ⟨hkept.mp hPt, ?_⟩
        rintro u hu
        cases hu
        exact (ih (hI hs hl) hPt).mp ht
      · rintro ⟨hC, hrest⟩ u hu
        cases hu
        exact (ih (hI hs hl) (hkept.mpr hC)).mpr (hrest t rfl)

end Step

end CanSniffer.Lib
