import Mathlib.Data.List.Basic

universe u v

namespace CanSniffer.Lib

variable {σ : Type u} {α : Type v} {step : σ → α → σ × Bool}

/-- From `s` to `t`; the last answer is whether none has failed. -/
inductive UntilFailure (step : σ → α → σ × Bool) : σ → List α → σ → Bool → Prop
  | nil : UntilFailure step s [] s true
  | fail (h : (step s a).2 = false) : UntilFailure step s (a :: todo) (step s a).1 false
  | next (h : (step s a).2 = true) (hrest : UntilFailure step (step s a).1 todo t ok) :
      UntilFailure step s (a :: todo) t ok

/-- All of `todo` was done, or what comes before an operation that failed. -/
inductive Outcome (todo : List α) : List (α × Bool) → Bool → Prop
  | done : Outcome todo (todo.map (·, true)) true
  | failed (before : List α) (a : α) (rest : List α) (hsplit : todo = before ++ a :: rest) :
      Outcome todo (before.map (·, true) ++ [(a, false)]) false

namespace UntilFailure

theorem log {log : σ → List (α × Bool)}
    (hlog : ∀ s a, log (step s a).1 = log s ++ [(a, (step s a).2)])
    (h : UntilFailure step s todo t ok) :
    ∃ done, log t = log s ++ done ∧ Outcome todo done ok := by
  induction h with
  | nil => exact ⟨[], by simp, .done⟩
  | @fail s a todo hfail =>
    exact ⟨[(a, false)], by rw [hlog, hfail], Outcome.failed [] a todo rfl⟩
  | @next s a todo t ok hok _ ih =>
    obtain ⟨done, hdone, houtcome⟩ := ih
    refine ⟨(a, true) :: done, by rw [hdone, hlog, hok]; simp, ?_⟩
    cases houtcome with
    | done => exact .done
    | failed before b rest hsplit => exact .failed (a :: before) b rest (by rw [hsplit]; rfl)

theorem invariant {P : σ → Prop} (hP : ∀ s a, a ∈ todo → P s → P (step s a).1)
    (h : UntilFailure step s todo t ok) (hs : P s) : P t := by
  induction h with
  | nil => exact hs
  | fail hfail => exact hP _ _ List.mem_cons_self hs
  | next hok _ ih =>
    exact ih (fun u b hb => hP u b (List.mem_cons_of_mem _ hb)) (hP _ _ List.mem_cons_self hs)

end UntilFailure

end CanSniffer.Lib
