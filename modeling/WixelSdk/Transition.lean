import Mathlib.Logic.Relation
import Mathlib.Tactic.SplitIfs

/-!
# Runs of a labelled transition system

A system is a partial step function `step : σ → ι → Option σ`. A run restricted by `C` takes only
steps whose action is allowed by `C` in the state before it. `invariant` is the induction rule for
such runs, `strengthen` lets a run assume an invariant at each of its steps, and `exec` evaluates a
given list of actions, so that a concrete run can be computed.
-/

namespace WixelSdk.Transition

variable {σ ι : Type*} {step : σ → ι → Option σ} {C : σ → ι → Prop}

def Step (step : σ → ι → Option σ) (C : σ → ι → Prop) (s t : σ) : Prop :=
  ∃ a, C s a ∧ step s a = some t

/-- The states that runs allowed by `C` lead to. -/
abbrev Run (step : σ → ι → Option σ) (C : σ → ι → Prop) : σ → σ → Prop :=
  Relation.ReflTransGen (Step step C)

theorem Run.invariant {I : σ → Prop} {s t : σ} (hr : Run step C s t) (h₀ : I s)
    (hstep : ∀ s a t, I s → C s a → step s a = some t → I t) : I t := by
  induction hr with
  | refl => exact h₀
  | tail _ hs ih =>
      obtain ⟨a, ha, he⟩ := hs
      exact hstep _ a _ ih ha he

theorem Run.mono {D : σ → ι → Prop} {s t : σ} (hr : Run step C s t) (h : ∀ s a, C s a → D s a) :
    Run step D s t := by
  induction hr with
  | refl => exact .refl
  | tail _ hs ih =>
      obtain ⟨a, ha, he⟩ := hs
      exact ih.tail ⟨a, h _ a ha, he⟩

/-- A run may use an invariant as a condition on each of its steps. -/
theorem Run.strengthen {I : σ → Prop} {s t : σ} (hr : Run step C s t) (h₀ : I s)
    (hstep : ∀ s a t, I s → C s a → step s a = some t → I t) :
    Run step (fun s a => C s a ∧ I s) s t := by
  induction hr with
  | refl => exact .refl
  | @tail u v hsu hs ih =>
      obtain ⟨a, ha, he⟩ := hs
      exact ih.tail ⟨a, ⟨ha, Run.invariant hsu h₀ hstep⟩, he⟩

variable [∀ s a, Decidable (C s a)]

/-- Takes the listed actions one after the other, stopping at the first that is not allowed. -/
def exec (step : σ → ι → Option σ) (C : σ → ι → Prop) [∀ s a, Decidable (C s a)] :
    σ → List ι → Option σ
  | s, [] => some s
  | s, a :: as => if C s a then (step s a).bind fun t => exec step C t as else none

theorem run_of_exec {s t : σ} {as : List ι} (h : exec step C s as = some t) : Run step C s t := by
  induction as generalizing s with
  | nil => simp only [exec, Option.some.injEq] at h; rw [h]
  | cons a as ih =>
      simp only [exec] at h
      split_ifs at h with ha
      obtain ⟨u, hu, ht⟩ := Option.bind_eq_some_iff.mp h
      exact (Relation.ReflTransGen.single ⟨a, ha, hu⟩).trans (ih ht)

/-- A computed run whose last state is observed through `f`. -/
theorem exists_run_of_exec {β : Type*} {f : σ → β} {s : σ} {as : List ι} {v : β}
    (h : (exec step C s as).map f = some v) : ∃ t, Run step C s t ∧ f t = v := by
  obtain ⟨t, ht, hv⟩ := Option.map_eq_some_iff.mp h
  exact ⟨t, run_of_exec ht, hv⟩

end WixelSdk.Transition
