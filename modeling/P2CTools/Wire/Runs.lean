import Mathlib.Logic.Function.Iterate
import Mathlib.Logic.Relation

/-!
# Runs

Systems that take one step after another, and what holds all along the way.

A step is a relation, so that a system may be one program that always has a
next state, or several whose steps interleave in any order. A run is the
reflexive and transitive closure. Everything that is said about whole runs
comes from `Run.invariant`: what a step preserves, a run preserves. A run whose
steps all meet a condition is a run of the relation restricted to it, so the
same rule serves when the condition is needed.

## Main definitions

* `Run`: A run of a step relation.
* `Following`: The steps of a function.
* `Guarded`: The steps that start where a condition holds.

## Theorems

* `Run.invariant`: The invariant rule.
* `Run.project`: A projection of a run is a run, up to steps that it hides.
* `Run.of_guarded`: A guarded run is a run.
* `run_iterate`, `guarded_iterate`: Iterating a function is a run.
-/

namespace Wire

variable {σ : Type}

/-- A run from one state to another. -/
abbrev Run (step : σ → σ → Prop) : σ → σ → Prop :=
  Relation.ReflTransGen step

/-- The steps of a system that always has one next state. -/
def Following (next : σ → σ) (s s' : σ) : Prop :=
  s' = next s

/-- The steps that start where a condition holds. -/
def Guarded (guard : σ → Prop) (step : σ → σ → Prop) (s s' : σ) : Prop :=
  guard s ∧ step s s'

/-- What holds at the start and is preserved by every step holds after a run. -/
theorem Run.invariant {step : σ → σ → Prop} {Inv : σ → Prop} {s s' : σ} (h : Run step s s')
    (hstep : ∀ t t', Inv t → step t t' → Inv t') (hs : Inv s) : Inv s' := by
  induction h with
  | refl => exact hs
  | tail _ htail ih => exact hstep _ _ ih htail

/-- If every step is hidden by a projection or is a step of another system, the
    projection of a run is a run of that system. What the steps need may be
    something that is known at the end of the run only, as long as it holds
    before a step whenever it holds after it. -/
theorem Run.project {τ : Type} {step : σ → σ → Prop} {step' : τ → τ → Prop} (f : σ → τ)
    {Known : σ → Prop} (hback : ∀ t t', step t t' → Known t' → Known t)
    (hstep : ∀ t t', step t t' → Known t' → f t' = f t ∨ step' (f t) (f t')) {s s' : σ}
    (h : Run step s s') (hs' : Known s') : Run step' (f s) (f s') := by
  induction h with
  | refl => exact Relation.ReflTransGen.refl
  | tail _ hlast ih =>
      have hrun := ih (hback _ _ hlast hs')
      rcases hstep _ _ hlast hs' with hsame | hmove
      · rw [hsame]
        exact hrun
      · exact hrun.tail hmove

theorem Run.of_guarded {guard : σ → Prop} {step : σ → σ → Prop} {s s' : σ}
    (h : Run (Guarded guard step) s s') : Run step s s' := by
  induction h with
  | refl => exact Relation.ReflTransGen.refl
  | tail _ hlast ih => exact ih.tail hlast.2

/-- Iterating a function from states that meet the condition is a guarded run. -/
theorem guarded_iterate {guard : σ → Prop} (next : σ → σ) (s : σ) (n : Nat)
    (h : ∀ k < n, guard (next^[k] s)) : Run (Guarded guard (Following next)) s (next^[n] s) := by
  induction n with
  | zero => exact Relation.ReflTransGen.refl
  | succ n ih =>
      refine (ih fun k hk => h k (by omega)).tail ⟨h n (Nat.lt_succ_self n), ?_⟩
      exact Function.iterate_succ_apply' next n s

theorem run_iterate (next : σ → σ) (s : σ) (n : Nat) : Run (Following next) s (next^[n] s) := by
  have hrun : Run (Guarded (fun _ => True) (Following next)) s (next^[n] s) :=
    guarded_iterate next s n fun _ _ => trivial
  exact hrun.of_guarded

end Wire
