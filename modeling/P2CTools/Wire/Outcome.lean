import Mathlib.Init

/-!
# Outcomes

Sequencing computations that end in a value or in an error.

A program over `Except` is read in two ways: as the condition under which it
returns, and as the errors it can end in. Both are obtained by rewriting from
the front of the program. `bind_eq_ok_iff` and `bind_eq_error_iff` say what a
sequence does in terms of its parts, and `failIf` is the check that gives the
program its conditions.

## Main definitions

* `failIf`: End in an error when a condition holds.
* `Fails`: Every error a computation ends in satisfies a condition.

## Theorems

* `bind_eq_ok_iff`: A sequence returns when both parts do.
* `bind_eq_error_iff`: A sequence fails in its first part or in its second.
* `checked_eq_ok_iff`: A value is returned when it passes its check.
* `failIf_eq_ok_iff`: A check passes when its condition does not hold.
* `failIf_eq_error_iff`: A check fails when its condition holds.
* `Fails.bind`, `fails_bind_iff`: The errors of a sequence.
* `foldlM_eq_ok_iff`: When a fold returns a state that passes a check.
-/

namespace Wire

variable {ε α β : Type} {P : ε → Prop}

/-- End in an error when the condition holds. -/
def failIf (p : Prop) [Decidable p] (e : ε) : Except ε Unit :=
  if p then .error e else .ok ()

theorem error_ne_ok (e : ε) (x : α) : (.error e : Except ε α) ≠ .ok x := by
  simp only [ne_eq, reduceCtorEq, not_false_eq_true]

theorem bind_eq_ok_iff (x : Except ε α) (f : α → Except ε β) (y : β) :
    x >>= f = .ok y ↔ ∃ a, x = .ok a ∧ f a = .ok y := by
  cases x with
  | error e =>
      constructor
      · intro h
        exact nomatch h
      · rintro ⟨a, ha, -⟩
        exact nomatch ha
  | ok a =>
      constructor
      · intro h
        exact ⟨a, rfl, h⟩
      · rintro ⟨b, hb, h⟩
        rw [← Except.ok.inj hb] at h
        exact h

theorem bind_eq_error_iff (x : Except ε α) (f : α → Except ε β) (e : ε) :
    x >>= f = .error e ↔ x = .error e ∨ ∃ a, x = .ok a ∧ f a = .error e := by
  cases x with
  | error e' =>
      constructor
      · intro h
        exact Or.inl (congrArg Except.error (Except.error.inj h))
      · rintro (h | ⟨a, ha, -⟩)
        · rw [h]
          rfl
        · exact nomatch ha
  | ok a =>
      constructor
      · intro h
        exact Or.inr ⟨a, rfl, h⟩
      · rintro (h | ⟨b, hb, h⟩)
        · exact nomatch h
        · rw [← Except.ok.inj hb] at h
          exact h

theorem pure_eq_ok_iff (x y : α) : (pure x : Except ε α) = .ok y ↔ x = y :=
  ⟨Except.ok.inj, congrArg Except.ok⟩

/-- A value that is returned under a condition. -/
theorem ite_ok_eq_ok_iff (p : Prop) [Decidable p] (x y : α) (e : ε) :
    (if p then .ok x else .error e : Except ε α) = .ok y ↔ p ∧ x = y := by
  by_cases hp : p
  · rw [if_pos hp, Except.ok.injEq, and_iff_right hp]
  · rw [if_neg hp]
    exact iff_of_false (error_ne_ok e y) fun h => hp h.1

/-- A value that is returned when it passes a check. -/
theorem checked_eq_ok_iff (p : α → Prop) [DecidablePred p] (x y : α) (e : ε) :
    (if p x then .ok x else .error e : Except ε α) = .ok y ↔ x = y ∧ p y := by
  rw [ite_ok_eq_ok_iff, and_comm]
  exact and_congr_right fun h => by rw [h]

theorem failIf_eq_ok_iff (p : Prop) [Decidable p] (e : ε) (u : Unit) :
    failIf p e = .ok u ↔ ¬p := by
  unfold failIf
  by_cases hp : p
  · rw [if_pos hp]
    simp only [reduceCtorEq, hp, not_true_eq_false]
  · rw [if_neg hp]
    simp only [hp, not_false_eq_true]

theorem failIf_eq_error_iff (p : Prop) [Decidable p] (e e' : ε) :
    failIf p e = .error e' ↔ p ∧ e = e' := by
  unfold failIf
  by_cases hp : p
  · rw [if_pos hp]
    simp only [Except.error.injEq, hp, true_and]
  · rw [if_neg hp]
    simp only [reduceCtorEq, hp, false_and]

/-- Every error the computation ends in satisfies the condition. -/
def Fails (P : ε → Prop) (x : Except ε α) : Prop :=
  ∀ e, x = .error e → P e

theorem Fails.bind {x : Except ε α} {f : α → Except ε β} (hx : Fails P x)
    (hf : ∀ a, x = .ok a → Fails P (f a)) : Fails P (x >>= f) := by
  intro e h
  rcases (bind_eq_error_iff x f e).mp h with h | ⟨a, ha, h⟩
  · exact hx e h
  · exact hf a ha e h

/-- The errors of a sequence are those of its parts. -/
theorem fails_bind_iff (x : Except ε α) (f : α → Except ε β) :
    Fails P (x >>= f) ↔ Fails P x ∧ ∀ a, x = .ok a → Fails P (f a) := by
  constructor
  · intro h
    refine ⟨fun e he => h e ?_, fun a ha e he => h e ?_⟩
    · exact (bind_eq_error_iff x f e).mpr (Or.inl he)
    · exact (bind_eq_error_iff x f e).mpr (Or.inr ⟨a, ha, he⟩)
  · rintro ⟨hx, hf⟩
    exact hx.bind hf

theorem fails_ok (x : α) : Fails P (.ok x) :=
  fun _ h => nomatch h

theorem fails_error {e : ε} (he : P e) : Fails P (.error e : Except ε α) := by
  intro e' h
  rw [← Except.error.inj h]
  exact he

theorem fails_failIf (p : Prop) [Decidable p] {e : ε} (he : P e) : Fails P (failIf p e) := by
  intro e' h
  rw [← ((failIf_eq_error_iff p e e').mp h).2]
  exact he

/-- A fold returns a state that passes a check exactly when the list meets a
    demand, if the demand on an empty list is the check and the demand on any
    other is that its first step returns and leaves a demand that its rest
    meets. -/
theorem foldlM_eq_ok_iff {σ : Type} {f : σ → α → Except ε σ} {Q : σ → Prop}
    {W : σ → List α → Prop} (hnil : ∀ s, W s [] ↔ Q s)
    (hcons : ∀ s x xs, W s (x :: xs) ↔ ∃ s', f s x = .ok s' ∧ W s' xs) (xs : List α) (s : σ) :
    (∃ s', xs.foldlM f s = .ok s' ∧ Q s') ↔ W s xs := by
  induction xs generalizing s with
  | nil =>
      rw [hnil]
      simp only [List.foldlM_nil, pure_eq_ok_iff, exists_eq_left']
  | cons x xs ih =>
      rw [hcons]
      simp only [List.foldlM_cons, bind_eq_ok_iff, ← ih]
      constructor
      · rintro ⟨t, ⟨s', hs', ht⟩, hq⟩
        exact ⟨s', hs', t, ht, hq⟩
      · rintro ⟨s', hs', t, ht, hq⟩
        exact ⟨t, ⟨s', hs', ht⟩, hq⟩

theorem Fails.mono {Q : ε → Prop} {x : Except ε α} (hx : Fails P x) (h : ∀ e, P e → Q e) :
    Fails Q x :=
  fun e he => h e (hx e he)

end Wire
