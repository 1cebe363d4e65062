import P2CTools.Wire.Runs

/-!
# What Comes to Pass

Systems that always have one next state, and what they come to sooner or later.

`Eventually` is the counterpart of the invariant rule. An invariant speaks
about every state on the way, and this about one state that is on the way. It
is put together from stretches: what is reached from whatever was reached
before is reached. A loop is handled by a variant, which is a number that goes
down at each pass until the loop is left, or by a count that goes up at each
pass and so passes any bound.

## Main definitions

* `Eventually`: Some number of steps leads to a state with a property.

## Theorems

* `Eventually.bind`: One stretch after another.
* `Eventually.and_invariant`: What holds all the way also holds there.
* `eventually_of_variant`: A loop with a variant is left.
* `eventually_of_growth`: A loop with a growing count is left, or passes any
  bound.
-/

namespace Wire

variable {σ : Type} {next : σ → σ} {P Q : σ → Prop} {s : σ}

/-- Some number of steps leads to a state with the property. -/
def Eventually (next : σ → σ) (P : σ → Prop) (s : σ) : Prop :=
  ∃ n, P (next^[n] s)

theorem Eventually.now (h : P s) : Eventually next P s :=
  ⟨0, h⟩

theorem Eventually.later (h : Eventually next P (next s)) : Eventually next P s := by
  rcases h with ⟨n, hn⟩
  exact ⟨n + 1, hn⟩

/-- What is reached from all that is reached is reached. -/
theorem Eventually.bind (h : Eventually next P s) (hP : ∀ t, P t → Eventually next Q t) :
    Eventually next Q s := by
  rcases h with ⟨n, hn⟩
  rcases hP _ hn with ⟨m, hm⟩
  refine ⟨m + n, ?_⟩
  rw [Function.iterate_add_apply]
  exact hm

theorem Eventually.mono (h : Eventually next P s) (hPQ : ∀ t, P t → Q t) :
    Eventually next Q s :=
  h.bind fun t ht => Eventually.now (hPQ t ht)

/-- What every step preserves holds where a property is reached. -/
theorem Eventually.and_invariant {I : σ → Prop} (h : Eventually next P s) (hs : I s)
    (hstep : ∀ t, I t → I (next t)) : Eventually next (fun t => P t ∧ I t) s := by
  rcases h with ⟨n, hn⟩
  refine ⟨n, hn, ?_⟩
  refine (run_iterate next s n).invariant (fun t t' ht hfollows => ?_) hs
  rw [hfollows]
  exact hstep t ht

/-- A loop whose variant goes down at each pass is left. -/
theorem eventually_of_variant {I : σ → Prop} (variant : σ → Nat)
    (hpass : ∀ t, I t → Eventually next (fun u => Q u ∨ (I u ∧ variant u < variant t)) t)
    (hs : I s) : Eventually next Q s := by
  -- The induction is on the value that the variant has at the loop's head.
  generalize hn : variant s = n
  induction n using Nat.strongRecOn generalizing s with
  | _ n ih =>
      refine (hpass s hs).bind fun u hu => ?_
      rcases hu with hu | ⟨hu, hlt⟩
      · exact Eventually.now hu
      · exact ih (variant u) (hn ▸ hlt) hu rfl

/-- A loop whose count goes up at each pass is left, or its count passes a
    given bound. -/
theorem eventually_of_growth {I : σ → Prop} (count : σ → Nat)
    (hpass : ∀ t, I t → Eventually next (fun u => Q u ∨ (I u ∧ count t < count u)) t)
    (bound : Nat) (hs : I s) : Eventually next (fun t => Q t ∨ (I t ∧ bound ≤ count t)) s := by
  refine eventually_of_variant (fun t => bound - count t) (fun t ht => ?_) hs
  by_cases hbound : bound ≤ count t
  · exact Eventually.now (Or.inl (Or.inr ⟨ht, hbound⟩))
  · refine (hpass t ht).mono fun u hu => ?_
    rcases hu with hu | ⟨hu, hlt⟩
    · exact Or.inl (Or.inl hu)
    · exact Or.inr ⟨hu, by omega⟩

end Wire
