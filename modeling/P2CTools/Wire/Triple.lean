import P2CTools.Wire.Outcome

/-!
# Triples

Programs that carry a state and may fail, with what holds before and after.

`Triple` speaks about one program at a time: from every state that satisfies
the precondition, the errors it ends in satisfy `E`, and what it returns, with
the state it leaves, satisfies the postcondition. It is a statement about
failures as much as about results, so a program that never fails in a certain
way is a triple whose `E` rules that out.

The rules follow the program's own text. A sequence needs a postcondition for
its first part that is a precondition for its second, and a part that leaves
the state alone keeps whatever held of it.

## Main definitions

* `Triple`: What holds of a program.

## Theorems

* `Triple.bind`: The rule for sequences.
* `triple_pure`, `triple_lift`: Programs that leave the state alone.
* `triple_update`: A program that changes it in a fixed way.
-/

namespace Wire

variable {σ ε α β : Type}

/-- From a state with `P` the program fails only with `E`, and what it returns
    and leaves satisfies `Q`. -/
def Triple (P : σ → Prop) (m : StateT σ (Except ε) α) (E : ε → Prop) (Q : α → σ → Prop) : Prop :=
  ∀ s, P s → (∀ e, m s = .error e → E e) ∧ ∀ x s', m s = .ok (x, s') → Q x s'

variable {P : σ → Prop} {E : ε → Prop} {Q : α → σ → Prop} {R : β → σ → Prop}

/-- A sequence hands on what its first part establishes. -/
theorem Triple.bind {m : StateT σ (Except ε) α} {f : α → StateT σ (Except ε) β}
    (hm : Triple P m E Q) (hf : ∀ x, Triple (Q x) (f x) E R) : Triple P (m >>= f) E R := by
  intro s hs
  have hrun : (m >>= f) s = (m s >>= fun pair => f pair.1 pair.2) := rfl
  rw [hrun]
  constructor
  · intro e he
    rcases (bind_eq_error_iff _ _ _).mp he with he | ⟨pair, hpair, he⟩
    · exact (hm s hs).1 e he
    · exact (hf pair.1 pair.2 ((hm s hs).2 pair.1 pair.2 hpair)).1 e he
  · intro y s' hy
    rcases (bind_eq_ok_iff _ _ _).mp hy with ⟨pair, hpair, hy⟩
    exact (hf pair.1 pair.2 ((hm s hs).2 pair.1 pair.2 hpair)).2 y s' hy

theorem triple_pure (x : α) (h : ∀ s, P s → Q x s) :
    Triple P (pure x : StateT σ (Except ε) α) E Q := by
  intro s hs
  have hrun : (pure x : StateT σ (Except ε) α) s = .ok (x, s) := rfl
  rw [hrun]
  constructor
  · intro e he
    exact nomatch he
  · intro y s' hy
    rcases Prod.mk.inj (Except.ok.inj hy) with ⟨rfl, rfl⟩
    exact h s hs

/-- A computation that changes the state in a fixed way when it succeeds. -/
theorem triple_update {r : Except ε α} (change : σ → σ) (hfails : Fails E r)
    (h : ∀ x s, r = .ok x → P s → Q x (change s)) :
    Triple P (fun s => r >>= fun x => .ok (x, change s)) E Q := by
  intro s hs
  constructor
  · intro e he
    rcases (bind_eq_error_iff _ _ _).mp he with he | ⟨x, -, he⟩
    · exact hfails e he
    · exact nomatch he
  · intro x s' hx
    rcases (bind_eq_ok_iff _ _ _).mp hx with ⟨y, hy, hpair⟩
    rcases Prod.mk.inj (Except.ok.inj hpair) with ⟨rfl, rfl⟩
    exact h y s hy hs

/-- A computation that does not touch the state keeps what held of it. -/
theorem triple_lift {r : Except ε α} (hfails : Fails E r) (h : ∀ x s, r = .ok x → P s → Q x s) :
    Triple P (fun s => r >>= fun x => .ok (x, s)) E Q :=
  triple_update id hfails h

end Wire
