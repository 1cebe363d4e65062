import P2CTools.Wire.Feed

/-!
# Simulations

Two programs that carry a state and may fail, run from related states.

`Simulates` is a triple about two programs at once. It says that the second one
comes to whatever the first one comes to: it returns the same value and leaves
a related state, or fails with the same error. Errors for which `E` does not
hold are left open, so that the first program may give up where the second one
goes on. With one program on both sides it says what a change of the state
cannot change: what the program does not look at, or does not come to look at.

The rules follow the program's own text.

## Main definitions

* `Simulates`: One program comes to whatever the other one comes to.

## Theorems

* `Simulates.bind`: The rule for sequences.
* `simulates_of_runs`: Programs whose runs are known.
* `simulates_pure`, `simulates_lift`: Programs that leave the state alone.
* `simulates_update`: A program that changes it in a fixed way.
* `simulates_feed`: The rule for loops over a source.
* `Simulates.outcome`: What is left when the states are forgotten.
-/

namespace Wire

variable {N N' ε α β : Type}

/-- From states related by `P`, what `m` comes to `m'` comes to as well, apart
    from errors without `E`, and the states they leave are related by `Q`. -/
def Simulates (P : N → N' → Prop) (m : StateT N (Except ε) α) (m' : StateT N' (Except ε) α)
    (E : ε → Prop) (Q : α → N → N' → Prop) : Prop :=
  ∀ n n', P n n' →
    (∀ x n₁, m n = .ok (x, n₁) → ∃ n₁', m' n' = .ok (x, n₁') ∧ Q x n₁ n₁') ∧
    ∀ e, m n = .error e → E e → m' n' = .error e

variable {P : N → N' → Prop} {E : ε → Prop} {Q : α → N → N' → Prop} {R : β → N → N' → Prop}

/-- A sequence is simulated part by part. -/
theorem Simulates.bind {m : StateT N (Except ε) α} {m' : StateT N' (Except ε) α}
    {f : α → StateT N (Except ε) β} {f' : α → StateT N' (Except ε) β}
    (hm : Simulates P m m' E Q) (hf : ∀ x, Simulates (Q x) (f x) (f' x) E R) :
    Simulates P (m >>= f) (m' >>= f') E R := by
  intro n n' h
  have hrun : (m >>= f) n = (m n >>= fun pair => f pair.1 pair.2) := rfl
  have hrun' : (m' >>= f') n' = (m' n' >>= fun pair => f' pair.1 pair.2) := rfl
  rw [hrun, hrun']
  constructor
  · intro y n₂ hy
    rcases (bind_eq_ok_iff _ _ _).mp hy with ⟨pair, hpair, hy⟩
    rcases (hm n n' h).1 pair.1 pair.2 hpair with ⟨n₁', hm', h₁⟩
    rcases (hf pair.1 pair.2 n₁' h₁).1 y n₂ hy with ⟨n₂', hf', h₂⟩
    exact ⟨n₂', (bind_eq_ok_iff _ _ _).mpr ⟨(pair.1, n₁'), hm', hf'⟩, h₂⟩
  · intro e he hE
    rcases (bind_eq_error_iff _ _ _).mp he with he | ⟨pair, hpair, he⟩
    · rw [(hm n n' h).2 e he hE]
      rfl
    · rcases (hm n n' h).1 pair.1 pair.2 hpair with ⟨n₁', hm', h₁⟩
      have hsecond := (hf pair.1 pair.2 n₁' h₁).2 e he hE
      exact (bind_eq_error_iff _ _ _).mpr (Or.inr ⟨(pair.1, n₁'), hm', hsecond⟩)

/-- Where both programs are known to come to the same, what they come to does
    not matter. -/
theorem simulates_of_runs {m : StateT N (Except ε) α} {m' : StateT N' (Except ε) α}
    (h : ∀ n n', P n n' →
      (∃ x n₁ n₁', m n = .ok (x, n₁) ∧ m' n' = .ok (x, n₁') ∧ Q x n₁ n₁') ∨
        ∃ e, m n = .error e ∧ (E e → m' n' = .error e)) : Simulates P m m' E Q := by
  intro n n' hn
  rcases h n n' hn with ⟨x, n₁, n₁', hm, hm', hQ⟩ | ⟨e, hm, hm'⟩
  · rw [hm]
    refine ⟨fun y n₂ hy => ?_, fun e he => absurd he.symm (error_ne_ok _ _)⟩
    rcases Prod.mk.inj (Except.ok.inj hy) with ⟨rfl, rfl⟩
    exact ⟨n₁', hm', hQ⟩
  · rw [hm]
    refine ⟨fun y n₂ hy => absurd hy (error_ne_ok _ _), fun e' he hE => ?_⟩
    rw [← Except.error.inj he] at hE ⊢
    exact hm' hE

theorem simulates_pure (x : α) (h : ∀ n n', P n n' → Q x n n') :
    Simulates P (pure x : StateT N (Except ε) α) (pure x : StateT N' (Except ε) α) E Q :=
  simulates_of_runs fun n n' hn => Or.inl ⟨x, n, n', rfl, rfl, h n n' hn⟩

/-- A computation that changes either state in a fixed way when it succeeds. -/
theorem simulates_update {r : Except ε α} (change : N → N) (change' : N' → N')
    (h : ∀ x n n', r = .ok x → P n n' → Q x (change n) (change' n')) :
    Simulates P (fun n => r >>= fun x => .ok (x, change n))
      (fun n' => r >>= fun x => .ok (x, change' n')) E Q := by
  refine simulates_of_runs fun n n' hn => ?_
  cases r with
  | ok x => exact Or.inl ⟨x, change n, change' n', rfl, rfl, h x n n' rfl hn⟩
  | error e => exact Or.inr ⟨e, rfl, fun _ => rfl⟩

/-- A computation that does not touch the state. -/
theorem simulates_lift {r : Except ε α} (h : ∀ x n n', r = .ok x → P n n' → Q x n n') :
    Simulates P (fun n => r >>= fun x => .ok (x, n)) (fun n' => r >>= fun x => .ok (x, n')) E Q :=
  simulates_update id id h

/-- A loop is simulated item by item. -/
theorem simulates_feed {ι σ : Type} {read : StateT N (Except ε) ι} {read' : StateT N' (Except ε) ι}
    (hread : Simulates P read read' E fun _ => P) (stuck : ε) (step : ι → σ → Except ε σ)
    (finished : σ → Bool) (fuel : Nat) (s : σ) :
    Simulates P (feed stuck read step finished fuel s) (feed stuck read' step finished fuel s) E
      fun _ => P := by
  induction fuel generalizing s with
  | zero => exact simulates_of_runs fun n n' _ => Or.inr ⟨stuck, rfl, fun _ => rfl⟩
  | succ fuel ih =>
      have hrest : ∀ i, Simulates P
          (fun n => step i s >>= fun s' => feed stuck read step finished fuel s' n)
          (fun n' => step i s >>= fun s' => feed stuck read' step finished fuel s' n') E
          fun _ => P := by
        intro i
        cases hstep : step i s with
        | ok s' => exact ih s'
        | error e => exact simulates_of_runs fun n n' _ => Or.inr ⟨e, rfl, fun _ => rfl⟩
      intro n n' h
      rw [feed, feed]
      cases finished s with
      | true => exact simulates_pure s (fun _ _ hn => hn) n n' h
      | false => exact hread.bind hrest n n' h

/-- What the programs come to, when the states are forgotten. -/
theorem Simulates.outcome {m : StateT N (Except ε) α} {m' : StateT N' (Except ε) α}
    (hm : Simulates P m m' E Q) {n : N} {n' : N'} (h : P n n') :
    (∀ x, (m n).map Prod.fst = .ok x → (m' n').map Prod.fst = .ok x) ∧
      ∀ e, (m n).map Prod.fst = .error e → E e → (m' n').map Prod.fst = .error e := by
  cases hrun : m n with
  | ok pair =>
      rcases (hm n n' h).1 pair.1 pair.2 hrun with ⟨n₁', hm', -⟩
      rw [hm']
      exact ⟨fun x hx => hx, fun e he => absurd he.symm (error_ne_ok _ _)⟩
  | error e =>
      refine ⟨fun x hx => absurd hx (error_ne_ok _ _), fun e' he hE => ?_⟩
      rw [← Except.error.inj he] at hE ⊢
      rw [(hm n n' h).2 e hrun hE]
      rfl

end Wire
