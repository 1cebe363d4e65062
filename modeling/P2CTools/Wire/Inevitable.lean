import P2CTools.Wire.Eventually

/-!
# What Cannot Be Put Off

Programs whose steps depend on answers from outside, and what they come to
whatever they are answered.

`Inevitable` is the counterpart of `Eventually` for a program that does not
decide alone: within so many steps the property is reached, for all answers. A
stretch in which the answers do not matter is a stretch of a system that has
one next state. Where some of them do, it is enough that they lead to the
property on a way of their own. A stretch whose steps all lower a rank is over
when the rank is used up.

The program may be one of several. `Turns` is a run of a larger system in which
some of the steps are counted. If each of those is a step of the program, and
no other step disturbs it, what is inevitable for the program alone holds at
the end of every run in which it has had enough turns.

## Main definitions

* `Inevitable`: Reached within a number of steps, for all answers.
* `Turns`: A run with so many steps of a kind.

## Theorems

* `Inevitable.bind`: One stretch after another.
* `inevitable_of_rank`: Every step lowers a rank.
* `inevitable_of_eventually`: A stretch in which the answers do not matter.
* `Inevitable.of_turns`: The program among others.
-/

namespace Wire

variable {χ σ τ ρ : Type} {next : χ → σ → σ} {P Q : σ → Prop} {s : σ} {n m : Nat}

/-- Within so many steps a state with the property is reached, for all answers. -/
def Inevitable (next : χ → σ → σ) (P : σ → Prop) : Nat → σ → Prop
  | 0, s => P s
  | n + 1, s => P s ∨ ∀ c, Inevitable next P n (next c s)

theorem Inevitable.now (h : P s) (n : Nat) : Inevitable next P n s := by
  cases n with
  | zero => exact h
  | succ n => exact Or.inl h

theorem Inevitable.later (h : ∀ c, Inevitable next P n (next c s)) :
    Inevitable next P (n + 1) s :=
  Or.inr h

theorem Inevitable.succ (h : Inevitable next P n s) : Inevitable next P (n + 1) s := by
  induction n generalizing s with
  | zero => exact Or.inl h
  | succ n ih =>
      rcases h with h | h
      · exact Or.inl h
      · exact Or.inr fun c => ih (h c)

theorem Inevitable.of_le (h : Inevitable next P n s) (hle : n ≤ m) : Inevitable next P m s := by
  induction hle with
  | refl => exact h
  | step _ ih => exact ih.succ

/-- What is inevitable in all that is inevitable is inevitable. -/
theorem Inevitable.bind (h : Inevitable next P n s) (hP : ∀ t, P t → Inevitable next Q m t) :
    Inevitable next Q (n + m) s := by
  induction n generalizing s with
  | zero => exact (hP s h).of_le (Nat.le_add_left m 0)
  | succ n ih =>
      rcases h with h | h
      · exact (hP s h).of_le (Nat.le_add_left m (n + 1))
      · rw [Nat.add_right_comm]
        exact Inevitable.later fun c => ih (h c)

/-- If every step lowers a rank until the property is reached, it is reached
    within one step more than the rank. -/
theorem inevitable_of_rank {I : σ → Prop} (rank : σ → Nat)
    (hstep : ∀ t, I t → ∀ c, P (next c t) ∨ (I (next c t) ∧ rank (next c t) < rank t))
    (hs : I s) : Inevitable next P (rank s + 1) s := by
  -- The induction is on the rank of the state.
  generalize hn : rank s = n
  induction n using Nat.strongRecOn generalizing s with
  | _ n ih =>
      refine Inevitable.later fun c => ?_
      rcases hstep s hs c with h | ⟨h, hlt⟩
      · exact Inevitable.now h n
      · exact (ih (rank (next c s)) (hn ▸ hlt) h rfl).of_le (hn ▸ hlt)

theorem Inevitable.mono (h : Inevitable next P n s) (hPQ : ∀ t, P t → Q t) :
    Inevitable next Q n s :=
  h.bind fun t ht => Inevitable.now (n := 0) (hPQ t ht)

/-- While the answers do not matter, the program does what a system with one
    next state does. An answer may lead away from this, to where the property is
    inevitable as well. -/
theorem inevitable_of_eventually {g : τ → τ} {R I : τ → Prop} (enter : τ → σ) {x : τ}
    (hkept : ∀ x, I x → I (g x))
    (hgoing : ∀ x, I x → ¬R x → ∃ m, ∀ c, next c (enter x) = enter (g x) ∨
      Inevitable next P m (next c (enter x)))
    (hx : I x) (h : Eventually g R x) :
    ∃ n, Inevitable next (fun t => P t ∨ ∃ y, R y ∧ t = enter y) n (enter x) := by
  rcases h with ⟨n, hn⟩
  induction n generalizing x with
  | zero => exact ⟨0, Or.inr ⟨x, hn, rfl⟩⟩
  | succ n ih =>
      by_cases hover : R x
      · exact ⟨0, Or.inr ⟨x, hover, rfl⟩⟩
      · rcases hgoing x hx hover with ⟨m, hm⟩
        rcases ih (hkept x hx) hn with ⟨k, hk⟩
        -- The bound is the larger of what the two ways need.
        refine ⟨max m k + 1, Inevitable.later fun c => ?_⟩
        rcases hm c with hsame | haway
        · rw [hsame]
          exact hk.of_le (Nat.le_max_right m k)
        · exact (haway.mono fun t ht => Or.inl ht).of_le (Nat.le_max_left m k)

/-- A run of a system, with the number of those of its steps that are turns. -/
inductive Turns (step turn : ρ → ρ → Prop) (start : ρ) : Nat → ρ → Prop
  | start : Turns step turn start 0 start
  | turn (n : Nat) (r r' : ρ) (hd : Turns step turn start n r) (h : turn r r') :
      Turns step turn start (n + 1) r'
  | other (n : Nat) (r r' : ρ) (hd : Turns step turn start n r) (h : step r r') :
      Turns step turn start n r'

/-- A step brings what is inevitable nearer, and does not undo it. -/
theorem Inevitable.step (hstays : ∀ c t, P t → P (next c t)) (h : Inevitable next P n s) (c : χ) :
    Inevitable next P (n - 1) (next c s) := by
  cases n with
  | zero => exact hstays c s h
  | succ n =>
      rcases h with h | h
      · exact Inevitable.now (hstays c s h) n
      · exact h c

/-- What is inevitable for a program holds once it has had enough turns,
    whatever happens between them. -/
theorem Inevitable.of_turns {step turn : ρ → ρ → Prop} {start r : ρ} (f : ρ → σ)
    (hturn : ∀ r r', turn r r' → ∃ c, f r' = next c (f r))
    (hother : ∀ r r', step r r' → f r' = f r ∨ ∃ c, f r' = next c (f r))
    (hstays : ∀ c t, P t → P (next c t)) (h : Inevitable next P n (f start))
    (hr : Turns step turn start n r) : P (f r) := by
  -- At any moment what is left is inevitable in the turns that are left.
  have hleft : ∀ k r, Turns step turn start k r → Inevitable next P (n - k) (f r) := by
    intro k r hk
    induction hk with
    | start => exact h
    | turn k r r' _ hmove ih =>
        rcases hturn r r' hmove with ⟨c, hc⟩
        rw [hc, ← Nat.sub_sub]
        exact ih.step hstays c
    | other k r r' _ hmove ih =>
        rcases hother r r' hmove with hsame | ⟨c, hc⟩
        · rw [hsame]
          exact ih
        · rw [hc]
          exact (ih.step hstays c).of_le (Nat.sub_le _ _)
  have hnone := hleft n r hr
  rw [Nat.sub_self] at hnone
  exact hnone

end Wire
