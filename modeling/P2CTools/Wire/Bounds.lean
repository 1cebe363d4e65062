import P2CTools.Wire.Cursor

/-!
# Cursors in Bounds

Where the position of a cursor can go.

`Parses` says what a program that succeeds has consumed. The facts here are
about every run, also one that fails: the position does not pass the end of
the data, does not go back, and the data stays what it is. They compose along
a program like its outcome does, so a program made of reads and checks has
them because its parts do.

A loop that tests for the exact end of its data relies on both halves. Its
passes must not overshoot the end, which is `Stays`, and must not stand still,
which is `Advances`.

## Main definitions

* `Cursor.InBounds`: The position is not past the end.
* `Stays`: The program moves only forwards and stays in bounds.
* `FailsInPlace`: A failure does not move the cursor.
* `Advances`: A success moves the cursor.

## Theorems

* `Stays.bind`: A sequence stays in bounds when its parts do.
* `stays_whileNotEmpty`: A loop stays in bounds when its body does.
* `FailsInPlace.bind`: A sequence whose second part does not fail.
* `Advances.bind`: A sequence advances when its first part does.
* `Advances.pass`: The pass of a loop that reads something first.
-/

namespace Wire

variable {τ ε α β σ : Type}

/-- The position is not past the end of the data. -/
def Cursor.InBounds (c : Cursor τ) : Prop :=
  c.position ≤ c.data.length

/-- From a cursor in bounds the program leaves one in bounds, over the same
    data and not before it. -/
def Stays (m : CursorM τ ε α) : Prop :=
  ∀ c : Cursor τ, c.InBounds →
    (m c).2.data = c.data ∧ c.position ≤ (m c).2.position ∧ (m c).2.InBounds

/-- A program that fails leaves the cursor where it was. -/
def FailsInPlace (m : CursorM τ ε α) : Prop :=
  ∀ c e c', m c = (.error e, c') → c' = c

/-- A program that succeeds has moved the cursor forwards. -/
def Advances (m : CursorM τ ε α) : Prop :=
  ∀ c x c', c.InBounds → m c = (.ok x, c') → c.position < c'.position

/-- A program that does not touch the cursor stays in bounds. -/
theorem stays_of_fixed {m : CursorM τ ε α} (h : ∀ c, (m c).2 = c) : Stays m := by
  intro c hc
  rw [h c]
  exact ⟨rfl, Nat.le_refl _, hc⟩

theorem stays_pure (x : α) : Stays (pure x : CursorM τ ε α) :=
  stays_of_fixed fun _ => rfl

theorem stays_raiseIf (p : Prop) [Decidable p] (e : ε) : Stays (raiseIf (τ := τ) p e) := by
  refine stays_of_fixed fun c => ?_
  unfold raiseIf
  by_cases hp : p
  · rw [if_pos hp]
  · rw [if_neg hp]

theorem stays_call (r : Except ε α) : Stays (call (τ := τ) r) :=
  stays_of_fixed fun _ => rfl

theorem stays_isEmpty : Stays (isEmpty (τ := τ) (ε := ε)) :=
  stays_of_fixed fun _ => rfl

theorem stays_getCursor : Stays (getCursor (τ := τ) (ε := ε)) :=
  stays_of_fixed fun _ => rfl

theorem Stays.bind {m : CursorM τ ε α} {f : α → CursorM τ ε β} (hm : Stays m)
    (hf : ∀ x, Stays (f x)) : Stays (m >>= f) := by
  intro c hc
  have hfirst := hm c hc
  rw [bind_apply]
  rcases hx : m c with ⟨e | x, c₁⟩
  · rw [hx] at hfirst
    exact hfirst
  · rw [hx] at hfirst
    rcases hfirst with ⟨hdata, hle, hin⟩
    rcases hf x c₁ hin with ⟨hdata', hle', hin'⟩
    exact ⟨hdata'.trans hdata, Nat.le_trans hle hle', hin'⟩

/-- A loop stays in bounds when each pass of its body does, whatever the bound
    on the number of its passes. -/
theorem stays_whileNotEmpty (stuck : ε) {body : σ → CursorM τ ε σ} (h : ∀ s, Stays (body s))
    (fuel : Nat) (s : σ) : Stays (whileNotEmpty stuck body fuel s) := by
  induction fuel generalizing s with
  | zero => exact stays_of_fixed fun _ => rfl
  | succ fuel ih =>
      rw [whileNotEmpty]
      refine stays_isEmpty.bind fun empty => ?_
      cases empty with
      | true => exact stays_pure s
      | false => exact (h s).bind fun s' => ih s'

/-- A sequence fails in place when its first part does and what follows does
    not fail. -/
theorem FailsInPlace.bind {m : CursorM τ ε α} {f : α → CursorM τ ε β} (hm : FailsInPlace m)
    (hf : ∀ c x c', m c = (.ok x, c') → ∀ e d, f x c' ≠ (.error e, d)) :
    FailsInPlace (m >>= f) := by
  intro c e c' hrun
  rw [bind_apply] at hrun
  rcases hx : m c with ⟨e₁ | x, c₁⟩
  · rw [hx] at hrun
    rw [← (Prod.mk.inj hrun).2]
    exact hm c e₁ c₁ hx
  · rw [hx] at hrun
    exact absurd hrun (hf c x c₁ hx e c')

/-- A sequence advances when its first part does. -/
theorem Advances.bind {m : CursorM τ ε α} {f : α → CursorM τ ε β} (hm : Advances m)
    (hs : Stays m) (hf : ∀ x, Stays (f x)) : Advances (m >>= f) := by
  intro c y c' hc hrun
  rw [bind_apply] at hrun
  have hfirst := hs c hc
  rcases hx : m c with ⟨e | x, c₁⟩
  · rw [hx] at hrun
    exact nomatch (Prod.mk.inj hrun).1
  · rw [hx] at hrun hfirst
    have hlt := hm c x c₁ hc hx
    have hle := (hf x c₁ hfirst.2.2).2.1
    simp only at hrun
    rw [hrun] at hle
    exact Nat.lt_of_lt_of_le hlt hle

/-- One pass of a loop: a part that advances, and a rest that stays in
    bounds. -/
theorem Advances.pass {m : CursorM τ ε α} {f : α → CursorM τ ε β} (hm : Advances m)
    (hs : Stays m) (hf : ∀ x, Stays (f x)) : Stays (m >>= f) ∧ Advances (m >>= f) :=
  ⟨hs.bind hf, hm.bind hs hf⟩

end Wire
