import Mathlib.Data.List.Basic

/-!
# Cursors

Reading a list of tokens from left to right with a position that moves, and
the rules for reasoning about programs that do.

A cursor program runs from a cursor to an outcome and the cursor it leaves
behind, so that the position survives a failure and can be spoken about. All
the reasoning happens at cursors of the form `pre ++ rest` standing at the end
of `pre`: what is read is a front part of `rest`, and `pre` only grows.

Three judgements cover a program. `Parses m G` says which tokens `m` consumes:
it succeeds with `x` having read `b`, with `t` left over, exactly when
`G b x t`. `Accepts m pre rest Q` says that `m` succeeds from here and that
`Q` holds of the result and of what is left. `Raises P m` says that every
failure of `m` satisfies `P`. `Parses` is what a reusable reader proves once;
`Accepts` is what a caller computes with, since each rule is an equivalence
that peels one statement off the front of a program, and rewriting with the
rules turns a program into the condition it accepts under.

A loop that reads until its input is used up is run on a bound, one more than
the number of tokens. If every pass consumes something the bound is never the
reason for stopping, which is what `accepts_whileNotEmpty` and
`raises_whileNotEmpty` show: the first describes the accepted input as a chain
of items, the second leaves the bound's own failure out.

## Main definitions

* `Cursor`: A list of tokens and a position in it.
* `CursorM`: A program over a cursor that may fail.
* `raiseIf`: Fail when a condition holds.
* `call`: The outcome of a computation that does not touch the cursor.
* `whileNotEmpty`: Repeat a body until the input is used up.
* `runCursor`: Run a program on a fresh cursor.
* `Parses`: What a program consumes and returns.
* `Accepts`: A program succeeds and its result satisfies a condition.
* `Raises`: Every failure of a program satisfies a condition.
* `Items`: A list of tokens as a chain of items.
* `Collects`: What one pass of a collecting loop reads and adds.

## Theorems

* `Parses.accepts_bind`: The rule for a reusable reader.
* `Parses.bind`: Readers compose.
* `accepts_raiseIf_bind`: The rule for a check.
* `accepts_call_bind`: The rule for a computation on the side.
* `runCursor_eq_ok_iff`: A run from the start is an acceptance.
* `accepts_whileNotEmpty`: The rule for a loop.
* `items_collects_iff`: A collecting loop reads items one after the other.
* `eachFits_fresh_iff`, `eachFits_length_iff`: Loops that forbid repetition,
  and loops that bound the number of items.
* `Parses.raises_bind`: Failures of a sequence.
* `raises_whileNotEmpty`: Failures of a loop.
-/

namespace Wire

/-- A list of tokens and the position the next read starts at. -/
structure Cursor (τ : Type) where
  data : List τ
  position : Nat

/-- A program over a cursor: an outcome, and the cursor it leaves behind. -/
def CursorM (τ ε α : Type) : Type :=
  Cursor τ → Except ε α × Cursor τ

instance (τ ε : Type) : Monad (CursorM τ ε) where
  pure x := fun c => (.ok x, c)
  bind m f := fun c => match m c with
    | (.ok x, c') => f x c'
    | (.error e, c') => (.error e, c')

section Programs

variable {τ ε α σ : Type}

/-- Fail, leaving the cursor where it is. -/
def raise (e : ε) : CursorM τ ε α :=
  fun c => (.error e, c)

/-- Fail with `e` when the condition holds. -/
def raiseIf (p : Prop) [Decidable p] (e : ε) : CursorM τ ε Unit :=
  fun c => if p then (.error e, c) else (.ok (), c)

/-- The outcome of a computation that does not touch the cursor. -/
def call (r : Except ε α) : CursorM τ ε α :=
  fun c => (r, c)

/-- The cursor itself. -/
def getCursor : CursorM τ ε (Cursor τ) :=
  fun c => (.ok c, c)

/-- Whether the position is at the end of the data. -/
def isEmpty : CursorM τ ε Bool :=
  fun c => (.ok (c.position == c.data.length), c)

/-- Repeat `body` while the input is not used up, for at most the given number
    of tests. `stuck` is the outcome of running out of tests. -/
def whileNotEmpty (stuck : ε) (body : σ → CursorM τ ε σ) : Nat → σ → CursorM τ ε σ
  | 0, _ => raise stuck
  | fuel + 1, s => do
      if ← isEmpty then pure s
      else do
        let s' ← body s
        whileNotEmpty stuck body fuel s'

/-- Run a program from the start of a fresh cursor. -/
def runCursor (data : List τ) (m : CursorM τ ε α) : Except ε α :=
  (m ⟨data, 0⟩).1

theorem bind_apply {β : Type} (m : CursorM τ ε α) (f : α → CursorM τ ε β) (c : Cursor τ) :
    (m >>= f) c = match m c with
      | (.ok x, c') => f x c'
      | (.error e, c') => (.error e, c') := rfl

theorem pure_apply (x : α) (c : Cursor τ) : (pure x : CursorM τ ε α) c = (.ok x, c) := rfl

instance : LawfulMonad (CursorM τ ε) := LawfulMonad.mk' (CursorM τ ε)
  (by
    intro α m
    funext c
    change (m >>= fun x => pure x) c = m c
    rw [bind_apply]
    rcases m c with ⟨_ | x, c'⟩ <;> rfl)
  (fun x f => rfl)
  (by
    intro α β γ m f g
    funext c
    simp only [bind_apply]
    rcases m c with ⟨_ | x, c'⟩ <;> rfl)

end Programs

section Acceptance

variable {τ ε α β σ : Type}

/-- What a program consumes: it succeeds with `x`, having read `b` with `t`
    left over, exactly when `G b x t`. -/
def Parses (m : CursorM τ ε α) (G : List τ → α → List τ → Prop) : Prop :=
  ∀ (pre rest : List τ) (x : α) (c : Cursor τ),
    m ⟨pre ++ rest, pre.length⟩ = (.ok x, c) ↔
      ∃ b t, rest = b ++ t ∧ G b x t ∧ c = ⟨pre ++ rest, (pre ++ b).length⟩

/-- A program succeeds, and the condition holds of its result and of the
    cursor it leaves behind. -/
def Accepts (m : CursorM τ ε α) (pre rest : List τ) (Q : α → Cursor τ → Prop) : Prop :=
  ∃ x c, m ⟨pre ++ rest, pre.length⟩ = (.ok x, c) ∧ Q x c

theorem accepts_pure (x : α) (pre rest : List τ) (Q : α → Cursor τ → Prop) :
    Accepts (ε := ε) (pure x) pre rest Q ↔ Q x ⟨pre ++ rest, pre.length⟩ := by
  simp only [Accepts, pure_apply, Prod.mk.injEq, Except.ok.injEq]
  constructor
  · rintro ⟨_, _, ⟨rfl, rfl⟩, hQ⟩
    exact hQ
  · intro hQ
    exact ⟨x, _, ⟨rfl, rfl⟩, hQ⟩

/-- A program whose acceptance is known for every condition is a reader. -/
theorem parses_of_accepts {m : CursorM τ ε α} {G : List τ → α → List τ → Prop}
    (h : ∀ (pre rest : List τ) (Q : α → Cursor τ → Prop), Accepts m pre rest Q ↔
      ∃ x b t, rest = b ++ t ∧ G b x t ∧ Q x ⟨pre ++ b ++ t, (pre ++ b).length⟩) :
    Parses m G := by
  intro pre rest x c
  have hiff := h pre rest fun y d => y = x ∧ d = c
  constructor
  · intro hrun
    rcases hiff.mp ⟨x, c, hrun, rfl, rfl⟩ with ⟨y, b, t, hrest, hG, rfl, rfl⟩
    exact ⟨b, t, hrest, hG, by rw [hrest, List.append_assoc]⟩
  · rintro ⟨b, t, hrest, hG, rfl⟩
    rcases hiff.mpr ⟨x, b, t, hrest, hG, rfl, by rw [hrest, List.append_assoc]⟩
      with ⟨y, d, hrun, rfl, rfl⟩
    exact hrun

/-- A reader at the front of a program: the input splits into what the reader
    takes and what the rest of the program accepts. -/
theorem Parses.accepts_bind {m : CursorM τ ε α} {G : List τ → α → List τ → Prop}
    (hm : Parses m G) (f : α → CursorM τ ε β) (pre rest : List τ) (Q : β → Cursor τ → Prop) :
    Accepts (m >>= f) pre rest Q ↔
      ∃ x b t, rest = b ++ t ∧ G b x t ∧ Accepts (f x) (pre ++ b) t Q := by
  constructor
  · rintro ⟨y, c, hrun, hQ⟩
    rw [bind_apply] at hrun
    rcases hx : m ⟨pre ++ rest, pre.length⟩ with ⟨_ | x, c₁⟩
    -- The first reader failed, and the program with it.
    · rw [hx] at hrun
      simp only [Prod.mk.injEq, reduceCtorEq, false_and] at hrun
    -- The rest of the program runs where the first reader stopped.
    · rw [hx] at hrun
      rcases (hm pre rest x c₁).mp hx with ⟨b, t, hrest, hG, hc₁⟩
      refine ⟨x, b, t, hrest, hG, y, c, ?_, hQ⟩
      simp only at hrun
      rw [hc₁, hrest, ← List.append_assoc] at hrun
      exact hrun
  · rintro ⟨x, b, t, rfl, hG, y, c, hrun, hQ⟩
    refine ⟨y, c, ?_, hQ⟩
    rw [bind_apply, (hm pre (b ++ t) x _).mpr ⟨b, t, rfl, hG, rfl⟩]
    simp only
    rw [← List.append_assoc]
    exact hrun

/-- Readers compose: the second starts where the first left off. -/
theorem Parses.bind {m : CursorM τ ε α} {G : List τ → α → List τ → Prop} (hm : Parses m G)
    {f : α → CursorM τ ε β} {H : α → List τ → β → List τ → Prop}
    (hf : ∀ x, Parses (f x) (H x)) :
    Parses (m >>= f) (fun b y t => ∃ x b₁ b₂, b = b₁ ++ b₂ ∧ G b₁ x (b₂ ++ t) ∧ H x b₂ y t) := by
  intro pre rest y c
  rw [bind_apply]
  constructor
  · intro hrun
    rcases hx : m ⟨pre ++ rest, pre.length⟩ with ⟨_ | x, c₁⟩
    · rw [hx] at hrun
      simp only [Prod.mk.injEq, reduceCtorEq, false_and] at hrun
    · rw [hx] at hrun
      -- The second reader sees what the first took as already read.
      rcases (hm pre rest x c₁).mp hx with ⟨b₁, t₁, hrest, hG, rfl⟩
      simp only at hrun
      rw [hrest, ← List.append_assoc] at hrun
      rcases (hf x (pre ++ b₁) t₁ y c).mp hrun with ⟨b₂, t, rfl, hH, hc⟩
      refine ⟨b₁ ++ b₂, t, by rw [hrest, List.append_assoc], ⟨x, b₁, b₂, rfl, hG, hH⟩, ?_⟩
      rw [hc, hrest]
      simp only [List.append_assoc]
  · rintro ⟨b, t, rfl, ⟨x, b₁, b₂, rfl, hG, hH⟩, rfl⟩
    rw [(hm pre (b₁ ++ b₂ ++ t) x _).mpr ⟨b₁, b₂ ++ t, by rw [List.append_assoc], hG, rfl⟩]
    have hnext := (hf x (pre ++ b₁) (b₂ ++ t) y _).mpr ⟨b₂, t, rfl, hH, rfl⟩
    simp only [List.append_assoc] at hnext ⊢
    exact hnext

theorem Parses.congr {m : CursorM τ ε α} {G H : List τ → α → List τ → Prop} (hm : Parses m G)
    (h : ∀ b x t, G b x t ↔ H b x t) : Parses m H := by
  intro pre rest x c
  rw [hm pre rest x c]
  simp only [h]

theorem parses_pure (x : α) : Parses (pure x : CursorM τ ε α) (fun b y _ => b = [] ∧ y = x) := by
  intro pre rest y c
  rw [pure_apply]
  simp only [Prod.mk.injEq, Except.ok.injEq]
  constructor
  · rintro ⟨rfl, rfl⟩
    exact ⟨[], rest, rfl, ⟨rfl, rfl⟩, by rw [List.append_nil]⟩
  · rintro ⟨b, t, hrest, ⟨rfl, rfl⟩, rfl⟩
    exact ⟨rfl, by rw [List.append_nil]⟩

theorem parses_raiseIf (p : Prop) [Decidable p] (e : ε) :
    Parses (raiseIf (τ := τ) p e) (fun b _ _ => b = [] ∧ ¬p) := by
  intro pre rest x c
  unfold raiseIf
  by_cases hp : p
  · rw [if_pos hp]
    simp only [Prod.mk.injEq, reduceCtorEq, false_and, hp, not_true_eq_false, and_false,
      exists_false]
  · rw [if_neg hp]
    simp only [Prod.mk.injEq, true_and, hp, not_false_eq_true, and_true]
    constructor
    · rintro rfl
      exact ⟨[], rest, rfl, rfl, by rw [List.append_nil]⟩
    · rintro ⟨b, t, -, rfl, rfl⟩
      rw [List.append_nil]

theorem parses_call (r : Except ε α) :
    Parses (call (τ := τ) r) (fun b x _ => b = [] ∧ r = .ok x) := by
  intro pre rest x c
  unfold call
  rw [Prod.mk.injEq]
  constructor
  · rintro ⟨rfl, rfl⟩
    exact ⟨[], rest, rfl, ⟨rfl, rfl⟩, by rw [List.append_nil]⟩
  · rintro ⟨b, t, -, ⟨rfl, rfl⟩, rfl⟩
    rw [List.append_nil]
    exact ⟨rfl, rfl⟩

theorem parses_isEmpty :
    Parses (isEmpty (τ := τ) (ε := ε)) (fun b x t => b = [] ∧ x = t.isEmpty) := by
  intro pre rest x c
  -- The position is the length exactly when nothing is left.
  have htest : ((⟨pre ++ rest, pre.length⟩ : Cursor τ).position ==
      (⟨pre ++ rest, pre.length⟩ : Cursor τ).data.length) = rest.isEmpty := by
    cases rest with
    | nil => simp only [List.append_nil, beq_self_eq_true, List.isEmpty_nil]
    | cons r rest =>
        simp only [List.length_append, List.length_cons, List.isEmpty_cons, beq_eq_false_iff_ne]
        omega
  unfold isEmpty
  rw [htest, Prod.mk.injEq, Except.ok.injEq]
  constructor
  · rintro ⟨rfl, rfl⟩
    exact ⟨[], rest, rfl, ⟨rfl, rfl⟩, by rw [List.append_nil]⟩
  · rintro ⟨b, t, hrest, ⟨rfl, rfl⟩, rfl⟩
    rw [List.nil_append] at hrest
    rw [hrest, List.append_nil]
    exact ⟨rfl, rfl⟩

theorem accepts_raiseIf_bind (p : Prop) [Decidable p] (e : ε) (f : Unit → CursorM τ ε α)
    (pre rest : List τ) (Q : α → Cursor τ → Prop) :
    Accepts (raiseIf p e >>= f) pre rest Q ↔ ¬p ∧ Accepts (f ()) pre rest Q := by
  rw [(parses_raiseIf p e).accepts_bind]
  constructor
  · rintro ⟨_, b, t, rfl, ⟨rfl, hp⟩, hQ⟩
    rw [List.append_nil] at hQ
    exact ⟨hp, hQ⟩
  · rintro ⟨hp, hQ⟩
    exact ⟨(), [], rest, rfl, ⟨rfl, hp⟩, by rwa [List.append_nil]⟩

theorem accepts_raiseIf (p : Prop) [Decidable p] (e : ε) (pre rest : List τ)
    (Q : Unit → Cursor τ → Prop) :
    Accepts (raiseIf p e) pre rest Q ↔ ¬p ∧ Q () ⟨pre ++ rest, pre.length⟩ := by
  unfold Accepts raiseIf
  by_cases hp : p
  · rw [if_pos hp]
    simp only [Prod.mk.injEq, reduceCtorEq, false_and, exists_false, hp, not_true_eq_false]
  · rw [if_neg hp]
    constructor
    · rintro ⟨x, c, hrun, hQ⟩
      rw [← (Prod.mk.inj hrun).2] at hQ
      exact ⟨hp, hQ⟩
    · rintro ⟨-, hQ⟩
      exact ⟨(), _, rfl, hQ⟩

theorem accepts_call_bind (r : Except ε α) (f : α → CursorM τ ε β) (pre rest : List τ)
    (Q : β → Cursor τ → Prop) :
    Accepts (call r >>= f) pre rest Q ↔ ∃ x, r = .ok x ∧ Accepts (f x) pre rest Q := by
  rw [(parses_call r).accepts_bind]
  constructor
  · rintro ⟨x, b, t, rfl, ⟨rfl, hr⟩, hQ⟩
    rw [List.append_nil] at hQ
    exact ⟨x, hr, hQ⟩
  · rintro ⟨x, hr, hQ⟩
    exact ⟨x, [], rest, rfl, ⟨rfl, hr⟩, by rwa [List.append_nil]⟩

theorem accepts_call (r : Except ε α) (pre rest : List τ) (Q : α → Cursor τ → Prop) :
    Accepts (call r) pre rest Q ↔ ∃ x, r = .ok x ∧ Q x ⟨pre ++ rest, pre.length⟩ := by
  constructor
  · rintro ⟨x, c, hrun, hQ⟩
    rcases Prod.mk.inj hrun with ⟨rfl, rfl⟩
    exact ⟨x, rfl, hQ⟩
  · rintro ⟨x, rfl, hQ⟩
    exact ⟨x, _, rfl, hQ⟩

theorem accepts_getCursor_bind (f : Cursor τ → CursorM τ ε β) (pre rest : List τ)
    (Q : β → Cursor τ → Prop) :
    Accepts (getCursor >>= f) pre rest Q ↔
      Accepts (f ⟨pre ++ rest, pre.length⟩) pre rest Q :=
  Iff.rfl

theorem accepts_isEmpty_bind (f : Bool → CursorM τ ε β) (pre rest : List τ)
    (Q : β → Cursor τ → Prop) :
    Accepts (isEmpty >>= f) pre rest Q ↔ Accepts (f rest.isEmpty) pre rest Q := by
  rw [parses_isEmpty.accepts_bind]
  constructor
  · rintro ⟨x, b, t, rfl, ⟨rfl, rfl⟩, hQ⟩
    rw [List.append_nil] at hQ
    exact hQ
  · intro hQ
    exact ⟨_, [], rest, rfl, ⟨rfl, rfl⟩, by rwa [List.append_nil]⟩

/-- A run from the start of the data is an acceptance with nothing before. -/
theorem runCursor_eq_ok_iff (data : List τ) (m : CursorM τ ε α) (x : α) :
    runCursor data m = .ok x ↔ Accepts m [] data (fun y _ => y = x) := by
  unfold runCursor Accepts
  rw [List.nil_append, List.length_nil]
  rcases m ⟨data, 0⟩ with ⟨r, c⟩
  constructor
  · intro h
    exact ⟨x, c, by rw [← h], rfl⟩
  · rintro ⟨y, c', h, rfl⟩
    rw [h]

/-- A list of tokens as a chain of items, each taking one state to the next. -/
inductive Items (I : σ → List τ → σ → Prop) : σ → List τ → σ → Prop
  | nil (s : σ) : Items I s [] s
  | cons (s s' s'' : σ) (b t : List τ) (hd : I s b s') (tl : Items I s' t s'') :
      Items I s (b ++ t) s''

/-- A loop accepts the chains of its body's items, whatever the bound, as soon
    as the bound exceeds the number of tokens. -/
theorem accepts_whileNotEmpty (stuck : ε) (body : σ → CursorM τ ε σ)
    (I : σ → List τ → σ → Prop) (hbody : ∀ s, Parses (body s) (fun b s' _ => I s b s'))
    (hpos : ∀ s b s', I s b s' → b ≠ []) (Q : σ → Cursor τ → Prop) :
    ∀ (fuel : Nat) (s : σ) (pre rest : List τ), rest.length < fuel →
      (Accepts (whileNotEmpty stuck body fuel s) pre rest Q ↔
        ∃ s', Items I s rest s' ∧ Q s' ⟨pre ++ rest, (pre ++ rest).length⟩) := by
  intro fuel
  induction fuel with
  | zero =>
      intro s pre rest hfuel
      omega
  | succ fuel ih =>
      intro s pre rest hfuel
      rw [whileNotEmpty, accepts_isEmpty_bind]
      cases rest with
      | nil =>
          rw [List.isEmpty_nil, if_pos rfl, accepts_pure, List.append_nil]
          constructor
          · intro hQ
            exact ⟨s, Items.nil s, hQ⟩
          · rintro ⟨s', hitems, hQ⟩
            -- A chain that consumes nothing has no item in it.
            generalize hnil : ([] : List τ) = input at hitems
            cases hitems with
            | nil => exact hQ
            | cons s₁ s₂ s₃ b t hd tl =>
                exact absurd (List.append_eq_nil_iff.mp hnil.symm).1 (hpos _ _ _ hd)
      | cons r rest =>
          rw [List.isEmpty_cons, if_neg Bool.false_ne_true, (hbody s).accepts_bind]
          constructor
          · rintro ⟨s₁, b, t, hrest, hI, hacc⟩
            have hlen : t.length < fuel := by
              have hb := List.length_pos_iff.mpr (hpos _ _ _ hI)
              have hsum := congrArg List.length hrest
              rw [List.length_append] at hsum
              omega
            rcases (ih s₁ (pre ++ b) t hlen).mp hacc with ⟨s', hitems, hQ⟩
            rw [List.append_assoc, ← hrest] at hQ
            exact ⟨s', by rw [hrest]; exact Items.cons s s₁ s' b t hI hitems, hQ⟩
          · rintro ⟨s', hitems, hQ⟩
            generalize hinput : r :: rest = input at hitems
            cases hitems with
            | nil => exact absurd hinput (List.cons_ne_nil r rest)
            | cons s₁ s₂ s₃ b t hd tl =>
                have hlen : t.length < fuel := by
                  have hb := List.length_pos_iff.mpr (hpos _ _ _ hd)
                  have hsum := congrArg List.length hinput
                  rw [List.length_append] at hsum
                  omega
                refine ⟨s₂, b, t, rfl, hd, (ih s₂ (pre ++ b) t hlen).mpr ⟨s', tl, ?_⟩⟩
                rw [List.append_assoc, ← hinput]
                exact hQ

/-- Every item of a list is admissible where it stands, given the values
    collected before it. -/
def EachFits {ι κ : Type} (val : ι → κ) (ok : List κ → ι → Prop) : List κ → List ι → Prop
  | _, [] => True
  | s, x :: xs => ok s x ∧ EachFits val ok (s ++ [val x]) xs

/-- The item that a collecting pass reads: its encoding, whether it is
    admissible, and the value it adds. -/
def Collects {ι κ : Type} (enc : ι → List τ) (val : ι → κ) (ok : List κ → ι → Prop)
    (s : List κ) (b : List τ) (s' : List κ) : Prop :=
  ∃ x, b = enc x ∧ ok s x ∧ s' = s ++ [val x]

/-- A chain of collecting passes is a list of items written one after the
    other. -/
theorem items_collects_iff {ι κ : Type} (enc : ι → List τ) (val : ι → κ)
    (ok : List κ → ι → Prop) (s s' : List κ) (input : List τ) :
    Items (Collects enc val ok) s input s' ↔
      ∃ xs : List ι, input = xs.flatMap enc ∧ EachFits val ok s xs ∧ s' = s ++ xs.map val := by
  constructor
  -- The passes, from the first to the last.
  · intro h
    induction h with
    | nil s => exact ⟨[], rfl, trivial, by rw [List.map_nil, List.append_nil]⟩
    | cons s s₁ s₂ b t hd tl ih =>
        rcases hd with ⟨x, rfl, hok, rfl⟩
        rcases ih with ⟨xs, rfl, hfits, rfl⟩
        refine ⟨x :: xs, by rw [List.flatMap_cons], ⟨hok, hfits⟩, ?_⟩
        rw [List.map_cons, List.append_assoc, List.singleton_append]
  -- Each item of the list is what one pass reads.
  · rintro ⟨xs, rfl, hfits, rfl⟩
    induction xs generalizing s with
    | nil =>
        rw [List.map_nil, List.append_nil]
        exact Items.nil s
    | cons x xs ih =>
        have htail := ih (s ++ [val x]) hfits.2
        rw [List.append_assoc, List.singleton_append] at htail
        exact Items.cons s _ _ (enc x) _ ⟨x, rfl, hfits.1, rfl⟩ htail

/-- Items that must not repeat a key. -/
theorem eachFits_fresh_iff {ι κ μ : Type} (val : ι → κ) (key : κ → μ) (s : List κ)
    (xs : List ι) (hs : (s.map key).Nodup) :
    EachFits val (fun s x => key (val x) ∉ s.map key) s xs ↔
      ((s ++ xs.map val).map key).Nodup := by
  induction xs generalizing s with
  | nil => simp only [EachFits, List.map_nil, List.append_nil, hs]
  | cons x xs ih =>
      -- The first item joins those collected, and the rest is checked against both.
      have hstep : s ++ (x :: xs).map val = (s ++ [val x]) ++ xs.map val := by
        rw [List.map_cons, List.append_assoc, List.singleton_append]
      rw [EachFits, hstep]
      constructor
      · rintro ⟨hx, hfits⟩
        refine (ih (s ++ [val x]) ?_).mp hfits
        rw [List.map_append, List.map_singleton]
        exact List.nodup_append.mpr ⟨hs, List.pairwise_singleton _ _, fun a ha b hb hab =>
          hx (List.mem_singleton.mp hb ▸ hab ▸ ha)⟩
      -- Keys that are distinct to the end are so up to this item.
      · intro hnodup
        have hfront : ((s ++ [val x]).map key).Nodup := by
          rw [List.map_append] at hnodup
          exact (List.nodup_append.mp hnodup).1
        refine ⟨fun hx => ?_, (ih (s ++ [val x]) hfront).mpr hnodup⟩
        rw [List.map_append, List.map_singleton] at hfront
        exact (List.nodup_append.mp hfront).2.2 _ hx _ (List.mem_singleton_self _) rfl

/-- Items whose number is bounded: only the last one counts. -/
theorem eachFits_length_iff {ι κ : Type} (val : ι → κ) (bound : Nat) (s : List κ)
    (xs : List ι) (hs : s.length ≤ bound) :
    EachFits val (fun s _ => s.length + 1 ≤ bound) s xs ↔ s.length + xs.length ≤ bound := by
  induction xs generalizing s with
  | nil => simp only [EachFits, List.length_nil, Nat.add_zero, hs]
  | cons x xs ih =>
      rw [EachFits, List.length_cons]
      constructor
      · rintro ⟨hx, hfits⟩
        have hlen := (ih (s ++ [val x]) (by rw [List.length_append]; exact hx)).mp hfits
        rw [List.length_append, List.length_singleton] at hlen
        omega
      · intro hlen
        have hx : (s ++ [val x]).length ≤ bound := by
          rw [List.length_append, List.length_singleton]
          omega
        refine ⟨by omega, (ih (s ++ [val x]) hx).mpr ?_⟩
        rw [List.length_append, List.length_singleton]
        omega

end Acceptance

section Failures

variable {τ ε α β σ : Type} {P : ε → Prop}

/-- Every failure of the program at this place satisfies the condition. -/
def RaisesAt (P : ε → Prop) (m : CursorM τ ε α) (pre rest : List τ) : Prop :=
  ∀ e c, m ⟨pre ++ rest, pre.length⟩ = (.error e, c) → P e

/-- Every failure of the program satisfies the condition. -/
def Raises (P : ε → Prop) (m : CursorM τ ε α) : Prop :=
  ∀ pre rest, RaisesAt P m pre rest

/-- A sequence fails where its first part fails, or after it where the second
    does; the second part may use what the first one established. -/
theorem Parses.raisesAt_bind {m : CursorM τ ε α} {G : List τ → α → List τ → Prop}
    (hm : Parses m G) {f : α → CursorM τ ε β} {pre rest : List τ} (he : RaisesAt P m pre rest)
    (hf : ∀ x b t, rest = b ++ t → G b x t → RaisesAt P (f x) (pre ++ b) t) :
    RaisesAt P (m >>= f) pre rest := by
  intro e c hrun
  rw [bind_apply] at hrun
  rcases hx : m ⟨pre ++ rest, pre.length⟩ with ⟨e₁ | x, c₁⟩
  · rw [hx] at hrun
    simp only [Prod.mk.injEq, Except.error.injEq] at hrun
    rw [← hrun.1]
    exact he e₁ c₁ hx
  · rw [hx] at hrun
    rcases (hm pre rest x c₁).mp hx with ⟨b, t, hrest, hG, hc₁⟩
    refine hf x b t hrest hG e c ?_
    simp only at hrun
    rw [hc₁, hrest, ← List.append_assoc] at hrun
    exact hrun

theorem Parses.raises_bind {m : CursorM τ ε α} {G : List τ → α → List τ → Prop}
    (hm : Parses m G) {f : α → CursorM τ ε β} (he : Raises P m)
    (hf : ∀ x b t, G b x t → Raises P (f x)) : Raises P (m >>= f) :=
  fun pre rest => hm.raisesAt_bind (he pre rest) fun x b t _ hG => hf x b t hG (pre ++ b) t

theorem raises_pure (x : α) : Raises P (pure x : CursorM τ ε α) := by
  intro pre rest e c hrun
  rw [pure_apply] at hrun
  simp only [Prod.mk.injEq, reduceCtorEq, false_and] at hrun

theorem raises_raiseIf (p : Prop) [Decidable p] (e : ε) (he : P e) :
    Raises P (raiseIf (τ := τ) p e) := by
  intro pre rest e' c hrun
  unfold raiseIf at hrun
  by_cases hp : p
  · rw [if_pos hp] at hrun
    simp only [Prod.mk.injEq, Except.error.injEq] at hrun
    rw [← hrun.1]
    exact he
  · rw [if_neg hp] at hrun
    simp only [Prod.mk.injEq, reduceCtorEq, false_and] at hrun

theorem raises_call (r : Except ε α) (hr : ∀ e, r = .error e → P e) :
    Raises P (call (τ := τ) r) := by
  intro pre rest e c hrun
  unfold call at hrun
  exact hr e (Prod.mk.injEq _ _ _ _ ▸ hrun).1

theorem raises_raiseIf_bind {p : Prop} [Decidable p] {e : ε} {f : Unit → CursorM τ ε α}
    (he : P e) (hf : ¬p → Raises P (f ())) : Raises P (raiseIf p e >>= f) :=
  (parses_raiseIf p e).raises_bind (raises_raiseIf p e he) fun _ _ _ hG => hf hG.2

theorem raises_call_bind {r : Except ε α} {f : α → CursorM τ ε β}
    (hr : ∀ e, r = .error e → P e) (hf : ∀ x, r = .ok x → Raises P (f x)) :
    Raises P (call r >>= f) :=
  (parses_call r).raises_bind (raises_call r hr) fun x _ _ hG => hf x hG.2

theorem raises_getCursor_bind {f : Cursor τ → CursorM τ ε α} (hf : ∀ c, Raises P (f c)) :
    Raises P (getCursor >>= f) :=
  fun pre rest => hf _ pre rest

theorem raises_isEmpty : Raises P (isEmpty (τ := τ) (ε := ε)) := by
  intro pre rest e c hrun
  unfold isEmpty at hrun
  simp only [Prod.mk.injEq, reduceCtorEq, false_and] at hrun

theorem raises_isEmpty_bind {f : Bool → CursorM τ ε α} (hf : ∀ b, Raises P (f b)) :
    Raises P (isEmpty >>= f) :=
  parses_isEmpty.raises_bind raises_isEmpty fun x _ _ _ => hf x

/-- A failing run from the start of the data fails as the program does. -/
theorem raises_runCursor (data : List τ) (m : CursorM τ ε α) (h : RaisesAt P m [] data) (e : ε)
    (he : runCursor data m = .error e) : P e := by
  unfold runCursor at he
  rcases hx : m ⟨data, 0⟩ with ⟨r, c⟩
  rw [hx] at he
  simp only at he
  exact h e c (by rw [List.nil_append, List.length_nil, hx, he])

/-- A loop whose passes all consume something fails only where its body does:
    a bound above the number of tokens is never used up. -/
theorem raises_whileNotEmpty (stuck : ε) (body : σ → CursorM τ ε σ)
    (I : σ → List τ → σ → Prop) (hbody : ∀ s, Parses (body s) (fun b s' _ => I s b s'))
    (hpos : ∀ s b s', I s b s' → b ≠ []) (hraise : ∀ s, Raises P (body s)) :
    ∀ (fuel : Nat) (s : σ) (pre rest : List τ), rest.length < fuel →
      RaisesAt P (whileNotEmpty stuck body fuel s) pre rest := by
  intro fuel
  induction fuel with
  | zero =>
      intro s pre rest hfuel
      -- The bound is above the number of tokens, so it is not used up here.
      omega
  | succ fuel ih =>
      intro s pre rest hfuel
      rw [whileNotEmpty]
      refine parses_isEmpty.raisesAt_bind (raises_isEmpty pre rest) ?_
      rintro x b t hrest ⟨rfl, rfl⟩
      cases ht : t.isEmpty with
      | true =>
          rw [if_pos rfl]
          exact raises_pure s _ _
      | false =>
          rw [if_neg Bool.false_ne_true]
          refine (hbody s).raisesAt_bind (hraise s _ _) fun s' b' t' ht' hI => ih s' _ _ ?_
          -- The pass consumed a token, and the bound decreased by one.
          have hb := List.length_pos_iff.mpr (hpos _ _ _ hI)
          have hsum := congrArg List.length hrest
          rw [ht', List.nil_append, List.length_append] at hsum
          omega

end Failures

end Wire
