import Mathlib.Data.List.Induction
import Mathlib.Data.List.Lex
import Mathlib.Order.Monotone.Defs
import Mathlib.Tactic.Ring

/-!
# Positional Notation

The number that a string of digits denotes, and the order of such strings.

Digits are letters of an ordered alphabet with a value each. Two strings of
one length are in the order of their numbers, as long as the letters are in
the order of their values: at the first place where they differ the larger
digit outweighs whatever is behind it. The letters that are no digits do not
matter, so the alphabet can be larger than the notation.

## Main definitions

* `positional`: The number that digits denote in a base.

## Theorems

* `positional_cons`: The first digit counts for the most.
* `positional_lt`: What is denoted is below a power of the base.
* `lt_iff_positional_lt`: Strings of digits of one length are in the order of
  their numbers.
-/

namespace Wire

variable {α : Type} {base : Nat} {digit : α → Nat}

/-- The number that digits denote in a base, most significant digit first. -/
def positional (base : Nat) (digit : α → Nat) (s : List α) : Nat :=
  s.foldl (fun n x => n * base + digit x) 0

theorem positional_concat (s : List α) (x : α) :
    positional base digit (s ++ [x]) = positional base digit s * base + digit x := by
  simp only [positional, List.foldl_append, List.foldl_cons, List.foldl_nil]

/-- The first digit counts for the most. -/
theorem positional_cons (x : α) (s : List α) :
    positional base digit (x :: s) =
      digit x * base ^ s.length + positional base digit s := by
  induction s using List.reverseRecOn with
  | nil => simp only [positional, List.foldl_cons, List.foldl_nil, List.length_nil, pow_zero,
      Nat.zero_mul, Nat.zero_add, Nat.mul_one, Nat.add_zero]
  | append_singleton s y ih =>
      rw [← List.cons_append, positional_concat, positional_concat, ih, List.length_append,
        List.length_singleton, pow_succ]
      ring

/-- Digits below the base denote a number below a power of it. -/
theorem positional_lt (s : List α) (h : ∀ x ∈ s, digit x < base) :
    positional base digit s < base ^ s.length := by
  induction s with
  | nil => exact Nat.zero_lt_one
  | cons x s ih =>
      have hrest := ih fun y hy => h y (List.mem_cons_of_mem x hy)
      have hfirst := Nat.mul_le_mul_right (base ^ s.length) (h x List.mem_cons_self)
      rw [positional_cons, List.length_cons, pow_succ']
      rw [Nat.succ_mul] at hfirst
      omega

/-- Of two numbers split at one place the larger has the larger front, or the
    same front and the larger rest. -/
theorem split_lt_iff (u v p q b : Nat) (hp : p < b) (hq : q < b) :
    u * b + p < v * b + q ↔ u < v ∨ u = v ∧ p < q := by
  rcases Nat.lt_trichotomy u v with h | rfl | h
  · have hmul := Nat.mul_le_mul_right b h
    rw [Nat.succ_mul] at hmul
    exact ⟨fun _ => Or.inl h, fun _ => by omega⟩
  · simp only [Nat.lt_irrefl, true_and, false_or]
    omega
  · have hmul := Nat.mul_le_mul_right b h
    rw [Nat.succ_mul] at hmul
    exact ⟨fun _ => by omega, fun _ => by omega⟩

section Order

variable [LinearOrder α] {S : Set α}

/-- Strings of digits of one length are in the order of their numbers. -/
theorem lt_iff_positional_lt (hbase : ∀ x ∈ S, digit x < base) (hmono : StrictMonoOn digit S)
    (a b : List α) (hlen : a.length = b.length) (ha : ∀ x ∈ a, x ∈ S) (hb : ∀ x ∈ b, x ∈ S) :
    a < b ↔ positional base digit a < positional base digit b := by
  induction a generalizing b with
  | nil =>
      rw [List.eq_nil_of_length_eq_zero hlen.symm]
      exact iff_of_false (lt_irrefl _) (Nat.lt_irrefl _)
  | cons x a ih =>
      cases b with
      | nil => exact absurd hlen (Nat.succ_ne_zero a.length)
      | cons y b =>
          have hx := ha x List.mem_cons_self
          have hy := hb y List.mem_cons_self
          have ha' : ∀ z ∈ a, z ∈ S := fun z hz => ha z (List.mem_cons_of_mem x hz)
          have hb' : ∀ z ∈ b, z ∈ S := fun z hz => hb z (List.mem_cons_of_mem y hz)
          have hlen' : a.length = b.length := Nat.succ.inj hlen
          -- What is behind the first digits is below the place they stand at.
          have hpa := positional_lt a fun z hz => hbase z (ha' z hz)
          have hpb := positional_lt b fun z hz => hbase z (hb' z hz)
          rw [← hlen'] at hpb
          rw [List.cons_lt_cons_iff, positional_cons, positional_cons, ← hlen',
            split_lt_iff _ _ _ _ _ hpa hpb, ih b hlen' ha' hb', hmono.lt_iff_lt hx hy,
            hmono.injOn.eq_iff hx hy]

theorem le_iff_positional_le (hbase : ∀ x ∈ S, digit x < base) (hmono : StrictMonoOn digit S)
    (a b : List α) (hlen : a.length = b.length) (ha : ∀ x ∈ a, x ∈ S) (hb : ∀ x ∈ b, x ∈ S) :
    a ≤ b ↔ positional base digit a ≤ positional base digit b := by
  rw [← not_lt, lt_iff_positional_lt hbase hmono b a hlen.symm hb ha, Nat.not_lt]

end Order

end Wire
