import Mathlib.Data.List.Basic

/-!
# Self-Delimiting Words

What a framing format has to satisfy for a plain concatenation of its messages
to be readable again.

A set of words is self-delimiting when a word of the set at the front of a
list can be told apart from whatever follows it. Concatenating a fixed number
of such words then loses nothing: `flatten_inj` recovers the words and the
tail from the concatenation alone, with no separator between them. That one
fact gives the three things a framed format is asked for. The words are
determined by their concatenation, an extension of a concatenation is not
another one, and neither is a proper front part of it.

The number of words has to be fixed, or a longer list of words would extend a
shorter one. Nothing else is asked: the words may differ in kind from one
place to the next, since one set can hold them all.

## Main definitions

* `SelfDelimiting`: A word of the set determines where it ends.

## Theorems

* `SelfDelimiting.flatten_inj`: Concatenations of equally many words.
-/

namespace Wire

variable {τ : Type}

/-- A word of the set at the front of a list determines where it ends. -/
def SelfDelimiting (S : List τ → Prop) : Prop :=
  ∀ (a b x y : List τ), S a → S b → a ++ x = b ++ y → a = b ∧ x = y

/-- A concatenation of a known number of words, with anything behind it,
    determines the words and what is behind them. -/
theorem SelfDelimiting.flatten_inj {S : List τ → Prop} (hS : SelfDelimiting S) :
    ∀ (as bs : List (List τ)) (x y : List τ), as.length = bs.length →
      (∀ a ∈ as, S a) → (∀ b ∈ bs, S b) → as.flatten ++ x = bs.flatten ++ y →
      as = bs ∧ x = y := by
  intro as
  induction as with
  | nil =>
      intro bs x y hlen _ _ h
      rw [List.length_nil] at hlen
      rw [List.eq_nil_of_length_eq_zero hlen.symm] at h ⊢
      exact ⟨rfl, h⟩
  | cons a as ih =>
      intro bs x y hlen ha hb h
      cases bs with
      | nil => exact absurd hlen (Nat.succ_ne_zero as.length)
      | cons b bs =>
          -- The first words agree, and what is behind them does too.
          simp only [List.flatten_cons, List.append_assoc] at h
          rcases hS a b _ _ (ha a List.mem_cons_self) (hb b List.mem_cons_self) h with ⟨rfl, hrest⟩
          rcases ih bs x y (Nat.succ.inj hlen) (fun c hc => ha c (List.mem_cons_of_mem _ hc))
            (fun c hc => hb c (List.mem_cons_of_mem _ hc)) hrest with ⟨rfl, hxy⟩
          exact ⟨rfl, hxy⟩

end Wire
