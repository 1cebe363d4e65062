import Mathlib.Data.List.Basic

/-!
# Feedback Chains

Blocks that are each made from their number and the block before, and the
stream they make up.

A generator of this kind hands out the first bytes of its stream. How many
blocks it computes for that does not show, as long as they are enough: a
stream of fewer blocks is the front of a stream of more, so the cut falls at
the same place. This is why a shorter request gives the front of what a longer
one gives.

## Main definitions

* `chain`: The block with a number.
* `chained`: The stream of the first blocks.

## Theorems

* `length_chained`: Blocks of one size make up a multiple of it.
* `chained_mono`: Fewer blocks are the front of more.
* `take_chained`: What is cut off does not depend on the number of blocks.
-/

namespace Wire

variable {τ : Type} (next : Nat → List τ → List τ)

/-- The block with a number, made from the one before it. There is nothing in
    front of the first. -/
def chain : Nat → List τ
  | 0 => []
  | i + 1 => next (i + 1) (chain i)

/-- The stream of the first blocks. -/
def chained : Nat → List τ
  | 0 => []
  | n + 1 => chained n ++ chain next (n + 1)

variable {next} {size : Nat}

/-- Blocks of one size make up a multiple of it. -/
theorem length_chained (hsize : ∀ i block, (next i block).length = size) (n : Nat) :
    (chained next n).length = size * n := by
  induction n with
  | zero => rfl
  | succ n ih => rw [chained, List.length_append, ih, chain, hsize, Nat.mul_succ]

/-- Fewer blocks are the front of more. -/
theorem chained_mono {m n : Nat} (h : m ≤ n) : chained next m <+: chained next n := by
  induction h with
  | refl => exact List.prefix_refl _
  | step _ ih => exact ih.trans (List.prefix_append _ _)

/-- What is cut off a stream does not depend on how many blocks it has, as long
    as they are enough. -/
theorem take_chained (hsize : ∀ i block, (next i block).length = size) {k m n : Nat}
    (hm : k ≤ size * m) (hn : k ≤ size * n) :
    (chained next m).take k = (chained next n).take k := by
  have hcut : ∀ {m n : Nat}, m ≤ n → k ≤ size * m →
      (chained next m).take k = (chained next n).take k := by
    intro m n hmn hk
    have hfront : chained next m <+: chained next n := chained_mono hmn
    rcases hfront with ⟨rest, hrest⟩
    rw [← hrest, List.take_append_of_le_length (by rw [length_chained hsize]; exact hk)]
  rcases Nat.le_total m n with h | h
  · exact hcut h hm
  · exact (hcut h hn).symm

end Wire
