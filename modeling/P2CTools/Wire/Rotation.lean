import Mathlib.Data.Int.CardIntervalMod
import Mathlib.Data.List.Induction
import Mathlib.Data.List.Nodup

/-!
# Rotation

Taking the entries of a ring in turn.

The entry that is taken next depends on how many were taken, and on nothing
else. So whoever takes them only has to count, and the sequence of taken
entries is determined by its length. If the ring has no entry twice, then each
of them has been taken once for every full turn, and those at the front of the
ring once more for the turn that has begun.

## Main definitions

* `InTurn`: The entries of a ring are taken in turn.

## Theorems

* `InTurn.concat`: The next entry is taken.
* `InTurn.mem`: Only entries of the ring are taken.
* `InTurn.count_eq`: How often an entry has been taken.
* `InTurn.count_le_succ`: No entry is taken more than once more than another.
-/

namespace Wire

variable {α : Type} {ring taken : List α}

/-- The entries of the ring are taken in turn. -/
def InTurn (ring taken : List α) : Prop :=
  ∀ (k : Nat) (x : α), taken[k]? = some x → ring[k % ring.length]? = some x

namespace InTurn

theorem nil (ring : List α) : InTurn ring [] :=
  fun _ _ h => nomatch h

/-- The next entry is taken. -/
theorem concat (h : InTurn ring taken) {x : α}
    (hx : ring[taken.length % ring.length]? = some x) : InTurn ring (taken ++ [x]) := by
  intro k y hy
  by_cases hk : k < taken.length
  · rw [List.getElem?_append_left hk] at hy
    exact h k y hy
  · rcases List.getElem?_eq_some_iff.mp hy with ⟨hlt, -⟩
    rw [List.length_append, List.length_singleton] at hlt
    obtain rfl : k = taken.length := by omega
    rw [List.getElem?_concat_length] at hy
    rw [← Option.some.inj hy]
    exact hx

/-- What is taken in turn was so before. -/
theorem of_concat {x : α} (h : InTurn ring (taken ++ [x])) :
    InTurn ring taken ∧ ring[taken.length % ring.length]? = some x := by
  constructor
  · intro k y hy
    rcases List.getElem?_eq_some_iff.mp hy with ⟨hk, -⟩
    refine h k y ?_
    rw [List.getElem?_append_left hk]
    exact hy
  · exact h _ x List.getElem?_concat_length

/-- Only entries of the ring are taken. -/
theorem mem (h : InTurn ring taken) {x : α} (hx : x ∈ taken) : x ∈ ring := by
  rcases List.getElem?_of_mem hx with ⟨k, hk⟩
  exact List.mem_of_getElem? (h k x hk)

variable [DecidableEq α]

/-- An entry is taken as often as there are turns, and once more if the turn
    that has begun has come to it. -/
theorem count_eq (hring : ring.Nodup) (h : InTurn ring taken) {i : Nat} (hi : i < ring.length) :
    taken.count ring[i] =
      taken.length / ring.length + if i < taken.length % ring.length then 1 else 0 := by
  have hpos : 0 < ring.length := by omega
  have hcount : taken.count ring[i] = Nat.count (· ≡ i [MOD ring.length]) taken.length := by
    induction taken using List.reverseRecOn with
    | nil => rw [List.count_nil, List.length_nil, Nat.count_zero]
    | append_singleton taken x ih =>
        rcases h.of_concat with ⟨hbefore, hx⟩
        rcases List.getElem?_eq_some_iff.mp hx with ⟨hlt, rfl⟩
        -- The entry taken last is the one at its index in the ring.
        have hsame : (ring[taken.length % ring.length] == ring[i]) = true ↔
            taken.length ≡ i [MOD ring.length] := by
          rw [beq_iff_eq, hring.getElem_inj_iff]
          unfold Nat.ModEq
          rw [Nat.mod_eq_of_lt hi]
        rw [List.count_append, ih hbefore, List.length_append, List.length_singleton,
          Nat.count_succ, List.count_singleton]
        simp only [hsame]
  rw [hcount, Nat.count_modEq_card taken.length hpos i, Nat.mod_eq_of_lt hi]

/-- No entry is taken more than once more than another. -/
theorem count_le_succ (hring : ring.Nodup) (h : InTurn ring taken) {x y : α} (hx : x ∈ ring)
    (hy : y ∈ ring) : taken.count x ≤ taken.count y + 1 := by
  rcases List.getElem_of_mem hx with ⟨i, hi, rfl⟩
  rcases List.getElem_of_mem hy with ⟨j, hj, rfl⟩
  rw [h.count_eq hring hi, h.count_eq hring hj]
  split <;> split <;> omega

end InTurn

end Wire
