import Mathlib.Algebra.Order.Floor.Ring
import Mathlib.Tactic.Linarith

/-!
# Spaced Sequences

Points in time that keep a distance, and how many of them a window can hold.

A sequence is spaced when every entry is some distance behind all earlier
ones. It is built at its end: a new entry has to keep the distance from the
entries so far, and whoever builds the sequence only has to remember a point
that is far enough behind all of them.

The distance between neighbours bounds the number of entries in any window,
since the entries of a window are spaced as well. There is no allowance that
grows while nothing happens, so a pause before the window makes no difference.

## Main definitions

* `Spaced`: Every entry is some distance behind all earlier ones.

## Theorems

* `Spaced.concat`: A new entry at the end.
* `Spaced.consecutive`: Neighbours keep the distance.
* `Spaced.mul_lt`: The extent of a spaced sequence in a window.
* `Spaced.length_window_le`: The number of entries in a window.
-/

namespace Wire

variable {K : Type} [Field K] [LinearOrder K]

/-- Every entry is at least the distance behind all earlier ones. -/
def Spaced (distance : K) (points : List K) : Prop :=
  points.Pairwise fun a b => a + distance ≤ b

namespace Spaced

variable {distance : K} {points : List K}

theorem nil (distance : K) : Spaced distance [] :=
  List.Pairwise.nil

/-- An entry that is behind all others can be added. -/
theorem concat (h : Spaced distance points) {x : K} (hx : ∀ a ∈ points, a + distance ≤ x) :
    Spaced distance (points ++ [x]) := by
  refine List.pairwise_append.mpr ⟨h, List.pairwise_singleton _ x, ?_⟩
  intro a ha b hb
  rw [List.mem_singleton.mp hb]
  exact hx a ha

theorem consecutive (h : Spaced distance points) {k : Nat} {a b : K} (ha : points[k]? = some a)
    (hb : points[k + 1]? = some b) : a + distance ≤ b := by
  rcases List.getElem?_eq_some_iff.mp ha with ⟨hk, rfl⟩
  rcases List.getElem?_eq_some_iff.mp hb with ⟨hk', rfl⟩
  exact List.pairwise_iff_getElem.mp h k (k + 1) hk hk' (Nat.lt_succ_self k)

variable [IsStrictOrderedRing K]

/-- The gaps between the entries of a window fit in its width. The window is
    shortened by the distance at each entry. -/
theorem mul_lt (h : Spaced distance points) (hne : points ≠ []) :
    ∀ left width : K, (∀ a ∈ points, left ≤ a ∧ a < left + width) →
      (points.length - 1 : K) * distance < width := by
  induction points with
  | nil => exact absurd rfl hne
  | cons a points ih =>
      intro left width hwindow
      have ha := hwindow a List.mem_cons_self
      rcases List.pairwise_cons.mp h with ⟨hfirst, hrest⟩
      by_cases hlast : points = []
      · rw [hlast, List.length_singleton, Nat.cast_one, sub_self, zero_mul]
        linarith
      -- The others are a distance later, in a window that is shorter by it.
      · have hgaps := ih hrest hlast (left + distance) (width - distance) fun b hb => by
          have hb' := hwindow b (List.mem_cons_of_mem a hb)
          have hgap := hfirst b hb
          exact ⟨by linarith, by linarith⟩
        rw [List.length_cons, Nat.cast_add, Nat.cast_one]
        linarith

/-- A window holds at most one entry more than its width has distances. -/
theorem length_window_le [FloorRing K] {rate : K} (hrate : 0 < rate)
    (h : Spaced (1 / rate) points) (left : K) {width : K} (hwidth : 0 ≤ width) :
    ((points.filter fun a => left ≤ a ∧ a < left + width).length : ℤ) ≤ ⌊width * rate⌋ + 1 := by
  have hwindow : ∀ a ∈ points.filter fun a => left ≤ a ∧ a < left + width,
      left ≤ a ∧ a < left + width :=
    fun a ha => of_decide_eq_true (List.mem_filter.mp ha).2
  have hspaced : Spaced (1 / rate) (points.filter fun a => left ≤ a ∧ a < left + width) :=
    List.Pairwise.filter _ h
  generalize (points.filter fun a => left ≤ a ∧ a < left + width) = inside at hwindow hspaced ⊢
  by_cases hnone : inside = []
  · rw [hnone, List.length_nil]
    have hfloor := Int.floor_nonneg.mpr (mul_nonneg hwidth hrate.le)
    omega
  -- There is one gap less than there are entries.
  · have hgaps := mul_lt hspaced hnone left width hwindow
    rw [mul_one_div, div_lt_iff₀ hrate] at hgaps
    have hle : (inside.length : ℤ) - 1 ≤ ⌊width * rate⌋ := by
      refine Int.le_floor.mpr ?_
      push_cast
      exact hgaps.le
    omega

end Spaced

end Wire
