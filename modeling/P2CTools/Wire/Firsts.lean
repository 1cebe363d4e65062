import Mathlib.Data.List.Induction
import Mathlib.Data.List.Nodup

/-!
# First Occurrences

A list without the entries whose key has occurred before.

The library function looks at a list from its front and takes later entries
out of what is still to come. A loop over the list works the other way. It has
seen an initial part, and adds the next entry if its key is new. `firsts_concat`
is that view, and everything else follows from it by induction at the end of
the list.

## Main definitions

* `firsts`: The first occurrence of every key.

## Theorems

* `firsts_concat`: One more entry at the end.
* `mem_map_firsts`: No key is lost.
* `firsts_sublist`, `nodup_map_firsts`: The order is kept, and keys are distinct.
* `mem_firsts_iff`: What is kept is what comes before all others with its key.
-/

namespace Wire

variable {α κ : Type} [DecidableEq κ] (key : α → κ)

/-- The first occurrence of every key. -/
def firsts (l : List α) : List α :=
  l.eraseDupsBy fun x y => key x == key y

theorem firsts_cons (x : α) (l : List α) :
    firsts key (x :: l) = x :: firsts key (l.filter fun y => key y ≠ key x) := by
  have hnew : (fun y => decide (key y ≠ key x)) = fun y => decide ((key y == key x) = false) := by
    funext y
    exact decide_eq_decide.mpr beq_eq_false_iff_ne.symm
  rw [hnew]
  exact List.eraseDupsBy_cons

/-- Other keys are untouched where the entries with one key are taken out. -/
theorem mem_map_filter_ne {l : List α} {a x : α} (hne : key x ≠ key a) :
    key x ∈ (l.filter fun y => key y ≠ key a).map key ↔ key x ∈ l.map key := by
  simp only [List.mem_map, List.mem_filter, decide_eq_true_eq]
  constructor
  · rintro ⟨y, ⟨hy, -⟩, hkey⟩
    exact ⟨y, hy, hkey⟩
  · rintro ⟨y, hy, hkey⟩
    exact ⟨y, ⟨hy, hkey ▸ hne⟩, hkey⟩

/-- One more entry at the end is kept if its key is new. -/
theorem firsts_concat (l : List α) (x : α) :
    firsts key (l ++ [x]) = if key x ∈ l.map key then firsts key l else firsts key l ++ [x] := by
  -- The front takes entries out of the rest, so the induction is on the length.
  induction hlength : l.length using Nat.strongRecOn generalizing l with
  | ind n ih =>
      cases l with
      | nil => rfl
      | cons a l =>
          have hshorter : (l.filter fun y => key y ≠ key a).length < n := by
            have hle := List.length_filter_le (fun y => decide (key y ≠ key a)) l
            rw [List.length_cons] at hlength
            omega
          rw [List.cons_append, firsts_cons, firsts_cons, List.filter_append, List.map_cons]
          by_cases hsame : key x = key a
          · have hnone : [x].filter (fun y => key y ≠ key a) = [] :=
              List.filter_eq_nil_iff.mpr fun y hy hne => by
                rw [List.mem_singleton.mp hy] at hne
                exact of_decide_eq_true hne hsame
            rw [hnone, List.append_nil, if_pos (List.mem_cons.mpr (Or.inl hsame))]
          · have hone : [x].filter (fun y => key y ≠ key a) = [x] :=
              List.filter_eq_self.mpr fun y hy => by
                rw [List.mem_singleton.mp hy]
                exact decide_eq_true hsame
            have hkeys := mem_map_filter_ne key (l := l) hsame
            rw [hone, ih _ hshorter _ rfl]
            by_cases hseen : key x ∈ l.map key
            · rw [if_pos (hkeys.mpr hseen), if_pos (List.mem_cons_of_mem _ hseen)]
            · have hnew : key x ∉ key a :: l.map key := fun h =>
                (List.mem_cons.mp h).elim hsame hseen
              rw [if_neg (mt hkeys.mp hseen), if_neg hnew, List.cons_append]

/-- No key is lost. -/
theorem mem_map_firsts {l : List α} {k : κ} : k ∈ (firsts key l).map key ↔ k ∈ l.map key := by
  induction l using List.reverseRecOn with
  | nil => rfl
  | append_singleton l x ih =>
      rw [firsts_concat, List.map_append, List.mem_append, List.map_singleton, List.mem_singleton]
      by_cases hseen : key x ∈ l.map key
      · rw [if_pos hseen, ih]
        constructor
        · exact Or.inl
        · rintro (hk | rfl)
          · exact hk
          · exact hseen
      · rw [if_neg hseen, List.map_append, List.mem_append, ih, List.map_singleton,
          List.mem_singleton]

theorem firsts_eq_nil_iff {l : List α} : firsts key l = [] ↔ l = [] := by
  constructor
  · intro h
    have hkeys := List.eq_nil_iff_forall_not_mem.mpr fun k hk => by
      have hfirst := (mem_map_firsts key (l := l)).mpr hk
      rw [h] at hfirst
      exact nomatch hfirst
    exact List.map_eq_nil_iff.mp hkeys
  · rintro rfl
    rfl

/-- The order is kept. -/
theorem firsts_sublist (l : List α) : (firsts key l).Sublist l := by
  induction l using List.reverseRecOn with
  | nil => exact List.Sublist.slnil
  | append_singleton l x ih =>
      rw [firsts_concat]
      split
      · exact ih.trans (List.sublist_append_left l [x])
      · exact ih.append_right [x]

/-- No key occurs twice. -/
theorem nodup_map_firsts (l : List α) : ((firsts key l).map key).Nodup := by
  induction l using List.reverseRecOn with
  | nil => exact List.nodup_nil
  | append_singleton l x ih =>
      rw [firsts_concat]
      split
      · exact ih
      -- A key is added only where it is new.
      · next hnew =>
          rw [List.map_append, List.map_singleton, ← List.concat_eq_append]
          exact ih.concat fun hseen => hnew ((mem_map_firsts key).mp hseen)

/-- What is kept is what comes before all others with its key. -/
theorem mem_firsts_iff {l : List α} {x : α} :
    x ∈ firsts key l ↔ ∃ before after, l = before ++ x :: after ∧ key x ∉ before.map key := by
  induction l using List.reverseRecOn with
  | nil =>
      constructor
      · exact fun h => nomatch h
      · rintro ⟨before, after, h, -⟩
        exact absurd h (by simp only [List.nil_eq, List.append_eq_nil_iff, reduceCtorEq, and_false,
          not_false_eq_true])
  | append_singleton l y ih =>
      rw [firsts_concat]
      constructor
      · intro h
        by_cases hseen : key y ∈ l.map key
        -- The last entry is left out, so the entry is one of those before.
        · rw [if_pos hseen] at h
          rcases ih.mp h with ⟨before, after, rfl, hnew⟩
          exact ⟨before, after ++ [y], by rw [List.append_assoc, List.cons_append], hnew⟩
        · rw [if_neg hseen] at h
          rcases List.mem_append.mp h with h | h
          · rcases ih.mp h with ⟨before, after, rfl, hnew⟩
            exact ⟨before, after ++ [y], by rw [List.append_assoc, List.cons_append], hnew⟩
          -- The entry is the last one, and its key is new.
          · obtain rfl := List.mem_singleton.mp h
            exact ⟨l, [], rfl, hseen⟩
      · rintro ⟨before, after, hsplit, hnew⟩
        -- The entry is the last one, or one of those before.
        rcases List.eq_nil_or_concat after with rfl | ⟨after, z, rfl⟩
        · rcases List.append_inj' hsplit rfl with ⟨rfl, hlast⟩
          obtain rfl : y = x := (List.cons.inj hlast).1
          rw [if_neg hnew]
          exact List.mem_append_right _ (List.mem_singleton_self y)
        · rw [List.concat_eq_append, ← List.cons_append, ← List.append_assoc] at hsplit
          rcases List.append_inj' hsplit rfl with ⟨hl, -⟩
          have hkept := ih.mpr ⟨before, after, hl, hnew⟩
          split
          · exact hkept
          · exact List.mem_append_left _ hkept

end Wire
