import Mathlib.Data.List.Nodup

/-!
# Issued, Open and Settled

Keeping account of things that are issued one after the other and settled in
any order.

A ledger holds three lists: what has been issued, what of it is open, and what
has been settled. It is balanced when the settled and the open things together
are the issued ones, and no two issued things have the same key. That one
condition says that nothing is lost and nothing is settled twice, and both
operations keep it. Settling takes a thing out by its key; the keys are
distinct, so this takes out that thing and no other.

## Main definitions

* `Balanced`: The settled and the open things are the issued ones.

## Theorems

* `perm_cons_filter_key`: Taking a thing out by its key.
* `Balanced.issue`, `Balanced.settle`: The two operations.
* `Balanced.length_eq`: The numbers add up.
* `Balanced.nodup_settled`: Nothing is settled twice.
-/

namespace Wire

variable {α κ : Type}

/-- The settled and the open things together are the issued ones, which have
    distinct keys. -/
structure Balanced (key : α → κ) (issued opened settled : List α) : Prop where
  perm : (settled ++ opened).Perm issued
  distinct : (issued.map key).Nodup

/-- A list with distinct keys is any one of its things and those with another
    key. -/
theorem perm_cons_filter_key [DecidableEq κ] (key : α → κ) {l : List α} (h : (l.map key).Nodup)
    {x : α} (hx : x ∈ l) : l.Perm (x :: l.filter fun y => key y ≠ key x) := by
  induction l with
  | nil => exact absurd hx List.not_mem_nil
  | cons y l ih =>
      rw [List.map_cons, List.nodup_cons] at h
      rcases List.mem_cons.mp hx with rfl | hx
      -- The thing is the first, and no other has its key.
      · have hall : l.filter (fun y => key y ≠ key x) = l := by
          refine List.filter_eq_self.mpr fun z hz => decide_eq_true fun hkey => h.1 ?_
          rw [← hkey]
          exact List.mem_map_of_mem hz
        rw [List.filter_cons, if_neg (by simp), hall]
      -- The first is another one, which is kept and swapped behind.
      · have hne : key y ≠ key x := by
          intro hkey
          rw [hkey] at h
          exact h.1 (List.mem_map_of_mem hx)
        rw [List.filter_cons, if_pos (decide_eq_true hne)]
        exact ((ih h.2 hx).cons y).trans (List.Perm.swap x y _)

namespace Balanced

variable {key : α → κ} {issued opened settled : List α}

theorem nil (key : α → κ) : Balanced key [] [] [] :=
  ⟨List.Perm.nil, List.nodup_nil⟩

/-- Issuing a thing with a new key opens it. -/
theorem issue (h : Balanced key issued opened settled) {x : α} (hx : key x ∉ issued.map key) :
    Balanced key (issued ++ [x]) (opened ++ [x]) settled where
  perm := by
    rw [← List.append_assoc]
    exact h.perm.append_right [x]
  distinct := by
    rw [List.map_append, List.map_singleton, ← List.concat_eq_append]
    exact h.distinct.concat hx

theorem distinct_all (h : Balanced key issued opened settled) :
    ((settled ++ opened).map key).Nodup :=
  (h.perm.map key).nodup_iff.mpr h.distinct

theorem distinct_opened (h : Balanced key issued opened settled) : (opened.map key).Nodup := by
  have hall := h.distinct_all
  rw [List.map_append] at hall
  exact hall.of_append_right

/-- Settling an open thing takes it out and no other. -/
theorem settle [DecidableEq κ] (h : Balanced key issued opened settled) {x : α}
    (hx : x ∈ opened) :
    Balanced key issued (opened.filter fun y => key y ≠ key x) (settled ++ [x]) where
  perm := by
    rw [List.append_assoc]
    exact (((perm_cons_filter_key key h.distinct_opened hx).symm).append_left settled).trans h.perm
  distinct := h.distinct

/-- What is settled and what is open adds up to what was issued. -/
theorem length_eq (h : Balanced key issued opened settled) :
    settled.length + opened.length = issued.length := by
  rw [← List.length_append]
  exact h.perm.length_eq

/-- Nothing is settled twice. -/
theorem nodup_settled (h : Balanced key issued opened settled) : (settled.map key).Nodup := by
  have hall := h.distinct_all
  rw [List.map_append] at hall
  exact hall.of_append_left

end Balanced

end Wire
