import Mathlib.Computability.RegularExpressions

/-!
# Patterns of Symbols

The languages of patterns that are built from one class of symbols.

A class accepts the words of one symbol that belongs to it. Repeating it a
fixed number of times accepts the words of that length, and repeating such a
group any number of times accepts the words whose length the group divides,
with all their symbols in the class. The words are cut from the front, one
group at a time.

## Main definitions

* `IsClass`: A language of single symbols.

## Theorems

* `isClass_sum`: A sum of symbols is a class.
* `IsClass.mem_pow_iff`: A class a fixed number of times.
* `IsClass.mem_kstar_iff`: A group of the class any number of times.
-/

namespace Wire

open Computability

variable {τ : Type}

/-- The language of the single symbols that satisfy a condition. -/
def IsClass (l : Language τ) (p : τ → Prop) : Prop :=
  ∀ x, x ∈ l ↔ ∃ c, p c ∧ x = [c]

/-- A sum of symbols is the class of its symbols. -/
theorem isClass_sum (members : List τ) :
    IsClass (members.foldr (fun c rest => RegularExpression.char c + rest) 0).matches'
      (· ∈ members) := by
  intro x
  induction members with
  | nil =>
      rw [List.foldr_nil, RegularExpression.matches'_zero]
      simp only [Language.notMem_zero, List.not_mem_nil, false_and, exists_false]
  | cons c members ih =>
      rw [List.foldr_cons, RegularExpression.matches'_add, Language.mem_add, ih,
        RegularExpression.matches'_char]
      constructor
      · rintro (h | ⟨d, hd, hx⟩)
        · exact ⟨c, List.mem_cons_self, h⟩
        · exact ⟨d, List.mem_cons_of_mem c hd, hx⟩
      · rintro ⟨d, hd, hx⟩
        rcases List.mem_cons.mp hd with rfl | hd
        · exact Or.inl hx
        · exact Or.inr ⟨d, hd, hx⟩

section Classes

variable {l : Language τ} {p : τ → Prop}

/-- A class repeated a fixed number of times: the words of that length. -/
theorem IsClass.mem_pow_iff (h : IsClass l p) (n : Nat) (x : List τ) :
    x ∈ l ^ n ↔ x.length = n ∧ ∀ c ∈ x, p c := by
  induction n generalizing x with
  | zero =>
      rw [pow_zero, Language.mem_one, List.length_eq_zero_iff]
      constructor
      · rintro rfl
        exact ⟨rfl, fun c hc => nomatch hc⟩
      · exact fun hx => hx.1
  | succ n ih =>
      rw [pow_succ', Language.mem_mul]
      constructor
      -- The word is one symbol of the class and a shorter word.
      · rintro ⟨a, ha, b, hb, rfl⟩
        rcases (h a).mp ha with ⟨c, hc, rfl⟩
        rcases (ih b).mp hb with ⟨hlen, hall⟩
        refine ⟨by rw [List.singleton_append, List.length_cons, hlen], fun d hd => ?_⟩
        rcases List.mem_cons.mp hd with rfl | hd
        · exact hc
        · exact hall d hd
      · rintro ⟨hlen, hall⟩
        match x with
        | c :: rest =>
            have hrest : rest.length = n := Nat.succ.inj hlen
            exact ⟨[c], (h [c]).mpr ⟨c, hall c List.mem_cons_self, rfl⟩, rest,
              (ih rest).mpr ⟨hrest, fun d hd => hall d (List.mem_cons_of_mem c hd)⟩, rfl⟩

/-- Groups of a class, any number of them: the words that they divide. -/
theorem IsClass.mem_kstar_iff (h : IsClass l p) (n : Nat) (x : List τ) :
    x ∈ (l ^ n)∗ ↔ (∃ m, x.length = n * m) ∧ ∀ c ∈ x, p c := by
  rw [Language.mem_kstar]
  constructor
  · rintro ⟨groups, rfl, hgroups⟩
    -- Each group adds its fixed number of symbols.
    induction groups with
    | nil => exact ⟨⟨0, rfl⟩, fun c hc => nomatch hc⟩
    | cons group groups ih =>
        rcases (h.mem_pow_iff n group).mp (hgroups group List.mem_cons_self) with ⟨hlen, hall⟩
        rcases ih fun y hy => hgroups y (List.mem_cons_of_mem group hy) with ⟨⟨m, hm⟩, hrest⟩
        refine ⟨⟨m + 1, ?_⟩, fun c hc => ?_⟩
        · rw [List.flatten_cons, List.length_append, hlen, hm, Nat.mul_succ, Nat.add_comm]
        · rcases List.mem_append.mp (List.flatten_cons ▸ hc) with hc | hc
          · exact hall c hc
          · exact hrest c hc
  · rintro ⟨⟨m, hm⟩, hall⟩
    -- The groups are cut off the front, one after the other.
    induction m generalizing x with
    | zero => exact ⟨[], List.eq_nil_of_length_eq_zero hm, fun y hy => nomatch hy⟩
    | succ m ih =>
        rw [Nat.mul_succ] at hm
        rcases ih (x.drop n) (fun c hc => hall c (List.mem_of_mem_drop hc))
          (by rw [List.length_drop]; omega) with ⟨groups, hgroups, hmem⟩
        refine ⟨x.take n :: groups, ?_, fun y hy => ?_⟩
        · rw [List.flatten_cons, ← hgroups, List.take_append_drop]
        · rcases List.mem_cons.mp hy with rfl | hy
          · exact (h.mem_pow_iff n _).mpr ⟨by rw [List.length_take]; omega,
              fun c hc => hall c (List.mem_of_mem_take hc)⟩
          · exact hmem y hy

end Classes

end Wire
