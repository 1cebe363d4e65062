import P2CTools.Source.Text

/-!
# Canonical Domains

The one spelling of a DNS name the program works with, from `domain.py`.

`isCanonicalDomain` is the check as the program runs it: encode, bound the
length, split at the dots, look at every label. `CanonicalDomain` says what it
is for. A canonical domain is a list of labels joined by dots, each label made
of lower-case letters, digits and inner hyphens. The two agree, and since no
label contains a dot the labels are the ones splitting finds.

## Main definitions

* `isCanonicalDomain`: The program's check.
* `ValidLabel`: What a label may be.
* `CanonicalDomain`: Labels joined by dots.

## Theorems

* `isCanonicalDomain_iff`: The check accepts the canonical domains.
* `CanonicalDomain.encode`: A canonical domain is ASCII text.
-/

namespace P2CTools

open Wire

/-- The checks on one label. -/
def validLabel (label : Bytes) : Bool :=
  decide (1 ≤ label.length ∧ label.length ≤ 63) && label.head? != some 45 &&
    label.getLast? != some 45 &&
    label.all fun value => decide (97 ≤ value.toNat ∧ value.toNat ≤ 122) ||
      decide (48 ≤ value.toNat ∧ value.toNat ≤ 57) || value == 45

/-- Lower-case ASCII of at most 253 bytes, in valid labels, without a dot at
    the end. -/
def isCanonicalDomain (domain : Str) : Bool :=
  match encodeAscii domain with
  | .error _ => false
  | .ok encoded =>
      if encoded = [] ∨ encoded.length > 253 ∨ encoded.getLast? = some 46 then false
      else (encoded.splitOn 46).all validLabel

/-- A label: between 1 and 63 lower-case letters, digits and hyphens, with no
    hyphen at either end. -/
structure ValidLabel (label : Bytes) : Prop where
  length_pos : 1 ≤ label.length
  length_le : label.length ≤ 63
  head_ne : label.head? ≠ some 45
  last_ne : label.getLast? ≠ some 45
  charset : ∀ x ∈ label,
    (97 ≤ x.toNat ∧ x.toNat ≤ 122) ∨ (48 ≤ x.toNat ∧ x.toNat ≤ 57) ∨ x.toNat = 45

/-- Labels joined by dots, at most 253 characters in all. -/
def CanonicalDomain (domain : Str) : Prop :=
  ∃ labels : List Bytes, labels ≠ [] ∧ (∀ label ∈ labels, ValidLabel label) ∧
    ([46].intercalate labels).length ≤ 253 ∧ domain = decodeAscii ([46].intercalate labels)

theorem validLabel_iff (label : Bytes) : validLabel label = true ↔ ValidLabel label := by
  -- The check compares bytes, the statement their numbers.
  have hhyphen : ∀ x : UInt8, x = 45 ↔ x.toNat = 45 := by
    intro x
    rw [← UInt8.toNat_inj]
    rfl
  unfold validLabel
  simp only [Bool.and_eq_true, decide_eq_true_eq, bne_iff_ne, List.all_eq_true, Bool.or_eq_true,
    beq_iff_eq, hhyphen]
  constructor
  · rintro ⟨⟨⟨⟨hpos, hle⟩, hhead⟩, hlast⟩, hchars⟩
    refine ⟨hpos, hle, hhead, hlast, fun x hx => ?_⟩
    have hc := hchars x hx
    omega
  · rintro ⟨hpos, hle, hhead, hlast, hchars⟩
    refine ⟨⟨⟨⟨hpos, hle⟩, hhead⟩, hlast⟩, fun x hx => ?_⟩
    have hc := hchars x hx
    omega

theorem ValidLabel.not_dot {label : Bytes} (h : ValidLabel label) : (46 : UInt8) ∉ label := by
  intro hdot
  have hc := h.charset 46 hdot
  simp only [UInt8.reduceToNat] at hc
  omega

theorem ValidLabel.lt {label : Bytes} (h : ValidLabel label) : ∀ x ∈ label, x.toNat < 128 := by
  intro x hx
  have hc := h.charset x hx
  omega

theorem mem_intercalate (labels : List Bytes) (x : UInt8)
    (hx : x ∈ [46].intercalate labels) : x = 46 ∨ ∃ label ∈ labels, x ∈ label := by
  induction labels with
  | nil => exact absurd hx List.not_mem_nil
  | cons l labels ih =>
      cases labels with
      | nil =>
          rw [List.intercalate_singleton] at hx
          exact Or.inr ⟨l, List.mem_cons_self, hx⟩
      | cons m labels =>
          -- A byte is in the first label, is the dot, or is behind it.
          rw [List.intercalate_cons_cons, List.mem_append, List.mem_append] at hx
          rcases hx with (hx | hx) | hx
          · exact Or.inr ⟨l, List.mem_cons_self, hx⟩
          · exact Or.inl (List.mem_singleton.mp hx)
          · rcases ih hx with h | ⟨label, hl, h⟩
            · exact Or.inl h
            · exact Or.inr ⟨label, List.mem_cons_of_mem _ hl, h⟩

/-- The labels of a canonical domain leave neither an empty text nor a dot at
    its end. -/
theorem intercalate_ends (labels : List Bytes) (hne : labels ≠ [])
    (hl : ∀ label ∈ labels, ValidLabel label) :
    [46].intercalate labels ≠ [] ∧ ([46].intercalate labels).getLast? ≠ some 46 := by
  induction labels with
  | nil => exact absurd rfl hne
  | cons l labels ih =>
      have hvl := hl l List.mem_cons_self
      cases labels with
      | nil =>
          rw [List.intercalate_singleton]
          refine ⟨List.length_pos_iff.mp hvl.length_pos, fun hlast => ?_⟩
          exact hvl.not_dot (List.mem_of_getLast? hlast)
      | cons m labels =>
          -- The end is that of the labels behind the dot.
          rcases ih (List.cons_ne_nil m labels) fun label hm => hl label (List.mem_cons_of_mem _ hm)
            with ⟨hrest, hlast⟩
          rw [List.intercalate_cons_cons]
          refine ⟨fun h => hrest (List.append_eq_nil_iff.mp h).2, ?_⟩
          rw [List.getLast?_append, Option.or_of_isSome (List.getLast?_isSome.mpr hrest)]
          exact hlast

/-- The program's check accepts the canonical domains and nothing else. -/
theorem isCanonicalDomain_iff (domain : Str) :
    isCanonicalDomain domain = true ↔ CanonicalDomain domain := by
  unfold isCanonicalDomain CanonicalDomain
  constructor
  · intro h
    cases henc : encodeAscii domain with
    | error e =>
        rw [henc] at h
        exact nomatch h
    | ok encoded =>
        rw [henc] at h
        simp only at h
        by_cases hbad : encoded = [] ∨ encoded.length > 253 ∨ encoded.getLast? = some 46
        · rw [if_pos hbad] at h
          exact nomatch h
        · rw [if_neg hbad, List.all_eq_true] at h
          push Not at hbad
          -- The labels are what the dots separate.
          refine ⟨encoded.splitOn 46, List.splitOn_ne_nil 46 encoded, ?_, ?_, ?_⟩
          · exact fun label hm => (validLabel_iff label).mp (h label hm)
          · rw [List.intercalate_splitOn]
            exact hbad.2.1
          · rw [List.intercalate_splitOn]
            exact ((encodeAscii_eq_ok_iff domain encoded).mp henc).2
  · rintro ⟨labels, hne, hl, hlen, rfl⟩
    -- Labels and dots are ASCII, and no label has a dot of its own.
    have hascii : ∀ x ∈ [46].intercalate labels, x.toNat < 128 := by
      intro x hx
      rcases mem_intercalate labels x hx with rfl | ⟨label, hm, hx⟩
      · decide
      · exact (hl label hm).lt x hx
    rw [(encodeAscii_eq_ok_iff _ _).mpr ⟨hascii, rfl⟩]
    rcases intercalate_ends labels hne hl with ⟨hnil, hlast⟩
    simp only
    rw [if_neg (by push Not; exact ⟨hnil, hlen, hlast⟩),
      List.splitOn_intercalate 46 (fun label hm => (hl label hm).not_dot) hne, List.all_eq_true]
    exact fun label hm => (validLabel_iff label).mpr (hl label hm)

/-- A canonical domain is ASCII text of between 1 and 253 characters. -/
theorem CanonicalDomain.encode {domain : Str} (h : CanonicalDomain domain) :
    ∃ encoded, encodeAscii domain = .ok encoded ∧ 1 ≤ encoded.length ∧ encoded.length ≤ 253 := by
  have hcheck := (isCanonicalDomain_iff domain).mpr h
  unfold isCanonicalDomain at hcheck
  cases henc : encodeAscii domain with
  | error e =>
      rw [henc] at hcheck
      exact nomatch hcheck
  | ok encoded =>
      rw [henc] at hcheck
      simp only at hcheck
      by_cases hbad : encoded = [] ∨ encoded.length > 253 ∨ encoded.getLast? = some 46
      · rw [if_pos hbad] at hcheck
        exact nomatch hcheck
      · push Not at hbad
        exact ⟨encoded, rfl, List.length_pos_iff.mpr hbad.1, hbad.2.1⟩

example : isCanonicalDomain (Str.ofString "xn--a.example") = true := by decide

end P2CTools
