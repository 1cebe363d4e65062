import Mathlib.Data.Nat.Bitwise
import P2CTools.Wire.Tlv
import P2CTools.Source.Der

/-!
# Elements

What `_der_elements` reads: the concatenations of minimal encodings, each in
one way.

The statement is built from the inside out. A length is read exactly when its
minimal form is in front, an element exactly when its encoding is in front,
and the loop then takes encodings off until nothing is left. Each of the three
is one equivalence, and it says what is behind as well, so the next one needs
nothing but it. A round trip, the uniqueness of the input behind an answer and
the refusal of everything else are read off the last of them.

The program keeps a length in at most four bytes, so an element it reads is
shorter than `2 ^ 32` bytes. Only the length is bounded: the number of
elements is not.

## Main definitions

* `Encodable`: An element with a low tag and a length of at most four bytes.
* `Complete`: A byte string made up of elements.

## Theorems

* `derLength_eq_ok_iff`: Which length bytes are read.
* `derElement_eq_ok_iff`: Which element is read.
* `derElements_eq_ok_iff`: The elements of a byte string.
* `derElements_canonical`: The reader inverts the encoding and refuses
  everything else.
* `derSingle_eq_ok_iff`: The one element of a byte string.
-/

namespace P2CTools

open Wire

namespace Der

/-- An element whose tag is one byte. -/
def LowTag (x : Element) : Prop :=
  x.1 &&& 0x1F ≠ 0x1F

/-- An element whose tag is one byte and whose length is at most four. -/
def Encodable (x : Element) : Prop :=
  LowTag x ∧ x.2.length < 2 ^ 32

/-- A byte string made up of the encodings of elements of a kind. -/
def Complete (P : Element → Prop) (encoded : Bytes) (xs : List Element) : Prop :=
  (∀ x ∈ xs, P x) ∧ encoded = xs.flatMap tlv

theorem low_seven (x : UInt8) : (x &&& 0x7F).toNat = x.toNat % 128 := by
  rw [UInt8.toNat_and]
  exact Nat.and_two_pow_sub_one_eq_mod x.toNat 7

theorem top_bit (x : UInt8) : x &&& 0x80 ≠ 0 ↔ 128 ≤ x.toNat := by
  have hlt := x.toNat_lt
  have hand : (x &&& 0x80).toNat = (x.toNat.testBit 7).toNat * 128 := by
    rw [UInt8.toNat_and]
    exact Nat.and_two_pow x.toNat 7
  rw [Nat.testBit_eq_decide_div_mod_eq] at hand
  rw [ne_eq, ← UInt8.toNat_inj, hand, UInt8.toNat_zero]
  by_cases h : 128 ≤ x.toNat
  · have hbit : x.toNat / 2 ^ 7 % 2 = 1 := by omega
    simp only [hbit, decide_true, Bool.toNat_true, h, Nat.one_mul, OfNat.ofNat_ne_zero,
      not_false_eq_true]
  · have hbit : ¬x.toNat / 2 ^ 7 % 2 = 1 := by omega
    simp only [hbit, decide_false, Bool.toNat_false, h, Nat.zero_mul, not_true_eq_false]

/-- The long form is read when its bytes are all there, do not begin with a
    zero and denote a length the short form cannot. -/
theorem derLength_long_iff (length : UInt8) (rest rest' : Bytes) (size : Nat)
    (hlong : 128 ≤ length.toNat) :
    derLength length rest = .ok (size, rest') ↔
      128 ≤ size ∧ size < 2 ^ 32 ∧ length = UInt8.ofNat (128 + width size) ∧
        rest = shortest size ++ rest' := by
  have hlt := length.toNat_lt
  unfold derLength
  rw [if_pos ((top_bit length).mpr hlong)]
  simp only [bind_eq_ok_iff, failIf_eq_ok_iff, getIndex_eq_ok_iff, pure_eq_ok_iff, Prod.mk.injEq,
    low_seven, exists_const]
  constructor
  · rintro ⟨hcount, first, hfirst, hnumber, rfl, rfl⟩
    push Not at hcount hnumber
    rcases hcount with ⟨hpos, hfour, hthere⟩
    -- The length bytes begin with a byte that is not zero, so they are minimal.
    have hlen : (rest.take (length.toNat % 128)).length = length.toNat % 128 :=
      List.length_take_of_le hthere
    have hbelow := beNat_lt (rest.take (length.toNat % 128))
    rw [hlen] at hbelow
    have hminimal : shortest (beNat (rest.take (length.toNat % 128))) =
        rest.take (length.toNat % 128) := by
      cases htake : rest.take (length.toNat % 128) with
      | nil =>
          rw [htake] at hfirst
          exact absurd hfirst (by simp only [List.getElem?_nil, reduceCtorEq, not_false_eq_true])
      | cons x t =>
          rw [htake, List.getElem?_cons_zero, Option.some.injEq] at hfirst
          exact shortest_beNat x t (hfirst ▸ hnumber.1)
    have hwidth : width (beNat (rest.take (length.toNat % 128))) = length.toNat % 128 := by
      rw [← length_shortest, hminimal, hlen]
    refine ⟨hnumber.2, ?_, ?_, ?_⟩
    · calc beNat (rest.take (length.toNat % 128)) < 256 ^ (length.toNat % 128) := hbelow
        _ ≤ 256 ^ 4 := Nat.pow_le_pow_right (by decide) hfour
        _ = 2 ^ 32 := by norm_num
    · rw [hwidth]
      apply UInt8.toNat_inj.mp
      rw [UInt8.toNat_ofNat']
      omega
    · rw [hminimal, List.take_append_drop]
  · rintro ⟨hle, hsize, rfl, rfl⟩
    have hfour : width size ≤ 4 := (width_le_iff 4 size).mpr hsize
    have hpos : 0 < width size := width_pos size (by omega)
    have hcount : (UInt8.ofNat (128 + width size)).toNat % 128 = width size := by
      rw [UInt8.toNat_ofNat']
      omega
    have htake : (shortest size ++ rest').take (width size) = shortest size := by
      rw [← length_shortest, List.take_left]
    have hdrop : (shortest size ++ rest').drop (width size) = rest' := by
      rw [← length_shortest, List.drop_left]
    rw [hcount, htake, hdrop, beNat_shortest, List.length_append, length_shortest]
    cases hshort : shortest size with
    | nil =>
        rw [← length_shortest, hshort, List.length_nil] at hpos
        omega
    | cons x t =>
        refine ⟨by omega, x, List.getElem?_cons_zero, ?_, rfl, rfl⟩
        rintro (hzero | hsmall)
        · exact shortest_head size x t hshort hzero
        · omega

/-- A length is read exactly when its minimal form is in front. -/
theorem derLength_eq_ok_iff (length : UInt8) (rest rest' : Bytes) (size : Nat) :
    derLength length rest = .ok (size, rest') ↔
      size < 2 ^ 32 ∧ length :: rest = definite size ++ rest' := by
  by_cases hlong : 128 ≤ length.toNat
  · rw [derLength_long_iff _ _ _ _ hlong]
    constructor
    · rintro ⟨hle, hsize, hlength, hrest⟩
      rw [definite_of_le size hle, List.cons_append, ← hlength, ← hrest]
      exact ⟨hsize, rfl⟩
    · rintro ⟨hsize, h⟩
      rcases Nat.lt_or_ge size 128 with hshort | hle
      · -- A short form does not have the top bit.
        rw [definite_of_lt size hshort] at h
        rw [(List.cons.inj h).1, UInt8.toNat_ofNat'] at hlong
        omega
      · rw [definite_of_le size hle] at h
        exact ⟨hle, hsize, List.cons.inj h⟩
  · unfold derLength
    rw [if_neg fun h => hlong ((top_bit length).mp h), pure_eq_ok_iff, Prod.mk.injEq]
    constructor
    · rintro ⟨rfl, rfl⟩
      -- Without the top bit the byte is the length.
      rw [definite_of_lt length.toNat (by omega), UInt8.ofNat_toNat]
      exact ⟨by omega, rfl⟩
    · rintro ⟨hsize, h⟩
      rcases Nat.lt_or_ge size 128 with hshort | hle
      · rw [definite_of_lt size hshort] at h
        rcases List.cons.inj h with ⟨rfl, rfl⟩
        rw [UInt8.toNat_ofNat']
        exact ⟨by omega, rfl⟩
      · -- A long form does, since at most four bytes follow it.
        have hfour : width size ≤ 4 := (width_le_iff 4 size).mpr hsize
        rw [definite_of_le size hle] at h
        rw [(List.cons.inj h).1, UInt8.toNat_ofNat'] at hlong
        omega

/-- An element is read exactly when its encoding is in front. -/
theorem derElement_eq_ok_iff (encoded rest : Bytes) (x : Element) :
    derElement encoded = .ok (x, rest) ↔ Encodable x ∧ encoded = tlv x ++ rest := by
  match encoded with
  | [] =>
      constructor
      · intro h
        exact absurd h (error_ne_ok _ _)
      · rintro ⟨-, h⟩
        exact absurd h.symm (List.cons_ne_nil _ _)
  | [y] =>
      constructor
      · intro h
        exact absurd h (error_ne_ok _ _)
      · rintro ⟨-, h⟩
        have hlen := congrArg List.length h
        have htwo := length_tlv x
        rw [List.length_append, List.length_singleton] at hlen
        omega
  | tag :: length :: t =>
      simp only [derElement, bind_eq_ok_iff, failIf_eq_ok_iff, pure_eq_ok_iff, Prod.exists,
        derLength_eq_ok_iff, exists_const]
      constructor
      · rintro ⟨htag, size, t', ⟨hsize, ht⟩, hfits, heq⟩
        -- The value is there in full, so it is as long as announced.
        rcases Prod.mk.inj heq with ⟨rfl, rfl⟩
        have hlen : (t'.take size).length = size := List.length_take_of_le (Nat.not_lt.mp hfits)
        refine ⟨⟨htag, by rw [hlen]; exact hsize⟩, ?_⟩
        rw [tlv, hlen, ht, List.cons_append, List.append_assoc, List.take_append_drop]
      · rintro ⟨⟨htag, hsize⟩, h⟩
        rw [tlv, List.cons_append, List.append_assoc] at h
        rcases List.cons.inj h with ⟨rfl, ht⟩
        -- The length in front is read as that of the value behind it.
        refine ⟨htag, x.2.length, x.2 ++ rest, ⟨hsize, ht⟩, ?_, ?_⟩
        · rw [List.length_append]
          omega
        · rw [List.take_left, List.drop_left]

/-- The loop appends to what it has read the elements whose encodings make up
    the bytes not read yet. -/
theorem derLoop_eq_ok_iff (fuel : Nat) (encoded : Bytes) (elements xs : List Element)
    (hfuel : encoded.length < fuel) :
    derLoop fuel encoded elements = .ok xs ↔
      ∃ ys, xs = elements ++ ys ∧ (∀ y ∈ ys, Encodable y) ∧ encoded = ys.flatMap tlv := by
  induction fuel generalizing encoded elements with
  | zero => omega
  | succ fuel ih =>
      rw [derLoop]
      by_cases hnil : encoded = []
      · subst hnil
        rw [if_pos rfl]
        constructor
        · intro h
          refine ⟨[], ?_, fun y hy => absurd hy List.not_mem_nil, rfl⟩
          rw [Except.ok.inj h, List.append_nil]
        · rintro ⟨ys, rfl, -, h⟩
          cases ys with
          | nil => rw [List.append_nil]
          | cons y ys =>
              rw [List.flatMap_cons] at h
              exact absurd h.symm (List.cons_ne_nil _ _)
      · rw [if_neg hnil, bind_eq_ok_iff]
        constructor
        · rintro ⟨⟨y, rest⟩, hy, h⟩
          -- The first element is read, and the rest is shorter.
          have hlt := derElement_rest encoded rest y hy
          rcases (derElement_eq_ok_iff _ _ _).mp hy with ⟨hable, hencoded⟩
          rcases (ih rest _ (by omega)).mp h with ⟨ys, hxs, hys, hrest⟩
          refine ⟨y :: ys, ?_, ?_, ?_⟩
          · rw [hxs, List.append_assoc, List.singleton_append]
          · intro z hz
            rcases List.mem_cons.mp hz with rfl | hz
            · exact hable
            · exact hys z hz
          · rw [hencoded, hrest, List.flatMap_cons]
        · rintro ⟨ys, hxs, hys, hencoded⟩
          cases ys with
          | nil => exact absurd hencoded hnil
          | cons y ys =>
              -- The encoding in front is that of the first element.
              have hy : derElement encoded = .ok (y, ys.flatMap tlv) :=
                (derElement_eq_ok_iff _ _ _).mpr ⟨hys y List.mem_cons_self, hencoded⟩
              have hlt := derElement_rest encoded _ y hy
              refine ⟨(y, ys.flatMap tlv), hy, (ih _ _ (by omega)).mpr ⟨ys, ?_, ?_, rfl⟩⟩
              · rw [hxs, List.append_assoc, List.singleton_append]
              · exact fun z hz => hys z (List.mem_cons_of_mem y hz)

/-- The elements of a byte string are those whose encodings make it up. -/
theorem derElements_eq_ok_iff (encoded : Bytes) (xs : List Element) :
    derElements encoded = .ok xs ↔ Complete Encodable encoded xs := by
  rw [derElements, derLoop_eq_ok_iff _ _ _ _ (Nat.lt_succ_self _)]
  simp only [List.nil_append, exists_eq_left', Complete]

/-- What is not made up of encodings ends in a `ValueError`. -/
theorem derElements_refuses (encoded : Bytes)
    (h : ¬∃ xs, Complete Encodable encoded xs) :
    ∃ e, derElements encoded = .error e ∧ IsValueError e := by
  cases hread : derElements encoded with
  | ok xs => exact absurd ⟨xs, (derElements_eq_ok_iff _ _).mp hread⟩ h
  | error e => exact ⟨e, rfl, fails_derElements encoded e hread⟩

/-- The reader inverts the encoding of lists of elements, reads nothing that
    is not the encoding of its answer, and ends in a `ValueError` otherwise. -/
theorem derElements_canonical :
    (∀ xs : List Element, (∀ x ∈ xs, Encodable x) → derElements (xs.flatMap tlv) = .ok xs) ∧
      (∀ encoded xs, derElements encoded = .ok xs →
        (∀ x ∈ xs, Encodable x) ∧ xs.flatMap tlv = encoded) ∧
      (∀ encoded encoded' xs, derElements encoded = .ok xs → derElements encoded' = .ok xs →
        encoded = encoded') ∧
      ∀ encoded, (¬∃ xs : List Element, (∀ x ∈ xs, Encodable x) ∧ encoded = xs.flatMap tlv) →
        ∃ e, derElements encoded = .error e ∧ e.cls = .valueError := by
  have hinverse : ∀ encoded xs, derElements encoded = .ok xs →
      (∀ x ∈ xs, Encodable x) ∧ xs.flatMap tlv = encoded := by
    intro encoded xs h
    rcases (derElements_eq_ok_iff _ _).mp h with ⟨hable, hencoded⟩
    exact ⟨hable, hencoded.symm⟩
  refine ⟨fun xs hable => (derElements_eq_ok_iff _ _).mpr ⟨hable, rfl⟩, hinverse, ?_,
    derElements_refuses⟩
  intro encoded encoded' xs h h'
  rw [← (hinverse encoded xs h).2, (hinverse encoded' xs h').2]

/-- A length that fits the short form is not read in the long one. -/
example : derElements [0x04, 0x81, 0x01, 0x00] =
    .error (valueError "noncanonical DER length") := rfl

/-- The value of the one element of a byte string. -/
theorem derSingle_eq_ok_iff (encoded value : Bytes) (tag : UInt8) :
    derSingle encoded tag = .ok value ↔ Complete Encodable encoded [(tag, value)] := by
  simp only [derSingle, bind_eq_ok_iff, derElements_eq_ok_iff]
  constructor
  · rintro ⟨elements, hcomplete, h⟩
    split at h
    · simp only [bind_eq_ok_iff, failIf_eq_ok_iff, pure_eq_ok_iff, not_not, exists_const] at h
      rcases h with ⟨rfl, rfl⟩
      exact hcomplete
    · exact absurd h (error_ne_ok _ _)
  · intro hcomplete
    refine ⟨[(tag, value)], hcomplete, ?_⟩
    simp only [bind_eq_ok_iff, failIf_eq_ok_iff, pure_eq_ok_iff, not_true_eq_false, ne_eq,
      not_false_eq_true, exists_const, and_self]

end Der

end P2CTools
