import P2CTools.Source.Errors
import P2CTools.Wire.Bytes
import Mathlib.Data.Fin.Basic

/-!
# Text

Strings as the program sees them, and its conversions between text and bytes.

A string is a list of code points, surrogates included, so that it can hold
everything a caller may pass. `encodeAscii` is the only encoding the program
applies to text it has not checked, and it fails outside ASCII.

`str.lower` outside ASCII is a table of the Unicode version in use. It is left
open: `Lowercase` is any such function, and all that is known of it is what it
does to ASCII text. The program only compares a string with its lower-case
form before it insists on lower-case hexadecimal digits, so that is enough.

`fromHex` follows `bytes.fromhex`: digits come in pairs, in either case, and
ASCII whitespace between pairs is skipped. On the digits that `toHex` writes
the two are inverse, which is `fromHex_toHex` and `toHex_fromHex`.

## Main definitions

* `Str`: A string.
* `encodeAscii`: `str.encode("ascii")`.
* `decodeAscii`: ASCII bytes as text.
* `Lowercase`: `str.lower`, known on ASCII.
* `isLowerHex`: A lower-case hexadecimal digit.
* `toHex`: `bytes.hex`.
* `fromHex`: `bytes.fromhex`.

## Theorems

* `encodeAscii_eq_ok_iff`: Text encodes exactly when it is ASCII.
* `encodeAscii_inj`: Distinct texts have distinct encodings.
* `fromHex_toHex`: Reading written digits gives the bytes back.
* `toHex_fromHex`: Lower-case digits in pairs are the writing of some bytes.
* `toHex_inj`: Distinct byte strings have distinct writings.
-/

namespace P2CTools

open Wire

/-- A code point, surrogates included. -/
abbrev CodePoint := Fin 0x110000

instance neZero_codePoints : NeZero 0x110000 := ⟨by decide⟩

/-- A string. -/
abbrev Str := List CodePoint

/-- The code points of a string literal. -/
def Str.ofString (s : String) : Str :=
  s.toList.map fun c => Fin.ofNat 0x110000 c.toNat

/-- The bytes of an ASCII bytes literal. -/
def asciiLiteral (s : String) : Bytes :=
  s.toList.map fun c => UInt8.ofNat c.toNat

/-- `str.encode("ascii")`. -/
def encodeAscii (s : Str) : Except PyErr Bytes :=
  if s.all fun c => decide (c.val < 128) then .ok (s.map fun c => UInt8.ofNat c.val)
  else .error ⟨.unicodeEncodeError, "'ascii' codec can't encode characters"⟩

/-- ASCII bytes as text. -/
def decodeAscii (b : Bytes) : Str :=
  b.map fun x => Fin.ofNat 0x110000 x.toNat

theorem decodeAscii_val (x : UInt8) : (Fin.ofNat 0x110000 x.toNat : CodePoint).val = x.toNat := by
  have hx := x.toNat_lt
  rw [Fin.val_ofNat]
  omega

/-- Text encodes exactly when it is ASCII, and the bytes are its code points. -/
theorem encodeAscii_eq_ok_iff (s : Str) (b : Bytes) :
    encodeAscii s = .ok b ↔ (∀ x ∈ b, x.toNat < 128) ∧ s = decodeAscii b := by
  unfold encodeAscii decodeAscii
  simp only [List.all_eq_true, decide_eq_true_eq]
  constructor
  · intro h
    by_cases hs : ∀ c ∈ s, c.val < 128
    · rw [if_pos hs] at h
      rw [← Except.ok.inj h]
      constructor
      · intro x hx
        rcases List.mem_map.mp hx with ⟨c, hc, rfl⟩
        have hlt := hs c hc
        rw [UInt8.toNat_ofNat']
        omega
      -- A code point below 128 comes back from its byte.
      · rw [List.map_map]
        conv_lhs => rw [← List.map_id s]
        refine List.map_congr_left fun c hc => ?_
        have hlt := hs c hc
        apply Fin.ext
        simp only [Function.comp_apply, id_eq]
        rw [decodeAscii_val, UInt8.toNat_ofNat']
        omega
    · rw [if_neg hs] at h
      exact nomatch h
  · rintro ⟨hb, rfl⟩
    rw [if_pos, List.map_map]
    · congr 1
      -- And a byte below 128 from its code point.
      conv_rhs => rw [← List.map_id b]
      refine List.map_congr_left fun x _ => ?_
      simp only [Function.comp_apply, decodeAscii_val, UInt8.ofNat_toNat, id_eq]
    · intro c hc
      rcases List.mem_map.mp hc with ⟨x, hx, rfl⟩
      rw [decodeAscii_val]
      exact hb x hx

theorem length_encodeAscii (s : Str) (b : Bytes) (h : encodeAscii s = .ok b) :
    b.length = s.length := by
  rw [((encodeAscii_eq_ok_iff s b).mp h).2, decodeAscii, List.length_map]

/-- Distinct texts have distinct encodings. -/
theorem encodeAscii_inj (s t : Str) (b : Bytes) (hs : encodeAscii s = .ok b)
    (ht : encodeAscii t = .ok b) : s = t := by
  rw [((encodeAscii_eq_ok_iff s b).mp hs).2, ((encodeAscii_eq_ok_iff t b).mp ht).2]

/-- The lower-case form of an ASCII code point. -/
def asciiLower (c : CodePoint) : CodePoint :=
  if 65 ≤ c.val ∧ c.val ≤ 90 then Fin.ofNat 0x110000 (c.val + 32) else c

/-- `str.lower`, known on ASCII text only. -/
structure Lowercase where
  lower : Str → Str
  lower_ascii : ∀ s : Str, (∀ c ∈ s, c.val < 128) → lower s = s.map asciiLower

/-- `str.lower` as it would be if only ASCII letters had a case. -/
def Lowercase.ascii : Lowercase where
  lower s := s.map asciiLower
  lower_ascii _ _ := rfl

/-- A lower-case hexadecimal digit, `character in "0123456789abcdef"`. -/
def isLowerHex (c : CodePoint) : Bool :=
  (Str.ofString "0123456789abcdef").contains c

theorem isLowerHex_iff (c : CodePoint) :
    isLowerHex c = true ↔ (48 ≤ c.val ∧ c.val ≤ 57) ∨ (97 ≤ c.val ∧ c.val ≤ 102) := by
  have hset : Str.ofString "0123456789abcdef"
      = [48, 49, 50, 51, 52, 53, 54, 55, 56, 57, 97, 98, 99, 100, 101, 102] := by decide
  rw [isLowerHex, hset, List.contains_iff_mem]
  simp only [List.mem_cons, List.not_mem_nil, or_false, Fin.ext_iff]
  omega

/-- Lower-case hexadecimal text is its own lower-case form. -/
theorem Lowercase.lower_of_isLowerHex (L : Lowercase) (s : Str)
    (h : ∀ c ∈ s, isLowerHex c = true) : L.lower s = s := by
  have hrange : ∀ c ∈ s, (48 ≤ c.val ∧ c.val ≤ 57) ∨ (97 ≤ c.val ∧ c.val ≤ 102) :=
    fun c hc => (isLowerHex_iff c).mp (h c hc)
  rw [L.lower_ascii s fun c hc => by have hr := hrange c hc; omega]
  conv_rhs => rw [← List.map_id s]
  refine List.map_congr_left fun c hc => ?_
  have hr := hrange c hc
  rw [asciiLower, if_neg (by omega), id_eq]

/-- The lower-case digit of a number below sixteen. -/
def hexDigit (n : Nat) : CodePoint :=
  Fin.ofNat 0x110000 (if n < 10 then 48 + n else 87 + n)

/-- The value of a hexadecimal digit in either case. -/
def hexValue (c : CodePoint) : Option Nat :=
  if 48 ≤ c.val ∧ c.val ≤ 57 then some (c.val - 48)
  else if 97 ≤ c.val ∧ c.val ≤ 102 then some (c.val - 87)
  else if 65 ≤ c.val ∧ c.val ≤ 70 then some (c.val - 55)
  else none

/-- ASCII whitespace, which `bytes.fromhex` skips. -/
def isAsciiSpace (c : CodePoint) : Bool :=
  decide (9 ≤ c.val ∧ c.val ≤ 13 ∨ c.val = 32)

/-- `bytes.hex`. -/
def toHex (b : Bytes) : Str :=
  b.flatMap fun x => [hexDigit (x.toNat / 16), hexDigit (x.toNat % 16)]

/-- `bytes.fromhex`. -/
def fromHex : Str → Except PyErr Bytes
  | [] => .ok []
  | [c] => if isAsciiSpace c then .ok [] else .error (valueError "non-hexadecimal number found")
  | c :: d :: rest =>
      if isAsciiSpace c then fromHex (d :: rest)
      else match hexValue c, hexValue d with
        | some h, some l => do
            let tail ← fromHex rest
            return UInt8.ofNat (16 * h + l) :: tail
        | _, _ => .error (valueError "non-hexadecimal number found")

theorem toHex_cons (x : UInt8) (b : Bytes) :
    toHex (x :: b) = hexDigit (x.toNat / 16) :: hexDigit (x.toNat % 16) :: toHex b := rfl

theorem length_toHex (b : Bytes) : (toHex b).length = 2 * b.length := by
  induction b with
  | nil => rfl
  | cons x b ih =>
      rw [toHex_cons, List.length_cons, List.length_cons, ih, List.length_cons]
      omega

theorem hexDigit_val (n : Nat) (h : n < 16) :
    (hexDigit n).val = if n < 10 then 48 + n else 87 + n := by
  rw [hexDigit, Fin.val_ofNat]
  by_cases hn : n < 10
  · rw [if_pos hn]
    omega
  · rw [if_neg hn]
    omega

theorem isLowerHex_hexDigit (n : Nat) (h : n < 16) : isLowerHex (hexDigit n) = true := by
  rw [isLowerHex_iff, hexDigit_val n h]
  by_cases hn : n < 10
  · rw [if_pos hn]
    omega
  · rw [if_neg hn]
    omega

theorem hexValue_hexDigit (n : Nat) (h : n < 16) : hexValue (hexDigit n) = some n := by
  have hval := hexDigit_val n h
  by_cases hn : n < 10
  · rw [if_pos hn] at hval
    rw [hexValue, if_pos (by omega)]
    congr 1
    omega
  · rw [if_neg hn] at hval
    rw [hexValue, if_neg (by omega), if_pos (by omega)]
    congr 1
    omega

theorem not_isAsciiSpace_of_isLowerHex (c : CodePoint) (h : isLowerHex c = true) :
    isAsciiSpace c = false := by
  have hr := (isLowerHex_iff c).mp h
  rw [isAsciiSpace, decide_eq_false_iff_not]
  omega

/-- Every written digit is a lower-case hexadecimal digit. -/
theorem isLowerHex_toHex (b : Bytes) : ∀ c ∈ toHex b, isLowerHex c = true := by
  induction b with
  | nil => exact fun c hc => absurd hc List.not_mem_nil
  | cons x b ih =>
      intro c hc
      have hx := x.toNat_lt
      rw [toHex_cons, List.mem_cons, List.mem_cons] at hc
      rcases hc with rfl | rfl | hc
      · exact isLowerHex_hexDigit _ (by omega)
      · exact isLowerHex_hexDigit _ (by omega)
      · exact ih c hc

/-- Reading written digits gives the bytes back. -/
theorem fromHex_toHex (b : Bytes) : fromHex (toHex b) = .ok b := by
  induction b with
  | nil => rfl
  | cons x b ih =>
      have hx := x.toNat_lt
      have hspace := not_isAsciiSpace_of_isLowerHex _
        (isLowerHex_hexDigit (x.toNat / 16) (by omega))
      rw [toHex_cons, fromHex, hspace, if_neg Bool.false_ne_true,
        hexValue_hexDigit _ (by omega), hexValue_hexDigit _ (by omega), ih]
      have hback : UInt8.ofNat (16 * (x.toNat / 16) + x.toNat % 16) = x := by
        rw [Nat.div_add_mod, UInt8.ofNat_toNat]
      simp only [hback]
      rfl

/-- The digit of a lower-case hexadecimal code point's value is that code
    point. -/
theorem exists_hexDigit (c : CodePoint) (h : isLowerHex c = true) :
    ∃ n, n < 16 ∧ c = hexDigit n := by
  rcases (isLowerHex_iff c).mp h with hr | hr
  · refine ⟨c.val - 48, by omega, Fin.ext ?_⟩
    rw [hexDigit_val _ (by omega), if_pos (by omega)]
    omega
  · refine ⟨c.val - 87, by omega, Fin.ext ?_⟩
    rw [hexDigit_val _ (by omega), if_neg (by omega)]
    omega

/-- Lower-case digits in pairs are the writing of exactly one byte string. -/
theorem toHex_fromHex : ∀ (n : Nat) (s : Str), s.length = 2 * n →
    (∀ c ∈ s, isLowerHex c = true) → ∃ b, fromHex s = .ok b ∧ toHex b = s ∧ b.length = n := by
  intro n
  induction n with
  | zero =>
      intro s hlen _
      rw [List.eq_nil_of_length_eq_zero hlen]
      exact ⟨[], rfl, rfl, rfl⟩
  | succ n ih =>
      intro s hlen hs
      match s with
      | c :: d :: rest =>
          have htail : rest.length = 2 * n := by
            simp only [List.length_cons] at hlen
            omega
          rcases ih rest htail fun e he => hs e (List.mem_cons_of_mem _ (List.mem_cons_of_mem _ he))
            with ⟨b, -, hb, hbn⟩
          -- The first two digits make the first byte.
          rcases exists_hexDigit c (hs c List.mem_cons_self) with ⟨h, hh, rfl⟩
          rcases exists_hexDigit d (hs d (List.mem_cons_of_mem _ List.mem_cons_self))
            with ⟨l, hl, rfl⟩
          have hwrite : toHex (UInt8.ofNat (16 * h + l) :: b) = hexDigit h :: hexDigit l :: rest := by
            have hdiv : (16 * h + l) % 2 ^ 8 / 16 = h := by omega
            have hmod : (16 * h + l) % 2 ^ 8 % 16 = l := by omega
            rw [toHex_cons, hb, UInt8.toNat_ofNat', hdiv, hmod]
          refine ⟨UInt8.ofNat (16 * h + l) :: b, ?_, hwrite, by rw [List.length_cons, hbn]⟩
          rw [← hwrite, fromHex_toHex]

theorem toHex_inj (a b : Bytes) (h : toHex a = toHex b) : a = b := by
  have hread := fromHex_toHex a
  rw [h, fromHex_toHex b] at hread
  exact (Except.ok.inj hread).symm

end P2CTools
