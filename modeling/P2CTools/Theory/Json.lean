import P2CTools.Source.Json
import P2CTools.Theory.RoundTrip

/-!
# JSON Documents

`json.loads` reads back what `json.dumps` wrote.

The reader looks one code point past a number before it knows that the number
has ended, so a written value is read back in front of any text that does not
go on with a digit, a point or an exponent; in a document it is followed by a
comma, a line end or nothing. Values nest, and the induction is on how deep:
the loop over the items of a container needs of its items only that each is
read back, which is what the induction gives it.

Not every value survives. A dictionary comes back with its keys in order. A
high surrogate in front of a low one comes back as the one code point that the
two stand for, and an integer that is too long is not read. `Portable` excludes
these, and strings of ASCII characters have no surrogates at all.

## Main definitions

* `Joinless`: A string that no two surrogates change.
* `Value.sorted`: A value with the keys of every dictionary in order.
* `Value.Portable`: A value that a document can carry.

## Theorems

* `scanString_jsonString`: A written string is read back.
* `scanNumber_int`: A written integer is read back.
* `scanValue_encode`: A written value is read back.
* `loads_encode`: So is a written document.
* `encode_flat`: The text of a flat dictionary.
* `loadsBack_loads`: The dictionary of an envelope is read back.
-/

namespace P2CTools

open Wire

/-! ### Strings -/

theorem hexQuad_digits {n : Nat} (h : n < 0x10000) :
    hexQuad (hexDigit (n / 4096 % 16)) (hexDigit (n / 256 % 16)) (hexDigit (n / 16 % 16))
      (hexDigit (n % 16)) = some n := by
  unfold hexQuad
  rw [hexValue_hexDigit _ (by omega), hexValue_hexDigit _ (by omega),
    hexValue_hexDigit _ (by omega), hexValue_hexDigit _ (by omega)]
  change some (((n / 4096 % 16 * 16 + n / 256 % 16) * 16 + n / 16 % 16) * 16 + n % 16) = some n
  congr 1
  omega

/-- No high surrogate stands in front of a low one. -/
def Joinless (s : Str) : Prop :=
  s.IsChain fun a b => isHighSurrogate a.val = true → isLowSurrogate b.val = false

/-- What a code point leaves for the next escape to join. -/
def pending (c : CodePoint) : Option Nat :=
  if isHighSurrogate c.val then some c.val else none

theorem ofNat_val (c : CodePoint) : (Fin.ofNat 0x110000 c.val : CodePoint) = c :=
  Fin.ext (Nat.mod_eq_of_lt c.isLt)

/-- A code point that stands for itself. -/
theorem scanString_plain (high : Option Nat) {c : CodePoint} (hquote : c.val ≠ 34)
    (hcontrol : ¬c.val < 32) (hescape : c.val ≠ 92) (text : Str) :
    scanString high (c :: text) = (do
      let (tail, rest) ← scanString none text
      return (alone high ++ c :: tail, rest)) := by
  rw [scanString.eq_def]
  simp only [if_neg hquote, if_neg hcontrol, if_pos hescape]

/-- An escape of two characters. -/
theorem scanString_simple (high : Option Nat) {b d e : CodePoint} (hb : b.val = 92)
    (hd : d.val ≠ 117) (he : simpleEscape d = some e) (text : Str) :
    scanString high (b :: d :: text) = (do
      let (tail, rest) ← scanString none text
      return (alone high ++ e :: tail, rest)) := by
  have hquote : b.val ≠ 34 := by omega
  have hcontrol : ¬b.val < 32 := by omega
  rw [scanString.eq_def]
  simp only [if_neg hquote, if_neg hcontrol, if_neg (not_not_intro hb), if_neg hd, he]

/-- What follows an escape of four digits, which is not the end of the text. -/
theorem scanString_unicode (high : Option Nat) {n : Nat} (hn : n < 0x10000) {text : Str}
    (htext : text ≠ []) :
    scanString high (unicodeEscape n ++ text) =
      if isHighSurrogate n then do
        let (tail, rest) ← scanString (some n) text
        return (alone high ++ tail, rest)
      else if isLowSurrogate n ∧ high.isSome then do
        let (tail, rest) ← scanString none text
        return (Fin.ofNat 0x110000 (joinSurrogates (high.getD 0) n) :: tail, rest)
      else do
        let (tail, rest) ← scanString none text
        return (alone high ++ Fin.ofNat 0x110000 n :: tail, rest) := by
  have hmark : Str.ofString "\\u" = [92, 117] := by decide
  rw [unicodeEscape, hmark]
  simp only [List.cons_append, List.nil_append]
  rw [scanString.eq_def]
  simp only [hexQuad_digits hn, if_neg htext]
  rw [if_neg (by decide), if_neg (by decide), if_neg (by decide), if_pos (by decide)]

theorem ne_nil_of_scanString {high : Option Nat} {text : Str} {found : Str × Str}
    (h : scanString high text = .ok found) : text ≠ [] := by
  intro hnil
  rw [hnil, scanString.eq_def] at h
  exact error_ne_ok _ _ h

/-- A code point of the basic plane that is written in hexadecimal. -/
theorem scanString_basic {high : Option Nat} {c : CodePoint} {text s rest : Str}
    (hc : c.val < 0x10000) (hjoin : high.isSome = true → isLowSurrogate c.val = false)
    (htext : scanString (pending c) text = .ok (alone (pending c) ++ s, rest)) :
    scanString high (unicodeEscape c.val ++ text) = .ok (alone high ++ c :: s, rest) := by
  rw [scanString_unicode high hc (ne_nil_of_scanString htext)]
  by_cases hhigh : isHighSurrogate c.val = true
  -- A high surrogate waits for the next escape.
  · rw [pending, if_pos hhigh] at htext
    have halone : alone (some c.val) = [c] := by
      rw [alone, Option.toList_some, List.map_singleton, ofNat_val]
    rw [if_pos hhigh, htext, halone]
    rfl
  · have hlow : ¬(isLowSurrogate c.val = true ∧ high.isSome = true) := by
      intro hboth
      rw [hjoin hboth.2] at hboth
      exact Bool.false_ne_true hboth.1
    rw [pending, if_neg hhigh] at htext
    rw [if_neg hhigh, if_neg hlow, htext, ofNat_val]
    rfl

/-- A code point above the basic plane is written as two escapes, of which the
    second joins the first. -/
theorem scanString_pair (high : Option Nat) {c : CodePoint} {text s rest : Str}
    (hc : 0x10000 ≤ c.val) (htext : scanString none text = .ok (s, rest)) :
    scanString high (unicodeEscape (0xD800 + (c.val - 0x10000) / 1024) ++
      unicodeEscape (0xDC00 + (c.val - 0x10000) % 1024) ++ text) =
        .ok (alone high ++ c :: s, rest) := by
  have hlt := c.isLt
  have hne := ne_nil_of_scanString htext
  have hjoined : joinSurrogates (0xD800 + (c.val - 0x10000) / 1024)
      (0xDC00 + (c.val - 0x10000) % 1024) = c.val := by
    unfold joinSurrogates
    omega
  -- The first is a high surrogate, the second a low one.
  generalize hm : 0xD800 + (c.val - 0x10000) / 1024 = m at hjoined ⊢
  generalize hn : 0xDC00 + (c.val - 0x10000) % 1024 = n at hjoined ⊢
  have hhigh : isHighSurrogate m = true := by
    rw [isHighSurrogate, decide_eq_true_eq]
    omega
  have hlow : isLowSurrogate n = true := by
    rw [isLowSurrogate, decide_eq_true_eq]
    omega
  have hnot : ¬isHighSurrogate n = true := by
    rw [isHighSurrogate, decide_eq_true_eq]
    omega
  have hsecond : scanString (some m) (unicodeEscape n ++ text) = .ok (c :: s, rest) := by
    rw [scanString_unicode _ (by omega) hne, if_neg hnot, if_pos ⟨hlow, rfl⟩, htext,
      Option.getD_some, hjoined, ofNat_val]
    rfl
  rw [List.append_assoc, scanString_unicode high (by omega) (by simp [hne]), if_pos hhigh, hsecond]
  rfl

/-- A written code point is read back, if the rest of the string is. -/
theorem scanString_jsonChar {high : Option Nat} {c : CodePoint} {text s rest : Str}
    (hjoin : high.isSome = true → isLowSurrogate c.val = false)
    (htext : scanString (pending c) text = .ok (alone (pending c) ++ s, rest)) :
    scanString high (jsonChar c ++ text) = .ok (alone high ++ c :: s, rest) := by
  -- Outside the surrogates, nothing is left to join.
  have hnone : ¬(0xD800 ≤ c.val ∧ c.val ≤ 0xDBFF) → scanString none text = .ok (s, rest) := by
    intro hhigh
    rw [pending, isHighSurrogate, if_neg (by simpa using hhigh)] at htext
    exact htext
  have hsimple : ∀ (escape : Str) (d : CodePoint), escape = [92, d] → d.val ≠ 117 →
      simpleEscape d = some c → c.val < 0xD800 →
      scanString high (escape ++ text) = .ok (alone high ++ c :: s, rest) := by
    intro escape d hescape hd he hc
    rw [hescape, List.cons_append, List.singleton_append,
      scanString_simple high rfl hd he text, hnone (by omega)]
    rfl
  have hliteral : ∀ (d : CodePoint) (n : Nat), c.val = n → d.val = n → d = c :=
    fun d n hc hd => Fin.ext (hd.trans hc.symm)
  unfold jsonChar
  by_cases h : c.val = 92
  · rw [if_pos h, ← hliteral 92 92 h rfl]
    rw [← hliteral 92 92 h rfl] at hsimple
    exact hsimple _ 92 (by decide) (by decide) (by decide) (by decide)
  rw [if_neg h]
  by_cases h : c.val = 34
  · rw [if_pos h]
    rw [← hliteral 34 34 h rfl] at hsimple ⊢
    exact hsimple _ 34 (by decide) (by decide) (by decide) (by decide)
  rw [if_neg h]
  by_cases h : c.val = 8
  · rw [if_pos h]
    rw [← hliteral 8 8 h rfl] at hsimple ⊢
    exact hsimple _ 98 (by decide) (by decide) (by decide) (by decide)
  rw [if_neg h]
  by_cases h : c.val = 9
  · rw [if_pos h]
    rw [← hliteral 9 9 h rfl] at hsimple ⊢
    exact hsimple _ 116 (by decide) (by decide) (by decide) (by decide)
  rw [if_neg h]
  by_cases h : c.val = 10
  · rw [if_pos h]
    rw [← hliteral 10 10 h rfl] at hsimple ⊢
    exact hsimple _ 110 (by decide) (by decide) (by decide) (by decide)
  rw [if_neg h]
  by_cases h : c.val = 12
  · rw [if_pos h]
    rw [← hliteral 12 12 h rfl] at hsimple ⊢
    exact hsimple _ 102 (by decide) (by decide) (by decide) (by decide)
  rw [if_neg h]
  by_cases h : c.val = 13
  · rw [if_pos h]
    rw [← hliteral 13 13 h rfl] at hsimple ⊢
    exact hsimple _ 114 (by decide) (by decide) (by decide) (by decide)
  rw [if_neg h]
  by_cases h : 32 ≤ c.val ∧ c.val ≤ 126
  · rw [if_pos h, List.singleton_append,
      scanString_plain high (by omega) (by omega) (by omega), hnone (by omega)]
    rfl
  rw [if_neg h]
  by_cases h : c.val < 0x10000
  · rw [if_pos h]
    exact scanString_basic h hjoin htext
  · rw [if_neg h]
    exact scanString_pair high (by omega) (hnone (by omega))

/-- The inside of a written string is read back, up to the quote. -/
theorem scanString_flatMap {s : Str} (h : Joinless s) (rest : Str) :
    ∀ high : Option Nat, (high.isSome = true → ∀ c ∈ s.head?, isLowSurrogate c.val = false) →
      scanString high (s.flatMap jsonChar ++ 34 :: rest) = .ok (alone high ++ s, rest) := by
  induction s with
  | nil =>
      intro high _
      rw [List.flatMap_nil, List.nil_append, List.append_nil, scanString.eq_def]
      exact if_pos rfl
  | cons c s ih =>
      intro high hhead
      rw [List.flatMap_cons, List.append_assoc]
      refine scanString_jsonChar (fun hhigh => hhead hhigh c rfl)
        (ih (List.IsChain.of_cons h) _ fun hpending d hd => ?_)
      by_cases hhigh : isHighSurrogate c.val = true
      · cases s with
        | nil => exact absurd hd (by simp)
        | cons e s =>
            rw [List.head?_cons, Option.mem_some_iff] at hd
            rw [← hd]
            exact h.rel hhigh
      · rw [pending, if_neg hhigh] at hpending
        exact absurd hpending Bool.false_ne_true

/-- A written string is read back. -/
theorem scanString_jsonString {s : Str} (h : Joinless s) (rest : Str) :
    ∃ text, jsonString s ++ rest = 34 :: text ∧ scanString none text = .ok (s, rest) := by
  have hquote : Str.ofString "\"" = [34] := by decide
  refine ⟨s.flatMap jsonChar ++ 34 :: rest, ?_, ?_⟩
  · rw [jsonString, hquote]
    simp only [List.append_assoc, List.cons_append, List.nil_append]
  · exact scanString_flatMap h rest none fun hnone => absurd hnone Bool.false_ne_true

/-! ### Numbers -/

/-- A number can end in front of the text. -/
def Ends (text : Str) : Prop :=
  ∀ c ∈ text.head?, isDigit c = false ∧ c.val ≠ 46 ∧ c.val ≠ 69 ∧ c.val ≠ 101

/-- The digits of a number. -/
def decimalDigits (n : Nat) : Str :=
  (Nat.toDigits 10 n).map fun c => Fin.ofNat 0x110000 c.toNat

theorem val_ofNat_char (c : Char) : (Fin.ofNat 0x110000 c.toNat : CodePoint).val = c.toNat := by
  have hc : c.toNat < 0x110000 := by
    rcases c.valid with h | h
    · exact Nat.lt_trans h (by decide)
    · exact h.2
  rw [Fin.val_ofNat, Nat.mod_eq_of_lt hc]

theorem isDigit_decimalDigits (n : Nat) : ∀ c ∈ decimalDigits n, isDigit c = true := by
  intro c hc
  rcases List.mem_map.mp hc with ⟨d, hd, rfl⟩
  have hdigit := Nat.isDigit_of_mem_toDigits (by decide) (by decide) hd
  rw [Char.isDigit, Bool.and_eq_true, decide_eq_true_eq, decide_eq_true_eq] at hdigit
  rw [isDigit, decide_eq_true_eq, val_ofNat_char]
  exact hdigit

theorem decimal_decimalDigits (n : Nat) : decimal (decimalDigits n) = n := by
  have hn : Nat.ofDigitChars 10 (Nat.toDigits 10 n) 0 = n := Nat.ofDigitChars_ten_toDigits
  rw [Nat.ofDigitChars_eq_foldl] at hn
  rw [decimal, decimalDigits, List.foldl_map]
  simp only [val_ofNat_char]
  simp only [Nat.mul_comm 10] at hn
  exact hn

/-- The first digit of a positive number is not zero. -/
theorem decimalDigits_head {n : Nat} (hn : 0 < n) :
    ∃ c rest, decimalDigits n = c :: rest ∧ c.val ≠ 48 := by
  unfold decimalDigits
  induction n using Nat.base_induction 10 (by decide) with
  | single m hm =>
      rw [Nat.toDigits_of_lt_base hm]
      refine ⟨_, [], rfl, ?_⟩
      rw [val_ofNat_char, Nat.toNat_digitChar_of_lt_ten hm]
      omega
  | digit m k hk hm ih =>
      rcases ih hm with ⟨c, rest, hdigits, hc⟩
      rw [← Nat.toDigits_append_toDigits (by decide) hm hk, List.map_append, hdigits]
      exact ⟨c, _, rfl, hc⟩

theorem Ends.span {rest : Str} (h : Ends rest) :
    rest.takeWhile isDigit = [] ∧ rest.dropWhile isDigit = rest := by
  cases rest with
  | nil => exact ⟨rfl, rfl⟩
  | cons c rest =>
      have hc := (h c rfl).1
      simp [hc]

/-- The digits of a number are all of the integer part in front of such a text. -/
theorem integerPart_decimalDigits (n : Nat) {rest : Str} (h : Ends rest) :
    integerPart (decimalDigits n ++ rest) = some (decimalDigits n, rest) := by
  by_cases hn : n = 0
  · rw [hn]
    rfl
  rcases decimalDigits_head (Nat.pos_of_ne_zero hn) with ⟨c, digits, hdigits, hc⟩
  have hall := isDigit_decimalDigits n
  rw [hdigits] at hall ⊢
  have htail : ∀ d ∈ digits, isDigit d = true := fun d hd => hall d (List.mem_cons_of_mem c hd)
  rw [List.cons_append, integerPart, if_neg hc, if_pos (hall c List.mem_cons_self),
    List.takeWhile_append_of_pos htail, List.dropWhile_append_of_pos htail, h.span.1, h.span.2,
    List.append_nil]

theorem fractionPart_ends {rest : Str} (h : Ends rest) : fractionPart rest = ([], rest) := by
  unfold fractionPart
  split
  · next c d rest =>
      rw [if_neg]
      intro hboth
      exact (h c rfl).2.1 hboth.1
  · rfl

theorem exponentPart_ends {rest : Str} (h : Ends rest) : exponentPart rest = ([], rest) := by
  cases rest with
  | nil => rfl
  | cons c rest =>
      rw [exponentPart, if_pos (h c rfl).2.2]

section Reading

variable (float : Str → Value)

/-- A written number is read back behind its sign. -/
theorem scanUnsigned_decimalDigits (negative : Bool) {n : Nat} (hn : n < 10 ^ maxStrDigits)
    {rest : Str} (h : Ends rest) :
    scanUnsigned float negative (decimalDigits n ++ rest) =
      .ok (.int (if negative then -(n : Int) else n), rest) := by
  have hlength : ¬(decimalDigits n).length > maxStrDigits := by
    rw [decimalDigits, List.length_map, Nat.not_lt,
      Nat.length_toDigits_le_iff (by decide) (by decide)]
    exact hn
  rw [scanUnsigned, integerPart_decimalDigits n h]
  simp only [fractionPart_ends h, exponentPart_ends h, and_self, if_true, if_neg hlength,
    decimal_decimalDigits]

/-- The text of an integer begins with a digit or with a sign and a digit. -/
theorem ofString_int (n : Int) :
    Str.ofString (toString n) =
      if n < 0 then 45 :: decimalDigits n.natAbs else decimalDigits n.natAbs := by
  cases n with
  | ofNat m =>
      rw [if_neg (by simp)]
      change (Nat.repr m).toList.map _ = _
      rw [Nat.toList_repr]
      rfl
  | negSucc m =>
      rw [if_pos (Int.negSucc_lt_zero m)]
      change ("-" ++ (m + 1).repr).toList.map _ = _
      rw [String.toList_append, List.map_append, Nat.toList_repr]
      rfl

/-- A written integer is read back. -/
theorem scanNumber_int {n : Int} (hn : n.natAbs < 10 ^ maxStrDigits) {rest : Str} (h : Ends rest) :
    scanNumber float (Str.ofString (toString n) ++ rest) = .ok (.int n, rest) := by
  rw [ofString_int]
  by_cases hneg : n < 0
  · rw [if_pos hneg, List.cons_append, scanNumber, if_pos (by decide),
      scanUnsigned_decimalDigits float true hn h]
    have habs : -(n.natAbs : Int) = n := by omega
    rw [if_pos rfl, habs]
  -- Without a sign, the first character is a digit.
  · have hscan := scanUnsigned_decimalDigits float false hn h
    have habs : (n.natAbs : Int) = n := by omega
    rw [if_neg Bool.false_ne_true, habs] at hscan
    rw [if_neg hneg]
    have hall := isDigit_decimalDigits n.natAbs
    cases hdigits : decimalDigits n.natAbs with
    | nil => exact absurd hdigits (by simp [decimalDigits])
    | cons c digits =>
        rw [hdigits] at hscan hall
        have hdigit := hall c List.mem_cons_self
        rw [isDigit, decide_eq_true_eq] at hdigit
        rw [List.cons_append, scanNumber, if_neg (by omega)]
        exact hscan

/-! ### Scalars -/

/-- What a value begins with: no space, not the end of an array, and not the
    mark of an encoding. -/
def Opens (text : Str) : Prop :=
  ∃ c rest, text = c :: rest ∧ isJsonSpace c = false ∧ c.val ≠ 93 ∧ c.val ≠ 0xFEFF

/-- A value that a document can carry, with containers nested as deep as the
    number says. -/
def Value.Portable (depth : Nat) (v : Value) : Prop :=
  match v with
  | .none => True
  | .bool _ => True
  | .int n => n.natAbs < 10 ^ maxStrDigits
  | .str s => Joinless s
  | .bytes _ => False
  | .list items => match depth with
      | 0 => False
      | depth + 1 => ∀ item ∈ items, item.Portable depth
  | .dict entries => match depth with
      | 0 => False
      | depth + 1 => (entries.map Prod.fst).Nodup ∧
          ∀ entry ∈ entries, Joinless entry.1 ∧ entry.2.Portable depth

/-- The first two characters of a word are not those of a number. -/
def isWord : Str → Bool
  | a :: b :: _ => !isDigit a && !(decide (a.val = 45) && isDigit b)
  | _ => false

/-- A number is none of the words. -/
theorem scanConstant_number {c d : CodePoint} {rest : Str}
    (h : isDigit c = true ∨ c.val = 45 ∧ rest.head? = some d ∧ isDigit d = true) :
    scanConstant float (c :: rest) = none := by
  have hwords : (constants float).all (fun word => isWord word.1) = true := rfl
  rw [scanConstant, List.findSome?_eq_none_iff]
  intro word hword
  have hw := List.all_eq_true.mp hwords word hword
  -- A word that the text began with would have the first two characters of a number.
  refine if_neg fun hfound => ?_
  rcases List.isPrefixOf_iff_prefix.mp hfound with ⟨tail, htail⟩
  cases hword₁ : word.1 with
  | nil =>
      rw [hword₁] at hw
      exact Bool.false_ne_true hw
  | cons a text =>
      cases text with
      | nil =>
          rw [hword₁] at hw
          exact Bool.false_ne_true hw
      | cons b text =>
          rw [hword₁, List.cons_append, List.cons_append, List.cons.injEq] at htail
          rw [hword₁, isWord, htail.1] at hw
          rcases h with hdigit | ⟨hsign, hhead, hdigit⟩
          · rw [hdigit] at hw
            exact Bool.false_ne_true hw
          · rw [← htail.2, List.head?_cons, Option.some.injEq] at hhead
            rw [hhead, hdigit, hsign] at hw
            simp at hw

variable (array object : Str → Except PyErr (Value × Str))

/-- The text is that of a value, in front of any text that ends a number. -/
def ReadsAs (nested : Str → Except PyErr (Value × Str)) (text : Str) (v : Value) : Prop :=
  Opens text ∧ ∀ rest, Ends rest → nested (text ++ rest) = .ok (v, rest)

/-- A written integer is read back as a value. -/
theorem scanOnce_int {n : Int} (hn : n.natAbs < 10 ^ maxStrDigits) :
    ReadsAs (scanOnce float array object) (Str.ofString (toString n)) (.int n) := by
  have htext := ofString_int n
  have hall := isDigit_decimalDigits n.natAbs
  cases hdigits : decimalDigits n.natAbs with
  | nil => exact absurd hdigits (by simp [decimalDigits])
  | cons d digits =>
      rw [hdigits] at htext hall
      have hd := hall d List.mem_cons_self
      have hrange := hd
      rw [isDigit, decide_eq_true_eq] at hrange
      by_cases hneg : n < 0
      · rw [if_pos hneg] at htext
        rw [htext]
        refine ⟨⟨_, _, rfl, by decide, by decide⟩, fun rest h => ?_⟩
        have hscan := scanNumber_int float hn h
        rw [htext, List.cons_append] at hscan
        rw [List.cons_append, scanOnce, if_neg (by decide), if_neg (by decide),
          if_neg (by decide), scanConstant_number float (Or.inr ⟨rfl, rfl, hd⟩)]
        exact hscan
      · rw [if_neg hneg] at htext
        rw [htext]
        refine ⟨⟨_, _, rfl, ?_, by omega⟩, fun rest h => ?_⟩
        · rw [isJsonSpace, decide_eq_false_iff_not]
          omega
        · have hscan := scanNumber_int float hn h
          rw [htext, List.cons_append] at hscan
          rw [List.cons_append, scanOnce, if_neg (by omega), if_neg (by omega),
            if_neg (by omega), scanConstant_number float (d := d) (Or.inl hd)]
          exact hscan

/-- A written scalar is read back. -/
theorem scanOnce_scalar {v : Value} (hv : v.Portable 0) {text : Str}
    (htext : jsonScalar v = .ok text) : ReadsAs (scanOnce float array object) text v := by
  cases v with
  | none =>
      rw [← Except.ok.inj htext]
      exact ⟨⟨110, _, rfl, by decide, by decide⟩, fun _ _ => rfl⟩
  | bool b =>
      cases b with
      | true =>
          rw [← Except.ok.inj htext]
          exact ⟨⟨116, _, rfl, by decide, by decide⟩, fun _ _ => rfl⟩
      | false =>
          rw [← Except.ok.inj htext]
          exact ⟨⟨102, _, rfl, by decide, by decide⟩, fun _ _ => rfl⟩
  | int n =>
      rw [← Except.ok.inj htext]
      exact scanOnce_int float array object hv
  | str s =>
      rw [← Except.ok.inj htext]
      refine ⟨⟨34, _, rfl, by decide, by decide⟩, fun rest _ => ?_⟩
      rcases scanString_jsonString hv rest with ⟨inside, hopen, hscan⟩
      rw [hopen, scanOnce, if_pos (by decide), hscan]
      rfl
  | bytes b => exact absurd hv not_false
  | list items => exact absurd hv not_false
  | dict entries => exact absurd hv not_false

/-! ### Containers -/

theorem skipSpace_opens {text : Str} (h : Opens text) (rest : Str) :
    skipSpace (text ++ rest) = text ++ rest := by
  rcases h with ⟨c, tail, rfl, hspace, -⟩
  simp [skipSpace, hspace]

theorem skipSpace_cons {c : CodePoint} (h : isJsonSpace c = false) (rest : Str) :
    skipSpace (c :: rest) = c :: rest := by
  simp [skipSpace, h]

theorem newline_eq (level : Nat) : newline level = 10 :: List.replicate (2 * level) 32 := by
  have hend : Str.ofString "\n" = [10] := by decide
  rw [newline, hend]
  rfl

/-- A line end and its indentation are skipped. -/
theorem skipSpace_newline (level : Nat) (text : Str) :
    skipSpace (newline level ++ text) = skipSpace text := by
  refine List.dropWhile_append_of_pos fun c hc => ?_
  rw [newline_eq, List.mem_cons, List.mem_replicate] at hc
  rcases hc with rfl | ⟨-, rfl⟩
  · decide
  · decide

theorem ends_cons {c : CodePoint} (h : c.val = 10 ∨ c.val = 44) (rest : Str) :
    Ends (c :: rest) := by
  intro d hd
  rw [List.head?_cons, Option.mem_some_iff] at hd
  rw [← hd, isDigit, decide_eq_false_iff_not]
  omega

theorem ends_newline (level : Nat) (text : Str) : Ends (newline level ++ text) := by
  rw [newline_eq]
  exact ends_cons (Or.inl rfl) _

/-- The lines of a container, up to its end. -/
def lines (level : Nat) (texts : List Str) : Str :=
  (Str.ofString "," ++ newline (level + 1)).intercalate texts ++ newline level

theorem lines_singleton (level : Nat) (text : Str) :
    lines level [text] = text ++ newline level := by
  rw [lines, List.intercalate_singleton]

theorem lines_cons (level : Nat) (text next : Str) (texts : List Str) :
    lines level (text :: next :: texts) =
      text ++ (44 :: newline (level + 1) ++ lines level (next :: texts)) := by
  have hcomma : Str.ofString "," = [44] := by decide
  simp only [lines, List.intercalate_cons_cons, hcomma, List.append_assoc, List.cons_append,
    List.nil_append]

theorem opens_lines (level : Nat) {text : Str} (h : Opens text) (texts : List Str) (rest : Str) :
    skipSpace (lines level (text :: texts) ++ rest) = lines level (text :: texts) ++ rest := by
  cases texts with
  | nil =>
      rw [lines_singleton, List.append_assoc]
      exact skipSpace_opens h _
  | cons next texts =>
      rw [lines_cons, List.append_assoc]
      exact skipSpace_opens h _

section Loops

variable {nested : Str → Except PyErr (Value × Str)}

/-- The last item of an array. -/
theorem scanItems_last {text : Str} {v : Value} (h : ReadsAs nested text v) (fuel level : Nat)
    (values : List Value) (rest : Str) :
    scanItems nested (fuel + 1) values (text ++ (newline level ++ 93 :: rest)) =
      .ok (.list (values ++ [v]), rest) := by
  rw [scanItems, h.2 _ (ends_newline level _)]
  dsimp only [bind, Except.bind]
  rw [skipSpace_newline, skipSpace_cons (by decide)]
  rfl

/-- An item and a comma. -/
theorem scanItems_next {text : Str} {v : Value} (h : ReadsAs nested text v) (fuel : Nat)
    (values : List Value) (rest : Str) :
    scanItems nested (fuel + 1) values (text ++ 44 :: rest) =
      scanItems nested fuel (values ++ [v]) (skipSpace rest) := by
  rw [scanItems, h.2 _ (ends_cons (Or.inr rfl) _)]
  dsimp only [bind, Except.bind]
  rw [skipSpace_cons (by decide)]
  rfl

/-- The loop reads the items of an array, if the scanner reads each of them. -/
theorem scanItems_lines (level : Nat) {items : List (Str × Value)} (hne : items ≠ [])
    (h : ∀ item ∈ items, ReadsAs nested item.1 item.2) (rest : Str) :
    ∀ (fuel : Nat) (values : List Value), items.length ≤ fuel →
      scanItems nested fuel values (lines level (items.map Prod.fst) ++ 93 :: rest) =
        .ok (.list (values ++ items.map Prod.snd), rest) := by
  induction items with
  | nil => exact absurd rfl hne
  | cons item items ih =>
      intro fuel values hfuel
      have hitem := h item List.mem_cons_self
      cases fuel with
      | zero => exact absurd hfuel (Nat.not_succ_le_zero _)
      | succ fuel =>
          cases items with
          | nil =>
              rw [List.map_singleton, lines_singleton, List.append_assoc]
              exact scanItems_last hitem fuel level values rest
          | cons next items =>
              have hnext := (h next (List.mem_cons_of_mem _ List.mem_cons_self)).1
              have hloop := ih (List.cons_ne_nil _ _)
                (fun i hi => h i (List.mem_cons_of_mem _ hi)) fuel (values ++ [item.2])
                (Nat.le_of_succ_le_succ hfuel)
              rw [List.map_cons, List.map_cons, lines_cons, List.append_assoc, List.cons_append,
                List.cons_append, scanItems_next hitem, List.append_assoc, skipSpace_newline,
                opens_lines level hnext]
              rw [List.append_assoc, List.map_cons] at hloop
              exact hloop

/-- A written member is read back. -/
theorem scanMember_member {key text : Str} {v : Value} (hkey : Joinless key)
    (h : ReadsAs nested text v) (entries : List (Str × Value)) {rest : Str} (hrest : Ends rest) :
    scanMember nested entries (member (key, text) ++ rest) = .ok (setItem entries key v, rest) := by
  have hcolon : Str.ofString ": " = [58, 32] := by decide
  rcases scanString_jsonString hkey (58 :: 32 :: (text ++ rest)) with ⟨inside, hopen, hscan⟩
  have hmember : member (key, text) ++ rest = 34 :: inside := by
    rw [← hopen, member, hcolon]
    simp only [List.append_assoc, List.cons_append, List.nil_append]
  have hspace : skipSpace (32 :: (text ++ rest)) = text ++ rest := skipSpace_opens h.1 rest
  rw [hmember]
  -- The quote, the key, the colon and the value.
  refine (bind_eq_ok_iff _ _ _).mpr ⟨inside, rfl, ?_⟩
  refine (bind_eq_ok_iff _ _ _).mpr ⟨_, hscan, ?_⟩
  refine (bind_eq_ok_iff _ _ _).mpr ⟨32 :: (text ++ rest), rfl, ?_⟩
  refine (bind_eq_ok_iff _ _ _).mpr ⟨(v, rest), ?_, rfl⟩
  rw [hspace]
  exact h.2 rest hrest

/-- The last member of an object. -/
theorem scanMembers_last {key text : Str} {v : Value} (hkey : Joinless key)
    (h : ReadsAs nested text v) (fuel level : Nat) (entries : List (Str × Value)) (rest : Str) :
    scanMembers nested (fuel + 1) entries (member (key, text) ++ (newline level ++ 125 :: rest)) =
      .ok (.dict (setItem entries key v), rest) := by
  rw [scanMembers, scanMember_member hkey h entries (ends_newline level _)]
  dsimp only [bind, Except.bind]
  rw [skipSpace_newline, skipSpace_cons (by decide)]
  rfl

/-- A member and a comma. -/
theorem scanMembers_next {key text : Str} {v : Value} (hkey : Joinless key)
    (h : ReadsAs nested text v) (fuel : Nat) (entries : List (Str × Value)) (rest : Str) :
    scanMembers nested (fuel + 1) entries (member (key, text) ++ 44 :: rest) =
      scanMembers nested fuel (setItem entries key v) (skipSpace rest) := by
  rw [scanMembers, scanMember_member hkey h entries (ends_cons (Or.inr rfl) _)]
  dsimp only [bind, Except.bind]
  rw [skipSpace_cons (by decide)]
  rfl

theorem setItem_new {entries : List (Str × Value)} {key : Str} (h : key ∉ entries.map Prod.fst)
    (v : Value) : setItem entries key v = entries ++ [(key, v)] := by
  rw [setItem, if_neg h]

theorem opens_member (entry : Str × Str) : Opens (member entry) :=
  ⟨34, _, rfl, by decide, by decide⟩

/-- The loop reads the members of an object, if the scanner reads each value
    and no key occurs twice. A member is a key, the text of its value, and the
    value. -/
theorem scanMembers_lines (level : Nat) {members : List (Str × Str × Value)} (hne : members ≠ [])
    (h : ∀ m ∈ members, Joinless m.1 ∧ ReadsAs nested m.2.1 m.2.2) (rest : Str) :
    ∀ (fuel : Nat) (entries : List (Str × Value)), members.length ≤ fuel →
      (entries.map Prod.fst ++ members.map Prod.fst).Nodup →
      scanMembers nested fuel entries
        (lines level (members.map fun m => member (m.1, m.2.1)) ++ 125 :: rest) =
          .ok (.dict (entries ++ members.map fun m => (m.1, m.2.2)), rest) := by
  induction members with
  | nil => exact absurd rfl hne
  | cons m members ih =>
      intro fuel entries hfuel hnodup
      have hm := h m List.mem_cons_self
      -- The key is new.
      have hnew : m.1 ∉ entries.map Prod.fst := by
        intro hmem
        have hdisjoint := (List.nodup_append.mp hnodup).2.2
        exact hdisjoint _ hmem _ List.mem_cons_self rfl
      cases fuel with
      | zero => exact absurd hfuel (Nat.not_succ_le_zero _)
      | succ fuel =>
          cases members with
          | nil =>
              rw [List.map_singleton, lines_singleton, List.append_assoc,
                scanMembers_last hm.1 hm.2, setItem_new hnew]
              rfl
          | cons next members =>
              have hkeys : ((entries ++ [(m.1, m.2.2)]).map Prod.fst ++
                  (next :: members).map Prod.fst).Nodup := by
                rw [List.map_append, List.append_assoc]
                exact hnodup
              have hloop := ih (List.cons_ne_nil _ _)
                (fun i hi => h i (List.mem_cons_of_mem _ hi)) fuel (entries ++ [(m.1, m.2.2)])
                (Nat.le_of_succ_le_succ hfuel) hkeys
              rw [List.map_cons, List.map_cons, lines_cons, List.append_assoc, List.cons_append,
                List.cons_append, scanMembers_next hm.1 hm.2, List.append_assoc,
                skipSpace_newline, opens_lines level (opens_member _), setItem_new hnew]
              rw [List.append_assoc, List.map_cons] at hloop
              exact hloop

/-- A container has at least as many characters as items. -/
theorem length_le_lines (level : Nat) (texts : List Str) (h : ∀ text ∈ texts, Opens text) :
    texts.length ≤ (lines level texts).length := by
  induction texts with
  | nil => exact Nat.zero_le _
  | cons text texts ih =>
      have hrest := ih fun t ht => h t (List.mem_cons_of_mem _ ht)
      rcases h text List.mem_cons_self with ⟨c, tail, rfl, -⟩
      cases texts with
      | nil =>
          rw [lines_singleton]
          simp
      | cons next texts =>
          rw [lines_cons]
          simp only [List.length_append, List.length_cons] at hrest ⊢
          omega

/-- An array that is not empty is read back. -/
theorem scanArray_lines (level : Nat) {items : List (Str × Value)} (hne : items ≠ [])
    (h : ∀ item ∈ items, ReadsAs nested item.1 item.2) (rest : Str) :
    scanArray nested (newline (level + 1) ++ (lines level (items.map Prod.fst) ++ 93 :: rest)) =
      .ok (.list (items.map Prod.snd), rest) := by
  have hlength := length_le_lines level (items.map Prod.fst) fun text ht => by
    rcases List.mem_map.mp ht with ⟨item, hitem, rfl⟩
    exact (h item hitem).1
  have hloop := scanItems_lines level hne h rest
    ((newline (level + 1) ++ (lines level (items.map Prod.fst) ++ 93 :: rest)).length + 1) [] (by
      simp only [List.length_append, List.length_map] at hlength ⊢
      omega)
  cases items with
  | nil => exact absurd rfl hne
  | cons item items =>
      have hopens := (h item List.mem_cons_self).1
      have hskip : skipSpace (newline (level + 1) ++
          (lines level ((item :: items).map Prod.fst) ++ 93 :: rest)) =
            lines level ((item :: items).map Prod.fst) ++ 93 :: rest := by
        rw [skipSpace_newline, List.map_cons]
        exact opens_lines level hopens _ _
      -- What is found is the first character of the first item.
      rcases hopens with ⟨c, tail, hc, -, hbracket⟩
      have hfirst : ∃ inside, lines level ((item :: items).map Prod.fst) ++ 93 :: rest =
          c :: inside := by
        rw [List.map_cons, hc]
        cases items with
        | nil => exact ⟨_, by rw [List.map_nil, lines_singleton]; rfl⟩
        | cons next items => exact ⟨_, by rw [List.map_cons, lines_cons]; rfl⟩
      rcases hfirst with ⟨inside, hinside⟩
      rw [scanArray, hskip, hinside]
      dsimp only
      rw [if_neg hbracket.1, ← hinside, hloop, List.nil_append]

/-- An object that is not empty is read back. -/
theorem scanObject_lines (level : Nat) {members : List (Str × Str × Value)} (hne : members ≠ [])
    (h : ∀ m ∈ members, Joinless m.1 ∧ ReadsAs nested m.2.1 m.2.2)
    (hnodup : (members.map Prod.fst).Nodup) (rest : Str) :
    scanObject nested (newline (level + 1) ++
      (lines level (members.map fun m => member (m.1, m.2.1)) ++ 125 :: rest)) =
        .ok (.dict (members.map fun m => (m.1, m.2.2)), rest) := by
  have hlength := length_le_lines level (members.map fun m => member (m.1, m.2.1))
    fun text ht => by
      rcases List.mem_map.mp ht with ⟨m, -, rfl⟩
      exact opens_member _
  have hloop := scanMembers_lines level hne h rest
    ((newline (level + 1) ++ (lines level (members.map fun m => member (m.1, m.2.1)) ++
      125 :: rest)).length + 1) [] (by
      simp only [List.length_append, List.length_map] at hlength ⊢
      omega) hnodup
  cases members with
  | nil => exact absurd rfl hne
  | cons m members =>
      have hskip : skipSpace (newline (level + 1) ++
          (lines level ((m :: members).map fun m => member (m.1, m.2.1)) ++ 125 :: rest)) =
            lines level ((m :: members).map fun m => member (m.1, m.2.1)) ++ 125 :: rest := by
        rw [skipSpace_newline, List.map_cons]
        exact opens_lines level (opens_member _) _ _
      -- What is found is the quote of the first key.
      have hfirst : ∃ inside, lines level ((m :: members).map fun m => member (m.1, m.2.1)) ++
          125 :: rest = 34 :: inside := by
        rw [List.map_cons]
        cases members with
        | nil => exact ⟨_, by rw [List.map_nil, lines_singleton]; rfl⟩
        | cons next members => exact ⟨_, by rw [List.map_cons, lines_cons]; rfl⟩
      rcases hfirst with ⟨inside, hinside⟩
      rw [scanObject, hskip, hinside]
      dsimp only
      rw [if_neg (by decide), ← hinside, hloop, List.nil_append]

end Loops

/-! ### Documents -/

mutual

/-- A value with the keys of every dictionary in order. -/
def Value.sorted : Value → Value
  | .list items => .list (sortedItems items)
  | .dict entries => .dict ((sortedEntries entries).insertionSort fun a b => a.1 ≤ b.1)
  | .none => .none
  | .bool b => .bool b
  | .int n => .int n
  | .str s => .str s
  | .bytes b => .bytes b

/-- The items of an array with their keys sorted. -/
def sortedItems : List Value → List Value
  | [] => []
  | item :: items => item.sorted :: sortedItems items

/-- The entries of an object, with the keys of their values sorted. -/
def sortedEntries : List (Str × Value) → List (Str × Value)
  | [] => []
  | (key, value) :: entries => (key, value.sorted) :: sortedEntries entries

end

/-- The texts of the items, next to what they are to be read as. -/
theorem encodeItems_eq_ok {level : Nat} {items : List Value} {texts : List Str}
    (h : encodeItems level items = .ok texts) :
    ∃ rows : List (Str × Value), texts = rows.map Prod.fst ∧
      sortedItems items = rows.map Prod.snd ∧
      ∀ row ∈ rows, ∃ item ∈ items, encode level item = .ok row.1 ∧ row.2 = item.sorted := by
  induction items generalizing texts with
  | nil =>
      rw [encodeItems, Except.ok.injEq] at h
      rw [← h]
      exact ⟨[], rfl, rfl, fun row hrow => absurd hrow List.not_mem_nil⟩
  | cons item items ih =>
      simp only [encodeItems, bind_eq_ok_iff, pure_eq_ok_iff] at h
      rcases h with ⟨text, htext, texts, htexts, rfl⟩
      rcases ih htexts with ⟨rows, rfl, hsorted, hrows⟩
      refine ⟨(text, item.sorted) :: rows, rfl, by rw [sortedItems, hsorted]; rfl, ?_⟩
      intro row hrow
      rcases List.mem_cons.mp hrow with rfl | hrow
      · exact ⟨item, List.mem_cons_self, htext, rfl⟩
      · rcases hrows row hrow with ⟨v, hv, hencode⟩
        exact ⟨v, List.mem_cons_of_mem _ hv, hencode⟩

/-- The same for the entries of a dictionary. -/
theorem encodeEntries_eq_ok {level : Nat} {entries : List (Str × Value)} {texts : List (Str × Str)}
    (h : encodeEntries level entries = .ok texts) :
    ∃ rows : List (Str × Str × Value), texts = rows.map (fun row => (row.1, row.2.1)) ∧
      sortedEntries entries = rows.map (fun row => (row.1, row.2.2)) ∧
      entries.map Prod.fst = rows.map Prod.fst ∧
      ∀ row ∈ rows, ∃ entry ∈ entries, entry.1 = row.1 ∧
        encode level entry.2 = .ok row.2.1 ∧ row.2.2 = entry.2.sorted := by
  induction entries generalizing texts with
  | nil =>
      rw [encodeEntries, Except.ok.injEq] at h
      rw [← h]
      exact ⟨[], rfl, rfl, rfl, fun row hrow => absurd hrow List.not_mem_nil⟩
  | cons entry entries ih =>
      rcases entry with ⟨key, value⟩
      simp only [encodeEntries, bind_eq_ok_iff, pure_eq_ok_iff] at h
      rcases h with ⟨text, htext, texts, htexts, rfl⟩
      rcases ih htexts with ⟨rows, rfl, hsorted, hkeys, hrows⟩
      refine ⟨(key, text, value.sorted) :: rows, rfl, by rw [sortedEntries, hsorted]; rfl,
        by rw [List.map_cons, List.map_cons, hkeys], ?_⟩
      intro row hrow
      rcases List.mem_cons.mp hrow with rfl | hrow
      · exact ⟨(key, value), List.mem_cons_self, rfl, htext, rfl⟩
      · rcases hrows row hrow with ⟨e, he, hencode⟩
        exact ⟨e, List.mem_cons_of_mem _ he, hencode⟩

/-- A written scalar is read back at any depth. -/
theorem scanValue_scalar {depth : Nat} {v : Value} (hv : v.Portable depth) {text : Str}
    (htext : jsonScalar v = .ok text) : ReadsAs (scanValue float depth) text v := by
  -- Nothing of a scalar depends on the depth.
  have hscalar : v.Portable 0 := by
    cases v with
    | list items => exact absurd htext (error_ne_ok _ _)
    | dict entries => exact absurd htext (error_ne_ok _ _)
    | bytes b => exact absurd htext (error_ne_ok _ _)
    | none => trivial
    | bool b => trivial
    | int n =>
        rw [Value.Portable.eq_def] at hv
        exact hv
    | str s =>
        rw [Value.Portable.eq_def] at hv
        exact hv
  cases depth with
  | zero => exact scanOnce_scalar float _ _ hscalar htext
  | succ depth => exact scanOnce_scalar float _ _ hscalar htext

/-- The text of a container that is not empty. -/
theorem bracketed_append {left right : String} {l r : CodePoint} (hl : Str.ofString left = [l])
    (hr : Str.ofString right = [r]) (level : Nat) {texts : List Str} (hne : texts ≠ [])
    (rest : Str) :
    bracketed left right level texts ++ rest =
      l :: (newline (level + 1) ++ (lines level texts ++ r :: rest)) := by
  rw [bracketed, if_neg hne, hl, hr, lines]
  simp only [List.append_assoc, List.cons_append, List.nil_append]

theorem bracketed_nil {left right : String} {l r : CodePoint} (hl : Str.ofString left = [l])
    (hr : Str.ofString right = [r]) (level : Nat) (rest : Str) :
    bracketed left right level [] ++ rest = l :: r :: rest := by
  rw [bracketed, if_pos rfl, hl, hr]
  rfl

theorem scanValue_array {depth level : Nat} {rows : List (Str × Value)}
    (h : ∀ row ∈ rows, ReadsAs (scanValue float depth) row.1 row.2) :
    ReadsAs (scanValue float (depth + 1)) (bracketed "[" "]" level (rows.map Prod.fst))
      (.list (rows.map Prod.snd)) := by
  have hleft : Str.ofString "[" = [91] := by decide
  have hright : Str.ofString "]" = [93] := by decide
  cases rows with
  | nil =>
      refine ⟨⟨91, [93], by rw [List.map_nil, bracketed, if_pos rfl, hleft, hright]; rfl,
        by decide, by decide⟩, fun rest _ => ?_⟩
      rw [List.map_nil, bracketed_nil hleft hright, scanValue, scanOnce, if_neg (by decide),
        if_neg (by decide), if_pos (by decide), scanArray, skipSpace_cons (by decide)]
      rfl
  | cons row rows =>
      have hne : (row :: rows).map Prod.fst ≠ [] := List.cons_ne_nil _ _
      refine ⟨⟨91, _, by
        rw [← List.append_nil (bracketed _ _ _ _), bracketed_append hleft hright level hne],
        by decide, by decide⟩, fun rest _ => ?_⟩
      rw [bracketed_append hleft hright level hne, scanValue, scanOnce, if_neg (by decide),
        if_neg (by decide), if_pos (by decide)]
      exact scanArray_lines level (List.cons_ne_nil _ _) h rest

theorem scanValue_object {depth level : Nat} {rows : List (Str × Str × Value)}
    (h : ∀ row ∈ rows, Joinless row.1 ∧ ReadsAs (scanValue float depth) row.2.1 row.2.2)
    (hnodup : (rows.map Prod.fst).Nodup) :
    ReadsAs (scanValue float (depth + 1))
      (bracketed "\x7b" "\x7d" level (rows.map fun row => member (row.1, row.2.1)))
      (.dict (rows.map fun row => (row.1, row.2.2))) := by
  have hleft : Str.ofString "\x7b" = [123] := by decide
  have hright : Str.ofString "\x7d" = [125] := by decide
  cases rows with
  | nil =>
      refine ⟨⟨123, [125], by rw [List.map_nil, bracketed, if_pos rfl, hleft, hright]; rfl,
        by decide, by decide⟩, fun rest _ => ?_⟩
      rw [List.map_nil, bracketed_nil hleft hright, scanValue, scanOnce, if_neg (by decide),
        if_pos (by decide), scanObject, skipSpace_cons (by decide)]
      rfl
  | cons row rows =>
      have hne : (row :: rows).map (fun row => member (row.1, row.2.1)) ≠ [] :=
        List.cons_ne_nil _ _
      refine ⟨⟨123, _, by
        rw [← List.append_nil (bracketed _ _ _ _), bracketed_append hleft hright level hne],
        by decide, by decide⟩, fun rest _ => ?_⟩
      rw [bracketed_append hleft hright level hne, scanValue, scanOnce, if_neg (by decide),
        if_pos (by decide)]
      exact scanObject_lines level (List.cons_ne_nil _ _) h hnodup rest

/-- A written value is read back, with its keys in order. The induction is on
    how deep containers are nested. -/
theorem scanValue_encode (depth : Nat) :
    ∀ (level : Nat) (v : Value) (text : Str), v.Portable depth → encode level v = .ok text →
      ReadsAs (scanValue float depth) text v.sorted := by
  induction depth with
  | zero =>
      intro level v text hv htext
      cases v with
      | list items => exact absurd hv not_false
      | dict entries => exact absurd hv not_false
      | bytes b => exact absurd hv not_false
      | none => exact scanValue_scalar float hv htext
      | bool b => exact scanValue_scalar float hv htext
      | int n => exact scanValue_scalar float hv htext
      | str s => exact scanValue_scalar float hv htext
  | succ depth ih =>
      intro level v text hv htext
      cases v with
      | bytes b => exact absurd hv not_false
      | none => exact scanValue_scalar float hv htext
      | bool b => exact scanValue_scalar float hv htext
      | int n => exact scanValue_scalar float hv htext
      | str s => exact scanValue_scalar float hv htext
      | list items =>
          simp only [encode, bind_eq_ok_iff, pure_eq_ok_iff] at htext
          rcases htext with ⟨texts, htexts, rfl⟩
          rcases encodeItems_eq_ok htexts with ⟨rows, rfl, hsorted, hrows⟩
          rw [Value.sorted, hsorted]
          refine scanValue_array float fun row hrow => ?_
          rcases hrows row hrow with ⟨item, hitem, hencode, hvalue⟩
          rw [hvalue]
          exact ih (level + 1) item row.1 (hv item hitem) hencode
      | dict entries =>
          simp only [encode, bind_eq_ok_iff, pure_eq_ok_iff] at htext
          rcases htext with ⟨texts, htexts, rfl⟩
          rcases encodeEntries_eq_ok htexts with ⟨rows, rfl, hsorted, hkeys, hrows⟩
          -- Texts and values are sorted by the same keys.
          have hperm := List.perm_insertionSort (fun a b : Str × Str × Value => a.1 ≤ b.1) rows
          rw [Value.sorted, hsorted,
            ← List.map_insertionSort (fun a b : Str × Str × Value => a.1 ≤ b.1) _
              (fun row : Str × Str × Value => (row.1, row.2.1)) rows fun _ _ _ _ => Iff.rfl,
            ← List.map_insertionSort (fun a b : Str × Str × Value => a.1 ≤ b.1) _
              (fun row : Str × Str × Value => (row.1, row.2.2)) rows fun _ _ _ _ => Iff.rfl,
            List.map_map]
          refine scanValue_object float (fun row hrow => ?_) ?_
          · rcases hrows row (hperm.mem_iff.mp hrow) with ⟨entry, hentry, hkey, hencode, hvalue⟩
            have hportable := hv.2 entry hentry
            rw [hvalue, ← hkey]
            exact ⟨hportable.1, ih (level + 1) entry.2 row.2.1 hportable.2 hencode⟩
          · rw [(hperm.map Prod.fst).nodup_iff, ← hkeys]
            exact hv.1

theorem ends_space {space : Str} (h : ∀ c ∈ space, isJsonSpace c = true) : Ends space := by
  intro c hc
  have hspace := h c (List.mem_of_mem_head? hc)
  rw [isJsonSpace, decide_eq_true_eq] at hspace
  rw [isDigit, decide_eq_false_iff_not]
  omega

theorem skipSpace_space {space : Str} (h : ∀ c ∈ space, isJsonSpace c = true) :
    skipSpace space = [] := by
  rw [skipSpace, ← List.append_nil space, List.dropWhile_append_of_pos h]
  rfl

/-- A written document is read back, with its keys in order, whatever space
    follows it. -/
theorem loads_encode {depth : Nat} {v : Value} (hv : v.Portable depth) {text space : Str}
    (htext : encode 0 v = .ok text) (hspace : ∀ c ∈ space, isJsonSpace c = true) :
    loads float depth (text ++ space) = .ok v.sorted := by
  have hreads := scanValue_encode float depth 0 v text hv htext
  have hskip := skipSpace_opens hreads.1 space
  have hmark : (text ++ space).head? ≠ some 0xFEFF := by
    rcases hreads.1 with ⟨c, tail, rfl, -, -, hc⟩
    intro hhead
    rw [List.cons_append, List.head?_cons, Option.some.injEq] at hhead
    rw [hhead] at hc
    exact hc rfl
  unfold loads
  simp only [bind_eq_ok_iff, failIf_eq_ok_iff, pure_eq_ok_iff]
  refine ⟨(), hmark, (v.sorted, space), ?_, (), ?_, rfl⟩
  · rw [hskip]
    exact hreads.2 space (ends_space hspace)
  · rw [skipSpace_space hspace]
    exact not_not_intro rfl

theorem portable_bool (depth : Nat) (b : Bool) : (Value.bool b).Portable depth := by
  rw [Value.Portable.eq_def]
  trivial

/-- Integers of 64 bits are far from the limit on digits. -/
theorem portable_int (depth : Nat) {n : Int} (h : n.natAbs < 2 ^ 64) :
    (Value.int n).Portable depth := by
  rw [Value.Portable.eq_def]
  exact Nat.lt_of_lt_of_le (by omega : n.natAbs < 10 ^ 20)
    (Nat.pow_le_pow_right (by decide) (by decide))

theorem portable_str (depth : Nat) {s : Str} (h : Joinless s) : (Value.str s).Portable depth := by
  rw [Value.Portable.eq_def]
  exact h

theorem exists_encodeItems {level : Nat} {items : List Value}
    (h : ∀ item ∈ items, ∃ text, encode level item = .ok text) :
    ∃ texts, encodeItems level items = .ok texts := by
  induction items with
  | nil => exact ⟨[], rfl⟩
  | cons item items ih =>
      rcases h item List.mem_cons_self with ⟨text, htext⟩
      rcases ih fun v hv => h v (List.mem_cons_of_mem _ hv) with ⟨texts, htexts⟩
      refine ⟨text :: texts, ?_⟩
      rw [encodeItems, htext, htexts]
      rfl

theorem exists_encodeEntries {level : Nat} {entries : List (Str × Value)}
    (h : ∀ entry ∈ entries, ∃ text, encode level entry.2 = .ok text) :
    ∃ texts, encodeEntries level entries = .ok texts := by
  induction entries with
  | nil => exact ⟨[], rfl⟩
  | cons entry entries ih =>
      rcases h entry List.mem_cons_self with ⟨text, htext⟩
      rcases ih fun e he => h e (List.mem_cons_of_mem _ he) with ⟨texts, htexts⟩
      refine ⟨(entry.1, text) :: texts, ?_⟩
      rw [encodeEntries.eq_def]
      dsimp only
      rw [htext, htexts]
      rfl

/-- A document can be written. -/
theorem exists_encode (depth : Nat) :
    ∀ (level : Nat) (v : Value), v.Portable depth → ∃ text, encode level v = .ok text := by
  induction depth with
  | zero =>
      intro level v hv
      cases v with
      | list items => exact absurd hv not_false
      | dict entries => exact absurd hv not_false
      | bytes b => exact absurd hv not_false
      | none => exact ⟨_, rfl⟩
      | bool b =>
          cases b with
          | false => exact ⟨_, rfl⟩
          | true => exact ⟨_, rfl⟩
      | int n => exact ⟨_, rfl⟩
      | str s => exact ⟨_, rfl⟩
  | succ depth ih =>
      intro level v hv
      cases v with
      | bytes b => exact absurd hv not_false
      | none => exact ⟨_, rfl⟩
      | bool b =>
          cases b with
          | false => exact ⟨_, rfl⟩
          | true => exact ⟨_, rfl⟩
      | int n => exact ⟨_, rfl⟩
      | str s => exact ⟨_, rfl⟩
      | list items =>
          rcases exists_encodeItems fun item hitem => ih (level + 1) item (hv item hitem)
            with ⟨texts, htexts⟩
          refine ⟨bracketed "[" "]" level texts, ?_⟩
          rw [encode, htexts]
          rfl
      | dict entries =>
          rcases exists_encodeEntries fun entry hentry =>
            ih (level + 1) entry.2 (hv.2 entry hentry).2 with ⟨texts, htexts⟩
          refine ⟨bracketed "\x7b" "\x7d" level
            ((texts.insertionSort fun a b => a.1 ≤ b.1).map member), ?_⟩
          rw [encode, htexts]
          rfl

theorem isJsonSpace_newline : ∀ c ∈ Str.ofString "\n", isJsonSpace c = true := by
  have hend : Str.ofString "\n" = [10] := by decide
  rw [hend]
  intro c hc
  rw [List.mem_singleton.mp hc]
  decide

/-! ### Flat dictionaries -/

theorem mapM_eq_ok_map {α β : Type} {f : α → Except PyErr β} {g : α → β} {xs : List α}
    (h : ∀ x ∈ xs, f x = .ok (g x)) : xs.mapM f = .ok (xs.map g) := by
  induction xs with
  | nil => rfl
  | cons x xs ih =>
      rw [List.mapM_cons, h x List.mem_cons_self, ih fun y hy => h y (List.mem_cons_of_mem x hy)]
      rfl

/-- An indentation in front of each line, or behind each line's end. -/
theorem intercalate_indented (indent sep : Str) {texts : List Str} (hne : texts ≠ []) :
    sep.intercalate (texts.map fun text => indent ++ text) =
      indent ++ (sep ++ indent).intercalate texts := by
  induction texts with
  | nil => exact absurd rfl hne
  | cons text texts ih =>
      cases texts with
      | nil =>
          rw [List.map_singleton, List.intercalate_singleton, List.intercalate_singleton]
      | cons next texts =>
          rw [List.map_cons, List.map_cons, List.intercalate_cons_cons,
            List.intercalate_cons_cons, ← List.map_cons, ih (List.cons_ne_nil _ _)]
          simp only [List.append_assoc]

/-- The value is not a container, and has a text. -/
def IsScalar (v : Value) : Prop :=
  ∃ text, jsonScalar v = .ok text

/-- The text of a scalar. -/
def scalarText (v : Value) : Str :=
  (jsonScalar v).toOption.getD []

theorem jsonScalar_eq_ok {v : Value} (h : IsScalar v) : jsonScalar v = .ok (scalarText v) := by
  rcases h with ⟨text, htext⟩
  rw [scalarText, htext]
  rfl

theorem encode_scalar {v : Value} (h : IsScalar v) (level : Nat) :
    encode level v = .ok (scalarText v) ∧ v.sorted = v := by
  have htext := jsonScalar_eq_ok h
  cases v with
  | list items => exact absurd htext (error_ne_ok _ _)
  | dict entries => exact absurd htext (error_ne_ok _ _)
  | bytes b => exact absurd htext (error_ne_ok _ _)
  | none => exact ⟨htext, rfl⟩
  | bool b => exact ⟨htext, rfl⟩
  | int n => exact ⟨htext, rfl⟩
  | str s => exact ⟨htext, rfl⟩

theorem encodeEntries_scalars {entries : List (Str × Value)}
    (h : ∀ entry ∈ entries, IsScalar entry.2) (level : Nat) :
    encodeEntries level entries = .ok (entries.map fun entry => (entry.1, scalarText entry.2)) ∧
      sortedEntries entries = entries := by
  induction entries with
  | nil => exact ⟨rfl, rfl⟩
  | cons entry entries ih =>
      rcases entry with ⟨key, value⟩
      have hvalue := encode_scalar (h _ List.mem_cons_self) level
      have hrest := ih fun e he => h e (List.mem_cons_of_mem _ he)
      constructor
      · rw [encodeEntries, hvalue.1, hrest.1]
        rfl
      · rw [sortedEntries, hvalue.2, hrest.2]

/-- For a dictionary without containers, the two descriptions of `json.dumps`
    agree. -/
theorem dumps_eq_encode {entries : List (Str × Value)}
    (h : ∀ entry ∈ entries, IsScalar entry.2) : dumps entries = encode 0 (.dict entries) := by
  have hlines : ((entries.insertionSort fun a b => a.1 ≤ b.1).mapM fun entry => do
      let text ← jsonScalar entry.2
      return Str.ofString "  " ++ jsonString entry.1 ++ Str.ofString ": " ++ text) =
        (.ok ((entries.insertionSort fun a b => a.1 ≤ b.1).map fun entry =>
          Str.ofString "  " ++ member (entry.1, scalarText entry.2)) :
            Except PyErr (List Str)) := by
    refine mapM_eq_ok_map fun entry hentry => ?_
    rw [jsonScalar_eq_ok (h entry ((List.mem_insertionSort _).mp hentry)), member]
    simp only [List.append_assoc]
    rfl
  have hbrace : Str.ofString "\x7b\n" = Str.ofString "\x7b" ++ Str.ofString "\n" := by decide
  have hcomma : Str.ofString ",\n" = Str.ofString "," ++ Str.ofString "\n" := by decide
  have hclose : Str.ofString "\n\x7d" = Str.ofString "\n" ++ Str.ofString "\x7d" := by decide
  have hindent : newline 1 = Str.ofString "\n" ++ Str.ofString "  " := by decide
  have hend : newline 0 = Str.ofString "\n" := by decide
  unfold dumps
  simp only [encode, (encodeEntries_scalars h 1).1, hlines]
  dsimp only [bind, Except.bind]
  rw [← List.map_insertionSort (fun a b : Str × Value => a.1 ≤ b.1) _
    (fun entry : Str × Value => (entry.1, scalarText entry.2)) entries fun _ _ _ _ => Iff.rfl,
    List.map_map, bracketed]
  by_cases hnil : entries = []
  · rw [hnil]
    rfl
  · have hsorted : (entries.insertionSort fun a b => a.1 ≤ b.1).map
        (member ∘ fun entry : Str × Value => (entry.1, scalarText entry.2)) ≠ [] := by
      rw [Ne, List.map_eq_nil_iff]
      intro hempty
      have hperm := List.perm_insertionSort (fun a b : Str × Value => a.1 ≤ b.1) entries
      rw [hempty] at hperm
      exact hnil hperm.symm.eq_nil
    have hlayout := intercalate_indented (Str.ofString "  ") (Str.ofString ",\n") hsorted
    rw [List.map_map] at hlayout
    rw [if_neg hnil, if_neg hsorted, hend, hindent]
    change Except.ok (_ ++ (Str.ofString ",\n").intercalate (List.map
      ((fun text => Str.ofString "  " ++ text) ∘ member ∘ fun entry : Str × Value =>
        (entry.1, scalarText entry.2)) (entries.insertionSort fun a b => a.1 ≤ b.1)) ++ _) = _
    rw [hlayout, hbrace, hcomma, hclose]
    simp only [List.append_assoc]
    rfl

/-- ASCII text has no surrogates. -/
theorem joinless_ascii {s : Str} (h : ∀ c ∈ s, c.val < 128) : Joinless s := by
  induction s with
  | nil => exact List.IsChain.nil
  | cons c s ih =>
      have hrest := ih fun d hd => h d (List.mem_cons_of_mem c hd)
      have hc := h c List.mem_cons_self
      cases s with
      | nil => exact List.IsChain.singleton c
      | cons d s =>
          refine List.IsChain.cons_cons (fun hhigh => ?_) hrest
          rw [isHighSurrogate, decide_eq_true_eq] at hhigh
          omega

/-- A dictionary of ASCII strings and integers that are not too long is read
    back. -/
theorem loadsBack_loads (depth : Nat) {entries : List (Str × Value)}
    (hnodup : (entries.map Prod.fst).Nodup)
    (hint : ∀ entry ∈ entries, ∀ n, entry.2 = .int n → n.natAbs < 10 ^ maxStrDigits) :
    LoadsBack (loads float (depth + 1)) entries := by
  intro hflat text htext
  have hscalar : ∀ entry ∈ entries, IsScalar entry.2 := by
    intro entry hentry
    rcases (hflat entry hentry).2 with ⟨n, hn⟩ | ⟨s, hs, -⟩
    · exact ⟨_, by rw [hn]; rfl⟩
    · exact ⟨_, by rw [hs]; rfl⟩
  have hportable : (Value.dict entries).Portable (depth + 1) := by
    refine ⟨hnodup, fun entry hentry => ⟨joinless_ascii (hflat entry hentry).1, ?_⟩⟩
    rcases (hflat entry hentry).2 with ⟨n, hn⟩ | ⟨s, hs, hascii⟩
    · have hlt := hint entry hentry n hn
      rw [hn, Value.Portable.eq_def]
      exact hlt
    · rw [hs, Value.Portable.eq_def]
      exact joinless_ascii hascii
  rw [dumps_eq_encode hscalar] at htext
  refine ⟨_, loads_encode float hportable htext isJsonSpace_newline, ?_⟩
  rw [(encodeEntries_scalars hscalar 0).2]
  exact sameDict_of_perm (List.perm_insertionSort _ _) hnodup

/-- The dictionary of an envelope is read back. -/
theorem loadsBack_entries (depth : Nat) (e : ConnectionProof) :
    LoadsBack (loads float (depth + 1)) e.entries := by
  have hkeys : (e.entries.map Prod.fst).Nodup := by
    have hnodup : expectedKeys.Nodup := by decide
    exact hnodup
  -- Every integer of an envelope fits 63 bits.
  have hbound : ∀ n : Int, 0 ≤ n → n ≤ 0x7FFFFFFFFFFFFFFF → n.natAbs < 10 ^ maxStrDigits := by
    intro n hn hmax
    have hsmall : n.natAbs < 10 ^ 20 := by omega
    exact Nat.lt_of_lt_of_le hsmall (Nat.pow_le_pow_right (by decide) (by decide))
  refine loadsBack_loads float depth hkeys fun entry hentry n hn => ?_
  have hversion := e.admitted.version
  have hindex := e.admitted.inputIndex
  have hroots := e.admitted.rootCertificatesVersion
  have hmask := e.admitted.signatureAlgorithmsMask
  have htime := e.admitted.validationTime
  have henvelope : envelopeVersion = 2 := rfl
  simp only [ConnectionProof.entries, Fields.entries, List.mem_cons, List.not_mem_nil, or_false] at hentry
  rcases hentry with rfl | rfl | rfl | rfl | rfl | rfl | rfl | rfl | rfl | rfl
  · exact absurd hn (by simp)
  · exact hbound n (by simp at hn; omega) (by simp at hn; omega)
  · exact absurd hn (by simp)
  · exact absurd hn (by simp)
  · exact hbound n (by simp at hn; omega) (by simp at hn; omega)
  · exact absurd hn (by simp)
  · exact hbound n (by simp at hn; omega) (by simp at hn; omega)
  · exact hbound n (by simp at hn; omega) (by simp at hn; omega)
  · exact hbound n (by simp at hn; omega) (by simp at hn; omega)
  · exact absurd hn (by simp)

end Reading

end P2CTools
