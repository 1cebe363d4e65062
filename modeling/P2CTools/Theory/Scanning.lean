import P2CTools.Theory.Json
import Mathlib.Data.List.TakeWhile

/-!
# Scanning

What the scanner of JSON leaves of its text, and what it raises.

Two limits of the interpreter are no matter of syntax. An integer of too many
digits is a plain `ValueError`, and too many containers inside each other are a
`RecursionError`. To say what they are about, one needs to know where in a
document a bracket opens a container and digits begin a number. A `Position` is
that much: it follows the text from left to right, through strings and their
escapes, and decodes nothing.

The scanner takes its text from the front, so each of its functions leads from
a position to a later one. Behind a value as many containers are open as in
front of it, which is why brackets side by side do not add up. A value leaves
less than it was given, so the loops over items end within their bounds.

## Main definitions

* `Position`, `Position.after`: Where a point of a document is.
* `LongInteger`: An integer that is over the limit.
* `DecodeFailure`: An error of `json.loads`, and what it is about.
* `Scanned`: What a scanner leaves and raises.

## Theorems

* `scanned_scanString`: A string is left at its end.
* `scanned_scanValue`: A value leaves as many containers open as it found.
* `fails_loads`: What `json.loads` raises.
-/

namespace P2CTools

open Wire

/-! ### Positions -/

/-- Where a point of a document is. -/
structure Position where
  /-- The point is in a string. -/
  quoted : Bool
  /-- It is behind a backslash that escapes what follows. -/
  escaped : Bool
  /-- How many containers are open. -/
  depth : Nat
  /-- A value may begin. -/
  fresh : Bool

namespace Position

/-- The front of a document. -/
def first : Position :=
  ⟨false, false, 0, true⟩

/-- The point behind one code point more. -/
def next (p : Position) (c : CodePoint) : Position :=
  if p.quoted then
    if p.escaped then { p with escaped := false }
    else if c.val = 92 then { p with escaped := true }
    else if c.val = 34 then { p with quoted := false }
    else p
  else if c.val = 34 then { p with quoted := true, fresh := false }
  else if c.val = 91 then { p with depth := p.depth + 1, fresh := true }
  else if c.val = 123 then { p with depth := p.depth + 1, fresh := false }
  else if c.val = 93 ∨ c.val = 125 then { p with depth := p.depth - 1, fresh := false }
  else if c.val = 44 ∨ c.val = 58 then { p with fresh := true }
  else if isJsonSpace c then p
  else { p with fresh := false }

/-- The point behind a text. -/
def after (p : Position) (text : Str) : Position :=
  text.foldl next p

@[simp] theorem after_nil (p : Position) : p.after [] = p := rfl

@[simp] theorem after_cons (p : Position) (c : CodePoint) (text : Str) :
    p.after (c :: text) = (p.next c).after text := rfl

theorem after_append (p : Position) (front text : Str) :
    p.after (front ++ text) = (p.after front).after text :=
  List.foldl_append

/-- Outside of strings, in so many containers. -/
structure Plain (n : Nat) (p : Position) : Prop where
  quoted : p.quoted = false
  escaped : p.escaped = false
  depth : p.depth = n

/-- Where a value may begin, in so many containers. -/
structure Fresh (n : Nat) (p : Position) : Prop extends Plain n p where
  fresh : p.fresh = true

/-- In a string, in so many containers. -/
structure Quoted (n : Nat) (p : Position) : Prop where
  quoted : p.quoted = true
  escaped : p.escaped = false
  depth : p.depth = n

theorem fresh_first : first.Fresh 0 :=
  ⟨⟨rfl, rfl, rfl⟩, rfl⟩

section Next

variable {n : Nat} {p : Position} {c : CodePoint}

/-- A code point that is no quotation mark and no bracket. -/
def Quiet (c : CodePoint) : Prop :=
  c.val ≠ 34 ∧ c.val ≠ 91 ∧ c.val ≠ 123 ∧ c.val ≠ 93 ∧ c.val ≠ 125

instance (c : CodePoint) : Decidable (Quiet c) :=
  inferInstanceAs (Decidable (c.val ≠ 34 ∧ c.val ≠ 91 ∧ c.val ≠ 123 ∧ c.val ≠ 93 ∧ c.val ≠ 125))

theorem Plain.quote (hp : p.Plain n) (hc : c.val = 34) : (p.next c).Quoted n := by
  unfold next
  rw [hp.quoted, if_neg Bool.false_ne_true, if_pos hc]
  exact ⟨rfl, hp.escaped, hp.depth⟩

theorem Plain.bracket (hp : p.Plain n) (hc : c.val = 91) : (p.next c).Fresh (n + 1) := by
  unfold next
  rw [hp.quoted, if_neg Bool.false_ne_true, if_neg (by omega), if_pos hc]
  exact ⟨⟨rfl, hp.escaped, congrArg (· + 1) hp.depth⟩, rfl⟩

theorem Plain.brace (hp : p.Plain n) (hc : c.val = 123) : (p.next c).Plain (n + 1) := by
  unfold next
  rw [hp.quoted, if_neg Bool.false_ne_true, if_neg (by omega), if_neg (by omega), if_pos hc]
  exact ⟨rfl, hp.escaped, congrArg (· + 1) hp.depth⟩

theorem Plain.close (hp : p.Plain (n + 1)) (hc : c.val = 93 ∨ c.val = 125) :
    (p.next c).Plain n := by
  unfold next
  rw [hp.quoted, if_neg Bool.false_ne_true, if_neg (by omega), if_neg (by omega),
    if_neg (by omega), if_pos hc]
  exact ⟨rfl, hp.escaped, by rw [hp.depth, Nat.add_sub_cancel]⟩

theorem Plain.separator (hp : p.Plain n) (hc : c.val = 44 ∨ c.val = 58) :
    (p.next c).Fresh n := by
  unfold next
  rw [hp.quoted, if_neg Bool.false_ne_true, if_neg (by omega), if_neg (by omega),
    if_neg (by omega), if_neg (by omega), if_pos hc]
  exact ⟨⟨rfl, hp.escaped, hp.depth⟩, rfl⟩

theorem Plain.space (hp : p.Plain n) (hc : isJsonSpace c = true) : p.next c = p := by
  have hval := of_decide_eq_true hc
  unfold next
  rw [hp.quoted, if_neg Bool.false_ne_true, if_neg (by omega), if_neg (by omega),
    if_neg (by omega), if_neg (by omega), if_neg (by omega), if_pos hc]

theorem Plain.quiet (hp : p.Plain n) (hc : Quiet c) : (p.next c).Plain n := by
  rcases hc with ⟨hquote, hbracket, hbrace, hclose, hclose'⟩
  unfold next
  rw [hp.quoted, if_neg Bool.false_ne_true, if_neg hquote, if_neg hbracket, if_neg hbrace,
    if_neg fun h => h.elim hclose hclose']
  split
  · exact ⟨rfl, hp.escaped, hp.depth⟩
  split
  · exact hp
  · exact ⟨rfl, hp.escaped, hp.depth⟩

theorem Plain.after (hp : p.Plain n) {front : Str} (h : ∀ c ∈ front, Quiet c) :
    (p.after front).Plain n := by
  induction front generalizing p with
  | nil => exact hp
  | cons c front ih =>
      exact ih (hp.quiet (h c List.mem_cons_self)) fun d hd => h d (List.mem_cons_of_mem c hd)

theorem Quoted.quote (hp : p.Quoted n) (hc : c.val = 34) : (p.next c).Plain n := by
  unfold next
  rw [hp.quoted, if_pos rfl, hp.escaped, if_neg Bool.false_ne_true, if_neg (by omega), if_pos hc]
  exact ⟨rfl, rfl, hp.depth⟩

theorem Quoted.plain (hp : p.Quoted n) (hquote : c.val ≠ 34) (hescape : c.val ≠ 92) :
    (p.next c).Quoted n := by
  unfold next
  rw [hp.quoted, if_pos rfl, hp.escaped, if_neg Bool.false_ne_true, if_neg hescape, if_neg hquote]
  exact hp

/-- A backslash and what it escapes. -/
theorem Quoted.escape (hp : p.Quoted n) (hc : c.val = 92) (d : CodePoint) :
    ((p.next c).next d).Quoted n := by
  have hnext : p.next c = { p with escaped := true } := by
    unfold next
    rw [hp.quoted, if_pos rfl, hp.escaped, if_neg Bool.false_ne_true, if_pos hc]
  rw [hnext, next, hp.quoted, if_pos rfl, if_pos rfl]
  exact ⟨rfl, rfl, hp.depth⟩

end Next

/-- Of brackets side by side one is open at a time, and in a string none. -/
example : (first.after (Str.ofString "[[][][")).depth = 2 ∧
    (first.after (Str.ofString "[\"[[[\\\"[")).depth = 1 := by
  decide

end Position

/-! ### Limits -/

/-- Digits that are an integer in front of a rest, and more of them than the
    interpreter converts. -/
structure LongInteger (digits rest : Str) : Prop where
  long : maxStrDigits < digits.length
  digits : ∀ c ∈ digits, isDigit c = true
  /-- The digits do not go on. -/
  ended : ∀ c ∈ rest.head?, isDigit c = false
  /-- It is no floating-point number. -/
  whole : (fractionPart rest).1 = [] ∧ (exponentPart rest).1 = []

/-- Somewhere in a text, where a value may begin, there is an integer that is
    too long, with a sign or without. -/
def LongNumber (p : Position) (text : Str) : Prop :=
  ∃ front sign digits rest, front ++ sign ++ digits ++ rest = text ∧
    (∃ n, (p.after front).Fresh n) ∧ (sign = [] ∨ sign = Str.ofString "-") ∧
    LongInteger digits rest

/-- Somewhere in a text more containers are open than a limit. -/
def TooNested (limit : Nat) (p : Position) (text : Str) : Prop :=
  ∃ front, front <+: text ∧ limit < (p.after front).depth

/-- An error of `json.loads`. -/
def DecodeFailure (limit : Nat) (p : Position) (text : Str) (e : PyErr) : Prop :=
  e.cls = .jsonDecodeError ∨ (e = digitsError ∧ LongNumber p text) ∨
    (e = recursionError ∧ TooNested limit p text)

/-- What an error is about is found behind any front. -/
theorem DecodeFailure.behind {limit : Nat} {p : Position} {front text : Str} {e : PyErr}
    (h : DecodeFailure limit (p.after front) text e) :
    DecodeFailure limit p (front ++ text) e := by
  rcases h with h | ⟨he, front', sign, digits, rest, rfl, hfresh, hlong⟩ |
    ⟨he, front', hfront, hdeep⟩
  · exact Or.inl h
  · refine Or.inr (Or.inl ⟨he, front ++ front', sign, digits, rest, ?_, ?_, hlong⟩)
    · simp only [List.append_assoc]
    · rw [Position.after_append]
      exact hfresh
  · refine Or.inr (Or.inr ⟨he, front ++ front', ?_, ?_⟩)
    · exact (List.prefix_append_right_inj front).mpr hfront
    · rw [Position.after_append]
      exact hdeep

/-! ### Scanners -/

/-- From a position, what is found leads to one outside of strings, in so many
    containers, and what is raised is about the text. -/
structure Scanned {α : Type} (limit : Nat) (p : Position) (n : Nat) (text : Str)
    (r : Except PyErr (α × Str)) : Prop where
  rest : ∀ found, r = .ok found → ∃ front, front ++ found.2 = text ∧ (p.after front).Plain n
  fails : Fails (DecodeFailure limit p text) r

section Combine

variable {α β : Type} {limit m n : Nat} {p : Position} {text : Str}

theorem scanned_ok {found : α × Str} (front : Str) (h : front ++ found.2 = text)
    (hp : (p.after front).Plain n) : Scanned limit p n text (.ok found) := by
  refine ⟨fun found' hfound => ?_, fails_ok found⟩
  rw [← Except.ok.inj hfound]
  exact ⟨front, h, hp⟩

theorem scanned_decodeError (msg : String) :
    Scanned limit p n text (.error (decodeError msg) : Except PyErr (α × Str)) :=
  ⟨fun found h => absurd h (error_ne_ok _ found), fails_error (Or.inl rfl)⟩

/-- A scanner behind a front. -/
theorem Scanned.behind {r : Except PyErr (α × Str)} (front : Str)
    (h : Scanned limit (p.after front) n text r) : Scanned limit p n (front ++ text) r := by
  refine ⟨fun found hfound => ?_, h.fails.mono fun _ he => he.behind⟩
  rcases h.rest found hfound with ⟨front', hrest, hplain⟩
  refine ⟨front ++ front', ?_, ?_⟩
  · rw [List.append_assoc, hrest]
  · rw [Position.after_append]
    exact hplain

/-- One scanner after another. -/
theorem Scanned.bind {x : Except PyErr (α × Str)} {f : α × Str → Except PyErr (β × Str)}
    (hx : Scanned limit p m text x)
    (hf : ∀ found front, x = .ok found → front ++ found.2 = text → (p.after front).Plain m →
      Scanned limit (p.after front) n found.2 (f found)) : Scanned limit p n text (x >>= f) := by
  have hbehind : ∀ found, x = .ok found → Scanned limit p n text (f found) := by
    intro found hfound
    rcases hx.rest found hfound with ⟨front, htext, hplain⟩
    have hscanned := (hf found front hfound htext hplain).behind front
    rw [htext] at hscanned
    exact hscanned
  refine ⟨fun found h => ?_, hx.fails.bind fun a ha => (hbehind a ha).fails⟩
  rcases (bind_eq_ok_iff _ _ _).mp h with ⟨a, ha, hfound⟩
  exact (hbehind a ha).rest found hfound

/-- What is found is put together with something, and the rest stays. -/
theorem Scanned.map {x : Except PyErr (α × Str)} (hx : Scanned limit p n text x) (f : α → β) :
    Scanned limit p n text (x >>= fun found => pure (f found.1, found.2)) :=
  hx.bind fun _ _ _ _ hplain => scanned_ok [] (List.nil_append _) hplain

/-- White space is passed over. -/
theorem exists_spaces (hp : p.Plain n) (text : Str) :
    ∃ spaces, spaces ++ skipSpace text = text ∧ p.after spaces = p := by
  refine ⟨text.takeWhile isJsonSpace, List.takeWhile_append_dropWhile, ?_⟩
  have hspaces : ∀ c ∈ text.takeWhile isJsonSpace, isJsonSpace c = true :=
    fun c hc => List.mem_takeWhile_imp hc
  generalize text.takeWhile isJsonSpace = spaces at hspaces
  induction spaces with
  | nil => rfl
  | cons c spaces ih =>
      rw [Position.after_cons, hp.space (hspaces c List.mem_cons_self)]
      exact ih fun d hd => hspaces d (List.mem_cons_of_mem c hd)

theorem Scanned.skip {r : Except PyErr (α × Str)} (hp : p.Plain m)
    (h : Scanned limit p n (skipSpace text) r) : Scanned limit p n text r := by
  rcases exists_spaces hp text with ⟨spaces, htext, hsame⟩
  rw [← hsame] at h
  have hscanned := h.behind spaces
  rw [htext] at hscanned
  exact hscanned

/-- A code point that has to be there is passed over. -/
theorem Scanned.expect {code : Nat} {msg : String} {f : Str → Except PyErr (β × Str)}
    (hf : ∀ c rest, c.val = code → text = c :: rest → Scanned limit (p.next c) n rest (f rest)) :
    Scanned limit p n text (expect code (decodeError msg) text >>= f) := by
  cases text with
  | nil => exact scanned_decodeError msg
  | cons c rest =>
      rw [P2CTools.expect]
      by_cases hc : c.val = code
      · rw [if_pos hc]
        exact (hf c rest hc rfl).behind [c]
      · rw [if_neg hc]
        exact scanned_decodeError msg

end Combine

theorem length_skipSpace (text : Str) : (skipSpace text).length ≤ text.length :=
  (List.dropWhile_suffix _).length_le

/-! ### Strings -/

/-- A hexadecimal digit is no quotation mark and no backslash. -/
theorem hexValue_plain {c : CodePoint} {v : Nat} (h : hexValue c = some v) :
    c.val ≠ 34 ∧ c.val ≠ 92 := by
  unfold hexValue at h
  by_cases hdigit : 48 ≤ c.val ∧ c.val ≤ 57
  · omega
  · rw [if_neg hdigit] at h
    by_cases hlower : 97 ≤ c.val ∧ c.val ≤ 102
    · omega
    · rw [if_neg hlower] at h
      by_cases hupper : 65 ≤ c.val ∧ c.val ≤ 70
      · omega
      · rw [if_neg hupper] at h
        exact absurd h (by simp)

/-- Behind an escape of four digits one is still in the string. -/
theorem Position.Quoted.quad {n : Nat} {p : Position} {c d h₁ h₂ h₃ h₄ : CodePoint} {v : Nat}
    (hp : p.Quoted n) (hc : c.val = 92) (hquad : hexQuad h₁ h₂ h₃ h₄ = some v) :
    (p.after [c, d, h₁, h₂, h₃, h₄]).Quoted n := by
  unfold hexQuad at hquad
  simp only [Option.bind_eq_bind, Option.bind_eq_some_iff] at hquad
  rcases hquad with ⟨v₁, h₁', v₂, h₂', v₃, h₃', v₄, h₄', -⟩
  have plain : ∀ {q : Position} {h : CodePoint} {v : Nat}, q.Quoted n → hexValue h = some v →
      (q.next h).Quoted n := fun hq hh => hq.plain (hexValue_plain hh).1 (hexValue_plain hh).2
  exact plain (plain (plain (plain (hp.escape hc d) h₁') h₂') h₃') h₄'

/-- A string is left at its end. -/
theorem scanned_scanString {limit n : Nat} (high : Option Nat) (text : Str) {p : Position}
    (hp : p.Quoted n) : Scanned limit p n text (scanString high text) := by
  fun_induction scanString high text generalizing p with
  | case1 high => exact scanned_decodeError _
  | case2 high c rest hquote =>
      exact scanned_ok [c] rfl (hp.quote hquote)
  | case3 high c rest hquote hcontrol => exact scanned_decodeError _
  | case4 high c rest hquote hcontrol hplain ih =>
      exact ((ih (hp.plain hquote hplain)).behind [c]).map fun tail => alone high ++ c :: tail
  | case5 high c => exact scanned_decodeError _
  | case6 high c => exact scanned_decodeError _
  | case7 high c => exact scanned_decodeError _
  | case8 high c _ _ hescape d _ h₁ h₂ h₃ h₄ rest n hquad _ _ ih =>
      exact ((ih (hp.quad (not_not.mp hescape) hquad)).behind [c, d, h₁, h₂, h₃, h₄]).map
        fun tail => alone high ++ tail
  | case9 high c _ _ hescape d _ h₁ h₂ h₃ h₄ rest n hquad _ _ _ ih =>
      exact ((ih (hp.quad (not_not.mp hescape) hquad)).behind [c, d, h₁, h₂, h₃, h₄]).map
        fun tail => Fin.ofNat 0x110000 (joinSurrogates (high.getD 0) n) :: tail
  | case10 high c _ _ hescape d _ h₁ h₂ h₃ h₄ rest n hquad _ _ _ ih =>
      exact ((ih (hp.quad (not_not.mp hescape) hquad)).behind [c, d, h₁, h₂, h₃, h₄]).map
        fun tail => alone high ++ Fin.ofNat 0x110000 n :: tail
  | case11 high c => exact scanned_decodeError _
  | case12 high c => exact scanned_decodeError _
  | case13 high c _ _ hescape d rest _ e _ ih =>
      exact ((ih (hp.escape (not_not.mp hescape) d)).behind [c, d]).map
        fun tail => alone high ++ e :: tail

theorem length_scanString {high : Option Nat} {text : Str} {found : Str × Str}
    (h : scanString high text = .ok found) : found.2.length ≤ text.length := by
  have hscanned : Scanned 0 ⟨true, false, 0, true⟩ 0 text (scanString high text) :=
    scanned_scanString high text ⟨rfl, rfl, rfl⟩
  rcases hscanned.rest found h with ⟨front, rfl, -⟩
  rw [List.length_append]
  exact Nat.le_add_left _ _

/-! ### Numbers -/

theorem quiet_of_all {text : Str} (h : text.all (fun c => decide (Position.Quiet c)) = true) :
    ∀ c ∈ text, Position.Quiet c :=
  fun c hc => of_decide_eq_true (List.all_eq_true.mp h c hc)

theorem quiet_of_isDigit {c : CodePoint} (h : isDigit c = true) : Position.Quiet c := by
  have hval := of_decide_eq_true h
  unfold Position.Quiet
  omega

/-- The integer part is the front of the text, and is made of digits. If they
    are more than one, they are all that there are. -/
theorem integerPart_eq_some {text digits rest : Str} (h : integerPart text = some (digits, rest)) :
    digits ++ rest = text ∧ digits ≠ [] ∧ (∀ c ∈ digits, isDigit c = true) ∧
      (1 < digits.length → ∀ c ∈ rest.head?, isDigit c = false) := by
  cases text with
  | nil => exact absurd h (by simp [integerPart])
  | cons c text =>
      rw [integerPart] at h
      by_cases hzero : c.val = 48
      · rw [if_pos hzero, Option.some.injEq, Prod.mk.injEq] at h
        rw [← h.1, ← h.2]
        refine ⟨rfl, List.cons_ne_nil _ _, fun d hd => ?_, fun hlong => ?_⟩
        · rw [List.mem_singleton.mp hd, isDigit, decide_eq_true_eq]
          omega
        · exact absurd hlong (Nat.lt_irrefl 1)
      · rw [if_neg hzero] at h
        by_cases hdigit : isDigit c = true
        · rw [if_pos hdigit, Option.some.injEq, Prod.mk.injEq] at h
          rw [← h.1, ← h.2]
          refine ⟨?_, List.cons_ne_nil _ _, fun d hd => ?_, fun _ d hd => ?_⟩
          · rw [List.cons_append, List.takeWhile_append_dropWhile]
          · rcases List.mem_cons.mp hd with rfl | hd
            · exact hdigit
            · exact List.mem_takeWhile_imp hd
          · have hnot := List.head?_dropWhile_not isDigit text
            rw [Option.mem_def.mp hd] at hnot
            exact hnot
        · rw [if_neg hdigit] at h
          exact absurd h (by simp)

theorem quiet_takeWhile (text : Str) : ∀ c ∈ text.takeWhile isDigit, Position.Quiet c :=
  fun _ hc => quiet_of_isDigit (List.mem_takeWhile_imp hc)

/-- The fraction is the front of the text. -/
theorem fractionPart_append (text : Str) :
    (fractionPart text).1 ++ (fractionPart text).2 = text ∧
      ∀ c ∈ (fractionPart text).1, Position.Quiet c := by
  unfold fractionPart
  split
  · next p d rest =>
      split
      · next h =>
          refine ⟨?_, fun c hc => ?_⟩
          · simp only [List.cons_append, List.takeWhile_append_dropWhile]
          · rcases List.mem_cons.mp hc with rfl | hc
            · unfold Position.Quiet
              omega
            rcases List.mem_cons.mp hc with rfl | hc
            · exact quiet_of_isDigit h.2
            · exact quiet_takeWhile rest c hc
      · exact ⟨rfl, fun c hc => absurd hc List.not_mem_nil⟩
  · exact ⟨rfl, fun c hc => absurd hc List.not_mem_nil⟩

/-- Without a fraction, all of the text is left. -/
theorem fractionPart_rest {text : Str} (h : (fractionPart text).1 = []) :
    (fractionPart text).2 = text := by
  have happend := (fractionPart_append text).1
  rw [h, List.nil_append] at happend
  exact happend

theorem signPart_append (text : Str) :
    (signPart text).1 ++ (signPart text).2 = text ∧
      ∀ c ∈ (signPart text).1, Position.Quiet c := by
  cases text with
  | nil => exact ⟨rfl, fun c hc => absurd hc List.not_mem_nil⟩
  | cons c text =>
      rw [signPart]
      split
      · refine ⟨rfl, fun d hd => ?_⟩
        rw [List.mem_singleton.mp hd]
        unfold Position.Quiet
        omega
      · exact ⟨rfl, fun c hc => absurd hc List.not_mem_nil⟩

/-- The exponent is the front of the text. -/
theorem exponentPart_append (text : Str) :
    (exponentPart text).1 ++ (exponentPart text).2 = text ∧
      ∀ c ∈ (exponentPart text).1, Position.Quiet c := by
  cases text with
  | nil => exact ⟨rfl, fun c hc => absurd hc List.not_mem_nil⟩
  | cons e text =>
      rw [exponentPart]
      split
      · exact ⟨rfl, fun c hc => absurd hc List.not_mem_nil⟩
      split
      · exact ⟨rfl, fun c hc => absurd hc List.not_mem_nil⟩
      · rcases signPart_append text with ⟨hsign, hquiet⟩
        refine ⟨?_, fun c hc => ?_⟩
        · rw [List.append_assoc, List.takeWhile_append_dropWhile, List.cons_append, hsign]
        · rw [List.cons_append] at hc
          rcases List.mem_cons.mp hc with rfl | hc
          · unfold Position.Quiet
            omega
          rcases List.mem_append.mp hc with hc | hc
          · exact hquiet c hc
          · exact quiet_takeWhile _ c hc

section Float

variable (float : Str → Value) {limit n : Nat} {p : Position}

/-- An unsigned number leaves less than it was given. -/
theorem length_scanUnsigned {negative : Bool} {text : Str} {found : Value × Str}
    (h : scanUnsigned float negative text = .ok found) : found.2.length < text.length := by
  unfold scanUnsigned at h
  cases hinteger : integerPart text with
  | none =>
      rw [hinteger] at h
      exact absurd h (error_ne_ok _ _)
  | some part =>
      rcases part with ⟨digits, rest⟩
      rcases integerPart_eq_some hinteger with ⟨htext, hne, -⟩
      have hpos := List.length_pos_of_ne_nil hne
      have hfraction := congrArg List.length (fractionPart_append rest).1
      have hexponent := congrArg List.length (exponentPart_append (fractionPart rest).2).1
      have hlength := congrArg List.length htext
      rw [List.length_append] at hfraction hexponent hlength
      rw [hinteger] at h
      dsimp only at h
      split at h
      · split at h
        · exact absurd h (error_ne_ok _ _)
        · rw [← Except.ok.inj h]
          dsimp only
          omega
      · rw [← Except.ok.inj h]
        dsimp only
        omega

/-- A number is refused if it is an integer that is too long. The sign is in
    front of where this scanner begins. -/
theorem scanned_scanUnsigned (hp : p.Fresh n) {negative : Bool} (sign text : Str)
    (hsign : sign = [] ∨ sign = Str.ofString "-") :
    Scanned limit p n (sign ++ text) (scanUnsigned float negative text) := by
  have hquiet : ∀ c ∈ sign, Position.Quiet c := by
    rcases hsign with rfl | rfl
    · exact fun c hc => absurd hc List.not_mem_nil
    · exact quiet_of_all rfl
  unfold scanUnsigned
  cases hinteger : integerPart text with
  | none => exact scanned_decodeError _
  | some part =>
      rcases part with ⟨digits, rest⟩
      rcases integerPart_eq_some hinteger with ⟨htext, -, hdigits, hended⟩
      rcases fractionPart_append rest with ⟨hfraction, hquietFraction⟩
      rcases exponentPart_append (fractionPart rest).2 with ⟨hexponent, hquietExponent⟩
      have hfront : ∀ c ∈ sign ++ digits ++ (fractionPart rest).1 ++
          (exponentPart (fractionPart rest).2).1, Position.Quiet c := by
        intro c hc
        simp only [List.mem_append] at hc
        rcases hc with ((hc | hc) | hc) | hc
        · exact hquiet c hc
        · exact quiet_of_isDigit (hdigits c hc)
        · exact hquietFraction c hc
        · exact hquietExponent c hc
      have hwhole : sign ++ digits ++ (fractionPart rest).1 ++
          (exponentPart (fractionPart rest).2).1 ++ (exponentPart (fractionPart rest).2).2 =
          sign ++ text := by
        rw [List.append_assoc, hexponent, List.append_assoc, hfraction, List.append_assoc, htext]
      dsimp only
      by_cases hint : (fractionPart rest).1 = [] ∧ (exponentPart (fractionPart rest).2).1 = []
      · rw [if_pos hint]
        by_cases hlong : digits.length > maxStrDigits
        · rw [if_pos hlong]
          refine ⟨fun found h => absurd h (error_ne_ok _ _), fails_error ?_⟩
          have hexponent := hint.2
          rw [fractionPart_rest hint.1] at hexponent
          refine Or.inr (Or.inl ⟨rfl, [], sign, digits, rest, ?_, ⟨n, hp⟩, hsign, hlong, hdigits,
            hended (lt_trans (by decide) hlong), hint.1, hexponent⟩)
          rw [List.nil_append, List.append_assoc, htext]
        · rw [if_neg hlong]
          exact scanned_ok _ hwhole (hp.toPlain.after hfront)
      · rw [if_neg hint]
        exact scanned_ok _ hwhole (hp.toPlain.after hfront)

/-- A number behind its sign. -/
theorem scanned_scanNumber (hp : p.Fresh n) (text : Str) :
    Scanned limit p n text (scanNumber float text) := by
  cases text with
  | nil => exact scanned_decodeError _
  | cons c text =>
      rw [scanNumber]
      split
      · next hc =>
          have hsign : [c] = Str.ofString "-" :=
            congrArg (fun d => [d]) (Fin.ext hc)
          exact scanned_scanUnsigned float hp [c] text (Or.inr hsign)
      · exact scanned_scanUnsigned float hp [] (c :: text) (Or.inl rfl)

theorem length_scanNumber {text : Str} {found : Value × Str}
    (h : scanNumber float text = .ok found) : found.2.length < text.length := by
  cases text with
  | nil => exact absurd h (error_ne_ok _ _)
  | cons c text =>
      rw [scanNumber] at h
      split at h
      · exact Nat.lt_of_lt_of_le (length_scanUnsigned float h) (Nat.le_succ _)
      · exact length_scanUnsigned float h

/-- A word is not empty, and has neither quotation marks nor brackets. -/
theorem scanConstant_eq_some {text : Str} {found : Value × Str}
    (h : scanConstant float text = some found) :
    found.2.length < text.length ∧
      ∃ front, front ++ found.2 = text ∧ ∀ c ∈ front, Position.Quiet c := by
  rcases List.exists_of_findSome?_eq_some h with ⟨word, hword, hfound⟩
  have hnames : word.1 ∈ [Str.ofString "null", Str.ofString "true", Str.ofString "false",
      Str.ofString "NaN", Str.ofString "Infinity", Str.ofString "-Infinity"] :=
    List.mem_map_of_mem (f := Prod.fst) hword
  have hwords : ∀ name ∈ [Str.ofString "null", Str.ofString "true", Str.ofString "false",
      Str.ofString "NaN", Str.ofString "Infinity", Str.ofString "-Infinity"],
      name ≠ [] ∧ name.all (fun c => decide (Position.Quiet c)) = true := by
    decide
  rcases hwords word.1 hnames with ⟨hne, hquiet⟩
  have hpos := List.length_pos_of_ne_nil hne
  by_cases hprefix : word.1.isPrefixOf text = true
  · rw [if_pos hprefix, Option.some.injEq] at hfound
    rcases List.isPrefixOf_iff_prefix.mp hprefix with ⟨rest, rfl⟩
    rw [List.drop_left] at hfound
    rw [← hfound, List.length_append]
    exact ⟨Nat.lt_add_of_pos_left hpos, word.1, rfl, quiet_of_all hquiet⟩
  · rw [if_neg hprefix] at hfound
    exact absurd hfound (by simp)

end Float

/-! ### Containers -/

section Loops

variable {limit n : Nat} {nested : Str → Except PyErr (Value × Str)} {p : Position}

/-- The loop over the items ends within its bound, since each item leaves less
    than it was given. -/
theorem scanned_scanItems
    (hnested : ∀ p text, p.Fresh (n + 1) → Scanned limit p (n + 1) text (nested text))
    (hshorter : ∀ text found, nested text = .ok found → found.2.length < text.length) (fuel : Nat)
    (values : List Value) (text : Str) (hp : p.Fresh (n + 1)) (hfuel : text.length < fuel) :
    Scanned limit p n text (scanItems nested fuel values text) := by
  induction fuel generalizing values text p with
  | zero => exact absurd hfuel (Nat.not_lt_zero _)
  | succ fuel ih =>
      rw [scanItems]
      refine (hnested p text hp).bind fun found front hfound htext hplain => ?_
      have hlength := hshorter text found hfound
      rcases found with ⟨value, rest⟩
      dsimp only at hlength ⊢
      refine Scanned.skip hplain ?_
      have hskip := length_skipSpace rest
      split
      · exact scanned_decodeError _
      · next c tail hc =>
          rw [hc, List.length_cons] at hskip
          rw [hc]
          split
          · next hclose => exact scanned_ok [c] rfl (hplain.close (Or.inl hclose))
          split
          · next hcomma =>
              -- A comma has been read, so less is left.
              have hfresh := hplain.separator (Or.inl hcomma)
              have hnext := length_skipSpace tail
              have hscanned := ih (values ++ [value]) (skipSpace tail) hfresh (by omega)
              exact (Scanned.skip hfresh.toPlain hscanned).behind [c]
          · exact scanned_decodeError _

theorem scanned_scanArray
    (hnested : ∀ p text, p.Fresh (n + 1) → Scanned limit p (n + 1) text (nested text))
    (hshorter : ∀ text found, nested text = .ok found → found.2.length < text.length)
    (hp : p.Fresh (n + 1)) (text : Str) : Scanned limit p n text (scanArray nested text) := by
  have hle := length_skipSpace text
  refine Scanned.skip hp.toPlain ?_
  unfold scanArray
  split
  · exact scanned_decodeError _
  · next c rest hc =>
      rw [hc] at hle
      rw [hc]
      split
      · next hclose => exact scanned_ok [c] rfl (hp.toPlain.close (Or.inl hclose))
      · exact scanned_scanItems hnested hshorter _ _ _ hp (by omega)

theorem scanned_scanMember
    (hnested : ∀ p text, p.Fresh n → Scanned limit p n text (nested text))
    (entries : List (Str × Value)) (hp : p.Plain n) (text : Str) :
    Scanned limit p n text (scanMember nested entries text) := by
  unfold scanMember
  refine Scanned.expect fun c rest hquote htext => ?_
  refine (scanned_scanString none rest (hp.quote hquote)).bind fun key front _ _ hkey => ?_
  refine Scanned.skip hkey (Scanned.expect fun d tail hcolon htail => ?_)
  have hfresh := hkey.separator (Or.inr hcolon)
  have hvalue := (hnested _ (skipSpace tail) hfresh).map fun value => setItem entries key.1 value
  exact Scanned.skip hfresh.toPlain hvalue

theorem length_scanMember
    (hshorter : ∀ text found, nested text = .ok found → found.2.length < text.length)
    {entries : List (Str × Value)} {text : Str} {found : List (Str × Value) × Str}
    (h : scanMember nested entries text = .ok found) : found.2.length < text.length := by
  have hexpect : ∀ {code : Nat} {e : PyErr} {text rest : Str},
      expect code e text = .ok rest → rest.length ≤ text.length := by
    intro code e text rest h
    cases text with
    | nil => exact absurd h (error_ne_ok _ _)
    | cons c text =>
        rw [expect] at h
        by_cases hc : c.val = code
        · rw [if_pos hc, Except.ok.injEq] at h
          rw [← h]
          exact Nat.le_succ _
        · rw [if_neg hc] at h
          exact absurd h (error_ne_ok _ _)
  simp only [scanMember, bind_eq_ok_iff, pure_eq_ok_iff] at h
  rcases h with ⟨rest, hrest, key, hkey, tail, htail, value, hvalue, rfl⟩
  have hstring := length_scanString hkey
  have hquote := hexpect hrest
  have hcolon := hexpect htail
  have hspace := length_skipSpace key.2
  have hspace' := length_skipSpace tail
  have hlt := hshorter _ value hvalue
  change value.2.length < text.length
  omega

/-- The same for the loop over the members. -/
theorem scanned_scanMembers
    (hnested : ∀ p text, p.Fresh (n + 1) → Scanned limit p (n + 1) text (nested text))
    (hshorter : ∀ text found, nested text = .ok found → found.2.length < text.length) (fuel : Nat)
    (entries : List (Str × Value)) (text : Str) (hp : p.Plain (n + 1))
    (hfuel : text.length < fuel) :
    Scanned limit p n text (scanMembers nested fuel entries text) := by
  induction fuel generalizing entries text p with
  | zero => exact absurd hfuel (Nat.not_lt_zero _)
  | succ fuel ih =>
      rw [scanMembers]
      refine (scanned_scanMember hnested entries hp text).bind
        fun found front hfound htext hplain => ?_
      have hlength := length_scanMember hshorter hfound
      rcases found with ⟨entries, rest⟩
      dsimp only at hlength hplain ⊢
      refine Scanned.skip hplain ?_
      have hskip := length_skipSpace rest
      split
      · exact scanned_decodeError _
      · next c tail hc =>
          rw [hc, List.length_cons] at hskip
          rw [hc]
          split
          · next hclose => exact scanned_ok [c] rfl (hplain.close (Or.inr hclose))
          split
          · next hcomma =>
              have hfresh := hplain.separator (Or.inl hcomma)
              have hnext := length_skipSpace tail
              have hscanned := ih entries (skipSpace tail) hfresh.toPlain (by omega)
              exact (Scanned.skip hfresh.toPlain hscanned).behind [c]
          · exact scanned_decodeError _

theorem scanned_scanObject
    (hnested : ∀ p text, p.Fresh (n + 1) → Scanned limit p (n + 1) text (nested text))
    (hshorter : ∀ text found, nested text = .ok found → found.2.length < text.length)
    (hp : p.Plain (n + 1)) (text : Str) : Scanned limit p n text (scanObject nested text) := by
  have hle := length_skipSpace text
  refine Scanned.skip hp ?_
  unfold scanObject
  split
  · exact scanned_decodeError _
  · next c rest hc =>
      rw [hc] at hle
      rw [hc]
      split
      · next hclose => exact scanned_ok [c] rfl (hp.close (Or.inr hclose))
      · exact scanned_scanMembers hnested hshorter _ _ _ hp (by omega)

end Loops

/-! ### Documents -/

section Documents

variable (float : Str → Value)

/-- A value leads to where as many containers are open, if arrays and objects
    behind their brackets do. -/
theorem scanned_scanOnce {limit n : Nat} {array object : Str → Except PyErr (Value × Str)}
    {p : Position} (hp : p.Fresh n)
    (harray : ∀ c text, c.val = 91 → Scanned limit p n (c :: text) (array text))
    (hobject : ∀ c text, c.val = 123 → Scanned limit p n (c :: text) (object text))
    (text : Str) : Scanned limit p n text (scanOnce float array object text) := by
  cases text with
  | nil => exact scanned_decodeError _
  | cons c text =>
      rw [scanOnce]
      split
      · next hc =>
          have hstring : Scanned limit (p.next c) n text (scanString none text) :=
            scanned_scanString none text (hp.toPlain.quote hc)
          exact (hstring.map Value.str).behind [c]
      split
      · next hc => exact hobject c text hc
      split
      · next hc => exact harray c text hc
      split
      · next found hfound =>
          rcases (scanConstant_eq_some float hfound).2 with ⟨front, htext, hquiet⟩
          exact scanned_ok front htext (hp.toPlain.after hquiet)
      · exact scanned_scanNumber float hp (c :: text)

/-- It leaves less than it was given. -/
theorem length_scanOnce {array object : Str → Except PyErr (Value × Str)}
    (harray : ∀ text found, array text = .ok found → found.2.length ≤ text.length)
    (hobject : ∀ text found, object text = .ok found → found.2.length ≤ text.length)
    {text : Str} {found : Value × Str} (h : scanOnce float array object text = .ok found) :
    found.2.length < text.length := by
  cases text with
  | nil => exact absurd h (error_ne_ok _ _)
  | cons c text =>
      rw [scanOnce] at h
      split at h
      · rcases (bind_eq_ok_iff _ _ _).mp h with ⟨s, hs, hfound⟩
        rw [← (pure_eq_ok_iff _ _).mp hfound]
        exact Nat.lt_succ_of_le (length_scanString hs)
      split at h
      · exact Nat.lt_succ_of_le (hobject text found h)
      split at h
      · exact Nat.lt_succ_of_le (harray text found h)
      split at h
      · next found' hfound =>
          rw [← Except.ok.inj h]
          exact (scanConstant_eq_some float hfound).1
      · exact length_scanNumber float h

/-- A scanner of values leads to where as many containers are open, at any
    depth, and leaves less than it was given. -/
theorem scanned_scanValue (depth : Nat) :
    (∀ {n : Nat} (p : Position) (text : Str), p.Fresh n →
      Scanned (n + depth) p n text (scanValue float depth text)) ∧
    ∀ text found, scanValue float depth text = .ok found → found.2.length < text.length := by
  induction depth with
  | zero =>
      -- One container more is one too many.
      have hdeep : ∀ {n : Nat} {p : Position} (c : CodePoint) (text : Str),
          (p.next c).depth = n + 1 →
          Scanned (n + 0) p n (c :: text) (.error recursionError : Except PyErr (Value × Str)) := by
        intro n p c text hdepth
        refine ⟨fun found h => absurd h (error_ne_ok _ _), fails_error ?_⟩
        refine Or.inr (Or.inr ⟨rfl, [c], List.prefix_append [c] text, ?_⟩)
        rw [Position.after_cons, Position.after_nil, hdepth]
        exact Nat.lt_succ_self n
      refine ⟨fun p text hp => ?_, fun text found h => ?_⟩
      · exact scanned_scanOnce float hp
          (fun c text hc => hdeep c text (hp.toPlain.bracket hc).depth)
          (fun c text hc => hdeep c text (hp.toPlain.brace hc).depth) text
      · exact length_scanOnce float (fun text found h => absurd h (error_ne_ok _ _))
          (fun text found h => absurd h (error_ne_ok _ _)) h
  | succ depth ih =>
      rcases ih with ⟨hscanned, hshorter⟩
      have hnested : ∀ {n : Nat} (p : Position) (text : Str), p.Fresh (n + 1) →
          Scanned (n + (depth + 1)) p (n + 1) text (scanValue float depth text) := by
        intro n p text hp
        rw [Nat.add_comm depth 1, ← Nat.add_assoc]
        exact hscanned p text hp
      have harray : ∀ {n : Nat} {p : Position} (text : Str), p.Fresh (n + 1) →
          Scanned (n + (depth + 1)) p n text (scanArray (scanValue float depth) text) :=
        fun text hp => scanned_scanArray hnested hshorter hp text
      have hobject : ∀ {n : Nat} {p : Position} (text : Str), p.Plain (n + 1) →
          Scanned (n + (depth + 1)) p n text (scanObject (scanValue float depth) text) :=
        fun text hp => scanned_scanObject hnested hshorter hp text
      refine ⟨fun {n} p text hp => ?_, fun text found h => ?_⟩
      · exact scanned_scanOnce float hp
          (fun c text hc => (harray text (hp.toPlain.bracket hc)).behind [c])
          (fun c text hc => (hobject text (hp.toPlain.brace hc)).behind [c]) text
      · have hinside : ∀ {r : Except PyErr (Value × Str)} {n : Nat} {p : Position} {text : Str},
            Scanned (n + (depth + 1)) p n text r →
            ∀ found, r = .ok found → found.2.length ≤ text.length := by
          intro r n p text hr found hfound
          rcases hr.rest found hfound with ⟨front, rfl, -⟩
          rw [List.length_append]
          exact Nat.le_add_left _ _
        exact length_scanOnce float
          (fun text => hinside (harray (n := 0) (p := ⟨false, false, 1, true⟩) text
            ⟨⟨rfl, rfl, rfl⟩, rfl⟩))
          (fun text => hinside (hobject (n := 0) (p := ⟨false, false, 1, true⟩) text
            ⟨rfl, rfl, rfl⟩)) h

/-- What `json.loads` raises. -/
theorem fails_loads (depth : Nat) (text : Str) :
    Fails (DecodeFailure depth .first text) (loads float depth text) := by
  unfold loads
  refine Fails.bind (fails_failIf _ (Or.inl rfl)) fun _ _ => ?_
  refine Fails.bind ?_ fun found _ => ?_
  · have hscanned := (scanned_scanValue float depth).1 .first (skipSpace text)
      Position.fresh_first
    rw [Nat.zero_add] at hscanned
    exact (Scanned.skip Position.fresh_first.toPlain hscanned).fails
  · exact Fails.bind (fails_failIf _ (Or.inl rfl)) fun _ _ => fails_ok _

end Documents

end P2CTools
