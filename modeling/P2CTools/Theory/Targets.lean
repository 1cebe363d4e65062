import P2CTools.Wire.Positional
import P2CTools.Theory.Search

/-!
# Work Targets

The comparison of a hash with a target, in the three spellings that meet in
it: the little-endian number of the hash, the number the target's digits
denote, and the order of the displayed strings.

Displaying a hash reverses it and writes two digits a byte, so the digits
denote the little-endian number. That is the only fact about digits, and the
order of strings then follows from positional notation: the code points of the
lower-case digits are in the order of their values, although the letters do
not follow the numerals directly.

The search keeps the hash with the least number. Whether a new hash replaces
the best one is the same comparison again, with the new hash displayed as the
target of the best one.

## Main definitions

* `IsDisplay`: Sixty-four lower-case hexadecimal digits.
* `hexNumber`: The number that hexadecimal digits denote.
* `DisplayOrder`: The comparison is the one of displayed hashes.

## Theorems

* `hexNumber_toHex`: The digits of a byte string denote its number.
* `le_iff_hexNumber_le`: Displays are in the order of their numbers.
* `meetsWorkTarget_eq`: The comparison of a hash with a target.
* `noteWork_compares`: The search compares in the same order.
* `displayOrder`: The two conversions and the comparison together.
-/

namespace P2CTools

open Wire

/-- Sixty-four lower-case hexadecimal digits. -/
def IsDisplay (s : Str) : Prop :=
  s.length = 64 ∧ ∀ c ∈ s, isLowerHex c = true

/-- The value of a hexadecimal digit. -/
def hexDigitValue (c : CodePoint) : Nat :=
  (hexValue c).getD 0

/-- The number that hexadecimal digits denote. -/
def hexNumber (s : Str) : Nat :=
  positional 16 hexDigitValue s

theorem hexDigitValue_hexDigit (n : Nat) (h : n < 16) : hexDigitValue (hexDigit n) = n := by
  rw [hexDigitValue, hexValue_hexDigit n h, Option.getD_some]

/-- The digits of a byte string denote its number. -/
theorem hexNumber_toHex (b : Bytes) : hexNumber (toHex b) = beNat b := by
  induction b using List.reverseRecOn with
  | nil => rfl
  | append_singleton b x ih =>
      have hx := x.toNat_lt
      have happend : toHex (b ++ [x]) =
          toHex b ++ [hexDigit (x.toNat / 16)] ++ [hexDigit (x.toNat % 16)] := by
        simp only [toHex, List.flatMap_append, List.flatMap_singleton, List.append_assoc,
          List.cons_append, List.nil_append]
      rw [hexNumber] at ih ⊢
      rw [happend, positional_concat, positional_concat, ih, beNat_concat,
        hexDigitValue_hexDigit _ (by omega), hexDigitValue_hexDigit _ (by omega)]
      omega

/-- The code points of the digits are in the order of their values. -/
theorem strictMonoOn_hexDigitValue :
    StrictMonoOn hexDigitValue {c | isLowerHex c = true} := by
  intro c hc d hd hlt
  rcases exists_hexDigit c hc with ⟨m, hm, rfl⟩
  rcases exists_hexDigit d hd with ⟨n, hn, rfl⟩
  rw [hexDigitValue_hexDigit m hm, hexDigitValue_hexDigit n hn]
  rw [Fin.lt_def, hexDigit_val m hm, hexDigit_val n hn] at hlt
  split at hlt <;> split at hlt <;> omega

theorem hexDigitValue_lt (c : CodePoint) (h : isLowerHex c = true) : hexDigitValue c < 16 := by
  rcases exists_hexDigit c h with ⟨n, hn, rfl⟩
  rw [hexDigitValue_hexDigit n hn]
  exact hn

/-- Displays are in the order of the numbers they denote. -/
theorem le_iff_hexNumber_le (s t : Str) (hs : IsDisplay s) (ht : IsDisplay t) :
    s ≤ t ↔ hexNumber s ≤ hexNumber t :=
  le_iff_positional_le hexDigitValue_lt strictMonoOn_hexDigitValue s t (hs.1.trans ht.1.symm)
    hs.2 ht.2

/-- The displays are what hashes are shown as. -/
theorem isDisplay_iff (s : Str) :
    IsDisplay s ↔ ∃ b : Bytes, b.length = 32 ∧ s = toHex b.reverse := by
  constructor
  · rintro ⟨hlen, hdigits⟩
    rcases toHex_fromHex 32 s hlen hdigits with ⟨b, -, hb, hblen⟩
    refine ⟨b.reverse, by rw [List.length_reverse, hblen], ?_⟩
    rw [List.reverse_reverse, hb]
  · rintro ⟨b, hb, rfl⟩
    refine ⟨?_, isLowerHex_toHex b.reverse⟩
    rw [length_toHex, List.length_reverse, hb]

section Compare

variable (L : Lowercase)

/-- Displaying a hash gives a display, and reading that gives the hash. -/
theorem displayHashToInternal_display (b : Bytes) (hb : b.length = 32) :
    ∃ s, internalHashToDisplay b = .ok s ∧ IsDisplay s ∧
      ∀ name, displayHashToInternal L s name = .ok b :=
  ⟨toHex b.reverse, internalHashToDisplay_eq_ok b hb, (isDisplay_iff _).mpr ⟨b, hb, rfl⟩,
    fun _ => (displayHashToInternal_eq_ok_iff L _ _ _).mpr ⟨hb, rfl⟩⟩

/-- Reading a display gives a hash, and displaying that gives the display. -/
theorem internalHashToDisplay_internal (s : Str) (name : String) (hs : IsDisplay s) :
    ∃ b, displayHashToInternal L s name = .ok b ∧ b.length = 32 ∧
      internalHashToDisplay b = .ok s := by
  rcases (isDisplay_iff s).mp hs with ⟨b, hb, rfl⟩
  exact ⟨b, (displayHashToInternal_eq_ok_iff L _ _ _).mpr ⟨hb, rfl⟩, hb,
    internalHashToDisplay_eq_ok b hb⟩

theorem internalHashToDisplay_refuses (b : Bytes) (hb : b.length ≠ 32) :
    ∃ e, internalHashToDisplay b = .error e ∧ e.cls = .valueError := by
  unfold internalHashToDisplay failIf
  rw [if_pos hb]
  exact ⟨_, rfl, rfl⟩

/-- What is no display is read as no hash. -/
theorem displayHashToInternal_refuses (s : Str) (name : String) (hs : ¬IsDisplay s) :
    ∃ e, displayHashToInternal L s name = .error e ∧ e.cls = .valueError := by
  cases hread : displayHashToInternal L s name with
  | ok b => exact absurd ((isDisplay_iff s).mpr
      ⟨b, (displayHashToInternal_eq_ok_iff L _ _ _).mp hread⟩) hs
  | error e => exact ⟨e, rfl, fails_displayHashToInternal L s name e hread⟩

/-- The comparison with a target is the comparison with the number its digits
    denote. -/
theorem meetsWorkTarget_eq (h : Bytes) (t : Str) (hh : h.length = 32) (ht : IsDisplay t) :
    meetsWorkTarget L h t = .ok (decide (leNat h ≤ hexNumber t)) := by
  rcases (isDisplay_iff t).mp ht with ⟨b, hb, rfl⟩
  rw [meetsWorkTarget_toHex L h b hh hb, hexNumber_toHex, leNat, leNat]

theorem meetsWorkTarget_eq_true_iff (h : Bytes) (t : Str) (hh : h.length = 32)
    (ht : IsDisplay t) : meetsWorkTarget L h t = .ok true ↔ leNat h ≤ hexNumber t := by
  rw [meetsWorkTarget_eq L h t hh ht, Except.ok.injEq, decide_eq_true_eq]

/-- A hash that is noted takes the place of the best one exactly when the best
    one does not meet its display. -/
theorem noteWork_compares (s : Search) (h best : Bytes) (hh : h.length = 32)
    (hbest : best.length = 32) (hvalue : s.bestValue = some (leNat best)) :
    ∃ display met, internalHashToDisplay h = .ok display ∧
      meetsWorkTarget L best display = .ok met ∧
      noteWork h s = (.ok (), if met then s
        else { s with bestValue := some (leNat h), bestHash := some display }) := by
  refine ⟨toHex h.reverse, _, internalHashToDisplay_eq_ok h hh,
    meetsWorkTarget_toHex L best h hbest hh, ?_⟩
  rw [noteWork_eq h s hh, Search.note, hvalue]
  simp only [Option.mem_def, Option.some.injEq, forall_eq', decide_eq_true_eq]
  by_cases hle : leNat best ≤ leNat h
  · rw [if_neg (Nat.not_lt.mpr hle), if_pos hle]
  · rw [if_pos (Nat.not_le.mp hle), if_neg hle]

/-- The comparison with a target is the one of uint256 numbers in display
    order. -/
structure DisplayOrder : Prop where
  /-- A hash is shown and read back. -/
  shown : ∀ b : Bytes, b.length = 32 → ∃ s, internalHashToDisplay b = .ok s ∧ IsDisplay s ∧
    ∀ name, displayHashToInternal L s name = .ok b
  /-- A display is read and shown again. -/
  read : ∀ s name, IsDisplay s → ∃ b, displayHashToInternal L s name = .ok b ∧ b.length = 32 ∧
    internalHashToDisplay b = .ok s
  /-- Nothing else is shown. -/
  notShown : ∀ b : Bytes, b.length ≠ 32 →
    ∃ e, internalHashToDisplay b = .error e ∧ e.cls = .valueError
  /-- Nothing else is read. -/
  notRead : ∀ s name, ¬IsDisplay s →
    ∃ e, displayHashToInternal L s name = .error e ∧ e.cls = .valueError
  /-- A hash meets a target by its number, and by its display. -/
  compared : ∀ h t, h.length = 32 → IsDisplay t → ∃ met s,
    meetsWorkTarget L h t = .ok met ∧ internalHashToDisplay h = .ok s ∧
      (met = true ↔ leNat h ≤ hexNumber t) ∧ (met = true ↔ s ≤ t)
  /-- A larger target is met as well. -/
  monotone : ∀ h t t', h.length = 32 → IsDisplay t → IsDisplay t' → hexNumber t ≤ hexNumber t' →
    meetsWorkTarget L h t = .ok true → meetsWorkTarget L h t' = .ok true
  /-- A smaller hash meets the target as well. -/
  antitone : ∀ h h' t, h.length = 32 → h'.length = 32 → IsDisplay t → leNat h' ≤ leNat h →
    meetsWorkTarget L h t = .ok true → meetsWorkTarget L h' t = .ok true
  /-- A hash meets its own display. -/
  equality : ∀ h t, h.length = 32 → internalHashToDisplay h = .ok t →
    meetsWorkTarget L h t = .ok true
  /-- The search replaces its best hash by one whose display that does not
      meet. -/
  best : ∀ (s : Search) h best, h.length = 32 → best.length = 32 →
    s.bestValue = some (leNat best) → ∃ display met, internalHashToDisplay h = .ok display ∧
      meetsWorkTarget L best display = .ok met ∧
      noteWork h s = (.ok (), if met then s
        else { s with bestValue := some (leNat h), bestHash := some display })

theorem displayOrder : DisplayOrder L where
  shown := displayHashToInternal_display L
  read := internalHashToDisplay_internal L
  notShown := internalHashToDisplay_refuses
  notRead := displayHashToInternal_refuses L
  compared h t hh ht := by
    have hshown := (isDisplay_iff _).mpr ⟨h, hh, rfl⟩
    -- The number is the middle term between the bytes and the two strings.
    refine ⟨_, _, meetsWorkTarget_eq L h t hh ht, internalHashToDisplay_eq_ok h hh,
      decide_eq_true_iff, ?_⟩
    rw [decide_eq_true_iff, le_iff_hexNumber_le _ _ hshown ht, hexNumber_toHex, leNat]
  monotone h t t' hh ht ht' hle hmet := by
    rw [meetsWorkTarget_eq_true_iff L _ _ hh ht] at hmet
    rw [meetsWorkTarget_eq_true_iff L _ _ hh ht']
    exact hmet.trans hle
  antitone h h' t hh hh' ht hle hmet := by
    rw [meetsWorkTarget_eq_true_iff L _ _ hh ht] at hmet
    rw [meetsWorkTarget_eq_true_iff L _ _ hh' ht]
    exact hle.trans hmet
  equality h t hh hshow := by
    rw [internalHashToDisplay_eq_ok h hh] at hshow
    rw [← Except.ok.inj hshow, meetsWorkTarget_toHex L h h hh hh, decide_eq_true (Nat.le_refl _)]
  best s h best := noteWork_compares L s h best

end Compare

end P2CTools
