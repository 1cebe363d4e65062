import Mathlib.Data.Nat.Digits.Lemmas
import P2CTools.Wire.Bytes
import P2CTools.Wire.Positional

/-!
# Minimal Lengths and Tagged Values

The distinguished encoding of a tagged value: a tag byte, the length of the
value in as few bytes as it takes, and the value.

Everything that makes the encoding unique is in the leading byte of a number.
`shortest` writes a number without leading zeros, and a byte string is such a
number exactly when it does not begin with a zero. A length below 128 is its
own byte; a longer one is announced by the number of its bytes, so the two
forms are told apart by the top bit and neither can spell what the other does.

An integer's content keeps one bit for the sign. Asking for room for twice the
number instead of the number is the same as asking for that bit to be clear,
and it gives zero its one byte, so `content` needs no case of its own for
either.

## Main definitions

* `width`: The number of bytes a number takes.
* `shortest`: A number without leading zeros.
* `definite`: A length in its minimal form.
* `tlv`: A tagged value.
* `content`: A nonnegative integer with its sign bit.

## Theorems

* `width_le_iff`: A number fits in `k` bytes when it is below `256 ^ k`.
* `shortest_beNat`: A byte string without a leading zero is minimal.
* `beNat_shortest`: A minimal number reads back.
* `content_beNat_iff`: An integer's content, by its first two bytes.
-/

namespace Wire

/-- The number of bytes a number takes without leading zeros. -/
def width (n : Nat) : Nat :=
  (Nat.digits 256 n).length

/-- A number without leading zeros, most significant byte first. -/
def shortest (n : Nat) : Bytes :=
  be (width n) n

/-- A length in its minimal form: itself below 128, and otherwise announced by
    the number of its bytes. -/
def definite (n : Nat) : Bytes :=
  if n < 128 then [UInt8.ofNat n] else UInt8.ofNat (128 + width n) :: shortest n

/-- A tag, the minimal length of a value, and the value. -/
def tlv (x : UInt8 × Bytes) : Bytes :=
  x.1 :: (definite x.2.length ++ x.2)

/-- A nonnegative integer in as few bytes as leave its sign bit clear. -/
def content (n : Nat) : Bytes :=
  be (width (2 * n + 1)) n

theorem width_le_iff (k n : Nat) : width n ≤ k ↔ n < 256 ^ k :=
  Nat.digits_length_le_iff (by decide) n

theorem lt_width_iff (k n : Nat) : k < width n ↔ 256 ^ k ≤ n := by
  rw [← Nat.not_le, width_le_iff, Nat.not_lt]

@[simp] theorem length_shortest (n : Nat) : (shortest n).length = width n :=
  length_be _ _

/-- A minimal number reads back. -/
theorem beNat_shortest (n : Nat) : beNat (shortest n) = n :=
  beNat_be _ _ ((width_le_iff _ _).mp (Nat.le_refl _))

/-- The first byte counts for the most. -/
theorem beNat_cons (x : UInt8) (b : Bytes) :
    beNat (x :: b) = x.toNat * 256 ^ b.length + beNat b :=
  positional_cons x b

/-- A leading zero counts for nothing. -/
theorem beNat_zero_cons (b : Bytes) : beNat (0 :: b) = beNat b := by
  rw [beNat_cons, UInt8.toNat_zero, Nat.zero_mul, Nat.zero_add]

/-- The number of bytes is the one between a number's two powers. -/
theorem width_eq (k n : Nat) (hlt : n < 256 ^ (k + 1)) (hle : 256 ^ k ≤ n) : width n = k + 1 :=
  Nat.le_antisymm ((width_le_iff _ _).mpr hlt) ((lt_width_iff _ _).mpr hle)

/-- A byte string without a leading zero is minimal. -/
theorem shortest_beNat (x : UInt8) (b : Bytes) (hx : x ≠ 0) :
    shortest (beNat (x :: b)) = x :: b := by
  have hlt : beNat (x :: b) < 256 ^ (b.length + 1) := beNat_lt (x :: b)
  have hpos : 1 ≤ x.toNat :=
    Nat.pos_of_ne_zero fun h => hx (UInt8.toNat_inj.mp h)
  have hle : 256 ^ b.length ≤ beNat (x :: b) := by
    rw [beNat_cons]
    have hmul := Nat.mul_le_mul_right (256 ^ b.length) hpos
    omega
  rw [shortest, width_eq _ _ hlt hle]
  exact be_beNat (x :: b)

/-- A minimal number does not begin with a zero, since the bytes behind the
    first are too few for it. -/
theorem shortest_head (n : Nat) (x : UInt8) (b : Bytes) (h : shortest n = x :: b) : x ≠ 0 := by
  rintro rfl
  have hlen : width n = b.length + 1 := by
    rw [← length_shortest, h, List.length_cons]
  have hval : n = beNat b := by
    rw [← beNat_shortest n, h, beNat_zero_cons]
  have hle : 256 ^ b.length ≤ n := (lt_width_iff _ _).mp (by omega)
  have hlt := beNat_lt b
  omega

/-- A number that is not zero takes at least one byte. -/
theorem width_pos (n : Nat) (h : 0 < n) : 0 < width n :=
  (lt_width_iff 0 n).mpr (by rw [pow_zero]; exact h)

theorem definite_of_lt (n : Nat) (h : n < 128) : definite n = [UInt8.ofNat n] :=
  if_pos h

theorem definite_of_le (n : Nat) (h : 128 ≤ n) :
    definite n = UInt8.ofNat (128 + width n) :: shortest n :=
  if_neg (Nat.not_lt.mpr h)

/-- A tagged value is at least its value with two bytes in front. -/
theorem length_tlv (x : UInt8 × Bytes) : x.2.length + 2 ≤ (tlv x).length := by
  have hpos : 1 ≤ (definite x.2.length).length := by
    unfold definite
    split
    · rfl
    · exact Nat.le_add_left 1 _
  rw [tlv, List.length_cons, List.length_append]
  omega

/-- A tagged value has no more than its tag, the byte that announces its length
    and the length's bytes in front of it. -/
theorem length_tlv_le (x : UInt8 × Bytes) (k : Nat) (h : x.2.length < 256 ^ k) :
    (tlv x).length ≤ x.2.length + k + 2 := by
  have hlen : (definite x.2.length).length ≤ k + 1 := by
    unfold definite
    split
    · exact Nat.le_add_left 1 k
    · rw [List.length_cons, length_shortest]
      exact Nat.succ_le_succ ((width_le_iff k _).mpr h)
  rw [tlv, List.length_cons, List.length_append]
  omega

/-- A number leaves its sign bit clear when its first byte does. -/
theorem double_lt_iff (x : UInt8) (b : Bytes) :
    2 * beNat (x :: b) + 1 < 256 ^ (b.length + 1) ↔ x.toNat < 128 := by
  have hb := beNat_lt b
  rw [beNat_cons, pow_succ]
  generalize 256 ^ b.length = p at hb ⊢
  constructor
  · intro h
    by_contra hx
    have hmul := Nat.mul_le_mul_right p (Nat.not_lt.mp hx)
    omega
  · intro hx
    have hmul := Nat.mul_le_mul_right p (Nat.le_of_lt_succ hx)
    omega

@[simp] theorem length_content (n : Nat) : (content n).length = width (2 * n + 1) :=
  length_be _ _

theorem beNat_content (n : Nat) : beNat (content n) = n := by
  have h := (width_le_iff (width (2 * n + 1)) (2 * n + 1)).mp (Nat.le_refl _)
  exact beNat_be _ _ (by omega)

theorem content_ne_nil (n : Nat) : content n ≠ [] := by
  rw [← List.length_pos_iff, length_content]
  exact width_pos _ (Nat.succ_pos _)

/-- One byte in front of a number is one too many when the number leaves its
    own sign bit clear. -/
theorem double_le_iff (x : UInt8) (b : Bytes) :
    256 ^ b.length ≤ 2 * beNat (x :: b) + 1 ↔
      (x = 0 → ∀ y u, b = y :: u → 128 ≤ y.toNat) := by
  by_cases hx : x = 0
  · subst hx
    rw [beNat_zero_cons]
    cases b with
    | nil => exact ⟨fun _ _ y u h => absurd h.symm (List.cons_ne_nil y u), fun _ => Nat.le_refl 1⟩
    | cons y u =>
        -- Behind the zero the number is that of the rest, whose sign bit decides.
        rw [← Nat.not_lt, List.length_cons, double_lt_iff, Nat.not_lt]
        constructor
        · rintro h - y' u' heq
          rw [← (List.cons.inj heq).1]
          exact h
        · intro h
          exact h rfl y u rfl
  · have hpos : 1 ≤ x.toNat :=
      Nat.pos_of_ne_zero fun h => hx (UInt8.toNat_inj.mp h)
    have hmul := Nat.mul_le_mul_right (256 ^ b.length) hpos
    rw [beNat_cons]
    exact ⟨fun _ h => absurd h hx, fun _ => by omega⟩

/-- An integer's content begins with a clear sign bit, and with a zero only in
    front of a byte that would set it. -/
theorem content_beNat_iff (x : UInt8) (b : Bytes) :
    content (beNat (x :: b)) = x :: b ↔
      x.toNat < 128 ∧ (x = 0 → ∀ y u, b = y :: u → 128 ≤ y.toNat) := by
  rw [← double_lt_iff x b, ← double_le_iff x b]
  constructor
  · intro h
    -- The two bounds say that the content is as long as it is.
    have hlen : width (2 * beNat (x :: b) + 1) = b.length + 1 := by
      rw [← length_content, h, List.length_cons]
    exact ⟨(width_le_iff _ _).mp (Nat.le_of_eq hlen),
      (lt_width_iff _ _).mp (by omega)⟩
  · rintro ⟨hlt, hle⟩
    rw [content, width_eq _ _ hlt hle]
    exact be_beNat (x :: b)

end Wire
