import Mathlib.Data.List.Induction
import Mathlib.Tactic.Ring

/-!
# Byte Strings and Fixed-Width Integers

Byte strings as lists, and the two integer encodings every binary wire format
is built from: big-endian and little-endian numbers of a fixed number of
bytes.

`be k n` writes the low `k` bytes of `n`. Truncating rather than failing keeps
it a plain function, and the bound it needs to be exact is carried by the
round trips: `beNat_be` asks that `n` fits in `k` bytes, and `be_beNat` asks
nothing, since a byte string of length `k` always denotes such a number. Most
of the proofs go through the last byte, because `be` emits it last and the
left fold `beNat` consumes it last, so both unfold at the same end.

A length-prefixed vector writes its own length in front of its contents. It is
the only nesting construct the format has, so `vec` is stated for a prefix of
any width.

## Main definitions

* `beNat`: The number a byte string denotes, most significant byte first.
* `be`: A number as a big-endian byte string of a given length.
* `leNat`: The number a byte string denotes, least significant byte first.
* `le`: A number as a little-endian byte string of a given length.
* `vec`: A byte string behind its own length.
* `words`: A byte string cut into big-endian two-byte numbers.
* `ofWords`: Two-byte numbers written one after the other.

## Theorems

* `length_be`: An encoded number has the requested length.
* `beNat_lt`: A byte string of length `k` denotes a number below `256 ^ k`.
* `beNat_be`: Decoding an encoded number gives it back when it fits.
* `be_beNat`: Encoding a decoded byte string gives it back.
* `be_inj`: Numbers that fit have distinct encodings.
* `le_inj`: Numbers that fit have distinct little-endian encodings.
* `words_ofWords`: Cutting written words gives them back.
* `ofWords_words`: Writing the words of an even-length string gives it back.
-/

namespace Wire

/-- A byte string. -/
abbrev Bytes := List UInt8

/-- The number a byte string denotes, most significant byte first. -/
def beNat (b : Bytes) : Nat :=
  b.foldl (fun n x => n * 256 + x.toNat) 0

/-- The low `k` bytes of a number, most significant byte first. -/
def be : Nat → Nat → Bytes
  | 0, _ => []
  | k + 1, n => be k (n / 256) ++ [UInt8.ofNat n]

/-- The low `k` bytes of a number in front of a byte string. -/
def beOnto : Nat → Nat → Bytes → Bytes
  | 0, _, tail => tail
  | k + 1, n, tail => beOnto k (n / 256) (UInt8.ofNat n :: tail)

/-- The bytes of a long literal, without appending. -/
def octets (k n : Nat) : Bytes :=
  beOnto k n []

theorem beOnto_eq (k n : Nat) (tail : Bytes) : beOnto k n tail = be k n ++ tail := by
  induction k generalizing n tail with
  | zero => rfl
  | succ k ih => rw [beOnto, ih, be, List.append_assoc, List.singleton_append]

theorem octets_eq (k n : Nat) : octets k n = be k n := by
  rw [octets, beOnto_eq, List.append_nil]

/-- The number a byte string denotes, least significant byte first. -/
def leNat (b : Bytes) : Nat :=
  beNat b.reverse

/-- The low `k` bytes of a number, least significant byte first. -/
def le (k n : Nat) : Bytes :=
  (be k n).reverse

@[simp] theorem beNat_nil : beNat [] = 0 := rfl

@[simp] theorem beNat_concat (b : Bytes) (x : UInt8) :
    beNat (b ++ [x]) = beNat b * 256 + x.toNat := by
  simp only [beNat, List.foldl_append, List.foldl_cons, List.foldl_nil]

@[simp] theorem length_be (k n : Nat) : (be k n).length = k := by
  induction k generalizing n with
  | zero => rfl
  | succ k ih => simp only [be, List.length_append, ih, List.length_cons, List.length_nil]

theorem length_flatMap_be (k : Nat) (ns : List Nat) :
    (ns.flatMap (be k)).length = k * ns.length := by
  induction ns with
  | nil => rfl
  | cons n ns ih =>
      rw [List.flatMap_cons, List.length_append, length_be, ih, List.length_cons, Nat.mul_succ]
      omega

theorem beNat_lt (b : Bytes) : beNat b < 256 ^ b.length := by
  induction b using List.reverseRecOn with
  | nil => simp only [beNat_nil, List.length_nil, pow_zero, Nat.zero_lt_one]
  | append_singleton b x ih =>
      rw [beNat_concat, List.length_append, List.length_singleton, pow_succ]
      have hx := x.toNat_lt
      omega

theorem beNat_be_mod (k n : Nat) : beNat (be k n) = n % 256 ^ k := by
  induction k generalizing n with
  | zero => simp only [be, beNat_nil, pow_zero, Nat.mod_one]
  | succ k ih =>
      rw [be, beNat_concat, ih, UInt8.toNat_ofNat', Nat.pow_succ 256 k, Nat.mul_comm (256 ^ k) 256,
        Nat.mod_mul]
      omega

/-- Decoding an encoded number gives it back when it fits. -/
theorem beNat_be (k n : Nat) (h : n < 256 ^ k) : beNat (be k n) = n := by
  rw [beNat_be_mod, Nat.mod_eq_of_lt h]

/-- Encoding a decoded byte string gives it back. Both functions meet at the
    last byte, which the number holds as its remainder. -/
theorem be_beNat (b : Bytes) : be b.length (beNat b) = b := by
  induction b using List.reverseRecOn with
  | nil => rfl
  | append_singleton b x ih =>
      rw [List.length_append, List.length_singleton, be, beNat_concat]
      have hx := x.toNat_lt
      have hdiv : (beNat b * 256 + x.toNat) / 256 = beNat b := by omega
      have hlast : UInt8.ofNat (beNat b * 256 + x.toNat) = x := by
        apply UInt8.toNat_inj.mp
        rw [UInt8.toNat_ofNat']
        omega
      rw [hdiv, ih, hlast]

theorem be_beNat_of_length (k : Nat) (b : Bytes) (h : b.length = k) : be k (beNat b) = b := by
  rw [← h, be_beNat]

/-- Numbers that fit have distinct encodings. -/
theorem be_inj (k m n : Nat) (hm : m < 256 ^ k) (hn : n < 256 ^ k) (h : be k m = be k n) :
    m = n := by
  rw [← beNat_be k m hm, h, beNat_be k n hn]

theorem be_one (n : Nat) : be 1 n = [UInt8.ofNat n] := rfl

@[simp] theorem length_le (k n : Nat) : (le k n).length = k := by
  rw [le, List.length_reverse, length_be]

theorem leNat_lt (b : Bytes) : leNat b < 256 ^ b.length := by
  rw [leNat, ← List.length_reverse]
  exact beNat_lt b.reverse

/-- Numbers that fit have distinct little-endian encodings. -/
theorem le_inj (k m n : Nat) (hm : m < 256 ^ k) (hn : n < 256 ^ k) (h : le k m = le k n) :
    m = n :=
  be_inj k m n hm hn (List.reverse_inj.mp h)

/-- A byte string behind its own length, written in `k` bytes. -/
def vec (k : Nat) (b : Bytes) : Bytes :=
  be k b.length ++ b

@[simp] theorem length_vec (k : Nat) (b : Bytes) : (vec k b).length = k + b.length := by
  rw [vec, List.length_append, length_be]

/-- A vector followed by anything splits in one way only, so a vector reads
    back whatever stands behind it. -/
theorem vec_append_inj (k : Nat) (a b x y : Bytes) (ha : a.length < 256 ^ k)
    (hb : b.length < 256 ^ k) (h : vec k a ++ x = vec k b ++ y) : a = b ∧ x = y := by
  simp only [vec, List.append_assoc] at h
  rcases List.append_inj h (by rw [length_be, length_be]) with ⟨hlen, hrest⟩
  exact List.append_inj hrest (be_inj k _ _ ha hb hlen)

/-- A byte string cut into big-endian two-byte numbers; a byte left over is a
    number of its own. -/
def words : Bytes → List Nat
  | [] => []
  | [x] => [x.toNat]
  | x :: y :: t => beNat [x, y] :: words t

/-- Two-byte numbers written one after the other. -/
def ofWords (ws : List Nat) : Bytes :=
  ws.flatMap (be 2)

@[simp] theorem ofWords_cons (w : Nat) (ws : List Nat) :
    ofWords (w :: ws) = be 2 w ++ ofWords ws := by
  rw [ofWords, List.flatMap_cons, ← ofWords]

@[simp] theorem length_ofWords (ws : List Nat) : (ofWords ws).length = 2 * ws.length :=
  length_flatMap_be 2 ws

theorem ofWords_ne_nil (ws : List Nat) (h : ws ≠ []) : 2 ≤ (ofWords ws).length := by
  have hpos := List.length_pos_iff.mpr h
  rw [length_ofWords]
  omega

theorem be_two (w : Nat) : be 2 w = [UInt8.ofNat (w / 256), UInt8.ofNat w] := rfl

/-- Cutting written words gives them back. -/
theorem words_ofWords (ws : List Nat) (h : ∀ w ∈ ws, w < 65536) : words (ofWords ws) = ws := by
  induction ws with
  | nil => rfl
  | cons w ws ih =>
      have hw : w < 256 ^ 2 := by
        have hw' := h w List.mem_cons_self
        omega
      have hback := beNat_be 2 w hw
      rw [be_two] at hback
      rw [ofWords_cons, be_two]
      simp only [List.cons_append, List.nil_append, words, hback]
      rw [ih fun v hv => h v (List.mem_cons_of_mem w hv)]

theorem words_lt (b : Bytes) : ∀ w ∈ words b, w < 65536 := by
  induction b using words.induct with
  | case1 => simp only [words, List.not_mem_nil, false_implies, implies_true]
  -- A last byte on its own counts as a word below 256.
  | case2 x =>
      intro w hw
      have hx := x.toNat_lt
      simp only [words, List.mem_singleton] at hw
      omega
  | case3 x y t ih =>
      intro w hw
      rcases List.mem_cons.mp hw with rfl | hw
      · have hlt := beNat_lt [x, y]
        simp only [List.length_cons, List.length_nil] at hlt
        omega
      · exact ih w hw

/-- Writing the words of an even-length string gives it back. -/
theorem ofWords_words (b : Bytes) (h : b.length % 2 = 0) : ofWords (words b) = b := by
  induction b using words.induct with
  | case1 => rfl
  | case2 x => simp only [List.length_singleton, Nat.one_mod, Nat.one_ne_zero] at h
  | case3 x y t ih =>
      have ht : t.length % 2 = 0 := by
        simp only [List.length_cons] at h
        omega
      rw [words, ofWords_cons, ih ht, be_beNat_of_length 2 [x, y] rfl]
      rfl

theorem words_ne_nil (b : Bytes) (h : b ≠ []) : words b ≠ [] := by
  match b with
  | [] => exact absurd rfl h
  | [x] => exact List.cons_ne_nil _ _
  | x :: y :: t => exact List.cons_ne_nil _ _

end Wire
