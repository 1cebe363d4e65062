import P2CTools.Wire.Bytes

/-!
# SHA-256 and HMAC

The hash and the keyed hash the rest is built on, as their standards give
them: SHA-256 on 32-bit words, and HMAC over it with a 64-byte block.

Words are numbers below `2 ^ 32`, and every sum is reduced by hand. Both
functions are ordinary structural definitions, so a concrete digest can be
computed, but nothing is proved about what they compute beyond the length of
the result. Statements that need more than that, such as the absence of
collisions among the inputs they compare, take it as a hypothesis about those
inputs.

## Main definitions

* `sha256`: The SHA-256 digest of a byte string.
* `hmacSha256`: The HMAC-SHA-256 of a message under a key.

## Theorems

* `length_sha256`: A digest has 32 bytes.
* `length_hmacSha256`: A keyed digest has 32 bytes.
-/

namespace Wire

namespace Sha256

/-- A 32-bit word turned right by `n` places. -/
def rotr (n x : Nat) : Nat :=
  x >>> n ||| (x <<< (32 - n)) % 2 ^ 32

/-- The eight words a digest starts from. -/
def initial : List Nat :=
  [0x6a09e667, 0xbb67ae85, 0x3c6ef372, 0xa54ff53a, 0x510e527f, 0x9b05688c, 0x1f83d9ab, 0x5be0cd19]

/-- The constant of each of the 64 rounds. -/
def roundConstants : List Nat :=
  [0x428a2f98, 0x71374491, 0xb5c0fbcf, 0xe9b5dba5, 0x3956c25b, 0x59f111f1, 0x923f82a4, 0xab1c5ed5,
   0xd807aa98, 0x12835b01, 0x243185be, 0x550c7dc3, 0x72be5d74, 0x80deb1fe, 0x9bdc06a7, 0xc19bf174,
   0xe49b69c1, 0xefbe4786, 0x0fc19dc6, 0x240ca1cc, 0x2de92c6f, 0x4a7484aa, 0x5cb0a9dc, 0x76f988da,
   0x983e5152, 0xa831c66d, 0xb00327c8, 0xbf597fc7, 0xc6e00bf3, 0xd5a79147, 0x06ca6351, 0x14292967,
   0x27b70a85, 0x2e1b2138, 0x4d2c6dfc, 0x53380d13, 0x650a7354, 0x766a0abb, 0x81c2c92e, 0x92722c85,
   0xa2bfe8a1, 0xa81a664b, 0xc24b8b70, 0xc76c51a3, 0xd192e819, 0xd6990624, 0xf40e3585, 0x106aa070,
   0x19a4c116, 0x1e376c08, 0x2748774c, 0x34b0bcb5, 0x391c0cb3, 0x4ed8aa4a, 0x5b9cca4f, 0x682e6ff3,
   0x748f82ee, 0x78a5636f, 0x84c87814, 0x8cc70208, 0x90befffa, 0xa4506ceb, 0xbef9a3f7, 0xc67178f2]

/-- The word that follows a window of sixteen schedule words. -/
def nextWord (w : List Nat) : Nat :=
  let w1 := w.getD 1 0
  let w14 := w.getD 14 0
  let s0 := rotr 7 w1 ^^^ rotr 18 w1 ^^^ w1 >>> 3
  let s1 := rotr 17 w14 ^^^ rotr 19 w14 ^^^ w14 >>> 10
  (w.getD 0 0 + s0 + w.getD 9 0 + s1) % 2 ^ 32

/-- One round on the eight working words. -/
def round (s : List Nat) (k w : Nat) : List Nat :=
  match s with
  | [a, b, c, d, e, f, g, h] =>
      let s1 := rotr 6 e ^^^ rotr 11 e ^^^ rotr 25 e
      let ch := (e &&& f) ^^^ ((2 ^ 32 - 1 - e) &&& g)
      let t1 := (h + s1 + ch + k + w) % 2 ^ 32
      let s0 := rotr 2 a ^^^ rotr 13 a ^^^ rotr 22 a
      let maj := (a &&& b) ^^^ (a &&& c) ^^^ (b &&& c)
      [(t1 + s0 + maj) % 2 ^ 32, a, b, c, (d + t1) % 2 ^ 32, e, f, g]
  | _ => s

/-- The rounds, with the schedule window moving one word each time. -/
def rounds : List Nat → List Nat → List Nat → List Nat
  | [], s, _ => s
  | k :: ks, s, w => rounds ks (round s k (w.getD 0 0)) (w.drop 1 ++ [nextWord w])

/-- A byte string cut into 32-bit words. -/
def words32 : Nat → Bytes → List Nat
  | 0, _ => []
  | n + 1, b => beNat (b.take 4) :: words32 n (b.drop 4)

/-- The digest words after one 64-byte block. -/
def compress (s : List Nat) (block : Bytes) : List Nat :=
  List.zipWith (fun x y => (x + y) % 2 ^ 32) s (rounds roundConstants s (words32 16 block))

/-- The message with its padding and length. -/
def pad (m : Bytes) : Bytes :=
  m ++ [0x80] ++ List.replicate ((119 - m.length % 64) % 64) 0 ++ be 8 (8 * m.length)

/-- The digest words after the first `n` blocks of the data. -/
def blocks : Nat → List Nat → Bytes → List Nat
  | 0, s, _ => s
  | n + 1, s, b => blocks n (compress s (b.take 64)) (b.drop 64)

theorem length_round (s : List Nat) (k w : Nat) (h : s.length = 8) : (round s k w).length = 8 := by
  match s with
  | [a, b, c, d, e, f, g, i] => rfl

theorem length_rounds (ks : List Nat) : ∀ (s w : List Nat), s.length = 8 →
    (rounds ks s w).length = 8 := by
  induction ks with
  | nil =>
      intro s w h
      exact h
  | cons k ks ih =>
      intro s w h
      exact ih _ _ (length_round s k _ h)

theorem length_compress (s : List Nat) (block : Bytes) (h : s.length = 8) :
    (compress s block).length = 8 := by
  rw [compress, List.length_zipWith, h, length_rounds _ _ _ h, Nat.min_self]

theorem length_blocks (n : Nat) : ∀ (s : List Nat) (b : Bytes), s.length = 8 →
    (blocks n s b).length = 8 := by
  induction n with
  | zero =>
      intro s b h
      exact h
  | succ n ih =>
      intro s b h
      exact ih _ _ (length_compress s _ h)

end Sha256

/-- The SHA-256 digest of a byte string. -/
def sha256 (m : Bytes) : Bytes :=
  (Sha256.blocks ((Sha256.pad m).length / 64) Sha256.initial (Sha256.pad m)).flatMap (be 4)

theorem length_sha256 (m : Bytes) : (sha256 m).length = 32 := by
  have hwords := Sha256.length_blocks ((Sha256.pad m).length / 64) Sha256.initial (Sha256.pad m) rfl
  rw [sha256, length_flatMap_be, hwords]

/-- The HMAC-SHA-256 of a message under a key: a key longer than the block is
    hashed first, a shorter one is filled up with zeros. -/
def hmacSha256 (key message : Bytes) : Bytes :=
  let key' := if key.length > 64 then sha256 key else key
  let block := key' ++ List.replicate (64 - key'.length) 0
  sha256 (block.map (· ^^^ 0x5c) ++ sha256 (block.map (· ^^^ 0x36) ++ message))

theorem length_hmacSha256 (key message : Bytes) : (hmacSha256 key message).length = 32 :=
  length_sha256 _

example : sha256 [0x61, 0x62, 0x63]
    = be 32 0xba7816bf8f01cfea414140de5dae2223b00361a396177a9cb410ff61f20015ad := by
  decide +kernel

end Wire
