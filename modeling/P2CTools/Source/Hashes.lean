import P2CTools.Source.Text
import P2CTools.Wire.Sha256

/-!
# Hashes

The claim challenge, the work hash and the two spellings of a hash, from
`hashes.py`.

A hash is kept as 32 bytes and shown as 64 digits in the opposite byte order.
`displayHashToInternal` checks the digits one condition at a time, each with
its own text, but all four failures are the same `ValueError`, and together
they leave exactly the digits `toHex` writes: `displayHashToInternal_eq_ok_iff`
is all that callers need.

A tagged hash prepends the digest of its tag twice, so two tagged hashes under
one tag are equal only if the messages are, or if SHA-256 collides on the two
inputs. `taggedHash_inj` has that second case as its hypothesis.

## Main definitions

* `taggedHash`: A hash bound to a tag.
* `displayHashToInternal`: The bytes of a displayed hash.
* `internalHashToDisplay`: The display form of a hash.
* `claimChallenge`: The 32 bytes a claim puts into its handshake.
* `connectionWorkHash`: The hash whose size is the work of a connection.
* `meetsWorkTarget`: The comparison with the target.
* `MeetsTarget`: What the comparison is for.
* `CollisionFree`: Two inputs SHA-256 tells apart.

## Theorems

* `displayHashToInternal_eq_ok_iff`: The accepted spellings.
* `claimChallenge_eq_ok_iff`: When a claim has a challenge, and which.
* `meetsWorkTarget_eq_ok`: The comparison decides.
* `taggedHash_inj`: Equal tagged hashes, barring a collision.
* `claimPreimage_inj`: A claim is determined by what its challenge hashes.
-/

namespace P2CTools

open Wire

/-- The tag of the hash that a challenge is. -/
def claimTag : Bytes := asciiLiteral "ConnectCoin/P2C/claim/v1"

/-- The tag of the hash that a work is. -/
def workTag : Bytes := asciiLiteral "ConnectCoin/P2C/work/v2"

/-- SHA-256 under a tag. -/
def taggedHash (tag message : Bytes) : Bytes :=
  let tagHash := sha256 tag
  sha256 (tagHash ++ tagHash ++ message)

/-- `value.to_bytes(size, "big")`. -/
def toBytesBig (size : Nat) (value : Int) : Except PyErr Bytes :=
  if 0 ≤ value ∧ value < 256 ^ size then .ok (be size value.toNat)
  else .error ⟨.overflowError, "int too big to convert"⟩

/-- `value.to_bytes(size, "little")`. -/
def toBytesLittle (size : Nat) (value : Int) : Except PyErr Bytes :=
  if 0 ≤ value ∧ value < 256 ^ size then .ok (le size value.toNat)
  else .error ⟨.overflowError, "int too big to convert"⟩

section Spellings

variable (L : Lowercase)

/-- The bytes of a hash from its display form, which is in the other order. -/
def displayHashToInternal (value : Str) (name : String) : Except PyErr Bytes := do
  failIf (value.length ≠ 64)
    (valueError (name ++ " must contain exactly 64 lowercase hexadecimal characters"))
  failIf (value ≠ L.lower value) (valueError (name ++ " must use lowercase hexadecimal"))
  failIf (value.any fun character => !isLowerHex character)
    (valueError (name ++ " must contain exactly 64 lowercase hexadecimal characters"))
  let encoded ← handle [.valueError]
    (fun _ => .error
      (valueError (name ++ " must contain exactly 64 lowercase hexadecimal characters")))
    (fromHex value)
  return encoded.reverse

/-- The display form of a hash. -/
def internalHashToDisplay (value : Bytes) : Except PyErr Str := do
  failIf (value.length ≠ 32) (valueError "an internal hash must contain exactly 32 bytes")
  return toHex value.reverse

/-- The challenge for the input of a transaction. -/
def claimChallenge (txid : Str) (inputIndex : Int) : Except PyErr Bytes := do
  failIf (¬ (0 ≤ inputIndex ∧ inputIndex ≤ 0xFFFFFFFF))
    (valueError "input_index must fit in an unsigned 32-bit integer")
  let internalTxid ← displayHashToInternal L txid "txid"
  let index ← toBytesLittle 4 inputIndex
  return taggedHash claimTag (internalTxid ++ index)

/-- The work of the first four messages of a handshake. -/
def connectionWorkHash (messages : List Bytes) : Except PyErr Bytes := do
  failIf (messages.length ≠ 4)
    (valueError "P2C v2 work requires exactly four messages, excluding CertificateVerify")
  return taggedHash workTag messages.flatten

/-- Whether a work, as a number, is no greater than a target. -/
def meetsWorkTarget (workHash : Bytes) (target : Str) : Except PyErr Bool := do
  failIf (workHash.length ≠ 32) (valueError "work hash must contain exactly 32 bytes")
  let targetInternal ← displayHashToInternal L target "connection_work_target"
  return decide (leNat workHash ≤ leNat targetInternal)

/-- The accepted spellings are the 64 digits of 32 bytes, shown in reverse. -/
theorem displayHashToInternal_eq_ok_iff (value : Str) (name : String) (b : Bytes) :
    displayHashToInternal L value name = .ok b ↔ b.length = 32 ∧ value = toHex b.reverse := by
  unfold displayHashToInternal
  simp only [bind_eq_ok_iff, failIf_eq_ok_iff, exists_const, handle_error_eq_ok_iff,
    pure_eq_ok_iff, ne_eq, not_not, Bool.not_eq_true, List.any_eq_false, Bool.not_eq_eq_eq_not,
    Bool.not_true, Bool.not_eq_false]
  constructor
  · rintro ⟨hlen, -, hdigits, encoded, henc, rfl⟩
    -- The digits are those of 32 bytes, which are then reversed.
    rcases toHex_fromHex 32 value hlen hdigits with ⟨b, hb, hback, hblen⟩
    rw [hb] at henc
    rw [← Except.ok.inj henc, List.length_reverse, List.reverse_reverse]
    exact ⟨hblen, hback.symm⟩
  · rintro ⟨hlen, rfl⟩
    have hdigits := isLowerHex_toHex b.reverse
    refine ⟨?_, (L.lower_of_isLowerHex _ hdigits).symm, hdigits, b.reverse, fromHex_toHex _,
      List.reverse_reverse b⟩
    rw [length_toHex, List.length_reverse, hlen]

theorem fails_fromHex (s : Str) : Fails (fun e => e.cls = .valueError) (fromHex s) := by
  induction s using fromHex.induct with
  | case1 => exact fails_ok []
  | case2 c hc =>
      rw [fromHex, if_pos hc]
      exact fails_ok []
  | case3 c hc =>
      rw [fromHex, if_neg hc]
      exact fails_error rfl
  | case4 c d rest hc ih =>
      rw [fromHex, if_pos hc]
      exact ih
  -- Two digits, and then the rest of the text.
  | case5 c d rest hc h l hl hh ih =>
      rw [fromHex, if_neg hc, hh, hl]
      exact ih.bind fun b _ => fails_ok _
  -- One of the two is no digit.
  | case6 c d rest hc hno =>
      rw [fromHex, if_neg hc]
      cases hh : hexValue c with
      | none => exact fails_error rfl
      | some h =>
          cases hl : hexValue d with
          | none => exact fails_error rfl
          | some l => exact absurd hl (hno h l hh)

/-- Every other spelling is refused with a `ValueError`. -/
theorem fails_displayHashToInternal (value : Str) (name : String) :
    Fails (fun e => e.cls = .valueError) (displayHashToInternal L value name) := by
  unfold displayHashToInternal
  refine Fails.bind (fails_failIf _ rfl) fun _ _ => Fails.bind (fails_failIf _ rfl) fun _ _ =>
    Fails.bind (fails_failIf _ rfl) fun _ _ => Fails.bind ?_ fun _ _ => fails_ok _
  exact fails_handle _ _ _ (fun e _ _ => fails_error rfl) fun e he _ => fails_fromHex value e he

theorem toBytesLittle_eq_ok_iff (size : Nat) (value : Int) (b : Bytes) :
    toBytesLittle size value = .ok b ↔
      0 ≤ value ∧ value < 256 ^ size ∧ b = le size value.toNat := by
  rw [toBytesLittle, ite_ok_eq_ok_iff, and_assoc]
  simp only [eq_comm]

theorem toBytesBig_eq_ok_iff (size : Nat) (value : Int) (b : Bytes) :
    toBytesBig size value = .ok b ↔
      0 ≤ value ∧ value < 256 ^ size ∧ b = be size value.toNat := by
  rw [toBytesBig, ite_ok_eq_ok_iff, and_assoc]
  simp only [eq_comm]

/-- What the challenge of a claim hashes: the transaction id in internal byte
    order and the input index. -/
def claimPreimage (internalTxid : Bytes) (inputIndex : Int) : Bytes :=
  internalTxid ++ le 4 inputIndex.toNat

/-- When a claim has a challenge, and which one it is. -/
theorem claimChallenge_eq_ok_iff (txid : Str) (inputIndex : Int) (c : Bytes) :
    claimChallenge L txid inputIndex = .ok c ↔
      0 ≤ inputIndex ∧ inputIndex ≤ 0xFFFFFFFF ∧ ∃ b, b.length = 32 ∧ txid = toHex b.reverse ∧
        c = taggedHash claimTag (claimPreimage b inputIndex) := by
  unfold claimChallenge
  simp only [bind_eq_ok_iff, failIf_eq_ok_iff, exists_const, pure_eq_ok_iff, not_not,
    displayHashToInternal_eq_ok_iff, toBytesLittle_eq_ok_iff]
  constructor
  · rintro ⟨⟨hlo, hhi⟩, b, ⟨hlen, rfl⟩, i, ⟨-, -, rfl⟩, rfl⟩
    exact ⟨hlo, hhi, b, hlen, rfl, rfl⟩
  · rintro ⟨hlo, hhi, b, hlen, rfl, rfl⟩
    exact ⟨⟨hlo, hhi⟩, b, ⟨hlen, rfl⟩, _, ⟨hlo, by omega, rfl⟩, rfl⟩

theorem length_taggedHash (tag message : Bytes) : (taggedHash tag message).length = 32 :=
  length_sha256 _

/-- A claim is determined by what its challenge hashes. -/
theorem claimPreimage_inj (a b : Bytes) (i j : Int) (ha : a.length = 32) (hb : b.length = 32)
    (hi : 0 ≤ i ∧ i ≤ 0xFFFFFFFF) (hj : 0 ≤ j ∧ j ≤ 0xFFFFFFFF)
    (h : claimPreimage a i = claimPreimage b j) : a = b ∧ i = j := by
  rcases List.append_inj h (by rw [ha, hb]) with ⟨hab, hij⟩
  have hnat := le_inj 4 _ _ (by omega) (by omega) hij
  exact ⟨hab, by omega⟩

/-- The input SHA-256 reads for a tagged hash. -/
def taggedInput (tag message : Bytes) : Bytes :=
  sha256 tag ++ sha256 tag ++ message

/-- SHA-256 does not collide on the two inputs. -/
def CollisionFree (a b : Bytes) : Prop :=
  sha256 a = sha256 b → a = b

/-- Equal tagged hashes have equal messages, unless SHA-256 collides on the
    two inputs. -/
theorem taggedHash_inj (tag a b : Bytes)
    (hcoll : CollisionFree (taggedInput tag a) (taggedInput tag b))
    (h : taggedHash tag a = taggedHash tag b) : a = b :=
  List.append_cancel_left (hcoll h)

/-- The number a hash stands for is at most the number a target stands for. -/
def MeetsTarget (workHash : Bytes) (target : Str) : Prop :=
  ∃ t : Bytes, t.length = 32 ∧ target = toHex t.reverse ∧ leNat workHash ≤ leNat t

/-- Comparing a hash with a displayed one compares their numbers. -/
theorem meetsWorkTarget_toHex (workHash t : Bytes) (hlen : workHash.length = 32)
    (ht : t.length = 32) : meetsWorkTarget L workHash (toHex t.reverse) =
      .ok (decide (leNat workHash ≤ leNat t)) := by
  unfold meetsWorkTarget
  simp only [bind_eq_ok_iff, failIf_eq_ok_iff, exists_const, pure_eq_ok_iff, not_not, ne_eq]
  exact ⟨hlen, t, (displayHashToInternal_eq_ok_iff L _ _ _).mpr ⟨ht, rfl⟩, rfl⟩

/-- On a hash and a target of the right form the comparison decides. -/
theorem meetsWorkTarget_eq_ok (workHash t : Bytes) (hlen : workHash.length = 32)
    (ht : t.length = 32) : ∃ b, meetsWorkTarget L workHash (toHex t.reverse) = .ok b ∧
      (b = true ↔ MeetsTarget workHash (toHex t.reverse)) := by
  refine ⟨_, meetsWorkTarget_toHex L workHash t hlen ht, ?_⟩
  rw [decide_eq_true_eq]
  constructor
  · exact fun h => ⟨t, ht, rfl, h⟩
  · rintro ⟨t', -, heq, hle⟩
    rw [List.reverse_inj.mp (toHex_inj _ _ heq)]
    exact hle

theorem internalHashToDisplay_eq_ok (value : Bytes) (h : value.length = 32) :
    internalHashToDisplay value = .ok (toHex value.reverse) := by
  unfold internalHashToDisplay
  simp only [bind_eq_ok_iff, failIf_eq_ok_iff, exists_const, pure_eq_ok_iff, ne_eq, not_not,
    and_true]
  exact h

theorem connectionWorkHash_four (a b c d : Bytes) :
    connectionWorkHash [a, b, c, d] = .ok (taggedHash workTag (a ++ b ++ c ++ d)) := by
  unfold connectionWorkHash
  simp only [bind_eq_ok_iff, failIf_eq_ok_iff, exists_const, pure_eq_ok_iff]
  refine ⟨fun h => h rfl, ?_⟩
  simp only [List.flatten_cons, List.flatten_nil, List.append_nil, List.append_assoc]

end Spellings

end P2CTools
