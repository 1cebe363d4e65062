import P2CTools.Source.Values

/-!
# Signature Algorithms

The three signature schemes and the mask that selects among them, from
`signatures.py`.

A mask is checked where it enters and again by each function that uses it, so
the two functions below can fail; on a mask between 1 and 7 they do not, and
what they compute is the list of the schemes whose bit is set.

## Main definitions

* `SignatureAlgorithm`: A bit of the mask, with its scheme.
* `validateSignatureAlgorithmsMask`: The check on a mask.
* `acceptedSignatureAlgorithms`: The algorithms a mask selects.
* `signatureSchemeAllowed`: A mask selects a scheme.
* `maskSchemes`: The schemes of the selected algorithms.

## Theorems

* `validateSignatureAlgorithmsMask_eq_ok_iff`: The accepted masks.
* `signatureSchemeAllowed_eq`: What the check decides on an accepted mask.
-/

namespace P2CTools

open Wire

/-- A signature algorithm with its bit in a mask. -/
structure SignatureAlgorithm where
  mask : Nat
  scheme : Nat
  name : String
  deriving DecidableEq

/-- The algorithms there are bits for. -/
def signatureAlgorithms : List SignatureAlgorithm :=
  [⟨1, 0x0403, "ecdsa_secp256r1_sha256"⟩, ⟨2, 0x0804, "rsa_pss_rsae_sha256"⟩,
    ⟨4, 0x0809, "rsa_pss_pss_sha256"⟩]

/-- A mask is an `int` that selects some of the three algorithms and nothing
    else. -/
def validateSignatureAlgorithmsMask : Value → Except PyErr Int
  | .int value =>
      if 1 ≤ value ∧ value ≤ 7 then .ok value
      else .error (formatError "signature_algorithms_mask must be an integer between 1 and 7")
  | _ => .error (formatError "signature_algorithms_mask must be an integer between 1 and 7")

/-- The algorithms that a mask selects. -/
def acceptedSignatureAlgorithms (mask : Int) : Except PyErr (List SignatureAlgorithm) := do
  let _ ← validateSignatureAlgorithmsMask (.int mask)
  return signatureAlgorithms.filter fun algorithm => mask.toNat &&& algorithm.mask ≠ 0

/-- Whether a mask selects an algorithm with the scheme. -/
def signatureSchemeAllowed (mask : Int) (scheme : Nat) : Except PyErr Bool := do
  let accepted ← acceptedSignatureAlgorithms mask
  return accepted.any fun algorithm => algorithm.scheme == scheme

/-- The schemes of the algorithms that a mask selects. -/
def maskSchemes (mask : Int) : List Nat :=
  (signatureAlgorithms.filter fun algorithm => mask.toNat &&& algorithm.mask ≠ 0).map
    SignatureAlgorithm.scheme

theorem validateSignatureAlgorithmsMask_eq_ok_iff (value : Value) (mask : Int) :
    validateSignatureAlgorithmsMask value = .ok mask ↔ value = .int mask ∧ 1 ≤ mask ∧ mask ≤ 7 := by
  cases value with
  | int n =>
      rw [Value.int.injEq]
      exact checked_eq_ok_iff (fun k => 1 ≤ k ∧ k ≤ 7) n mask _
  -- No other type of object is accepted, not even a boolean.
  | none | bool b | str s | bytes b | list xs | dict entries =>
      simp only [validateSignatureAlgorithmsMask, reduceCtorEq, false_and]

theorem fails_validateSignatureAlgorithmsMask (value : Value) :
    Fails (fun e => e.cls = .proofFormatError) (validateSignatureAlgorithmsMask value) := by
  cases value with
  | int n =>
      rw [validateSignatureAlgorithmsMask]
      by_cases h : 1 ≤ n ∧ n ≤ 7
      · rw [if_pos h]
        exact fails_ok n
      · rw [if_neg h]
        exact fails_error rfl
  | none | bool b | str s | bytes b | list xs | dict entries => exact fails_error rfl

/-- On an accepted mask the selected algorithms are the ones whose bit is set. -/
theorem acceptedSignatureAlgorithms_eq (mask : Int) (h : 1 ≤ mask ∧ mask ≤ 7) :
    acceptedSignatureAlgorithms mask =
      .ok (signatureAlgorithms.filter fun algorithm => mask.toNat &&& algorithm.mask ≠ 0) := by
  rw [acceptedSignatureAlgorithms,
    (validateSignatureAlgorithmsMask_eq_ok_iff (.int mask) mask).mpr ⟨rfl, h⟩]
  rfl

/-- On an accepted mask the check decides whether the scheme is selected. -/
theorem signatureSchemeAllowed_eq (mask : Int) (scheme : Nat) (h : 1 ≤ mask ∧ mask ≤ 7) :
    signatureSchemeAllowed mask scheme = .ok (decide (scheme ∈ maskSchemes mask)) := by
  rw [signatureSchemeAllowed, acceptedSignatureAlgorithms_eq mask h]
  refine congrArg Except.ok ?_
  rw [maskSchemes, Bool.eq_iff_iff, decide_eq_true_eq, List.any_eq_true, List.mem_map]
  simp only [beq_iff_eq]

end P2CTools
