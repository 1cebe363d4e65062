import P2CTools.Source.Protocol

/-!
# DER

The bounded DER reader and the RSA-PSS key restrictions, from `verify.py`.

An element is a tag byte, a length in short or long form, and that many bytes.
The reader goes through a byte string element by element; what it keeps
between elements is the part not read yet, so the position is implicit. Each
element takes at least its two header bytes, so a bound of one more than the
number of bytes is never used up.

`checkPssKeyRestrictions` walks from the TBSCertificate to the parameters of
its key and checks them field by field. Its inner `ValueError`s never leave
it: each becomes one `ProofVerificationError`.

## Main definitions

* `derElements`: The elements of a byte string.
* `derSingle`: The value of the one element, with an expected tag.
* `derNonnegativeInteger`: A short INTEGER.
* `sha256Algorithm`: Whether an AlgorithmIdentifier's fields name SHA-256.
* `pssKeyRestrictions`: The checks on a TBSCertificate's key.
* `checkPssKeyRestrictions`: The same, with the program's error.

## Theorems

* `fails_derElements`: The reader raises `ValueError`s only.
* `fails_checkPssKeyRestrictions`: Every failure is a
  `ProofVerificationError`.
-/

namespace P2CTools

open Wire

namespace Der

/-- The contents of the object identifier of SHA-256. -/
def sha256OidDer : Bytes := [0x60, 0x86, 0x48, 0x01, 0x65, 0x03, 0x04, 0x02, 0x01]

/-- The contents of the object identifier of MGF1. -/
def mgf1OidDer : Bytes := [0x2a, 0x86, 0x48, 0x86, 0xf7, 0x0d, 0x01, 0x01, 0x08]

/-- The contents of the object identifier of RSASSA-PSS. -/
def rsassaPssOidDer : Bytes := [0x2a, 0x86, 0x48, 0x86, 0xf7, 0x0d, 0x01, 0x01, 0x0a]

/-- A tag with a value. -/
abbrev Element := UInt8 × Bytes

/-- The length that a length byte announces, with what follows it. -/
def derLength (length : UInt8) (rest : Bytes) : Except PyErr (Nat × Bytes) := do
  if length &&& 0x80 ≠ 0 then
    let count := (length &&& 0x7F).toNat
    failIf (count = 0 ∨ count > 4 ∨ rest.length < count) (valueError "invalid DER length")
    let lengthBytes := rest.take count
    let value := beNat lengthBytes
    let first ← getIndex lengthBytes 0
    failIf (first = 0 ∨ value < 128) (valueError "noncanonical DER length")
    return (value, rest.drop count)
  else return (length.toNat, rest)

/-- One element from the front of the bytes not read yet. -/
def derElement (encoded : Bytes) : Except PyErr (Element × Bytes) :=
  match encoded with
  | tag :: length :: rest => do
      failIf (tag &&& 0x1F = 0x1F) (valueError "unexpected high-tag-number DER element")
      let (size, rest) ← derLength length rest
      failIf (size > rest.length) (valueError "truncated DER value")
      return ((tag, rest.take size), rest.drop size)
  | _ => .error (valueError "truncated DER element")

/-- The loop of `_der_elements`, for at most the given number of tests. -/
def derLoop : Nat → Bytes → List Element → Except PyErr (List Element)
  | 0, _, _ => .error stuck
  | fuel + 1, encoded, elements =>
      if encoded = [] then .ok elements
      else do
        let (element, rest) ← derElement encoded
        derLoop fuel rest (elements ++ [element])

/-- The elements of a DER encoding, read to its end. -/
def derElements (encoded : Bytes) : Except PyErr (List Element) :=
  derLoop (encoded.length + 1) encoded []

/-- The value of an encoding that is a single element with the tag. -/
def derSingle (encoded : Bytes) (expectedTag : UInt8) : Except PyErr Bytes := do
  let elements ← derElements encoded
  match elements with
  | [(tag, value)] => do
      failIf (tag ≠ expectedTag) (valueError "unexpected DER element")
      return value
  | _ => .error (valueError "unexpected DER element")

/-- Whether an AlgorithmIdentifier is that of SHA-256, with its parameters
    absent or NULL. -/
def sha256Algorithm (encoded : Bytes) : Except PyErr Bool := do
  let fields ← derElements encoded
  return fields == [(0x06, sha256OidDer)] || fields == [(0x06, sha256OidDer), (0x05, [])]

/-- An integer of at most four bytes that is not negative and is encoded in as
    few as possible. -/
def derNonnegativeInteger (encoded : Bytes) : Except PyErr Nat := do
  let value ← derSingle encoded 0x02
  failIf (value = [] ∨ value.length > 4 ∨ (∃ x ∈ value.head?, x &&& 0x80 ≠ 0) ∨
      (value.length > 1 ∧ value.head? = some 0 ∧ ∃ x ∈ value[1]?, x &&& 0x80 = 0))
    (valueError "invalid nonnegative DER integer")
  return beNat value

/-- What the loop over the RSASSA-PSS parameters keeps. -/
structure PssState where
  hashIsSha256 : Bool
  mgf1IsSha256 : Bool
  minimumSalt : Nat
  previousTag : UInt8

/-- Whether a mask generation field names MGF1 with SHA-256. -/
def mgf1Algorithm (mgf : List Element) : Except PyErr Bool :=
  match mgf with
  | [first, (tag, parameters)] =>
      if first = (0x06, mgf1OidDer) ∧ tag = 0x30 then sha256Algorithm parameters else .ok false
  | _ => .ok false

/-- The branches on the tag of one RSASSA-PSS parameter. -/
def pssField (s : PssState) (tag : UInt8) (value : Bytes) : Except PyErr PssState :=
  if tag = 0xA0 then do
    let single ← derSingle value 0x30
    let hash ← sha256Algorithm single
    return { s with hashIsSha256 := hash }
  else if tag = 0xA1 then do
    let single ← derSingle value 0x30
    let mgf ← derElements single
    let mgf1 ← mgf1Algorithm mgf
    return { s with mgf1IsSha256 := mgf1 }
  else if tag = 0xA2 then do
    let salt ← derNonnegativeInteger value
    return { s with minimumSalt := salt }
  else do
    let trailer ← derNonnegativeInteger value
    failIf (trailer ≠ 1) (valueError "unsupported RSASSA-PSS trailer field")
    return s

/-- One pass of the loop over the RSASSA-PSS parameters. -/
def pssParameter (s : PssState) (element : Element) : Except PyErr PssState := do
  failIf (element.1 ∉ [0xA0, 0xA1, 0xA2, 0xA3] ∨ element.1 ≤ s.previousTag)
    (valueError "invalid RSASSA-PSS parameter order")
  let s ← pssField s element.1 element.2
  return { s with previousTag := element.1 }

/-- The checks on the parameters of an id-RSASSA-PSS AlgorithmIdentifier. -/
def pssParameters (parameters : List Element) : Except PyErr Unit :=
  match parameters with
  | [] => .ok ()
  | [(0x30, encoded)] => do
      let elements ← derElements encoded
      let s ← elements.foldlM pssParameter ⟨false, false, 20, 0x9F⟩
      failIf (!s.hashIsSha256 ∨ !s.mgf1IsSha256 ∨ s.minimumSalt > 32)
        (valueError "key does not permit SHA-256 / MGF1-SHA-256 / salt length 32")
  | _ => .error (valueError "invalid RSASSA-PSS parameters")

/-- The checks on the fields of the key's AlgorithmIdentifier. -/
def pssAlgorithm (algorithm : List Element) : Except PyErr Unit :=
  match algorithm with
  | [] => .error (valueError "not an id-RSASSA-PSS key")
  | oid :: parameters => do
      failIf (oid ≠ (0x06, rsassaPssOidDer)) (valueError "not an id-RSASSA-PSS key")
      pssParameters parameters

/-- The AlgorithmIdentifier inside a SubjectPublicKeyInfo. -/
def spkiAlgorithm (spki : List Element) : Except PyErr Bytes :=
  match spki with
  | [(0x30, algorithm), (0x03, _)] => .ok algorithm
  | _ => .error (valueError "invalid SubjectPublicKeyInfo")

/-- The place of the SubjectPublicKeyInfo in a TBSCertificate, behind the
    optional version, the serial, signature, issuer, validity and subject. -/
def spkiIndex (tbs : List Element) : Nat :=
  if tbs.head?.map Prod.fst = some 0xA0 then 6 else 5

/-- The SubjectPublicKeyInfo of a certificate, taken apart. -/
def tbsSpki (tbs : List Element) : Except PyErr Bytes :=
  match tbs[spkiIndex tbs]? with
  | some (0x30, spki) => .ok spki
  | _ => .error (valueError "missing SubjectPublicKeyInfo")

/-- The body of `_check_pss_key_restrictions`. -/
def pssKeyRestrictions (tbsCertificateBytes : Bytes) : Except PyErr Unit := do
  let single ← derSingle tbsCertificateBytes 0x30
  let tbs ← derElements single
  let spkiBytes ← tbsSpki tbs
  let spki ← derElements spkiBytes
  let algorithmBytes ← spkiAlgorithm spki
  let algorithm ← derElements algorithmBytes
  pssAlgorithm algorithm

/-- The restrictions that an RSA-PSS key carries have to permit the signature. -/
def checkPssKeyRestrictions (tbsCertificateBytes : Bytes) : Except PyErr Unit :=
  handle [.valueError]
    (fun e => .error (verificationFailure
      ("leaf RSA-PSS key restrictions do not permit CertificateVerify: " ++ e.msg)))
    (pssKeyRestrictions tbsCertificateBytes)

/-- The exception is a plain `ValueError`. -/
def IsValueError (e : PyErr) : Prop :=
  e.cls = .valueError

theorem fails_derLength (length : UInt8) (rest : Bytes) :
    Fails IsValueError (derLength length rest) := by
  unfold derLength
  by_cases h : length &&& 0x80 ≠ 0
  · rw [if_pos h]
    refine Fails.bind (fails_failIf _ rfl) fun _ hcount => ?_
    rw [failIf_eq_ok_iff] at hcount
    push Not at hcount
    refine Fails.bind ?_ fun first _ => Fails.bind (fails_failIf _ rfl) fun _ _ => fails_ok _
    -- The count is at least one and the bytes are there, so the index is valid.
    have hpos : 0 < (rest.take (length &&& 0x7F).toNat).length := by
      rw [List.length_take]
      omega
    rw [getIndex, List.getElem?_eq_getElem hpos]
    exact fails_ok _
  · rw [if_neg h]
    exact fails_ok _

theorem fails_derElement (encoded : Bytes) : Fails IsValueError (derElement encoded) := by
  match encoded with
  | [] => exact fails_error rfl
  | [x] => exact fails_error rfl
  | tag :: length :: rest =>
      exact Fails.bind (fails_failIf _ rfl) fun _ _ => Fails.bind (fails_derLength _ _) fun _ _ =>
        Fails.bind (fails_failIf _ rfl) fun _ _ => fails_ok _

/-- The announced length leaves no more bytes than there were. -/
theorem derLength_rest (length : UInt8) (rest rest' : Bytes) (size : Nat)
    (h : derLength length rest = .ok (size, rest')) : rest'.length ≤ rest.length := by
  unfold derLength at h
  by_cases hlong : length &&& 0x80 ≠ 0
  · rw [if_pos hlong] at h
    simp only [bind_eq_ok_iff, pure_eq_ok_iff, Prod.mk.injEq] at h
    rcases h with ⟨-, -, -, -, -, -, -, rfl⟩
    rw [List.length_drop]
    omega
  · rw [if_neg hlong, pure_eq_ok_iff, Prod.mk.injEq] at h
    rw [h.2]

/-- An element takes at least its header. -/
theorem derElement_rest (encoded rest : Bytes) (element : Element)
    (h : derElement encoded = .ok (element, rest)) : rest.length < encoded.length := by
  match encoded with
  | [] => exact nomatch h
  | [x] => exact nomatch h
  | tag :: length :: t =>
      simp only [derElement, bind_eq_ok_iff, pure_eq_ok_iff, Prod.mk.injEq] at h
      rcases h with ⟨-, -, ⟨size, t'⟩, hlength, -, -, -, rfl⟩
      have hle := derLength_rest _ _ _ _ hlength
      simp only [List.length_drop, List.length_cons]
      omega

/-- A bound above the number of bytes is never used up. -/
theorem fails_derLoop (fuel : Nat) (encoded : Bytes) (elements : List Element)
    (h : encoded.length < fuel) : Fails IsValueError (derLoop fuel encoded elements) := by
  induction fuel generalizing encoded elements with
  | zero => omega
  | succ fuel ih =>
      rw [derLoop]
      by_cases hnil : encoded = []
      · rw [if_pos hnil]
        exact fails_ok _
      · rw [if_neg hnil]
        refine Fails.bind (fails_derElement encoded) fun pair hpair => ih _ _ ?_
        have hlt := derElement_rest encoded pair.2 pair.1 hpair
        omega

/-- The reader raises plain `ValueError`s only. -/
theorem fails_derElements (encoded : Bytes) : Fails IsValueError (derElements encoded) :=
  fails_derLoop _ _ _ (Nat.lt_succ_self _)

theorem fails_derSingle (encoded : Bytes) (tag : UInt8) :
    Fails IsValueError (derSingle encoded tag) := by
  refine Fails.bind (fails_derElements encoded) fun elements _ => ?_
  split
  · exact Fails.bind (fails_failIf _ rfl) fun _ _ => fails_ok _
  · exact fails_error rfl

theorem fails_sha256Algorithm (encoded : Bytes) : Fails IsValueError (sha256Algorithm encoded) :=
  Fails.bind (fails_derElements encoded) fun _ _ => fails_ok _

theorem fails_derNonnegativeInteger (encoded : Bytes) :
    Fails IsValueError (derNonnegativeInteger encoded) :=
  Fails.bind (fails_derSingle _ _) fun _ _ => Fails.bind (fails_failIf _ rfl) fun _ _ => fails_ok _

theorem fails_mgf1Algorithm (mgf : List Element) : Fails IsValueError (mgf1Algorithm mgf) := by
  unfold mgf1Algorithm
  split
  · split
    · exact fails_sha256Algorithm _
    · exact fails_ok false
  · exact fails_ok false

theorem fails_pssField (s : PssState) (tag : UInt8) (value : Bytes) :
    Fails IsValueError (pssField s tag value) := by
  unfold pssField
  split
  · exact Fails.bind (fails_derSingle _ _) fun _ _ => Fails.bind (fails_sha256Algorithm _)
      fun _ _ => fails_ok _
  · split
    · exact Fails.bind (fails_derSingle _ _) fun _ _ => Fails.bind (fails_derElements _)
        fun mgf _ => Fails.bind (fails_mgf1Algorithm mgf) fun _ _ => fails_ok _
    · split
      · exact Fails.bind (fails_derNonnegativeInteger _) fun _ _ => fails_ok _
      · exact Fails.bind (fails_derNonnegativeInteger _) fun _ _ =>
          Fails.bind (fails_failIf _ rfl) fun _ _ => fails_ok _

theorem fails_pssParameter (s : PssState) (element : Element) :
    Fails IsValueError (pssParameter s element) :=
  Fails.bind (fails_failIf _ rfl) fun _ _ => Fails.bind (fails_pssField _ _ _)
    fun _ _ => fails_ok _

theorem fails_foldlM_pssParameter (elements : List Element) (s : PssState) :
    Fails IsValueError (elements.foldlM pssParameter s) := by
  induction elements generalizing s with
  | nil => exact fails_ok s
  | cons element elements ih =>
      rw [List.foldlM_cons]
      exact Fails.bind (fails_pssParameter s element) fun s' _ => ih s'

theorem fails_pssParameters (parameters : List Element) :
    Fails IsValueError (pssParameters parameters) := by
  unfold pssParameters
  split
  · exact fails_ok ()
  · exact Fails.bind (fails_derElements _) fun elements _ =>
      Fails.bind (fails_foldlM_pssParameter elements _) fun _ _ => fails_failIf _ rfl
  · exact fails_error rfl

theorem fails_pssAlgorithm (algorithm : List Element) :
    Fails IsValueError (pssAlgorithm algorithm) := by
  cases algorithm with
  | nil => exact fails_error rfl
  | cons oid parameters =>
      exact Fails.bind (fails_failIf _ rfl) fun _ _ => fails_pssParameters parameters

theorem fails_spkiAlgorithm (spki : List Element) : Fails IsValueError (spkiAlgorithm spki) := by
  unfold spkiAlgorithm
  split
  · exact fails_ok _
  · exact fails_error rfl

theorem fails_tbsSpki (tbs : List Element) : Fails IsValueError (tbsSpki tbs) := by
  unfold tbsSpki
  split
  · exact fails_ok _
  · exact fails_error rfl

theorem fails_pssKeyRestrictions (tbs : Bytes) : Fails IsValueError (pssKeyRestrictions tbs) :=
  Fails.bind (fails_derSingle _ _) fun _ _ => Fails.bind (fails_derElements _) fun tbs _ =>
  Fails.bind (fails_tbsSpki tbs) fun _ _ => Fails.bind (fails_derElements _) fun spki _ =>
  Fails.bind (fails_spkiAlgorithm spki) fun _ _ => Fails.bind (fails_derElements _)
  fun algorithm _ => fails_pssAlgorithm algorithm

/-- Every failure of the key check is a `ProofVerificationError`. -/
theorem fails_checkPssKeyRestrictions (tbs : Bytes) :
    Fails (fun e => e.cls = .proofVerificationError) (checkPssKeyRestrictions tbs) := by
  refine fails_handle _ _ _ (fun e _ _ => fails_error rfl) fun e he hnot => ?_
  have hvalue := fails_pssKeyRestrictions tbs e he
  rw [List.any_cons, PyErr.isA, hvalue] at hnot
  exact nomatch hnot

end Der

end P2CTools
