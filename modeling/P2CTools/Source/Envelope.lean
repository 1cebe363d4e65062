import P2CTools.Source.Domain
import P2CTools.Source.Hashes
import P2CTools.Source.Signatures

/-!
# The Envelope

`ConnectionProof` and its dictionary form, from `envelope.py`.

The dataclass is frozen and its constructor checks every field, so a
`ConnectionProof` is a record of typed fields together with the fact that they
passed. The constructor itself takes whatever objects it is given; `postInit`
is its list of checks, in the source's order, and `postInit_eq_ok_iff` says
what they come to. `dataclasses.replace` is the constructor again.

## Main definitions

* `RawFields`: What a caller passes to the constructor.
* `Fields`: The fields with their types.
* `Admitted`: What the constructor's checks come to.
* `ConnectionProof`: An envelope.
* `construct`: The constructor.
* `ConnectionProof.toDict`, `fromDict`: The dictionary form.
* `ConnectionProof.serialized`: The text that is written to a file.

## Theorems

* `requireHex_eq_ok_iff`: The accepted hexadecimal fields.
* `postInit_eq_ok_iff`: The accepted fields.
* `construct_eq_ok_iff`: The constructor returns an envelope of its fields.
* `ConnectionProof.challenge_eq_ok`: Every envelope has a challenge.
-/

namespace P2CTools

open Wire

/-- The format that an envelope names. -/
def format : Str := Str.ofString "connectcoin-p2c-proof"

/-- The one version of envelopes. -/
abbrev envelopeVersion : Int := 2

/-- The keys of an envelope's dictionary. -/
def expectedKeys : List Str :=
  ["format", "version", "domain", "txid", "input_index", "connection_work_target",
    "root_certificates_version", "signature_algorithms_mask", "validation_time", "proof"].map
    Str.ofString

/-- The dictionary has the keys of an envelope and no others. What is missing
    is complained of first. -/
def requireExactKeys (value : List (Str × Value)) : Except PyErr Unit := do
  let keys := value.map Prod.fst
  let missing := expectedKeys.filter fun key => !keys.contains key
  let extra := keys.filter fun key => !expectedKeys.contains key
  failIf (missing ≠ []) (formatError ("connection-proof.json is missing: " ++ joinSorted missing))
  failIf (extra ≠ [])
    (formatError ("connection-proof.json has unknown fields: " ++ joinSorted extra))

/-- What a caller passes to the constructor. -/
structure RawFields where
  domain : Value
  txid : Value
  inputIndex : Value
  connectionWorkTarget : Value
  rootCertificatesVersion : Value
  signatureAlgorithmsMask : Value
  validationTime : Value
  proof : Value
  version : Value := .int envelopeVersion

/-- The fields of an envelope. -/
structure Fields where
  domain : Str
  txid : Str
  inputIndex : Int
  connectionWorkTarget : Str
  rootCertificatesVersion : Int
  signatureAlgorithmsMask : Int
  validationTime : Int
  proof : Bytes
  version : Int := envelopeVersion
  deriving DecidableEq

/-- Typed fields as the objects they are. -/
def Fields.raw (f : Fields) : RawFields where
  domain := .str f.domain
  txid := .str f.txid
  inputIndex := .int f.inputIndex
  connectionWorkTarget := .str f.connectionWorkTarget
  rootCertificatesVersion := .int f.rootCertificatesVersion
  signatureAlgorithmsMask := .int f.signatureAlgorithmsMask
  validationTime := .int f.validationTime
  proof := .bytes f.proof
  version := .int f.version

/-- The digits of exactly `n` bytes. -/
def HexOf (n : Nat) (s : Str) : Prop :=
  ∃ b : Bytes, b.length = n ∧ s = toHex b

/-- What the constructor's checks come to. -/
structure Admitted (f : Fields) : Prop where
  version : f.version = envelopeVersion
  domain : isCanonicalDomain f.domain = true
  txid : HexOf 32 f.txid
  connectionWorkTarget : HexOf 32 f.connectionWorkTarget
  inputIndex : 0 ≤ f.inputIndex ∧ f.inputIndex ≤ 0xFFFFFFFF
  rootCertificatesVersion : 1 ≤ f.rootCertificatesVersion ∧ f.rootCertificatesVersion ≤ 0xFFFFFFFF
  signatureAlgorithmsMask : 1 ≤ f.signatureAlgorithmsMask ∧ f.signatureAlgorithmsMask ≤ 7
  validationTime : 1 ≤ f.validationTime ∧ f.validationTime ≤ 0x7FFFFFFFFFFFFFFF
  proof : f.proof.length ≤ 64 * 1024

/-- An envelope: fields that passed the constructor. -/
structure ConnectionProof extends Fields where
  admitted : Admitted toFields
  deriving DecidableEq

theorem ConnectionProof.ext {a b : ConnectionProof} (h : a.toFields = b.toFields) : a = b := by
  rcases a with ⟨fa, ha⟩
  rcases b with ⟨fb, hb⟩
  cases h
  rfl

/-- An `int` that is the version of envelopes. -/
def requireVersion : Value → Except PyErr Int
  | .int n =>
      if n = envelopeVersion then .ok n
      else .error (formatError "only connection proof envelope version 2 is supported")
  | _ => .error (formatError "only connection proof envelope version 2 is supported")

/-- A string that is a canonical domain. -/
def requireDomain : Value → Except PyErr Str
  | .str s =>
      if isCanonicalDomain s then .ok s
      else .error (formatError "domain is not canonical lower-case ASCII DNS form")
  | _ => .error (formatError "domain is not canonical lower-case ASCII DNS form")

/-- An `int` between zero and a maximum. -/
def requireUint (value : Value) (name : String) (maximum : Nat) : Except PyErr Int :=
  match value with
  | .int n =>
      if 0 ≤ n ∧ n ≤ maximum then .ok n
      else .error (formatError (name ++ " must be an integer between 0 and " ++ toString maximum))
  | _ => .error (formatError (name ++ " must be an integer between 0 and " ++ toString maximum))

/-- A `bytes` object. -/
def requireBytes : Value → Except PyErr Bytes
  | .bytes b => .ok b
  | _ => .error (formatError "proof must contain bytes")

/-- A string, with the error for anything else. -/
def requireStr (value : Value) (e : PyErr) : Except PyErr Str :=
  match value with
  | .str s => .ok s
  | _ => .error e

section Checks

variable (L : Lowercase)

/-- The bytes of a text of lower-case hexadecimal digits, not an empty one,
    which may have to have an exact size. -/
def requireHex (value : Value) (name : String) (exactSize : Option Nat) : Except PyErr Str := do
  let s ← requireStr value (formatError (name ++ " must be non-empty lowercase hexadecimal"))
  failIf (s ≠ L.lower s ∨ s = []) (formatError (name ++ " must be non-empty lowercase hexadecimal"))
  failIf (s.length % 2 ≠ 0) (formatError (name ++ " must contain whole bytes"))
  failIf (s.any fun character => !isLowerHex character)
    (formatError (name ++ " must be non-empty lowercase hexadecimal"))
  let encoded ← fromHex s
  failIf (∃ n ∈ exactSize, encoded.length ≠ n)
    (formatError (name ++ " must contain exactly " ++ toString (exactSize.getD 0) ++ " bytes"))
  return s

/-- `__post_init__`: the checks on the arguments of the constructor, in their
    order. -/
def postInit (f : RawFields) : Except PyErr Fields := do
  let version ← requireVersion f.version
  let domain ← requireDomain f.domain
  let txid ← requireHex L f.txid "txid" (some 32)
  let target ← requireHex L f.connectionWorkTarget "connection_work_target" (some 32)
  let inputIndex ← requireUint f.inputIndex "input_index" 0xFFFFFFFF
  let rootsVersion ← requireUint f.rootCertificatesVersion "root_certificates_version" 0xFFFFFFFF
  failIf (rootsVersion = 0) (formatError "root_certificates_version must not be zero")
  let mask ← validateSignatureAlgorithmsMask f.signatureAlgorithmsMask
  let validationTime ← requireUint f.validationTime "validation_time" 0x7FFFFFFFFFFFFFFF
  failIf (validationTime = 0) (formatError "validation_time must be positive")
  let proof ← requireBytes f.proof
  failIf (proof.length > 64 * 1024) (formatError "proof exceeds the 64 KiB consensus limit")
  return ⟨domain, txid, inputIndex, target, rootsVersion, mask, validationTime, proof, version⟩

theorem requireStr_eq_ok_iff (value : Value) (e : PyErr) (s : Str) :
    requireStr value e = .ok s ↔ value = .str s := by
  cases value with
  | str t => simp only [requireStr, Except.ok.injEq, Value.str.injEq]
  | none | bool b | int n | bytes b | list xs | dict entries =>
      simp only [requireStr, reduceCtorEq]

/-- The accepted hexadecimal fields are the digits of some bytes, at least one
    and as many as asked for. -/
theorem requireHex_eq_ok_iff (value : Value) (name : String) (exactSize : Option Nat) (s : Str) :
    requireHex L value name exactSize = .ok s ↔
      value = .str s ∧ ∃ b : Bytes, s = toHex b ∧ b ≠ [] ∧ ∀ n ∈ exactSize, b.length = n := by
  unfold requireHex
  simp only [bind_eq_ok_iff, failIf_eq_ok_iff, exists_const, pure_eq_ok_iff, requireStr_eq_ok_iff,
    not_or, not_not, not_exists, not_and, Bool.not_eq_true, List.any_eq_false, ne_eq,
    Bool.not_eq_eq_eq_not, Bool.not_true, Bool.not_eq_false]
  constructor
  -- The digits are in pairs, so they are the writing of some bytes.
  · rintro ⟨t, rfl, ⟨-, hne⟩, heven, hdigits, b, hb, hsize, rfl⟩
    rcases toHex_fromHex (t.length / 2) t (by omega) hdigits with ⟨b', hb', hback, -⟩
    rw [hb, Except.ok.injEq] at hb'
    subst hb'
    refine ⟨rfl, b, hback.symm, ?_, hsize⟩
    rintro rfl
    exact hne hback.symm
  -- The digits of bytes are lower case, and come in pairs.
  · rintro ⟨rfl, b, rfl, hne, hsize⟩
    have hdigits := isLowerHex_toHex b
    refine ⟨_, rfl, ⟨(L.lower_of_isLowerHex _ hdigits).symm, ?_⟩, ?_, hdigits, b, fromHex_toHex b,
      hsize, rfl⟩
    · intro hnil
      have hlen := length_toHex b
      rw [hnil, List.length_nil] at hlen
      exact hne (List.eq_nil_of_length_eq_zero (by omega))
    · rw [length_toHex]
      omega

theorem requireHex_32_eq_ok_iff (value : Value) (name : String) (s : Str) :
    requireHex L value name (some 32) = .ok s ↔ value = .str s ∧ HexOf 32 s := by
  rw [requireHex_eq_ok_iff]
  simp only [Option.mem_some_iff, forall_eq']
  constructor
  · rintro ⟨rfl, b, rfl, -, hlen⟩
    exact ⟨rfl, b, hlen, rfl⟩
  · rintro ⟨rfl, b, hlen, rfl⟩
    refine ⟨rfl, b, rfl, ?_, hlen⟩
    rintro rfl
    exact absurd hlen (by decide)

theorem requireVersion_eq_ok_iff (value : Value) (n : Int) :
    requireVersion value = .ok n ↔ value = .int n ∧ n = envelopeVersion := by
  cases value with
  | int m =>
      rw [Value.int.injEq]
      exact checked_eq_ok_iff (fun k => k = envelopeVersion) m n _
  | none | bool b | str s | bytes b | list xs | dict entries =>
      simp only [requireVersion, reduceCtorEq, false_and]

theorem requireDomain_eq_ok_iff (value : Value) (s : Str) :
    requireDomain value = .ok s ↔ value = .str s ∧ isCanonicalDomain s = true := by
  cases value with
  | str t =>
      rw [Value.str.injEq]
      exact checked_eq_ok_iff (fun domain => isCanonicalDomain domain = true) t s _
  | none | bool b | int n | bytes b | list xs | dict entries =>
      simp only [requireDomain, reduceCtorEq, false_and]

theorem requireUint_eq_ok_iff (value : Value) (name : String) (maximum : Nat) (n : Int) :
    requireUint value name maximum = .ok n ↔ value = .int n ∧ 0 ≤ n ∧ n ≤ maximum := by
  cases value with
  | int m =>
      rw [Value.int.injEq]
      exact checked_eq_ok_iff (fun k => 0 ≤ k ∧ k ≤ (maximum : Int)) m n _
  | none | bool b | str s | bytes b | list xs | dict entries =>
      simp only [requireUint, reduceCtorEq, false_and]

theorem requireBytes_eq_ok_iff (value : Value) (b : Bytes) :
    requireBytes value = .ok b ↔ value = .bytes b := by
  cases value with
  | bytes c => simp only [requireBytes, Except.ok.injEq, Value.bytes.injEq]
  | none | bool c | int n | str s | list xs | dict entries =>
      simp only [requireBytes, reduceCtorEq]

/-- The constructor's checks pass exactly on the objects of admitted fields. -/
theorem postInit_eq_ok_iff (r : RawFields) (f : Fields) :
    postInit L r = .ok f ↔ r = f.raw ∧ Admitted f := by
  unfold postInit
  simp only [bind_eq_ok_iff, failIf_eq_ok_iff, exists_const, pure_eq_ok_iff,
    requireVersion_eq_ok_iff, requireDomain_eq_ok_iff, requireHex_32_eq_ok_iff,
    requireUint_eq_ok_iff, requireBytes_eq_ok_iff, validateSignatureAlgorithmsMask_eq_ok_iff,
    not_lt, gt_iff_lt]
  constructor
  · rintro ⟨version, ⟨hversion, hv⟩, domain, ⟨hdomain, hd⟩, txid, ⟨htxid, ht⟩, target,
      ⟨htarget, hw⟩, inputIndex, ⟨hindex, hi⟩, roots, ⟨hroots, hr⟩, hr0, mask, ⟨hmask, hm⟩, time,
      ⟨htime, htm⟩, htm0, proof, hproof, hp, rfl⟩
    -- Every field is an object of the type that its check asks for.
    rcases r with ⟨_, _, _, _, _, _, _, _, _⟩
    simp only at hversion hdomain htxid htarget hindex hroots hmask htime hproof
    subst hversion hdomain htxid htarget hindex hroots hmask htime hproof
    refine ⟨rfl, hv, hd, ht, hw, hi, ⟨?_, hr.2⟩, hm, ⟨?_, htm.2⟩, hp⟩
    · change 1 ≤ roots
      omega
    · change 1 ≤ time
      omega
  · rintro ⟨rfl, h⟩
    have hroots := h.rootCertificatesVersion
    have htime := h.validationTime
    exact ⟨f.version, ⟨rfl, h.version⟩, f.domain, ⟨rfl, h.domain⟩, f.txid, ⟨rfl, h.txid⟩,
      f.connectionWorkTarget, ⟨rfl, h.connectionWorkTarget⟩, f.inputIndex, ⟨rfl, h.inputIndex⟩,
      f.rootCertificatesVersion, ⟨rfl, by omega, hroots.2⟩, by omega, f.signatureAlgorithmsMask,
      ⟨rfl, h.signatureAlgorithmsMask⟩, f.validationTime, ⟨rfl, by omega, htime.2⟩, by omega,
      f.proof, rfl, h.proof, rfl⟩

/-- `ConnectionProof(..)`. -/
def construct (r : RawFields) : Except PyErr ConnectionProof :=
  match h : postInit L r with
  | .ok f => .ok ⟨f, ((postInit_eq_ok_iff L r f).mp h).2⟩
  | .error e => .error e

/-- The constructor returns an envelope exactly of that envelope's fields. -/
theorem construct_eq_ok_iff (r : RawFields) (e : ConnectionProof) :
    construct L r = .ok e ↔ r = e.raw := by
  unfold construct
  constructor
  · intro h
    split at h
    next f hf =>
      rw [← Except.ok.inj h]
      exact ((postInit_eq_ok_iff L r f).mp hf).1
    next e' he => exact nomatch h
  · rintro rfl
    -- The fields of an envelope pass the checks again.
    have hinit : postInit L e.raw = .ok e.toFields :=
      (postInit_eq_ok_iff L e.raw e.toFields).mpr ⟨rfl, e.admitted⟩
    split
    next f hf =>
      rw [hinit] at hf
      exact congrArg Except.ok (ConnectionProof.ext (Except.ok.inj hf).symm)
    next e' he =>
      rw [hinit] at he
      exact nomatch he

/-- `replace(e, proof=..)`. -/
def ConnectionProof.replaceProof (e : ConnectionProof) (proof : Bytes) :
    Except PyErr ConnectionProof :=
  construct L { e.raw with proof := .bytes proof }

/-- `replace(e, connection_work_target=..)`. -/
def ConnectionProof.replaceTarget (e : ConnectionProof) (target : Str) :
    Except PyErr ConnectionProof :=
  construct L { e.raw with connectionWorkTarget := .str target }

/-- The challenge of the claim that an envelope is for. -/
def ConnectionProof.challenge (e : ConnectionProof) : Except PyErr Bytes :=
  claimChallenge L e.txid e.inputIndex

/-- A proof that is written or read begins with its version. -/
def ConnectionProof.checkSerializedProof (e : ConnectionProof) : Except PyErr Unit :=
  failIf (e.proof.head? ≠ some 2)
    (formatError "serialized proof must begin with P2C proof version 2")

/-- The dictionary of an envelope, with its keys in order. -/
def ConnectionProof.toDict (e : ConnectionProof) : Except PyErr (List (Str × Value)) := do
  e.checkSerializedProof
  return [
    (Str.ofString "format", .str format),
    (Str.ofString "version", .int e.version),
    (Str.ofString "domain", .str e.domain),
    (Str.ofString "txid", .str e.txid),
    (Str.ofString "input_index", .int e.inputIndex),
    (Str.ofString "connection_work_target", .str e.connectionWorkTarget),
    (Str.ofString "root_certificates_version", .int e.rootCertificatesVersion),
    (Str.ofString "signature_algorithms_mask", .int e.signatureAlgorithmsMask),
    (Str.ofString "validation_time", .int e.validationTime),
    (Str.ofString "proof", .str (toHex e.proof))]

/-- The text that `write` puts into the file. -/
def ConnectionProof.serialized (e : ConnectionProof) : Except PyErr Str := do
  let dict ← e.toDict
  let text ← dumps dict
  return text ++ Str.ofString "\n"

/-- `value["format"] != FORMAT`. -/
def isFormat : Value → Bool
  | .str s => s == format
  | _ => false

/-- The dictionary that a value is, if it is one. -/
def requireDict : Value → Except PyErr (List (Str × Value))
  | .dict entries => .ok entries
  | _ => .error (formatError "connection-proof.json must contain one JSON object")

/-- An envelope from a decoded document. -/
def fromDict (value : Value) : Except PyErr ConnectionProof := do
  let entries ← requireDict value
  requireExactKeys entries
  let format ← Value.getItem entries "format"
  failIf (¬isFormat format) (formatError "format must be 'connectcoin-p2c-proof'")
  let _ ← requireVersion (← Value.getItem entries "version")
  let domain ← requireDomain (← Value.getItem entries "domain")
  let txid ← requireHex L (← Value.getItem entries "txid") "txid" (some 32)
  let target ← requireHex L (← Value.getItem entries "connection_work_target")
    "connection_work_target" (some 32)
  let inputIndex ← requireUint (← Value.getItem entries "input_index") "input_index" 0xFFFFFFFF
  let rootsVersion ← requireUint (← Value.getItem entries "root_certificates_version")
    "root_certificates_version" 0xFFFFFFFF
  failIf (rootsVersion = 0) (formatError "root_certificates_version must not be zero")
  let signatureMask ← validateSignatureAlgorithmsMask
    (← Value.getItem entries "signature_algorithms_mask")
  let validationTime ← requireUint (← Value.getItem entries "validation_time") "validation_time"
    0x7FFFFFFFFFFFFFFF
  failIf (validationTime = 0) (formatError "validation_time must be positive")
  let proofHex ← requireHex L (← Value.getItem entries "proof") "proof" none
  let proof ← fromHex proofHex
  failIf (proof.length > 64 * 1024) (formatError "proof exceeds the 64 KiB consensus limit")
  let result ← construct L
    { domain := .str domain
      txid := .str txid
      inputIndex := .int inputIndex
      connectionWorkTarget := .str target
      rootCertificatesVersion := .int rootsVersion
      signatureAlgorithmsMask := .int signatureMask
      validationTime := .int validationTime
      proof := .bytes proof }
  let _ ← claimChallenge L result.txid result.inputIndex
  result.checkSerializedProof
  return result

end Checks

theorem HexOf.internal {s : Str} (h : HexOf 32 s) :
    ∃ b : Bytes, b.length = 32 ∧ s = toHex b.reverse := by
  rcases h with ⟨b, hlen, rfl⟩
  exact ⟨b.reverse, by rw [List.length_reverse, hlen], by rw [List.reverse_reverse]⟩

/-- Every envelope has a challenge, of 32 bytes. -/
theorem ConnectionProof.challenge_eq_ok (L : Lowercase) (e : ConnectionProof) :
    ∃ c, e.challenge L = .ok c ∧ c.length = 32 := by
  rcases e.admitted.txid.internal with ⟨b, hlen, hb⟩
  have hrange := e.admitted.inputIndex
  exact ⟨_, (claimChallenge_eq_ok_iff L _ _ _).mpr ⟨hrange.1, hrange.2, b, hlen, hb, rfl⟩,
    length_taggedHash _ _⟩

end P2CTools
