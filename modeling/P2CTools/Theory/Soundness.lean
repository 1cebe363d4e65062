import P2CTools.Theory.Search

/-!
# What Verification Has Checked

The meaning of an accepted proof, in the terms of its certificates and keys.

Acceptance is spread over stages that stop at their first failure, read
extensions that need not be there, and choose the signature check by the
scheme. Each stage gets its condition here as an equivalence, so nothing that
a stage checks is lost and nothing it does not check is added. `Checked` is
the sum of the conditions, without the signature check. It names the library's
answers only where the program asks for them, and it asks nothing of a
library's signature checks, so it is the same for two libraries that differ in
those.

That is what makes the count of the signature checks a theorem:
`withSignatures` puts other signature checks into a library, and acceptance
under all of them hangs on one call.

## Main definitions

* `BoundedExponent`: The bound on an RSA certificate's exponent.
* `UsableLeaf`: What the leaf's extensions allow.
* `KeyAgrees`: The key that a scheme asks for.
* `SignatureCheck`: One call of a key's signature check.
* `Checked`: Everything an accepted proof has passed but that call.

## Theorems

* `checkRsaPublicExponents_eq_ok_iff`, `loadRoots_eq_ok_iff`,
  `checkSuppliedCertificateTimes_eq_ok_iff`, `checkLeafUsage_eq_ok_iff`,
  `verifyCertificateSignature_eq_ok_iff`: The conditions of the stages.
* `verifyConnectionProof_eq_ok_iff_checked`: The condition of them all.
* `verified_proof_sound`: What follows from acceptance.
-/

namespace P2CTools

open Wire Protocol

/-- A number has at most `k` bits when it is below the power of two. -/
theorem bitLength_le_iff (n k : Nat) : bitLength n ≤ k ↔ n < 2 ^ k := by
  unfold bitLength
  by_cases h : n = 0
  · rw [if_pos h, h]
    simp only [Nat.zero_le, Nat.two_pow_pos]
  · rw [if_neg h, Nat.succ_le_iff, Nat.log2_lt h]

/-- A handler that only raises lets a result through, whichever it is. -/
theorem handleFirst_eq_ok_iff {α : Type}
    (handlers : List (List ErrorClass × (PyErr → Except PyErr α))) (r : Except PyErr α) (x : α)
    (h : ∀ entry ∈ handlers, ∀ e, entry.2 e ≠ .ok x) :
    handleFirst handlers r = .ok x ↔ r = .ok x := by
  cases r with
  | ok y => rfl
  | error e =>
      refine iff_of_false ?_ (fun hr => nomatch hr)
      intro hok
      unfold handleFirst at hok
      cases hfind : handlers.find? fun entry => entry.1.any e.isA with
      | none =>
          simp only [hfind, reduceCtorEq] at hok
      | some entry =>
          simp only [hfind] at hok
          exact h entry (List.mem_of_find?_eq_some hfind) e hok

section Conditions

variable {Cert Key : Type} (X : X509 Cert Key)

/-- An RSA certificate holds an RSA key with an exponent below 2^64. -/
def BoundedExponent (certificate : Cert) : Prop :=
  X.publicKeyAlgorithmOid certificate ∈ [oidRsaEncryption, oidRsassaPss] →
    ∃ key exponent size, X.publicKey certificate = .ok key ∧
      X.keyKind key = .rsa exponent size ∧ exponent < 2 ^ 64

/-- The leaf's KeyUsage and ExtendedKeyUsage, where it has them, allow digital
    signatures and the authentication of a server. -/
def UsableLeaf (leaf : Cert) : Prop :=
  (∃ extensions, X.extensions leaf = .ok extensions ∧ extensions.keyUsage ≠ some false ∧
    ∀ usages ∈ extensions.extendedKeyUsage,
      oidServerAuth ∈ usages ∨ oidAnyExtendedKeyUsage ∈ usages) ∨
  ∃ e, X.extensions leaf = .error e ∧ e.isA .extensionNotFound = true

/-- The key that a scheme asks for: a P-256 key for ECDSA, and for the two
    RSA-PSS schemes an RSA key of at least 2048 bits in the encoding that the
    scheme names, with restrictions that allow the scheme where it is a PSS
    key. -/
def KeyAgrees (leaf : Cert) (key : Key) (scheme : Nat) : Prop :=
  (scheme = ecdsaSecp256r1Sha256 ∧ X.keyKind key = .ellipticCurve true) ∨
  (scheme = rsaPssRsaeSha256 ∧ X.publicKeyAlgorithmOid leaf = oidRsaEncryption ∧
    ∃ exponent size, X.keyKind key = .rsa exponent size ∧ 2048 ≤ size) ∨
  (scheme = rsaPssPssSha256 ∧ X.publicKeyAlgorithmOid leaf = oidRsassaPss ∧
    (∃ exponent size, X.keyKind key = .rsa exponent size ∧ 2048 ≤ size) ∧
    Der.checkPssKeyRestrictions (X.tbsCertificateBytes leaf) = .ok ())

theorem isP256_iff (kind : KeyKind) : kind.isP256 = true ↔ kind = .ellipticCurve true := by
  cases kind with
  | ellipticCurve isSecp256r1 => simp only [KeyKind.isP256, KeyKind.ellipticCurve.injEq]
  | rsa exponent size => simp only [KeyKind.isP256, Bool.false_eq_true, reduceCtorEq]
  | other => simp only [KeyKind.isP256, Bool.false_eq_true, reduceCtorEq]

theorem isRsa2048_iff (kind : KeyKind) :
    kind.isRsa2048 = true ↔ ∃ exponent size, kind = .rsa exponent size ∧ 2048 ≤ size := by
  cases kind with
  | rsa exponent size =>
      simp only [KeyKind.isRsa2048, decide_eq_true_eq, KeyKind.rsa.injEq]
      constructor
      · intro h
        exact ⟨exponent, size, ⟨rfl, rfl⟩, h⟩
      · rintro ⟨_, _, ⟨rfl, rfl⟩, h⟩
        exact h
  | ellipticCurve isSecp256r1 =>
      simp only [KeyKind.isRsa2048, Bool.false_eq_true, reduceCtorEq, false_and, exists_false]
  | other => simp only [KeyKind.isRsa2048, Bool.false_eq_true, reduceCtorEq, false_and,
      exists_false]

/-- The stage that loads certificates loads each of them and nothing else. -/
theorem loadCertificatesFrom_eq_ok_iff (position : Nat) (chain : List Bytes)
    (certificates : List Cert) :
    loadCertificatesFrom X position chain = .ok certificates ↔
      List.Forall₂ (fun encoded certificate => X.loadDer encoded = .ok certificate) chain
        certificates := by
  induction chain generalizing position certificates with
  | nil =>
      rw [loadCertificatesFrom, Except.ok.injEq, List.forall₂_nil_left_iff, eq_comm]
  | cons encoded chain ih =>
      simp only [loadCertificatesFrom, bind_eq_ok_iff, handle_error_eq_ok_iff, pure_eq_ok_iff,
        List.forall₂_cons_left_iff, ih]
      constructor
      · rintro ⟨certificate, hload, rest, hrest, rfl⟩
        exact ⟨certificate, rest, hload, hrest, rfl⟩
      · rintro ⟨certificate, rest, hload, hrest, rfl⟩
        exact ⟨certificate, hload, rest, hrest, rfl⟩

theorem rsaExponent_eq_ok_iff (certificate : Cert) (exponent : Nat) :
    rsaExponent X certificate = .ok exponent ↔
      ∃ key size, X.publicKey certificate = .ok key ∧ X.keyKind key = .rsa exponent size := by
  simp only [rsaExponent, bind_eq_ok_iff]
  constructor
  · rintro ⟨key, hkey, hkind⟩
    cases hk : X.keyKind key with
    | rsa e size =>
        simp only [hk, Except.ok.injEq] at hkind
        subst hkind
        exact ⟨key, size, hkey, hk⟩
    | ellipticCurve isSecp256r1 => simp only [hk, reduceCtorEq] at hkind
    | other => simp only [hk, reduceCtorEq] at hkind
  · rintro ⟨key, size, hkey, hkind⟩
    exact ⟨key, hkey, by simp only [hkind]⟩

theorem checkRsaPublicExponent_eq_ok_iff (certificate : Cert) (u : Unit) :
    checkRsaPublicExponent X certificate = .ok u ↔ BoundedExponent X certificate := by
  unfold checkRsaPublicExponent BoundedExponent
  by_cases hoid : X.publicKeyAlgorithmOid certificate ∈ [oidRsaEncryption, oidRsassaPss]
  · rw [if_neg (not_not.mpr hoid)]
    simp only [bind_eq_ok_iff, handle_error_eq_ok_iff, failIf_eq_ok_iff, rsaExponent_eq_ok_iff,
      hoid, true_implies, gt_iff_lt, not_lt, bitLength_le_iff]
    constructor
    · rintro ⟨exponent, ⟨key, size, hkey, hkind⟩, hlt⟩
      exact ⟨key, exponent, size, hkey, hkind, hlt⟩
    · rintro ⟨key, exponent, size, hkey, hkind, hlt⟩
      exact ⟨exponent, ⟨key, size, hkey, hkind⟩, hlt⟩
  · rw [if_pos hoid]
    simp only [hoid, false_implies]

theorem checkRsaPublicExponents_eq_ok_iff (certificates : List Cert) (u : Unit) :
    checkRsaPublicExponents X certificates = .ok u ↔
      ∀ certificate ∈ certificates, BoundedExponent X certificate := by
  induction certificates with
  | nil => exact iff_of_true rfl (fun _ h => nomatch h)
  | cons certificate certificates ih =>
      have hcons : checkRsaPublicExponents X (certificate :: certificates) =
          checkRsaPublicExponent X certificate >>= fun _ =>
            checkRsaPublicExponents X certificates := rfl
      rw [hcons]
      simp only [bind_eq_ok_iff, List.forall_mem_cons, ih, exists_const,
        checkRsaPublicExponent_eq_ok_iff]

/-- The roots are the ones of the file, which is the pinned one where the pin
    is enforced. -/
theorem loadRoots_eq_ok_iff (rootFile : Except PyErr Bytes) (version : Int) (enforceRootPin : Bool)
    (roots : List Cert) :
    loadRoots X rootFile version enforceRootPin = .ok roots ↔
      ∃ encoded, rootFile = .ok encoded ∧ version = 1 ∧
        (enforceRootPin = true → toHex (sha256 encoded) = rootsV1Sha256) ∧
        X.loadPem encoded = .ok roots ∧ roots ≠ [] ∧
        ∀ root ∈ roots, BoundedExponent X root := by
  unfold loadRoots
  simp only [bind_eq_ok_iff, handle_error_eq_ok_iff, failIf_eq_ok_iff, exists_const,
    pure_eq_ok_iff, not_not, not_and, ne_eq, List.isEmpty_iff, checkRsaPublicExponents_eq_ok_iff]
  constructor
  · rintro ⟨encoded, hfile, hversion, hpin, roots', hpem, hne, hbounded, rfl⟩
    exact ⟨encoded, hfile, hversion, hpin, hpem, hne, hbounded⟩
  · rintro ⟨encoded, hfile, hversion, hpin, hpem, hne, hbounded⟩
    exact ⟨encoded, hfile, hversion, hpin, roots, hpem, hne, hbounded, rfl⟩

/-- A moment that can be represented is its own timestamp. -/
theorem fromTimestamp_eq_ok_iff (t moment : Int) :
    fromTimestamp t = .ok moment ↔
      (-62135596800 ≤ t ∧ t ≤ 253402300799) ∧ moment = t := by
  unfold fromTimestamp
  by_cases h : -62135596800 ≤ t ∧ t ≤ 253402300799
  · rw [if_pos h, Except.ok.injEq, and_iff_right h, eq_comm]
  · rw [if_neg h]
    split
    · simp only [reduceCtorEq, h, false_and]
    · simp only [reduceCtorEq, h, false_and]

theorem checkTimesFrom_eq_ok_iff (moment : Int) (position : Nat) (certificates : List Cert)
    (u : Unit) :
    checkTimesFrom X moment position certificates = .ok u ↔
      ∀ certificate ∈ certificates,
        X.notValidBefore certificate ≤ moment ∧ moment ≤ X.notValidAfter certificate := by
  induction certificates generalizing position with
  | nil => simp only [checkTimesFrom, List.not_mem_nil, false_implies, implies_true]
  | cons certificate certificates ih =>
      simp only [checkTimesFrom, bind_eq_ok_iff, failIf_eq_ok_iff, exists_const, ih, not_or,
        not_lt, gt_iff_lt, List.forall_mem_cons]

theorem checkSuppliedCertificateTimes_eq_ok_iff (certificates : List Cert) (validationTime : Int)
    (u : Unit) :
    checkSuppliedCertificateTimes X certificates validationTime = .ok u ↔
      (-62135596800 ≤ validationTime ∧ validationTime ≤ 253402300799) ∧
        ∀ certificate ∈ certificates, X.notValidBefore certificate ≤ validationTime ∧
          validationTime ≤ X.notValidAfter certificate := by
  unfold checkSuppliedCertificateTimes
  simp only [bind_eq_ok_iff, handle_error_eq_ok_iff, fromTimestamp_eq_ok_iff, and_assoc,
    exists_and_left, exists_eq_left, checkTimesFrom_eq_ok_iff]

/-- Where the extensions cannot be read, each is absent or the stage fails. -/
theorem leafExtension_of_error {α : Type} {leaf : Cert} {e : PyErr}
    (h : X.extensions leaf = .error e) (get : CertificateExtensions → Except PyErr α) :
    leafExtension X leaf get = if e.isA .extensionNotFound then .ok none else .error e := by
  unfold leafExtension
  rw [h]
  change (if [ErrorClass.extensionNotFound].any e.isA then _ else _) = _
  rw [any_isA_singleton]

theorem leafExtension_getKeyUsage {leaf : Cert} {extensions : CertificateExtensions}
    (h : X.extensions leaf = .ok extensions) :
    leafExtension X leaf CertificateExtensions.getKeyUsage = .ok extensions.keyUsage := by
  unfold leafExtension CertificateExtensions.getKeyUsage
  rw [h]
  rcases extensions with ⟨keyUsage, extendedKeyUsage⟩
  cases keyUsage with
  | none => rfl
  | some digitalSignature => rfl

theorem leafExtension_getExtendedKeyUsage {leaf : Cert} {extensions : CertificateExtensions}
    (h : X.extensions leaf = .ok extensions) :
    leafExtension X leaf CertificateExtensions.getExtendedKeyUsage =
      .ok extensions.extendedKeyUsage := by
  unfold leafExtension CertificateExtensions.getExtendedKeyUsage
  rw [h]
  rcases extensions with ⟨keyUsage, extendedKeyUsage⟩
  cases extendedKeyUsage with
  | none => rfl
  | some usages => rfl

theorem checkLeafUsage_eq_ok_iff (leaf : Cert) (u : Unit) :
    checkLeafUsage X leaf = .ok u ↔ UsableLeaf X leaf := by
  unfold checkLeafUsage UsableLeaf
  cases hx : X.extensions leaf with
  -- The extensions are read: each usage is checked where its extension is there.
  | ok extensions =>
      rw [leafExtension_getKeyUsage X hx, leafExtension_getExtendedKeyUsage X hx]
      simp only [bind_eq_ok_iff, failIf_eq_ok_iff, exists_const, Except.ok.injEq,
        exists_eq_left', reduceCtorEq, false_and, exists_false, or_false, not_exists, not_and,
        not_not, ne_eq]
      exact and_congr_right fun _ => forall₂_congr fun _ _ => or_iff_not_imp_left.symm
  | error e =>
      rw [leafExtension_of_error X hx, leafExtension_of_error X hx]
      -- Only the absence of an extension is tolerated.
      by_cases he : e.isA .extensionNotFound = true
      · simp only [he, if_true, bind_eq_ok_iff, failIf_eq_ok_iff, exists_const,
          Except.ok.injEq, exists_eq_left', Option.not_mem_none, false_and, exists_false,
          reduceCtorEq, not_false_eq_true, and_self, Except.error.injEq, false_or]
      · simp only [he, bind_eq_ok_iff, reduceCtorEq, false_and, exists_false,
          Except.error.injEq, exists_eq_left', or_self, Bool.false_eq_true, if_false]

theorem verifyPath_eq_ok_iff (leaf : Cert) (intermediates roots : List Cert) (domain : Str)
    (validationTime : Int) (u : Unit) :
    verifyPath X leaf intermediates roots domain validationTime = .ok u ↔
      (-62135596800 ≤ validationTime ∧ validationTime ≤ 253402300799) ∧
        X.verifyPath roots validationTime (maxCertificates - 1) domain leaf intermediates =
          .ok u := by
  unfold verifyPath
  simp only [handle_error_eq_ok_iff, bind_eq_ok_iff, fromTimestamp_eq_ok_iff, and_assoc,
    exists_and_left, exists_eq_left]

end Conditions

/-! ### The signature check -/

section Signature

/-- The two ways in which a signature is checked. -/
inductive SignatureKind
  | ecdsa
  | pss

/-- One call of a key's signature check. -/
structure SignatureCheck (Key : Type) where
  kind : SignatureKind
  key : Key
  signature : Bytes
  message : Bytes

variable {Cert Key : Type} (X : X509 Cert Key)

/-- What the library answers to a signature check. -/
def X509.answer (check : SignatureCheck Key) : Except PyErr Unit :=
  match check.kind with
  | .ecdsa => X.verifyEcdsa check.key check.signature check.message
  | .pss => X.verifyPss check.key check.signature check.message

/-- The library with other answers to the signature checks. -/
def X509.withSignatures (answer : SignatureCheck Key → Except PyErr Unit) : X509 Cert Key :=
  { X with
    verifyEcdsa := fun key signature message => answer ⟨.ecdsa, key, signature, message⟩
    verifyPss := fun key signature message => answer ⟨.pss, key, signature, message⟩ }

theorem answer_withSignatures (answer : SignatureCheck Key → Except PyErr Unit)
    (check : SignatureCheck Key) : (X.withSignatures answer).answer check = answer check := by
  rcases check with ⟨kind, key, signature, message⟩
  cases kind with
  | ecdsa => rfl
  | pss => rfl

/-- The kind of signature a scheme is for. -/
def schemeKind (scheme : Nat) : SignatureKind :=
  if scheme = ecdsaSecp256r1Sha256 then .ecdsa else .pss

/-- The signature check of a proof, with the key of its leaf. -/
def leafCheck (p : ParsedProof) (key : Key) : SignatureCheck Key where
  kind := schemeKind p.certificateVerifyScheme
  key := key
  signature := p.certificateVerifySignature
  message := certificateVerifyMessage p.transcriptHash

theorem checkLeafKeyRestrictions_eq_ok_iff (leaf : Cert) (scheme : Nat) (u : Unit) :
    checkLeafKeyRestrictions X leaf scheme = .ok u ↔
      (scheme = rsaPssPssSha256 → X.publicKeyAlgorithmOid leaf = oidRsassaPss →
        Der.checkPssKeyRestrictions (X.tbsCertificateBytes leaf) = .ok u) := by
  unfold checkLeafKeyRestrictions
  by_cases h : scheme = rsaPssPssSha256 ∧ X.publicKeyAlgorithmOid leaf = oidRsassaPss
  · rw [if_pos h]
    simp only [h.1, h.2, true_implies]
  · rw [if_neg h]
    simp only [true_iff]
    exact fun hscheme hoid => absurd ⟨hscheme, hoid⟩ h

/-- The branch of each scheme asks for its key and then asks the library. -/
theorem verifyWithScheme_eq_ok_iff (leaf : Cert) (key : Key) (scheme : Nat)
    (signature message : Bytes) (u : Unit) :
    verifyWithScheme X leaf key scheme signature message = .ok u ↔
      (scheme = ecdsaSecp256r1Sha256 ∧ X.keyKind key = .ellipticCurve true ∧
        X.verifyEcdsa key signature message = .ok u) ∨
      (scheme ∈ [rsaPssRsaeSha256, rsaPssPssSha256] ∧
        (∃ exponent size, X.keyKind key = .rsa exponent size ∧ 2048 ≤ size) ∧
        X.publicKeyAlgorithmOid leaf =
          (if scheme = rsaPssRsaeSha256 then oidRsaEncryption else oidRsassaPss) ∧
        X.verifyPss key signature message = .ok u) := by
  unfold verifyWithScheme verifyEcdsaSignature verifyPssSignature
  -- The branches of the code: ECDSA, the two RSA-PSS schemes, and any other.
  by_cases hecdsa : scheme = ecdsaSecp256r1Sha256
  · subst hecdsa
    have hrsa : ecdsaSecp256r1Sha256 ∉ [rsaPssRsaeSha256, rsaPssPssSha256] := by decide
    rw [if_pos rfl]
    simp only [bind_eq_ok_iff, failIf_eq_ok_iff, exists_const, not_not, isP256_iff, true_and, hrsa,
      false_and, or_false]
  · rw [if_neg hecdsa]
    by_cases hrsa : scheme ∈ [rsaPssRsaeSha256, rsaPssPssSha256]
    · rw [if_pos hrsa]
      simp only [bind_eq_ok_iff, failIf_eq_ok_iff, exists_const, not_not, isRsa2048_iff, ne_eq,
        hecdsa, false_and, false_or, hrsa, true_and]
    · rw [if_neg hrsa]
      simp only [reduceCtorEq, hecdsa, hrsa, false_and, or_false]

/-- With a key that agrees with the scheme the outcome is the library's answer,
    and with any other key there is an error. -/
theorem certificateSignature_eq_ok_iff (leaf : Cert) (p : ParsedProof) (u : Unit) :
    certificateSignature X leaf p = .ok u ↔
      ∃ key, X.publicKey leaf = .ok key ∧ KeyAgrees X leaf key p.certificateVerifyScheme ∧
        X.answer (leafCheck p key) = .ok u := by
  unfold certificateSignature KeyAgrees leafCheck X509.answer schemeKind
  simp only [bind_eq_ok_iff, checkLeafKeyRestrictions_eq_ok_iff, verifyWithScheme_eq_ok_iff]
  generalize p.certificateVerifyScheme = scheme
  constructor
  -- The scheme says which kind of key was asked for.
  · rintro ⟨_, hrestrictions, key, hkey, ⟨rfl, hkind, hverify⟩ | ⟨hscheme, hkind, hoid, hverify⟩⟩
    · exact ⟨key, hkey, Or.inl ⟨rfl, hkind⟩, hverify⟩
    · rw [List.mem_cons, List.mem_singleton] at hscheme
      rcases hscheme with rfl | rfl
      · exact ⟨key, hkey, Or.inr (Or.inl ⟨rfl, hoid, hkind⟩), hverify⟩
      · exact ⟨key, hkey, Or.inr (Or.inr ⟨rfl, hoid, hkind, hrestrictions rfl hoid⟩), hverify⟩
  -- Only a PSS key has restrictions to check.
  · rintro ⟨key, hkey, ⟨rfl, hkind⟩ | ⟨rfl, hoid, hkind⟩ | ⟨rfl, hoid, hkind, hrestrictions⟩,
      hverify⟩
    · exact ⟨(), fun h => absurd h (by decide), key, hkey, Or.inl ⟨rfl, hkind, hverify⟩⟩
    · exact ⟨(), fun h => absurd h (by decide), key, hkey,
        Or.inr ⟨List.mem_cons_self, hkind, hoid, hverify⟩⟩
    · exact ⟨(), fun _ _ => hrestrictions, key, hkey,
        Or.inr ⟨List.mem_cons_of_mem _ List.mem_cons_self, hkind, hoid, hverify⟩⟩

theorem verifyCertificateSignature_eq_ok_iff (leaf : Cert) (p : ParsedProof) (u : Unit) :
    verifyCertificateSignature X leaf p = .ok u ↔ BoundedExponent X leaf ∧
      ∃ key, X.publicKey leaf = .ok key ∧ KeyAgrees X leaf key p.certificateVerifyScheme ∧
        X.answer (leafCheck p key) = .ok u := by
  unfold verifyCertificateSignature
  simp only [bind_eq_ok_iff, checkRsaPublicExponents_eq_ok_iff, List.forall_mem_singleton,
    exists_const]
  rw [handleFirst_eq_ok_iff, certificateSignature_eq_ok_iff]
  -- All three handlers raise.
  intro entry hentry e
  simp only [List.mem_cons, List.not_mem_nil, or_false] at hentry
  rcases hentry with rfl | rfl | rfl
  · exact fun h => nomatch h
  · exact fun h => nomatch h
  · exact fun h => nomatch h

end Signature

/-! ### The whole verification -/

section Whole

variable {Cert Key : Type} (X : X509 Cert Key) (L : Lowercase) (rootFile : Except PyErr Bytes)
  (enforceRootPin : Bool) (envelope : ConnectionProof)

/-- What an accepted proof has passed, besides the answer to its signature
    check. The proof is parsed for the challenge `c`, its certificates are
    `leaf` and `intermediates`, the root file is `encoded` and holds `roots`,
    and `key` is the leaf's. -/
structure Checked (c : Bytes) (p : ParsedProof) (leaf : Cert) (intermediates roots : List Cert)
    (encoded : Bytes) (key : Key) : Prop where
  challenge : envelope.challenge L = .ok c
  parses : parseProof envelope.proof envelope.domain c = .ok p
  allowed : ∃ algorithm ∈ signatureAlgorithms, algorithm.scheme = p.certificateVerifyScheme ∧
    envelope.signatureAlgorithmsMask.toNat &&& algorithm.mask ≠ 0
  target : MeetsTarget p.connectionWorkHash envelope.connectionWorkTarget
  certificatesLoad : List.Forall₂ (fun der certificate => X.loadDer der = .ok certificate)
    p.certificateChain (leaf :: intermediates)
  rootVersion : envelope.rootCertificatesVersion = 1
  rootsRead : rootFile = .ok encoded
  rootsPinned : enforceRootPin = true → toHex (sha256 encoded) = rootsV1Sha256
  rootsLoad : X.loadPem encoded = .ok roots
  roots_ne_nil : roots ≠ []
  exponents : ∀ certificate ∈ leaf :: intermediates ++ roots, BoundedExponent X certificate
  representable : envelope.validationTime ≤ 253402300799
  times : ∀ certificate ∈ leaf :: intermediates,
    X.notValidBefore certificate ≤ envelope.validationTime ∧
      envelope.validationTime ≤ X.notValidAfter certificate
  usage : UsableLeaf X leaf
  path : X.verifyPath roots envelope.validationTime (maxCertificates - 1) envelope.domain leaf
    intermediates = .ok ()
  keyRead : X.publicKey leaf = .ok key
  agrees : KeyAgrees X leaf key p.certificateVerifyScheme

/-- The scheme is selected by the mask when the bit of its algorithm is set. -/
theorem mem_maskSchemes_iff (mask : Int) (scheme : Nat) :
    scheme ∈ maskSchemes mask ↔ ∃ algorithm ∈ signatureAlgorithms,
      algorithm.scheme = scheme ∧ mask.toNat &&& algorithm.mask ≠ 0 := by
  simp only [maskSchemes, List.mem_map, List.mem_filter, decide_eq_true_eq]
  constructor
  · rintro ⟨algorithm, ⟨hmem, hbit⟩, hscheme⟩
    exact ⟨algorithm, hmem, hscheme, hbit⟩
  · rintro ⟨algorithm, hmem, hscheme, hbit⟩
    exact ⟨algorithm, ⟨hmem, hbit⟩, hscheme⟩

/-- Verification returns exactly for an envelope that passes everything and
    whose one signature check the library answers with success. -/
theorem verifyConnectionProof_eq_ok_iff_checked (r : VerificationResult) :
    verifyConnectionProof X L rootFile enforceRootPin envelope = .ok r ↔
      ∃ c p leaf intermediates roots encoded key,
        Checked X L rootFile enforceRootPin envelope c p leaf intermediates roots encoded key ∧
        X.answer (leafCheck p key) = .ok () ∧
        r = verificationResult c p envelope.signatureAlgorithmsMask := by
  rw [verifyConnectionProof_eq_ok_iff]
  simp only [Authenticates, loadCertificates, loadCertificateChain, bind_eq_ok_iff, pure_eq_ok_iff,
    loadCertificatesFrom_eq_ok_iff, checkRsaPublicExponents_eq_ok_iff, exists_const,
    loadRoots_eq_ok_iff, checkSuppliedCertificateTimes_eq_ok_iff, checkLeafUsage_eq_ok_iff,
    verifyPath_eq_ok_iff, verifyCertificateSignature_eq_ok_iff, mem_maskSchemes_iff]
  constructor
  · rintro ⟨c, p, hc, hp, hallowed, htarget, ⟨leaf, intermediates, roots,
      ⟨_, hload, hbounded, rfl⟩, ⟨encoded, hfile, hversion, hpin, hpem, hne, hroots⟩,
      ⟨⟨-, hlast⟩, htimes⟩, husage, ⟨-, hpath⟩, -, key, hkey, hagrees, hanswer⟩, rfl⟩
    refine ⟨c, p, leaf, intermediates, roots, encoded, key, ⟨hc, hp, hallowed, htarget, hload,
      hversion, hfile, hpin, hpem, hne, fun certificate h => ?_, hlast, htimes, husage, hpath,
      hkey, hagrees⟩, hanswer, rfl⟩
    rcases List.mem_append.mp h with h | h
    · exact hbounded certificate h
    · exact hroots certificate h
  · rintro ⟨c, p, leaf, intermediates, roots, encoded, key, h, hanswer, rfl⟩
    -- An envelope's time is positive, so the lower bound of the library holds.
    have hfirst := envelope.admitted.validationTime.1
    have htime : -62135596800 ≤ envelope.validationTime ∧
        envelope.validationTime ≤ 253402300799 := ⟨by omega, h.representable⟩
    have hsupplied : ∀ certificate ∈ leaf :: intermediates, BoundedExponent X certificate :=
      fun certificate hmem => h.exponents certificate (List.mem_append_left _ hmem)
    exact ⟨c, p, h.challenge, h.parses, h.allowed, h.target, ⟨leaf, intermediates, roots,
      ⟨_, h.certificatesLoad, hsupplied, rfl⟩, ⟨encoded, h.rootsRead, h.rootVersion, h.rootsPinned,
        h.rootsLoad, h.roots_ne_nil, fun root hmem =>
          h.exponents root (List.mem_append_right _ hmem)⟩,
      ⟨htime, h.times⟩, h.usage, ⟨htime, h.path⟩, hsupplied leaf List.mem_cons_self, key,
      h.keyRead, h.agrees, hanswer⟩, rfl⟩

/-- Acceptance hangs on the answer to the signature check, whatever the library
    answers to the others. -/
def DecidedBy (check : SignatureCheck Key) : Prop :=
  ∀ answer : SignatureCheck Key → Except PyErr Unit,
    (∃ r, verifyConnectionProof (X.withSignatures answer) L rootFile enforceRootPin envelope =
      .ok r) ↔ answer check = .ok ()

variable {X L rootFile enforceRootPin envelope} {c : Bytes} {p : ParsedProof} {leaf : Cert}
  {intermediates roots : List Cert} {encoded : Bytes} {key : Key}

/-- What is checked does not mention the signature checks. -/
theorem checked_withSignatures_iff (answer : SignatureCheck Key → Except PyErr Unit) :
    Checked (X.withSignatures answer) L rootFile enforceRootPin envelope c p leaf intermediates
        roots encoded key ↔
      Checked X L rootFile enforceRootPin envelope c p leaf intermediates roots encoded key := by
  constructor
  · rintro ⟨⟩
    constructor <;> assumption
  · rintro ⟨⟩
    constructor <;> assumption

/-- The parsed proof and the key are determined. -/
theorem Checked.leafCheck_unique {c' : Bytes} {p' : ParsedProof} {leaf' : Cert}
    {intermediates' roots' : List Cert} {encoded' : Bytes} {key' : Key}
    (h : Checked X L rootFile enforceRootPin envelope c p leaf intermediates roots encoded key)
    (h' : Checked X L rootFile enforceRootPin envelope c' p' leaf' intermediates' roots' encoded'
      key') : leafCheck p' key' = leafCheck p key := by
  have hc : c' = c := Except.ok.inj (h'.challenge.symm.trans h.challenge)
  -- Parsing, loading and reading the key return one value each.
  have hp : p' = p := by
    have hparses := h'.parses
    rw [hc, h.parses] at hparses
    exact (Except.ok.inj hparses).symm
  subst hp
  have hleaf : leaf' = leaf := by
    rcases List.forall₂_cons_right_iff.mp h.certificatesLoad with ⟨der, chain, hder, -, hchain⟩
    rcases List.forall₂_cons_right_iff.mp h'.certificatesLoad with ⟨der', chain', hder', -, hchain'⟩
    rw [hchain, List.cons.injEq] at hchain'
    rw [← hchain'.1, hder] at hder'
    exact (Except.ok.inj hder').symm
  have hkey : key' = key := by
    have hread := h'.keyRead
    rw [hleaf, h.keyRead] at hread
    exact (Except.ok.inj hread).symm
  rw [hkey]

/-- The one check that acceptance hangs on. -/
theorem Checked.decidedBy_iff
    (h : Checked X L rootFile enforceRootPin envelope c p leaf intermediates roots encoded key)
    (check : SignatureCheck Key) :
    DecidedBy X L rootFile enforceRootPin envelope check ↔ check = leafCheck p key := by
  have hdecided : DecidedBy X L rootFile enforceRootPin envelope (leafCheck p key) := by
    intro answer
    simp only [verifyConnectionProof_eq_ok_iff_checked, checked_withSignatures_iff,
      answer_withSignatures]
    constructor
    · rintro ⟨r, c', p', leaf', intermediates', roots', encoded', key', h', hanswer, -⟩
      rw [← h.leafCheck_unique h']
      exact hanswer
    · intro hanswer
      exact ⟨_, c, p, leaf, intermediates, roots, encoded, key, h, hanswer, rfl⟩
  constructor
  · intro hcheck
    classical
    -- A library that accepts this check and no other.
    have hother := hcheck fun other =>
      if other = check then .ok () else .error ⟨.invalidSignature, ""⟩
    have hleaf := (hdecided _).mp (hother.mpr (if_pos rfl))
    by_contra hne
    rw [if_neg (Ne.symm hne)] at hleaf
    exact nomatch hleaf
  · rintro rfl
    exact hdecided

/-- An accepted proof has passed every check on its structure, its scheme, its
    work, its roots, its certificates, its path and its leaf's key, and exactly
    one signature check, with that key and over the first four messages, stood
    between it and acceptance and succeeded. -/
theorem verified_proof_sound (X : X509 Cert Key) (L : Lowercase) (rootFile : Except PyErr Bytes)
    (enforceRootPin : Bool) (envelope : ConnectionProof) (r : VerificationResult)
    (h : verifyConnectionProof X L rootFile enforceRootPin envelope = .ok r) :
    ∃ c p leaf intermediates roots encoded key,
      Checked X L rootFile enforceRootPin envelope c p leaf intermediates roots encoded key ∧
      X.answer (leafCheck p key) = .ok () ∧
      (∀ check, DecidedBy X L rootFile enforceRootPin envelope check ↔ check = leafCheck p key) ∧
      envelope.proof = be 1 2 ++ (p.clientHello ++ p.serverHello ++ p.encryptedExtensions ++
        p.certificate) ++ p.certificateVerify ∧
      (leafCheck p key).message = List.replicate 64 0x20 ++
        asciiLiteral "TLS 1.3, server CertificateVerify" ++ [0x00] ++
        sha256 (p.clientHello ++ p.serverHello ++ p.encryptedExtensions ++ p.certificate) ∧
      r = verificationResult c p envelope.signatureAlgorithmsMask := by
  rcases (verifyConnectionProof_eq_ok_iff_checked X L rootFile enforceRootPin envelope r).mp h
    with ⟨c, p, leaf, intermediates, roots, encoded, key, hchecked, hanswer, hr⟩
  refine ⟨c, p, leaf, intermediates, roots, encoded, key, hchecked, hanswer,
    hchecked.decidedBy_iff, ?_, ?_, hr⟩
  · rw [← (parseProof_framed hchecked.parses).bytes]
    simp only [ParsedProof.messages, List.flatten_cons, List.flatten_nil, List.append_nil,
      List.append_assoc]
  · rcases (parseProof_eq_ok_iff _ _ _ _).mp hchecked.parses
      with ⟨-, -, -, -, name, -, t, -, rfl⟩
    simp only [Grammar.ProofTree.parsed, Grammar.ProofTree.hashed, List.flatten_cons,
      List.flatten_nil, List.append_nil, List.append_assoc, leafCheck, certificateVerifyMessage,
      tls13ServerCertificateVerifyContext]

/-- The session's proof has passed all of it. -/
theorem session_proof_sound :
    ∃ r c p leaf intermediates roots encoded key,
      verifyConnectionProof sampleX509 Lowercase.ascii (.ok rootPem) false sampleCandidate =
        .ok r ∧
      Checked sampleX509 Lowercase.ascii (.ok rootPem) false sampleCandidate c p leaf intermediates
        roots encoded key ∧
      sampleX509.answer (leafCheck p key) = .ok () := by
  rcases verifyCandidate_sampleCandidate (Tls13.attemptOn []) with ⟨r, hr⟩
  rcases verified_proof_sound sampleX509 Lowercase.ascii (.ok rootPem) false sampleCandidate r hr
    with ⟨c, p, leaf, intermediates, roots, encoded, key, hchecked, hanswer, -⟩
  exact ⟨r, c, p, leaf, intermediates, roots, encoded, key, hr, hchecked, hanswer⟩

end Whole

end P2CTools
