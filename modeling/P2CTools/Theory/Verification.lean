import P2CTools.Source.Verify
import P2CTools.Theory.Commitment
import P2CTools.Theory.FormatErrors

/-!
# How Verification Ends

When verification returns, and what it raises when it does not.

Verification looks at the target in one place only, so what it comes to splits
into the structure of the proof, the mask, the target, and the rest, which is
`Authenticates` and knows nothing of the target.

Of its stages all but three raise errors of the program only. Loading the
certificates and loading the roots stop at a `ValueError` and so let the
library's `InvalidVersion` through; reading the leaf's extensions stops at a
missing extension and so lets every other failure through. `Escapes` is the
condition on the inputs under which one of the three is reached and fails that
way, and `fails_verifyConnectionProof_iff` says that this is exactly when
something other than an error of the program comes out.

## Main definitions

* `IsVerificationError`: The exception is one of the program's two.
* `Authenticates`: The checks that do not depend on the target.
* `InvalidVersionFirst`: The first certificate that does not load has an
  invalid version.
* `EscapesStages`, `Escapes`: Verification reaches one of its three unguarded
  calls and the call fails.

## Theorems

* `verifyConnectionProof_eq_ok_iff`: When verification returns.
* `fails_loadCertificatesFrom_iff`, `fails_loadRoots_iff`,
  `fails_checkLeafUsage_iff`: The three stages.
* `fails_verifyConnectionProof_iff`: What verification raises.
-/

namespace P2CTools

open Wire Protocol

/-- The exception is a `ProofFormatError` or a `ProofVerificationError`. -/
def IsVerificationError (e : PyErr) : Prop :=
  e.cls = .proofFormatError ∨ e.cls = .proofVerificationError

theorem IsFormatError.isVerificationError {e : PyErr} (h : IsFormatError e) :
    IsVerificationError e :=
  Or.inl h

theorem isVerificationError_failure (msg : String) :
    IsVerificationError (verificationFailure msg) :=
  Or.inr rfl

section Stages

variable {Cert Key : Type} (X : X509 Cert Key)

theorem any_isA_singleton (c : ErrorClass) (e : PyErr) : [c].any e.isA = e.isA c := by
  rw [List.any_cons, List.any_nil, Bool.or_false]

/-- A handler that turns what it names into an error of the program leaves
    only the errors it does not name. -/
theorem fails_handle_iff {α : Type} (classes : List ErrorClass) (f : PyErr → PyErr)
    (r : Except PyErr α) (hf : ∀ e, IsVerificationError (f e)) :
    Fails IsVerificationError (handle classes (fun e => .error (f e)) r) ↔
      ∀ e, r = .error e → classes.any e.isA = false → IsVerificationError e := by
  constructor
  · intro h e he hno
    refine h e ?_
    rw [he, handle, hno, if_neg Bool.false_ne_true]
  · exact fun h => fails_handle _ _ _ (fun e _ _ => fails_error (hf e)) h

variable {X}

theorem fails_checkRsaPublicExponent (hX : X.Documented) (certificate : Cert) :
    Fails IsVerificationError (checkRsaPublicExponent X certificate) := by
  unfold checkRsaPublicExponent
  split
  · exact fails_ok ()
  · refine Fails.bind ?_ fun _ _ => fails_failIf _ (isVerificationError_failure _)
    refine (fails_handle_iff _ _ _ fun _ => isVerificationError_failure _).mpr fun e he hno => ?_
    -- The key's errors and the program's own `ValueError` are all named.
    have hnamed : e.isA .valueError = true ∨ e.cls = .unsupportedAlgorithm := by
      unfold rsaExponent at he
      rcases (bind_eq_error_iff _ _ _).mp he with he | ⟨key, -, he⟩
      · exact hX.publicKey certificate e he
      · cases hkind : X.keyKind key with
        | rsa exponent keySize =>
            rw [hkind] at he
            cases he
        | ellipticCurve _ | other =>
            rw [hkind] at he
            rw [← Except.error.inj he]
            exact Or.inl rfl
    rw [List.any_cons, any_isA_singleton, Bool.or_eq_false_iff] at hno
    rcases hnamed with h | h
    · rw [h] at hno
      cases hno.2
    · rw [PyErr.isA, h] at hno
      cases hno.1

theorem fails_checkRsaPublicExponents (hX : X.Documented) (certificates : List Cert) :
    Fails IsVerificationError (checkRsaPublicExponents X certificates) := by
  unfold checkRsaPublicExponents
  induction certificates with
  | nil => exact fails_ok ()
  | cons certificate certificates ih =>
      exact Fails.bind (fails_checkRsaPublicExponent hX certificate) fun _ _ => ih

/-- A load error either is a `ValueError`, which every handler for one names,
    or is the class that no handler of the program names. -/
theorem IsLoadError.cases {e : PyErr} (h : IsLoadError e) :
    e.isA .valueError = true ∨ (e.cls = .invalidVersion ∧ e.isA .valueError = false) := by
  rcases h with h | h
  · exact Or.inl h
  · refine Or.inr ⟨h, ?_⟩
    rw [PyErr.isA, h]
    rfl

theorem not_isVerificationError_of_invalidVersion {e : PyErr} (h : e.cls = .invalidVersion) :
    ¬IsVerificationError e := by
  rintro (h' | h')
  · exact nomatch h.symm.trans h'
  · exact nomatch h.symm.trans h'

/-- A guarded load lets exactly the invalid version through. -/
theorem fails_guardedLoad_iff {α : Type} (r : Except PyErr α) (f : PyErr → PyErr)
    (hf : ∀ e, IsVerificationError (f e)) (hr : Fails IsLoadError r) :
    Fails IsVerificationError (handle [.valueError] (fun e => .error (f e)) r) ↔
      ∀ e, r = .error e → e.cls ≠ .invalidVersion := by
  rw [fails_handle_iff _ _ _ hf]
  constructor
  · intro h e he hversion
    refine not_isVerificationError_of_invalidVersion hversion (h e he ?_)
    rw [any_isA_singleton, PyErr.isA, hversion]
    rfl
  · intro h e he hno
    rw [any_isA_singleton] at hno
    rcases (hr e he).cases with hval | ⟨hversion, -⟩
    · rw [hval] at hno
      cases hno
    · exact absurd hversion (h e he)

variable (X)

/-- The first certificate of the chain that does not load has an invalid
    version. -/
def InvalidVersionFirst (chain : List Bytes) : Prop :=
  ∃ before encoded after e, chain = before ++ encoded :: after ∧
    (∀ b ∈ before, ∃ certificate, X.loadDer b = .ok certificate) ∧
    X.loadDer encoded = .error e ∧ e.cls = .invalidVersion

variable {X}

theorem invalidVersionFirst_cons (encoded : Bytes) (chain : List Bytes) :
    InvalidVersionFirst X (encoded :: chain) ↔
      (∃ e, X.loadDer encoded = .error e ∧ e.cls = .invalidVersion) ∨
        ((∃ certificate, X.loadDer encoded = .ok certificate) ∧ InvalidVersionFirst X chain) := by
  constructor
  · rintro ⟨before, b, after, e, hchain, hbefore, hload, hcls⟩
    -- The bad certificate is the first, or stands behind it.
    cases before with
    | nil =>
        rcases List.cons.inj hchain with ⟨rfl, -⟩
        exact Or.inl ⟨e, hload, hcls⟩
    | cons x before =>
        rcases List.cons.inj hchain with ⟨rfl, hrest⟩
        exact Or.inr ⟨hbefore _ List.mem_cons_self, before, b, after, e, hrest,
          fun c hc => hbefore c (List.mem_cons_of_mem _ hc), hload, hcls⟩
  · rintro (⟨e, hload, hcls⟩ | ⟨hok, before, b, after, e, rfl, hbefore, hload, hcls⟩)
    · exact ⟨[], encoded, chain, e, rfl, fun b hb => absurd hb List.not_mem_nil, hload, hcls⟩
    · refine ⟨encoded :: before, b, after, e, rfl, fun c hc => ?_, hload, hcls⟩
      rcases List.mem_cons.mp hc with rfl | hc
      · exact hok
      · exact hbefore c hc

theorem not_invalidVersionFirst_nil : ¬InvalidVersionFirst X [] := by
  rintro ⟨before, b, after, e, hchain, -⟩
  exact List.append_ne_nil_of_right_ne_nil before (List.cons_ne_nil b after) hchain.symm

/-- Loading a chain raises something foreign exactly when the first bad
    certificate has an invalid version. -/
theorem fails_loadCertificatesFrom_iff (hX : X.Documented) (position : Nat)
    (chain : List Bytes) :
    Fails IsVerificationError (loadCertificatesFrom X position chain) ↔
      ¬InvalidVersionFirst X chain := by
  induction chain generalizing position with
  | nil => simp only [loadCertificatesFrom, fails_ok, not_invalidVersionFirst_nil,
      not_false_eq_true]
  | cons encoded chain ih =>
      rw [loadCertificatesFrom, fails_bind_iff, invalidVersionFirst_cons,
        fails_guardedLoad_iff _ _ (fun _ => isVerificationError_failure _) (hX.loadDer encoded)]
      simp only [fails_bind_iff, ih (position + 1), handle_error_eq_ok_iff]
      -- The guarded load lets an invalid version through; a certificate that loads leaves the
      -- question to the rest of the chain.
      constructor
      · rintro ⟨hhead, htail⟩ (⟨e, he, hcls⟩ | ⟨⟨certificate, hok⟩, hrest⟩)
        · exact hhead e he hcls
        · exact (htail certificate hok).1 hrest
      · intro h
        refine ⟨fun e he hcls => h (Or.inl ⟨e, he, hcls⟩), fun certificate hok => ⟨fun hrest => ?_,
          fun _ _ => fails_ok _⟩⟩
        exact h (Or.inr ⟨⟨certificate, hok⟩, hrest⟩)

theorem fails_loadCertificateChain_iff (hX : X.Documented) (chain : List Bytes) :
    Fails IsVerificationError (loadCertificateChain X chain) ↔ ¬InvalidVersionFirst X chain := by
  rw [loadCertificateChain, fails_bind_iff, fails_loadCertificatesFrom_iff hX]
  exact and_iff_left fun certificates _ => Fails.bind (fails_checkRsaPublicExponents hX _)
    fun _ _ => fails_ok _

/-- The invalid version is the only foreign class of a load. -/
theorem fails_guardedLoad {α : Type} (r : Except PyErr α) (f : PyErr → PyErr)
    (hf : ∀ e, IsVerificationError (f e)) (hr : Fails IsLoadError r) :
    Fails (fun e => IsVerificationError e ∨ e.cls = .invalidVersion)
      (handle [.valueError] (fun e => .error (f e)) r) := by
  refine fails_handle _ _ _ (fun e _ _ => fails_error (Or.inl (hf e))) fun e he hno => ?_
  rw [any_isA_singleton] at hno
  rcases (hr e he).cases with hvalue | ⟨hversion, -⟩
  · rw [hvalue] at hno
    cases hno
  · exact Or.inr hversion

theorem fails_loadCertificatesFrom (hX : X.Documented) (position : Nat) (chain : List Bytes) :
    Fails (fun e => IsVerificationError e ∨ e.cls = .invalidVersion)
      (loadCertificatesFrom X position chain) := by
  induction chain generalizing position with
  | nil => exact fails_ok _
  | cons encoded chain ih =>
      exact Fails.bind (fails_guardedLoad _ _ (fun _ => isVerificationError_failure _)
        (hX.loadDer encoded)) fun _ _ => Fails.bind (ih _) fun _ _ => fails_ok _

theorem fails_loadCertificateChain (hX : X.Documented) (chain : List Bytes) :
    Fails (fun e => IsVerificationError e ∨ e.cls = .invalidVersion)
      (loadCertificateChain X chain) :=
  Fails.bind (fails_loadCertificatesFrom hX 0 chain) fun _ _ =>
    Fails.bind ((fails_checkRsaPublicExponents hX _).mono fun _ => Or.inl) fun _ _ => fails_ok _

/-- Loading the roots raises something foreign exactly when the file passes
    the checks before it is parsed and holds a certificate with an invalid
    version. -/
theorem fails_loadRoots_iff (hX : X.Documented) (rootFile : Except PyErr Bytes) (version : Int)
    (enforceRootPin : Bool) (hfile : Fails (fun e => e.isA .osError = true) rootFile) :
    Fails IsVerificationError (loadRoots X rootFile version enforceRootPin) ↔
      ¬∃ encoded, rootFile = .ok encoded ∧ version = 1 ∧
        (enforceRootPin = true → toHex (sha256 encoded) = rootsV1Sha256) ∧
        ∃ e, X.loadPem encoded = .error e ∧ e.cls = .invalidVersion := by
  -- Reading the file and the checks raise errors of the program only.
  have hread : Fails IsVerificationError (handle [.osError] (fun e => .error
      (verificationFailure ("cannot read trusted root bundle: " ++ e.msg))) rootFile) := by
    refine (fails_handle_iff _ _ _ fun _ => isVerificationError_failure _).mpr fun e he hno => ?_
    rw [any_isA_singleton, hfile e he] at hno
    exact nomatch hno
  have hcheck : ∀ (p : Prop) [Decidable p] (msg : String),
      Fails IsVerificationError (failIf p (verificationFailure msg)) :=
    fun p _ msg => fails_failIf p (isVerificationError_failure msg)
  -- The parser of the PEM file is the one call that may raise something else.
  have hload : ∀ encoded msg, Fails IsVerificationError
      (handle [.valueError] (fun _ => .error (verificationFailure msg)) (X.loadPem encoded)) ↔
        ∀ e, X.loadPem encoded = .error e → e.cls ≠ .invalidVersion :=
    fun encoded msg => fails_guardedLoad_iff _ _ (fun _ => isVerificationError_failure _)
      (hX.loadPem encoded)
  have hrsa := fails_checkRsaPublicExponents hX
  unfold loadRoots
  simp only [fails_bind_iff, handle_error_eq_ok_iff, hread, hcheck, hload, hrsa, failIf_eq_ok_iff,
    pure, Except.pure, fails_ok, true_and, implies_true, and_true, not_exists, not_and, not_not,
    ne_eq, forall_const]

theorem fails_loadRoots (hX : X.Documented) (rootFile : Except PyErr Bytes) (version : Int)
    (enforceRootPin : Bool) (hfile : Fails (fun e => e.isA .osError = true) rootFile) :
    Fails (fun e => IsVerificationError e ∨ e.cls = .invalidVersion)
      (loadRoots X rootFile version enforceRootPin) := by
  have hcheck : ∀ (p : Prop) [Decidable p] (msg : String),
      Fails (fun e => IsVerificationError e ∨ e.cls = .invalidVersion)
        (failIf p (verificationFailure msg)) :=
    fun p _ msg => fails_failIf p (Or.inl (isVerificationError_failure msg))
  refine Fails.bind ?_ fun encoded _ => Fails.bind (hcheck _ _) fun _ _ =>
    Fails.bind (hcheck _ _) fun _ _ => Fails.bind
      (fails_guardedLoad _ _ (fun _ => isVerificationError_failure _) (hX.loadPem encoded))
      fun roots _ => Fails.bind (hcheck _ _) fun _ _ =>
        Fails.bind ((fails_checkRsaPublicExponents hX _).mono fun _ => Or.inl) fun _ _ => fails_ok _
  -- Reading the file raises an `OSError`, which is named.
  refine fails_handle _ _ _ (fun e _ _ => ?_) fun e he hno => ?_
  · exact fails_error (Or.inl (isVerificationError_failure _))
  rw [any_isA_singleton, hfile e he] at hno
  cases hno

theorem fails_checkTimesFrom (moment : Int) (position : Nat) (certificates : List Cert) :
    Fails IsVerificationError (checkTimesFrom X moment position certificates) := by
  induction certificates generalizing position with
  | nil => exact fails_ok ()
  | cons certificate certificates ih =>
      exact Fails.bind (fails_failIf _ (isVerificationError_failure _)) fun _ _ => ih _

theorem fails_fromTimestamp (t : Int) :
    Fails (fun e => e.cls = .valueError ∨ e.cls = .osError) (fromTimestamp t) := by
  unfold fromTimestamp
  split
  · exact fails_ok t
  · split
    · exact fails_error (Or.inl rfl)
    · exact fails_error (Or.inr rfl)

theorem fails_checkSuppliedCertificateTimes (certificates : List Cert) (validationTime : Int) :
    Fails IsVerificationError (checkSuppliedCertificateTimes X certificates validationTime) := by
  refine Fails.bind ?_ fun moment _ => fails_checkTimesFrom moment 0 certificates
  refine (fails_handle_iff _ _ _ fun _ => isVerificationError_failure _).mpr fun e he hno => ?_
  rcases fails_fromTimestamp validationTime e he with h | h
  · simp only [List.any_cons, PyErr.isA, h] at hno
    cases hno
  · simp only [List.any_cons, PyErr.isA, h] at hno
    cases hno

/-- An error of the extensions is neither a missing extension nor an error of
    the program. -/
theorem IsExtensionsError.escapes {e : PyErr} (h : IsExtensionsError e) :
    e.isA .extensionNotFound = false ∧ ¬IsVerificationError e := by
  have hcls : ∀ c, e.cls = c → e.isA .extensionNotFound = c.bases.contains .extensionNotFound :=
    fun c hc => by rw [PyErr.isA, hc]
  rcases h with h | h | h
  · refine ⟨(hcls _ h).trans rfl, ?_⟩
    rintro (h' | h') <;> cases h.symm.trans h'
  · refine ⟨(hcls _ h).trans rfl, ?_⟩
    rintro (h' | h') <;> cases h.symm.trans h'
  · refine ⟨(hcls _ h).trans rfl, ?_⟩
    rintro (h' | h') <;> cases h.symm.trans h'

/-- Reading one extension of the leaf lets every failure of the extensions
    through. -/
theorem fails_leafExtension_iff {α : Type} (hX : X.Documented) (leaf : Cert)
    (get : CertificateExtensions → Except PyErr α)
    (hget : ∀ x, Fails (fun e => e.cls = .extensionNotFound) (get x)) :
    Fails IsVerificationError (leafExtension X leaf get) ↔ ∃ x, X.extensions leaf = .ok x := by
  unfold leafExtension
  cases hx : X.extensions leaf with
  | error e =>
      -- The handler names the missing extension only, so this passes it.
      rcases (hX.extensions leaf e hx).escapes with ⟨hnot, hforeign⟩
      simp only [reduceCtorEq, exists_false, iff_false]
      intro h
      refine hforeign (h e ?_)
      change handle [.extensionNotFound] _ (.error e) = .error e
      rw [handle, any_isA_singleton, hnot, if_neg Bool.false_ne_true]
  | ok x =>
      simp only [Except.ok.injEq, exists_eq', iff_true]
      refine fails_handle _ _ _ (fun _ _ _ => fails_ok _) fun e he hno => ?_
      rcases (bind_eq_error_iff _ _ _).mp he with he | ⟨x', hx', he⟩
      · cases he
      · rcases (bind_eq_error_iff _ _ _).mp he with he | ⟨value, -, he⟩
        -- A missing extension is caught, and stands for `None`.
        · rw [any_isA_singleton, PyErr.isA, hget x' e he] at hno
          cases hno
        · cases he

theorem fails_getKeyUsage (x : CertificateExtensions) :
    Fails (fun e => e.cls = .extensionNotFound) x.getKeyUsage := by
  unfold CertificateExtensions.getKeyUsage
  split
  · exact fails_ok _
  · exact fails_error rfl

theorem fails_getExtendedKeyUsage (x : CertificateExtensions) :
    Fails (fun e => e.cls = .extensionNotFound) x.getExtendedKeyUsage := by
  unfold CertificateExtensions.getExtendedKeyUsage
  split
  · exact fails_ok _
  · exact fails_error rfl

/-- What it lets through are errors of the extensions. -/
theorem fails_leafExtension {α : Type} (hX : X.Documented) (leaf : Cert)
    (get : CertificateExtensions → Except PyErr α)
    (hget : ∀ x, Fails (fun e => e.cls = .extensionNotFound) (get x)) :
    Fails (fun e => IsVerificationError e ∨ IsExtensionsError e) (leafExtension X leaf get) := by
  cases hx : X.extensions leaf with
  | ok x => exact ((fails_leafExtension_iff hX leaf get hget).mpr ⟨x, hx⟩).mono fun _ => Or.inl
  | error e =>
      rcases (hX.extensions leaf e hx).escapes with ⟨hnot, -⟩
      unfold leafExtension
      rw [hx]
      change Fails _ (handle [.extensionNotFound] _ (.error e))
      rw [handle, any_isA_singleton, hnot, if_neg Bool.false_ne_true]
      exact fails_error (Or.inr (hX.extensions leaf e hx))

theorem fails_checkLeafUsage (hX : X.Documented) (leaf : Cert) :
    Fails (fun e => IsVerificationError e ∨ IsExtensionsError e) (checkLeafUsage X leaf) :=
  Fails.bind (fails_leafExtension hX leaf _ fails_getKeyUsage) fun _ _ =>
    Fails.bind (fails_failIf _ (Or.inl (isVerificationError_failure _))) fun _ _ =>
    Fails.bind (fails_leafExtension hX leaf _ fails_getExtendedKeyUsage) fun _ _ =>
    fails_failIf _ (Or.inl (isVerificationError_failure _))

/-- Checking the leaf raises something foreign exactly when its extensions
    cannot be read. -/
theorem fails_checkLeafUsage_iff (hX : X.Documented) (leaf : Cert) :
    Fails IsVerificationError (checkLeafUsage X leaf) ↔ ∃ x, X.extensions leaf = .ok x := by
  unfold checkLeafUsage
  rw [fails_bind_iff, fails_leafExtension_iff hX leaf _ fails_getKeyUsage]
  refine and_iff_left_of_imp fun hx keyUsage _ => ?_
  exact Fails.bind (fails_failIf _ (isVerificationError_failure _)) fun _ _ =>
    Fails.bind ((fails_leafExtension_iff hX leaf _ fails_getExtendedKeyUsage).mpr hx) fun _ _ =>
    fails_failIf _ (isVerificationError_failure _)

theorem fails_verifyPath (hX : X.Documented) (leaf : Cert) (intermediates roots : List Cert)
    (domain : Str) (validationTime : Int) :
    Fails IsVerificationError (verifyPath X leaf intermediates roots domain validationTime) := by
  refine (fails_handle_iff _ _ _ fun _ => isVerificationError_failure _).mpr fun e he hno => ?_
  simp only [List.any_cons, List.any_nil, Bool.or_false, Bool.or_eq_false_iff] at hno
  rcases (bind_eq_error_iff _ _ _).mp he with he | ⟨moment, -, he⟩
  -- Both the conversion of the time and the library raise what the handler names.
  · rcases fails_fromTimestamp validationTime e he with h | h
    · simp only [PyErr.isA, h] at hno
      cases hno.2.2.1
    · simp only [PyErr.isA, h] at hno
      cases hno.1
  · rcases hX.verifyPath _ _ _ _ _ _ e he with h | h
    · rw [h] at hno
      cases hno.2.2.1
    · simp only [PyErr.isA, h] at hno
      cases hno.2.2.2

/-- What the body of the signature check raises is named by one of its
    handlers. -/
def IsSignatureError (e : PyErr) : Prop :=
  e.isA .invalidSignature = true ∨ e.isA .proofVerificationError = true ∨
    e.isA .valueError = true ∨ e.isA .unsupportedAlgorithm = true

theorem IsSignatureError.of_documented {e : PyErr} (h : e.cls = .invalidSignature ∨
    e.isA .valueError = true ∨ e.cls = .unsupportedAlgorithm) : IsSignatureError e := by
  rcases h with h | h | h
  · refine Or.inl ?_
    rw [PyErr.isA, h]
    rfl
  · exact Or.inr (Or.inr (Or.inl h))
  · refine Or.inr (Or.inr (Or.inr ?_))
    rw [PyErr.isA, h]
    rfl

theorem isSignatureError_of_failure {e : PyErr} (h : e.cls = .proofVerificationError) :
    IsSignatureError e := by
  refine Or.inr (Or.inl ?_)
  rw [PyErr.isA, h]
  rfl

theorem fails_verifyWithScheme (hX : X.Documented) (leaf : Cert) (key : Key) (scheme : Nat)
    (signature message : Bytes) :
    Fails IsSignatureError (verifyWithScheme X leaf key scheme signature message) := by
  have hcheck : ∀ (p : Prop) [Decidable p] (msg : String),
      Fails IsSignatureError (failIf p (verificationFailure msg)) :=
    fun p _ msg => fails_failIf p (isSignatureError_of_failure rfl)
  unfold verifyWithScheme
  split
  · exact Fails.bind (hcheck _ _) fun _ _ =>
      (hX.verifyEcdsa _ _ _).mono fun _ => IsSignatureError.of_documented
  · split
    · exact Fails.bind (hcheck _ _) fun _ _ => Fails.bind (hcheck _ _) fun _ _ =>
        (hX.verifyPss _ _ _).mono fun _ => IsSignatureError.of_documented
    · exact fails_error (isSignatureError_of_failure rfl)

theorem fails_certificateSignature (hX : X.Documented) (leaf : Cert) (parsed : ParsedProof) :
    Fails IsSignatureError (certificateSignature X leaf parsed) := by
  refine Fails.bind ?_ fun _ _ => Fails.bind ?_ fun key _ => fails_verifyWithScheme hX _ _ _ _ _
  · unfold checkLeafKeyRestrictions
    split
    · exact (Der.fails_checkPssKeyRestrictions _).mono fun _ => isSignatureError_of_failure
    · exact fails_ok ()
  · exact (hX.publicKey leaf).mono fun _ h => IsSignatureError.of_documented (Or.inr h)

theorem fails_verifyCertificateSignature (hX : X.Documented) (leaf : Cert)
    (parsed : ParsedProof) :
    Fails IsVerificationError (verifyCertificateSignature X leaf parsed) := by
  refine Fails.bind (fails_checkRsaPublicExponents hX _) fun _ _ => ?_
  intro e' h
  cases hbody : certificateSignature X leaf parsed with
  | ok u =>
      rw [hbody] at h
      exact nomatch h
  | error e =>
      have hnamed := fails_certificateSignature hX leaf parsed e hbody
      rw [hbody] at h
      simp only [handleFirst, List.find?_cons, List.find?_nil, List.any_cons, List.any_nil,
        Bool.or_false] at h
      cases h1 : e.isA .invalidSignature with
      | true =>
          rw [h1] at h
          rw [← Except.error.inj h]
          exact isVerificationError_failure _
      | false =>
          cases h2 : e.isA .proofVerificationError with
          | true =>
              simp only [h1, h2] at h
              rw [← Except.error.inj h]
              refine Or.inr ?_
              -- The class has no subclass, so an instance is of the class itself.
              rcases e with ⟨cls, msg⟩
              cases cls <;> first | rfl | exact nomatch h2
          | false =>
              have h3 : (e.isA .unsupportedAlgorithm || e.isA .valueError) = true := by
                rcases hnamed with hn | hn | hn | hn
                · exact absurd (h1.symm.trans hn) Bool.false_ne_true
                · exact absurd (h2.symm.trans hn) Bool.false_ne_true
                · rw [hn, Bool.or_true]
                · rw [hn, Bool.true_or]
              simp only [h1, h2, h3] at h
              rw [← Except.error.inj h]
              exact isVerificationError_failure _

end Stages

section Whole

variable {Cert Key : Type} (X : X509 Cert Key) (L : Lowercase) (rootFile : Except PyErr Bytes)
  (enforceRootPin : Bool)

/-- What a proof that parses still has to pass, apart from the mask and the
    target. -/
def Authenticates (rootVersion validationTime : Int) (domain : Str) (p : ParsedProof) : Prop :=
  ∃ leaf intermediates roots,
    loadCertificates X p = .ok (leaf :: intermediates) ∧
    loadRoots X rootFile rootVersion enforceRootPin = .ok roots ∧
    checkSuppliedCertificateTimes X (leaf :: intermediates) validationTime = .ok () ∧
    checkLeafUsage X leaf = .ok () ∧
    verifyPath X leaf intermediates roots domain validationTime = .ok () ∧
    verifyCertificateSignature X leaf p = .ok ()

/-- What verification returns for a proof that passes. -/
def verificationResult (challenge : Bytes) (p : ParsedProof) (mask : Int) :
    VerificationResult where
  challenge := toHex challenge
  transcriptHash := toHex p.transcriptHash
  connectionWorkHash := toHex p.connectionWorkHash.reverse
  certificateCount := p.certificateChain.length
  certificateVerifyScheme := p.certificateVerifyScheme
  signatureAlgorithmsMask := mask

theorem length_connectionWorkHash {e : Bytes} {d : Str} {c : Bytes} {p : ParsedProof}
    (h : parseProof e d c = .ok p) : p.connectionWorkHash.length = 32 := by
  rcases (parseProof_eq_ok_iff e d c p).mp h with ⟨-, -, -, -, name, -, t, -, rfl⟩
  exact length_taggedHash _ _

theorem splitLeaf_eq_ok_iff {α : Type} (xs : List α) (pair : α × List α) :
    splitLeaf xs = .ok pair ↔ xs = pair.1 :: pair.2 := by
  cases xs with
  | nil => simp only [splitLeaf, reduceCtorEq]
  | cons x xs =>
      rw [splitLeaf, Except.ok.injEq]
      constructor
      · rintro rfl
        rfl
      · intro h
        rcases List.cons.inj h with ⟨rfl, rfl⟩
        rfl

/-- On an envelope and its parsed proof the comparison with the target
    decides. -/
theorem ConnectionProof.meetsWorkTarget_eq_ok (envelope : ConnectionProof) {work : Bytes}
    (h : work.length = 32) : ∃ b, meetsWorkTarget L work envelope.connectionWorkTarget = .ok b ∧
      (b = true ↔ MeetsTarget work envelope.connectionWorkTarget) := by
  rcases envelope.admitted.connectionWorkTarget.internal with ⟨t, ht, htarget⟩
  rw [htarget]
  exact P2CTools.meetsWorkTarget_eq_ok L work t h ht

/-- Verification returns exactly for a proof that parses, has a scheme of the
    mask, meets the target, and passes everything else. -/
theorem verifyConnectionProof_eq_ok_iff (envelope : ConnectionProof) (r : VerificationResult) :
    verifyConnectionProof X L rootFile enforceRootPin envelope = .ok r ↔
      ∃ c p, envelope.challenge L = .ok c ∧
        parseProof envelope.proof envelope.domain c = .ok p ∧
        p.certificateVerifyScheme ∈ maskSchemes envelope.signatureAlgorithmsMask ∧
        MeetsTarget p.connectionWorkHash envelope.connectionWorkTarget ∧
        Authenticates X rootFile enforceRootPin envelope.rootCertificatesVersion
          envelope.validationTime envelope.domain p ∧
        r = verificationResult c p envelope.signatureAlgorithmsMask := by
  unfold verifyConnectionProof Authenticates
  simp only [bind_eq_ok_iff, failIf_eq_ok_iff, exists_const, pure_eq_ok_iff, not_not,
    splitLeaf_eq_ok_iff,
    signatureSchemeAllowed_eq _ _ envelope.admitted.signatureAlgorithmsMask, Except.ok.injEq,
    exists_eq_left', decide_eq_true_eq]
  constructor
  · rintro ⟨c, hc, p, hp, hmask, meets, hmeets, rfl, certificates, hcerts, roots, hroots, _, htimes,
      ⟨leaf, intermediates⟩, rfl, _, husage, _, hpath, _, hsignature, work, hwork, rfl⟩
    have hlen := length_connectionWorkHash hp
    -- The comparison returned true, which is what meeting the target is.
    rcases envelope.meetsWorkTarget_eq_ok L hlen with ⟨b, hb, hiff⟩
    rw [hmeets, Except.ok.injEq] at hb
    rw [internalHashToDisplay_eq_ok _ hlen, Except.ok.injEq] at hwork
    subst hwork
    exact ⟨c, p, hc, hp, hmask, hiff.mp hb.symm, ⟨leaf, intermediates, roots, hcerts, hroots,
      htimes, husage, hpath, hsignature⟩, rfl⟩
  · rintro ⟨c, p, hc, hp, hmask, hmeets, ⟨leaf, intermediates, roots, hcerts, hroots, htimes,
      husage, hpath, hsignature⟩, rfl⟩
    have hlen := length_connectionWorkHash hp
    rcases envelope.meetsWorkTarget_eq_ok L hlen with ⟨b, hb, hiff⟩
    exact ⟨c, hc, p, hp, hmask, b, hb, hiff.mpr hmeets, _, hcerts, roots, hroots, (), htimes,
      (leaf, intermediates), rfl, (), husage, (), hpath, (), hsignature, _,
      internalHashToDisplay_eq_ok _ hlen, rfl⟩

/-- Of the stages after the target, the first to fail is one of the three
    unguarded calls, and it fails with a class that nothing stops. -/
def EscapesStages (rootVersion validationTime : Int) (p : ParsedProof) : Prop :=
  InvalidVersionFirst X p.certificateChain ∨
    ∃ certificates, loadCertificates X p = .ok certificates ∧
      ((∃ encoded, rootFile = .ok encoded ∧ rootVersion = 1 ∧
          (enforceRootPin = true → toHex (sha256 encoded) = rootsV1Sha256) ∧
          ∃ e, X.loadPem encoded = .error e ∧ e.cls = .invalidVersion) ∨
        ((∃ roots, loadRoots X rootFile rootVersion enforceRootPin = .ok roots) ∧
          checkSuppliedCertificateTimes X certificates validationTime = .ok () ∧
          ∃ leaf ∈ certificates.head?, ∃ e, X.extensions leaf = .error e))

/-- Verification gets past the target and then escapes. -/
def Escapes (envelope : ConnectionProof) : Prop :=
  ∃ c, envelope.challenge L = .ok c ∧ ∃ p,
    parseProof envelope.proof envelope.domain c = .ok p ∧
    p.certificateVerifyScheme ∈ maskSchemes envelope.signatureAlgorithmsMask ∧
    MeetsTarget p.connectionWorkHash envelope.connectionWorkTarget ∧
    EscapesStages X rootFile enforceRootPin envelope.rootCertificatesVersion
      envelope.validationTime p

variable {X L rootFile enforceRootPin}

/-- A proof that parses has at least one certificate. -/
theorem certificateChain_ne_nil {e : Bytes} {d : Str} {c : Bytes} {p : ParsedProof}
    (h : parseProof e d c = .ok p) : p.certificateChain ≠ [] := by
  rcases (parseProof_eq_ok_iff e d c p).mp h with ⟨-, -, -, -, name, -, t, -, rfl⟩
  intro hnil
  exact t.certificate.ne_nil (List.map_eq_nil_iff.mp hnil)

/-- A chain loads to as many certificates. -/
theorem length_loadCertificatesFrom (position : Nat) (chain : List Bytes)
    (certificates : List Cert) (h : loadCertificatesFrom X position chain = .ok certificates) :
    certificates.length = chain.length := by
  induction chain generalizing position certificates with
  | nil =>
      rw [loadCertificatesFrom, Except.ok.injEq] at h
      rw [← h]
      rfl
  | cons encoded chain ih =>
      simp only [loadCertificatesFrom, bind_eq_ok_iff, pure_eq_ok_iff] at h
      rcases h with ⟨certificate, -, rest, hrest, rfl⟩
      rw [List.length_cons, List.length_cons, ih _ _ hrest]

theorem loadCertificates_ne_nil {p : ParsedProof} {certificates : List Cert}
    (hp : p.certificateChain ≠ []) (h : loadCertificates X p = .ok certificates) :
    certificates ≠ [] := by
  simp only [loadCertificates, loadCertificateChain, bind_eq_ok_iff, pure_eq_ok_iff] at h
  rcases h with ⟨certificates', hload, _, -, rfl⟩
  have hlen := length_loadCertificatesFrom _ _ _ hload
  rintro rfl
  exact hp (List.eq_nil_of_length_eq_zero hlen.symm)

/-- The stages after the target raise errors of the program only, except where
    one of the three unguarded calls is reached and fails. -/
theorem fails_stages_iff (hX : X.Documented)
    (hfile : Fails (fun e => e.isA .osError = true) rootFile) (enforceRootPin : Bool)
    (rootVersion validationTime : Int) (domain : Str) (p : ParsedProof) (hp : p.certificateChain ≠ []) :
    (Fails IsVerificationError (loadCertificates X p) ∧
      ∀ certificates, loadCertificates X p = .ok certificates →
      Fails IsVerificationError (loadRoots X rootFile rootVersion enforceRootPin) ∧
      ∀ roots, loadRoots X rootFile rootVersion enforceRootPin = .ok roots →
      Fails IsVerificationError (checkSuppliedCertificateTimes X certificates validationTime) ∧
      ∀ u, checkSuppliedCertificateTimes X certificates validationTime = .ok u →
      Fails IsVerificationError (splitLeaf certificates) ∧
      ∀ pair, splitLeaf certificates = .ok pair →
      Fails IsVerificationError (checkLeafUsage X pair.1) ∧
      ∀ u, checkLeafUsage X pair.1 = .ok u →
      Fails IsVerificationError (verifyPath X pair.1 pair.2 roots domain validationTime) ∧
      ∀ u, verifyPath X pair.1 pair.2 roots domain validationTime = .ok u →
      Fails IsVerificationError (verifyCertificateSignature X pair.1 p)) ↔
    ¬EscapesStages X rootFile enforceRootPin rootVersion validationTime p := by
  constructor
  -- Each way to escape contradicts what its stage raises.
  · rintro ⟨hload, hrest⟩ (hfirst | ⟨certificates, hcerts, hpem | ⟨⟨roots, hroots⟩, htimes, leaf,
      hleaf, e, he⟩⟩)
    · exact (fails_loadCertificateChain_iff hX _).mp hload hfirst
    · exact (fails_loadRoots_iff hX _ _ _ hfile).mp (hrest certificates hcerts).1 hpem
    · have hleaves := ((hrest certificates hcerts).2 roots hroots).2 () htimes
      match certificates with
      | leaf' :: intermediates =>
          rw [List.head?_cons, Option.mem_some_iff] at hleaf
          rcases (fails_checkLeafUsage_iff hX leaf').mp (hleaves.2 (leaf', intermediates) rfl).1
            with ⟨x, hx⟩
          rw [hleaf, he] at hx
          exact nomatch hx
  -- Stage by stage: whatever escapes would be one of the three ways.
  · intro h
    refine ⟨(fails_loadCertificateChain_iff hX _).mpr fun hf => h (Or.inl hf),
      fun certificates hcerts => ⟨(fails_loadRoots_iff hX _ _ _ hfile).mpr fun hpem =>
        h (Or.inr ⟨certificates, hcerts, Or.inl hpem⟩), fun roots hroots =>
        ⟨fails_checkSuppliedCertificateTimes _ _, fun _ htimes => ⟨?_, fun pair hpair =>
          ⟨(fails_checkLeafUsage_iff hX _).mpr ?_, fun _ _ => ⟨fails_verifyPath hX _ _ _ _ _,
            fun _ _ => fails_verifyCertificateSignature hX _ _⟩⟩⟩⟩⟩⟩
    -- A proof has a certificate, so the leaf can be split off.
    · match certificates, loadCertificates_ne_nil hp hcerts with
      | leaf :: intermediates, _ => exact fails_ok _
    · rw [splitLeaf_eq_ok_iff] at hpair
      cases hx : X.extensions pair.1 with
      | ok x => exact ⟨x, rfl⟩
      -- The extensions of the leaf cannot be read, which is the third way.
      | error e =>
          refine absurd (Or.inr ⟨certificates, hcerts, Or.inr ⟨⟨roots, hroots⟩, htimes, pair.1, ?_,
            e, hx⟩⟩) h
          rw [hpair, List.head?_cons, Option.mem_some_iff]

/-- What leaves verification is an error of the program, except where one of
    the three unguarded calls is reached and fails. -/
theorem fails_verifyConnectionProof_iff (hX : X.Documented)
    (hfile : Fails (fun e => e.isA .osError = true) rootFile) (envelope : ConnectionProof) :
    Fails IsVerificationError (verifyConnectionProof X L rootFile enforceRootPin envelope) ↔
      ¬Escapes X L rootFile enforceRootPin envelope := by
  rcases envelope.challenge_eq_ok L with ⟨c, hc, -⟩
  unfold verifyConnectionProof Escapes
  rw [hc, fails_bind_iff]
  simp only [fails_ok, true_and, Except.ok.injEq, forall_eq', exists_eq_left']
  rw [fails_bind_iff, and_iff_right
    ((fails_parseProof _ _ _).mono fun _ => IsFormatError.isVerificationError)]
  cases hp : parseProof envelope.proof envelope.domain c with
  -- A proof that does not parse is refused by an error of the program.
  | error e => simp only [reduceCtorEq, false_implies, implies_true, false_and, exists_false,
      not_false_eq_true]
  | ok p =>
      -- Behind the parser the checks of the scheme and the target are errors of the program too.
      have hlen := length_connectionWorkHash hp
      rcases envelope.meetsWorkTarget_eq_ok L hlen with ⟨meets, hmeets, hiff⟩
      have hcheck : ∀ (q : Prop) [Decidable q] (msg : String),
          Fails IsVerificationError (failIf q (verificationFailure msg)) :=
        fun q _ msg => fails_failIf q (isVerificationError_failure msg)
      have hstages := fails_stages_iff hX hfile enforceRootPin
        envelope.rootCertificatesVersion envelope.validationTime envelope.domain p
        (certificateChain_ne_nil hp)
      simp only [Except.ok.injEq, forall_eq', exists_eq_left',
        signatureSchemeAllowed_eq _ _ envelope.admitted.signatureAlgorithmsMask, hmeets,
        fails_bind_iff, fails_ok, hcheck, true_and, failIf_eq_ok_iff, not_not, decide_eq_true_eq,
        hiff, forall_const, internalHashToDisplay_eq_ok _ hlen, pure, Except.pure, implies_true,
        and_true] at hstages ⊢
      rw [hstages, not_and, not_and]

/-- The classes of the exceptions that the unguarded calls let through. -/
def IsUnguardedError (e : PyErr) : Prop :=
  e.cls = .invalidVersion ∨ IsExtensionsError e

/-- Whatever leaves verification is an error of the program or one of these. -/
theorem fails_verifyConnectionProof (hX : X.Documented)
    (hfile : Fails (fun e => e.isA .osError = true) rootFile) (envelope : ConnectionProof) :
    Fails (fun e => IsVerificationError e ∨ IsUnguardedError e)
      (verifyConnectionProof X L rootFile enforceRootPin envelope) := by
  have hcheck : ∀ (q : Prop) [Decidable q] (msg : String),
      Fails (fun e => IsVerificationError e ∨ IsUnguardedError e)
        (failIf q (verificationFailure msg)) :=
    fun q _ msg => fails_failIf q (Or.inl (isVerificationError_failure msg))
  have hload : ∀ e, IsVerificationError e ∨ e.cls = .invalidVersion →
      IsVerificationError e ∨ IsUnguardedError e := fun e h => h.imp_right Or.inl
  rcases envelope.challenge_eq_ok L with ⟨c, hc, -⟩
  unfold verifyConnectionProof
  rw [hc]
  refine Fails.bind (fails_ok c) fun c' _ => Fails.bind ((fails_parseProof _ _ _).mono
    fun _ h => Or.inl h.isVerificationError) fun p hp => ?_
  have hwork := length_connectionWorkHash hp
  rcases envelope.meetsWorkTarget_eq_ok L hwork with ⟨meets, hmeets, -⟩
  rw [signatureSchemeAllowed_eq _ _ envelope.admitted.signatureAlgorithmsMask, hmeets,
    internalHashToDisplay_eq_ok _ hwork]
  refine Fails.bind (fails_ok _) fun _ _ => Fails.bind (hcheck _ _) fun _ _ =>
    Fails.bind (fails_ok _) fun _ _ => Fails.bind (hcheck _ _) fun _ _ =>
    Fails.bind ((fails_loadCertificateChain hX _).mono hload) fun certificates hcerts =>
    Fails.bind ((fails_loadRoots hX _ _ _ hfile).mono hload) fun roots _ =>
    Fails.bind ((fails_checkSuppliedCertificateTimes _ _).mono fun _ => Or.inl) fun _ _ =>
    Fails.bind ?_ fun pair _ =>
    Fails.bind ((fails_checkLeafUsage hX _).mono fun _ h => h.imp_right Or.inr) fun _ _ =>
    Fails.bind ((fails_verifyPath hX _ _ _ _ _).mono fun _ => Or.inl) fun _ _ =>
    Fails.bind ((fails_verifyCertificateSignature hX _ _).mono fun _ => Or.inl) fun _ _ =>
    Fails.bind (fails_ok _) fun _ _ => fails_ok _
  -- A proof has a certificate, so the leaf can be split off.
  cases certificates with
  | nil => exact absurd rfl (loadCertificates_ne_nil (certificateChain_ne_nil hp) hcerts)
  | cons leaf intermediates => exact fails_ok _

/-- Verification returns or raises an error of the program exactly where it
    does not get past the target and then escape. -/
theorem verification_outcome_iff (hX : X.Documented)
    (hfile : Fails (fun e => e.isA .osError = true) rootFile) (envelope : ConnectionProof) :
    ((∃ r, verifyConnectionProof X L rootFile enforceRootPin envelope = .ok r) ∨
        ∃ e, verifyConnectionProof X L rootFile enforceRootPin envelope = .error e ∧
          IsVerificationError e) ↔
      ¬Escapes X L rootFile enforceRootPin envelope := by
  rw [← fails_verifyConnectionProof_iff hX hfile envelope]
  cases h : verifyConnectionProof X L rootFile enforceRootPin envelope with
  | ok r => exact iff_of_true (Or.inl ⟨r, rfl⟩) (fails_ok r)
  | error e =>
      constructor
      · rintro (⟨r, hr⟩ | ⟨e', he', herror⟩)
        · exact nomatch hr
        · rw [Except.error.inj he']
          exact fails_error herror
      · intro hfails
        exact Or.inr ⟨e, rfl, hfails e rfl⟩

end Whole

/-! ### A library for three certificates -/

section Sample

/-- A leaf certificate for `example.com` with a P-256 key. -/
def leafDer : Bytes :=
  octets 395 0x308201873082012ea003020102020102300a06082a8648ce3d040302300c310a300806035504030c01523020170d3236313131393232313230305a180f32313236313032363232313230305a300c310a300806035504030c014c3059301306072a8648ce3d020106082a8648ce3d0301070342000407990d51ac755d38c40013321fc7202cbc0a9a6b74b3b4dc8fb525f9bac3a5455251b3d5589a3504f6df4296789b49f357db5df19fcd42b714ea98a649418618a37f307d30160603551d11040f300d820b6578616d706c652e636f6d30130603551d25040c300a06082b06010505070301300e0603551d0f0101ff040403020780301f0603551d23041830168014d71ae1a70e5adfe0480b94ed77ae79d4d301d941301d0603551d0e041604144bed4f695410ed6628c184433ebcd9b29df3a145300a06082a8648ce3d04030203470030440220205a1178b44b72101eb66c23c845a917d3e72325b2e3ab0c256be90639a9fa8c022067b56b46e7ed057524d2744d47163a58297bc85f64b8752fb1812e3fbbd3bc0c

/-- The leaf certificate with a version field that names no version. -/
def invalidVersionDer : Bytes :=
  leafDer.take 12 ++ [3] ++ leafDer.drop 13

/-- A root file with the one root that signed the leaf. -/
def rootPem : Bytes :=
  asciiLiteral "-----BEGIN CERTIFICATE-----\nMIIBSzCB8aADAgECAgEBMAoGCCqGSM49BAMCMAwxCjAIBgNVBAMMAVIwIBcNMjYx\nMTE5MjIxMjAwWhgPMjEyNjEwMjYyMjEyMDBaMAwxCjAIBgNVBAMMAVIwWTATBgcq\nhkjOPQIBBggqhkjOPQMBBwNCAAT3ps+5z76qVj4oH2qw6qgIJT1imCcnc/XrSfZt\npQD9sRDdlw0hEGbS0mqSkaN0nAXML84eveanauPH0nH7pNRYo0IwQDAPBgNVHRMB\nAf8EBTADAQH/MA4GA1UdDwEB/wQEAwICBDAdBgNVHQ4EFgQU1xrhpw5a3+BIC5Tt\nd6551NMB2UEwCgYIKoZIzj0EAwIDSQAwRgIhAOrSm86iMxX08K/0q6iTFp7mAdi1\nYUAp39YnkYNx7mAVAiEAoGY3oHtcVEmDAWu32GlUJy9ttx5KTOnToIJZQS10Qfc=\n-----END CERTIFICATE-----\n"

/-- A signature by the leaf's key, over the transcript that it is for. -/
def sampleSignature : Bytes :=
  octets 71 0x3045022043ab162db093a0f9361c8f418164fcdd2784d5453e00a5ffe79d409064f131e3022100b33d84b57d7851f44d4670506ed52e89b6ecafe8a5e0e847b16f4ceefac97276

/-- The transcript hash that the sample signature is for. -/
def sampleTranscriptHash : Bytes :=
  octets 32 0x317859402ffd2a05f599d376092309deda7cd64829c3a7900ae9cc8b8afe96b5

/-- The root of the root file, by the name it is known under. -/
def rootName : Bytes :=
  asciiLiteral "R"

/-- The answers of the library for the leaf, its root and its signature. -/
def sampleX509 : X509 Bytes Unit where
  loadDer encoded :=
    if encoded = leafDer then .ok leafDer
    else if encoded = invalidVersionDer then
      .error ⟨.invalidVersion, "3 is not a valid X509 version"⟩
    else .error (valueError "error parsing asn1 value")
  loadPem encoded :=
    if encoded = rootPem then .ok [rootName]
    else .error (valueError "Unable to load PEM file")
  publicKeyAlgorithmOid _ := [1, 2, 840, 10045, 2, 1]
  publicKey _ := .ok ()
  keyKind _ := .ellipticCurve true
  extensions _ := .ok ⟨some true, some [oidServerAuth]⟩
  notValidBefore _ := 1795126320
  notValidAfter _ := 4948726320
  tbsCertificateBytes certificate := certificate
  verifyPath roots moment _ domain leaf intermediates :=
    if roots = [rootName] ∧ 1795126320 ≤ moment ∧ moment ≤ 4948726320 ∧ domain = vectorDomain ∧
        leaf = leafDer ∧ intermediates = [] then .ok ()
    else .error ⟨.verificationError, "validation failed"⟩
  verifyEcdsa _ signature message :=
    if signature = sampleSignature ∧ message = certificateVerifyMessage sampleTranscriptHash then
      .ok ()
    else .error ⟨.invalidSignature, ""⟩
  verifyPss _ _ _ := .error ⟨.invalidSignature, ""⟩

/-- Every answer of the sample library is an error its documentation names. -/
theorem documented_sampleX509 : sampleX509.Documented where
  loadDer encoded := by
    change Fails IsLoadError (if encoded = leafDer then _ else _)
    split
    · exact fails_ok _
    · split
      · exact fails_error (Or.inr rfl)
      · exact fails_error (Or.inl rfl)
  loadPem encoded := by
    change Fails IsLoadError (if encoded = rootPem then _ else _)
    split
    · exact fails_ok _
    · exact fails_error (Or.inl rfl)
  publicKey _ := fails_ok ()
  extensions _ := fails_ok _
  verifyPath roots moment depth domain leaf intermediates := by
    dsimp only [sampleX509]
    split
    · exact fails_ok ()
    · exact fails_error (Or.inr rfl)
  verifyEcdsa key signature message := by
    dsimp only [sampleX509]
    split
    · exact fails_ok ()
    · exact fails_error (Or.inl rfl)
  verifyPss _ _ _ := fails_error (Or.inl rfl)

/-- The structural vector with a Certificate message for one certificate. -/
def vectorProofWith (der : Bytes) : Bytes :=
  be 1 proofVersion ++ [vectorClientHello, vectorServerHello, vectorEncryptedExtensions,
    frame 11 (vec 1 [] ++ vec 3 (vec 3 der ++ vec 2 [])), vectorCertificateVerify].flatten

/-- The envelope of a proof whose certificate names no version of X.509. -/
def invalidVersionEnvelope : ConnectionProof :=
  ⟨vectorFields 0xff (vectorProofWith invalidVersionDer),
    admitted_vectorFields 0xff _ (by decide +kernel)⟩

/-- What verification makes of the certificate without a version. -/
theorem verifyConnectionProof_invalidVersion :
    verifyConnectionProof sampleX509 Lowercase.ascii (.ok rootPem) false invalidVersionEnvelope =
      .error ⟨.invalidVersion, "3 is not a valid X509 version"⟩ := by
  decide +kernel

theorem no_outcome_invalidVersion :
    ¬((∃ r, verifyConnectionProof sampleX509 Lowercase.ascii (.ok rootPem) false
          invalidVersionEnvelope = .ok r) ∨
      ∃ e, verifyConnectionProof sampleX509 Lowercase.ascii (.ok rootPem) false
          invalidVersionEnvelope = .error e ∧ IsVerificationError e) := by
  rw [verifyConnectionProof_invalidVersion]
  rintro (⟨r, hr⟩ | ⟨e, he, herror⟩)
  · exact nomatch hr
  · rw [← Except.error.inj he] at herror
    rcases herror with h | h
    · exact nomatch h
    · exact nomatch h

/-- An error that the library documents comes out of verification. -/
theorem invalid_version_leaves_verification :
    sampleX509.Documented ∧
      ¬((∃ r, verifyConnectionProof sampleX509 Lowercase.ascii (.ok rootPem) false
            invalidVersionEnvelope = .ok r) ∨
        ∃ e, verifyConnectionProof sampleX509 Lowercase.ascii (.ok rootPem) false
            invalidVersionEnvelope = .error e ∧ IsVerificationError e) :=
  ⟨documented_sampleX509, no_outcome_invalidVersion⟩

theorem invalidVersionEnvelope_escapes :
    Escapes sampleX509 Lowercase.ascii (.ok rootPem) false invalidVersionEnvelope := by
  by_contra hno
  exact no_outcome_invalidVersion ((verification_outcome_iff documented_sampleX509
    (fails_ok rootPem) invalidVersionEnvelope).mpr hno)

end Sample

end P2CTools
