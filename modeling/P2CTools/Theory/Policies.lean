import P2CTools.Theory.Soundness
import P2CTools.Theory.Targets

/-!
# What a Policy Decides

A proof that was accepted once, judged by another policy.

An envelope carries two things: evidence, which is a proof with the claim, the
time and the roots that go with it, and a policy, which is a target and a mask
of signature algorithms. Whether the roots have to match their pin is a policy
of the one who verifies. Verification asks the policy three questions, whether
the scheme is in the mask, whether the work meets the target and whether the
root file is the pinned one. The first two answers can be read off the result of
any verification that accepted the evidence, and the third off the hash of the
root file. So a second verification under another policy can be predicted
without a proof or a library at hand, up to the text of its error.

The search relies on this when it verifies its first candidate under the
easiest target instead of its own.

## Main definitions

* `SameEvidence`: Two envelopes differ in their policy at most.
* `offPin`: A root file that is not the pinned one.
* `underPolicy`: The judgement of a policy on an accepted proof.

## Theorems

* `authenticates_pin`: The pin is all that enforcing it adds.
* `policy_decides`: A second verification is the judgement of its policy.
-/

namespace P2CTools

open Wire Protocol

/-- The second envelope differs from the first in its target and its mask at
    most. -/
def SameEvidence (e e' : ConnectionProof) : Prop :=
  e'.toFields = { e.toFields with
    connectionWorkTarget := e'.connectionWorkTarget
    signatureAlgorithmsMask := e'.signatureAlgorithmsMask }

/-- The root file could be read and is not the pinned one. -/
def offPin : Except PyErr Bytes → Bool
  | .ok encoded => decide (toHex (sha256 encoded) ≠ rootsV1Sha256)
  | .error _ => false

/-- What a target, a mask and a pin make of a proof that was accepted with a
    result. Targets are compared as they are displayed. -/
def underPolicy (rootFile : Except PyErr Bytes) (pin : Bool) (target : Str) (mask : Int)
    (r : VerificationResult) : Except PyErr VerificationResult :=
  if r.certificateVerifyScheme ∉ maskSchemes mask then
    .error (verificationFailure ("CertificateVerify signature scheme is not allowed by the output " ++
      "signature_algorithms_mask"))
  else if target < r.connectionWorkHash then
    .error (verificationFailure "connection work hash exceeds the output target")
  else if pin = true ∧ offPin rootFile = true then
    .error (verificationFailure "root bundle version 1 does not match its consensus SHA-256 pin")
  else .ok { r with signatureAlgorithmsMask := mask }

section Evidence

variable {Cert Key : Type} {X : X509 Cert Key} {L : Lowercase} {rootFile : Except PyErr Bytes}

/-- The pin is all that enforcing it adds: where the root file is the pinned one
    or nobody asks, what was accepted is accepted again. -/
theorem authenticates_pin {pin pin' : Bool} {rootVersion validationTime : Int} {domain : Str}
    {p : ParsedProof} (hpin : ¬(pin' = true ∧ offPin rootFile = true))
    (h : Authenticates X rootFile pin rootVersion validationTime domain p) :
    Authenticates X rootFile pin' rootVersion validationTime domain p := by
  rcases h with ⟨leaf, intermediates, roots, hcertificates, hroots, hrest⟩
  rcases (loadRoots_eq_ok_iff _ _ _ _ _).mp hroots
    with ⟨encoded, hfile, hversion, -, hpem, hne, hbounded⟩
  have hmatches : pin' = true → toHex (sha256 encoded) = rootsV1Sha256 := by
    intro henforced
    by_contra hother
    exact hpin ⟨henforced, by rw [hfile]; exact decide_eq_true hother⟩
  exact ⟨leaf, intermediates, roots, hcertificates, (loadRoots_eq_ok_iff _ _ _ _ _).mpr
    ⟨encoded, hfile, hversion, hmatches, hpem, hne, hbounded⟩, hrest⟩

/-- A file that is not the pinned one is refused where the pin is enforced. -/
theorem loadRoots_offPin {pin pin' : Bool} {version : Int} {roots : List Cert}
    (hroots : loadRoots X rootFile version pin = .ok roots)
    (hpin : pin' = true ∧ offPin rootFile = true) :
    loadRoots X rootFile version pin' = .error (verificationFailure
      "root bundle version 1 does not match its consensus SHA-256 pin") := by
  rcases (loadRoots_eq_ok_iff _ _ _ _ _).mp hroots with ⟨encoded, hfile, hversion, -⟩
  rcases hpin with ⟨henforced, hoff⟩
  rw [hfile] at hoff
  have hother : toHex (sha256 encoded) ≠ rootsV1Sha256 := of_decide_eq_true hoff
  rw [hfile, hversion, henforced]
  have hfails : failIf (true = true ∧ toHex (sha256 encoded) ≠ rootsV1Sha256)
      (verificationFailure "root bundle version 1 does not match its consensus SHA-256 pin") =
        .error (verificationFailure
          "root bundle version 1 does not match its consensus SHA-256 pin") := if_pos ⟨rfl, hother⟩
  unfold loadRoots
  change (failIf (true = true ∧ toHex (sha256 encoded) ≠ rootsV1Sha256) _ >>= _) = _
  rw [hfails]
  rfl

/-- A work meets a target unless the target comes before it in display. -/
theorem meetsTarget_iff_display {work : Bytes} {target : Str} (hwork : work.length = 32)
    (htarget : IsDisplay target) :
    MeetsTarget work target ↔ ¬target < toHex work.reverse := by
  have hshown : IsDisplay (toHex work.reverse) := (isDisplay_iff _).mpr ⟨work, hwork, rfl⟩
  rw [not_lt, le_iff_hexNumber_le _ _ hshown htarget, hexNumber_toHex]
  rcases (isDisplay_iff target).mp htarget with ⟨t, ht, rfl⟩
  rw [hexNumber_toHex]
  constructor
  · intro h
    rcases h with ⟨t', ht', hsame, hle⟩
    rw [← List.reverse_inj.mp (toHex_inj _ _ hsame)] at hle
    exact hle
  · intro h
    exact ⟨t, ht, rfl, h⟩

theorem ConnectionProof.isDisplay_connectionWorkTarget (e : ConnectionProof) :
    IsDisplay e.connectionWorkTarget := by
  rcases e.admitted.connectionWorkTarget with ⟨t, ht, htarget⟩
  refine (isDisplay_iff _).mpr ⟨t.reverse, ?_, ?_⟩
  · rw [List.length_reverse, ht]
  · rw [List.reverse_reverse, htarget]

/-- What is the same about envelopes with the same evidence. -/
theorem SameEvidence.fields {e e' : ConnectionProof} (h : SameEvidence e e') :
    e'.challenge L = e.challenge L ∧ e'.proof = e.proof ∧ e'.domain = e.domain ∧
      e'.rootCertificatesVersion = e.rootCertificatesVersion ∧
      e'.validationTime = e.validationTime := by
  unfold SameEvidence at h
  unfold ConnectionProof.challenge
  rw [h]
  exact ⟨rfl, rfl, rfl, rfl, rfl⟩

/-- Verification of a proof that parses begins with the two tests, and the
    roots are loaded after the certificates. -/
theorem verify_tests (pin : Bool) {e : ConnectionProof} {c : Bytes} {p : ParsedProof}
    (hc : e.challenge L = .ok c) (hp : parseProof e.proof e.domain c = .ok p) :
    ∃ rest : List Cert → List Cert → Except PyErr VerificationResult,
      verifyConnectionProof X L rootFile pin e = (do
      let allowed ← signatureSchemeAllowed e.signatureAlgorithmsMask p.certificateVerifyScheme
      failIf (¬allowed) (verificationFailure
        ("CertificateVerify signature scheme is not allowed by the output " ++
          "signature_algorithms_mask"))
      let meets ← meetsWorkTarget L p.connectionWorkHash e.connectionWorkTarget
      failIf (¬meets) (verificationFailure "connection work hash exceeds the output target")
      let certificates ← loadCertificates X p
      let roots ← loadRoots X rootFile e.rootCertificatesVersion pin
      rest certificates roots) := by
  unfold verifyConnectionProof
  rw [hc]
  change ∃ rest, (parseProof e.proof e.domain c >>= _) = _
  rw [hp]
  exact ⟨_, rfl⟩

/-- A second verification of evidence that was accepted is the judgement of its
    policy, with the errors of its three tests, whether or not the first one
    enforced the pin. -/
theorem policy_decides (X : X509 Cert Key) (L : Lowercase) (rootFile : Except PyErr Bytes)
    (pin pin' : Bool) (e e' : ConnectionProof) (r : VerificationResult) (hsame : SameEvidence e e')
    (h : verifyConnectionProof X L rootFile pin e = .ok r) :
    verifyConnectionProof X L rootFile pin' e' =
      underPolicy rootFile pin' e'.connectionWorkTarget e'.signatureAlgorithmsMask r := by
  rcases (verifyConnectionProof_eq_ok_iff X L rootFile pin e r).mp h
    with ⟨c, p, hc, hp, -, -, hauthentic, hr⟩
  rcases hsame.fields (L := L) with ⟨hchallenge, hproof, hdomain, hversion, htime⟩
  rw [← hchallenge] at hc
  rw [← hproof, ← hdomain] at hp
  rw [← hversion, ← htime, ← hdomain] at hauthentic
  -- What the two tests are about can be read off the result.
  have hscheme : r.certificateVerifyScheme = p.certificateVerifyScheme := by rw [hr]; rfl
  have hshown : r.connectionWorkHash = toHex p.connectionWorkHash.reverse := by rw [hr]; rfl
  have hwork := length_connectionWorkHash hp
  have hmeets := meetsTarget_iff_display hwork e'.isDisplay_connectionWorkTarget
  rw [← hshown] at hmeets
  have hallowed := signatureSchemeAllowed_eq e'.signatureAlgorithmsMask
    p.certificateVerifyScheme e'.admitted.signatureAlgorithmsMask
  rw [← hscheme] at hallowed
  rcases e'.meetsWorkTarget_eq_ok L hwork with ⟨met, hmet, hmetIff⟩
  unfold underPolicy
  by_cases hmask : r.certificateVerifyScheme ∈ maskSchemes e'.signatureAlgorithmsMask
  · rw [if_neg (not_not_intro hmask)]
    by_cases hsmall : e'.connectionWorkTarget < r.connectionWorkHash
    -- The target is missed.
    · have hfalse : met = false :=
        Bool.eq_false_iff.mpr fun htrue => hmeets.mp (hmetIff.mp htrue) hsmall
      rcases verify_tests (X := X) (L := L) pin' hc hp with ⟨rest, htests⟩
      rw [if_pos hsmall, htests, ← hscheme, hallowed, decide_eq_true hmask, hmet, hfalse]
      rfl
    · have htrue : met = true := hmetIff.mpr (hmeets.mpr hsmall)
      rw [if_neg hsmall]
      by_cases hoff : pin' = true ∧ offPin rootFile = true
      -- Both tests are passed, and the roots are refused.
      · rcases hauthentic with ⟨leaf, intermediates, roots, hcertificates, hroots, -⟩
        rcases verify_tests (X := X) (L := L) pin' hc hp with ⟨rest, htests⟩
        rw [if_pos hoff, htests, ← hscheme, hallowed, decide_eq_true hmask, hmet, htrue,
          hcertificates, loadRoots_offPin hroots hoff]
        rfl
      -- All of them are passed, and the rest is what was accepted.
      · rw [if_neg hoff]
        refine (verifyConnectionProof_eq_ok_iff X L rootFile pin' e' _).mpr
          ⟨c, p, hc, hp, hscheme ▸ hmask, hmeets.mpr hsmall,
            authenticates_pin hoff hauthentic, ?_⟩
        rw [hr]
        rfl
  -- The scheme is not in the mask.
  · rcases verify_tests (X := X) (L := L) pin' hc hp with ⟨rest, htests⟩
    rw [if_pos hmask, htests, ← hscheme, hallowed, decide_eq_false hmask]
    rfl

end Evidence

section Sample

open Tls13 (sessionMessages sessionRecords piecesOf attemptOn)

/-- The session's proof under another target. -/
def harderCandidate : ConnectionProof :=
  ⟨vectorFields 0x0f sessionMessages.encodedProof,
    admitted_vectorFields 0x0f _ sampleCandidate.admitted.proof⟩

/-- The session's proof was accepted under the easiest target and without the
    pin, and so another target and the pin have only to be compared. -/
theorem session_policy : ∃ r,
    verifyConnectionProof sampleX509 Lowercase.ascii (.ok rootPem) false sampleCandidate = .ok r ∧
      verifyConnectionProof sampleX509 Lowercase.ascii (.ok rootPem) true harderCandidate =
        underPolicy (.ok rootPem) true harderCandidate.connectionWorkTarget 7 r := by
  rcases verifyCandidate_sampleCandidate (attemptOn (piecesOf sessionRecords)) with ⟨r, hr⟩
  exact ⟨r, hr, policy_decides sampleX509 Lowercase.ascii (.ok rootPem) false true sampleCandidate
    harderCandidate r rfl hr⟩

end Sample

end P2CTools
