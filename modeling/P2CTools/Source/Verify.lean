import P2CTools.Source.Der
import P2CTools.Source.Envelope
import P2CTools.Source.X509

/-!
# Verification

The checks on a proof beyond its structure, from `verify.py`.

The stages run in the source's order and each keeps its own `try` statement,
so which exceptions a stage lets through can be read off its definition. The
root file is the outcome of reading it, bytes or an exception, and the X.509
library is a parameter.

## Main definitions

* `checkRsaPublicExponents`: The bound on RSA exponents.
* `loadCertificateChain`: The certificates of a proof.
* `validateCertificateMessage`: The early check on a captured Certificate.
* `loadRoots`: The trusted roots.
* `checkSuppliedCertificateTimes`, `checkLeafUsage`, `verifyPath`,
  `verifyCertificateSignature`: The later stages.
* `verifyConnectionProof`: All of it.
-/

namespace P2CTools

open Wire Protocol

/-- The pin of the first version of the root bundle. -/
def rootsV1Sha256 : Str :=
  Str.ofString "f66dff1bdf8f96060b8177976f8b7d9254bc89bc4db933d769f7384d28480bc9"

/-- The bound on RSA exponents, in bits. -/
abbrev maxRsaPublicExponentBits : Nat := 64

/-- The context of the signatures that servers make. -/
def tls13ServerCertificateVerifyContext : Bytes :=
  asciiLiteral "TLS 1.3, server CertificateVerify"

/-- What verification reports of a proof that it accepts. -/
structure VerificationResult where
  challenge : Str
  transcriptHash : Str
  connectionWorkHash : Str
  certificateCount : Nat
  certificateVerifyScheme : Nat
  signatureAlgorithmsMask : Int
  deriving DecidableEq

/-- `int.bit_length` of a number that is not negative. -/
def bitLength (n : Nat) : Nat :=
  if n = 0 then 0 else n.log2 + 1

/-- `datetime.fromtimestamp(t, UTC)`, as the timestamp it stands for. A year
    after 9999 is a `ValueError`, and a year that no C integer holds is an
    `OSError`. -/
def fromTimestamp (t : Int) : Except PyErr Int :=
  if -62135596800 ≤ t ∧ t ≤ 253402300799 then .ok t
  else if -67768040609740800 ≤ t ∧ t ≤ 67768036191676799 then
    .error (valueError "year is out of range")
  else .error ⟨.osError, "Value too large for defined data type"⟩

/-- What a CertificateVerify signs. -/
def certificateVerifyMessage (transcriptHash : Bytes) : Bytes :=
  List.replicate 64 0x20 ++ tls13ServerCertificateVerifyContext ++ [0x00] ++ transcriptHash

section Verify

variable {Cert Key : Type} (X : X509 Cert Key)

/-- The exponent of an RSA certificate's key. -/
def rsaExponent (certificate : Cert) : Except PyErr Nat := do
  let publicKey ← X.publicKey certificate
  match X.keyKind publicKey with
  | .rsa exponent _ => .ok exponent
  | _ => .error (valueError "RSA certificate did not contain an RSA public key")

/-- One pass of the loop of `_check_rsa_public_exponents`. -/
def checkRsaPublicExponent (certificate : Cert) : Except PyErr Unit :=
  if X.publicKeyAlgorithmOid certificate ∉ [oidRsaEncryption, oidRsassaPss] then .ok ()
  else do
    let exponent ← handle [.unsupportedAlgorithm, .valueError]
      (fun _ => .error (verificationFailure "invalid or unsupported certificate RSA public key"))
      (rsaExponent X certificate)
    failIf (bitLength exponent > maxRsaPublicExponentBits)
      (verificationFailure "P2C certificate RSA public exponent exceeds 64 bits")

/-- The bound on the exponents of all certificates, in order. -/
def checkRsaPublicExponents (certificates : List Cert) : Except PyErr Unit :=
  certificates.forM (checkRsaPublicExponent X)

/-- The loop of `_load_certificate_chain`, from a position on. -/
def loadCertificatesFrom (position : Nat) : List Bytes → Except PyErr (List Cert)
  | [] => .ok []
  | encoded :: rest => do
      let certificate ← handle [.valueError]
        (fun _ => .error (verificationFailure
          ("certificate " ++ toString position ++ " is not a valid DER X.509 certificate")))
        (X.loadDer encoded)
      let certificates ← loadCertificatesFrom (position + 1) rest
      return certificate :: certificates

/-- The certificates of a chain, each of them loaded and bounded. -/
def loadCertificateChain (encodedChain : List Bytes) : Except PyErr (List Cert) := do
  let certificates ← loadCertificatesFrom X 0 encodedChain
  checkRsaPublicExponents X certificates
  return certificates

/-- The certificates of a proof. -/
def loadCertificates (parsed : ParsedProof) : Except PyErr (List Cert) :=
  loadCertificateChain X parsed.certificateChain

/-- The early check on a captured Certificate message. -/
def validateCertificateMessage (message : Bytes) : Except PyErr Unit := do
  let encodedChain ← parseCertificateMessage message
  let _ ← loadCertificateChain X encodedChain

/-- The roots of the file, which has to be the pinned one where that is
    enforced. -/
def loadRoots (rootFile : Except PyErr Bytes) (version : Int) (enforceRootPin : Bool) :
    Except PyErr (List Cert) := do
  let encoded ← handle [.osError]
    (fun e => .error (verificationFailure ("cannot read trusted root bundle: " ++ e.msg))) rootFile
  failIf (version ≠ 1)
    (verificationFailure ("unsupported root_certificates_version " ++ toString version))
  failIf (enforceRootPin = true ∧ toHex (sha256 encoded) ≠ rootsV1Sha256)
    (verificationFailure "root bundle version 1 does not match its consensus SHA-256 pin")
  let roots ← handle [.valueError]
    (fun _ => .error (verificationFailure "trusted root bundle is not valid PEM"))
    (X.loadPem encoded)
  failIf (roots.isEmpty = true)
    (verificationFailure "trusted root bundle contains no certificates")
  checkRsaPublicExponents X roots
  return roots

/-- The roots can be loaded. This is asked before a search. -/
def validateRootBundle (rootFile : Except PyErr Bytes) (rootCertificatesVersion : Int)
    (enforceRootPin : Bool) : Except PyErr Unit := do
  let _ ← loadRoots X rootFile rootCertificatesVersion enforceRootPin

/-- The loop of `_check_supplied_certificate_times`, from a position on. -/
def checkTimesFrom (moment : Int) (position : Nat) : List Cert → Except PyErr Unit
  | [] => .ok ()
  | certificate :: rest => do
      failIf (moment < X.notValidBefore certificate ∨ moment > X.notValidAfter certificate)
        (verificationFailure ("certificate " ++ toString position ++
          " is not valid at the requested block median time"))
      checkTimesFrom moment (position + 1) rest

/-- All certificates of the proof are valid at the time. -/
def checkSuppliedCertificateTimes (certificates : List Cert) (validationTime : Int) :
    Except PyErr Unit := do
  let moment ← handle [.osError, .overflowError, .valueError]
    (fun _ => .error (verificationFailure "validation_time cannot be represented"))
    (fromTimestamp validationTime)
  checkTimesFrom X moment 0 certificates

/-- Read one of the leaf's extensions, where it is present. -/
def leafExtension {α : Type} (leaf : Cert) (get : CertificateExtensions → Except PyErr α) :
    Except PyErr (Option α) :=
  handle [.extensionNotFound] (fun _ => .ok none) do
    let extensions ← X.extensions leaf
    let value ← get extensions
    return some value

/-- The leaf may sign and stand for a server, as far as its extensions say. -/
def checkLeafUsage (leaf : Cert) : Except PyErr Unit := do
  let keyUsage ← leafExtension X leaf CertificateExtensions.getKeyUsage
  failIf (keyUsage = some false)
    (verificationFailure "leaf certificate does not permit digital signatures")
  let extendedUsage ← leafExtension X leaf CertificateExtensions.getExtendedKeyUsage
  failIf (∃ usages ∈ extendedUsage, oidServerAuth ∉ usages ∧ oidAnyExtendedKeyUsage ∉ usages)
    (verificationFailure "leaf certificate is not valid for TLS server authentication")

/-- The path from the leaf to a root, and the domain. -/
def verifyPath (leaf : Cert) (intermediates roots : List Cert) (domain : Str)
    (validationTime : Int) : Except PyErr Unit :=
  handle [.osError, .overflowError, .valueError, .verificationError]
    (fun e => .error (verificationFailure
      ("certificate path or domain validation failed: " ++ e.msg))) do
    let moment ← fromTimestamp validationTime
    X.verifyPath roots moment (maxCertificates - 1) domain leaf intermediates

/-- The signature check with an ECDSA scheme. -/
def verifyEcdsaSignature (publicKey : Key) (signature message : Bytes) : Except PyErr Unit := do
  failIf (¬(X.keyKind publicKey).isP256)
    (verificationFailure "CertificateVerify ECDSA scheme does not match a P-256 leaf key")
  X.verifyEcdsa publicKey signature message

/-- The signature check with one of the RSA-PSS schemes. -/
def verifyPssSignature (leaf : Cert) (publicKey : Key) (scheme : Nat)
    (signature message : Bytes) : Except PyErr Unit := do
  failIf (¬(X.keyKind publicKey).isRsa2048)
    (verificationFailure
      "CertificateVerify RSA-PSS scheme requires an RSA key of at least 2048 bits")
  let expectedOid := if scheme = rsaPssRsaeSha256 then oidRsaEncryption else oidRsassaPss
  failIf (X.publicKeyAlgorithmOid leaf ≠ expectedOid)
    (verificationFailure "CertificateVerify RSA-PSS scheme does not match the leaf key encoding")
  X.verifyPss publicKey signature message

/-- The restrictions of a PSS key, where the scheme and the key are PSS. -/
def checkLeafKeyRestrictions (leaf : Cert) (scheme : Nat) : Except PyErr Unit :=
  if scheme = rsaPssPssSha256 ∧ X.publicKeyAlgorithmOid leaf = oidRsassaPss then
    Der.checkPssKeyRestrictions (X.tbsCertificateBytes leaf)
  else .ok ()

/-- The branches on the scheme. -/
def verifyWithScheme (leaf : Cert) (publicKey : Key) (scheme : Nat)
    (signature message : Bytes) : Except PyErr Unit :=
  if scheme = ecdsaSecp256r1Sha256 then verifyEcdsaSignature X publicKey signature message
  else if scheme ∈ [rsaPssRsaeSha256, rsaPssPssSha256] then
    verifyPssSignature X leaf publicKey scheme signature message
  else .error (verificationFailure "unsupported CertificateVerify signature scheme")

/-- The body of the `try` statement of `_verify_certificate_signature`. -/
def certificateSignature (leaf : Cert) (parsed : ParsedProof) : Except PyErr Unit := do
  checkLeafKeyRestrictions X leaf parsed.certificateVerifyScheme
  let publicKey ← X.publicKey leaf
  verifyWithScheme X leaf publicKey parsed.certificateVerifyScheme
    parsed.certificateVerifySignature (certificateVerifyMessage parsed.transcriptHash)

/-- The CertificateVerify is signed by the leaf's key. -/
def verifyCertificateSignature (leaf : Cert) (parsed : ParsedProof) : Except PyErr Unit := do
  checkRsaPublicExponents X [leaf]
  handleFirst
    [([.invalidSignature], fun _ =>
        .error (verificationFailure "invalid TLS 1.3 CertificateVerify signature")),
      ([.proofVerificationError], fun e => .error e),
      ([.unsupportedAlgorithm, .valueError], fun _ =>
        .error (verificationFailure "invalid or unsupported leaf public key"))]
    (certificateSignature X leaf parsed)

/-- `certificates[0]` and `certificates[1:]`. -/
def splitLeaf {α : Type} : List α → Except PyErr (α × List α)
  | [] => .error ⟨.indexError, "list index out of range"⟩
  | leaf :: rest => .ok (leaf, rest)

/-- All checks on an envelope. -/
def verifyConnectionProof (L : Lowercase) (rootFile : Except PyErr Bytes) (enforceRootPin : Bool)
    (envelope : ConnectionProof) : Except PyErr VerificationResult := do
  let challenge ← envelope.challenge L
  let parsed ← parseProof envelope.proof envelope.domain challenge
  let allowed ← signatureSchemeAllowed envelope.signatureAlgorithmsMask
    parsed.certificateVerifyScheme
  failIf (¬allowed)
    (verificationFailure ("CertificateVerify signature scheme is not allowed by the output " ++
      "signature_algorithms_mask"))
  let meets ← meetsWorkTarget L parsed.connectionWorkHash envelope.connectionWorkTarget
  failIf (¬meets) (verificationFailure "connection work hash exceeds the output target")
  let certificates ← loadCertificates X parsed
  let roots ← loadRoots X rootFile envelope.rootCertificatesVersion enforceRootPin
  checkSuppliedCertificateTimes X certificates envelope.validationTime
  let (leaf, intermediates) ← splitLeaf certificates
  checkLeafUsage X leaf
  verifyPath X leaf intermediates roots envelope.domain envelope.validationTime
  verifyCertificateSignature X leaf parsed
  let workHash ← internalHashToDisplay parsed.connectionWorkHash
  return {
    challenge := toHex challenge
    transcriptHash := toHex parsed.transcriptHash
    connectionWorkHash := workHash
    certificateCount := parsed.certificateChain.length
    certificateVerifyScheme := parsed.certificateVerifyScheme
    signatureAlgorithmsMask := envelope.signatureAlgorithmsMask }

end Verify

end P2CTools
