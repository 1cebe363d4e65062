import P2CTools.Source.Errors
import P2CTools.Source.Text

/-!
# The Certificate Library

What the program calls of the X.509 library, as a parameter.

The library parses lazily: loading a certificate checks its outer structure
and its version, while the key and the extensions are read when they are asked
for, each with exceptions of its own. `X509` has one function for each call
the program makes. `X509.Documented` is what the library's documentation says
about the exceptions these calls raise; nothing is assumed of their results.

Two of the classes are the reason for keeping them apart: `InvalidVersion`,
which loading may raise, and `DuplicateExtension` with
`UnsupportedGeneralNameType`, which reading the extensions may raise, derive
from `Exception` and not from `ValueError`.

## Main definitions

* `KeyKind`: What the program asks about a public key.
* `CertificateExtensions`: The two extensions the program reads.
* `X509`: The calls.
* `X509.Documented`: The exceptions they raise.
-/

namespace P2CTools

open Wire

/-- An object identifier, as its arcs. -/
abbrev Oid := List Nat

/-- The object identifier of RSA keys. -/
def oidRsaEncryption : Oid := [1, 2, 840, 113549, 1, 1, 1]

/-- The object identifier of RSA-PSS keys. -/
def oidRsassaPss : Oid := [1, 2, 840, 113549, 1, 1, 10]

/-- The object identifier of TLS servers as an extended key usage. -/
def oidServerAuth : Oid := [1, 3, 6, 1, 5, 5, 7, 3, 1]

/-- The object identifier of any extended key usage. -/
def oidAnyExtendedKeyUsage : Oid := [2, 5, 29, 37, 0]

/-- What `isinstance` and the attributes say about a public key. -/
inductive KeyKind
  | rsa (exponent keySize : Nat)
  | ellipticCurve (isSecp256r1 : Bool)
  | other

/-- The key is an elliptic-curve key on P-256. -/
def KeyKind.isP256 : KeyKind → Bool
  | .ellipticCurve isSecp256r1 => isSecp256r1
  | _ => false

/-- The key is an RSA key of at least 2048 bits. -/
def KeyKind.isRsa2048 : KeyKind → Bool
  | .rsa _ keySize => decide (2048 ≤ keySize)
  | _ => false

/-- The parsed extensions of a certificate, as far as the program reads them:
    the `digital_signature` bit of KeyUsage and the usages of
    ExtendedKeyUsage, where these are present. -/
structure CertificateExtensions where
  keyUsage : Option Bool
  extendedKeyUsage : Option (List Oid)

/-- `extensions.get_extension_for_class(KeyUsage).value.digital_signature`. -/
def CertificateExtensions.getKeyUsage (x : CertificateExtensions) : Except PyErr Bool :=
  match x.keyUsage with
  | some digitalSignature => .ok digitalSignature
  | none => .error ⟨.extensionNotFound, "No KeyUsage extension was found"⟩

/-- `extensions.get_extension_for_class(ExtendedKeyUsage).value`. -/
def CertificateExtensions.getExtendedKeyUsage (x : CertificateExtensions) :
    Except PyErr (List Oid) :=
  match x.extendedKeyUsage with
  | some usages => .ok usages
  | none => .error ⟨.extensionNotFound, "No ExtendedKeyUsage extension was found"⟩

/-- The calls of the library, over its own certificates and keys. -/
structure X509 (Cert Key : Type) where
  loadDer : Bytes → Except PyErr Cert
  loadPem : Bytes → Except PyErr (List Cert)
  publicKeyAlgorithmOid : Cert → Oid
  publicKey : Cert → Except PyErr Key
  keyKind : Key → KeyKind
  extensions : Cert → Except PyErr CertificateExtensions
  notValidBefore : Cert → Int
  notValidAfter : Cert → Int
  tbsCertificateBytes : Cert → Bytes
  /-- The path check: roots, time, depth, domain, leaf and intermediates. -/
  verifyPath : List Cert → Int → Nat → Str → Cert → List Cert → Except PyErr Unit
  /-- ECDSA with SHA-256: key, signature, message. -/
  verifyEcdsa : Key → Bytes → Bytes → Except PyErr Unit
  /-- RSA-PSS with SHA-256, MGF1-SHA-256 and 32 bytes of salt. -/
  verifyPss : Key → Bytes → Bytes → Except PyErr Unit

/-- Loading a certificate raises a `ValueError` or an `InvalidVersion`. -/
def IsLoadError (e : PyErr) : Prop :=
  e.isA .valueError = true ∨ e.cls = .invalidVersion

/-- Reading the extensions raises a `ValueError` or one of the library's two
    classes for malformed extensions. -/
def IsExtensionsError (e : PyErr) : Prop :=
  e.cls = .valueError ∨ e.cls = .duplicateExtension ∨ e.cls = .unsupportedGeneralNameType

/-- The exceptions that the library's calls raise. -/
structure X509.Documented {Cert Key : Type} (X : X509 Cert Key) : Prop where
  loadDer : ∀ encoded, Fails IsLoadError (X.loadDer encoded)
  loadPem : ∀ encoded, Fails IsLoadError (X.loadPem encoded)
  publicKey : ∀ certificate,
    Fails (fun e => e.isA .valueError = true ∨ e.cls = .unsupportedAlgorithm)
      (X.publicKey certificate)
  extensions : ∀ certificate, Fails IsExtensionsError (X.extensions certificate)
  verifyPath : ∀ roots moment depth domain leaf intermediates,
    Fails (fun e => e.isA .valueError = true ∨ e.cls = .verificationError)
      (X.verifyPath roots moment depth domain leaf intermediates)
  verifyEcdsa : ∀ key signature message,
    Fails (fun e => e.cls = .invalidSignature ∨ e.isA .valueError = true ∨
      e.cls = .unsupportedAlgorithm) (X.verifyEcdsa key signature message)
  verifyPss : ∀ key signature message,
    Fails (fun e => e.cls = .invalidSignature ∨ e.isA .valueError = true ∨
      e.cls = .unsupportedAlgorithm) (X.verifyPss key signature message)

end P2CTools
