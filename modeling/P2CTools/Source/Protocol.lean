import P2CTools.Source.Domain
import P2CTools.Source.Hashes
import P2CTools.Wire.Cursor

/-!
# The Structural Parser

The parser of a proof, from `protocol.py`: a version byte and five TLS
handshake messages, each read by its own function.

A `_Reader` is a cursor over bytes, and its methods are cursor programs, so a
failed read leaves the position where it was. Every function that makes a
fresh reader in the source runs a program on a fresh cursor here. The three
`while not reader.empty` loops are one combinator with three bodies; its bound
is one more than the number of bytes, and reaching it is the outcome `stuck`,
which is not an exception of the program. An index out of range, a missing
dictionary key and an encoding error are outcomes too, each with its own
class, and so is the `ValueError` of the work hash: whether they can happen is
proved, not assumed.

A dictionary is the list of its entries in the order they were added.

## Main definitions

* `Reader`: `_Reader`, with `read`, `u8`, `u16` and `u24`.
* `readHandshake`: One message of an expected type and bounded size.
* `extensions`: An extension block as a dictionary.
* `parseClientHello`, `parseServerHello`, `parseEncryptedExtensions`,
  `parseCertificate`, `parseCertificateVerify`: The message bodies.
* `parseProof`: The whole proof.
-/

namespace P2CTools

open Wire

/-- `data[start:stop]` for positions that are not negative. -/
def slice (data : Bytes) (start stop : Nat) : Bytes :=
  (data.drop start).take (stop - start)

/-- `data[index]` for an index that is not negative. -/
def getIndex (data : Bytes) (index : Nat) : Except PyErr UInt8 :=
  match data[index]? with
  | some x => .ok x
  | none => .error ⟨.indexError, "index out of range"⟩

theorem getIndex_eq_ok_iff (data : Bytes) (index : Nat) (x : UInt8) :
    getIndex data index = .ok x ↔ data[index]? = some x := by
  unfold getIndex
  cases data[index]? with
  | none => simp only [reduceCtorEq]
  | some y => simp only [Except.ok.injEq, Option.some.injEq]

/-- A dictionary from extension types to extension bodies. -/
abbrev ExtensionMap := List (Nat × Bytes)

/-- `key in d`. -/
def ExtensionMap.has (d : ExtensionMap) (key : Nat) : Bool :=
  d.any fun entry => entry.1 == key

/-- `d[key]`. -/
def ExtensionMap.getItem (d : ExtensionMap) (key : Nat) : Except PyErr Bytes :=
  match d.find? fun entry => entry.1 == key with
  | some entry => .ok entry.2
  | none => .error ⟨.keyError, toString key⟩

/-- `d[key] = value`. -/
def ExtensionMap.setItem (d : ExtensionMap) (key : Nat) (value : Bytes) : ExtensionMap :=
  if d.has key then d.map fun entry => if entry.1 == key then (key, value) else entry
  else d ++ [(key, value)]

/-- `set(d) == {..}` for a set given by its members. -/
def ExtensionMap.keysAre (d : ExtensionMap) (keys : List Nat) : Bool :=
  d.all (fun entry => keys.contains entry.1) && keys.all d.has

/-- `_Reader`. -/
abbrev Reader := Cursor UInt8

/-- A program that uses one reader. -/
abbrev ReaderM := CursorM UInt8 PyErr

namespace Reader

/-- How many bytes a reader has left. -/
def remaining (r : Reader) : Int :=
  r.data.length - r.position

/-- The reader's `remaining` as a step of a program. -/
def getRemaining : ReaderM Int :=
  fun r => (.ok (remaining r), r)

/-- Take so many bytes, and stay where one is if there are fewer. -/
def read (size : Nat) (what : String) : ReaderM Bytes := fun r =>
  if remaining r < size then (.error (formatError ("truncated " ++ what)), r)
  else (.ok (slice r.data r.position (r.position + size)), ⟨r.data, r.position + size⟩)

/-- Read a number of one byte. -/
def u8 (what : String) : ReaderM Nat := do
  let data ← read 1 what
  let value ← call (getIndex data 0)
  return value.toNat

/-- Read a number of two bytes. -/
def u16 (what : String) : ReaderM Nat := do
  let data ← read 2 what
  return beNat data

/-- Read a number of three bytes. -/
def u24 (what : String) : ReaderM Nat := do
  let data ← read 3 what
  return beNat data

/-- `while not reader.empty` over all of some bytes. -/
def readAll {σ : Type} (data : Bytes) (body : σ → ReaderM σ) (init : σ) : Except PyErr σ :=
  runCursor data (whileNotEmpty stuck body (data.length + 1) init)

end Reader

namespace Protocol

open Reader

/-- The version byte of a proof. -/
abbrev proofVersion : Nat := 2
/-- The largest size of a proof. -/
abbrev maxProofSize : Nat := 64 * 1024
/-- The largest size of a Certificate message. -/
abbrev maxCertificateMessageSize : Nat := 48 * 1024
/-- The largest number of certificates in one. -/
abbrev maxCertificates : Nat := 8
/-- The largest size of one certificate. -/
abbrev maxCertificateSize : Nat := 16 * 1024

/-- The handshake type of a ClientHello. -/
abbrev clientHello : Nat := 1
/-- The handshake type of a ServerHello. -/
abbrev serverHello : Nat := 2
/-- The handshake type of EncryptedExtensions. -/
abbrev encryptedExtensions : Nat := 8
/-- The handshake type of a Certificate. -/
abbrev certificate : Nat := 11
/-- The handshake type of a CertificateVerify. -/
abbrev certificateVerify : Nat := 15

/-- The extension type of `server_name`. -/
abbrev extServerName : Nat := 0
/-- The extension type of `signature_algorithms`. -/
abbrev extSignatureAlgorithms : Nat := 13
/-- The extension type of `compress_certificate`. -/
abbrev extCompressCertificate : Nat := 27
/-- The extension type of `pre_shared_key`. -/
abbrev extPreSharedKey : Nat := 41
/-- The extension type of `early_data`. -/
abbrev extEarlyData : Nat := 42
/-- The extension type of `supported_versions`. -/
abbrev extSupportedVersions : Nat := 43
/-- The extension type of `cookie`. -/
abbrev extCookie : Nat := 44
/-- The extension type of `psk_key_exchange_modes`. -/
abbrev extPskKeyExchangeModes : Nat := 45
/-- The extension type of `key_share`. -/
abbrev extKeyShare : Nat := 51
/-- The extension type of `encrypted_client_hello`. -/
abbrev extEncryptedClientHello : Nat := 0xFE0D

/-- The version number of TLS 1.2. -/
abbrev tls12 : Nat := 0x0303
/-- The version number of TLS 1.3. -/
abbrev tls13 : Nat := 0x0304
/-- A cipher suite, by its number. -/
abbrev tlsAes128GcmSha256 : Nat := 0x1301
/-- The other cipher suite, by its number. -/
abbrev tlsChacha20Poly1305Sha256 : Nat := 0x1303
/-- The signature scheme of ECDSA keys, by its number. -/
abbrev ecdsaSecp256r1Sha256 : Nat := 0x0403
/-- The signature scheme of RSA keys, by its number. -/
abbrev rsaPssRsaeSha256 : Nat := 0x0804
/-- The signature scheme of RSA-PSS keys, by its number. -/
abbrev rsaPssPssSha256 : Nat := 0x0809
/-- The group P-256, by its number. -/
abbrev groupSecp256r1 : Nat := 0x0017
/-- The group X25519, by its number. -/
abbrev groupX25519 : Nat := 0x001D

/-- The random by which a ServerHello is a HelloRetryRequest. -/
def helloRetryRequestRandom : Bytes :=
  be 32 0xcf21ad74e59a6111be1d8c021e65b891c2a211167abb8c5e079e09e2c8a8339c

/-- What an accepted proof holds. -/
structure ParsedProof where
  clientHello : Bytes
  serverHello : Bytes
  encryptedExtensions : Bytes
  certificate : Bytes
  certificateVerify : Bytes
  certificateChain : List Bytes
  certificateVerifyScheme : Nat
  certificateVerifySignature : Bytes
  transcriptHash : Bytes
  connectionWorkHash : Bytes
  deriving DecidableEq

/-- The five messages of a proof in order. -/
def ParsedProof.messages (p : ParsedProof) : List Bytes :=
  [p.clientHello, p.serverHello, p.encryptedExtensions, p.certificate, p.certificateVerify]

/-- What the later messages are checked against. -/
structure ClientState where
  cipherSuites : List Nat
  signatureAlgorithms : List Nat
  keyShareGroups : List Nat
  legacySessionId : Bytes
  deriving DecidableEq

/-- What `_read_handshake` returns: a message with its header, and its body. -/
structure Handshake where
  full : Bytes
  body : Bytes

/-- Read a handshake message of a type and of at most some size. -/
def readHandshake (expectedType maximumSize : Nat) (name : String) : ReaderM Handshake := do
  let start ← getCursor
  let messageType ← u8 "TLS handshake header"
  let size ← u24 "TLS handshake header"
  raiseIf (messageType ≠ expectedType)
    (formatError ("expected " ++ name ++ " as the next TLS handshake message"))
  raiseIf (size + 4 > maximumSize) (formatError (name ++ " exceeds the P2C size limit"))
  let body ← read size name
  let reader ← getCursor
  return ⟨slice reader.data start.position reader.position, body⟩

/-- One pass of the loop of `_extensions`. -/
def extensionStep (result : ExtensionMap) : ReaderM ExtensionMap := do
  let extensionType ← u16 "TLS extension type"
  let extensionSize ← u16 "TLS extension length"
  let extension ← read extensionSize "TLS extension"
  raiseIf (result.has extensionType = true) (formatError "duplicate TLS extension")
  return result.setItem extensionType extension

/-- Read a block of extensions to the end of the message. -/
def extensions : ReaderM ExtensionMap := do
  let totalSize ← u16 "TLS extensions length"
  let left ← getRemaining
  raiseIf (left ≠ totalSize) (formatError "invalid TLS extensions length")
  let encoded ← read totalSize "TLS extensions"
  call (readAll encoded extensionStep [])

/-- `server_name` holds one host name, which is the domain. -/
def parseSni (encoded : Bytes) (expectedDomain : Str) : Except PyErr Unit :=
  runCursor encoded do
    let listSize ← u16 "server_name list length"
    let left ← getRemaining
    raiseIf ((listSize : Int) ≠ left) (formatError "invalid server_name list length")
    let nameType ← u8 "server_name type"
    let nameSize ← u16 "server_name length"
    let name ← read nameSize "server_name"
    let empty ← isEmpty
    raiseIf (nameType ≠ 0 ∨ ¬empty)
      (formatError "ClientHello must contain exactly one DNS server_name")
    let expected ← call (encodeAscii expectedDomain)
    raiseIf (name ≠ expected) (formatError "ClientHello server_name does not match the P2C domain")

/-- Whether a key share has the form of its group. Other groups are never
    valid. -/
def validKeyShare (group : Nat) (exchange : Bytes) : Except PyErr Bool := do
  if group = groupX25519 then return decide (exchange.length = 32)
  else if group = groupSecp256r1 ∧ exchange.length = 65 then
    let first ← getIndex exchange 0
    return decide (first.toNat = 4)
  else return false

/-- The part of `_parse_client_hello` that reads `supported_versions`. -/
def readSupportedVersions (encoded : Bytes) : Except PyErr Unit :=
  runCursor encoded do
    let versionsSize ← u8 "supported_versions length"
    raiseIf (versionsSize < 2 ∨ versionsSize % 2 ≠ 0)
      (formatError "invalid supported_versions extension")
    let versions ← read versionsSize "supported_versions"
    let empty ← isEmpty
    raiseIf (¬empty) (formatError "trailing bytes in supported_versions")
    raiseIf (tls13 ∉ words versions) (formatError "ClientHello does not offer TLS 1.3")

/-- The part of `_parse_client_hello` that reads `signature_algorithms`. -/
def readSignatureAlgorithms (encoded : Bytes) : Except PyErr (List Nat) :=
  runCursor encoded do
    let signaturesSize ← u16 "signature_algorithms length"
    raiseIf (signaturesSize < 2 ∨ signaturesSize % 2 ≠ 0)
      (formatError "invalid signature_algorithms extension")
    let signatures ← read signaturesSize "signature_algorithms"
    let empty ← isEmpty
    raiseIf (¬empty) (formatError "trailing bytes in signature_algorithms")
    return words signatures

/-- One pass of the key share loop of `_parse_client_hello`. -/
def keyShareStep (groups : List Nat) : ReaderM (List Nat) := do
  let group ← u16 "ClientHello key share group"
  let exchangeSize ← u16 "ClientHello key share length"
  raiseIf (exchangeSize = 0) (formatError "ClientHello key share is empty")
  let exchange ← read exchangeSize "ClientHello key share"
  let valid ← call (validKeyShare group exchange)
  raiseIf (¬valid ∨ group ∈ groups) (formatError "invalid or duplicate ClientHello key share")
  return groups ++ [group]

/-- The part of `_parse_client_hello` that reads `key_share`. -/
def readKeyShares (encoded : Bytes) : Except PyErr (List Nat) :=
  runCursor encoded do
    let sharesSize ← u16 "ClientHello key_share length"
    raiseIf (sharesSize = 0) (formatError "ClientHello key_share list is empty")
    let encodedShares ← read sharesSize "ClientHello key shares"
    let empty ← isEmpty
    raiseIf (¬empty) (formatError "trailing bytes in ClientHello key_share")
    call (readAll encodedShares keyShareStep [])

/-- The extensions a ClientHello must contain. -/
def requiredExtensions : List Nat :=
  [extServerName, extSupportedVersions, extSignatureAlgorithms, extKeyShare]

/-- The extensions a ClientHello must not contain. -/
def forbiddenExtensions : List Nat :=
  [extCompressCertificate, extPreSharedKey, extEarlyData, extCookie, extPskKeyExchangeModes,
    extEncryptedClientHello]

/-- A ClientHello for the domain and the challenge. -/
def parseClientHello (body : Bytes) (domain : Str) (challenge : Bytes) :
    Except PyErr ClientState :=
  runCursor body do
    let version ← u16 "ClientHello legacy version"
    raiseIf (version ≠ tls12) (formatError "ClientHello legacy version must be TLS 1.2")
    let random ← read 32 "ClientHello.random"
    raiseIf (random ≠ challenge)
      (formatError "ClientHello.random does not match the P2C claim challenge")
    let sessionSize ← u8 "ClientHello session id length"
    raiseIf (sessionSize > 32) (formatError "ClientHello session id exceeds 32 bytes")
    let sessionId ← read sessionSize "ClientHello session id"
    let cipherSize ← u16 "ClientHello cipher suites length"
    raiseIf (cipherSize < 2 ∨ cipherSize % 2 ≠ 0)
      (formatError "invalid ClientHello cipher suites length")
    let encodedCiphers ← read cipherSize "ClientHello cipher suites"
    let compressionSize ← u8 "ClientHello compression methods length"
    let compression ← read compressionSize "ClientHello compression methods"
    raiseIf (compressionSize ≠ 1 ∨ compression ≠ [0])
      (formatError "ClientHello must offer only null compression")
    let exts ← extensions
    let empty ← isEmpty
    raiseIf (¬empty) (formatError "trailing bytes in ClientHello")
    raiseIf (¬requiredExtensions.all exts.has)
      (formatError "ClientHello is missing a required TLS 1.3 extension")
    let serverName ← call (exts.getItem extServerName)
    call (parseSni serverName domain)
    raiseIf (forbiddenExtensions.any exts.has)
      (formatError "ClientHello contains an extension forbidden by P2C v2")
    let supportedVersions ← call (exts.getItem extSupportedVersions)
    call (readSupportedVersions supportedVersions)
    let encodedSignatures ← call (exts.getItem extSignatureAlgorithms)
    let signatureAlgorithms ← call (readSignatureAlgorithms encodedSignatures)
    let encodedKeyShare ← call (exts.getItem extKeyShare)
    let groups ← call (readKeyShares encodedKeyShare)
    return ⟨words encodedCiphers, signatureAlgorithms, groups, sessionId⟩

/-- The part of `_parse_server_hello` that reads `key_share`. -/
def readServerKeyShare (encoded : Bytes) (client : ClientState) : Except PyErr Unit :=
  runCursor encoded do
    let group ← u16 "ServerHello key share group"
    let exchangeSize ← u16 "ServerHello key share length"
    raiseIf (exchangeSize = 0) (formatError "ServerHello key share is empty")
    let exchange ← read exchangeSize "ServerHello key share"
    let empty ← isEmpty
    -- `or` stops at the first true operand, so the share is looked at only here.
    let valid ← call (if empty then validKeyShare group exchange else .ok false)
    raiseIf (¬empty ∨ ¬valid ∨ group ∉ client.keyShareGroups)
      (formatError "invalid or unoffered ServerHello key share")

/-- A ServerHello that selects from what was offered. -/
def parseServerHello (body : Bytes) (client : ClientState) : Except PyErr Unit :=
  runCursor body do
    let version ← u16 "ServerHello legacy version"
    raiseIf (version ≠ tls12) (formatError "ServerHello legacy version must be TLS 1.2")
    let random ← read 32 "ServerHello.random"
    raiseIf (random = helloRetryRequestRandom)
      (formatError "HelloRetryRequest is forbidden in P2C v2")
    let sessionSize ← u8 "ServerHello session id length"
    raiseIf (sessionSize > 32) (formatError "ServerHello session id exceeds 32 bytes")
    let sessionId ← read sessionSize "ServerHello session id"
    raiseIf (sessionId ≠ client.legacySessionId)
      (formatError "ServerHello session id does not match ClientHello")
    let cipherSuite ← u16 "ServerHello cipher suite"
    raiseIf (cipherSuite ∉ [tlsAes128GcmSha256, tlsChacha20Poly1305Sha256])
      (formatError "P2C v2 requires a SHA-256 TLS 1.3 cipher suite")
    raiseIf (cipherSuite ∉ client.cipherSuites)
      (formatError "ServerHello selected an unoffered cipher suite")
    let compression ← u8 "ServerHello compression method"
    raiseIf (compression ≠ 0) (formatError "ServerHello compression method must be null")
    let exts ← extensions
    let empty ← isEmpty
    raiseIf (¬empty) (formatError "trailing bytes in ServerHello")
    raiseIf (¬exts.keysAre [extSupportedVersions, extKeyShare])
      (formatError "ServerHello must contain only supported_versions and key_share")
    let selected ← call (exts.getItem extSupportedVersions)
    raiseIf (selected ≠ be 2 tls13) (formatError "ServerHello did not select TLS 1.3")
    let encodedKeyShare ← call (exts.getItem extKeyShare)
    call (readServerKeyShare encodedKeyShare client)

/-- EncryptedExtensions without `early_data`. -/
def parseEncryptedExtensions (body : Bytes) : Except PyErr Unit :=
  runCursor body do
    let exts ← extensions
    let empty ← isEmpty
    raiseIf (¬empty) (formatError "trailing bytes in EncryptedExtensions")
    raiseIf (exts.has extEarlyData = true) (formatError "TLS early_data is forbidden in P2C v2")

/-- One pass of the loop of `_parse_certificate`. -/
def certificateStep (result : List Bytes) : ReaderM (List Bytes) := do
  let certificateSize ← u24 "certificate length"
  raiseIf (¬ (1 ≤ certificateSize ∧ certificateSize ≤ maxCertificateSize))
    (formatError "certificate entry exceeds the P2C size limit")
  let certificate ← read certificateSize "certificate"
  let extensionSize ← u16 "certificate extensions length"
  let _ ← read extensionSize "certificate extensions"
  raiseIf ((result ++ [certificate]).length > maxCertificates)
    (formatError "P2C proof contains too many certificates")
  return result ++ [certificate]

/-- The certificates of a Certificate message, its body. -/
def parseCertificate (body : Bytes) : Except PyErr (List Bytes) :=
  runCursor body do
    let contextSize ← u8 "Certificate request context length"
    let context ← read contextSize "Certificate request context"
    raiseIf (context ≠ []) (formatError "P2C Certificate request context must be empty")
    let listSize ← u24 "Certificate list length"
    let left ← getRemaining
    raiseIf (listSize = 0 ∨ (listSize : Int) ≠ left)
      (formatError "invalid P2C Certificate list length")
    let certificates ← read listSize "Certificate list"
    call (readAll certificates certificateStep [])

/-- The certificates of a whole Certificate message. -/
def parseCertificateMessage (message : Bytes) : Except PyErr (List Bytes) := do
  let body ← runCursor message do
    let handshake ← readHandshake certificate maxCertificateMessageSize "Certificate"
    let empty ← isEmpty
    raiseIf (¬empty) (formatError "trailing bytes after P2C Certificate")
    return handshake.body
  parseCertificate body

/-- The scheme, which was offered, and the signature. -/
def parseCertificateVerify (body : Bytes) (client : ClientState) : Except PyErr (Nat × Bytes) :=
  runCursor body do
    let scheme ← u16 "CertificateVerify signature scheme"
    let signatureSize ← u16 "CertificateVerify signature length"
    raiseIf (signatureSize = 0) (formatError "CertificateVerify signature is empty")
    let signature ← read signatureSize "CertificateVerify signature"
    let empty ← isEmpty
    raiseIf (¬empty) (formatError "trailing bytes in CertificateVerify")
    raiseIf (scheme ∉ [ecdsaSecp256r1Sha256, rsaPssRsaeSha256, rsaPssPssSha256])
      (formatError "unsupported P2C CertificateVerify signature scheme")
    raiseIf (scheme ∉ client.signatureAlgorithms)
      (formatError "CertificateVerify used an unoffered signature scheme")
    return (scheme, signature)

/-- The five messages of a proof. -/
structure Messages where
  client : Handshake
  server : Handshake
  encrypted : Handshake
  certificate : Handshake
  verify : Handshake

/-- The part of `parse_proof` that uses its reader. -/
def readMessages : ReaderM Messages := do
  let version ← u8 "P2C proof version"
  raiseIf (version ≠ proofVersion) (formatError "unsupported P2C proof version")
  let client ← readHandshake clientHello 4096 "ClientHello"
  let server ← readHandshake serverHello 2048 "ServerHello"
  let encrypted ← readHandshake encryptedExtensions 4096 "EncryptedExtensions"
  let certificate ← readHandshake certificate maxCertificateMessageSize "Certificate"
  let verify ← readHandshake certificateVerify 8192 "CertificateVerify"
  let empty ← isEmpty
  raiseIf (¬empty) (formatError "trailing bytes after P2C CertificateVerify")
  return ⟨client, server, encrypted, certificate, verify⟩

/-- A proof for the domain and the challenge, message by message. -/
def parseProof (encoded : Bytes) (expectedDomain : Str) (expectedChallenge : Bytes) :
    Except PyErr ParsedProof := do
  failIf (¬isCanonicalDomain expectedDomain)
    (formatError "expected domain is not canonical lower-case ASCII DNS form")
  failIf (expectedChallenge.length ≠ 32)
    (formatError "expected challenge must contain exactly 32 bytes")
  failIf (encoded = [] ∨ encoded.length > maxProofSize) (formatError "invalid P2C proof size")
  let m ← runCursor encoded readMessages
  let client ← parseClientHello m.client.body expectedDomain expectedChallenge
  parseServerHello m.server.body client
  parseEncryptedExtensions m.encrypted.body
  let certificateChain ← parseCertificate m.certificate.body
  let (scheme, signature) ← parseCertificateVerify m.verify.body client
  let transcriptHash :=
    sha256 (m.client.full ++ m.server.full ++ m.encrypted.full ++ m.certificate.full)
  let workHash ← connectionWorkHash
    [m.client.full, m.server.full, m.encrypted.full, m.certificate.full]
  return {
    clientHello := m.client.full
    serverHello := m.server.full
    encryptedExtensions := m.encrypted.full
    certificate := m.certificate.full
    certificateVerify := m.verify.full
    certificateChain := certificateChain
    certificateVerifyScheme := scheme
    certificateVerifySignature := signature
    transcriptHash := transcriptHash
    connectionWorkHash := workHash }

end Protocol

end P2CTools
