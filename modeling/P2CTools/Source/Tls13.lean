import P2CTools.Source.Verify
import P2CTools.Wire.Feed
import Mathlib.Data.Rat.Defs

/-!
# The TLS Client

The narrow TLS 1.3 client that captures a server's handshake, from `tls13.py`.

Everything an attempt draws from outside is its `Attempt`: the ephemeral key
pair, the session id, what the socket calls do, and the connection itself as a
`Net`. A `Net` is a list of what `recv` will find, in order, with a clock that
is read by number. A piece of data is handed out in portions no larger than
asked for, so that any division of a byte stream into `recv` results is a list
of pieces; an empty piece is the end of the stream, and when nothing is left
`recv` times out. AEAD decryption and the X25519 exchange are parameters.
HKDF is computed: it is written over any keyed hash, and the key schedule uses
it with HMAC-SHA-256.

The two receive loops take one record after another and fold it into a state,
by `helloStep` and `encryptedStep`, which are their bodies after the record is
read. Their bound is one more than the bytes the connection has to give. Times
are rationals, which are added and subtracted exactly where the source rounds
its floats, so the test for a finite timeout has nothing to exclude. What was
sent over a connection, and to whom, is kept with it.

## Main definitions

* `TlsProofMessages`: The five captured messages.
* `buildClientHello`: The ClientHello of an attempt.
* `hkdfExpand`, `hkdfExpandLabel`: The key expansion and its labels.
* `deriveServerHandshakeKeys`: The key schedule.
* `Net`, `NetM`: A connection, and a program that uses one.
* `recvRecord`: One TLS record.
* `popHandshake`: A complete message from the front of a buffer.
* `parseServerHello`: The client's own ServerHello parser.
* `decryptRecord`: Open one encrypted record.
* `helloStep`, `encryptedStep`: The bodies of the receive loops.
* `captureTls13Proof`: One whole attempt.
-/

namespace P2CTools

open Wire

namespace Tls13

/-- The content type of change_cipher_spec records. -/
abbrev contentChangeCipherSpec : Nat := 20
/-- The content type of alerts. -/
abbrev contentAlert : Nat := 21
/-- The content type of handshake records. -/
abbrev contentHandshake : Nat := 22
/-- The content type of encrypted records. -/
abbrev contentApplicationData : Nat := 23

/-- The extension type of `server_name`. -/
abbrev extServerName : Nat := 0
/-- The extension type of `supported_groups`. -/
abbrev extSupportedGroups : Nat := 10
/-- The extension type of `signature_algorithms`. -/
abbrev extSignatureAlgorithms : Nat := 13
/-- The extension type of `signature_algorithms_cert`. -/
abbrev extSignatureAlgorithmsCert : Nat := 50
/-- The extension type of `supported_versions`. -/
abbrev extSupportedVersions : Nat := 43
/-- The extension type of `key_share`. -/
abbrev extKeyShare : Nat := 51
/-- The group X25519, by its number. -/
abbrev groupX25519 : Nat := 0x001D
/-- The version number of TLS 1.2. -/
abbrev tls12 : Nat := 0x0303
/-- The version number of TLS 1.3. -/
abbrev tls13 : Nat := 0x0304
/-- The largest size of the body of a record. -/
abbrev maxTlsCiphertext : Nat := 2 ^ 14 + 256
/-- The largest size of what is buffered of a handshake. -/
abbrev maxCapturedHandshake : Nat := 64 * 1024

/-- Where an attempt connects to. -/
structure Endpoint where
  family : Int
  socketType : Int
  protocol : Int
  /-- The text of the socket address. -/
  address : Str
  ip : Str
  deriving DecidableEq

/-- The messages of a captured handshake. -/
structure TlsProofMessages where
  clientHello : Bytes
  serverHello : Bytes
  encryptedExtensions : Bytes
  certificate : Bytes
  certificateVerify : Bytes
  peerIp : Str
  deriving DecidableEq

/-- The proof that captured messages make. -/
def TlsProofMessages.encodedProof (m : TlsProofMessages) : Bytes :=
  [UInt8.ofNat Protocol.proofVersion] ++
    [m.clientHello, m.serverHello, m.encryptedExtensions, m.certificate,
      m.certificateVerify].flatten

section ClientHello

/-- `bytes([value])`. -/
def singleByte (value : Nat) : Except PyErr Bytes :=
  if value < 256 then .ok [UInt8.ofNat value]
  else .error (valueError "bytes must be in range(0, 256)")

theorem singleByte_eq (n : Nat) (h : n < 256) : singleByte n = .ok (be 1 n) :=
  if_pos h

/-- A number in two bytes. -/
def u16 (value : Int) : Except PyErr Bytes :=
  toBytesBig 2 value

theorem u16_eq (n : Nat) (h : n < 65536) : u16 n = .ok (be 2 n) :=
  (toBytesBig_eq_ok_iff 2 n _).mpr ⟨Int.natCast_nonneg n, by omega, rfl⟩

/-- An extension with its type and size. -/
def extension (extensionType : Nat) (data : Bytes) : Except PyErr Bytes := do
  let encodedType ← u16 extensionType
  let size ← u16 data.length
  return encodedType ++ size ++ data

/-- A handshake message with its type and size. -/
def handshake (messageType : Nat) (body : Bytes) : Except PyErr Bytes := do
  let encodedType ← singleByte messageType
  let size ← toBytesBig 3 body.length
  return encodedType ++ size ++ body

/-- `_record` with its default version. -/
def record (contentType : Nat) (body : Bytes) : Except PyErr Bytes := do
  let encodedType ← singleByte contentType
  let version ← u16 0x0301
  let size ← u16 body.length
  return encodedType ++ version ++ size ++ body

/-- `b"".join(_u16(value) for value in values)`. -/
def joinU16 (values : List Nat) : Except PyErr Bytes := do
  let encoded ← values.mapM fun (value : Nat) => u16 value
  return encoded.flatten

/-- The schemes offered for signatures made by certificate issuers. -/
def certificateSignatureSchemes : List Nat :=
  [0x0403, 0x0503, 0x0603, 0x0804, 0x0805, 0x0806, 0x0809, 0x080A, 0x080B, 0x0401, 0x0501, 0x0601]

/-- The extensions of `build_client_hello`. -/
def clientHelloExtensions (encodedDomain publicKey : Bytes)
    (algorithms : List SignatureAlgorithm) : Except PyErr Bytes := do
  let domainSize ← u16 encodedDomain.length
  let serverName := [0x00] ++ domainSize ++ encodedDomain
  let signatureSchemes ← joinU16 (algorithms.map SignatureAlgorithm.scheme)
  let certificateSchemes ← joinU16 certificateSignatureSchemes
  let group ← u16 groupX25519
  let keySize ← u16 publicKey.length
  let keyShareEntry := group ++ keySize ++ publicKey
  let serverNameSize ← u16 serverName.length
  let serverNameExtension ← extension extServerName (serverNameSize ++ serverName)
  let groupsExtension ← extension extSupportedGroups ([0x00, 0x02] ++ group)
  let signatureSchemesSize ← u16 signatureSchemes.length
  let signaturesExtension ← extension extSignatureAlgorithms
    (signatureSchemesSize ++ signatureSchemes)
  let certificateSchemesSize ← u16 certificateSchemes.length
  let certificateSignaturesExtension ← extension extSignatureAlgorithmsCert
    (certificateSchemesSize ++ certificateSchemes)
  let version ← u16 tls13
  let versionsExtension ← extension extSupportedVersions ([0x02] ++ version)
  let keyShareSize ← u16 keyShareEntry.length
  let keyShareExtension ← extension extKeyShare (keyShareSize ++ keyShareEntry)
  return serverNameExtension ++ groupsExtension ++ signaturesExtension ++
    certificateSignaturesExtension ++ versionsExtension ++ keyShareExtension

/-- The ClientHello for a domain and a challenge. -/
def buildClientHello (domain : Str) (challenge publicKey sessionId : Bytes)
    (signatureAlgorithmsMask : Int) : Except PyErr Bytes := do
  let _ ← validateSignatureAlgorithmsMask (.int signatureAlgorithmsMask)
  failIf (¬isCanonicalDomain domain)
    (tlsError "domain is not canonical lower-case ASCII DNS form")
  failIf (challenge.length ≠ 32) (tlsError "claim challenge must contain exactly 32 bytes")
  failIf (publicKey.length ≠ 32) (tlsError "X25519 public key must contain exactly 32 bytes")
  failIf (¬ (1 ≤ sessionId.length ∧ sessionId.length ≤ 32))
    (tlsError "legacy session id must contain between 1 and 32 bytes")
  let encodedDomain ← encodeAscii domain
  let algorithms ← acceptedSignatureAlgorithms signatureAlgorithmsMask
  let extensions ← clientHelloExtensions encodedDomain publicKey algorithms
  let suites ← joinU16 [Protocol.tlsAes128GcmSha256, Protocol.tlsChacha20Poly1305Sha256]
  let version ← u16 tls12
  let sessionSize ← singleByte sessionId.length
  let suitesSize ← u16 suites.length
  let extensionsSize ← u16 extensions.length
  handshake 1 (version ++ challenge ++ sessionSize ++ sessionId ++ suitesSize ++ suites ++
    [0x01, 0x00] ++ extensionsSize ++ extensions)

end ClientHello

section KeySchedule

/-- HKDF-Extract. -/
def hkdfExtract (salt inputKeyMaterial : Bytes) : Bytes :=
  hmacSha256 salt inputKeyMaterial

/-- The variables of the loop of `hkdf_expand`. -/
structure HkdfState where
  output : Bytes
  previous : Bytes
  counter : Nat

section Expand

-- The keyed hash, `hmac.new(key, message, hashlib.sha256).digest()`.
variable (hmac : Bytes → Bytes → Bytes)

/-- The body of the loop of `hkdf_expand`. -/
def hkdfPass (secret info : Bytes) (s : HkdfState) : Except PyErr HkdfState := do
  let counterByte ← singleByte s.counter
  let previous := hmac secret (s.previous ++ info ++ counterByte)
  return ⟨s.output ++ previous, previous, s.counter + 1⟩

/-- That loop, for at most the given number of tests. -/
def hkdfLoop (secret info : Bytes) (length : Nat) : Nat → HkdfState → Except PyErr Bytes
  | 0, _ => .error stuck
  | fuel + 1, s =>
      if s.output.length < length then do
        let s' ← hkdfPass hmac secret info s
        hkdfLoop secret info length fuel s'
      else .ok (s.output.take length)

/-- `hkdf_expand` over a keyed hash. -/
def hkdfExpandWith (secret info : Bytes) (length : Int) : Except PyErr Bytes := do
  failIf (¬ (0 ≤ length ∧ length ≤ 255 * 32)) (tlsError "invalid HKDF output length")
  hkdfLoop hmac secret info length.toNat (length.toNat + 1) ⟨[], [], 1⟩

end Expand

/-- HKDF-Expand with HMAC-SHA256. -/
def hkdfExpand (secret info : Bytes) (length : Int) : Except PyErr Bytes :=
  hkdfExpandWith hmacSha256 secret info length

/-- The checks of `hkdf_expand_label`, and the `info` it expands with. -/
def hkdfLabel (label context : Bytes) (length : Int) : Except PyErr Bytes := do
  let fullLabel := asciiLiteral "tls13 " ++ label
  failIf (¬ (7 ≤ fullLabel.length ∧ fullLabel.length ≤ 255) ∨ context.length > 255 ∨
    length > 0xFFFF) (tlsError "invalid TLS 1.3 HKDF label")
  let size ← u16 length
  let labelSize ← singleByte fullLabel.length
  let contextSize ← singleByte context.length
  return size ++ labelSize ++ fullLabel ++ contextSize ++ context

/-- HKDF-Expand-Label of TLS 1.3. -/
def hkdfExpandLabel (secret label context : Bytes) (length : Int) : Except PyErr Bytes := do
  let info ← hkdfLabel label context length
  hkdfExpand secret info length

/-- Derive-Secret of TLS 1.3. -/
def deriveSecret (secret label transcript : Bytes) : Except PyErr Bytes :=
  hkdfExpandLabel secret label (sha256 transcript) 32

/-- What the records of a server flight are opened with. -/
structure Keys where
  cipherSuite : Nat
  key : Bytes
  iv : Bytes
  deriving DecidableEq

/-- The key length of a cipher suite. -/
def keyLength (cipherSuite : Nat) : Except PyErr Int :=
  if cipherSuite = Protocol.tlsAes128GcmSha256 then .ok 16
  else if cipherSuite = Protocol.tlsChacha20Poly1305Sha256 then .ok 32
  else .error (tlsError "server selected an unsupported cipher suite")

/-- The keys of the server's part of the handshake. -/
def deriveServerHandshakeKeys (sharedSecret transcript : Bytes) (cipherSuite : Nat) :
    Except PyErr Keys := do
  let zeroes := List.replicate 32 0
  let earlySecret := hkdfExtract zeroes zeroes
  let derivedSecret ← deriveSecret earlySecret (asciiLiteral "derived") []
  let handshakeSecret := hkdfExtract derivedSecret sharedSecret
  let trafficSecret ← deriveSecret handshakeSecret (asciiLiteral "s hs traffic") transcript
  let size ← keyLength cipherSuite
  let key ← hkdfExpandLabel trafficSecret (asciiLiteral "key") [] size
  let iv ← hkdfExpandLabel trafficSecret (asciiLiteral "iv") [] 12
  return ⟨cipherSuite, key, iv⟩

end KeySchedule

section Connection

/-- What one `recv` finds: some data, of which an empty piece is the end of
    the stream, or an exception. -/
inductive NetEvent
  | data (b : Bytes)
  | fail (e : PyErr)
  deriving DecidableEq

/-- A connection as the client sees it. -/
structure Net where
  /-- The readings of `time.monotonic`, by number. -/
  clock : Nat → ℚ
  /-- How many readings have been taken. -/
  ticks : Nat
  /-- Setting a timeout on the socket. -/
  settimeout : ℚ → Except PyErr Unit
  /-- What the peer's side will bring. -/
  events : List NetEvent
  /-- The socket address that the socket was connected to. -/
  peer : Option Str := none
  /-- What was sent. -/
  sent : Bytes := []

/-- A program that uses a connection. -/
abbrev NetM := StateT Net (Except PyErr)

/-- A computation that does not touch the connection. -/
def NetM.lift {α : Type} (r : Except PyErr α) : NetM α :=
  fun n => r >>= fun x => .ok (x, n)

theorem netM_bind_eq_ok_iff {α β : Type} (m : NetM α) (f : α → NetM β) (n n' : Net) (y : β) :
    (m >>= f) n = .ok (y, n') ↔ ∃ x n₁, m n = .ok (x, n₁) ∧ f x n₁ = .ok (y, n') := by
  change (m n >>= fun p => f p.1 p.2) = .ok (y, n') ↔ _
  rw [bind_eq_ok_iff, Prod.exists]

theorem netM_lift_eq_ok_iff {α : Type} (r : Except PyErr α) (n n' : Net) (x : α) :
    NetM.lift r n = .ok (x, n') ↔ r = .ok x ∧ n' = n := by
  rw [NetM.lift, bind_eq_ok_iff]
  constructor
  · rintro ⟨y, hy, h⟩
    rcases Prod.mk.inj (Except.ok.inj h) with ⟨rfl, rfl⟩
    exact ⟨hy, rfl⟩
  · rintro ⟨hx, rfl⟩
    exact ⟨x, hx, rfl⟩

theorem netM_pure_eq_ok_iff {α : Type} (x y : α) (n n' : Net) :
    (pure x : NetM α) n = .ok (y, n') ↔ x = y ∧ n = n' := by
  change Except.ok (x, n) = .ok (y, n') ↔ _
  rw [Except.ok.injEq, Prod.mk.injEq]

/-- `time.monotonic()`, the next reading. -/
def monotonic : NetM ℚ :=
  fun n => .ok (n.clock n.ticks, { n with ticks := n.ticks + 1 })

/-- `connection.settimeout(timeout)`. -/
def settimeout (timeout : ℚ) : NetM Unit :=
  fun n => n.settimeout timeout >>= fun u => .ok (u, n)

/-- `connection.recv(size)` for a positive size. -/
def recv (size : Nat) : NetM Bytes := fun n =>
  match n.events with
  | [] => .error ⟨.osError, "timed out"⟩
  | .fail e :: _ => .error e
  | .data b :: events =>
      if b.length ≤ size then .ok (b, { n with events := events })
      else .ok (b.take size, { n with events := .data (b.drop size) :: events })

/-- What the next reading of the clock has left before the deadline. -/
def remainingTimeout (deadline : ℚ) : NetM ℚ := do
  let now ← monotonic
  NetM.lift (failIf (deadline - now ≤ 0)
    (tlsError "TLS handshake exceeded the connection timeout"))
  return deadline - now

/-- The loop of `_recv_exact`, for at most the given number of tests. -/
def recvLoop (size : Nat) (deadline : ℚ) : Nat → Bytes → NetM Bytes
  | 0, _ => NetM.lift (.error stuck)
  | fuel + 1, result =>
      if result.length < size then do
        let remaining ← remainingTimeout deadline
        settimeout remaining
        let chunk ← recv (size - result.length)
        NetM.lift (failIf (chunk = [])
          (tlsError "TLS peer closed the connection during the handshake"))
        recvLoop size deadline fuel (result ++ chunk)
      else return result

/-- Receive exactly so many bytes. -/
def recvExact (size : Nat) (deadline : ℚ) : NetM Bytes :=
  recvLoop size deadline (size + 1) []

/-- A record: its content type, its whole header and its body. -/
structure Record where
  contentType : Nat
  header : Bytes
  fragment : Bytes
  deriving DecidableEq

/-- Receive one record. -/
def recvRecord (deadline : ℚ) : NetM Record := do
  let header ← recvExact 5 deadline
  let contentType ← NetM.lift (getIndex header 0)
  NetM.lift (failIf (beNat (slice header 1 3) < 0x0300)
    (tlsError "TLS peer used an invalid record version"))
  NetM.lift (failIf (beNat (slice header 3 5) > maxTlsCiphertext)
    (tlsError "TLS record exceeds the TLS 1.3 ciphertext limit"))
  let fragment ← recvExact (beNat (slice header 3 5)) deadline
  return ⟨contentType.toNat, header, fragment⟩

end Connection

section Messages

/-- The size that the header at the front of a buffer announces. -/
def announcedSize (buffer : Bytes) : Nat :=
  beNat (slice buffer 1 4) + 4

/-- `_pop_handshake`, with what is left of the buffer. -/
def popHandshake (buffer : Bytes) : Except PyErr (Option (Bytes × Bytes)) :=
  if buffer.length < 4 then .ok none
  else if announcedSize buffer > maxCapturedHandshake then
    .error (tlsError "TLS handshake message exceeds the P2C proof limit")
  else if buffer.length < announcedSize buffer then .ok none
  else .ok (some (buffer.take (announcedSize buffer), buffer.drop (announcedSize buffer)))

/-- The loop of `_parse_extensions`, for at most the given number of tests. -/
def parseExtensionsLoop (encoded : Bytes) : Nat → Nat → ExtensionMap → Except PyErr ExtensionMap
  | 0, _, _ => .error stuck
  | fuel + 1, position, result =>
      if position < encoded.length then do
        failIf (encoded.length - position < 4) (tlsError "truncated ServerHello extension")
        let extensionType := beNat (slice encoded position (position + 2))
        let size := beNat (slice encoded (position + 2) (position + 4))
        failIf (encoded.length - (position + 4) < size)
          (tlsError "truncated ServerHello extension data")
        failIf (result.has extensionType = true) (tlsError "duplicate ServerHello extension")
        parseExtensionsLoop encoded fuel (position + 4 + size)
          (result.setItem extensionType (slice encoded (position + 4) (position + 4 + size)))
      else .ok result

/-- The extensions of a ServerHello, as the client reads them. -/
def parseExtensions (encoded : Bytes) : Except PyErr ExtensionMap :=
  parseExtensionsLoop encoded (encoded.length + 1) 0 []

/-- The part of `parse_server_hello` that reads `key_share`. -/
def parseKeyShare (keyShare : Bytes) : Except PyErr Bytes := do
  failIf (keyShare.length < 4 ∨ beNat (keyShare.take 2) ≠ groupX25519)
    (tlsError "server did not select the offered X25519 key share")
  failIf (beNat (slice keyShare 2 4) ≠ 32 ∨ keyShare.length ≠ beNat (slice keyShare 2 4) + 4)
    (tlsError "invalid ServerHello X25519 key share")
  return keyShare.drop 4

/-- The cipher suite and the server's key, as the client reads them. -/
def parseServerHello (message expectedSessionId : Bytes) : Except PyErr (Nat × Bytes) := do
  failIf (message.length < 4 ∨ message.head? ≠ some (UInt8.ofNat Protocol.serverHello))
    (tlsError "TLS peer did not return ServerHello")
  failIf (beNat (slice message 1 4) ≠ message.length - 4) (tlsError "invalid ServerHello length")
  let body := message.drop 4
  failIf (body.length < 38 ∨ body.take 2 ≠ be 2 tls12) (tlsError "invalid TLS 1.3 ServerHello")
  failIf (slice body 2 34 = Protocol.helloRetryRequestRandom)
    (tlsError "HelloRetryRequest is not supported by P2C v2")
  let sessionByte ← getIndex body 34
  let sessionSize := sessionByte.toNat
  failIf (sessionSize > 32 ∨ body.length - 35 < sessionSize + 5)
    (tlsError "invalid ServerHello session id")
  failIf (slice body 35 (35 + sessionSize) ≠ expectedSessionId)
    (tlsError "ServerHello did not echo the ClientHello session id")
  let position := 35 + sessionSize
  let cipherSuite := beNat (slice body position (position + 2))
  failIf (cipherSuite ∉ [Protocol.tlsAes128GcmSha256, Protocol.tlsChacha20Poly1305Sha256])
    (tlsError "server selected a cipher suite outside the P2C profile")
  let compression ← getIndex body (position + 2)
  failIf (compression ≠ 0) (tlsError "ServerHello selected non-null compression")
  let extensionSize := beNat (slice body (position + 3) (position + 5))
  failIf (body.length - (position + 5) ≠ extensionSize)
    (tlsError "invalid ServerHello extensions length")
  let extensions ← parseExtensions (body.drop (position + 5))
  failIf (¬extensions.keysAre [extSupportedVersions, extKeyShare])
    (tlsError "P2C ServerHello must contain only supported_versions and key_share")
  let version ← extensions.getItem extSupportedVersions
  failIf (version ≠ be 2 tls13) (tlsError "server did not select TLS 1.3")
  let keyShare ← extensions.getItem extKeyShare
  let publicKey ← parseKeyShare keyShare
  return (cipherSuite, publicKey)

end Messages

section Records

/-- The AEAD decryptions: key, nonce, ciphertext, header. -/
structure Aead where
  aesGcmDecrypt : Bytes → Bytes → Bytes → Bytes → Except PyErr Bytes
  chacha20Poly1305Decrypt : Bytes → Bytes → Bytes → Bytes → Except PyErr Bytes

/-- The nonce of a record: the IV with the sequence number added bit by bit. -/
def recordNonce (iv : Bytes) (sequence : Nat) : Except PyErr Bytes := do
  failIf (¬sequence < 2 ^ 64) (tlsError "TLS record sequence overflow")
  let paddedSequence ← toBytesBig iv.length sequence
  return List.zipWith (· ^^^ ·) iv paddedSequence

/-- The decryption that a cipher suite selects. -/
def Aead.decrypt (A : Aead) (cipherSuite : Nat) (key nonce ciphertext header : Bytes) :
    Except PyErr Bytes :=
  if cipherSuite = Protocol.tlsAes128GcmSha256 then A.aesGcmDecrypt key nonce ciphertext header
  else A.chacha20Poly1305Decrypt key nonce ciphertext header

/-- `plaintext.rstrip(b"\x00")`. -/
def rstripZeros (b : Bytes) : Bytes :=
  (b.reverse.dropWhile fun x => x == 0).reverse

/-- The content type and the content of an inner plaintext. -/
def splitInner (unpadded : Bytes) : Except PyErr (Nat × Bytes) :=
  match unpadded.getLast? with
  | none => .error (tlsError "TLS 1.3 inner plaintext has no content type")
  | some contentType => .ok (contentType.toNat, unpadded.dropLast)

/-- The type and the content of an encrypted record. -/
def decryptRecord (A : Aead) (keys : Keys) (sequence : Nat) (header ciphertext : Bytes) :
    Except PyErr (Nat × Bytes) := do
  let nonce ← recordNonce keys.iv sequence
  let plaintext ← handle [.invalidTag]
    (fun _ => .error (tlsError "TLS 1.3 server handshake record authentication failed"))
    (A.decrypt keys.cipherSuite keys.key nonce ciphertext header)
  splitInner (rstripZeros plaintext)

/-- An alert is raised as an exception. -/
def raiseAlert {α : Type} (alert : Bytes) : Except PyErr α :=
  match alert with
  | level :: description :: _ => .error (tlsError ("TLS peer returned alert level=" ++
      toString level.toNat ++ " description=" ++ toString description.toNat))
  | _ => .error (tlsError "TLS peer returned a truncated alert")

end Records

section Capture

/-- The state of the loop that waits for the ServerHello. -/
structure HelloState where
  serverHello : Option Bytes
  plaintextHandshake : Bytes
  deriving DecidableEq

/-- The ServerHello is there. -/
def HelloState.finished (s : HelloState) : Bool :=
  s.serverHello.isSome

/-- A change_cipher_spec record that is skipped. -/
def Record.isSkipped (r : Record) : Bool :=
  r.contentType == contentChangeCipherSpec && r.fragment == [0x01]

/-- The body of the first receive loop, after its record is read. -/
def helloStep (r : Record) (s : HelloState) : Except PyErr HelloState :=
  if r.isSkipped then .ok s
  else if r.contentType = contentAlert then raiseAlert r.fragment
  else do
    failIf (r.contentType ≠ contentHandshake)
      (tlsError "unexpected TLS record before ServerHello")
    let popped ← popHandshake (s.plaintextHandshake ++ r.fragment)
    match popped with
    | none => return ⟨none, s.plaintextHandshake ++ r.fragment⟩
    | some (message, rest) => return ⟨some message, rest⟩

/-- The types of the messages behind the ServerHello, in order. -/
def expectedMessages : List Nat :=
  [Protocol.encryptedExtensions, Protocol.certificate, Protocol.certificateVerify]

/-- The state of the encrypted receive loop. -/
structure EncryptedState where
  captured : List Bytes
  encryptedHandshake : Bytes
  sequence : Nat
  deriving DecidableEq

/-- All of the expected messages are captured. -/
def EncryptedState.finished (s : EncryptedState) : Bool :=
  decide (expectedMessages.length ≤ s.captured.length)

variable {Cert Key : Type} (X : X509 Cert Key)

/-- The checks on a message taken from the encrypted handshake. -/
def checkMessage (expectedType : Nat) (message : Bytes) : Except PyErr Unit := do
  let messageType ← getIndex message 0
  failIf (messageType.toNat ≠ expectedType)
    (tlsError ("expected TLS handshake type " ++ toString expectedType ++ ", received " ++
      toString messageType.toNat))
  if expectedType = Protocol.certificate then
    handle [.p2cError] (fun e => .error (tlsError e.msg)) (validateCertificateMessage X message)
  else .ok ()

/-- The inner loop of the encrypted receive loop. The list holds the expected
    types from the number of captured messages on, so that it is empty when
    all are captured. -/
def popMessages : List Nat → List Bytes → Bytes → Except PyErr (List Bytes × Bytes)
  | [], captured, buffer => .ok (captured, buffer)
  | expectedType :: expected, captured, buffer => do
      let popped ← popHandshake buffer
      match popped with
      | none => .ok (captured, buffer)
      | some (message, rest) => do
          checkMessage X expectedType message
          popMessages expected (captured ++ [message]) rest

/-- What the encrypted loop does with a decrypted handshake fragment. -/
def acceptFragment (inner : Bytes) (s : EncryptedState) : Except PyErr EncryptedState := do
  failIf ((s.encryptedHandshake ++ inner).length > maxCapturedHandshake)
    (tlsError "captured TLS handshake exceeds the P2C proof limit")
  let (captured, buffer) ← popMessages X (expectedMessages.drop s.captured.length) s.captured
    (s.encryptedHandshake ++ inner)
  return ⟨captured, buffer, s.sequence + 1⟩

/-- The body of the encrypted receive loop, after its record is read. -/
def encryptedStep (A : Aead) (keys : Keys) (r : Record) (s : EncryptedState) :
    Except PyErr EncryptedState :=
  if r.isSkipped then .ok s
  else if r.contentType = contentAlert then raiseAlert r.fragment
  else do
    failIf (r.contentType ≠ contentApplicationData)
      (tlsError "unexpected plaintext record in encrypted server handshake")
    let (innerType, inner) ← decryptRecord A keys s.sequence r.header r.fragment
    if innerType = contentAlert then raiseAlert inner
    else do
      failIf (innerType ≠ contentHandshake)
        (tlsError "unexpected TLS inner content during server handshake")
      acceptFragment X inner s

/-- How many bytes a connection has to give. -/
def Net.available (n : Net) : Nat :=
  (n.events.map fun event => match event with | .data b => b.length | .fail _ => 0).sum

/-- Receive records and fold them into a state until it is finished. -/
def receive {σ : Type} (deadline : ℚ) (step : Record → σ → Except PyErr σ) (finished : σ → Bool)
    (init : σ) : NetM σ :=
  fun n => feed stuck (recvRecord deadline) step finished (n.available + 1) init n

/-- What one attempt draws from outside. -/
structure Attempt where
  /-- The public half of the generated X25519 key. -/
  publicKey : Bytes
  /-- `secrets.token_bytes(32)`. -/
  sessionId : Bytes
  /-- Reading the peer's key and exchanging with it. -/
  exchange : Bytes → Except PyErr Bytes
  /-- Opening a socket of a family, type and protocol. -/
  socket : Int → Int → Int → Except PyErr Unit
  /-- Connecting it to a socket address. -/
  connect : Str → Except PyErr Unit
  /-- Sending bytes over it. -/
  sendall : Bytes → Except PyErr Unit
  /-- The connection, once there is one. -/
  net : Net

/-- `connection.connect(address)`. -/
def Attempt.connectTo (a : Attempt) (address : Str) : NetM Unit :=
  fun n => a.connect address >>= fun u => .ok (u, { n with peer := some address })

/-- `connection.sendall(data)`. -/
def Attempt.send (a : Attempt) (data : Bytes) : NetM Unit :=
  fun n => a.sendall data >>= fun u => .ok (u, { n with sent := n.sent ++ data })

/-- A captured server flight, with the state its loops ended in. -/
structure Flight where
  serverHello : Bytes
  keys : Keys
  encrypted : EncryptedState

/-- The keys of a flight, from the ServerHello. -/
def flightKeys (exchange : Bytes → Except PyErr Bytes) (sessionId clientHello serverHello : Bytes) :
    Except PyErr Keys := do
  let (cipherSuite, serverPublicBytes) ← parseServerHello serverHello sessionId
  let sharedSecret ← handle [.valueError]
    (fun _ => .error (tlsError "invalid ServerHello X25519 public key"))
    (exchange serverPublicBytes)
  deriveServerHandshakeKeys sharedSecret (clientHello ++ serverHello) cipherSuite

/-- The ServerHello that the first receive loop ended with. -/
def takeServerHello (s : HelloState) : Except PyErr Bytes := do
  failIf (s.plaintextHandshake ≠ [])
    (tlsError "unexpected plaintext handshake data after ServerHello")
  match s.serverHello with
  | some serverHello => .ok serverHello
  | none => .error ⟨.typeError, "object of type 'NoneType' has no len()"⟩

/-- The two receive loops and what stands between them. -/
def receiveFlight (A : Aead) (exchange : Bytes → Except PyErr Bytes)
    (sessionId clientHello : Bytes) (deadline : ℚ) : NetM Flight := do
  let hello ← receive deadline helloStep HelloState.finished ⟨none, []⟩
  let serverHello ← NetM.lift (takeServerHello hello)
  let keys ← NetM.lift (flightKeys exchange sessionId clientHello serverHello)
  let encrypted ← receive deadline (encryptedStep X A keys) EncryptedState.finished ⟨[], [], 0⟩
  return ⟨serverHello, keys, encrypted⟩

/-- The messages of a flight; the loop ended with three of them captured. -/
def flightMessages (clientHello : Bytes) (peerIp : Str) (flight : Flight) :
    Except PyErr TlsProofMessages :=
  match flight.encrypted.captured with
  | [encryptedExtensions, certificate, certificateVerify] =>
      .ok ⟨clientHello, flight.serverHello, encryptedExtensions, certificate, certificateVerify,
        peerIp⟩
  | _ => .error ⟨.indexError, "list index out of range"⟩

/-- Open the connection and send the ClientHello. -/
def connectAndSend (a : Attempt) (endpoint : Endpoint) (clientHello : Bytes) (deadline : ℚ) :
    NetM Unit := do
  NetM.lift (a.socket endpoint.family endpoint.socketType endpoint.protocol)
  let remaining ← remainingTimeout deadline
  settimeout remaining
  a.connectTo endpoint.address
  let remaining ← remainingTimeout deadline
  settimeout remaining
  let data ← NetM.lift (record contentHandshake clientHello)
  a.send data

/-- Capture a handshake, as a program over the attempt's connection. -/
def captureProgram (A : Aead) (endpoint : Endpoint) (domain : Str) (challenge : Bytes)
    (signatureAlgorithmsMask : Int) (timeout : ℚ) (a : Attempt) : NetM TlsProofMessages := do
  let _ ← NetM.lift (validateSignatureAlgorithmsMask (.int signatureAlgorithmsMask))
  NetM.lift (failIf (timeout ≤ 0) (tlsError "connection timeout must be finite and positive"))
  let clientHello ← NetM.lift
    (buildClientHello domain challenge a.publicKey a.sessionId signatureAlgorithmsMask)
  let started ← monotonic
  connectAndSend a endpoint clientHello (started + timeout)
  let flight ← receiveFlight X A a.exchange a.sessionId clientHello (started + timeout)
  let result ← NetM.lift (flightMessages clientHello endpoint.ip flight)
  let parsed ← NetM.lift (Protocol.parseProof result.encodedProof domain challenge)
  let allowed ← NetM.lift
    (signatureSchemeAllowed signatureAlgorithmsMask parsed.certificateVerifyScheme)
  NetM.lift (failIf (¬allowed) (tlsError "TLS server used a disallowed P2C signature scheme"))
  return result

/-- What an attempt comes to, without the connection it leaves. -/
def captureTls13Proof (A : Aead) (endpoint : Endpoint) (domain : Str) (challenge : Bytes)
    (signatureAlgorithmsMask : Int) (timeout : ℚ) (a : Attempt) : Except PyErr TlsProofMessages :=
  (captureProgram X A endpoint domain challenge signatureAlgorithmsMask timeout a a.net).map
    Prod.fst

end Capture

end Tls13

end P2CTools
