import P2CTools.Theory.Readers

/-!
# The Grammar of a Proof

What a proof is, as data: a tree of messages that can only be built when every
condition of the format holds, and the bytes it is written as.

The format has three kinds of condition. A length must fit the field that
announces it; a list must not be empty, or must not repeat itself; and a later
message must stay within what the ClientHello offered. The first two are
fields of the tree's own types. The third makes the types of the server's
messages depend on the client's message, through the part of it they look at,
which is the parser's own `ClientState`.

Nothing here mentions the parser. `encode` says what the bytes are, and the
bytes determine the tree only as far as the parser's result needs.

## Main definitions

* `WordList`: A non-empty list of two-byte numbers behind its length.
* `KeyShare`: A key share of one of the two groups.
* `KeyShares`: A non-empty list of shares of distinct groups.
* `ServerName`: The data of a `server_name` extension.
* `ClientHello`, `ServerHello`, `EncryptedExtensions`, `Certificate`,
  `CertificateVerify`: The five messages.
* `ProofTree`: A whole proof for a domain and a challenge.
* `ProofTree.parsed`: What the parser is to return for it.
-/

namespace P2CTools.Grammar

open Wire Protocol

/-- A non-empty list of two-byte numbers whose length fits in `k` bytes. -/
structure WordList (k : Nat) where
  values : List Nat
  ne_nil : values ≠ []
  lt : ∀ w ∈ values, w < 65536
  length_lt : 2 * values.length < 256 ^ k

/-- The list behind its size. -/
def WordList.encode {k : Nat} (l : WordList k) : Bytes :=
  vec k (ofWords l.values)

/-- A share of one of the two groups, in that group's only form. -/
def ValidShare (group : Nat) (exchange : Bytes) : Prop :=
  (group = groupX25519 ∧ exchange.length = 32) ∨
    (group = groupSecp256r1 ∧ exchange.length = 65 ∧ exchange.head? = some 4)

/-- A key share that has the form of its group. -/
structure KeyShare where
  group : Nat
  exchange : Bytes
  valid : ValidShare group exchange

/-- The bytes of a key share. -/
def KeyShare.encode (share : KeyShare) : Bytes :=
  be 2 share.group ++ vec 2 share.exchange

/-- The shares of a ClientHello, one for each group. -/
structure KeyShares where
  shares : List KeyShare
  ne_nil : shares ≠ []
  nodup : (shares.map KeyShare.group).Nodup
  length_lt : (shares.flatMap KeyShare.encode).length < 65536

/-- The key shares behind their size. -/
def KeyShares.encode (l : KeyShares) : Bytes :=
  vec 2 (l.shares.flatMap KeyShare.encode)

/-- The groups that there are shares of. -/
def KeyShares.groups (l : KeyShares) : List Nat :=
  l.shares.map KeyShare.group

/-- The data of a `server_name` extension with one DNS name. -/
def serverName (name : Bytes) : Bytes :=
  vec 2 (be 1 0 ++ vec 2 name)

/-- A ClientHello for the given encoded domain name and challenge. -/
structure ClientHello (name challenge : Bytes) where
  sessionId : Bytes
  cipherSuites : WordList 2
  block : Block
  versions : WordList 1
  signatureAlgorithms : WordList 2
  keyShares : KeyShares
  sessionId_le : sessionId.length ≤ 32
  holds_serverName : block.Holds extServerName (serverName name)
  holds_versions : block.Holds extSupportedVersions versions.encode
  holds_signatureAlgorithms : block.Holds extSignatureAlgorithms signatureAlgorithms.encode
  holds_keyShares : block.Holds extKeyShare keyShares.encode
  allowed : ∀ type ∈ forbiddenExtensions, type ∉ block.entries.map Extension.type
  offers_tls13 : tls13 ∈ versions.values

section ClientHello

variable {name challenge : Bytes}

/-- The bytes of a ClientHello, its body. -/
def ClientHello.encode (t : ClientHello name challenge) : Bytes :=
  be 2 tls12 ++ challenge ++ vec 1 t.sessionId ++ t.cipherSuites.encode ++ vec 1 [0] ++
    t.block.encode

/-- The part of a ClientHello that the server's messages are checked against. -/
def ClientHello.state (t : ClientHello name challenge) : ClientState where
  cipherSuites := t.cipherSuites.values
  signatureAlgorithms := t.signatureAlgorithms.values
  keyShareGroups := t.keyShares.groups
  legacySessionId := t.sessionId

end ClientHello

/-- A ServerHello that answers a ClientHello. -/
structure ServerHello (client : ClientState) where
  random : Bytes
  cipherSuite : Nat
  block : Block
  share : KeyShare
  random_length : random.length = 32
  random_ne : random ≠ helloRetryRequestRandom
  cipherSuite_mem : cipherSuite ∈ [tlsAes128GcmSha256, tlsChacha20Poly1305Sha256]
  cipherSuite_offered : cipherSuite ∈ client.cipherSuites
  types : ∀ type, type ∈ block.entries.map Extension.type ↔
    type = extSupportedVersions ∨ type = extKeyShare
  holds_version : block.Holds extSupportedVersions (be 2 tls13)
  holds_share : block.Holds extKeyShare share.encode
  share_offered : share.group ∈ client.keyShareGroups

/-- The bytes of a ServerHello, its body. -/
def ServerHello.encode {client : ClientState} (t : ServerHello client) : Bytes :=
  be 2 tls12 ++ t.random ++ vec 1 client.legacySessionId ++ be 2 t.cipherSuite ++ be 1 0 ++
    t.block.encode

/-- EncryptedExtensions without `early_data`. -/
structure EncryptedExtensions where
  block : Block
  no_early_data : extEarlyData ∉ block.entries.map Extension.type

/-- The bytes of EncryptedExtensions. -/
def EncryptedExtensions.encode (t : EncryptedExtensions) : Bytes :=
  t.block.encode

/-- One certificate of a chain, with its extensions. -/
structure CertificateEntry where
  data : Bytes
  extensions : Bytes
  data_pos : 1 ≤ data.length
  data_le : data.length ≤ maxCertificateSize
  extensions_lt : extensions.length < 65536

/-- The bytes of an entry: the certificate, and its extensions. -/
def CertificateEntry.encode (entry : CertificateEntry) : Bytes :=
  vec 3 entry.data ++ vec 2 entry.extensions

/-- A Certificate message with at least one entry, and not too many. -/
structure Certificate where
  entries : List CertificateEntry
  ne_nil : entries ≠ []
  length_le : entries.length ≤ maxCertificates
  size_lt : (entries.flatMap CertificateEntry.encode).length < 16777216

/-- The bytes of a Certificate message, its body. -/
def Certificate.encode (t : Certificate) : Bytes :=
  vec 1 [] ++ vec 3 (t.entries.flatMap CertificateEntry.encode)

/-- The certificates of the message. -/
def Certificate.chain (t : Certificate) : List Bytes :=
  t.entries.map CertificateEntry.data

/-- A CertificateVerify with a scheme that the ClientHello offered. -/
structure CertificateVerify (client : ClientState) where
  scheme : Nat
  signature : Bytes
  scheme_mem : scheme ∈ [ecdsaSecp256r1Sha256, rsaPssRsaeSha256, rsaPssPssSha256]
  scheme_offered : scheme ∈ client.signatureAlgorithms
  signature_pos : 1 ≤ signature.length
  signature_lt : signature.length < 65536

/-- The bytes of a CertificateVerify, its body. -/
def CertificateVerify.encode {client : ClientState} (t : CertificateVerify client) : Bytes :=
  be 2 t.scheme ++ vec 2 t.signature

/-- A proof for an encoded domain name and a challenge. -/
structure ProofTree (name challenge : Bytes) where
  client : ClientHello name challenge
  server : ServerHello client.state
  encrypted : EncryptedExtensions
  certificate : Certificate
  verify : CertificateVerify client.state
  client_le : client.encode.length + 4 ≤ 4096
  server_le : server.encode.length + 4 ≤ 2048
  encrypted_le : encrypted.encode.length + 4 ≤ 4096
  certificate_le : certificate.encode.length + 4 ≤ maxCertificateMessageSize
  verify_le : verify.encode.length + 4 ≤ 8192

section ProofTree

variable {name challenge : Bytes}

/-- The first four messages of a proof, which its hashes cover. -/
def ProofTree.hashed (t : ProofTree name challenge) : List Bytes :=
  [frame clientHello t.client.encode, frame serverHello t.server.encode,
    frame encryptedExtensions t.encrypted.encode, frame Protocol.certificate t.certificate.encode]

/-- The five messages, of which all but the last are hashed. -/
def ProofTree.messages (t : ProofTree name challenge) : List Bytes :=
  t.hashed ++ [frame certificateVerify t.verify.encode]

/-- A proof as it is written: the version byte and the five messages. -/
def ProofTree.encode (t : ProofTree name challenge) : Bytes :=
  be 1 proofVersion ++ t.messages.flatten

/-- What the parser returns for a proof. -/
def ProofTree.parsed (t : ProofTree name challenge) : ParsedProof where
  clientHello := frame clientHello t.client.encode
  serverHello := frame serverHello t.server.encode
  encryptedExtensions := frame encryptedExtensions t.encrypted.encode
  certificate := frame Protocol.certificate t.certificate.encode
  certificateVerify := frame certificateVerify t.verify.encode
  certificateChain := t.certificate.chain
  certificateVerifyScheme := t.verify.scheme
  certificateVerifySignature := t.verify.signature
  transcriptHash := sha256 t.hashed.flatten
  connectionWorkHash := taggedHash workTag t.hashed.flatten

end ProofTree

/-- A valid share is never empty, and its length fits in two bytes. -/
theorem ValidShare.length {group : Nat} {exchange : Bytes} (h : ValidShare group exchange) :
    1 ≤ exchange.length ∧ exchange.length < 65536 := by
  rcases h with ⟨-, hlen⟩ | ⟨-, hlen, -⟩
  · omega
  · omega

theorem ValidShare.group_lt {group : Nat} {exchange : Bytes} (h : ValidShare group exchange) :
    group < 65536 := by
  rcases h with ⟨rfl, -⟩ | ⟨rfl, -, -⟩
  · decide
  · decide

theorem ServerHello.cipherSuite_lt {client : ClientState} (t : ServerHello client) :
    t.cipherSuite < 65536 := by
  have hmem := t.cipherSuite_mem
  rw [List.mem_cons, List.mem_singleton] at hmem
  rcases hmem with h | h
  · rw [h]
    decide
  · rw [h]
    decide

theorem CertificateVerify.scheme_lt {client : ClientState} (t : CertificateVerify client) :
    t.scheme < 65536 := by
  have hmem := t.scheme_mem
  rw [List.mem_cons, List.mem_cons, List.mem_singleton] at hmem
  rcases hmem with h | h | h
  · rw [h]
    decide
  · rw [h]
    decide
  · rw [h]
    decide

theorem KeyShare.encode_ne_nil (share : KeyShare) : share.encode ≠ [] :=
  List.cons_ne_nil _ _

theorem CertificateEntry.encode_ne_nil (entry : CertificateEntry) : entry.encode ≠ [] :=
  List.cons_ne_nil _ _

/-- Items whose encodings are not empty encode to nothing only when there are
    none of them. -/
theorem flatMap_eq_nil_iff {ι : Type} (enc : ι → Bytes) (h : ∀ x, enc x ≠ []) (xs : List ι) :
    xs.flatMap enc = [] ↔ xs = [] := by
  cases xs with
  | nil => simp only [List.flatMap_nil]
  | cons x xs =>
      simp only [List.flatMap_cons, List.append_eq_nil_iff, h x, false_and, reduceCtorEq]

end P2CTools.Grammar
