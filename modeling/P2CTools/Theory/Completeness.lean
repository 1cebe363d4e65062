import P2CTools.Theory.Delivery
import P2CTools.Theory.Verification

/-!
# Completeness of the Capture

A client that is sent a flight the verifier would accept returns it.

What the server may send is known from the hello the client built, because
hellos that are written alike offer the same. So the ServerHello of an
accepted proof is one the client's own parser reads, its key schedule
succeeds, and the messages that follow pass the checks made on the way. The
two loops then deliver them, and the proof that the client puts together is
the accepted one, with a scheme its mask selects.

The session at the end is one run with real keys, records and certificates:
the key exchange is X25519, the records are ChaCha20-Poly1305, and the leaf
certificate is signed by the root that stands in the root file.

## Main definitions

* `CarriesFlight`: The records of a flight.

## Theorems

* `receiveFlight_complete`: The two loops receive a whole flight.
* `captureProgram_eq_ok`: What the capture consists of.
* `capture_complete`: The capture of a whole flight.
-/

namespace P2CTools.Tls13

open Wire

section Completeness

open Grammar
open Protocol (frame ParsedProof parseProof)

variable {Cert Key : Type} {X : X509 Cert Key}

theorem length_wire {r : Record} (h : r.Sendable) : 5 ≤ r.wire.length := by
  rcases h with ⟨version, -, -, -, -, hheader⟩
  rw [Record.wire, hheader]
  simp only [List.length_append, length_be]
  omega

theorem length_le_wires (records : List Record) (h : ∀ r ∈ records, r.Sendable) :
    records.length ≤ (records.flatMap Record.wire).length := by
  induction records with
  | nil => exact Nat.le_refl 0
  | cons r records ih =>
      have hfirst := length_wire (h r List.mem_cons_self)
      have hrest := ih fun r' hr' => h r' (List.mem_cons_of_mem r hr')
      rw [List.flatMap_cons, List.length_append, List.length_cons]
      omega

/-- A connection has as many bytes to give as it will deliver. -/
theorem Net.Supplies.length_le {deadline : ℚ} {spare : Nat} {tail : List NetEvent} {stream : Bytes}
    {n : Net} (h : n.Supplies deadline spare tail stream) : stream.length ≤ n.available := by
  rcases h.chunks with ⟨chunks, -, hevents, rfl⟩
  rw [Net.available, hevents, List.map_append, List.sum_append, List.map_map, List.length_flatten]
  exact Nat.le_add_right _ _

/-- Hellos that are written alike offer the same. -/
theorem state_eq_of_encode_eq {name name' challenge : Bytes} {domain : Str}
    (hname : encodeAscii domain = .ok name) (hname' : encodeAscii domain = .ok name')
    (hc : challenge.length = 32) (t : ClientHello name challenge) (u : ClientHello name' challenge)
    (h : t.encode = u.encode) : t.state = u.state := by
  have ht := (Protocol.parseClientHello_eq_ok_iff _ domain challenge hc _).mpr
    ⟨name, hname, t, rfl, rfl⟩
  have hu := (Protocol.parseClientHello_eq_ok_iff _ domain challenge hc _).mpr
    ⟨name', hname', u, rfl, rfl⟩
  rw [h, hu] at ht
  exact (Except.ok.inj ht).symm

/-- The client takes the server's messages of an accepted proof, once its
    certificates load. -/
theorem takenAs_of_tree {name challenge : Bytes} (t : ProofTree name challenge)
    {certificates : List Cert}
    (hload : loadCertificateChain X t.certificate.chain = .ok certificates) :
    TakenAs X expectedMessages [frame Protocol.encryptedExtensions t.encrypted.encode,
      frame Protocol.certificate t.certificate.encode,
      frame Protocol.certificateVerify t.verify.encode] := by
  have hmax : maxCapturedHandshake = 65536 := rfl
  have hmax' : Protocol.maxCertificateMessageSize = 49152 := rfl
  have hee := t.encrypted_le
  have hct := t.certificate_le
  have hcv := t.verify_le
  -- The early check of the Certificate message loads the chain.
  have hcertificate : validateCertificateMessage X (frame Protocol.certificate t.certificate.encode)
      = .ok () := by
    unfold validateCertificateMessage
    simp only [bind_eq_ok_iff, Protocol.parseCertificateMessage_eq_ok_iff]
    exact ⟨_, ⟨t.certificate, hct, rfl, rfl⟩, certificates, hload, rfl⟩
  refine TakenAs.cons _ _ _ _ (wellFramed_frame _ _ (by omega)) ?_
    ((checkMessage_eq_ok_iff X _ _ _).mpr ⟨rfl, fun h => absurd h (by decide)⟩)
    (TakenAs.cons _ _ _ _ (wellFramed_frame _ _ (by omega)) ?_
      ((checkMessage_eq_ok_iff X _ _ _).mpr ⟨rfl, fun _ => hcertificate⟩)
      (TakenAs.cons _ _ _ _ (wellFramed_frame _ _ (by omega)) ?_
        ((checkMessage_eq_ok_iff X _ _ _).mpr ⟨rfl, fun h => absurd h (by decide)⟩)
        (TakenAs.nil _)))
  -- The three messages are below the limit of the buffer.
  · rw [Protocol.length_frame]
    omega
  · rw [Protocol.length_frame]
    omega
  · rw [Protocol.length_frame]
    omega

/-- None of them is larger than the verifier admits. -/
theorem length_messages_of_tree {name challenge : Bytes} (t : ProofTree name challenge) :
    ∀ m ∈ [t.parsed.encryptedExtensions, t.parsed.certificate, t.parsed.certificateVerify],
      m.length ≤ Protocol.maxCertificateMessageSize := by
  have hmax : Protocol.maxCertificateMessageSize = 49152 := rfl
  have hee := t.encrypted_le
  have hct := t.certificate_le
  have hcv := t.verify_le
  intro m hm
  simp only [List.mem_cons, List.not_mem_nil, or_false] at hm
  rcases hm with rfl | rfl | rfl
  · rw [ProofTree.parsed, Protocol.length_frame]
    omega
  · rw [ProofTree.parsed, Protocol.length_frame]
    omega
  · rw [ProofTree.parsed, Protocol.length_frame]
    omega

/-- The client reads the ServerHello of an accepted proof whose ClientHello
    offers what its own does. -/
theorem parseServerHello_of_tree {name challenge sessionId : Bytes} {mask : Int}
    (t : ProofTree name challenge) (hstate : t.client.state = builtState sessionId mask)
    (hsession : sessionId.length = 32) :
    parseServerHello t.parsed.serverHello sessionId =
      .ok (t.server.cipherSuite, t.server.share.exchange) := by
  have hle := t.server_le
  have hgroups : t.client.state.keyShareGroups = [groupX25519] :=
    congrArg Protocol.ClientState.keyShareGroups hstate
  have hsessionId : t.client.state.legacySessionId = sessionId :=
    congrArg Protocol.ClientState.legacySessionId hstate
  have hgroup : t.server.share.group = groupX25519 := by
    have hoffered := t.server.share_offered
    rw [hgroups] at hoffered
    exact List.mem_singleton.mp hoffered
  have hserver := parseServerHello_eq_ok t.server (by rw [hsessionId]; omega) hgroup (by omega)
  rw [hsessionId] at hserver
  exact hserver

/-- The two loops receive a whole flight. -/
theorem receiveFlight_complete {A : Aead} {exchange : Bytes → Except PyErr Bytes} {keys : Keys}
    {sessionId clientHello serverHello ee ct cv rest : Bytes} {deadline : ℚ} {n : Net}
    {spare : Nat} {tail : List NetEvent} {encrypt : Bytes → Bytes → Bytes → Bytes}
    {records plain encrypted : List Record} {contents : List Bytes}
    (hkeys : flightKeys exchange sessionId clientHello serverHello = .ok keys)
    (hiv : keys.iv.length = 12) (hinv : Inverts A keys encrypt)
    (hframed : WellFramed serverHello) (hsize : serverHello.length ≤ maxCapturedHandshake)
    (htaken : TakenAs X expectedMessages [ee, ct, cv])
    (hsizes : ∀ m ∈ [ee, ct, cv], m.length ≤ 49152) (hsend : ∀ r ∈ records, r.Sendable)
    (hkept : kept records = plain ++ encrypted) (hplain : CarriesHello plain serverHello)
    (hsealed : SealedFrom encrypt keys 0 encrypted contents)
    (hcontents : contents.flatten = ee ++ ct ++ cv ++ rest)
    (hn : n.Supplies deadline spare tail (records.flatMap Record.wire)) :
    ∃ flight n', receiveFlight X A exchange sessionId clientHello deadline n = .ok (flight, n') ∧
      flight.serverHello = serverHello ∧ flight.encrypted.captured = [ee, ct, cv] := by
  have hne : plain ≠ [] := by
    rintro rfl
    have hnil : serverHello = [] := hplain.fragments.symm
    have hlen := hframed.1
    rw [hnil, List.length_nil] at hlen
    omega
  rw [← List.append_nil (records.flatMap Record.wire)] at hn
  rcases helloLoop_completes serverHello [] encrypted hframed hsize records plain [] n hsend hkept
    hne hplain.types hplain.ends (by rw [List.nil_append]; exact hplain.fragments) hn
    with ⟨taken, left, n₁, rfl, hleft, hfed, hn₁⟩
  have hsend₁ : ∀ r ∈ left, r.Sendable := fun r hr => hsend r (List.mem_append_right _ hr)
  rw [← hleft] at hsealed
  have hstanding : Standing [ee, ct, cv] rest contents.flatten ⟨[], [], 0⟩ := by
    refine ⟨rfl, ?_, fun _ => rfl⟩
    rw [hcontents]
    simp only [List.flatten_cons, List.flatten_nil, List.nil_append, List.append_nil,
      List.append_assoc, List.length_nil, List.drop_zero]
  rcases encryptedLoop_completes hinv hiv rest [] htaken rfl hsizes left contents ⟨[], [], 0⟩ n₁
    hsend₁ hsealed hstanding hn₁ with ⟨taken', left', s', n', rfl, hfed', hcaptured⟩
  -- Neither loop takes more records than the connection has bytes.
  have hcount := hn.length_le
  have hcount₁ := hn₁.length_le
  have hlen := length_le_wires _ hsend
  have hlen₁ := length_le_wires _ hsend₁
  rw [List.length_append] at hcount hcount₁ hlen hlen₁
  refine ⟨⟨serverHello, keys, s'⟩, n', (receiveFlight_eq_ok_iff X A _ _ _ _ _ _ _).mpr
    ⟨taken, taken', n₁, hfed, by omega, hkeys, hfed', by omega⟩, rfl, hcaptured⟩

/-- The records of a whole flight: the ServerHello in the clear, the rest
    encrypted, and records to be skipped anywhere between them. -/
structure CarriesFlight (encrypt : Bytes → Bytes → Bytes → Bytes) (keys : Keys)
    (records : List Record) (serverHello encryptedFlight : Bytes) : Prop where
  sendable : ∀ r ∈ records, r.Sendable
  split : ∃ plain encrypted contents, kept records = plain ++ encrypted ∧
    CarriesHello plain serverHello ∧ SealedFrom encrypt keys 0 encrypted contents ∧
    contents.flatten = encryptedFlight

/-- The connection is opened and the record of the ClientHello sent, for two
    readings of the clock. -/
theorem connectAndSend_eq_ok {a : Attempt} {endpoint : Endpoint} {clientHello : Bytes}
    {deadline : ℚ} {n : Net} {spare : Nat} {tail : List NetEvent} {stream : Bytes}
    (hsocket : a.socket endpoint.family endpoint.socketType endpoint.protocol = .ok ())
    (hconnect : a.connect endpoint.address = .ok ()) (hsendall : ∀ data, a.sendall data = .ok ())
    (hlen : clientHello.length < 65536)
    (hn : n.Supplies deadline (spare + 2) tail stream) :
    ∃ n', connectAndSend a endpoint clientHello deadline n = .ok ((), n') ∧
      n'.Supplies deadline spare tail stream := by
  rcases hn.arm_spare with ⟨t₁, n₁, htimeout₁, hset₁, hn₁⟩
  -- Being connected changes nothing about what the connection supplies.
  have hconnected : Net.Supplies deadline (spare + 1) tail stream
      { n₁ with peer := some endpoint.address } := ⟨hn₁.timely, hn₁.settimeout, hn₁.chunks⟩
  rcases hconnected.arm_spare with ⟨t₂, n₂, htimeout₂, hset₂, hn₂⟩
  have hrecord : record contentHandshake clientHello =
      .ok (be 1 contentHandshake ++ be 2 0x0301 ++ be 2 clientHello.length ++ clientHello) := by
    rw [record, singleByte_eq _ (by decide), u16_eq clientHello.length hlen]
    rfl
  refine ⟨{ n₂ with sent := n₂.sent ++
    (be 1 contentHandshake ++ be 2 0x0301 ++ be 2 clientHello.length ++ clientHello) }, ?_,
    ⟨hn₂.timely, hn₂.settimeout, hn₂.chunks⟩⟩
  unfold connectAndSend
  simp only [netM_bind_eq_ok_iff, netM_lift_eq_ok_iff]
  refine ⟨(), n, ⟨hsocket, rfl⟩, t₁, n₁, htimeout₁, (), n₁, hset₁, (), _, ?_, t₂, n₂, htimeout₂,
    (), n₂, hset₂, _, n₂, ⟨hrecord, rfl⟩, ?_⟩
  · rw [Attempt.connectTo, hconnect]
    rfl
  · rw [Attempt.send, hsendall]
    rfl

/-- The scheme of an accepted proof is one that the mask of its hello
    selects. -/
theorem scheme_mem_maskSchemes {name challenge sessionId : Bytes} {mask : Int}
    (t : ProofTree name challenge) (h : t.client.state = builtState sessionId mask) :
    t.verify.scheme ∈ maskSchemes mask := by
  have hschemes : t.client.state.signatureAlgorithms = maskSchemes mask :=
    congrArg Protocol.ClientState.signatureAlgorithms h
  rw [← hschemes]
  exact t.verify.scheme_offered

theorem captureProgram_eq_ok {A : Aead} {endpoint : Endpoint} {domain : Str} {challenge : Bytes}
    {mask : Int} {timeout : ℚ} {a : Attempt} {clientHello : Bytes} {m : TlsProofMessages}
    {n₁ n₂ : Net} {flight : Flight} {p : ParsedProof} (hmask : 1 ≤ mask ∧ mask ≤ 7)
    (htimeout : 0 < timeout)
    (hbuild : buildClientHello domain challenge a.publicKey a.sessionId mask = .ok clientHello)
    (hsent : connectAndSend a endpoint clientHello (a.net.clock a.net.ticks + timeout)
      { a.net with ticks := a.net.ticks + 1 } = .ok ((), n₁))
    (hflight : receiveFlight X A a.exchange a.sessionId clientHello
      (a.net.clock a.net.ticks + timeout) n₁ = .ok (flight, n₂))
    (hmessages : flightMessages clientHello endpoint.ip flight = .ok m)
    (hparse : parseProof m.encodedProof domain challenge = .ok p)
    (hscheme : p.certificateVerifyScheme ∈ maskSchemes mask) :
    captureTls13Proof X A endpoint domain challenge mask timeout a = .ok m := by
  have hprogram : captureProgram X A endpoint domain challenge mask timeout a a.net =
      .ok (m, n₂) := by
    unfold captureProgram
    simp only [netM_bind_eq_ok_iff, netM_lift_eq_ok_iff, netM_pure_eq_ok_iff, failIf_eq_ok_iff,
      signatureSchemeAllowed_eq mask _ hmask]
    refine ⟨mask, a.net, ⟨(validateSignatureAlgorithmsMask_eq_ok_iff _ _).mpr ⟨rfl, hmask⟩, rfl⟩,
      (), a.net, ⟨not_le.mpr htimeout, rfl⟩, clientHello, a.net, ⟨hbuild, rfl⟩, _, _, rfl, (), n₁,
      hsent, flight, n₂, hflight, m, n₂, ⟨hmessages, rfl⟩, p, n₂, ⟨hparse, rfl⟩, true, n₂,
      ⟨?_, rfl⟩, (), n₂, ⟨not_not.mpr rfl, rfl⟩, rfl, rfl⟩
    rw [decide_eq_true hscheme]
  rw [captureTls13Proof, hprogram]
  rfl

/-- No flight that the verifier would accept is lost on the way, however it is
    cut into records and chunks. -/
theorem capture_complete (X : X509 Cert Key) (A : Aead) (endpoint : Endpoint) (domain : Str)
    (challenge : Bytes) (mask : Int) (timeout : ℚ) (a : Attempt) (hd : CanonicalDomain domain)
    (hc : challenge.length = 32) (hkey : a.publicKey.length = 32)
    (hsession : a.sessionId.length = 32) (hmask : 1 ≤ mask ∧ mask ≤ 7) (htimeout : 0 < timeout)
    (hsocket : a.socket endpoint.family endpoint.socketType endpoint.protocol = .ok ())
    (hconnect : a.connect endpoint.address = .ok ())
    (hsendall : ∀ data, a.sendall data = .ok ()) :
    ∃ ch, buildClientHello domain challenge a.publicKey a.sessionId mask = .ok ch ∧
      ∀ (e : Bytes) (p : ParsedProof) (certificates : List Cert),
        parseProof e domain challenge = .ok p → p.clientHello = ch →
        loadCertificateChain X p.certificateChain = .ok certificates →
        ∃ suite share, parseServerHello p.serverHello a.sessionId = .ok (suite, share) ∧
          ∀ secret, a.exchange share = .ok secret →
            ∃ keys, deriveServerHandshakeKeys secret (ch ++ p.serverHello) suite = .ok keys ∧
              ∀ (encrypt : Bytes → Bytes → Bytes → Bytes) (rest : Bytes) (records : List Record)
                (tail : List NetEvent),
                Inverts A keys encrypt →
                CarriesFlight encrypt keys records p.serverHello
                  (p.encryptedExtensions ++ p.certificate ++ p.certificateVerify ++ rest) →
                a.net.Supplies (a.net.clock a.net.ticks + timeout) 3 tail
                  (records.flatMap Record.wire) →
                captureTls13Proof X A endpoint domain challenge mask timeout a =
                  .ok ⟨ch, p.serverHello, p.encryptedExtensions, p.certificate,
                    p.certificateVerify, endpoint.ip⟩ := by
  rcases hd.encode with ⟨name, hname, -, hlen⟩
  let i : HelloInputs :=
    ⟨name, challenge, a.publicKey, a.sessionId, mask, hlen, hkey, by omega, hmask⟩
  have hbuild := buildClientHello_eq_ok i domain hd hname hc (by change 1 ≤ a.sessionId.length; omega)
  refine ⟨_, hbuild, fun e p certificates hparse hch hload => ?_⟩
  rcases (Protocol.parseProof_eq_ok_iff e domain challenge p).mp hparse
    with ⟨-, -, -, -, name', hname', t, rfl, rfl⟩
  have hencode : t.client.encode = (builtHello i).encode := frame_inj hch
  have hstate : t.client.state = builtState a.sessionId mask :=
    state_eq_of_encode_eq hname' hname hc t.client (builtHello i) hencode
  have hserver := parseServerHello_of_tree t hstate hsession
  refine ⟨t.server.cipherSuite, t.server.share.exchange, hserver, fun secret hsecret => ?_⟩
  rcases deriveServerHandshakeKeys_eq_ok secret
    (frame Protocol.clientHello (builtHello i).encode ++ t.parsed.serverHello) t.server.cipherSuite
    t.server.cipherSuite_mem with ⟨keys, hkeys, -, hiv⟩
  refine ⟨keys, hkeys, fun encrypt rest records tail hinv hflight hnet => ?_⟩
  have hflightKeys : flightKeys a.exchange a.sessionId
      (frame Protocol.clientHello (builtHello i).encode) t.parsed.serverHello = .ok keys := by
    unfold flightKeys
    simp only [bind_eq_ok_iff, handle_error_eq_ok_iff]
    exact ⟨_, hserver, secret, hsecret, hkeys⟩
  rcases hflight.split with ⟨plain, encrypted, contents, hkept, hplain, hsealed, hcontents⟩
  have hclient_le := t.client_le
  rw [hencode] at hclient_le
  have hsize : (frame Protocol.clientHello (builtHello i).encode).length < 65536 := by
    rw [Protocol.length_frame]
    omega
  have hstart : Net.Supplies (a.net.clock a.net.ticks + timeout) 2 tail
      (records.flatMap Record.wire) { a.net with ticks := a.net.ticks + 1 } :=
    hnet.later rfl rfl (Nat.le_succ _) (by simp only; omega) hnet.chunks
  rcases connectAndSend_eq_ok hsocket hconnect hsendall hsize hstart with ⟨n₁, hsent, hn₁⟩
  have hserver_le := t.server_le
  have hmax : maxCapturedHandshake = 65536 := rfl
  rcases receiveFlight_complete hflightKeys hiv hinv (wellFramed_frame _ _ (by omega))
    (by rw [ProofTree.parsed, Protocol.length_frame]; omega) (takenAs_of_tree t hload)
    (length_messages_of_tree t) hflight.sendable hkept hplain hsealed hcontents hn₁
    with ⟨flight, n₂, hreceive, hserverHello, hcaptured⟩
  have hmessages : flightMessages (frame Protocol.clientHello (builtHello i).encode) endpoint.ip
      flight = .ok ⟨frame Protocol.clientHello (builtHello i).encode, t.parsed.serverHello,
        t.parsed.encryptedExtensions, t.parsed.certificate, t.parsed.certificateVerify,
        endpoint.ip⟩ := by
    rw [flightMessages, hcaptured, hserverHello]
    rfl
  -- The captured messages are the proof again.
  have hagain : parseProof (TlsProofMessages.encodedProof
      ⟨frame Protocol.clientHello (builtHello i).encode, t.parsed.serverHello,
        t.parsed.encryptedExtensions, t.parsed.certificate, t.parsed.certificateVerify,
        endpoint.ip⟩) domain challenge = .ok t.parsed := by
    rw [← hch]
    exact hparse
  exact captureProgram_eq_ok hmask htimeout hbuild hsent hreceive hmessages hagain
    (scheme_mem_maskSchemes t hstate)

end Completeness

/-! ### A table for an AEAD -/

section Table

/-- One encryption: nonce, plaintext, header and what they encrypt to. -/
structure SealedRecord where
  nonce : Bytes
  plaintext : Bytes
  header : Bytes
  ciphertext : Bytes
  deriving DecidableEq

/-- The last 16 bytes. -/
def tagOf (ciphertext : Bytes) : Bytes :=
  ciphertext.drop (ciphertext.length - 16)

/-- An encryption that agrees with a table, and elsewhere has a tag of zeros. -/
def tableEncrypt (table : List SealedRecord) (nonce plaintext header : Bytes) : Bytes :=
  match table.find? fun x => x.nonce == nonce && x.plaintext == plaintext && x.header == header with
  | some x => x.ciphertext
  | none => plaintext ++ List.replicate 16 0

/-- Decryption by looking up what was encrypted. -/
def tableDecrypt (table : List SealedRecord) (itsKey key nonce ciphertext header : Bytes) :
    Except PyErr Bytes :=
  if key ≠ itsKey then .error ⟨.invalidTag, ""⟩
  else match table.find? fun x =>
      x.nonce == nonce && x.header == header && x.ciphertext == ciphertext with
    | some x => .ok x.plaintext
    | none =>
        if tagOf ciphertext = List.replicate 16 0 then
          .ok (ciphertext.take (ciphertext.length - 16))
        else .error ⟨.invalidTag, ""⟩

/-- The decryptions of a table for one key of ChaCha20-Poly1305. -/
def tableAead (table : List SealedRecord) (itsKey : Bytes) : Aead where
  aesGcmDecrypt _ _ _ _ := .error ⟨.invalidTag, ""⟩
  chacha20Poly1305Decrypt := tableDecrypt table itsKey

/-- A table opens what it seals, if a ciphertext stands in it once for its
    nonce and header and has a tag that is not zero. -/
theorem inverts_tableAead (table : List SealedRecord) (keys : Keys)
    (hsuite : keys.cipherSuite ≠ Protocol.tlsAes128GcmSha256)
    (hunique : ∀ x ∈ table, ∀ y ∈ table, x.nonce = y.nonce → x.header = y.header →
      x.ciphertext = y.ciphertext → x.plaintext = y.plaintext)
    (htag : ∀ x ∈ table, tagOf x.ciphertext ≠ List.replicate 16 0) :
    Inverts (tableAead table keys.key) keys (tableEncrypt table) := by
  intro nonce plaintext header _ _
  rw [Aead.decrypt, if_neg hsuite]
  change tableDecrypt table keys.key keys.key nonce (tableEncrypt table nonce plaintext header)
    header = .ok plaintext
  rw [tableDecrypt, if_neg (not_not.mpr rfl)]
  unfold tableEncrypt
  cases hseal : table.find? fun x =>
      x.nonce == nonce && x.plaintext == plaintext && x.header == header with
  -- The plaintext is in the table, and its ciphertext stands there once.
  | some x =>
      have hx := List.find?_some hseal
      simp only [Bool.and_eq_true, beq_iff_eq] at hx
      cases hopen : table.find? fun y =>
          y.nonce == nonce && y.header == header && y.ciphertext == x.ciphertext with
      | some y =>
          have hy := List.find?_some hopen
          simp only [Bool.and_eq_true, beq_iff_eq] at hy
          have heq := hunique y (List.mem_of_find?_eq_some hopen) x
            (List.mem_of_find?_eq_some hseal) (hy.1.1.trans hx.1.1.symm) (hy.1.2.trans hx.2.symm)
            hy.2
          simp only [heq, hx.1.2]
      -- The ciphertext of an entry is found at least as that entry.
      | none =>
          have hno := List.find?_eq_none.mp hopen x (List.mem_of_find?_eq_some hseal)
          simp only [hx.1.1, hx.2, beq_self_eq_true, Bool.and_self, not_true_eq_false] at hno
  -- The plaintext is not in the table: it is sealed with a tag of zeros, which no entry has.
  | none =>
      have hlen : (plaintext ++ List.replicate 16 (0 : UInt8)).length - 16 = plaintext.length := by
        rw [List.length_append, List.length_replicate, Nat.add_sub_cancel]
      have hzeros : tagOf (plaintext ++ List.replicate 16 0) = List.replicate 16 0 := by
        rw [tagOf, hlen, List.drop_left]
      cases hopen : table.find? fun y => y.nonce == nonce && y.header == header &&
          y.ciphertext == plaintext ++ List.replicate 16 0 with
      | some y =>
          have hy := List.find?_some hopen
          simp only [Bool.and_eq_true, beq_iff_eq] at hy
          refine absurd ?_ (htag y (List.mem_of_find?_eq_some hopen))
          rw [hy.2, hzeros]
      | none => simp only [hzeros, hlen, if_true, List.take_left']

end Table

/-! ### A session -/

section Session

open Protocol (frame parseProof vectorDomain vectorChallenge)

/-- The client's public key in the session. -/
def sessionPublicKey : Bytes :=
  octets 32 0x7b4e909bbe7ffe44c465a220037d608ee35897d31ef972f07f74892cb0f73f13

/-- The session id that the client draws. -/
def sessionId : Bytes :=
  List.replicate 32 0x33

/-- The server's public key in the session. -/
def sessionServerKey : Bytes :=
  octets 32 0x0faa684ed28867b97f4a6a2dee5df8ce974e76b7018e3f22a1c4cf2678570f20

/-- What the two keys are exchanged for. -/
def sessionSecret : Bytes :=
  octets 32 0x9e004098efc091d4ec2663b4e9f5cfd4d7064571690b4bea97ab146ab9f35056

/-- The keys that follow from the secret and the hellos. -/
def sessionKeys : Keys where
  cipherSuite := 0x1303
  key := octets 32 0x74b64928eee40a8405be4bdeca60390d06642c84bd34cd0016eb3a09fdfaa887
  iv := octets 12 0xb809dd0d9f4768e08a2c8945

/-- The session's ClientHello. -/
def sessionClientHello : Bytes :=
  octets 200 0x010000c4030300a5b6140404ff1e4ceeb8ba3bee84dda4908938959da4d05feae4a8b6ad62c02033333333333333333333333333333333333333333333333333333333333333330004130113030100007700000010000e00000b6578616d706c652e636f6d000a00040002001d000d000800060403080408090032001a00180403050306030804080508060809080a080b040105010601002b0003020304003300260024001d00207b4e909bbe7ffe44c465a220037d608ee35897d31ef972f07f74892cb0f73f13

/-- The session's ServerHello. -/
def sessionServerHello : Bytes :=
  octets 122 0x0200007603034444444444444444444444444444444444444444444444444444444444444444203333333333333333333333333333333333333333333333333333333333333333130300002e002b0002030400330024001d00200faa684ed28867b97f4a6a2dee5df8ce974e76b7018e3f22a1c4cf2678570f20

/-- The session's EncryptedExtensions. -/
def sessionEncryptedExtensions : Bytes :=
  be 6 0x080000020000

/-- The Certificate message for a chain of one certificate. -/
def certificateMessage (der : Bytes) : Bytes :=
  frame 11 (vec 1 [] ++ vec 3 (vec 3 der ++ vec 2 []))

/-- The session's CertificateVerify. -/
def sessionVerify : Bytes :=
  frame 15 (be 2 0x0403 ++ vec 2 sampleSignature)

/-- The session's messages. -/
def sessionMessages : TlsProofMessages where
  clientHello := sessionClientHello
  serverHello := sessionServerHello
  encryptedExtensions := sessionEncryptedExtensions
  certificate := certificateMessage leafDer
  certificateVerify := sessionVerify
  peerIp := Str.ofString "192.0.2.1"

/-- The front of the message that follows the flight. -/
def sessionRest : Bytes :=
  be 5 0x1400002000

/-- The encrypted part of the flight. -/
def sessionContents : Bytes :=
  sessionEncryptedExtensions ++ certificateMessage leafDer ++ sessionVerify ++ sessionRest

/-- The first encrypted record, with three bytes of padding. -/
def firstRecord : Record :=
  ⟨23, be 5 0x1703030078, octets 120 0x8cbee040d0b0cf5bcbf6ad7bfc6dbbbbf2593b0a736f8e86f4ab73a94854f4230c30f3df0b167e7f4f1d4f65e70e3f40890781d0763ebd67fd9fc8e5201e655d0020625112aa9d823cde4820cab74604776ec307652a5d7c7ce4b8190e0da5e127d0d25935df65de287bbf7ee41446a8159e5200c98b4c60⟩

/-- The second encrypted record, with the rest of the flight. -/
def secondRecord : Record :=
  ⟨23, be 5 0x170303019f, octets 415 0x8dad8d7e0997730afa1179c05d73b04870e95d97b845b018d4d8c636cbf4b68462bb10b8d4ab08af5227b8a046271a78addaa6979980c839bce8bbb9e15a0457a6777bd2ceaf61edbe27886b082bd7080f8b87c85192eed20c82ff9ef09aed066ab121102a3fd6f93ac8ac60e3fdc8d8f386e2e7524aff957ca2a6afeaa1be0797f07397a3c48ad519b72e8b600f0077f970aeb95f0684796bc45715c4bcc721f79a60d0ce77dc782ee3481d77f7f739d3ea4cc8099e4a5a10c680b967944089f3b3255f6e3f5ef7dd405057cf3fd7e9a4b5c3727059e1f3befcd1429cd2f31618bce18d9f3a34e601f77db4a929b0469cbaf2618abc0a598401833e9f6fed44710fd88d34727b6be8606f6b924b6e95e938701d2ff4257eeff0b4ac6fd0bdbdc54aaae7225a14f48d0c332a389d708a98524d400d438c12776d205b5fa8d79da2923713866af3c381b4a076ae94d6721605a52ece4614dd1c5b33c737e6dbfbc5ef32d360d1cab7f986bb193d9349551610bbc648bcb5be6b0b283159cdd6786f4274592495e77b52ec70c440d22fb102d1f670f834de382f8558e228ff82⟩

/-- The record of a server whose leaf has an invalid version. -/
def invalidVersionRecord : Record :=
  ⟨23, be 5 0x17030301af, octets 431 0x8cbee040d0b0cf5bcbf6ad7bfc6dbbbbf2593b0a736f8e86f4ab73a94855f4230c30f3df0b167e7f4f1d4f65e70e3f40890781d0763ebd67fd9fc8e5201e655d0020625112aa9d823cde4820cab74604776ec307652a5d7c7ce4b8190e0da5e127d0d259208a61dd26fb6eec40d5b0e92a2c51af6169aa355898693411607766fa37d1b53379367d33b65cbc1b3dbeebd330e4a9715171115ac757b74d55fa93e3b00e78b1f4c30a239c193a2e0c6ab871bbd9fdb1f07248014e8831e5133d1dac9c1b28390a7fa92c0d60d9348e6c8c1a2e04fc0821f650386788a6916a040def96595878d0e5a64dcdb43f7a38c9f042246a8d34acbcf5722a1a71119e94d647b87648078239db25bd47754aaa48551491e0a286a0fb98d571d0013d83efda665cd0d92fee6a54f7c172554cf6482712146a866a59e8ae478f538edece87bae4ed848b446e5a2ae861e4abe4509d1bff1131e1f907ab7b6ee692fbeab2340354e75bdc877895521882898b6792d7e4d6dad334bfe165d7642c4d8e947755788d684ad77e168d931c80a7b58535e97819bfc3fce5a8f14e2f7a014fc62853fafcd10de946b733b5c61a67a87c6c63⟩

/-- What is encrypted in the session, and in one with another certificate. -/
def sessionTable : List SealedRecord :=
  [⟨nonceOf sessionKeys.iv 0, sessionContents.take 100 ++ [22] ++ List.replicate 3 0,
      firstRecord.header, firstRecord.fragment⟩,
    ⟨nonceOf sessionKeys.iv 1, sessionContents.drop 100 ++ [22] ++ List.replicate 0 0,
      secondRecord.header, secondRecord.fragment⟩,
    ⟨nonceOf sessionKeys.iv 0,
      sessionEncryptedExtensions ++ certificateMessage invalidVersionDer ++ [22],
      invalidVersionRecord.header, invalidVersionRecord.fragment⟩]

/-- An AEAD that knows what is encrypted in the session. -/
def sessionAead : Aead :=
  tableAead sessionTable sessionKeys.key

/-- The records with the ServerHello, in two pieces and around a record that
    is skipped. -/
def helloRecords : List Record :=
  [⟨22, be 5 0x1603030014, sessionServerHello.take 20⟩, ⟨20, be 5 0x1403030001, [1]⟩,
    ⟨22, be 5 0x1603030066, sessionServerHello.drop 20⟩]

/-- All records of the session. -/
def sessionRecords : List Record :=
  helloRecords ++ [firstRecord, secondRecord]

/-- An attempt whose connection delivers the pieces. -/
def attemptOn (pieces : List Bytes) : Attempt where
  publicKey := sessionPublicKey
  sessionId := sessionId
  exchange share := if share = sessionServerKey then .ok sessionSecret
    else .error (valueError "An X25519 public key is 32 bytes long")
  socket _ _ _ := .ok ()
  connect _ := .ok ()
  sendall _ := .ok ()
  net := { clock _ := 0, ticks := 0, settimeout _ := .ok (), events := pieces.map NetEvent.data }

/-- The bytes of the records, in three pieces. -/
def piecesOf (records : List Record) : List Bytes :=
  let stream := records.flatMap Record.wire
  [stream.take 3, (stream.drop 3).take 300, stream.drop 303]

/-- Where the session's server is. -/
def sessionEndpoint : Endpoint where
  family := 2
  socketType := 1
  protocol := 6
  address := Str.ofString "192.0.2.1"
  ip := Str.ofString "192.0.2.1"

-- The messages are lists of some hundred bytes.
set_option maxRecDepth 20000

theorem buildClientHello_session :
    buildClientHello vectorDomain vectorChallenge sessionPublicKey sessionId 7 =
      .ok sessionClientHello := by
  decide +kernel

theorem parseServerHello_session :
    parseServerHello sessionServerHello sessionId = .ok (0x1303, sessionServerKey) := by
  rfl

theorem loadCertificateChain_session :
    loadCertificateChain sampleX509 [leafDer] = .ok [leafDer] := by
  rfl

/-- The table of the session seals and opens under the session's keys. -/
theorem inverts_sessionAead : Inverts sessionAead sessionKeys (tableEncrypt sessionTable) :=
  inverts_tableAead sessionTable sessionKeys (by decide) (by decide) (by decide)

theorem carriesFlight_session :
    CarriesFlight (tableEncrypt sessionTable) sessionKeys sessionRecords sessionServerHello
      sessionContents := by
  refine ⟨?_, [⟨22, be 5 0x1603030014, sessionServerHello.take 20⟩,
      ⟨22, be 5 0x1603030066, sessionServerHello.drop 20⟩], [firstRecord, secondRecord],
    [sessionContents.take 100, sessionContents.drop 100], by decide, ?_, ?_, ?_⟩
  -- The headers of the records.
  · have hsend : ∀ r ∈ sessionRecords, r.contentType < 256 ∧
        r.fragment.length ≤ maxTlsCiphertext ∧
        r.header = be 1 r.contentType ++ be 2 0x0303 ++ be 2 r.fragment.length := by
      decide
    exact fun r hr => ⟨0x0303, (hsend r hr).1, by decide, by decide, (hsend r hr).2⟩
  -- The ServerHello in the clear, in two pieces.
  · refine ⟨by decide, by decide, fun r hr => ?_⟩
    rw [← Option.some.inj hr]
    decide
  -- The two sealed records, under the first two nonces.
  · refine SealedFrom.cons 0 _ _ _ _ ⟨rfl, by decide, by decide, 3, by decide, by rfl⟩
      (SealedFrom.cons 1 _ _ _ _ ⟨rfl, by decide, by decide, 0, by decide, by rfl⟩
        (SealedFrom.nil 2))
  · decide

theorem supplies_attemptOn (pieces : List Bytes) (spare : Nat) (h : ∀ piece ∈ pieces, piece ≠ []) :
    (attemptOn pieces).net.Supplies (0 + 10) spare [] pieces.flatten := by
  have hdeadline : (0 : ℚ) < 0 + 10 := by
    rw [Rat.zero_add]
    decide
  refine ⟨fun _ _ _ => hdeadline, fun _ _ _ => rfl, pieces, h, ?_, rfl⟩
  rw [List.append_nil]
  rfl

theorem flatten_piecesOf (records : List Record) :
    (piecesOf records).flatten = records.flatMap Record.wire := by
  simp only [piecesOf, List.flatten_cons, List.flatten_nil, List.append_nil]
  rw [show 303 = 3 + 300 from rfl, ← List.drop_drop, List.take_append_drop,
    List.take_append_drop]

theorem supplies_piecesOf (records : List Record) (spare : Nat)
    (h : ∀ piece ∈ piecesOf records, piece ≠ []) :
    (attemptOn (piecesOf records)).net.Supplies (0 + 10) spare []
      (records.flatMap Record.wire) := by
  rw [← flatten_piecesOf records]
  exact supplies_attemptOn (piecesOf records) spare h

theorem piecesOf_sessionRecords_ne_nil : ∀ piece ∈ piecesOf sessionRecords, piece ≠ [] := by
  decide

/-- What the encrypted part of the flight is taken apart into. -/
theorem popMessages_session : popMessages sampleX509 expectedMessages [] sessionContents =
    .ok ([sessionEncryptedExtensions, certificateMessage leafDer, sessionVerify], sessionRest) := by
  rfl

theorem wellFramed_sessionServerHello : WellFramed sessionServerHello :=
  ⟨by decide, by decide⟩

/-- None of the session's messages is too long. -/
theorem length_session_messages : sessionServerHello.length ≤ maxCapturedHandshake ∧
    ∀ m ∈ [sessionEncryptedExtensions, certificateMessage leafDer, sessionVerify],
      m.length ≤ 49152 := by
  decide

theorem deriveServerHandshakeKeys_session :
    deriveServerHandshakeKeys sessionSecret (sessionClientHello ++ sessionServerHello) 0x1303 =
      .ok sessionKeys := by
  decide +kernel

theorem parseProof_session :
    ∃ p, parseProof sessionMessages.encodedProof vectorDomain vectorChallenge = .ok p ∧
      (p.messages, p.certificateChain, p.transcriptHash, p.certificateVerifySignature,
        p.certificateVerifyScheme) =
        ([sessionClientHello, sessionServerHello, sessionEncryptedExtensions,
          certificateMessage leafDer, sessionVerify], [leafDer], sampleTranscriptHash,
          sampleSignature, 0x0403) := by
  have hok : ((parseProof sessionMessages.encodedProof vectorDomain vectorChallenge).map fun p =>
      (p.messages, p.certificateChain, p.transcriptHash, p.certificateVerifySignature,
        p.certificateVerifyScheme)).toOption =
      some ([sessionClientHello, sessionServerHello, sessionEncryptedExtensions,
        certificateMessage leafDer, sessionVerify], [leafDer], sampleTranscriptHash,
        sampleSignature, 0x0403) := by decide +kernel
  exact Protocol.exists_of_toOption hok

theorem capture_session :
    captureTls13Proof sampleX509 sessionAead sessionEndpoint vectorDomain vectorChallenge 7 10
      (attemptOn (piecesOf sessionRecords)) = .ok sessionMessages := by
  rcases parseProof_session with ⟨p, hp, hfacts⟩
  simp only [Prod.mk.injEq, Protocol.ParsedProof.messages, List.cons.injEq, and_true] at hfacts
  rcases hfacts with ⟨⟨hch, hsh, hee, hct, hcv⟩, hchain, -⟩
  rcases capture_complete sampleX509 sessionAead sessionEndpoint vectorDomain vectorChallenge 7 10
    (attemptOn (piecesOf sessionRecords)) ((isCanonicalDomain_iff _).mp canonical_vectorDomain)
    (by decide) (by decide)
    (by decide) (by decide) (by decide) rfl rfl (fun _ => rfl) with ⟨ch, hbuild, hcapture⟩
  have hbuilt : ch = sessionClientHello :=
    Except.ok.inj (hbuild.symm.trans buildClientHello_session)
  subst hbuilt
  -- The server answers with the messages of its proof.
  rcases hcapture _ p [leafDer] hp hch (by rw [hchain]; exact loadCertificateChain_session)
    with ⟨suite, share, hserver, hshare⟩
  rw [hsh] at hserver
  rcases Prod.mk.inj (Except.ok.inj (hserver.symm.trans parseServerHello_session)) with ⟨rfl, rfl⟩
  have hexchange : (attemptOn (piecesOf sessionRecords)).exchange sessionServerKey =
      .ok sessionSecret := by
    simp only [attemptOn, if_true]
  rcases hshare sessionSecret hexchange with ⟨keys, hkeys, hdelivered⟩
  rw [hsh] at hkeys
  have hsame : keys = sessionKeys :=
    Except.ok.inj (hkeys.symm.trans deriveServerHandshakeKeys_session)
  subst hsame
  -- The records arrive in pieces of 3, 300 and the remaining bytes.
  have hmessages := hdelivered (tableEncrypt sessionTable) sessionRest sessionRecords []
    inverts_sessionAead (by rw [hsh, hee, hct, hcv]; exact carriesFlight_session)
    (supplies_piecesOf sessionRecords 3 piecesOf_sessionRecords_ne_nil)
  rw [hsh, hee, hct, hcv] at hmessages
  exact hmessages

/-- The two loops finish on the session's pieces, with its messages. -/
theorem receiveFlight_session :
    ∃ flight n', receiveFlight sampleX509 sessionAead (attemptOn []).exchange sessionId
      sessionClientHello (0 + 10) (attemptOn (piecesOf sessionRecords)).net = .ok (flight, n') ∧
      flight.serverHello = sessionServerHello ∧ flight.encrypted.captured =
        [sessionEncryptedExtensions, certificateMessage leafDer, sessionVerify] := by
  have hkeys : flightKeys (attemptOn []).exchange sessionId sessionClientHello sessionServerHello =
      .ok sessionKeys := by
    unfold flightKeys
    simp only [bind_eq_ok_iff, handle_error_eq_ok_iff]
    exact ⟨_, parseServerHello_session, sessionSecret, by simp only [attemptOn, if_true],
      deriveServerHandshakeKeys_session⟩
  rcases carriesFlight_session.split with ⟨plain, encrypted, contents, hkept, hplain, hsealed,
    hcontents⟩
  -- The messages are taken out, as the loop does on the whole content.
  have htaken : TakenAs sampleX509 expectedMessages [sessionEncryptedExtensions,
      certificateMessage leafDer, sessionVerify] := by
    rcases (popMessages_eq_ok_iff sampleX509 _ _ _ _ _).mp popMessages_session
      with ⟨messages, hmessages, -, htaken, -⟩
    rw [hmessages]
    exact htaken
  exact receiveFlight_complete hkeys rfl inverts_sessionAead wellFramed_sessionServerHello
    length_session_messages.1 htaken length_session_messages.2 carriesFlight_session.sendable hkept
    hplain hsealed hcontents (supplies_piecesOf sessionRecords 0 piecesOf_sessionRecords_ne_nil)

/-- The flight that the client returns on the session: it holds the session's
    messages, and they are what the records carried. -/
theorem receiveFlight_session_sound :
    ∃ (flight : Flight) (n' : Net), receiveFlight sampleX509 sessionAead (attemptOn []).exchange
        sessionId sessionClientHello (0 + 10) (attemptOn (piecesOf sessionRecords)).net =
          .ok (flight, n') ∧
      flight.serverHello = sessionServerHello ∧ flight.encrypted.captured =
        [sessionEncryptedExtensions, certificateMessage leafDer, sessionVerify] ∧
      ∃ (plain encrypted : List Record) (n₁ : Net) (contents : List Bytes),
        Delivers (recvRecord (0 + 10)) (attemptOn (piecesOf sessionRecords)).net plain n₁ ∧
        Delivers (recvRecord (0 + 10)) n₁ encrypted n' ∧
        ((kept plain).map Record.fragment).flatten = flight.serverHello ∧
        OpenedInOrder sessionAead flight.keys (kept encrypted) contents ∧
        contents.flatten =
          flight.encrypted.captured.flatten ++ flight.encrypted.encryptedHandshake := by
  rcases receiveFlight_session with ⟨flight, n', hflight, hserverHello, hmessages⟩
  rcases (receiveFlight_sound sampleX509 sessionAead (attemptOn []).exchange sessionId
    sessionClientHello (0 + 10) (attemptOn (piecesOf sessionRecords)).net).1 flight n' hflight
    with ⟨plain, encrypted, n₁, contents, hplain, hencrypted, -, -, hhello, hopened,
      ⟨ee, ct, cv, hcaptured, hcontents, -⟩, -⟩
  refine ⟨flight, n', hflight, hserverHello, hmessages, plain, encrypted, n₁, contents, hplain,
    hencrypted, hhello, hopened, ?_⟩
  rw [hcontents, hcaptured]
  simp only [List.flatten_cons, List.flatten_nil, List.append_nil, List.append_assoc]

end Session

end P2CTools.Tls13
