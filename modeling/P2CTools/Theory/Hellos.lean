import P2CTools.Theory.CaptureErrors
import P2CTools.Theory.Completeness

/-!
# The Two Hellos

Each hello of the handshake is handled twice, by the client and by the
verifier, in code that shares nothing. What one side writes or reads is
compared here with what the other side reads.

The ClientHello is written by the client and read back by the verifier's
parser. It is a tree of the grammar, so the parser returns what the tree
offers. As a hello in front of a proof can be cut off in one way only, every
accepted proof that begins with it is checked against the same offer, and the
client's last test of the scheme never fails. To say so, `captureRaising` is
the capture with a free choice of the exception in that place.

The ServerHello is read by both. The client cuts it by position, the verifier
takes it from a reader. Going back from the client's parser, each piece that
it cuts out is followed by the rest of the message, so that the pieces put
together are the message, which is then a tree of the grammar. The limits on
the size of a message differ between the two, and are never in reach: a
ServerHello with two extensions of known size has one length.

## Main definitions

* `captureRaising`: The capture with another exception at its last test.

## Theorems

* `built_clientHello`: The hello of the client is a tree.
* `readHandshake_whole_iff`: A message that is consumed whole.
* `signatureSchemeAllowed_of_parseProof`: The mask binds the signature.
* `captureRaising_eq`: The last test never fails.
* `clientHello_round_trip`: The ClientHello, written and read back.
* `entries_of_parseExtensionsLoop`: What the client's loop returns stands in
  the message.
* `tree_of_parseServerHello`: What the client reads is a tree.
* `length_serverHello`: The one length of a ServerHello.
* `serverHello_parsers_agree`: The ServerHello, read by both sides.
-/

namespace P2CTools.Tls13

open Wire Grammar
open Protocol (frame Block Extension ClientState)

section ClientHello

/-- A message is consumed whole exactly when it is one frame. -/
theorem readHandshake_whole_iff {type maximum : Nat} {name : String} (htype : type < 256)
    (hmax : maximum < 16777216) (message : Bytes) (h : Protocol.Handshake) :
    Protocol.readHandshake type maximum name ⟨message, 0⟩ = (.ok h, ⟨message, message.length⟩) ↔
      ∃ body, message = frame type body ∧ body.length + 4 ≤ maximum ∧
        h = ⟨frame type body, body⟩ := by
  refine (Protocol.parses_readHandshake type maximum name htype hmax [] message h
    ⟨message, message.length⟩).trans ?_
  constructor
  · rintro ⟨b, t, hmessage, ⟨body, rfl, hlen, rfl⟩, hend⟩
    have hlength := congrArg Cursor.position hend
    simp only [List.nil_append] at hlength
    -- The cursor is at the end, so nothing is behind the frame.
    have ht : t = [] := by
      rw [hmessage, List.length_append] at hlength
      exact List.eq_nil_of_length_eq_zero (by omega)
    rw [ht, List.append_nil] at hmessage
    exact ⟨body, hmessage, hlen, rfl⟩
  · rintro ⟨body, rfl, hlen, rfl⟩
    exact ⟨frame type body, [], (List.append_nil _).symm, ⟨body, rfl, hlen, rfl⟩, rfl⟩

variable {domain : Str} {challenge publicKey sessionId : Bytes} {mask : Int}

/-- The hello that the client builds is a tree of the grammar, it is small, and
    it offers the client's suites, its mask and its group. -/
theorem built_clientHello (hd : isCanonicalDomain domain = true) (hc : challenge.length = 32)
    (hkey : publicKey.length = 32) (hsession : 1 ≤ sessionId.length ∧ sessionId.length ≤ 32)
    (hmask : 1 ≤ mask ∧ mask ≤ 7) :
    ∃ (name : Bytes) (t : Grammar.ClientHello name challenge), encodeAscii domain = .ok name ∧
      buildClientHello domain challenge publicKey sessionId mask =
        .ok (frame Protocol.clientHello t.encode) ∧
      t.state = builtState sessionId mask ∧ t.encode.length ≤ 453 := by
  have hcanonical := (isCanonicalDomain_iff domain).mp hd
  rcases hcanonical.encode with ⟨name, hname, -, hlen⟩
  let i : HelloInputs :=
    ⟨name, challenge, publicKey, sessionId, mask, hlen, hkey, hsession.2, hmask⟩
  exact ⟨name, builtHello i, hname, buildClientHello_eq_ok i domain hcanonical hname hc hsession.1,
    state_builtHello i, length_builtHello i hc⟩

/-- Two hellos at the front of what is the same are the same, and were written
    for one name and one challenge. -/
theorem clientHello_of_append_eq {name name' challenge' rest rest' : Bytes}
    (t : Grammar.ClientHello name challenge) (u : Grammar.ClientHello name' challenge')
    (ht : t.encode.length < 16777216) (hu : u.encode.length < 16777216)
    (hlen : challenge.length = challenge'.length)
    (h : frame Protocol.clientHello t.encode ++ rest =
      frame Protocol.clientHello u.encode ++ rest') :
    t.encode = u.encode ∧ challenge = challenge' ∧ name = name' := by
  have hfirst := (wellFramed_selfDelimiting _ _ rest rest' (wellFramed_frame _ _ ht)
    (wellFramed_frame _ _ hu) h).1
  have hencode := frame_inj hfirst
  exact ⟨hencode, t.encode_inj u hlen hencode⟩

/-- A proof that begins with a hello of the client is signed with a scheme of
    the hello's mask, whatever the server's messages are. -/
theorem signatureSchemeAllowed_of_parseProof {name : Bytes} (t : Grammar.ClientHello name challenge)
    (hname : encodeAscii domain = .ok name) (hc : challenge.length = 32)
    (hmask : 1 ≤ mask ∧ mask ≤ 7) (hstate : t.state = builtState sessionId mask)
    (hlen : t.encode.length ≤ 453) {rest c : Bytes} {d : Str} {p : Protocol.ParsedProof}
    (hparse : Protocol.parseProof ([UInt8.ofNat Protocol.proofVersion] ++
      frame Protocol.clientHello t.encode ++ rest) d c = .ok p) :
    signatureSchemeAllowed mask p.certificateVerifyScheme = .ok true := by
  rcases (Protocol.parseProof_eq_ok_iff _ d c p).mp hparse
    with ⟨-, hc', -, -, name', hname', u, hencoded, rfl⟩
  have hle := u.client_le
  -- The tree of the proof begins with the client's own hello.
  have hfront : frame Protocol.clientHello t.encode ++ rest =
      frame Protocol.clientHello u.client.encode ++ (u.messages.drop 1).flatten := by
    rw [ProofTree.encode, List.append_assoc] at hencoded
    exact (List.cons.inj hencoded).2
  rcases clientHello_of_append_eq t u.client (by omega) (by omega) (hc.trans hc'.symm) hfront
    with ⟨hencode, rfl, rfl⟩
  have hsame : u.client.state = builtState sessionId mask := by
    rw [← hstate]
    exact state_eq_of_encode_eq hname hname hc u.client t hencode.symm
  rw [signatureSchemeAllowed_eq mask _ hmask]
  exact congrArg Except.ok (decide_eq_true (scheme_mem_maskSchemes u hsame))

/-- The parser compares a challenge with 32 bytes of the hello. -/
theorem length_challenge_of_parseClientHello {body c : Bytes} {d : Str} {client : ClientState}
    (h : Protocol.parseClientHello body d c = .ok client) : c.length = 32 := by
  unfold Protocol.parseClientHello at h
  rw [runCursor_eq_ok_iff] at h
  simp only [Reader.accepts_u16_bind, accepts_raiseIf_bind, Reader.accepts_read_bind, ne_eq,
    not_not] at h
  rcases h with ⟨version, t, -, -, -, random, t₁, -, hlen, rfl, -⟩
  exact hlen

/-- A hello is rejected for a domain or a challenge that it was not written
    for. -/
theorem parseClientHello_rejects {name : Bytes} (t : Grammar.ClientHello name challenge)
    (hname : encodeAscii domain = .ok name) (hc : challenge.length = 32) {d : Str} {c : Bytes}
    (hother : ¬ (d = domain ∧ c = challenge)) :
    ∃ e, Protocol.parseClientHello t.encode d c = .error e := by
  cases hrun : Protocol.parseClientHello t.encode d c with
  | error e => exact ⟨e, rfl⟩
  | ok client =>
      refine absurd ?_ hother
      have hc' : c.length = 32 := length_challenge_of_parseClientHello hrun
      rcases (Protocol.parseClientHello_eq_ok_iff _ d c hc' client).mp hrun
        with ⟨name', hname', u, hencode, -⟩
      rcases t.encode_inj u (hc.trans hc'.symm) hencode with ⟨rfl, rfl⟩
      exact ⟨encodeAscii_inj d domain name hname' hname, rfl⟩

end ClientHello

section DisallowedScheme

variable {Cert Key : Type} (X : X509 Cert Key)

/-- The capture with an exception of one's choice where the last test raises. -/
def captureRaising (disallowed : PyErr) (A : Aead) (endpoint : Endpoint) (domain : Str)
    (challenge : Bytes) (signatureAlgorithmsMask : Int) (timeout : ℚ) (a : Attempt) :
    NetM TlsProofMessages := do
  let _ ← NetM.lift (validateSignatureAlgorithmsMask (.int signatureAlgorithmsMask))
  NetM.lift (failIf (timeout ≤ 0) (tlsError "connection timeout must be finite and positive"))
  let clientHello ← NetM.lift
    (buildClientHello domain challenge a.publicKey a.sessionId signatureAlgorithmsMask)
  let started ← monotonic
  connectAndSend a endpoint clientHello (started + timeout)
  let flight ← receiveFlight X A a.exchange a.sessionId clientHello (started + timeout)
  let result ← NetM.lift (flightMessages clientHello endpoint.ip flight)
  let parsed ← NetM.lift (Protocol.parseProof result.encodedProof domain challenge)
  let allowed ← NetM.lift
    (signatureSchemeAllowed signatureAlgorithmsMask parsed.certificateVerifyScheme)
  NetM.lift (failIf (¬allowed) disallowed)
  return result

theorem captureRaising_own (A : Aead) (endpoint : Endpoint) (domain : Str) (challenge : Bytes)
    (mask : Int) (timeout : ℚ) (a : Attempt) :
    captureRaising X (tlsError "TLS server used a disallowed P2C signature scheme") A endpoint
      domain challenge mask timeout a =
      captureProgram X A endpoint domain challenge mask timeout a := rfl

/-- Two continuations that agree on what a program leads to. -/
theorem netM_bind_congr {α β : Type} (m : NetM α) (f g : α → NetM β) (n : Net)
    (h : ∀ x n', m n = .ok (x, n') → f x n' = g x n') : (m >>= f) n = (m >>= g) n := by
  change (m n >>= fun p => f p.1 p.2) = m n >>= fun p => g p.1 p.2
  cases hrun : m n with
  | error e => rfl
  | ok pair => exact h pair.1 pair.2 hrun

theorem clientHello_of_flightMessages {clientHello : Bytes} {peerIp : Str} {flight : Flight}
    {m : TlsProofMessages} (h : flightMessages clientHello peerIp flight = .ok m) :
    m.clientHello = clientHello := by
  unfold flightMessages at h
  split at h
  · rw [← Except.ok.inj h]
  · exact nomatch h

/-- The last test of the capture never fails, so that what it would raise makes
    no difference. -/
theorem captureRaising_eq {domain : Str} {challenge hello : Bytes} {mask : Int}
    (hallowed : ∀ rest p, Protocol.parseProof ([UInt8.ofNat Protocol.proofVersion] ++ hello ++ rest)
      domain challenge = .ok p → signatureSchemeAllowed mask p.certificateVerifyScheme = .ok true)
    (a : Attempt)
    (hbuild : buildClientHello domain challenge a.publicKey a.sessionId mask = .ok hello)
    (A : Aead) (endpoint : Endpoint) (timeout : ℚ) (e e' : PyErr) :
    captureRaising X e A endpoint domain challenge mask timeout a =
      captureRaising X e' A endpoint domain challenge mask timeout a := by
  funext n
  unfold captureRaising
  -- The two programs run alike up to their last test.
  refine netM_bind_congr _ _ _ n fun _ n _ => netM_bind_congr _ _ _ n fun _ n _ =>
    netM_bind_congr _ _ _ n fun clientHello n hclientHello => netM_bind_congr _ _ _ n
    fun started n _ => netM_bind_congr _ _ _ n fun _ n _ => netM_bind_congr _ _ _ n
    fun flight n _ => netM_bind_congr _ _ _ n fun result n hresult => netM_bind_congr _ _ _ n
    fun parsed n hparsed => netM_bind_congr _ _ _ n fun allowed n hchecked => ?_
  rw [netM_lift_eq_ok_iff] at hclientHello hresult hparsed hchecked
  rw [hbuild, Except.ok.injEq] at hclientHello
  -- The proof that was parsed starts with the hello that was sent.
  have hfirst := clientHello_of_flightMessages hresult.1
  rw [← hclientHello.1] at hfirst
  have hproof := hparsed.1
  rw [TlsProofMessages.encodedProof, hfirst, List.flatten_cons, ← List.append_assoc] at hproof
  have htrue := hallowed _ parsed hproof
  rw [hchecked.1, Except.ok.injEq] at htrue
  rw [htrue]
  rfl

end DisallowedScheme

/-- The hello that the client builds for a mask is read back as what it was
    built from, it is the mask that binds the server's signature, and it is a
    hello for one domain and one challenge only. -/
theorem clientHello_round_trip (domain : Str) (challenge publicKey sessionId : Bytes) (mask : Int)
    (hd : isCanonicalDomain domain = true) (hc : challenge.length = 32)
    (hkey : publicKey.length = 32) (hsession : 1 ≤ sessionId.length ∧ sessionId.length ≤ 32)
    (hmask : 1 ≤ mask ∧ mask ≤ 7) :
    ∃ hello body algorithms,
      buildClientHello domain challenge publicKey sessionId mask = .ok hello ∧
      hello.length ≤ 4096 ∧
      Protocol.readHandshake Protocol.clientHello 4096 "ClientHello" ⟨hello, 0⟩ =
        (.ok ⟨hello, body⟩, ⟨hello, hello.length⟩) ∧
      acceptedSignatureAlgorithms mask = .ok algorithms ∧
      Protocol.parseClientHello body domain challenge = .ok {
        cipherSuites := [0x1301, 0x1303]
        signatureAlgorithms := algorithms.map SignatureAlgorithm.scheme
        keyShareGroups := [0x001D]
        legacySessionId := sessionId } ∧
      (∀ rest d c p,
        Protocol.parseProof ([UInt8.ofNat Protocol.proofVersion] ++ hello ++ rest) d c = .ok p →
          signatureSchemeAllowed mask p.certificateVerifyScheme = .ok true) ∧
      (∀ (Cert Key : Type) (X : X509 Cert Key) (A : Aead) (endpoint : Endpoint) (timeout : ℚ)
        (a : Attempt) (disallowed : PyErr), a.publicKey = publicKey → a.sessionId = sessionId →
        captureProgram X A endpoint domain challenge mask timeout a =
          captureRaising X disallowed A endpoint domain challenge mask timeout a) ∧
      (∀ d c, ¬ (d = domain ∧ c = challenge) →
        ∃ e, Protocol.parseClientHello body d c = .error e) := by
  rcases built_clientHello hd hc hkey hsession hmask with ⟨name, t, hname, hbuild, hstate, hlen⟩
  have hclient := (Protocol.parseClientHello_eq_ok_iff t.encode domain challenge hc _).mpr
    ⟨name, hname, t, rfl, rfl⟩
  rw [hstate] at hclient
  -- The scheme of a signature is one that the hello offers, and it offers those of the mask.
  have hallowed : ∀ rest d c p, Protocol.parseProof ([UInt8.ofNat Protocol.proofVersion] ++
      frame Protocol.clientHello t.encode ++ rest) d c = .ok p →
      signatureSchemeAllowed mask p.certificateVerifyScheme = .ok true :=
    fun rest d c p => signatureSchemeAllowed_of_parseProof t hname hc hmask hstate hlen
  refine ⟨frame Protocol.clientHello t.encode, t.encode, _, hbuild, ?_, ?_,
    acceptedSignatureAlgorithms_eq mask hmask, hclient, hallowed, ?_,
    fun d c => parseClientHello_rejects t hname hc⟩
  · rw [Protocol.length_frame]
    omega
  · exact (readHandshake_whole_iff (by decide) (by decide) _ _).mpr ⟨t.encode, rfl, by omega, rfl⟩
  · intro Cert Key X A endpoint timeout a disallowed hpublic hid
    rw [← hpublic, ← hid] at hbuild
    rw [← captureRaising_own]
    exact captureRaising_eq X (fun rest p => hallowed rest domain challenge p) a hbuild A endpoint
      timeout _ disallowed

section Cuts

/-- What is cut out at a position and what is left behind it. -/
theorem slice_append_drop (b : Bytes) {start stop : Nat} (h : start ≤ stop) :
    slice b start stop ++ b.drop stop = b.drop start := by
  have hdrop : b.drop stop = (b.drop start).drop (stop - start) := by
    rw [List.drop_drop, Nat.add_sub_cancel' h]
  rw [slice, hdrop, List.take_append_drop]

theorem length_slice (b : Bytes) (start stop : Nat) (h : stop ≤ b.length) :
    (slice b start stop).length = stop - start := by
  rw [slice, List.length_take, List.length_drop]
  omega

/-- A byte that is read at a position, and what is left behind it. -/
theorem getIndex_append_drop {b : Bytes} {k : Nat} {x : UInt8} (h : getIndex b k = .ok x) :
    be 1 x.toNat ++ b.drop (k + 1) = b.drop k := by
  rw [getIndex_eq_ok_iff, List.getElem?_eq_some_iff] at h
  rcases h with ⟨hlt, rfl⟩
  rw [be_one, UInt8.ofNat_toNat, List.drop_eq_getElem_cons hlt, List.singleton_append]

/-- The number that stands at a position, and what is left behind it. -/
theorem beNat_append_drop (b : Bytes) (k start : Nat) (h : start + k ≤ b.length) :
    be k (beNat (slice b start (start + k))) ++ b.drop (start + k) = b.drop start := by
  have hlen := length_slice b start (start + k) h
  rw [Nat.add_sub_cancel_left] at hlen
  rw [be_beNat_of_length k _ hlen, slice_append_drop b (Nat.le_add_right start k)]

theorem beNat_slice_lt (b : Bytes) (k start : Nat) (h : start + k ≤ b.length) :
    beNat (slice b start (start + k)) < 256 ^ k := by
  have hlt := beNat_lt (slice b start (start + k))
  rw [length_slice b start (start + k) h, Nat.add_sub_cancel_left] at hlt
  exact hlt

end Cuts

section Extensions

/-- The loop returns only entries that stand in what it reads, each type once.
    The induction is on its tests, and what is behind the position is always
    the part that is still to be read. -/
theorem entries_of_parseExtensionsLoop (encoded : Bytes) (fuel : Nat) :
    ∀ (position : Nat) (result d : ExtensionMap), (result.map Prod.fst).Nodup →
      parseExtensionsLoop encoded fuel position result = .ok d →
      ∃ entries : List Extension, encoded.drop position = entries.flatMap Extension.encode ∧
        (result.map Prod.fst ++ entries.map Extension.type).Nodup ∧
        d = result ++ entries.map Extension.entry := by
  induction fuel with
  | zero =>
      intro position result d _ h
      exact nomatch h
  | succ fuel ih =>
      intro position result d hnodup h
      rw [parseExtensionsLoop] at h
      by_cases hmore : position < encoded.length
      · rw [if_pos hmore] at h
        simp only [bind_eq_ok_iff, failIf_eq_ok_iff, exists_const, not_lt, Protocol.has_iff] at h
        rcases h with ⟨hheader, hdata, hnew, h⟩
        rw [Protocol.setItem_of_not_has _ _ _ hnew] at h
        -- The entry at the position, and the loop's own result behind it.
        have htype := beNat_slice_lt encoded 2 position (by omega)
        have hsize := beNat_slice_lt encoded 2 (position + 2) (by omega)
        have hlen := length_slice encoded (position + 4)
          (position + 4 + beNat (slice encoded (position + 2) (position + 4))) (by omega)
        rw [Nat.add_sub_cancel_left] at hlen
        let x : Extension := ⟨_, _, htype, hlen.trans_lt hsize⟩
        have hcons : ((result ++ [x.entry]).map Prod.fst).Nodup := by
          rw [List.map_append, List.map_singleton, ← List.concat_eq_append]
          exact hnodup.concat hnew
        rcases ih _ _ _ hcons h with ⟨entries, hrest, hdistinct, rfl⟩
        refine ⟨x :: entries, ?_, ?_, ?_⟩
        · rw [List.flatMap_cons, ← hrest, ← beNat_append_drop encoded 2 position (by omega),
            ← beNat_append_drop encoded 2 (position + 2) (by omega),
            ← slice_append_drop encoded (Nat.le_add_right (position + 4)
              (beNat (slice encoded (position + 2) (position + 4))))]
          simp only [x, Extension.encode, vec, hlen, List.append_assoc]
        · rw [List.map_append, List.append_assoc] at hdistinct
          exact hdistinct
        · rw [List.append_assoc]
          rfl
      · rw [if_neg hmore] at h
        refine ⟨[], ?_, ?_, ?_⟩
        · exact List.drop_eq_nil_of_le (by omega)
        · rw [List.map_nil, List.append_nil]
          exact hnodup
        · rw [List.map_nil, List.append_nil]
          exact (Except.ok.inj h).symm

theorem entries_of_parseExtensions {encoded : Bytes} {d : ExtensionMap}
    (h : parseExtensions encoded = .ok d) :
    ∃ entries : List Extension, encoded = entries.flatMap Extension.encode ∧
      (entries.map Extension.type).Nodup ∧ d = entries.map Extension.entry :=
  entries_of_parseExtensionsLoop encoded _ 0 [] d List.nodup_nil h

/-- The share that the client takes a key out of. -/
theorem share_of_parseKeyShare {keyShare key : Bytes} (h : parseKeyShare keyShare = .ok key) :
    ∃ share : KeyShare, share.group = groupX25519 ∧ keyShare = share.encode ∧
      key = share.exchange := by
  unfold parseKeyShare at h
  simp only [bind_eq_ok_iff, failIf_eq_ok_iff, exists_const, pure_eq_ok_iff, not_or, not_lt,
    not_not, ne_eq] at h
  rcases h with ⟨⟨hlen, hgroup⟩, ⟨hsize, htotal⟩, rfl⟩
  have hkey : (keyShare.drop 4).length = 32 := by
    rw [List.length_drop]
    omega
  have hfirst := beNat_append_drop keyShare 2 0 (by omega)
  have hsecond := beNat_append_drop keyShare 2 2 (by omega)
  have hzero : slice keyShare 0 (0 + 2) = keyShare.take 2 := rfl
  rw [hzero, hgroup] at hfirst
  rw [hsize] at hsecond
  -- The group and the length are read off the front, and the key is all that follows.
  have hencode : keyShare = be 2 groupX25519 ++ vec 2 (keyShare.drop 4) := by
    rw [vec, hkey, hsecond]
    exact hfirst.symm
  exact ⟨⟨groupX25519, keyShare.drop 4, Or.inl ⟨rfl, hkey⟩⟩, rfl, hencode, rfl⟩

end Extensions

section ServerHello

variable {sessionId : Bytes} {mask : Int}

theorem frame_of_head {message : Bytes} {type : Nat}
    (hhead : ¬ (message.length < 4 ∨ message.head? ≠ some (UInt8.ofNat type)))
    (hsize : beNat (slice message 1 4) = message.length - 4) :
    message = frame type (message.drop 4) := by
  rw [not_or, not_lt, not_not] at hhead
  have hframed : WellFramed message := ⟨hhead.1, by rw [announcedSize]; omega⟩
  rcases hframed.eq_frame with ⟨type', body, ht', -, rfl⟩
  have hbyte : UInt8.ofNat type' = UInt8.ofNat type := Option.some.inj hhead.2
  rw [drop_frame, frame, frame, be_one, be_one, hbyte]

/-- Whatever the client's parser returns a key for is a ServerHello of the
    grammar, with an X25519 share. -/
theorem tree_of_parseServerHello (mask : Int) {message key : Bytes} {suite : Nat}
    (h : parseServerHello message sessionId = .ok (suite, key)) :
    ∃ t : Grammar.ServerHello (builtState sessionId mask),
      message = frame Protocol.serverHello t.encode ∧ suite = t.cipherSuite ∧
        t.share.group = groupX25519 ∧ key = t.share.exchange := by
  unfold parseServerHello at h
  simp only [bind_eq_ok_iff, failIf_eq_ok_iff, exists_const, pure_eq_ok_iff, Prod.mk.injEq] at h
  rcases h with ⟨hhead, hsize, hfixed, hrandom, sessionByte, hbyte, hsession, hid, hsuite,
    compression, hcompression, hnull, hextensions, d, hd, hkeys, version, hversion, htls13,
    keyShare, hshare, publicKey, hkey, rfl, rfl⟩
  rw [not_not] at hsize hid hsuite hnull hextensions hkeys htls13
  have hmessage := frame_of_head hhead hsize
  generalize message.drop 4 = body at *
  rw [not_or, not_lt, not_not] at hfixed
  rw [not_or, not_lt, not_lt] at hsession
  rcases entries_of_parseExtensions hd with ⟨entries, hentries, hnodup, rfl⟩
  rcases share_of_parseKeyShare hkey with ⟨share, hgroup, rfl, rfl⟩
  let n := sessionByte.toNat
  have hidLength : sessionId.length = n := by
    rw [← hid, length_slice body 35 (35 + n) (by omega), Nat.add_sub_cancel_left]
  have hsize := beNat_slice_lt body 2 (35 + n + 3) (by omega)
  have hlen : (entries.flatMap Extension.encode).length =
      beNat (slice body (35 + n + 3) (35 + n + 5)) := by
    rw [← hentries, List.length_drop]
    exact hextensions
  let block : Block := ⟨entries, hnodup, hlen.trans_lt hsize⟩
  let t : Grammar.ServerHello (builtState sessionId mask) :=
    { random := slice body 2 34
      cipherSuite := beNat (slice body (35 + n) (35 + n + 2))
      block := block
      share := share
      random_length := length_slice body 2 34 (by omega)
      random_ne := hrandom
      cipherSuite_mem := hsuite
      cipherSuite_offered := hsuite
      types := (Protocol.keysAre_iff block _ _).mp hkeys
      holds_version := by
        rw [← htls13]
        exact (block.getItem_map _ _).mp hversion
      holds_share := (block.getItem_map _ _).mp hshare
      share_offered := by
        rw [hgroup]
        exact List.mem_singleton_self _ }
  -- The body is what the parser cut out of it, in order.
  have hbody : body = t.encode := by
    have hcut₁ : be 2 tls12 ++ body.drop 2 = body := by
      rw [← hfixed.2, List.take_append_drop]
    have hcut₂ : t.random ++ body.drop 34 = body.drop 2 := slice_append_drop body (by omega)
    have hcut₃ := getIndex_append_drop hbyte
    have hcut₄ := slice_append_drop body (Nat.le_add_right 35 n)
    have hcut₅ := beNat_append_drop body 2 (35 + n) (by omega)
    have hcut₆ := getIndex_append_drop hcompression
    have hcut₇ := beNat_append_drop body 2 (35 + n + 3) (by omega)
    rw [← hlen, hentries] at hcut₇
    rw [hid] at hcut₄
    rw [hnull] at hcut₆
    rw [← hcut₁, ← hcut₂, ← hcut₃, ← hcut₄, ← hcut₅, ← hcut₆, ← hcut₇]
    have hlength : (builtState sessionId mask).legacySessionId.length = n := hidLength
    simp only [ServerHello.encode, vec, Block.encode, List.append_assoc, hlength]
    rfl
  exact ⟨t, hbody ▸ hmessage, rfl, hgroup, rfl⟩

theorem extension_eq_of {x y : Extension} (htype : x.type = y.type) (hdata : x.data = y.data) :
    x = y := by
  cases x
  cases y
  simp only at htype hdata
  subst htype hdata
  rfl

/-- A ServerHello that answers the client's hello has one size, which the
    length of the session id gives. No limit on its size is in reach. -/
theorem length_serverHello (t : Grammar.ServerHello (builtState sessionId mask)) :
    t.encode.length = 86 + sessionId.length := by
  have hgroup : t.share.group = groupX25519 := List.mem_singleton.mp t.share_offered
  have hexchange : t.share.exchange.length = 32 := by
    rcases t.share.valid with ⟨-, h⟩ | ⟨h, -⟩
    · exact h
    · rw [hgroup] at h
      exact absurd h (by decide)
  have hshare : t.share.encode.length = 36 := by
    rw [KeyShare.encode, List.length_append, length_be, length_vec, hexchange]
  let version : Extension := ⟨extSupportedVersions, be 2 tls13, by decide, by decide⟩
  let keyShare : Extension := ⟨extKeyShare, t.share.encode, by decide, by omega⟩
  -- The block holds these two entries and no others.
  have hmem : ∀ x, x ∈ t.block.entries ↔ x ∈ [version, keyShare] := by
    intro x
    rw [List.mem_cons, List.mem_singleton]
    constructor
    · intro hx
      rcases (t.types x.type).mp (List.mem_map_of_mem hx) with htype | htype
      · exact Or.inl (extension_eq_of htype
          (t.block.holds_unique _ _ _ ⟨x, hx, htype, rfl⟩ t.holds_version))
      · exact Or.inr (extension_eq_of htype
          (t.block.holds_unique _ _ _ ⟨x, hx, htype, rfl⟩ t.holds_share))
    · rintro (rfl | rfl)
      · rcases t.holds_version with ⟨y, hy, htype, hdata⟩
        rw [← extension_eq_of (y := version) htype hdata]
        exact hy
      · rcases t.holds_share with ⟨y, hy, htype, hdata⟩
        rw [← extension_eq_of (y := keyShare) htype hdata]
        exact hy
  have hdistinct : [version, keyShare].Nodup := by
    refine List.nodup_cons.mpr ⟨?_, List.nodup_singleton _⟩
    intro h
    have htypes : extSupportedVersions = extKeyShare :=
      congrArg Extension.type (List.mem_singleton.mp h)
    exact absurd htypes (by decide)
  have hperm := (List.perm_ext_iff_of_nodup (List.Nodup.of_map _ t.block.nodup) hdistinct).mpr hmem
  have hentries := (hperm.flatMap_right Extension.encode).length_eq
  have hrandom := t.random_length
  simp only [List.flatMap_cons, List.flatMap_nil, Extension.encode, List.length_append, length_be,
    length_vec, hshare, List.length_nil, version, keyShare] at hentries
  simp only [ServerHello.encode, Block.encode, List.length_append, length_be, length_vec, hrandom,
    hentries]
  change 2 + 32 + (1 + sessionId.length) + 2 + 1 + (2 + _) = _
  omega

/-- The client's parser reads exactly the ServerHellos of the grammar, and
    returns their suite and their share. -/
theorem parseServerHello_eq_ok_iff (hsession : sessionId.length ≤ 32) (message : Bytes)
    (suite : Nat) (key : Bytes) :
    parseServerHello message sessionId = .ok (suite, key) ↔
      ∃ t : Grammar.ServerHello (builtState sessionId mask),
        message = frame Protocol.serverHello t.encode ∧ suite = t.cipherSuite ∧
          key = t.share.exchange := by
  constructor
  · intro h
    rcases tree_of_parseServerHello mask h with ⟨t, hmessage, hsuite, -, hkey⟩
    exact ⟨t, hmessage, hsuite, hkey⟩
  · rintro ⟨t, rfl, rfl, rfl⟩
    have hlen := length_serverHello t
    exact parseServerHello_eq_ok t hsession (List.mem_singleton.mp t.share_offered) (by omega)

/-- The verifier's reader consumes a whole message and accepts its body on
    exactly the same ServerHellos. -/
theorem readHandshake_serverHello_iff (hsession : sessionId.length ≤ 32) (message : Bytes) :
    (∃ h, Protocol.readHandshake Protocol.serverHello 2048 "ServerHello" ⟨message, 0⟩ =
        (.ok h, ⟨message, message.length⟩) ∧
      Protocol.parseServerHello h.body (builtState sessionId mask) = .ok ()) ↔
      ∃ t : Grammar.ServerHello (builtState sessionId mask),
        message = frame Protocol.serverHello t.encode := by
  have hparse : ∀ body, Protocol.parseServerHello body (builtState sessionId mask) = .ok () ↔
      ∃ t : Grammar.ServerHello (builtState sessionId mask), body = t.encode :=
    fun body => Protocol.parseServerHello_eq_ok_iff body _ () hsession
  constructor
  · rintro ⟨h, hread, hbody⟩
    rcases (readHandshake_whole_iff (by decide) (by decide) message h).mp hread
      with ⟨body, rfl, -, rfl⟩
    rcases (hparse body).mp hbody with ⟨t, rfl⟩
    exact ⟨t, rfl⟩
  · rintro ⟨t, rfl⟩
    -- The message is below the limit, since only two extensions of fixed size are allowed.
    have hlen := length_serverHello t
    refine ⟨⟨frame Protocol.serverHello t.encode, t.encode⟩, ?_, (hparse t.encode).mpr ⟨t, rfl⟩⟩
    exact (readHandshake_whole_iff (by decide) (by decide) _ _).mpr ⟨t.encode, rfl, by omega, rfl⟩

end ServerHello

/-- The client's ServerHello parser and the verifier's agree on every message,
    for every hello that the client can build: one returns a suite and a key
    exactly when the other consumes the message and accepts its body. What is
    returned stands in the message, and what is not accepted is answered with
    the client's own error. -/
theorem serverHello_parsers_agree (domain : Str) (challenge publicKey sessionId : Bytes)
    (mask : Int)
    (hd : isCanonicalDomain domain = true) (hc : challenge.length = 32)
    (hkey : publicKey.length = 32) (hsession : 1 ≤ sessionId.length ∧ sessionId.length ≤ 32)
    (hmask : 1 ≤ mask ∧ mask ≤ 7) :
    ∃ hello client, buildClientHello domain challenge publicKey sessionId mask = .ok hello ∧
      Protocol.parseClientHello (hello.drop 4) domain challenge = .ok client ∧
      (∀ message, (∃ answer, parseServerHello message sessionId = .ok answer) ↔
        ∃ h, Protocol.readHandshake Protocol.serverHello 2048 "ServerHello" ⟨message, 0⟩ =
            (.ok h, ⟨message, message.length⟩) ∧
          Protocol.parseServerHello h.body client = .ok ()) ∧
      (∀ message suite key, parseServerHello message sessionId = .ok (suite, key) →
        ∃ t : Grammar.ServerHello client, message = frame Protocol.serverHello t.encode ∧
          suite = t.cipherSuite ∧ t.share.group = groupX25519 ∧ key = t.share.exchange ∧
          key.length = 32) ∧
      (∀ message e, parseServerHello message sessionId = .error e →
        e.cls = .tlsGenerationError) := by
  rcases built_clientHello hd hc hkey hsession hmask with ⟨name, t, hname, hbuild, hstate, -⟩
  have hclient := (Protocol.parseClientHello_eq_ok_iff t.encode domain challenge hc _).mpr
    ⟨name, hname, t, rfl, rfl⟩
  rw [hstate] at hclient
  refine ⟨_, builtState sessionId mask, hbuild, ?_, fun message => ?_,
    fun message suite key h => ?_,
    fun message => fails_parseServerHello message sessionId⟩
  · rw [drop_frame]
    exact hclient
  · rw [readHandshake_serverHello_iff hsession.2 message]
    -- Both sides say that the message is a tree of the grammar.
    constructor
    · rintro ⟨⟨suite, key⟩, h⟩
      rcases (parseServerHello_eq_ok_iff hsession.2 message suite key).mp h with ⟨u, hu, -⟩
      exact ⟨u, hu⟩
    · rintro ⟨u, hu⟩
      exact ⟨_, (parseServerHello_eq_ok_iff hsession.2 message _ _).mpr ⟨u, hu, rfl, rfl⟩⟩
  · rcases tree_of_parseServerHello mask h with ⟨u, hmessage, hsuite, hgroup, rfl⟩
    refine ⟨u, hmessage, hsuite, hgroup, rfl, ?_⟩
    -- An x25519 share has 32 bytes.
    rcases u.share.valid with ⟨-, hlen⟩ | ⟨hother, -⟩
    · exact hlen
    · rw [hgroup] at hother
      exact absurd hother (by decide)

section Session

open Protocol (vectorDomain vectorChallenge)

/-- The session's hello is read back with the schemes of its mask. -/
theorem sessionClientHello_round_trip :
    ∃ body, Protocol.readHandshake Protocol.clientHello 4096 "ClientHello" ⟨sessionClientHello, 0⟩ =
        (.ok ⟨sessionClientHello, body⟩, ⟨sessionClientHello, sessionClientHello.length⟩) ∧
      Protocol.parseClientHello body vectorDomain vectorChallenge =
        .ok ⟨[0x1301, 0x1303], [0x0403, 0x0804, 0x0809], [0x001D], sessionId⟩ := by
  rcases clientHello_round_trip vectorDomain vectorChallenge sessionPublicKey sessionId 7
    canonical_vectorDomain (by decide) (by decide) (by decide) (by decide)
    with ⟨hello, body, algorithms, hbuild, -, hread, haccepted, hparse, -⟩
  rw [buildClientHello_session, Except.ok.injEq] at hbuild
  rw [acceptedSignatureAlgorithms_eq 7 (by decide), Except.ok.injEq] at haccepted
  rw [← hbuild] at hread
  rw [← haccepted] at hparse
  exact ⟨body, hread, hparse⟩

/-- The verifier accepts the session's ServerHello, as the client does. -/
theorem sessionServerHello_accepted :
    ∃ hello client, buildClientHello vectorDomain vectorChallenge sessionPublicKey sessionId 7 =
        .ok hello ∧
      Protocol.parseClientHello (hello.drop 4) vectorDomain vectorChallenge = .ok client ∧
      ∃ h, Protocol.readHandshake Protocol.serverHello 2048 "ServerHello" ⟨sessionServerHello, 0⟩ =
          (.ok h, ⟨sessionServerHello, sessionServerHello.length⟩) ∧
        Protocol.parseServerHello h.body client = .ok () := by
  rcases serverHello_parsers_agree vectorDomain vectorChallenge sessionPublicKey sessionId 7
    canonical_vectorDomain (by decide) (by decide) (by decide) (by decide)
    with ⟨hello, client, hbuild, hclient, hagree, -⟩
  exact ⟨hello, client, hbuild, hclient,
    (hagree sessionServerHello).mp ⟨_, parseServerHello_session⟩⟩

end Session

end P2CTools.Tls13
