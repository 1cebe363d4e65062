import P2CTools.Source.Envelope
import P2CTools.Theory.Framing

/-!
# What the Work Hash Commits To

The work hash and the transcript hash of a proof are both taken over its first
four messages, and over nothing else.

The messages are hashed without separators. Since each announces its own size,
the hashed bytes can be cut in one way only, so two proofs with one hash have
the same four messages unless SHA-256 collides on the two inputs. That
exception is a hypothesis about these two inputs, `CollisionFree`, and never
about all inputs.

From the ClientHello the rest follows. It holds the challenge as its random
and the domain in its `server_name`, so equal ClientHellos were accepted for
one challenge and one domain. The challenge is itself a hash of the claim it
was made for, and a work hash cannot be shared by two claims. In the other
direction nothing before the CertificateVerify looks at it, so that message
can be exchanged for any other that the ClientHello allows.

## Main definitions

* `hashedSlice`: The bytes between the version byte and CertificateVerify.
* `ProofTree.withVerify`: A proof with another CertificateVerify.

## Theorems

* `hashedSlice_eq`: The slice is the first four messages.
* `ClientHello.encode_inj`: A ClientHello determines its challenge and domain.
* `domain_eq_of_hashed_eq`: Proofs with the same hashed bytes.
* `claim_eq_of_challenge_eq`: Claims with the same challenge.
* `accepted_hashes_commit`: The hashes commit to the first four messages.
* `no_replay`: No work hash is shared by two claims.
-/

namespace P2CTools

open Wire Protocol Grammar

/-- The bytes of a proof after the version byte and before CertificateVerify. -/
def hashedSlice (e : Bytes) (p : ParsedProof) : Bytes :=
  slice e 1 (e.length - p.certificateVerify.length)

section Trees

variable {name challenge : Bytes}

theorem Grammar.ProofTree.encode_eq (t : ProofTree name challenge) :
    t.encode = be 1 proofVersion ++ (t.hashed.flatten ++ t.parsed.certificateVerify) := by
  rw [ProofTree.encode, ProofTree.messages, List.flatten_append, List.flatten_singleton]
  rfl

theorem head_of_parseProof {e c : Bytes} {d : Str} {p : ParsedProof}
    (h : parseProof e d c = .ok p) : e.head? = some 2 := by
  rcases (parseProof_eq_ok_iff e d c p).mp h with ⟨-, -, -, -, name, -, t, rfl, -⟩
  rw [ProofTree.encode_eq]
  rfl

theorem hashedSlice_eq (t : ProofTree name challenge) :
    hashedSlice t.encode t.parsed = t.hashed.flatten := by
  rw [hashedSlice, ProofTree.encode_eq, be_one, List.singleton_append, List.length_cons,
    List.length_append, slice, List.drop_succ_cons, List.drop_zero]
  exact List.take_left' (by omega)

theorem Grammar.ProofTree.wellFramed_hashed (t : ProofTree name challenge) :
    ∀ m ∈ t.hashed, WellFramed m :=
  fun m hm => t.wellFramed_messages m (List.mem_append_left _ hm)

/-- The hashed bytes can be cut in one way only. -/
theorem hashed_eq_of_flatten_eq {name' challenge' : Bytes} (t : ProofTree name challenge)
    (u : ProofTree name' challenge') (h : t.hashed.flatten = u.hashed.flatten) :
    t.hashed = u.hashed :=
  (wellFramed_selfDelimiting.flatten_inj t.hashed u.hashed [] [] rfl t.wellFramed_hashed
    u.wellFramed_hashed (congrArg (· ++ []) h)).1

theorem serverName_inj {a b : Bytes} (ha : a.length + 3 < 65536) (hb : b.length + 3 < 65536)
    (h : serverName a = serverName b) : a = b := by
  have hlen : ∀ x : Bytes, (be 1 0 ++ vec 2 x).length = x.length + 3 := by
    intro x
    rw [List.length_append, length_be, length_vec]
    omega
  have hlist := (vec_append_inj 2 _ _ [] [] (by rw [hlen]; omega) (by rw [hlen]; omega)
    (congrArg (· ++ []) h)).1
  exact (vec_append_inj 2 a b [] [] (by omega) (by omega)
    (congrArg (· ++ []) (List.append_cancel_left hlist))).1

theorem Grammar.ClientHello.name_length (t : ClientHello name challenge) : name.length + 3 < 65536 := by
  have h := t.holds_serverName.length_lt
  rw [serverName, length_vec, List.length_append, length_be, length_vec] at h
  omega

/-- A ClientHello determines the challenge and the domain it is for. -/
theorem Grammar.ClientHello.encode_inj {name' challenge' : Bytes} (t : ClientHello name challenge)
    (u : ClientHello name' challenge') (hc : challenge.length = challenge'.length)
    (h : t.encode = u.encode) : challenge = challenge' ∧ name = name' := by
  simp only [ClientHello.encode, WordList.encode, List.append_assoc] at h
  have hsession := t.sessionId_le
  have hsession' := u.sessionId_le
  rcases List.append_inj (List.append_cancel_left h) hc with ⟨rfl, h⟩
  rcases vec_append_inj 1 _ _ _ _ (by omega) (by omega) h with ⟨-, h⟩
  rcases vec_append_inj 2 _ _ _ _ (by rw [length_ofWords]; exact t.cipherSuites.length_lt)
    (by rw [length_ofWords]; exact u.cipherSuites.length_lt) h with ⟨-, h⟩
  have hmap := Block.map_eq_of_encode_eq (List.append_cancel_left h)
  have ht := (t.block.getItem_map _ _).mpr t.holds_serverName
  have hu := (u.block.getItem_map _ _).mpr u.holds_serverName
  rw [hmap, hu, Except.ok.injEq] at ht
  exact ⟨rfl, (serverName_inj u.name_length t.name_length ht).symm⟩

/-- A proof with another CertificateVerify that its ClientHello allows. -/
def Grammar.ProofTree.withVerify (t : ProofTree name challenge) (verify : CertificateVerify t.client.state)
    (hle : verify.encode.length + 4 ≤ 8192) : ProofTree name challenge :=
  { t with verify := verify, verify_le := hle }

theorem Grammar.ProofTree.hashed_withVerify (t : ProofTree name challenge)
    (verify : CertificateVerify t.client.state) (hle : verify.encode.length + 4 ≤ 8192) :
    (t.withVerify verify hle).hashed = t.hashed := rfl

end Trees

/-- Two accepted proofs whose hashed bytes agree were accepted for one
    challenge and one domain. -/
theorem domain_eq_of_hashed_eq {d d' : Str} {name name' c c' : Bytes}
    (hname : encodeAscii d = .ok name) (hname' : encodeAscii d' = .ok name')
    (hc : c.length = 32) (hc' : c'.length = 32) (t : ProofTree name c) (u : ProofTree name' c')
    (h : t.hashed.flatten = u.hashed.flatten) : c = c' ∧ d = d' := by
  have hhashed := hashed_eq_of_flatten_eq t u h
  have hclient := frame_inj (List.cons.inj hhashed).1
  rcases t.client.encode_inj u.client (hc.trans hc'.symm) hclient with ⟨rfl, rfl⟩
  exact ⟨rfl, encodeAscii_inj d d' name hname hname'⟩

/-- An accepted proof stays one with another CertificateVerify that its
    ClientHello allows, and its hashes stay what they are. -/
theorem parseProof_resigned {e : Bytes} {d : Str} {c : Bytes} {p : ParsedProof}
    (hp : parseProof e d c = .ok p) {state : ClientState} {scheme : Nat} {signature : Bytes}
    (hclient : parseClientHello (p.clientHello.drop 4) d c = .ok state)
    (hscheme : scheme ∈ [ecdsaSecp256r1Sha256, rsaPssRsaeSha256, rsaPssPssSha256])
    (hoffered : scheme ∈ state.signatureAlgorithms) (hne : signature ≠ [])
    (hsize : (frame 15 (be 2 scheme ++ vec 2 signature)).length ≤ 8192)
    (htotal : (be 1 2 ++ hashedSlice e p ++ frame 15 (be 2 scheme ++ vec 2 signature)).length ≤
      65536) :
    ∃ r, parseProof (be 1 2 ++ hashedSlice e p ++ frame 15 (be 2 scheme ++ vec 2 signature)) d c
        = .ok r ∧
      r.connectionWorkHash = p.connectionWorkHash ∧ r.transcriptHash = p.transcriptHash ∧
      r.certificateChain = p.certificateChain ∧
      r.certificateVerify = frame 15 (be 2 scheme ++ vec 2 signature) := by
  rcases (parseProof_eq_ok_iff e d c p).mp hp with ⟨hd, hc, -, -, name, hname, t, rfl, rfl⟩
  rw [hashedSlice_eq] at htotal ⊢
  have hstate : state = t.client.state := by
    have hagain := (parseClientHello_eq_ok_iff _ d c hc _).mpr ⟨name, hname, t.client, rfl, rfl⟩
    have hbody : t.parsed.clientHello.drop 4 = t.client.encode := drop_frame _ _
    rw [hbody, hagain] at hclient
    exact (Except.ok.inj hclient).symm
  subst hstate
  rw [length_frame] at hsize
  have hbytes : (be 2 scheme ++ vec 2 signature).length = signature.length + 4 := by
    rw [List.length_append, length_be, length_vec]
    omega
  -- The tree of the proof, with the new message in the place of the old one.
  let v : CertificateVerify t.client.state :=
    ⟨scheme, signature, hscheme, hoffered, List.length_pos_iff.mpr hne, by omega⟩
  have hle : v.encode.length + 4 ≤ 8192 := by
    change (be 2 scheme ++ vec 2 signature).length + 4 ≤ 8192
    omega
  have hencode : be 1 2 ++ t.hashed.flatten ++ frame 15 (be 2 scheme ++ vec 2 signature) =
      (t.withVerify v hle).encode := by
    rw [ProofTree.encode_eq, ProofTree.hashed_withVerify, ← List.append_assoc]
    rfl
  refine ⟨(t.withVerify v hle).parsed, ?_, rfl, rfl, rfl, rfl⟩
  refine (parseProof_eq_ok_iff _ d c _).mpr ⟨hd, hc, ?_, htotal, name, hname, _, hencode, rfl⟩
  rw [List.length_append, List.length_append, length_be]
  omega

/-- The hashes of an accepted proof cover its first four messages and nothing
    else: they agree for two proofs exactly when those messages do, and they
    stay what they are under any other CertificateVerify. -/
theorem accepted_hashes_commit (e f : Bytes) (d d' : Str) (c c' : Bytes) (p q : ParsedProof)
    (hp : parseProof e d c = .ok p) (hq : parseProof f d' c' = .ok q)
    (hwork : CollisionFree (taggedInput workTag (hashedSlice e p))
      (taggedInput workTag (hashedSlice f q)))
    (htranscript : CollisionFree (hashedSlice e p) (hashedSlice f q)) :
    (e = be 1 2 ++ hashedSlice e p ++ p.certificateVerify ∧
      p.connectionWorkHash = taggedHash workTag (hashedSlice e p) ∧
      p.transcriptHash = sha256 (hashedSlice e p)) ∧
    (p.connectionWorkHash = q.connectionWorkHash ↔ p.transcriptHash = q.transcriptHash) ∧
    (p.transcriptHash = q.transcriptHash ↔
      p.clientHello = q.clientHello ∧ p.serverHello = q.serverHello ∧
        p.encryptedExtensions = q.encryptedExtensions ∧ p.certificate = q.certificate) ∧
    ∀ (state : ClientState) (scheme : Nat) (signature : Bytes),
      parseClientHello (p.clientHello.drop 4) d c = .ok state →
      scheme ∈ [ecdsaSecp256r1Sha256, rsaPssRsaeSha256, rsaPssPssSha256] →
      scheme ∈ state.signatureAlgorithms → signature ≠ [] →
      (frame 15 (be 2 scheme ++ vec 2 signature)).length ≤ 8192 →
      (be 1 2 ++ hashedSlice e p ++ frame 15 (be 2 scheme ++ vec 2 signature)).length ≤ 65536 →
      ∃ r, parseProof (be 1 2 ++ hashedSlice e p ++ frame 15 (be 2 scheme ++ vec 2 signature)) d c
          = .ok r ∧
        r.connectionWorkHash = p.connectionWorkHash ∧ r.transcriptHash = p.transcriptHash ∧
        r.certificateChain = p.certificateChain := by
  have hresigned := fun state scheme signature => @parseProof_resigned e d c p hp state scheme
    signature
  rcases (parseProof_eq_ok_iff e d c p).mp hp with ⟨-, -, -, -, name, -, t, rfl, rfl⟩
  rcases (parseProof_eq_ok_iff f d' c' q).mp hq with ⟨-, -, -, -, name', -, u, rfl, rfl⟩
  rw [hashedSlice_eq, hashedSlice_eq] at hwork htranscript
  rw [hashedSlice_eq] at hresigned ⊢
  have hmessages : t.hashed.flatten = u.hashed.flatten ↔
      t.parsed.clientHello = u.parsed.clientHello ∧ t.parsed.serverHello = u.parsed.serverHello ∧
        t.parsed.encryptedExtensions = u.parsed.encryptedExtensions ∧
        t.parsed.certificate = u.parsed.certificate := by
    constructor
    · intro h
      have hlist := hashed_eq_of_flatten_eq t u h
      simp only [ProofTree.hashed, List.cons.injEq, and_true] at hlist
      exact hlist
    · rintro ⟨hch, hsh, hee, hct⟩
      refine congrArg List.flatten ?_
      simp only [ProofTree.hashed, List.cons.injEq, and_true]
      exact ⟨hch, hsh, hee, hct⟩
  -- Each hash is equal exactly when the hashed bytes are.
  have hworkIff : t.parsed.connectionWorkHash = u.parsed.connectionWorkHash ↔
      t.hashed.flatten = u.hashed.flatten :=
    ⟨taggedHash_inj workTag _ _ hwork, congrArg (taggedHash workTag)⟩
  have htranscriptIff : t.parsed.transcriptHash = u.parsed.transcriptHash ↔
      t.hashed.flatten = u.hashed.flatten :=
    ⟨htranscript, congrArg sha256⟩
  refine ⟨⟨?_, rfl, rfl⟩, hworkIff.trans htranscriptIff.symm, htranscriptIff.trans hmessages,
    fun state scheme signature hclient hscheme hoffered hne hsize htotal => ?_⟩
  · rw [ProofTree.encode_eq, ← List.append_assoc]
  · rcases hresigned state scheme signature hclient hscheme hoffered hne hsize htotal
      with ⟨r, hr, hrwork, hrtranscript, hrchain, -⟩
    exact ⟨r, hr, hrwork, hrtranscript, hrchain⟩

/-- The first four messages of the structural vector. -/
def vectorHashed : Bytes :=
  (vectorMessages.take 4).flatten

/-- The structural vector with another server random. -/
def otherServerHello : Bytes :=
  vectorServerHello.take 6 ++ List.replicate 32 5 ++ vectorServerHello.drop 38

/-- The messages of the vector with the other ServerHello. -/
def otherMessages : List Bytes :=
  [vectorClientHello, otherServerHello, vectorEncryptedExtensions, vectorCertificate,
    vectorCertificateVerify]

/-- The proof with the other ServerHello. -/
def otherProof : Bytes :=
  be 1 proofVersion ++ otherMessages.flatten

theorem parseProof_otherProof :
    ∃ p, parseProof otherProof vectorDomain vectorChallenge = .ok p ∧
      p.messages = otherMessages := by
  have hok :
      ((parseProof otherProof vectorDomain vectorChallenge).map ParsedProof.messages).toOption
      = some otherMessages := by decide +kernel
  exact exists_of_toOption hok

theorem certificateVerify_of_messages {p : ParsedProof} {a b c d e : Bytes}
    (h : p.messages = [a, b, c, d, e]) : p.certificateVerify = e := by
  simp only [ParsedProof.messages, List.cons.injEq, and_true] at h
  exact h.2.2.2.2

/-- What is hashed of the structural vector. -/
theorem hashedSlice_vectorProof {p : ParsedProof} (h : p.messages = vectorMessages) :
    hashedSlice vectorProof p = vectorHashed := by
  rw [hashedSlice, certificateVerify_of_messages h]
  decide +kernel

theorem vectorProof_hashes_commit :
    ∃ p q r, parseProof vectorProof vectorDomain vectorChallenge = .ok p ∧
      parseProof otherProof vectorDomain vectorChallenge = .ok q ∧
      parseProof (be 1 2 ++ vectorHashed ++ frame 15 (be 2 0x0804 ++ vec 2 [9])) vectorDomain
        vectorChallenge = .ok r ∧
      p.connectionWorkHash ≠ q.connectionWorkHash ∧
      r.connectionWorkHash = p.connectionWorkHash := by
  rcases parseProof_vectorProof with ⟨p, hp, hmessages⟩
  rcases parseProof_otherProof with ⟨q, hq, hother⟩
  -- The hashed parts of the two proofs differ, and their hashes as well.
  have hslice := hashedSlice_vectorProof hmessages
  have hslice' : hashedSlice otherProof q = (otherMessages.take 4).flatten := by
    rw [hashedSlice, certificateVerify_of_messages hother]
    decide +kernel
  have hclient : p.clientHello = vectorClientHello := by
    simp only [ParsedProof.messages, vectorMessages, List.cons.injEq, and_true] at hmessages
    exact hmessages.1
  have hserver : p.serverHello ≠ q.serverHello := by
    simp only [ParsedProof.messages, vectorMessages, otherMessages, List.cons.injEq, and_true]
      at hmessages hother
    rw [hmessages.2.1, hother.2.1]
    decide +kernel
  have hcommit := accepted_hashes_commit vectorProof otherProof vectorDomain vectorDomain
    vectorChallenge vectorChallenge p q hp hq
    (by rw [hslice, hslice']; exact fun h => absurd h (by decide +kernel))
    (by rw [hslice, hslice']; exact fun h => absurd h (by decide +kernel))
  rw [hslice] at hcommit
  rcases hcommit with ⟨-, hwork, hmsgs, hreplace⟩
  rcases hreplace ⟨[0x1301], [0x0403, 0x0804, 0x0809], [0x001d], []⟩ 0x0804 [9]
    (by rw [hclient]; decide +kernel) (by decide) (by decide) (by decide) (by decide)
    (by decide +kernel) with ⟨r, hr, hrwork, -⟩
  exact ⟨p, q, r, hp, hq, hr, fun h => hserver (hmsgs.mp (hwork.mp h)).2.1, hrwork⟩

section Replay

variable (L : Lowercase)

/-- What the challenges of two claims hash must not collide. -/
def ClaimsCollisionFree (txid txid' : Str) (index index' : Int) : Prop :=
  ∀ a b : Bytes, txid = toHex a.reverse → txid' = toHex b.reverse →
    CollisionFree (taggedInput claimTag (claimPreimage a index))
      (taggedInput claimTag (claimPreimage b index'))

/-- Claims with one challenge are one claim. -/
theorem claim_eq_of_challenge_eq {txid txid' : Str} {index index' : Int} {c : Bytes}
    (h : claimChallenge L txid index = .ok c) (h' : claimChallenge L txid' index' = .ok c)
    (hcoll : ClaimsCollisionFree txid txid' index index') : txid = txid' ∧ index = index' := by
  rcases (claimChallenge_eq_ok_iff L _ _ _).mp h with ⟨hlo, hhi, a, ha, rfl, rfl⟩
  rcases (claimChallenge_eq_ok_iff L _ _ _).mp h' with ⟨hlo', hhi', b, hb, rfl, heq⟩
  have hpreimage := taggedHash_inj claimTag _ _ (hcoll a b rfl rfl) heq
  rcases claimPreimage_inj a b index index' ha hb ⟨hlo, hhi⟩ ⟨hlo', hhi'⟩ hpreimage
    with ⟨rfl, rfl⟩
  exact ⟨rfl, rfl⟩

/-- No work hash is shared by two claims: envelopes whose accepted proofs have
    the same work are for one domain, one transaction and one input. -/
theorem no_replay (A B : ConnectionProof) (cA cB : Bytes) (pA pB : ParsedProof)
    (hcA : A.challenge L = .ok cA) (hcB : B.challenge L = .ok cB)
    (hpA : parseProof A.proof A.domain cA = .ok pA)
    (hpB : parseProof B.proof B.domain cB = .ok pB)
    (hwork : CollisionFree (taggedInput workTag (hashedSlice A.proof pA))
      (taggedInput workTag (hashedSlice B.proof pB)))
    (hclaims : ClaimsCollisionFree A.txid B.txid A.inputIndex B.inputIndex)
    (h : pA.connectionWorkHash = pB.connectionWorkHash ∨ A.proof = B.proof) :
    A.domain = B.domain ∧ A.txid = B.txid ∧ A.inputIndex = B.inputIndex := by
  rcases (parseProof_eq_ok_iff _ _ _ _).mp hpA with ⟨-, hlenA, -, -, nameA, hnameA, t, heA, rfl⟩
  rcases (parseProof_eq_ok_iff _ _ _ _).mp hpB with ⟨-, hlenB, -, -, nameB, hnameB, u, heB, rfl⟩
  rw [heA, heB, hashedSlice_eq, hashedSlice_eq] at hwork
  -- Either the hashes agree, and do not collide, or the proofs do, and are cut in one way.
  have hhashed : t.hashed.flatten = u.hashed.flatten := by
    rcases h with h | h
    · exact taggedHash_inj workTag _ _ hwork h
    · rw [heA, heB] at h
      have ht : FramedProof t.encode t.messages := ⟨rfl, rfl, t.wellFramed_messages⟩
      have hu : FramedProof u.encode u.messages := ⟨rfl, rfl, u.wellFramed_messages⟩
      rw [h] at ht
      have hmessages := ht.messages_unique hu
      exact congrArg List.flatten (List.append_inj_left hmessages rfl)
  rcases domain_eq_of_hashed_eq hnameA hnameB hlenA hlenB t u hhashed with ⟨rfl, hdomain⟩
  exact ⟨hdomain, claim_eq_of_challenge_eq L hcA hcB hclaims⟩

end Replay

/-! ### The claim of the structural vector -/

section Claim

/-- The transaction of the vector's claim, as it is displayed. -/
def vectorTxid : Bytes :=
  octets 32 0xdc9023857775b489145e2169d642928ba0bdf188c3e6ab90699f239f0df6a1f1

/-- The vector's claim with a target of one repeated byte. -/
def vectorFields (target : UInt8) (proof : Bytes) : Fields where
  domain := vectorDomain
  txid := toHex vectorTxid
  inputIndex := 0
  connectionWorkTarget := toHex (List.replicate 32 target)
  rootCertificatesVersion := 1
  signatureAlgorithmsMask := 7
  validationTime := 1800000000
  proof := proof

theorem canonical_vectorDomain : isCanonicalDomain vectorDomain = true := by decide +kernel

theorem challenge_vectorTxid :
    vectorChallenge = taggedHash claimTag (claimPreimage vectorTxid.reverse 0) := by
  decide +kernel

theorem admitted_vectorFields (target : UInt8) (proof : Bytes) (h : proof.length ≤ 65536) :
    Admitted (vectorFields target proof) where
  version := rfl
  domain := canonical_vectorDomain
  txid := ⟨vectorTxid, rfl, rfl⟩
  connectionWorkTarget := ⟨_, List.length_replicate, rfl⟩
  inputIndex := ⟨Int.le_refl 0, Int.zero_le_ofNat _⟩
  rootCertificatesVersion := ⟨Int.le_refl 1, Int.ofNat_le_ofNat_of_le (by decide)⟩
  signatureAlgorithmsMask := ⟨Int.ofNat_le.mpr (by decide), Int.le_refl 7⟩
  validationTime := ⟨Int.ofNat_le.mpr (by decide), Int.ofNat_le.mpr (by decide)⟩
  proof := h

/-- The vector's proof in an envelope. -/
def vectorEnvelope (target : UInt8) : ConnectionProof :=
  ⟨vectorFields target vectorProof, admitted_vectorFields target vectorProof (by decide +kernel)⟩

/-- Every envelope of the vector's claim has its challenge. -/
theorem challenge_vectorClaim (e : ConnectionProof) (htxid : e.txid = toHex vectorTxid)
    (hindex : e.inputIndex = 0) : e.challenge Lowercase.ascii = .ok vectorChallenge := by
  have hrange := e.admitted.inputIndex
  refine (claimChallenge_eq_ok_iff _ _ _ _).mpr ⟨hrange.1, hrange.2, vectorTxid.reverse, rfl, ?_, ?_⟩
  · rw [List.reverse_reverse]
    exact htxid
  · rw [hindex]
    exact challenge_vectorTxid

theorem challenge_vectorEnvelope (target : UInt8) :
    (vectorEnvelope target).challenge Lowercase.ascii = .ok vectorChallenge :=
  challenge_vectorClaim _ rfl rfl

/-- The vector's proof with another signature. -/
def resignedProof : Bytes :=
  be 1 2 ++ vectorHashed ++ frame 15 (be 2 0x0804 ++ vec 2 [9])

/-- The proof with another signature, under another target. -/
def resignedEnvelope : ConnectionProof :=
  ⟨vectorFields 1 resignedProof, admitted_vectorFields 1 resignedProof (by decide +kernel)⟩

/-- Two accepted proofs of one work, which differ in their CertificateVerify:
    they are for one claim. -/
theorem vectorEnvelope_no_replay :
    ∃ p r, parseProof (vectorEnvelope 0xff).proof (vectorEnvelope 0xff).domain vectorChallenge =
        .ok p ∧
      parseProof resignedEnvelope.proof resignedEnvelope.domain vectorChallenge = .ok r ∧
      p.certificateVerify ≠ r.certificateVerify ∧ p.connectionWorkHash = r.connectionWorkHash ∧
      (vectorEnvelope 0xff).domain = resignedEnvelope.domain ∧
      (vectorEnvelope 0xff).txid = resignedEnvelope.txid ∧
      (vectorEnvelope 0xff).inputIndex = resignedEnvelope.inputIndex := by
  rcases parseProof_vectorProof with ⟨p, hp, hmessages⟩
  have hslice := hashedSlice_vectorProof hmessages
  have hclient : p.clientHello = vectorClientHello := by
    simp only [ParsedProof.messages, vectorMessages, List.cons.injEq, and_true] at hmessages
    exact hmessages.1
  rcases @parseProof_resigned _ _ _ _ hp
      ⟨[0x1301], [0x0403, 0x0804, 0x0809], [0x001d], []⟩ 0x0804 [9]
      (by rw [hclient]; decide +kernel) (by decide) (by decide) (by decide) (by decide)
      (by rw [hslice]; decide +kernel)
    with ⟨r, hr, hwork, -, -, hverify⟩
  rw [hslice] at hr
  have hcv : p.certificateVerify = vectorCertificateVerify := certificateVerify_of_messages hmessages
  -- The new message is cut off, and what is hashed is the same.
  have hslice' : hashedSlice resignedProof r = vectorHashed := by
    rw [hashedSlice, hverify]
    decide +kernel
  have hdiffer : p.certificateVerify ≠ r.certificateVerify := by
    rw [hcv, hverify]
    decide +kernel
  refine ⟨p, r, hp, hr, hdiffer, hwork.symm, no_replay Lowercase.ascii (vectorEnvelope 0xff)
    resignedEnvelope vectorChallenge vectorChallenge p r (challenge_vectorEnvelope _)
    (challenge_vectorClaim _ rfl rfl) hp hr (fun _ => ?_) (fun a b ha hb _ => ?_)
    (Or.inl hwork.symm)⟩
  · change taggedInput workTag (hashedSlice vectorProof p) =
      taggedInput workTag (hashedSlice resignedProof r)
    rw [hslice, hslice']
  · rw [List.reverse_inj.mp (toHex_inj _ _ (ha.symm.trans hb))]
    rfl

end Claim

end P2CTools
