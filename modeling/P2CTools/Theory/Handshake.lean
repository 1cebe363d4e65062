import P2CTools.Theory.Expansion
import P2CTools.Theory.Framing

/-!
# The Client's Half of the Handshake

The three things the client does with a handshake besides receiving it, each
against the grammar that the verifier's parser accepts.

The ClientHello it builds is a tree of the grammar, `builtHello`, so that what
the server may answer is known: the state of that tree is the client's session
id, its two suites, the schemes of its mask and its one key share. Its own
ServerHello parser cuts the message by position rather than with a reader. On
the answers the grammar allows it returns the suite and the share. And the key
schedule never fails on these, because every length it asks for is in range.

## Main definitions

* `builtHello`: The ClientHello that the client builds, as a tree.
* `builtState`: What that ClientHello offers.

## Theorems

* `buildClientHello_eq_ok`: The client builds the tree's encoding.
* `parseServerHello_eq_ok`: The client reads every ServerHello of the grammar.
* `deriveServerHandshakeKeys_eq_ok`: The key schedule does not fail.
-/

namespace P2CTools.Tls13

open Wire Grammar
open Protocol (frame Block Extension ClientState)

section Encoders

theorem extension_eq (type : Nat) (data : Bytes) (ht : type < 65536) (hd : data.length < 65536) :
    extension type data = .ok (be 2 type ++ vec 2 data) := by
  rw [extension, u16_eq type ht, u16_eq data.length hd, vec, ← List.append_assoc]
  rfl

theorem handshake_eq (type : Nat) (body : Bytes) (ht : type < 256) (hb : body.length < 16777216) :
    handshake type body = .ok (frame type body) := by
  have hsize := (toBytesBig_eq_ok_iff 3 body.length _).mpr
    ⟨Int.natCast_nonneg _, by omega, rfl⟩
  rw [handshake, singleByte_eq type ht, hsize, frame, vec, ← List.append_assoc]
  rfl

theorem mapM_u16_eq (values : List Nat) (h : ∀ v ∈ values, v < 65536) :
    (values.mapM fun (value : Nat) => u16 value) = .ok (values.map (be 2)) := by
  induction values with
  | nil => rfl
  | cons v values ih =>
      rw [List.mapM_cons, u16_eq v (h v List.mem_cons_self),
        ih fun w hw => h w (List.mem_cons_of_mem v hw)]
      rfl

theorem joinU16_eq (values : List Nat) (h : ∀ v ∈ values, v < 65536) :
    joinU16 values = .ok (ofWords values) := by
  rw [joinU16, mapM_u16_eq values h, ofWords, List.flatMap_def]
  rfl

end Encoders

section Hello

/-- The schemes a mask selects are there, and are two-byte numbers. -/
theorem maskSchemes_spec (mask : Int) (h : 1 ≤ mask ∧ mask ≤ 7) :
    maskSchemes mask ≠ [] ∧ (∀ w ∈ maskSchemes mask, w < 65536) ∧ (maskSchemes mask).length ≤ 3 := by
  have hcases : mask = 1 ∨ mask = 2 ∨ mask = 3 ∨ mask = 4 ∨ mask = 5 ∨ mask = 6 ∨ mask = 7 := by
    omega
  rcases hcases with rfl | rfl | rfl | rfl | rfl | rfl | rfl <;> decide

/-- The suites, the share and the schemes that the client's hello offers. -/
def builtState (sessionId : Bytes) (mask : Int) : ClientState where
  cipherSuites := [Protocol.tlsAes128GcmSha256, Protocol.tlsChacha20Poly1305Sha256]
  signatureAlgorithms := maskSchemes mask
  keyShareGroups := [groupX25519]
  legacySessionId := sessionId

/-- What a client's hello is built from. -/
structure HelloInputs where
  name : Bytes
  challenge : Bytes
  publicKey : Bytes
  sessionId : Bytes
  mask : Int
  name_le : name.length ≤ 253
  publicKey_length : publicKey.length = 32
  sessionId_le : sessionId.length ≤ 32
  mask_range : 1 ≤ mask ∧ mask ≤ 7

namespace HelloInputs

variable (i : HelloInputs)

/-- The schemes of the mask, as they are offered. -/
def signatureAlgorithms : WordList 2 where
  values := maskSchemes i.mask
  ne_nil := (maskSchemes_spec i.mask i.mask_range).1
  lt := (maskSchemes_spec i.mask i.mask_range).2.1
  length_lt := by
    have hlen := (maskSchemes_spec i.mask i.mask_range).2.2
    omega

theorem validShare_publicKey : ValidShare groupX25519 i.publicKey :=
  Or.inl ⟨rfl, i.publicKey_length⟩

theorem length_shares_lt :
    (([⟨groupX25519, i.publicKey, i.validShare_publicKey⟩] : List KeyShare).flatMap
      KeyShare.encode).length < 65536 := by
  rw [List.flatMap_singleton, KeyShare.encode, List.length_append, length_be, length_vec,
    i.publicKey_length]
  omega

/-- The one key share that is offered. -/
def keyShares : KeyShares where
  shares := [⟨groupX25519, i.publicKey, i.validShare_publicKey⟩]
  ne_nil := List.cons_ne_nil _ _
  nodup := List.nodup_singleton _
  length_lt := i.length_shares_lt

/-- The one version that is offered. -/
def versions : WordList 1 := ⟨[tls13], by decide, by decide, by decide⟩

/-- The cipher suites that are offered. -/
def cipherSuites : WordList 2 :=
  ⟨[Protocol.tlsAes128GcmSha256, Protocol.tlsChacha20Poly1305Sha256], by decide, by decide,
    by decide⟩

theorem encode_signatureAlgorithms :
    i.signatureAlgorithms.encode = vec 2 (ofWords (maskSchemes i.mask)) := rfl

theorem encode_keyShares :
    i.keyShares.encode = vec 2 (be 2 groupX25519 ++ vec 2 i.publicKey) := by
  change vec 2 ([_].flatMap KeyShare.encode) = _
  rw [List.flatMap_singleton, KeyShare.encode]

theorem encode_versions : versions.encode = [0x02] ++ be 2 tls13 := by decide

theorem length_signatureAlgorithms : i.signatureAlgorithms.encode.length ≤ 8 := by
  have hlen := (maskSchemes_spec i.mask i.mask_range).2.2
  rw [encode_signatureAlgorithms, length_vec, length_ofWords]
  omega

theorem length_keyShares : i.keyShares.encode.length = 38 := by
  rw [encode_keyShares, length_vec, List.length_append, length_be, length_vec, i.publicKey_length]

theorem length_serverName : (serverName i.name).length = i.name.length + 5 := by
  rw [serverName, length_vec, List.length_append, length_be, length_vec]
  omega

/-- The extensions in the order the client writes them. -/
def extensions : List Extension :=
  [⟨extServerName, serverName i.name, by decide, by
      have hname := i.name_le
      rw [i.length_serverName]
      omega⟩,
    ⟨extSupportedGroups, [0x00, 0x02] ++ be 2 groupX25519, by decide, by decide⟩,
    ⟨extSignatureAlgorithms, i.signatureAlgorithms.encode, by decide, by
      have hlen := i.length_signatureAlgorithms
      omega⟩,
    ⟨extSignatureAlgorithmsCert, vec 2 (ofWords certificateSignatureSchemes), by decide,
      by decide⟩,
    ⟨extSupportedVersions, versions.encode, by decide, by decide⟩,
    ⟨extKeyShare, i.keyShares.encode, by decide, by
      rw [i.length_keyShares]
      omega⟩]

theorem length_extensions : (i.extensions.flatMap Extension.encode).length ≤ 374 := by
  have hname := i.name_le
  have hsni := i.length_serverName
  have hsig := i.length_signatureAlgorithms
  have hshares := i.length_keyShares
  have hcert : (vec 2 (ofWords certificateSignatureSchemes)).length = 26 := by decide
  have hversions : versions.encode.length = 3 := by decide
  simp only [extensions, List.flatMap_cons, List.flatMap_nil, Extension.encode, List.length_append,
    length_be, length_vec, List.length_cons, List.length_nil] at hcert ⊢
  omega

/-- The extensions of the built hello, in order. -/
def block : Block where
  entries := i.extensions
  nodup := by
    change [extServerName, extSupportedGroups, extSignatureAlgorithms, extSignatureAlgorithmsCert,
      extSupportedVersions, extKeyShare].Nodup
    decide
  length_lt := by
    have hlen := i.length_extensions
    omega

end HelloInputs

/-- A block holds its `k`-th entry. -/
theorem holds_at (block : Block) (k : Nat) {x : Extension} (h : block.entries[k]? = some x) :
    block.Holds x.type x.data :=
  ⟨x, List.mem_of_getElem? h, rfl, rfl⟩

/-- The ClientHello that the client builds. -/
def builtHello (i : HelloInputs) : ClientHello i.name i.challenge where
  sessionId := i.sessionId
  cipherSuites := HelloInputs.cipherSuites
  block := i.block
  versions := HelloInputs.versions
  signatureAlgorithms := i.signatureAlgorithms
  keyShares := i.keyShares
  sessionId_le := i.sessionId_le
  holds_serverName := holds_at i.block 0 rfl
  holds_versions := holds_at i.block 4 rfl
  holds_signatureAlgorithms := holds_at i.block 2 rfl
  holds_keyShares := holds_at i.block 5 rfl
  allowed := by
    intro type htype
    change type ∉ [extServerName, extSupportedGroups, extSignatureAlgorithms,
      extSignatureAlgorithmsCert, extSupportedVersions, extKeyShare]
    revert type
    decide
  offers_tls13 := by decide

theorem state_builtHello (i : HelloInputs) :
    (builtHello i).state = builtState i.sessionId i.mask := rfl

/-- The hello fits a record and the proof's limit by far. -/
theorem length_builtHello (i : HelloInputs) (hc : i.challenge.length = 32) :
    (builtHello i).encode.length ≤ 453 := by
  have hext : (builtHello i).block.encode.length ≤ 376 := by
    have hlen := i.length_extensions
    change (vec 2 (i.extensions.flatMap Extension.encode)).length ≤ 376
    rw [length_vec]
    omega
  have hsession : (builtHello i).sessionId.length ≤ 32 := i.sessionId_le
  have hsuites : (builtHello i).cipherSuites.encode.length = 6 := rfl
  simp only [ClientHello.encode, List.length_append, length_be, length_vec, hc, hsuites,
    List.length_singleton]
  omega

theorem be_zero : be 1 0 = [0x00] := rfl

theorem clientHelloExtensions_eq (i : HelloInputs) :
    clientHelloExtensions i.name i.publicKey (signatureAlgorithms.filter fun algorithm =>
      i.mask.toNat &&& algorithm.mask ≠ 0) = .ok (i.extensions.flatMap Extension.encode) := by
  have hname := i.name_le
  have hsni := i.length_serverName
  have hsig := i.length_signatureAlgorithms
  have hshares := i.length_keyShares
  have hschemes := (maskSchemes_spec i.mask i.mask_range).2
  -- The lengths of the lists, which all fit their length fields.
  have hcert : (ofWords certificateSignatureSchemes).length = 24 := by decide
  have hwords : (ofWords (maskSchemes i.mask)).length ≤ 6 := by
    rw [length_ofWords]
    omega
  have hentry : (be 2 groupX25519 ++ be 2 i.publicKey.length ++ i.publicKey).length = 36 := by
    rw [List.length_append, List.length_append, length_be, length_be, i.publicKey_length]
  have hlist : ([0x00] ++ be 2 i.name.length ++ i.name).length = i.name.length + 3 := by
    simp only [List.length_append, length_be, List.length_singleton]
    omega
  unfold clientHelloExtensions
  simp only [bind_eq_ok_iff, pure_eq_ok_iff]
  -- Each helper of the builder returns its bytes, and the extensions are put together in the order
  -- of the tree.
  refine ⟨_, u16_eq _ (by omega), _, joinU16_eq (maskSchemes i.mask) hschemes.1, _,
    joinU16_eq certificateSignatureSchemes (by decide), _, u16_eq groupX25519 (by decide), _,
    u16_eq _ (by rw [i.publicKey_length]; decide), _, u16_eq _ (by rw [hlist]; omega), _,
    extension_eq _ _ (by decide) ?_, _, extension_eq _ _ (by decide) (by decide), _,
    u16_eq _ (by omega), _, extension_eq _ _ (by decide) ?_, _, u16_eq _ (by omega), _,
    extension_eq _ _ (by decide) ?_, _, u16_eq tls13 (by decide), _,
    extension_eq _ _ (by decide) (by decide), _, u16_eq _ (by rw [hentry]; omega), _,
    extension_eq _ _ (by decide) ?_, ?_⟩
  · rw [List.length_append, length_be, hlist]
    omega
  · rw [List.length_append, length_be]
    omega
  · rw [List.length_append, length_be]
    omega
  · rw [List.length_append, length_be, hentry]
    omega
  · simp only [HelloInputs.extensions, List.flatMap_cons, List.flatMap_nil, Extension.encode,
      i.encode_signatureAlgorithms, i.encode_keyShares, HelloInputs.encode_versions, serverName,
      be_zero, vec, List.append_nil, List.append_assoc]

theorem buildClientHello_eq_ok (i : HelloInputs) (domain : Str) (hd : CanonicalDomain domain)
    (hname : encodeAscii domain = .ok i.name) (hc : i.challenge.length = 32)
    (hs : 1 ≤ i.sessionId.length) :
    buildClientHello domain i.challenge i.publicKey i.sessionId i.mask =
      .ok (frame Protocol.clientHello (builtHello i).encode) := by
  have hext := i.length_extensions
  have hsession := i.sessionId_le
  have hmask := (validateSignatureAlgorithmsMask_eq_ok_iff (.int i.mask) i.mask).mpr
    ⟨rfl, i.mask_range⟩
  unfold buildClientHello
  simp only [bind_eq_ok_iff, failIf_eq_ok_iff, exists_const, not_not]
  refine ⟨_, hmask, ?_⟩
  refine ⟨(isCanonicalDomain_iff domain).mpr hd, hc, i.publicKey_length, ⟨hs, hsession⟩, _, hname,
    _, acceptedSignatureAlgorithms_eq i.mask i.mask_range, _, clientHelloExtensions_eq i, _,
    joinU16_eq _ (by decide), _, u16_eq tls12 (by decide), _, singleByte_eq _ (by omega), _,
    u16_eq _ (by decide), _, u16_eq _ (by omega), ?_⟩
  -- The bytes of the builder are those of the tree.
  have hbody : be 2 tls12 ++ i.challenge ++ be 1 i.sessionId.length ++ i.sessionId ++
      be 2 (ofWords [Protocol.tlsAes128GcmSha256, Protocol.tlsChacha20Poly1305Sha256]).length ++
      ofWords [Protocol.tlsAes128GcmSha256, Protocol.tlsChacha20Poly1305Sha256] ++ [0x01, 0x00] ++
      be 2 (i.extensions.flatMap Extension.encode).length ++
      i.extensions.flatMap Extension.encode = (builtHello i).encode := by
    simp only [ClientHello.encode, WordList.encode, Block.encode, vec, List.append_assoc]
    rfl
  have hlen := length_builtHello i hc
  rw [hbody, handshake_eq _ _ (by decide) (by omega)]

end Hello

section ServerHello

/-- Cutting out a part by its position. -/
theorem slice_mid (a b c : Bytes) (start stop : Nat) (hstart : start = a.length)
    (hstop : stop = a.length + b.length) : slice (a ++ (b ++ c)) start stop = b := by
  rw [slice, hstart, hstop, List.drop_left, Nat.add_sub_cancel_left, List.take_left]

theorem getIndex_mid (a c : Bytes) (x : UInt8) (k : Nat) (hk : k = a.length) :
    getIndex (a ++ ([x] ++ c)) k = .ok x := by
  rw [getIndex_eq_ok_iff, hk, List.getElem?_append_right (Nat.le_refl _), Nat.sub_self]
  rfl

theorem drop_mid (a c : Bytes) (k : Nat) (hk : k = a.length) : (a ++ c).drop k = c := by
  rw [hk, List.drop_left]

/-- The loop reads the entries of a block one after the other. -/
theorem parseExtensionsLoop_eq_ok (entries : List Extension) :
    ∀ (fuel : Nat) (pre : Bytes) (result : ExtensionMap),
      (result.map Prod.fst ++ entries.map Extension.type).Nodup → entries.length < fuel →
      parseExtensionsLoop (pre ++ entries.flatMap Extension.encode) fuel pre.length result =
        .ok (result ++ entries.map Extension.entry) := by
  induction entries with
  | nil =>
      intro fuel pre result _ hfuel
      cases fuel with
      | zero => omega
      | succ fuel =>
          rw [List.flatMap_nil, List.append_nil, parseExtensionsLoop, if_neg (Nat.lt_irrefl _),
            List.map_nil, List.append_nil]
  | cons x entries ih =>
      intro fuel pre result hnodup hfuel
      cases fuel with
      | zero => omega
      | succ fuel =>
          have hx := x.length_lt
          have htype := x.type_lt
          -- The three fields of the entry at the loop's position.
          have hencoded : pre ++ (x :: entries).flatMap Extension.encode =
              pre ++ (be 2 x.type ++ (be 2 x.data.length ++ (x.data ++
                entries.flatMap Extension.encode))) := by
            simp only [List.flatMap_cons, Extension.encode, vec, List.append_assoc]
          have hlen : (pre ++ (x :: entries).flatMap Extension.encode).length =
              pre.length + 4 + x.data.length + (entries.flatMap Extension.encode).length := by
            simp only [hencoded, List.length_append, length_be]
            omega
          have hread : beNat (slice (pre ++ (x :: entries).flatMap Extension.encode) pre.length
              (pre.length + 2)) = x.type := by
            rw [hencoded, slice_mid pre _ _ _ _ rfl (by rw [length_be]), beNat_be 2 _ (by omega)]
          have hsize : beNat (slice (pre ++ (x :: entries).flatMap Extension.encode)
              (pre.length + 2) (pre.length + 4)) = x.data.length := by
            rw [hencoded, ← List.append_assoc pre, slice_mid (pre ++ be 2 x.type) _ _ _ _
              (by rw [List.length_append, length_be]) (by simp only [List.length_append, length_be]),
              beNat_be 2 _ (by omega)]
          have hdata : slice (pre ++ (x :: entries).flatMap Extension.encode) (pre.length + 4)
              (pre.length + 4 + x.data.length) = x.data := by
            rw [hencoded, ← List.append_assoc pre, ← List.append_assoc (pre ++ _), slice_mid _ _ _ _ _
              (by simp only [List.length_append, length_be])
              (by simp only [List.length_append, length_be])]
          have hnew : x.type ∉ result.map Prod.fst := by
            intro hmem
            exact List.disjoint_of_nodup_append hnodup hmem List.mem_cons_self
          have hnext := ih fuel (pre ++ x.encode) (result ++ [x.entry]) ?_ (by
            rw [List.length_cons] at hfuel
            omega)
          · rw [parseExtensionsLoop, if_pos (by omega), hread, hsize]
            simp only [bind_eq_ok_iff, failIf_eq_ok_iff, exists_const, Protocol.has_iff]
            refine ⟨by omega, by omega, hnew, ?_⟩
            rw [hdata, Protocol.setItem_of_not_has _ _ _ hnew]
            rw [List.append_assoc, List.length_append, List.append_assoc] at hnext
            have hpos : pre.length + x.encode.length = pre.length + 4 + x.data.length := by
              rw [Extension.encode, List.length_append, length_be, length_vec]
              omega
            rw [hpos] at hnext
            exact hnext
          · rw [List.map_append, List.append_assoc]
            exact hnodup

theorem parseExtensions_eq_ok (block : Block) :
    parseExtensions (block.entries.flatMap Extension.encode) = .ok block.map := by
  -- Every extension takes bytes, so the length is enough fuel.
  have hcount : ∀ entries : List Extension,
      entries.length ≤ (entries.flatMap Extension.encode).length := by
    intro entries
    induction entries with
    | nil => exact Nat.le_refl 0
    | cons x entries ih =>
        have hpos := List.length_pos_iff.mpr x.encode_ne_nil
        rw [List.flatMap_cons, List.length_append, List.length_cons]
        omega
  have hloop := parseExtensionsLoop_eq_ok block.entries
    ((block.entries.flatMap Extension.encode).length + 1) [] [] block.nodup
    (Nat.lt_succ_of_le (hcount block.entries))
  exact hloop

/-- On an X25519 share the client takes the key out. -/
theorem parseKeyShare_eq_ok (share : KeyShare) (hgroup : share.group = groupX25519) :
    parseKeyShare share.encode = .ok share.exchange := by
  have hlen : share.exchange.length = 32 := by
    rcases share.valid with ⟨-, h⟩ | ⟨h, -⟩
    · exact h
    · rw [hgroup] at h
      exact absurd h (by decide)
  -- The share is cut where the client cuts it.
  have hencode : share.encode = be 2 groupX25519 ++ (be 2 share.exchange.length ++
      (share.exchange ++ [])) := by
    rw [KeyShare.encode, hgroup, vec, List.append_nil]
  have hsize : beNat (slice share.encode 2 4) = 32 := by
    rw [hencode, slice_mid (be 2 groupX25519) (be 2 share.exchange.length) _ 2 4
      (by rw [length_be]) (by rw [length_be, length_be]), hlen]
    rfl
  have htotal : share.encode.length = 36 := by
    rw [hencode]
    simp only [List.length_append, length_be, List.length_nil, hlen]
  unfold parseKeyShare
  simp only [bind_eq_ok_iff, failIf_eq_ok_iff, exists_const, pure_eq_ok_iff, not_or, not_lt,
    not_not, hsize, htotal, true_and, and_true, ne_eq]
  refine ⟨⟨by omega, ?_⟩, ?_⟩
  · rw [hencode, List.take_left' (length_be 2 _)]
    rfl
  · rw [hencode, ← List.append_assoc, List.append_nil,
      drop_mid (be 2 groupX25519 ++ be 2 share.exchange.length) _ 4
      (by rw [List.length_append, length_be, length_be])]

theorem parseServerHello_eq_ok {client : ClientState} (t : Grammar.ServerHello client)
    (hsession : client.legacySessionId.length ≤ 32) (hgroup : t.share.group = groupX25519)
    (hsize : t.encode.length < 16777216) :
    parseServerHello (frame Protocol.serverHello t.encode) client.legacySessionId =
      .ok (t.cipherSuite, t.share.exchange) := by
  have hframed := wellFramed_frame Protocol.serverHello t.encode hsize
  have hlen : (frame Protocol.serverHello t.encode).length = 4 + t.encode.length :=
    Protocol.length_frame _ _
  have hannounced : beNat (slice (frame Protocol.serverHello t.encode) 1 4) = t.encode.length := by
    have h := hframed.2
    rw [announcedSize, hlen] at h
    omega
  have hextensions := t.block.length_lt
  have hsuite := t.cipherSuite_lt
  have hrandom := t.random_length
  let sid := client.legacySessionId
  let entries := t.block.entries.flatMap Extension.encode
  -- The body, cut at each of the positions the parser looks at.
  have hbody : t.encode = be 2 tls12 ++ (t.random ++ (be 1 sid.length ++ (sid ++
      (be 2 t.cipherSuite ++ (be 1 0 ++ (be 2 entries.length ++ entries)))))) := by
    simp only [ServerHello.encode, Block.encode, vec, List.append_assoc]
    rfl
  have htotal : t.encode.length = 40 + sid.length + entries.length := by
    rw [hbody]
    simp only [List.length_append, length_be, hrandom]
    omega
  have hversion : t.encode.take 2 = be 2 tls12 := by
    rw [hbody, List.take_left' (length_be 2 _)]
  have hrandom' : slice t.encode 2 34 = t.random := by
    rw [hbody, slice_mid (be 2 tls12) t.random _ 2 34 (by rw [length_be])
      (by rw [length_be, hrandom])]
  have hsessionByte : getIndex t.encode 34 = .ok (UInt8.ofNat sid.length) := by
    rw [hbody, ← List.append_assoc]
    exact getIndex_mid (be 2 tls12 ++ t.random) _ _ 34
      (by rw [List.length_append, length_be, hrandom])
  have hsessionSize : (UInt8.ofNat sid.length).toNat = sid.length := by
    rw [UInt8.toNat_ofNat']
    exact Nat.mod_eq_of_lt (by change client.legacySessionId.length < 256; omega)
  have hsessionId : slice t.encode 35 (35 + sid.length) = sid := by
    rw [hbody, ← List.append_assoc, ← List.append_assoc]
    exact slice_mid (be 2 tls12 ++ t.random ++ be 1 sid.length) sid _ _ _
      (by simp only [List.length_append, length_be, hrandom])
      (by simp only [List.length_append, length_be, hrandom])
  have hcipher : beNat (slice t.encode (35 + sid.length) (35 + sid.length + 2)) =
      t.cipherSuite := by
    rw [hbody, ← List.append_assoc, ← List.append_assoc, ← List.append_assoc,
      slice_mid (be 2 tls12 ++ t.random ++ be 1 sid.length ++ sid) (be 2 t.cipherSuite) _ _ _
        (by simp only [List.length_append, length_be, hrandom])
        (by simp only [List.length_append, length_be, hrandom]), beNat_be 2 _ (by omega)]
  have hcompression : getIndex t.encode (35 + sid.length + 2) = .ok 0 := by
    rw [hbody, ← List.append_assoc, ← List.append_assoc, ← List.append_assoc, ← List.append_assoc]
    exact getIndex_mid (be 2 tls12 ++ t.random ++ be 1 sid.length ++ sid ++ be 2 t.cipherSuite) _ 0
      _ (by simp only [List.length_append, length_be, hrandom])
  have hsizes : beNat (slice t.encode (35 + sid.length + 3) (35 + sid.length + 5)) =
      entries.length := by
    rw [hbody, ← List.append_assoc, ← List.append_assoc, ← List.append_assoc, ← List.append_assoc,
      ← List.append_assoc, slice_mid (be 2 tls12 ++ t.random ++ be 1 sid.length ++ sid ++
        be 2 t.cipherSuite ++ be 1 0) (be 2 entries.length) _ _ _
        (by simp only [List.length_append, length_be, hrandom])
        (by simp only [List.length_append, length_be, hrandom]), beNat_be 2 _ (by omega)]
  have hentries : t.encode.drop (35 + sid.length + 5) = entries := by
    rw [hbody, ← List.append_assoc, ← List.append_assoc, ← List.append_assoc, ← List.append_assoc,
      ← List.append_assoc, ← List.append_assoc]
    exact drop_mid _ entries _ (by simp only [List.length_append, length_be, hrandom])
  unfold parseServerHello
  simp only [bind_eq_ok_iff, failIf_eq_ok_iff, exists_const, pure_eq_ok_iff, drop_frame]
  refine ⟨?_, ?_, ?_, ?_, _, hsessionByte, ?_⟩
  · rw [hlen]
    refine not_or.mpr ⟨by omega, not_not.mpr rfl⟩
  · rw [hannounced, hlen]
    omega
  · rw [hversion]
    exact not_or.mpr ⟨by omega, not_not.mpr rfl⟩
  · rw [hrandom']
    exact t.random_ne
  · simp only [hsessionSize, hsessionId, hcipher, hsizes, hentries]
    have hsid : sid.length ≤ 32 := hsession
    have hshare := (t.block.getItem_map _ _).mpr t.holds_share
    refine ⟨not_or.mpr ⟨by omega, by omega⟩, not_not.mpr rfl, not_not.mpr t.cipherSuite_mem, 0,
      hcompression, not_not.mpr rfl, by omega, t.block.map, parseExtensions_eq_ok t.block,
      not_not.mpr ((Protocol.keysAre_iff t.block _ _).mpr t.types), _,
      (t.block.getItem_map _ _).mpr t.holds_version, not_not.mpr rfl, _, hshare, _,
      parseKeyShare_eq_ok t.share hgroup, rfl⟩

end ServerHello

section KeySchedule

theorem hkdfExpandLabel_eq_ok (secret label context : Bytes) (length : Nat)
    (hlabel : 1 ≤ label.length ∧ label.length ≤ 249) (hcontext : context.length ≤ 255)
    (hlength : length ≤ 255 * 32) :
    ∃ b, hkdfExpandLabel secret label context length = .ok b ∧ b.length = length := by
  have hinfo := hkdfLabel_eq_ok label context length (by omega) ⟨hlabel, hcontext⟩
  rw [hkdfExpandLabel, hinfo]
  exact hkdfExpand_eq_ok secret _ length hlength

theorem deriveSecret_eq_ok (secret label transcript : Bytes)
    (hlabel : 1 ≤ label.length ∧ label.length ≤ 249) :
    ∃ b, deriveSecret secret label transcript = .ok b ∧ b.length = 32 :=
  hkdfExpandLabel_eq_ok secret label (sha256 transcript) 32 hlabel
    (by rw [length_sha256]; omega) (by omega)

/-- The key schedule does not fail on the suites of the profile, and its
    initialisation vector has twelve bytes. -/
theorem deriveServerHandshakeKeys_eq_ok (sharedSecret transcript : Bytes) (cipherSuite : Nat)
    (hsuite : cipherSuite ∈ [Protocol.tlsAes128GcmSha256, Protocol.tlsChacha20Poly1305Sha256]) :
    ∃ keys, deriveServerHandshakeKeys sharedSecret transcript cipherSuite = .ok keys ∧
      keys.cipherSuite = cipherSuite ∧ keys.iv.length = 12 := by
  have hsize : ∃ size : Nat, keyLength cipherSuite = .ok size ∧ size ≤ 32 := by
    rw [List.mem_cons, List.mem_singleton] at hsuite
    rcases hsuite with rfl | rfl
    · exact ⟨16, rfl, by omega⟩
    · exact ⟨32, rfl, by omega⟩
  rcases hsize with ⟨size, hsize, hle⟩
  -- The steps of the schedule, each with labels and lengths within the limits.
  rcases deriveSecret_eq_ok (hkdfExtract (List.replicate 32 0) (List.replicate 32 0))
    (asciiLiteral "derived") [] (by decide) with ⟨derived, hderived, -⟩
  rcases deriveSecret_eq_ok (hkdfExtract derived sharedSecret) (asciiLiteral "s hs traffic")
    transcript (by decide) with ⟨traffic, htraffic, -⟩
  rcases hkdfExpandLabel_eq_ok traffic (asciiLiteral "key") [] size (by decide) (by decide)
    (by omega) with ⟨key, hkey, -⟩
  rcases hkdfExpandLabel_eq_ok traffic (asciiLiteral "iv") [] 12 (by decide) (by decide)
    (by omega) with ⟨iv, hiv, hlen⟩
  refine ⟨⟨cipherSuite, key, iv⟩, ?_, rfl, hlen⟩
  unfold deriveServerHandshakeKeys
  simp only [bind_eq_ok_iff, pure_eq_ok_iff]
  exact ⟨derived, hderived, traffic, htraffic, size, hsize, key, hkey, iv, hiv, rfl⟩

end KeySchedule

end P2CTools.Tls13
