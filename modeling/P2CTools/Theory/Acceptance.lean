import P2CTools.Theory.Grammar

/-!
# What the Parser Accepts

The parser accepts the proofs of the grammar and nothing else, and returns
what the tree says.

Each function of the parser gets one equivalence, between a successful run and
the existence of a tree that writes its input. Inside a function the rules for
the reader's methods peel the statements off one at a time, so that the run
becomes the list of conditions it checks and of bytes it takes; what is left
is to put the bytes together into the encoding of a tree, and to take an
encoding apart again. The loops were described once, in `readAll_eq_ok_iff`.

## Theorems

* `parseSni_eq_ok_iff`, `readSupportedVersions_eq_ok_iff`,
  `readSignatureAlgorithms_eq_ok_iff`, `readKeyShares_eq_ok_iff`: The
  ClientHello extensions the parser reads.
* `parseClientHello_eq_ok_iff`, `parseServerHello_eq_ok_iff`,
  `parseEncryptedExtensions_eq_ok_iff`, `parseCertificate_eq_ok_iff`,
  `parseCertificateVerify_eq_ok_iff`: The five messages.
* `readMessages_eq_ok_iff`: The five frames.
* `parseProof_eq_ok_iff`: The whole proof.
* `parseProof_succeeds_iff`: The accepted byte strings, written out.
-/

namespace P2CTools.Protocol

open Wire Reader Grammar

section Extensions

/-- The `server_name` data must be the one DNS name of the domain. -/
theorem parseSni_eq_ok_iff (encoded : Bytes) (domain : Str) (u : Unit) :
    parseSni encoded domain = .ok u ↔
      ∃ name, encodeAscii domain = .ok name ∧ encoded = serverName name ∧
        name.length + 3 < 65536 := by
  cases u
  unfold parseSni
  rw [runCursor_eq_ok_iff]
  simp only [accepts_u16_bind, accepts_getRemaining_bind, accepts_raiseIf_bind, accepts_u8_bind,
    accepts_read_bind, accepts_isEmpty_bind, accepts_call_bind, accepts_raiseIf, ne_eq, not_not,
    not_or, and_true]
  constructor
  · rintro ⟨size, t, rfl, hsize, hleft, type, t₁, rfl, -, length, t₂, rfl, hlength, name, t₃, rfl,
      rfl, ⟨rfl, hend⟩, expected, hexp, rfl⟩
    rw [List.isEmpty_iff] at hend
    -- Nothing is left behind the name, so the list holds this one entry.
    subst hend
    refine ⟨name, hexp, ?_, ?_⟩
    · have hlen : size = (be 1 0 ++ vec 2 name).length := by
        simp only [List.length_append, length_be, length_vec, List.length_nil] at hleft ⊢
        omega
      rw [hlen]
      simp only [serverName, vec, List.append_nil]
    · simp only [List.length_append, length_be, List.length_nil] at hleft
      omega
  · rintro ⟨name, hexp, rfl, hlt⟩
    have hlen : (be 1 0 ++ vec 2 name).length = name.length + 3 := by
      simp only [List.length_append, length_be, length_vec]
      omega
    refine ⟨(be 1 0 ++ vec 2 name).length, be 1 0 ++ vec 2 name, rfl, by omega, rfl, 0,
      vec 2 name, rfl, by omega, name.length, name, rfl, by omega, name, [],
      (List.append_nil _).symm, rfl, ⟨rfl, List.isEmpty_nil⟩, name, hexp, rfl⟩

theorem words_encode {k : Nat} (l : WordList k) : words (ofWords l.values) = l.values :=
  words_ofWords l.values l.lt

/-- A length-prefixed string of whole words, at least one, is a word list. -/
theorem exists_wordList (k : Nat) (encoded : Bytes) (hk : encoded.length < 256 ^ k)
    (hpos : ¬ encoded.length < 2) (heven : encoded.length % 2 = 0) :
    ∃ l : WordList k, encoded = ofWords l.values ∧ l.values = words encoded := by
  have hback := ofWords_words encoded heven
  have hne : words encoded ≠ [] := words_ne_nil encoded fun h => hpos (by rw [h]; decide)
  have hlen : 2 * (words encoded).length < 256 ^ k := by
    rw [← length_ofWords, hback]
    exact hk
  exact ⟨⟨words encoded, hne, words_lt encoded, hlen⟩, hback.symm, rfl⟩

theorem readSupportedVersions_eq_ok_iff (encoded : Bytes) (u : Unit) :
    readSupportedVersions encoded = .ok u ↔
      ∃ versions : WordList 1, encoded = versions.encode ∧ tls13 ∈ versions.values := by
  cases u
  unfold readSupportedVersions
  rw [runCursor_eq_ok_iff]
  simp only [accepts_u8_bind, accepts_raiseIf_bind, accepts_read_bind, accepts_isEmpty_bind,
    accepts_raiseIf, not_not, not_or, and_true]
  constructor
  · rintro ⟨size, t, rfl, hsize, ⟨hpos, heven⟩, versions, t₁, rfl, rfl, hend, hmem⟩
    rw [List.isEmpty_iff] at hend
    subst hend
    -- The string is not empty and of even length, so it is a list of words.
    rcases exists_wordList 1 versions hsize hpos (by omega) with ⟨l, hl, hvalues⟩
    refine ⟨l, ?_, by rw [hvalues]; exact hmem⟩
    rw [List.append_nil, WordList.encode, vec, ← hl]
  · rintro ⟨l, rfl, hmem⟩
    have hne := ofWords_ne_nil l.values l.ne_nil
    refine ⟨(ofWords l.values).length, ofWords l.values, rfl, ?_, ⟨by omega, ?_⟩,
      ofWords l.values, [], (List.append_nil _).symm, rfl, List.isEmpty_nil, ?_⟩
    · rw [length_ofWords]
      exact l.length_lt
    · rw [length_ofWords]
      omega
    · rw [words_encode]
      exact hmem

theorem readSignatureAlgorithms_eq_ok_iff (encoded : Bytes) (algorithms : List Nat) :
    readSignatureAlgorithms encoded = .ok algorithms ↔
      ∃ l : WordList 2, encoded = l.encode ∧ algorithms = l.values := by
  unfold readSignatureAlgorithms
  rw [runCursor_eq_ok_iff]
  simp only [accepts_u16_bind, accepts_raiseIf_bind, accepts_read_bind, accepts_isEmpty_bind,
    accepts_pure, not_not, not_or]
  constructor
  · rintro ⟨size, t, rfl, hsize, ⟨hpos, heven⟩, signatures, t₁, rfl, rfl, hend, rfl⟩
    rw [List.isEmpty_iff] at hend
    subst hend
    rcases exists_wordList 2 signatures hsize hpos (by omega) with ⟨l, hl, hvalues⟩
    refine ⟨l, ?_, hvalues.symm⟩
    rw [List.append_nil, WordList.encode, vec, ← hl]
  · rintro ⟨l, rfl, rfl⟩
    have hne := ofWords_ne_nil l.values l.ne_nil
    refine ⟨(ofWords l.values).length, ofWords l.values, rfl, ?_, ⟨by omega, ?_⟩,
      ofWords l.values, [], (List.append_nil _).symm, rfl, List.isEmpty_nil, words_encode l⟩
    · rw [length_ofWords]
      exact l.length_lt
    · rw [length_ofWords]
      omega

/-- The share test never fails to decide: the index it uses is in range. -/
theorem validKeyShare_eq_ok (group : Nat) (exchange : Bytes) :
    ∃ valid : Bool, validKeyShare group exchange = .ok valid ∧
      (valid = true ↔ ValidShare group exchange) := by
  unfold validKeyShare ValidShare
  -- The x25519 test is of the length alone.
  by_cases hx : group = groupX25519
  · refine ⟨_, if_pos hx, ?_⟩
    rw [decide_eq_true_eq]
    subst hx
    have hother : groupX25519 ≠ groupSecp256r1 := by decide
    simp only [true_and, hother, false_and, or_false]
  · rw [if_neg hx]
    by_cases hp : group = groupSecp256r1 ∧ exchange.length = 65
    -- The point has 65 bytes, so its first byte can be read.
    · rw [if_pos hp]
      rcases hp with ⟨rfl, hlen⟩
      match exchange with
      | x :: rest =>
          refine ⟨decide (x.toNat = 4), rfl, ?_⟩
          rw [decide_eq_true_eq]
          simp only [hx, false_and, false_or, hlen, true_and, List.head?_cons, Option.some.injEq,
            ← UInt8.toNat_inj]
          rfl
    · rw [if_neg hp]
      refine ⟨false, rfl, ?_⟩
      simp only [Bool.false_eq_true, hx, false_and, false_or, false_iff]
      exact fun h => hp ⟨h.1, h.2.1⟩

/-- A pass of the key share loop reads a share of a group not seen before. -/
abbrev ReadsShare : List Nat → Bytes → List Nat → Prop :=
  Collects KeyShare.encode KeyShare.group (fun groups share => id share.group ∉ groups.map id)

theorem parses_keyShareStep (groups : List Nat) :
    Parses (keyShareStep groups) (fun b groups' _ => ReadsShare groups b groups') := by
  refine parses_of_accepts fun pre rest Q => ?_
  simp only [keyShareStep, accepts_u16_bind, accepts_raiseIf_bind, accepts_read_bind,
    accepts_call_bind, accepts_pure, not_not, not_or]
  constructor
  · rintro ⟨group, t, rfl, hgroup, size, t₁, rfl, hsize, hpos, exchange, t₂, rfl, rfl, valid,
      hrun, ⟨rfl, hnew⟩, hQ⟩
    -- The test of the share returned true, and it returns one value only.
    rcases validKeyShare_eq_ok group exchange with ⟨valid', hrun', hvalid⟩
    rw [hrun, Except.ok.injEq] at hrun'
    refine ⟨_, be 2 group ++ vec 2 exchange, t₂, ?_, ⟨⟨group, exchange, hvalid.mp hrun'.symm⟩,
      rfl, ?_, rfl⟩, ?_⟩
    · simp only [vec, List.append_assoc]
    · change group ∉ groups.map id
      rw [List.map_id]
      exact hnew
    · simp only [vec, List.append_assoc] at hQ ⊢
      exact hQ
  -- A valid share has a group and a length that fit their fields.
  · rintro ⟨groups', b, t, rfl, ⟨⟨group, exchange, hvalid⟩, rfl, hnew, rfl⟩, hQ⟩
    rcases validKeyShare_eq_ok group exchange with ⟨valid, hrun, hiff⟩
    have hlen := hvalid.length
    change group ∉ groups.map id at hnew
    rw [List.map_id] at hnew
    refine ⟨group, vec 2 exchange ++ t, ?_, hvalid.group_lt, exchange.length, exchange ++ t, ?_,
      hlen.2, by omega, exchange, t, rfl, rfl, valid, hrun, ⟨hiff.mpr hvalid, hnew⟩, ?_⟩
    · rw [KeyShare.encode, List.append_assoc]
    · rw [vec, List.append_assoc]
    · simp only [KeyShare.encode, vec, List.append_assoc] at hQ ⊢
      exact hQ

theorem ReadsShare.ne_nil (groups : List Nat) (b : Bytes) (groups' : List Nat)
    (h : ReadsShare groups b groups') : b ≠ [] := by
  rcases h with ⟨share, rfl, -⟩
  exact share.encode_ne_nil

theorem readAll_keyShareStep (data : Bytes) (groups : List Nat) :
    readAll data keyShareStep [] = .ok groups ↔
      ∃ shares : List KeyShare, data = shares.flatMap KeyShare.encode ∧
        (shares.map KeyShare.group).Nodup ∧ groups = shares.map KeyShare.group := by
  rw [readAll_eq_ok_iff parses_keyShareStep ReadsShare.ne_nil, items_collects_iff]
  simp only [List.nil_append]
  refine exists_congr fun shares => and_congr_right fun _ => and_congr_left fun _ => ?_
  rw [eachFits_fresh_iff KeyShare.group id [] shares List.nodup_nil, List.nil_append, List.map_id]

theorem readKeyShares_eq_ok_iff (encoded : Bytes) (groups : List Nat) :
    readKeyShares encoded = .ok groups ↔
      ∃ l : KeyShares, encoded = l.encode ∧ groups = l.groups := by
  unfold readKeyShares
  rw [runCursor_eq_ok_iff]
  simp only [accepts_u16_bind, accepts_raiseIf_bind, accepts_read_bind, accepts_isEmpty_bind,
    accepts_call, readAll_keyShareStep, not_not]
  constructor
  · rintro ⟨size, t, rfl, hsize, hpos, data, t₁, rfl, rfl, hend, _,
      ⟨shares, rfl, hnodup, rfl⟩, rfl⟩
    rw [List.isEmpty_iff] at hend
    subst hend
    -- A positive size is that of at least one share.
    have hne : shares ≠ [] := by
      rintro rfl
      exact hpos rfl
    refine ⟨⟨shares, hne, hnodup, hsize⟩, ?_, rfl⟩
    rw [List.append_nil, KeyShares.encode, vec]
  · rintro ⟨l, rfl, rfl⟩
    refine ⟨_, l.shares.flatMap KeyShare.encode, rfl, l.length_lt, ?_,
      l.shares.flatMap KeyShare.encode, [], (List.append_nil _).symm, rfl, List.isEmpty_nil, _,
      ⟨l.shares, rfl, l.nodup, rfl⟩, rfl⟩
    intro hlen
    exact l.ne_nil ((flatMap_eq_nil_iff _ KeyShare.encode_ne_nil _).mp
      (List.eq_nil_of_length_eq_zero hlen))

end Extensions

section Messages

/-- A block's dictionary has all of some types when the block holds each. -/
theorem all_has_iff (block : Block) (types : List Nat) :
    types.all block.map.has = true ↔ ∀ type ∈ types, type ∈ block.entries.map Extension.type := by
  simp only [List.all_eq_true, block.has_map]

theorem not_any_has_iff (block : Block) (types : List Nat) :
    ¬ types.any block.map.has = true ↔
      ∀ type ∈ types, type ∉ block.entries.map Extension.type := by
  simp only [List.any_eq_true, block.has_map, not_exists, not_and]

theorem Block.Holds.mem {block : Block} {type : Nat} {data : Bytes} (h : block.Holds type data) :
    type ∈ block.entries.map Extension.type := by
  rcases h with ⟨x, hx, rfl, -⟩
  exact List.mem_map.mpr ⟨x, hx, rfl⟩

theorem parseClientHello_eq_ok_iff (body : Bytes) (domain : Str) (challenge : Bytes)
    (hc : challenge.length = 32) (state : ClientState) :
    parseClientHello body domain challenge = .ok state ↔
      ∃ name, encodeAscii domain = .ok name ∧
        ∃ t : ClientHello name challenge, body = t.encode ∧ state = t.state := by
  unfold parseClientHello
  rw [runCursor_eq_ok_iff]
  simp only [accepts_u16_bind, accepts_u8_bind, accepts_raiseIf_bind, accepts_read_bind,
    accepts_extensions_bind, accepts_isEmpty_bind, accepts_call_bind, accepts_pure, not_not,
    not_or, Block.getItem_map, parseSni_eq_ok_iff, readSupportedVersions_eq_ok_iff,
    readSignatureAlgorithms_eq_ok_iff, readKeyShares_eq_ok_iff, all_has_iff, not_any_has_iff,
    List.isEmpty_nil, true_and, ne_eq, exists_const, gt_iff_lt, not_lt]
  constructor
  -- Each step of the parser gives one component of the tree.
  · rintro ⟨version, t, rfl, -, rfl, random, t₁, rfl, -, rfl, sessionSize, t₂, rfl, -, hsession,
      sessionId, t₃, rfl, rfl, cipherSize, t₄, rfl, hcipher, ⟨hpos, heven⟩, ciphers, t₅, rfl, rfl,
      compressionSize, t₆, rfl, -, compression, t₇, rfl, rfl, ⟨-, rfl⟩, block, rfl, hrequired, sni,
      hsni, ⟨name, hname, rfl, -⟩, hforbidden, versions, hversions, ⟨l, rfl, htls13⟩, signatures,
      hsignatures, algorithms, ⟨lsig, rfl, rfl⟩, shares, hshares, groups, ⟨lshares, rfl, rfl⟩, rfl⟩
    rcases exists_wordList 2 ciphers hcipher (by omega) (by omega) with ⟨lc, hlc, hvalues⟩
    refine ⟨name, hname, ⟨sessionId, lc, block, l, lsig, lshares, hsession, hsni, hversions,
      hsignatures, hshares, hforbidden, htls13⟩, ?_, ?_⟩
    · simp only [ClientHello.encode, WordList.encode, ← hlc, vec, List.append_assoc]
    · rw [ClientHello.state, hvalues]
  -- Each component of the tree passes the check of its step.
  · rintro ⟨name, hname, t, rfl, rfl⟩
    have hne := ofWords_ne_nil t.cipherSuites.values t.cipherSuites.ne_nil
    have hlen := t.cipherSuites.length_lt
    have hsession := t.sessionId_le
    refine ⟨tls12, _, ?_, by decide, rfl, challenge, _, rfl, hc, rfl, t.sessionId.length, _, rfl,
      by omega, hsession, t.sessionId, _, rfl, rfl, (ofWords t.cipherSuites.values).length, _, rfl,
      ?_, ⟨by omega, ?_⟩, ofWords t.cipherSuites.values, _, rfl, rfl, 1, _, rfl, by omega, [0], _,
      rfl, rfl, ⟨rfl, rfl⟩, t.block, rfl, ?_, serverName name, t.holds_serverName,
      ⟨name, hname, rfl, ?_⟩, t.allowed, t.versions.encode, t.holds_versions,
      ⟨t.versions, rfl, t.offers_tls13⟩, t.signatureAlgorithms.encode,
      t.holds_signatureAlgorithms, _, ⟨t.signatureAlgorithms, rfl, rfl⟩, t.keyShares.encode,
      t.holds_keyShares, _, ⟨t.keyShares, rfl, rfl⟩, ?_⟩
    · simp only [ClientHello.encode, WordList.encode, vec, List.append_assoc, List.length_singleton]
    · rw [length_ofWords]
      exact hlen
    · rw [length_ofWords]
      omega
    -- The four required extensions are among those the tree holds.
    · intro type htype
      simp only [requiredExtensions, List.mem_cons, List.not_mem_nil, or_false] at htype
      rcases htype with rfl | rfl | rfl | rfl
      · exact t.holds_serverName.mem
      · exact t.holds_versions.mem
      · exact t.holds_signatureAlgorithms.mem
      · exact t.holds_keyShares.mem
    · have hsni := t.holds_serverName.length_lt
      simp only [serverName, length_vec, List.length_append, length_be] at hsni
      omega
    · rw [ClientHello.state, words_encode]

/-- The dictionary's types are the given set when the block's are. -/
theorem keysAre_iff (block : Block) (a b : Nat) :
    block.map.keysAre [a, b] = true ↔
      ∀ type, type ∈ block.entries.map Extension.type ↔ type = a ∨ type = b := by
  have hkeys : ∀ type, type ∈ block.map.map Prod.fst ↔ type ∈ block.entries.map Extension.type := by
    intro type
    rw [← has_iff, block.has_map]
  rw [ExtensionMap.keysAre, Bool.and_eq_true, all_has_iff]
  simp only [List.all_eq_true, List.contains_iff_mem, List.mem_cons, List.not_mem_nil, or_false]
  constructor
  -- The two subset tests of the comparison of sets are the two directions.
  · rintro ⟨hsub, hall⟩ type
    constructor
    · intro htype
      rcases List.mem_map.mp ((hkeys type).mpr htype) with ⟨entry, hentry, rfl⟩
      exact hsub entry hentry
    · exact hall type
  · intro htypes
    refine ⟨fun entry hentry => ?_, fun type => (htypes type).mpr⟩
    exact (htypes entry.1).mp ((hkeys entry.1).mp (List.mem_map_of_mem hentry))

theorem readServerKeyShare_eq_ok_iff (encoded : Bytes) (client : ClientState) (u : Unit) :
    readServerKeyShare encoded client = .ok u ↔
      ∃ share : KeyShare, encoded = share.encode ∧ share.group ∈ client.keyShareGroups := by
  cases u
  unfold readServerKeyShare
  rw [runCursor_eq_ok_iff]
  simp only [accepts_u16_bind, accepts_raiseIf_bind, accepts_read_bind, accepts_isEmpty_bind,
    accepts_call_bind, accepts_raiseIf, not_not, not_or, and_true]
  constructor
  · rintro ⟨group, t, rfl, hgroup, size, t₁, rfl, hsize, hpos, exchange, t₂, rfl, rfl, valid, hrun,
      hend, rfl, hmem⟩
    rw [List.isEmpty_iff] at hend
    subst hend
    -- With nothing left the share test is made, and it returned true.
    rw [List.isEmpty_nil, if_pos rfl] at hrun
    rcases validKeyShare_eq_ok group exchange with ⟨valid', hrun', hvalid⟩
    rw [hrun, Except.ok.injEq] at hrun'
    exact ⟨⟨group, exchange, hvalid.mp hrun'.symm⟩, by
      simp only [KeyShare.encode, vec, List.append_nil], hmem⟩
  · rintro ⟨⟨group, exchange, hvalid⟩, rfl, hmem⟩
    rcases validKeyShare_eq_ok group exchange with ⟨valid, hrun, hiff⟩
    have hlen := hvalid.length
    refine ⟨group, vec 2 exchange, rfl, hvalid.group_lt, exchange.length, exchange, rfl, hlen.2,
      by omega, exchange, [], (List.append_nil _).symm, rfl, valid, ?_, List.isEmpty_nil,
      hiff.mpr hvalid, hmem⟩
    rw [List.isEmpty_nil, if_pos rfl]
    exact hrun

theorem parseServerHello_eq_ok_iff (body : Bytes) (client : ClientState) (u : Unit)
    (hsession : client.legacySessionId.length ≤ 32) :
    parseServerHello body client = .ok u ↔ ∃ t : ServerHello client, body = t.encode := by
  unfold parseServerHello
  rw [runCursor_eq_ok_iff]
  simp only [accepts_u16_bind, accepts_u8_bind, accepts_raiseIf_bind, accepts_read_bind,
    accepts_extensions_bind, accepts_isEmpty_bind, accepts_call_bind, accepts_call, not_not,
    Block.getItem_map, keysAre_iff, readServerKeyShare_eq_ok_iff, List.isEmpty_nil, true_and, ne_eq,
    gt_iff_lt, not_lt, and_true, exists_const]
  constructor
  -- The checks of the parser are the fields of the tree.
  · rintro ⟨version, t, rfl, -, rfl, random, t₁, rfl, hrandom, hne, sessionSize, t₂, rfl, -, -,
      sessionId, t₃, rfl, rfl, rfl, suite, t₄, rfl, -, hsuite, hoffered, compression, t₅, rfl, -,
      rfl, block, rfl, htypes, _, hversion, rfl, _, hshare, share, rfl, hgroup⟩
    exact ⟨⟨random, suite, block, share, hrandom, hne, hsuite, hoffered, htypes, hversion, hshare,
      hgroup⟩, by simp only [ServerHello.encode, vec, List.append_assoc]⟩
  · rintro ⟨t, rfl⟩
    refine ⟨tls12, _, ?_, by decide, rfl, t.random, _, rfl, t.random_length, t.random_ne,
      client.legacySessionId.length, _, rfl, by omega, hsession, client.legacySessionId, _, rfl,
      rfl, rfl, t.cipherSuite, _, rfl, t.cipherSuite_lt, t.cipherSuite_mem, t.cipherSuite_offered, 0, _, rfl,
      by omega, rfl, t.block, rfl, t.types, _, t.holds_version, rfl, _, t.holds_share, t.share,
      rfl, t.share_offered⟩
    simp only [ServerHello.encode, vec, List.append_assoc]

theorem parseEncryptedExtensions_eq_ok_iff (body : Bytes) (u : Unit) :
    parseEncryptedExtensions body = .ok u ↔ ∃ t : EncryptedExtensions, body = t.encode := by
  cases u
  unfold parseEncryptedExtensions
  rw [runCursor_eq_ok_iff]
  simp only [accepts_extensions_bind, accepts_isEmpty_bind, accepts_raiseIf_bind, accepts_raiseIf,
    Block.has_map, List.isEmpty_nil, not_true_eq_false, not_false_eq_true, true_and, and_true]
  constructor
  · rintro ⟨block, rfl, hno⟩
    exact ⟨⟨block, hno⟩, rfl⟩
  · rintro ⟨t, rfl⟩
    exact ⟨t.block, rfl, t.no_early_data⟩

/-- A pass of the certificate loop reads one entry, while there are not too
    many. -/
abbrev ReadsCertificate : List Bytes → Bytes → List Bytes → Prop :=
  Collects CertificateEntry.encode CertificateEntry.data
    (fun result _ => result.length + 1 ≤ maxCertificates)

theorem parses_certificateStep (result : List Bytes) :
    Parses (certificateStep result) (fun b result' _ => ReadsCertificate result b result') := by
  refine parses_of_accepts fun pre rest Q => ?_
  simp only [certificateStep, accepts_u24_bind, accepts_u16_bind, accepts_raiseIf_bind,
    accepts_read_bind, accepts_pure, not_not, gt_iff_lt, not_lt, List.length_append,
    List.length_singleton]
  constructor
  · rintro ⟨size, t, rfl, -, ⟨hpos, hle⟩, data, t₁, rfl, rfl, extSize, t₂, rfl, hext, extensions,
      t₃, rfl, rfl, hcount, hQ⟩
    refine ⟨_, vec 3 data ++ vec 2 extensions, t₃, ?_, ⟨⟨data, extensions, hpos, hle, hext⟩, rfl,
      hcount, rfl⟩, ?_⟩
    · simp only [vec, List.append_assoc]
    · simp only [vec, List.append_assoc, List.length_append, Nat.add_assoc] at hQ ⊢
      exact hQ
  · rintro ⟨result', b, t, rfl, ⟨⟨data, extensions, hpos, hle, hext⟩, rfl, hcount, rfl⟩, hQ⟩
    -- The limit on a certificate is below 2^24, so its length field holds it.
    have hlt : data.length < 16777216 := Nat.lt_of_le_of_lt hle (by decide)
    refine ⟨data.length, data ++ (vec 2 extensions ++ t), ?_, hlt, ⟨hpos, hle⟩, data, _, rfl,
      rfl, extensions.length, extensions ++ t, ?_, hext, extensions, t, rfl, rfl, hcount, ?_⟩
    · simp only [CertificateEntry.encode, vec, List.append_assoc]
    · simp only [vec, List.append_assoc]
    · simp only [CertificateEntry.encode, vec, List.append_assoc, List.length_append,
        Nat.add_assoc] at hQ ⊢
      exact hQ

theorem ReadsCertificate.ne_nil (result : List Bytes) (b : Bytes) (result' : List Bytes)
    (h : ReadsCertificate result b result') : b ≠ [] := by
  rcases h with ⟨entry, rfl, -⟩
  exact entry.encode_ne_nil

theorem readAll_certificateStep (data : Bytes) (chain : List Bytes) :
    readAll data certificateStep [] = .ok chain ↔
      ∃ entries : List CertificateEntry, data = entries.flatMap CertificateEntry.encode ∧
        entries.length ≤ maxCertificates ∧ chain = entries.map CertificateEntry.data := by
  rw [readAll_eq_ok_iff parses_certificateStep ReadsCertificate.ne_nil, items_collects_iff]
  simp only [List.nil_append]
  refine exists_congr fun entries => and_congr_right fun _ => and_congr_left fun _ => ?_
  rw [eachFits_length_iff CertificateEntry.data maxCertificates [] entries (by decide),
    List.length_nil, Nat.zero_add]

theorem parseCertificate_eq_ok_iff (body : Bytes) (chain : List Bytes) :
    parseCertificate body = .ok chain ↔
      ∃ t : Certificate, body = t.encode ∧ chain = t.chain := by
  unfold parseCertificate
  rw [runCursor_eq_ok_iff]
  simp only [accepts_u8_bind, accepts_u24_bind, accepts_raiseIf_bind, accepts_read_bind,
    accepts_getRemaining_bind, accepts_call, readAll_certificateStep, not_not, not_or, ne_eq]
  constructor
  · rintro ⟨contextSize, t, rfl, -, context, t₁, rfl, rfl, rfl, size, t₂, rfl, hsize, ⟨hpos, hleft⟩,
      data, t₃, rfl, rfl, _, ⟨entries, rfl, hle, rfl⟩, rfl⟩
    -- The size was compared with what remains, so nothing follows the list.
    have hend : t₃ = [] := by
      rw [List.length_append] at hleft
      exact List.eq_nil_of_length_eq_zero (by omega)
    subst hend
    have hne : entries ≠ [] := by
      rintro rfl
      exact hpos rfl
    refine ⟨⟨entries, hne, hle, hsize⟩, ?_, rfl⟩
    simp only [Certificate.encode, vec, List.append_nil, List.nil_append, List.length_nil]
  · rintro ⟨t, rfl, rfl⟩
    refine ⟨0, vec 3 (t.entries.flatMap CertificateEntry.encode), ?_, by omega, [], _, rfl, rfl,
      rfl, _, t.entries.flatMap CertificateEntry.encode, rfl, t.size_lt, ⟨?_, rfl⟩,
      t.entries.flatMap CertificateEntry.encode, [], (List.append_nil _).symm, rfl, _,
      ⟨t.entries, rfl, t.length_le, rfl⟩, rfl⟩
    · simp only [Certificate.encode, vec, List.append_nil, List.length_nil]
    · intro hlen
      exact t.ne_nil ((flatMap_eq_nil_iff _ CertificateEntry.encode_ne_nil _).mp
        (List.eq_nil_of_length_eq_zero hlen))

/-- A Certificate message on its own is read as the same message of a proof. -/
theorem parseCertificateMessage_eq_ok_iff (message : Bytes) (chain : List Bytes) :
    parseCertificateMessage message = .ok chain ↔
      ∃ t : Certificate, t.encode.length + 4 ≤ maxCertificateMessageSize ∧
        message = frame certificate t.encode ∧ chain = t.chain := by
  unfold parseCertificateMessage
  simp only [bind_eq_ok_iff, runCursor_eq_ok_iff, parseCertificate_eq_ok_iff,
    accepts_readHandshake_bind certificate maxCertificateMessageSize _ (by decide) (by decide),
    accepts_isEmpty_bind, accepts_raiseIf_bind, accepts_pure, not_not]
  constructor
  · rintro ⟨body, ⟨_, t, rfl, hlen, hend, rfl⟩, tree, rfl, rfl⟩
    rw [List.isEmpty_iff] at hend
    subst hend
    exact ⟨tree, hlen, List.append_nil _, rfl⟩
  · rintro ⟨tree, hlen, rfl, rfl⟩
    exact ⟨tree.encode, ⟨_, [], (List.append_nil _).symm, hlen, List.isEmpty_nil, rfl⟩, tree, rfl,
      rfl⟩

theorem parseCertificateVerify_eq_ok_iff (body : Bytes) (client : ClientState)
    (result : Nat × Bytes) :
    parseCertificateVerify body client = .ok result ↔
      ∃ t : CertificateVerify client, body = t.encode ∧ result = (t.scheme, t.signature) := by
  unfold parseCertificateVerify
  rw [runCursor_eq_ok_iff]
  simp only [accepts_u16_bind, accepts_raiseIf_bind, accepts_read_bind, accepts_isEmpty_bind,
    accepts_pure, not_not]
  constructor
  · rintro ⟨scheme, t, rfl, hlt, size, t₁, rfl, hsize, hpos, signature, t₂, rfl, rfl, hend, hmem,
      hoffered, rfl⟩
    rw [List.isEmpty_iff] at hend
    subst hend
    exact ⟨⟨scheme, signature, hmem, hoffered, by omega, hsize⟩, by
      simp only [CertificateVerify.encode, vec, List.append_nil], rfl⟩
  · rintro ⟨t, rfl, rfl⟩
    have hpos := t.signature_pos
    exact ⟨t.scheme, vec 2 t.signature, rfl, t.scheme_lt, t.signature.length, t.signature, rfl,
      t.signature_lt, by omega, t.signature, [], (List.append_nil _).symm, rfl, List.isEmpty_nil,
      t.scheme_mem, t.scheme_offered, rfl⟩

end Messages

section Proof

/-- The five messages with their headers, one after the other, and nothing
    behind them. -/
theorem readMessages_eq_ok_iff (encoded : Bytes) (m : Messages) :
    runCursor encoded readMessages = .ok m ↔
      ∃ ch sh ee ct cv : Bytes,
        ch.length + 4 ≤ 4096 ∧ sh.length + 4 ≤ 2048 ∧ ee.length + 4 ≤ 4096 ∧
        ct.length + 4 ≤ maxCertificateMessageSize ∧ cv.length + 4 ≤ 8192 ∧
        encoded = be 1 proofVersion ++ [frame clientHello ch, frame serverHello sh,
          frame encryptedExtensions ee, frame certificate ct, frame certificateVerify cv].flatten ∧
        m = ⟨⟨frame clientHello ch, ch⟩, ⟨frame serverHello sh, sh⟩,
          ⟨frame encryptedExtensions ee, ee⟩, ⟨frame certificate ct, ct⟩,
          ⟨frame certificateVerify cv, cv⟩⟩ := by
  rw [runCursor_eq_ok_iff]
  unfold readMessages
  rw [accepts_u8_bind]
  simp only [accepts_raiseIf_bind, not_not, ne_eq,
    accepts_readHandshake_bind clientHello 4096 _ (by decide) (by decide),
    accepts_readHandshake_bind serverHello 2048 _ (by decide) (by decide),
    accepts_readHandshake_bind encryptedExtensions 4096 _ (by decide) (by decide),
    accepts_readHandshake_bind certificate maxCertificateMessageSize _ (by decide) (by decide),
    accepts_readHandshake_bind certificateVerify 8192 _ (by decide) (by decide),
    accepts_isEmpty_bind, accepts_pure]
  constructor
  · rintro ⟨version, t, rfl, -, rfl, ch, t₁, rfl, hch, sh, t₂, rfl, hsh, ee, t₃, rfl, hee, ct, t₄,
      rfl, hct, cv, t₅, rfl, hcv, hend, rfl⟩
    rw [List.isEmpty_iff] at hend
    -- Nothing is left behind the fifth message.
    subst hend
    refine ⟨ch, sh, ee, ct, cv, hch, hsh, hee, hct, hcv, ?_, rfl⟩
    simp only [List.flatten_cons, List.flatten_nil]
  · rintro ⟨ch, sh, ee, ct, cv, hch, hsh, hee, hct, hcv, rfl, rfl⟩
    refine ⟨proofVersion, _, rfl, by decide, rfl, ch, _, rfl, hch, sh, _, rfl, hsh, ee, _, rfl, hee,
      ct, _, rfl, hct, cv, [], rfl, hcv, List.isEmpty_nil, rfl⟩

/-- The parser accepts exactly the proofs of the grammar that are written in
    at most 64 KiB, and returns what their tree says. -/
theorem parseProof_eq_ok_iff (e : Bytes) (d : Str) (c : Bytes) (p : ParsedProof) :
    parseProof e d c = .ok p ↔
      CanonicalDomain d ∧ c.length = 32 ∧ 1 ≤ e.length ∧ e.length ≤ 65536 ∧
        ∃ name, encodeAscii d = .ok name ∧
          ∃ t : ProofTree name c, e = t.encode ∧ p = t.parsed := by
  unfold parseProof
  simp only [bind_eq_ok_iff, failIf_eq_ok_iff, exists_const, not_not, not_or,
    isCanonicalDomain_iff, readMessages_eq_ok_iff, pure_eq_ok_iff, gt_iff_lt, not_lt]
  constructor
  · rintro ⟨hd, hc, ⟨hne, hlen⟩, m, ⟨ch, sh, ee, ct, cv, hch, hsh, hee, hct, hcv, rfl, rfl⟩, state,
      hclient, u, hserver, u', hencrypted, chain, hchain, ⟨scheme, signature⟩, hverify, work, hwork,
      rfl⟩
    -- The ClientHello first: the state it gives is a parameter of the others.
    rcases (parseClientHello_eq_ok_iff ch d c hc state).mp hclient
      with ⟨name, hname, client, rfl, rfl⟩
    rcases (parseServerHello_eq_ok_iff sh client.state u client.sessionId_le).mp hserver
      with ⟨server, rfl⟩
    rcases (parseEncryptedExtensions_eq_ok_iff ee u').mp hencrypted with ⟨encrypted, rfl⟩
    rcases (parseCertificate_eq_ok_iff ct chain).mp hchain with ⟨cert, rfl, rfl⟩
    rcases (parseCertificateVerify_eq_ok_iff cv client.state (scheme, signature)).mp hverify
      with ⟨verify, rfl, hresult⟩
    rcases Prod.mk.inj hresult with ⟨rfl, rfl⟩
    -- The work hash is computed from the first four messages, which are four.
    rw [connectionWorkHash_four, Except.ok.injEq] at hwork
    subst hwork
    refine ⟨hd, hc, List.length_pos_iff.mpr hne, hlen, name, hname,
      ⟨client, server, encrypted, cert, verify, hch, hsh, hee, hct, hcv⟩, rfl, ?_⟩
    simp only [ProofTree.parsed, ProofTree.hashed, List.flatten_cons, List.flatten_nil,
      List.append_nil, List.append_assoc]
  · rintro ⟨hd, hc, hpos, hlen, name, hname, t, rfl, rfl⟩
    refine ⟨hd, hc, ⟨List.length_pos_iff.mp hpos, hlen⟩, _, ⟨t.client.encode, t.server.encode,
      t.encrypted.encode, t.certificate.encode, t.verify.encode, t.client_le, t.server_le,
      t.encrypted_le, t.certificate_le, t.verify_le, rfl, rfl⟩, t.client.state, ?_, (), ?_, (), ?_,
      t.certificate.chain, ?_, (t.verify.scheme, t.verify.signature), ?_, _,
      connectionWorkHash_four _ _ _ _, ?_⟩
    -- The body of each message is parsed back to its part of the tree.
    · exact (parseClientHello_eq_ok_iff _ d c hc _).mpr ⟨name, hname, t.client, rfl, rfl⟩
    · exact (parseServerHello_eq_ok_iff _ _ _ t.client.sessionId_le).mpr ⟨t.server, rfl⟩
    · exact (parseEncryptedExtensions_eq_ok_iff _ _).mpr ⟨t.encrypted, rfl⟩
    · exact (parseCertificate_eq_ok_iff _ _).mpr ⟨t.certificate, rfl, rfl⟩
    · exact (parseCertificateVerify_eq_ok_iff _ _ _).mpr ⟨t.verify, rfl, rfl⟩
    · simp only [ProofTree.parsed, ProofTree.hashed, List.flatten_cons, List.flatten_nil,
        List.append_nil, List.append_assoc]

/-- The parser succeeds exactly on the byte strings of the format: the version
    byte and the five messages of a tree, each behind its type and length. -/
theorem parseProof_succeeds_iff (e : Bytes) (d : Str) (c : Bytes) :
    (∃ p, parseProof e d c = .ok p) ↔
      CanonicalDomain d ∧ c.length = 32 ∧ 1 ≤ e.length ∧ e.length ≤ 65536 ∧
        ∃ name, encodeAscii d = .ok name ∧ ∃ t : ProofTree name c,
          e = be 1 2 ++ frame 1 t.client.encode ++ frame 2 t.server.encode ++
            frame 8 t.encrypted.encode ++ frame 11 t.certificate.encode ++
            frame 15 t.verify.encode := by
  have hbytes : ∀ name, ∀ t : ProofTree name c,
      t.encode = be 1 2 ++ frame 1 t.client.encode ++ frame 2 t.server.encode ++
        frame 8 t.encrypted.encode ++ frame 11 t.certificate.encode ++
        frame 15 t.verify.encode := by
    intro name t
    simp only [ProofTree.encode, ProofTree.messages, ProofTree.hashed, List.flatten_cons,
      List.flatten_nil, List.cons_append, List.nil_append, List.append_nil, List.append_assoc]
  simp only [parseProof_eq_ok_iff, hbytes]
  constructor
  · rintro ⟨p, hd, hc, hpos, hlen, name, hname, t, he, -⟩
    exact ⟨hd, hc, hpos, hlen, name, hname, t, he⟩
  · rintro ⟨hd, hc, hpos, hlen, name, hname, t, he⟩
    exact ⟨t.parsed, hd, hc, hpos, hlen, name, hname, t, he, rfl⟩

end Proof

/-! ### The repository's structural vector

`vectors/work-v2.json`: a proof for `example.com` that parses, with synthetic
certificate and signature bytes. -/

section Vector

/-- The domain of the structural vector. -/
def vectorDomain : Str := Str.ofString "example.com"

/-- The challenge of the structural vector. -/
def vectorChallenge : Bytes :=
  octets 32 0x00a5b6140404ff1e4ceeb8ba3bee84dda4908938959da4d05feae4a8b6ad62c0

/-- The ClientHello of the structural vector. -/
def vectorClientHello : Bytes :=
  octets 128 0x0100007c030300a5b6140404ff1e4ceeb8ba3bee84dda4908938959da4d05feae4a8b6ad62c000000213010100005100000010000e00000b6578616d706c652e636f6d002b0003020304000d00080006040308040809003300260024001d00200101010101010101010101010101010101010101010101010101010101010101

/-- The ServerHello of the structural vector. -/
def vectorServerHello : Bytes :=
  octets 90 0x020000560303030303030303030303030303030303030303030303030303030303030303030300130100002e002b0002030400330024001d00200202020202020202020202020202020202020202020202020202020202020202

/-- The EncryptedExtensions of the structural vector. -/
def vectorEncryptedExtensions : Bytes :=
  be 6 0x080000020000

/-- The Certificate of the structural vector, which is no real one. -/
def vectorCertificate : Bytes :=
  octets 15 0x0b00000b0000000700000230000000

/-- The CertificateVerify of the structural vector. -/
def vectorCertificateVerify : Bytes :=
  octets 11 0x0f00000704030003010203

/-- The messages of the structural vector. -/
def vectorMessages : List Bytes :=
  [vectorClientHello, vectorServerHello, vectorEncryptedExtensions, vectorCertificate,
    vectorCertificateVerify]

/-- The structural vector. -/
def vectorProof : Bytes :=
  be 1 proofVersion ++ vectorMessages.flatten

theorem exists_of_toOption {α β : Type} {r : Except PyErr α} {f : α → β} {y : β}
    (h : (r.map f).toOption = some y) : ∃ x, r = .ok x ∧ f x = y := by
  cases r with
  | error e => exact nomatch h
  | ok x => exact ⟨x, rfl, Option.some.inj h⟩

theorem parseProof_vectorProof :
    ∃ p, parseProof vectorProof vectorDomain vectorChallenge = .ok p ∧
      p.messages = vectorMessages := by
  have hok :
      ((parseProof vectorProof vectorDomain vectorChallenge).map ParsedProof.messages).toOption
      = some vectorMessages := by decide +kernel
  exact exists_of_toOption hok

end Vector

end P2CTools.Protocol
