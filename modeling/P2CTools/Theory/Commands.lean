import P2CTools.Source.Cli
import P2CTools.Theory.Files
import P2CTools.Theory.Search

/-!
# The Commands

What the commands print, and what they end with.

`inspect` and `verify` look at the same file and report on it independently.
Whatever `verify` vouches for, `inspect` shows in the same words, and both
reports are JSON documents that are read back. `generate` reads its arguments
through an envelope with a placeholder for the proof, which is faithful: the
arguments are accepted exactly if an envelope with them and any proof at all
would be read.

The handlers in `main` name the interrupt, `ValueError` and `OSError`, and all
of the program's own errors are of the second class. What gets past them is a
document that is nested too deep, and what gets out of a verification. The
status of the process tells a return, an interrupt and a failure apart, as long
as the standard streams can be flushed at the end.

## Main definitions

* `GenerateArgs.fields`: The fields of an envelope for the arguments.
* `inspectEntries`, `verifyEntries`: The reports as dictionaries.
* `Inspected`: What a report of either command is about.
* `Handled`: An exception that `main` reports.
* `TooDeep`, `EscapesReport`: What gets past `main`.

## Theorems

* `context_eq_ok_iff`, `placeholder_faithful`: The context of `generate`.
* `inspectReport_eq_ok_iff`, `verifyReport_eq_ok_iff`: When there is a report.
* `reports_agree`: What is verified is shown.
* `reports_read_back`: What is printed is read back.
* `processStatus_iff`: What a status says of how the handler has ended.
* `exit_statuses`: What the commands end with.
-/

namespace P2CTools

open Wire Protocol

/-! ### The arguments of `generate` -/

/-- The fields of an envelope for the arguments. -/
def GenerateArgs.fields (a : GenerateArgs) (proof : Bytes) : Fields where
  domain := a.domain
  txid := a.txid
  inputIndex := a.inputIndex
  connectionWorkTarget := a.target
  rootCertificatesVersion := a.rootCertificatesVersion
  signatureAlgorithmsMask := a.signatureAlgorithmsMask
  validationTime := a.validationTime
  proof := proof

theorem serialized_eq (a : GenerateArgs) (proof : Bytes) :
    a.serialized (toHex proof) = (a.fields proof).entries := rfl

section Context

variable (L : Lowercase) (a : GenerateArgs)

/-- The dictionary of the arguments and a proof is read as their envelope. -/
theorem fromDict_serialized_iff {proof : Bytes} (hhead : proof.head? = some 2)
    (e : ConnectionProof) :
    fromDict L (.dict (a.serialized (toHex proof))) = .ok e ↔ e.toFields = a.fields proof := by
  rw [serialized_eq, fromDict_eq_ok_iff]
  constructor
  · rintro ⟨-, entries, hentries, hsame⟩
    rw [← Value.dict.inj hentries] at hsame
    exact (SameDict.fields_eq hsame).symm
  · intro he
    have hproof : e.proof = proof := by rw [he]; rfl
    refine ⟨by rw [hproof]; exact hhead, _, rfl, fun key => ?_⟩
    rw [← he]
    rfl

/-- Whether fields are admitted does not depend on a proof of admitted length. -/
theorem admitted_proof {f : Fields} {proof : Bytes} (h : Admitted f)
    (hproof : proof.length ≤ 64 * 1024) : Admitted { f with proof := proof } :=
  ⟨h.version, h.domain, h.txid, h.connectionWorkTarget, h.inputIndex, h.rootCertificatesVersion,
    h.signatureAlgorithmsMask, h.validationTime, hproof⟩

/-- The context has the arguments and an empty proof. -/
theorem context_eq_ok_iff (e : ConnectionProof) :
    a.context L = .ok e ↔ e.toFields = a.fields [] := by
  have hplaceholder : Str.ofString "02" = toHex [2] := by decide
  have hhead : ([2] : Bytes).head? = some 2 := rfl
  unfold GenerateArgs.context
  rw [bind_eq_ok_iff, hplaceholder]
  simp only [fromDict_serialized_iff L a hhead, replaceProof_eq_ok_iff]
  constructor
  · rintro ⟨placeholder, hplaceholder, he⟩
    rw [he, hplaceholder]
    rfl
  · intro he
    -- What the context was admitted with, the placeholder is admitted with.
    have hadmitted := e.admitted
    rw [he] at hadmitted
    exact ⟨⟨a.fields [2], admitted_proof hadmitted (by decide)⟩, rfl, he⟩

/-- The arguments are accepted exactly if an envelope of them would be read,
    with any proof of admitted length. The context of the search becomes that
    envelope when the proof is put into it. An empty proof would be refused. -/
theorem placeholder_faithful (L : Lowercase) (a : GenerateArgs) :
    (∀ proof, proof.head? = some 2 → ∀ e,
      fromDict L (.dict (a.serialized (toHex proof))) = .ok e ↔
        ∃ context, a.context L = .ok context ∧ context.replaceProof L proof = .ok e) ∧
    (∀ proof, proof.head? = some 2 → proof.length ≤ 64 * 1024 →
      ((∃ context, a.context L = .ok context) ↔
        ∃ e, fromDict L (.dict (a.serialized (toHex proof))) = .ok e)) ∧
    (∀ e, fromDict L (.dict (a.serialized [])) ≠ .ok e) ∧
    Fails (fun e => e.cls = .proofFormatError) (a.context L) := by
  refine ⟨fun proof hhead e => ?_, fun proof hhead hlen => ?_, fun e he => ?_, ?_⟩
  · rw [fromDict_serialized_iff L a hhead]
    simp only [context_eq_ok_iff, replaceProof_eq_ok_iff]
    constructor
    · intro he
      have hadmitted := e.admitted
      rw [he] at hadmitted
      exact ⟨⟨a.fields [], admitted_proof hadmitted (by decide)⟩, rfl, he⟩
    · rintro ⟨context, hcontext, he⟩
      rw [he, hcontext]
      rfl
  · simp only [context_eq_ok_iff, fromDict_serialized_iff L a hhead]
    constructor
    · rintro ⟨context, hcontext⟩
      have hadmitted := context.admitted
      rw [hcontext] at hadmitted
      exact ⟨⟨a.fields proof, admitted_proof hadmitted hlen⟩, rfl⟩
    · rintro ⟨e, he⟩
      have hadmitted := e.admitted
      rw [he] at hadmitted
      exact ⟨⟨a.fields [], admitted_proof hadmitted (by decide)⟩, rfl⟩
  -- No envelope that can be read has an empty proof.
  · rcases (fromDict_eq_ok_iff L _ e).mp he with ⟨hhead, entries, hentries, hsame⟩
    rw [← Value.dict.inj hentries] at hsame
    have hnil : a.serialized [] = (a.fields []).entries := rfl
    rw [hnil] at hsame
    have hproof : e.proof = [] := congrArg Fields.proof (SameDict.fields_eq hsame).symm
    rw [hproof] at hhead
    exact absurd hhead (by simp)
  · refine (fails_fromDict L _).bind fun placeholder hplaceholder => ?_
    have hadmitted : Admitted { placeholder.toFields with proof := [] } :=
      admitted_proof placeholder.admitted (by decide)
    rw [(replaceProof_eq_ok_iff L placeholder ⟨_, hadmitted⟩ []).mpr rfl]
    exact fails_ok _

/-- The claim of the structural vector, as arguments. -/
def vectorArgs : GenerateArgs where
  domain := vectorDomain
  txid := toHex vectorTxid
  inputIndex := 0
  target := toHex (List.replicate 32 0xff)
  signatureAlgorithmsMask := 7
  validationTime := 1800000000

theorem fields_vectorArgs (proof : Bytes) : vectorArgs.fields proof = vectorFields 0xff proof :=
  rfl

theorem context_vectorArgs :
    vectorArgs.context Lowercase.ascii =
      .ok ⟨vectorFields 0xff [], admitted_vectorFields 0xff [] (by decide)⟩ :=
  (context_eq_ok_iff Lowercase.ascii vectorArgs _).mpr (fields_vectorArgs []).symm

/-- They would be read with a proof. -/
theorem vectorArgs_faithful :
    ∃ e, fromDict Lowercase.ascii (.dict (vectorArgs.serialized (toHex [2, 7]))) = .ok e :=
  ((placeholder_faithful Lowercase.ascii vectorArgs).2.1 [2, 7] rfl (by decide)).mp
    ⟨_, context_vectorArgs⟩

end Context

/-! ### The reports of `inspect` and `verify` -/

section Reports

variable (L : Lowercase) (loads : Str → Except PyErr Value) {file : Except PyErr Bytes}

/-- The file is read as an envelope whose proof parses. -/
structure Inspected (file : Except PyErr Bytes) (e : ConnectionProof) (c : Bytes)
    (p : ParsedProof) : Prop where
  read : ConnectionProof.read L loads file = .ok e
  challenge : e.challenge L = .ok c
  parse : parseProof e.proof e.domain c = .ok p

/-- The algorithms of a mask. -/
def maskAlgorithms (mask : Int) : List SignatureAlgorithm :=
  signatureAlgorithms.filter fun algorithm => mask.toNat &&& algorithm.mask ≠ 0

/-- The report of `inspect`, of an envelope, its challenge, its parsed proof,
    and whether it meets the target. -/
def inspectEntries (e : ConnectionProof) (c : Bytes) (p : ParsedProof) (meets : Bool) :
    List (Str × Value) := [
  (Str.ofString "valid_structure", .bool true),
  (Str.ofString "proof_version", .int 2),
  (Str.ofString "domain", .str e.domain),
  (Str.ofString "txid", .str e.txid),
  (Str.ofString "input_index", .int e.inputIndex),
  (Str.ofString "challenge", .str (toHex c)),
  (Str.ofString "transcript_hash", .str (toHex p.transcriptHash)),
  (Str.ofString "connection_work_hash", .str (toHex p.connectionWorkHash.reverse)),
  (Str.ofString "meets_work_target", .bool meets),
  (Str.ofString "certificate_count", .int p.certificateChain.length),
  (Str.ofString "certificate_verify_scheme", .str (hexWord p.certificateVerifyScheme)),
  (Str.ofString "signature_algorithms_mask", .int e.signatureAlgorithmsMask),
  (Str.ofString "accepted_signature_algorithms",
    .list ((maskAlgorithms e.signatureAlgorithmsMask).map algorithmReport)),
  (Str.ofString "signature_scheme_allowed",
    .bool (decide (p.certificateVerifyScheme ∈ maskSchemes e.signatureAlgorithmsMask))),
  (Str.ofString "cryptographic_verification_performed", .bool false),
  (Str.ofString "blockchain_context_verified", .bool false),
  (Str.ofString "message_sizes", sizesReport p),
  (Str.ofString "proof_size", .int e.proof.length)]

/-- The report of `verify`. -/
def verifyEntries (r : VerificationResult) : List (Str × Value) := [
  (Str.ofString "challenge", .str r.challenge),
  (Str.ofString "transcript_hash", .str r.transcriptHash),
  (Str.ofString "connection_work_hash", .str r.connectionWorkHash),
  (Str.ofString "certificate_count", .int r.certificateCount),
  (Str.ofString "certificate_verify_scheme", .str (hexWord r.certificateVerifyScheme)),
  (Str.ofString "signature_algorithms_mask", .int r.signatureAlgorithmsMask),
  (Str.ofString "valid", .bool true),
  (Str.ofString "proof_version", .int 2),
  (Str.ofString "blockchain_context_verified", .bool false)]

/-- There is a report of `inspect` exactly for a file whose proof parses. -/
theorem inspectReport_eq_ok_iff (report : Value) :
    inspectReport L loads file = .ok report ↔ ∃ e c p meets, Inspected L loads file e c p ∧
      (meets = true ↔ MeetsTarget p.connectionWorkHash e.connectionWorkTarget) ∧
      report = .dict (inspectEntries e c p meets) := by
  unfold inspectReport
  simp only [bind_eq_ok_iff, pure_eq_ok_iff]
  constructor
  · rintro ⟨e, hread, c, hc, p, hp, work, hwork, meets, hmeets, accepted, haccepted, allowed,
      hallowed, rfl⟩
    have hlen := length_connectionWorkHash hp
    have hmask := e.admitted.signatureAlgorithmsMask
    rcases e.meetsWorkTarget_eq_ok L hlen with ⟨b, hb, hiff⟩
    rw [hmeets, Except.ok.injEq] at hb
    rw [internalHashToDisplay_eq_ok _ hlen, Except.ok.injEq] at hwork
    rw [acceptedSignatureAlgorithms_eq _ hmask, Except.ok.injEq] at haccepted
    rw [signatureSchemeAllowed_eq _ _ hmask, Except.ok.injEq] at hallowed
    refine ⟨e, c, p, meets, ⟨hread, hc, hp⟩, by rw [hb]; exact hiff, ?_⟩
    rw [← hwork, ← haccepted, ← hallowed]
    rfl
  · rintro ⟨e, c, p, meets, ⟨hread, hc, hp⟩, hmeets, rfl⟩
    have hlen := length_connectionWorkHash hp
    have hmask := e.admitted.signatureAlgorithmsMask
    rcases e.meetsWorkTarget_eq_ok L hlen with ⟨b, hb, hiff⟩
    have hsame : b = meets := Bool.eq_iff_iff.mpr (hiff.trans hmeets.symm)
    rw [hsame] at hb
    exact ⟨e, hread, c, hc, p, hp, _, internalHashToDisplay_eq_ok _ hlen, meets, hb, _,
      acceptedSignatureAlgorithms_eq _ hmask, _, signatureSchemeAllowed_eq _ _ hmask, rfl⟩

/-- There is a report of `verify` exactly for a file whose proof parses, has a
    scheme of the mask, meets the target, and authenticates. -/
theorem verifyReport_eq_ok_iff {Cert Key : Type} (X : X509 Cert Key)
    (rootFile : Except PyErr Bytes) (report : Value) :
    verifyReport L loads X file rootFile = .ok report ↔
      ∃ e c p, Inspected L loads file e c p ∧
        p.certificateVerifyScheme ∈ maskSchemes e.signatureAlgorithmsMask ∧
        MeetsTarget p.connectionWorkHash e.connectionWorkTarget ∧
        Authenticates X rootFile true e.rootCertificatesVersion e.validationTime e.domain p ∧
        report = .dict (verifyEntries (verificationResult c p e.signatureAlgorithmsMask)) := by
  unfold verifyReport
  simp only [bind_eq_ok_iff, pure_eq_ok_iff, verifyConnectionProof_eq_ok_iff]
  constructor
  · rintro ⟨e, hread, r, ⟨c, p, hc, hp, hscheme, hmeets, hauthentic, rfl⟩, rfl⟩
    exact ⟨e, c, p, ⟨hread, hc, hp⟩, hscheme, hmeets, hauthentic, rfl⟩
  · rintro ⟨e, c, p, ⟨hread, hc, hp⟩, hscheme, hmeets, hauthentic, rfl⟩
    exact ⟨e, hread, _, ⟨c, p, hc, hp, hscheme, hmeets, hauthentic, rfl⟩, rfl⟩

theorem Inspected.unique {e e' : ConnectionProof} {c c' : Bytes} {p p' : ParsedProof}
    (h : Inspected L loads file e c p) (h' : Inspected L loads file e' c' p') :
    e' = e ∧ c' = c ∧ p' = p := by
  have he : e' = e := Except.ok.inj (h'.read.symm.trans h.read)
  subst he
  have hc : c' = c := Except.ok.inj (h'.challenge.symm.trans h.challenge)
  subst hc
  exact ⟨rfl, rfl, Except.ok.inj (h'.parse.symm.trans h.parse)⟩

/-- What both reports have. -/
def sharedKeys : List Str :=
  [Str.ofString "challenge", Str.ofString "transcript_hash", Str.ofString "connection_work_hash",
    Str.ofString "certificate_count", Str.ofString "certificate_verify_scheme",
    Str.ofString "signature_algorithms_mask", Str.ofString "proof_version",
    Str.ofString "blockchain_context_verified"]

section Agreement

variable {e : ConnectionProof} {c : Bytes} {p : ParsedProof} {meets : Bool}

theorem lookup_meets :
    lookup (inspectEntries e c p meets) (Str.ofString "meets_work_target") = some (.bool meets) :=
  rfl

theorem lookup_allowed :
    lookup (inspectEntries e c p meets) (Str.ofString "signature_scheme_allowed") =
      some (.bool (decide (p.certificateVerifyScheme ∈ maskSchemes e.signatureAlgorithmsMask))) :=
  rfl

theorem both_of_some {a b : Option Value} {v : Value} (ha : a = some v) (hb : b = some v) :
    a = b ∧ a.isSome = true := by
  rw [ha, hb]
  exact ⟨rfl, rfl⟩

/-- Under each key of both, the two reports have one value. -/
theorem lookup_shared {key : Str} (h : key ∈ sharedKeys) :
    lookup (inspectEntries e c p meets) key =
        lookup (verifyEntries (verificationResult c p e.signatureAlgorithmsMask)) key ∧
      (lookup (inspectEntries e c p meets) key).isSome = true := by
  simp only [sharedKeys, List.mem_cons, List.not_mem_nil, or_false] at h
  rcases h with rfl | rfl | rfl | rfl | rfl | rfl | rfl | rfl
  all_goals exact both_of_some rfl rfl

end Agreement

/-- `verify` vouches for a file exactly if `inspect` shows that it meets the
    target with a scheme that is allowed, and the rest authenticates. The two
    then say the same wherever both say something, and only `verify` says that
    the proof is valid. -/
theorem reports_agree {Cert Key : Type} (X : X509 Cert Key) (L : Lowercase)
    (loads : Str → Except PyErr Value) (file rootFile : Except PyErr Bytes) :
    ((∃ report, verifyReport L loads X file rootFile = .ok report) ↔
      ∃ shown, inspectReport L loads file = .ok (.dict shown) ∧
        lookup shown (Str.ofString "meets_work_target") = some (.bool true) ∧
        lookup shown (Str.ofString "signature_scheme_allowed") = some (.bool true) ∧
        ∀ e c p, Inspected L loads file e c p → Authenticates X rootFile true
          e.rootCertificatesVersion e.validationTime e.domain p) ∧
    ∀ vouched shown, verifyReport L loads X file rootFile = .ok (.dict vouched) →
      inspectReport L loads file = .ok (.dict shown) →
      (∀ key ∈ sharedKeys, lookup shown key = lookup vouched key ∧
        (lookup shown key).isSome = true) ∧
      lookup vouched (Str.ofString "valid") = some (.bool true) ∧
      lookup shown (Str.ofString "valid") = none := by
  simp only [verifyReport_eq_ok_iff, inspectReport_eq_ok_iff]
  refine ⟨⟨?_, ?_⟩, ?_⟩
  · rintro ⟨report, e, c, p, hinspected, hscheme, hmeets, hauthentic, -⟩
    refine ⟨inspectEntries e c p true, ⟨e, c, p, true, hinspected, iff_of_true rfl hmeets, rfl⟩,
      lookup_meets, ?_, fun e' c' p' hinspected' => ?_⟩
    · rw [lookup_allowed, decide_eq_true hscheme]
    · rcases hinspected.unique L loads hinspected' with ⟨rfl, rfl, rfl⟩
      exact hauthentic
  · rintro ⟨shown, ⟨e, c, p, meets, hinspected, hiff, hshown⟩, hmeets, hallowed, hauthentic⟩
    rw [Value.dict.inj hshown, lookup_meets, Option.some.injEq, Value.bool.injEq] at hmeets
    rw [Value.dict.inj hshown, lookup_allowed, Option.some.injEq, Value.bool.injEq] at hallowed
    exact ⟨_, e, c, p, hinspected, of_decide_eq_true hallowed, hiff.mp hmeets,
      hauthentic e c p hinspected, rfl⟩
  -- Both reports are of one envelope, challenge and parsed proof.
  · rintro vouched shown ⟨e, c, p, hinspected, -, -, -, hvouched⟩ ⟨e', c', p', meets, hinspected',
      -, hshown⟩
    rcases hinspected.unique L loads hinspected' with ⟨rfl, rfl, rfl⟩
    rw [Value.dict.inj hvouched, Value.dict.inj hshown]
    exact ⟨fun key hkey => lookup_shared hkey, rfl, rfl⟩

end Reports

/-! ### What is printed -/

section Printed

variable {L : Lowercase} {loads : Str → Except PyErr Value} {file : Except PyErr Bytes}
  {e : ConnectionProof} {c : Bytes} {p : ParsedProof}

theorem joinless_toHex (b : Bytes) : Joinless (toHex b) :=
  joinless_ascii (ascii_toHex b)

theorem joinless_plain {s : Str} (h : PlainText s) : Joinless s :=
  joinless_ascii fun c hc => (h c hc).1

/-- A dictionary with literal keys. -/
theorem portable_dict {depth : Nat} {entries : List (Str × Value)} (keys : List Str)
    (hentries : entries.map Prod.fst = keys) (hnodup : keys.Nodup)
    (hplain : ∀ key ∈ keys, PlainText key) (hvalues : ∀ entry ∈ entries, entry.2.Portable depth) :
    (Value.dict entries).Portable (depth + 1) := by
  subst hentries
  exact ⟨hnodup, fun entry hentry =>
    ⟨joinless_plain (hplain _ (List.mem_map_of_mem hentry)), hvalues entry hentry⟩⟩

theorem portable_length (depth : Nat) {n : Nat} (h : n ≤ 65536) :
    (Value.int n).Portable depth :=
  portable_int depth (by omega)

/-- The schemes there are, in hexadecimal. -/
theorem joinless_hexWord {scheme : Nat} (h : scheme ∈ signatureAlgorithms.map
    SignatureAlgorithm.scheme) : Joinless (hexWord scheme) := by
  have hplain : ∀ scheme ∈ signatureAlgorithms.map SignatureAlgorithm.scheme,
      PlainText (hexWord scheme) := by
    decide
  exact joinless_plain (hplain scheme h)

/-- No message of a proof that parses is longer than the proof may be, and
    there are at most eight certificates. -/
theorem bounds_of_parseProof {encoded : Bytes} {d : Str} (h : parseProof encoded d c = .ok p) :
    (∀ message ∈ p.messages, message.length ≤ 65536) ∧ p.certificateChain.length ≤ 65536 ∧
      p.certificateVerifyScheme ∈ signatureAlgorithms.map SignatureAlgorithm.scheme := by
  rcases (parseProof_eq_ok_iff encoded d c p).mp h with ⟨-, -, -, hlen, name, -, t, rfl, rfl⟩
  refine ⟨fun message hmessage => ?_, ?_, t.verify.scheme_mem⟩
  · have hpart : message.length ≤ t.messages.flatten.length :=
      (List.sublist_flatten_of_mem hmessage).length_le
    rw [Grammar.ProofTree.encode, List.length_append] at hlen
    omega
  · have hcount := t.certificate.length_le
    change (t.certificate.entries.map _).length ≤ 65536
    rw [List.length_map]
    exact hcount.trans (by decide)

theorem portable_sizes (depth : Nat) (h : ∀ message ∈ p.messages, message.length ≤ 65536) :
    (sizesReport p).Portable (depth + 1) := by
  refine portable_dict [Str.ofString "client_hello", Str.ofString "server_hello",
    Str.ofString "encrypted_extensions", Str.ofString "certificate",
    Str.ofString "certificate_verify"] rfl (by decide) (by decide) fun entry hentry => ?_
  simp only [List.mem_cons, List.not_mem_nil, or_false] at hentry
  rcases hentry with rfl | rfl | rfl | rfl | rfl
  all_goals exact portable_length depth (h _ (by simp [ParsedProof.messages]))

theorem portable_algorithms (depth : Nat) (mask : Int) :
    (Value.list ((maskAlgorithms mask).map algorithmReport)).Portable (depth + 2) := by
  have hplain : ∀ algorithm ∈ signatureAlgorithms, PlainText (Str.ofString algorithm.name) := by
    decide
  intro item hitem
  rcases List.mem_map.mp hitem with ⟨algorithm, halgorithm, rfl⟩
  have hmem := (List.mem_filter.mp halgorithm).1
  refine portable_dict [Str.ofString "name", Str.ofString "scheme"] rfl (by decide) (by decide)
    fun entry hentry => ?_
  simp only [List.mem_cons, List.not_mem_nil, or_false] at hentry
  rcases hentry with rfl | rfl
  · exact portable_str depth (joinless_plain (hplain algorithm hmem))
  · exact portable_str depth (joinless_hexWord (List.mem_map_of_mem hmem))

theorem portable_inspect (depth : Nat) (h : parseProof e.proof e.domain c = .ok p)
    (meets : Bool) : (Value.dict (inspectEntries e c p meets)).Portable (depth + 3) := by
  have hascii := flatAscii_entries e
  have hindex := e.admitted.inputIndex
  have hmask := e.admitted.signatureAlgorithmsMask
  have hbounds := bounds_of_parseProof h
  -- The strings of an envelope's own dictionary are ASCII.
  have hown : ∀ key s, (key, Value.str s) ∈ e.entries → Joinless s := by
    intro key s hmem
    rcases (hascii _ hmem).2 with ⟨n, hn⟩ | ⟨s', hs, hs'⟩
    · exact absurd hn (by simp)
    · rw [Value.str.inj hs]
      exact joinless_ascii hs'
  refine portable_dict [Str.ofString "valid_structure", Str.ofString "proof_version",
    Str.ofString "domain", Str.ofString "txid", Str.ofString "input_index",
    Str.ofString "challenge", Str.ofString "transcript_hash", Str.ofString "connection_work_hash",
    Str.ofString "meets_work_target", Str.ofString "certificate_count",
    Str.ofString "certificate_verify_scheme", Str.ofString "signature_algorithms_mask",
    Str.ofString "accepted_signature_algorithms", Str.ofString "signature_scheme_allowed",
    Str.ofString "cryptographic_verification_performed",
    Str.ofString "blockchain_context_verified", Str.ofString "message_sizes",
    Str.ofString "proof_size"] rfl (by decide +kernel) (by decide +kernel) fun entry hentry => ?_
  simp only [inspectEntries, List.mem_cons, List.not_mem_nil, or_false] at hentry
  rcases hentry with rfl | rfl | rfl | rfl | rfl | rfl | rfl | rfl | rfl | rfl | rfl | rfl | rfl |
    rfl | rfl | rfl | rfl | rfl
  · exact portable_bool _ _
  · exact portable_int _ (by decide)
  · exact portable_str _ (hown (Str.ofString "domain") _ (by simp [ConnectionProof.entries, Fields.entries]))
  · exact portable_str _ (hown (Str.ofString "txid") _ (by simp [ConnectionProof.entries, Fields.entries]))
  · exact portable_int _ (by omega)
  · exact portable_str _ (joinless_toHex _)
  · exact portable_str _ (joinless_toHex _)
  · exact portable_str _ (joinless_toHex _)
  · exact portable_bool _ _
  · exact portable_length _ hbounds.2.1
  · exact portable_str _ (joinless_hexWord hbounds.2.2)
  · exact portable_int _ (by omega)
  · exact portable_algorithms depth _
  · exact portable_bool _ _
  · exact portable_bool _ _
  · exact portable_bool _ _
  · exact portable_sizes (depth + 1) hbounds.1
  · exact portable_length _ e.admitted.proof

theorem portable_verify (depth : Nat) (h : parseProof e.proof e.domain c = .ok p) :
    (Value.dict (verifyEntries
      (verificationResult c p e.signatureAlgorithmsMask))).Portable (depth + 1) := by
  have hmask := e.admitted.signatureAlgorithmsMask
  have hbounds := bounds_of_parseProof h
  refine portable_dict [Str.ofString "challenge", Str.ofString "transcript_hash",
    Str.ofString "connection_work_hash", Str.ofString "certificate_count",
    Str.ofString "certificate_verify_scheme", Str.ofString "signature_algorithms_mask",
    Str.ofString "valid", Str.ofString "proof_version",
    Str.ofString "blockchain_context_verified"] rfl (by decide +kernel) (by decide +kernel)
    fun entry hentry => ?_
  simp only [verifyEntries, verificationResult, List.mem_cons, List.not_mem_nil, or_false]
    at hentry
  rcases hentry with rfl | rfl | rfl | rfl | rfl | rfl | rfl | rfl | rfl
  · exact portable_str _ (joinless_toHex _)
  · exact portable_str _ (joinless_toHex _)
  · exact portable_str _ (joinless_toHex _)
  · exact portable_length _ hbounds.2.1
  · exact portable_str _ (joinless_hexWord hbounds.2.2)
  · exact portable_int _ (by omega)
  · exact portable_bool _ _
  · exact portable_int _ (by decide)
  · exact portable_bool _ _

theorem portable_challenge (depth : Nat) {txid : Str} {inputIndex : Int} {report : Value}
    (h : challengeReport L txid inputIndex = .ok report) : report.Portable (depth + 1) := by
  unfold challengeReport at h
  simp only [bind_eq_ok_iff, pure_eq_ok_iff, claimChallenge_eq_ok_iff] at h
  rcases h with ⟨c, ⟨hlo, hhi, b, -, rfl, -⟩, rfl⟩
  refine portable_dict [Str.ofString "txid", Str.ofString "input_index",
    Str.ofString "clienthello_random"] rfl (by decide) (by decide) fun entry hentry => ?_
  simp only [List.mem_cons, List.not_mem_nil, or_false] at hentry
  rcases hentry with rfl | rfl | rfl
  · exact portable_str _ (joinless_toHex _)
  · exact portable_int _ (by omega)
  · exact portable_str _ (joinless_toHex _)

theorem portable_inspectReport (depth : Nat) {report : Value}
    (h : inspectReport L loads file = .ok report) : report.Portable (depth + 3) := by
  rcases (inspectReport_eq_ok_iff L loads report).mp h with ⟨e, c, p, meets, hinspected, -, rfl⟩
  exact portable_inspect depth hinspected.parse meets

theorem portable_verifyReport {Cert Key : Type} {X : X509 Cert Key}
    {rootFile : Except PyErr Bytes} (depth : Nat) {report : Value}
    (h : verifyReport L loads X file rootFile = .ok report) : report.Portable (depth + 1) := by
  rcases (verifyReport_eq_ok_iff L loads X rootFile report).mp h with
    ⟨e, c, p, hinspected, -, -, -, rfl⟩
  exact portable_verify depth hinspected.parse

/-- A document that is printed is read back. -/
theorem exists_printed (float : Str → Value) {depth : Nat} {v : Value} (hv : v.Portable depth) :
    ∃ text, (∀ stdout, printJson stdout v = stdout text) ∧
      P2CTools.loads float depth text = .ok v.sorted := by
  rcases exists_encode depth 0 v hv with ⟨text, htext⟩
  refine ⟨text ++ Str.ofString "\n", fun stdout => ?_,
    loads_encode float hv htext isJsonSpace_newline⟩
  rw [printJson, htext]
  rfl

variable (L loads file) in
/-- What the three commands print is a document that is read back as the
    report, with its keys in order. -/
theorem reports_read_back {Cert Key : Type} (X : X509 Cert Key) (rootFile : Except PyErr Bytes)
    (float : Str → Value) (depth : Nat) (txid : Str) (inputIndex : Int) (report : Value)
    (h : challengeReport L txid inputIndex = .ok report ∨
      inspectReport L loads file = .ok report ∨
      verifyReport L loads X file rootFile = .ok report) :
    ∃ text, (∀ stdout, printJson stdout report = stdout text) ∧
      P2CTools.loads float (depth + 3) text = .ok report.sorted := by
  rcases h with hchallenge | hinspect | hverify
  · exact exists_printed float (portable_challenge (depth + 2) hchallenge)
  · exact exists_printed float (portable_inspectReport depth hinspect)
  · exact exists_printed float (portable_verifyReport (depth + 2) hverify)

/-- The challenge of a claim is printed and read back. -/
theorem challenge_reads_back :
    ∃ report text,
      challengeReport Lowercase.ascii (vectorEnvelope 0).txid 0 = .ok report ∧
      P2CTools.loads (fun _ => .none) 3 text = .ok report.sorted := by
  have hreport : ∃ report,
      challengeReport Lowercase.ascii (vectorEnvelope 0).txid 0 = .ok report := by
    have hchallenge := challenge_vectorEnvelope 0
    unfold ConnectionProof.challenge at hchallenge
    unfold challengeReport
    exact ⟨_, (bind_eq_ok_iff _ _ _).mpr ⟨_, hchallenge, rfl⟩⟩
  rcases hreport with ⟨report, hreport⟩
  rcases reports_read_back Lowercase.ascii vectorLoads (.ok []) sampleX509 (.ok rootPem)
    (fun _ => .none) 0 (vectorEnvelope 0).txid 0 report (Or.inl hreport) with ⟨text, -, htext⟩
  exact ⟨report, text, hreport, htext⟩

end Printed

/-! ### Exit statuses -/

section Main

/-- An exception that `main` reports. -/
def Handled (e : PyErr) : Prop :=
  e.isA .valueError = true ∨ e.isA .osError = true

/-- The handler in `main` names one class more than it has to. -/
theorem handled_iff (e : PyErr) :
    [ErrorClass.p2cError, .osError, .valueError].any e.isA = true ↔ Handled e := by
  have hbases : ∀ cls : ErrorClass, cls.bases.contains .p2cError = true →
      cls.bases.contains .valueError = true := by
    intro cls
    cases cls with
    | _ => decide
  simp only [List.any_cons, List.any_nil, Bool.or_false, Bool.or_eq_true, Handled]
  constructor
  · rintro (hp2c | hos | hvalue)
    · exact Or.inl (hbases e.cls hp2c)
    · exact Or.inr hos
    · exact Or.inl hvalue
  · rintro (hvalue | hos)
    · exact Or.inr (Or.inr hvalue)
    · exact Or.inr (Or.inl hos)

/-- No class that is reported is an interrupt's. -/
theorem Handled.not_interrupt {e : PyErr} (h : Handled e) :
    e.isA .keyboardInterrupt = false := by
  have hbases : ∀ cls : ErrorClass, cls.bases.contains .valueError = true ∨
      cls.bases.contains .osError = true → cls.bases.contains .keyboardInterrupt = false := by
    intro cls
    cases cls with
    | _ => decide
  exact hbases e.cls h

section Statuses

variable {stderr outcome : Except PyErr Unit} {e : PyErr}

/-- An interrupt is reported, if the line can be written. -/
theorem exitStatus_interrupted (h : e.isA .keyboardInterrupt = true) :
    exitStatus stderr (.error e) = stderr >>= fun _ => pure 130 := by
  unfold exitStatus handleFirst
  simp [bind, Except.bind, h]

/-- So is an exception of the classes that `main` names. -/
theorem exitStatus_handled (h : Handled e) :
    exitStatus stderr (.error e) = stderr >>= fun _ => pure 1 := by
  have hnamed := (handled_iff e).mpr h
  have hinterrupt := h.not_interrupt
  unfold exitStatus handleFirst
  simp only [List.any_cons, List.any_nil, Bool.or_false] at hnamed
  simp only [bind, Except.bind, List.find?_cons, List.any_cons, List.any_nil, Bool.or_false,
    hinterrupt, hnamed]

/-- All others get past it. -/
theorem exitStatus_unhandled (hinterrupt : e.isA .keyboardInterrupt = false) (h : ¬Handled e) :
    exitStatus stderr (.error e) = .error e := by
  have hnamed : ¬[ErrorClass.p2cError, .osError, .valueError].any e.isA = true :=
    fun hany => h ((handled_iff e).mp hany)
  unfold exitStatus handleFirst
  simp [bind, Except.bind, hinterrupt, hnamed]

/-- What gets past `main` is what it does not name, or a failure to report it. -/
theorem exitStatus_eq_error (h : exitStatus stderr outcome = .error e) :
    stderr = .error e ∨
      (outcome = .error e ∧ ¬Handled e ∧ e.isA .keyboardInterrupt = false) := by
  have hreporting : ∀ status : Nat, (stderr >>= fun _ => pure status) = .error e →
      stderr = .error e := by
    intro status hbind
    rcases (bind_eq_error_iff _ _ _).mp hbind with hfailed | ⟨u, -, hpure⟩
    · exact hfailed
    · exact absurd hpure.symm (error_ne_ok e status)
  cases outcome with
  | ok u => exact absurd h.symm (error_ne_ok e 0)
  | error e' =>
      by_cases hinterrupt : e'.isA .keyboardInterrupt = true
      · rw [exitStatus_interrupted hinterrupt] at h
        exact Or.inl (hreporting 130 h)
      · rw [Bool.not_eq_true] at hinterrupt
        by_cases hhandled : Handled e'
        · rw [exitStatus_handled hhandled] at h
          exact Or.inl (hreporting 1 h)
        · rw [exitStatus_unhandled hinterrupt hhandled] at h
          rw [← Except.error.inj h]
          exact Or.inr ⟨rfl, hhandled, hinterrupt⟩

/-- What gets past `main` is something that the handler raised, unless it could
    not be reported. -/
theorem fails_exitStatus {P : PyErr → Prop} (interrupted : Bool)
    (houtcome : Fails (fun e => Handled e ∨ P e) outcome) :
    Fails (fun e => stderr = .error e ∨ P e)
      (exitStatus stderr (interruptible interrupted outcome)) := by
  intro e he
  rcases exitStatus_eq_error he with hfailed | ⟨hraised, hnot, hinterrupt⟩
  · exact Or.inl hfailed
  · cases interrupted with
    | true =>
        rw [← Except.error.inj hraised] at hinterrupt
        exact absurd hinterrupt (by decide)
    | false => exact Or.inr ((houtcome e hraised).resolve_left hnot)

section Process

variable (hstderr : Fails (fun e => e.isA .osError = true) stderr)

include hstderr

/-- No interrupt gets past `main`. -/
theorem exitStatus_not_interrupt (h : exitStatus stderr outcome = .error e) :
    e.isA .keyboardInterrupt = false := by
  rcases exitStatus_eq_error h with hfailed | ⟨-, -, hinterrupt⟩
  · exact Handled.not_interrupt (Or.inr (hstderr e hfailed))
  · exact hinterrupt

/-- Without an interrupt a failure has the status one, whether `main` reports it
    or lets it through. -/
theorem processStatus_failed (hinterrupt : e.isA .keyboardInterrupt = false) :
    processStatus true (exitStatus stderr (.error e)) = 1 := by
  cases hstatus : exitStatus stderr (.error e) with
  | error e' =>
      have hpast := exitStatus_not_interrupt hstderr hstatus
      simp [processStatus, hpast]
  | ok status =>
      by_cases hhandled : Handled e
      · rw [exitStatus_handled hhandled] at hstatus
        rcases (bind_eq_ok_iff _ _ _).mp hstatus with ⟨u, -, hpure⟩
        rw [← (pure_eq_ok_iff _ _).mp hpure]
        rfl
      · rw [exitStatus_unhandled hinterrupt hhandled] at hstatus
        exact absurd hstatus (error_ne_ok e status)

/-- With one it is 130, unless that cannot be reported. -/
theorem processStatus_interrupted (hinterrupt : e.isA .keyboardInterrupt = true) :
    stderr = .ok () ∧ processStatus true (exitStatus stderr (.error e)) = 130 ∨
      stderr ≠ .ok () ∧ processStatus true (exitStatus stderr (.error e)) = 1 := by
  rw [exitStatus_interrupted hinterrupt]
  cases hwritten : stderr with
  | ok u => exact Or.inl ⟨rfl, rfl⟩
  | error e' =>
      have hpast := Handled.not_interrupt (Or.inr (hstderr e' hwritten))
      refine Or.inr ⟨error_ne_ok e' (), ?_⟩
      simp [bind, Except.bind, processStatus, hpast]

/-- If the standard streams cannot be flushed, nothing else shows. -/
theorem processStatus_unflushed : processStatus false (exitStatus stderr outcome) = 120 := by
  cases hstatus : exitStatus stderr outcome with
  | ok status => rfl
  | error e =>
      have hpast := exitStatus_not_interrupt hstderr hstatus
      simp [processStatus, hpast]

/-- The status of a process says how its handler has ended: it is zero if that
    has returned, 130 if it was interrupted, and one if it has failed. An
    interrupt that cannot be reported counts as a failure, and behind a flush
    that fails nothing of this is seen. -/
theorem processStatus_iff (flushed : Bool) :
    (processStatus flushed (exitStatus stderr outcome) = 0 ↔ flushed = true ∧ outcome = .ok ()) ∧
    (processStatus flushed (exitStatus stderr outcome) = 120 ↔ flushed = false) ∧
    (processStatus flushed (exitStatus stderr outcome) = 130 ↔ flushed = true ∧ stderr = .ok () ∧
      ∃ e, outcome = .error e ∧ e.isA .keyboardInterrupt = true) ∧
    processStatus flushed (exitStatus stderr outcome) ∈ [0, 1, 120, 130] := by
  cases flushed with
  | false =>
      rw [processStatus_unflushed hstderr]
      simp
  | true =>
      cases outcome with
      | ok u =>
          have hzero : processStatus true (exitStatus stderr (.ok u)) = 0 := rfl
          rw [hzero]
          simp
      | error e =>
          by_cases hinterrupt : e.isA .keyboardInterrupt = true
          · rcases processStatus_interrupted hstderr hinterrupt
              with ⟨hwritten, hstatus⟩ | ⟨hwritten, hstatus⟩
            · rw [hstatus]
              simp [hwritten, hinterrupt]
            · rw [hstatus]
              simp [hwritten]
          · rw [Bool.not_eq_true] at hinterrupt
            rw [processStatus_failed hstderr hinterrupt]
            simp [hinterrupt]

end Process

/-- A handler returns if it is not interrupted and would return. -/
theorem interruptible_eq_ok_iff (interrupted : Bool) :
    interruptible interrupted outcome = .ok () ↔ interrupted = false ∧ outcome = .ok () := by
  cases interrupted with
  | true => exact iff_of_false (error_ne_ok _ _) fun h => nomatch h.1
  | false => exact (and_iff_right rfl).symm

/-- It ends with an interrupt if it is interrupted, where it raises none itself. -/
theorem interruptible_interrupt_iff (interrupted : Bool)
    (hquiet : Fails (fun e => e.isA .keyboardInterrupt = false) outcome) :
    (∃ e, interruptible interrupted outcome = .error e ∧ e.isA .keyboardInterrupt = true) ↔
      interrupted = true := by
  cases interrupted with
  | true => exact iff_of_true ⟨interrupt, rfl, rfl⟩ rfl
  | false =>
      refine iff_of_false ?_ Bool.false_ne_true
      rintro ⟨e, he, hinterrupt⟩
      rw [hquiet e he] at hinterrupt
      exact Bool.false_ne_true hinterrupt

end Statuses

theorem IsFormatError.handled {e : PyErr} (h : e.cls = .proofFormatError) : Handled e :=
  Or.inl (by rw [PyErr.isA, h]; decide)

theorem IsVerificationError.handled {e : PyErr} (h : IsVerificationError e) : Handled e := by
  rcases h with h | h
  · exact Or.inl (by rw [PyErr.isA, h]; decide)
  · exact Or.inl (by rw [PyErr.isA, h]; decide)

/-- In a document more containers are open somewhere than the interpreter
    recurses. -/
def TooDeep (depth : Nat) (file : Except PyErr Bytes) (e : PyErr) : Prop :=
  e = recursionError ∧ ∃ encoded text, file = .ok encoded ∧ decodeUtf8 encoded = .ok text ∧
    TooNested depth .first (universalNewlines text)

variable {Cert Key : Type} {X : X509 Cert Key} {L : Lowercase} {float : Str → Value} {depth : Nat}
  {file rootFile : Except PyErr Bytes}

theorem fails_read_handled (hfile : Fails (fun e => e.isA .osError = true) file) :
    Fails (fun e => Handled e ∨ TooDeep depth file e)
      (ConnectionProof.read L (loads float depth) file) := by
  refine (fails_read float L depth hfile).mono fun e he => ?_
  rcases he with hformat | ⟨encoded, text, hencoded, htext, ⟨rfl, -⟩ | ⟨hdeep, hopenings⟩⟩
  · exact Or.inl (IsFormatError.handled hformat)
  -- An integer that is too long is a `ValueError`.
  · exact Or.inl (Or.inl (by decide))
  · exact Or.inr ⟨hdeep, encoded, text, hencoded, htext, hopenings⟩

theorem fails_challengeReport (txid : Str) (inputIndex : Int) :
    Fails Handled (challengeReport L txid inputIndex) := by
  refine Fails.bind ?_ fun c _ => fails_ok _
  have hvalue : Fails (fun e => e.cls = .valueError) (claimChallenge L txid inputIndex) := by
    unfold claimChallenge
    refine Fails.bind (fails_failIf _ rfl) fun u hrange =>
      (fails_displayHashToInternal L _ _).bind fun b _ => Fails.bind ?_ fun i _ => fails_ok _
    have hchecked := not_not.mp ((failIf_eq_ok_iff _ _ _).mp hrange)
    rw [(toBytesLittle_eq_ok_iff 4 inputIndex _).mpr ⟨hchecked.1, by omega, rfl⟩]
    exact fails_ok _
  exact hvalue.mono fun e he => Or.inl (by rw [PyErr.isA, he]; decide)

theorem fails_inspectReport (hfile : Fails (fun e => e.isA .osError = true) file) :
    Fails (fun e => Handled e ∨ TooDeep depth file e)
      (inspectReport L (loads float depth) file) := by
  unfold inspectReport
  refine (fails_read_handled hfile).bind fun envelope _ => ?_
  rcases envelope.challenge_eq_ok L with ⟨c, hc, -⟩
  rw [hc]
  refine (fails_ok c).bind fun c' _ => ((fails_parseProof _ _ _).mono fun e he =>
    Or.inl (IsFormatError.handled he)).bind fun p hp => ?_
  -- Behind the parser nothing can fail.
  have hlen := length_connectionWorkHash hp
  have hmask := envelope.admitted.signatureAlgorithmsMask
  rcases envelope.meetsWorkTarget_eq_ok L hlen with ⟨b, hb, -⟩
  rw [internalHashToDisplay_eq_ok _ hlen, hb, acceptedSignatureAlgorithms_eq _ hmask,
    signatureSchemeAllowed_eq _ _ hmask]
  exact fails_ok _

/-- An exception of one of the unguarded calls, in the verification of an
    envelope that could be read. -/
def EscapesReport (X : X509 Cert Key) (L : Lowercase) (float : Str → Value) (depth : Nat)
    (file rootFile : Except PyErr Bytes) (e : PyErr) : Prop :=
  IsUnguardedError e ∧ ∃ envelope,
    ConnectionProof.read L (loads float depth) file = .ok envelope ∧
    Escapes X L rootFile true envelope

theorem fails_verifyReport (hX : X.Documented)
    (hfile : Fails (fun e => e.isA .osError = true) file)
    (hroots : Fails (fun e => e.isA .osError = true) rootFile) :
    Fails (fun e => Handled e ∨ TooDeep depth file e ∨
        EscapesReport X L float depth file rootFile e)
      (verifyReport L (loads float depth) X file rootFile) := by
  unfold verifyReport
  refine Fails.bind ?_ fun envelope hread => Fails.bind ?_ fun r _ => fails_ok _
  · refine (fails_read_handled hfile).mono fun e he => ?_
    rcases he with hhandled | hdeep
    · exact Or.inl hhandled
    · exact Or.inr (Or.inl hdeep)
  · intro e he
    rcases fails_verifyConnectionProof hX hroots envelope e he with hverification | hunguarded
    · exact Or.inl hverification.handled
    by_cases hescapes : Escapes X L rootFile true envelope
    · exact Or.inr (Or.inr ⟨hunguarded, envelope, hread, hescapes⟩)
    · have hfails := (fails_verifyConnectionProof_iff hX hroots envelope).mpr hescapes
      exact Or.inl (hfails e he).handled

/-- What an unguarded call raises is no interrupt. -/
theorem IsUnguardedError.not_interrupt {e : PyErr} (h : IsUnguardedError e) :
    e.isA .keyboardInterrupt = false := by
  rcases h with h | h | h | h
  all_goals
    rw [PyErr.isA, h]
    decide

theorem TooDeep.not_interrupt {e : PyErr} (h : TooDeep depth file e) :
    e.isA .keyboardInterrupt = false := by
  rw [h.1]
  rfl

variable {stdout : Str → Except PyErr Unit}

theorem reported_eq_ok_iff (report : Except PyErr Value) :
    reported stdout report = .ok () ↔ ∃ v, report = .ok v ∧ printJson stdout v = .ok () :=
  bind_eq_ok_iff report (printJson stdout) ()

/-- Printing a document fails only where writing to the standard output does. -/
theorem fails_reported {P : PyErr → Prop} {report : Except PyErr Value} (hreport : Fails P report)
    (hportable : ∀ v, report = .ok v → v.Portable depth)
    (hstdout : ∀ text, Fails P (stdout text)) : Fails P (reported stdout report) := by
  refine hreport.bind fun v hv => ?_
  rcases exists_printed (fun _ => .none) (hportable v hv) with ⟨text, htext, -⟩
  rw [htext]
  exact hstdout text

variable {stderr : Except PyErr Unit}

/-- What the process of a command that reports ends with. The status is zero
    exactly if there is a report and it was printed and flushed, 130 if the
    command was interrupted and could say so, 120 if the standard streams could
    not be flushed, and one otherwise. Past `main` gets only a failure to report
    something, a document that is nested too deep, and what escapes from a
    verification. -/
theorem exit_statuses (hX : X.Documented) (hfile : Fails (fun e => e.isA .osError = true) file)
    (hroots : Fails (fun e => e.isA .osError = true) rootFile)
    (hstdout : ∀ text, Fails (fun e => e.isA .osError = true) (stdout text))
    (hstderr : Fails (fun e => e.isA .osError = true) stderr) (flushed interrupted : Bool)
    (txid : Str) (inputIndex : Int) :
    (∀ report, report ∈ [challengeReport L txid inputIndex,
        inspectReport L (loads float depth) file,
        verifyReport L (loads float depth) X file rootFile] →
      ∀ status, processStatus flushed (exitStatus stderr
        (interruptible interrupted (reported stdout report))) = status →
      (status = 0 ↔ flushed = true ∧ interrupted = false ∧
        ∃ v, report = .ok v ∧ printJson stdout v = .ok ()) ∧
      (status = 120 ↔ flushed = false) ∧
      (status = 130 ↔ flushed = true ∧ interrupted = true ∧ stderr = .ok ()) ∧
      status ∈ [0, 1, 120, 130]) ∧
    Fails (fun e => stderr = .error e) (exitStatus stderr
      (interruptible interrupted (reported stdout (challengeReport L txid inputIndex)))) ∧
    Fails (fun e => stderr = .error e ∨ TooDeep depth file e) (exitStatus stderr
      (interruptible interrupted (reported stdout (inspectReport L (loads float depth) file)))) ∧
    Fails (fun e => stderr = .error e ∨ TooDeep depth file e ∨
        EscapesReport X L float depth file rootFile e) (exitStatus stderr
      (interruptible interrupted
        (reported stdout (verifyReport L (loads float depth) X file rootFile)))) := by
  have hprint : ∀ text, Fails Handled (stdout text) := fun text =>
    (hstdout text).mono fun e he => Or.inr he
  have hchallenge : Fails Handled (reported stdout (challengeReport L txid inputIndex)) :=
    fails_reported (fails_challengeReport txid inputIndex)
      (fun v hv => portable_challenge 0 hv) hprint
  have hinspect : Fails (fun e => Handled e ∨ TooDeep depth file e)
      (reported stdout (inspectReport L (loads float depth) file)) :=
    fails_reported (fails_inspectReport hfile) (fun v hv => portable_inspectReport 0 hv)
      fun text => (hprint text).mono fun e he => Or.inl he
  have hverify : Fails (fun e => Handled e ∨ TooDeep depth file e ∨
      EscapesReport X L float depth file rootFile e)
      (reported stdout (verifyReport L (loads float depth) X file rootFile)) :=
    fails_reported (fails_verifyReport hX hfile hroots) (fun v hv => portable_verifyReport 0 hv)
      fun text => (hprint text).mono fun e he => Or.inl he
  refine ⟨fun report hreport status hstatus => ?_, ?_, fails_exitStatus interrupted hinspect,
    fails_exitStatus interrupted hverify⟩
  -- A handler raises no interrupt of its own.
  · have hquiet : Fails (fun e => e.isA .keyboardInterrupt = false) (reported stdout report) := by
      simp only [List.mem_cons, List.not_mem_nil, or_false] at hreport
      rcases hreport with rfl | rfl | rfl
      · exact hchallenge.mono fun e he => he.not_interrupt
      · refine hinspect.mono fun e he => ?_
        rcases he with hhandled | hdeep
        · exact hhandled.not_interrupt
        · exact hdeep.not_interrupt
      · refine hverify.mono fun e he => ?_
        rcases he with hhandled | hdeep | hescapes
        · exact hhandled.not_interrupt
        · exact hdeep.not_interrupt
        · exact hescapes.1.not_interrupt
    subst hstatus
    rcases @processStatus_iff stderr (interruptible interrupted (reported stdout report)) hstderr
      flushed with ⟨hzero, hunflushed, hinterrupted, hcases⟩
    rw [interruptible_eq_ok_iff, reported_eq_ok_iff] at hzero
    rw [interruptible_interrupt_iff interrupted hquiet] at hinterrupted
    exact ⟨hzero, hunflushed, hinterrupted.trans (and_congr_right fun _ => and_comm), hcases⟩
  · exact (fails_exitStatus (P := fun _ => False) interrupted
      (hchallenge.mono fun e he => Or.inl he)).mono fun e he => he.resolve_right id

end Main

/-- Three brackets get past `main`, for an interpreter that recurses twice, and
    the process ends with one. -/
theorem brackets_exit :
    processStatus true (exitStatus (.ok ()) (reported (fun _ => .ok ()) (inspectReport
        Lowercase.ascii (loads (fun _ => .none) 2) (.ok (asciiLiteral "[[["))))) = 1 ∧
      TooDeep 2 (.ok (asciiLiteral "[[[")) recursionError := by
  have hpast : exitStatus (.ok ()) (interruptible false (reported (fun _ => .ok ())
      (inspectReport Lowercase.ascii (loads (fun _ => .none) 2) (.ok (asciiLiteral "[[["))))) =
      .error recursionError := rfl
  have hfails : Fails (fun e => Except.ok () = Except.error e ∨
        TooDeep 2 (.ok (asciiLiteral "[[[")) e)
      (exitStatus (.ok ()) (interruptible false (reported (fun _ => .ok ())
        (inspectReport Lowercase.ascii (loads (fun _ => .none) 2) (.ok (asciiLiteral "[[[")))))) :=
    (exit_statuses documented_sampleX509 (fails_ok _) (fails_ok rootPem) (fun _ => fails_ok ())
      (fails_ok ()) true false [] 0).2.2.1
  refine ⟨rfl, (hfails recursionError hpast).resolve_left fun hwritten => ?_⟩
  exact absurd hwritten.symm (error_ne_ok _ _)

end P2CTools
