import P2CTools.Source.Schema
import P2CTools.Theory.Dictionary
import P2CTools.Wire.Patterns

/-!
# The Schema and the Reader

The published schema accepts the documents that the reader accepts, up to the
spelling of the domain.

The two are written in different terms. The reader tests characters, lengths
and ranges in Python, the schema gives patterns, and the constructor checks
everything once more. They meet in the fields: the patterns are the digits of
32 bytes and of a byte string that begins with 2, and the schema accepts a
dictionary exactly when its lookups are those of admitted fields, apart from
the domain, of which the schema sees the length only.

## Main definitions

* `SchemaFields`: What the schema says about some fields.

## Theorems

* `hashPattern_iff`, `proofPattern_iff`: What the patterns match.
* `accepts_iff_fields`: What the schema accepts.
* `fromDict_agrees`: The reader, the schema and the constructor.
-/

namespace P2CTools

open Wire

/-! ### The patterns -/

theorem isClass_hexClass : IsClass hexClass.matches' fun c => isLowerHex c = true := by
  intro x
  have hclass := isClass_sum (Str.ofString "0123456789abcdef") x
  simp only [isLowerHex, List.contains_iff_mem]
  exact hclass

/-- Sixty-four digits are the writing of 32 bytes. -/
theorem hashPattern_iff (s : Str) : hashPattern.rmatch s = true ↔ HexOf 32 s := by
  rw [RegularExpression.rmatch_iff_matches', hashPattern, RegularExpression.matches'_pow,
    isClass_hexClass.mem_pow_iff]
  constructor
  · rintro ⟨hlen, hdigits⟩
    rcases toHex_fromHex 32 s hlen hdigits with ⟨b, -, hb, hlen'⟩
    exact ⟨b, hlen', hb.symm⟩
  · rintro ⟨b, hlen, rfl⟩
    refine ⟨?_, isLowerHex_toHex b⟩
    rw [length_toHex, hlen]

/-- The digits of the version byte and then of any bytes. -/
theorem proofPattern_iff (s : Str) :
    proofPattern.rmatch s = true ↔ ∃ b : Bytes, b.head? = some 2 ∧ s = toHex b := by
  -- The two characters in front are fixed.
  have hzero : ∀ x, x ∈ (oneOf (Str.ofString "0")).matches' ↔ x = [hexDigit 0] := by
    intro x
    rw [oneOf, isClass_sum]
    have hmembers : Str.ofString "0" = [hexDigit 0] := by decide
    simp only [hmembers, List.mem_singleton, exists_eq_left]
  have htwo : ∀ x, x ∈ (oneOf (Str.ofString "2")).matches' ↔ x = [hexDigit 2] := by
    intro x
    rw [oneOf, isClass_sum]
    have hmembers : Str.ofString "2" = [hexDigit 2] := by decide
    simp only [hmembers, List.mem_singleton, exists_eq_left]
  rw [RegularExpression.rmatch_iff_matches', proofPattern, RegularExpression.matches'_mul,
    RegularExpression.matches'_mul, RegularExpression.matches'_star,
    RegularExpression.matches'_pow]
  -- The rest is any number of pairs of digits.
  simp only [Language.mem_mul, hzero, htwo, isClass_hexClass.mem_kstar_iff]
  constructor
  · rintro ⟨_, ⟨_, rfl, _, rfl, rfl⟩, rest, ⟨⟨m, hlen⟩, hdigits⟩, rfl⟩
    rcases toHex_fromHex m rest hlen hdigits with ⟨b, -, rfl, -⟩
    exact ⟨2 :: b, rfl, rfl⟩
  · rintro ⟨b, hhead, rfl⟩
    match b with
    | x :: rest =>
        rw [List.head?_cons, Option.some.injEq] at hhead
        subst hhead
        exact ⟨_, ⟨_, rfl, _, rfl, rfl⟩, toHex rest,
          ⟨⟨rest.length, length_toHex rest⟩, isLowerHex_toHex rest⟩, rfl⟩

/-! ### The schema -/

/-- What the schema says about some fields: everything the constructor checks,
    but of the domain only its length, and that the proof begins with its
    version. -/
structure SchemaFields (f : Fields) : Prop where
  version : f.version = envelopeVersion
  domain : 1 ≤ f.domain.length ∧ f.domain.length ≤ 253
  txid : HexOf 32 f.txid
  connectionWorkTarget : HexOf 32 f.connectionWorkTarget
  inputIndex : 0 ≤ f.inputIndex ∧ f.inputIndex ≤ 0xFFFFFFFF
  rootCertificatesVersion : 1 ≤ f.rootCertificatesVersion ∧ f.rootCertificatesVersion ≤ 0xFFFFFFFF
  signatureAlgorithmsMask : 1 ≤ f.signatureAlgorithmsMask ∧ f.signatureAlgorithmsMask ≤ 7
  validationTime : 1 ≤ f.validationTime ∧ f.validationTime ≤ 0x7FFFFFFFFFFFFFFF
  proof : f.proof.length ≤ 64 * 1024
  head : f.proof.head? = some 2

theorem holds_typeString_iff (v : Value) :
    Assertion.typeString.holds v = true ↔ ∃ s, v = .str s := by
  cases v with
  | str s => simp only [Assertion.holds, Value.str.injEq, exists_eq']
  | none | bool b | int n | bytes b | list xs | dict d =>
      simp only [Assertion.holds, Bool.false_eq_true, reduceCtorEq, exists_false]

theorem holds_typeInteger_iff (v : Value) :
    Assertion.typeInteger.holds v = true ↔ ∃ n, v = .int n := by
  cases v with
  | int n => simp only [Assertion.holds, Value.int.injEq, exists_eq']
  | none | bool b | str s | bytes b | list xs | dict d =>
      simp only [Assertion.holds, Bool.false_eq_true, reduceCtorEq, exists_false]

theorem holds_constString_iff (s : Str) (v : Value) :
    (Assertion.constString s).holds v = true ↔ v = .str s := by
  cases v with
  | str t =>
      simp only [Assertion.holds, beq_iff_eq, Value.str.injEq]
      exact eq_comm
  | none | bool b | int n | bytes b | list xs | dict d =>
      simp only [Assertion.holds, Bool.false_eq_true, reduceCtorEq]

/-- A schema accepts an object by its keys and its lookups. -/
theorem accepts_dict_iff (schema : ObjectSchema) (entries : List (Str × Value)) :
    schema.accepts (.dict entries) = true ↔
      ((∀ key ∈ schema.required, Str.ofString key ∈ entries.map Prod.fst) ∧
        ∀ key ∈ entries.map Prod.fst, ∃ property ∈ schema.properties,
          Str.ofString property.1 = key) ∧
      ∀ property ∈ schema.properties, ∀ value,
        lookup entries (Str.ofString property.1) = some value →
          ∀ assertion ∈ property.2, assertion.holds value = true := by
  unfold ObjectSchema.accepts
  simp only [Bool.and_eq_true, List.all_eq_true, List.any_eq_true, List.contains_iff_mem,
    beq_iff_eq]
  refine and_congr_right fun _ => forall₂_congr fun property _ => ?_
  simp only [← getItem_eq_ok_iff]
  cases Value.getItem entries property.1 with
  | ok value => simp only [List.all_eq_true, Except.ok.injEq, forall_eq']
  | error e => simp only [reduceCtorEq, false_implies, implies_true]

/-- The schema's keys are the reader's. -/
theorem schema_keys_iff (entries : List (Str × Value)) :
    ((∀ key ∈ connectionProofSchema.required, Str.ofString key ∈ entries.map Prod.fst) ∧
      ∀ key ∈ entries.map Prod.fst, ∃ property ∈ connectionProofSchema.properties,
        Str.ofString property.1 = key) ↔
    ∀ key, key ∈ entries.map Prod.fst ↔ key ∈ expectedKeys := by
  -- Both the required keys and the properties are the reader's keys.
  have hrequired : connectionProofSchema.required.map Str.ofString = expectedKeys := rfl
  have hproperties : connectionProofSchema.properties.map (fun p => Str.ofString p.1) =
      expectedKeys := rfl
  have hmem : ∀ key, (∃ property ∈ connectionProofSchema.properties,
      Str.ofString property.1 = key) ↔ key ∈ expectedKeys := by
    intro key
    rw [← hproperties, List.mem_map]
  simp only [hmem]
  rw [← hrequired]
  constructor
  · rintro ⟨hall, honly⟩ key
    refine ⟨honly key, fun hkey => ?_⟩
    rcases List.mem_map.mp hkey with ⟨name, hname, rfl⟩
    exact hall name hname
  · intro h
    exact ⟨fun name hname => (h _).mpr (List.mem_map_of_mem hname), fun key hkey => (h key).mp hkey⟩

/-- What the schema accepts is a dictionary of fields it speaks of. -/
theorem schemaFields_of_accepts {value : Value} (h : connectionProofSchema.accepts value = true) :
    ∃ f, SchemaFields f ∧ ∃ entries, value = .dict entries ∧ SameDict entries f.entries := by
  match value with
  | .dict entries =>
      rw [accepts_dict_iff, schema_keys_iff] at h
      rcases h with ⟨hkeys, hholds⟩
      have hfound : ∀ name, Str.ofString name ∈ expectedKeys →
          ∃ v, lookup entries (Str.ofString name) = some v :=
        fun name hname => (mem_keys_iff _ _).mp ((hkeys _).mpr hname)
      simp only [connectionProofSchema, List.forall_mem_cons, List.not_mem_nil, false_implies,
        implies_true, and_true, holds_typeString_iff, holds_typeInteger_iff,
        holds_constString_iff] at hholds
      rcases hholds with ⟨hformat, hversion, hdomain, htxid, hindex, htarget, hroots, hmask,
        htime, hproof⟩
      -- Every key of the schema is looked up, and its assertions give the field.
      rcases hfound "format" (by decide) with ⟨_, hlformat⟩
      rcases hfound "version" (by decide) with ⟨_, hlversion⟩
      rcases hfound "domain" (by decide) with ⟨_, hldomain⟩
      rcases hfound "txid" (by decide) with ⟨_, hltxid⟩
      rcases hfound "input_index" (by decide) with ⟨_, hlindex⟩
      rcases hfound "connection_work_target" (by decide) with ⟨_, hltarget⟩
      rcases hfound "root_certificates_version" (by decide) with ⟨_, hlroots⟩
      rcases hfound "signature_algorithms_mask" (by decide) with ⟨_, hlmask⟩
      rcases hfound "validation_time" (by decide) with ⟨_, hltime⟩
      rcases hfound "proof" (by decide) with ⟨_, hlproof⟩
      rcases hformat _ hlformat
      rcases hversion _ hlversion with ⟨⟨version, rfl⟩, hv⟩
      rcases hdomain _ hldomain with ⟨⟨domain, rfl⟩, hd⟩
      rcases htxid _ hltxid with ⟨⟨txid, rfl⟩, ht⟩
      rcases hindex _ hlindex with ⟨⟨inputIndex, rfl⟩, hi⟩
      rcases htarget _ hltarget with ⟨⟨target, rfl⟩, hw⟩
      rcases hroots _ hlroots with ⟨⟨roots, rfl⟩, hr⟩
      rcases hmask _ hlmask with ⟨⟨mask, rfl⟩, hm⟩
      rcases htime _ hltime with ⟨⟨time, rfl⟩, htm⟩
      rcases hproof _ hlproof with ⟨⟨digits, rfl⟩, hp, hlen⟩
      simp only [Assertion.holds, decide_eq_true_eq, beq_iff_eq, hashPattern_iff,
        proofPattern_iff] at hv hd ht hi hw hr hm htm hp hlen
      -- The pattern of the proof is that of the digits of its bytes.
      rcases hp with ⟨proof, hhead, rfl⟩
      rw [length_toHex] at hlen
      have hproofLength : proof.length ≤ 64 * 1024 := by omega
      refine ⟨⟨domain, txid, inputIndex, target, roots, mask, time, proof, version⟩,
        ⟨hv.symm, hd, ht, hw, hi, hr, hm, htm, hproofLength, hhead⟩, entries, rfl,
        sameDict_of_expected hkeys (fun _ => Iff.rfl) ?_⟩
      simp only [expectedKeys, List.map_cons, List.map_nil, List.forall_mem_cons,
        List.not_mem_nil, false_implies, implies_true, and_true]
      exact ⟨hlformat, hlversion, hldomain, hltxid, hlindex, hltarget, hlroots, hlmask, hltime,
        hlproof⟩

/-- The schema accepts a dictionary of the fields it speaks of. -/
theorem accepts_of_schemaFields {f : Fields} (hf : SchemaFields f)
    {entries : List (Str × Value)} (hsame : SameDict entries f.entries) :
    connectionProofSchema.accepts (.dict entries) = true := by
  rw [accepts_dict_iff, schema_keys_iff]
  refine ⟨hsame.keys, ?_⟩
  have hlen : (toHex f.proof).length ≤ 131072 := by
    have hproof := hf.proof
    rw [length_toHex]
    omega
  -- What is looked up in the document is the value of the field.
  have hlookup : ∀ (name : String) (v v' : Value),
      lookup f.entries (Str.ofString name) = some v →
      lookup entries (Str.ofString name) = some v' → v = v' := by
    intro name v v' hv hv'
    rw [hsame, hv] at hv'
    exact Option.some.inj hv'
  simp only [connectionProofSchema, List.forall_mem_cons, List.not_mem_nil, false_implies,
    implies_true, and_true]
  refine ⟨fun v hv => ?_, fun v hv => ?_, fun v hv => ?_, fun v hv => ?_, fun v hv => ?_,
    fun v hv => ?_, fun v hv => ?_, fun v hv => ?_, fun v hv => ?_, fun v hv => ?_⟩
  · rw [← hlookup "format" (.str format) v rfl hv]
    exact (holds_constString_iff _ _).mpr rfl
  · rw [← hlookup "version" (.int f.version) v rfl hv]
    simp only [Assertion.holds, beq_iff_eq, hf.version, and_self]
  · rw [← hlookup "domain" (.str f.domain) v rfl hv]
    simp only [Assertion.holds, decide_eq_true_eq]
    exact ⟨trivial, hf.domain⟩
  · rw [← hlookup "txid" (.str f.txid) v rfl hv]
    exact ⟨rfl, (hashPattern_iff _).mpr hf.txid⟩
  · rw [← hlookup "input_index" (.int f.inputIndex) v rfl hv]
    simp only [Assertion.holds, decide_eq_true_eq]
    exact ⟨trivial, hf.inputIndex⟩
  · rw [← hlookup "connection_work_target" (.str f.connectionWorkTarget) v rfl hv]
    exact ⟨rfl, (hashPattern_iff _).mpr hf.connectionWorkTarget⟩
  · rw [← hlookup "root_certificates_version" (.int f.rootCertificatesVersion) v rfl hv]
    simp only [Assertion.holds, decide_eq_true_eq]
    exact ⟨trivial, hf.rootCertificatesVersion⟩
  · rw [← hlookup "signature_algorithms_mask" (.int f.signatureAlgorithmsMask) v rfl hv]
    simp only [Assertion.holds, decide_eq_true_eq]
    exact ⟨trivial, hf.signatureAlgorithmsMask⟩
  · rw [← hlookup "validation_time" (.int f.validationTime) v rfl hv]
    simp only [Assertion.holds, decide_eq_true_eq]
    exact ⟨trivial, hf.validationTime⟩
  · rw [← hlookup "proof" (.str (toHex f.proof)) v rfl hv]
    exact ⟨rfl, (proofPattern_iff _).mpr ⟨f.proof, hf.head, rfl⟩, decide_eq_true hlen⟩

/-- The schema accepts the dictionaries of the fields it speaks of. -/
theorem accepts_iff_fields (value : Value) :
    connectionProofSchema.accepts value = true ↔
      ∃ f, SchemaFields f ∧ ∃ entries, value = .dict entries ∧ SameDict entries f.entries := by
  constructor
  · exact schemaFields_of_accepts
  · rintro ⟨f, hf, entries, rfl, hsame⟩
    exact accepts_of_schemaFields hf hsame

/-- With a canonical domain the schema says what the constructor says, and
    that the proof begins with its version. -/
theorem schemaFields_iff (f : Fields) :
    SchemaFields f ∧ CanonicalDomain f.domain ↔ Admitted f ∧ f.proof.head? = some 2 := by
  constructor
  · rintro ⟨h, hdomain⟩
    exact ⟨⟨h.version, (isCanonicalDomain_iff _).mpr hdomain, h.txid, h.connectionWorkTarget,
      h.inputIndex, h.rootCertificatesVersion, h.signatureAlgorithmsMask, h.validationTime,
      h.proof⟩, h.head⟩
  · rintro ⟨h, hhead⟩
    have hdomain := (isCanonicalDomain_iff _).mp h.domain
    -- A canonical domain is ASCII, so its length is the length of its bytes.
    have hlength : 1 ≤ f.domain.length ∧ f.domain.length ≤ 253 := by
      rcases hdomain.encode with ⟨encoded, hencoded, hlen⟩
      rw [length_encodeAscii _ _ hencoded] at hlen
      exact hlen
    exact ⟨⟨h.version, hlength, h.txid, h.connectionWorkTarget, h.inputIndex,
      h.rootCertificatesVersion, h.signatureAlgorithmsMask, h.validationTime, h.proof, hhead⟩,
      hdomain⟩

/-- The reader accepts the documents that satisfy the schema and have a
    canonical domain, and refuses the others with a `ProofFormatError`. Once
    its own checks have passed, the constructor and the challenge do not fail.
    On fields whose proof begins with its version the constructor and the
    reader agree. -/
theorem fromDict_agrees (L : Lowercase) :
    (∀ v, (∃ e, fromDict L v = .ok e) ↔ connectionProofSchema.accepts v = true ∧
      ∃ entries domain, v = .dict entries ∧
        lookup entries (Str.ofString "domain") = some (.str domain) ∧ CanonicalDomain domain) ∧
    (∀ v e, fromDict L v = .error e → e.cls = .proofFormatError) ∧
    (∀ v, fromDict L v = decodeFields L v >>= finishDict L ∧
      ∀ f, decodeFields L v = .ok f → ∃ e, construct L f.raw = .ok e ∧ e.toFields = f ∧
        ∃ c, claimChallenge L e.txid e.inputIndex = .ok c) ∧
    ∀ f : Fields, f.proof.head? = some 2 →
      ∀ e, construct L f.raw = .ok e ↔ fromDict L (.dict f.entries) = .ok e := by
  refine ⟨fun v => ?_, fails_fromDict L, fun v => ⟨fromDict_eq L v, fun f => finish_of_decoded L⟩,
    fun f hhead e => ?_⟩
  -- The schema speaks of the same fields, except for the domain.
  · simp only [fromDict_eq_ok_iff, accepts_iff_fields]
    constructor
    · rintro ⟨e, hhead, entries, rfl, hsame⟩
      rcases (schemaFields_iff e.toFields).mpr ⟨e.admitted, hhead⟩ with ⟨hfields, hdomain⟩
      exact ⟨⟨e.toFields, hfields, entries, rfl, hsame⟩, entries, e.domain, rfl, hsame _, hdomain⟩
    · rintro ⟨⟨f, hfields, entries, rfl, hsame⟩, _, domain, hdict, hlookup, hdomain⟩
      rw [← Value.dict.inj hdict, hsame] at hlookup
      rw [← Value.str.inj (Option.some.inj hlookup)] at hdomain
      rcases (schemaFields_iff f).mp ⟨hfields, hdomain⟩ with ⟨hadmitted, hhead⟩
      exact ⟨⟨f, hadmitted⟩, hhead, entries, rfl, hsame⟩
  -- Fields are determined by their dictionary, so both build the same envelope.
  · rw [construct_eq_ok_iff, fromDict_eq_ok_iff]
    constructor
    · intro hraw
      have hfields := Fields.raw_inj hraw
      rw [hfields] at hhead
      exact ⟨hhead, f.entries, rfl, fun key => by rw [hfields]; rfl⟩
    · rintro ⟨-, entries, hdict, hsame⟩
      rw [← Value.dict.inj hdict] at hsame
      rw [SameDict.fields_eq hsame]

end P2CTools
