import P2CTools.Source.Envelope

/-!
# The Dictionary Form

An envelope and the dictionaries it is read from.

A Python dictionary is looked up by key and compared without regard to order,
so two lists of entries stand for the same dictionary when every lookup gives
the same in both. The dictionary of some fields has the expected keys and no
others, and each field stands under its key in a form that the reader's checks
accept, because they are the checks of the constructor.

Reading works in two halves. `decodeFields` is the list of checks that
`from_dict` makes before it calls the constructor, and it succeeds exactly on
the dictionaries of admitted fields with a proof that is not empty. What
follows is the constructor, the challenge and the version byte, and of these
only the version byte can still refuse.

## Main definitions

* `lookup`: A lookup in a dictionary.
* `SameDict`: Equality of dictionaries.
* `Fields.entries`, `ConnectionProof.entries`: The dictionary of an envelope.
* `decodeFields`: The checks before the constructor.

## Theorems

* `toDict_eq_ok_iff`: When there is a dictionary.
* `decodeFields_eq_ok_iff`: The dictionaries that pass the checks.
* `fromDict_eq_ok_iff`: The dictionaries an envelope is read from.
* `fromDict_entries`: Reading the dictionary gives the envelope back.
* `fails_fromDict`: What a refused dictionary raises.
-/

namespace P2CTools

open Wire

/-- `d.get(key)`. -/
def lookup (entries : List (Str × Value)) (key : Str) : Option Value :=
  (entries.find? fun entry => entry.1 == key).map Prod.snd

/-- Equality of dictionaries: the order of the entries does not count. -/
def SameDict (a b : List (Str × Value)) : Prop :=
  ∀ key, lookup a key = lookup b key

/-- The dictionary that stands for some fields. -/
def Fields.entries (f : Fields) : List (Str × Value) :=
  [(Str.ofString "format", .str format),
    (Str.ofString "version", .int f.version),
    (Str.ofString "domain", .str f.domain),
    (Str.ofString "txid", .str f.txid),
    (Str.ofString "input_index", .int f.inputIndex),
    (Str.ofString "connection_work_target", .str f.connectionWorkTarget),
    (Str.ofString "root_certificates_version", .int f.rootCertificatesVersion),
    (Str.ofString "signature_algorithms_mask", .int f.signatureAlgorithmsMask),
    (Str.ofString "validation_time", .int f.validationTime),
    (Str.ofString "proof", .str (toHex f.proof))]

/-- The entries of an envelope's dictionary are those of its fields. -/
def ConnectionProof.entries (e : ConnectionProof) : List (Str × Value) :=
  e.toFields.entries

theorem checkSerializedProof_eq_ok_iff (e : ConnectionProof) (u : Unit) :
    e.checkSerializedProof = .ok u ↔ e.proof.head? = some 2 := by
  rw [ConnectionProof.checkSerializedProof, failIf_eq_ok_iff, ne_eq, not_not]

/-- There is a dictionary exactly when the proof begins with its version. -/
theorem toDict_eq_ok_iff (e : ConnectionProof) (entries : List (Str × Value)) :
    e.toDict = .ok entries ↔ e.proof.head? = some 2 ∧ entries = e.entries := by
  unfold ConnectionProof.toDict
  simp only [bind_eq_ok_iff, checkSerializedProof_eq_ok_iff, exists_const, pure_eq_ok_iff,
    ConnectionProof.entries, Fields.entries]
  exact and_congr_right fun _ => eq_comm

theorem getItem_eq_ok_iff (entries : List (Str × Value)) (key : String) (value : Value) :
    Value.getItem entries key = .ok value ↔ lookup entries (Str.ofString key) = some value := by
  unfold Value.getItem lookup
  cases entries.find? fun entry => entry.1 == Str.ofString key with
  | none => simp only [reduceCtorEq, Option.map_none]
  | some entry => simp only [Except.ok.injEq, Option.map_some, Option.some.injEq]

/-- A key is there when its lookup finds something. -/
theorem mem_keys_iff (entries : List (Str × Value)) (key : Str) :
    key ∈ entries.map Prod.fst ↔ ∃ value, lookup entries key = some value := by
  induction entries with
  | nil => simp only [List.map_nil, List.not_mem_nil, lookup, List.find?_nil, Option.map_none,
      reduceCtorEq, exists_false]
  | cons entry entries ih =>
      by_cases h : entry.1 = key
      -- The first entry has the key.
      · have hfound : lookup (entry :: entries) key = some entry.2 := by
          rw [lookup, List.find?_cons_of_pos (by simp only [h, beq_self_eq_true]), Option.map_some]
        rw [List.map_cons, List.mem_cons]
        exact iff_of_true (Or.inl h.symm) ⟨entry.2, hfound⟩
      -- It has another one, and both sides look further.
      · have hnext : lookup (entry :: entries) key = lookup entries key := by
          rw [lookup, List.find?_cons_of_neg (by simp only [h, beq_iff_eq, not_false_eq_true]),
            ← lookup]
        rw [hnext, ← ih, List.map_cons, List.mem_cons, or_iff_right (Ne.symm h)]

/-- In a dictionary, which has each key once, a lookup finds the entry. -/
theorem lookup_eq_some_iff {entries : List (Str × Value)} (h : (entries.map Prod.fst).Nodup)
    (key : Str) (value : Value) : lookup entries key = some value ↔ (key, value) ∈ entries := by
  induction entries with
  | nil => simp only [lookup, List.find?_nil, Option.map_none, reduceCtorEq, List.not_mem_nil]
  | cons entry entries ih =>
      rw [List.map_cons, List.nodup_cons] at h
      rw [lookup, List.find?_cons, List.mem_cons]
      by_cases hkey : entry.1 = key
      -- The first entry is found, and no later one has its key.
      · have hrest : (key, value) ∉ entries := by
          intro hmem
          exact h.1 (List.mem_map.mpr ⟨_, hmem, hkey.symm⟩)
        simp only [hkey, beq_self_eq_true, Option.map_some, Option.some.injEq, hrest, or_false]
        rw [← hkey, Prod.ext_iff]
        simp only [true_and]
        exact eq_comm
      -- It is passed over, by the lookup and by the membership.
      · have hne : (key, value) ≠ entry := fun heq => hkey (congrArg Prod.fst heq).symm
        have hbeq : (entry.1 == key) = false := beq_eq_false_iff_ne.mpr hkey
        simp only [hbeq, hne, false_or]
        exact ih h.2

/-- Reordering the entries does not change a dictionary. -/
theorem sameDict_of_perm {a b : List (Str × Value)} (h : a.Perm b)
    (hb : (b.map Prod.fst).Nodup) : SameDict a b := by
  intro key
  have ha : (a.map Prod.fst).Nodup := (h.map Prod.fst).nodup_iff.mpr hb
  refine Option.ext fun value => ?_
  rw [lookup_eq_some_iff ha, lookup_eq_some_iff hb, h.mem_iff]

/-- The key check passes when the keys are the expected ones. -/
theorem requireExactKeys_eq_ok_iff (entries : List (Str × Value)) (u : Unit) :
    requireExactKeys entries = .ok u ↔
      ∀ key, key ∈ entries.map Prod.fst ↔ key ∈ expectedKeys := by
  unfold requireExactKeys
  simp only [bind_eq_ok_iff, failIf_eq_ok_iff, exists_const, ne_eq, not_not,
    List.filter_eq_nil_iff, Bool.not_eq_true, Bool.not_eq_false', List.contains_iff_mem]
  constructor
  · rintro ⟨hmissing, hextra⟩ key
    exact ⟨hextra key, hmissing key⟩
  · intro h
    exact ⟨fun key hkey => (h key).mpr hkey, fun key hkey => (h key).mp hkey⟩

/-- A dictionary has the expected keys when its lookups are those of some
    fields. -/
theorem SameDict.keys {entries : List (Str × Value)} {f : Fields}
    (h : SameDict entries f.entries) (key : Str) :
    key ∈ entries.map Prod.fst ↔ key ∈ expectedKeys := by
  have hkeys : f.entries.map Prod.fst = expectedKeys := rfl
  rw [mem_keys_iff, h key, ← mem_keys_iff, hkeys]

/-- Two dictionaries with the expected keys are the same when they agree on
    those. -/
theorem sameDict_of_expected {a b : List (Str × Value)}
    (ha : ∀ key, key ∈ a.map Prod.fst ↔ key ∈ expectedKeys)
    (hb : ∀ key, key ∈ b.map Prod.fst ↔ key ∈ expectedKeys)
    (h : ∀ key ∈ expectedKeys, lookup a key = lookup b key) : SameDict a b := by
  intro key
  by_cases hkey : key ∈ expectedKeys
  · exact h key hkey
  · -- Neither dictionary has the key.
    have hna := mt (ha key).mp hkey
    have hnb := mt (hb key).mp hkey
    rw [mem_keys_iff, not_exists] at hna hnb
    rw [Option.eq_none_iff_forall_ne_some.mpr hna, Option.eq_none_iff_forall_ne_some.mpr hnb]

section Decode

variable (L : Lowercase)

/-- The checks of `from_dict` before its constructor call, with what is then
    passed to the constructor. -/
def decodeFields (value : Value) : Except PyErr Fields := do
  let entries ← requireDict value
  requireExactKeys entries
  let format ← Value.getItem entries "format"
  failIf (¬isFormat format) (formatError "format must be 'connectcoin-p2c-proof'")
  let _ ← requireVersion (← Value.getItem entries "version")
  let domain ← requireDomain (← Value.getItem entries "domain")
  let txid ← requireHex L (← Value.getItem entries "txid") "txid" (some 32)
  let target ← requireHex L (← Value.getItem entries "connection_work_target")
    "connection_work_target" (some 32)
  let inputIndex ← requireUint (← Value.getItem entries "input_index") "input_index" 0xFFFFFFFF
  let rootsVersion ← requireUint (← Value.getItem entries "root_certificates_version")
    "root_certificates_version" 0xFFFFFFFF
  failIf (rootsVersion = 0) (formatError "root_certificates_version must not be zero")
  let signatureMask ← validateSignatureAlgorithmsMask
    (← Value.getItem entries "signature_algorithms_mask")
  let validationTime ← requireUint (← Value.getItem entries "validation_time") "validation_time"
    0x7FFFFFFFFFFFFFFF
  failIf (validationTime = 0) (formatError "validation_time must be positive")
  let proofHex ← requireHex L (← Value.getItem entries "proof") "proof" none
  let proof ← fromHex proofHex
  failIf (proof.length > 64 * 1024) (formatError "proof exceeds the 64 KiB consensus limit")
  return {
    domain := domain
    txid := txid
    inputIndex := inputIndex
    connectionWorkTarget := target
    rootCertificatesVersion := rootsVersion
    signatureAlgorithmsMask := signatureMask
    validationTime := validationTime
    proof := proof }

/-- What `from_dict` does with the fields it has decoded. -/
def finishDict (f : Fields) : Except PyErr ConnectionProof := do
  let result ← construct L f.raw
  let _ ← claimChallenge L result.txid result.inputIndex
  result.checkSerializedProof
  return result

theorem fromDict_eq (value : Value) : fromDict L value = decodeFields L value >>= finishDict L := by
  unfold fromDict decodeFields finishDict
  simp only [bind_assoc, pure_bind]
  rfl

/-- The accepted hexadecimal proofs. -/
theorem requireHex_none_eq_ok_iff (value : Value) (name : String) (s : Str) :
    requireHex L value name none = .ok s ↔
      value = .str s ∧ ∃ b : Bytes, s = toHex b ∧ b ≠ [] := by
  rw [requireHex_eq_ok_iff]
  simp only [Option.not_mem_none, false_implies, implies_true, and_true]

/-- The dictionaries that pass the checks before the constructor are the ones
    of admitted fields whose proof is not empty. -/
theorem decodeFields_eq_ok_iff (value : Value) (f : Fields) :
    decodeFields L value = .ok f ↔
      (Admitted f ∧ f.proof ≠ []) ∧
        ∃ entries, value = .dict entries ∧ SameDict entries f.entries := by
  -- The three tests that are not of a field: the dictionary, its keys and its format.
  have hkeysOf : ∀ key, key ∈ f.entries.map Prod.fst ↔ key ∈ expectedKeys := fun key => Iff.rfl
  have hdict : ∀ entries, requireDict value = .ok entries ↔ value = .dict entries := by
    intro entries
    cases value with
    | dict d => simp only [requireDict, Except.ok.injEq, Value.dict.injEq]
    | none | bool b | int n | str s | bytes b | list xs => simp only [requireDict, reduceCtorEq]
  have hformat : ∀ v, isFormat v = true ↔ v = .str format := by
    intro v
    cases v with
    | str s => simp only [isFormat, beq_iff_eq, Value.str.injEq]
    | none | bool b | int n | bytes b | list xs | dict d =>
        simp only [isFormat, Bool.false_eq_true, reduceCtorEq]
  unfold decodeFields
  simp only [bind_eq_ok_iff, failIf_eq_ok_iff, exists_const, pure_eq_ok_iff, hdict,
    requireExactKeys_eq_ok_iff, getItem_eq_ok_iff, hformat, not_not, requireVersion_eq_ok_iff,
    requireDomain_eq_ok_iff, requireHex_32_eq_ok_iff, requireHex_none_eq_ok_iff,
    requireUint_eq_ok_iff, validateSignatureAlgorithmsMask_eq_ok_iff, not_lt, gt_iff_lt]
  constructor
  -- What every step of the decoder read.
  · rintro ⟨entries, rfl, hkeys, _, hfmt, rfl, _, hversion, version, ⟨rfl, rfl⟩, _, hdomain, domain,
      ⟨rfl, hd⟩, _, htxid, txid, ⟨rfl, ht⟩, _, htarget, target, ⟨rfl, hw⟩, _, hindex, inputIndex,
      ⟨rfl, hi⟩, _, hroots, roots, ⟨rfl, hr⟩, hr0, _, hmask, mask, ⟨rfl, hm⟩, _, htime, time,
      ⟨rfl, htm⟩, htm0, _, hproof, proofHex, ⟨rfl, b, rfl, hne⟩, proof, hread, hlen, rfl⟩
    rw [fromHex_toHex, Except.ok.injEq] at hread
    subst hread
    refine ⟨⟨⟨rfl, hd, ht, hw, hi, ⟨?_, hr.2⟩, hm, ⟨?_, htm.2⟩, hlen⟩, hne⟩, entries, rfl,
      sameDict_of_expected hkeys hkeysOf ?_⟩
    · change 1 ≤ roots
      omega
    · change 1 ≤ time
      omega
    · -- Each expected key was looked up.
      simp only [expectedKeys, List.map_cons, List.map_nil, List.forall_mem_cons, List.not_mem_nil,
        false_implies, implies_true, and_true]
      exact ⟨hfmt, hversion, hdomain, htxid, hindex, htarget, hroots, hmask, htime, hproof⟩
  -- Each lookup finds the value of the field, which passes its check.
  · rintro ⟨⟨h, hne⟩, entries, rfl, hsame⟩
    have hroots := h.rootCertificatesVersion
    have htime := h.validationTime
    have hversion := h.version
    refine ⟨entries, rfl, hsame.keys, _, hsame _, rfl, _, hsame _, f.version, ⟨rfl, hversion⟩,
      _, hsame _, f.domain, ⟨rfl, h.domain⟩, _, hsame _, f.txid, ⟨rfl, h.txid⟩,
      _, hsame _, f.connectionWorkTarget, ⟨rfl, h.connectionWorkTarget⟩,
      _, hsame _, f.inputIndex, ⟨rfl, h.inputIndex⟩,
      _, hsame _, f.rootCertificatesVersion, ⟨rfl, by omega, hroots.2⟩, by omega,
      _, hsame _, f.signatureAlgorithmsMask, ⟨rfl, h.signatureAlgorithmsMask⟩,
      _, hsame _, f.validationTime, ⟨rfl, by omega, htime.2⟩, by omega,
      _, hsame _, toHex f.proof, ⟨rfl, f.proof, rfl, hne⟩, f.proof, fromHex_toHex f.proof, h.proof,
      ?_⟩
    rw [← hversion]

theorem Fields.raw_inj {f g : Fields} (h : f.raw = g.raw) : f = g := by
  rcases f with ⟨_, _, _, _, _, _, _, _, _⟩
  rcases g with ⟨_, _, _, _, _, _, _, _, _⟩
  simp only [Fields.raw, RawFields.mk.injEq, Value.str.injEq, Value.int.injEq, Value.bytes.injEq]
    at h
  rcases h with ⟨rfl, rfl, rfl, rfl, rfl, rfl, rfl, rfl, rfl⟩
  rfl

/-- Fields are determined by their dictionary. -/
theorem SameDict.fields_eq {f g : Fields} (h : SameDict f.entries g.entries) : f = g := by
  rcases f with ⟨_, _, _, _, _, _, _, proof, _⟩
  rcases g with ⟨_, _, _, _, _, _, _, proof', _⟩
  -- Both sides hold the same under each key, from which a field is read back.
  have hvalues : ∀ key : String,
      lookup (Fields.entries _) (Str.ofString key) = lookup (Fields.entries _) (Str.ofString key) :=
    fun key => h (Str.ofString key)
  rcases Value.int.inj (Option.some.inj (hvalues "version"))
  rcases Value.str.inj (Option.some.inj (hvalues "domain"))
  rcases Value.str.inj (Option.some.inj (hvalues "txid"))
  rcases Value.int.inj (Option.some.inj (hvalues "input_index"))
  rcases Value.str.inj (Option.some.inj (hvalues "connection_work_target"))
  rcases Value.int.inj (Option.some.inj (hvalues "root_certificates_version"))
  rcases Value.int.inj (Option.some.inj (hvalues "signature_algorithms_mask"))
  rcases Value.int.inj (Option.some.inj (hvalues "validation_time"))
  rcases toHex_inj proof proof' (Value.str.inj (Option.some.inj (hvalues "proof")))
  rfl

/-- Decoded fields make an envelope, which has a challenge. Only the version
    byte can still be refused. -/
theorem finishDict_eq_ok_iff (f : Fields) (e : ConnectionProof) :
    finishDict L f = .ok e ↔ e.toFields = f ∧ e.proof.head? = some 2 := by
  unfold finishDict
  simp only [bind_eq_ok_iff, construct_eq_ok_iff, checkSerializedProof_eq_ok_iff, exists_const,
    pure_eq_ok_iff]
  constructor
  · rintro ⟨result, hraw, _, -, hhead, rfl⟩
    exact ⟨(Fields.raw_inj hraw).symm, hhead⟩
  · rintro ⟨rfl, hhead⟩
    rcases e.challenge_eq_ok L with ⟨c, hc, -⟩
    exact ⟨e, rfl, c, hc, hhead, rfl⟩

/-- An envelope is read from its own dictionary, in any order, and from
    nothing else. -/
theorem fromDict_eq_ok_iff (value : Value) (e : ConnectionProof) :
    fromDict L value = .ok e ↔
      e.proof.head? = some 2 ∧ ∃ entries, value = .dict entries ∧ SameDict entries e.entries := by
  rw [fromDict_eq]
  simp only [bind_eq_ok_iff, decodeFields_eq_ok_iff, finishDict_eq_ok_iff]
  constructor
  · rintro ⟨f, ⟨-, entries, hvalue, hsame⟩, rfl, hhead⟩
    exact ⟨hhead, entries, hvalue, hsame⟩
  · rintro ⟨hhead, entries, hvalue, hsame⟩
    refine ⟨e.toFields, ⟨⟨e.admitted, ?_⟩, entries, hvalue, hsame⟩, rfl, hhead⟩
    intro hnil
    rw [hnil] at hhead
    exact nomatch hhead

/-- An envelope is read back from its dictionary. -/
theorem fromDict_entries (e : ConnectionProof) (h : e.proof.head? = some 2) :
    fromDict L (.dict e.entries) = .ok e :=
  (fromDict_eq_ok_iff L _ e).mpr ⟨h, e.entries, rfl, fun _ => rfl⟩

end Decode

/-! ### Refused dictionaries -/

section Refused

variable (L : Lowercase)

theorem fails_refusal (p : Prop) [Decidable p] (msg : String) :
    Fails (fun e => e.cls = .proofFormatError) (failIf p (formatError msg)) :=
  fails_failIf p rfl

theorem fails_requireVersion (value : Value) :
    Fails (fun e => e.cls = .proofFormatError) (requireVersion value) := by
  cases value with
  | int n =>
      rw [requireVersion]
      by_cases h : n = envelopeVersion
      · rw [if_pos h]
        exact fails_ok n
      · rw [if_neg h]
        exact fails_error rfl
  | none | bool b | str s | bytes b | list xs | dict d => exact fails_error rfl

theorem fails_requireDomain (value : Value) :
    Fails (fun e => e.cls = .proofFormatError) (requireDomain value) := by
  cases value with
  | str s =>
      rw [requireDomain]
      by_cases h : isCanonicalDomain s = true
      · rw [if_pos h]
        exact fails_ok s
      · rw [if_neg h]
        exact fails_error rfl
  | none | bool b | int n | bytes b | list xs | dict d => exact fails_error rfl

theorem fails_requireUint (value : Value) (name : String) (maximum : Nat) :
    Fails (fun e => e.cls = .proofFormatError) (requireUint value name maximum) := by
  cases value with
  | int n =>
      rw [requireUint]
      by_cases h : 0 ≤ n ∧ n ≤ maximum
      · rw [if_pos h]
        exact fails_ok n
      · rw [if_neg h]
        exact fails_error rfl
  | none | bool b | str s | bytes b | list xs | dict d => exact fails_error rfl

theorem fails_requireStr (value : Value) {e : PyErr} (he : e.cls = .proofFormatError) :
    Fails (fun e => e.cls = .proofFormatError) (requireStr value e) := by
  cases value with
  | str s => exact fails_ok s
  | none | bool b | int n | bytes b | list xs | dict d => exact fails_error he

/-- The digits have been checked before they are read. -/
theorem fails_requireHex (value : Value) (name : String) (exactSize : Option Nat) :
    Fails (fun e => e.cls = .proofFormatError) (requireHex L value name exactSize) := by
  unfold requireHex
  refine (fails_requireStr value rfl).bind fun s _ => (fails_refusal _ _).bind fun _ _ =>
    (fails_refusal _ _).bind fun _ heven => (fails_refusal _ _).bind fun _ hdigits =>
    Fails.bind ?_ fun b _ => (fails_refusal _ _).bind fun _ _ => fails_ok s
  simp only [failIf_eq_ok_iff, ne_eq, not_not] at heven
  simp only [failIf_eq_ok_iff, List.any_eq_true, not_exists, not_and, Bool.not_eq_true,
    Bool.not_eq_false'] at hdigits
  rcases toHex_fromHex (s.length / 2) s (by omega) hdigits with ⟨b, hb, -, -⟩
  rw [hb]
  exact fails_ok b

/-- A key that has been checked for is found. -/
theorem fails_getItem_of_keys {P : PyErr → Prop} {entries : List (Str × Value)} {key : String}
    (hkeys : ∀ key, key ∈ entries.map Prod.fst ↔ key ∈ expectedKeys)
    (hkey : Str.ofString key ∈ expectedKeys) : Fails P (Value.getItem entries key) := by
  rcases (mem_keys_iff _ _).mp ((hkeys _).mpr hkey) with ⟨value, hvalue⟩
  rw [(getItem_eq_ok_iff entries key value).mpr hvalue]
  exact fails_ok value

theorem fails_decodeFields (value : Value) :
    Fails (fun e => e.cls = .proofFormatError) (decodeFields L value) := by
  have hdict : Fails (fun e => e.cls = .proofFormatError) (requireDict value) := by
    cases value with
    | dict d => exact fails_ok d
    | none | bool b | int n | str s | bytes b | list xs => exact fails_error rfl
  refine hdict.bind fun entries _ => Fails.bind ?_ fun _ hexact => ?_
  · exact (fails_refusal _ _).bind fun _ _ => fails_refusal _ _
  have hkeys := (requireExactKeys_eq_ok_iff entries _).mp hexact
  have hget : ∀ key : String, Str.ofString key ∈ expectedKeys →
      Fails (fun e => e.cls = .proofFormatError) (Value.getItem entries key) :=
    fun key hkey => fails_getItem_of_keys hkeys hkey
  refine (hget "format" (by decide)).bind fun _ _ => (fails_refusal _ _).bind fun _ _ =>
    (hget "version" (by decide)).bind fun _ _ => (fails_requireVersion _).bind fun _ _ =>
    (hget "domain" (by decide)).bind fun _ _ => (fails_requireDomain _).bind fun _ _ =>
    (hget "txid" (by decide)).bind fun _ _ => (fails_requireHex L _ _ _).bind fun _ _ =>
    (hget "connection_work_target" (by decide)).bind fun _ _ =>
    (fails_requireHex L _ _ _).bind fun _ _ =>
    (hget "input_index" (by decide)).bind fun _ _ => (fails_requireUint _ _ _).bind fun _ _ =>
    (hget "root_certificates_version" (by decide)).bind fun _ _ =>
    (fails_requireUint _ _ _).bind fun _ _ => (fails_refusal _ _).bind fun _ _ =>
    (hget "signature_algorithms_mask" (by decide)).bind fun _ _ =>
    (fails_validateSignatureAlgorithmsMask _).bind fun _ _ =>
    (hget "validation_time" (by decide)).bind fun _ _ =>
    (fails_requireUint _ _ _).bind fun _ _ => (fails_refusal _ _).bind fun _ _ =>
    (hget "proof" (by decide)).bind fun _ _ => (fails_requireHex L _ _ _).bind fun proofHex hhex =>
    Fails.bind ?_ fun _ _ => (fails_refusal _ _).bind fun _ _ => fails_ok _
  -- The proof's digits were checked, so they are read.
  rcases (requireHex_none_eq_ok_iff L _ _ _).mp hhex with ⟨-, b, rfl, -⟩
  rw [fromHex_toHex]
  exact fails_ok b

/-- Decoded fields always make an envelope with a challenge. -/
theorem finish_of_decoded {value : Value} {f : Fields} (h : decodeFields L value = .ok f) :
    ∃ e, construct L f.raw = .ok e ∧ e.toFields = f ∧
      ∃ c, claimChallenge L e.txid e.inputIndex = .ok c := by
  rcases ((decodeFields_eq_ok_iff L value f).mp h).1 with ⟨hadmitted, -⟩
  rcases ConnectionProof.challenge_eq_ok L ⟨f, hadmitted⟩ with ⟨c, hc, -⟩
  exact ⟨⟨f, hadmitted⟩, (construct_eq_ok_iff L _ _).mpr rfl, rfl, c, hc⟩

/-- Whatever is read, it is an envelope or a `ProofFormatError`. -/
theorem fails_fromDict (value : Value) :
    Fails (fun e => e.cls = .proofFormatError) (fromDict L value) := by
  rw [fromDict_eq]
  refine (fails_decodeFields L value).bind fun f hf => ?_
  rcases finish_of_decoded L hf with ⟨e, he, -, c, hc⟩
  unfold finishDict
  rw [he]
  refine (fails_ok e).bind fun e' he' => ?_
  rw [← Except.ok.inj he', hc]
  refine (fails_ok c).bind fun _ _ => Fails.bind ?_ fun _ _ => fails_ok e
  exact fails_refusal _ _

end Refused

end P2CTools
