import P2CTools.Source.Read
import P2CTools.Source.Write
import P2CTools.Theory.Commitment
import P2CTools.Theory.Dictionary

/-!
# Writing and Reading Envelopes

What is written is read back, and what is read is written again.

Between the two stands a file. The encoder escapes everything that is not
printable ASCII, so the text of an envelope has neither a code point that UTF-8
encodes in several bytes nor a carriage return that the reader would take for a
line end. The bytes therefore come back as the text they were made from, and
what is left is `json.loads`, of which it is assumed that it reads the
dictionary that `json.dumps` wrote.

## Main definitions

* `PlainText`: Text that a file keeps as it is.
* `LoadsBack`: `json.loads` inverts `json.dumps` on a dictionary.

## Theorems

* `read_plain`: Plain text goes through a file.
* `plain_serialized`: The text of an envelope is plain.
* `envelope_round_trip`: Reading and writing are inverse.
-/

namespace P2CTools

open Wire

/-! ### Plain text -/

/-- ASCII text without a carriage return. -/
def PlainText (s : Str) : Prop :=
  ∀ c ∈ s, c.val < 128 ∧ c.val ≠ 13

instance (s : Str) : Decidable (PlainText s) :=
  List.decidableBAll (fun c : CodePoint => c.val < 128 ∧ c.val ≠ 13) s

theorem PlainText.append {s t : Str} (hs : PlainText s) (ht : PlainText t) :
    PlainText (s ++ t) := by
  intro c hc
  rcases List.mem_append.mp hc with hc | hc
  · exact hs c hc
  · exact ht c hc

theorem plain_flatMap {α : Type} {f : α → Str} {xs : List α} (h : ∀ x ∈ xs, PlainText (f x)) :
    PlainText (xs.flatMap f) := by
  intro c hc
  rcases List.mem_flatMap.mp hc with ⟨x, hx, hcx⟩
  exact h x hx c hcx

theorem plain_intercalate {sep : Str} {lines : List Str} (hsep : PlainText sep)
    (h : ∀ line ∈ lines, PlainText line) : PlainText (sep.intercalate lines) := by
  induction lines with
  | nil => exact fun c hc => absurd hc List.not_mem_nil
  | cons line lines ih =>
      have hline := h line List.mem_cons_self
      have hrest := ih fun l hl => h l (List.mem_cons_of_mem line hl)
      cases lines with
      | nil =>
          rw [List.intercalate_singleton]
          exact hline
      | cons next lines =>
          rw [List.intercalate_cons_cons]
          exact (hline.append hsep).append hrest

/-- Plain text is one byte for each code point. -/
theorem encodeUtf8_plain {s : Str} (h : PlainText s) :
    encodeUtf8 s = .ok (s.map fun c => UInt8.ofNat c.val) := by
  -- Surrogates are far above the ASCII range.
  have hsurrogate : ¬(s.any isSurrogate = true) := by
    rw [List.any_eq_true]
    rintro ⟨c, hc, hbad⟩
    have hlt := (h c hc).1
    have hrange := of_decide_eq_true hbad
    omega
  rw [encodeUtf8, if_neg hsurrogate]
  refine congrArg Except.ok ?_
  induction s with
  | nil => rfl
  | cons c s ih =>
      have hc : utf8Char c = [UInt8.ofNat c.val] := by
        rw [utf8Char, if_pos (h c List.mem_cons_self).1]
      have hrest : PlainText s := fun d hd => h d (List.mem_cons_of_mem c hd)
      rw [List.flatMap_cons, hc, List.map_cons, List.singleton_append, ih hrest]
      intro hany
      exact hsurrogate (by rw [List.any_cons, hany, Bool.or_true])

theorem decodeUtf8_ascii {a : UInt8} (h : a.toNat < 0x80) (rest : Bytes) :
    decodeUtf8 (a :: rest) = do
      let tail ← decodeUtf8 rest
      return codePoint a.toNat :: tail := by
  rw [decodeUtf8.eq_def]
  exact if_pos h

theorem decodeUtf8_plain {s : Str} (h : PlainText s) :
    decodeUtf8 (s.map fun c => UInt8.ofNat c.val) = .ok s := by
  induction s with
  | nil => rfl
  | cons c s ih =>
      have hlt := (h c List.mem_cons_self).1
      have hrest : PlainText s := fun d hd => h d (List.mem_cons_of_mem c hd)
      -- The code point fits a byte, and comes back from it.
      have hval : (UInt8.ofNat c.val).toNat = c.val := by
        rw [UInt8.toNat_ofNat']
        omega
      have hpoint : codePoint c.val = c := by
        refine Fin.ext ?_
        rw [codePoint, Fin.val_ofNat]
        omega
      rw [List.map_cons, decodeUtf8_ascii (by rw [hval]; exact hlt), ih hrest, hval, hpoint]
      rfl

/-- Without carriage returns there is no line end to change. -/
theorem universalNewlines_plain {s : Str} (h : PlainText s) : universalNewlines s = s := by
  unfold universalNewlines
  induction s with
  | nil => rfl
  | cons c s ih =>
      have hreturn := (h c List.mem_cons_self).2
      have hrest : PlainText s := fun d hd => h d (List.mem_cons_of_mem c hd)
      rw [newlinesFrom, if_neg hreturn, if_neg (fun hboth => Bool.false_ne_true hboth.2),
        ih hrest]

/-! ### The encoder's text -/

theorem plain_digit (n : Nat) : PlainText [hexDigit (n % 16)] := by
  intro c hc
  rw [List.mem_singleton] at hc
  have hrange := (isLowerHex_iff c).mp (by
    rw [hc]
    exact isLowerHex_hexDigit _ (by omega))
  omega

theorem plain_unicodeEscape (n : Nat) : PlainText (unicodeEscape n) := by
  have hmark : PlainText (Str.ofString "\\u") := by decide
  exact hmark.append ((plain_digit _).append ((plain_digit _).append
    ((plain_digit _).append (plain_digit n))))

/-- What the encoder writes for a code point is plain. -/
theorem plain_jsonChar (c : CodePoint) : PlainText (jsonChar c) := by
  unfold jsonChar
  -- The seven characters with an escape of their own.
  split
  · decide
  split
  · decide
  split
  · decide
  split
  · decide
  split
  · decide
  split
  · decide
  split
  · decide
  split
  · -- A printable character stands for itself.
    next hprintable =>
      intro d hd
      rw [List.mem_singleton] at hd
      subst hd
      omega
  split
  -- Anything else is written in hexadecimal, above the basic plane as two surrogates.
  · exact plain_unicodeEscape _
  · exact (plain_unicodeEscape _).append (plain_unicodeEscape _)

theorem plain_jsonString (s : Str) : PlainText (jsonString s) := by
  have hquote : PlainText (Str.ofString "\"") := by decide
  exact (hquote.append (plain_flatMap fun c _ => plain_jsonChar c)).append hquote

/-- Decimal digits and a sign are plain. -/
theorem plain_int (n : Int) : PlainText (Str.ofString (toString n)) := by
  -- A sign, and then decimal digits.
  have hchars : ∀ c ∈ (toString n).toList, c.isDigit = true ∨ c = '-' := by
    intro c hc
    cases n with
    | ofNat m =>
        have hm : c ∈ Nat.toDigits 10 m := by
          rw [← Nat.toList_repr]
          exact hc
        exact Or.inl (Nat.isDigit_of_mem_toDigits (by decide) (by decide) hm)
    | negSucc m =>
        have hm : c ∈ '-' :: Nat.toDigits 10 (m + 1) := by
          rw [← Nat.toList_repr, ← List.singleton_append]
          have hrepr : (toString (Int.negSucc m)).toList = ['-'] ++ (m + 1).repr.toList := by
            change ("-" ++ (m + 1).repr).toList = _
            rw [String.toList_append]
            rfl
          rw [← hrepr]
          exact hc
        rcases List.mem_cons.mp hm with hm | hm
        · exact Or.inr hm
        · exact Or.inl (Nat.isDigit_of_mem_toDigits (by decide) (by decide) hm)
  intro c hc
  rcases List.mem_map.mp hc with ⟨d, hd, rfl⟩
  have hrange : d.toNat < 58 ∧ 45 ≤ d.toNat := by
    rcases hchars d hd with h | rfl
    · rw [Char.isDigit, Bool.and_eq_true, decide_eq_true_eq, decide_eq_true_eq] at h
      change 48 ≤ d.toNat ∧ d.toNat ≤ 57 at h
      omega
    · decide
  rw [Fin.val_ofNat]
  omega

theorem plain_jsonScalar {value : Value} {text : Str} (h : jsonScalar value = .ok text) :
    PlainText text := by
  cases value with
  | str s =>
      rw [← Except.ok.inj h]
      exact plain_jsonString s
  | int n =>
      rw [← Except.ok.inj h]
      exact plain_int n
  | bool b =>
      cases b with
      | true =>
          rw [← Except.ok.inj h]
          decide
      | false =>
          rw [← Except.ok.inj h]
          decide
  | none =>
      rw [← Except.ok.inj h]
      decide
  | bytes b => exact nomatch h
  | list xs => exact nomatch h
  | dict d => exact nomatch h

/-- What a mapping over a list collects has been computed from its members. -/
theorem mapM_eq_ok_mem {α β : Type} {f : α → Except PyErr β} {xs : List α} {ys : List β}
    (h : xs.mapM f = .ok ys) : ∀ y ∈ ys, ∃ x ∈ xs, f x = .ok y := by
  induction xs generalizing ys with
  | nil =>
      rw [List.mapM_nil, pure_eq_ok_iff] at h
      rw [← h]
      exact fun y hy => absurd hy List.not_mem_nil
  | cons x xs ih =>
      simp only [List.mapM_cons, bind_eq_ok_iff, pure_eq_ok_iff] at h
      rcases h with ⟨y, hy, rest, hrest, rfl⟩
      intro z hz
      -- It is the first result, or one of the rest.
      rcases List.mem_cons.mp hz with rfl | hz
      · exact ⟨x, List.mem_cons_self, hy⟩
      · rcases ih hrest z hz with ⟨w, hw, hfw⟩
        exact ⟨w, List.mem_cons_of_mem x hw, hfw⟩

/-- The text of a dictionary is plain. -/
theorem plain_dumps {entries : List (Str × Value)} {text : Str} (h : dumps entries = .ok text) :
    PlainText text := by
  simp only [dumps, bind_eq_ok_iff] at h
  rcases h with ⟨lines, hlines, h⟩
  -- Each line is an indent, a key and a scalar.
  have hplain : ∀ line ∈ lines, PlainText line := by
    intro line hline
    rcases mapM_eq_ok_mem hlines line hline with ⟨entry, -, hentry⟩
    simp only [bind_eq_ok_iff, pure_eq_ok_iff] at hentry
    rcases hentry with ⟨value, hvalue, rfl⟩
    have hindent : PlainText (Str.ofString "  ") := by decide
    have hcolon : PlainText (Str.ofString ": ") := by decide
    exact ((hindent.append (plain_jsonString _)).append hcolon).append (plain_jsonScalar hvalue)
  by_cases hnil : entries = []
  · rw [if_pos hnil] at h
    rw [← Except.ok.inj h]
    decide
  · rw [if_neg hnil] at h
    rw [← Except.ok.inj h]
    have hopen : PlainText (Str.ofString "\x7b\n") := by decide
    have hcomma : PlainText (Str.ofString ",\n") := by decide
    have hclose : PlainText (Str.ofString "\n\x7d") := by decide
    exact (hopen.append (plain_intercalate hcomma hplain)).append hclose

/-! ### The file of an envelope -/

theorem exists_mapM {α β : Type} {f : α → Except PyErr β} {xs : List α}
    (h : ∀ x ∈ xs, ∃ y, f x = .ok y) : ∃ ys, xs.mapM f = .ok ys := by
  induction xs with
  | nil => exact ⟨[], rfl⟩
  | cons x xs ih =>
      rcases h x List.mem_cons_self with ⟨y, hy⟩
      rcases ih fun z hz => h z (List.mem_cons_of_mem x hz) with ⟨ys, hys⟩
      exact ⟨y :: ys, by rw [List.mapM_cons, hy, hys]; rfl⟩

/-- A dictionary of ASCII strings and integers. -/
def FlatAscii (entries : List (Str × Value)) : Prop :=
  ∀ entry ∈ entries, (∀ c ∈ entry.1, c.val < 128) ∧
    ((∃ n, entry.2 = .int n) ∨ ∃ s, entry.2 = .str s ∧ ∀ c ∈ s, c.val < 128)

/-- `json.loads` inverts `json.dumps` on a dictionary, if that is one of ASCII
    strings and integers. The text is followed by a newline, as in a file. -/
def LoadsBack (loads : Str → Except PyErr Value) (entries : List (Str × Value)) : Prop :=
  FlatAscii entries → ∀ text, dumps entries = .ok text →
    ∃ d, loads (text ++ Str.ofString "\n") = .ok (.dict d) ∧ SameDict d entries

theorem ascii_toHex (b : Bytes) : ∀ c ∈ toHex b, c.val < 128 := by
  intro c hc
  have hrange := (isLowerHex_iff c).mp (isLowerHex_toHex b c hc)
  omega

/-- An envelope's dictionary is one of ASCII strings and integers. -/
theorem flatAscii_entries (e : ConnectionProof) : FlatAscii e.entries := by
  have hdomain : ∀ c ∈ e.domain, c.val < 128 := by
    rcases ((isCanonicalDomain_iff _).mp e.admitted.domain).encode with ⟨b, hb, -⟩
    rcases (encodeAscii_eq_ok_iff _ _).mp hb with ⟨hascii, hd⟩
    rw [hd]
    intro c hc
    rcases List.mem_map.mp hc with ⟨x, hx, rfl⟩
    rw [decodeAscii_val]
    exact hascii x hx
  have htxid : ∀ c ∈ e.txid, c.val < 128 := by
    rcases e.admitted.txid with ⟨b, -, hb⟩
    rw [hb]
    exact ascii_toHex b
  have htarget : ∀ c ∈ e.connectionWorkTarget, c.val < 128 := by
    rcases e.admitted.connectionWorkTarget with ⟨b, -, hb⟩
    rw [hb]
    exact ascii_toHex b
  have hformat : ∀ c ∈ format, c.val < 128 := fun c hc =>
    ((by decide : PlainText format) c hc).1
  -- The keys are literals.
  have hkeys : ∀ key ∈ expectedKeys, ∀ c ∈ key, c.val < 128 := fun key hkey c hc =>
    ((by decide : ∀ key ∈ expectedKeys, PlainText key) key hkey c hc).1
  intro entry hentry
  refine ⟨hkeys _ (List.mem_map_of_mem hentry : entry.1 ∈ e.entries.map Prod.fst), ?_⟩
  simp only [ConnectionProof.entries, Fields.entries, List.mem_cons, List.not_mem_nil, or_false] at hentry
  rcases hentry with rfl | rfl | rfl | rfl | rfl | rfl | rfl | rfl | rfl | rfl
  · exact Or.inr ⟨_, rfl, hformat⟩
  · exact Or.inl ⟨_, rfl⟩
  · exact Or.inr ⟨_, rfl, hdomain⟩
  · exact Or.inr ⟨_, rfl, htxid⟩
  · exact Or.inl ⟨_, rfl⟩
  · exact Or.inr ⟨_, rfl, htarget⟩
  · exact Or.inl ⟨_, rfl⟩
  · exact Or.inl ⟨_, rfl⟩
  · exact Or.inl ⟨_, rfl⟩
  · exact Or.inr ⟨_, rfl, ascii_toHex _⟩

/-- The encoder writes every such dictionary. -/
theorem exists_dumps {entries : List (Str × Value)} (h : FlatAscii entries) :
    ∃ text, dumps entries = .ok text := by
  have hlines : ∃ lines, (entries.insertionSort fun a b => a.1 ≤ b.1).mapM (fun entry => do
      let text ← jsonScalar entry.2
      return Str.ofString "  " ++ jsonString entry.1 ++ Str.ofString ": " ++ text) =
        (.ok lines : Except PyErr (List Str)) := by
    -- Sorting keeps the entries, and each of them is a scalar.
    refine exists_mapM fun entry hentry => ?_
    rcases (h entry ((List.mem_insertionSort _).mp hentry)).2 with ⟨n, hn⟩ | ⟨s, hs, -⟩
    · exact ⟨_, by rw [hn]; rfl⟩
    · exact ⟨_, by rw [hs]; rfl⟩
  rcases hlines with ⟨lines, hlines⟩
  unfold dumps
  simp only [hlines]
  by_cases hnil : entries = []
  · exact ⟨_, if_pos hnil⟩
  · exact ⟨_, if_neg hnil⟩

variable (L : Lowercase) {loads : Str → Except PyErr Value}

/-- A plain text in a file is what `json.loads` gets. -/
theorem read_plain {text : Str} (h : PlainText text) :
    ConnectionProof.read L loads (encodeUtf8 text) = (do
      let value ← handle [.osError, .unicodeError, .jsonDecodeError]
        (fun e => .error (formatError ("cannot read connection proof: " ++ e.msg))) (loads text)
      fromDict L value) := by
  unfold ConnectionProof.read
  rw [encodeUtf8_plain h]
  have hload : (do
      let encoded ← (.ok (text.map fun c => UInt8.ofNat c.val) : Except PyErr Bytes)
      let text ← decodeUtf8 encoded
      loads (universalNewlines text)) = loads text := by
    change (decodeUtf8 (text.map fun c => UInt8.ofNat c.val) >>= fun text =>
      loads (universalNewlines text)) = loads text
    rw [decodeUtf8_plain h]
    change loads (universalNewlines text) = loads text
    rw [universalNewlines_plain h]
  rw [hload]

/-- The text of an envelope that has a dictionary. -/
theorem serialized_eq_ok {e : ConnectionProof} (h : e.proof.head? = some 2) {text : Str}
    (htext : dumps e.entries = .ok text) : e.serialized = .ok (text ++ Str.ofString "\n") := by
  unfold ConnectionProof.serialized
  simp only [bind_eq_ok_iff, pure_eq_ok_iff]
  exact ⟨e.entries, (toDict_eq_ok_iff e _).mpr ⟨h, rfl⟩, text, htext, rfl⟩

/-- The complete file of an envelope is read back as the envelope. -/
theorem read_fileBytes {e : ConnectionProof} (hloads : LoadsBack loads e.entries)
    (h : e.proof.head? = some 2) :
    ∃ file, e.fileBytes = .ok file ∧ ConnectionProof.read L loads (.ok file) = .ok e := by
  rcases exists_dumps (flatAscii_entries e) with ⟨text, htext⟩
  rcases hloads (flatAscii_entries e) text htext with ⟨d, hd, hsame⟩
  have hnewline : PlainText (Str.ofString "\n") := by decide
  have hplain := (plain_dumps htext).append hnewline
  refine ⟨(text ++ Str.ofString "\n").map fun c => UInt8.ofNat c.val, ?_, ?_⟩
  · unfold ConnectionProof.fileBytes
    rw [serialized_eq_ok h htext]
    exact encodeUtf8_plain hplain
  · rw [← encodeUtf8_plain hplain, read_plain L hplain, hd]
    exact (fromDict_eq_ok_iff L _ e).mpr ⟨h, d, rfl, hsame⟩

/-- Encoding and decoding are inverse: an envelope has a dictionary exactly
    when its proof begins with its version, and is then read back from it; what
    is read from a dictionary has that dictionary; a written file is read back;
    and a proof that parses can always be written. -/
theorem envelope_round_trip (L : Lowercase) (loads : Str → Except PyErr Value)
    (e : ConnectionProof) (hloads : LoadsBack loads e.entries) :
    ((∃ entries, e.toDict = .ok entries) ↔ e.proof.head? = some 2) ∧
    (∀ entries, e.toDict = .ok entries → fromDict L (.dict entries) = .ok e) ∧
    (∀ v, fromDict L v = .ok e →
      ∃ entries d, v = .dict entries ∧ e.toDict = .ok d ∧ SameDict d entries) ∧
    (e.proof.head? = some 2 →
      ∃ file, e.fileBytes = .ok file ∧ ConnectionProof.read L loads (.ok file) = .ok e) ∧
    ∀ c p, e.challenge L = .ok c → Protocol.parseProof e.proof e.domain c = .ok p →
      ∃ entries, e.toDict = .ok entries := by
  have hserializable : (∃ entries, e.toDict = .ok entries) ↔ e.proof.head? = some 2 := by
    simp only [toDict_eq_ok_iff]
    exact ⟨fun ⟨_, hhead, _⟩ => hhead, fun hhead => ⟨e.entries, hhead, rfl⟩⟩
  refine ⟨hserializable, fun entries h => ?_, fun v h => ?_, read_fileBytes L hloads,
    fun c p _ hp => ?_⟩
  · rcases (toDict_eq_ok_iff e entries).mp h with ⟨hhead, rfl⟩
    exact fromDict_entries L e hhead
  · rcases (fromDict_eq_ok_iff L v e).mp h with ⟨hhead, entries, rfl, hsame⟩
    exact ⟨entries, e.entries, rfl, (toDict_eq_ok_iff e _).mpr ⟨hhead, rfl⟩,
      fun key => (hsame key).symm⟩
  · exact hserializable.mpr (head_of_parseProof hp)

/-- A `json.loads` that knows the text of one envelope, and gives its keys in
    the order of the text. -/
def vectorLoads (text : Str) : Except PyErr Value :=
  if (vectorEnvelope 0xff).serialized = .ok text then
    .ok (.dict ((vectorEnvelope 0xff).entries.insertionSort fun a b => a.1 ≤ b.1))
  else .error ⟨.jsonDecodeError, "Expecting value: line 1 column 1 (char 0)"⟩

/-- The envelope of the structural vector goes through its file. -/
theorem vectorEnvelope_round_trip :
    ∃ file, (vectorEnvelope 0xff).fileBytes = .ok file ∧
      ConnectionProof.read Lowercase.ascii vectorLoads (.ok file) = .ok (vectorEnvelope 0xff) := by
  have hhead : (vectorEnvelope 0xff).proof.head? = some 2 := by decide +kernel
  have hnodup : ((vectorEnvelope 0xff).entries.map Prod.fst).Nodup := by
    have hkeys : expectedKeys.Nodup := by decide
    exact hkeys
  refine (envelope_round_trip Lowercase.ascii vectorLoads (vectorEnvelope 0xff) ?_).2.2.2.1 hhead
  intro _ text htext
  refine ⟨_, if_pos (serialized_eq_ok hhead htext), ?_⟩
  exact sameDict_of_perm (List.perm_insertionSort _ _) hnodup

end P2CTools
