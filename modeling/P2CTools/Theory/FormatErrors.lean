import P2CTools.Theory.Acceptance
import P2CTools.Wire.Bounds

/-!
# What the Parser Raises

Every failure of the parser is a `ProofFormatError`, and its readers stay
inside their data.

The parser's text contains operations that could end otherwise: an index, a
dictionary lookup, an encoding to ASCII, a hash that asks for four messages,
and three loops. None of them does. The read before an index makes it valid,
the test for the required extensions makes the lookups succeed, the domain was
checked before it is encoded, the work hash always gets its four messages, and
each pass of a loop takes at least one byte.

The loops test for the exact end of their bytes, so they end because a reader
never passes it. `Uses` is what a reader can become: it starts at the front,
and only `read` moves it. Every such reader is in bounds, since a read that
does not fit fails and leaves the position alone.

## Main definitions

* `Uses`: What a reader over some bytes can become.
* `SafeLoop`: A loop that moves on and stays in bounds.

## Theorems

* `fails_parseClientHello`, `fails_parseServerHello`,
  `fails_parseEncryptedExtensions`, `fails_parseCertificate`,
  `fails_parseCertificateVerify`: The five messages.
* `fails_parseCertificateMessage`: A Certificate message on its own.
* `fails_parseProof`: The whole proof.
* `Uses.inBounds`: A reader never passes the end of its bytes.
* `extensionStep_pass`, `keyShareStep_pass`, `certificateStep_pass`: The
  passes of the three loops.
* `parseProof_safe`: All of it.
-/

namespace P2CTools.Protocol

open Wire Reader Grammar

theorem fails_runCursor {α : Type} (data : Bytes) (m : ReaderM α) (h : Raises IsFormatError m) :
    Fails IsFormatError (runCursor data m) :=
  raises_runCursor data m (h [] data)

theorem fails_getItem {P : PyErr → Prop} (d : ExtensionMap) (key : Nat) (h : d.has key = true) :
    Fails P (d.getItem key) := by
  intro e he
  unfold ExtensionMap.getItem at he
  cases hfind : d.find? fun entry => entry.1 == key with
  | none =>
      rw [List.find?_eq_none] at hfind
      rw [ExtensionMap.has, List.any_eq_true] at h
      rcases h with ⟨entry, hentry, hkey⟩
      exact absurd hkey (hfind entry hentry)
  | some entry =>
      rw [hfind] at he
      cases he

theorem fails_validKeyShare (group : Nat) (exchange : Bytes) :
    Fails IsFormatError (validKeyShare group exchange) := by
  rcases validKeyShare_eq_ok group exchange with ⟨valid, hrun, -⟩
  rw [hrun]
  exact fails_ok valid

theorem fails_parseSni (encoded : Bytes) (domain : Str)
    (hdomain : ∃ name, encodeAscii domain = .ok name) :
    Fails IsFormatError (parseSni encoded domain) := by
  rcases hdomain with ⟨name, hname⟩
  refine fails_runCursor _ _ <| raises_u16_bind fun _ => raises_getRemaining_bind fun _ =>
    raises_raiseIf_bind rfl fun _ => raises_u8_bind fun _ => raises_u16_bind fun _ =>
    raises_read_bind fun _ _ => raises_isEmpty_bind fun _ => raises_raiseIf_bind rfl fun _ =>
    raises_call_bind ?_ fun _ _ => raises_raiseIf _ _ rfl
  rw [hname]
  exact fails_ok name

theorem fails_readSupportedVersions (encoded : Bytes) :
    Fails IsFormatError (readSupportedVersions encoded) :=
  fails_runCursor _ _ <| raises_u8_bind fun _ => raises_raiseIf_bind rfl fun _ =>
  raises_read_bind fun _ _ => raises_isEmpty_bind fun _ => raises_raiseIf_bind rfl fun _ =>
  raises_raiseIf _ _ rfl

theorem fails_readSignatureAlgorithms (encoded : Bytes) :
    Fails IsFormatError (readSignatureAlgorithms encoded) :=
  fails_runCursor _ _ <| raises_u16_bind fun _ => raises_raiseIf_bind rfl fun _ =>
  raises_read_bind fun _ _ => raises_isEmpty_bind fun _ => raises_raiseIf_bind rfl fun _ =>
  raises_pure _

theorem raises_keyShareStep (groups : List Nat) : Raises IsFormatError (keyShareStep groups) :=
  raises_u16_bind fun _ => raises_u16_bind fun _ => raises_raiseIf_bind rfl fun _ =>
  raises_read_bind fun _ _ => raises_call_bind (fails_validKeyShare _ _) fun _ _ =>
  raises_raiseIf_bind rfl fun _ => raises_pure _

theorem fails_readKeyShares (encoded : Bytes) : Fails IsFormatError (readKeyShares encoded) :=
  fails_runCursor _ _ <| raises_u16_bind fun _ => raises_raiseIf_bind rfl fun _ =>
  raises_read_bind fun _ _ => raises_isEmpty_bind fun _ => raises_raiseIf_bind rfl fun _ =>
  raises_call _ (fails_readAll parses_keyShareStep ReadsShare.ne_nil raises_keyShareStep _ _)

theorem fails_parseClientHello (body : Bytes) (domain : Str) (challenge : Bytes)
    (hdomain : ∃ name, encodeAscii domain = .ok name) :
    Fails IsFormatError (parseClientHello body domain challenge) := by
  refine fails_runCursor _ _ <| raises_u16_bind fun _ => raises_raiseIf_bind rfl fun _ =>
    raises_read_bind fun _ _ => raises_raiseIf_bind rfl fun _ => raises_u8_bind fun _ =>
    raises_raiseIf_bind rfl fun _ => raises_read_bind fun _ _ => raises_u16_bind fun _ =>
    raises_raiseIf_bind rfl fun _ => raises_read_bind fun _ _ => raises_u8_bind fun _ =>
    raises_read_bind fun _ _ => raises_raiseIf_bind rfl fun _ =>
    raises_extensions_bind fun block => raises_isEmpty_bind fun _ =>
    raises_raiseIf_bind rfl fun _ => raises_raiseIf_bind rfl fun hrequired => ?_
  -- The required extensions are there, so no lookup fails.
  have hhas : ∀ type ∈ requiredExtensions, block.map.has type = true := by
    rw [not_not] at hrequired
    exact List.all_eq_true.mp hrequired
  exact raises_call_bind (fails_getItem _ _ (hhas _ (by decide))) fun _ _ =>
    raises_call_bind (fails_parseSni _ _ hdomain) fun _ _ => raises_raiseIf_bind rfl fun _ =>
    raises_call_bind (fails_getItem _ _ (hhas _ (by decide))) fun _ _ =>
    raises_call_bind (fails_readSupportedVersions _) fun _ _ =>
    raises_call_bind (fails_getItem _ _ (hhas _ (by decide))) fun _ _ =>
    raises_call_bind (fails_readSignatureAlgorithms _) fun _ _ =>
    raises_call_bind (fails_getItem _ _ (hhas _ (by decide))) fun _ _ =>
    raises_call_bind (fails_readKeyShares _) fun _ _ => raises_pure _

theorem fails_readServerKeyShare (encoded : Bytes) (client : ClientState) :
    Fails IsFormatError (readServerKeyShare encoded client) := by
  refine fails_runCursor _ _ <| raises_u16_bind fun _ => raises_u16_bind fun _ =>
    raises_raiseIf_bind rfl fun _ => raises_read_bind fun _ _ => raises_isEmpty_bind fun empty =>
    raises_call_bind ?_ fun _ _ => raises_raiseIf _ _ rfl
  cases empty with
  | true => exact fails_validKeyShare _ _
  | false => exact fails_ok false

theorem fails_parseServerHello (body : Bytes) (client : ClientState) :
    Fails IsFormatError (parseServerHello body client) := by
  refine fails_runCursor _ _ <| raises_u16_bind fun _ => raises_raiseIf_bind rfl fun _ =>
    raises_read_bind fun _ _ => raises_raiseIf_bind rfl fun _ => raises_u8_bind fun _ =>
    raises_raiseIf_bind rfl fun _ => raises_read_bind fun _ _ => raises_raiseIf_bind rfl fun _ =>
    raises_u16_bind fun _ => raises_raiseIf_bind rfl fun _ => raises_raiseIf_bind rfl fun _ =>
    raises_u8_bind fun _ => raises_raiseIf_bind rfl fun _ =>
    raises_extensions_bind fun block => raises_isEmpty_bind fun _ =>
    raises_raiseIf_bind rfl fun _ => raises_raiseIf_bind rfl fun hkeys => ?_
  rw [not_not, ExtensionMap.keysAre, Bool.and_eq_true] at hkeys
  -- The extensions are exactly the two that are looked up.
  have hhas := List.all_eq_true.mp hkeys.2
  exact raises_call_bind (fails_getItem _ _ (hhas _ (by decide))) fun _ _ =>
    raises_raiseIf_bind rfl fun _ =>
    raises_call_bind (fails_getItem _ _ (hhas _ (by decide))) fun _ _ =>
    raises_call _ (fails_readServerKeyShare _ _)

theorem fails_parseEncryptedExtensions (body : Bytes) :
    Fails IsFormatError (parseEncryptedExtensions body) :=
  fails_runCursor _ _ <| raises_extensions_bind fun _ => raises_isEmpty_bind fun _ =>
  raises_raiseIf_bind rfl fun _ => raises_raiseIf _ _ rfl

theorem raises_certificateStep (result : List Bytes) :
    Raises IsFormatError (certificateStep result) :=
  raises_u24_bind fun _ => raises_raiseIf_bind rfl fun _ => raises_read_bind fun _ _ =>
  raises_u16_bind fun _ => raises_read_bind fun _ _ => raises_raiseIf_bind rfl fun _ =>
  raises_pure _

theorem fails_parseCertificate (body : Bytes) : Fails IsFormatError (parseCertificate body) :=
  fails_runCursor _ _ <| raises_u8_bind fun _ => raises_read_bind fun _ _ =>
  raises_raiseIf_bind rfl fun _ => raises_u24_bind fun _ => raises_getRemaining_bind fun _ =>
  raises_raiseIf_bind rfl fun _ => raises_read_bind fun _ _ =>
  raises_call _
    (fails_readAll parses_certificateStep ReadsCertificate.ne_nil raises_certificateStep _ _)

theorem fails_parseCertificateMessage (message : Bytes) :
    Fails IsFormatError (parseCertificateMessage message) := by
  refine Fails.bind (fails_runCursor _ _ ?_) fun body _ => fails_parseCertificate body
  exact raises_readHandshake_bind (by decide) (by decide) fun _ => raises_isEmpty_bind fun _ =>
    raises_raiseIf_bind rfl fun _ => raises_pure _

theorem fails_parseCertificateVerify (body : Bytes) (client : ClientState) :
    Fails IsFormatError (parseCertificateVerify body client) :=
  fails_runCursor _ _ <| raises_u16_bind fun _ => raises_u16_bind fun _ =>
  raises_raiseIf_bind rfl fun _ => raises_read_bind fun _ _ => raises_isEmpty_bind fun _ =>
  raises_raiseIf_bind rfl fun _ => raises_raiseIf_bind rfl fun _ => raises_raiseIf_bind rfl fun _ =>
  raises_pure _

theorem raises_readMessages : Raises IsFormatError readMessages :=
  raises_u8_bind fun _ => raises_raiseIf_bind rfl fun _ =>
  raises_readHandshake_bind (by decide) (by decide) fun _ =>
  raises_readHandshake_bind (by decide) (by decide) fun _ =>
  raises_readHandshake_bind (by decide) (by decide) fun _ =>
  raises_readHandshake_bind (by decide) (by decide) fun _ =>
  raises_readHandshake_bind (by decide) (by decide) fun _ =>
  raises_isEmpty_bind fun _ => raises_raiseIf_bind rfl fun _ => raises_pure _

/-- Whatever the parser is given, it returns or raises a `ProofFormatError`. -/
theorem fails_parseProof (e : Bytes) (d : Str) (c : Bytes) :
    Fails IsFormatError (parseProof e d c) := by
  refine Fails.bind (fails_failIf _ rfl) fun _ hd => ?_
  rw [failIf_eq_ok_iff, not_not, isCanonicalDomain_iff] at hd
  -- A canonical domain is ASCII, so it has an encoding to compare with.
  have hname : ∃ name, encodeAscii d = .ok name := by
    rcases hd.encode with ⟨name, hname, -⟩
    exact ⟨name, hname⟩
  refine Fails.bind (fails_failIf _ rfl) fun _ _ => Fails.bind (fails_failIf _ rfl) fun _ _ =>
    Fails.bind (fails_runCursor _ _ raises_readMessages) fun m _ =>
    Fails.bind (fails_parseClientHello _ _ _ hname) fun client _ =>
    Fails.bind (fails_parseServerHello _ _) fun _ _ =>
    Fails.bind (fails_parseEncryptedExtensions _) fun _ _ =>
    Fails.bind (fails_parseCertificate _) fun _ _ =>
    Fails.bind (fails_parseCertificateVerify _ _) fun _ _ => Fails.bind ?_ fun _ _ => fails_ok _
  rw [connectionWorkHash_four]
  exact fails_ok _

/-! ### Readers in bounds -/

section Bounds

/-- What a reader over some bytes can become: it is made at their front, and a
    read moves it or fails. -/
inductive Uses (data : Bytes) : Reader → Prop
  | fresh : Uses data ⟨data, 0⟩
  | read (r : Reader) (size : Nat) (what : String) (h : Uses data r) :
      Uses data (Reader.read size what r).2

/-- A read that fits moves the position by its size, and one that does not fit
    fails where it is. -/
theorem read_apply (size : Nat) (what : String) (r : Reader) :
    (r.data.length < r.position + size ∧
      Reader.read size what r = (.error (formatError ("truncated " ++ what)), r)) ∨
    (r.position + size ≤ r.data.length ∧
      Reader.read size what r =
        (.ok (slice r.data r.position (r.position + size)), ⟨r.data, r.position + size⟩)) := by
  unfold Reader.read remaining
  by_cases h : (r.data.length : Int) - r.position < size
  · rw [if_pos h]
    exact Or.inl ⟨by omega, rfl⟩
  · rw [if_neg h]
    exact Or.inr ⟨by omega, rfl⟩

theorem stays_read (size : Nat) (what : String) : Stays (Reader.read size what) := by
  intro r hr
  rcases read_apply size what r with ⟨-, hrun⟩ | ⟨hle, hrun⟩
  · rw [hrun]
    exact ⟨rfl, Nat.le_refl _, hr⟩
  · rw [hrun]
    exact ⟨rfl, Nat.le_add_right _ _, hle⟩

theorem failsInPlace_read (size : Nat) (what : String) : FailsInPlace (Reader.read size what) := by
  intro r e r' h
  rcases read_apply size what r with ⟨-, hrun⟩ | ⟨-, hrun⟩
  · rw [hrun] at h
    exact (Prod.mk.inj h).2.symm
  · rw [hrun] at h
    exact nomatch (Prod.mk.inj h).1

theorem advances_read (size : Nat) (what : String) (hpos : 0 < size) :
    Advances (Reader.read size what) := by
  intro r x r' _ h
  rcases read_apply size what r with ⟨-, hrun⟩ | ⟨-, hrun⟩
  · rw [hrun] at h
    exact nomatch (Prod.mk.inj h).1
  · rw [hrun] at h
    rw [← (Prod.mk.inj h).2]
    exact Nat.lt_add_of_pos_right hpos

/-- Every reader stays inside its bytes, however it is used. -/
theorem Uses.inBounds {data : Bytes} {r : Reader} (h : Uses data r) :
    r.data = data ∧ r.InBounds := by
  induction h with
  | fresh => exact ⟨rfl, Nat.zero_le _⟩
  | read r size what _ ih =>
      rcases stays_read size what r ih.2 with ⟨hdata, -, hin⟩
      exact ⟨hdata.trans ih.1, hin⟩

/-- The numbers are a read and what is made of its bytes. -/
theorem stays_u8 (what : String) : Stays (u8 what) :=
  (stays_read 1 what).bind fun _ => (stays_call _).bind fun _ => stays_pure _

theorem stays_u16 (what : String) : Stays (u16 what) :=
  (stays_read 2 what).bind fun _ => stays_pure _

theorem stays_u24 (what : String) : Stays (u24 what) :=
  (stays_read 3 what).bind fun _ => stays_pure _

theorem stays_getRemaining : Stays getRemaining :=
  stays_of_fixed fun _ => rfl

/-- The byte that `u8` looks at is there. -/
theorem failsInPlace_u8 (what : String) : FailsInPlace (u8 what) := by
  refine (failsInPlace_read 1 what).bind fun r x r' hread e d hrest => ?_
  rcases read_apply 1 what r with ⟨-, hrun⟩ | ⟨hle, hrun⟩
  · rw [hrun] at hread
    cases (Prod.mk.inj hread).1
  · rw [hrun] at hread
    rcases Prod.mk.inj hread with ⟨hslice, -⟩
    have hlen : x.length = 1 := by
      rw [← Except.ok.inj hslice, slice, List.length_take, List.length_drop]
      omega
    rcases List.length_eq_one_iff.mp hlen with ⟨a, rfl⟩
    cases (Prod.mk.inj hrest).1

theorem failsInPlace_u16 (what : String) : FailsInPlace (u16 what) :=
  (failsInPlace_read 2 what).bind fun _ _ _ _ _ _ h => nomatch (Prod.mk.inj h).1

theorem failsInPlace_u24 (what : String) : FailsInPlace (u24 what) :=
  (failsInPlace_read 3 what).bind fun _ _ _ _ _ _ h => nomatch (Prod.mk.inj h).1

theorem advances_u16 (what : String) : Advances (u16 what) :=
  (advances_read 2 what (by decide)).bind (stays_read 2 what) fun _ => stays_pure _

theorem advances_u24 (what : String) : Advances (u24 what) :=
  (advances_read 3 what (by decide)).bind (stays_read 3 what) fun _ => stays_pure _

theorem stays_readHandshake (type size : Nat) (name : String) :
    Stays (readHandshake type size name) :=
  stays_getCursor.bind fun _ => (stays_u8 _).bind fun _ => (stays_u24 _).bind fun _ =>
  (stays_raiseIf _ _).bind fun _ => (stays_raiseIf _ _).bind fun _ => (stays_read _ _).bind fun _ =>
  stays_getCursor.bind fun _ => stays_pure _

theorem stays_extensions : Stays extensions :=
  (stays_u16 _).bind fun _ => stays_getRemaining.bind fun _ => (stays_raiseIf _ _).bind fun _ =>
  (stays_read _ _).bind fun _ => stays_call _

theorem stays_readMessages : Stays readMessages :=
  (stays_u8 _).bind fun _ => (stays_raiseIf _ _).bind fun _ =>
  (stays_readHandshake _ _ _).bind fun _ => (stays_readHandshake _ _ _).bind fun _ =>
  (stays_readHandshake _ _ _).bind fun _ => (stays_readHandshake _ _ _).bind fun _ =>
  (stays_readHandshake _ _ _).bind fun _ => stays_isEmpty.bind fun _ =>
  (stays_raiseIf _ _).bind fun _ => stays_pure _

/-- Each pass over extensions reads their type and moves on. -/
theorem extensionStep_pass (result : ExtensionMap) :
    Stays (extensionStep result) ∧ Advances (extensionStep result) :=
  (advances_u16 _).pass (stays_u16 _) fun _ => (stays_u16 _).bind fun _ =>
  (stays_read _ _).bind fun _ => (stays_raiseIf _ _).bind fun _ => stays_pure _

theorem keyShareStep_pass (groups : List Nat) :
    Stays (keyShareStep groups) ∧ Advances (keyShareStep groups) :=
  (advances_u16 _).pass (stays_u16 _) fun _ => (stays_u16 _).bind fun _ =>
  (stays_raiseIf _ _).bind fun _ => (stays_read _ _).bind fun _ => (stays_call _).bind fun _ =>
  (stays_raiseIf _ _).bind fun _ => stays_pure _

theorem certificateStep_pass (result : List Bytes) :
    Stays (certificateStep result) ∧ Advances (certificateStep result) :=
  (advances_u24 _).pass (stays_u24 _) fun _ => (stays_raiseIf _ _).bind fun _ =>
  (stays_read _ _).bind fun _ => (stays_u16 _).bind fun _ => (stays_read _ _).bind fun _ =>
  (stays_raiseIf _ _).bind fun _ => stays_pure _

/-- A loop whose passes stay in bounds and move on, so that it stays in bounds
    after any number of them. -/
structure SafeLoop {σ : Type} (body : σ → ReaderM σ) : Prop where
  stays : ∀ s, Stays (body s)
  advances : ∀ s, Advances (body s)
  runStays : ∀ passes s, Stays (whileNotEmpty stuck body passes s)

theorem safeLoop_of_pass {σ : Type} {body : σ → ReaderM σ}
    (h : ∀ s, Stays (body s) ∧ Advances (body s)) : SafeLoop body where
  stays s := (h s).1
  advances s := (h s).2
  runStays passes s := stays_whileNotEmpty stuck (fun s => (h s).1) passes s

/-- The parser is total and raises `ProofFormatError`s only. Its readers stay
    inside their bytes, a read that fails does not move, and every pass of its
    three loops moves forwards and not past the end. -/
theorem parseProof_safe :
    (∀ (e : Bytes) (d : Str) (c : Bytes), (∃ p, parseProof e d c = .ok p) ∨
      ∃ err, parseProof e d c = .error err ∧ err.cls = .proofFormatError) ∧
    (∀ (data : Bytes) (r : Reader), Uses data r →
      r.data = data ∧ 0 ≤ r.position ∧ r.position ≤ data.length) ∧
    (∀ (size : Nat) (what : String), FailsInPlace (Reader.read size what) ∧
      FailsInPlace (u8 what) ∧ FailsInPlace (u16 what) ∧ FailsInPlace (u24 what)) ∧
    (Stays readMessages ∧ Stays extensions ∧
      ∀ (type size : Nat) (name : String), Stays (readHandshake type size name)) ∧
    SafeLoop extensionStep ∧ SafeLoop keyShareStep ∧ SafeLoop certificateStep := by
  refine ⟨fun e d c => ?_, fun data r h => ?_, fun size what => ?_, ?_,
    safeLoop_of_pass extensionStep_pass, safeLoop_of_pass keyShareStep_pass,
    safeLoop_of_pass certificateStep_pass⟩
  · cases h : parseProof e d c with
    | ok p => exact Or.inl ⟨p, rfl⟩
    | error err => exact Or.inr ⟨err, rfl, fails_parseProof e d c err h⟩
  · rcases h.inBounds with ⟨hdata, hin⟩
    rw [Cursor.InBounds, hdata] at hin
    exact ⟨hdata, Nat.zero_le _, hin⟩
  · exact ⟨failsInPlace_read size what, failsInPlace_u8 what, failsInPlace_u16 what,
      failsInPlace_u24 what⟩
  · exact ⟨stays_readMessages, stays_extensions, stays_readHandshake⟩

end Bounds

end P2CTools.Protocol
