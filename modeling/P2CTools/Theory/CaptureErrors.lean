import P2CTools.Theory.Capture
import P2CTools.Theory.Handshake
import P2CTools.Theory.Verification
import P2CTools.Wire.Triple

/-!
# What a Capture Raises

The exceptions that come out of one attempt, against any peer.

The search that runs the attempts names four classes in its handler, and
`IsAttemptError` is what that handler stops. A capture raises nothing else,
with one exception: the early check of the Certificate message turns errors of
the program into its own, and lets the library's invalid version through. What
the peer has to send for that is `ServesInvalidVersion`.

The socket and the cryptography are assumed to raise what they document. A
timeout is only ever set to what is left before the deadline, which is positive
and at most the attempt's own timeout, so that is as far as `settimeout` has
to be trusted. Operations that could end otherwise do not: an index is read
behind a test of the length, the two loops take a record for at least five
bytes of what the connection has to give, and the tables are asked for the
keys that were tested.

## Main definitions

* `IsTlsError`: The client's own exceptions.
* `IsAttemptError`: The exceptions of an attempt.
* `Aead.Documented`, `Attempt.Documented`: What the libraries raise.
* `Net.Orderly`: A connection in the course of an attempt.
* `BringsInvalidVersion`, `ServesInvalidVersion`: The peer's certificate is the
  one that gets past the early check.

## Theorems

* `triple_recvRecord`: One record.
* `fails_parseServerHello`: The client's own parser.
* `fails_popMessages`, `fails_encryptedStep`: One pass of the encrypted loop.
* `fails_captureTls13Proof`: The whole attempt.
-/

namespace P2CTools

open Wire

/-- The exception is the client's own. -/
def IsTlsError (e : PyErr) : Prop :=
  e.cls = .tlsGenerationError

theorem fails_failIf_own (p : Prop) [Decidable p] (msg : String) :
    Fails IsTlsError (failIf p (tlsError msg)) :=
  fails_failIf p rfl

/-- The exception is one that the search's handler names. -/
def IsAttemptError (e : PyErr) : Prop :=
  e.isA .osError = true ∨ e.cls = .tlsGenerationError ∨ e.cls = .proofFormatError ∨
    e.cls = .proofVerificationError

theorem isAttemptError_tls (msg : String) : IsAttemptError (tlsError msg) :=
  Or.inr (Or.inl rfl)

theorem IsTlsError.isAttemptError {e : PyErr} (h : IsTlsError e) : IsAttemptError e :=
  Or.inr (Or.inl h)

theorem IsVerificationError.isAttemptError {e : PyErr} (h : IsVerificationError e) :
    IsAttemptError e :=
  Or.inr (Or.inr h)

theorem fails_failIf_tls (p : Prop) [Decidable p] (msg : String) :
    Fails IsAttemptError (failIf p (tlsError msg)) :=
  fails_failIf p (isAttemptError_tls msg)

namespace Tls13

/-- Decryption raises an `InvalidTag` and nothing else. -/
structure Aead.Documented (A : Aead) : Prop where
  aesGcmDecrypt : ∀ key nonce ciphertext header,
    Fails (fun e => e.cls = .invalidTag) (A.aesGcmDecrypt key nonce ciphertext header)
  chacha20Poly1305Decrypt : ∀ key nonce ciphertext header,
    Fails (fun e => e.cls = .invalidTag) (A.chacha20Poly1305Decrypt key nonce ciphertext header)

/-- What the socket, the clock and the key exchange of an attempt do: sockets
    raise an `OSError`, the exchange raises a `ValueError`, and the clock does
    not go back. -/
structure Attempt.Documented (a : Attempt) : Prop where
  publicKey : a.publicKey.length = 32
  sessionId : a.sessionId.length = 32
  exchange : ∀ share, Fails (fun e => e.isA .valueError = true) (a.exchange share)
  socket : ∀ family socketType protocol,
    Fails (fun e => e.isA .osError = true) (a.socket family socketType protocol)
  connect : ∀ address, Fails (fun e => e.isA .osError = true) (a.connect address)
  sendall : ∀ data, Fails (fun e => e.isA .osError = true) (a.sendall data)
  recv : ∀ e, NetEvent.fail e ∈ a.net.events → e.isA .osError = true
  clock : ∀ j k, j ≤ k → a.net.clock j ≤ a.net.clock k

/-- Timeouts up to the attempt's own can be set. -/
def Attempt.AcceptsTimeouts (a : Attempt) (timeout : ℚ) : Prop :=
  ∀ t, 0 < t → t ≤ timeout → Fails (fun e => e.isA .osError = true) (a.net.settimeout t)

section Connection

/-- A connection in the course of an attempt that started at some time. Setting
    a timeout may raise something else than an `OSError`. -/
structure Net.Orderly (E : PyErr → Prop) (started timeout : ℚ) (n : Net) : Prop where
  recv : ∀ e, NetEvent.fail e ∈ n.events → e.isA .osError = true
  clock : ∀ k, n.ticks ≤ k → started ≤ n.clock k
  settimeout : ∀ t, 0 < t → t ≤ timeout →
    Fails (fun e => e.isA .osError = true ∨ E e) (n.settimeout t)

/-- An orderly connection with at most so many bytes left to give. -/
def Holds (E : PyErr → Prop) (started timeout : ℚ) (k : Nat) (n : Net) : Prop :=
  n.Orderly E started timeout ∧ n.available ≤ k

/-- An error of the attempt, or one that setting a timeout may raise. -/
def IsAttemptErrorOr (E : PyErr → Prop) (e : PyErr) : Prop :=
  IsAttemptError e ∨ E e

variable {E : PyErr → Prop} {started timeout : ℚ}

theorem fails_failIf_or (p : Prop) [Decidable p] (msg : String) :
    Fails (IsAttemptErrorOr E) (failIf p (tlsError msg)) :=
  (fails_failIf_tls p msg).mono fun _ => Or.inl

theorem triple_remainingTimeout (k : Nat) :
    Triple (Holds E started timeout k) (remainingTimeout (started + timeout)) (IsAttemptErrorOr E)
      (fun t n => Holds E started timeout k n ∧ 0 < t ∧ t ≤ timeout) := by
  -- Reading the clock raises nothing, and all later readings are after the start too.
  have hnow : Triple (Holds E started timeout k) monotonic (IsAttemptErrorOr E)
      (fun now n => Holds E started timeout k n ∧ started ≤ now) := by
    rintro n ⟨horderly, havailable⟩
    refine ⟨fun e he => (nomatch he), fun now n' h => ?_⟩
    rcases Prod.mk.inj (Except.ok.inj h) with ⟨rfl, rfl⟩
    have hlater : ∀ j, n.ticks + 1 ≤ j → started ≤ n.clock j :=
      fun j hj => horderly.clock j (by omega)
    exact ⟨⟨⟨horderly.recv, hlater, horderly.settimeout⟩, havailable⟩,
      horderly.clock n.ticks (Nat.le_refl _)⟩
  refine hnow.bind fun now => Triple.bind (Q := fun _ n => Holds E started timeout k n ∧
    started ≤ now ∧ 0 < started + timeout - now) (triple_lift (fails_failIf_or _ _) ?_) fun _ =>
      triple_pure _ ?_
  -- Past the check the deadline is still ahead.
  · rintro _ n hcheck ⟨hholds, hstarted⟩
    rw [failIf_eq_ok_iff, not_le] at hcheck
    exact ⟨hholds, hstarted, hcheck⟩
  · rintro n ⟨hholds, hstarted, hpos⟩
    refine ⟨hholds, hpos, ?_⟩
    rw [sub_le_iff_le_add']
    exact add_le_add_left hstarted timeout

theorem triple_settimeout (k : Nat) (t : ℚ) :
    Triple (fun n => Holds E started timeout k n ∧ 0 < t ∧ t ≤ timeout) (settimeout t) (IsAttemptErrorOr E)
      (fun _ n => Holds E started timeout k n) := by
  rintro n ⟨hholds, hpos, hle⟩
  constructor
  · intro e he
    rcases (bind_eq_error_iff _ _ _).mp he with he | ⟨u, -, he⟩
    · exact (hholds.1.settimeout t hpos hle e he).imp_left Or.inl
    · exact nomatch he
  · intro u n' h
    rcases (bind_eq_ok_iff _ _ _).mp h with ⟨_, -, h⟩
    rcases Prod.mk.inj (Except.ok.inj h) with ⟨-, rfl⟩
    exact hholds

/-- What is received is no more than was asked for, and the connection has
    that much less to give. -/
theorem triple_recv (k size : Nat) :
    Triple (Holds E started timeout k) (recv size) (IsAttemptErrorOr E)
      (fun b n => b.length ≤ size ∧ b.length ≤ k ∧ Holds E started timeout (k - b.length) n) := by
  rintro n ⟨horderly, havailable⟩
  unfold recv
  cases hevents : n.events with
  | nil =>
      -- A peer with nothing more to give times out.
      refine ⟨fun e he => ?_, fun b n' h => nomatch h⟩
      rw [← Except.error.inj he]
      exact Or.inl (Or.inl rfl)
  | cons event events =>
      rw [Net.available, hevents, List.map_cons, List.sum_cons] at havailable
      cases event with
      | fail e' =>
          refine ⟨fun e he => ?_, fun b n' h => nomatch h⟩
          rw [← Except.error.inj he]
          -- An error on the way is one of the orderly kind.
          refine Or.inl (Or.inl (horderly.recv e' ?_))
          rw [hevents]
          exact List.mem_cons_self
      | data piece =>
          have hrecv : ∀ e, NetEvent.fail e ∈ events → e.isA .osError = true := by
            intro e he
            refine horderly.recv e ?_
            rw [hevents]
            exact List.mem_cons_of_mem _ he
          simp only at havailable ⊢
          by_cases hfits : piece.length ≤ size
          -- The piece fits whole.
          · rw [if_pos hfits]
            refine ⟨fun e he => (nomatch he), fun b n' h => ?_⟩
            rcases Prod.mk.inj (Except.ok.inj h) with ⟨rfl, rfl⟩
            refine ⟨hfits, by omega, ⟨hrecv, horderly.clock, horderly.settimeout⟩, ?_⟩
            change (events.map _).sum ≤ _
            omega
          -- Only its first `size` bytes are taken, and the rest stays in front.
          · rw [if_neg hfits]
            refine ⟨fun e he => (nomatch he), fun b n' h => ?_⟩
            rcases Prod.mk.inj (Except.ok.inj h) with ⟨rfl, rfl⟩
            have hlen : (piece.take size).length = size := List.length_take_of_le (by omega)
            refine ⟨by omega, by omega, ⟨?_, horderly.clock, horderly.settimeout⟩, ?_⟩
            · intro e he
              rcases List.mem_cons.mp he with he | he
              · exact nomatch he
              · exact hrecv e he
            · change (piece.drop size).length + (events.map _).sum ≤ _
              rw [List.length_drop, hlen]
              omega

/-- The loop has enough tests: each pass but the last receives something. -/
theorem triple_recvLoop (size fuel : Nat) :
    ∀ (k : Nat) (result : Bytes), result.length ≤ size → size < result.length + fuel →
      Triple (Holds E started timeout k) (recvLoop size (started + timeout) fuel result)
        (IsAttemptErrorOr E)
        (fun b n => b.length = size ∧ size ≤ k + result.length ∧
          Holds E started timeout (k + result.length - size) n) := by
  induction fuel with
  | zero =>
      intro k result _ hfuel
      omega
  | succ fuel ih =>
      intro k result hle hfuel
      rw [recvLoop]
      by_cases hlt : result.length < size
      · rw [if_pos hlt]
        refine (triple_remainingTimeout k).bind fun t => (triple_settimeout k t).bind fun _ =>
          (triple_recv k (size - result.length)).bind fun chunk => ?_
        refine Triple.bind (Q := fun _ n => chunk ≠ [] ∧ chunk.length ≤ size - result.length ∧
          chunk.length ≤ k ∧ Holds E started timeout (k - chunk.length) n)
          (triple_lift (fails_failIf_or _ _) ?_) fun _ => ?_
        · intro _ n hcheck h
          rw [failIf_eq_ok_iff] at hcheck
          exact ⟨hcheck, h⟩
        -- The chunk is not empty, so it makes up for the fuel that the pass spends.
        · rintro n ⟨hne, hsize, hk, hholds⟩
          have hpos := List.length_pos_iff.mpr hne
          have hrest := ih (k - chunk.length) (result ++ chunk)
            (by rw [List.length_append]; omega) (by rw [List.length_append]; omega) n hholds
          rw [List.length_append] at hrest
          refine ⟨hrest.1, fun b n' hb => ?_⟩
          rcases hrest.2 b n' hb with ⟨hlen, hsome, hholds'⟩
          refine ⟨hlen, by omega, ?_⟩
          -- What the peer had left and what was received add up to the same.
          have hsame : k - chunk.length + (result.length + chunk.length) - size =
              k + result.length - size := by omega
          rw [hsame] at hholds'
          exact hholds'
      -- Nothing is missing any more.
      · rw [if_neg hlt]
        refine triple_pure _ fun n hholds => ⟨by omega, by omega, ?_⟩
        rw [show k + result.length - size = k by omega]
        exact hholds

theorem triple_recvExact (size k : Nat) :
    Triple (Holds E started timeout k) (recvExact size (started + timeout)) (IsAttemptErrorOr E)
      (fun b n => b.length = size ∧ size ≤ k ∧ Holds E started timeout (k - size) n) :=
  triple_recvLoop size (size + 1) k [] (Nat.zero_le _)
    (by rw [List.length_nil, Nat.zero_add]; exact Nat.lt_succ_self size)

theorem fails_getIndex {P : PyErr → Prop} (data : Bytes) (index : Nat) (h : index < data.length) :
    Fails P (getIndex data index) := by
  intro e he
  rw [getIndex, List.getElem?_eq_getElem h] at he
  cases he

/-- One record costs the connection at least its header. -/
theorem triple_recvRecord (k : Nat) :
    Triple (Holds E started timeout k) (recvRecord (started + timeout)) (IsAttemptErrorOr E)
      (fun _ n => 5 ≤ k ∧ Holds E started timeout (k - 5) n) := by
  refine (triple_recvExact 5 k).bind fun header => ?_
  by_cases hlen : header.length = 5
  · refine Triple.bind (Q := fun _ n => 5 ≤ k ∧ Holds E started timeout (k - 5) n)
      (triple_lift (fails_getIndex header 0 (by omega)) fun _ n _ h => h.2) fun _ => ?_
    -- The header has five bytes, so its index is in range; the two tests raise the attempt's own
    -- error.
    refine Triple.bind (Q := fun _ n => 5 ≤ k ∧ Holds E started timeout (k - 5) n)
      (triple_lift (fails_failIf_or _ _) fun _ n _ h => h) fun _ => ?_
    refine Triple.bind (Q := fun _ n => 5 ≤ k ∧ Holds E started timeout (k - 5) n)
      (triple_lift (fails_failIf_or _ _) fun _ n _ h => h) fun _ => ?_
    -- The payload takes what it takes; the bound counts the header alone.
    rintro n ⟨hk, hholds⟩
    refine Triple.bind (triple_recvExact _ (k - 5)) (fun _ => triple_pure _ ?_) n hholds
    rintro n' ⟨-, -, horderly, havailable⟩
    exact ⟨hk, horderly, by omega⟩
  · rintro n ⟨hlen', -⟩
    exact absurd hlen' hlen

end Connection

section Messages

theorem fails_popHandshake (buffer : Bytes) : Fails IsAttemptError (popHandshake buffer) := by
  unfold popHandshake
  split
  · exact fails_ok _
  · split
    · exact fails_error (isAttemptError_tls _)
    · split
      · exact fails_ok _
      · exact fails_ok _

theorem fails_raiseAlert {α : Type} (alert : Bytes) :
    Fails IsAttemptError (raiseAlert alert : Except PyErr α) := by
  unfold raiseAlert
  split
  · exact fails_error (isAttemptError_tls _)
  · exact fails_error (isAttemptError_tls _)

theorem fails_helloStep (r : Record) (s : HelloState) :
    Fails IsAttemptError (helloStep r s) := by
  unfold helloStep
  split
  · exact fails_ok s
  · split
    · exact fails_raiseAlert _
    · refine Fails.bind (fails_failIf_tls _ _) fun _ _ =>
        Fails.bind (fails_popHandshake _) fun popped _ => ?_
      cases popped with
      | none => exact fails_ok _
      | some pair => exact fails_ok _

/-- A finished loop has a ServerHello to take. -/
theorem fails_takeServerHello (s : HelloState) (h : s.finished = true) :
    Fails IsAttemptError (takeServerHello s) := by
  refine Fails.bind (fails_failIf_tls _ _) fun _ _ => ?_
  rcases Option.isSome_iff_exists.mp h with ⟨serverHello, hsome⟩
  rw [hsome]
  exact fails_ok _

/-- Each pass takes at least the four bytes of an extension's header. -/
theorem fails_parseExtensionsLoop (encoded : Bytes) (fuel : Nat) :
    ∀ (position : Nat) (result : ExtensionMap), position ≤ encoded.length →
      encoded.length < fuel + position →
      Fails IsTlsError (parseExtensionsLoop encoded fuel position result) := by
  induction fuel with
  | zero =>
      intro position result hle hlt
      -- Out of fuel the position would be past the end.
      omega
  | succ fuel ih =>
      intro position result hle hlt
      rw [parseExtensionsLoop]
      split
      · refine Fails.bind (fails_failIf_own _ _) fun _ hheader =>
          Fails.bind (fails_failIf_own _ _) fun _ hdata => Fails.bind (fails_failIf_own _ _)
          fun _ _ => ih _ _ ?_ (by omega)
        -- The next position is still within the bytes, by the test of the data's length.
        rw [failIf_eq_ok_iff] at hheader hdata
        omega
      · exact fails_ok result

theorem fails_parseExtensions (encoded : Bytes) :
    Fails IsTlsError (parseExtensions encoded) :=
  fails_parseExtensionsLoop encoded _ 0 [] (Nat.zero_le _) (Nat.lt_succ_self _)

theorem fails_parseKeyShare (keyShare : Bytes) : Fails IsTlsError (parseKeyShare keyShare) :=
  Fails.bind (fails_failIf_own _ _) fun _ _ => Fails.bind (fails_failIf_own _ _) fun _ _ =>
    fails_ok _

/-- The client's own parser: its indices lie behind tests of the length, and
    its lookups behind the test for the two extensions. -/
theorem fails_parseServerHello (message expectedSessionId : Bytes) :
    Fails IsTlsError (parseServerHello message expectedSessionId) := by
  refine Fails.bind (fails_failIf_own _ _) fun _ _ => Fails.bind (fails_failIf_own _ _) fun _ _ =>
    Fails.bind (fails_failIf_own _ _) fun _ hbody => Fails.bind (fails_failIf_own _ _) fun _ _ => ?_
  rw [failIf_eq_ok_iff, not_or, not_lt] at hbody
  -- The body was tested to reach past the session length.
  refine Fails.bind (fails_getIndex _ _ (by omega)) fun sessionByte _ =>
    Fails.bind (fails_failIf_own _ _) fun _ hsession => ?_
  rw [failIf_eq_ok_iff, not_or, not_lt, not_lt] at hsession
  -- The compression method follows the session id, within the tested length.
  refine Fails.bind (fails_failIf_own _ _) fun _ _ => Fails.bind (fails_failIf_own _ _) fun _ _ =>
    Fails.bind (fails_getIndex _ _ (by omega)) fun _ _ =>
    Fails.bind (fails_failIf_own _ _) fun _ _ => Fails.bind (fails_failIf_own _ _) fun _ _ =>
    Fails.bind (fails_parseExtensions _) fun extensions _ =>
    Fails.bind (fails_failIf_own _ _) fun _ hkeys => ?_
  -- Both extensions are there, so neither lookup fails.
  rw [failIf_eq_ok_iff, not_not, ExtensionMap.keysAre, Bool.and_eq_true] at hkeys
  have hhas := List.all_eq_true.mp hkeys.2
  exact Fails.bind (Protocol.fails_getItem _ _ (hhas _ (by decide))) fun _ _ =>
    Fails.bind (fails_failIf_own _ _) fun _ _ =>
    Fails.bind (Protocol.fails_getItem _ _ (hhas _ (by decide))) fun _ _ =>
    Fails.bind (fails_parseKeyShare _) fun _ _ => fails_ok _

/-- The suite of a ServerHello that was read is one of the two. -/
theorem parseServerHello_suite {message expectedSessionId share : Bytes} {suite : Nat}
    (h : parseServerHello message expectedSessionId = .ok (suite, share)) :
    suite ∈ [Protocol.tlsAes128GcmSha256, Protocol.tlsChacha20Poly1305Sha256] := by
  unfold parseServerHello at h
  simp only [bind_eq_ok_iff, failIf_eq_ok_iff, exists_const, pure_eq_ok_iff, not_not,
    Prod.mk.injEq] at h
  rcases h with ⟨-, -, -, -, _, -, -, -, hsuite, _, -, -, -, _, -, -, _, -, -, _, -, _, -, rfl, -⟩
  exact hsuite

/-- What a ServerHello leads to: keys with a vector of twelve bytes, or an
    error of the attempt. -/
theorem fails_flightKeys {exchange : Bytes → Except PyErr Bytes}
    (hexchange : ∀ share, Fails (fun e => e.isA .valueError = true) (exchange share))
    (sessionId clientHello serverHello : Bytes) :
    Fails IsAttemptError (flightKeys exchange sessionId clientHello serverHello) := by
  refine Fails.bind ((fails_parseServerHello _ _).mono fun _ => IsTlsError.isAttemptError)
    fun pair hpair => Fails.bind ?_ fun secret _ => ?_
  -- The exchange raises `ValueError` alone, which is caught and raised again as the attempt's.
  · refine fails_handle _ _ _ (fun _ _ _ => fails_error (isAttemptError_tls _)) fun e he hno => ?_
    rw [any_isA_singleton, hexchange _ e he] at hno
    exact nomatch hno
  -- The suite is one of the two, and then the derivation cannot fail.
  · rcases deriveServerHandshakeKeys_eq_ok secret (clientHello ++ serverHello) pair.1
      (parseServerHello_suite hpair) with ⟨keys, hkeys, -⟩
    rw [hkeys]
    exact fails_ok keys

theorem flightKeys_iv {exchange : Bytes → Except PyErr Bytes}
    {sessionId clientHello serverHello : Bytes} {keys : Keys}
    (h : flightKeys exchange sessionId clientHello serverHello = .ok keys) :
    keys.iv.length = 12 := by
  unfold flightKeys at h
  rcases (bind_eq_ok_iff _ _ _).mp h with ⟨pair, hpair, h⟩
  rcases (bind_eq_ok_iff _ _ _).mp h with ⟨secret, -, h⟩
  rcases deriveServerHandshakeKeys_eq_ok secret (clientHello ++ serverHello) pair.1
    (parseServerHello_suite hpair) with ⟨keys', hkeys, -, hiv⟩
  rw [hkeys, Except.ok.injEq] at h
  rw [← h]
  exact hiv

end Messages

section EncryptedLoop

variable {Cert Key : Type} (X : X509 Cert Key)

/-- A Certificate message whose chain fails to load with an invalid version. -/
def InvalidVersionMessage (message : Bytes) : Prop :=
  ∃ chain, Protocol.parseCertificateMessage message = .ok chain ∧ InvalidVersionFirst X chain

variable {X}

/-- The early check of a Certificate message turns everything into an error of
    the attempt, except an invalid version. -/
theorem fails_checkMessage (hX : X.Documented) (expectedType : Nat) (message : Bytes)
    (hlen : 4 ≤ message.length) :
    Fails (fun e => IsAttemptError e ∨ (e.cls = .invalidVersion ∧
        expectedType = Protocol.certificate ∧ InvalidVersionMessage X message))
      (checkMessage X expectedType message) := by
  refine Fails.bind (fails_getIndex _ _ (by omega)) fun _ _ =>
    Fails.bind ((fails_failIf_tls _ _).mono fun _ => Or.inl) fun _ _ => ?_
  split
  · next htype =>
      refine fails_handle _ _ _ (fun _ _ _ => fails_error (Or.inl (isAttemptError_tls _)))
        fun e he hno => Or.inr ?_
      rw [any_isA_singleton] at hno
      -- What is not an error of the program can only come from loading.
      have hforeign : ¬IsVerificationError e := by
        rintro (h | h)
        · rw [PyErr.isA, h] at hno
          cases hno
        · rw [PyErr.isA, h] at hno
          cases hno
      rcases (bind_eq_error_iff _ _ _).mp he with he | ⟨chain, hchain, he⟩
      · exact absurd (Protocol.fails_parseCertificateMessage message e he).isVerificationError
          hforeign
      · rcases (bind_eq_error_iff _ _ _).mp he with he | ⟨_, -, he⟩
        · refine ⟨(fails_loadCertificateChain hX chain e he).resolve_left hforeign, htype, chain,
            hchain, ?_⟩
          by_contra hno'
          exact hforeign ((fails_loadCertificateChain_iff hX chain).mpr hno' e he)
        · cases he
  · exact fails_ok ()

variable (X)

/-- Behind messages that are taken stands a Certificate with an invalid
    version. -/
def FindsInvalidVersion (expected : List Nat) (buffer : Bytes) : Prop :=
  ∃ (messages : List Bytes) (message rest : Bytes), buffer = messages.flatten ++ (message ++ rest) ∧
    TakenAs X expected messages ∧ WellFramed message ∧ message.length ≤ maxCapturedHandshake ∧
    expected[messages.length]? = some Protocol.certificate ∧ InvalidVersionMessage X message

variable {X}

/-- Taking messages out fails as the checks do. -/
theorem fails_popMessages (hX : X.Documented) (expected : List Nat) :
    ∀ (captured : List Bytes) (buffer : Bytes),
      Fails (fun e => IsAttemptError e ∨
          (e.cls = .invalidVersion ∧ FindsInvalidVersion X expected buffer))
        (popMessages X expected captured buffer) := by
  induction expected with
  | nil =>
      intro captured buffer
      exact fails_ok _
  | cons expectedType expected ih =>
      intro captured buffer
      rw [popMessages]
      refine Fails.bind ((fails_popHandshake _).mono fun _ => Or.inl) fun popped hpopped => ?_
      rcases popped with _ | ⟨message, rest⟩
      · exact fails_ok _
      · rcases (popHandshake_eq_some_iff _ _ _).mp hpopped with ⟨hframed, hsize, hbuffer⟩
        refine Fails.bind ((fails_checkMessage hX expectedType message hframed.1).mono ?_)
          fun _ hcheck => (ih _ rest).mono ?_
        · -- This message is the Certificate.
          rintro e (h | ⟨hcls, htype, hversion⟩)
          · exact Or.inl h
          · refine Or.inr ⟨hcls, [], message, rest, hbuffer, TakenAs.nil _, hframed, hsize, ?_, hversion⟩
            rw [htype]
            rfl
        · -- This message is taken, and the Certificate stands behind it.
          rintro e (h | ⟨hcls, messages, message', rest', hrest, htaken, hfound⟩)
          · exact Or.inl h
          · refine Or.inr ⟨hcls, message :: messages, message', rest', ?_,
              TakenAs.cons expectedType expected message messages hframed hsize hcheck htaken,
              hfound⟩
            rw [hbuffer, hrest, List.flatten_cons, List.append_assoc]

theorem fails_decrypt {A : Aead} (hA : A.Documented) (cipherSuite : Nat)
    (key nonce ciphertext header : Bytes) :
    Fails (fun e => e.cls = .invalidTag) (A.decrypt cipherSuite key nonce ciphertext header) := by
  unfold Aead.decrypt
  split
  · exact hA.aesGcmDecrypt _ _ _ _
  · exact hA.chacha20Poly1305Decrypt _ _ _ _

theorem fails_decryptRecord {A : Aead} (hA : A.Documented) {keys : Keys}
    (hiv : keys.iv.length = 12) (sequence : Nat) (header ciphertext : Bytes) :
    Fails IsAttemptError (decryptRecord A keys sequence header ciphertext) := by
  refine Fails.bind (Fails.bind (fails_failIf_tls _ _) fun _ hsequence => ?_) fun nonce _ =>
    Fails.bind ?_ fun plaintext _ => ?_
  -- The nonce: a sequence number below 2^64 fits the twelve bytes of the vector.
  · rw [failIf_eq_ok_iff, not_not] at hsequence
    have hfits : (sequence : Int) < 256 ^ keys.iv.length := by
      rw [hiv]
      omega
    rw [(toBytesBig_eq_ok_iff keys.iv.length sequence (be keys.iv.length sequence)).mpr
      ⟨Int.natCast_nonneg _, hfits, rfl⟩]
    exact fails_ok _
  -- The decryption raises the bad tag only, which the handler catches.
  · refine fails_handle _ _ _ (fun _ _ _ => fails_error (isAttemptError_tls _)) fun e he hno => ?_
    rw [any_isA_singleton, PyErr.isA, fails_decrypt hA _ _ _ _ _ e he] at hno
    cases hno
  -- The padding: a plaintext of zeros alone is refused.
  · unfold splitInner
    split
    · exact fails_error (isAttemptError_tls _)
    · exact fails_ok _

/-- A record brings the Certificate with an invalid version to a head of the
    encrypted loop. -/
def BringsInvalidVersion (X : X509 Cert Key) (A : Aead) (keys : Keys) (r : Record)
    (s : EncryptedState) : Prop :=
  r.isSkipped = false ∧ r.contentType = contentApplicationData ∧
    ∃ content, Opens A keys s.sequence r 22 content ∧
      (s.encryptedHandshake ++ content).length ≤ maxCapturedHandshake ∧
      FindsInvalidVersion X (expectedMessages.drop s.captured.length)
        (s.encryptedHandshake ++ content)

/-- Some record that the connection delivers does. -/
def SendsInvalidVersion (X : X509 Cert Key) (A : Aead) (keys : Keys) (deadline : ℚ) (n : Net) :
    Prop :=
  ∃ records s n₁ r n₂, Reaches (recvRecord deadline) (encryptedStep X A keys)
      EncryptedState.finished ⟨[], [], 0⟩ n records s n₁ ∧
    s.finished = false ∧ recvRecord deadline n₁ = .ok (r, n₂) ∧ BringsInvalidVersion X A keys r s

/-- A pass of the encrypted loop fails with an error of the attempt, or on an
    invalid version that its record brings. -/
theorem fails_encryptedStep (hX : X.Documented) {A : Aead} (hA : A.Documented) {keys : Keys}
    (hiv : keys.iv.length = 12) (r : Record) (s : EncryptedState) :
    Fails (fun e => IsAttemptError e ∨
        (e.cls = .invalidVersion ∧ BringsInvalidVersion X A keys r s))
      (encryptedStep X A keys r s) := by
  unfold encryptedStep
  split
  -- A skipped record changes nothing.
  · exact fails_ok s
  · next hskip =>
      rw [Bool.not_eq_true] at hskip
      split
      -- A plain alert.
      · exact (fails_raiseAlert _).mono fun _ => Or.inl
      · refine Fails.bind ((fails_failIf_tls _ _).mono fun _ => Or.inl) fun _ htype =>
          Fails.bind ((fails_decryptRecord hA hiv _ _ _).mono fun _ => Or.inl) fun pair hpair => ?_
        rw [failIf_eq_ok_iff, not_not] at htype
        rcases pair with ⟨type, content⟩
        rcases (decryptRecord_eq_ok_iff A keys _ r _ _).mp hpair with ⟨innerType, htype', hopens⟩
        simp only
        split
        -- An encrypted alert.
        · exact (fails_raiseAlert _).mono fun _ => Or.inl
        · refine Fails.bind ((fails_failIf_tls _ _).mono fun _ => Or.inl) fun _ hinner =>
            Fails.bind ((fails_failIf_tls _ _).mono fun _ => Or.inl) fun _ hsize =>
            Fails.bind ((fails_popMessages hX _ _ _).mono ?_) fun _ _ => fails_ok _
          rw [failIf_eq_ok_iff, not_not, htype'] at hinner
          rw [failIf_eq_ok_iff, gt_iff_lt, not_lt] at hsize
          have hhandshake : innerType = 22 := UInt8.toNat_inj.mp hinner
          rw [hhandshake] at hopens
          -- What the messages of this record bring is what the record brings.
          exact fun e h => h.imp_right fun hfound =>
            ⟨hfound.1, hskip, htype, content, hopens, hsize, hfound.2⟩

end EncryptedLoop

section Attempt

variable {E : PyErr → Prop} {started timeout : ℚ}

theorem fails_netM_bind {α β : Type} {P : PyErr → Prop} {m : NetM α} {f : α → NetM β} {n : Net}
    (hm : Fails P (m n)) (hf : ∀ x n', m n = .ok (x, n') → Fails P (f x n')) :
    Fails P ((m >>= f) n) :=
  Fails.bind hm fun pair hpair => hf pair.1 pair.2 hpair

theorem fails_netM_lift {α : Type} {P : PyErr → Prop} {r : Except PyErr α} (hr : Fails P r)
    (n : Net) : Fails P (NetM.lift r n) :=
  Fails.bind hr fun _ _ => fails_ok _

/-- Reading a record keeps the connection orderly and takes from it. -/
theorem Net.Orderly.recvRecord {n : Net} (h : n.Orderly E started timeout) :
    Fails (IsAttemptErrorOr E) (Tls13.recvRecord (started + timeout) n) ∧
      ∀ r n', Tls13.recvRecord (started + timeout) n = .ok (r, n') →
        n'.Orderly E started timeout ∧ n'.available < n.available := by
  have htriple := triple_recvRecord n.available n ⟨h, Nat.le_refl _⟩
  refine ⟨htriple.1, fun r n' hr => ?_⟩
  rcases htriple.2 r n' hr with ⟨hsome, horderly, havailable⟩
  exact ⟨horderly, by omega⟩

/-- A receive loop fails as its reads and its passes do. -/
theorem fails_receive {σ : Type} {P : PyErr → Prop} (hP : ∀ e, IsAttemptErrorOr E e → P e)
    {step : Record → σ → Except PyErr σ} {finished : σ → Bool} {init : σ} {n₀ : Net}
    (horderly : n₀.Orderly E started timeout)
    (hstep : ∀ records s n r n', Reaches (recvRecord (started + timeout)) step finished init n₀
      records s n → finished s = false → recvRecord (started + timeout) n = .ok (r, n') →
      Fails P (step r s)) :
    Fails P (receive (started + timeout) step finished init n₀) :=
  fails_feed stuck (fun n => n.Orderly E started timeout) Net.available
    (fun _ hn => hn.recvRecord.1.mono hP) (fun _ r n' hn hr => hn.recvRecord.2 r n' hr) hstep _ []
    init n₀
    Reaches.start horderly (Nat.lt_succ_self _)

/-- A receive loop leaves the connection orderly. -/
theorem Net.Orderly.of_fed {σ : Type} {step : Record → σ → Except PyErr σ} {finished : σ → Bool}
    {s s' : σ} {n n' : Net} {records : List Record} (h : n.Orderly E started timeout)
    (hfed : Fed (Tls13.recvRecord (started + timeout)) step finished s n records s' n') :
    n'.Orderly E started timeout :=
  hfed.reaches.1.delivers.keeps (fun _ r n' hn hr => (hn.recvRecord.2 r n' hr).1) h

/-- Every call on the socket raises an `OSError` if anything, and what it leaves
    on the connection is of no consequence. -/
theorem triple_socketCall {α : Type} {r : Except PyErr α}
    (hr : Fails (fun e => e.isA .osError = true) r) (change : Net → Net)
    (hchange : ∀ n, (change n).events = n.events ∧ (change n).clock = n.clock ∧
      (change n).ticks = n.ticks ∧ (change n).settimeout = n.settimeout) (k : Nat) :
    Triple (Holds E started timeout k) (fun n => r >>= fun x => .ok (x, change n))
      (IsAttemptErrorOr E) (fun _ n => Holds E started timeout k n) := by
  refine triple_update change (hr.mono fun _ h => Or.inl (Or.inl h)) fun _ n _ hholds => ?_
  rcases hchange n with ⟨hevents, hclock, hticks, hset⟩
  rcases hholds with ⟨horderly, havailable⟩
  refine ⟨⟨?_, ?_, ?_⟩, ?_⟩
  · rw [hevents]
    exact horderly.recv
  · rw [hticks, hclock]
    exact horderly.clock
  · rw [hset]
    exact horderly.settimeout
  · rw [Net.available, hevents]
    exact havailable

theorem triple_connectAndSend {a : Attempt} (ha : a.Documented) (endpoint : Endpoint)
    {clientHello : Bytes} (hlen : clientHello.length < 65536) (k : Nat) :
    Triple (Holds E started timeout k) (connectAndSend a endpoint clientHello (started + timeout))
      (IsAttemptErrorOr E) (fun _ n => Holds E started timeout k n) := by
  -- The record of the ClientHello is built without an error, its length fitting two bytes.
  have hrecord : record contentHandshake clientHello =
      .ok (be 1 contentHandshake ++ be 2 0x0301 ++ be 2 clientHello.length ++ clientHello) := by
    rw [record, singleByte_eq _ (by decide), u16_eq clientHello.length hlen]
    rfl
  have hsocket : Triple (Holds E started timeout k) (NetM.lift
      (a.socket endpoint.family endpoint.socketType endpoint.protocol)) (IsAttemptErrorOr E)
      (fun _ n => Holds E started timeout k n) :=
    triple_socketCall (ha.socket _ _ _) id (fun _ => ⟨rfl, rfl, rfl, rfl⟩) k
  have hconnect : Triple (Holds E started timeout k) (a.connectTo endpoint.address)
      (IsAttemptErrorOr E) (fun _ n => Holds E started timeout k n) :=
    triple_socketCall (ha.connect _) (fun n => { n with peer := some endpoint.address })
      (fun _ => ⟨rfl, rfl, rfl, rfl⟩) k
  have hsend : ∀ data, Triple (Holds E started timeout k) (a.send data) (IsAttemptErrorOr E)
      (fun _ n => Holds E started timeout k n) :=
    fun data => triple_socketCall (ha.sendall data) (fun n => { n with sent := n.sent ++ data })
      (fun _ => ⟨rfl, rfl, rfl, rfl⟩) k
  refine hsocket.bind fun _ => (triple_remainingTimeout k).bind fun t₁ =>
    (triple_settimeout k t₁).bind fun _ => hconnect.bind fun _ =>
    (triple_remainingTimeout k).bind fun t₂ => (triple_settimeout k t₂).bind fun _ =>
    Triple.bind (Q := fun _ n => Holds E started timeout k n) (triple_lift ?_ fun _ _ _ h => h)
      hsend
  rw [hrecord]
  exact fails_ok _

/-- The three messages of a flight whose loops finished. -/
theorem fails_flightMessages {Cert Key : Type} {X : X509 Cert Key} {A : Aead}
    {exchange : Bytes → Except PyErr Bytes} {sessionId clientHello : Bytes} {deadline : ℚ}
    {n n' : Net} {flight : Flight} (peerIp : Str)
    (h : receiveFlight X A exchange sessionId clientHello deadline n = .ok (flight, n')) :
    Fails IsAttemptError (flightMessages clientHello peerIp flight) := by
  rcases (receiveFlight_eq_ok_iff X A _ _ _ _ _ _ _).mp h with ⟨plain, encrypted, n₁, -, -, -,
    hencrypted, -⟩
  rcases hencrypted.reaches with ⟨hreach, hfinished⟩
  rcases (gathered_invariant X hreach).inOrder.three (of_decide_eq_true hfinished)
    with ⟨ee, ct, cv, hcaptured, -⟩
  rw [flightMessages, hcaptured]
  exact fails_ok _

/-- The attempt comes as far as the early check, and the server's certificate
    has an invalid version, as the first of its chain that does not load. -/
def Attempt.ServesInvalidVersion {Cert Key : Type} (X : X509 Cert Key) (A : Aead)
    (endpoint : Endpoint) (domain : Str) (challenge : Bytes) (mask : Int) (timeout : ℚ)
    (a : Attempt) : Prop :=
  ∃ clientHello n₀ plain serverHello n₁ keys,
    buildClientHello domain challenge a.publicKey a.sessionId mask = .ok clientHello ∧
    connectAndSend a endpoint clientHello (a.net.clock a.net.ticks + timeout)
      { a.net with ticks := a.net.ticks + 1 } = .ok ((), n₀) ∧
    Fed (recvRecord (a.net.clock a.net.ticks + timeout)) helloStep HelloState.finished ⟨none, []⟩
      n₀ plain ⟨some serverHello, []⟩ n₁ ∧
    flightKeys a.exchange a.sessionId clientHello serverHello = .ok keys ∧
    SendsInvalidVersion X A keys (a.net.clock a.net.ticks + timeout) n₁

/-- The two loops of an attempt fail with an error of the attempt, or on an
    invalid version that the server sends. -/
theorem fails_receiveFlight {Cert Key : Type} {X : X509 Cert Key} (hX : X.Documented) {A : Aead}
    (hA : A.Documented) {exchange : Bytes → Except PyErr Bytes}
    (hexchange : ∀ share, Fails (fun e => e.isA .valueError = true) (exchange share))
    (sessionId clientHello : Bytes) {n₀ : Net} (hn₀ : n₀.Orderly E started timeout) :
    Fails (fun e => IsAttemptErrorOr E e ∨ (e.cls = .invalidVersion ∧ ∃ plain serverHello n₁ keys,
        Fed (recvRecord (started + timeout)) helloStep HelloState.finished ⟨none, []⟩ n₀ plain
          ⟨some serverHello, []⟩ n₁ ∧
        flightKeys exchange sessionId clientHello serverHello = .ok keys ∧
        SendsInvalidVersion X A keys (started + timeout) n₁))
      (receiveFlight X A exchange sessionId clientHello (started + timeout) n₀) := by
  refine fails_netM_bind (fails_receive (fun _ => Or.inl) hn₀ fun _ s _ r _ _ _ _ =>
    (fails_helloStep r s).mono fun _ h => Or.inl (Or.inl h)) fun hello n₁ hhello => ?_
  -- The first loop has a ServerHello, and the connection is still orderly.
  rcases (receive_eq_ok_iff _ _ _ _ _ _ _).mp hhello with ⟨plain, hfed, -⟩
  have hn₁ := hn₀.of_fed hfed
  refine fails_netM_bind (fails_netM_lift ((fails_takeServerHello hello hfed.reaches.2).mono
    fun _ h => Or.inl (Or.inl h)) _) fun serverHello n₂ htaken => ?_
  rcases (netM_lift_eq_ok_iff _ _ _ _).mp htaken with ⟨hstate, rfl⟩
  rw [(takeServerHello_eq_ok_iff _ _).mp hstate] at hfed
  refine fails_netM_bind (fails_netM_lift ((fails_flightKeys hexchange _ _ _).mono
    fun _ h => Or.inl (Or.inl h)) _) fun keys n₃ hderived => ?_
  rcases (netM_lift_eq_ok_iff _ _ _ _).mp hderived with ⟨hkeys, rfl⟩
  -- In the second loop only the early check of a Certificate lets anything else through.
  refine fails_netM_bind (fails_receive (fun _ => Or.inl) hn₁ fun records s n r n' hreach hopen hread =>
    (fails_encryptedStep hX hA (flightKeys_iv hkeys) r s).mono ?_) fun _ _ _ => fails_ok _
  rintro e (h | ⟨hcls, h⟩)
  · exact Or.inl (Or.inl h)
  · exact Or.inr ⟨hcls, plain, serverHello, n₃, keys, hfed, hkeys, records, s, n, r, n', hreach,
      hopen, hread, h⟩

/-- Whatever the peer does, the attempt returns or raises an exception that the
    search's handler names, unless a timeout cannot be set or the server sends
    an invalid version. -/
theorem fails_captureTls13Proof {Cert Key : Type} {X : X509 Cert Key} (hX : X.Documented)
    {A : Aead} (hA : A.Documented) {domain : Str} (hd : CanonicalDomain domain) {challenge : Bytes}
    (hc : challenge.length = 32) {mask : Int} (hmask : 1 ≤ mask ∧ mask ≤ 7) (endpoint : Endpoint)
    (timeout : ℚ) {a : Attempt} (ha : a.Documented)
    (htimeout : ∀ t, 0 < t → t ≤ timeout →
      Fails (fun e => e.isA .osError = true ∨ E e) (a.net.settimeout t)) :
    Fails (fun e => IsAttemptErrorOr E e ∨ (e.cls = .invalidVersion ∧
        a.ServesInvalidVersion X A endpoint domain challenge mask timeout))
      (captureTls13Proof X A endpoint domain challenge mask timeout a) := by
  rcases hd.encode with ⟨name, hname, -, hlen⟩
  have hkey := ha.publicKey
  have hsession := ha.sessionId
  let i : HelloInputs :=
    ⟨name, challenge, a.publicKey, a.sessionId, mask, hlen, hkey, by omega, hmask⟩
  -- The arguments are checked ones, so the ClientHello is built and fits a record.
  have hbuild := buildClientHello_eq_ok i domain hd hname hc
    (by change 1 ≤ a.sessionId.length; omega)
  have hstart : Holds E (a.net.clock a.net.ticks) timeout a.net.available
      { a.net with ticks := a.net.ticks + 1 } :=
    ⟨⟨ha.recv, fun k hk => ha.clock _ _ (Nat.le_of_succ_le hk), htimeout⟩, Nat.le_refl _⟩
  have hsize : (Protocol.frame Protocol.clientHello (builtHello i).encode).length < 65536 := by
    have hlen' := length_builtHello i hc
    rw [Protocol.length_frame]
    omega
  have hmask' := (validateSignatureAlgorithmsMask_eq_ok_iff (.int mask) mask).mpr ⟨rfl, hmask⟩
  -- The steps of the attempt in the order of the program.
  have hprogram : Fails (fun e => IsAttemptErrorOr E e ∨ (e.cls = .invalidVersion ∧
      a.ServesInvalidVersion X A endpoint domain challenge mask timeout))
      (captureProgram X A endpoint domain challenge mask timeout a a.net) := by
    refine fails_netM_bind (fails_netM_lift ?_ _) fun _ n hn => ?_
    · rw [hmask']
      exact fails_ok _
    rcases (netM_lift_eq_ok_iff _ _ _ _).mp hn with ⟨-, rfl⟩
    refine fails_netM_bind (fails_netM_lift ((fails_failIf_or _ _).mono fun _ => Or.inl) _)
      fun _ n hn => ?_
    rcases (netM_lift_eq_ok_iff _ _ _ _).mp hn with ⟨-, rfl⟩
    refine fails_netM_bind (fails_netM_lift ?_ _) fun clientHello n hn => ?_
    · rw [hbuild]
      exact fails_ok _
    rcases (netM_lift_eq_ok_iff _ _ _ _).mp hn with ⟨hclientHello, rfl⟩
    -- The bytes sent are the ones of the description.
    have hhello := Except.ok.inj (hbuild.symm.trans hclientHello)
    rw [hhello] at hsize
    refine fails_netM_bind (fun e he => (nomatch he)) fun _ n hn => ?_
    rcases Prod.mk.inj (Except.ok.inj hn) with ⟨rfl, rfl⟩
    have hsend := triple_connectAndSend ha endpoint hsize a.net.available _ hstart
    refine fails_netM_bind (fun e he => Or.inl (hsend.1 e he)) fun _ n₁ hsent => ?_
    have hn₁ := (hsend.2 _ _ hsent).1
    refine fails_netM_bind ((fails_receiveFlight hX hA ha.exchange _ _ hn₁).mono ?_)
      fun flight n₂ hflight => ?_
    · rintro e (h | ⟨hcls, plain, serverHello, n₂, keys, hfed, hkeys, hsends⟩)
      · exact Or.inl h
      · exact Or.inr ⟨hcls, clientHello, n₁, plain, serverHello, n₂, keys, hclientHello, hsent, hfed,
          hkeys, hsends⟩
    -- From here on the answer is parsed and its scheme is looked up.
    refine fails_netM_bind (fails_netM_lift ((fails_flightMessages _ hflight).mono fun _ h => Or.inl (Or.inl h))
      _) fun m n hn => fails_netM_bind (fails_netM_lift ?_ _) fun parsed n hn =>
        fails_netM_bind (fails_netM_lift ?_ _) fun allowed n hn =>
        fails_netM_bind (fails_netM_lift ((fails_failIf_or _ _).mono fun _ => Or.inl) _)
        fun _ _ _ => fails_ok _
    · exact (Protocol.fails_parseProof _ _ _).mono fun _ h =>
        Or.inl (Or.inl h.isVerificationError.isAttemptError)
    · rw [signatureSchemeAllowed_eq _ _ hmask]
      exact fails_ok _
  intro e he
  refine hprogram e ?_
  -- The attempt is this program, without the state of the connection.
  cases hrun : captureProgram X A endpoint domain challenge mask timeout a a.net with
  | error e' =>
      rw [captureTls13Proof, hrun] at he
      rw [← Except.error.inj he]
  | ok pair =>
      rw [captureTls13Proof, hrun] at he
      exact nomatch he

end Attempt

end Tls13

end P2CTools
