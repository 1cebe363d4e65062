import P2CTools.Theory.CaptureErrors
import P2CTools.Theory.Search

/-!
# What Ends a Search

An attempt that fails costs the search that attempt and nothing else, as long
as its exception is one that the handler names.

The handler names four classes. `tryCapture_failed` says which attempts stay
within them: those whose timeouts the socket accepts, whose server does not
send a certificate with an invalid version, and whose candidate, where it is
verified, does not escape the verification. `Tolerable` is that condition, on
the attempt that is looked at next and on whether the first verification is
behind. In a run whose steps all meet it the search can only end by returning,
by one of its two limits, or by an exception of the callback.

A server can break the condition. At the end of the module one does, and the
library's exception comes out of the search.

## Main definitions

* `World.Documented`: What the outside raises.
* `Tolerable`, `State.Tolerates`: The attempt does not get past the handler.
* `EndsAsIntended`: How a search may end.

## Theorems

* `fails_capture`: What an attempt raises.
* `tryCapture_failed`: What a tolerable attempt raises.
* `tryCapture_raises`: What any attempt raises.
* `step_failed`: A step over an attempt that fails.
* `search_survives_attempts`: The whole run.
* `invalid_version_ends_search`: A server that ends a search.
-/

namespace P2CTools

open Wire Protocol
open Tls13 (TlsProofMessages captureTls13Proof)

/-- The exceptions of an attempt are those that the handler names. -/
theorem isAttemptError_iff (e : PyErr) :
    IsAttemptError e ↔ attemptErrors.any e.isA = true := by
  unfold IsAttemptError attemptErrors PyErr.isA
  cases e.cls with
  | _ => decide

section Candidates

/-- A capture has sent its ClientHello, and ends by parsing its own proof. -/
theorem stages_of_capture {Cert Key : Type} {X : X509 Cert Key} {A : Tls13.Aead}
    {endpoint : Tls13.Endpoint} {domain : Str} {challenge : Bytes} {mask : Int} {timeout : ℚ}
    {a : Tls13.Attempt} {m : TlsProofMessages}
    (h : captureTls13Proof X A endpoint domain challenge mask timeout a = .ok m) :
    (∃ clientHello n n', Tls13.connectAndSend a endpoint clientHello
        (a.net.clock a.net.ticks + timeout) n = .ok ((), n')) ∧
      ∃ p, parseProof m.encodedProof domain challenge = .ok p := by
  unfold captureTls13Proof at h
  cases hprogram : Tls13.captureProgram X A endpoint domain challenge mask timeout a a.net with
  | error e =>
      rw [hprogram] at h
      exact nomatch h
  | ok pair =>
      rcases pair with ⟨m', n⟩
      rw [hprogram] at h
      have hm : m' = m := Except.ok.inj h
      subst hm
      -- The steps of the program, of which the sending and the parsing are kept.
      unfold Tls13.captureProgram at hprogram
      simp only [Tls13.netM_bind_eq_ok_iff, Tls13.netM_lift_eq_ok_iff, Tls13.netM_pure_eq_ok_iff]
        at hprogram
      rcases hprogram with ⟨_, _, ⟨-, rfl⟩, _, _, ⟨-, rfl⟩, clientHello, _, ⟨-, rfl⟩, started, n₃,
        hstarted, _, n₄, hsent, _, _, -, _, _, -, p, _, ⟨hp, -⟩, _, _, -, _, _, -, rfl, -⟩
      rcases Prod.mk.inj (Except.ok.inj hstarted) with ⟨rfl, -⟩
      exact ⟨⟨clientHello, n₃, n₄, hsent⟩, p, hp⟩

variable {Cert Key : Type} {w : World Cert Key} {options : GenerationOptions}
  {context : ConnectionProof}

/-- What a capture returns always makes a candidate whose proof parses. -/
theorem exists_captured {submission : Submission} {m : TlsProofMessages}
    (h : capture w context submission = .ok m) :
    ∃ candidate c p, Captured w context submission m candidate c p := by
  have hcaptured := h
  simp only [capture, bind_eq_ok_iff] at hcaptured
  rcases hcaptured with ⟨c, hc, hm⟩
  rcases stages_of_capture hm with ⟨-, p, hp⟩
  rcases (parseProof_eq_ok_iff _ _ _ _).mp hp with ⟨-, -, -, hsize, -⟩
  have hadmitted := context.admitted
  let fields : Fields := { context.toFields with proof := m.encodedProof }
  have hfields : Admitted fields :=
    ⟨hadmitted.version, hadmitted.domain, hadmitted.txid, hadmitted.connectionWorkTarget,
      hadmitted.inputIndex, hadmitted.rootCertificatesVersion, hadmitted.signatureAlgorithmsMask,
      hadmitted.validationTime, hsize⟩
  exact ⟨⟨fields, hfields⟩, c, p, h, (replaceProof_eq_ok_iff _ _ _ _).mpr rfl, hc, hp⟩

end Candidates

/-- The libraries, the root file and the sockets raise what they document. -/
structure World.Documented {Cert Key : Type} (w : World Cert Key) : Prop where
  x509 : w.x509.Documented
  aead : w.aead.Documented
  rootFile : Fails (fun e => e.isA .osError = true) w.rootFile
  attempt : ∀ number, (w.attempt number).Documented

section Tolerable

variable {Cert Key : Type} (w : World Cert Key) (options : GenerationOptions)
  (context : ConnectionProof)

/-- An attempt, looked at in some state of the search, does not get past the
    handler. -/
structure Tolerable (submission : Submission) (s : Search) : Prop where
  timeouts : (w.attempt submission.number).AcceptsTimeouts submission.timeout
  version : ∀ c, context.challenge w.lowercase = .ok c →
    ¬(w.attempt submission.number).ServesInvalidVersion w.x509 w.aead submission.endpoint
      context.domain c context.signatureAlgorithmsMask submission.timeout
  verification : ∀ m candidate c p, Captured w context submission m candidate c p →
    (s.preflightComplete = true →
      MeetsTarget p.connectionWorkHash context.connectionWorkTarget) →
    ¬EscapesStages w.x509 w.rootFile options.enforceRootPin context.rootCertificatesVersion
      context.validationTime p

/-- The attempt that is looked at next, if any, is tolerable. -/
def State.Tolerates (s : State) : Prop :=
  ∀ submission rest, s.control = .harvesting (submission :: rest) →
    Tolerable w options context submission s.search

variable {w options context}

/-- What an attempt raises, where setting a timeout raises an `OSError` or
    something else. -/
theorem fails_capture {E : PyErr → Prop} (hw : w.Documented) {submission : Submission}
    (htimeouts : ∀ t, 0 < t → t ≤ submission.timeout →
      Fails (fun e => e.isA .osError = true ∨ E e)
        ((w.attempt submission.number).net.settimeout t)) :
    Fails (fun e => Tls13.IsAttemptErrorOr E e ∨ (e.cls = .invalidVersion ∧
      ∃ c, context.challenge w.lowercase = .ok c ∧
        (w.attempt submission.number).ServesInvalidVersion w.x509 w.aead submission.endpoint
          context.domain c context.signatureAlgorithmsMask submission.timeout))
      (capture w context submission) := by
  rcases context.challenge_eq_ok w.lowercase with ⟨c, hc, hlen⟩
  have hdomain := (isCanonicalDomain_iff _).mp context.admitted.domain
  unfold capture
  refine Fails.bind ?_ fun c' hc' => ?_
  -- The context has a challenge.
  · rw [hc]
    exact fails_ok c
  · rw [hc, Except.ok.injEq] at hc'
    subst hc'
    refine (Tls13.fails_captureTls13Proof hw.x509 hw.aead hdomain hlen
      context.admitted.signatureAlgorithmsMask submission.endpoint submission.timeout
      (hw.attempt submission.number) htimeouts).mono fun e he => ?_
    exact he.imp_right fun hserves => ⟨hserves.1, c, hc, hserves.2⟩

/-- A tolerable attempt raises what the handler names. -/
theorem Tolerable.fails_capture (hw : w.Documented) {submission : Submission} {s : Search}
    (h : Tolerable w options context submission s) :
    Fails IsAttemptError (capture w context submission) := by
  -- Its timeouts can be set, and it is not served an invalid version.
  have htimeouts : ∀ t, 0 < t → t ≤ submission.timeout →
      Fails (fun e => e.isA .osError = true ∨ False)
        ((w.attempt submission.number).net.settimeout t) :=
    fun t hpos hle => (h.timeouts t hpos hle).mono fun _ => Or.inl
  refine (P2CTools.fails_capture hw htimeouts).mono fun e he => ?_
  rcases he with (he | he) | ⟨-, c, hc, hserves⟩
  · exact he
  · exact he.elim
  · exact absurd hserves (h.version c hc)

/-- A verification whose stages do not escape raises an error of the program. -/
theorem fails_verifyCandidate (hw : w.Documented) {candidate : ConnectionProof} {c : Bytes}
    {p : ParsedProof} (hc : candidate.challenge w.lowercase = .ok c)
    (hp : parseProof candidate.proof candidate.domain c = .ok p)
    (h : ¬EscapesStages w.x509 w.rootFile options.enforceRootPin candidate.rootCertificatesVersion
      candidate.validationTime p) :
    Fails IsVerificationError (verifyCandidate w options candidate) := by
  refine (fails_verifyConnectionProof_iff hw.x509 hw.rootFile candidate).mpr ?_
  rintro ⟨c', hc', p', hp', -, -, hescapes⟩
  rw [hc, Except.ok.injEq] at hc'
  subst hc'
  rw [hp, Except.ok.injEq] at hp'
  subst hp'
  exact h hescapes

/-- A tolerable attempt that fails does so with an exception that the handler
    names, and leaves the search with at most a better work. -/
theorem tryCapture_failed (hw : w.Documented) {submission : Submission} {s search : Search}
    {e : PyErr} (h : Tolerable w options context submission s)
    (htry : tryCapture w options context submission s = (.error e, search)) :
    IsAttemptError e ∧ (search = s ∨ ∃ work, search = s.note work) := by
  cases Tried.of_eq htry with
  | unusable _ herror =>
      refine ⟨?_, Or.inl rfl⟩
      rcases herror with herror | ⟨m, hm, herror⟩
      · exact h.fails_capture hw e herror
      · -- Once there is a capture, nothing before the verifications fails.
        rcases exists_captured hm with ⟨candidate, c, p, hcaptured⟩
        exact absurd (Or.inr ⟨m, hm, herror⟩) (hcaptured.usable e)
  | rejected m candidate c p _ hcaptured hrejected =>
      refine ⟨IsVerificationError.isAttemptError ?_, Or.inr ⟨p.connectionWorkHash, rfl⟩⟩
      have hfields := (replaceProof_eq_ok_iff _ _ _ _).mp hcaptured.replaced
      rcases hrejected with ⟨hopen, herror⟩ | ⟨-, hmeets, herror⟩
      · -- The first verification, under the easiest target.
        have hstages := h.verification m candidate c p hcaptured fun hcomplete =>
          nomatch hopen.symm.trans hcomplete
        rcases exists_easiest hcaptured.challenge hcaptured.parsed
          with ⟨easy, heasy, heasyFields, hc, hp⟩
        rw [heasy] at herror
        refine fails_verifyCandidate hw hc hp ?_ e herror
        rw [heasyFields, hfields]
        exact hstages
      -- The second verification, under the candidate's own target.
      · rw [hfields] at hmeets
        refine fails_verifyCandidate hw hcaptured.challenge hcaptured.parsed ?_ e herror
        rw [hfields]
        exact h.verification m candidate c p hcaptured fun _ => hmeets

/-- Whatever an attempt raises is named by the handler, or comes from setting a
    timeout, or from one of the unguarded calls. -/
theorem tryCapture_raises {E : PyErr → Prop} (hw : w.Documented) {submission : Submission}
    {s search : Search} {e : PyErr}
    (hset : ∀ t, Fails (fun e => e.isA .osError = true ∨ E e)
      ((w.attempt submission.number).net.settimeout t))
    (htry : tryCapture w options context submission s = (.error e, search)) :
    IsAttemptError e ∨ E e ∨ IsUnguardedError e := by
  have hverify : ∀ candidate, Fails (fun e => IsAttemptError e ∨ E e ∨ IsUnguardedError e)
      (verifyCandidate w options candidate) := fun candidate =>
    (fails_verifyConnectionProof hw.x509 hw.rootFile candidate).mono fun e he =>
      he.imp IsVerificationError.isAttemptError Or.inr
  cases Tried.of_eq htry with
  | unusable _ herror =>
      rcases herror with herror | ⟨m, hm, herror⟩
      · rcases fails_capture hw (fun t _ _ => hset t) e herror with (he | he) | ⟨hcls, -⟩
        · exact Or.inl he
        · exact Or.inr (Or.inl he)
        · exact Or.inr (Or.inr (Or.inl hcls))
      · rcases exists_captured hm with ⟨candidate, c, p, hcaptured⟩
        exact absurd (Or.inr ⟨m, hm, herror⟩) (hcaptured.usable e)
  | rejected m candidate c p _ hcaptured hrejected =>
      rcases hrejected with ⟨-, herror⟩ | ⟨-, -, herror⟩
      · rcases exists_easiest hcaptured.challenge hcaptured.parsed with ⟨easy, heasy, -⟩
        rw [heasy] at herror
        exact hverify easy e herror
      · exact hverify candidate e herror

end Tolerable

section Runs

variable {Cert Key : Type} (w : World Cert Key) (options : GenerationOptions)
  (context : ConnectionProof) (endpoints : List Tls13.Endpoint)

/-- If the search has ended with an exception, then with that of the overall
    timeout, that of the attempt limit, or one of the callback. -/
def EndsAsIntended (s : State) : Prop :=
  ∀ e, s.control = .raised e →
    (options.overallTimeout ≠ 0 ∧ e = timedOut s) ∨
    (s.exhausted options ∧ s.pending = [] ∧ e = noneMet s) ∨
    ∃ callback k report, w.progress = some callback ∧ callback k report = .error e

variable {w options context endpoints}

/-- A step over a tolerable attempt that fails notes the failure and goes on
    with the loop. -/
theorem step_failed (hw : w.Documented) {s : State} {submission : Submission}
    {rest : List Submission} {e : PyErr} {search : Search}
    (hcontrol : s.control = .harvesting (submission :: rest))
    (htolerable : Tolerable w options context submission s.search)
    (htry : tryCapture w options context submission s.search = (.error e, search)) :
    step w options context endpoints s = { s with
      control := .harvesting rest
      attemptsCompleted := s.attemptsCompleted + 1
      search := { search with lastError := some e.msg }
      pending := s.pending.filter fun other => other.number ≠ submission.number
      trace := s.trace ++ [Event.harvested submission] } := by
  have hnamed := (isAttemptError_iff e).mp (tryCapture_failed hw htolerable htry).1
  unfold step
  rw [hcontrol]
  simp only [harvestStep, htry, hnamed, if_true]

/-- A step over an attempt whose exception is not named raises that
    exception. -/
theorem step_escaped {s : State} {submission : Submission} {rest : List Submission} {e : PyErr}
    {search : Search} (hcontrol : s.control = .harvesting (submission :: rest))
    (htry : tryCapture w options context submission s.search = (.error e, search))
    (hforeign : ¬IsAttemptError e) :
    (step w options context endpoints s).control = .raised e := by
  rw [isAttemptError_iff] at hforeign
  unfold step
  rw [hcontrol]
  simp only [harvestStep, htry, hforeign, if_false, Bool.false_eq_true]

theorem endsAsIntended_step (hw : w.Documented) (hrate : options.Representable)
    (hne : endpoints ≠ []) {s s' : State}
    (hs : EndsAsIntended w options s)
    (hstep : Guarded (State.Tolerates w options context)
      (Following (step w options context endpoints)) s s') :
    EndsAsIntended w options s' := by
  rcases hstep with ⟨htolerates, rfl⟩
  have hmove : Move w options context endpoints s (step w options context endpoints s) :=
    step_move hne s
  generalize step w options context endpoints s = s' at hmove
  intro e he
  cases hmove with
  | opened | slept | waited | won | lost | failed | quiet => exact nomatch he
  | expired _ hover => exact Or.inl ⟨hover.1, (Control.raised.inj he).symm⟩
  | usedUp _ hexhausted hpending =>
      exact Or.inr (Or.inl ⟨hexhausted, hpending, (Control.raised.inj he).symm⟩)
  | submitted endpoint hcontrol => exact nomatch hcontrol.symm.trans he
  | overflowed _ _ _ _ hover => exact absurd hrate hover
  | escaped submission rest e' search hcontrol htry hforeign =>
      -- The handler names what a tolerable attempt raises.
      have hfailed := tryCapture_failed hw (htolerates submission rest hcontrol) htry
      exact nomatch hforeign.symm.trans ((isAttemptError_iff e').mp hfailed.1)
  | reported control callback _ hprogress hcall =>
      rcases hcall with ⟨-, rfl⟩ | ⟨e', hcall, rfl⟩
      · exact nomatch he
      · rw [← Control.raised.inj he]
        exact Or.inr (Or.inr ⟨callback, _, _, hprogress, hcall⟩)
  | ended => exact hs e he

/-- If the rate can be converted to a float, then in a run in which every
    attempt that is looked at is tolerable the search ends only by returning, by
    its limits or by its callback, and an attempt that fails is counted and
    noted, and changes nothing else. -/
theorem search_survives_attempts (w : World Cert Key) (hw : w.Documented)
    (options : GenerationOptions) (context : ConnectionProof) (endpoints : List Tls13.Endpoint)
    (hprepare : prepare w options context = .ok endpoints) (hrate : options.Representable)
    (s : State)
    (hrun : Run (Guarded (State.Tolerates w options context)
      (Following (step w options context endpoints))) (start w) s) :
    (∀ e, s.control = .raised e →
      (options.overallTimeout ≠ 0 ∧ e = timedOut s) ∨
      (s.exhausted options ∧ s.pending = [] ∧ e = noneMet s) ∨
      ∃ callback k report, w.progress = some callback ∧ callback k report = .error e) ∧
    ∀ submission rest e search, s.Tolerates w options context →
      s.control = .harvesting (submission :: rest) →
      tryCapture w options context submission s.search = (.error e, search) →
      ∃ best, (best = s.search ∨ ∃ work, best = s.search.note work) ∧
        step w options context endpoints s = { s with
          control := .harvesting rest
          attemptsCompleted := s.attemptsCompleted + 1
          search := { best with lastError := some e.msg }
          pending := s.pending.filter fun other => other.number ≠ submission.number
          trace := s.trace ++ [Event.harvested submission] } := by
  have hne := endpoints_ne_nil hprepare
  constructor
  · have hends : EndsAsIntended w options s :=
      hrun.invariant (fun _ _ hs hstep => endsAsIntended_step hw hrate hne hs hstep)
        fun e he => nomatch he
    exact hends
  · intro submission rest e search htolerates hcontrol htry
    have htolerable := htolerates submission rest hcontrol
    exact ⟨search, (tryCapture_failed hw htolerable htry).2,
      step_failed hw hcontrol htolerable htry⟩

end Runs

/-! ### Two servers -/

section Sample

open Tls13 (Attempt tableAead tableDecrypt SealedRecord attemptOn piecesOf helloRecords
  invalidVersionRecord)

theorem documented_tableAead (table : List SealedRecord) (itsKey : Bytes) :
    (tableAead table itsKey).Documented where
  aesGcmDecrypt _ _ _ _ := fails_error rfl
  chacha20Poly1305Decrypt key nonce ciphertext header := by
    change Fails _ (tableDecrypt table itsKey key nonce ciphertext header)
    unfold tableDecrypt
    split
    · exact fails_error rfl
    · split
      · exact fails_ok _
      · split
        · exact fails_ok _
        · exact fails_error rfl

theorem documented_attemptOn (pieces : List Bytes) : (attemptOn pieces).Documented where
  publicKey := by
    change Tls13.sessionPublicKey.length = 32
    decide +kernel
  sessionId := List.length_replicate
  exchange share := by
    change Fails _ (if share = _ then _ else _)
    split
    · exact fails_ok _
    · exact fails_error rfl
  socket _ _ _ := fails_ok ()
  connect _ := fails_ok ()
  sendall _ := fails_ok ()
  recv e he := by
    rcases List.mem_map.mp he with ⟨piece, -, h⟩
    exact nomatch h
  clock _ _ _ := Rat.le_refl

theorem documented_sampleWorld {attempt : Attempt} (h : attempt.Documented) :
    (sampleWorld attempt).Documented :=
  ⟨documented_sampleX509, documented_tableAead _ _, fails_ok rootPem, fun _ => h⟩

/-- The attempt on a server whose leaf has an invalid version. -/
def hostileAttempt : Attempt :=
  attemptOn (piecesOf (helloRecords ++ [invalidVersionRecord]))

theorem capture_hostileAttempt :
    capture (sampleWorld hostileAttempt) sampleContext sampleSubmission =
      .error ⟨.invalidVersion, "3 is not a valid X509 version"⟩ := by
  have hcapture : captureTls13Proof sampleX509 Tls13.sessionAead sampleEndpoint vectorDomain
      vectorChallenge 7 10 hostileAttempt =
        .error ⟨.invalidVersion, "3 is not a valid X509 version"⟩ := by
    decide +kernel
  unfold capture
  exact (bind_eq_error_iff _ _ _).mpr (Or.inr ⟨vectorChallenge, challenge_vectorFields _, hcapture⟩)

/-- The library's exception ends the search. -/
theorem invalid_version_ends_search :
    (sampleWorld hostileAttempt).Documented ∧
      prepare (sampleWorld hostileAttempt) sampleOptions sampleContext = .ok [sampleEndpoint] ∧
      ∃ s e, Run (Following (step (sampleWorld hostileAttempt) sampleOptions sampleContext
          [sampleEndpoint])) (start (sampleWorld hostileAttempt)) s ∧
        s.control = .raised e ∧ e.cls = .invalidVersion ∧
        ¬EndsAsIntended (sampleWorld hostileAttempt) sampleOptions s := by
  have hforeign : ¬IsAttemptError ⟨.invalidVersion, "3 is not a valid X509 version"⟩ := by
    rw [isAttemptError_iff]
    decide
  have hraised : ((sampleStep hostileAttempt)^[4] (start (sampleWorld hostileAttempt))).control =
      .raised ⟨.invalidVersion, "3 is not a valid X509 version"⟩ := by
    rw [Function.iterate_succ_apply']
    exact step_escaped (sampleStep_harvesting hostileAttempt)
      (searchM_lift_error capture_hostileAttempt) hforeign
  -- It is none of the three exceptions a search may end with.
  refine ⟨documented_sampleWorld (documented_attemptOn _), prepare_sampleWorld _, _, _,
    run_iterate _ _ 4, hraised, rfl, fun hends => ?_⟩
  rcases hends _ hraised with ⟨-, h⟩ | ⟨-, -, h⟩ | ⟨callback, _, _, h, -⟩
  · exact nomatch congrArg PyErr.cls h
  · exact nomatch congrArg PyErr.cls h
  · exact nomatch h

/-- The attempt on a server that refuses the connection. -/
def refusedAttempt : Attempt :=
  { attemptOn [] with connect := fun _ => .error ⟨.osError, "Connection refused"⟩ }

theorem documented_refusedAttempt : refusedAttempt.Documented where
  publicKey := (documented_attemptOn []).publicKey
  sessionId := (documented_attemptOn []).sessionId
  exchange := (documented_attemptOn []).exchange
  socket _ _ _ := fails_ok ()
  connect _ := fails_error rfl
  sendall _ := fails_ok ()
  recv := (documented_attemptOn []).recv
  clock := (documented_attemptOn []).clock

/-- The connection is not made, whatever is to be sent. -/
theorem connectAndSend_refusedAttempt (endpoint : Tls13.Endpoint) (clientHello : Bytes)
    (deadline : ℚ) (n n' : Tls13.Net) :
    Tls13.connectAndSend refusedAttempt endpoint clientHello deadline n ≠ .ok ((), n') := by
  intro h
  unfold Tls13.connectAndSend at h
  simp only [Tls13.netM_bind_eq_ok_iff, Tls13.netM_lift_eq_ok_iff] at h
  rcases h with ⟨_, _, -, _, _, -, _, _, -, _, _, hconnect, -⟩
  exact nomatch hconnect

theorem tolerable_refusedAttempt (submission : Submission) (s : Search) :
    Tolerable (sampleWorld refusedAttempt) sampleOptions sampleContext submission s where
  timeouts _ _ _ := fails_ok ()
  version _ _ := by
    rintro ⟨_, _, _, _, _, _, -, hsent, -⟩
    exact connectAndSend_refusedAttempt _ _ _ _ _ hsent
  verification m _ _ _ hcaptured := by
    have hcapture := hcaptured.captured
    simp only [capture, bind_eq_ok_iff] at hcapture
    rcases hcapture with ⟨_, -, hm⟩
    rcases (stages_of_capture hm).1 with ⟨_, _, _, hsent⟩
    exact absurd hsent (connectAndSend_refusedAttempt _ _ _ _ _)

theorem capture_refusedAttempt :
    capture (sampleWorld refusedAttempt) sampleContext sampleSubmission =
      .error ⟨.osError, "Connection refused"⟩ := by
  have hcapture : captureTls13Proof sampleX509 Tls13.sessionAead sampleEndpoint vectorDomain
      vectorChallenge 7 10 refusedAttempt = .error ⟨.osError, "Connection refused"⟩ := by
    decide +kernel
  unfold capture
  exact (bind_eq_error_iff _ _ _).mpr (Or.inr ⟨vectorChallenge, challenge_vectorFields _, hcapture⟩)

/-- The search goes on after the refused connection, and then ends by its
    attempt limit. -/
theorem search_survives_refusal :
    ((sampleStep refusedAttempt)^[4] (start (sampleWorld refusedAttempt))).control =
        .harvesting [] ∧
      ((sampleStep refusedAttempt)^[4] (start (sampleWorld refusedAttempt))).search.lastError =
        some "Connection refused" ∧
      EndsAsIntended (sampleWorld refusedAttempt) sampleOptions
        ((sampleStep refusedAttempt)^[6] (start (sampleWorld refusedAttempt))) := by
  have htolerates : ∀ s : State,
      s.Tolerates (sampleWorld refusedAttempt) sampleOptions sampleContext :=
    fun s submission _ _ => tolerable_refusedAttempt submission s.search
  have hsurvives := fun n => search_survives_attempts (sampleWorld refusedAttempt)
    (documented_sampleWorld documented_refusedAttempt) sampleOptions sampleContext
    [sampleEndpoint] (prepare_sampleWorld _) representable_sampleOptions _
    (guarded_iterate (sampleStep refusedAttempt) _ n fun _ _ => htolerates _)
  -- The fourth step looks at the refused attempt.
  rcases (hsurvives 3).2 sampleSubmission [] _ _ (htolerates _) (sampleStep_harvesting _)
    (searchM_lift_error capture_refusedAttempt) with ⟨best, -, hstep⟩
  have hfour : (sampleStep refusedAttempt)^[4] (start (sampleWorld refusedAttempt)) = _ :=
    (Function.iterate_succ_apply' _ _ _).trans hstep
  refine ⟨?_, ?_, (hsurvives 6).1⟩
  · rw [hfour]
  · rw [hfour]

end Sample

end P2CTools
