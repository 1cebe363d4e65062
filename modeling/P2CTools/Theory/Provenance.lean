import P2CTools.Theory.Accounting
import P2CTools.Theory.Connections
import P2CTools.Theory.Destinations
import P2CTools.Theory.Hellos
import P2CTools.Theory.Sessions

/-!
# Where a Result Comes From

What is behind the result of a search.

A result names the address of a peer and holds a proof. Neither is checked
against the other by anyone who reads it later: a proof does not say which
address it came from. So this is settled here, over the whole run. The attempt
that was looked at last is where the result comes from. It was started on an
endpoint, and the endpoint is an address out of the one answer of the resolver,
which was found to be permitted before anything was connected to. The attempt
did connect there, and its connection ended with that peer. What was sent over
it is one record, with a hello in it that holds the key and the session id that
the attempt had drawn itself, and the proof begins with that hello. The address
that is reported is the one on which the test for private addresses was made.

## Main definitions

* `World.Answers`: An endpoint is a permitted address of the resolver's answer.
* `Fetched`: What an attempt did before its capture was complete.
* `State.Traced`: A result comes from the attempt that was looked at last.

## Theorems

* `fetched_of_capture`: A capture has gone to its endpoint.
* `traced_step`: What one move preserves.
* `result_traced`: The whole run.
-/

namespace P2CTools

open Wire
open Tls13 (Endpoint TlsProofMessages)

section Fetched

variable {Cert Key : Type}

/-- The endpoint is an address of the resolver's answer, and one that may be
    connected to. -/
def World.Answers (w : World Cert Key) (options : GenerationOptions) (endpoint : Endpoint) : Prop :=
  ∃ found address, w.addresses = .ok found ∧ address ∈ found ∧
    address.permitted w.isGlobal options.allowPrivateAddresses = true ∧ endpoint = address.endpoint

/-- What an attempt did until its connection was left as it is at the end: it
    connected to its endpoint, and what it sent there is one record, of a hello
    with what it had drawn, which the proof begins with. -/
structure Fetched (w : World Cert Key) (context : ConnectionProof) (submission : Submission)
    (m : TlsProofMessages) (final : Tls13.Net) : Prop where
  ran : ∃ challenge, context.challenge w.lowercase = .ok challenge ∧
    Tls13.captureProgram w.x509 w.aead submission.endpoint context.domain challenge
      context.signatureAlgorithmsMask submission.timeout (w.attempt submission.number)
      (w.attempt submission.number).net = .ok (m, final) ∧
    Tls13.buildClientHello context.domain challenge (w.attempt submission.number).publicKey
      (w.attempt submission.number).sessionId context.signatureAlgorithmsMask = .ok m.clientHello
  connected : (w.attempt submission.number).connect submission.endpoint.address = .ok ()
  peer : final.peer = some submission.endpoint.address
  sent : ∃ data, Tls13.record Tls13.contentHandshake m.clientHello = .ok data ∧
    (w.attempt submission.number).sendall data = .ok () ∧
    final.sent = (w.attempt submission.number).net.sent ++ data
  reported : m.peerIp = submission.endpoint.ip

variable {w : World Cert Key} {options : GenerationOptions} {context : ConnectionProof}

theorem answers_of_prepare {endpoints : List Endpoint}
    (h : prepare w options context = .ok endpoints) :
    ∀ endpoint ∈ endpoints, w.Answers options endpoint := by
  have hresolve : resolveEndpoints w.isGlobal w.addresses context.domain
      options.allowPrivateAddresses = .ok endpoints := by
    unfold prepare at h
    simp only [bind_eq_ok_iff] at h
    rcases h with ⟨_, -, _, -, _, -, _, -, _, -, _, -, hresolve⟩
    exact hresolve
  rcases (resolveEndpoints_eq_ok_iff _ _ _).mp hresolve with ⟨found, hfound, -, rfl⟩
  intro endpoint hmem
  rcases List.mem_map.mp hmem with ⟨address, haddress, rfl⟩
  -- The destinations are addresses of the answer that passed the filter.
  have hkept := (firsts_sublist _ _).subset haddress
  rw [List.mem_filter] at hkept
  exact ⟨found, address, hfound, hkept.1, hkept.2, rfl⟩

theorem peerIp_of_flightMessages {clientHello : Bytes} {peerIp : Str} {flight : Tls13.Flight}
    {m : TlsProofMessages} (h : Tls13.flightMessages clientHello peerIp flight = .ok m) :
    m.peerIp = peerIp := by
  unfold Tls13.flightMessages at h
  split at h
  · rw [← Except.ok.inj h]
  · exact absurd h (error_ne_ok _ _)

/-- A capture has gone to its endpoint, with its own hello. -/
theorem fetched_of_capture {submission : Submission} {m : TlsProofMessages}
    (h : capture w context submission = .ok m) : ∃ final, Fetched w context submission m final := by
  unfold capture at h
  rcases (bind_eq_ok_iff _ _ _).mp h with ⟨challenge, hchallenge, hcapture⟩
  unfold Tls13.captureTls13Proof at hcapture
  cases hprogram : Tls13.captureProgram w.x509 w.aead submission.endpoint context.domain challenge
      context.signatureAlgorithmsMask submission.timeout (w.attempt submission.number)
      (w.attempt submission.number).net with
  | error e =>
      rw [hprogram] at hcapture
      exact absurd hcapture (error_ne_ok _ _)
  | ok pair =>
      rcases pair with ⟨m', final⟩
      rw [hprogram] at hcapture
      have hm : m' = m := Except.ok.inj hcapture
      subst hm
      have hran := hprogram
      -- The steps of the program, of which the hello, the sending and the messages are kept.
      unfold Tls13.captureProgram at hprogram
      simp only [Tls13.netM_bind_eq_ok_iff, Tls13.netM_lift_eq_ok_iff, Tls13.netM_pure_eq_ok_iff]
        at hprogram
      rcases hprogram with ⟨_, _, ⟨-, rfl⟩, _, _, ⟨-, rfl⟩, clientHello, _, ⟨hbuild, rfl⟩, _, n₀,
        hstarted, _, n₁, hsent, flight, _, hflight, m, _, ⟨hmessages, rfl⟩, _, _, ⟨-, rfl⟩, _, _,
        ⟨-, rfl⟩, _, _, ⟨-, rfl⟩, rfl, rfl⟩
      rcases Prod.mk.inj (Except.ok.inj hstarted) with ⟨-, rfl⟩
      have hhello := Tls13.clientHello_of_flightMessages hmessages
      rcases Tls13.sent_connectAndSend hsent with ⟨hconnect, hpeer, data, hdata, hsendall, hbytes⟩
      -- Nothing is sent while the flight is received.
      rcases Tls13.read_receiveFlight hflight with ⟨k, hread⟩
      refine ⟨_, ⟨challenge, hchallenge, hran, by rw [hhello]; exact hbuild⟩, hconnect,
        hread.peer.trans hpeer, ⟨data, by rw [hhello]; exact hdata, hsendall, ?_⟩,
        peerIp_of_flightMessages hmessages⟩
      rw [hread.sent, hbytes]

end Fetched

section Traced

variable {Cert Key : Type}

/-- If the search has returned, then what the attempt that was looked at last
    came to. -/
def State.Traced (w : World Cert Key) (context : ConnectionProof) (s : State) : Prop :=
  ∀ result, s.control = .returned result → ∃ submission m,
    s.harvests.getLast? = some submission ∧ capture w context submission = .ok m ∧
      result.envelope.proof = m.encodedProof ∧ result.peerIp = m.peerIp

variable {w : World Cert Key} {options : GenerationOptions} {context : ConnectionProof}
  {endpoints : List Endpoint}

theorem traced_step {s s' : State} (hs : s.Traced w context)
    (hmove : Move w options context endpoints s s') : s'.Traced w context := by
  intro result hresult
  cases hmove with
  -- Only a won attempt returns.
  | opened | expired | usedUp | overflowed | slept | waited | lost | failed | escaped | quiet =>
      cases hresult
  | submitted endpoint hcontrol =>
      change s.control = _ at hresult
      rw [hcontrol] at hresult
      cases hresult
  | won submission rest candidate peerIp search hcontrol htry =>
      rcases (verified_of_won htry).2 with ⟨m, hm, hproof, hpeer⟩
      refine ⟨submission, m, ?_, hm, ?_⟩
      · change (s.afterHarvest submission).harvests.getLast? = _
        rw [harvests_afterHarvest, List.getLast?_concat]
      · rw [← Control.returned.inj hresult]
        exact ⟨hproof, hpeer⟩
  | reported control callback _ _ hcall =>
      -- After a report the loop goes on, or the callback has raised.
      rcases hcall with ⟨-, rfl⟩ | ⟨e, -, rfl⟩
      · cases hresult
      · cases hresult
  | ended => exact hs result hresult

/-- Every attempt of a run is started on a permitted address of the resolver's
    answer. A result comes from the attempt that was looked at last: it was one
    of those started, it did connect to its endpoint, what it sent there is one
    record with a hello of its own, which the proof begins with, and the peer
    that is reported is the address on which the test for private addresses was
    made. -/
theorem result_traced (w : World Cert Key) (options : GenerationOptions)
    (context : ConnectionProof) (endpoints : List Endpoint)
    (hprepare : prepare w options context = .ok endpoints) (s : State)
    (hrun : Run (Following (step w options context endpoints)) (start w) s) :
    (∀ submission ∈ s.starts.map Prod.fst, w.Answers options submission.endpoint) ∧
    ∀ result, s.control = .returned result → ∃ submission m final,
      s.harvests.getLast? = some submission ∧ submission ∈ s.starts.map Prod.fst ∧
      capture w context submission = .ok m ∧ Fetched w context submission m final ∧
      result.envelope.proof = m.encodedProof ∧ result.peerIp = submission.endpoint.ip ∧
      (options.allowPrivateAddresses = false → w.isGlobal result.peerIp = some true) := by
  have hne := endpoints_ne_nil hprepare
  rcases (validateOptions_eq_ok_iff options ()).mp (validateOptions_of_prepare hprepare)
    with ⟨-, -, -, ⟨hconcurrency, -⟩, -, -, hlimit⟩
  have hmoves : ∀ t t', Following (step w options context endpoints) t t' →
      Move w options context endpoints t t' := by
    intro t t' hstep
    rw [hstep]
    exact step_move hne t
  have hturning : Turning endpoints s :=
    hrun.invariant (fun t t' ht hstep => turning_step ht (hmoves t t' hstep)) (turning_start _)
  have haccounts : Accounts options s :=
    hrun.invariant (fun t t' ht hstep => accounts_step ht (hmoves t t' hstep))
      (accounts_start hconcurrency hlimit)
  have htraced : s.Traced w context := by
    refine hrun.invariant (fun t t' ht hstep => traced_step ht (hmoves t t' hstep)) ?_
    intro result hresult
    cases hresult
  have hanswers : ∀ submission ∈ s.starts.map Prod.fst, w.Answers options submission.endpoint := by
    intro submission hmem
    refine answers_of_prepare hprepare _ (hturning.inTurn.mem ?_)
    rcases List.mem_map.mp hmem with ⟨start, hstart, rfl⟩
    exact List.mem_map_of_mem hstart
  refine ⟨hanswers, ?_⟩
  intro result hresult
  rcases htraced result hresult with ⟨submission, m, hlast, hm, hproof, hpeer⟩
  -- What has been looked at is among what was started.
  have hstarted : submission ∈ s.starts.map Prod.fst :=
    haccounts.balanced.perm.subset (List.mem_append_left _ (List.mem_of_getLast? hlast))
  rcases fetched_of_capture hm with ⟨final, hfetched⟩
  rw [hfetched.reported] at hpeer
  refine ⟨submission, m, final, hlast, hstarted, hm, hfetched, hproof, hpeer, fun hprivate => ?_⟩
  rcases hanswers submission hstarted with ⟨found, address, -, -, hpermitted, hendpoint⟩
  rw [hpeer, hendpoint]
  unfold AddressInfo.permitted at hpermitted
  rw [hprivate] at hpermitted
  change w.isGlobal (ipText address.host) = some true
  cases hglobal : w.isGlobal (ipText address.host) with
  | none =>
      rw [hglobal] at hpermitted
      cases hpermitted
  | some global =>
      rw [hglobal, Option.any_some, Bool.false_or] at hpermitted
      rw [hpermitted]

end Traced

section Session

open Sessions

/-- The result of the session comes from its one attempt. -/
theorem session_traced : ∃ result submission m final,
    (shownStep^[4] (start (sampleSession.shown quietTerminal))).control = .returned result ∧
      Fetched (sampleSession.shown quietTerminal) sampleContext submission m final ∧
      result.envelope.proof = m.encodedProof ∧ result.peerIp = submission.endpoint.ip := by
  rcases shownStep_returned with ⟨result, houtcome, -⟩
  have hresult := (outcome_eq_ok_iff _ _).mp houtcome
  rcases (result_traced (sampleSession.shown quietTerminal) sampleOptions sampleContext
    [sampleEndpoint] (prepare_sampleWorld (Tls13.attemptOn (Tls13.piecesOf Tls13.sessionRecords))) _
    (run_iterate _ _ 4)).2 result hresult
    with ⟨submission, m, final, -, -, -, hfetched, hproof, hpeer, -⟩
  exact ⟨result, submission, m, final, hresult, hfetched, hproof, hpeer⟩

end Session

end P2CTools
