import P2CTools.Source.Generator
import P2CTools.Theory.Completeness
import P2CTools.Theory.Dictionary
import P2CTools.Theory.Moves
import P2CTools.Theory.Verification

/-!
# What a Search Returns

The fast path of the search agrees with full verification.

A completed capture is verified at most once. The first candidate is verified
under the easiest target, so that a misconfigured search is noticed before any
candidate wins, and a candidate that then meets its own target is not verified
again. This loses nothing: verification reads the target in one place, so what
it says under the easiest target, together with the comparison with the real
one, is what it says about the candidate itself. `tryCapture_returns_iff` is
that agreement for one capture in any state of the search, whatever happened
before.

A run returns only by such a capture, so what it returns is the context with
the capture's proof, verifies as it stands, and survives its dictionary form.

## Main definitions

* `Passes`: What verification asks apart from the target.
* `Search.note`: The best work after a capture.
* `Captured`, `Tried`: What the body of the `try` statement comes to.
* `Verified`: What is promised of a returned envelope.

## Theorems

* `verifyCandidate_ok_iff`, `verifyEasiest_ok_iff`: The two verifications.
* `tryCapture_tried`: The body of the `try` statement, case by case.
* `tryCapture_returns_iff`: When a capture is returned.
* `search_returns_verified`: The whole run.
-/

namespace P2CTools

open Wire Protocol Grammar
open Tls13 (TlsProofMessages)

section Replace

variable (L : Lowercase)

/-- Replacing the proof changes the proof and nothing else. -/
theorem replaceProof_eq_ok_iff (e e' : ConnectionProof) (proof : Bytes) :
    e.replaceProof L proof = .ok e' ↔ e'.toFields = { e.toFields with proof := proof } := by
  have hraw : { e.raw with proof := .bytes proof } =
      ({ e.toFields with proof := proof } : Fields).raw := rfl
  rw [ConnectionProof.replaceProof, construct_eq_ok_iff, hraw]
  exact ⟨fun h => (Fields.raw_inj h).symm, fun h => by rw [h]⟩

/-- Any target of the right form can take the place of an envelope's own. -/
theorem exists_replaceTarget (e : ConnectionProof) {target : Str} (h : HexOf 32 target) :
    ∃ e', e.replaceTarget L target = .ok e' ∧
      e'.toFields = { e.toFields with connectionWorkTarget := target } := by
  have hadmitted := e.admitted
  let fields : Fields := { e.toFields with connectionWorkTarget := target }
  have hfields : Admitted fields :=
    ⟨hadmitted.version, hadmitted.domain, hadmitted.txid, h, hadmitted.inputIndex,
      hadmitted.rootCertificatesVersion, hadmitted.signatureAlgorithmsMask,
      hadmitted.validationTime, hadmitted.proof⟩
  exact ⟨⟨fields, hfields⟩, (construct_eq_ok_iff L _ _).mpr rfl, rfl⟩

theorem easiestTarget_eq : easiestTarget = toHex (List.replicate 32 255).reverse := by decide

/-- Every hash meets the easiest target. -/
theorem meetsTarget_easiest {work : Bytes} (h : work.length = 32) :
    MeetsTarget work easiestTarget := by
  refine ⟨List.replicate 32 255, List.length_replicate, easiestTarget_eq, ?_⟩
  have hlt := leNat_lt work
  have hmax : leNat (List.replicate 32 255) = 256 ^ 32 - 1 := by decide
  rw [h] at hlt
  omega

end Replace

section Verifications

variable {Cert Key : Type} (w : World Cert Key) (options : GenerationOptions)

/-- What verification asks of a candidate and its parsed proof, apart from the
    target. -/
def Passes (candidate : ConnectionProof) (p : ParsedProof) : Prop :=
  p.certificateVerifyScheme ∈ maskSchemes candidate.signatureAlgorithmsMask ∧
    Authenticates w.x509 w.rootFile options.enforceRootPin candidate.rootCertificatesVersion
      candidate.validationTime candidate.domain p

variable {w options}

/-- A candidate whose proof parses verifies exactly when it passes and meets
    its target. -/
theorem verifyCandidate_ok_iff {candidate : ConnectionProof} {c : Bytes} {p : ParsedProof}
    (hc : candidate.challenge w.lowercase = .ok c)
    (hp : parseProof candidate.proof candidate.domain c = .ok p) :
    (∃ r, verifyCandidate w options candidate = .ok r) ↔
      Passes w options candidate p ∧
        MeetsTarget p.connectionWorkHash candidate.connectionWorkTarget := by
  unfold verifyCandidate Passes
  simp only [verifyConnectionProof_eq_ok_iff]
  constructor
  · rintro ⟨r, c', p', hc', hp', hmask, hmeets, hauth, -⟩
    rw [hc, Except.ok.injEq] at hc'
    subst hc'
    rw [hp, Except.ok.injEq] at hp'
    subst hp'
    exact ⟨⟨hmask, hauth⟩, hmeets⟩
  · rintro ⟨⟨hmask, hauth⟩, hmeets⟩
    exact ⟨_, c, p, hc, hp, hmask, hmeets, hauth, rfl⟩

/-- The candidate under the easiest target has the same challenge and the same
    parsed proof. -/
theorem exists_easiest {candidate : ConnectionProof} {c : Bytes} {p : ParsedProof}
    (hc : candidate.challenge w.lowercase = .ok c)
    (hp : parseProof candidate.proof candidate.domain c = .ok p) :
    ∃ easy, candidate.replaceTarget w.lowercase easiestTarget = .ok easy ∧
      easy.toFields = { candidate.toFields with connectionWorkTarget := easiestTarget } ∧
      easy.challenge w.lowercase = .ok c ∧ parseProof easy.proof easy.domain c = .ok p := by
  have htarget : HexOf 32 easiestTarget :=
    ⟨(List.replicate 32 255).reverse, by decide, easiestTarget_eq⟩
  rcases exists_replaceTarget w.lowercase candidate htarget with ⟨easy, heasy, hfields⟩
  -- The two envelopes differ in the target only, so they share everything else.
  have hproof : easy.proof = candidate.proof := by
    rw [hfields]
  have hdomain : easy.domain = candidate.domain := by
    rw [hfields]
  have htxid : easy.txid = candidate.txid := by
    rw [hfields]
  have hindex : easy.inputIndex = candidate.inputIndex := by
    rw [hfields]
  refine ⟨easy, heasy, hfields, ?_, ?_⟩
  · rw [ConnectionProof.challenge, htxid, hindex]
    exact hc
  · rw [hproof, hdomain]
    exact hp

/-- Under the easiest target a candidate verifies exactly when it passes. -/
theorem verifyEasiest_ok_iff {candidate : ConnectionProof} {c : Bytes} {p : ParsedProof}
    (hc : candidate.challenge w.lowercase = .ok c)
    (hp : parseProof candidate.proof candidate.domain c = .ok p) :
    (∃ r, (candidate.replaceTarget w.lowercase easiestTarget >>= verifyCandidate w options) =
      .ok r) ↔ Passes w options candidate p := by
  have hwork := length_connectionWorkHash hp
  rcases exists_easiest hc hp with ⟨easy, heasy, hfields, hc', hp'⟩
  rw [heasy]
  change (∃ r, verifyCandidate w options easy = .ok r) ↔ _
  rw [verifyCandidate_ok_iff hc' hp', Passes, Passes, hfields]
  exact and_iff_left (meetsTarget_easiest hwork)

end Verifications

section TryCapture

/-- The best work after a capture with some work. -/
def Search.note (s : Search) (work : Bytes) : Search :=
  if ∀ best ∈ s.bestValue, leNat work < best then
    { s with bestValue := some (leNat work), bestHash := some (toHex work.reverse) }
  else s

theorem noteWork_eq (work : Bytes) (s : Search) (h : work.length = 32) :
    noteWork work s = (.ok (), s.note work) := by
  unfold noteWork Search.note
  split
  · rw [internalHashToDisplay_eq_ok work h]
  · rfl

@[simp] theorem Search.note_preflightComplete (s : Search) (work : Bytes) :
    (s.note work).preflightComplete = s.preflightComplete := by
  unfold Search.note
  split
  · rfl
  · rfl

/-- Once the first verification is behind, marking it so changes nothing. -/
theorem Search.note_complete (s : Search) (work : Bytes) (h : s.preflightComplete = true) :
    { s.note work with preflightComplete := true } = s.note work := by
  rcases s with ⟨value, hash, text, complete⟩
  change complete = true at h
  subst h
  unfold Search.note
  split
  · rfl
  · rfl

variable {α β : Type} {m : SearchM α} {f : α → SearchM β} {s s' : Search}

theorem searchM_bind_ok {x : α} (h : m s = (.ok x, s')) : (m >>= f) s = f x s' := by
  change ExceptT.bindCont f (m s).1 (m s).2 = f x s'
  rw [h]
  rfl

theorem searchM_bind_error {e : PyErr} (h : m s = (.error e, s')) :
    (m >>= f) s = (.error e, s') := by
  change ExceptT.bindCont f (m s).1 (m s).2 = (.error e, s')
  rw [h]
  rfl

theorem searchM_lift_ok {r : Except PyErr α} {x : α} (h : r = .ok x) :
    (SearchM.lift r >>= f) s = f x s := by
  rw [h]
  rfl

theorem searchM_lift_error {r : Except PyErr α} {e : PyErr} (h : r = .error e) :
    (SearchM.lift r >>= f) s = (.error e, s) := by
  rw [h]
  rfl

variable {Cert Key : Type} (w : World Cert Key) (options : GenerationOptions)
  (context : ConnectionProof)

/-- An attempt came to a capture whose proof parses. -/
structure Captured (submission : Submission) (m : TlsProofMessages) (candidate : ConnectionProof)
    (c : Bytes) (p : ParsedProof) : Prop where
  captured : capture w context submission = .ok m
  replaced : context.replaceProof w.lowercase m.encodedProof = .ok candidate
  challenge : candidate.challenge w.lowercase = .ok c
  parsed : parseProof candidate.proof candidate.domain c = .ok p

/-- There is no capture, or its proof does not parse. -/
def Unusable (submission : Submission) (e : PyErr) : Prop :=
  capture w context submission = .error e ∨ ∃ m, capture w context submission = .ok m ∧
    ((context.replaceProof w.lowercase m.encodedProof = .error e) ∨
      ∃ candidate c, context.replaceProof w.lowercase m.encodedProof = .ok candidate ∧
        candidate.challenge w.lowercase = .ok c ∧
        parseProof candidate.proof candidate.domain c = .error e)

/-- What the body of the `try` statement can come to, with the variables it
    leaves. -/
inductive Tried (submission : Submission) (s : Search) :
    Except PyErr (Option (ConnectionProof × Str)) × Search → Prop
  | unusable (e : PyErr) (h : Unusable w context submission e) : Tried submission s (.error e, s)
  /-- A verification fails: the first one, or that of a candidate that meets
      its target. -/
  | rejected (m : TlsProofMessages) (candidate : ConnectionProof) (c : Bytes) (p : ParsedProof)
      (e : PyErr) (captured : Captured w context submission m candidate c p)
      (h : (s.preflightComplete = false ∧
          (candidate.replaceTarget w.lowercase easiestTarget >>= verifyCandidate w options) =
            .error e) ∨
        (s.preflightComplete = true ∧
          MeetsTarget p.connectionWorkHash candidate.connectionWorkTarget ∧
          verifyCandidate w options candidate = .error e)) :
      Tried submission s (.error e, s.note p.connectionWorkHash)
  | won (m : TlsProofMessages) (candidate : ConnectionProof) (c : Bytes) (p : ParsedProof)
      (captured : Captured w context submission m candidate c p)
      (passes : Passes w options candidate p)
      (meets : MeetsTarget p.connectionWorkHash candidate.connectionWorkTarget) :
      Tried submission s (.ok (some (candidate, m.peerIp)),
        { s.note p.connectionWorkHash with preflightComplete := true })
  | lost (m : TlsProofMessages) (candidate : ConnectionProof) (c : Bytes) (p : ParsedProof)
      (captured : Captured w context submission m candidate c p)
      (misses : ¬MeetsTarget p.connectionWorkHash candidate.connectionWorkTarget) :
      Tried submission s (.ok none,
        { s.note p.connectionWorkHash with preflightComplete := true, lastError := none })

variable {w options context}

/-- An attempt comes to one capture at most. -/
theorem Captured.unique {submission : Submission} {m m' : TlsProofMessages}
    {candidate candidate' : ConnectionProof} {c c' : Bytes} {p p' : ParsedProof}
    (h : Captured w context submission m candidate c p)
    (h' : Captured w context submission m' candidate' c' p') : candidate = candidate' ∧ p = p' := by
  rcases h with ⟨hm, hreplaced, hc, hp⟩
  rcases h' with ⟨hm', hreplaced', hc', hp'⟩
  rw [hm, Except.ok.injEq] at hm'
  subst hm'
  rw [hreplaced, Except.ok.injEq] at hreplaced'
  subst hreplaced'
  rw [hc, Except.ok.injEq] at hc'
  subst hc'
  exact ⟨rfl, Except.ok.inj (hp.symm.trans hp')⟩

/-- A capture whose proof parses is not unusable. -/
theorem Captured.usable {submission : Submission} {m : TlsProofMessages}
    {candidate : ConnectionProof} {c : Bytes} {p : ParsedProof}
    (h : Captured w context submission m candidate c p) (e : PyErr) :
    ¬Unusable w context submission e := by
  rcases h with ⟨hm, hreplaced, hc, hp⟩
  rintro (herror | ⟨m', hm', herror⟩)
  · rw [hm] at herror
    cases herror
  · rw [hm, Except.ok.injEq] at hm'
    subst hm'
    rcases herror with herror | ⟨candidate', c', hreplaced', hc', herror⟩
    · rw [hreplaced] at herror
      cases herror
    · rw [hreplaced, Except.ok.injEq] at hreplaced'
      subst hreplaced'
      rw [hc, Except.ok.injEq] at hc'
      subst hc'
      rw [hp] at herror
      cases herror

/-- What follows once the first verification is behind. -/
theorem tried_after_preflight {submission : Submission} {s : Search} {m : TlsProofMessages}
    {candidate : ConnectionProof} {c : Bytes} {p : ParsedProof} {verified : Bool}
    (hcaptured : Captured w context submission m candidate c p)
    (hverified : if verified = true then Passes w options candidate p
      else s.preflightComplete = true) :
    Tried w options context submission s ((do
      let meets ← SearchM.lift
        (meetsWorkTarget w.lowercase p.connectionWorkHash candidate.connectionWorkTarget)
      if meets then do
        if verified then return some (candidate, m.peerIp)
        else do
          let _ ← SearchM.lift (verifyCandidate w options candidate)
          return some (candidate, m.peerIp)
      else do
        clearError
        return none : SearchM (Option (ConnectionProof × Str)))
      { s.note p.connectionWorkHash with preflightComplete := true }) := by
  have hwork := length_connectionWorkHash hcaptured.parsed
  rcases candidate.meetsWorkTarget_eq_ok w.lowercase hwork with ⟨meets, hmeets, hiff⟩
  rw [searchM_lift_ok hmeets]
  cases meets with
  -- The candidate misses the target.
  | false => exact Tried.lost m candidate c p hcaptured fun h => nomatch hiff.mpr h
  | true =>
      -- It meets the target: the second verification is made unless the first was of the candidate
      -- itself.
      have hmeets' := hiff.mp rfl
      cases verified with
      | true => exact Tried.won m candidate c p hcaptured hverified hmeets'
      | false =>
          cases hverify : verifyCandidate w options candidate with
          | ok r =>
              have hpasses := (verifyCandidate_ok_iff hcaptured.challenge hcaptured.parsed).mp
                ⟨r, hverify⟩
              exact Tried.won m candidate c p hcaptured hpasses.1 hmeets'
          | error e =>
              rw [s.note_complete p.connectionWorkHash hverified]
              exact Tried.rejected m candidate c p e hcaptured
                (Or.inr ⟨hverified, hmeets', hverify⟩)

/-- The body of the `try` statement, case by case. -/
theorem tryCapture_tried (submission : Submission) (s : Search) :
    Tried w options context submission s (tryCapture w options context submission s) := by
  unfold tryCapture
  cases hcaptured : capture w context submission with
  | error e => exact Tried.unusable e (Or.inl hcaptured)
  | ok m =>
      rw [searchM_lift_ok rfl]
      cases hreplaced : context.replaceProof w.lowercase m.encodedProof with
      | error e => exact Tried.unusable e (Or.inr ⟨m, hcaptured, Or.inl hreplaced⟩)
      | ok candidate =>
          rw [searchM_lift_ok rfl]
          rcases candidate.challenge_eq_ok w.lowercase with ⟨c, hc, -⟩
          rw [searchM_lift_ok hc]
          cases hparsed : parseProof candidate.proof candidate.domain c with
          | error e =>
              exact Tried.unusable e (Or.inr ⟨m, hcaptured,
                Or.inr ⟨candidate, c, hreplaced, hc, hparsed⟩⟩)
          | ok p =>
              have hall : Captured w context submission m candidate c p :=
                ⟨hcaptured, hreplaced, hc, hparsed⟩
              have hwork := length_connectionWorkHash hparsed
              rw [searchM_lift_ok rfl, searchM_bind_ok (noteWork_eq _ s hwork)]
              -- The first verification is done now, or was done before.
              cases hcomplete : s.preflightComplete with
              | true =>
                  have hskip : preflight w options candidate (s.note p.connectionWorkHash) =
                      (.ok false, { s.note p.connectionWorkHash with preflightComplete := true }) := by
                    rw [preflight, if_pos (by rw [Search.note_preflightComplete, hcomplete]),
                      s.note_complete p.connectionWorkHash hcomplete]
                  rw [searchM_bind_ok hskip]
                  exact tried_after_preflight hall hcomplete
              | false =>
                  have hopen : (s.note p.connectionWorkHash).preflightComplete ≠ true := by
                    rw [Search.note_preflightComplete, hcomplete]
                    exact Bool.false_ne_true
                  cases heasy : candidate.replaceTarget w.lowercase easiestTarget >>=
                      verifyCandidate w options with
                  | error e =>
                      have hfail : preflight w options candidate (s.note p.connectionWorkHash) =
                          (.error e, s.note p.connectionWorkHash) := by
                        rw [preflight, if_neg hopen, heasy]
                      rw [searchM_bind_error hfail]
                      exact Tried.rejected m candidate c p e hall (Or.inl ⟨hcomplete, heasy⟩)
                  | ok r =>
                      have hpass : preflight w options candidate (s.note p.connectionWorkHash) =
                          (.ok true,
                            { s.note p.connectionWorkHash with preflightComplete := true }) := by
                        rw [preflight, if_neg hopen, heasy]
                      rw [searchM_bind_ok hpass]
                      exact tried_after_preflight hall
                        ((verifyEasiest_ok_iff hc hparsed).mp ⟨r, heasy⟩)

theorem Tried.of_eq {submission : Submission} {s : Search}
    {out : Except PyErr (Option (ConnectionProof × Str)) × Search}
    (h : tryCapture w options context submission s = out) :
    Tried w options context submission s out := by
  rw [← h]
  exact tryCapture_tried submission s

/-- A capture that would verify but for the target is lost. -/
theorem tryCapture_lost {submission : Submission} {m : TlsProofMessages}
    {candidate : ConnectionProof} {c : Bytes} {p : ParsedProof}
    (hcaptured : Captured w context submission m candidate c p)
    (hpasses : Passes w options candidate p)
    (hmisses : ¬MeetsTarget p.connectionWorkHash candidate.connectionWorkTarget) (s : Search) :
    ∃ search, tryCapture w options context submission s = (.ok none, search) := by
  generalize hout : tryCapture w options context submission s = out
  cases Tried.of_eq hout with
  | lost => exact ⟨_, rfl⟩
  | unusable e h => exact absurd h (hcaptured.usable e)
  | won m' candidate' c' p' hcaptured' _ hmeets =>
      rcases hcaptured.unique hcaptured' with ⟨rfl, rfl⟩
      exact absurd hmeets hmisses
  | rejected m' candidate' c' p' e hcaptured' h =>
      rcases hcaptured.unique hcaptured' with ⟨rfl, rfl⟩
      rcases h with ⟨-, herror⟩ | ⟨-, hmeets, -⟩
      -- The first verification is under the easiest target, and passes.
      · rcases (verifyEasiest_ok_iff hcaptured.challenge hcaptured.parsed).mpr hpasses
          with ⟨r, hr⟩
        rw [hr] at herror
        cases herror
      · exact absurd hmeets hmisses

/-- A capture is to be returned exactly when its candidate verifies, in every
    state of the search. -/
theorem tryCapture_returns_iff {submission : Submission} {m : TlsProofMessages}
    (hm : capture w context submission = .ok m) (s : Search) :
    (∃ pair s', tryCapture w options context submission s = (.ok (some pair), s')) ↔
      ∃ candidate r, context.replaceProof w.lowercase m.encodedProof = .ok candidate ∧
        verifyCandidate w options candidate = .ok r := by
  generalize hout : tryCapture w options context submission s = out
  have hsame : ∀ {m' : TlsProofMessages}, capture w context submission = .ok m' → m' = m :=
    fun hm' => Except.ok.inj (hm'.symm.trans hm)
  cases Tried.of_eq hout with
  | unusable e h =>
      -- Nothing was captured or parsed, so nothing verifies either.
      refine iff_of_false (fun ⟨_, _, hout⟩ => nomatch hout) ?_
      rintro ⟨candidate, r, hreplaced, hverify⟩
      rcases h with h | ⟨m', hm', h | ⟨candidate', c, h, hc, hparse⟩⟩
      · exact nomatch h.symm.trans hm
      · rw [hsame hm', hreplaced] at h
        exact nomatch h
      · rw [hsame hm', hreplaced, Except.ok.injEq] at h
        subst h
        rcases (verifyConnectionProof_eq_ok_iff w.x509 w.lowercase w.rootFile
          options.enforceRootPin candidate r).mp hverify with ⟨c', p, hc', hp, -⟩
        rw [hc, Except.ok.injEq] at hc'
        rw [← hc', hparse] at hp
        exact nomatch hp
  | rejected m' candidate c p e hcaptured h =>
      -- A verification was refused; one that passed would contradict it.
      refine iff_of_false (fun ⟨_, _, hout⟩ => nomatch hout) ?_
      rintro ⟨candidate', r, hreplaced, hverify⟩
      have hcandidate := hcaptured.replaced
      rw [hsame hcaptured.captured, hreplaced, Except.ok.injEq] at hcandidate
      subst hcandidate
      have hpasses := (verifyCandidate_ok_iff hcaptured.challenge hcaptured.parsed).mp ⟨r, hverify⟩
      rcases h with ⟨-, heasy⟩ | ⟨-, -, herror⟩
      · rcases (verifyEasiest_ok_iff hcaptured.challenge hcaptured.parsed).mpr hpasses.1
          with ⟨r', hr'⟩
        exact nomatch heasy.symm.trans hr'
      · exact nomatch herror.symm.trans hverify
  | won m' candidate c p hcaptured hpasses hmeets =>
      -- The candidate passed the stages and meets its target.
      refine iff_of_true ⟨_, _, rfl⟩ ?_
      rcases (verifyCandidate_ok_iff hcaptured.challenge hcaptured.parsed).mpr ⟨hpasses, hmeets⟩
        with ⟨r, hr⟩
      have hreplaced := hcaptured.replaced
      rw [hsame hcaptured.captured] at hreplaced
      exact ⟨candidate, r, hreplaced, hr⟩
  | lost m' candidate c p hcaptured hmisses =>
      -- A candidate that misses its target does not verify.
      refine iff_of_false (fun ⟨_, _, hout⟩ => nomatch hout) ?_
      rintro ⟨candidate', r, hreplaced, hverify⟩
      have hcandidate := hcaptured.replaced
      rw [hsame hcaptured.captured, hreplaced, Except.ok.injEq] at hcandidate
      subst hcandidate
      exact hmisses ((verifyCandidate_ok_iff hcaptured.challenge hcaptured.parsed).mp
        ⟨r, hverify⟩).2

end TryCapture

section Returns

variable {Cert Key : Type} {w : World Cert Key} {options : GenerationOptions}
  {context : ConnectionProof} {endpoints : List Tls13.Endpoint}

variable (w options context)

/-- What is promised of an envelope that a search returns. -/
structure Verified (envelope : ConnectionProof) : Prop where
  fields : envelope.toFields = { context.toFields with proof := envelope.proof }
  verifies : ∃ r, verifyCandidate w options envelope = .ok r
  readBack : ∃ entries, envelope.toDict = .ok entries ∧
    fromDict w.lowercase (.dict entries) = .ok envelope

/-- If the search has returned, then with a verified envelope. -/
def ReturnsVerified (s : State) : Prop :=
  ∀ result, s.control = .returned result → Verified w options context result.envelope

variable {w options context}

/-- A candidate that wins is the capture's, and is verified. -/
theorem verified_of_won {submission : Submission} {s search : Search}
    {pair : ConnectionProof × Str}
    (h : tryCapture w options context submission s = (.ok (some pair), search)) :
    Verified w options context pair.1 ∧ ∃ m, capture w context submission = .ok m ∧
      pair.1.proof = m.encodedProof ∧ pair.2 = m.peerIp := by
  cases Tried.of_eq h with
  | won m candidate c p hcaptured hpasses hmeets =>
      have hfields := (replaceProof_eq_ok_iff _ _ _ _).mp hcaptured.replaced
      have hproof : candidate.proof = m.encodedProof := by rw [hfields]
      have hhead := head_of_parseProof hcaptured.parsed
      refine ⟨⟨by rw [hproof]; exact hfields,
        (verifyCandidate_ok_iff hcaptured.challenge hcaptured.parsed).mpr ⟨hpasses, hmeets⟩,
        candidate.entries, (toDict_eq_ok_iff _ _).mpr ⟨hhead, rfl⟩,
        fromDict_entries w.lowercase candidate hhead⟩, m, hcaptured.captured, hproof, rfl⟩

/-- A pass of the loop over the completed attempts returns a candidate that
    wins, and no other step returns. -/
theorem step_returned {s : State} {result : GenerationResult} (hne : endpoints ≠ [])
    (h : (step w options context endpoints s).control = .returned result) :
    s.control = .returned result ∨ ∃ submission rest pair search,
      s.control = .harvesting (submission :: rest) ∧
        tryCapture w options context submission s.search = (.ok (some pair), search) ∧
        result = ⟨pair.1, s.attemptsCompleted + 1, w.clock s.ticks - s.startedAt, pair.2⟩ := by
  have hmove : Move w options context endpoints s (step w options context endpoints s) :=
    step_move hne s
  generalize step w options context endpoints s = s' at h hmove
  cases hmove with
  -- Only a pass over a completed attempt returns.
  | opened | expired | usedUp | overflowed | slept | waited | lost | failed | escaped | quiet =>
      exact nomatch h
  | submitted endpoint hcontrol => exact nomatch hcontrol.symm.trans h
  | won submission rest candidate peerIp search hcontrol htry =>
      exact Or.inr ⟨submission, rest, (candidate, peerIp), search, hcontrol, htry,
        (Control.returned.inj h).symm⟩
  | reported control callback _ _ hcall =>
      rcases hcall with ⟨-, rfl⟩ | ⟨e, -, rfl⟩
      · exact nomatch h
      · exact nomatch h
  | ended => exact Or.inl h

/-- A step over an attempt that is lost goes on with the loop. -/
theorem step_harvesting_lost {s : State} {submission : Submission} {rest : List Submission}
    {search : Search} (hcontrol : s.control = .harvesting (submission :: rest))
    (htry : tryCapture w options context submission s.search = (.ok none, search)) :
    step w options context endpoints s =
      { s.afterHarvest submission with search := search, control := .harvesting rest } := by
  unfold step
  rw [hcontrol]
  simp only [harvestStep, htry, State.afterHarvest]

/-- A step behind the last completed attempt reports. -/
theorem step_reports {s : State} {callback : Nat → GenerationProgress → Except PyErr Unit}
    (hcontrol : s.control = .harvesting []) (hprogress : w.progress = some callback)
    (hcompleted : s.attemptsCompleted ≠ 0)
    (hcall : callback s.reports (s.progressAt (w.clock s.ticks)) = .ok ()) :
    step w options context endpoints s =
      { s.afterReport (s.progressAt (w.clock s.ticks)) with control := .outer } := by
  unfold step
  rw [hcontrol]
  simp only [reportStep, hprogress, hcompleted, if_false, Nat.add_sub_cancel, hcall,
    State.afterReport]

/-- A step from a completed attempt that wins returns. -/
theorem step_harvesting_won {s : State} {submission : Submission} {rest : List Submission}
    {pair : ConnectionProof × Str} {search : Search}
    (hcontrol : s.control = .harvesting (submission :: rest))
    (htry : tryCapture w options context submission s.search = (.ok (some pair), search)) :
    (step w options context endpoints s).control = .returned
      ⟨pair.1, s.attemptsCompleted + 1, w.clock s.ticks - s.startedAt, pair.2⟩ := by
  unfold step
  rw [hcontrol]
  simp only [harvestStep, htry]

theorem returnsVerified_step {s s' : State} (hne : endpoints ≠ [])
    (hs : ReturnsVerified w options context s)
    (hstep : Following (step w options context endpoints) s s') :
    ReturnsVerified w options context s' := by
  intro result hresult
  rw [hstep] at hresult
  rcases step_returned hne hresult with h | ⟨submission, rest, pair, search, -, htry, rfl⟩
  · exact hs result h
  · exact (verified_of_won htry).1

/-- In every run, a completed capture is returned exactly when its candidate
    verifies, and whatever is returned verifies and survives its dictionary
    form. -/
theorem search_returns_verified (w : World Cert Key) (options : GenerationOptions)
    (context : ConnectionProof) (endpoints : List Tls13.Endpoint)
    (hprepare : prepare w options context = .ok endpoints) (s : State)
    (hrun : Run (Following (step w options context endpoints)) (start w) s) :
    (∀ submission rest m, s.control = .harvesting (submission :: rest) →
      capture w context submission = .ok m →
      ((∃ result, (step w options context endpoints s).control = .returned result ∧
          result.envelope.proof = m.encodedProof ∧ result.peerIp = m.peerIp) ↔
        ∃ candidate r, context.replaceProof w.lowercase m.encodedProof = .ok candidate ∧
          verifyCandidate w options candidate = .ok r)) ∧
    ∀ result, s.control = .returned result →
      result.envelope.toFields = { context.toFields with proof := result.envelope.proof } ∧
      (∃ r, verifyCandidate w options result.envelope = .ok r) ∧
      ∃ entries, result.envelope.toDict = .ok entries ∧
        fromDict w.lowercase (.dict entries) = .ok result.envelope := by
  have hne := endpoints_ne_nil hprepare
  constructor
  · intro submission rest m hcontrol hm
    rw [← tryCapture_returns_iff hm s.search]
    constructor
    -- What is returned comes from this attempt, which is the next in the pass.
    · rintro ⟨result, hresult, -⟩
      rcases step_returned hne hresult with h | ⟨submission', rest', pair, search, h, htry, -⟩
      · exact nomatch hcontrol.symm.trans h
      · rcases List.cons.inj (Control.harvesting.inj (hcontrol.symm.trans h)) with ⟨rfl, rfl⟩
        exact ⟨pair, search, htry⟩
    · rintro ⟨pair, search, htry⟩
      rcases verified_of_won htry with ⟨-, m', hm', hproof, hpeer⟩
      rw [Except.ok.inj (hm'.symm.trans hm)] at hproof hpeer
      exact ⟨_, step_harvesting_won hcontrol htry, hproof, hpeer⟩
  -- The invariant holds at the start, where nothing is returned.
  · have hreturns : ReturnsVerified w options context s :=
      hrun.invariant (fun _ _ hs hstep => returnsVerified_step hne hs hstep)
        fun result hresult => nomatch hresult
    intro result hresult
    exact ⟨(hreturns result hresult).fields, (hreturns result hresult).verifies,
      (hreturns result hresult).readBack⟩

end Returns

/-! ### A search over one address -/

section Sample

open Tls13 (Attempt Endpoint sessionAead sessionRecords sessionMessages attemptOn piecesOf)

/-- Options for one attempt. -/
def sampleOptions : GenerationOptions where
  maxAttempts := 1
  allowPrivateAddresses := true
  enforceRootPin := false

/-- The vector's claim under the easiest target. -/
def sampleContext : ConnectionProof :=
  ⟨vectorFields 0xff [], admitted_vectorFields 0xff [] (by decide)⟩

/-- A world whose resolver knows one address, where all attempts draw the
    same. -/
def sampleWorld (attempt : Attempt) : World Bytes Unit where
  x509 := sampleX509
  aead := sessionAead
  lowercase := Lowercase.ascii
  rootFile := .ok rootPem
  addresses := .ok [⟨2, 1, 6, Str.ofString "192.0.2.1", Str.ofString "('192.0.2.1', 443)"⟩]
  isGlobal _ := some false
  clock _ := 0
  attempt _ := attempt
  finished _ _ := [1]
  cancels _ := false
  stopped := List.range
  progress := none

/-- The one address of the sample. -/
def sampleEndpoint : Endpoint where
  family := 2
  socketType := 1
  protocol := 6
  address := Str.ofString "('192.0.2.1', 443)"
  ip := Str.ofString "192.0.2.1"

/-- The one attempt of the sample search. -/
def sampleSubmission : Submission :=
  ⟨1, sampleEndpoint, 10⟩

theorem loadRoots_rootPem : loadRoots sampleX509 (.ok rootPem) 1 false = .ok [rootName] := by
  have hpem : sampleX509.loadPem rootPem = .ok [rootName] := by
    simp only [sampleX509, if_true]
  unfold loadRoots
  simp only [bind_eq_ok_iff, failIf_eq_ok_iff, exists_const, handle_error_eq_ok_iff,
    pure_eq_ok_iff]
  exact ⟨rootPem, rfl, by decide, fun h => Bool.false_ne_true h.1, [rootName], hpem, by decide, (),
    by decide, rfl⟩

theorem prepare_sampleWorld (attempt : Attempt) :
    prepare (sampleWorld attempt) sampleOptions sampleContext = .ok [sampleEndpoint] := by
  have hroots : validateRootBundle sampleX509 (.ok rootPem) 1 false = .ok () := by
    rw [validateRootBundle, loadRoots_rootPem]
    rfl
  have hresolve : resolveEndpoints (fun _ => some false)
      (.ok [⟨2, 1, 6, Str.ofString "192.0.2.1", Str.ofString "('192.0.2.1', 443)"⟩]) vectorDomain
      true = .ok [sampleEndpoint] := by
    decide +kernel
  unfold prepare
  simp only [bind_eq_ok_iff, failIf_eq_ok_iff, exists_const, handle_error_eq_ok_iff]
  exact ⟨(), by decide +kernel, 7, by decide, by decide, by decide, 1800000000, by decide +kernel,
    (), hroots, hresolve⟩

/-- The same with other limits: the preparation asks no more of these than that
    they are accepted. -/
theorem prepare_sampleOptions {options : GenerationOptions}
    (hvalid : validateOptions options = .ok ()) (hprivate : options.allowPrivateAddresses = true)
    (hpin : options.enforceRootPin = false) (attempt : Attempt) :
    prepare (sampleWorld attempt) options sampleContext = .ok [sampleEndpoint] := by
  have hsample := prepare_sampleWorld attempt
  unfold prepare at hsample ⊢
  simp only [bind_eq_ok_iff] at hsample ⊢
  rcases hsample with ⟨_, -, hrest⟩
  rw [hprivate, hpin]
  exact ⟨(), hvalid, hrest⟩

theorem representable_sampleOptions : sampleOptions.Representable := by
  unfold GenerationOptions.Representable
  decide +kernel

/-- The steps of the sample search. -/
def sampleStep (attempt : Attempt) : State → State :=
  step (sampleWorld attempt) sampleOptions sampleContext [sampleEndpoint]

/-- After three steps the search looks at its attempt. -/
theorem sampleStep_harvesting (attempt : Attempt) :
    ((sampleStep attempt)^[3] (start (sampleWorld attempt))).control =
      .harvesting [sampleSubmission] := by
  rfl

/-- The candidate of the session's capture. -/
def sampleCandidate : ConnectionProof :=
  ⟨vectorFields 0xff sessionMessages.encodedProof,
    admitted_vectorFields 0xff _ (by decide +kernel)⟩

/-- The challenge does not depend on the proof. -/
theorem challenge_vectorFields {target : UInt8} {proof : Bytes}
    (h : Admitted (vectorFields target proof)) :
    ConnectionProof.challenge Lowercase.ascii ⟨vectorFields target proof, h⟩ = .ok vectorChallenge :=
  challenge_vectorEnvelope target

theorem capture_sampleWorld :
    capture (sampleWorld (attemptOn (piecesOf sessionRecords))) sampleContext sampleSubmission =
      .ok sessionMessages := by
  have hcapture : Tls13.captureTls13Proof sampleX509 sessionAead sampleEndpoint vectorDomain
      vectorChallenge 7 10 (attemptOn (piecesOf sessionRecords)) = .ok sessionMessages := by
    decide +kernel
  unfold capture
  exact (bind_eq_ok_iff _ _ _).mpr ⟨vectorChallenge, challenge_vectorFields _, hcapture⟩

/-- The session's proof is signed by the leaf. -/
theorem verifyCertificateSignature_session {p : ParsedProof}
    (hhash : p.transcriptHash = sampleTranscriptHash)
    (hsignature : p.certificateVerifySignature = sampleSignature)
    (hscheme : p.certificateVerifyScheme = 0x0403) :
    verifyCertificateSignature sampleX509 leafDer p = .ok () := by
  have hverify : sampleX509.verifyEcdsa () sampleSignature
      (certificateVerifyMessage sampleTranscriptHash) = .ok () := by
    simp only [sampleX509, and_self, if_true]
  unfold verifyCertificateSignature certificateSignature
  rw [hscheme, hhash, hsignature]
  exact hverify

/-- The session's candidate verifies as it stands. -/
theorem verifyCandidate_sampleCandidate (attempt : Attempt) :
    ∃ r, verifyCandidate (sampleWorld attempt) sampleOptions sampleCandidate = .ok r := by
  rcases Tls13.parseProof_session with ⟨p, hp, hfacts⟩
  simp only [Prod.mk.injEq] at hfacts
  rcases hfacts with ⟨-, hchain, hhash, hsignature, hscheme⟩
  have hload : loadCertificates sampleX509 p = .ok [leafDer] := by
    rw [loadCertificates, hchain]
    exact Tls13.loadCertificateChain_session
  have htarget : sampleCandidate.connectionWorkTarget = easiestTarget := by decide
  have hmeets : MeetsTarget p.connectionWorkHash sampleCandidate.connectionWorkTarget := by
    rw [htarget]
    exact meetsTarget_easiest (length_connectionWorkHash hp)
  -- The stages on the session's one certificate.
  have htimes : checkSuppliedCertificateTimes sampleX509 [leafDer] 1800000000 = .ok () := by
    decide +kernel
  have husage : checkLeafUsage sampleX509 leafDer = .ok () := by
    decide +kernel
  have hpath : verifyPath sampleX509 leafDer [] [rootName] vectorDomain 1800000000 = .ok () := by
    decide +kernel
  have hmask : p.certificateVerifyScheme ∈ maskSchemes 7 := by
    rw [hscheme]
    decide
  exact ⟨_, (verifyConnectionProof_eq_ok_iff _ _ _ _ _ _).mpr ⟨vectorChallenge, p,
    challenge_vectorFields _, hp, hmask, hmeets, ⟨leafDer, [], [rootName], hload,
      loadRoots_rootPem, htimes, husage, hpath,
      verifyCertificateSignature_session hhash hsignature hscheme⟩, rfl⟩⟩

/-- A search that looks at the session's attempt next returns its candidate,
    whatever it reports to. -/
theorem returns_sampleCandidate
    (progress : Option (Nat → GenerationProgress → Except PyErr Unit)) {s : State}
    (hcontrol : s.control = .harvesting [sampleSubmission]) :
    ∃ result, (step { sampleWorld (attemptOn (piecesOf sessionRecords)) with progress := progress }
        sampleOptions sampleContext [sampleEndpoint] s).control = .returned result ∧
      result.envelope = sampleCandidate := by
  have hcapture : capture { sampleWorld (attemptOn (piecesOf sessionRecords)) with
      progress := progress } sampleContext sampleSubmission = .ok sessionMessages :=
    capture_sampleWorld
  rcases verifyCandidate_sampleCandidate (attemptOn (piecesOf sessionRecords)) with ⟨r, hr⟩
  have hreturns : ∃ pair search, tryCapture { sampleWorld (attemptOn (piecesOf sessionRecords)) with
      progress := progress } sampleOptions sampleContext sampleSubmission s.search =
        (.ok (some pair), search) :=
    (tryCapture_returns_iff hcapture _).mpr
      ⟨sampleCandidate, r, (replaceProof_eq_ok_iff _ _ _ _).mpr rfl, hr⟩
  rcases hreturns with ⟨pair, search, htry⟩
  rcases verified_of_won htry with ⟨hverified, m, hm, hproof, -⟩
  rw [← Except.ok.inj (hcapture.symm.trans hm)] at hproof
  have hcandidate : pair.1 = sampleCandidate := by
    refine ConnectionProof.ext ?_
    rw [hverified.fields, hproof]
    rfl
  exact ⟨_, step_harvesting_won hcontrol htry, hcandidate⟩

theorem sampleStep_returned :
    ∃ result, ((sampleStep (attemptOn (piecesOf sessionRecords)))^[4]
        (start (sampleWorld (attemptOn (piecesOf sessionRecords))))).control = .returned result ∧
      result.envelope = sampleCandidate := by
  rw [Function.iterate_succ_apply']
  exact returns_sampleCandidate none (sampleStep_harvesting _)

/-- The search over the session's server returns the session's proof. -/
theorem search_session_returns :
    ∃ result, ((sampleStep (attemptOn (piecesOf sessionRecords)))^[4]
        (start (sampleWorld (attemptOn (piecesOf sessionRecords))))).control = .returned result ∧
      result.envelope.proof = sessionMessages.encodedProof ∧
      ∃ r, verifyConnectionProof sampleX509 Lowercase.ascii (.ok rootPem) false result.envelope =
        .ok r := by
  have hverified := fun n => search_returns_verified
    (sampleWorld (attemptOn (piecesOf sessionRecords))) sampleOptions sampleContext
    [sampleEndpoint] (prepare_sampleWorld _) _ (run_iterate _ (start _) n)
  have hreturned := ((hverified 3).1 sampleSubmission [] sessionMessages
    (sampleStep_harvesting _) capture_sampleWorld).mpr
  rcases verifyCandidate_sampleCandidate (attemptOn (piecesOf sessionRecords)) with ⟨r, hr⟩
  rcases hreturned ⟨sampleCandidate, r, (replaceProof_eq_ok_iff _ _ _ _).mpr rfl, hr⟩
    with ⟨result, hresult, hproof, -⟩
  -- The fourth step is the one that the equivalence speaks of.
  have hfour : ((sampleStep (attemptOn (piecesOf sessionRecords)))^[4]
      (start (sampleWorld (attemptOn (piecesOf sessionRecords))))).control =
        .returned result := by
    rw [Function.iterate_succ_apply']
    exact hresult
  exact ⟨result, hfour, hproof, ((hverified 4).2 result hfour).2.1⟩

end Sample

end P2CTools
