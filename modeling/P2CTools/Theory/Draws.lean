import P2CTools.Theory.Accounting

/-!
# The Search as a Lottery

What the search comes to, without its variables.

Seen from outside a search is a lottery. Each attempt is a draw, the draws are
looked at one after another, and the first that wins is the result. Whether a
draw wins is a matter of that attempt alone: its capture is put into the
context, and the candidate is verified in full. `draw` says so with no state at
all. The search has a state, in which it remembers that a first candidate was
verified under another target, what went wrong last and what was best, and
attempts overtake each other in it. `search_draws_first` says that none of this
shows: in every state of every run, what has been returned is the first winner
among the draws that have been looked at, and if nothing has been returned then
none of them wins.

## Main definitions

* `attemptAlone`, `draw`: What an attempt is worth by itself.
* `State.answer`, `State.Drawn`: What has been returned.

## Theorems

* `tryCapture_draw`, `draw_eq_none`: The search agrees with a draw.
* `search_draws_first`: The search agrees with the lottery.
-/

namespace P2CTools

open Wire Protocol
open Tls13 (Endpoint)

section Draws

variable {Cert Key : Type} (w : World Cert Key) (options : GenerationOptions)
  (context : ConnectionProof)

/-- An attempt by itself: the candidate of its capture, verified, with the
    peer's address. -/
def attemptAlone (submission : Submission) : Except PyErr (ConnectionProof × Str) := do
  let captured ← capture w context submission
  let candidate ← context.replaceProof w.lowercase captured.encodedProof
  let _ ← verifyCandidate w options candidate
  return (candidate, captured.peerIp)

/-- What an attempt is worth: nothing, unless its candidate verifies. -/
def draw (submission : Submission) : Option (ConnectionProof × Str) :=
  (attemptAlone w options context submission).toOption

/-- What the search has returned. -/
def State.answer (s : State) : Option (ConnectionProof × Str) :=
  match s.control with
  | .returned result => some (result.envelope, result.peerIp)
  | _ => none

variable {w options context} {submission : Submission} {pair : ConnectionProof × Str}
  {search search' : Search}

theorem draw_eq_some_iff : draw w options context submission = some pair ↔
    ∃ m r, capture w context submission = .ok m ∧
      context.replaceProof w.lowercase m.encodedProof = .ok pair.1 ∧
      verifyCandidate w options pair.1 = .ok r ∧ m.peerIp = pair.2 := by
  have hsome : draw w options context submission = some pair ↔
      attemptAlone w options context submission = .ok pair := by
    unfold draw
    cases attemptAlone w options context submission with
    | ok other => simp only [Except.toOption, Option.some.injEq, Except.ok.injEq]
    | error e => simp only [Except.toOption, reduceCtorEq]
  rw [hsome]
  unfold attemptAlone
  simp only [bind_eq_ok_iff, pure_eq_ok_iff]
  constructor
  · intro h
    rcases h with ⟨m, hm, candidate, hcandidate, r, hr, rfl⟩
    exact ⟨m, r, hm, hcandidate, hr, rfl⟩
  · intro h
    rcases h with ⟨m, r, hm, hcandidate, hr, hpeer⟩
    exact ⟨m, hm, pair.1, hcandidate, r, hr, by rw [hpeer]⟩

/-- What the search would return for an attempt is what the attempt is worth. -/
theorem tryCapture_draw
    (h : tryCapture w options context submission search = (.ok (some pair), search')) :
    draw w options context submission = some pair := by
  cases Tried.of_eq h with
  | won m candidate c p hcaptured hpasses hmeets =>
      rcases (verifyCandidate_ok_iff hcaptured.challenge hcaptured.parsed).mpr ⟨hpasses, hmeets⟩
        with ⟨r, hr⟩
      exact draw_eq_some_iff.mpr ⟨m, r, hcaptured.captured, hcaptured.replaced, hr, rfl⟩

/-- What the search returns nothing for is worth nothing, in whatever state the
    search looks at it. -/
theorem draw_eq_none (h : ∀ pair search',
    tryCapture w options context submission search ≠ (.ok (some pair), search')) :
    draw w options context submission = none := by
  cases hdraw : draw w options context submission with
  | none => rfl
  | some pair =>
      rcases draw_eq_some_iff.mp hdraw with ⟨m, r, hm, hcandidate, hr, -⟩
      rcases (tryCapture_returns_iff hm search).mpr ⟨pair.1, r, hcandidate, hr⟩
        with ⟨pair', search', htry⟩
      exact absurd htry (h pair' search')

variable {endpoints : List Endpoint} {s s' : State}

/-- The lottery with one more draw. -/
theorem findSome_harvested (submission : Submission) :
    (s.harvests ++ [submission]).findSome? (draw w options context) =
      (s.harvests.findSome? (draw w options context)).or (draw w options context submission) := by
  rw [List.findSome?_append, List.findSome?_singleton]

variable (w options context)

/-- What has been returned is the first winner among what was looked at. -/
def State.Drawn (s : State) : Prop :=
  s.answer = s.harvests.findSome? (draw w options context)

variable {w options context}

/-- A move keeps what has been returned, or returns the draw it looks at. -/
theorem drawn_step (hmove : Move w options context endpoints s s')
    (hs : s.Drawn w options context) : s'.Drawn w options context := by
  unfold State.Drawn at hs ⊢
  have hopen : ∀ {done : List Submission}, s.control = .harvesting done →
      s.harvests.findSome? (draw w options context) = none := by
    intro done hcontrol
    rw [← hs]
    unfold State.answer
    rw [hcontrol]
  -- An attempt that returns nothing leaves no winner.
  have hlosing : ∀ {submission : Submission} {done : List Submission},
      s.control = .harvesting done → (∀ pair search',
        tryCapture w options context submission s.search ≠ (.ok (some pair), search')) →
      (s.harvests ++ [submission]).findSome? (draw w options context) = none := by
    intro submission done hcontrol hnone
    rw [findSome_harvested, hopen hcontrol, draw_eq_none hnone]
    rfl
  cases hmove with
  -- Nothing is looked at, and nothing was returned.
  | opened hcontrol | expired hcontrol | usedUp hcontrol =>
      unfold State.answer at hs
      rw [hcontrol] at hs
      exact hs
  | slept _ hcontrol | waited _ _ hcontrol | quiet hcontrol =>
      unfold State.answer at hs
      rw [hcontrol] at hs
      exact hs
  | submitted endpoint hcontrol =>
      change s.answer = (s.afterSubmit options endpoint _ _).harvests.findSome? _
      rw [harvests_afterSubmit, hs]
  | overflowed endpoint hcontrol =>
      change none =
        (s.afterSubmit options endpoint (w.clock s.ticks) s.nextStart).harvests.findSome? _
      unfold State.answer at hs
      rw [hcontrol] at hs
      rw [harvests_afterSubmit]
      exact hs
  | won submission rest candidate peerIp search hcontrol htry =>
      change some _ = (s.afterHarvest submission).harvests.findSome? _
      rw [harvests_afterHarvest, findSome_harvested, hopen hcontrol, tryCapture_draw htry]
      rfl
  | lost submission rest search hcontrol htry =>
      change none = (s.afterHarvest submission).harvests.findSome? _
      rw [harvests_afterHarvest, hlosing hcontrol fun pair search' h => ?_]
      rw [htry] at h
      cases h
  | failed submission rest e search hcontrol htry =>
      change none = (s.afterHarvest submission).harvests.findSome? _
      rw [harvests_afterHarvest, hlosing hcontrol fun pair search' h => ?_]
      rw [htry] at h
      cases h
  | escaped submission rest e search hcontrol htry =>
      change none = (s.afterHarvest submission).harvests.findSome? _
      rw [harvests_afterHarvest, hlosing hcontrol fun pair search' h => ?_]
      rw [htry] at h
      cases h
  | reported control callback hcontrol _ hcall =>
      have hharvests : (s.afterReport (s.progressAt (w.clock s.ticks))).harvests.findSome?
          (draw w options context) = none := by
        rw [harvests_afterReport, hopen hcontrol]
      rcases hcall with ⟨-, rfl⟩ | ⟨e, -, rfl⟩
      · exact hharvests.symm
      · exact hharvests.symm
  | ended => exact hs

/-- In every state of every run, whatever the order in which the attempts are
    completed and whichever of them fail, what has been returned is the first
    winner among the attempts that have been looked at, each of them judged by
    itself; so nothing has been returned only if none of them wins. -/
theorem search_draws_first {Cert Key : Type} (w : World Cert Key) (options : GenerationOptions)
    (context : ConnectionProof) (endpoints : List Endpoint)
    (hprepare : prepare w options context = .ok endpoints) (s : State)
    (hrun : Run (Following (step w options context endpoints)) (start w) s) :
    s.answer = s.harvests.findSome? (draw w options context) := by
  have hne := endpoints_ne_nil hprepare
  have hdrawn : s.Drawn w options context := by
    refine hrun.invariant (fun t t' ht hstep => ?_) (rfl : (start w).Drawn w options context)
    rw [hstep]
    exact drawn_step (step_move hne t) ht
  exact hdrawn

/-- The session's attempt is the first winner. -/
theorem session_draws_first :
    ((sampleStep (Tls13.attemptOn (Tls13.piecesOf Tls13.sessionRecords)))^[4]
        (start (sampleWorld (Tls13.attemptOn (Tls13.piecesOf Tls13.sessionRecords))))).answer =
      ((sampleStep (Tls13.attemptOn (Tls13.piecesOf Tls13.sessionRecords)))^[4]
        (start (sampleWorld (Tls13.attemptOn (Tls13.piecesOf
          Tls13.sessionRecords))))).harvests.findSome?
        (draw (sampleWorld (Tls13.attemptOn (Tls13.piecesOf Tls13.sessionRecords))) sampleOptions
          sampleContext) :=
  search_draws_first _ sampleOptions sampleContext [sampleEndpoint] (prepare_sampleWorld _) _
    (run_iterate _ _ 4)

end Draws

end P2CTools
