import P2CTools.Theory.Destinations
import P2CTools.Theory.Draws
import P2CTools.Theory.Endings
import P2CTools.Theory.SearchErrors

/-!
# The Search as a Plain Loop

The search, without its clock and its thread pool.

A program that made one attempt after the other, and looked at each before it
started the next, would need none of the machinery: no waits, no due times, no
pending attempts and no second loop. `judged` is that program, a fold over
attempts. The search does the same to the attempts it looks at, in the order in
which it comes to look at them. All that the rest of the machine does is to
decide that order, and when to give up.

With one attempt at a time there is nothing to decide about the order either.
An attempt is looked at before the next is started, so the order is that in
which attempts are started, and `plan` says what they are: the endpoints in
turn, numbered from one, with the timeout of a connection. What such a search
comes to does not depend on the clock, on how long anything takes, or on the
rate, if that is one that a float can hold.

## Main definitions

* `Verdict`, `Judged`: How a loop over attempts stands.
* `judge`, `judged`: The plain loop.
* `plan`: The attempts of a search, from its options.
* `Stopped`: Why a search gives up that no attempt has decided.
* `Agrees`: Where the search is, against the plain loop.
* `Follows`: The search is where the plain loop is.
* `State.Planned`, `State.InStep`: Which attempts are started, and one at a time.
* `Finished`: What holds of a search that has ended.

## Theorems

* `judged_concat`, `judged_append`: The plain loop goes on, or is decided.
* `follows_step`, `planned_step`, `inStep_step`: What one move preserves.
* `search_follows`: In every run the search follows the plain loop.
* `sequential_search`: What a search with one attempt at a time comes to.
* `search_exhaustive`: What a search with any number of them comes to.
-/

namespace P2CTools

open Wire
open Tls13 (Endpoint)

section Loop

/-- How a loop over attempts ends, or that it goes on. -/
inductive Verdict
  | going
  | won (candidate : ConnectionProof) (peerIp : Str)
  | escaped (e : PyErr)

/-- The variables of the plain loop. -/
structure Judged where
  verdict : Verdict
  attempts : Nat
  search : Search

/-- The plain loop before its first attempt. -/
def Judged.start : Judged :=
  ⟨.going, 0, ⟨none, none, none, false⟩⟩

variable {Cert Key : Type} (w : World Cert Key) (options : GenerationOptions)
  (context : ConnectionProof)

/-- The body of the plain loop. -/
def judgeNext (j : Judged) (submission : Submission) : Judged :=
  match tryCapture w options context submission j.search with
  | (.ok (some (candidate, peerIp)), search) => ⟨.won candidate peerIp, j.attempts + 1, search⟩
  | (.ok none, search) => ⟨.going, j.attempts + 1, search⟩
  | (.error e, search) =>
      if attemptErrors.any e.isA then
        ⟨.going, j.attempts + 1, { search with lastError := some e.msg }⟩
      else ⟨.escaped e, j.attempts + 1, search⟩

/-- One pass of it, if nothing is decided yet. -/
def judge (j : Judged) (submission : Submission) : Judged :=
  match j.verdict with
  | .going => judgeNext w options context j submission
  | _ => j

/-- The plain loop over some attempts. -/
def judged (submissions : List Submission) : Judged :=
  submissions.foldl (judge w options context) Judged.start

/-- The first attempts of a search, with one endpoint after the other. -/
def plan (endpoints : List Endpoint) (count : Nat) : List Submission :=
  (List.range count).filterMap fun k => endpoints[k % endpoints.length]?.map fun endpoint =>
    ⟨k + 1, endpoint, options.connectionTimeout⟩

variable {w options context}

theorem judged_concat (submissions : List Submission) (submission : Submission) :
    judged w options context (submissions ++ [submission]) =
      judge w options context (judged w options context submissions) submission :=
  List.foldl_concat _ _ _ _

/-- What is decided stays so. -/
theorem judged_append {submissions : List Submission}
    (h : (judged w options context submissions).verdict ≠ .going) (more : List Submission) :
    judged w options context (submissions ++ more) = judged w options context submissions := by
  have hfixed : ∀ submission, judge w options context (judged w options context submissions)
      submission = judged w options context submissions := by
    intro submission
    unfold judge
    cases hverdict : (judged w options context submissions).verdict with
    | going => exact absurd hverdict h
    | won candidate peerIp => rfl
    | escaped e => rfl
  rw [judged, List.foldl_append]
  exact List.foldl_fixed' hfixed more

/-- As long as nothing is decided, the body is run. -/
theorem judged_concat_going {submissions : List Submission} {attempts : Nat} {search : Search}
    (h : judged w options context submissions = ⟨.going, attempts, search⟩)
    (submission : Submission) : judged w options context (submissions ++ [submission]) =
      judgeNext w options context ⟨.going, attempts, search⟩ submission := by
  rw [judged_concat, h]
  rfl

theorem plan_succ (endpoints : List Endpoint) {count : Nat} {endpoint : Endpoint}
    (h : endpoints[count % endpoints.length]? = some endpoint) :
    plan options endpoints (count + 1) =
      plan options endpoints count ++ [⟨count + 1, endpoint, options.connectionTimeout⟩] := by
  unfold plan
  rw [List.range_succ, List.filterMap_append, List.filterMap_cons, h]
  rfl

/-- A shorter plan is the front of a longer one. -/
theorem plan_append (options : GenerationOptions) (endpoints : List Endpoint)
    {count count' : Nat} (h : count ≤ count') :
    ∃ more, plan options endpoints count' = plan options endpoints count ++ more := by
  obtain ⟨k, rfl⟩ := Nat.exists_eq_add_of_le h
  unfold plan
  rw [List.range_add, List.filterMap_append]
  exact ⟨_, rfl⟩

end Loop

section Follows

variable {Cert Key : Type} (w : World Cert Key) (options : GenerationOptions)
  (context : ConnectionProof)

/-- Why a search gives up that no attempt has decided, and what it raises. -/
inductive Stopped (s : State) : PyErr → Prop
  /-- The last reading of the clock has reached the overall timeout. -/
  | timedOut (k : Nat) (hread : s.ticks = k + 1) (h : s.overdue options (w.clock k)) :
      Stopped s (timedOut s)
  | usedUp (h : s.exhausted options) (hidle : s.pending = []) : Stopped s (noneMet s)
  /-- The callback has raised on the last report. -/
  | callback (callback : Nat → GenerationProgress → Except PyErr Unit)
      (report : GenerationProgress) (e : PyErr) (h : w.progress = some callback)
      (hlast : s.reported.getLast? = some report)
      (hraised : callback (s.reports - 1) report = .error e) : Stopped s e
  /-- The rate cannot be converted to a float. -/
  | overflow (h : ¬options.Representable) : Stopped s rateOverflow

/-- Where the search is, when the plain loop is at a verdict. -/
inductive Agrees (s : State) : Verdict → Prop
  | going (h : ¬s.Over) : Agrees s .going
  | stopped (e : PyErr) (h : s.control = .raised e) (why : Stopped w options s e) :
      Agrees s .going
  | won (result : GenerationResult) (h : s.control = .returned result)
      (hattempts : result.attempts = s.attemptsCompleted) :
      Agrees s (.won result.envelope result.peerIp)
  | escaped (e : PyErr) (h : s.control = .raised e) : Agrees s (.escaped e)

/-- The search is where the plain loop is after the attempts looked at. -/
structure Follows (s : State) : Prop where
  search : s.search = (judged w options context s.harvests).search
  attempts : s.attemptsCompleted = (judged w options context s.harvests).attempts
  agrees : Agrees w options s (judged w options context s.harvests).verdict

variable {w options context} {endpoints : List Endpoint} {s s' : State}

/-- A search that goes on is at a loop that goes on. -/
theorem Follows.judged_eq (hs : Follows w options context s) (hopen : ¬s.Over) :
    judged w options context s.harvests = ⟨.going, s.attemptsCompleted, s.search⟩ := by
  have hgoing : (judged w options context s.harvests).verdict = .going := by
    have hagrees := hs.agrees
    generalize (judged w options context s.harvests).verdict = verdict at hagrees ⊢
    cases hagrees with
    | going => rfl
    | stopped e h => rfl
    | won result h => exact absurd (Or.inl ⟨result, h⟩) hopen
    | escaped e h => exact absurd (Or.inr ⟨e, h⟩) hopen
  rw [hs.search, hs.attempts, ← hgoing]

/-- What looks at no attempt changes nothing in the plain loop. -/
theorem Follows.of_eq (hs : Follows w options context s) (hopen : ¬s.Over)
    (hharvests : s'.harvests = s.harvests) (hsearch : s'.search = s.search)
    (hcompleted : s'.attemptsCompleted = s.attemptsCompleted)
    (hagrees : Agrees w options s' .going) : Follows w options context s' := by
  have hjudged := hs.judged_eq hopen
  rw [← hharvests] at hjudged
  refine ⟨?_, ?_, ?_⟩
  · rw [hjudged, hsearch]
  · rw [hjudged, hcompleted]
  · rw [hjudged]
    exact hagrees

/-- An attempt that is looked at is one pass of the plain loop. -/
theorem Follows.afterHarvest (hs : Follows w options context s) (hopen : ¬s.Over)
    {submission : Submission} (hharvests : s'.harvests = s.harvests ++ [submission])
    {verdict : Verdict} {search : Search}
    (hjudge : judgeNext w options context ⟨.going, s.attemptsCompleted, s.search⟩ submission =
      ⟨verdict, s.attemptsCompleted + 1, search⟩) (hsearch : s'.search = search)
    (hcompleted : s'.attemptsCompleted = s.attemptsCompleted + 1)
    (hagrees : Agrees w options s' verdict) : Follows w options context s' := by
  have hjudged : judged w options context s'.harvests =
      ⟨verdict, s.attemptsCompleted + 1, search⟩ := by
    rw [hharvests, judged_concat_going (hs.judged_eq hopen), hjudge]
  refine ⟨?_, ?_, ?_⟩
  · rw [hjudged, hsearch]
  · rw [hjudged, hcompleted]
  · rw [hjudged]
    exact hagrees

/-- A pass of the loop over the completed attempts looks at the first of them. -/
theorem harvests_step (hne : endpoints ≠ []) {submission : Submission} {rest : List Submission}
    (hcontrol : s.control = .harvesting (submission :: rest)) :
    (step w options context endpoints s).harvests = s.harvests ++ [submission] := by
  have hmove : Move w options context endpoints s (step w options context endpoints s) :=
    step_move hne s
  generalize step w options context endpoints s = t at hmove
  cases hmove with
  | won _ _ _ _ _ h | lost _ _ _ h | failed _ _ _ _ h | escaped _ _ _ _ h =>
      rw [hcontrol] at h
      cases h
      exact harvests_afterHarvest (s := s) submission
  | opened h | expired h | usedUp h | submitted _ h | overflowed _ h | slept _ h | waited _ _ h
  | quiet h | reported _ _ h =>
      rw [hcontrol] at h
      cases h
  | ended h =>
      rw [hcontrol] at h
      rcases h with ⟨_, h⟩ | ⟨_, h⟩
      · cases h
      · cases h

/-- A search goes on at the heads of its loops. -/
theorem not_over_of (h : s.control = .outer ∨ s.control = .starting ∨
    ∃ done, s.control = .harvesting done) : ¬s.Over := by
  intro hover
  unfold State.Over at hover
  rcases h with h | h | ⟨done, h⟩
  all_goals
    rw [h] at hover
    rcases hover with ⟨_, h⟩ | ⟨_, h⟩
    · cases h
    · cases h

theorem follows_step (hs : Follows w options context s)
    (hmove : Move w options context endpoints s s') : Follows w options context s' := by
  cases hmove with
  | opened hcontrol =>
      exact hs.of_eq (not_over_of (Or.inl hcontrol)) rfl rfl rfl
        (Agrees.going (not_over_of (Or.inr (Or.inl rfl))))
  | expired hcontrol hover =>
      exact hs.of_eq (not_over_of (Or.inl hcontrol)) rfl rfl rfl
        (Agrees.stopped _ rfl (Stopped.timedOut s.ticks rfl hover))
  | usedUp hcontrol hexhausted hpending =>
      exact hs.of_eq (not_over_of (Or.inl hcontrol)) rfl rfl rfl
        (Agrees.stopped _ rfl (Stopped.usedUp hexhausted hpending))
  | submitted endpoint hcontrol =>
      exact hs.of_eq (not_over_of (Or.inr (Or.inl hcontrol))) (harvests_afterSubmit _ _ _) rfl rfl
        (Agrees.going (not_over_of (Or.inr (Or.inl hcontrol))))
  | overflowed endpoint hcontrol _ _ hrate =>
      have hharvests : (s.afterSubmit options endpoint (w.clock s.ticks) s.nextStart).harvests =
          s.harvests := harvests_afterSubmit _ _ _
      exact hs.of_eq (not_over_of (Or.inr (Or.inl hcontrol))) hharvests rfl rfl
        (Agrees.stopped _ rfl (Stopped.overflow hrate))
  | slept ticks hcontrol =>
      exact hs.of_eq (not_over_of (Or.inr (Or.inl hcontrol))) rfl rfl rfl
        (Agrees.going (not_over_of (Or.inl rfl)))
  | waited ticks done hcontrol =>
      exact hs.of_eq (not_over_of (Or.inr (Or.inl hcontrol))) rfl rfl rfl
        (Agrees.going (not_over_of (Or.inr (Or.inr ⟨_, rfl⟩))))
  -- Each of the four ways to look at an attempt is a branch of the body.
  | won submission rest candidate peerIp search hcontrol htry =>
      refine hs.afterHarvest (not_over_of (Or.inr (Or.inr ⟨_, hcontrol⟩)))
        (harvests_afterHarvest (s := s) submission) ?_ rfl rfl (Agrees.won _ rfl rfl)
      simp only [judgeNext, htry]
  | lost submission rest search hcontrol htry =>
      refine hs.afterHarvest (not_over_of (Or.inr (Or.inr ⟨_, hcontrol⟩)))
        (harvests_afterHarvest (s := s) submission) ?_ rfl rfl
        (Agrees.going (not_over_of (Or.inr (Or.inr ⟨_, rfl⟩))))
      simp only [judgeNext, htry]
  | failed submission rest e search hcontrol htry hnamed =>
      refine hs.afterHarvest (not_over_of (Or.inr (Or.inr ⟨_, hcontrol⟩)))
        (harvests_afterHarvest (s := s) submission) ?_ rfl rfl
        (Agrees.going (not_over_of (Or.inr (Or.inr ⟨_, rfl⟩))))
      simp only [judgeNext, htry, hnamed, if_true]
  | escaped submission rest e search hcontrol htry hforeign =>
      refine hs.afterHarvest (not_over_of (Or.inr (Or.inr ⟨_, hcontrol⟩)))
        (harvests_afterHarvest (s := s) submission) ?_ rfl rfl (Agrees.escaped e rfl)
      simp only [judgeNext, htry, hforeign, Bool.false_eq_true, if_false]
  | quiet hcontrol =>
      exact hs.of_eq (not_over_of (Or.inr (Or.inr ⟨_, hcontrol⟩))) rfl rfl rfl
        (Agrees.going (not_over_of (Or.inl rfl)))
  | reported control callback hcontrol hprogress hcall =>
      have hharvests := harvests_afterReport (s := s) (s.progressAt (w.clock s.ticks))
      rcases hcall with ⟨-, rfl⟩ | ⟨e, hraised, rfl⟩
      · exact hs.of_eq (not_over_of (Or.inr (Or.inr ⟨_, hcontrol⟩))) hharvests rfl rfl
          (Agrees.going (not_over_of (Or.inl rfl)))
      · refine hs.of_eq (not_over_of (Or.inr (Or.inr ⟨_, hcontrol⟩))) hharvests rfl rfl
          (Agrees.stopped e rfl (Stopped.callback callback _ e hprogress ?_ hraised))
        change (s.afterReport (s.progressAt (w.clock s.ticks))).reported.getLast? = _
        rw [reported_afterReport, List.getLast?_concat]
  | ended => exact hs

theorem follows_start : Follows w options context (start w) where
  search := rfl
  attempts := rfl
  agrees := Agrees.going (not_over_of (Or.inl rfl))

end Follows

section Sequential

variable {Cert Key : Type} {w : World Cert Key} {options : GenerationOptions}
  {context : ConnectionProof} {endpoints : List Endpoint} {s s' : State}

/-- The attempts that were started are the first of the plan. -/
def State.Planned (options : GenerationOptions) (endpoints : List Endpoint) (s : State) : Prop :=
  s.starts.map Prod.fst = plan options endpoints s.attemptsStarted

/-- What was started has been looked at in the same order, apart from what is
    pending. -/
def State.InStep (s : State) : Prop :=
  s.starts.map Prod.fst = s.harvests ++ s.pending

/-- The attempt that is started is the next one of the plan. -/
theorem planned_afterSubmit (hs : s.Planned options endpoints) (hturning : Turning endpoints s)
    (htimeout : options.overallTimeout = 0) {endpoint : Endpoint} (now nextStart : ℚ)
    (hendpoint : endpoints[s.nextEndpoint % endpoints.length]? = some endpoint) :
    (s.afterSubmit options endpoint now nextStart).Planned options endpoints := by
  have hnext : s.submission options endpoint now =
      ⟨s.attemptsStarted + 1, endpoint, options.connectionTimeout⟩ := by
    unfold State.submission attemptTimeout
    rw [if_neg (not_not.mpr htimeout)]
  rw [hturning.next, ← hturning.started] at hendpoint
  unfold State.Planned at hs ⊢
  rw [starts_afterSubmit, List.map_append, hs]
  change _ = plan options endpoints (s.attemptsStarted + 1)
  rw [plan_succ endpoints hendpoint, ← hnext]
  rfl

theorem planned_step (hs : s.Planned options endpoints) (hturning : Turning endpoints s)
    (htimeout : options.overallTimeout = 0) (hmove : Move w options context endpoints s s') :
    s'.Planned options endpoints := by
  cases hmove with
  | opened | expired | usedUp | slept | waited | quiet | ended => exact hs
  | submitted endpoint hcontrol hready hendpoint =>
      exact planned_afterSubmit hs hturning htimeout _ _ hendpoint
  | overflowed endpoint hcontrol hready hendpoint =>
      exact planned_afterSubmit hs hturning htimeout (w.clock s.ticks) s.nextStart hendpoint
  | won submission | lost submission | failed submission | escaped submission =>
      exact (congrArg (List.map Prod.fst) (starts_afterHarvest (s := s) submission)).trans hs
  | reported control =>
      exact (congrArg (List.map Prod.fst)
        (starts_afterReport (s := s) (s.progressAt (w.clock s.ticks)))).trans hs

/-- With one attempt at a time the attempt that is looked at is the one that is
    pending. -/
theorem inStep_afterHarvest (hs : s.InStep) (haccounts : Accounts options s)
    (hone : options.concurrency = 1) {submission : Submission} {rest : List Submission}
    (hcontrol : s.control = .harvesting (submission :: rest)) :
    (s.afterHarvest submission).InStep := by
  have hmem := (haccounts.open_done _ hcontrol).1 submission List.mem_cons_self
  have hroom := haccounts.room
  rw [hone] at hroom
  have hpending : s.pending = [submission] := by
    cases hcases : s.pending with
    | nil =>
        rw [hcases] at hmem
        exact absurd hmem List.not_mem_nil
    | cons other others =>
        rw [hcases, List.length_cons] at hroom
        have hnone : others = [] := List.eq_nil_of_length_eq_zero (by omega)
        rw [hcases, hnone, List.mem_singleton] at hmem
        rw [hnone, hmem]
  have hleft : (s.afterHarvest submission).pending = [] := by
    change s.pending.filter _ = []
    rw [hpending]
    simp
  unfold State.InStep at hs ⊢
  rw [starts_afterHarvest, harvests_afterHarvest, hleft, List.append_nil, hs, hpending]

theorem inStep_step (hs : s.InStep) (haccounts : Accounts options s)
    (hone : options.concurrency = 1) (hmove : Move w options context endpoints s s') :
    s'.InStep := by
  cases hmove with
  | opened | expired | usedUp | slept | waited | quiet | ended => exact hs
  | submitted endpoint hcontrol hready hendpoint =>
      unfold State.InStep at hs ⊢
      rw [starts_afterSubmit, List.map_append, harvests_afterSubmit, hs, List.append_assoc]
      rfl
  | overflowed endpoint hcontrol hready hendpoint =>
      unfold State.InStep at hs ⊢
      change (s.afterSubmit options endpoint (w.clock s.ticks) s.nextStart).starts.map _ =
        (s.afterSubmit options endpoint (w.clock s.ticks) s.nextStart).harvests ++ _
      rw [starts_afterSubmit, List.map_append, harvests_afterSubmit, hs, List.append_assoc]
      rfl
  | won submission rest candidate peerIp search hcontrol =>
      exact inStep_afterHarvest hs haccounts hone hcontrol
  | lost submission rest search hcontrol =>
      exact inStep_afterHarvest hs haccounts hone hcontrol
  | failed submission rest e search hcontrol =>
      exact inStep_afterHarvest hs haccounts hone hcontrol
  | escaped submission rest e search hcontrol =>
      exact inStep_afterHarvest hs haccounts hone hcontrol
  | reported control =>
      have hstarts := starts_afterReport (s := s) (s.progressAt (w.clock s.ticks))
      have hharvests := harvests_afterReport (s := s) (s.progressAt (w.clock s.ticks))
      change (s.afterReport _).starts.map Prod.fst = (s.afterReport _).harvests ++ s.pending
      rw [hstarts, hharvests]
      exact hs

end Sequential

section Runs

variable {Cert Key : Type}

/-- What holds of a search at any place, against the plain loop. -/
theorem follows_of_run {w : World Cert Key} {options : GenerationOptions}
    {context : ConnectionProof} {endpoints : List Endpoint} (hne : endpoints ≠ []) {s : State}
    (hrun : Run (Following (step w options context endpoints)) (start w) s) :
    Follows w options context s := by
  refine hrun.invariant (fun t t' ht hstep => ?_) follows_start
  rw [hstep]
  exact follows_step ht (step_move hne t)

/-- In every state of every run the search has done to its variables what a
    plain loop does over the attempts that have been looked at, in the order in
    which they were. It has returned or raised what that loop comes to, goes on
    if the loop does, or has given up for a reason of its own. The attempts
    that were looked at are among those started, each once. -/
theorem search_follows (w : World Cert Key) (options : GenerationOptions)
    (context : ConnectionProof) (endpoints : List Endpoint)
    (hprepare : prepare w options context = .ok endpoints) (s : State)
    (hrun : Run (Following (step w options context endpoints)) (start w) s) :
    s.search = (judged w options context s.harvests).search ∧
      s.attemptsCompleted = (judged w options context s.harvests).attempts ∧
      Agrees w options s (judged w options context s.harvests).verdict ∧
      (s.harvests.map Submission.number).Nodup ∧
      ∀ submission ∈ s.harvests, submission ∈ s.starts.map Prod.fst := by
  have hne := endpoints_ne_nil hprepare
  rcases (validateOptions_eq_ok_iff options ()).mp (validateOptions_of_prepare hprepare)
    with ⟨-, -, -, ⟨hconcurrency, -⟩, -, -, hlimit⟩
  have hfollows := follows_of_run hne hrun
  have haccounts : Accounts options s := by
    refine hrun.invariant (fun t t' ht hstep => ?_) (accounts_start hconcurrency hlimit)
    rw [hstep]
    exact accounts_step ht (step_move hne t)
  exact ⟨hfollows.search, hfollows.attempts, hfollows.agrees, haccounts.balanced.nodup_settled,
    fun submission hmem => haccounts.balanced.perm.subset (List.mem_append_left _ hmem)⟩

/-- Where a search has ended, what holds of it. -/
structure Finished (w : World Cert Key) (options : GenerationOptions) (context : ConnectionProof)
    (endpoints : List Endpoint) (s : State) : Prop where
  run : Run (Following (step w options context endpoints)) (start w) s
  ended : s.Over
  follows : Follows w options context s
  accounts : Accounts options s
  planned : s.Planned options endpoints

variable {w : World Cert Key} {options : GenerationOptions} {context : ConnectionProof}
  {endpoints : List Endpoint} {s : State}

/-- A search that is limited by its attempts only ends after some number of
    steps. -/
theorem eventually_finished (hprepare : prepare w options context = .ok endpoints)
    (hlimit : options.maxAttempts ≠ 0) (htimeout : options.overallTimeout = 0)
    (hclock : w.Passes) (hfinish : w.Finishes) : ∃ n, ∀ m ≥ n,
      Finished w options context endpoints ((step w options context endpoints)^[m] (start w)) := by
  have hne := endpoints_ne_nil hprepare
  rcases (validateOptions_eq_ok_iff options ()).mp (validateOptions_of_prepare hprepare)
    with ⟨-, -, -, ⟨hconcurrency, -⟩, -, -, hattempts⟩
  rcases eventually_over hprepare hclock (Or.inr ⟨hlimit, hfinish⟩) with ⟨n, hn⟩
  refine ⟨n, fun m hm => ?_⟩
  have hrun := run_iterate (step w options context endpoints) (start w) m
  have hkept : Accounts options ((step w options context endpoints)^[m] (start w)) ∧
      Turning endpoints ((step w options context endpoints)^[m] (start w)) ∧
      ((step w options context endpoints)^[m] (start w)).Planned options endpoints := by
    refine @Run.invariant _ _ (fun t => Accounts options t ∧ Turning endpoints t ∧
      t.Planned options endpoints) _ _ hrun (fun t t' ht hstep => ?_)
      ⟨accounts_start hconcurrency hattempts, turning_start _, rfl⟩
    rw [hstep]
    have hmove : Move w options context endpoints t (step w options context endpoints t) :=
      step_move hne t
    exact ⟨accounts_step ht.1 hmove, turning_step ht.2.1 hmove,
      planned_step ht.2.2 ht.2.1 htimeout hmove⟩
  refine ⟨hrun, ?_, follows_of_run hne hrun, hkept.1, hkept.2.2⟩
  rw [← Nat.sub_add_cancel hm, Function.iterate_add_apply, Function.iterate_fixed (step_over hn)]
  exact hn

/-- If no attempt has decided such a search, then it has used up its attempts,
    and the whole plan has been looked at. -/
theorem Finished.used_up (h : Finished w options context endpoints s)
    (hrate : options.Representable) (hlimit : options.maxAttempts ≠ 0)
    (htimeout : options.overallTimeout = 0)
    (hcallback : ∀ callback, w.progress = some callback → ∀ k report, callback k report = .ok ())
    (hverdict : (judged w options context s.harvests).verdict = .going) :
    s.control = .raised (noneMet s) ∧ s.pending = [] ∧
      s.attemptsStarted = options.maxAttempts.toNat := by
  have hagrees := h.follows.agrees
  rw [hverdict] at hagrees
  cases hagrees with
  | going hopen => exact absurd h.ended hopen
  | stopped e hcontrol why =>
      cases why with
      | timedOut k _ hover => exact absurd htimeout hover.1
      | overflow hlarge => exact absurd hrate hlarge
      | usedUp hexhausted hidle =>
          have hstarted := h.accounts.limit hlimit
          have hused := hexhausted.2
          exact ⟨hcontrol, hidle, by omega⟩
      | callback callback report _ hprogress _ hraised =>
          rw [hcallback callback hprogress] at hraised
          cases hraised

/-- What has been looked at was planned. -/
theorem Finished.mem_plan (h : Finished w options context endpoints s)
    (hlimit : options.maxAttempts ≠ 0) {submission : Submission} (hmem : submission ∈ s.harvests) :
    submission ∈ plan options endpoints options.maxAttempts.toNat := by
  have hstarted := h.accounts.limit hlimit
  have hle : s.attemptsStarted ≤ options.maxAttempts.toNat := by omega
  rcases plan_append options endpoints hle with ⟨more, hmore⟩
  rw [hmore, ← h.planned]
  exact List.mem_append_left _ (h.accounts.balanced.perm.subset (List.mem_append_left _ hmem))

/-- What the plain loop lets through is an exception of one of its attempts, and
    one that the handler does not name. -/
theorem escaped_of_judged (submissions : List Submission) {e : PyErr}
    (h : (judged w options context submissions).verdict = .escaped e) :
    attemptErrors.any e.isA = false ∧ ∃ submission ∈ submissions, ∃ search search',
      tryCapture w options context submission search = (.error e, search') := by
  induction submissions using List.reverseRecOn with
  | nil => cases h
  | append_singleton submissions submission ih =>
      by_cases hgoing : (judged w options context submissions).verdict = .going
      · rw [judged_concat, judge, hgoing] at h
        change (judgeNext w options context _ submission).verdict = _ at h
        unfold judgeNext at h
        rcases htry : tryCapture w options context submission
          (judged w options context submissions).search with ⟨e' | _ | pair, search⟩
        · rw [htry] at h
          dsimp only at h
          by_cases hnamed : attemptErrors.any e'.isA = true
          · rw [if_pos hnamed] at h
            cases h
          · rw [if_neg hnamed] at h
            rw [← Verdict.escaped.inj h]
            exact ⟨Bool.eq_false_of_not_eq_true hnamed, submission,
              List.mem_append_right _ (List.mem_singleton_self _), _, _, htry⟩
        · rw [htry] at h
          cases h
        · rw [htry] at h
          cases h
      · rw [judged_append hgoing] at h
        rcases ih h with ⟨hforeign, other, hmem, htry⟩
        exact ⟨hforeign, other, List.mem_append_left _ hmem, htry⟩

end Runs

section Ends

variable {Cert Key : Type}

/-- A search with one attempt at a time, an attempt limit and no overall
    timeout comes to what the plain loop over its plan comes to, and with the
    same variables: the first proof that verifies, the first exception that the
    handler does not name, or the error that all attempts are used up. How long
    anything takes has no part in it, nor has the rate, as long as it can be
    converted to a float. -/
theorem sequential_search (w : World Cert Key) (options : GenerationOptions)
    (context : ConnectionProof) (endpoints : List Endpoint)
    (hprepare : prepare w options context = .ok endpoints) (hrate : options.Representable)
    (hone : options.concurrency = 1) (hlimit : options.maxAttempts ≠ 0)
    (htimeout : options.overallTimeout = 0)
    (hcallback : ∀ callback, w.progress = some callback → ∀ k report, callback k report = .ok ())
    (hclock : w.Passes) (hfinish : w.Finishes) :
    ∃ n, ∀ m ≥ n, ∃ s, s = (step w options context endpoints)^[m] (start w) ∧
      ∃ final, final = judged w options context (plan options endpoints options.maxAttempts.toNat) ∧
      s.search = final.search ∧ s.attemptsCompleted = final.attempts ∧
      (∀ candidate peerIp, final.verdict = .won candidate peerIp → ∃ result,
        s.control = .returned result ∧ result.envelope = candidate ∧ result.peerIp = peerIp ∧
          result.attempts = final.attempts) ∧
      (∀ e, final.verdict = .escaped e → s.control = .raised e) ∧
      (final.verdict = .going → s.control = .raised (noneMet s) ∧
        final.attempts = options.maxAttempts.toNat) := by
  have hne := endpoints_ne_nil hprepare
  rcases (validateOptions_eq_ok_iff options ()).mp (validateOptions_of_prepare hprepare)
    with ⟨-, -, -, ⟨hconcurrency, -⟩, -, -, hattempts⟩
  rcases eventually_finished hprepare hlimit htimeout hclock hfinish with ⟨n, hn⟩
  refine ⟨n, fun m hm => ⟨_, rfl, _, rfl, ?_⟩⟩
  have hfinished := hn m hm
  generalize (step w options context endpoints)^[m] (start w) = s at hfinished
  have hordered : Accounts options s ∧ s.InStep := by
    refine @Run.invariant _ _ (fun t => Accounts options t ∧ t.InStep) _ _ hfinished.run
      (fun t t' ht hstep => ?_) ⟨accounts_start hconcurrency hattempts, rfl⟩
    rw [hstep]
    have hmove : Move w options context endpoints t (step w options context endpoints t) :=
      step_move hne t
    exact ⟨accounts_step ht.1 hmove, inStep_step ht.2 ht.1 hone hmove⟩
  have hfollows := hfinished.follows
  have hstarts : plan options endpoints s.attemptsStarted = s.harvests ++ s.pending :=
    hfinished.planned.symm.trans hordered.2
  -- The plan has been looked at, or at least as much of it as decides.
  have hfinal : judged w options context (plan options endpoints options.maxAttempts.toNat) =
      judged w options context s.harvests := by
    by_cases hverdict : (judged w options context s.harvests).verdict = .going
    · rcases hfinished.used_up hrate hlimit htimeout hcallback hverdict with ⟨-, hidle, hall⟩
      rw [← hall, hstarts, hidle, List.append_nil]
    · have hstarted := hfinished.accounts.limit hlimit
      have hle : s.attemptsStarted ≤ options.maxAttempts.toNat := by omega
      rcases plan_append options endpoints hle with ⟨more, hmore⟩
      rw [hmore, hstarts, List.append_assoc, judged_append hverdict]
  rw [hfinal]
  have hagrees := hfollows.agrees
  refine ⟨hfollows.search, hfollows.attempts, ?_, ?_, ?_⟩
  · intro candidate peerIp hverdict
    rw [hverdict] at hagrees
    cases hagrees with
    | won result hcontrol hcount =>
        exact ⟨result, hcontrol, rfl, rfl, hcount.trans hfollows.attempts⟩
  · intro e hverdict
    rw [hverdict] at hagrees
    cases hagrees with
    | escaped _ hcontrol => exact hcontrol
  · intro hverdict
    rcases hfinished.used_up hrate hlimit htimeout hcallback hverdict with ⟨hcontrol, hidle, hall⟩
    refine ⟨hcontrol, ?_⟩
    -- Each attempt that was started has been looked at.
    have hlength := hfinished.accounts.balanced.length_eq
    rw [hidle, List.length_nil, List.length_map, ← hfinished.accounts.started] at hlength
    rw [← hfollows.attempts, hfinished.accounts.completed]
    omega

/-- Setting a timeout raises an `OSError`, or refuses the number. -/
def World.SetsTimeouts (w : World Cert Key) : Prop :=
  ∀ number t, Fails (fun e => e.isA .osError = true ∨ e.cls = .overflowError ∨ e.cls = .valueError)
    ((w.attempt number).net.settimeout t)

/-- No attempt raises an exception of the class in which the search itself
    gives up. -/
theorem tryCapture_not_generationError {w : World Cert Key} {options : GenerationOptions}
    {context : ConnectionProof} (hw : w.Documented) (hset : w.SetsTimeouts)
    {submission : Submission} {search search' : Search} {e : PyErr}
    (htry : tryCapture w options context submission search = (.error e, search')) :
    e.cls ≠ .generationError := by
  intro hcls
  have hraises := tryCapture_raises hw (hset submission.number) htry
  unfold IsAttemptError IsUnguardedError IsExtensionsError PyErr.isA at hraises
  rw [hcls] at hraises
  revert hraises
  decide

/-- A search that is limited by its attempts only, with any number of them at a
    time, ends in one of three ways. It returns what an attempt of its plan has
    won. Or an exception that one of these attempts raised has got past the
    handler, and it is not of the class in which the search gives up. Or the
    search says that no proof met the target, and it says so only if none of its
    attempts, each judged by itself, would have won. -/
theorem search_exhaustive (w : World Cert Key) (hw : w.Documented) (hset : w.SetsTimeouts)
    (options : GenerationOptions) (context : ConnectionProof) (endpoints : List Endpoint)
    (hprepare : prepare w options context = .ok endpoints) (hrate : options.Representable)
    (hlimit : options.maxAttempts ≠ 0) (htimeout : options.overallTimeout = 0)
    (hcallback : ∀ callback, w.progress = some callback → ∀ k report, callback k report = .ok ())
    (hclock : w.Passes) (hfinish : w.Finishes) :
    ∃ n, ∀ m ≥ n, ∃ s, s = (step w options context endpoints)^[m] (start w) ∧
      ((∃ result, s.control = .returned result ∧
          ∃ submission ∈ plan options endpoints options.maxAttempts.toNat,
            draw w options context submission = some (result.envelope, result.peerIp)) ∨
        (∃ e, s.control = .raised e ∧ e.cls ≠ .generationError ∧
          attemptErrors.any e.isA = false ∧
          ∃ submission ∈ plan options endpoints options.maxAttempts.toNat, submission ∈ s.harvests ∧
            ∃ search search', tryCapture w options context submission search =
              (.error e, search')) ∨
        (s.control = .raised (noneMet s) ∧
          ∀ submission ∈ plan options endpoints options.maxAttempts.toNat,
            draw w options context submission = none)) := by
  have hne := endpoints_ne_nil hprepare
  rcases eventually_finished hprepare hlimit htimeout hclock hfinish with ⟨n, hn⟩
  refine ⟨n, fun m hm => ⟨_, rfl, ?_⟩⟩
  have hfinished := hn m hm
  generalize (step w options context endpoints)^[m] (start w) = s at hfinished
  have hdrawn : s.Drawn w options context := by
    refine hfinished.run.invariant (fun t t' ht hstep => ?_)
      (rfl : (start w).Drawn w options context)
    rw [hstep]
    exact drawn_step (step_move hne t) ht
  unfold State.Drawn at hdrawn
  cases hverdict : (judged w options context s.harvests).verdict with
  | going =>
      rcases hfinished.used_up hrate hlimit htimeout hcallback hverdict with ⟨hcontrol, hidle, hall⟩
      refine Or.inr (Or.inr ⟨hcontrol, fun submission hmem => ?_⟩)
      -- The whole plan has been looked at, and nothing was returned.
      have hnone : s.answer = none := by
        unfold State.answer
        rw [hcontrol]
      rw [hnone, eq_comm, List.findSome?_eq_none_iff] at hdrawn
      rw [← hall, ← hfinished.planned] at hmem
      have hperm := hfinished.accounts.balanced.perm
      rw [hidle, List.append_nil] at hperm
      exact hdrawn submission (hperm.symm.subset hmem)
  | won candidate peerIp =>
      have hagrees := hfinished.follows.agrees
      rw [hverdict] at hagrees
      cases hagrees with
      | won result hcontrol =>
          have hsome : s.answer = some (result.envelope, result.peerIp) := by
            unfold State.answer
            rw [hcontrol]
          rw [hsome] at hdrawn
          rcases List.exists_of_findSome?_eq_some hdrawn.symm with ⟨submission, hmem, hdraw⟩
          exact Or.inl ⟨result, hcontrol, submission, hfinished.mem_plan hlimit hmem, hdraw⟩
  | escaped e =>
      have hagrees := hfinished.follows.agrees
      rw [hverdict] at hagrees
      cases hagrees with
      | escaped _ hcontrol =>
          rcases escaped_of_judged _ hverdict with
            ⟨hforeign, submission, hmem, search, search', htry⟩
          exact Or.inr (Or.inl ⟨e, hcontrol, tryCapture_not_generationError hw hset htry, hforeign,
            submission, hfinished.mem_plan hlimit hmem, hmem, search, search', htry⟩)

end Ends

section Samples

open Tls13 (attemptOn piecesOf sessionRecords)

/-- The search over the session's server has looked at its one attempt and has
    returned, and the plain loop over that attempt is won with the same result
    and the same variables. -/
theorem session_search_follows : ∃ s result,
    s = (sampleStep (attemptOn (piecesOf sessionRecords)))^[4]
        (start (sampleWorld (attemptOn (piecesOf sessionRecords)))) ∧
      s.harvests = [sampleSubmission] ∧ s.control = .returned result ∧
      (judged (sampleWorld (attemptOn (piecesOf sessionRecords))) sampleOptions sampleContext
        [sampleSubmission]).verdict = .won result.envelope result.peerIp ∧
      s.search = (judged (sampleWorld (attemptOn (piecesOf sessionRecords))) sampleOptions
        sampleContext [sampleSubmission]).search := by
  have hharvests : ((sampleStep (attemptOn (piecesOf sessionRecords)))^[4]
      (start (sampleWorld (attemptOn (piecesOf sessionRecords))))).harvests =
        [sampleSubmission] := by
    rw [Function.iterate_succ_apply']
    exact harvests_step (List.cons_ne_nil _ _) (sampleStep_harvesting _)
  rcases sampleStep_returned with ⟨result, hresult, -⟩
  rcases search_follows (sampleWorld (attemptOn (piecesOf sessionRecords))) sampleOptions
    sampleContext [sampleEndpoint] (prepare_sampleWorld _) _ (run_iterate (sampleStep _) _ 4)
    with ⟨hsearch, -, hagrees, -⟩
  rw [hharvests] at hsearch hagrees
  refine ⟨_, result, rfl, hharvests, hresult, ?_, hsearch⟩
  generalize (judged (sampleWorld (attemptOn (piecesOf sessionRecords))) sampleOptions sampleContext
    [sampleSubmission]).verdict = verdict at hagrees
  cases hagrees with
  | won result' hresult' =>
      rw [Control.returned.inj (hresult.symm.trans hresult')]
  | going hopen => exact absurd (Or.inl ⟨result, hresult⟩) hopen
  | stopped e hraised =>
      rw [hresult] at hraised
      cases hraised
  | escaped e hraised =>
      rw [hresult] at hraised
      cases hraised

theorem documented_tickingWorld : tickingWorld.Documented := by
  have hsample := documented_sampleWorld (documented_attemptOn [])
  exact ⟨hsample.x509, hsample.aead, hsample.rootFile, hsample.attempt⟩

theorem setsTimeouts_tickingWorld : tickingWorld.SetsTimeouts :=
  fun _ _ => fails_ok ()

theorem silent_tickingWorld (callback : Nat → GenerationProgress → Except PyErr Unit)
    (h : tickingWorld.progress = some callback) (k : Nat) (report : GenerationProgress) :
    callback k report = .ok () := by
  cases h

/-- It comes to what the plain loop over its one attempt comes to. -/
theorem ticking_sequential_search : ∃ n, ∀ m ≥ n,
    ((step tickingWorld sampleOptions sampleContext [sampleEndpoint])^[m]
        (start tickingWorld)).search =
      (judged tickingWorld sampleOptions sampleContext
        (plan sampleOptions [sampleEndpoint] 1)).search := by
  rcases sequential_search tickingWorld sampleOptions sampleContext [sampleEndpoint]
    prepare_tickingWorld representable_sampleOptions rfl (by decide) rfl silent_tickingWorld
    passes_tickingWorld finishes_tickingWorld with ⟨n, hn⟩
  refine ⟨n, fun m hm => ?_⟩
  rcases hn m hm with ⟨s, hs, final, hfinal, hsearch, -⟩
  rw [← hs, hsearch, hfinal]
  rfl

/-- It ends in one of the three ways. -/
theorem ticking_search_exhaustive : ∃ n, ∀ m ≥ n,
    ∃ s, s = (step tickingWorld sampleOptions sampleContext [sampleEndpoint])^[m]
        (start tickingWorld) ∧
      ((∃ result, s.control = .returned result ∧
          ∃ submission ∈ plan sampleOptions [sampleEndpoint] 1,
            draw tickingWorld sampleOptions sampleContext submission =
              some (result.envelope, result.peerIp)) ∨
        (∃ e, s.control = .raised e ∧ e.cls ≠ .generationError ∧
          attemptErrors.any e.isA = false ∧
          ∃ submission ∈ plan sampleOptions [sampleEndpoint] 1, submission ∈ s.harvests ∧
            ∃ search search',
              tryCapture tickingWorld sampleOptions sampleContext submission search =
                (.error e, search')) ∨
        (s.control = .raised (noneMet s) ∧
          ∀ submission ∈ plan sampleOptions [sampleEndpoint] 1,
            draw tickingWorld sampleOptions sampleContext submission = none)) :=
  search_exhaustive tickingWorld documented_tickingWorld setsTimeouts_tickingWorld sampleOptions
    sampleContext [sampleEndpoint] prepare_tickingWorld representable_sampleOptions (by decide)
    rfl silent_tickingWorld passes_tickingWorld finishes_tickingWorld

end Samples

end P2CTools
