import P2CTools.Theory.Search
import P2CTools.Wire.Pacing
import Mathlib.Data.Rat.Floor

/-!
# The Timing of a Search

When attempts are started, by the readings of the clock on which they are.

The rate limit is a single variable, the time of the next start. It is always
at least an interval behind every start so far. An attempt is started only on
a reading that has reached it, so the starts are spaced, and a search that was
held up starts no burst afterwards.

The overall timeout is tested in another place than the attempts are started.
The head of the outer loop reads the clock and ends the search. The loop that
starts attempts reads the clock again, once for each of them, and does not look
at the deadline. So an attempt can be started after it, with a timeout that is
not positive.

It all depends on who takes the first reading that has reached the deadline.
If it is a start, then that attempt is too late. If it is anything else, then
no attempt is started before the head of the outer loop comes by, which ends
the search. So a run keeps the budget exactly if no attempt is started on that
one reading. At the end of the module one search starts its only attempt on
it, and another takes it elsewhere.

## Main definitions

* `Paced`: The starts are spaced, and the next one is far enough behind them.
* `World.Crosses`: The first reading that has reached the deadline.
* `State.Overruns`: The next step starts an attempt on that reading.
* `Within`: An attempt has its share of the time that is left.
* `Timely`: The loop that starts attempts has read no late clock.

## Theorems

* `paced_step`: What one move preserves.
* `search_paced`: The rate limit over a whole run.
* `timely_step`: What the head of the outer loop is good for.
* `overall_timeout_kept_iff`: A run keeps the budget exactly if it starts no
  attempt on that reading.
* `deadline_overrun`: A search that starts an attempt too late.
-/

namespace P2CTools

open Wire

section Pace

variable {Cert Key : Type} (w : World Cert Key) (options : GenerationOptions)
  {context : ConnectionProof} {endpoints : List Tls13.Endpoint}

/-- The readings on which attempts were started are spaced, and the time of the
    next start, if there can be one, is an interval behind each of them. -/
structure Paced (s : State) : Prop where
  spaced : Spaced options.spacing (s.starts.map Prod.snd)
  ready : (¬∃ e, s.control = .raised e) →
    ∀ now ∈ s.starts.map Prod.snd, now + options.spacing ≤ s.nextStart
  read : ∀ now ∈ s.starts.map Prod.snd, ∃ k, now = w.clock k

variable {w options}

theorem paced_step (hrate : 0 < options.connectionsPerSecond) {s s' : State}
    (hs : Paced w options s) (hmove : Move w options context endpoints s s') :
    Paced w options s' := by
  by_cases hraised : ∃ e, s.control = .raised e
  · rcases hraised with ⟨e, hraised⟩
    rw [hmove.eq_of_raised hraised]
    exact hs
  have hlimited : options.connectionsPerSecond ≠ -1 := by omega
  have hinterval : 0 < options.spacing := one_div_pos.mpr (Int.cast_pos.mpr hrate)
  have hbehind := hs.ready hraised
  -- A start is due, so it is behind the starts so far.
  have hspaced : s.Ready options (w.clock s.ticks) →
      Spaced options.spacing (s.starts.map Prod.snd ++ [w.clock s.ticks]) := fun hready =>
    hs.spaced.concat fun now hnow => (hbehind now hnow).trans (hready.due hlimited)
  have hread : ∀ now ∈ s.starts.map Prod.snd ++ [w.clock s.ticks], ∃ k, now = w.clock k := by
    intro now hnow
    rcases List.mem_append.mp hnow with hnow | hnow
    · exact hs.read now hnow
    · exact ⟨s.ticks, List.mem_singleton.mp hnow⟩
  cases hmove with
  | opened | expired | usedUp | slept | waited | quiet =>
      exact { hs with ready := fun _ => hbehind }
  | submitted endpoint hcontrol hready =>
      have hstarts : (s.afterSubmit options endpoint (w.clock s.ticks)
          (s.startAfter options (w.clock s.ticks))).starts.map Prod.snd =
          s.starts.map Prod.snd ++ [w.clock s.ticks] := by
        rw [starts_afterSubmit, List.map_append, List.map_singleton]
      refine ⟨?_, ?_, ?_⟩
      · rw [hstarts]
        exact hspaced hready
      -- The new time is an interval behind this start, and not before the old one.
      · change _ → ∀ now ∈ _, _ ≤ s.startAfter options (w.clock s.ticks)
        rw [hstarts, State.startAfter, if_pos hlimited]
        intro _ now hnow
        rcases List.mem_append.mp hnow with hnow | hnow
        · have hle := hbehind now hnow
          exact le_max_of_le_left (by linarith)
        · rw [List.mem_singleton.mp hnow]
          exact le_max_right _ _
      · rw [hstarts]
        exact hread
  | overflowed endpoint hcontrol hready =>
      -- There is no next start.
      have hstarts : (s.afterSubmit options endpoint (w.clock s.ticks)
          s.nextStart).starts.map Prod.snd = s.starts.map Prod.snd ++ [w.clock s.ticks] := by
        rw [starts_afterSubmit, List.map_append, List.map_singleton]
      refine ⟨?_, fun h => absurd ⟨_, rfl⟩ h, ?_⟩
      · exact hstarts ▸ hspaced hready
      · exact hstarts ▸ hread
  | won submission | lost submission | failed submission | escaped submission =>
      have hstarts := starts_afterHarvest (s := s) submission
      refine ⟨?_, ?_, ?_⟩
      · exact hstarts ▸ hs.spaced
      · exact fun _ => hstarts ▸ hbehind
      · exact hstarts ▸ hs.read
  | reported control =>
      have hstarts := starts_afterReport (s := s) (s.progressAt (w.clock s.ticks))
      refine ⟨?_, ?_, ?_⟩
      · exact hstarts ▸ hs.spaced
      · exact fun _ => hstarts ▸ hbehind
      · exact hstarts ▸ hs.read
  | ended => exact hs

theorem paced_start : Paced w options (start w) where
  spaced := Spaced.nil _
  ready := fun _ _ h => nomatch h
  read := fun _ h => nomatch h

end Pace

/-- With a limit of some connections per second, the readings on which two
    attempts in a row are started are at least an interval apart, so that no
    window holds more starts than the limit allows for its width, and one. -/
theorem search_paced {Cert Key : Type} (w : World Cert Key) (options : GenerationOptions)
    (context : ConnectionProof) (endpoints : List Tls13.Endpoint)
    (hprepare : prepare w options context = .ok endpoints)
    (hrate : 0 < options.connectionsPerSecond) (s : State)
    (hrun : Run (Following (step w options context endpoints)) (start w) s) :
    (∀ now ∈ s.starts.map Prod.snd, ∃ k, now = w.clock k) ∧
      (∀ (k : Nat) (a b : ℚ), (s.starts.map Prod.snd)[k]? = some a →
        (s.starts.map Prod.snd)[k + 1]? = some b → a + 1 / options.connectionsPerSecond ≤ b) ∧
      ∀ left width : ℚ, 0 ≤ width →
        (((s.starts.map Prod.snd).filter fun now => left ≤ now ∧ now < left + width).length : ℤ) ≤
          ⌊width * options.connectionsPerSecond⌋ + 1 := by
  have hne := endpoints_ne_nil hprepare
  have hpaced : Paced w options s := by
    refine hrun.invariant (fun t t' ht hstep => ?_) paced_start
    have hmove : Move w options context endpoints t _ := step_move hne t
    rw [hstep]
    exact paced_step hrate ht hmove
  refine ⟨hpaced.read, fun k a b ha hb => hpaced.spaced.consecutive ha hb, ?_⟩
  intro left width hwidth
  exact hpaced.spaced.length_window_le (Int.cast_pos.mpr hrate) left hwidth

/-! ### A search that was held up -/

section Sample

/-- A clock that stands still for nine seconds before the first attempt. -/
def stalledClock (k : Nat) : ℚ :=
  if k < 2 then k else k + 8

/-- Options for three attempts at a time. -/
def stalledOptions : GenerationOptions :=
  { sampleOptions with concurrency := 3, maxAttempts := 3 }

/-- The world of the sample, with that clock. -/
def stalledWorld : World Bytes Unit :=
  { sampleWorld (Tls13.attemptOn []) with clock := stalledClock }

theorem prepare_stalledWorld :
    prepare stalledWorld stalledOptions sampleContext = .ok [sampleEndpoint] :=
  prepare_sampleOptions (by decide +kernel) rfl rfl (Tls13.attemptOn [])

/-- After the stall the attempts are started one second after the other, on the
    readings 10, 11 and 12: any two in a row are an interval apart, and no
    second has more than two. -/
theorem stalled_search_paced :
    ∃ s, s = (step stalledWorld stalledOptions sampleContext [sampleEndpoint])^[4]
        (start stalledWorld) ∧ s.starts.map Prod.snd = [10, 11, 12] ∧
      ((10 : ℚ) + 1 / stalledOptions.connectionsPerSecond ≤ 11 ∧
        (11 : ℚ) + 1 / stalledOptions.connectionsPerSecond ≤ 12) ∧
      ((s.starts.map Prod.snd).filter fun now => 10 ≤ now ∧ now < 10 + 1).length ≤ 2 := by
  have hstarts : ((step stalledWorld stalledOptions sampleContext [sampleEndpoint])^[4]
      (start stalledWorld)).starts.map Prod.snd = [10, 11, 12] := by
    decide +kernel
  rcases search_paced stalledWorld stalledOptions sampleContext [sampleEndpoint]
    prepare_stalledWorld (by decide) _ (run_iterate _ _ 4) with ⟨-, hconsecutive, hwindow⟩
  have hten := hwindow 10 1 zero_le_one
  have hfloor : ⌊(1 : ℚ) * stalledOptions.connectionsPerSecond⌋ + 1 = 2 := by decide +kernel
  rw [hfloor] at hten
  refine ⟨_, rfl, hstarts, ⟨hconsecutive 0 10 11 ?_ ?_, hconsecutive 1 11 12 ?_ ?_⟩,
    by exact_mod_cast hten⟩
  all_goals
    rw [hstarts]
    rfl

end Sample

section Budget

variable {Cert Key : Type} (w : World Cert Key) (options : GenerationOptions)
  {context : ConnectionProof} {endpoints : List Tls13.Endpoint}

/-- The reading is the first one that has reached the deadline. -/
def World.Crosses (k : Nat) : Prop :=
  options.overallTimeout ≤ w.clock k - w.clock 0 ∧
    ∀ j < k, w.clock j - w.clock 0 < options.overallTimeout

/-- The next step starts an attempt, and does so on the first reading of the
    clock that has reached the deadline. -/
def State.Overruns (s : State) : Prop :=
  s.control = .starting ∧ s.Ready options (w.clock s.ticks) ∧ w.Crosses options s.ticks

/-- An attempt is started before the deadline, with a positive timeout that
    keeps to it and to the connection's own. -/
structure Within (startedAt : ℚ) (submission : Submission) (now : ℚ) : Prop where
  before : now - startedAt < options.overallTimeout
  positive : 0 < submission.timeout
  connection : submission.timeout ≤ options.connectionTimeout
  overall : submission.timeout ≤ options.overallTimeout - (now - startedAt)

/-- All attempts so far are within the overall timeout. -/
def InBudget (s : State) : Prop :=
  ∀ submission now, (submission, now) ∈ s.starts → Within options s.startedAt submission now

/-- The search has begun with the first reading, and in the loop that starts
    attempts no reading so far has reached the deadline. -/
structure Timely (s : State) : Prop where
  startedAt : s.startedAt = w.clock 0
  before : s.control = .starting → ∀ j < s.ticks, w.clock j - w.clock 0 < options.overallTimeout

variable {w options}

/-- An attempt is within the overall timeout exactly when it is started before
    the deadline. -/
theorem within_submission_iff (hoverall : 0 < options.overallTimeout)
    (hconnection : 0 < options.connectionTimeout) (s : State) (endpoint : Tls13.Endpoint)
    (now : ℚ) :
    Within options s.startedAt (s.submission options endpoint now) now ↔
      now - s.startedAt < options.overallTimeout := by
  -- The timeout of the attempt, as `attempt_timeout` is computed under an overall one.
  have htimeout : (s.submission options endpoint now).timeout =
      min options.connectionTimeout (options.overallTimeout - (now - s.startedAt)) :=
    if_pos hoverall.ne'
  constructor
  · exact fun h => h.before
  · intro hbefore
    refine ⟨hbefore, ?_, ?_, ?_⟩
    · rw [htimeout]
      exact lt_min hconnection (sub_pos.mpr hbefore)
    · rw [htimeout]
      exact min_le_left _ _
    · rw [htimeout]
      exact min_le_right _ _

/-- A move keeps the start of the search and the attempts so far. It adds one
    exactly where the limits on starting an attempt allow it. -/
theorem starts_move {s s' : State} (hmove : Move w options context endpoints s s') :
    s'.startedAt = s.startedAt ∧
      ((s.control = .starting ∧ s.Ready options (w.clock s.ticks) ∧ ∃ endpoint,
        s'.starts = s.starts ++
          [(s.submission options endpoint (w.clock s.ticks), w.clock s.ticks)]) ∨
      (¬ (s.control = .starting ∧ s.Ready options (w.clock s.ticks)) ∧ s'.starts = s.starts)) := by
  have helsewhere : s.control ≠ .starting →
      ¬ (s.control = .starting ∧ s.Ready options (w.clock s.ticks)) := fun h h' => h h'.1
  cases hmove with
  -- The other places of the loops start nothing.
  | opened h | expired h | usedUp h | quiet h =>
      exact ⟨rfl, Or.inr ⟨helsewhere fun h' => (nomatch h.symm.trans h'), rfl⟩⟩
  -- These moves do, and they are made under the limits.
  | submitted endpoint hcontrol hready =>
      exact ⟨rfl, Or.inl ⟨hcontrol, hready, endpoint, starts_afterSubmit endpoint _ _⟩⟩
  | overflowed endpoint hcontrol hready =>
      exact ⟨rfl, Or.inl ⟨hcontrol, hready, endpoint,
        starts_afterSubmit (s := s) endpoint (w.clock s.ticks) s.nextStart⟩⟩
  -- No attempt may start, so the loop waits.
  | slept ticks hcontrol hwait => exact ⟨rfl, Or.inr ⟨fun h => hwait h.2, rfl⟩⟩
  | waited ticks done hcontrol hwait => exact ⟨rfl, Or.inr ⟨fun h => hwait h.2, rfl⟩⟩
  -- What completes an attempt keeps those that were started.
  | won submission _ _ _ _ h | lost submission _ _ h | failed submission _ _ _ h
  | escaped submission _ _ _ h =>
      exact ⟨rfl, Or.inr ⟨helsewhere fun h' => (nomatch h.symm.trans h'),
        starts_afterHarvest (s := s) submission⟩⟩
  | reported control _ h =>
      exact ⟨rfl, Or.inr ⟨helsewhere fun h' => (nomatch h.symm.trans h'),
        starts_afterReport (s := s) _⟩⟩
  | ended h =>
      refine ⟨rfl, Or.inr ⟨helsewhere fun h' => ?_, rfl⟩⟩
      rcases h with ⟨_, h⟩ | ⟨_, h⟩
      · exact nomatch h.symm.trans h'
      · exact nomatch h.symm.trans h'

/-- The head of the outer loop is passed on a reading before the deadline, and
    every later start before the next head is on one too. -/
theorem timely_step (hclock : Monotone w.clock) (hoverall : 0 < options.overallTimeout)
    {s s' : State} (hs : Timely w options s) (hintime : ¬s.Overruns w options)
    (hmove : Move w options context endpoints s s') : Timely w options s' := by
  have hstarted := hs.startedAt
  cases hmove with
  -- The loop that starts attempts is left, or the search is over.
  | expired | usedUp | overflowed | slept | waited | won | lost | failed | escaped | quiet =>
      exact ⟨hstarted, fun h => by cases h⟩
  | opened hcontrol hbefore =>
      refine ⟨hstarted, fun _ j hj => ?_⟩
      -- The readings before that of the head are no later.
      have hle := hclock (Nat.lt_succ_iff.mp hj)
      have hhead : w.clock s.ticks - s.startedAt < options.overallTimeout :=
        not_le.mp fun hlate => hbefore ⟨hoverall.ne', hlate⟩
      rw [hstarted] at hhead
      linarith
  | submitted endpoint hcontrol hready =>
      refine ⟨hstarted, fun _ j hj => ?_⟩
      rcases Nat.lt_succ_iff_lt_or_eq.mp hj with hj | rfl
      · exact hs.before hcontrol j hj
      -- If this reading had reached the deadline, then it would be the first.
      · refine not_le.mp fun hlate => hintime ⟨hcontrol, hready, hlate, ?_⟩
        exact hs.before hcontrol
  | reported control callback _ _ hcall =>
      refine ⟨hstarted, fun h => ?_⟩
      rcases hcall with ⟨-, rfl⟩ | ⟨e, -, rfl⟩
      · cases h
      · cases h
  | ended => exact hs

theorem timely_start : Timely w options (start w) where
  startedAt := rfl
  before := fun h => by cases h

theorem inBudget_step (hoverall : 0 < options.overallTimeout)
    (hconnection : 0 < options.connectionTimeout) {s s' : State} (hs : InBudget options s)
    (htimely : Timely w options s) (hintime : ¬s.Overruns w options)
    (hmove : Move w options context endpoints s s') : InBudget options s' := by
  rcases starts_move hmove with ⟨hstarted, ⟨hcontrol, hready, endpoint, hstarts⟩ | ⟨-, hstarts⟩⟩
  · intro submission now hmem
    rw [hstarts, List.mem_append, List.mem_singleton] at hmem
    rw [hstarted]
    rcases hmem with hmem | hmem
    · exact hs submission now hmem
    · rcases Prod.mk.inj hmem with ⟨rfl, rfl⟩
      -- The new attempt was started before the deadline, or the step would be an overrun.
      refine (within_submission_iff hoverall hconnection s endpoint _).mpr (not_le.mp ?_)
      intro hlate
      rw [htimely.startedAt] at hlate
      exact hintime ⟨hcontrol, hready, hlate, htimely.before hcontrol⟩
  · intro submission now hmem
    rw [hstarts] at hmem
    rw [hstarted]
    exact hs submission now hmem

/-- An overrun starts an attempt that is not within the overall timeout. -/
theorem not_inBudget_of_overruns {s s' : State} (hs : s.startedAt = w.clock 0)
    (h : s.Overruns w options) (hmove : Move w options context endpoints s s') :
    ¬InBudget options s' := by
  intro hs'
  rcases h with ⟨hcontrol, hready, hlate, -⟩
  rcases starts_move hmove with ⟨hstarted, ⟨-, -, endpoint, hstarts⟩ | ⟨hnone, -⟩⟩
  · have hwithin := hs' (s.submission options endpoint (w.clock s.ticks)) (w.clock s.ticks) (by
      rw [hstarts]
      exact List.mem_append_right _ (List.mem_singleton_self _))
    rw [hstarted, hs] at hwithin
    exact not_le.mpr hwithin.before hlate
  · exact hnone ⟨hcontrol, hready⟩

/-- What is not within the overall timeout stays so. -/
theorem inBudget_of_move {s s' : State} (hmove : Move w options context endpoints s s')
    (hs' : InBudget options s') : InBudget options s := by
  rcases starts_move hmove with ⟨hstarted, hstarts⟩
  intro submission now hmem
  rw [← hstarted]
  refine hs' submission now ?_
  rcases hstarts with ⟨-, -, endpoint, hstarts⟩ | ⟨-, hstarts⟩
  · rw [hstarts]
    exact List.mem_append_left _ hmem
  · rw [hstarts]
    exact hmem

/-- A run without an overrun keeps the budget. -/
theorem inBudget_of_run (hprepare : prepare w options context = .ok endpoints)
    (hclock : Monotone w.clock) (hoverall : 0 < options.overallTimeout) {s : State}
    (hrun : Run (Guarded (fun t => ¬t.Overruns w options)
      (Following (step w options context endpoints))) (start w) s) : InBudget options s := by
  have hne := endpoints_ne_nil hprepare
  rcases (validateOptions_eq_ok_iff options ()).mp (validateOptions_of_prepare hprepare)
    with ⟨-, -, -, -, hconnection, -⟩
  have hkept : InBudget options s ∧ Timely w options s := by
    refine @Run.invariant _ _ (fun t => InBudget options t ∧ Timely w options t) _ _ hrun
      (fun t t' ht hstep => ?_) ⟨fun _ _ h => absurd h List.not_mem_nil, timely_start⟩
    rcases hstep with ⟨hintime, rfl⟩
    have hmove : Move w options context endpoints t _ := step_move hne t
    exact ⟨inBudget_step hoverall hconnection ht.1 ht.2 hintime hmove,
      timely_step hclock hoverall ht.2 hintime hmove⟩
  exact hkept.1

/-- Every run has begun with the first reading. -/
theorem startedAt_of_run (hne : endpoints ≠ []) {s : State}
    (hrun : Run (Following (step w options context endpoints)) (start w) s) :
    s.startedAt = w.clock 0 :=
  @Run.invariant _ _ (fun t => t.startedAt = w.clock 0) _ _ hrun (fun t t' ht hstep => by
    have hmove : Move w options context endpoints t _ := step_move hne t
    rw [hstep, (starts_move hmove).1, ht]) rfl

end Budget

/-- On a clock that does not go back, a search keeps its overall timeout
    exactly if it starts no attempt on the first reading that has reached the
    deadline. Then every attempt is started before the deadline, with a positive
    timeout that is no longer than what is left: once that reading has been
    taken anywhere else, the next head of the outer loop ends the search. -/
theorem overall_timeout_kept_iff {Cert Key : Type} (w : World Cert Key)
    (options : GenerationOptions) (context : ConnectionProof) (endpoints : List Tls13.Endpoint)
    (hprepare : prepare w options context = .ok endpoints) (hclock : Monotone w.clock)
    (hoverall : 0 < options.overallTimeout) (n : Nat) :
    (∀ submission now,
      (submission, now) ∈ ((step w options context endpoints)^[n] (start w)).starts →
      Within options ((step w options context endpoints)^[n] (start w)).startedAt submission now) ↔
      ∀ k < n, ¬((step w options context endpoints)^[k] (start w)).Overruns w options := by
  have hne := endpoints_ne_nil hprepare
  constructor
  · intro hbudget k hk hover
    -- The attempt that overruns is among those of all later states.
    have hearlier : ∀ j, k + 1 + j ≤ n →
        InBudget options ((step w options context endpoints)^[k + 1 + j] (start w)) →
        InBudget options ((step w options context endpoints)^[k + 1] (start w)) := by
      intro j
      induction j with
      | zero => exact fun _ h => h
      | succ j ih =>
          intro hj h
          rw [← Nat.add_assoc, Function.iterate_succ_apply'] at h
          exact ih (by omega) (inBudget_of_move (step_move hne _) h)
    have hlast := hearlier (n - (k + 1)) (by omega) (by
      rw [Nat.add_sub_cancel' hk]
      exact hbudget)
    rw [Function.iterate_succ_apply'] at hlast
    exact not_inBudget_of_overruns (startedAt_of_run hne (run_iterate _ _ k)) hover
      (step_move hne _) hlast
  · intro hintime
    exact inBudget_of_run hprepare hclock hoverall (guarded_iterate _ _ n hintime)

/-! ### A deadline between two readings -/

section Sample

open Protocol (vectorDomain vectorChallenge)
open Tls13 (attemptOn)

/-- Options with ten seconds for the whole search. -/
def lateOptions : GenerationOptions :=
  { sampleOptions with overallTimeout := 10 }

/-- The readings of a clock on which the deadline falls between the test at the
    head of the outer loop and the start of the first attempt. -/
def lateClock : Nat → ℚ
  | 0 => 0
  | 1 => 5
  | _ => 12

/-- The world of the sample, with that clock. -/
def lateWorld : World Bytes Unit :=
  { sampleWorld (attemptOn []) with clock := lateClock }

/-- The preparation reads no clock. -/
theorem prepare_lateOptions {w : World Bytes Unit}
    (h : prepare w sampleOptions sampleContext = .ok [sampleEndpoint]) :
    prepare w lateOptions sampleContext = .ok [sampleEndpoint] := by
  have hsame : validateOptions lateOptions = validateOptions sampleOptions := by decide +kernel
  unfold prepare at h ⊢
  rw [hsame]
  exact h

theorem lateClock_mono {i j : Nat} (h : i ≤ j) : lateClock i ≤ lateClock j := by
  have hstep : ∀ k, lateClock k ≤ lateClock (k + 1) := by
    rintro (_ | _ | k)
    · decide +kernel
    · decide +kernel
    · exact le_refl _
  exact monotone_nat_of_le_succ hstep h

/-- The attempt that is started two seconds after the deadline. -/
def lateSubmission : Submission :=
  ⟨1, sampleEndpoint, -2⟩

/-- An attempt that is started after the deadline fails at once. -/
theorem capture_lateSubmission : capture lateWorld sampleContext lateSubmission =
    .error (tlsError "connection timeout must be finite and positive") := by
  have hcapture : Tls13.captureTls13Proof sampleX509 Tls13.sessionAead sampleEndpoint vectorDomain
      vectorChallenge 7 (-2) (attemptOn []) =
        .error (tlsError "connection timeout must be finite and positive") := by
    decide +kernel
  unfold capture
  exact (bind_eq_error_iff _ _ _).mpr (Or.inr ⟨vectorChallenge, challenge_vectorFields _, hcapture⟩)

/-- The only attempt is started after the deadline. It has a number and a
    negative timeout, and fails for that. -/
theorem deadline_overrun :
    prepare lateWorld lateOptions sampleContext = .ok [sampleEndpoint] ∧
      0 < lateOptions.overallTimeout ∧ (∀ i j, i ≤ j → lateWorld.clock i ≤ lateWorld.clock j) ∧
      ∃ s submission now,
        Run (Following (step lateWorld lateOptions sampleContext [sampleEndpoint]))
          (start lateWorld) s ∧
        (submission, now) ∈ s.starts ∧ s.attemptsStarted = submission.number ∧
        s.startedAt + lateOptions.overallTimeout < now ∧ submission.timeout < 0 ∧
        capture lateWorld sampleContext submission =
          .error (tlsError "connection timeout must be finite and positive") := by
  have hstarts : ((step lateWorld lateOptions sampleContext [sampleEndpoint])^[2]
      (start lateWorld)).starts = [(lateSubmission, 12)] := by
    decide +kernel
  refine ⟨prepare_lateOptions (prepare_sampleWorld (attemptOn [])), by decide +kernel,
    fun _ _ h => lateClock_mono h, _, lateSubmission, 12, run_iterate _ _ 2, ?_, by decide +kernel,
    by decide +kernel, by decide +kernel, capture_lateSubmission⟩
  rw [hstarts]
  exact List.mem_singleton_self _

/-- A world whose readings are four seconds apart. -/
def slowWorld : World Bytes Unit :=
  { sampleWorld (attemptOn []) with clock := fun k => 4 * k }

theorem slowWorld_mono : Monotone slowWorld.clock := by
  intro i j h
  have hle : (i : ℚ) ≤ j := Nat.cast_le.mpr h
  change 4 * (i : ℚ) ≤ 4 * j
  linarith

/-- With readings four seconds apart the same search starts its attempt on the
    reading 8, with the two seconds that are left. The next reading, 12, is the
    first behind the deadline, and the head of the outer loop takes it. -/
theorem lateOptions_in_time :
    ∃ s, s = (step slowWorld lateOptions sampleContext [sampleEndpoint])^[6] (start slowWorld) ∧
      s.ticks = 4 ∧ slowWorld.Crosses lateOptions 3 ∧
      s.starts = [(⟨1, sampleEndpoint, 2⟩, 8)] ∧ Within lateOptions 0 ⟨1, sampleEndpoint, 2⟩ 8 := by
  have hkept := (overall_timeout_kept_iff slowWorld lateOptions sampleContext [sampleEndpoint]
    (prepare_lateOptions (prepare_sampleWorld (attemptOn []))) slowWorld_mono (by decide +kernel)
    6).mpr
  have hstarts : ((step slowWorld lateOptions sampleContext [sampleEndpoint])^[6]
      (start slowWorld)).starts = [(⟨1, sampleEndpoint, 2⟩, 8)] := by
    decide +kernel
  have hstarted : ((step slowWorld lateOptions sampleContext
      [sampleEndpoint])^[6] (start slowWorld)).startedAt = 0 := by
    decide +kernel
  rw [hstarts, hstarted] at hkept
  have hcrosses : slowWorld.Crosses lateOptions 3 := by
    unfold World.Crosses
    decide +kernel
  refine ⟨_, rfl, by decide +kernel, hcrosses, hstarts, hkept (fun k hk => ?_) _ _
    (List.mem_singleton_self _)⟩
  rintro ⟨hcontrol, hready, hlate, -⟩
  -- The first two states are before the start, and behind it no attempt is left.
  obtain rfl | rfl | rfl | rfl | rfl | rfl :
      k = 0 ∨ k = 1 ∨ k = 2 ∨ k = 3 ∨ k = 4 ∨ k = 5 := by omega
  · cases hcontrol
  · exact absurd hlate (by decide +kernel)
  all_goals exact absurd (by decide +kernel) hready.left

end Sample

end P2CTools
