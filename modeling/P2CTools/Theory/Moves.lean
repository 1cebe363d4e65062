import P2CTools.Source.Generator
import P2CTools.Wire.Runs
import Mathlib.Data.List.Dedup

/-!
# The Moves of a Search

What one step of the search can do, once and for all.

The machine of the generator has a step function that tests its way through the
source's loops. `Move` lists the outcomes instead: the condition under which
each of them comes about, and the state it leads to. Every invariant of the
search is a case analysis of `Move`, so that the tests themselves are taken
apart in one place, `step_move`.

A run leaves a trace of events. The started attempts, the harvested ones and
the reports are read off it, each as a list of its own, and each grows by one
entry at one kind of move.

## Main definitions

* `Event.start`, `Event.harvest`, `Event.report`: What an event is.
* `State.starts`, `State.harvests`, `State.reported`: The trace, by kind.
* `GenerationOptions.Representable`: The rate can be converted to a float.
* `State.submission`, `State.afterSubmit`: The attempt that is started next,
  and what starting it does.
* `State.afterHarvest`: What looking at a completed attempt does before its
  outcome is known.
* `State.afterReport`: What a report does.
* `EachReport`: A property of the reports, with what was before them.
* `State.overdue`, `State.Ready`: The deadline and the limits of a start.
* `Move`: One step of the search.

## Theorems

* `mem_done`, `nodup_done`: What a wait finds done is pending, and found once.
* `validateOptions_eq_ok_iff`: The limits of an accepted search.
* `step_move`: A step is a move.
-/

namespace P2CTools

open Wire
open Tls13 (Endpoint)

section Trace

/-- The attempt that an event starts, with its reading of the clock. -/
def Event.start : Event → Option (Submission × ℚ)
  | .started submission now => some (submission, now)
  | _ => none

/-- The attempt that was looked at. -/
def Event.harvest : Event → Option Submission
  | .harvested submission => some submission
  | _ => none

/-- The report that was made. -/
def Event.report : Event → Option GenerationProgress
  | .reported progress => some progress
  | _ => none

variable (s : State)

/-- The attempts that were started, each with its reading of the clock. -/
def State.starts : List (Submission × ℚ) :=
  s.trace.filterMap Event.start

/-- The attempts that were looked at. -/
def State.harvests : List Submission :=
  s.trace.filterMap Event.harvest

/-- The reports so far. -/
def State.reported : List GenerationProgress :=
  s.trace.filterMap Event.report

end Trace

section Reports

/-- Every report of a trace has a property together with the events before it. -/
def EachReport (P : List Event → GenerationProgress → Prop) (trace : List Event) : Prop :=
  ∀ before report later, trace = before ++ Event.reported report :: later → P before report

variable {P : List Event → GenerationProgress → Prop} {trace : List Event}

theorem EachReport.nil : EachReport P [] := by
  intro before report later h
  exact absurd h.symm (List.append_ne_nil_of_right_ne_nil _ (List.cons_ne_nil _ _))

/-- A trace that goes on has the reports that it had, and one more if it goes on
    with a report. -/
theorem EachReport.concat (h : EachReport P trace) (event : Event)
    (hlast : ∀ report, event = .reported report → P trace report) :
    EachReport P (trace ++ [event]) := by
  intro before report later hsplit
  rcases List.eq_nil_or_concat later with rfl | ⟨later, last, rfl⟩
  · rcases List.append_inj' hsplit rfl with ⟨rfl, hevent⟩
    exact hlast report (List.singleton_inj.mp hevent)
  · rw [List.concat_eq_append, ← List.cons_append, ← List.append_assoc] at hsplit
    exact h before report later (List.append_inj' hsplit rfl).1

/-- A report of a trace stands behind those that come before it. -/
theorem exists_split {k : Nat} {report : GenerationProgress}
    (h : (trace.filterMap Event.report)[k]? = some report) :
    ∃ before later, trace = before ++ Event.reported report :: later ∧
      (before.filterMap Event.report).length = k := by
  induction trace generalizing k with
  | nil => exact absurd h (by simp)
  | cons event trace ih =>
      cases hevent : event.report with
      | none =>
          rw [List.filterMap_cons, hevent] at h
          rcases ih h with ⟨before, later, rfl, hlength⟩
          refine ⟨event :: before, later, rfl, ?_⟩
          rw [List.filterMap_cons, hevent]
          exact hlength
      | some first =>
          rw [List.filterMap_cons, hevent] at h
          cases k with
          | zero =>
              cases event with
              | started | harvested => cases hevent
              | reported other =>
                  rw [← Option.some.inj h, ← Option.some.inj hevent]
                  exact ⟨[], trace, rfl, rfl⟩
          | succ k =>
              rcases ih h with ⟨before, later, rfl, hlength⟩
              refine ⟨event :: before, later, rfl, ?_⟩
              rw [List.filterMap_cons, hevent, List.length_cons, hlength]

end Reports

section Done

/-- What is looked up by number is found under that number, so that numbers
    without repetition are found without repetition. -/
theorem sublist_filterMap_find (pending : List Submission) (numbers : List Nat) :
    ((numbers.filterMap fun number => pending.find? fun submission =>
      submission.number == number).map Submission.number).Sublist numbers := by
  induction numbers with
  | nil => exact List.Sublist.slnil
  | cons number numbers ih =>
      rw [List.filterMap_cons]
      cases hfind : pending.find? fun submission => submission.number == number with
      | none => exact ih.cons number
      | some submission =>
          have hnumber := List.find?_some hfind
          rw [beq_iff_eq] at hnumber
          rw [List.map_cons, hnumber]
          exact ih.cons_cons number

variable {Cert Key : Type} (w : World Cert Key)

/-- What a wait finds done is pending. -/
theorem mem_done {s : State} {timeout : ℚ} {submission : Submission}
    (h : submission ∈ s.done w timeout) : submission ∈ s.pending := by
  rcases List.mem_filterMap.mp h with ⟨number, -, hfind⟩
  exact List.mem_of_find?_eq_some hfind

/-- It is found once. -/
theorem nodup_done (s : State) (timeout : ℚ) :
    ((s.done w timeout).map Submission.number).Nodup :=
  (sublist_filterMap_find s.pending _).nodup (List.nodup_dedup _)

end Done

section Moves

variable {Cert Key : Type} (w : World Cert Key) (options : GenerationOptions)
  (context : ConnectionProof) (endpoints : List Endpoint)

/-- The attempt that is started on an endpoint at a reading of the clock. -/
def State.submission (s : State) (endpoint : Endpoint) (now : ℚ) : Submission :=
  ⟨s.attemptsStarted + 1, endpoint, attemptTimeout options s now⟩

/-- The rate can be converted to a float. -/
def GenerationOptions.Representable : Prop :=
  options.connectionsPerSecond < floatLimit

/-- The time between two starts. -/
def GenerationOptions.spacing : ℚ :=
  1 / options.connectionsPerSecond

/-- The error when the rate cannot be converted. -/
def rateOverflow : PyErr :=
  ⟨.overflowError, "int too large to convert to float"⟩

theorem floatLimit_eq : floatLimit = 2 ^ 1024 - 2 ^ 970 := by
  decide +kernel

theorem interval_eq_ok (h : options.Representable) : interval options = .ok options.spacing := by
  unfold interval
  simp only [bind_eq_ok_iff, failIf_eq_ok_iff, pure_eq_ok_iff]
  exact ⟨(), not_le.mpr h, rfl⟩

theorem interval_eq_error (h : ¬options.Representable) : interval options = .error rateOverflow :=
  (bind_eq_error_iff _ _ _).mpr (Or.inl ((failIf_eq_error_iff _ _ _).mpr ⟨not_lt.mp h, rfl⟩))

/-- The variables after an attempt is started, with the time of the next start. -/
def State.afterSubmit (s : State) (endpoint : Endpoint) (now nextStart : ℚ) : State :=
  { s with
    ticks := s.ticks + 1
    nextEndpoint := s.nextEndpoint + 1
    attemptsStarted := s.attemptsStarted + 1
    pending := s.pending ++ [s.submission options endpoint now]
    nextStart := nextStart
    trace := s.trace ++ [Event.started (s.submission options endpoint now) now] }

/-- The time of the next start after one at a reading of the clock. -/
def State.startAfter (s : State) (now : ℚ) : ℚ :=
  if options.connectionsPerSecond ≠ -1 then
    max (s.nextStart + options.spacing) (now + options.spacing)
  else s.nextStart

/-- The variables after a completed attempt is taken out. -/
def State.afterHarvest (s : State) (submission : Submission) : State :=
  { s with
    pending := s.pending.filter fun other => other.number ≠ submission.number
    attemptsCompleted := s.attemptsCompleted + 1
    trace := s.trace ++ [Event.harvested submission] }

/-- The variables after a report. -/
def State.afterReport (s : State) (report : GenerationProgress) : State :=
  { s with
    ticks := s.ticks + 1
    reports := s.reports + 1
    trace := s.trace ++ [Event.reported report] }

section Trace

variable {options} {s : State} (endpoint : Endpoint) (now nextStart : ℚ) (submission : Submission)
  (report : GenerationProgress)

@[simp] theorem starts_afterSubmit : (s.afterSubmit options endpoint now nextStart).starts =
    s.starts ++ [(s.submission options endpoint now, now)] :=
  List.filterMap_append

@[simp] theorem harvests_afterSubmit :
    (s.afterSubmit options endpoint now nextStart).harvests = s.harvests :=
  List.filterMap_append.trans (List.append_nil _)

@[simp] theorem reported_afterSubmit :
    (s.afterSubmit options endpoint now nextStart).reported = s.reported :=
  List.filterMap_append.trans (List.append_nil _)

@[simp] theorem starts_afterHarvest : (s.afterHarvest submission).starts = s.starts :=
  List.filterMap_append.trans (List.append_nil _)

@[simp] theorem harvests_afterHarvest :
    (s.afterHarvest submission).harvests = s.harvests ++ [submission] :=
  List.filterMap_append

@[simp] theorem reported_afterHarvest : (s.afterHarvest submission).reported = s.reported :=
  List.filterMap_append.trans (List.append_nil _)

@[simp] theorem starts_afterReport : (s.afterReport report).starts = s.starts :=
  List.filterMap_append.trans (List.append_nil _)

@[simp] theorem harvests_afterReport : (s.afterReport report).harvests = s.harvests :=
  List.filterMap_append.trans (List.append_nil _)

@[simp] theorem reported_afterReport : (s.afterReport report).reported = s.reported ++ [report] :=
  List.filterMap_append

end Trace

/-- The overall timeout is over at a reading of the clock. -/
def State.overdue (s : State) (now : ℚ) : Prop :=
  options.overallTimeout ≠ 0 ∧ options.overallTimeout ≤ now - s.startedAt

/-- The limits on starting an attempt allow one at a reading of the clock. -/
structure State.Ready (s : State) (now : ℚ) : Prop where
  room : s.pending.length < options.concurrency
  left : ¬s.exhausted options
  due : options.connectionsPerSecond ≠ -1 → s.nextStart ≤ now

/-- One step of the search. -/
inductive Move (s : State) : State → Prop
  /-- The loop that starts attempts is entered. -/
  | opened (hcontrol : s.control = .outer) (hintime : ¬s.overdue options (w.clock s.ticks))
      (hmore : ¬ (s.exhausted options ∧ s.pending = [])) :
      Move s { s with ticks := s.ticks + 1, control := .starting }
  | expired (hcontrol : s.control = .outer) (hover : s.overdue options (w.clock s.ticks)) :
      Move s { s with ticks := s.ticks + 1, control := .raised (timedOut s) }
  | usedUp (hcontrol : s.control = .outer) (hexhausted : s.exhausted options)
      (hpending : s.pending = []) :
      Move s { s with ticks := s.ticks + 1, control := .raised (noneMet s) }
  | submitted (endpoint : Endpoint) (hcontrol : s.control = .starting)
      (hready : s.Ready options (w.clock s.ticks))
      (hendpoint : endpoints[s.nextEndpoint % endpoints.length]? = some endpoint)
      (hrate : options.Representable) :
      Move s (s.afterSubmit options endpoint (w.clock s.ticks)
        (s.startAfter options (w.clock s.ticks)))
  /-- The attempt is started, and then the rate is found too large. -/
  | overflowed (endpoint : Endpoint) (hcontrol : s.control = .starting)
      (hready : s.Ready options (w.clock s.ticks))
      (hendpoint : endpoints[s.nextEndpoint % endpoints.length]? = some endpoint)
      (hrate : ¬options.Representable) :
      Move s { s.afterSubmit options endpoint (w.clock s.ticks) s.nextStart with
        control := .raised rateOverflow }
  | slept (ticks : Nat) (hcontrol : s.control = .starting)
      (hwait : ¬s.Ready options (w.clock s.ticks)) (hticks : s.ticks ≤ ticks)
      (hidle : s.pending = []) :
      Move s { s with control := .outer, ticks := ticks }
  | waited (ticks : Nat) (done : List Submission) (hcontrol : s.control = .starting)
      (hwait : ¬s.Ready options (w.clock s.ticks)) (hticks : s.ticks ≤ ticks)
      (hpending : ∀ submission ∈ done, submission ∈ s.pending)
      (honce : (done.map Submission.number).Nodup) :
      Move s { s with control := .harvesting done, ticks := ticks, waits := s.waits + 1 }
  | won (submission : Submission) (rest : List Submission) (candidate : ConnectionProof)
      (peerIp : Str) (search : Search) (hcontrol : s.control = .harvesting (submission :: rest))
      (htry : tryCapture w options context submission s.search =
        (.ok (some (candidate, peerIp)), search)) :
      Move s { s.afterHarvest submission with
        search := search
        ticks := s.ticks + 1
        control := .returned
          ⟨candidate, s.attemptsCompleted + 1, w.clock s.ticks - s.startedAt, peerIp⟩ }
  | lost (submission : Submission) (rest : List Submission) (search : Search)
      (hcontrol : s.control = .harvesting (submission :: rest))
      (htry : tryCapture w options context submission s.search = (.ok none, search)) :
      Move s { s.afterHarvest submission with search := search, control := .harvesting rest }
  /-- The handler names the exception. -/
  | failed (submission : Submission) (rest : List Submission) (e : PyErr) (search : Search)
      (hcontrol : s.control = .harvesting (submission :: rest))
      (htry : tryCapture w options context submission s.search = (.error e, search))
      (hnamed : attemptErrors.any e.isA = true) :
      Move s { s.afterHarvest submission with
        search := { search with lastError := some e.msg }
        control := .harvesting rest }
  | escaped (submission : Submission) (rest : List Submission) (e : PyErr) (search : Search)
      (hcontrol : s.control = .harvesting (submission :: rest))
      (htry : tryCapture w options context submission s.search = (.error e, search))
      (hforeign : attemptErrors.any e.isA = false) :
      Move s { s.afterHarvest submission with search := search, control := .raised e }
  | quiet (hcontrol : s.control = .harvesting []) : Move s { s with control := .outer }
  | reported (control : Control) (callback : Nat → GenerationProgress → Except PyErr Unit)
      (hcontrol : s.control = .harvesting []) (hprogress : w.progress = some callback)
      (hcall : (callback s.reports (s.progressAt (w.clock s.ticks)) = .ok () ∧
          control = .outer) ∨
        ∃ e, callback s.reports (s.progressAt (w.clock s.ticks)) = .error e ∧
          control = .raised e) :
      Move s { s.afterReport (s.progressAt (w.clock s.ticks)) with control := control }
  | ended (hcontrol : (∃ result, s.control = .returned result) ∨ ∃ e, s.control = .raised e) :
      Move s s

variable {w options context endpoints}

/-- A search that has raised an exception does not move. -/
theorem Move.eq_of_raised {s s' : State} {e : PyErr} (hmove : Move w options context endpoints s s')
    (hraised : s.control = .raised e) : s' = s := by
  cases hmove with
  | ended => rfl
  | opened h | expired h | usedUp h | submitted _ h | overflowed _ h | slept _ h | waited _ _ h
  | won _ _ _ _ _ h | lost _ _ _ h | failed _ _ _ _ h | escaped _ _ _ _ h | quiet h
  | reported _ _ h =>
      rw [hraised] at h
      cases h

theorem outerStep_move {s : State} (hcontrol : s.control = .outer) :
    Move w options context endpoints s (outerStep w options s) := by
  unfold outerStep
  dsimp only
  split
  · next hover => exact Move.expired hcontrol hover
  · next hintime =>
      split
      · next hlimit => exact Move.usedUp hcontrol hlimit.1 hlimit.2
      · next hmore => exact Move.opened hcontrol hintime hmore

/-- The loop that starts attempts is left when no attempt can be started. The
    clock may have been read before. -/
theorem afterStarting_move {s : State} (ticks : Nat) (hticks : s.ticks ≤ ticks)
    (hcontrol : s.control = .starting) (hwait : ¬s.Ready options (w.clock s.ticks)) :
    Move w options context endpoints s (afterStarting w options { s with ticks := ticks }) := by
  unfold afterStarting
  split
  · next hidle => exact Move.slept (ticks + 1) hcontrol hwait (by omega) hidle
  · split
    · exact Move.waited (ticks + 1) _ hcontrol hwait (by omega) (fun _ h => mem_done w h)
        (nodup_done w _ _)
    · exact Move.waited ticks _ hcontrol hwait hticks (fun _ h => mem_done w h)
        (nodup_done w _ _)

/-- An attempt that may be started is, and then the time of the next one is
    computed. -/
theorem submit_move {s : State} {endpoint : Endpoint} (hcontrol : s.control = .starting)
    (hready : s.Ready options (w.clock s.ticks))
    (hendpoint : endpoints[s.nextEndpoint % endpoints.length]? = some endpoint) :
    Move w options context endpoints s
      (submit options endpoints { s with ticks := s.ticks + 1 } (w.clock s.ticks)) := by
  unfold submit
  dsimp only
  rw [hendpoint]
  dsimp only
  by_cases hlimited : options.connectionsPerSecond ≠ -1
  · rw [if_pos hlimited]
    by_cases hrate : options.Representable
    · have hmove : Move w options context endpoints s _ :=
        Move.submitted endpoint hcontrol hready hendpoint hrate
      rw [State.startAfter, if_pos hlimited] at hmove
      rw [interval_eq_ok options hrate]
      exact hmove
    · rw [interval_eq_error options hrate]
      exact Move.overflowed endpoint hcontrol hready hendpoint hrate
  · have hrate : options.Representable := by
      rw [not_not] at hlimited
      unfold GenerationOptions.Representable
      omega
    have hmove : Move w options context endpoints s _ :=
      Move.submitted endpoint hcontrol hready hendpoint hrate
    rw [State.startAfter, if_neg hlimited] at hmove
    rw [if_neg hlimited]
    exact hmove

theorem startingStep_move (hne : endpoints ≠ []) {s : State} (hcontrol : s.control = .starting) :
    Move w options context endpoints s (startingStep w options endpoints s) := by
  unfold startingStep
  split
  · next hroom =>
      split
      · next hexhausted =>
          -- All attempts were started.
          exact afterStarting_move s.ticks (Nat.le_refl _) hcontrol fun h => h.left hexhausted
      · next hleft =>
          dsimp only
          split
          · next hearly =>
              -- The next one is not due yet.
              exact afterStarting_move (s.ticks + 1) (Nat.le_succ _) hcontrol
                fun h => absurd (h.due hearly.1) (not_le.mpr hearly.2)
          · next hdue =>
              -- The endpoint is found, as the index is taken modulo their number.
              have hlt : s.nextEndpoint % endpoints.length < endpoints.length :=
                Nat.mod_lt _ (List.length_pos_iff.mpr hne)
              have hendpoint := List.getElem?_eq_getElem hlt
              have hready : s.Ready options (w.clock s.ticks) :=
                ⟨hroom, hleft, fun hrate => not_lt.mp fun hearly => hdue ⟨hrate, hearly⟩⟩
              exact submit_move hcontrol hready hendpoint
  · next hfull => exact afterStarting_move s.ticks (Nat.le_refl _) hcontrol fun h => hfull h.room

theorem harvestStep_move {s : State} {submission : Submission} {rest : List Submission}
    (hcontrol : s.control = .harvesting (submission :: rest)) :
    Move w options context endpoints s (harvestStep w options context s submission rest) := by
  unfold harvestStep
  dsimp only
  rcases htry : tryCapture w options context submission s.search
    with ⟨e | _ | ⟨candidate, peerIp⟩, search⟩
  · dsimp only
    split
    · next hnamed => exact Move.failed submission rest e search hcontrol htry hnamed
    · next hforeign =>
        exact Move.escaped submission rest e search hcontrol htry (Bool.eq_false_iff.mpr hforeign)
  · exact Move.lost submission rest search hcontrol htry
  · exact Move.won submission rest candidate peerIp search hcontrol htry

theorem reportStep_move {s : State} (hcontrol : s.control = .harvesting []) :
    Move w options context endpoints s (reportStep w s) := by
  unfold reportStep
  split
  · exact Move.quiet hcontrol
  · next callback hprogress =>
      split
      · exact Move.quiet hcontrol
      · dsimp only
        rw [Nat.add_sub_cancel]
        split
        · next hcall => exact Move.reported _ callback hcontrol hprogress (Or.inl ⟨hcall, rfl⟩)
        · next e hcall => exact Move.reported _ callback hcontrol hprogress (Or.inr ⟨e, hcall, rfl⟩)

/-- What the limits of an accepted search are. -/
theorem validateOptions_eq_ok_iff (options : GenerationOptions) (u : Unit) :
    validateOptions options = .ok u ↔ (1 ≤ options.port ∧ options.port ≤ 65535) ∧
      -1 ≤ options.connectionsPerSecond ∧ options.connectionsPerSecond ≠ 0 ∧
      (1 ≤ options.concurrency ∧ options.concurrency ≤ maxConcurrency) ∧
      0 < options.connectionTimeout ∧ 0 ≤ options.overallTimeout ∧ 0 ≤ options.maxAttempts := by
  unfold validateOptions
  simp only [bind_eq_ok_iff, failIf_eq_ok_iff, exists_const, not_not, not_lt, not_le]

theorem validateOptions_of_prepare (h : prepare w options context = .ok endpoints) :
    validateOptions options = .ok () := by
  unfold prepare at h
  rcases (bind_eq_ok_iff _ _ _).mp h with ⟨_, hvalid, -⟩
  exact hvalid

/-- A search that starts has somewhere to connect to. -/
theorem endpoints_ne_nil (h : prepare w options context = .ok endpoints) : endpoints ≠ [] := by
  unfold prepare resolveEndpoints at h
  simp only [bind_eq_ok_iff, failIf_eq_ok_iff, exists_const, pure_eq_ok_iff] at h
  rcases h with ⟨_, -, _, -, -, -, _, -, _, -, found, -, hne, rfl⟩
  exact hne

/-- A step is a move. -/
theorem step_move (hne : endpoints ≠ []) (s : State) :
    Move w options context endpoints s (step w options context endpoints s) := by
  unfold step
  split
  · next hcontrol => exact outerStep_move hcontrol
  · next hcontrol => exact startingStep_move hne hcontrol
  · next hcontrol => exact reportStep_move hcontrol
  · next submission rest hcontrol => exact harvestStep_move hcontrol
  · next result hcontrol => exact Move.ended (Or.inl ⟨result, hcontrol⟩)
  · next e hcontrol => exact Move.ended (Or.inr ⟨e, hcontrol⟩)

end Moves

end P2CTools
