import P2CTools.Theory.Accounting
import P2CTools.Wire.Eventually
import Mathlib.Algebra.Order.Archimedean.Basic
import Mathlib.Tactic.Linarith

/-!
# The End of a Search

A limited search ends, whatever its attempts come to, and so does the function
that makes it.

The outer loop goes round for as long as nothing is decided, and nothing in it
blocks: a wait has a timeout, and a sleep a length. `passes_outer` is one
round. It reads the clock at least once, and it starts or completes an attempt
unless it has a reason not to, which is that the next attempt is not due or
that the wait found nothing done. Time takes away either reason. The clock goes
past any point at which an attempt is due, and past the overall timeout; and an
attempt is done at some point, since it has a timeout of its own.

With an overall timeout the rounds are counted by their readings of the clock.
With an attempt limit they are counted by the attempts, of which each can be
started once and completed once.

Behind the loops the function waits for every thread that is still at work. It
has no timeout for that, so here it matters that a thread comes to its end. An
attempt does by its own timeout, and that is `World.Stops`.

## Main definitions

* `State.Over`: The function has ended.
* `Starting`: One step of the loop that starts attempts, with what a wait found.
* `Unmoved`, `Stalled`, `Passed`: What one round of the outer loop does.
* `World.Passes`, `World.Finishes`, `World.Stops`: What is expected of the clock,
  of the waits, and of the threads.

## Theorems

* `step_starting`: The steps of the loop that starts attempts.
* `passes_outer`: One round.
* `moves_on`: Rounds that do nothing do not go on.
* `eventually_over`: A limited search comes to its end.
* `eventually_ended`: The `finally` clause is left.
* `search_ends`: A limited search ends, and the function with it.
-/

namespace P2CTools

open Wire
open Tls13 (Endpoint)

/-- The function has ended. -/
def State.Over (s : State) : Prop :=
  (∃ result, s.control = .returned result) ∨ ∃ e, s.control = .raised e

section Rounds

variable {Cert Key : Type} (w : World Cert Key) (options : GenerationOptions)

/-- One step of the loop that starts attempts. -/
inductive Starting (s : State) : State → Prop
  | submitted (endpoint : Endpoint) (nextStart : ℚ) (hready : s.Ready options (w.clock s.ticks)) :
      Starting s (s.afterSubmit options endpoint (w.clock s.ticks) nextStart)
  /-- The rate is too large. -/
  | overflowed (t : State) (hover : t.Over) : Starting s t
  | slept (ticks : Nat) (hwait : ¬s.Ready options (w.clock s.ticks)) (hticks : s.ticks ≤ ticks)
      (hidle : s.pending = []) : Starting s { s with control := .outer, ticks := ticks }
  | waited (ticks : Nat) (timeout : ℚ) (hticks : s.ticks ≤ ticks) (hpending : s.pending ≠ []) :
      Starting s { s with
        control := .harvesting (s.done w timeout)
        ticks := ticks
        waits := s.waits + 1 }

/-- Nothing was started or completed. -/
structure Unmoved (s t : State) : Prop where
  pending : t.pending = s.pending
  nextStart : t.nextStart = s.nextStart
  started : t.attemptsStarted = s.attemptsStarted
  completed : t.attemptsCompleted = s.attemptsCompleted

/-- Something was started or completed. -/
def MovedOn (s t : State) : Prop :=
  s.attemptsStarted + s.attemptsCompleted < t.attemptsStarted + t.attemptsCompleted

/-- The reasons for a round that does nothing: no attempt is pending and the
    next one is not due, or a wait found none of the pending ones done. -/
def Stalled (s t : State) : Prop :=
  (s.pending = [] ∧ options.connectionsPerSecond ≠ -1 ∧
    ∃ k, s.ticks ≤ k ∧ w.clock k < s.nextStart) ∨
  (s.pending ≠ [] ∧ s.waits < t.waits ∧ ∃ timeout, s.done w timeout = [])

/-- One round of the outer loop, from its head to its head. -/
structure Passed (s t : State) : Prop where
  control : t.control = .outer
  ticks : s.ticks < t.ticks
  waits : s.waits ≤ t.waits
  startedAt : t.startedAt = s.startedAt
  moved : MovedOn s t ∨ (Unmoved s t ∧ Stalled w options s t)

/-- What the loop over the completed attempts leaves alone. -/
structure Kept (s t : State) : Prop where
  ticks : s.ticks ≤ t.ticks
  waits : t.waits = s.waits
  startedAt : t.startedAt = s.startedAt
  nextStart : t.nextStart = s.nextStart
  started : t.attemptsStarted = s.attemptsStarted

/-- After the loop over the completed attempts, of which there were some. -/
structure Harvested (s : State) (count : Nat) (t : State) : Prop where
  control : t.control = .outer
  kept : Kept s t
  completed : t.attemptsCompleted = s.attemptsCompleted + count
  pending : count = 0 → t.pending = s.pending

/-- In the loop that starts attempts, since the head of the outer loop. -/
structure Opened (s t : State) : Prop where
  control : t.control = .starting
  ticks : s.ticks < t.ticks
  waits : t.waits = s.waits
  startedAt : t.startedAt = s.startedAt
  more : ¬ (s.exhausted options ∧ s.pending = [])
  moved : MovedOn s t ∨ Unmoved s t

/-- At the loop over the completed attempts, since the head of the outer loop. -/
structure Waited (s t : State) (done : List Submission) : Prop where
  control : t.control = .harvesting done
  ticks : s.ticks < t.ticks
  waits : s.waits < t.waits
  startedAt : t.startedAt = s.startedAt
  moved : MovedOn s t ∨ (Unmoved s t ∧ s.pending ≠ [] ∧ ∃ timeout, done = s.done w timeout)

variable {w options} (context : ConnectionProof) {endpoints : List Endpoint} {s t : State}

/-- What a wait finds depends on the wait's number and on what is pending. -/
theorem done_congr (timeout : ℚ) (hwaits : t.waits = s.waits) (hpending : t.pending = s.pending) :
    t.done w timeout = s.done w timeout := by
  unfold State.done
  rw [hwaits, hpending]

theorem afterStarting_starting (ticks : Nat) (hticks : s.ticks ≤ ticks)
    (hwait : ¬s.Ready options (w.clock s.ticks)) :
    Starting w options s (afterStarting w options { s with ticks := ticks }) := by
  unfold afterStarting
  by_cases hidle : s.pending = []
  · rw [if_pos hidle]
    exact Starting.slept (ticks + 1) hwait (by omega) hidle
  · rw [if_neg hidle]
    split
    · exact Starting.waited (ticks + 1) _ (by omega) hidle
    · exact Starting.waited ticks _ hticks hidle

variable (w options)

/-- The steps of the loop that starts attempts. -/
theorem step_starting (hne : endpoints ≠ []) (hcontrol : s.control = .starting) :
    Starting w options s (step w options context endpoints s) := by
  have hstep : step w options context endpoints s = startingStep w options endpoints s := by
    unfold step
    rw [hcontrol]
  rw [hstep]
  unfold startingStep
  by_cases hroom : s.pending.length < options.concurrency
  · rw [if_pos hroom]
    by_cases hexhausted : s.exhausted options
    · rw [if_pos hexhausted]
      exact afterStarting_starting s.ticks (Nat.le_refl _) fun h => h.left hexhausted
    · rw [if_neg hexhausted]
      dsimp only
      by_cases hearly : options.connectionsPerSecond ≠ -1 ∧ w.clock s.ticks < s.nextStart
      · rw [if_pos hearly]
        exact afterStarting_starting (s.ticks + 1) (Nat.le_succ _)
          fun h => absurd (h.due hearly.1) (not_le.mpr hearly.2)
      · rw [if_neg hearly]
        have hready : s.Ready options (w.clock s.ticks) :=
          ⟨hroom, hexhausted, fun hrate => not_lt.mp fun h => hearly ⟨hrate, h⟩⟩
        -- The endpoint is found, as the index is taken modulo their number.
        have hlt : s.nextEndpoint % endpoints.length < endpoints.length :=
          Nat.mod_lt _ (List.length_pos_iff.mpr hne)
        unfold submit
        rw [List.getElem?_eq_getElem hlt]
        dsimp only
        split
        · split
          · exact Starting.overflowed _ (Or.inr ⟨_, rfl⟩)
          · exact Starting.submitted _ _ hready
        · exact Starting.submitted _ s.nextStart hready
  · rw [if_neg hroom]
    exact afterStarting_starting s.ticks (Nat.le_refl _) fun h => hroom h.room

theorem Kept.trans {u : State} (h : Kept s t) (h' : Kept t u) : Kept s u where
  ticks := h.ticks.trans h'.ticks
  waits := h'.waits.trans h.waits
  startedAt := h'.startedAt.trans h.startedAt
  nextStart := h'.nextStart.trans h.nextStart
  started := h'.started.trans h.started

/-- A pass of the loop over the completed attempts ends the search or counts
    the attempt. -/
theorem step_harvest (hne : endpoints ≠ []) {submission : Submission} {rest : List Submission}
    (hcontrol : s.control = .harvesting (submission :: rest)) :
    (step w options context endpoints s).Over ∨
      ((step w options context endpoints s).control = .harvesting rest ∧
        Kept s (step w options context endpoints s) ∧
        (step w options context endpoints s).attemptsCompleted = s.attemptsCompleted + 1) := by
  have hmove : Move w options context endpoints s (step w options context endpoints s) :=
    step_move hne s
  generalize step w options context endpoints s = t at hmove
  cases hmove with
  | won => exact Or.inl (Or.inl ⟨_, rfl⟩)
  | escaped _ _ e => exact Or.inl (Or.inr ⟨e, rfl⟩)
  | lost _ _ _ h =>
      rw [hcontrol] at h
      cases h
      exact Or.inr ⟨rfl, ⟨Nat.le_refl _, rfl, rfl, rfl, rfl⟩, rfl⟩
  | failed _ _ _ _ h =>
      rw [hcontrol] at h
      cases h
      exact Or.inr ⟨rfl, ⟨Nat.le_refl _, rfl, rfl, rfl, rfl⟩, rfl⟩
  | opened h | expired h | usedUp h | submitted _ h | overflowed _ h | slept _ h | waited _ _ h
  | quiet h | reported _ _ h =>
      rw [hcontrol] at h
      cases h
  | ended h =>
      rw [hcontrol] at h
      rcases h with ⟨_, h⟩ | ⟨_, h⟩
      · cases h
      · cases h

/-- Behind the last of them comes the report, and then the outer loop. -/
theorem step_report (hne : endpoints ≠ []) (hcontrol : s.control = .harvesting []) :
    (step w options context endpoints s).Over ∨
      Harvested s 0 (step w options context endpoints s) := by
  have hmove : Move w options context endpoints s (step w options context endpoints s) :=
    step_move hne s
  generalize step w options context endpoints s = t at hmove
  cases hmove with
  | quiet => exact Or.inr ⟨rfl, ⟨Nat.le_refl _, rfl, rfl, rfl, rfl⟩, rfl, fun _ => rfl⟩
  | reported control callback _ _ hcall =>
      rcases hcall with ⟨-, rfl⟩ | ⟨e, -, rfl⟩
      · exact Or.inr ⟨rfl, ⟨Nat.le_succ _, rfl, rfl, rfl, rfl⟩, rfl, fun _ => rfl⟩
      · exact Or.inl (Or.inr ⟨e, rfl⟩)
  | opened h | expired h | usedUp h | submitted _ h | slept _ h | waited _ _ h | won _ _ _ _ _ h
  | lost _ _ _ h | failed _ _ _ _ h | escaped _ _ _ _ h | overflowed _ h =>
      rw [hcontrol] at h
      cases h
  | ended h =>
      rw [hcontrol] at h
      rcases h with ⟨_, h⟩ | ⟨_, h⟩
      · cases h
      · cases h

/-- The head of the outer loop ends the search or enters the loop that starts
    attempts. -/
theorem step_outer (hne : endpoints ≠ []) (hcontrol : s.control = .outer) :
    (step w options context endpoints s).Over ∨
      (Opened options s (step w options context endpoints s) ∧
        ¬s.overdue options (w.clock s.ticks)) := by
  have hmove : Move w options context endpoints s (step w options context endpoints s) :=
    step_move hne s
  generalize step w options context endpoints s = t at hmove
  cases hmove with
  | expired => exact Or.inl (Or.inr ⟨_, rfl⟩)
  | usedUp => exact Or.inl (Or.inr ⟨_, rfl⟩)
  | opened _ hintime hmore =>
      exact Or.inr ⟨⟨rfl, Nat.lt_succ_self _, rfl, rfl, hmore, Or.inr ⟨rfl, rfl, rfl, rfl⟩⟩,
        hintime⟩
  | submitted _ h | overflowed _ h | slept _ h | waited _ _ h | won _ _ _ _ _ h | lost _ _ _ h
  | failed _ _ _ _ h | escaped _ _ _ _ h | quiet h | reported _ _ h =>
      rw [hcontrol] at h
      cases h
  | ended h =>
      rw [hcontrol] at h
      rcases h with ⟨_, h⟩ | ⟨_, h⟩
      · cases h
      · cases h

variable {w options context}

/-- The loop over the completed attempts ends at the head of the outer loop, or
    it ends the search. -/
theorem passes_harvest (hne : endpoints ≠ []) (done : List Submission) :
    ∀ s : State, s.control = .harvesting done → Eventually (step w options context endpoints)
      (fun t => t.Over ∨ Harvested s done.length t) s := by
  induction done with
  | nil =>
      intro s hcontrol
      exact Eventually.later (Eventually.now (step_report w options context hne hcontrol))
  | cons submission rest ih =>
      intro s hcontrol
      refine Eventually.later ?_
      rcases step_harvest w options context hne hcontrol
        with hover | ⟨hrest, hkept, hcompleted⟩
      · exact Eventually.now (Or.inl hover)
      -- The first of them is counted, and the others are a shorter pass.
      · refine (ih _ hrest).mono fun u hu => ?_
        rcases hu with hu | hu
        · exact Or.inl hu
        · refine Or.inr ⟨hu.control, hkept.trans hu.kept, ?_, ?_⟩
          · rw [hu.completed, hcompleted, List.length_cons]
            omega
          · intro h
            rw [List.length_cons] at h
            omega

/-- The loop that starts attempts ends in a sleep or in a wait, or it ends the
    search. Each attempt it starts is one less that it may start. -/
theorem passes_starting (hne : endpoints ≠ []) (hconcurrency : 1 ≤ options.concurrency)
    (h : Opened options s t) : Eventually (step w options context endpoints)
      (fun u => u.Over ∨ Passed w options s u ∨ ∃ done, Waited w s u done) t := by
  refine eventually_of_variant (fun u => (options.concurrency - u.pending.length).toNat)
    (fun u hu => Eventually.later (Eventually.now ?_)) h
  have hstarting := step_starting w options context hne hu.control
  generalize step w options context endpoints u = v at hstarting
  cases hstarting with
  | overflowed _ hover => exact Or.inl (Or.inl hover)
  | submitted endpoint nextStart hready =>
      have hroom := hready.room
      refine Or.inr ⟨⟨hu.control, Nat.lt_succ_of_lt hu.ticks, hu.waits, hu.startedAt, hu.more,
        Or.inl ?_⟩, ?_⟩
      · change s.attemptsStarted + s.attemptsCompleted <
          u.attemptsStarted + 1 + u.attemptsCompleted
        rcases hu.moved with hmoved | hmoved
        · unfold MovedOn at hmoved
          omega
        · rw [hmoved.started, hmoved.completed]
          omega
      · change (options.concurrency - ((u.pending ++ [_]).length : Int)).toNat < _
        rw [List.length_append, List.length_singleton]
        omega
  | slept ticks hwait hticks hidle =>
      refine Or.inl (Or.inr (Or.inl ⟨rfl, hu.ticks.trans_le hticks, hu.waits.ge, hu.startedAt, ?_⟩))
      rcases hu.moved with hmoved | hmoved
      · exact Or.inl hmoved
      -- There is room, and attempts are left, so the next one is not due.
      · have hnone : s.pending = [] := hmoved.pending.symm.trans hidle
        refine Or.inr ⟨⟨hmoved.pending, hmoved.nextStart, hmoved.started, hmoved.completed⟩,
          Or.inl ⟨hnone, ?_⟩⟩
        by_contra hdue
        refine hwait ⟨?_, ?_, ?_⟩
        · rw [hidle, List.length_nil]
          omega
        · intro hexhausted
          refine hu.more ⟨?_, hnone⟩
          unfold State.exhausted at hexhausted ⊢
          rw [← hmoved.started]
          exact hexhausted
        · intro hrate
          by_contra hearly
          refine hdue ⟨hrate, u.ticks, hu.ticks.le, ?_⟩
          rw [← hmoved.nextStart]
          exact not_le.mp hearly
  | waited ticks timeout hticks hpending =>
      refine Or.inl (Or.inr (Or.inr ⟨_, rfl, hu.ticks.trans_le hticks, ?_, hu.startedAt, ?_⟩))
      · exact Nat.lt_succ_of_le hu.waits.ge
      · rcases hu.moved with hmoved | hmoved
        · exact Or.inl hmoved
        · refine Or.inr ⟨⟨hmoved.pending, hmoved.nextStart, hmoved.started, hmoved.completed⟩,
            hmoved.pending ▸ hpending, timeout, ?_⟩
          exact done_congr timeout hu.waits hmoved.pending

/-- One round of the outer loop. -/
theorem passes_outer (hne : endpoints ≠ []) (hconcurrency : 1 ≤ options.concurrency)
    (hcontrol : s.control = .outer) : Eventually (step w options context endpoints)
      (fun t => t.Over ∨ Passed w options s t) s := by
  refine Eventually.later ?_
  rcases step_outer w options context hne hcontrol
    with hover | ⟨hopened, -⟩
  · exact Eventually.now (Or.inl hover)
  · refine (passes_starting hne hconcurrency hopened).bind fun t ht => ?_
    rcases ht with hover | hpassed | ⟨done, hwaited⟩
    · exact Eventually.now (Or.inl hover)
    · exact Eventually.now (Or.inr hpassed)
    -- After a wait there is the loop over the completed attempts.
    · refine (passes_harvest hne done t hwaited.control).mono fun u hu => ?_
      rcases hu with hover | hu
      · exact Or.inl hover
      · have hkept := hu.kept
        have hstarted := hkept.started
        have hcompleted := hu.completed
        refine Or.inr ⟨hu.control, hwaited.ticks.trans_le hkept.ticks, ?_, ?_, ?_⟩
        · rw [hkept.waits]
          exact hwaited.waits.le
        · rw [hkept.startedAt, hwaited.startedAt]
        · rcases hwaited.moved with hmoved | ⟨hmoved, hpending, timeout, hdone⟩
          · unfold MovedOn at hmoved
            exact Or.inl (by unfold MovedOn; omega)
          · by_cases hnone : done = []
            -- The wait found nothing.
            · rw [hnone, List.length_nil] at hcompleted
              have hsame := hu.pending (by rw [hnone, List.length_nil])
              refine Or.inr ⟨⟨hsame.trans hmoved.pending, hkept.nextStart.trans hmoved.nextStart,
                hstarted.trans hmoved.started, hcompleted.trans hmoved.completed⟩,
                Or.inr ⟨hpending, ?_, timeout, hdone.symm.trans hnone⟩⟩
              rw [hkept.waits]
              exact hwaited.waits
            · have hlength := List.length_pos_iff.mpr hnone
              have hstarted' := hmoved.started
              have hcompleted' := hmoved.completed
              exact Or.inl (by unfold MovedOn; omega)

end Rounds

/-! ### Limits -/

section Limits

variable {Cert Key : Type} {w : World Cert Key} {options : GenerationOptions}
  {context : ConnectionProof} {endpoints : List Endpoint} {s : State}

/-- A wait that can find a pending attempt done finds some. -/
theorem done_ne_nil {timeout : ℚ} {submission : Submission} (hpending : submission ∈ s.pending)
    (hdone : submission.number ∈ w.finished s.waits timeout) : s.done w timeout ≠ [] := by
  unfold State.done
  intro hnil
  rw [List.filterMap_eq_nil_iff] at hnil
  have hfind := hnil _ (List.mem_dedup.mpr hdone)
  rw [List.find?_eq_none] at hfind
  exact hfind submission hpending (beq_self_eq_true _)

/-- The clock passes every moment. -/
def World.Passes (w : World Cert Key) : Prop :=
  ∀ moment, ∃ k, ∀ j ≥ k, moment ≤ w.clock j

/-- Every attempt is found done by all waits from one on. -/
def World.Finishes (w : World Cert Key) : Prop :=
  ∀ number, ∃ k, ∀ j ≥ k, ∀ timeout, number ∈ w.finished j timeout

/-- Rounds that do nothing do not go on: the next attempt becomes due, or a
    pending one is done. -/
theorem moves_on (hne : endpoints ≠ []) (hconcurrency : 1 ≤ options.concurrency)
    (hclock : w.Passes) (hfinish : w.Finishes) (hcontrol : s.control = .outer) :
    Eventually (step w options context endpoints)
      (fun t => t.Over ∨ (t.control = .outer ∧ MovedOn s t)) s := by
  -- What the rounds count, and the bound that takes away the reason to do nothing.
  have hbound : ∃ bound, ∀ t : State, Unmoved s t →
      bound ≤ (if s.pending = [] then t.ticks else t.waits) → ∀ u, ¬Stalled w options t u := by
    by_cases hpending : s.pending = []
    · rcases hclock s.nextStart with ⟨k, hk⟩
      refine ⟨k, fun t ht hcount u hstalled => ?_⟩
      rw [if_pos hpending] at hcount
      rcases hstalled with ⟨-, -, j, hj, hearly⟩ | ⟨hsome, -⟩
      · rw [ht.nextStart] at hearly
        exact absurd (hk j (hcount.trans hj)) (not_le.mpr hearly)
      · exact hsome (ht.pending.trans hpending)
    · rcases List.exists_mem_of_ne_nil _ hpending with ⟨submission, hsubmission⟩
      rcases hfinish submission.number with ⟨k, hk⟩
      refine ⟨k, fun t ht hcount u hstalled => ?_⟩
      rw [if_neg hpending] at hcount
      rcases hstalled with ⟨hnone, -⟩ | ⟨-, -, timeout, hnone⟩
      · exact hpending (ht.pending.symm.trans hnone)
      · exact done_ne_nil (ht.pending.symm ▸ hsubmission) (hk _ hcount timeout) hnone
  rcases hbound with ⟨bound, hbound⟩
  let Rounds : State → Prop := fun t => t.control = .outer ∧ Unmoved s t
  have hmoved : ∀ t u, Rounds t → Passed w options t u → MovedOn t u → MovedOn s u := by
    intro t u ht _ hu
    have hstarted := ht.2.started
    have hcompleted := ht.2.completed
    unfold MovedOn at hu ⊢
    omega
  refine Eventually.bind (eventually_of_growth (I := Rounds)
    (Q := fun t => t.Over ∨ (t.control = .outer ∧ MovedOn s t))
    (fun t => if s.pending = [] then t.ticks else t.waits) (fun t ht => ?_) bound
    ⟨hcontrol, rfl, rfl, rfl, rfl⟩) fun t ht => ?_
  · refine (passes_outer hne hconcurrency ht.1).mono fun u hu => ?_
    rcases hu with hover | hu
    · exact Or.inl (Or.inl hover)
    · rcases hu.moved with hm | ⟨hsame, hstalled⟩
      · exact Or.inl (Or.inr ⟨hu.control, hmoved t u ht hu hm⟩)
      · refine Or.inr ⟨⟨hu.control, hsame.pending.trans ht.2.pending,
          hsame.nextStart.trans ht.2.nextStart, hsame.started.trans ht.2.started,
          hsame.completed.trans ht.2.completed⟩, ?_⟩
        by_cases hpending : s.pending = []
        · rw [if_pos hpending, if_pos hpending]
          exact hu.ticks
        · rw [if_neg hpending, if_neg hpending]
          rcases hstalled with ⟨hnone, -⟩ | ⟨-, hwaits, -⟩
          · exact absurd (ht.2.pending.symm.trans hnone) hpending
          · exact hwaits
  · rcases ht with ht | ⟨ht, hcount⟩
    · exact Eventually.now ht
    · refine (passes_outer hne hconcurrency ht.1).mono fun u hu => ?_
      rcases hu with hover | hu
      · exact Or.inl hover
      · rcases hu.moved with hm | ⟨-, hstalled⟩
        · exact Or.inr ⟨hu.control, hmoved t u ht hu hm⟩
        · exact absurd hstalled (hbound t ht.2 hcount u)

/-- What is over stays so. -/
theorem step_over (h : s.Over) : step w options context endpoints s = s := by
  unfold step
  rcases h with ⟨result, h⟩ | ⟨e, h⟩
  · rw [h]
  · rw [h]

/-- A search with an overall timeout ends when the clock has passed it. -/
theorem ends_by_deadline (hne : endpoints ≠ []) (hconcurrency : 1 ≤ options.concurrency)
    (hclock : w.Passes) (htimeout : options.overallTimeout ≠ 0) (hcontrol : s.control = .outer) :
    Eventually (step w options context endpoints) State.Over s := by
  rcases hclock (options.overallTimeout + s.startedAt) with ⟨k, hk⟩
  refine Eventually.bind (eventually_of_growth (Q := State.Over)
    (I := fun t => t.control = .outer ∧ t.startedAt = s.startedAt) State.ticks
    (fun t ht => ?_) k ⟨hcontrol, rfl⟩) fun t ht => ?_
  · refine (passes_outer hne hconcurrency ht.1).mono fun u hu => ?_
    rcases hu with hover | hu
    · exact Or.inl hover
    · exact Or.inr ⟨⟨hu.control, hu.startedAt.trans ht.2⟩, hu.ticks⟩
  · rcases ht with hover | ⟨⟨houter, hstarted⟩, hticks⟩
    · exact Eventually.now hover
    -- The reading at the loop's head is past the timeout.
    · refine Eventually.later (Eventually.now ?_)
      rcases step_outer w options context hne houter
        with hover | ⟨-, hintime⟩
      · exact hover
      · refine absurd ⟨htimeout, ?_⟩ hintime
        have hlate := hk t.ticks hticks
        rw [hstarted]
        linarith

/-- A search with an attempt limit ends when its attempts are used up. -/
theorem ends_by_attempts (hne : endpoints ≠ []) (hconcurrency : 1 ≤ options.concurrency)
    (hclock : w.Passes) (hfinish : w.Finishes) (hlimit : options.maxAttempts ≠ 0)
    (hcontrol : s.control = .outer) (haccounts : Accounts options s) :
    Eventually (step w options context endpoints) State.Over s := by
  refine eventually_of_variant (I := fun t => t.control = .outer ∧ Accounts options t)
    (fun t => 2 * options.maxAttempts.toNat - (t.attemptsStarted + t.attemptsCompleted))
    (fun t ht => ?_) ⟨hcontrol, haccounts⟩
  have hmoves : Eventually (step w options context endpoints)
      (fun u => u.Over ∨ (u.control = .outer ∧ MovedOn t u)) t :=
    moves_on hne hconcurrency hclock hfinish ht.1
  have hkept := hmoves.and_invariant ht.2 fun u hu => accounts_step hu (step_move hne u)
  refine hkept.mono fun u hu => ?_
  rcases hu with ⟨hover | ⟨houter, hmoved⟩, hu⟩
  · exact Or.inl hover
  -- Each attempt is started once and completed once.
  · refine Or.inr ⟨⟨houter, hu⟩, ?_⟩
    have hstarted := hu.limit hlimit
    have hcompleted : u.attemptsCompleted ≤ u.attemptsStarted := by
      rw [hu.completed, hu.started]
      have hlength := hu.balanced.length_eq
      rw [List.length_map] at hlength
      omega
    unfold MovedOn at hmoved
    omega

/-- A limited search comes to its end. -/
theorem eventually_over (hprepare : prepare w options context = .ok endpoints)
    (hclock : w.Passes)
    (hlimit : options.overallTimeout ≠ 0 ∨ (options.maxAttempts ≠ 0 ∧ w.Finishes)) :
    Eventually (step w options context endpoints) State.Over (start w) := by
  have hne := endpoints_ne_nil hprepare
  rcases (validateOptions_eq_ok_iff options ()).mp (validateOptions_of_prepare hprepare)
    with ⟨-, -, -, ⟨hconcurrency, -⟩, -, -, hattempts⟩
  rcases hlimit with htimeout | ⟨hmax, hfinish⟩
  · exact ends_by_deadline hne hconcurrency hclock htimeout rfl
  · exact ends_by_attempts hne hconcurrency hclock hfinish hmax rfl
      (accounts_start hconcurrency hattempts)

/-! ### The `finally` clause -/

/-- Every thread is found at its end by all looks from one on. -/
def World.Stops (w : World Cert Key) : Prop :=
  ∀ number, ∃ k, ∀ j ≥ k, number ∈ w.stopped j

/-- A search is over exactly if the `try` statement is left. -/
theorem over_iff_outcome (s : State) : s.Over ↔ ∃ outcome, s.outcome = some outcome := by
  unfold State.Over State.outcome
  cases hcontrol : s.control with
  | returned result => simp
  | raised e => simp
  | outer => simp
  | starting => simp
  | harvesting done => simp

theorem outcome_none_of_not_over (h : ¬s.Over) : s.outcome = none := by
  by_contra hsome
  exact h ((over_iff_outcome s).mpr (Option.ne_none_iff_exists'.mp hsome))

/-- While the search goes on, the function is in its loops. -/
theorem generationStep_going (h : ¬s.Over) :
    generationStep w options context endpoints (.trying s) =
      .trying (step w options context endpoints s) := by
  rw [generationStep, outcome_none_of_not_over h]

theorem generationStep_over {outcome : Except PyErr GenerationResult}
    (h : s.outcome = some outcome) :
    generationStep w options context endpoints (.trying s) = s.leave w outcome := by
  rw [generationStep, h]

/-- There is a look from which on all of some threads are at their ends. -/
theorem exists_look (hstops : w.Stops) (running : List Submission) :
    ∃ k, ∀ j ≥ k, ∀ submission ∈ running, submission.number ∈ w.stopped j := by
  induction running with
  | nil => exact ⟨0, fun j _ submission hmem => absurd hmem List.not_mem_nil⟩
  | cons first rest ih =>
      rcases ih with ⟨k, hk⟩
      rcases hstops first.number with ⟨l, hl⟩
      refine ⟨max k l, fun j hj submission hmem => ?_⟩
      rcases List.mem_cons.mp hmem with rfl | hmem
      · exact hl j ((Nat.le_max_right k l).trans hj)
      · exact hk j ((Nat.le_max_left k l).trans hj) submission hmem

/-- The looks that have been made. -/
def Generation.looks : Generation → Nat
  | .closing _ looks _ => looks
  | _ => 0

/-- The `finally` clause is left, once all threads have come to their ends. -/
theorem eventually_ended (hstops : w.Stops) (outcome : Except PyErr GenerationResult)
    (looks : Nat) (running : List Submission) :
    Eventually (generationStep w options context endpoints) (fun g => g = .ended outcome)
      (.closing outcome looks running) := by
  rcases exists_look hstops running with ⟨bound, hbound⟩
  refine Eventually.bind (eventually_of_growth (Q := fun g => g = .ended outcome)
    (I := fun g => ∃ looks left, g = .closing outcome looks left ∧ left ⊆ running)
    Generation.looks (fun g hg => ?_) bound ⟨looks, running, rfl, List.Subset.refl running⟩)
    fun g hg => ?_
  · rcases hg with ⟨looks, left, rfl, hleft⟩
    refine Eventually.later (Eventually.now ?_)
    by_cases hnone : left = []
    · exact Or.inl (if_pos hnone)
    · refine Or.inr ⟨⟨looks + 1, _, if_neg hnone,
        fun submission hmem => hleft (List.mem_of_mem_filter hmem)⟩, ?_⟩
      rw [generationStep, if_neg hnone]
      exact Nat.lt_succ_self looks
  · rcases hg with hg | ⟨⟨looks, left, rfl, hleft⟩, hlooks⟩
    · exact Eventually.now hg
    by_cases hnone : left = []
    · exact Eventually.later (Eventually.now (if_pos hnone))
    -- One look finds the rest, and the step behind it finds nobody.
    · have hlast : generationStep w options context endpoints (.closing outcome looks left) =
          .closing outcome (looks + 1) [] := by
        rw [generationStep, if_neg hnone]
        congr 1
        rw [List.filter_eq_nil_iff]
        intro submission hmem
        rw [decide_eq_true_eq, not_not]
        exact hbound looks hlooks submission (hleft hmem)
      refine Eventually.later (Eventually.later (Eventually.now ?_))
      rw [hlast, generationStep, if_pos rfl]

/-- What the search comes to, the function comes to. -/
theorem eventually_outcome (hstops : w.Stops) {outcome : Except PyErr GenerationResult} (n : Nat)
    (h : ((step w options context endpoints)^[n] s).outcome = some outcome) :
    Eventually (generationStep w options context endpoints) (fun g => g = .ended outcome)
      (.trying s) := by
  have hleft : ∀ s : State, s.outcome = some outcome →
      Eventually (generationStep w options context endpoints) (fun g => g = .ended outcome)
        (.trying s) := by
    intro s hs
    refine Eventually.later ?_
    rw [generationStep_over hs]
    exact eventually_ended hstops outcome 0 _
  -- The induction is on the steps that the search has left.
  induction n generalizing s with
  | zero => exact hleft s h
  | succ n ih =>
      rw [Function.iterate_succ_apply] at h
      by_cases hover : s.Over
      · rw [step_over hover] at h
        exact ih h
      · refine Eventually.later ?_
        rw [generationStep_going hover]
        exact ih h

/-- A search that is limited in time, or in attempts that each come to an end,
    is over after some number of steps, whatever its attempts come to and in
    whatever order they are completed. The function then waits for the threads
    that are left, and ends with what the search has come to. -/
theorem search_ends (w : World Cert Key) (options : GenerationOptions) (context : ConnectionProof)
    (endpoints : List Endpoint) (hprepare : prepare w options context = .ok endpoints)
    (hclock : w.Passes) (hstops : w.Stops)
    (hlimit : options.overallTimeout ≠ 0 ∨ (options.maxAttempts ≠ 0 ∧ w.Finishes)) :
    ∃ n outcome s, Run (Following (step w options context endpoints)) (start w) s ∧
      s.outcome = some outcome ∧
      ∀ m ≥ n, (generationStep w options context endpoints)^[m] (.trying (start w)) =
        .ended outcome := by
  rcases eventually_over hprepare hclock hlimit with ⟨k, hover⟩
  rcases (over_iff_outcome _).mp hover with ⟨outcome, houtcome⟩
  rcases eventually_outcome hstops k houtcome with ⟨n, hn⟩
  refine ⟨n, outcome, _, run_iterate (step w options context endpoints) (start w) k, houtcome,
    fun m hm => ?_⟩
  -- What has ended stays so.
  rw [← Nat.sub_add_cancel hm, Function.iterate_add_apply, hn]
  exact Function.iterate_fixed rfl _

theorem stops_sampleWorld (attempt : Tls13.Attempt) : (sampleWorld attempt).Stops :=
  fun number => ⟨number + 1, fun _ hj => List.mem_range.mpr hj⟩

/-- A world whose clock goes on and whose attempts are all done at some wait. -/
def tickingWorld : World Bytes Unit :=
  { sampleWorld (Tls13.attemptOn []) with
    clock := fun k => k
    finished := fun k _ => List.range k }

theorem prepare_tickingWorld :
    prepare tickingWorld sampleOptions sampleContext = .ok [sampleEndpoint] :=
  prepare_sampleWorld (Tls13.attemptOn [])

theorem passes_tickingWorld : tickingWorld.Passes := by
  intro moment
  rcases exists_nat_ge moment with ⟨k, hk⟩
  exact ⟨k, fun j hj => hk.trans (Nat.cast_le.mpr hj)⟩

theorem finishes_tickingWorld : tickingWorld.Finishes :=
  fun number => ⟨number + 1, fun _ hj _ => List.mem_range.mpr hj⟩

theorem stops_tickingWorld : tickingWorld.Stops :=
  stops_sampleWorld (Tls13.attemptOn [])

/-- The search for which one attempt is allowed ends, though its peer says
    nothing, and the function with it. -/
theorem tickingWorld_ends : ∃ n outcome, ∀ m ≥ n,
    (generationStep tickingWorld sampleOptions sampleContext [sampleEndpoint])^[m]
      (.trying (start tickingWorld)) = .ended outcome := by
  rcases search_ends tickingWorld sampleOptions sampleContext [sampleEndpoint] prepare_tickingWorld
    passes_tickingWorld stops_tickingWorld (Or.inr ⟨by decide, finishes_tickingWorld⟩)
    with ⟨n, outcome, -, -, -, hn⟩
  exact ⟨n, outcome, hn⟩

end Limits

end P2CTools
