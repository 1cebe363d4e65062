import P2CTools.Theory.Sessions
import P2CTools.Wire.Inevitable

/-!
# The End of a Session

A `generate` command whose search is limited ends, however it is interleaved
with others and whatever the operating system answers.

A session decides nothing that could go on for ever. Its search is a stretch in
which it draws no answers, so what is known of searches applies, and everything
that follows is a line of operations: each step of a call of `write` brings it
nearer to its end, whether the operation succeeds or fails. An interrupt leads
away from this line, to the `finally` clause of the search or straight to the
end of the session.

The bound is the session's own. It is a number of steps that the session itself
takes, and neither the other sessions nor what happens in the directory have a
part in it.

## Main definitions

* `Session.Over`: The session has ended.
* `Phase.left`: How many operations a call of `write` has left.
* `Given`, `Session.next`: What a session is given, and what it does then.
* `Sessions.OwnStep`: A step of one of the sessions.

## Theorems

* `left_writeStep`: Every step of a call of `write` brings it nearer to its end.
* `inevitable_over`: A session ends whatever it is answered.
* `generate_ends`: A session ends among others.
-/

namespace P2CTools

open Wire
open Tls13 (Endpoint)

variable {Cert Key ι Name : Type}

/-! ### The call of `write` -/

section Writing

/-- How many operations a call has left, at most. -/
def Phase.left : Phase → Nat
  | .serializing => 8
  | .creating => 7
  | .writing => 6
  | .flushing => 5
  | .syncing => 4
  | .closing _ => 3
  | .publishing => 2
  | .cleaning _ => 1
  | .ended _ => 0

theorem left_leave (call : Call Name) (outcome : Except PyErr Unit) :
    (call.leave outcome).phase.left ≤ 1 := by
  unfold Call.leave
  cases call.temporary with
  | none => exact Nat.zero_le 1
  | some name => exact Nat.le_refl 1

variable [DecidableEq Name]

/-- Every step of a call brings it nearer to its end. -/
theorem left_writeStep (destination : Name) (args : WriteArgs) (answer : Answer Name)
    (call : Call Name) (d : Directory Name) (h : call.outcome = none) :
    (writeStep destination args answer call d).call.phase.left < call.phase.left := by
  have hleave := left_leave call
  unfold writeStep
  cases hphase : call.phase with
  | serializing =>
      cases args.envelope.serialized with
      | ok text => simp [Phase.left]
      | error e => simp [Phase.left]
  | creating =>
      dsimp only
      cases guardedWrite (answer.unless (.ok (d.create answer.name))) with
      | ok d' => simp [Phase.left]
      | error e => exact lt_of_le_of_lt (hleave _) (by simp [Phase.left])
  | writing =>
      dsimp only
      cases encodeUtf8 call.serialized with
      | error e => simp [Phase.left]
      | ok text =>
          cases answer.error with
          | none => simp [Phase.left]
          | some e => simp [Phase.left]
  | flushing =>
      dsimp only
      cases answer.error with
      | none => simp [Phase.left]
      | some e => simp [Phase.left]
  | syncing => simp [Phase.left]
  | closing raised =>
      cases raised with
      | some e => exact lt_of_le_of_lt (hleave _) (by simp [Phase.left])
      | none =>
          dsimp only
          cases guardedWrite (answer.unless (.ok ())) with
          | ok u => simp [Phase.left]
          | error e => exact lt_of_le_of_lt (hleave _) (by simp [Phase.left])
  | publishing =>
      dsimp only
      cases htemporary : call.temporary with
      | none => simp [Phase.left]
      | some temporary =>
          dsimp only
          cases publish destination args.overwrite answer temporary d with
          | error e => exact lt_of_le_of_lt (hleave _) (by simp [Phase.left])
          | ok d' =>
              dsimp only
              -- Whether there is still a file to remove or not.
              split
              · exact lt_of_le_of_lt (left_leave _ _) (by simp [Phase.left])
              · exact lt_of_le_of_lt (hleave _) (by simp [Phase.left])
  | cleaning outcome =>
      dsimp only
      cases call.temporary with
      | none => simp [Phase.left]
      | some temporary =>
          cases answer.error with
          | none => simp [Phase.left]
          | some e => simp [Phase.left]
  | ended outcome =>
      rw [Call.outcome, hphase] at h
      exact absurd h (by simp)

end Writing

/-! ### One session -/

section Session

/-- The session has ended. -/
def Session.Over (σ : Session Name) : Prop :=
  ∃ result outcome, σ.stage = .ended result outcome

/-- The search is over, and the session is on its way to the end. -/
def Session.Closing (σ : Session Name) : Prop :=
  σ.Over ∨ ∃ result, σ.stage = .writing result ∨ σ.stage = .reporting result

/-- How many operations a session has left behind its search, at most. -/
def Session.left (σ : Session Name) : Nat :=
  match σ.stage with
  | .writing _ => σ.call.phase.left + 2
  | .reporting _ => 1
  | _ => 0

/-- An interrupt ends a session, unless it is in the loops of its search. -/
theorem interrupted_over {w : World Cert Key} {σ σ' : Session Name}
    (h : σ.interrupted w = some σ')
    (hstage : ∀ context endpoints s, σ.stage ≠ .searching context endpoints (.trying s)) :
    σ'.Over := by
  unfold Session.interrupted at h
  cases hat : σ.stage with
  | preparing =>
      rw [hat, Option.some.injEq] at h
      exact h ▸ ⟨none, _, rfl⟩
  | searching context endpoints generation =>
      rw [hat, Option.some.injEq] at h
      cases generation with
      | trying s => exact absurd hat (hstage context endpoints s)
      | closing outcome looks running => exact h ▸ ⟨none, _, rfl⟩
      | ended outcome => exact h ▸ ⟨none, _, rfl⟩
  | writing result =>
      rw [hat] at h
      dsimp only at h
      by_cases houtside : σ.call.outside = true
      · rw [if_pos houtside, Option.some.injEq] at h
        exact h ▸ ⟨some result, _, rfl⟩
      · rw [if_neg houtside] at h
        exact absurd h (by simp)
  | reporting result =>
      rw [hat, Option.some.injEq] at h
      exact h ▸ ⟨some result, _, rfl⟩
  | ended result outcome =>
      rw [hat] at h
      exact absurd h (by simp)

variable [DecidableEq Name] (w : World Cert Key) (a : GenerateArgs) (T : Terminal) (output : Name)

/-- What a session is given from outside: an interrupt or none, an answer, and
    the directory as it finds it. -/
structure Given (Name : Type) where
  interrupt : Bool
  answer : Answer Name
  directory : Directory Name

/-- What a session does then. Where it cannot be interrupted it takes a step. -/
def Session.next (given : Given Name) (σ : Session Name) : Session Name :=
  if given.interrupt then
    (σ.interrupted w).getD (σ.step w a T output given.answer given.directory).session
  else (σ.step w a T output given.answer given.directory).session

/-- It takes a step or is interrupted. -/
theorem next_cases (given : Given Name) (σ : Session Name) :
    σ.next w a T output given = (σ.step w a T output given.answer given.directory).session ∨
      σ.interrupted w = some (σ.next w a T output given) := by
  unfold Session.next
  cases given.interrupt with
  | false => exact Or.inl rfl
  | true =>
      cases hinterrupted : σ.interrupted w with
      | none => exact Or.inl rfl
      | some σ' => exact Or.inr rfl

theorem over_next (given : Given Name) (σ : Session Name) (h : σ.Over) :
    (σ.next w a T output given).Over := by
  rcases h with ⟨result, outcome, hstage⟩
  rcases next_cases w a T output given σ with hstep | hinterrupted
  · rw [hstep]
    refine ⟨result, outcome, ?_⟩
    unfold Session.step
    rw [hstage]
    exact hstage
  · exact interrupted_over hinterrupted fun context endpoints s hsearching => by
      rw [hstage] at hsearching
      exact absurd hsearching (by simp)

/-- Behind the search every step brings a session nearer to its end. -/
theorem inevitable_closing {σ : Session Name} (h : σ.Closing) :
    Inevitable (Session.next w a T output) Session.Over (σ.left + 1) σ := by
  rcases h with hover | hclosing
  · exact Inevitable.now hover _
  refine inevitable_of_rank
    (I := fun σ => ∃ result, σ.stage = .writing result ∨ σ.stage = .reporting result)
    Session.left (fun ρ hρ given => ?_) hclosing
  rcases next_cases w a T output given ρ with hstep | hinterrupted
  · rw [hstep]
    unfold Session.step
    rcases hρ with ⟨result, hstage | hstage⟩
    -- The call of `write` goes on, or the session takes note of how it ended.
    · rw [hstage]
      dsimp only
      cases houtcome : ρ.call.outcome with
      | none =>
          have hleft := left_writeStep output (a.writes result) given.answer ρ.call
            given.directory houtcome
          refine Or.inr ⟨⟨result, Or.inl rfl⟩, ?_⟩
          simp only [Session.left, hstage]
          omega
      | some outcome =>
          cases outcome with
          | ok u =>
              refine Or.inr ⟨⟨result, Or.inr rfl⟩, ?_⟩
              simp only [Session.left, hstage, Session.enter, stageWritten]
              omega
          | error e => exact Or.inl ⟨some result, .error e, rfl⟩
    -- The report is the last thing to do.
    · rw [hstage]
      exact Or.inl ⟨some result, _, rfl⟩
  · refine Or.inl (interrupted_over hinterrupted fun context endpoints s hsearching => ?_)
    rcases hρ with ⟨result, hstage | hstage⟩
    · exact absurd (hstage.symm.trans hsearching) (by simp)
    · exact absurd (hstage.symm.trans hsearching) (by simp)

section Search

variable {context : ConnectionProof} {endpoints : List Endpoint}

/-- A session at a place of its search. -/
def Session.at (context : ConnectionProof) (endpoints : List Endpoint)
    (generation : Generation) : Session Name :=
  { Session.start with stage := .searching context endpoints generation }

/-- While the search has not ended, a step of the session is one of it. -/
theorem step_at {generation : Generation} (h : ∀ outcome, generation ≠ .ended outcome)
    (answer : Answer Name) (d : Directory Name) :
    ((Session.at context endpoints generation).step w a T output answer d).session =
      .at context endpoints
        (generationStep (w.shown T) a.options context endpoints generation) := by
  change ((Session.at context endpoints generation).enter d (stageSearched _ _ _ _ _)).session = _
  rw [stageSearched_going h]
  rfl

/-- When the search has ended, the next step says how it went. There are then
    eight operations for the call and three for the rest. -/
theorem inevitable_ended (outcome : Except PyErr GenerationResult) :
    Inevitable (Session.next w a T output) Session.Over 12
      (.at context endpoints (.ended outcome)) := by
  refine Inevitable.later fun given => ?_
  rcases next_cases w a T output given (.at context endpoints (.ended outcome))
    with hstep | hinterrupted
  · rw [hstep]
    cases outcome with
    | error e => exact Inevitable.now ⟨none, .error e, rfl⟩ _
    | ok result => exact inevitable_closing w a T output (Or.inr ⟨result, Or.inl rfl⟩)
  · have hover := interrupted_over hinterrupted fun context' endpoints' s hsearching =>
      absurd hsearching (by simp [Session.at])
    exact Inevitable.now hover _

/-- In the `finally` clause the end is inevitable. -/
theorem inevitable_leaving (hstops : w.Stops) (outcome : Except PyErr GenerationResult)
    (looks : Nat) (running : List Submission) :
    ∃ n, Inevitable (Session.next w a T output) Session.Over n
      (.at context endpoints (.closing outcome looks running)) := by
  have hended : Eventually (generationStep (w.shown T) a.options context endpoints)
      (fun g => g = .ended outcome) (.closing outcome looks running) :=
    eventually_ended (w := w.shown T) hstops outcome looks running
  let Left : Generation → Prop := fun g =>
    g = .ended outcome ∨ ∃ looks running, g = .closing outcome looks running
  have hkept : ∀ g, Left g → Left (generationStep (w.shown T) a.options context endpoints g) := by
    rintro g (rfl | ⟨looks, running, rfl⟩)
    · exact Or.inl rfl
    · rw [generationStep]
      split
      · exact Or.inl rfl
      · exact Or.inr ⟨_, _, rfl⟩
  have hgoing : ∀ g, Left g → g ≠ .ended outcome → ∃ m, ∀ given,
      Session.next w a T output given (.at context endpoints g) =
          .at context endpoints (generationStep (w.shown T) a.options context endpoints g) ∨
        Inevitable (Session.next w a T output) Session.Over m
          (Session.next w a T output given (.at context endpoints g)) := by
    rintro g (rfl | ⟨looks, running, rfl⟩) hnot
    · exact absurd rfl hnot
    refine ⟨0, fun given => ?_⟩
    rcases next_cases w a T output given (.at context endpoints (.closing outcome looks running))
      with hstep | hinterrupted
    · rw [hstep]
      exact Or.inl (step_at w a T output (fun outcome' => by simp) _ _)
    · refine Or.inr (interrupted_over hinterrupted fun context' endpoints' s hsearching => ?_)
      exact absurd hsearching (by simp [Session.at])
  rcases inevitable_of_eventually (Session.at context endpoints) hkept hgoing
    (Or.inr ⟨looks, running, rfl⟩) hended with ⟨n, hn⟩
  refine ⟨n + 12, hn.bind fun σ hσ => ?_⟩
  rcases hσ with hover | ⟨g, rfl, rfl⟩
  · exact Inevitable.now hover _
  · exact inevitable_ended w a T output outcome

/-- An interrupt of the search leads to where the end is inevitable. -/
theorem inevitable_interrupted (context : ConnectionProof) (endpoints : List Endpoint)
    (hstops : w.Stops) {generation : Generation}
    (hgoing : ∀ outcome, generation ≠ .ended outcome) : ∃ m, ∀ given : Given Name,
      (Session.at context endpoints generation).interrupted w =
        some ((Session.at context endpoints generation).next w a T output given) →
      Inevitable (Session.next w a T output) Session.Over m
        ((Session.at context endpoints generation).next w a T output given) := by
  cases generation with
  | trying s =>
      have hleaving : ∃ m, Inevitable (Session.next w a T output) Session.Over m
          (Session.at context endpoints (s.leave w (.error interrupt))) :=
        inevitable_leaving w a T output hstops (.error interrupt) 0 _
      rcases hleaving with ⟨m, hm⟩
      refine ⟨m, fun given h => ?_⟩
      rw [← Option.some.inj h]
      exact hm
  | closing outcome looks running =>
      refine ⟨0, fun given h => ?_⟩
      exact interrupted_over h fun context' endpoints' s hsearching =>
        absurd hsearching (by simp [Session.at])
  | ended outcome => exact absurd rfl (hgoing outcome)

end Search

/-- A session with a limited search ends within some number of steps, whatever
    it is answered, whatever it finds in the directory, and wherever it is
    interrupted. -/
theorem inevitable_over (hclock : w.Passes) (hstops : w.Stops)
    (hlimit : a.overallTimeout ≠ 0 ∨ (a.maxAttempts ≠ 0 ∧ w.Finishes)) :
    ∃ n, Inevitable (Session.next w a T output) Session.Over n Session.start := by
  -- An interrupt before the search ends the session.
  have hbefore : ∀ given : Given Name,
      Session.start.interrupted w = some (Session.start.next w a T output given) →
      (Session.start.next w a T output given).Over := fun given h =>
    interrupted_over h fun context endpoints s hsearching =>
      absurd hsearching (by simp [Session.start])
  cases hprepare : a.prepare (w.shown T) with
  | error e =>
      refine ⟨1, Inevitable.later fun given => ?_⟩
      rcases next_cases w a T output given Session.start with hstep | hinterrupted
      · rw [hstep]
        refine ⟨none, .error e, ?_⟩
        change stagePrepared (w.shown T) a = _
        rw [stagePrepared, hprepare]
      · exact hbefore given hinterrupted
  | ok found =>
      have hfound := hprepare
      unfold GenerateArgs.prepare at hfound
      simp only [bind_eq_ok_iff, pure_eq_ok_iff] at hfound
      rcases hfound with ⟨context, -, endpoints, hendpoints, rfl⟩
      rcases eventually_over (w := w.shown T) hendpoints hclock hlimit with ⟨k, hk⟩
      rcases (over_iff_outcome _).mp hk with ⟨outcome, houtcome⟩
      have hended : Eventually (generationStep (w.shown T) a.options context endpoints)
          (fun g => g = .ended outcome) (.trying (start (w.shown T))) :=
        eventually_outcome (w := w.shown T) hstops k houtcome
      -- While the search goes on, nothing is drawn, and an interrupt leads out of it.
      have hgoing : ∀ g : Generation, True → ¬(∃ outcome, g = .ended outcome) →
          ∃ m, ∀ given, Session.next w a T output given (.at context endpoints g) =
              .at context endpoints (generationStep (w.shown T) a.options context endpoints g) ∨
            Inevitable (Session.next w a T output) Session.Over m
              (Session.next w a T output given (.at context endpoints g)) := by
        intro g _ hnot
        have hsearching : ∀ outcome, g ≠ .ended outcome := fun outcome' hg => hnot ⟨outcome', hg⟩
        rcases inevitable_interrupted w a T output context endpoints hstops hsearching
          with ⟨m, hm⟩
        refine ⟨m, fun given => ?_⟩
        rcases next_cases w a T output given (.at context endpoints g) with hstep | hinterrupted
        · rw [hstep]
          exact Or.inl (step_at w a T output hsearching _ _)
        · exact Or.inr (hm given hinterrupted)
      rcases inevitable_of_eventually (Session.at context endpoints) (fun _ _ => trivial) hgoing
        trivial (hended.mono fun g hg => ⟨outcome, hg⟩) with ⟨n, hn⟩
      refine ⟨n + 12 + 1, Inevitable.later fun given => ?_⟩
      rcases next_cases w a T output given Session.start with hstep | hinterrupted
      · have hentered : (Session.start.step w a T output given.answer given.directory).session =
            .at context endpoints (.trying (start (w.shown T))) := by
          change (Session.start.enter given.directory (stagePrepared (w.shown T) a)).session = _
          rw [stagePrepared, hprepare]
          rfl
        rw [hstep, hentered]
        refine hn.bind fun σ hσ => ?_
        rcases hσ with hover | ⟨g, ⟨outcome', rfl⟩, rfl⟩
        · exact Inevitable.now hover _
        · exact inevitable_ended w a T output outcome'
      · exact Inevitable.now (hbefore given hinterrupted) _

end Session

/-! ### Among others -/

namespace Sessions

variable [DecidableEq ι] [DecidableEq Name] (w : ι → World Cert Key) (a : ι → GenerateArgs)
  (T : ι → Terminal) (output : Name)

/-- A step of one of the sessions. -/
def OwnStep (i : ι) (t t' : Sessions ι Name) : Prop :=
  ∃ answer, t.system.Allows output answer ∧ t' = t.advance w a T output i answer

/-- A session is not touched by the steps of others. -/
theorem session_step {i : ι} {t t' : Sessions ι Name} (h : Step w a T output t t') :
    t'.sessions i = t.sessions i ∨
      ∃ given, t'.sessions i = (t.sessions i).next (w i) (a i) (T i) output given := by
  cases h with
  | others d h => exact Or.inl rfl
  | session j answer h =>
      by_cases hij : i = j
      · subst hij
        exact Or.inr ⟨⟨false, answer, t.directory⟩, Function.update_self _ _ _⟩
      · exact Or.inl (Function.update_of_ne hij _ _)
  | interrupted j σ h =>
      by_cases hij : i = j
      · subst hij
        -- Where there is an interrupt, it does not matter what would be answered.
        refine Or.inr ⟨⟨true, ⟨output, 0, none⟩, t.directory⟩, ?_⟩
        change Function.update t.sessions i σ i = _
        rw [Function.update_self, Session.next, if_pos rfl, h]
        rfl
      · exact Or.inl (Function.update_of_ne hij _ _)

/-- A session with a limited search ends, if the threads of its attempts do:
    there is a number such that in every
    run in which the session has taken so many steps it is over, whatever the
    operating system answers it, wherever it is interrupted, and whatever the
    other sessions and others do in between. -/
theorem generate_ends (i : ι) (hclock : (w i).Passes) (hstops : (w i).Stops)
    (hlimit : (a i).overallTimeout ≠ 0 ∨ ((a i).maxAttempts ≠ 0 ∧ (w i).Finishes)) :
    ∃ n, ∀ t₀ t, t₀.Initial → Turns (Step w a T output) (OwnStep w a T output i) t₀ n t →
      (t.sessions i).Over := by
  rcases inevitable_over (w i) (a i) (T i) output hclock hstops hlimit with ⟨n, hn⟩
  refine ⟨n, fun t₀ t hinitial hturns => ?_⟩
  rw [← hinitial.sessions i] at hn
  refine hn.of_turns (fun t => t.sessions i) (fun t t' h => ?_) (fun t t' h => ?_)
    (over_next (w i) (a i) (T i) output) hturns
  · rcases h with ⟨answer, -, rfl⟩
    exact ⟨⟨false, answer, t.directory⟩, Function.update_self _ _ _⟩
  · exact session_step w a T output h

section Sample

/-- A system that refuses everything. -/
def refusal : Answer Nat :=
  ⟨9, 0, some ⟨.osError, "No space left on device"⟩⟩

theorem guardedWrite_refusal {α : Type} (r : Except PyErr α) :
    guardedWrite (refusal.unless r) =
      .error (formatError ("cannot write connection proof: " ++ "No space left on device")) := by
  rfl

/-- A session that is refused everything has no file. -/
structure Refused (t : Sessions Unit Nat) : Prop where
  free : t.directory.entry 9 = none
  temporary : (t.sessions ()).call.temporary = none
  phase : (t.sessions ()).call.phase = .serializing ∨ (t.sessions ()).call.phase = .creating ∨
    ∃ outcome, (t.sessions ()).call.phase = .ended outcome

theorem Refused.after {t : Sessions Unit Nat} (h : Refused t) {done : SessionStep Nat}
    (hdirectory : done.directory = t.directory) (htemporary : done.session.call.temporary = none)
    (hphase : done.session.call.phase = .serializing ∨ done.session.call.phase = .creating ∨
      ∃ outcome, done.session.call.phase = .ended outcome) : Refused (t.after () done) :=
  ⟨(congrArg (fun d => d.entry 9) hdirectory).trans h.free, htemporary, hphase⟩

theorem Refused.writeStep {t : Sessions Unit Nat} (h : Refused t) (args : WriteArgs)
    (houtcome : (t.sessions ()).call.outcome = none) :
    (writeStep 0 args refusal (t.sessions ()).call t.directory).directory = t.directory ∧
      (writeStep 0 args refusal (t.sessions ()).call t.directory).call.temporary = none ∧
      ((writeStep 0 args refusal (t.sessions ()).call t.directory).call.phase = .serializing ∨
        (writeStep 0 args refusal (t.sessions ()).call t.directory).call.phase = .creating ∨
        ∃ outcome, (writeStep 0 args refusal (t.sessions ()).call t.directory).call.phase =
          .ended outcome) := by
  -- Nothing is refused before the file is to be created.
  rcases h.phase with hphase | hphase | ⟨outcome, hphase⟩
  · unfold P2CTools.writeStep
    rw [hphase]
    dsimp only
    cases args.envelope.serialized with
    | ok text => exact ⟨rfl, h.temporary, Or.inr (Or.inl rfl)⟩
    | error e => exact ⟨rfl, h.temporary, Or.inr (Or.inr ⟨_, rfl⟩)⟩
  · unfold P2CTools.writeStep
    rw [hphase]
    dsimp only
    rw [guardedWrite_refusal]
    dsimp only
    rw [Call.leave_none h.temporary]
    exact ⟨rfl, h.temporary, Or.inr (Or.inr ⟨_, rfl⟩)⟩
  · rw [Call.outcome, hphase] at houtcome
    exact absurd houtcome (by simp)

variable (w : Unit → World Cert Key) (a : Unit → GenerateArgs) (T : Unit → Terminal)

theorem Refused.advance {t : Sessions Unit Nat} (h : Refused t) :
    Refused (t.advance w a T 0 () refusal) := by
  unfold Sessions.advance Session.step
  cases hstage : (t.sessions ()).stage with
  | preparing => exact h.after rfl h.temporary h.phase
  | searching context endpoints generation => exact h.after rfl h.temporary h.phase
  | reporting result => exact h.after rfl h.temporary h.phase
  | ended result outcome => exact h.after rfl h.temporary h.phase
  | writing result =>
      dsimp only
      cases houtcome : (t.sessions ()).call.outcome with
      | some outcome => exact h.after rfl h.temporary h.phase
      | none =>
          rcases h.writeStep ((a ()).writes result) houtcome with ⟨hdirectory, htemporary, hphase⟩
          exact h.after hdirectory htemporary hphase

/-- It can take any number of steps. -/
theorem exists_turns (t₀ : Sessions Unit Nat) (h₀ : Refused t₀) (n : Nat) :
    ∃ t, Turns (Step w a T 0) (OwnStep w a T 0 ()) t₀ n t ∧ Refused t := by
  induction n with
  | zero => exact ⟨t₀, Turns.start, h₀⟩
  | succ n ih =>
      rcases ih with ⟨t, hturns, h⟩
      have hallows : t.system.Allows 0 refusal := by
        refine ⟨h.free, by decide, fun e he => ?_⟩
        rw [← Option.some.inj he]
        rfl
      exact ⟨_, Turns.turn n t _ hturns ⟨refusal, hallows, rfl⟩, h.advance w a T⟩

/-- The session for which one attempt is allowed ends, though its peer says
    nothing and the system refuses everything. -/
theorem ticking_session_ends : ∃ n t,
    Turns (Step (fun _ => tickingWorld) (fun _ => sampleCommand false) (fun _ => quietTerminal) 0)
      (OwnStep (fun _ => tickingWorld) (fun _ => sampleCommand false) (fun _ => quietTerminal) 0 ())
      sampleSessions n t ∧ (t.sessions ()).Over := by
  rcases generate_ends (fun _ => tickingWorld) (fun _ => sampleCommand false)
    (fun _ => quietTerminal) 0 () passes_tickingWorld stops_tickingWorld
    (Or.inr ⟨by decide, finishes_tickingWorld⟩) with ⟨n, hn⟩
  rcases exists_turns (fun _ => tickingWorld) (fun _ => sampleCommand false)
    (fun _ => quietTerminal) sampleSessions ⟨rfl, rfl, Or.inl rfl⟩ n with ⟨t, hturns, -⟩
  exact ⟨n, t, hturns, hn sampleSessions t initial_sampleSessions hturns⟩

end Sample

end Sessions

end P2CTools
