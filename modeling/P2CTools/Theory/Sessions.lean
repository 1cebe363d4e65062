import P2CTools.Theory.Commands
import P2CTools.Theory.Endings

/-!
# Generating Side by Side

Any number of `generate` commands with one output file, interleaved in any
order with each other and with what others do in the directory.

A session searches first and writes afterwards, so it is a call of `write`
whose arguments nobody knows until the search is over. Seen from the directory
this makes no difference: a session that is still searching does nothing there.
`Sessions.system` forgets the searches, and `run_system` says that what is left
of a run of sessions is a run of calls, with the arguments that the results at
its end give them. So everything that holds of calls of `write` holds here, and
what is written is known to be the result of a search.

## Main definitions

* `Earned`: The result of a search that was made for the arguments.
* `SessionInv`: What holds of a session, where it is.
* `Sessions`, `Sessions.Step`: The sessions, the directory, and what can happen.
* `Sessions.system`: The calls of `write` alone.

## Theorems

* `session_move`, `session_interrupt`: A step of a session, and an interrupt.
* `run_system`: The calls of a run of sessions are a run.
* `earned_verified`: A result is verified, and for the command's own claim.
* `generate_publishes_proofs`: What the output file is.
* `generate_exits`: What the end of a session says about it.
-/

namespace P2CTools

open Wire
open Tls13 (Endpoint)

variable {Cert Key ι Name : Type}

/-! ### One session -/

section Session

variable (w : World Cert Key) (a : GenerateArgs)

/-- What the search that is made for the arguments can end with: what its loops
    have come to, or an interrupt. -/
def Backed (context : ConnectionProof) (endpoints : List Endpoint)
    (outcome : Except PyErr GenerationResult) : Prop :=
  outcome = .error interrupt ∨ ∃ s,
    Run (Following (step w a.options context endpoints)) (start w) s ∧ s.outcome = some outcome

/-- Where the search that is made for the arguments is. -/
def Placed (context : ConnectionProof) (endpoints : List Endpoint) : Generation → Prop
  | .trying s => Run (Following (step w a.options context endpoints)) (start w) s
  | .closing outcome _ _ => Backed w a context endpoints outcome
  | .ended outcome => Backed w a context endpoints outcome

/-- The search that is made for the arguments has come to a place. -/
def Reached (context : ConnectionProof) (endpoints : List Endpoint)
    (generation : Generation) : Prop :=
  a.prepare w = .ok (context, endpoints) ∧ Placed w a context endpoints generation

/-- The search that is made for the arguments has returned the result. -/
def Earned (result : GenerationResult) : Prop :=
  ∃ context endpoints s, Reached w a context endpoints (.trying s) ∧
    s.control = .returned result

/-- What holds of a session, where it is. -/
def SessionInv (σ : Session Name) : Prop :=
  match σ.stage with
  | .preparing => σ.call = Call.start
  | .searching context endpoints generation =>
      σ.call = Call.start ∧ Reached w a context endpoints generation
  | .writing result => Earned w a result
  | .reporting result => Earned w a result ∧ σ.call.phase = .ended (.ok ())
  | .ended none outcome => σ.call = Call.start ∧ outcome ≠ .ok ()
  | .ended (some result) outcome => Earned w a result ∧
      ((outcome = .error interrupt ∧ σ.call.outside = true) ∨
        ∃ written, σ.call.phase = .ended written ∧
          (written = outcome ∨
            (written = .ok () ∧ ∀ e, outcome = .error e → e.isA .osError = true)))

/-- A call that is neither begun nor ended is not interrupted. -/
theorem outside_iff (call : Call Name) :
    call.outside = true ↔ call.phase = .serializing ∨ ∃ outcome, call.phase = .ended outcome := by
  unfold Call.outside
  cases call.phase with
  | serializing => simp
  | ended outcome => simp
  | creating | writing | flushing | syncing | closing | publishing | cleaning => simp

theorem phase_of_outcome {call : Call Name} {outcome : Except PyErr Unit}
    (h : call.outcome = some outcome) : call.phase = .ended outcome := by
  unfold Call.outcome at h
  split at h
  · next r hphase => rw [hphase, Option.some.inj h]
  · exact absurd h (by simp)

/-- An interrupt does nothing to the call of `write` or to the result, and keeps
    what holds of a session. -/
theorem session_interrupt (T : Terminal) {σ σ' : Session Name} (h : σ.interrupted w = some σ') :
    σ'.call = σ.call ∧ (∀ result, σ.stage.result = some result →
        σ'.stage.result = some result) ∧
      (SessionInv (w.shown T) a σ → SessionInv (w.shown T) a σ') := by
  unfold Session.interrupted at h
  unfold SessionInv
  cases hstage : σ.stage with
  | preparing =>
      rw [hstage, Option.some.injEq] at h
      subst h
      exact ⟨rfl, fun result hresult => absurd hresult (by simp [Stage.result]),
        fun hinv => ⟨hinv, error_ne_ok _ _⟩⟩
  | searching context endpoints generation =>
      rw [hstage, Option.some.injEq] at h
      subst h
      refine ⟨rfl, fun result hresult => absurd hresult (by simp [Stage.result]), fun hinv => ?_⟩
      rcases hinv with ⟨hcall, hprepare, -⟩
      cases generation with
      | trying s => exact ⟨hcall, hprepare, Or.inl rfl⟩
      | closing outcome looks running => exact ⟨hcall, error_ne_ok _ _⟩
      | ended outcome => exact ⟨hcall, error_ne_ok _ _⟩
  | writing result =>
      rw [hstage] at h
      dsimp only at h
      -- Only outside of the call of `write`.
      by_cases houtside : σ.call.outside = true
      · rw [if_pos houtside, Option.some.injEq] at h
        subst h
        exact ⟨rfl, fun _ hresult => hresult, fun hinv => ⟨hinv, Or.inl ⟨rfl, houtside⟩⟩⟩
      · rw [if_neg houtside] at h
        exact absurd h (by simp)
  | reporting result =>
      rw [hstage, Option.some.injEq] at h
      subst h
      refine ⟨rfl, fun _ hresult => hresult, fun hinv => ⟨hinv.1, Or.inl ⟨rfl, ?_⟩⟩⟩
      exact (outside_iff σ.call).mpr (Or.inr ⟨_, hinv.2⟩)
  | ended result outcome =>
      rw [hstage] at h
      exact absurd h (by simp)

variable {w a} {T : Terminal} [DecidableEq Name] {output : Name} {answer : Answer Name}
  {σ : Session Name} {d : Directory Name}

theorem outcome_eq_ok_iff (s : State) (result : GenerationResult) :
    s.outcome = some (.ok result) ↔ s.control = .returned result := by
  unfold State.outcome
  cases s.control with
  | returned result' => simp
  | raised e => simp
  | outer => simp
  | starting => simp
  | harvesting rest => simp

/-- While the search has not ended, it goes on. -/
theorem stageSearched_going {context : ConnectionProof} {endpoints : List Endpoint}
    {generation : Generation} (h : ∀ outcome, generation ≠ .ended outcome) :
    stageSearched w a context endpoints generation =
      .searching context endpoints (generationStep w a.options context endpoints generation) := by
  cases generation with
  | trying s => rfl
  | closing outcome looks running => rfl
  | ended outcome => exact absurd rfl (h outcome)

section Places

variable {context : ConnectionProof} {endpoints : List Endpoint} {generation : Generation}

/-- Each step of the search leads to a place of it. -/
theorem Reached.step (h : Reached w a context endpoints generation) :
    Reached w a context endpoints
      (generationStep w a.options context endpoints generation) := by
  refine ⟨h.1, ?_⟩
  have hplaced := h.2
  cases generation with
  | trying s =>
      cases houtcome : s.outcome with
      | none =>
          rw [generationStep, houtcome]
          exact Relation.ReflTransGen.tail hplaced rfl
      | some outcome =>
          rw [generationStep, houtcome]
          exact Or.inr ⟨s, hplaced, houtcome⟩
  | closing outcome looks running =>
      rw [generationStep]
      split
      · exact hplaced
      · exact hplaced
  | ended outcome => exact hplaced

/-- What the search has returned was earned by it. -/
theorem Reached.earned {result : GenerationResult}
    (h : Reached w a context endpoints (.ended (.ok result))) : Earned w a result := by
  rcases h with ⟨hprepare, hinterrupt | ⟨s, hrun, houtcome⟩⟩
  · exact absurd hinterrupt.symm (error_ne_ok _ _)
  · exact ⟨context, endpoints, s, ⟨hprepare, hrun⟩, (outcome_eq_ok_iff s result).mp houtcome⟩

end Places

/-- What a step of a session can come to. -/
inductive SessionMove (w : World Cert Key) (a : GenerateArgs) (T : Terminal) (output : Name)
    (answer : Answer Name) (σ : Session Name) (d : Directory Name) : SessionStep Name → Prop
  | refused (e : PyErr) (hstage : σ.stage = .preparing) :
      SessionMove w a T output answer σ d (σ.enter d (.ended none (.error e)))
  | prepared (context : ConnectionProof) (endpoints : List Endpoint)
      (hstage : σ.stage = .preparing) (h : a.prepare (w.shown T) = .ok (context, endpoints)) :
      SessionMove w a T output answer σ d (σ.enter d (.searching context endpoints
        (.trying (start (w.shown T)))))
  | searched (context : ConnectionProof) (endpoints : List Endpoint) (generation : Generation)
      (hstage : σ.stage = .searching context endpoints generation) :
      SessionMove w a T output answer σ d (σ.enter d (.searching context endpoints
        (generationStep (w.shown T) a.options context endpoints generation)))
  | found (context : ConnectionProof) (endpoints : List Endpoint) (result : GenerationResult)
      (hstage : σ.stage = .searching context endpoints (.ended (.ok result))) :
      SessionMove w a T output answer σ d (σ.enter d (.writing result))
  | failed (context : ConnectionProof) (endpoints : List Endpoint) (e : PyErr)
      (hstage : σ.stage = .searching context endpoints (.ended (.error e))) :
      SessionMove w a T output answer σ d (σ.enter d (.ended none (.error e)))
  | writes (result : GenerationResult) (hstage : σ.stage = .writing result)
      (h : σ.call.outcome = none) :
      SessionMove w a T output answer σ d
        ⟨{ σ with call := (writeStep output (a.writes result) answer σ.call d).call },
          (writeStep output (a.writes result) answer σ.call d).directory,
          (writeStep output (a.writes result) answer σ.call d).event⟩
  | written (result : GenerationResult) (outcome : Except PyErr Unit)
      (hstage : σ.stage = .writing result) (h : σ.call.outcome = some outcome) :
      SessionMove w a T output answer σ d (σ.enter d (stageWritten result outcome))
  | reported (result : GenerationResult) (hstage : σ.stage = .reporting result) :
      SessionMove w a T output answer σ d
        (σ.enter d (.ended (some result) (answer.unless (.ok ()))))
  | rested (result : Option GenerationResult) (outcome : Except PyErr Unit)
      (hstage : σ.stage = .ended result outcome) :
      SessionMove w a T output answer σ d ⟨σ, d, none⟩

/-- Every step of a session is one of these. -/
theorem session_move (w : World Cert Key) (a : GenerateArgs) (T : Terminal) (output : Name)
    (answer : Answer Name) (σ : Session Name) (d : Directory Name) :
    SessionMove w a T output answer σ d (σ.step w a T output answer d) := by
  unfold Session.step
  cases hstage : σ.stage with
  | preparing =>
      dsimp only [stagePrepared]
      cases hprepare : a.prepare (w.shown T) with
      | error e => exact SessionMove.refused e hstage
      | ok found => exact SessionMove.prepared found.1 found.2 hstage hprepare
  | searching context endpoints generation =>
      cases generation with
      | trying s => exact SessionMove.searched context endpoints _ hstage
      | closing outcome looks running => exact SessionMove.searched context endpoints _ hstage
      | ended outcome =>
          cases outcome with
          | ok result => exact SessionMove.found context endpoints result hstage
          | error e => exact SessionMove.failed context endpoints e hstage
  | writing result =>
      cases houtcome : σ.call.outcome with
      | none =>
          have hmove : SessionMove w a T output answer σ d _ :=
            SessionMove.writes result hstage houtcome
          rw [hstage] at hmove
          exact hmove
      | some outcome => exact SessionMove.written result outcome hstage houtcome
  | reporting result => exact SessionMove.reported result hstage
  | ended result outcome => exact SessionMove.rested result outcome hstage

/-- Once there is a result, it stays. -/
theorem SessionMove.result {done : SessionStep Name} {result : GenerationResult}
    (h : SessionMove w a T output answer σ d done) (hresult : σ.stage.result = some result) :
    done.session.stage.result = some result := by
  cases h with
  | refused e hstage => exact absurd hresult (by simp [hstage, Stage.result])
  | prepared context endpoints hstage h => exact absurd hresult (by simp [hstage, Stage.result])
  | searched context endpoints generation hstage =>
      exact absurd hresult (by simp [hstage, Stage.result])
  | found context endpoints r hstage => exact absurd hresult (by simp [hstage, Stage.result])
  | failed context endpoints e hstage => exact absurd hresult (by simp [hstage, Stage.result])
  | writes r hstage h => exact hresult
  | written r outcome hstage h =>
      rw [hstage] at hresult
      cases outcome with
      | ok u => exact hresult
      | error e => exact hresult
  | reported r hstage =>
      rw [hstage] at hresult
      exact hresult
  | rested r outcome hstage => exact hresult

/-- A step of a session keeps what holds of it. -/
theorem SessionMove.inv {done : SessionStep Name} (h : SessionMove w a T output answer σ d done)
    (hanswer : ∀ e ∈ answer.error, e.isA .osError = true) (hinv : SessionInv (w.shown T) a σ) :
    SessionInv (w.shown T) a done.session := by
  unfold SessionInv at hinv
  cases h with
  | refused e hstage =>
      rw [hstage] at hinv
      exact ⟨hinv, error_ne_ok e ()⟩
  | prepared context endpoints hstage h =>
      rw [hstage] at hinv
      exact ⟨hinv, h, Relation.ReflTransGen.refl⟩
  | searched context endpoints generation hstage =>
      rw [hstage] at hinv
      exact ⟨hinv.1, hinv.2.step⟩
  | found context endpoints result hstage =>
      rw [hstage] at hinv
      exact hinv.2.earned
  | failed context endpoints e hstage =>
      rw [hstage] at hinv
      exact ⟨hinv.1, error_ne_ok e ()⟩
  | writes result hstage h =>
      rw [hstage] at hinv
      unfold SessionInv
      rw [hstage]
      exact hinv
  | written result outcome hstage h =>
      rw [hstage] at hinv
      have hphase := phase_of_outcome h
      cases outcome with
      | ok u => exact ⟨hinv, hphase⟩
      | error e => exact ⟨hinv, Or.inr ⟨_, hphase, Or.inl rfl⟩⟩
  | reported result hstage =>
      rw [hstage] at hinv
      refine ⟨hinv.1, Or.inr ⟨_, hinv.2, ?_⟩⟩
      -- Only the report can still fail.
      cases herror : answer.error with
      | none =>
          left
          rw [Answer.unless, herror]
      | some e =>
          right
          refine ⟨rfl, fun e' he' => hanswer e' ?_⟩
          rw [Answer.unless, herror, Except.error.injEq] at he'
          rw [herror, he']
          rfl
  | rested result outcome hstage =>
      unfold SessionInv
      exact hinv

/-- What a step does to the directory is a step of the call of `write`, if the
    session is in one, and nothing otherwise. -/
theorem SessionMove.write {done : SessionStep Name}
    (h : SessionMove w a T output answer σ d done) :
    (∃ result, done.session.stage.result = some result ∧
      (⟨done.session.call, done.directory, done.event⟩ : WriteStep Name) =
        writeStep output (a.writes result) answer σ.call d) ∨
    (done.session.call = σ.call ∧ done.directory = d ∧ done.event = none) := by
  cases h with
  | writes result hstage h =>
      refine Or.inl ⟨result, ?_, rfl⟩
      change σ.stage.result = some result
      rw [hstage]
      rfl
  | refused e hstage => exact Or.inr ⟨rfl, rfl, rfl⟩
  | prepared context endpoints hstage h => exact Or.inr ⟨rfl, rfl, rfl⟩
  | searched context endpoints generation hstage => exact Or.inr ⟨rfl, rfl, rfl⟩
  | found context endpoints result hstage => exact Or.inr ⟨rfl, rfl, rfl⟩
  | failed context endpoints e hstage => exact Or.inr ⟨rfl, rfl, rfl⟩
  | written result outcome hstage h => exact Or.inr ⟨rfl, rfl, rfl⟩
  | reported result hstage => exact Or.inr ⟨rfl, rfl, rfl⟩
  | rested result outcome hstage => exact Or.inr ⟨rfl, rfl, rfl⟩

/-- The result of a search is for the command's own claim, and verifies. -/
theorem earned_verified {result : GenerationResult} (h : Earned w a result) :
    result.envelope.toFields = a.fields result.envelope.proof ∧
      ∃ r, verifyConnectionProof w.x509 w.lowercase w.rootFile (!a.allowUnpinnedRoots)
        result.envelope = .ok r := by
  rcases h with ⟨context, endpoints, s, ⟨hprepare, hrun⟩, hreturned⟩
  unfold GenerateArgs.prepare at hprepare
  simp only [bind_eq_ok_iff, pure_eq_ok_iff] at hprepare
  rcases hprepare with ⟨context', hcontext, endpoints', hendpoints, hpair⟩
  rcases Prod.mk.inj hpair with ⟨rfl, rfl⟩
  have hne := endpoints_ne_nil hendpoints
  have hreturns : ReturnsVerified w a.options context' s :=
    hrun.invariant (fun _ _ hs hstep => returnsVerified_step hne hs hstep)
      fun result hresult => absurd hresult (by simp [start])
  have hverified := hreturns result hreturned
  refine ⟨?_, hverified.verifies⟩
  rw [hverified.fields, (context_eq_ok_iff w.lowercase a context').mp hcontext]
  rfl

end Session

/-! ### Many sessions -/

/-- The sessions and the directory they share, with who made which file, and
    what has been noted of which session's call of `write`. -/
structure Sessions (ι Name : Type) where
  sessions : ι → Session Name
  directory : Directory Name
  creator : Nat → Option ι
  events : List (ι × WriteEvent)

namespace Sessions

/-- The calls of `write` alone. -/
def system (t : Sessions ι Name) : System ι Name :=
  ⟨fun i => (t.sessions i).call, t.directory, t.creator, t.events⟩

/-- No session has begun, and all files there are were made by others. -/
structure Initial (t : Sessions ι Name) : Prop where
  sessions : ∀ i, t.sessions i = Session.start
  system : t.system.Initial

variable (w : ι → World Cert Key) (a : ι → GenerateArgs) (T : ι → Terminal) (output : Name)

section Steps

variable [DecidableEq ι] [DecidableEq Name]

/-- The sessions after a step of one of them. -/
def after (t : Sessions ι Name) (i : ι) (done : SessionStep Name) : Sessions ι Name where
  sessions := Function.update t.sessions i done.session
  directory := done.directory
  creator file := if t.directory.files ≤ file ∧ file < done.directory.files then some i
    else t.creator file
  events := t.events ++ done.event.toList.map fun event => (i, event)

/-- A session performs its next operation. -/
def advance (t : Sessions ι Name) (i : ι) (answer : Answer Name) : Sessions ι Name :=
  t.after i ((t.sessions i).step (w i) (a i) (T i) output answer t.directory)

/-- What can happen. -/
inductive Step (t : Sessions ι Name) : Sessions ι Name → Prop
  | session (i : ι) (answer : Answer Name) (h : t.system.Allows output answer) :
      Step t (t.advance w a T output i answer)
  | others (d : Directory Name) (h : t.system.Permits output d) :
      Step t { t with directory := d }
  | interrupted (i : ι) (σ : Session Name) (h : (t.sessions i).interrupted (w i) = some σ) :
      Step t (t.after i ⟨σ, t.directory, none⟩)

end Steps

/-- The arguments are those that the results there are give to the calls. -/
def Explained (args : ι → WriteArgs) (t : Sessions ι Name) : Prop :=
  ∀ i result, (t.sessions i).stage.result = some result → args i = (a i).writes result

/-- What the calls are given, where the searches have come to a result, and
    anything elsewhere. -/
def arguments (t : Sessions ι Name) (i : ι) : WriteArgs :=
  match (t.sessions i).stage.result with
  | some result => (a i).writes result
  | none => ⟨vectorEnvelope 0, (a i).overwrite⟩

theorem explained_arguments (t : Sessions ι Name) : Explained a (t.arguments a) t := by
  intro i result hresult
  unfold arguments
  rw [hresult]

section Results

variable {w a T output} {t : Sessions ι Name} {args : ι → WriteArgs} {i : ι}

/-- A session without a result has not published. -/
theorem unpublished (hinv : System.CallInv output args t.system i)
    (hsession : SessionInv ((w i).shown (T i)) (a i) (t.sessions i))
    (hresult : (t.sessions i).stage.result = none) : i ∉ t.system.published := by
  have hcall : (t.sessions i).call = Call.start := by
    unfold SessionInv at hsession
    cases hstage : (t.sessions i).stage with
    | preparing =>
        rw [hstage] at hsession
        exact hsession
    | searching context endpoints s =>
        rw [hstage] at hsession
        exact hsession.1
    | writing result =>
        rw [hstage] at hresult
        exact absurd hresult (by simp [Stage.result])
    | reporting result =>
        rw [hstage] at hresult
        exact absurd hresult (by simp [Stage.result])
    | ended result outcome =>
        rw [hstage] at hresult hsession
        cases result with
        | none => exact hsession.1
        | some result => exact absurd hresult (by simp [Stage.result])
  -- A call that has not begun has not published.
  have hphase : (t.system.calls i).phase = .serializing := by
    change (t.sessions i).call.phase = _
    rw [hcall]
    rfl
  unfold System.CallInv at hinv
  rw [hphase] at hinv
  exact hinv.unpublished

/-- What a session has published is the result of its search. -/
theorem earned_of_result (hsession : SessionInv ((w i).shown (T i)) (a i) (t.sessions i))
    {result : GenerationResult} (hresult : (t.sessions i).stage.result = some result) :
    Earned ((w i).shown (T i)) (a i) result := by
  unfold SessionInv at hsession
  cases hstage : (t.sessions i).stage with
  | preparing =>
      rw [hstage] at hresult
      exact absurd hresult (by simp [Stage.result])
  | searching context endpoints s =>
      rw [hstage] at hresult
      exact absurd hresult (by simp [Stage.result])
  | writing r =>
      rw [hstage] at hresult hsession
      rw [← Option.some.inj hresult]
      exact hsession
  | reporting r =>
      rw [hstage] at hresult hsession
      rw [← Option.some.inj hresult]
      exact hsession.1
  | ended r outcome =>
      rw [hstage] at hresult hsession
      cases r with
      | none => exact absurd hresult (by simp [Stage.result])
      | some r =>
          rw [← Option.some.inj hresult]
          exact hsession.1

end Results

section Runs

variable [DecidableEq ι]

/-- The calls that are left of a step of a session. -/
theorem system_after (t : Sessions ι Name) (i : ι) (done : SessionStep Name) :
    (t.after i done).system =
      t.system.after i ⟨done.session.call, done.directory, done.event⟩ := by
  have hcalls : (fun j => (Function.update t.sessions i done.session j).call) =
      Function.update (fun j => (t.sessions j).call) i done.session.call := by
    funext j
    by_cases hj : j = i
    · subst hj
      rw [Function.update_self, Function.update_self]
    · rw [Function.update_of_ne hj, Function.update_of_ne hj]
  unfold system after System.after
  rw [hcalls]

/-- A step that leaves a call and the directory alone leaves all calls alone. -/
theorem system_unmoved (s : System ι Name) (i : ι) :
    s.after i ⟨s.calls i, s.directory, none⟩ = s := by
  have hcreator : (fun file => if s.directory.files ≤ file ∧ file < s.directory.files then some i
      else s.creator file) = s.creator := by
    funext file
    rw [if_neg (by omega)]
  unfold System.after
  rw [hcreator, Function.update_eq_self]
  simp

variable {w a T output} [DecidableEq Name] {t t' t₀ : Sessions ι Name} {args : ι → WriteArgs}

theorem explained_back (hstep : Step w a T output t t') (h : Explained a args t') :
    Explained a args t := by
  cases hstep with
  | others d hpermits => exact h
  | session i answer hallows =>
      intro j result hresult
      refine h j result ?_
      -- A session that has a result keeps it.
      by_cases hj : j = i
      · subst hj
        have hmove := session_move (w j) (a j) (T j) output answer (t.sessions j) t.directory
        have hkept := hmove.result hresult
        simp only [advance, after, Function.update_self]
        exact hkept
      · simp only [advance, after, Function.update_of_ne hj]
        exact hresult
  | interrupted i σ hinterrupted =>
      intro j result hresult
      refine h j result ?_
      by_cases hj : j = i
      · subst hj
        simp only [after, Function.update_self]
        exact (session_interrupt (w j) (a j) (T j) hinterrupted).2.1 result hresult
      · simp only [after, Function.update_of_ne hj]
        exact hresult

/-- A step of a session is a step of its call, or is not seen. -/
theorem system_step (hstep : Step w a T output t t') (h : Explained a args t') :
    t'.system = t.system ∨ System.Step output args t.system t'.system := by
  cases hstep with
  | others d hpermits => exact Or.inr (System.Step.others d hpermits)
  | session i answer hallows =>
      have hmove := session_move (w i) (a i) (T i) output answer (t.sessions i) t.directory
      have hafter := system_after t i
        ((t.sessions i).step (w i) (a i) (T i) output answer t.directory)
      rcases hmove.write with ⟨result, hresult, hwrite⟩ | ⟨hcall, hdirectory, hevent⟩
      · right
        have hargs : args i = (a i).writes result := by
          refine h i result ?_
          simp only [advance, after, Function.update_self]
          exact hresult
        rw [hwrite, ← hargs] at hafter
        rw [advance, hafter]
        exact System.Step.call i answer hallows
      · left
        rw [hcall, hdirectory, hevent] at hafter
        rw [advance, hafter]
        exact system_unmoved t.system i
  | interrupted i σ hinterrupted =>
      left
      rw [system_after, (session_interrupt (w i) (a i) (T i) hinterrupted).1]
      exact system_unmoved t.system i

/-- What is left of a run of sessions is a run of calls, with the arguments
    that the results at its end give them. -/
theorem run_system (hrun : Run (Step w a T output) t₀ t) :
    Run (System.Step output (t.arguments a)) t₀.system t.system :=
  hrun.project system (fun _ _ hstep h => explained_back hstep h)
    (fun _ _ hstep h => system_step hstep h) (explained_arguments a t)

/-- What holds of each session at every moment. -/
theorem sessionInv_run (h : t₀.Initial) (hrun : Run (Step w a T output) t₀ t) :
    ∀ i, SessionInv ((w i).shown (T i)) (a i) (t.sessions i) := by
  refine @Run.invariant _ _
    (fun u => ∀ i, SessionInv ((w i).shown (T i)) (a i) (u.sessions i)) _ _ hrun
    (fun u u' hinv hstep i => ?_) fun i => ?_
  · cases hstep with
    | others d hpermits => exact hinv i
    | session j answer hallows =>
        by_cases hj : i = j
        · subst hj
          have hmove := session_move (w i) (a i) (T i) output answer (u.sessions i) u.directory
          have hkept := hmove.inv hallows.2.2 (hinv i)
          simp only [advance, after, Function.update_self]
          exact hkept
        · simp only [advance, after, Function.update_of_ne hj]
          exact hinv i
    | interrupted j σ hinterrupted =>
        by_cases hj : i = j
        · subst hj
          simp only [after, Function.update_self]
          exact (session_interrupt (w i) (a i) (T i) hinterrupted).2.2 (hinv i)
        · simp only [after, Function.update_of_ne hj]
          exact hinv i
  · rw [h.sessions i]
    rfl

end Runs

section Published

variable {w a T output} [DecidableEq ι] [DecidableEq Name] {t₀ t : Sessions ι Name}

/-- At every moment of every run, the output file is what it was at the start,
    or is read as the result of the session that published last. That proof is
    for the session's own claim and verifies, and `verify` says so, unless the
    session was told not to pin the roots. -/
theorem generate_publishes_proofs (float : Str → Value) (depth : Nat) (h : t₀.Initial)
    (hrun : Run (Step w a T output) t₀ t) :
    (t.system.published = [] → t.directory.lookup output = t₀.directory.lookup output) ∧
    ∀ i, t.system.published.getLast? = some i → ∃ result encoded r,
      (t.sessions i).stage.result = some result ∧
      t.directory.lookup output = some encoded ∧
      ConnectionProof.read (w i).lowercase (loads float (depth + 1)) (.ok encoded) =
        .ok result.envelope ∧
      result.envelope.toFields = (a i).fields result.envelope.proof ∧
      verifyConnectionProof (w i).x509 (w i).lowercase (w i).rootFile
        (!(a i).allowUnpinnedRoots) result.envelope = .ok r ∧
      ((a i).allowUnpinnedRoots = false →
        verifyReport (w i).lowercase (loads float (depth + 1)) (w i).x509 (.ok encoded)
          (w i).rootFile = .ok (.dict (verifyEntries r))) := by
  have hinv := System.inv_run h.system (run_system hrun)
  have hsessions := sessionInv_run h hrun
  have hdest := hinv.destination
  unfold System.DestinationInv at hdest
  refine ⟨fun hnone => ?_, fun i hi => ?_⟩
  · rw [hnone] at hdest
    exact hdest.2.1
  · rw [hi] at hdest
    rcases hdest with ⟨file, encoded, hfile, -, htext, hcontent⟩
    cases hresult : (t.sessions i).stage.result with
    | none =>
        exact absurd (List.mem_of_getLast? hi)
          (unpublished (hinv.calls i) (hsessions i) hresult)
    | some result =>
        have hargs := explained_arguments a t i result hresult
        rw [hargs] at htext
        rcases earned_verified (earned_of_result (hsessions i) hresult) with ⟨hfields, r, hr⟩
        have hlookup : t.directory.lookup output = some encoded :=
          (Directory.lookup_of_entry hfile).trans (congrArg some hcontent)
        have hread := read_of_fileBytes float (w i).lowercase depth htext
        refine ⟨result, encoded, r, rfl, hlookup, hread, hfields, hr, fun hpinned => ?_⟩
        -- With the pin, the search has made the same verification.
        rw [hpinned] at hr
        change verifyConnectionProof (w i).x509 (w i).lowercase (w i).rootFile true
          result.envelope = .ok r at hr
        unfold verifyReport
        change ConnectionProof.read (w i).lowercase (loads float (depth + 1)) (.ok encoded) =
          .ok result.envelope at hread
        rw [hread]
        change (verifyConnectionProof (w i).x509 (w i).lowercase (w i).rootFile true
          result.envelope >>= _) = _
        rw [hr]
        rfl

end Published

/-! ### Two sessions -/

section Walk

variable {w a T output} [DecidableEq ι] [DecidableEq Name] {t : Sessions ι Name} {i : ι}
  {answer : Answer Name}

/-- A step that only moves the session on leaves the calls as they are, and the
    other sessions. -/
theorem exists_entered (hallows : t.system.Allows output answer) {stage : Stage}
    (h : (t.sessions i).step (w i) (a i) (T i) output answer t.directory =
      (t.sessions i).enter t.directory stage) :
    ∃ t', Step w a T output t t' ∧ t'.system = t.system ∧ (t'.sessions i).stage = stage ∧
      ∀ j, j ≠ i → t'.sessions j = t.sessions j := by
  refine ⟨_, Step.session i answer hallows, ?_, ?_, fun j hj => ?_⟩
  · rw [advance, h, system_after]
    exact system_unmoved t.system i
  · simp only [advance, after, Function.update_self, h]
    rfl
  · exact Function.update_of_ne hj _ _

/-- So does an interrupt. -/
theorem exists_interrupted {σ : Session Name} (h : (t.sessions i).interrupted (w i) = some σ) :
    ∃ t', Step w a T output t t' ∧ t'.system = t.system ∧ t'.sessions i = σ ∧
      ∀ j, j ≠ i → t'.sessions j = t.sessions j := by
  refine ⟨_, Step.interrupted i σ h, ?_, Function.update_self _ _ _, fun j hj => ?_⟩
  · rw [system_after, (session_interrupt (w i) (a i) (T i) h).1]
    exact system_unmoved t.system i
  · exact Function.update_of_ne hj _ _

/-- A session searches as the search does, until that has ended. -/
theorem exists_searching {context : ConnectionProof} {endpoints : List Endpoint}
    {generation : Generation} {outcome : Except PyErr GenerationResult}
    (hallows : t.system.Allows output answer)
    (hstage : (t.sessions i).stage = .searching context endpoints generation)
    (h : Eventually (generationStep ((w i).shown (T i)) (a i).options context endpoints)
      (fun g => g = .ended outcome) generation) :
    ∃ t', Run (Step w a T output) t t' ∧ t'.system = t.system ∧
      (t'.sessions i).stage = .searching context endpoints (.ended outcome) ∧
      ∀ j, j ≠ i → t'.sessions j = t.sessions j := by
  rcases h with ⟨n, hn⟩
  induction n generalizing t generation with
  | zero =>
      rw [show generation = .ended outcome from hn] at hstage
      exact ⟨t, Relation.ReflTransGen.refl, rfl, hstage, fun j _ => rfl⟩
  | succ n ih =>
      by_cases hended : ∃ outcome', generation = .ended outcome'
      -- What has ended stays so.
      · rcases hended with ⟨outcome', rfl⟩
        exact ih hallows hstage hn
      · have hgoing : ∀ outcome', generation ≠ .ended outcome' :=
          fun outcome' heq => hended ⟨outcome', heq⟩
        have hstep : (t.sessions i).step (w i) (a i) (T i) output answer t.directory =
            (t.sessions i).enter t.directory (.searching context endpoints
              (generationStep ((w i).shown (T i)) (a i).options context endpoints
                generation)) := by
          rw [← stageSearched_going hgoing]
          unfold Session.step
          rw [hstage]
        rcases exists_entered hallows hstep with ⟨t', hfirst, hsystem, hstage', hothers⟩
        rw [← hsystem] at hallows
        rcases ih hallows hstage' hn with ⟨t'', hrun, hsystem', hstage'', hothers'⟩
        exact ⟨t'', Relation.ReflTransGen.head hfirst hrun, hsystem'.trans hsystem, hstage'',
          fun j hj => (hothers' j hj).trans (hothers j hj)⟩

/-- A step of the call of `write` is the session's step. -/
theorem exists_written {args : ι → WriteArgs} {result : GenerationResult}
    (hargs : args i = (a i).writes result) (hallows : t.system.Allows output answer)
    (hstage : (t.sessions i).stage = .writing result)
    (hopen : (t.system.calls i).outcome = none) :
    ∃ t', Step w a T output t t' ∧ t'.system = t.system.advance output args i answer ∧
      ∀ j, (t'.sessions j).stage = (t.sessions j).stage := by
  have hstep : (t.sessions i).step (w i) (a i) (T i) output answer t.directory =
      ⟨{ t.sessions i with
        call := (writeStep output (args i) answer (t.sessions i).call t.directory).call },
        (writeStep output (args i) answer (t.sessions i).call t.directory).directory,
        (writeStep output (args i) answer (t.sessions i).call t.directory).event⟩ := by
    have hnone : (t.sessions i).call.outcome = none := hopen
    unfold Session.step
    rw [hstage]
    dsimp only
    rw [hnone, hargs, hstage]
  refine ⟨_, Step.session i answer hallows, ?_, fun j => ?_⟩
  · rw [advance, hstep, system_after]
    rfl
  · by_cases hj : j = i
    · subst hj
      simp only [advance, after, Function.update_self, hstep]
    · simp only [advance, after, Function.update_of_ne hj]

/-- No call has ended before its step of the script. -/
def opens (output : Name) (args : ι → WriteArgs) (s : System ι Name) :
    List (ι × Answer Name) → Bool
  | [] => true
  | (i, answer) :: script =>
      (s.calls i).outcome.isNone && opens output args (s.advance output args i answer) script

/-- Sessions write as their calls do, in whatever order. -/
theorem exists_script (args : ι → WriteArgs) (script : List (ι × Answer Name))
    (hstages : ∀ i, ∃ result, (t.sessions i).stage = .writing result ∧
      args i = (a i).writes result)
    (hplays : t.system.plays output args script = true)
    (hopens : opens output args t.system script = true) :
    ∃ t', Run (Step w a T output) t t' ∧ t'.system = t.system.play output args script ∧
      ∀ j, (t'.sessions j).stage = (t.sessions j).stage := by
  induction script generalizing t with
  | nil => exact ⟨t, Relation.ReflTransGen.refl, rfl, fun j => rfl⟩
  | cons operation script ih =>
      rcases operation with ⟨i, answer⟩
      simp only [System.plays, Bool.and_eq_true, decide_eq_true_eq,
        Option.all_eq_true] at hplays
      rw [opens, Bool.and_eq_true, Option.isNone_iff_eq_none] at hopens
      rcases hplays with ⟨⟨⟨hfree, hne⟩, herror⟩, hrest⟩
      rcases hstages i with ⟨result, hstage, hargs⟩
      rcases exists_written (w := w) (T := T) hargs ⟨hfree, hne, herror⟩ hstage hopens.1
        with ⟨t', hstep, hsystem, hsame⟩
      rw [← hsystem] at hrest
      have hopens' := hopens.2
      rw [← hsystem] at hopens'
      have hstages' : ∀ i, ∃ result, (t'.sessions i).stage = .writing result ∧
          args i = (a i).writes result := by
        intro j
        rw [hsame j]
        exact hstages j
      rcases ih hstages' hrest hopens' with ⟨t'', hrun, hplay, hsame'⟩
      refine ⟨t'', Relation.ReflTransGen.head hstep hrun, ?_,
        fun j => (hsame' j).trans (hsame j)⟩
      rw [hplay, hsystem]
      rfl

/-- A session whose call has returned reports. -/
theorem exists_reporting {result : GenerationResult} (hallows : t.system.Allows output answer)
    (hstage : (t.sessions i).stage = .writing result)
    (hended : (t.system.calls i).phase = .ended (.ok ())) :
    ∃ t', Step w a T output t t' ∧ t'.system = t.system ∧
      (t'.sessions i).stage = .reporting result ∧
      ∀ j, j ≠ i → t'.sessions j = t.sessions j := by
  have houtcome : (t.sessions i).call.outcome = some (.ok ()) := by
    unfold Call.outcome
    rw [show (t.sessions i).call.phase = _ from hended]
  refine exists_entered hallows ?_
  unfold Session.step
  rw [hstage]
  dsimp only
  rw [houtcome]
  rfl

/-- Then it ends, as printing the report does. -/
theorem exists_reported {result : GenerationResult} (hallows : t.system.Allows output answer)
    (hstage : (t.sessions i).stage = .writing result)
    (hended : (t.system.calls i).phase = .ended (.ok ())) :
    ∃ t', Run (Step w a T output) t t' ∧ t'.system = t.system ∧
      (t'.sessions i).stage = .ended (some result) (answer.unless (.ok ())) ∧
      ∀ j, j ≠ i → t'.sessions j = t.sessions j := by
  rcases exists_reporting (w := w) (a := a) (T := T) hallows hstage hended
    with ⟨t₁, hfirst, hsystem₁, hstage₁, hothers₁⟩
  have hstep : (t₁.sessions i).step (w i) (a i) (T i) output answer t₁.directory =
      (t₁.sessions i).enter t₁.directory (.ended (some result) (answer.unless (.ok ()))) := by
    unfold Session.step
    rw [hstage₁]
  rw [← hsystem₁] at hallows
  rcases exists_entered hallows hstep with ⟨t₂, hsecond, hsystem₂, hstage₂, hothers₂⟩
  exact ⟨t₂, (Relation.ReflTransGen.single hfirst).tail hsecond, hsystem₂.trans hsystem₁, hstage₂,
    fun j hj => (hothers₂ j hj).trans (hothers₁ j hj)⟩

/-- Or it is interrupted before it has reported. -/
theorem exists_unreported {result : GenerationResult} (hallows : t.system.Allows output answer)
    (hstage : (t.sessions i).stage = .writing result)
    (hended : (t.system.calls i).phase = .ended (.ok ())) :
    ∃ t', Run (Step w a T output) t t' ∧ t'.system = t.system ∧
      (t'.sessions i).stage = .ended (some result) (.error interrupt) ∧
      ∀ j, j ≠ i → t'.sessions j = t.sessions j := by
  rcases exists_reporting (w := w) (a := a) (T := T) hallows hstage hended
    with ⟨t₁, hfirst, hsystem₁, hstage₁, hothers₁⟩
  have hinterrupted : (t₁.sessions i).interrupted (w i) =
      some { t₁.sessions i with stage := .ended (some result) (.error interrupt) } := by
    unfold Session.interrupted
    rw [hstage₁]
  have hinterrupt : ∃ t₂, Step w a T output t₁ t₂ ∧ t₂.system = t₁.system ∧
      t₂.sessions i = { t₁.sessions i with stage := .ended (some result) (.error interrupt) } ∧
      ∀ j, j ≠ i → t₂.sessions j = t₁.sessions j := exists_interrupted hinterrupted
  rcases hinterrupt with ⟨t₂, hsecond, hsystem₂, hsession₂, hothers₂⟩
  exact ⟨t₂, (Relation.ReflTransGen.single hfirst).tail hsecond, hsystem₂.trans hsystem₁,
    by rw [hsession₂], fun j hj => (hothers₂ j hj).trans (hothers₁ j hj)⟩

end Walk

section Sample

open Tls13 (attemptOn piecesOf sessionRecords sessionMessages)

/-- The claim of the structural vector, for the session's server. -/
def sampleCommand (overwrite : Bool) : GenerateArgs :=
  { vectorArgs with
    maxAttempts := 1
    allowPrivateAddresses := true
    allowUnpinnedRoots := true
    overwrite := overwrite }

/-- A terminal whose clock stands still, so that nothing is shown. -/
def quietTerminal : Terminal :=
  ⟨fun _ => 0, fun _ _ => .ok ()⟩

/-- The world of the session. -/
def sampleSession : World Bytes Unit :=
  sampleWorld (attemptOn (piecesOf sessionRecords))

/-- Sessions in an empty directory. -/
def sampleSessions : Sessions ι Nat where
  sessions _ := Session.start
  directory := ⟨fun _ => none, fun _ => [], 0⟩
  creator _ := none
  events := []

theorem initial_sampleSessions : (sampleSessions : Sessions ι Nat).Initial where
  sessions _ := rfl
  system := ⟨fun _ => rfl, fun _ _ h => absurd h (by simp [sampleSessions, system]), fun _ => rfl,
    rfl⟩

theorem prepare_sampleCommand (overwrite : Bool) :
    (sampleCommand overwrite).prepare (sampleSession.shown quietTerminal) =
      .ok (sampleContext, [sampleEndpoint]) := by
  have hcontext : (sampleCommand overwrite).context Lowercase.ascii = .ok sampleContext :=
    (context_eq_ok_iff _ _ _).mpr rfl
  have hprepare := prepare_sampleWorld (attemptOn (piecesOf sessionRecords))
  unfold GenerateArgs.prepare
  simp only [bind_eq_ok_iff, pure_eq_ok_iff]
  exact ⟨_, hcontext, _, hprepare, rfl⟩

/-- The search of the session, with the printer. -/
def shownStep : State → State :=
  step (sampleSession.shown quietTerminal) sampleOptions sampleContext [sampleEndpoint]

theorem shownStep_returned :
    ∃ result, (shownStep^[4] (start (sampleSession.shown quietTerminal))).outcome =
        some (.ok result) ∧ result.envelope = sampleCandidate := by
  have hcontrol : (shownStep^[3] (start (sampleSession.shown quietTerminal))).control =
      .harvesting [sampleSubmission] :=
    rfl
  rw [Function.iterate_succ_apply']
  rcases returns_sampleCandidate (sampleSession.shown quietTerminal).progress hcontrol
    with ⟨result, hreturned, hcandidate⟩
  exact ⟨result, (outcome_eq_ok_iff _ _).mpr hreturned, hcandidate⟩

/-- The search of a session comes to a result. -/
theorem generation_ended (overwrite : Bool) : ∃ result : GenerationResult,
    result.envelope = sampleCandidate ∧
    Eventually (generationStep (sampleSession.shown quietTerminal) (sampleCommand overwrite).options
      sampleContext [sampleEndpoint]) (fun g => g = .ended (.ok result))
      (.trying (start (sampleSession.shown quietTerminal))) := by
  rcases shownStep_returned with ⟨result, houtcome, hcandidate⟩
  have hstops : (sampleSession.shown quietTerminal).Stops :=
    stops_sampleWorld (attemptOn (piecesOf sessionRecords))
  exact ⟨result, hcandidate, eventually_outcome hstops 4 houtcome⟩

/-- What can happen with two sessions, of which one overwrites. -/
abbrev SampleStep : Sessions Bool Nat → Sessions Bool Nat → Prop :=
  Step (fun _ => sampleSession) sampleCommand (fun _ => quietTerminal) 0

/-- An answer that a session can be given as long as no name is taken. -/
def sampleAnswer : Answer Nat :=
  ⟨9, 100000, none⟩

theorem allows_sampleAnswer {s : System Bool Nat} (hfree : s.directory.entry 9 = none) :
    s.Allows 0 sampleAnswer :=
  ⟨hfree, by decide, fun e he => absurd he (by simp [sampleAnswer])⟩

/-- A session that has not begun finds a proof. -/
theorem exists_found {t : Sessions Bool Nat} {i : Bool}
    (hfree : t.system.directory.entry 9 = none) (hstart : t.sessions i = Session.start) :
    ∃ t' result, Run SampleStep t t' ∧ t'.system = t.system ∧
      (t'.sessions i).stage = .writing result ∧ result.envelope = sampleCandidate ∧
      ∀ j, j ≠ i → t'.sessions j = t.sessions j := by
  rcases generation_ended i with ⟨result, hcandidate, hended⟩
  have hallows := allows_sampleAnswer hfree
  have hprepared : (t.sessions i).step sampleSession (sampleCommand i) quietTerminal 0
      sampleAnswer t.directory = (t.sessions i).enter t.directory
        (.searching sampleContext [sampleEndpoint]
          (.trying (start (sampleSession.shown quietTerminal)))) := by
    rw [hstart]
    change Session.start.enter _ (stagePrepared _ _) = _
    rw [stagePrepared, prepare_sampleCommand]
  rcases exists_entered (w := fun _ => sampleSession) (T := fun _ => quietTerminal) hallows
    hprepared with ⟨t₁, hfirst, hsystem₁, hstage₁, hothers₁⟩
  rw [← hsystem₁] at hallows
  rcases exists_searching (w := fun _ => sampleSession) (a := sampleCommand)
    (T := fun _ => quietTerminal) hallows hstage₁ hended
    with ⟨t₂, hsearch, hsystem₂, hstage₂, hothers₂⟩
  have hfound : (t₂.sessions i).step sampleSession (sampleCommand i) quietTerminal 0 sampleAnswer
      t₂.directory = (t₂.sessions i).enter t₂.directory (.writing result) := by
    unfold Session.step
    rw [hstage₂]
    rfl
  rw [← hsystem₂] at hallows
  rcases exists_entered (w := fun _ => sampleSession) (T := fun _ => quietTerminal) hallows hfound
    with ⟨t₃, hlast, hsystem₃, hstage₃, hothers₃⟩
  exact ⟨t₃, result, (Relation.ReflTransGen.head hfirst hsearch).tail hlast,
    (hsystem₃.trans hsystem₂).trans hsystem₁, hstage₃, hcandidate,
    fun j hj => ((hothers₃ j hj).trans (hothers₂ j hj)).trans (hothers₁ j hj)⟩

/-- Both calls prepare their files and publish one after the other. The one
    that overwrites is the second, and has nothing to remove. -/
def sampleScript : List (Bool × Answer Nat) :=
  [(true, sampleAnswer), (false, sampleAnswer), (false, { sampleAnswer with name := 1 }),
    (true, { sampleAnswer with name := 2 })] ++
  (List.replicate 5 [(false, sampleAnswer), (true, sampleAnswer)]).flatten ++
  [(false, sampleAnswer)]

/-- What the sessions write. -/
def sampleWrites (i : Bool) : WriteArgs :=
  ⟨sampleCandidate, i⟩

/-- Both calls publish and return. -/
theorem sampleScript_play :
    let calls : System Bool Nat := (sampleSessions : Sessions Bool Nat).system
    calls.plays 0 sampleWrites sampleScript = true ∧
      opens 0 sampleWrites calls sampleScript = true ∧
      (∀ i, ((calls.play 0 sampleWrites sampleScript).calls i).phase = .ended (.ok ())) ∧
      (calls.play 0 sampleWrites sampleScript).published = [false, true] ∧
      (calls.play 0 sampleWrites sampleScript).directory.entry 9 = none := by
  decide +kernel

/-- Both sessions find a proof and publish it. -/
theorem sampleSessions_written : ∃ t r₀ r₁, Run SampleStep sampleSessions t ∧
    (t.sessions false).stage = .writing r₀ ∧ (t.sessions true).stage = .writing r₁ ∧
    (∀ i, (t.system.calls i).phase = .ended (.ok ())) ∧ t.system.published = [false, true] ∧
    t.system.directory.entry 9 = none := by
  rcases exists_found (t := sampleSessions) (i := false) rfl rfl
    with ⟨t₁, r₀, hrun₁, hsystem₁, hstage₁, hcandidate₀, hothers₁⟩
  have hfree₁ : t₁.system.directory.entry 9 = none := by
    rw [hsystem₁]
    rfl
  rcases exists_found (i := true) hfree₁ (hothers₁ true (by decide))
    with ⟨t₂, r₁, hrun₂, hsystem₂, hstage₂, hcandidate₁, hothers₂⟩
  have hstage₂' : (t₂.sessions false).stage = .writing r₀ := by
    rw [hothers₂ false (by decide)]
    exact hstage₁
  have hstages : ∀ i, ∃ result, (t₂.sessions i).stage = .writing result ∧
      sampleWrites i = (sampleCommand i).writes result := by
    intro i
    cases i with
    | false =>
        refine ⟨r₀, hstage₂', ?_⟩
        rw [GenerateArgs.writes, hcandidate₀]
        rfl
    | true =>
        refine ⟨r₁, hstage₂, ?_⟩
        rw [GenerateArgs.writes, hcandidate₁]
        rfl
  -- They write at the same time.
  rcases sampleScript_play with ⟨hplays, hopens, hended, hpublished, hfree⟩
  rw [hsystem₁] at hsystem₂
  rw [← hsystem₂] at hplays hopens hended hpublished hfree
  rcases exists_script (w := fun _ => sampleSession) (T := fun _ => quietTerminal) sampleWrites
    sampleScript hstages hplays hopens with ⟨t₃, hrun₃, hsystem₃, hsame₃⟩
  rw [← hsystem₃] at hended hpublished hfree
  exact ⟨t₃, r₀, r₁, (hrun₁.trans hrun₂).trans hrun₃, (hsame₃ false).trans hstage₂',
    (hsame₃ true).trans hstage₂, hended, hpublished, hfree⟩

/-- Both sessions publish. One is interrupted before it reports, and the other
    one ends. -/
theorem sampleSessions_run : ∃ t r₀ r₁, Run SampleStep sampleSessions t ∧
    (t.sessions false).stage = .ended (some r₀) (.error interrupt) ∧
    (t.sessions true).stage = .ended (some r₁) (.ok ()) ∧
    t.system.published = [false, true] := by
  rcases sampleSessions_written with ⟨t, r₀, r₁, hrun, hstage₀, hstage₁, hended, hpublished, hfree⟩
  rcases exists_unreported (w := fun _ => sampleSession) (a := sampleCommand)
    (T := fun _ => quietTerminal) (allows_sampleAnswer hfree) hstage₀ (hended false)
    with ⟨t', hrun', hsystem', hstage', hothers'⟩
  rw [← hsystem'] at hended hpublished hfree
  have hstage₁' : (t'.sessions true).stage = .writing r₁ := by
    rw [hothers' true (by decide)]
    exact hstage₁
  rcases exists_reported (w := fun _ => sampleSession) (a := sampleCommand)
    (T := fun _ => quietTerminal) (allows_sampleAnswer hfree) hstage₁' (hended true)
    with ⟨t'', hrun'', hsystem'', hstage'', hothers''⟩
  rw [← hsystem''] at hpublished
  have hfirst : (t''.sessions false).stage = .ended (some r₀) (.error interrupt) := by
    rw [hothers'' false (by decide)]
    exact hstage'
  exact ⟨t'', r₀, r₁, (hrun.trans hrun').trans hrun'', hfirst, hstage'', hpublished⟩

/-- What is there in the end is read as a proof for the claim of the session
    that published last. -/
theorem session_publishes : ∃ t encoded, ∃ result : GenerationResult,
    Run SampleStep sampleSessions t ∧ t.system.published = [false, true] ∧
    t.directory.lookup 0 = some encoded ∧
    ConnectionProof.read Lowercase.ascii (loads (fun _ => .none) 1) (.ok encoded) =
      .ok result.envelope ∧
    result.envelope.toFields = (sampleCommand true).fields result.envelope.proof := by
  rcases sampleSessions_run with ⟨t, -, -, hrun, -, -, hpublished⟩
  have hlast : t.system.published.getLast? = some true := by
    rw [hpublished]
    rfl
  rcases (generate_publishes_proofs (fun _ => .none) 0 initial_sampleSessions hrun).2 true hlast
    with ⟨result, encoded, r, -, hlookup, hread, hfields, -⟩
  exact ⟨t, encoded, result, hrun, hpublished, hlookup, hread, hfields⟩

end Sample

end Sessions

end P2CTools
