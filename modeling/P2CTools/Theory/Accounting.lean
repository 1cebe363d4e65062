import P2CTools.Theory.Search
import P2CTools.Wire.Ledger
import Mathlib.Data.Set.Insert

/-!
# The Accounts of a Search

What a search counts and what it remembers.

The started attempts, the pending ones and those looked at are a ledger:
starting an attempt issues it, looking at it settles it, and the rest of the
machine touches neither. So the counters add up in every state of every run,
in whatever order the attempts complete and whether they fail or not. A pass
of the loop over the completed attempts ends early when it returns or raises.
What it had not looked at is then still pending, and is not lost.

The best work is noted before the verifications, so it is that of all captures
that parse, and not only of the verified ones. `Best` says that it is the least
of a set of works. The set grows with every attempt that is looked at, and a
report shows the least of the set at its time, so later reports show no larger
one.

## Main definitions

* `Yields`: An attempt comes to a capture with some work.
* `Best`: The best work is the least of some works.
* `Reports`: A report shows the best work of what was before it.
* `Accounts`: The counters and the ledger.
* `Standing`: The best work and the reports.
* `Concluded`: The result counts what was looked at.

## Theorems

* `Best.tryCapture`: A completed attempt keeps the least work.
* `accounts_step`, `standing_step`, `concluded_step`: What one move preserves.
* `search_accounts`: The whole run.
-/

namespace P2CTools

open Wire Protocol
open Tls13 (TlsProofMessages)

section Works

variable {Cert Key : Type} {w : World Cert Key} {options : GenerationOptions}
  {context : ConnectionProof} {submission : Submission} {m m' : TlsProofMessages}
  {candidate candidate' : ConnectionProof} {c c' : Bytes} {p p' : ParsedProof}

/-- The attempt came to a capture whose proof parses, and whose work hash is
    the given one. -/
def Yields (w : World Cert Key) (context : ConnectionProof) (submission : Submission)
    (work : Bytes) : Prop :=
  ∃ m candidate c p, Captured w context submission m candidate c p ∧ p.connectionWorkHash = work

theorem Captured.yields_iff (h : Captured w context submission m candidate c p) (work : Bytes) :
    Yields w context submission work ↔ work = p.connectionWorkHash := by
  constructor
  · rintro ⟨m', candidate', c', p', h', rfl⟩
    rw [(h.unique h').2]
  · rintro rfl
    exact ⟨m, candidate, c, p, h, rfl⟩

/-- The best value and the best hash of a search are those of the least of
    some works. -/
inductive Best (works : Set Bytes) (s : Search) : Prop
  | none (hworks : works = ∅) (hvalue : s.bestValue = none) (hhash : s.bestHash = none)
  | some (work : Bytes) (display : Str) (hmem : work ∈ works)
      (hleast : ∀ other ∈ works, leNat work ≤ leNat other)
      (hvalue : s.bestValue = some (leNat work))
      (hdisplay : internalHashToDisplay work = .ok display) (hhash : s.bestHash = some display)

theorem Best.of_eq {works : Set Bytes} {s s' : Search} (h : Best works s)
    (hvalue : s'.bestValue = s.bestValue) (hhash : s'.bestHash = s.bestHash) : Best works s' := by
  cases h with
  | none hworks hv hh => exact Best.none hworks (hvalue.trans hv) (hhash.trans hh)
  | some work display hmem hleast hv hdisplay hh =>
      exact Best.some work display hmem hleast (hvalue.trans hv) hdisplay (hhash.trans hh)

/-- Noting a work keeps the least of the works noted so far. -/
theorem Best.note {works : Set Bytes} {s : Search} (h : Best works s) (work : Bytes)
    (hlen : work.length = 32) : Best (insert work works) (s.note work) := by
  unfold Search.note
  by_cases hless : ∀ best ∈ s.bestValue, leNat work < best
  -- The new work is below the best one, so below every work noted before.
  · rw [if_pos hless]
    refine Best.some work _ (Set.mem_insert _ _) ?_ rfl (internalHashToDisplay_eq_ok work hlen) rfl
    intro other hother
    rcases Set.mem_insert_iff.mp hother with rfl | hother
    · exact Nat.le_refl _
    · cases h with
      | none hworks => rw [hworks] at hother; exact absurd hother (Set.notMem_empty other)
      | some best display _ hleast hvalue =>
          exact (hless _ hvalue).le.trans (hleast other hother)
  -- Otherwise the best one stays, and it is not above the new work either.
  · rw [if_neg hless]
    cases h with
    | none _ hvalue =>
        -- With no best work yet, every new work is below it.
        refine absurd (fun best hbest => ?_) hless
        rw [hvalue] at hbest
        exact nomatch hbest
    | some best display hmem hleast hvalue hdisplay hhash =>
        refine Best.some best display (Set.mem_insert_of_mem _ hmem) ?_ hvalue hdisplay hhash
        intro other hother
        rcases Set.mem_insert_iff.mp hother with rfl | hother
        · -- The new work is not below the best one.
          by_contra hlt
          refine hless fun value hv => ?_
          rw [hvalue] at hv
          rw [← Option.some.inj hv]
          omega
        · exact hleast other hother

/-- After a completed attempt the best work is the least one, its own
    included, whatever became of it afterwards. -/
theorem Best.tryCapture {works : Set Bytes} {s search : Search} (h : Best works s)
    {out : Except PyErr (Option (ConnectionProof × Str))}
    (htry : tryCapture w options context submission s = (out, search)) :
    Best (works ∪ {work | Yields w context submission work}) search := by
  -- Each outcome that parsed a proof has noted its work, and that is the only one the attempt
  -- yields.
  have hparsed : ∀ {m candidate c p}, Captured w context submission m candidate c p →
      Best (works ∪ {work | Yields w context submission work}) (s.note p.connectionWorkHash) := by
    intro m candidate c p hcaptured
    have hset : works ∪ {work | Yields w context submission work} =
        insert p.connectionWorkHash works := by
      rw [Set.union_comm, Set.insert_eq]
      congr 1
      ext work
      exact hcaptured.yields_iff work
    rw [hset]
    exact h.note _ (length_connectionWorkHash hcaptured.parsed)
  cases Tried.of_eq htry with
  | unusable e herror =>
      -- An attempt whose proof was never parsed yields no work at all.
      have hset : {work | Yields w context submission work} = ∅ := by
        refine Set.eq_empty_of_forall_notMem ?_
        rintro work ⟨m, candidate, c, p, hcaptured, -⟩
        exact hcaptured.usable e herror
      rw [hset, Set.union_empty]
      exact h
  | rejected m candidate c p e hcaptured => exact hparsed hcaptured
  | won m candidate c p hcaptured => exact (hparsed hcaptured).of_eq rfl rfl
  | lost m candidate c p hcaptured => exact (hparsed hcaptured).of_eq rfl rfl

end Works

section Accounts

variable {Cert Key : Type} (w : World Cert Key) (options : GenerationOptions)
  (context : ConnectionProof) {endpoints : List Tls13.Endpoint}

/-- The counters of a search and its attempts. The started attempts are the
    issued ones of a ledger, those looked at are settled. -/
structure Accounts (s : State) : Prop where
  balanced : Balanced Submission.number (s.starts.map Prod.fst) s.pending s.harvests
  numbered : ∀ submission ∈ s.starts.map Prod.fst, submission.number ≤ s.attemptsStarted
  started : s.attemptsStarted = s.starts.length
  completed : s.attemptsCompleted = s.harvests.length
  room : s.pending.length ≤ options.concurrency
  limit : options.maxAttempts ≠ 0 → s.attemptsStarted ≤ options.maxAttempts
  /-- What is still to be looked at in this pass is pending. -/
  open_done : ∀ done, s.control = .harvesting done →
    (∀ submission ∈ done, submission ∈ s.pending) ∧ (done.map Submission.number).Nodup

/-- The works of the attempts that some events look at. -/
def worksOf (events : List Event) : Set Bytes :=
  {work | ∃ submission ∈ events.filterMap Event.harvest, Yields w context submission work}

/-- The works of the attempts that were looked at. -/
def State.works (s : State) : Set Bytes :=
  worksOf w context s.trace

/-- A report says how many attempts were looked at before it, and shows the best
    work hash of these. -/
def Reports (before : List Event) (report : GenerationProgress) : Prop :=
  report.attempts = (before.filterMap Event.harvest).length ∧
    ∃ search, Best (worksOf w context before) search ∧ report.bestWorkHash = search.bestHash

/-- A report shows a work in its display form. -/
def Shows (report : GenerationProgress) (work : Bytes) : Prop :=
  ∃ display, internalHashToDisplay work = .ok display ∧ report.bestWorkHash = some display

/-- The later report does not show a larger work. -/
def NoWorse (earlier later : GenerationProgress) : Prop :=
  ∀ work, Shows earlier work → ∃ work', Shows later work' ∧ leNat work' ≤ leNat work

/-- The best work of a search and its reports. -/
structure Standing (s : State) : Prop where
  best : Best (s.works w context) s.search
  counted : s.attemptsCompleted = s.harvests.length
  shown : EachReport (Reports w context) s.trace
  improving : s.reported.Pairwise NoWorse

variable {w options context}

/-- What looks at nothing adds no work. -/
theorem worksOf_concat {event : Event} (h : event.harvest = none) (events : List Event) :
    worksOf w context (events ++ [event]) = worksOf w context events := by
  unfold worksOf
  rw [List.filterMap_append, List.filterMap_cons, h, List.filterMap_nil, List.append_nil]

/-- The works only grow. -/
theorem worksOf_subset (before later : List Event) :
    worksOf w context before ⊆ worksOf w context (before ++ later) := by
  rintro work ⟨submission, hmem, hyields⟩
  rw [worksOf, Set.mem_ofPred_eq, List.filterMap_append]
  exact ⟨submission, List.mem_append_left _ hmem, hyields⟩

/-- A started attempt is issued under a new number. -/
theorem Accounts.afterSubmit {s : State} (hs : Accounts options s) {now : ℚ}
    (hready : s.Ready options now) (endpoint : Tls13.Endpoint)
    (hcontrol : s.control = .starting) (nextStart : ℚ) :
    Accounts options (s.afterSubmit options endpoint now nextStart) where
  balanced := by
    -- Every number given out so far is at most `attempts_started`.
    have hfresh : (s.submission options endpoint now).number ∉
        (s.starts.map Prod.fst).map Submission.number := by
      intro hmem
      rcases List.mem_map.mp hmem with ⟨other, hother, hnumber⟩
      have hle := hs.numbered other hother
      rw [hnumber] at hle
      exact Nat.not_succ_le_self _ hle
    rw [starts_afterSubmit, List.map_append, harvests_afterSubmit]
    exact hs.balanced.issue hfresh
  numbered := by
    intro submission hmem
    rw [starts_afterSubmit, List.map_append, List.mem_append] at hmem
    rcases hmem with hmem | hmem
    · exact (hs.numbered submission hmem).trans (Nat.le_succ _)
    · rw [List.mem_singleton.mp hmem]
      exact Nat.le_refl _
  started := by
    rw [starts_afterSubmit, List.length_append, ← hs.started]
    rfl
  completed := by
    rw [harvests_afterSubmit]
    exact hs.completed
  room := by
    have hroom := hready.room
    change ((s.pending ++ [s.submission options endpoint now]).length : Int) ≤ _
    rw [List.length_append, List.length_singleton]
    omega
  limit := by
    intro hlimited
    have hleft := hready.left
    unfold State.exhausted at hleft
    change ((s.attemptsStarted + 1 : Nat) : Int) ≤ options.maxAttempts
    omega
  open_done := fun _ h => nomatch hcontrol.symm.trans h

/-- A completed attempt is settled, and the rest of the pass stays open. -/
theorem Accounts.afterHarvest {s : State} (hs : Accounts options s) {submission : Submission}
    {rest : List Submission} (hcontrol : s.control = .harvesting (submission :: rest)) :
    Accounts options { s.afterHarvest submission with control := .harvesting rest } := by
  -- The completed attempt is pending, and no other of the pass has its number.
  rcases hs.open_done _ hcontrol with ⟨hpending, honce⟩
  rw [List.map_cons, List.nodup_cons] at honce
  have hmem := hpending submission List.mem_cons_self
  have hbalanced := hs.balanced.settle hmem
  refine ⟨?_, ?_, ?_, ?_, ?_, hs.limit, ?_⟩
  · change Balanced _ ((s.afterHarvest submission).starts.map Prod.fst) _
      (s.afterHarvest submission).harvests
    rw [starts_afterHarvest, harvests_afterHarvest]
    exact hbalanced
  · change ∀ other ∈ (s.afterHarvest submission).starts.map Prod.fst, _
    rw [starts_afterHarvest]
    exact hs.numbered
  · change _ = (s.afterHarvest submission).starts.length
    rw [starts_afterHarvest]
    exact hs.started
  · change s.attemptsCompleted + 1 = (s.afterHarvest submission).harvests.length
    rw [harvests_afterHarvest, List.length_append, ← hs.completed]
    rfl
  · have hroom := hs.room
    have hle := List.length_filter_le (fun other : Submission => other.number ≠ submission.number)
      s.pending
    change ((s.pending.filter _).length : Int) ≤ _
    omega
  -- The filter drops this number only, so the rest of the pass stays pending.
  · intro done hdone
    rw [← Control.harvesting.inj hdone]
    refine ⟨fun other hother => ?_, honce.2⟩
    refine List.mem_filter.mpr ⟨hpending other (List.mem_cons_of_mem _ hother), ?_⟩
    refine decide_eq_true fun hnumber => honce.1 ?_
    rw [← hnumber]
    exact List.mem_map_of_mem hother

/-- A report changes no counter. -/
theorem Accounts.afterReport {s : State} (hs : Accounts options s) (report : GenerationProgress) :
    Accounts options (s.afterReport report) where
  balanced := by
    rw [starts_afterReport, harvests_afterReport]
    exact hs.balanced
  numbered := by
    rw [starts_afterReport]
    exact hs.numbered
  started := by
    rw [starts_afterReport]
    exact hs.started
  completed := by
    rw [harvests_afterReport]
    exact hs.completed
  room := hs.room
  limit := hs.limit
  open_done := hs.open_done

theorem accounts_step {s s' : State} (hs : Accounts options s)
    (hmove : Move w options context endpoints s s') : Accounts options s' := by
  cases hmove with
  -- These moves change no counter, and they leave the pass over the completed ones.
  | opened | expired | usedUp | slept | quiet =>
      exact { hs with open_done := fun _ h => nomatch h }
  | submitted endpoint hcontrol hready => exact hs.afterSubmit hready endpoint hcontrol _
  | overflowed endpoint hcontrol hready =>
      exact { hs.afterSubmit hready endpoint hcontrol s.nextStart with
        open_done := fun _ h => nomatch h }
  | waited ticks done hcontrol hwait hticks hpending honce =>
      -- `wait` returns attempts out of `pending`, each once.
      refine { hs with open_done := fun done' h => ?_ }
      rw [← Control.harvesting.inj h]
      exact ⟨hpending, honce⟩
  | won submission rest candidate peerIp search hcontrol =>
      exact { hs.afterHarvest hcontrol with open_done := fun _ h => nomatch h }
  | lost submission rest search hcontrol => exact { hs.afterHarvest hcontrol with }
  | failed submission rest e search hcontrol => exact { hs.afterHarvest hcontrol with }
  | escaped submission rest e search hcontrol =>
      exact { hs.afterHarvest hcontrol with open_done := fun _ h => nomatch h }
  | reported control callback hcontrol hprogress hcall =>
      -- Whether the callback returns or raises, only the control differs.
      have hreport := hs.afterReport (s.progressAt (w.clock s.ticks))
      rcases hcall with ⟨-, rfl⟩ | ⟨e, -, rfl⟩
      · exact { hreport with open_done := fun _ h => nomatch h }
      · exact { hreport with open_done := fun _ h => nomatch h }
  | ended => exact hs

theorem accounts_start (hconcurrency : 1 ≤ options.concurrency) (hlimit : 0 ≤ options.maxAttempts) :
    Accounts options (start w) where
  balanced := Balanced.nil _
  numbered := fun _ h => nomatch h
  started := rfl
  completed := rfl
  room := by
    change ((0 : Nat) : Int) ≤ _
    omega
  limit := by
    intro _
    change ((0 : Nat) : Int) ≤ _
    omega
  open_done := fun _ h => nomatch h

theorem works_afterHarvest (s : State) (submission : Submission) :
    (s.afterHarvest submission).works w context =
      s.works w context ∪ {work | Yields w context submission work} := by
  change worksOf w context (s.trace ++ [Event.harvested submission]) = _
  ext work
  simp only [State.works, worksOf, List.filterMap_append, List.filterMap_cons, Event.harvest,
    List.filterMap_nil, List.mem_append, List.mem_singleton, Set.mem_ofPred_eq, Set.mem_union,
    or_and_right, exists_or, exists_eq_left]

/-- A completed attempt adds its work, if it has one. -/
theorem Standing.afterHarvest {s : State} (hs : Standing w context s) {submission : Submission}
    {out : Except PyErr (Option (ConnectionProof × Str))} {search : Search}
    (htry : tryCapture w options context submission s.search = (out, search)) :
    Standing w context { s.afterHarvest submission with search := search } where
  best := by
    have hbest := hs.best.tryCapture htry
    rw [← works_afterHarvest] at hbest
    exact hbest
  counted := by
    change s.attemptsCompleted + 1 = (s.afterHarvest submission).harvests.length
    rw [harvests_afterHarvest, List.length_append, hs.counted]
    rfl
  shown := hs.shown.concat _ fun _ h => nomatch h
  improving := by
    change (s.afterHarvest submission).reported.Pairwise NoWorse
    rw [reported_afterHarvest]
    exact hs.improving

/-- A started attempt changes neither. -/
theorem Standing.afterSubmit {s : State} (hs : Standing w context s) (endpoint : Tls13.Endpoint)
    (now nextStart : ℚ) : Standing w context (s.afterSubmit options endpoint now nextStart) where
  best := by
    change Best (worksOf w context (s.trace ++ [_])) s.search
    rw [worksOf_concat (by rfl)]
    exact hs.best
  counted := by
    rw [harvests_afterSubmit]
    exact hs.counted
  shown := hs.shown.concat _ fun _ h => nomatch h
  improving := by
    rw [reported_afterSubmit]
    exact hs.improving

/-- The display form shows one work only. -/
theorem internalHashToDisplay_inj {a b : Bytes} {display : Str}
    (ha : internalHashToDisplay a = .ok display) (hb : internalHashToDisplay b = .ok display) :
    a = b := by
  unfold internalHashToDisplay at ha hb
  simp only [bind_eq_ok_iff, failIf_eq_ok_iff, exists_const, pure_eq_ok_iff] at ha hb
  exact List.reverse_inj.mp (toHex_inj _ _ (ha.2.trans hb.2.symm))

/-- What a report shows is a work of an attempt that was looked at before it. -/
theorem Reports.mem {before : List Event} {report : GenerationProgress}
    (h : Reports w context before report) {work : Bytes} (hshows : Shows report work) :
    work ∈ worksOf w context before := by
  rcases h with ⟨-, search, hbest, hsame⟩
  rcases hshows with ⟨display, hdisplay, hhash⟩
  cases hbest with
  | none _ _ hnone => exact nomatch (hsame.trans hnone).symm.trans hhash
  | some best display' hmem _ _ hdisplay' hbest =>
      rw [← Option.some.inj ((hsame.trans hbest).symm.trans hhash)] at hdisplay
      rw [internalHashToDisplay_inj hdisplay hdisplay']
      exact hmem

/-- A report shows the best work so far, which is none of those shown before or
    is below them. -/
theorem Standing.afterReport {s : State} (hs : Standing w context s) (now : ℚ) :
    Standing w context (s.afterReport (s.progressAt now)) where
  best := by
    change Best (worksOf w context (s.trace ++ [_])) s.search
    rw [worksOf_concat (by rfl)]
    exact hs.best
  counted := by
    rw [harvests_afterReport]
    exact hs.counted
  shown := by
    refine hs.shown.concat _ fun report hreport => ?_
    rw [← Event.reported.inj hreport]
    exact ⟨hs.counted, s.search, hs.best, rfl⟩
  improving := by
    rw [reported_afterReport, List.pairwise_append]
    refine ⟨hs.improving, List.pairwise_singleton _ _, ?_⟩
    intro earlier hearlier later hlater work hwork
    rw [List.mem_singleton.mp hlater]
    -- What an earlier report shows is a work, so the best one is not above it.
    rcases List.mem_iff_getElem?.mp hearlier with ⟨k, hk⟩
    rcases exists_split hk with ⟨before, after, hsplit, -⟩
    have hmem : work ∈ s.works w context := by
      rw [State.works, hsplit]
      exact worksOf_subset _ _ ((hs.shown before earlier after hsplit).mem hwork)
    cases hs.best with
    | none hworks =>
        rw [hworks] at hmem
        exact absurd hmem (Set.notMem_empty work)
    | some best display _ hleast _ hdisplay hhash =>
        exact ⟨best, ⟨display, hdisplay, hhash⟩, hleast work hmem⟩

theorem standing_step {s s' : State} (hs : Standing w context s)
    (hmove : Move w options context endpoints s s') : Standing w context s' := by
  cases hmove with
  -- Neither works nor reports change.
  | opened | expired | usedUp | slept | quiet | waited => exact { hs with }
  | submitted endpoint => exact hs.afterSubmit endpoint _ _
  | overflowed endpoint =>
      have hsubmitted : Standing w context
          (s.afterSubmit options endpoint (w.clock s.ticks) s.nextStart) :=
        hs.afterSubmit endpoint _ _
      exact { hsubmitted with }
  | won submission rest candidate peerIp search hcontrol htry =>
      exact { hs.afterHarvest htry with }
  | lost submission rest search hcontrol htry => exact { hs.afterHarvest htry with }
  | failed submission rest e search hcontrol htry =>
      -- The failure is noted in `last_error`, which the best work does not depend on.
      have hharvest := hs.afterHarvest htry
      exact { hharvest with best := hharvest.best.of_eq rfl rfl }
  | escaped submission rest e search hcontrol htry => exact { hs.afterHarvest htry with }
  | reported control => exact { hs.afterReport (w.clock s.ticks) with }
  | ended => exact hs

theorem standing_start : Standing w context (start w) where
  best := Best.none (Set.eq_empty_of_forall_notMem fun _ ⟨_, h, _⟩ => nomatch h) rfl rfl
  counted := rfl
  shown := EachReport.nil
  improving := List.Pairwise.nil

end Accounts

section Sample

open Tls13 (sessionMessages sessionRecords attemptOn piecesOf)

/-- The sample context under a target that the session does not meet. -/
def hardContext : ConnectionProof :=
  ⟨vectorFields 0x00 [], admitted_vectorFields 0x00 [] (by decide)⟩

/-- The session's server, and a callback. -/
def reportingWorld (callback : Nat → GenerationProgress → Except PyErr Unit) :
    World Bytes Unit :=
  { sampleWorld (attemptOn (piecesOf sessionRecords)) with progress := some callback }

variable (callback : Nat → GenerationProgress → Except PyErr Unit)

/-- A step of the search that reports. -/
def reportingStep : State → State :=
  step (reportingWorld callback) sampleOptions hardContext [sampleEndpoint]

theorem capture_reportingWorld :
    capture (reportingWorld callback) hardContext sampleSubmission = .ok sessionMessages :=
  capture_sampleWorld

/-- The session's work is not zero. -/
theorem leNat_work_session {p : ParsedProof}
    (hp : parseProof sessionMessages.encodedProof vectorDomain vectorChallenge = .ok p) :
    leNat p.connectionWorkHash ≠ 0 := by
  have hwork : ((parseProof sessionMessages.encodedProof vectorDomain vectorChallenge).map
      fun p => leNat p.connectionWorkHash).toOption ≠ some 0 := by
    decide +kernel
  rw [hp] at hwork
  exact fun h => hwork (congrArg some h)

/-- The attempt comes to a capture that verifies but for the target. -/
theorem reportingWorld_captured : ∃ candidate p,
    Captured (reportingWorld callback) hardContext sampleSubmission sessionMessages candidate
      vectorChallenge p ∧
    Passes (reportingWorld callback) sampleOptions candidate p ∧
    ¬MeetsTarget p.connectionWorkHash candidate.connectionWorkTarget := by
  rcases Tls13.parseProof_session with ⟨p, hp, -⟩
  let candidate : ConnectionProof := ⟨vectorFields 0x00 sessionMessages.encodedProof,
    admitted_vectorFields 0x00 _ (by decide +kernel)⟩
  -- The verification asks the same of the session's candidate under the easiest target.
  have hchallenge : sampleCandidate.challenge
      (sampleWorld (attemptOn (piecesOf sessionRecords))).lowercase = .ok vectorChallenge :=
    challenge_vectorFields sampleCandidate.admitted
  have hsample : parseProof sampleCandidate.proof sampleCandidate.domain vectorChallenge = .ok p :=
    hp
  have hverified : Passes (sampleWorld (attemptOn (piecesOf sessionRecords))) sampleOptions
      sampleCandidate p ∧ MeetsTarget p.connectionWorkHash sampleCandidate.connectionWorkTarget :=
    (verifyCandidate_ok_iff hchallenge hsample).mp (verifyCandidate_sampleCandidate _)
  have hcaptured : Captured (reportingWorld callback) hardContext sampleSubmission sessionMessages
      candidate vectorChallenge p :=
    ⟨capture_reportingWorld callback, (replaceProof_eq_ok_iff _ _ _ _).mpr rfl,
      challenge_vectorFields _, hp⟩
  have hpasses : Passes (reportingWorld callback) sampleOptions candidate p := hverified.1
  refine ⟨candidate, p, hcaptured, hpasses, ?_⟩
  rintro ⟨target, -, htarget, hle⟩
  have hzero : List.replicate 32 0 = target.reverse := toHex_inj _ _ htarget
  rw [List.reverse_eq_iff.mp hzero.symm] at hle
  exact leNat_work_session hp (Nat.le_zero.mp hle)

/-- Whatever the search has done, if it has looked at the attempt there is one
    work. -/
theorem exists_reportingWork : ∃ work,
    Yields (reportingWorld callback) hardContext sampleSubmission work ∧
    ∀ events : List Event, events.filterMap Event.harvest = [sampleSubmission] →
      worksOf (reportingWorld callback) hardContext events = {work} := by
  rcases reportingWorld_captured callback with ⟨candidate, p, hcaptured, -⟩
  have hyields : ∀ work, Yields (reportingWorld callback) hardContext sampleSubmission work ↔
      work = p.connectionWorkHash := hcaptured.yields_iff
  refine ⟨p.connectionWorkHash, (hyields _).mpr rfl, fun events hevents => ?_⟩
  ext work
  simp only [worksOf, hevents, List.mem_singleton, exists_eq_left, Set.mem_ofPred_eq,
    Set.mem_singleton_iff, hyields]

/-- The fourth step looks at the attempt, and the fifth one reports, if the
    callback returns. -/
theorem reportingStep_trace (hcallback : ∀ report, callback 0 report = .ok ()) : ∃ report,
    ((reportingStep callback)^[5] (start (reportingWorld callback))).trace =
      [Event.started sampleSubmission 0, Event.harvested sampleSubmission] ++
        Event.reported report :: [] := by
  rcases reportingWorld_captured callback with ⟨candidate, p, hcaptured, hpasses, hmisses⟩
  rcases tryCapture_lost hcaptured hpasses hmisses
    ((reportingStep callback)^[3] (start (reportingWorld callback))).search with ⟨search, htry⟩
  have hfour : (reportingStep callback)^[4] (start (reportingWorld callback)) =
      { ((reportingStep callback)^[3] (start (reportingWorld callback))).afterHarvest
          sampleSubmission with
        search := search
        control := .harvesting [] } :=
    (Function.iterate_succ_apply' _ _ _).trans (step_harvesting_lost rfl htry)
  have hfive : (reportingStep callback)^[5] (start (reportingWorld callback)) =
      { ((reportingStep callback)^[4] (start (reportingWorld callback))).afterReport
          (((reportingStep callback)^[4] (start (reportingWorld callback))).progressAt 0) with
        control := .outer } := by
    refine (Function.iterate_succ_apply' _ _ _).trans (step_reports ?_ rfl ?_ ?_)
    · rw [hfour]
    · rw [hfour]
      exact Nat.succ_ne_zero _
    · rw [hfour]
      exact hcallback _
  refine ⟨((reportingStep callback)^[4] (start (reportingWorld callback))).progressAt 0, ?_⟩
  rw [hfive]
  change ((reportingStep callback)^[4] (start (reportingWorld callback))).trace ++ _ = _
  rw [hfour]
  rfl

end Sample

end P2CTools
