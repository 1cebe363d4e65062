import P2CTools.Theory.Search
import P2CTools.Wire.Firsts
import P2CTools.Wire.Rotation

/-!
# The Destinations of a Search

Where a search connects to.

The resolver may answer anything. Of its answer the search keeps the addresses
that are permitted, each family and address once, in the order in which they
came first. That is done once, before the first attempt.

From then on the search only counts. The index of the next endpoint is
increased where an attempt is started, and nowhere else, so that it is the
number of the attempts so far. What becomes of them has no part in it. The
endpoints are therefore taken in turn, and an attempt connects to no other
address than that of its endpoint.

## Main definitions

* `AddressInfo.permitted`: An address may be connected to.
* `AddressInfo.identity`, `AddressInfo.endpoint`: What makes an address the same
  as another, and the endpoint it becomes.
* `destinations`: The addresses that are kept of the resolver's answer.
* `Turning`: The endpoints of the attempts so far are taken in turn.

## Theorems

* `foldl_resolveStep`: The loop over the resolver's answer.
* `resolveEndpoints_eq_ok_iff`: The endpoints of a search.
* `capture_connects_only`: An attempt connects to its endpoint only.
* `turning_step`: What one move preserves.
* `search_rotates`: The whole run.
-/

namespace P2CTools

open Wire
open Tls13 (Endpoint Attempt)

section Resolve

variable (isGlobal : Str → Option Bool) (allowPrivate : Bool)

/-- The text is that of an address, which is global unless others are allowed. -/
def AddressInfo.permitted (address : AddressInfo) : Bool :=
  (isGlobal (ipText address.host)).any fun global => allowPrivate || global

/-- What addresses are compared by. -/
def AddressInfo.identity (address : AddressInfo) : Int × Str :=
  (address.family, address.text)

/-- The endpoint that an address becomes. -/
def AddressInfo.endpoint (address : AddressInfo) : Endpoint :=
  ⟨address.family, address.socketType, address.protocol, address.text, ipText address.host⟩

/-- The permitted addresses, each where it comes first. -/
def destinations (found : List AddressInfo) : List AddressInfo :=
  firsts AddressInfo.identity (found.filter fun address => address.permitted isGlobal allowPrivate)

variable {isGlobal allowPrivate}

theorem resolveStep_rejected {address : AddressInfo}
    (h : ¬address.permitted isGlobal allowPrivate = true) (s : ResolveState) :
    resolveStep isGlobal allowPrivate s address =
      { s with rejected := s.rejected ++ [ipText address.host] } := by
  unfold AddressInfo.permitted at h
  unfold resolveStep
  cases hglobal : isGlobal (ipText address.host) with
  | none => rfl
  | some global =>
      rw [hglobal, Option.any_some, Bool.or_eq_true, not_or] at h
      exact if_pos h

theorem resolveStep_permitted {address : AddressInfo}
    (h : address.permitted isGlobal allowPrivate = true) (s : ResolveState) :
    resolveStep isGlobal allowPrivate s address =
      if address.identity ∈ s.seen then s
      else { s with
        seen := s.seen ++ [address.identity]
        result := s.result ++ [address.endpoint] } := by
  unfold AddressInfo.permitted at h
  unfold resolveStep
  cases hglobal : isGlobal (ipText address.host) with
  | none =>
      rw [hglobal] at h
      exact nomatch h
  | some global =>
      rw [hglobal, Option.any_some, Bool.or_eq_true] at h
      exact if_neg fun hneither => h.elim hneither.1 hneither.2

/-- One more address is kept if it is permitted and has not been seen. -/
theorem destinations_concat (found : List AddressInfo) (address : AddressInfo) :
    destinations isGlobal allowPrivate (found ++ [address]) =
      if address.permitted isGlobal allowPrivate = true ∧
        address.identity ∉ (destinations isGlobal allowPrivate found).map AddressInfo.identity
      then destinations isGlobal allowPrivate found ++ [address]
      else destinations isGlobal allowPrivate found := by
  unfold destinations
  rw [List.filter_append]
  by_cases hpermitted : address.permitted isGlobal allowPrivate = true
  · rw [List.filter_cons_of_pos hpermitted, List.filter_nil, firsts_concat]
    by_cases hseen : address.identity ∈ (found.filter fun address =>
        address.permitted isGlobal allowPrivate).map AddressInfo.identity
    · have hkept := (mem_map_firsts AddressInfo.identity).mpr hseen
      rw [if_pos hseen, if_neg fun h => h.2 hkept]
    · have hnew := mt (mem_map_firsts AddressInfo.identity).mp hseen
      rw [if_neg hseen, if_pos ⟨hpermitted, hnew⟩]
  · rw [List.filter_cons_of_neg hpermitted, List.filter_nil, List.append_nil,
      if_neg fun h => hpermitted h.1]

/-- The variables of the loop over the resolver's answer, when it ends. -/
theorem foldl_resolveStep (found : List AddressInfo) :
    found.foldl (resolveStep isGlobal allowPrivate) ⟨[], [], []⟩ =
      ⟨(destinations isGlobal allowPrivate found).map AddressInfo.endpoint,
        (destinations isGlobal allowPrivate found).map AddressInfo.identity,
        (found.filter fun address => !address.permitted isGlobal allowPrivate).map fun address =>
          ipText address.host⟩ := by
  induction found using List.reverseRecOn with
  | nil => rfl
  -- The last address is added to an answer that is already resolved.
  | append_singleton found address ih =>
      rw [List.foldl_append, List.foldl_cons, List.foldl_nil, ih, destinations_concat,
        List.filter_append]
      by_cases hpermitted : address.permitted isGlobal allowPrivate = true
      · have hnone : [address].filter (fun address => !address.permitted isGlobal allowPrivate) =
            [] :=
          List.filter_cons_of_neg (by rw [hpermitted]; decide)
        rw [resolveStep_permitted hpermitted, hnone, List.append_nil]
        -- Permitted: it becomes an endpoint unless its identity is among the kept ones.
        by_cases hseen : address.identity ∈
            (destinations isGlobal allowPrivate found).map AddressInfo.identity
        · rw [if_pos hseen, if_neg fun h => h.2 hseen]
        · rw [if_neg hseen, if_pos ⟨hpermitted, hseen⟩, List.map_append, List.map_append]
          rfl
      -- Rejected: only its text is kept, for the error.
      · have hone : [address].filter (fun address => !address.permitted isGlobal allowPrivate) =
            [address] :=
          List.filter_cons_of_pos (by rw [Bool.eq_false_of_not_eq_true hpermitted]; decide)
        rw [resolveStep_rejected hpermitted, hone, if_neg fun h => hpermitted h.1, List.map_append]
        rfl

/-- The endpoints are the destinations, of which there has to be one. -/
theorem resolveEndpoints_eq_ok_iff (addresses : Except PyErr (List AddressInfo)) (domain : Str)
    (endpoints : List Endpoint) :
    resolveEndpoints isGlobal addresses domain allowPrivate = .ok endpoints ↔
      ∃ found, addresses = .ok found ∧
        (∃ address ∈ found, address.permitted isGlobal allowPrivate = true) ∧
        endpoints = (destinations isGlobal allowPrivate found).map AddressInfo.endpoint := by
  unfold resolveEndpoints
  simp only [bind_eq_ok_iff, failIf_eq_ok_iff, exists_const, handle_error_eq_ok_iff,
    pure_eq_ok_iff, foldl_resolveStep]
  -- The check of the code is on the endpoints; there is one when an address is permitted.
  have hnone : ∀ found, (destinations isGlobal allowPrivate found).map AddressInfo.endpoint ≠ [] ↔
      ∃ address ∈ found, address.permitted isGlobal allowPrivate = true := by
    intro found
    unfold destinations
    rw [Ne, List.map_eq_nil_iff, firsts_eq_nil_iff, List.filter_eq_nil_iff]
    simp only [not_forall, not_not, exists_prop]
  constructor
  · rintro ⟨found, hfound, hne, rfl⟩
    exact ⟨found, hfound, (hnone found).mp hne, rfl⟩
  · rintro ⟨found, hfound, hsome, rfl⟩
    exact ⟨found, hfound, (hnone found).mpr hsome, rfl⟩

/-- The resolution fails exactly when nothing of the answer is permitted. -/
theorem resolveEndpoints_fails_iff (found : List AddressInfo) (domain : Str) :
    (∃ e, e.cls = .generationError ∧
      resolveEndpoints isGlobal (.ok found) domain allowPrivate = .error e) ↔
      ∀ address ∈ found, ¬address.permitted isGlobal allowPrivate = true := by
  constructor
  -- One permitted address would have been enough.
  · rintro ⟨e, -, he⟩ address hmem hpermitted
    have hok := (resolveEndpoints_eq_ok_iff (.ok found) domain _).mpr
      ⟨found, rfl, ⟨address, hmem, hpermitted⟩, rfl⟩
    exact nomatch he.symm.trans hok
  -- Then the loop has left no endpoint, and the check after it fails.
  · intro hnone
    have hempty : destinations isGlobal allowPrivate found = [] :=
      (firsts_eq_nil_iff _).mpr (List.filter_eq_nil_iff.mpr hnone)
    have hresult : (found.foldl (resolveStep isGlobal allowPrivate) ⟨[], [], []⟩).result = [] := by
      rw [foldl_resolveStep, hempty, List.map_nil]
    unfold resolveEndpoints
    exact ⟨_, And.symm ⟨(bind_eq_error_iff _ _ _).mpr (Or.inr ⟨found, rfl,
      (bind_eq_error_iff _ _ _).mpr (Or.inl (if_pos hresult))⟩), rfl⟩⟩

end Resolve

section Connection

variable {Cert Key : Type} (w : World Cert Key) (context : ConnectionProof)

/-- What becomes of an attempt does not depend on what a connection to another
    address than that of its endpoint would come to. -/
theorem capture_connects_only (submission : Submission) (connect : Str → Except PyErr Unit)
    (h : connect submission.endpoint.address =
      (w.attempt submission.number).connect submission.endpoint.address) :
    capture { w with attempt := fun number => { w.attempt number with connect := connect } }
      context submission = capture w context submission := by
  unfold capture Tls13.captureTls13Proof Tls13.captureProgram Tls13.connectAndSend
    Tls13.Attempt.connectTo Tls13.Attempt.send
  dsimp only
  rw [h]

end Connection

section Turns

/-- The endpoints of the attempts so far. -/
def State.targets (s : State) : List Endpoint :=
  s.starts.map fun start => start.1.endpoint

/-- The endpoints of the attempts so far are taken in turn, and the attempts
    are numbered from one. -/
structure Turning (endpoints : List Endpoint) (s : State) : Prop where
  next : s.nextEndpoint = s.starts.length
  started : s.attemptsStarted = s.starts.length
  inTurn : InTurn endpoints s.targets
  numbered : ∀ k submission now, s.starts[k]? = some (submission, now) →
    submission.number = k + 1

variable {Cert Key : Type} {w : World Cert Key} {options : GenerationOptions}
  {context : ConnectionProof} {endpoints : List Endpoint}

/-- What starts no attempt changes no turn. -/
theorem Turning.of_eq {s s' : State} (hs : Turning endpoints s)
    (hnext : s'.nextEndpoint = s.nextEndpoint) (hstarted : s'.attemptsStarted = s.attemptsStarted)
    (hstarts : s'.starts = s.starts) : Turning endpoints s' where
  next := by rw [hnext, hstarts, hs.next]
  started := by rw [hstarted, hstarts, hs.started]
  inTurn := by
    unfold State.targets
    rw [hstarts]
    exact hs.inTurn
  numbered := by
    rw [hstarts]
    exact hs.numbered

/-- An attempt is started on the endpoint whose turn it is. -/
theorem Turning.afterSubmit {s : State} (hs : Turning endpoints s) {endpoint : Endpoint}
    (now nextStart : ℚ)
    (hendpoint : endpoints[s.nextEndpoint % endpoints.length]? = some endpoint) :
    Turning endpoints (s.afterSubmit options endpoint now nextStart) := by
  have hlength : (s.afterSubmit options endpoint now nextStart).starts.length =
      s.starts.length + 1 := by
    rw [starts_afterSubmit, List.length_append, List.length_singleton]
  have htargets : (s.afterSubmit options endpoint now nextStart).targets =
      s.targets ++ [endpoint] := by
    unfold State.targets
    rw [starts_afterSubmit, List.map_append]
    rfl
  refine ⟨?_, ?_, ?_, ?_⟩
  · rw [hlength, ← hs.next]
    rfl
  · rw [hlength, ← hs.started]
    rfl
  -- The index taken modulo the endpoints counts the attempts so far.
  · rw [htargets]
    refine hs.inTurn.concat ?_
    rw [State.targets, List.length_map, ← hs.next]
    exact hendpoint
  · intro k submission now' hk
    rw [starts_afterSubmit] at hk
    by_cases hlt : k < s.starts.length
    · rw [List.getElem?_append_left hlt] at hk
      exact hs.numbered k submission now' hk
    · -- The new attempt is the last one.
      rcases List.getElem?_eq_some_iff.mp hk with ⟨hle, -⟩
      rw [List.length_append, List.length_singleton] at hle
      obtain rfl : k = s.starts.length := by omega
      rw [List.getElem?_concat_length] at hk
      rcases Prod.mk.inj (Option.some.inj hk) with ⟨rfl, -⟩
      rw [← hs.started]
      rfl

theorem turning_step {s s' : State} (hs : Turning endpoints s)
    (hmove : Move w options context endpoints s s') : Turning endpoints s' := by
  cases hmove with
  | opened | expired | usedUp | slept | waited | quiet | ended => exact hs.of_eq rfl rfl rfl
  | submitted endpoint hcontrol hready hendpoint => exact hs.afterSubmit _ _ hendpoint
  | overflowed endpoint hcontrol hready hendpoint =>
      have hsubmitted : Turning endpoints
          (s.afterSubmit options endpoint (w.clock s.ticks) s.nextStart) :=
        hs.afterSubmit _ _ hendpoint
      exact hsubmitted.of_eq rfl rfl rfl
  | won submission | lost submission | failed submission | escaped submission =>
      exact hs.of_eq rfl rfl (starts_afterHarvest (s := s) submission)
  | reported control =>
      exact hs.of_eq rfl rfl (starts_afterReport (s := s) (s.progressAt (w.clock s.ticks)))

theorem turning_start (endpoints : List Endpoint) : Turning endpoints (start w) where
  next := rfl
  started := rfl
  inTurn := InTurn.nil endpoints
  numbered _ _ _ h := nomatch h

/-- No endpoint occurs twice among those of a search. -/
theorem nodup_destinations (isGlobal : Str → Option Bool) (allowPrivate : Bool)
    (found : List AddressInfo) :
    ((destinations isGlobal allowPrivate found).map AddressInfo.endpoint).Nodup := by
  refine List.Nodup.of_map (fun endpoint => (endpoint.family, endpoint.address)) ?_
  rw [List.map_map]
  exact nodup_map_firsts AddressInfo.identity _

end Turns

/-- The endpoints of a search are the permitted addresses of the resolver's
    answer, each where it comes first, and the search fails if there are none.
    The attempts of a run are numbered from one and take the endpoints in turn,
    and each connects to its endpoint only. So after any number of attempts no
    endpoint has had more than one attempt more than another. -/
theorem search_rotates {Cert Key : Type} (w : World Cert Key) (options : GenerationOptions)
    (context : ConnectionProof) :
    (∀ (found : List AddressInfo) (domain : Str) (allowPrivate : Bool),
      (∀ endpoints, resolveEndpoints w.isGlobal (.ok found) domain allowPrivate = .ok endpoints ↔
        (∃ address ∈ found, address.permitted w.isGlobal allowPrivate = true) ∧
          endpoints = (destinations w.isGlobal allowPrivate found).map AddressInfo.endpoint) ∧
      ((∃ e, e.cls = .generationError ∧
        resolveEndpoints w.isGlobal (.ok found) domain allowPrivate = .error e) ↔
        ∀ address ∈ found, ¬address.permitted w.isGlobal allowPrivate = true) ∧
      (destinations w.isGlobal allowPrivate found).Sublist
        (found.filter fun address => address.permitted w.isGlobal allowPrivate) ∧
      ((destinations w.isGlobal allowPrivate found).map AddressInfo.identity).Nodup ∧
      ∀ address, address ∈ destinations w.isGlobal allowPrivate found ↔ ∃ before after,
        found.filter (fun address => address.permitted w.isGlobal allowPrivate) =
          before ++ address :: after ∧
        address.identity ∉ before.map AddressInfo.identity) ∧
    ∀ endpoints, prepare w options context = .ok endpoints →
      (∃ found, w.addresses = .ok found ∧ endpoints = (destinations w.isGlobal
        options.allowPrivateAddresses found).map AddressInfo.endpoint) ∧
      ∀ s, Run (Following (step w options context endpoints)) (start w) s →
        (∀ k submission now, s.starts[k]? = some (submission, now) →
          submission.number = k + 1 ∧ endpoints[k % endpoints.length]? = some submission.endpoint ∧
          ∀ connect : Str → Except PyErr Unit,
            connect submission.endpoint.address =
              (w.attempt submission.number).connect submission.endpoint.address →
            capture { w with
              attempt := fun number => { w.attempt number with connect := connect } }
              context submission = capture w context submission) ∧
        ∀ x ∈ endpoints, ∀ y ∈ endpoints, s.targets.count x ≤ s.targets.count y + 1 := by
  constructor
  · intro found domain allowPrivate
    refine ⟨fun endpoints => ?_, resolveEndpoints_fails_iff found domain, firsts_sublist _ _,
      nodup_map_firsts _ _, fun address => mem_firsts_iff _⟩
    rw [resolveEndpoints_eq_ok_iff]
    constructor
    · rintro ⟨_, hfound, hsome, rfl⟩
      obtain rfl := Except.ok.inj hfound
      exact ⟨hsome, rfl⟩
    · rintro ⟨hsome, rfl⟩
      exact ⟨found, rfl, hsome, rfl⟩
  · intro endpoints hprepare
    have hne := endpoints_ne_nil hprepare
    -- What `prepare` returns is what it resolved.
    have hresolve : resolveEndpoints w.isGlobal w.addresses context.domain
        options.allowPrivateAddresses = .ok endpoints := by
      unfold prepare at hprepare
      simp only [bind_eq_ok_iff] at hprepare
      rcases hprepare with ⟨_, -, _, -, _, -, _, -, _, -, _, -, hresolve⟩
      exact hresolve
    rcases (resolveEndpoints_eq_ok_iff _ _ _).mp hresolve with ⟨found, hfound, -, rfl⟩
    refine ⟨⟨found, hfound, rfl⟩, fun s hrun => ?_⟩
    have hturning : Turning _ s :=
      hrun.invariant (fun t t' ht hstep => by
        rw [hstep]
        exact turning_step ht (step_move hne t)) (turning_start _)
    refine ⟨fun k submission now hk => ⟨hturning.numbered k submission now hk, ?_,
      fun connect h => capture_connects_only w context submission connect h⟩, ?_⟩
    · refine hturning.inTurn k submission.endpoint ?_
      rw [State.targets, List.getElem?_map, hk, Option.map_some]
    · intro x hx y hy
      exact hturning.inTurn.count_le_succ (nodup_destinations _ _ found) hx hy

/-! ### A search over two addresses -/

section Sample

open Tls13 (attemptOn)

/-- A world whose resolver names the first of two addresses twice. -/
def pairWorld : World Bytes Unit :=
  { sampleWorld (attemptOn []) with
    addresses := .ok [
      ⟨2, 1, 6, Str.ofString "192.0.2.1", Str.ofString "('192.0.2.1', 443)"⟩,
      ⟨2, 1, 6, Str.ofString "192.0.2.1", Str.ofString "('192.0.2.1', 443)"⟩,
      ⟨2, 1, 6, Str.ofString "192.0.2.2", Str.ofString "('192.0.2.2', 443)"⟩] }

/-- Options for three attempts at a time, without a pause. -/
def pairOptions : GenerationOptions :=
  { sampleOptions with connectionsPerSecond := -1, concurrency := 3, maxAttempts := 3 }

/-- Another endpoint beside that of the sample. -/
def otherEndpoint : Endpoint where
  family := 2
  socketType := 1
  protocol := 6
  address := Str.ofString "('192.0.2.2', 443)"
  ip := Str.ofString "192.0.2.2"

/-- The preparation depends on the resolver in its last step only. -/
theorem prepare_pairWorld :
    prepare pairWorld pairOptions sampleContext = .ok [sampleEndpoint, otherEndpoint] := by
  have hresolve : resolveEndpoints pairWorld.isGlobal pairWorld.addresses sampleContext.domain
      true = .ok [sampleEndpoint, otherEndpoint] := by
    decide +kernel
  have hsame : validateOptions pairOptions = validateOptions sampleOptions := by decide +kernel
  have hsample := prepare_sampleWorld (attemptOn [])
  unfold prepare at hsample ⊢
  rw [hsame]
  simp only [bind_eq_ok_iff] at hsample ⊢
  rcases hsample with ⟨_, h₁, _, h₂, _, h₃, _, h₄, _, h₅, _, h₆, -⟩
  exact ⟨_, h₁, _, h₂, _, h₃, _, h₄, _, h₅, _, h₆, hresolve⟩

/-- The third attempt is on the first of two addresses again. -/
theorem pairWorld_rotates :
    ∃ submission : Submission, ∃ now, ((step pairWorld pairOptions sampleContext
        [sampleEndpoint, otherEndpoint])^[4] (start pairWorld)).starts[2]? =
          some (submission, now) ∧
      submission.number = 3 ∧ submission.endpoint = sampleEndpoint := by
  have hthird : (((step pairWorld pairOptions sampleContext
      [sampleEndpoint, otherEndpoint])^[4] (start pairWorld)).starts[2]?).isSome = true := by
    decide +kernel
  rcases Option.isSome_iff_exists.mp hthird with ⟨⟨submission, now⟩, hstart⟩
  have hrun := ((search_rotates pairWorld pairOptions sampleContext).2 _ prepare_pairWorld).2 _
    (run_iterate _ _ 4)
  rcases hrun.1 2 submission now hstart with ⟨hnumber, hendpoint, -⟩
  exact ⟨submission, now, hstart, hnumber, (Option.some.inj hendpoint).symm⟩

end Sample

end P2CTools
