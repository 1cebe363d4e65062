import P2CTools.Source.Tls13

/-!
# The Generator

The search for a proof, from `generator.py`.

`generate_connection_proof` runs attempts in a thread pool and looks at them
as they complete. Here it is a machine. Its state holds the function's local
variables and a place in its loops: the head of the outer loop, the head of the
loop that starts attempts, or the head of the loop over the completed ones.
`step` goes from one place to the next, and a run of the function is `step`
iterated. What an attempt comes to is fixed by what it was given and what it
draws from outside, so it is computed when it is looked at.

Everything from outside is a `World`: the libraries, the root file, the
resolver's answer, the clock by its readings, what each attempt draws, and
which attempts each wait finds completed. So to speak about all worlds is to
speak about every order and timing of completions. `trace` records what the
function does outward. Times are rationals, and sleeping lets time pass and
does nothing else. The one conversion to a float that can fail is that of the
rate, and `interval` says when it does.

The machine is the body of the outer `try` statement. Behind it comes the
`finally` clause, which cancels what has not begun and waits for the rest, so
the function may end long after its loops. `Generation` is the whole of it.

The body of the inner `try` statement assigns to variables before it may raise,
and what it assigned stays assigned. A `SearchM` program returns its variables
with its result or its exception.

## Main definitions

* `GenerationOptions`, `validateOptions`: The limits of a search.
* `resolveEndpoints`: The addresses to try.
* `prepare`: Everything before the first attempt.
* `tryCapture`: What is done with a completed attempt, inside the `try`.
* `State`, `step`: The machine.
* `Generation`, `generationStep`: The machine with its `finally` clause.
-/

namespace P2CTools

open Wire Protocol
open Tls13 (Endpoint TlsProofMessages captureTls13Proof)

section Options

/-- What the caller of a search decides, with the defaults. -/
structure GenerationOptions where
  port : Int := 443
  connectionsPerSecond : Int := 1
  concurrency : Int := 1
  connectionTimeout : ℚ := 10
  overallTimeout : ℚ := 0
  maxAttempts : Int := 0
  allowPrivateAddresses : Bool := false
  enforceRootPin : Bool := true

/-- What a progress report says. -/
structure GenerationProgress where
  attempts : Nat
  elapsed : ℚ
  attemptsPerSecond : ℚ
  bestWorkHash : Option Str
  lastError : Option String
  deriving DecidableEq

/-- What a search returns. -/
structure GenerationResult where
  envelope : ConnectionProof
  attempts : Nat
  elapsed : ℚ
  peerIp : Str
  deriving DecidableEq

/-- The largest number of attempts at a time. -/
abbrev maxConcurrency : Int := 256

/-- The checks on the options, in their order. A rational is always finite, so
    of the checks on seconds their signs are left. -/
def validateOptions (options : GenerationOptions) : Except PyErr Unit := do
  failIf (¬ (1 ≤ options.port ∧ options.port ≤ 65535))
    (generationError "port must be between 1 and 65535")
  failIf (options.connectionsPerSecond < -1)
    (generationError "connections_per_second must be -1, 0, or a positive integer")
  failIf (options.connectionsPerSecond = 0)
    (generationError "TLS proof generation is disabled by connections_per_second=0")
  failIf (¬ (1 ≤ options.concurrency ∧ options.concurrency ≤ maxConcurrency))
    (generationError "concurrency must be between 1 and 256")
  failIf (options.connectionTimeout ≤ 0)
    (generationError "connection_timeout must be finite and positive")
  failIf (options.overallTimeout < 0)
    (generationError "overall_timeout must be finite and non-negative")
  failIf (options.maxAttempts < 0) (generationError "max_attempts must not be negative")

end Options

section Resolve

/-- An entry of `getaddrinfo`: the family, type and protocol, the first item of
    the socket address as text, and the whole socket address as text. -/
structure AddressInfo where
  family : Int
  socketType : Int
  protocol : Int
  host : Str
  text : Str

/-- `host.split("%", maxsplit=1)[0]`. -/
def ipText (host : Str) : Str :=
  host.takeWhile fun c => c.val ≠ 37

/-- The variables of the loop of `resolve_endpoints`. -/
structure ResolveState where
  result : List Endpoint
  seen : List (Int × Str)
  rejected : List Str

variable (isGlobal : Str → Option Bool)

/-- The body of that loop. `isGlobal` is `ipaddress.ip_address(..).is_global`,
    where the text is an address. -/
def resolveStep (allowPrivate : Bool) (s : ResolveState) (address : AddressInfo) : ResolveState :=
  match isGlobal (ipText address.host) with
  | none => { s with rejected := s.rejected ++ [ipText address.host] }
  | some global =>
      if ¬allowPrivate ∧ ¬global then { s with rejected := s.rejected ++ [ipText address.host] }
      else if (address.family, address.text) ∈ s.seen then s
      else { s with
        seen := s.seen ++ [(address.family, address.text)]
        result := s.result ++ [⟨address.family, address.socketType, address.protocol, address.text,
          ipText address.host⟩] }

/-- The endpoints to connect to: the permitted addresses of the resolver's
    answer, each once. -/
def resolveEndpoints (addresses : Except PyErr (List AddressInfo)) (domain : Str)
    (allowPrivate : Bool) : Except PyErr (List Endpoint) := do
  let found ← handle [.gaierror]
    (fun e => .error (generationError
      ("DNS resolution failed for " ++ domain.display ++ ": " ++ e.msg))) addresses
  let s := found.foldl (resolveStep isGlobal allowPrivate) ⟨[], [], []⟩
  failIf (s.result = []) (generationError ("domain resolved to no permitted TCP addresses" ++
    if s.rejected = [] then "" else "; rejected addresses: " ++ joinSorted s.rejected.dedup))
  return s.result

end Resolve

/-- What an attempt is started with. -/
structure Submission where
  number : Nat
  endpoint : Endpoint
  timeout : ℚ
  deriving DecidableEq

/-- What the function draws from outside. -/
structure World (Cert Key : Type) where
  x509 : X509 Cert Key
  aead : Tls13.Aead
  lowercase : Lowercase
  /-- Reading the root file. -/
  rootFile : Except PyErr Bytes
  /-- What `getaddrinfo` answers. -/
  addresses : Except PyErr (List AddressInfo)
  isGlobal : Str → Option Bool
  /-- The readings of `time.monotonic`, by number. -/
  clock : Nat → ℚ
  /-- What the attempts draw, by number. -/
  attempt : Nat → Tls13.Attempt
  /-- The attempts that are done when a wait ends, by the wait's number and its
      timeout, in the order in which they are looked at. -/
  finished : Nat → ℚ → List Nat
  /-- Whether `future.cancel()` comes before an attempt has begun, by its
      number. -/
  cancels : Nat → Bool
  /-- The attempts whose threads are found at their end while the pool is shut
      down, by the number of the look. -/
  stopped : Nat → List Nat
  /-- The callback, by the number of the call. -/
  progress : Option (Nat → GenerationProgress → Except PyErr Unit)

section Search

/-- The variables that the body of the `try` statement assigns. -/
structure Search where
  bestValue : Option Nat
  bestHash : Option Str
  lastError : Option String
  preflightComplete : Bool
  deriving DecidableEq

/-- A program whose assignments outlive its exceptions. -/
abbrev SearchM := ExceptT PyErr (StateM Search)

/-- A computation that assigns nothing. -/
def SearchM.lift {α : Type} (r : Except PyErr α) : SearchM α :=
  fun s => (r, s)

/-- The update of the best work. -/
def noteWork (workHash : Bytes) : SearchM Unit := fun s =>
  if ∀ best ∈ s.bestValue, leNat workHash < best then
    match internalHashToDisplay workHash with
    | .ok display =>
        (.ok (), { s with bestValue := some (leNat workHash), bestHash := some display })
    | .error e => (.error e, { s with bestValue := some (leNat workHash) })
  else (.ok (), s)

variable {Cert Key : Type} (w : World Cert Key) (options : GenerationOptions)
  (context : ConnectionProof)

/-- `_capture`. -/
def capture (submission : Submission) : Except PyErr TlsProofMessages := do
  let challenge ← context.challenge w.lowercase
  captureTls13Proof w.x509 w.aead submission.endpoint context.domain challenge
    context.signatureAlgorithmsMask submission.timeout (w.attempt submission.number)

/-- The full verification of a candidate. -/
def verifyCandidate (candidate : ConnectionProof) : Except PyErr VerificationResult :=
  verifyConnectionProof w.x509 w.lowercase w.rootFile options.enforceRootPin candidate

/-- `"f" * 64`. -/
def easiestTarget : Str :=
  List.replicate 64 102

/-- The verification of the first candidate, under the easiest target. The
    result says whether it was done now. -/
def preflight (candidate : ConnectionProof) : SearchM Bool := fun s =>
  if s.preflightComplete then (.ok false, s)
  else
    match candidate.replaceTarget w.lowercase easiestTarget >>= verifyCandidate w options with
    | .ok _ => (.ok true, { s with preflightComplete := true })
    | .error e => (.error e, s)

/-- `last_error = None`. -/
def clearError : SearchM Unit :=
  fun s => (.ok (), { s with lastError := none })

/-- The body of the `try` statement: a candidate that is to be returned, with
    its peer's address. -/
def tryCapture (submission : Submission) : SearchM (Option (ConnectionProof × Str)) := do
  let captured ← SearchM.lift (capture w context submission)
  let candidate ← SearchM.lift (context.replaceProof w.lowercase captured.encodedProof)
  let challenge ← SearchM.lift (candidate.challenge w.lowercase)
  let parsed ← SearchM.lift (parseProof candidate.proof candidate.domain challenge)
  noteWork parsed.connectionWorkHash
  let candidateVerified ← preflight w options candidate
  let meets ← SearchM.lift
    (meetsWorkTarget w.lowercase parsed.connectionWorkHash candidate.connectionWorkTarget)
  if meets then do
    if candidateVerified then return some (candidate, captured.peerIp)
    else do
      let _ ← SearchM.lift (verifyCandidate w options candidate)
      return some (candidate, captured.peerIp)
  else do
    clearError
    return none

end Search

/-- Where the function is. -/
inductive Control
  /-- The head of the outer loop. -/
  | outer
  /-- The head of the loop that starts attempts. -/
  | starting
  /-- The head of the loop over the completed attempts, with those to come. -/
  | harvesting (done : List Submission)
  | returned (result : GenerationResult)
  | raised (e : PyErr)

/-- What the function does outward. -/
inductive Event
  /-- An attempt is started, at a reading of the clock. -/
  | started (submission : Submission) (now : ℚ)
  | harvested (submission : Submission)
  | reported (progress : GenerationProgress)

/-- The function's variables, and how much it has drawn from outside. -/
structure State where
  control : Control
  ticks : Nat
  waits : Nat
  reports : Nat
  startedAt : ℚ
  nextStart : ℚ
  attemptsStarted : Nat
  attemptsCompleted : Nat
  nextEndpoint : Nat
  search : Search
  pending : List Submission
  trace : List Event

section Machine

variable {Cert Key : Type} (w : World Cert Key) (options : GenerationOptions)
  (context : ConnectionProof) (endpoints : List Endpoint)

/-- Everything before the first attempt. -/
def prepare : Except PyErr (List Endpoint) := do
  validateOptions options
  let _ ← validateSignatureAlgorithmsMask (.int context.signatureAlgorithmsMask)
  failIf (context.version ≠ 2)
    (generationError "only connection proof envelope version 2 is supported")
  failIf (context.proof ≠ []) (generationError "generation context must have an empty proof field")
  let _ ← handle [.osError, .overflowError, .valueError]
    (fun _ => .error (generationError "validation_time cannot be represented"))
    (fromTimestamp context.validationTime)
  validateRootBundle w.x509 w.rootFile context.rootCertificatesVersion options.enforceRootPin
  resolveEndpoints w.isGlobal w.addresses context.domain options.allowPrivateAddresses

/-- The variables as they are initialised. -/
def start : State where
  control := .outer
  ticks := 1
  waits := 0
  reports := 0
  startedAt := w.clock 0
  nextStart := w.clock 0
  attemptsStarted := 0
  attemptsCompleted := 0
  nextEndpoint := 0
  search := ⟨none, none, none, false⟩
  pending := []
  trace := []

/-- All attempts that may be started have been. -/
def State.exhausted (s : State) : Prop :=
  options.maxAttempts ≠ 0 ∧ options.maxAttempts ≤ s.attemptsStarted

instance (s : State) : Decidable (s.exhausted options) :=
  inferInstanceAs (Decidable (options.maxAttempts ≠ 0 ∧ options.maxAttempts ≤ s.attemptsStarted))

/-- The error when the overall timeout is over. -/
def timedOut (s : State) : PyErr :=
  generationError ("generation timed out after " ++ toString s.attemptsCompleted ++
    " completed attempts")

/-- The error when all attempts are used up. -/
def noneMet (s : State) : PyErr :=
  generationError ("no proof met the target in " ++ toString s.attemptsCompleted ++ " attempts" ++
    match s.search.lastError with
    | none => ""
    | some text => if text = "" then "" else "; last error: " ++ text)

/-- The two tests at the head of the outer loop. -/
def outerStep (s : State) : State :=
  let now := w.clock s.ticks
  let s := { s with ticks := s.ticks + 1 }
  if options.overallTimeout ≠ 0 ∧ options.overallTimeout ≤ now - s.startedAt then
    { s with control := .raised (timedOut s) }
  else if s.exhausted options ∧ s.pending = [] then { s with control := .raised (noneMet s) }
  else { s with control := .starting }

/-- The least integer that is too large for a float, `2^1024 - 2^970`: it is
    rounded to `2^1024`. -/
def floatLimit : Nat :=
  (2 ^ 54 - 1) * (2 ^ 194) ^ 5

/-- `1.0 / options.connections_per_second`. The integer is converted first. -/
def interval : Except PyErr ℚ := do
  failIf (floatLimit ≤ options.connectionsPerSecond)
    ⟨.overflowError, "int too large to convert to float"⟩
  return 1 / options.connectionsPerSecond

/-- The timeout of an attempt that is started now: that of a connection, and no
    more than is left of the whole. -/
def attemptTimeout (s : State) (now : ℚ) : ℚ :=
  if options.overallTimeout ≠ 0 then
    min options.connectionTimeout (options.overallTimeout - (now - s.startedAt))
  else options.connectionTimeout

/-- Start an attempt. -/
def submit (s : State) (now : ℚ) : State :=
  match endpoints[s.nextEndpoint % endpoints.length]? with
  | none => { s with control := .raised ⟨.exception, "integer modulo by zero"⟩ }
  | some endpoint =>
      let submission : Submission :=
        ⟨s.attemptsStarted + 1, endpoint, attemptTimeout options s now⟩
      let s := { s with
        nextEndpoint := s.nextEndpoint + 1
        attemptsStarted := s.attemptsStarted + 1
        pending := s.pending ++ [submission]
        trace := s.trace ++ [Event.started submission now] }
      if options.connectionsPerSecond ≠ -1 then
        -- The attempt is on its way when the rate is found too large.
        match interval options with
        | .error e => { s with control := .raised e }
        | .ok interval => { s with nextStart := max (s.nextStart + interval) (now + interval) }
      else s

/-- The pending attempts that a wait finds done. -/
def State.done (s : State) (timeout : ℚ) : List Submission :=
  (w.finished s.waits timeout).dedup.filterMap fun number =>
    s.pending.find? fun submission => submission.number == number

/-- What follows the loop that starts attempts: a sleep, or a wait. -/
def afterStarting (s : State) : State :=
  if s.pending = [] then { s with control := .outer, ticks := s.ticks + 1 }
  else if s.pending.length < options.concurrency ∧ options.connectionsPerSecond ≠ -1 then
    let timeout := min (1 / 20) (max 0 (s.nextStart - w.clock s.ticks))
    { s with control := .harvesting (s.done w timeout), ticks := s.ticks + 1, waits := s.waits + 1 }
  else { s with control := .harvesting (s.done w (1 / 20)), waits := s.waits + 1 }

/-- One pass of the loop that starts attempts. -/
def startingStep (s : State) : State :=
  if s.pending.length < options.concurrency then
    if s.exhausted options then afterStarting w options s
    else
      let now := w.clock s.ticks
      let s := { s with ticks := s.ticks + 1 }
      if options.connectionsPerSecond ≠ -1 ∧ now < s.nextStart then afterStarting w options s
      else submit options endpoints s now
  else afterStarting w options s

/-- The classes that the handler names. -/
def attemptErrors : List ErrorClass :=
  [.osError, .tlsGenerationError, .proofFormatError, .proofVerificationError]

/-- One pass of the loop over the completed attempts. -/
def harvestStep (s : State) (submission : Submission) (rest : List Submission) : State :=
  let s := { s with
    pending := s.pending.filter fun other => other.number ≠ submission.number
    attemptsCompleted := s.attemptsCompleted + 1
    trace := s.trace ++ [Event.harvested submission] }
  match tryCapture w options context submission s.search with
  | (.ok (some (candidate, peerIp)), search) =>
      { s with
        search := search
        ticks := s.ticks + 1
        control := .returned
          ⟨candidate, s.attemptsCompleted, w.clock s.ticks - s.startedAt, peerIp⟩ }
  | (.ok none, search) => { s with search := search, control := .harvesting rest }
  | (.error e, search) =>
      if attemptErrors.any e.isA then
        { s with search := { search with lastError := some e.msg }, control := .harvesting rest }
      else { s with search := search, control := .raised e }

/-- What a report says at a reading of the clock. -/
def State.progressAt (s : State) (now : ℚ) : GenerationProgress where
  attempts := s.attemptsCompleted
  elapsed := now - s.startedAt
  attemptsPerSecond :=
    if now - s.startedAt ≠ 0 then s.attemptsCompleted / (now - s.startedAt) else 0
  bestWorkHash := s.search.bestHash
  lastError := s.search.lastError

/-- The report after the loop over the completed attempts. -/
def reportStep (s : State) : State :=
  match w.progress with
  | none => { s with control := .outer }
  | some callback =>
      if s.attemptsCompleted = 0 then { s with control := .outer }
      else
        let report := s.progressAt (w.clock s.ticks)
        let s := { s with
          ticks := s.ticks + 1
          reports := s.reports + 1
          trace := s.trace ++ [Event.reported report] }
        match callback (s.reports - 1) report with
        | .ok _ => { s with control := .outer }
        | .error e => { s with control := .raised e }

/-- From one place to the next. -/
def step (s : State) : State :=
  match s.control with
  | .outer => outerStep w options s
  | .starting => startingStep w options endpoints s
  | .harvesting [] => reportStep w s
  | .harvesting (submission :: rest) => harvestStep w options context s submission rest
  | .returned _ => s
  | .raised _ => s

end Machine

section Finally

/-- What the outer `try` statement is left with, once it is left. -/
def State.outcome (s : State) : Option (Except PyErr GenerationResult) :=
  match s.control with
  | .returned result => some (.ok result)
  | .raised e => some (.error e)
  | _ => none

/-- Where the whole function is. -/
inductive Generation
  /-- In the outer `try` statement. -/
  | trying (s : State)
  /-- In the `finally` clause, after some looks, with the attempts that still
      run. -/
  | closing (outcome : Except PyErr GenerationResult) (looks : Nat) (running : List Submission)
  | ended (outcome : Except PyErr GenerationResult)

variable {Cert Key : Type} (w : World Cert Key) (options : GenerationOptions)
  (context : ConnectionProof) (endpoints : List Endpoint)

/-- Enter the `finally` clause. Every pending attempt that has not begun is
    cancelled. -/
def State.leave (s : State) (outcome : Except PyErr GenerationResult) : Generation :=
  .closing outcome 0 (s.pending.filter fun submission => !w.cancels submission.number)

/-- From one place of the function to the next. The pool is shut down when all
    its threads have come to their end, however long that takes. -/
def generationStep : Generation → Generation
  | .trying s => match s.outcome with
      | some outcome => s.leave w outcome
      | none => .trying (step w options context endpoints s)
  | .closing outcome looks running =>
      if running = [] then .ended outcome
      else .closing outcome (looks + 1)
        (running.filter fun submission => submission.number ∉ w.stopped looks)
  | .ended outcome => .ended outcome

end Finally

end P2CTools
