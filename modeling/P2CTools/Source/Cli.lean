import P2CTools.Source.Generator
import P2CTools.Source.Json
import P2CTools.Source.Read
import P2CTools.Source.Write

/-!
# The Commands

The command line, from `cli.py`.

A command is its handler, applied to arguments that have been parsed. Three of
the four make a report and print it; printing may fail. `_generate` is a
machine, since it searches and then writes: `Session` is a call of it on its
way, and `Session.step` performs the next operation, which is a step of the
search or of `ConnectionProof.write`. Like a call of `write`, a session draws
answers from the operating system, and between two of its steps anything may
happen elsewhere.

The progress printer reads the clock at each call, and is quiet if its last
line is less than a second old. Its lines are kept as the values they show.

A `KeyboardInterrupt` can be raised anywhere. In a handler that reports, it
takes the place of what the handler would have ended with. In `_generate` it is
a step of its own, and what it leads to depends on where the session is. No
more is said of an interrupt during the operations of `write`.

`main` turns what a handler ends with into an exit status, and writes a line to
the standard error where that is not zero. What gets past `main`, and a failure
to flush the standard streams at the end, change the status of the process.

## Main definitions

* `challengeReport`, `inspectReport`, `verifyReport`: What the commands print.
* `ProgressPrinter`: The progress callback.
* `GenerateArgs.context`, `GenerateArgs.options`: What is searched for, and how.
* `Session`, `Session.step`, `Session.interrupted`: `_generate`.
* `exitStatus`, `processStatus`: The exit status of `main`, and of the process.
-/

namespace P2CTools

open Wire Protocol
open Tls13 (Endpoint)

section Reports

/-- `f"0x{value:04x}"`. -/
def hexWord (value : Nat) : Str :=
  let digits : Str := (Nat.toDigits 16 value).map fun c => Fin.ofNat 0x110000 c.toNat
  Str.ofString "0x" ++ List.replicate (4 - digits.length) 48 ++ digits

/-- `_json`, for what writing to the standard output comes to. -/
def printJson (stdout : Str → Except PyErr Unit) (value : Value) : Except PyErr Unit := do
  let text ← encode 0 value
  stdout (text ++ Str.ofString "\n")

variable (L : Lowercase)

/-- What `_challenge` prints. -/
def challengeReport (txid : Str) (inputIndex : Int) : Except PyErr Value := do
  let challenge ← claimChallenge L txid inputIndex
  return .dict [
    (Str.ofString "txid", .str txid),
    (Str.ofString "input_index", .int inputIndex),
    (Str.ofString "clienthello_random", .str (toHex challenge))]

variable (loads : Str → Except PyErr Value)

/-- An item of `accepted_signature_algorithms`. -/
def algorithmReport (algorithm : SignatureAlgorithm) : Value :=
  .dict [(Str.ofString "name", .str (Str.ofString algorithm.name)),
    (Str.ofString "scheme", .str (hexWord algorithm.scheme))]

/-- `message_sizes`. -/
def sizesReport (parsed : ParsedProof) : Value :=
  .dict [
    (Str.ofString "client_hello", .int parsed.clientHello.length),
    (Str.ofString "server_hello", .int parsed.serverHello.length),
    (Str.ofString "encrypted_extensions", .int parsed.encryptedExtensions.length),
    (Str.ofString "certificate", .int parsed.certificate.length),
    (Str.ofString "certificate_verify", .int parsed.certificateVerify.length)]

/-- What `_inspect` prints about a file. -/
def inspectReport (file : Except PyErr Bytes) : Except PyErr Value := do
  let envelope ← ConnectionProof.read L loads file
  let challenge ← envelope.challenge L
  let parsed ← parseProof envelope.proof envelope.domain challenge
  let workHash ← internalHashToDisplay parsed.connectionWorkHash
  let meets ← meetsWorkTarget L parsed.connectionWorkHash envelope.connectionWorkTarget
  let accepted ← acceptedSignatureAlgorithms envelope.signatureAlgorithmsMask
  let allowed ← signatureSchemeAllowed envelope.signatureAlgorithmsMask
    parsed.certificateVerifyScheme
  return .dict [
    (Str.ofString "valid_structure", .bool true),
    (Str.ofString "proof_version", .int 2),
    (Str.ofString "domain", .str envelope.domain),
    (Str.ofString "txid", .str envelope.txid),
    (Str.ofString "input_index", .int envelope.inputIndex),
    (Str.ofString "challenge", .str (toHex challenge)),
    (Str.ofString "transcript_hash", .str (toHex parsed.transcriptHash)),
    (Str.ofString "connection_work_hash", .str workHash),
    (Str.ofString "meets_work_target", .bool meets),
    (Str.ofString "certificate_count", .int parsed.certificateChain.length),
    (Str.ofString "certificate_verify_scheme", .str (hexWord parsed.certificateVerifyScheme)),
    (Str.ofString "signature_algorithms_mask", .int envelope.signatureAlgorithmsMask),
    (Str.ofString "accepted_signature_algorithms", .list (accepted.map algorithmReport)),
    (Str.ofString "signature_scheme_allowed", .bool allowed),
    (Str.ofString "cryptographic_verification_performed", .bool false),
    (Str.ofString "blockchain_context_verified", .bool false),
    (Str.ofString "message_sizes", sizesReport parsed),
    (Str.ofString "proof_size", .int envelope.proof.length)]

/-- What `_verify` prints about a file, with the root file of `--roots`. -/
def verifyReport {Cert Key : Type} (X : X509 Cert Key) (file rootFile : Except PyErr Bytes) :
    Except PyErr Value := do
  let envelope ← ConnectionProof.read L loads file
  let result ← verifyConnectionProof X L rootFile true envelope
  return .dict [
    (Str.ofString "challenge", .str result.challenge),
    (Str.ofString "transcript_hash", .str result.transcriptHash),
    (Str.ofString "connection_work_hash", .str result.connectionWorkHash),
    (Str.ofString "certificate_count", .int result.certificateCount),
    (Str.ofString "certificate_verify_scheme", .str (hexWord result.certificateVerifyScheme)),
    (Str.ofString "signature_algorithms_mask", .int result.signatureAlgorithmsMask),
    (Str.ofString "valid", .bool true),
    (Str.ofString "proof_version", .int 2),
    (Str.ofString "blockchain_context_verified", .bool false)]

/-- A handler that prints its report. -/
def reported (stdout : Str → Except PyErr Unit) (report : Except PyErr Value) :
    Except PyErr Unit := do
  let value ← report
  printJson stdout value

end Reports

section Progress

/-- `_ProgressPrinter`. -/
structure ProgressPrinter where
  lastUpdate : ℚ := 0

/-- What a line shows. -/
structure ProgressLine where
  attempts : Nat
  rate : ℚ
  best : Str
  lastError : Option String
  deriving DecidableEq

/-- The line for a report. -/
def progressLine (progress : GenerationProgress) : ProgressLine where
  attempts := progress.attempts
  rate := progress.attemptsPerSecond
  best := match progress.bestWorkHash with
    | none => Str.ofString "none"
    | some best => if best = [] then Str.ofString "none" else best
  lastError := progress.lastError.filter fun text => text ≠ ""

/-- A call, at a reading of the clock: a line, unless the last one is less than
    a second old. -/
def ProgressPrinter.call (printer : ProgressPrinter) (now : ℚ) (progress : GenerationProgress) :
    ProgressPrinter × Option ProgressLine :=
  if now - printer.lastUpdate < 1 then (printer, none)
  else ({ lastUpdate := now }, some (progressLine progress))

/-- What the printer draws from outside: its readings of the clock, and what
    writing a line to the standard error comes to, by the number of the call. -/
structure Terminal where
  clock : Nat → ℚ
  stderr : Nat → ProgressLine → Except PyErr Unit

/-- The printer after some calls. The time of its last line does not depend on
    what it was called with. -/
def Terminal.printer (T : Terminal) : Nat → ProgressPrinter
  | 0 => {}
  | k + 1 =>
      if T.clock k - (T.printer k).lastUpdate < 1 then T.printer k else { lastUpdate := T.clock k }

/-- The callback, by the number of the call. -/
def Terminal.progress (T : Terminal) (k : Nat) (progress : GenerationProgress) :
    Except PyErr Unit :=
  match ((T.printer k).call (T.clock k) progress).2 with
  | none => .ok ()
  | some line => T.stderr k line

/-- The world of a search that reports to the printer. -/
def World.shown {Cert Key : Type} (w : World Cert Key) (T : Terminal) : World Cert Key :=
  { w with progress := some T.progress }

end Progress

section Generate

/-- The arguments of `generate`, apart from the paths. -/
structure GenerateArgs where
  domain : Str
  txid : Str
  inputIndex : Int
  target : Str
  rootCertificatesVersion : Int := 1
  signatureAlgorithmsMask : Int
  validationTime : Int
  port : Int := 443
  connectionsPerSecond : Int := 1
  concurrency : Int := 1
  connectionTimeout : ℚ := 10
  overallTimeout : ℚ := 0
  maxAttempts : Int := 0
  overwrite : Bool := false
  allowPrivateAddresses : Bool := false
  allowUnpinnedRoots : Bool := false

/-- The fields of an envelope for the arguments, with a proof in hexadecimal. -/
def GenerateArgs.serialized (a : GenerateArgs) (proof : Str) : List (Str × Value) := [
  (Str.ofString "format", .str (Str.ofString "connectcoin-p2c-proof")),
  (Str.ofString "version", .int envelopeVersion),
  (Str.ofString "domain", .str a.domain),
  (Str.ofString "txid", .str a.txid),
  (Str.ofString "input_index", .int a.inputIndex),
  (Str.ofString "connection_work_target", .str a.target),
  (Str.ofString "root_certificates_version", .int a.rootCertificatesVersion),
  (Str.ofString "signature_algorithms_mask", .int a.signatureAlgorithmsMask),
  (Str.ofString "validation_time", .int a.validationTime),
  (Str.ofString "proof", .str proof)]

/-- The context of the search. Its proof is empty, which no serialized envelope
    may be, so a placeholder of one byte is read first. -/
def GenerateArgs.context (a : GenerateArgs) (L : Lowercase) : Except PyErr ConnectionProof := do
  let placeholder ← fromDict L (.dict (a.serialized (Str.ofString "02")))
  placeholder.replaceProof L []

/-- The options that `_generate` passes on. -/
def GenerateArgs.options (a : GenerateArgs) : GenerationOptions where
  port := a.port
  connectionsPerSecond := a.connectionsPerSecond
  concurrency := a.concurrency
  connectionTimeout := a.connectionTimeout
  overallTimeout := a.overallTimeout
  maxAttempts := a.maxAttempts
  allowPrivateAddresses := a.allowPrivateAddresses
  enforceRootPin := !a.allowUnpinnedRoots

/-- Where a call of `_generate` is. -/
inductive Stage
  /-- Before the search. -/
  | preparing
  | searching (context : ConnectionProof) (endpoints : List Endpoint) (generation : Generation)
  /-- `result.envelope.write(..)`. -/
  | writing (result : GenerationResult)
  /-- The report at the end. -/
  | reporting (result : GenerationResult)
  | ended (result : Option GenerationResult) (outcome : Except PyErr Unit)

/-- The result of the search, where there is one. -/
def Stage.result : Stage → Option GenerationResult
  | .preparing => none
  | .searching _ _ _ => none
  | .writing result => some result
  | .reporting result => some result
  | .ended result _ => result

/-- A call of `_generate` on its way, with its call of `write`. -/
structure Session (Name : Type) where
  stage : Stage
  call : Call Name

/-- A session before its first step. -/
def Session.start {Name : Type} : Session Name where
  stage := .preparing
  call := Call.start

/-- A session, the directory, and what is to be noted, after a step. -/
structure SessionStep (Name : Type) where
  session : Session Name
  directory : Directory Name
  event : Option WriteEvent

variable {Cert Key Name : Type} (w : World Cert Key) (a : GenerateArgs)

/-- Everything before the first attempt. -/
def GenerateArgs.prepare : Except PyErr (ConnectionProof × List Endpoint) := do
  let context ← a.context w.lowercase
  let endpoints ← P2CTools.prepare w a.options context
  return (context, endpoints)

/-- What is written. -/
def GenerateArgs.writes (result : GenerationResult) : WriteArgs :=
  ⟨result.envelope, a.overwrite⟩

/-- What a call of `write` has ended with. -/
def Call.outcome (call : Call Name) : Option (Except PyErr Unit) :=
  match call.phase with
  | .ended outcome => some outcome
  | _ => none

/-- What follows the preparation. -/
def stagePrepared : Stage :=
  match a.prepare w with
  | .error e => .ended none (.error e)
  | .ok found => .searching found.1 found.2 (.trying (start w))

/-- What follows a place of the search. -/
def stageSearched (context : ConnectionProof) (endpoints : List Endpoint)
    (generation : Generation) : Stage :=
  match generation with
  | .ended (.ok result) => .writing result
  | .ended (.error e) => .ended none (.error e)
  | generation =>
      .searching context endpoints (generationStep w a.options context endpoints generation)

/-- What follows the call of `write`. -/
def stageWritten (result : GenerationResult) (outcome : Except PyErr Unit) : Stage :=
  match outcome with
  | .ok _ => .reporting result
  | .error e => .ended (some result) (.error e)

/-- The session comes to a stage, and nothing else happens. -/
def Session.enter (σ : Session Name) (d : Directory Name) (stage : Stage) : SessionStep Name :=
  ⟨{ σ with stage := stage }, d, none⟩

variable (T : Terminal) [DecidableEq Name] (output : Name)

/-- The next operation of a session. -/
def Session.step (answer : Answer Name) (σ : Session Name) (d : Directory Name) :
    SessionStep Name :=
  match σ.stage with
  | .preparing => σ.enter d (stagePrepared (w.shown T) a)
  | .searching context endpoints generation =>
      σ.enter d (stageSearched (w.shown T) a context endpoints generation)
  | .writing result => match σ.call.outcome with
      | some outcome => σ.enter d (stageWritten result outcome)
      | none =>
          let done := writeStep output (a.writes result) answer σ.call d
          ⟨{ σ with call := done.call }, done.directory, done.event⟩
  | .reporting result => σ.enter d (.ended (some result) (answer.unless (.ok ())))
  | .ended _ _ => ⟨σ, d, none⟩

/-- The call of `write` has not begun or has ended. -/
def Call.outside (call : Call Name) : Bool :=
  match call.phase with
  | .serializing => true
  | .ended _ => true
  | _ => false

/-- What follows a place of the search when it is interrupted. In the outer
    `try` statement this is one more way to leave it. In the `finally` clause
    nothing is waited for any more. -/
def stageInterrupted (context : ConnectionProof) (endpoints : List Endpoint) : Generation → Stage
  | .trying s => .searching context endpoints (s.leave w (.error interrupt))
  | .closing _ _ _ => .ended none (.error interrupt)
  | .ended _ => .ended none (.error interrupt)

/-- The session is interrupted, where that is no part of the call of `write`. -/
def Session.interrupted (σ : Session Name) : Option (Session Name) :=
  match σ.stage with
  | .preparing => some { σ with stage := .ended none (.error interrupt) }
  | .searching context endpoints generation =>
      some { σ with stage := stageInterrupted w context endpoints generation }
  | .writing result =>
      if σ.call.outside then some { σ with stage := .ended (some result) (.error interrupt) }
      else none
  | .reporting result => some { σ with stage := .ended (some result) (.error interrupt) }
  | .ended _ _ => none

end Generate

section Main

/-- What a handler ends with, if it is interrupted or not. -/
def interruptible (interrupted : Bool) (outcome : Except PyErr Unit) : Except PyErr Unit :=
  if interrupted then .error interrupt else outcome

/-- The exit status of `main`, or what gets past it, for what writing to the
    standard error comes to and what the handler ends with. -/
def exitStatus (stderr outcome : Except PyErr Unit) : Except PyErr Nat :=
  handleFirst [
    ([.keyboardInterrupt], fun _ => do
      stderr
      return 130),
    ([.p2cError, .osError, .valueError], fun _ => do
      stderr
      return 1)] do
    outcome
    return 0

/-- The exit status of the process. What gets past `main` is shown with a
    traceback, an interrupt apart, which ends the process as the signal would.
    Then the standard streams are flushed. -/
def processStatus (flushed : Bool) : Except PyErr Nat → Nat
  | .ok status => if flushed then status else 120
  | .error e =>
      if e.isA .keyboardInterrupt then 130
      else if flushed then 1
      else 120

end Main

end P2CTools
