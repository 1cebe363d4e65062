import P2CTools.Wire.Outcome

/-!
# Exceptions

The exception classes the program raises, names in a handler, or lets through
from the libraries it calls, with the classes each one derives from.

A raised exception is its class and its text. `handle` is a `try` statement
whose handler names some classes: it looks at the class and at nothing else,
so whether an exception gets past a handler is decided by `isA`. The
program's own classes all derive from `P2CError`, and that one from
`ValueError`, so a handler for `ValueError` also stops them; the classes the
X.509 library adds on top of `ValueError` derive from `Exception` alone. A
`KeyboardInterrupt` does not derive from `Exception` either.

`nonTermination` is not a Python class. It stands for a loop that has not
ended within the bound its model gives it, derives from nothing, and is
stopped by no handler.

## Main definitions

* `ErrorClass`: An exception class.
* `ErrorClass.bases`: A class and the classes it derives from.
* `PyErr`: A raised exception.
* `PyErr.isA`: The test a handler makes.
* `handle`: A `try` statement.
* `handleFirst`: A `try` statement with several handlers.

## Theorems

* `handle_eq_ok_iff`: How a guarded computation returns.
* `fails_handle`: The errors that get past a handler.
-/

namespace P2CTools

open Wire

/-- An exception class, or a loop that did not end. -/
inductive ErrorClass
  | exception
  | valueError | unicodeError | unicodeEncodeError | unicodeDecodeError | jsonDecodeError
  | overflowError | indexError | keyError
  | typeError | osError | fileExistsError | gaierror
  | p2cError | proofFormatError | proofVerificationError | tlsGenerationError | generationError
  | invalidTag | invalidSignature | unsupportedAlgorithm
  | invalidVersion | duplicateExtension | unsupportedGeneralNameType | extensionNotFound
  | verificationError
  | keyboardInterrupt
  | nonTermination
  deriving DecidableEq, Repr

/-- A class with the classes it derives from. -/
def ErrorClass.bases : ErrorClass → List ErrorClass
  | .exception => [.exception]
  | .valueError => [.valueError, .exception]
  | .unicodeError => [.unicodeError, .valueError, .exception]
  | .unicodeEncodeError => [.unicodeEncodeError, .unicodeError, .valueError, .exception]
  | .unicodeDecodeError => [.unicodeDecodeError, .unicodeError, .valueError, .exception]
  | .jsonDecodeError => [.jsonDecodeError, .valueError, .exception]
  | .overflowError => [.overflowError, .exception]
  | .indexError => [.indexError, .exception]
  | .keyError => [.keyError, .exception]
  | .typeError => [.typeError, .exception]
  | .osError => [.osError, .exception]
  | .fileExistsError => [.fileExistsError, .osError, .exception]
  | .gaierror => [.gaierror, .osError, .exception]
  | .p2cError => [.p2cError, .valueError, .exception]
  | .proofFormatError => [.proofFormatError, .p2cError, .valueError, .exception]
  | .proofVerificationError => [.proofVerificationError, .p2cError, .valueError, .exception]
  | .tlsGenerationError => [.tlsGenerationError, .p2cError, .valueError, .exception]
  | .generationError => [.generationError, .p2cError, .valueError, .exception]
  | .invalidTag => [.invalidTag, .exception]
  | .invalidSignature => [.invalidSignature, .exception]
  | .unsupportedAlgorithm => [.unsupportedAlgorithm, .exception]
  | .invalidVersion => [.invalidVersion, .exception]
  | .duplicateExtension => [.duplicateExtension, .exception]
  | .unsupportedGeneralNameType => [.unsupportedGeneralNameType, .exception]
  | .extensionNotFound => [.extensionNotFound, .exception]
  | .verificationError => [.verificationError, .exception]
  | .keyboardInterrupt => [.keyboardInterrupt]
  | .nonTermination => []

/-- A raised exception. -/
structure PyErr where
  cls : ErrorClass
  msg : String
  deriving DecidableEq, Repr

/-- The exception is an instance of the class. -/
def PyErr.isA (e : PyErr) (c : ErrorClass) : Bool :=
  e.cls.bases.contains c

/-- A `try` statement with one handler, which names some classes. -/
def handle {α : Type} (classes : List ErrorClass) (handler : PyErr → Except PyErr α)
    (r : Except PyErr α) : Except PyErr α :=
  match r with
  | .ok x => .ok x
  | .error e => if classes.any e.isA then handler e else .error e

/-- A `try` statement with several handlers, of which the first that names the
    exception's class runs. -/
def handleFirst {α : Type} (handlers : List (List ErrorClass × (PyErr → Except PyErr α)))
    (r : Except PyErr α) : Except PyErr α :=
  match r with
  | .ok x => .ok x
  | .error e => match handlers.find? fun h => h.1.any e.isA with
      | some h => h.2 e
      | none => .error e

/-- A `ProofFormatError`. -/
def formatError (msg : String) : PyErr :=
  ⟨.proofFormatError, msg⟩

/-- A `ProofVerificationError`. -/
def verificationFailure (msg : String) : PyErr :=
  ⟨.proofVerificationError, msg⟩

/-- A `TLSGenerationError`. -/
def tlsError (msg : String) : PyErr :=
  ⟨.tlsGenerationError, msg⟩

/-- A `GenerationError`. -/
def generationError (msg : String) : PyErr :=
  ⟨.generationError, msg⟩

/-- A plain `ValueError`. -/
def valueError (msg : String) : PyErr :=
  ⟨.valueError, msg⟩

/-- What is raised where the program is when it is interrupted. -/
def interrupt : PyErr :=
  ⟨.keyboardInterrupt, ""⟩

/-- A loop that did not end within its bound. -/
def stuck : PyErr :=
  ⟨.nonTermination, "loop did not end"⟩

/-- A guarded computation returns what its body returns, or what the handler
    makes of an error it names. -/
theorem handle_eq_ok_iff {α : Type} (classes : List ErrorClass)
    (handler : PyErr → Except PyErr α) (r : Except PyErr α) (x : α) :
    handle classes handler r = .ok x ↔
      r = .ok x ∨ ∃ e, r = .error e ∧ classes.any e.isA = true ∧ handler e = .ok x := by
  cases r with
  | ok y => simp only [handle, reduceCtorEq, false_and, exists_false, or_false]
  | error e =>
      simp only [handle, reduceCtorEq, false_or, Except.error.injEq, exists_eq_left']
      by_cases he : classes.any e.isA = true
      · rw [if_pos he]
        simp only [he, true_and]
      · rw [if_neg he]
        simp only [reduceCtorEq, he, Bool.false_eq_true, false_and]

/-- A handler that only raises lets a result through and nothing else. -/
theorem handle_error_eq_ok_iff {α : Type} (classes : List ErrorClass) (f : PyErr → PyErr)
    (r : Except PyErr α) (x : α) :
    handle classes (fun e => .error (f e)) r = .ok x ↔ r = .ok x := by
  rw [handle_eq_ok_iff]
  simp only [reduceCtorEq, and_false, exists_false, or_false]

/-- What leaves a guarded computation is raised by the handler, or is an error
    of the body that the handler does not name. -/
theorem fails_handle {α : Type} {P : PyErr → Prop} (classes : List ErrorClass)
    (handler : PyErr → Except PyErr α) (r : Except PyErr α)
    (hcaught : ∀ e, r = .error e → classes.any e.isA = true → Fails P (handler e))
    (hrest : ∀ e, r = .error e → classes.any e.isA = false → P e) :
    Fails P (handle classes handler r) := by
  intro e' h
  cases r with
  | ok x => exact nomatch h
  | error e =>
      rw [handle] at h
      cases he : classes.any e.isA with
      | true =>
          rw [he, if_pos rfl] at h
          exact hcaught e rfl he e' h
      | false =>
          rw [he, if_neg Bool.false_ne_true] at h
          rw [← Except.error.inj h]
          exact hrest e rfl he

end P2CTools
