import P2CTools.Source.Envelope
import P2CTools.Wire.Directory

/-!
# Writing Envelopes

`ConnectionProof.write`, from `envelope.py`, as one call among others that work
on the same directory.

A call is a place in the function and the variables it has there, and
`writeStep` performs the next operation. The operations that reach the
operating system are given an answer: the name a new temporary file gets, how
much of the text has arrived in the file, or the `OSError` that the operation
raises. A partial write leaves any front of the text, and so does closing the
stream of a write that failed. Between two steps of one call anything may
happen elsewhere.

`events` is not part of the program. It tells when a call's file became the
destination and when the removal of a temporary file failed, which the program
suppresses.

## Main definitions

* `encodeUtf8`: The encoding of the stream.
* `ConnectionProof.fileBytes`: What a complete file holds.
* `Call`: A call of `write` on its way.
* `writeStep`: The next operation of a call.
-/

namespace P2CTools

open Wire

section Encoding

/-- A code point that UTF-8 does not encode. -/
def isSurrogate (c : CodePoint) : Bool :=
  decide (0xD800 ≤ c.val ∧ c.val ≤ 0xDFFF)

/-- The bytes of a code point. -/
def utf8Char (c : CodePoint) : Bytes :=
  if c.val < 0x80 then [UInt8.ofNat c.val]
  else if c.val < 0x800 then
    [UInt8.ofNat (0xC0 + c.val / 64), UInt8.ofNat (0x80 + c.val % 64)]
  else if c.val < 0x10000 then
    [UInt8.ofNat (0xE0 + c.val / 4096), UInt8.ofNat (0x80 + c.val / 64 % 64),
      UInt8.ofNat (0x80 + c.val % 64)]
  else
    [UInt8.ofNat (0xF0 + c.val / 262144), UInt8.ofNat (0x80 + c.val / 4096 % 64),
      UInt8.ofNat (0x80 + c.val / 64 % 64), UInt8.ofNat (0x80 + c.val % 64)]

/-- `text.encode("utf-8")`. -/
def encodeUtf8 (text : Str) : Except PyErr Bytes :=
  if text.any isSurrogate then
    .error ⟨.unicodeEncodeError, "'utf-8' codec can't encode characters: surrogates not allowed"⟩
  else .ok (text.flatMap utf8Char)

/-- What a complete file holds. -/
def ConnectionProof.fileBytes (e : ConnectionProof) : Except PyErr Bytes := do
  let text ← e.serialized
  encodeUtf8 text

end Encoding

/-- The arguments of a call, apart from the destination. -/
structure WriteArgs where
  envelope : ConnectionProof
  overwrite : Bool

/-- Where a call is. -/
inductive Phase
  /-- `serialized = json.dumps(..)`. -/
  | serializing
  /-- `tempfile.NamedTemporaryFile(..)`. -/
  | creating
  /-- `stream.write(serialized)`. -/
  | writing
  /-- `stream.flush()`. -/
  | flushing
  /-- `os.fsync(stream.fileno())`. -/
  | syncing
  /-- The end of the `with` statement, with the exception it is left by. -/
  | closing (raised : Option PyErr)
  /-- `os.replace(..)` or `os.link(..)`. -/
  | publishing
  /-- `temporary.unlink(..)`, with what the call then ends with. -/
  | cleaning (outcome : Except PyErr Unit)
  | ended (outcome : Except PyErr Unit)
  deriving DecidableEq

/-- A call on its way. -/
structure Call (Name : Type) where
  phase : Phase
  temporary : Option Name
  serialized : Str
  /-- The file of the stream. -/
  stream : Nat
  /-- What the stream was given to write. -/
  text : Bytes

/-- A call before its first step. -/
def Call.start {Name : Type} : Call Name where
  phase := .serializing
  temporary := none
  serialized := []
  stream := 0
  text := []

/-- What the operating system does with an operation. -/
structure Answer (Name : Type) where
  /-- The name of a new temporary file. -/
  name : Name
  /-- How much of the text is in the file. -/
  written : Nat
  error : Option PyErr

/-- What is noted of a step. -/
inductive WriteEvent
  /-- The call's file is the destination's. -/
  | published
  /-- The temporary file could not be removed. -/
  | abandoned
  deriving DecidableEq

/-- A call, the directory, and what is to be noted, after a step. -/
structure WriteStep (Name : Type) where
  call : Call Name
  directory : Directory Name
  event : Option WriteEvent

section Operations

variable {Name : Type}

/-- An operation that the system may refuse. -/
def Answer.unless {α : Type} (answer : Answer Name) (r : Except PyErr α) : Except PyErr α :=
  match answer.error with
  | some e => .error e
  | none => r

theorem Answer.unless_eq_ok_iff {α : Type} (answer : Answer Name) (r : Except PyErr α) (x : α) :
    answer.unless r = .ok x ↔ answer.error = none ∧ r = .ok x := by
  unfold Answer.unless
  cases answer.error with
  | none => simp only [true_and]
  | some e => simp only [reduceCtorEq, false_and]

/-- The handler of the outer `try` statement. -/
def guardedWrite {α : Type} (r : Except PyErr α) : Except PyErr α :=
  handle [.osError, .unicodeError]
    (fun e => .error (formatError ("cannot write connection proof: " ++ e.msg))) r

theorem guardedWrite_eq_ok_iff {α : Type} (r : Except PyErr α) (x : α) :
    guardedWrite r = .ok x ↔ r = .ok x :=
  handle_error_eq_ok_iff _ _ _ _

/-- Leave the `try` statement: through the `finally` clause, where there is a
    temporary file. -/
def Call.leave (call : Call Name) (outcome : Except PyErr Unit) : Call Name :=
  match call.temporary with
  | none => { call with phase := .ended outcome }
  | some _ => { call with phase := .cleaning outcome }

theorem Call.leave_some {call : Call Name} {name : Name} (h : call.temporary = some name)
    (outcome : Except PyErr Unit) : call.leave outcome = { call with phase := .cleaning outcome } := by
  rw [Call.leave, h]

theorem Call.leave_none {call : Call Name} (h : call.temporary = none)
    (outcome : Except PyErr Unit) : call.leave outcome = { call with phase := .ended outcome } := by
  rw [Call.leave, h]

variable [DecidableEq Name]

/-- `os.replace`. -/
def osReplace (d : Directory Name) (source target : Name) : Except PyErr (Directory Name) :=
  match d.entry source with
  | none => .error ⟨.osError, "No such file or directory"⟩
  | some _ => .ok (d.rename source target)

/-- `os.link`, which does not replace anything. -/
def osLink (d : Directory Name) (source target : Name) : Except PyErr (Directory Name) :=
  match d.entry source with
  | none => .error ⟨.osError, "No such file or directory"⟩
  | some file =>
      if d.entry target = none then .ok (d.link file target)
      else .error ⟨.fileExistsError, "File exists"⟩

/-- Publish: the new directory. -/
def publish (destination : Name) (overwrite : Bool) (answer : Answer Name) (temporary : Name)
    (d : Directory Name) : Except PyErr (Directory Name) :=
  guardedWrite (if overwrite then answer.unless (osReplace d temporary destination)
    else handle [.fileExistsError]
      (fun _ => .error (formatError "refusing to overwrite existing file"))
      (answer.unless (osLink d temporary destination)))

/-- When publication succeeds: the staging name stands for a file, and without
    `overwrite` the destination stands for none. -/
theorem publish_eq_ok_iff (destination : Name) (overwrite : Bool) (answer : Answer Name)
    (temporary : Name) (d d' : Directory Name) :
    publish destination overwrite answer temporary d = .ok d' ↔
      answer.error = none ∧ ∃ file, d.entry temporary = some file ∧
        if overwrite = true then d' = d.rename temporary destination
        else d.entry destination = none ∧ d' = d.link file destination := by
  unfold publish
  rw [guardedWrite_eq_ok_iff]
  cases overwrite with
  -- A rename takes the place of whatever the destination stands for.
  | true =>
      rw [if_pos rfl, Answer.unless_eq_ok_iff]
      refine and_congr_right fun _ => ?_
      unfold osReplace
      cases d.entry temporary with
      | none => simp only [reduceCtorEq, false_and, exists_false]
      | some file => simp only [Except.ok.injEq, Option.some.injEq, if_true, exists_eq_left', eq_comm]
  -- A link needs a free destination.
  | false =>
      rw [if_neg Bool.false_ne_true, handle_error_eq_ok_iff, Answer.unless_eq_ok_iff]
      refine and_congr_right fun _ => ?_
      unfold osLink
      cases d.entry temporary with
      | none => simp only [reduceCtorEq, false_and, exists_false]
      | some file =>
          simp only [Option.some.injEq, exists_eq_left', Bool.false_eq_true, if_false]
          by_cases hfree : d.entry destination = none
          · rw [if_pos hfree, Except.ok.injEq, eq_comm]
            exact (and_iff_right hfree).symm
          · rw [if_neg hfree]
            simp only [reduceCtorEq, hfree, false_and]

/-- The next operation of a call. -/
def writeStep (destination : Name) (args : WriteArgs) (answer : Answer Name) (call : Call Name)
    (d : Directory Name) : WriteStep Name :=
  match call.phase with
  | .serializing =>
      match args.envelope.serialized with
      | .ok text => ⟨{ call with phase := .creating, serialized := text }, d, none⟩
      | .error e => ⟨{ call with phase := .ended (.error e) }, d, none⟩
  | .creating =>
      match guardedWrite (answer.unless (.ok (d.create answer.name))) with
      | .ok d' => ⟨{ call with
          phase := .writing
          temporary := some answer.name
          stream := d.files }, d', none⟩
      | .error e => ⟨call.leave (.error e), d, none⟩
  | .writing =>
      match encodeUtf8 call.serialized with
      | .error e => ⟨{ call with phase := .closing (some e) }, d, none⟩
      | .ok text => ⟨{ call with
          text := text
          phase := match answer.error with
            | none => .flushing
            | some e => .closing (some e) }, d.put call.stream (text.take answer.written), none⟩
  | .flushing =>
      match answer.error with
      | none => ⟨{ call with phase := .syncing }, d.put call.stream call.text, none⟩
      | some e => ⟨{ call with phase := .closing (some e) },
          d.put call.stream (call.text.take answer.written), none⟩
  | .syncing => ⟨{ call with phase := .closing answer.error }, d, none⟩
  | .closing none =>
      match guardedWrite (answer.unless (.ok ())) with
      | .ok _ => ⟨{ call with phase := .publishing }, d, none⟩
      | .error e => ⟨call.leave (.error e), d, none⟩
  | .closing (some raised) =>
      -- What the stream still holds may arrive when it is closed.
      ⟨call.leave (guardedWrite (answer.unless (.error raised))),
        d.put call.stream (call.text.take answer.written), none⟩
  | .publishing =>
      match call.temporary with
      | none => ⟨{ call with phase := .ended (.error ⟨.exception, "no staging name"⟩) }, d, none⟩
      | some temporary =>
          match publish destination args.overwrite answer temporary d with
          | .error e => ⟨call.leave (.error e), d, none⟩
          | .ok d' =>
              -- A replaced name no longer belongs to the call.
              if args.overwrite then
                ⟨({ call with temporary := none } : Call Name).leave (.ok ()), d', some .published⟩
              else ⟨call.leave (.ok ()), d', some .published⟩
  | .cleaning outcome =>
      match call.temporary with
      | none => ⟨{ call with phase := .ended outcome }, d, none⟩
      | some temporary =>
          match answer.error with
          | none => ⟨{ call with phase := .ended outcome, temporary := none }, d.unlink temporary,
              none⟩
          | some _ => ⟨{ call with phase := .ended outcome, temporary := none }, d,
              some .abandoned⟩
  | .ended _ => ⟨call, d, none⟩

end Operations

end P2CTools
