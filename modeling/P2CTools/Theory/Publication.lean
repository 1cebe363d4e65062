import P2CTools.Source.Write
import P2CTools.Theory.Commitment
import P2CTools.Wire.Runs

/-!
# Publication

Any number of calls of `write` to one destination, interleaved in any order
with each other and with what others do in the directory.

A call only ever changes the directory through its own file. Until it
publishes, that file has one name, the staging name, which the call holds, and
the destination is not it; so nobody else writes to what the destination stands
for, and the destination changes by publication alone. `CallInv` says this for
each place a call can be at, and `DestinationInv` says what the destination
stands for. A step of one call is seen by the others only through `Respects`:
their files and their staging names are as they were.

The system is taken to create a temporary file under a name that is free and
that is not the destination, and the others in the directory leave alone the
destination and the staging names that are held. They may take a staging name
as soon as it is released.

## Main definitions

* `System`, `System.Step`: The calls, the directory, and what can happen.
* `CallInv`, `DestinationInv`, `Inv`: What holds in every state of a run.
* `Moved`: The steps of a call, case by case.
* `Leaves`, `Respects`: A change that the other calls do not notice.

## Theorems

* `moved_writeStep`: What a step of a call can come to.
* `Moved.leaves`: What a step of a call leaves alone.
* `Moved.callInv`, `Moved.publication`: What it does to the call and to the
  destination.
* `CallInv.respected`: What a change that is not noticed keeps.
* `inv_step`, `inv_run`: The invariant.
* `write_publishes_atomically`: What every run guarantees.
-/

namespace P2CTools

open Wire

/-- The calls and the directory they share, with who made which file, and what
    has been noted of which call. -/
structure System (ι Name : Type) where
  calls : ι → Call Name
  directory : Directory Name
  creator : Nat → Option ι
  events : List (ι × WriteEvent)

namespace System

variable {ι Name : Type}

/-- The calls that have published, in order. -/
def published (s : System ι Name) : List ι :=
  s.events.filterMap fun event => if event.2 = .published then some event.1 else none

/-- The calls whose temporary file could not be removed. -/
def Abandoned (s : System ι Name) (i : ι) : Prop :=
  (i, .abandoned) ∈ s.events

/-- No call has begun, and all files there are were made by others. -/
structure Initial (s : System ι Name) : Prop where
  calls : ∀ i, s.calls i = Call.start
  entries : ∀ name file, s.directory.entry name = some file → file < s.directory.files
  creator : ∀ file, s.creator file = none
  events : s.events = []

variable (destination : Name) (args : ι → WriteArgs)

section Steps

variable [DecidableEq ι] [DecidableEq Name]

/-- The system after a step of a call. -/
def after (s : System ι Name) (i : ι) (done : WriteStep Name) : System ι Name where
  calls := Function.update s.calls i done.call
  directory := done.directory
  creator file := if s.directory.files ≤ file ∧ file < done.directory.files then some i
    else s.creator file
  events := s.events ++ done.event.toList.map fun event => (i, event)

/-- A call performs its next operation. -/
def advance (s : System ι Name) (i : ι) (answer : Answer Name) : System ι Name :=
  s.after i (writeStep destination (args i) answer (s.calls i) s.directory)

/-- An answer that the system can give: a free name, and errors of the
    operating system. -/
def Allows (s : System ι Name) (answer : Answer Name) : Prop :=
  s.directory.entry answer.name = none ∧ answer.name ≠ destination ∧
    ∀ e ∈ answer.error, e.isA .osError = true

/-- What others may do in the directory: the destination and the staging names
    that are held stay as they are, and new entries are for their own files. -/
structure Permits (s : System ι Name) (d : Directory Name) : Prop where
  untouched : ∀ name, name = destination ∨ (∃ i, (s.calls i).temporary = some name) →
    d.entry name = s.directory.entry name ∧ d.lookup name = s.directory.lookup name
  entries : ∀ name file, d.entry name = some file → s.directory.entry name ≠ some file →
    s.creator file = none ∧ file < d.files
  files : s.directory.files ≤ d.files

/-- What can happen. -/
inductive Step (s : System ι Name) : System ι Name → Prop
  | call (i : ι) (answer : Answer Name) (h : s.Allows destination answer) :
      Step s (s.advance destination args i answer)
  | others (d : Directory Name) (h : s.Permits destination d) :
      Step s { s with directory := d }

end Steps

/-- A call's file has its staging name and no other, outside what is excepted. -/
structure Staged (s : System ι Name) (i : ι) (Other : Name → Prop) : Prop where
  named : ∃ name, (s.calls i).temporary = some name ∧ name ≠ destination ∧
    s.directory.entry name = some (s.calls i).stream ∧
    ∀ other, s.directory.entry other = some (s.calls i).stream → other = name ∨ Other other
  created : ∀ file, s.creator file = some i ↔ file = (s.calls i).stream

/-- What a staging name stands for is the call's own file. -/
theorem Staged.own {destination : Name} {s : System ι Name} {i : ι} {Other : Name → Prop}
    (h : s.Staged destination i Other) {name : Name} (hname : (s.calls i).temporary = some name) :
    s.directory.entry name = some (s.calls i).stream ∧ name ≠ destination ∧
      s.creator (s.calls i).stream = some i := by
  rcases h.named with ⟨name', hname', hne, hentry, -⟩
  rw [hname, Option.some.injEq] at hname'
  subst hname'
  exact ⟨hentry, hne, (h.created _).mpr rfl⟩

/-- What holds of a call that has no file yet. -/
structure Fresh (s : System ι Name) (i : ι) : Prop where
  temporary : (s.calls i).temporary = none
  created : ∀ file, s.creator file ≠ some i
  unpublished : i ∉ s.published

/-- What holds of a call whose file is not the destination's. -/
structure Private (s : System ι Name) (i : ι) : Prop where
  staged : s.Staged destination i fun _ => False
  unpublished : i ∉ s.published

theorem Private.temporary {destination : Name} {s : System ι Name} {i : ι}
    (h : s.Private destination i) : ∃ name, (s.calls i).temporary = some name := by
  rcases h.staged.named with ⟨name, hname, -⟩
  exact ⟨name, hname⟩

/-- The destination does not stand for the file of a call that has not
    published. -/
theorem Private.ne_destination {destination : Name} {s : System ι Name} {i : ι}
    (h : s.Private destination i) {name : Name} (hname : (s.calls i).temporary = some name) :
    s.directory.entry name ≠ s.directory.entry destination := by
  rcases h.staged.named with ⟨name', hname', hne, hentry, honly⟩
  rw [hname, Option.some.injEq] at hname'
  subst hname'
  intro heq
  rcases honly destination (heq.symm.trans hentry) with h | h
  · exact hne h.symm
  · exact h

/-- What a call that has a file and has not published knows of the text. -/
def Working (args : WriteArgs) (call : Call Name) (d : Directory Name) : Prop :=
  match call.phase with
  | .writing => args.envelope.serialized = .ok call.serialized
  | .flushing => args.envelope.fileBytes = .ok call.text
  | .syncing | .closing none | .publishing =>
      args.envelope.fileBytes = .ok call.text ∧ d.content call.stream = call.text
  | .closing (some _) => True
  | .cleaning outcome => outcome ≠ .ok ()
  | _ => False

theorem Working.congr {args : WriteArgs} {call : Call Name} {d d' : Directory Name}
    (h : Working args call d) (hd : d'.content call.stream = d.content call.stream) :
    Working args call d' := by
  unfold Working at h ⊢
  rw [hd]
  exact h

/-- A call that has come to its end has published if it returns, and has left
    nothing behind. -/
structure Gone (s : System ι Name) (i : ι) (outcome : Except PyErr Unit) : Prop where
  temporary : (s.calls i).temporary = none
  published : outcome = .ok () ↔ i ∈ s.published
  removed : ∀ name file, s.directory.entry name = some file → s.creator file = some i →
    name = destination ∨ s.Abandoned i

/-- What holds of a call, where it is. -/
def CallInv (s : System ι Name) (i : ι) : Prop :=
  match (s.calls i).phase with
  | .serializing => s.Fresh i
  | .creating => s.Fresh i ∧ (args i).envelope.serialized = .ok (s.calls i).serialized
  | .cleaning outcome => s.Staged destination i (fun name => name = destination) ∧
      (outcome = .ok () ↔ i ∈ s.published)
  | .ended outcome => s.Gone destination i outcome
  | _ => s.Private destination i ∧ Working (args i) (s.calls i) s.directory

/-- What the destination stands for: what it stood for at the start, or the
    complete file of the call that published last. -/
def DestinationInv (s₀ s : System ι Name) : Prop :=
  match s.published.getLast? with
  | none => s.directory.entry destination = s₀.directory.entry destination ∧
      s.directory.lookup destination = s₀.directory.lookup destination ∧
      ∀ file, s.directory.entry destination = some file → s.creator file = none
  | some i => ∃ file text, s.directory.entry destination = some file ∧ s.creator file = some i ∧
      (args i).envelope.fileBytes = .ok text ∧ s.directory.content file = text

/-- What holds in every state of a run. -/
structure Inv (s₀ s : System ι Name) : Prop where
  entries : ∀ name file, s.directory.entry name = some file → file < s.directory.files
  creators : ∀ file i, s.creator file = some i → file < s.directory.files
  calls : ∀ i, s.CallInv destination args i
  nodup : s.published.Nodup
  destination : DestinationInv destination args s₀ s

section Moves

variable [DecidableEq Name] (s : System ι Name) (i : ι)

/-- What a step of a call can come to. -/
inductive Moved : WriteStep Name → Prop
  /-- The text is there. -/
  | begun (text : Str) (fresh : s.Fresh i) (htext : (args i).envelope.serialized = .ok text) :
      Moved ⟨{ s.calls i with phase := .creating, serialized := text }, s.directory, none⟩
  /-- The call ends before it has a file. -/
  | refused (e : PyErr) (fresh : s.Fresh i) :
      Moved ⟨{ s.calls i with phase := .ended (.error e) }, s.directory, none⟩
  | created (name : Name) (fresh : s.Fresh i)
      (htext : (args i).envelope.serialized = .ok (s.calls i).serialized)
      (free : s.directory.entry name = none) (hne : name ≠ destination) :
      Moved ⟨{ s.calls i with
        phase := .writing
        temporary := some name
        stream := s.directory.files }, s.directory.create name, none⟩
  /-- The call works on its file, or leaves it to be removed. -/
  | worked (call : Call Name) (d : Directory Name) (hprivate : s.Private destination i)
      (hcall : call.temporary = (s.calls i).temporary ∧ call.stream = (s.calls i).stream)
      (hd : d = s.directory ∨ ∃ text, d = s.directory.put (s.calls i).stream text)
      (hworking : Working (args i) call d) : Moved ⟨call, d, none⟩
  | linked (text : Bytes) (hprivate : s.Private destination i)
      (htext : (args i).envelope.fileBytes = .ok text)
      (hcontent : s.directory.content (s.calls i).stream = text)
      (free : s.directory.entry destination = none) :
      Moved ⟨{ s.calls i with phase := .cleaning (.ok ()) },
        s.directory.link (s.calls i).stream destination, some .published⟩
  | replaced (text : Bytes) (name : Name) (hprivate : s.Private destination i)
      (htext : (args i).envelope.fileBytes = .ok text)
      (hcontent : s.directory.content (s.calls i).stream = text)
      (hname : (s.calls i).temporary = some name) (hoverwrite : (args i).overwrite = true) :
      Moved ⟨{ s.calls i with phase := .ended (.ok ()), temporary := none },
        s.directory.rename name destination, some .published⟩
  | removed (name : Name) (outcome : Except PyErr Unit)
      (hstaged : s.Staged destination i fun name => name = destination)
      (hpublished : outcome = .ok () ↔ i ∈ s.published)
      (hname : (s.calls i).temporary = some name) :
      Moved ⟨{ s.calls i with phase := .ended outcome, temporary := none },
        s.directory.unlink name, none⟩
  | abandoned (outcome : Except PyErr Unit)
      (hstaged : s.Staged destination i fun name => name = destination)
      (hpublished : outcome = .ok () ↔ i ∈ s.published) :
      Moved ⟨{ s.calls i with phase := .ended outcome, temporary := none }, s.directory,
        some .abandoned⟩
  | rested (outcome : Except PyErr Unit) (hgone : s.Gone destination i outcome)
      (hphase : (s.calls i).phase = .ended outcome) : Moved ⟨s.calls i, s.directory, none⟩

variable {destination args s i}

section Phases

variable {answer : Answer Name} (h : s.CallInv destination args i)

include h

theorem moved_serializing (hphase : (s.calls i).phase = .serializing) :
    s.Moved destination args i
      (writeStep destination (args i) answer (s.calls i) s.directory) := by
  rw [CallInv, hphase] at h
  rw [writeStep, hphase]
  dsimp only
  cases htext : (args i).envelope.serialized with
  | ok text => exact Moved.begun text h htext
  | error e => exact Moved.refused e h

theorem moved_creating (ha : s.Allows destination answer)
    (hphase : (s.calls i).phase = .creating) :
    s.Moved destination args i
      (writeStep destination (args i) answer (s.calls i) s.directory) := by
  rw [CallInv, hphase] at h
  rcases h with ⟨hfresh, htext⟩
  rw [writeStep, hphase]
  dsimp only
  cases hcreate : guardedWrite (answer.unless (.ok (s.directory.create answer.name))) with
  | ok d =>
      rw [guardedWrite_eq_ok_iff, Answer.unless_eq_ok_iff, Except.ok.injEq] at hcreate
      rw [← hcreate.2]
      exact Moved.created answer.name hfresh htext ha.1 ha.2.1
  | error e =>
      dsimp only
      rw [Call.leave_none hfresh.temporary]
      exact Moved.refused e hfresh

/-- A text that cannot be encoded is not written, and of any other a part may
    have arrived when writing fails. -/
theorem moved_writing (hphase : (s.calls i).phase = .writing) :
    s.Moved destination args i
      (writeStep destination (args i) answer (s.calls i) s.directory) := by
  rw [CallInv, hphase] at h
  rcases h with ⟨hprivate, hworking⟩
  rw [Working, hphase] at hworking
  rw [writeStep, hphase]
  dsimp only at hworking ⊢
  cases hencode : encodeUtf8 (s.calls i).serialized with
  | error e => exact Moved.worked _ _ hprivate ⟨rfl, rfl⟩ (Or.inl rfl) trivial
  | ok text =>
      refine Moved.worked _ _ hprivate ⟨rfl, rfl⟩ (Or.inr ⟨_, rfl⟩) ?_
      cases answer.error with
      | none => exact (bind_eq_ok_iff _ _ _).mpr ⟨_, hworking, hencode⟩
      | some e => exact trivial

theorem moved_flushing (hphase : (s.calls i).phase = .flushing) :
    s.Moved destination args i
      (writeStep destination (args i) answer (s.calls i) s.directory) := by
  rw [CallInv, hphase] at h
  rcases h with ⟨hprivate, hworking⟩
  rw [Working, hphase] at hworking
  rw [writeStep, hphase]
  dsimp only at hworking ⊢
  cases answer.error with
  | none =>
      refine Moved.worked _ _ hprivate ⟨rfl, rfl⟩ (Or.inr ⟨_, rfl⟩) ⟨hworking, ?_⟩
      exact Function.update_self _ _ _
  | some e => exact Moved.worked _ _ hprivate ⟨rfl, rfl⟩ (Or.inr ⟨_, rfl⟩) trivial

theorem moved_syncing (hphase : (s.calls i).phase = .syncing) :
    s.Moved destination args i
      (writeStep destination (args i) answer (s.calls i) s.directory) := by
  rw [CallInv, hphase] at h
  rcases h with ⟨hprivate, hworking⟩
  rw [Working, hphase] at hworking
  rw [writeStep, hphase]
  refine Moved.worked _ _ hprivate ⟨rfl, rfl⟩ (Or.inl rfl) ?_
  cases answer.error with
  | none => exact hworking
  | some e => exact trivial

theorem moved_closing (hphase : (s.calls i).phase = .closing none) :
    s.Moved destination args i
      (writeStep destination (args i) answer (s.calls i) s.directory) := by
  rw [CallInv, hphase] at h
  rcases h with ⟨hprivate, hworking⟩
  rcases hprivate.temporary with ⟨name, hname⟩
  rw [Working, hphase] at hworking
  rw [writeStep, hphase]
  dsimp only at hworking ⊢
  cases hclose : guardedWrite (answer.unless (.ok ())) with
  | ok u => exact Moved.worked _ _ hprivate ⟨rfl, rfl⟩ (Or.inl rfl) hworking
  | error e =>
      dsimp only
      rw [Call.leave_some hname]
      exact Moved.worked _ _ hprivate ⟨rfl, rfl⟩ (Or.inl rfl) fun he => nomatch he

/-- When the `with` statement is left by an exception, that is what is left of
    the call, whatever closing the stream comes to. -/
theorem moved_failing {raised : PyErr} (hphase : (s.calls i).phase = .closing (some raised)) :
    s.Moved destination args i
      (writeStep destination (args i) answer (s.calls i) s.directory) := by
  rw [CallInv, hphase] at h
  rcases h with ⟨hprivate, -⟩
  rcases hprivate.temporary with ⟨name, hname⟩
  rw [writeStep, hphase]
  dsimp only
  rw [Call.leave_some hname]
  refine Moved.worked _ _ hprivate ⟨rfl, rfl⟩ (Or.inr ⟨_, rfl⟩) fun hok => ?_
  rw [guardedWrite_eq_ok_iff, Answer.unless_eq_ok_iff] at hok
  exact nomatch hok.2

/-- The complete file is linked or takes the destination's place, or the call
    is left with it. -/
theorem moved_publishing (hphase : (s.calls i).phase = .publishing) :
    s.Moved destination args i
      (writeStep destination (args i) answer (s.calls i) s.directory) := by
  rw [CallInv, hphase] at h
  rcases h with ⟨hprivate, hworking⟩
  rcases hprivate.temporary with ⟨name, hname⟩
  rw [Working, hphase] at hworking
  rw [writeStep, hphase, hname]
  dsimp only
  cases hpublish : publish destination (args i).overwrite answer name s.directory with
  | error e =>
      dsimp only
      rw [Call.leave_some hname]
      exact Moved.worked _ _ hprivate ⟨rfl, rfl⟩ (Or.inl rfl) fun he => nomatch he
  | ok d =>
      rcases (publish_eq_ok_iff _ _ _ _ _ _).mp hpublish with ⟨-, file, hfile, hd⟩
      rcases hprivate.staged.named with ⟨name', hname', -, hstream, -⟩
      cases hoverwrite : (args i).overwrite with
      | true =>
          rw [hoverwrite, if_pos rfl] at hd
          subst hd
          dsimp only
          rw [if_pos rfl, Call.leave_none rfl]
          exact Moved.replaced _ name hprivate hworking.1 hworking.2 hname hoverwrite
      | false =>
          rw [hoverwrite, if_neg Bool.false_ne_true] at hd
          rw [hname, Option.some.injEq] at hname'
          rw [← hname', hfile, Option.some.injEq] at hstream
          rcases hd with ⟨hfree, rfl⟩
          dsimp only
          rw [if_neg Bool.false_ne_true, Call.leave_some hname, hstream]
          exact Moved.linked _ hprivate hworking.1 hworking.2 hfree

theorem moved_cleaning {outcome : Except PyErr Unit}
    (hphase : (s.calls i).phase = .cleaning outcome) :
    s.Moved destination args i
      (writeStep destination (args i) answer (s.calls i) s.directory) := by
  rw [CallInv, hphase] at h
  rcases h with ⟨hstaged, hpublished⟩
  rcases hstaged.named with ⟨name, hname, -⟩
  rw [writeStep, hphase, hname]
  dsimp only
  cases answer.error with
  | none => exact Moved.removed name outcome hstaged hpublished hname
  | some e => exact Moved.abandoned outcome hstaged hpublished

theorem moved_ended {outcome : Except PyErr Unit} (hphase : (s.calls i).phase = .ended outcome) :
    s.Moved destination args i
      (writeStep destination (args i) answer (s.calls i) s.directory) := by
  have hgone := h
  rw [CallInv, hphase] at hgone
  rw [writeStep, hphase]
  exact Moved.rested outcome hgone hphase

end Phases

/-- Every step of a call is one of these. -/
theorem moved_writeStep (h : s.CallInv destination args i) {answer : Answer Name}
    (ha : s.Allows destination answer) :
    s.Moved destination args i
      (writeStep destination (args i) answer (s.calls i) s.directory) := by
  cases hphase : (s.calls i).phase with
  | serializing => exact moved_serializing h hphase
  | creating => exact moved_creating h ha hphase
  | writing => exact moved_writing h hphase
  | flushing => exact moved_flushing h hphase
  | syncing => exact moved_syncing h hphase
  | closing raised =>
      cases raised with
      | none => exact moved_closing h hphase
      | some e => exact moved_failing h hphase
  | publishing => exact moved_publishing h hphase
  | cleaning outcome => exact moved_cleaning h hphase
  | ended outcome => exact moved_ended h hphase

end Moves

section Frame

variable [DecidableEq ι]

/-- What a step of a call leaves alone: everything but its own files, new
    entries for them, and the destination. -/
structure Leaves (s s' : System ι Name) (i : ι) : Prop where
  kept : ∀ name file, s.directory.entry name = some file → s.creator file ≠ some i →
    name ≠ destination → s'.directory.entry name = some file
  entries : ∀ name file, s'.directory.entry name = some file →
    s.directory.entry name = some file ∨ s'.creator file = some i
  content : ∀ file, file < s.directory.files → s.creator file ≠ some i →
    s'.directory.content file = s.directory.content file
  creator : ∀ file, s'.creator file = s.creator file ∨
    s.directory.files ≤ file ∧ file < s'.directory.files ∧ s'.creator file = some i
  files : s.directory.files ≤ s'.directory.files
  calls : ∀ j, j ≠ i → s'.calls j = s.calls j
  events : ∀ j event, j ≠ i → ((j, event) ∈ s'.events ↔ (j, event) ∈ s.events)

variable {destination args} {s : System ι Name} {i : ι}

/-- A step whose directory is as it should be leaves the rest alone. -/
theorem leaves_after {done : WriteStep Name}
    (hkept : ∀ name file, s.directory.entry name = some file → s.creator file ≠ some i →
      name ≠ destination → done.directory.entry name = some file)
    (hentries : ∀ name file, done.directory.entry name = some file →
      s.directory.entry name = some file ∨ s.creator file = some i ∨
        s.directory.files ≤ file ∧ file < done.directory.files)
    (hcreators : ∀ file, s.creator file = some i → file < s.directory.files)
    (hcontent : ∀ file, file < s.directory.files → s.creator file ≠ some i →
      done.directory.content file = s.directory.content file)
    (hfiles : s.directory.files ≤ done.directory.files) :
    Leaves destination s (s.after i done) i where
  kept := hkept
  entries name file h := by
    rcases hentries name file h with h | h | h
    · exact Or.inl h
    · have hlt := hcreators file h
      refine Or.inr ?_
      change (if _ then _ else _) = _
      rw [if_neg (by omega), h]
    · refine Or.inr ?_
      change (if _ then _ else _) = _
      rw [if_pos h]
  content := hcontent
  creator file := by
    change (if _ then _ else _) = _ ∨ _ ∧ _ ∧ (if _ then _ else _) = _
    -- A file numbered during the step is the call's; every other keeps its creator.
    by_cases h : s.directory.files ≤ file ∧ file < done.directory.files
    · rw [if_pos h]
      exact Or.inr ⟨h.1, h.2, rfl⟩
    · rw [if_neg h]
      exact Or.inl rfl
  files := hfiles
  calls j hj := Function.update_of_ne hj _ _
  events j event hj := by
    change (j, event) ∈ s.events ++ _ ↔ _
    rw [List.mem_append, or_iff_left]
    intro h
    -- The events that are added are those of this call.
    rcases List.mem_map.mp h with ⟨event', -, heq⟩
    exact hj (congrArg Prod.fst heq).symm

variable [DecidableEq Name]

/-- Creating a file under a free name leaves the rest alone. -/
theorem leaves_create {call : Call Name} {event : Option WriteEvent} {name : Name}
    (hcreators : ∀ file, s.creator file = some i → file < s.directory.files)
    (free : s.directory.entry name = none) :
    Leaves destination s (s.after i ⟨call, s.directory.create name, event⟩) i := by
  refine leaves_after ?_ ?_ hcreators ?_ (Nat.le_succ _)
  · intro other file hentry _ _
    -- The name was free, so no entry is hidden by the new one.
    have hother : other ≠ name := by
      rintro rfl
      exact nomatch free.symm.trans hentry
    rw [Directory.entry_create, if_neg hother]
    exact hentry
  · intro other file hentry
    rw [Directory.entry_create] at hentry
    split at hentry
    · have hfile := Option.some.inj hentry
      exact Or.inr (Or.inr ⟨hfile.le, hfile ▸ Nat.lt_succ_self _⟩)
    · exact Or.inl hentry
  · intro file hlt _
    rw [Directory.content_create, if_neg (Nat.ne_of_lt hlt)]

/-- Linking a call's own file to the destination leaves the rest alone. -/
theorem leaves_link {call : Call Name} {event : Option WriteEvent} {stream : Nat}
    (hcreators : ∀ file, s.creator file = some i → file < s.directory.files)
    (hown : s.creator stream = some i) :
    Leaves destination s (s.after i ⟨call, s.directory.link stream destination, event⟩) i := by
  refine leaves_after ?_ ?_ hcreators (fun _ _ _ => rfl) le_rfl
  · intro other file hentry _ hother
    rw [Directory.entry_link, if_neg hother]
    exact hentry
  · intro other file hentry
    rw [Directory.entry_link] at hentry
    split at hentry
    · exact Or.inr (Or.inl ((Option.some.inj hentry) ▸ hown))
    · exact Or.inl hentry

/-- Renaming a call's own file to the destination leaves the rest alone. -/
theorem leaves_rename {call : Call Name} {event : Option WriteEvent} {name : Name} {stream : Nat}
    (hcreators : ∀ file, s.creator file = some i → file < s.directory.files)
    (hentry : s.directory.entry name = some stream) (hown : s.creator stream = some i)
    (hdiffer : s.directory.entry name ≠ s.directory.entry destination) :
    Leaves destination s (s.after i ⟨call, s.directory.rename name destination, event⟩) i := by
  have hrename := Directory.entry_rename hdiffer
  refine leaves_after ?_ ?_ hcreators (fun _ _ _ => by rw [Directory.content_rename])
    (by rw [Directory.files_rename])
  · intro other file hother hforeign hdest
    -- The name that goes away is that of the call's own file.
    have hsource : other ≠ name := by
      rintro rfl
      rw [hentry, Option.some.injEq] at hother
      exact hforeign (hother ▸ hown)
    rw [hrename, if_neg hsource, if_neg hdest]
    exact hother
  · intro other file hother
    rw [hrename] at hother
    split at hother
    · exact nomatch hother
    · split at hother
      -- The destination now stands for that file.
      · rw [hentry, Option.some.injEq] at hother
        exact Or.inr (Or.inl (hother ▸ hown))
      · exact Or.inl hother

/-- Removing the name of a call's own file leaves the rest alone. -/
theorem leaves_unlink {call : Call Name} {event : Option WriteEvent} {name : Name} {stream : Nat}
    (hcreators : ∀ file, s.creator file = some i → file < s.directory.files)
    (hentry : s.directory.entry name = some stream) (hown : s.creator stream = some i) :
    Leaves destination s (s.after i ⟨call, s.directory.unlink name, event⟩) i := by
  refine leaves_after ?_ ?_ hcreators (fun _ _ _ => rfl) le_rfl
  · intro other file hother hforeign _
    -- Only the name of the call's own file goes away.
    have hsource : other ≠ name := by
      rintro rfl
      rw [hentry, Option.some.injEq] at hother
      exact hforeign (hother ▸ hown)
    rw [Directory.entry_unlink, if_neg hsource]
    exact hother
  · intro other file hother
    rw [Directory.entry_unlink] at hother
    split at hother
    · exact nomatch hother
    · exact Or.inl hother

/-- What a step of a call leaves alone. -/
theorem Moved.leaves {done : WriteStep Name} (h : s.Moved destination args i done)
    (hcreators : ∀ file, s.creator file = some i → file < s.directory.files) :
    Leaves destination s (s.after i done) i := by
  have hsame : ∀ {call : Call Name} {event : Option WriteEvent},
      Leaves destination s (s.after i ⟨call, s.directory, event⟩) i := fun {_ _} =>
    leaves_after (fun _ _ h _ _ => h) (fun _ _ h => Or.inl h) hcreators (fun _ _ _ => rfl) le_rfl
  cases h with
  | begun text fresh htext => exact hsame
  | refused e fresh => exact hsame
  | created name fresh htext free hne => exact leaves_create hcreators free
  | worked call d hprivate hcall hd hworking =>
      rcases hd with rfl | ⟨text, rfl⟩
      · exact hsame
      · -- Only the content of the call's own file is new.
        refine leaves_after (fun _ _ h _ _ => h) (fun _ _ h => Or.inl h) hcreators ?_ le_rfl
        intro file _ hcreator
        rw [Directory.content_put, if_neg]
        rintro rfl
        exact hcreator ((hprivate.staged.created _).mpr rfl)
  | linked text hprivate htext hcontent free =>
      exact leaves_link hcreators ((hprivate.staged.created _).mpr rfl)
  | replaced text name hprivate htext hcontent hname hoverwrite =>
      rcases hprivate.staged.own hname with ⟨hentry, -, hcreator⟩
      exact leaves_rename hcreators hentry hcreator (hprivate.ne_destination hname)
  | removed name outcome hstaged hpublished hname =>
      rcases hstaged.own hname with ⟨hentry, -, hcreator⟩
      exact leaves_unlink hcreators hentry hcreator
  | abandoned outcome hstaged hpublished => exact hsame
  | rested outcome hgone hphase => exact hsame

end Frame

section Own

variable {destination args} {s : System ι Name} {i : ι}

/-- A call that works on its file is at one of the places where it may. -/
theorem callInv_of_working (hprivate : s.Private destination i)
    (hworking : Working (args i) (s.calls i) s.directory) : s.CallInv destination args i := by
  unfold CallInv
  cases hphase : (s.calls i).phase with
  | serializing | creating | ended outcome =>
      rw [Working, hphase] at hworking
      exact hworking.elim
  | writing | flushing | syncing | closing raised | publishing => exact ⟨hprivate, hworking⟩
  | cleaning outcome =>
      rw [Working, hphase] at hworking
      refine ⟨⟨?_, hprivate.staged.created⟩, iff_of_false hworking hprivate.unpublished⟩
      rcases hprivate.staged.named with ⟨name, hname, hne, hentry, honly⟩
      exact ⟨name, hname, hne, hentry, fun other h => (honly other h).imp_right False.elim⟩

variable [DecidableEq ι] {call : Call Name} {d : Directory Name} {event : Option WriteEvent}

theorem calls_after : (s.after i ⟨call, d, event⟩).calls i = call :=
  Function.update_self _ _ _

theorem published_after : (s.after i ⟨call, d, event⟩).published =
    s.published ++ if event = some .published then [i] else [] := by
  unfold published
  change (s.events ++ _).filterMap _ = _
  rw [List.filterMap_append]
  congr 1
  cases event with
  | none => rfl
  | some event =>
      cases event with
      | published => rfl
      | abandoned => rfl

theorem mem_published_after (h : event ≠ some .published) :
    i ∈ (s.after i ⟨call, d, event⟩).published ↔ i ∈ s.published := by
  rw [published_after, if_neg h, List.append_nil]

/-- Without new files nobody becomes a creator. -/
theorem creator_after (h : d.files = s.directory.files) (file : Nat) :
    (s.after i ⟨call, d, event⟩).creator file = s.creator file := by
  change (if _ ∧ file < d.files then _ else _) = _
  rw [if_neg (by omega)]

/-- A call keeps its file as long as the names it has stay the same. -/
theorem Staged.after {Other : Name → Prop} (h : s.Staged destination i Other)
    (htemporary : call.temporary = (s.calls i).temporary)
    (hstream : call.stream = (s.calls i).stream) (hentry : d.entry = s.directory.entry)
    (hfiles : d.files = s.directory.files) :
    (s.after i ⟨call, d, event⟩).Staged destination i Other where
  named := by
    change ∃ name, ((s.after i ⟨call, d, event⟩).calls i).temporary = some name ∧ _ ∧
      d.entry name = _ ∧ ∀ other, d.entry other = _ → _
    rw [calls_after, htemporary, hstream, hentry]
    exact h.named
  created file := by
    rw [creator_after hfiles, calls_after, hstream]
    exact h.created file

variable [DecidableEq Name]

/-- A call that has created its file is the only one to know it. -/
theorem Fresh.callInv_create (fresh : s.Fresh i) {name : Name}
    (htext : (args i).envelope.serialized = .ok (s.calls i).serialized) (hne : name ≠ destination)
    (hentries : ∀ name file, s.directory.entry name = some file → file < s.directory.files) :
    (s.after i ⟨{ s.calls i with
      phase := .writing
      temporary := some name
      stream := s.directory.files }, s.directory.create name, none⟩).CallInv destination args i := by
  unfold CallInv
  rw [calls_after]
  refine ⟨⟨⟨⟨name, ?_, hne, ?_, fun other hother => Or.inl ?_⟩, fun file => ?_⟩, ?_⟩, ?_⟩
  · rw [calls_after]
  · rw [calls_after]
    exact (Directory.entry_create _ _ _).trans (if_pos rfl)
  · rw [calls_after] at hother
    change (s.directory.create name).entry other = some s.directory.files at hother
    rw [Directory.entry_create] at hother
    -- No entry stands for a file that is only now created.
    by_contra hdiffer
    rw [if_neg hdiffer] at hother
    exact Nat.lt_irrefl _ (hentries other _ hother)
  · rw [calls_after]
    change (if s.directory.files ≤ file ∧ file < s.directory.files + 1 then _ else _) = _ ↔
      file = s.directory.files
    by_cases hfile : file = s.directory.files
    · rw [if_pos (by omega)]
      exact iff_of_true rfl hfile
    · rw [if_neg (by omega)]
      exact iff_of_false (fresh.created file) hfile
  · rw [mem_published_after (by decide)]
    exact fresh.unpublished
  · exact htext

/-- A call that has linked its file has published, and has yet to remove the
    temporary name. -/
theorem Private.callInv_link (hprivate : s.Private destination i) :
    (s.after i ⟨{ s.calls i with phase := .cleaning (.ok ()) },
      s.directory.link (s.calls i).stream destination, some .published⟩).CallInv destination
        args i := by
  rcases hprivate.staged.named with ⟨name, hname, hne, hentry, honly⟩
  unfold CallInv
  rw [calls_after]
  refine ⟨⟨⟨name, ?_, hne, ?_, fun other hother => ?_⟩, fun file => ?_⟩, ?_⟩
  · rw [calls_after]
    exact hname
  · rw [calls_after]
    exact (Directory.entry_link _ _ _ _).trans ((if_neg hne).trans hentry)
  · rw [calls_after] at hother
    -- The destination is the only new name of the file.
    by_cases hdest : other = destination
    · exact Or.inr hdest
    · have hold := (Directory.entry_link _ _ _ _).symm.trans hother
      rw [if_neg hdest] at hold
      exact (honly other hold).imp_right False.elim
  · rw [creator_after (d := s.directory.link (s.calls i).stream destination) rfl, calls_after]
    exact hprivate.staged.created file
  · rw [published_after, if_pos rfl]
    exact iff_of_true rfl (List.mem_append_right _ (List.mem_singleton_self i))

/-- A call that has renamed its file has published, and has nothing to remove. -/
theorem Private.callInv_rename (hprivate : s.Private destination i) {name : Name}
    (hname : (s.calls i).temporary = some name) :
    (s.after i ⟨{ s.calls i with phase := .ended (.ok ()), temporary := none },
      s.directory.rename name destination, some .published⟩).CallInv destination args i := by
  rcases hprivate.staged.named with ⟨name', hname', -, -, honly⟩
  rw [hname, Option.some.injEq] at hname'
  subst hname'
  unfold CallInv
  rw [calls_after]
  refine ⟨?_, ?_, fun other file hother hcreator => Or.inl ?_⟩
  · rw [calls_after]
  · rw [published_after, if_pos rfl]
    exact iff_of_true rfl (List.mem_append_right _ (List.mem_singleton_self i))
  · rw [creator_after (Directory.files_rename _ _ _), hprivate.staged.created] at hcreator
    have hrename := Directory.entry_rename (hprivate.ne_destination hname) other
    -- A name other than the destination stood for the file before, and was the temporary one.
    by_contra hdest
    rw [if_neg hdest] at hrename
    have hold := hrename.symm.trans hother
    split at hold
    · exact nomatch hold
    · next hsource =>
        rw [hcreator] at hold
        rcases honly other hold with h | h
        · exact hsource h
        · exact h

/-- A call that has removed the temporary name leaves its file to the
    destination at most. -/
theorem Staged.callInv_unlink (hstaged : s.Staged destination i fun name => name = destination)
    {outcome : Except PyErr Unit} (hpublished : outcome = .ok () ↔ i ∈ s.published) {name : Name}
    (hname : (s.calls i).temporary = some name) :
    (s.after i ⟨{ s.calls i with phase := .ended outcome, temporary := none },
      s.directory.unlink name, none⟩).CallInv destination args i := by
  rcases hstaged.named with ⟨name', hname', -, -, honly⟩
  rw [hname, Option.some.injEq] at hname'
  subst hname'
  unfold CallInv
  rw [calls_after]
  refine ⟨?_, ?_, fun other file hother hcreator => Or.inl ?_⟩
  · rw [calls_after]
  · rw [mem_published_after (by decide)]
    exact hpublished
  · rw [creator_after (d := s.directory.unlink name) rfl, hstaged.created] at hcreator
    -- What still stands for the file is the destination.
    have hold := (Directory.entry_unlink _ _ _).symm.trans hother
    split at hold
    · exact nomatch hold
    · next hsource =>
        rw [hcreator] at hold
        exact (honly other hold).resolve_left hsource

/-- What a step of a call keeps of what holds of the call. -/
theorem Moved.callInv {done : WriteStep Name} (h : s.Moved destination args i done)
    (hentries : ∀ name file, s.directory.entry name = some file → file < s.directory.files) :
    (s.after i done).CallInv destination args i := by
  cases h with
  | begun text fresh htext =>
      unfold CallInv
      rw [calls_after]
      refine ⟨⟨?_, fun file => ?_, ?_⟩, htext⟩
      · rw [calls_after]
        exact fresh.temporary
      · rw [creator_after rfl]
        exact fresh.created file
      · rw [mem_published_after (by decide)]
        exact fresh.unpublished
  | refused e fresh =>
      unfold CallInv
      rw [calls_after]
      refine ⟨?_, ?_, fun name file _ hcreator => ?_⟩
      · rw [calls_after]
        exact fresh.temporary
      · rw [mem_published_after (by decide)]
        exact iff_of_false (fun h => nomatch h) fresh.unpublished
      · rw [creator_after rfl] at hcreator
        exact absurd hcreator (fresh.created file)
  | created name fresh htext free hne => exact fresh.callInv_create htext hne hentries
  | worked call d hprivate hcall hd hworking =>
      -- Writing to the file changes no entry and adds no file.
      have hsame : d.entry = s.directory.entry ∧ d.files = s.directory.files := by
        rcases hd with rfl | ⟨text, rfl⟩
        · exact ⟨rfl, rfl⟩
        · exact ⟨rfl, rfl⟩
      refine callInv_of_working ⟨hprivate.staged.after hcall.1 hcall.2 hsame.1 hsame.2, ?_⟩ ?_
      · rw [mem_published_after (by decide)]
        exact hprivate.unpublished
      · rw [calls_after]
        exact hworking
  | linked text hprivate htext hcontent free => exact hprivate.callInv_link
  | replaced text name hprivate htext hcontent hname hoverwrite =>
      exact hprivate.callInv_rename hname
  | removed name outcome hstaged hpublished hname =>
      exact hstaged.callInv_unlink hpublished hname
  | abandoned outcome hstaged hpublished =>
      unfold CallInv
      rw [calls_after]
      refine ⟨?_, ?_, fun other file _ _ => Or.inr ?_⟩
      · rw [calls_after]
      · rw [mem_published_after (by decide)]
        exact hpublished
      -- The event says that the file was left behind.
      · exact List.mem_append_right _ (List.mem_singleton_self _)
  | rested outcome hgone hphase =>
      unfold CallInv
      rw [calls_after, hphase]
      refine ⟨?_, ?_, fun name file hentry hcreator => ?_⟩
      · rw [calls_after]
        exact hgone.temporary
      · rw [mem_published_after (by decide)]
        exact hgone.published
      · rw [creator_after rfl] at hcreator
        exact (hgone.removed name file hentry hcreator).imp_right
          fun h => List.mem_append_left _ h

/-- A step of a call leaves the destination as it is, or makes the call's
    complete file the destination's. -/
theorem Moved.publication {done : WriteStep Name} (h : s.Moved destination args i done)
    (hentries : ∀ name file, s.directory.entry name = some file → file < s.directory.files) :
    ((s.after i done).published = s.published ∧
      done.directory.entry destination = s.directory.entry destination ∧
      ∀ file, s.directory.entry destination = some file →
        done.directory.content file = s.directory.content file) ∨
    ((s.after i done).published = s.published ++ [i] ∧ i ∉ s.published ∧
      ((args i).overwrite = false → s.directory.entry destination = none) ∧
      ∃ file text, done.directory.entry destination = some file ∧
        (s.after i done).creator file = some i ∧ (args i).envelope.fileBytes = .ok text ∧
        done.directory.content file = text) := by
  have hsame : ∀ {call : Call Name} {event : Option WriteEvent} (d : Directory Name),
      event ≠ some .published → (s.after i ⟨call, d, event⟩).published = s.published :=
    fun {_ _} d hevent => by rw [published_after, if_neg hevent, List.append_nil]
  cases h with
  | begun text fresh htext => exact Or.inl ⟨hsame _ (by decide), rfl, fun _ _ => rfl⟩
  | refused e fresh => exact Or.inl ⟨hsame _ (by decide), rfl, fun _ _ => rfl⟩
  | created name fresh htext free hne =>
      refine Or.inl ⟨hsame _ (by decide), ?_, fun file hfile => ?_⟩
      -- The temporary name is not the destination, and its file is new.
      · rw [Directory.entry_create, if_neg hne.symm]
      · rw [Directory.content_create, if_neg (Nat.ne_of_lt (hentries _ _ hfile))]
  | worked call d hprivate hcall hd hworking =>
      rcases hd with rfl | ⟨text, rfl⟩
      · exact Or.inl ⟨hsame _ (by decide), rfl, fun _ _ => rfl⟩
      · refine Or.inl ⟨hsame _ (by decide), rfl, fun file hfile => ?_⟩
        -- The destination does not stand for the call's file, which is still private.
        rcases hprivate.temporary with ⟨name, hname⟩
        rw [Directory.content_put, if_neg]
        rintro rfl
        exact hprivate.ne_destination hname ((hprivate.staged.own hname).1.trans hfile.symm)
  | linked text hprivate htext hcontent free =>
      -- A link fails where there is an entry, whether the call overwrites or not.
      refine Or.inr ⟨?_, hprivate.unpublished, fun _ => free, (s.calls i).stream, text, ?_, ?_,
        htext, hcontent⟩
      · rw [published_after, if_pos rfl]
      · rw [Directory.entry_link, if_pos rfl]
      · rw [creator_after (d := s.directory.link (s.calls i).stream destination) rfl]
        exact (hprivate.staged.created _).mpr rfl
  | replaced text name hprivate htext hcontent hname hoverwrite =>
      -- A rename takes place of what was there, which only a call that overwrites does.
      rcases hprivate.staged.own hname with ⟨hentry, hne, hcreator⟩
      refine Or.inr ⟨?_, hprivate.unpublished, fun hno => (nomatch hno.symm.trans hoverwrite),
        (s.calls i).stream, text, ?_, ?_, htext, ?_⟩
      · rw [published_after, if_pos rfl]
      · rw [Directory.entry_rename (hprivate.ne_destination hname), if_neg hne.symm, if_pos rfl]
        exact hentry
      · rw [creator_after (Directory.files_rename _ _ _)]
        exact hcreator
      · rw [Directory.content_rename]
        exact hcontent
  | removed name outcome hstaged hpublished hname =>
      refine Or.inl ⟨hsame _ (by decide), ?_, fun _ _ => rfl⟩
      rw [Directory.entry_unlink, if_neg (hstaged.own hname).2.1.symm]
  | abandoned outcome hstaged hpublished =>
      exact Or.inl ⟨hsame _ (by decide), rfl, fun _ _ => rfl⟩
  | rested outcome hgone hphase => exact Or.inl ⟨hsame _ (by decide), rfl, fun _ _ => rfl⟩

end Own

section Others

/-- A change that a call does not notice. -/
structure Respects (s s' : System ι Name) (j : ι) : Prop where
  call : s'.calls j = s.calls j
  created : ∀ file, s'.creator file = some j ↔ s.creator file = some j
  held : ∀ name file, (s.calls j).temporary = some name → name ≠ destination →
    s.directory.entry name = some file → s.creator file = some j →
    s'.directory.entry name = some file ∧ s'.directory.content file = s.directory.content file
  entries : ∀ name file, s'.directory.entry name = some file → s.creator file = some j →
    s.directory.entry name = some file
  published : j ∈ s'.published ↔ j ∈ s.published
  abandoned : s.Abandoned j → s'.Abandoned j

variable {destination args} {s s' : System ι Name} {j : ι}

theorem Staged.respected {Other : Name → Prop} (h : s.Staged destination j Other)
    (hr : Respects destination s s' j) : s'.Staged destination j Other where
  named := by
    rcases h.named with ⟨name, hname, hne, hentry, honly⟩
    have hcreator := (h.created _).mpr rfl
    rw [hr.call]
    exact ⟨name, hname, hne, (hr.held name _ hname hne hentry hcreator).1,
      fun other hother => honly other (hr.entries other _ hother hcreator)⟩
  created file := by
    rw [hr.created, hr.call]
    exact h.created file

/-- What holds of a call holds after a change that it does not notice. -/
theorem CallInv.respected (h : s.CallInv destination args j)
    (hr : Respects destination s s' j) : s'.CallInv destination args j := by
  have hfresh : s.Fresh j → s'.Fresh j := fun hf =>
    ⟨by rw [hr.call]; exact hf.temporary, fun file hfile => hf.created file ((hr.created file).mp hfile),
      fun hp => hf.unpublished (hr.published.mp hp)⟩
  unfold CallInv at h ⊢
  rw [hr.call]
  cases hphase : (s.calls j).phase with
  | serializing =>
      rw [hphase] at h
      exact hfresh h
  | creating =>
      rw [hphase] at h
      exact ⟨hfresh h.1, h.2⟩
  | writing | flushing | syncing | closing raised | publishing =>
      rw [hphase] at h
      rcases h with ⟨hprivate, hworking⟩
      refine ⟨⟨hprivate.staged.respected hr, fun hp => hprivate.unpublished (hr.published.mp hp)⟩, ?_⟩
      -- The file of the call is held under its temporary name, so its content is the same.
      rcases hprivate.temporary with ⟨name, hname⟩
      rcases hprivate.staged.own hname with ⟨hentry, hne, hcreator⟩
      exact hworking.congr (hr.held name _ hname hne hentry hcreator).2
  | cleaning outcome =>
      rw [hphase] at h
      exact ⟨h.1.respected hr, h.2.trans hr.published.symm⟩
  | ended outcome =>
      rw [hphase] at h
      refine ⟨by rw [hr.call]; exact h.temporary, h.published.trans hr.published.symm,
        fun name file hentry hcreator => ?_⟩
      rw [hr.created] at hcreator
      exact (h.removed name file (hr.entries name file hentry hcreator) hcreator).imp_right
        hr.abandoned

/-- A call has published when that has been noted of it. -/
theorem mem_published : j ∈ s.published ↔ (j, .published) ∈ s.events := by
  unfold published
  rw [List.mem_filterMap]
  constructor
  · rintro ⟨⟨k, event⟩, hmem, hevent⟩
    dsimp only at hevent
    split at hevent
    · next hpublished =>
        rw [← Option.some.inj hevent, ← hpublished]
        exact hmem
    · exact nomatch hevent
  · exact fun h => ⟨_, h, if_pos rfl⟩

variable {s₀ : System ι Name} {i : ι}

/-- Other calls do not notice a step of a call. -/
theorem Leaves.respects (h : Leaves destination s s' i) (hinv : Inv destination args s₀ s)
    (hj : j ≠ i) : Respects destination s s' j where
  call := h.calls j hj
  created file := by
    rcases h.creator file with hsame | ⟨hfile, -, hi⟩
    · rw [hsame]
    -- A file made by the step is not one of this call's.
    · refine iff_of_false (fun hj' => ?_) fun hj' => ?_
      · exact hj (Option.some.inj (hj'.symm.trans hi))
      · exact Nat.lt_irrefl _ (Nat.lt_of_le_of_lt hfile (hinv.creators file j hj'))
  held name file _ hne hentry hcreator := by
    -- The step does not touch the files of others.
    have hforeign : s.creator file ≠ some i := by
      rw [hcreator]
      exact fun h => hj (Option.some.inj h)
    exact ⟨h.kept name file hentry hforeign hne,
      h.content file (hinv.entries name file hentry) hforeign⟩
  entries name file hentry hcreator := by
    refine (h.entries name file hentry).resolve_right fun hi => ?_
    rcases h.creator file with hsame | ⟨hfile, -, -⟩
    · exact hj (Option.some.inj (hcreator.symm.trans (hsame.symm.trans hi)))
    · exact Nat.lt_irrefl _ (Nat.lt_of_le_of_lt hfile (hinv.creators file j hcreator))
  published := by
    rw [mem_published, mem_published]
    exact h.events j _ hj
  abandoned := (h.events j _ hj).mpr

/-- No call notices what the others may do. -/
theorem Permits.respects {d : Directory Name} (h : s.Permits destination d) :
    Respects destination s { s with directory := d } j where
  call := rfl
  created _ := Iff.rfl
  held name file hname _ hentry _ := by
    rcases h.untouched name (Or.inr ⟨j, hname⟩) with ⟨hsame, hlookup⟩
    have hentry' : d.entry name = some file := hsame.trans hentry
    rw [Directory.lookup_of_entry hentry, Directory.lookup_of_entry hentry'] at hlookup
    exact ⟨hentry', Option.some.inj hlookup⟩
  entries name file hentry hcreator := by
    by_contra hnew
    exact nomatch hcreator.symm.trans (h.entries name file hentry hnew).1
  published := Iff.rfl
  abandoned := id

end Others

section Runs

variable {destination args} {s₀ s s' : System ι Name}

/-- What others do keeps the invariant. -/
theorem Inv.others {d : Directory Name} (hinv : Inv destination args s₀ s)
    (h : s.Permits destination d) : Inv destination args s₀ { s with directory := d } := by
  rcases h.untouched destination (Or.inl rfl) with ⟨hentry, hlookup⟩
  refine ⟨fun name file hfile => ?_, fun file i hi => ?_, fun j =>
    (hinv.calls j).respected h.respects, hinv.nodup, ?_⟩
  -- Entries are old ones, or stand for files that are numbered from here on.
  · by_cases hold : s.directory.entry name = some file
    · exact Nat.lt_of_lt_of_le (hinv.entries name file hold) h.files
    · exact (h.entries name file hfile hold).2
  · exact Nat.lt_of_lt_of_le (hinv.creators file i hi) h.files
  -- The destination is not touched, so it holds what it held.
  · have hdest := hinv.destination
    have hsame : ({ s with directory := d } : System ι Name).published = s.published := rfl
    unfold DestinationInv at hdest ⊢
    rw [hsame]
    cases hlast : s.published.getLast? with
    | none =>
        rw [hlast] at hdest
        rcases hdest with ⟨hsame, hsame', hnone⟩
        exact ⟨hentry.trans hsame, hlookup.trans hsame', fun file hfile =>
          hnone file (hentry.symm.trans hfile)⟩
    | some i =>
        rw [hlast] at hdest
        rcases hdest with ⟨file, text, hfile, hcreator, htext, hcontent⟩
        have hfile' : d.entry destination = some file := hentry.trans hfile
        rw [Directory.lookup_of_entry hfile, Directory.lookup_of_entry hfile'] at hlookup
        exact ⟨file, text, hfile', hcreator, htext, (Option.some.inj hlookup).trans hcontent⟩

/-- The invariant holds when no call has begun. -/
theorem Initial.inv (h : s₀.Initial) : Inv destination args s₀ s₀ := by
  have hpublished : s₀.published = [] := by
    rw [published, h.events]
    rfl
  refine ⟨h.entries, fun file i hi => ?_, fun i => ?_, ?_, ?_⟩
  · exact nomatch (h.creator file).symm.trans hi
  -- Every call has yet to begin.
  · unfold CallInv
    rw [h.calls i]
    refine ⟨?_, fun file hi => ?_, ?_⟩
    · rw [h.calls i]
      rfl
    · exact nomatch (h.creator file).symm.trans hi
    · rw [hpublished]
      exact List.not_mem_nil
  · rw [hpublished]
    exact List.nodup_nil
  · unfold DestinationInv
    rw [hpublished]
    exact ⟨rfl, rfl, fun file _ => h.creator file⟩

/-- What is published stands at the destination. -/
theorem Inv.entry_ne_none (hinv : Inv destination args s₀ s) (h : s.published ≠ []) :
    s.directory.entry destination ≠ none := by
  have hdest := hinv.destination
  unfold DestinationInv at hdest
  rw [List.getLast?_eq_some_getLast h] at hdest
  rcases hdest with ⟨file, -, hfile, -⟩
  rw [hfile]
  exact Option.some_ne_none file

variable [DecidableEq ι] [DecidableEq Name]

/-- The destination after a step of a call. -/
theorem destinationInv_after {i : ι} {done : WriteStep Name} (hinv : Inv destination args s₀ s)
    (h : s.Moved destination args i done) : DestinationInv destination args s₀ (s.after i done) := by
  have hleaves := h.leaves fun file hi => hinv.creators file i hi
  rcases h.publication hinv.entries with ⟨hpublished, hentry, hcontent⟩ |
    ⟨hpublished, -, -, hfile⟩
  · -- The destination is as it was, and its file is too old to be the call's.
    have hcreator : ∀ file, s.directory.entry destination = some file →
        (s.after i done).creator file = s.creator file := fun file hfile =>
      (hleaves.creator file).resolve_right fun hnew =>
        Nat.lt_irrefl _ (Nat.lt_of_le_of_lt hnew.1 (hinv.entries _ _ hfile))
    have hdest := hinv.destination
    unfold DestinationInv at hdest ⊢
    rw [hpublished]
    cases hlast : s.published.getLast? with
    | none =>
        rw [hlast] at hdest
        rcases hdest with ⟨hsame, hlookup, hnone⟩
        refine ⟨hentry.trans hsame, ?_, fun file hfile => ?_⟩
        · rw [← hlookup]
          exact Directory.lookup_congr hentry hcontent
        · have hfile' := hentry.symm.trans hfile
          rw [hcreator file hfile']
          exact hnone file hfile'
    | some k =>
        rw [hlast] at hdest
        rcases hdest with ⟨file, text, hfile, hk, htext, hold⟩
        exact ⟨file, text, hentry.trans hfile, (hcreator file hfile).trans hk, htext,
          (hcontent file hfile).trans hold⟩
  -- The call has published, so it is the last one that did.
  · unfold DestinationInv
    rw [hpublished, List.getLast?_append, List.getLast?_singleton]
    exact hfile

/-- A step of a call keeps the invariant. -/
theorem Inv.call (hinv : Inv destination args s₀ s) {i : ι} {answer : Answer Name}
    (h : s.Allows destination answer) :
    Inv destination args s₀ (s.advance destination args i answer) := by
  have hmoved := moved_writeStep (hinv.calls i) h
  have hleaves := hmoved.leaves fun file hi => hinv.creators file i hi
  have hcreators : ∀ file j, (s.advance destination args i answer).creator file = some j →
      file < (s.advance destination args i answer).directory.files := by
    intro file j hj
    rcases hleaves.creator file with hsame | ⟨-, hlt, -⟩
    · exact Nat.lt_of_lt_of_le (hinv.creators file j (hsame.symm.trans hj)) hleaves.files
    · exact hlt
  refine ⟨fun name file hfile => ?_, hcreators, fun j => ?_, ?_, ?_⟩
  · rcases hleaves.entries name file hfile with hold | hown
    · exact Nat.lt_of_lt_of_le (hinv.entries name file hold) hleaves.files
    · exact hcreators file i hown
  -- The call itself moves on; the others do not notice.
  · by_cases hj : j = i
    · subst hj
      exact hmoved.callInv hinv.entries
    · exact (hinv.calls j).respected (hleaves.respects hinv hj)
  -- A call publishes once: it has not published before.
  · rcases hmoved.publication hinv.entries with ⟨hpublished, -⟩ | ⟨hpublished, hnew, -⟩
    · exact hpublished ▸ hinv.nodup
    · rw [advance, hpublished]
      exact hinv.nodup.append (List.nodup_singleton i)
        (List.disjoint_singleton.mpr hnew)
  · exact destinationInv_after hinv hmoved

theorem inv_step (hinv : Inv destination args s₀ s) (h : Step destination args s s') :
    Inv destination args s₀ s' := by
  cases h with
  | call i answer hallows => exact hinv.call hallows
  | others d hpermits => exact hinv.others hpermits

theorem inv_run (h : s₀.Initial) (hrun : Run (Step destination args) s₀ s) :
    Inv destination args s₀ s :=
  hrun.invariant (fun _ _ hinv hstep => inv_step hinv hstep) h.inv

/-- A step of a call changes the destination only by publishing the call's
    complete file, and without `overwrite` only where there is none. -/
theorem Inv.publication (hinv : Inv destination args s₀ s) (i : ι) {answer : Answer Name}
    (h : s.Allows destination answer) :
    ((s.advance destination args i answer).published = s.published ∧
      (s.advance destination args i answer).directory.entry destination =
        s.directory.entry destination ∧
      (s.advance destination args i answer).directory.lookup destination =
        s.directory.lookup destination) ∨
    ((s.advance destination args i answer).published = s.published ++ [i] ∧ i ∉ s.published ∧
      ((args i).overwrite = false → s.directory.entry destination = none) ∧
      ∃ text, (args i).envelope.fileBytes = .ok text ∧
        (s.advance destination args i answer).directory.lookup destination = some text) := by
  rcases (moved_writeStep (hinv.calls i) h).publication hinv.entries
    with ⟨hpublished, hentry, hcontent⟩ | ⟨hpublished, hnew, hfree, file, text, hfile, -, htext, hheld⟩
  · exact Or.inl ⟨hpublished, hentry, Directory.lookup_congr hentry hcontent⟩
  · refine Or.inr ⟨hpublished, hnew, hfree, text, htext, ?_⟩
    exact (Directory.lookup_of_entry hfile).trans (congrArg some hheld)

/-- One call has published at most, and only where there was no entry at the
    start. -/
structure PublishedOnce (destination : Name) (args : ι → WriteArgs) (s₀ s : System ι Name) :
    Prop where
  inv : Inv destination args s₀ s
  once : s.published.length ≤ 1
  free : s.published ≠ [] → s₀.directory.entry destination = none

/-- If no call overwrites, one call publishes at most. -/
theorem publishedOnce_step (hoverwrite : ∀ i, (args i).overwrite = false)
    (h : PublishedOnce destination args s₀ s) (hstep : Step destination args s s') :
    PublishedOnce destination args s₀ s' := by
  have hinv' := inv_step h.inv hstep
  cases hstep with
  | others d hpermits => exact ⟨hinv', h.once, h.free⟩
  | call i answer hallows =>
      rcases h.inv.publication i hallows with ⟨hpublished, -⟩ | ⟨hpublished, -, hfree, -⟩
      · refine ⟨hinv', ?_, ?_⟩
        · rw [hpublished]
          exact h.once
        · rw [hpublished]
          exact h.free
      · -- There was no entry, so nothing was published before.
        have hnone := hfree (hoverwrite i)
        have hempty : s.published = [] := by
          by_contra hne
          exact h.inv.entry_ne_none hne hnone
        have hdest := h.inv.destination
        unfold DestinationInv at hdest
        rw [hempty] at hdest
        refine ⟨hinv', ?_, fun _ => hdest.1.symm.trans hnone⟩
        rw [hpublished, hempty]
        exact le_rfl

theorem publishedOnce_run (h : s₀.Initial) (hoverwrite : ∀ i, (args i).overwrite = false)
    (hrun : Run (Step destination args) s₀ s) : PublishedOnce destination args s₀ s := by
  refine hrun.invariant (fun _ _ ht hstep => publishedOnce_step hoverwrite ht hstep) ⟨h.inv, ?_, ?_⟩
  · rw [published, h.events]
    exact Nat.zero_le 1
  · rw [published, h.events]
    exact fun hne => absurd rfl hne

/-- In every run, whatever the order of the steps and whichever of them fail,
    the destination stands for what it stood for at the start or for the
    complete file of one call; a call that returns has published its file, and
    one that raises has not; a call that does not overwrite replaces nothing;
    and the calls leave nothing behind and touch nothing of the others. -/
theorem write_publishes_atomically (destination : Name) (args : ι → WriteArgs)
    {s₀ s : System ι Name} (h : s₀.Initial) (hrun : Run (Step destination args) s₀ s) :
    -- The destination.
    (match s.published.getLast? with
      | none => s.directory.entry destination = s₀.directory.entry destination ∧
          s.directory.lookup destination = s₀.directory.lookup destination
      | some i => ∃ text, (args i).envelope.fileBytes = .ok text ∧
          s.directory.lookup destination = some text) ∧
    -- The calls that have ended.
    (∀ i outcome, (s.calls i).phase = .ended outcome → (outcome = .ok () ↔ i ∈ s.published)) ∧
    -- The step of a call at the destination.
    (∀ i answer, s.Allows destination answer →
      ((s.advance destination args i answer).published = s.published ∧
        (s.advance destination args i answer).directory.entry destination =
          s.directory.entry destination ∧
        (s.advance destination args i answer).directory.lookup destination =
          s.directory.lookup destination) ∨
      ((s.advance destination args i answer).published = s.published ++ [i] ∧ i ∉ s.published ∧
        ((args i).overwrite = false → s.directory.entry destination = none) ∧
        ∃ text, (args i).envelope.fileBytes = .ok text ∧
          (s.advance destination args i answer).directory.lookup destination = some text)) ∧
    -- Calls that do not overwrite.
    ((∀ i, (args i).overwrite = false) →
      (∀ i j, (s.calls i).phase = .ended (.ok ()) → (s.calls j).phase = .ended (.ok ()) → i = j) ∧
      (s₀.directory.entry destination ≠ none → ∀ i, (s.calls i).phase ≠ .ended (.ok ()))) ∧
    -- The temporary files.
    (∀ i outcome, (s.calls i).phase = .ended outcome → ∀ name file,
      s.directory.entry name = some file → s.creator file = some i →
      name = destination ∨ s.Abandoned i) ∧
    -- The entries of everyone else.
    (∀ i answer, s.Allows destination answer → ∀ name file, name ≠ destination →
      s.directory.entry name = some file → s.creator file ≠ some i →
      (s.advance destination args i answer).directory.entry name = some file ∧
        (s.advance destination args i answer).directory.content file =
          s.directory.content file) := by
  have hinv := inv_run h hrun
  -- What an ended call has left is part of the invariant.
  have hgone : ∀ i outcome, (s.calls i).phase = .ended outcome → s.Gone destination i outcome := by
    intro i outcome hphase
    have hcall := hinv.calls i
    unfold CallInv at hcall
    rw [hphase] at hcall
    exact hcall
  have hreturned : ∀ i, (s.calls i).phase = .ended (.ok ()) → i ∈ s.published := fun i hi =>
    (hgone i _ hi).published.mp rfl
  refine ⟨?_, fun i outcome hphase => (hgone i outcome hphase).published,
    fun i answer hallows => hinv.publication i hallows, fun hoverwrite => ?_,
    fun i outcome hphase => (hgone i outcome hphase).removed, ?_⟩
  · have hdest := hinv.destination
    unfold DestinationInv at hdest
    cases hlast : s.published.getLast? with
    | none =>
        rw [hlast] at hdest
        exact ⟨hdest.1, hdest.2.1⟩
    | some i =>
        rw [hlast] at hdest
        rcases hdest with ⟨file, text, hfile, -, htext, hcontent⟩
        exact ⟨text, htext, (Directory.lookup_of_entry hfile).trans (congrArg some hcontent)⟩
  -- At most one call is in the list of those that published.
  · rcases publishedOnce_run h hoverwrite hrun with ⟨-, hlen, hnone⟩
    constructor
    · intro i j hi hj
      have hi' := hreturned i hi
      have hj' := hreturned j hj
      match hlist : s.published with
      | [] =>
          rw [hlist] at hi'
          exact absurd hi' List.not_mem_nil
      | [k] =>
          rw [hlist] at hi' hj'
          rw [List.mem_singleton.mp hi', List.mem_singleton.mp hj']
      | k :: l :: rest =>
          rw [hlist, List.length_cons, List.length_cons] at hlen
          omega
    · intro hexists i hi
      exact hexists (hnone (List.ne_nil_of_mem (hreturned i hi)))
  · intro i answer hallows name file hne hentry hforeign
    have hleaves := (moved_writeStep (hinv.calls i) hallows).leaves
      fun file hi => hinv.creators file i hi
    exact ⟨hleaves.kept name file hentry hforeign hne,
      hleaves.content file (hinv.entries name file hentry) hforeign⟩

end Runs

/-! ### Two calls -/

section Sample

variable [DecidableEq ι] [DecidableEq Name] (destination : Name) (args : ι → WriteArgs)

/-- The system after some operations of its calls. -/
def play (s : System ι Name) (script : List (ι × Answer Name)) : System ι Name :=
  script.foldl (fun s operation => s.advance destination args operation.1 operation.2) s

/-- Every answer of a script can be given. -/
def plays (s : System ι Name) : List (ι × Answer Name) → Bool
  | [] => true
  | (i, answer) :: script =>
      decide (s.directory.entry answer.name = none) && decide (answer.name ≠ destination) &&
        answer.error.all (fun e => e.isA .osError) &&
        plays (s.advance destination args i answer) script

/-- A script whose answers can be given is a run. -/
theorem run_play (script : List (ι × Answer Name)) :
    ∀ s : System ι Name, s.plays destination args script = true →
      Run (Step destination args) s (s.play destination args script) := by
  induction script with
  | nil =>
      intro s _
      exact Relation.ReflTransGen.refl
  | cons operation script ih =>
      intro s h
      rcases operation with ⟨i, answer⟩
      simp only [plays, Bool.and_eq_true, decide_eq_true_eq, Option.all_eq_true] at h
      rcases h with ⟨⟨⟨hfree, hne⟩, herror⟩, hrest⟩
      have hstep : Step destination args s (s.advance destination args i answer) :=
        Step.call i answer ⟨hfree, hne, herror⟩
      exact Relation.ReflTransGen.head hstep (ih _ hrest)

/-- An empty directory. -/
def sampleSystem : System Bool Nat where
  calls _ := Call.start
  directory := ⟨fun _ => none, fun _ => [], 0⟩
  creator _ := none
  events := []

/-- Two calls with different envelopes, neither of which overwrites. -/
def sampleArgs (i : Bool) : WriteArgs :=
  ⟨vectorEnvelope (if i then 0xff else 1), false⟩

/-- Both calls prepare their files, and then publish one after the other. -/
def sampleScript : List (Bool × Answer Nat) :=
  let proceed : Answer Nat := ⟨9, 100000, none⟩
  [(true, proceed), (false, proceed), (true, { proceed with name := 1 }),
    (false, { proceed with name := 2 })] ++
  List.replicate 4 (true, proceed) ++ List.replicate 4 (false, proceed) ++
  [(true, proceed), (false, proceed), (true, proceed), (false, proceed)]

theorem initial_sampleSystem : sampleSystem.Initial where
  calls _ := rfl
  entries _ _ h := nomatch h
  creator _ := rfl
  events := rfl

/-- Of the two calls one returns, the other one is refused, and the destination
    holds the envelope of the first. -/
theorem two_calls_publish_once :
    ((sampleSystem.play 0 sampleArgs sampleScript).calls true).phase = .ended (.ok ()) ∧
      ((sampleSystem.play 0 sampleArgs sampleScript).calls false).phase ≠ .ended (.ok ()) ∧
      ∃ text, (vectorEnvelope 0xff).fileBytes = .ok text ∧
        (sampleSystem.play 0 sampleArgs sampleScript).directory.lookup 0 = some text := by
  have hplays : sampleSystem.plays 0 sampleArgs sampleScript = true := by decide +kernel
  have hended : ((sampleSystem.play 0 sampleArgs sampleScript).calls true).phase =
      .ended (.ok ()) := by
    decide +kernel
  have hpublished : (sampleSystem.play 0 sampleArgs sampleScript).published = [true] := by
    decide +kernel
  have hrun := run_play 0 sampleArgs sampleScript sampleSystem hplays
  -- What the script comes to is known, and need not be computed again.
  generalize sampleSystem.play 0 sampleArgs sampleScript = s at hended hpublished hrun ⊢
  rcases write_publishes_atomically 0 sampleArgs initial_sampleSystem hrun
    with ⟨hdest, -, -, honce, -⟩
  rw [hpublished] at hdest
  exact ⟨hended, fun h => Bool.noConfusion ((honce fun _ => rfl).1 true false hended h), hdest⟩

end Sample

end System

end P2CTools
