import P2CTools.Wire.Bytes
import Mathlib.Logic.Function.Basic

/-!
# Directories

Names, files, and the operations that change what a name stands for.

A name stands for at most one file, and several names may stand for the same
one. A file keeps its number and its content whatever its names are, so a
stream that was opened under a name writes to the file and not to the name.
Each operation is one indivisible change. Whether it is permitted is for the
caller to test, and a failed operation changes nothing.

## Main definitions

* `Directory`: What names stand for and what files hold.
* `Directory.lookup`: The content under a name.
* `create`, `put`, `link`, `rename`, `unlink`: The operations.

## Theorems

* `entry_create`, `entry_link`, `entry_rename`, `entry_unlink`: What the names
  stand for after an operation.
* `content_create`, `content_put`, `content_rename`: What the files hold.
-/

namespace Wire

/-- What names stand for and what files hold. Files are numbered in the order
    in which they are made. -/
structure Directory (Name : Type) where
  entry : Name → Option Nat
  content : Nat → Bytes
  files : Nat

namespace Directory

variable {Name : Type}

/-- The content under a name. -/
def lookup (d : Directory Name) (name : Name) : Option Bytes :=
  (d.entry name).map d.content

theorem lookup_of_entry {d : Directory Name} {name : Name} {file : Nat}
    (h : d.entry name = some file) : d.lookup name = some (d.content file) := by
  rw [lookup, h]
  rfl

/-- The content under a name is the same if the name stands for the same file
    and the file holds the same. -/
theorem lookup_congr {d d' : Directory Name} {name : Name} (hentry : d'.entry name = d.entry name)
    (hcontent : ∀ file, d.entry name = some file → d'.content file = d.content file) :
    d'.lookup name = d.lookup name := by
  cases hfile : d.entry name with
  | none =>
      rw [lookup, lookup, hentry, hfile]
      rfl
  | some file =>
      rw [lookup_of_entry hfile, lookup_of_entry (hentry.trans hfile), hcontent file hfile]

/-- Replace what a file holds. -/
def put (d : Directory Name) (file : Nat) (text : Bytes) : Directory Name :=
  { d with content := Function.update d.content file text }

theorem content_put (d : Directory Name) (file other : Nat) (text : Bytes) :
    (d.put file text).content other = if other = file then text else d.content other :=
  Function.update_apply _ _ _ _

variable [DecidableEq Name]

/-- Make an empty file under a name. -/
def create (d : Directory Name) (name : Name) : Directory Name where
  entry := Function.update d.entry name (some d.files)
  content := Function.update d.content d.files []
  files := d.files + 1

/-- Let a name stand for a file. -/
def link (d : Directory Name) (file : Nat) (target : Name) : Directory Name :=
  { d with entry := Function.update d.entry target (some file) }

/-- Let a name stand for nothing. -/
def unlink (d : Directory Name) (name : Name) : Directory Name :=
  { d with entry := Function.update d.entry name none }

/-- Give a file's name up for another one. Two names of one file both stay. -/
def rename (d : Directory Name) (source target : Name) : Directory Name :=
  if d.entry source = d.entry target then d
  else { d with
    entry := Function.update (Function.update d.entry target (d.entry source)) source none }

theorem entry_create (d : Directory Name) (name other : Name) :
    (d.create name).entry other = if other = name then some d.files else d.entry other :=
  Function.update_apply _ _ _ _

theorem content_create (d : Directory Name) (name : Name) (file : Nat) :
    (d.create name).content file = if file = d.files then [] else d.content file :=
  Function.update_apply _ _ _ _

theorem entry_link (d : Directory Name) (file : Nat) (target other : Name) :
    (d.link file target).entry other = if other = target then some file else d.entry other :=
  Function.update_apply _ _ _ _

theorem entry_unlink (d : Directory Name) (name other : Name) :
    (d.unlink name).entry other = if other = name then none else d.entry other :=
  Function.update_apply _ _ _ _

theorem entry_rename {d : Directory Name} {source target : Name}
    (h : d.entry source ≠ d.entry target) (name : Name) :
    (d.rename source target).entry name =
      if name = source then none else if name = target then d.entry source else d.entry name := by
  rw [rename, if_neg h]
  simp only [Function.update_apply]

@[simp] theorem content_rename (d : Directory Name) (source target : Name) :
    (d.rename source target).content = d.content := by
  unfold rename
  split
  · rfl
  · rfl

@[simp] theorem files_rename (d : Directory Name) (source target : Name) :
    (d.rename source target).files = d.files := by
  unfold rename
  split
  · rfl
  · rfl

end Directory

end Wire
