import P2CTools.Theory.Scanning
import P2CTools.Theory.Publication

/-!
# Reading Files

What `ConnectionProof.read` makes of any file, and of one that `write` has
published.

Of the errors that the decoder raises, `JSONDecodeError` becomes a
`ProofFormatError`. Two others are not of that class and get past the handler:
the `ValueError` for an integer of too many digits, and the `RecursionError` for
containers that are nested too deep. `OverLimit` says that the text has what
they are raised for.

A file that was published has neither: it is read as the envelope it was made
from, at every moment of every run of the calls that write.

## Main definitions

* `OverLimit`: The errors that are not `ProofFormatError`s.

## Theorems

* `read_outcome`: What reading a file comes to.
* `published_reads_back`: What is published is read back.
-/

namespace P2CTools

open Wire

section Documents

variable (float : Str → Value)

/-! ### Files -/

/-- The only error of decoding. -/
theorem fails_decodeUtf8 (encoded : Bytes) :
    Fails (fun e => e = utf8Error) (decodeUtf8 encoded) := by
  have hcons : ∀ (rest : Bytes) (c : CodePoint),
      Fails (fun e => e = utf8Error) (decodeUtf8 rest) →
      Fails (fun e => e = utf8Error) (do
        let tail ← decodeUtf8 rest
        return c :: tail) := fun rest c ih => ih.bind fun _ _ => fails_ok _
  fun_induction decodeUtf8 encoded with
  | case1 => exact fails_ok _
  | case2 a rest _ ih => exact hcons rest _ ih
  | case3 a => exact fails_error rfl
  | case4 a _ b rest _ ih => exact hcons rest _ ih
  | case5 a => exact fails_error rfl
  | case6 a _ b _ c rest _ ih => exact hcons rest _ ih
  | case7 a => exact fails_error rfl
  | case8 a _ b _ c _ d rest _ ih => exact hcons rest _ ih
  | case9 a => exact fails_error rfl

/-- The errors that are not `ProofFormatError`s: where a value may begin there
    is an integer that is too long, or somewhere more containers are open than
    the interpreter recurses. -/
def OverLimit (depth : Nat) (file : Except PyErr Bytes) (e : PyErr) : Prop :=
  ∃ encoded text, file = .ok encoded ∧ decodeUtf8 encoded = .ok text ∧
    ((e = digitsError ∧ LongNumber .first (universalNewlines text)) ∨
      (e = recursionError ∧ TooNested depth .first (universalNewlines text)))

theorem fails_read (L : Lowercase) (depth : Nat) {file : Except PyErr Bytes}
    (hfile : Fails (fun e => e.isA .osError = true) file) :
    Fails (fun e => e.cls = .proofFormatError ∨ OverLimit depth file e)
      (ConnectionProof.read L (loads float depth) file) := by
  -- The classes that the handler names become a `ProofFormatError`.
  have hcaught : ∀ e : PyErr, (e.isA .osError = true ∨ e = utf8Error ∨ e.cls = .jsonDecodeError) →
      [ErrorClass.osError, .unicodeError, .jsonDecodeError].any e.isA = true := by
    intro e he
    rcases he with he | rfl | he
    · simp [he]
    · decide
    · simp [PyErr.isA, he, ErrorClass.bases]
  unfold ConnectionProof.read
  refine Fails.bind (fails_handle _ _ _ (fun e _ _ => fails_error (Or.inl rfl)) ?_) fun value _ =>
    (fails_fromDict L value).mono fun _ he => Or.inl he
  intro e he hnot
  rw [Bool.eq_false_iff] at hnot
  rcases (bind_eq_error_iff _ _ _).mp he with hread | ⟨encoded, hencoded, he⟩
  · exact absurd (hcaught e (Or.inl (hfile e hread))) hnot
  rcases (bind_eq_error_iff _ _ _).mp he with hdecode | ⟨text, htext, he⟩
  · exact absurd (hcaught e (Or.inr (Or.inl (fails_decodeUtf8 encoded e hdecode)))) hnot
  rcases fails_loads float depth _ e he with hdecode | hover
  · exact absurd (hcaught e (Or.inr (Or.inr hdecode))) hnot
  · exact Or.inr ⟨encoded, text, hencoded, htext, hover⟩

end Documents

/-! ### Published files -/

section Published

variable (float : Str → Value) {ι Name : Type} {destination : Name} {args : ι → WriteArgs}

/-- The complete file of an envelope is read as the envelope. -/
theorem read_of_fileBytes (L : Lowercase) (depth : Nat) {e : ConnectionProof} {encoded : Bytes}
    (h : e.fileBytes = .ok encoded) :
    ConnectionProof.read L (loads float (depth + 1)) (.ok encoded) = .ok e := by
  have hhead : e.proof.head? = some 2 := by
    rcases (bind_eq_ok_iff _ _ _).mp h with ⟨text, htext, -⟩
    rcases (bind_eq_ok_iff _ _ _).mp htext with ⟨entries, hentries, -⟩
    exact ((toDict_eq_ok_iff e entries).mp hentries).1
  rcases read_fileBytes L (loadsBack_entries float depth e) hhead with ⟨file, hfile, hread⟩
  rw [h, Except.ok.injEq] at hfile
  rw [hfile]
  exact hread

/-- At every moment of every run, the destination is what it was at the start,
    or is read as the envelope of the call that published last. -/
theorem published_reads_back [DecidableEq ι] [DecidableEq Name] (L : Lowercase) (depth : Nat)
    {s₀ s : System ι Name} (h : s₀.Initial)
    (hrun : Run (System.Step destination args) s₀ s) :
    (s.published = [] → s.directory.lookup destination = s₀.directory.lookup destination) ∧
    ∀ i, s.published.getLast? = some i → ∃ encoded,
      s.directory.lookup destination = some encoded ∧
      ConnectionProof.read L (loads float (depth + 1)) (.ok encoded) = .ok (args i).envelope := by
  have hdest := (System.inv_run h hrun).destination
  unfold System.DestinationInv at hdest
  refine ⟨fun hnone => ?_, fun i hi => ?_⟩
  · rw [hnone] at hdest
    exact hdest.2.1
  · rw [hi] at hdest
    rcases hdest with ⟨file, text, hfile, -, htext, hcontent⟩
    refine ⟨text, ?_, read_of_fileBytes float L depth htext⟩
    exact (Directory.lookup_of_entry hfile).trans (congrArg some hcontent)

end Published

/-- The file that one of two calls has published is read as its envelope. -/
theorem two_calls_read_back :
    ∃ encoded, (System.sampleSystem.play 0 System.sampleArgs System.sampleScript).directory.lookup 0
        = some encoded ∧
      ConnectionProof.read Lowercase.ascii (loads (fun _ => .none) 1) (.ok encoded) =
        .ok (vectorEnvelope 0xff) := by
  have hplays : System.sampleSystem.plays 0 System.sampleArgs System.sampleScript = true := by
    decide +kernel
  have hlast : (System.sampleSystem.play 0 System.sampleArgs System.sampleScript).published.getLast?
      = some true := by
    decide +kernel
  have hrun := System.run_play 0 System.sampleArgs System.sampleScript System.sampleSystem hplays
  exact (published_reads_back (fun _ => .none) Lowercase.ascii 0 System.initial_sampleSystem
    hrun).2 true hlast

end P2CTools
