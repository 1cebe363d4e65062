import P2CTools.Wire.Feedback
import P2CTools.Wire.Runs
import P2CTools.Source.Tls13

/-!
# Key Expansion

What `hkdf_expand` returns, and what it expands with for a label.

The expansion is a chain of keyed hashes: each block hashes the one before it
with the `info` and with its own number, which has one byte. After `n` passes
the loop holds the stream of `n` blocks, the last of them, and the number of
the next, so its state is known from the number of passes alone:
`HkdfState.after` is that state. A pass is made only while the stream is too
short, and 255 blocks are never too short, so the number of the next block
always fits its byte.

A label's structure writes the length to expand to in two bytes, and the label
and the context behind their own lengths. The first field has a fixed width
and the others say where they end, so what is written determines all three.

## Main definitions

* `hkdfBlock`, `hkdfBlocks`: The blocks of an expansion, and their stream.
* `HkdfState.after`: The loop's state after some passes.
* `LabelAdmitted`: A label and a context whose lengths fit one byte.
* `ExpandsByBlocks`: The expansion returns the front of the stream.
* `SeparatesLabels`: Labels are written in full and apart.

## Theorems

* `hkdfPass_after`: One pass adds one block.
* `hkdfLoop_after`: The loop ends with the front of the stream.
* `hkdfLoop_run`: The loop goes through passes to where it ends.
* `hkdf_run_after`: The states that it goes through.
* `hkdfLabel_eq_ok`, `hkdfLabel_refuses`: Which labels are written, and how.
* `labelBytes_inj`: What is written determines the label.
* `hkdf_expansion`: The expansion and its labels together.
-/

namespace P2CTools.Tls13

open Wire

section Blocks

variable (hmac : Bytes → Bytes → Bytes) (secret info : Bytes)

/-- A block from its number and the one before it. -/
def hkdfNext (i : Nat) (previous : Bytes) : Bytes :=
  hmac secret (previous ++ info ++ be 1 i)

/-- The block `T(i)`, where `T(0)` is empty. -/
def hkdfBlock (i : Nat) : Bytes :=
  chain (hkdfNext hmac secret info) i

/-- The stream `T(1) || T(2) || ... || T(n)`. -/
def hkdfBlocks (n : Nat) : Bytes :=
  chained (hkdfNext hmac secret info) n

/-- The state of the loop after some passes. -/
def HkdfState.after (n : Nat) : HkdfState :=
  ⟨hkdfBlocks hmac secret info n, hkdfBlock hmac secret info n, n + 1⟩

/-- One pass adds one block, while the block's number fits one byte. -/
theorem hkdfPass_after (n : Nat) (hn : n < 255) :
    hkdfPass hmac secret info (HkdfState.after hmac secret info n) =
      .ok (HkdfState.after hmac secret info (n + 1)) := by
  have hcounter : singleByte (n + 1) = .ok (be 1 (n + 1)) := singleByte_eq (n + 1) (by omega)
  simp only [hkdfPass, bind_eq_ok_iff]
  exact ⟨_, hcounter, rfl⟩

/-- A pass from a state that the loop can be in. -/
def HkdfStep (length : Nat) : HkdfState → HkdfState → Prop :=
  Guarded (fun s => s.output.length < length) fun s s' => hkdfPass hmac secret info s = .ok s'

/-- What the loop returns is cut from a state that it gets to by such passes,
    and that is long enough. -/
theorem hkdfLoop_run (length fuel : Nat) (s : HkdfState) (b : Bytes)
    (h : hkdfLoop hmac secret info length fuel s = .ok b) :
    ∃ s', Run (HkdfStep hmac secret info length) s s' ∧ length ≤ s'.output.length ∧
      b = s'.output.take length := by
  induction fuel generalizing s with
  | zero => exact absurd h (error_ne_ok _ _)
  | succ fuel ih =>
      rw [hkdfLoop] at h
      by_cases hmore : s.output.length < length
      · rw [if_pos hmore, bind_eq_ok_iff] at h
        rcases h with ⟨t, ht, h⟩
        rcases ih t h with ⟨s', hrun, hend⟩
        exact ⟨s', Relation.ReflTransGen.head ⟨hmore, ht⟩ hrun, hend⟩
      · rw [if_neg hmore] at h
        exact ⟨s, Relation.ReflTransGen.refl, Nat.not_lt.mp hmore, (Except.ok.inj h).symm⟩

variable {hmac} (hsize : ∀ key message, (hmac key message).length = 32)
include hsize

theorem length_hkdfBlocks (n : Nat) : (hkdfBlocks hmac secret info n).length = 32 * n :=
  length_chained (fun _ _ => hsize _ _) n

/-- The loop ends with the front of the stream, however many blocks the stream
    is given as. -/
theorem hkdfLoop_after (length m : Nat) (hlength : length ≤ 255 * 32) (hm : length ≤ 32 * m)
    (fuel n : Nat) (hfuel : length - 32 * n < fuel) :
    hkdfLoop hmac secret info length fuel (HkdfState.after hmac secret info n) =
      .ok ((hkdfBlocks hmac secret info m).take length) := by
  induction fuel generalizing n with
  | zero => omega
  | succ fuel ih =>
      have hlen : (HkdfState.after hmac secret info n).output.length = 32 * n :=
        length_hkdfBlocks secret info hsize n
      rw [hkdfLoop, hlen]
      by_cases hmore : 32 * n < length
      · rw [if_pos hmore, hkdfPass_after hmac secret info n (by omega)]
        exact ih (n + 1) (by omega)
      · -- The stream is long enough, and more blocks would be cut off.
        rw [if_neg hmore]
        exact congrArg Except.ok (take_chained (fun _ _ => hsize _ _) (by omega) hm)

/-- Every state the loop goes through is the one after some passes, of which
    there are 255 at most. -/
theorem hkdf_run_after (length : Nat) (hlength : length ≤ 255 * 32) (s : HkdfState)
    (hrun : Run (HkdfStep hmac secret info length) ⟨[], [], 1⟩ s) :
    ∃ n ≤ 255, s = HkdfState.after hmac secret info n := by
  have hstep : ∀ t t', (∃ n ≤ 255, t = HkdfState.after hmac secret info n) →
      HkdfStep hmac secret info length t t' →
      ∃ n ≤ 255, t' = HkdfState.after hmac secret info n := by
    rintro t t' ⟨n, -, rfl⟩ ⟨hmore, hpass⟩
    -- A pass is made only while the stream is too short, so there are blocks left.
    change (hkdfBlocks hmac secret info n).length < length at hmore
    rw [length_hkdfBlocks secret info hsize] at hmore
    have hn : n < 255 := by omega
    rw [hkdfPass_after hmac secret info n hn] at hpass
    exact ⟨n + 1, hn, (Except.ok.inj hpass).symm⟩
  exact hrun.invariant hstep ⟨0, by omega, rfl⟩

theorem hkdfExpandWith_eq_ok (length m : Nat) (hlength : length ≤ 255 * 32)
    (hm : length ≤ 32 * m) :
    hkdfExpandWith hmac secret info length =
      .ok ((hkdfBlocks hmac secret info m).take length) := by
  unfold hkdfExpandWith
  simp only [bind_eq_ok_iff, failIf_eq_ok_iff, exists_const, not_not, Int.toNat_natCast]
  exact ⟨⟨Int.natCast_nonneg _, by omega⟩,
    hkdfLoop_after secret info hsize length m hlength hm _ 0 (by omega)⟩

end Blocks

theorem hkdfExpandWith_refuses (hmac : Bytes → Bytes → Bytes) (secret info : Bytes) (length : Int)
    (h : ¬(0 ≤ length ∧ length ≤ 255 * 32)) :
    ∃ e, hkdfExpandWith hmac secret info length = .error e ∧ e.cls = .tlsGenerationError := by
  unfold hkdfExpandWith failIf
  rw [if_pos h]
  exact ⟨_, rfl, rfl⟩

/-- Key expansion returns as many bytes as asked for, up to 255 digests. -/
theorem hkdfExpand_eq_ok (secret info : Bytes) (length : Nat) (hlength : length ≤ 255 * 32) :
    ∃ b, hkdfExpand secret info length = .ok b ∧ b.length = length := by
  refine ⟨_, hkdfExpandWith_eq_ok secret info length_hmacSha256 length 255 hlength (by omega), ?_⟩
  rw [List.length_take, length_hkdfBlocks secret info length_hmacSha256]
  omega

section Labels

/-- A label and a context whose lengths fit one byte each, the label's with six
    bytes in front. -/
def LabelAdmitted (label context : Bytes) : Prop :=
  (1 ≤ label.length ∧ label.length ≤ 249) ∧ context.length ≤ 255

/-- What is written for a label: the length to expand to, and the label and the
    context behind their own lengths. -/
def labelBytes (label context : Bytes) (length : Nat) : Bytes :=
  be 2 length ++ vec 1 (asciiLiteral "tls13 " ++ label) ++ vec 1 context

theorem length_fullLabel (label : Bytes) :
    (asciiLiteral "tls13 " ++ label).length = label.length + 6 := by
  rw [List.length_append, Nat.add_comm]
  rfl

theorem hkdfLabel_eq_ok (label context : Bytes) (length : Nat) (hlength : length ≤ 65535)
    (h : LabelAdmitted label context) :
    hkdfLabel label context length = .ok (labelBytes label context length) := by
  rcases h with ⟨hlabel, hcontext⟩
  have hfull := length_fullLabel label
  unfold hkdfLabel
  simp only [bind_eq_ok_iff, failIf_eq_ok_iff, exists_const, pure_eq_ok_iff]
  -- The three lengths fit their fields.
  refine ⟨?_, _, u16_eq length (by omega), _, singleByte_eq _ (by omega), _,
    singleByte_eq _ (by omega), ?_⟩
  · rw [hfull]
    omega
  · rw [labelBytes, vec, vec]
    simp only [List.append_assoc]

/-- Everything else is refused. -/
theorem hkdfLabel_refuses (label context : Bytes) (length : Int)
    (h : ¬LabelAdmitted label context) :
    ∃ e, hkdfLabel label context length = .error e ∧ e.cls = .tlsGenerationError := by
  have hfull := length_fullLabel label
  have hrefused : ¬(7 ≤ (asciiLiteral "tls13 " ++ label).length ∧
      (asciiLiteral "tls13 " ++ label).length ≤ 255) ∨ context.length > 255 ∨ length > 0xFFFF := by
    rw [LabelAdmitted] at h
    omega
  exact ⟨_, (bind_eq_error_iff _ _ _).mpr (Or.inl ((failIf_eq_error_iff _ _ _).mpr
    ⟨hrefused, rfl⟩)), rfl⟩

/-- What is written determines the length, the label and the context. -/
theorem labelBytes_inj (label label' context context' : Bytes) (length length' : Nat)
    (hlength : length ≤ 65535) (hlength' : length' ≤ 65535) (h : LabelAdmitted label context)
    (h' : LabelAdmitted label' context')
    (heq : labelBytes label context length = labelBytes label' context' length') :
    length = length' ∧ label = label' ∧ context = context' := by
  rcases h with ⟨hlabel, hcontext⟩
  rcases h' with ⟨hlabel', hcontext'⟩
  simp only [labelBytes, List.append_assoc] at heq
  rcases List.append_inj heq (by rw [length_be, length_be]) with ⟨hsize, hrest⟩
  rcases vec_append_inj 1 _ _ _ _ (by rw [length_fullLabel]; omega)
    (by rw [length_fullLabel]; omega) hrest with ⟨hfull, hlast⟩
  rw [← List.append_nil (vec 1 context), ← List.append_nil (vec 1 context')] at hlast
  exact ⟨be_inj 2 _ _ (by omega) (by omega) hsize, List.append_cancel_left hfull,
    (vec_append_inj 1 _ _ _ _ (by omega) (by omega) hlast).1⟩

/-- A label that is written is an admitted one. -/
theorem labelBytes_of_hkdfLabel (label context info : Bytes) (length : Int) (hlo : 0 ≤ length)
    (hhi : length ≤ 255 * 32) (h : hkdfLabel label context length = .ok info) :
    LabelAdmitted label context ∧ info = labelBytes label context length.toNat := by
  rcases Int.eq_ofNat_of_zero_le hlo with ⟨n, rfl⟩
  by_cases hadmitted : LabelAdmitted label context
  · rw [hkdfLabel_eq_ok label context n (by omega) hadmitted] at h
    exact ⟨hadmitted, (Except.ok.inj h).symm⟩
  · rcases hkdfLabel_refuses label context n hadmitted with ⟨e, he, -⟩
    rw [he] at h
    exact absurd h (error_ne_ok _ _)

end Labels

/-- The expansion over a keyed hash returns the front of the stream of its
    blocks. -/
structure ExpandsByBlocks (hmac : Bytes → Bytes → Bytes) : Prop where
  /-- The output is cut from as many blocks as it takes, or more. -/
  output : ∀ secret info (length : Int) (n : Nat), 0 ≤ length → length ≤ 255 * 32 →
    length ≤ 32 * n → n ≤ 255 → hkdfExpandWith hmac secret info length =
      .ok ((hkdfBlocks hmac secret info n).take length.toNat)
  /-- The loop ends, and the output is cut from the state it ends in. -/
  ends : ∀ secret info (length : Nat), length ≤ 255 * 32 → ∃ s,
    Run (HkdfStep hmac secret info length) ⟨[], [], 1⟩ s ∧ length ≤ s.output.length ∧
      hkdfExpandWith hmac secret info length = .ok (s.output.take length)
  /-- In every pass the number of the block fits its byte and is not zero. -/
  counter : ∀ secret info length s, length ≤ 255 * 32 →
    Run (HkdfStep hmac secret info length) ⟨[], [], 1⟩ s → s.output.length < length →
    1 ≤ s.counter ∧ s.counter ≤ 255 ∧ ∃ s', hkdfPass hmac secret info s = .ok s'
  /-- A shorter output is the front of a longer one. -/
  front : ∀ secret info (short long : Int), 0 ≤ short → short ≤ long → long ≤ 255 * 32 →
    ∃ a b, hkdfExpandWith hmac secret info short = .ok a ∧
      hkdfExpandWith hmac secret info long = .ok b ∧ (a.length : Int) = short ∧
      (b.length : Int) = long ∧ a <+: b
  /-- No other length is expanded to. -/
  refused : ∀ secret info (length : Int), ¬(0 ≤ length ∧ length ≤ 255 * 32) →
    ∃ e, hkdfExpandWith hmac secret info length = .error e ∧ e.cls = .tlsGenerationError

/-- The labels of lengths that can be expanded to are written in full, and
    apart from each other. -/
structure SeparatesLabels : Prop where
  /-- The admitted labels are those that are expanded with. -/
  admitted : ∀ secret label context (length : Int), 0 ≤ length → length ≤ 255 * 32 →
    ((∃ b, hkdfExpandLabel secret label context length = .ok b) ↔ LabelAdmitted label context)
  /-- No length overflows its field. -/
  written : ∀ label context (length : Int), 0 ≤ length → length ≤ 255 * 32 →
    LabelAdmitted label context → length < 256 ^ 2 ∧
      (asciiLiteral "tls13 " ++ label).length < 256 ∧ context.length < 256 ∧
      hkdfLabel label context length = .ok (labelBytes label context length.toNat)
  /-- Equal structures are written for equal labels. -/
  distinct : ∀ label label' context context' info (length length' : Int), 0 ≤ length →
    length ≤ 255 * 32 → 0 ≤ length' → length' ≤ 255 * 32 →
    hkdfLabel label context length = .ok info → hkdfLabel label' context' length' = .ok info →
    length = length' ∧ label = label' ∧ context = context'

theorem expandsByBlocks {hmac : Bytes → Bytes → Bytes}
    (hsize : ∀ key message, (hmac key message).length = 32) : ExpandsByBlocks hmac where
  output secret info length n hlo hhi hn _ := by
    rcases Int.eq_ofNat_of_zero_le hlo with ⟨m, rfl⟩
    exact hkdfExpandWith_eq_ok secret info hsize m n (by omega) (by omega)
  ends secret info length hlength := by
    have hout := hkdfExpandWith_eq_ok secret info hsize length 255 hlength (by omega)
    rcases (bind_eq_ok_iff _ _ _).mp hout with ⟨-, -, hloop⟩
    rcases hkdfLoop_run hmac secret info _ _ _ _ hloop with ⟨s, hrun, hend, hcut⟩
    rw [Int.toNat_natCast] at hrun hend hcut
    exact ⟨s, hrun, hend, by rw [hout, hcut]⟩
  counter secret info length s hlength hrun hmore := by
    rcases hkdf_run_after secret info hsize length hlength s hrun with ⟨n, hn, rfl⟩
    change (hkdfBlocks hmac secret info n).length < length at hmore
    rw [length_hkdfBlocks secret info hsize] at hmore
    have hcounter : (HkdfState.after hmac secret info n).counter = n + 1 := rfl
    exact ⟨by omega, by omega, _, hkdfPass_after hmac secret info n (by omega)⟩
  front secret info short long hlo hle hhi := by
    rcases Int.eq_ofNat_of_zero_le hlo with ⟨k, rfl⟩
    rcases Int.eq_ofNat_of_zero_le (hlo.trans hle) with ⟨m, rfl⟩
    have hlen := length_hkdfBlocks secret info hsize 255
    -- Both are cut from the stream of all the blocks there can be.
    refine ⟨_, _, hkdfExpandWith_eq_ok secret info hsize k 255 (by omega) (by omega),
      hkdfExpandWith_eq_ok secret info hsize m 255 (by omega) (by omega), ?_, ?_, ?_⟩
    · rw [List.length_take, hlen]
      omega
    · rw [List.length_take, hlen]
      omega
    · exact List.take_prefix_take_left (by omega)
  refused := hkdfExpandWith_refuses hmac

theorem separatesLabels : SeparatesLabels where
  admitted secret label context length hlo hhi := by
    rcases Int.eq_ofNat_of_zero_le hlo with ⟨n, rfl⟩
    constructor
    · rintro ⟨b, hb⟩
      rcases (bind_eq_ok_iff _ _ _).mp hb with ⟨info, hinfo, -⟩
      exact (labelBytes_of_hkdfLabel label context info n hlo hhi hinfo).1
    · intro hadmitted
      -- What is written for the label can be any `info`, so only the length counts.
      rcases hkdfExpand_eq_ok secret (labelBytes label context n) n (by omega) with ⟨b, hb, -⟩
      refine ⟨b, (bind_eq_ok_iff _ _ _).mpr ⟨_, ?_, hb⟩⟩
      exact hkdfLabel_eq_ok label context n (by omega) hadmitted
  written label context length hlo hhi hadmitted := by
    rcases Int.eq_ofNat_of_zero_le hlo with ⟨n, rfl⟩
    have hfull := length_fullLabel label
    exact ⟨by omega, by have hlabel := hadmitted.1; omega, Nat.lt_succ_of_le hadmitted.2,
      hkdfLabel_eq_ok label context n (by omega) hadmitted⟩
  distinct label label' context context' info length length' hlo hhi hlo' hhi' h h' := by
    rcases labelBytes_of_hkdfLabel _ _ _ _ hlo hhi h with ⟨hadmitted, rfl⟩
    rcases labelBytes_of_hkdfLabel _ _ _ _ hlo' hhi' h' with ⟨hadmitted', heq⟩
    rcases labelBytes_inj _ _ _ _ _ _ (by omega) (by omega) hadmitted hadmitted' heq
      with ⟨hlength, hlabel, hcontext⟩
    exact ⟨by omega, hlabel, hcontext⟩

/-- Over any keyed hash of 32 bytes the expansion is a chain of blocks cut to
    length, and its labels are separated. -/
theorem hkdf_expansion (hmac : Bytes → Bytes → Bytes)
    (hsize : ∀ key message, (hmac key message).length = 32) :
    ExpandsByBlocks hmac ∧ SeparatesLabels :=
  ⟨expandsByBlocks hsize, separatesLabels⟩

/-- HMAC-SHA-256 is such a hash. -/
theorem hkdf_expansion_hmacSha256 : ExpandsByBlocks hmacSha256 ∧ SeparatesLabels :=
  hkdf_expansion hmacSha256 length_hmacSha256

end P2CTools.Tls13
