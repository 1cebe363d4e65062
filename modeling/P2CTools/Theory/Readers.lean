import P2CTools.Source.Protocol

/-!
# What Readers Read

The rules of the cursor library at the reader's own methods.

Each method has two facts: what it takes from the input, as `Parses`, and that
all it can raise is a `ProofFormatError`. The second is not immediate for
`u8`, which indexes the bytes it has read; the read before it makes the index
valid. From the first come the rewriting rules that turn a parser into the
condition it accepts under.

A message is its type, a three-byte length and a body, which is `frame`. The
two readers used in the middle of other parsers, `readHandshake` and
`extensions`, are described here as well, the second through `Block`: an
extension block is a list of entries with distinct types, written one after
the other.

## Main definitions

* `IsFormatError`: The exception is a `ProofFormatError`.
* `frame`: A handshake message with its header.
* `Extension`: One entry of an extension block.
* `Block`: An extension block.
* `Block.map`: The dictionary of a block.

## Theorems

* `accepts_read_bind`, `accepts_u8_bind`, `accepts_u16_bind`,
  `accepts_u24_bind`, `accepts_getRemaining_bind`: The reader's methods.
* `readAll_eq_ok_iff`, `fails_readAll`: A loop over all of some bytes.
* `parses_readHandshake`, `accepts_readHandshake_bind`: A message is read
  exactly.
* `parses_extensions`, `accepts_extensions_bind`: A block is read exactly and
  ends the input.
* `raises_readHandshake`, `raises_extensions`: Their failures.
* `Block.has_map`, `Block.getItem_map`: The dictionary answers for the block.
-/

namespace P2CTools

open Wire

/-- The exception is a `ProofFormatError`. -/
def IsFormatError (e : PyErr) : Prop :=
  e.cls = .proofFormatError

namespace Reader

theorem remaining_eq (pre rest : Bytes) :
    remaining ⟨pre ++ rest, pre.length⟩ = (rest.length : Int) := by
  simp only [remaining, List.length_append]
  omega

theorem slice_eq (pre rest : Bytes) (n : Nat) :
    slice (pre ++ rest) pre.length (pre.length + n) = rest.take n := by
  rw [slice, List.drop_left, Nat.add_sub_cancel_left]

theorem parses_read (n : Nat) (what : String) :
    Parses (read n what) (fun b x _ => b = x ∧ x.length = n) := by
  intro pre rest x c
  unfold read
  rw [remaining_eq, slice_eq]
  by_cases hn : rest.length < n
  -- Too few bytes are left: the read fails, and no part of them has the length.
  · rw [if_pos (by omega)]
    simp only [Prod.mk.injEq, reduceCtorEq, false_and, false_iff, not_exists, not_and]
    rintro b t rfl ⟨rfl, rfl⟩
    rw [List.length_append] at hn
    omega
  -- Otherwise the bytes are cut after so many.
  · rw [if_neg (by omega), Prod.mk.injEq, Except.ok.injEq]
    constructor
    · rintro ⟨rfl, rfl⟩
      have hlen : (rest.take n).length = n := by
        rw [List.length_take]
        omega
      exact ⟨rest.take n, rest.drop n, (List.take_append_drop n rest).symm, ⟨rfl, hlen⟩,
        by rw [List.length_append, hlen]⟩
    · rintro ⟨b, t, rfl, ⟨rfl, rfl⟩, rfl⟩
      exact ⟨List.take_left, by rw [List.length_append]⟩

theorem raises_read (n : Nat) (what : String) : Raises IsFormatError (read n what) := by
  intro pre rest e c hrun
  unfold read at hrun
  rw [remaining_eq] at hrun
  by_cases hn : (rest.length : Int) < n
  · rw [if_pos hn] at hrun
    simp only [Prod.mk.injEq, Except.error.injEq] at hrun
    rw [← hrun.1]
    rfl
  · rw [if_neg hn] at hrun
    simp only [Prod.mk.injEq, reduceCtorEq, false_and] at hrun

theorem parses_u8 (what : String) : Parses (u8 what) (fun b v _ => b = be 1 v ∧ v < 256) := by
  refine ((parses_read 1 what).bind fun data => (parses_call (getIndex data 0)).bind
    fun value => parses_pure value.toNat).congr fun b v t => ?_
  constructor
  · rintro ⟨data, b₁, b₂, rfl, ⟨rfl, hlen⟩, x, b₃, b₄, rfl, ⟨rfl, hx⟩, rfl, rfl⟩
    -- One byte was read, and its index is the first.
    match b₁ with
    | [y] =>
        rw [← Except.ok.inj hx, be_one, UInt8.ofNat_toNat]
        exact ⟨rfl, y.toNat_lt⟩
  · rintro ⟨rfl, hv⟩
    refine ⟨be 1 v, be 1 v, [], (List.append_nil _).symm, ⟨rfl, rfl⟩, UInt8.ofNat v, [], [], rfl,
      ⟨rfl, rfl⟩, rfl, ?_⟩
    rw [UInt8.toNat_ofNat']
    omega

/-- Reading a number of `k` bytes. -/
theorem parses_number (k : Nat) (what : String) :
    Parses (do let data ← read k what; return beNat data)
      (fun b v _ => b = be k v ∧ v < 256 ^ k) := by
  refine ((parses_read k what).bind fun data => parses_pure (beNat data)).congr fun b v t => ?_
  constructor
  · rintro ⟨data, b₁, b₂, rfl, ⟨rfl, rfl⟩, rfl, rfl⟩
    rw [List.append_nil, be_beNat]
    exact ⟨rfl, beNat_lt b₁⟩
  · rintro ⟨rfl, hv⟩
    exact ⟨be k v, be k v, [], (List.append_nil _).symm, ⟨rfl, length_be k v⟩, rfl,
      (beNat_be k v hv).symm⟩

theorem parses_u16 (what : String) : Parses (u16 what) (fun b v _ => b = be 2 v ∧ v < 65536) :=
  parses_number 2 what

theorem parses_u24 (what : String) :
    Parses (u24 what) (fun b v _ => b = be 3 v ∧ v < 16777216) :=
  parses_number 3 what

theorem raises_u8 (what : String) : Raises IsFormatError (u8 what) := by
  refine (parses_read 1 what).raises_bind (raises_read 1 what) fun data b t hG => ?_
  refine raises_call_bind (fun e he => ?_) fun x _ => raises_pure _
  rcases hG with ⟨rfl, hlen⟩
  match b with
  | [y] => exact nomatch he

theorem raises_u16 (what : String) : Raises IsFormatError (u16 what) :=
  (parses_read 2 what).raises_bind (raises_read 2 what) fun _ _ _ _ => raises_pure _

theorem raises_u24 (what : String) : Raises IsFormatError (u24 what) :=
  (parses_read 3 what).raises_bind (raises_read 3 what) fun _ _ _ _ => raises_pure _

theorem parses_getRemaining :
    Parses getRemaining (fun b x t => b = [] ∧ x = (t.length : Int)) := by
  intro pre rest x c
  unfold getRemaining
  rw [remaining_eq, Prod.mk.injEq, Except.ok.injEq]
  constructor
  · rintro ⟨rfl, rfl⟩
    exact ⟨[], rest, rfl, ⟨rfl, rfl⟩, by rw [List.append_nil]⟩
  · rintro ⟨b, t, rfl, ⟨rfl, rfl⟩, rfl⟩
    exact ⟨rfl, by rw [List.append_nil]⟩

theorem raises_getRemaining {P : PyErr → Prop} : Raises P getRemaining := by
  intro pre rest e c hrun
  simp only [getRemaining, Prod.mk.injEq, reduceCtorEq, false_and] at hrun

section Rules

variable {β : Type} (pre rest : Bytes) (Q : β → Reader → Prop)

theorem accepts_read_bind (n : Nat) (what : String) (f : Bytes → ReaderM β) :
    Accepts (read n what >>= f) pre rest Q ↔
      ∃ b t, rest = b ++ t ∧ b.length = n ∧ Accepts (f b) (pre ++ b) t Q := by
  rw [(parses_read n what).accepts_bind]
  constructor
  · rintro ⟨x, b, t, hrest, ⟨rfl, hlen⟩, hQ⟩
    exact ⟨b, t, hrest, hlen, hQ⟩
  · rintro ⟨b, t, hrest, hlen, hQ⟩
    exact ⟨b, b, t, hrest, ⟨rfl, hlen⟩, hQ⟩

/-- A reader of one encoded number at the front of a program. -/
theorem accepts_number_bind {k bound : Nat} {m : ReaderM Nat}
    (hm : Parses m (fun b v _ => b = be k v ∧ v < bound)) (f : Nat → ReaderM β) :
    Accepts (m >>= f) pre rest Q ↔
      ∃ v t, rest = be k v ++ t ∧ v < bound ∧ Accepts (f v) (pre ++ be k v) t Q := by
  rw [hm.accepts_bind]
  constructor
  · rintro ⟨v, b, t, hrest, ⟨rfl, hv⟩, hQ⟩
    exact ⟨v, t, hrest, hv, hQ⟩
  · rintro ⟨v, t, hrest, hv, hQ⟩
    exact ⟨v, be k v, t, hrest, ⟨rfl, hv⟩, hQ⟩

theorem accepts_u8_bind (what : String) (f : Nat → ReaderM β) :
    Accepts (u8 what >>= f) pre rest Q ↔
      ∃ v t, rest = be 1 v ++ t ∧ v < 256 ∧ Accepts (f v) (pre ++ be 1 v) t Q :=
  accepts_number_bind pre rest Q (parses_u8 what) f

theorem accepts_u16_bind (what : String) (f : Nat → ReaderM β) :
    Accepts (u16 what >>= f) pre rest Q ↔
      ∃ v t, rest = be 2 v ++ t ∧ v < 65536 ∧ Accepts (f v) (pre ++ be 2 v) t Q :=
  accepts_number_bind pre rest Q (parses_u16 what) f

theorem accepts_u24_bind (what : String) (f : Nat → ReaderM β) :
    Accepts (u24 what >>= f) pre rest Q ↔
      ∃ v t, rest = be 3 v ++ t ∧ v < 16777216 ∧ Accepts (f v) (pre ++ be 3 v) t Q :=
  accepts_number_bind pre rest Q (parses_u24 what) f

theorem accepts_getRemaining_bind (f : Int → ReaderM β) :
    Accepts (getRemaining >>= f) pre rest Q ↔ Accepts (f (rest.length : Int)) pre rest Q := by
  rw [parses_getRemaining.accepts_bind]
  constructor
  · rintro ⟨x, b, t, rfl, ⟨rfl, rfl⟩, hQ⟩
    rwa [List.append_nil] at hQ
  · intro hQ
    exact ⟨_, [], rest, rfl, ⟨rfl, rfl⟩, by rwa [List.append_nil]⟩

theorem raises_read_bind {n : Nat} {what : String} {f : Bytes → ReaderM β}
    (hf : ∀ b, b.length = n → Raises IsFormatError (f b)) :
    Raises IsFormatError (read n what >>= f) := by
  refine (parses_read n what).raises_bind (raises_read n what) fun x b t hG => hf x hG.2

theorem raises_u8_bind {what : String} {f : Nat → ReaderM β}
    (hf : ∀ v, Raises IsFormatError (f v)) : Raises IsFormatError (u8 what >>= f) :=
  (parses_u8 what).raises_bind (raises_u8 what) fun v _ _ _ => hf v

theorem raises_u16_bind {what : String} {f : Nat → ReaderM β}
    (hf : ∀ v, Raises IsFormatError (f v)) : Raises IsFormatError (u16 what >>= f) :=
  (parses_u16 what).raises_bind (raises_u16 what) fun v _ _ _ => hf v

theorem raises_u24_bind {what : String} {f : Nat → ReaderM β}
    (hf : ∀ v, Raises IsFormatError (f v)) : Raises IsFormatError (u24 what >>= f) :=
  (parses_u24 what).raises_bind (raises_u24 what) fun v _ _ _ => hf v

theorem raises_getRemaining_bind {f : Int → ReaderM β}
    (hf : ∀ n, Raises IsFormatError (f n)) : Raises IsFormatError (getRemaining >>= f) :=
  parses_getRemaining.raises_bind raises_getRemaining fun n _ _ _ => hf n

end Rules

section Loops

variable {σ : Type} {body : σ → ReaderM σ} {I : σ → Bytes → σ → Prop}

/-- A loop over all of some bytes returns the state at the end of a chain of
    its body's items. -/
theorem readAll_eq_ok_iff (hbody : ∀ s, Parses (body s) (fun b s' _ => I s b s'))
    (hpos : ∀ s b s', I s b s' → b ≠ []) (data : Bytes) (init s' : σ) :
    readAll data body init = .ok s' ↔ Items I init data s' := by
  rw [readAll, runCursor_eq_ok_iff,
    accepts_whileNotEmpty stuck body I hbody hpos _ _ init [] data (Nat.lt_succ_self _)]
  constructor
  · rintro ⟨s₁, hitems, rfl⟩
    exact hitems
  · intro hitems
    exact ⟨s', hitems, rfl⟩

theorem fails_readAll (hbody : ∀ s, Parses (body s) (fun b s' _ => I s b s'))
    (hpos : ∀ s b s', I s b s' → b ≠ []) (hraise : ∀ s, Raises IsFormatError (body s))
    (data : Bytes) (init : σ) : Fails IsFormatError (readAll data body init) :=
  raises_runCursor data _
    (raises_whileNotEmpty stuck body I hbody hpos hraise _ init [] data (Nat.lt_succ_self _))

end Loops

end Reader

namespace Protocol

open Reader

/-- A handshake message with its header: its type, the three-byte length of
    its body, and the body. -/
def frame (type : Nat) (body : Bytes) : Bytes :=
  be 1 type ++ vec 3 body

theorem length_frame (type : Nat) (body : Bytes) : (frame type body).length = 4 + body.length := by
  rw [frame, List.length_append, length_be, length_vec]
  omega

/-- `readHandshake` reads one frame of its type whose message is within the
    limit. -/
theorem parses_readHandshake (type maximum : Nat) (name : String) (htype : type < 256)
    (hmax : maximum < 16777216) :
    Parses (readHandshake type maximum name) (fun b x _ =>
      ∃ body, b = frame type body ∧ body.length + 4 ≤ maximum ∧ x = ⟨frame type body, body⟩) := by
  refine parses_of_accepts fun pre rest Q => ?_
  simp only [readHandshake, accepts_getCursor_bind, accepts_u8_bind, accepts_u24_bind,
    accepts_raiseIf_bind, accepts_read_bind, accepts_pure, ne_eq, not_not]
  constructor
  · rintro ⟨v, t, rfl, -, size, t₁, rfl, -, rfl, hsize, body, t₂, rfl, rfl, hQ⟩
    refine ⟨_, frame v body, t₂, ?_, ⟨body, rfl, by omega, rfl⟩, ?_⟩
    · simp only [frame, vec, List.append_assoc]
    -- The message is sliced from where the cursor stood before its header.
    · have hslice := slice_eq pre (frame v body ++ t₂) (frame v body).length
      rw [List.take_left] at hslice
      simp only [frame, vec, List.append_assoc, List.length_append] at hslice hQ ⊢
      rw [hslice] at hQ
      exact hQ
  · rintro ⟨x, b, t, rfl, ⟨body, rfl, hlen, rfl⟩, hQ⟩
    refine ⟨type, vec 3 body ++ t, ?_, htype, body.length, body ++ t, ?_, by omega, rfl, by omega,
      body, t, rfl, rfl, ?_⟩
    · rw [frame, List.append_assoc]
    · rw [vec, List.append_assoc]
    · have hslice := slice_eq pre (frame type body ++ t) (frame type body).length
      rw [List.take_left] at hslice
      simp only [frame, vec, List.append_assoc, List.length_append] at hslice hQ ⊢
      rw [hslice]
      exact hQ

theorem accepts_readHandshake_bind {β : Type} (type maximum : Nat) (name : String)
    (htype : type < 256) (hmax : maximum < 16777216) (pre rest : Bytes) (Q : β → Reader → Prop)
    (f : Handshake → ReaderM β) :
    Accepts (readHandshake type maximum name >>= f) pre rest Q ↔
      ∃ body t, rest = frame type body ++ t ∧ body.length + 4 ≤ maximum ∧
        Accepts (f ⟨frame type body, body⟩) (pre ++ frame type body) t Q := by
  rw [(parses_readHandshake type maximum name htype hmax).accepts_bind]
  constructor
  · rintro ⟨_, _, t, rfl, ⟨body, rfl, hlen, rfl⟩, hQ⟩
    exact ⟨body, t, rfl, hlen, hQ⟩
  · rintro ⟨body, t, rfl, hlen, hQ⟩
    exact ⟨_, _, t, rfl, ⟨body, rfl, hlen, rfl⟩, hQ⟩

theorem raises_readHandshake (type maximum : Nat) (name : String) :
    Raises IsFormatError (readHandshake type maximum name) :=
  raises_getCursor_bind fun _ => raises_u8_bind fun _ => raises_u24_bind fun _ =>
  raises_raiseIf_bind rfl fun _ => raises_raiseIf_bind rfl fun _ => raises_read_bind fun _ _ =>
  raises_getCursor_bind fun _ => raises_pure _

theorem raises_readHandshake_bind {β : Type} {type maximum : Nat} {name : String}
    (htype : type < 256) (hmax : maximum < 16777216) {f : Handshake → ReaderM β}
    (hf : ∀ h, Raises IsFormatError (f h)) :
    Raises IsFormatError (readHandshake type maximum name >>= f) :=
  (parses_readHandshake type maximum name htype hmax).raises_bind
    (raises_readHandshake type maximum name) fun h _ _ _ => hf h

/-- One entry of an extension block. -/
structure Extension where
  type : Nat
  data : Bytes
  type_lt : type < 65536
  length_lt : data.length < 65536

/-- An entry as it is written. -/
def Extension.encode (x : Extension) : Bytes :=
  be 2 x.type ++ vec 2 x.data

/-- An entry as the dictionary holds it. -/
def Extension.entry (x : Extension) : Nat × Bytes :=
  (x.type, x.data)

theorem Extension.encode_ne_nil (x : Extension) : x.encode ≠ [] :=
  List.cons_ne_nil _ _

/-- An extension block: entries of distinct types, in a length-prefixed list. -/
structure Block where
  entries : List Extension
  nodup : (entries.map Extension.type).Nodup
  length_lt : (entries.flatMap Extension.encode).length < 65536

/-- A block as it is written. -/
def Block.encode (block : Block) : Bytes :=
  vec 2 (block.entries.flatMap Extension.encode)

/-- The dictionary of a block. -/
def Block.map (block : Block) : ExtensionMap :=
  block.entries.map Extension.entry

theorem has_iff (d : ExtensionMap) (key : Nat) : d.has key = true ↔ key ∈ d.map Prod.fst := by
  simp only [ExtensionMap.has, List.any_eq_true, beq_iff_eq, List.mem_map]

theorem setItem_of_not_has (d : ExtensionMap) (key : Nat) (value : Bytes)
    (h : key ∉ d.map Prod.fst) : d.setItem key value = d ++ [(key, value)] := by
  rw [ExtensionMap.setItem, if_neg ((has_iff d key).not.mpr h)]

/-- A pass of the loop reads one entry of a type not seen before. -/
abbrev ReadsExtension : ExtensionMap → Bytes → ExtensionMap → Prop :=
  Collects Extension.encode Extension.entry (fun d x => x.entry.1 ∉ d.map Prod.fst)

theorem parses_extensionStep (d : ExtensionMap) :
    Parses (extensionStep d) (fun b d' _ => ReadsExtension d b d') := by
  refine parses_of_accepts fun pre rest Q => ?_
  simp only [extensionStep, accepts_u16_bind, accepts_raiseIf_bind, accepts_read_bind,
    accepts_pure, has_iff]
  constructor
  · rintro ⟨type, t, rfl, htype, size, t₁, rfl, hsize, data, t₂, rfl, rfl, hnew, hQ⟩
    refine ⟨_, be 2 type ++ vec 2 data, t₂, ?_, ⟨⟨type, data, htype, hsize⟩, rfl, hnew,
      setItem_of_not_has d type data hnew⟩, ?_⟩
    · simp only [vec, List.append_assoc]
    · simp only [vec, List.append_assoc] at hQ ⊢
      exact hQ
  · rintro ⟨d', b, t, rfl, ⟨⟨type, data, htype, hsize⟩, rfl, hnew, rfl⟩, hQ⟩
    refine ⟨type, vec 2 data ++ t, ?_, htype, data.length, data ++ t, ?_, hsize, data, t, rfl,
      rfl, hnew, ?_⟩
    · rw [Extension.encode, List.append_assoc]
    · rw [vec, List.append_assoc]
    -- A type not seen before is added at the end.
    · rw [setItem_of_not_has d type data hnew]
      simp only [Extension.encode, vec, List.append_assoc] at hQ ⊢
      exact hQ

theorem raises_extensionStep (d : ExtensionMap) : Raises IsFormatError (extensionStep d) :=
  raises_u16_bind fun _ => raises_u16_bind fun _ => raises_read_bind fun _ _ =>
  raises_raiseIf_bind rfl fun _ => raises_pure _

theorem ReadsExtension.ne_nil (d : ExtensionMap) (b : Bytes) (d' : ExtensionMap)
    (h : ReadsExtension d b d') : b ≠ [] := by
  rcases h with ⟨x, rfl, -⟩
  exact x.encode_ne_nil

/-- The loop over the bytes of a block accepts entries of distinct types. -/
theorem readAll_extensionStep (data : Bytes) (d : ExtensionMap) :
    readAll data extensionStep [] = .ok d ↔
      ∃ entries : List Extension, data = entries.flatMap Extension.encode ∧
        (entries.map Extension.type).Nodup ∧ d = entries.map Extension.entry := by
  rw [readAll_eq_ok_iff parses_extensionStep ReadsExtension.ne_nil, items_collects_iff]
  simp only [List.nil_append]
  refine exists_congr fun entries => and_congr_right fun _ => and_congr_left fun _ => ?_
  rw [eachFits_fresh_iff Extension.entry Prod.fst [] entries List.nodup_nil, List.nil_append,
    List.map_map]
  rfl

/-- `extensions` reads one block, which ends the input. -/
theorem parses_extensions :
    Parses extensions (fun b d t =>
      t = [] ∧ ∃ block : Block, b = block.encode ∧ d = block.map) := by
  refine parses_of_accepts fun pre rest Q => ?_
  simp only [extensions, accepts_u16_bind, accepts_getRemaining_bind, accepts_raiseIf_bind,
    accepts_read_bind, accepts_call, readAll_extensionStep, ne_eq, not_not]
  constructor
  · rintro ⟨size, t, rfl, hsize, hleft, data, t₁, rfl, rfl, d, ⟨entries, rfl, hnodup, rfl⟩, hQ⟩
    -- The size was compared with what remains.
    have hend : t₁ = [] := by
      rw [List.length_append] at hleft
      exact List.eq_nil_of_length_eq_zero (by omega)
    subst hend
    refine ⟨_, Block.encode ⟨entries, hnodup, hsize⟩, [], ?_, ⟨rfl, _, rfl, rfl⟩, ?_⟩
    · simp only [Block.encode, vec, List.append_nil]
    · simp only [Block.encode, vec, List.append_assoc, List.append_nil] at hQ ⊢
      exact hQ
  · rintro ⟨d, b, t, rfl, ⟨rfl, block, rfl, rfl⟩, hQ⟩
    refine ⟨_, block.entries.flatMap Extension.encode, ?_, block.length_lt, rfl,
      block.entries.flatMap Extension.encode, [], (List.append_nil _).symm, rfl, block.map,
      ⟨block.entries, rfl, block.nodup, rfl⟩, ?_⟩
    · rw [Block.encode, vec, List.append_nil]
    · simp only [Block.encode, vec, List.append_assoc, List.append_nil] at hQ ⊢
      exact hQ

theorem accepts_extensions_bind {β : Type} (pre rest : Bytes) (Q : β → Reader → Prop)
    (f : ExtensionMap → ReaderM β) :
    Accepts (extensions >>= f) pre rest Q ↔
      ∃ block : Block, rest = block.encode ∧
        Accepts (f block.map) (pre ++ block.encode) [] Q := by
  rw [parses_extensions.accepts_bind]
  constructor
  · rintro ⟨_, _, t, rfl, ⟨rfl, block, rfl, rfl⟩, hQ⟩
    exact ⟨block, List.append_nil _, hQ⟩
  · rintro ⟨block, rfl, hQ⟩
    exact ⟨block.map, block.encode, [], (List.append_nil _).symm, ⟨rfl, block, rfl, rfl⟩, hQ⟩

theorem raises_extensions : Raises IsFormatError extensions :=
  raises_u16_bind fun _ => raises_getRemaining_bind fun _ => raises_raiseIf_bind rfl fun _ =>
  raises_read_bind fun _ _ => raises_call _
    (fails_readAll parses_extensionStep ReadsExtension.ne_nil raises_extensionStep _ _)

theorem raises_extensions_bind {β : Type} {f : ExtensionMap → ReaderM β}
    (hf : ∀ block : Block, Raises IsFormatError (f block.map)) :
    Raises IsFormatError (extensions >>= f) := by
  refine parses_extensions.raises_bind raises_extensions fun d b t hG => ?_
  rcases hG with ⟨-, block, -, rfl⟩
  exact hf block

/-- A block holds the extension with this type and these data. -/
def Block.Holds (block : Block) (type : Nat) (data : Bytes) : Prop :=
  ∃ x ∈ block.entries, x.type = type ∧ x.data = data

/-- An extension's data always fits the field that announces its length. -/
theorem Block.Holds.length_lt {block : Block} {type : Nat} {data : Bytes}
    (h : block.Holds type data) : data.length < 65536 := by
  rcases h with ⟨x, -, -, rfl⟩
  exact x.length_lt

theorem Block.has_map (block : Block) (type : Nat) :
    block.map.has type = true ↔ type ∈ block.entries.map Extension.type := by
  rw [has_iff, Block.map, List.map_map]
  rfl

theorem getItem_map_entry (entries : List Extension) (type : Nat) (data : Bytes)
    (hnodup : (entries.map Extension.type).Nodup) :
    ExtensionMap.getItem (entries.map Extension.entry) type = .ok data ↔
      ∃ x ∈ entries, x.type = type ∧ x.data = data := by
  induction entries with
  | nil => simp only [ExtensionMap.getItem, List.map_nil, List.find?_nil, reduceCtorEq,
      List.not_mem_nil, false_and, exists_false]
  | cons x entries ih =>
      rw [List.map_cons, List.nodup_cons] at hnodup
      unfold ExtensionMap.getItem at ih ⊢
      rw [List.map_cons, List.find?_cons]
      by_cases hx : x.type = type
      -- The first entry has the type, and no other does.
      · have hhead : (x.entry.1 == type) = true := beq_iff_eq.mpr hx
        rw [hhead]
        simp only [Except.ok.injEq]
        constructor
        · rintro rfl
          exact ⟨x, List.mem_cons_self, hx, rfl⟩
        · rintro ⟨y, hy, hytype, rfl⟩
          rcases List.mem_cons.mp hy with rfl | hy
          · rfl
          · exact absurd (List.mem_map.mpr ⟨y, hy, hytype.trans hx.symm⟩) hnodup.1
      -- It has another one, and the search goes on.
      · have hhead : (x.entry.1 == type) = false := beq_eq_false_iff_ne.mpr hx
        rw [hhead]
        simp only [ih hnodup.2, List.mem_cons]
        constructor
        · rintro ⟨y, hy, hytype, hdata⟩
          exact ⟨y, Or.inr hy, hytype, hdata⟩
        · rintro ⟨y, rfl | hy, hytype, hdata⟩
          · exact absurd hytype hx
          · exact ⟨y, hy, hytype, hdata⟩

/-- Looking a type up finds the data of its one entry. -/
theorem Block.getItem_map (block : Block) (type : Nat) (data : Bytes) :
    block.map.getItem type = .ok data ↔ block.Holds type data :=
  getItem_map_entry block.entries type data block.nodup

/-- The entry of a type is the only one. -/
theorem Block.holds_unique (block : Block) (type : Nat) (a b : Bytes)
    (ha : block.Holds type a) (hb : block.Holds type b) : a = b := by
  have hread := (block.getItem_map type a).mpr ha
  rw [(block.getItem_map type b).mpr hb] at hread
  exact (Except.ok.inj hread).symm

/-- Blocks that are written alike have the same dictionary. -/
theorem Block.map_eq_of_encode_eq {a b : Block} (h : a.encode = b.encode) : a.map = b.map := by
  have hdata := (vec_append_inj 2 _ _ [] [] a.length_lt b.length_lt
    (congrArg (· ++ []) h)).1
  have ha := (readAll_extensionStep _ _).mpr ⟨a.entries, rfl, a.nodup, rfl⟩
  have hb := (readAll_extensionStep _ _).mpr ⟨b.entries, rfl, b.nodup, rfl⟩
  rw [hdata, hb] at ha
  exact (Except.ok.inj ha).symm

end Protocol

end P2CTools
