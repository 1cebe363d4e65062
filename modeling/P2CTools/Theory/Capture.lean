import P2CTools.Theory.Framing

/-!
# What a Capture Holds

The two receive loops of the client against any peer.

The peer chooses the types, sizes and contents of its records, and where the
records end inside a message. A pass of either loop is described by one
equivalence: a record is skipped, or it is a handshake record in the clear, or
it opens under the next nonce to a piece of the handshake. From that the
invariant of each loop follows by the rule for its heads. In the clear the
ServerHello and the buffer are the fragments taken so far. Once the handshake
is encrypted, the captured messages and the buffer are the contents opened so
far, the sequence number counts the records opened, and the buffer never holds
a message that could still be taken out.

The nonce of a record is the initialisation vector combined with its number.
Two numbers that fit the vector give two nonces, and a number that does not
fit stops the client.

## Main definitions

* `kept`: The records a loop does not skip.
* `nonceOf`: The nonce of the `k`-th record.
* `Opens`: A record opens to a type and a content.
* `OpenedInOrder`: Consecutive records and their contents.
* `Gathered`: The invariant of the encrypted loop.

## Theorems

* `nonceOf_inj`: No two records share a nonce.
* `decryptRecord_eq_ok_iff`, `popMessages_eq_ok_iff`, `helloStep_eq_ok_iff`,
  `encryptedStep_eq_ok_iff`: What one pass does.
* `hello_invariant`, `gathered_invariant`: What holds at the heads of the loops.
* `receiveFlight_sound`: What the client holds when the loops finish.
-/

namespace P2CTools.Tls13

open Wire

section Nonces

/-- The nonce of the `k`-th record. -/
def nonceOf (iv : Bytes) (k : Nat) : Bytes :=
  List.zipWith (· ^^^ ·) iv (be iv.length k)

theorem zipWith_xor_inj (a b c : Bytes) (hb : b.length = a.length) (hc : c.length = a.length)
    (h : List.zipWith (· ^^^ ·) a b = List.zipWith (· ^^^ ·) a c) : b = c := by
  induction a generalizing b c with
  | nil =>
      rw [List.eq_nil_of_length_eq_zero hb, List.eq_nil_of_length_eq_zero hc]
  | cons x a ih =>
      match b, c with
      | y :: b, z :: c =>
          rw [List.zipWith_cons_cons, List.zipWith_cons_cons, List.cons.injEq] at h
          rcases h with ⟨hyz, htail⟩
          -- The same byte combined in twice is gone.
          have hy : y = z := by
            have hxor := congrArg (x ^^^ ·) hyz
            simp only [← UInt8.xor_assoc, UInt8.xor_self, UInt8.zero_xor] at hxor
            exact hxor
          rw [hy, ih b c (Nat.succ.inj hb) (Nat.succ.inj hc) htail]

/-- Numbers that fit the vector have distinct nonces. -/
theorem nonceOf_inj (iv : Bytes) (j k : Nat) (hj : j < 256 ^ iv.length) (hk : k < 256 ^ iv.length)
    (h : nonceOf iv j = nonceOf iv k) : j = k :=
  be_inj iv.length j k hj hk
    (zipWith_xor_inj iv _ _ (length_be _ _) (length_be _ _) h)

theorem recordNonce_eq_ok_iff (iv nonce : Bytes) (k : Nat) :
    recordNonce iv k = .ok nonce ↔ k < 2 ^ 64 ∧ k < 256 ^ iv.length ∧ nonce = nonceOf iv k := by
  unfold recordNonce
  simp only [bind_eq_ok_iff, failIf_eq_ok_iff, exists_const, pure_eq_ok_iff, not_not,
    toBytesBig_eq_ok_iff, Int.toNat_natCast]
  constructor
  · rintro ⟨hk, _, ⟨-, hfits, rfl⟩, rfl⟩
    exact ⟨hk, by exact_mod_cast hfits, rfl⟩
  · rintro ⟨hk, hfits, rfl⟩
    exact ⟨hk, _, ⟨Int.natCast_nonneg k, by exact_mod_cast hfits, rfl⟩, rfl⟩

end Nonces

section Records

/-- A record that opens, as the `k`-th, to an inner type and a content. -/
def Opens (A : Aead) (keys : Keys) (k : Nat) (r : Record) (type : UInt8) (content : Bytes) :
    Prop :=
  k < 2 ^ 64 ∧ k < 256 ^ keys.iv.length ∧ ∃ plaintext,
    A.decrypt keys.cipherSuite keys.key (nonceOf keys.iv k) r.fragment r.header = .ok plaintext ∧
      rstripZeros plaintext = content ++ [type]

theorem splitInner_eq_ok_iff (unpadded content : Bytes) (type : Nat) :
    splitInner unpadded = .ok (type, content) ↔
      ∃ x : UInt8, type = x.toNat ∧ unpadded = content ++ [x] := by
  unfold splitInner
  cases unpadded using List.reverseRecOn with
  | nil => simp only [List.getLast?_nil, reduceCtorEq, List.nil_eq, List.append_eq_nil_iff,
      List.cons_ne_self, and_false, exists_false]
  | append_singleton b x =>
      simp only [List.getLast?_concat, List.dropLast_concat, Except.ok.injEq, Prod.mk.injEq]
      constructor
      · rintro ⟨rfl, rfl⟩
        exact ⟨x, rfl, rfl⟩
      · rintro ⟨y, rfl, h⟩
        rcases List.append_inj' h rfl with ⟨rfl, hxy⟩
        rw [List.head_eq_of_cons_eq hxy]
        exact ⟨rfl, rfl⟩

theorem decryptRecord_eq_ok_iff (A : Aead) (keys : Keys) (k : Nat) (r : Record) (type : Nat)
    (content : Bytes) :
    decryptRecord A keys k r.header r.fragment = .ok (type, content) ↔
      ∃ x : UInt8, type = x.toNat ∧ Opens A keys k r x content := by
  unfold decryptRecord Opens
  simp only [bind_eq_ok_iff, recordNonce_eq_ok_iff, handle_error_eq_ok_iff, splitInner_eq_ok_iff]
  constructor
  · rintro ⟨_, ⟨hk, hfits, rfl⟩, plaintext, hopen, x, rfl, hsplit⟩
    exact ⟨x, rfl, hk, hfits, plaintext, hopen, hsplit⟩
  · rintro ⟨x, rfl, hk, hfits, plaintext, hopen, hsplit⟩
    exact ⟨_, ⟨hk, hfits, rfl⟩, plaintext, hopen, x, rfl, hsplit⟩

theorem raiseAlert_ne_ok {α : Type} (alert : Bytes) (x : α) : raiseAlert alert ≠ .ok x := by
  unfold raiseAlert
  split
  · exact fun h => nomatch h
  · exact fun h => nomatch h

theorem Record.isSkipped_iff (r : Record) :
    r.isSkipped = true ↔ r.contentType = contentChangeCipherSpec ∧ r.fragment = [0x01] := by
  rw [Record.isSkipped, Bool.and_eq_true, beq_iff_eq, beq_iff_eq]

/-- The records that a loop does not skip. -/
def kept (records : List Record) : List Record :=
  records.filter fun r => !r.isSkipped

theorem kept_concat_skipped (records : List Record) (r : Record) (h : r.isSkipped = true) :
    kept (records ++ [r]) = kept records := by
  rw [kept, List.filter_append, List.filter_cons_of_neg (by rw [h]; decide), List.filter_nil,
    List.append_nil, kept]

theorem kept_concat (records : List Record) (r : Record) (h : r.isSkipped = false) :
    kept (records ++ [r]) = kept records ++ [r] := by
  rw [kept, List.filter_append, List.filter_cons_of_pos (by rw [h]; decide), List.filter_nil, kept]

theorem skipped_of_not_mem_kept {records : List Record} {r : Record} (hr : r ∈ records)
    (hkept : r ∉ kept records) :
    r.contentType = contentChangeCipherSpec ∧ r.fragment = [0x01] := by
  rw [← Record.isSkipped_iff]
  by_contra hskip
  refine hkept (List.mem_filter.mpr ⟨hr, ?_⟩)
  rw [Bool.not_eq_true] at hskip
  rw [hskip]
  rfl

end Records

section Messages

variable {Cert Key : Type} (X : X509 Cert Key)

/-- The type of a message, from its first byte. -/
def messageType (message : Bytes) : Option Nat :=
  message.head?.map UInt8.toNat

theorem checkMessage_eq_ok_iff (expectedType : Nat) (message : Bytes) (u : Unit) :
    checkMessage X expectedType message = .ok u ↔
      messageType message = some expectedType ∧
        (expectedType = Protocol.certificate → validateCertificateMessage X message = .ok u) := by
  unfold checkMessage messageType
  simp only [bind_eq_ok_iff, failIf_eq_ok_iff, exists_const, getIndex_eq_ok_iff, ne_eq, not_not,
    Option.map_eq_some_iff, List.head?_eq_getElem?]
  -- Only the Certificate is validated at once.
  by_cases hcert : expectedType = Protocol.certificate
  · rw [if_pos hcert, handle_error_eq_ok_iff]
    constructor
    · rintro ⟨x, hx, htype, hcheck⟩
      exact ⟨⟨x, hx, htype⟩, fun _ => hcheck⟩
    · rintro ⟨⟨x, hx, htype⟩, hcheck⟩
      exact ⟨x, hx, htype, hcheck hcert⟩
  · rw [if_neg hcert]
    constructor
    · rintro ⟨x, hx, htype, -⟩
      exact ⟨⟨x, hx, htype⟩, fun h => absurd h hcert⟩
    · rintro ⟨⟨x, hx, htype⟩, -⟩
      exact ⟨x, hx, htype, rfl⟩

/-- Messages taken out one after the other, for the first of the expected
    types. -/
inductive TakenAs : List Nat → List Bytes → Prop
  | nil (expected : List Nat) : TakenAs expected []
  | cons (expectedType : Nat) (expected : List Nat) (message : Bytes) (messages : List Bytes)
      (framed : WellFramed message) (size : message.length ≤ maxCapturedHandshake)
      (check : checkMessage X expectedType message = .ok ()) (tl : TakenAs expected messages) :
      TakenAs (expectedType :: expected) (message :: messages)

/-- The inner loop takes messages out until all are captured or the buffer
    holds no whole message. -/
theorem popMessages_eq_ok_iff (expected : List Nat) (captured captured' : List Bytes)
    (buffer rest : Bytes) :
    popMessages X expected captured buffer = .ok (captured', rest) ↔
      ∃ messages, captured' = captured ++ messages ∧ buffer = messages.flatten ++ rest ∧
        TakenAs X expected messages ∧
        (messages.length < expected.length → popHandshake rest = .ok none) := by
  induction expected generalizing captured buffer with
  | nil =>
      rw [popMessages, Except.ok.injEq, Prod.mk.injEq]
      constructor
      · rintro ⟨rfl, rfl⟩
        exact ⟨[], (List.append_nil _).symm, rfl, TakenAs.nil [], fun h => absurd h (Nat.not_lt_zero _)⟩
      · rintro ⟨messages, rfl, rfl, htaken, -⟩
        cases htaken with
        | nil => exact ⟨(List.append_nil _).symm, rfl⟩
  | cons expectedType expected ih =>
      rw [popMessages, bind_eq_ok_iff]
      constructor
      · rintro ⟨popped, hpop, hloop⟩
        match popped with
        -- No whole message: the loop ends with the buffer as it is.
        | none =>
            simp only [Except.ok.injEq, Prod.mk.injEq] at hloop
            rcases hloop with ⟨rfl, rfl⟩
            exact ⟨[], (List.append_nil _).symm, rfl, TakenAs.nil _, fun _ => hpop⟩
        -- A message of the expected type, and then the others from the rest.
        | some (message, buffer') =>
            rcases (popHandshake_eq_some_iff _ _ _).mp hpop with ⟨hframed, hsize, rfl⟩
            rcases (bind_eq_ok_iff _ _ _).mp hloop with ⟨u, hcheck, hloop⟩
            rcases (ih _ _).mp hloop with ⟨messages, rfl, rfl, htaken, hwait⟩
            refine ⟨message :: messages, ?_, ?_,
              TakenAs.cons _ _ _ _ hframed hsize hcheck htaken, fun h => hwait ?_⟩
            · rw [List.append_assoc, List.singleton_append]
            · rw [List.flatten_cons, List.append_assoc]
            · exact Nat.lt_of_succ_lt_succ h
      · rintro ⟨messages, rfl, rfl, htaken, hwait⟩
        cases htaken with
        -- Nothing taken although something is expected, so the buffer waits.
        | nil =>
            refine ⟨none, hwait (Nat.succ_pos _), ?_⟩
            simp only [List.append_nil, List.flatten_nil, List.nil_append]
        | cons _ _ message messages hframed hsize hcheck htaken =>
            rw [List.flatten_cons, List.append_assoc]
            refine ⟨some (message, messages.flatten ++ rest),
              (popHandshake_eq_some_iff _ _ _).mpr ⟨hframed, hsize, rfl⟩, ?_⟩
            refine (bind_eq_ok_iff _ _ _).mpr ⟨(), hcheck, (ih _ _).mpr ⟨messages, ?_, rfl, htaken,
              fun h => hwait (Nat.succ_lt_succ h)⟩⟩
            rw [List.append_assoc, List.singleton_append]

variable {X}

theorem TakenAs.length_le {expected : List Nat} {messages : List Bytes}
    (h : TakenAs X expected messages) : messages.length ≤ expected.length := by
  induction h with
  | nil expected => exact Nat.zero_le _
  | cons _ _ _ _ _ _ _ _ ih => exact Nat.succ_le_succ ih

/-- Messages of the expected types, in their order. -/
def InOrder (messages : List Bytes) : Prop :=
  messages.length ≤ expectedMessages.length ∧
    messages.map messageType = (expectedMessages.take messages.length).map some ∧
    ∀ m ∈ messages, WellFramed m ∧ m.length ≤ maxCapturedHandshake

theorem TakenAs.types {expected : List Nat} {messages : List Bytes}
    (h : TakenAs X expected messages) :
    messages.map messageType = (expected.take messages.length).map some := by
  induction h with
  | nil expected => rfl
  | cons expectedType expected message messages _ _ hcheck _ ih =>
      rw [List.map_cons, List.length_cons, List.take_succ_cons, List.map_cons, ih,
        ((checkMessage_eq_ok_iff X _ _ _).mp hcheck).1]

theorem TakenAs.framed {expected : List Nat} {messages : List Bytes}
    (h : TakenAs X expected messages) :
    ∀ m ∈ messages, WellFramed m ∧ m.length ≤ maxCapturedHandshake := by
  induction h with
  | nil expected => exact fun m hm => absurd hm List.not_mem_nil
  | cons _ _ message messages hframed hsize _ _ ih =>
      intro m hm
      rcases List.mem_cons.mp hm with rfl | hm
      · exact ⟨hframed, hsize⟩
      · exact ih m hm

/-- Taking messages for the types that are still expected keeps the order. -/
theorem InOrder.append {captured messages : List Bytes} (h : InOrder captured)
    (htaken : TakenAs X (expectedMessages.drop captured.length) messages) :
    InOrder (captured ++ messages) := by
  rcases h with ⟨hlen, htypes, hframed⟩
  have hmore := htaken.length_le
  rw [List.length_drop] at hmore
  refine ⟨by rw [List.length_append]; omega, ?_, fun m hm => ?_⟩
  · rw [List.map_append, htypes, htaken.types, ← List.map_append, List.length_append,
      List.take_add]
  · rcases List.mem_append.mp hm with hm | hm
    · exact hframed m hm
    · exact htaken.framed m hm

end Messages

section Passes

/-- A pass of either loop skips its record, or takes a record of the one type
    that the loop is for. -/
theorem received_eq_ok_iff {σ : Type} (r : Record) (s s' : σ) (type : Nat)
    (htype : type ≠ contentAlert) (e : PyErr) (body : Except PyErr σ) :
    (if r.isSkipped then .ok s
      else if r.contentType = contentAlert then raiseAlert r.fragment
      else failIf (r.contentType ≠ type) e >>= fun _ => body) = .ok s' ↔
      (r.isSkipped = true ∧ s' = s) ∨
        (r.isSkipped = false ∧ r.contentType = type ∧ body = .ok s') := by
  cases hskip : r.isSkipped with
  | true =>
      rw [if_pos rfl, Except.ok.injEq]
      simp only [true_and, reduceCtorEq, false_and, or_false, eq_comm]
  | false =>
      rw [if_neg Bool.false_ne_true]
      by_cases halert : r.contentType = contentAlert
      -- An alert always raises, and is not what the loop is for.
      · rw [if_pos halert]
        refine iff_of_false (raiseAlert_ne_ok _ _) ?_
        rintro (⟨h, -⟩ | ⟨-, h, -⟩)
        · exact Bool.false_ne_true h
        · exact htype (h.symm.trans halert)
      · rw [if_neg halert]
        simp only [bind_eq_ok_iff, failIf_eq_ok_iff, exists_const, ne_eq, not_not, reduceCtorEq,
          false_and, false_or, true_and]

/-- A pass of the loop in the clear skips its record, or takes a fragment and
    looks for the ServerHello. -/
theorem helloStep_eq_ok_iff (r : Record) (s s' : HelloState) :
    helloStep r s = .ok s' ↔
      (r.isSkipped = true ∧ s' = s) ∨
      (r.isSkipped = false ∧ r.contentType = contentHandshake ∧
        ((popHandshake (s.plaintextHandshake ++ r.fragment) = .ok none ∧
            s' = ⟨none, s.plaintextHandshake ++ r.fragment⟩) ∨
          ∃ message rest,
            popHandshake (s.plaintextHandshake ++ r.fragment) = .ok (some (message, rest)) ∧
              s' = ⟨some message, rest⟩)) := by
  refine (received_eq_ok_iff r s s' contentHandshake (by decide) _ _).trans ?_
  refine or_congr_right (and_congr_right fun _ => and_congr_right fun _ => ?_)
  rw [bind_eq_ok_iff]
  constructor
  · rintro ⟨popped, hpop, hs⟩
    -- What was popped is a whole message, or nothing yet.
    rcases popped with _ | ⟨message, rest⟩
    · exact Or.inl ⟨hpop, (Except.ok.inj hs).symm⟩
    · exact Or.inr ⟨message, rest, hpop, (Except.ok.inj hs).symm⟩
  · rintro (⟨hpop, rfl⟩ | ⟨message, rest, hpop, rfl⟩)
    · exact ⟨none, hpop, rfl⟩
    · exact ⟨some (message, rest), hpop, rfl⟩

variable {Cert Key : Type} (X : X509 Cert Key)

theorem acceptFragment_eq_ok_iff (inner : Bytes) (s s' : EncryptedState) :
    acceptFragment X inner s = .ok s' ↔
      (s.encryptedHandshake ++ inner).length ≤ maxCapturedHandshake ∧
        popMessages X (expectedMessages.drop s.captured.length) s.captured
          (s.encryptedHandshake ++ inner) = .ok (s'.captured, s'.encryptedHandshake) ∧
        s'.sequence = s.sequence + 1 := by
  unfold acceptFragment
  simp only [bind_eq_ok_iff, failIf_eq_ok_iff, exists_const, pure_eq_ok_iff, gt_iff_lt, not_lt]
  refine and_congr_right fun _ => ?_
  constructor
  · rintro ⟨⟨captured, buffer⟩, hpop, rfl⟩
    exact ⟨hpop, rfl⟩
  · rintro ⟨hpop, hsequence⟩
    refine ⟨(s'.captured, s'.encryptedHandshake), hpop, ?_⟩
    rcases s' with ⟨captured, buffer, sequence⟩
    rw [EncryptedState.mk.injEq]
    exact ⟨rfl, rfl, hsequence.symm⟩

/-- A pass of the encrypted loop skips its record, or opens it under the next
    nonce and takes its content as a piece of the handshake. -/
theorem encryptedStep_eq_ok_iff (A : Aead) (keys : Keys) (r : Record) (s s' : EncryptedState) :
    encryptedStep X A keys r s = .ok s' ↔
      (r.isSkipped = true ∧ s' = s) ∨
      (r.isSkipped = false ∧ r.contentType = contentApplicationData ∧
        ∃ content, Opens A keys s.sequence r 22 content ∧ acceptFragment X content s = .ok s') := by
  refine (received_eq_ok_iff r s s' contentApplicationData (by decide) _ _).trans ?_
  refine or_congr_right (and_congr_right fun _ => and_congr_right fun _ => ?_)
  simp only [bind_eq_ok_iff]
  constructor
  · rintro ⟨⟨type, content⟩, hopen, hrest⟩
    by_cases hinner : type = contentAlert
    -- An alert under encryption raises as well.
    · rw [if_pos hinner] at hrest
      exact absurd hrest (raiseAlert_ne_ok _ _)
    · rw [if_neg hinner] at hrest
      simp only [bind_eq_ok_iff, failIf_eq_ok_iff, exists_const, not_not] at hrest
      rcases hrest with ⟨rfl, haccept⟩
      -- The inner type is that of a handshake.
      rcases (decryptRecord_eq_ok_iff A keys _ r _ _).mp hopen with ⟨x, hx, hopens⟩
      have hx22 : x = 22 := UInt8.toNat_inj.mp hx.symm
      rw [hx22] at hopens
      exact ⟨content, hopens, haccept⟩
  · rintro ⟨content, hopens, haccept⟩
    refine ⟨(contentHandshake, content),
      (decryptRecord_eq_ok_iff A keys _ r _ _).mpr ⟨22, rfl, hopens⟩, ?_⟩
    rw [if_neg (by decide : ¬contentHandshake = contentAlert)]
    simp only [bind_eq_ok_iff, failIf_eq_ok_iff, exists_const]
    exact ⟨not_not.mpr rfl, haccept⟩

end Passes

section Invariants

/-- The records taken in the clear, against the state of that loop. -/
structure GatheredHello (records : List Record) (s : HelloState) : Prop where
  types : ∀ r ∈ kept records, r.contentType = contentHandshake
  fragments : ((kept records).map Record.fragment).flatten =
    s.serverHello.getD [] ++ s.plaintextHandshake

theorem hello_invariant {deadline : ℚ} {n n' : Net} {records : List Record} {s : HelloState}
    (h : Reaches (recvRecord deadline) helloStep HelloState.finished ⟨none, []⟩ n records s n') :
    GatheredHello records s := by
  refine h.invariant ⟨fun r hr => absurd hr List.not_mem_nil, rfl⟩ ?_
  rintro before t r t' hunfinished ⟨htypes, hfragments⟩ hstep
  -- The loop is still open, so no ServerHello was taken before this record.
  have hnone : t.serverHello = none := by
    rw [HelloState.finished, Option.isSome_eq_false_iff, Option.isNone_iff_eq_none] at hunfinished
    exact hunfinished
  rw [hnone, Option.getD_none, List.nil_append] at hfragments
  rcases (helloStep_eq_ok_iff r t t').mp hstep with ⟨hskip, rfl⟩ | ⟨hskip, htype, hpop⟩
  -- A skipped record changes neither side.
  · rw [← kept_concat_skipped before r hskip] at htypes hfragments
    refine ⟨htypes, ?_⟩
    rw [hnone, Option.getD_none, List.nil_append]
    exact hfragments
  -- Another one is of the handshake, and its fragment goes to the buffer.
  · refine ⟨?_, ?_⟩
    · rw [kept_concat before r hskip]
      intro r' hr'
      rcases List.mem_append.mp hr' with hr' | hr'
      · exact htypes r' hr'
      · rw [List.mem_singleton.mp hr']
        exact htype
    · rw [kept_concat before r hskip, List.map_append, List.flatten_append, hfragments,
        List.map_singleton, List.flatten_singleton]
      rcases hpop with ⟨-, rfl⟩ | ⟨message, rest, hpop, rfl⟩
      · rfl
      · exact ((popHandshake_eq_some_iff _ _ _).mp hpop).2.2

/-- Consecutive records and their contents: the `k`-th record opens under the
    `k`-th nonce. -/
structure OpenedInOrder (A : Aead) (keys : Keys) (records : List Record) (contents : List Bytes) :
    Prop where
  length : contents.length = records.length
  opens : ∀ k r content, records[k]? = some r → contents[k]? = some content →
    r.contentType = contentApplicationData ∧ Opens A keys k r 22 content

theorem OpenedInOrder.concat {A : Aead} {keys : Keys} {records : List Record}
    {contents : List Bytes} (h : OpenedInOrder A keys records contents) {r : Record}
    {content : Bytes} (htype : r.contentType = contentApplicationData)
    (hopens : Opens A keys records.length r 22 content) :
    OpenedInOrder A keys (records ++ [r]) (contents ++ [content]) := by
  refine ⟨by rw [List.length_append, List.length_append, h.length]; rfl, fun k r' c hr hc => ?_⟩
  by_cases hk : k < records.length
  · rw [List.getElem?_append_left hk] at hr
    rw [List.getElem?_append_left (by rw [h.length]; exact hk)] at hc
    exact h.opens k r' c hr hc
  · -- The last record is the only one that can have this number.
    rw [List.getElem?_append_right (by omega)] at hr
    rw [List.getElem?_append_right (by rw [h.length]; omega), h.length] at hc
    have hlast : k - records.length = 0 := by
      have hlt := (List.getElem?_eq_some_iff.mp hr).1
      rw [List.length_singleton] at hlt
      omega
    rw [hlast, List.getElem?_cons_zero, Option.some.injEq] at hr hc
    rw [← hr, ← hc, show k = records.length by omega]
    exact ⟨htype, hopens⟩

/-- What holds at every head of the encrypted loop. -/
structure Gathered (A : Aead) (keys : Keys) (records : List Record) (s : EncryptedState) : Prop where
  sequence : s.sequence = (kept records).length
  contents : ∃ contents, OpenedInOrder A keys (kept records) contents ∧
    contents.flatten = s.captured.flatten ++ s.encryptedHandshake
  inOrder : InOrder s.captured
  waiting : s.captured.length < expectedMessages.length →
    popHandshake s.encryptedHandshake = .ok none

variable {Cert Key : Type} (X : X509 Cert Key)

theorem gathered_invariant {A : Aead} {keys : Keys} {deadline : ℚ} {n n' : Net}
    {records : List Record} {s : EncryptedState}
    (h : Reaches (recvRecord deadline) (encryptedStep X A keys) EncryptedState.finished ⟨[], [], 0⟩
      n records s n') : Gathered A keys records s := by
  refine h.invariant ⟨rfl, ⟨[], ⟨rfl, fun k r c hr => (nomatch hr)⟩, rfl⟩, ⟨Nat.zero_le _, rfl,
    fun m hm => absurd hm List.not_mem_nil⟩, fun _ => rfl⟩ ?_
  rintro before t r t' - ⟨hsequence, ⟨contents, hopened, hcontents⟩, hinOrder, hwaiting⟩ hstep
  rcases (encryptedStep_eq_ok_iff X A keys r t t').mp hstep
    with ⟨hskip, rfl⟩ | ⟨hskip, htype, content, hopens, haccept⟩
  -- A skipped record takes no sequence number.
  · rw [← kept_concat_skipped before r hskip] at hsequence hopened
    exact ⟨hsequence, ⟨contents, hopened, hcontents⟩, hinOrder, hwaiting⟩
  -- An opened one takes the next, and its content is moved through the buffer into the captured
  -- messages.
  · rcases (acceptFragment_eq_ok_iff X content t t').mp haccept with ⟨-, hpop, hnext⟩
    rcases (popMessages_eq_ok_iff X _ _ _ _ _).mp hpop with ⟨messages, hcaptured, hbuffer, htaken,
      hwait⟩
    rw [hsequence] at hopens
    refine ⟨?_, ⟨contents ++ [content], ?_, ?_⟩, ?_, fun hlt => hwait ?_⟩
    · rw [hnext, hsequence, kept_concat before r hskip, List.length_append, List.length_singleton]
    · rw [kept_concat before r hskip]
      exact hopened.concat htype hopens
    · rw [List.flatten_append, List.flatten_singleton, hcontents, List.append_assoc, hbuffer,
        hcaptured, List.flatten_append, List.append_assoc]
    · rw [hcaptured]
      exact hinOrder.append htaken
    · rw [hcaptured, List.length_append] at hlt
      rw [List.length_drop]
      omega

theorem receive_eq_ok_iff {σ : Type} (deadline : ℚ) (step : Record → σ → Except PyErr σ)
    (finished : σ → Bool) (init s : σ) (n n' : Net) :
    receive deadline step finished init n = .ok (s, n') ↔
      ∃ records, Fed (recvRecord deadline) step finished init n records s n' ∧
        records.length < n.available + 1 :=
  feed_eq_ok_iff stuck _ init s n n'

theorem takeServerHello_eq_ok_iff (s : HelloState) (serverHello : Bytes) :
    takeServerHello s = .ok serverHello ↔ s = ⟨some serverHello, []⟩ := by
  rcases s with ⟨hello, buffer⟩
  unfold takeServerHello
  simp only [bind_eq_ok_iff, failIf_eq_ok_iff, exists_const, ne_eq, not_not, HelloState.mk.injEq]
  cases hello with
  | none => simp only [reduceCtorEq, and_false, false_and]
  | some m => simp only [Except.ok.injEq, Option.some.injEq, and_comm]

/-- How the two loops finish. -/
theorem receiveFlight_eq_ok_iff (A : Aead) (exchange : Bytes → Except PyErr Bytes)
    (sessionId clientHello : Bytes) (deadline : ℚ) (n n' : Net) (flight : Flight) :
    receiveFlight X A exchange sessionId clientHello deadline n = .ok (flight, n') ↔
      ∃ plain encrypted n₁,
        Fed (recvRecord deadline) helloStep HelloState.finished ⟨none, []⟩ n plain
          ⟨some flight.serverHello, []⟩ n₁ ∧ plain.length < n.available + 1 ∧
        flightKeys exchange sessionId clientHello flight.serverHello = .ok flight.keys ∧
        Fed (recvRecord deadline) (encryptedStep X A flight.keys) EncryptedState.finished
          ⟨[], [], 0⟩ n₁ encrypted flight.encrypted n' ∧ encrypted.length < n₁.available + 1 := by
  unfold receiveFlight
  simp only [netM_bind_eq_ok_iff, netM_lift_eq_ok_iff, netM_pure_eq_ok_iff, receive_eq_ok_iff,
    takeServerHello_eq_ok_iff]
  constructor
  · rintro ⟨hello, n₁, ⟨plain, hplain, hlen⟩, serverHello, _, ⟨rfl, rfl⟩, keys, _, ⟨hkeys, rfl⟩,
      state, _, ⟨encrypted, hencrypted, hlen'⟩, rfl, rfl⟩
    exact ⟨plain, encrypted, _, hplain, hlen, hkeys, hencrypted, hlen'⟩
  · rintro ⟨plain, encrypted, n₁, hplain, hlen, hkeys, hencrypted, hlen'⟩
    exact ⟨_, n₁, ⟨plain, hplain, hlen⟩, _, n₁, ⟨rfl, rfl⟩, _, n₁, ⟨hkeys, rfl⟩, _, n',
      ⟨encrypted, hencrypted, hlen'⟩, rfl, rfl⟩

/-- A buffer from which no message can be taken holds no whole message, and
    has not reached the limit. -/
theorem holds_no_message {buffer : Bytes} (h : popHandshake buffer = .ok none) :
    buffer.length < 65536 ∧ ∀ message rest, WellFramed message → buffer ≠ message ++ rest := by
  have hmax : maxCapturedHandshake = 65536 := rfl
  rcases (popHandshake_eq_none_iff buffer).mp h with hshort | ⟨hsize, hpart⟩
  · refine ⟨by omega, ?_⟩
    rintro message rest ⟨hlen, -⟩ rfl
    rw [List.length_append] at hshort
    omega
  · refine ⟨by omega, ?_⟩
    rintro message rest ⟨hlen, hframed⟩ rfl
    rw [announcedSize_append message rest hlen, hframed, List.length_append] at hpart
    omega

/-- Messages in order, as many as are expected, are the three of a flight. -/
theorem InOrder.three {messages : List Bytes} (h : InOrder messages)
    (hall : expectedMessages.length ≤ messages.length) :
    ∃ ee ct cv, messages = [ee, ct, cv] ∧ messageType ee = some 8 ∧ messageType ct = some 11 ∧
      messageType cv = some 15 := by
  rcases h with ⟨hlen, htypes, -⟩
  have hthree : messages.length = 3 := Nat.le_antisymm hlen hall
  match messages with
  | [ee, ct, cv] =>
      change [messageType ee, messageType ct, messageType cv] = [some 8, some 11, some 15] at htypes
      simp only [List.cons.injEq, and_true] at htypes
      exact ⟨ee, ct, cv, rfl, htypes⟩

/-- The nonces of records that were opened in order are distinct. -/
theorem OpenedInOrder.nonce_inj {A : Aead} {keys : Keys} {records : List Record}
    {contents : List Bytes} (h : OpenedInOrder A keys records contents) (j k : Nat)
    (hj : j < records.length) (hk : k < records.length)
    (heq : nonceOf keys.iv j = nonceOf keys.iv k) : j = k := by
  have hfits : ∀ i, i < records.length → i < 256 ^ keys.iv.length := by
    intro i hi
    have hc : i < contents.length := by rw [h.length]; exact hi
    exact (h.opens i _ _ (List.getElem?_eq_getElem hi) (List.getElem?_eq_getElem hc)).2.2.1
  exact nonceOf_inj keys.iv j k (hfits j hj) (hfits k hk) heq

/-- Against any peer: what the client holds when both loops have finished, and
    what it holds at every head of the encrypted loop. -/
theorem receiveFlight_sound (A : Aead) (exchange : Bytes → Except PyErr Bytes)
    (sessionId clientHello : Bytes) (deadline : ℚ) (n : Net) :
    (∀ flight n', receiveFlight X A exchange sessionId clientHello deadline n = .ok (flight, n') →
      ∃ plain encrypted n₁ contents,
        Delivers (recvRecord deadline) n plain n₁ ∧
        Delivers (recvRecord deadline) n₁ encrypted n' ∧
        (∀ r ∈ plain ++ encrypted, r ∉ kept (plain ++ encrypted) →
          r.contentType = 20 ∧ r.fragment = [1]) ∧
        (∀ r ∈ kept plain, r.contentType = 22) ∧
        ((kept plain).map Record.fragment).flatten = flight.serverHello ∧
        OpenedInOrder A flight.keys (kept encrypted) contents ∧
        (∃ ee ct cv, flight.encrypted.captured = [ee, ct, cv] ∧
          contents.flatten = ee ++ ct ++ cv ++ flight.encrypted.encryptedHandshake ∧
          messageType ee = some 8 ∧ messageType ct = some 11 ∧ messageType cv = some 15 ∧
          ∀ m ∈ [ee, ct, cv], WellFramed m ∧ m.length ≤ 65536) ∧
        ∀ j k, j < (kept encrypted).length → k < (kept encrypted).length →
          nonceOf flight.keys.iv j = nonceOf flight.keys.iv k → j = k) ∧
    ∀ keys records s n₁ n', Reaches (recvRecord deadline) (encryptedStep X A keys)
        EncryptedState.finished ⟨[], [], 0⟩ n₁ records s n' →
      (∃ contents, OpenedInOrder A keys (kept records) contents ∧
        s.captured.flatten ++ s.encryptedHandshake = contents.flatten) ∧
      (s.captured.length < 3 → s.encryptedHandshake.length < 65536 ∧
        ∀ message rest, WellFramed message → s.encryptedHandshake ≠ message ++ rest) := by
  constructor
  · intro flight n' hrun
    rcases (receiveFlight_eq_ok_iff X A _ _ _ _ _ _ _).mp hrun with ⟨plain, encrypted, n₁, hplain,
      -, -, hencrypted, -⟩
    rcases hplain.reaches with ⟨hreach, -⟩
    rcases hencrypted.reaches with ⟨hreach', hfinished⟩
    -- The invariants of the two loops at their ends.
    have hhello := hello_invariant hreach
    have hgathered := gathered_invariant X hreach'
    rcases hgathered.contents with ⟨contents, hopened, hcontents⟩
    rcases hgathered.inOrder.three (of_decide_eq_true hfinished) with ⟨ee, ct, cv, hcaptured,
      hee, hct, hcv⟩
    refine ⟨plain, encrypted, n₁, contents, hreach.delivers, hreach'.delivers,
      fun r hr hkept => ?_, hhello.types, ?_, hopened,
      ⟨ee, ct, cv, hcaptured, ?_, hee, hct, hcv, ?_⟩, hopened.nonce_inj⟩
    · exact skipped_of_not_mem_kept hr hkept
    · rw [hhello.fragments]
      exact List.append_nil _
    · rw [hcontents, hcaptured]
      simp only [List.flatten_cons, List.flatten_nil, List.append_nil, List.append_assoc]
    · rw [← hcaptured]
      exact hgathered.inOrder.2.2
  -- At the other heads only the invariant of the encrypted loop is needed.
  · intro keys records s n₁ n' hreach
    have hgathered := gathered_invariant X hreach
    rcases hgathered.contents with ⟨contents, hopened, hcontents⟩
    exact ⟨⟨contents, hopened, hcontents.symm⟩,
      fun hfew => holds_no_message (hgathered.waiting hfew)⟩

end Invariants

end P2CTools.Tls13
