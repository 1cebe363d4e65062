import P2CTools.Source.Tls13
import P2CTools.Theory.Acceptance
import P2CTools.Wire.Framing

/-!
# The Framing of a Proof

A proof is its version byte and five messages with nothing between them, and
the messages can be found again because each announces its own size.

`WellFramed` is all that this needs: a message of at least four bytes whose
three-byte length is the length of the rest. Such messages are self-delimiting
whatever their types and contents, so the general facts about self-delimiting
words apply to any two proofs, whatever domain and challenge they were
accepted for. The client takes its messages out of a buffer by the same rule,
which `popHandshake_eq_some_iff` makes explicit.

## Main definitions

* `WellFramed`: A message announces its own size.
* `FramedProof`: A version byte and five well-framed messages.

## Theorems

* `wellFramed_selfDelimiting`: Well-framed messages are self-delimiting.
* `FramedProof.inj`: Framed proofs do not extend each other.
* `parseProof_framed`: An accepted proof is its messages.
* `parseProof_canonical_prefix_free`: Accepted proofs are canonical, and none
  extends another.
* `popHandshake_eq_some_iff`, `popHandshake_eq_none_iff`: What the client
  takes out of a buffer.
-/

namespace P2CTools

open Wire Protocol Grammar Tls13

/-- A message of at least four bytes whose three-byte length is the length of
    its body. -/
def WellFramed (message : Bytes) : Prop :=
  4 ≤ message.length ∧ announcedSize message = message.length

instance (message : Bytes) : Decidable (WellFramed message) :=
  inferInstanceAs (Decidable (4 ≤ message.length ∧ announcedSize message = message.length))

theorem slice_append_left (a x : Bytes) (start stop : Nat) (h : stop ≤ a.length) :
    slice (a ++ x) start stop = slice a start stop := by
  unfold slice
  by_cases hle : start ≤ a.length
  · rw [List.drop_append_of_le_length hle, List.take_append_of_le_length]
    rw [List.length_drop]
    omega
  · rw [Nat.sub_eq_zero_of_le (by omega), List.take_zero, List.take_zero]

theorem announcedSize_append (a x : Bytes) (h : 4 ≤ a.length) :
    announcedSize (a ++ x) = announcedSize a := by
  rw [announcedSize, announcedSize, slice_append_left a x 1 4 h]

theorem wellFramed_frame (type : Nat) (body : Bytes) (h : body.length < 16777216) :
    WellFramed (frame type body) := by
  have hslice : slice (frame type body) 1 4 = be 3 body.length := by
    rw [frame, be_one, vec, slice, List.singleton_append, List.drop_succ_cons, List.drop_zero,
      List.take_left' (length_be 3 body.length)]
  refine ⟨by rw [length_frame]; omega, ?_⟩
  rw [announcedSize, hslice, beNat_be 3 _ h, length_frame]
  omega

theorem frame_inj {type : Nat} {a b : Bytes} (h : frame type a = frame type b) : a = b := by
  have hlen : a.length = b.length := by
    have hboth := congrArg List.length h
    rw [length_frame, length_frame] at hboth
    omega
  rw [frame, frame, vec, vec, hlen] at h
  exact List.append_cancel_left (List.append_cancel_left h)

theorem drop_frame (type : Nat) (body : Bytes) : (frame type body).drop 4 = body := by
  rw [frame, vec, ← List.append_assoc]
  exact List.drop_left' (by rw [List.length_append, length_be, length_be])

/-- A well-framed message is its type, its length and its body. -/
theorem WellFramed.eq_frame {message : Bytes} (h : WellFramed message) :
    ∃ type body, type < 256 ∧ body.length < 16777216 ∧ message = frame type body := by
  rcases h with ⟨hlen, hsize⟩
  match message with
  | x :: a :: b :: c :: body =>
      have hlt := beNat_lt [a, b, c]
      have hx := x.toNat_lt
      simp only [List.length_cons, List.length_nil] at hlt
      have hannounced : announcedSize (x :: a :: b :: c :: body) = beNat [a, b, c] + 4 := rfl
      rw [hannounced] at hsize
      simp only [List.length_cons] at hsize
      -- The type is the first byte, and the next three give the length of the body.
      refine ⟨x.toNat, body, by omega, by omega, ?_⟩
      rw [frame, be_one, UInt8.ofNat_toNat, vec, show body.length = beNat [a, b, c] by omega,
        be_beNat_of_length 3 [a, b, c] rfl]
      rfl

/-- Well-framed messages are self-delimiting. -/
theorem wellFramed_selfDelimiting : SelfDelimiting WellFramed := by
  rintro a b x y ⟨ha, hasize⟩ ⟨hb, hbsize⟩ h
  -- The first four bytes agree, so the announced sizes do.
  have hlen : a.length = b.length := by
    rw [← hasize, ← hbsize, ← announcedSize_append a x ha, h, announcedSize_append b y hb]
  exact List.append_inj h hlen

theorem Grammar.ProofTree.wellFramed_messages {name challenge : Bytes}
    (t : ProofTree name challenge) : ∀ m ∈ t.messages, WellFramed m := by
  have hc := t.client_le
  have hs := t.server_le
  have he := t.encrypted_le
  have hct := t.certificate_le
  have hv := t.verify_le
  have hmax : maxCertificateMessageSize = 49152 := rfl
  -- Each message is below its limit, so its length fits three bytes.
  intro m hm
  simp only [ProofTree.messages, ProofTree.hashed, List.cons_append, List.nil_append,
    List.mem_cons, List.not_mem_nil, or_false] at hm
  rcases hm with rfl | rfl | rfl | rfl | rfl
  · exact wellFramed_frame _ _ (by omega)
  · exact wellFramed_frame _ _ (by omega)
  · exact wellFramed_frame _ _ (by omega)
  · exact wellFramed_frame _ _ (by omega)
  · exact wellFramed_frame _ _ (by omega)

/-- The bytes of a proof are its version byte and five well-framed messages. -/
structure FramedProof (e : Bytes) (messages : List Bytes) : Prop where
  bytes : be 1 proofVersion ++ messages.flatten = e
  length : messages.length = 5
  wellFramed : ∀ m ∈ messages, WellFramed m

/-- Framed proofs that agree with something behind them are the same. -/
theorem FramedProof.inj {e f : Bytes} {ms ns : List Bytes} (he : FramedProof e ms)
    (hf : FramedProof f ns) (x y : Bytes) (h : e ++ x = f ++ y) : ms = ns ∧ x = y := by
  rw [← he.bytes, ← hf.bytes, List.append_assoc, List.append_assoc] at h
  exact wellFramed_selfDelimiting.flatten_inj ms ns x y (he.length.trans hf.length.symm)
    he.wellFramed hf.wellFramed (List.append_cancel_left h)

theorem FramedProof.messages_unique {e : Bytes} {ms ns : List Bytes} (hm : FramedProof e ms)
    (hn : FramedProof e ns) : ms = ns :=
  (hm.inj hn [] [] rfl).1

/-- A framed proof at the front of another is that other one. -/
theorem FramedProof.eq_of_isPrefix {e f : Bytes} {ms ns : List Bytes} (he : FramedProof e ms)
    (hf : FramedProof f ns) (h : e <+: f) : e = f := by
  rcases h with ⟨x, hx⟩
  have hnil := (he.inj hf x [] (by rw [hx, List.append_nil])).2
  rw [← hx, hnil, List.append_nil]

/-- An accepted proof is its version byte and its five messages. -/
theorem parseProof_framed {e : Bytes} {d : Str} {c : Bytes} {p : ParsedProof}
    (h : parseProof e d c = .ok p) : FramedProof e p.messages := by
  rcases (parseProof_eq_ok_iff e d c p).mp h with ⟨-, -, -, -, name, -, t, rfl, rfl⟩
  exact ⟨rfl, rfl, t.wellFramed_messages⟩

/-- The five messages a client captured, in the order of a proof. -/
def Tls13.TlsProofMessages.messages (m : TlsProofMessages) : List Bytes :=
  [m.clientHello, m.serverHello, m.encryptedExtensions, m.certificate, m.certificateVerify]

theorem Tls13.TlsProofMessages.framed (m : TlsProofMessages)
    (h : ∀ x ∈ m.messages, WellFramed x) : FramedProof m.encodedProof m.messages :=
  ⟨rfl, rfl, h⟩

/-- Accepted proofs are canonical: the messages are the only way to cut one,
    and no accepted proof, for whatever domain and challenge, properly extends
    another. -/
theorem parseProof_canonical_prefix_free (e : Bytes) (d : Str) (c : Bytes) (p : ParsedProof)
    (h : parseProof e d c = .ok p) :
    be 1 2 ++ p.messages.flatten = e ∧
    (∀ m ∈ p.messages, 4 ≤ m.length ∧ beNat (slice m 1 4) = (m.drop 4).length) ∧
    (∀ f, f <+: e ∨ e <+: f → f ≠ e → ∀ d' c' q, parseProof f d' c' ≠ .ok q) ∧
    (∀ m : TlsProofMessages, (∀ x ∈ m.messages, WellFramed x) → m.encodedProof = e →
      p.messages = m.messages) := by
  have hframed := parseProof_framed h
  refine ⟨hframed.bytes, fun m hm => ?_, fun f hf hne d' c' q hq => ?_, fun m hm he => ?_⟩
  · rcases hframed.wellFramed m hm with ⟨hlen, hsize⟩
    rw [announcedSize] at hsize
    rw [List.length_drop]
    omega
  -- A prefix or an extension that is accepted is cut in the same way.
  · have hq' := parseProof_framed hq
    rcases hf with hf | hf
    · exact hne (hq'.eq_of_isPrefix hframed hf)
    · exact hne (hframed.eq_of_isPrefix hq' hf).symm
  · have hm' := m.framed hm
    rw [he] at hm'
    exact hframed.messages_unique hm'

theorem vectorProof_canonical :
    be 1 2 ++ vectorMessages.flatten = vectorProof ∧
    ∀ m ∈ vectorMessages, 4 ≤ m.length ∧ beNat (slice m 1 4) = (m.drop 4).length := by
  rcases parseProof_vectorProof with ⟨p, hp, hmessages⟩
  have hcanonical := parseProof_canonical_prefix_free _ _ _ p hp
  rw [hmessages] at hcanonical
  exact ⟨hcanonical.1, hcanonical.2.1⟩

/-- What the client takes out of a buffer is a well-framed message of at most
    64 KiB from its front. -/
theorem popHandshake_eq_some_iff (buffer message rest : Bytes) :
    popHandshake buffer = .ok (some (message, rest)) ↔
      WellFramed message ∧ message.length ≤ maxCapturedHandshake ∧ buffer = message ++ rest := by
  unfold popHandshake
  constructor
  · intro h
    by_cases hshort : buffer.length < 4
    · rw [if_pos hshort] at h
      exact nomatch h
    · rw [if_neg hshort] at h
      by_cases hbig : announcedSize buffer > maxCapturedHandshake
      · rw [if_pos hbig] at h
        exact nomatch h
      · rw [if_neg hbig] at h
        by_cases hpart : buffer.length < announcedSize buffer
        · rw [if_pos hpart] at h
          exact nomatch h
        -- The message is what the header announces, and the header is in its front.
        · rw [if_neg hpart, Except.ok.injEq, Option.some.injEq, Prod.mk.injEq] at h
          rcases h with ⟨rfl, rfl⟩
          have hsize : 4 ≤ announcedSize buffer := Nat.le_add_left 4 _
          have hlen : (buffer.take (announcedSize buffer)).length = announcedSize buffer := by
            rw [List.length_take]
            omega
          refine ⟨⟨by omega, ?_⟩, by omega, (List.take_append_drop _ _).symm⟩
          rw [hlen, ← announcedSize_append _ (buffer.drop (announcedSize buffer)) (by omega),
            List.take_append_drop]
  -- Its header announces it, whatever follows.
  · rintro ⟨⟨hlen, hsize⟩, hmax, rfl⟩
    have hannounced := announcedSize_append message rest hlen
    rw [hannounced, hsize, if_neg (by rw [List.length_append]; omega), if_neg (by omega),
      if_neg (by rw [List.length_append]; omega), List.take_left, List.drop_left]

/-- The client waits while the buffer does not hold a whole message. -/
theorem popHandshake_eq_none_iff (buffer : Bytes) :
    popHandshake buffer = .ok none ↔
      buffer.length < 4 ∨
        (announcedSize buffer ≤ maxCapturedHandshake ∧ buffer.length < announcedSize buffer) := by
  unfold popHandshake
  by_cases hshort : buffer.length < 4
  · rw [if_pos hshort]
    exact iff_of_true rfl (Or.inl hshort)
  · rw [if_neg hshort]
    by_cases hbig : announcedSize buffer > maxCapturedHandshake
    -- Too long a message raises an error instead.
    · rw [if_pos hbig]
      refine iff_of_false (fun h => nomatch h) ?_
      rintro (h | ⟨h, -⟩)
      · exact hshort h
      · exact Nat.not_lt.mpr h hbig
    · rw [if_neg hbig]
      by_cases hpart : buffer.length < announcedSize buffer
      · rw [if_pos hpart]
        exact iff_of_true rfl (Or.inr ⟨Nat.not_lt.mp hbig, hpart⟩)
      -- A whole message is taken out instead.
      · rw [if_neg hpart]
        refine iff_of_false (fun h => nomatch h) ?_
        rintro (h | ⟨-, h⟩)
        · exact hshort h
        · exact hpart h

end P2CTools
