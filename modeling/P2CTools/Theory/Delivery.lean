import P2CTools.Theory.Capture
import P2CTools.Theory.Handshake

/-!
# Delivery of a Server Flight

A flight that the verifier would accept reaches the client whole, however it
is cut up on the way.

The cuts are undone in the order in which they were made. The byte stream
comes in chunks, and `recvExact` puts any chunks together until it has what it
asked for. The stream is a list of records, between which records to be
skipped may stand. The records carry pieces of the messages, and no piece ends
where a message does, except by chance. Each loop waits while its buffer is a
proper front part of the next message, which is what makes the length of the
buffer known: the longest message lacks at least one byte when the next piece
arrives, and a piece has at most 16384 bytes, so the limit of 65536 on the
buffer is never passed.

## Main definitions

* `Net.Supplies`: A connection that will deliver a stream of bytes in time.
* `leftOver`: What a read leaves of a chunk.
* `Record.Sendable`: A record as it stands in a stream.
* `Seals`, `SealedFrom`: Records that carry contents under consecutive nonces.
* `Standing`: Where the encrypted loop stands in a flight.

## Theorems

* `Net.Supplies.take`: A pass takes some of the stream.
* `recvExact_supplies`, `recvRecord_supplies`: Any chunks are put together.
* `popHandshake_partial`: A part of a message is waited for.
* `helloLoop_completes`, `encryptedLoop_completes`: The two loops.
-/

namespace P2CTools.Tls13

open Wire

section Streams

/-- A connection that delivers a stream of bytes, in chunks of any sizes and in
    time: as often as the clock is read on the way the deadline is ahead, and
    the socket takes what is left as its timeout. A read takes at least one
    byte, so the stream costs no more readings than it has bytes; `spare` is
    how many there may be besides. -/
structure Net.Supplies (deadline : ℚ) (spare : Nat) (tail : List NetEvent) (stream : Bytes)
    (n : Net) : Prop where
  timely : ∀ k, n.ticks ≤ k → k < n.ticks + spare + stream.length → n.clock k < deadline
  settimeout : ∀ k, n.ticks ≤ k → k < n.ticks + spare + stream.length →
    n.settimeout (deadline - n.clock k) = .ok ()
  chunks : ∃ chunks : List Bytes, (∀ c ∈ chunks, c ≠ []) ∧
    n.events = chunks.map NetEvent.data ++ tail ∧ chunks.flatten = stream

variable {deadline : ℚ} {spare : Nat} {tail : List NetEvent}

/-- Fewer readings are made from a later one on. -/
theorem Net.Supplies.later {stream stream' : Bytes} {n n' : Net} {spare' : Nat}
    (h : n.Supplies deadline spare tail stream) (hclock : n'.clock = n.clock)
    (hset : n'.settimeout = n.settimeout) (hticks : n.ticks ≤ n'.ticks)
    (hleft : n'.ticks + spare' + stream'.length ≤ n.ticks + spare + stream.length)
    (hchunks : ∃ chunks : List Bytes, (∀ c ∈ chunks, c ≠ []) ∧
      n'.events = chunks.map NetEvent.data ++ tail ∧ chunks.flatten = stream') :
    n'.Supplies deadline spare' tail stream' := by
  refine ⟨fun k hlow hhigh => ?_, fun k hlow hhigh => ?_, hchunks⟩
  · rw [hclock]
    exact h.timely k (by omega) (by omega)
  · rw [hclock, hset]
    exact h.settimeout k (by omega) (by omega)

/-- Before the deadline what is left can be set as a timeout. This takes one
    reading. -/
theorem Net.Supplies.arm {stream : Bytes} {n : Net}
    (h : n.Supplies deadline spare tail stream) (hsome : 0 < spare + stream.length) :
    ∃ t n', Tls13.remainingTimeout deadline n = .ok (t, n') ∧
      Tls13.settimeout t n' = .ok ((), n') ∧ n' = { n with ticks := n.ticks + 1 } := by
  have hleft : 0 < deadline - n.clock n.ticks :=
    sub_pos.mpr (h.timely n.ticks (Nat.le_refl _) (by omega))
  refine ⟨deadline - n.clock n.ticks, { n with ticks := n.ticks + 1 }, ?_, ?_, rfl⟩
  · unfold Tls13.remainingTimeout
    simp only [netM_bind_eq_ok_iff, netM_lift_eq_ok_iff, netM_pure_eq_ok_iff, failIf_eq_ok_iff]
    exact ⟨_, _, rfl, (), _, ⟨not_le.mpr hleft, rfl⟩, rfl, rfl⟩
  · change (n.settimeout (deadline - n.clock n.ticks) >>= _) = _
    rw [h.settimeout n.ticks (Nat.le_refl _) (by omega)]
    rfl

/-- A spare reading is used up. -/
theorem Net.Supplies.arm_spare {stream : Bytes} {n : Net}
    (h : n.Supplies deadline (spare + 1) tail stream) :
    ∃ t n', Tls13.remainingTimeout deadline n = .ok (t, n') ∧
      Tls13.settimeout t n' = .ok ((), n') ∧ n'.Supplies deadline spare tail stream := by
  rcases h.arm (by omega) with ⟨t, n', hremaining, hset, rfl⟩
  exact ⟨t, _, hremaining, hset, h.later rfl rfl (Nat.le_succ _) (by simp only; omega) h.chunks⟩

/-- What a read leaves of a chunk, in front of the others. -/
def leftOver (size : Nat) (b : Bytes) (events : List NetEvent) : List NetEvent :=
  if b.length ≤ size then events else .data (b.drop size) :: events

theorem recv_data {n : Net} {b : Bytes} {events : List NetEvent} (size : Nat)
    (h : n.events = .data b :: events) :
    recv size n = .ok (b.take size, { n with events := leftOver size b events }) := by
  rw [recv, h, leftOver]
  by_cases hle : b.length ≤ size
  · simp only [if_pos hle, List.take_of_length_le hle]
  · simp only [if_neg hle]

/-- What a read takes and what it leaves are the chunks again. -/
theorem leftOver_chunks (size : Nat) (c : Bytes) (cs : List Bytes)
    (hchunks : ∀ d ∈ c :: cs, d ≠ []) :
    ∃ chunks : List Bytes, (∀ d ∈ chunks, d ≠ []) ∧
      leftOver size c (cs.map NetEvent.data ++ tail) = chunks.map NetEvent.data ++ tail ∧
      c.take size ++ chunks.flatten = (c :: cs).flatten := by
  have hcs : ∀ d ∈ cs, d ≠ [] := fun d hd => hchunks d (List.mem_cons_of_mem c hd)
  unfold leftOver
  by_cases hle : c.length ≤ size
  · refine ⟨cs, hcs, if_pos hle, ?_⟩
    rw [List.take_of_length_le hle, List.flatten_cons]
  · -- The chunk is cut, and its rest stays in front of the others.
    refine ⟨c.drop size :: cs, fun d hd => ?_, if_neg hle, ?_⟩
    · rcases List.mem_cons.mp hd with rfl | hd
      · exact List.ne_nil_of_length_pos (by rw [List.length_drop]; omega)
      · exact hcs d hd
    · rw [List.flatten_cons, List.flatten_cons, ← List.append_assoc, List.take_append_drop]

/-- A pass of a loop takes some of the stream, so that the reading it costs is
    one of the stream's. -/
theorem Net.Supplies.take {stream : Bytes} {n : Net} {size : Nat} (hne : stream ≠ [])
    (hsize : 0 < size) (h : n.Supplies deadline spare tail stream) :
    ∃ t n₁ first last n', stream = first ++ last ∧ first ≠ [] ∧ first.length ≤ size ∧
      Tls13.remainingTimeout deadline n = .ok (t, n₁) ∧ Tls13.settimeout t n₁ = .ok ((), n₁) ∧
      Tls13.recv size n₁ = .ok (first, n') ∧ n'.Supplies deadline spare tail last := by
  have hpos := List.length_pos_iff.mpr hne
  rcases h.arm (by omega) with ⟨t, n₁, hremaining, hset, rfl⟩
  rcases h.chunks with ⟨chunks, hchunks, hevents, hstream⟩
  cases chunks with
  | nil =>
      rw [List.flatten_nil] at hstream
      exact absurd hstream.symm hne
  | cons c cs =>
      have hc := List.length_pos_iff.mpr (hchunks c List.mem_cons_self)
      rcases @leftOver_chunks tail size c cs hchunks with ⟨left, hleft, hover, hflatten⟩
      rw [hstream] at hflatten
      have hfirst : c.take size ≠ [] :=
        List.ne_nil_of_length_pos (by rw [List.length_take]; omega)
      have hfirstpos := List.length_pos_iff.mpr hfirst
      have hlen := congrArg List.length hflatten
      rw [List.length_append] at hlen
      refine ⟨t, _, c.take size, left.flatten, _, hflatten.symm, hfirst, List.length_take_le _ _,
        hremaining, hset, recv_data size hevents, h.later rfl rfl (Nat.le_succ _) ?_
          ⟨left, hleft, hover, rfl⟩⟩
      simp only
      omega

/-- A pass that asks for a part of the stream takes a part of that. -/
theorem Net.Supplies.pass {wanted rest : Bytes} {n : Net} (hne : wanted ≠ [])
    (h : n.Supplies deadline spare tail (wanted ++ rest)) :
    ∃ t n₁ first last n', wanted = first ++ last ∧ first ≠ [] ∧
      Tls13.remainingTimeout deadline n = .ok (t, n₁) ∧ Tls13.settimeout t n₁ = .ok ((), n₁) ∧
      Tls13.recv wanted.length n₁ = .ok (first, n') ∧
      n'.Supplies deadline spare tail (last ++ rest) := by
  rcases h.take (List.append_ne_nil_of_left_ne_nil hne rest) (List.length_pos_iff.mpr hne)
    with ⟨t, n₁, first, last, n', hstream, hfirst, hle, hremaining, hset, hrecv, hn'⟩
  rcases List.append_eq_append_iff.mp hstream with ⟨more, rfl, hrest⟩ | ⟨more, hwanted, rfl⟩
  · -- All that was wanted is there, so nothing beyond it was taken.
    have hnil : more = [] := by
      rw [List.length_append] at hle
      exact List.eq_nil_of_length_eq_zero (by omega)
    subst hnil
    rw [List.nil_append] at hrest
    rw [← hrest] at hn'
    exact ⟨t, n₁, wanted ++ [], [], n', by simp, hfirst, hremaining, hset, hrecv, hn'⟩
  · exact ⟨t, n₁, first, more, n', hwanted, hfirst, hremaining, hset, hrecv, hn'⟩

/-- The loop puts any chunks together until it has the bytes it wants. -/
theorem recvLoop_supplies (fuel : Nat) :
    ∀ (result wanted rest : Bytes) (n : Net), wanted.length < fuel →
      n.Supplies deadline spare tail (wanted ++ rest) →
      ∃ n', recvLoop (result.length + wanted.length) deadline fuel result n =
          .ok (result ++ wanted, n') ∧ n'.Supplies deadline spare tail rest := by
  induction fuel with
  | zero =>
      intro result wanted rest n hfuel
      omega
  | succ fuel ih =>
      intro result wanted rest n hfuel h
      -- A pass takes at least one byte, so the fuel outlasts what is wanted.
      by_cases hne : wanted = []
      · subst hne
        refine ⟨n, ?_, h⟩
        rw [recvLoop, List.length_nil, Nat.add_zero, if_neg (Nat.lt_irrefl _), List.append_nil]
        rfl
      · have hpos := List.length_pos_iff.mpr hne
        rcases h.pass hne with ⟨t, n₁, first, last, n₂, rfl, hfirst, htimeout, hset, hrecv, h₂⟩
        have hfirstPos := List.length_pos_iff.mpr hfirst
        rw [List.length_append] at hfuel
        -- The rest of the loop starts with the first part received.
        rcases ih (result ++ first) last rest n₂ (by omega) h₂ with ⟨n₃, hloop, h₃⟩
        refine ⟨n₃, ?_, h₃⟩
        rw [recvLoop, if_pos (by omega), Nat.add_sub_cancel_left]
        simp only [netM_bind_eq_ok_iff, netM_lift_eq_ok_iff, failIf_eq_ok_iff]
        refine ⟨t, n₁, htimeout, (), n₁, hset, first, n₂, hrecv, (), n₂, ⟨hfirst, rfl⟩, ?_⟩
        rw [List.length_append, Nat.add_assoc, ← List.length_append, List.append_assoc] at hloop
        exact hloop

theorem recvExact_supplies {wanted rest : Bytes} {n : Net}
    (h : n.Supplies deadline spare tail (wanted ++ rest)) :
    ∃ n', recvExact wanted.length deadline n = .ok (wanted, n') ∧
      n'.Supplies deadline spare tail rest := by
  have hloop := recvLoop_supplies (wanted.length + 1) [] wanted rest n (Nat.lt_succ_self _) h
  rw [List.length_nil, Nat.zero_add, List.nil_append] at hloop
  exact hloop

/-- A record as it stands in a stream: its header gives its type, some version
    of the protocol, and its length, which is within the limit. -/
def Record.Sendable (r : Record) : Prop :=
  ∃ version, r.contentType < 256 ∧ 0x0300 ≤ version ∧ version < 65536 ∧
    r.fragment.length ≤ maxTlsCiphertext ∧
    r.header = be 1 r.contentType ++ be 2 version ++ be 2 r.fragment.length

/-- The bytes of a record. -/
def Record.wire (r : Record) : Bytes :=
  r.header ++ r.fragment

/-- A record of the stream is received, however it is chunked. -/
theorem recvRecord_supplies {r : Record} {rest : Bytes} {n : Net} (hr : r.Sendable)
    (h : n.Supplies deadline spare tail (r.wire ++ rest)) :
    ∃ n', recvRecord deadline n = .ok (r, n') ∧ n'.Supplies deadline spare tail rest := by
  rcases hr with ⟨version, htype, hlow, hhigh, hlen, hheader⟩
  have hmax : maxTlsCiphertext = 16640 := rfl
  have hfive : r.header.length = 5 := by
    rw [hheader]
    simp only [List.length_append, length_be]
  -- The header is cut into its three fields, which give back the version and the length.
  have hcut : r.header = be 1 r.contentType ++ (be 2 version ++ (be 2 r.fragment.length ++ [])) := by
    rw [hheader, List.append_nil, List.append_assoc]
  have hversion : beNat (slice r.header 1 3) = version := by
    rw [hcut, slice_mid _ _ _ _ _ (length_be 1 _).symm (by rw [length_be, length_be]),
      beNat_be 2 _ hhigh]
  have hsize : beNat (slice r.header 3 5) = r.fragment.length := by
    rw [hcut, ← List.append_assoc, slice_mid _ _ _ _ _ (by rw [List.length_append, length_be,
      length_be]) (by simp only [List.length_append, length_be]), beNat_be 2 _ (by omega)]
  rw [Record.wire, List.append_assoc] at h
  -- The stream gives the header, and then as many bytes as it says.
  rcases recvExact_supplies h with ⟨n₁, hhead, h₁⟩
  rcases recvExact_supplies h₁ with ⟨n₂, hbody, h₂⟩
  rw [hfive] at hhead
  refine ⟨n₂, ?_, h₂⟩
  unfold recvRecord
  simp only [netM_bind_eq_ok_iff, netM_lift_eq_ok_iff, netM_pure_eq_ok_iff, failIf_eq_ok_iff]
  refine ⟨r.header, n₁, hhead, UInt8.ofNat r.contentType, n₁, ⟨?_, rfl⟩, (), n₁, ⟨?_, rfl⟩, (), n₁,
    ⟨?_, rfl⟩, r.fragment, n₂, ?_, ?_, rfl⟩
  -- The three checks hold, and the content type is the one of the header.
  · rw [getIndex_eq_ok_iff, hcut]
    rfl
  · rw [hversion]
    omega
  · rw [hsize]
    omega
  · rw [hsize]
    exact hbody
  · rw [UInt8.toNat_ofNat', Nat.mod_eq_of_lt htype]

end Streams

section HelloLoop

/-- A proper front part of a message is waited for. -/
theorem popHandshake_partial {front back : Bytes} (hframed : WellFramed (front ++ back))
    (hsize : (front ++ back).length ≤ maxCapturedHandshake) (hback : back ≠ []) :
    popHandshake front = .ok none := by
  have hpos := List.length_pos_iff.mpr hback
  have hannounced := hframed.2
  rw [popHandshake_eq_none_iff]
  by_cases hshort : front.length < 4
  · exact Or.inl hshort
  · rw [announcedSize_append front back (by omega)] at hannounced
    rw [hannounced]
    refine Or.inr ⟨hsize, ?_⟩
    rw [List.length_append]
    omega

theorem popHandshake_whole {message : Bytes} (rest : Bytes) (hframed : WellFramed message)
    (hsize : message.length ≤ maxCapturedHandshake) :
    popHandshake (message ++ rest) = .ok (some (message, rest)) :=
  (popHandshake_eq_some_iff _ _ _).mpr ⟨hframed, hsize, rfl⟩

/-- Records in the clear that carry a message and end exactly at its end. -/
structure CarriesHello (records : List Record) (message : Bytes) : Prop where
  types : ∀ r ∈ records, r.contentType = contentHandshake
  fragments : (records.map Record.fragment).flatten = message
  ends : ∀ r, records.getLast? = some r → r.fragment ≠ []

theorem kept_cons_skipped (r : Record) (records : List Record) (h : r.isSkipped = true) :
    kept (r :: records) = kept records := by
  rw [kept, List.filter_cons_of_neg (by rw [h]; decide), kept]

theorem kept_cons (r : Record) (records : List Record) (h : r.isSkipped = false) :
    kept (r :: records) = r :: kept records := by
  rw [kept, List.filter_cons_of_pos (by rw [h]; decide), kept]

variable {deadline : ℚ} {spare : Nat} {tail : List NetEvent}

/-- The loop in the clear takes the records up to the end of the message. The
    buffer is a front part of the message, and a proper one while records that
    carry it are left. -/
theorem helloLoop_completes (message rest : Bytes) (encrypted : List Record)
    (hframed : WellFramed message) (hsize : message.length ≤ maxCapturedHandshake) :
    ∀ (records plain : List Record) (buffer : Bytes) (n : Net),
      (∀ r ∈ records, r.Sendable) → kept records = plain ++ encrypted →
      plain ≠ [] → (∀ r ∈ plain, r.contentType = contentHandshake) →
      (∀ r, plain.getLast? = some r → r.fragment ≠ []) →
      buffer ++ (plain.map Record.fragment).flatten = message →
      n.Supplies deadline spare tail (records.flatMap Record.wire ++ rest) →
      ∃ taken left n', records = taken ++ left ∧ kept left = encrypted ∧
        Fed (recvRecord deadline) helloStep HelloState.finished ⟨none, buffer⟩ n taken
          ⟨some message, []⟩ n' ∧
        n'.Supplies deadline spare tail (left.flatMap Record.wire ++ rest) := by
  intro records
  induction records with
  | nil =>
      intro plain buffer n _ hkept hne
      rw [kept, List.filter_nil, eq_comm, List.append_eq_nil_iff] at hkept
      exact absurd hkept.1 hne
  | cons r records ih =>
      intro plain buffer n hsend hkept hne htypes hends hbuffer hn
      have hsend' : ∀ r' ∈ records, r'.Sendable := fun r' hr' =>
        hsend r' (List.mem_cons_of_mem r hr')
      rw [List.flatMap_cons, List.append_assoc] at hn
      rcases recvRecord_supplies (hsend r List.mem_cons_self) hn with ⟨n₁, hread, hn₁⟩
      cases hskip : r.isSkipped with
      | true =>
          rw [kept_cons_skipped r records hskip] at hkept
          rcases ih plain buffer n₁ hsend' hkept hne htypes hends hbuffer hn₁
            with ⟨taken, left, n', rfl, hleft, hfed, hn'⟩
          have hstep := (helloStep_eq_ok_iff r ⟨none, buffer⟩ _).mpr (Or.inl ⟨hskip, rfl⟩)
          exact ⟨r :: taken, left, n', rfl, hleft, Fed.next _ _ _ _ _ _ _ _ rfl hread hstep hfed,
            hn'⟩
      | false =>
          rw [kept_cons r records hskip] at hkept
          cases plain with
          | nil => exact absurd rfl hne
          | cons r' plain =>
              rw [List.cons_append, List.cons.injEq] at hkept
              rcases hkept with ⟨rfl, hkept⟩
              have htype := htypes r List.mem_cons_self
              rw [List.map_cons, List.flatten_cons, ← List.append_assoc] at hbuffer
              cases plain with
              | nil =>
                  -- The record that completes the message.
                  rw [List.map_nil, List.flatten_nil, List.append_nil] at hbuffer
                  have hpop := popHandshake_whole [] hframed hsize
                  rw [List.append_nil, ← hbuffer] at hpop
                  have hstep := (helloStep_eq_ok_iff r ⟨none, buffer⟩ ⟨some message, []⟩).mpr
                    (Or.inr ⟨hskip, htype, Or.inr ⟨_, _, hpop, by rw [hbuffer]⟩⟩)
                  exact ⟨[r], records, n₁, rfl, hkept,
                    Fed.next _ _ _ _ _ _ _ _ rfl hread hstep (Fed.stop _ _ rfl), hn₁⟩
              | cons r'' plain =>
                  have hends' : ∀ x, (r'' :: plain).getLast? = some x → x.fragment ≠ [] :=
                    fun x hx => hends x (by rw [List.getLast?_cons_cons]; exact hx)
                  have hmore : ((r'' :: plain).map Record.fragment).flatten ≠ [] := by
                    intro hnil
                    have hall := List.flatten_eq_nil_iff.mp hnil
                    have hlast := List.getLast?_eq_some_getLast (List.cons_ne_nil r'' plain)
                    exact hends' _ hlast (hall _ (List.mem_map_of_mem (List.getLast_mem _)))
                  have hpop : popHandshake (buffer ++ r.fragment) = .ok none := by
                    rw [← hbuffer] at hframed hsize
                    exact popHandshake_partial hframed hsize hmore
                  have hstep := (helloStep_eq_ok_iff r ⟨none, buffer⟩ _).mpr
                    (Or.inr ⟨hskip, htype, Or.inl ⟨hpop, rfl⟩⟩)
                  rcases ih (r'' :: plain) (buffer ++ r.fragment) n₁ hsend' hkept
                    (List.cons_ne_nil _ _) (fun x hx => htypes x (List.mem_cons_of_mem r hx)) hends'
                    hbuffer hn₁ with ⟨taken, left, n', rfl, hleft, hfed, hn'⟩
                  exact ⟨r :: taken, left, n', rfl, hleft,
                    Fed.next _ _ _ _ _ _ _ _ rfl hread hstep hfed, hn'⟩

end HelloLoop

section EncryptedLoop

/-- The `k`-th encrypted record: the encryption of a content of at most 2^14
    bytes, its type and any number of zeros that, with the tag of 16 bytes,
    keeps the ciphertext within the limit. -/
structure Seals (encrypt : Bytes → Bytes → Bytes → Bytes) (keys : Keys) (k : Nat) (r : Record)
    (content : Bytes) : Prop where
  type : r.contentType = contentApplicationData
  number : k < 2 ^ 64
  content_le : content.length ≤ 2 ^ 14
  fragment : ∃ padding : Nat, content.length + 1 + padding + 16 ≤ maxTlsCiphertext ∧
    r.fragment = encrypt (nonceOf keys.iv k) (content ++ [22] ++ List.replicate padding 0) r.header

/-- Encrypted records that carry the contents, numbered from `k` on. -/
inductive SealedFrom (encrypt : Bytes → Bytes → Bytes → Bytes) (keys : Keys) :
    Nat → List Record → List Bytes → Prop
  | nil (k : Nat) : SealedFrom encrypt keys k [] []
  | cons (k : Nat) (r : Record) (records : List Record) (content : Bytes) (contents : List Bytes)
      (hd : Seals encrypt keys k r content) (tl : SealedFrom encrypt keys (k + 1) records contents) :
      SealedFrom encrypt keys k (r :: records) (content :: contents)

/-- Decryption under the keys of a flight undoes encryption, for what fits in
    a record. -/
def Inverts (A : Aead) (keys : Keys) (encrypt : Bytes → Bytes → Bytes → Bytes) : Prop :=
  ∀ nonce plaintext header, nonce.length = 12 → plaintext.length + 16 ≤ maxTlsCiphertext →
    A.decrypt keys.cipherSuite keys.key nonce (encrypt nonce plaintext header) header = .ok plaintext

theorem rstripZeros_padded (content : Bytes) (type : UInt8) (padding : Nat) (h : type ≠ 0) :
    rstripZeros (content ++ [type] ++ List.replicate padding 0) = content ++ [type] := by
  have hzeros : ∀ x ∈ List.replicate padding (0 : UInt8), (x == 0) = true := by
    intro x hx
    rw [List.eq_of_mem_replicate hx]
    rfl
  have hstop : (type :: content.reverse).dropWhile (fun x => x == 0) = type :: content.reverse :=
    List.dropWhile_cons_of_neg (by rw [beq_iff_eq]; exact h)
  rw [rstripZeros, List.reverse_append, List.reverse_replicate, List.dropWhile_append_of_pos hzeros,
    List.reverse_append, List.reverse_singleton, List.singleton_append, hstop, List.reverse_cons,
    List.reverse_reverse]

/-- A sealed record opens to the content it carries. -/
theorem Seals.opens {A : Aead} {keys : Keys} {encrypt : Bytes → Bytes → Bytes → Bytes} {k : Nat}
    {r : Record} {content : Bytes} (h : Seals encrypt keys k r content)
    (hinv : Inverts A keys encrypt) (hiv : keys.iv.length = 12) : Opens A keys k r 22 content := by
  rcases h.fragment with ⟨padding, hpadding, hfragment⟩
  have hfits : k < 256 ^ keys.iv.length := by
    have hnumber := h.number
    rw [hiv]
    omega
  refine ⟨h.number, hfits, _, ?_, rstripZeros_padded content 22 padding (by decide)⟩
  rw [hfragment]
  refine hinv _ _ _ ?_ ?_
  · rw [nonceOf, List.length_zipWith, length_be, Nat.min_self, hiv]
  · simp only [List.length_append, List.length_singleton, List.length_replicate]
    exact hpadding

variable {Cert Key : Type} {X : X509 Cert Key}

theorem TakenAs.drop {expected : List Nat} {messages : List Bytes}
    (h : TakenAs X expected messages) (k : Nat) :
    TakenAs X (expected.drop k) (messages.drop k) := by
  induction h generalizing k with
  | nil expected =>
      rw [List.drop_nil]
      exact TakenAs.nil _
  | cons expectedType expected message messages hframed hsize hcheck htaken ih =>
      cases k with
      | zero => exact TakenAs.cons _ _ _ _ hframed hsize hcheck htaken
      | succ k => exact ih k

/-- A buffer that has reached the end of the next message holds it whole, and
    one that has not waits. -/
theorem front_of_messages {buffer more message tail : Bytes}
    (h : buffer ++ more = message ++ tail) (hframed : WellFramed message)
    (hsize : message.length ≤ maxCapturedHandshake) :
    (∃ buffer', buffer = message ++ buffer' ∧ buffer' ++ more = tail) ∨
      (buffer.length < message.length ∧ popHandshake buffer = .ok none) := by
  rcases List.append_eq_append_iff.mp h with ⟨back, rfl, hmore⟩ | ⟨buffer', hbuffer, htail⟩
  · by_cases hback : back = []
    · subst hback
      rw [List.append_nil]
      exact Or.inl ⟨[], (List.append_nil _).symm, hmore⟩
    · have hpos := List.length_pos_iff.mpr hback
      refine Or.inr ⟨?_, popHandshake_partial hframed hsize hback⟩
      rw [List.length_append]
      omega
  · exact Or.inl ⟨buffer', hbuffer, htail.symm⟩

/-- The inner loop takes out every message the buffer holds whole, and leaves
    the front of what follows. -/
theorem popMessages_front {expected : List Nat} {messages : List Bytes}
    (h : TakenAs X expected messages) (hall : messages.length = expected.length) :
    ∀ (captured : List Bytes) (buffer more rest : Bytes), buffer ++ more = messages.flatten ++ rest →
      ∃ i buffer', i ≤ messages.length ∧
        popMessages X expected captured buffer = .ok (captured ++ messages.take i, buffer') ∧
        buffer' ++ more = (messages.drop i).flatten ++ rest ∧
        (i < messages.length → popHandshake buffer' = .ok none) := by
  induction h with
  | nil expected =>
      intro captured buffer more rest hbuffer
      rw [List.eq_nil_of_length_eq_zero hall.symm, popMessages]
      exact ⟨0, buffer, Nat.le_refl 0, by rw [List.take_zero, List.append_nil], hbuffer,
        fun hlt => absurd hlt (Nat.lt_irrefl 0)⟩
  | cons expectedType expected message messages hframed hsize hcheck htaken ih =>
      intro captured buffer more rest hbuffer
      rw [List.flatten_cons, List.append_assoc] at hbuffer
      -- Either the next message is there whole, or the buffer is a front of it.
      rcases front_of_messages hbuffer hframed hsize with ⟨buffer', rfl, hrest⟩ | ⟨-, hwait⟩
      -- It is taken out, and the rest of the buffer goes on to the next.
      · rcases ih (Nat.succ.inj hall) (captured ++ [message]) buffer' more rest hrest
          with ⟨i, buffer'', hi, hpop, hleft, hwait⟩
        refine ⟨i + 1, buffer'', Nat.succ_le_succ hi, ?_, hleft,
          fun hlt => hwait (Nat.lt_of_succ_lt_succ hlt)⟩
        rw [popMessages, popHandshake_whole buffer' hframed hsize]
        rw [List.append_assoc, List.singleton_append] at hpop
        refine (bind_eq_ok_iff _ _ _).mpr ⟨_, rfl, (bind_eq_ok_iff _ _ _).mpr ⟨(), hcheck, hpop⟩⟩
      -- It is waited for, and the buffer stays as it is.
      · refine ⟨0, buffer, Nat.zero_le _, ?_, ?_, fun _ => hwait⟩
        · rw [popMessages, hwait, List.take_zero, List.append_nil]
          rfl
        · rw [List.drop_zero, List.flatten_cons, List.append_assoc]
          exact hbuffer

/-- Where the encrypted loop stands in a flight: what is captured, the buffer
    and the contents still to come make up the messages and what follows. -/
structure Standing (messages : List Bytes) (rest more : Bytes) (s : EncryptedState) : Prop where
  captured : s.captured = messages.take s.captured.length
  pending : s.encryptedHandshake ++ more = (messages.drop s.captured.length).flatten ++ rest
  waiting : s.captured.length < messages.length → popHandshake s.encryptedHandshake = .ok none

/-- Before the last message is captured, the buffer lacks a byte of the next
    message. -/
theorem Standing.buffer_lt {messages : List Bytes} {rest more : Bytes} {s : EncryptedState}
    (h : Standing messages rest more s) (hlt : s.captured.length < messages.length)
    (hframed : ∀ m ∈ messages, WellFramed m ∧ m.length ≤ 49152) :
    s.encryptedHandshake.length < 49152 := by
  have hmax : maxCapturedHandshake = 65536 := rfl
  have hpending := h.pending
  rw [List.drop_eq_getElem_cons hlt, List.flatten_cons, List.append_assoc] at hpending
  rcases hframed _ (List.getElem_mem hlt) with ⟨hmessage, hle⟩
  rcases front_of_messages hpending hmessage (by omega) with ⟨buffer', hbuffer, -⟩ | ⟨hshort, -⟩
  · have hpop := h.waiting hlt
    rw [hbuffer, popHandshake_whole buffer' hmessage (by omega)] at hpop
    exact nomatch hpop
  · omega

/-- A piece of a flight of at most 2^14 bytes is accepted. -/
theorem Standing.accept {messages : List Bytes} {rest content more : Bytes} {s : EncryptedState}
    (h : Standing messages rest (content ++ more) s) (hlt : s.captured.length < messages.length)
    (htaken : TakenAs X expectedMessages messages) (hall : messages.length = expectedMessages.length)
    (hsizes : ∀ m ∈ messages, m.length ≤ 49152) (hcontent : content.length ≤ 2 ^ 14) :
    ∃ s', acceptFragment X content s = .ok s' ∧ s'.sequence = s.sequence + 1 ∧
      Standing messages rest more s' := by
  have hmax : maxCapturedHandshake = 65536 := rfl
  have hbuffer := h.buffer_lt hlt fun m hm => ⟨(htaken.framed m hm).1, hsizes m hm⟩
  have hpending := h.pending
  rw [← List.append_assoc] at hpending
  -- The messages still expected are those behind the captured ones.
  rcases popMessages_front (htaken.drop s.captured.length)
    (by rw [List.length_drop, List.length_drop, hall]) s.captured _ more rest hpending
    with ⟨i, buffer', hi, hpop, hleft, hwait⟩
  rw [List.length_drop] at hi hwait
  -- So many messages are captured after the step.
  have hcount : (s.captured ++ (messages.drop s.captured.length).take i).length =
      s.captured.length + i := by
    rw [List.length_append, List.length_take, List.length_drop, Nat.min_eq_left hi]
  refine ⟨⟨_, buffer', s.sequence + 1⟩,
    (acceptFragment_eq_ok_iff X content s _).mpr ⟨?_, hpop, rfl⟩, rfl, ⟨?_, ?_, ?_⟩⟩
  -- The buffer was short of a message, so a piece of 2^14 bytes more is within the limit.
  · rw [List.length_append]
    omega
  · rw [hcount, List.take_add, ← h.captured]
  · rw [hcount, ← List.drop_drop]
    exact hleft
  · rw [hcount]
    exact fun hless => hwait (by omega)

variable {deadline : ℚ} {spare : Nat} {tail : List NetEvent}

/-- The encrypted loop takes records until the three messages are captured. -/
theorem encryptedLoop_completes {A : Aead} {keys : Keys}
    {encrypt : Bytes → Bytes → Bytes → Bytes} (hinv : Inverts A keys encrypt)
    (hiv : keys.iv.length = 12) {messages : List Bytes} (rest wireRest : Bytes)
    (htaken : TakenAs X expectedMessages messages) (hall : messages.length = expectedMessages.length)
    (hsizes : ∀ m ∈ messages, m.length ≤ 49152) :
    ∀ (records : List Record) (contents : List Bytes) (s : EncryptedState) (n : Net),
      (∀ r ∈ records, r.Sendable) →
      SealedFrom encrypt keys s.sequence (kept records) contents →
      Standing messages rest contents.flatten s →
      n.Supplies deadline spare tail (records.flatMap Record.wire ++ wireRest) →
      ∃ taken left s' n', records = taken ++ left ∧
        Fed (recvRecord deadline) (encryptedStep X A keys) EncryptedState.finished s n taken s' n' ∧
        s'.captured = messages := by
  intro records
  induction records with
  | nil =>
      intro contents s n _ hsealed hstanding hn
      have hlen : s.captured.length = messages.length := by
        refine Nat.le_antisymm ?_ (Nat.not_lt.mp fun hlt => ?_)
        · rw [hstanding.captured, List.length_take]
          exact Nat.min_le_right _ _
        · -- With nothing to come the buffer would be the messages that are left.
          cases hsealed
          have hpending := hstanding.pending
          have hpop := hstanding.waiting hlt
          rw [List.flatten_nil, List.append_nil, List.drop_eq_getElem_cons hlt, List.flatten_cons,
            List.append_assoc] at hpending
          rcases htaken.framed _ (List.getElem_mem hlt) with ⟨hframed, hsize⟩
          rw [hpending, popHandshake_whole _ hframed hsize] at hpop
          exact nomatch hpop
      refine ⟨[], [], s, n, rfl, Fed.stop _ _ (decide_eq_true (by omega)), ?_⟩
      rw [hstanding.captured, hlen, List.take_length]
  -- One record is received, and the induction is on those still to come.
  | cons r records ih =>
      intro contents s n hsend hsealed hstanding hn
      by_cases hlt : s.captured.length < messages.length
      · have hsend' : ∀ r' ∈ records, r'.Sendable := fun r' hr' =>
          hsend r' (List.mem_cons_of_mem r hr')
        have hunfinished : s.finished = false := decide_eq_false (by omega)
        rw [List.flatMap_cons, List.append_assoc] at hn
        rcases recvRecord_supplies (hsend r List.mem_cons_self) hn with ⟨n₁, hread, hn₁⟩
        cases hskip : r.isSkipped with
        -- A skipped record takes no nonce, so the sealed ones are the same.
        | true =>
            rw [kept_cons_skipped r records hskip] at hsealed
            rcases ih contents s n₁ hsend' hsealed hstanding hn₁
              with ⟨taken, left, s', n', rfl, hfed, hcaptured⟩
            have hstep := (encryptedStep_eq_ok_iff X A keys r s s).mpr (Or.inl ⟨hskip, rfl⟩)
            exact ⟨r :: taken, left, s', n', rfl,
              Fed.next _ _ _ _ _ _ _ _ hunfinished hread hstep hfed, hcaptured⟩
        -- A sealed record opens under the sequence number, and its content is accepted.
        | false =>
            rw [kept_cons r records hskip] at hsealed
            cases hsealed with
            | cons _ _ _ content contents hseals hsealed =>
                rw [List.flatten_cons] at hstanding
                rcases hstanding.accept hlt htaken hall hsizes hseals.content_le
                  with ⟨s₁, haccept, hsequence, hstanding₁⟩
                rw [← hsequence] at hsealed
                rcases ih contents s₁ n₁ hsend' hsealed hstanding₁ hn₁
                  with ⟨taken, left, s', n', rfl, hfed, hcaptured⟩
                have hstep := (encryptedStep_eq_ok_iff X A keys r s s₁).mpr
                  (Or.inr ⟨hskip, hseals.type, content, hseals.opens hinv hiv, haccept⟩)
                exact ⟨r :: taken, left, s', n', rfl,
                  Fed.next _ _ _ _ _ _ _ _ hunfinished hread hstep hfed, hcaptured⟩
      -- The three messages are captured already.
      · have hle : messages.length ≤ s.captured.length := Nat.not_lt.mp hlt
        refine ⟨[], r :: records, s, n, rfl, Fed.stop _ _ (decide_eq_true (by omega)), ?_⟩
        rw [hstanding.captured, List.take_of_length_le hle]

end EncryptedLoop

end P2CTools.Tls13
