import P2CTools.Theory.Hellos

/-!
# Refusals

What a client does with a flight that it does not take.

The checks of a capture are made as the messages come in, and not when all of
them are there. A ServerHello is read before anything is decrypted. After it a
message is checked as soon as its last byte has been opened: its type, and for
the Certificate the chain with the keys in it. A client that refuses a message
says so then. It asks for nothing more, so that a server gains nothing by
holding back what follows, and it does not look at what the server has sent
already.

`encryptedLoop_refuses` is the counterpart of the loop that completes. Before
the refused message the two are alike, and the same invariant holds: the
captured messages are those of the flight, and the buffer lacks a byte of the
next one. In the pass that supplies this byte the message is taken out of the
buffer and the check fails.

## Main definitions

* `Refused`: A message that is refused behind messages that are taken.

## Theorems

* `popMessages_refuses`: The inner loop reaches the refused message, or waits.
* `encryptedLoop_refuses`: The pass in which the loop fails.
* `capture_refuses`: A refused message is what the capture comes to.
-/

namespace P2CTools.Tls13

open Wire
open Protocol (frame)

section Programs

variable {α β : Type} {m : NetM α} {f : α → NetM β} {n : Net}

theorem netM_bind_ok (x : α) (n₁ : Net) (h : m n = .ok (x, n₁)) : (m >>= f) n = f x n₁ := by
  change (m n >>= fun p => f p.1 p.2) = _
  rw [h]
  rfl

theorem netM_bind_error {e : PyErr} (h : m n = .error e) : (m >>= f) n = .error e := by
  change (m n >>= fun p => f p.1 p.2) = _
  rw [h]
  rfl

end Programs

section Refused

variable {Cert Key : Type} (X : X509 Cert Key)

/-- Behind messages that are taken comes one that fails its check. -/
structure Refused (good : List Bytes) (bad : Bytes) (e : PyErr) : Prop where
  taken : TakenAs X expectedMessages good
  check : ∃ type, expectedMessages[good.length]? = some type ∧ checkMessage X type bad = .error e
  framed : WellFramed bad
  sizes : ∀ m ∈ good ++ [bad], m.length ≤ Protocol.maxCertificateMessageSize

variable {X} {good : List Bytes} {bad : Bytes} {e : PyErr}

/-- The inner loop takes out the messages before the refused one. It fails if
    the buffer holds that one whole, and else waits for the rest of a message. -/
theorem popMessages_refuses {expected : List Nat} {type : Nat} (h : TakenAs X expected good)
    (htype : expected[good.length]? = some type) (hcheck : checkMessage X type bad = .error e)
    (hframed : WellFramed bad) (hsize : bad.length ≤ maxCapturedHandshake) :
    ∀ (captured : List Bytes) (buffer more rest : Bytes),
      buffer ++ more = (good ++ [bad]).flatten ++ rest →
      popMessages X expected captured buffer = .error e ∨ ∃ i buffer', i ≤ good.length ∧
        popMessages X expected captured buffer = .ok (captured ++ (good ++ [bad]).take i, buffer') ∧
        buffer' ++ more = ((good ++ [bad]).drop i).flatten ++ rest ∧
        popHandshake buffer' = .ok none := by
  induction h with
  | nil expected =>
      intro captured buffer more rest hbuffer
      cases expected with
      | nil => cases htype
      | cons expectedType expected =>
          rw [List.length_nil, List.getElem?_cons_zero, Option.some.injEq] at htype
          rw [List.nil_append, List.flatten_singleton] at hbuffer
          -- Nothing is to be taken before the refused message.
          rcases front_of_messages hbuffer hframed hsize with ⟨buffer', rfl, -⟩ | ⟨-, hwait⟩
          · refine Or.inl ?_
            rw [popMessages, popHandshake_whole buffer' hframed hsize]
            refine (bind_eq_error_iff _ _ _).mpr (Or.inr ⟨_, rfl, ?_⟩)
            refine (bind_eq_error_iff _ _ _).mpr (Or.inl ?_)
            rw [htype]
            exact hcheck
          · refine Or.inr ⟨0, buffer, Nat.le_refl 0, ?_, ?_, hwait⟩
            · rw [popMessages, hwait, List.take_zero, List.append_nil]
              rfl
            · rw [List.drop_zero, List.nil_append, List.flatten_singleton]
              exact hbuffer
  | cons expectedType expected message messages hmessage hle hok htaken ih =>
      intro captured buffer more rest hbuffer
      rw [List.length_cons, List.getElem?_cons_succ] at htype
      rw [List.cons_append, List.flatten_cons, List.append_assoc] at hbuffer
      rcases front_of_messages hbuffer hmessage hle with ⟨buffer', rfl, hrest⟩ | ⟨-, hwait⟩
      -- The next message is taken out, and the loop goes on with the others.
      · have hpop : ∀ r, popMessages X expected (captured ++ [message]) buffer' = r →
            popMessages X (expectedType :: expected) captured (message ++ buffer') = r := by
          intro r hr
          rw [popMessages, popHandshake_whole buffer' hmessage hle, ← hr]
          change (checkMessage X expectedType message >>= fun _ => _) = _
          rw [hok]
          rfl
        rcases ih htype (captured ++ [message]) buffer' more rest hrest
          with herror | ⟨i, buffer'', hi, htake, hleft, hwait⟩
        · exact Or.inl (hpop _ herror)
        · refine Or.inr ⟨i + 1, buffer'', Nat.succ_le_succ hi, ?_, hleft, hwait⟩
          rw [List.append_assoc, List.singleton_append] at htake
          exact hpop _ htake
      · refine Or.inr ⟨0, buffer, Nat.zero_le _, ?_, ?_, hwait⟩
        · rw [popMessages, hwait, List.take_zero, List.append_nil]
          rfl
        · rw [List.drop_zero, List.cons_append, List.flatten_cons, List.append_assoc]
          exact hbuffer

/-- A piece of a flight of at most 2^14 bytes makes the client refuse, or
    leaves it before the refused message. -/
theorem Refused.accept {rest content more : Bytes} {s : EncryptedState} (h : Refused X good bad e)
    (hs : Standing (good ++ [bad]) rest (content ++ more) s)
    (hbefore : s.captured.length ≤ good.length) (hcontent : content.length ≤ 2 ^ 14) :
    acceptFragment X content s = .error e ∨ ∃ s', acceptFragment X content s = .ok s' ∧
      s'.sequence = s.sequence + 1 ∧ Standing (good ++ [bad]) rest more s' ∧
      s'.captured.length ≤ good.length := by
  have hmax : maxCapturedHandshake = 65536 := rfl
  have hmax' : Protocol.maxCertificateMessageSize = 49152 := rfl
  rcases h.check with ⟨type, htype, hcheck⟩
  have hbad := h.sizes bad (List.mem_append_right _ List.mem_cons_self)
  have hlt : s.captured.length < (good ++ [bad]).length := by
    rw [List.length_append, List.length_singleton]
    omega
  have hframed : ∀ m ∈ good ++ [bad], WellFramed m ∧ m.length ≤ 49152 := by
    intro m hm
    refine ⟨?_, h.sizes m hm⟩
    rcases List.mem_append.mp hm with hgood | hlast
    · exact (h.taken.framed m hgood).1
    · rw [List.mem_singleton.mp hlast]
      exact h.framed
  have hbuffer := hs.buffer_lt hlt hframed
  have hlimit : (s.encryptedHandshake ++ content).length ≤ maxCapturedHandshake := by
    rw [List.length_append]
    omega
  -- What is still expected, and what is still to come, behind the captured messages.
  have hdrop : (good ++ [bad]).drop s.captured.length = good.drop s.captured.length ++ [bad] :=
    List.drop_append_of_le_length hbefore
  have hnext : (expectedMessages.drop s.captured.length)[(good.drop s.captured.length).length]? =
      some type := by
    rw [List.getElem?_drop, List.length_drop, Nat.add_sub_cancel' hbefore]
    exact htype
  have hpending := hs.pending
  rw [← List.append_assoc, hdrop] at hpending
  rcases popMessages_refuses (h.taken.drop s.captured.length) hnext hcheck h.framed (by omega)
    s.captured _ more rest hpending with herror | ⟨i, buffer', hi, hpop, hleft, hwait⟩
  · refine Or.inl ?_
    unfold acceptFragment
    refine (bind_eq_error_iff _ _ _).mpr (Or.inr ⟨(), (failIf_eq_ok_iff _ _ _).mpr ?_,
      (bind_eq_error_iff _ _ _).mpr (Or.inl herror)⟩)
    exact Nat.not_lt.mpr hlimit
  · rw [List.length_drop] at hi
    rw [← hdrop] at hpop hleft
    have hcount : (s.captured ++ ((good ++ [bad]).drop s.captured.length).take i).length =
        s.captured.length + i := by
      rw [List.length_append, List.length_take, List.length_drop, List.length_append,
        List.length_singleton, Nat.min_eq_left (by omega)]
    refine Or.inr ⟨⟨_, buffer', s.sequence + 1⟩,
      (acceptFragment_eq_ok_iff X content s _).mpr ⟨hlimit, hpop, rfl⟩, rfl,
      ⟨?_, ?_, fun _ => hwait⟩, ?_⟩
    · rw [hcount, List.take_add, ← hs.captured]
    · rw [hcount, ← List.drop_drop]
      exact hleft
    · rw [hcount]
      omega

end Refused

section EncryptedLoop

variable {Cert Key : Type} {X : X509 Cert Key} {good : List Bytes} {bad : Bytes} {e : PyErr}

/-- An encrypted record that opens to a piece of the handshake gives this
    piece to the client. -/
theorem encryptedStep_opened {A : Aead} {keys : Keys} {r : Record} {s : EncryptedState}
    {content : Bytes} (hskip : r.isSkipped = false)
    (htype : r.contentType = contentApplicationData)
    (hopens : Opens A keys s.sequence r 22 content) :
    encryptedStep X A keys r s = acceptFragment X content s := by
  have hopen : decryptRecord A keys s.sequence r.header r.fragment =
      .ok (contentHandshake, content) :=
    (decryptRecord_eq_ok_iff A keys _ r _ _).mpr ⟨22, rfl, hopens⟩
  unfold encryptedStep
  rw [hskip, if_neg Bool.false_ne_true, htype, if_neg (by decide), hopen]
  rfl

variable {deadline : ℚ} {spare : Nat} {tail : List NetEvent}

/-- The encrypted loop comes to a record that makes it fail. -/
theorem encryptedLoop_refuses {A : Aead} {keys : Keys} {encrypt : Bytes → Bytes → Bytes → Bytes}
    (hinv : Inverts A keys encrypt) (hiv : keys.iv.length = 12) (h : Refused X good bad e)
    (rest wireRest : Bytes) :
    ∀ (records : List Record) (contents : List Bytes) (s : EncryptedState) (n : Net),
      (∀ r ∈ records, r.Sendable) →
      SealedFrom encrypt keys s.sequence (kept records) contents →
      Standing (good ++ [bad]) rest contents.flatten s → s.captured.length ≤ good.length →
      n.Supplies deadline spare tail (records.flatMap Record.wire ++ wireRest) →
      ∃ taken r left s' n' n₁, records = taken ++ r :: left ∧
        Reaches (recvRecord deadline) (encryptedStep X A keys) EncryptedState.finished s n taken
          s' n' ∧ s'.finished = false ∧ recvRecord deadline n' = .ok (r, n₁) ∧
        encryptedStep X A keys r s' = .error e := by
  have hmax : maxCapturedHandshake = 65536 := rfl
  have hmax' : Protocol.maxCertificateMessageSize = 49152 := rfl
  have hgood := h.taken.length_le
  intro records
  induction records with
  | nil =>
      intro contents s n _ hsealed hstanding hbefore hn
      -- With nothing to come the buffer would hold the refused message.
      cases hsealed
      have hlt : s.captured.length < (good ++ [bad]).length := by
        rw [List.length_append, List.length_singleton]
        omega
      have hpending := hstanding.pending
      have hwait := hstanding.waiting hlt
      rw [List.flatten_nil, List.append_nil, List.drop_eq_getElem_cons hlt, List.flatten_cons,
        List.append_assoc] at hpending
      have hmem : (good ++ [bad])[s.captured.length] ∈ good ++ [bad] := List.getElem_mem hlt
      have hsize := h.sizes _ hmem
      have hframed : WellFramed (good ++ [bad])[s.captured.length] := by
        rcases List.mem_append.mp hmem with hmem | hmem
        · exact (h.taken.framed _ hmem).1
        · rw [List.mem_singleton.mp hmem]
          exact h.framed
      rw [hpending, popHandshake_whole _ hframed (by omega)] at hwait
      cases hwait
  | cons r records ih =>
      intro contents s n hsend hsealed hstanding hbefore hn
      have hsend' : ∀ r' ∈ records, r'.Sendable := fun r' hr' =>
        hsend r' (List.mem_cons_of_mem r hr')
      have hexpected : expectedMessages.length = 3 := rfl
      have hunfinished : s.finished = false := by
        rcases h.check with ⟨type, htype, -⟩
        have hlt := (List.getElem?_eq_some_iff.mp htype).1
        exact decide_eq_false (by omega)
      rw [List.flatMap_cons, List.append_assoc] at hn
      rcases recvRecord_supplies (hsend r List.mem_cons_self) hn with ⟨n₁, hread, hn₁⟩
      -- The loop goes on behind this record, from the state that it leads to.
      have hlater : ∀ s₁, encryptedStep X A keys r s = .ok s₁ → (∃ taken r' left s' n' n₂,
          records = taken ++ r' :: left ∧ Reaches (recvRecord deadline) (encryptedStep X A keys)
            EncryptedState.finished s₁ n₁ taken s' n' ∧ s'.finished = false ∧
          recvRecord deadline n' = .ok (r', n₂) ∧ encryptedStep X A keys r' s' = .error e) →
          ∃ taken r' left s' n' n₂, r :: records = taken ++ r' :: left ∧
            Reaches (recvRecord deadline) (encryptedStep X A keys) EncryptedState.finished s n taken
              s' n' ∧ s'.finished = false ∧ recvRecord deadline n' = .ok (r', n₂) ∧
            encryptedStep X A keys r' s' = .error e := by
        rintro s₁ hstep ⟨taken, r', left, s', n', n₂, rfl, hreach, hrest⟩
        exact ⟨r :: taken, r', left, s', n', n₂, rfl, hreach.after hunfinished hread hstep, hrest⟩
      cases hskip : r.isSkipped with
      | true =>
          rw [kept_cons_skipped r records hskip] at hsealed
          exact hlater s ((encryptedStep_eq_ok_iff X A keys r s s).mpr (Or.inl ⟨hskip, rfl⟩))
            (ih contents s n₁ hsend' hsealed hstanding hbefore hn₁)
      | false =>
          rw [kept_cons r records hskip] at hsealed
          cases hsealed with
          | cons _ _ _ content contents hseals hsealed =>
              rw [List.flatten_cons] at hstanding
              have hopened := encryptedStep_opened (X := X) hskip hseals.type
                (hseals.opens hinv hiv)
              rcases h.accept hstanding hbefore hseals.content_le
                with herror | ⟨s₁, haccept, hsequence, hstanding₁, hbefore₁⟩
              -- The record that completes the refused message.
              · exact ⟨[], r, records, s, n, n₁, rfl, Reaches.start, hunfinished, hread,
                  hopened.trans herror⟩
              · rw [← hsequence] at hsealed
                exact hlater s₁ (hopened.trans haccept)
                  (ih contents s₁ n₁ hsend' hsealed hstanding₁ hbefore₁ hn₁)

end EncryptedLoop

section Capture

variable {Cert Key : Type} {X : X509 Cert Key}

/-- A ServerHello from which the keys follow is short, and the keys are those
    of a suite of the profile. -/
theorem flightKeys_facts {exchange : Bytes → Except PyErr Bytes}
    {sessionId clientHello serverHello : Bytes} {keys : Keys} (hsession : sessionId.length ≤ 32)
    (h : flightKeys exchange sessionId clientHello serverHello = .ok keys) :
    WellFramed serverHello ∧ serverHello.length ≤ maxCapturedHandshake ∧ keys.iv.length = 12 := by
  have hmax : maxCapturedHandshake = 65536 := rfl
  unfold flightKeys at h
  simp only [bind_eq_ok_iff, handle_error_eq_ok_iff] at h
  rcases h with ⟨⟨suite, share⟩, hserver, secret, -, hderive⟩
  -- The mask has no part in the ServerHello, so any will do.
  rcases (@parseServerHello_eq_ok_iff sessionId 7 hsession _ _ _).mp hserver with ⟨t, rfl, rfl, -⟩
  have hlen := length_serverHello t
  rcases deriveServerHandshakeKeys_eq_ok secret (clientHello ++ frame Protocol.serverHello t.encode)
    t.cipherSuite t.cipherSuite_mem with ⟨keys', hkeys', -, hiv⟩
  change deriveServerHandshakeKeys secret _ t.cipherSuite = .ok keys at hderive
  rw [hkeys', Except.ok.injEq] at hderive
  refine ⟨wellFramed_frame _ _ (by omega), ?_, by rw [← hderive]; exact hiv⟩
  rw [Protocol.length_frame]
  omega

variable {A : Aead} {exchange : Bytes → Except PyErr Bytes} {sessionId clientHello : Bytes}
  {serverHello wireRest : Bytes} {deadline : ℚ} {n : Net} {spare : Nat} {tail : List NetEvent}
  {e : PyErr}

/-- The first loop receives the ServerHello, whatever is behind its records. -/
theorem receive_serverHello {records plain encrypted : List Record}
    (hframed : WellFramed serverHello) (hsize : serverHello.length ≤ maxCapturedHandshake)
    (hsend : ∀ r ∈ records, r.Sendable)
    (hkept : kept records = plain ++ encrypted) (hplain : CarriesHello plain serverHello)
    (hn : n.Supplies deadline spare tail (records.flatMap Record.wire ++ wireRest)) :
    ∃ left n₁, receive deadline helloStep HelloState.finished ⟨none, []⟩ n =
        .ok (⟨some serverHello, []⟩, n₁) ∧ (∀ r ∈ left, r.Sendable) ∧ kept left = encrypted ∧
      n₁.Supplies deadline spare tail (left.flatMap Record.wire ++ wireRest) := by
  have hne : plain ≠ [] := by
    rintro rfl
    have hnil : serverHello = [] := hplain.fragments.symm
    have hlen := hframed.1
    rw [hnil, List.length_nil] at hlen
    omega
  rcases helloLoop_completes serverHello wireRest encrypted hframed hsize records plain [] n hsend
    hkept hne hplain.types hplain.ends (by rw [List.nil_append]; exact hplain.fragments) hn
    with ⟨taken, left, n₁, rfl, hleft, hfed, hn₁⟩
  -- No loop takes more records than the connection has bytes.
  have hcount := hn.length_le
  have hlen := length_le_wires _ hsend
  rw [List.length_append] at hcount hlen
  exact ⟨left, n₁, (receive_eq_ok_iff _ _ _ _ _ _ _).mpr ⟨taken, hfed, by omega⟩,
    fun r hr => hsend r (List.mem_append_right _ hr), hleft, hn₁⟩

variable (X A exchange sessionId clientHello) in
/-- The records of a server up to the first thing in its flight that the client
    does not take: the ServerHello, or a message behind it. -/
inductive RefusedFlight (records : List Record) : PyErr → Prop
  | hello (serverHello : Bytes) (e : PyErr) (framed : WellFramed serverHello)
      (size : serverHello.length ≤ maxCapturedHandshake) (sendable : ∀ r ∈ records, r.Sendable)
      (carries : CarriesHello (kept records) serverHello)
      (keys : flightKeys exchange sessionId clientHello serverHello = .error e) :
      RefusedFlight records e
  | message (serverHello : Bytes) (keys : Keys) (encrypt : Bytes → Bytes → Bytes → Bytes)
      (good : List Bytes) (bad rest : Bytes) (e : PyErr)
      (hkeys : flightKeys exchange sessionId clientHello serverHello = .ok keys)
      (inverts : Inverts A keys encrypt) (refused : Refused X good bad e)
      (carries : CarriesFlight encrypt keys records serverHello (good.flatten ++ bad ++ rest)) :
      RefusedFlight records e

theorem receiveFlight_refuses {records : List Record} (hsession : sessionId.length ≤ 32)
    (h : RefusedFlight X A exchange sessionId clientHello records e)
    (hn : n.Supplies deadline spare tail (records.flatMap Record.wire ++ wireRest)) :
    receiveFlight X A exchange sessionId clientHello deadline n = .error e := by
  cases h with
  | hello serverHello _ framed size sendable carries hkeys =>
      rcases receive_serverHello framed size sendable (List.append_nil (kept records)).symm carries
        hn with ⟨left, n₁, hreceive, -⟩
      unfold receiveFlight
      rw [netM_bind_ok _ _ hreceive]
      refine (netM_bind_ok serverHello n₁ ?_).trans (netM_bind_error ?_)
      · exact (netM_lift_eq_ok_iff _ _ _ _).mpr ⟨rfl, rfl⟩
      · change (flightKeys exchange sessionId clientHello serverHello).map _ = _
        rw [hkeys]
        rfl
  | message serverHello keys encrypt good bad rest _ hkeys inverts refused carries =>
      rcases flightKeys_facts hsession hkeys with ⟨hframed, hsize, hiv⟩
      rcases carries.split with ⟨plain, encrypted, contents, hkept, hplain, hsealed, hcontents⟩
      rcases receive_serverHello hframed hsize carries.sendable hkept hplain hn
        with ⟨left, n₁, hreceive, hsend, hleft, hn₁⟩
      rw [← hleft] at hsealed
      -- The second loop starts with the whole flight before it.
      have hstanding : Standing (good ++ [bad]) rest contents.flatten ⟨[], [], 0⟩ := by
        refine ⟨rfl, ?_, fun _ => rfl⟩
        rw [hcontents, List.nil_append, List.length_nil, List.drop_zero, List.flatten_append,
          List.flatten_singleton]
      rcases encryptedLoop_refuses inverts hiv refused rest wireRest left contents ⟨[], [], 0⟩ n₁
        hsend hsealed hstanding (Nat.zero_le _) hn₁
        with ⟨taken, r, left', s', n', n₂, rfl, hreach, hunfinished, hread, hstep⟩
      have hcount := hn₁.length_le
      have hlen := length_le_wires _ hsend
      rw [List.length_append] at hcount hlen
      have hloop : receive deadline (encryptedStep X A keys) EncryptedState.finished
          ⟨[], [], 0⟩ n₁ = .error e :=
        feed_fails_at stuck hreach hunfinished hread hstep (by omega)
      unfold receiveFlight
      rw [netM_bind_ok _ _ hreceive]
      refine (netM_bind_ok serverHello n₁ ?_).trans
        ((netM_bind_ok keys n₁ ?_).trans (netM_bind_error hloop))
      · exact (netM_lift_eq_ok_iff _ _ _ _).mpr ⟨rfl, rfl⟩
      · exact (netM_lift_eq_ok_iff _ _ _ _).mpr ⟨hkeys, rfl⟩

/-- A client that is sent a flight which it does not take fails with what the
    check of the first refused message says, as soon as that message is there:
    whether the peer then sends more, closes or falls silent makes no
    difference. -/
theorem capture_refuses (X : X509 Cert Key) (A : Aead) (endpoint : Endpoint) (domain : Str)
    (challenge : Bytes) (mask : Int) (timeout : ℚ) (a : Attempt) (hd : CanonicalDomain domain)
    (hc : challenge.length = 32) (hkey : a.publicKey.length = 32)
    (hsession : a.sessionId.length = 32) (hmask : 1 ≤ mask ∧ mask ≤ 7) (htimeout : 0 < timeout)
    (hsocket : a.socket endpoint.family endpoint.socketType endpoint.protocol = .ok ())
    (hconnect : a.connect endpoint.address = .ok ())
    (hsendall : ∀ data, a.sendall data = .ok ()) :
    ∃ ch, buildClientHello domain challenge a.publicKey a.sessionId mask = .ok ch ∧
      ∀ (records : List Record) (e : PyErr) (later : Bytes) (tail : List NetEvent),
        RefusedFlight X A a.exchange a.sessionId ch records e →
        a.net.Supplies (a.net.clock a.net.ticks + timeout) 3 tail
          (records.flatMap Record.wire ++ later) →
        captureTls13Proof X A endpoint domain challenge mask timeout a = .error e := by
  rcases built_clientHello ((isCanonicalDomain_iff domain).mpr hd) hc hkey
    (by omega : 1 ≤ a.sessionId.length ∧ a.sessionId.length ≤ 32) hmask
    with ⟨name, t, -, hbuild, -, hlen⟩
  refine ⟨_, hbuild, fun records e later tail hrefused hnet => ?_⟩
  have hshort : (frame Protocol.clientHello t.encode).length < 65536 := by
    rw [Protocol.length_frame]
    omega
  have hstart : Net.Supplies (a.net.clock a.net.ticks + timeout) 2 tail
      (records.flatMap Record.wire ++ later) { a.net with ticks := a.net.ticks + 1 } :=
    hnet.later rfl rfl (Nat.le_succ _) (by simp only; omega) hnet.chunks
  rcases connectAndSend_eq_ok hsocket hconnect hsendall hshort hstart with ⟨n₁, hsent, hn₁⟩
  have hreceive := receiveFlight_refuses (by omega) hrefused hn₁
  -- Everything before the flight goes well.
  have hprogram : captureProgram X A endpoint domain challenge mask timeout a a.net = .error e := by
    unfold captureProgram
    refine (netM_bind_ok mask a.net ?_).trans
      ((netM_bind_ok () a.net ?_).trans
        ((netM_bind_ok (frame Protocol.clientHello t.encode) a.net ?_).trans
          ((netM_bind_ok _ _ rfl).trans
            ((netM_bind_ok _ _ hsent).trans (netM_bind_error hreceive)))))
    · exact (netM_lift_eq_ok_iff _ _ _ _).mpr
        ⟨(validateSignatureAlgorithmsMask_eq_ok_iff _ _).mpr ⟨rfl, hmask⟩, rfl⟩
    · exact (netM_lift_eq_ok_iff _ _ _ _).mpr
        ⟨(failIf_eq_ok_iff _ _ _).mpr (not_le.mpr htimeout), rfl⟩
    · exact (netM_lift_eq_ok_iff _ _ _ _).mpr ⟨hbuild, rfl⟩
  rw [captureTls13Proof, hprogram]
  rfl

end Capture

/-! ### A server with an invalid certificate -/

section Session

open Protocol (vectorDomain vectorChallenge)

-- The messages are lists of some hundred bytes.
set_option maxRecDepth 20000

/-- What the library raises for the certificate of the sample. -/
def invalidVersionError : PyErr :=
  ⟨.invalidVersion, "3 is not a valid X509 version"⟩

/-- The records up to the end of the Certificate message. -/
def refusedRecords : List Record :=
  helloRecords ++ [invalidVersionRecord]

theorem refused_invalidVersion : Refused sampleX509 [sessionEncryptedExtensions]
    (certificateMessage invalidVersionDer) invalidVersionError where
  taken := TakenAs.cons _ _ _ _ ⟨by decide, by decide⟩ (by decide)
    ((checkMessage_eq_ok_iff _ _ _ _).mpr ⟨by decide, fun h => absurd h (by decide)⟩)
    (TakenAs.nil _)
  check := ⟨Protocol.certificate, rfl, by decide +kernel⟩
  framed := ⟨by decide, by decide⟩
  sizes := by decide

theorem carriesFlight_refusedRecords :
    CarriesFlight (tableEncrypt sessionTable) sessionKeys refusedRecords sessionServerHello
      (sessionEncryptedExtensions ++ certificateMessage invalidVersionDer) := by
  refine ⟨?_, [⟨22, be 5 0x1603030014, sessionServerHello.take 20⟩,
      ⟨22, be 5 0x1603030066, sessionServerHello.drop 20⟩], [invalidVersionRecord],
    [sessionEncryptedExtensions ++ certificateMessage invalidVersionDer], by decide, ?_, ?_,
    List.flatten_singleton⟩
  · have hsend : ∀ r ∈ refusedRecords, r.contentType < 256 ∧
        r.fragment.length ≤ maxTlsCiphertext ∧
        r.header = be 1 r.contentType ++ be 2 0x0303 ++ be 2 r.fragment.length := by
      decide
    exact fun r hr => ⟨0x0303, (hsend r hr).1, by decide, by decide, (hsend r hr).2⟩
  · refine ⟨by decide, by decide, fun r hr => ?_⟩
    rw [← Option.some.inj hr]
    decide
  · exact SealedFrom.cons 0 _ _ _ _ ⟨rfl, by decide, by decide, 0, by decide, by rfl⟩
      (SealedFrom.nil 1)

/-- The client refuses the certificate of this server, which then sends nothing
    more. -/
theorem session_refuses :
    captureTls13Proof sampleX509 sessionAead sessionEndpoint vectorDomain vectorChallenge 7 10
      (attemptOn (piecesOf refusedRecords)) = .error invalidVersionError := by
  rcases capture_refuses sampleX509 sessionAead sessionEndpoint vectorDomain vectorChallenge 7 10
    (attemptOn (piecesOf refusedRecords)) ((isCanonicalDomain_iff _).mp canonical_vectorDomain)
    (by decide) (by decide) (by decide) (by decide) (by decide) rfl rfl (fun _ => rfl)
    with ⟨ch, hbuild, hrefuses⟩
  have hbuilt : ch = sessionClientHello :=
    Except.ok.inj (hbuild.symm.trans buildClientHello_session)
  subst hbuilt
  have hexchange : (attemptOn (piecesOf refusedRecords)).exchange sessionServerKey =
      .ok sessionSecret := by
    simp only [attemptOn, if_true]
  have hkeys : flightKeys (attemptOn (piecesOf refusedRecords)).exchange
      (attemptOn (piecesOf refusedRecords)).sessionId sessionClientHello sessionServerHello =
        .ok sessionKeys := by
    unfold flightKeys
    simp only [bind_eq_ok_iff, handle_error_eq_ok_iff]
    exact ⟨_, parseServerHello_session, sessionSecret, hexchange, deriveServerHandshakeKeys_session⟩
  refine hrefuses refusedRecords invalidVersionError [] []
    (RefusedFlight.message sessionServerHello sessionKeys (tableEncrypt sessionTable)
      [sessionEncryptedExtensions] (certificateMessage invalidVersionDer) [] invalidVersionError
      hkeys inverts_sessionAead refused_invalidVersion ?_) ?_
  · rw [List.flatten_singleton, List.append_nil]
    exact carriesFlight_refusedRecords
  · rw [List.append_nil]
    exact supplies_piecesOf refusedRecords 3 (by decide)

end Session

end P2CTools.Tls13
