import P2CTools.Theory.CaptureErrors
import P2CTools.Theory.Completeness
import P2CTools.Wire.Simulation

/-!
# What an Attempt Depends On

Three things about a connection that the outcome of an attempt does not depend
on, whatever the peer sends.

How the network cuts up the bytes is the first. The outcome is a function of
the byte stream and of how it ends: neither the sizes of the pieces nor the
readings of the clock show, as long as the deadline is not reached.

What the peer sends behind the part that was read is the second. The client
stops with the record that completes the CertificateVerify, so a proof that was
captured cannot be taken back by anything that arrives later, and neither can a
failure. The one exception is a client that has taken everything there was and
waits: then what comes next decides, and if that is an exception of the socket,
the attempt ends with it. To tell the two apart, the stream is closed with an
error of one's own choosing. Either that error comes out whichever was chosen,
or what does come out never depended on it.

The third is how the socket treats timeouts of no use. Every timeout that is
set is what a reading of the clock has left before the deadline, and positive.
With times that are added and subtracted exactly it is therefore at most the
timeout of the connection, so that the socket is never made to block for longer
than that, nor not to block at all.

All three are simulations of one program by itself, from two related
connections. The program is gone through once, for any relation that its own
operations on a connection keep. The relation may be counted down, as the
readings of the clock are that are known to be in time. The bounds of the
receive loops are never used up, so it does not matter that they are different
on the two sides.

## Main definitions

* `Net.Read`: A connection after some reading.
* `arm`: Setting the timeout to what is left.
* `Compatible`: A relation that the operations on a connection keep.
* `Closes`, `SameStream`: Connections that give the same bytes in time.
* `Ends`, `Continued`: The same connection with more to come.
* `Retimed`: The same connection with another socket.

## Theorems

* `sent_connectAndSend`: What is sent, and to whom.
* `read_receiveFlight`: What the receive loops leave alone.
* `receive_bound`: The bound of a receive loop is never used up.
* `Compatible.capture`: Related connections come to the same.
* `capture_segmented`: The pieces do not matter.
* `capture_settled`: What comes later changes nothing.
* `capture_timeouts`: The timeouts that are set.
-/

namespace P2CTools

open Wire
open Protocol (vectorDomain vectorChallenge)

namespace Tls13

/-! ### Single reads -/

section Reads

theorem recv_nil {n : Net} (size : Nat) (h : n.events = []) :
    recv size n = .error ⟨.osError, "timed out"⟩ := by
  rw [recv, h]

theorem recv_fail {n : Net} {e : PyErr} {events : List NetEvent} (size : Nat)
    (h : n.events = .fail e :: events) : recv size n = .error e := by
  rw [recv, h]

theorem leftOver_append (size : Nat) (b : Bytes) (events later : List NetEvent) :
    leftOver size b (events ++ later) = leftOver size b events ++ later := by
  unfold leftOver
  by_cases hle : b.length ≤ size
  · rw [if_pos hle, if_pos hle]
  · rw [if_neg hle, if_neg hle, List.cons_append]

/-- The connection after so many bytes were read: who the peer is and what was
    sent to it are the same. -/
structure Net.Read (k : Nat) (n n' : Net) : Prop where
  peer : n'.peer = n.peer
  sent : n'.sent = n.sent
  available : n'.available + k = n.available

theorem Net.Read.refl (n : Net) : Net.Read 0 n n :=
  ⟨rfl, rfl, rfl⟩

theorem Net.Read.trans {j k : Nat} {n n₁ n₂ : Net} (h : n.Read j n₁) (h' : n₁.Read k n₂) :
    n.Read (j + k) n₂ := by
  have hfirst := h.available
  have hsecond := h'.available
  exact ⟨h'.peer.trans h.peer, h'.sent.trans h.sent, by omega⟩

theorem read_recv {size : Nat} {b : Bytes} {n n' : Net} (h : recv size n = .ok (b, n')) :
    n.Read b.length n' := by
  cases hevents : n.events with
  | nil =>
      rw [recv_nil size hevents] at h
      exact absurd h (error_ne_ok _ _)
  | cons event events =>
      cases event with
      | fail e =>
          rw [recv_fail size hevents] at h
          exact absurd h (error_ne_ok _ _)
      | data piece =>
          rw [recv_data size hevents] at h
          rcases Prod.mk.inj (Except.ok.inj h) with ⟨rfl, rfl⟩
          refine ⟨rfl, rfl, ?_⟩
          rw [Net.available, Net.available, hevents, leftOver]
          -- A piece that fits is gone, and of any other the first bytes are.
          by_cases hfits : piece.length ≤ size
          · rw [if_pos hfits, List.take_of_length_le hfits, List.map_cons, List.sum_cons, Nat.add_comm]
          · rw [if_neg hfits, List.map_cons, List.sum_cons, List.map_cons, List.sum_cons]
            simp only [List.length_drop, List.length_take]
            omega

theorem read_remainingTimeout {deadline t : ℚ} {n n' : Net}
    (h : remainingTimeout deadline n = .ok (t, n')) : n.Read 0 n' := by
  unfold remainingTimeout at h
  simp only [netM_bind_eq_ok_iff, netM_lift_eq_ok_iff, netM_pure_eq_ok_iff] at h
  rcases h with ⟨now, n₁, hnow, _, _, ⟨-, rfl⟩, -, rfl⟩
  rcases Prod.mk.inj (Except.ok.inj hnow) with ⟨-, rfl⟩
  exact ⟨rfl, rfl, rfl⟩

theorem read_settimeout {t : ℚ} {n n' : Net} (h : settimeout t n = .ok ((), n')) : n.Read 0 n' := by
  rcases (bind_eq_ok_iff _ _ _).mp h with ⟨_, -, hpair⟩
  rcases Prod.mk.inj (Except.ok.inj hpair) with ⟨-, rfl⟩
  exact Net.Read.refl n

theorem read_recvLoop {size fuel : Nat} {deadline : ℚ} :
    ∀ {result b : Bytes} {n n' : Net}, recvLoop size deadline fuel result n = .ok (b, n') →
      ∃ more, b = result ++ more ∧ n.Read more.length n' := by
  induction fuel with
  | zero =>
      intro result b n n' h
      exact absurd h (error_ne_ok _ _)
  | succ fuel ih =>
      intro result b n n' h
      rw [recvLoop] at h
      by_cases hsize : result.length < size
      · rw [if_pos hsize] at h
        simp only [netM_bind_eq_ok_iff, netM_lift_eq_ok_iff] at h
        rcases h with ⟨t, n₁, htimeout, _, n₂, hset, chunk, n₃, hrecv, _, _, ⟨-, rfl⟩, hloop⟩
        rcases ih hloop with ⟨more, rfl, hmore⟩
        have hpass := (read_remainingTimeout htimeout).trans
          ((read_settimeout hset).trans ((read_recv hrecv).trans hmore))
        rw [Nat.zero_add, Nat.zero_add, ← List.length_append] at hpass
        exact ⟨chunk ++ more, List.append_assoc _ _ _, hpass⟩
      · rw [if_neg hsize, netM_pure_eq_ok_iff] at h
        rcases h with ⟨hresult, rfl⟩
        exact ⟨[], by rw [hresult, List.append_nil], Net.Read.refl _⟩

/-- A record costs the connection something. -/
theorem read_recvRecord {deadline : ℚ} {r : Record} {n n' : Net}
    (h : recvRecord deadline n = .ok (r, n')) : ∃ k, 0 < k ∧ n.Read k n' := by
  unfold recvRecord at h
  simp only [netM_bind_eq_ok_iff, netM_lift_eq_ok_iff, netM_pure_eq_ok_iff] at h
  rcases h with ⟨header, n₁, hheader, type, _, ⟨htype, rfl⟩, _, _, ⟨-, rfl⟩, _, _, ⟨-, rfl⟩,
    fragment, n₂, hfragment, -, rfl⟩
  rcases read_recvLoop hheader with ⟨first, hfirst, hread⟩
  rcases read_recvLoop hfragment with ⟨second, -, hread'⟩
  rw [List.nil_append] at hfirst
  -- The header has a first byte.
  have hpos : 0 < first.length := by
    rw [← hfirst]
    exact (List.getElem?_eq_some_iff.mp ((getIndex_eq_ok_iff _ _ _).mp htype)).1
  exact ⟨first.length + second.length, by omega, hread.trans hread'⟩

/-- The bound of a receive loop is never used up: any bound above what the
    connection has to give is as good. -/
theorem receive_bound {σ : Type} {deadline : ℚ} (step : Record → σ → Except PyErr σ)
    (finished : σ → Bool) (init : σ) (n : Net) {fuel : Nat} (hfuel : n.available < fuel) :
    receive deadline step finished init n =
      feed stuck (recvRecord deadline) step finished fuel init n := by
  refine feed_bound stuck Net.available (fun m r m' hread => ?_) _ fuel init n (Nat.lt_succ_self _)
    hfuel
  rcases read_recvRecord hread with ⟨k, hpos, h⟩
  have havailable := h.available
  omega

theorem read_of_delivers {deadline : ℚ} {n n' : Net} {records : List Record}
    (h : Delivers (recvRecord deadline) n records n') : ∃ k, n.Read k n' := by
  have hkeeps : ∀ m r m', (∃ k, n.Read k m) → recvRecord deadline m = .ok (r, m') →
      ∃ k, n.Read k m' := by
    rintro m r m' ⟨k, hm⟩ hread
    rcases read_recvRecord hread with ⟨j, -, h'⟩
    exact ⟨k + j, hm.trans h'⟩
  exact h.keeps hkeeps ⟨0, Net.Read.refl n⟩

theorem connectTo_eq_ok_iff (a : Attempt) (address : Str) (n n' : Net) (u : Unit) :
    a.connectTo address n = .ok (u, n') ↔
      a.connect address = .ok () ∧ n' = { n with peer := some address } := by
  rw [Attempt.connectTo, bind_eq_ok_iff]
  constructor
  · rintro ⟨_, hconnect, hpair⟩
    exact ⟨hconnect, (Prod.mk.inj (Except.ok.inj hpair)).2.symm⟩
  · rintro ⟨hconnect, rfl⟩
    exact ⟨(), hconnect, rfl⟩

theorem send_eq_ok_iff (a : Attempt) (data : Bytes) (n n' : Net) (u : Unit) :
    a.send data n = .ok (u, n') ↔
      a.sendall data = .ok () ∧ n' = { n with sent := n.sent ++ data } := by
  rw [Attempt.send, bind_eq_ok_iff]
  constructor
  · rintro ⟨_, hsend, hpair⟩
    exact ⟨hsend, (Prod.mk.inj (Except.ok.inj hpair)).2.symm⟩
  · rintro ⟨hsend, rfl⟩
    exact ⟨(), hsend, rfl⟩

/-- What was sent when the peer is listened to, and to whom. -/
theorem sent_connectAndSend {a : Attempt} {endpoint : Endpoint} {clientHello : Bytes}
    {deadline : ℚ} {n n' : Net}
    (h : connectAndSend a endpoint clientHello deadline n = .ok ((), n')) :
    a.connect endpoint.address = .ok () ∧ n'.peer = some endpoint.address ∧
      ∃ data, record contentHandshake clientHello = .ok data ∧ a.sendall data = .ok () ∧
        n'.sent = n.sent ++ data := by
  unfold connectAndSend at h
  simp only [netM_bind_eq_ok_iff, netM_lift_eq_ok_iff, connectTo_eq_ok_iff, send_eq_ok_iff] at h
  rcases h with ⟨_, _, ⟨-, rfl⟩, t₁, n₁, hremaining, _, n₂, hset, _, n₃, ⟨hconnect, hn₃⟩, t₂, n₄,
    hremaining', _, n₅, hset', data, n₆, ⟨hdata, hn₆⟩, hsendall, rfl⟩
  -- Setting the timeouts changes neither of the two.
  have hbefore := (read_remainingTimeout hremaining).trans (read_settimeout hset)
  have hafter := (read_remainingTimeout hremaining').trans (read_settimeout hset')
  refine ⟨hconnect, ?_, data, hdata, hsendall, ?_⟩
  · change n₆.peer = _
    rw [hn₆, hafter.peer, hn₃]
  · change n₆.sent ++ data = _
    rw [hn₆, hafter.sent, hn₃]
    change n₂.sent ++ data = _
    rw [hbefore.sent]

/-- The receive loops leave alone who the peer is and what was sent to it. -/
theorem read_receiveFlight {Cert Key : Type} {X : X509 Cert Key} {A : Aead}
    {exchange : Bytes → Except PyErr Bytes} {sessionId clientHello : Bytes} {deadline : ℚ}
    {n n' : Net} {flight : Flight}
    (h : receiveFlight X A exchange sessionId clientHello deadline n = .ok (flight, n')) :
    ∃ k, n.Read k n' := by
  rcases (receiveFlight_eq_ok_iff X A _ _ _ _ _ _ _).mp h with ⟨plain, encrypted, n₁, hplain, -, -,
    hencrypted, -⟩
  rcases read_of_delivers hplain.reaches.1.delivers with ⟨j, hj⟩
  rcases read_of_delivers hencrypted.reaches.1.delivers with ⟨k, hk⟩
  exact ⟨j + k, hj.trans hk⟩

end Reads

/-! ### The program, for any relation -/

section Program

/-- What precedes every operation that may block. -/
def arm (deadline : ℚ) : NetM Unit :=
  remainingTimeout deadline >>= settimeout

/-- A pass of the loop of `_recv_exact`, with the bytes it adds. -/
def recvPass (size : Nat) (deadline : ℚ) : NetM Bytes := do
  arm deadline
  let chunk ← recv size
  NetM.lift (failIf (chunk = [])
    (tlsError "TLS peer closed the connection during the handshake"))
  return chunk

theorem recvLoop_succ (size fuel : Nat) (deadline : ℚ) (result : Bytes) :
    recvLoop size deadline (fuel + 1) result =
      if result.length < size then recvPass (size - result.length) deadline >>= fun chunk =>
        recvLoop size deadline fuel (result ++ chunk)
      else pure result := by
  simp only [recvLoop, recvPass, arm, bind_assoc, pure_bind]

section Reading

variable {R : Net → Net → Prop} {E : PyErr → Prop} {deadline deadline' : ℚ}

theorem simulates_netLift {α : Type} (r : Except PyErr α) :
    Simulates R (NetM.lift r) (NetM.lift r) E fun _ => R :=
  simulates_lift fun _ _ _ _ h => h

/-- Reading exactly so many bytes, where single reads are simulated. -/
theorem simulates_recvLoop (harm : Simulates R (arm deadline) (arm deadline') E fun _ => R)
    (hrecv : ∀ size, Simulates R (recv size) (recv size) E fun _ => R) (size fuel : Nat) :
    ∀ result, Simulates R (recvLoop size deadline fuel result)
      (recvLoop size deadline' fuel result) E fun _ => R := by
  induction fuel with
  | zero => exact fun result => simulates_netLift (.error stuck)
  | succ fuel ih =>
      intro result
      rw [recvLoop_succ, recvLoop_succ]
      by_cases hsize : result.length < size
      · have hpass : Simulates R (recvPass (size - result.length) deadline)
            (recvPass (size - result.length) deadline') E fun _ => R :=
          harm.bind fun _ => (hrecv _).bind fun chunk => (simulates_netLift _).bind fun _ =>
            simulates_pure chunk fun _ _ h => h
        rw [if_pos hsize, if_pos hsize]
        exact hpass.bind fun chunk => ih (result ++ chunk)
      · rw [if_neg hsize, if_neg hsize]
        exact simulates_pure result fun _ _ h => h

end Reading

/-- The operations on a connection keep the relation, with a deadline on either
    side. What is left of the relation is counted by the timeouts set before
    the peer is listened to. -/
structure Compatible (R : Nat → Net → Net → Prop) (E : PyErr → Prop) (deadline deadline' : ℚ) :
    Prop where
  arm : ∀ k, Simulates (R (k + 1)) (arm deadline) (arm deadline') E fun _ => R k
  recvExact : ∀ size, Simulates (R 1) (recvExact size deadline) (recvExact size deadline') E
    fun _ => R 1
  used : ∀ k n n' (peer : Option Str → Option Str) (sent : Bytes → Bytes), R k n n' →
    R k { n with peer := peer n.peer, sent := sent n.sent }
      { n' with peer := peer n'.peer, sent := sent n'.sent }

variable {R : Nat → Net → Net → Prop} {E : PyErr → Prop} {deadline deadline' : ℚ}

theorem Compatible.recvRecord (hR : Compatible R E deadline deadline') :
    Simulates (R 1) (recvRecord deadline) (recvRecord deadline') E fun _ => R 1 := by
  unfold Tls13.recvRecord
  exact (hR.recvExact _).bind fun header => (simulates_netLift _).bind fun contentType =>
    (simulates_netLift _).bind fun _ => (simulates_netLift _).bind fun _ =>
    (hR.recvExact _).bind fun fragment => simulates_pure _ fun _ _ h => h

/-- The loops have different bounds on the two sides, and are run with one that
    is above both. -/
theorem Compatible.receive (hR : Compatible R E deadline deadline') {σ : Type}
    (step : Record → σ → Except PyErr σ) (finished : σ → Bool) (init : σ) :
    Simulates (R 1) (receive deadline step finished init) (receive deadline' step finished init) E
      fun _ => R 1 := by
  intro n n' h
  have hfirst : n.available < n.available + n'.available + 1 := by omega
  have hsecond : n'.available < n.available + n'.available + 1 := by omega
  rw [receive_bound step finished init n hfirst, receive_bound step finished init n' hsecond]
  exact simulates_feed hR.recvRecord stuck step finished _ init n n' h

theorem Compatible.connectAndSend (hR : Compatible R E deadline deadline') (a : Attempt)
    (endpoint : Endpoint) (clientHello : Bytes) :
    Simulates (R 3) (connectAndSend a endpoint clientHello deadline)
      (connectAndSend a endpoint clientHello deadline') E fun _ => R 1 := by
  -- The program, with the two steps that set a timeout taken together.
  have harmed : ∀ d, Tls13.connectAndSend a endpoint clientHello d = (do
      NetM.lift (a.socket endpoint.family endpoint.socketType endpoint.protocol)
      Tls13.arm d
      a.connectTo endpoint.address
      Tls13.arm d
      let data ← NetM.lift (record contentHandshake clientHello)
      a.send data) := by
    intro d
    simp only [Tls13.connectAndSend, Tls13.arm, bind_assoc]
  have hconnect : ∀ k, Simulates (R k) (a.connectTo endpoint.address) (a.connectTo endpoint.address)
      E fun _ => R k :=
    fun k => simulates_update _ _ fun _ n n' _ h =>
      hR.used k n n' (fun _ => some endpoint.address) id h
  have hsend : ∀ k data, Simulates (R k) (a.send data) (a.send data) E fun _ => R k :=
    fun k data => simulates_update _ _ fun _ n n' _ h => hR.used k n n' id (fun b => b ++ data) h
  rw [harmed, harmed]
  exact (simulates_netLift _).bind fun _ => (hR.arm 2).bind fun _ => (hconnect 2).bind fun _ =>
    (hR.arm 1).bind fun _ => (simulates_netLift _).bind fun data => hsend 1 data

/-- Reading the clock for the first time, with a reading on either side. -/
theorem simulates_started {α : Type} {P : Net → Net → Prop} {Q : α → Net → Net → Prop}
    {f f' : ℚ → NetM α} {n n' : Net}
    (hf : Simulates P (f (n.clock n.ticks)) (f' (n'.clock n'.ticks)) E Q)
    (h : P { n with ticks := n.ticks + 1 } { n' with ticks := n'.ticks + 1 }) :
    Simulates (fun m m' => m = n ∧ m' = n') (monotonic >>= f) (monotonic >>= f') E Q := by
  intro m m' hm
  rw [hm.1, hm.2]
  exact hf _ _ h

variable {Cert Key : Type} (X : X509 Cert Key) (A : Aead)

theorem Compatible.receiveFlight (hR : Compatible R E deadline deadline')
    (exchange : Bytes → Except PyErr Bytes) (sessionId clientHello : Bytes) :
    Simulates (R 1) (receiveFlight X A exchange sessionId clientHello deadline)
      (receiveFlight X A exchange sessionId clientHello deadline') E fun _ => R 1 := by
  unfold Tls13.receiveFlight
  exact (hR.receive _ _ _).bind fun hello => (simulates_netLift _).bind fun serverHello =>
    (simulates_netLift _).bind fun keys => (hR.receive _ _ _).bind fun encrypted =>
    simulates_pure _ fun _ _ h => h

/-- Attempts that differ in their connection only come to the same, if the two
    connections are related once the start has been read. -/
theorem Compatible.capture (endpoint : Endpoint) (domain : Str) (challenge : Bytes) (mask : Int)
    (timeout : ℚ) (a : Attempt) (n' : Net)
    (hR : Compatible R E (a.net.clock a.net.ticks + timeout) (n'.clock n'.ticks + timeout))
    (h : R 3 { a.net with ticks := a.net.ticks + 1 } { n' with ticks := n'.ticks + 1 }) :
    (∀ m, captureTls13Proof X A endpoint domain challenge mask timeout a = .ok m →
      captureTls13Proof X A endpoint domain challenge mask timeout { a with net := n' } = .ok m) ∧
    ∀ e, captureTls13Proof X A endpoint domain challenge mask timeout a = .error e → E e →
      captureTls13Proof X A endpoint domain challenge mask timeout { a with net := n' } =
        .error e := by
  -- Until the start is read the connections are the ones given.
  have hprogram : Simulates (fun n m => n = a.net ∧ m = n')
      (captureProgram X A endpoint domain challenge mask timeout a)
      (captureProgram X A endpoint domain challenge mask timeout { a with net := n' }) E
      fun _ => R 1 := by
    unfold captureProgram
    refine (simulates_netLift _).bind fun _ => (simulates_netLift _).bind fun _ =>
      (simulates_netLift _).bind fun clientHello => simulates_started ?_ h
    exact (hR.connectAndSend a endpoint clientHello).bind fun _ =>
      (hR.receiveFlight X A _ _ _).bind fun flight => (simulates_netLift _).bind fun result =>
      (simulates_netLift _).bind fun parsed => (simulates_netLift _).bind fun allowed =>
      (simulates_netLift _).bind fun _ => simulates_pure result fun _ _ h => h
  exact hprogram.outcome ⟨rfl, rfl⟩

end Program

/-! ### The same bytes in other pieces -/

section Segments

/-- What is behind a stream does not go on with it. -/
def Closes : List NetEvent → Prop
  | .data b :: _ => b = []
  | _ => True

/-- How a stream ends for the client that still waits. -/
def streamError : List NetEvent → PyErr
  | [] => ⟨.osError, "timed out"⟩
  | .fail e :: _ => e
  | .data _ :: _ => tlsError "TLS peer closed the connection during the handshake"

/-- Two connections that deliver the same stream before their deadlines, with
    the same behind it. -/
def SameStream (deadline deadline' : ℚ) (spare : Nat) (n n' : Net) : Prop :=
  ∃ tail stream, Closes tail ∧ n.Supplies deadline spare tail stream ∧
    n'.Supplies deadline' spare tail stream

variable {deadline deadline' : ℚ} {spare : Nat} {tail : List NetEvent}

theorem arm_eq {n n₁ : Net} {t : ℚ} (hremaining : remainingTimeout deadline n = .ok (t, n₁))
    (hset : settimeout t n₁ = .ok ((), n₁)) : arm deadline n = .ok ((), n₁) := by
  unfold arm
  rw [netM_bind_eq_ok_iff]
  exact ⟨t, n₁, hremaining, hset⟩

theorem recvPass_eq {n n₁ : Net} (size : Nat) (h : arm deadline n = .ok ((), n₁)) :
    recvPass size deadline n = (recv size >>= fun chunk => NetM.lift (failIf (chunk = [])
      (tlsError "TLS peer closed the connection during the handshake")) >>= fun _ =>
        pure chunk) n₁ := by
  change (arm deadline n >>= _) = _
  rw [h]
  rfl

/-- A pass takes some of the stream. -/
theorem Net.Supplies.recvPass_some {stream : Bytes} {n : Net} {size : Nat}
    (h : n.Supplies deadline spare tail stream) (hne : stream ≠ []) (hsize : 0 < size) :
    ∃ first last n', stream = first ++ last ∧ first ≠ [] ∧
      recvPass size deadline n = .ok (first, n') ∧ n'.Supplies deadline spare tail last := by
  rcases h.take hne hsize
    with ⟨t, n₁, first, last, n', hstream, hfirst, -, hremaining, hset, hrecv, hn'⟩
  refine ⟨first, last, n', hstream, hfirst, ?_, hn'⟩
  rw [recvPass_eq size (arm_eq hremaining hset)]
  simp only [netM_bind_eq_ok_iff, netM_lift_eq_ok_iff, netM_pure_eq_ok_iff, failIf_eq_ok_iff]
  exact ⟨first, _, hrecv, (), _, ⟨hfirst, rfl⟩, rfl, rfl⟩

/-- Behind the stream the client learns how it ends, for a reading more. -/
theorem Net.Supplies.recvPass_end {n : Net} (h : n.Supplies deadline (spare + 1) tail [])
    (htail : Closes tail) (size : Nat) :
    recvPass size deadline n = .error (streamError tail) := by
  rcases h.arm_spare with ⟨t, n₁, hremaining, hset, h₁⟩
  have harm := arm_eq hremaining hset
  rcases h₁.chunks with ⟨chunks, hchunks, hevents, hstream⟩
  have hnil : chunks = [] := by
    cases chunks with
    | nil => rfl
    | cons c cs =>
        rw [List.flatten_cons, List.append_eq_nil_iff] at hstream
        exact absurd hstream.1 (hchunks c List.mem_cons_self)
  rw [hnil, List.map_nil, List.nil_append] at hevents
  rw [recvPass_eq size harm]
  change (Tls13.recv size n₁ >>= _) = _
  -- What is behind the stream is nothing, an exception or the empty piece.
  cases tail with
  | nil =>
      rw [recv_nil size hevents]
      rfl
  | cons event events =>
      cases event with
      | fail e =>
          rw [recv_fail size hevents]
          rfl
      | data b =>
          rw [Closes] at htail
          subst htail
          rw [recv_data size hevents, List.take_nil]
          rfl

/-- A loop that wants more than the stream has ends as the stream does. -/
theorem recvLoop_short (htail : Closes tail) (size fuel : Nat) :
    ∀ (result stream : Bytes) (n : Net), stream.length < fuel →
      result.length + stream.length < size → n.Supplies deadline (spare + 1) tail stream →
      recvLoop size deadline fuel result n = .error (streamError tail) := by
  induction fuel with
  | zero =>
      intro result stream n hfuel
      omega
  | succ fuel ih =>
      intro result stream n hfuel hsize h
      rw [recvLoop_succ, if_pos (by omega)]
      by_cases hne : stream = []
      · rw [hne] at h
        exact (bind_eq_error_iff _ _ _).mpr (Or.inl (h.recvPass_end htail _))
      · have hwanted : 0 < size - result.length := by omega
        rcases h.recvPass_some hne hwanted with ⟨first, last, n₂, rfl, hfirst, hpass, h₂⟩
        have hpos := List.length_pos_iff.mpr hfirst
        rw [List.length_append] at hfuel hsize
        -- The rest of the loop has less of the stream, and wants as much as before.
        refine (bind_eq_error_iff _ _ _).mpr (Or.inr ⟨(first, n₂), hpass, ?_⟩)
        exact ih (result ++ first) last n₂ (by omega) (by rw [List.length_append]; omega) h₂

/-- Reading exactly so many bytes from the same stream. -/
theorem simulates_recvExact_sameStream (size : Nat) :
    Simulates (SameStream deadline deadline' (spare + 1)) (recvExact size deadline)
      (recvExact size deadline') (fun _ => True)
      fun _ => SameStream deadline deadline' (spare + 1) := by
  refine simulates_of_runs fun n n' h => ?_
  rcases h with ⟨tail, stream, htail, hn, hn'⟩
  by_cases hsize : size ≤ stream.length
  · -- There is enough, and the same is taken off both.
    have hlen : (stream.take size).length = size := by
      rw [List.length_take, Nat.min_eq_left hsize]
    rw [← List.take_append_drop size stream] at hn hn'
    rcases recvExact_supplies hn with ⟨n₁, hread, h₁⟩
    rcases recvExact_supplies hn' with ⟨n₁', hread', h₁'⟩
    rw [hlen] at hread hread'
    exact Or.inl ⟨stream.take size, n₁, n₁', hread, hread', tail, _, htail, h₁, h₁'⟩
  · -- There is not, and both end as the stream does.
    have hshort : ([] : Bytes).length + stream.length < size := by
      rw [List.length_nil]
      omega
    refine Or.inr ⟨streamError tail, ?_, fun _ => ?_⟩
    · exact recvLoop_short htail size (size + 1) [] stream n (by omega) hshort hn
    · exact recvLoop_short htail size (size + 1) [] stream n' (by omega) hshort hn'

theorem compatible_sameStream :
    Compatible (SameStream deadline deadline') (fun _ => True) deadline deadline' := by
  refine ⟨fun k => simulates_of_runs fun n n' h => ?_, simulates_recvExact_sameStream,
    fun k n n' peer sent h => ?_⟩
  · rcases h with ⟨tail, stream, htail, hn, hn'⟩
    rcases hn.arm_spare with ⟨t, n₁, hremaining, hset, h₁⟩
    rcases hn'.arm_spare with ⟨t', n₁', hremaining', hset', h₁'⟩
    exact Or.inl ⟨(), n₁, n₁', arm_eq hremaining hset, arm_eq hremaining' hset', tail, stream,
      htail, h₁, h₁'⟩
  · rcases h with ⟨tail, stream, htail, hn, hn'⟩
    exact ⟨tail, stream, htail, ⟨hn.timely, hn.settimeout, hn.chunks⟩,
      ⟨hn'.timely, hn'.settimeout, hn'.chunks⟩⟩

variable {Cert Key : Type} (X : X509 Cert Key) (A : Aead)

/-- How the bytes of the peer are cut up, and when they arrive before the
    deadline, is of no consequence: two attempts that get the same stream come
    to the same, be it a proof or a failure. -/
theorem capture_segmented (endpoint : Endpoint) (domain : Str) (challenge : Bytes) (mask : Int)
    (timeout : ℚ) (a : Attempt) (n' : Net)
    (h : SameStream (a.net.clock a.net.ticks + timeout) (n'.clock n'.ticks + timeout) 4 a.net
      n') :
    captureTls13Proof X A endpoint domain challenge mask timeout { a with net := n' } =
      captureTls13Proof X A endpoint domain challenge mask timeout a := by
  rcases h with ⟨tail, stream, htail, hn, hn'⟩
  have hcapture := compatible_sameStream.capture X A endpoint domain challenge mask timeout a n'
    ⟨tail, stream, htail, hn.later rfl rfl (Nat.le_succ _) (by simp only; omega) hn.chunks,
      hn'.later rfl rfl (Nat.le_succ _) (by simp only; omega) hn'.chunks⟩
  cases hresult : captureTls13Proof X A endpoint domain challenge mask timeout a with
  | ok m => exact hcapture.1 m hresult
  | error e => exact hcapture.2 e hresult trivial

/-- The records of the session in one piece instead of three. -/
theorem session_segmented :
    captureTls13Proof sampleX509 sessionAead sessionEndpoint vectorDomain vectorChallenge 7 10
        (attemptOn [sessionRecords.flatMap Record.wire]) =
      captureTls13Proof sampleX509 sessionAead sessionEndpoint vectorDomain vectorChallenge 7 10
        (attemptOn (piecesOf sessionRecords)) := by
  have hpiece : ∀ piece ∈ [sessionRecords.flatMap Record.wire], piece ≠ [] := by
    intro piece hpiece hnil
    have hheader : firstRecord.header ≠ [] := List.ne_nil_of_length_pos (by decide)
    rw [List.mem_singleton.mp hpiece, List.flatMap_eq_nil_iff] at hnil
    have hwire := hnil firstRecord (List.mem_append_right _ List.mem_cons_self)
    exact hheader (List.append_eq_nil_iff.mp hwire).1
  have hwhole := supplies_attemptOn [sessionRecords.flatMap Record.wire] 4 hpiece
  rw [List.flatten_singleton] at hwhole
  exact capture_segmented sampleX509 sessionAead sessionEndpoint vectorDomain vectorChallenge 7 10
    (attemptOn (piecesOf sessionRecords)) (attemptOn [sessionRecords.flatMap Record.wire]).net
    ⟨[], sessionRecords.flatMap Record.wire, trivial,
      supplies_piecesOf sessionRecords 4 piecesOf_sessionRecords_ne_nil, hwhole⟩

end Segments

/-! ### More to come -/

section Continued

/-- What comes next is the end of the stream, with this error for a client that
    still waits. -/
def Ends (e : PyErr) : List NetEvent → Prop
  | [] => e = ⟨.osError, "timed out"⟩
  | .fail e' :: _ => e = e'
  | .data _ :: _ => False

/-- The same connection, closed with an error behind its first part, and with
    something else there. -/
def Continued (e : PyErr) (later : List NetEvent) (n n' : Net) : Prop :=
  ∃ first, n.events = first ++ [.fail e] ∧ n' = { n with events := first ++ later }

variable {e : PyErr} {later : List NetEvent} {deadline : ℚ}

theorem simulates_arm_continued {E : PyErr → Prop} :
    Simulates (Continued e later) (arm deadline) (arm deadline) E fun _ => Continued e later := by
  have hmonotonic : Simulates (Continued e later) monotonic monotonic E
      fun _ => Continued e later := by
    refine simulates_of_runs fun n n' h => ?_
    rcases h with ⟨first, hn, rfl⟩
    exact Or.inl ⟨n.clock n.ticks, _, _, rfl, rfl, first, hn, rfl⟩
  have hset : ∀ t, Simulates (Continued e later) (settimeout t) (settimeout t) E
      fun _ => Continued e later := by
    intro t
    refine simulates_of_runs fun n n' h => ?_
    rcases h with ⟨first, hn, rfl⟩
    unfold settimeout
    cases n.settimeout t with
    | ok u => exact Or.inl ⟨u, _, _, rfl, rfl, first, hn, rfl⟩
    | error e' => exact Or.inr ⟨e', rfl, fun _ => rfl⟩
  have hremaining : Simulates (Continued e later) (remainingTimeout deadline)
      (remainingTimeout deadline) E fun _ => Continued e later :=
    hmonotonic.bind fun now => (simulates_netLift _).bind fun _ =>
      simulates_pure _ fun _ _ h => h
  exact hremaining.bind hset

/-- A read either finds what it would have found, or it finds the end. -/
theorem simulates_recv_continued (size : Nat) :
    Simulates (Continued e later) (recv size) (recv size) (fun e' => e' = e → Ends e later)
      fun _ => Continued e later := by
  refine simulates_of_runs fun n n' h => ?_
  rcases h with ⟨first, hn, rfl⟩
  cases first with
  | nil =>
      -- The first part is used up.
      refine Or.inr ⟨e, recv_fail size hn, fun hends => ?_⟩
      have hlater := hends rfl
      cases later with
      | nil =>
          rw [Ends] at hlater
          rw [hlater]
          exact recv_nil size rfl
      | cons event events =>
          cases event with
          | fail e' =>
              rw [Ends] at hlater
              rw [hlater]
              exact recv_fail size rfl
          | data b => exact hlater.elim
  | cons event events =>
      rw [List.cons_append] at hn
      cases event with
      | fail e' => exact Or.inr ⟨e', recv_fail size hn, fun _ => recv_fail size rfl⟩
      | data b =>
          refine Or.inl ⟨b.take size, _, _, recv_data size hn, recv_data size rfl,
            leftOver size b events, leftOver_append size b events _, ?_⟩
          rw [← leftOver_append size b events later]
          rfl

theorem compatible_continued :
    Compatible (fun _ => Continued e later) (fun e' => e' = e → Ends e later) deadline deadline := by
  refine ⟨fun _ => simulates_arm_continued, fun size => ?_, fun _ n n' peer sent h => ?_⟩
  · exact simulates_recvLoop simulates_arm_continued simulates_recv_continued size _ []
  · rcases h with ⟨first, hn, rfl⟩
    exact ⟨first, hn, rfl⟩

variable {Cert Key : Type} (X : X509 Cert Key) (A : Aead)

/-- The attempt, on a connection with this behind what it has delivered. -/
def Attempt.followedBy (a : Attempt) (later : List NetEvent) : Attempt :=
  { a with net := { a.net with events := a.net.events ++ later } }

/-- Closing the connection with an error shows what depends on what follows. -/
theorem capture_closed (endpoint : Endpoint) (domain : Str) (challenge : Bytes) (mask : Int)
    (timeout : ℚ) (a : Attempt) (e : PyErr) (later : List NetEvent)
    (h : captureTls13Proof X A endpoint domain challenge mask timeout
      (a.followedBy [.fail e]) ≠ .error e ∨ Ends e later) :
    captureTls13Proof X A endpoint domain challenge mask timeout (a.followedBy later) =
      captureTls13Proof X A endpoint domain challenge mask timeout (a.followedBy [.fail e]) := by
  have hcapture := (@compatible_continued e later _).capture X A endpoint domain
    challenge mask timeout (a.followedBy [.fail e]) (a.followedBy later).net
    ⟨a.net.events, rfl, rfl⟩
  cases hresult : captureTls13Proof X A endpoint domain challenge mask timeout
      (a.followedBy [.fail e]) with
  | ok m => exact hcapture.1 m hresult
  | error e' =>
      refine hcapture.2 e' hresult fun hsame => ?_
      rw [hresult, hsame] at h
      exact h.resolve_left fun hne => hne rfl

/-- What arrives later does not change what an attempt came to, be it a proof
    or a failure. The one exception is an attempt that has read all there was
    and waits: it has timed out, and with an exception of the socket behind
    what was delivered it ends with that. -/
theorem capture_settled (endpoint : Endpoint) (domain : Str) (challenge : Bytes) (mask : Int)
    (timeout : ℚ) (a : Attempt) :
    (∀ later, captureTls13Proof X A endpoint domain challenge mask timeout (a.followedBy later) =
      captureTls13Proof X A endpoint domain challenge mask timeout a) ∨
    captureTls13Proof X A endpoint domain challenge mask timeout a =
        .error ⟨.osError, "timed out"⟩ ∧
      ∀ e later, captureTls13Proof X A endpoint domain challenge mask timeout
        (a.followedBy (.fail e :: later)) = .error e := by
  have hnothing : a.followedBy [] = a := by
    rw [Attempt.followedBy, List.append_nil]
  by_cases hwaits : ∀ e, captureTls13Proof X A endpoint domain challenge mask timeout
      (a.followedBy [.fail e]) = .error e
  -- Whatever closes the connection comes out of the attempt.
  · refine Or.inr ⟨?_, fun e later => ?_⟩
    · have htimeout := capture_closed X A endpoint domain challenge mask timeout a
        ⟨.osError, "timed out"⟩ [] (Or.inr rfl)
      rw [hnothing, hwaits] at htimeout
      exact htimeout
    · rw [capture_closed X A endpoint domain challenge mask timeout a e (.fail e :: later)
        (Or.inr rfl), hwaits]
  -- Something else came out, which then never depends on what is there.
  · rcases not_forall.mp hwaits with ⟨e, he⟩
    refine Or.inl fun later => ?_
    have hlater := capture_closed X A endpoint domain challenge mask timeout a e later (Or.inl he)
    have hnone := capture_closed X A endpoint domain challenge mask timeout a e [] (Or.inl he)
    rw [hnothing] at hnone
    rw [hlater, hnone]

end Continued

/-! ### Other timeouts -/

section Retimed

/-- The same connection in the course of an attempt, with a socket that takes
    the same timeouts where they are what is left before the deadline. -/
structure Retimed (deadline : ℚ) (n n' : Net) : Prop where
  clock : n'.clock = n.clock
  ticks : n'.ticks = n.ticks
  events : n'.events = n.events
  settimeout : ∀ k, n.ticks ≤ k → 0 < deadline - n.clock k →
    n'.settimeout (deadline - n.clock k) = n.settimeout (deadline - n.clock k)

variable {deadline : ℚ}

/-- The timeout that is set is what the check has just found to be left. -/
theorem simulates_arm_retimed :
    Simulates (Retimed deadline) (arm deadline) (arm deadline) (fun _ => True)
      fun _ => Retimed deadline := by
  refine simulates_of_runs fun n n' h => ?_
  have hnow : n'.clock n'.ticks = n.clock n.ticks := by rw [h.clock, h.ticks]
  have hrun : ∀ m : Net, arm deadline m =
      (failIf (deadline - m.clock m.ticks ≤ 0)
        (tlsError "TLS handshake exceeded the connection timeout") >>= fun _ =>
      m.settimeout (deadline - m.clock m.ticks) >>= fun u =>
        .ok (u, { m with ticks := m.ticks + 1 })) := by
    intro m
    change (NetM.lift _ _ >>= _) >>= _ = _
    unfold NetM.lift
    cases failIf (deadline - m.clock m.ticks ≤ 0)
      (tlsError "TLS handshake exceeded the connection timeout") with
    | ok u => rfl
    | error e => rfl
  -- Both find the deadline as far ahead, and only then set a timeout.
  rw [hrun, hrun, hnow]
  by_cases hleft : deadline - n.clock n.ticks ≤ 0
  · rw [failIf, if_pos hleft]
    exact Or.inr ⟨_, rfl, fun _ => rfl⟩
  · rw [failIf, if_neg hleft, h.settimeout n.ticks (Nat.le_refl _) (not_le.mp hleft)]
    cases n.settimeout (deadline - n.clock n.ticks) with
    | ok u =>
        refine Or.inl ⟨u, _, _, rfl, rfl, h.clock, ?_, h.events, ?_⟩
        · rw [h.ticks]
        · intro k hk
          exact h.settimeout k (by change n.ticks + 1 ≤ k at hk; omega)
    | error e => exact Or.inr ⟨e, rfl, fun _ => rfl⟩

theorem simulates_recv_retimed (size : Nat) :
    Simulates (Retimed deadline) (recv size) (recv size) (fun _ => True)
      fun _ => Retimed deadline := by
  refine simulates_of_runs fun n n' h => ?_
  cases hevents : n.events with
  | nil => exact Or.inr ⟨_, recv_nil size hevents, fun _ => recv_nil size (h.events.trans hevents)⟩
  | cons event events =>
      have hevents' := h.events.trans hevents
      cases event with
      | fail e => exact Or.inr ⟨e, recv_fail size hevents, fun _ => recv_fail size hevents'⟩
      | data b =>
          exact Or.inl ⟨b.take size, _, _, recv_data size hevents, recv_data size hevents',
            h.clock, h.ticks, rfl, h.settimeout⟩

theorem compatible_retimed :
    Compatible (fun _ => Retimed deadline) (fun _ => True) deadline deadline := by
  refine ⟨fun _ => simulates_arm_retimed, fun size => ?_, fun _ n n' peer sent h => ?_⟩
  · exact simulates_recvLoop simulates_arm_retimed simulates_recv_retimed size _ []
  · exact ⟨h.clock, h.ticks, h.events, h.settimeout⟩

variable {Cert Key : Type} (X : X509 Cert Key) (A : Aead)

/-- The same attempt over another socket, as far as timeouts go. -/
def Attempt.withSocket (a : Attempt) (set : ℚ → Except PyErr Unit) : Attempt :=
  { a with net := { a.net with settimeout := set } }

/-- What a socket does with timeouts that are not left at any reading is of no
    consequence. -/
theorem capture_retimed (endpoint : Endpoint) (domain : Str) (challenge : Bytes) (mask : Int)
    (timeout : ℚ) (a : Attempt) (set : ℚ → Except PyErr Unit)
    (hset : ∀ k, a.net.ticks < k → 0 < a.net.clock a.net.ticks + timeout - a.net.clock k →
      set (a.net.clock a.net.ticks + timeout - a.net.clock k) =
        a.net.settimeout (a.net.clock a.net.ticks + timeout - a.net.clock k)) :
    captureTls13Proof X A endpoint domain challenge mask timeout (a.withSocket set) =
      captureTls13Proof X A endpoint domain challenge mask timeout a := by
  have hcapture := compatible_retimed.capture X A endpoint domain challenge mask timeout a
    (a.withSocket set).net ⟨rfl, rfl, rfl, hset⟩
  cases hresult : captureTls13Proof X A endpoint domain challenge mask timeout a with
  | ok m => exact hcapture.1 m hresult
  | error e => exact hcapture.2 e hresult trivial

/-- Only what is left before the deadline at a reading is ever set, and only if
    it is positive: what the socket does with any other timeout is of no
    consequence. In exact arithmetic and on a clock that does not go back that
    is at most the attempt's own timeout. -/
theorem capture_timeouts (endpoint : Endpoint) (domain : Str) (challenge : Bytes) (mask : Int)
    (timeout : ℚ) (a : Attempt) (set : ℚ → Except PyErr Unit) :
    ((∀ k, a.net.ticks < k → 0 < a.net.clock a.net.ticks + timeout - a.net.clock k →
        set (a.net.clock a.net.ticks + timeout - a.net.clock k) =
          a.net.settimeout (a.net.clock a.net.ticks + timeout - a.net.clock k)) →
      captureTls13Proof X A endpoint domain challenge mask timeout (a.withSocket set) =
        captureTls13Proof X A endpoint domain challenge mask timeout a) ∧
    ((∀ j k, j ≤ k → a.net.clock j ≤ a.net.clock k) →
      (∀ t, 0 < t → t ≤ timeout → set t = a.net.settimeout t) →
      captureTls13Proof X A endpoint domain challenge mask timeout (a.withSocket set) =
        captureTls13Proof X A endpoint domain challenge mask timeout a) := by
  refine ⟨capture_retimed X A endpoint domain challenge mask timeout a set, fun hclock hset => ?_⟩
  refine capture_retimed X A endpoint domain challenge mask timeout a set fun k hk hpos => ?_
  -- The clock has not gone back behind the start.
  have hstarted := hclock a.net.ticks k (by omega)
  refine hset _ hpos ?_
  rw [sub_le_iff_le_add']
  exact add_le_add_left hstarted timeout

/-- The session over a socket that refuses timeouts of more than a minute, and
    those that are not positive. -/
theorem session_timeouts :
    captureTls13Proof sampleX509 sessionAead sessionEndpoint vectorDomain vectorChallenge 7 10
        ((attemptOn (piecesOf sessionRecords)).withSocket fun t =>
          failIf (¬ (0 < t ∧ t ≤ 60)) (valueError "Timeout value out of range")) =
      captureTls13Proof sampleX509 sessionAead sessionEndpoint vectorDomain vectorChallenge 7 10
        (attemptOn (piecesOf sessionRecords)) := by
  refine (capture_timeouts sampleX509 sessionAead sessionEndpoint vectorDomain vectorChallenge 7 10
    (attemptOn (piecesOf sessionRecords)) _).2 (fun _ _ _ => le_refl _) fun t hpos hle => ?_
  have hminute : (10 : ℚ) ≤ 60 := by decide
  exact (failIf_eq_ok_iff _ _ _).mpr (not_not_intro ⟨hpos, le_trans hle hminute⟩)

end Retimed

end Tls13

end P2CTools
