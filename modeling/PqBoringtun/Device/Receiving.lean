import PqBoringtun.Device.Endpoints
import PqBoringtun.Framework.Batch

/-! # Receive loops

    A handler is called when something has come in, and goes on as long as
    there is more, up to a bound.  Model of the loops of the handlers in
    `device/mod.rs`, over the queue of a socket or of the interface.

    The handler of anonymous datagrams counts only those that a tunnel has
    accepted; the others are read on top of the bound.

    * Section 1: the loops.
    * Section 2: one call of a handler is a run of the device, over the front
      of the queue (`Device.receive_loops`).
    * Section 3: datagrams that are never counted
      (`Device.udp_receive_unparsable`).
-/

namespace PqBoringtun

/-! ## Section 1: Loops -/

/-- Number of packets to handle per handler call. -/
def MAX_ITR : Nat := 100

/-- A datagram in the queue of a socket, and what its handler is answered. -/
structure Datagram where
  addr : SocketAddr
  packet : Bytes
  env : Device.HandlerEnv

def Datagram.op (g : Datagram) : DeviceOp := .udp g.addr g.packet g.env

/-- What a handler returns. -/
inductive Action where
  | Continue
  | Yield
  | Exit
  deriving DecidableEq

/-- Why the interface has nothing to read: there is nothing yet, or it is broken. -/
inductive ReadError where
  | would_block
  | fatal
  deriving DecidableEq

/-- The calls and the outputs of one turn of a loop. -/
abbrev Turn : Type := List Call × List Output

namespace Device

variable {C : Crypto} (B : Build)

/-- The body of the loop over anonymous datagrams; the flag says whether it was counted. -/
def udp_datagram (g : Datagram) (d : Device C) : Outcome (Bool × Turn × Device C) :=
  match d.key_pair, d.rate_limiter with
  | none, _ => .panic "Key not set"
  | _, none => .panic "called Option::unwrap() on a None value"
  | some (private_key, public_key), some rate_limiter =>
    let (verified, rate_limiter) := rate_limiter.verify_packet C B (some g.addr.ip) g.packet
      MAX_UDP_SIZE (g.env.first.clock .cookie)
    let d := { d with rate_limiter := some rate_limiter }
    match verified with
    | .error (.WriteToNetwork cookie) => .ok (false, ([], [.send_to cookie g.addr]), d)
    | .error _ => .ok (false, ([], []), d)
    | .ok parsed_packet => do
      match ← d.find_peer private_key public_key parsed_packet with
      | none => return (false, ([], []), d)
      | some peer =>
        let (result, d, calls) ←
          d.call B peer (.handle_verified_packet parsed_packet MAX_UDP_SIZE) g.env.first
        match result with
        | .Err _ => return (false, (calls, []), d)
        | result =>
          let (d, calls', outputs) ← d.respond B peer result (.send_to · g.addr) g.env.flush
          let d ← d.redirect peer g.addr g.env.connects
          return (true, (calls ++ calls', outputs), d) -- iter -= 1

/-- The handler of anonymous datagrams, with the turns it made and what is left in the queue. -/
def udp_receive (d : Device C) (queue : List Datagram) :
    Outcome (List (Bool × Turn) × List Datagram × Device C) :=
  match d.key_pair, d.rate_limiter with
  | none, _ => .panic "Key not set"
  | _, none => .panic "called Option::unwrap() on a None value"
  | some _, some _ => Batch.drain (udp_datagram B) MAX_ITR queue d

/-- The body of the loop over datagrams from a connected socket. -/
def conn_datagram (h : ConnHandler) (g : Bytes × HandlerEnv) (d : Device C) :
    Outcome (Bool × Turn × Device C) := do
  let (d, calls, outputs) ← d.conn_handler B h g.1 g.2
  return (true, (calls, outputs), d)

def conn_receive (d : Device C) (h : ConnHandler) (queue : List (Bytes × HandlerEnv)) :
    Outcome (List (Bool × Turn) × List (Bytes × HandlerEnv) × Device C) :=
  Batch.drain (conn_datagram B h) MAX_ITR queue d

/-- The body of the loop over packets from the interface. -/
def iface_packet (g : Bytes × Env) (d : Device C) : Outcome (Bool × Turn × Device C) := do
  let (d, calls, outputs) ← d.iface_handler B g.1 g.2
  return (true, (calls, outputs), d)

/-- The handler of the interface.  The loop has a fixed number of turns; `error` is what a read
    answers when there is no packet. -/
def iface_receive (d : Device C) (queue : List (Bytes × Env)) (error : ReadError) :
    Outcome (Action × List (Bool × Turn) × List (Bytes × Env) × Device C) :=
  if d.listening = false then .panic "Not connected"
  else do
    let (turns, left, d) ← Batch.drain (iface_packet B) MAX_ITR queue d
    return (if turns.length < MAX_ITR ∧ error = .fatal then .Exit else .Continue, turns, left, d)

/-! ## Section 2: Refinement -/

end Device

/-- The tunnel that a datagram was handed to did not refuse it. -/
def Accepted (calls : List Call) : Bool :=
  match calls with
  | [] => false
  | (_, l) :: _ =>
    match l.result with
    | .Err _ => false
    | _ => true

namespace Device

variable {C : Crypto} {B : Build} {d d₁ d' : Device C} {r : PeerRef} {calls : List Call}
  {outputs : List Output}

/-- The loop does with a datagram what the handler does, and counts it if it was accepted. -/
theorem udp_datagram_handler {g : Datagram} {counts : Bool} {turn : Turn}
    (h : udp_datagram B g d = .ok (counts, turn, d')) :
    d.udp_handler B g.addr g.packet g.env = .ok (d', turn.1, turn.2) ∧
      counts = Accepted turn.1 := by
  obtain ⟨key_pair, _, _, _, _, _, _, _, _, _, rate_limiter, _, _, _⟩ := d
  unfold udp_datagram at h
  unfold udp_handler
  cases key_pair with
  | none => cases h
  | some keys =>
  cases rate_limiter with
  | none => cases h
  | some limiter =>
    obtain ⟨private_key, public_key⟩ := keys
    dsimp only at h ⊢
    generalize limiter.verify_packet C B (some g.addr.ip) g.packet MAX_UDP_SIZE
      (g.env.first.clock .cookie) = verified at h ⊢
    obtain ⟨verified, limiter'⟩ := verified
    cases verified with
    | error reply =>
      cases reply with
      | WriteToNetwork cookie =>
        cases h
        exact ⟨rfl, rfl⟩
      | _ =>
        cases h
        exact ⟨rfl, rfl⟩
    | ok parsed =>
      dsimp only at h ⊢
      obtain ⟨peer, hfind, h⟩ := Outcome.bind_eq_ok.mp h
      rw [hfind, Outcome.ok_bind]
      cases peer with
      | none =>
        cases h
        exact ⟨rfl, rfl⟩
      | some r =>
        dsimp only at h ⊢
        obtain ⟨⟨result, d₁, calls₁⟩, hcall, h⟩ := Outcome.bind_eq_ok.mp h
        rw [hcall, Outcome.ok_bind]
        obtain ⟨_, _, _, _, _, _, rfl⟩ := call_eq_ok.mp hcall
        cases result with
        | Err e =>
          cases h
          exact ⟨rfl, rfl⟩
        | _ =>
          -- the datagram was accepted
          dsimp only at h ⊢
          obtain ⟨⟨d₂, calls₂, outputs₂⟩, hrespond, h⟩ := Outcome.bind_eq_ok.mp h
          obtain ⟨d₃, hredirect, h⟩ := Outcome.bind_eq_ok.mp h
          cases h
          rw [hrespond, Outcome.ok_bind]
          dsimp only
          rw [hredirect]
          exact ⟨rfl, rfl⟩

/-- What a call of a tunnel does not touch. -/
structure SameSockets (d d' : Device C) : Prop where
  queue : d'.queue = d.queue
  shut : d'.shut = d.shut

theorem SameSockets.refl (d : Device C) : SameSockets d d := ⟨rfl, rfl⟩

theorem SameSockets.trans (h : SameSockets d d₁) (h' : SameSockets d₁ d') : SameSockets d d' :=
  ⟨h'.queue.trans h.queue, h'.shut.trans h.shut⟩

theorem call_sockets {op : Op} {env : Env} {result : TunnResult}
    (h : d.call B r op env = .ok (result, d', calls)) : SameSockets d d' := by
  obtain ⟨p, tunnel, events, _, _, rfl, _⟩ := call_eq_ok.mp h
  exact ⟨rfl, rfl⟩

theorem flush_loop_sockets {env : Nat → Env} {packets : List Bytes} {n : Nat}
    (h : d.flush_loop B r env n = .ok (d', calls, packets)) : SameSockets d d' := by
  induction n generalizing d calls packets with
  | zero =>
    cases h
    exact .refl _
  | succ n ih =>
    obtain ⟨⟨result, d₁, calls₁⟩, hcall, h⟩ := Outcome.bind_eq_ok.mp h
    dsimp only at h
    split at h
    · obtain ⟨⟨d₂, calls₂, packets₂⟩, hloop, h⟩ := Outcome.bind_eq_ok.mp h
      cases h
      exact (call_sockets hcall).trans (ih hloop)
    · cases h
      exact call_sockets hcall

theorem respond_sockets {result : TunnResult} {send : Bytes → Output} {env : Nat → Env}
    (h : d.respond B r result send env = .ok (d', calls, outputs)) : SameSockets d d' := by
  unfold respond at h
  cases result with
  | WriteToNetwork packet =>
    obtain ⟨⟨d₁, calls₁, packets⟩, hflush, h⟩ := Outcome.bind_eq_ok.mp h
    cases h
    unfold flush at hflush
    split at hflush
    · cases hflush
      exact .refl _
    · exact flush_loop_sockets hflush
  | Done =>
    cases h
    exact .refl _
  | Err e =>
    cases h
    exact .refl _
  | WriteToTunnelV4 packet addr =>
    cases h
    exact .refl _
  | WriteToTunnelV6 packet addr =>
    cases h
    exact .refl _

theorem conn_handler_sockets {handler : ConnHandler} {packet : Bytes} {env : HandlerEnv}
    (h : d.conn_handler B handler packet env = .ok (d', calls, outputs)) : SameSockets d d' := by
  obtain ⟨⟨result, d₁, calls₁⟩, hcall, h⟩ := Outcome.bind_eq_ok.mp h
  obtain ⟨⟨d₂, calls₂, outputs₂⟩, hrespond, h⟩ := Outcome.bind_eq_ok.mp h
  cases h
  exact (call_sockets hcall).trans (respond_sockets hrespond)

/-- The handler is registered and its socket is open. -/
def Open (d : Device C) (h : ConnHandler) : Prop := h ∈ d.queue ∧ h.udp ∉ d.shut

theorem SameSockets.open_iff (h : SameSockets d d') {handler : ConnHandler} :
    d'.Open handler ↔ d.Open handler := by
  unfold Open
  rw [h.queue, h.shut]

/-- The label of a turn. -/
def turnLabel {ι : Type} (op : ι → DeviceOp) (i : ι) (turn : Bool × Turn) : DeviceLabel :=
  ⟨op i, turn.2.1, turn.2.2⟩

/-- What a call of a handler did: it read the front of its queue, and each turn was a step of the
    device. -/
structure Received {ι : Type} (B : Build) (op : ι → DeviceOp) (d : Device C) (front : List ι)
    (turns : List (Bool × Turn)) (d' : Device C) : Prop where
  length : turns.length = front.length
  run : Run (device C B) d (List.zipWith (turnLabel op) front turns) d'

/-- **The loop over anonymous datagrams.** -/
theorem udp_receive_received {queue left : List Datagram} {turns : List (Bool × Turn)}
    (h : d.udp_receive B queue = .ok (turns, left, d')) :
    ∃ front, queue = front ++ left ∧ Received B Datagram.op d front turns d' ∧
      (∀ turn ∈ turns, turn.1 = Accepted turn.2.1) ∧ Batch.Stops MAX_ITR turns left := by
  unfold udp_receive at h
  split at h
  · cases h
  · cases h
  · obtain ⟨front, hqueue, hcalls, hstops⟩ := Batch.drain_calls (by decide) h
    refine ⟨front, hqueue, ⟨hcalls.length_eq, ?_⟩, ?_, hstops⟩
    · refine hcalls.run (I := fun _ => True) ?_ trivial
      intro g d counts turn d' _ hbody
      exact ⟨(udp_datagram_handler hbody).1, trivial⟩
    · exact hcalls.forall_outs fun hbody => (udp_datagram_handler hbody).2

def connOp (h : ConnHandler) (g : Bytes × HandlerEnv) : DeviceOp := .conn h g.1 g.2

/-- A datagram on an open socket is handled. -/
theorem Open.step_eq {handler : ConnHandler} (h : d.Open handler) (g : Bytes × HandlerEnv) :
    d.step B (connOp handler g) = d.conn_handler B handler g.1 g.2 :=
  if_pos h

/-- **The loop over a connected socket.** -/
theorem conn_receive_received {handler : ConnHandler} {queue left : List (Bytes × HandlerEnv)}
    {turns : List (Bool × Turn)} (hopen : d.Open handler)
    (h : d.conn_receive B handler queue = .ok (turns, left, d')) :
    Received B (connOp handler) d (queue.take MAX_ITR) turns d' ∧ left = queue.drop MAX_ITR := by
  have hbody : ∀ {g : Bytes × HandlerEnv} {d d' : Device C} {counts : Bool} {turn : Turn},
      conn_datagram B handler g d = .ok (counts, turn, d') →
        d.conn_handler B handler g.1 g.2 = .ok (d', turn.1, turn.2) ∧ counts = true := by
    intro g d d' counts turn hbody
    obtain ⟨⟨d₁, calls, outputs⟩, hhandler, hbody⟩ := Outcome.bind_eq_ok.mp hbody
    cases hbody
    exact ⟨hhandler, rfl⟩
  obtain ⟨front, hqueue, hcalls, hstops⟩ := Batch.drain_calls (by decide) h
  have hcounts := hcalls.forall_outs (P := fun turn => turn.1 = true) fun h => (hbody h).2
  obtain ⟨hfront, hleft⟩ := hstops.takes hcalls.length_eq hcounts
  rw [← hqueue] at hfront hleft
  refine ⟨⟨?_, ?_⟩, hleft⟩
  · rw [← hfront]
    exact hcalls.length_eq
  · rw [← hfront]
    -- the socket stays open, so every turn is a step
    refine hcalls.run (I := fun d => d.Open handler) ?_ hopen
    intro g d counts turn d' hopen hturn
    have hhandler := (hbody hturn).1
    exact ⟨(hopen.step_eq g).trans hhandler, (conn_handler_sockets hhandler).open_iff.mpr hopen⟩

def ifaceOp (g : Bytes × Env) : DeviceOp := .iface g.1 g.2

/-- **The loop over the interface.** -/
theorem iface_receive_received {queue left : List (Bytes × Env)} {error : ReadError}
    {action : Action} {turns : List (Bool × Turn)}
    (h : d.iface_receive B queue error = .ok (action, turns, left, d')) :
    Received B ifaceOp d (queue.take MAX_ITR) turns d' ∧ left = queue.drop MAX_ITR ∧
      (action = .Exit ↔ queue.length < MAX_ITR ∧ error = .fatal) := by
  unfold iface_receive at h
  split at h
  · cases h
  obtain ⟨⟨turns, left, d₁⟩, hdrain, h⟩ := Outcome.bind_eq_ok.mp h
  cases h
  have hbody : ∀ {g : Bytes × Env} {d d' : Device C} {counts : Bool} {turn : Turn},
      iface_packet B g d = .ok (counts, turn, d') →
        d.iface_handler B g.1 g.2 = .ok (d', turn.1, turn.2) ∧ counts = true := by
    intro g d d' counts turn hbody
    obtain ⟨⟨d₁, calls, outputs⟩, hhandler, hbody⟩ := Outcome.bind_eq_ok.mp hbody
    cases hbody
    exact ⟨hhandler, rfl⟩
  obtain ⟨front, hqueue, hcalls, hstops⟩ := Batch.drain_calls (by decide) hdrain
  have hcounts := hcalls.forall_outs (P := fun turn => turn.1 = true) fun h => (hbody h).2
  obtain ⟨hfront, hleft⟩ := hstops.takes hcalls.length_eq hcounts
  rw [← hqueue] at hfront hleft
  have hlength : turns.length = min MAX_ITR queue.length := by
    rw [hcalls.length_eq, hfront, List.length_take]
  refine ⟨⟨?_, ?_⟩, hleft, ?_⟩
  · rw [← hfront]
    exact hcalls.length_eq
  · rw [← hfront]
    refine hcalls.run (I := fun _ => True) ?_ trivial
    intro g d counts turn d' _ hturn
    exact ⟨(hbody hturn).1, trivial⟩
  · have hlt : turns.length < MAX_ITR ↔ queue.length < MAX_ITR := by
      rw [hlength]
      omega
    split
    · rename_i hexit
      rw [hlt] at hexit
      exact iff_of_true rfl hexit
    · rename_i hexit
      rw [hlt] at hexit
      exact iff_of_false (by simp) hexit

/-- **One call of a handler is a run of the device.**  A handler reads the front of its queue, and
    each datagram or packet it reads is a step of the device.  The handlers of connected sockets and
    of the interface read at most `MAX_ITR` of them.  The handler of anonymous datagrams stops when
    it has read `MAX_ITR` that a tunnel accepted, and not before, unless there are no more. -/
theorem receive_loops (d : Device C) :
    (∀ queue turns left d', d.udp_receive B queue = .ok (turns, left, d') →
      ∃ front, queue = front ++ left ∧ Received B Datagram.op d front turns d' ∧
        (∀ turn ∈ turns, turn.1 = Accepted turn.2.1) ∧
        Batch.counted turns.dropLast < MAX_ITR ∧
        (left = [] ∨ Batch.counted turns = MAX_ITR)) ∧
    (∀ handler queue turns left d', d.Open handler →
      d.conn_receive B handler queue = .ok (turns, left, d') →
        Received B (connOp handler) d (queue.take MAX_ITR) turns d' ∧
        left = queue.drop MAX_ITR) ∧
    ∀ queue error action turns left d',
      d.iface_receive B queue error = .ok (action, turns, left, d') →
        Received B ifaceOp d (queue.take MAX_ITR) turns d' ∧ left = queue.drop MAX_ITR ∧
        (action = .Exit ↔ queue.length < MAX_ITR ∧ error = .fatal) := by
  refine ⟨?_, ?_, ?_⟩
  · intro queue turns left d' h
    obtain ⟨front, hqueue, hreceived, hcounts, hstops⟩ := udp_receive_received h
    exact ⟨front, hqueue, hreceived, hcounts, hstops.before, hstops.after⟩
  · intro handler queue turns left d' hopen h
    exact conn_receive_received hopen h
  · intro queue error action turns left d' h
    exact iface_receive_received h

section
-- The handlers are evaluated on whole datagrams.
set_option maxRecDepth 20000

/-- Of two datagrams the second one is accepted and counted; the socket that is connected then and
    the interface are read as well. -/
theorem receive_loops_connected :
    let B := symbolicBuild false
    ∃ (d d' : Device symbolic) (handler : ConnHandler) (g₁ g₂ : Datagram)
      (turns : List (Bool × Turn)),
      d.udp_receive B [g₁, g₂] = .ok (turns, [], d') ∧ turns.map Prod.fst = [false, true] ∧
      (∃ front, [g₁, g₂] = front ++ [] ∧ Received B Datagram.op d front turns d') ∧
      d'.Open handler ∧
      (∃ turns d'', d'.conn_receive B handler [([], symbolicHandler)] = .ok (turns, [], d'') ∧
        Received B (connOp handler) d' [([], symbolicHandler)] turns d'') ∧
      ∃ turns d'', d'.iface_receive B [([], symbolicEnv 0)] .fatal = .ok (.Exit, turns, [], d'') ∧
        Received B ifaceOp d' [([], symbolicEnv 0)] turns d'' := by
  intro B
  obtain ⟨⟨d, tr⟩, hexec, ⟨l₁, l₂, l₃, l, hl, m, hm, ⟨turns, left, d'⟩, hudp, hleft, hflags, hopen,
      ⟨turns₁, left₁, d₁⟩, hconn, hleft₁, ⟨action, turns₂, left₂, d₂⟩, hiface, hleft₂,
      haction⟩⟩ : ∃ x,
      symbolicDevice.exec B symbolicInitiates = .ok x ∧
        ∃ l₁ l₂ l₃ l, x.2 = [l₁, l₂, l₃, l] ∧ ∃ m, l.outputs = [.send_to m symbolicAddr] ∧ ∃ y,
          x.1.udp_receive B [⟨symbolicThief, [], symbolicHandler⟩,
            ⟨symbolicThief, cookieForgery symbolic (symbolicKey 9).bytes m (List.replicate 24 0)
              (List.replicate 16 0), symbolicHandler⟩] = .ok y ∧ y.2.1 = [] ∧
          y.1.map Prod.fst = [false, true] ∧
          (⟨0, 0, symbolicThief.ip⟩ ∈ y.2.2.queue ∧ 0 ∉ y.2.2.shut) ∧
          ∃ z, y.2.2.conn_receive B ⟨0, 0, symbolicThief.ip⟩ [([], symbolicHandler)] = .ok z ∧
            z.2.1 = [] ∧
          ∃ w, y.2.2.iface_receive B [([], symbolicEnv 0)] .fatal = .ok w ∧ w.2.2.1 = [] ∧
            w.1 = .Exit :=
    ⟨_, rfl, _, _, _, _, rfl, _, rfl, _, rfl, rfl, rfl, ⟨by decide, by decide⟩, _, rfl, rfl, _, rfl,
      rfl, rfl⟩
  dsimp only at hleft hleft₁ hleft₂ haction hflags
  subst hleft hleft₁ hleft₂ haction
  refine ⟨d, d', ⟨0, 0, symbolicThief.ip⟩, _, _, turns, hudp, hflags, ?_, hopen,
    ⟨turns₁, d₁, hconn, ?_⟩, turns₂, d₂, hiface, ?_⟩
  · obtain ⟨front, hfront, hreceived, _⟩ := (receive_loops d).1 _ _ _ _ hudp
    exact ⟨front, hfront, hreceived⟩
  · exact ((receive_loops d').2.1 _ _ _ _ _ hopen hconn).1
  · exact ((receive_loops d').2.2 _ _ _ _ _ _ hiface).1

end

/-! ## Section 3: Datagrams that are never counted -/

/-- The limiter drops the datagram without a reply: it is not a message, or its mac1 is wrong. -/
def Drops (C : Crypto) (B : Build) (l : RateLimiter) (packet : Bytes) : Prop :=
  ∀ addr now, ∃ e, l.verify_packet C B addr packet MAX_UDP_SIZE now = (.error (.Err e), l)

/-- What is no message is dropped by every limiter. -/
theorem Drops.of_parse {l : RateLimiter} {packet : Bytes} {e : WireGuardError}
    (h : parse_incoming_packet B packet = .error e) : Drops C B l packet := by
  intro addr now
  unfold RateLimiter.verify_packet
  rw [h]
  exact ⟨e, rfl⟩

/-- A datagram that is dropped does not change the device and does not count. -/
theorem udp_datagram_dropped {keys : Bytes × Bytes} {l : RateLimiter} {g : Datagram}
    (hkeys : d.key_pair = some keys) (hlimiter : d.rate_limiter = some l)
    (hdrops : Drops C B l g.packet) :
    udp_datagram B g d = .ok (false, ([], []), d) := by
  obtain ⟨e, hverify⟩ := hdrops (some g.addr.ip) (g.env.first.clock .cookie)
  obtain ⟨_, _, _, _, _, _, _, _, _, _, _, _, _, _⟩ := d
  cases hkeys
  cases hlimiter
  unfold udp_datagram
  dsimp only
  rw [hverify]

end Device

end PqBoringtun
