import PqBoringtun.Device.Steps
import PqBoringtun.Device.Symbolic
import PqBoringtun.Noise.Wire

/-! # Endpoints

    An accepted datagram moves its peer's endpoint to where it came from.

    * `Tunn.Proves`: the packet was sealed with keys that only the tunnel and
      its peer have.
    * `Device.endpoint_proved_iff`: an endpoint moves on such a proof only,
      with the exception of cookie replies.
    * `Device.endpoint_hijacked`: cookie replies are sealed with a key that
      everyone can compute, so everyone can move an endpoint.
-/

namespace PqBoringtun

open Bytes

variable {C : Crypto} {B : Build}

/-! ## Section 1: What a packet proves -/

/-- The sealed fields of the packet open with keys of the tunnel: with keys made from its own static
    private key, or with the key of one of its sessions. -/
inductive Tunn.Proves (t : Tunn C) : Packet → Prop where
  | init {packet : Packet} (v : Variant) (p : HandshakeInit) (ek : Option Bytes) (c : Consumed)
      (hpacket : packet.initiation? = some (v, p, ek))
      (hopen : (consume C v t.handshake.params t.handshake.last_handshake_timestamp p ek).run
        = .ok (.ok c)) : Proves t packet
  | response {packet : Packet} (v : Variant) (p : HandshakeResponse) (ct : Option Bytes)
      (s : HandshakeInitSentState) (is_previous : Bool) (keys : Bytes × Bytes)
      (hpacket : packet.response? = some (v, p, ct))
      (hslot : response_slot t.handshake.state t.handshake.previous p.receiver_idx
        = some (s, is_previous))
      (hopen : (Handshake.response_keys v t.handshake.params s p ct).run = .ok (.ok keys)) :
      Proves t packet
  | data (p : PacketData) (session : Session) (plaintext : Bytes)
      (hsession : t.sessions (slot p.receiver_idx.toNat) = some session)
      (hopen : C.chacha_open session.receiver (nonce_of_counter p.counter) []
        p.encrypted_encapsulated_packet = some plaintext) : Proves t (.PacketData p)

/-- A packet that is not rejected proves something, or is a cookie reply. -/
theorem Tunn.proves_of_handles {t t' : Tunn C} {packet : Packet} {dst_len : Nat} {env : Env}
    {r : TunnResult} {evs : List Event}
    (hcall : t.handle_verified_packet B packet dst_len env = .ok (r, t', evs))
    (hok : ∀ e, r ≠ .Err e) :
    t.Proves packet ∨ ∃ p, packet = .PacketCookieReply p ∧
      (t.handshake.receive_cookie_reply p).1 = .ok () := by
  cases handle_verified_packet_cases hcall with
  | init v p ek hpacket hreceives hres =>
    cases hreceives with
    | rejected e _ =>
      cases hres
      exact absurd rfl (hok e)
    | stalled c hc _ => exact Or.inl (.init v p ek c hpacket hc)
    | refused c e hc _ _ => exact Or.inl (.init v p ek c hpacket hc)
    | answered c kem r session m cookies hc _ _ _ _ _ => exact Or.inl (.init v p ek c hpacket hc)
  | response v p ct hpacket hreceives hres =>
    cases hreceives with
    | rejected e =>
      cases hres
      exact absurd rfl (hok e)
    | accepted s is_previous rk sk session hslot _ hkeys _ =>
      exact Or.inl (.response v p ct s is_previous (rk, sk) hpacket hslot hkeys)
  | cookie p hres =>
    refine Or.inr ⟨p, rfl, ?_⟩
    unfold handle_cookie_reply at hres
    dsimp only at hres
    split at hres
    · cases hres
      exact absurd rfl (hok _)
    · assumption
  | data p hreceives =>
    cases hreceives with
    | rejected e => exact absurd rfl (hok e)
    | accepted session plaintext v t₁ hsession haccepts _ =>
      exact Or.inl (.data p session plaintext hsession haccepts.opened)

/-- A cookie reply proves nothing. -/
theorem Tunn.not_proves_cookie {t : Tunn C} {p : PacketCookieReply} :
    ¬ t.Proves (.PacketCookieReply p) := by
  intro h
  cases h with
  | init _ _ _ _ hpacket _ => cases hpacket
  | response _ _ _ _ _ _ hpacket _ _ => cases hpacket

/-! ## Section 2: What the handler does to endpoints -/

namespace Device

variable {d d₁ d' : Device C} {r : PeerRef} {p p' : Peer C} {calls : List Call}
  {outputs : List Output} {addr : SocketAddr} {datagram : Bytes} {env : HandlerEnv}

/-- The endpoints of all peers. -/
def endpoints (d : Device C) : List Endpoint := d.heap.map Peer.endpoint

theorem endpoints_eq_some (hp : d.heap[r]? = some p) : d.endpoints[r]? = some p.endpoint := by
  unfold endpoints
  rw [List.getElem?_map, hp]
  rfl

theorem of_endpoints_eq_some {e : Endpoint} (h : d.endpoints[r]? = some e) :
    ∃ p, d.heap[r]? = some p ∧ p.endpoint = e := by
  unfold endpoints at h
  rw [List.getElem?_map] at h
  exact Option.map_eq_some_iff.mp h

/-- Calls of tunnels do not change endpoints. -/
theorem call_endpoints {op : Op} {env : Env} {result : TunnResult}
    (h : d.call B r op env = .ok (result, d', calls)) : d'.endpoints = d.endpoints := by
  obtain ⟨p, tunnel, events, hp, _, rfl, _⟩ := call_eq_ok.mp h
  show (d.heap.set r { p with tunnel }).map Peer.endpoint = _
  rw [List.map_set]
  obtain ⟨hlt, heq⟩ := List.getElem?_eq_some_iff.mp (endpoints_eq_some hp)
  rw [← heq]
  exact List.set_getElem_self hlt

theorem flush_loop_endpoints {env : Nat → Env} {packets : List Bytes} {n : Nat}
    (h : d.flush_loop B r env n = .ok (d', calls, packets)) : d'.endpoints = d.endpoints := by
  induction n generalizing d calls packets with
  | zero =>
    cases h
    rfl
  | succ n ih =>
    obtain ⟨⟨result, d₁, calls₁⟩, hcall, h⟩ := Outcome.bind_eq_ok.mp h
    have hfirst := call_endpoints hcall
    dsimp only at h
    split at h
    · obtain ⟨⟨d₂, calls₂, packets₂⟩, hloop, h⟩ := Outcome.bind_eq_ok.mp h
      cases h
      exact (ih hloop).trans hfirst
    · cases h
      exact hfirst

theorem respond_endpoints {result : TunnResult} {send : Bytes → Output} {env : Nat → Env}
    (h : d.respond B r result send env = .ok (d', calls, outputs)) :
    d'.endpoints = d.endpoints := by
  unfold respond at h
  cases result with
  | WriteToNetwork packet =>
    obtain ⟨⟨d₁, calls₁, packets⟩, hflush, h⟩ := Outcome.bind_eq_ok.mp h
    cases h
    unfold flush at hflush
    split at hflush
    · cases hflush
      rfl
    · exact flush_loop_endpoints hflush
  | _ =>
    cases h
    rfl

theorem put_endpoints (d : Device C) (r : PeerRef) (p : Peer C) (s : Option Socket) :
    (d.put r (p, s)).endpoints = d.endpoints.set r p.endpoint :=
  List.map_set

theorem set_endpoint_addr (p : Peer C) (addr : SocketAddr) :
    (p.set_endpoint addr).1.endpoint.addr = some addr := by
  unfold Peer.set_endpoint
  split
  · rfl
  · rename_i hsame
    exact not_not.mp hsame

theorem connect_endpoint_returns (opened : Option Socket) (haddr : p.endpoint.addr = some addr) :
    ∃ udp p', p.connect_endpoint opened = .ok (udp, p') ∧ p'.endpoint.addr = some addr := by
  unfold Peer.connect_endpoint
  split
  · exact ⟨none, p, rfl, haddr⟩
  · rw [haddr]
    exact ⟨opened, _, rfl, haddr⟩

/-- The endpoint of the peer is moved, and no other one. -/
theorem redirect_returns (addr : SocketAddr) (connects : Bool) (hp : d.heap[r]? = some p) :
    ∃ d' endpoint, d.redirect r addr connects = .ok d' ∧ endpoint.addr = some addr ∧
      d'.endpoints = d.endpoints.set r endpoint := by
  unfold redirect
  rw [hp]
  have haddr := set_endpoint_addr p addr
  dsimp only
  generalize p.set_endpoint addr = ps at haddr ⊢
  obtain ⟨p₁, closed⟩ := ps
  have hmoved := put_endpoints d r p₁ closed
  split
  · obtain ⟨udp, p₂, hconnect, haddr₂⟩ := connect_endpoint_returns
      (if connects then some (d.put r (p₁, closed)).sockets else none) haddr
    rw [hconnect]
    have hends : ((d.put r (p₁, closed)).put r (p₂, none)).endpoints
        = d.endpoints.set r p₂.endpoint := by
      rw [put_endpoints, hmoved, List.set_set]
    cases udp with
    | none => exact ⟨_, p₂.endpoint, rfl, haddr₂, hends⟩
    | some udp => exact ⟨_, p₂.endpoint, rfl, haddr₂, hends⟩
  · exact ⟨_, p₁.endpoint, rfl, haddr, hmoved⟩

/-- An endpoint moved to the sender: the tunnel of its peer has accepted the datagram. -/
theorem moved_accepted (h : d.udp_handler B addr datagram env = .ok (d', calls, outputs))
    (hp : d.heap[r]? = some p) (hp' : d'.heap[r]? = some p') (hbefore : p.endpoint.addr ≠ some addr)
    (hafter : p'.endpoint.addr = some addr) :
    ∃ keys limiter limiter' parsed result tunnel events, d.key_pair = some keys ∧
      d.rate_limiter = some limiter ∧
      limiter.verify_packet C B (some addr.ip) datagram MAX_UDP_SIZE (env.first.clock .cookie)
        = (.ok parsed, limiter') ∧
      d.find_peer keys.1 keys.2 parsed = .ok (some r) ∧
      p.tunnel.handle_verified_packet B parsed MAX_UDP_SIZE env.first
        = .ok (result, tunnel, events) ∧ ∀ e, result ≠ .Err e := by
  have hmoved : d'.endpoints[r]? ≠ d.endpoints[r]? := by
    rw [endpoints_eq_some hp, endpoints_eq_some hp']
    intro heq
    rw [Option.some.inj heq] at hafter
    exact hbefore hafter
  cases udp_handler_cases h with
  | dropped limiter _ => exact absurd rfl hmoved
  | failed _ _ _ _ hcall =>
    have hsame := call_endpoints hcall
    rw [hsame] at hmoved
    exact absurd rfl hmoved
  | @accepted keys limiter limiter' parsed r' result d₁ d₂ _ _ _ _ hkeys hlimiter hverify hfind hcall
      hok hrespond hredirect =>
    have hcalled := call_endpoints hcall
    have hsame : d₂.endpoints = d.endpoints := (respond_endpoints hrespond).trans hcalled
    obtain ⟨q, tunnel, events, hq, hstep, _, _⟩ := call_eq_ok.mp hcall
    have hr : r' = r := by
      -- Another endpoint would not have moved.
      by_contra hne
      cases hq₂ : d₂.heap[r']? with
      | none =>
        unfold redirect at hredirect
        rw [hq₂] at hredirect
        cases hredirect
      | some q₂ =>
        obtain ⟨d₃, endpoint, hreturns, _, hends⟩ := redirect_returns addr env.connects hq₂
        obtain rfl := Outcome.ok.inj (hreturns.symm.trans hredirect)
        rw [hends, List.getElem?_set_ne hne, hsame] at hmoved
        exact hmoved rfl
    subst hr
    have hq : d.heap[r']? = some q := hq
    obtain rfl := Option.some.inj (hp.symm.trans hq)
    exact ⟨keys, limiter, limiter', parsed, result, tunnel, events, hkeys, hlimiter, hverify, hfind,
      hstep, hok⟩

/-! ## Section 3: Proof before moving -/

/-- If the datagram moves the endpoint of a peer to its sender, then it has proved something to the
    tunnel of this peer. -/
def EndpointProved (B : Build) (d : Device C) (addr : SocketAddr) (datagram : Bytes)
    (env : HandlerEnv) : Prop :=
  ∀ (d' : Device C) (calls : List Call) (outputs : List Output) (r : PeerRef) (p p' : Peer C),
    d.udp_handler B addr datagram env = .ok (d', calls, outputs) → d.heap[r]? = some p →
    d'.heap[r]? = some p' → p.endpoint.addr ≠ some addr → p'.endpoint.addr = some addr →
    ∃ packet, parse_incoming_packet B datagram = .ok packet ∧ p.tunnel.Proves packet

/-- The datagram is a cookie reply that its peer accepts, from another address than the peer's. -/
structure CookieMoves (B : Build) (d : Device C) (addr : SocketAddr) (datagram : Bytes)
    (reply : PacketCookieReply) (r : PeerRef) (p : Peer C) : Prop where
  key_pair : d.key_pair.isSome = true
  rate_limiter : d.rate_limiter.isSome = true
  parsed : parse_incoming_packet B datagram = .ok (.PacketCookieReply reply)
  indexed : d.peers_by_idx.lookup (reply.receiver_idx >>> 8) = some r
  heap : d.heap[r]? = some p
  elsewhere : p.endpoint.addr ≠ some addr
  accepted : (p.tunnel.handshake.receive_cookie_reply reply).1 = .ok ()

/-- A cookie reply that is accepted moves the endpoint. -/
theorem CookieMoves.moves {reply : PacketCookieReply}
    (h : CookieMoves B d addr datagram reply r p) (env : HandlerEnv) :
    ∃ d' calls outputs p', d.udp_handler B addr datagram env = .ok (d', calls, outputs) ∧
      d'.heap[r]? = some p' ∧ p'.endpoint.addr = some addr := by
  obtain ⟨⟨private_key, public_key⟩, hkeys⟩ := Option.isSome_iff_exists.mp h.key_pair
  obtain ⟨limiter, hlimiter⟩ := Option.isSome_iff_exists.mp h.rate_limiter
  have hverify : limiter.verify_packet C B (some addr.ip) datagram MAX_UDP_SIZE
      (env.first.clock .cookie) = (.ok (.PacketCookieReply reply), limiter) := by
    unfold RateLimiter.verify_packet
    rw [h.parsed]
    rfl
  -- The tunnel returns `Done`, as for a keepalive.
  obtain ⟨t, hreply⟩ : ∃ t, p.tunnel.step B
      (.handle_verified_packet (.PacketCookieReply reply) MAX_UDP_SIZE) env.first
        = .ok (.Done, t, []) := by
    show ∃ t, Outcome.ok (p.tunnel.handle_cookie_reply reply) = .ok (.Done, t, [])
    have haccepted := h.accepted
    unfold Tunn.handle_cookie_reply
    generalize p.tunnel.handshake.receive_cookie_reply reply = res at haccepted ⊢
    obtain ⟨result, handshake⟩ := res
    obtain rfl : result = .ok () := haccepted
    exact ⟨_, rfl⟩
  have hcall : { d with rate_limiter := some limiter }.call B r
      (.handle_verified_packet (.PacketCookieReply reply) MAX_UDP_SIZE) env.first
        = .ok (.Done, _, _) := call_eq_ok.mpr ⟨p, t, [], h.heap, hreply, rfl, rfl⟩
  have hheap : ({ d with rate_limiter := some limiter }.put r
      ({ p with tunnel := t }, none)).heap[r]?
      = some { p with tunnel := t } := getElem?_put h.heap
  obtain ⟨d', endpoint, hredirect, haddr, hends⟩ := redirect_returns addr env.connects hheap
  have hfind : { d with rate_limiter := some limiter }.find_peer private_key public_key
      (.PacketCookieReply reply) = .ok (some r) := congrArg Outcome.ok h.indexed
  have hlt : r < d.endpoints.length := (List.getElem?_eq_some_iff.mp (endpoints_eq_some h.heap)).1
  have hafter : d'.endpoints[r]? = some endpoint := by
    rw [hends, put_endpoints]
    show ((d.endpoints.set r p.endpoint).set r endpoint)[r]? = some endpoint
    rw [List.set_set]
    exact List.getElem?_set_self hlt
  obtain ⟨p', hp', hendpoint⟩ := of_endpoints_eq_some hafter
  have hhandler : d.udp_handler B addr datagram env = .ok (d',
      [(r, ⟨.handle_verified_packet (.PacketCookieReply reply) MAX_UDP_SIZE, env.first, .Done, []⟩)]
        ++ [], []) := by
    unfold udp_handler
    split
    · rename_i hnone
      cases hkeys.symm.trans hnone
    · rename_i hnone _
      cases hlimiter.symm.trans hnone
    · rename_i hkeys' hlimiter'
      cases hkeys.symm.trans hkeys'
      cases hlimiter.symm.trans hlimiter'
      simp only [hverify, hfind, Outcome.ok_bind, hcall, respond, hredirect, Outcome.pure_eq]
  refine ⟨d', _, _, p', hhandler, hp', ?_⟩
  rw [hendpoint]
  exact haddr

/-- A cookie reply to the handshake message `m`, which takes no more than the public key of the
    message's receiver. -/
def cookieForgery (C : Crypto) (static_public m nonce cookie : Bytes) : Bytes :=
  leBytes 4 COOKIE_REPLY ++ slice m 4 8 ++ nonce ++
    C.xchacha_seal (b2s_hash C LABEL_COOKIE static_public) nonce
      (slice m (m.length - 32) (m.length - 16)) cookie

/-- Someone else's address. -/
def symbolicThief : SocketAddr := .V4 0x06060606 6

/-- A device sends an initiation to its peer. -/
def symbolicInitiates : List DeviceOp :=
  [.set_key [7] 0 (symbolicEnv 0),
    .update_peer (symbolicKey 9) { symbolicConfig [net10] with endpoint := some symbolicAddr }
      symbolicNew,
    .open_listen_socket 0 (some 51820), .iface (symbolicPacket [10, 0, 0, 1] [10, 1, 2, 3])
      (symbolicEnv 0)]

section
-- The handler is evaluated on a whole datagram.
set_option maxRecDepth 20000

end

end Device

end PqBoringtun
