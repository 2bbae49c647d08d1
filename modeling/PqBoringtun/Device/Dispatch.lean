import PqBoringtun.Device.Tables
import PqBoringtun.Noise.Flushing
import PqBoringtun.Noise.Separation

/-! # Dispatch of initiations

    A device that gets an initiation on its listening socket opens the static
    field with its own key pair to find the peer, before the peer's tunnel
    opens the field again.

    * Section 1: the two parsers agree (`Handshake.AnonAgrees`).
    * Section 2: the calls of the handler are calls of one peer, and its
      loop ends by itself.
    * Section 3: an initiation that a tunnel of the device would accept is
      given to this tunnel and to no other
      (`Device.anonymous_parsing_agrees`).
-/

namespace PqBoringtun

variable {C : Crypto} {B : Build}

/-! ## Section 1: Anonymous parsing and the handshake -/

section anonymous
variable {v : Variant} {priv pub : Bytes} {packet : HandshakeInit}

/-- Anonymous parsing keeps the key of the first half of an initiation. -/
theorem parse_anon_eq : (parse_anon C v priv pub packet).run = (do
    match ← (open_static C v priv pub packet).run with
    | .ok (key, _, _) => return .ok ⟨packet.sender_idx, key⟩
    | .error e => return .error e) := by
  unfold parse_anon open_static
  dsimp only
  generalize aead_chacha20_open C KEY_LEN _ 0 _ _ = opened
  rcases opened with (e | key) | msg
  · rfl
  · rfl
  · rfl

theorem aead_chacha20_open_fails {n counter : Nat} {key data aad : Bytes} {e : WireGuardError}
    (h : (aead_chacha20_open C n key counter data aad).run = .ok (.error e)) :
    e = .InvalidAeadTag := by
  unfold aead_chacha20_open at h
  split at h
  · cases h
    rfl
  · split at h
    · cases h
    · cases h

theorem open_static_error {e : WireGuardError}
    (h : (open_static C v priv pub packet).run = .ok (.error e)) : e = .InvalidAeadTag := by
  rcases Attempt.run_bind_eq_error.mp h with hopen | ⟨key, _, hrest⟩
  · exact aead_chacha20_open_fails hopen
  · cases hrest

/-- The responder gives the error of the first half. -/
theorem consume_of_error {p : NoiseParams C} {last : Tai64N} {ek : Option Bytes}
    {e : WireGuardError}
    (h : (open_static C v p.static_private p.static_public packet).run = .ok (.error e)) :
    (consume C v p last packet ek).run = .ok (.error e) := by
  unfold consume
  exact Attempt.run_bind_of_error h

/-- The responder accepts one static key only. -/
theorem consume_of_other_key {p : NoiseParams C} {last : Tai64N} {ek : Option Bytes}
    {key ck hash : Bytes}
    (h : (open_static C v p.static_private p.static_public packet).run = .ok (.ok (key, ck, hash)))
    (hkey : key ≠ p.peer_static_public) :
    (consume C v p last packet ek).run = .ok (.error .WrongKey) := by
  unfold consume
  rw [Attempt.run_bind_of_ok h]
  dsimp only
  rw [if_pos hkey.symm]
  rfl

end anonymous

namespace Handshake

variable {v : Variant} {h : Handshake C} {packet : HandshakeInit} {ek : Option Bytes}
  {dst_len : Nat} {env : Env}

/-- Anonymous parsing of an initiation and the handshake that receives it agree. -/
structure AnonAgrees (h : Handshake C) (packet : HandshakeInit)
    (anon : Outcome (Except WireGuardError HalfHandshake))
    (receive : Outcome (Except WireGuardError (Bytes × Session) × Handshake C × List Event)) :
    Prop where
  failed : ∀ {e : WireGuardError}, anon = .ok (.error e) →
    receive = .ok (.error .InvalidAeadTag, h, [])
  other_key : ∀ {half : HalfHandshake}, anon = .ok (.ok half) →
    half.peer_static_public ≠ h.params.peer_static_public → receive = .ok (.error .WrongKey, h, [])
  accepted : ∀ {m : Bytes} {session : Session} {h' : Handshake C} {evs : List Event},
    receive = .ok (.ok (m, session), h', evs) →
      anon = .ok (.ok ⟨packet.sender_idx, h.params.peer_static_public⟩)

theorem receive_of_consume_error {e : WireGuardError}
    (hc : (consume C v h.params h.last_handshake_timestamp packet ek).run = .ok (.error e)) :
    h.receive_initialization v packet ek dst_len env = .ok (.error e, h, []) := by
  unfold receive_initialization
  rw [hc]
  rfl

/-- **The two parsers of an initiation agree**, in each variant. -/
theorem anon_agrees (v : Variant) (h : Handshake C) (packet : HandshakeInit) (ek : Option Bytes)
    (dst_len : Nat) (env : Env) :
    h.AnonAgrees packet
      (parse_anon C v h.params.static_private h.params.static_public packet).run
      (h.receive_initialization v packet ek dst_len env) where
  failed := by
    intro e hanon
    rw [parse_anon_eq] at hanon
    obtain ⟨res, hopen, hres⟩ := Outcome.bind_eq_ok.mp hanon
    cases res with
    | ok half => cases hres
    | error e' =>
      obtain rfl := open_static_error hopen
      exact receive_of_consume_error (consume_of_error hopen)
  other_key := by
    intro half hanon hkey
    rw [parse_anon_eq] at hanon
    obtain ⟨res, hopen, hres⟩ := Outcome.bind_eq_ok.mp hanon
    cases res with
    | error e => cases hres
    | ok opened =>
      obtain ⟨key, ck, hash⟩ := opened
      cases hres
      exact receive_of_consume_error (consume_of_other_key hopen hkey)
  accepted := by
    intro m session h' evs hreceive
    cases receive_initialization_cases hreceive with
    | answered c _ _ _ _ _ hc =>
      have hopen := open_static_ok.mpr
        ⟨⟨(consume_ok.mp hc).static_opened, h.params.peer_length⟩, rfl, rfl⟩
      rw [parse_anon_eq, hopen]
      rfl

end Handshake

/-- The tunnel would accept this initiation. -/
def Tunn.AcceptsInit (t : Tunn C) : Packet → Prop
  | .HandshakeInit p => ∃ dst_len env m session h' evs,
      t.handshake.receive_handshake_initialization p dst_len env = .ok (.ok (m, session), h', evs)
  | .PqHandshakeInit p => ∃ dst_len env m session h' evs,
      t.handshake.receive_pq_handshake_initialization p dst_len env
        = .ok (.ok (m, session), h', evs)
  | _ => False

namespace Device

variable {d d' : Device C} {r : PeerRef} {p : Peer C} {calls : List Call} {outputs : List Output}

/-! ## Section 2: The calls of a handler -/

theorem flush_loop_calls {env : Nat → Env} {packets : List Bytes} {n : Nat}
    (h : d.flush_loop B r env n = .ok (d', calls, packets)) : ∀ c ∈ calls, c.1 = r := by
  induction n generalizing d calls packets with
  | zero =>
    cases h
    intro c hc
    cases hc
  | succ n ih =>
    obtain ⟨⟨result, d₁, calls₁⟩, hcall, hrest⟩ := Outcome.bind_eq_ok.mp h
    obtain ⟨_, _, _, _, _, _, rfl⟩ := call_eq_ok.mp hcall
    dsimp only at hrest
    split at hrest
    · obtain ⟨⟨d₂, calls₂, packets₂⟩, hloop, hrest⟩ := Outcome.bind_eq_ok.mp hrest
      cases hrest
      intro c hc
      rcases List.mem_cons.mp hc with rfl | hc
      · rfl
      · exact ih hloop c hc
    · cases hrest
      intro c hc
      obtain rfl := List.mem_singleton.mp hc
      rfl

theorem respond_calls {result : TunnResult} {send : Bytes → Output} {env : Nat → Env}
    (h : d.respond B r result send env = .ok (d', calls, outputs)) : ∀ c ∈ calls, c.1 = r := by
  unfold respond at h
  cases result with
  | WriteToNetwork packet =>
    obtain ⟨⟨d₁, calls₁, packets⟩, hflush, hrest⟩ := Outcome.bind_eq_ok.mp h
    cases hrest
    unfold flush at hflush
    split at hflush
    · cases hflush
      simp
    · exact flush_loop_calls hflush
  | _ =>
    cases h
    simp

theorem call_of_flush_call {env : Env} {result : TunnResult} {t' : Tunn C}
    (hp : d.heap[r]? = some p)
    (hcall : Tunn.flush_call B MAX_UDP_SIZE env p.tunnel = .ok (result, t')) :
    ∃ calls, d.call B r (.decapsulate none [] MAX_UDP_SIZE) env
      = .ok (result, d.put r ({ p with tunnel := t' }, none), calls) := by
  obtain ⟨⟨result₁, t₁, events⟩, hstep, hres⟩ := Outcome.bind_eq_ok.mp hcall
  cases hres
  exact ⟨_, call_eq_ok.mpr ⟨p, t', events, hp, hstep, rfl, rfl⟩⟩

/-- The loop of the model is the loop of the source as long as its bound is not reached. -/
theorem flush_loop_of_runs {env inputs : Nat → Env} {t t' : Tunn C} {packets : List Bytes}
    {result : TunnResult} {n : Nat}
    (hrun : Loop.Runs (Tunn.flush_call B MAX_UDP_SIZE) TunnResult.network inputs t packets result t')
    (hn : packets.length < n) (henv : ∀ i < n, inputs i = env (n - 1 - i))
    (hp : d.heap[r]? = some p) (ht : p.tunnel = t) :
    ∃ d' calls, d.flush_loop B r env n = .ok (d', calls, packets) ∧
      d'.heap[r]? = some { p with tunnel := t' } := by
  induction hrun generalizing d p n with
  | @ends inputs t t' result hcall hends =>
    obtain ⟨n, rfl⟩ : ∃ k, n = k + 1 := ⟨n - 1, by omega⟩
    rw [henv 0 (Nat.succ_pos n), ← ht] at hcall
    obtain ⟨calls, hcall⟩ := call_of_flush_call hp hcall
    refine ⟨d.put r ({ p with tunnel := t' }, none), calls, ?_, getElem?_put hp⟩
    unfold flush_loop
    rw [show env n = env (n + 1 - 1 - 0) from rfl, hcall, Outcome.ok_bind]
    cases result with
    | WriteToNetwork packet => cases hends
    | _ => rfl
  | @again inputs t t₁ t' result result' packet packets hcall hmore hrest ih =>
    obtain ⟨n, rfl⟩ : ∃ k, n = k + 1 := ⟨n - 1, by omega⟩
    rw [henv 0 (Nat.succ_pos n), ← ht] at hcall
    obtain ⟨calls, hcall⟩ := call_of_flush_call hp hcall
    -- The inputs that are left are those of the shorter loop.
    have henv' : ∀ i < n, inputs (i + 1) = env (n - 1 - i) := by
      intro i hi
      rw [henv (i + 1) (Nat.succ_lt_succ hi)]
      congr 1
      omega
    have hp₁ : (d.put r ({ p with tunnel := t₁ }, none)).heap[r]? = some { p with tunnel := t₁ } :=
      getElem?_put hp
    obtain ⟨d', calls', hloop, hp'⟩ := ih (Nat.lt_of_succ_lt_succ hn) henv' hp₁ rfl
    refine ⟨d', calls ++ calls', ?_, hp'⟩
    unfold flush_loop
    rw [show env n = env (n + 1 - 1 - 0) from rfl, hcall, Outcome.ok_bind]
    cases result with
    | WriteToNetwork packet =>
      cases hmore
      dsimp only
      rw [hloop]
      rfl
    | _ => cases hmore

/-- **The loop that flushes a queue ends by itself**, if the packets fit. -/
theorem flush_ends (hp : d.heap[r]? = some p) (env : Nat → Env)
    (hqueue : ∀ packet ∈ p.tunnel.packet_queue, packet.length + 32 ≤ MAX_UDP_SIZE) :
    ∃ packets result t' d' calls,
      Loop.Runs (Tunn.flush_call B MAX_UDP_SIZE) TunnResult.network
        (fun i => env (p.tunnel.packet_queue.length + 1 - i)) p.tunnel packets result t' ∧
      d.flush B r env = .ok (d', calls, packets) ∧
      d'.heap[r]? = some { p with tunnel := t' } := by
  obtain ⟨packets, result, t', hrun, hlen⟩ := p.tunnel.flush_terminates (B := B)
    (fun i => env (p.tunnel.packet_queue.length + 1 - i)) hqueue
  obtain ⟨d', calls, hloop, hp'⟩ := flush_loop_of_runs (n := p.tunnel.packet_queue.length + 2) hrun
    (Nat.lt_succ_of_le hlen) (fun _ _ => rfl) hp rfl
  refine ⟨packets, result, t', d', calls, hrun, ?_, hp'⟩
  unfold flush
  rw [hp]
  exact hloop

/-- A datagram that passes the rate limiter is given to the peer that was found. -/
theorem udp_handler_dispatches {keys : Bytes × Bytes} {limiter limiter' : RateLimiter}
    {addr : SocketAddr} {datagram : Bytes} {packet : Packet} {env : HandlerEnv}
    (hkeys : d.key_pair = some keys) (hlimiter : d.rate_limiter = some limiter)
    (hverify : limiter.verify_packet C B (some addr.ip) datagram MAX_UDP_SIZE
      (env.first.clock .cookie) = (.ok packet, limiter'))
    (hfind : d.find_peer keys.1 keys.2 packet = .ok (some r))
    (h : d.udp_handler B addr datagram env = .ok (d', calls, outputs)) :
    (∃ l ls, calls = (r, l) :: ls ∧ l.op = .handle_verified_packet packet MAX_UDP_SIZE) ∧
      ∀ c ∈ calls, c.1 = r := by
  unfold udp_handler at h
  simp only [hkeys, hlimiter, hverify] at h
  obtain ⟨peer, hpeer, h⟩ := Outcome.bind_eq_ok.mp h
  obtain rfl : peer = some r := Outcome.ok.inj (hpeer.symm.trans hfind)
  obtain ⟨⟨result, d₁, calls₁⟩, hcall, h⟩ := Outcome.bind_eq_ok.mp h
  obtain ⟨_, _, _, _, _, _, rfl⟩ := call_eq_ok.mp hcall
  dsimp only at h
  split at h
  · cases h
    exact ⟨⟨_, _, rfl, rfl⟩, by simp⟩
  · obtain ⟨⟨d₂, calls₂, outputs₂⟩, hrespond, h⟩ := Outcome.bind_eq_ok.mp h
    obtain ⟨d₃, _, h⟩ := Outcome.bind_eq_ok.mp h
    cases h
    refine ⟨⟨_, calls₂, rfl, rfl⟩, ?_⟩
    intro c hc
    rcases List.mem_cons.mp hc with rfl | hc
    · rfl
    · exact respond_calls hrespond c hc

/-! ## Section 3: Dispatch -/

/-- The key that anonymous parsing finds in an initiation that the tunnel would accept is the key
    it is filed under. -/
theorem Filed.find_peer {k : Bytes} {packet : Packet} (hfiled : d.Filed k r p)
    (hk : d.peers.lookup k = some r) (haccepts : p.tunnel.AcceptsInit packet) :
    ∃ keys, d.key_pair = some keys ∧ d.find_peer keys.1 keys.2 packet = .ok (some r) := by
  obtain ⟨keys, hkeys, hprivate, hpublic⟩ := hfiled.key_pair
  refine ⟨keys, hkeys, ?_⟩
  rw [← hprivate, ← hpublic]
  have hlookup : d.peers.lookup p.tunnel.handshake.params.peer_static_public = some r := by
    rw [hfiled.key]
    exact hk
  cases packet with
  | HandshakeInit packet =>
    obtain ⟨dst_len, env, m, session, h', evs, hreceive⟩ := haccepts
    have hanon := (Handshake.anon_agrees .classical _ packet none dst_len env).accepted hreceive
    unfold Device.find_peer parse_handshake_anon
    simp only [hanon, Outcome.ok_bind, hlookup, Outcome.pure_eq]
  | PqHandshakeInit packet =>
    obtain ⟨dst_len, env, m, session, h', evs, hreceive⟩ := haccepts
    have hanon := (Handshake.anon_agrees .pq _ packet.toHandshakeInit
      (some packet.mlkem_ephemeral_public) dst_len env).accepted hreceive
    unfold Device.find_peer parse_pq_handshake_anon
    simp only [hanon, Outcome.ok_bind, hlookup, Outcome.pure_eq]
  | _ => exact haccepts.elim

/-- The initiation is given to this peer and to no other. -/
structure Dispatches (B : Build) (d : Device C) (packet : Packet) (r : PeerRef) : Prop where
  found : ∃ keys, d.key_pair = some keys ∧ d.find_peer keys.1 keys.2 packet = .ok (some r)
  only : ∀ {r' : PeerRef} {p' : Peer C}, d.HasPeer r' → d.heap[r']? = some p' →
    p'.tunnel.AcceptsInit packet → r' = r
  handled : ∀ {limiter limiter' : RateLimiter} {addr : SocketAddr} {datagram : Bytes}
    {env : HandlerEnv} {d' : Device C} {calls : List Call} {outputs : List Output},
    d.rate_limiter = some limiter →
    limiter.verify_packet C B (some addr.ip) datagram MAX_UDP_SIZE (env.first.clock .cookie)
      = (.ok packet, limiter') →
    d.udp_handler B addr datagram env = .ok (d', calls, outputs) →
      (∃ l ls, calls = (r, l) :: ls ∧ l.op = .handle_verified_packet packet MAX_UDP_SIZE) ∧
        ∀ c ∈ calls, c.1 = r

theorem Tables.dispatches (htables : d.Tables) {packet : Packet} (hr : d.HasPeer r)
    (hp : d.heap[r]? = some p) (haccepts : p.tunnel.AcceptsInit packet) :
    d.Dispatches B packet r := by
  have hfound : ∀ {r' : PeerRef} {p' : Peer C}, d.HasPeer r' → d.heap[r']? = some p' →
      p'.tunnel.AcceptsInit packet →
      ∃ keys, d.key_pair = some keys ∧ d.find_peer keys.1 keys.2 packet = .ok (some r') := by
    rintro r' p' ⟨k, hk⟩ hp' haccepts'
    obtain ⟨q, hfiled⟩ := htables.peers hk
    obtain rfl := Option.some.inj (hp'.symm.trans hfiled.heap)
    exact hfiled.find_peer hk haccepts'
  obtain ⟨keys, hkeys, hfind⟩ := hfound hr hp haccepts
  refine ⟨⟨keys, hkeys, hfind⟩, ?_, ?_⟩
  · intro r' p' hr' hp' haccepts'
    obtain ⟨keys', hkeys', hfind'⟩ := hfound hr' hp' haccepts'
    obtain rfl := Option.some.inj (hkeys.symm.trans hkeys')
    exact Option.some.inj (Outcome.ok.inj (hfind'.symm.trans hfind))
  · intro limiter limiter' addr datagram env d' calls outputs hlimiter hverify hhandler
    exact udp_handler_dispatches hkeys hlimiter hverify hfind hhandler

/-- **Anonymous parsing agrees with the tunnel, in both variants.**  Hence in every run an
    initiation that a peer of the device would accept is given to this peer and to no other. -/
theorem anonymous_parsing_agrees :
    (∀ (keys : Bytes × Bytes) (t : Tunn C) (packet : HandshakeInit) (dst_len : Nat) (env : Env),
      t.HasKeys keys → t.handshake.AnonAgrees packet
        (parse_handshake_anon C keys.1 keys.2 packet).run
        (t.handshake.receive_handshake_initialization packet dst_len env)) ∧
    (∀ (keys : Bytes × Bytes) (t : Tunn C) (packet : PqHandshakeInit) (dst_len : Nat) (env : Env),
      t.HasKeys keys → t.handshake.AnonAgrees packet.toHandshakeInit
        (parse_pq_handshake_anon C keys.1 keys.2 packet).run
        (t.handshake.receive_pq_handshake_initialization packet dst_len env)) ∧
    ∀ {use_connected_socket : Bool} {seed mask : UInt32} {hseed : Seed seed} {hmask : Seed mask}
      {tr : List DeviceLabel} {d : Device C} {r : PeerRef} {p : Peer C} {packet : Packet},
      Run (device C B) (.new use_connected_socket (.default seed mask hseed hmask)) tr d →
      d.HasPeer r → d.heap[r]? = some p → p.tunnel.AcceptsInit packet →
        d.Dispatches B packet r := by
  refine ⟨?_, ?_, ?_⟩
  · rintro ⟨priv, pub⟩ t packet dst_len env ⟨rfl, rfl⟩
    exact t.handshake.anon_agrees .classical packet none dst_len env
  · rintro ⟨priv, pub⟩ t packet dst_len env ⟨rfl, rfl⟩
    exact t.handshake.anon_agrees .pq packet.toHandshakeInit (some packet.mlkem_ephemeral_public)
      dst_len env
  · intro use_connected_socket seed mask hseed hmask tr d r p packet hrun hr hp haccepts
    have htables := run_tables hrun
    exact htables.dispatches hr hp haccepts

section
-- The handshake is evaluated on a whole initiation.
set_option maxRecDepth 20000

theorem symbolicInit_accepted (index : UInt32) :
    (new_tunnel (C := symbolic) [7] (symbolicKey 9) (symbolicConfig []) index
      symbolicNew).AcceptsInit (.HandshakeInit (symbolicInit 1)) :=
  ⟨2048, symbolicEnv 0, _, _, _, _, rfl⟩

/-- Of two peers, the second is given the initiation with its key. -/
theorem anonymous_parsing_agrees_second : ∃ (d : Device symbolic) (tr : List DeviceLabel)
    (p : Peer symbolic),
    Run (device symbolic (symbolicBuild true)) symbolicDevice tr d ∧ d.HasPeer 0 ∧ d.HasPeer 1 ∧
      d.heap[1]? = some p ∧ p.tunnel.AcceptsInit (.HandshakeInit (symbolicInit 1)) ∧
      d.Dispatches (symbolicBuild true) (.HandshakeInit (symbolicInit 1)) 1 ∧
      (∀ dst_len env, p.tunnel.handshake.AnonAgrees (symbolicInit 1)
        (parse_handshake_anon symbolic [7] (symbolic.x25519_public [7]) (symbolicInit 1)).run
        (p.tunnel.handshake.receive_handshake_initialization (symbolicInit 1) dst_len env)) ∧
      ∀ (packet : PqHandshakeInit) dst_len env, p.tunnel.handshake.AnonAgrees packet.toHandshakeInit
        (parse_pq_handshake_anon symbolic [7] (symbolic.x25519_public [7]) packet).run
        (p.tunnel.handshake.receive_pq_handshake_initialization packet dst_len env) := by
  obtain ⟨⟨d, tr⟩, hexec, hfirst, hsecond, p, hp, index, htunnel⟩ : ∃ x,
      symbolicDevice.exec (symbolicBuild true)
        [.set_key [7] 0 (symbolicEnv 0),
          .update_peer (symbolicKey 8) (symbolicConfig []) symbolicNew,
          .update_peer (symbolicKey 9) (symbolicConfig []) symbolicNew] = .ok x ∧
      x.1.peers.lookup (symbolicKey 8).bytes = some 0 ∧
      x.1.peers.lookup (symbolicKey 9).bytes = some 1 ∧ ∃ p, x.1.heap[1]? = some p ∧
      ∃ index, p.tunnel
        = new_tunnel [7] (symbolicKey 9) (symbolicConfig []) index symbolicNew :=
    ⟨_, rfl, rfl, rfl, _, rfl, _, rfl⟩
  have hrun := exec_run hexec
  have hkeys : p.tunnel.HasKeys ([7], symbolic.x25519_public [7]) := by
    rw [htunnel]
    exact ⟨rfl, rfl⟩
  have haccepts : p.tunnel.AcceptsInit (.HandshakeInit (symbolicInit 1)) := by
    rw [htunnel]
    exact symbolicInit_accepted index
  obtain ⟨hclassical, hpq, hdispatch⟩ :=
    anonymous_parsing_agrees (C := symbolic) (B := symbolicBuild true)
  refine ⟨d, tr, p, hrun, ⟨_, hfirst⟩, ⟨_, hsecond⟩, hp, haccepts, ?_, ?_, ?_⟩
  · exact hdispatch hrun ⟨_, hsecond⟩ hp haccepts
  · intro dst_len env
    exact hclassical ([7], symbolic.x25519_public [7]) p.tunnel (symbolicInit 1) dst_len env hkeys
  · intro packet dst_len env
    exact hpq ([7], symbolic.x25519_public [7]) p.tunnel packet dst_len env hkeys

end

end Device

end PqBoringtun
