import Mathlib.Logic.Function.Basic
import PqBoringtun.Noise.RateLimiter

/-! # Tunnels

    Model of `Tunn` in `noise/mod.rs` and `noise/timers.rs`: the session
    ring, the packet queue, the timers, and the operations a caller can
    perform in any order.  `Tunn.step` is one such operation; it returns the
    result handed to the caller, the new tunnel and the ghost events.

    Times are nanoseconds since `time_started`; destination buffers are
    given by their length.
-/

namespace PqBoringtun

open Bytes

/-! ## Section 1: Timers -/

def REKEY_AFTER_TIME : Nat := 120 * SEC
def REJECT_AFTER_TIME : Nat := 180 * SEC
def REKEY_ATTEMPT_TIME : Nat := 90 * SEC
def REKEY_TIMEOUT : Nat := 5 * SEC
def KEEPALIVE_TIMEOUT : Nat := 10 * SEC
def COOKIE_EXPIRATION_TIME : Nat := 120 * SEC

inductive TimerName where
  /-- Current time, updated each call to `update_timers` -/
  | TimeCurrent
  /-- Time when last handshake was completed -/
  | TimeSessionEstablished
  /-- Time the last attempt for a new handshake began -/
  | TimeLastHandshakeStarted
  /-- Time we last received and authenticated a packet -/
  | TimeLastPacketReceived
  /-- Time we last send a packet -/
  | TimeLastPacketSent
  /-- Time we last received and authenticated a DATA packet -/
  | TimeLastDataPacketReceived
  /-- Time we last send a DATA packet -/
  | TimeLastDataPacketSent
  /-- Time we last received a cookie -/
  | TimeCookieReceived
  /-- Time we last sent persistent keepalive -/
  | TimePersistentKeepalive
  deriving DecidableEq, Repr

/-- number of sessions in the ring -/
def N_SESSIONS : Nat := 8

/-- The ring position of a session index. -/
def slot (i : Nat) : Fin N_SESSIONS := ⟨i % N_SESSIONS, Nat.mod_lt _ (by decide)⟩

structure Timers where
  /-- Is the owner of the timer the initiator or the responder for the last handshake? -/
  is_initiator : Bool
  /-- Start time of the tunnel -/
  time_started : Nat
  timers : TimerName → Nat
  session_timers : Fin N_SESSIONS → Nat
  /-- Did we receive data without sending anything back? -/
  want_keepalive : Bool
  /-- Did we send data without hearing back? -/
  want_handshake : Bool
  persistent_keepalive : Nat
  /-- Should this timer call reset rr function (if not a shared rr instance) -/
  should_reset_rr : Bool

namespace Timers

def new (persistent_keepalive : Option UInt16) (reset_rr : Bool) (now : Nat) : Timers where
  is_initiator := false
  time_started := now
  timers := fun _ => 0
  session_timers := fun _ => 0
  want_keepalive := false
  want_handshake := false
  persistent_keepalive := (persistent_keepalive.getD 0).toNat
  should_reset_rr := reset_rr

/-- We don't really clear the timers, but we set them to the current time to
    so the reference time frame is the same. -/
def clear (t : Timers) (now : Nat) : Timers :=
  { t with
    timers := fun _ => now - t.time_started
    want_handshake := false
    want_keepalive := false }

def timer_tick (t : Timers) (timer_name : TimerName) : Timers :=
  let t := match timer_name with
    | .TimeLastPacketReceived => { t with want_keepalive := true, want_handshake := false }
    | .TimeLastPacketSent => { t with want_handshake := true, want_keepalive := false }
    | _ => t
  { t with timers := Function.update t.timers timer_name (t.timers .TimeCurrent) }

def timer_tick_session_established (t : Timers) (is_initiator : Bool) (session_idx : Nat) :
    Timers :=
  let t := t.timer_tick .TimeSessionEstablished
  { t with
    session_timers := Function.update t.session_timers (slot session_idx) (t.timers .TimeCurrent)
    is_initiator := is_initiator }

end Timers

/-- Subtraction of durations panics on underflow. -/
def sub_duration (a b : Nat) : Outcome Nat :=
  if b ≤ a then .ok (a - b) else .panic "overflow when subtracting durations"

/-- `now - since >= duration` -/
def reached (now since duration : Nat) : Outcome Bool := do
  let elapsed ← sub_duration now since
  return decide (duration ≤ elapsed)

/-- `c && now - since >= duration`; the subtraction is only made when `c` holds. -/
def reached_if (c : Bool) (now since duration : Nat) : Outcome Bool :=
  if c then reached now since duration else .ok false

/-! ## Section 2: Tunnel state -/

/-- The default value to use for rate limiting, when no other rate limiter is defined. -/
def PEER_HANDSHAKE_RATE_LIMIT : Nat := 10
def MAX_QUEUE_DEPTH : Nat := 256

/-- Tunnel represents a point-to-point WireGuard connection. -/
structure Tunn (C : Crypto) where
  /-- The handshake currently in progress -/
  handshake : Handshake C
  /-- The N_SESSIONS most recent sessions, index is session id modulo N_SESSIONS -/
  sessions : Fin N_SESSIONS → Option Session
  /-- Index of most recently used session -/
  current : Nat
  /-- Queue to store blocked packets -/
  packet_queue : List Bytes
  /-- Keeps tabs on the expiring timers -/
  timers : Timers
  tx_bytes : Nat
  rx_bytes : Nat
  rate_limiter : RateLimiter

namespace Tunn

variable {C : Crypto} (B : Build)

/-- Create a new tunnel using own private key and the peer public key;
    `unix_time` is the system time since the epoch. -/
def new (C : Crypto) (static_private peer_static_public : Bytes)
    (hpeer : peer_static_public.length = KEY_LEN) (preshared_key : Option Bytes)
    (persistent_keepalive : Option UInt16) (index : UInt32)
    (rate_limiter : Option RateLimiter) (unix_time now : Nat) (env : Env) : Tunn C where
  handshake := Handshake.new (NoiseParams.new C static_private peer_static_public preshared_key hpeer)
    (index <<< 8) { duration_at_start := unix_time, instant_at_start := now }
  sessions := fun _ => none
  current := 0
  packet_queue := []
  timers := Timers.new persistent_keepalive rate_limiter.isNone now
  tx_bytes := 0
  rx_bytes := 0
  rate_limiter := rate_limiter.getD
    (RateLimiter.new C (C.x25519_public static_private) PEER_HANDSHAKE_RATE_LIMIT now env)

/-- Update the private key and clear existing sessions. -/
def set_static_private (t : Tunn C) (static_private static_public : Bytes)
    (rate_limiter : Option RateLimiter) (env : Env) : Outcome (Tunn C) := do
  let params ← t.handshake.params.set_static_private static_private static_public
  return { t with
    timers := { t.timers with should_reset_rr := rate_limiter.isNone }
    rate_limiter := rate_limiter.getD
      (RateLimiter.new C static_public PEER_HANDSHAKE_RATE_LIMIT (env.clock .limiter) env)
    handshake := { t.handshake with params := params }
    sessions := fun _ => none }

def timer_tick (t : Tunn C) (timer_name : TimerName) : Tunn C :=
  { t with timers := t.timers.timer_tick timer_name }

def timer_tick_session_established (t : Tunn C) (is_initiator : Bool) (session_idx : Nat) :
    Tunn C :=
  { t with timers := t.timers.timer_tick_session_established is_initiator session_idx }

/-- Push packet to the back of the queue; drop if too many are already in queue. -/
def queue_packet (t : Tunn C) (packet : Bytes) : Tunn C :=
  if t.packet_queue.length < MAX_QUEUE_DEPTH then
    { t with packet_queue := t.packet_queue ++ [packet] }
  else t

/-- Push packet to the front of the queue; drop if too many are already in queue. -/
def requeue_packet (t : Tunn C) (packet : Bytes) : Tunn C :=
  if t.packet_queue.length < MAX_QUEUE_DEPTH then
    { t with packet_queue := packet :: t.packet_queue }
  else t

/-- Store a session in the ring. -/
def store_session (t : Tunn C) (index : Nat) (session : Session) : Tunn C :=
  { t with sessions := Function.update t.sessions (slot index) (some session) }

/-- Update the index of the currently used session, if needed. -/
def set_current_session (t : Tunn C) (new_idx : Nat) : Tunn C :=
  if t.current = new_idx then
    -- There is nothing to do, already using this session, this is the common case
    t
  else if t.sessions (slot t.current) = none ∨
      t.timers.session_timers (slot t.current) ≤ t.timers.session_timers (slot new_idx) then
    { t with current := new_idx }
  else t

/-! ## Section 3: Sending -/

/-- Formats a new handshake initiation message.  If `force_resend` is true will
    send a new handshake, even if a handshake is already in progress. -/
def format_handshake_initiation (t : Tunn C) (dst_len : Nat) (force_resend : Bool) (env : Env) :
    TunnResult × Tunn C × List Event :=
  if t.handshake.is_in_progress && !force_resend then
    (.Done, t, [])
  else
    let t := if t.handshake.is_expired then { t with timers := t.timers.clear (env.clock .clear) }
      else t
    let starting_new_handshake := !t.handshake.is_in_progress
    let (result, handshake, events) :=
      if B.pq then t.handshake.format_pq_handshake_initiation dst_len env
      else t.handshake.format_handshake_initiation dst_len env
    let t := { t with handshake := handshake }
    match result with
    | .ok packet =>
      let t := if starting_new_handshake then t.timer_tick .TimeLastHandshakeStarted else t
      (.WriteToNetwork packet, t.timer_tick .TimeLastPacketSent, events)
    | .error e => (.Err e, t, events)

/-- Encapsulate a single packet from the tunnel interface. -/
def encapsulate (t : Tunn C) (src : Bytes) (dst_len : Nat) (env : Env) :
    Outcome (TunnResult × Tunn C × List Event) :=
  match t.sessions (slot t.current) with
  | some session => do
    -- Send the packet using an established session
    let (packet, session, events) ← session.format_packet_data C B src dst_len
    let t := t.store_session t.current session
    let t := t.timer_tick .TimeLastPacketSent
    -- Exclude Keepalive packets from timer update.
    let t := if src ≠ [] then t.timer_tick .TimeLastDataPacketSent else t
    return (.WriteToNetwork packet, { t with tx_bytes := t.tx_bytes + src.length }, events)
  | none =>
    -- If there is no session, queue the packet for future retry, and
    -- initiate a new handshake if none is in progress
    .ok ((t.queue_packet src).format_handshake_initiation B dst_len false env)

/-- Get a packet from the queue, and try to encapsulate it. -/
def send_queued_packet (t : Tunn C) (dst_len : Nat) (env : Env) :
    Outcome (TunnResult × Tunn C × List Event) :=
  match t.packet_queue with
  | [] => .ok (.Done, t, [])
  | packet :: rest => do
    match ← { t with packet_queue := rest }.encapsulate B packet dst_len env with
    -- On error, return packet to the queue
    | (.Err _, t, events) => return (.Done, t.requeue_packet packet, events)
    | r => return r

/-! ## Section 4: Receiving -/

def IPV4_MIN_HEADER_SIZE : Nat := 20
def IPV6_MIN_HEADER_SIZE : Nat := 40

/-- Length and source address that the header of an IP packet states; `none`
    if it is neither IPv4 nor IPv6. -/
def ip_header (packet : Bytes) : Option (Nat × IpAddr) :=
  let version := (packet.headD 0) >>> 4
  if version = 4 ∧ IPV4_MIN_HEADER_SIZE ≤ packet.length then
    some (beValue (slice packet 2 4), .V4 (BitVec.ofNat 32 (beValue (slice packet 12 16))))
  else if version = 6 ∧ IPV6_MIN_HEADER_SIZE ≤ packet.length then
    some (beValue (slice packet 4 6) + IPV6_MIN_HEADER_SIZE,
      .V6 (BitVec.ofNat 128 (beValue (slice packet 8 24))))
  else none

/-- The destination address of an IP packet. -/
def dst_address (packet : Bytes) : Option IpAddr :=
  let version := (packet.headD 0) >>> 4
  if version = 4 ∧ IPV4_MIN_HEADER_SIZE ≤ packet.length then
    some (.V4 (BitVec.ofNat 32 (beValue (slice packet 16 20))))
  else if version = 6 ∧ IPV6_MIN_HEADER_SIZE ≤ packet.length then
    some (.V6 (BitVec.ofNat 128 (beValue (slice packet 24 40))))
  else none

/-- Check if an IP packet is v4 or v6, truncate to the length indicated by the
    length field.  Returns the truncated packet and the source IP. -/
def validate_decapsulated_packet (t : Tunn C) (packet : Bytes) : TunnResult × Tunn C :=
  if packet = [] then
    -- This is keepalive, and not an error
    (.Done, t)
  else
    match ip_header packet with
    | none => (.Err .InvalidPacket, t)
    | some (computed_len, src_ip_address) =>
      if packet.length < computed_len then (.Err .InvalidPacket, t)
      else
        let t := t.timer_tick .TimeLastDataPacketReceived
        let t := { t with rx_bytes := t.rx_bytes + computed_len }
        match src_ip_address with
        | .V4 addr => (.WriteToTunnelV4 (packet.take computed_len) addr, t)
        | .V6 addr => (.WriteToTunnelV6 (packet.take computed_len) addr, t)

/-- `handle_handshake_init` and `handle_pq_handshake_init` after the handshake's own part. -/
def handle_init (t : Tunn C)
    (r : Except WireGuardError (Bytes × Session) × Handshake C × List Event) :
    TunnResult × Tunn C × List Event :=
  let (result, handshake, events) := r
  let t := { t with handshake := handshake }
  match result with
  | .error e => (.Err e, t, events)
  | .ok (packet, session) =>
    -- Store new session in ring buffer
    let index := session.local_index
    let t := t.store_session index session
    let t := t.timer_tick .TimeLastPacketReceived
    let t := t.timer_tick .TimeLastPacketSent
    -- New session established, we are not the initiator
    (.WriteToNetwork packet, t.timer_tick_session_established false index, events)

def handle_handshake_init (t : Tunn C) (p : HandshakeInit) (dst_len : Nat) (env : Env) :
    Outcome (TunnResult × Tunn C × List Event) := do
  let r ← t.handshake.receive_handshake_initialization p dst_len env
  return t.handle_init r

def handle_pq_handshake_init (t : Tunn C) (p : PqHandshakeInit) (dst_len : Nat) (env : Env) :
    Outcome (TunnResult × Tunn C × List Event) := do
  let r ← t.handshake.receive_pq_handshake_initialization p dst_len env
  return t.handle_init r

/-- `handle_handshake_response` and `handle_pq_handshake_response` after the
    handshake's own part. -/
def handle_response (t : Tunn C) (r : Except WireGuardError Session × Handshake C × List Event)
    (dst_len : Nat) : Outcome (TunnResult × Tunn C × List Event) := do
  let (result, handshake, events) := r
  let t := { t with handshake := handshake }
  match result with
  | .error e => return (.Err e, t, events)
  | .ok session =>
    let (keepalive_packet, session, sealed) ← session.format_packet_data C B [] dst_len
    -- Store new session in ring buffer
    let l_idx := session.local_index
    let index := l_idx % N_SESSIONS
    let t := t.store_session index session
    let t := t.timer_tick .TimeLastPacketReceived
    -- New session established, we are the initiator
    let t := t.timer_tick_session_established true index
    -- Send a keepalive as a response
    return (.WriteToNetwork keepalive_packet, t.set_current_session l_idx, events ++ sealed)

def handle_handshake_response (t : Tunn C) (p : HandshakeResponse) (dst_len : Nat) (env : Env) :
    Outcome (TunnResult × Tunn C × List Event) := do
  let r ← t.handshake.receive_handshake_response p env
  t.handle_response B r dst_len

def handle_pq_handshake_response (t : Tunn C) (p : PqHandshakeResponse) (dst_len : Nat)
    (env : Env) : Outcome (TunnResult × Tunn C × List Event) := do
  let r ← t.handshake.receive_pq_handshake_response p env
  t.handle_response B r dst_len

def handle_cookie_reply (t : Tunn C) (p : PacketCookieReply) : TunnResult × Tunn C × List Event :=
  let (result, handshake) := t.handshake.receive_cookie_reply p
  let t := { t with handshake := handshake }
  match result with
  | .error e => (.Err e, t, [])
  | .ok () =>
    let t := t.timer_tick .TimeLastPacketReceived
    (.Done, t.timer_tick .TimeCookieReceived, [])

/-- Decrypts a data packet. -/
def handle_data (t : Tunn C) (packet : PacketData) (dst_len : Nat) :
    Outcome (TunnResult × Tunn C × List Event) :=
  let r_idx := packet.receiver_idx.toNat
  -- Get the (probably) right session
  match t.sessions (slot r_idx) with
  | none => .ok (.Err .NoCurrentSession, t, [])
  | some session => do
    let (result, session, events) ← session.receive_packet_data C B packet dst_len
    let t := t.store_session r_idx session
    match result with
    | .error e => return (.Err e, t, events)
    | .ok decapsulated_packet =>
      let t := t.set_current_session r_idx
      let t := t.timer_tick .TimeLastPacketReceived
      let (result, t) := t.validate_decapsulated_packet decapsulated_packet
      return (result, t, events)

def handle_verified_packet (t : Tunn C) (packet : Packet) (dst_len : Nat) (env : Env) :
    Outcome (TunnResult × Tunn C × List Event) :=
  match packet with
  | .HandshakeInit p => t.handle_handshake_init p dst_len env
  | .HandshakeResponse p => t.handle_handshake_response B p dst_len env
  | .PacketCookieReply p => .ok (t.handle_cookie_reply p)
  | .PacketData p => t.handle_data B p dst_len
  | .PqHandshakeInit p => t.handle_pq_handshake_init p dst_len env
  | .PqHandshakeResponse p => t.handle_pq_handshake_response B p dst_len env

/-- Receives a UDP datagram from the network and parses it. -/
def decapsulate (t : Tunn C) (src_addr : Option IpAddr) (datagram : Bytes) (dst_len : Nat)
    (env : Env) : Outcome (TunnResult × Tunn C × List Event) :=
  if datagram = [] then
    -- Indicates a repeated call
    t.send_queued_packet B dst_len env
  else
    let (verified, rate_limiter) :=
      t.rate_limiter.verify_packet C B src_addr datagram COOKIE_REPLY_SZ (env.clock .cookie)
    let t := { t with rate_limiter := rate_limiter }
    match verified with
    | .ok packet => t.handle_verified_packet B packet dst_len env
    | .error (.WriteToNetwork cookie) =>
      if dst_len < cookie.length then .panic "range end index out of range for slice"
      else .ok (.WriteToNetwork cookie, t, [])
    | .error (.Err e) => .ok (.Err e, t, [])
    | .error _ => .panic "internal error: entered unreachable code"

/-! ## Section 5: Timer updates -/

/-- Expire the sessions older than `REJECT_AFTER_TIME`.  The subtraction of
    every slot happens before the loop is left, so one underflow panics. -/
def update_session_timers (t : Tunn C) (time_now : Nat) : Outcome (Tunn C) :=
  if ∀ i, t.timers.session_timers i ≤ time_now then
    let expired := fun i => decide (REJECT_AFTER_TIME < time_now - t.timers.session_timers i)
    .ok { t with
      sessions := fun i => if expired i then none else t.sessions i
      timers := { t.timers with
        session_timers := fun i => if expired i then time_now else t.timers.session_timers i } }
  else .panic "overflow when subtracting durations"

/-- `set_expired` and `clear_all`. -/
def expire (t : Tunn C) (env : Env) : Tunn C :=
  { t with
    handshake := t.handshake.set_expired
    sessions := fun _ => none
    packet_queue := []
    timers := t.timers.clear (env.clock .clear) }

/-- The start of `update_timers`: count reset, current time, session expiry. -/
def refresh (t : Tunn C) (env : Env) : Outcome (Tunn C) :=
  let rate_limiter :=
    if t.timers.should_reset_rr then t.rate_limiter.reset_count (env.clock .reset)
    else t.rate_limiter
  let now := env.clock .update - t.timers.time_started
  let timers := { t.timers with timers := Function.update t.timers.timers .TimeCurrent now }
  { t with rate_limiter := rate_limiter, timers := timers }.update_session_timers now

/-- Clear cookie after `COOKIE_EXPIRATION_TIME`. -/
def expire_cookie (t : Tunn C) (now : Nat) : Outcome (Tunn C) := do
  let due ← reached_if t.handshake.has_cookie
    now (t.timers.timers .TimeCookieReceived) COOKIE_EXPIRATION_TIME
  return if due then { t with handshake := t.handshake.clear_cookie } else t

/-- Without an outstanding initiation: is a new handshake due? -/
def handshake_required (t : Tunn C) (now : Nat) : Outcome (Bool × Tunn C) := do
  let session_established := t.timers.timers .TimeSessionEstablished
  let aut_packet_received := t.timers.timers .TimeLastPacketReceived
  let data_packet_received := t.timers.timers .TimeLastDataPacketReceived
  let data_packet_sent := t.timers.timers .TimeLastDataPacketSent
  -- HANDSHAKE(REKEY_AFTER_TIME (on send))
  let on_send ← reached_if (t.timers.is_initiator && session_established < data_packet_sent)
    now session_established REKEY_AFTER_TIME
  -- HANDSHAKE(REJECT_AFTER_TIME - KEEPALIVE_TIMEOUT - REKEY_TIMEOUT (on receive))
  let on_receive ← reached_if (t.timers.is_initiator && session_established < data_packet_received)
    now session_established (REJECT_AFTER_TIME - KEEPALIVE_TIMEOUT - REKEY_TIMEOUT)
  -- HANDSHAKE(KEEPALIVE + REKEY_TIMEOUT)
  let no_answer ← reached_if (aut_packet_received < data_packet_sent)
    now aut_packet_received (KEEPALIVE_TIMEOUT + REKEY_TIMEOUT)
  let want_handshake := t.timers.want_handshake
  let t := if no_answer then { t with timers := { t.timers with want_handshake := false } } else t
  return (on_send || on_receive || (no_answer && want_handshake), t)

/-- Without an outstanding or due handshake: is a keepalive due? -/
def keepalive_required (t : Tunn C) (now : Nat) : Outcome (Bool × Tunn C) := do
  let aut_packet_sent := t.timers.timers .TimeLastPacketSent
  let data_packet_received := t.timers.timers .TimeLastDataPacketReceived
  -- KEEPALIVE(KEEPALIVE_TIMEOUT)
  let silent ← reached_if (aut_packet_sent < data_packet_received)
    now aut_packet_sent KEEPALIVE_TIMEOUT
  let want_keepalive := t.timers.want_keepalive
  let t := if silent then { t with timers := { t.timers with want_keepalive := false } } else t
  -- KEEPALIVE(PERSISTENT_KEEPALIVE)
  let persistent ← reached_if (0 < t.timers.persistent_keepalive)
    now (t.timers.timers .TimePersistentKeepalive) (t.timers.persistent_keepalive * SEC)
  let t := if persistent then t.timer_tick .TimePersistentKeepalive else t
  return ((silent && want_keepalive) || persistent, t)

def update_timers (t : Tunn C) (dst_len : Nat) (env : Env) :
    Outcome (TunnResult × Tunn C × List Event) := do
  let t ← t.refresh env
  let now := t.timers.timers .TimeCurrent
  if t.handshake.is_expired then return (.Err .ConnectionExpired, t, [])
  else
    let t ← t.expire_cookie now
    -- All ephemeral private keys and symmetric session keys are zeroed out after
    -- (REJECT_AFTER_TIME * 3) ms if no new keys have been exchanged.
    if ← reached now (t.timers.timers .TimeSessionEstablished) (REJECT_AFTER_TIME * 3) then
      return (.Err .ConnectionExpired, t.expire env, [])
    else
      match t.handshake.timer with
      | some time_init_sent =>
        -- Handshake Initiation Retransmission
        if ← reached now (t.timers.timers .TimeLastHandshakeStarted) REKEY_ATTEMPT_TIME then
          return (.Err .ConnectionExpired, t.expire env, [])
        else if REKEY_TIMEOUT ≤ env.clock .elapsed - time_init_sent then
          return t.format_handshake_initiation B dst_len true env
        else return (.Done, t, [])
      | none =>
        let (required, t) ← t.handshake_required now
        if required then return t.format_handshake_initiation B dst_len true env
        else
          let (required, t) ← t.keepalive_required now
          if required then t.encapsulate B [] dst_len env
          else return (.Done, t, [])

/-- Part of `stats`; `now` is the reading of the clock. -/
def time_since_last_handshake (t : Tunn C) (now : Nat) : Outcome (Option Nat) :=
  match t.sessions (slot t.current) with
  | some _ => do
    let duration_since_tun_start := now - t.timers.time_started
    let duration_since_session_established := t.timers.timers .TimeSessionEstablished
    let duration ← sub_duration duration_since_tun_start duration_since_session_established
    return some duration
  | none => .ok none

end Tunn

/-! ## Section 6: Operations -/

/-- The operations of a tunnel.  A device checks datagrams with its own rate
    limiter and calls `handle_verified_packet`.  `shared` is the effect other
    users of a shared rate limiter have on its counters. -/
inductive Op where
  | encapsulate (src : Bytes) (dst_len : Nat)
  | decapsulate (src_addr : Option IpAddr) (datagram : Bytes) (dst_len : Nat)
  | handle_verified_packet (packet : Packet) (dst_len : Nat)
  | update_timers (dst_len : Nat)
  | format_handshake_initiation (dst_len : Nat) (force_resend : Bool)
  | set_static_private (static_private static_public : Bytes) (rate_limiter : Option RateLimiter)
  | shared (count nonce_ctr last_reset : Nat)

/-- One operation. -/
def Tunn.step {C : Crypto} (B : Build) (t : Tunn C) (op : Op) (env : Env) :
    Outcome (TunnResult × Tunn C × List Event) :=
  match op with
  | .encapsulate src dst_len => t.encapsulate B src dst_len env
  | .decapsulate src_addr datagram dst_len => t.decapsulate B src_addr datagram dst_len env
  | .handle_verified_packet packet dst_len => t.handle_verified_packet B packet dst_len env
  | .update_timers dst_len => t.update_timers B dst_len env
  | .format_handshake_initiation dst_len force_resend =>
    .ok (t.format_handshake_initiation B dst_len force_resend env)
  | .set_static_private static_private static_public rate_limiter => do
    let t ← t.set_static_private static_private static_public rate_limiter env
    return (.Done, t, [])
  | .shared count nonce_ctr last_reset =>
    .ok (.Done, { t with rate_limiter := { t.rate_limiter with
      count := count, nonce_ctr := nonce_ctr, last_reset := last_reset } }, [])

end PqBoringtun
