import PqBoringtun.Noise.Handshake

/-! # Rate limiter

    Model of `noise/rate_limiter.rs`: mac1 and mac2 of handshake messages,
    the load counter, and cookie replies.
-/

namespace PqBoringtun

open Bytes

def COOKIE_REFRESH : Nat := 128
/-- How often should reset count in seconds. -/
def RESET_PERIOD : Nat := 1

structure RateLimiter where
  /-- The key we use to derive the nonce -/
  nonce_key : Bytes
  /-- The key we use to derive the cookie -/
  secret_key : Bytes
  start_time : Nat
  /-- A single 64 bit counter (should suffice for many years) -/
  nonce_ctr : Nat
  mac1_key : Bytes
  cookie_key : Bytes
  limit : Nat
  /-- The counter since last reset -/
  count : Nat
  /-- The time last reset was performed on this rate limiter -/
  last_reset : Nat
  deriving DecidableEq, Repr

/-- The source address, padded to 16 bytes. -/
def IpAddr.cookie_bytes : IpAddr → Bytes
  | .V4 a => beBytes 4 a.toNat ++ List.replicate 12 0
  | .V6 a => beBytes 16 a.toNat

/-- The sender index of the handshake messages, which are the ones rate limited. -/
def Packet.sender_idx : Packet → Option UInt32
  | .HandshakeInit p => some p.sender_idx
  | .HandshakeResponse p => some p.sender_idx
  | .PqHandshakeInit p => some p.sender_idx
  | .PqHandshakeResponse p => some p.sender_idx
  | .PacketCookieReply _ => none
  | .PacketData _ => none

namespace RateLimiter

variable (C : Crypto)

def new (public_key : Bytes) (limit now : Nat) (env : Env) : RateLimiter where
  nonce_key := env.nonce_key
  secret_key := env.secret_key
  start_time := now
  nonce_ctr := 0
  mac1_key := b2s_hash C LABEL_MAC1 public_key
  cookie_key := b2s_hash C LABEL_COOKIE public_key
  limit := limit
  count := 0
  last_reset := now

/-- Reset packet count (ideally should be called with a period of 1 second). -/
def reset_count (r : RateLimiter) (now : Nat) : RateLimiter :=
  if RESET_PERIOD ≤ (now - r.last_reset) / SEC then { r with count := 0, last_reset := now }
  else r

/-- Compute the correct cookie value based on the current secret value and the source IP. -/
def current_cookie (r : RateLimiter) (addr : IpAddr) (now : Nat) : Bytes :=
  let cur_counter := (now - r.start_time) / SEC / COOKIE_REFRESH
  b2s_keyed_mac_16_2 C r.secret_key (leBytes 8 cur_counter) addr.cookie_bytes

/-- The next nonce of a cookie reply. -/
def nonce (r : RateLimiter) : Bytes × RateLimiter :=
  (b2s_mac_24 C r.nonce_key (leBytes 8 r.nonce_ctr),
    { r with nonce_ctr := (r.nonce_ctr + 1) % 2 ^ 64 })

/-- `fetch_add` on the counter wraps. -/
def is_under_load (r : RateLimiter) : Bool × RateLimiter :=
  (decide (r.limit ≤ r.count), { r with count := (r.count + 1) % 2 ^ 64 })

def format_cookie_reply (r : RateLimiter) (idx : UInt32) (cookie mac1 : Bytes) (dst_len : Nat) :
    Except WireGuardError Bytes × RateLimiter :=
  if dst_len < COOKIE_REPLY_SZ then (.error .DestinationBufferTooSmall, r)
  else
    let (nonce, r) := r.nonce C
    (.ok (leBytes 4 COOKIE_REPLY ++ le32 idx ++ nonce ++
      C.xchacha_seal r.cookie_key nonce mac1 cookie), r)

/-- Verify the MAC fields on the datagram, and apply rate limiting if needed. -/
def verify_packet (B : Build) (r : RateLimiter) (src_addr : Option IpAddr) (src : Bytes)
    (dst_len now : Nat) : Except TunnResult Packet × RateLimiter :=
  match parse_incoming_packet B src with
  | .error e => (.error (.Err e), r)
  | .ok packet =>
    -- Verify and rate limit handshake messages only
    match packet.sender_idx with
    | none => (.ok packet, r)
    | some sender_idx =>
      let msg := slice src 0 (src.length - 32)
      let mac1 := slice src (src.length - 32) (src.length - 16)
      let mac2 := slice src (src.length - 16) src.length
      let computed_mac1 := b2s_keyed_mac_16 C r.mac1_key msg
      if computed_mac1 ≠ mac1 then (.error (.Err .InvalidMac), r)
      else
        let (under_load, r) := r.is_under_load
        if under_load = false then (.ok packet, r)
        else
          match src_addr with
          | none => (.error (.Err .UnderLoad), r)
          | some addr =>
            -- Only given an address can we validate mac2
            let cookie := r.current_cookie C addr now
            let computed_mac2 := b2s_keyed_mac_16_2 C cookie msg mac1
            if computed_mac2 = mac2 then (.ok packet, r)
            else
              match r.format_cookie_reply C sender_idx cookie mac1 dst_len with
              | (.ok cookie_packet, r) => (.error (.WriteToNetwork cookie_packet), r)
              | (.error e, r) => (.error (.Err e), r)

variable {C}

theorem format_cookie_reply_type {r r' : RateLimiter} {idx : UInt32} {cookie mac1 packet : Bytes}
    {dst_len : Nat} (h : r.format_cookie_reply C idx cookie mac1 dst_len = (.ok packet, r')) :
    ∃ rest, packet = leBytes 4 COOKIE_REPLY ++ rest := by
  unfold format_cookie_reply at h
  split at h
  · cases h
  · cases h
    simp only [List.append_assoc]
    exact ⟨_, rfl⟩

/-- What the limiter returns in place of a packet: a cookie reply or an error. -/
theorem verify_packet_error {B : Build} {l : RateLimiter} {addr : Option IpAddr} {src : Bytes}
    {size now : Nat} {r : TunnResult} (h : (l.verify_packet C B addr src size now).1 = .error r) :
    (∃ rest, r = .WriteToNetwork (leBytes 4 COOKIE_REPLY ++ rest)) ∨ ∃ e, r = .Err e := by
  unfold verify_packet at h
  dsimp only at h
  repeat' split at h
  all_goals cases h
  all_goals first | exact Or.inr ⟨_, rfl⟩ | skip
  rename_i hreply
  obtain ⟨rest, rfl⟩ := format_cookie_reply_type hreply
  exact Or.inl ⟨rest, rfl⟩

end RateLimiter

end PqBoringtun
