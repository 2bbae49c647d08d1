import PqBoringtun.Noise.Session

/-! # Handshakes

    Model of `noise/handshake.rs`.  The source has every handshake function
    twice, classical and PQ hybrid.  The two differ in the chain constants,
    the message type and size, and the ML-KEM steps; here each pair is one
    function of a `Variant`, and both members keep their names as instances
    of it.  The two sides of the protocol stay separate functions, as in the
    source: `initiate` and `complete` on the initiator's side, `consume` and
    `respond` on the responder's.

    Randomness and clock readings of a call are in its `Env`.
-/

namespace PqBoringtun

open Bytes

/-! ## Section 1: Environment and timestamps -/

/-- The clock readings a call can make, named by the place of the reading. -/
inductive Reading where
  /-- `Instant::now()` at the start of `update_timers`. -/
  | update
  /-- In `RateLimiter::reset_count`. -/
  | reset
  /-- `time_init_sent.elapsed()`. -/
  | elapsed
  /-- In `Timers::clear`. -/
  | clear
  /-- In `TimeStamper::stamp`. -/
  | stamp
  /-- `time_now`, stored as `time_sent` of an initiation. -/
  | sent
  /-- In `RateLimiter::current_cookie`. -/
  | cookie
  /-- The round trip time of a response. -/
  | rtt
  /-- In `RateLimiter::new`. -/
  | limiter
  deriving DecidableEq, Repr

/-- What a call reads from its surroundings: the clock (in nanoseconds) and randomness. -/
structure Env where
  clock : Reading → Nat
  /-- `x25519::ReusableSecret::random_from_rng`. -/
  ephemeral : Bytes
  /-- Randomness of ML-KEM key generation or encapsulation. -/
  mlkem_seed : Bytes
  /-- Randomness of `RateLimiter::new`. -/
  nonce_key : Bytes
  secret_key : Bytes

/-- Nanoseconds of a second. -/
def SEC : Nat := 1000000000

/-- A 12 byte Tai64N timestamp. -/
structure Tai64N where
  secs : Nat
  nano : Nat
  deriving DecidableEq, Repr

namespace Tai64N

/-- A zeroed out timestamp. -/
def zero : Tai64N := { secs := 0, nano := 0 }

def parse (buf : Bytes) : Except WireGuardError Tai64N :=
  if buf.length < 12 then .error .InvalidTai64nTimestamp
  else .ok { secs := beValue (slice buf 0 8), nano := beValue (slice buf 8 12) }

/-- Is this timestamp chronologically after `other`? -/
def after (t other : Tai64N) : Bool :=
  t.secs > other.secs || (t.secs == other.secs && t.nano > other.nano)

end Tai64N

structure TimeStamper where
  duration_at_start : Nat
  instant_at_start : Nat
  deriving DecidableEq, Repr

def TAI64_BASE : Nat := 2 ^ 62 + 37

/-- Take time reading and generate a 12 byte timestamp.  `duration_since`
    is zero when the clock went backwards. -/
def TimeStamper.stamp (s : TimeStamper) (now : Nat) : Bytes :=
  let stamp := now - s.instant_at_start + s.duration_at_start
  beBytes 8 (stamp / SEC + TAI64_BASE) ++ beBytes 4 (stamp % SEC)

@[simp] theorem TimeStamper.length_stamp (s : TimeStamper) (now : Nat) :
    (s.stamp now).length = 12 := by
  simp [stamp]

/-! ## Section 2: Parameters and states -/

/-- Parameters used by the noise protocol, with the relations their
    constructors establish. -/
structure NoiseParams (C : Crypto) where
  static_public : Bytes
  static_private : Bytes
  peer_static_public : Bytes
  /-- `DH(static_private, peer_static_public)` -/
  static_shared : Bytes
  /-- `HASH("mac1----", peer_static_public)` -/
  sending_mac1_key : Bytes
  preshared_key : Option Bytes
  static_public_eq : static_public = C.x25519_public static_private
  static_shared_eq : static_shared = C.x25519 static_private peer_static_public
  sending_mac1_key_eq : sending_mac1_key = b2s_hash C LABEL_MAC1 peer_static_public
  peer_length : peer_static_public.length = KEY_LEN

namespace NoiseParams

variable {C : Crypto}

def new (C : Crypto) (static_private peer_static_public : Bytes) (preshared_key : Option Bytes)
    (h : peer_static_public.length = KEY_LEN) : NoiseParams C where
  static_public := C.x25519_public static_private
  static_private := static_private
  peer_static_public := peer_static_public
  static_shared := C.x25519 static_private peer_static_public
  sending_mac1_key := b2s_hash C LABEL_MAC1 peer_static_public
  preshared_key := preshared_key
  static_public_eq := rfl
  static_shared_eq := rfl
  sending_mac1_key_eq := rfl
  peer_length := h

/-- Set a new private key. -/
def set_static_private (p : NoiseParams C) (static_private static_public : Bytes) :
    Outcome (NoiseParams C) :=
  -- Check that the public key indeed matches the private key
  if h : C.x25519_public static_private = static_public then
    .ok { p with
      static_private := static_private
      static_public := static_public
      static_shared := C.x25519 static_private p.peer_static_public
      static_public_eq := h.symm
      static_shared_eq := rfl }
  else .panic "assertion failed: check_key == static_public"

/-- What a new private key changes, and what it keeps. -/
theorem set_static_private_eq_ok {p p' : NoiseParams C} {static_private static_public : Bytes}
    (h : p.set_static_private static_private static_public = .ok p') :
    p'.static_private = static_private ∧ p'.static_public = static_public ∧
      p'.peer_static_public = p.peer_static_public ∧ p'.preshared_key = p.preshared_key := by
  unfold set_static_private at h
  split at h
  · cases h
    exact ⟨rfl, rfl, rfl, rfl⟩
  · cases h

/-- A key pair that belongs together passes the check. -/
theorem set_static_private_own (p : NoiseParams C) (static_private : Bytes) :
    ∃ p', p.set_static_private static_private (C.x25519_public static_private) = .ok p' := by
  rw [set_static_private, dif_pos rfl]
  exact ⟨_, rfl⟩

/-- `preshared_key.unwrap_or([0u8; 32])` -/
def psk (p : NoiseParams C) : Bytes := p.preshared_key.getD (List.replicate 32 0)

end NoiseParams

structure HandshakeInitSentState where
  local_index : UInt32
  hash : Bytes
  chaining_key : Bytes
  ephemeral_private : Bytes
  time_sent : Nat
  mlkem_decapsulation_key : Option Bytes
  deriving DecidableEq, Repr

inductive HandshakeState where
  /-- No handshake in process -/
  | None
  /-- We initiated the handshake -/
  | InitSent (s : HandshakeInitSentState)
  /-- Handshake initiated by peer -/
  | InitReceived (hash chaining_key peer_ephemeral_public : Bytes) (peer_index : UInt32)
      (mlkem_encapsulation_key : Option Bytes)
  /-- Handshake was established too long ago (implies no handshake is in progress) -/
  | Expired
  deriving DecidableEq, Repr

/-- The initiation that waits for a response to local index `idx`, if this is one. -/
def HandshakeState.awaiting (idx : UInt32) : HandshakeState → Option HandshakeInitSentState
  | .InitSent s => if s.local_index = idx then some s else none
  | _ => none

/-- Is there a handshake awaiting a response, and is it in the `previous` slot? -/
def response_slot (state previous : HandshakeState) (receiver_idx : UInt32) :
    Option (HandshakeInitSentState × Bool) :=
  match state.awaiting receiver_idx with
  | some s => some (s, false)
  | none => (previous.awaiting receiver_idx).map (·, true)

structure Cookies where
  last_mac1 : Option Bytes
  index : UInt32
  write_cookie : Option Bytes
  deriving DecidableEq, Repr

structure Handshake (C : Crypto) where
  params : NoiseParams C
  /-- Index of the next session -/
  next_index : UInt32
  /-- Allow to have two outgoing handshakes in flight, because sometimes we may receive a
      delayed response to a handshake with bad networks -/
  previous : HandshakeState
  /-- Current handshake state -/
  state : HandshakeState
  cookies : Cookies
  /-- The timestamp of the last handshake we received -/
  last_handshake_timestamp : Tai64N
  stamper : TimeStamper
  last_rtt : Option Nat

namespace Handshake

variable {C : Crypto}

def new (params : NoiseParams C) (global_idx : UInt32) (stamper : TimeStamper) :
    Handshake C where
  params := params
  next_index := global_idx
  previous := .None
  state := .None
  cookies := { last_mac1 := none, index := 0, write_cookie := none }
  last_handshake_timestamp := .zero
  stamper := stamper
  last_rtt := none

def is_in_progress (h : Handshake C) : Bool :=
  match h.state with
  | .None => false
  | .Expired => false
  | _ => true

def timer (h : Handshake C) : Option Nat :=
  match h.state with
  | .InitSent s => some s.time_sent
  | _ => none

def set_expired (h : Handshake C) : Handshake C :=
  { h with previous := .Expired, state := .Expired }

def is_expired (h : Handshake C) : Bool :=
  match h.state with
  | .Expired => true
  | _ => false

def has_cookie (h : Handshake C) : Bool := h.cookies.write_cookie.isSome

def clear_cookie (h : Handshake C) : Handshake C :=
  { h with cookies := { h.cookies with write_cookie := none } }

end Handshake

/-- The index used is 24 bits for peer index, allowing for 16M active peers per
    server and 8 bits for cyclic session index. -/
def inc_index (index : UInt32) : UInt32 :=
  (index &&& ~~~0xff) ||| (index.toUInt8 + 1).toUInt32

/-! ## Section 3: The two variants -/

/-- Classical handshake, or PQ hybrid handshake. -/
inductive Variant where
  | classical
  | pq
  deriving DecidableEq, Repr

namespace Variant

/-- The initial chaining key. -/
def chain_key : Variant → Bytes
  | classical => INITIAL_CHAIN_KEY
  | pq => INITIAL_CHAIN_KEY_PQ

/-- The initial hash. -/
def chain_hash : Variant → Bytes
  | classical => INITIAL_CHAIN_HASH
  | pq => INITIAL_CHAIN_HASH_PQ

def init_type : Variant → Nat
  | classical => HANDSHAKE_INIT
  | pq => PQ_HANDSHAKE_INIT

def init_size : Variant → Nat
  | classical => HANDSHAKE_INIT_SZ
  | pq => PQ_HANDSHAKE_INIT_SZ

def resp_type : Variant → Nat
  | classical => HANDSHAKE_RESP
  | pq => PQ_HANDSHAKE_RESP

def resp_size : Variant → Nat
  | classical => HANDSHAKE_RESP_SZ
  | pq => PQ_HANDSHAKE_RESP_SZ

/-- ML-KEM key generation of an initiation: decapsulation and encapsulation key. -/
def keygen (C : Crypto) (seed : Bytes) : Variant → Option (Bytes × Bytes)
  | classical => none
  | pq => some (C.mlkem_keygen seed)

/-- ML-KEM encapsulation of a response: ciphertext and shared secret. -/
def encapsulate (C : Crypto) (mlkem_ek : Option Bytes) (seed : Bytes) :
    Variant → Attempt WireGuardError (Option (Bytes × Bytes))
  | classical => pure none
  | pq =>
    match mlkem_ek with
    | none => .panic "PQ response requires ML-KEM encapsulation key"
    | some ek =>
      if ek.length ≠ MLKEM768_PK_SIZE then .panic "ML-KEM ek wrong size"
      else if C.mlkem_ek_valid ek = false then throw .InvalidPacket
      else pure (some (C.mlkem_encapsulate ek seed))

/-- ML-KEM decapsulation of a response: ciphertext and shared secret. -/
def decapsulate (C : Crypto) (dk : Option Bytes) (ct : Option Bytes) :
    Variant → Attempt WireGuardError (Option (Bytes × Bytes))
  | classical => pure none
  | pq =>
    match dk, ct with
    | some dk, some ct =>
      match C.mlkem_decapsulate dk ct with
      | none => throw .MlKemDecapsulationFailed
      | some ss => pure (some (ct, ss))
    | _, _ => throw .InvalidPacket

end Variant

/-- The handshake variant of a build. -/
def Build.variant (B : Build) : Variant := if B.pq then .pq else .classical

theorem Build.variant_pq {B : Build} (h : B.variant = .pq) : B.pq = true := by
  unfold variant at h
  split at h
  · assumption
  · cases h

/-! ## Section 4: Key schedule, field by field -/

section schedule
variable (C : Crypto)

def aead_chacha20_seal (key : Bytes) (counter : Nat) (data aad : Bytes) : Seal where
  key := key
  nonce := nonce_of_counter counter
  aad := aad
  plaintext := data
  ciphertext := C.chacha_seal key (nonce_of_counter counter) aad data

/-- Open into a buffer of `buffer_len` bytes; copying a plaintext of another length panics. -/
def aead_chacha20_open (buffer_len : Nat) (key : Bytes) (counter : Nat) (data aad : Bytes) :
    Attempt WireGuardError Bytes :=
  match C.chacha_open key (nonce_of_counter counter) aad data with
  | none => throw .InvalidAeadTag
  | some plaintext =>
    if plaintext.length = buffer_len then pure plaintext
    else .panic "source slice length does not match destination slice length"

/-- What an initiator computes for an initiation. -/
structure Initiation where
  unencrypted_ephemeral : Bytes
  encrypted_static : Seal
  encrypted_timestamp : Seal
  chaining_key : Bytes
  hash : Bytes
  deriving DecidableEq, Repr

/-- The computation of `format_handshake_initiation` and `format_pq_handshake_initiation`. -/
def initiate (v : Variant) (p : NoiseParams C) (ephemeral_private timestamp : Bytes)
    (mlkem_ek : Option Bytes) : Initiation :=
  -- initiator.chaining_key = HASH(CONSTRUCTION)
  let chaining_key := v.chain_key
  -- initiator.hash = HASH(HASH(initiator.chaining_key || IDENTIFIER) || responder.static_public)
  let hash := b2s_hash C v.chain_hash p.peer_static_public
  let unencrypted_ephemeral := C.x25519_public ephemeral_private
  let hash := b2s_hash C hash unencrypted_ephemeral
  let chaining_key := b2s_hmac C (b2s_hmac C chaining_key unencrypted_ephemeral) [1]
  -- DH(initiator.ephemeral_private, responder.static_public)
  let ephemeral_shared := C.x25519 ephemeral_private p.peer_static_public
  let temp := b2s_hmac C chaining_key ephemeral_shared
  let chaining_key := b2s_hmac C temp [1]
  let key := b2s_hmac2 C temp chaining_key [2]
  let encrypted_static := aead_chacha20_seal C key 0 p.static_public hash
  let hash := b2s_hash C hash encrypted_static.ciphertext
  -- DH(initiator.static_private, responder.static_public)
  let temp := b2s_hmac C chaining_key p.static_shared
  let chaining_key := b2s_hmac C temp [1]
  let key := b2s_hmac2 C temp chaining_key [2]
  let encrypted_timestamp := aead_chacha20_seal C key 0 timestamp hash
  let hash := b2s_hash C hash encrypted_timestamp.ciphertext
  -- Mix ML-KEM ek into hash (bind to transcript)
  let hash := match mlkem_ek with
    | none => hash
    | some ek => b2s_hash C hash ek
  { unencrypted_ephemeral, encrypted_static, encrypted_timestamp, chaining_key, hash }

/-- The first half of an initiation at the responder, up to the static key:
    the decrypted key, the chaining key and the hash. -/
def open_static (v : Variant) (static_private static_public : Bytes) (packet : HandshakeInit) :
    Attempt WireGuardError (Bytes × Bytes × Bytes) := do
  let chaining_key := v.chain_key
  let hash := b2s_hash C v.chain_hash static_public
  let peer_ephemeral_public := packet.unencrypted_ephemeral
  let hash := b2s_hash C hash peer_ephemeral_public
  let chaining_key := b2s_hmac C (b2s_hmac C chaining_key peer_ephemeral_public) [1]
  let ephemeral_shared := C.x25519 static_private peer_ephemeral_public
  let temp := b2s_hmac C chaining_key ephemeral_shared
  let chaining_key := b2s_hmac C temp [1]
  let key := b2s_hmac2 C temp chaining_key [2]
  let peer_static_public ← aead_chacha20_open C KEY_LEN key 0 packet.encrypted_static hash
  return (peer_static_public, chaining_key, hash)

/-- What a responder learns from an initiation it accepts. -/
structure Consumed where
  timestamp : Tai64N
  chaining_key : Bytes
  hash : Bytes
  deriving DecidableEq, Repr

/-- The checks of `receive_handshake_initialization` and
    `receive_pq_handshake_initialization`, up to the commit of the timestamp. -/
def consume (v : Variant) (p : NoiseParams C) (last : Tai64N) (packet : HandshakeInit)
    (mlkem_ek : Option Bytes) : Attempt WireGuardError Consumed := do
  let (peer_static_public_decrypted, chaining_key, hash) ←
    open_static C v p.static_private p.static_public packet
  if p.peer_static_public ≠ peer_static_public_decrypted then throw .WrongKey
  else
    let hash := b2s_hash C hash packet.encrypted_static
    let temp := b2s_hmac C chaining_key p.static_shared
    let chaining_key := b2s_hmac C temp [1]
    let key := b2s_hmac2 C temp chaining_key [2]
    let timestamp ← aead_chacha20_open C TIMESTAMP_LEN key 0 packet.encrypted_timestamp hash
    match Tai64N.parse timestamp with
    | .error e => throw e
    | .ok timestamp =>
      -- Possibly a replay
      if timestamp.after last = false then throw .WrongTai64nTimestamp
      else
        let hash := b2s_hash C hash packet.encrypted_timestamp
        -- ML-KEM: read ek from packet, mix into hash
        let hash := match mlkem_ek with
          | none => hash
          | some ek => b2s_hash C hash ek
        return { timestamp, chaining_key, hash }

/-- What a responder computes for a response. -/
structure Response where
  unencrypted_ephemeral : Bytes
  encrypted_nothing : Seal
  receiving_key : Bytes
  sending_key : Bytes
  deriving DecidableEq, Repr

/-- The computation of `format_handshake_response` and `format_pq_handshake_response`;
    `kem` is the ML-KEM ciphertext and shared secret. -/
def respond (p : NoiseParams C) (hash chaining_key peer_ephemeral_public ephemeral_private : Bytes)
    (kem : Option (Bytes × Bytes)) : Response :=
  let unencrypted_ephemeral := C.x25519_public ephemeral_private
  let hash := b2s_hash C hash unencrypted_ephemeral
  let temp := b2s_hmac C chaining_key unencrypted_ephemeral
  let chaining_key := b2s_hmac C temp [1]
  -- DH(responder.ephemeral_private, initiator.ephemeral_public)
  let ephemeral_shared := C.x25519 ephemeral_private peer_ephemeral_public
  let temp := b2s_hmac C chaining_key ephemeral_shared
  let chaining_key := b2s_hmac C temp [1]
  -- DH(responder.ephemeral_private, initiator.static_public)
  let temp := b2s_hmac C chaining_key (C.x25519 ephemeral_private p.peer_static_public)
  let chaining_key := b2s_hmac C temp [1]
  -- Mix ML-KEM shared secret into chaining key and ciphertext into hash
  let chaining_key := match kem with
    | none => chaining_key
    | some (_, ss) => b2s_hmac C (b2s_hmac C chaining_key ss) [1]
  let hash := match kem with
    | none => hash
    | some (ct, _) => b2s_hash C hash ct
  let temp := b2s_hmac C chaining_key p.psk
  let chaining_key := b2s_hmac C temp [1]
  let temp2 := b2s_hmac2 C temp chaining_key [2]
  let key := b2s_hmac2 C temp temp2 [3]
  let hash := b2s_hash C hash temp2
  let encrypted_nothing := aead_chacha20_seal C key 0 [] hash
  -- Derive keys
  let temp1 := b2s_hmac C chaining_key []
  let temp2 := b2s_hmac C temp1 [1]
  let temp3 := b2s_hmac2 C temp1 temp2 [2]
  { unencrypted_ephemeral, encrypted_nothing, receiving_key := temp2, sending_key := temp3 }

/-- The computation of `receive_handshake_response` and `receive_pq_handshake_response`
    for a matching slot: receiving and sending key. -/
def complete (p : NoiseParams C) (state : HandshakeInitSentState) (packet : HandshakeResponse)
    (kem : Option (Bytes × Bytes)) : Attempt WireGuardError (Bytes × Bytes) := do
  let unencrypted_ephemeral := packet.unencrypted_ephemeral
  let hash := b2s_hash C state.hash unencrypted_ephemeral
  let temp := b2s_hmac C state.chaining_key unencrypted_ephemeral
  let chaining_key := b2s_hmac C temp [1]
  let ephemeral_shared := C.x25519 state.ephemeral_private unencrypted_ephemeral
  let temp := b2s_hmac C chaining_key ephemeral_shared
  let chaining_key := b2s_hmac C temp [1]
  let temp := b2s_hmac C chaining_key (C.x25519 p.static_private unencrypted_ephemeral)
  let chaining_key := b2s_hmac C temp [1]
  -- Mix ML-KEM shared secret into chaining key and ciphertext into hash
  let chaining_key := match kem with
    | none => chaining_key
    | some (_, ss) => b2s_hmac C (b2s_hmac C chaining_key ss) [1]
  let hash := match kem with
    | none => hash
    | some (ct, _) => b2s_hash C hash ct
  let temp := b2s_hmac C chaining_key p.psk
  let chaining_key := b2s_hmac C temp [1]
  let temp2 := b2s_hmac2 C temp chaining_key [2]
  let key := b2s_hmac2 C temp temp2 [3]
  let hash := b2s_hash C hash temp2
  let _ ← aead_chacha20_open C 0 key 0 packet.encrypted_nothing hash
  let temp1 := b2s_hmac C chaining_key []
  let temp2 := b2s_hmac C temp1 [1]
  let temp3 := b2s_hmac2 C temp1 temp2 [2]
  return (temp3, temp2)

end schedule

/-- The slot of an initiation. -/
def initSent (C : Crypto) (v : Variant) (p : NoiseParams C) (local_index : UInt32)
    (e seed timestamp : Bytes) (time : Nat) : HandshakeInitSentState :=
  let i := initiate C v p e timestamp ((v.keygen C seed).map Prod.snd)
  { local_index := local_index
    hash := i.hash
    chaining_key := i.chaining_key
    ephemeral_private := e
    time_sent := time
    mlkem_decapsulation_key := (v.keygen C seed).map Prod.fst }

/-! ## Section 5: Handshake messages -/

namespace Handshake

variable {C : Crypto}

/-- Compute and append mac1 and mac2 to a handshake message. -/
def append_mac1_and_mac2 (h : Handshake C) (local_index : UInt32) (msg : Bytes) :
    Bytes × Handshake C :=
  let msg_mac1 := b2s_keyed_mac_16 C h.params.sending_mac1_key msg
  let msg_mac2 := match h.cookies.write_cookie with
    | some cookie => b2s_keyed_mac_16 C cookie (msg ++ msg_mac1)
    | none => List.replicate 16 0
  (msg ++ msg_mac1 ++ msg_mac2,
    { h with cookies := { h.cookies with index := local_index, last_mac1 := some msg_mac1 } })

def format_initiation (v : Variant) (h : Handshake C) (dst_len : Nat) (env : Env) :
    Except WireGuardError Bytes × Handshake C × List Event :=
  if dst_len < v.init_size then
    (.error .DestinationBufferTooSmall, h, [])
  else
    let local_index := inc_index h.next_index
    let keypair := v.keygen C env.mlkem_seed
    let timestamp := h.stamper.stamp (env.clock .stamp)
    let i := initiate C v h.params env.ephemeral timestamp (keypair.map Prod.snd)
    let msg := leBytes 4 v.init_type ++ le32 local_index ++ i.unencrypted_ephemeral ++
      i.encrypted_static.ciphertext ++ i.encrypted_timestamp.ciphertext ++
      (keypair.map Prod.snd).getD []
    let h := { h with
      next_index := local_index
      previous := h.state
      state := .InitSent
        { local_index := local_index
          hash := i.hash
          chaining_key := i.chaining_key
          ephemeral_private := env.ephemeral
          time_sent := env.clock .sent
          mlkem_decapsulation_key := keypair.map Prod.fst } }
    let (packet, h) := h.append_mac1_and_mac2 local_index msg
    (.ok packet, h,
      [.generated env.ephemeral,
        .handshake .encrypted_static env.ephemeral i.encrypted_static,
        .handshake .encrypted_timestamp env.ephemeral i.encrypted_timestamp])

def format_handshake_initiation (h : Handshake C) (dst_len : Nat) (env : Env) :
    Except WireGuardError Bytes × Handshake C × List Event :=
  format_initiation .classical h dst_len env

def format_pq_handshake_initiation (h : Handshake C) (dst_len : Nat) (env : Env) :
    Except WireGuardError Bytes × Handshake C × List Event :=
  format_initiation .pq h dst_len env

/-- The initiation of a build. -/
theorem format_initiation_variant (B : Build) (h : Handshake C) (dst_len : Nat) (env : Env) :
    (if B.pq then h.format_pq_handshake_initiation dst_len env
      else h.format_handshake_initiation dst_len env)
        = h.format_initiation B.variant dst_len env := by
  unfold Build.variant
  split <;> rfl

def format_response (v : Variant) (h : Handshake C) (dst_len : Nat) (env : Env) :
    Outcome (Except WireGuardError (Bytes × Session) × Handshake C × List Event) :=
  if dst_len < v.resp_size then
    .ok (.error .DestinationBufferTooSmall, h, [])
  else
    match h.state with
    | .InitReceived hash chaining_key peer_ephemeral_public peer_index mlkem_ek => do
      let local_index := inc_index h.next_index
      let h := { h with state := .None, next_index := local_index }
      match ← (v.encapsulate C mlkem_ek env.mlkem_seed).run with
      | .error e =>
        -- The index is used up and the ephemeral was generated
        return (.error e, h, [.generated env.ephemeral])
      | .ok kem =>
        let r := respond C h.params hash chaining_key peer_ephemeral_public env.ephemeral kem
        let msg := leBytes 4 v.resp_type ++ le32 local_index ++ le32 peer_index ++
          r.unencrypted_ephemeral ++ r.encrypted_nothing.ciphertext ++
            (Option.map Prod.fst kem).getD []
        let (packet, h) := h.append_mac1_and_mac2 local_index msg
        let session := Session.new local_index peer_index r.receiving_key r.sending_key
        return (.ok (packet, session), h,
          [.generated env.ephemeral,
            .handshake .encrypted_nothing env.ephemeral r.encrypted_nothing,
            .established false session.id env.ephemeral])
    | _ =>
      match v with
      | .classical => .panic "Unexpected attempt to call send_handshake_response"
      | .pq => .panic "Unexpected attempt to call format_pq_handshake_response"

def format_handshake_response (h : Handshake C) (dst_len : Nat) (env : Env) :
    Outcome (Except WireGuardError (Bytes × Session) × Handshake C × List Event) :=
  format_response .classical h dst_len env

def format_pq_handshake_response (h : Handshake C) (dst_len : Nat) (env : Env) :
    Outcome (Except WireGuardError (Bytes × Session) × Handshake C × List Event) :=
  format_response .pq h dst_len env

/-- The handshake after the commit of an accepted initiation. -/
def committed (h : Handshake C) (c : Consumed) (packet : HandshakeInit)
    (mlkem_ek : Option Bytes) : Handshake C :=
  { h with
    last_handshake_timestamp := c.timestamp
    previous := h.state
    state := .InitReceived c.hash c.chaining_key packet.unencrypted_ephemeral packet.sender_idx
      mlkem_ek }

def receive_initialization (v : Variant) (h : Handshake C) (packet : HandshakeInit)
    (mlkem_ek : Option Bytes) (dst_len : Nat) (env : Env) :
    Outcome (Except WireGuardError (Bytes × Session) × Handshake C × List Event) := do
  match ← (consume C v h.params h.last_handshake_timestamp packet mlkem_ek).run with
  | .error e => return (.error e, h, [])
  | .ok c => format_response v (h.committed c packet mlkem_ek) dst_len env

def receive_handshake_initialization (h : Handshake C) (packet : HandshakeInit) (dst_len : Nat)
    (env : Env) :
    Outcome (Except WireGuardError (Bytes × Session) × Handshake C × List Event) :=
  receive_initialization .classical h packet none dst_len env

def receive_pq_handshake_initialization (h : Handshake C) (packet : PqHandshakeInit)
    (dst_len : Nat) (env : Env) :
    Outcome (Except WireGuardError (Bytes × Session) × Handshake C × List Event) :=
  receive_initialization .pq h packet.toHandshakeInit (some packet.mlkem_ephemeral_public)
    dst_len env

/-- ML-KEM decapsulation and key schedule for a response: receiving and sending key. -/
def response_keys (v : Variant) (p : NoiseParams C) (state : HandshakeInitSentState)
    (packet : HandshakeResponse) (mlkem_ct : Option Bytes) :
    Attempt WireGuardError (Bytes × Bytes) := do
  let kem ← v.decapsulate C state.mlkem_decapsulation_key mlkem_ct
  complete C p state packet kem

/-- The handshake after an accepted response: the slot is emptied. -/
def answered (h : Handshake C) (is_previous : Bool) (rtt_time : Nat) : Handshake C :=
  { h with
    last_rtt := some (rtt_time / 1000000 % 2 ^ 32)
    previous := if is_previous then .None else h.previous
    state := if is_previous then h.state else .None }

def receive_response (v : Variant) (h : Handshake C) (packet : HandshakeResponse)
    (mlkem_ct : Option Bytes) (env : Env) :
    Outcome (Except WireGuardError Session × Handshake C × List Event) :=
  match response_slot h.state h.previous packet.receiver_idx with
  | none => .ok (.error .UnexpectedPacket, h, [])
  | some (state, is_previous) =>
    -- A classical (type 2) response can never complete a PQ initiation
    if v = .classical ∧ state.mlkem_decapsulation_key.isSome then
      .ok (.error .WrongPacketType, h, [])
    else do
      match ← (response_keys v h.params state packet mlkem_ct).run with
      | .error e => return (.error e, h, [])
      | .ok (receiving_key, sending_key) =>
        let session := Session.new state.local_index packet.sender_idx receiving_key sending_key
        return (.ok session, h.answered is_previous (env.clock .rtt - state.time_sent),
          [.established true session.id state.ephemeral_private])

def receive_handshake_response (h : Handshake C) (packet : HandshakeResponse) (env : Env) :
    Outcome (Except WireGuardError Session × Handshake C × List Event) :=
  receive_response .classical h packet none env

def receive_pq_handshake_response (h : Handshake C) (packet : PqHandshakeResponse) (env : Env) :
    Outcome (Except WireGuardError Session × Handshake C × List Event) :=
  receive_response .pq h packet.toHandshakeResponse (some packet.mlkem_ciphertext) env

def receive_cookie_reply (h : Handshake C) (packet : PacketCookieReply) :
    Except WireGuardError Unit × Handshake C :=
  match h.cookies.last_mac1 with
  | none => (.error .UnexpectedPacket, h)
  | some mac1 =>
    if packet.receiver_idx ≠ h.cookies.index then (.error .WrongIndex, h)
    else
      -- XAEAD(HASH(LABEL_COOKIE || responder.static_public), msg.nonce, cookie, mac1)
      let key := b2s_hash C LABEL_COOKIE h.params.peer_static_public
      match C.xchacha_open key packet.nonce mac1 packet.encrypted_cookie with
      | none => (.error .InvalidAeadTag, h)
      | some cookie =>
        if cookie.length ≠ 16 then (.error .InvalidPacket, h)
        else (.ok (), { h with cookies := { h.cookies with write_cookie := some cookie } })

end Handshake

/-! ## Section 6: Anonymous parsing -/

structure HalfHandshake where
  peer_index : UInt32
  peer_static_public : Bytes
  deriving DecidableEq, Repr

/-- `parse_handshake_anon` and `parse_pq_handshake_anon`: the source repeats
    the first half of `receive_handshake_initialization` here. -/
def parse_anon (C : Crypto) (v : Variant) (static_private static_public : Bytes)
    (packet : HandshakeInit) : Attempt WireGuardError HalfHandshake := do
  let peer_index := packet.sender_idx
  let chaining_key := v.chain_key
  let hash := b2s_hash C v.chain_hash static_public
  let peer_ephemeral_public := packet.unencrypted_ephemeral
  let hash := b2s_hash C hash peer_ephemeral_public
  let chaining_key := b2s_hmac C (b2s_hmac C chaining_key peer_ephemeral_public) [1]
  let ephemeral_shared := C.x25519 static_private peer_ephemeral_public
  let temp := b2s_hmac C chaining_key ephemeral_shared
  let chaining_key := b2s_hmac C temp [1]
  let key := b2s_hmac2 C temp chaining_key [2]
  let peer_static_public ← aead_chacha20_open C KEY_LEN key 0 packet.encrypted_static hash
  return { peer_index, peer_static_public }

def parse_handshake_anon (C : Crypto) (static_private static_public : Bytes)
    (packet : HandshakeInit) : Attempt WireGuardError HalfHandshake :=
  parse_anon C .classical static_private static_public packet

def parse_pq_handshake_anon (C : Crypto) (static_private static_public : Bytes)
    (packet : PqHandshakeInit) : Attempt WireGuardError HalfHandshake :=
  parse_anon C .pq static_private static_public packet.toHandshakeInit

end PqBoringtun
