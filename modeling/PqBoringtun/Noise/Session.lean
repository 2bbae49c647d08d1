import Mathlib.Data.Vector.Basic
import PqBoringtun.Framework.Outcome
import PqBoringtun.Noise.Packet

/-! # Sessions

    Model of `noise/session.rs`: the bitmap replay window
    `ReceivingKeyCounterValidator` and the transport session built on it.

    Every call also returns the ghost events it performed (`Event`): which
    AEAD seals were made, which data packets were opened, which sessions
    were created and which ephemerals were generated.  No function reads
    them.
-/

namespace PqBoringtun

open Bytes

/-! ## Section 1: Replay window -/

def WORD_SIZE : Nat := 64
def N_WORDS : Nat := 16
/-- Suffices to reorder `64 * 16 = 1024` packets. -/
def N_BITS : Nat := WORD_SIZE * N_WORDS

structure ReceivingKeyCounterValidator where
  /-- One more than the highest counter received. -/
  next : Nat
  /-- Used to estimate packet loss. -/
  receive_cnt : Nat
  bitmap : Vector (BitVec 64) 16
  deriving DecidableEq, Repr

/-- `a + b` on `u64`: an overflow panics in a debug build and wraps in a release build. -/
def add_u64 (B : Build) (a b : Nat) : Outcome Nat :=
  if a + b < 2 ^ 64 then .ok (a + b)
  else if B.overflow_checks then .panic "attempt to add with overflow"
  else .ok ((a + b) % 2 ^ 64)

namespace ReceivingKeyCounterValidator

instance : Inhabited ReceivingKeyCounterValidator :=
  ⟨{ next := 0, receive_cnt := 0, bitmap := Vector.replicate 16 0 }⟩

/-- The word that holds the bit of counter `idx`. -/
def word (idx : Nat) : Fin 16 :=
  ⟨idx % N_BITS / WORD_SIZE, by
    have : idx % N_BITS < N_BITS := Nat.mod_lt _ (by decide)
    simp only [N_BITS, WORD_SIZE, N_WORDS] at *
    omega⟩

/-- The position of counter `idx` in its word. -/
def bit (idx : Nat) : Nat := idx % N_BITS % WORD_SIZE

variable (v : ReceivingKeyCounterValidator)

def set_bit (idx : Nat) : ReceivingKeyCounterValidator :=
  { v with bitmap := v.bitmap.set (word idx) (v.bitmap[word idx] ||| 1#64 <<< bit idx) }

def clear_bit (idx : Nat) : ReceivingKeyCounterValidator :=
  { v with bitmap := v.bitmap.set (word idx) (v.bitmap[word idx] &&& ~~~(1#64 <<< bit idx)) }

/-- Clear the word that contains `idx`. -/
def clear_word (idx : Nat) : ReceivingKeyCounterValidator :=
  { v with bitmap := v.bitmap.set (word idx) 0 }

def check_bit (idx : Nat) : Bool :=
  (v.bitmap[word idx] >>> bit idx) &&& 1#64 == 1#64

theorem check_bit_eq (idx : Nat) : v.check_bit idx = v.bitmap[word idx].getLsbD (bit idx) := by
  rw [check_bit, Bool.eq_iff_iff, beq_iff_eq]
  constructor
  · intro h
    have := congrArg (fun w => BitVec.getLsbD w 0) h
    simpa [BitVec.getLsbD_and, BitVec.getLsbD_ushiftRight] using this
  · intro h
    apply BitVec.eq_of_getLsbD_eq
    intro i hi
    cases i with
    | zero => simpa [BitVec.getLsbD_and, BitVec.getLsbD_ushiftRight] using h
    | succ i => simp [BitVec.getLsbD_one]

/-- Returns ok if the counter was not yet received, and is not too far back. -/
def will_accept (B : Build) (counter : Nat) : Outcome (Except WireGuardError Unit) :=
  if v.next ≤ counter then
    -- As long as the counter is growing no replay took place for sure
    .ok (.ok ())
  else do
    let far ← add_u64 B counter N_BITS
    if far < v.next then
      -- Drop if too far back
      return .error .InvalidCounter
    else if !v.check_bit counter then
      return .ok ()
    else
      return .error .DuplicateCounter

/-- `while i % WORD_SIZE != 0 && i < counter`: clear until `i` is aligned to
    a word.  `fuel` bounds the iterations; `counter - i` is enough. -/
def clear_until_aligned (counter : Nat) :
    Nat → Nat → ReceivingKeyCounterValidator → ReceivingKeyCounterValidator × Nat
  | 0, i, v => (v, i)
  | fuel + 1, i, v =>
    if i % WORD_SIZE ≠ 0 ∧ i < counter then
      clear_until_aligned counter fuel (i + 1) (v.clear_bit i)
    else (v, i)

/-- `while i + WORD_SIZE < counter`: clear whole words. -/
def clear_words (counter : Nat) :
    Nat → Nat → ReceivingKeyCounterValidator → ReceivingKeyCounterValidator × Nat
  | 0, i, v => (v, i)
  | fuel + 1, i, v =>
    if i + WORD_SIZE < counter then
      -- (i + WORD_SIZE) & 0u64.wrapping_sub(WORD_SIZE)
      clear_words counter fuel ((i + WORD_SIZE) &&& (2 ^ 64 - WORD_SIZE)) (v.clear_word i)
    else (v, i)

/-- `while i < counter`: clear any remaining bits. -/
def clear_remaining (counter : Nat) :
    Nat → Nat → ReceivingKeyCounterValidator → ReceivingKeyCounterValidator × Nat
  | 0, i, v => (v, i)
  | fuel + 1, i, v =>
    if i < counter then
      clear_remaining counter fuel (i + 1) (v.clear_bit i)
    else (v, i)

/-- The three clearing loops, from `next` up to `counter`. -/
def clear_skipped (counter : Nat) : ReceivingKeyCounterValidator :=
  let (v₁, i₁) := clear_until_aligned counter (counter - v.next) v.next v
  let (v₂, i₂) := clear_words counter (counter - i₁) i₁ v₁
  (clear_remaining counter (counter - i₂) i₂ v₂).1

/-- Marks the counter as received, and returns ok if it is still good (in
    case during decryption something changed).

    When the loops run, `counter - next < N_BITS` and the first addition
    did not wrap, so no addition inside them overflows. -/
def mark_did_receive (B : Build) (counter : Nat) :
    Outcome (Except WireGuardError Unit × ReceivingKeyCounterValidator) := do
  let far ← add_u64 B counter N_BITS
  if far < v.next then
    -- Drop if too far back
    return (.error .InvalidCounter, v)
  else if counter = v.next then
    -- Usually the packets arrive in order, in that case we simply mark the
    -- bit and increment the counter
    let next ← add_u64 B v.next 1
    return (.ok (), { v.set_bit counter with next := next })
  else if counter < v.next then
    -- A packet arrived out of order, check if it is valid, and mark
    if v.check_bit counter then
      return (.error .InvalidCounter, v)
    else
      return (.ok (), v.set_bit counter)
  else
    -- Packets where dropped, or maybe reordered, skip them and mark unused
    let cleared :=
      if N_BITS ≤ counter - v.next then { v with bitmap := Vector.replicate 16 0 }
      else v.clear_skipped counter
    let next ← add_u64 B counter 1
    return (.ok (), { cleared.set_bit counter with next := next })

end ReceivingKeyCounterValidator

/-! ## Section 2: Sessions and ghost events -/

/-- Where encrypted data resides in a data packet. -/
def DATA_OFFSET : Nat := 16
/-- The overhead of the AEAD. -/
def AEAD_SIZE : Nat := 16

structure Session where
  receiving_index : UInt32
  sending_index : UInt32
  receiver : Bytes
  sender : Bytes
  sending_key_counter : Nat
  receiving_key_counter : ReceivingKeyCounterValidator
  deriving DecidableEq, Repr

/-- What stays fixed during the life of a session. -/
structure SessionId where
  receiving_index : UInt32
  sending_index : UInt32
  receiver : Bytes
  sender : Bytes
  deriving DecidableEq, Repr

/-- One ChaCha20-Poly1305 seal. -/
structure Seal where
  key : Bytes
  nonce : Bytes
  aad : Bytes
  plaintext : Bytes
  ciphertext : Bytes
  deriving DecidableEq, Repr

/-- The receiver of a seal gets its plaintext. -/
def Seal.Opens (C : Crypto) (x : Seal) : Prop :=
  C.chacha_open x.key x.nonce x.aad x.ciphertext = some x.plaintext

/-- Ideal encryption: the ciphertext opens only under the key, the nonce and the associated
    data it was sealed with, and to its plaintext. -/
def Seal.Binding (C : Crypto) (x : Seal) : Prop :=
  ∀ k n ad pt, C.chacha_open k n ad x.ciphertext = some pt →
    k = x.key ∧ n = x.nonce ∧ ad = x.aad ∧ pt = x.plaintext

/-- The encrypted fields of handshake messages. -/
inductive HandshakeField where
  | encrypted_static
  | encrypted_timestamp
  | encrypted_nothing
  deriving DecidableEq, Repr

/-- Ghost events of a call. -/
inductive Event where
  /-- An X25519 ephemeral secret was generated. -/
  | generated (ephemeral : Bytes)
  /-- A handshake field was sealed, in a message with this own ephemeral. -/
  | handshake (field : HandshakeField) (ephemeral : Bytes) (s : Seal)
  /-- A data packet was sealed on a session under a counter. -/
  | data (id : SessionId) (counter : Nat) (s : Seal)
  /-- A data packet was opened on a session and its counter accepted. -/
  | opened (id : SessionId) (counter : Nat) (plaintext ciphertext : Bytes)
  /-- A session was created, as initiator or responder, with this own ephemeral. -/
  | established (initiator : Bool) (id : SessionId) (ephemeral : Bytes)
  deriving DecidableEq, Repr

namespace Session

def id (s : Session) : SessionId :=
  { receiving_index := s.receiving_index
    sending_index := s.sending_index
    receiver := s.receiver
    sender := s.sender }

def new (local_index peer_index : UInt32) (receiving_key sending_key : Bytes) : Session where
  receiving_index := local_index
  sending_index := peer_index
  receiver := receiving_key
  sender := sending_key
  sending_key_counter := 0
  receiving_key_counter := default

def local_index (s : Session) : Nat := s.receiving_index.toNat

/-- Returns ok if receiving counter is good to use. -/
def receiving_counter_quick_check (B : Build) (s : Session) (counter : Nat) :
    Outcome (Except WireGuardError Unit) :=
  s.receiving_key_counter.will_accept B counter

/-- Returns ok if receiving counter is good to use, and marks it as used. -/
def receiving_counter_mark (B : Build) (s : Session) (counter : Nat) :
    Outcome (Except WireGuardError Unit × Session) := do
  let (ret, v) ← s.receiving_key_counter.mark_did_receive B counter
  match ret with
  | .ok () =>
    return (.ok (), { s with
      receiving_key_counter := { v with receive_cnt := v.receive_cnt + 1 } })
  | .error e => return (.error e, { s with receiving_key_counter := v })

/-- The seal `format_packet_data` performs on `src` under the current counter. -/
def packet_seal (C : Crypto) (s : Session) (src : Bytes) : Seal where
  key := s.sender
  nonce := nonce_of_counter s.sending_key_counter
  aad := []
  plaintext := src
  ciphertext := C.chacha_seal s.sender (nonce_of_counter s.sending_key_counter) [] src

/-- The session after a seal.  The counter is an `AtomicUsize` and wraps. -/
def sent (B : Build) (s : Session) : Session :=
  { s with sending_key_counter := (s.sending_key_counter + 1) % 2 ^ B.usize_bits }

/-- `src` - an IP packet from the interface; `dst_len` - the space for the
    encapsulating UDP packet. -/
def format_packet_data (C : Crypto) (B : Build) (s : Session) (src : Bytes) (dst_len : Nat) :
    Outcome (Bytes × Session × List Event) :=
  if dst_len < src.length + DATA_OVERHEAD_SZ then
    .panic "The destination buffer is too small"
  else
    let sending_key_counter := s.sending_key_counter
    let sealed := s.packet_seal C src
    .ok (leBytes 4 DATA ++ le32 s.sending_index ++ leBytes 8 sending_key_counter ++
      sealed.ciphertext,
      s.sent B, [.data s.id sending_key_counter sealed])

/-- Decrypt a data packet we received from the network. -/
def receive_packet_data (C : Crypto) (B : Build) (s : Session) (packet : PacketData)
    (dst_len : Nat) : Outcome (Except WireGuardError Bytes × Session × List Event) :=
  if dst_len < packet.encrypted_encapsulated_packet.length then
    -- This is a very incorrect use of the library, therefore panic and not error
    .panic "The destination buffer is too small"
  else if packet.receiver_idx ≠ s.receiving_index then
    .ok (.error .WrongIndex, s, [])
  else do
    -- Don't reuse counters, in case this is a replay attack we want to
    -- quickly check the counter without running expensive decryption
    match ← s.receiving_counter_quick_check B packet.counter with
    | .error e => return (.error e, s, [])
    | .ok () =>
      match C.chacha_open s.receiver (nonce_of_counter packet.counter) []
          packet.encrypted_encapsulated_packet with
      | none => return (.error .InvalidAeadTag, s, [])
      | some ret =>
        -- After decryption is done, check counter again, and mark as received
        match ← s.receiving_counter_mark B packet.counter with
        | (.error e, s') => return (.error e, s', [])
        | (.ok (), s') =>
          return (.ok ret, s',
            [.opened s.id packet.counter ret packet.encrypted_encapsulated_packet])

/-- Expected and received packets, for the loss estimate. -/
def current_packet_cnt (s : Session) : Nat × Nat :=
  (s.receiving_key_counter.next, s.receiving_key_counter.receive_cnt)

/-! ## Section 3: What the two packet functions do -/

@[simp] theorem id_new (l p : UInt32) (r k : Bytes) : (new l p r k).id = ⟨l, p, r, k⟩ := rfl

@[simp] theorem id_sent (B : Build) (s : Session) : (s.sent B).id = s.id := rfl

/-- A packet was formatted: the buffer was large enough. -/
theorem format_packet_data_ok {C : Crypto} {B : Build} {s s' : Session} {src packet : Bytes}
    {dst_len : Nat} {evs : List Event}
    (h : s.format_packet_data C B src dst_len = .ok (packet, s', evs)) :
    s' = s.sent B ∧ evs = [.data s.id s.sending_key_counter (s.packet_seal C src)] := by
  unfold format_packet_data at h
  split at h
  · cases h
  · cases h
    exact ⟨rfl, rfl⟩

/-- It is a data packet. -/
theorem format_packet_data_type {C : Crypto} {B : Build} {s s' : Session} {src packet : Bytes}
    {dst_len : Nat} {evs : List Event}
    (h : s.format_packet_data C B src dst_len = .ok (packet, s', evs)) :
    ∃ rest, packet = leBytes 4 DATA ++ rest := by
  unfold format_packet_data at h
  split at h
  · cases h
  · cases h
    simp only [List.append_assoc]
    exact ⟨_, rfl⟩

end Session

/-- A rejected counter leaves the window as it was. -/
theorem ReceivingKeyCounterValidator.mark_did_receive_error {B : Build}
    {v v' : ReceivingKeyCounterValidator} {counter : Nat} {e : WireGuardError}
    (h : v.mark_did_receive B counter = .ok (.error e, v')) : v' = v := by
  unfold mark_did_receive at h
  obtain ⟨far, _, h⟩ := Outcome.bind_eq_ok.mp h
  split at h
  · cases h
    rfl
  split at h
  · obtain ⟨next, _, h⟩ := Outcome.bind_eq_ok.mp h
    cases h
  split at h
  · split at h
    · cases h
      rfl
    · cases h
  · obtain ⟨next, _, h⟩ := Outcome.bind_eq_ok.mp h
    cases h

namespace Session

/-- The session after a counter was accepted. -/
def received (s : Session) (v : ReceivingKeyCounterValidator) : Session :=
  { s with receiving_key_counter := { v with receive_cnt := v.receive_cnt + 1 } }

@[simp] theorem id_received (s : Session) (v : ReceivingKeyCounterValidator) :
    (s.received v).id = s.id := rfl

/-- A packet was accepted by a session, with this plaintext and new window. -/
structure Accepts (C : Crypto) (B : Build) (s : Session) (packet : PacketData)
    (plaintext : Bytes) (v : ReceivingKeyCounterValidator) : Prop where
  index : packet.receiver_idx = s.receiving_index
  opened : C.chacha_open s.receiver (nonce_of_counter packet.counter) []
    packet.encrypted_encapsulated_packet = some plaintext
  marked : s.receiving_key_counter.mark_did_receive B packet.counter = .ok (.ok (), v)

/-- **What receiving a data packet does**: an error changes nothing, and a
    success marks the counter. -/
theorem receive_packet_data_cases {C : Crypto} {B : Build} {s s' : Session}
    {packet : PacketData} {dst_len : Nat} {r : Except WireGuardError Bytes} {evs : List Event}
    (h : s.receive_packet_data C B packet dst_len = .ok (r, s', evs)) :
    (∃ e, r = .error e ∧ s' = s ∧ evs = []) ∨
      ∃ plaintext v, r = .ok plaintext ∧ s.Accepts C B packet plaintext v ∧
        s' = s.received v ∧
        evs = [.opened s.id packet.counter plaintext packet.encrypted_encapsulated_packet] := by
  unfold receive_packet_data at h
  split at h
  · cases h
  split at h
  · cases h
    exact Or.inl ⟨_, rfl, rfl, rfl⟩
  rename_i hidx
  obtain ⟨check, _, h⟩ := Outcome.bind_eq_ok.mp h
  cases check with
  | error e =>
    cases h
    exact Or.inl ⟨_, rfl, rfl, rfl⟩
  | ok u =>
    cases hopen : C.chacha_open s.receiver (nonce_of_counter packet.counter) []
        packet.encrypted_encapsulated_packet with
    | none =>
      rw [hopen] at h
      cases h
      exact Or.inl ⟨_, rfl, rfl, rfl⟩
    | some plaintext =>
      rw [hopen] at h
      obtain ⟨⟨ret, s₁⟩, hmark, h⟩ := Outcome.bind_eq_ok.mp h
      obtain ⟨⟨ret', v⟩, hv, hmark⟩ := Outcome.bind_eq_ok.mp hmark
      cases ret' with
      | error e =>
        cases hmark
        cases h
        have hsame := ReceivingKeyCounterValidator.mark_did_receive_error hv
        exact Or.inl ⟨_, rfl, by rw [hsame], rfl⟩
      | ok u =>
        cases hmark
        cases h
        exact Or.inr ⟨plaintext, v, rfl, ⟨not_not.mp hidx, hopen, hv⟩, rfl, rfl⟩

end Session

end PqBoringtun
