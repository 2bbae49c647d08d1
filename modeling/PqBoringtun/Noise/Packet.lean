import PqBoringtun.Noise.Crypto

/-! # Datagrams

    The message types of `noise/mod.rs`, their sizes, the parsed packets and
    `Tunn::parse_incoming_packet`.
-/

namespace PqBoringtun

open Bytes

inductive WireGuardError where
  | DestinationBufferTooSmall
  | IncorrectPacketLength
  | UnexpectedPacket
  | WrongPacketType
  | WrongIndex
  | WrongKey
  | InvalidTai64nTimestamp
  | WrongTai64nTimestamp
  | InvalidMac
  | InvalidAeadTag
  | InvalidCounter
  | DuplicateCounter
  | InvalidPacket
  | NoCurrentSession
  | LockFailed
  | ConnectionExpired
  | UnderLoad
  | MlKemDecapsulationFailed
  deriving DecidableEq, Repr

/-! ## Section 1: Message types and sizes -/

def HANDSHAKE_INIT : Nat := 1
def HANDSHAKE_RESP : Nat := 2
def COOKIE_REPLY : Nat := 3
def DATA : Nat := 4
def PQ_HANDSHAKE_INIT : Nat := 5
def PQ_HANDSHAKE_RESP : Nat := 6

def HANDSHAKE_INIT_SZ : Nat := 148
def HANDSHAKE_RESP_SZ : Nat := 92
def COOKIE_REPLY_SZ : Nat := 64
def DATA_OVERHEAD_SZ : Nat := 32
def MLKEM768_PK_SIZE : Nat := 1184
def MLKEM768_CT_SIZE : Nat := 1088
def PQ_HANDSHAKE_INIT_SZ : Nat := 1332
def PQ_HANDSHAKE_RESP_SZ : Nat := 1180

/-- `u32::to_le_bytes`. -/
def le32 (i : UInt32) : Bytes := leBytes 4 i.toNat

/-- `u32::from_le_bytes`. -/
def u32_from_le (bs : Bytes) : UInt32 := UInt32.ofNat (leValue bs)

@[simp] theorem length_le32 (i : UInt32) : (le32 i).length = 4 := by simp [le32]

@[simp] theorem u32_from_le_le32 (i : UInt32) : u32_from_le (le32 i) = i := by
  have hi : i.toNat < 256 ^ 4 := i.toNat_lt
  rw [u32_from_le, le32, leValue_leBytes, Nat.mod_eq_of_lt hi]
  simp

/-! ## Section 2: Packets

    The handshake packets carry the lengths of their fields: the slices are
    cut from datagrams of one fixed size. -/

structure HandshakeInit where
  sender_idx : UInt32
  unencrypted_ephemeral : Bytes
  encrypted_static : Bytes
  encrypted_timestamp : Bytes
  ephemeral_length : unencrypted_ephemeral.length = 32
  static_length : encrypted_static.length = 48
  timestamp_length : encrypted_timestamp.length = 28
  deriving DecidableEq, Repr

structure HandshakeResponse where
  sender_idx : UInt32
  receiver_idx : UInt32
  unencrypted_ephemeral : Bytes
  encrypted_nothing : Bytes
  ephemeral_length : unencrypted_ephemeral.length = 32
  nothing_length : encrypted_nothing.length = 16
  deriving DecidableEq, Repr

structure PacketCookieReply where
  receiver_idx : UInt32
  nonce : Bytes
  encrypted_cookie : Bytes
  deriving DecidableEq, Repr

structure PacketData where
  receiver_idx : UInt32
  counter : Nat
  encrypted_encapsulated_packet : Bytes
  deriving DecidableEq, Repr

/-- The fields of a classical initiation and an ML-KEM encapsulation key. -/
structure PqHandshakeInit extends HandshakeInit where
  mlkem_ephemeral_public : Bytes
  mlkem_length : mlkem_ephemeral_public.length = MLKEM768_PK_SIZE
  deriving DecidableEq, Repr

/-- The fields of a classical response and an ML-KEM ciphertext. -/
structure PqHandshakeResponse extends HandshakeResponse where
  mlkem_ciphertext : Bytes
  mlkem_length : mlkem_ciphertext.length = MLKEM768_CT_SIZE
  deriving DecidableEq, Repr

/-- Describes a packet from network. -/
inductive Packet where
  | HandshakeInit (p : HandshakeInit)
  | HandshakeResponse (p : HandshakeResponse)
  | PacketCookieReply (p : PacketCookieReply)
  | PacketData (p : PacketData)
  | PqHandshakeInit (p : PqHandshakeInit)
  | PqHandshakeResponse (p : PqHandshakeResponse)
  deriving DecidableEq, Repr

/-! ## Section 3: Addresses, results and parsing -/

inductive IpAddr where
  | V4 (addr : BitVec 32)
  | V6 (addr : BitVec 128)
  deriving DecidableEq, Repr

/-- What a tunnel asks its caller to do. -/
inductive TunnResult where
  | Done
  | Err (e : WireGuardError)
  | WriteToNetwork (packet : Bytes)
  | WriteToTunnelV4 (packet : Bytes) (addr : BitVec 32)
  | WriteToTunnelV6 (packet : Bytes) (addr : BitVec 128)
  deriving DecidableEq, Repr

/-- `Tunn::parse_incoming_packet`.  The two PQ arms exist in `pq` builds only. -/
def parse_incoming_packet (B : Build) (src : Bytes) : Except WireGuardError Packet :=
  if src.length < 4 then
    .error .InvalidPacket
  else
    -- Checks the type, as well as the reserved zero fields
    let packet_type := leValue (slice src 0 4)
    if h : packet_type = HANDSHAKE_INIT ∧ src.length = HANDSHAKE_INIT_SZ then
      .ok (.HandshakeInit
        { sender_idx := u32_from_le (slice src 4 8)
          unencrypted_ephemeral := slice src 8 40
          encrypted_static := slice src 40 88
          encrypted_timestamp := slice src 88 116
          ephemeral_length := length_slice_of_le (by rw [h.2]; decide)
          static_length := length_slice_of_le (by rw [h.2]; decide)
          timestamp_length := length_slice_of_le (by rw [h.2]; decide) })
    else if h : packet_type = HANDSHAKE_RESP ∧ src.length = HANDSHAKE_RESP_SZ then
      .ok (.HandshakeResponse
        { sender_idx := u32_from_le (slice src 4 8)
          receiver_idx := u32_from_le (slice src 8 12)
          unencrypted_ephemeral := slice src 12 44
          encrypted_nothing := slice src 44 60
          ephemeral_length := length_slice_of_le (by rw [h.2]; decide)
          nothing_length := length_slice_of_le (by rw [h.2]; decide) })
    else if packet_type = COOKIE_REPLY ∧ src.length = COOKIE_REPLY_SZ then
      .ok (.PacketCookieReply
        { receiver_idx := u32_from_le (slice src 4 8)
          nonce := slice src 8 32
          encrypted_cookie := slice src 32 64 })
    else if packet_type = DATA ∧ DATA_OVERHEAD_SZ ≤ src.length then
      .ok (.PacketData
        { receiver_idx := u32_from_le (slice src 4 8)
          counter := leValue (slice src 8 16)
          encrypted_encapsulated_packet := src.drop 16 })
    else if h : B.pq = true ∧ packet_type = PQ_HANDSHAKE_INIT ∧
        src.length = PQ_HANDSHAKE_INIT_SZ then
      .ok (.PqHandshakeInit
        { sender_idx := u32_from_le (slice src 4 8)
          unencrypted_ephemeral := slice src 8 40
          encrypted_static := slice src 40 88
          encrypted_timestamp := slice src 88 116
          mlkem_ephemeral_public := slice src 116 (116 + MLKEM768_PK_SIZE)
          ephemeral_length := length_slice_of_le (by rw [h.2.2]; decide)
          static_length := length_slice_of_le (by rw [h.2.2]; decide)
          timestamp_length := length_slice_of_le (by rw [h.2.2]; decide)
          mlkem_length := by
            rw [length_slice_of_le (by rw [h.2.2]; decide), Nat.add_sub_cancel_left] })
    else if h : B.pq = true ∧ packet_type = PQ_HANDSHAKE_RESP ∧
        src.length = PQ_HANDSHAKE_RESP_SZ then
      .ok (.PqHandshakeResponse
        { sender_idx := u32_from_le (slice src 4 8)
          receiver_idx := u32_from_le (slice src 8 12)
          unencrypted_ephemeral := slice src 12 44
          encrypted_nothing := slice src 44 60
          mlkem_ciphertext := slice src 60 (60 + MLKEM768_CT_SIZE)
          ephemeral_length := length_slice_of_le (by rw [h.2.2]; decide)
          nothing_length := length_slice_of_le (by rw [h.2.2]; decide)
          mlkem_length := by
            rw [length_slice_of_le (by rw [h.2.2]; decide), Nat.add_sub_cancel_left] })
    else
      .error .InvalidPacket

end PqBoringtun
