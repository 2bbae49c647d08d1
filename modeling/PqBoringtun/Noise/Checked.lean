import PqBoringtun.Framework.Buffer
import PqBoringtun.Noise.Encoding

/-! # The receive path with its bounds checks

    The model cuts slices and concatenates messages.  The source works on
    slices and buffers: a range, a split, a copy or a conversion to an array
    that does not fit panics.  Here are the functions behind `decapsulate`
    with these checks written out, under the same names in the namespace
    `Checked`; a destination buffer is now the bytes it holds.

    Each function is shown to be the one of the model.  What is left out are
    checks of arrays, whose length is part of their type in the source (the
    keys of the primitives among them).

    * Section 1: parsing.
    * Section 2: the rate limiter.
    * Section 3: handshake messages.
    * Section 4: data packets.
    * Section 5: `decapsulate`.
-/

namespace PqBoringtun.Checked

open Bytes

variable {C : Crypto} {B : Build}

/-! ## Section 1: Parsing -/

/-- `u32::from_le_bytes(src[lo..hi].try_into().unwrap())` -/
def read_u32 (src : Bytes) (lo hi : Nat) : Outcome Nat := do
  let bytes ← src.range lo hi
  let array ← bytes.val.try_into 4 "called Result::unwrap() on an Err value"
  return leValue array

/-- `u64::from_le_bytes(src[lo..hi].try_into().unwrap())` -/
def read_u64 (src : Bytes) (lo hi : Nat) : Outcome Nat := do
  let bytes ← src.range lo hi
  let array ← bytes.val.try_into 8 "called Result::unwrap() on an Err value"
  return leValue array

/-- `<&[u8; 32]>::try_from(&src[lo..hi]).expect("length already checked above")` -/
def read_key (src : Bytes) (lo hi : Nat) : Outcome { k : Bytes // k.length = 32 } := do
  let bytes ← src.range lo hi
  bytes.val.try_into 32 "length already checked above"

def parse_incoming_packet (B : Build) (src : Bytes) : Outcome (Except WireGuardError Packet) :=
  if src.length < 4 then
    .ok (.error .InvalidPacket)
  else do
    -- Checks the type, as well as the reserved zero fields
    let packet_type ← read_u32 src 0 4
    if packet_type = HANDSHAKE_INIT ∧ src.length = HANDSHAKE_INIT_SZ then
      let sender_idx ← read_u32 src 4 8
      let unencrypted_ephemeral ← read_key src 8 40
      let encrypted_static ← src.range 40 88
      let encrypted_timestamp ← src.range 88 116
      return .ok (.HandshakeInit
        { sender_idx := UInt32.ofNat sender_idx
          unencrypted_ephemeral := unencrypted_ephemeral
          encrypted_static := encrypted_static
          encrypted_timestamp := encrypted_timestamp
          ephemeral_length := unencrypted_ephemeral.property
          static_length := encrypted_static.property
          timestamp_length := encrypted_timestamp.property })
    else if packet_type = HANDSHAKE_RESP ∧ src.length = HANDSHAKE_RESP_SZ then
      let sender_idx ← read_u32 src 4 8
      let receiver_idx ← read_u32 src 8 12
      let unencrypted_ephemeral ← read_key src 12 44
      let encrypted_nothing ← src.range 44 60
      return .ok (.HandshakeResponse
        { sender_idx := UInt32.ofNat sender_idx
          receiver_idx := UInt32.ofNat receiver_idx
          unencrypted_ephemeral := unencrypted_ephemeral
          encrypted_nothing := encrypted_nothing
          ephemeral_length := unencrypted_ephemeral.property
          nothing_length := encrypted_nothing.property })
    else if packet_type = COOKIE_REPLY ∧ src.length = COOKIE_REPLY_SZ then
      let receiver_idx ← read_u32 src 4 8
      let nonce ← src.range 8 32
      let encrypted_cookie ← src.range 32 64
      return .ok (.PacketCookieReply
        { receiver_idx := UInt32.ofNat receiver_idx
          nonce := nonce
          encrypted_cookie := encrypted_cookie })
    else if packet_type = DATA ∧ DATA_OVERHEAD_SZ ≤ src.length then
      let receiver_idx ← read_u32 src 4 8
      let counter ← read_u64 src 8 16
      let encrypted_encapsulated_packet ← src.range 16 src.length
      return .ok (.PacketData
        { receiver_idx := UInt32.ofNat receiver_idx
          counter := counter
          encrypted_encapsulated_packet := encrypted_encapsulated_packet })
    else if B.pq = true ∧ packet_type = PQ_HANDSHAKE_INIT ∧ src.length = PQ_HANDSHAKE_INIT_SZ then
      let sender_idx ← read_u32 src 4 8
      let unencrypted_ephemeral ← read_key src 8 40
      let encrypted_static ← src.range 40 88
      let encrypted_timestamp ← src.range 88 116
      let mlkem_ephemeral_public ← src.range 116 (116 + MLKEM768_PK_SIZE)
      return .ok (.PqHandshakeInit
        { sender_idx := UInt32.ofNat sender_idx
          unencrypted_ephemeral := unencrypted_ephemeral
          encrypted_static := encrypted_static
          encrypted_timestamp := encrypted_timestamp
          mlkem_ephemeral_public := mlkem_ephemeral_public
          ephemeral_length := unencrypted_ephemeral.property
          static_length := encrypted_static.property
          timestamp_length := encrypted_timestamp.property
          mlkem_length := by rw [mlkem_ephemeral_public.property, Nat.add_sub_cancel_left] })
    else if B.pq = true ∧ packet_type = PQ_HANDSHAKE_RESP ∧ src.length = PQ_HANDSHAKE_RESP_SZ then
      let sender_idx ← read_u32 src 4 8
      let receiver_idx ← read_u32 src 8 12
      let unencrypted_ephemeral ← read_key src 12 44
      let encrypted_nothing ← src.range 44 60
      let mlkem_ciphertext ← src.range 60 (60 + MLKEM768_CT_SIZE)
      return .ok (.PqHandshakeResponse
        { sender_idx := UInt32.ofNat sender_idx
          receiver_idx := UInt32.ofNat receiver_idx
          unencrypted_ephemeral := unencrypted_ephemeral
          encrypted_nothing := encrypted_nothing
          mlkem_ciphertext := mlkem_ciphertext
          ephemeral_length := unencrypted_ephemeral.property
          nothing_length := encrypted_nothing.property
          mlkem_length := by rw [mlkem_ciphertext.property, Nat.add_sub_cancel_left] })
    else
      return .error .InvalidPacket

/-- A range that is as long as the array is read. -/
theorem read_array_ok {α : Type} {src : Bytes} {lo hi n : Nat} (hle : lo + n = hi)
    (hhi : hi ≤ src.length) (msg : String) (value : Bytes → α) :
    (do
      let bytes ← src.range lo hi
      let array ← bytes.val.try_into n msg
      return value array : Outcome α) = .ok (value (slice src lo hi)) := by
  have hlen : (slice src lo hi).length = n := by
    rw [length_slice_of_le hhi]
    omega
  rw [range_ok (by omega) hhi, Outcome.ok_bind, try_into_ok hlen]
  rfl

theorem read_u32_ok {src : Bytes} {lo hi : Nat} (hle : lo + 4 = hi) (hhi : hi ≤ src.length) :
    read_u32 src lo hi = .ok (leValue (slice src lo hi)) := read_array_ok hle hhi _ leValue

theorem read_u64_ok {src : Bytes} {lo hi : Nat} (hle : lo + 8 = hi) (hhi : hi ≤ src.length) :
    read_u64 src lo hi = .ok (leValue (slice src lo hi)) := read_array_ok hle hhi _ leValue

theorem read_key_ok {src : Bytes} {lo hi : Nat} (hle : lo + 32 = hi) (hhi : hi ≤ src.length)
    (hlen : (slice src lo hi).length = 32) : read_key src lo hi = .ok ⟨slice src lo hi, hlen⟩ := by
  rw [read_key, range_ok (by omega) hhi, Outcome.ok_bind, try_into_ok hlen]

/-- **Parsing never panics.** -/
theorem parse_incoming_packet_eq (B : Build) (src : Bytes) :
    parse_incoming_packet B src = .ok (PqBoringtun.parse_incoming_packet B src) := by
  unfold parse_incoming_packet PqBoringtun.parse_incoming_packet
  by_cases hshort : src.length < 4
  · rw [if_pos hshort, if_pos hshort]
  rw [if_neg hshort, if_neg hshort, read_u32_ok rfl (by omega), Outcome.ok_bind]
  dsimp only
  by_cases hinit : leValue (slice src 0 4) = HANDSHAKE_INIT ∧ src.length = HANDSHAKE_INIT_SZ
  · have hlen : src.length = 148 := hinit.2
    rw [if_pos hinit, dif_pos hinit, read_u32_ok rfl (by omega), Outcome.ok_bind,
      read_key_ok rfl (by omega) (length_slice_of_le (by omega)), Outcome.ok_bind,
      range_ok (by omega) (by omega), Outcome.ok_bind, range_ok (by omega) (by omega)]
    rfl
  rw [if_neg hinit, dif_neg hinit]
  by_cases hresp : leValue (slice src 0 4) = HANDSHAKE_RESP ∧ src.length = HANDSHAKE_RESP_SZ
  · have hlen : src.length = 92 := hresp.2
    rw [if_pos hresp, dif_pos hresp, read_u32_ok rfl (by omega), Outcome.ok_bind,
      read_u32_ok rfl (by omega), Outcome.ok_bind,
      read_key_ok rfl (by omega) (length_slice_of_le (by omega)), Outcome.ok_bind,
      range_ok (by omega) (by omega)]
    rfl
  rw [if_neg hresp, dif_neg hresp]
  by_cases hcookie : leValue (slice src 0 4) = COOKIE_REPLY ∧ src.length = COOKIE_REPLY_SZ
  · have hlen : src.length = 64 := hcookie.2
    rw [if_pos hcookie, if_pos hcookie, read_u32_ok rfl (by omega), Outcome.ok_bind,
      range_ok (by omega) (by omega), Outcome.ok_bind, range_ok (by omega) (by omega)]
    rfl
  rw [if_neg hcookie, if_neg hcookie]
  by_cases hdata : leValue (slice src 0 4) = DATA ∧ DATA_OVERHEAD_SZ ≤ src.length
  · have hlen : 32 ≤ src.length := hdata.2
    have hrest : slice src 16 src.length = src.drop 16 := by
      rw [slice, List.take_of_length_le (by rw [List.length_drop])]
    rw [if_pos hdata, if_pos hdata, read_u32_ok rfl (by omega), Outcome.ok_bind,
      read_u64_ok rfl (by omega), Outcome.ok_bind, range_ok (by omega) (Nat.le_refl _),
      Outcome.ok_bind]
    dsimp only
    rw [hrest]
    rfl
  rw [if_neg hdata, if_neg hdata]
  by_cases hpq : B.pq = true ∧ leValue (slice src 0 4) = PQ_HANDSHAKE_INIT ∧
      src.length = PQ_HANDSHAKE_INIT_SZ
  · have hlen : src.length = 1332 := hpq.2.2
    have hek : 116 + MLKEM768_PK_SIZE = 1300 := rfl
    rw [if_pos hpq, dif_pos hpq, read_u32_ok rfl (by omega), Outcome.ok_bind,
      read_key_ok rfl (by omega) (length_slice_of_le (by omega)), Outcome.ok_bind,
      range_ok (by omega) (by omega), Outcome.ok_bind, range_ok (by omega) (by omega),
      Outcome.ok_bind, range_ok (by omega) (by omega)]
    rfl
  rw [if_neg hpq, dif_neg hpq]
  by_cases hpq' : B.pq = true ∧ leValue (slice src 0 4) = PQ_HANDSHAKE_RESP ∧
      src.length = PQ_HANDSHAKE_RESP_SZ
  · have hlen : src.length = 1180 := hpq'.2.2
    have hct : 60 + MLKEM768_CT_SIZE = 1148 := rfl
    rw [if_pos hpq', dif_pos hpq', read_u32_ok rfl (by omega), Outcome.ok_bind,
      read_u32_ok rfl (by omega), Outcome.ok_bind,
      read_key_ok rfl (by omega) (length_slice_of_le (by omega)), Outcome.ok_bind,
      range_ok (by omega) (by omega), Outcome.ok_bind, range_ok (by omega) (by omega)]
    rfl
  rw [if_neg hpq', dif_neg hpq']
  rfl

/-! ## Section 2: The rate limiter -/

/-- `a - b` on `usize`: an underflow panics in a debug build and wraps in a release build. -/
def sub_usize (B : Build) (a b : Nat) : Outcome Nat :=
  if b ≤ a then .ok (a - b)
  else if B.overflow_checks then .panic "attempt to subtract with overflow"
  else .ok (a + 2 ^ B.usize_bits - b)

theorem sub_usize_ok (B : Build) {a b : Nat} (h : b ≤ a) : sub_usize B a b = .ok (a - b) := if_pos h

def format_cookie_reply (C : Crypto) (r : RateLimiter) (idx : UInt32) (cookie mac1 dst : Bytes) :
    Outcome (Except WireGuardError Bytes × RateLimiter) :=
  if dst.length < COOKIE_REPLY_SZ then .ok (.error .DestinationBufferTooSmall, r)
  else do
    let (fields, rest) ← dst.split_fields [4, 4, 24, 16 + 16]
    let (nonce, r) := r.nonce C
    let sealed := C.xchacha_seal r.cookie_key nonce mac1 cookie
    -- encrypted_cookie[..16].copy_from_slice(&cookie)
    let _ ← copy_from_slice (List.replicate 16 0) cookie
    -- encrypted_cookie[16..].copy_from_slice(&tag)
    let tag ← copy_from_slice (List.replicate 16 0) (sealed.drop 16)
    let message ← fill fields [leBytes 4 COOKIE_REPLY, le32 idx, nonce, sealed.take 16 ++ tag]
    let packet ← (message ++ rest).range 0 COOKIE_REPLY_SZ
    return (.ok packet, r)

def verify_packet (C : Crypto) (B : Build) (r : RateLimiter) (src_addr : Option IpAddr)
    (src dst : Bytes) (now : Nat) : Outcome (Except TunnResult Packet × RateLimiter) := do
  match ← parse_incoming_packet B src with
  | .error e => return (.error (.Err e), r)
  | .ok packet =>
    -- Verify and rate limit handshake messages only
    match packet.sender_idx with
    | none => return (.ok packet, r)
    | some sender_idx =>
      let mid ← sub_usize B src.length 32
      let (msg, macs) ← src.split_at mid
      let (mac1, mac2) ← macs.split_at 16
      let computed_mac1 := b2s_keyed_mac_16 C r.mac1_key msg
      if computed_mac1 ≠ mac1 then return (.error (.Err .InvalidMac), r)
      else
        let (under_load, r) := r.is_under_load
        if under_load = false then return (.ok packet, r)
        else
          match src_addr with
          | none => return (.error (.Err .UnderLoad), r)
          | some addr =>
            -- Only given an address can we validate mac2
            let cookie := r.current_cookie C addr now
            let computed_mac2 := b2s_keyed_mac_16_2 C cookie msg mac1
            if computed_mac2 = mac2 then return (.ok packet, r)
            else
              match ← format_cookie_reply C r sender_idx cookie mac1 dst with
              | (.ok cookie_packet, r) => return (.error (.WriteToNetwork cookie_packet), r)
              | (.error e, r) => return (.error (.Err e), r)

/-- A cookie reply fills its buffer. -/
theorem format_cookie_reply_eq (hC : C.CookieSized) (r : RateLimiter) (idx : UInt32)
    {cookie : Bytes} (hcookie : cookie.length = 16) (mac1 dst : Bytes) :
    format_cookie_reply C r idx cookie mac1 dst
      = .ok (r.format_cookie_reply C idx cookie mac1 dst.length) := by
  unfold format_cookie_reply RateLimiter.format_cookie_reply
  by_cases hroom : dst.length < COOKIE_REPLY_SZ
  · rw [if_pos hroom, if_pos hroom]
  rw [if_neg hroom, if_neg hroom]
  have hroom : 64 ≤ dst.length := Nat.le_of_not_lt hroom
  obtain ⟨fields, hsplit, hwidths⟩ := split_fields_ok dst [4, 4, 24, 16 + 16] hroom
  rw [hsplit, Outcome.ok_bind]
  dsimp only [RateLimiter.nonce]
  generalize hnonce : b2s_mac_24 C r.nonce_key (leBytes 8 r.nonce_ctr) = nonce
  have hnonce : nonce.length = 24 := hnonce ▸ hC.mac_24_length _ _
  generalize hsealed : C.xchacha_seal r.cookie_key nonce mac1 cookie = sealed
  have hsealed : sealed.length = 32 := by rw [← hsealed, hC.xchacha_seal_length, hcookie]
  rw [copy_from_slice_ok (by simpa using hcookie), Outcome.ok_bind,
    copy_from_slice_ok (by simp [hsealed]), Outcome.ok_bind, List.take_append_drop,
    fill_ok (by simp [hwidths, hnonce, hsealed]), Outcome.ok_bind,
    range_append (by simp [hnonce, hsealed, COOKIE_REPLY_SZ])]
  simp

/-- **The rate limiter never panics.** -/
theorem verify_packet_eq (hC : C.Sized) (hcookies : C.CookieSized) (r : RateLimiter)
    (src_addr : Option IpAddr) (src dst : Bytes) (now : Nat) :
    verify_packet C B r src_addr src dst now
      = .ok (r.verify_packet C B src_addr src dst.length now) := by
  unfold verify_packet RateLimiter.verify_packet
  rw [parse_incoming_packet_eq, Outcome.ok_bind]
  cases hparse : PqBoringtun.parse_incoming_packet B src with
  | error e => rfl
  | ok packet =>
    dsimp only
    cases hidx : packet.sender_idx with
    | none => rfl
    | some sender_idx =>
      obtain ⟨macs, hsrc, hmacs⟩ := parse_message hparse
      have hlen : 32 ≤ src.length := by
        have hsize : packet.macs_size = 32 := if_pos (by rw [hidx]; rfl)
        rw [hsrc, List.length_append, hmacs, hsize]
        omega
      have hmsg : src.take (src.length - 32) = slice src 0 (src.length - 32) := rfl
      have hmac1 : (src.drop (src.length - 32)).take 16
          = slice src (src.length - 32) (src.length - 16) := by
        rw [slice]
        congr 1
        omega
      have hmac2 : (src.drop (src.length - 32)).drop 16
          = slice src (src.length - 16) src.length := by
        rw [slice, List.drop_drop, List.take_of_length_le (by rw [List.length_drop])]
        congr 1
        omega
      dsimp only
      rw [sub_usize_ok B hlen, Outcome.ok_bind, split_at_ok (by omega), Outcome.ok_bind,
        split_at_ok (by rw [List.length_drop]; omega), Outcome.ok_bind]
      dsimp only
      rw [hmsg, hmac1, hmac2]
      split
      · rfl
      split
      · rfl
      cases src_addr with
      | none => rfl
      | some addr =>
        dsimp only
        split
        · rfl
        have hcookie : (r.is_under_load.2.current_cookie C addr now).length = 16 :=
          hC.mac_length _ _
        rw [format_cookie_reply_eq hcookies _ _ hcookie, Outcome.ok_bind]
        generalize RateLimiter.format_cookie_reply C _ _ _ _ _ = reply
        rcases reply with ⟨_ | _, _⟩ <;> rfl

/-! ## Section 3: Handshake messages -/

/-- Seal into a field of the message. -/
def aead_chacha20_seal (field : Bytes) (s : Seal) : Outcome Bytes := do
  -- ciphertext[..data.len()].copy_from_slice(data)
  let plain ← field.range 0 s.plaintext.length
  let _ ← copy_from_slice plain s.plaintext
  -- ciphertext[data.len()..].copy_from_slice(tag.as_ref())
  let tag_field ← field.range s.plaintext.length field.length
  let tag ← copy_from_slice tag_field (s.ciphertext.drop s.plaintext.length)
  return s.ciphertext.take s.plaintext.length ++ tag

theorem aead_chacha20_seal_ok {field : Bytes} {s : Seal}
    (hfield : field.length = s.plaintext.length + 16)
    (hseal : s.ciphertext.length = s.plaintext.length + 16) :
    aead_chacha20_seal field s = .ok s.ciphertext := by
  rw [aead_chacha20_seal, range_ok (by omega) (by omega), Outcome.ok_bind,
    copy_from_slice_ok (by rw [length_slice_of_le (by omega), Nat.sub_zero]), Outcome.ok_bind,
    range_ok (by omega) (Nat.le_refl _), Outcome.ok_bind,
    copy_from_slice_ok (by rw [length_slice_of_le (Nat.le_refl _), List.length_drop]; omega),
    Outcome.ok_bind, List.take_append_drop]
  rfl

/-- `dst` is the buffer cut to the size of the message. -/
def append_mac1_and_mac2 (B : Build) (h : Handshake C) (local_index : UInt32) (dst : Bytes) :
    Outcome (Bytes × Handshake C) := do
  let mac1_off ← sub_usize B dst.length 32
  let mac2_off ← sub_usize B dst.length 16
  let msg ← dst.range 0 mac1_off
  let msg_mac1 := b2s_keyed_mac_16 C h.params.sending_mac1_key msg
  let mac1_field ← dst.range mac1_off mac2_off
  let mac1 ← copy_from_slice mac1_field msg_mac1
  let mac2_field ← dst.range mac2_off dst.length
  let dst := msg ++ mac1 ++ mac2_field
  let msg_mac2 ← match h.cookies.write_cookie with
    | some cookie => do
      let msg ← dst.range 0 mac2_off
      pure (b2s_keyed_mac_16 C cookie msg)
    | none => pure (List.replicate 16 0)
  let mac2 ← copy_from_slice mac2_field msg_mac2
  return (msg ++ mac1 ++ mac2,
    { h with cookies := { h.cookies with index := local_index, last_mac1 := some msg_mac1 } })

/-- The fields of a response, without the macs. -/
def resp_fields : Variant → List Nat
  | .classical => [4, 4, 4, 32, 16]
  | .pq => [4, 4, 4, 32, 16, MLKEM768_CT_SIZE]

def format_response (B : Build) (v : Variant) (h : Handshake C) (dst : Bytes) (env : Env) :
    Outcome (Except WireGuardError (Bytes × Session) × Handshake C × List Event) :=
  if dst.length < v.resp_size then
    .ok (.error .DestinationBufferTooSmall, h, [])
  else
    match h.state with
    | .InitReceived hash chaining_key peer_ephemeral_public peer_index mlkem_ek => do
      let (fields, rest) ← dst.split_fields (resp_fields v)
      let local_index := inc_index h.next_index
      let h := { h with state := .None, next_index := local_index }
      match ← (v.encapsulate C mlkem_ek env.mlkem_seed).run with
      | .error e => return (.error e, h, [.generated env.ephemeral])
      | .ok kem =>
        let r := respond C h.params hash chaining_key peer_ephemeral_public env.ephemeral kem
        let encrypted_nothing ← aead_chacha20_seal (List.replicate 16 0) r.encrypted_nothing
        let message ← fill fields ([leBytes 4 v.resp_type, le32 local_index, le32 peer_index,
          r.unencrypted_ephemeral, encrypted_nothing] ++ kem.toList.map Prod.fst)
        let dst ← (message ++ rest).range 0 v.resp_size
        let (packet, h) ← append_mac1_and_mac2 B h local_index dst
        let session := Session.new local_index peer_index r.receiving_key r.sending_key
        return (.ok (packet, session), h,
          [.generated env.ephemeral,
            .handshake .encrypted_nothing env.ephemeral r.encrypted_nothing,
            .established false session.id env.ephemeral])
    | _ =>
      match v with
      | .classical => .panic "Unexpected attempt to call send_handshake_response"
      | .pq => .panic "Unexpected attempt to call format_pq_handshake_response"

/-- The macs fill the end of the buffer, behind the message. -/
theorem append_mac1_and_mac2_eq (hC : C.Sized) (h : Handshake C) (local_index : UInt32)
    (msg : Bytes) {rest : Bytes} (hrest : rest.length = 32) :
    append_mac1_and_mac2 B h local_index (msg ++ rest)
      = .ok (h.append_mac1_and_mac2 local_index msg) := by
  have hlen : (msg ++ rest).length = msg.length + 32 := by rw [List.length_append, hrest]
  have hmac1 : (b2s_keyed_mac_16 C h.params.sending_mac1_key msg).length = 16 := hC.mac_length _ _
  have hfield : ∀ lo, lo + 16 ≤ (msg ++ rest).length →
      (slice (msg ++ rest) lo (lo + 16)).length = 16 := by
    intro lo hlo
    rw [length_slice_of_le hlo, Nat.add_sub_cancel_left]
  unfold append_mac1_and_mac2
  rw [sub_usize_ok B (by omega), Outcome.ok_bind, sub_usize_ok B (by omega), Outcome.ok_bind, hlen,
    show msg.length + 32 - 32 = msg.length by omega,
    show msg.length + 32 - 16 = msg.length + 16 by omega, range_append rfl, Outcome.ok_bind,
    range_ok (by omega) (by omega), Outcome.ok_bind]
  dsimp only
  rw [copy_from_slice_ok (by rw [hmac1, hfield _ (by omega)]), Outcome.ok_bind,
    range_ok (by omega) (by omega), Outcome.ok_bind]
  dsimp only
  have hmac2 : ∀ mac2 : Bytes, mac2.length = 16 →
      copy_from_slice (slice (msg ++ rest) (msg.length + 16) (msg.length + 32)) mac2 = .ok mac2 :=
    fun mac2 hmac2 => copy_from_slice_ok (hmac2.trans (hfield (msg.length + 16) hlen.ge).symm)
  unfold Handshake.append_mac1_and_mac2
  cases hcookie : h.cookies.write_cookie with
  | none =>
    dsimp only
    rw [Outcome.pure_eq, Outcome.ok_bind, hmac2 _ (List.length_replicate ..), hcookie]
    rfl
  | some cookie =>
    dsimp only
    rw [range_append (by rw [List.length_append, hmac1]), Outcome.ok_bind, Outcome.pure_eq,
      Outcome.ok_bind, hmac2 (b2s_keyed_mac_16 C cookie _) (hC.mac_length _ _), hcookie]
    rfl

theorem resp_fields_sum (v : Variant) : (resp_fields v).sum + 32 = v.resp_size := by
  cases v <;> rfl

/-- The ciphertext of an encapsulation has the size of its field. -/
theorem kem_fields (hC : C.Sized) {v : Variant} {ek : Option Bytes} {seed : Bytes}
    {kem : Option (Bytes × Bytes)} (h : (v.encapsulate C ek seed).run = .ok (.ok kem)) :
    resp_fields v = [4, 4, 4, 32, 16] ++ (kem.toList.map Prod.fst).map List.length := by
  cases v with
  | classical =>
    cases h
    rfl
  | pq =>
    obtain ⟨ek, _, rfl⟩ := encapsulate_pq_ok h
    simp [resp_fields, hC.ct_length, MLKEM768_CT_SIZE]

/-- **Responses are written without a panic**, for every variant. -/
theorem format_response_eq (hC : C.Sized) (v : Variant) (h : Handshake C) (dst : Bytes)
    (env : Env) : format_response B v h dst env = h.format_response v dst.length env := by
  unfold format_response Handshake.format_response
  by_cases hroom : dst.length < v.resp_size
  · rw [if_pos hroom, if_pos hroom]
  rw [if_neg hroom, if_neg hroom]
  cases hstate : h.state with
  | InitReceived hash chaining_key peer_ephemeral_public peer_index mlkem_ek =>
    have hsize := resp_fields_sum v
    obtain ⟨fields, hsplit, hwidths⟩ := split_fields_ok dst (resp_fields v) (by omega)
    generalize hrest : dst.drop (resp_fields v).sum = rest at hsplit
    have hrest : 32 ≤ rest.length := by
      rw [← hrest, List.length_drop]
      omega
    dsimp only
    rw [hsplit, Outcome.ok_bind]
    dsimp only
    cases hkem : (v.encapsulate C mlkem_ek env.mlkem_seed).run with
    | panic msg => rfl
    | ok res =>
      cases res with
      | error e => rfl
      | ok kem =>
        rw [Outcome.ok_bind, Outcome.ok_bind]
        dsimp only
        generalize hr : respond C _ hash chaining_key peer_ephemeral_public env.ephemeral kem = r
        have hnothing : r.encrypted_nothing.plaintext = [] := hr ▸ rfl
        have hsealed : r.encrypted_nothing.ciphertext.length = 16 := hr ▸ hC.seal_length _ _ _ _
        have hephemeral : r.unencrypted_ephemeral.length = 32 := hr ▸ hC.public_length _
        rw [aead_chacha20_seal_ok (by rw [hnothing]; rfl) (by rw [hnothing, hsealed]; rfl),
          Outcome.ok_bind]
        generalize hcontents : [leBytes 4 v.resp_type, le32 (inc_index h.next_index),
          le32 peer_index, r.unencrypted_ephemeral, r.encrypted_nothing.ciphertext] ++
          kem.toList.map Prod.fst = contents
        have hlengths : contents.map List.length = resp_fields v := by
          rw [← hcontents, kem_fields hC hkem]
          simp [hephemeral, hsealed]
        have hflatten : leBytes 4 v.resp_type ++ le32 (inc_index h.next_index) ++ le32 peer_index ++
            r.unencrypted_ephemeral ++ r.encrypted_nothing.ciphertext ++
              (Option.map Prod.fst kem).getD [] = contents.flatten := by
          rw [← hcontents]
          cases kem <;> simp
        have hlen : (contents.flatten ++ rest.take 32).length = v.resp_size := by
          rw [List.length_append, List.length_flatten, hlengths, List.length_take]
          omega
        rw [fill_ok (hwidths.trans hlengths.symm), Outcome.ok_bind, hflatten,
          ← List.take_append_drop 32 rest, ← List.append_assoc, range_append hlen,
          Outcome.ok_bind, append_mac1_and_mac2_eq hC _ _ _ (by rw [List.length_take]; omega)]
        rfl
  | _ => rfl

def receive_initialization (B : Build) (v : Variant) (h : Handshake C) (packet : HandshakeInit)
    (mlkem_ek : Option Bytes) (dst : Bytes) (env : Env) :
    Outcome (Except WireGuardError (Bytes × Session) × Handshake C × List Event) := do
  match ← (consume C v h.params h.last_handshake_timestamp packet mlkem_ek).run with
  | .error e => return (.error e, h, [])
  | .ok c => format_response B v (h.committed c packet mlkem_ek) dst env

theorem receive_initialization_eq (hC : C.Sized) (v : Variant) (h : Handshake C)
    (packet : HandshakeInit) (mlkem_ek : Option Bytes) (dst : Bytes) (env : Env) :
    receive_initialization B v h packet mlkem_ek dst env
      = h.receive_initialization v packet mlkem_ek dst.length env := by
  unfold receive_initialization Handshake.receive_initialization
  congr 1
  funext res
  cases res with
  | error e => rfl
  | ok c => exact format_response_eq hC v _ dst env

/-- `packet.nonce.into()` is a reference to an array of 24 bytes. -/
def receive_cookie_reply (h : Handshake C) (packet : PacketCookieReply) :
    Outcome (Except WireGuardError Unit × Handshake C) :=
  match h.cookies.last_mac1 with
  | none => .ok (.error .UnexpectedPacket, h)
  | some mac1 =>
    if packet.receiver_idx ≠ h.cookies.index then .ok (.error .WrongIndex, h)
    else do
      let key := b2s_hash C LABEL_COOKIE h.params.peer_static_public
      let nonce ← packet.nonce.try_into 24 "assertion failed: slice.len() == Self::len()"
      match C.xchacha_open key nonce mac1 packet.encrypted_cookie with
      | none => return (.error .InvalidAeadTag, h)
      | some cookie =>
        if cookie.length ≠ 16 then return (.error .InvalidPacket, h)
        else return (.ok (), { h with cookies := { h.cookies with write_cookie := some cookie } })

theorem receive_cookie_reply_eq (h : Handshake C) {packet : PacketCookieReply}
    (hnonce : packet.nonce.length = 24) :
    receive_cookie_reply h packet = .ok (h.receive_cookie_reply packet) := by
  unfold receive_cookie_reply Handshake.receive_cookie_reply
  cases h.cookies.last_mac1 with
  | none => rfl
  | some mac1 =>
    dsimp only
    split
    · rfl
    rw [try_into_ok hnonce, Outcome.ok_bind]
    dsimp only
    generalize C.xchacha_open _ _ _ _ = opened
    cases opened with
    | none => rfl
    | some cookie =>
      dsimp only
      split <;> rfl

/-! ## Section 4: Data packets -/

def format_packet_data (C : Crypto) (B : Build) (s : Session) (src dst : Bytes) :
    Outcome (Bytes × Session × List Event) :=
  if dst.length < src.length + DATA_OVERHEAD_SZ then
    .panic "The destination buffer is too small"
  else do
    let sending_key_counter := s.sending_key_counter
    let (fields, data) ← dst.split_fields [4, 4, 8]
    let header ← fill fields
      [leBytes 4 DATA, le32 s.sending_index, leBytes 8 sending_key_counter]
    let sealed := s.packet_seal C src
    -- data[..src.len()].copy_from_slice(src)
    let plain ← data.range 0 src.length
    let _ ← copy_from_slice plain src
    -- data[src.len()..src.len() + AEAD_SIZE].copy_from_slice(tag.as_ref())
    let tag_field ← data.range src.length (src.length + AEAD_SIZE)
    let tag ← copy_from_slice tag_field (sealed.ciphertext.drop src.length)
    let dst := header ++ (sealed.ciphertext.take src.length ++ tag ++
      data.drop (src.length + AEAD_SIZE))
    let packet ← dst.range 0 (DATA_OFFSET + (src.length + AEAD_SIZE))
    return (packet, s.sent B, [.data s.id sending_key_counter sealed])

/-- `dst` is large enough for the ciphertext when the check at the start has passed. -/
def receive_packet_data (C : Crypto) (B : Build) (s : Session) (packet : PacketData)
    (dst : Bytes) : Outcome (Except WireGuardError Bytes × Session × List Event) :=
  let ct_len := packet.encrypted_encapsulated_packet.length
  if dst.length < ct_len then
    .panic "The destination buffer is too small"
  else if packet.receiver_idx ≠ s.receiving_index then
    .ok (.error .WrongIndex, s, [])
  else do
    match ← s.receiving_counter_quick_check B packet.counter with
    | .error e => return (.error e, s, [])
    | .ok () =>
      -- dst[..ct_len].copy_from_slice(packet.encrypted_encapsulated_packet)
      let field ← dst.range 0 ct_len
      let in_out ← copy_from_slice field packet.encrypted_encapsulated_packet
      match C.chacha_open s.receiver (nonce_of_counter packet.counter) [] in_out with
      | none => return (.error .InvalidAeadTag, s, [])
      | some ret =>
        match ← s.receiving_counter_mark B packet.counter with
        | (.error e, s') => return (.error e, s', [])
        | (.ok (), s') => return (.ok ret, s', [.opened s.id packet.counter ret in_out])

theorem format_packet_data_eq (hC : C.Sized) (s : Session) (src dst : Bytes) :
    format_packet_data C B s src dst = s.format_packet_data C B src dst.length := by
  unfold format_packet_data Session.format_packet_data
  by_cases hroom : dst.length < src.length + DATA_OVERHEAD_SZ
  · rw [if_pos hroom, if_pos hroom]
  rw [if_neg hroom, if_neg hroom]
  have hroom : src.length + 32 ≤ dst.length := Nat.le_of_not_lt hroom
  have hheader : [4, 4, 8].sum = 16 := rfl
  obtain ⟨fields, hsplit, hwidths⟩ := split_fields_ok dst [4, 4, 8] (by omega)
  generalize hdata : dst.drop [4, 4, 8].sum = data at hsplit
  have hdata : src.length + AEAD_SIZE ≤ data.length := by
    rw [← hdata, List.length_drop, hheader]
    have : AEAD_SIZE = 16 := rfl
    omega
  have hsealed : (s.packet_seal C src).ciphertext.length = src.length + AEAD_SIZE :=
    hC.seal_length _ _ _ _
  rw [hsplit, Outcome.ok_bind]
  dsimp only
  rw [fill_ok (by simp [hwidths]), Outcome.ok_bind, range_ok (Nat.zero_le _) (by omega),
    Outcome.ok_bind]
  dsimp only
  rw [copy_from_slice_ok (by rw [length_slice_of_le (by omega), Nat.sub_zero]), Outcome.ok_bind,
    range_ok (by omega) hdata, Outcome.ok_bind]
  dsimp only
  rw [copy_from_slice_ok (by rw [length_slice_of_le hdata, List.length_drop, hsealed]),
    Outcome.ok_bind, List.take_append_drop, ← List.append_assoc,
    range_append (by simp [hsealed, DATA_OFFSET]; omega), Outcome.ok_bind]
  simp

theorem receive_packet_data_eq (s : Session) (packet : PacketData) (dst : Bytes) :
    receive_packet_data C B s packet dst = s.receive_packet_data C B packet dst.length := by
  unfold receive_packet_data Session.receive_packet_data
  dsimp only
  by_cases hroom : dst.length < packet.encrypted_encapsulated_packet.length
  · rw [if_pos hroom, if_pos hroom]
  rw [if_neg hroom, if_neg hroom]
  split
  · rfl
  congr 1
  funext check
  cases check with
  | error e => rfl
  | ok u =>
    have hroom : packet.encrypted_encapsulated_packet.length ≤ dst.length := Nat.le_of_not_lt hroom
    dsimp only
    rw [range_ok (Nat.zero_le _) hroom, Outcome.ok_bind]
    dsimp only
    rw [copy_from_slice_ok (by rw [length_slice_of_le hroom, Nat.sub_zero])]
    refine (Outcome.ok_bind _ _).trans ?_
    generalize C.chacha_open _ _ _ _ = opened
    cases opened <;> rfl

/-- `packet[lo..hi].try_into().unwrap()`, for an array of `n` bytes, as a big-endian number. -/
def read_be (packet : Bytes) (lo hi n : Nat) : Outcome Nat := do
  let bytes ← packet.range lo hi
  let array ← bytes.val.try_into n "called Result::unwrap() on an Err value"
  return beValue array

def ip_header (packet : Bytes) : Outcome (Option (Nat × IpAddr)) :=
  let version := (packet.headD 0) >>> 4
  if version = 4 ∧ Tunn.IPV4_MIN_HEADER_SIZE ≤ packet.length then do
    let len ← read_be packet 2 4 2
    let addr ← read_be packet 12 16 4
    return some (len, .V4 (BitVec.ofNat 32 addr))
  else if version = 6 ∧ Tunn.IPV6_MIN_HEADER_SIZE ≤ packet.length then do
    let len ← read_be packet 4 6 2
    let addr ← read_be packet 8 24 16
    return some (len + Tunn.IPV6_MIN_HEADER_SIZE, .V6 (BitVec.ofNat 128 addr))
  else .ok none

def validate_decapsulated_packet (t : Tunn C) (packet : Bytes) : Outcome (TunnResult × Tunn C) :=
  if packet = [] then .ok (.Done, t)
  else do
    match ← ip_header packet with
    | none => return (.Err .InvalidPacket, t)
    | some (computed_len, src_ip_address) =>
      if packet.length < computed_len then return (.Err .InvalidPacket, t)
      else
        let t := t.timer_tick .TimeLastDataPacketReceived
        let t := { t with rx_bytes := t.rx_bytes + computed_len }
        let packet ← packet.range 0 computed_len
        match src_ip_address with
        | .V4 addr => return (.WriteToTunnelV4 packet addr, t)
        | .V6 addr => return (.WriteToTunnelV6 packet addr, t)

theorem read_be_ok {packet : Bytes} {lo hi n : Nat} (hle : lo + n = hi)
    (hhi : hi ≤ packet.length) : read_be packet lo hi n = .ok (beValue (slice packet lo hi)) :=
  read_array_ok hle hhi _ beValue

theorem ip_header_eq (packet : Bytes) : ip_header packet = .ok (Tunn.ip_header packet) := by
  unfold ip_header Tunn.ip_header
  dsimp only
  by_cases h4 : packet.headD 0 >>> 4 = 4 ∧ Tunn.IPV4_MIN_HEADER_SIZE ≤ packet.length
  · have hlen : 20 ≤ packet.length := h4.2
    rw [if_pos h4, if_pos h4, read_be_ok (show 2 + 2 = 4 from rfl) (by omega), Outcome.ok_bind,
      read_be_ok (show 12 + 4 = 16 from rfl) (by omega)]
    rfl
  rw [if_neg h4, if_neg h4]
  by_cases h6 : packet.headD 0 >>> 4 = 6 ∧ Tunn.IPV6_MIN_HEADER_SIZE ≤ packet.length
  · have hlen : 40 ≤ packet.length := h6.2
    rw [if_pos h6, if_pos h6, read_be_ok (show 4 + 2 = 6 from rfl) (by omega), Outcome.ok_bind,
      read_be_ok (show 8 + 16 = 24 from rfl) (by omega)]
    rfl
  rw [if_neg h6, if_neg h6]

/-- The length that an IP header states is only used if the packet is that long. -/
theorem validate_decapsulated_packet_eq (t : Tunn C) (packet : Bytes) :
    validate_decapsulated_packet t packet = .ok (t.validate_decapsulated_packet packet) := by
  unfold validate_decapsulated_packet Tunn.validate_decapsulated_packet
  split
  · rfl
  rw [ip_header_eq, Outcome.ok_bind]
  cases Tunn.ip_header packet with
  | none => rfl
  | some header =>
    obtain ⟨computed_len, src_ip_address⟩ := header
    dsimp only
    by_cases hlong : packet.length < computed_len
    · rw [if_pos hlong, if_pos hlong]
      rfl
    rw [if_neg hlong, if_neg hlong, range_ok (Nat.zero_le _) (Nat.le_of_not_lt hlong)]
    cases src_ip_address <;> rfl

/-! ## Section 5: `decapsulate` -/

def handle_response (B : Build) (t : Tunn C)
    (r : Except WireGuardError Session × Handshake C × List Event) (dst : Bytes) :
    Outcome (TunnResult × Tunn C × List Event) := do
  let (result, handshake, events) := r
  let t := { t with handshake := handshake }
  match result with
  | .error e => return (.Err e, t, events)
  | .ok session =>
    let (keepalive_packet, session, sealed) ← format_packet_data C B session [] dst
    -- Store new session in ring buffer
    let l_idx := session.local_index
    let index := l_idx % N_SESSIONS
    let t := t.store_session index session
    let t := t.timer_tick .TimeLastPacketReceived
    let t := t.timer_tick_session_established true index
    return (.WriteToNetwork keepalive_packet, t.set_current_session l_idx, events ++ sealed)

def handle_cookie_reply (t : Tunn C) (p : PacketCookieReply) :
    Outcome (TunnResult × Tunn C × List Event) := do
  let (result, handshake) ← receive_cookie_reply t.handshake p
  let t := { t with handshake := handshake }
  match result with
  | .error e => return (.Err e, t, [])
  | .ok () =>
    let t := t.timer_tick .TimeLastPacketReceived
    return (.Done, t.timer_tick .TimeCookieReceived, [])

def handle_data (B : Build) (t : Tunn C) (packet : PacketData) (dst : Bytes) :
    Outcome (TunnResult × Tunn C × List Event) :=
  let r_idx := packet.receiver_idx.toNat
  match t.sessions (slot r_idx) with
  | none => .ok (.Err .NoCurrentSession, t, [])
  | some session => do
    let (result, session, events) ← receive_packet_data C B session packet dst
    let t := t.store_session r_idx session
    match result with
    | .error e => return (.Err e, t, events)
    | .ok decapsulated_packet =>
      let t := t.set_current_session r_idx
      let t := t.timer_tick .TimeLastPacketReceived
      let (result, t) ← validate_decapsulated_packet t decapsulated_packet
      return (result, t, events)

def handle_verified_packet (B : Build) (t : Tunn C) (packet : Packet) (dst : Bytes) (env : Env) :
    Outcome (TunnResult × Tunn C × List Event) :=
  match packet with
  | .HandshakeInit p => do
    let r ← receive_initialization B .classical t.handshake p none dst env
    return t.handle_init r
  | .HandshakeResponse p => do
    let r ← t.handshake.receive_handshake_response p env
    handle_response B t r dst
  | .PacketCookieReply p => handle_cookie_reply t p
  | .PacketData p => handle_data B t p dst
  | .PqHandshakeInit p => do
    let r ← receive_initialization B .pq t.handshake p.toHandshakeInit
      (some p.mlkem_ephemeral_public) dst env
    return t.handle_init r
  | .PqHandshakeResponse p => do
    let r ← t.handshake.receive_pq_handshake_response p env
    handle_response B t r dst

/-- Receives a UDP datagram from the network; an empty one indicates a repeated call. -/
def decapsulate (B : Build) (t : Tunn C) (src_addr : Option IpAddr) (datagram dst : Bytes)
    (env : Env) : Outcome (TunnResult × Tunn C × List Event) :=
  if datagram = [] then
    t.send_queued_packet B dst.length env
  else do
    let cookie := List.replicate COOKIE_REPLY_SZ 0
    let (verified, rate_limiter) ←
      verify_packet C B t.rate_limiter src_addr datagram cookie (env.clock .cookie)
    let t := { t with rate_limiter := rate_limiter }
    match verified with
    | .ok packet => handle_verified_packet B t packet dst env
    | .error (.WriteToNetwork cookie) => do
      let field ← dst.range 0 cookie.length
      let packet ← copy_from_slice field cookie
      return (.WriteToNetwork packet, t, [])
    | .error (.Err e) => return (.Err e, t, [])
    | .error _ => .panic "internal error: entered unreachable code"

theorem handle_response_eq (hC : C.Sized) (t : Tunn C)
    (r : Except WireGuardError Session × Handshake C × List Event) (dst : Bytes) :
    handle_response B t r dst = t.handle_response B r dst.length := by
  obtain ⟨_ | session, handshake, events⟩ := r
  · rfl
  · unfold handle_response Tunn.handle_response
    dsimp only
    rw [format_packet_data_eq hC]

theorem handle_cookie_reply_eq (t : Tunn C) {p : PacketCookieReply} (hnonce : p.nonce.length = 24) :
    handle_cookie_reply t p = .ok (t.handle_cookie_reply p) := by
  unfold handle_cookie_reply Tunn.handle_cookie_reply
  rw [receive_cookie_reply_eq _ hnonce, Outcome.ok_bind]
  rcases t.handshake.receive_cookie_reply p with ⟨_ | _, _⟩ <;> rfl

theorem handle_data_eq (t : Tunn C) (packet : PacketData) (dst : Bytes) :
    handle_data B t packet dst = t.handle_data B packet dst.length := by
  unfold handle_data Tunn.handle_data
  dsimp only
  cases t.sessions (slot packet.receiver_idx.toNat) with
  | none => rfl
  | some session =>
    dsimp only
    rw [receive_packet_data_eq]
    congr 1
    funext res
    obtain ⟨_ | decapsulated_packet, session', events⟩ := res
    · rfl
    · dsimp only
      rw [validate_decapsulated_packet_eq]
      rfl

/-- A parsed cookie reply has a nonce of 24 bytes. -/
theorem parse_nonce_length {src : Bytes} {p : PacketCookieReply}
    (h : PqBoringtun.parse_incoming_packet B src = .ok (.PacketCookieReply p)) :
    p.nonce.length = 24 := by
  unfold PqBoringtun.parse_incoming_packet at h
  dsimp only at h
  split at h
  · cases h
  split at h
  · cases h
  split at h
  · cases h
  split at h
  · rename_i hcookie
    cases h
    exact length_slice_of_le (by rw [hcookie.2]; decide)
  split at h
  · cases h
  split at h
  · cases h
  split at h <;> cases h

theorem handle_verified_packet_eq (hC : C.Sized) (t : Tunn C) (packet : Packet) (dst : Bytes)
    (env : Env) (hnonce : ∀ p, packet = .PacketCookieReply p → p.nonce.length = 24) :
    handle_verified_packet B t packet dst env
      = t.handle_verified_packet B packet dst.length env := by
  cases packet with
  | HandshakeInit p =>
    unfold handle_verified_packet
    dsimp only
    rw [receive_initialization_eq hC]
    rfl
  | PqHandshakeInit p =>
    unfold handle_verified_packet
    dsimp only
    rw [receive_initialization_eq hC]
    rfl
  | HandshakeResponse p =>
    unfold handle_verified_packet
    dsimp only
    simp only [handle_response_eq hC]
    rfl
  | PqHandshakeResponse p =>
    unfold handle_verified_packet
    dsimp only
    simp only [handle_response_eq hC]
    rfl
  | PacketCookieReply p => exact handle_cookie_reply_eq t (hnonce p rfl)
  | PacketData p => exact handle_data_eq t p dst

/-- **The checks of `decapsulate` fail only where the model panics.** -/
theorem decapsulate_eq (hC : C.Sized) (hcookies : C.CookieSized) (t : Tunn C)
    (src_addr : Option IpAddr) (datagram dst : Bytes) (env : Env) :
    decapsulate B t src_addr datagram dst env
      = t.decapsulate B src_addr datagram dst.length env := by
  unfold decapsulate Tunn.decapsulate
  split
  · rfl
  dsimp only
  rw [verify_packet_eq hC hcookies, Outcome.ok_bind, List.length_replicate]
  cases hverify : t.rate_limiter.verify_packet C B src_addr datagram COOKIE_REPLY_SZ
      (env.clock .cookie) with
  | mk verified rate_limiter =>
    dsimp only
    cases verified with
    | ok packet =>
      refine handle_verified_packet_eq hC _ packet dst env ?_
      rintro p rfl
      exact parse_nonce_length (RateLimiter.verify_packet_parse hverify)
    | error r =>
      cases r with
      | WriteToNetwork cookie =>
        dsimp only
        by_cases hroom : dst.length < cookie.length
        · rw [if_pos hroom, range, dif_neg (by omega)]
          rfl
        · have hroom' : cookie.length ≤ dst.length := Nat.le_of_not_lt hroom
          rw [if_neg hroom, range_ok (Nat.zero_le _) hroom', Outcome.ok_bind]
          dsimp only
          rw [copy_from_slice_ok (by rw [length_slice_of_le hroom', Nat.sub_zero])]
          rfl
      | Err e => rfl
      | _ => rfl

end PqBoringtun.Checked
