import PqBoringtun.Noise.Completeness

/-! # The wire format

    The encoders and the parser describe one format.

    * Section 1: `Packet.message` writes a packet down, without the macs of
      the handshake messages.  A datagram is parsed to `p` only if it starts
      with `p.message` and ends there, but for the macs.
    * Section 2: what the encoders produce is such a datagram; a handshake
      message has a mac1 under the key of the peer it is for.
    * Section 3: both directions together.
-/

namespace PqBoringtun

open Bytes

variable {C : Crypto} {B : Build}

/-! ## Section 1: From datagrams to packets -/

/-- A packet written down, without macs. -/
def Packet.message : Packet → Bytes
  | .HandshakeInit p => initMessage .classical p none
  | .PqHandshakeInit p => initMessage .pq p.toHandshakeInit (some p.mlkem_ephemeral_public)
  | .HandshakeResponse p => respMessage .classical p none
  | .PqHandshakeResponse p => respMessage .pq p.toHandshakeResponse (some p.mlkem_ciphertext)
  | .PacketCookieReply p =>
    leBytes 4 COOKIE_REPLY ++ le32 p.receiver_idx ++ p.nonce ++ p.encrypted_cookie
  | .PacketData p =>
    leBytes 4 DATA ++ le32 p.receiver_idx ++ leBytes 8 p.counter ++ p.encrypted_encapsulated_packet

/-- The space for mac1 and mac2 of the handshake messages. -/
def Packet.macs_size (p : Packet) : Nat := if p.sender_idx.isSome then 32 else 0

/-- The packets that only `pq` builds know. -/
def Packet.is_pq : Packet → Bool
  | .PqHandshakeInit _ => true
  | .PqHandshakeResponse _ => true
  | _ => false

/-- The types and lengths of a build's datagrams. -/
def Framed (B : Build) (packet_type length : Nat) : Prop :=
  (packet_type = HANDSHAKE_INIT ∧ length = HANDSHAKE_INIT_SZ) ∨
    (packet_type = HANDSHAKE_RESP ∧ length = HANDSHAKE_RESP_SZ) ∨
    (packet_type = COOKIE_REPLY ∧ length = COOKIE_REPLY_SZ) ∨
    (packet_type = DATA ∧ DATA_OVERHEAD_SZ ≤ length) ∨
    (B.pq = true ∧ packet_type = PQ_HANDSHAKE_INIT ∧ length = PQ_HANDSHAKE_INIT_SZ) ∨
    (B.pq = true ∧ packet_type = PQ_HANDSHAKE_RESP ∧ length = PQ_HANDSHAKE_RESP_SZ)

/-- Any other combination is rejected. -/
theorem parse_unframed {d : Bytes} (h : ¬ Framed B (leValue (slice d 0 4)) d.length) :
    parse_incoming_packet B d = .error .InvalidPacket := by
  simp only [Framed, not_or] at h
  obtain ⟨h1, h2, h3, h4, h5, h6⟩ := h
  unfold parse_incoming_packet
  split
  · rfl
  dsimp only
  rw [dif_neg h1, dif_neg h2, if_neg h3, if_neg h4, dif_neg h5, dif_neg h6]

section fields
variable {d : Bytes}

/-- The type field is written back as it was read. -/
theorem type_bytes {n : Nat} (hlen : 4 ≤ d.length) (htype : leValue (slice d 0 4) = n) :
    leBytes 4 n = slice d 0 4 := by
  have h := leBytes_leValue (slice d 0 4)
  rwa [length_slice_of_le hlen, htype] at h

/-- So is an index. -/
theorem le32_u32_from_le {bs : Bytes} (hlen : bs.length = 4) : le32 (u32_from_le bs) = bs := by
  have hlt := leValue_lt bs
  have h := leBytes_leValue bs
  rw [hlen] at hlt h
  rw [le32, u32_from_le, UInt32.toNat_ofNat_of_lt' hlt, h]

end fields

/-- **A parsed datagram is the packet written down, and its macs.** -/
theorem parse_message {d : Bytes} {p : Packet} (h : parse_incoming_packet B d = .ok p) :
    ∃ macs, d = p.message ++ macs ∧ macs.length = p.macs_size := by
  unfold parse_incoming_packet at h
  split at h
  · cases h
  rename_i hshort
  have h4 : 4 ≤ d.length := Nat.le_of_not_lt hshort
  have hidx : ∀ lo, lo + 4 ≤ d.length →
      le32 (u32_from_le (slice d lo (lo + 4))) = slice d lo (lo + 4) := by
    intro lo hlo
    apply le32_u32_from_le
    rw [length_slice_of_le hlo, Nat.add_sub_cancel_left]
  -- Each case puts the fields together again from left to right.
  dsimp only at h
  split at h
  · rename_i hframe
    obtain ⟨htype, hlen⟩ := hframe
    have hmacs : (d.drop 116).length = 32 := by rw [List.length_drop, hlen]; rfl
    have hsender := hidx 4 (by rw [hlen]; decide)
    cases h
    refine ⟨d.drop 116, ?_, hmacs⟩
    simp only [Packet.message, initMessage, Variant.init_type, Option.getD_none, List.append_nil]
    rw [type_bytes h4 htype, hsender]
    simp (disch := decide) only [slice_append_slice, slice_append_drop]
  split at h
  · rename_i hframe
    obtain ⟨htype, hlen⟩ := hframe
    have hmacs : (d.drop 60).length = 32 := by rw [List.length_drop, hlen]; rfl
    have hsender := hidx 4 (by rw [hlen]; decide)
    have hreceiver := hidx 8 (by rw [hlen]; decide)
    cases h
    refine ⟨d.drop 60, ?_, hmacs⟩
    simp only [Packet.message, respMessage, Variant.resp_type, Option.getD_none, List.append_nil]
    rw [type_bytes h4 htype, hsender, hreceiver]
    simp (disch := decide) only [slice_append_slice, slice_append_drop]
  split at h
  · rename_i hframe
    obtain ⟨htype, hlen⟩ := hframe
    have hreceiver := hidx 4 (by rw [hlen]; decide)
    have hall : slice d 0 64 = d := by
      have hdrop : d.drop 64 = [] := List.drop_eq_nil_of_le (Nat.le_of_eq hlen)
      simpa [hdrop] using slice_append_drop d 64
    cases h
    refine ⟨[], ?_, rfl⟩
    simp only [Packet.message, List.append_nil]
    rw [type_bytes h4 htype, hreceiver]
    simp (disch := decide) only [slice_append_slice]
    exact hall.symm
  split at h
  · rename_i hframe
    obtain ⟨htype, hlen⟩ := hframe
    have hreceiver := hidx 4 (Nat.le_trans (by decide) hlen)
    have hcounter := leBytes_leValue (slice d 8 16)
    rw [length_slice_of_le (Nat.le_trans (by decide) hlen)] at hcounter
    cases h
    refine ⟨[], ?_, rfl⟩
    simp only [Packet.message, List.append_nil]
    rw [type_bytes h4 htype, hreceiver, hcounter]
    simp (disch := decide) only [slice_append_slice, slice_append_drop]
  split at h
  · rename_i hframe
    obtain ⟨_, htype, hlen⟩ := hframe
    have hmacs : (d.drop (116 + MLKEM768_PK_SIZE)).length = 32 := by
      rw [List.length_drop, hlen]; rfl
    have hsender := hidx 4 (by rw [hlen]; decide)
    cases h
    refine ⟨d.drop (116 + MLKEM768_PK_SIZE), ?_, hmacs⟩
    simp only [Packet.message, initMessage, Variant.init_type, Option.getD_some]
    rw [type_bytes h4 htype, hsender]
    simp (disch := decide) only [slice_append_slice, slice_append_drop]
  split at h
  · rename_i hframe
    obtain ⟨_, htype, hlen⟩ := hframe
    have hmacs : (d.drop (60 + MLKEM768_CT_SIZE)).length = 32 := by
      rw [List.length_drop, hlen]; rfl
    have hsender := hidx 4 (by rw [hlen]; decide)
    have hreceiver := hidx 8 (by rw [hlen]; decide)
    cases h
    refine ⟨d.drop (60 + MLKEM768_CT_SIZE), ?_, hmacs⟩
    simp only [Packet.message, respMessage, Variant.resp_type, Option.getD_some]
    rw [type_bytes h4 htype, hsender, hreceiver]
    simp (disch := decide) only [slice_append_slice, slice_append_drop]
  · cases h

/-- Two datagrams that are parsed to one packet differ in the macs only. -/
theorem parse_eq_parse {d d' : Bytes} {p : Packet} (h : parse_incoming_packet B d = .ok p)
    (h' : parse_incoming_packet B d' = .ok p) :
    d.length = d'.length ∧ d.take (d.length - p.macs_size) = d'.take (d'.length - p.macs_size) := by
  obtain ⟨macs, rfl, hmacs⟩ := parse_message h
  obtain ⟨macs', rfl, hmacs'⟩ := parse_message h'
  have hlen : (p.message ++ macs).length - p.macs_size = p.message.length := by
    rw [List.length_append, hmacs, Nat.add_sub_cancel]
  have hlen' : (p.message ++ macs').length - p.macs_size = p.message.length := by
    rw [List.length_append, hmacs', Nat.add_sub_cancel]
  constructor
  · rw [List.length_append, List.length_append, hmacs, hmacs']
  · rw [hlen, hlen', List.take_left, List.take_left]

/-! ## Section 2: From packets to datagrams -/

/-- A handshake message is parsed to the packet it was made from. -/
theorem parse_handshake {p : Packet} {idx : UInt32} {macs : Bytes} (hidx : p.sender_idx = some idx)
    (hpq : p.is_pq = true → B.pq = true) (hmacs : macs.length = 32) :
    parse_incoming_packet B (p.message ++ macs) = .ok p := by
  cases p with
  | HandshakeInit p => exact parse_init p hmacs
  | HandshakeResponse p => exact parse_resp p hmacs
  | PacketCookieReply p => cases hidx
  | PacketData p => cases hidx
  | PqHandshakeInit p => exact parse_pq_init (hpq rfl) p hmacs
  | PqHandshakeResponse p => exact parse_pq_resp (hpq rfl) p hmacs

namespace Handshake

/-- The handshake `h` has written the packet `p` as the datagram `m`. -/
structure Writes (h : Handshake C) (p : Packet) (m : Bytes) (h' : Handshake C) : Prop where
  sender : p.sender_idx = some h'.cookies.index
  message : m = p.message ++ (h.mac1 p.message ++ h.mac2 p.message)
  last_mac1 : h'.cookies.last_mac1 = some (h.mac1 p.message)
  params : h'.params = h.params

variable {h h' : Handshake C} {p : Packet} {m : Bytes} {dst_len : Nat} {env : Env}
  {evs : List Event} {session : Session}

theorem format_handshake_initiation_writes (hC : C.Sized)
    (hcall : h.format_handshake_initiation dst_len env = (.ok m, h', evs)) :
    h.Writes (.HandshakeInit (HandshakeInit.sent hC .classical h.params (inc_index h.next_index)
      env.ephemeral (h.stamper.stamp (env.clock .stamp)) (TimeStamper.length_stamp ..) none))
      m h' := by
  unfold format_handshake_initiation format_initiation at hcall
  split at hcall
  · cases hcall
  · cases hcall
    exact ⟨rfl, List.append_assoc .., rfl, rfl⟩

theorem format_pq_handshake_initiation_writes (hC : C.Sized)
    (hcall : h.format_pq_handshake_initiation dst_len env = (.ok m, h', evs)) :
    h.Writes (.PqHandshakeInit
      { HandshakeInit.sent hC .pq h.params (inc_index h.next_index) env.ephemeral
          (h.stamper.stamp (env.clock .stamp)) (TimeStamper.length_stamp ..)
          (some (C.mlkem_keygen env.mlkem_seed).2) with
        mlkem_ephemeral_public := (C.mlkem_keygen env.mlkem_seed).2
        mlkem_length := hC.ek_length env.mlkem_seed }) m h' := by
  unfold format_pq_handshake_initiation format_initiation at hcall
  split at hcall
  · cases hcall
  · cases hcall
    exact ⟨rfl, List.append_assoc .., rfl, rfl⟩

theorem format_handshake_response_writes (hC : C.Sized)
    (hcall : h.format_handshake_response dst_len env = .ok (.ok (m, session), h', evs)) :
    ∃ hash ck pe idx ek, h.state = .InitReceived hash ck pe idx ek ∧
      h.Writes (.HandshakeResponse (HandshakeResponse.sent hC h.params (inc_index h.next_index) idx
        hash ck pe env.ephemeral none)) m h' := by
  unfold format_handshake_response format_response at hcall
  split at hcall
  · cases hcall
  split at hcall
  · rename_i hash ck pe idx ek hstate
    cases hcall
    exact ⟨hash, ck, pe, idx, ek, hstate, rfl, List.append_assoc .., rfl, rfl⟩
  · cases hcall

theorem format_pq_handshake_response_writes (hC : C.Sized)
    (hcall : h.format_pq_handshake_response dst_len env = .ok (.ok (m, session), h', evs)) :
    ∃ hash ck pe idx ek, h.state = .InitReceived hash ck pe idx (some ek) ∧
      h.Writes (.PqHandshakeResponse
        { HandshakeResponse.sent hC h.params (inc_index h.next_index) idx hash ck pe env.ephemeral
            (some (C.mlkem_encapsulate ek env.mlkem_seed)) with
          mlkem_ciphertext := (C.mlkem_encapsulate ek env.mlkem_seed).1
          mlkem_length := hC.ct_length ek env.mlkem_seed }) m h' := by
  unfold format_pq_handshake_response format_response at hcall
  split at hcall
  · cases hcall
  split at hcall
  · rename_i hash ck pe idx ek hstate
    obtain ⟨kem, hkem, hcall⟩ := Outcome.bind_eq_ok.mp hcall
    cases kem with
    | error e => cases hcall
    | ok kem =>
      obtain ⟨ek, rfl, rfl⟩ := encapsulate_pq_ok hkem
      cases hcall
      exact ⟨hash, ck, pe, idx, ek, hstate, rfl, List.append_assoc .., rfl, rfl⟩
  · cases hcall

end Handshake

/-- The datagram is parsed to `p`, and its mac1 is right for the receiver with
    the public key `pub`: its limiter never finds it wrong and lets the packet
    through when it is not under load. -/
def Addressed (C : Crypto) (B : Build) (pub m : Bytes) (p : Packet) : Prop :=
  parse_incoming_packet B m = .ok p ∧
    ∀ (l : RateLimiter) (addr : Option IpAddr) (n now : Nat),
      l.mac1_key = b2s_hash C LABEL_MAC1 pub →
        (l.verify_packet C B addr m n now).1 ≠ .error (.Err .InvalidMac) ∧
          (l.count < l.limit → (l.verify_packet C B addr m n now).1 = .ok p)

section addressed
variable {h h' : Handshake C} {p : Packet} {m : Bytes}

theorem Handshake.Writes.parse (hC : C.Sized) (hw : h.Writes p m h')
    (hpq : p.is_pq = true → B.pq = true) : parse_incoming_packet B m = .ok p := by
  rw [hw.message]
  apply parse_handshake hw.sender hpq
  rw [List.length_append, h.length_mac1 hC, h.length_mac2 hC]

/-- What the addressed limiter makes of a handshake message. -/
theorem Handshake.Writes.verify (hC : C.Sized) (hw : h.Writes p m h')
    (hpq : p.is_pq = true → B.pq = true) {l : RateLimiter}
    (hkey : l.mac1_key = b2s_hash C LABEL_MAC1 h.params.peer_static_public)
    (addr : Option IpAddr) (n now : Nat) :
    l.verify_packet C B addr m n now =
      if l.count < l.limit then (.ok p, l.counted)
      else match addr with
        | none => (.error (.Err .UnderLoad), l.counted)
        | some addr =>
          if b2s_keyed_mac_16_2 C (l.current_cookie C addr now) p.message (h.mac1 p.message)
              = h.mac2 p.message then
            (.ok p, l.counted)
          else match l.counted.format_cookie_reply C h'.cookies.index (l.current_cookie C addr now)
              (h.mac1 p.message) n with
            | (.ok cookie_packet, l) => (.error (.WriteToNetwork cookie_packet), l)
            | (.error e, l) => (.error (.Err e), l) := by
  have hparse := hw.parse hC hpq
  rw [hw.message] at hparse ⊢
  apply RateLimiter.verify_packet_eq hparse hw.sender (h.length_mac1 hC _) (h.length_mac2 hC _)
  rw [hkey, mac1, h.params.sending_mac1_key_eq]

theorem RateLimiter.format_cookie_reply_error {l l' : RateLimiter} {idx : UInt32}
    {cookie mac1 : Bytes} {n : Nat} {e : WireGuardError}
    (h : l.format_cookie_reply C idx cookie mac1 n = (.error e, l')) :
    e = .DestinationBufferTooSmall := by
  unfold format_cookie_reply at h
  split at h
  · cases h
    rfl
  · cases h

theorem Handshake.Writes.addressed (hC : C.Sized) (hw : h.Writes p m h')
    (hpq : p.is_pq = true → B.pq = true) : Addressed C B h.params.peer_static_public m p := by
  refine ⟨hw.parse hC hpq, fun l addr n now hkey => ⟨?_, fun hload => ?_⟩⟩
  · rw [hw.verify hC hpq hkey]
    split
    · nofun
    split
    · nofun
    split
    · nofun
    split
    · nofun
    · rename_i hreply
      rw [RateLimiter.format_cookie_reply_error hreply]
      nofun
  · rw [hw.verify hC hpq hkey, if_pos hload]

end addressed

/-- A cookie reply is parsed to its fields. -/
theorem parse_cookie_reply (hC : C.CookieSized) {l l' : RateLimiter} {idx : UInt32}
    {cookie mac1 m : Bytes} {n : Nat} (hcookie : cookie.length = 16)
    (h : l.format_cookie_reply C idx cookie mac1 n = (.ok m, l')) :
    parse_incoming_packet B m = .ok (.PacketCookieReply
      ⟨idx, (l.nonce C).1, C.xchacha_seal l.cookie_key (l.nonce C).1 mac1 cookie⟩) := by
  unfold RateLimiter.format_cookie_reply at h
  split at h
  · cases h
  · cases h
    have hnonce : (l.nonce C).1.length = 24 := hC.mac_24_length _ _
    have hsealed : (C.xchacha_seal l.cookie_key (l.nonce C).1 mac1 cookie).length = 32 := by
      rw [hC.xchacha_seal_length, hcookie]
    exact parse_cookie ⟨idx, _, _⟩ hnonce hsealed

/-! ## Section 3: Agreement -/

/-- Encoders and parser agree.  An encoder's bytes are parsed to the packet of
    its kind with the fields it wrote, and conversely a packet determines its
    datagram up to the macs; nothing else is accepted. -/
structure WireFormat (C : Crypto) (B : Build) : Prop where
  initiation : ∀ (h h' : Handshake C) dst_len env m evs,
    h.format_handshake_initiation dst_len env = (.ok m, h', evs) →
    ∃ (p : HandshakeInit) (i : Initiation),
      i = initiate C .classical h.params env.ephemeral (h.stamper.stamp (env.clock .stamp)) none ∧
      Addressed C B h.params.peer_static_public m (.HandshakeInit p) ∧
      p.sender_idx = inc_index h.next_index ∧
      p.unencrypted_ephemeral = i.unencrypted_ephemeral ∧
      p.encrypted_static = i.encrypted_static.ciphertext ∧
      p.encrypted_timestamp = i.encrypted_timestamp.ciphertext
  response : ∀ (h h' : Handshake C) dst_len env m session evs,
    h.format_handshake_response dst_len env = .ok (.ok (m, session), h', evs) →
    ∃ hash ck pe idx ek, h.state = .InitReceived hash ck pe idx ek ∧
    ∃ (p : HandshakeResponse) (r : Response),
      r = respond C h.params hash ck pe env.ephemeral none ∧
      Addressed C B h.params.peer_static_public m (.HandshakeResponse p) ∧
      p.sender_idx = inc_index h.next_index ∧ p.receiver_idx = idx ∧
      p.unencrypted_ephemeral = r.unencrypted_ephemeral ∧
      p.encrypted_nothing = r.encrypted_nothing.ciphertext
  pq_initiation : B.pq = true → ∀ (h h' : Handshake C) dst_len env m evs,
    h.format_pq_handshake_initiation dst_len env = (.ok m, h', evs) →
    ∃ (p : PqHandshakeInit) (ek : Bytes) (i : Initiation),
      ek = (C.mlkem_keygen env.mlkem_seed).2 ∧
      i = initiate C .pq h.params env.ephemeral (h.stamper.stamp (env.clock .stamp)) (some ek) ∧
      Addressed C B h.params.peer_static_public m (.PqHandshakeInit p) ∧
      p.sender_idx = inc_index h.next_index ∧
      p.unencrypted_ephemeral = i.unencrypted_ephemeral ∧
      p.encrypted_static = i.encrypted_static.ciphertext ∧
      p.encrypted_timestamp = i.encrypted_timestamp.ciphertext ∧
      p.mlkem_ephemeral_public = ek
  pq_response : B.pq = true → ∀ (h h' : Handshake C) dst_len env m session evs,
    h.format_pq_handshake_response dst_len env = .ok (.ok (m, session), h', evs) →
    ∃ hash ck pe idx ek, h.state = .InitReceived hash ck pe idx (some ek) ∧
    ∃ (p : PqHandshakeResponse) (kem : Bytes × Bytes) (r : Response),
      kem = C.mlkem_encapsulate ek env.mlkem_seed ∧
      r = respond C h.params hash ck pe env.ephemeral (some kem) ∧
      Addressed C B h.params.peer_static_public m (.PqHandshakeResponse p) ∧
      p.sender_idx = inc_index h.next_index ∧ p.receiver_idx = idx ∧
      p.unencrypted_ephemeral = r.unencrypted_ephemeral ∧
      p.encrypted_nothing = r.encrypted_nothing.ciphertext ∧ p.mlkem_ciphertext = kem.1
  cookie_reply : ∀ (l l' : RateLimiter) idx cookie mac1 dst_len m, cookie.length = 16 →
    l.format_cookie_reply C idx cookie mac1 dst_len = (.ok m, l') →
    parse_incoming_packet B m = .ok (.PacketCookieReply
      ⟨idx, (l.nonce C).1, C.xchacha_seal l.cookie_key (l.nonce C).1 mac1 cookie⟩)
  data : ∀ (s s' : Session) src dst_len m evs, s.sending_key_counter < 2 ^ B.usize_bits →
    s.format_packet_data C B src dst_len = .ok (m, s', evs) →
    parse_incoming_packet B m = .ok (.PacketData
      ⟨s.sending_index, s.sending_key_counter, (s.packet_seal C src).ciphertext⟩)
  handshake_unique : ∀ d d' p, parse_incoming_packet B d = .ok p →
    parse_incoming_packet B d' = .ok p → p.sender_idx.isSome = true →
    d.length = d'.length ∧ d.take (d.length - 32) = d'.take (d'.length - 32)
  unique : ∀ d d' p, parse_incoming_packet B d = .ok p → parse_incoming_packet B d' = .ok p →
    p.sender_idx = none → d = d'
  rejected : ∀ d, ¬ Framed B (leValue (slice d 0 4)) d.length →
    parse_incoming_packet B d = .error .InvalidPacket

/-- **The encoders and the parser agree on the whole wire format.** -/
theorem wire_format (hC : C.Sized) (hX : C.CookieSized) (B : Build) : WireFormat C B where
  initiation := by
    intro h h' dst_len env m evs hcall
    have hw := Handshake.format_handshake_initiation_writes hC hcall
    exact ⟨_, _, rfl, hw.addressed hC nofun, rfl, rfl, rfl, rfl⟩
  response := by
    intro h h' dst_len env m session evs hcall
    obtain ⟨hash, ck, pe, idx, ek, hstate, hw⟩ :=
      Handshake.format_handshake_response_writes hC hcall
    exact ⟨hash, ck, pe, idx, ek, hstate, _, _, rfl, hw.addressed hC nofun, rfl, rfl, rfl, rfl⟩
  pq_initiation := by
    intro hpq h h' dst_len env m evs hcall
    have hw := Handshake.format_pq_handshake_initiation_writes hC hcall
    exact ⟨_, _, _, rfl, rfl, hw.addressed hC (fun _ => hpq), rfl, rfl, rfl, rfl, rfl⟩
  pq_response := by
    intro hpq h h' dst_len env m session evs hcall
    obtain ⟨hash, ck, pe, idx, ek, hstate, hw⟩ :=
      Handshake.format_pq_handshake_response_writes hC hcall
    exact ⟨hash, ck, pe, idx, ek, hstate, _, _, _, rfl, rfl, hw.addressed hC (fun _ => hpq), rfl,
      rfl, rfl, rfl, rfl⟩
  cookie_reply := by
    intro l l' idx cookie mac1 dst_len m hcookie hcall
    exact parse_cookie_reply hX hcookie hcall
  data := by
    intro s s' src dst_len m evs hcounter hcall
    unfold Session.format_packet_data at hcall
    split at hcall
    · cases hcall
    cases hcall
    have hlt : s.sending_key_counter < 2 ^ 64 :=
      Nat.lt_of_lt_of_le hcounter (Nat.pow_le_pow_right (by decide) B.usize_bits_le)
    apply parse_data s.sending_index hlt
    show 16 ≤ (C.chacha_seal _ _ _ _).length
    rw [hC.seal_length]
    exact Nat.le_add_left ..
  handshake_unique := by
    intro d d' p hd hd' hkind
    have hsize : p.macs_size = 32 := if_pos hkind
    rw [← hsize]
    exact parse_eq_parse hd hd'
  unique := by
    intro d d' p hd hd' hkind
    have htake := (parse_eq_parse hd hd').2
    have hsize : p.macs_size = 0 := by
      rw [Packet.macs_size, hkind]
      rfl
    rw [hsize, Nat.sub_zero, Nat.sub_zero, List.take_length, List.take_length] at htake
    exact htake
  rejected := by
    intro d hframe
    exact parse_unframed hframe

/-- The initiation of a fresh tunnel. -/
theorem wire_format_initiation : WireFormat symbolic (symbolicBuild true) ∧
    ∃ m h' evs, symbolicTunn.handshake.format_pq_handshake_initiation 1332 (symbolicEnv 1)
      = (.ok m, h', evs) :=
  ⟨wire_format symbolic_correct.toSized symbolic_cookieCorrect.toCookieSized _, _, _, _, rfl⟩

end PqBoringtun
