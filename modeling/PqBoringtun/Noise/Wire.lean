import PqBoringtun.Noise.Machine

/-! # Messages on the wire

    Parsing inverts formatting for the handshake messages of both variants
    and for data packets, and a handshake message with the right mac1 passes
    a rate limiter that is not under load.  The results are equations for
    `Tunn.decapsulate` on such datagrams.
-/

namespace PqBoringtun

open Bytes

/-! ## Section 1: Fields of a message -/

/-- Skip a field of known length. -/
theorem slice_skip {a b : Bytes} {n lo hi : Nat} (ha : a.length = n) (h : n ≤ lo) :
    slice (a ++ b) lo hi = slice b (lo - n) (hi - n) := by
  subst ha
  exact slice_append_right a b h

/-- Read a field of known length. -/
theorem slice_read {a b : Bytes} {n : Nat} (ha : a.length = n) : slice (a ++ b) 0 n = a := by
  subst ha
  exact slice_append_left a b

/-- The type field. -/
theorem leValue_type {n : Nat} (h : n < 256) : leValue (leBytes 4 n) = n := by
  rw [leValue_leBytes]
  exact Nat.mod_eq_of_lt (h.trans_le (by decide))

/-- `x` is what the PQ variant adds to a message: nothing in the classical one. -/
def Variant.Carries (v : Variant) (n : Nat) (x : Option Bytes) : Prop :=
  match v with
  | .classical => x = none
  | .pq => ∃ bs, x = some bs ∧ bs.length = n

/-- An initiation without its macs. -/
def initMessage (v : Variant) (p : HandshakeInit) (ek : Option Bytes) : Bytes :=
  leBytes 4 v.init_type ++ le32 p.sender_idx ++ p.unencrypted_ephemeral ++ p.encrypted_static ++
    p.encrypted_timestamp ++ ek.getD []

/-- A response without its macs. -/
def respMessage (v : Variant) (p : HandshakeResponse) (ct : Option Bytes) : Bytes :=
  leBytes 4 v.resp_type ++ le32 p.sender_idx ++ le32 p.receiver_idx ++ p.unencrypted_ephemeral ++
    p.encrypted_nothing ++ ct.getD []

section parse
variable {B : Build} {macs : Bytes}

theorem parse_init (p : HandshakeInit) (hmacs : macs.length = 32) :
    parse_incoming_packet B (initMessage .classical p none ++ macs) = .ok (.HandshakeInit p) := by
  obtain ⟨idx, e, s, ts, he, hs, hts⟩ := p
  have hidx := length_le32 idx
  have htype := length_leBytes 4 HANDSHAKE_INIT
  simp only [initMessage, Variant.init_type, Option.getD_none, List.append_nil, List.append_assoc]
  unfold parse_incoming_packet
  rw [if_neg (by simp)]
  dsimp only
  rw [dif_pos ⟨by rw [slice_read htype]; exact leValue_type (by decide),
    by simp [he, hs, hts, hmacs, HANDSHAKE_INIT_SZ]⟩]
  simp (disch := decide) only [slice_skip htype, slice_skip hidx, slice_skip he, slice_skip hs,
    slice_read hidx, slice_read he, slice_read hs, slice_read hts, Nat.reduceSub, Nat.sub_self,
    u32_from_le_le32]

theorem parse_resp (p : HandshakeResponse) (hmacs : macs.length = 32) :
    parse_incoming_packet B (respMessage .classical p none ++ macs)
      = .ok (.HandshakeResponse p) := by
  obtain ⟨idx, peer, e, n, he, hn⟩ := p
  have hidx := length_le32 idx
  have hpeer := length_le32 peer
  have htype := length_leBytes 4 HANDSHAKE_RESP
  simp only [respMessage, Variant.resp_type, Option.getD_none, List.append_nil, List.append_assoc]
  generalize hsrc : leBytes 4 HANDSHAKE_RESP ++ (le32 idx ++ (le32 peer ++ (e ++ (n ++ macs)))) =
    src
  have hval : leValue (slice src 0 4) = HANDSHAKE_RESP := by
    rw [← hsrc, slice_read htype]
    exact leValue_type (by decide)
  have hlen : src.length = HANDSHAKE_RESP_SZ := by
    simp [← hsrc, he, hn, hmacs, HANDSHAKE_RESP_SZ]
  unfold parse_incoming_packet
  rw [if_neg (by rw [hlen]; decide)]
  dsimp only
  rw [dif_neg (fun h => absurd (hval ▸ h.1) (by decide)), dif_pos ⟨hval, hlen⟩]
  simp (disch := decide) only [← hsrc, slice_skip htype, slice_skip hidx, slice_skip hpeer,
    slice_skip he, slice_read hidx, slice_read hpeer, slice_read he, slice_read hn, Nat.reduceSub,
    Nat.sub_self, u32_from_le_le32]

theorem parse_pq_init (hpq : B.pq = true) (p : PqHandshakeInit) (hmacs : macs.length = 32) :
    parse_incoming_packet B
        (initMessage .pq p.toHandshakeInit (some p.mlkem_ephemeral_public) ++ macs)
      = .ok (.PqHandshakeInit p) := by
  obtain ⟨⟨idx, e, s, ts, he, hs, hts⟩, ek, hek⟩ := p
  have hidx := length_le32 idx
  have htype := length_leBytes 4 PQ_HANDSHAKE_INIT
  simp only [initMessage, Variant.init_type, Option.getD_some, List.append_assoc]
  generalize hsrc :
    leBytes 4 PQ_HANDSHAKE_INIT ++ (le32 idx ++ (e ++ (s ++ (ts ++ (ek ++ macs))))) = src
  have hval : leValue (slice src 0 4) = PQ_HANDSHAKE_INIT := by
    rw [← hsrc, slice_read htype]
    exact leValue_type (by decide)
  have hlen : src.length = PQ_HANDSHAKE_INIT_SZ := by
    simp [← hsrc, he, hs, hts, hek, hmacs, MLKEM768_PK_SIZE, PQ_HANDSHAKE_INIT_SZ]
  have hoff : 116 + MLKEM768_PK_SIZE - 4 - 4 - 32 - 48 - 28 = MLKEM768_PK_SIZE := rfl
  unfold parse_incoming_packet
  rw [if_neg (by rw [hlen]; decide)]
  dsimp only
  rw [dif_neg (fun h => absurd (hval ▸ h.1) (by decide)),
    dif_neg (fun h => absurd (hval ▸ h.1) (by decide)),
    if_neg (fun h => absurd (hval ▸ h.1) (by decide)),
    if_neg (fun h => absurd (hval ▸ h.1) (by decide)), dif_pos ⟨hpq, hval, hlen⟩]
  simp (disch := decide) only [← hsrc, slice_skip htype, slice_skip hidx, slice_skip he,
    slice_skip hs, slice_skip hts, slice_read hidx, slice_read he, slice_read hs, slice_read hts,
    slice_read hek, Nat.reduceSub, Nat.sub_self, u32_from_le_le32, hoff]

theorem parse_pq_resp (hpq : B.pq = true) (p : PqHandshakeResponse) (hmacs : macs.length = 32) :
    parse_incoming_packet B
        (respMessage .pq p.toHandshakeResponse (some p.mlkem_ciphertext) ++ macs)
      = .ok (.PqHandshakeResponse p) := by
  obtain ⟨⟨idx, peer, e, n, he, hn⟩, ct, hct⟩ := p
  have hidx := length_le32 idx
  have hpeer := length_le32 peer
  have htype := length_leBytes 4 PQ_HANDSHAKE_RESP
  simp only [respMessage, Variant.resp_type, Option.getD_some, List.append_assoc]
  generalize hsrc :
    leBytes 4 PQ_HANDSHAKE_RESP ++ (le32 idx ++ (le32 peer ++ (e ++ (n ++ (ct ++ macs))))) = src
  have hval : leValue (slice src 0 4) = PQ_HANDSHAKE_RESP := by
    rw [← hsrc, slice_read htype]
    exact leValue_type (by decide)
  have hlen : src.length = PQ_HANDSHAKE_RESP_SZ := by
    simp [← hsrc, he, hn, hct, hmacs, MLKEM768_CT_SIZE, PQ_HANDSHAKE_RESP_SZ]
  have hoff : 60 + MLKEM768_CT_SIZE - 4 - 4 - 4 - 32 - 16 = MLKEM768_CT_SIZE := rfl
  unfold parse_incoming_packet
  rw [if_neg (by rw [hlen]; decide)]
  dsimp only
  rw [dif_neg (fun h => absurd (hval ▸ h.1) (by decide)),
    dif_neg (fun h => absurd (hval ▸ h.1) (by decide)),
    if_neg (fun h => absurd (hval ▸ h.1) (by decide)),
    if_neg (fun h => absurd (hval ▸ h.1) (by decide)),
    dif_neg (fun h => absurd (hval ▸ h.2.1) (by decide)), dif_pos ⟨hpq, hval, hlen⟩]
  simp (disch := decide) only [← hsrc, slice_skip htype, slice_skip hidx, slice_skip hpeer,
    slice_skip he, slice_skip hn, slice_read hidx, slice_read hpeer, slice_read he, slice_read hn,
    slice_read hct, Nat.reduceSub, Nat.sub_self, u32_from_le_le32, hoff]

theorem parse_cookie (p : PacketCookieReply) (hnonce : p.nonce.length = 24)
    (hcookie : p.encrypted_cookie.length = 32) :
    parse_incoming_packet B
        (leBytes 4 COOKIE_REPLY ++ le32 p.receiver_idx ++ p.nonce ++ p.encrypted_cookie)
      = .ok (.PacketCookieReply p) := by
  obtain ⟨idx, nonce, cookie⟩ := p
  have hidx := length_le32 idx
  have htype := length_leBytes 4 COOKIE_REPLY
  have hlast : slice cookie 0 32 = cookie := by
    simpa using slice_read (b := []) hcookie
  simp only [List.append_assoc]
  generalize hsrc : leBytes 4 COOKIE_REPLY ++ (le32 idx ++ (nonce ++ cookie)) = src
  have hval : leValue (slice src 0 4) = COOKIE_REPLY := by
    rw [← hsrc, slice_read htype]
    exact leValue_type (by decide)
  have hlen : src.length = COOKIE_REPLY_SZ := by
    simp only [← hsrc, List.length_append, htype, hidx, hnonce, hcookie]
    rfl
  unfold parse_incoming_packet
  rw [if_neg (by rw [hlen]; decide)]
  dsimp only
  rw [dif_neg (fun h => absurd (hval ▸ h.1) (by decide)),
    dif_neg (fun h => absurd (hval ▸ h.1) (by decide)), if_pos ⟨hval, hlen⟩]
  simp (disch := decide) only [← hsrc, slice_skip htype, slice_skip hidx, slice_skip hnonce,
    slice_read hidx, slice_read hnonce, hlast, Nat.reduceSub, Nat.sub_self, u32_from_le_le32]

/-- A data packet with at least the tag of an empty plaintext. -/
theorem parse_data (idx : UInt32) {counter : Nat} (hcounter : counter < 2 ^ 64) {ct : Bytes}
    (hct : 16 ≤ ct.length) :
    parse_incoming_packet B (leBytes 4 DATA ++ le32 idx ++ leBytes 8 counter ++ ct)
      = .ok (.PacketData ⟨idx, counter, ct⟩) := by
  have hidx := length_le32 idx
  have htype := length_leBytes 4 DATA
  have hctr := length_leBytes 8 counter
  simp only [List.append_assoc]
  generalize hsrc : leBytes 4 DATA ++ (le32 idx ++ (leBytes 8 counter ++ ct)) = src
  have hval : leValue (slice src 0 4) = DATA := by
    rw [← hsrc, slice_read htype]
    exact leValue_type (by decide)
  have hlen : DATA_OVERHEAD_SZ ≤ src.length := by
    simp [← hsrc, DATA_OVERHEAD_SZ]
    omega
  have hdrop : src.drop 16 = ct := by
    rw [← hsrc, ← List.append_assoc, ← List.append_assoc]
    exact List.drop_left' (by simp)
  have hvalue : leValue (leBytes 8 counter) = counter := by
    rw [leValue_leBytes]
    exact Nat.mod_eq_of_lt hcounter
  unfold parse_incoming_packet
  rw [if_neg (by unfold DATA_OVERHEAD_SZ at hlen; omega)]
  dsimp only
  rw [dif_neg (fun h => absurd (hval ▸ h.1) (by decide)),
    dif_neg (fun h => absurd (hval ▸ h.1) (by decide)),
    if_neg (fun h => absurd (hval ▸ h.1) (by decide)), if_pos ⟨hval, hlen⟩, hdrop]
  simp (disch := decide) only [← hsrc, slice_skip htype, slice_skip hidx, slice_read hidx,
    slice_read hctr, Nat.reduceSub, Nat.sub_self, u32_from_le_le32, hvalue]

end parse

/-! ## Section 2: Through the rate limiter -/

variable {C : Crypto} {B : Build}

/-- The limiter after one more handshake message. -/
def RateLimiter.counted (l : RateLimiter) : RateLimiter :=
  { l with count := (l.count + 1) % 2 ^ 64 }

/-- A message is cut into what the macs are about and the macs. -/
theorem slices_of_macs (msg : Bytes) {mac1 mac2 : Bytes} (h1 : mac1.length = 16)
    (h2 : mac2.length = 16) {src : Bytes} (hsrc : src = msg ++ (mac1 ++ mac2)) :
    slice src 0 (src.length - 32) = msg ∧
      slice src (src.length - 32) (src.length - 16) = mac1 ∧
      slice src (src.length - 16) src.length = mac2 := by
  have hlen : src.length = msg.length + 32 := by
    simp [hsrc, h1, h2]
  rw [hlen, hsrc]
  refine ⟨slice_read rfl, ?_, ?_⟩
  · rw [slice_skip rfl (by omega), show msg.length + 32 - 32 - msg.length = 0 by omega,
      show msg.length + 32 - 16 - msg.length = 16 by omega]
    exact slice_read h1
  · rw [slice_skip rfl (by omega), slice_skip h1 (by omega),
      show msg.length + 32 - 16 - msg.length - 16 = 0 by omega,
      show msg.length + 32 - msg.length - 16 = 16 by omega]
    simpa using slice_read (b := []) h2

section macs
variable {l : RateLimiter} {msg mac1 mac2 : Bytes} {packet : Packet} {idx : UInt32}
  (hparse : parse_incoming_packet B (msg ++ (mac1 ++ mac2)) = .ok packet)
  (hidx : packet.sender_idx = some idx) (h1 : mac1.length = 16) (h2 : mac2.length = 16)
  (hmac1 : mac1 = b2s_keyed_mac_16 C l.mac1_key msg)
include hparse hidx h1 h2 hmac1

/-- A handshake message with the right mac1: under load, mac2 decides. -/
theorem RateLimiter.verify_packet_eq (addr : Option IpAddr) (n now : Nat) :
    l.verify_packet C B addr (msg ++ (mac1 ++ mac2)) n now =
      if l.count < l.limit then (.ok packet, l.counted)
      else match addr with
        | none => (.error (.Err .UnderLoad), l.counted)
        | some addr =>
          if b2s_keyed_mac_16_2 C (l.current_cookie C addr now) msg mac1 = mac2 then
            (.ok packet, l.counted)
          else match l.counted.format_cookie_reply C idx (l.current_cookie C addr now) mac1 n with
            | (.ok cookie_packet, l) => (.error (.WriteToNetwork cookie_packet), l)
            | (.error e, l) => (.error (.Err e), l) := by
  obtain ⟨hmsg, hmac, hmac'⟩ := slices_of_macs msg h1 h2 rfl
  unfold verify_packet
  rw [hparse]
  dsimp only
  rw [hidx]
  dsimp only
  rw [hmsg, hmac, hmac', if_neg (not_not.mpr hmac1.symm)]
  by_cases hload : l.count < l.limit
  · have hidle : l.is_under_load = (false, l.counted) :=
      congrArg (·, l.counted) (decide_eq_false (Nat.not_le.mpr hload))
    rw [if_pos hload, hidle]
    rfl
  · have hbusy : l.is_under_load = (true, l.counted) :=
      congrArg (·, l.counted) (decide_eq_true (Nat.le_of_not_lt hload))
    rw [if_neg hload, hbusy]
    rfl

/-- **A handshake message with the right mac1 passes a limiter that is not
    under load.** -/
theorem RateLimiter.verify_packet_ok (addr : Option IpAddr) (n now : Nat)
    (hload : l.count < l.limit) :
    l.verify_packet C B addr (msg ++ (mac1 ++ mac2)) n now = (.ok packet, l.counted) := by
  rw [verify_packet_eq hparse hidx h1 h2 hmac1, if_pos hload]

end macs

/-- A data packet is not rate limited. -/
theorem RateLimiter.verify_packet_data {l : RateLimiter} {src : Bytes} {packet : PacketData}
    (addr : Option IpAddr) (n now : Nat)
    (hparse : parse_incoming_packet B src = .ok (.PacketData packet)) :
    l.verify_packet C B addr src n now = (.ok (.PacketData packet), l) := by
  unfold verify_packet
  rw [hparse]
  rfl

namespace Tunn

variable {t : Tunn C} {addr : Option IpAddr} {dst_len : Nat} {env : Env} {mac1 mac2 : Bytes}

/-- Tunnel whose limiter counted one message. -/
def counted (t : Tunn C) : Tunn C := { t with rate_limiter := t.rate_limiter.counted }

theorem decapsulate_verified {src : Bytes} {packet : Packet} {l : RateLimiter} (hsrc : src ≠ [])
    (h : t.rate_limiter.verify_packet C B addr src COOKIE_REPLY_SZ (env.clock .cookie)
      = (.ok packet, l)) :
    t.decapsulate B addr src dst_len env
      = { t with rate_limiter := l }.handle_verified_packet B packet dst_len env := by
  unfold decapsulate
  rw [if_neg hsrc, h]

/-- **A well-formed initiation reaches the handshake.** -/
theorem decapsulate_init {v : Variant} {p : HandshakeInit} {ek : Option Bytes}
    (hv : v = .pq → B.pq = true) (hek : v.Carries MLKEM768_PK_SIZE ek)
    (h1 : mac1.length = 16) (h2 : mac2.length = 16)
    (hmac1 : mac1 = b2s_keyed_mac_16 C t.rate_limiter.mac1_key (initMessage v p ek))
    (hload : t.rate_limiter.count < t.rate_limiter.limit) :
    t.decapsulate B addr (initMessage v p ek ++ mac1 ++ mac2) dst_len env
      = (t.handshake.receive_initialization v p ek dst_len env >>= fun r =>
          pure (t.counted.handle_init r)) := by
  have hmacs : (mac1 ++ mac2).length = 32 := by simp [h1, h2]
  have hne : initMessage v p ek ++ (mac1 ++ mac2) ≠ [] := by
    intro h
    simpa [h1] using congrArg List.length h
  rw [List.append_assoc]
  cases v with
  | classical =>
    obtain rfl : ek = none := hek
    rw [decapsulate_verified hne (RateLimiter.verify_packet_ok (parse_init p hmacs) rfl h1 h2 hmac1
      addr _ _ hload)]
    rfl
  | pq =>
    obtain ⟨bs, rfl, hbs⟩ := hek
    rw [decapsulate_verified hne (RateLimiter.verify_packet_ok
      (parse_pq_init (hv rfl) ⟨p, bs, hbs⟩ hmacs) rfl h1 h2 hmac1 addr _ _ hload)]
    rfl

/-- **A well-formed response reaches the handshake.** -/
theorem decapsulate_resp {v : Variant} {p : HandshakeResponse} {ct : Option Bytes}
    (hv : v = .pq → B.pq = true) (hct : v.Carries MLKEM768_CT_SIZE ct)
    (h1 : mac1.length = 16) (h2 : mac2.length = 16)
    (hmac1 : mac1 = b2s_keyed_mac_16 C t.rate_limiter.mac1_key (respMessage v p ct))
    (hload : t.rate_limiter.count < t.rate_limiter.limit) :
    t.decapsulate B addr (respMessage v p ct ++ mac1 ++ mac2) dst_len env
      = (t.handshake.receive_response v p ct env >>= fun r =>
          t.counted.handle_response B r dst_len) := by
  have hmacs : (mac1 ++ mac2).length = 32 := by simp [h1, h2]
  have hne : respMessage v p ct ++ (mac1 ++ mac2) ≠ [] := by
    intro h
    simpa [h1] using congrArg List.length h
  rw [List.append_assoc]
  cases v with
  | classical =>
    obtain rfl : ct = none := hct
    rw [decapsulate_verified hne (RateLimiter.verify_packet_ok (parse_resp p hmacs) rfl h1 h2 hmac1
      addr _ _ hload)]
    rfl
  | pq =>
    obtain ⟨bs, rfl, hbs⟩ := hct
    rw [decapsulate_verified hne (RateLimiter.verify_packet_ok
      (parse_pq_resp (hv rfl) ⟨p, bs, hbs⟩ hmacs) rfl h1 h2 hmac1 addr _ _ hload)]
    rfl

/-- **A data packet reaches the session ring.** -/
theorem decapsulate_data {idx : UInt32} {counter : Nat} {ct : Bytes} (hcounter : counter < 2 ^ 64)
    (hct : 16 ≤ ct.length) :
    t.decapsulate B addr (leBytes 4 DATA ++ le32 idx ++ leBytes 8 counter ++ ct) dst_len env
      = t.handle_data B ⟨idx, counter, ct⟩ dst_len := by
  have hne : leBytes 4 DATA ++ le32 idx ++ leBytes 8 counter ++ ct ≠ [] := by
    intro h
    have := congrArg List.length h
    simp at this
  rw [decapsulate_verified hne
    (RateLimiter.verify_packet_data addr _ _ (parse_data idx hcounter hct))]
  rfl

end Tunn

end PqBoringtun
