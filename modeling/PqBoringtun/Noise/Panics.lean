import PqBoringtun.Noise.Checked

/-! # No datagram panics the tunnel

    The panics that are left in the receive path depend on data: a plaintext
    of an unexpected length, an ML-KEM key of an unexpected length, a state
    that is not the expected one, a buffer that is too small, and the sum of a
    packet counter and the window size.

    * Section 1: handshake messages.
    * Section 2: data packets; the sum is the only one that can overflow.
    * Section 3: `decapsulate`, with the checks of its slices.
-/

namespace PqBoringtun

variable {C : Crypto} {B : Build}

/-! ## Section 1: Handshake messages -/

/-- The encapsulation key that a response of this variant needs. -/
def EkFits (v : Variant) (ek : Option Bytes) : Prop :=
  v = .pq → ∃ key, ek = some key ∧ key.length = MLKEM768_PK_SIZE

theorem EkFits.classical (ek : Option Bytes) : EkFits .classical ek := by
  intro h
  cases h

theorem PqHandshakeInit.ekFits (p : PqHandshakeInit) :
    EkFits .pq (some p.mlkem_ephemeral_public) := fun _ => ⟨_, rfl, p.mlkem_length⟩

theorem encapsulate_returns {v : Variant} {ek : Option Bytes} (hek : EkFits v ek) (seed : Bytes) :
    ∃ res, (v.encapsulate C ek seed).run = .ok res := by
  cases v with
  | classical => exact ⟨_, rfl⟩
  | pq =>
    obtain ⟨key, rfl, hlen⟩ := hek rfl
    unfold Variant.encapsulate
    dsimp only
    rw [if_neg (not_not.mpr hlen)]
    split
    · exact ⟨_, rfl⟩
    · exact ⟨_, rfl⟩

theorem decapsulate_returns (v : Variant) (dk ct : Option Bytes) :
    ∃ res, (v.decapsulate C dk ct).run = .ok res := by
  unfold Variant.decapsulate
  split
  · exact ⟨_, rfl⟩
  split
  · split
    · exact ⟨_, rfl⟩
    · exact ⟨_, rfl⟩
  · exact ⟨_, rfl⟩

theorem complete_returns (hC : C.OpenSized) (p : NoiseParams C) (state : HandshakeInitSentState)
    (packet : HandshakeResponse) (kem : Option (Bytes × Bytes)) :
    ∃ res, (complete C p state packet kem).run = .ok res := by
  unfold complete
  dsimp only
  exact Attempt.run_bind_returns (open_returns hC packet.nothing_length) fun _ => ⟨_, rfl⟩

namespace Handshake

variable {v : Variant} (h : Handshake C)

/-- The state that a response is formatted from was written just before. -/
theorem receive_initialization_returns (hC : C.OpenSized) (packet : HandshakeInit)
    {ek : Option Bytes} (hek : EkFits v ek) (dst_len : Nat) (env : Env) :
    ∃ res, h.receive_initialization v packet ek dst_len env = .ok res := by
  obtain ⟨_ | c, hconsume⟩ :=
    consume_returns hC v h.params h.last_handshake_timestamp packet ek
  · exact ⟨_, Outcome.bind_eq_ok.mpr ⟨_, hconsume, rfl⟩⟩
  obtain ⟨kem, hkem⟩ := encapsulate_returns (C := C) hek env.mlkem_seed
  suffices hformat : ∃ res, (h.committed c packet ek).format_response v dst_len env = .ok res by
    obtain ⟨res, hformat⟩ := hformat
    exact ⟨res, Outcome.bind_eq_ok.mpr ⟨_, hconsume, hformat⟩⟩
  unfold format_response committed
  dsimp only
  split
  · exact ⟨_, rfl⟩
  rw [hkem, Outcome.ok_bind]
  cases kem with
  | error e => exact ⟨_, rfl⟩
  | ok kem => exact ⟨_, rfl⟩

theorem receive_response_returns (hC : C.OpenSized) (packet : HandshakeResponse)
    (ct : Option Bytes) (env : Env) : ∃ res, h.receive_response v packet ct env = .ok res := by
  unfold receive_response
  split
  · exact ⟨_, rfl⟩
  split
  · exact ⟨_, rfl⟩
  rename_i state is_previous _ _
  have hkeys : ∃ res, (response_keys v h.params state packet ct).run = .ok res :=
    Attempt.run_bind_returns (decapsulate_returns v _ _)
      fun kem => complete_returns hC h.params state packet kem
  obtain ⟨_ | keys, hkeys⟩ := hkeys
  · exact ⟨_, Outcome.bind_eq_ok.mpr ⟨_, hkeys, rfl⟩⟩
  · exact ⟨_, Outcome.bind_eq_ok.mpr ⟨_, hkeys, rfl⟩⟩

end Handshake

/-! ## Section 2: Data packets -/

/-- The sum of a counter and the window does not overflow where an overflow panics. -/
def CounterFits (B : Build) (counter : Nat) : Prop :=
  B.overflow_checks = true → counter < 2 ^ 64 - N_BITS

theorem add_u64_returns {a b : Nat} (h : B.overflow_checks = true → a + b < 2 ^ 64) :
    ∃ n, add_u64 B a b = .ok n := by
  unfold add_u64
  split
  · exact ⟨_, rfl⟩
  · rename_i hlarge
    rw [if_neg (fun hchecks => hlarge (h hchecks))]
    exact ⟨_, rfl⟩

namespace ReceivingKeyCounterValidator

variable {w : ReceivingKeyCounterValidator} {counter : Nat}

theorem will_accept_returns (h : CounterFits B counter) :
    ∃ res, w.will_accept B counter = .ok res := by
  obtain ⟨far, hfar⟩ := add_u64_returns (B := B) (a := counter) (b := N_BITS)
    fun hchecks => Nat.add_lt_of_lt_sub (h hchecks)
  unfold will_accept
  split
  · exact ⟨_, rfl⟩
  rw [hfar, Outcome.ok_bind]
  split
  · exact ⟨_, rfl⟩
  split
  · exact ⟨_, rfl⟩
  · exact ⟨_, rfl⟩

theorem mark_did_receive_returns (h : CounterFits B counter) :
    ∃ res, w.mark_did_receive B counter = .ok res := by
  obtain ⟨far, hfar⟩ := add_u64_returns (B := B) (a := counter) (b := N_BITS)
    fun hchecks => Nat.add_lt_of_lt_sub (h hchecks)
  obtain ⟨next, hnext⟩ := add_u64_returns (B := B) (a := counter) (b := 1) fun hchecks => by
    have hlt := h hchecks
    have : N_BITS = 1024 := rfl
    omega
  unfold mark_did_receive
  rw [hfar, Outcome.ok_bind]
  split
  · exact ⟨_, rfl⟩
  split
  · rename_i heq
    rw [← heq, hnext]
    exact ⟨_, rfl⟩
  split
  · split
    · exact ⟨_, rfl⟩
    · exact ⟨_, rfl⟩
  · rw [hnext]
    exact ⟨_, rfl⟩

end ReceivingKeyCounterValidator

theorem Session.receive_packet_data_returns {s : Session} {packet : PacketData} {dst_len : Nat}
    (hroom : packet.encrypted_encapsulated_packet.length ≤ dst_len)
    (hcounter : CounterFits B packet.counter) :
    ∃ res, s.receive_packet_data C B packet dst_len = .ok res := by
  unfold receive_packet_data
  rw [if_neg (Nat.not_lt.mpr hroom)]
  split
  · exact ⟨_, rfl⟩
  obtain ⟨check, hcheck⟩ : ∃ res, s.receiving_counter_quick_check B packet.counter = .ok res :=
    ReceivingKeyCounterValidator.will_accept_returns hcounter
  rw [hcheck, Outcome.ok_bind]
  cases check with
  | error e => exact ⟨_, rfl⟩
  | ok u =>
    dsimp only
    split
    · exact ⟨_, rfl⟩
    obtain ⟨⟨marked, v⟩, hmark⟩ : ∃ res,
        s.receiving_key_counter.mark_did_receive B packet.counter = .ok res :=
      ReceivingKeyCounterValidator.mark_did_receive_returns hcounter
    unfold receiving_counter_mark
    rw [hmark, Outcome.ok_bind]
    cases marked with
    | error e => exact ⟨_, rfl⟩
    | ok u => exact ⟨_, rfl⟩

/-! ## Section 3: `decapsulate` -/

/-- The cookie reply of the limiter fits the smallest buffer. -/
theorem RateLimiter.cookie_length (hC : C.Sized) (hcookies : C.CookieSized) {l : RateLimiter}
    {addr : Option IpAddr} {src cookie : Bytes} {size now : Nat}
    (h : (l.verify_packet C B addr src size now).1 = .error (.WriteToNetwork cookie)) :
    cookie.length = COOKIE_REPLY_SZ := by
  unfold verify_packet at h
  dsimp only at h
  repeat' split at h
  all_goals cases h
  rename_i hreply
  unfold format_cookie_reply at hreply
  split at hreply
  · cases hreply
  · cases hreply
    have hmac : ∀ r addr now, (current_cookie C r addr now).length = 16 :=
      fun _ _ _ => hC.mac_length _ _
    simp [b2s_mac_24, hcookies.mac_24_length, hcookies.xchacha_seal_length, hmac,
      COOKIE_REPLY_SZ]

namespace Tunn

variable {t : Tunn C} {dst_len : Nat} {env : Env}

theorem handle_response_returns (hroom : DATA_OVERHEAD_SZ ≤ dst_len)
    (r : Except WireGuardError Session × Handshake C × List Event) :
    ∃ res, t.handle_response B r dst_len = .ok res := by
  obtain ⟨_ | session, handshake, events⟩ := r
  · exact ⟨_, rfl⟩
  · unfold handle_response Session.format_packet_data
    dsimp only
    rw [if_neg (by simpa using hroom)]
    exact ⟨_, rfl⟩

theorem handle_data_returns {packet : PacketData}
    (hroom : packet.encrypted_encapsulated_packet.length ≤ dst_len)
    (hcounter : CounterFits B packet.counter) :
    ∃ res, t.handle_data B packet dst_len = .ok res := by
  unfold handle_data
  dsimp only
  split
  · exact ⟨_, rfl⟩
  rename_i session _
  obtain ⟨⟨result, session', events⟩, hreceive⟩ :=
    Session.receive_packet_data_returns (C := C) (s := session) hroom hcounter
  rw [hreceive, Outcome.ok_bind]
  cases result with
  | error e => exact ⟨_, rfl⟩
  | ok plaintext => exact ⟨_, rfl⟩

theorem handle_verified_packet_returns (hC : C.OpenSized) (packet : Packet)
    (hroom : DATA_OVERHEAD_SZ ≤ dst_len)
    (hdata : ∀ p, packet = .PacketData p →
      p.encrypted_encapsulated_packet.length ≤ dst_len ∧ CounterFits B p.counter) :
    ∃ res, t.handle_verified_packet B packet dst_len env = .ok res := by
  cases packet with
  | HandshakeInit p =>
    obtain ⟨res, hres⟩ := t.handshake.receive_initialization_returns hC p (EkFits.classical none)
      dst_len env
    exact ⟨_, Outcome.bind_eq_ok.mpr ⟨res, hres, rfl⟩⟩
  | PqHandshakeInit p =>
    obtain ⟨res, hres⟩ := t.handshake.receive_initialization_returns hC p.toHandshakeInit p.ekFits
      dst_len env
    exact ⟨_, Outcome.bind_eq_ok.mpr ⟨res, hres, rfl⟩⟩
  | HandshakeResponse p =>
    obtain ⟨r, hr⟩ := t.handshake.receive_response_returns (v := .classical) hC p none env
    obtain ⟨res, hres⟩ := handle_response_returns (B := B) (t := t) hroom r
    exact ⟨res, Outcome.bind_eq_ok.mpr ⟨r, hr, hres⟩⟩
  | PqHandshakeResponse p =>
    obtain ⟨r, hr⟩ := t.handshake.receive_response_returns (v := .pq) hC p.toHandshakeResponse
      (some p.mlkem_ciphertext) env
    obtain ⟨res, hres⟩ := handle_response_returns (B := B) (t := t) hroom r
    exact ⟨res, Outcome.bind_eq_ok.mpr ⟨r, hr, hres⟩⟩
  | PacketCookieReply p => exact ⟨_, rfl⟩
  | PacketData p => exact handle_data_returns (hdata p rfl).1 (hdata p rfl).2

/-- The ciphertext of a data packet is a part of the datagram. -/
theorem parse_data_length {datagram : Bytes} {p : PacketData}
    (hparse : parse_incoming_packet B datagram = .ok (.PacketData p)) :
    p.encrypted_encapsulated_packet.length ≤ datagram.length := by
  obtain ⟨macs, hd, _⟩ := parse_message hparse
  rw [hd]
  simp only [Packet.message, List.length_append]
  omega

theorem decapsulate_returns (hC : C.Sized) (hcookies : C.CookieSized) (hopen : C.OpenSized)
    (addr : Option IpAddr) {datagram : Bytes} (hne : datagram ≠ [])
    (hdst : max COOKIE_REPLY_SZ datagram.length ≤ dst_len)
    (hcounter : ∀ p, parse_incoming_packet B datagram = .ok (.PacketData p) →
      CounterFits B p.counter) :
    ∃ res, t.decapsulate B addr datagram dst_len env = .ok res := by
  obtain ⟨hcookie, hroom⟩ := Nat.max_le.mp hdst
  unfold decapsulate
  rw [if_neg hne]
  cases hverify : t.rate_limiter.verify_packet C B addr datagram COOKIE_REPLY_SZ
      (env.clock .cookie) with
  | mk verified limiter =>
    dsimp only
    cases verified with
    | ok packet =>
      have hparse := RateLimiter.verify_packet_parse hverify
      refine handle_verified_packet_returns hopen packet ?_ ?_
      · exact Nat.le_trans (by decide) hcookie
      · rintro p rfl
        exact ⟨(parse_data_length hparse).trans hroom, hcounter p hparse⟩
    | error r =>
      have herror := congrArg Prod.fst hverify
      -- The limiter returns nothing else, so the `unreachable!` is one.
      rcases RateLimiter.verify_packet_error herror with ⟨rest, rfl⟩ | ⟨e, rfl⟩
      · dsimp only
        rw [if_neg (by rw [RateLimiter.cookie_length hC hcookies herror]; omega)]
        exact ⟨_, rfl⟩
      · exact ⟨_, rfl⟩

/-- **No datagram panics the tunnel.**  In every state of the tunnel, for every
    datagram that is not empty and every buffer of at least 64 bytes and at
    least the length of the datagram, `decapsulate` returns: all its slices,
    copies and conversions fit, and no panic is reached.  Where overflows
    panic, the counter of a data packet must leave room for the window size. -/
theorem no_remote_panic (hC : C.Sized) (hcookies : C.CookieSized) (hopen : C.OpenSized)
    (t : Tunn C) (addr : Option IpAddr) {datagram dst : Bytes} (env : Env) (hne : datagram ≠ [])
    (hdst : max COOKIE_REPLY_SZ datagram.length ≤ dst.length)
    (hcounter : ∀ p, parse_incoming_packet B datagram = .ok (.PacketData p) →
      CounterFits B p.counter) :
    ∃ res, Checked.decapsulate B t addr datagram dst env = .ok res := by
  rw [Checked.decapsulate_eq hC hcookies]
  exact decapsulate_returns hC hcookies hopen addr hne hdst hcounter

/-- An empty data packet with counter 5, for the session with index 1. -/
def smallPacket : Bytes :=
  Bytes.leBytes 4 DATA ++ le32 1 ++ Bytes.leBytes 8 5 ++ List.replicate 16 0

/-- A tunnel without sessions returns from a data packet, also where overflows panic. -/
theorem no_remote_panic_data :
    let B := { symbolicBuild true with overflow_checks := true }
    (∃ p, parse_incoming_packet B smallPacket = .ok (.PacketData p)) ∧
      ∃ res, Checked.decapsulate B symbolicTunn none smallPacket (List.replicate 64 0)
        (symbolicEnv 1) = .ok res := by
  intro B
  have hparse : parse_incoming_packet B smallPacket
      = .ok (.PacketData ⟨1, 5, List.replicate 16 0⟩) := rfl
  refine ⟨⟨_, hparse⟩, no_remote_panic symbolic_correct.toSized
    symbolic_cookieCorrect.toCookieSized symbolic_openSized _ none _ (by decide) (by decide) ?_⟩
  intro p hp _
  rw [hparse] at hp
  cases hp
  decide

end Tunn

end PqBoringtun
