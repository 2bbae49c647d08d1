import PqBoringtun.Noise.Encoding

/-! # Cookies

    A receiver under load answers a handshake message with a cookie: a mac of
    the sender's address under a secret that changes every 128 seconds,
    encrypted under the receiver's public key and bound to mac1 of the
    message.  The sender puts it to use in mac2 of its next messages.

    The two sides compute the key, the associated data and the macs in
    different places.  `cookie_completes` follows one exchange through all of
    them, for the four kinds of handshake messages.
-/

namespace PqBoringtun

open Bytes

variable {C : Crypto} {S R : Build}

/-- The handshake `h` forms the message `m`. -/
inductive Handshake.Forms (B : Build) (h : Handshake C) (m : Bytes) (h' : Handshake C) : Prop where
  | initiation (dst_len : Nat) (env : Env) (evs : List Event)
      (hcall : h.format_handshake_initiation dst_len env = (.ok m, h', evs))
  | response (dst_len : Nat) (env : Env) (session : Session) (evs : List Event)
      (hcall : h.format_handshake_response dst_len env = .ok (.ok (m, session), h', evs))
  | pq_initiation (hpq : B.pq = true) (dst_len : Nat) (env : Env) (evs : List Event)
      (hcall : h.format_pq_handshake_initiation dst_len env = (.ok m, h', evs))
  | pq_response (hpq : B.pq = true) (dst_len : Nat) (env : Env) (session : Session)
      (evs : List Event)
      (hcall : h.format_pq_handshake_response dst_len env = .ok (.ok (m, session), h', evs))

/-- `m` is the last handshake message that was formed: its mac1 and its index
    are the ones remembered, and the peer is still the same. -/
def Handshake.LastMessage (B : Build) (h : Handshake C) (m : Bytes) : Prop :=
  ∃ h₀ h₁ : Handshake C, h₀.Forms B m h₁ ∧ h.cookies.last_mac1 = h₁.cookies.last_mac1 ∧
    h.cookies.index = h₁.cookies.index ∧
    h.params.peer_static_public = h₁.params.peer_static_public

/-- A formed message is a packet with its macs. -/
theorem Handshake.Forms.writes (hC : C.Sized) {h h' : Handshake C} {m : Bytes}
    (hforms : h.Forms S m h') :
    ∃ p : Packet, (p.is_pq = true → S.pq = true) ∧ h.Writes p m h' := by
  cases hforms with
  | initiation dst_len env evs hcall =>
    refine ⟨_, ?_, format_handshake_initiation_writes hC hcall⟩
    intro hpq
    cases hpq
  | response dst_len env session evs hcall =>
    obtain ⟨_, _, _, _, _, _, hw⟩ := format_handshake_response_writes hC hcall
    refine ⟨_, ?_, hw⟩
    intro hpq
    cases hpq
  | pq_initiation hpq dst_len env evs hcall =>
    exact ⟨_, fun _ => hpq, format_pq_handshake_initiation_writes hC hcall⟩
  | pq_response hpq dst_len env session evs hcall =>
    obtain ⟨_, _, _, _, _, _, hw⟩ := format_pq_handshake_response_writes hC hcall
    exact ⟨_, fun _ => hpq, hw⟩

namespace RateLimiter

/-- The cookie period of a time. -/
def period (l : RateLimiter) (now : Nat) : Nat := (now - l.start_time) / SEC / COOKIE_REFRESH

/-- The limiter with other counters. -/
def later (l : RateLimiter) (count nonce_ctr last_reset : Nat) : RateLimiter :=
  { l with count := count, nonce_ctr := nonce_ctr, last_reset := last_reset }

/-- A cookie stays the same during its period. -/
theorem current_cookie_later {l : RateLimiter} {now now' : Nat} (count nonce_ctr last_reset : Nat)
    (addr : IpAddr) (h : l.period now' = l.period now) :
    (l.later count nonce_ctr last_reset).current_cookie C addr now' =
    l.current_cookie C addr now := by
  unfold period at h
  simp only [current_cookie, later, h]

end RateLimiter

/-- The reply to a message under load, as it is parsed. -/
theorem Handshake.Writes.cookie_reply (hC : C.Sized) (hX : C.CookieSized) {h h' : Handshake C}
    {p : Packet} {m reply : Bytes} (hw : h.Writes p m h') (hpq : p.is_pq = true → R.pq = true)
    {l l' : RateLimiter}
    (hkey : l.mac1_key = b2s_hash C LABEL_MAC1 h.params.peer_static_public)
    {a : IpAddr} {n now : Nat}
    (hreply : l.verify_packet C R (some a) m n now = (.error (.WriteToNetwork reply), l')) :
    ∃ nonce, parse_incoming_packet S reply = .ok (.PacketCookieReply ⟨h'.cookies.index, nonce,
      C.xchacha_seal l.cookie_key nonce (h.mac1 p.message) (l.current_cookie C a now)⟩) := by
  rw [hw.verify hC hpq hkey] at hreply
  split at hreply
  · cases hreply
  dsimp only at hreply
  split at hreply
  · cases hreply
  split at hreply
  · rename_i hformat
    cases hreply
    exact ⟨_, parse_cookie_reply (l := l.counted) hX (hC.mac_length _ _) hformat⟩
  · cases hreply

/-- A message formed with the receiver's cookie passes, whatever the load is. -/
theorem Handshake.Writes.passes (hC : C.Sized) {h h' : Handshake C} {p : Packet} {m : Bytes}
    (hw : h.Writes p m h') (hpq : p.is_pq = true → R.pq = true) {l : RateLimiter}
    (hkey : l.mac1_key = b2s_hash C LABEL_MAC1 h.params.peer_static_public) {a : IpAddr} {now : Nat}
    (hcookie : h.cookies.write_cookie = some (l.current_cookie C a now)) (n : Nat) :
    (l.verify_packet C R (some a) m n now).1 = .ok p := by
  have hmac2 : b2s_keyed_mac_16_2 C (l.current_cookie C a now) p.message (h.mac1 p.message)
      = h.mac2 p.message := by
    unfold mac2
    rw [hcookie]
    rfl
  rw [hw.verify hC hpq hkey]
  split
  · rfl
  · dsimp only
    rw [if_pos hmac2]

/-- **The cookie mechanism completes.**  `S` is the sender's build and `R` the
    receiver's.  The sender accepts the reply to its last message and stores
    the receiver's cookie; what it forms with this cookie passes the receiver,
    whatever its counters are, as long as the period lasts. -/
theorem cookie_completes (hC : C.Sized) (hX : C.CookieCorrect) (hbuild : S.pq = true → R.pq = true)
    {h : Handshake C} {m reply : Bytes} {l l' : RateLimiter} {a : IpAddr} {n now : Nat}
    (hlast : h.LastMessage S m)
    (hmac1 : l.mac1_key = b2s_hash C LABEL_MAC1 h.params.peer_static_public)
    (hkey : l.cookie_key = b2s_hash C LABEL_COOKIE h.params.peer_static_public)
    (hreply : l.verify_packet C R (some a) m n now = (.error (.WriteToNetwork reply), l')) :
    ∃ p, parse_incoming_packet S reply = .ok (.PacketCookieReply p) ∧
      h.receive_cookie_reply p = (.ok (), { h with
        cookies := { h.cookies with write_cookie := some (l.current_cookie C a now) } }) ∧
      ∀ (h₂ h₃ : Handshake C) (m₂ : Bytes), h₂.Forms S m₂ h₃ →
        h₂.params.peer_static_public = h.params.peer_static_public →
        h₂.cookies.write_cookie = some (l.current_cookie C a now) →
        ∀ count nonce_ctr last_reset n₂ now₂, l.period now₂ = l.period now →
          ∃ packet, parse_incoming_packet R m₂ = .ok packet ∧
            ((l.later count nonce_ctr last_reset).verify_packet C R (some a) m₂ n₂ now₂).1
              = .ok packet := by
  obtain ⟨h₀, h₁, hforms, hlast_mac1, hindex, hpeer⟩ := hlast
  obtain ⟨p, hpq, hw⟩ := hforms.writes hC
  have hsame : h₀.params.peer_static_public = h.params.peer_static_public := by
    rw [hpeer, hw.params]
  obtain ⟨nonce, hparse⟩ := hw.cookie_reply (S := S) hC hX.toCookieSized (fun h => hbuild (hpq h))
    (hsame.symm ▸ hmac1) hreply
  refine ⟨_, hparse, ?_, ?_⟩
  · unfold Handshake.receive_cookie_reply
    rw [hlast_mac1, hw.last_mac1, hkey]
    dsimp only
    rw [if_neg (not_not.mpr hindex.symm), hX.xchacha_open_seal]
    dsimp only
    have hlen : (l.current_cookie C a now).length = 16 := hC.mac_length _ _
    rw [if_neg (not_not.mpr hlen)]
  · intro h₂ h₃ m₂ hforms₂ hpeer₂ hcookie₂ count nonce_ctr last_reset n₂ now₂ hperiod
    obtain ⟨p₂, hpq₂, hw₂⟩ := hforms₂.writes hC
    have hparse₂ := hw₂.parse hC fun h => hbuild (hpq₂ h)
    refine ⟨p₂, hparse₂, hw₂.passes hC (fun h => hbuild (hpq₂ h)) ?_ ?_ n₂⟩
    · rw [hpeer₂]
      exact hmac1
    · rw [l.current_cookie_later count nonce_ctr last_reset a hperiod]
      exact hcookie₂

/-! ## An exchange -/

/-- A limiter of the symbolic tunnel's peer that is always under load. -/
def symbolicLimiter : RateLimiter :=
  RateLimiter.new symbolic (List.replicate 32 9) 0 0 (symbolicEnv 0)

/-- The first initiation of a tunnel is answered with a cookie, which it accepts. -/
theorem cookie_completes_initiation :
    ∃ m h' reply l', symbolicTunn.handshake.Forms (symbolicBuild true) m h' ∧
      symbolicLimiter.verify_packet symbolic (symbolicBuild true) (some (.V4 1)) m 64 0
        = (.error (.WriteToNetwork reply), l') ∧
      ∃ p, parse_incoming_packet (symbolicBuild true) reply = .ok (.PacketCookieReply p) ∧
        (h'.receive_cookie_reply p).1 = .ok () := by
  obtain ⟨m, h', evs, hcall⟩ : ∃ m h' evs,
      symbolicTunn.handshake.format_pq_handshake_initiation 1332 (symbolicEnv 1)
        = (.ok m, h', evs) := ⟨_, _, _, rfl⟩
  have hw := Handshake.format_pq_handshake_initiation_writes symbolic_correct.toSized hcall
  have hforms : symbolicTunn.handshake.Forms (symbolicBuild true) m h' :=
    .pq_initiation rfl _ _ _ hcall
  have hpeer : h'.params.peer_static_public = List.replicate 32 9 := by
    rw [hw.params]
    rfl
  obtain ⟨reply, l', hreply⟩ : ∃ reply l',
      symbolicLimiter.verify_packet symbolic (symbolicBuild true) (some (.V4 1)) m 64 0
        = (.error (.WriteToNetwork reply), l') := by
    rw [hw.verify symbolic_correct.toSized (fun _ => rfl) rfl]
    exact ⟨_, _, rfl⟩
  obtain ⟨p, hparse, haccept, _⟩ := cookie_completes symbolic_correct.toSized symbolic_cookieCorrect
    id ⟨_, h', hforms, rfl, rfl, rfl⟩ (by rw [hpeer]; rfl) (by rw [hpeer]; rfl) hreply
  exact ⟨m, h', reply, l', hforms, hreply, p, hparse, by rw [haccept]⟩

end PqBoringtun
