import PqBoringtun.Noise.Tunn

/-! # What the calls of a tunnel do

    One inversion lemma per call: the ways in which it can return, with the
    new state and the events of each way.  The proofs about runs cite these
    and do not unfold the calls.

    * Section 1: the handshake's own calls.
    * Section 2: initiations and packets sent by a tunnel.
    * Section 3: datagrams, classical and PQ packets as one case.
    * Section 4: timer updates.
    * Section 5: any operation.
-/

namespace PqBoringtun

variable {C : Crypto} {B : Build} {dst_len : Nat} {env : Env} {evs : List Event}

/-! ## Section 1: Handshakes -/

/-- A response is matched to the initiation in one of the slots. -/
theorem response_slot_eq {state previous : HandshakeState} {idx : UInt32}
    {s : HandshakeInitSentState} {is_previous : Bool}
    (h : response_slot state previous idx = some (s, is_previous)) :
    (if is_previous then previous else state) = .InitSent s := by
  have hawaiting : ∀ {st : HandshakeState} {s}, st.awaiting idx = some s → st = .InitSent s := by
    intro st s h
    unfold HandshakeState.awaiting at h
    split at h
    · split at h
      · cases h
        rfl
      · cases h
    · cases h
  unfold response_slot at h
  split at h
  · rename_i hst
    cases h
    exact hawaiting hst
  · obtain ⟨s', hs', heq⟩ := Option.map_eq_some_iff.mp h
    cases heq
    exact hawaiting hs'

theorem response_slot_sent {state previous : HandshakeState} {idx : UInt32}
    {s : HandshakeInitSentState} {is_previous : Bool}
    (h : response_slot state previous idx = some (s, is_previous)) :
    state = .InitSent s ∨ previous = .InitSent s := by
  have hheld := response_slot_eq h
  cases is_previous with
  | false => exact Or.inl hheld
  | true => exact Or.inr hheld

namespace Handshake

variable {v : Variant} {h h' : Handshake C}

/-- The handshake after an own initiation. -/
def initiated (v : Variant) (h : Handshake C) (env : Env) (cookies : Cookies) : Handshake C :=
  { h with
    next_index := inc_index h.next_index
    previous := h.state
    state := .InitSent (initSent C v h.params (inc_index h.next_index) env.ephemeral
      env.mlkem_seed (h.stamper.stamp (env.clock .stamp)) (env.clock .sent))
    cookies := cookies }

/-- **An initiation is formed whenever there is room for it.** -/
theorem format_initiation_cases {res : Except WireGuardError Bytes}
    (hcall : h.format_initiation v dst_len env = (res, h', evs)) :
    (dst_len < v.init_size ∧ res = .error .DestinationBufferTooSmall ∧ h' = h ∧ evs = []) ∨
      (v.init_size ≤ dst_len ∧ ∃ m cookies i, res = .ok m ∧ h' = h.initiated v env cookies ∧
        i = initiate C v h.params env.ephemeral (h.stamper.stamp (env.clock .stamp))
          ((v.keygen C env.mlkem_seed).map Prod.snd) ∧
        evs = [.generated env.ephemeral,
          .handshake .encrypted_static env.ephemeral i.encrypted_static,
          .handshake .encrypted_timestamp env.ephemeral i.encrypted_timestamp]) := by
  unfold format_initiation at hcall
  split at hcall
  · rename_i hsmall
    cases hcall
    exact Or.inl ⟨hsmall, rfl, rfl, rfl⟩
  · rename_i hroom
    cases hcall
    exact Or.inr ⟨Nat.le_of_not_lt hroom, _, _, _, rfl, rfl, rfl, rfl⟩

/-- An initiation starts with its type and the new index. -/
theorem format_initiation_header {m : Bytes}
    (hcall : h.format_initiation v dst_len env = (.ok m, h', evs)) :
    ∃ rest, m = Bytes.leBytes 4 v.init_type ++ le32 (inc_index h.next_index) ++ rest := by
  unfold format_initiation at hcall
  split at hcall
  · cases hcall
  · cases hcall
    simp only [List.append_assoc]
    exact ⟨_, rfl⟩

/-- How a peer's initiation is received. -/
inductive ReceivesInit (v : Variant) (h : Handshake C) (packet : HandshakeInit)
    (ek : Option Bytes) (dst_len : Nat) (env : Env) :
    Except WireGuardError (Bytes × Session) → Handshake C → List Event → Prop where
  /-- It is not accepted. -/
  | rejected (e : WireGuardError)
      (hc : (consume C v h.params h.last_handshake_timestamp packet ek).run = .ok (.error e)) :
      ReceivesInit v h packet ek dst_len env (.error e) h []
  /-- It is accepted, but there is no room for a response. -/
  | stalled (c : Consumed)
      (hc : (consume C v h.params h.last_handshake_timestamp packet ek).run = .ok (.ok c))
      (hdst : dst_len < v.resp_size) :
      ReceivesInit v h packet ek dst_len env (.error .DestinationBufferTooSmall)
        (h.committed c packet ek) []
  /-- It is accepted, but its ML-KEM key is not valid. -/
  | refused (c : Consumed) (e : WireGuardError)
      (hc : (consume C v h.params h.last_handshake_timestamp packet ek).run = .ok (.ok c))
      (hdst : v.resp_size ≤ dst_len)
      (hkem : (v.encapsulate C ek env.mlkem_seed).run = .ok (.error e)) :
      ReceivesInit v h packet ek dst_len env (.error e)
        { h.committed c packet ek with state := .None, next_index := inc_index h.next_index }
        [.generated env.ephemeral]
  /-- It is accepted and answered. -/
  | answered (c : Consumed) (kem : Option (Bytes × Bytes)) (r : Response) (session : Session)
      (m : Bytes) (cookies : Cookies)
      (hc : (consume C v h.params h.last_handshake_timestamp packet ek).run = .ok (.ok c))
      (hdst : v.resp_size ≤ dst_len)
      (hkem : (v.encapsulate C ek env.mlkem_seed).run = .ok (.ok kem))
      (hr : r = respond C h.params c.hash c.chaining_key packet.unencrypted_ephemeral
        env.ephemeral kem)
      (hsession : session = Session.new (inc_index h.next_index) packet.sender_idx
        r.receiving_key r.sending_key)
      (hm : ∃ rest, m = Bytes.leBytes 4 v.resp_type ++ le32 (inc_index h.next_index) ++ rest) :
      ReceivesInit v h packet ek dst_len env (.ok (m, session))
        { h.committed c packet ek with
          state := .None, next_index := inc_index h.next_index, cookies := cookies }
        [.generated env.ephemeral, .handshake .encrypted_nothing env.ephemeral r.encrypted_nothing,
          .established false session.id env.ephemeral]

theorem receive_initialization_cases {packet : HandshakeInit} {ek : Option Bytes}
    {res : Except WireGuardError (Bytes × Session)}
    (hcall : h.receive_initialization v packet ek dst_len env = .ok (res, h', evs)) :
    ReceivesInit v h packet ek dst_len env res h' evs := by
  obtain ⟨consumed, hc, hcall⟩ := Outcome.bind_eq_ok.mp hcall
  cases consumed with
  | error e =>
    cases hcall
    exact .rejected e hc
  | ok c =>
    dsimp only [format_response, committed] at hcall
    split at hcall
    · rename_i hsmall
      cases hcall
      exact .stalled c hc hsmall
    · rename_i hroom
      obtain ⟨kem, hkem, hcall⟩ := Outcome.bind_eq_ok.mp hcall
      cases kem with
      | error e =>
        cases hcall
        exact .refused c e hc (Nat.le_of_not_lt hroom) hkem
      | ok kem =>
        cases hcall
        refine .answered c kem _ _ _ _ hc (Nat.le_of_not_lt hroom) hkem rfl rfl ?_
        simp only [append_mac1_and_mac2, List.append_assoc]
        exact ⟨_, rfl⟩

/-- How a response is received. -/
inductive ReceivesResponse (v : Variant) (h : Handshake C) (packet : HandshakeResponse)
    (ct : Option Bytes) (env : Env) :
    Except WireGuardError Session → Handshake C → List Event → Prop where
  | rejected (e : WireGuardError) : ReceivesResponse v h packet ct env (.error e) h []
  /-- It answers the initiation `s` in one of the slots. -/
  | accepted (s : HandshakeInitSentState) (is_previous : Bool) (rk sk : Bytes) (session : Session)
      (hslot : response_slot h.state h.previous packet.receiver_idx = some (s, is_previous))
      (htype : v = .classical → s.mlkem_decapsulation_key = none)
      (hkeys : (response_keys v h.params s packet ct).run = .ok (.ok (rk, sk)))
      (hsession : session = Session.new s.local_index packet.sender_idx rk sk) :
      ReceivesResponse v h packet ct env (.ok session)
        (h.answered is_previous (env.clock .rtt - s.time_sent))
        [.established true session.id s.ephemeral_private]

theorem receive_response_cases {packet : HandshakeResponse} {ct : Option Bytes}
    {res : Except WireGuardError Session}
    (hcall : h.receive_response v packet ct env = .ok (res, h', evs)) :
    ReceivesResponse v h packet ct env res h' evs := by
  unfold receive_response at hcall
  split at hcall
  · cases hcall
    exact .rejected _
  rename_i s is_previous hslot
  split at hcall
  · cases hcall
    exact .rejected _
  rename_i htype
  obtain ⟨keys, hkeys, hcall⟩ := Outcome.bind_eq_ok.mp hcall
  rcases keys with e | ⟨rk, sk⟩
  · cases hcall
    exact .rejected e
  · cases hcall
    refine .accepted s is_previous rk sk _ hslot (fun hv => ?_) hkeys rfl
    exact Option.not_isSome_iff_eq_none.mp fun hsome => htype ⟨hv, hsome⟩

/-- A cookie reply changes the cookies at most. -/
theorem receive_cookie_reply_cases (h : Handshake C) (packet : PacketCookieReply) :
    ∃ result cookies, h.receive_cookie_reply packet = (result, { h with cookies := cookies }) := by
  unfold receive_cookie_reply
  split
  · exact ⟨_, _, rfl⟩
  split
  · exact ⟨_, _, rfl⟩
  dsimp only
  split
  · exact ⟨_, _, rfl⟩
  split
  · exact ⟨_, _, rfl⟩
  · exact ⟨_, _, rfl⟩

end Handshake

/-! ## Section 2: Sending -/

namespace Tunn

variable {t t' : Tunn C} {r : TunnResult}

/-- The timers of an expired tunnel are cleared before a new handshake. -/
def cleared (t : Tunn C) (env : Env) : Tunn C :=
  if t.handshake.is_expired then { t with timers := t.timers.clear (env.clock .clear) } else t

/-- The tunnel after an own initiation that leaves the handshake `h'`. -/
def initiated (t : Tunn C) (env : Env) (h' : Handshake C) : Tunn C :=
  let t₁ := { t.cleared env with handshake := h' }
  (if t.handshake.is_in_progress then t₁ else t₁.timer_tick .TimeLastHandshakeStarted).timer_tick
    .TimeLastPacketSent

@[simp] theorem cleared_handshake (t : Tunn C) (env : Env) :
    (t.cleared env).handshake = t.handshake := by
  unfold cleared
  split <;> rfl

@[simp] theorem initiated_handshake (t : Tunn C) (env : Env) (h' : Handshake C) :
    (t.initiated env h').handshake = h' := by
  unfold initiated
  dsimp only
  split <;> rfl

@[simp] theorem queue_packet_handshake (t : Tunn C) (src : Bytes) :
    (t.queue_packet src).handshake = t.handshake := by
  unfold queue_packet
  split <;> rfl

@[simp] theorem requeue_packet_handshake (t : Tunn C) (src : Bytes) :
    (t.requeue_packet src).handshake = t.handshake := by
  unfold requeue_packet
  split <;> rfl

@[simp] theorem set_current_session_handshake (t : Tunn C) (i : Nat) :
    (t.set_current_session i).handshake = t.handshake := by
  unfold set_current_session
  split
  · rfl
  · split <;> rfl

@[simp] theorem set_current_session_sessions (t : Tunn C) (i : Nat) :
    (t.set_current_session i).sessions = t.sessions := by
  unfold set_current_session
  split
  · rfl
  · split <;> rfl

@[simp] theorem set_current_session_timers (t : Tunn C) (i : Nat) :
    (t.set_current_session i).timers = t.timers := by
  unfold set_current_session
  split
  · rfl
  · split <;> rfl

/-- How `format_handshake_initiation` returns. -/
inductive Starts (B : Build) (t : Tunn C) (dst_len : Nat) (force : Bool) (env : Env) :
    TunnResult → Tunn C → List Event → Prop where
  | busy (hbusy : t.handshake.is_in_progress = true) (hforce : force = false) :
      Starts B t dst_len force env .Done t []
  | no_room (hidle : force = false → t.handshake.is_in_progress = false)
      (hdst : dst_len < B.variant.init_size) :
      Starts B t dst_len force env (.Err .DestinationBufferTooSmall) (t.cleared env) []
  | sent (m : Bytes) (h' : Handshake C) (evs : List Event)
      (hidle : force = false → t.handshake.is_in_progress = false)
      (hcall : t.handshake.format_initiation B.variant dst_len env = (.ok m, h', evs)) :
      Starts B t dst_len force env (.WriteToNetwork m) (t.initiated env h') evs

theorem format_handshake_initiation_cases {force : Bool}
    (hcall : t.format_handshake_initiation B dst_len force env = (r, t', evs)) :
    Starts B t dst_len force env r t' evs := by
  unfold format_handshake_initiation at hcall
  split at hcall
  · rename_i hbusy
    cases hcall
    exact .busy (by simp_all) (by simp_all)
  rename_i hidle
  have hidle : force = false → t.handshake.is_in_progress = false := by
    intro hforce
    simpa [hforce] using hidle
  have hcleared : (if t.handshake.is_expired then
      { t with timers := t.timers.clear (env.clock .clear) } else t) = t.cleared env := rfl
  rw [hcleared] at hcall
  simp only [Handshake.format_initiation_variant, cleared_handshake] at hcall
  rcases hf : t.handshake.format_initiation B.variant dst_len env with ⟨res, h', evs'⟩
  rw [hf] at hcall
  cases res with
  | error e =>
    cases hcall
    rcases Handshake.format_initiation_cases hf with
      ⟨hsmall, he, hsame, rfl⟩ | ⟨_, _, _, _, hok, _⟩
    · cases he
      have heta : { t.cleared env with handshake := h' } = t.cleared env := by
        rw [hsame, ← cleared_handshake t env]
      rw [heta]
      exact .no_room hidle hsmall
    · cases hok
  | ok m =>
    have hsent : Starts B t dst_len force env _ _ _ := .sent m h' evs' hidle hf
    cases hcall
    unfold initiated at hsent
    cases hbusy : t.handshake.is_in_progress <;> simpa [hbusy] using hsent

/-- The tunnel after a packet was sealed on its current session. -/
def after_send (B : Build) (t : Tunn C) (session : Session) (src : Bytes) : Tunn C :=
  let t := (t.store_session t.current (session.sent B)).timer_tick .TimeLastPacketSent
  let t := if src ≠ [] then t.timer_tick .TimeLastDataPacketSent else t
  { t with tx_bytes := t.tx_bytes + src.length }

@[simp] theorem after_send_handshake (t : Tunn C) (session : Session) (src : Bytes) :
    (t.after_send B session src).handshake = t.handshake := by
  unfold after_send
  dsimp only
  split <;> rfl

/-- How `encapsulate` returns. -/
inductive Encapsulates (B : Build) (t : Tunn C) (src : Bytes) (dst_len : Nat) (env : Env) :
    TunnResult → Tunn C → List Event → Prop where
  | sealed (session : Session) (packet : Bytes)
      (hsession : t.sessions (slot t.current) = some session)
      (htype : ∃ rest, packet = Bytes.leBytes 4 DATA ++ rest) :
      Encapsulates B t src dst_len env (.WriteToNetwork packet) (t.after_send B session src)
        [.data session.id session.sending_key_counter (session.packet_seal C src)]
  | queued {r : TunnResult} {t' : Tunn C} {evs : List Event}
      (hnone : t.sessions (slot t.current) = none)
      (hstart : Starts B (t.queue_packet src) dst_len false env r t' evs) :
      Encapsulates B t src dst_len env r t' evs

theorem encapsulate_cases {src : Bytes} (hcall : t.encapsulate B src dst_len env =
    .ok (r, t', evs)) :
    Encapsulates B t src dst_len env r t' evs := by
  unfold encapsulate at hcall
  split at hcall
  · rename_i session hsession
    obtain ⟨⟨packet, session', evs'⟩, hfmt, hcall⟩ := Outcome.bind_eq_ok.mp hcall
    have htype := Session.format_packet_data_type hfmt
    obtain ⟨rfl, rfl⟩ := Session.format_packet_data_ok hfmt
    cases hcall
    exact .sealed session packet hsession htype
  · rename_i hnone
    injection hcall with hcall
    exact .queued hnone (format_handshake_initiation_cases hcall)

/-- How `send_queued_packet` returns. -/
inductive Flushes (B : Build) (t : Tunn C) (dst_len : Nat) (env : Env) :
    TunnResult → Tunn C → List Event → Prop where
  | empty (hqueue : t.packet_queue = []) : Flushes B t dst_len env .Done t []
  /-- On error, the packet goes back to the queue. -/
  | failed (packet : Bytes) (rest : List Bytes) (e : WireGuardError) (t₁ : Tunn C)
      (evs : List Event) (hqueue : t.packet_queue = packet :: rest)
      (henc : Encapsulates B { t with packet_queue := rest } packet dst_len env (.Err e) t₁ evs) :
      Flushes B t dst_len env .Done (t₁.requeue_packet packet) evs
  | passed (packet : Bytes) (rest : List Bytes) {r : TunnResult} {t' : Tunn C} {evs : List Event}
      (hqueue : t.packet_queue = packet :: rest) (hr : ∀ e, r ≠ .Err e)
      (henc : Encapsulates B { t with packet_queue := rest } packet dst_len env r t' evs) :
      Flushes B t dst_len env r t' evs

theorem send_queued_packet_cases (hcall : t.send_queued_packet B dst_len env = .ok (r, t', evs)) :
    Flushes B t dst_len env r t' evs := by
  unfold send_queued_packet at hcall
  split at hcall
  · rename_i hqueue
    cases hcall
    exact .empty hqueue
  · rename_i packet rest hqueue
    obtain ⟨⟨r₁, t₁, evs₁⟩, henc, hcall⟩ := Outcome.bind_eq_ok.mp hcall
    split at hcall
    · rename_i e t₂ evs₂ heq
      cases heq
      cases hcall
      exact .failed packet rest e t₁ _ hqueue (encapsulate_cases henc)
    · rename_i hr
      cases hcall
      exact .passed packet rest hqueue (fun e heq => hr e t' evs (by rw [heq]))
        (encapsulate_cases henc)

end Tunn

/-! ## Section 3: Receiving -/

/-- The variant and the fields of an initiation. -/
def Packet.initiation? : Packet → Option (Variant × PqBoringtun.HandshakeInit × Option Bytes)
  | .HandshakeInit p => some (.classical, p, none)
  | .PqHandshakeInit p => some (.pq, p.toHandshakeInit, some p.mlkem_ephemeral_public)
  | _ => none

/-- The variant and the fields of a response. -/
def Packet.response? : Packet → Option (Variant × PqBoringtun.HandshakeResponse × Option Bytes)
  | .HandshakeResponse p => some (.classical, p, none)
  | .PqHandshakeResponse p => some (.pq, p.toHandshakeResponse, some p.mlkem_ciphertext)
  | _ => none

/-- A packet that passes the limiter is the parsed datagram. -/
theorem RateLimiter.verify_packet_parse {l l' : RateLimiter} {addr : Option IpAddr} {src : Bytes}
    {n now : Nat} {packet : Packet}
    (h : l.verify_packet C B addr src n now = (.ok packet, l')) :
    parse_incoming_packet B src = .ok packet := by
  unfold verify_packet at h
  split at h
  · cases h
  rename_i parsed hparse
  rw [hparse]
  congr 1
  split at h
  · cases h
    rfl
  dsimp only at h
  split at h
  · cases h
  split at h
  · cases h
    rfl
  split at h
  · cases h
  split at h
  · cases h
    rfl
  · split at h <;> cases h

namespace Tunn

variable {t t' : Tunn C} {r : TunnResult}

/-- How `handle_data` returns. -/
inductive ReceivesData (B : Build) (t : Tunn C) (packet : PacketData) :
    TunnResult → Tunn C → List Event → Prop where
  | rejected (e : WireGuardError) : ReceivesData B t packet (.Err e) t []
  | accepted (session : Session) (plaintext : Bytes) (v : ReceivingKeyCounterValidator)
      (t₁ : Tunn C) (hsession : t.sessions (slot packet.receiver_idx.toNat) = some session)
      (haccepts : session.Accepts C B packet plaintext v)
      (ht₁ : t₁ = ((t.store_session packet.receiver_idx.toNat
        (session.received v)).set_current_session packet.receiver_idx.toNat).timer_tick
          .TimeLastPacketReceived) :
      ReceivesData B t packet (t₁.validate_decapsulated_packet plaintext).1
        (t₁.validate_decapsulated_packet plaintext).2
        [.opened session.id packet.counter plaintext packet.encrypted_encapsulated_packet]

theorem handle_data_cases {packet : PacketData}
    (hcall : t.handle_data B packet dst_len = .ok (r, t', evs)) :
    ReceivesData B t packet r t' evs := by
  unfold handle_data at hcall
  dsimp only at hcall
  split at hcall
  · cases hcall
    exact .rejected _
  rename_i session hsession
  obtain ⟨⟨result, session', evs'⟩, hrecv, hcall⟩ := Outcome.bind_eq_ok.mp hcall
  rcases Session.receive_packet_data_cases hrecv with
    ⟨e, rfl, rfl, rfl⟩ | ⟨plaintext, v, rfl, haccepts, rfl, rfl⟩
  · -- Storing the unchanged session back changes nothing.
    have hsame : t.store_session packet.receiver_idx.toNat session' = t := by
      unfold store_session
      rw [← hsession, Function.update_eq_self]
    rw [hsame] at hcall
    cases hcall
    exact .rejected e
  · cases hcall
    exact .accepted session plaintext v _ hsession haccepts rfl

/-- How `handle_verified_packet` returns. -/
inductive Handles (B : Build) (t : Tunn C) (dst_len : Nat) (env : Env) :
    Packet → TunnResult → Tunn C → List Event → Prop where
  | init {packet : Packet} (v : Variant) (p : HandshakeInit) (ek : Option Bytes)
      {res : Except WireGuardError (Bytes × Session)} {h' : Handshake C} {r : TunnResult}
      {t' : Tunn C} {evs : List Event} (hpacket : packet.initiation? = some (v, p, ek))
      (hreceives : t.handshake.ReceivesInit v p ek dst_len env res h' evs)
      (hres : t.handle_init (res, h', evs) = (r, t', evs)) :
      Handles B t dst_len env packet r t' evs
  | response {packet : Packet} (v : Variant) (p : HandshakeResponse) (ct : Option Bytes)
      {res : Except WireGuardError Session} {h' : Handshake C} {r : TunnResult} {t' : Tunn C}
      {evs evs' : List Event} (hpacket : packet.response? = some (v, p, ct))
      (hreceives : t.handshake.ReceivesResponse v p ct env res h' evs)
      (hres : t.handle_response B (res, h', evs) dst_len = .ok (r, t', evs')) :
      Handles B t dst_len env packet r t' evs'
  | cookie (p : PacketCookieReply) {r : TunnResult} {t' : Tunn C} {evs : List Event}
      (hres : t.handle_cookie_reply p = (r, t', evs)) :
      Handles B t dst_len env (.PacketCookieReply p) r t' evs
  | data (p : PacketData) {r : TunnResult} {t' : Tunn C} {evs : List Event}
      (hreceives : t.ReceivesData B p r t' evs) : Handles B t dst_len env (.PacketData p) r t' evs

theorem handle_init_events
    (res : Except WireGuardError (Bytes × Session) × Handshake C × List Event) :
    (t.handle_init res).2.2 = res.2.2 := by
  rcases res with ⟨_ | ⟨packet, session⟩, h', evs'⟩ <;> rfl

theorem handle_verified_packet_cases {packet : Packet}
    (hcall : t.handle_verified_packet B packet dst_len env = .ok (r, t', evs)) :
    Handles B t dst_len env packet r t' evs := by
  -- The classical and the PQ packet of a kind differ in the variant only.
  have hinit : ∀ v p ek, packet.initiation? = some (v, p, ek) →
      (t.handshake.receive_initialization v p ek dst_len env >>= fun res =>
        pure (t.handle_init res)) = .ok (r, t', evs) → Handles B t dst_len env packet r t' evs := by
    intro v p ek hpacket hcall
    obtain ⟨⟨res, h', evs'⟩, hres, hcall⟩ := Outcome.bind_eq_ok.mp hcall
    injection hcall with hcall
    obtain rfl : evs' = evs := by
      have hevs := t.handle_init_events (res, h', evs')
      rw [hcall] at hevs
      exact hevs.symm
    exact .init v p ek hpacket (Handshake.receive_initialization_cases hres) hcall
  have hresponse : ∀ v p ct, packet.response? = some (v, p, ct) →
      (t.handshake.receive_response v p ct env >>= fun res =>
        t.handle_response B res dst_len) = .ok (r, t', evs) →
          Handles B t dst_len env packet r t' evs := by
    intro v p ct hpacket hcall
    obtain ⟨⟨res, h', evs'⟩, hres, hcall⟩ := Outcome.bind_eq_ok.mp hcall
    exact .response v p ct hpacket (Handshake.receive_response_cases hres) hcall
  cases packet with
  | HandshakeInit p => exact hinit .classical p none rfl hcall
  | PqHandshakeInit p =>
    exact hinit .pq p.toHandshakeInit (some p.mlkem_ephemeral_public) rfl hcall
  | HandshakeResponse p => exact hresponse .classical p none rfl hcall
  | PqHandshakeResponse p =>
    exact hresponse .pq p.toHandshakeResponse (some p.mlkem_ciphertext) rfl hcall
  | PacketCookieReply p =>
    injection hcall with hcall
    exact .cookie p hcall
  | PacketData p => exact .data p (handle_data_cases hcall)

/-- How `decapsulate` returns. -/
inductive Decapsulates (B : Build) (t : Tunn C) (addr : Option IpAddr) (datagram : Bytes)
    (dst_len : Nat) (env : Env) : TunnResult → Tunn C → List Event → Prop where
  | flush {r : TunnResult} {t' : Tunn C} {evs : List Event} (hempty : datagram = [])
      (hflush : t.Flushes B dst_len env r t' evs) :
      Decapsulates B t addr datagram dst_len env r t' evs
  | verified (packet : Packet) (limiter : RateLimiter) {r : TunnResult} {t' : Tunn C}
      {evs : List Event} (hne : datagram ≠ [])
      (hverify : t.rate_limiter.verify_packet C B addr datagram COOKIE_REPLY_SZ
        (env.clock .cookie) = (.ok packet, limiter))
      (hhandles : { t with rate_limiter := limiter }.Handles B dst_len env packet r t' evs) :
      Decapsulates B t addr datagram dst_len env r t' evs
  /-- The limiter answers or drops the datagram. -/
  | dropped (limiter : RateLimiter) (r : TunnResult) (hne : datagram ≠ [])
      (hverify : t.rate_limiter.verify_packet C B addr datagram COOKIE_REPLY_SZ
        (env.clock .cookie) = (.error r, limiter))
      (hr : (∃ rest, r = .WriteToNetwork (Bytes.leBytes 4 COOKIE_REPLY ++ rest)) ∨
        ∃ e, r = .Err e) :
      Decapsulates B t addr datagram dst_len env r { t with rate_limiter := limiter } []

theorem decapsulate_cases {addr : Option IpAddr} {datagram : Bytes}
    (hcall : t.decapsulate B addr datagram dst_len env = .ok (r, t', evs)) :
    Decapsulates B t addr datagram dst_len env r t' evs := by
  unfold decapsulate at hcall
  split at hcall
  · rename_i hempty
    exact .flush hempty (send_queued_packet_cases hcall)
  rename_i hne
  rcases hverify : t.rate_limiter.verify_packet C B addr datagram COOKIE_REPLY_SZ
    (env.clock .cookie) with ⟨verified, limiter⟩
  rw [hverify] at hcall
  dsimp only at hcall
  split at hcall
  · exact .verified _ limiter hne hverify (handle_verified_packet_cases hcall)
  · split at hcall
    · cases hcall
    · cases hcall
      exact .dropped limiter _ hne hverify (RateLimiter.verify_packet_error (by rw [hverify]))
  · cases hcall
    exact .dropped limiter _ hne hverify (Or.inr ⟨_, rfl⟩)
  · cases hcall

/-! ## Section 4: Timer updates -/

theorem reached_ok {now since duration : Nat} {b : Bool} (h : reached now since duration = .ok b) :
    since ≤ now ∧ (b = true ↔ duration ≤ now - since) := by
  unfold reached sub_duration at h
  split at h
  · rename_i hle
    cases h
    exact ⟨hle, by simp⟩
  · cases h

/-- The first part of `update_timers`: the time is read and old sessions are dropped. -/
theorem refresh_cases (h : t.refresh env = .ok t') :
    ∃ limiter now, now = env.clock .update - t.timers.time_started ∧
      limiter = (if t.timers.should_reset_rr then t.rate_limiter.reset_count (env.clock .reset)
        else t.rate_limiter) ∧
      (∀ i, t.timers.session_timers i ≤ now) ∧ t' = { t with
        rate_limiter := limiter
        sessions := fun i =>
          if REJECT_AFTER_TIME < now - t.timers.session_timers i then none else t.sessions i
        timers := { t.timers with
          timers := Function.update t.timers.timers .TimeCurrent now
          session_timers := fun i =>
            if REJECT_AFTER_TIME < now - t.timers.session_timers i then now
            else t.timers.session_timers i } } := by
  unfold refresh update_session_timers at h
  dsimp only at h
  split at h
  · rename_i hle
    cases h
    exact ⟨_, _, rfl, rfl, hle, by simp only [decide_eq_true_eq]⟩
  · cases h

theorem expire_cookie_cases {now : Nat} (h : t.expire_cookie now = .ok t') :
    ∃ cookies, t' = { t with handshake := { t.handshake with cookies := cookies } } := by
  obtain ⟨due, _, h⟩ := Outcome.bind_eq_ok.mp h
  cases h
  cases due
  · exact ⟨_, rfl⟩
  · exact ⟨_, rfl⟩

theorem handshake_required_cases {now : Nat} {required : Bool}
    (h : t.handshake_required now = .ok (required, t')) :
    ∃ want, t' = { t with timers := { t.timers with want_handshake := want } } := by
  obtain ⟨_, _, h⟩ := Outcome.bind_eq_ok.mp h
  obtain ⟨_, _, h⟩ := Outcome.bind_eq_ok.mp h
  obtain ⟨no_answer, _, h⟩ := Outcome.bind_eq_ok.mp h
  cases h
  cases no_answer
  · exact ⟨_, rfl⟩
  · exact ⟨_, rfl⟩

theorem keepalive_required_cases {now : Nat} {required : Bool}
    (h : t.keepalive_required now = .ok (required, t')) :
    ∃ want, t' = { t with timers := { t.timers with want_keepalive := want } } ∨
      t' = { t with timers := { t.timers with want_keepalive := want } }.timer_tick
        .TimePersistentKeepalive := by
  obtain ⟨silent, _, h⟩ := Outcome.bind_eq_ok.mp h
  obtain ⟨persistent, _, h⟩ := Outcome.bind_eq_ok.mp h
  cases h
  cases silent <;> cases persistent
  · exact ⟨_, Or.inl rfl⟩
  · exact ⟨_, Or.inr rfl⟩
  · exact ⟨_, Or.inl rfl⟩
  · exact ⟨_, Or.inr rfl⟩

/-- The current time in the timers. -/
def now (t : Tunn C) : Nat := t.timers.timers .TimeCurrent

/-- No new keys for too long, or no answer for too long. -/
def Overdue (t : Tunn C) : Prop :=
  REJECT_AFTER_TIME * 3 ≤ t.now - t.timers.timers .TimeSessionEstablished ∨
    ((∃ s, t.handshake.state = .InitSent s) ∧
      REKEY_ATTEMPT_TIME ≤ t.now - t.timers.timers .TimeLastHandshakeStarted)

/-- How `update_timers` returns after the time was read, for a tunnel that has not expired. -/
inductive Ticks (B : Build) (t : Tunn C) (dst_len : Nat) (env : Env) :
    TunnResult → Tunn C → List Event → Prop where
  | expires (hdue : t.Overdue) :
      Ticks B t dst_len env (.Err .ConnectionExpired) (t.expire env) []
  /-- Handshake initiation retransmission. -/
  | retransmits (s : HandshakeInitSentState) {r : TunnResult} {t' : Tunn C} {evs : List Event}
      (hlive : ¬ t.Overdue) (hstate : t.handshake.state = .InitSent s)
      (hdue : REKEY_TIMEOUT ≤ env.clock .elapsed - s.time_sent)
      (hstart : t.Starts B dst_len true env r t' evs) : Ticks B t dst_len env r t' evs
  | waits (s : HandshakeInitSentState) (hlive : ¬ t.Overdue)
      (hstate : t.handshake.state = .InitSent s)
      (hearly : env.clock .elapsed - s.time_sent < REKEY_TIMEOUT) :
      Ticks B t dst_len env .Done t []
  /-- A new handshake is due. -/
  | rekeys (want : Bool) {r : TunnResult} {t' : Tunn C} {evs : List Event}
      (hlive : ¬ t.Overdue) (hstate : ∀ s, t.handshake.state ≠ .InitSent s)
      (hstart : { t with timers := { t.timers with want_handshake := want } }.Starts B dst_len true
        env r t' evs) : Ticks B t dst_len env r t' evs
  | keepalive (want want' : Bool) (t₁ : Tunn C) {r : TunnResult} {t' : Tunn C} {evs : List Event}
      (hlive : ¬ t.Overdue) (hstate : ∀ s, t.handshake.state ≠ .InitSent s)
      (ht₁ : t₁ = { t with timers :=
          { t.timers with want_handshake := want, want_keepalive := want' } } ∨
        t₁ = { t with timers := { t.timers with
          want_handshake := want, want_keepalive := want' } }.timer_tick .TimePersistentKeepalive)
      (henc : t₁.Encapsulates B [] dst_len env r t' evs ∨ (r = .Done ∧ t' = t₁ ∧ evs = [])) :
      Ticks B t dst_len env r t' evs

/-- How `update_timers` returns. -/
inductive Updates (B : Build) (t : Tunn C) (dst_len : Nat) (env : Env) :
    TunnResult → Tunn C → List Event → Prop where
  | expired (t₁ : Tunn C) (hrefresh : t.refresh env = .ok t₁)
      (hexpired : t₁.handshake.is_expired = true) :
      Updates B t dst_len env (.Err .ConnectionExpired) t₁ []
  | ticks (t₁ : Tunn C) (cookies : Cookies) {r : TunnResult} {t' : Tunn C} {evs : List Event}
      (hrefresh : t.refresh env = .ok t₁) (hlive : t₁.handshake.is_expired = false)
      (hticks : { t₁ with handshake := { t₁.handshake with cookies := cookies } }.Ticks B dst_len
        env r t' evs) : Updates B t dst_len env r t' evs

theorem timer_some {h : Handshake C} {time : Nat} (htimer : h.timer = some time) :
    ∃ s, h.state = .InitSent s ∧ s.time_sent = time := by
  unfold Handshake.timer at htimer
  split at htimer
  · rename_i s hs
    cases htimer
    exact ⟨s, hs, rfl⟩
  · cases htimer

theorem timer_none {h : Handshake C} (htimer : h.timer = none) (s : HandshakeInitSentState) :
    h.state ≠ .InitSent s := by
  intro hs
  unfold Handshake.timer at htimer
  rw [hs] at htimer
  cases htimer

theorem update_timers_cases (hcall : t.update_timers B dst_len env = .ok (r, t', evs)) :
    Updates B t dst_len env r t' evs := by
  obtain ⟨t₁, hrefresh, hcall⟩ := Outcome.bind_eq_ok.mp hcall
  dsimp only at hcall
  split at hcall
  · rename_i hexpired
    cases hcall
    exact .expired _ hrefresh hexpired
  rename_i hlive
  obtain ⟨t₂, hcookie, hcall⟩ := Outcome.bind_eq_ok.mp hcall
  obtain ⟨cookies, rfl⟩ := expire_cookie_cases hcookie
  refine .ticks t₁ cookies hrefresh (by simpa using hlive) ?_
  obtain ⟨old, hold, hcall⟩ := Outcome.bind_eq_ok.mp hcall
  split at hcall
  · rename_i hdue
    cases hcall
    exact .expires (Or.inl ((reached_ok hold).2.mp hdue))
  rename_i hfresh
  have hfresh := mt (reached_ok hold).2.mpr hfresh
  split at hcall
  · rename_i time htimer
    obtain ⟨s, hstate, rfl⟩ := timer_some htimer
    obtain ⟨late, hlate, hcall⟩ := Outcome.bind_eq_ok.mp hcall
    split at hcall
    · rename_i hdue
      cases hcall
      exact .expires (Or.inr ⟨⟨s, hstate⟩, (reached_ok hlate).2.mp hdue⟩)
    rename_i hrecent
    have hlive : ¬ Overdue _ := not_or.mpr ⟨hfresh,
      fun hlong => hrecent ((reached_ok hlate).2.mpr hlong.2)⟩
    split at hcall
    · rename_i hdue
      injection hcall with hcall
      exact .retransmits s hlive hstate hdue (format_handshake_initiation_cases hcall)
    · rename_i hearly
      cases hcall
      exact .waits s hlive hstate (Nat.lt_of_not_le hearly)
  · rename_i htimer
    have hidle := timer_none htimer
    have hlive : ¬ Overdue _ := not_or.mpr ⟨hfresh, fun hlong => hlong.1.elim hidle⟩
    obtain ⟨⟨required, t₃⟩, hrequired, hcall⟩ := Outcome.bind_eq_ok.mp hcall
    obtain ⟨want, rfl⟩ := handshake_required_cases hrequired
    dsimp only at hcall
    split at hcall
    · injection hcall with hcall
      exact .rekeys want hlive hidle (format_handshake_initiation_cases hcall)
    obtain ⟨⟨required', t₄⟩, hkeepalive, hcall⟩ := Outcome.bind_eq_ok.mp hcall
    obtain ⟨want', ht₄⟩ := keepalive_required_cases hkeepalive
    dsimp only at hcall
    split at hcall
    · exact .keepalive want want' t₄ hlive hidle ht₄ (Or.inl (encapsulate_cases hcall))
    · cases hcall
      exact .keepalive want want' _ hlive hidle ht₄ (Or.inr ⟨rfl, rfl, rfl⟩)

/-! ## Section 5: Operations -/

/-- The packet that an operation hands to `handle_verified_packet`. -/
def received (B : Build) (t : Tunn C) (env : Env) : Op → Option Packet
  | .handle_verified_packet packet _ => some packet
  | .decapsulate addr datagram _ =>
    if datagram = [] then none
    else match (t.rate_limiter.verify_packet C B addr datagram COOKIE_REPLY_SZ
        (env.clock .cookie)).1 with
      | .ok packet => some packet
      | .error _ => none
  | _ => none

/-- How an operation returns. -/
inductive Steps (B : Build) (t : Tunn C) (env : Env) :
    Op → TunnResult → Tunn C → List Event → Prop where
  | handles {op : Op} (packet : Packet) (limiter : RateLimiter) (dst_len : Nat) {r : TunnResult}
      {t' : Tunn C} {evs : List Event} (hreceived : t.received B env op = some packet)
      (hlimiter : limiter = t.rate_limiter ∨ ∃ addr datagram, limiter =
        (t.rate_limiter.verify_packet C B addr datagram COOKIE_REPLY_SZ (env.clock .cookie)).2)
      (hhandles : { t with rate_limiter := limiter }.Handles B dst_len env packet r t' evs) :
      Steps B t env op r t' evs
  | drops (addr : Option IpAddr) (datagram : Bytes) (dst_len : Nat) (r : TunnResult)
      (limiter : RateLimiter)
      (hreceived : t.received B env (.decapsulate addr datagram dst_len) = none)
      (hlimiter : limiter =
        (t.rate_limiter.verify_packet C B addr datagram COOKIE_REPLY_SZ (env.clock .cookie)).2)
      (hr : (∃ rest, r = .WriteToNetwork (Bytes.leBytes 4 COOKIE_REPLY ++ rest)) ∨
        ∃ e, r = .Err e) :
      Steps B t env (.decapsulate addr datagram dst_len) r { t with rate_limiter := limiter } []
  | flushes (addr : Option IpAddr) (dst_len : Nat) {r : TunnResult} {t' : Tunn C}
      {evs : List Event} (hflush : t.Flushes B dst_len env r t' evs) :
      Steps B t env (.decapsulate addr [] dst_len) r t' evs
  | encapsulates (src : Bytes) (dst_len : Nat) {r : TunnResult} {t' : Tunn C} {evs : List Event}
      (henc : t.Encapsulates B src dst_len env r t' evs) :
      Steps B t env (.encapsulate src dst_len) r t' evs
  | updates (dst_len : Nat) {r : TunnResult} {t' : Tunn C} {evs : List Event}
      (hupdate : t.Updates B dst_len env r t' evs) : Steps B t env (.update_timers dst_len) r t' evs
  | starts (dst_len : Nat) (force : Bool) {r : TunnResult} {t' : Tunn C} {evs : List Event}
      (hstart : t.Starts B dst_len force env r t' evs) :
      Steps B t env (.format_handshake_initiation dst_len force) r t' evs
  | rekeys (priv pub : Bytes) (limiter : Option RateLimiter) (t' : Tunn C)
      (hset : t.set_static_private priv pub limiter env = .ok t') :
      Steps B t env (.set_static_private priv pub limiter) .Done t' []
  | shares (count nonce_ctr last_reset : Nat) :
      Steps B t env (.shared count nonce_ctr last_reset) .Done { t with
        rate_limiter := { t.rate_limiter with
          count := count, nonce_ctr := nonce_ctr, last_reset := last_reset } } []

/-- **What an operation can do.** -/
theorem step_cases {op : Op} (hstep : t.step B op env = .ok (r, t', evs)) :
    t.Steps B env op r t' evs := by
  cases op with
  | encapsulate src dst_len => exact .encapsulates src dst_len (encapsulate_cases hstep)
  | decapsulate addr datagram dst_len =>
    cases decapsulate_cases hstep with
    | flush hempty hflush =>
      subst hempty
      exact .flushes addr dst_len hflush
    | verified packet limiter hne hverify hhandles =>
      refine .handles packet limiter dst_len ?_ (Or.inr ⟨addr, datagram, ?_⟩) hhandles
      · simp [received, hne, hverify]
      · rw [hverify]
    | dropped limiter r hne hverify hr =>
      refine .drops addr datagram dst_len r limiter ?_ ?_ hr
      · simp [received, hverify]
      · rw [hverify]
  | handle_verified_packet packet dst_len =>
    exact .handles packet t.rate_limiter dst_len rfl (Or.inl rfl)
      (handle_verified_packet_cases hstep)
  | update_timers dst_len => exact .updates dst_len (update_timers_cases hstep)
  | format_handshake_initiation dst_len force =>
    injection hstep with hstep
    exact .starts dst_len force (format_handshake_initiation_cases hstep)
  | set_static_private priv pub limiter =>
    obtain ⟨t₁, hset, hstep⟩ := Outcome.bind_eq_ok.mp hstep
    cases hstep
    exact .rekeys priv pub limiter _ hset
  | shared count nonce_ctr last_reset =>
    cases hstep
    exact .shares count nonce_ctr last_reset

end Tunn

end PqBoringtun
