import PqBoringtun.Framework.Run
import PqBoringtun.Noise.Calls

/-! # The key machine of a tunnel

    An abstract view of a tunnel that keeps what decides about keys: the
    noise parameters, the two handshake slots, the session ring and the
    current index.  Queue, timers, cookies and rate limiter are dropped.

    * `Move`: the things a tunnel can do with its keys.
    * `Quiet`: sessions and handshakes that are thrown away.
    * `Rekey`: a new static key.
    * `machine`: one operation of a tunnel is a new static key, or a quiet
      change followed by at most one move.
    * `Tunn.step_view`: every operation of the code is a step of the machine,
      so every run of a tunnel is a run of the machine
      (`Tunn.run_view`).
-/

namespace PqBoringtun

/-! ## Section 1: Views, moves and the machine -/

structure View (C : Crypto) where
  params : NoiseParams C
  next_index : UInt32
  state : HandshakeState
  previous : HandshakeState
  last_handshake_timestamp : Tai64N
  sessions : Fin N_SESSIONS → Option Session
  current : Nat

def Tunn.view {C : Crypto} (t : Tunn C) : View C where
  params := t.handshake.params
  next_index := t.handshake.next_index
  state := t.handshake.state
  previous := t.handshake.previous
  last_handshake_timestamp := t.handshake.last_handshake_timestamp
  sessions := t.sessions
  current := t.current

variable {C : Crypto}

/-- Sessions are dropped; both handshake slots may expire, with all sessions. -/
structure Quiet (w w' : View C) : Prop where
  params : w'.params = w.params
  next_index : w'.next_index = w.next_index
  timestamp : w'.last_handshake_timestamp = w.last_handshake_timestamp
  current : w'.current = w.current
  sessions : ∀ i, w'.sessions i = w.sessions i ∨ w'.sessions i = none
  slots : (w'.state = w.state ∧ w'.previous = w.previous) ∨
    (w'.state = .Expired ∧ w'.previous = .Expired ∧ ∀ i, w'.sessions i = none)

namespace View

/-- After an own initiation `s`. -/
def initiated (w : View C) (s : HandshakeInitSentState) : View C :=
  { w with next_index := s.local_index, previous := w.state, state := .InitSent s }

/-- After a peer's initiation was accepted; `state` is what is left of it. -/
def consumed (w : View C) (c : Consumed) (state : HandshakeState) : View C :=
  { w with
    last_handshake_timestamp := c.timestamp
    previous := w.state
    state := state }

/-- A session enters the ring. -/
def store (w : View C) (session : Session) : View C :=
  { w with sessions := Function.update w.sessions (slot session.local_index) (some session) }

/-- One of the two slots is emptied. -/
def answered (w : View C) (is_previous : Bool) : View C :=
  { w with
    previous := if is_previous then .None else w.previous
    state := if is_previous then w.state else .None }

end View

/-- What a tunnel can do to its view, with the events of each. -/
inductive Move (B : Build) : View C → List Event → View C → Prop where
  /-- An initiation is formed. -/
  | initiate {w : View C} (e seed timestamp : Bytes) (time : Nat) :
      Move B w
        [.generated e,
          .handshake .encrypted_static e (initiate C B.variant w.params e timestamp
            ((B.variant.keygen C seed).map Prod.snd)).encrypted_static,
          .handshake .encrypted_timestamp e (initiate C B.variant w.params e timestamp
            ((B.variant.keygen C seed).map Prod.snd)).encrypted_timestamp]
        (w.initiated
          (initSent C B.variant w.params (inc_index w.next_index) e seed timestamp time))
  /-- A peer's initiation is accepted, but the buffer is too small for a response. -/
  | stall {w : View C} (v : Variant) (packet : HandshakeInit) (ek : Option Bytes) (c : Consumed)
      (hc : (consume C v w.params w.last_handshake_timestamp packet ek).run = .ok (.ok c)) :
      Move B w []
        (w.consumed c (.InitReceived c.hash c.chaining_key packet.unencrypted_ephemeral
          packet.sender_idx ek))
  /-- A peer's initiation is accepted, but its ML-KEM key is not valid. -/
  | refuse {w : View C} (v : Variant) (packet : HandshakeInit) (ek : Option Bytes)
      (c : Consumed) (e : Bytes)
      (hc : (consume C v w.params w.last_handshake_timestamp packet ek).run = .ok (.ok c)) :
      Move B w [.generated e] { w.consumed c .None with next_index := inc_index w.next_index }
  /-- A peer's initiation is accepted and answered. -/
  | respond {w : View C} (v : Variant) (packet : HandshakeInit) (ek : Option Bytes)
      (c : Consumed) (e seed : Bytes) (kem : Option (Bytes × Bytes)) (r : Response)
      (session : Session)
      (hc : (consume C v w.params w.last_handshake_timestamp packet ek).run = .ok (.ok c))
      (hkem : (v.encapsulate C ek seed).run = .ok (.ok kem))
      (hr : r = respond C w.params c.hash c.chaining_key packet.unencrypted_ephemeral e kem)
      (hsession : session =
        Session.new (inc_index w.next_index) packet.sender_idx r.receiving_key r.sending_key) :
      Move B w
        [.generated e, .handshake .encrypted_nothing e r.encrypted_nothing,
          .established false session.id e]
        ({ w.consumed c .None with next_index := inc_index w.next_index }.store session)
  /-- A response is accepted; the keepalive is sealed before the session is stored. -/
  | complete {w : View C} (v : Variant) (s : HandshakeInitSentState) (is_previous : Bool)
      (packet : HandshakeResponse) (ct : Option Bytes) (receiving_key sending_key : Bytes)
      (session : Session) (current : Nat)
      (hslot : response_slot w.state w.previous packet.receiver_idx = some (s, is_previous))
      (htype : v = .classical → s.mlkem_decapsulation_key = none)
      (hkeys : (Handshake.response_keys v w.params s packet ct).run
        = .ok (.ok (receiving_key, sending_key)))
      (hsession : session =
        Session.new s.local_index packet.sender_idx receiving_key sending_key)
      (hcurrent : current = w.current ∨ current = session.local_index) :
      Move B w
        [.established true session.id s.ephemeral_private,
          .data session.id session.sending_key_counter (session.packet_seal C [])]
        { (w.answered is_previous).store (session.sent B) with current := current }
  /-- A packet is sealed on the current session. -/
  | send {w : View C} (session : Session) (src : Bytes)
      (hsession : w.sessions (slot w.current) = some session) :
      Move B w [.data session.id session.sending_key_counter (session.packet_seal C src)]
        { w with sessions := Function.update w.sessions (slot w.current) (some (session.sent B)) }
  /-- A data packet is accepted. -/
  | receive {w : View C} (session : Session) (packet : PacketData) (plaintext : Bytes)
      (v : ReceivingKeyCounterValidator) (current : Nat)
      (hsession : w.sessions (slot packet.receiver_idx.toNat) = some session)
      (haccepts : session.Accepts C B packet plaintext v)
      (hcurrent : current = w.current ∨ current = packet.receiver_idx.toNat) :
      Move B w
        [.opened session.id packet.counter plaintext packet.encrypted_encapsulated_packet]
        { w with
          sessions := Function.update w.sessions (slot packet.receiver_idx.toNat)
            (some (session.received v))
          current := current }

/-- At most one move. -/
def Acts (B : Build) (w : View C) (evs : List Event) (w' : View C) : Prop :=
  (w' = w ∧ evs = []) ∨ Move B w evs w'

/-- A new static key; the sessions are dropped. -/
def Rekey (w w' : View C) : Prop :=
  ∃ params : NoiseParams C, params.peer_static_public = w.params.peer_static_public ∧
    params.preshared_key = w.params.preshared_key ∧
    w' = { w with params := params, sessions := fun _ => none }

/-- A quiet change and at most one move. -/
def Works (B : Build) (w : View C) (evs : List Event) (w' : View C) : Prop :=
  ∃ w₁, Quiet w w₁ ∧ Acts B w₁ evs w'

/-- The machine. -/
def machine (C : Crypto) (B : Build) : System (View C) (List Event) where
  step := fun w evs w' => (Rekey w w' ∧ evs = []) ∨ Works B w evs w'

theorem Quiet.refl (w : View C) : Quiet w w :=
  ⟨rfl, rfl, rfl, rfl, fun _ => Or.inl rfl, Or.inl ⟨rfl, rfl⟩⟩

theorem Quiet.trans {w₁ w₂ w₃ : View C} (h₁ : Quiet w₁ w₂) (h₂ : Quiet w₂ w₃) : Quiet w₁ w₃ where
  params := h₂.params.trans h₁.params
  next_index := h₂.next_index.trans h₁.next_index
  timestamp := h₂.timestamp.trans h₁.timestamp
  current := h₂.current.trans h₁.current
  sessions := by
    intro i
    rcases h₂.sessions i with h | h
    · rw [h]
      exact h₁.sessions i
    · exact Or.inr h
  slots := by
    rcases h₂.slots with ⟨hs, hp⟩ | h
    · rw [hs, hp]
      rcases h₁.slots with hsame | ⟨hstate, hprevious, hnone⟩
      · exact Or.inl hsame
      · refine Or.inr ⟨hstate, hprevious, fun i => ?_⟩
        rcases h₂.sessions i with h | h
        · exact h.trans (hnone i)
        · exact h
    · exact Or.inr h

theorem Acts.idle (B : Build) (w : View C) : Acts B w [] w := Or.inl ⟨rfl, rfl⟩

theorem Acts.works {B : Build} {w w' : View C} {evs : List Event} (h : Acts B w evs w') :
    Works B w evs w' := ⟨w, Quiet.refl w, h⟩

theorem Works.params {B : Build} {w w' : View C} {evs : List Event} (h : Works B w evs w') :
    w'.params = w.params := by
  obtain ⟨w₁, hq, ⟨rfl, _⟩ | hmove⟩ := h
  · exact hq.params
  · rw [← hq.params]
    cases hmove <;> rfl

/-- One of the slots holds this initiation. -/
def View.Holds (w : View C) (s : HandshakeInitSentState) : Prop :=
  w.state = .InitSent s ∨ w.previous = .InitSent s

theorem Quiet.holds {w w' : View C} {s : HandshakeInitSentState} (h : Quiet w w')
    (hs : w'.Holds s) : w.Holds s := by
  unfold View.Holds at hs
  rcases h.slots with ⟨hstate, hprevious⟩ | ⟨hstate, hprevious, _⟩
  · rwa [hstate, hprevious] at hs
  · rw [hstate, hprevious] at hs
    rcases hs with hs | hs <;> cases hs

/-- The initiation `s` was formed, with these events. -/
def Forms (B : Build) (w : View C) (evs : List Event) (s : HandshakeInitSentState) : Prop :=
  ∃ e seed timestamp time,
    s = initSent C B.variant w.params (inc_index w.next_index) e seed timestamp time ∧
      .handshake .encrypted_static e (initiate C B.variant w.params e timestamp
        ((B.variant.keygen C seed).map Prod.snd)).encrypted_static ∈ evs

/-- **An initiation in a slot was there before, or was formed.** -/
theorem Move.holds {B : Build} {w w' : View C} {evs : List Event} {s : HandshakeInitSentState}
    (h : Move B w evs w') (hs : w'.Holds s) : w.Holds s ∨ Forms B w evs s := by
  cases h with
  | initiate e seed timestamp time =>
    rcases hs with hs | hs
    · cases hs
      exact Or.inr ⟨e, seed, timestamp, time, rfl, by simp⟩
    · exact Or.inl (Or.inl hs)
  | stall v packet ek c _ => exact Or.inl (hs.elim (fun hs => nomatch hs) Or.inl)
  | refuse v packet ek c e _ => exact Or.inl (hs.elim (fun hs => nomatch hs) Or.inl)
  | respond v packet ek c e seed kem r session _ _ _ _ =>
    exact Or.inl (hs.elim (fun hs => nomatch hs) Or.inl)
  | complete v s₀ is_previous packet ct rk sk session current _ _ _ _ _ =>
    cases is_previous with
    | true => exact Or.inl (hs.elim Or.inl (fun hs => nomatch hs))
    | false => exact Or.inl (hs.elim (fun hs => nomatch hs) Or.inr)
  | send session src _ => exact Or.inl hs
  | receive session packet plaintext v current _ _ _ => exact Or.inl hs

/-- **A session of the initiator comes from a response to an initiation in a slot.** -/
theorem Move.completes {B : Build} {w w' : View C} {evs : List Event} {id : SessionId} {e : Bytes}
    (h : Move B w evs w') (hmem : .established true id e ∈ evs) :
    ∃ v s packet ct rk sk, w.Holds s ∧ (v = .classical → s.mlkem_decapsulation_key = none) ∧
      (Handshake.response_keys v w.params s packet ct).run = .ok (.ok (rk, sk)) ∧
      id = (Session.new s.local_index packet.sender_idx rk sk).id ∧ e = s.ephemeral_private := by
  cases h with
  | initiate e seed timestamp time => simp at hmem
  | stall v packet ek c _ => cases hmem
  | refuse v packet ek c e _ => simp at hmem
  | respond v packet ek c e seed kem r session _ _ _ _ => simp at hmem
  | complete v s is_previous packet ct rk sk session current hslot htype hkeys hsession _ =>
    have heq : id = session.id ∧ e = s.ephemeral_private := by simpa using hmem
    exact ⟨v, s, packet, ct, rk, sk, response_slot_sent hslot, htype, hkeys, hsession ▸ heq.1,
      heq.2⟩
  | send session src _ => simp at hmem
  | receive session packet plaintext v current _ _ _ => simp at hmem

/-! ## Section 2: Frame lemmas

    Ticks, queue and limiter do not show in the view. -/

namespace Tunn

variable {B : Build} {t t' : Tunn C} {env : Env} {dst_len : Nat} {r : TunnResult}
  {evs : List Event}

@[simp] theorem view_timer_tick (t : Tunn C) (n : TimerName) : (t.timer_tick n).view = t.view := rfl

@[simp] theorem view_timer_tick_session_established (t : Tunn C) (b : Bool) (i : Nat) :
    (t.timer_tick_session_established b i).view = t.view := rfl

@[simp] theorem view_queue_packet (t : Tunn C) (p : Bytes) : (t.queue_packet p).view = t.view := by
  unfold queue_packet
  split <;> rfl

@[simp] theorem view_requeue_packet (t : Tunn C) (p : Bytes) :
    (t.requeue_packet p).view = t.view := by
  unfold requeue_packet
  split <;> rfl

theorem slot_mod (i : Nat) : slot (i % N_SESSIONS) = slot i := by
  simp [slot]

/-- The current index moves to the new one or stays. -/
theorem view_set_current_session (t : Tunn C) (i : Nat) :
    ∃ c, (c = t.current ∨ c = i) ∧ (t.set_current_session i).view =
      { t.view with current := c } := by
  unfold set_current_session
  split
  · exact ⟨t.current, Or.inl rfl, rfl⟩
  split
  · exact ⟨i, Or.inr rfl, rfl⟩
  · exact ⟨t.current, Or.inl rfl, rfl⟩

theorem view_validate_decapsulated_packet (t : Tunn C) (p : Bytes) :
    (t.validate_decapsulated_packet p).2.view = t.view := by
  unfold validate_decapsulated_packet
  split
  · rfl
  split
  · rfl
  split
  · rfl
  · split <;> rfl

@[simp] theorem view_cleared (t : Tunn C) (env : Env) : (t.cleared env).view = t.view := by
  unfold cleared
  split <;> rfl

theorem view_initiated (t : Tunn C) (env : Env) (h' : Handshake C) :
    (t.initiated env h').view = { t with handshake := h' }.view := by
  unfold initiated cleared
  dsimp only
  split <;> split <;> rfl

theorem view_after_send (t : Tunn C) (session : Session) (src : Bytes) :
    (t.after_send B session src).view = { t.view with
      sessions := Function.update t.sessions (slot t.current) (some (session.sent B)) } := by
  unfold after_send
  dsimp only
  split <;> rfl

/-! ## Section 3: Every operation is a step of the machine -/

theorem view_starts {force : Bool} (h : t.Starts B dst_len force env r t' evs) :
    Acts B t.view evs t'.view := by
  cases h with
  | busy _ _ => exact Acts.idle B _
  | no_room _ _ =>
    rw [view_cleared]
    exact Acts.idle B _
  | sent m h' evs _ hcall =>
    rw [view_initiated]
    rcases Handshake.format_initiation_cases hcall with
      ⟨_, hres, _⟩ | ⟨_, m', cookies, i, _, rfl, rfl, rfl⟩
    · cases hres
    · exact Or.inr (Move.initiate env.ephemeral env.mlkem_seed
        (t.handshake.stamper.stamp (env.clock .stamp)) (env.clock .sent))

theorem view_encapsulates {src : Bytes} (h : t.Encapsulates B src dst_len env r t' evs) :
    Acts B t.view evs t'.view := by
  cases h with
  | sealed session packet hsession =>
    rw [view_after_send]
    exact Or.inr (Move.send session src hsession)
  | queued _ hstart =>
    rw [← view_queue_packet t src]
    exact view_starts hstart

theorem view_flushes (h : t.Flushes B dst_len env r t' evs) : Acts B t.view evs t'.view := by
  cases h with
  | empty _ => exact Acts.idle B _
  | failed packet rest e t₁ evs _ henc =>
    rw [view_requeue_packet]
    exact view_encapsulates (t := { t with packet_queue := rest }) henc
  | passed packet rest _ _ henc =>
    exact view_encapsulates (t := { t with packet_queue := rest }) henc

/-- A peer's initiation: rejected, or accepted with or without a response. -/
theorem view_handle_init {v : Variant} {packet : HandshakeInit} {ek : Option Bytes}
    {res : Except WireGuardError (Bytes × Session)} {h' : Handshake C} {evs' : List Event}
    (hreceives : t.handshake.ReceivesInit v packet ek dst_len env res h' evs')
    (h : t.handle_init (res, h', evs') = (r, t', evs)) : Acts B t.view evs t'.view := by
  cases hreceives with
  | rejected e _ =>
    cases h
    exact Acts.idle B _
  | stalled c hc _ =>
    cases h
    exact Or.inr (Move.stall v packet ek c hc)
  | refused c e hc _ _ =>
    cases h
    exact Or.inr (Move.refuse v packet ek c env.ephemeral hc)
  | answered c kem r' session m cookies hc _ hkem hr hsession =>
    cases h
    exact Or.inr (Move.respond v packet ek c env.ephemeral env.mlkem_seed kem r' session hc hkem hr
      hsession)

/-- A response: rejected, or accepted with a new session and a keepalive. -/
theorem view_handle_response {v : Variant} {packet : HandshakeResponse} {ct : Option Bytes}
    {res : Except WireGuardError Session} {h' : Handshake C} {evs' : List Event}
    (hreceives : t.handshake.ReceivesResponse v packet ct env res h' evs')
    (h : t.handle_response B (res, h', evs') dst_len = .ok (r, t', evs)) :
    Acts B t.view evs t'.view := by
  cases hreceives with
  | rejected e =>
    cases h
    exact Acts.idle B _
  | accepted s is_previous rk sk session hslot htype hkeys hsession =>
    obtain ⟨⟨keepalive, session', sealed⟩, hfmt, h⟩ := Outcome.bind_eq_ok.mp h
    obtain ⟨rfl, rfl⟩ := Session.format_packet_data_ok hfmt
    cases h
    generalize ht₁ : Tunn.timer_tick_session_established _ true _ = t₁
    obtain ⟨c, hc, hview⟩ := view_set_current_session t₁ session.local_index
    have hview₁ : t₁.view = (t.view.answered is_previous).store (session.sent B) := by
      rw [← ht₁]
      simp only [Tunn.view, View.store, View.answered, store_session, slot_mod,
        timer_tick_session_established, timer_tick, Handshake.answered]
    have hcur : c = t.current ∨ c = session.local_index := by
      rwa [show t₁.current = t.current from congrArg View.current hview₁] at hc
    have hmove := Move.complete (B := B) (w := t.view) v s is_previous packet ct rk sk session c
      hslot htype hkeys hsession hcur
    rw [← hview₁, ← hview] at hmove
    exact Or.inr hmove

theorem view_handle_cookie_reply {packet : PacketCookieReply}
    (h : t.handle_cookie_reply packet = (r, t', evs)) : t'.view = t.view ∧ evs = [] := by
  obtain ⟨result, cookies, hreply⟩ := t.handshake.receive_cookie_reply_cases packet
  unfold handle_cookie_reply at h
  rw [hreply] at h
  cases result with
  | error e =>
    cases h
    exact ⟨rfl, rfl⟩
  | ok u =>
    cases h
    exact ⟨rfl, rfl⟩

theorem view_receives_data {packet : PacketData} (h : t.ReceivesData B packet r t' evs) :
    Acts B t.view evs t'.view := by
  cases h with
  | rejected e => exact Acts.idle B _
  | accepted session plaintext v t₁ hsession haccepts ht₁ =>
    obtain ⟨c, hc, hview⟩ := view_set_current_session
      (t.store_session packet.receiver_idx.toNat (session.received v)) packet.receiver_idx.toNat
    have hmove := Move.receive (B := B) (w := t.view) session packet plaintext v c hsession
      haccepts hc
    rw [view_validate_decapsulated_packet, ht₁, view_timer_tick, hview]
    exact Or.inr hmove

theorem view_handles {packet : Packet} (h : t.Handles B dst_len env packet r t' evs) :
    Acts B t.view evs t'.view := by
  cases h with
  | init v p ek _ hreceives hres => exact view_handle_init hreceives hres
  | response v p ct _ hreceives hres => exact view_handle_response hreceives hres
  | cookie p hres => exact Or.inl (view_handle_cookie_reply hres)
  | data p hreceives => exact view_receives_data hreceives

/-! ## Section 4: Timer updates -/

theorem quiet_refresh (h : t.refresh env = .ok t') : Quiet t.view t'.view := by
  obtain ⟨limiter, now, _, _, _, rfl⟩ := refresh_cases h
  refine ⟨rfl, rfl, rfl, rfl, ?_, Or.inl ⟨rfl, rfl⟩⟩
  intro i
  simp only [Tunn.view]
  split
  · exact Or.inr rfl
  · exact Or.inl rfl

theorem quiet_expire (t : Tunn C) (env : Env) : Quiet t.view (t.expire env).view :=
  ⟨rfl, rfl, rfl, rfl, fun _ => Or.inr rfl, Or.inr ⟨rfl, rfl, fun _ => rfl⟩⟩

theorem view_ticks (h : t.Ticks B dst_len env r t' evs) : Works B t.view evs t'.view := by
  cases h with
  | expires _ => exact ⟨_, quiet_expire t env, Acts.idle B _⟩
  | retransmits s _ _ _ hstart => exact (view_starts hstart).works
  | waits s _ _ _ => exact (Acts.idle B _).works
  | rekeys want _ _ hstart => exact (view_starts hstart).works
  | keepalive want want' t₁ _ _ ht₁ henc =>
    have hview : t₁.view = t.view := by
      rcases ht₁ with rfl | rfl <;> rfl
    rw [← hview]
    rcases henc with henc | ⟨_, rfl, rfl⟩
    · exact (view_encapsulates henc).works
    · exact (Acts.idle B _).works

theorem view_updates (h : t.Updates B dst_len env r t' evs) : Works B t.view evs t'.view := by
  cases h with
  | expired t₁ hrefresh _ => exact ⟨_, quiet_refresh hrefresh, Acts.idle B _⟩
  | ticks t₁ cookies hrefresh _ hticks =>
    obtain ⟨w, hquiet, hacts⟩ := view_ticks hticks
    exact ⟨w, (quiet_refresh hrefresh).trans hquiet, hacts⟩

/-! ## Section 5: The simulation -/

theorem view_set_static_private {static_private static_public : Bytes}
    {limiter : Option RateLimiter}
    (h : t.set_static_private static_private static_public limiter env = .ok t') :
    Rekey t.view t'.view := by
  obtain ⟨params, hparams, h⟩ := Outcome.bind_eq_ok.mp h
  obtain ⟨_, _, hpeer, hpreshared⟩ := NoiseParams.set_static_private_eq_ok hparams
  cases h
  exact ⟨params, hpeer, hpreshared, rfl⟩

/-- Operations other than a new static key. -/
theorem step_works {op : Op} (hop : ∀ a b c, op ≠ .set_static_private a b c)
    (h : t.step B op env = .ok (r, t', evs)) : Works B t.view evs t'.view := by
  cases step_cases h with
  | handles packet limiter dst_len _ _ hhandles =>
    exact (view_handles (t := { t with rate_limiter := limiter }) hhandles).works
  | drops addr datagram dst_len r limiter _ _ _ => exact (Acts.idle B t.view).works
  | flushes addr dst_len hflush => exact (view_flushes hflush).works
  | encapsulates src dst_len henc => exact (view_encapsulates henc).works
  | updates dst_len hupdate => exact view_updates hupdate
  | starts dst_len force hstart => exact (view_starts hstart).works
  | rekeys priv pub limiter t' _ => exact absurd rfl (hop _ _ _)
  | shares count nonce_ctr last_reset => exact (Acts.idle B t.view).works

/-- **Every operation of a tunnel is a step of the machine.** -/
theorem step_view {op : Op} (h : t.step B op env = .ok (r, t', evs)) :
    (machine C B).step t.view evs t'.view := by
  by_cases hop : ∃ a b c, op = .set_static_private a b c
  · obtain ⟨static_private, static_public, limiter, rfl⟩ := hop
    obtain ⟨t₁, hset, h⟩ := Outcome.bind_eq_ok.mp h
    cases h
    exact Or.inl ⟨view_set_static_private hset, rfl⟩
  · exact Or.inr (step_works (fun a b c heq => hop ⟨a, b, c, heq⟩) h)

end Tunn

/-- A label of a tunnel's run: the operation, its environment, its result and its events. -/
structure Label where
  op : Op
  env : Env
  result : TunnResult
  events : List Event

/-- A tunnel as a labelled transition system. -/
def tunnel (C : Crypto) (B : Build) : System (Tunn C) Label where
  step := fun t l t' => t.step B l.op l.env = .ok (l.result, t', l.events)

/-- A tunnel that was just created at time `start`. -/
def Tunn.IsNew (start : Nat) (t : Tunn C) : Prop :=
  ∃ (priv peer : Bytes) (hpeer : peer.length = KEY_LEN) (psk : Option Bytes)
    (keepalive : Option UInt16) (index : UInt32) (limiter : Option RateLimiter) (unix_time : Nat)
    (env : Env), t = Tunn.new C priv peer hpeer psk keepalive index limiter unix_time start env

/-- Does the log of a call hold an own initiation? -/
def Initiates (evs : List Event) : Prop := ∃ e s, .handshake .encrypted_static e s ∈ evs

/-- The ghost events of a run, in order. -/
def events (tr : List Label) : List Event := tr.flatMap (·.events)

@[simp] theorem events_nil : events [] = [] := rfl

theorem events_append (tr tr' : List Label) : events (tr ++ tr') = events tr ++ events tr' := by
  simp [events]

theorem events_snoc (tr : List Label) (l : Label) : events (tr ++ [l]) = events tr ++ l.events := by
  rw [events_append]
  simp [events]

/-- **Every run of a tunnel is a run of the machine.** -/
theorem Tunn.run_view {B : Build} {t₀ t : Tunn C} {tr : List Label}
    (hrun : Run (tunnel C B) t₀ tr t) :
    Run (machine C B) t₀.view (tr.map (·.events)) t.view :=
  hrun.simulate fun h => Tunn.step_view h

end PqBoringtun
