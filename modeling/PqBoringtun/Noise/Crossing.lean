import Mathlib.Algebra.Order.Group.Multiset
import PqBoringtun.Noise.Completeness
import PqBoringtun.Noise.LoadLimit

/-! # Initiations that cross

    Both sides may start a handshake at the same time.  Each of them then gets
    an initiation while it waits for the answer to its own one, which moves to
    the slot for the previous handshake.  Two sessions come out of it, and the
    sides need not agree on the one that they use.

    * Section 1: what a received datagram leaves as it was.
    * Section 2: one tunnel.  `OwnPart` is what became of its own initiation, `PeerPart`
      of the one of the other side; each message changes one of them and keeps
      the other.
    * Section 3: the exchange, with the messages in flight as a multiset.
    * Section 4: in whatever order they are delivered, every message is
      accepted, and in the end both directions work
      (`InFlight.crossing_initiations`).
-/

namespace PqBoringtun

open Bytes

variable {C : Crypto} {B : Build} {q : NoiseParams C}

/-! ## Section 1: Single datagrams -/

/-- The next index has another place in the ring. -/
theorem slot_inc_index_ne (i : UInt32) : slot (inc_index i).toNat ≠ slot i.toNat := by
  have hinc : (inc_index i).toNat = i.toNat &&& 4294967040 ||| (i.toNat + 1) % 256 := by
    simp [inc_index]
  -- The ring has eight places, and the mask clears the low eight bits.
  have hmod : (inc_index i).toNat % 2 ^ 3 = (i.toNat + 1) % 8 := by
    rw [hinc, Nat.or_mod_two_pow, Nat.and_mod_two_pow]
    have hmask : 4294967040 % 2 ^ 3 = 0 := by decide
    rw [hmask, Nat.and_zero, Nat.zero_or]
    omega
  intro heq
  have hval : (inc_index i).toNat % 8 = i.toNat % 8 := congrArg Fin.val heq
  omega

theorem inc_index_ne (i : UInt32) : inc_index i ≠ i := by
  intro h
  apply slot_inc_index_ne i
  rw [h]

namespace Tunn

variable {t t' : Tunn C} {dst_len : Nat} {env : Env} {addr : Option IpAddr} {r : TunnResult}
  {evs : List Event} {datagram : Bytes}

theorem set_current_session_limiter (t : Tunn C) (i : Nat) :
    (t.set_current_session i).rate_limiter = t.rate_limiter := by
  unfold set_current_session
  split
  · rfl
  · split <;> rfl

theorem validate_limiter (t : Tunn C) (packet : Bytes) :
    (t.validate_decapsulated_packet packet).2.rate_limiter = t.rate_limiter := by
  unfold validate_decapsulated_packet
  split
  · rfl
  split
  · rfl
  split
  · rfl
  · split <;> rfl

theorem Formed.ne_nil (hC : C.Sized) {m : Bytes} (h : t.Formed B env m) : m ≠ [] := by
  obtain ⟨h₀, _, _, hcall⟩ := h
  obtain ⟨mac2, msg, hmac2, _, rfl, _⟩ := Handshake.format_initiation_ok hC hcall
  intro hempty
  have hlen := congrArg List.length hempty
  simp [hmac2] at hlen

/-- A verified packet does not use the limiter again. -/
theorem handles_limiter {packet : Packet} (h : t.Handles B dst_len env packet r t' evs) :
    t'.rate_limiter = t.rate_limiter := by
  cases h with
  | init v p ek _ hreceives hres =>
    cases hreceives <;> cases hres <;> rfl
  | response v p ct _ hreceives hres =>
    cases hreceives with
    | rejected e =>
      cases hres
      rfl
    | accepted s is_previous rk sk session _ _ _ _ =>
      obtain ⟨⟨keepalive, session', sealed⟩, _, hres⟩ := Outcome.bind_eq_ok.mp hres
      cases hres
      rw [set_current_session_limiter]
      rfl
  | cookie p hres =>
    obtain ⟨result, cookies, hreply⟩ := t.handshake.receive_cookie_reply_cases p
    unfold handle_cookie_reply at hres
    rw [hreply] at hres
    cases result <;> cases hres <;> rfl
  | data p hreceives =>
    cases hreceives with
    | rejected e => rfl
    | accepted session plaintext v t₁ _ _ ht₁ =>
      rw [validate_limiter, ht₁]
      exact set_current_session_limiter _ _

/-- A datagram takes at most one request from the budget. -/
theorem decapsulate_limiter (hne : datagram ≠ [])
    (h : t.decapsulate B addr datagram dst_len env = .ok (r, t', evs)) :
    t'.rate_limiter.limit = t.rate_limiter.limit ∧
      t'.rate_limiter.count ≤ t.rate_limiter.count + 1 := by
  have hverify : ∀ res l, t.rate_limiter.verify_packet C B addr datagram COOKIE_REPLY_SZ
      (env.clock .cookie) = (res, l) →
      l.limit = t.rate_limiter.limit ∧ l.count ≤ t.rate_limiter.count + 1 := by
    intro res l hcall
    have hcases := t.rate_limiter.verify_packet_cases (C := C) (B := B) addr datagram
      COOKIE_REPLY_SZ (env.clock .cookie)
    rw [hcall] at hcases
    rcases hcases with ⟨heq, _⟩ | ⟨_, hcounted, _⟩
    · rw [show l = t.rate_limiter from heq]
      exact ⟨rfl, Nat.le_succ _⟩
    · refine ⟨hcounted.limit, ?_⟩
      rw [hcounted.count]
      exact Nat.mod_le _ _
  cases decapsulate_cases h with
  | flush hempty _ => exact absurd hempty hne
  | verified packet limiter _ hcall hhandles =>
    rw [handles_limiter hhandles]
    exact hverify _ _ hcall
  | dropped limiter r _ hcall _ => exact hverify _ _ hcall

/-- A datagram is at most one move of the machine. -/
theorem decapsulate_acts (h : t.decapsulate B addr datagram dst_len env = .ok (r, t', evs)) :
    Acts B t.view evs t'.view := by
  cases decapsulate_cases h with
  | flush _ hflush => exact view_flushes hflush
  | verified packet limiter _ _ hhandles =>
    exact view_handles (t := { t with rate_limiter := limiter }) hhandles
  | dropped limiter r _ _ _ => exact .idle B t.view

/-- **Answering an initiation** moves the own one to the other slot. -/
theorem answering_view {id : SessionId} {e : Bytes}
    (h : t.decapsulate B addr datagram dst_len env = .ok (r, t', evs))
    (hevs : .established false id e ∈ evs) :
    ∃ c session, session.id = id ∧ session.receiving_index = inc_index t.handshake.next_index ∧
      t'.view = { t.view.consumed c .None with
        next_index := inc_index t.handshake.next_index }.store session := by
  rcases decapsulate_acts h with ⟨_, rfl⟩ | hmove
  · cases hevs
  generalize t'.view = w' at hmove
  cases hmove with
  | respond v packet ek c e' seed kem r' session _ _ _ hsession =>
    simp only [List.mem_cons, List.not_mem_nil, reduceCtorEq, or_false, false_or] at hevs
    cases hevs
    exact ⟨c, session, rfl, by rw [hsession]; rfl, rfl⟩
  | _ => simp at hevs

/-- **An answer is accepted in either slot**, and the new session becomes the current one. -/
theorem decapsulate_completes (hC : C.Correct) {a₀ : Tunn C} {now : Nat} (hready : t.Ready now)
    (hload : t.rate_limiter.count < t.rate_limiter.limit)
    (hparams : t.handshake.params = a₀.handshake.params)
    (hpeer : q.peer_static_public = a₀.handshake.params.static_public)
    {s : HandshakeInitSentState} {packet : HandshakeResponse} {kem : Option (Bytes × Bytes)}
    {rk sk : Bytes} (h : Answers B a₀ s packet kem rk sk) {is_previous : Bool}
    (hslot : response_slot t.handshake.state t.handshake.previous s.local_index
      = some (s, is_previous)) {mac2 : Bytes} (hmac2 : mac2.length = 16)
    (hdst : DATA_OVERHEAD_SZ ≤ dst_len) {session : Session}
    (hsession : session = Session.new s.local_index packet.sender_idx rk sk)
    (addr : Option IpAddr) (env : Env) :
    ∃ t' evs, t.decapsulate B addr (answerBytes B q packet kem mac2) dst_len env
        = .ok (.WriteToNetwork (session.datagram C []), t', evs) ∧
      t'.view = { (t.view.answered is_previous).store (session.sent B) with
        current := session.local_index } := by
  have hcall : t.handshake.receive_response B.variant packet (kem.map Prod.fst) env = _ :=
    Handshake.receive_response_ok (by rw [h.index]; exact hslot) h.no_key h.decapsulated
      (by rw [hparams]; exact h.keys) hsession
  obtain ⟨t', hresponse, _, hview⟩ := handle_response_ok (B := B) (t := t.counted)
    hready.on_time session (t.handshake.answered is_previous (env.clock .rtt - s.time_sent))
    [.established true session.id s.ephemeral_private] hdst
  have hmac1 : (b2s_keyed_mac_16 C q.sending_mac1_key
      (respMessage B.variant packet (kem.map Prod.fst))).length = 16 := hC.mac_length _ _
  refine ⟨t', _, Eq.trans ?_ hresponse, hview⟩
  rw [answerBytes, decapsulate_resp Build.variant_pq h.carries hmac1 hmac2
    (hready.mac1 (by rw [hparams]; exact hpeer) _) hload, hcall, Outcome.ok_bind]

/-- An accepted data packet changes its session, and that one may become the current one. -/
theorem receives_view {packet : PacketData} (h : t.ReceivesData B packet r t' evs)
    (hevs : evs ≠ []) :
    ∃ session v c, t.sessions (slot packet.receiver_idx.toNat) = some session ∧
      (c = t.current ∨ c = packet.receiver_idx.toNat) ∧
      t'.view = { t.view with
        sessions := Function.update t.sessions (slot packet.receiver_idx.toNat)
          (some (session.received v))
        current := c } := by
  cases h with
  | rejected e => exact absurd rfl hevs
  | accepted session plaintext v t₁ hsession _ ht₁ =>
    obtain ⟨c, hc, hview⟩ := view_set_current_session
      (t.store_session packet.receiver_idx.toNat (session.received v)) packet.receiver_idx.toNat
    refine ⟨session, v, c, hsession, hc, ?_⟩
    rw [view_validate_decapsulated_packet, ht₁, view_timer_tick, hview]
    rfl

/-- **A keepalive is accepted**: only its session changes. -/
theorem decapsulate_keeps (hC : C.Correct) {sx sy : Session} (h : sx.Feeds sy)
    (hstored : t.sessions (slot sy.local_index) = some sy) (hdst : AEAD_SIZE ≤ dst_len)
    (addr : Option IpAddr) (env : Env) :
    ∃ w t' evs c, w.next = sx.sending_key_counter + 1 ∧
      t.decapsulate B addr (sx.datagram C []) dst_len env = .ok (.Done, t', evs) ∧
      t'.rate_limiter = t.rate_limiter ∧ (c = t.current ∨ c = sy.local_index) ∧
      t'.view = { t.view.store (sy.received w) with current := c } := by
  obtain ⟨w, t', hnext, hdec, hstored', _⟩ := decapsulate_fed (B := B) hC h hstored
    (show ([] : Bytes).length + AEAD_SIZE ≤ dst_len by simpa using hdst) addr env
  have hlen : 16 ≤ (sx.packet_seal C []).ciphertext.length := by
    rw [show (sx.packet_seal C []).ciphertext.length = _ from hC.seal_length ..]
    simp
  have hbelow := h.below
  have hidx : sx.sending_index.toNat = sy.local_index := congrArg UInt32.toNat h.index
  have hcall := hdec
  rw [Session.datagram, decapsulate_data (by omega) hlen] at hcall
  have hreceives := handle_data_cases hcall
  have hhandles : t.Handles B dst_len env _ _ t' _ := .data _ hreceives
  have hlimiter := handles_limiter hhandles
  obtain ⟨session, v, c, _, hc, hview⟩ := receives_view hreceives (List.cons_ne_nil _ _)
  simp only [hidx] at hc hview
  -- What was stored is known from the packet.
  have hsession : session.received v = sy.received w := by
    have hsame := congrFun (congrArg View.sessions hview) (slot sy.local_index)
    rw [show t'.view.sessions (slot sy.local_index) = _ from hstored'] at hsame
    simpa using hsame.symm
  refine ⟨w, t', _, c, hnext, hdec, hlimiter, hc, ?_⟩
  rw [hview, hsession]
  rfl

end Tunn

/-! ## Section 2: One tunnel

    `s` is the own initiation.  Its session gets the index of `s`, and the
    session of the initiation of the other side gets the next index. -/

/-- What became of the own initiation. -/
inductive OwnPart where
  | waiting
  | done (session : Session)

/-- What became of the initiation of the other side. -/
inductive PeerPart where
  | idle
  | opened (session : Session)

/-- Handshake messages that are still to come. -/
def OwnPart.pending : OwnPart → Nat
  | waiting => 1
  | done _ => 0

def PeerPart.pending : PeerPart → Nat
  | idle => 1
  | opened _ => 0

/-- The own initiation is in `state`, or in `previous` once the other one was answered. -/
def OwnPart.Holds (s : HandshakeInitSentState) (w : View C) : OwnPart → Prop
  | waiting =>
    (w.next_index = s.local_index ∧ w.state = .InitSent s) ∨
      (w.next_index = inc_index s.local_index ∧ w.state = .None ∧ w.previous = .InitSent s)
  | done session =>
    session.receiving_index = s.local_index ∧
      w.sessions (slot s.local_index.toNat) = some session ∧
      (w.current = s.local_index.toNat ∨ w.current = (inc_index s.local_index).toNat)

def PeerPart.Holds (last : Tai64N) (s : HandshakeInitSentState) (w : View C) : PeerPart → Prop
  | idle => w.next_index = s.local_index ∧ w.last_handshake_timestamp = last
  | opened session =>
    session.receiving_index = inc_index s.local_index ∧
      w.sessions (slot (inc_index s.local_index).toNat) = some session

section frame
variable {s : HandshakeInitSentState} {w : View C} {last : Tai64N} {session : Session}

theorem View.store_self (w : View C) (session : Session) :
    (w.store session).sessions (slot session.local_index) = some session :=
  Function.update_self ..

theorem View.store_of_ne (w : View C) {session : Session} {i : Fin N_SESSIONS}
    (h : i ≠ slot session.local_index) : (w.store session).sessions i = w.sessions i :=
  Function.update_of_ne h ..

/-- A session of the other side's initiation has another place than the own one. -/
theorem slot_own_ne (h : session.receiving_index = inc_index s.local_index) :
    slot s.local_index.toNat ≠ slot session.local_index := by
  rw [Session.local_index, h]
  exact (slot_inc_index_ne _).symm

theorem slot_peer_ne (h : session.receiving_index = s.local_index) :
    slot (inc_index s.local_index).toNat ≠ slot session.local_index := by
  rw [Session.local_index, h]
  exact slot_inc_index_ne _

/-- Answering the other side keeps the own initiation. -/
theorem OwnPart.Holds.answer {own : OwnPart} (h : own.Holds s w)
    (hidle : w.next_index = s.local_index)
    (hindex : session.receiving_index = inc_index s.local_index) (c : Consumed) :
    own.Holds s ({ w.consumed c .None with
      next_index := inc_index w.next_index }.store session) := by
  cases own with
  | waiting =>
    rcases h with ⟨_, hstate⟩ | ⟨hnext, _⟩
    · exact Or.inr ⟨congrArg inc_index hidle, rfl, hstate⟩
    · exact absurd (hnext.symm.trans hidle) (inc_index_ne _)
  | done sa =>
    obtain ⟨hsa, hstored, hcurrent⟩ := h
    exact ⟨hsa, (View.store_of_ne _ (slot_own_ne hindex)).trans hstored, hcurrent⟩

/-- A packet on the other session keeps the own initiation. -/
theorem OwnPart.Holds.keep {own : OwnPart} (h : own.Holds s w)
    (hindex : session.receiving_index = inc_index s.local_index) {c : Nat}
    (hc : c = w.current ∨ c = (inc_index s.local_index).toNat) :
    own.Holds s { w.store session with current := c } := by
  cases own with
  | waiting => exact h
  | done sa =>
    obtain ⟨hsa, hstored, hcurrent⟩ := h
    refine ⟨hsa, (View.store_of_ne _ (slot_own_ne hindex)).trans hstored, ?_⟩
    rcases hc with rfl | rfl
    · exact hcurrent
    · exact Or.inr rfl

/-- Completing the own handshake keeps the other one. -/
theorem PeerPart.Holds.finish {peer : PeerPart} (h : peer.Holds last s w)
    (hindex : session.receiving_index = s.local_index) (is_previous : Bool) (c : Nat) :
    peer.Holds last s { (w.answered is_previous).store session with current := c } := by
  cases peer with
  | idle => exact h
  | opened sb =>
    exact ⟨h.1, (View.store_of_ne _ (slot_peer_ne hindex)).trans h.2⟩

/-- The answer is expected in one of the slots. -/
theorem OwnPart.Holds.slot (h : OwnPart.waiting.Holds s w) :
    ∃ is_previous, response_slot w.state w.previous s.local_index = some (s, is_previous) := by
  rcases h with ⟨_, hstate⟩ | ⟨_, hstate, hprevious⟩
  · exact ⟨false, by simp [response_slot, HandshakeState.awaiting, hstate]⟩
  · exact ⟨true, by simp [response_slot, HandshakeState.awaiting, hstate, hprevious]⟩

end frame

/-- Where a tunnel stands, that was `t₀` when it formed its initiation `s`. -/
structure Tunn.Stands (t₀ : Tunn C) (s : HandshakeInitSentState) (own : OwnPart) (peer : PeerPart)
    (t : Tunn C) : Prop where
  params : t.handshake.params = t₀.handshake.params
  own_part : own.Holds s t.view
  peer_part : peer.Holds t₀.handshake.last_handshake_timestamp s t.view
  /-- The limiter has room for what is still to come. -/
  budget : t.rate_limiter.count + own.pending + peer.pending ≤ t.rate_limiter.limit

namespace Tunn.Stands

variable {t₀ t y₀ : Tunn C} {s s' : HandshakeInitSentState} {own : OwnPart} {peer : PeerPart}
  {dst_len now : Nat}

/-- **The initiation of the other side** is answered. -/
theorem answers (hC : C.Correct) (h : Stands t₀ s own .idle t) (hready : t.Ready now)
    (hpair : Paired y₀.handshake.params t₀.handshake.params) {env₀ : Env} {m : Bytes}
    (hformed : y₀.Formed B env₀ m) (hs' : y₀.handshake.state = .InitSent s')
    (hafter : ∀ ts, Tai64N.parse (y₀.handshake.stamper.stamp (env₀.clock .stamp)) = .ok ts →
      ts.after t₀.handshake.last_handshake_timestamp = true)
    (hdst : B.variant.resp_size ≤ dst_len) (addr : Option IpAddr) (env : Env) :
    ∃ packet kem rk sk mac2 t' evs, Answers B y₀ s' packet kem rk sk ∧ mac2.length = 16 ∧
      t.decapsulate B addr m dst_len env
        = .ok (.WriteToNetwork (answerBytes B t₀.handshake.params packet kem mac2), t', evs) ∧
      Stands t₀ s own (.opened (Session.new packet.sender_idx s'.local_index sk rk)) t' := by
  obtain ⟨hnext, hlast⟩ := h.peer_part
  have hbudget := h.budget
  simp only [PeerPart.pending] at hbudget
  obtain ⟨s₁, packet, kem, rk, sk, mac2, t', x, hans, hmac2, _, hdec, hstored, _⟩ :=
    answers_initiation addr env hC hformed hready (by rw [h.params]; exact hpair)
      (by omega) (by rw [show t.handshake.last_handshake_timestamp = _ from hlast]; exact hafter)
      hdst
  obtain rfl : s₁ = s' := by
    have := hans.state.symm.trans hs'
    injection this
  obtain ⟨c, session, hid, hindex, hview⟩ := answering_view hdec (List.mem_of_getLast? rfl)
  have hsender : packet.sender_idx = session.receiving_index :=
    congrArg SessionId.receiving_index hid.symm
  have hindex' : session.receiving_index = inc_index s.local_index := by
    rw [hindex, show t.handshake.next_index = _ from hnext]
  -- The session of the view is the one that was stored.
  have hsession : session = Session.new packet.sender_idx s₁.local_index sk rk := by
    have hself := View.store_self ({ t.view.consumed c .None with
      next_index := inc_index t.handshake.next_index }) session
    rw [← hview, Session.local_index, ← hsender] at hself
    exact Option.some.inj (hself.symm.trans hstored)
  obtain ⟨hlimit, hcount⟩ := decapsulate_limiter (hformed.ne_nil hC.toSized) hdec
  rw [h.params] at hdec
  refine ⟨packet, kem, rk, sk, mac2, t', _, hans, hmac2, hdec, ?_, ?_, ?_, ?_⟩
  · rw [← h.params]
    exact congrArg View.params hview
  · rw [hview]
    exact h.own_part.answer hnext hindex' c
  · rw [← hsession, hview]
    refine ⟨hindex', ?_⟩
    rw [← hindex']
    exact View.store_self _ _
  · rw [hlimit]
    simp only [PeerPart.pending]
    omega

/-- **The answer to the own initiation** is accepted. -/
theorem finishes (hC : C.Correct) (h : Stands t₀ s .waiting peer t) (hready : t.Ready now)
    (hpeer : q.peer_static_public = t₀.handshake.params.static_public)
    {packet : HandshakeResponse} {kem : Option (Bytes × Bytes)} {rk sk : Bytes}
    (hans : Answers B t₀ s packet kem rk sk) {mac2 : Bytes} (hmac2 : mac2.length = 16)
    (hdst : DATA_OVERHEAD_SZ ≤ dst_len) (addr : Option IpAddr) (env : Env) {session : Session}
    (hsession : session = Session.new s.local_index packet.sender_idx rk sk) :
    ∃ t' evs, t.decapsulate B addr (answerBytes B q packet kem mac2) dst_len env
        = .ok (.WriteToNetwork (session.datagram C []), t', evs) ∧
      Stands t₀ s (.done (session.sent B)) peer t' := by
  obtain ⟨is_previous, hslot⟩ := h.own_part.slot
  have hbudget := h.budget
  simp only [OwnPart.pending] at hbudget
  obtain ⟨t', evs, hdec, hview⟩ := decapsulate_completes hC hready (by omega) h.params
    hpeer hans hslot hmac2 hdst hsession addr env
  have hindex : (session.sent B).receiving_index = s.local_index := by
    rw [hsession]
    rfl
  have hne : answerBytes B q packet kem mac2 ≠ [] := by
    intro hempty
    have hlen := congrArg List.length hempty
    simp [answerBytes, hmac2] at hlen
  obtain ⟨hlimit, hcount⟩ := decapsulate_limiter hne hdec
  refine ⟨t', evs, hdec, ?_, ?_, ?_, ?_⟩
  · rw [← h.params]
    exact congrArg View.params hview
  · rw [hview]
    refine ⟨hindex, ?_, Or.inl (congrArg UInt32.toNat hindex)⟩
    rw [← hindex]
    exact View.store_self _ _
  · rw [hview]
    exact h.peer_part.finish hindex is_previous _
  · rw [hlimit]
    simp only [OwnPart.pending]
    omega

/-- **The keepalive of the other side** is accepted. -/
theorem keeps (hC : C.Correct) {sa sb : Session} (h : Stands t₀ s own (.opened sb) t)
    (hfeeds : sa.Feeds sb) (hdst : AEAD_SIZE ≤ dst_len) (addr : Option IpAddr) (env : Env) :
    ∃ w t' evs, w.next = sa.sending_key_counter + 1 ∧
      t.decapsulate B addr (sa.datagram C []) dst_len env = .ok (.Done, t', evs) ∧
      Stands t₀ s own (.opened (sb.received w)) t' := by
  obtain ⟨hindex, hstored⟩ := h.peer_part
  have hlocal : sb.local_index = (inc_index s.local_index).toNat := congrArg UInt32.toNat hindex
  obtain ⟨w, t', evs, c, hnext, hdec, hlimiter, hc, hview⟩ := decapsulate_keeps (B := B) hC hfeeds
    (by rw [hlocal]; exact hstored) hdst addr env
  refine ⟨w, t', evs, hnext, hdec, ?_, ?_, ?_, ?_⟩
  · rw [← h.params]
    exact congrArg View.params hview
  · rw [hview]
    have hindex' : (sb.received w).receiving_index = inc_index s.local_index := hindex
    exact h.own_part.keep hindex' (hlocal ▸ hc)
  · rw [hview]
    refine ⟨hindex, ?_⟩
    rw [← hlocal]
    exact View.store_self _ (sb.received w)
  · rw [hlimiter]
    exact h.budget

end Tunn.Stands

/-! ## Section 3: The exchange -/

/-- Two tunnels and the datagrams on the way to each of them. -/
structure InFlight (C : Crypto) where
  tunnel : Bool → Tunn C
  inbox : Bool → Multiset Bytes

/-- What a call puts on the network. -/
def TunnResult.sends : TunnResult → Multiset Bytes
  | .WriteToNetwork packet => {packet}
  | _ => 0

/-- After tunnel `x` took the datagram `d`, which made it `t`, with result `r`. -/
def InFlight.deliver (e : InFlight C) (x : Bool) (d : Bytes) (t : Tunn C) (r : TunnResult) :
    InFlight C where
  tunnel := Function.update e.tunnel x t
  inbox := fun y => if y = x then (e.inbox x).erase d else e.inbox y + r.sends

/-- Any datagram on the way may be the next one to arrive. -/
def deliveries (C : Crypto) (B : Build) : System (InFlight C) (Bool × Label) where
  step := fun e l e' => ∃ addr d n t, l.2.op = .decapsulate addr d n ∧ d ∈ e.inbox l.1 ∧
    (e.tunnel l.1).decapsulate B addr d n l.2.env = .ok (l.2.result, t, l.2.events) ∧
    e' = e.deliver l.1 d t l.2.result

/-- How far a handshake is: the initiation `m` of `t₀`, answered under the
    parameters `q`.  Then come the datagrams on the way to the initiator and to
    the responder, and the number of deliveries that are left. -/
inductive Shakes (B : Build) (t₀ : Tunn C) (q : NoiseParams C) (s : HandshakeInitSentState)
    (m : Bytes) : OwnPart → PeerPart → Multiset Bytes → Multiset Bytes → Nat → Prop where
  | sent : Shakes B t₀ q s m .waiting .idle 0 {m} 3
  | answered (packet : HandshakeResponse) (kem : Option (Bytes × Bytes)) (rk sk mac2 : Bytes)
      (hans : Tunn.Answers B t₀ s packet kem rk sk) (hmac2 : mac2.length = 16) :
      Shakes B t₀ q s m .waiting (.opened (Session.new packet.sender_idx s.local_index sk rk))
        {Tunn.answerBytes B q packet kem mac2} 0 2
  | finished (sa sb : Session) (hzero : sa.sending_key_counter = 0) (hforth : sa.Feeds sb)
      (hback : sb.Feeds sa) :
      Shakes B t₀ q s m (.done (sa.sent B)) (.opened sb) 0 {sa.datagram C []} 1
  | linked (sa sb : Session) (hforth : sa.Feeds sb) (hback : sb.Feeds sa) :
      Shakes B t₀ q s m (.done sa) (.opened sb) 0 0 0

namespace Shakes

variable {t₀ y₀ t : Tunn C} {s s' : HandshakeInitSentState} {m d : Bytes} {own own' : OwnPart}
  {peer peer' : PeerPart} {replies requests : Multiset Bytes} {left n now : Nat}

theorem left_eq_zero (h : Shakes B t₀ q s m own peer replies requests left) :
    left = 0 ↔ replies = 0 ∧ requests = 0 := by
  cases h <;> simp

theorem ends (h : Shakes B t₀ q s m own peer replies requests left) (hleft : left = 0) :
    ∃ sa sb, own = .done sa ∧ peer = .opened sb ∧ sa.Feeds sb ∧ sb.Feeds sa := by
  cases h with
  | linked sa sb hforth hback => exact ⟨sa, sb, rfl, rfl, hforth, hback⟩
  | _ => simp at hleft

theorem resp_size_ge (hn : B.variant.resp_size ≤ n) : DATA_OVERHEAD_SZ ≤ n ∧ AEAD_SIZE ≤ n := by
  have hsize : 32 ≤ B.variant.resp_size := by
    cases B.variant <;> decide
  simp only [DATA_OVERHEAD_SZ, AEAD_SIZE]
  omega

/-- A datagram that arrives at the initiator. -/
theorem reply (hC : C.Correct) (h : Shakes B t₀ q s m own peer replies requests left)
    (hd : d ∈ replies) (ht : Tunn.Stands t₀ s own peer' t) (hready : t.Ready now)
    (hpeer : q.peer_static_public = t₀.handshake.params.static_public)
    (hn : B.variant.resp_size ≤ n) (addr : Option IpAddr) (env : Env) :
    ∃ r t' evs own' left', t.decapsulate B addr d n env = .ok (r, t', evs) ∧
      (∀ err, r ≠ .Err err) ∧ Tunn.Stands t₀ s own' peer' t' ∧ left = left' + 1 ∧
      Shakes B t₀ q s m own' peer (replies.erase d) (requests + r.sends) left' := by
  cases h with
  | sent => simp at hd
  | answered packet kem rk sk mac2 hans hmac2 =>
    obtain rfl := Multiset.mem_singleton.mp hd
    obtain ⟨t', evs, hdec, hstands⟩ := ht.finishes hC hready hpeer hans hmac2
      (resp_size_ge hn).1 addr env rfl
    refine ⟨_, t', evs, _, 1, hdec, by simp, hstands, rfl, ?_⟩
    have hnext : Shakes B t₀ q s m _ _ _ _ 1 :=
      .finished (Session.new s.local_index packet.sender_idx rk sk)
        (Session.new packet.sender_idx s.local_index sk rk) rfl (Tunn.fresh_feeds ..)
        (Tunn.fresh_feeds ..)
    simpa [TunnResult.sends] using hnext
  | finished sa sb _ _ _ => simp at hd
  | linked sa sb _ _ => simp at hd

/-- A datagram that arrives at the responder, which was `y₀`. -/
theorem request (hC : C.Correct)
    (h : Shakes B t₀ y₀.handshake.params s m own peer replies requests left) (hd : d ∈ requests)
    (ht : Tunn.Stands y₀ s' own' peer t) (hready : t.Ready now)
    (hpair : Paired t₀.handshake.params y₀.handshake.params) {env₀ : Env}
    (hformed : t₀.Formed B env₀ m) (hs : t₀.handshake.state = .InitSent s)
    (hafter : ∀ ts, Tai64N.parse (t₀.handshake.stamper.stamp (env₀.clock .stamp)) = .ok ts →
      ts.after y₀.handshake.last_handshake_timestamp = true)
    (hn : B.variant.resp_size ≤ n) (addr : Option IpAddr) (env : Env) :
    ∃ r t' evs peer' left', t.decapsulate B addr d n env = .ok (r, t', evs) ∧
      (∀ err, r ≠ .Err err) ∧ Tunn.Stands y₀ s' own' peer' t' ∧ left = left' + 1 ∧
      Shakes B t₀ y₀.handshake.params s m own peer' (replies + r.sends) (requests.erase d)
        left' := by
  cases h with
  | sent =>
    obtain rfl := Multiset.mem_singleton.mp hd
    obtain ⟨packet, kem, rk, sk, mac2, t', evs, hans, hmac2, hdec, hstands⟩ :=
      ht.answers hC hready hpair hformed hs hafter hn addr env
    refine ⟨_, t', evs, _, 2, hdec, by simp, hstands, rfl, ?_⟩
    have hnext : Shakes B t₀ y₀.handshake.params s d _ _ _ _ 2 :=
      .answered packet kem rk sk mac2 hans hmac2
    simpa [TunnResult.sends] using hnext
  | answered packet kem rk sk mac2 _ _ => simp at hd
  | finished sa sb hzero hforth hback =>
    obtain rfl := Multiset.mem_singleton.mp hd
    obtain ⟨w, t', evs, hw, hdec, hstands⟩ := ht.keeps (B := B) hC hforth (resp_size_ge hn).2 addr
      env
    have hbits : sa.sending_key_counter + 1 < 2 ^ B.usize_bits := by
      have := B.le_usize_bits
      rw [hzero]
      exact Nat.one_lt_two_pow (by omega)
    refine ⟨_, t', evs, _, 0, hdec, by simp, hstands, rfl, ?_⟩
    have hnext : Shakes B t₀ y₀.handshake.params s m _ _ _ _ 0 :=
      .linked (sa.sent B) (sb.received w) (hforth.next hw hbits (hzero ▸ by decide))
        ⟨hback.key, hback.index, hback.counter, hback.below⟩
    simpa [TunnResult.sends] using hnext
  | linked sa sb _ _ => simp at hd

end Shakes

/-- What the two sides start with: each has just formed an initiation. -/
structure Crossing (B : Build) (t₀ : Bool → Tunn C) (s : Bool → HandshakeInitSentState)
    (m : Bool → Bytes) (env₀ : Bool → Env) : Prop where
  formed : ∀ x, (t₀ x).Formed B (env₀ x) (m x)
  state : ∀ x, (t₀ x).handshake.state = .InitSent (s x)
  paired : ∀ x, Paired (t₀ x).handshake.params (t₀ !x).handshake.params
  after : ∀ x ts, Tai64N.parse ((t₀ x).handshake.stamper.stamp ((env₀ x).clock .stamp)) = .ok ts →
    ts.after (t₀ !x).handshake.last_handshake_timestamp = true

/-- How far the two handshakes are; side `x` started the one of index `x`. -/
structure Progress where
  own : Bool → OwnPart
  peer : Bool → PeerPart
  replies : Bool → Multiset Bytes
  requests : Bool → Multiset Bytes
  left : Bool → Nat

def Progress.total (p : Progress) : Nat := p.left false + p.left true

/-- **The invariant**: the two handshakes do not disturb each other. -/
structure InFlight.At (B : Build) (t₀ : Bool → Tunn C) (s : Bool → HandshakeInitSentState)
    (m : Bool → Bytes) (p : Progress) (e : InFlight C) : Prop where
  stands : ∀ x, Tunn.Stands (t₀ x) (s x) (p.own x) (p.peer x) (e.tunnel x)
  shakes : ∀ x, Shakes B (t₀ x) (t₀ !x).handshake.params (s x) (m x) (p.own x) (p.peer !x)
    (p.replies x) (p.requests x) (p.left x)
  inbox : ∀ x, e.inbox x = p.replies x + p.requests !x

namespace InFlight.At

variable {t₀ : Bool → Tunn C} {s : Bool → HandshakeInitSentState} {m : Bool → Bytes}
  {env₀ : Bool → Env} {p : Progress} {e : InFlight C} {n now : Nat} {d : Bytes} {x : Bool}

/-- **Every delivery is accepted**, and one less is left. -/
theorem delivers (hC : C.Correct) (hcross : Crossing B t₀ s m env₀) (h : At B t₀ s m p e)
    (hd : d ∈ e.inbox x) (hready : (e.tunnel x).Ready now) (hn : B.variant.resp_size ≤ n)
    (addr : Option IpAddr) (env : Env) :
    ∃ r t evs p', (e.tunnel x).decapsulate B addr d n env = .ok (r, t, evs) ∧
      (∀ err, r ≠ .Err err) ∧ p.total = p'.total + 1 ∧ At B t₀ s m p' (e.deliver x d t r) := by
  rw [h.inbox x] at hd
  rcases Multiset.mem_add.mp hd with hd | hd
  · -- the answer to the own initiation
    obtain ⟨r, t, evs, own', left', hdec, hr, hstands, hleft, hshakes⟩ := (h.shakes x).reply hC hd
      (h.stands x) hready (hcross.paired x).peer_symm hn addr env
    refine ⟨r, t, evs, { p with
      own := Function.update p.own x own'
      replies := Function.update p.replies x ((p.replies x).erase d)
      requests := Function.update p.requests x (p.requests x + r.sends)
      left := Function.update p.left x left' }, hdec, hr, ?_, ?_, ?_, ?_⟩
    · cases x <;> simp [Progress.total, hleft] <;> omega
    · intro y
      obtain rfl | rfl := Bool.eq_or_eq_not y x
      · simpa [deliver] using hstands
      · simpa [deliver] using h.stands (!x)
    · intro y
      obtain rfl | rfl := Bool.eq_or_eq_not y x
      · simpa using hshakes
      · simpa using h.shakes (!x)
    · intro y
      obtain rfl | rfl := Bool.eq_or_eq_not y x
      · simp [deliver, h.inbox y, Multiset.erase_add_left_pos _ hd]
      · simp [deliver, h.inbox (!x), add_assoc]
  · -- a message of the handshake of the other side
    have hshakes := h.shakes (!x)
    have hpair := hcross.paired (!x)
    have hafter := hcross.after (!x)
    simp only [Bool.not_not] at hshakes hpair hafter
    obtain ⟨r, t, evs, peer', left', hdec, hr, hstands, hleft, hshakes'⟩ := hshakes.request hC hd
      (h.stands x) hready hpair (hcross.formed _) (hcross.state _) hafter hn addr env
    refine ⟨r, t, evs, { p with
      peer := Function.update p.peer x peer'
      replies := Function.update p.replies (!x) (p.replies (!x) + r.sends)
      requests := Function.update p.requests (!x) ((p.requests (!x)).erase d)
      left := Function.update p.left (!x) left' }, hdec, hr, ?_, ?_, ?_, ?_⟩
    · cases x <;> simp [Progress.total] at hleft ⊢ <;> omega
    · intro y
      obtain rfl | rfl := Bool.eq_or_eq_not y x
      · simpa [deliver] using hstands
      · simpa [deliver] using h.stands (!x)
    · intro y
      obtain rfl | rfl := Bool.eq_or_eq_not y x
      · simpa using h.shakes y
      · simpa using hshakes'
    · intro y
      obtain rfl | rfl := Bool.eq_or_eq_not y x
      · simp [deliver, h.inbox y, Multiset.erase_add_right_pos _ hd]
      · simp [deliver, h.inbox (!x), add_right_comm]

/-- Nothing is on the way when no delivery is left. -/
theorem inbox_eq_zero (h : At B t₀ s m p e) : (∀ x, e.inbox x = 0) ↔ p.total = 0 := by
  have hleft := fun x => (h.shakes x).left_eq_zero
  have hinbox := h.inbox
  simp only [Bool.forall_bool, Progress.total, Nat.add_eq_zero_iff, Bool.not_false, Bool.not_true]
    at hleft hinbox ⊢
  rw [hinbox.1, hinbox.2, hleft.1, hleft.2]
  simp only [← Multiset.card_eq_zero, Multiset.card_add, Nat.add_eq_zero_iff]
  tauto

/-- **In the end both directions work**, whichever of the two sessions a side uses. -/
theorem linked (hC : C.Correct) (h : At B t₀ s m p e) (hleft : p.total = 0) (x : Bool) :
    Tunn.Delivers B (e.tunnel x) (e.tunnel !x) := by
  have hzero : ∀ y, p.left y = 0 := by
    simp only [Progress.total] at hleft
    simp only [Bool.forall_bool]
    omega
  obtain ⟨sa, sb, hown, hpeer, hforth, _⟩ := (h.shakes x).ends (hzero x)
  obtain ⟨sa', sb', hown', hpeer', _, hback⟩ := (h.shakes !x).ends (hzero !x)
  rw [Bool.not_not] at hpeer'
  have hx := h.stands x
  have hy := h.stands !x
  rw [hown, hpeer'] at hx
  rw [hown', hpeer] at hy
  obtain ⟨hsa, hstored, hcurrent⟩ := hx.own_part
  obtain ⟨hsb', hstored'⟩ := hx.peer_part
  -- The current session is the own one or that of the other side.
  rcases hcurrent with hcurrent | hcurrent
  · suffices hlink : Tunn.Linked (e.tunnel x) (e.tunnel !x) sa sb from hlink.delivers hC
    refine ⟨?_, ?_, hforth⟩
    · rw [show (e.tunnel x).current = _ from hcurrent]
      exact hstored
    · obtain ⟨hsb, hstored⟩ := hy.peer_part
      rw [Session.local_index, hsb]
      exact hstored
  · suffices hlink : Tunn.Linked (e.tunnel x) (e.tunnel !x) sb' sa' from hlink.delivers hC
    refine ⟨?_, ?_, hback⟩
    · rw [show (e.tunnel x).current = _ from hcurrent]
      exact hstored'
    · obtain ⟨hsa', hstored, _⟩ := hy.own_part
      rw [Session.local_index, hsa']
      exact hstored

end InFlight.At

/-! ## Section 4: Every order of delivery -/

/-- The clock does not go back. -/
structure Forward (tr : List Label) : Prop where
  order : ∀ l ∈ tr, l.env.clock .update ≤ l.env.clock .clear
  mono : tr.Pairwise fun l l' => ∀ r r', l.env.clock r ≤ l'.env.clock r'

theorem Forward.of_append {tr tr' : List Label} (h : Forward (tr ++ tr')) : Forward tr where
  order := fun l hl => h.order l (List.mem_append_left _ hl)
  mono := (List.pairwise_append.mp h.mono).1

namespace Tunn

variable {t t' : Tunn C} {tr : List Label} {l : Label} {m : Bytes} {env : Env}

/-- A datagram extends the run of a tunnel. -/
theorem Reached.extend (h : t.Reached B tr) (hne : tr ≠ []) (hforward : Forward (tr ++ [l]))
    {addr : Option IpAddr} {d : Bytes} {n : Nat} (hop : l.op = .decapsulate addr d n)
    (hcall : t.decapsulate B addr d n l.env = .ok (l.result, t', l.events)) :
    t'.Reached B (tr ++ [l]) := by
  obtain ⟨priv, peer, hpeer, psk, keepalive, index, limiter, unix_time, start, env, hlimiter, hrun,
    hclock, hlims⟩ := h
  obtain ⟨l₀, hl₀⟩ := List.exists_mem_of_ne_nil tr hne
  have hafter : ∀ r, start ≤ l.env.clock r := by
    intro r
    have hmono := (List.pairwise_append.mp hforward.mono).2.2 l₀ hl₀ l (by simp)
    exact (hclock.start l₀ hl₀ .clear).trans (hmono .clear r)
  refine ⟨priv, peer, hpeer, psk, keepalive, index, limiter, unix_time, start, env, hlimiter,
    .snoc hrun ?_, ⟨?_, hforward.order, hforward.mono⟩, ?_⟩
  · show t.step B l.op l.env = _
    rw [hop]
    exact hcall
  · intro l' hl'
    rcases List.mem_append.mp hl' with hl' | hl'
    · exact hclock.start l' hl'
    · rw [List.mem_singleton.mp hl']
      exact hafter
  · intro l' hl' a b c hset
    rcases List.mem_append.mp hl' with hl' | hl'
    · exact hlims l' hl' a b c hset
    · rw [List.mem_singleton.mp hl', hop] at hset
      cases hset

/-- A tunnel that has just formed an initiation waits for the answer. -/
theorem Formed.waiting (h : t.Formed B env m) :
    ∃ s, t.handshake.state = .InitSent s ∧ t.handshake.next_index = s.local_index := by
  obtain ⟨h₀, n, evs, hcall⟩ := h
  rcases Handshake.format_initiation_cases hcall with
    ⟨_, hres, _⟩ | ⟨_, _, _, _, _, hh, _⟩
  · cases hres
  · rw [hh]
    exact ⟨_, rfl, rfl⟩

end Tunn

namespace InFlight

variable {t₀ : Bool → Tunn C} {tr : Bool → List Label} {l : Bool → Label} {m : Bool → Bytes}
  {s : Bool → HandshakeInitSentState} {env₀ : Bool → Env} {ds : List (Bool × Label)}
  {e : InFlight C}

/-- The buffers have room for every message. -/
def Roomy (B : Build) (ds : List (Bool × Label)) : Prop :=
  ∀ d ∈ ds, ∀ addr datagram n, d.2.op = .decapsulate addr datagram n → B.variant.resp_size ≤ n

/-- **After any deliveries** the tunnels are where the invariant has them. -/
theorem run_at (hC : C.Correct) (hcross : Crossing B t₀ s m env₀)
    (hreached : ∀ x, (t₀ x).Reached B (tr x)) (hne : ∀ x, tr x ≠ [])
    (hinit : ∃ p : Progress, p.total = 6 ∧ At B t₀ s m p ⟨t₀, fun x => {m !x}⟩)
    (hrun : Run (deliveries C B) ⟨t₀, fun x => {m !x}⟩ ds e)
    (hclock : ∀ x, Forward (tr x ++ labelsOf x ds)) (hroom : Roomy B ds) :
    (∀ x, (e.tunnel x).Reached B (tr x ++ labelsOf x ds)) ∧
      (∀ d ∈ ds, ∀ err, d.2.result ≠ .Err err) ∧
      ∃ p : Progress, ds.length + p.total = 6 ∧ At B t₀ s m p e := by
  refine hrun.invariant_of
    (A := fun ds => (∀ x, Forward (tr x ++ labelsOf x ds)) ∧ Roomy B ds)
    (I := fun ds e => (∀ x, (e.tunnel x).Reached B (tr x ++ labelsOf x ds)) ∧
      (∀ d ∈ ds, ∀ err, d.2.result ≠ .Err err) ∧
      ∃ p : Progress, ds.length + p.total = 6 ∧ At B t₀ s m p e) ?_ ?_ ?_ ⟨hclock, hroom⟩
  · intro ds d h
    refine ⟨fun x => ?_, fun d' hd' => h.2 d' (List.mem_append_left _ hd')⟩
    have hx := h.1 x
    rw [labelsOf_append, ← List.append_assoc] at hx
    exact hx.of_append
  · obtain ⟨p, htotal, hat⟩ := hinit
    refine ⟨?_, by simp, p, by simpa using htotal, hat⟩
    intro x
    simpa [labelsOf] using hreached x
  · intro ds e d e' hassume hinv hstep
    obtain ⟨hforward, hroom⟩ := hassume
    obtain ⟨hreached, hok, p, htotal, hat⟩ := hinv
    obtain ⟨addr, datagram, n, t, hop, hmem, hcall, rfl⟩ := hstep
    obtain ⟨now, hready⟩ := (hreached d.1).ready
    obtain ⟨r, t', evs, p', hdec, hr, hless, hat'⟩ := hat.delivers hC hcross hmem hready
      (hroom d (by simp) addr datagram n hop) addr d.2.env
    -- The delivery of the run is the one that the invariant predicts.
    rw [hcall] at hdec
    injection hdec with hdec
    obtain ⟨hresult, htunnel, _⟩ : d.2.result = r ∧ t = t' ∧ d.2.events = evs := by
      simpa using hdec
    rw [← hresult, ← htunnel] at hat'
    refine ⟨?_, ?_, p', ?_, hat'⟩
    · intro x
      have hx := hforward x
      rw [labelsOf_append, ← List.append_assoc] at hx ⊢
      by_cases hside : d.1 = x
      · subst hside
        rw [labelsOf_self (p := d.1) (l := d.2)] at hx ⊢
        have hnext := (hreached d.1).extend (by simp [hne]) hx hop hcall
        simpa [deliver] using hnext
      · rw [labelsOf_other (q := d.1) (l := d.2) hside, List.append_nil]
        have hsame : (e.deliver d.1 datagram t d.2.result).tunnel x = e.tunnel x :=
          Function.update_of_ne (Ne.symm hside) ..
        rw [hsame]
        exact hreached x
    · intro d' hd'
      rcases List.mem_append.mp hd' with hd' | hd'
      · exact hok d' hd'
      · rw [List.mem_singleton.mp hd', hresult]
        exact hr
    · rw [List.length_append, List.length_singleton]
      omega

/-- **Crossing initiations.**  Each of two tunnels has just sent an initiation to the other one.
    In whatever order the datagrams arrive, every one of them is accepted and none makes a call
    panic; there are six, and after them a packet of either side is opened by the other one. -/
theorem crossing_initiations (hC : C.Correct) (hreached : ∀ x, (t₀ x).Reached B (tr x ++ [l x]))
    (hm : ∀ x, (l x).result = .WriteToNetwork (m x)) (hinit : ∀ x, Initiates (l x).events)
    (hpair : Paired (t₀ false).handshake.params (t₀ true).handshake.params)
    (hload : ∀ x, (t₀ x).rate_limiter.count + 2 ≤ (t₀ x).rate_limiter.limit)
    (hafter : ∀ x ts,
      Tai64N.parse ((t₀ x).handshake.stamper.stamp ((l x).env.clock .stamp)) = .ok ts →
        ts.after (t₀ !x).handshake.last_handshake_timestamp = true)
    (hrun : Run (deliveries C B) ⟨t₀, fun x => {m !x}⟩ ds e)
    (hclock : ∀ x, Forward (tr x ++ [l x] ++ labelsOf x ds)) (hroom : Roomy B ds) :
    (∀ d ∈ ds, ∀ err, d.2.result ≠ .Err err) ∧
    (∀ x, ∀ d ∈ e.inbox x, ∀ addr n env, B.variant.resp_size ≤ n →
      ∃ r t evs, (e.tunnel x).decapsulate B addr d n env = .ok (r, t, evs) ∧
        ∀ err, r ≠ .Err err) ∧
    ds.length ≤ 6 ∧ ((∀ x, e.inbox x = 0) ↔ ds.length = 6) ∧
    (ds.length = 6 → ∀ x, Tunn.Delivers B (e.tunnel x) (e.tunnel !x)) := by
  have hformed : ∀ x, (t₀ x).Formed B (l x).env (m x) := by
    intro x
    obtain ⟨t, hstep⟩ := (hreached x).last
    rw [hm x] at hstep
    exact Tunn.step_formed (hinit x) hstep
  choose s hstate hnext using fun x => (hformed x).waiting
  have hcross : Crossing B t₀ s m (fun x => (l x).env) := by
    refine ⟨hformed, hstate, ?_, hafter⟩
    simp only [Bool.forall_bool, Bool.not_false, Bool.not_true]
    exact ⟨hpair, hpair.peer_symm, hpair.peer, hpair.psk.symm⟩
  -- Nothing was delivered yet.
  have hstart : At B t₀ s m ⟨fun _ => .waiting, fun _ => .idle, fun _ => 0, fun x => {m x},
      fun _ => 3⟩ ⟨t₀, fun x => {m !x}⟩ := by
    refine ⟨fun x => ⟨rfl, Or.inl ⟨hnext x, hstate x⟩, ⟨hnext x, rfl⟩, hload x⟩, fun x => .sent, ?_⟩
    intro x
    simp
  obtain ⟨hreached', hok, p, htotal, hat⟩ := run_at hC hcross hreached (by simp) ⟨_, rfl, hstart⟩
    hrun hclock hroom
  refine ⟨hok, ?_, by omega, ?_, ?_⟩
  · intro x d hd addr n env hn
    obtain ⟨now, hready⟩ := (hreached' x).ready
    obtain ⟨r, t, evs, _, hdec, hr, _⟩ := hat.delivers hC hcross hd hready hn addr env
    exact ⟨r, t, evs, hdec, hr⟩
  · rw [hat.inbox_eq_zero]
    omega
  · intro hlength
    exact hat.linked hC (by omega)

/-- One delivery more. -/
theorem run_deliver {e₀ : InFlight C} {x : Bool} {d : Bytes} {addr : Option IpAddr} {n : Nat}
    {env : Env} {r : TunnResult} {t : Tunn C} {evs : List Event}
    (hrun : Run (deliveries C B) e₀ ds e) (hd : d ∈ e.inbox x)
    (hdec : (e.tunnel x).decapsulate B addr d n env = .ok (r, t, evs)) :
    Run (deliveries C B) e₀ (ds ++ [(x, ⟨.decapsulate addr d n, env, r, evs⟩)])
      (e.deliver x d t r) := by
  let l : Label := ⟨.decapsulate addr d n, env, r, evs⟩
  have hstep : (deliveries C B).step e (x, l) (e.deliver x d t r) :=
    ⟨addr, d, n, t, rfl, hd, hdec, rfl⟩
  exact .snoc hrun hstep

/-- One datagram after the other, as long as there is one. -/
theorem run_deliveries {e₀ : InFlight C} (env : Env) {n total : Nat}
    (hn : B.variant.resp_size ≤ n)
    (hnext : ∀ ds e, Run (deliveries C B) e₀ ds e → (∀ d ∈ ds, d.2.env = env) → Roomy B ds →
      ds.length < total → ∃ x, ∃ d ∈ e.inbox x, ∃ r t evs,
        (e.tunnel x).decapsulate B none d n env = .ok (r, t, evs)) :
    ∀ k ≤ total, ∃ ds e, Run (deliveries C B) e₀ ds e ∧ ds.length = k ∧
      (∀ d ∈ ds, d.2.env = env) ∧ Roomy B ds := by
  intro k
  induction k with
  | zero =>
    intro _
    exact ⟨[], e₀, .nil, rfl, by simp, by simp [Roomy]⟩
  | succ k ih =>
    intro hk
    obtain ⟨ds, e, hrun, hlength, henv, hroom⟩ := ih (by omega)
    obtain ⟨x, d, hd, r, t, evs, hdec⟩ := hnext ds e hrun henv hroom (by omega)
    refine ⟨ds ++ [(x, ⟨.decapsulate none d n, env, r, evs⟩)], e.deliver x d t r,
      run_deliver hrun hd hdec, by simp [hlength], ?_, ?_⟩
    · intro d' hd'
      rcases List.mem_append.mp hd' with hd' | hd'
      · exact henv d' hd'
      · rw [List.mem_singleton.mp hd']
    · intro d' hd' addr datagram n' hop
      rcases List.mem_append.mp hd' with hd' | hd'
      · exact hroom d' hd' addr datagram n' hop
      · rw [List.mem_singleton.mp hd'] at hop
        cases hop
        exact hn

/-- Two new tunnels of a PQ build, all six datagrams delivered. -/
theorem crossing_initiations_new :
    let B : Build := ⟨true, 64, false, by decide, by decide⟩
    let env : UInt8 → Env := fun b => ⟨fun _ => 0, [b], [b], [], []⟩
    let key : Bool → UInt8 := fun x => if x then 7 else 9
    let t : Bool → Tunn symbolic := fun x => Tunn.new symbolic [key x]
      (symbolic.x25519_public [key !x]) (symbolic_correct.public_length _) none none 1 none 0 0
      (env 0)
    let call := fun x => (t x).format_handshake_initiation B 2048 false (env (key x))
    ∃ (m : Bool → Bytes) (ds : List (Bool × Label)) (e : InFlight symbolic),
      (∀ x, (call x).1 = .WriteToNetwork (m x)) ∧
      Run (deliveries symbolic B) ⟨fun x => (call x).2.1, fun x => {m !x}⟩ ds e ∧ ds.length = 6 ∧
      ∀ x, Tunn.Delivers B (e.tunnel x) (e.tunnel !x) := by
  intro B env key t call
  have hsize : B.variant.resp_size ≤ 2048 := by decide
  let l : Bool → Label := fun x =>
    ⟨.format_handshake_initiation 2048 false, env (key x), (call x).1, (call x).2.2⟩
  choose m hm using fun x => (⟨_, rfl⟩ : ∃ m, (l x).result = .WriteToNetwork m)
  have hzero : ∀ tr : List Label, (∀ l ∈ tr, ∀ r, l.env.clock r = 0) → Forward tr := by
    intro tr h
    refine ⟨fun l hl => by rw [h l hl, h l hl], List.pairwise_of_forall_mem_list ?_⟩
    intro l hl l' hl' r r'
    rw [h l hl, h l' hl']
  have hreached : ∀ x, (call x).2.1.Reached B ([] ++ [l x]) := by
    intro x
    refine ⟨[key x], _, symbolic_correct.public_length _, none, none, 1, none, 0, 0, env 0,
      (fun l hl => by cases hl), .snoc .nil rfl, ⟨?_, ?_, List.pairwise_singleton _ _⟩, ?_⟩
    · intro _ _ _
      exact Nat.zero_le _
    · intro l' hl'
      obtain rfl := List.mem_singleton.mp hl'
      exact Nat.le_refl _
    · intro l' hl' priv pub lim hop
      obtain rfl := List.mem_singleton.mp hl'
      cases hop
  have hafter : ∀ x ts, Tai64N.parse ((call x).2.1.handshake.stamper.stamp
      ((l x).env.clock .stamp)) = .ok ts →
      ts.after (call !x).2.1.handshake.last_handshake_timestamp = true := by
    intro x ts hts
    obtain rfl := Except.ok.inj hts
    cases x <;> decide
  have hforward : ∀ ds : List (Bool × Label), (∀ d ∈ ds, ∀ r, d.2.env.clock r = 0) →
      ∀ x, Forward ([] ++ [l x] ++ labelsOf x ds) := by
    intro ds h x
    apply hzero
    intro l' hl'
    rcases List.mem_append.mp hl' with hl' | hl'
    · obtain rfl := List.mem_singleton.mp hl'
      intro r
      rfl
    · exact h _ (mem_labelsOf.mp hl')
  have hmain := fun ds (e : InFlight symbolic)
      (hrun : Run (deliveries symbolic B) ⟨fun x => (call x).2.1, fun x => {m !x}⟩ ds e)
      (hclock : ∀ d ∈ ds, ∀ r, d.2.env.clock r = 0) =>
    crossing_initiations symbolic_correct hreached hm
      (fun x => ⟨_, _, List.mem_cons_of_mem _ List.mem_cons_self⟩) ⟨rfl, rfl, rfl⟩
      (by intro x; cases x <;> decide) hafter hrun (hforward ds hclock)
  obtain ⟨ds, e, hrun, hlength, hclock, hroom⟩ := run_deliveries (env 1) hsize
    (fun ds e hrun henv hroom hlength => by
      obtain ⟨_, hnext, _, hempty, _⟩ :=
        hmain ds e hrun (fun d hd r => by rw [henv d hd]) hroom
      obtain ⟨x, hx⟩ := not_forall.mp (fun h => absurd (hempty.mp h) (Nat.ne_of_lt hlength))
      obtain ⟨d, hd⟩ := Multiset.exists_mem_of_ne_zero hx
      obtain ⟨r, t', evs, hdec, _⟩ := hnext x d hd none 2048 (env 1) hsize
      exact ⟨x, d, hd, r, t', evs, hdec⟩) 6 (Nat.le_refl _)
  exact ⟨m, ds, e, hm, hrun, hlength,
    (hmain ds e hrun (fun d hd r => by rw [hclock d hd]) hroom).2.2.2.2 hlength⟩

end InFlight

end PqBoringtun
