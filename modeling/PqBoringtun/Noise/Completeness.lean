import PqBoringtun.Noise.Keys
import PqBoringtun.Noise.ReplayWindow
import PqBoringtun.Noise.Symbolic
import PqBoringtun.Noise.Timing
import PqBoringtun.Noise.Wire

/-! # An honest handshake completes

    Two reachable tunnels that are configured for each other complete a
    handshake from whatever states they are in: initiation, response and
    keepalive are accepted, both current sessions are the new one, and
    packets pass in both directions.

    * Section 1: the two sides derive the same keys.
    * Section 2: a message formed by one handshake is accepted by the other.
    * Section 3: packets on a pair of matching sessions.
    * Section 4: the tunnels.
-/

namespace PqBoringtun

open Bytes KeyChain

variable {C : Crypto} {B : Build} {p q : NoiseParams C} {v : Variant}

/-! ## Section 1: Both sides derive the same keys -/

/-- Configured with each other's public keys and the same preshared key. -/
structure Paired (p q : NoiseParams C) : Prop where
  peer : p.peer_static_public = q.static_public
  peer_symm : q.peer_static_public = p.static_public
  psk : p.psk = q.psk

namespace Paired

theorem static_shared (hC : C.KeyAgreement) (h : Paired p q) :
    p.static_shared = q.static_shared := by
  rw [p.static_shared_eq, q.static_shared_eq, h.peer, h.peer_symm, p.static_public_eq,
    q.static_public_eq]
  exact hC.dh_comm _ _

theorem ephemeral_static (hC : C.KeyAgreement) (h : Paired p q) (e : Bytes) :
    C.x25519 e p.peer_static_public = C.x25519 q.static_private (C.x25519_public e) := by
  rw [h.peer, q.static_public_eq]
  exact hC.dh_comm _ _

theorem initiatorInputs_eq (hC : C.KeyAgreement) (h : Paired p q) (e : Bytes) :
    initiatorInputs C p e = responderInputs C q (C.x25519_public e) := by
  rw [initiatorInputs, responderInputs, h.ephemeral_static hC, h.static_shared hC]

/-- The response inputs, computed with `s` at the initiator and `re` at the responder. -/
theorem completeInputs_eq (hC : C.KeyAgreement) (h : Paired p q) (s : HandshakeInitSentState)
    (re : Bytes) (kem : Option (Bytes × Bytes)) :
    completeInputs C p s (C.x25519_public re) kem
      = responseInputs (C.x25519_public re) (C.x25519 re (C.x25519_public s.ephemeral_private))
        (C.x25519 re q.peer_static_public) kem := by
  have hstatic : C.x25519 p.static_private (C.x25519_public re)
      = C.x25519 re q.peer_static_public := by
    rw [h.peer_symm, p.static_public_eq]
    exact hC.dh_comm _ _
  rw [completeInputs, hC.dh_comm, hstatic]

end Paired

theorem Crypto.Correct.opens (hC : C.Correct) (key : Bytes) (counter : Nat) (data aad : Bytes) :
    (aead_chacha20_seal C key counter data aad).Opens C :=
  hC.open_seal ..

/-- **An initiation is accepted**, and both sides have the same chaining key and hash. -/
theorem consume_initiate (hC : C.KeyAgreement) (h : Paired p q) {e ts : Bytes} {ek : Option Bytes}
    {last stamp : Tai64N} {packet : HandshakeInit}
    (he : packet.unencrypted_ephemeral = C.x25519_public e)
    (hs : packet.encrypted_static = (initiate C v p e ts ek).encrypted_static.ciphertext)
    (ht : packet.encrypted_timestamp = (initiate C v p e ts ek).encrypted_timestamp.ciphertext)
    (hopens : (initiate C v p e ts ek).encrypted_static.Opens C)
    (hopent : (initiate C v p e ts ek).encrypted_timestamp.Opens C)
    (hlen : ts.length = TIMESTAMP_LEN) (hparse : Tai64N.parse ts = .ok stamp)
    (hafter : stamp.after last = true) :
    (consume C v q last packet ek).run = .ok (.ok
      { timestamp := stamp
        chaining_key := (initiate C v p e ts ek).chaining_key
        hash := (initiate C v p e ts ek).hash }) := by
  refine consume_ok.mpr ⟨?_, ⟨ts, ?_, hlen, hparse⟩, hafter, ?_, ?_⟩
  · rw [he, hs, ← h.ephemeral_static hC, h.peer_symm, ← h.peer]
    exact hopens
  · rw [he, ht, hs, ← h.ephemeral_static hC, ← h.static_shared hC, ← h.peer]
    exact hopent
  · rw [he, ← h.initiatorInputs_eq hC e]
    exact initiate_chaining_key e ts ek
  · rw [he, hs, ht]
    exact (initiate_hash ..).trans (by rw [h.peer])

/-- **A response is accepted**, and the session keys are swapped. -/
theorem complete_respond (hC : C.KeyAgreement) (h : Paired p q) {s : HandshakeInitSentState}
    {re : Bytes} {kem : Option (Bytes × Bytes)} {packet : HandshakeResponse} {r : Response}
    (hr : r = respond C q s.hash s.chaining_key (C.x25519_public s.ephemeral_private) re kem)
    (he : packet.unencrypted_ephemeral = C.x25519_public re)
    (hn : packet.encrypted_nothing = r.encrypted_nothing.ciphertext)
    (hopen : r.encrypted_nothing.Opens C) :
    (complete C p s packet kem).run = .ok (.ok (r.sending_key, r.receiving_key)) := by
  subst hr
  obtain ⟨hrecv, hsend⟩ := respond_keys (p := q) s.hash s.chaining_key
    (C.x25519_public s.ephemeral_private) re kem
  refine complete_ok.mpr ⟨?_, ?_, ?_⟩
  · rw [respond_nothing] at hopen
    rw [hn, he, respond_nothing, h.completeInputs_eq hC, h.psk]
    exact hopen
  · rw [hsend, he, h.completeInputs_eq hC, h.psk]
  · rw [hrecv, he, h.completeInputs_eq hC, h.psk]

/-- The responder's ML-KEM ciphertext is decapsulated to the same secret. -/
theorem kem_agrees (hC : C.KeyAgreement) (seed seed' : Bytes) :
    ∃ kem, (v.encapsulate C ((v.keygen C seed).map Prod.snd) seed').run = .ok (.ok kem) ∧
      (v.decapsulate C ((v.keygen C seed).map Prod.fst) (kem.map Prod.fst)).run = .ok (.ok kem) ∧
      v.Carries MLKEM768_CT_SIZE (kem.map Prod.fst) := by
  cases v with
  | classical => exact ⟨none, rfl, rfl, rfl⟩
  | pq =>
    refine ⟨some (C.mlkem_encapsulate (C.mlkem_keygen seed).2 seed'), ?_, ?_, _, rfl,
      hC.ct_length _ _⟩
    · simp [Variant.encapsulate, Variant.keygen, hC.ek_length, hC.ek_valid, MLKEM768_PK_SIZE]
    · simp [Variant.decapsulate, Variant.keygen, hC.decapsulate_encapsulate]

theorem keygen_carries (hC : C.Sized) (seed : Bytes) :
    v.Carries MLKEM768_PK_SIZE ((v.keygen C seed).map Prod.snd) := by
  cases v with
  | classical => rfl
  | pq => exact ⟨_, rfl, hC.ek_length seed⟩

/-! ## Section 2: Messages between two handshakes -/

/-- The packet of an initiation. -/
def HandshakeInit.sent (hC : C.Sized) (v : Variant) (p : NoiseParams C) (idx : UInt32)
    (e ts : Bytes) (hts : ts.length = TIMESTAMP_LEN) (ek : Option Bytes) : HandshakeInit where
  sender_idx := idx
  unencrypted_ephemeral := C.x25519_public e
  encrypted_static := (initiate C v p e ts ek).encrypted_static.ciphertext
  encrypted_timestamp := (initiate C v p e ts ek).encrypted_timestamp.ciphertext
  ephemeral_length := hC.public_length e
  static_length := by
    rw [initiate_static]
    exact (hC.seal_length ..).trans (by rw [p.static_public_eq, hC.public_length])
  timestamp_length := by
    rw [initiate_timestamp]
    exact (hC.seal_length ..).trans (by rw [hts]; rfl)

/-- The packet of a response. -/
def HandshakeResponse.sent (hC : C.Sized) (q : NoiseParams C) (idx peer : UInt32)
    (hash ck pe re : Bytes) (kem : Option (Bytes × Bytes)) : HandshakeResponse where
  sender_idx := idx
  receiver_idx := peer
  unencrypted_ephemeral := C.x25519_public re
  encrypted_nothing := (respond C q hash ck pe re kem).encrypted_nothing.ciphertext
  ephemeral_length := hC.public_length re
  nothing_length := by
    rw [respond_nothing]
    exact hC.seal_length ..

namespace Handshake

variable {h h' : Handshake C} {dst_len : Nat} {env : Env} {evs : List Event} {m : Bytes}

def mac1 (h : Handshake C) (msg : Bytes) : Bytes :=
  b2s_keyed_mac_16 C h.params.sending_mac1_key msg

def mac2 (h : Handshake C) (msg : Bytes) : Bytes :=
  match h.cookies.write_cookie with
  | some cookie => b2s_keyed_mac_16 C cookie (msg ++ h.mac1 msg)
  | none => List.replicate 16 0

theorem length_mac1 (hC : C.Sized) (h : Handshake C) (msg : Bytes) : (h.mac1 msg).length = 16 :=
  hC.mac_length _ _

theorem length_mac2 (hC : C.Sized) (h : Handshake C) (msg : Bytes) : (h.mac2 msg).length = 16 := by
  unfold mac2
  split
  · exact hC.mac_length _ _
  · exact List.length_replicate

/-- **What an initiation is made of.** -/
theorem format_initiation_ok (hC : C.Sized)
    (hcall : h.format_initiation v dst_len env = (.ok m, h', evs)) :
    ∃ mac2 msg, mac2.length = 16 ∧
      msg = initMessage v (HandshakeInit.sent hC v h.params (inc_index h.next_index) env.ephemeral
        (h.stamper.stamp (env.clock .stamp)) (TimeStamper.length_stamp ..)
        ((v.keygen C env.mlkem_seed).map Prod.snd)) ((v.keygen C env.mlkem_seed).map Prod.snd) ∧
      m = msg ++ b2s_keyed_mac_16 C h.params.sending_mac1_key msg ++ mac2 ∧
      h'.params = h.params ∧ h'.stamper = h.stamper ∧
      h'.state = .InitSent (initSent C v h.params (inc_index h.next_index) env.ephemeral
        env.mlkem_seed (h.stamper.stamp (env.clock .stamp)) (env.clock .sent)) := by
  unfold format_initiation at hcall
  split at hcall
  · cases hcall
  cases hcall
  exact ⟨h.mac2 _, _, h.length_mac2 hC _, rfl, rfl, rfl, rfl, rfl⟩

/-- **An accepted initiation is answered.** -/
theorem receive_initialization_ok (hC : C.Sized) {packet : HandshakeInit} {ek : Option Bytes}
    {c : Consumed} {kem : Option (Bytes × Bytes)}
    (hc : (consume C v h.params h.last_handshake_timestamp packet ek).run = .ok (.ok c))
    (hkem : (v.encapsulate C ek env.mlkem_seed).run = .ok (.ok kem))
    (hdst : v.resp_size ≤ dst_len) {r : Response}
    (hr : r = respond C h.params c.hash c.chaining_key packet.unencrypted_ephemeral
      env.ephemeral kem) {session : Session}
    (hsession : session = Session.new (inc_index h.next_index) packet.sender_idx r.receiving_key
      r.sending_key) :
    ∃ mac2 msg cookies, mac2.length = 16 ∧
      msg = respMessage v (HandshakeResponse.sent hC h.params (inc_index h.next_index)
        packet.sender_idx c.hash c.chaining_key packet.unencrypted_ephemeral env.ephemeral kem)
        (kem.map Prod.fst) ∧
      h.receive_initialization v packet ek dst_len env
        = .ok (.ok (msg ++ b2s_keyed_mac_16 C h.params.sending_mac1_key msg ++ mac2, session),
          { h with
            last_handshake_timestamp := c.timestamp
            previous := h.state
            state := .None
            next_index := inc_index h.next_index
            cookies := cookies },
          [.generated env.ephemeral, .handshake .encrypted_nothing env.ephemeral r.encrypted_nothing,
            .established false session.id env.ephemeral]) := by
  subst hr hsession
  unfold receive_initialization
  rw [hc, Outcome.ok_bind]
  dsimp only
  unfold format_response
  rw [if_neg (Nat.not_lt.mpr hdst)]
  dsimp only [committed]
  rw [hkem, Outcome.ok_bind]
  dsimp only
  exact ⟨h.mac2 _, _, _, h.length_mac2 hC _, rfl, rfl⟩

/-- The slot of a response to the initiation in `state`. -/
theorem response_slot_state {s : HandshakeInitSentState} {idx : UInt32}
    (hstate : h.state = .InitSent s) (hidx : idx = s.local_index) :
    response_slot h.state h.previous idx = some (s, false) := by
  simp [response_slot, HandshakeState.awaiting, hstate, hidx]

/-- **A response to an initiation in one of the slots is accepted.** -/
theorem receive_response_ok {s : HandshakeInitSentState} {is_previous : Bool}
    {packet : HandshakeResponse} {ct : Option Bytes} {kem : Option (Bytes × Bytes)}
    {rk sk : Bytes}
    (hslot : response_slot h.state h.previous packet.receiver_idx = some (s, is_previous))
    (hdk : v = .classical → s.mlkem_decapsulation_key = none)
    (hkem : (v.decapsulate C s.mlkem_decapsulation_key ct).run = .ok (.ok kem))
    (hkeys : (complete C h.params s packet kem).run = .ok (.ok (rk, sk))) {session : Session}
    (hsession : session = Session.new s.local_index packet.sender_idx rk sk) :
    h.receive_response v packet ct env
      = .ok (.ok session, h.answered is_previous (env.clock .rtt - s.time_sent),
        [.established true session.id s.ephemeral_private]) := by
  subst hsession
  have hresponse : (response_keys v h.params s packet ct).run = .ok (.ok (rk, sk)) :=
    Attempt.run_bind_eq_ok.mpr ⟨kem, hkem, hkeys⟩
  unfold receive_response
  rw [hslot]
  dsimp only
  rw [if_neg (fun hclassical => by simp [hdk hclassical.1] at hclassical), hresponse,
    Outcome.ok_bind]
  rfl

end Handshake

/-! ## Section 3: Packets on matching sessions -/

/-- A validator accepts the counter it expects next. -/
theorem ReceivingKeyCounterValidator.accepts_next (B : Build) (w : ReceivingKeyCounterValidator)
    (h : w.next < 2 ^ 64 - N_BITS) :
    w.will_accept B w.next = .ok (.ok ()) ∧
      ∃ w', w.mark_did_receive B w.next = .ok (.ok (), w') ∧ w'.next = w.next + 1 := by
  have hN : N_BITS = 1024 := rfl
  refine ⟨if_pos (Nat.le_refl _), { w.set_bit w.next with next := w.next + 1 }, ?_, rfl⟩
  unfold mark_did_receive
  rw [add_u64_of_lt B (show w.next + N_BITS < 2 ^ 64 by omega), Outcome.ok_bind,
    if_neg (by omega), if_pos rfl, add_u64_of_lt B (show w.next + 1 < 2 ^ 64 by omega),
    Outcome.ok_bind]
  rfl

/-- `sx` at one tunnel and `sy` at the other: what `sx` seals next, `sy` expects next. -/
structure Session.Feeds (sx sy : Session) : Prop where
  key : sx.sender = sy.receiver
  index : sx.sending_index = sy.receiving_index
  counter : sx.sending_key_counter = sy.receiving_key_counter.next
  below : sx.sending_key_counter < 2 ^ 64 - N_BITS

/-- The datagram of a packet sealed on a session. -/
def Session.datagram (C : Crypto) (s : Session) (src : Bytes) : Bytes :=
  leBytes 4 DATA ++ le32 s.sending_index ++ leBytes 8 s.sending_key_counter ++
    (s.packet_seal C src).ciphertext

theorem Session.format_packet_data_eq (s : Session) (src : Bytes) {dst_len : Nat}
    (hdst : src.length + DATA_OVERHEAD_SZ ≤ dst_len) :
    s.format_packet_data C B src dst_len
      = .ok (s.datagram C src, s.sent B,
        [.data s.id s.sending_key_counter (s.packet_seal C src)]) := by
  unfold format_packet_data
  rw [if_neg (Nat.not_lt.mpr hdst)]
  rfl

/-- **The packet is opened to the same bytes.** -/
theorem Session.Feeds.receive (hC : C.Correct) {sx sy : Session} (h : sx.Feeds sy) {src : Bytes}
    {dst_len : Nat} (hdst : src.length + AEAD_SIZE ≤ dst_len) :
    ∃ w, w.next = sx.sending_key_counter + 1 ∧
      sy.receive_packet_data C B
          ⟨sx.sending_index, sx.sending_key_counter, (sx.packet_seal C src).ciphertext⟩ dst_len
        = .ok (.ok src, sy.received w, [.opened sy.id sx.sending_key_counter src
          (sx.packet_seal C src).ciphertext]) := by
  have hlen : (sx.packet_seal C src).ciphertext.length = src.length + AEAD_SIZE :=
    hC.seal_length ..
  have hopen : C.chacha_open sy.receiver (nonce_of_counter sx.sending_key_counter) []
      (sx.packet_seal C src).ciphertext = some src := by
    rw [← h.key]
    exact hC.open_seal ..
  obtain ⟨haccept, w, hmark, hnext⟩ := sy.receiving_key_counter.accepts_next B
    (h.counter ▸ h.below)
  rw [← h.counter] at haccept hmark hnext
  refine ⟨w, hnext, ?_⟩
  unfold receive_packet_data receiving_counter_quick_check receiving_counter_mark
  rw [if_neg (by rw [hlen]; omega), if_neg (not_not.mpr h.index), haccept, Outcome.ok_bind]
  dsimp only
  rw [hopen]
  dsimp only
  rw [hmark]
  rfl

/-- After it was opened, the session can feed the next one. -/
theorem Session.Feeds.next {sx sy : Session} (h : sx.Feeds sy) {w : ReceivingKeyCounterValidator}
    (hnext : w.next = sx.sending_key_counter + 1)
    (hbits : sx.sending_key_counter + 1 < 2 ^ B.usize_bits)
    (hbelow : sx.sending_key_counter + 1 < 2 ^ 64 - N_BITS) :
    (sx.sent B).Feeds (sy.received w) := by
  have hsent : (sx.sent B).sending_key_counter = sx.sending_key_counter + 1 :=
    Nat.mod_eq_of_lt hbits
  exact ⟨h.key, h.index, hsent.trans hnext.symm, hsent ▸ hbelow⟩

namespace Tunn

variable {t : Tunn C}

/-- What a tunnel returns for a decrypted packet does not depend on its state. -/
theorem validate_result (t t' : Tunn C) (packet : Bytes) :
    (t.validate_decapsulated_packet packet).1 = (t'.validate_decapsulated_packet packet).1 := by
  unfold validate_decapsulated_packet
  split
  · rfl
  split
  · rfl
  split
  · rfl
  · split <;> rfl

/-- Changing to a session that is not older than the current one. -/
theorem set_current_session_eq {i : Nat}
    (h : t.timers.session_timers (slot t.current) ≤ t.timers.session_timers (slot i)) :
    t.set_current_session i = { t with current := i } := by
  unfold set_current_session
  split
  · rename_i heq
    rw [← heq]
  · rw [if_pos (Or.inr h)]

/-- **A packet sealed on a session that feeds one of this tunnel is opened.** -/
theorem decapsulate_fed (hC : C.Correct) {sx sy : Session} (h : sx.Feeds sy)
    (hsession : t.sessions (slot sy.local_index) = some sy) {src : Bytes} {dst_len : Nat}
    (hdst : src.length + AEAD_SIZE ≤ dst_len) (addr : Option IpAddr) (env : Env) :
    ∃ w t', w.next = sx.sending_key_counter + 1 ∧
      t.decapsulate B addr (sx.datagram C src) dst_len env
        = .ok ((t.validate_decapsulated_packet src).1, t',
          [.opened sy.id sx.sending_key_counter src (sx.packet_seal C src).ciphertext]) ∧
      t'.sessions (slot sy.local_index) = some (sy.received w) ∧
      t'.current = ((t.store_session sy.local_index (sy.received w)).set_current_session
        sy.local_index).current := by
  obtain ⟨w, hnext, hreceive⟩ := h.receive (B := B) hC hdst
  generalize ht₀ : (t.store_session sy.local_index (sy.received w)).set_current_session
    sy.local_index = t₀
  generalize ht₁ : t₀.timer_tick .TimeLastPacketReceived = t₁
  have hview : (t₁.validate_decapsulated_packet src).2.view = t₀.view := by
    rw [view_validate_decapsulated_packet, ← ht₁, view_timer_tick]
  refine ⟨w, (t₁.validate_decapsulated_packet src).2, hnext, ?_, ?_, ?_⟩
  · have hlen : 16 ≤ (sx.packet_seal C src).ciphertext.length := by
      have : (sx.packet_seal C src).ciphertext.length = src.length + 16 := hC.seal_length ..
      omega
    have hbelow := h.below
    have hidx : sx.sending_index.toNat = sy.local_index := congrArg UInt32.toNat h.index
    rw [Session.datagram, decapsulate_data (by omega) hlen, validate_result t t₁]
    unfold handle_data
    dsimp only
    rw [hidx, hsession]
    dsimp only
    rw [hreceive, ← ht₁, ← ht₀]
    rfl
  · obtain ⟨c, _, hview₀⟩ := view_set_current_session
      (t.store_session sy.local_index (sy.received w)) sy.local_index
    rw [ht₀] at hview₀
    exact (congrFun (congrArg View.sessions (hview.trans hview₀)) _).trans (Function.update_self ..)
  · rw [ht₀]
    exact congrArg View.current hview

end Tunn

/-! ## Section 4: Initiations of a tunnel -/

namespace Tunn

variable {t t' : Tunn C} {dst_len : Nat} {env : Env} {r : TunnResult} {evs : List Event}
  {m : Bytes}

/-- The tunnel has just formed the initiation `m`. -/
def Formed (B : Build) (t : Tunn C) (env : Env) (m : Bytes) : Prop :=
  ∃ (h : Handshake C) (dst_len : Nat) (evs : List Event),
    h.format_initiation B.variant dst_len env = (.ok m, t.handshake, evs)

theorem starts_formed {force : Bool}
    (h : t.Starts B dst_len force env (.WriteToNetwork m) t' evs) : t'.Formed B env m := by
  cases h with
  | sent m h' evs _ hcall =>
    refine ⟨t.handshake, dst_len, evs, ?_⟩
    rw [hcall, initiated_handshake]

theorem encapsulates_formed {src : Bytes} (hinit : Initiates evs)
    (h : t.Encapsulates B src dst_len env (.WriteToNetwork m) t' evs) : t'.Formed B env m := by
  cases h with
  | sealed session packet _ =>
    obtain ⟨e, s, hmem⟩ := hinit
    cases List.mem_singleton.mp hmem
  | queued _ hstart => exact starts_formed hstart

/-- Only own initiations are initiations: not what a received packet is answered with. -/
theorem handles_not_initiates {packet : Packet} (h : t.Handles B dst_len env packet r t' evs) :
    ¬ Initiates evs := by
  cases h with
  | init v p ek _ hreceives _ => cases hreceives <;> simp [Initiates]
  | response v p ct _ hreceives hres =>
    cases hreceives with
    | rejected e =>
      cases hres
      simp [Initiates]
    | accepted s is_previous rk sk session _ _ _ _ =>
      obtain ⟨⟨keepalive, session', sealed⟩, hfmt, hres⟩ := Outcome.bind_eq_ok.mp hres
      obtain ⟨_, rfl⟩ := Session.format_packet_data_ok hfmt
      cases hres
      simp [Initiates]
  | cookie p hres =>
    unfold handle_cookie_reply at hres
    rcases hreply : t.handshake.receive_cookie_reply p with ⟨_ | _, h'⟩
    all_goals
      rw [hreply] at hres
      cases hres
      simp [Initiates]
  | data p hreceives => cases hreceives <;> simp [Initiates]

theorem decapsulates_formed {addr : Option IpAddr} {datagram : Bytes} (hinit : Initiates evs)
    (h : t.Decapsulates B addr datagram dst_len env (.WriteToNetwork m) t' evs) :
    t'.Formed B env m := by
  cases h with
  | flush _ hflush =>
    cases hflush with
    | passed packet rest _ _ henc => exact encapsulates_formed hinit henc
  | verified packet limiter _ _ hhandles => exact absurd hinit (handles_not_initiates hhandles)
  | dropped limiter _ _ _ _ => simp [Initiates] at hinit

theorem updates_formed (hinit : Initiates evs)
    (h : t.Updates B dst_len env (.WriteToNetwork m) t' evs) : t'.Formed B env m := by
  cases h with
  | ticks t₁ cookies _ _ hticks =>
    cases hticks with
    | retransmits s _ _ _ hstart => exact starts_formed hstart
    | rekeys want _ _ hstart => exact starts_formed hstart
    | keepalive want want' t₂ _ _ _ henc =>
      rcases henc with henc | ⟨hr, _⟩
      · exact encapsulates_formed hinit henc
      · cases hr

/-- **Whatever operation sends an initiation, the tunnel has just formed it.** -/
theorem step_formed {op : Op} (hinit : Initiates evs)
    (hstep : t.step B op env = .ok (.WriteToNetwork m, t', evs)) : t'.Formed B env m := by
  cases op with
  | encapsulate src dst_len => exact encapsulates_formed hinit (encapsulate_cases hstep)
  | decapsulate addr datagram dst_len =>
    exact decapsulates_formed hinit (decapsulate_cases hstep)
  | handle_verified_packet packet dst_len =>
    exact absurd hinit (handles_not_initiates (handle_verified_packet_cases hstep))
  | update_timers dst_len => exact updates_formed hinit (update_timers_cases hstep)
  | format_handshake_initiation dst_len force =>
    injection hstep with hstep
    exact starts_formed (format_handshake_initiation_cases hstep)
  | set_static_private priv pub lim =>
    obtain ⟨t₁, _, hstep⟩ := Outcome.bind_eq_ok.mp hstep
    cases hstep
  | shared c n l => cases hstep

end Tunn

/-! ## Section 5: The handshake of two tunnels -/

namespace Tunn

variable {dst_len : Nat} (addr : Option IpAddr) (env : Env)

/-- mac1 of a message to a tunnel is what its limiter computes. -/
theorem Ready.mac1 {t : Tunn C} {now : Nat} (h : t.Ready now)
    (hpeer : p.peer_static_public = t.handshake.params.static_public) (msg : Bytes) :
    b2s_keyed_mac_16 C p.sending_mac1_key msg
      = b2s_keyed_mac_16 C t.rate_limiter.mac1_key msg := by
  rw [p.sending_mac1_key_eq, h.mac1_key, hpeer]
  rfl

/-- **The responder** answers an initiation it can consume, and the new
    session is the newest of its ring. -/
theorem decapsulate_answers (hC : C.Sized) {b : Tunn C} {now : Nat} (hready : b.Ready now)
    (hload : b.rate_limiter.count < b.rate_limiter.limit) (hv : v = .pq → B.pq = true)
    (hpeer : p.peer_static_public = b.handshake.params.static_public) {packet : HandshakeInit}
    {ek : Option Bytes} (hek : v.Carries MLKEM768_PK_SIZE ek) {mac2 : Bytes}
    (hmac2 : mac2.length = 16) {c : Consumed}
    (hc : (consume C v b.handshake.params b.handshake.last_handshake_timestamp packet ek).run
      = .ok (.ok c)) {kem : Option (Bytes × Bytes)}
    (hkem : (v.encapsulate C ek env.mlkem_seed).run = .ok (.ok kem))
    (hdst : v.resp_size ≤ dst_len) {r : Response}
    (hr : r = respond C b.handshake.params c.hash c.chaining_key packet.unencrypted_ephemeral
      env.ephemeral kem) {session : Session}
    (hsession : session = Session.new (inc_index b.handshake.next_index) packet.sender_idx
      r.receiving_key r.sending_key) :
    ∃ mac2' msg b₁, mac2'.length = 16 ∧
      msg = respMessage v (HandshakeResponse.sent hC b.handshake.params
        (inc_index b.handshake.next_index) packet.sender_idx c.hash c.chaining_key
        packet.unencrypted_ephemeral env.ephemeral kem) (kem.map Prod.fst) ∧
      b.decapsulate B addr (initMessage v packet ek ++
          b2s_keyed_mac_16 C p.sending_mac1_key (initMessage v packet ek) ++ mac2) dst_len env
        = .ok (.WriteToNetwork
          (msg ++ b2s_keyed_mac_16 C b.handshake.params.sending_mac1_key msg ++ mac2'), b₁,
          [.generated env.ephemeral, .handshake .encrypted_nothing env.ephemeral r.encrypted_nothing,
            .established false session.id env.ephemeral]) ∧
      b₁.view = { b.view.consumed c .None with
        next_index := inc_index b.handshake.next_index }.store session ∧
      ∀ j, b₁.timers.session_timers j ≤ b₁.timers.session_timers (slot session.local_index) := by
  obtain ⟨mac2', msg, cookies, hmac2', hmsg, hcall⟩ :=
    Handshake.receive_initialization_ok hC hc hkem hdst hr hsession
  generalize [Event.generated env.ephemeral, .handshake .encrypted_nothing env.ephemeral
    r.encrypted_nothing, .established false session.id env.ephemeral] = evs at hcall ⊢
  obtain ⟨h', hh'⟩ : ∃ h' : Handshake C, h' = { b.handshake with
    last_handshake_timestamp := c.timestamp
    previous := b.handshake.state
    state := .None
    next_index := inc_index b.handshake.next_index
    cookies := cookies } := ⟨_, rfl⟩
  rw [← hh'] at hcall
  have hon := (hready.on_time.tick .TimeLastPacketReceived).tick .TimeLastPacketSent
  refine ⟨mac2', msg, (b.counted.handle_init (.ok (msg, session), h', evs)).2.1, hmac2', hmsg,
    ?_, by rw [hh']; rfl, hon.established_newest false session.local_index⟩
  have hmac1 : (b2s_keyed_mac_16 C p.sending_mac1_key (initMessage v packet ek)).length = 16 :=
    hC.mac_length _ _
  rw [decapsulate_init hv hek hmac1 hmac2 (hready.mac1 hpeer _) hload, hcall]
  rfl

/-- A new session of the initiator becomes the current one. -/
theorem handle_response_ok {t : Tunn C} {now : Nat} (hon : t.timers.OnTime now)
    (session : Session) (h' : Handshake C) (evs : List Event) (hdst : DATA_OVERHEAD_SZ ≤ dst_len) :
    ∃ t', t.handle_response B (.ok session, h', evs) dst_len
        = .ok (.WriteToNetwork (session.datagram C []), t',
          evs ++ [.data session.id session.sending_key_counter (session.packet_seal C [])]) ∧
      t'.packet_queue = t.packet_queue ∧
      t'.view = { ({ t with handshake := h' }.view.store (session.sent B)) with
        current := session.local_index } := by
  have hfmt := session.format_packet_data_eq (C := C) (B := B) []
    (show ([] : Bytes).length + DATA_OVERHEAD_SZ ≤ dst_len by simpa using hdst)
  -- The session was stored under its index modulo the size of the ring.
  have hnewest := (hon.tick .TimeLastPacketReceived).established_newest true
    (session.local_index % N_SESSIONS)
  rw [slot_mod] at hnewest
  unfold handle_response
  dsimp only
  rw [hfmt, Outcome.ok_bind]
  dsimp only
  refine ⟨_, rfl, ?_, ?_⟩
  · refine (congrArg Tunn.packet_queue (set_current_session_eq (hnewest _))).trans ?_
    rfl
  · refine (congrArg Tunn.view (set_current_session_eq (hnewest _))).trans ?_
    simp only [Tunn.view, View.store, store_session, slot_mod, timer_tick_session_established,
      timer_tick]
    rfl

/-- `packet`, with the ML-KEM ciphertext in `kem`, answers the initiation `s`
    in the state of `a`; `rk` and `sk` are the session keys of `a`. -/
structure Answers (B : Build) (a : Tunn C) (s : HandshakeInitSentState)
    (packet : HandshakeResponse) (kem : Option (Bytes × Bytes)) (rk sk : Bytes) : Prop where
  state : a.handshake.state = .InitSent s
  index : packet.receiver_idx = s.local_index
  no_key : B.variant = .classical → s.mlkem_decapsulation_key = none
  carries : B.variant.Carries MLKEM768_CT_SIZE (kem.map Prod.fst)
  decapsulated : (B.variant.decapsulate C s.mlkem_decapsulation_key (kem.map Prod.fst)).run
    = .ok (.ok kem)
  keys : (complete C a.handshake.params s packet kem).run = .ok (.ok (rk, sk))

/-- The datagram of a response, sent under the parameters `q`. -/
def answerBytes (B : Build) (q : NoiseParams C) (packet : HandshakeResponse)
    (kem : Option (Bytes × Bytes)) (mac2 : Bytes) : Bytes :=
  respMessage B.variant packet (kem.map Prod.fst) ++
    b2s_keyed_mac_16 C q.sending_mac1_key (respMessage B.variant packet (kem.map Prod.fst)) ++ mac2

/-- **The initiator** accepts an answer and makes the new session its current one. -/
theorem decapsulate_finishes (hC : C.Correct) {a : Tunn C} {now : Nat} (hready : a.Ready now)
    (hload : a.rate_limiter.count < a.rate_limiter.limit)
    (hpeer : q.peer_static_public = a.handshake.params.static_public)
    {s : HandshakeInitSentState} {packet : HandshakeResponse} {kem : Option (Bytes × Bytes)}
    {rk sk : Bytes} (h : Answers B a s packet kem rk sk) {mac2 : Bytes} (hmac2 : mac2.length = 16)
    (hdst : DATA_OVERHEAD_SZ ≤ dst_len) {session : Session}
    (hsession : session = Session.new s.local_index packet.sender_idx rk sk) :
    ∃ a₂, a.decapsulate B addr (answerBytes B q packet kem mac2) dst_len env
        = .ok (.WriteToNetwork (session.datagram C []), a₂,
          [.established true session.id s.ephemeral_private,
            .data session.id session.sending_key_counter (session.packet_seal C [])]) ∧
      a₂.packet_queue = a.packet_queue ∧
      a₂.view = { (a.view.answered false).store (session.sent B) with
        current := session.local_index } := by
  have hcall : a.handshake.receive_response B.variant packet (kem.map Prod.fst) env = _ :=
    Handshake.receive_response_ok (Handshake.response_slot_state h.state h.index) h.no_key
      h.decapsulated h.keys hsession
  obtain ⟨a₂, hresponse, hqueue, hview⟩ := handle_response_ok (B := B) (t := a.counted)
    hready.on_time session (a.handshake.answered false (env.clock .rtt - s.time_sent))
    [.established true session.id s.ephemeral_private] hdst
  have hmac1 : (b2s_keyed_mac_16 C q.sending_mac1_key
      (respMessage B.variant packet (kem.map Prod.fst))).length = 16 := hC.mac_length _ _
  refine ⟨a₂, ?_, hqueue, hview⟩
  rw [answerBytes, decapsulate_resp Build.variant_pq h.carries hmac1 hmac2 (hready.mac1 hpeer _)
    hload, hcall, Outcome.ok_bind]
  exact hresponse

/-- A packet passed to `encapsulate` of `x` is opened by `y` to the same bytes. -/
def Delivers (B : Build) (x y : Tunn C) : Prop :=
  ∀ (src : Bytes) (n n' : Nat) (env env' : Env) (addr : Option IpAddr),
    src.length + DATA_OVERHEAD_SZ ≤ n → src.length + AEAD_SIZE ≤ n' →
    ∃ d x' evs y' evs' id counter ct,
      x.encapsulate B src n env = .ok (.WriteToNetwork d, x', evs) ∧
      y.decapsulate B addr d n' env'
        = .ok ((y.validate_decapsulated_packet src).1, y', evs') ∧
      .opened id counter src ct ∈ evs'

/-- A packet is sealed on the current session. -/
theorem encapsulate_sends {x : Tunn C} {sx : Session} (hx : x.sessions (slot x.current) = some sx)
    {src : Bytes} {n : Nat} (hn : src.length + DATA_OVERHEAD_SZ ≤ n) (env : Env) :
    ∃ x', x.encapsulate B src n env = .ok (.WriteToNetwork (sx.datagram C src), x',
        [.data sx.id sx.sending_key_counter (sx.packet_seal C src)]) ∧
      x'.packet_queue = x.packet_queue ∧ x'.sessions (slot x'.current) = some (sx.sent B) := by
  have hfmt := sx.format_packet_data_eq (C := C) (B := B) src hn
  unfold encapsulate
  rw [hx]
  dsimp only
  rw [hfmt, Outcome.ok_bind]
  refine ⟨_, rfl, ?_, ?_⟩
  · split <;> rfl
  · have hstored := Function.update_self (slot x.current) (some (sx.sent B)) x.sessions
    split
    · exact hstored
    · exact hstored

/-- A flush takes the first packet of the queue. -/
theorem flush_sends {x : Tunn C} {sx : Session} (hx : x.sessions (slot x.current) = some sx)
    {src : Bytes} {rest : List Bytes} (hqueue : x.packet_queue = src :: rest) {n : Nat}
    (hn : src.length + DATA_OVERHEAD_SZ ≤ n) (addr : Option IpAddr) (env : Env) :
    ∃ x', x.decapsulate B addr [] n env = .ok (.WriteToNetwork (sx.datagram C src), x',
        [.data sx.id sx.sending_key_counter (sx.packet_seal C src)]) ∧
      x'.packet_queue = rest ∧ x'.sessions (slot x'.current) = some (sx.sent B) := by
  obtain ⟨x', henc, hqueue', hx'⟩ :=
    encapsulate_sends (B := B) (x := { x with packet_queue := rest }) hx hn env
  refine ⟨x', ?_, hqueue', hx'⟩
  unfold decapsulate send_queued_packet
  rw [if_pos rfl, hqueue]
  dsimp only
  rw [henc]
  rfl

/-- A session of the ring that the current session of `x` feeds. -/
structure Linked (x y : Tunn C) (sx sy : Session) : Prop where
  current : x.sessions (slot x.current) = some sx
  stored : y.sessions (slot sy.local_index) = some sy
  feeds : sx.Feeds sy

theorem Linked.delivers (hC : C.Correct) {x y : Tunn C} {sx sy : Session} (h : Linked x y sx sy) :
    Delivers B x y := by
  intro src n n' env env' addr hn hn'
  obtain ⟨w, y', _, hdec, _⟩ := decapsulate_fed (B := B) hC h.feeds h.stored hn' addr env'
  obtain ⟨x', henc, _⟩ := encapsulate_sends (B := B) h.current hn env
  exact ⟨_, x', _, _, _, sy.id, _, _, henc, hdec, List.mem_singleton.mpr rfl⟩

/-- **What one tunnel flushes the other opens**, and the next packet can follow. -/
theorem Linked.flush (hC : C.Correct) {x y : Tunn C} {sx sy : Session} (h : Linked x y sx sy)
    {src : Bytes} {rest : List Bytes} (hqueue : x.packet_queue = src :: rest) {n n' : Nat}
    (hn : src.length + DATA_OVERHEAD_SZ ≤ n) (hn' : src.length + AEAD_SIZE ≤ n')
    (hbits : sx.sending_key_counter + 1 < 2 ^ B.usize_bits)
    (hbelow : sx.sending_key_counter + 1 < 2 ^ 64 - N_BITS) (addr addr' : Option IpAddr)
    (env env' : Env) :
    ∃ x' y' w,
      x.decapsulate B addr [] n env = .ok (.WriteToNetwork (sx.datagram C src), x',
        [.data sx.id sx.sending_key_counter (sx.packet_seal C src)]) ∧
      y.decapsulate B addr' (sx.datagram C src) n' env'
        = .ok ((y.validate_decapsulated_packet src).1, y',
          [.opened sy.id sx.sending_key_counter src (sx.packet_seal C src).ciphertext]) ∧
      x'.packet_queue = rest ∧ Linked x' y' (sx.sent B) (sy.received w) := by
  obtain ⟨x', hflush, hqueue', hcurrent⟩ := flush_sends (B := B) h.current hqueue hn addr env
  obtain ⟨w, y', hnext, hdec, hstored, _⟩ :=
    decapsulate_fed (B := B) hC h.feeds h.stored hn' addr' env'
  exact ⟨x', y', w, hflush, hdec, hqueue', hcurrent, hstored, h.feeds.next hnext hbits hbelow⟩

/-- Reached by a run with a clock that does not go back, in which every
    limiter handed to the tunnel belongs to its static key. -/
def Reached (B : Build) (tr : List Label) (t : Tunn C) : Prop :=
  ∃ (priv peer : Bytes) (hpeer : peer.length = KEY_LEN) (psk : Option Bytes)
    (keepalive : Option UInt16) (index : UInt32) (limiter : Option RateLimiter)
    (unix_time start : Nat) (env : Env),
    (∀ l, limiter = some l → l.mac1_key = mac1_key_of C (C.x25519_public priv)) ∧
    Run (tunnel C B)
      (Tunn.new C priv peer hpeer psk keepalive index limiter unix_time start env) tr t ∧
    Clocked start tr ∧ LimitersMatch C tr

/-- A new tunnel with a limiter of its own. -/
theorem reached_new {priv peer : Bytes} {hpeer : peer.length = KEY_LEN} {psk : Option Bytes}
    {keepalive : Option UInt16} {index : UInt32} {unix_time start : Nat} {env : Env} :
    (Tunn.new C priv peer hpeer psk keepalive index none unix_time start env).Reached B [] :=
  ⟨priv, peer, hpeer, psk, keepalive, index, none, unix_time, start, env,
    (fun l hl => by cases hl), .nil, .nil, .nil⟩

theorem Reached.ready {tr : List Label} {t : Tunn C} (h : t.Reached B tr) :
    ∃ now, t.Ready now := by
  obtain ⟨_, _, _, _, _, _, _, _, _, _, hlimiter, hrun, hclock, hlims⟩ := h
  obtain ⟨now, hready, _⟩ := run_ready hlimiter hrun hclock hlims
  exact ⟨now, hready⟩

theorem Reached.last {tr : List Label} {l : Label} {t : Tunn C} (h : t.Reached B (tr ++ [l])) :
    ∃ t₀ : Tunn C, t₀.step B l.op l.env = .ok (l.result, t, l.events) := by
  obtain ⟨_, _, _, _, _, _, _, _, _, _, _, hrun, _⟩ := h
  obtain ⟨t₀, _, hstep⟩ := hrun.last
  exact ⟨t₀, hstep⟩

/-- Every timestamp can be parsed. -/
theorem parse_stamp (s : TimeStamper) (now : Nat) : ∃ ts, Tai64N.parse (s.stamp now) = .ok ts :=
  ⟨_, if_neg (by rw [TimeStamper.length_stamp]; decide)⟩

/-- **The responder** answers an initiation that the initiator has just formed. -/
theorem answers_initiation (hC : C.Correct) {a b : Tunn C} {now : Nat} {env₀ : Env} {m : Bytes}
    (hformed : a.Formed B env₀ m) (hready : b.Ready now)
    (hpair : Paired a.handshake.params b.handshake.params)
    (hload : b.rate_limiter.count < b.rate_limiter.limit)
    (hafter : ∀ ts, Tai64N.parse (a.handshake.stamper.stamp (env₀.clock .stamp)) = .ok ts →
      ts.after b.handshake.last_handshake_timestamp = true)
    (hdst : B.variant.resp_size ≤ dst_len) :
    ∃ s packet kem rk sk mac2 b₁ x, Answers B a s packet kem rk sk ∧ mac2.length = 16 ∧
      s.ephemeral_private = env₀.ephemeral ∧
      b.decapsulate B addr m dst_len env
        = .ok (.WriteToNetwork (answerBytes B b.handshake.params packet kem mac2), b₁,
          [.generated env.ephemeral, .handshake .encrypted_nothing env.ephemeral x,
            .established false (Session.new packet.sender_idx s.local_index sk rk).id
              env.ephemeral]) ∧
      b₁.sessions (slot packet.sender_idx.toNat)
        = some (Session.new packet.sender_idx s.local_index sk rk) ∧
      ∀ j, b₁.timers.session_timers j ≤ b₁.timers.session_timers
        (slot packet.sender_idx.toNat) := by
  obtain ⟨h, _, _, hcall⟩ := hformed
  obtain ⟨mac2, msg, hmac2, hmsg, rfl, hparams, hstamper, hstate⟩ :=
    Handshake.format_initiation_ok hC.toSized hcall
  rw [← hparams] at hmsg hstate
  rw [← hstamper] at hmsg hstate
  generalize hpacket : HandshakeInit.sent hC.toSized B.variant a.handshake.params
    (inc_index h.next_index)
    env₀.ephemeral (a.handshake.stamper.stamp (env₀.clock .stamp)) (TimeStamper.length_stamp ..)
    ((B.variant.keygen C env₀.mlkem_seed).map Prod.snd) = packet at hmsg
  generalize hslot : initSent C B.variant a.handshake.params (inc_index h.next_index)
    env₀.ephemeral env₀.mlkem_seed (a.handshake.stamper.stamp (env₀.clock .stamp))
    (env₀.clock .sent) = s at hstate
  obtain ⟨ts, hts⟩ := parse_stamp a.handshake.stamper (env₀.clock .stamp)
  obtain ⟨kem, hencaps, hdecaps, hct⟩ := kem_agrees
    (v := B.variant) hC.toKeyAgreement env₀.mlkem_seed
    env.mlkem_seed
  have hc : (consume C B.variant b.handshake.params b.handshake.last_handshake_timestamp packet
      ((B.variant.keygen C env₀.mlkem_seed).map Prod.snd)).run
        = .ok (.ok { timestamp := ts, chaining_key := s.chaining_key, hash := s.hash }) := by
    subst hpacket hslot
    exact consume_initiate hC.toKeyAgreement hpair rfl rfl rfl (hC.opens ..) (hC.opens ..)
      (TimeStamper.length_stamp ..) hts (hafter ts hts)
  have hephemeral : packet.unencrypted_ephemeral = C.x25519_public s.ephemeral_private := by
    subst hpacket hslot
    rfl
  have hindex : packet.sender_idx = s.local_index := by
    subst hpacket hslot
    rfl
  generalize hr : respond C b.handshake.params s.hash s.chaining_key
    (C.x25519_public s.ephemeral_private) env.ephemeral kem = r
  obtain ⟨mac2', msg', b₁, hmac2', hmsg', hdec, hview, hnewest⟩ :=
    decapsulate_answers (p := a.handshake.params) addr env hC.toSized hready hload Build.variant_pq
      hpair.peer (keygen_carries hC.toSized env₀.mlkem_seed) hmac2 hc hencaps hdst
      (r := r) (by rw [← hr, hephemeral]) rfl
  -- The answer, by its fields.
  generalize hpacket' : HandshakeResponse.sent hC.toSized b.handshake.params
    (inc_index b.handshake.next_index) packet.sender_idx s.hash s.chaining_key
    packet.unencrypted_ephemeral env.ephemeral kem = packet' at hmsg'
  have hsender : packet'.sender_idx = inc_index b.handshake.next_index := by
    rw [← hpacket']
    rfl
  have hreceiver : packet'.receiver_idx = s.local_index := by
    rw [← hpacket', ← hindex]
    rfl
  have hkeys : (complete C a.handshake.params s packet' kem).run
      = .ok (.ok (r.sending_key, r.receiving_key)) := by
    refine complete_respond hC.toKeyAgreement hpair hr.symm ?_ ?_ ?_
    · rw [← hpacket']
      rfl
    · rw [← hpacket', ← hr, ← hephemeral]
      rfl
    · rw [← hr, respond_nothing]
      exact hC.opens ..
  rw [hindex, ← hsender] at hview hdec hnewest
  rw [hmsg', ← hmsg, hparams] at hdec
  refine ⟨s, packet', kem, r.sending_key, r.receiving_key, mac2', b₁, _,
    ⟨hstate, hreceiver, ?_, hct, ?_, hkeys⟩, hmac2', ?_, hdec, ?_, hnewest⟩
  · intro hclassical
    rw [← hslot, hclassical]
    rfl
  · rw [← hslot]
    exact hdecaps
  · rw [← hslot]
    rfl
  · refine (congrFun (congrArg View.sessions hview) _).trans ?_
    exact Function.update_self ..

/-- The two new sessions of a handshake feed each other. -/
theorem fresh_feeds (i j : UInt32) (rk sk : Bytes) :
    (Session.new i j rk sk).Feeds (Session.new j i sk rk) :=
  ⟨rfl, rfl, rfl, show 0 < 2 ^ 64 - N_BITS by decide⟩

/-- **The keepalive** is accepted, and the newest session becomes the current one. -/
theorem decapsulate_keepalive (hC : C.Correct) {b : Tunn C} {sx sy : Session} (h : sx.Feeds sy)
    (hstored : b.sessions (slot sy.local_index) = some sy)
    (hnewest : ∀ j, b.timers.session_timers j ≤ b.timers.session_timers (slot sy.local_index))
    (hdst : AEAD_SIZE ≤ dst_len) :
    ∃ b' w, w.next = sx.sending_key_counter + 1 ∧
      b.decapsulate B addr (sx.datagram C []) dst_len env = .ok (.Done, b',
        [.opened sy.id sx.sending_key_counter [] (sx.packet_seal C []).ciphertext]) ∧
      b'.current = sy.local_index ∧ b'.sessions (slot sy.local_index) = some (sy.received w) := by
  obtain ⟨w, b', hnext, hdec, hstored', hcurrent⟩ := decapsulate_fed (B := B) hC h hstored
    (show ([] : Bytes).length + AEAD_SIZE ≤ dst_len by simpa using hdst) addr env
  have hset : (b.store_session sy.local_index (sy.received w)).set_current_session sy.local_index
      = { b.store_session sy.local_index (sy.received w) with current := sy.local_index } :=
    set_current_session_eq (hnewest _)
  rw [hset] at hcurrent
  exact ⟨b', w, hnext, hdec, hcurrent, hstored'⟩

/-- **A handshake links two tunnels.**  Tunnel `a` has just formed the initiation `m`; `b`
    answers it, `a` accepts the answer and `b` accepts the keepalive. -/
theorem handshake_links (hC : C.Correct) {a b : Tunn C} {now now' : Nat} {env₀ : Env} {m : Bytes}
    (hformed : a.Formed B env₀ m) (hra : a.Ready now) (hrb : b.Ready now')
    (hpair : Paired a.handshake.params b.handshake.params)
    (hload : a.rate_limiter.count < a.rate_limiter.limit)
    (hload' : b.rate_limiter.count < b.rate_limiter.limit)
    (hafter : ∀ ts, Tai64N.parse (a.handshake.stamper.stamp (env₀.clock .stamp)) = .ok ts →
      ts.after b.handshake.last_handshake_timestamp = true)
    {n₁ n₂ n₃ : Nat} (hn₁ : B.variant.resp_size ≤ n₁) (hn₂ : DATA_OVERHEAD_SZ ≤ n₂)
    (hn₃ : AEAD_SIZE ≤ n₃) (addr₁ addr₂ addr₃ : Option IpAddr) (env₁ env₂ env₃ : Env) :
    ∃ (m₁ : Bytes) (b₁ : Tunn C) (x : Seal) (a₂ b₃ : Tunn C) (sa sb : Session)
      (w : ReceivingKeyCounterValidator), sa.sending_key_counter = 0 ∧
      b.decapsulate B addr₁ m n₁ env₁ = .ok (.WriteToNetwork m₁, b₁,
        [.generated env₁.ephemeral, .handshake .encrypted_nothing env₁.ephemeral x,
          .established false sb.id env₁.ephemeral]) ∧
      a.decapsulate B addr₂ m₁ n₂ env₂ = .ok (.WriteToNetwork (sa.datagram C []), a₂,
        [.established true sa.id env₀.ephemeral,
          .data sa.id sa.sending_key_counter (sa.packet_seal C [])]) ∧
      b₁.decapsulate B addr₃ (sa.datagram C []) n₃ env₃ = .ok (.Done, b₃,
        [.opened sb.id sa.sending_key_counter [] (sa.packet_seal C []).ciphertext]) ∧
      a₂.packet_queue = a.packet_queue ∧
      a₂.current = sa.local_index ∧ Linked a₂ b₃ (sa.sent B) (sb.received w) ∧
      b₃.current = sb.local_index ∧ Linked b₃ a₂ (sb.received w) (sa.sent B) := by
  obtain ⟨s, packet, kem, rk, sk, mac2, b₁, x, hans, hmac2, hephemeral, hdec₁, hstored₁,
    hnewest⟩ := answers_initiation addr₁ env₁ hC hformed hrb hpair hload' hafter hn₁
  generalize hsa : Session.new s.local_index packet.sender_idx rk sk = sa
  generalize hsb : Session.new packet.sender_idx s.local_index sk rk = sb at hdec₁ hstored₁
  have hforth : sa.Feeds sb := hsa ▸ hsb ▸ fresh_feeds ..
  have hback : sb.Feeds sa := hsa ▸ hsb ▸ fresh_feeds ..
  have hindex : sb.local_index = packet.sender_idx.toNat := by
    rw [← hsb]
    rfl
  have hzero : sa.sending_key_counter = 0 := by
    rw [← hsa]
    rfl
  obtain ⟨a₂, hdec₂, hqueue, hview₂⟩ := decapsulate_finishes addr₂ env₂ hC hra hload
    hpair.peer_symm hans hmac2 hn₂ hsa.symm
  rw [hephemeral] at hdec₂
  have hcurrent₂ : a₂.current = sa.local_index := congrArg View.current hview₂
  have hstored₂ : a₂.sessions (slot sa.local_index) = some (sa.sent B) :=
    (congrFun (congrArg View.sessions hview₂) _).trans (Function.update_self ..)
  rw [← hindex] at hstored₁ hnewest
  obtain ⟨b₃, w, hnext, hdec₃, hcurrent₃, hstored₃⟩ := decapsulate_keepalive addr₃ env₃ hC hforth
    hstored₁ hnewest hn₃
  have hbits : sa.sending_key_counter + 1 < 2 ^ B.usize_bits := by
    have := B.le_usize_bits
    rw [hzero]
    exact Nat.one_lt_two_pow (by omega)
  have hforth' : (sa.sent B).Feeds (sb.received w) :=
    hforth.next hnext hbits (hzero ▸ by decide)
  have hback' : (sb.received w).Feeds (sa.sent B) :=
    ⟨hback.key, hback.index, hback.counter, hback.below⟩
  exact ⟨_, b₁, x, a₂, b₃, sa, sb, w, hzero, hdec₁, hdec₂, hdec₃, hqueue, hcurrent₂,
    ⟨hcurrent₂ ▸ hstored₂, hstored₃, hforth'⟩, hcurrent₃, ⟨hcurrent₃ ▸ hstored₃, hstored₂, hback'⟩⟩

/-- **A handshake completes from any pair of reachable states.**  Tunnel `a`
    has just sent the initiation `m`, by whatever operation; `b` answers it,
    `a` accepts the answer and `b` accepts the keepalive. -/
theorem handshake_completes (hC : C.Correct) {a b : Tunn C} {tra trb : List Label} {l : Label}
    {m : Bytes} (ha : a.Reached B (tra ++ [l])) (hm : l.result = .WriteToNetwork m)
    (hinit : Initiates l.events) (hb : b.Reached B trb)
    (hpair : Paired a.handshake.params b.handshake.params)
    (hload : a.rate_limiter.count < a.rate_limiter.limit)
    (hload' : b.rate_limiter.count < b.rate_limiter.limit)
    (hafter : ∀ ts, Tai64N.parse (a.handshake.stamper.stamp (l.env.clock .stamp)) = .ok ts →
      ts.after b.handshake.last_handshake_timestamp = true)
    {n₁ n₂ n₃ : Nat} (hn₁ : B.variant.resp_size ≤ n₁) (hn₂ : DATA_OVERHEAD_SZ ≤ n₂)
    (hn₃ : AEAD_SIZE ≤ n₃) (addr₁ addr₂ addr₃ : Option IpAddr) (env₁ env₂ env₃ : Env) :
    ∃ m₁ b₁ evs₁ m₂ a₂ evs₂ b₃ evs₃ sa sb,
      b.decapsulate B addr₁ m n₁ env₁ = .ok (.WriteToNetwork m₁, b₁, evs₁) ∧
      a.decapsulate B addr₂ m₁ n₂ env₂ = .ok (.WriteToNetwork m₂, a₂, evs₂) ∧
      b₁.decapsulate B addr₃ m₂ n₃ env₃ = .ok (.Done, b₃, evs₃) ∧
      .established true sa.id l.env.ephemeral ∈ evs₂ ∧
      .established false sb.id env₁.ephemeral ∈ evs₁ ∧
      a₂.current = sa.local_index ∧ a₂.sessions (slot a₂.current) = some sa ∧
      b₃.current = sb.local_index ∧ b₃.sessions (slot b₃.current) = some sb ∧
      sa.sender = sb.receiver ∧ sb.sender = sa.receiver ∧
      sa.sending_index = sb.receiving_index ∧ sb.sending_index = sa.receiving_index ∧
      Delivers B a₂ b₃ ∧ Delivers B b₃ a₂ := by
  obtain ⟨_, hra⟩ := ha.ready
  obtain ⟨_, hrb⟩ := hb.ready
  obtain ⟨t₀, hstep⟩ := ha.last
  rw [hm] at hstep
  obtain ⟨m₁, b₁, x, a₂, b₃, sa, sb, w, _, hdec₁, hdec₂, hdec₃, _, hcurrent₂, hab, hcurrent₃,
    hba⟩ := handshake_links hC (step_formed hinit hstep) hra hrb hpair hload hload' hafter hn₁ hn₂
      hn₃ addr₁ addr₂ addr₃ env₁ env₂ env₃
  exact ⟨m₁, b₁, _, _, a₂, _, b₃, _, sa.sent B, sb.received w, hdec₁, hdec₂, hdec₃, by simp,
    by simp, hcurrent₂, hab.current, hcurrent₃, hba.current, hab.feeds.key, hba.feeds.key,
    hab.feeds.index, hba.feeds.index, hab.delivers hC, hba.delivers hC⟩

/-- Two new tunnels of a PQ build. -/
theorem handshake_completes_new :
    let B : Build := ⟨true, 64, false, by decide, by decide⟩
    let env : UInt8 → Env := fun b => ⟨fun _ => 0, [b], [b], [], []⟩
    let a := Tunn.new symbolic [7] (symbolic.x25519_public [9]) (symbolic_correct.public_length _)
      none none 1 none 0 0 (env 0)
    let b := Tunn.new symbolic [9] (symbolic.x25519_public [7]) (symbolic_correct.public_length _)
      none none 2 none 0 0 (env 0)
    let call := a.format_handshake_initiation B 2048 false (env 1)
    ∃ m m₁ b₁ evs₁ m₂ a₂ evs₂ b₃ evs₃,
      call.1 = .WriteToNetwork m ∧
      b.decapsulate B none m 2048 (env 2) = .ok (.WriteToNetwork m₁, b₁, evs₁) ∧
      call.2.1.decapsulate B none m₁ 2048 (env 3) = .ok (.WriteToNetwork m₂, a₂, evs₂) ∧
      b₁.decapsulate B none m₂ 2048 (env 4) = .ok (.Done, b₃, evs₃) ∧
      Delivers B a₂ b₃ ∧ Delivers B b₃ a₂ := by
  intro B env a b call
  let l : Label := ⟨.format_handshake_initiation 2048 false, env 1, call.1, call.2.2⟩
  have ha : call.2.1.Reached B ([] ++ [l]) := by
    refine ⟨[7], _, symbolic_correct.public_length _, none, none, 1, none, 0, 0, env 0,
      (fun l hl => by cases hl), .snoc .nil rfl, ⟨?_, ?_, List.pairwise_singleton _ _⟩, ?_⟩
    · intro _ _ _
      exact Nat.zero_le _
    · intro l' hl'
      obtain rfl := List.mem_singleton.mp hl'
      exact Nat.le_refl _
    · intro l' hl' priv pub lim hop
      obtain rfl := List.mem_singleton.mp hl'
      cases hop
  have hb : b.Reached B [] := reached_new
  obtain ⟨m, hm⟩ : ∃ m, l.result = .WriteToNetwork m := ⟨_, rfl⟩
  have hafter : ∀ ts, Tai64N.parse (call.2.1.handshake.stamper.stamp ((env 1).clock .stamp)) =
      .ok ts →
      ts.after b.handshake.last_handshake_timestamp = true := by
    intro ts hts
    obtain rfl := Except.ok.inj hts
    decide
  obtain ⟨m₁, b₁, evs₁, m₂, a₂, evs₂, b₃, evs₃, _, _, h₁, h₂, h₃, _, _, _, _, _, _, _, _, _, _, hab,
    hba⟩ := handshake_completes symbolic_correct ha hm
      ⟨_, _, List.mem_cons_of_mem _ List.mem_cons_self⟩
      hb ⟨rfl, rfl, rfl⟩ (by decide) (by decide) hafter
      (show B.variant.resp_size ≤ 2048 by decide) (show DATA_OVERHEAD_SZ ≤ 2048 by decide)
      (show AEAD_SIZE ≤ 2048 by decide) none none none (env 2) (env 3) (env 4)
  exact ⟨m, m₁, b₁, evs₁, m₂, a₂, evs₂, b₃, evs₃, hm, h₁, h₂, h₃, hab, hba⟩

end Tunn

end PqBoringtun
