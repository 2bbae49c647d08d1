import PqBoringtun.Noise.Keys
import PqBoringtun.Noise.Symbolic

/-! # Rejected packets

    What a packet that is answered with an error leaves behind.

    * Section 1: a classical initiation, a response, a cookie reply or a data
      packet that is refused leaves the whole tunnel as it was.
    * Section 2: a PQ initiation is validated in two functions, and the
      handshake is committed in between.  The ML-KEM key is decoded after the
      commit, so a peer's initiation with a key that does not decode is
      refused but not forgotten.
-/

namespace PqBoringtun

variable {C : Crypto} {B : Build} {dst_len : Nat} {env : Env} {evs : List Event}

/-! ## Section 1: Classical initiations, responses, cookies and data -/

/-- A refused cookie reply changes nothing. -/
theorem Handshake.receive_cookie_reply_error {h h' : Handshake C} {packet : PacketCookieReply}
    {e : WireGuardError} (hcall : h.receive_cookie_reply packet = (.error e, h')) : h' = h := by
  unfold receive_cookie_reply at hcall
  split at hcall
  · cases hcall
    rfl
  split at hcall
  · cases hcall
    rfl
  dsimp only at hcall
  split at hcall
  · cases hcall
    rfl
  split at hcall
  · cases hcall
    rfl
  · cases hcall

/-- With room for the response, a classical initiation is refused before anything is committed. -/
theorem Handshake.ReceivesInit.classical_error {h h' : Handshake C} {packet : HandshakeInit}
    {ek : Option Bytes} {e : WireGuardError}
    (hreceives : h.ReceivesInit .classical packet ek dst_len env (.error e) h' evs)
    (hdst : HANDSHAKE_RESP_SZ ≤ dst_len) : h' = h := by
  cases hreceives with
  | rejected e hc => rfl
  | stalled c hc hsmall => exact absurd hsmall (Nat.not_lt.mpr hdst)
  | refused c e hc hroom hkem => cases hkem

namespace Tunn

variable {t t' : Tunn C} {e : WireGuardError}

/-- Opening a data packet can only be followed by one error. -/
theorem validate_decapsulated_packet_error {packet : Bytes}
    (h : (t.validate_decapsulated_packet packet).1 = .Err e) : e = .InvalidPacket := by
  unfold validate_decapsulated_packet at h
  split at h
  · cases h
  split at h
  · cases h
    rfl
  split at h
  · cases h
    rfl
  dsimp only at h
  split at h <;> cases h

theorem handle_init_error {h' : Handshake C}
    {res : Except WireGuardError (Bytes × Session)}
    (h : t.handle_init (res, h', evs) = (.Err e, t', evs)) :
    res = .error e ∧ t' = { t with handshake := h' } := by
  rcases res with e' | ⟨packet, session⟩
  · cases h
    exact ⟨rfl, rfl⟩
  · cases h

theorem handle_response_error {h' : Handshake C} {res : Except WireGuardError Session}
    {evs' : List Event} (h : t.handle_response B (res, h', evs) dst_len = .ok (.Err e, t', evs')) :
    res = .error e ∧ t' = { t with handshake := h' } := by
  cases res with
  | error e' =>
    cases h
    exact ⟨rfl, rfl⟩
  | ok session =>
    obtain ⟨⟨keepalive, session', sealed⟩, _, h⟩ := Outcome.bind_eq_ok.mp h
    cases h

/-- **A refused packet leaves the tunnel untouched.**  This holds for every
    packet other than a PQ initiation; for a data packet it is about the
    errors before it was opened. -/
theorem refused_untouched {packet : Packet} (hkind : ∀ p, packet ≠ .PqHandshakeInit p)
    (hdst : HANDSHAKE_INIT_SZ ≤ dst_len)
    (hcall : t.handle_verified_packet B packet dst_len env = .ok (.Err e, t', evs))
    (hdata : e = .InvalidPacket → ∀ id n plaintext c, Event.opened id n plaintext c ∉ evs) :
    t' = t := by
  cases handle_verified_packet_cases hcall with
  | init v p ek hpacket hreceives hres =>
    have hv : v = .classical := by
      cases packet with
      | HandshakeInit p =>
        cases hpacket
        rfl
      | PqHandshakeInit p => exact absurd rfl (hkind p)
      | _ => cases hpacket
    subst hv
    obtain ⟨rfl, rfl⟩ := handle_init_error hres
    have hsame := hreceives.classical_error (Nat.le_trans (by decide) hdst)
    rw [hsame]
  | response v p ct hpacket hreceives hres =>
    obtain ⟨rfl, rfl⟩ := handle_response_error hres
    cases hreceives with
    | rejected e => rfl
  | cookie p hres =>
    unfold handle_cookie_reply at hres
    rcases hreply : t.handshake.receive_cookie_reply p with ⟨res, h'⟩
    rw [hreply] at hres
    cases res with
    | error e' =>
      cases hres
      rw [Handshake.receive_cookie_reply_error hreply]
    | ok u => cases hres
  | data p hreceives =>
    -- After the packet was opened, the only error left is the one excluded.
    generalize hr : TunnResult.Err e = r at hreceives
    cases hreceives with
    | rejected e' => rfl
    | accepted session plaintext v t₁ hsession haccepts ht₁ =>
      have he := validate_decapsulated_packet_error hr.symm
      exact absurd (List.mem_singleton_self _) (hdata he _ _ _ _)

/-- An initiation that is not newer than the last one. -/
theorem refused_untouched_old_timestamp :
    ∃ t', symbolicTunn.handle_verified_packet (symbolicBuild true)
      (.HandshakeInit (symbolicInit 0)) 148 (symbolicEnv 1)
        = .ok (.Err .WrongTai64nTimestamp, t', []) ∧ t' = symbolicTunn := by
  obtain ⟨t', hcall⟩ : ∃ t', symbolicTunn.handle_verified_packet (symbolicBuild true)
      (.HandshakeInit (symbolicInit 0)) 148 (symbolicEnv 1)
        = .ok (.Err .WrongTai64nTimestamp, t', []) := ⟨_, rfl⟩
  refine ⟨t', hcall, refused_untouched (fun p => ?_) (by decide) hcall (fun he => ?_)⟩
  · exact Packet.noConfusion
  · cases he

end Tunn

/-! ## Section 2: PQ initiations -/

theorem Tai64N.not_after_self (ts : Tai64N) : ts.after ts = false := by
  simp [Tai64N.after]

/-- The parts of a PQ initiation that are checked before the handshake is committed. -/
def Handshake.Consumes (h : Handshake C) (p : PqHandshakeInit) : Prop :=
  ∃ c, (consume C .pq h.params h.last_handshake_timestamp p.toHandshakeInit
    (some p.mlkem_ephemeral_public)).run = .ok (.ok c)

/-- A packet's ML-KEM key has the right size, so it fails to decode or is encapsulated to. -/
theorem PqHandshakeInit.encapsulate_run (p : PqHandshakeInit) (seed : Bytes) :
    (Variant.pq.encapsulate C (some p.mlkem_ephemeral_public) seed).run =
      if C.mlkem_ek_valid p.mlkem_ephemeral_public = false then .ok (.error .InvalidPacket)
      else .ok (.ok (some (C.mlkem_encapsulate p.mlkem_ephemeral_public seed))) := by
  unfold Variant.encapsulate
  dsimp only
  rw [if_neg (not_not.mpr p.mlkem_length)]
  split <;> rfl

/-- A key that does not decode is found after the commit. -/
theorem Handshake.refused_pq_initiation {h : Handshake C} {p : PqHandshakeInit} {c : Consumed}
    (env : Env) (hdst : PQ_HANDSHAKE_RESP_SZ ≤ dst_len)
    (hc : (consume C .pq h.params h.last_handshake_timestamp p.toHandshakeInit
      (some p.mlkem_ephemeral_public)).run = .ok (.ok c))
    (hek : C.mlkem_ek_valid p.mlkem_ephemeral_public = false) :
    h.receive_pq_handshake_initialization p dst_len env = .ok (.error .InvalidPacket,
      { h.committed c p.toHandshakeInit (some p.mlkem_ephemeral_public) with
        state := .None, next_index := inc_index h.next_index }, [.generated env.ephemeral]) := by
  unfold receive_pq_handshake_initialization receive_initialization
  have hroom : ¬ dst_len < Variant.pq.resp_size := Nat.not_lt.mpr hdst
  rw [hc, Outcome.ok_bind]
  dsimp only [format_response, committed]
  rw [if_neg hroom, p.encapsulate_run, if_pos hek]
  rfl

/-- **A refused PQ initiation leaves no trace exactly if its ML-KEM key decodes
    or another check has failed before.** -/
theorem Handshake.refused_pq_initiation_iff (h : Handshake C) (p : PqHandshakeInit)
    (hdst : PQ_HANDSHAKE_RESP_SZ ≤ dst_len) :
    (∀ e h' evs, h.receive_pq_handshake_initialization p dst_len env = .ok (.error e, h', evs) →
      h' = h) ↔
    (h.Consumes p → C.mlkem_ek_valid p.mlkem_ephemeral_public = true) := by
  constructor
  · rintro hsame ⟨c, hc⟩
    by_contra hek
    have hrefused := refused_pq_initiation env hdst hc (Bool.not_eq_true _ ▸ hek)
    have hstamp : c.timestamp = h.last_handshake_timestamp :=
      congrArg last_handshake_timestamp (hsame _ _ _ hrefused)
    have hafter := (consume_ok.mp hc).after
    rw [hstamp, Tai64N.not_after_self] at hafter
    cases hafter
  · intro hvalid e h' evs hcall
    cases receive_initialization_cases hcall with
    | rejected e hc => rfl
    | stalled c hc hsmall => exact absurd hsmall (Nat.not_lt.mpr hdst)
    | refused c e hc hroom hkem =>
      rw [p.encapsulate_run, if_neg (by simp [hvalid ⟨c, hc⟩])] at hkem
      cases hkem

/-! ### A key that does not decode -/

/-- The symbolic primitives, with encapsulation keys that start with a zero. -/
def strictKem : Crypto :=
  { symbolic with
    mlkem_keygen := fun r => (fit 32 r, 0 :: fit 1183 r)
    mlkem_ek_valid := fun ek => ek.headD 0 = 0 }

theorem strictKem_correct : strictKem.Correct where
  public_length := symbolic_correct.public_length
  dh_comm := symbolic_correct.dh_comm
  seal_length := symbolic_correct.seal_length
  open_seal := symbolic_correct.open_seal
  mac_length := symbolic_correct.mac_length
  ek_length := fun r => congrArg Nat.succ (length_fit 1183 r)
  ek_valid := fun _ => rfl
  ct_length := symbolic_correct.ct_length
  decapsulate_encapsulate := fun _ _ => rfl

theorem strictTunn_peer_length : (List.replicate 32 9 : Bytes).length = KEY_LEN := rfl

def strictTunn : Tunn strictKem :=
  Tunn.new strictKem [7] (List.replicate 32 9) strictTunn_peer_length none none 1 none 0 0
    (symbolicEnv 0)

/-- The peer's initiation with a timestamp of `nano` nanoseconds; every byte of the ML-KEM key
    is `b`. -/
def strictInit (nano b : UInt8) : PqHandshakeInit :=
  { symbolicInit nano with
    mlkem_ephemeral_public := List.replicate MLKEM768_PK_SIZE b
    mlkem_length := List.length_replicate }

/-- A tunnel waits for the answer to its own initiation.  The peer's initiation
    with a key that does not decode is refused, but takes the slot and the timestamp. -/
theorem Handshake.refused_pq_initiation_leaves_trace :
    ∃ tr t s h', Run (tunnel strictKem (symbolicBuild true)) strictTunn tr t ∧
      t.handshake.state = .InitSent s ∧ strictTunn.IsNew 0 ∧
      t.handshake.receive_pq_handshake_initialization (strictInit 1 255) 1180 (symbolicEnv 2)
        = .ok (.error .InvalidPacket, h', [.generated [1]]) ∧
      h'.state = .None ∧ h'.last_handshake_timestamp ≠ t.handshake.last_handshake_timestamp ∧
      h' ≠ t.handshake := by
  obtain ⟨m, t, x, y, hstep, hstate, hparams, hlast⟩ : ∃ m t x y,
      strictTunn.step (symbolicBuild true) (.format_handshake_initiation 2048 false) (symbolicEnv 1)
        = .ok (.WriteToNetwork m, t, [.generated [1], .handshake .encrypted_static [1] x,
          .handshake .encrypted_timestamp [1] y]) ∧
      (∃ s, t.handshake.state = .InitSent s) ∧ t.handshake.params = strictTunn.handshake.params ∧
      t.handshake.last_handshake_timestamp = ⟨0, 0⟩ :=
    ⟨_, _, _, _, rfl, ⟨_, rfl⟩, rfl, rfl⟩
  obtain ⟨s, hstate⟩ := hstate
  obtain ⟨c, hc, hts⟩ : ∃ c, (consume strictKem .pq strictTunn.handshake.params ⟨0, 0⟩
      (strictInit 1 255).toHandshakeInit (some (strictInit 1 255).mlkem_ephemeral_public)).run =
        .ok (.ok c) ∧ c.timestamp = ⟨0, 1⟩ := ⟨_, rfl, rfl⟩
  rw [← hparams, ← hlast] at hc
  have hrefused := refused_pq_initiation (symbolicEnv 2)
    (by decide : PQ_HANDSHAKE_RESP_SZ ≤ 1180) hc rfl
  have hstamp : c.timestamp ≠ t.handshake.last_handshake_timestamp := by
    rw [hts, hlast]
    decide
  let l : Label := ⟨.format_handshake_initiation 2048 false, symbolicEnv 1, .WriteToNetwork m,
    [.generated [1], .handshake .encrypted_static [1] x, .handshake .encrypted_timestamp [1] y]⟩
  have hrun : Run (tunnel strictKem (symbolicBuild true)) strictTunn ([] ++ [l]) t :=
    .snoc .nil hstep
  exact ⟨_, t, s, _, hrun, hstate, ⟨_, _, _, _, _, _, _, _, _, rfl⟩, hrefused, rfl, hstamp,
    fun hsame => hstamp (congrArg last_handshake_timestamp hsame)⟩

/-- A replayed PQ initiation is refused, and nothing changes. -/
theorem Handshake.refused_pq_initiation_replayed :
    ∃ e h' evs, strictTunn.handshake.receive_pq_handshake_initialization
      (strictInit 0 255) 1180 (symbolicEnv 1) = .ok (.error e, h', evs) ∧
        h' = strictTunn.handshake := by
  obtain ⟨e, h', evs, hcall⟩ : ∃ e h' evs,
      strictTunn.handshake.receive_pq_handshake_initialization
        (strictInit 0 255) 1180 (symbolicEnv 1) = .ok (.error e, h', evs) := ⟨_, _, _, rfl⟩
  refine ⟨e, h', evs, hcall, ?_⟩
  refine (refused_pq_initiation_iff _ _ (by decide)).mpr ?_ e h' evs hcall
  rintro ⟨c, hc⟩
  cases hc

end PqBoringtun
