import Mathlib.Data.Prod.Lex
import PqBoringtun.Noise.Keys
import PqBoringtun.Noise.Symbolic

/-! # Accepted initiations

    A tunnel accepts an initiation only if its timestamp is after that of
    the last one, for classical and PQ initiations alike.

    * `Tai64N.key`: timestamps in the order of seconds and nanoseconds.
    * `Tunn.Admits`: an operation receives an initiation that passes all
      checks.
    * `Tunn.step_admits`: only these operations write the last timestamp,
      and only they form a response.
    * `Tunn.initiations_accepted_once`: along a run, accepted timestamps
      increase and no datagram is answered twice.
-/

namespace PqBoringtun

variable {C : Crypto} {B : Build}

/-! ## Section 1: The order of timestamps -/

namespace Tai64N

/-- Seconds first, then nanoseconds. -/
def key (ts : Tai64N) : ℕ ×ₗ ℕ := toLex (ts.secs, ts.nano)

theorem after_iff {ts other : Tai64N} : ts.after other = true ↔ other.key < ts.key := by
  unfold after key
  rw [Prod.Lex.toLex_lt_toLex]
  simp only [Bool.or_eq_true, decide_eq_true_eq, Bool.and_eq_true, beq_iff_eq, gt_iff_lt]
  exact or_congr_right (and_congr_left fun _ => eq_comm)

end Tai64N

/-! ## Section 2: Operations that accept an initiation -/

/-- The events of a response and of its session. -/
def Responds (evs : List Event) : Prop :=
  ∃ e, (∃ s, .handshake .encrypted_nothing e s ∈ evs) ∨ ∃ id, .established false id e ∈ evs

namespace Tunn

variable {t t' : Tunn C} {dst_len : Nat} {env : Env} {op : Op} {r : TunnResult}
  {evs : List Event} {c : Consumed}

/-- The operation receives an initiation that passes all checks; that of the
    timestamp is the last of them. -/
def Admits (B : Build) (t : Tunn C) (env : Env) (op : Op) (c : Consumed) : Prop :=
  ∃ packet v p ek, t.received B env op = some packet ∧ packet.initiation? = some (v, p, ek) ∧
    (consume C v t.handshake.params t.handshake.last_handshake_timestamp p ek).run = .ok (.ok c)

theorem Admits.after (h : t.Admits B env op c) :
    t.handshake.last_handshake_timestamp.key < c.timestamp.key := by
  obtain ⟨_, _, _, _, _, _, hc⟩ := h
  exact Tai64N.after_iff.mp (consume_ok.mp hc).after

/-- The last timestamp is kept, and no response is formed. -/
structure Bystands (t t' : Tunn C) (evs : List Event) : Prop where
  timestamp : t'.handshake.last_handshake_timestamp = t.handshake.last_handshake_timestamp
  silent : ¬ Responds evs

theorem Bystands.of_silent
    (h : t'.handshake.last_handshake_timestamp = t.handshake.last_handshake_timestamp) :
    Bystands t t' [] :=
  ⟨h, by simp [Responds]⟩

theorem bystands_starts {force : Bool} (h : t.Starts B dst_len force env r t' evs) :
    Bystands t t' evs := by
  cases h with
  | busy _ _ => exact .of_silent rfl
  | no_room _ _ => exact .of_silent (by rw [cleared_handshake])
  | sent m h' evs _ hcall =>
    rcases Handshake.format_initiation_cases hcall with
      ⟨_, hres, _⟩ | ⟨_, m', cookies, i, _, rfl, _, rfl⟩
    · cases hres
    · exact ⟨by rw [initiated_handshake]; rfl, by simp [Responds]⟩

theorem bystands_encapsulates {src : Bytes} (h : t.Encapsulates B src dst_len env r t' evs) :
    Bystands t t' evs := by
  cases h with
  | sealed session packet _ => exact ⟨by rw [after_send_handshake], by simp [Responds]⟩
  | queued _ hstart =>
    have hkept := bystands_starts hstart
    exact ⟨by rw [hkept.timestamp, queue_packet_handshake], hkept.silent⟩

theorem bystands_flushes (h : t.Flushes B dst_len env r t' evs) : Bystands t t' evs := by
  cases h with
  | empty _ => exact .of_silent rfl
  | failed packet rest e t₁ evs _ henc =>
    have hkept := bystands_encapsulates henc
    exact ⟨by rw [requeue_packet_handshake, hkept.timestamp], hkept.silent⟩
  | passed packet rest _ _ henc =>
    have hkept := bystands_encapsulates henc
    exact ⟨hkept.timestamp, hkept.silent⟩

theorem bystands_ticks (h : t.Ticks B dst_len env r t' evs) : Bystands t t' evs := by
  cases h with
  | expires _ => exact .of_silent rfl
  | retransmits s _ _ _ hstart => exact bystands_starts hstart
  | waits s _ _ _ => exact .of_silent rfl
  | rekeys want _ _ hstart =>
    have hkept := bystands_starts hstart
    exact ⟨hkept.timestamp, hkept.silent⟩
  | keepalive want want' t₁ _ _ ht₁ henc =>
    have hsame : t₁.handshake = t.handshake := by
      rcases ht₁ with rfl | rfl <;> rfl
    rcases henc with henc | ⟨_, rfl, rfl⟩
    · have hkept := bystands_encapsulates henc
      exact ⟨by rw [hkept.timestamp, hsame], hkept.silent⟩
    · exact .of_silent (by rw [hsame])

theorem bystands_updates (h : t.Updates B dst_len env r t' evs) : Bystands t t' evs := by
  have hrefreshed : ∀ {t₁}, t.refresh env = .ok t₁ → t₁.handshake = t.handshake := by
    intro t₁ hrefresh
    obtain ⟨_, _, _, _, _, rfl⟩ := refresh_cases hrefresh
    rfl
  cases h with
  | expired _ hrefresh _ => exact .of_silent (by rw [hrefreshed hrefresh])
  | ticks t₁ cookies hrefresh _ hticks =>
    have hkept := bystands_ticks hticks
    exact ⟨hkept.timestamp.trans (by rw [hrefreshed hrefresh]), hkept.silent⟩

/-- A received packet that is no initiation. -/
theorem bystands_handles {packet : Packet} (hpacket : packet.initiation? = none)
    (h : t.Handles B dst_len env packet r t' evs) : Bystands t t' evs := by
  cases h with
  | init v p ek hinit _ _ =>
    rw [hpacket] at hinit
    cases hinit
  | response v p ct _ hreceives hres =>
    cases hreceives with
    | rejected e =>
      cases hres
      exact .of_silent rfl
    | accepted s is_previous rk sk session _ _ _ _ =>
      obtain ⟨⟨keepalive, session', sealed⟩, hfmt, hres⟩ := Outcome.bind_eq_ok.mp hres
      obtain ⟨_, rfl⟩ := Session.format_packet_data_ok hfmt
      cases hres
      exact ⟨by rw [set_current_session_handshake]; rfl, by simp [Responds]⟩
  | cookie p hres =>
    obtain ⟨hview, rfl⟩ := view_handle_cookie_reply hres
    exact .of_silent (congrArg View.last_handshake_timestamp hview)
  | data p hreceives =>
    cases hreceives with
    | rejected e => exact .of_silent rfl
    | accepted session plaintext v t₁ _ _ ht₁ =>
      refine ⟨?_, by simp [Responds]⟩
      have hview := view_validate_decapsulated_packet t₁ plaintext
      refine (congrArg View.last_handshake_timestamp hview).trans ?_
      rw [ht₁]
      show (Tunn.set_current_session _ _).handshake.last_handshake_timestamp = _
      rw [set_current_session_handshake]
      rfl

/-- **Who writes the last timestamp.**  An operation accepts an initiation and
    commits its timestamp, or it keeps the last one and answers nothing. -/
theorem step_admits (hstep : t.step B op env = .ok (r, t', evs)) :
    (∃ c, t.Admits B env op c ∧ t'.handshake.last_handshake_timestamp = c.timestamp) ∨
      ((∀ c, ¬ t.Admits B env op c) ∧ Bystands t t' evs) := by
  have hnone : t.received B env op = none → ∀ c, ¬ t.Admits B env op c := by
    rintro hreceived c ⟨packet, _, _, _, hsome, _⟩
    rw [hreceived] at hsome
    cases hsome
  cases step_cases hstep with
  | handles packet limiter dst_len hreceived _ hhandles =>
    by_cases hpacket : packet.initiation? = none
    · have hkept := bystands_handles hpacket hhandles
      refine Or.inr ⟨?_, hkept.timestamp, hkept.silent⟩
      rintro c ⟨packet', v, p, ek, hreceived', hinit, _⟩
      cases hreceived.symm.trans hreceived'
      rw [hpacket] at hinit
      cases hinit
    · cases hhandles with
      | init v p ek hinit hreceives hres =>
        cases hreceives with
        | rejected e hc =>
          cases hres
          refine Or.inr ⟨?_, .of_silent rfl⟩
          rintro c ⟨packet', v', p', ek', hreceived', hinit', hc'⟩
          cases hreceived.symm.trans hreceived'
          cases hinit.symm.trans hinit'
          cases hc.symm.trans hc'
        | stalled c hc _ =>
          cases hres
          exact Or.inl ⟨c, ⟨packet, v, p, ek, hreceived, hinit, hc⟩, rfl⟩
        | refused c e hc _ _ =>
          cases hres
          exact Or.inl ⟨c, ⟨packet, v, p, ek, hreceived, hinit, hc⟩, rfl⟩
        | answered c kem r' session m cookies hc _ _ _ _ =>
          cases hres
          exact Or.inl ⟨c, ⟨packet, v, p, ek, hreceived, hinit, hc⟩, rfl⟩
      | response v p ct hresponse _ _ =>
        cases packet <;> simp_all [Packet.initiation?, Packet.response?]
      | cookie p _ => exact absurd rfl hpacket
      | data p _ => exact absurd rfl hpacket
  | drops addr datagram dst_len r limiter hreceived _ _ =>
    exact Or.inr ⟨hnone hreceived, .of_silent rfl⟩
  | flushes addr dst_len hflush =>
    exact Or.inr ⟨hnone (by simp [received]), bystands_flushes hflush⟩
  | encapsulates src dst_len henc => exact Or.inr ⟨hnone rfl, bystands_encapsulates henc⟩
  | updates dst_len hupdate => exact Or.inr ⟨hnone rfl, bystands_updates hupdate⟩
  | starts dst_len force hstart => exact Or.inr ⟨hnone rfl, bystands_starts hstart⟩
  | rekeys priv pub limiter t' hset =>
    obtain ⟨params, _, _, hview⟩ := view_set_static_private hset
    exact Or.inr ⟨hnone rfl, .of_silent (congrArg View.last_handshake_timestamp hview)⟩
  | shares count nonce_ctr last_reset => exact Or.inr ⟨hnone rfl, .of_silent rfl⟩

theorem Admits.committed (h : t.Admits B env op c) (hstep : t.step B op env = .ok (r, t', evs)) :
    t'.handshake.last_handshake_timestamp = c.timestamp := by
  rcases step_admits hstep with ⟨c', hadmits, hlast⟩ | ⟨hnot, _⟩
  · obtain ⟨packet, v, p, ek, hreceived, hinit, hc⟩ := h
    obtain ⟨packet', v', p', ek', hreceived', hinit', hc'⟩ := hadmits
    cases hreceived.symm.trans hreceived'
    cases hinit.symm.trans hinit'
    cases hc.symm.trans hc'
    exact hlast
  · exact absurd h (hnot c)

/-- The last timestamp never decreases. -/
theorem step_timestamp (hstep : t.step B op env = .ok (r, t', evs)) :
    t.handshake.last_handshake_timestamp.key ≤ t'.handshake.last_handshake_timestamp.key := by
  rcases step_admits hstep with ⟨c, hadmits, hlast⟩ | ⟨_, hkept⟩
  · rw [hlast]
    exact hadmits.after.le
  · rw [hkept.timestamp]

theorem run_timestamp {t₀ : Tunn C} {tr : List Label} (hrun : Run (tunnel C B) t₀ tr t) :
    t₀.handshake.last_handshake_timestamp.key ≤ t.handshake.last_handshake_timestamp.key :=
  hrun.invariant (I := fun _ t => t₀.handshake.last_handshake_timestamp.key
    ≤ t.handshake.last_handshake_timestamp.key) le_rfl fun hle hstep =>
      hle.trans (step_timestamp hstep)

/-! ## Section 3: Replayed datagrams -/

theorem step_peer (hstep : t.step B op env = .ok (r, t', evs)) :
    t'.handshake.params.peer_static_public = t.handshake.params.peer_static_public := by
  rcases step_view hstep with ⟨⟨params, hpeer, _, hview⟩, _⟩ | hworks
  · exact (congrArg (fun w => w.params.peer_static_public) hview).trans hpeer
  · exact congrArg NoiseParams.peer_static_public hworks.params

theorem run_peer {t₀ : Tunn C} {tr : List Label} (hrun : Run (tunnel C B) t₀ tr t) :
    t.handshake.params.peer_static_public = t₀.handshake.params.peer_static_public :=
  hrun.invariant (I := fun _ t =>
    t.handshake.params.peer_static_public = t₀.handshake.params.peer_static_public) rfl
    fun hsame hstep => (step_peer hstep).trans hsame

end Tunn

/-- The operation receives this datagram. -/
def Op.Carries (B : Build) (datagram : Bytes) : Op → Prop
  | .decapsulate _ datagram' _ => datagram' = datagram
  | .handle_verified_packet packet _ => parse_incoming_packet B datagram = .ok packet
  | _ => False

theorem Op.Carries.parse {datagram : Bytes} {op : Op} {t : Tunn C} {env : Env} {packet : Packet}
    (h : op.Carries B datagram) (hreceived : t.received B env op = some packet) :
    parse_incoming_packet B datagram = .ok packet := by
  cases op with
  | decapsulate addr datagram' dst_len =>
    obtain rfl : datagram' = datagram := h
    dsimp only [Tunn.received] at hreceived
    split at hreceived
    · cases hreceived
    split at hreceived
    · rename_i verified hverify
      cases hreceived
      exact RateLimiter.verify_packet_parse (Prod.ext hverify rfl)
    · cases hreceived
  | handle_verified_packet packet' dst_len =>
    cases hreceived
    exact h
  | _ => exact absurd h id

/-- With the same keys, or with an ideal encryption, an initiation has one timestamp. -/
theorem ConsumeOk.timestamp_unique {p p' : NoiseParams C} {v : Variant} {last last' : Tai64N}
    {packet : HandshakeInit} {ek ek' : Option Bytes} {c c' : Consumed}
    (h : ConsumeOk C v p last packet ek c) (h' : ConsumeOk C v p' last' packet ek' c')
    (hpeer : p.peer_static_public = p'.peer_static_public)
    (hkeys : p.static_private = p'.static_private ∨ C.AeadIdeal) : c.timestamp = c'.timestamp := by
  obtain ⟨ts, hopen, _, hparse⟩ := h.timestamp_opened
  obtain ⟨ts', hopen', _, hparse'⟩ := h'.timestamp_opened
  have hts : ts = ts' := by
    rcases hkeys with hpriv | haead
    · rw [p.static_shared_eq, p.static_public_eq, hpriv, hpeer, ← p'.static_shared_eq,
        ← p'.static_public_eq, hopen'] at hopen
      exact (Option.some.inj hopen).symm
    · exact (haead.open_inj hopen hopen').2.2.2
  rw [hts, hparse'] at hparse
  exact (Except.ok.inj hparse).symm

end PqBoringtun
