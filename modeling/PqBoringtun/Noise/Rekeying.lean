import PqBoringtun.Noise.Agreement

/-! # A new private key

    `set_static_private` drops the sessions, but keeps the two handshake
    slots.  What was keyed under the old key is over all the same: a session
    that is used later was established later, and a response to an old
    initiation is sealed for the old key.  Unless that key comes back.

    * Section 1: sessions that are used after the change.
    * Section 2: what the slots and the log of a tunnel hold.
    * Section 3: the key a response is accepted with
      (`Handshake.accepted_key`).
    * Section 4: `Tunn.rekey_ends`, and an initiation that survives a change
      of the key and back.
-/

namespace PqBoringtun

open Bytes KeyChain

variable {C : Crypto} {B : Build}

/-! ## Section 1: Sessions after the change -/

/-- The session a data packet was sealed or opened on. -/
def Event.session? : Event → Option SessionId
  | .data id _ _ => some id
  | .opened id _ _ _ => some id
  | _ => none

/-- The sessions in the ring were established in the log, and so were those it uses. -/
structure RenewedInv (log : List Event) (w : View C) : Prop where
  ring : ∀ i s, w.sessions i = some s → ∃ b e, .established b s.id e ∈ log
  used : ∀ ev ∈ log, ∀ id, ev.session? = some id → ∃ b e, .established b id e ∈ log

namespace RenewedInv

variable {log evs : List Event} {w w' : View C}

theorem nil (h : ∀ i, w.sessions i = none) : RenewedInv [] w := by
  refine ⟨fun i s hs => ?_, fun ev hev => ?_⟩
  · rw [h i] at hs
    cases hs
  · cases hev

/-- The log grows; what it uses and what is in the ring is established. -/
theorem extend (I : RenewedInv log w)
    (hring : ∀ i s, w'.sessions i = some s →
      (∃ j s', w.sessions j = some s' ∧ s'.id = s.id) ∨ ∃ b e, .established b s.id e ∈ evs)
    (hused : ∀ ev ∈ evs, ∀ id, ev.session? = some id →
      (∃ j s, w.sessions j = some s ∧ s.id = id) ∨ ∃ b e, .established b id e ∈ evs) :
    RenewedInv (log ++ evs) w' := by
  have hold : ∀ {j s}, w.sessions j = some s → ∃ b e, .established b s.id e ∈ log ++ evs := by
    intro j s hs
    obtain ⟨b, e, hest⟩ := I.ring j s hs
    exact ⟨b, e, List.mem_append_left _ hest⟩
  refine ⟨fun i s hs => ?_, fun ev hev id hid => ?_⟩
  · rcases hring i s hs with ⟨j, s', hs', heq⟩ | ⟨b, e, hest⟩
    · rw [← heq]
      exact hold hs'
    · exact ⟨b, e, List.mem_append_right _ hest⟩
  · rcases List.mem_append.mp hev with hev | hev
    · obtain ⟨b, e, hest⟩ := I.used ev hev id hid
      exact ⟨b, e, List.mem_append_left _ hest⟩
    · rcases hused ev hev id hid with ⟨j, s, hs, rfl⟩ | ⟨b, e, hest⟩
      · exact hold hs
      · exact ⟨b, e, List.mem_append_right _ hest⟩

/-- Sessions are dropped. -/
theorem drop (I : RenewedInv log w) (h : ∀ i, w'.sessions i = w.sessions i ∨ w'.sessions i = none) :
    RenewedInv log w' := by
  refine ⟨fun i s hs => ?_, I.used⟩
  rcases h i with hi | hi
  · exact I.ring i s (hi ▸ hs)
  · rw [hi] at hs
    cases hs

/-- A ring where one session was stored. -/
theorem stored {k : Fin N_SESSIONS} {session : Session} {i : Fin N_SESSIONS} {s : Session}
    (hs : Function.update w.sessions k (some session) i = some s) :
    s = session ∨ w.sessions i = some s := by
  by_cases hi : i = k
  · subst hi
    rw [Function.update_self] at hs
    exact Or.inl (Option.some.inj hs).symm
  · rw [Function.update_of_ne hi] at hs
    exact Or.inr hs

/-- **One move.** -/
theorem move (I : RenewedInv log w) (hmove : Move B w evs w') : RenewedInv (log ++ evs) w' := by
  have hkept : ∀ i s, w.sessions i = some s → ∃ j s', w.sessions j = some s' ∧ s'.id = s.id :=
    fun i s hs => ⟨i, s, hs, rfl⟩
  cases hmove with
  | initiate e seed timestamp time =>
    refine I.extend (fun i s hs => Or.inl (hkept i s hs)) fun ev hev id hid => ?_
    simp only [List.mem_cons, List.not_mem_nil, or_false] at hev
    rcases hev with rfl | rfl | rfl <;> cases hid
  | stall v packet ek c hc =>
    exact I.extend (fun i s hs => Or.inl (hkept i s hs)) fun ev hev => nomatch hev
  | refuse v packet ek c e hc =>
    refine I.extend (fun i s hs => Or.inl (hkept i s hs)) fun ev hev id hid => ?_
    cases List.mem_singleton.mp hev
    cases hid
  | respond v packet ek c e seed kem r session hc hkem hr hsession =>
    refine I.extend (fun i s hs => ?_) fun ev hev id hid => ?_
    · rcases stored hs with rfl | hs
      · exact Or.inr ⟨false, e, by simp⟩
      · exact Or.inl (hkept i s hs)
    · simp only [List.mem_cons, List.not_mem_nil, or_false] at hev
      rcases hev with rfl | rfl | rfl <;> cases hid
  | complete v s₀ is_previous packet ct rk sk session current hslot htype hkeys hsession hcurrent =>
    refine I.extend (fun i s hs => ?_) fun ev hev id hid => ?_
    · rcases stored hs with rfl | hs
      · exact Or.inr ⟨true, s₀.ephemeral_private, List.mem_cons_self⟩
      · exact Or.inl (hkept i s hs)
    · refine Or.inr ⟨true, s₀.ephemeral_private, ?_⟩
      simp only [List.mem_cons, List.not_mem_nil, or_false] at hev
      rcases hev with rfl | rfl <;> cases hid
      exact List.mem_cons_self
  | send session src hsession =>
    refine I.extend (fun i s hs => ?_) fun ev hev id hid => ?_
    · rcases stored hs with rfl | hs
      · exact Or.inl ⟨_, session, hsession, rfl⟩
      · exact Or.inl (hkept i s hs)
    · cases List.mem_singleton.mp hev
      cases hid
      exact Or.inl ⟨_, session, hsession, rfl⟩
  | receive session packet plaintext v current hsession haccepts hcurrent =>
    refine I.extend (fun i s hs => ?_) fun ev hev id hid => ?_
    · rcases stored hs with rfl | hs
      · exact Or.inl ⟨_, session, hsession, rfl⟩
      · exact Or.inl (hkept i s hs)
    · cases List.mem_singleton.mp hev
      cases hid
      exact Or.inl ⟨_, session, hsession, rfl⟩

/-- **One step.** -/
theorem step (I : RenewedInv log w) (hstep : (machine C B).step w evs w') :
    RenewedInv (log ++ evs) w' := by
  rcases hstep with ⟨⟨params, _, _, rfl⟩, rfl⟩ | ⟨w₁, hquiet, ⟨rfl, rfl⟩ | hmove⟩
  · rw [List.append_nil]
    exact I.drop fun _ => Or.inr rfl
  · rw [List.append_nil]
    exact I.drop hquiet.sessions
  · exact (I.drop hquiet.sessions).move hmove

end RenewedInv

/-! ## Section 2: Initiations of the log -/

/-- The chaining key of an initiation was made from three inputs. -/
def Chained (C : Crypto) (s : HandshakeInitSentState) : Prop :=
  ∃ (v : Variant) (xs : List Bytes), xs.length = 3 ∧
    s.chaining_key = (schedule C).chain v.chain_key xs

/-- An initiation of the log was sent under this public key: it is what `encrypted_static` hides. -/
def SentUnder (log : List Event) (pub : Bytes) : Prop :=
  ∃ e x, .handshake .encrypted_static e x ∈ log ∧ x.plaintext = pub

/-- The slots hold initiations, and the initiations of the log were sent under public keys. -/
structure SentInv (log : List Event) (w : View C) : Prop where
  slots : ∀ s, w.Holds s → Chained C s
  keys : ∀ pub, SentUnder log pub → ∃ a, pub = C.x25519_public a

/-- An initiation is sent under the key of the tunnel. -/
theorem Move.sent_under {evs : List Event} {w w' : View C} (h : Move B w evs w') {pub : Bytes}
    (hpub : SentUnder evs pub) : pub = w.params.static_public := by
  obtain ⟨e, x, hmem, rfl⟩ := hpub
  cases h with
  | initiate e' seed timestamp time =>
    simp only [List.mem_cons, List.not_mem_nil, or_false, reduceCtorEq, false_or,
      Event.handshake.injEq, true_and, false_and] at hmem
    obtain ⟨rfl, rfl⟩ := hmem
    rfl
  | _ => simp at hmem

namespace SentInv

variable {log evs : List Event} {w w' : View C}

/-- **One step.** -/
theorem step (I : SentInv log w) (hstep : (machine C B).step w evs w') :
    SentInv (log ++ evs) w' := by
  rcases hstep with ⟨⟨params, _, _, rfl⟩, rfl⟩ | ⟨w₁, hquiet, ⟨rfl, rfl⟩ | hmove⟩
  · rw [List.append_nil]
    exact ⟨I.slots, I.keys⟩
  · rw [List.append_nil]
    exact ⟨fun s hs => I.slots s (hquiet.holds hs), I.keys⟩
  · refine ⟨fun s hs => ?_, ?_⟩
    · rcases hmove.holds hs with hs | ⟨e, seed, timestamp, time, rfl, _⟩
      · exact I.slots s (hquiet.holds hs)
      · exact ⟨B.variant, initiatorInputs C w₁.params e, rfl, rfl⟩
    · rintro pub ⟨e, x, hmem, hpub⟩
      rcases List.mem_append.mp hmem with hmem | hmem
      · exact I.keys pub ⟨e, x, hmem, hpub⟩
      · exact ⟨_, (hmove.sent_under ⟨e, x, hmem, hpub⟩).trans w₁.params.static_public_eq⟩

end SentInv

/-! ## Section 3: The key a response is accepted with -/

/-- A responder answered the initiation `init`; `x` is the seal of its response. -/
def ResponseTo (C : Crypto) (v : Variant) (init : HandshakeInit) (ek : Option Bytes) (x : Seal) :
    Prop :=
  ∃ (h h' : Handshake C) (dst_len : Nat) (env : Env) (m : Bytes) (session : Session)
    (evs : List Event) (e : Bytes),
    h.receive_initialization v init ek dst_len env = .ok (.ok (m, session), h', evs) ∧
      .handshake .encrypted_nothing e x ∈ evs

/-- The responder has opened the public key of the initiator. -/
theorem opened_static {v : Variant} {q : NoiseParams C} {last : Tai64N} {init : HandshakeInit}
    {ek : Option Bytes} {c : Consumed} (hc : ConsumeOk C v q last init ek c) {x : Seal}
    (hbinding : x.Binding C) (hinit : init.encrypted_static = x.ciphertext) :
    q.peer_static_public = x.plaintext :=
  (hbinding _ _ _ _ (hinit ▸ hc.static_opened)).2.2.2

/-- **The key a response is accepted with.**  A tunnel accepts the response to an initiation only
    with the public key that the initiation was sent under. -/
theorem Handshake.accepted_key (hC : C.Ideal) (hD : C.DhInjective) {h h' : Handshake C}
    (hslots : ∀ s, h.state = .InitSent s ∨ h.previous = .InitSent s → Chained C s)
    {v w : Variant} {init : HandshakeInit} {ek ct : Option Bytes} {resp : HandshakeResponse}
    {x y : Seal} {a : Bytes} {env : Env} {session : Session} {evs : List Event}
    (hsent : init.encrypted_static = y.ciphertext) (hy : y.Binding C)
    (ha : y.plaintext = C.x25519_public a) (hresponse : ResponseTo C v init ek x) (hx : x.Binding C)
    (hresp : resp.encrypted_nothing = x.ciphertext)
    (haccepted : h.receive_response w resp ct env = .ok (.ok session, h', evs)) :
    h.params.static_public = y.plaintext := by
  obtain ⟨hR, hR', dst_len, envR, m, sb, evsR, e, hcall, hevent⟩ := hresponse
  obtain ⟨c, kem, r, hc, hkem, hr, rfl, _, _⟩ := receive_initialization_sealed hcall hevent
  have hpeer : hR.params.peer_static_public = C.x25519_public a :=
    (opened_static hc hy hsent).trans ha
  -- The key of the seal, as the responder made it
  have hkey := congrArg Seal.key (respond_nothing (p := hR.params) c.hash c.chaining_key
    init.unencrypted_ephemeral envR.ephemeral kem)
  rw [← hr, aead_chacha20_seal_key, hc.chaining_key, Schedule.derive_chain] at hkey
  cases receive_response_cases haccepted with
  | accepted s is_previous rk sk session hslot htype hkeys hsession =>
    -- and as the initiator opens it
    obtain ⟨kem', _, hkeys⟩ := Attempt.run_bind_eq_ok.mp hkeys
    obtain ⟨hopen, _, _⟩ := complete_ok.mp hkeys
    obtain ⟨hkey', _⟩ := hx _ _ _ _ (hresp ▸ hopen)
    obtain ⟨v', xs, hxs, hck⟩ := hslots s (response_slot_sent hslot)
    rw [hck, Schedule.derive_chain] at hkey'
    obtain ⟨_, _, hinputs, _⟩ := Schedule.derive_inj hC.schedule (fresh_chain_key hC v')
      (fresh_chain_key hC v) (hkey'.trans hkey)
    obtain ⟨_, hinputs⟩ := List.append_inj hinputs hxs
    obtain ⟨hre, _, hse, _⟩ : _ ∧ _ ∧ _ ∧ _ := by
      simpa [completeInputs, responseInputs] using hinputs
    rw [hre, hpeer, hD.dh_comm] at hse
    rw [h.params.static_public_eq, ha]
    exact hD.dh_inj _ _ _ hse

/-! ## Section 4: The end of everything old -/

/-- If this sets a key, nothing in the log was sent under it. -/
def Label.Avoids (log : List Event) (l : Label) : Prop :=
  ∀ priv pub limiter, l.op = .set_static_private priv pub limiter → ¬ SentUnder log pub

namespace Tunn

variable {t t' t₀ t₁ t₂ t₃ : Tunn C} {l : Label} {log : List Event} {tr tr' : List Label}
  {start : Nat}

/-- What a new key changes: the parameters have it, and there are no sessions. -/
theorem set_static_private_sets {priv pub : Bytes} {limiter : Option RateLimiter} {env : Env}
    (h : t.set_static_private priv pub limiter env = .ok t') :
    t'.handshake.params.static_public = pub ∧ ∀ i, t'.sessions i = none := by
  obtain ⟨params, hparams, h⟩ := Outcome.bind_eq_ok.mp h
  cases h
  exact ⟨(NoiseParams.set_static_private_eq_ok hparams).2.1, fun _ => rfl⟩

theorem step_sets {priv pub : Bytes} {limiter : Option RateLimiter}
    (hop : l.op = .set_static_private priv pub limiter) (hstep : (tunnel C B).step t l t') :
    t'.handshake.params.static_public = pub ∧ ∀ i, t'.sessions i = none := by
  have hstep : t.step B l.op l.env = .ok (l.result, t', l.events) := hstep
  rw [hop] at hstep
  obtain ⟨t₁, hset, heq⟩ := Outcome.bind_eq_ok.mp hstep
  obtain rfl : t₁ = t' := congrArg (fun x => x.2.1) (Outcome.ok.inj heq)
  exact set_static_private_sets hset

/-- **One step** that does not bring an old key back. -/
theorem step_avoids (h : ¬ SentUnder log t.handshake.params.static_public) (hl : l.Avoids log)
    (hstep : (tunnel C B).step t l t') : ¬ SentUnder log t'.handshake.params.static_public := by
  by_cases hop : ∃ priv pub limiter, l.op = .set_static_private priv pub limiter
  · obtain ⟨priv, pub, limiter, hop⟩ := hop
    rw [(step_sets hop hstep).1]
    exact hl priv pub limiter hop
  · have hworks := step_works (fun a b c heq => hop ⟨a, b, c, heq⟩) hstep
    have hparams : t'.handshake.params = t.handshake.params := hworks.params
    rwa [hparams]

/-- **A run** that does not bring an old key back. -/
theorem run_avoids (h : ¬ SentUnder log t.handshake.params.static_public)
    (hl : ∀ l ∈ tr, l.Avoids log) (hrun : Run (tunnel C B) t tr t') :
    ¬ SentUnder log t'.handshake.params.static_public :=
  hrun.invariant_of (A := fun tr => ∀ l ∈ tr, l.Avoids log)
    (I := fun _ t => ¬ SentUnder log t.handshake.params.static_public)
    (fun hall l hl => hall l (List.mem_append_left _ hl)) h
    (fun hall ih hstep => step_avoids ih (hall _ (by simp)) hstep) hl

theorem run_renewed (h : ∀ i, t.sessions i = none) (hrun : Run (tunnel C B) t tr t') :
    RenewedInv (events tr) t'.view :=
  hrun.invariant (I := fun tr t => RenewedInv (events tr) t.view) (.nil h) fun I hstep => by
    rw [events_snoc]
    exact I.step (step_view hstep)

theorem run_sent (hnew : t₀.IsNew start) (hrun : Run (tunnel C B) t₀ tr t) :
    SentInv (events tr) t.view := by
  refine hrun.invariant (I := fun tr t => SentInv (events tr) t.view) ?_ fun I hstep => ?_
  · obtain ⟨priv, peer, hpeer, psk, keepalive, index, limiter, unix_time, env, rfl⟩ := hnew
    refine ⟨fun s hs => ?_, fun pub ⟨e, x, hmem, _⟩ => nomatch hmem⟩
    rcases hs with hs | hs <;> cases hs
  · rw [events_snoc]
    exact I.step (step_view hstep)

/-- **A new private key ends everything keyed under the old ones.**  After the run `tr` a key is
    set, and the run `tr'` follows; neither sets a key under which an initiation of `tr` was sent.
    Then every data packet of `tr'` is sealed or opened on a session of `tr'`, and a response that a
    responder made for an initiation of `tr` is not accepted in the state that is reached. -/
theorem rekey_ends (hC : C.Ideal) (hD : C.DhInjective) (hnew : t₀.IsNew start)
    (hrun : Run (tunnel C B) t₀ tr t₁) {priv pub : Bytes} {limiter : Option RateLimiter}
    (hop : l.op = .set_static_private priv pub limiter) (hstep : (tunnel C B).step t₁ l t₂)
    (hlater : Run (tunnel C B) t₂ tr' t₃) (havoids : ∀ l' ∈ l :: tr', l'.Avoids (events tr))
    (hbinding : ∀ e x, .handshake .encrypted_static e x ∈ events tr → x.Binding C) :
    (∀ ev ∈ events tr', ∀ id, ev.session? = some id → ∃ b e, .established b id e ∈ events tr') ∧
    ∀ {e : Bytes} {y x : Seal} {v w : Variant} {init : HandshakeInit} {ek ct : Option Bytes}
      {resp : HandshakeResponse},
      .handshake .encrypted_static e y ∈ events tr → init.encrypted_static = y.ciphertext →
      ResponseTo C v init ek x → x.Binding C → resp.encrypted_nothing = x.ciphertext →
      ∀ env session h' evs,
        t₃.handshake.receive_response w resp ct env ≠ .ok (.ok session, h', evs) := by
  obtain ⟨hset, hnone⟩ := step_sets hop hstep
  refine ⟨(run_renewed hnone hlater).used, ?_⟩
  intro e y x v w init ek ct resp hy hsent hresponse hx hresp env session h' evs haccepted
  have hsents := run_sent hnew ((hrun.snoc hstep).append hlater)
  obtain ⟨a, ha⟩ := (run_sent hnew hrun).keys y.plaintext ⟨e, y, hy, rfl⟩
  have hkey := Handshake.accepted_key hC hD hsents.slots hsent
      (hbinding e y hy) ha hresponse hx hresp
    haccepted
  have hunder : ¬ SentUnder (events tr) t₂.handshake.params.static_public := by
    rw [hset]
    exact havoids l List.mem_cons_self priv pub limiter hop
  have hlast := run_avoids hunder (fun l' hl' => havoids l' (List.mem_cons_of_mem _ hl')) hlater
  rw [hkey] at hlast
  exact hlast ⟨e, y, hy, rfl⟩

/-! ### An initiation that is answered -/

/-- A tunnel with the private key `[1]` has sent an initiation, a responder has answered it, and
    the tunnel would accept the response. -/
structure ResponseUnderway (log : List Seal) (t₀ t₁ : Tunn (sealing symbolic log)) (l : Label)
    (init : HandshakeInit) (y x : Seal) (resp : HandshakeResponse) (ct : Option Bytes) : Prop where
  isNew : t₀.IsNew 0
  run : Run (tunnel (sealing symbolic log) (symbolicBuild true)) t₀ [l] t₁
  key : t₁.handshake.params.static_private = [1]
  sent : .handshake .encrypted_static [3] y ∈ events [l]
  only : ∀ e z, .handshake .encrypted_static e z ∈ events [l] → z = y
  binding : y.Binding (sealing symbolic log)
  plaintext : y.plaintext = symbolic.x25519_public [1]
  init_static : init.encrypted_static = y.ciphertext
  response : ∃ ek, ResponseTo (sealing symbolic log) .pq init ek x
  response_binding : x.Binding (sealing symbolic log)
  response_seal : resp.encrypted_nothing = x.ciphertext
  accepted : ∃ session h' evs,
    t₁.handshake.receive_response .pq resp ct (quietEnv [3] [5]) = .ok (.ok session, h', evs)

theorem response_underway :
    ∃ log t₀ t₁ l init y x resp ct, ResponseUnderway log t₀ t₁ l init y x resp ct := by
  let p := NoiseParams.new symbolic [1] (fit 32 [2]) none (length_fit 32 [2])
  let q := NoiseParams.new symbolic [2] (fit 32 [1]) none (length_fit 32 [1])
  obtain ⟨log, hlog⟩ : ∃ log, log = honestLog symbolic p q [3] [4] [5] [6]
    ((⟨0, 0⟩ : TimeStamper).stamp 0) := ⟨_, rfl⟩
  obtain ⟨x⟩ := honest_response symbolic_correct.toKeyAgreement
    (show Paired p q from ⟨rfl, rfl, rfl⟩) (quietEnv [3] [5]) (quietEnv [4] [6]) ⟨0, 0⟩ rfl
    (by decide) hlog
  let t₀ : Tunn (sealing symbolic log) := .new (sealing symbolic log) [1] (fit 32 [2])
    (length_fit 32 [2]) none none 0 none 0 0 (quietEnv [3] [5])
  obtain ⟨evs, hevs, hinit⟩ : ∃ evs, evs = [.generated [3],
      .handshake .encrypted_static [3] x.encrypted_static,
      .handshake .encrypted_timestamp [3] x.encrypted_timestamp] ∧
      t₀.handshake.format_initiation .pq 2048 (quietEnv [3] [5]) =
        (.ok x.initiation, x.initiator, evs) := ⟨_, rfl, x.sent⟩
  have hparams : x.initiator.params = t₀.handshake.params := by
    rcases Handshake.format_initiation_cases hinit with ⟨_, herror, _⟩ | ⟨_, _, _, _, _, heq, _⟩
    · cases herror
    · rw [heq]
      rfl
  have hsend : t₀.format_handshake_initiation (symbolicBuild true) 2048 false (quietEnv [3] [5]) =
      (.WriteToNetwork x.initiation, t₀.initiated (quietEnv [3] [5]) x.initiator, evs) := by
    rcases hsend : t₀.format_handshake_initiation (symbolicBuild true) 2048 false (quietEnv [3] [5])
      with ⟨r, t', evs'⟩
    cases format_handshake_initiation_cases hsend with
    | busy hbusy _ => cases hbusy
    | no_room _ hsmall => exact absurd hsmall (by decide)
    | sent m' h'' evs' _ hcall' =>
      cases hinit.symm.trans hcall'
      rfl
  obtain ⟨m', session, h', evs', hresp, hx⟩ := x.answered
  refine ⟨log, t₀, t₀.initiated (quietEnv [3] [5]) x.initiator,
    ⟨.format_handshake_initiation 2048 false, quietEnv [3] [5], .WriteToNetwork x.initiation, evs⟩,
    x.init, x.encrypted_static, x.encrypted_nothing, x.resp, x.ct,
    ⟨[1], _, _, _, _, _, _, _, _, rfl⟩, .snoc .nil (congrArg Outcome.ok hsend), ?_, ?_, ?_,
    x.static_binding, x.static_plaintext, x.init_static,
    ⟨x.ek, _, _, _, _, _, _, _, _, hresp, hx⟩, x.nothing_binding, x.resp_nothing, ?_⟩
  · rw [initiated_handshake, hparams]
    rfl
  · simp [events, hevs]
  · simp [events, hevs]
  · rw [initiated_handshake]
    exact x.accepted

/-- The parameters are determined by the two keys and the preshared key. -/
theorem params_eq {p q : NoiseParams C} (hpriv : p.static_private = q.static_private)
    (hpeer : p.peer_static_public = q.peer_static_public)
    (hpsk : p.preshared_key = q.preshared_key) : p = q := by
  obtain ⟨_, _, _, _, _, _, hpub, hshared, hmac, _⟩ := p
  obtain ⟨_, _, _, _, _, _, hpub', hshared', hmac', _⟩ := q
  dsimp only at *
  subst hpriv hpeer hpsk hpub hshared hmac hpub' hshared' hmac'
  rfl

/-- A call that sets this private key. -/
def rekeyLabel (C : Crypto) (priv : Bytes) : Label where
  op := .set_static_private priv (C.x25519_public priv) none
  env := quietEnv [3] [5]
  result := .Done
  events := []

/-- The key is set, and the rest of the handshake stays. -/
theorem rekeyLabel_step (t : Tunn C) (priv : Bytes) :
    ∃ t' params, (tunnel C B).step t (rekeyLabel C priv) t' ∧
      t'.handshake = { t.handshake with params := params } ∧ params.static_private = priv ∧
      params.peer_static_public = t.handshake.params.peer_static_public ∧
      params.preshared_key = t.handshake.params.preshared_key := by
  obtain ⟨params, hparams⟩ := t.handshake.params.set_static_private_own priv
  obtain ⟨hpriv, _, hpeer, hpsk⟩ := NoiseParams.set_static_private_eq_ok hparams
  exact ⟨_, params, Outcome.bind_eq_ok.mpr
    ⟨_, Outcome.bind_eq_ok.mpr ⟨params, hparams, rfl⟩, rfl⟩, rfl, hpriv, hpeer, hpsk⟩

/-- The response to an initiation is rejected once another key is set. -/
theorem rekey_ends_answered :
    ∃ (C : Crypto) (t₀ t₁ t₂ : Tunn C) (l : Label) (init : HandshakeInit) (x : Seal)
      (resp : HandshakeResponse) (ct : Option Bytes),
      C.Ideal ∧ C.DhInjective ∧ Run (tunnel C (symbolicBuild true)) t₀ [l] t₁ ∧
      (tunnel C (symbolicBuild true)).step t₁ (rekeyLabel C [9]) t₂ ∧
      (∃ ek, ResponseTo C .pq init ek x) ∧ resp.encrypted_nothing = x.ciphertext ∧
      ∀ env session h' evs,
        t₂.handshake.receive_response .pq resp ct env ≠ .ok (.ok session, h', evs) := by
  obtain ⟨log, t₀, t₁, l, init, y, x, resp, ct, h⟩ := response_underway
  obtain ⟨t₂, params, hstep, _⟩ := rekeyLabel_step (B := symbolicBuild true) t₁ [9]
  obtain ⟨ek, hresponse⟩ := h.response
  have hC : (sealing symbolic log).Ideal := sealing_ideal symbolic_ideal
  have hD : (sealing symbolic log).DhInjective :=
    ⟨symbolic_dhInjective.dh_comm, symbolic_dhInjective.dh_inj⟩
  have havoids : (rekeyLabel (sealing symbolic log) [9]).Avoids (events [l]) := by
    rintro priv pub limiter hop ⟨e, z, hz, hplain⟩
    cases hop
    cases h.only e z hz
    rw [h.plaintext] at hplain
    exact absurd hplain (by decide : fit 32 [1] ≠ fit 32 [9])
  have hends := rekey_ends hC hD h.isNew h.run rfl hstep .nil
    (fun l' hl' => by cases List.mem_singleton.mp hl'; exact havoids)
    (fun e z hz => h.only e z hz ▸ h.binding)
  exact ⟨_, t₀, t₁, t₂, l, init, x, resp, ct, hC, hD, h.run, hstep, ⟨ek, hresponse⟩,
    h.response_seal,
    hends.2 h.sent h.init_static hresponse h.response_binding h.response_seal⟩

/-- **The old key comes back**: an initiation is sent, the key is changed and changed back, and the
    response to the initiation is accepted. -/
theorem rekey_back :
    ∃ (C : Crypto) (t₀ t₁ t₂ t₃ : Tunn C) (l : Label) (init : HandshakeInit) (y x : Seal)
      (resp : HandshakeResponse) (ct : Option Bytes),
      C.Ideal ∧ C.DhInjective ∧ t₀.IsNew 0 ∧ Run (tunnel C (symbolicBuild true)) t₀ [l] t₁ ∧
      (tunnel C (symbolicBuild true)).step t₁ (rekeyLabel C [9]) t₂ ∧
      t₂.handshake.params.static_public ≠ t₁.handshake.params.static_public ∧
      Run (tunnel C (symbolicBuild true)) t₂ [rekeyLabel C [1]] t₃ ∧
      (∀ e z, .handshake .encrypted_static e z ∈ events [l] → z.Binding C) ∧
      .handshake .encrypted_static [3] y ∈ events [l] ∧ init.encrypted_static = y.ciphertext ∧
      (∃ ek, ResponseTo C .pq init ek x) ∧ x.Binding C ∧ resp.encrypted_nothing = x.ciphertext ∧
      ∃ env session h' evs,
        t₃.handshake.receive_response .pq resp ct env = .ok (.ok session, h', evs) := by
  obtain ⟨log, t₀, t₁, l, init, y, x, resp, ct, h⟩ := response_underway
  obtain ⟨t₂, params, hstep, hsame, hpriv, hpeer, hpsk⟩ :=
    rekeyLabel_step (B := symbolicBuild true) t₁ [9]
  obtain ⟨t₃, params', hstep', hsame', hpriv', hpeer', hpsk'⟩ :=
    rekeyLabel_step (B := symbolicBuild true) t₂ [1]
  have hparams : params' = t₁.handshake.params := by
    rw [hsame] at hpeer' hpsk'
    exact params_eq (hpriv'.trans h.key.symm) (hpeer'.trans hpeer) (hpsk'.trans hpsk)
  have hhandshake : t₃.handshake = t₁.handshake := by
    rw [hsame', hsame, hparams]
  have hother : t₂.handshake.params.static_public ≠ t₁.handshake.params.static_public := by
    rw [t₂.handshake.params.static_public_eq, t₁.handshake.params.static_public_eq, hsame, hpriv,
      h.key]
    exact (by decide : fit 32 [9] ≠ fit 32 [1])
  have haccepted := h.accepted
  rw [← hhandshake] at haccepted
  exact ⟨_, t₀, t₁, t₂, t₃, l, init, y, x, resp, ct, sealing_ideal symbolic_ideal,
    ⟨symbolic_dhInjective.dh_comm, symbolic_dhInjective.dh_inj⟩, h.isNew, h.run, hstep, hother,
    .snoc .nil hstep', fun e z hz => h.only e z hz ▸ h.binding, h.sent, h.init_static, h.response,
    h.response_binding, h.response_seal, _, haccepted⟩

end Tunn

end PqBoringtun
