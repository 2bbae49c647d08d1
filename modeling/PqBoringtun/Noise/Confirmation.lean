import Mathlib.Tactic.IntervalCases
import PqBoringtun.Noise.Pacing

/-! # Key confirmation

    A responder must not send on a session before the initiator has used it.
    The code sends on whatever stands in the slot of `current`.

    * `Confirmed`: sessions that were created as initiator, or on which a
      packet was opened.
    * `Tunn.current_confirmed`: the session in that slot is confirmed, as
      long as no new responder session is put there.
    * `Tunn.sends_confirmed`: every packet is sealed on a confirmed session.
-/

namespace PqBoringtun

variable {C : Crypto} {B : Build}

/-! ## Section 1: Confirmed sessions -/

/-- The session was created as initiator, or a packet was opened on it. -/
def Confirmed (log : List Event) (id : SessionId) : Prop :=
  (∃ e, .established true id e ∈ log) ∨
    ∃ counter plaintext ciphertext, .opened id counter plaintext ciphertext ∈ log

theorem confirmed_append {log evs : List Event} {id : SessionId} :
    Confirmed (log ++ evs) id ↔ Confirmed log id ∨ Confirmed evs id := by
  simp only [Confirmed, List.mem_append, exists_or]
  exact or_or_or_comm

namespace View

/-- The session to send on is confirmed. -/
def CurrentConfirmed (log : List Event) (w : View C) : Prop :=
  ∀ session, w.sessions (slot w.current) = some session → Confirmed log session.id

variable {w w' : View C} {log evs : List Event}

theorem CurrentConfirmed.quiet (h : w.CurrentConfirmed log) (hq : Quiet w w') :
    w'.CurrentConfirmed log := by
  intro session hsession
  rw [hq.current] at hsession
  rcases hq.sessions (slot w.current) with hkept | hdropped
  · exact h session (hkept ▸ hsession)
  · rw [hdropped] at hsession
    cases hsession

/-- A confirmed session enters the ring, and `current` stays or moves to it. -/
theorem CurrentConfirmed.store (h : w.CurrentConfirmed log) {session : Session} {i current : Nat}
    (hconfirmed : Confirmed log session.id) (hcurrent : current = w.current ∨ current = i) :
    ∀ session', Function.update w.sessions (slot i) (some session) (slot current) = some session' →
      Confirmed log session'.id := by
  intro session' hsession'
  by_cases hslot : slot current = slot i
  · rw [hslot, Function.update_self] at hsession'
    cases hsession'
    exact hconfirmed
  · rw [Function.update_of_ne hslot] at hsession'
    rcases hcurrent with rfl | rfl
    · exact h session' hsession'
    · exact absurd rfl hslot

/-- **One move.** -/
theorem CurrentConfirmed.move (h : w.CurrentConfirmed log) (hmove : Move B w evs w')
    (hspared : Responds evs → slot (inc_index w.next_index).toNat ≠ slot w.current) :
    w'.CurrentConfirmed (log ++ evs) := by
  have hlog : w.CurrentConfirmed (log ++ evs) := by
    intro session hsession
    exact confirmed_append.mpr (Or.inl (h session hsession))
  cases hmove with
  | initiate e seed timestamp time => exact hlog
  | stall v packet ek c _ => exact hlog
  | refuse v packet ek c e _ => exact hlog
  | respond v packet ek c e seed kem r session _ _ _ hsession =>
    intro session' hsession'
    have hne : slot w.current ≠ slot session.local_index := by
      rw [hsession]
      exact (hspared ⟨e, Or.inr ⟨session.id, by simp⟩⟩).symm
    refine hlog session' ?_
    rw [← hsession']
    exact (Function.update_of_ne hne ..).symm
  | complete v s is_previous packet ct rk sk session current _ _ _ _ hcurrent =>
    have hconfirmed : Confirmed (log ++ [Event.established true session.id s.ephemeral_private,
        .data session.id session.sending_key_counter (session.packet_seal C [])])
        (session.sent B).id :=
      Or.inl ⟨s.ephemeral_private, by simp⟩
    exact hlog.store hconfirmed hcurrent
  | send session src hsession =>
    have hconfirmed : Confirmed _ (session.sent B).id := hlog session hsession
    exact hlog.store hconfirmed (Or.inl rfl)
  | receive session packet plaintext v current _ _ hcurrent =>
    have hconfirmed : Confirmed (log ++ [Event.opened session.id packet.counter plaintext
        packet.encrypted_encapsulated_packet]) (session.received v).id :=
      Or.inr ⟨packet.counter, plaintext, packet.encrypted_encapsulated_packet, by simp⟩
    exact hlog.store hconfirmed hcurrent

end View

/-! ## Section 2: Sending -/

namespace Tunn

variable {t t' t₀ : Tunn C} {l : Label} {tr : List Label} {start : Nat}

/-- An initiation of the peer is accepted whose session will take the slot of `current`. -/
def OverwritesCurrent (B : Build) (t : Tunn C) (l : Label) : Prop :=
  (∃ c, t.Admits B l.env l.op c) ∧
    slot (inc_index t.handshake.next_index).toNat = slot t.current

/-- A tunnel where that does not happen. -/
def confirmingTunnel (C : Crypto) (B : Build) : System (Tunn C) Label :=
  (tunnel C B).guard fun t l => ¬ t.OverwritesCurrent B l

/-- **One step.** -/
theorem step_confirmed {log : List Event} (h : t.view.CurrentConfirmed log)
    (hstep : (confirmingTunnel C B).step t l t') : t'.view.CurrentConfirmed (log ++ l.events) := by
  obtain ⟨hstep, hguard⟩ := hstep
  have hspared : Responds l.events →
      slot (inc_index t.handshake.next_index).toNat ≠ slot t.current := by
    intro hresponds hslot
    rcases step_admits hstep with ⟨c, hadmits, _⟩ | ⟨_, hbystands⟩
    · exact hguard ⟨⟨c, hadmits⟩, hslot⟩
    · exact hbystands.silent hresponds
  rcases step_view hstep with ⟨⟨params, _, _, hview⟩, _⟩ | ⟨w, hquiet, hidle | hmove⟩
  · intro session hsession
    rw [hview] at hsession
    cases hsession
  · obtain ⟨hview, hevs⟩ := hidle
    rw [hview, hevs, List.append_nil]
    exact h.quiet hquiet
  · apply (h.quiet hquiet).move hmove
    rw [hquiet.next_index, hquiet.current]
    exact hspared

/-- **The session to send on is confirmed**, in every state of a run. -/
theorem current_confirmed (hnew : t₀.IsNew start) (hrun : Run (confirmingTunnel C B) t₀ tr t) :
    t.view.CurrentConfirmed (events tr) := by
  refine hrun.invariant (I := fun tr t => t.view.CurrentConfirmed (events tr)) ?_ ?_
  · obtain ⟨_, _, _, _, _, _, _, _, _, rfl⟩ := hnew
    intro session hsession
    cases hsession
  · intro tr t l t' ih hstep
    rw [events_snoc]
    exact step_confirmed ih hstep

/-- A packet is sealed on the current session, or on one that was just created. -/
theorem data_sealed {env : Env} {op : Op} {r : TunnResult} {evs : List Event} {id : SessionId}
    {counter : Nat} {x : Seal} (hstep : t.step B op env = .ok (r, t', evs))
    (hdata : .data id counter x ∈ evs) :
    (∃ session, t.sessions (slot t.current) = some session ∧ session.id = id) ∨
      ∃ e, .established true id e ∈ evs := by
  rcases step_view hstep with ⟨_, hevs⟩ | ⟨w, hquiet, ⟨_, hevs⟩ | hmove⟩
  · simp [hevs] at hdata
  · simp [hevs] at hdata
  · generalize t'.view = w' at hmove
    cases hmove with
    | initiate e seed timestamp time => simp at hdata
    | stall v packet ek c _ => simp at hdata
    | refuse v packet ek c e _ => simp at hdata
    | respond v packet ek c e seed kem r session _ _ _ _ => simp at hdata
    | complete v s is_previous packet ct rk sk session current _ _ _ _ _ =>
      have hid : id = session.id := by
        simp only [List.mem_cons, reduceCtorEq, Event.data.injEq, false_or, List.not_mem_nil,
          or_false] at hdata
        exact hdata.1
      exact Or.inr ⟨s.ephemeral_private, by simp [hid]⟩
    | send session src hsession =>
      have hid : id = session.id := (Event.data.inj (List.mem_singleton.mp hdata)).1
      rw [hquiet.current] at hsession
      rcases hquiet.sessions (slot t.current) with hkept | hdropped
      · exact Or.inl ⟨session, hkept.symm.trans hsession, hid.symm⟩
      · cases hdropped.symm.trans hsession
    | receive session packet plaintext v current _ _ _ => simp at hdata

/-- **Key confirmation before use.**  In a run where no new responder session takes the slot of
    `current`, every packet is sealed on a session that this tunnel created as initiator or on
    which it opened a packet before. -/
theorem sends_confirmed (hnew : t₀.IsNew start) (hrun : Run (confirmingTunnel C B) t₀ tr t)
    (hstep : (tunnel C B).step t l t') {id : SessionId} {counter : Nat} {x : Seal}
    (hdata : .data id counter x ∈ l.events) :
    Confirmed (events tr) id ∨ ∃ e, .established true id e ∈ l.events := by
  rcases data_sealed hstep hdata with ⟨session, hsession, hid⟩ | hcreated
  · rw [← hid]
    exact Or.inl (current_confirmed hnew hrun session hsession)
  · exact Or.inr hcreated

/-- After its own handshake a tunnel sends on a confirmed session. -/
theorem sends_confirmed_initiator :
    let B := symbolicBuild false
    ∃ l₁ l₂ l₃ t₁ t₂ t₃ id counter x, (tunnel symbolic B).step symbolicTunn l₁ t₁ ∧
      (tunnel symbolic B).step t₁ l₂ t₂ ∧ (tunnel symbolic B).step t₂ l₃ t₃ ∧
      l₃.op = .encapsulate [2] 2048 ∧ .data id counter x ∈ l₃.events ∧
      (Confirmed (events ([] ++ [l₁] ++ [l₂])) id ∨ ∃ e, .established true id e ∈ l₃.events) := by
  intro B
  obtain ⟨⟨r₁, t₁, evs₁⟩, hstep₁, ⟨r₂, t₂, evs₂⟩, hstep₂, ⟨r₃, t₃, evs₃⟩, hstep₃, id, counter, x,
      hdata⟩ : ∃ x₁,
      symbolicTunn.step (symbolicBuild false) (.encapsulate [1] 2048) (symbolicEnv 0) = .ok x₁ ∧
        ∃ x₂,
      x₁.2.1.step (symbolicBuild false) (.handle_verified_packet (.HandshakeResponse symbolicResp)
        2048) (symbolicEnv 0) = .ok x₂ ∧ ∃ x₃,
      x₂.2.1.step (symbolicBuild false) (.encapsulate [2] 2048) (symbolicEnv 0) = .ok x₃ ∧
      ∃ id counter x, .data id counter x ∈ x₃.2.2 := by
    refine ⟨_, rfl, _, rfl, _, rfl, ?_⟩
    exact ⟨_, _, _, .head _⟩
  let l₁ : Label := ⟨.encapsulate [1] 2048, symbolicEnv 0, r₁, evs₁⟩
  let l₂ : Label :=
    ⟨.handle_verified_packet (.HandshakeResponse symbolicResp) 2048, symbolicEnv 0, r₂, evs₂⟩
  let l₃ : Label := ⟨.encapsulate [2] 2048, symbolicEnv 0, r₃, evs₃⟩
  have hspare₁ : ¬ symbolicTunn.OverwritesCurrent B l₁ := by
    intro ⟨⟨_, _, _, _, _, hreceived, _⟩, _⟩
    cases hreceived
  have hspare₂ : ¬ t₁.OverwritesCurrent B l₂ := by
    intro ⟨⟨_, _, _, _, _, hreceived, hinit, _⟩, _⟩
    cases hreceived
    cases hinit
  have hrun : Run (confirmingTunnel symbolic B) symbolicTunn ([] ++ [l₁] ++ [l₂]) t₂ :=
    .snoc (.snoc .nil ⟨hstep₁, hspare₁⟩) ⟨hstep₂, hspare₂⟩
  have hnew : symbolicTunn.IsNew 0 := ⟨_, _, _, _, _, _, _, _, _, rfl⟩
  have hthird : (tunnel symbolic B).step t₂ l₃ t₃ := hstep₃
  exact ⟨l₁, l₂, l₃, t₁, t₂, t₃, id, counter, x, hstep₁, hstep₂, hthird, rfl, hdata,
    sends_confirmed hnew hrun hthird hdata⟩

/-! ### Eight initiations of the peer -/

/-- After `k` initiations of the peer, with timestamps of 1 to `k` nanoseconds. -/
structure AfterInitiations (k : Nat) (t : Tunn symbolic) : Prop where
  params : t.handshake.params = symbolicTunn.handshake.params
  last : t.handshake.last_handshake_timestamp = ⟨0, k⟩
  next_index : t.handshake.next_index = UInt32.ofNat (256 + k)
  current : t.current = 0
  mac1_key : t.rate_limiter.mac1_key = symbolicTunn.rate_limiter.mac1_key
  limit : t.rate_limiter.limit = 10
  count : t.rate_limiter.count = k

theorem afterInitiations_zero : AfterInitiations 0 symbolicTunn :=
  ⟨rfl, rfl, rfl, rfl, rfl, rfl, rfl⟩

/-- The next one is accepted and answered with a new session. -/
theorem AfterInitiations.next {k : Nat} {t : Tunn symbolic} (h : AfterInitiations k t) (hk : k < 10)
    (B : Build) (env : Env) :
    ∃ l t' session, (tunnel symbolic B).step t l t' ∧
      l.op = .decapsulate none (symbolicDatagram (UInt8.ofNat (k + 1))) 2048 ∧
      (∀ id, ¬ Confirmed l.events id) ∧ AfterInitiations (k + 1) t' ∧
      session.receiving_index = UInt32.ofNat (257 + k) ∧
      t'.sessions (slot session.local_index) = some session := by
  obtain ⟨c, hc, hts⟩ : ∃ c, (consume symbolic .classical symbolicTunn.handshake.params ⟨0, k⟩
      (symbolicInit (UInt8.ofNat (k + 1))) none).run = .ok (.ok c) ∧
      c.timestamp = ⟨0, k + 1⟩ := by
    interval_cases k <;> exact ⟨_, rfl, rfl⟩
  have hindex : inc_index (UInt32.ofNat (256 + k)) = UInt32.ofNat (257 + k) := by
    interval_cases k <;> rfl
  rw [← h.params, ← h.last] at hc
  have hencaps : (Variant.classical.encapsulate symbolic none env.mlkem_seed).run =
      .ok (.ok none) :=
    rfl
  obtain ⟨m, h', session, x, hcall, hparams, hlast, hnext, hreceiving⟩ : ∃ m h' session x,
      t.handshake.receive_initialization .classical
        (symbolicInit (UInt8.ofNat (k + 1))) none 2048 env
        = .ok (.ok (m, session), h', [.generated env.ephemeral,
          .handshake .encrypted_nothing env.ephemeral x,
          .established false session.id env.ephemeral]) ∧
      h'.params = t.handshake.params ∧ h'.last_handshake_timestamp = c.timestamp ∧
      h'.next_index = inc_index t.handshake.next_index ∧
      session.receiving_index = inc_index t.handshake.next_index := by
    obtain ⟨mac2, msg, cookies, _, _, hcall⟩ := Handshake.receive_initialization_ok
      symbolic_correct.toSized hc hencaps (by decide : Variant.classical.resp_size ≤ 2048) rfl rfl
    exact ⟨_, _, _, _, hcall, rfl, rfl, rfl, rfl⟩
  have hload : t.rate_limiter.count < t.rate_limiter.limit := by
    rw [h.count, h.limit]
    exact hk
  have hstep := decapsulate_symbolicDatagram (B := B) h.mac1_key hload
      (UInt8.ofNat (k + 1)) 2048 env
  rw [hcall, Outcome.ok_bind] at hstep
  let l : Label := ⟨.decapsulate none (symbolicDatagram (UInt8.ofNat (k + 1))) 2048, env,
    .WriteToNetwork m, [.generated env.ephemeral, .handshake .encrypted_nothing env.ephemeral x,
      .established false session.id env.ephemeral]⟩
  refine ⟨l, _, session, hstep, rfl, ?_, ⟨?_, ?_, ?_, h.current, h.mac1_key, h.limit, ?_⟩, ?_, ?_⟩
  · simp [Confirmed, l]
  · exact hparams.trans h.params
  · exact hlast.trans hts
  · show h'.next_index = _
    rw [hnext, h.next_index, hindex, show 257 + k = 256 + (k + 1) by omega]
  · show (t.rate_limiter.count + 1) % 2 ^ 64 = _
    rw [h.count]
    omega
  · rw [hreceiving, h.next_index, hindex]
  · exact Function.update_self ..

/-- A run of `k` initiations confirms no session. -/
theorem run_initiations (B : Build) (env : Env) (k : Nat) (hk : k ≤ 10) :
    ∃ tr t, Run (tunnel symbolic B) symbolicTunn tr t ∧ AfterInitiations k t ∧
      ∀ id, ¬ Confirmed (events tr) id := by
  induction k with
  | zero => exact ⟨[], symbolicTunn, .nil, afterInitiations_zero, by simp [Confirmed]⟩
  | succ k ih =>
    obtain ⟨tr, t, hrun, hafter, hnot⟩ := ih (Nat.le_of_succ_le hk)
    obtain ⟨l, t', session, hstep, _, hquiet, hafter', _⟩ := hafter.next hk B env
    refine ⟨tr ++ [l], t', .snoc hrun hstep, hafter', ?_⟩
    intro id hconfirmed
    rw [events_snoc, confirmed_append] at hconfirmed
    exact hconfirmed.elim (hnot id) (hquiet id)

/-- The session of the eighth initiation takes the slot of `current`, and the next packet is
    sealed on it. -/
theorem sends_unconfirmed :
    let B := symbolicBuild false
    let env := symbolicEnv 0
    ∃ tr t r t' id counter x, Run (tunnel symbolic B) symbolicTunn tr t ∧
      t.step B (.encapsulate [1] 2048) env = .ok (r, t', [.data id counter x]) ∧
      ¬ Confirmed (events tr ++ [.data id counter x]) id := by
  intro B env
  obtain ⟨tr, t, hrun, hafter, hnot⟩ := run_initiations B env 7 (by decide)
  obtain ⟨l, t', session, hstep, _, hquiet, hafter', hindex, hsession⟩ :=
    hafter.next (by decide) B env
  have hslot : slot session.local_index = slot t'.current := by
    rw [hafter'.current, Session.local_index, hindex]
    rfl
  rw [hslot] at hsession
  have hencapsulate : t'.step B (.encapsulate [1] 2048) env
      = .ok (.WriteToNetwork (session.datagram symbolic [1]), t'.after_send B session [1],
        [.data session.id session.sending_key_counter (session.packet_seal symbolic [1])]) := by
    show t'.encapsulate B [1] 2048 env = _
    unfold encapsulate
    rw [hsession]
    dsimp only
    rw [session.format_packet_data_eq [1] (by decide), Outcome.ok_bind]
    rfl
  refine ⟨tr ++ [l], t', _, _, session.id, _, _, .snoc hrun hstep, hencapsulate, ?_⟩
  intro hconfirmed
  rw [events_snoc, confirmed_append, confirmed_append] at hconfirmed
  rcases hconfirmed with (hearlier | hlast) | hsent
  · exact hnot _ hearlier
  · exact hquiet _ hlast
  · simp [Confirmed] at hsent

end Tunn

end PqBoringtun
