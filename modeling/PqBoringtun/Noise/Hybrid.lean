import PqBoringtun.Noise.Keys
import PqBoringtun.Noise.Symbolic

/-! # No downgrade of PQ initiations

    A PQ build only sends PQ initiations, and its slots remember the ML-KEM
    decapsulation key of each.  A classical response cannot complete one, so
    every session that the tunnel creates as initiator depends on an ML-KEM
    shared secret.

    * `OwnPq`: a slot that was filled by a PQ initiation of this run.
    * `HybridSession`: session keys with the shared secret mixed in.
    * `HybridInv`: the invariant of the machine.
-/

namespace PqBoringtun

open KeyChain

variable {C : Crypto} {B : Build}

/-- The slot of a PQ initiation in the log, with its ML-KEM seed. -/
def OwnPq (C : Crypto) (log : List Event) (s : HandshakeInitSentState) (seed : Bytes) : Prop :=
  ∃ (p : NoiseParams C) (idx : UInt32) (e timestamp : Bytes) (time : Nat),
    s = initSent C .pq p idx e seed timestamp time ∧
    .handshake .encrypted_static e
      (initiate C .pq p e timestamp (some (C.mlkem_keygen seed).2)).encrypted_static ∈ log

/-- The keys of a session created as initiator come from the chaining key of a
    PQ initiation of the log with own ephemeral `e`, with the shared secret mixed
    in that was decapsulated with the key of this initiation. -/
def HybridSession (C : Crypto) (log : List Event) (id : SessionId) (e : Bytes) : Prop :=
  ∃ (s : HandshakeInitSentState) (seed ct shared_secret re ee se psk : Bytes),
    OwnPq C log s seed ∧ s.ephemeral_private = e ∧
    C.mlkem_decapsulate (C.mlkem_keygen seed).1 ct = some shared_secret ∧
    id.receiver = (schedule C).derive .field s.chaining_key [re, ee, se, shared_secret, psk] [] ∧
    id.sender = (schedule C).derive .chain s.chaining_key [re, ee, se, shared_secret, psk] []

section log
variable {log log' : List Event} {s : HandshakeInitSentState} {seed : Bytes}

theorem OwnPq.append (h : OwnPq C log s seed) : OwnPq C (log ++ log') s seed := by
  obtain ⟨p, idx, e, timestamp, time, hs, hmem⟩ := h
  exact ⟨p, idx, e, timestamp, time, hs, List.mem_append_left _ hmem⟩

theorem OwnPq.decapsulation_key (h : OwnPq C log s seed) :
    s.mlkem_decapsulation_key = some (C.mlkem_keygen seed).1 := by
  obtain ⟨_, _, _, _, _, rfl, _⟩ := h
  rfl

theorem HybridSession.append {id : SessionId} {e : Bytes} (h : HybridSession C log id e) :
    HybridSession C (log ++ log') id e := by
  obtain ⟨s, seed, ct, ss, re, ee, se, psk, hown, hrest⟩ := h
  exact ⟨s, seed, ct, ss, re, ee, se, psk, hown.append, hrest⟩

end log

/-- Both slots and all sessions created as initiator are hybrid. -/
structure HybridInv (log : List Event) (w : View C) : Prop where
  state : ∀ s, w.state = .InitSent s → ∃ seed, OwnPq C log s seed
  previous : ∀ s, w.previous = .InitSent s → ∃ seed, OwnPq C log s seed
  sessions : ∀ id e, .established true id e ∈ log → HybridSession C log id e

namespace HybridInv

variable {log evs : List Event} {w w' : View C}

theorem holds (I : HybridInv log w) {s : HandshakeInitSentState} (hs : w.Holds s) :
    ∃ seed, OwnPq C log s seed := hs.elim (I.state s) (I.previous s)

/-- Slots that stay or move. -/
theorem keep (I : HybridInv log w) (hslots : ∀ s, w'.Holds s → w.Holds s) : HybridInv log w' :=
  ⟨fun s hs => I.holds (hslots s (Or.inl hs)), fun s hs => I.holds (hslots s (Or.inr hs)),
    I.sessions⟩

/-- The keys of an accepted response to a hybrid slot. -/
theorem complete_hybrid {p : NoiseParams C} {v : Variant} {s : HandshakeInitSentState}
    {seed : Bytes} (hown : OwnPq C log s seed) {packet : HandshakeResponse} {ct : Option Bytes}
    {rk sk : Bytes} (htype : v = .classical → s.mlkem_decapsulation_key = none)
    (hkeys : (Handshake.response_keys v p s packet ct).run = .ok (.ok (rk, sk))) :
    HybridSession C log (Session.new s.local_index packet.sender_idx rk sk).id
      s.ephemeral_private := by
  have hdk := hown.decapsulation_key
  obtain ⟨kem, hkem, hkeys⟩ := Attempt.run_bind_eq_ok.mp hkeys
  obtain ⟨_, rfl, rfl⟩ := complete_ok.mp hkeys
  cases v with
  | classical =>
    -- The guard: a classical response does not complete a PQ initiation.
    rw [htype rfl] at hdk
    cases hdk
  | pq =>
    rw [hdk] at hkem
    cases ct with
    | none => cases hkem
    | some ct =>
      dsimp only [Variant.decapsulate] at hkem
      cases hss : C.mlkem_decapsulate (C.mlkem_keygen seed).1 ct with
      | none =>
        rw [hss] at hkem
        cases hkem
      | some ss =>
        rw [hss] at hkem
        cases hkem
        exact ⟨s, seed, ct, ss, _, _, _, _, hown, rfl, hss, rfl, rfl⟩

theorem move (hpq : B.variant = .pq) (I : HybridInv log w) (hmove : Move B w evs w') :
    HybridInv (log ++ evs) w' := by
  have hslot : ∀ s, w'.Holds s → ∃ seed, OwnPq C (log ++ evs) s seed := by
    intro s hs
    rcases hmove.holds hs with hheld | ⟨e, seed, timestamp, time, rfl, hmem⟩
    · obtain ⟨seed, hown⟩ := I.holds hheld
      exact ⟨seed, hown.append⟩
    · rw [hpq] at hmem ⊢
      exact ⟨seed, w.params, _, e, timestamp, time, rfl, List.mem_append_right _ hmem⟩
  refine ⟨fun s hs => hslot s (Or.inl hs), fun s hs => hslot s (Or.inr hs), fun id e hmem => ?_⟩
  rcases List.mem_append.mp hmem with hmem | hmem
  · exact (I.sessions id e hmem).append
  · obtain ⟨v, s, packet, ct, rk, sk, hheld, htype, hkeys, rfl, rfl⟩ := hmove.completes hmem
    obtain ⟨seed, hown⟩ := I.holds hheld
    exact (complete_hybrid hown htype hkeys).append

theorem step (hpq : B.variant = .pq) (I : HybridInv log w) (h : (machine C B).step w evs w') :
    HybridInv (log ++ evs) w' := by
  rcases h with ⟨⟨params, _, _, rfl⟩, rfl⟩ | ⟨w₁, hq, ⟨rfl, rfl⟩ | hmove⟩
  · rw [List.append_nil]
    exact I.keep fun s hs => hs
  · rw [List.append_nil]
    exact I.keep fun s hs => hq.holds hs
  · exact (I.keep fun s hs => hq.holds hs).move hpq hmove

end HybridInv

/-- **No downgrade on the initiator's side.**  In every run of a PQ build,
    each slot with an own initiation holds an ML-KEM decapsulation key, so a
    classical response is never accepted, and the keys of every session that
    the tunnel created as initiator depend on the shared secret of its
    initiation. -/
theorem Tunn.no_downgrade (hpq : B.pq = true) {t₀ t : Tunn C} {start : Nat} {tr : List Label}
    (hnew : t₀.IsNew start) (hrun : Run (tunnel C B) t₀ tr t) :
    (∀ s, t.handshake.state = .InitSent s ∨ t.handshake.previous = .InitSent s →
      s.mlkem_decapsulation_key.isSome) ∧
    (∀ packet env result h' evs,
      t.handshake.receive_handshake_response packet env = .ok (result, h', evs) →
        ∃ e, result = .error e) ∧
    (∀ id e, .established true id e ∈ events tr → HybridSession C (events tr) id e) := by
  have hvariant : B.variant = .pq := by
    unfold Build.variant
    rw [if_pos hpq]
  have I : HybridInv (events tr) t.view := by
    refine hrun.invariant (I := fun tr (t : Tunn C) => HybridInv (events tr) t.view) ?_ ?_
    · obtain ⟨_, _, _, _, _, _, _, _, _, rfl⟩ := hnew
      exact ⟨nofun, nofun, nofun⟩
    · intro tr t l t' I hstep
      rw [events_snoc]
      exact I.step hvariant (Tunn.step_view hstep)
  have hslots : ∀ s, t.handshake.state = .InitSent s ∨ t.handshake.previous = .InitSent s →
      s.mlkem_decapsulation_key.isSome := by
    intro s hs
    obtain ⟨seed, hown⟩ : ∃ seed, OwnPq C (events tr) s seed := by
      rcases hs with hs | hs
      · exact I.state s hs
      · exact I.previous s hs
    rw [hown.decapsulation_key]
    rfl
  refine ⟨hslots, ?_, I.sessions⟩
  intro packet env result h' evs hcall
  cases Handshake.receive_response_cases hcall with
  | rejected e => exact ⟨e, rfl⟩
  | accepted s is_previous rk sk session hslot htype _ _ =>
    have hsome : s.mlkem_decapsulation_key.isSome := hslots s (response_slot_sent hslot)
    rw [htype rfl] at hsome
    cases hsome

/-- A tunnel of a PQ build sends an initiation and accepts a response. -/
theorem Tunn.no_downgrade_answered :
    let B := symbolicBuild true
    let response : PqHandshakeResponse :=
      { sender_idx := 5, receiver_idx := 257, unencrypted_ephemeral := List.replicate 32 0,
        encrypted_nothing := List.replicate 16 0, mlkem_ciphertext := List.replicate 1088 3,
        ephemeral_length := rfl, nothing_length := rfl, mlkem_length := List.length_replicate }
    ∃ r₁ t₁ evs₁ r₂ t₂ evs₂ id,
      symbolicTunn.step B (.format_handshake_initiation 2048 false) (symbolicEnv 0)
        = .ok (r₁, t₁, evs₁) ∧
      t₁.step B (.handle_verified_packet (.PqHandshakeResponse response) 2048) (symbolicEnv 0)
        = .ok (r₂, t₂, evs₂) ∧
      .established true id [1] ∈ evs₂ ∧ HybridSession symbolic (evs₁ ++ evs₂) id [1] := by
  intro B response
  obtain ⟨r₁, t₁, evs₁, r₂, t₂, evs₂, id, hstep₁, hstep₂, hmem⟩ : ∃ r₁ t₁ evs₁ r₂ t₂ evs₂ id,
      symbolicTunn.step B (.format_handshake_initiation 2048 false) (symbolicEnv 0)
        = .ok (r₁, t₁, evs₁) ∧
      t₁.step B (.handle_verified_packet (.PqHandshakeResponse response) 2048) (symbolicEnv 0)
        = .ok (r₂, t₂, evs₂) ∧
      .established true id [1] ∈ evs₂ := ⟨_, _, _, _, _, _, _, rfl, rfl, .head _⟩
  let l₁ : Label := ⟨.format_handshake_initiation 2048 false, symbolicEnv 0, r₁, evs₁⟩
  let l₂ : Label :=
    ⟨.handle_verified_packet (.PqHandshakeResponse response) 2048, symbolicEnv 0, r₂, evs₂⟩
  have hfirst : (tunnel symbolic B).step symbolicTunn l₁ t₁ := hstep₁
  have hsecond : (tunnel symbolic B).step t₁ l₂ t₂ := hstep₂
  have hrun : Run (tunnel symbolic B) symbolicTunn ([l₁] ++ [l₂]) t₂ :=
    .snoc (.snoc .nil hfirst) hsecond
  have hevents : events ([l₁] ++ [l₂]) = evs₁ ++ evs₂ := by simp [events, l₁, l₂]
  have hnew : symbolicTunn.IsNew 0 := ⟨_, _, _, _, _, _, _, _, _, rfl⟩
  have hhybrid := (Tunn.no_downgrade rfl hnew hrun).2.2 id [1]
    (by rw [hevents]; exact List.mem_append_right _ hmem)
  rw [hevents] at hhybrid
  exact ⟨r₁, t₁, evs₁, r₂, t₂, evs₂, id, hstep₁, hstep₂, hmem, hhybrid⟩

end PqBoringtun
