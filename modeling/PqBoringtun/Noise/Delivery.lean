import PqBoringtun.Noise.Completeness
import PqBoringtun.Noise.NonceUniqueness
import PqBoringtun.Noise.ReplayWindow
import PqBoringtun.Noise.Sources

/-! # Delivery between two tunnels

    Two tunnels configured for each other run over a network that does what
    it likes with the datagrams.  With ideal encryption, what one hands to
    its interface the other one has sealed, and no sealed packet is handed
    over twice.

    * Section 1: no session opens a counter twice, whatever happens to the
      ring.
    * Section 2: who can have sealed a packet that opens.
    * Section 3: the two tunnels.
    * Section 4: a packet that is delivered twice after a failed flush.
-/

namespace PqBoringtun

open Window ReceivingKeyCounterValidator

variable {C : Crypto} {B : Build} {P : NoiseParams C → Prop} {log evs : List Event}
  {w w' : View C}

/-! ## Section 1: Counters are opened once -/

/-- Session, counter and plaintext of an opened packet. -/
def Event.opened? : Event → Option (SessionId × Nat × Bytes)
  | .opened id n plaintext _ => some (id, n, plaintext)
  | _ => none

/-- The packets opened. -/
def opened (log : List Event) : List (SessionId × Nat × Bytes) := log.filterMap Event.opened?

/-- The counters opened on a session. -/
def openedOn (id : SessionId) (log : List Event) : Finset ℕ :=
  (((opened log).filter fun x => x.1 = id).map fun x => x.2.1).toFinset

theorem opened_append (log log' : List Event) : opened (log ++ log') = opened log ++
    opened log' := by
  simp [opened]

theorem mem_opened {id : SessionId} {n : Nat} {plaintext : Bytes} :
    (id, n, plaintext) ∈ opened log ↔ ∃ ct, .opened id n plaintext ct ∈ log := by
  simp only [opened, List.mem_filterMap]
  constructor
  · rintro ⟨ev, hev, h⟩
    cases ev with
    | opened id' n' p' ct =>
      cases h
      exact ⟨ct, hev⟩
    | _ => cases h
  · rintro ⟨ct, h⟩
    exact ⟨_, h, rfl⟩

theorem mem_openedOn {id : SessionId} {n : Nat} :
    n ∈ openedOn id log ↔ ∃ plaintext ct, .opened id n plaintext ct ∈ log := by
  simp only [openedOn, List.mem_toFinset, List.mem_map, List.mem_filter, decide_eq_true_eq]
  constructor
  · rintro ⟨⟨id', n', p⟩, ⟨hmem, rfl⟩, rfl⟩
    exact ⟨p, mem_opened.mp hmem⟩
  · rintro ⟨p, hmem⟩
    exact ⟨(id, n, p), ⟨mem_opened.mpr hmem, rfl⟩, rfl⟩

/-- Events that open nothing on the session. -/
theorem openedOn_append {id : SessionId} (h : ∀ n p ct, .opened id n p ct ∉ evs) :
    openedOn id (log ++ evs) = openedOn id log := by
  ext n
  simp only [mem_openedOn, List.mem_append]
  constructor
  · rintro ⟨p, ct, hmem | hmem⟩
    · exact ⟨p, ct, hmem⟩
    · exact absurd hmem (h n p ct)
  · rintro ⟨p, ct, hmem⟩
    exact ⟨p, ct, Or.inl hmem⟩

theorem openedOn_snoc (id : SessionId) (n : Nat) (p ct : Bytes) :
    openedOn id (log ++ [.opened id n p ct]) = insert n (openedOn id log) := by
  ext m
  simp only [mem_openedOn, List.mem_append, List.mem_singleton, Event.opened.injEq, true_and,
    Finset.mem_insert]
  constructor
  · rintro ⟨p', ct', hmem | ⟨rfl, _⟩⟩
    · exact Or.inr ⟨p', ct', hmem⟩
    · exact Or.inl rfl
  · rintro (rfl | ⟨p', ct', hmem⟩)
    · exact ⟨p, ct, Or.inr ⟨rfl, rfl, rfl⟩⟩
    · exact ⟨p', ct', Or.inl hmem⟩

/-- Counters stay below the bound of the replay window. -/
def CountersBelow (log : List Event) : Prop :=
  ∀ id n p ct, .opened id n p ct ∈ log → n < 2 ^ 64 - N_BITS

theorem CountersBelow.bounded (h : CountersBelow log) (id : SessionId) :
    Bounded (openedOn id log) := by
  intro n hn
  obtain ⟨p, ct, hmem⟩ := mem_openedOn.mp hn
  exact h id n p ct hmem

/-- The windows of the ring track what was opened, and no session opened a counter twice. -/
structure OpenInv (log : List Event) (w : View C) : Prop where
  tracks : ∀ i s, w.sessions i = some s → Tracks s.receiving_key_counter (openedOn s.id log)
  established : ∀ id n p ct, .opened id n p ct ∈ log → ∃ b e, .established b id e ∈ log
  once : ((opened log).map fun x => (x.1, x.2.1)).Nodup

namespace OpenInv

theorem nil (h : ∀ i, w.sessions i = none) : OpenInv [] w :=
  ⟨fun i s hs => (by rw [h i] at hs; cases hs), nofun, List.nodup_nil⟩

/-- Events that open nothing. -/
theorem extend (I : OpenInv log w) (hevs : ∀ id n p ct, .opened id n p ct ∉ evs)
    (hsessions : ∀ i s, w'.sessions i = some s →
      Tracks s.receiving_key_counter (openedOn s.id log)) : OpenInv (log ++ evs) w' where
  tracks := by
    intro i s hs
    rw [openedOn_append (hevs s.id)]
    exact hsessions i s hs
  established := by
    intro id n p ct hmem
    rcases List.mem_append.mp hmem with hmem | hmem
    · obtain ⟨b, e, hest⟩ := I.established id n p ct hmem
      exact ⟨b, e, List.mem_append_left _ hest⟩
    · exact absurd hmem (hevs id n p ct)
  once := by
    have hnone : opened evs = [] := by
      refine List.eq_nil_iff_forall_not_mem.mpr fun ⟨id, n, p⟩ hmem => ?_
      obtain ⟨ct, hct⟩ := mem_opened.mp hmem
      exact hevs id n p ct hct
    rw [opened_append, hnone, List.append_nil]
    exact I.once

/-- Sessions are dropped. -/
theorem drop (I : OpenInv log w) (hevs : ∀ id n p ct, .opened id n p ct ∉ evs)
    (h : ∀ i, w'.sessions i = w.sessions i ∨ w'.sessions i = none) : OpenInv (log ++ evs) w' := by
  refine I.extend hevs fun i s hs => ?_
  rcases h i with hi | hi
  · exact I.tracks i s (hi ▸ hs)
  · rw [hi] at hs
    cases hs

/-- A session is put at `k` whose window tracks what was opened on it. -/
theorem store (I : OpenInv log w) (hevs : ∀ id n p ct, .opened id n p ct ∉ evs)
    {k : Fin N_SESSIONS} {session : Session}
    (hsessions : w'.sessions = Function.update w.sessions k (some session))
    (htracks : Tracks session.receiving_key_counter (openedOn session.id log)) :
    OpenInv (log ++ evs) w' := by
  refine I.extend hevs fun i s hs => ?_
  rw [hsessions] at hs
  by_cases hi : i = k
  · subst hi
    rw [Function.update_self] at hs
    cases hs
    exact htracks
  · rw [Function.update_of_ne hi] at hs
    exact I.tracks i s hs

/-- A new session has opened nothing. -/
theorem tracks_new (I : OpenInv log w) {id : SessionId}
    (hnew : ∀ b e, .established b id e ∉ log) : Tracks default (openedOn id log) := by
  have hempty : openedOn id log = ∅ := by
    refine Finset.eq_empty_of_forall_notMem fun n hn => ?_
    obtain ⟨p, ct, hmem⟩ := mem_openedOn.mp hn
    obtain ⟨b, e, hest⟩ := I.established id n p ct hmem
    exact hnew b e hest
  rw [hempty]
  exact tracks_default

/-- **A packet is accepted**: its counter is new. -/
theorem receive (I : OpenInv log w) (hring : RingInv log w) {k : Fin N_SESSIONS}
    {session : Session} (hsession : w.sessions k = some session) {packet : PacketData}
    {plaintext ct : Bytes} {v : ReceivingKeyCounterValidator}
    (haccepts : session.Accepts C B packet plaintext v)
    (hbelow : CountersBelow (log ++ [.opened session.id packet.counter plaintext ct]))
    (hsessions : w'.sessions = Function.update w.sessions k (some (session.received v))) :
    OpenInv (log ++ [.opened session.id packet.counter plaintext ct]) w' := by
  have hcounter : packet.counter < 2 ^ 64 - N_BITS :=
    hbelow session.id _ plaintext ct (List.mem_append_right _ List.mem_cons_self)
  have hbounded : Bounded (openedOn session.id log) :=
    CountersBelow.bounded (fun id n p ct hmem => hbelow id n p ct (List.mem_append_left _ hmem)) _
  have hmark := mark_did_receive_spec B (I.tracks k session hsession) hbounded hcounter
  rw [haccepts.marked] at hmark
  obtain ⟨hacceptable, htracks⟩ : Acceptable N_BITS (openedOn session.id log) packet.counter ∧
      Tracks v (insert packet.counter (openedOn session.id log)) := by
    rcases hmark with ⟨hacc, v', heq, htracks⟩ | ⟨_, e, heq⟩
    · cases heq
      exact ⟨hacc, htracks⟩
    · cases heq
  refine ⟨fun i s hs => ?_, fun id n p ct' hmem => ?_, ?_⟩
  · rw [hsessions] at hs
    by_cases hi : i = k
    · subst hi
      rw [Function.update_self] at hs
      cases hs
      rw [Session.id_received, openedOn_snoc]
      exact ⟨htracks.next_eq, htracks.bits⟩
    · rw [Function.update_of_ne hi] at hs
      have hid : s.id ≠ session.id := fun heq => hi (hring.ne i k s session hs hsession heq)
      rw [openedOn_append (by simp [hid])]
      exact I.tracks i s hs
  · rcases List.mem_append.mp hmem with hmem | hmem
    · obtain ⟨b, e, hest⟩ := I.established id n p ct' hmem
      exact ⟨b, e, List.mem_append_left _ hest⟩
    · cases List.mem_singleton.mp hmem
      obtain ⟨b, e, hest⟩ := hring.established k session hsession
      exact ⟨b, e, List.mem_append_left _ hest⟩
  · rw [opened_append, List.map_append]
    refine List.nodup_append.mpr ⟨I.once, List.nodup_singleton _, ?_⟩
    intro x hx y hy
    obtain ⟨⟨id, n, p⟩, hmem, rfl⟩ := List.mem_map.mp hx
    obtain rfl : y = (session.id, packet.counter) := List.mem_singleton.mp hy
    intro heq
    obtain ⟨rfl, rfl⟩ := Prod.mk.inj heq
    exact hacceptable.1 (mem_openedOn.mpr ⟨p, mem_opened.mp hmem⟩)

end OpenInv

/-- A session established by the last events was not established before. -/
theorem LogInv.established_new (hC : C.Ideal) (hfresh : FreshLog C B (log ++ evs))
    (I : LogInv P (log ++ evs)) {b : Bool} {id : SessionId} {e : Bytes}
    (h : .established b id e ∈ evs) (b' : Bool) (e' : Bytes) : .established b' id e' ∉ log := by
  intro h'
  obtain ⟨he, p, _, hk, _⟩ := I.established b id e (List.mem_append_right _ h)
  obtain ⟨he', p', _, hk', _⟩ := I.established b' id e' (List.mem_append_left _ h')
  -- One sending key, so one ephemeral, which would be in both parts of the log.
  obtain rfl : e = e' := hfresh.public_inj he he' (hk.unique hC hk' trivial trivial).2
  have honce := I.once
  rw [establishments_append, List.map_append] at honce
  exact (List.nodup_append.mp honce).2.2 _ (List.mem_map_of_mem (mem_establishments.mpr h')) _
    (List.mem_map_of_mem (mem_establishments.mpr h)) rfl

/-- **Every move keeps the windows right.** -/
theorem OpenInv.move (hC : C.Ideal) (hfresh : FreshLog C B (log ++ evs))
    (hbelow : CountersBelow (log ++ evs)) (hkey : KeyInv P log w) (hkey' : KeyInv P (log ++ evs) w')
    (I : OpenInv log w) (h : Move B w evs w') : OpenInv (log ++ evs) w' := by
  cases h with
  | initiate e seed timestamp time => exact I.drop (by simp) fun _ => Or.inl rfl
  | stall v packet ek c hc => exact I.drop (by simp) fun _ => Or.inl rfl
  | refuse v packet ek c e hc => exact I.drop (by simp) fun _ => Or.inl rfl
  | respond v packet ek c e seed kem r session hc hkem hr hsession =>
    subst hsession
    exact I.store (by simp) rfl
      (I.tracks_new (hkey'.keys.established_new hC hfresh (b := false) (e := e) (by simp)))
  | complete v s is_previous packet ct rk sk session current hslot _ hkeys hsession _ =>
    subst hsession
    exact I.store (by simp) rfl
      (I.tracks_new (hkey'.keys.established_new hC hfresh (b := true) (e := s.ephemeral_private)
        (by simp)))
  | send session src hsession =>
    exact I.store (by simp) rfl (I.tracks _ session hsession)
  | receive session packet plaintext v current hsession haccepts _ =>
    exact I.receive hkey.ring hsession haccepts hbelow rfl

/-- What a run of one of the tunnels relies on. -/
structure Sound (C : Crypto) (B : Build) (tr : List Label) : Prop where
  fresh : FreshLog C B (events tr)
  below : CountersBelow (events tr)
  static : ∀ l ∈ tr, ∀ a b c, l.op ≠ .set_static_private a b c

theorem Sound.of_snoc {tr : List Label} {l : Label} (h : Sound C B (tr ++ [l])) : Sound C B tr where
  fresh := by
    have hfresh := h.fresh
    rw [events_snoc] at hfresh
    exact hfresh.of_append
  below := by
    have hbelow := h.below
    rw [events_snoc] at hbelow
    exact fun id n p ct hmem => hbelow id n p ct (List.mem_append_left _ hmem)
  static := fun l' hl' => h.static l' (List.mem_append_left _ hl')

/-- **Both invariants hold along every run of a tunnel with a fixed static key.** -/
theorem Tunn.run_openInv (hC : C.Ideal) {t₀ t : Tunn C} {tr : List Label}
    (hkey : KeyInv P [] t₀.view) (hopen : OpenInv [] t₀.view) (hrun : Run (tunnel C B) t₀ tr t)
    (htr : Sound C B tr) : KeyInv P (events tr) t.view ∧ OpenInv (events tr) t.view := by
  refine hrun.invariant_of (A := fun tr => Sound C B tr)
    (I := fun tr (t : Tunn C) => KeyInv P (events tr) t.view ∧ OpenInv (events tr) t.view)
    Sound.of_snoc ⟨hkey, hopen⟩ ?_ htr
  intro tr t l t' htr I hstep
  have hfresh := htr.fresh
  have hbelow := htr.below
  rw [events_snoc] at hfresh hbelow ⊢
  have hworks := Tunn.step_works (htr.static l (by simp)) hstep
  have hkey' := I.1.works hC hfresh hworks
  refine ⟨hkey', ?_⟩
  obtain ⟨w₁, hq, hacts⟩ := hworks
  have hopen₁ : OpenInv (events tr) w₁ := by
    have hdrop : OpenInv (events tr ++ []) w₁ := I.2.drop (by simp) hq.sessions
    rwa [List.append_nil] at hdrop
  rcases hacts with ⟨heq, hevs⟩ | hmove
  · rw [heq, hevs, List.append_nil]
    exact hopen₁
  · exact hopen₁.move hC hfresh hbelow (I.1.quiet hq) hkey' hmove

/-! ## Section 2: Who sealed a packet that opens -/

section keys
variable {p p' : NoiseParams C} {b b' : Bool} {e e' key : Bytes}

/-- A handshake field is not sealed with a receiving key. -/
theorem KeyFor.field_ne_receiving (hC : C.Ideal) {f : HandshakeField}
    (h : KeyFor C p (.field f) e key) (h' : KeyFor C p' (.receiving b) e' key) : False := by
  obtain ⟨htag, xs, hxs, hxs'⟩ := h.inputs_eq hC h'
  cases f <;> cases b <;>
    simp_all [Purpose.tag, Purpose.Inputs, responderInputs, initiatorInputs]

/-- A tunnel does not receive with a key it sends with: it would have exchanged keys with
    itself. -/
theorem KeyFor.sending_ne_receiving (hC : C.Ideal) (hD : C.DhInjective) {priv : Bytes}
    (hpeer : p.peer_static_public = C.x25519_public priv)
    (hne : p.peer_static_public ≠ p.static_public)
    (h : KeyFor C p (.sending b) e key) (h' : KeyFor C p (.receiving b') e' key) : False := by
  -- Both roles of one handshake: the ephemeral's Diffie-Hellman with the peer's static key is
  -- the one with the own static key.
  have hself : ∀ e ie, C.x25519_public e = ie →
      C.x25519 e p.peer_static_public = C.x25519 p.static_private ie → False := by
    intro e ie he hdh
    rw [← he, hD.dh_comm, hpeer] at hdh
    apply hne
    rw [hpeer, p.static_public_eq]
    exact hD.dh_inj e priv p.static_private hdh
  obtain ⟨htag, xs, hxs, hxs'⟩ := h.inputs_eq hC h'
  cases b <;> cases b'
  case false.false => cases htag
  case true.true => cases htag
  case true.false =>
    obtain ⟨re, rest, rfl⟩ := hxs
    obtain ⟨ie, rest', heq⟩ := hxs'
    simp only [initiatorInputs, responderInputs, List.cons_append, List.cons.injEq] at heq
    exact hself e ie heq.1 heq.2.1
  case false.true =>
    obtain ⟨ie, rest, rfl⟩ := hxs
    obtain ⟨re, rest', heq⟩ := hxs'
    simp only [initiatorInputs, responderInputs, List.cons_append, List.cons.injEq] at heq
    exact hself e' ie heq.1.symm heq.2.1.symm

end keys

/-! ## Section 3: Two tunnels -/

/-- Two new tunnels of two identities, configured for each other. -/
structure Peers (t₀ : Bool → Tunn C) : Prop where
  new : ∀ side, ∃ priv peer hpeer psk keepalive index limiter unix_time now env,
    t₀ side = Tunn.new C priv peer hpeer psk keepalive index limiter unix_time now env
  paired : Paired (t₀ false).handshake.params (t₀ true).handshake.params
  distinct : (t₀ false).handshake.params.static_public ≠ (t₀ true).handshake.params.static_public

/-- The two tunnels take turns; what they get as datagrams is up to the network. -/
def tunnels (C : Crypto) (B : Bool → Build) : System (Bool → Tunn C) (Bool × Label) :=
  System.interleave fun side => tunnel C (B side)

/-- The same, without failing flushes. -/
def flushingTunnels (C : Crypto) (B : Bool → Build) : System (Bool → Tunn C) (Bool × Label) :=
  System.interleave fun side => (tunnel C (B side)).guard fun t l => Tunn.FlushFits (B side) t l.op

/-- Ideal encryption along a run: a packet that opens was sealed by one of the two tunnels,
    under the same key and nonce. -/
def Authentic (tr : List (Bool × Label)) : Prop :=
  ∀ side id n plaintext ct, .opened id n plaintext ct ∈ events (labelsOf side tr) →
    ∃ side', ∃ s ∈ seals (events (labelsOf side' tr)), s.key = id.receiver ∧
      s.nonce = nonce_of_counter n ∧ s.plaintext = plaintext ∧ s.ciphertext = ct

variable {B : Bool → Build} {t₀ t : Bool → Tunn C} {tr : List (Bool × Label)}

namespace Peers

theorem peer (h : Peers t₀) (side : Bool) :
    (t₀ side).handshake.params.peer_static_public
      = C.x25519_public (t₀ !side).handshake.params.static_private ∧
    (t₀ side).handshake.params.peer_static_public ≠ (t₀ side).handshake.params.static_public := by
  cases side with
  | false =>
    rw [h.paired.peer]
    exact ⟨(t₀ true).handshake.params.static_public_eq, h.distinct.symm⟩
  | true =>
    rw [h.paired.peer_symm]
    exact ⟨(t₀ false).handshake.params.static_public_eq, h.distinct⟩

theorem queue_empty (h : Peers t₀) (side : Bool) : (t₀ side).packet_queue = [] := by
  obtain ⟨_, _, _, _, _, _, _, _, _, _, hnew⟩ := h.new side
  rw [hnew]
  rfl

/-- Each side keeps its invariants, with its parameters. -/
theorem inv (hC : C.Ideal) (h : Peers t₀) (hrun : Run (tunnels C B) t₀ tr t)
    (hsound : ∀ side, Sound C (B side) (labelsOf side tr)) (side : Bool) :
    KeyInv (· = (t₀ side).handshake.params) (events (labelsOf side tr)) (t side).view ∧
      OpenInv (events (labelsOf side tr)) (t side).view := by
  refine Tunn.run_openInv hC ?_ ?_ (hrun.component side) (hsound side)
  · obtain ⟨priv, peer, hpeer, psk, keepalive, index, limiter, unix_time, now, env, hnew⟩ :=
      h.new side
    rw [hnew]
    exact KeyInv.new _ _ hpeer _ _ _ _ _ _ _ rfl
  · obtain ⟨_, _, _, _, _, _, _, _, _, _, hnew⟩ := h.new side
    rw [hnew]
    exact OpenInv.nil fun _ => rfl

/-- **A packet that opens was sealed by the other tunnel**, on the session that sends with the
    receiving key, under the same counter. -/
theorem sealed_by_peer (hC : C.Ideal) (hD : C.DhInjective) (h : Peers t₀)
    (hrun : Run (tunnels C B) t₀ tr t) (hsound : ∀ side, Sound C (B side) (labelsOf side tr))
    (hauth : Authentic tr) {side : Bool} {id : SessionId} {n : Nat} {plaintext ct : Bytes}
    (hopened : .opened id n plaintext ct ∈ events (labelsOf side tr)) :
    ∃ id' s, .data id' n s ∈ events (labelsOf (!side) tr) ∧ id'.sender = id.receiver ∧
      s.plaintext = plaintext ∧ s.ciphertext = ct := by
  obtain ⟨side', s, hs, hkey, hnonce, hpt, hct⟩ := hauth side id n plaintext ct hopened
  obtain ⟨hkeys, hopen⟩ := h.inv hC hrun hsound side
  obtain ⟨hkeys', _⟩ := h.inv hC hrun hsound side'
  obtain ⟨b, e, hest⟩ := hopen.established id n plaintext ct hopened
  obtain ⟨_, p, hp, _, hreceiving⟩ := hkeys.keys.established b id e hest
  rcases mem_seals.mp hs with ⟨f, e', hmem⟩ | ⟨id', n', hmem⟩
  · obtain ⟨_, p', _, hfield⟩ := hkeys'.keys.handshake f e' s hmem
    rw [hkey] at hfield
    exact absurd hreceiving fun hr => hfield.field_ne_receiving hC hr
  · obtain ⟨hsender, hnonce', hn', b', e', hest'⟩ := hkeys'.keys.data id' n' s hmem
    -- The counters agree, because neither wraps.
    have hn : n < 2 ^ 64 - N_BITS := (hsound side).below id n plaintext ct hopened
    have hcount := (hsound side').fresh.below id'
    have hbits : 2 ^ (B side').usize_bits ≤ 2 ^ 64 :=
      Nat.pow_le_pow_right (by decide) (B side').usize_bits_le
    obtain rfl : n = n' := nonce_of_counter_injective (by omega) (by omega)
      (hnonce.symm.trans hnonce')
    have hmatch : id'.sender = id.receiver := hsender.symm.trans hkey
    by_cases hside : side' = side
    · subst hside
      obtain ⟨_, p', hp', hsending, _⟩ := hkeys.keys.established b' id' e' hest'
      obtain ⟨hpeer, hne⟩ := h.peer side'
      rw [hmatch, hp'] at hsending
      rw [hp] at hreceiving
      exact (hsending.sending_ne_receiving hC hD hpeer hne hreceiving).elim
    · obtain rfl : side' = !side := Bool.eq_not.mpr hside
      exact ⟨id', s, hmem, hmatch, hpt, hct⟩

/-- Over the whole run no receiving key is used twice with one counter. -/
theorem opened_once (hC : C.Ideal) (h : Peers t₀) (hrun : Run (tunnels C B) t₀ tr t)
    (hsound : ∀ side, Sound C (B side) (labelsOf side tr)) (side : Bool) :
    ((opened (events (labelsOf side tr))).map fun x => (x.1.receiver, x.2.1)).Nodup := by
  obtain ⟨hkeys, hopen⟩ := h.inv hC hrun hsound side
  have honce := hopen.once
  generalize hlog : events (labelsOf side tr) = log at *
  -- Sessions with one receiving key are one session.
  have hinj : ∀ x ∈ (opened log).map (fun x => (x.1, x.2.1)),
      ∀ y ∈ (opened log).map (fun x => (x.1, x.2.1)),
        (x.1.receiver, x.2) = (y.1.receiver, y.2) → x = y := by
    intro x hx y hy heq
    obtain ⟨⟨id, n, pt⟩, hmem, rfl⟩ := List.mem_map.mp hx
    obtain ⟨⟨id', n', pt'⟩, hmem', rfl⟩ := List.mem_map.mp hy
    obtain ⟨hreceiver, hcounter⟩ := Prod.mk.inj heq
    obtain ⟨ct, hev⟩ := mem_opened.mp hmem
    obtain ⟨ct', hev'⟩ := mem_opened.mp hmem'
    obtain ⟨b, e, hest⟩ := hopen.established id n pt ct hev
    obtain ⟨b', e', hest'⟩ := hopen.established id' n' pt' ct' hev'
    obtain ⟨he, p, _, _, hk⟩ := hkeys.keys.established b id e hest
    obtain ⟨he', p', _, _, hk'⟩ := hkeys.keys.established b' id' e' hest'
    rw [← show id.receiver = id'.receiver from hreceiver] at hk'
    obtain ⟨_, hpub⟩ := hk.receiving_unique hC hk'
    have hfresh := hlog ▸ (hsound side).fresh
    obtain rfl := hfresh.public_inj he he' hpub
    obtain ⟨_, rfl⟩ := hkeys.keys.established_unique hest hest'
    exact Prod.ext rfl hcounter
  have hmap := List.Nodup.map_on hinj honce
  rwa [List.map_map] at hmap

end Peers

/-- Does this call hand a packet to the interface whose plaintext is `src`? -/
def Label.delivers (src : Bytes) (l : Label) : Bool :=
  l.result.toTunnel?.isSome && (opened l.events).any fun x => x.2.2 = src

/-- How often a packet with plaintext `src` was handed to the interface. -/
def deliveredCount (src : Bytes) (tr : List Label) : Nat := tr.countP (Label.delivers src)

/-- Every delivery has opened a packet. -/
theorem deliveredCount_le (src : Bytes) (tr : List Label) :
    deliveredCount src tr ≤ ((opened (events tr)).filter fun x => x.2.2 = src).length := by
  induction tr with
  | nil => exact Nat.le_refl 0
  | cons l tr ih =>
    have hevents : events (l :: tr) = l.events ++ events tr := List.flatMap_cons
    rw [hevents, opened_append, List.filter_append, List.length_append]
    unfold deliveredCount at ih ⊢
    rw [List.countP_cons]
    have hone : (if l.delivers src = true then 1 else 0)
        ≤ ((opened l.events).filter fun x => x.2.2 = src).length := by
      split
      · rename_i hl
        obtain ⟨x, hx, hsrc⟩ := List.any_eq_true.mp (Bool.and_eq_true_iff.mp hl).2
        exact List.length_pos_of_mem (List.mem_filter.mpr ⟨hx, hsrc⟩)
      · exact Nat.zero_le _
    omega

/-- Key and counter of a data packet with plaintext `src`. -/
def Event.sealedAs (src : Bytes) : Event → Option (Bytes × Nat)
  | .data id n s => if s.plaintext = src then some (id.sender, n) else none
  | _ => none

theorem length_sealedAs (src : Bytes) (log : List Event) :
    (log.filterMap (Event.sealedAs src)).length = sealedCount src log := by
  rw [List.length_filterMap_eq_countP, sealedCount]
  refine List.countP_congr fun ev _ => ?_
  cases ev with
  | data id n s =>
    by_cases hsrc : s.plaintext = src <;> simp [Event.sealedAs, Event.seals, hsrc]
  | _ => simp [Event.sealedAs, Event.seals]

namespace Peers

/-- **A packet is opened at most as often as the other tunnel sealed it.** -/
theorem opened_le_sealed (hC : C.Ideal) (hD : C.DhInjective) (h : Peers t₀)
    (hrun : Run (tunnels C B) t₀ tr t) (hsound : ∀ side, Sound C (B side) (labelsOf side tr))
    (hauth : Authentic tr) (side : Bool) (src : Bytes) :
    ((opened (events (labelsOf side tr))).filter fun x => x.2.2 = src).length
      ≤ sealedCount src (events (labelsOf (!side) tr)) := by
  have hnodup : (((opened (events (labelsOf side tr))).filter fun x => x.2.2 = src).map
      fun x => (x.1.receiver, x.2.1)).Nodup :=
    (h.opened_once hC hrun hsound side).sublist (List.filter_sublist.map _)
  have hsub : (((opened (events (labelsOf side tr))).filter fun x => x.2.2 = src).map
      fun x => (x.1.receiver, x.2.1)) ⊆
        (events (labelsOf (!side) tr)).filterMap (Event.sealedAs src) := by
    intro x hx
    obtain ⟨⟨id, n, pt⟩, hmem, rfl⟩ := List.mem_map.mp hx
    obtain ⟨hmem, hpt⟩ := List.mem_filter.mp hmem
    obtain ⟨ct, hev⟩ := mem_opened.mp hmem
    obtain ⟨id', s, hdata, hmatch, hplain, _⟩ := h.sealed_by_peer hC hD hrun hsound hauth hev
    refine List.mem_filterMap.mpr ⟨_, hdata, ?_⟩
    rw [Event.sealedAs, if_pos (hplain.trans (of_decide_eq_true hpt)), hmatch]
  rw [← length_sealedAs, ← List.length_map (fun x : SessionId × Nat × Bytes =>
    (x.1.receiver, x.2.1))]
  exact (List.subperm_of_subset hnodup hsub).length_le

/-- **What a tunnel hands to its interface the other one was given.** -/
theorem delivered (hC : C.Ideal) (hD : C.DhInjective) (h : Peers t₀)
    (hrun : Run (tunnels C B) t₀ tr t) (hsound : ∀ side, Sound C (B side) (labelsOf side tr))
    (hauth : Authentic tr) {side : Bool} {l : Label} (hl : l ∈ labelsOf side tr) {packet : Bytes}
    {addr : IpAddr} (hr : l.result.toTunnel? = some (packet, addr)) :
    ∃ id n src ct len id' s, l.events = [.opened id n src ct] ∧ src ≠ [] ∧
      Tunn.ip_header src = some (len, addr) ∧ len ≤ src.length ∧ packet = src.take len ∧
      .data id' n s ∈ events (labelsOf (!side) tr) ∧ id'.sender = id.receiver ∧
      s.plaintext = src ∧ ∃ l' ∈ labelsOf (!side) tr, ∃ dst_len, l'.op =
        .encapsulate src dst_len := by
  obtain ⟨id, n, src, ct, len, hevents, hne, hheader, hlen, hpacket⟩ :=
    Tunn.run_delivers (hrun.component side) hl hr
  have hev : .opened id n src ct ∈ events (labelsOf side tr) :=
    List.mem_flatMap.mpr ⟨l, hl, by rw [hevents]; exact List.mem_cons_self⟩
  obtain ⟨id', s, hdata, hmatch, hplain, _⟩ := h.sealed_by_peer hC hD hrun hsound hauth hev
  have hsealed : 0 < sealedCount src (events (labelsOf (!side) tr)) :=
    List.countP_pos_iff.mpr ⟨_, hdata, by simpa [Event.seals] using hplain⟩
  have hcalls := Tunn.run_sources (hrun.component !side) (h.queue_empty _) src hne
    (Nat.add_pos_left hsealed _)
  obtain ⟨l', hl', hpasses⟩ := List.countP_pos_iff.mp hcalls
  refine ⟨id, n, src, ct, len, id', s, hevents, hne, hheader, hlen, hpacket, hdata, hmatch, hplain,
    l', hl', ?_⟩
  cases hop : l'.op with
  | encapsulate src' dst_len =>
    rw [hop] at hpasses
    exact ⟨dst_len, by rw [show src' = src by simpa [Op.passes] using hpasses]⟩
  | _ =>
    rw [hop] at hpasses
    cases hpasses

theorem of_flushing (hrun : Run (flushingTunnels C B) t₀ tr t) : Run (tunnels C B) t₀ tr t := by
  refine Run.mono ?_ hrun
  intro s l s' hst
  exact ⟨hst.1.1, hst.2⟩

/-- A packet is handed over at most as often as it was passed to `encapsulate`, if no flush
    fails. -/
theorem deliveredCount_le_callCount (hC : C.Ideal) (hD : C.DhInjective) (h : Peers t₀)
    (hrun : Run (flushingTunnels C B) t₀ tr t)
    (hsound : ∀ side, Sound C (B side) (labelsOf side tr)) (hauth : Authentic tr) (side : Bool)
    (src : Bytes) : deliveredCount src (labelsOf side tr) ≤
    callCount src (labelsOf (!side) tr) := by
  by_cases hempty : src = []
  · -- Keepalives are not handed to the interface.
    refine le_of_eq_of_le (List.countP_eq_zero.mpr fun l hl hdelivers => ?_) (Nat.zero_le _)
    obtain ⟨hsome, hany⟩ := Bool.and_eq_true_iff.mp hdelivers
    obtain ⟨⟨packet, addr⟩, hr⟩ := Option.isSome_iff_exists.mp hsome
    obtain ⟨id, n, plaintext, ct, len, hevents, hne, _⟩ :=
      Tunn.run_delivers ((of_flushing hrun).component side) hl hr
    rw [hevents] at hany
    exact hne (by simpa [opened, Event.opened?, hempty] using hany)
  · calc deliveredCount src (labelsOf side tr)
        ≤ ((opened (events (labelsOf side tr))).filter fun x => x.2.2 = src).length :=
          deliveredCount_le src _
      _ ≤ sealedCount src (events (labelsOf (!side) tr)) :=
          h.opened_le_sealed hC hD (of_flushing hrun) hsound hauth side src
      _ ≤ callCount src (labelsOf (!side) tr) :=
          (Nat.le_add_right _ _).trans
            (Tunn.run_accounted (hrun.component !side) (h.queue_empty _) src hempty)

/-- **Delivery is authentic and at most once**, in every run without failing flushes: what a
    tunnel hands to its interface is the part stated in its header of a packet that the other
    tunnel was given and sealed, on the matching session under the same counter; no receiving
    key and counter are opened twice; and a packet is handed over at most as often as it was
    passed to `encapsulate`. -/
theorem delivered_at_most_once (hC : C.Ideal) (hD : C.DhInjective) (h : Peers t₀)
    (hrun : Run (flushingTunnels C B) t₀ tr t)
    (hsound : ∀ side, Sound C (B side) (labelsOf side tr)) (hauth : Authentic tr) (side : Bool) :
    (∀ l ∈ labelsOf side tr, ∀ packet addr, l.result.toTunnel? = some (packet, addr) →
      ∃ id n src ct len id' s, l.events = [.opened id n src ct] ∧ src ≠ [] ∧
        Tunn.ip_header src = some (len, addr) ∧ len ≤ src.length ∧ packet = src.take len ∧
        .data id' n s ∈ events (labelsOf (!side) tr) ∧ id'.sender = id.receiver ∧
        s.plaintext = src ∧
        ∃ l' ∈ labelsOf (!side) tr, ∃ dst_len, l'.op = .encapsulate src dst_len) ∧
    ((opened (events (labelsOf side tr))).map fun x => (x.1.receiver, x.2.1)).Nodup ∧
    ∀ src, deliveredCount src (labelsOf side tr) ≤ callCount src (labelsOf (!side) tr) := by
  have hrun' := of_flushing hrun
  exact ⟨fun l hl packet addr hr => h.delivered hC hD hrun' hsound hauth hl hr,
    h.opened_once hC hrun' hsound side,
    h.deliveredCount_le_callCount hC hD hrun hsound hauth side⟩

end Peers

/-! ## Section 4: A failed flush -/

section failedFlush
open Tunn

/-- An IPv4 packet that is only a header. -/
def bareHeader : Bytes := [0x45, 0, 0, 20] ++ List.replicate 16 0

/-- All readings at time zero; the number tells the keys apart. -/
def peerEnv (b : UInt8) : Env := ⟨fun _ => 0, [b], [b], [], []⟩

/-- Two identities, configured for each other. -/
def symbolicPeers (side : Bool) : Tunn symbolic :=
  if side then
    Tunn.new symbolic [9] (symbolic.x25519_public [7])
      (symbolic_correct.public_length _) none none 2
      none 0 0 (peerEnv 0)
  else
    Tunn.new symbolic [7] (symbolic.x25519_public [9])
      (symbolic_correct.public_length _) none none 1
      none 0 0 (peerEnv 0)

theorem symbolicPeers_peers : Peers symbolicPeers where
  new := by
    intro side
    cases side
    · exact ⟨_, _, _, _, _, _, _, _, _, _, rfl⟩
    · exact ⟨_, _, _, _, _, _, _, _, _, _, rfl⟩
  paired := ⟨rfl, rfl, rfl⟩
  distinct := by decide

/-- The labels of a handshake that the first tunnel has started with `m`, up to the keepalive. -/
def handshakeLabels (m m₁ : Bytes) (x : Seal) (sa sb : Session) : List (Bool × Label) :=
  [(true, ⟨.decapsulate none m 2048, peerEnv 2, .WriteToNetwork m₁,
      [.generated [2], .handshake .encrypted_nothing [2] x, .established false sb.id [2]]⟩),
    (false, ⟨.decapsulate none m₁ 2048, peerEnv 3, .WriteToNetwork (sa.datagram symbolic []),
      [.established true sa.id [1],
        .data sa.id sa.sending_key_counter (sa.packet_seal symbolic [])]⟩),
    (true, ⟨.decapsulate none (sa.datagram symbolic []) 2048, peerEnv 4, .Done,
      [.opened sb.id sa.sending_key_counter [] (sa.packet_seal symbolic []).ciphertext]⟩)]

/-- The labels of a flush of the first tunnel and the delivery of what it sends. -/
def flushLabels (id : SessionId) (sx : Session) : List (Bool × Label) :=
  [(false, ⟨.decapsulate none [] 2048, peerEnv 5, .WriteToNetwork (sx.datagram symbolic bareHeader),
      [.data sx.id sx.sending_key_counter (sx.packet_seal symbolic bareHeader)]⟩),
    (true, ⟨.decapsulate none (sx.datagram symbolic bareHeader) 2048, peerEnv 6,
      .WriteToTunnelV4 bareHeader 0,
      [.opened id sx.sending_key_counter bareHeader
        (sx.packet_seal symbolic bareHeader).ciphertext]⟩)]

/-- The first tunnel can finish a handshake with the second one, to which nothing has happened. -/
structure Prepared (a : Tunn symbolic) : Prop where
  ready : a.Ready 0
  paired : Paired a.handshake.params (symbolicPeers true).handshake.params
  load : a.rate_limiter.count < a.rate_limiter.limit
  after : ∀ ts, Tai64N.parse (a.handshake.stamper.stamp 0) = .ok ts →
    ts.after (symbolicPeers true).handshake.last_handshake_timestamp = true

/-- Steps of a tunnel whose flushes have room are steps of `sys`. -/
def AllowsCalls (sys : Bool → System (Tunn symbolic) Label) : Prop :=
  ∀ side {s l s'}, (tunnel symbolic (symbolicBuild true)).step s l s' →
    FlushFits (symbolicBuild true) s l.op → (sys side).step s l s'

section run
variable {sys : Bool → System (Tunn symbolic) Label} {t₀ t : Bool → Tunn symbolic}
  {tr : List (Bool × Label)}

/-- One of the tunnels takes in a datagram, or flushes its queue; there is room for an
    initiation. -/
theorem run_decapsulate (hsys : AllowsCalls sys) (hrun : Run (System.interleave sys) t₀ tr t)
    (side : Bool)
    {d : Bytes} {env : Env} {r : TunnResult} {s' : Tunn symbolic} {evs : List Event}
    (hdec : (t side).decapsulate (symbolicBuild true) none d 2048 env = .ok (r, s', evs)) :
    Run (System.interleave sys) t₀ (tr ++ [(side, ⟨.decapsulate none d 2048, env, r, evs⟩)])
      (Function.update t side s') := by
  let l : Label := ⟨.decapsulate none d 2048, env, r, evs⟩
  have hstep : (tunnel symbolic (symbolicBuild true)).step (t side) l s' := hdec
  refine hrun.snoc_component (hsys side hstep ?_)
  intro addr dst_len hop _ _ _
  cases hop
  decide

/-- The first tunnel has just formed the initiation `m`: the handshake links the tunnels. -/
theorem run_handshake (hsys : AllowsCalls sys) (hrun : Run (System.interleave sys) t₀ tr t)
    {m : Bytes}
    (hformed : (t false).Formed (symbolicBuild true) (peerEnv 1) m) (ha : Prepared (t false))
    (hb : t true = symbolicPeers true) :
    ∃ t' m₁ x sa sb w, sa.sending_key_counter = 0 ∧ sa.sender = sb.receiver ∧
      Run (System.interleave sys) t₀ (tr ++ handshakeLabels m m₁ x sa sb) t' ∧
      (t' false).packet_queue = (t false).packet_queue ∧
      Linked (t' false) (t' true) (sa.sent (symbolicBuild true)) (sb.received w) := by
  have hready : (symbolicPeers true).Ready 0 := by
    refine ⟨⟨fun n => Nat.le_of_eq ?_, fun i => Nat.le_of_eq rfl, Nat.le_refl _⟩, rfl⟩
    cases n <;> rfl
  obtain ⟨m₁, b₁, x, a₂, b₃, sa, sb, w, hzero, hdec₁, hdec₂, hdec₃, hqueue, _, hlinked, _, _⟩ :=
    handshake_links symbolic_correct hformed ha.ready hready ha.paired ha.load (by decide) ha.after
      (show (symbolicBuild true).variant.resp_size ≤ 2048 by decide)
      (show DATA_OVERHEAD_SZ ≤ 2048 by decide) (show AEAD_SIZE ≤ 2048 by decide) none none none
      (peerEnv 2) (peerEnv 3) (peerEnv 4)
  rw [← hb] at hdec₁
  have run₁ := run_decapsulate hsys hrun true hdec₁
  have run₂ := run_decapsulate hsys run₁ false hdec₂
  have run₃ := run_decapsulate hsys run₂ true hdec₃
  refine ⟨Function.update (Function.update (Function.update t true b₁) false a₂) true b₃, m₁, x, sa,
    sb, w, hzero, hlinked.feeds.key, ?_, hqueue, hlinked⟩
  rw [List.append_assoc, List.append_assoc] at run₃
  exact run₃

/-- A flush of the first tunnel is delivered by the second. -/
theorem run_flush (hsys : AllowsCalls sys) (hrun : Run (System.interleave sys) t₀ tr t)
    {sx sy : Session}
    (hlinked : Linked (t false) (t true) sx sy) {rest : List Bytes}
    (hqueue : (t false).packet_queue = bareHeader :: rest)
    (hsmall : sx.sending_key_counter < 3) :
    ∃ t' w, Run (System.interleave sys) t₀ (tr ++ flushLabels sy.id sx) t' ∧
      (t' false).packet_queue = rest ∧
      Linked (t' false) (t' true) (sx.sent (symbolicBuild true)) (sy.received w) := by
  have hbits : sx.sending_key_counter + 1 < 2 ^ (symbolicBuild true).usize_bits :=
    show sx.sending_key_counter + 1 < 2 ^ 64 by omega
  have hbelow : sx.sending_key_counter + 1 < 2 ^ 64 - N_BITS :=
    show sx.sending_key_counter + 1 < 2 ^ 64 - 1024 by omega
  obtain ⟨a, b, w, hflush, hdec, hqueue', hlinked'⟩ := hlinked.flush symbolic_correct hqueue
    (show bareHeader.length + DATA_OVERHEAD_SZ ≤ 2048 by decide)
    (show bareHeader.length + AEAD_SIZE ≤ 2048 by decide) hbits hbelow none none (peerEnv 5)
    (peerEnv 6)
  have run₁ := run_decapsulate hsys hrun false hflush
  have run₂ := run_decapsulate hsys run₁ true hdec
  refine ⟨Function.update (Function.update t false a) true b, w, ?_, hqueue', hlinked'⟩
  rw [List.append_assoc] at run₂
  exact run₂

end run

/-- The events of the two tunnels: one handshake, and packets that the first one seals and the
    second one opens. -/
structure SealedExchange (tr : List (Bool × Label)) (sa sb : Session)
    (packets : List (Session × Bytes)) :
    Prop where
  sender : ∃ s s', events (labelsOf false tr) = [.generated [1], .handshake .encrypted_static [1] s,
    .handshake .encrypted_timestamp [1] s', .established true sa.id [1]] ++
      packets.map fun p => .data p.1.id p.1.sending_key_counter (p.1.packet_seal symbolic p.2)
  receiver : ∃ x, events (labelsOf true tr) = [.generated [2], .handshake .encrypted_nothing [2] x,
    .established false sb.id [2]] ++ packets.map fun p =>
      .opened sb.id p.1.sending_key_counter p.2 (p.1.packet_seal symbolic p.2).ciphertext
  ops : ∀ l ∈ tr, ∀ a b c, l.2.op ≠ .set_static_private a b c
  keys : ∀ p ∈ packets, p.1.sender = sb.receiver ∧ p.1.sending_key_counter < 2 ^ 64 - N_BITS
  length : packets.length < 2 ^ 32

namespace SealedExchange

variable {tr : List (Bool × Label)} {sa sb : Session} {packets : List (Session × Bytes)}

theorem sound (h : SealedExchange tr sa sb packets) (side : Bool) :
    Sound symbolic (symbolicBuild true) (labelsOf side tr) where
  fresh := by
    obtain ⟨s, s', hsender⟩ := h.sender
    obtain ⟨x, hreceiver⟩ := h.receiver
    have hlength := h.length
    have hcount : ∀ id, dataCount id (events (labelsOf side tr))
        < 2 ^ (symbolicBuild true).usize_bits := by
      intro id
      refine (List.countP_le_length ..).trans_lt ?_
      show _ < 2 ^ 64
      cases side with
      | false =>
        rw [hsender, List.length_append, List.length_map]
        show 4 + packets.length < _
        omega
      | true =>
        rw [hreceiver, List.length_append, List.length_map]
        show 3 + packets.length < _
        omega
    refine ⟨?_, hcount⟩
    cases side with
    | false =>
      have hnone : ephemerals (packets.map fun p => .data p.1.id p.1.sending_key_counter
          (p.1.packet_seal symbolic p.2)) = [] := by
        simp [ephemerals, Event.generated?]
      rw [hsender, ephemerals_append, hnone]
      exact List.nodup_singleton _
    | true =>
      have hnone : ephemerals (packets.map fun p => .opened sb.id p.1.sending_key_counter p.2
          (p.1.packet_seal symbolic p.2).ciphertext) = [] := by
        simp [ephemerals, Event.generated?]
      rw [hreceiver, ephemerals_append, hnone]
      exact List.nodup_singleton _
  below := by
    intro id n plaintext ct hmem
    obtain ⟨s, s', hsender⟩ := h.sender
    obtain ⟨x, hreceiver⟩ := h.receiver
    cases side with
    | false => simp [hsender] at hmem
    | true =>
      simp only [hreceiver, List.mem_append, List.mem_map, List.mem_cons, reduceCtorEq,
        List.not_mem_nil, or_false, false_or] at hmem
      obtain ⟨p, hp, heq⟩ := hmem
      cases heq
      exact (h.keys p hp).2
  static := fun l hl => h.ops _ (mem_labelsOf.mp hl)

theorem authentic (h : SealedExchange tr sa sb packets) : Authentic tr := by
  intro side id n plaintext ct hmem
  obtain ⟨s, s', hsender⟩ := h.sender
  obtain ⟨x, hreceiver⟩ := h.receiver
  cases side with
  | false => simp [hsender] at hmem
  | true =>
    simp only [hreceiver, List.mem_append, List.mem_map, List.mem_cons, reduceCtorEq,
      List.not_mem_nil, or_false, false_or] at hmem
    obtain ⟨p, hp, heq⟩ := hmem
    cases heq
    refine ⟨false, p.1.packet_seal symbolic p.2, ?_, (h.keys p hp).1, rfl, rfl, rfl⟩
    refine mem_seals.mpr (Or.inr ⟨p.1.id, p.1.sending_key_counter, ?_⟩)
    rw [hsender]
    exact List.mem_append_right _ (List.mem_map.mpr ⟨p, hp, rfl⟩)

end SealedExchange

/-- **A packet is delivered twice.**  The buffer has room for 1300 bytes: enough for the packet, not
    for a post-quantum initiation.  `encapsulate` queues the packet and fails; the flush after it
    queues it once more and puts it back.  It was passed to `encapsulate` once. -/
theorem delivered_twice :
    symbolic.Ideal ∧ symbolic.DhInjective ∧ Peers symbolicPeers ∧ ∃ tr t,
      Run (tunnels symbolic fun _ => symbolicBuild true) symbolicPeers tr t ∧
      (∀ side, Sound symbolic (symbolicBuild true) (labelsOf side tr)) ∧ Authentic tr ∧
      callCount bareHeader (labelsOf false tr) = 1 ∧
      deliveredCount bareHeader (labelsOf true tr) = 2 := by
  obtain ⟨a₁, a₂, a₃, m, s, s', hstep₁, hstep₂, hstep₃, hqueue, hprepared⟩ : ∃ a₁ a₂ a₃ m s s',
      (symbolicPeers false).step (symbolicBuild true) (.encapsulate bareHeader 1300) (peerEnv 1)
        = .ok (.Err .DestinationBufferTooSmall, a₁, []) ∧
      a₁.step (symbolicBuild true) (.decapsulate none [] 1300) (peerEnv 1) = .ok (.Done, a₂, []) ∧
      a₂.step (symbolicBuild true) (.format_handshake_initiation 2048 false) (peerEnv 1)
        = .ok (.WriteToNetwork m, a₃, [.generated [1], .handshake .encrypted_static [1] s,
          .handshake .encrypted_timestamp [1] s']) ∧
      a₃.packet_queue = [bareHeader, bareHeader] ∧ Prepared a₃ := by
    refine ⟨_, _, _, _, _, _, rfl, rfl, rfl, rfl, ?_, ⟨rfl, rfl, rfl⟩, by decide, ?_⟩
    · refine ⟨⟨fun n => Nat.le_of_eq ?_, fun i => Nat.le_of_eq rfl, Nat.le_refl _⟩, rfl⟩
      cases n <;> rfl
    · intro ts hts
      cases hts
      decide
  let l₁ : Label := ⟨.encapsulate bareHeader 1300, peerEnv 1, .Err .DestinationBufferTooSmall, []⟩
  let l₂ : Label := ⟨.decapsulate none [] 1300, peerEnv 1, .Done, []⟩
  let l₃ : Label := ⟨.format_handshake_initiation 2048 false, peerEnv 1, .WriteToNetwork m,
    [.generated [1], .handshake .encrypted_static [1] s, .handshake .encrypted_timestamp [1] s']⟩
  let sys : Bool → System (Tunn symbolic) Label := fun _ => tunnel symbolic (symbolicBuild true)
  have hsys : AllowsCalls sys := fun _ _ _ _ hstep _ => hstep
  have run₁ : Run (System.interleave sys) symbolicPeers ([] ++ [(false, l₁)]) _ :=
    Run.nil.snoc_component (l := l₁) hstep₁
  have run₂ := run₁.snoc_component (p := false) (l := l₂) hstep₂
  have run₃ := run₂.snoc_component (p := false) (l := l₃) hstep₃
  have hformed : a₃.Formed (symbolicBuild true) (peerEnv 1) m :=
    step_formed ⟨_, _, .tail _ (.head _)⟩ hstep₃
  obtain ⟨t₄, m₁, x, sa, sb, w₀, hzero, hkey, run₄, hqueue₄, hlinked₄⟩ :=
    run_handshake hsys run₃ hformed hprepared rfl
  have hone : (sa.sent (symbolicBuild true)).sending_key_counter = 1 := by
    rw [Session.sent, hzero]
    rfl
  obtain ⟨t₅, w₁, run₅, hqueue₅, hlinked₅⟩ := run_flush hsys run₄ hlinked₄ (hqueue₄.trans hqueue)
    (by omega)
  have htwo : ((sa.sent (symbolicBuild true)).sent (symbolicBuild true)).sending_key_counter =
      2 := by
    rw [Session.sent, hone]
    rfl
  obtain ⟨t₆, w₂, run₆, _, _⟩ := run_flush hsys run₅ hlinked₅ hqueue₅ (by omega)
  have hexchange : SealedExchange ([(false, l₁), (false, l₂), (false, l₃)] ++
      handshakeLabels m m₁ x sa sb ++ flushLabels sb.id (sa.sent (symbolicBuild true)) ++
      flushLabels sb.id ((sa.sent (symbolicBuild true)).sent (symbolicBuild true))) sa sb
      [(sa, []), (sa.sent (symbolicBuild true), bareHeader),
        ((sa.sent (symbolicBuild true)).sent (symbolicBuild true), bareHeader)] := by
    refine ⟨⟨s, s', rfl⟩, ⟨x, rfl⟩, ?_, ?_, by simp⟩
    · simp [handshakeLabels, flushLabels, l₁, l₂, l₃]
    · simp only [List.forall_mem_cons, hzero, hone, htwo]
      exact ⟨⟨hkey, by decide⟩, ⟨hkey, by decide⟩, ⟨hkey, by decide⟩, by simp⟩
  exact ⟨symbolic_ideal, symbolic_dhInjective, symbolicPeers_peers, _, t₆, run₆, hexchange.sound,
    hexchange.authentic, rfl, rfl⟩

/-- A packet is given to the first tunnel, which starts a handshake for it. -/
def queuedLabel (m : Bytes) (s s' : Seal) : Label :=
  ⟨.encapsulate bareHeader 2048, peerEnv 1, .WriteToNetwork m,
    [.generated [1], .handshake .encrypted_static [1] s, .handshake .encrypted_timestamp [1] s']⟩

/-- The handshake, and the flush that sends the packet. -/
def linkingLabels (m m₁ : Bytes) (x : Seal) (sa sb : Session) : List (Bool × Label) :=
  handshakeLabels m m₁ x sa sb ++ flushLabels sb.id (sa.sent (symbolicBuild true))

theorem queued_run : ∃ m s s' m₁ x sa sb t,
    Run (flushingTunnels symbolic fun _ => symbolicBuild true) symbolicPeers
      ([(false, queuedLabel m s s')] ++ linkingLabels m m₁ x sa sb) t ∧
    (∀ side, Sound symbolic (symbolicBuild true)
      (labelsOf side ([(false, queuedLabel m s s')] ++ linkingLabels m m₁ x sa sb))) ∧
    Authentic ([(false, queuedLabel m s s')] ++ linkingLabels m m₁ x sa sb) := by
  obtain ⟨a₁, m, s, s', hstep₁, hqueue, hprepared⟩ : ∃ a₁ m s s',
      (symbolicPeers false).step (symbolicBuild true) (.encapsulate bareHeader 2048) (peerEnv 1)
        = .ok (.WriteToNetwork m, a₁, [.generated [1], .handshake .encrypted_static [1] s,
          .handshake .encrypted_timestamp [1] s']) ∧
      a₁.packet_queue = [bareHeader] ∧ Prepared a₁ := by
    refine ⟨_, _, _, _, rfl, rfl, ?_, ⟨rfl, rfl, rfl⟩, by decide, ?_⟩
    · refine ⟨⟨fun n => Nat.le_of_eq ?_, fun i => Nat.le_of_eq rfl, Nat.le_refl _⟩, rfl⟩
      cases n <;> rfl
    · intro ts hts
      cases hts
      decide
  let sys : Bool → System (Tunn symbolic) Label := fun _ =>
    (tunnel symbolic (symbolicBuild true)).guard fun t l => FlushFits (symbolicBuild true) t l.op
  have hsys : AllowsCalls sys := fun _ _ _ _ hstep hfits => ⟨hstep, hfits⟩
  have run₁ : Run (System.interleave sys) symbolicPeers ([] ++ [(false, queuedLabel m s s')]) _ :=
    Run.nil.snoc_component (l := queuedLabel m s s') ⟨hstep₁, by intro addr dst_len hop; cases hop⟩
  have hformed : a₁.Formed (symbolicBuild true) (peerEnv 1) m :=
    step_formed ⟨_, _, .tail _ (.head _)⟩ hstep₁
  obtain ⟨t₂, m₁, x, sa, sb, w₀, hzero, hkey, run₂, hqueue₂, hlinked₂⟩ :=
    run_handshake hsys run₁ hformed hprepared rfl
  have hone : (sa.sent (symbolicBuild true)).sending_key_counter = 1 := by
    rw [Session.sent, hzero]
    rfl
  obtain ⟨t₃, w₁, run₃, _, _⟩ := run_flush hsys run₂ hlinked₂ (hqueue₂.trans hqueue) (by omega)
  have hexchange : SealedExchange ([(false, queuedLabel m s s')] ++
      linkingLabels m m₁ x sa sb) sa sb
      [(sa, []), (sa.sent (symbolicBuild true), bareHeader)] := by
    refine ⟨⟨s, s', rfl⟩, ⟨x, rfl⟩, ?_, ?_, by simp⟩
    · simp [linkingLabels, handshakeLabels, flushLabels, queuedLabel]
    · simp only [List.forall_mem_cons, hzero, hone]
      exact ⟨⟨hkey, by decide⟩, ⟨hkey, by decide⟩, by simp⟩
  rw [List.append_assoc] at run₃
  exact ⟨m, s, s', m₁, x, sa, sb, t₃, run₃, hexchange.sound, hexchange.authentic⟩

/-- Delivered once, over the session of the handshake that the packet has started. -/
theorem delivered_at_most_once_queued : ∃ tr t,
    Run (flushingTunnels symbolic fun _ => symbolicBuild true) symbolicPeers tr t ∧
    deliveredCount bareHeader (labelsOf true tr) = 1 ∧
    ∀ src, deliveredCount src (labelsOf true tr) ≤ callCount src (labelsOf false tr) := by
  obtain ⟨m, s, s', m₁, x, sa, sb, t, hrun, hsound, hauth⟩ := queued_run
  exact ⟨_, t, hrun, rfl, (symbolicPeers_peers.delivered_at_most_once symbolic_ideal
    symbolic_dhInjective hrun hsound hauth true).2.2⟩

end failedFlush

end PqBoringtun
