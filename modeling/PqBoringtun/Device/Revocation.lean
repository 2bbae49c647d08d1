import PqBoringtun.Device.Tables
import PqBoringtun.Noise.Pacing

/-! # Removed peers

    A handler in the event queue keeps its peer alive after the tables have
    forgotten it.  As long as its socket is open, it goes on decapsulating.

    * `Device.Sockets`: the invariant.  An open socket of a handler is the
      connected socket of a current peer.
    * `Device.revocation_complete`: it holds as long as peers are cleared only
      when none of them is connected; then a removed peer gets no datagrams.
    * `Device.cleared_peer_delivers`: otherwise it may get some.
-/

namespace PqBoringtun

open Bytes

namespace Device

variable {C : Crypto} {B : Build} {d d₁ d' : Device C} {r : PeerRef} {p p' : Peer C}
  {calls : List Call} {outputs : List Output}

/-! ## Section 1: Open sockets -/

/-- An open socket of a handler is the connected socket of a current peer. -/
def Sockets (d : Device C) : Prop :=
  ∀ h ∈ d.queue, h.udp ∉ d.shut →
    d.HasPeer h.peer ∧ ∃ p, d.heap[h.peer]? = some p ∧ p.endpoint.conn = some h.udp

/-- The peers are looked up through the tables. -/
theorem Tables.listed (h : d.Tables) (hlisted : d.Listed r) : d.HasPeer r := by
  rcases hlisted with hpeer | ⟨i, hi⟩ | ⟨a, ha⟩
  · exact hpeer
  · exact (h.peers_by_idx hi).1
  · obtain ⟨n, hn, _⟩ := AllowedIps.find_eq_some.mp ha
    exact h.peers_by_ip hn

namespace Sockets

/-- A peer keeps its socket, or gives it up and the socket is shut down. -/
theorem put {s : Option Socket} (h : d.Sockets) (hp : d.heap[r]? = some p)
    (hconn : p'.endpoint.conn = p.endpoint.conn ∨ s = p.endpoint.conn) :
    (d.put r (p', s)).Sockets := by
  intro handler hmem hopen
  have hboth : handler.udp ∉ s.toList ∧ handler.udp ∉ d.shut := by
    rw [← not_or, ← List.mem_append]
    exact hopen
  obtain ⟨hpeer, q, hq, hqconn⟩ := h handler hmem hboth.2
  refine ⟨hpeer, ?_⟩
  by_cases hr : r = handler.peer
  · subst hr
    obtain rfl := Option.some.inj (hp.symm.trans hq)
    refine ⟨p', getElem?_put hp, ?_⟩
    rcases hconn with hsame | hshut
    · exact hsame.trans hqconn
    · rw [hshut, hqconn] at hboth
      exact absurd (List.mem_singleton_self _) hboth.1
  · exact ⟨q, (List.getElem?_set_ne hr).trans hq, hqconn⟩

theorem act (h : d.Sockets) (htables : d.Tables) (hact : Act B d calls d') : d'.Sockets := by
  cases hact with
  | call hp _ _ => exact h.put hp (Or.inl rfl)
  | close hp => exact h.put hp (Or.inr rfl)
  | @move r p addr hp =>
    have hconn : (p.set_endpoint addr).1.endpoint.conn = p.endpoint.conn ∨
        (p.set_endpoint addr).2 = p.endpoint.conn := by
      unfold Peer.set_endpoint
      split
      · exact Or.inr rfl
      · exact Or.inl rfl
    exact h.put hp hconn
  | @connect r p ip hp hnone hlisted =>
    intro handler hmem hopen
    have hlt : r < d.heap.length := (List.getElem?_eq_some_iff.mp hp).1
    rcases List.mem_append.mp hmem with hold | hnew
    · obtain ⟨hpeer, q, hq, hqconn⟩ := h handler hold hopen
      refine ⟨hpeer, q, ?_, hqconn⟩
      -- The peer that is connected now had no socket, so it is another one.
      refine (List.getElem?_set_ne ?_).trans hq
      intro heq
      rw [heq] at hp
      obtain rfl := Option.some.inj (hp.symm.trans hq)
      cases hnone.symm.trans hqconn
    · obtain rfl := List.mem_singleton.mp hnew
      exact ⟨htables.listed hlisted, _, List.getElem?_set_self hlt, rfl⟩
  | limiter l => exact h
  | listen b port => exact h
  | mark mark => exact h
  | cancel handler => exact fun handler' hmem => h handler' (List.mem_of_mem_erase hmem)

/-- Handlers keep the invariant, and they call tunnels of current peers. -/
theorem acts (h : d.Sockets) (htables : d.Tables) (hacts : Acts B d calls d') :
    d'.Sockets ∧ ∀ {r : PeerRef} {l : Label}, (r, l) ∈ calls →
      d.HasPeer r ∨ ∃ count nonce_ctr last_reset, l.op = .shared count nonce_ctr last_reset := by
  induction hacts with
  | nil d => exact ⟨h, by simp⟩
  | @cons d d₁ d' calls calls' hact _ ih =>
    obtain ⟨hsockets, hcalls⟩ := ih (h.act htables hact) (htables.acts (.single hact))
    refine ⟨hsockets, ?_⟩
    intro r l hmem
    rcases List.mem_append.mp hmem with hmem | hmem
    · cases hact with
      | call hp hmay hstep =>
        cases List.mem_singleton.mp hmem
        rcases hmay with hshared | ⟨hlisted | ⟨handler, hqueue, rfl, hopen⟩, _⟩
        · exact Or.inr hshared
        · exact Or.inl (htables.listed hlisted)
        · exact Or.inl (h handler hqueue hopen).1
      | _ => cases hmem
    · have hsame : d₁.HasPeer r → d.HasPeer r := by
        unfold HasPeer
        rw [hact.same_tables.peers]
        exact id
      exact (hcalls hmem).imp_left hsame

end Sockets

/-! ## Section 2: Runs -/

/-- No current peer has a connected socket. -/
def Disconnected (d : Device C) : Prop :=
  ∀ {r : PeerRef} {p : Peer C}, d.HasPeer r → d.heap[r]? = some p → p.endpoint.conn = none

end Device

/-- A device whose peers are cleared only when none of them is connected. -/
def revocable (C : Crypto) (B : Build) : System (Device C) DeviceLabel :=
  (device C B).guard fun d l => l.op = .clear_peers → d.Disconnected

namespace Device

variable {C : Crypto} {B : Build} {d d₁ d' : Device C} {r : PeerRef} {p p' : Peer C}
  {calls : List Call} {outputs : List Output} {op : DeviceOp}

/-- A new key does not touch the endpoints. -/
theorem Sockets.set_static_private {private_key public_key : Bytes} {limiter : RateLimiter}
    {env : Env} {rs : List PeerRef} (h : d.Sockets)
    (hloop : d.set_static_private B private_key public_key limiter env rs = .ok (d', calls)) :
    d'.Sockets := by
  induction rs generalizing d calls with
  | nil =>
    cases hloop
    exact h
  | cons r rs ih =>
    obtain ⟨⟨_, d₁, calls₁⟩, hcall, hloop⟩ := Outcome.bind_eq_ok.mp hloop
    obtain ⟨⟨d₂, calls₂⟩, hrest, hloop⟩ := Outcome.bind_eq_ok.mp hloop
    cases hloop
    obtain ⟨p, tunnel, events, hp, _, rfl, _⟩ := call_eq_ok.mp hcall
    have hput : (d.put r ({ p with tunnel }, none)).Sockets := h.put hp (Or.inl rfl)
    exact ih hput hrest

theorem Sockets.changes (h : d.Sockets) (htables : d.Tables)
    (hclear : op = .clear_peers → d.Disconnected) (hchanges : Changes B d op calls d') :
    d'.Sockets := by
  cases hchanges with
  | same_key _ => exact h
  | @set_key _ _ _ _ d₁ _ _ hloop =>
    have hloop : d₁.Sockets := h.set_static_private hloop
    exact hloop
  | unknown _ _ => exact h
  | @remove _ pub_key r p _ hr hp =>
    have hput : (d.put r p.shutdown_endpoint).Sockets := h.put hp (Or.inr rfl)
    intro handler hmem hopen
    obtain ⟨⟨k, hk⟩, q, hq, hconn⟩ := hput handler hmem hopen
    refine ⟨⟨k, (htables.lookup_without hr).mpr ⟨hk, ?_⟩⟩, q, hq, hconn⟩
    -- The socket of the removed peer is shut down.
    intro heq
    rw [heq, getElem?_put hp] at hq
    obtain rfl := Option.some.inj hq
    cases hconn
  | add _ hnew _ _ _ _ =>
    intro handler hmem hopen
    obtain ⟨⟨k, hk⟩, q, hq, hconn⟩ := h handler hmem hopen
    refine ⟨⟨k, AList.lookup_insert_eq_some.mpr (Or.inr ⟨?_, hk⟩)⟩, q, getElem?_concat_left hq,
      hconn⟩
    intro heq
    rw [heq, hnew] at hk
    cases hk
  | clear =>
    -- Every handler whose socket is open would have a connected peer.
    intro handler hmem hopen
    obtain ⟨hpeer, q, hq, hconn⟩ := h handler hmem hopen
    cases (hclear rfl hpeer hq).symm.trans hconn

/-- A change of the configuration calls the tunnels of current peers only. -/
theorem Changes.current (h : Changes B d op calls d') {l : Label} (hmem : (r, l) ∈ calls) :
    d.HasPeer r := by
  cases h with
  | set_key _ hloop =>
    exact peer_values_listed (((set_static_private_rekeys hloop).called r).mpr ⟨l, hmem⟩)
  | _ => cases hmem

/-- A peer that is not current does not become current again. -/
theorem Changes.no_return (h : Changes B d op calls d') (hr : r < d.heap.length)
    (hpeer : d'.HasPeer r) : d.HasPeer r := by
  cases h with
  | same_key _ => exact hpeer
  | set_key _ hloop =>
    have hsame := (set_static_private_rekeys hloop).tables.peers
    unfold HasPeer at hpeer ⊢
    rw [← hsame]
    exact hpeer
  | unknown _ _ => exact hpeer
  | remove _ _ _ =>
    obtain ⟨k, hk⟩ := hpeer
    exact ⟨k, (AList.lookup_erase_eq_some.mp hk).2⟩
  | add _ _ _ _ _ _ =>
    obtain ⟨k, hk⟩ := hpeer
    rcases AList.lookup_insert_eq_some.mp hk with ⟨_, hlast⟩ | ⟨_, hold⟩
    · exact absurd hlast (Nat.ne_of_lt hr)
    · exact ⟨k, hold⟩
  | clear =>
    obtain ⟨k, hk⟩ := hpeer
    cases hk

theorem step_no_return (h : d.step B op = .ok (d', calls, outputs)) (hr : r < d.heap.length)
    (hpeer : d'.HasPeer r) : d.HasPeer r := by
  rcases step_cases h with hchanges | hacts
  · exact hchanges.no_return hr hpeer
  · unfold HasPeer at hpeer ⊢
    rw [← hacts.same_tables.peers]
    exact hpeer

/-- The tables agree, and open sockets belong to current peers. -/
structure Attended (d : Device C) : Prop where
  tables : d.Tables
  sockets : d.Sockets

theorem Attended.step (h : d.Attended) {l : DeviceLabel} (hstep : (revocable C B).step d l d') :
    d'.Attended := by
  obtain ⟨hstep, hclear⟩ := hstep
  refine ⟨h.tables.step hstep, ?_⟩
  rcases step_cases hstep with hchanges | hacts
  · exact h.sockets.changes h.tables hclear hchanges
  · exact (h.sockets.acts h.tables hacts).1

/-- Only the tunnels of current peers are called, apart from what others do to a shared limiter. -/
theorem Attended.calls_current (h : d.Attended) (hstep : d.step B op = .ok (d', calls, outputs))
    {l : Label}
    (hmem : (r, l) ∈ calls) :
    d.HasPeer r ∨ ∃ count nonce_ctr last_reset, l.op = .shared count nonce_ctr last_reset := by
  rcases step_cases hstep with hchanges | hacts
  · exact Or.inl (hchanges.current hmem)
  · exact (h.sockets.acts h.tables hacts).2 hmem

/-- A removed peer stays removed, and its tunnel gets no datagrams. -/
theorem Attended.run (h : d.Attended) {tr : List DeviceLabel} (hrun : Run (revocable C B) d tr d')
    (hr : r < d.heap.length) (hgone : ¬ d.HasPeer r) :
    (d'.Attended ∧ r < d'.heap.length ∧ ¬ d'.HasPeer r) ∧ ∀ {l : Label}, (r, l) ∈ deviceCalls tr →
      ∃ count nonce_ctr last_reset, l.op = .shared count nonce_ctr last_reset := by
  refine hrun.invariant (I := fun tr (d' : Device C) =>
    (d'.Attended ∧ r < d'.heap.length ∧ ¬ d'.HasPeer r) ∧ ∀ {l : Label}, (r, l) ∈ deviceCalls tr →
      ∃ count nonce_ctr last_reset, l.op = .shared count nonce_ctr last_reset)
    ⟨⟨h, hr, hgone⟩, by simp [deviceCalls]⟩ ?_
  rintro tr d₁ l d₂ ⟨⟨hattended, hlt, hgone⟩, hcalls⟩ hstep
  have hplain := hstep.1
  refine ⟨⟨hattended.step hstep, hlt.trans_le (step_advances hplain).length_le, ?_⟩, ?_⟩
  · exact fun hback => hgone (step_no_return hplain hlt hback)
  · intro c hmem
    rw [deviceCalls_snoc] at hmem
    rcases List.mem_append.mp hmem with hold | hnew
    · exact hcalls hold
    · exact (hattended.calls_current hplain hnew).resolve_left hgone

/-- **Revocation is complete** as long as peers are cleared only when none of them is connected.
    Every handler whose socket is open then belongs to a current peer; and in any later run, a peer
    that was removed is not given a datagram. -/
theorem revocation_complete {use_connected_socket : Bool} {seed mask : UInt32} {hseed : Seed seed}
    {hmask : Seed mask} {tr : List DeviceLabel}
    (hrun : Run (revocable C B) (.new use_connected_socket (.default seed mask hseed hmask)) tr d) :
    (∀ h ∈ d.queue, h.udp ∉ d.shut → d.HasPeer h.peer) ∧
      ∀ {r : PeerRef} {tr' : List DeviceLabel} {d' : Device C}, r < d.heap.length → ¬ d.HasPeer r →
        Run (revocable C B) d tr' d' → ∀ {l : Label}, (r, l) ∈ deviceCalls tr' →
          ∃ count nonce_ctr last_reset, l.op = .shared count nonce_ctr last_reset := by
  have hattended : d.Attended := by
    refine hrun.invariant (I := fun _ d => d.Attended) ⟨.new, ?_⟩ fun ih hstep => ih.step hstep
    intro h hmem
    cases hmem
  refine ⟨fun h hmem hopen => (hattended.sockets h hmem hopen).1, ?_⟩
  intro r tr' d' hr hgone hrun' l hmem
  exact (hattended.run hrun' hr hgone).2 hmem

/-- Runs in which the peers are never cleared. -/
theorem revocable_of_device {d d' : Device C} {tr : List DeviceLabel}
    (hrun : Run (device C B) d tr d') (hops : ∀ l ∈ tr, l.op ≠ .clear_peers) :
    Run (revocable C B) d tr d' := by
  induction hrun with
  | nil => exact .nil
  | @snoc tr d₁ d₂ l _ hstep ih =>
    have hlast := hops l (List.mem_append_right _ (List.mem_singleton_self l))
    exact .snoc (ih fun l' hl' => hops l' (List.mem_append_left _ hl'))
      ⟨hstep, fun hop => absurd hop hlast⟩

/-- A peer is added and connects, by an initiation. -/
def symbolicConnects : List DeviceOp :=
  [.set_key [7] 0 (symbolicEnv 0),
    .update_peer (symbolicKey 9) (symbolicConfig [net10]) symbolicNew,
    .open_listen_socket 0 (some 51820), .udp symbolicAddr (Tunn.symbolicDatagram 1) symbolicHandler]

/-- The handler that is registered then. -/
def symbolicConn : ConnHandler := ⟨0, 0, symbolicAddr.ip⟩

/-- A data packet in the session of that initiation. -/
def symbolicData : Bytes :=
  leBytes 4 DATA ++ le32 257 ++ leBytes 8 0 ++ symbolicPacket [10, 1, 2, 3] [10, 0, 0, 1] ++
    List.replicate 16 0

section
-- The handlers are evaluated on whole datagrams.
set_option maxRecDepth 20000

/-- A connected peer is removed, and a datagram comes in on its socket. -/
theorem revocation_complete_removed : ∃ (d d' : Device symbolic) (tr tr' : List DeviceLabel),
    Run (revocable symbolic (symbolicBuild false)) symbolicDevice tr d ∧ symbolicConn ∈ d.queue ∧
      Run (revocable symbolic (symbolicBuild false)) d tr' d' ∧ tr' ≠ [] ∧
      (∀ h ∈ d.queue, h.udp ∉ d.shut → d.HasPeer h.peer) ∧ ∀ {l : Label}, (0, l) ∈ deviceCalls tr' →
        ∃ count nonce_ctr last_reset, l.op = .shared count nonce_ctr last_reset := by
  obtain ⟨⟨d, tr⟩, hexec, hqueue, hlength, hpeers, ⟨d', tr'⟩, hexec', hne⟩ : ∃ x,
      symbolicDevice.exec (symbolicBuild false) (symbolicConnects ++ [.remove_peer (symbolicKey 9)])
        = .ok x ∧ x.1.queue = [symbolicConn] ∧ x.1.heap.length = 1 ∧ x.1.peers = ∅ ∧ ∃ y,
      x.1.exec (symbolicBuild false) [.conn symbolicConn symbolicData symbolicHandler] = .ok y ∧
        y.2 ≠ [] :=
    ⟨_, rfl, rfl, rfl, rfl, _, rfl, List.cons_ne_nil _ _⟩
  have hrun := revocable_of_device (exec_run hexec) (by
    intro l hl hop
    have := exec_op hexec hl
    simp [symbolicConnects, hop] at this)
  have hrun' := revocable_of_device (exec_run hexec') (by
    intro l hl hop
    have := exec_op hexec' hl
    simp [hop] at this)
  obtain ⟨hopen, hgone⟩ := revocation_complete hrun
  have hr : 0 < d.heap.length := by
    rw [hlength]
    decide
  have hremoved : ¬ d.HasPeer 0 := by
    intro ⟨k, hk⟩
    have hpeers : d.peers = ∅ := hpeers
    rw [hpeers] at hk
    cases hk
  refine ⟨d, d', tr, tr', hrun, ?_, hrun', hne, hopen, fun hl => hgone hr hremoved hrun' hl⟩
  rw [hqueue]
  exact List.mem_singleton_self _

/-- The peers are cleared while one of them is connected: its handler stays, and what comes in on
    its socket is decapsulated and written to the interface. -/
theorem cleared_peer_delivers : ∃ (d d' : Device symbolic) (tr : List DeviceLabel) (l : DeviceLabel)
    (c : Label) (packet : Bytes),
    Run (device symbolic (symbolicBuild false)) symbolicDevice tr d ∧ (∀ r, ¬ d.HasPeer r) ∧
      symbolicConn ∈ d.queue ∧ symbolicConn.udp ∉ d.shut ∧
      (device symbolic (symbolicBuild false)).step d l d' ∧
      l.op = .conn symbolicConn symbolicData symbolicHandler ∧
      (symbolicConn.peer, c) ∈ l.calls ∧ .write packet ∈ l.outputs := by
  obtain ⟨⟨d, tr⟩, hexec, hqueue, hshut, hpeers, ⟨d', calls, outputs⟩, hstep, ⟨c, hc⟩,
      ⟨packet, hw⟩⟩ : ∃ x,
      symbolicDevice.exec (symbolicBuild false) (symbolicConnects ++ [.clear_peers]) = .ok x ∧
        x.1.queue = [symbolicConn] ∧ x.1.shut = [] ∧ x.1.peers = ∅ ∧ ∃ y,
      x.1.step (symbolicBuild false) (.conn symbolicConn symbolicData symbolicHandler) = .ok y ∧
        (∃ c, y.2.1 = [(symbolicConn.peer, c)]) ∧ ∃ packet, y.2.2 = [.write packet] :=
    ⟨_, rfl, rfl, rfl, rfl, _, rfl, ⟨_, rfl⟩, _, rfl⟩
  refine ⟨d, d', tr, ⟨_, calls, outputs⟩, c, packet, exec_run hexec, ?_, ?_, ?_, hstep, rfl, ?_, ?_⟩
  · intro r ⟨k, hk⟩
    have hpeers : d.peers = ∅ := hpeers
    rw [hpeers] at hk
    cases hk
  · rw [hqueue]
    exact List.mem_singleton_self _
  · rw [hshut]
    exact List.not_mem_nil
  · have hc : calls = [(symbolicConn.peer, c)] := hc
    rw [hc]
    exact List.mem_singleton_self _
  · have hw : outputs = [.write packet] := hw
    rw [hw]
    exact List.mem_singleton_self _

end

end Device

end PqBoringtun
