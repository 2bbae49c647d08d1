import PqBoringtun.Device.PeerRuns
import PqBoringtun.Device.Symbolic

/-! # The peer tables

    A device finds a peer by its public key (`peers`), by its index
    (`peers_by_idx`) and by the addresses it may use (`peers_by_ip`).

    * `Device.Tables`: the invariant.  The index of a peer is the value of
      the generator at its place in the heap, so indices are distinct.
    * `Device.tables_consistent`: the tables agree in every run, and an index
      that a peer has sent leads back to it.
-/

namespace PqBoringtun

variable {C : Crypto} {B : Build}

/-! ## Section 1: The keys of a tunnel -/

namespace Tunn

variable {t t₀ : Tunn C} {tr : List Label}

/-- The parameters change with `set_static_private` only. -/
theorem run_params (hrun : Run (tunnel C B) t₀ tr t)
    (hops : ∀ l ∈ tr, ∀ a b c, l.op ≠ .set_static_private a b c) :
    t.handshake.params = t₀.handshake.params := by
  refine hrun.invariant_of
    (A := fun tr : List Label => ∀ l ∈ tr, ∀ a b c, l.op ≠ .set_static_private a b c)
    (I := fun _ t => t.handshake.params = t₀.handshake.params)
    (fun hall l hl => hall l (List.mem_append_left _ hl)) rfl ?_ hops
  intro tr t l t' hall ih hstep
  have hlast : l ∈ tr ++ [l] := List.mem_append_right _ (List.mem_singleton_self l)
  exact (step_works (hall l hlast) hstep).params.trans ih

/-- The tunnel has this key pair. -/
def HasKeys (t : Tunn C) (keys : Bytes × Bytes) : Prop :=
  t.handshake.params.static_private = keys.1 ∧ t.handshake.params.static_public = keys.2

/-- After calls of `set_static_private` with one key, the tunnel has this key. -/
theorem run_rekeyed {keys : Bytes × Bytes} {limiter : Option RateLimiter}
    (hrun : Run (tunnel C B) t₀ tr t)
    (hops : ∀ l ∈ tr, l.op = .set_static_private keys.1 keys.2 limiter) (hne : tr ≠ []) :
    t.HasKeys keys := by
  cases hrun with
  | nil => exact absurd rfl hne
  | @snoc tr s _ l _ hstep =>
    have hstep : s.step B l.op l.env = .ok (l.result, t, l.events) := hstep
    rw [hops l (List.mem_append_right _ (List.mem_singleton_self l))] at hstep
    obtain ⟨t₁, hset, hstep⟩ := Outcome.bind_eq_ok.mp hstep
    obtain rfl : t₁ = t := congrArg (fun x => x.2.1) (Outcome.ok.inj hstep)
    obtain ⟨params, hparams, hset⟩ := Outcome.bind_eq_ok.mp hset
    cases hset
    obtain ⟨hpriv, hpub, _⟩ := NoiseParams.set_static_private_eq_ok hparams
    exact ⟨hpriv, hpub⟩

end Tunn

namespace Device

variable {d d₁ d' : Device C} {r : PeerRef} {p : Peer C} {calls calls' : List Call}
  {outputs : List Output} {op : DeviceOp}

/-- Handlers do not change keys. -/
theorem Acts.calls_op (h : Acts B d calls d') {l : Label} (hmem : (r, l) ∈ calls) :
    ∀ a b c, l.op ≠ .set_static_private a b c := by
  induction h with
  | nil _ => cases hmem
  | cons hact _ ih =>
    rcases List.mem_append.mp hmem with hmem | hmem
    · cases hact with
      | call hp hmay hstep =>
        cases List.mem_singleton.mp hmem
        rcases hmay with ⟨_, _, _, rfl⟩ | ⟨_, hop⟩
        · simp
        · exact hop
      | _ => cases hmem
    · exact ih hmem

theorem Acts.params (h : Acts B d calls d') (hp : d.heap[r]? = some p) :
    ∃ p', d'.heap[r]? = some p' ∧ p'.index = p.index ∧
      p'.tunnel.handshake.params = p.tunnel.handshake.params := by
  obtain ⟨p', hp', hbecomes⟩ := h.advances.peer hp
  refine ⟨p', hp', hbecomes.index, Tunn.run_params hbecomes.run ?_⟩
  intro l hl
  exact h.calls_op (mem_labelsOf.mp hl)

/-! ## Section 2: The invariant -/

/-- A current peer. -/
def HasPeer (d : Device C) (r : PeerRef) : Prop := ∃ k, d.peers.lookup k = some r

/-- What holds of the peer that `peers` has under a key. -/
structure Filed (d : Device C) (k : Bytes) (r : PeerRef) (p : Peer C) : Prop where
  heap : d.heap[r]? = some p
  key : p.tunnel.handshake.params.peer_static_public = k
  by_idx : d.peers_by_idx.lookup p.index = some r
  key_pair : ∃ keys, d.key_pair = some keys ∧ p.tunnel.HasKeys keys

structure Tables (d : Device C) : Prop where
  generator : IndexLfsr.After d.heap.length d.next_index
  index : ∀ {r : PeerRef} {p : Peer C}, d.heap[r]? = some p → p.index = d.next_index.index r
  keys : ∀ {keys : Bytes × Bytes}, d.key_pair = some keys → keys.2 = C.x25519_public keys.1
  peers : ∀ {k : Bytes} {r : PeerRef}, d.peers.lookup k = some r → ∃ p, d.Filed k r p
  peers_by_idx : ∀ {i : UInt32} {r : PeerRef}, d.peers_by_idx.lookup i = some r →
    d.HasPeer r ∧ ∃ p, d.heap[r]? = some p ∧ p.index = i
  peers_by_ip : ∀ {n : IpNetwork} {r : PeerRef}, d.peers_by_ip.lookup n = some r → d.HasPeer r

namespace Tables

theorem new {use_connected_socket : Bool} {seed mask : UInt32} {hseed : Seed seed}
    {hmask : Seed mask} :
    (Device.new use_connected_socket (.default seed mask hseed hmask) : Device C).Tables where
  generator := .default hseed hmask
  index := by
    intro r p hp
    cases hp
  keys := by
    intro keys hkeys
    cases hkeys
  peers := by
    intro k r hr
    cases hr
  peers_by_idx := by
    intro i r hr
    cases hr
  peers_by_ip := by
    intro n r hr
    cases hr

/-- Peers with the same index are the same. -/
theorem index_inj (h : d.Tables) {r r' : PeerRef} {p p' : Peer C} (hp : d.heap[r]? = some p)
    (hp' : d.heap[r']? = some p') (heq : p.index = p'.index) : r = r' := by
  rw [h.index hp, h.index hp'] at heq
  exact h.generator.index_inj (List.getElem?_eq_some_iff.mp hp).1
    (List.getElem?_eq_some_iff.mp hp').1 heq

/-- A peer is filed under one key. -/
theorem key_inj (h : d.Tables) {k k' : Bytes} {r : PeerRef} (hk : d.peers.lookup k = some r)
    (hk' : d.peers.lookup k' = some r) : k = k' := by
  obtain ⟨p, hfiled⟩ := h.peers hk
  obtain ⟨p', hfiled'⟩ := h.peers hk'
  obtain rfl := Option.some.inj (hfiled.heap.symm.trans hfiled'.heap)
  exact hfiled.key.symm.trans hfiled'.key

section kept
variable (h : d.Tables) (hadvances : Advances B d calls d')
  (hlength : d'.heap.length = d.heap.length) (hnext : d'.next_index = d.next_index)
include h hadvances hlength hnext

theorem index_kept {p' : Peer C} (hp' : d'.heap[r]? = some p') :
    p'.index = d'.next_index.index r := by
  have hr : r < d'.heap.length := (List.getElem?_eq_some_iff.mp hp').1
  rw [hlength] at hr
  obtain ⟨q, hq, hbecomes⟩ := hadvances.peer (List.getElem?_eq_getElem hr)
  obtain rfl := Option.some.inj (hp'.symm.trans hq)
  rw [hbecomes.index, h.index (List.getElem?_eq_getElem hr), hnext]

variable (hpeers : d'.peers = d.peers) (hidx : d'.peers_by_idx = d.peers_by_idx)
  (hip : d'.peers_by_ip = d.peers_by_ip)
include hpeers hidx hip

/-- The tables are the same, and the peers have the key pair of the device. -/
theorem of_advances
    (hkeys : ∀ {keys : Bytes × Bytes}, d'.key_pair = some keys → keys.2 = C.x25519_public keys.1)
    (hhas : ∀ {r : PeerRef} {p' : Peer C}, d.HasPeer r → d'.heap[r]? = some p' →
      ∃ keys, d'.key_pair = some keys ∧ p'.tunnel.HasKeys keys) : d'.Tables where
  generator := by
    rw [hlength, hnext]
    exact h.generator
  index := h.index_kept hadvances hlength hnext
  keys := hkeys
  peers := by
    intro k r hr
    rw [hpeers] at hr
    obtain ⟨p, hfiled⟩ := h.peers hr
    obtain ⟨p', hp', hbecomes⟩ := hadvances.peer hfiled.heap
    refine ⟨p', hp', ?_, ?_, hhas ⟨k, hr⟩ hp'⟩
    · exact (Tunn.run_peer hbecomes.run).trans hfiled.key
    · rw [hbecomes.index, hidx]
      exact hfiled.by_idx
  peers_by_idx := by
    intro i r hr
    rw [hidx] at hr
    obtain ⟨⟨k, hk⟩, p, hp, hindex⟩ := h.peers_by_idx hr
    obtain ⟨p', hp', hbecomes⟩ := hadvances.peer hp
    rw [← hpeers] at hk
    exact ⟨⟨k, hk⟩, p', hp', hbecomes.index.trans hindex⟩
  peers_by_ip := by
    intro n r hr
    rw [hip] at hr
    obtain ⟨k, hk⟩ := h.peers_by_ip hr
    rw [← hpeers] at hk
    exact ⟨k, hk⟩

end kept

theorem acts (h : d.Tables) (hacts : Acts B d calls d') : d'.Tables := by
  have hsame := hacts.same_tables
  refine h.of_advances hacts.advances hsame.heap_length hsame.next_index hsame.peers
    hsame.peers_by_idx hsame.peers_by_ip ?_ ?_
  · rw [hsame.key_pair]
    exact h.keys
  · intro r p' ⟨k, hk⟩ hp'
    obtain ⟨p, hfiled⟩ := h.peers hk
    obtain ⟨keys, hkeys, hhas⟩ := hfiled.key_pair
    obtain ⟨q, hq, _, hparams⟩ := hacts.params hfiled.heap
    obtain rfl := Option.some.inj (hp'.symm.trans hq)
    refine ⟨keys, hsame.key_pair.trans hkeys, ?_⟩
    unfold Tunn.HasKeys
    rw [hparams]
    exact hhas

theorem set_key (h : d.Tables) {private_key : Bytes} {limiter : RateLimiter} {env : Env}
    (hloop : d.set_static_private B private_key (C.x25519_public private_key) limiter env
      d.peer_values = .ok (d₁, calls)) :
    Tables { d₁ with key_pair := some (private_key, C.x25519_public private_key),
                     rate_limiter := some limiter } := by
  obtain ⟨hadvances, hsame, hop, hcalled⟩ := set_static_private_rekeys hloop
  have hadvances' : Advances B d calls
      { d₁ with key_pair := some (private_key, C.x25519_public private_key),
                rate_limiter := some limiter } :=
    ⟨hadvances.length_le, hadvances.known, hadvances.peer⟩
  refine h.of_advances hadvances' hsame.heap_length hsame.next_index hsame.peers
    hsame.peers_by_idx hsame.peers_by_ip ?_ ?_
  · intro keys hkeys
    cases hkeys
    rfl
  · intro r p' ⟨k, hk⟩ hp'
    obtain ⟨p, hfiled⟩ := h.peers hk
    obtain ⟨q, hq, hbecomes⟩ := hadvances.peer hfiled.heap
    obtain rfl := Option.some.inj (hp'.symm.trans hq)
    -- The loop has called the tunnel of every peer in the table.
    have hvalue : r ∈ d.peer_values :=
      List.mem_map.mpr ⟨⟨k, r⟩, AList.mem_lookup_iff.mp hk, rfl⟩
    obtain ⟨l, hl⟩ := (hcalled r).mp hvalue
    have hops : ∀ l ∈ labelsOf r calls, l.op = .set_static_private private_key
        (C.x25519_public private_key) (some limiter) := fun l hl => hop (mem_labelsOf.mp hl)
    have hne : labelsOf r calls ≠ [] := List.ne_nil_of_mem (mem_labelsOf.mpr hl)
    have hhas : p'.tunnel.HasKeys (private_key, C.x25519_public private_key) :=
      Tunn.run_rekeyed hbecomes.run hops hne
    exact ⟨_, rfl, hhas⟩

/-- The peers that are left after `r` was removed. -/
theorem lookup_without (h : d.Tables) {key k : Bytes} {r r' : PeerRef}
    (hr : d.peers.lookup key = some r) :
    (d.peers.erase key).lookup k = some r' ↔ d.peers.lookup k = some r' ∧ r' ≠ r := by
  rw [AList.lookup_erase_eq_some]
  constructor
  · rintro ⟨hk, hr'⟩
    refine ⟨hr', ?_⟩
    intro heq
    rw [heq] at hr'
    exact hk (h.key_inj hr' hr)
  · rintro ⟨hr', hne⟩
    refine ⟨?_, hr'⟩
    intro heq
    rw [heq] at hr'
    exact hne (Option.some.inj (hr'.symm.trans hr))

theorem remove (h : d.Tables) {key : Bytes} (hr : d.peers.lookup key = some r)
    (hp : d.heap[r]? = some p) (hadvances : Advances B d calls (d.without key r p)) :
    (d.without key r p).Tables := by
  have hlength : (d.without key r p).heap.length = d.heap.length := List.length_set
  have hhas : ∀ {r'}, d.HasPeer r' → r' ≠ r → (d.without key r p).HasPeer r' := by
    rintro r' ⟨k, hk⟩ hne
    exact ⟨k, (h.lookup_without hr).mpr ⟨hk, hne⟩⟩
  constructor
  · rw [hlength]
    exact h.generator
  · exact h.index_kept hadvances hlength rfl
  · exact h.keys
  · intro k r' hr'
    obtain ⟨hr', hne⟩ := (h.lookup_without hr).mp hr'
    obtain ⟨p₁, hfiled⟩ := h.peers hr'
    have hp₁ : (d.without key r p).heap[r']? = some p₁ :=
      (List.getElem?_set_ne (Ne.symm hne)).trans hfiled.heap
    have hindex : p₁.index ≠ p.index := fun heq => hne (h.index_inj hfiled.heap hp heq)
    have hidx : (d.peers_by_idx.erase p.index).lookup p₁.index = some r' :=
      AList.lookup_erase_eq_some.mpr ⟨hindex, hfiled.by_idx⟩
    exact ⟨p₁, hp₁, hfiled.key, hidx, hfiled.key_pair⟩
  · intro i r' hr'
    obtain ⟨hi, hr'⟩ := AList.lookup_erase_eq_some.mp hr'
    obtain ⟨hpeer, p₁, hp₁, hindex⟩ := h.peers_by_idx hr'
    have hne : r' ≠ r := by
      intro heq
      rw [heq] at hp₁
      obtain rfl := Option.some.inj (hp₁.symm.trans hp)
      exact hi hindex.symm
    exact ⟨hhas hpeer hne, p₁, (List.getElem?_set_ne (Ne.symm hne)).trans hp₁, hindex⟩
  · intro n r' hr'
    obtain ⟨hold, hne⟩ := AllowedIps.lookup_remove.mp hr'
    exact hhas (h.peers_by_ip hold) (by simpa using hne)

theorem clear (h : d.Tables) : d.clear_peers.Tables where
  generator := h.generator
  index := h.index
  keys := h.keys
  peers := by
    intro k r hr
    cases hr
  peers_by_idx := by
    intro i r hr
    cases hr
  peers_by_ip := by
    intro n r hr
    cases hr

section add
variable {pub_key : PublicKey} {config : PeerConfig} {new : NewEnv} {index : UInt32}
  {generator : IndexLfsr} {keys : Bytes × Bytes} {peers_by_ip : AllowedIps PeerRef}

theorem add (h : d.Tables) (hnew : d.peers.lookup pub_key.bytes = none)
    (hnext : d.next_index.next = .ok (index, generator)) (hkeys : d.key_pair = some keys)
    (hpeer : Peer.new (new_tunnel keys.1 pub_key config index new) index config.endpoint
      config.allowed_ips config.preshared_key = .ok p)
    (hips : d.peers_by_ip.insert_all config.allowed_ips d.heap.length = .ok peers_by_ip) :
    Tables { d with
      next_index := generator
      heap := d.heap ++ [p]
      peers := d.peers.insert pub_key.bytes d.heap.length
      peers_by_idx := d.peers_by_idx.insert index d.heap.length
      peers_by_ip := peers_by_ip } := by
  obtain ⟨hindex, hafter⟩ := h.generator.next hnext
  have hsame := IndexLfsr.index_next hnext
  obtain ⟨htunnel, hpindex, _⟩ := Peer.new_eq_ok hpeer
  have hlast : (d.heap ++ [p])[d.heap.length]? = some p := List.getElem?_concat_length
  -- The index of a peer that was there is an earlier value of the generator.
  have hfresh : ∀ {r : PeerRef} {q : Peer C}, d.heap[r]? = some q → q.index ≠ index := by
    intro r q hq heq
    have hr : r < d.heap.length := (List.getElem?_eq_some_iff.mp hq).1
    rw [h.index hq, hindex, ← hsame, ← hsame] at heq
    exact Nat.ne_of_lt hr (hafter.index_inj (Nat.lt_succ_of_lt hr) (Nat.lt_succ_self _) heq)
  have hpeers : ∀ {r}, d.HasPeer r →
      ∃ k, (d.peers.insert pub_key.bytes d.heap.length).lookup k = some r := by
    rintro r ⟨k, hk⟩
    refine ⟨k, AList.lookup_insert_eq_some.mpr (Or.inr ⟨?_, hk⟩)⟩
    intro heq
    rw [heq, hnew] at hk
    cases hk
  have hadded : ∃ k, (d.peers.insert pub_key.bytes d.heap.length).lookup k = some d.heap.length :=
    ⟨pub_key.bytes, AList.lookup_insert _⟩
  constructor
  · show IndexLfsr.After (d.heap ++ [p]).length generator
    rw [List.length_append]
    exact hafter
  · intro r q hq
    show q.index = generator.index r
    rw [hsame]
    rcases getElem?_concat_cases hq with hold | ⟨rfl, rfl⟩
    · exact h.index hold
    · exact hpindex.trans hindex
  · exact h.keys
  · intro k r hr
    rcases AList.lookup_insert_eq_some.mp hr with ⟨rfl, rfl⟩ | ⟨_, hr⟩
    · refine ⟨p, hlast, ?_, ?_, keys, hkeys, ?_⟩
      · rw [htunnel]
        rfl
      · exact AList.lookup_insert_eq_some.mpr (Or.inl ⟨hpindex, rfl⟩)
      · rw [htunnel]
        exact ⟨rfl, (h.keys hkeys).symm⟩
    · obtain ⟨q, hfiled⟩ := h.peers hr
      have hidx : (d.peers_by_idx.insert index d.heap.length).lookup q.index = some r :=
        AList.lookup_insert_eq_some.mpr (Or.inr ⟨hfresh hfiled.heap, hfiled.by_idx⟩)
      exact ⟨q, getElem?_concat_left hfiled.heap, hfiled.key, hidx, hfiled.key_pair⟩
  · intro i r hr
    rcases AList.lookup_insert_eq_some.mp hr with ⟨rfl, rfl⟩ | ⟨_, hr⟩
    · exact ⟨hadded, p, hlast, hpindex⟩
    · obtain ⟨hpeer, q, hq, hqi⟩ := h.peers_by_idx hr
      exact ⟨hpeers hpeer, q, getElem?_concat_left hq, hqi⟩
  · intro n r hr
    rcases (AllowedIps.lookup_insert_all hips).mp hr with ⟨_, rfl⟩ | ⟨_, hr⟩
    · exact hadded
    · exact hpeers (h.peers_by_ip hr)

end add

theorem step (h : d.Tables) (hstep : d.step B op = .ok (d', calls, outputs)) : d'.Tables := by
  rcases step_cases hstep with hchanges | hacts
  · have hadvances := hchanges.advances
    cases hchanges with
    | same_key _ => exact h
    | set_key _ hloop => exact h.set_key hloop
    | unknown _ _ => exact h
    | remove _ hr hp => exact h.remove hr hp hadvances
    | add _ hnew hnext hkeys hpeer hips => exact h.add hnew hnext hkeys hpeer hips
    | clear => exact h.clear
  · exact h.acts hacts

end Tables

/-! ## Section 3: Runs -/

/-- The three tables agree, and the peers have the key pair of the device. -/
structure Consistent (d : Device C) : Prop where
  same_peers : ∀ r, d.HasPeer r ↔ ∃ i, d.peers_by_idx.lookup i = some r
  indexed : ∀ {i : UInt32} {r : PeerRef}, d.peers_by_idx.lookup i = some r →
    i.toNat < 2 ^ 24 ∧ ∃ p, d.heap[r]? = some p ∧ p.index = i
  distinct : ∀ {r r' : PeerRef} {p p' : Peer C}, d.HasPeer r → d.HasPeer r' →
    d.heap[r]? = some p → d.heap[r']? = some p' → p.index = p'.index → r = r'
  routed : ∀ {n : IpNetwork} {r : PeerRef}, d.peers_by_ip.lookup n = some r → d.HasPeer r
  has_keys : ∀ {r : PeerRef} {p : Peer C}, d.HasPeer r → d.heap[r]? = some p →
    ∃ keys, d.key_pair = some keys ∧ p.tunnel.HasKeys keys

theorem Tables.consistent (h : d.Tables) : d.Consistent where
  same_peers := by
    intro r
    constructor
    · rintro ⟨k, hk⟩
      obtain ⟨p, hfiled⟩ := h.peers hk
      exact ⟨p.index, hfiled.by_idx⟩
    · rintro ⟨i, hi⟩
      exact (h.peers_by_idx hi).1
  indexed := by
    intro i r hi
    obtain ⟨_, p, hp, rfl⟩ := h.peers_by_idx hi
    refine ⟨?_, p, hp, rfl⟩
    rw [h.index hp]
    exact IndexLfsr.index_lt _ r
  distinct := fun _ _ hp hp' heq => h.index_inj hp hp' heq
  routed := h.peers_by_ip
  has_keys := by
    rintro r p ⟨k, hk⟩ hp
    obtain ⟨q, hfiled⟩ := h.peers hk
    obtain rfl := Option.some.inj (hp.symm.trans hfiled.heap)
    exact hfiled.key_pair

/-- The sender index of a handshake message of a current peer leads back to it. -/
theorem Tables.sender_index (h : d.Tables) (hruns : PeerRuns B calls d) (hr : d.HasPeer r)
    {l : Label} (hl : (r, l) ∈ calls) {s : UInt32} (hs : l.result.sender_index = some s) :
    d.peers_by_idx.lookup (s >>> 8) = some r := by
  obtain ⟨k, hk⟩ := hr
  obtain ⟨p, hfiled⟩ := h.peers hk
  obtain ⟨t₀, ⟨private_key, pub_key, config, new, rfl⟩, hrun⟩ := hruns.created hfiled.heap
  have hindex : s >>> 8 = p.index := by
    have hsmall : p.index.toNat < 2 ^ 24 := by
      rw [h.index hfiled.heap]
      exact IndexLfsr.index_lt _ r
    rw [(Tunn.run_sender_index hrun).2 l (mem_labelsOf.mpr hl) s hs]
    exact shift_index hsmall
  rw [hindex]
  exact hfiled.by_idx

/-- The tables of a device are in order in every run. -/
theorem run_tables {use_connected_socket : Bool} {seed mask : UInt32} {hseed : Seed seed}
    {hmask : Seed mask} {tr : List DeviceLabel}
    (hrun : Run (device C B) (.new use_connected_socket (.default seed mask hseed hmask)) tr d) :
    d.Tables :=
  hrun.invariant (I := fun _ d => d.Tables) .new fun ih hstep => ih.step hstep

/-- **The tables of a device agree in every run, and replies find their peer.**  An index that the
    tunnel of a peer has put in a handshake message leads to the peer, as long as the device has
    it. -/
theorem tables_consistent {use_connected_socket : Bool} {seed mask : UInt32} {hseed : Seed seed}
    {hmask : Seed mask} {tr : List DeviceLabel}
    (hrun : Run (device C B) (.new use_connected_socket (.default seed mask hseed hmask)) tr d) :
    d.Consistent ∧ ∀ {r : PeerRef} {l : Label} {s : UInt32}, d.HasPeer r → (r, l) ∈ deviceCalls tr →
      l.result.sender_index = some s → d.peers_by_idx.lookup (s >>> 8) = some r := by
  have htables := run_tables hrun
  exact ⟨htables.consistent, fun hr hl hs => htables.sender_index (run_created hrun) hr hl hs⟩

/-- A peer is added and sends an initiation. -/
theorem tables_consistent_initiation : ∃ (d : Device symbolic) (tr : List DeviceLabel) (l : Label),
    Run (device symbolic (symbolicBuild false)) symbolicDevice tr d ∧ (0, l) ∈ deviceCalls tr ∧
      l.result.sender_index = some 257 ∧ d.Consistent ∧ d.peers_by_idx.lookup 1 = some 0 := by
  have hexec : ∃ x, symbolicDevice.exec (symbolicBuild false)
      [.set_key [7] 0 (symbolicEnv 0),
        .update_peer (symbolicKey 9) (symbolicConfig [net10]) symbolicNew,
        .open_listen_socket 0 (some 51820),
        .iface (symbolicPacket [10, 0, 0, 1] [10, 1, 2, 3]) (symbolicEnv 0)] = .ok x ∧
      (∃ l, deviceCalls x.2 = [(0, l)] ∧ l.result.sender_index = some 257) ∧
      x.1.peers.lookup (symbolicKey 9).bytes = some 0 :=
    ⟨_, rfl, ⟨_, rfl, rfl⟩, rfl⟩
  obtain ⟨⟨d, tr⟩, hexec, ⟨l, hcalls, hsender⟩, hpeer⟩ := hexec
  have hrun := exec_run hexec
  have hl : (0, l) ∈ deviceCalls tr := by
    rw [hcalls]
    exact List.mem_singleton_self _
  obtain ⟨hconsistent, hback⟩ := tables_consistent hrun
  exact ⟨d, tr, l, hrun, hl, hsender, hconsistent, hback ⟨_, hpeer⟩ hl hsender⟩

end Device

end PqBoringtun
