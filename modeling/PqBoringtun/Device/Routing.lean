import PqBoringtun.Device.Tables

/-! # Cryptokey routing

    A packet is sent to the peer that `peers_by_ip` finds for its destination;
    a packet of a peer is let through if the peer's own table finds its source.
    The device writes the two tables separately.

    * `Device.routed_allowed`: what is sent to a peer may come back from it.
    * `Device.Symmetric`: the two tables agree.
    * `Device.routing_symmetric`: they do, as long as a new peer shares no
      address with a current one.
    * `Device.routing_asymmetric`: otherwise the longer prefix takes the
      address from the peer with the shorter one, who may still use it.
-/

namespace PqBoringtun

/-! ## Section 1: Networks -/

/-- A network contains its own address. -/
theorem IpNetwork.contains_self (n : IpNetwork) : ∃ a, n.contains a = true := by
  cases n with
  | V4 n => exact ⟨.V4 n.address, decide_eq_true n.truncated⟩
  | V6 n => exact ⟨.V6 n.address, decide_eq_true n.truncated⟩

/-- The addresses of a list of allowed IPs. -/
def AllowedIP.Covers (ips : List AllowedIP) (a : IpAddr) : Prop :=
  ∃ ip ∈ ips, ∃ n, ip.network = some n ∧ n.contains a = true

namespace Device

variable {C : Crypto} {B : Build} {d d₁ d' : Device C} {r : PeerRef} {p : Peer C}
  {calls : List Call} {outputs : List Output} {op : DeviceOp}

theorem is_allowed_ip_iff {a : IpAddr} : p.is_allowed_ip a = true ↔
    ∃ n, p.allowed_ips.lookup n = some () ∧ n.contains a = true := by
  unfold Peer.is_allowed_ip
  rw [AllowedIps.find_isSome]
  constructor
  · rintro ⟨n, u, hlookup, hcontains⟩
    exact ⟨n, hlookup, hcontains⟩
  · rintro ⟨n, hlookup, hcontains⟩
    exact ⟨n, (), hlookup, hcontains⟩

/-! ## Section 2: The two tables -/

/-- Every network of `peers_by_ip` is one of its peer's own. -/
def Owned (d : Device C) : Prop :=
  ∀ (n : IpNetwork) (r : PeerRef) (p : Peer C), d.peers_by_ip.lookup n = some r →
    d.heap[r]? = some p → p.allowed_ips.lookup n = some ()

/-- The networks of current peers are in `peers_by_ip`, and those of two peers share no address. -/
structure Separate (d : Device C) : Prop where
  entered : ∀ {n : IpNetwork} {r : PeerRef} {p : Peer C}, d.HasPeer r → d.heap[r]? = some p →
    p.allowed_ips.lookup n = some () → d.peers_by_ip.lookup n = some r
  disjoint : ∀ {n m : IpNetwork} {r r' : PeerRef} {a : IpAddr}, d.peers_by_ip.lookup n = some r →
    d.peers_by_ip.lookup m = some r' → n.contains a = true → m.contains a = true → r = r'

/-- A packet from a current peer with source `a` is let through exactly if a packet to `a` would be
    sent to it. -/
def Symmetric (d : Device C) : Prop :=
  ∀ (r : PeerRef) (p : Peer C), d.HasPeer r → d.heap[r]? = some p →
    ∀ a, p.is_allowed_ip a = true ↔ d.peers_by_ip.find a = some r

/-- What is sent to a peer may come from it. -/
theorem Owned.allowed (h : d.Owned) {a : IpAddr} (hfind : d.peers_by_ip.find a = some r)
    (hp : d.heap[r]? = some p) : p.is_allowed_ip a = true := by
  obtain ⟨n, hn, hcontains, _⟩ := AllowedIps.find_eq_some.mp hfind
  exact is_allowed_ip_iff.mpr ⟨n, h n r p hn hp, hcontains⟩

theorem Separate.symmetric (h : d.Separate) (howned : d.Owned) : d.Symmetric := by
  intro r p hr hp a
  constructor
  · intro hallowed
    obtain ⟨n, hn, hcontains⟩ := is_allowed_ip_iff.mp hallowed
    have hentry := h.entered hr hp hn
    -- The longest match exists, and no other peer has a network with this address.
    have hsome : (d.peers_by_ip.find a).isSome = true :=
      AllowedIps.find_isSome.mpr ⟨n, r, hentry, hcontains⟩
    obtain ⟨r', hfind⟩ := Option.isSome_iff_exists.mp hsome
    obtain ⟨m, hm, hcontains', _⟩ := AllowedIps.find_eq_some.mp hfind
    rw [hfind, h.disjoint hm hentry hcontains' hcontains]
  · intro hfind
    exact howned.allowed hfind hp

/-- The tables are empty. -/
theorem Owned.of_empty (hip : d.peers_by_ip = ∅) : d.Owned := by
  intro n r p hn
  rw [hip] at hn
  cases hn

theorem Separate.of_empty (hpeers : d.peers = ∅) (hip : d.peers_by_ip = ∅) : d.Separate where
  entered := by
    intro n r p ⟨k, hk⟩
    rw [hpeers] at hk
    cases hk
  disjoint := by
    intro n m r r' a hn
    rw [hip] at hn
    cases hn

section kept
variable (hadvances : Advances B d calls d') (hlength : d'.heap.length = d.heap.length)
include hadvances hlength

/-- The peers of a later state with as many peers. -/
theorem Advances.back {p' : Peer C} (hp' : d'.heap[r]? = some p') :
    ∃ p, d.heap[r]? = some p ∧ p'.allowed_ips = p.allowed_ips := by
  have hr : r < d'.heap.length := (List.getElem?_eq_some_iff.mp hp').1
  rw [hlength] at hr
  obtain ⟨q, hq, hbecomes⟩ := hadvances.peer (List.getElem?_eq_getElem hr)
  obtain rfl := Option.some.inj (hp'.symm.trans hq)
  exact ⟨_, List.getElem?_eq_getElem hr, hbecomes.allowed_ips⟩

/-- Entries stay or go. -/
theorem Owned.kept (h : d.Owned)
    (hip : ∀ {n r}, d'.peers_by_ip.lookup n = some r → d.peers_by_ip.lookup n = some r) :
    d'.Owned := by
  intro n r p' hn hp'
  obtain ⟨p, hp, hsame⟩ := hadvances.back hlength hp'
  rw [hsame]
  exact h n r p (hip hn) hp

/-- The entries of the peers that stay, stay. -/
theorem Separate.kept (h : d.Separate) (hpeers : ∀ {r}, d'.HasPeer r → d.HasPeer r)
    (hip : ∀ {n r}, d'.peers_by_ip.lookup n = some r → d.peers_by_ip.lookup n = some r)
    (hstay : ∀ {n r}, d'.HasPeer r → d.peers_by_ip.lookup n = some r →
      d'.peers_by_ip.lookup n = some r) : d'.Separate where
  entered := by
    intro n r p' hr hp' hn
    obtain ⟨p, hp, hsame⟩ := hadvances.back hlength hp'
    rw [hsame] at hn
    exact hstay hr (h.entered (hpeers hr) hp hn)
  disjoint := fun hn hm hcn hcm => h.disjoint (hip hn) (hip hm) hcn hcm

end kept

section add
variable {pub_key : PublicKey} {config : PeerConfig} {new : NewEnv} {index : UInt32}
  {generator : IndexLfsr} {keys : Bytes × Bytes} {peers_by_ip : AllowedIps PeerRef}
  (hpeer : Peer.new (new_tunnel keys.1 pub_key config index new) index config.endpoint
    config.allowed_ips config.preshared_key = .ok p)
  (hips : d.peers_by_ip.insert_all config.allowed_ips d.heap.length = .ok peers_by_ip)

include hpeer in
/-- The networks of a new peer. -/
theorem lookup_new_peer {n : IpNetwork} :
    p.allowed_ips.lookup n = some () ↔ ∃ ip ∈ config.allowed_ips, ip.network = some n := by
  obtain ⟨_, _, _, _, hiter⟩ := Peer.new_eq_ok hpeer
  rw [AllowedIps.lookup_insert_all hiter]
  constructor
  · rintro (⟨hip, _⟩ | ⟨_, hnew⟩)
    · exact hip
    · cases hnew
  · intro hip
    exact Or.inl ⟨hip, rfl⟩

/-- The device after the peer was added. -/
def added (d : Device C) (pub_key : PublicKey) (index : UInt32) (generator : IndexLfsr) (p : Peer C)
    (peers_by_ip : AllowedIps PeerRef) : Device C :=
  { d with
    next_index := generator
    heap := d.heap ++ [p]
    peers := d.peers.insert pub_key.bytes d.heap.length
    peers_by_idx := d.peers_by_idx.insert index d.heap.length
    peers_by_ip := peers_by_ip }

include hips in
/-- No entry was for the place of the new peer. -/
theorem lookup_added (htables : d.Tables) {n : IpNetwork} :
    peers_by_ip.lookup n = some r ↔
      ((∃ ip ∈ config.allowed_ips, ip.network = some n) ∧ r = d.heap.length) ∨
      ((∀ ip ∈ config.allowed_ips, ip.network ≠ some n) ∧ r < d.heap.length ∧
        d.peers_by_ip.lookup n = some r) := by
  rw [AllowedIps.lookup_insert_all hips]
  refine or_congr Iff.rfl (and_congr Iff.rfl ?_)
  constructor
  · intro hn
    obtain ⟨k, hk⟩ := htables.peers_by_ip hn
    obtain ⟨q, hfiled⟩ := htables.peers hk
    exact ⟨(List.getElem?_eq_some_iff.mp hfiled.heap).1, hn⟩
  · exact And.right

include hpeer hips

theorem Owned.add (h : d.Owned) (htables : d.Tables) :
    (d.added pub_key index generator p peers_by_ip).Owned := by
  intro n r q hn hq
  rcases (lookup_added hips htables).mp hn with ⟨hip, rfl⟩ | ⟨_, hr, hold⟩
  · rcases getElem?_concat_cases hq with hq | ⟨_, rfl⟩
    · exact absurd (List.getElem?_eq_some_iff.mp hq).1 (Nat.lt_irrefl _)
    · exact (lookup_new_peer hpeer).mpr hip
  · rcases getElem?_concat_cases hq with hq | ⟨rfl, _⟩
    · exact h n r q hold hq
    · exact absurd hr (Nat.lt_irrefl _)

/-- The new peer shares no address with a current one. -/
theorem Separate.add (h : d.Separate) (howned : d.Owned) (htables : d.Tables)
    (hapart : ∀ (r : PeerRef) (q : Peer C) (a : IpAddr), d.HasPeer r → d.heap[r]? = some q →
      q.is_allowed_ip a = true → ¬ AllowedIP.Covers config.allowed_ips a) :
    (d.added pub_key index generator p peers_by_ip).Separate := by
  -- A network of a current peer is not a network of the new one.
  have hother : ∀ {n : IpNetwork} {r : PeerRef} {q : Peer C}, d.HasPeer r → d.heap[r]? = some q →
      q.allowed_ips.lookup n = some () → ∀ ip ∈ config.allowed_ips, ip.network ≠ some n := by
    intro n r q hr hq hn ip hip hnet
    obtain ⟨a, ha⟩ := n.contains_self
    exact hapart r q a hr hq (is_allowed_ip_iff.mpr ⟨n, hn, ha⟩) ⟨ip, hip, n, hnet, ha⟩
  -- A network of the new peer shares no address with an entry that stays.
  have hclash : ∀ {n m : IpNetwork} {r : PeerRef} {a : IpAddr},
      (∃ ip ∈ config.allowed_ips, ip.network = some n) → d.peers_by_ip.lookup m = some r →
      n.contains a = true → m.contains a = true → False := by
    intro n m r a ⟨ip, hip, hnet⟩ hm hcn hcm
    obtain ⟨k, hk⟩ := htables.peers_by_ip hm
    obtain ⟨q, hfiled⟩ := htables.peers hk
    have hallowed := is_allowed_ip_iff.mpr ⟨m, howned m r q hm hfiled.heap, hcm⟩
    exact hapart r q a ⟨k, hk⟩ hfiled.heap hallowed ⟨ip, hip, n, hnet, hcn⟩
  constructor
  · intro n r q hr hq hn
    refine (lookup_added hips htables).mpr ?_
    rcases getElem?_concat_cases hq with hold | ⟨rfl, rfl⟩
    · have hlt := (List.getElem?_eq_some_iff.mp hold).1
      obtain ⟨k, hk⟩ := hr
      rcases AList.lookup_insert_eq_some.mp hk with ⟨_, rfl⟩ | ⟨_, hk⟩
      · exact absurd hlt (Nat.lt_irrefl _)
      · exact Or.inr ⟨hother ⟨k, hk⟩ hold hn, hlt, h.entered ⟨k, hk⟩ hold hn⟩
    · exact Or.inl ⟨(lookup_new_peer hpeer).mp hn, rfl⟩
  · intro n m r r' a hn hm hcn hcm
    rcases (lookup_added hips htables).mp hn with ⟨hip, rfl⟩ | ⟨_, _, hn⟩
    · rcases (lookup_added hips htables).mp hm with ⟨_, rfl⟩ | ⟨_, _, hm⟩
      · rfl
      · exact (hclash hip hm hcn hcm).elim
    · rcases (lookup_added hips htables).mp hm with ⟨hip, rfl⟩ | ⟨_, _, hm⟩
      · exact (hclash hip hn hcm hcn).elim
      · exact h.disjoint hn hm hcn hcm

end add

/-! ## Section 3: Steps -/

theorem Owned.step (h : d.Owned) (htables : d.Tables)
    (hstep : d.step B op = .ok (d', calls, outputs)) : d'.Owned := by
  have hadvances := step_advances hstep
  rcases step_cases hstep with hchanges | hacts
  · cases hchanges with
    | same_key _ => exact h
    | set_key _ hloop =>
      have htables := (set_static_private_rekeys hloop).tables
      refine h.kept hadvances htables.heap_length ?_
      intro n r hn
      rw [← htables.peers_by_ip]
      exact hn
    | unknown _ _ => exact h
    | remove _ _ _ =>
      refine h.kept hadvances List.length_set ?_
      intro n r hn
      exact (AllowedIps.lookup_remove.mp hn).1
    | add _ _ _ _ hpeer hips => exact h.add hpeer hips htables
    | clear => exact .of_empty rfl
  · refine h.kept hadvances hacts.same_tables.heap_length ?_
    intro n r hn
    rw [← hacts.same_tables.peers_by_ip]
    exact hn

end Device

/-- A new peer has no address that a current peer may use. -/
def DeviceOp.Apart {C : Crypto} (op : DeviceOp) (d : Device C) : Prop :=
  ∀ (pub_key : PublicKey) (config : Device.PeerConfig) (new : Device.NewEnv),
    op = .update_peer pub_key config new → config.remove = false →
    ∀ (r : PeerRef) (q : Peer C) (a : IpAddr), d.HasPeer r → d.heap[r]? = some q →
      q.is_allowed_ip a = true → ¬ AllowedIP.Covers config.allowed_ips a

/-- A device whose peers are given separate addresses. -/
def separated (C : Crypto) (B : Build) : System (Device C) DeviceLabel :=
  (device C B).guard fun d l => l.op.Apart d

namespace Device

variable {C : Crypto} {B : Build} {d d₁ d' : Device C} {r : PeerRef} {p : Peer C}
  {calls : List Call} {outputs : List Output} {op : DeviceOp}

theorem Separate.step (h : d.Separate) (howned : d.Owned) (htables : d.Tables)
    (hstep : d.step B op = .ok (d', calls, outputs)) (hapart : op.Apart d) : d'.Separate := by
  have hadvances := step_advances hstep
  rcases step_cases hstep with hchanges | hacts
  · cases hchanges with
    | same_key _ => exact h
    | set_key _ hloop =>
      have hsame := (set_static_private_rekeys hloop).tables
      refine h.kept hadvances hsame.heap_length ?_ ?_ ?_
      · rintro r ⟨k, hk⟩
        exact ⟨k, hsame.peers ▸ hk⟩
      · intro n r hn
        exact hsame.peers_by_ip ▸ hn
      · intro n r _ hn
        exact hsame.peers_by_ip.symm ▸ hn
    | unknown _ _ => exact h
    | remove _ hr _ =>
      refine h.kept hadvances List.length_set ?_ ?_ ?_
      · rintro r ⟨k, hk⟩
        exact ⟨k, ((htables.lookup_without hr).mp hk).1⟩
      · intro n r hn
        exact (AllowedIps.lookup_remove.mp hn).1
      · rintro n r' ⟨k, hk⟩ hn
        obtain ⟨_, hne⟩ := (htables.lookup_without hr).mp hk
        exact AllowedIps.lookup_remove.mpr ⟨hn, decide_eq_false hne⟩
    | add hremove _ _ _ hpeer hips =>
      exact h.add hpeer hips howned htables (hapart _ _ _ rfl hremove)
    | clear => exact .of_empty rfl rfl
  · have hsame := hacts.same_tables
    refine h.kept hadvances hsame.heap_length ?_ ?_ ?_
    · rintro r ⟨k, hk⟩
      exact ⟨k, hsame.peers ▸ hk⟩
    · intro n r hn
      exact hsame.peers_by_ip ▸ hn
    · intro n r _ hn
      exact hsame.peers_by_ip.symm ▸ hn

/-! ## Section 4: Runs -/

section runs
variable {use_connected_socket : Bool} {seed mask : UInt32} {hseed : Seed seed} {hmask : Seed mask}
  {tr : List DeviceLabel}

theorem run_owned
    (hrun : Run (device C B) (.new use_connected_socket (.default seed mask hseed hmask)) tr d) :
    d.Tables ∧ d.Owned := by
  refine hrun.invariant (I := fun _ d => d.Tables ∧ d.Owned) ⟨.new, .of_empty rfl⟩ ?_
  intro tr d l d' ih hstep
  exact ⟨ih.1.step hstep, ih.2.step ih.1 hstep⟩

/-- **A packet that is sent to a peer may come back**: the peer that a destination is routed to
    may use it as a source, in every run. -/
theorem routed_allowed
    (hrun : Run (device C B) (.new use_connected_socket (.default seed mask hseed hmask)) tr d)
    {a : IpAddr} (hfind : d.peers_by_ip.find a = some r) (hp : d.heap[r]? = some p) :
    p.is_allowed_ip a = true :=
  (run_owned hrun).2.allowed hfind hp

/-- **Cryptokey routing is symmetric** as long as no address of a new peer is one that a current
    peer may use. -/
theorem routing_symmetric
    (hrun : Run (separated C B) (.new use_connected_socket (.default seed mask hseed hmask)) tr d) :
    d.Symmetric := by
  have hroutes : (d.Tables ∧ d.Owned) ∧ d.Separate := by
    refine hrun.invariant (I := fun _ d => (d.Tables ∧ d.Owned) ∧ d.Separate)
      ⟨⟨.new, .of_empty rfl⟩, .of_empty rfl rfl⟩ ?_
    intro tr d l d' ⟨⟨htables, howned⟩, hseparate⟩ ⟨hstep, hapart⟩
    exact ⟨⟨htables.step hstep, howned.step htables hstep⟩,
      hseparate.step howned htables hstep hapart⟩
  exact hroutes.2.symmetric hroutes.1.2

end runs

/-- 10.1.0.0/16 -/
def net10_1 : AllowedIP := ⟨.V4 0x0a010000, 16⟩

/-- fd00::/8 -/
def netfd : AllowedIP := ⟨.V6 (0xfd <<< 120), 8⟩

/-- The device gets a key, a peer that may use 10.0.0.0/8, and another peer. -/
def symbolicKeyed : DeviceOp := .set_key [7] 0 (symbolicEnv 0)

def symbolicFirst : DeviceOp :=
  .update_peer (symbolicKey 9) (symbolicConfig [net10]) symbolicNew

def symbolicSecond (ips : List AllowedIP) : DeviceOp :=
  .update_peer (symbolicKey 8) (symbolicConfig ips) symbolicNew

/-- The first peer may use IPv4 addresses and the second one IPv6 addresses. -/
theorem routing_symmetric_families : ∃ (d : Device symbolic) (tr : List DeviceLabel),
    Run (separated symbolic (symbolicBuild false)) symbolicDevice tr d ∧ d.HasPeer 0 ∧ d.HasPeer 1 ∧
      d.Symmetric := by
  obtain ⟨⟨d₁, calls₁, outputs₁⟩, hkeyed, hnone, ⟨d₂, calls₂, outputs₂⟩, hfirst, ⟨q, hq, hv6⟩,
      ⟨d₃, calls₃, outputs₃⟩, hsecond, hpeer₀, hpeer₁⟩ : ∃ x,
      symbolicDevice.step (symbolicBuild false) symbolicKeyed = .ok x ∧ x.1.peers = ∅ ∧ ∃ y,
      x.1.step (symbolicBuild false) symbolicFirst = .ok y ∧
        (∃ q, y.1.heap = [q] ∧ ∀ a, q.is_allowed_ip (.V6 a) = false) ∧ ∃ z,
      y.1.step (symbolicBuild false) (symbolicSecond [netfd]) = .ok z ∧
        z.1.peers.lookup (symbolicKey 9).bytes = some 0 ∧
        z.1.peers.lookup (symbolicKey 8).bytes = some 1 :=
    ⟨_, rfl, rfl, _, rfl, ⟨_, rfl, fun _ => rfl⟩, _, rfl, by decide, by decide⟩
  have hapart₁ : symbolicKeyed.Apart symbolicDevice := by
    intro pub_key config new hop
    cases hop
  have hapart₂ : symbolicFirst.Apart d₁ := by
    intro pub_key config new _ _ r q a ⟨k, hk⟩
    have hnone : d₁.peers = ∅ := hnone
    rw [hnone] at hk
    cases hk
  have hapart₃ : (symbolicSecond [netfd]).Apart d₂ := by
    intro pub_key config new hop _ r q' a _ hq' hallowed hcovers
    cases hop
    obtain ⟨ip, hip, n, hnet, hcontains⟩ := hcovers
    obtain rfl := List.mem_singleton.mp hip
    cases hnet
    -- The first peer may use no IPv6 address.
    cases a with
    | V4 a => cases hcontains
    | V6 a =>
      have hheap : d₂.heap = [q] := hq
      rw [hheap] at hq'
      obtain rfl := List.mem_singleton.mp (List.mem_of_getElem? hq')
      rw [hv6 a] at hallowed
      cases hallowed
  let l₁ : DeviceLabel := ⟨symbolicKeyed, calls₁, outputs₁⟩
  let l₂ : DeviceLabel := ⟨symbolicFirst, calls₂, outputs₂⟩
  let l₃ : DeviceLabel := ⟨symbolicSecond [netfd], calls₃, outputs₃⟩
  have hrun₁ : Run (separated symbolic (symbolicBuild false)) symbolicDevice ([] ++ [l₁]) d₁ :=
    .snoc .nil ⟨hkeyed, hapart₁⟩
  have hrun₂ := hrun₁.snoc (l := l₂) ⟨hfirst, hapart₂⟩
  have hrun₃ := hrun₂.snoc (l := l₃) ⟨hsecond, hapart₃⟩
  exact ⟨d₃, _, hrun₃, ⟨_, hpeer₀⟩, ⟨_, hpeer₁⟩, routing_symmetric hrun₃⟩

/-- The second peer's network is a part of the first one's: its addresses are routed to the second
    peer, but the first one may use them as well. -/
theorem routing_asymmetric : ∃ (d : Device symbolic) (tr : List DeviceLabel) (p : Peer symbolic),
    Run (device symbolic (symbolicBuild false)) symbolicDevice tr d ∧ d.HasPeer 0 ∧
      d.heap[0]? = some p ∧ p.is_allowed_ip (.V4 0x0a010203) = true ∧
      d.peers_by_ip.find (.V4 0x0a010203) = some 1 := by
  obtain ⟨⟨d, tr⟩, hexec, hpeer, ⟨p, hp, hallowed⟩, hfind⟩ : ∃ x,
      symbolicDevice.exec (symbolicBuild false) [symbolicKeyed, symbolicFirst,
        symbolicSecond [net10_1]] = .ok x ∧
        x.1.peers.lookup (symbolicKey 9).bytes = some 0 ∧
        (∃ p, x.1.heap[0]? = some p ∧ p.is_allowed_ip (.V4 0x0a010203) = true) ∧
        x.1.peers_by_ip.find (.V4 0x0a010203) = some 1 :=
    ⟨_, rfl, by decide, ⟨_, rfl, by decide⟩, by decide⟩
  exact ⟨d, tr, p, exec_run hexec, ⟨_, hpeer⟩, hp, hallowed, hfind⟩

end Device

end PqBoringtun
