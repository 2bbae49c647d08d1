import PqBoringtun.Framework.NetworkTable
import PqBoringtun.Framework.Outcome
import PqBoringtun.Noise.Packet

/-! # Allowed IPs

    Model of `device/allowed_ips.rs`: a table from networks, which are
    addresses with their host bits cleared, to data.  The `ip_network_table`
    crate is taken to be a map with longest-prefix lookup.
-/

namespace PqBoringtun

/-! ## Section 1: Networks -/

/-- The first `len` bits of an address. -/
def network_address {w : Nat} (addr : BitVec w) (len : Nat) : BitVec w :=
  addr >>> (w - len) <<< (w - len)

theorem network_address_idem {w : Nat} (addr : BitVec w) (len : Nat) :
    network_address (network_address addr len) len = network_address addr len := by
  ext i hi
  by_cases hlow : i < w - len
  · simp [network_address, hlow]
  · have hback : w - len + (i - (w - len)) = i := Nat.add_sub_cancel' (Nat.not_lt.mp hlow)
    simp [network_address, hlow, hback, hi]

/-- A network of `w`-bit addresses, without host bits. -/
@[ext] structure Network (w : Nat) where
  address : BitVec w
  netmask : Nat
  netmask_le : netmask ≤ w
  truncated : network_address address netmask = address
  deriving DecidableEq

namespace Network

variable {w : Nat}

/-- The network of an address; fails for a netmask that is too long. -/
def new_truncate (addr : BitVec w) (netmask : Nat) : Option (Network w) :=
  if h : netmask ≤ w then
    some ⟨network_address addr netmask, netmask, h, network_address_idem addr netmask⟩
  else none

def contains (n : Network w) (addr : BitVec w) : Bool :=
  network_address addr n.netmask = n.address

theorem eq_of_contains {n m : Network w} {addr : BitVec w} (hn : n.contains addr)
    (hm : m.contains addr) (hlen : n.netmask = m.netmask) : n = m := by
  have hn : network_address addr n.netmask = n.address := of_decide_eq_true hn
  have hm : network_address addr m.netmask = m.address := of_decide_eq_true hm
  rw [← hlen, hn] at hm
  exact Network.ext hm hlen

end Network

/-- An IPv4 or an IPv6 network. -/
inductive IpNetwork where
  | V4 (network : Network 32)
  | V6 (network : Network 128)
  deriving DecidableEq

namespace IpNetwork

def new_truncate (ip : IpAddr) (netmask : Nat) : Option IpNetwork :=
  match ip with
  | .V4 addr => (Network.new_truncate addr netmask).map .V4
  | .V6 addr => (Network.new_truncate addr netmask).map .V6

def netmask : IpNetwork → Nat
  | .V4 n => n.netmask
  | .V6 n => n.netmask

def contains : IpNetwork → IpAddr → Bool
  | .V4 n, .V4 addr => n.contains addr
  | .V6 n, .V6 addr => n.contains addr
  | _, _ => false

instance : Networks IpNetwork IpAddr where
  contains := contains
  length := netmask
  eq_of_contains := by
    intro n m a hn hm hlen
    cases a with
    | V4 addr =>
      cases n with
      | V4 n =>
        cases m with
        | V4 m => rw [Network.eq_of_contains hn hm hlen]
        | V6 m => cases hm
      | V6 n => cases hn
    | V6 addr =>
      cases n with
      | V4 n => cases hn
      | V6 n =>
        cases m with
        | V4 m => cases hm
        | V6 m => rw [Network.eq_of_contains hn hm hlen]

end IpNetwork

/-! ## Section 2: Tables -/

/-- An address with the length of its network. -/
structure AllowedIP where
  addr : IpAddr
  cidr : UInt8
  deriving DecidableEq

/-- The network an entry stands for. -/
def AllowedIP.network (ip : AllowedIP) : Option IpNetwork :=
  IpNetwork.new_truncate ip.addr ip.cidr.toNat

/-- A trie of IP/cidr addresses. -/
abbrev AllowedIps (D : Type) : Type := NetworkTable IpNetwork D

namespace AllowedIps

variable {D : Type}

def new : AllowedIps D := ∅

/-- These are networks, it doesn't make sense for host bits to be set, so they are cleared. -/
def insert (t : AllowedIps D) (ip : AllowedIP) (data : D) : Outcome (AllowedIps D) :=
  match ip.network with
  | some network => .ok (AList.insert network data t)
  | none => .panic "cidr is valid length"

def find (t : AllowedIps D) (key : IpAddr) : Option D := (t.longest_match key).map Prod.snd

def remove (t : AllowedIps D) (predicate : D → Bool) : AllowedIps D :=
  t.retain fun data => !predicate data

/-- One entry for each of the addresses, in order. -/
def insert_all (t : AllowedIps D) (ips : List AllowedIP) (data : D) : Outcome (AllowedIps D) :=
  ips.foldlM (fun t ip => t.insert ip data) t

/-- `FromIterator`, all entries with the same data. -/
def from_iter (ips : List AllowedIP) (data : D) : Outcome (AllowedIps D) := new.insert_all ips data

variable {t t' : AllowedIps D} {ips : List AllowedIP} {data d : D} {n : IpNetwork} {a : IpAddr}

theorem insert_eq_ok {ip : AllowedIP} : t.insert ip data = .ok t' ↔
    ∃ n, ip.network = some n ∧ AList.insert n data t = t' := by
  unfold insert
  cases ip.network with
  | none => simp
  | some n => simp

theorem find_eq_some : t.find a = some d ↔ ∃ n, t.lookup n = some d ∧ n.contains a = true ∧
    ∀ m d', t.lookup m = some d' → m.contains a = true → m.netmask ≤ n.netmask := by
  unfold find
  rw [Option.map_eq_some_iff]
  constructor
  · rintro ⟨⟨n, d'⟩, hmatch, rfl⟩
    exact ⟨n, NetworkTable.longest_match_eq_some.mp hmatch⟩
  · rintro ⟨n, h⟩
    exact ⟨(n, d), NetworkTable.longest_match_eq_some.mpr h, rfl⟩

theorem find_isSome : (t.find a).isSome = true ↔
    ∃ n d, t.lookup n = some d ∧ n.contains a = true := by
  unfold find
  rw [Option.isSome_map]
  constructor
  · intro h
    obtain ⟨⟨n, d⟩, hmatch⟩ := Option.isSome_iff_exists.mp h
    obtain ⟨hlookup, hcontains, _⟩ := NetworkTable.longest_match_eq_some.mp hmatch
    exact ⟨n, d, hlookup, hcontains⟩
  · rintro ⟨n, d, hlookup, hcontains⟩
    refine Option.isSome_iff_ne_none.mpr fun hnone => ?_
    have hfalse : n.contains a = false :=
      NetworkTable.longest_match_eq_none.mp hnone n d hlookup
    rw [hcontains] at hfalse
    cases hfalse

theorem lookup_remove {predicate : D → Bool} : (t.remove predicate).lookup n = some d ↔
    t.lookup n = some d ∧ predicate d = false := by
  unfold remove
  rw [NetworkTable.lookup_retain]
  simp

/-- Entries with a network are inserted without a panic. -/
theorem insert_all_returns (t : AllowedIps D) (data : D)
    (hips : ∀ ip ∈ ips, ip.network.isSome = true) : ∃ t', t.insert_all ips data = .ok t' := by
  induction ips generalizing t with
  | nil => exact ⟨t, rfl⟩
  | cons ip ips ih =>
    obtain ⟨n, hn⟩ := Option.isSome_iff_exists.mp (hips ip List.mem_cons_self)
    have hinsert : t.insert ip data = .ok (AList.insert n data t) := insert_eq_ok.mpr ⟨n, hn, rfl⟩
    obtain ⟨t', ht'⟩ := ih (AList.insert n data t)
      fun ip' hip' => hips ip' (List.mem_cons_of_mem _ hip')
    exact ⟨t', Outcome.bind_eq_ok.mpr ⟨_, hinsert, ht'⟩⟩

/-- **What an insertion of several entries leaves in the table**: their networks have the new data,
    the others keep theirs. -/
theorem lookup_insert_all (h : t.insert_all ips data = .ok t') :
    t'.lookup n = some d ↔ ((∃ ip ∈ ips, ip.network = some n) ∧ d = data) ∨
      ((∀ ip ∈ ips, ip.network ≠ some n) ∧ t.lookup n = some d) := by
  induction ips generalizing t with
  | nil =>
    cases h
    simp
  | cons ip ips ih =>
    obtain ⟨t₁, hinsert, hrest⟩ := Outcome.bind_eq_ok.mp h
    rw [ih hrest]
    obtain ⟨m, hnet, rfl⟩ := insert_eq_ok.mp hinsert
    rw [AList.lookup_insert_eq_some]
    by_cases hn : n = m
    · subst hn
      by_cases hlater : ∃ ip ∈ ips, ip.network = some n
      · simp [hlater, hnet]
      · have hnone : ∀ ip ∈ ips, ip.network ≠ some n := fun ip hip heq => hlater ⟨ip, hip, heq⟩
        have hrest : (∀ ip ∈ ips, ip.network ≠ some n) ↔ True := iff_true_intro hnone
        simp only [hlater, hrest, List.mem_cons, exists_eq_or_imp, hnet, true_and, false_and,
          false_or, ne_eq, not_true_eq_false, or_false, forall_eq_or_imp]
    · have hne : ip.network ≠ some n := by
        rw [hnet]
        exact fun heq => hn (Option.some.inj heq).symm
      simp [hn, hne]

/-- An address is found among the entries of one owner when one of their networks contains it. -/
theorem find_from_iter {t : AllowedIps D} (h : from_iter ips data = .ok t) :
    (t.find a).isSome = true ↔ ∃ ip ∈ ips, ∃ n, ip.network = some n ∧ n.contains a = true := by
  rw [find_isSome]
  constructor
  · rintro ⟨n, d, hlookup, hcontains⟩
    rcases (lookup_insert_all h).mp hlookup with ⟨⟨ip, hip, hn⟩, _⟩ | ⟨_, hnew⟩
    · exact ⟨ip, hip, n, hn, hcontains⟩
    · cases hnew
  · rintro ⟨ip, hip, n, hn, hcontains⟩
    exact ⟨n, data, (lookup_insert_all h).mpr (Or.inl ⟨⟨ip, hip, hn⟩, rfl⟩), hcontains⟩

end AllowedIps

end PqBoringtun
