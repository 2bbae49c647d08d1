import PqBoringtun.Noise.Sources
import PqBoringtun.Noise.Symbolic

/-! # Packets for the interface

    A decrypted packet is cut to the length its own header states before it
    is written to the interface.  The stated length is compared with the
    length of the packet, but not with the size of the header: an IPv4 packet
    that states less than 20 bytes is cut into its header.

    `consistent_iff`: apart from these packets, what is written is a whole IP
    packet with the stated source address, and validating it again changes
    nothing.
-/

namespace PqBoringtun

open Bytes

/-- The upper half of the first byte. -/
def ip_version (packet : Bytes) : UInt8 := packet.headD 0 >>> 4

/-- A packet with a full header, whose length field describes exactly its length, from the
    address in its source field. -/
inductive IpPacket (q : Bytes) : IpAddr → Prop where
  | V4 (hversion : ip_version q = 4) (hheader : Tunn.IPV4_MIN_HEADER_SIZE ≤ q.length)
      (hlength : beValue (slice q 2 4) = q.length) :
      IpPacket q (.V4 (BitVec.ofNat 32 (beValue (slice q 12 16))))
  | V6 (hversion : ip_version q = 6) (hheader : Tunn.IPV6_MIN_HEADER_SIZE ≤ q.length)
      (hlength : beValue (slice q 4 6) + Tunn.IPV6_MIN_HEADER_SIZE = q.length) :
      IpPacket q (.V6 (BitVec.ofNat 128 (beValue (slice q 8 24))))

namespace Tunn

variable {C : Crypto}

/-- What is written to the interface for `p` is a first part of it that is an IP packet from the
    returned address, has a destination, and is validated to itself. -/
def Consistent (t : Tunn C) (p : Bytes) : Prop :=
  ∀ q addr, (t.validate_decapsulated_packet p).1.toTunnel? = some (q, addr) →
    q <+: p ∧ IpPacket q addr ∧ (dst_address q).isSome ∧
      ∀ t' : Tunn C, (t'.validate_decapsulated_packet q).1.toTunnel? = some (q, addr)

/-- An IPv4 packet that states a length smaller than its header. -/
def Cut (p : Bytes) : Prop :=
  ip_version p = 4 ∧ IPV4_MIN_HEADER_SIZE ≤ p.length ∧
    beValue (slice p 2 4) < IPV4_MIN_HEADER_SIZE

/-! ## Section 1: Headers -/

/-- What the header states, as the code reads it. -/
theorem ip_header_eq_some {p : Bytes} {len : Nat} {addr : IpAddr} :
    ip_header p = some (len, addr) ↔
      (ip_version p = 4 ∧ IPV4_MIN_HEADER_SIZE ≤ p.length ∧ len = beValue (slice p 2 4) ∧
        addr = .V4 (BitVec.ofNat 32 (beValue (slice p 12 16)))) ∨
      (ip_version p = 6 ∧ IPV6_MIN_HEADER_SIZE ≤ p.length ∧
        len = beValue (slice p 4 6) + IPV6_MIN_HEADER_SIZE ∧
        addr = .V6 (BitVec.ofNat 128 (beValue (slice p 8 24)))) := by
  have hcases : ip_header p =
      if ip_version p = 4 ∧ IPV4_MIN_HEADER_SIZE ≤ p.length then
        some (beValue (slice p 2 4), .V4 (BitVec.ofNat 32 (beValue (slice p 12 16))))
      else if ip_version p = 6 ∧ IPV6_MIN_HEADER_SIZE ≤ p.length then
        some (beValue (slice p 4 6) + IPV6_MIN_HEADER_SIZE,
          .V6 (BitVec.ofNat 128 (beValue (slice p 8 24))))
      else none := rfl
  rw [hcases]
  by_cases h4 : ip_version p = 4 ∧ IPV4_MIN_HEADER_SIZE ≤ p.length
  · rw [if_pos h4]
    simp [h4, eq_comm]
  · rw [if_neg h4]
    by_cases h6 : ip_version p = 6 ∧ IPV6_MIN_HEADER_SIZE ≤ p.length
    · rw [if_pos h6]
      simp [h6, eq_comm]
    · rw [if_neg h6]
      simp only [reduceCtorEq, false_iff, not_or]
      exact ⟨fun h => h4 ⟨h.1, h.2.1⟩, fun h => h6 ⟨h.1, h.2.1⟩⟩

/-- A packet is an IP packet if its header states its own length. -/
theorem ipPacket_iff {q : Bytes} {addr : IpAddr} :
    IpPacket q addr ↔ ip_header q = some (q.length, addr) := by
  rw [ip_header_eq_some]
  constructor
  · intro h
    cases h with
    | V4 hversion hheader hlength => exact Or.inl ⟨hversion, hheader, hlength.symm, rfl⟩
    | V6 hversion hheader hlength => exact Or.inr ⟨hversion, hheader, hlength.symm, rfl⟩
  · rintro (⟨hversion, hheader, hlength, rfl⟩ | ⟨hversion, hheader, hlength, rfl⟩)
    · exact .V4 hversion hheader hlength.symm
    · exact .V6 hversion hheader hlength.symm

theorem slice_take {p : Bytes} {n lo hi : Nat} (h : hi ≤ n) :
    slice (p.take n) lo hi = slice p lo hi := by
  unfold slice
  rw [List.drop_take, List.take_take, Nat.min_eq_left (by omega)]

theorem ip_version_take {p : Bytes} {n : Nat} (h : 0 < n) :
    ip_version (p.take n) = ip_version p := by
  obtain ⟨k, rfl⟩ : ∃ k, n = k + 1 := ⟨n - 1, by omega⟩
  cases p with
  | nil => rfl
  | cons b rest => rfl

/-- A packet cut to the length its header states keeps this header, unless it is cut into it. -/
theorem ip_header_take {p : Bytes} {len : Nat} {addr : IpAddr}
    (h : ip_header p = some (len, addr)) (hlen : len ≤ p.length) (hcut : ¬ Cut p) :
    ip_header (p.take len) = some ((p.take len).length, addr) := by
  have htake : (p.take len).length = len := by
    rw [List.length_take]
    omega
  rw [htake, ip_header_eq_some]
  rcases ip_header_eq_some.mp h with ⟨hversion, hheader, hfield, haddr⟩ |
    ⟨hversion, hheader, hfield, haddr⟩
  · have hroom : IPV4_MIN_HEADER_SIZE ≤ len := by
      by_contra hlt
      exact hcut ⟨hversion, hheader, by omega⟩
    have h20 : 20 ≤ len := hroom
    rw [ip_version_take (by omega), slice_take (by omega), slice_take (by omega), htake]
    exact Or.inl ⟨hversion, hroom, hfield, haddr⟩
  · have hroom : IPV6_MIN_HEADER_SIZE ≤ len := by omega
    have h40 : 40 ≤ len := hroom
    refine Or.inr ?_
    rw [ip_version_take (by omega), slice_take (by omega), slice_take (by omega), htake]
    exact ⟨hversion, hroom, hfield, haddr⟩

/-! ## Section 2: Validation -/

/-- What is written, from what the header states. -/
theorem validate_toTunnel_iff {t : Tunn C} {p q : Bytes} {addr : IpAddr} :
    (t.validate_decapsulated_packet p).1.toTunnel? = some (q, addr) ↔
      ∃ len, ip_header p = some (len, addr) ∧ len ≤ p.length ∧ q = p.take len := by
  constructor
  · intro h
    exact (validate_delivers h).2
  · rintro ⟨len, hheader, hlen, rfl⟩
    have hne : p ≠ [] := by
      rintro rfl
      cases hheader
    unfold validate_decapsulated_packet
    rw [if_neg hne, hheader]
    dsimp only
    rw [if_neg (Nat.not_lt.mpr hlen)]
    cases addr <;> rfl

theorem dst_address_of_ipPacket {q : Bytes} {addr : IpAddr} (h : IpPacket q addr) :
    (dst_address q).isSome := by
  cases h with
  | V4 hversion hheader _ =>
    have : dst_address q = some (.V4 (BitVec.ofNat 32 (beValue (slice q 16 20)))) :=
      if_pos ⟨hversion, hheader⟩
    rw [this]
    rfl
  | V6 hversion hheader _ =>
    have h4 : ¬ (ip_version q = 4 ∧ IPV4_MIN_HEADER_SIZE ≤ q.length) := by
      rw [hversion]
      simp
    have : dst_address q = some (.V6 (BitVec.ofNat 128 (beValue (slice q 24 40)))) :=
      (if_neg h4).trans (if_pos ⟨hversion, hheader⟩)
    rw [this]
    rfl

/-- **Which packets are written as they should be**: all but the IPv4 packets that state a length
    smaller than their header. -/
theorem consistent_iff (t : Tunn C) (p : Bytes) : t.Consistent p ↔ ¬ Cut p := by
  constructor
  · rintro hcons ⟨hversion, hheader, hshort⟩
    have hstated : ip_header p = some (beValue (slice p 2 4), _) :=
      ip_header_eq_some.mpr (Or.inl ⟨hversion, hheader, rfl, rfl⟩)
    have hwritten := validate_toTunnel_iff (t := t).mpr ⟨_, hstated, by omega, rfl⟩
    obtain ⟨_, hpacket, _⟩ := hcons _ _ hwritten
    rcases ip_header_eq_some.mp (ipPacket_iff.mp hpacket) with ⟨_, hfull, _⟩ | ⟨_, _, _, haddr⟩
    · rw [List.length_take] at hfull
      omega
    · cases haddr
  · intro hcut q addr hwritten
    obtain ⟨len, hstated, hlen, rfl⟩ := validate_toTunnel_iff.mp hwritten
    have hself := ip_header_take hstated hlen hcut
    have hpacket := ipPacket_iff.mpr hself
    refine ⟨List.take_prefix _ _, hpacket, dst_address_of_ipPacket hpacket, fun t' => ?_⟩
    exact validate_toTunnel_iff.mpr ⟨_, hself, Nat.le_refl _, by rw [List.take_length]⟩

/-- **A header that states no length.**  An IPv4 packet from 10.0.0.1 with a length field of zero
    is written to the interface as an empty packet. -/
theorem validate_cuts_header :
    (symbolicTunn.validate_decapsulated_packet
      [0x45, 0, 0, 0, 0, 0, 0, 0, 64, 17, 0, 0, 10, 0, 0, 1, 10, 0, 0, 2]).1 =
        .WriteToTunnelV4 [] 0x0a000001 ∧
    dst_address [] = none ∧
    (symbolicTunn.validate_decapsulated_packet []).1 = .Done := by
  decide

end Tunn

end PqBoringtun
