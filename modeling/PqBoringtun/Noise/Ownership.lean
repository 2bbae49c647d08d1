import PqBoringtun.Noise.LoadLimit

/-! # What a cookie proves

    The cookie of an address is a keyed mac of the current period and of the
    address.  An IPv4 address is padded to the 16 bytes of an IPv6 address
    with zeros, so the two families share cookies: an IPv4 address and the
    IPv6 address that starts with its four bytes are `Twins`.

    `cookie_owned_iff`: a message made with the cookie of one address passes
    from another one exactly if the two are twins and the period is the same.

    A mac of 16 bytes has collisions.  That there are none is assumed of the
    macs in question only (`Crypto.CollisionFree`).
-/

namespace PqBoringtun

open Bytes

/-! ## Section 1: Addresses -/

/-- Addresses of different families with the same bytes. -/
def IpAddr.Twins : IpAddr → IpAddr → Prop
  | .V4 a, .V6 b => b = a ++ 0#96
  | .V6 a, .V4 b => a = b ++ 0#96
  | _, _ => False

/-- The bytes of an address as a number. -/
def IpAddr.padded : IpAddr → BitVec 128
  | .V4 a => a ++ 0#96
  | .V6 a => a

theorem toNat_append_zeros (a : BitVec 32) : (a ++ 0#96).toNat = a.toNat * 256 ^ 12 := by
  rw [BitVec.toNat_append, BitVec.toNat_ofNat, Nat.zero_mod, Nat.or_zero, Nat.shiftLeft_eq]
  norm_num

theorem IpAddr.cookie_bytes_eq (a : IpAddr) : a.cookie_bytes = beBytes 16 a.padded.toNat := by
  cases a with
  | V4 a =>
    rw [cookie_bytes, beBytes_append_zeros, padded, toNat_append_zeros]
  | V6 a => rfl

/-- **The addresses that have the same cookie.** -/
theorem IpAddr.cookie_bytes_eq_iff (a b : IpAddr) :
    a.cookie_bytes = b.cookie_bytes ↔ a = b ∨ a.Twins b := by
  have hpadded : a.cookie_bytes = b.cookie_bytes ↔ a.padded = b.padded := by
    rw [a.cookie_bytes_eq, b.cookie_bytes_eq]
    constructor
    · intro h
      apply BitVec.eq_of_toNat_eq
      exact beBytes_injective (by simpa using a.padded.isLt) (by simpa using b.padded.isLt) h
    · intro h
      rw [h]
  rw [hpadded]
  cases a with
  | V4 a =>
    cases b with
    | V4 b =>
      simp only [padded, Twins, V4.injEq, or_false]
      constructor
      · intro h
        have hval := congrArg BitVec.toNat h
        rw [toNat_append_zeros, toNat_append_zeros] at hval
        exact BitVec.eq_of_toNat_eq (Nat.eq_of_mul_eq_mul_right (by norm_num) hval)
      · intro h
        rw [h]
    | V6 b => simp [padded, Twins, eq_comm]
  | V6 a =>
    cases b with
    | V4 b => simp [padded, Twins]
    | V6 b => simp [padded, Twins]

/-! ## Section 2: Cookies -/

/-- No two of these keys and data have the same mac. -/
def Crypto.CollisionFree (C : Crypto) (used : List (Bytes × Bytes)) : Prop :=
  ∀ x ∈ used, ∀ y ∈ used, C.keyed_mac_16 x.1 x.2 = C.keyed_mac_16 y.1 y.2 → x = y

namespace RateLimiter

variable {C : Crypto} {B : Build}

/-- A moment in the life of a limiter: the seconds since its start are a number of 64 bits. -/
def Moment (l : RateLimiter) : Type := { now : Nat // (now - l.start_time) / SEC < 2 ^ 64 }

theorem period_lt (l : RateLimiter) (now : l.Moment) : l.period now.1 < 2 ^ 64 :=
  (Nat.div_le_self _ _).trans_lt now.2

/-- Key and data of the mac that is the cookie of an address. -/
def cookieInput (l : RateLimiter) (addr : IpAddr) (now : Nat) : Bytes × Bytes :=
  (l.secret_key, leBytes 8 (l.period now) ++ addr.cookie_bytes)

/-- The macs that decide about a message made with the cookie of `a` that arrives from `b`. -/
def macInputs (C : Crypto) (l : RateLimiter) (a b : IpAddr) (now now' : Nat) (data : Bytes) :
    List (Bytes × Bytes) :=
  [l.cookieInput a now, l.cookieInput b now', (l.current_cookie C a now, data),
    (l.current_cookie C b now', data)]

/-- **Equal cookies** belong to one period, and to one address or to twins. -/
theorem current_cookie_eq_iff {l : RateLimiter} {a b : IpAddr} {now now' : l.Moment}
    {data : Bytes} (hfree : C.CollisionFree (l.macInputs C a b now.1 now'.1 data)) :
    l.current_cookie C a now.1 = l.current_cookie C b now'.1 ↔
      (a = b ∨ a.Twins b) ∧ l.period now.1 = l.period now'.1 := by
  rw [← IpAddr.cookie_bytes_eq_iff]
  constructor
  · intro h
    have hinput := hfree (l.cookieInput a now.1) (by simp [macInputs])
      (l.cookieInput b now'.1) (by simp [macInputs]) h
    obtain ⟨hperiod, haddr⟩ := List.append_inj (Prod.mk.inj hinput).2 (by simp)
    have h8 : (256 : Nat) ^ 8 = 2 ^ 64 := by norm_num
    exact ⟨haddr, leBytes_injective (lt_of_lt_of_eq (l.period_lt now) h8.symm)
      (lt_of_lt_of_eq (l.period_lt now') h8.symm) hperiod⟩
  · rintro ⟨haddr, hperiod⟩
    unfold period at hperiod
    unfold current_cookie
    rw [haddr, hperiod]

/-- Under load a handshake message passes if both macs are right. -/
theorem passes_under_load_iff {l : RateLimiter} {src : Bytes} {packet : Packet} {idx : UInt32}
    (hparse : parse_incoming_packet B src = .ok packet) (hidx : packet.sender_idx = some idx)
    (hload : l.limit ≤ l.count) (addr : IpAddr) (dst_len now : Nat) :
    (l.verify_packet C B (some addr) src dst_len now).1 = .ok packet ↔
      b2s_keyed_mac_16 C l.mac1_key (slice src 0 (src.length - 32)) =
          slice src (src.length - 32) (src.length - 16) ∧
        l.proves C (some addr) src now = true := by
  have hbusy : ¬ l.is_under_load.1 = false := by
    rw [show l.is_under_load.1 = true from decide_eq_true hload]
    simp
  unfold verify_packet proves
  rw [hparse]
  dsimp only
  rw [hidx]
  dsimp only
  by_cases hmac1 : b2s_keyed_mac_16 C l.mac1_key (slice src 0 (src.length - 32)) =
      slice src (src.length - 32) (src.length - 16)
  · rw [if_neg (not_not.mpr hmac1), if_neg hbusy, decide_eq_true_iff]
    split
    · rename_i hmac2
      exact ⟨fun _ => ⟨hmac1, hmac2⟩, fun _ => rfl⟩
    · rename_i hmac2
      refine ⟨fun h => ?_, fun h => absurd h.2 hmac2⟩
      split at h
      · cases h
      · cases h
  · rw [if_pos hmac1]
    exact ⟨fun h => (by cases h), fun h => absurd h.1 hmac1⟩

/-- **What a cookie proves.**  A handshake message with a mac2 made with the cookie of `a` arrives
    from `b` at a limiter under load.  That it passes only if `a` and `b` are the same address and
    the period is the same holds, unless they are twins of one period (and mac1 is right). -/
theorem cookie_owned_iff {l : RateLimiter} {src : Bytes} {packet : Packet} {idx : UInt32}
    {a b : IpAddr} {now now' : l.Moment}
    (hfree : C.CollisionFree (l.macInputs C a b now.1 now'.1
      (slice src 0 (src.length - 32) ++ slice src (src.length - 32) (src.length - 16))))
    (hparse : parse_incoming_packet B src = .ok packet) (hidx : packet.sender_idx = some idx)
    (hmac2 : slice src (src.length - 16) src.length =
      b2s_keyed_mac_16_2 C (l.current_cookie C a now.1) (slice src 0 (src.length - 32))
        (slice src (src.length - 32) (src.length - 16)))
    {count nonce_ctr last_reset : Nat} (hload : l.limit ≤ count) (dst_len : Nat) :
    (((l.later count nonce_ctr last_reset).verify_packet C B (some b) src dst_len now'.1).1
        = .ok packet → a = b ∧ l.period now.1 = l.period now'.1) ↔
      ¬ (a.Twins b ∧ l.period now.1 = l.period now'.1 ∧
        b2s_keyed_mac_16 C l.mac1_key (slice src 0 (src.length - 32)) =
          slice src (src.length - 32) (src.length - 16)) := by
  have hpasses := passes_under_load_iff (C := C) (l := l.later count nonce_ctr last_reset) hparse
    hidx hload b dst_len now'.1
  have hproves : (l.later count nonce_ctr last_reset).proves C (some b) src now'.1 = true ↔
      l.current_cookie C a now.1 = l.current_cookie C b now'.1 := by
    unfold proves
    rw [decide_eq_true_iff, hmac2]
    constructor
    · intro h
      have hinput := hfree (l.current_cookie C b now'.1, _) (by simp [macInputs])
        (l.current_cookie C a now.1, _) (by simp [macInputs]) h
      exact (Prod.mk.inj hinput).1.symm
    · intro h
      rw [h]
      rfl
  rw [hpasses, hproves, current_cookie_eq_iff hfree]
  have hne : a.Twins b → a ≠ b := by
    rintro htwins rfl
    cases a <;> exact htwins
  show (b2s_keyed_mac_16 C l.mac1_key _ = _ ∧ _ → _) ↔ _
  constructor
  · rintro himp ⟨htwins, hperiod, hmac1⟩
    exact hne htwins (himp ⟨hmac1, Or.inr htwins, hperiod⟩).1
  · rintro hnot ⟨hmac1, hsame | htwins, hperiod⟩
    · exact ⟨hsame, hperiod⟩
    · exact absurd ⟨htwins, hperiod, hmac1⟩ hnot

/-! ## Section 3: A cookie of another family -/

/-- An initiation of the symbolic tunnel with the cookie of an address, for a limiter that is
    always under load. -/
theorem exists_owned_message (a : IpAddr) : ∃ m packet idx,
    parse_incoming_packet (symbolicBuild false) m = .ok packet ∧ packet.sender_idx = some idx ∧
    slice m (m.length - 16) m.length =
      b2s_keyed_mac_16_2 symbolic (symbolicLimiter.current_cookie symbolic a 0)
        (slice m 0 (m.length - 32)) (slice m (m.length - 32) (m.length - 16)) ∧
    b2s_keyed_mac_16 symbolic symbolicLimiter.mac1_key (slice m 0 (m.length - 32)) =
      slice m (m.length - 32) (m.length - 16) := by
  obtain ⟨h, hh⟩ : ∃ h : Handshake symbolic, h = { symbolicTunn.handshake with
      cookies := { symbolicTunn.handshake.cookies with
        write_cookie := some (symbolicLimiter.current_cookie symbolic a 0) } } := ⟨_, rfl⟩
  obtain ⟨m, h', evs, hcall⟩ : ∃ m h' evs,
      h.format_handshake_initiation 148 (symbolicEnv 1) = (.ok m, h', evs) := by
    rw [hh]
    exact ⟨_, _, _, rfl⟩
  have hw := Handshake.format_handshake_initiation_writes symbolic_correct.toSized hcall
  obtain ⟨hmsg, hmac1, hmac2⟩ := slices_of_macs _ (h.length_mac1 symbolic_correct.toSized _)
    (h.length_mac2 symbolic_correct.toSized _) hw.message
  refine ⟨m, _, _, hw.parse symbolic_correct.toSized (fun h => by cases h), hw.sender, ?_, ?_⟩
  · rw [hmsg, hmac1, hmac2, Handshake.mac2, hh]
    rfl
  · rw [hmsg, hmac1, hh]
    rfl

/-- The start of the limiter, and the start of its second cookie period. -/
def firstMoment : symbolicLimiter.Moment := ⟨0, by decide⟩
def secondMoment : symbolicLimiter.Moment := ⟨128 * SEC, by decide⟩

theorem symbolic_collisionFree (data : Bytes) :
    symbolic.CollisionFree (symbolicLimiter.macInputs symbolic (.V4 1) (.V4 1) firstMoment.1
      secondMoment.1 data) := by
  -- the marked keys are longer than the macs, so these do not depend on the data
  have hmacs : (symbolicLimiter.macInputs symbolic (.V4 1) (.V4 1) firstMoment.1 secondMoment.1
      data).map (fun x => symbolic.keyed_mac_16 x.1 x.2) =
      [[0, 0, 0, 0, 0, 0, 0, 0, 0, 0, 0, 0, 1, 0, 0, 0],
        [0, 1, 0, 0, 0, 0, 0, 0, 0, 0, 0, 0, 1, 0, 0, 0],
        [1, 0, 1, 0, 1, 0, 1, 0, 1, 0, 1, 0, 1, 0, 1, 0],
        [1, 0, 1, 1, 1, 0, 1, 0, 1, 0, 1, 0, 1, 0, 1, 0]] := rfl
  have hnodup : ((symbolicLimiter.macInputs symbolic (.V4 1) (.V4 1) firstMoment.1 secondMoment.1
      data).map (fun x => symbolic.keyed_mac_16 x.1 x.2)).Nodup := by
    rw [hmacs]
    decide
  intro x hx y hy h
  exact List.inj_on_of_nodup_map hnodup hx hy h

/-- A cookie of one period does not pass in the next one. -/
theorem cookie_owned_iff_expired : ∃ m packet,
    (((symbolicLimiter.later 5 0 0).verify_packet symbolic (symbolicBuild false) (some (.V4 1)) m 64
        secondMoment.1).1 = .ok packet →
      IpAddr.V4 1 = .V4 1 ∧
        symbolicLimiter.period firstMoment.1 = symbolicLimiter.period secondMoment.1) := by
  obtain ⟨m, packet, idx, hparse, hidx, hmac2, _⟩ := exists_owned_message (.V4 1)
  refine ⟨m, packet, (cookie_owned_iff (symbolic_collisionFree _) hparse hidx hmac2 (by decide)
    64).mpr ?_⟩
  rintro ⟨htwins, _⟩
  exact htwins

/-- **An address of the other family.**  The cookie of 1.2.3.4 passes from 102:304::, under load
    and in the same period. -/
theorem cookie_of_other_family : ∃ m packet,
    parse_incoming_packet (symbolicBuild false) m = .ok packet ∧ packet.sender_idx.isSome ∧
    slice m (m.length - 16) m.length =
      b2s_keyed_mac_16_2 symbolic (symbolicLimiter.current_cookie symbolic (.V4 0x01020304) 0)
        (slice m 0 (m.length - 32)) (slice m (m.length - 32) (m.length - 16)) ∧
    (symbolicLimiter.verify_packet symbolic (symbolicBuild false)
      (some (.V6 0x01020304000000000000000000000000)) m 64 0).1 = .ok packet := by
  obtain ⟨m, packet, idx, hparse, hidx, hmac2, hmac1⟩ := exists_owned_message (.V4 0x01020304)
  refine ⟨m, packet, hparse, by rw [hidx]; rfl, hmac2, ?_⟩
  refine (passes_under_load_iff hparse hidx (Nat.le_refl 0) _ 64 0).mpr ⟨hmac1, ?_⟩
  exact decide_eq_true hmac2.symm

end RateLimiter

end PqBoringtun
