import Mathlib.Data.List.Basic
import PqBoringtun.Noise.Tunn

/-! # A symbolic instance of the primitives

    `symbolic` is an instance of `Crypto` that has all the properties the
    proofs assume (`symbolic_ideal`, `symbolic_correct`), so they do not
    contradict each other.  Its hash keeps its input and its HMAC writes key
    and data one after the other, each byte of the key marked, so outputs
    grow with the inputs.  It has no secrecy at all.

    `sealing C log` replaces the opening of `C` by a table: only the seals of
    `log` open.  It is an ideal encryption for these seals.

    `symbolicTunn` is a tunnel to run: everything opens under `symbolic`, so
    packets for it are easy to write down.
-/

namespace PqBoringtun

/-- Cut or padded with zeros to `n` bytes. -/
def fit (n : Nat) (bs : Bytes) : Bytes := (bs ++ List.replicate n 0).take n

theorem length_fit (n : Nat) (bs : Bytes) : (fit n bs).length = n := by
  simp [fit]

/-- Key and data, each byte of the key after a 1 and the data after a 0. -/
def mark (k d : Bytes) : Bytes := k.flatMap (fun b => [1, b]) ++ 0 :: d

theorem mark_inj {k d k' d' : Bytes} (h : mark k d = mark k' d') : k = k' ∧ d = d' := by
  -- The marks show on both sides when the key ends.
  induction k generalizing k' with
  | nil => cases k' <;> simp_all [mark]
  | cons b k ih =>
    cases k' with
    | nil => simp [mark] at h
    | cons b' k' =>
      simp only [mark, List.flatMap_cons, List.cons_append, List.nil_append, List.cons.injEq,
        true_and] at h
      obtain ⟨rfl, hrest⟩ := h
      obtain ⟨rfl, rfl⟩ := ih hrest
      exact ⟨rfl, rfl⟩

/-- A marked key starts with 0 or 1. -/
theorem mark_ne {k d : Bytes} {b : UInt8} {bs : Bytes} (h0 : b ≠ 0) (h1 : b ≠ 1) :
    mark k d ≠ b :: bs := by
  cases k <;> simp [mark, h0.symm, h1.symm]

def symbolic : Crypto where
  blake2s := id
  hmac := mark
  keyed_mac_16 := fun k d => fit 16 (mark k d)
  keyed_mac_24 := fun k d => fit 24 (mark k d)
  x25519_public := fit 32
  x25519 := fun s p => List.zipWith (· + ·) (fit 32 s) p
  chacha_seal := fun _ _ _ p => p ++ List.replicate 16 0
  chacha_open := fun _ _ _ c => if 16 ≤ c.length then some (c.take (c.length - 16)) else none
  xchacha_seal := fun _ _ _ p => p ++ List.replicate 16 0
  xchacha_open := fun _ _ _ c => if 16 ≤ c.length then some (c.take (c.length - 16)) else none
  mlkem_keygen := fun r => (fit 32 r, fit 1184 r)
  mlkem_ek_valid := fun _ => true
  mlkem_encapsulate := fun _ r => (fit 1088 r, (fit 1088 r).take 32)
  mlkem_decapsulate := fun _ ct => some (ct.take 32)

theorem symbolic_ideal : symbolic.Ideal where
  blake2s_inj := id
  hmac_inj := mark_inj
  hmac_ne_initial := fun _ _ => mark_ne (by decide) (by decide)
  hmac_ne_initial_pq := fun _ _ => mark_ne (by decide) (by decide)

theorem symbolic_correct : symbolic.Correct where
  public_length := length_fit 32
  dh_comm := fun _ _ => List.zipWith_comm_of_comm (fun x y => UInt8.add_comm x y)
  seal_length := by simp [symbolic]
  open_seal := by simp [symbolic]
  mac_length := fun k d => length_fit 16 (mark k d)
  ek_length := length_fit 1184
  ek_valid := fun _ => rfl
  ct_length := fun _ => length_fit 1088
  decapsulate_encapsulate := fun _ _ => rfl

theorem symbolic_openSized : symbolic.OpenSized where
  open_length := by
    intro k n ad ct pt h
    simp only [symbolic] at h
    split at h
    · cases h
      rw [List.length_take]
      omega
    · cases h

theorem symbolic_cookieCorrect : symbolic.CookieCorrect where
  mac_24_length := fun k d => length_fit 24 (mark k d)
  xchacha_seal_length := by simp [symbolic]
  xchacha_open_seal := by simp [symbolic]

theorem zipWith_add_inj : ∀ {s x y : Bytes}, x.length = s.length → y.length = s.length →
    List.zipWith (· + ·) s x = List.zipWith (· + ·) s y → x = y
  | [], _, _, hx, hy, _ => by rw [List.length_eq_zero_iff.mp hx, List.length_eq_zero_iff.mp hy]
  | c :: s, a :: x, b :: y, hx, hy, h => by
    simp only [List.zipWith_cons_cons, List.cons.injEq] at h
    rw [(UInt8.add_right_inj c).mp h.1, zipWith_add_inj (Nat.succ.inj hx) (Nat.succ.inj hy) h.2]

theorem symbolic_dhInjective : symbolic.DhInjective where
  dh_comm := symbolic_correct.dh_comm
  dh_inj := fun s a b h => zipWith_add_inj ((length_fit 32 a).trans (length_fit 32 s).symm)
    ((length_fit 32 b).trans (length_fit 32 s).symm) h

/-! ## Opening by table -/

/-- The primitives of `C`, with only the seals of `log` known to the receiver. -/
def sealing (C : Crypto) (log : List Seal) : Crypto :=
  { C with
    chacha_open := fun k n ad c =>
      (log.find? fun x => x.key = k ∧ x.nonce = n ∧ x.aad = ad ∧ x.ciphertext = c).map
        Seal.plaintext }

section sealing
variable {C : Crypto} {log : List Seal}

theorem sealing_ideal (hC : C.Ideal) : (sealing C log).Ideal :=
  ⟨hC.blake2s_inj, hC.hmac_inj, hC.hmac_ne_initial, hC.hmac_ne_initial_pq⟩

theorem sealing_keyAgreement (hC : C.KeyAgreement) : (sealing C log).KeyAgreement where
  public_length := hC.public_length
  seal_length := hC.seal_length
  mac_length := hC.mac_length
  ek_length := hC.ek_length
  ct_length := hC.ct_length
  dh_comm := hC.dh_comm
  ek_valid := hC.ek_valid
  decapsulate_encapsulate := hC.decapsulate_encapsulate

theorem sealing_open {k n ad c pt : Bytes} (h : (sealing C log).chacha_open k n ad c = some pt) :
    ∃ x ∈ log, x.key = k ∧ x.nonce = n ∧ x.aad = ad ∧ x.ciphertext = c ∧ x.plaintext = pt := by
  obtain ⟨x, hfind, hpt⟩ := Option.map_eq_some_iff.mp h
  have hx := List.find?_some hfind
  simp only [decide_eq_true_eq] at hx
  exact ⟨x, List.mem_of_find?_eq_some hfind, hx.1, hx.2.1, hx.2.2.1, hx.2.2.2, hpt⟩

theorem sealing_aeadIdeal (hunique : ∀ x ∈ log, ∀ y ∈ log, y.ciphertext = x.ciphertext → y = x) :
    (sealing C log).AeadIdeal where
  open_inj := by
    intro k n ad c p k' n' ad' p' h h'
    obtain ⟨x, hx, rfl, rfl, rfl, rfl, rfl⟩ := sealing_open h
    obtain ⟨y, hy, rfl, rfl, rfl, hc, rfl⟩ := sealing_open h'
    obtain rfl := hunique x hx y hy hc
    exact ⟨rfl, rfl, rfl, rfl⟩

variable {x : Seal} (hx : x ∈ log) (hunique : ∀ y ∈ log, y.ciphertext = x.ciphertext → y = x)
include hunique

theorem sealing_binding : x.Binding (sealing C log) := by
  intro k n ad pt hopen
  obtain ⟨y, hy, rfl, rfl, rfl, hc, rfl⟩ := sealing_open hopen
  obtain rfl := hunique y hy hc
  exact ⟨rfl, rfl, rfl, rfl⟩

include hx in
theorem sealing_opens : x.Opens (sealing C log) := by
  cases hopen : (sealing C log).chacha_open x.key x.nonce x.aad x.ciphertext with
  | none =>
    -- The search would have met `x` itself.
    have hnone := List.find?_eq_none.mp (Option.map_eq_none_iff.mp hopen) x hx
    simp at hnone
  | some pt =>
    obtain ⟨_, _, _, rfl⟩ := sealing_binding hunique _ _ _ _ hopen
    exact hopen

end sealing

/-! ## A tunnel to run -/

def symbolicBuild (pq : Bool) : Build where
  pq := pq
  usize_bits := 64
  overflow_checks := false
  usize_bits_le := by decide
  le_usize_bits := by decide

/-- All readings of a call are made at the same time. -/
def symbolicEnv (time : Nat) : Env where
  clock := fun _ => time
  ephemeral := [1]
  mlkem_seed := []
  nonce_key := []
  secret_key := []

/-- Created at time zero, for a peer whose static key has only nines. -/
def symbolicTunn : Tunn symbolic :=
  Tunn.new symbolic [7] (List.replicate 32 9) rfl none none 1 none 0 0 (symbolicEnv 0)

/-- An initiation from that peer, with a timestamp of `nano` nanoseconds. -/
def symbolicInit (nano : UInt8) : HandshakeInit where
  sender_idx := 1
  unencrypted_ephemeral := List.replicate 32 0
  encrypted_static := List.replicate 32 9 ++ List.replicate 16 0
  encrypted_timestamp := List.replicate 11 0 ++ nano :: List.replicate 16 0
  ephemeral_length := rfl
  static_length := rfl
  timestamp_length := rfl

end PqBoringtun
