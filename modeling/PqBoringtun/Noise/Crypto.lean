import PqBoringtun.Framework.Bytes
import PqBoringtun.Framework.KeyChain

/-! # Cryptographic primitives

    BLAKE2s, HMAC, X25519, ChaCha20-Poly1305, XChaCha20-Poly1305 and
    ML-KEM-768 come from third-party crates.  They are the fields of a
    structure `Crypto`; the noise code is written against it.  What the
    proofs rely on is stated as named properties of a `Crypto`:

    * `Crypto.Sized`, `Crypto.OpenSized`: output lengths;
    * `Crypto.KeyAgreement`: also, Diffie-Hellman commutes and decapsulation
      inverts encapsulation;
    * `Crypto.Correct`: also, opening inverts sealing;
    * `Crypto.CookieSized`, `Crypto.CookieCorrect`: the same for the nonce and
      the encryption of cookies;
    * `Crypto.DhInjective`: Diffie-Hellman tells public keys apart;
    * `Crypto.Ideal`: hashing and HMAC are injective and no HMAC output is
      one of the two initial chaining keys;
    * `Crypto.AeadIdeal`: a ciphertext opens in one way only.
-/

namespace PqBoringtun

/-- The primitives, as functions on byte strings.  Randomised operations
    take their randomness as an argument. -/
structure Crypto where
  /-- `Blake2s256` of a message. -/
  blake2s : Bytes → Bytes
  /-- `SimpleHmac<Blake2s256>` under a key. -/
  hmac : Bytes → Bytes → Bytes
  /-- `Blake2sMac` with a 16 byte tag. -/
  keyed_mac_16 : Bytes → Bytes → Bytes
  /-- `Blake2sMac` with a 24 byte tag. -/
  keyed_mac_24 : Bytes → Bytes → Bytes
  /-- `x25519::PublicKey::from(&secret)`. -/
  x25519_public : Bytes → Bytes
  /-- `secret.diffie_hellman(&public)`. -/
  x25519 : Bytes → Bytes → Bytes
  /-- ChaCha20-Poly1305 under key, nonce and associated data: ciphertext and tag. -/
  chacha_seal : Bytes → Bytes → Bytes → Bytes → Bytes
  chacha_open : Bytes → Bytes → Bytes → Bytes → Option Bytes
  /-- XChaCha20-Poly1305, used for cookies. -/
  xchacha_seal : Bytes → Bytes → Bytes → Bytes → Bytes
  xchacha_open : Bytes → Bytes → Bytes → Bytes → Option Bytes
  /-- `MlKem768::generate_keypair_from_rng`: decapsulation and encapsulation key. -/
  mlkem_keygen : Bytes → Bytes × Bytes
  /-- Does `EncapsulationKey768::new` accept these bytes? -/
  mlkem_ek_valid : Bytes → Bool
  /-- `ek.encapsulate_with_rng`: ciphertext and shared secret. -/
  mlkem_encapsulate : Bytes → Bytes → Bytes × Bytes
  /-- `dk.try_decapsulate`. -/
  mlkem_decapsulate : Bytes → Bytes → Option Bytes

/-- Build configuration: the `pq` feature, the width of `usize` (16 to 64
    bits on the targets there are), and whether integer overflow panics
    (debug) or wraps (release). -/
structure Build where
  pq : Bool
  usize_bits : Nat
  overflow_checks : Bool
  usize_bits_le : usize_bits ≤ 64
  le_usize_bits : 16 ≤ usize_bits

def KEY_LEN : Nat := 32
def TIMESTAMP_LEN : Nat := 12

/-- `b"mac1----"` -/
def LABEL_MAC1 : Bytes := [109, 97, 99, 49, 45, 45, 45, 45]
/-- `b"cookie--"` -/
def LABEL_COOKIE : Bytes := [99, 111, 111, 107, 105, 101, 45, 45]

/-- `HASH(CONSTRUCTION)` -/
def INITIAL_CHAIN_KEY : Bytes :=
  [96, 226, 109, 174, 243, 39, 239, 192, 46, 195, 53, 226, 160, 37, 210, 208, 22, 235, 66, 6, 248,
    114, 119, 245, 45, 56, 209, 152, 139, 120, 205, 54]

/-- `HASH(INITIAL_CHAIN_KEY || IDENTIFIER)` -/
def INITIAL_CHAIN_HASH : Bytes :=
  [34, 17, 179, 97, 8, 26, 197, 102, 105, 18, 67, 219, 69, 138, 213, 50, 45, 156, 108, 102, 34,
    147, 232, 183, 14, 225, 156, 101, 186, 7, 158, 243]

/-- `HASH(CONSTRUCTION_PQ)`: PQ transcripts start from other constants. -/
def INITIAL_CHAIN_KEY_PQ : Bytes :=
  [92, 212, 118, 82, 10, 10, 246, 131, 71, 61, 77, 160, 151, 184, 203, 249, 86, 84, 163, 106, 11,
    2, 99, 179, 63, 208, 66, 103, 187, 164, 135, 172]

/-- `HASH(INITIAL_CHAIN_KEY_PQ || IDENTIFIER)` -/
def INITIAL_CHAIN_HASH_PQ : Bytes :=
  [230, 124, 28, 213, 149, 146, 162, 100, 240, 251, 122, 175, 64, 160, 57, 141, 94, 165, 206, 197,
    218, 229, 9, 122, 57, 38, 118, 2, 81, 247, 29, 235]

section primitives
variable (C : Crypto)

def b2s_hash (data1 data2 : Bytes) : Bytes := C.blake2s (data1 ++ data2)

def b2s_hmac (key data1 : Bytes) : Bytes := C.hmac key data1

/-- Like `b2s_hmac`, but chain `data1` and `data2` together. -/
def b2s_hmac2 (key data1 data2 : Bytes) : Bytes := C.hmac key (data1 ++ data2)

def b2s_keyed_mac_16 (key data1 : Bytes) : Bytes := C.keyed_mac_16 key data1

def b2s_keyed_mac_16_2 (key data1 data2 : Bytes) : Bytes := C.keyed_mac_16 key (data1 ++ data2)

def b2s_mac_24 (key data1 : Bytes) : Bytes := C.keyed_mac_24 key data1

/-- The 12 byte nonce of a counter: four zero bytes and the counter. -/
def nonce_of_counter (counter : Nat) : Bytes := [0, 0, 0, 0] ++ Bytes.leBytes 8 counter

/-- The noise key schedule: HMAC, with the bytes 1, 2 and 3 that tell the expansions apart. -/
def schedule : KeyChain.Schedule Bytes Bytes where
  h := C.hmac
  one := [1]
  two := fun k => k ++ [2]
  three := fun k => k ++ [3]

end primitives

theorem nonce_of_counter_injective {m n : Nat} (hm : m < 2 ^ 64) (hn : n < 2 ^ 64)
    (h : nonce_of_counter m = nonce_of_counter n) : m = n := by
  have h8 : (256 : Nat) ^ 8 = 2 ^ 64 := by norm_num
  exact Bytes.leBytes_injective (h8 ▸ hm) (h8 ▸ hn) (List.append_cancel_left h)

/-! ## Assumed properties -/

/-- The lengths of the outputs. -/
structure Crypto.Sized (C : Crypto) : Prop where
  public_length : ∀ s, (C.x25519_public s).length = 32
  seal_length : ∀ k n ad p, (C.chacha_seal k n ad p).length = p.length + 16
  mac_length : ∀ k d, (C.keyed_mac_16 k d).length = 16
  ek_length : ∀ r, (C.mlkem_keygen r).2.length = 1184
  ct_length : ∀ ek r, (C.mlkem_encapsulate ek r).1.length = 1088

/-- A plaintext is 16 bytes shorter than what it was opened from. -/
structure Crypto.OpenSized (C : Crypto) : Prop where
  open_length : ∀ k n ad ct pt, C.chacha_open k n ad ct = some pt → ct.length = pt.length + 16

/-- Two parties that exchange their public values compute the same secrets. -/
structure Crypto.KeyAgreement (C : Crypto) : Prop extends C.Sized where
  dh_comm : ∀ a b, C.x25519 a (C.x25519_public b) = C.x25519 b (C.x25519_public a)
  ek_valid : ∀ r, C.mlkem_ek_valid (C.mlkem_keygen r).2 = true
  decapsulate_encapsulate : ∀ r r',
    C.mlkem_decapsulate (C.mlkem_keygen r).1 (C.mlkem_encapsulate (C.mlkem_keygen r).2 r').1
      = some (C.mlkem_encapsulate (C.mlkem_keygen r).2 r').2

/-- What an honest run needs of the primitives. -/
structure Crypto.Correct (C : Crypto) : Prop extends C.KeyAgreement where
  open_seal : ∀ k n ad p, C.chacha_open k n ad (C.chacha_seal k n ad p) = some p

/-- The lengths of what a cookie reply is made of. -/
structure Crypto.CookieSized (C : Crypto) : Prop where
  mac_24_length : ∀ k d, (C.keyed_mac_24 k d).length = 24
  xchacha_seal_length : ∀ k n ad p, (C.xchacha_seal k n ad p).length = p.length + 16

/-- What an honest cookie exchange needs of the primitives. -/
structure Crypto.CookieCorrect (C : Crypto) : Prop extends C.CookieSized where
  xchacha_open_seal : ∀ k n ad p, C.xchacha_open k n ad (C.xchacha_seal k n ad p) = some p

/-- Diffie-Hellman commutes, and with one secret it tells public keys apart. -/
structure Crypto.DhInjective (C : Crypto) : Prop where
  dh_comm : ∀ a b, C.x25519 a (C.x25519_public b) = C.x25519 b (C.x25519_public a)
  dh_inj : ∀ s a b, C.x25519 s (C.x25519_public a) = C.x25519 s (C.x25519_public b) →
    C.x25519_public a = C.x25519_public b

/-- Hashing and HMAC as ideal functions: no collisions, and the two initial
    chaining keys (hashes of the construction names) are not HMAC outputs. -/
structure Crypto.Ideal (C : Crypto) : Prop where
  blake2s_inj : ∀ {d d'}, C.blake2s d = C.blake2s d' → d = d'
  hmac_inj : ∀ {k d k' d'}, C.hmac k d = C.hmac k' d' → k = k' ∧ d = d'
  hmac_ne_initial : ∀ k d, C.hmac k d ≠ INITIAL_CHAIN_KEY
  hmac_ne_initial_pq : ∀ k d, C.hmac k d ≠ INITIAL_CHAIN_KEY_PQ

/-- Authenticated encryption as an ideal function: a ciphertext opens under one
    key, nonce and associated data at most. -/
structure Crypto.AeadIdeal (C : Crypto) : Prop where
  open_inj : ∀ {k n ad c p k' n' ad' p'}, C.chacha_open k n ad c = some p →
    C.chacha_open k' n' ad' c = some p' → k = k' ∧ n = n' ∧ ad = ad' ∧ p = p'

theorem last_ne {k k' : Bytes} {a b : UInt8} (h : a ≠ b) : k ++ [a] ≠ k' ++ [b] := by
  intro heq
  exact h (by simpa using (List.append_inj' heq rfl).2)

theorem Crypto.Ideal.schedule {C : Crypto} (hC : C.Ideal) : (schedule C).Ideal where
  h_inj := hC.hmac_inj
  one_ne_two := fun _ => last_ne (k := []) (by decide)
  one_ne_three := fun _ => last_ne (k := []) (by decide)
  two_ne_three := fun _ _ => last_ne (by decide)

end PqBoringtun
