import PqBoringtun.Framework.Transcript
import PqBoringtun.Noise.Machine

/-! # Which inputs a key is derived from

    Closed forms of the four handshake computations in terms of the key
    schedule (`KeyChain`) and of a chain of hashes, and from them the
    provenance of every key of a tunnel: `KeyFor p u e key` says that `key`
    serves purpose `u` in the handshake that uses the own ephemeral `e`.
    With ideal hashing a key determines its purpose and its ephemeral.
-/

namespace PqBoringtun

open Bytes KeyChain

variable {C : Crypto} {p p' : NoiseParams C} {v : Variant}

/-! ## Section 1: Closed forms -/

/-- Mix a list of fields into the transcript hash. -/
def hashChain (C : Crypto) (hash : Bytes) (xs : List Bytes) : Bytes :=
  Transcript.absorb C.blake2s hash xs

/-- The inputs of an initiation, as its sender has them. -/
def initiatorInputs (C : Crypto) (p : NoiseParams C) (e : Bytes) : List Bytes :=
  [C.x25519_public e, C.x25519 e p.peer_static_public, p.static_shared]

/-- The inputs of an initiation with ephemeral `ie`, as its receiver has them. -/
def responderInputs (C : Crypto) (p : NoiseParams C) (ie : Bytes) : List Bytes :=
  [ie, C.x25519 p.static_private ie, p.static_shared]

/-- The inputs of a response before the preshared key. -/
def responseInputs (re ee se : Bytes) (kem : Option (Bytes × Bytes)) : List Bytes :=
  re :: ee :: se :: (kem.map Prod.snd).toList

/-- The transcript of an initiation up to the static key. -/
def staticHash (C : Crypto) (v : Variant) (responder ephemeral : Bytes) : Bytes :=
  hashChain C v.chain_hash [responder, ephemeral]

/-- The transcript of a whole initiation. -/
def initHash (C : Crypto) (v : Variant) (responder ephemeral encrypted_static
    encrypted_timestamp : Bytes) (ek : Option Bytes) : Bytes :=
  hashChain C v.chain_hash
    ([responder, ephemeral, encrypted_static, encrypted_timestamp] ++ ek.toList)

/-- The transcript of a response: `temp2` is the expansion of the preshared key. -/
def responseHash (C : Crypto) (hash re : Bytes) (kem : Option (Bytes × Bytes)) (temp2 : Bytes) :
    Bytes :=
  hashChain C hash ([re] ++ (kem.map Prod.fst).toList ++ [temp2])

@[simp] theorem aead_chacha20_seal_key (key : Bytes) (counter : Nat) (data aad : Bytes) :
    (aead_chacha20_seal C key counter data aad).key = key := rfl

section initiate
variable (e timestamp : Bytes) (ek : Option Bytes)

theorem initiate_chaining_key : (initiate C v p e timestamp ek).chaining_key
    = (schedule C).chain v.chain_key (initiatorInputs C p e) := rfl

theorem initiate_static : (initiate C v p e timestamp ek).encrypted_static
    = aead_chacha20_seal C
      ((schedule C).derive .field v.chain_key [C.x25519_public e] (C.x25519 e p.peer_static_public))
      0 p.static_public (staticHash C v p.peer_static_public (C.x25519_public e)) := rfl

theorem initiate_timestamp : (initiate C v p e timestamp ek).encrypted_timestamp
    = aead_chacha20_seal C
      ((schedule C).derive .field v.chain_key
        [C.x25519_public e, C.x25519 e p.peer_static_public] p.static_shared)
      0 timestamp
      (b2s_hash C (staticHash C v p.peer_static_public (C.x25519_public e))
        (initiate C v p e timestamp ek).encrypted_static.ciphertext) := rfl

theorem initiate_hash : (initiate C v p e timestamp ek).hash
    = initHash C v p.peer_static_public (C.x25519_public e)
      (initiate C v p e timestamp ek).encrypted_static.ciphertext
      (initiate C v p e timestamp ek).encrypted_timestamp.ciphertext ek := by
  cases ek <;> rfl

end initiate

/-- What an accepted initiation went through. -/
structure ConsumeOk (C : Crypto) (v : Variant) (p : NoiseParams C) (last : Tai64N)
    (packet : HandshakeInit) (ek : Option Bytes) (c : Consumed) : Prop where
  static_opened : C.chacha_open
    ((schedule C).derive .field v.chain_key [packet.unencrypted_ephemeral]
      (C.x25519 p.static_private packet.unencrypted_ephemeral))
    (nonce_of_counter 0) (staticHash C v p.static_public packet.unencrypted_ephemeral)
    packet.encrypted_static = some p.peer_static_public
  timestamp_opened : ∃ ts, C.chacha_open
      ((schedule C).derive .field v.chain_key
        [packet.unencrypted_ephemeral, C.x25519 p.static_private packet.unencrypted_ephemeral]
        p.static_shared)
      (nonce_of_counter 0)
      (b2s_hash C (staticHash C v p.static_public packet.unencrypted_ephemeral)
        packet.encrypted_static)
      packet.encrypted_timestamp = some ts ∧
    ts.length = TIMESTAMP_LEN ∧ Tai64N.parse ts = .ok c.timestamp
  after : c.timestamp.after last = true
  chaining_key : c.chaining_key
    = (schedule C).chain v.chain_key (responderInputs C p packet.unencrypted_ephemeral)
  hash : c.hash = initHash C v p.static_public packet.unencrypted_ephemeral
    packet.encrypted_static packet.encrypted_timestamp ek

theorem aead_chacha20_open_ok {n counter : Nat} {key data aad plaintext : Bytes} :
    (aead_chacha20_open C n key counter data aad).run = .ok (.ok plaintext) ↔
      C.chacha_open key (nonce_of_counter counter) aad data = some plaintext ∧
        plaintext.length = n := by
  unfold aead_chacha20_open
  cases C.chacha_open key (nonce_of_counter counter) aad data with
  | none => simp
  | some pt =>
    by_cases hlen : pt.length = n
    · simp only [hlen, if_true, Attempt.run_pure, Outcome.ok.injEq, Except.ok.injEq,
        Option.some.injEq]
      constructor
      · rintro rfl
        exact ⟨rfl, hlen⟩
      · exact fun h => h.1
    · simp only [hlen, if_false, Attempt.run_panic, Option.some.injEq]
      constructor
      · intro h
        cases h
      · rintro ⟨rfl, h⟩
        exact absurd h hlen

theorem open_static_ok {static_private static_public : Bytes} {packet : HandshakeInit}
    {key ck hash : Bytes} :
    (open_static C v static_private static_public packet).run = .ok (.ok (key, ck, hash)) ↔
      (C.chacha_open
        ((schedule C).derive .field v.chain_key [packet.unencrypted_ephemeral]
          (C.x25519 static_private packet.unencrypted_ephemeral))
        (nonce_of_counter 0) (staticHash C v static_public packet.unencrypted_ephemeral)
        packet.encrypted_static = some key ∧ key.length = KEY_LEN) ∧
      ck = (schedule C).chain v.chain_key
        [packet.unencrypted_ephemeral, C.x25519 static_private packet.unencrypted_ephemeral] ∧
      hash = staticHash C v static_public packet.unencrypted_ephemeral := by
  unfold open_static
  dsimp only
  rw [Attempt.run_bind_eq_ok]
  constructor
  · rintro ⟨a, hopen, h⟩
    cases h
    exact ⟨aead_chacha20_open_ok.mp hopen, rfl, rfl⟩
  · rintro ⟨hopen, rfl, rfl⟩
    exact ⟨key, aead_chacha20_open_ok.mpr hopen, rfl⟩

/-- **When an initiation is accepted.** -/
theorem consume_ok {last : Tai64N} {packet : HandshakeInit} {ek : Option Bytes} {c : Consumed} :
    (consume C v p last packet ek).run = .ok (.ok c) ↔ ConsumeOk C v p last packet ek c := by
  unfold consume
  rw [Attempt.run_bind_eq_ok]
  constructor
  · rintro ⟨⟨key, ck, hash⟩, hstatic, h⟩
    obtain ⟨⟨hopen, _⟩, rfl, rfl⟩ := open_static_ok.mp hstatic
    dsimp only at h
    split at h
    · cases h
    rename_i hkey
    rw [Attempt.run_bind_eq_ok] at h
    obtain ⟨ts, hts, h⟩ := h
    obtain ⟨hts, hlen⟩ := aead_chacha20_open_ok.mp hts
    split at h
    · cases h
    rename_i stamp hparse
    split at h
    · cases h
    rename_i hafter
    cases h
    refine ⟨by rw [hopen, not_not.mp hkey], ⟨ts, hts, hlen, hparse⟩, by simpa using hafter, rfl, ?_⟩
    cases ek <;> rfl
  · intro h
    obtain ⟨ts, hts, hlen, hparse⟩ := h.timestamp_opened
    refine ⟨⟨p.peer_static_public, _, _⟩,
      open_static_ok.mpr ⟨⟨h.static_opened, p.peer_length⟩, rfl, rfl⟩, ?_⟩
    dsimp only
    rw [if_neg (not_not.mpr rfl), Attempt.run_bind_eq_ok]
    refine ⟨ts, aead_chacha20_open_ok.mpr ⟨hts, hlen⟩, ?_⟩
    rw [hparse]
    dsimp only
    rw [if_neg (by simp [h.after]), Attempt.run_pure]
    obtain ⟨stamp, ck, hash⟩ := c
    obtain rfl : ck = _ := h.chaining_key
    obtain rfl : hash = _ := h.hash
    cases ek <;> rfl

theorem open_returns (hC : C.OpenSized) {size counter : Nat} {key data aad : Bytes}
    (hdata : data.length = size + 16) :
    ∃ res, (aead_chacha20_open C size key counter data aad).run = .ok res := by
  unfold aead_chacha20_open
  cases hopen : C.chacha_open key (nonce_of_counter counter) aad data with
  | none => exact ⟨_, rfl⟩
  | some pt =>
    have hlen := hC.open_length _ _ _ _ _ hopen
    have hsize : pt.length = size := by omega
    simp only [hsize, if_true]
    exact ⟨_, rfl⟩

/-- Opening gives plaintexts of the right size, so the checks return. -/
theorem consume_returns (hC : C.OpenSized) (v : Variant) (p : NoiseParams C) (last : Tai64N)
    (packet : HandshakeInit) (ek : Option Bytes) :
    ∃ res, (consume C v p last packet ek).run = .ok res := by
  unfold consume
  apply Attempt.run_bind_returns
  · exact Attempt.run_bind_returns (open_returns hC packet.static_length) fun key => ⟨_, rfl⟩
  · rintro ⟨key, chaining_key, hash⟩
    dsimp only
    split
    · exact ⟨_, rfl⟩
    apply Attempt.run_bind_returns (open_returns hC packet.timestamp_length)
    intro ts
    split
    · exact ⟨_, rfl⟩
    split
    · exact ⟨_, rfl⟩
    · exact ⟨_, rfl⟩

/-- A PQ response is to the key of the initiation. -/
theorem encapsulate_pq_ok {ek : Option Bytes} {seed : Bytes} {kem : Option (Bytes × Bytes)}
    (hkem : (Variant.pq.encapsulate C ek seed).run = .ok (.ok kem)) :
    ∃ key, ek = some key ∧ kem = some (C.mlkem_encapsulate key seed) := by
  unfold Variant.encapsulate at hkem
  dsimp only at hkem
  split at hkem
  · cases hkem
  split at hkem
  · cases hkem
  split at hkem
  · cases hkem
  · cases hkem
    exact ⟨_, rfl, rfl⟩

section respond
variable (hash ck pe e : Bytes) (kem : Option (Bytes × Bytes))

theorem respond_keys :
    (respond C p hash ck pe e kem).receiving_key = (schedule C).derive .chain ck
      (responseInputs (C.x25519_public e) (C.x25519 e pe) (C.x25519 e p.peer_static_public) kem
        ++ [p.psk]) [] ∧
    (respond C p hash ck pe e kem).sending_key = (schedule C).derive .field ck
      (responseInputs (C.x25519_public e) (C.x25519 e pe) (C.x25519 e p.peer_static_public) kem
        ++ [p.psk]) [] := by
  rcases kem with _ | ⟨ct, ss⟩ <;> exact ⟨rfl, rfl⟩

theorem respond_nothing : (respond C p hash ck pe e kem).encrypted_nothing
    = aead_chacha20_seal C
      ((schedule C).derive .confirm ck
        (responseInputs (C.x25519_public e) (C.x25519 e pe) (C.x25519 e p.peer_static_public) kem)
        p.psk)
      0 []
      (responseHash C hash (C.x25519_public e) kem
        ((schedule C).derive .field ck
          (responseInputs (C.x25519_public e) (C.x25519 e pe)
            (C.x25519 e p.peer_static_public) kem) p.psk)) := by
  rcases kem with _ | ⟨ct, ss⟩ <;> rfl

end respond

/-- The response inputs as the initiator computes them. -/
def completeInputs (C : Crypto) (p : NoiseParams C) (s : HandshakeInitSentState) (re : Bytes)
    (kem : Option (Bytes × Bytes)) : List Bytes :=
  responseInputs re (C.x25519 s.ephemeral_private re) (C.x25519 p.static_private re) kem

/-- **When a response is accepted**, and the session keys. -/
theorem complete_ok {s : HandshakeInitSentState} {packet : HandshakeResponse}
    {kem : Option (Bytes × Bytes)} {rk sk : Bytes} :
    (complete C p s packet kem).run = .ok (.ok (rk, sk)) ↔
      C.chacha_open
        ((schedule C).derive .confirm s.chaining_key
          (completeInputs C p s packet.unencrypted_ephemeral kem) p.psk)
        (nonce_of_counter 0)
        (responseHash C s.hash packet.unencrypted_ephemeral kem
          ((schedule C).derive .field s.chaining_key
            (completeInputs C p s packet.unencrypted_ephemeral kem) p.psk))
        packet.encrypted_nothing = some [] ∧
      rk = (schedule C).derive .field s.chaining_key
        (completeInputs C p s packet.unencrypted_ephemeral kem ++ [p.psk]) [] ∧
      sk = (schedule C).derive .chain s.chaining_key
        (completeInputs C p s packet.unencrypted_ephemeral kem ++ [p.psk]) [] := by
  unfold complete
  rcases kem with _ | ⟨ct, ss⟩ <;> dsimp only <;> rw [Attempt.run_bind_eq_ok]
  · constructor
    · rintro ⟨a, hopen, h⟩
      obtain ⟨hopen, hlen⟩ := aead_chacha20_open_ok.mp hopen
      obtain rfl := List.length_eq_zero_iff.mp hlen
      cases h
      exact ⟨hopen, rfl, rfl⟩
    · rintro ⟨hopen, rfl, rfl⟩
      exact ⟨[], aead_chacha20_open_ok.mpr ⟨hopen, rfl⟩, rfl⟩
  · constructor
    · rintro ⟨a, hopen, h⟩
      obtain ⟨hopen, hlen⟩ := aead_chacha20_open_ok.mp hopen
      obtain rfl := List.length_eq_zero_iff.mp hlen
      cases h
      exact ⟨hopen, rfl, rfl⟩
    · rintro ⟨hopen, rfl, rfl⟩
      exact ⟨[], aead_chacha20_open_ok.mpr ⟨hopen, rfl⟩, rfl⟩

/-! ## Section 2: Provenance -/

/-- What a key is used for by the tunnel that derived it. -/
inductive Purpose where
  | field (f : HandshakeField)
  | sending (initiator : Bool)
  | receiving (initiator : Bool)
  deriving DecidableEq, Repr

namespace Purpose

/-- The initiator sends with the chaining key kind and receives with the field kind. -/
def tag : Purpose → Tag
  | field .encrypted_static => .field
  | field .encrypted_timestamp => .field
  | field .encrypted_nothing => .confirm
  | sending true => .chain
  | sending false => .field
  | receiving true => .field
  | receiving false => .chain

/-- The inputs of a key with this purpose, except for the last one. -/
def Inputs (C : Crypto) (p : NoiseParams C) (e : Bytes) (xs : List Bytes) : Purpose → Prop
  | field .encrypted_static => xs = [C.x25519_public e]
  | field .encrypted_timestamp => xs = [C.x25519_public e, C.x25519 e p.peer_static_public]
  | field .encrypted_nothing => ∃ ie rest, xs = responderInputs C p ie ++ C.x25519_public e :: rest
  | sending true => ∃ re rest, xs = initiatorInputs C p e ++ re :: rest
  | sending false => ∃ ie rest, xs = responderInputs C p ie ++ C.x25519_public e :: rest
  | receiving true => ∃ re rest, xs = initiatorInputs C p e ++ re :: rest
  | receiving false => ∃ ie rest, xs = responderInputs C p ie ++ C.x25519_public e :: rest

/-- Keys the owner seals with. -/
def Seals : Purpose → Prop
  | receiving _ => False
  | _ => True

/-- Where the own ephemeral stands among the inputs. -/
def position : Purpose → Nat
  | field .encrypted_nothing => 3
  | sending false => 3
  | receiving false => 3
  | _ => 0

theorem Inputs.own {u : Purpose} {e : Bytes} {xs : List Bytes} (h : u.Inputs C p e xs) :
    xs[u.position]? = some (C.x25519_public e) := by
  rcases u with (_ | _ | _) | (_ | _) | (_ | _)
  case field.encrypted_static => obtain rfl := h; rfl
  case field.encrypted_timestamp => obtain rfl := h; rfl
  all_goals
    obtain ⟨_, rest, rfl⟩ := h
    rfl

/-- Kind and number of the inputs tell the sealing purposes apart. -/
theorem eq_of_tag {u u' : Purpose} {e e' : Bytes} {xs : List Bytes} (hu : u.Seals)
    (hu' : u'.Seals) (htag : u.tag = u'.tag) (h : u.Inputs C p e xs)
    (h' : u'.Inputs C p' e' xs) : u = u' := by
  rcases u with (_ | _ | _) | (_ | _) | b <;> rcases u' with (_ | _ | _) | (_ | _) | b' <;>
    simp_all [tag, Inputs, Seals, responderInputs]

end Purpose

/-- `key` serves purpose `u` in the handshake with own ephemeral `e`. -/
def KeyFor (C : Crypto) (p : NoiseParams C) (u : Purpose) (e key : Bytes) : Prop :=
  ∃ (v : Variant) (xs : List Bytes) (x : Bytes),
    key = (schedule C).derive u.tag v.chain_key xs x ∧ u.Inputs C p e xs

theorem fresh_chain_key (hC : C.Ideal) (v : Variant) : (schedule C).Fresh v.chain_key := by
  intro k d
  cases v with
  | classical => exact hC.hmac_ne_initial k d
  | pq => exact hC.hmac_ne_initial_pq k d

theorem chain_key_inj {v v' : Variant} (h : v.chain_key = v'.chain_key) : v = v' := by
  cases v <;> cases v' <;> first | rfl | exact absurd h (by decide)

/-- Equal keys have equal kinds and inputs. -/
theorem KeyFor.inputs_eq (hC : C.Ideal) {u u' : Purpose} {e e' key : Bytes}
    (h : KeyFor C p u e key) (h' : KeyFor C p' u' e' key) :
    u.tag = u'.tag ∧ ∃ xs, u.Inputs C p e xs ∧ u'.Inputs C p' e' xs := by
  obtain ⟨v, xs, x, rfl, hxs⟩ := h
  obtain ⟨v', xs', x', heq, hxs'⟩ := h'
  obtain ⟨htag, _, rfl, _⟩ := Schedule.derive_inj hC.schedule (fresh_chain_key hC v)
    (fresh_chain_key hC v') heq
  exact ⟨htag, xs, hxs, hxs'⟩

/-- **A sealing key determines its purpose and its ephemeral.** -/
theorem KeyFor.unique (hC : C.Ideal) {u u' : Purpose} {e e' key : Bytes}
    (h : KeyFor C p u e key) (h' : KeyFor C p' u' e' key) (hu : u.Seals) (hu' : u'.Seals) :
    u = u' ∧ C.x25519_public e = C.x25519_public e' := by
  obtain ⟨htag, xs, hxs, hxs'⟩ := h.inputs_eq hC h'
  obtain rfl := Purpose.eq_of_tag hu hu' htag hxs hxs'
  exact ⟨rfl, Option.some.inj (hxs.own.symm.trans hxs'.own)⟩

/-- **A receiving key determines its role and its ephemeral.** -/
theorem KeyFor.receiving_unique (hC : C.Ideal) {b b' : Bool} {e e' key : Bytes}
    (h : KeyFor C p (.receiving b) e key) (h' : KeyFor C p' (.receiving b') e' key) :
    b = b' ∧ C.x25519_public e = C.x25519_public e' := by
  obtain ⟨htag, xs, hxs, hxs'⟩ := h.inputs_eq hC h'
  obtain rfl : b = b' := by
    cases b <;> cases b' <;> simp_all [Purpose.tag]
  exact ⟨rfl, Option.some.inj (hxs.own.symm.trans hxs'.own)⟩

/-! ## Section 3: The keys of the moves -/

theorem keyFor_initiate (e timestamp : Bytes) (ek : Option Bytes) :
    KeyFor C p (.field .encrypted_static) e
      (initiate C v p e timestamp ek).encrypted_static.key ∧
    KeyFor C p (.field .encrypted_timestamp) e
      (initiate C v p e timestamp ek).encrypted_timestamp.key :=
  ⟨⟨v, _, _, rfl, rfl⟩, ⟨v, _, _, rfl, rfl⟩⟩

/-- The keys of a response to an initiation with ephemeral `ie`. -/
theorem keyFor_respond {ck ie : Bytes}
    (hck : ck = (schedule C).chain v.chain_key (responderInputs C p ie)) (hash e : Bytes)
    (kem : Option (Bytes × Bytes)) :
    KeyFor C p (.field .encrypted_nothing) e (respond C p hash ck ie e kem).encrypted_nothing.key ∧
      KeyFor C p (.sending false) e (respond C p hash ck ie e kem).sending_key ∧
      KeyFor C p (.receiving false) e (respond C p hash ck ie e kem).receiving_key := by
  subst hck
  obtain ⟨hrecv, hsend⟩ := respond_keys (p := p) hash
    ((schedule C).chain v.chain_key (responderInputs C p ie)) ie e kem
  have hnothing := congrArg Seal.key (respond_nothing (p := p) hash
    ((schedule C).chain v.chain_key (responderInputs C p ie)) ie e kem)
  rw [Schedule.derive_chain] at hrecv hsend
  rw [aead_chacha20_seal_key, Schedule.derive_chain] at hnothing
  exact ⟨⟨v, _, _, hnothing, _, _, rfl⟩,
    ⟨v, _, _, hsend, _, _, rfl⟩, ⟨v, _, _, hrecv, _, _, rfl⟩⟩

/-- The session keys of an initiation that was answered. -/
theorem keyFor_complete {s : HandshakeInitSentState} {packet : HandshakeResponse}
    {ct : Option Bytes} {rk sk : Bytes}
    (hck : s.chaining_key
      = (schedule C).chain v.chain_key (initiatorInputs C p s.ephemeral_private))
    {w : Variant} {p' : NoiseParams C}
    (h : (Handshake.response_keys w p' s packet ct).run = .ok (.ok (rk, sk))) :
    KeyFor C p (.sending true) s.ephemeral_private sk ∧
      KeyFor C p (.receiving true) s.ephemeral_private rk := by
  obtain ⟨kem, _, h⟩ := Attempt.run_bind_eq_ok.mp h
  obtain ⟨_, rfl, rfl⟩ := complete_ok.mp h
  rw [hck, Schedule.derive_chain, Schedule.derive_chain]
  exact ⟨⟨v, _, _, rfl, _, _, rfl⟩, ⟨v, _, _, rfl, _, _, rfl⟩⟩

end PqBoringtun
