import PqBoringtun.Noise.Agreement
import PqBoringtun.Noise.Initiations

/-! # Fields of initiations under attack

    What an attacker can do with the fields of an initiation.

    * Section 1: initiations under an encryption that opens only them.
    * Section 2: fields that one variant accepts are rejected by the other
      (`Handshake.transcripts_never_cross`).
    * Section 3: a PQ initiation is accepted iff ephemeral, static and
      timestamp are those of one that the peer sealed (`consume_iff_fresh`).
      The ML-KEM key is not among them.
    * Section 4: which datagrams use up the timestamp of an initiation that
      is still to arrive (`Tunn.altered_initiation_harmless_iff`).
-/

namespace PqBoringtun

open KeyChain

variable {C : Crypto} {B : Build}

/-! ## Section 1: Sealed initiations -/

/-- The two seals of an initiation. -/
def initiationLog (C : Crypto) (v : Variant) (p : NoiseParams C) (e ts : Bytes) : List Seal :=
  [(initiate C v p e ts none).encrypted_static, (initiate C v p e ts none).encrypted_timestamp]

section sealed
variable {v : Variant} {p q : NoiseParams C} {e ts : Bytes} {log : List Seal}

/-- Their ciphertexts have different lengths. -/
theorem initiationLog_unique (hC : C.Sized) (hts : ts.length = TIMESTAMP_LEN)
    (hlog : log = initiationLog C v p e ts) :
    ∀ x ∈ log, ∀ y ∈ log, y.ciphertext = x.ciphertext → y = x := by
  have hlen : log.map (fun x => x.ciphertext.length) = [48, 28] := by
    simp only [hlog, initiationLog, List.map_cons, List.map_nil, initiate_static,
      initiate_timestamp, aead_chacha20_seal, hC.seal_length, p.static_public_eq,
      hC.public_length, hts, TIMESTAMP_LEN]
  exact unique_of_lengths hlen (by decide)

theorem initiationLog_length (hC : C.Sized) :
    ∀ x ∈ initiationLog C v p e ts, x.ciphertext.length = x.plaintext.length + 16 := by
  intro x hx
  rcases List.mem_pair.mp hx with rfl | rfl
  · exact hC.seal_length ..
  · exact hC.seal_length ..

/-- With encryption by table both fields of an initiation open. -/
theorem initiationLog_opens (hC : C.Sized) (hts : ts.length = TIMESTAMP_LEN)
    (hlog : log = initiationLog C v p e ts) (ek : Option Bytes) :
    (initiate (sealing C log) v (p.sealing log) e ts ek).encrypted_static.Opens (sealing C log) ∧
      (initiate (sealing C log) v (p.sealing log) e ts ek).encrypted_timestamp.Opens
        (sealing C log) := by
  have hunique := initiationLog_unique hC hts hlog
  have hstatic : (initiate (sealing C log) v (p.sealing log) e ts ek).encrypted_static ∈ log := by
    rw [hlog]
    exact List.mem_cons_self
  have htimestamp :
      (initiate (sealing C log) v (p.sealing log) e ts ek).encrypted_timestamp ∈ log := by
    rw [hlog]
    exact List.mem_cons_of_mem _ List.mem_cons_self
  exact ⟨sealing_opens hstatic (hunique _ hstatic), sealing_opens htimestamp (hunique _ htimestamp)⟩

end sealed

/-! ### A peer with one initiation -/

def sealedStamp : Bytes := (⟨0, 0⟩ : TimeStamper).stamp 0

def sealedPeer : NoiseParams symbolic :=
  NoiseParams.new symbolic [1] (fit 32 [2]) none (length_fit 32 [2])

def sealedLog : List Seal := initiationLog symbolic .pq sealedPeer [3] sealedStamp

/-- Only the fields of one initiation open. -/
abbrev sealedCrypto : Crypto := sealing symbolic sealedLog

/-- The tunnel it is sent to. -/
def sealedTunn : Tunn sealedCrypto :=
  Tunn.new sealedCrypto [2] (fit 32 [1]) (length_fit 32 [1]) none none 1 none 0 0 (quietEnv [4] [6])

theorem sealed_keyAgreement : sealedCrypto.KeyAgreement :=
  sealing_keyAgreement symbolic_correct.toKeyAgreement

theorem sealed_ideal : sealedCrypto.Ideal := sealing_ideal symbolic_ideal

theorem sealedStamp_length : sealedStamp.length = TIMESTAMP_LEN := TimeStamper.length_stamp ..

theorem sealed_aeadIdeal : sealedCrypto.AeadIdeal :=
  sealing_aeadIdeal (initiationLog_unique symbolic_correct.toSized sealedStamp_length rfl)

theorem sealed_paired : Paired (sealedPeer.sealing sealedLog) sealedTunn.handshake.params :=
  ⟨rfl, rfl, rfl⟩

theorem sealed_opens (ek : Option Bytes) :
    (initiate sealedCrypto .pq (sealedPeer.sealing sealedLog)
    [3] sealedStamp ek).encrypted_static.Opens
        sealedCrypto ∧
      (initiate sealedCrypto .pq (sealedPeer.sealing sealedLog) [3] sealedStamp
        ek).encrypted_timestamp.Opens sealedCrypto :=
  initiationLog_opens symbolic_correct.toSized sealedStamp_length rfl ek

/-- Its fields. -/
def sealedInit : HandshakeInit :=
  HandshakeInit.sent sealed_keyAgreement.toSized .pq (sealedPeer.sealing sealedLog) 5
    [3] sealedStamp
    sealedStamp_length none

/-- The tunnel accepts them with any ML-KEM key. -/
theorem sealedInit_consumed (ek : Option Bytes) :
    ∃ c, (consume sealedCrypto .pq sealedTunn.handshake.params
      sealedTunn.handshake.last_handshake_timestamp sealedInit ek).run = .ok (.ok c) := by
  obtain ⟨hstatic, htimestamp⟩ := sealed_opens ek
  exact ⟨_, consume_initiate sealed_keyAgreement sealed_paired rfl rfl rfl hstatic htimestamp
    sealedStamp_length rfl (by decide)⟩

/-! ## Section 2: Classical and PQ transcripts -/

/-- The static field opens for the owner of these keys. -/
def StaticOpens (C : Crypto) (v : Variant) (static_private static_public : Bytes)
    (packet : HandshakeInit) (key : Bytes) : Prop :=
  C.chacha_open
    ((schedule C).derive .field v.chain_key [packet.unencrypted_ephemeral]
      (C.x25519 static_private packet.unencrypted_ephemeral))
    (nonce_of_counter 0) (staticHash C v static_public packet.unencrypted_ephemeral)
    packet.encrypted_static = some key

section anonymous
variable {v v' : Variant} {priv pub : Bytes} {packet : HandshakeInit}

/-- Anonymous parsing opens the static field. -/
theorem parse_anon_opens {half : HalfHandshake}
    (h : (parse_anon C v priv pub packet).run = .ok (.ok half)) :
    StaticOpens C v priv pub packet half.peer_static_public := by
  unfold parse_anon at h
  dsimp only at h
  rw [Attempt.run_bind_eq_ok] at h
  obtain ⟨key, hopen, h⟩ := h
  cases h
  exact (aead_chacha20_open_ok.mp hopen).1

/-- A static field that does not open is an invalid tag. -/
theorem open_static_fails (h : ∀ key, ¬ StaticOpens C v priv pub packet key) :
    (open_static C v priv pub packet).run = .ok (.error .InvalidAeadTag) ∧
      (parse_anon C v priv pub packet).run = .ok (.error .InvalidAeadTag) := by
  have hnone : C.chacha_open
      ((schedule C).derive .field v.chain_key [packet.unencrypted_ephemeral]
        (C.x25519 priv packet.unencrypted_ephemeral))
      (nonce_of_counter 0) (staticHash C v pub packet.unencrypted_ephemeral)
      packet.encrypted_static = none := by
    rw [Option.eq_none_iff_forall_not_mem]
    exact fun key hkey => h key hkey
  have hopen := aead_chacha20_open_error (n := KEY_LEN) hnone
  exact ⟨Attempt.run_bind_of_error hopen, Attempt.run_bind_of_error hopen⟩

/-- **One ciphertext does not open in both variants.**  The keys come from
    different chains. -/
theorem StaticOpens.variant_unique (hC : C.Ideal) (haead : C.AeadIdeal) {key key' : Bytes}
    (h : StaticOpens C v priv pub packet key) (h' : StaticOpens C v' priv pub packet key') :
    v = v' := by
  obtain ⟨hkey, _⟩ := haead.open_inj h h'
  obtain ⟨_, hchain, _⟩ := Schedule.derive_inj hC.schedule (fresh_chain_key hC v)
    (fresh_chain_key hC v') hkey
  exact chain_key_inj hchain

end anonymous

namespace Handshake

variable {v v' : Variant} {h : Handshake C} {packet : HandshakeInit} {ek ek' : Option Bytes}

/-- The tunnel accepts these fields: they pass the checks of an initiation, or those of
    anonymous parsing. -/
def AcceptsFields (h : Handshake C) (v : Variant) (packet : HandshakeInit) (ek : Option Bytes) :
    Prop :=
  (∃ c, (consume C v h.params h.last_handshake_timestamp packet ek).run = .ok (.ok c)) ∨
    ∃ half, (parse_anon C v h.params.static_private h.params.static_public packet).run
      = .ok (.ok half)

/-- An initiation that is answered was accepted. -/
theorem AcceptsFields.of_receive {dst_len : Nat} {env : Env} {m : Bytes} {session : Session}
    {h' : Handshake C} {evs : List Event}
    (hcall : h.receive_initialization v packet ek dst_len env = .ok (.ok (m, session), h', evs)) :
    h.AcceptsFields v packet ek := by
  cases receive_initialization_cases hcall with
  | answered c _ _ _ _ _ hc _ _ _ _ => exact Or.inl ⟨c, hc⟩

theorem AcceptsFields.opens (haccepts : h.AcceptsFields v packet ek) :
    ∃ key, StaticOpens C v h.params.static_private h.params.static_public packet key := by
  rcases haccepts with ⟨c, hc⟩ | ⟨half, hhalf⟩
  · exact ⟨_, (consume_ok.mp hc).static_opened⟩
  · exact ⟨_, parse_anon_opens hhalf⟩

/-- The other variant rejects the fields, and the handshake stays as it is. -/
theorem AcceptsFields.other_rejects (hC : C.Ideal) (haead : C.AeadIdeal) (hne : v ≠ v')
    (haccepts : h.AcceptsFields v packet ek) (dst_len : Nat) (env : Env) :
    h.receive_initialization v' packet ek' dst_len env = .ok (.error .InvalidAeadTag, h, []) ∧
      (parse_anon C v' h.params.static_private h.params.static_public packet).run
        = .ok (.error .InvalidAeadTag) := by
  obtain ⟨key, hopens⟩ := haccepts.opens
  have hclosed : ∀ key', ¬ StaticOpens C v' h.params.static_private h.params.static_public packet
      key' := by
    intro key' hopens'
    exact hne (hopens.variant_unique hC haead hopens')
  obtain ⟨hstatic, hanon⟩ := open_static_fails hclosed
  have hconsume : (consume C v' h.params h.last_handshake_timestamp packet ek').run
      = .ok (.error .InvalidAeadTag) := by
    unfold consume
    exact Attempt.run_bind_of_error hstatic
  refine ⟨?_, hanon⟩
  unfold receive_initialization
  rw [hconsume]
  rfl

/-- **Classical and PQ transcripts never cross.**  If the fields of an
    initiation are accepted as a PQ initiation, by the handshake or by
    anonymous parsing, then the classical functions reject the same fields
    and leave the handshake as it is, and the other way round. -/
theorem transcripts_never_cross (hC : C.Ideal) (haead : C.AeadIdeal) (h : Handshake C)
    (packet : PqHandshakeInit) (dst_len : Nat) (env : Env) :
    (h.AcceptsFields .pq packet.toHandshakeInit (some packet.mlkem_ephemeral_public) →
      h.receive_handshake_initialization packet.toHandshakeInit dst_len env
        = .ok (.error .InvalidAeadTag, h, []) ∧
      (parse_handshake_anon C h.params.static_private h.params.static_public
        packet.toHandshakeInit).run = .ok (.error .InvalidAeadTag)) ∧
    (h.AcceptsFields .classical packet.toHandshakeInit none →
      h.receive_pq_handshake_initialization packet dst_len env
        = .ok (.error .InvalidAeadTag, h, []) ∧
      (parse_pq_handshake_anon C h.params.static_private h.params.static_public packet).run
        = .ok (.error .InvalidAeadTag)) := by
  constructor
  · intro haccepts
    exact haccepts.other_rejects hC haead (by decide) dst_len env
  · intro haccepts
    exact haccepts.other_rejects hC haead (by decide) dst_len env

/-- The fields of a PQ initiation that is accepted, in a classical one. -/
theorem transcripts_never_cross_sealed :
    sealedTunn.handshake.AcceptsFields .pq sealedInit (some (fit MLKEM768_PK_SIZE [])) ∧
      sealedTunn.handshake.receive_handshake_initialization sealedInit 2048 (quietEnv [4] [6])
        = .ok (.error .InvalidAeadTag, sealedTunn.handshake, []) := by
  have haccepts : sealedTunn.handshake.AcceptsFields .pq sealedInit
      (some (fit MLKEM768_PK_SIZE [])) := Or.inl (sealedInit_consumed _)
  let packet : PqHandshakeInit := ⟨sealedInit, fit MLKEM768_PK_SIZE [], length_fit _ _⟩
  obtain ⟨hpq, _⟩ := transcripts_never_cross sealed_ideal sealed_aeadIdeal sealedTunn.handshake
    packet 2048 (quietEnv [4] [6])
  exact ⟨haccepts, (hpq haccepts).1⟩

end Handshake

/-! ## Section 3: What a PQ initiation authenticates -/

/-- Ephemeral, static and timestamp are those of the initiation with ephemeral `e` and
    timestamp `ts`. -/
structure SealedBy (C : Crypto) (p : NoiseParams C) (e ts : Bytes) (packet : HandshakeInit) :
    Prop where
  ephemeral : packet.unencrypted_ephemeral = C.x25519_public e
  static : packet.encrypted_static = (initiate C .pq p e ts none).encrypted_static.ciphertext
  timestamp : packet.encrypted_timestamp
    = (initiate C .pq p e ts none).encrypted_timestamp.ciphertext

/-- The key of the timestamp field, as the responder computes it. -/
def timestampKey (C : Crypto) (q : NoiseParams C) (ephemeral : Bytes) : Bytes :=
  (schedule C).derive .field Variant.pq.chain_key
    [ephemeral, C.x25519 q.static_private ephemeral] q.static_shared

/-- The PQ initiations of the peer `p` are those with the ephemerals and timestamps of `made`.
    They open, and as the key of the timestamp needs the secret of the two static keys, no
    other timestamp does. -/
structure PeerSeals (C : Crypto) (p q : NoiseParams C) (made : List (Bytes × Bytes)) : Prop where
  length : ∀ e ts, (e, ts) ∈ made → ts.length = TIMESTAMP_LEN
  opens : ∀ e ts, (e, ts) ∈ made → (initiate C .pq p e ts none).encrypted_static.Opens C ∧
    (initiate C .pq p e ts none).encrypted_timestamp.Opens C
  authentic : ∀ ephemeral ad ct pt,
    C.chacha_open (timestampKey C q ephemeral) (nonce_of_counter 0) ad ct = some pt →
      ∃ e ts, (e, ts) ∈ made ∧
        (initiate C .pq p e ts none).encrypted_timestamp.key = timestampKey C q ephemeral ∧
        (initiate C .pq p e ts none).encrypted_timestamp.aad = ad ∧
        (initiate C .pq p e ts none).encrypted_timestamp.ciphertext = ct ∧ ts = pt
  open_length : ∀ k n ad ct pt, C.chacha_open k n ad ct = some pt → ct.length = pt.length + 16

/-- The authenticated fields are those of one of the peer's initiations, with a timestamp
    after the last one. -/
def Fresh (C : Crypto) (p : NoiseParams C) (made : List (Bytes × Bytes)) (last : Tai64N)
    (packet : HandshakeInit) : Prop :=
  ∃ e ts stamp, (e, ts) ∈ made ∧ SealedBy C p e ts packet ∧ Tai64N.parse ts = .ok stamp ∧
    stamp.after last = true

section fresh
variable {p q : NoiseParams C} {made : List (Bytes × Bytes)} {last : Tai64N}
  {packet : HandshakeInit}

/-- The seal of the timestamp determines ephemeral and static: the first is in its key, the
    second in its associated data. -/
theorem sealedBy_of_timestamp (hC : C.Ideal) (hpair : Paired p q) {e ts : Bytes}
    (hkey : (initiate C .pq p e ts none).encrypted_timestamp.key
      = timestampKey C q packet.unencrypted_ephemeral)
    (haad : (initiate C .pq p e ts none).encrypted_timestamp.aad
      = b2s_hash C (staticHash C .pq q.static_public packet.unencrypted_ephemeral)
        packet.encrypted_static)
    (hct : (initiate C .pq p e ts none).encrypted_timestamp.ciphertext
      = packet.encrypted_timestamp) :
    SealedBy C p e ts packet := by
  rw [initiate_timestamp, aead_chacha20_seal_key, timestampKey] at hkey
  obtain ⟨_, _, hinputs, _⟩ := Schedule.derive_inj hC.schedule (fresh_chain_key hC .pq)
    (fresh_chain_key hC .pq) hkey
  have hephemeral : C.x25519_public e = packet.unencrypted_ephemeral := (List.cons.inj hinputs).1
  have hhashed : staticHash C .pq q.static_public packet.unencrypted_ephemeral
        ++ (initiate C .pq p e ts none).encrypted_static.ciphertext
      = staticHash C .pq q.static_public packet.unencrypted_ephemeral
        ++ packet.encrypted_static := by
    apply hC.blake2s_inj
    rw [← hephemeral, ← hpair.peer] at haad ⊢
    exact haad
  exact ⟨hephemeral.symm, (List.append_cancel_left hhashed).symm, hct.symm⟩

/-- **When a PQ initiation is accepted.** -/
theorem consume_iff_fresh (hC : C.Ideal) (hK : C.KeyAgreement) (hpair : Paired p q)
    (hseals : PeerSeals C p q made) (ek : Option Bytes) :
    (∃ c, (consume C .pq q last packet ek).run = .ok (.ok c)) ↔ Fresh C p made last packet := by
  constructor
  · rintro ⟨c, hc⟩
    have hok := consume_ok.mp hc
    obtain ⟨pt, hopen, _, hparse⟩ := hok.timestamp_opened
    obtain ⟨e, ts, hmade, hkey, haad, hct, rfl⟩ := hseals.authentic _ _ _ _ hopen
    exact ⟨e, ts, c.timestamp, hmade, sealedBy_of_timestamp hC hpair hkey haad hct, hparse,
      hok.after⟩
  · rintro ⟨e, ts, stamp, hmade, hsealed, hparse, hafter⟩
    obtain ⟨hstatic, htimestamp⟩ := hseals.opens e ts hmade
    exact ⟨_, consume_initiate hK hpair hsealed.ephemeral hsealed.static hsealed.timestamp hstatic
      htimestamp (hseals.length e ts hmade) hparse hafter⟩

end fresh

theorem sealed_peerSeals : PeerSeals sealedCrypto (sealedPeer.sealing sealedLog)
    sealedTunn.handshake.params [([3], sealedStamp)] where
  length := by
    intro e ts hmade
    cases List.mem_singleton.mp hmade
    exact sealedStamp_length
  opens := by
    intro e ts hmade
    cases List.mem_singleton.mp hmade
    exact sealed_opens none
  authentic := by
    intro ephemeral ad ct pt hopen
    obtain ⟨x, hx, hkey, _, haad, hct, hpt⟩ := sealing_open hopen
    rcases List.mem_pair.mp hx with rfl | rfl
    · -- The key of the static field has one input less.
      rw [initiate_static, aead_chacha20_seal_key] at hkey
      obtain ⟨_, _, hinputs, _⟩ := Schedule.derive_inj symbolic_ideal.schedule
        (fresh_chain_key symbolic_ideal .pq) (fresh_chain_key symbolic_ideal .pq) hkey
      exact absurd (congrArg List.length hinputs) (by simp)
    · exact ⟨[3], sealedStamp, List.mem_singleton_self _, hkey, haad, hct, hpt⟩
  open_length := by
    intro k n ad ct pt hopen
    obtain ⟨x, hx, _, _, _, rfl, rfl⟩ := sealing_open hopen
    exact initiationLog_length symbolic_correct.toSized x hx

/-! ## Section 4: Used-up timestamps -/

namespace Tunn

variable {p q : NoiseParams C} {made : List (Bytes × Bytes)} {t t' : Tunn C} {env env' : Env}
  {addr addr' : Option IpAddr} {m m' : Bytes} {n n' : Nat} {packet : PqHandshakeInit}
  {c : Consumed}

/-- The tunnel after its limiter has seen a datagram. -/
def limited (B : Build) (t : Tunn C) (addr : Option IpAddr) (datagram : Bytes) (env : Env) :
    Tunn C :=
  { t with rate_limiter :=
      (t.rate_limiter.verify_packet C B addr datagram COOKIE_REPLY_SZ (env.clock .cookie)).2 }

/-- A datagram is received as what it parses to, or not at all. -/
theorem received_parse (t : Tunn C) (env : Env) (addr : Option IpAddr) (n : Nat) {packet : Packet}
    (hparse : parse_incoming_packet B m = .ok packet) :
    t.received B env (.decapsulate addr m n) = some packet ∨
      t.received B env (.decapsulate addr m n) = none := by
  cases hreceived : t.received B env (.decapsulate addr m n) with
  | none => exact Or.inr rfl
  | some packet' =>
    have hcarries : Op.Carries B m (.decapsulate addr m n) := rfl
    rw [hcarries.parse hreceived] at hparse
    exact Or.inl (by rw [Except.ok.inj hparse])

/-- An accepted datagram that holds a PQ initiation passed the checks. -/
theorem Admits.consumed (hadmits : t.Admits B env (.decapsulate addr m n) c)
    (hparse : parse_incoming_packet B m = .ok (.PqHandshakeInit packet)) :
    (consume C .pq t.handshake.params t.handshake.last_handshake_timestamp packet.toHandshakeInit
      (some packet.mlkem_ephemeral_public)).run = .ok (.ok c) := by
  obtain ⟨packet', v, fields, ek, hreceived, hinit, hc⟩ := hadmits
  have hcarries : Op.Carries B m (.decapsulate addr m n) := rfl
  cases hparse.symm.trans (hcarries.parse hreceived)
  cases hinit
  exact hc

/-- **When a PQ initiation is accepted**, as a datagram. -/
theorem admits_iff_fresh (hC : C.Ideal) (hK : C.KeyAgreement) (hpair : Paired p q)
    (hseals : PeerSeals C p q made) (hparams : t.handshake.params = q)
    (hparse : parse_incoming_packet B m = .ok (.PqHandshakeInit packet)) :
    (∃ c, t.Admits B env (.decapsulate addr m n) c) ↔
      t.received B env (.decapsulate addr m n) = some (.PqHandshakeInit packet) ∧
        Fresh C p made t.handshake.last_handshake_timestamp packet.toHandshakeInit := by
  rw [← consume_iff_fresh hC hK hpair hseals (some packet.mlkem_ephemeral_public), ← hparams]
  constructor
  · intro ⟨c, hadmits⟩
    refine ⟨?_, c, hadmits.consumed hparse⟩
    obtain ⟨packet', _, _, _, hreceived, _⟩ := hadmits
    rcases received_parse t env addr n hparse with hsome | hnone
    · exact hsome
    · cases hnone.symm.trans hreceived
  · rintro ⟨hreceived, c, hc⟩
    exact ⟨c, _, .pq, packet.toHandshakeInit, _, hreceived, rfl, hc⟩

/-- A cookie reply to the datagram has room. -/
def CookieFits (B : Build) (t : Tunn C) (addr : Option IpAddr) (datagram : Bytes) (env : Env)
    (dst_len : Nat) : Prop :=
  ∀ cookie, (t.rate_limiter.verify_packet C B addr datagram COOKIE_REPLY_SZ (env.clock .cookie)).1
    = .error (.WriteToNetwork cookie) → cookie.length ≤ dst_len

/-- A PQ initiation that is not accepted changes the limiter only. -/
theorem dropped_of_not_admits (hseals : PeerSeals C p q made) (hparams : t.handshake.params = q)
    (hparse : parse_incoming_packet B m = .ok (.PqHandshakeInit packet))
    (hfits : t.CookieFits B addr m env n)
    (hnot : ∀ c, ¬ t.Admits B env (.decapsulate addr m n) c) :
    ∃ r, t.step B (.decapsulate addr m n) env = .ok (r, t.limited B addr m env, []) := by
  have hne : m ≠ [] := by
    intro hempty
    rw [hempty] at hparse
    cases hparse
  show ∃ r, t.decapsulate B addr m n env = _
  unfold decapsulate limited
  rw [if_neg hne]
  rcases hverify : t.rate_limiter.verify_packet C B addr m COOKIE_REPLY_SZ (env.clock .cookie)
    with ⟨verified, limiter⟩
  dsimp only
  cases verified with
  | ok packet' =>
    have hreceived : t.received B env (.decapsulate addr m n) = some packet' := by
      simp [received, hne, hverify]
    rcases received_parse t env addr n hparse with hsome | hnone
    · obtain rfl := Option.some.inj (hreceived.symm.trans hsome)
      obtain ⟨res, hc⟩ :=
        consume_returns ⟨hseals.open_length⟩ .pq q t.handshake.last_handshake_timestamp
          packet.toHandshakeInit (some packet.mlkem_ephemeral_public)
      rw [← hparams] at hc
      cases res with
      | ok c => exact absurd ⟨_, .pq, _, _, hsome, rfl, hc⟩ (hnot c)
      | error e =>
        have hcall : t.handshake.receive_pq_handshake_initialization packet n env
            = .ok (.error e, t.handshake, []) := by
          unfold Handshake.receive_pq_handshake_initialization Handshake.receive_initialization
          rw [hc]
          rfl
        refine ⟨.Err e, ?_⟩
        show (t.handshake.receive_pq_handshake_initialization packet n env >>= _) = _
        rw [hcall]
        rfl
    · rw [hnone] at hreceived
      cases hreceived
  | error r =>
    have herror := congrArg Prod.fst hverify
    rcases RateLimiter.verify_packet_error herror with ⟨rest, rfl⟩ | ⟨e, rfl⟩
    · refine ⟨.WriteToNetwork (Bytes.leBytes 4 COOKIE_REPLY ++ rest), ?_⟩
      dsimp only
      rw [if_neg (Nat.not_lt.mpr (hfits _ herror))]
    · exact ⟨.Err e, rfl⟩

/-- A call that returned had room for its cookie reply. -/
theorem cookieFits_of_returns {x : TunnResult × Tunn C × List Event} (hne : m ≠ [])
    (hstep : t.step B (.decapsulate addr m n) env = .ok x) : t.CookieFits B addr m env n := by
  intro cookie herror
  have hcall : t.decapsulate B addr m n env = .ok x := hstep
  unfold decapsulate at hcall
  rw [if_neg hne] at hcall
  dsimp only at hcall
  rw [herror] at hcall
  by_contra hroom
  simp only [if_pos (Nat.not_le.mp hroom)] at hcall
  cases hcall

/-- The datagram `m'` is dropped: the call returns, nothing but the limiter changes, and `m`
    is accepted afterwards. -/
def Harmless (B : Build) (t : Tunn C) (addr' : Option IpAddr) (m' : Bytes) (n' : Nat) (env' : Env)
    (addr : Option IpAddr) (m : Bytes) (n : Nat) (env : Env) (c : Consumed) : Prop :=
  ∃ r t', t.step B (.decapsulate addr' m' n') env' = .ok (r, t', []) ∧
    t' = { t with rate_limiter := t'.rate_limiter } ∧ t'.Admits B env (.decapsulate addr m n) c

/-- **Which datagrams use up the timestamp of an initiation.**  The tunnel would accept the
    initiation `m`.  A PQ initiation `m'` before it does no harm if and only if it does not
    reach the handshake with the authenticated fields of an initiation of the peer, and the
    limiter has room for its own answer and still lets `m` through. -/
theorem altered_initiation_harmless_iff (hC : C.Ideal) (hK : C.KeyAgreement) (hpair : Paired p q)
    (hseals : PeerSeals C p q made) (hparams : t.handshake.params = q)
    (hm : t.Admits B env (.decapsulate addr m n) c)
    (hparse : parse_incoming_packet B m' = .ok (.PqHandshakeInit packet)) :
    t.Harmless B addr' m' n' env' addr m n env c ↔
      ¬ (t.received B env' (.decapsulate addr' m' n') = some (.PqHandshakeInit packet) ∧
        Fresh C p made t.handshake.last_handshake_timestamp packet.toHandshakeInit) ∧
      t.CookieFits B addr' m' env' n' ∧
      (t.limited B addr' m' env').received B env (.decapsulate addr m n)
        = t.received B env (.decapsulate addr m n) := by
  rw [← admits_iff_fresh hC hK hpair hseals hparams hparse, not_exists]
  have hne : m' ≠ [] := by
    intro hempty
    rw [hempty] at hparse
    cases hparse
  constructor
  · intro ⟨r, t', hstep, hsame, hadmits⟩
    have hnot : ∀ c', ¬ t.Admits B env' (.decapsulate addr' m' n') c' := by
      intro c' hadmits'
      have hlast := hadmits'.committed hstep
      rw [hsame] at hlast
      exact absurd hadmits'.after (by rw [← hlast]; exact lt_irrefl _)
    have hfits := cookieFits_of_returns hne hstep
    obtain ⟨r', hdropped⟩ := dropped_of_not_admits hseals hparams hparse hfits hnot
    obtain rfl : t' = t.limited B addr' m' env' := by
      rw [hdropped] at hstep
      cases hstep
      rfl
    refine ⟨hnot, hfits, ?_⟩
    obtain ⟨packet₁, _, _, _, hreceived₁, _⟩ := hm
    obtain ⟨packet₂, _, _, _, hreceived₂, _⟩ := hadmits
    have hcarries : Op.Carries B m (.decapsulate addr m n) := rfl
    have hparsed := (hcarries.parse hreceived₂).symm.trans (hcarries.parse hreceived₁)
    rw [hreceived₁, hreceived₂, Except.ok.inj hparsed]
  · intro ⟨hnot, hfits, hreceived⟩
    obtain ⟨r, hdropped⟩ := dropped_of_not_admits hseals hparams hparse hfits hnot
    refine ⟨r, _, hdropped, rfl, ?_⟩
    obtain ⟨packet₁, v, fields, ek, hreceived₁, hinit, hc⟩ := hm
    exact ⟨packet₁, v, fields, ek, hreceived.trans hreceived₁, hinit, hc⟩

/-- A datagram with these fields, for the peer of `p`. -/
def pqInitiation (p : NoiseParams C) (fields : HandshakeInit) (ek : Bytes) : Bytes :=
  initMessage .pq fields (some ek) ++
    b2s_keyed_mac_16 C p.sending_mac1_key (initMessage .pq fields (some ek)) ++ List.replicate 16 0

section attack
variable {now : Nat} {fields : HandshakeInit} {ek : Bytes}

theorem parse_pqInitiation (hS : C.Sized) (hpq : B.pq = true) (p : NoiseParams C)
    (fields : HandshakeInit) (hek : ek.length = MLKEM768_PK_SIZE) :
    parse_incoming_packet B (pqInitiation p fields ek) =
      .ok (.PqHandshakeInit ⟨fields, ek, hek⟩) := by
  unfold pqInitiation
  rw [List.append_assoc]
  apply parse_pq_init hpq ⟨fields, ek, hek⟩
  rw [List.length_append, List.length_replicate]
  exact congrArg (· + 16) (hS.mac_length _ _)

/-- It passes a limiter that is not under load. -/
theorem verify_pqInitiation (hS : C.Sized) (hpq : B.pq = true) {l : RateLimiter}
    (hmac1 : p.sending_mac1_key = l.mac1_key) (hload : l.count < l.limit)
    (hek : ek.length = MLKEM768_PK_SIZE) (size : Nat) :
    l.verify_packet C B addr (pqInitiation p fields ek) size now
      = (.ok (.PqHandshakeInit ⟨fields, ek, hek⟩), l.counted) := by
  have hparse := parse_pqInitiation hS hpq p fields hek
  unfold pqInitiation at hparse ⊢
  rw [List.append_assoc] at hparse ⊢
  exact RateLimiter.verify_packet_ok hparse rfl (hS.mac_length _ _) List.length_replicate
    (by rw [hmac1]) addr size now hload

/-- **Fields of the peer with any ML-KEM key are accepted and answered.** -/
theorem answers_fields (hS : C.Sized) (hready : t.Ready now)
    (hpeer : p.peer_static_public = t.handshake.params.static_public)
    (hload : t.rate_limiter.count < t.rate_limiter.limit) (hpq : B.pq = true)
    (hek : ek.length = MLKEM768_PK_SIZE) (hvalid : C.mlkem_ek_valid ek = true)
    (hdst : Variant.pq.resp_size ≤ n)
    (hc : ∃ c, (consume C .pq t.handshake.params t.handshake.last_handshake_timestamp fields
      (some ek)).run = .ok (.ok c)) :
    ∃ r t' evs c, t.Admits B env (.decapsulate addr (pqInitiation p fields ek) n) c ∧
      t.step B (.decapsulate addr (pqInitiation p fields ek) n) env = .ok (r, t', evs) ∧
      Responds evs ∧ t'.handshake.params = t.handshake.params := by
  have hcarries : Variant.pq.Carries MLKEM768_PK_SIZE (some ek) := ⟨ek, rfl, hek⟩
  have hencaps : (Variant.pq.encapsulate C (some ek) env.mlkem_seed).run
      = .ok (.ok (some (C.mlkem_encapsulate ek env.mlkem_seed))) := by
    simp [Variant.encapsulate, hek, hvalid]
  obtain ⟨c, hc⟩ := hc
  have hmac2 : (List.replicate 16 (0 : UInt8)).length = 16 := List.length_replicate
  obtain ⟨mac2', msg, t', _, _, hcall, hview, _⟩ := decapsulate_answers (p := p) addr env hS hready
    hload (fun _ => hpq) hpeer hcarries hmac2 hc hencaps hdst rfl rfl
  have hparams : t'.handshake.params = t.handshake.params := congrArg View.params hview
  obtain ⟨r, evs, hstep, hresponds⟩ : ∃ r evs,
      t.step B (.decapsulate addr (pqInitiation p fields ek) n) env = .ok (r, t', evs) ∧
        Responds evs :=
    ⟨_, _, hcall, by simp [Responds]⟩
  rcases step_admits hstep with ⟨c', hadmits, _⟩ | ⟨_, hsilent⟩
  · exact ⟨r, t', evs, c', hadmits, hstep, hresponds, hparams⟩
  · exact absurd hresponds hsilent.silent

end attack

theorem sealedTunn_ready : ∃ now, sealedTunn.Ready now :=
  (reached_new (B := symbolicBuild true)).ready

/-- An initiation with another ML-KEM key is answered, and the one of the peer no longer is. -/
theorem altered_key_uses_timestamp :
    let B := symbolicBuild true
    let env := quietEnv [4] [6]
    let m : UInt8 → Bytes := fun b =>
      pqInitiation (sealedPeer.sealing sealedLog) sealedInit (fit MLKEM768_PK_SIZE [b])
    ∃ r t' evs, (∃ c, sealedTunn.Admits B env (.decapsulate none (m 1) 2048) c) ∧
      sealedTunn.step B (.decapsulate none (m 2) 2048) env = .ok (r, t', evs) ∧ Responds evs ∧
      t'.handshake.last_handshake_timestamp ≠ sealedTunn.handshake.last_handshake_timestamp ∧
      ∀ c, ¬ t'.Admits B env (.decapsulate none (m 1) 2048) c := by
  intro B env m
  obtain ⟨now, hready⟩ := sealedTunn_ready
  have hS := sealed_keyAgreement.toSized
  have hparse : ∀ b, parse_incoming_packet B (m b)
      = .ok (.PqHandshakeInit ⟨sealedInit, fit MLKEM768_PK_SIZE [b], length_fit _ [b]⟩) := by
    intro b
    exact parse_pqInitiation hS rfl _ _ (length_fit _ [b])
  have hanswers : ∀ b, ∃ r t' evs c, sealedTunn.Admits B env (.decapsulate none (m b) 2048) c ∧
      sealedTunn.step B (.decapsulate none (m b) 2048) env = .ok (r, t', evs) ∧ Responds evs ∧
      t'.handshake.params = sealedTunn.handshake.params := by
    intro b
    exact answers_fields hS hready rfl (by decide) rfl (length_fit _ [b]) rfl (by decide)
      (sealedInit_consumed _)
  obtain ⟨_, _, _, c, hadmits, _⟩ := hanswers 1
  obtain ⟨r, t', evs, c', hadmits', hstep, hresponds, hparams⟩ := hanswers 2
  have hlast := hadmits'.committed hstep
  refine ⟨r, t', evs, ⟨c, hadmits⟩, hstep, hresponds, ?_, ?_⟩
  · intro hkept
    have hafter := hadmits'.after
    rw [← hlast, hkept] at hafter
    exact lt_irrefl _ hafter
  · intro c₂ hadmits₂
    -- Its timestamp is the one that was committed.
    have hlater := consume_ok.mp (hadmits₂.consumed (hparse 1))
    have hfirst := consume_ok.mp (hadmits'.consumed (hparse 2))
    have hsame := hlater.timestamp_unique hfirst (by rw [hparams]) (Or.inl (by rw [hparams]))
    have hafter := hadmits₂.after
    rw [hlast, hsame] at hafter
    exact lt_irrefl _ hafter

/-- A timestamp that the peer did not seal. -/
def forgedInit : HandshakeInit :=
  { sealedInit with encrypted_timestamp := List.replicate 28 1, timestamp_length := rfl }

/-- An initiation with a forged timestamp does no harm. -/
theorem altered_initiation_harmless_forged :
    let B := symbolicBuild true
    let env := quietEnv [4] [6]
    let m : HandshakeInit → Bytes := fun fields =>
      pqInitiation (sealedPeer.sealing sealedLog) fields (fit MLKEM768_PK_SIZE [1])
    ∃ c, sealedTunn.Harmless B none (m forgedInit) 2048 env none (m sealedInit) 2048 env c := by
  intro B env m
  have hS := sealed_keyAgreement.toSized
  have hek : (fit MLKEM768_PK_SIZE [1]).length = MLKEM768_PK_SIZE := length_fit _ _
  have hverify : ∀ fields, sealedTunn.rate_limiter.verify_packet sealedCrypto B none (m fields)
      COOKIE_REPLY_SZ (env.clock .cookie)
        = (.ok (.PqHandshakeInit ⟨fields, _, hek⟩), sealedTunn.rate_limiter.counted) := by
    intro fields
    exact verify_pqInitiation hS rfl rfl (by decide) hek _
  have hverify' : ∀ fields, sealedTunn.rate_limiter.counted.verify_packet sealedCrypto B none
      (m fields) COOKIE_REPLY_SZ (env.clock .cookie)
        = (.ok (.PqHandshakeInit ⟨fields, _, hek⟩), sealedTunn.rate_limiter.counted.counted) := by
    intro fields
    exact verify_pqInitiation hS rfl rfl (by decide) hek _
  have hparse : ∀ fields, parse_incoming_packet B (m fields)
      = .ok (.PqHandshakeInit ⟨fields, _, hek⟩) := by
    intro fields
    exact parse_pqInitiation hS rfl _ _ hek
  have hne : ∀ fields, m fields ≠ [] := by
    intro fields hempty
    have hbad := hparse fields
    rw [hempty] at hbad
    cases hbad
  have hreceived : sealedTunn.received B env (.decapsulate none (m sealedInit) 2048)
      = some (.PqHandshakeInit ⟨sealedInit, _, hek⟩) := by
    simp [received, hne, hverify]
  obtain ⟨c, hc⟩ := sealedInit_consumed (some (fit MLKEM768_PK_SIZE [1]))
  have hadmits : sealedTunn.Admits B env (.decapsulate none (m sealedInit) 2048) c :=
    ⟨_, .pq, sealedInit, _, hreceived, rfl, hc⟩
  refine ⟨c, (altered_initiation_harmless_iff sealed_ideal sealed_keyAgreement sealed_paired
    sealed_peerSeals rfl hadmits (hparse forgedInit)).mpr ⟨?_, ?_, ?_⟩⟩
  · rintro ⟨_, e, ts, stamp, hmade, hsealed, _⟩
    cases List.mem_singleton.mp hmade
    have hforged : List.replicate 28 1 = sealedStamp ++ List.replicate 16 0 := hsealed.timestamp
    exact absurd hforged (by decide)
  · intro cookie herror
    rw [hverify] at herror
    cases herror
  · rw [hreceived]
    simp [received, limited, hne, hverify, hverify']

end Tunn

end PqBoringtun
