import PqBoringtun.Noise.Completeness

/-! # Transcript agreement

    An initiator that accepts a response agrees with the responder that
    sealed it on everything the handshake is made of, whatever happened to
    both messages on the way.

    * `Exchange`: what one side puts into a handshake.
    * `Exchange.eq_of_seal`: the key and the associated data of
      `encrypted_nothing` determine the exchange.
    * `Handshake.initiatorExchange`, `Handshake.responderExchange`: the two
      sides' exchanges.
-/

namespace PqBoringtun

open Bytes KeyChain

variable {C : Crypto} {v v' w : Variant}

/-! ## Section 1: Exchanges -/

/-- What one side puts into a handshake. -/
@[ext] structure Exchange where
  variant : Variant
  responder_static : Bytes
  initiator_ephemeral : Bytes
  encrypted_static : Bytes
  encrypted_timestamp : Bytes
  mlkem_ek : Option Bytes
  responder_ephemeral : Bytes
  /-- ML-KEM ciphertext and shared secret. -/
  kem : Option (Bytes × Bytes)
  /-- Diffie-Hellman of initiator ephemeral and responder static. -/
  es : Bytes
  /-- Of the two static keys. -/
  ss : Bytes
  /-- Of the two ephemerals. -/
  ee : Bytes
  /-- Of initiator static and responder ephemeral. -/
  se : Bytes
  psk : Bytes
  deriving DecidableEq, Repr

namespace Exchange

/-- The inputs of the key schedule before the preshared key. -/
def inputs (x : Exchange) : List Bytes :=
  [x.initiator_ephemeral, x.es, x.ss] ++ responseInputs x.responder_ephemeral x.ee x.se x.kem

/-- The key of `encrypted_nothing`. -/
def nothingKey (C : Crypto) (x : Exchange) : Bytes :=
  (schedule C).derive .confirm x.variant.chain_key x.inputs x.psk

/-- The fields of the transcript before the expansion of the preshared key. -/
def fields (x : Exchange) : List Bytes :=
  [x.responder_static, x.initiator_ephemeral, x.encrypted_static, x.encrypted_timestamp] ++
    x.mlkem_ek.toList ++ [x.responder_ephemeral] ++ (x.kem.map Prod.fst).toList

/-- The associated data of `encrypted_nothing`. -/
def nothingHash (C : Crypto) (x : Exchange) : Bytes :=
  hashChain C x.variant.chain_hash
    (x.fields ++ [(schedule C).derive .field x.variant.chain_key x.inputs x.psk])

/-- The session keys: `.chain` is the initiator's sending key, `.field` the responder's. -/
def sessionKey (C : Crypto) (x : Exchange) (tag : Tag) : Bytes :=
  (schedule C).derive tag x.variant.chain_key (x.inputs ++ [x.psk]) []

/-- The fields have the lengths of their places in the messages. -/
structure WellSized (x : Exchange) : Prop where
  responder_static : x.responder_static.length = 32
  initiator_ephemeral : x.initiator_ephemeral.length = 32
  encrypted_static : x.encrypted_static.length = 48
  encrypted_timestamp : x.encrypted_timestamp.length = 28
  mlkem_ek : x.variant.Carries MLKEM768_PK_SIZE x.mlkem_ek
  responder_ephemeral : x.responder_ephemeral.length = 32
  kem : x.variant.Carries MLKEM768_CT_SIZE (x.kem.map Prod.fst)

theorem carries_lengths {n : Nat} {a b : Option Bytes} (ha : v.Carries n a) (hb : v.Carries n b) :
    a.toList.map List.length = b.toList.map List.length := by
  cases v with
  | classical => rw [show a = none from ha, show b = none from hb]
  | pq =>
    obtain ⟨_, rfl, ha⟩ := ha
    obtain ⟨_, rfl, hb⟩ := hb
    simp [ha, hb]

variable {x y : Exchange}

theorem WellSized.fields_lengths (hx : x.WellSized) (hy : y.WellSized)
    (hv : x.variant = y.variant) :
    x.fields.map List.length = y.fields.map List.length := by
  have hek := carries_lengths hx.mlkem_ek (hv ▸ hy.mlkem_ek)
  have hct := carries_lengths hx.kem (hv ▸ hy.kem)
  simp only [fields, List.map_append, List.map_cons, List.map_nil, hx.responder_static,
    hx.initiator_ephemeral, hx.encrypted_static, hx.encrypted_timestamp, hx.responder_ephemeral,
    hy.responder_static, hy.initiator_ephemeral, hy.encrypted_static, hy.encrypted_timestamp,
    hy.responder_ephemeral, hek, hct]

/-- Equal fields and inputs of one variant: the optional parts stand at the same places. -/
theorem eq_of_fields (hx : x.WellSized) (hy : y.WellSized) (hv : x.variant = y.variant)
    (hfields : x.fields = y.fields) (hinputs : x.inputs = y.inputs) (hpsk : x.psk = y.psk) :
    x = y := by
  have hxe := hx.mlkem_ek
  have hxk := hx.kem
  have hye := hy.mlkem_ek
  have hyk := hy.kem
  obtain ⟨v, _, _, _, _, ek, _, kem, _, _, _, _, _⟩ := x
  obtain ⟨_, _, _, _, _, ek', _, kem', _, _, _, _, _⟩ := y
  obtain rfl := hv
  simp only [fields, inputs, responseInputs] at *
  cases v with
  | classical =>
    obtain rfl : ek = none := hxe
    obtain rfl : ek' = none := hye
    obtain rfl : kem = none := Option.map_eq_none_iff.mp hxk
    obtain rfl : kem' = none := Option.map_eq_none_iff.mp hyk
    simp_all
  | pq =>
    obtain ⟨ek, rfl, _⟩ := hxe
    obtain ⟨ek', rfl, _⟩ := hye
    obtain ⟨ct, hkem, _⟩ := hxk
    obtain ⟨ct', hkem', _⟩ := hyk
    obtain ⟨⟨_, ss⟩, rfl, rfl⟩ := Option.map_eq_some_iff.mp hkem
    obtain ⟨⟨_, ss'⟩, rfl, rfl⟩ := Option.map_eq_some_iff.mp hkem'
    simp_all

/-- **Key and associated data of `encrypted_nothing` determine the exchange.** -/
theorem eq_of_seal (hC : C.Ideal) (hx : x.WellSized) (hy : y.WellSized)
    (hkey : x.nothingKey C = y.nothingKey C) (hhash : x.nothingHash C = y.nothingHash C) :
    x = y := by
  -- The key gives the variant, the Diffie-Hellman results, the shared secret and the
  -- preshared key; the transcript gives what was sent.
  obtain ⟨_, hck, hinputs, hpsk⟩ := Schedule.derive_inj hC.schedule
    (fresh_chain_key hC x.variant) (fresh_chain_key hC y.variant) hkey
  have hv := chain_key_inj hck
  unfold nothingHash at hhash
  rw [hinputs, hpsk, hv] at hhash
  have hlen := hx.fields_lengths hy hv
  obtain ⟨_, hfields⟩ := Transcript.absorb_inj (fun _ _ => hC.blake2s_inj)
    (by rw [List.map_append, List.map_append, hlen]) hhash
  exact eq_of_fields hx hy hv (List.append_cancel_right hfields) hinputs hpsk

end Exchange

/-! ## Section 2: The two sides of a handshake -/

/-- What an initiator puts in: `p` are its parameters when it forms the initiation, `p'`
    when it gets the response `packet`. -/
def initiatorExchange (C : Crypto) (v : Variant) (p p' : NoiseParams C) (e seed timestamp : Bytes)
    (packet : HandshakeResponse) (kem : Option (Bytes × Bytes)) : Exchange :=
  let ek := (v.keygen C seed).map Prod.snd
  let i := initiate C v p e timestamp ek
  { variant := v
    responder_static := p.peer_static_public
    initiator_ephemeral := i.unencrypted_ephemeral
    encrypted_static := i.encrypted_static.ciphertext
    encrypted_timestamp := i.encrypted_timestamp.ciphertext
    mlkem_ek := ek
    responder_ephemeral := packet.unencrypted_ephemeral
    kem := kem
    es := C.x25519 e p.peer_static_public
    ss := p.static_shared
    ee := C.x25519 e packet.unencrypted_ephemeral
    se := C.x25519 p'.static_private packet.unencrypted_ephemeral
    psk := p'.psk }

/-- What a responder puts in that answers the initiation `packet` with ephemeral `e`. -/
def responderExchange (C : Crypto) (v : Variant) (q : NoiseParams C) (packet : HandshakeInit)
    (ek : Option Bytes) (e : Bytes) (kem : Option (Bytes × Bytes)) : Exchange where
  variant := v
  responder_static := q.static_public
  initiator_ephemeral := packet.unencrypted_ephemeral
  encrypted_static := packet.encrypted_static
  encrypted_timestamp := packet.encrypted_timestamp
  mlkem_ek := ek
  responder_ephemeral := C.x25519_public e
  kem := kem
  es := C.x25519 q.static_private packet.unencrypted_ephemeral
  ss := q.static_shared
  ee := C.x25519 e packet.unencrypted_ephemeral
  se := C.x25519 e q.peer_static_public
  psk := q.psk

theorem initiatorExchange_wellSized (hC : C.Sized) (p p' : NoiseParams C) (e seed : Bytes)
    {timestamp : Bytes} (hts : timestamp.length = TIMESTAMP_LEN) (packet : HandshakeResponse)
    {kem : Option (Bytes × Bytes)} (hkem : v.Carries MLKEM768_CT_SIZE (kem.map Prod.fst)) :
    (initiatorExchange C v p p' e seed timestamp packet kem).WellSized := by
  let sent := HandshakeInit.sent hC v p 0 e timestamp hts ((v.keygen C seed).map Prod.snd)
  exact ⟨p.peer_length, sent.ephemeral_length, sent.static_length, sent.timestamp_length,
    keygen_carries hC seed, packet.ephemeral_length, hkem⟩

theorem responderExchange_wellSized (hC : C.Sized) (q : NoiseParams C) (packet : HandshakeInit)
    {ek : Option Bytes} (hek : v.Carries MLKEM768_PK_SIZE ek) (e : Bytes)
    {kem : Option (Bytes × Bytes)} (hkem : v.Carries MLKEM768_CT_SIZE (kem.map Prod.fst)) :
    (responderExchange C v q packet ek e kem).WellSized :=
  ⟨by rw [responderExchange, q.static_public_eq]; exact hC.public_length _,
    packet.ephemeral_length, packet.static_length, packet.timestamp_length, hek,
    hC.public_length e, hkem⟩

/-- The seal and the session keys of a responder, from its exchange. -/
theorem respond_exchange {q : NoiseParams C} {packet : HandshakeInit} {ek : Option Bytes}
    {last : Tai64N} {c : Consumed} (hc : ConsumeOk C v q last packet ek c) (e : Bytes)
    (kem : Option (Bytes × Bytes)) {r : Response}
    (hr : r = respond C q c.hash c.chaining_key packet.unencrypted_ephemeral e kem) :
    r.encrypted_nothing = aead_chacha20_seal C
        ((responderExchange C v q packet ek e kem).nothingKey C) 0 []
        ((responderExchange C v q packet ek e kem).nothingHash C) ∧
      r.receiving_key = (responderExchange C v q packet ek e kem).sessionKey C .chain ∧
      r.sending_key = (responderExchange C v q packet ek e kem).sessionKey C .field := by
  subst hr
  obtain ⟨hrecv, hsend⟩ := respond_keys (p := q) c.hash c.chaining_key
    packet.unencrypted_ephemeral e kem
  rw [respond_nothing, hrecv, hsend, hc.chaining_key, hc.hash]
  simp only [Schedule.derive_chain]
  refine ⟨?_, rfl, rfl⟩
  congr 1
  cases ek <;> cases kem <;> rfl

theorem aead_chacha20_open_error {n counter : Nat} {key data aad : Bytes}
    (h : C.chacha_open key (nonce_of_counter counter) aad data = none) :
    (aead_chacha20_open C n key counter data aad).run = .ok (.error .InvalidAeadTag) := by
  unfold aead_chacha20_open
  rw [h]
  rfl

section complete
variable {p : NoiseParams C} {idx : UInt32} {e seed ts : Bytes} {time : Nat}
  {s : HandshakeInitSentState} (p' : NoiseParams C) {packet : HandshakeResponse}
  {kem : Option (Bytes × Bytes)}

/-- The keys and the transcript of an initiator, from its exchange. -/
theorem complete_exchange (hs : s = initSent C v p idx e seed ts time)
    {x : Exchange} (hx : x = initiatorExchange C v p p' e seed ts packet kem) :
    (∀ tag, (schedule C).derive tag s.chaining_key
        (completeInputs C p' s packet.unencrypted_ephemeral kem ++ [p'.psk]) []
          = x.sessionKey C tag) ∧
      (schedule C).derive .confirm s.chaining_key
        (completeInputs C p' s packet.unencrypted_ephemeral kem) p'.psk = x.nothingKey C ∧
      responseHash C s.hash packet.unencrypted_ephemeral kem
        ((schedule C).derive .field s.chaining_key
          (completeInputs C p' s packet.unencrypted_ephemeral kem) p'.psk) = x.nothingHash C := by
  subst hs hx
  have hck : (initSent C v p idx e seed ts time).chaining_key
      = (schedule C).chain v.chain_key (initiatorInputs C p e) := rfl
  have hhash : (initSent C v p idx e seed ts time).hash = _ := initiate_hash ..
  rw [hck, hhash]
  simp only [Schedule.derive_chain]
  refine ⟨fun _ => rfl, rfl, ?_⟩
  cases v <;> cases kem <;> rfl

/-- A response with a tag that does not open is rejected. -/
theorem complete_rejects
    (hopen : C.chacha_open
      ((schedule C).derive .confirm s.chaining_key
        (completeInputs C p s packet.unencrypted_ephemeral kem) p.psk)
      (nonce_of_counter 0)
      (responseHash C s.hash packet.unencrypted_ephemeral kem
        ((schedule C).derive .field s.chaining_key
          (completeInputs C p s packet.unencrypted_ephemeral kem) p.psk))
      packet.encrypted_nothing = none) :
    (complete C p s packet kem).run = .ok (.error .InvalidAeadTag) := by
  unfold complete
  rcases kem with _ | ⟨ct, ss⟩
  · exact Attempt.run_bind_of_error (aead_chacha20_open_error hopen)
  · exact Attempt.run_bind_of_error (aead_chacha20_open_error hopen)

/-- The seal of exchange `y` is rejected by an initiator that has another exchange. -/
theorem complete_cases (hC : C.Ideal) (hS : C.Sized) (hs : s = initSent C v p idx e seed ts time)
    (hts : ts.length = TIMESTAMP_LEN) (hkem : v.Carries MLKEM768_CT_SIZE (kem.map Prod.fst))
    {y : Exchange} (hy : y.WellSized)
    (hbinding : (aead_chacha20_seal C (y.nothingKey C) 0 [] (y.nothingHash C)).Binding C)
    (hnothing : packet.encrypted_nothing
      = (aead_chacha20_seal C (y.nothingKey C) 0 [] (y.nothingHash C)).ciphertext) :
    (complete C p' s packet kem).run = .ok (.error .InvalidAeadTag) ∨
      (initiatorExchange C v p p' e seed ts packet kem = y ∧
        (complete C p' s packet kem).run
          = .ok (.ok (y.sessionKey C .field, y.sessionKey C .chain))) := by
  obtain ⟨hsession, hkey, hhash⟩ := complete_exchange p' hs
    (rfl : initiatorExchange C v p p' e seed ts packet kem = _)
  have hwell := initiatorExchange_wellSized hS p p' e seed hts packet hkem
  generalize initiatorExchange C v p p' e seed ts packet kem = x at *
  cases hopen : C.chacha_open (x.nothingKey C) (nonce_of_counter 0) (x.nothingHash C)
      packet.encrypted_nothing with
  | none =>
    refine Or.inl (complete_rejects ?_)
    rw [hkey, hhash]
    exact hopen
  | some pt =>
    obtain ⟨hkey', _, hhash', rfl⟩ := hbinding _ _ _ _ (hnothing ▸ hopen)
    obtain rfl := Exchange.eq_of_seal hC hwell hy hkey' hhash'
    refine Or.inr ⟨rfl, complete_ok.mpr ⟨?_, (hsession .field).symm, (hsession .chain).symm⟩⟩
    rw [hkey, hhash]
    exact hopen

end complete

/-- What an encapsulation returned has the size of a ciphertext. -/
theorem encapsulate_carries (hC : C.Sized) {ek : Option Bytes} {seed : Bytes}
    {kem : Option (Bytes × Bytes)} (h : (v.encapsulate C ek seed).run = .ok (.ok kem)) :
    v.Carries MLKEM768_CT_SIZE (kem.map Prod.fst) := by
  cases v with
  | classical =>
    cases h
    rfl
  | pq =>
    obtain ⟨key, _, rfl⟩ := encapsulate_pq_ok h
    exact ⟨_, rfl, hC.ct_length _ _⟩

/-- A decapsulation fails, or the variant is the one of the decapsulation key. -/
theorem decapsulate_cases {seed : Bytes} {ct : Option Bytes}
    (hct : w.Carries MLKEM768_CT_SIZE ct)
    (htype : ¬(w = .classical ∧ ((v.keygen C seed).map Prod.fst).isSome)) :
    (∃ e, (w.decapsulate C ((v.keygen C seed).map Prod.fst) ct).run = .ok (.error e)) ∨
      (w = v ∧ ∃ kem, (w.decapsulate C ((v.keygen C seed).map Prod.fst) ct).run = .ok (.ok kem) ∧
        kem.map Prod.fst = ct) := by
  cases w with
  | classical =>
    cases v with
    | classical => exact Or.inr ⟨rfl, none, rfl, hct.symm⟩
    | pq => exact absurd ⟨rfl, rfl⟩ htype
  | pq =>
    obtain ⟨ct, rfl, _⟩ := hct
    cases v with
    | classical => exact Or.inl ⟨_, rfl⟩
    | pq =>
      simp only [Variant.decapsulate, Variant.keygen, Option.map_some, true_and]
      cases C.mlkem_decapsulate (C.mlkem_keygen seed).1 ct with
      | none => exact Or.inl ⟨_, rfl⟩
      | some ss => exact Or.inr ⟨_, rfl, rfl⟩

/-! ## Section 3: Agreement -/

namespace Handshake

/-- What a call that sealed a response went through. -/
theorem receive_initialization_sealed {h h' : Handshake C} {packet : HandshakeInit}
    {ek : Option Bytes} {dst_len : Nat} {env : Env} {m : Bytes} {session : Session}
    {evs : List Event} {e : Bytes} {x : Seal}
    (hcall : h.receive_initialization v packet ek dst_len env = .ok (.ok (m, session), h', evs))
    (hx : .handshake .encrypted_nothing e x ∈ evs) :
    ∃ c kem r, ConsumeOk C v h.params h.last_handshake_timestamp packet ek c ∧
      (v.encapsulate C ek env.mlkem_seed).run = .ok (.ok kem) ∧
      r = respond C h.params c.hash c.chaining_key packet.unencrypted_ephemeral env.ephemeral kem ∧
      x = r.encrypted_nothing ∧ session.receiver = r.receiving_key ∧
      session.sender = r.sending_key := by
  unfold receive_initialization at hcall
  obtain ⟨consumed, hc, hcall⟩ := Outcome.bind_eq_ok.mp hcall
  cases consumed with
  | error e => cases hcall
  | ok c =>
    simp only at hcall
    unfold format_response at hcall
    split at hcall
    · cases hcall
    simp only [committed] at hcall
    obtain ⟨kem, hkem, hcall⟩ := Outcome.bind_eq_ok.mp hcall
    cases kem with
    | error e => cases hcall
    | ok kem =>
      cases hcall
      have hsealed : e = env.ephemeral ∧ x = (respond C h.params c.hash c.chaining_key
          packet.unencrypted_ephemeral env.ephemeral kem).encrypted_nothing := by
        simpa using hx
      exact ⟨c, kem, _, consume_ok.mp hc, hkem, rfl, hsealed.2, rfl, rfl⟩

/-- A response is rejected when its keys cannot be derived. -/
theorem receive_response_error {h : Handshake C} {s : HandshakeInitSentState}
    {is_previous : Bool} {packet : HandshakeResponse} {ct : Option Bytes} {env : Env}
    {e : WireGuardError}
    (hslot : response_slot h.state h.previous packet.receiver_idx = some (s, is_previous))
    (hkeys : (response_keys w h.params s packet ct).run = .ok (.error e)) :
    ∃ e, h.receive_response w packet ct env = .ok (.error e, h, []) := by
  unfold receive_response
  rw [hslot]
  dsimp only
  split
  · exact ⟨_, rfl⟩
  · rw [hkeys]
    exact ⟨_, rfl⟩

end Handshake

/-- **Transcript agreement.**  An initiator formed an initiation; a responder received some
    initiation and sealed a response.  When the initiator gets a response with that seal, then
    it rejects the response and stays as it is, or both have the same exchange (variant, what
    was sent, ML-KEM secret, Diffie-Hellman results, preshared key) and swapped session keys. -/
theorem Handshake.response_agreement (hC : C.Ideal) (hS : C.Sized)
    {hA hA' hR hR' hI : Handshake C} {dst_len dst_len' : Nat} {envA envR : Env} {m m' : Bytes}
    {evsA evsR : List Event} {s : HandshakeInitSentState}
    -- The initiation
    (hinit : hA.format_initiation v dst_len envA = (.ok m, hA', evsA))
    (hstate : hA'.state = .InitSent s)
    -- The responder's call
    {init : HandshakeInit} {ek : Option Bytes} (hek : v'.Carries MLKEM768_PK_SIZE ek)
    {sb : Session} {e : Bytes} {x : Seal}
    (hresp : hR.receive_initialization v' init ek dst_len' envR = .ok (.ok (m', sb), hR', evsR))
    (hx : .handshake .encrypted_nothing e x ∈ evsR) (hbinding : x.Binding C)
    -- The response, as the initiator gets it in a later state
    {resp : HandshakeResponse} {ct : Option Bytes} (hct : w.Carries MLKEM768_CT_SIZE ct)
    {is_previous : Bool}
    (hslot : response_slot hI.state hI.previous resp.receiver_idx = some (s, is_previous))
    (hnothing : resp.encrypted_nothing = x.ciphertext) (envI : Env) :
    (∃ e, hI.receive_response w resp ct envI = .ok (.error e, hI, [])) ∨
      ∃ kem kem' sa hI' evsI,
        hI.receive_response w resp ct envI = .ok (.ok sa, hI', evsI) ∧
        w = v ∧ kem.map Prod.fst = ct ∧
        (w.decapsulate C s.mlkem_decapsulation_key ct).run = .ok (.ok kem) ∧
        (v'.encapsulate C ek envR.mlkem_seed).run = .ok (.ok kem') ∧
        initiatorExchange C v hA.params hI.params envA.ephemeral envA.mlkem_seed
            (hA.stamper.stamp (envA.clock .stamp)) resp kem
          = responderExchange C v' hR.params init ek envR.ephemeral kem' ∧
        sa.receiver = sb.sender ∧ sa.sender = sb.receiver := by
  obtain ⟨_, _, _, _, _, _, _, hsent⟩ := Handshake.format_initiation_ok hS hinit
  have hs : s = initSent C v hA.params (inc_index hA.next_index) envA.ephemeral envA.mlkem_seed
      (hA.stamper.stamp (envA.clock .stamp)) (envA.clock .sent) :=
    HandshakeState.InitSent.inj (hstate.symm.trans hsent)
  have hdk : s.mlkem_decapsulation_key = (v.keygen C envA.mlkem_seed).map Prod.fst := by
    rw [hs]
    rfl
  obtain ⟨c, kem', r, hc, hkem', hr, rfl, hrecv, hsend⟩ :=
    Handshake.receive_initialization_sealed hresp hx
  obtain ⟨hsealed, hrk, hsk⟩ := respond_exchange hc envR.ephemeral kem' hr
  -- The type, then the ML-KEM ciphertext, then the seal can be wrong.
  by_cases htype : w = .classical ∧ s.mlkem_decapsulation_key.isSome
  · refine Or.inl ⟨.WrongPacketType, ?_⟩
    unfold Handshake.receive_response
    rw [hslot]
    exact if_pos htype
  rcases decapsulate_cases hct (hdk ▸ htype) with ⟨err, hfail⟩ | ⟨rfl, kem, hkem, hfst⟩
  · rw [← hdk] at hfail
    exact Or.inl (Handshake.receive_response_error hslot (Attempt.run_bind_of_error hfail))
  rw [← hdk] at hkem
  have hcases := complete_cases hI.params hC hS hs (TimeStamper.length_stamp ..)
    (hfst ▸ hct) (responderExchange_wellSized hS hR.params init hek envR.ephemeral
      (encapsulate_carries hS hkem')) (hsealed ▸ hbinding) (hsealed ▸ hnothing)
  rcases hcases with hfail | ⟨heq, hkeys⟩
  · refine Or.inl (Handshake.receive_response_error hslot (e := .InvalidAeadTag) ?_)
    unfold Handshake.response_keys
    rw [Attempt.run_bind_of_ok hkem]
    exact hfail
  · have hnone : w = .classical → s.mlkem_decapsulation_key = none := fun hw =>
      Option.not_isSome_iff_eq_none.mp fun hsome => htype ⟨hw, hsome⟩
    have hcall : hI.receive_response w resp ct envI = _ :=
      Handshake.receive_response_ok hslot hnone hkem hkeys rfl
    refine Or.inr ⟨kem, kem', _, _, _, hcall, rfl, hfst, hkem, hkem', heq, ?_, ?_⟩
    · rw [hsend, hsk]
      rfl
    · rw [hrecv, hrk]
      rfl

/-! ### An honest exchange with ideal encryption -/

/-- The same parameters, with opening by table. -/
def NoiseParams.sealing (p : NoiseParams C) (log : List Seal) : NoiseParams (sealing C log) :=
  { p with }

/-- The three seals of an honest PQ handshake. -/
def honestLog (C : Crypto) (p q : NoiseParams C) (e e' seed seed' ts : Bytes) : List Seal :=
  let i := initiate C .pq p e ts (some (C.mlkem_keygen seed).2)
  let r := respond C q i.hash i.chaining_key i.unencrypted_ephemeral e'
    (some (C.mlkem_encapsulate (C.mlkem_keygen seed).2 seed'))
  [i.encrypted_static, i.encrypted_timestamp, r.encrypted_nothing]

/-- Ciphertexts of different lengths tell seals apart. -/
theorem unique_of_lengths {log : List Seal} {lengths : List Nat}
    (hlen : log.map (fun x => x.ciphertext.length) = lengths) (hnodup : lengths.Nodup) :
    ∀ x ∈ log, ∀ y ∈ log, y.ciphertext = x.ciphertext → y = x := by
  intro x hx y hy hxy
  rw [← hlen] at hnodup
  exact List.inj_on_of_nodup_map hnodup hy hx (congrArg List.length hxy)

theorem honestLog_lengths (hC : C.Sized) {p q : NoiseParams C} {e e' seed seed' ts : Bytes}
    (hts : ts.length = TIMESTAMP_LEN) :
    (honestLog C p q e e' seed seed' ts).map (fun x => x.ciphertext.length) = [48, 28, 16] := by
  simp only [honestLog, List.map_cons, List.map_nil, initiate_static, initiate_timestamp,
    respond_nothing, aead_chacha20_seal, hC.seal_length, p.static_public_eq, hC.public_length,
    hts, TIMESTAMP_LEN, List.length_nil]

/-- One handshake sends an initiation, another one answers it, and the response is accepted, all
    with encryption by table. -/
structure HonestResponse (C : Crypto) (p q : NoiseParams C) (log : List Seal)
    (stamper : TimeStamper)
    (env env' : Env) where
  initiation : Bytes
  initiator : Handshake (sealing C log)
  slot : HandshakeInitSentState
  init : HandshakeInit
  ek : Option Bytes
  resp : HandshakeResponse
  ct : Option Bytes
  encrypted_static : Seal
  encrypted_timestamp : Seal
  encrypted_nothing : Seal
  sent : (Handshake.new (p.sealing log) 0 stamper).format_initiation .pq 2048 env =
    (.ok initiation, initiator, [.generated env.ephemeral,
      .handshake .encrypted_static env.ephemeral encrypted_static,
      .handshake .encrypted_timestamp env.ephemeral encrypted_timestamp])
  state : initiator.state = .InitSent slot
  static_binding : encrypted_static.Binding (sealing C log)
  static_plaintext : encrypted_static.plaintext = p.static_public
  init_static : init.encrypted_static = encrypted_static.ciphertext
  carries_ek : Variant.pq.Carries MLKEM768_PK_SIZE ek
  answered : ∃ m session h' evs,
    (Handshake.new (q.sealing log) 0 stamper).receive_initialization .pq init ek 2048 env' =
      .ok (.ok (m, session), h', evs) ∧
    .handshake .encrypted_nothing env'.ephemeral encrypted_nothing ∈ evs
  nothing_binding : encrypted_nothing.Binding (sealing C log)
  resp_nothing : resp.encrypted_nothing = encrypted_nothing.ciphertext
  carries_ct : Variant.pq.Carries MLKEM768_CT_SIZE ct
  awaited : response_slot initiator.state initiator.previous resp.receiver_idx = some (slot, false)
  accepted : ∃ session h' evs,
    initiator.receive_response .pq resp ct env = .ok (.ok session, h', evs)

/-- With encryption by table an honest PQ handshake meets all assumptions, and the response
    is accepted. -/
theorem honest_response (hC : C.KeyAgreement) {p q : NoiseParams C} (hpair : Paired p q)
    (env env' : Env) (stamper : TimeStamper) {stamp : Tai64N}
    (hstamp : Tai64N.parse (stamper.stamp (env.clock .stamp)) = .ok stamp)
    (hafter : stamp.after .zero = true) {log : List Seal}
    (hlog : log = honestLog C p q env.ephemeral env'.ephemeral env.mlkem_seed env'.mlkem_seed
      (stamper.stamp (env.clock .stamp))) :
    Nonempty (HonestResponse C p q log stamper env env') := by
  have hD : (sealing C log).KeyAgreement := sealing_keyAgreement hC
  have hpair' : Paired (p.sealing log) (q.sealing log) := ⟨hpair.peer, hpair.peer_symm, hpair.psk⟩
  have hts : (stamper.stamp (env.clock .stamp)).length = TIMESTAMP_LEN :=
    TimeStamper.length_stamp ..
  have hunique : ∀ x ∈ log, ∀ y ∈ log, y.ciphertext = x.ciphertext → y = x := by
    rw [hlog]
    exact unique_of_lengths (honestLog_lengths hC.toSized hts) (by decide)
  obtain ⟨kem, hencaps, hdecaps, hct⟩ : ∃ kem, _ :=
    kem_agrees (v := .pq) hD env.mlkem_seed env'.mlkem_seed
  have hkem : kem = some (C.mlkem_encapsulate (C.mlkem_keygen env.mlkem_seed).2
      env'.mlkem_seed) := by
    have hlen : ((sealing C log).mlkem_keygen env.mlkem_seed).2.length = MLKEM768_PK_SIZE :=
      hD.ek_length _
    simp only [Variant.encapsulate, Variant.keygen, Option.map_some, hlen, hD.ek_valid] at hencaps
    cases hencaps
    rfl
  subst hkem
  obtain ⟨m, h', evs, hinit⟩ : ∃ m h' evs,
      (Handshake.new (p.sealing log) 0 stamper).format_initiation .pq 2048 env
        = (.ok m, h', evs) := ⟨_, _, _, rfl⟩
  obtain ⟨_, _, _, _, _, hparams, _, hstate⟩ := Handshake.format_initiation_ok hD.toSized hinit
  -- The seals the two sides make are those of the table.
  let ek : Option Bytes := some (C.mlkem_keygen env.mlkem_seed).2
  let i := initiate (sealing C log) .pq (p.sealing log) env.ephemeral
    (stamper.stamp (env.clock .stamp)) ek
  let r := respond (sealing C log) (q.sealing log) i.hash i.chaining_key i.unencrypted_ephemeral
    env'.ephemeral (some (C.mlkem_encapsulate (C.mlkem_keygen env.mlkem_seed).2 env'.mlkem_seed))
  have hseals : log = [i.encrypted_static, i.encrypted_timestamp, r.encrypted_nothing] := hlog
  have hstatic : i.encrypted_static ∈ log := by rw [hseals]; simp
  have htimestamp : i.encrypted_timestamp ∈ log := by rw [hseals]; simp
  have hnothing : r.encrypted_nothing ∈ log := by rw [hseals]; simp
  let init := HandshakeInit.sent hD.toSized .pq (p.sealing log) (inc_index 0) env.ephemeral
    (stamper.stamp (env.clock .stamp)) hts ek
  have hc : (consume (sealing C log) .pq (q.sealing log) .zero init ek).run
      = .ok (.ok ⟨stamp, i.chaining_key, i.hash⟩) :=
    consume_initiate hD hpair' rfl rfl rfl (sealing_opens hstatic (hunique _ hstatic))
      (sealing_opens htimestamp (hunique _ htimestamp)) hts hstamp hafter
  have hanswered : ∃ m session h' evs,
      (Handshake.new (q.sealing log) 0 stamper).receive_initialization .pq init ek 2048 env' =
        .ok (.ok (m, session), h', evs) ∧
      .handshake .encrypted_nothing env'.ephemeral r.encrypted_nothing ∈ evs := by
    obtain ⟨_, _, _, _, _, hcall⟩ := Handshake.receive_initialization_ok
      (h := Handshake.new (q.sealing log) 0 stamper) hD.toSized hc hencaps
      (by decide : Variant.pq.resp_size ≤ 2048) (rfl : r = _) rfl
    exact ⟨_, _, _, _, hcall, List.mem_cons_of_mem _ List.mem_cons_self⟩
  -- The response as sent, to the index of the initiation.
  let resp := HandshakeResponse.sent hD.toSized (q.sealing log) (inc_index 0) (inc_index 0) i.hash
    i.chaining_key i.unencrypted_ephemeral env'.ephemeral
    (some (C.mlkem_encapsulate (C.mlkem_keygen env.mlkem_seed).2 env'.mlkem_seed))
  obtain ⟨s, hs, hstate⟩ : ∃ s, initSent (sealing C log) .pq (p.sealing log) (inc_index 0)
      env.ephemeral env.mlkem_seed (stamper.stamp (env.clock .stamp)) (env.clock .sent) = s ∧
      h'.state = .InitSent s := ⟨_, rfl, hstate⟩
  have hkeys : (complete (sealing C log) h'.params s resp
      (some (C.mlkem_encapsulate (C.mlkem_keygen env.mlkem_seed).2 env'.mlkem_seed))).run
        = .ok (.ok (r.sending_key, r.receiving_key)) := by
    rw [hparams, ← hs]
    exact complete_respond hD hpair' rfl rfl rfl (sealing_opens hnothing (hunique _ hnothing))
  have hslot := Handshake.response_slot_state hstate (by rw [← hs]; rfl : resp.receiver_idx = _)
  have hcall : h'.receive_response .pq resp _ env = _ :=
    Handshake.receive_response_ok hslot (fun h => by cases h)
      (by rw [← hs]; exact hdecaps) hkeys rfl
  have hevs : evs = [.generated env.ephemeral, .handshake .encrypted_static env.ephemeral
      i.encrypted_static, .handshake .encrypted_timestamp env.ephemeral i.encrypted_timestamp] := by
    rcases Handshake.format_initiation_cases hinit with ⟨_, herror, _⟩ |
      ⟨_, _, _, _, _, _, rfl, hevs⟩
    · cases herror
    · exact hevs
  exact ⟨{
    initiation := m
    initiator := h'
    slot := s
    init := init
    ek := ek
    resp := resp
    ct := _
    encrypted_static := i.encrypted_static
    encrypted_timestamp := i.encrypted_timestamp
    encrypted_nothing := r.encrypted_nothing
    sent := hevs ▸ hinit
    state := hstate
    static_binding := sealing_binding (hunique _ hstatic)
    static_plaintext := rfl
    init_static := rfl
    carries_ek := ⟨_, rfl, hC.ek_length _⟩
    answered := hanswered
    nothing_binding := sealing_binding (hunique _ hnothing)
    resp_nothing := rfl
    carries_ct := hct
    awaited := hslot
    accepted := ⟨_, _, _, hcall⟩ }⟩

/-- Nothing in the surroundings but the randomness. -/
def quietEnv (ephemeral seed : Bytes) : Env where
  clock := fun _ => 0
  ephemeral := ephemeral
  mlkem_seed := seed
  nonce_key := []
  secret_key := []

/-- An honest PQ handshake: the response is accepted and both exchanges are the same. -/
theorem Handshake.response_agreement_honest :
    ∃ (C : Crypto) (h h' : Handshake C) (p q : NoiseParams C) (init : HandshakeInit)
      (resp : HandshakeResponse) (ek ct : Option Bytes) (kem : Option (Bytes × Bytes))
      (ts : Bytes) (session : Session) (evs : List Event),
      C.Ideal ∧ h.receive_response .pq resp ct (quietEnv [3] [5]) = .ok (.ok session, h', evs) ∧
      initiatorExchange C .pq p h.params [3] [5] ts resp kem
        = responderExchange C .pq q init ek [4] kem := by
  let p := NoiseParams.new symbolic [1] (fit 32 [2]) none (length_fit 32 [2])
  let q := NoiseParams.new symbolic [2] (fit 32 [1]) none (length_fit 32 [1])
  let stamper : TimeStamper := ⟨0, 0⟩
  have hpair : Paired p q := ⟨rfl, rfl, rfl⟩
  obtain ⟨x⟩ := honest_response symbolic_correct.toKeyAgreement hpair (quietEnv [3] [5])
    (quietEnv [4] [6]) stamper rfl (by decide) rfl
  obtain ⟨m', sb, hR', evs', hresp, hx⟩ := x.answered
  obtain ⟨sa, hI', evsI, hcall⟩ := x.accepted
  have hC : ∀ log, (sealing symbolic log).Ideal := fun _ => sealing_ideal symbolic_ideal
  have hS : ∀ log, (sealing symbolic log).Sized := fun _ =>
    (sealing_keyAgreement symbolic_correct.toKeyAgreement).toSized
  rcases Handshake.response_agreement (hC _) (hS _) x.sent x.state x.carries_ek hresp hx
    x.nothing_binding x.carries_ct x.awaited x.resp_nothing (quietEnv [3] [5]) with
    ⟨err, hreject⟩ | ⟨kem, kem', _, _, _, _, _, _, _, _, heq, _, _⟩
  · rw [hreject] at hcall
    cases hcall
  · obtain rfl : kem = kem' := congrArg Exchange.kem heq
    exact ⟨_, x.initiator, hI', _, _, x.init, x.resp, x.ek, x.ct, kem, _, sa, evsI, hC _, hcall,
      heq⟩

end PqBoringtun
