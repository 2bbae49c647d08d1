import PqBoringtun.Framework.Run
import PqBoringtun.Noise.ReplayWindow
import PqBoringtun.Noise.Symbolic

/-! # Concurrent receives

    `receive_packet_data` takes the session by `&self`: several calls can run
    at the same time.  The mutex around the validator makes the quick check
    and the mark atomic, and nothing else.  A call is therefore three steps,
    and the steps of different calls interleave in any way.

    * Section 1: the steps of one call; one after the other they are
      `receive_packet_data`.
    * Section 2: any number of calls on one session.
    * Section 3: the calls that returned ok, in the order of their marks, are
      a sequential execution that leads to the same session.
-/

namespace PqBoringtun

variable {C : Crypto} {B : Build}

/-! ## Section 1: One call -/

/-- How far a call has got. -/
inductive ReceivePhase where
  | called
  /-- The quick check was passed. -/
  | checked
  /-- The packet was decrypted. -/
  | decrypted (ret : Bytes)
  | returned (result : Except WireGuardError Bytes)

namespace Session

/-- The next step of a call whose destination buffer is large enough. -/
def receive_step (C : Crypto) (B : Build) (packet : PacketData) (s : Session) :
    ReceivePhase → Outcome (ReceivePhase × Session)
  | .called =>
    if packet.receiver_idx ≠ s.receiving_index then .ok (.returned (.error .WrongIndex), s)
    else do
      match ← s.receiving_counter_quick_check B packet.counter with
      | .error e => return (.returned (.error e), s)
      | .ok () => return (.checked, s)
  | .checked =>
    -- No lock is held here
    match C.chacha_open s.receiver (nonce_of_counter packet.counter) []
        packet.encrypted_encapsulated_packet with
    | none => .ok (.returned (.error .InvalidAeadTag), s)
    | some ret => .ok (.decrypted ret, s)
  | .decrypted ret => do
    match ← s.receiving_counter_mark B packet.counter with
    | (.ok (), s) => return (.returned (.ok ret), s)
    | (.error e, s) => return (.returned (.error e), s)
  | .returned result => .ok (.returned result, s)

/-- All steps of a call, with nothing in between. -/
def receive_steps (C : Crypto) (B : Build) (packet : PacketData) (s : Session) :
    Outcome (ReceivePhase × Session) := do
  let (phase, s) ← s.receive_step C B packet .called
  let (phase, s) ← s.receive_step C B packet phase
  s.receive_step C B packet phase

/-- **The three steps in a row are `receive_packet_data`.** -/
theorem receive_steps_eq (packet : PacketData) (s : Session) {dst_len : Nat}
    (hdst : packet.encrypted_encapsulated_packet.length ≤ dst_len) :
    s.receive_steps C B packet = (s.receive_packet_data C B packet dst_len >>= fun r =>
      pure (.returned r.1, r.2.1)) := by
  unfold receive_steps receive_packet_data
  rw [if_neg (Nat.not_lt.mpr hdst)]
  by_cases hidx : packet.receiver_idx = s.receiving_index
  · rw [if_neg (not_not.mpr hidx)]
    dsimp only [receive_step]
    rw [if_neg (not_not.mpr hidx)]
    cases hcheck : s.receiving_counter_quick_check B packet.counter with
    | panic msg => rfl
    | ok check =>
      cases check with
      | error e => rfl
      | ok u =>
        cases hopen : C.chacha_open s.receiver (nonce_of_counter packet.counter) []
            packet.encrypted_encapsulated_packet with
        | none => simp [hopen]
        | some ret =>
          cases hmark : s.receiving_counter_mark B packet.counter with
          | panic msg => simp [hopen, hmark]
          | ok marked =>
            rcases marked with ⟨_ | _, s'⟩ <;> simp [hopen, hmark]
  · rw [if_pos hidx]
    dsimp only [receive_step]
    rw [if_pos hidx]
    rfl

/-- How a step of an unfinished call returns. -/
inductive ReceiveSteps (C : Crypto) (B : Build) (packet : PacketData) (s : Session) :
    ReceivePhase → ReceivePhase → Session → Prop where
  | failed {phase : ReceivePhase} (e : WireGuardError) :
      ReceiveSteps C B packet s phase (.returned (.error e)) s
  | checked (hidx : packet.receiver_idx = s.receiving_index) :
      ReceiveSteps C B packet s .called .checked s
  | decrypted (ret : Bytes)
      (hopen : C.chacha_open s.receiver (nonce_of_counter packet.counter) []
        packet.encrypted_encapsulated_packet = some ret) :
      ReceiveSteps C B packet s .checked (.decrypted ret) s
  | marked (ret : Bytes) (v : ReceivingKeyCounterValidator)
      (hmark : s.receiving_key_counter.mark_did_receive B packet.counter = .ok (.ok (), v)) :
      ReceiveSteps C B packet s (.decrypted ret) (.returned (.ok ret)) (s.received v)

theorem receive_step_cases {packet : PacketData} {s s' : Session} {phase phase' : ReceivePhase}
    (hopen : ∀ r, phase ≠ .returned r)
    (h : s.receive_step C B packet phase = .ok (phase', s')) :
    s.ReceiveSteps C B packet phase phase' s' := by
  cases phase with
  | called =>
    dsimp only [receive_step] at h
    split at h
    · cases h
      exact .failed _
    rename_i hidx
    obtain ⟨check, _, h⟩ := Outcome.bind_eq_ok.mp h
    cases check with
    | error e =>
      cases h
      exact .failed e
    | ok u =>
      cases h
      exact .checked (not_not.mp hidx)
  | checked =>
    dsimp only [receive_step] at h
    split at h
    · cases h
      exact .failed _
    · rename_i ret hret
      cases h
      exact .decrypted ret hret
  | decrypted ret =>
    obtain ⟨⟨result, s₁⟩, hmark, h⟩ := Outcome.bind_eq_ok.mp h
    obtain ⟨⟨result', v⟩, hv, hmark⟩ := Outcome.bind_eq_ok.mp hmark
    cases result' with
    | error e =>
      cases hmark
      cases h
      -- A mark that fails writes the validator back as it was.
      have hsame := ReceivingKeyCounterValidator.mark_did_receive_error hv
      rw [hsame]
      exact .failed e
    | ok u =>
      cases hmark
      cases h
      exact .marked ret v hv
  | returned r => exact absurd rfl (hopen r)

end Session

/-! ## Section 2: Any number of calls -/

/-- The session and the calls on it. -/
structure Receivers (ι : Type) where
  session : Session
  phase : ι → ReceivePhase

section calls
open ReceivingKeyCounterValidator

variable {ι : Type} [DecidableEq ι] (packet : ι → PacketData) (dst_len : ι → Nat)

/-- The call `i` takes a step. -/
def Receivers.advance (σ : Receivers ι) (i : ι) (phase : ReceivePhase) (s : Session) :
    Receivers ι where
  session := s
  phase := Function.update σ.phase i phase

@[simp] theorem Receivers.advance_self (σ : Receivers ι) (i : ι) (phase : ReceivePhase)
    (s : Session) : (σ.advance i phase s).phase i = phase := Function.update_self ..

@[simp] theorem Receivers.advance_ne (σ : Receivers ι) {i j : ι} (h : j ≠ i)
    (phase : ReceivePhase) (s : Session) : (σ.advance i phase s).phase j = σ.phase j :=
  Function.update_of_ne h ..

/-- The calls `ι` interleave: a step is the next step of one that has not returned. -/
def receivers (C : Crypto) (B : Build) : System (Receivers ι) ι where
  step := fun σ i σ' => (∀ r, σ.phase i ≠ .returned r) ∧
    ∃ phase s, σ.session.receive_step C B (packet i) (σ.phase i) = .ok (phase, s) ∧
      σ' = σ.advance i phase s

/-- Successful calls of `receive_packet_data`, one after the other. -/
def sequential (C : Crypto) (B : Build) : System Session (ι × Bytes) where
  step := fun s l s' => ∃ evs,
    s.receive_packet_data C B (packet l.1) (dst_len l.1) = .ok (.ok l.2, s', evs)

/-! ## Section 3: The order of the marks -/

/-- A mark that succeeds would also have passed the quick check. -/
theorem Session.receive_packet_data_marked {packet : PacketData} {s : Session} {dst_len : Nat}
    {ret : Bytes} {v : ReceivingKeyCounterValidator} {R : Finset ℕ}
    (hdst : packet.encrypted_encapsulated_packet.length ≤ dst_len)
    (htracks : s.receiving_key_counter.Tracks R) (hbounded : Bounded R)
    (hcounter : packet.counter < 2 ^ 64 - N_BITS)
    (hidx : packet.receiver_idx = s.receiving_index)
    (hopen : C.chacha_open s.receiver (nonce_of_counter packet.counter) []
      packet.encrypted_encapsulated_packet = some ret)
    (hmark : s.receiving_key_counter.mark_did_receive B packet.counter = .ok (.ok (), v)) :
    packet.counter ∉ R ∧ v.Tracks (insert packet.counter R) ∧
      ∃ evs, s.receive_packet_data C B packet dst_len = .ok (.ok ret, s.received v, evs) := by
  rcases mark_did_receive_spec B htracks hbounded hcounter with
    ⟨hacc, v', hmark', htracks'⟩ | ⟨_, e, herr⟩
  · obtain rfl : v = v' := by
      rw [hmark] at hmark'
      cases hmark'
      rfl
    have hcheck : s.receiving_counter_quick_check B packet.counter = .ok (.ok ()) := by
      rcases will_accept_spec B htracks hbounded hcounter with ⟨_, hok⟩ | ⟨hno, _⟩
      · exact hok
      · exact absurd hacc hno
    refine ⟨hacc.1, htracks', [.opened s.id packet.counter ret packet.encrypted_encapsulated_packet],
      ?_⟩
    unfold receive_packet_data receiving_counter_mark
    rw [if_neg (Nat.not_lt.mpr hdst), if_neg (not_not.mpr hidx), hcheck, Outcome.ok_bind]
    dsimp only
    rw [hopen, hmark]
    rfl
  · rw [hmark] at herr
    cases herr

/-- What an unfinished call has found out about its packet. -/
def ReceivePhase.Sound (C : Crypto) (s : Session) (packet : PacketData) : ReceivePhase → Prop
  | .checked => packet.receiver_idx = s.receiving_index
  | .decrypted ret => packet.receiver_idx = s.receiving_index ∧
    C.chacha_open s.receiver (nonce_of_counter packet.counter) []
      packet.encrypted_encapsulated_packet = some ret
  | _ => True

/-- The calls that returned ok are explained by `order`; `R` are the counters accepted. -/
structure Explained (C : Crypto) (B : Build) (s₀ : Session) (order : List (ι × Bytes))
    (R : Finset ℕ) (σ : Receivers ι) : Prop where
  run : Run (sequential packet dst_len C B) s₀ order σ.session
  returned : ∀ i ret, (i, ret) ∈ order ↔ σ.phase i = .returned (.ok ret)
  tracks : σ.session.receiving_key_counter.Tracks R
  bounded : Bounded R
  accepted : ∀ l ∈ order, (packet l.1).counter ∈ R
  distinct : (order.map fun l => (packet l.1).counter).Nodup
  index : σ.session.receiving_index = s₀.receiving_index
  receiver : σ.session.receiver = s₀.receiver
  sound : ∀ i, (σ.phase i).Sound C s₀ (packet i)

variable {packet dst_len} {s₀ : Session} {order : List (ι × Bytes)} {R : Finset ℕ}
  {σ σ' : Receivers ι} {i : ι}

/-- The step of one call keeps what the others have found out. -/
theorem Explained.sound_advance (h : Explained packet dst_len C B s₀ order R σ)
    {phase : ReceivePhase} (s : Session) (hphase : phase.Sound C s₀ (packet i)) (j : ι) :
    ((σ.advance i phase s).phase j).Sound C s₀ (packet j) := by
  by_cases hj : j = i
  · subst hj
    rw [Receivers.advance_self]
    exact hphase
  · rw [Receivers.advance_ne σ hj]
    exact h.sound j

/-- A step that does not return ok leaves the session alone. -/
theorem Explained.quiet (h : Explained packet dst_len C B s₀ order R σ) {phase : ReceivePhase}
    (hopen : ∀ r, σ.phase i ≠ .returned r) (hphase : ∀ ret, phase ≠ .returned (.ok ret))
    (hsound : phase.Sound C s₀ (packet i)) :
    Explained packet dst_len C B s₀ order R (σ.advance i phase σ.session) := by
  refine ⟨h.run, ?_, h.tracks, h.bounded, h.accepted, h.distinct, h.index, h.receiver,
    h.sound_advance _ hsound⟩
  intro j ret
  rw [h.returned]
  by_cases hj : j = i
  · subst hj
    rw [Receivers.advance_self]
    exact iff_of_false (hopen _) (hphase ret)
  · rw [Receivers.advance_ne σ hj]

/-- A call whose packet does not decrypt leaves the session alone. -/
theorem Explained.undecrypted (h : Explained packet dst_len C B s₀ order R σ)
    (hstep : (receivers packet C B).step σ i σ')
    (hfails : C.chacha_open s₀.receiver (nonce_of_counter (packet i).counter) []
      (packet i).encrypted_encapsulated_packet = none) : σ'.session = σ.session := by
  obtain ⟨hopen, phase, s, hstep, rfl⟩ := hstep
  generalize hphase : σ.phase i = ph at hstep
  have hph : ∀ r, ph ≠ .returned r := fun r => hphase ▸ hopen r
  cases Session.receive_step_cases hph hstep with
  | failed e => rfl
  | checked hidx => rfl
  | decrypted ret hret => rfl
  | marked ret v hmark =>
    have hsound := h.sound i
    rw [hphase] at hsound
    rw [hsound.2] at hfails
    cases hfails

section step
variable (hdst : ∀ i, (packet i).encrypted_encapsulated_packet.length ≤ dst_len i)
  (hcounter : ∀ i, (packet i).counter < 2 ^ 64 - N_BITS)
include hdst hcounter

/-- A mark that succeeds is the next call of the order. -/
theorem Explained.marked (h : Explained packet dst_len C B s₀ order R σ) {ret : Bytes}
    {v : ReceivingKeyCounterValidator} (hphase : σ.phase i = .decrypted ret)
    (hmark : σ.session.receiving_key_counter.mark_did_receive B (packet i).counter
      = .ok (.ok (), v)) :
    Explained packet dst_len C B s₀ (order ++ [(i, ret)]) (insert (packet i).counter R)
      (σ.advance i (.returned (.ok ret)) (σ.session.received v)) := by
  have hsound := h.sound i
  rw [hphase] at hsound
  obtain ⟨hidx, hopen⟩ := hsound
  rw [← h.index] at hidx
  rw [← h.receiver] at hopen
  obtain ⟨hnew, htracks, evs, hcall⟩ := Session.receive_packet_data_marked (hdst i) h.tracks
    h.bounded (hcounter i) hidx hopen hmark
  refine ⟨.snoc h.run ⟨evs, hcall⟩, ?_, ⟨htracks.next_eq, htracks.bits⟩, ?_, ?_, ?_, h.index,
    h.receiver, h.sound_advance _ trivial⟩
  · intro j ret'
    rw [List.mem_append, List.mem_singleton, h.returned, Prod.mk.injEq]
    by_cases hj : j = i
    · subst hj
      rw [Receivers.advance_self, hphase]
      constructor
      · rintro (hj | ⟨_, rfl⟩)
        · cases hj
        · rfl
      · intro hj
        cases hj
        exact Or.inr ⟨rfl, rfl⟩
    · rw [Receivers.advance_ne σ hj]
      exact ⟨fun hor => hor.resolve_right fun heq => hj heq.1, Or.inl⟩
  · intro c hc
    rcases Finset.mem_insert.mp hc with rfl | hc
    · exact hcounter i
    · exact h.bounded c hc
  · intro l hl
    rcases List.mem_append.mp hl with hl | hl
    · exact Finset.mem_insert_of_mem (h.accepted l hl)
    · obtain rfl := List.mem_singleton.mp hl
      exact Finset.mem_insert_self ..
  · rw [List.map_append, List.nodup_append]
    refine ⟨h.distinct, List.nodup_singleton _, ?_⟩
    intro c hc d hd heq
    obtain ⟨l, hl, rfl⟩ := List.mem_map.mp hc
    obtain rfl := List.mem_singleton.mp hd
    have heq : (packet l.1).counter = (packet i).counter := heq
    exact hnew (heq ▸ h.accepted l hl)

/-- **One step of one call.** -/
theorem Explained.step (h : Explained packet dst_len C B s₀ order R σ)
    (hstep : (receivers packet C B).step σ i σ') :
    ∃ order' R', Explained packet dst_len C B s₀ order' R' σ' := by
  obtain ⟨hopen, phase, s, hstep, rfl⟩ := hstep
  generalize hphase : σ.phase i = ph at hstep
  have hph : ∀ r, ph ≠ .returned r := fun r => hphase ▸ hopen r
  cases Session.receive_step_cases hph hstep with
  | failed e => exact ⟨order, R, h.quiet hopen nofun trivial⟩
  | checked hidx => exact ⟨order, R, h.quiet hopen nofun (hidx.trans h.index)⟩
  | decrypted ret hret =>
    have hsound := h.sound i
    rw [hphase] at hsound
    exact ⟨order, R, h.quiet hopen nofun ⟨hsound, h.receiver ▸ hret⟩⟩
  | marked ret v hmark => exact ⟨_, _, h.marked hdst hcounter hphase hmark⟩

omit hdst in
/-- An unfinished call can always go on. -/
theorem Explained.progress (h : Explained packet dst_len C B s₀ order R σ)
    (hopen : ∀ r, σ.phase i ≠ .returned r) : ∃ σ', (receivers packet C B).step σ i σ' := by
  suffices hstep : ∃ phase s,
      σ.session.receive_step C B (packet i) (σ.phase i) = .ok (phase, s) by
    obtain ⟨phase, s, hstep⟩ := hstep
    exact ⟨_, hopen, phase, s, hstep, rfl⟩
  cases hphase : σ.phase i with
  | called =>
    dsimp only [Session.receive_step]
    split
    · exact ⟨_, _, rfl⟩
    · rcases will_accept_spec B h.tracks h.bounded (hcounter i) with ⟨_, hok⟩ | ⟨_, e, herr⟩
      · rw [Session.receiving_counter_quick_check, hok]
        exact ⟨_, _, rfl⟩
      · rw [Session.receiving_counter_quick_check, herr]
        exact ⟨_, _, rfl⟩
  | checked =>
    dsimp only [Session.receive_step]
    split <;> exact ⟨_, _, rfl⟩
  | decrypted ret =>
    dsimp only [Session.receive_step, Session.receiving_counter_mark]
    rcases mark_did_receive_spec B h.tracks h.bounded (hcounter i) with
      ⟨_, v, hok, _⟩ | ⟨_, e, herr⟩
    · rw [hok]
      exact ⟨_, _, rfl⟩
    · rw [herr]
      exact ⟨_, _, rfl⟩
  | returned r => exact absurd hphase (hopen r)

end step

/-- **Concurrent receives.**  Any number of calls on a session whose validator
    tracks a set of counters, with their steps interleaved in any way: at most
    one call per counter returns ok; a call whose packet does not decrypt
    never changes the session; the session is that of a sequential execution
    of exactly the calls that returned ok, with the same results; and no call
    gets stuck. -/
theorem concurrent_receives (packet : ι → PacketData) (dst_len : ι → Nat)
    (hdst : ∀ i, (packet i).encrypted_encapsulated_packet.length ≤ dst_len i)
    (hcounter : ∀ i, (packet i).counter < 2 ^ 64 - 1024) {R₀ : Finset ℕ}
    (htracks : s₀.receiving_key_counter.Tracks R₀) (hbounded : Bounded R₀) {tr : List ι}
    (hrun : Run (receivers packet C B) ⟨s₀, fun _ => .called⟩ tr σ) :
    (∀ i j ret ret', σ.phase i = .returned (.ok ret) → σ.phase j = .returned (.ok ret') →
      (packet i).counter = (packet j).counter → i = j) ∧
    (∀ i σ', (receivers packet C B).step σ i σ' →
      C.chacha_open s₀.receiver (nonce_of_counter (packet i).counter) []
        (packet i).encrypted_encapsulated_packet = none → σ'.session = σ.session) ∧
    (∃ order, Run (sequential packet dst_len C B) s₀ order σ.session ∧
      (order.map Prod.fst).Nodup ∧
      ∀ i ret, (i, ret) ∈ order ↔ σ.phase i = .returned (.ok ret)) ∧
    (∀ i, (∀ r, σ.phase i ≠ .returned r) → ∃ σ', (receivers packet C B).step σ i σ') := by
  obtain ⟨order, R, h⟩ : ∃ order R, Explained packet dst_len C B s₀ order R σ := by
    refine hrun.invariant (I := fun _ σ => ∃ order R, Explained packet dst_len C B s₀ order R σ)
      ?_ ?_
    · exact ⟨[], R₀, .nil, by simp, htracks, hbounded, by simp, List.nodup_nil, rfl, rfl,
        fun _ => trivial⟩
    · rintro tr σ i σ' ⟨order, R, h⟩ hstep
      exact h.step hdst hcounter hstep
  have hinj : ∀ l ∈ order, ∀ l' ∈ order,
      (packet l.1).counter = (packet l'.1).counter → l = l' :=
    fun l hl l' hl' heq => List.inj_on_of_nodup_map h.distinct hl hl' heq
  refine ⟨?_, ?_, ⟨order, h.run, ?_, h.returned⟩, ?_⟩
  · intro i j ret ret' hi hj heq
    have := hinj (i, ret) ((h.returned i ret).mpr hi) (j, ret') ((h.returned j ret').mpr hj) heq
    exact congrArg Prod.fst this
  · intro i σ' hstep hfails
    exact h.undecrypted hstep hfails
  · refine List.Nodup.of_map (fun i => (packet i).counter) ?_
    rw [List.map_map]
    exact h.distinct
  · intro i hopen
    exact h.progress hcounter hopen

end calls

/-! ### One packet in two calls -/

/-- The two calls get the same packet. -/
def samePacket (_ : Bool) : PacketData := ⟨1, 0, List.replicate 16 0⟩

section twice
set_option maxRecDepth 4096

/-- Both calls decrypt the packet before one of them marks it; the other one cannot return ok. -/
theorem concurrent_receives_twice :
    ∃ σ : Receivers Bool, Run (receivers samePacket symbolic (symbolicBuild true))
        ⟨Session.new 1 2 [] [], fun _ => .called⟩ [false, true, false, true, false] σ ∧
      σ.phase false = .returned (.ok []) ∧ σ.phase true = .decrypted [] ∧
      ∀ σ' ret, (receivers samePacket symbolic (symbolicBuild true)).step σ true σ' →
        σ'.phase true ≠ .returned (.ok ret) := by
  let sys := receivers samePacket symbolic (symbolicBuild true)
  let s := Session.new 1 2 [] []
  let σ₀ : Receivers Bool := ⟨s, fun _ => .called⟩
  let σ₁ := σ₀.advance false .checked s
  let σ₂ := σ₁.advance true .checked s
  let σ₃ := σ₂.advance false (.decrypted []) s
  let σ₄ := σ₃.advance true (.decrypted []) s
  have h₁ : sys.step σ₀ false σ₁ := ⟨nofun, _, _, rfl, rfl⟩
  have h₂ : sys.step σ₁ true σ₂ := ⟨nofun, _, _, rfl, rfl⟩
  have h₃ : sys.step σ₂ false σ₃ := ⟨nofun, _, _, rfl, rfl⟩
  have h₄ : sys.step σ₃ true σ₄ := ⟨nofun, _, _, rfl, rfl⟩
  obtain ⟨s', hmark⟩ : ∃ s', s.receive_step symbolic (symbolicBuild true) (samePacket false)
      (.decrypted []) = .ok (.returned (.ok []), s') := ⟨_, rfl⟩
  let σ₅ := σ₄.advance false (.returned (.ok [])) s'
  have h₅ : sys.step σ₄ false σ₅ := ⟨nofun, _, _, hmark, rfl⟩
  have hfirst : σ₅.phase false = .returned (.ok []) := rfl
  have hsecond : σ₅.phase true = .decrypted [] := rfl
  have hrun : Run sys σ₀ [false, true, false, true, false] σ₅ :=
    .snoc (.snoc (.snoc (.snoc (.snoc .nil h₁) h₂) h₃) h₄) h₅
  refine ⟨σ₅, hrun, hfirst, hsecond, ?_⟩
  intro σ' ret hstep hret
  have hfirst' : σ'.phase false = .returned (.ok []) := by
    obtain ⟨_, phase, s, _, rfl⟩ := hstep
    rw [Receivers.advance_ne σ₅ (by decide), hfirst]
  have honce := (concurrent_receives samePacket (fun _ => 16) (fun _ => Nat.le_refl 16)
    (by decide) ReceivingKeyCounterValidator.tracks_default
    (fun c hc => absurd hc (Finset.notMem_empty c)) (.snoc hrun hstep)).1
  cases honce false true [] ret hfirst' hret rfl

end twice

end PqBoringtun
