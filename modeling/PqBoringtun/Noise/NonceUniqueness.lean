import Mathlib.Data.List.Nodup
import PqBoringtun.Noise.Keys
import PqBoringtun.Noise.Symbolic

/-! # No nonce is used twice

    Over every run of a tunnel, no two ChaCha20-Poly1305 seals use the same
    key and nonce, no own ephemeral yields two sessions, and no sending key
    belongs to two sessions.

    `KeyInv` ties the log of events to the two handshake slots and the ring:
    every key in the log comes from an ephemeral of the log, the ephemerals
    in the slots have not yielded a session, and the counter of a session in
    the ring is the number of packets sealed on it.  It is preserved event
    by event; each move of the machine is a few such extensions.
-/

namespace PqBoringtun

/-! ## Section 1: Reading a log -/

namespace Event

/-- The ephemeral generated. -/
def generated? : Event → Option Bytes
  | .generated e => some e
  | _ => none

/-- Role, session and own ephemeral of a session created. -/
def established? : Event → Option (Bool × SessionId × Bytes)
  | .established b id e => some (b, id, e)
  | _ => none

def seal? : Event → Option Seal
  | .handshake _ _ s => some s
  | .data _ _ s => some s
  | _ => none

/-- Is this a packet sealed on session `id`? -/
def isData (id : SessionId) : Event → Bool
  | .data id' _ _ => id' = id
  | _ => false

end Event

def ephemerals (log : List Event) : List Bytes := log.filterMap Event.generated?

def establishments (log : List Event) : List (Bool × SessionId × Bytes) :=
  log.filterMap Event.established?

/-- The ChaCha20-Poly1305 seals, of handshake fields and of data packets. -/
def seals (log : List Event) : List Seal := log.filterMap Event.seal?

/-- How many packets were sealed on a session. -/
def dataCount (id : SessionId) (log : List Event) : Nat := log.countP (Event.isData id)

section log
variable {log log' : List Event} {e : Bytes} {id : SessionId} {b : Bool} {s : Seal} {n : Nat}

theorem mem_ephemerals : e ∈ ephemerals log ↔ .generated e ∈ log := by
  simp only [ephemerals, List.mem_filterMap]
  constructor
  · rintro ⟨ev, hev, h⟩
    cases ev <;> simp_all [Event.generated?]
  · intro h
    exact ⟨_, h, rfl⟩

theorem mem_establishments : (b, id, e) ∈ establishments log ↔ .established b id e ∈ log := by
  simp only [establishments, List.mem_filterMap]
  constructor
  · rintro ⟨ev, hev, h⟩
    cases ev <;> simp_all [Event.established?]
  · intro h
    exact ⟨_, h, rfl⟩

theorem mem_seals : s ∈ seals log ↔
    (∃ f e, .handshake f e s ∈ log) ∨ ∃ id n, .data id n s ∈ log := by
  simp only [seals, List.mem_filterMap]
  constructor
  · rintro ⟨ev, hev, h⟩
    cases ev with
    | handshake f e s' =>
      cases h
      exact Or.inl ⟨f, e, hev⟩
    | data id n s' =>
      cases h
      exact Or.inr ⟨id, n, hev⟩
    | _ => cases h
  · rintro (⟨f, e, h⟩ | ⟨id, n, h⟩)
    · exact ⟨_, h, rfl⟩
    · exact ⟨_, h, rfl⟩

@[simp] theorem ephemerals_append : ephemerals (log ++ log') = ephemerals log ++
    ephemerals log' := by
  simp [ephemerals]

@[simp] theorem establishments_append :
    establishments (log ++ log') = establishments log ++ establishments log' := by
  simp [establishments]

@[simp] theorem seals_append : seals (log ++ log') = seals log ++ seals log' := by
  simp [seals]

@[simp] theorem dataCount_append :
    dataCount id (log ++ log') = dataCount id log + dataCount id log' := by
  simp [dataCount]

end log

/-- What the run relies on: the public keys of the generated ephemerals are
    pairwise distinct, and no session's counter wraps. -/
structure FreshLog (C : Crypto) (B : Build) (log : List Event) : Prop where
  distinct : ((ephemerals log).map C.x25519_public).Nodup
  below : ∀ id, dataCount id log < 2 ^ B.usize_bits

variable {C : Crypto} {B : Build} {P : NoiseParams C → Prop} {log log' : List Event}
  {w w' : View C}

theorem FreshLog.of_append (h : FreshLog C B (log ++ log')) : FreshLog C B log where
  distinct := by
    have := h.distinct
    rw [ephemerals_append, List.map_append] at this
    exact (List.nodup_append.mp this).1
  below := by
    intro id
    have := h.below id
    rw [dataCount_append] at this
    omega

theorem FreshLog.public_inj (h : FreshLog C B log) {e e' : Bytes} (he : e ∈ ephemerals log)
    (he' : e' ∈ ephemerals log) (heq : C.x25519_public e = C.x25519_public e') : e = e' :=
  List.inj_on_of_nodup_map h.distinct he he' heq

theorem FreshLog.not_mem {e : Bytes} (h : FreshLog C B (log ++ [Event.generated e])) :
    e ∉ ephemerals log := by
  intro hmem
  have := h.distinct
  rw [ephemerals_append, List.map_append] at this
  exact (List.nodup_append.mp this).2.2 _ (List.mem_map_of_mem hmem) _
    (List.mem_map_of_mem (List.mem_singleton.mpr rfl)) rfl

/-! ## Section 2: The log

    What the log alone says about keys, one lemma per kind of event. -/

/-- Every key of the log comes from an ephemeral of the log, no ephemeral
    yields two sessions and no seal repeats key and nonce. -/
structure LogInv (P : NoiseParams C → Prop) (log : List Event) : Prop where
  handshake : ∀ f e s, .handshake f e s ∈ log →
    e ∈ ephemerals log ∧ ∃ p, P p ∧ KeyFor C p (.field f) e s.key
  established : ∀ b id e, .established b id e ∈ log → e ∈ ephemerals log ∧
    ∃ p, P p ∧ KeyFor C p (.sending b) e id.sender ∧ KeyFor C p (.receiving b) e id.receiver
  data : ∀ id n s, .data id n s ∈ log →
    s.key = id.sender ∧ s.nonce = nonce_of_counter n ∧ n < dataCount id log ∧
      ∃ b e, .established b id e ∈ log
  once : ((establishments log).map fun x => x.2.2).Nodup
  seals : ((seals log).map fun s => (s.key, s.nonce)).Nodup

namespace LogInv

theorem nil : LogInv P ([] : List Event) := by
  constructor <;> simp [establishments, PqBoringtun.seals]

/-- Two sessions of one ephemeral are one session. -/
theorem established_unique (I : LogInv P log) {b b' : Bool} {id id' : SessionId} {e : Bytes}
    (h : .established b id e ∈ log) (h' : .established b' id' e ∈ log) : b = b' ∧ id = id' := by
  have heq := List.inj_on_of_nodup_map I.once (mem_establishments.mpr h)
    (mem_establishments.mpr h') rfl
  simp only [Prod.mk.injEq] at heq
  exact ⟨heq.1, heq.2.1⟩

/-- Two sessions with one sending key are one session. -/
theorem sender_inj (hC : C.Ideal) (hfresh : FreshLog C B log) (I : LogInv P log) {b b' : Bool}
    {id id' : SessionId} {e e' : Bytes} (h : .established b id e ∈ log)
    (h' : .established b' id' e' ∈ log) (hkey : id.sender = id'.sender) : id = id' := by
  obtain ⟨he, p, _, hk, _⟩ := I.established b id e h
  obtain ⟨he', p', _, hk', _⟩ := I.established b' id' e' h'
  rw [← hkey] at hk'
  obtain ⟨_, hpub⟩ := hk.unique hC hk' trivial trivial
  obtain rfl := hfresh.public_inj he he' hpub
  exact (I.established_unique h h').2

/-- The sending key of an ephemeral without a session belongs to no session. -/
theorem sender_ne (hC : C.Ideal) (hfresh : FreshLog C B log) (I : LogInv P log) {b b' : Bool}
    {id : SessionId} {e e' key : Bytes} {p : NoiseParams C} (he : e ∈ ephemerals log)
    (hk : KeyFor C p (.sending b) e key) (hunused : ∀ b id, .established b id e ∉ log)
    (h : .established b' id e' ∈ log) : id.sender ≠ key := by
  rintro rfl
  obtain ⟨he', p', _, hk', _⟩ := I.established b' id e' h
  obtain ⟨_, hpub⟩ := hk.unique hC hk' trivial trivial
  obtain rfl := hfresh.public_inj he he' hpub
  exact hunused b' id h

/-- A session of an ephemeral without a session has sealed nothing. -/
theorem dataCount_eq_zero (hC : C.Ideal) (hfresh : FreshLog C B log) (I : LogInv P log) {b : Bool}
    {id : SessionId} {e : Bytes} {p : NoiseParams C} (he : e ∈ ephemerals log)
    (hk : KeyFor C p (.sending b) e id.sender) (hunused : ∀ b id, .established b id e ∉ log) :
    dataCount id log = 0 := by
  refine List.countP_eq_zero.mpr fun ev hev hdata => ?_
  cases ev with
  | data id' n s =>
    obtain rfl : id' = id := by simpa [Event.isData] using hdata
    obtain ⟨_, _, _, b', e', hest⟩ := I.data id' n s hev
    exact I.sender_ne hC hfresh he hk hunused hest rfl
  | _ => simp [Event.isData] at hdata

/-- A handshake key whose field was not sealed before has sealed nothing. -/
theorem field_key_ne (hC : C.Ideal) (hfresh : FreshLog C B log) (I : LogInv P log)
    {f : HandshakeField} {e key : Bytes} {p : NoiseParams C} (he : e ∈ ephemerals log)
    (hk : KeyFor C p (.field f) e key) (hnew : ∀ s, .handshake f e s ∉ log) :
    ∀ s ∈ PqBoringtun.seals log, s.key ≠ key := by
  rintro s hs rfl
  rcases mem_seals.mp hs with ⟨f', e', h⟩ | ⟨id, n, h⟩
  · obtain ⟨he', p', _, hk'⟩ := I.handshake f' e' s h
    obtain ⟨hu, hpub⟩ := hk.unique hC hk' trivial trivial
    cases hu
    obtain rfl := hfresh.public_inj he he' hpub
    exact hnew s h
  · obtain ⟨hkey, _, _, b, e', hest⟩ := I.data id n s h
    obtain ⟨_, p', _, hk', _⟩ := I.established b id e' hest
    rw [hkey] at hk
    obtain ⟨hu, _⟩ := hk.unique hC hk' trivial trivial
    cases hu

/-- One more event: only what it adds has to be shown. -/
theorem snoc (I : LogInv P log) {ev : Event}
    (hhandshake : ∀ f e s, ev = .handshake f e s →
      e ∈ ephemerals log ∧ ∃ p, P p ∧ KeyFor C p (.field f) e s.key)
    (hestablished : ∀ b id e, ev = .established b id e → (e ∈ ephemerals log ∧
      ∃ p, P p ∧ KeyFor C p (.sending b) e id.sender ∧ KeyFor C p (.receiving b) e id.receiver) ∧
        ∀ b id, .established b id e ∉ log)
    (hdata : ∀ id n s, ev = .data id n s → s.key = id.sender ∧ s.nonce = nonce_of_counter n ∧
      n = dataCount id log ∧ ∃ b e, .established b id e ∈ log)
    (hseal : ∀ s, ev.seal? = some s → ∀ s' ∈ PqBoringtun.seals log,
      (s'.key, s'.nonce) ≠ (s.key, s.nonce)) : LogInv P (log ++ [ev]) where
  handshake := by
    intro f e s h
    rw [ephemerals_append]
    rcases List.mem_append.mp h with h | h
    · exact ⟨List.mem_append_left _ (I.handshake f e s h).1, (I.handshake f e s h).2⟩
    · obtain ⟨he, hk⟩ := hhandshake f e s (List.mem_singleton.mp h).symm
      exact ⟨List.mem_append_left _ he, hk⟩
  established := by
    intro b id e h
    rw [ephemerals_append]
    rcases List.mem_append.mp h with h | h
    · exact ⟨List.mem_append_left _ (I.established b id e h).1, (I.established b id e h).2⟩
    · obtain ⟨⟨he, hk⟩, _⟩ := hestablished b id e (List.mem_singleton.mp h).symm
      exact ⟨List.mem_append_left _ he, hk⟩
  data := by
    intro id n s h
    rw [dataCount_append]
    rcases List.mem_append.mp h with h | h
    · obtain ⟨hkey, hnonce, hn, b, e, hest⟩ := I.data id n s h
      exact ⟨hkey, hnonce, by omega, b, e, List.mem_append_left _ hest⟩
    · obtain rfl := List.mem_singleton.mp h
      obtain ⟨hkey, hnonce, hn, b, e, hest⟩ := hdata id n s rfl
      refine ⟨hkey, hnonce, ?_, b, e, List.mem_append_left _ hest⟩
      simp [dataCount, Event.isData] at hn ⊢
      omega
  once := by
    rw [establishments_append, List.map_append]
    refine List.nodup_append.mpr ⟨I.once, ?_, ?_⟩
    · cases ev <;> first | exact List.nodup_nil | exact List.nodup_singleton _
    · intro x hx y hy
      obtain ⟨⟨b, id, e⟩, hmem, rfl⟩ := List.mem_map.mp hx
      obtain ⟨⟨b', id', e'⟩, hmem', rfl⟩ := List.mem_map.mp hy
      rintro rfl
      have hev := (List.mem_singleton.mp (mem_establishments.mp hmem')).symm
      exact (hestablished b' id' _ hev).2 b id (mem_establishments.mp hmem)
  seals := by
    rw [seals_append, List.map_append]
    refine List.nodup_append.mpr ⟨I.seals, ?_, ?_⟩
    · cases ev <;> first | exact List.nodup_nil | exact List.nodup_singleton _
    · intro x hx y hy
      obtain ⟨s', hs', rfl⟩ := List.mem_map.mp hx
      obtain ⟨s, hs, rfl⟩ := List.mem_map.mp hy
      obtain ⟨ev', hev', hsome⟩ := List.mem_filterMap.mp hs
      obtain rfl := List.mem_singleton.mp hev'
      exact hseal s hsome s' hs'

/-- Events without keys. -/
theorem snoc_generated (I : LogInv P log) (e : Bytes) : LogInv P (log ++ [Event.generated e]) :=
  I.snoc nofun nofun nofun nofun

theorem snoc_opened (I : LogInv P log) (id : SessionId) (n : Nat) (p c : Bytes) :
    LogInv P (log ++ [Event.opened id n p c]) :=
  I.snoc nofun nofun nofun nofun

theorem snoc_handshake (hC : C.Ideal) (hfresh : FreshLog C B log) (I : LogInv P log)
    {f : HandshakeField} {e : Bytes} {s : Seal} {p : NoiseParams C} (he : e ∈ ephemerals log)
    (hp : P p) (hk : KeyFor C p (.field f) e s.key) (hnew : ∀ s, .handshake f e s ∉ log) :
    LogInv P (log ++ [Event.handshake f e s]) := by
  refine I.snoc ?_ nofun nofun ?_
  · intro f' e' s' h
    cases h
    exact ⟨he, p, hp, hk⟩
  · intro s' h s₀ hs₀ heq
    cases h
    exact I.field_key_ne hC hfresh he hk hnew s₀ hs₀ (congrArg Prod.fst heq)

theorem snoc_established (I : LogInv P log) {b : Bool} {id : SessionId} {e : Bytes}
    {p : NoiseParams C} (he : e ∈ ephemerals log) (hp : P p)
    (hsend : KeyFor C p (.sending b) e id.sender)
    (hreceive : KeyFor C p (.receiving b) e id.receiver)
    (hunused : ∀ b id, .established b id e ∉ log) :
    LogInv P (log ++ [Event.established b id e]) := by
  refine I.snoc nofun ?_ nofun nofun
  intro b' id' e' h
  cases h
  exact ⟨⟨he, p, hp, hsend, hreceive⟩, hunused⟩

/-- A packet sealed under the next counter of an established session. -/
theorem snoc_data (hC : C.Ideal) {id : SessionId} {s : Seal} {b : Bool} {e : Bytes}
    (I : LogInv P log) (hfresh : FreshLog C B (log ++ [Event.data id (dataCount id log) s]))
    (hest : .established b id e ∈ log) (hkey : s.key = id.sender)
    (hnonce : s.nonce = nonce_of_counter (dataCount id log)) :
    LogInv P (log ++ [Event.data id (dataCount id log) s]) := by
  refine I.snoc nofun nofun ?_ ?_
  · intro id' n s' h
    cases h
    exact ⟨hkey, hnonce, rfl, b, e, hest⟩
  · intro s' h s₀ hs₀ heq
    cases h
    obtain ⟨heqkey, heqnonce⟩ := Prod.mk.inj heq
    obtain ⟨he, p, _, hk, _⟩ := I.established b id e hest
    rcases mem_seals.mp hs₀ with ⟨f', e', h⟩ | ⟨id', n, h⟩
    · -- A handshake key is not a sending key.
      obtain ⟨_, p', _, hk'⟩ := I.handshake f' e' s₀ h
      rw [heqkey, hkey] at hk'
      obtain ⟨hu, _⟩ := hk.unique hC hk' trivial trivial
      cases hu
    · -- The same sending key is the same session, whose earlier counters are smaller.
      obtain ⟨hkey', hnonce', hn, b', e', hest'⟩ := I.data id' n s₀ h
      obtain rfl : id' = id := I.sender_inj hC hfresh.of_append hest' hest
        (by rw [← hkey', heqkey, hkey])
      have hbound := hfresh.of_append.below id'
      have h64 : 2 ^ B.usize_bits ≤ 2 ^ 64 := Nat.pow_le_pow_right (by decide) B.usize_bits_le
      rw [hnonce', hnonce] at heqnonce
      have := nonce_of_counter_injective (by omega) (by omega) heqnonce
      omega

end LogInv

/-! ## Section 3: Slots and ring -/

/-- The initiation in a slot: its chaining key comes from its ephemeral,
    which has not yielded a session. -/
structure SlotInv (P : NoiseParams C → Prop) (log : List Event) (s : HandshakeInitSentState) :
    Prop where
  generated : s.ephemeral_private ∈ ephemerals log
  chaining_key : ∃ (v : Variant) (p : NoiseParams C), P p ∧
    s.chaining_key = (schedule C).chain v.chain_key (initiatorInputs C p s.ephemeral_private)
  unused : ∀ b id, .established b id s.ephemeral_private ∉ log

theorem SlotInv.append {s : HandshakeInitSentState} (h : SlotInv P log s)
    (hevs : ∀ b id, .established b id s.ephemeral_private ∉ log') : SlotInv P (log ++ log') s where
  generated := by
    rw [ephemerals_append]
    exact List.mem_append_left _ h.generated
  chaining_key := h.chaining_key
  unused := by
    intro b id hmem
    rcases List.mem_append.mp hmem with hmem | hmem
    · exact h.unused b id hmem
    · exact hevs b id hmem

structure SlotsInv (P : NoiseParams C → Prop) (log : List Event) (w : View C) : Prop where
  state : ∀ s, w.state = .InitSent s → SlotInv P log s
  previous : ∀ s, w.previous = .InitSent s → SlotInv P log s
  ne : ∀ s s', w.state = .InitSent s → w.previous = .InitSent s' →
    s.ephemeral_private ≠ s'.ephemeral_private

namespace SlotsInv

/-- Both slots expire, or stay. -/
theorem quiet (I : SlotsInv P log w) (hq : Quiet w w') : SlotsInv P log w' := by
  rcases hq.slots with ⟨hs, hp⟩ | ⟨hs, hp⟩
  · exact ⟨hs ▸ I.state, hp ▸ I.previous, hs ▸ hp ▸ I.ne⟩
  · constructor <;> simp [hs, hp]

/-- Events that establish no session from a slot. -/
theorem append (I : SlotsInv P log w) (hevs : ∀ b id e, .established b id e ∈ log' →
    (∀ s, w.state = .InitSent s → s.ephemeral_private ≠ e) ∧
    ∀ s, w.previous = .InitSent s → s.ephemeral_private ≠ e) : SlotsInv P (log ++ log') w where
  state := fun s hs => (I.state s hs).append fun b id hmem => (hevs b id _ hmem).1 s hs rfl
  previous := fun s hs => (I.previous s hs).append fun b id hmem => (hevs b id _ hmem).2 s hs rfl
  ne := I.ne

/-- The state moves to `previous`, and something else takes its place. -/
theorem shift (I : SlotsInv P log w) (hprevious : w'.previous = w.state)
    (hstate : ∀ s, w'.state = .InitSent s → SlotInv P log s ∧
      ∀ s', w.state = .InitSent s' → s.ephemeral_private ≠ s'.ephemeral_private) :
    SlotsInv P log w' where
  state := fun s hs => (hstate s hs).1
  previous := fun s hs => I.state s (hprevious ▸ hs)
  ne := fun s s' hs hs' => (hstate s hs).2 s' (hprevious ▸ hs')

end SlotsInv

/-- The counter of a session in the ring is the number of packets sealed on
    it, and a session is in the ring once. -/
structure RingInv (log : List Event) (w : View C) : Prop where
  counter : ∀ i s, w.sessions i = some s → s.sending_key_counter = dataCount s.id log
  established : ∀ i s, w.sessions i = some s → ∃ b e, .established b s.id e ∈ log
  ne : ∀ i j s s', w.sessions i = some s → w.sessions j = some s' → s.id = s'.id → i = j

namespace RingInv

/-- Sessions are dropped. -/
theorem drop (I : RingInv log w) (h : ∀ i, w'.sessions i = w.sessions i ∨ w'.sessions i = none) :
    RingInv log w' := by
  have hold : ∀ i s, w'.sessions i = some s → w.sessions i = some s := by
    intro i s hs
    rcases h i with hi | hi
    · rw [← hi, hs]
    · rw [hi] at hs
      cases hs
  exact ⟨fun i s hs => I.counter i s (hold i s hs), fun i s hs => I.established i s (hold i s hs),
    fun i j s s' hs hs' => I.ne i j s s' (hold i s hs) (hold j s' hs')⟩

/-- Events that seal nothing on a session of the ring. -/
theorem append (I : RingInv log w)
    (hevs : ∀ i s, w.sessions i = some s → dataCount s.id log' = 0) : RingInv (log ++ log') w where
  counter := by
    intro i s hs
    rw [dataCount_append, hevs i s hs, I.counter i s hs, Nat.add_zero]
  established := by
    intro i s hs
    obtain ⟨b, e, h⟩ := I.established i s hs
    exact ⟨b, e, List.mem_append_left _ h⟩
  ne := I.ne

/-- A session is put at `k`; no other position holds it. -/
theorem update (I : RingInv log w) {k : Fin N_SESSIONS} {session : Session}
    (hsessions : w'.sessions = Function.update w.sessions k (some session))
    (hcounter : session.sending_key_counter = dataCount session.id log)
    (hest : ∃ b e, .established b session.id e ∈ log)
    (hne : ∀ i s, i ≠ k → w.sessions i = some s → s.id ≠ session.id) : RingInv log w' := by
  have hat : ∀ i s, w'.sessions i = some s → (i = k ∧ s = session) ∨
      (i ≠ k ∧ w.sessions i = some s) := by
    intro i s hs
    rw [hsessions] at hs
    by_cases hi : i = k
    · subst hi
      rw [Function.update_self] at hs
      exact Or.inl ⟨rfl, (Option.some.inj hs).symm⟩
    · rw [Function.update_of_ne hi] at hs
      exact Or.inr ⟨hi, hs⟩
  refine ⟨fun i s hs => ?_, fun i s hs => ?_, fun i j s s' hs hs' hid => ?_⟩
  · rcases hat i s hs with ⟨_, rfl⟩ | ⟨_, hs⟩
    · exact hcounter
    · exact I.counter i s hs
  · rcases hat i s hs with ⟨_, rfl⟩ | ⟨_, hs⟩
    · exact hest
    · exact I.established i s hs
  · rcases hat i s hs with ⟨rfl, rfl⟩ | ⟨hi, hs⟩ <;> rcases hat j s' hs' with ⟨rfl, rfl⟩ | ⟨hj, hs'⟩
    · rfl
    · exact absurd hid.symm (hne j s' hj hs')
    · exact absurd hid (hne i s hi hs)
    · exact I.ne i j s s' hs hs' hid

/-- A packet is sealed on the session at `k`. -/
theorem send (I : RingInv log w) {k : Fin N_SESSIONS} {session : Session} {n : Nat} {s : Seal}
    (hsession : w.sessions k = some session)
    (hfresh : FreshLog C B (log ++ [Event.data session.id n s]))
    (hsessions : w'.sessions = Function.update w.sessions k (some (session.sent B))) :
    RingInv (log ++ [Event.data session.id n s]) w' := by
  have hcount : dataCount session.id [.data session.id n s] = 1 := by
    simp [dataCount, Event.isData]
  -- Take the session out; the event does not concern the others.
  have hothers : RingInv log { w with sessions := Function.update w.sessions k none } := by
    refine I.drop fun i => ?_
    by_cases hi : i = k
    · exact Or.inr (by simp [hi])
    · exact Or.inl (by simp [hi])
  have hid : ∀ i s', i ≠ k → w.sessions i = some s' → s'.id ≠ session.id :=
    fun i s' hi hs' heq => hi (I.ne i k s' session hs' hsession heq)
  have happ : RingInv (log ++ [Event.data session.id n s])
      { w with sessions := Function.update w.sessions k none } := by
    refine hothers.append fun i s' hs' => ?_
    by_cases hi : i = k
    · simp [hi] at hs'
    · have := hid i s' hi (by simpa [hi] using hs')
      simp [dataCount, Event.isData, Ne.symm this]
  refine happ.update (hsessions.trans (Function.update_idem ..).symm) ?_ ?_ ?_
  · have hbelow := hfresh.below session.id
    rw [dataCount_append, hcount] at hbelow
    rw [Session.id_sent, dataCount_append, hcount]
    simp only [Session.sent, I.counter k session hsession]
    exact Nat.mod_eq_of_lt hbelow
  · obtain ⟨b, e, h⟩ := I.established k session hsession
    exact ⟨b, e, List.mem_append_left _ h⟩
  · intro i s' hi hs'
    exact hid i s' hi (by simpa [hi] using hs')

end RingInv

/-! ## Section 4: Every move keeps the invariant -/

section initSent
variable {v : Variant} {p : NoiseParams C} {local_index : UInt32} {e seed timestamp : Bytes}
  {time : Nat}

@[simp] theorem initSent_ephemeral_private :
    (initSent C v p local_index e seed timestamp time).ephemeral_private = e := rfl

theorem initSent_chaining_key : (initSent C v p local_index e seed timestamp time).chaining_key
    = (schedule C).chain v.chain_key (initiatorInputs C p e) := rfl

end initSent

theorem append_three (log : List Event) (a b c : Event) :
    log ++ [a, b, c] = log ++ [a] ++ [b] ++ [c] := by
  simp

structure KeyInv (P : NoiseParams C → Prop) (log : List Event) (w : View C) : Prop where
  params : P w.params
  keys : LogInv P log
  slots : SlotsInv P log w
  ring : RingInv log w

namespace KeyInv

theorem quiet (I : KeyInv P log w) (hq : Quiet w w') : KeyInv P log w' :=
  ⟨hq.params ▸ I.params, I.keys, I.slots.quiet hq, I.ring.drop hq.sessions⟩

theorem rekey (hP : ∀ p, P p) (I : KeyInv P log w) (hr : Rekey w w') : KeyInv P log w' := by
  obtain ⟨params, _, _, rfl⟩ := hr
  exact ⟨hP _, I.keys, ⟨I.slots.state, I.slots.previous, I.slots.ne⟩,
    I.ring.drop fun _ => Or.inr rfl⟩

/-- Nothing in the log belongs to an ephemeral generated later. -/
theorem not_established (I : LogInv P log) {e : Bytes} (he : e ∉ ephemerals log) (b : Bool)
    (id : SessionId) : .established b id e ∉ log :=
  fun h => he (I.established b id e h).1

theorem initiate (hC : C.Ideal) (I : KeyInv P log w) (v : Variant) (e seed timestamp : Bytes)
    (time : Nat) {st ts : Seal}
    (hst : KeyFor C w.params (.field .encrypted_static) e st.key)
    (hts : KeyFor C w.params (.field .encrypted_timestamp) e ts.key)
    (hfresh : FreshLog C B (log ++ [Event.generated e, .handshake .encrypted_static e st,
      .handshake .encrypted_timestamp e ts])) :
    KeyInv P (log ++ [Event.generated e, .handshake .encrypted_static e st,
        .handshake .encrypted_timestamp e ts])
      (w.initiated (initSent C v w.params (inc_index w.next_index) e seed timestamp time)) := by
  rw [append_three] at hfresh ⊢
  have hnot := hfresh.of_append.of_append.not_mem
  have hgen : e ∈ ephemerals (log ++ [Event.generated e]) := mem_ephemerals.mpr (by simp)
  have hold : ∀ f s, .handshake f e s ∉ log := fun f s h => hnot (I.keys.handshake f e s h).1
  have hstatic := (I.keys.snoc_generated e).snoc_handshake hC hfresh.of_append.of_append hgen
    I.params hst (by simp [hold])
  have hboth := hstatic.snoc_handshake hC hfresh.of_append
    (mem_ephemerals.mpr (by simp)) I.params hts (by simp [hold])
  have hslots : SlotsInv P (log ++ [Event.generated e] ++
      [Event.handshake .encrypted_static e st] ++
      [Event.handshake .encrypted_timestamp e ts]) w := by
    rw [← append_three]
    exact I.slots.append (by simp)
  refine ⟨I.params, hboth, hslots.shift rfl fun s hs => ?_, ?_⟩
  · obtain rfl : initSent C v w.params (inc_index w.next_index) e seed timestamp time = s :=
      HandshakeState.InitSent.inj hs
    refine ⟨⟨mem_ephemerals.mpr (by simp), ⟨v, w.params, I.params, initSent_chaining_key⟩, ?_⟩, ?_⟩
    · intro b id
      simpa using not_established I.keys hnot b id
    · rintro s' hs' rfl
      exact hnot (I.slots.state s' hs').generated
  · have hring : RingInv (log ++ [Event.generated e, .handshake .encrypted_static e st,
        .handshake .encrypted_timestamp e ts]) w := I.ring.append fun _ _ _ => rfl
    rw [← append_three]
    exact hring.drop fun _ => Or.inl rfl

/-- A session of an ephemeral without one enters the ring. -/
theorem ring_enter (hC : C.Ideal) (hfresh : FreshLog C B log) (I : LogInv P log)
    (hring : RingInv log w) {b : Bool} {e : Bytes} {p : NoiseParams C} {session : Session}
    (he : e ∈ ephemerals log) (hk : KeyFor C p (.sending b) e session.sender)
    (hunused : ∀ b id, .established b id e ∉ log) :
    (∀ i s, w.sessions i = some s → s.id ≠ session.id) ∧ dataCount session.id log = 0 := by
  refine ⟨fun i s hs heq => ?_, I.dataCount_eq_zero hC hfresh he hk hunused⟩
  obtain ⟨b', e', hest⟩ := hring.established i s hs
  exact I.sender_ne hC hfresh he hk hunused hest (congrArg SessionId.sender heq)

theorem respond (hC : C.Ideal) (I : KeyInv P log w) {c : Consumed} {e : Bytes} {s : Seal}
    {session : Session} (hs : KeyFor C w.params (.field .encrypted_nothing) e s.key)
    (hsend : KeyFor C w.params (.sending false) e session.sender)
    (hreceive : KeyFor C w.params (.receiving false) e session.receiver)
    (hzero : session.sending_key_counter = 0)
    (hfresh : FreshLog C B (log ++ [Event.generated e, .handshake .encrypted_nothing e s,
      .established false session.id e])) :
    KeyInv P (log ++ [Event.generated e, .handshake .encrypted_nothing e s,
        .established false session.id e])
      ({ w.consumed c .None with next_index := inc_index w.next_index }.store session) := by
  have hfresh' := hfresh
  rw [append_three] at hfresh'
  have hnot := hfresh'.of_append.of_append.not_mem
  have hfield := (I.keys.snoc_generated e).snoc_handshake hC hfresh'.of_append.of_append
    (mem_ephemerals.mpr (by simp)) I.params hs
    (by simpa using fun s h => hnot (I.keys.handshake _ e s h).1)
  have hunused : ∀ b id, .established b id e ∉
      log ++ [Event.generated e] ++ [Event.handshake .encrypted_nothing e s] := by
    intro b id
    simpa using not_established I.keys hnot b id
  have hgen : e ∈ ephemerals (log ++ [Event.generated e] ++
      [Event.handshake .encrypted_nothing e s]) :=
    mem_ephemerals.mpr (by simp)
  have hring : RingInv (log ++ [Event.generated e] ++ [Event.handshake .encrypted_nothing e s]) w :=
    (I.ring.append fun _ _ _ => rfl).append fun _ _ _ => rfl
  obtain ⟨hne, hcount⟩ := ring_enter hC hfresh'.of_append hfield hring hgen hsend hunused
  have hslots : SlotsInv P (log ++ [Event.generated e, .handshake .encrypted_nothing e s,
      .established false session.id e]) w := by
    refine I.slots.append fun b id e' hmem => ?_
    have hlast : b = false ∧ id = session.id ∧ e' = e := by simpa using hmem
    obtain ⟨_, _, rfl⟩ := hlast
    exact ⟨fun s' hs' heq => hnot (heq ▸ (I.slots.state s' hs').generated),
      fun s' hs' heq => hnot (heq ▸ (I.slots.previous s' hs').generated)⟩
  refine ⟨I.params, ?_, hslots.shift rfl nofun, ?_⟩
  · rw [append_three]
    exact hfield.snoc_established hgen I.params hsend hreceive hunused
  · rw [append_three]
    refine (hring.append fun _ _ _ => rfl).update rfl ?_ ⟨false, e, by simp⟩ fun i s' _ => hne i s'
    rw [dataCount_append, hcount, hzero]
    rfl

theorem complete (hC : C.Ideal) (I : KeyInv P log w) {s : HandshakeInitSentState}
    {is_previous : Bool} {idx : UInt32} {session : Session} {p : NoiseParams C} (current : Nat)
    (hslot : response_slot w.state w.previous idx = some (s, is_previous)) (hp : P p)
    (hsend : KeyFor C p (.sending true) s.ephemeral_private session.sender)
    (hreceive : KeyFor C p (.receiving true) s.ephemeral_private session.receiver)
    (hzero : session.sending_key_counter = 0)
    (hfresh : FreshLog C B (log ++ [Event.established true session.id s.ephemeral_private,
      .data session.id session.sending_key_counter (session.packet_seal C [])])) :
    KeyInv P (log ++ [Event.established true session.id s.ephemeral_private,
        .data session.id session.sending_key_counter (session.packet_seal C [])])
      { (w.answered is_previous).store (session.sent B) with current := current } := by
  have hsplit : log ++ [Event.established true session.id s.ephemeral_private,
      .data session.id session.sending_key_counter (session.packet_seal C [])] =
        log ++ [Event.established true session.id s.ephemeral_private] ++
          [Event.data session.id session.sending_key_counter (session.packet_seal C [])] := by simp
  rw [hsplit] at hfresh ⊢
  have hheld := response_slot_eq hslot
  have hs : SlotInv P log s := by
    cases is_previous
    · exact I.slots.state s hheld
    · exact I.slots.previous s hheld
  obtain ⟨hne, hcount⟩ := ring_enter hC hfresh.of_append.of_append I.keys I.ring hs.generated hsend
    hs.unused
  have hest : LogInv P (log ++ [Event.established true session.id s.ephemeral_private]) :=
    I.keys.snoc_established hs.generated hp hsend hreceive hs.unused
  have hcount' : dataCount session.id (log ++ [Event.established true session.id s.ephemeral_private])
      = session.sending_key_counter := by
    rw [dataCount_append, hcount, hzero]
    rfl
  refine ⟨I.params, ?_, ?_, ?_⟩
  · have hnonce : (session.packet_seal C []).nonce = nonce_of_counter session.sending_key_counter :=
      rfl
    rw [← hcount'] at hfresh hnonce ⊢
    exact hest.snoc_data hC hfresh (b := true) (e := s.ephemeral_private) (by simp) rfl hnonce
  · -- The slot is emptied, and the other one holds a different ephemeral.
    rw [← hsplit]
    cases is_previous with
    | false =>
      refine ⟨nofun, fun s' hs' => (I.slots.previous s' hs').append fun b id hmem => ?_, nofun⟩
      exact I.slots.ne s s' hheld hs' (by simp_all)
    | true =>
      refine ⟨fun s' hs' => (I.slots.state s' hs').append fun b id hmem => ?_, nofun, nofun⟩
      exact I.slots.ne s' s hs' hheld (by simp_all)
  · -- Store the session, then seal the keepalive on it.
    have hstored : RingInv (log ++ [Event.established true session.id s.ephemeral_private])
        (w.store session) :=
      (I.ring.append fun _ _ _ => rfl).update rfl hcount'.symm
        ⟨true, s.ephemeral_private, by simp⟩
        fun i s' _ => hne i s'
    refine hstored.send (k := slot session.local_index) (Function.update_self ..) hfresh ?_
    exact (Function.update_idem ..).symm

theorem send (hC : C.Ideal) (I : KeyInv P log w) {k : Fin N_SESSIONS} {session : Session}
    (src : Bytes) (hsession : w.sessions k = some session)
    (hfresh : FreshLog C B
      (log ++ [Event.data session.id session.sending_key_counter (session.packet_seal C src)])) :
    KeyInv P (log ++ [Event.data session.id session.sending_key_counter
      (session.packet_seal C src)])
      { w with sessions := Function.update w.sessions k (some (session.sent B)) } := by
  obtain ⟨b, e, hest⟩ := I.ring.established k session hsession
  refine ⟨I.params, ?_, ?_, I.ring.send hsession hfresh rfl⟩
  · have hnonce : (session.packet_seal C src).nonce
      = nonce_of_counter session.sending_key_counter := rfl
    rw [I.ring.counter k session hsession] at hfresh hnonce ⊢
    exact I.keys.snoc_data hC hfresh hest rfl hnonce
  · have hslots : SlotsInv P (log ++
        [Event.data session.id session.sending_key_counter (session.packet_seal C src)]) w :=
      I.slots.append (by simp)
    exact ⟨hslots.state, hslots.previous, hslots.ne⟩

/-- **Every move keeps the invariant.** -/
theorem move {evs : List Event} (hC : C.Ideal) (hfresh : FreshLog C B (log ++ evs))
    (I : KeyInv P log w) (h : Move B w evs w') : KeyInv P (log ++ evs) w' := by
  cases h with
  | initiate e seed timestamp time =>
    obtain ⟨hst, hts⟩ := keyFor_initiate (p := w.params) (v := B.variant) e timestamp
      ((B.variant.keygen C seed).map Prod.snd)
    exact I.initiate hC B.variant e seed timestamp time hst hts hfresh
  | stall v packet ek c hc =>
    rw [List.append_nil]
    exact ⟨I.params, I.keys, I.slots.shift rfl nofun, I.ring.drop fun _ => Or.inl rfl⟩
  | refuse v packet ek c e hc =>
    have hslots : SlotsInv P (log ++ [Event.generated e]) w := I.slots.append (by simp)
    have hring : RingInv (log ++ [Event.generated e]) w := I.ring.append fun _ _ _ => rfl
    exact ⟨I.params, I.keys.snoc_generated e, hslots.shift rfl nofun,
      hring.drop fun _ => Or.inl rfl⟩
  | respond v packet ek c e seed kem r session hc hkem hr hsession =>
    subst hr hsession
    obtain ⟨hs, hsend, hreceive⟩ :=
      keyFor_respond (consume_ok.mp hc).chaining_key c.hash e kem
    exact I.respond hC hs hsend hreceive rfl hfresh
  | complete v s is_previous packet ct rk sk session current hslot _ hkeys hsession _ =>
    subst hsession
    have hs : SlotInv P log s := by
      have hheld := response_slot_eq hslot
      cases is_previous
      · exact I.slots.state s hheld
      · exact I.slots.previous s hheld
    obtain ⟨v₀, p, hp, hck⟩ := hs.chaining_key
    obtain ⟨hsend, hreceive⟩ := keyFor_complete hck hkeys
    exact I.complete hC current hslot hp hsend hreceive rfl hfresh
  | send session src hsession => exact I.send hC src hsession hfresh
  | receive session packet plaintext v current hsession haccepts _ =>
    have hslots : SlotsInv P (log ++ [Event.opened session.id packet.counter plaintext
      packet.encrypted_encapsulated_packet]) w := I.slots.append (by simp)
    have hring : RingInv (log ++ [Event.opened session.id packet.counter plaintext
      packet.encrypted_encapsulated_packet]) w := I.ring.append fun _ _ _ => rfl
    refine ⟨I.params, I.keys.snoc_opened .., ⟨hslots.state, hslots.previous, hslots.ne⟩, ?_⟩
    refine hring.update rfl (hring.counter _ session hsession)
      (hring.established _ session hsession :) ?_
    exact fun i s hi hs heq => hi (hring.ne i _ s session hs hsession heq)

theorem works {evs : List Event} (hC : C.Ideal) (hfresh : FreshLog C B (log ++ evs))
    (I : KeyInv P log w) (h : Works B w evs w') : KeyInv P (log ++ evs) w' := by
  obtain ⟨w₁, hq, hacts⟩ := h
  rcases hacts with ⟨rfl, rfl⟩ | hmove
  · rw [List.append_nil]
    exact I.quiet hq
  · exact (I.quiet hq).move hC hfresh hmove

theorem step {evs : List Event} (hC : C.Ideal) (hP : ∀ p, P p)
    (hfresh : FreshLog C B (log ++ evs)) (I : KeyInv P log w)
    (h : (machine C B).step w evs w') : KeyInv P (log ++ evs) w' := by
  rcases h with ⟨hr, rfl⟩ | hworks
  · rw [List.append_nil]
    exact I.rekey hP hr
  · exact I.works hC hfresh hworks

/-- A new tunnel. -/
theorem new (priv peer : Bytes) (hpeer : peer.length = KEY_LEN) (psk : Option Bytes)
    (keepalive : Option UInt16) (index : UInt32) (limiter : Option RateLimiter)
    (unix_time now : Nat) (env : Env)
    (hp : P (Tunn.new C priv peer hpeer psk keepalive index limiter unix_time now env).view.params) :
    KeyInv P []
      (Tunn.new C priv peer hpeer psk keepalive index limiter unix_time now env).view :=
  ⟨hp, LogInv.nil, ⟨nofun, nofun, nofun⟩, ⟨nofun, nofun, nofun⟩⟩

end KeyInv

/-! ## Section 5: Runs of a tunnel -/

/-- **The invariant holds along every run of a tunnel.** -/
theorem Tunn.run_keyInv (hC : C.Ideal) (hP : ∀ p, P p) {t₀ t : Tunn C} {tr : List Label}
    (hinit : KeyInv P [] t₀.view) (hrun : Run (tunnel C B) t₀ tr t)
    (hfresh : FreshLog C B (events tr)) : KeyInv P (events tr) t.view := by
  refine hrun.invariant_of (A := fun tr => FreshLog C B (events tr))
    (I := fun tr (t : Tunn C) => KeyInv P (events tr) t.view) ?_ hinit ?_ hfresh
  · intro tr l h
    rw [events_snoc] at h
    exact h.of_append
  · intro tr t l t' h I hstep
    rw [events_snoc] at h ⊢
    exact I.step hC hP h (Tunn.step_view hstep)

/-- **No nonce is used twice.**  In every run of a new tunnel, with any
    operations in any order and any datagrams, the ChaCha20-Poly1305 seals
    use pairwise different pairs of key and nonce, an own ephemeral yields
    at most one session, and a sending key belongs to at most one session. -/
theorem Tunn.run_seals_nodup (hC : C.Ideal) {priv peer : Bytes} (hpeer : peer.length = KEY_LEN)
    {psk : Option Bytes} {keepalive : Option UInt16} {index : UInt32}
    {limiter : Option RateLimiter} {unix_time now : Nat} {env : Env} {t : Tunn C}
    {tr : List Label}
    (hrun : Run (tunnel C B)
      (Tunn.new C priv peer hpeer psk keepalive index limiter unix_time now env) tr t)
    (hephemerals : ((ephemerals (events tr)).map C.x25519_public).Nodup)
    (hcounts : ∀ id, dataCount id (events tr) < 2 ^ B.usize_bits) :
    ((seals (events tr)).map fun s => (s.key, s.nonce)).Nodup ∧
      ((establishments (events tr)).map fun x => x.2.2).Nodup ∧
      ((establishments (events tr)).map fun x => x.2.1.sender).Nodup := by
  have hfresh : FreshLog C B (events tr) := ⟨hephemerals, hcounts⟩
  have I := Tunn.run_keyInv (P := fun _ => True) hC (fun _ => trivial)
    (KeyInv.new _ _ hpeer _ _ _ _ _ _ _ trivial) hrun hfresh
  refine ⟨I.keys.seals, I.keys.once, ?_⟩
  -- Sessions with one sending key have one ephemeral, and ephemerals do not repeat.
  refine List.Nodup.map_on ?_ (List.Nodup.of_map _ I.keys.once)
  rintro ⟨b, id, e⟩ hx ⟨b', id', e'⟩ hx' hkey
  have hest := mem_establishments.mp hx
  have hest' := mem_establishments.mp hx'
  obtain ⟨he, p, _, hk, _⟩ := I.keys.established b id e hest
  obtain ⟨he', p', _, hk', _⟩ := I.keys.established b' id' e' hest'
  rw [← show id.sender = id'.sender from hkey] at hk'
  obtain ⟨_, hpub⟩ := hk.unique hC hk' trivial trivial
  obtain rfl := hfresh.public_inj he he' hpub
  obtain ⟨rfl, rfl⟩ := I.keys.established_unique hest hest'
  rfl

/-- Two forced initiations with different ephemerals. -/
theorem Tunn.run_seals_nodup_two_initiations :
    let B : Build := ⟨false, 64, false, by decide, by decide⟩
    let env : UInt8 → Env := fun b => ⟨fun _ => 0, [b], [], [], []⟩
    let t₀ := Tunn.new symbolic [7] (List.replicate 32 9) rfl none none 1 none 0 0 (env 0)
    let call : Tunn symbolic → UInt8 → TunnResult × Tunn symbolic × List Event :=
      fun t b => t.format_handshake_initiation B 2048 true (env b)
    let label : Tunn symbolic → UInt8 → Label := fun t b =>
      ⟨.format_handshake_initiation 2048 true, env b, (call t b).1, (call t b).2.2⟩
    let tr := [label t₀ 1, label (call t₀ 1).2.1 2]
    (seals (events tr)).length = 4 ∧
      ((seals (events tr)).map fun s => (s.key, s.nonce)).Nodup := by
  intro B env t₀ call label tr
  have hfirst : Run (tunnel symbolic B) t₀ [label t₀ 1] (call t₀ 1).2.1 := .snoc .nil rfl
  have hrun : Run (tunnel symbolic B) t₀ tr (call (call t₀ 1).2.1 2).2.1 := .snoc hfirst rfl
  have hephemerals : ephemerals (events tr) = [[1], [2]] := rfl
  have hcounts : ∀ id, dataCount id (events tr) = 0 := fun _ => rfl
  refine ⟨rfl, (Tunn.run_seals_nodup symbolic_ideal rfl hrun ?_ fun id => ?_).1⟩
  · rw [hephemerals]
    decide
  · rw [hcounts id]
    decide

end PqBoringtun
