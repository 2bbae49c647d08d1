import PqBoringtun.Noise.Completeness
import PqBoringtun.Noise.Initiations

/-! # Outstanding initiations

    An own initiation waits for its response in one of the two handshake
    slots: in `state`, or in `previous` after the slots were shifted.

    * `Tunn.SlotStep`: what an operation can do to the slots, and why.
    * `Tunn.initiations_paced`: as long as no young initiation is shifted,
      the next one is sent `REKEY_TIMEOUT` later.
    * `Tunn.outstanding_answerable`: an initiation can be answered as long as
      the slots are not shifted again.
-/

namespace PqBoringtun

variable {C : Crypto} {B : Build}

/-! ## Section 1: The slots -/

/-- A forced initiation. -/
def Op.Forced (op : Op) : Prop := ∃ dst_len, op = .format_handshake_initiation dst_len true

namespace Handshake

/-- Why an initiation is sent: on demand, because none waits in `state`, or because the one
    there is old. -/
def MayInitiate (h : Handshake C) (env : Env) (op : Op) : Prop :=
  op.Forced ∨ (∀ s, h.state ≠ .InitSent s) ∨
    ((∃ dst_len, op = .update_timers dst_len) ∧ ∃ s, h.state = .InitSent s ∧
      REKEY_TIMEOUT ≤ env.clock .elapsed - s.time_sent)

/-- What an operation does to the slots; `Admitted` says that it receives an acceptable
    initiation. -/
inductive SlotStep (Admitted : Prop) (h : Handshake C) (env : Env) (op : Op) (r : TunnResult)
    (h' : Handshake C) (evs : List Event) : Prop where
  | kept (hstate : h'.state = h.state) (hprevious : h'.previous = h.previous)
      (hquiet : ¬ Initiates evs)
  | expires (hop : ∃ dst_len, op = .update_timers dst_len) (hr : r = .Err .ConnectionExpired)
      (hquiet : ¬ Initiates evs)
  | initiates (s : HandshakeInitSentState) (hcause : h.MayInitiate env op)
      (hstate : h'.state = .InitSent s) (hsent : s.time_sent = env.clock .sent)
      (hprevious : h'.previous = h.state) (hinit : Initiates evs)
  | admits (hadmits : Admitted) (hstate : ∀ s, h'.state ≠ .InitSent s)
      (hprevious : h'.previous = h.state) (hquiet : ¬ Initiates evs)
  | answers (s : HandshakeInitSentState) (is_previous : Bool) (idx : UInt32) (id : SessionId)
      (hslot : response_slot h.state h.previous idx = some (s, is_previous))
      (hid : id.receiving_index = s.local_index)
      (hevent : .established true id s.ephemeral_private ∈ evs)
      (hstate : h'.state = if is_previous then h.state else .None)
      (hprevious : h'.previous = if is_previous then .None else h.previous)
      (hquiet : ¬ Initiates evs)

/-- Only one of them sends an initiation. -/
theorem SlotStep.of_initiates {Admitted : Prop} {h h' : Handshake C} {env : Env} {op : Op}
    {r : TunnResult} {evs : List Event} (hslots : h.SlotStep Admitted env op r h' evs)
    (hinit : Initiates evs) :
    ∃ s, h.MayInitiate env op ∧ h'.state = .InitSent s ∧ s.time_sent = env.clock .sent := by
  cases hslots with
  | initiates s hcause hstate hsent _ _ => exact ⟨s, hcause, hstate, hsent⟩
  | kept _ _ hquiet => exact absurd hinit hquiet
  | expires _ _ hquiet => exact absurd hinit hquiet
  | admits _ _ _ hquiet => exact absurd hinit hquiet
  | answers _ _ _ _ _ _ _ _ _ hquiet => exact absurd hinit hquiet

theorem SlotStep.of_same {Admitted : Prop} {h h' : Handshake C} {env : Env} {op : Op}
    {r : TunnResult} (hstate : h'.state = h.state) (hprevious : h'.previous = h.previous) :
    h.SlotStep Admitted env op r h' [] :=
  .kept hstate hprevious (by simp [Initiates])

end Handshake

namespace Tunn

open Handshake (SlotStep)

variable {t t' : Tunn C} {dst_len : Nat} {env : Env} {op : Op} {r r' : TunnResult}
  {evs : List Event} {A : Prop} {n : Nat}

/-- `state` holds no own initiation. -/
theorem idle_of_not_in_progress {h : Handshake C} (hidle : h.is_in_progress = false) :
    ∀ s, h.state ≠ .InitSent s := by
  intro s hs
  simp [Handshake.is_in_progress, hs] at hidle

theorem slots_starts {force : Bool} (h : t.Starts B dst_len force env r t' evs)
    (hforce : force = true → t.handshake.MayInitiate env op) :
    t.handshake.SlotStep A env op r' t'.handshake evs := by
  cases h with
  | busy _ _ => exact .of_same rfl rfl
  | no_room _ _ => exact .of_same (by rw [cleared_handshake]) (by rw [cleared_handshake])
  | sent m h' evs hidle hcall =>
    have hcause : t.handshake.MayInitiate env op := by
      cases force with
      | true => exact hforce rfl
      | false => exact Or.inr (Or.inl (idle_of_not_in_progress (hidle rfl)))
    rw [initiated_handshake]
    rcases Handshake.format_initiation_cases hcall with
      ⟨_, hres, _⟩ | ⟨_, m', cookies, i, _, rfl, _, rfl⟩
    · cases hres
    · exact .initiates _ hcause rfl rfl rfl ⟨_, _, List.mem_cons_of_mem _ List.mem_cons_self⟩

theorem slots_encapsulates {src : Bytes} (h : t.Encapsulates B src dst_len env r t' evs) :
    t.handshake.SlotStep A env op r' t'.handshake evs := by
  cases h with
  | sealed session packet _ =>
    rw [after_send_handshake]
    exact .kept rfl rfl (by simp [Initiates])
  | queued _ hstart =>
    rw [← queue_packet_handshake t src]
    exact slots_starts hstart (by simp)

theorem slots_flushes (h : t.Flushes B dst_len env r t' evs) :
    t.handshake.SlotStep A env op r' t'.handshake evs := by
  cases h with
  | empty _ => exact .of_same rfl rfl
  | failed packet rest e t₁ evs _ henc =>
    rw [requeue_packet_handshake]
    exact slots_encapsulates (t := { t with packet_queue := rest }) henc
  | passed packet rest _ _ henc =>
    exact slots_encapsulates (t := { t with packet_queue := rest }) henc

theorem slots_ticks (h : t.Ticks B dst_len env r t' evs) :
    t.handshake.SlotStep A env (.update_timers n) r t'.handshake evs := by
  cases h with
  | expires _ => exact .expires ⟨n, rfl⟩ rfl (by simp [Initiates])
  | retransmits s _ hstate hdue hstart =>
    exact slots_starts hstart fun _ => Or.inr (Or.inr ⟨⟨n, rfl⟩, s, hstate, hdue⟩)
  | waits s _ _ _ => exact .of_same rfl rfl
  | rekeys want _ hstate hstart =>
    exact slots_starts (t := { t with timers := { t.timers with want_handshake := want } }) hstart
      fun _ => Or.inr (Or.inl hstate)
  | keepalive want want' t₁ _ _ ht₁ henc =>
    have hsame : t₁.handshake = t.handshake := by
      rcases ht₁ with rfl | rfl <;> rfl
    rw [← hsame]
    rcases henc with henc | ⟨_, rfl, rfl⟩
    · exact slots_encapsulates henc
    · exact .of_same rfl rfl

theorem slots_updates (h : t.Updates B dst_len env r t' evs) :
    t.handshake.SlotStep A env (.update_timers n) r t'.handshake evs := by
  have hrefreshed : ∀ {t₁}, t.refresh env = .ok t₁ → t₁.handshake = t.handshake := by
    intro t₁ hrefresh
    obtain ⟨_, _, _, _, _, rfl⟩ := refresh_cases hrefresh
    rfl
  cases h with
  | expired _ hrefresh _ =>
    rw [hrefreshed hrefresh]
    exact .of_same rfl rfl
  | ticks t₁ cookies hrefresh _ hticks =>
    -- Dropping the cookie changes neither slot.
    rw [← hrefreshed hrefresh]
    cases slots_ticks (A := A) (n := n) hticks with
    | kept hstate hprevious hquiet => exact .kept hstate hprevious hquiet
    | expires hop hr hquiet => exact .expires hop hr hquiet
    | initiates s hcause hstate hsent hprevious hinit =>
      exact .initiates s hcause hstate hsent hprevious hinit
    | admits hadmits hstate hprevious hquiet => exact .admits hadmits hstate hprevious hquiet
    | answers s is_previous idx id hslot hid hevent hstate hprevious hquiet =>
      exact .answers s is_previous idx id hslot hid hevent hstate hprevious hquiet

theorem slots_handles {packet : Packet} (hreceived : t.received B env op = some packet)
    {limiter : RateLimiter}
    (h : { t with rate_limiter := limiter }.Handles B dst_len env packet r t' evs) :
    t.handshake.SlotStep (∃ c, t.Admits B env op c) env op r' t'.handshake evs := by
  cases h with
  | init v p ek hinit hreceives hres =>
    cases hreceives with
    | rejected e hc =>
      cases hres
      exact .of_same rfl rfl
    | stalled c hc _ =>
      cases hres
      exact .admits ⟨c, packet, v, p, ek, hreceived, hinit, hc⟩ (by simp [Handshake.committed]) rfl
        (by simp [Initiates])
    | refused c e hc _ _ =>
      cases hres
      exact .admits ⟨c, packet, v, p, ek, hreceived, hinit, hc⟩ (by simp) rfl (by simp [Initiates])
    | answered c kem r' session m cookies hc _ _ _ _ =>
      cases hres
      exact .admits ⟨c, packet, v, p, ek, hreceived, hinit, hc⟩
        (by simp [timer_tick_session_established, timer_tick, store_session]) rfl
        (by simp [Initiates])
  | response v p ct _ hreceives hres =>
    cases hreceives with
    | rejected e =>
      cases hres
      exact .of_same rfl rfl
    | accepted s is_previous rk sk session hslot _ _ hsession =>
      obtain ⟨⟨keepalive, session', sealed⟩, hfmt, hres⟩ := Outcome.bind_eq_ok.mp hres
      obtain ⟨_, rfl⟩ := Session.format_packet_data_ok hfmt
      cases hres
      rw [set_current_session_handshake]
      refine .answers s is_previous p.receiver_idx session.id hslot ?_ ?_ rfl rfl
        (by simp [Initiates])
      · rw [hsession]
        rfl
      · simp
  | cookie p hres =>
    obtain ⟨hview, rfl⟩ := view_handle_cookie_reply hres
    exact .of_same (congrArg View.state hview) (congrArg View.previous hview)
  | data p hreceives =>
    cases hreceives with
    | rejected e => exact .of_same rfl rfl
    | accepted session plaintext v t₁ _ _ ht₁ =>
      have hview := view_validate_decapsulated_packet t₁ plaintext
      have hsame : t₁.handshake = t.handshake := by
        rw [ht₁]
        show (Tunn.set_current_session _ _).handshake = _
        rw [set_current_session_handshake]
        rfl
      refine .kept ((congrArg View.state hview).trans ?_) ((congrArg View.previous hview).trans ?_)
        (by simp [Initiates])
      · exact congrArg Handshake.state hsame
      · exact congrArg Handshake.previous hsame

/-- **What an operation does to the slots.** -/
theorem step_slots (hstep : t.step B op env = .ok (r, t', evs)) :
    t.handshake.SlotStep (∃ c, t.Admits B env op c) env op r t'.handshake evs := by
  cases step_cases hstep with
  | handles packet limiter dst_len hreceived _ hhandles => exact slots_handles hreceived hhandles
  | drops addr datagram dst_len r limiter _ _ _ => exact .of_same rfl rfl
  | flushes addr dst_len hflush => exact slots_flushes hflush
  | encapsulates src dst_len henc => exact slots_encapsulates henc
  | updates dst_len hupdate => exact slots_updates hupdate
  | starts dst_len force hstart =>
    refine slots_starts hstart fun hforce => Or.inl ⟨dst_len, ?_⟩
    rw [hforce]
  | rekeys priv pub limiter t' hset =>
    obtain ⟨params, _, _, hview⟩ := view_set_static_private hset
    exact .of_same (congrArg View.state hview) (congrArg View.previous hview)
  | shares count nonce_ctr last_reset => exact .of_same rfl rfl

/-! ## Section 2: Pacing -/

/-- The whole call is made less than `REKEY_TIMEOUT` after the initiation. -/
def Young (env : Env) (s : HandshakeInitSentState) : Prop :=
  ∀ reading, env.clock reading < s.time_sent + REKEY_TIMEOUT

/-- A young initiation is moved out of `state`: by a forced one, or because an initiation of
    the peer is accepted. -/
def ShiftsYoung (B : Build) (t : Tunn C) (l : Label) : Prop :=
  ∃ s, t.handshake.state = .InitSent s ∧ Young l.env s ∧
    (l.op.Forced ∨ ∃ c, t.Admits B l.env l.op c)

/-- A tunnel whose young initiations are left alone. -/
def pacedTunnel (C : Crypto) (B : Build) : System (Tunn C) Label :=
  (tunnel C B).guard fun t l => ¬ t.ShiftsYoung B l

/-- The response to `s` is accepted. -/
def Answered (s : HandshakeInitSentState) (l : Label) : Prop :=
  ∃ id, id.receiving_index = s.local_index ∧ .established true id s.ephemeral_private ∈ l.events

section pacing
variable {s : HandshakeInitSentState} {l : Label}

/-- An initiation that is neither answered nor expired stays in `state` while it is young. -/
theorem stays_or_old (hstate : t.handshake.state = .InitSent s)
    (hstep : (pacedTunnel C B).step t l t') (hunanswered : ¬ Answered s l)
    (hlive : l.result ≠ .Err .ConnectionExpired) :
    t'.handshake.state = .InitSent s ∨
      ∃ reading, s.time_sent + REKEY_TIMEOUT ≤ l.env.clock reading := by
  obtain ⟨hstep, hguard⟩ := hstep
  have hshift : (l.op.Forced ∨ ∃ c, t.Admits B l.env l.op c) →
      ∃ reading, s.time_sent + REKEY_TIMEOUT ≤ l.env.clock reading := by
    intro hcause
    by_contra hyoung
    simp only [not_exists, Nat.not_le] at hyoung
    exact hguard ⟨s, hstate, hyoung, hcause⟩
  cases step_slots hstep with
  | kept hkept _ _ => exact Or.inl (hkept.trans hstate)
  | expires _ hr _ => exact absurd hr hlive
  | initiates s' hcause _ _ _ _ =>
    rcases hcause with hforced | hidle | ⟨_, s₀, hs₀, hdue⟩
    · exact Or.inr (hshift (Or.inl hforced))
    · exact absurd hstate (hidle s)
    · rw [hstate] at hs₀
      cases hs₀
      have htimeout : 0 < REKEY_TIMEOUT := by decide
      exact Or.inr ⟨.elapsed, by omega⟩
  | admits hadmits _ _ _ => exact Or.inr (hshift (Or.inr hadmits))
  | answers s' is_previous idx id hslot hid hevent hafter _ _ =>
    have hs' := response_slot_eq hslot
    cases is_previous with
    | true => exact Or.inl (hafter.trans hstate)
    | false =>
      have hsame : HandshakeState.InitSent s = .InitSent s' := hstate.symm.trans hs'
      cases hsame
      exact absurd ⟨id, hid, hevent⟩ hunanswered

theorem run_stays_or_old {t₀ : Tunn C} {tr : List Label} (hstate : t₀.handshake.state = .InitSent s)
    (hrun : Run (pacedTunnel C B) t₀ tr t)
    (hpending : ∀ l ∈ tr, ¬ Answered s l ∧ l.result ≠ .Err .ConnectionExpired) :
    t.handshake.state = .InitSent s ∨
      ∃ l ∈ tr, ∃ reading, s.time_sent + REKEY_TIMEOUT ≤ l.env.clock reading := by
  refine hrun.invariant_of
    (A := fun tr => ∀ l ∈ tr, ¬ Answered s l ∧ l.result ≠ .Err .ConnectionExpired)
    (I := fun tr t => t.handshake.state = .InitSent s ∨
      ∃ l ∈ tr, ∃ reading, s.time_sent + REKEY_TIMEOUT ≤ l.env.clock reading)
    (fun hall l hl => hall l (List.mem_append_left _ hl)) (Or.inl hstate) ?_ hpending
  intro tr t l t' hall ih hstep
  have hl : l ∈ tr ++ [l] := List.mem_append_right _ (List.mem_singleton_self l)
  rcases ih with hstays | ⟨l', hl', hold⟩
  · rcases stays_or_old hstays hstep (hall l hl).1 (hall l hl).2 with hstays' | hold
    · exact Or.inl hstays'
    · exact Or.inr ⟨l, hl, hold⟩
  · exact Or.inr ⟨l', List.mem_append_left _ hl', hold⟩

/-- **Initiations are paced.**  A tunnel sent an initiation, which in the following run was
    neither answered nor expired, and no young initiation was moved out of `state`.  Then the
    next initiation that is not forced is sent at least `REKEY_TIMEOUT` after it. -/
theorem initiations_paced {t₁ t₁' t₂ t₂' : Tunn C} {l₁ l₂ : Label} {tr : List Label} {start : Nat}
    (hfirst : (tunnel C B).step t₁ l₁ t₁') (hinit₁ : Initiates l₁.events)
    (hstate : t₁'.handshake.state = .InitSent s) (hrun : Run (pacedTunnel C B) t₁' tr t₂)
    (hpending : ∀ l ∈ tr, ¬ Answered s l ∧ l.result ≠ .Err .ConnectionExpired)
    (hsecond : (tunnel C B).step t₂ l₂ t₂') (hinit₂ : Initiates l₂.events)
    (hforced : ¬ l₂.op.Forced) (hclock : Clocked start (tr ++ [l₂]))
    (horder : l₂.env.clock .elapsed ≤ l₂.env.clock .sent) :
    l₁.env.clock .sent + REKEY_TIMEOUT ≤ l₂.env.clock .sent := by
  have hsent : s.time_sent = l₁.env.clock .sent := by
    obtain ⟨s', _, hstate', hsent⟩ := (step_slots hfirst).of_initiates hinit₁
    rw [hstate] at hstate'
    cases hstate'
    exact hsent
  rw [← hsent]
  rcases run_stays_or_old hstate hrun hpending with hstays | ⟨l, hl, reading, hold⟩
  · -- It still waits in `state`: only `update_timers` sends another one, and not before.
    obtain ⟨_, hforce | hidle | ⟨_, s₀, hs₀, hdue⟩, _⟩ := (step_slots hsecond).of_initiates hinit₂
    · exact absurd hforce hforced
    · exact absurd hstays (hidle s)
    · rw [hstays] at hs₀
      cases hs₀
      have htimeout : 0 < REKEY_TIMEOUT := by decide
      omega
  · have hmono := (List.pairwise_append.mp hclock.mono).2.2 l hl l₂ (List.mem_singleton_self l₂)
    exact hold.trans (hmono reading .sent)

end pacing

/-- An initiation without an answer is sent again after five seconds. -/
theorem initiations_paced_retransmitted :
    let B := symbolicBuild false
    ∃ r₁ t₁ evs₁ r₂ t₂ evs₂,
      symbolicTunn.step B (.encapsulate [1] 2048) (symbolicEnv 0) = .ok (r₁, t₁, evs₁) ∧
      t₁.step B (.update_timers 2048) (symbolicEnv (5 * SEC)) = .ok (r₂, t₂, evs₂) ∧
      Initiates evs₁ ∧ Initiates evs₂ ∧
      (symbolicEnv 0).clock .sent + REKEY_TIMEOUT ≤ (symbolicEnv (5 * SEC)).clock .sent := by
  obtain ⟨⟨r₁, t₁, evs₁⟩, hstep₁, ⟨r₂, t₂, evs₂⟩, hstep₂, hinit₁, hinit₂, s, hstate⟩ : ∃ x,
      symbolicTunn.step (symbolicBuild false) (.encapsulate [1] 2048) (symbolicEnv 0) = .ok x ∧ ∃ y,
      x.2.1.step (symbolicBuild false) (.update_timers 2048) (symbolicEnv (5 * SEC)) = .ok y ∧
      Initiates x.2.2 ∧ Initiates y.2.2 ∧ ∃ s, x.2.1.handshake.state = .InitSent s :=
    ⟨_, rfl, _, rfl, ⟨_, _, .tail _ (.head _)⟩, ⟨_, _, .tail _ (.head _)⟩, _, rfl⟩
  let l₁ : Label := ⟨.encapsulate [1] 2048, symbolicEnv 0, r₁, evs₁⟩
  let l₂ : Label := ⟨.update_timers 2048, symbolicEnv (5 * SEC), r₂, evs₂⟩
  have hfirst : (tunnel symbolic (symbolicBuild false)).step symbolicTunn l₁ t₁ := hstep₁
  have hsecond : (tunnel symbolic (symbolicBuild false)).step t₁ l₂ t₂ := hstep₂
  have hclock : Clocked 0 ([] ++ [l₂]) := by
    refine ⟨fun _ _ _ => Nat.zero_le _, fun l hl => ?_, List.pairwise_singleton _ _⟩
    rw [List.mem_singleton.mp hl]
    exact Nat.le_refl _
  have hforced : ¬ l₂.op.Forced := by
    intro ⟨_, hop⟩
    cases hop
  exact ⟨r₁, t₁, evs₁, r₂, t₂, evs₂, hstep₁, hstep₂, hinit₁, hinit₂,
    initiations_paced hfirst hinit₁ hstate .nil (by simp) hsecond hinit₂ hforced hclock
      (Nat.le_refl _)⟩

/-- A datagram with the initiation `symbolicInit`. -/
def symbolicDatagram (nano : UInt8) : Bytes :=
  let msg := initMessage .classical (symbolicInit nano) none
  msg ++ b2s_keyed_mac_16 symbolic symbolicTunn.rate_limiter.mac1_key msg ++ List.replicate 16 0

/-- It reaches the handshake of a tunnel with the same static key. -/
theorem decapsulate_symbolicDatagram {t : Tunn symbolic}
    (hmac1 : t.rate_limiter.mac1_key = symbolicTunn.rate_limiter.mac1_key)
    (hload : t.rate_limiter.count < t.rate_limiter.limit) (nano : UInt8) (n : Nat) (env : Env) :
    t.step B (.decapsulate none (symbolicDatagram nano) n) env
      = (t.handshake.receive_initialization .classical (symbolicInit nano) none n env >>= fun r =>
          pure (t.counted.handle_init r)) := by
  have hmac : b2s_keyed_mac_16 symbolic symbolicTunn.rate_limiter.mac1_key
        (initMessage .classical (symbolicInit nano) none)
      = b2s_keyed_mac_16 symbolic t.rate_limiter.mac1_key
        (initMessage .classical (symbolicInit nano) none) :=
    congrArg (fun key => b2s_keyed_mac_16 symbolic key _) hmac1.symm
  show t.decapsulate B none (symbolicDatagram nano) n env = _
  unfold symbolicDatagram
  have hclassical : Variant.classical = .pq → B.pq = true := by
    intro h
    cases h
  exact decapsulate_init hclassical rfl (symbolic_correct.mac_length _ _) List.length_replicate
    hmac hload

/-- Without a current session a packet is queued. -/
theorem encapsulate_queues {src : Bytes} {n : Nat} (hnone : t.sessions (slot t.current) = none) :
    t.step B (.encapsulate src n) env
      = .ok ((t.queue_packet src).format_handshake_initiation B n false env) := by
  show t.encapsulate B src n env = _
  unfold encapsulate
  rw [hnone]

/-- Two initiations at the same time: the peer's initiation between them emptied `state`. -/
theorem initiates_twice_at_once :
    let B := symbolicBuild false
    ∃ r₁ t₁ evs₁ r₂ t₂ evs₂ r₃ t₃ evs₃,
      symbolicTunn.step B (.encapsulate [1] 2048) (symbolicEnv 0) = .ok (r₁, t₁, evs₁) ∧
      t₁.step B (.decapsulate none (symbolicDatagram 1) 2048) (symbolicEnv 0)
        = .ok (r₂, t₂, evs₂) ∧
      t₂.step B (.encapsulate [2] 2048) (symbolicEnv 0) = .ok (r₃, t₃, evs₃) ∧
      Initiates evs₁ ∧ (∀ id e, .established true id e ∉ evs₂) ∧ r₂ ≠ .Err .ConnectionExpired ∧
      Initiates evs₃ := by
  obtain ⟨⟨r₁, t₁, evs₁⟩, hstep₁, hinit₁, hmac1, hload, ⟨r₂, t₂, evs₂⟩, hstep₂, ⟨m, hr⟩,
      ⟨e, x, id, hevs⟩, hnone, hinit₃⟩ : ∃ x,
      symbolicTunn.step (symbolicBuild false) (.encapsulate [1] 2048) (symbolicEnv 0) = .ok x ∧
      Initiates x.2.2 ∧
      x.2.1.rate_limiter.mac1_key = symbolicTunn.rate_limiter.mac1_key ∧
      x.2.1.rate_limiter.count < x.2.1.rate_limiter.limit ∧ ∃ y,
      (x.2.1.handshake.receive_initialization .classical (symbolicInit 1) none 2048 (symbolicEnv 0)
        >>= fun r => pure (x.2.1.counted.handle_init r)) = .ok y ∧
      (∃ m, y.1 = .WriteToNetwork m) ∧
      (∃ e x id, y.2.2 = [.generated e, .handshake .encrypted_nothing e x,
        .established false id e]) ∧
      y.2.1.sessions (slot y.2.1.current) = none ∧
      Initiates ((y.2.1.queue_packet [2]).format_handshake_initiation
        (symbolicBuild false) 2048 false
        (symbolicEnv 0)).2.2 := by
    refine ⟨_, rfl, ⟨_, _, .tail _ (.head _)⟩, rfl, by decide, _, rfl, ⟨_, rfl⟩, ⟨_, _, _, rfl⟩,
      ?_, ?_⟩
    · rfl
    · exact ⟨_, _, .tail _ (.head _)⟩
  rw [← decapsulate_symbolicDatagram hmac1 hload 1 2048 (symbolicEnv 0)] at hstep₂
  obtain rfl : evs₂ = _ := hevs
  obtain rfl : r₂ = _ := hr
  exact ⟨r₁, t₁, evs₁, _, t₂, _, _, _, _, hstep₁, hstep₂, encapsulate_queues hnone, hinit₁, by simp,
    by simp, hinit₃⟩

/-! ## Section 3: Answerable initiations -/

end Tunn

/-- The operations for what comes in from the network. -/
def Op.Incoming : Op → Prop
  | .decapsulate _ _ _ => True
  | .handle_verified_packet _ _ => True
  | _ => False

/-- The latest initiation waits for its response, in one of the slots. -/
def Handshake.Awaits (h : Handshake C) (s : HandshakeInitSentState) : Prop :=
  h.state = .InitSent s ∨ (h.previous = .InitSent s ∧ ∀ s', h.state ≠ .InitSent s')

theorem Handshake.Awaits.slot {h : Handshake C} {s : HandshakeInitSentState}
    (hawaits : h.Awaits s) :
    ∃ is_previous, response_slot h.state h.previous s.local_index = some (s, is_previous) := by
  rcases hawaits with hstate | ⟨hprevious, hidle⟩
  · exact ⟨false, response_slot_state hstate rfl⟩
  · have hnone : h.state.awaiting s.local_index = none := by
      cases hstate : h.state with
      | InitSent s' => exact absurd hstate (hidle s')
      | _ => rfl
    refine ⟨true, ?_⟩
    unfold response_slot
    rw [hnone, hprevious]
    simp [HandshakeState.awaiting]

namespace Tunn

/-- The slots are shifted: an initiation of the peer is accepted, or a flush finds a queued
    packet, no session and room for an initiation. -/
def Disturbs (B : Build) (t : Tunn C) (l : Label) : Prop :=
  (∃ c, t.Admits B l.env l.op c) ∨ ∃ addr n, l.op = .decapsulate addr [] n ∧
    t.packet_queue ≠ [] ∧ t.sessions (slot t.current) = none ∧ B.variant.init_size ≤ n

/-- Packets come in, and once `s` is in `previous` the slots are not shifted. -/
def sparingTunnel (C : Crypto) (B : Build) (s : HandshakeInitSentState) : System (Tunn C) Label :=
  (tunnel C B).guard fun t l =>
    l.op.Incoming ∧ (t.handshake.state ≠ .InitSent s → ¬ t.Disturbs B l)

section answerable
variable {t t' : Tunn C} {dst_len : Nat} {env : Env} {op : Op} {r : TunnResult}
  {evs : List Event} {s : HandshakeInitSentState} {l : Label}

theorem starts_room {force : Bool} (h : t.Starts B dst_len force env r t' evs)
    (hinit : Initiates evs) : B.variant.init_size ≤ dst_len := by
  cases h with
  | busy _ _ => simp [Initiates] at hinit
  | no_room _ _ => simp [Initiates] at hinit
  | sent m h' evs _ hcall =>
    rcases Handshake.format_initiation_cases hcall with ⟨_, hres, _⟩ | ⟨hroom, _⟩
    · cases hres
    · exact hroom

theorem encapsulates_initiates {src : Bytes} (h : t.Encapsulates B src dst_len env r t' evs)
    (hinit : Initiates evs) :
    t.sessions (slot t.current) = none ∧ B.variant.init_size ≤ dst_len := by
  cases h with
  | sealed session packet _ => simp [Initiates] at hinit
  | queued hnone hstart => exact ⟨hnone, starts_room hstart hinit⟩

/-- Of the incoming operations only a flush sends initiations. -/
theorem incoming_initiates (hincoming : op.Incoming)
    (hstep : t.step B op env = .ok (r, t', evs)) (hinit : Initiates evs) :
    ∃ addr n, op = .decapsulate addr [] n ∧ t.packet_queue ≠ [] ∧
      t.sessions (slot t.current) = none ∧ B.variant.init_size ≤ n := by
  cases step_cases hstep with
  | handles packet limiter dst_len _ _ hhandles =>
    exact absurd hinit (handles_not_initiates hhandles)
  | drops addr datagram dst_len r limiter _ _ _ => simp [Initiates] at hinit
  | flushes addr n hflush =>
    refine ⟨addr, n, rfl, ?_⟩
    cases hflush with
    | empty _ => simp [Initiates] at hinit
    | failed packet rest e t₁ evs hqueue henc =>
      exact ⟨by simp [hqueue],
        encapsulates_initiates (t := { t with packet_queue := rest }) henc hinit⟩
    | passed packet rest hqueue _ henc =>
      exact ⟨by simp [hqueue],
        encapsulates_initiates (t := { t with packet_queue := rest }) henc hinit⟩
  | encapsulates src dst_len _ => exact absurd hincoming id
  | updates dst_len _ => exact absurd hincoming id
  | starts dst_len force _ => exact absurd hincoming id
  | rekeys priv pub limiter t' _ => exact absurd hincoming id
  | shares count nonce_ctr last_reset => exact absurd hincoming id

/-- **One step.**  An initiation that is not answered keeps a slot. -/
theorem step_awaits (hawaits : t.handshake.Awaits s) (hstep : (sparingTunnel C B s).step t l t')
    (hunanswered : ¬ Answered s l) : t'.handshake.Awaits s := by
  obtain ⟨hstep, hincoming, hspare⟩ := hstep
  cases step_slots hstep with
  | kept hstate hprevious _ =>
    unfold Handshake.Awaits
    rw [hstate, hprevious]
    exact hawaits
  | expires hop _ _ =>
    obtain ⟨n, hop⟩ := hop
    rw [hop] at hincoming
    exact absurd hincoming id
  | initiates s' hcause _ _ _ hinit =>
    rcases hawaits with hstate | ⟨_, hnot⟩
    · -- In `state` it blocks everything but a forced initiation and a retransmission.
      rcases hcause with ⟨n, hop⟩ | hidle | ⟨⟨n, hop⟩, _⟩
      · rw [hop] at hincoming
        exact absurd hincoming id
      · exact absurd hstate (hidle s)
      · rw [hop] at hincoming
        exact absurd hincoming id
    · exact absurd (Or.inr (incoming_initiates hincoming hstep hinit)) (hspare (hnot s))
  | admits hadmits hidle hprevious _ =>
    rcases hawaits with hstate | ⟨_, hnot⟩
    · exact Or.inr ⟨hprevious.trans hstate, hidle⟩
    · exact absurd (Or.inl hadmits) (hspare (hnot s))
  | answers s' is_previous idx id hslot hid hevent hstate hprevious _ =>
    have hs' := response_slot_eq hslot
    have hother : s' ≠ s := by
      intro hsame
      subst hsame
      exact hunanswered ⟨id, hid, hevent⟩
    rcases hawaits with hwaits | ⟨hwaits, hnot⟩
    · cases is_previous with
      | true => exact Or.inl (hstate.trans hwaits)
      | false =>
        have hsame : HandshakeState.InitSent s' = .InitSent s := hs'.symm.trans hwaits
        cases hsame
        exact absurd rfl hother
    · cases is_previous with
      | true =>
        have hsame : HandshakeState.InitSent s' = .InitSent s := hs'.symm.trans hwaits
        cases hsame
        exact absurd rfl hother
      | false => exact absurd hs' (hnot s')

theorem incoming_params (hincoming : op.Incoming) (hstep : t.step B op env = .ok (r, t', evs)) :
    t'.handshake.params = t.handshake.params := by
  refine (step_works (fun a b c hop => ?_) hstep).params
  rw [hop] at hincoming
  exact hincoming

/-- **A run.** -/
theorem run_awaits {tr : List Label} (hawaits : t.handshake.Awaits s)
    (hrun : Run (sparingTunnel C B s) t tr t') (hunanswered : ∀ l ∈ tr, ¬ Answered s l) :
    t'.handshake.Awaits s ∧ t'.handshake.params = t.handshake.params := by
  refine hrun.invariant_of (A := fun tr => ∀ l ∈ tr, ¬ Answered s l)
    (I := fun _ t' => t'.handshake.Awaits s ∧ t'.handshake.params = t.handshake.params)
    (fun hall l hl => hall l (List.mem_append_left _ hl)) ⟨hawaits, rfl⟩ ?_ hunanswered
  intro tr t₁ l t₂ hall ⟨hawaits₁, hparams₁⟩ hstep
  have hl : l ∈ tr ++ [l] := List.mem_append_right _ (List.mem_singleton_self l)
  exact ⟨step_awaits hawaits₁ hstep (hall l hl),
    (incoming_params hstep.2.1 hstep.1).trans hparams₁⟩

theorem handle_verified_response {packet : Packet} {v : Variant} {p : HandshakeResponse}
    {ct : Option Bytes} (hpacket : packet.response? = some (v, p, ct)) :
    t.handle_verified_packet B packet dst_len env
      = (t.handshake.receive_response v p ct env >>=
        fun res => t.handle_response B res dst_len) := by
  cases packet with
  | HandshakeResponse _ =>
    cases hpacket
    rfl
  | PqHandshakeResponse _ =>
    cases hpacket
    rfl
  | _ => cases hpacket

/-- **An outstanding initiation stays answerable.**  Packets come in, the initiation `s` is not
    answered, and once it is in `previous` the slots are not shifted again.  Then a response to
    `s` that would be accepted at the beginning is accepted at the end, in the same way. -/
theorem outstanding_answerable {tr : List Label} (hawaits : t.handshake.Awaits s)
    (hrun : Run (sparingTunnel C B s) t tr t') (hunanswered : ∀ l ∈ tr, ¬ Answered s l)
    {packet : Packet} {v : Variant} {p : HandshakeResponse} {ct : Option Bytes}
    (hpacket : packet.response? = some (v, p, ct)) (hidx : p.receiver_idx = s.local_index)
    {m : Bytes} {t₁ : Tunn C}
    (haccepted : t.handle_verified_packet B packet dst_len env = .ok (.WriteToNetwork m, t₁, evs))
    (env' : Env) :
    ∃ t₂, t'.handle_verified_packet B packet dst_len env' = .ok (.WriteToNetwork m, t₂, evs) := by
  obtain ⟨hawaits', hparams⟩ := run_awaits hawaits hrun hunanswered
  rw [handle_verified_response hpacket] at haccepted ⊢
  obtain ⟨⟨res, h', evs'⟩, hreceive, hres⟩ := Outcome.bind_eq_ok.mp haccepted
  cases Handshake.receive_response_cases hreceive with
  | rejected e => cases hres
  | accepted s₀ is_previous rk sk session hslot htype hkeys hsession =>
    obtain ⟨_, hwaits⟩ := hawaits.slot
    obtain ⟨_, hwaits'⟩ := hawaits'.slot
    rw [hidx, hwaits] at hslot
    cases hslot
    obtain ⟨⟨keepalive, session', sealed⟩, hfmt, hres⟩ := Outcome.bind_eq_ok.mp hres
    obtain ⟨kem, hkem, hcomplete⟩ := Attempt.run_bind_eq_ok.mp hkeys
    rw [← hparams] at hcomplete
    rw [Handshake.receive_response_ok (hidx ▸ hwaits') htype hkem hcomplete hsession,
      Outcome.ok_bind]
    unfold handle_response
    dsimp only
    rw [hfmt]
    cases hres
    exact ⟨_, rfl⟩

end answerable

theorem symbolicResp_ephemeral_length : (List.replicate 32 0 : Bytes).length = 32 := rfl

/-- A response to the first initiation of `symbolicTunn`. -/
def symbolicResp : HandshakeResponse where
  sender_idx := 5
  receiver_idx := 257
  unencrypted_ephemeral := List.replicate 32 0
  encrypted_nothing := List.replicate 16 0
  ephemeral_length := symbolicResp_ephemeral_length
  nothing_length := rfl

/-- After an initiation of the peer the own one can still be answered. -/
theorem outstanding_answerable_crossed :
    let B := symbolicBuild false
    let env := symbolicEnv 0
    ∃ r₁ t₁ evs₁ r₂ t₂ evs₂ m t₃ evs₃,
      symbolicTunn.step B (.encapsulate [1] 2048) env = .ok (r₁, t₁, evs₁) ∧
      t₁.step B (.decapsulate none (symbolicDatagram 1) 2048) env = .ok (r₂, t₂, evs₂) ∧
      (∃ c, t₁.Admits B env (.decapsulate none (symbolicDatagram 1) 2048) c) ∧
      t₂.handle_verified_packet B (.HandshakeResponse symbolicResp) 2048 env
        = .ok (.WriteToNetwork m, t₃, evs₃) := by
  obtain ⟨⟨r₁, t₁, evs₁⟩, hstep₁, hmac1, hload, s, hstate, hidx, ⟨r, t₁', evs⟩, haccepted, ⟨m, hm⟩,
      ⟨r₂, t₂, evs₂⟩, hstep₂, e, x, id, hevs⟩ : ∃ x,
      symbolicTunn.step (symbolicBuild false) (.encapsulate [1] 2048) (symbolicEnv 0) = .ok x ∧
      x.2.1.rate_limiter.mac1_key = symbolicTunn.rate_limiter.mac1_key ∧
      x.2.1.rate_limiter.count < x.2.1.rate_limiter.limit ∧ (∃ s,
      x.2.1.handshake.state = .InitSent s ∧ symbolicResp.receiver_idx = s.local_index ∧ ∃ x',
      x.2.1.handle_verified_packet (symbolicBuild false) (.HandshakeResponse symbolicResp) 2048
        (symbolicEnv 0) = .ok x' ∧ (∃ m, x'.1 = .WriteToNetwork m) ∧ ∃ y,
      (x.2.1.handshake.receive_initialization .classical (symbolicInit 1) none 2048 (symbolicEnv 0)
        >>= fun r => pure (x.2.1.counted.handle_init r)) = .ok y ∧
      ∃ e x id, y.2.2 = [.generated e, .handshake .encrypted_nothing e x,
        .established false id e]) :=
    ⟨_, rfl, rfl, by decide, _, rfl, rfl, _, rfl, ⟨_, rfl⟩, _, rfl, _, _, _, rfl⟩
  rw [← decapsulate_symbolicDatagram hmac1 hload 1 2048 (symbolicEnv 0)] at hstep₂
  obtain rfl : r = _ := hm
  have hevs : evs₂ = _ := hevs
  let l : Label := ⟨.decapsulate none (symbolicDatagram 1) 2048, symbolicEnv 0, r₂, evs₂⟩
  have hrun : Run (sparingTunnel symbolic (symbolicBuild false) s) t₁ ([] ++ [l]) t₂ :=
    .snoc .nil ⟨hstep₂, trivial, fun hmoved => absurd hstate hmoved⟩
  have hunanswered : ∀ l' ∈ [] ++ [l], ¬ Answered s l' := by
    intro l' hl'
    rw [List.mem_singleton.mp hl']
    simp [Answered, l, hevs]
  have hadmits : ∃ c, t₁.Admits (symbolicBuild false) (symbolicEnv 0) l.op c := by
    rcases step_admits hstep₂ with ⟨c, hadmits, _⟩ | ⟨_, hbystands⟩
    · exact ⟨c, hadmits⟩
    · exact absurd (by simp [Responds, hevs]) hbystands.silent
  obtain ⟨t₃, haccepted'⟩ := outstanding_answerable (Or.inl hstate) hrun hunanswered rfl hidx
    haccepted (symbolicEnv 0)
  exact ⟨r₁, t₁, evs₁, r₂, t₂, evs₂, m, t₃, evs, hstep₁, hstep₂, hadmits, haccepted'⟩

/-- The flush after an initiation of the peer starts a new one, and the response to the first
    is rejected. -/
theorem flush_forgets_initiation :
    let B := symbolicBuild false
    let env := symbolicEnv 0
    ∃ r₁ t₁ evs₁ m t₁' evs₁' m₂ t₂ evs₂ m₃ t₃ evs₃ t₄ e t₅,
      symbolicTunn.step B (.encapsulate [1] 2048) env = .ok (r₁, t₁, evs₁) ∧
      t₁.handle_verified_packet B (.HandshakeResponse symbolicResp) 2048 env
        = .ok (.WriteToNetwork m, t₁', evs₁') ∧
      t₁.step B (.decapsulate none (symbolicDatagram 1) 2048) env
        = .ok (.WriteToNetwork m₂, t₂, evs₂) ∧
      t₂.step B (.decapsulate none [] 2048) env = .ok (.WriteToNetwork m₃, t₃, evs₃) ∧
      t₃.step B (.decapsulate none [] 2048) env = .ok (.Done, t₄, []) ∧
      t₄.handle_verified_packet B (.HandshakeResponse symbolicResp) 2048 env
        = .ok (.Err e, t₅, []) := by
  obtain ⟨⟨r₁, t₁, evs₁⟩, hstep₁, hmac1, hload, ⟨r₁', t₁', evs₁'⟩, haccepted, ⟨m, hm⟩,
      ⟨r₂, t₂, evs₂⟩, hstep₂, ⟨m₂, hm₂⟩, ⟨r₃, t₃, evs₃⟩, hstep₃, ⟨m₃, hm₃⟩, t₄, hstep₄, e, t₅,
      hrejected⟩ : ∃ x,
      symbolicTunn.step (symbolicBuild false) (.encapsulate [1] 2048) (symbolicEnv 0) = .ok x ∧
      x.2.1.rate_limiter.mac1_key = symbolicTunn.rate_limiter.mac1_key ∧
      x.2.1.rate_limiter.count < x.2.1.rate_limiter.limit ∧ (∃ x',
      x.2.1.handle_verified_packet (symbolicBuild false) (.HandshakeResponse symbolicResp) 2048
        (symbolicEnv 0) = .ok x' ∧ (∃ m, x'.1 = .WriteToNetwork m) ∧ ∃ y,
      (x.2.1.handshake.receive_initialization .classical (symbolicInit 1) none 2048 (symbolicEnv 0)
        >>= fun r => pure (x.2.1.counted.handle_init r)) = .ok y ∧
      (∃ m, y.1 = .WriteToNetwork m) ∧ ∃ z,
      y.2.1.step (symbolicBuild false) (.decapsulate none [] 2048) (symbolicEnv 0) = .ok z ∧
      (∃ m, z.1 = .WriteToNetwork m) ∧ ∃ t₄,
      z.2.1.step (symbolicBuild false) (.decapsulate none [] 2048) (symbolicEnv 0)
        = .ok (.Done, t₄, []) ∧ ∃ e t₅,
      t₄.handle_verified_packet (symbolicBuild false) (.HandshakeResponse symbolicResp) 2048
        (symbolicEnv 0) = .ok (.Err e, t₅, [])) := by
    exact ⟨_, rfl, rfl, by decide, _, rfl, ⟨_, rfl⟩, _, rfl, ⟨_, rfl⟩, _, rfl, ⟨_, rfl⟩, _, rfl, _,
      _, rfl⟩
  rw [← decapsulate_symbolicDatagram hmac1 hload 1 2048 (symbolicEnv 0)] at hstep₂
  obtain rfl : r₁' = _ := hm
  obtain rfl : r₂ = _ := hm₂
  obtain rfl : r₃ = _ := hm₃
  exact ⟨r₁, t₁, evs₁, m, t₁', evs₁', m₂, t₂, evs₂, m₃, t₃, evs₃, t₄, e, t₅, hstep₁, haccepted,
    hstep₂, hstep₃, hstep₄, hrejected⟩

end Tunn

end PqBoringtun
