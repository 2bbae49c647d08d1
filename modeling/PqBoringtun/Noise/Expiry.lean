import PqBoringtun.Noise.Initiations
import PqBoringtun.Noise.Symbolic
import PqBoringtun.Noise.Timing

/-! # Expiry

    What `update_timers` throws away, and when.

    * Section 1: once a connection has expired no key is left, and none is
      used until a new handshake begins (`Tunn.expiry_erases`).
    * Section 2: sessions that survive an update are not older than
      `REJECT_AFTER_TIME` (`Tunn.sessions_expire`).
    * Section 3: when an unanswered handshake is given up
      (`Tunn.abandons_late_iff`).
-/

namespace PqBoringtun

variable {C : Crypto} {B : Build}

/-! ## Section 1: Erased tunnels -/

/-- No session is left, and no handshake: an expired slot holds no key. -/
structure View.Erased (w : View C) : Prop where
  state : w.state = .Expired
  previous : w.previous = .Expired
  sessions : ∀ i, w.sessions i = none

section machine
variable {w w' : View C} {evs : List Event}

theorem Quiet.erased (hq : Quiet w w') (h : w.Erased) : w'.Erased := by
  rcases hq.slots with ⟨hstate, hprevious⟩ | ⟨hstate, hprevious, hsessions⟩
  · refine ⟨hstate.trans h.state, hprevious.trans h.previous, fun i => ?_⟩
    rcases hq.sessions i with hi | hi
    · exact hi.trans (h.sessions i)
    · exact hi
  · exact ⟨hstate, hprevious, hsessions⟩

/-- **From an erased view** a tunnel can only begin a handshake: with an own
    initiation, or by accepting one with a new timestamp. -/
theorem View.Erased.move (h : w.Erased) (hmove : Move B w evs w') :
    Initiates evs ∨ w.last_handshake_timestamp.key < w'.last_handshake_timestamp.key := by
  cases hmove with
  | initiate e seed timestamp time => exact Or.inl ⟨e, _, .tail _ (.head _)⟩
  | stall v packet ek c hc => exact Or.inr (Tai64N.after_iff.mp (consume_ok.mp hc).after)
  | refuse v packet ek c e hc => exact Or.inr (Tai64N.after_iff.mp (consume_ok.mp hc).after)
  | respond v packet ek c e seed kem r session hc _ _ _ =>
    exact Or.inr (Tai64N.after_iff.mp (consume_ok.mp hc).after)
  | complete v s is_previous packet ct rk sk session current hslot _ _ _ _ =>
    rw [h.state, h.previous] at hslot
    cases hslot
  | send session src hsession =>
    rw [h.sessions] at hsession
    cases hsession
  | receive session packet plaintext v current hsession _ _ =>
    rw [h.sessions] at hsession
    cases hsession

/-- The state is expired only in erased views. -/
def View.ExpiredErased (w : View C) : Prop := w.state = .Expired → w.Erased

theorem Move.expiredErased (h : w.ExpiredErased) (hmove : Move B w evs w') :
    w'.ExpiredErased := by
  intro hstate
  cases hmove with
  | initiate e seed timestamp time => cases hstate
  | stall v packet ek c hc => cases hstate
  | refuse v packet ek c e hc => cases hstate
  | respond v packet ek c e seed kem r session hc _ _ _ => cases hstate
  | complete v s is_previous packet ct rk sk session current hslot _ _ _ _ =>
    cases is_previous with
    | false => cases hstate
    | true =>
      have herased := h hstate
      rw [herased.state, herased.previous] at hslot
      cases hslot
  | send session src hsession =>
    rw [(h hstate).sessions] at hsession
    cases hsession
  | receive session packet plaintext v current hsession _ _ =>
    rw [(h hstate).sessions] at hsession
    cases hsession

theorem machine_expiredErased (h : w.ExpiredErased) (hstep : (machine C B).step w evs w') :
    w'.ExpiredErased := by
  rcases hstep with ⟨⟨params, _, _, rfl⟩, _⟩ | ⟨w₁, hq, hacts⟩
  · intro hstate
    have herased := h hstate
    exact ⟨herased.state, herased.previous, fun _ => rfl⟩
  · have h₁ : w₁.ExpiredErased := by
      intro hstate
      rcases hq.slots with ⟨hsame, _⟩ | ⟨hs, hp, hsessions⟩
      · exact hq.erased (h (hsame ▸ hstate))
      · exact ⟨hs, hp, hsessions⟩
    rcases hacts with ⟨rfl, _⟩ | hmove
    · exact h₁
    · exact hmove.expiredErased h₁

end machine

namespace Tunn

variable {t t' : Tunn C} {dst_len : Nat} {env : Env} {r : TunnResult} {evs : List Event}

theorem is_expired_iff (h : Handshake C) : h.is_expired = true ↔ h.state = .Expired := by
  unfold Handshake.is_expired
  cases h.state <;> simp

theorem IsNew.expiredErased {start : Nat} (hnew : t.IsNew start) : t.view.ExpiredErased := by
  obtain ⟨_, _, _, _, _, _, _, _, _, rfl⟩ := hnew
  intro hstate
  cases hstate

theorem run_expiredErased {t₀ : Tunn C} {start : Nat} {tr : List Label} (hnew : t₀.IsNew start)
    (hrun : Run (tunnel C B) t₀ tr t) : t.view.ExpiredErased :=
  (run_view hrun).invariant (I := fun _ w => w.ExpiredErased) hnew.expiredErased
    fun h hstep => machine_expiredErased h hstep

/-- `update_timers` reports an expired connection only with everything erased. -/
theorem updates_erased (h : t.view.ExpiredErased)
    (hupdate : t.Updates B dst_len env (.Err .ConnectionExpired) t' evs) : t'.view.Erased := by
  have hstarts : ∀ {t₁ : Tunn C} {force : Bool},
      ¬ t₁.Starts B dst_len force env (.Err .ConnectionExpired) t' evs := by
    intro t₁ force hstart
    cases hstart
  cases hupdate with
  | expired t₁ hrefresh hexpired =>
    -- The early return: the tunnel had been erased before.
    have hquiet := quiet_refresh hrefresh
    have hstate : t.view.state = .Expired := by
      rcases hquiet.slots with ⟨hsame, _⟩ | ⟨_, _, _⟩
      · exact hsame.symm.trans ((is_expired_iff _).mp hexpired)
      · obtain ⟨_, _, _, _, _, rfl⟩ := refresh_cases hrefresh
        exact (is_expired_iff t.handshake).mp hexpired
    exact hquiet.erased (h hstate)
  | ticks t₁ cookies _ _ hticks =>
    cases hticks with
    | expires _ => exact ⟨rfl, rfl, fun _ => rfl⟩
    | retransmits s _ _ _ hstart => exact absurd hstart hstarts
    | rekeys want _ _ hstart => exact absurd hstart hstarts
    | keepalive want want' t₂ _ _ _ henc =>
      rcases henc with henc | ⟨hr, _⟩
      · cases henc with
        | queued _ hstart => exact absurd hstart hstarts
      · cases hr

/-- One operation on an erased tunnel that begins no handshake does nothing. -/
theorem step_erased {op : Op} (h : t.view.Erased) (hinit : ¬ Initiates evs)
    (hadmits : ∀ c, ¬ t.Admits B env op c) (hstep : t.step B op env = .ok (r, t', evs)) :
    t'.view.Erased ∧ evs = [] := by
  have hkept : t'.handshake.last_handshake_timestamp = t.handshake.last_handshake_timestamp := by
    rcases step_admits hstep with ⟨c, hc, _⟩ | ⟨_, hkept⟩
    · exact absurd hc (hadmits c)
    · exact hkept.timestamp
  rcases step_view hstep with ⟨⟨params, _, _, hview⟩, rfl⟩ | ⟨w₁, hq, hacts⟩
  · rw [hview]
    exact ⟨⟨h.state, h.previous, fun _ => rfl⟩, rfl⟩
  · rcases hacts with ⟨hview, rfl⟩ | hmove
    · rw [hview]
      exact ⟨hq.erased h, rfl⟩
    · rcases (hq.erased h).move hmove with hinit' | hlt
      · exact absurd hinit' hinit
      · rw [hq.timestamp] at hlt
        exact absurd hlt (by rw [show t'.view.last_handshake_timestamp
          = t.view.last_handshake_timestamp from hkept]; exact lt_irrefl _)

/-- No own initiation is formed and no initiation of the peer accepted. -/
def NoHandshakeBegins (B : Build) (t : Tunn C) (l : Label) : Prop :=
  ¬ Initiates l.events ∧ ∀ c, ¬ t.Admits B l.env l.op c

end Tunn

/-! ## Section 2: The age of sessions -/

/-- The ring position of a session. -/
def SessionId.slot (id : SessionId) : Fin N_SESSIONS := PqBoringtun.slot id.receiving_index.toNat

namespace Tunn

variable {t t' t'' : Tunn C} {dst_len : Nat} {env : Env} {r : TunnResult} {evs : List Event}

/-- No session is established; each slot is emptied, or keeps its session and its age. -/
structure Keeps (t t' : Tunn C) (evs : List Event) : Prop where
  slots : ∀ i, t'.sessions i = none ∨
    (t'.timers.session_timers i = t.timers.session_timers i ∧
      (t'.sessions i).map Session.id = (t.sessions i).map Session.id)
  silent : ∀ b id e, .established b id e ∉ evs

/-- The session `id` is established and stamped with the current time; the other slots are as
    before. -/
structure Enters (t t' : Tunn C) (evs : List Event) (id : SessionId) : Prop where
  event : ∃ b e, .established b id e ∈ evs
  stored : (t'.sessions id.slot).map Session.id = some id
  stamped : t'.timers.session_timers id.slot = t.now
  others : ∀ i, i ≠ id.slot → t'.timers.session_timers i = t.timers.session_timers i ∧
    t'.sessions i = t.sessions i
  only : ∀ b id' e, .established b id' e ∈ evs → id' = id

theorem Keeps.of_same (hsessions : t'.sessions = t.sessions)
    (htimers : t'.timers.session_timers = t.timers.session_timers)
    (hsilent : ∀ b id e, .established b id e ∉ evs) : Keeps t t' evs :=
  ⟨fun i => Or.inr ⟨by rw [htimers], by rw [hsessions]⟩, hsilent⟩

/-- A call on a tunnel with some slots already emptied. -/
theorem Keeps.after (h : Keeps t t' []) (h' : Keeps t' t'' evs) : Keeps t t'' evs := by
  refine ⟨fun i => ?_, h'.silent⟩
  rcases h'.slots i with hnone | ⟨hage, hid⟩
  · exact Or.inl hnone
  · rcases h.slots i with hempty | ⟨hage', hid'⟩
    · rw [hempty] at hid
      exact Or.inl (Option.map_eq_none_iff.mp hid)
    · exact Or.inr ⟨hage.trans hage', hid.trans hid'⟩

/-- A session changes its counters only. -/
theorem Keeps.of_store {index : Nat} {s s' : Session} (hs : t.sessions (slot index) = some s)
    (hid : s'.id = s.id)
    (hsessions : t'.sessions = Function.update t.sessions (slot index) (some s'))
    (htimers : t'.timers.session_timers = t.timers.session_timers)
    (hsilent : ∀ b id e, .established b id e ∉ evs) : Keeps t t' evs := by
  refine ⟨fun i => Or.inr ⟨by rw [htimers], ?_⟩, hsilent⟩
  rw [hsessions]
  by_cases hi : i = slot index
  · subst hi
    rw [Function.update_self, hs]
    exact congrArg some hid
  · rw [Function.update_of_ne hi]

theorem keeps_starts {force : Bool} (h : t.Starts B dst_len force env r t' evs) :
    Keeps t t' evs := by
  have hcleared : (t.cleared env).sessions = t.sessions ∧
      (t.cleared env).timers.session_timers = t.timers.session_timers := by
    unfold cleared
    split <;> exact ⟨rfl, rfl⟩
  cases h with
  | busy _ _ => exact .of_same rfl rfl nofun
  | no_room _ _ => exact .of_same hcleared.1 hcleared.2 nofun
  | sent m h' evs _ hcall =>
    have hsame : (t.initiated env h').sessions = t.sessions ∧
        (t.initiated env h').timers.session_timers = t.timers.session_timers := by
      unfold initiated
      dsimp only
      split <;> exact ⟨hcleared.1, hcleared.2⟩
    refine .of_same hsame.1 hsame.2 ?_
    rcases Handshake.format_initiation_cases hcall with
      ⟨_, _, _, rfl⟩ | ⟨_, _, _, _, _, _, _, rfl⟩ <;> simp

theorem keeps_encapsulates {src : Bytes} (h : t.Encapsulates B src dst_len env r t' evs) :
    Keeps t t' evs := by
  cases h with
  | sealed session packet hsession =>
    have hsame : (t.after_send B session src).sessions
          = Function.update t.sessions (slot t.current) (some (session.sent B)) ∧
        (t.after_send B session src).timers.session_timers = t.timers.session_timers := by
      unfold after_send
      dsimp only
      split <;> exact ⟨rfl, rfl⟩
    exact .of_store hsession (Session.id_sent ..) hsame.1 hsame.2 (by simp)
  | queued _ hstart =>
    have hqueued : Keeps t (t.queue_packet src) [] := by
      unfold queue_packet
      split <;> exact .of_same rfl rfl nofun
    exact hqueued.after (keeps_starts hstart)

theorem keeps_flushes (h : t.Flushes B dst_len env r t' evs) : Keeps t t' evs := by
  cases h with
  | empty _ => exact .of_same rfl rfl nofun
  | failed packet rest e t₁ evs _ henc =>
    have hkeeps := keeps_encapsulates henc
    unfold requeue_packet
    split <;> exact ⟨hkeeps.slots, hkeeps.silent⟩
  | passed packet rest _ _ henc =>
    have hkeeps := keeps_encapsulates henc
    exact ⟨hkeeps.slots, hkeeps.silent⟩

theorem keeps_refresh (h : t.refresh env = .ok t') : Keeps t t' [] := by
  obtain ⟨_, now, _, _, _, rfl⟩ := refresh_cases h
  refine ⟨fun i => ?_, nofun⟩
  dsimp only
  split
  · exact Or.inl rfl
  · exact Or.inr ⟨rfl, rfl⟩

theorem keeps_ticks (h : t.Ticks B dst_len env r t' evs) : Keeps t t' evs := by
  cases h with
  | expires _ => exact ⟨fun _ => Or.inl rfl, nofun⟩
  | retransmits s _ _ _ hstart => exact keeps_starts hstart
  | waits s _ _ _ => exact .of_same rfl rfl nofun
  | rekeys want _ _ hstart =>
    have hkeeps := keeps_starts hstart
    exact ⟨hkeeps.slots, hkeeps.silent⟩
  | keepalive want want' t₁ _ _ ht₁ henc =>
    have hsame : Keeps t t₁ [] := by
      rcases ht₁ with rfl | rfl <;> exact .of_same rfl rfl nofun
    rcases henc with henc | ⟨_, rfl, rfl⟩
    · exact hsame.after (keeps_encapsulates henc)
    · exact hsame

theorem keeps_updates (h : t.Updates B dst_len env r t' evs) : Keeps t t' evs := by
  cases h with
  | expired _ hrefresh _ => exact keeps_refresh hrefresh
  | ticks t₁ cookies hrefresh _ hticks =>
    have hkeeps := keeps_ticks hticks
    exact (keeps_refresh hrefresh).after ⟨hkeeps.slots, hkeeps.silent⟩

/-- A new session is stored where its index says, and stamped there. -/
theorem Enters.of_store {s s' : Session} {b : Bool} {e : Bytes} {index : Nat} (hid : s'.id = s.id)
    (hindex : slot index = s.id.slot)
    (hsessions : t'.sessions = Function.update t.sessions s.id.slot (some s'))
    (htimers : t'.timers.session_timers
      = Function.update t.timers.session_timers (slot index) t.now)
    (hevent : .established b s.id e ∈ evs)
    (honly : ∀ b id' e, .established b id' e ∈ evs → id' = s.id) : Enters t t' evs s.id where
  event := ⟨b, e, hevent⟩
  stored := by
    rw [hsessions, Function.update_self]
    exact congrArg some hid
  stamped := by rw [htimers, hindex, Function.update_self]
  others := by
    intro i hi
    rw [hsessions, htimers, hindex, Function.update_of_ne hi, Function.update_of_ne hi]
    exact ⟨rfl, rfl⟩
  only := honly

theorem ages_handles {packet : Packet} (h : t.Handles B dst_len env packet r t' evs) :
    Keeps t t' evs ∨ ∃ id, Enters t t' evs id := by
  cases h with
  | init v p ek _ hreceives hres =>
    cases hreceives with
    | rejected e _ =>
      cases hres
      exact Or.inl (.of_same rfl rfl nofun)
    | stalled c _ _ =>
      cases hres
      exact Or.inl (.of_same rfl rfl nofun)
    | refused c e _ _ _ =>
      cases hres
      exact Or.inl (.of_same rfl rfl (by simp))
    | answered c kem r' session m cookies _ _ _ _ _ =>
      cases hres
      exact Or.inr ⟨session.id, .of_store rfl rfl rfl rfl (.tail _ (.tail _ (.head _))) (by simp)⟩
  | response v p ct _ hreceives hres =>
    cases hreceives with
    | rejected e =>
      cases hres
      exact Or.inl (.of_same rfl rfl nofun)
    | accepted s is_previous rk sk session _ _ _ _ =>
      obtain ⟨⟨keepalive, session', sealed⟩, hfmt, hres⟩ := Outcome.bind_eq_ok.mp hres
      obtain ⟨rfl, rfl⟩ := Session.format_packet_data_ok hfmt
      cases hres
      refine Or.inr ⟨session.id, .of_store (Session.id_sent B session)
        (slot_mod session.local_index) ?_ ?_ (.head _) (by simp)⟩
      · rw [set_current_session_sessions]
        exact congrArg (fun i => Function.update t.sessions i (some (session.sent B)))
          (slot_mod session.local_index)
      · rw [set_current_session_timers]
        rfl
  | cookie p hres =>
    unfold handle_cookie_reply at hres
    rcases hreply : t.handshake.receive_cookie_reply p with ⟨_ | _, h'⟩
    all_goals
      rw [hreply] at hres
      cases hres
      exact Or.inl (.of_same rfl rfl nofun)
  | data p hreceives =>
    cases hreceives with
    | rejected e => exact Or.inl (.of_same rfl rfl nofun)
    | accepted session plaintext v t₁ hsession _ ht₁ =>
      have hcurrent : t₁.sessions = Function.update t.sessions (slot p.receiver_idx.toNat)
          (some (session.received v)) ∧ t₁.timers.session_timers = t.timers.session_timers := by
        rw [ht₁]
        dsimp only [timer_tick]
        rw [set_current_session_sessions, set_current_session_timers]
        exact ⟨rfl, rfl⟩
      have hvalidate : (t₁.validate_decapsulated_packet plaintext).2.sessions = t₁.sessions ∧
          (t₁.validate_decapsulated_packet plaintext).2.timers.session_timers
            = t₁.timers.session_timers := by
        unfold validate_decapsulated_packet
        split
        · exact ⟨rfl, rfl⟩
        split
        · exact ⟨rfl, rfl⟩
        split
        · exact ⟨rfl, rfl⟩
        · split <;> exact ⟨rfl, rfl⟩
      exact Or.inl (.of_store hsession (Session.id_received ..) (hvalidate.1.trans hcurrent.1)
        (hvalidate.2.trans hcurrent.2) (by simp))

/-- **One operation**: sessions keep their age, or one session enters the ring. -/
theorem step_ages {op : Op} (hstep : t.step B op env = .ok (r, t', evs)) :
    Keeps t t' evs ∨ ∃ id, Enters t t' evs id := by
  cases step_cases hstep with
  | handles packet limiter dst_len _ _ hhandles =>
    rcases ages_handles hhandles with h | ⟨id, h⟩
    · exact Or.inl ⟨h.slots, h.silent⟩
    · exact Or.inr ⟨id, h.event, h.stored, h.stamped, h.others, h.only⟩
  | drops addr datagram dst_len r limiter _ _ _ => exact Or.inl (.of_same rfl rfl nofun)
  | flushes addr dst_len hflush => exact Or.inl (keeps_flushes hflush)
  | encapsulates src dst_len henc => exact Or.inl (keeps_encapsulates henc)
  | updates dst_len hupdate => exact Or.inl (keeps_updates hupdate)
  | starts dst_len force hstart => exact Or.inl (keeps_starts hstart)
  | rekeys priv pub limiter t' hset =>
    obtain ⟨params, _, hset⟩ := Outcome.bind_eq_ok.mp hset
    cases hset
    exact Or.inl ⟨fun _ => Or.inl rfl, nofun⟩
  | shares count nonce_ctr last_reset => exact Or.inl (.of_same rfl rfl nofun)

/-- The last session established in its slot is `id`, in the call `l`. -/
def LastEstablished (tr : List Label) (id : SessionId) (l : Label) : Prop :=
  ∃ tr₁ tr₂, tr = tr₁ ++ l :: tr₂ ∧ (∃ b e, .established b id e ∈ l.events) ∧
    ∀ l' ∈ tr₂, ∀ b id' e, .established b id' e ∈ l'.events → id'.slot ≠ id.slot

/-- Every session in the ring is the last one established in its slot, and
    its timer is not after any clock reading of that call. -/
def Dated (start : Nat) (tr : List Label) (t : Tunn C) : Prop :=
  ∀ i s, t.sessions i = some s → s.id.slot = i ∧ ∃ l, LastEstablished tr s.id l ∧
    ∀ r, start + t.timers.session_timers i ≤ l.env.clock r

theorem LastEstablished.snoc {tr : List Label} {id : SessionId} {l l' : Label}
    (h : LastEstablished tr id l)
    (hother : ∀ b id' e, .established b id' e ∈ l'.events → id'.slot ≠ id.slot) :
    LastEstablished (tr ++ [l']) id l := by
  obtain ⟨tr₁, tr₂, rfl, hevent, hlast⟩ := h
  refine ⟨tr₁, tr₂ ++ [l'], by simp, hevent, fun l'' hl'' => ?_⟩
  rcases List.mem_append.mp hl'' with hl'' | hl''
  · exact hlast l'' hl''
  · obtain rfl := List.mem_singleton.mp hl''
    exact hother

theorem step_dated {start : Nat} {tr : List Label} {l : Label}
    (hnow : ∀ r, start + t.now ≤ l.env.clock r) (h : Dated start tr t)
    (hstep : (tunnel C B).step t l t') : Dated start (tr ++ [l]) t' := by
  intro i s' hs'
  -- A session that was there before keeps its date.
  have hkept : ∀ s, t.sessions i = some s → s'.id = s.id →
      t'.timers.session_timers i = t.timers.session_timers i →
      (∀ b id e, .established b id e ∈ l.events → id.slot ≠ i) →
      s'.id.slot = i ∧ ∃ l', LastEstablished (tr ++ [l]) s'.id l' ∧
        ∀ r, start + t'.timers.session_timers i ≤ l'.env.clock r := by
    intro s hs hid hage hother
    obtain ⟨hslot, l', hlast, hdate⟩ := h i s hs
    rw [hid, hage]
    refine ⟨hslot, l', hlast.snoc ?_, hdate⟩
    rw [hslot]
    exact hother
  rcases step_ages hstep with hkeeps | ⟨id, henters⟩
  · rcases hkeeps.slots i with hnone | ⟨hage, hid⟩
    · rw [hnone] at hs'
      cases hs'
    · rw [hs'] at hid
      obtain ⟨s, hs, hid⟩ := Option.map_eq_some_iff.mp hid.symm
      exact hkept s hs hid.symm hage fun b id e hmem => absurd hmem (hkeeps.silent b id e)
  · by_cases hi : i = id.slot
    · subst hi
      have hstored := henters.stored
      rw [hs'] at hstored
      obtain rfl : s'.id = id := Option.some.inj hstored
      refine ⟨rfl, l, ⟨tr, [], rfl, henters.event, nofun⟩, fun r => ?_⟩
      rw [henters.stamped]
      exact hnow r
    · obtain ⟨hage, hsame⟩ := henters.others i hi
      refine hkept s' (hsame ▸ hs') rfl hage fun b id' e hmem => ?_
      rw [henters.only b id' e hmem]
      exact Ne.symm hi

theorem run_dated {t₀ : Tunn C} {start : Nat} {tr : List Label} (hnew : t₀.IsNew start)
    (hrun : Run (tunnel C B) t₀ tr t) (hclock : Clocked start tr) : Dated start tr t := by
  induction hrun with
  | nil =>
    obtain ⟨_, _, _, _, _, _, _, _, _, rfl⟩ := hnew
    intro i s hs
    cases hs
  | @snoc tr t t' l hrun hstep ih =>
    refine step_dated ?_ (ih hclock.of_append) hstep
    obtain ⟨now, hon, hstart, hnow⟩ := run_onTime hnew hrun hclock.of_append
    intro r
    have hcurrent : t.now ≤ now - t.timers.time_started := hon.current
    have hafter := hclock.after hnow r
    have hbegin := hclock.start l (by simp) r
    rw [hstart] at hcurrent
    omega

/-- **Sessions do not outlive `REJECT_AFTER_TIME`.**  After an update of the
    timers, each session in the ring was established at most that long ago:
    in the call that last established a session in its slot. -/
theorem sessions_expire {t₀ : Tunn C} {start : Nat} {tr : List Label} {l : Label}
    (hnew : t₀.IsNew start) (hrun : Run (tunnel C B) t₀ (tr ++ [l]) t')
    (hclock : Clocked start (tr ++ [l])) (hop : l.op = .update_timers dst_len)
    {i : Fin N_SESSIONS} {s : Session} (hs : t'.sessions i = some s) :
    ∃ l', LastEstablished tr s.id l' ∧ s.id.slot = i ∧
      ∀ r, l.env.clock .update ≤ l'.env.clock r + REJECT_AFTER_TIME := by
  obtain ⟨t, hbefore, hstep⟩ := hrun.last
  obtain ⟨_, env, r, evs⟩ := l
  subst hop
  have hdated := run_dated hnew hbefore hclock.of_append
  obtain ⟨_, _, hstart, _⟩ := run_onTime hnew hbefore hclock.of_append
  have hupdate := update_timers_cases hstep
  -- Only slots that are young enough survive the start of the update.
  have hyoung : ∃ s₀, t.sessions i = some s₀ ∧ s.id = s₀.id ∧
      env.clock .update - start - t.timers.session_timers i ≤ REJECT_AFTER_TIME := by
    have hrefreshed : ∀ {t₁}, t.refresh env = .ok t₁ → ∀ s₁, t₁.sessions i = some s₁ →
        t.sessions i = some s₁ ∧
        env.clock .update - start - t.timers.session_timers i ≤ REJECT_AFTER_TIME := by
      intro t₁ hrefresh s₁ hs₁
      obtain ⟨_, now, rfl, _, _, rfl⟩ := refresh_cases hrefresh
      dsimp only at hs₁
      split at hs₁
      · cases hs₁
      · rename_i hage
        rw [hstart] at hage
        exact ⟨hs₁, Nat.le_of_not_lt hage⟩
    cases hupdate with
    | expired _ hrefresh _ =>
      obtain ⟨hs₀, hage⟩ := hrefreshed hrefresh s hs
      exact ⟨s, hs₀, rfl, hage⟩
    | ticks t₁ cookies hrefresh _ hticks =>
      rcases (keeps_ticks hticks).slots i with hnone | ⟨_, hid⟩
      · rw [hnone] at hs
        cases hs
      · rw [hs] at hid
        obtain ⟨s₁, hs₁, hid⟩ := Option.map_eq_some_iff.mp hid.symm
        obtain ⟨hs₀, hage⟩ := hrefreshed hrefresh s₁ hs₁
        exact ⟨s₁, hs₀, hid.symm, hage⟩
  obtain ⟨s₀, hs₀, hid, hage⟩ := hyoung
  obtain ⟨hslot, l', hlast, hdate⟩ := hdated i s₀ hs₀
  rw [hid]
  refine ⟨l', hlast, hslot, fun r => ?_⟩
  have := hdate r
  show env.clock .update ≤ _
  omega

/-- A session that was established at ten seconds survives an update at a hundred. -/
theorem sessions_expire_young :
    let B := symbolicBuild false
    let op : Op := .handle_verified_packet (.HandshakeInit (symbolicInit 1)) 2048
    ∃ r₁ t₁ evs₁ r₂ t₂ evs₂ s,
      symbolicTunn.step B op (symbolicEnv (10 * SEC)) = .ok (r₁, t₁, evs₁) ∧
      t₁.step B (.update_timers 2048) (symbolicEnv (100 * SEC)) = .ok (r₂, t₂, evs₂) ∧
      t₂.sessions (slot 1) = some s ∧
      ∃ l', LastEstablished [⟨op, symbolicEnv (10 * SEC), r₁, evs₁⟩] s.id l' ∧
        ∀ r, 100 * SEC ≤ l'.env.clock r + REJECT_AFTER_TIME := by
  obtain ⟨⟨r₁, t₁, evs₁⟩, hstep₁, ⟨r₂, t₂, evs₂⟩, hstep₂, s, hs⟩ : ∃ x,
      symbolicTunn.step (symbolicBuild false)
        (.handle_verified_packet (.HandshakeInit (symbolicInit 1)) 2048) (symbolicEnv (10 * SEC))
          = .ok x ∧ ∃ y,
      x.2.1.step (symbolicBuild false) (.update_timers 2048) (symbolicEnv (100 * SEC)) = .ok y ∧
      ∃ s, y.2.1.sessions (slot 1) = some s := ⟨_, rfl, _, rfl, _, rfl⟩
  intro B op
  let l₁ : Label := ⟨op, symbolicEnv (10 * SEC), r₁, evs₁⟩
  let l₂ : Label := ⟨.update_timers 2048, symbolicEnv (100 * SEC), r₂, evs₂⟩
  have hfirst : (tunnel symbolic B).step symbolicTunn l₁ t₁ := hstep₁
  have hsecond : (tunnel symbolic B).step t₁ l₂ t₂ := hstep₂
  have hrun : Run (tunnel symbolic B) symbolicTunn ([l₁] ++ [l₂]) t₂ :=
    .snoc (.snoc .nil hfirst) hsecond
  have hclock : Clocked 0 ([l₁] ++ [l₂]) :=
    ⟨fun _ _ _ => Nat.zero_le _, by simp [l₁, l₂, symbolicEnv], by simp [l₁, l₂, symbolicEnv, SEC]⟩
  have hnew : symbolicTunn.IsNew 0 := ⟨_, _, _, _, _, _, _, _, _, rfl⟩
  obtain ⟨l', hlast, _, hyoung⟩ := sessions_expire hnew hrun hclock rfl hs
  exact ⟨r₁, t₁, evs₁, r₂, t₂, evs₂, s, hstep₁, hstep₂, hs, l', hlast, hyoung⟩

/-! ## Section 3: Abandoned handshakes -/

/-- An own initiation has not been answered. -/
def Outstanding (t : Tunn C) : Prop :=
  ∃ s, t.handshake.state = .InitSent s ∨ t.handshake.previous = .InitSent s

/-- A call gives up an outstanding initiation: it sets the handshake expired. -/
def Abandons (t t' : Tunn C) : Prop :=
  t.Outstanding ∧ t.handshake.is_expired = false ∧ t'.handshake.is_expired = true

/-- When an update of the timers sets the handshake expired. -/
theorem updates_expires_iff (hlive : t.handshake.is_expired = false)
    (h : t.Updates B dst_len env r t' evs) :
    t'.handshake.is_expired = true ↔
      ∃ t₁, t.refresh env = .ok t₁ ∧ t₁.Overdue := by
  -- A handshake that has started is not expired.
  have hstarts : ∀ {t₁ : Tunn C} {force : Bool}, t₁.handshake.is_expired = false →
      t₁.Starts B dst_len force env r t' evs → t'.handshake.is_expired = false := by
    intro t₁ force hlive₁ hstart
    cases hstart with
    | busy _ _ => exact hlive₁
    | no_room _ _ => rwa [cleared_handshake]
    | sent m h' evs _ hcall =>
      rcases Handshake.format_initiation_cases hcall with
        ⟨_, hres, _⟩ | ⟨_, _, _, _, _, rfl, _⟩
      · cases hres
      · rw [initiated_handshake]
        rfl
  have hencapsulates : ∀ {t₁ : Tunn C} {src : Bytes}, t₁.handshake.is_expired = false →
      t₁.Encapsulates B src dst_len env r t' evs → t'.handshake.is_expired = false := by
    intro t₁ src hlive₁ henc
    cases henc with
    | sealed session packet _ => rwa [after_send_handshake]
    | queued _ hstart => exact hstarts (by rwa [queue_packet_handshake]) hstart
  cases h with
  | expired t₁ hrefresh hexpired =>
    obtain ⟨_, _, _, _, _, rfl⟩ := refresh_cases hrefresh
    rw [show Handshake.is_expired _ = _ from hexpired] at hlive
    cases hlive
  | ticks t₁ cookies hrefresh hlive₁ hticks =>
    have hiff : ∀ {b : Bool}, (b = true ↔ t₁.Overdue) →
        (b = true ↔ ∃ t₁, t.refresh env = .ok t₁ ∧ t₁.Overdue) := by
      intro b hb
      rw [hb, hrefresh]
      simp
    refine hiff ?_
    have hno : t'.handshake.is_expired = false → ¬ t₁.Overdue →
        (t'.handshake.is_expired = true ↔ t₁.Overdue) := by
      intro hfalse hnot
      simp [hfalse, hnot]
    cases hticks with
    | expires hdue => exact iff_of_true rfl hdue
    | retransmits s hnot _ _ hstart =>
      refine hno (hstarts ?_ hstart) hnot
      exact hlive₁
    | waits s hnot _ _ => exact hno hlive₁ hnot
    | rekeys want hnot _ hstart =>
      refine hno (hstarts ?_ hstart) hnot
      exact hlive₁
    | keepalive want want' t₂ hnot _ ht₂ henc =>
      have hlive₂ : t₂.handshake.is_expired = false := by
        rcases ht₂ with rfl | rfl <;> exact hlive₁
      rcases henc with henc | ⟨_, rfl, _⟩
      · exact hno (hencapsulates hlive₂ henc) hnot
      · exact hno hlive₂ hnot

/-- A recent attempt is about to be given up because the last keys are old. -/
def HastyExpiry (t : Tunn C) (env : Env) : Prop :=
  t.handshake.is_expired = false ∧ t.Outstanding ∧
    t.timers.timers .TimeSessionEstablished + REJECT_AFTER_TIME * 3
      ≤ env.clock .update - t.timers.time_started ∧
    env.clock .update - t.timers.time_started
      < t.timers.timers .TimeLastHandshakeStarted + REKEY_ATTEMPT_TIME

/-- **When an attempt is given up.**  An update that gives up an outstanding
    initiation does so `REKEY_ATTEMPT_TIME` after the attempt started, except
    if the last session is older than three times `REJECT_AFTER_TIME` while
    the attempt is younger. -/
theorem abandons_late_iff (hupdate : t.update_timers B dst_len env = .ok (r, t', evs)) :
    (t.Abandons t' → t.timers.timers .TimeLastHandshakeStarted + REKEY_ATTEMPT_TIME
      ≤ env.clock .update - t.timers.time_started) ↔ ¬ t.HastyExpiry env := by
  have hupdates := update_timers_cases hupdate
  have hrefreshed : ∀ {t₁}, t.refresh env = .ok t₁ →
      t₁.now = env.clock .update - t.timers.time_started ∧ t₁.handshake = t.handshake ∧
      t₁.timers.timers .TimeSessionEstablished = t.timers.timers .TimeSessionEstablished ∧
      t₁.timers.timers .TimeLastHandshakeStarted = t.timers.timers .TimeLastHandshakeStarted := by
    intro t₁ hrefresh
    obtain ⟨_, _, rfl, _, _, rfl⟩ := refresh_cases hrefresh
    exact ⟨rfl, rfl, rfl, rfl⟩
  constructor
  · rintro hlate ⟨hlive, hout, hold, hrecent⟩
    have hexpires : t'.handshake.is_expired = true := by
      refine (updates_expires_iff hlive hupdates).mpr ?_
      obtain ⟨t₁, hrefresh⟩ : ∃ t₁, t.refresh env = .ok t₁ := by
        cases hupdates with
        | expired t₁ hrefresh _ => exact ⟨_, hrefresh⟩
        | ticks t₁ cookies hrefresh _ _ => exact ⟨t₁, hrefresh⟩
      obtain ⟨hnow, _, hestablished, _⟩ := hrefreshed hrefresh
      refine ⟨t₁, hrefresh, Or.inl ?_⟩
      rw [hnow, hestablished]
      omega
    have := hlate ⟨hout, hlive, hexpires⟩
    omega
  · rintro hnot ⟨hout, hlive, hexpired⟩
    obtain ⟨t₁, hrefresh, hdue⟩ := (updates_expires_iff hlive hupdates).mp hexpired
    obtain ⟨hnow, hsame, hestablished, hstarted⟩ := hrefreshed hrefresh
    unfold Overdue at hdue
    rw [hnow, hestablished, hstarted] at hdue
    have hattempt : 0 < REKEY_ATTEMPT_TIME := by decide
    have hreject : 0 < REJECT_AFTER_TIME := by decide
    by_contra hearly
    refine hnot ⟨hlive, hout, ?_, by omega⟩
    rcases hdue with hold | ⟨_, hlong⟩
    · omega
    · omega

/-- An attempt without an answer is given up after ninety seconds. -/
theorem abandons_late_iff_ninety :
    let B := symbolicBuild false
    ∃ r₁ t₁ evs₁ r₂ t₂ evs₂,
      symbolicTunn.step B (.encapsulate [1] 2048) (symbolicEnv 0) = .ok (r₁, t₁, evs₁) ∧
      t₁.update_timers B 2048 (symbolicEnv (90 * SEC)) = .ok (r₂, t₂, evs₂) ∧ t₁.Abandons t₂ ∧
      ¬ t₁.HastyExpiry (symbolicEnv (90 * SEC)) := by
  obtain ⟨⟨r₁, t₁, evs₁⟩, hstep, ⟨r₂, t₂, evs₂⟩, hupdate, habandons, hlate⟩ : ∃ x,
      symbolicTunn.step (symbolicBuild false) (.encapsulate [1] 2048) (symbolicEnv 0) = .ok x ∧ ∃ y,
      x.2.1.update_timers (symbolicBuild false) 2048 (symbolicEnv (90 * SEC)) = .ok y ∧
      x.2.1.Abandons y.2.1 ∧
      x.2.1.timers.timers .TimeLastHandshakeStarted + REKEY_ATTEMPT_TIME
        ≤ (symbolicEnv (90 * SEC)).clock .update - x.2.1.timers.time_started :=
    ⟨_, rfl, _, rfl, ⟨⟨_, Or.inl rfl⟩, rfl, rfl⟩, by decide⟩
  exact ⟨r₁, t₁, evs₁, r₂, t₂, evs₂, hstep, hupdate, habandons,
    (abandons_late_iff hupdate).mp fun _ => hlate⟩

/-- A tunnel that was idle for nearly nine minutes sends an initiation, and gives it up with the
    packet it was for a second later. -/
theorem abandons_after_one_second :
    let B := symbolicBuild false
    ∃ r₁ t₁ evs₁ r₂ t₂ evs₂ t₃,
      symbolicTunn.step B (.update_timers 2048) (symbolicEnv (539 * SEC)) = .ok (r₁, t₁, evs₁) ∧
      t₁.step B (.encapsulate [1] 2048) (symbolicEnv (539 * SEC)) = .ok (r₂, t₂, evs₂) ∧
      t₂.update_timers B 2048 (symbolicEnv (540 * SEC)) = .ok (.Err .ConnectionExpired, t₃, []) ∧
      t₂.Abandons t₃ ∧ t₂.packet_queue = [[1]] ∧ t₃.packet_queue = [] ∧
      t₂.timers.timers .TimeLastHandshakeStarted = 539 * SEC ∧
      ¬ (t₂.timers.timers .TimeLastHandshakeStarted + REKEY_ATTEMPT_TIME ≤ 540 * SEC) := by
  obtain ⟨⟨r₁, t₁, evs₁⟩, hstep₁, ⟨r₂, t₂, evs₂⟩, hstep₂, ⟨r₃, t₃, evs₃⟩, hupdate, hrest⟩ : ∃ x,
      symbolicTunn.step (symbolicBuild false) (.update_timers 2048) (symbolicEnv (539 * SEC))
        = .ok x ∧ ∃ y,
      x.2.1.step (symbolicBuild false) (.encapsulate [1] 2048) (symbolicEnv (539 * SEC))
        = .ok y ∧ ∃ z,
      y.2.1.update_timers (symbolicBuild false) 2048 (symbolicEnv (540 * SEC)) = .ok z ∧
      z.1 = .Err .ConnectionExpired ∧ z.2.2 = [] ∧ y.2.1.Abandons z.2.1 ∧
      y.2.1.packet_queue = [[1]] ∧ z.2.1.packet_queue = [] ∧
      y.2.1.timers.timers .TimeLastHandshakeStarted = 539 * SEC :=
    ⟨_, rfl, _, rfl, _, rfl, rfl, rfl, ⟨⟨_, Or.inl rfl⟩, rfl, rfl⟩, rfl, rfl, rfl⟩
  obtain ⟨rfl, rfl, habandons, hqueue, hempty, hstarted⟩ := hrest
  refine ⟨r₁, t₁, evs₁, r₂, t₂, evs₂, t₃, hstep₁, hstep₂, hupdate, habandons, hqueue, hempty,
    hstarted, ?_⟩
  rw [show t₂.timers.timers .TimeLastHandshakeStarted = 539 * SEC from hstarted]
  decide

end Tunn

end PqBoringtun
