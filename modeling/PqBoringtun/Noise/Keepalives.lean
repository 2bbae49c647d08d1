import PqBoringtun.Noise.Delivery
import PqBoringtun.Noise.Encoding

/-! # Passive keepalives

    A tunnel that got data and has sent nothing back for a while sends an
    empty packet.  Empty packets are no data, so two tunnels cannot keep each
    other sending them.

    A tunnel owes an answer while its last data came in after the last packet
    it sent.  Only data makes it owe one, and a keepalive, like any packet
    sent, settles it; so each keepalive is paid for by data.

    * Section 1: which updates of the timers send a keepalive.
    * Section 2: with enough space an initiation of the peer does not stay in
      the handshake, so a keepalive without a session starts a handshake.
    * Section 3: what is owed.
    * Section 4: runs of one tunnel and of two
      (`Tunn.keepalives_bounded`).
-/

namespace PqBoringtun

variable {C : Crypto} {B : Build}

/-! ## Section 1: Keepalives -/

namespace Tunn

variable {t t' t₁ : Tunn C} {env : Env} {dst_len : Nat} {r : TunnResult} {evs : List Event}

/-- The tunnel whose `encapsulate` an update of the timers passes an empty packet to, if it does:
    the conditions of `update_timers` up to this call. -/
def keepalive_due (t : Tunn C) (env : Env) : Outcome (Option (Tunn C)) := do
  let t ← t.refresh env
  let now := t.timers.timers .TimeCurrent
  if t.handshake.is_expired then return none
  else
    let t ← t.expire_cookie now
    if ← reached now (t.timers.timers .TimeSessionEstablished) (REJECT_AFTER_TIME * 3) then
      return none
    else
      match t.handshake.timer with
      | some _ => return none
      | none =>
        let (required, t) ← t.handshake_required now
        if required then return none
        else
          let (required, t) ← t.keepalive_required now
          if required then return some t
          else return none

/-- **The conditions are those of `update_timers`.** -/
theorem update_timers_of_due (h : t.keepalive_due env = .ok (some t₁)) :
    t.update_timers B dst_len env = t₁.encapsulate B [] dst_len env := by
  unfold keepalive_due at h
  unfold update_timers
  obtain ⟨t₂, hrefresh, h⟩ := Outcome.bind_eq_ok.mp h
  rw [hrefresh, Outcome.ok_bind]
  dsimp only at h ⊢
  split at h
  · cases h
  rename_i hlive
  rw [if_neg hlive]
  obtain ⟨t₃, hcookie, h⟩ := Outcome.bind_eq_ok.mp h
  rw [hcookie, Outcome.ok_bind]
  obtain ⟨expired, hexpired, h⟩ := Outcome.bind_eq_ok.mp h
  rw [hexpired, Outcome.ok_bind]
  split at h
  · cases h
  rename_i hyoung
  rw [if_neg hyoung]
  cases htimer : t₃.handshake.timer with
  | some s =>
    rw [htimer] at h
    cases h
  | none =>
    rw [htimer] at h
    obtain ⟨⟨required, t₄⟩, hrekey, h⟩ := Outcome.bind_eq_ok.mp h
    dsimp only at h ⊢
    rw [hrekey, Outcome.ok_bind]
    dsimp only
    split at h
    · cases h
    rename_i hnone
    rw [if_neg hnone]
    obtain ⟨⟨required', t₅⟩, hkeepalive, h⟩ := Outcome.bind_eq_ok.mp h
    rw [hkeepalive, Outcome.ok_bind]
    dsimp only at h ⊢
    split at h
    · rename_i hdue
      cases h
      rw [if_pos hdue]
    · cases h

/-- This call passes an empty packet to `encapsulate`. -/
def passes_keepalive (t : Tunn C) (l : Label) : Bool :=
  match l.op with
  | .update_timers _ =>
    match t.keepalive_due l.env with
    | .ok (some _) => true
    | _ => false
  | _ => false

/-- How many empty packets the updates of the timers pass to `encapsulate` along the calls. -/
def keepalives (B : Build) : Tunn C → List Label → Nat
  | _, [] => 0
  | t, l :: tr =>
    (if t.passes_keepalive l then 1 else 0) +
      match t.step B l.op l.env with
      | .ok (_, t', _) => keepalives B t' tr
      | .panic _ => 0

theorem keepalives_append {tr : List Label} (hrun : Run (tunnel C B) t tr t') (tr' : List Label) :
    keepalives B t (tr ++ tr') = keepalives B t tr + keepalives B t' tr' := by
  induction hrun generalizing tr' with
  | nil => simp [keepalives]
  | @snoc tr s s' l _ hstep ih =>
    have hstep : s.step B l.op l.env = .ok (l.result, s', l.events) := hstep
    rw [List.append_assoc, ih, ih, List.singleton_append]
    simp only [keepalives, hstep]
    omega

theorem keepalives_snoc {tr : List Label} (hrun : Run (tunnel C B) t tr t') {l : Label}
    (hstep : (tunnel C B).step t' l t₁) :
    keepalives B t (tr ++ [l])
      = keepalives B t tr + if t'.passes_keepalive l then 1 else 0 := by
  have hstep : t'.step B l.op l.env = .ok (l.result, t₁, l.events) := hstep
  rw [keepalives_append hrun]
  simp [keepalives, hstep]

end Tunn

/-! ## Section 2: Space -/

/-- The buffer has room for the handshake messages of the build. -/
def Op.Roomy (B : Build) : Op → Prop
  | .decapsulate _ _ dst_len => B.variant.init_size ≤ dst_len
  | .handle_verified_packet packet dst_len =>
    (packet.is_pq = true → B.pq = true) ∧ B.variant.init_size ≤ dst_len
  | .update_timers dst_len => B.variant.init_size ≤ dst_len
  | _ => True

/-- PQ packets are packets of a PQ build. -/
theorem parse_is_pq {datagram : Bytes} {packet : Packet}
    (h : parse_incoming_packet B datagram = .ok packet) : packet.is_pq = true → B.pq = true := by
  unfold parse_incoming_packet at h
  dsimp only at h
  intro hpq
  by_contra hclassical
  simp only [hclassical, false_and, dite_false] at h
  repeat' split at h
  all_goals cases h
  all_goals cases hpq

/-- A response is not larger than an initiation of the build. -/
theorem resp_size_le {packet : Packet} {v : Variant} {p : HandshakeInit} {ek : Option Bytes}
    (hpq : packet.is_pq = true → B.pq = true) (hinit : packet.initiation? = some (v, p, ek)) :
    v.resp_size ≤ B.variant.init_size := by
  cases packet with
  | HandshakeInit p =>
    cases hinit
    unfold Build.variant
    split <;> decide
  | PqHandshakeInit p =>
    cases hinit
    unfold Build.variant
    rw [hpq rfl]
    decide
  | _ => cases hinit

/-- No initiation of the peer waits for its response. -/
def Handshake.Settled (h : Handshake C) : Prop :=
  ∀ hash chaining_key ephemeral index ek, h.state ≠
    .InitReceived hash chaining_key ephemeral index ek

theorem Handshake.Settled.of_state {h h' : Handshake C} (hs : h.Settled)
    (hstate : h'.state = h.state) : h'.Settled := by
  unfold Settled
  rw [hstate]
  exact hs

namespace Tunn

variable {t t' : Tunn C} {env : Env} {dst_len : Nat} {r : TunnResult} {evs : List Event}

theorem settled_starts {force : Bool} (h : t.Starts B dst_len force env r t' evs)
    (hs : t.handshake.Settled) : t'.handshake.Settled := by
  cases h with
  | busy _ _ => exact hs
  | no_room _ _ =>
    rw [cleared_handshake]
    exact hs
  | sent m h' evs _ hcall =>
    rw [initiated_handshake]
    rcases Handshake.format_initiation_cases hcall with ⟨_, hres, _⟩ | ⟨_, _, _, _, _, rfl, _⟩
    · cases hres
    · intro _ _ _ _ _ hstate
      cases hstate

theorem settled_encapsulates {src : Bytes} (h : t.Encapsulates B src dst_len env r t' evs)
    (hs : t.handshake.Settled) : t'.handshake.Settled := by
  cases h with
  | sealed session packet _ _ =>
    rw [after_send_handshake]
    exact hs
  | queued _ hstart =>
    refine settled_starts hstart ?_
    rw [queue_packet_handshake]
    exact hs

theorem settled_flushes (h : t.Flushes B dst_len env r t' evs) (hs : t.handshake.Settled) :
    t'.handshake.Settled := by
  cases h with
  | empty _ => exact hs
  | failed packet rest e t₁ evs _ henc =>
    rw [requeue_packet_handshake]
    exact settled_encapsulates henc hs
  | passed packet rest _ _ henc => exact settled_encapsulates henc hs

theorem settled_handles {packet : Packet} (h : t.Handles B dst_len env packet r t' evs)
    (hpq : packet.is_pq = true → B.pq = true) (hroom : B.variant.init_size ≤ dst_len)
    (hs : t.handshake.Settled) : t'.handshake.Settled := by
  have hnone : ∀ {h' : Handshake C}, h'.state = .None → h'.Settled := by
    intro h' hnone _ _ _ _ _ hstate
    rw [hnone] at hstate
    cases hstate
  cases h with
  | init v p ek hinit hreceives hres =>
    cases hreceives with
    | rejected e hc =>
      cases hres
      exact hs
    | stalled c hc hdst =>
      -- There is room for the response.
      exact absurd hdst (Nat.not_lt.mpr ((resp_size_le hpq hinit).trans hroom))
    | refused c e hc hdst hkem =>
      cases hres
      exact hnone rfl
    | answered c kem r session m cookies hc hdst hkem hr hsession hm =>
      cases hres
      exact hnone rfl
  | response v p ct _ hreceives hres =>
    cases hreceives with
    | rejected e =>
      cases hres
      exact hs
    | accepted s is_previous rk sk session hslot htype hkeys hsession =>
      obtain ⟨⟨keepalive, session', sealed⟩, _, hres⟩ := Outcome.bind_eq_ok.mp hres
      cases hres
      rw [set_current_session_handshake]
      intro a b c d e hstate
      cases is_previous with
      | true => exact hs a b c d e hstate
      | false => cases hstate
  | cookie p hres =>
    obtain ⟨hview, rfl⟩ := view_handle_cookie_reply hres
    exact hs.of_state (congrArg View.state hview)
  | data p hreceives =>
    cases hreceives with
    | rejected e => exact hs
    | accepted session plaintext v t₁ _ _ ht₁ =>
      have hview := view_validate_decapsulated_packet t₁ plaintext
      have hsame : t₁.handshake = t.handshake := by
        rw [ht₁]
        show (Tunn.set_current_session _ _).handshake = _
        rw [set_current_session_handshake]
        rfl
      exact hs.of_state ((congrArg View.state hview).trans (congrArg Handshake.state hsame))

theorem settled_updates (h : t.Updates B dst_len env r t' evs) (hs : t.handshake.Settled) :
    t'.handshake.Settled := by
  have hrefreshed : ∀ {t₁}, t.refresh env = .ok t₁ → t₁.handshake = t.handshake := by
    intro t₁ hrefresh
    obtain ⟨_, _, _, _, _, rfl⟩ := refresh_cases hrefresh
    rfl
  cases h with
  | expired t₁ hrefresh _ =>
    rw [hrefreshed hrefresh]
    exact hs
  | ticks t₁ cookies hrefresh _ hticks =>
    have hs₁ : { t₁.handshake with cookies := cookies }.Settled := by
      rw [hrefreshed hrefresh]
      exact hs
    cases hticks with
    | expires _ =>
      intro _ _ _ _ _ hstate
      cases hstate
    | retransmits s _ _ _ hstart => exact settled_starts hstart hs₁
    | waits s _ _ _ => exact hs₁
    | rekeys want _ _ hstart => exact settled_starts hstart hs₁
    | keepalive want want' t₂ _ _ ht₂ henc =>
      have hs₂ : t₂.handshake.Settled := by
        rcases ht₂ with rfl | rfl
        · exact hs₁
        · exact hs₁
      rcases henc with henc | ⟨_, rfl, _⟩
      · exact settled_encapsulates henc hs₂
      · exact hs₂

/-- **With enough space no initiation of the peer stays in the handshake.** -/
theorem settled_step {op : Op} (hroomy : op.Roomy B)
    (hstep : t.step B op env = .ok (r, t', evs)) (hs : t.handshake.Settled) :
    t'.handshake.Settled := by
  cases op with
  | encapsulate src dst_len => exact settled_encapsulates (encapsulate_cases hstep) hs
  | decapsulate addr datagram dst_len =>
    cases decapsulate_cases hstep with
    | flush _ hflush => exact settled_flushes hflush hs
    | verified packet limiter _ hverify hhandles =>
      have hpq := parse_is_pq (RateLimiter.verify_packet_parse hverify)
      exact settled_handles hhandles hpq hroomy hs
    | dropped limiter r _ _ _ => exact hs
  | handle_verified_packet packet dst_len =>
    exact settled_handles (handle_verified_packet_cases hstep) hroomy.1 hroomy.2 hs
  | update_timers dst_len => exact settled_updates (update_timers_cases hstep) hs
  | format_handshake_initiation dst_len force =>
    injection hstep with hstep
    exact settled_starts (format_handshake_initiation_cases hstep) hs
  | set_static_private priv pub limiter =>
    cases step_cases hstep with
    | handles _ _ _ hreceived _ _ => cases hreceived
    | rekeys _ _ _ _ hset =>
      obtain ⟨params, _, _, hview⟩ := view_set_static_private hset
      exact hs.of_state (congrArg View.state hview)
  | shared count nonce_ctr last_reset =>
    cases hstep
    exact hs

end Tunn

/-! ## Section 3: What is owed -/

namespace Timers

variable {T : Timers} {now : Nat}

/-- Data came in after the last packet was sent. -/
def Owed (T : Timers) : Prop := T.timers .TimeLastPacketSent < T.timers .TimeLastDataPacketReceived

instance (T : Timers) : Decidable T.Owed := inferInstanceAs (Decidable (_ < _))

theorem timer_tick_timers (n : TimerName) :
    (T.timer_tick n).timers = Function.update T.timers n (T.timers .TimeCurrent) := by
  cases n <;> rfl

/-- A packet that is sent settles what is owed. -/
theorem OnTime.sent_not_owed (h : T.OnTime now) : ¬ (T.timer_tick .TimeLastPacketSent).Owed := by
  unfold Owed
  rw [timer_tick_timers, Function.update_self, Function.update_of_ne (by decide)]
  exact Nat.not_lt.mpr (h.timers _)

/-- Only data makes a tunnel owe an answer. -/
theorem OnTime.owed_of_tick (h : T.OnTime now) {n : TimerName}
    (hn : n ≠ .TimeLastDataPacketReceived)
    (howed : (T.timer_tick n).Owed) : T.Owed := by
  by_cases hsent : n = .TimeLastPacketSent
  · subst hsent
    exact absurd howed h.sent_not_owed
  · unfold Owed at howed ⊢
    rwa [timer_tick_timers, Function.update_of_ne (Ne.symm hsent),
      Function.update_of_ne (Ne.symm hn)] at howed

end Timers

/-- On time, without persistent keepalives, and owing at most what `cause` says. -/
def Owes (now : Nat) (cause : Prop) (T : Timers) (_ : RateLimiter) : Prop :=
  T.OnTime now ∧ T.persistent_keepalive = 0 ∧ (T.Owed → cause)

theorem steady_owes (env : Env) (cause : Prop) : Steady env (Owes (env.clock .clear) cause) where
  tick := by
    rintro T r n hn ⟨hon, hpersistent, hcause⟩
    refine ⟨hon.tick n, ?_, fun howed => hcause (hon.owed_of_tick hn howed)⟩
    cases n <;> exact hpersistent
  established := by
    rintro T r b i ⟨hon, hpersistent, hcause⟩
    exact ⟨hon.established b i, hpersistent, fun howed =>
      hcause (hon.owed_of_tick (n := .TimeSessionEstablished) (by decide) howed)⟩
  clear := by
    rintro T r ⟨hon, hpersistent, _⟩
    exact ⟨hon.clear, hpersistent, fun howed => absurd howed (Nat.lt_irrefl _)⟩
  want := by
    rintro T r h k ⟨hon, hpersistent, hcause⟩
    exact ⟨⟨hon.timers, hon.session_timers, hon.current⟩, hpersistent, hcause⟩
  load := fun _ _ _ h => h

namespace Tunn

variable {t t' t₁ : Tunn C} {env : Env} {dst_len now : Nat} {r : TunnResult} {evs : List Event}

/-- Reading the time does not change what is owed. -/
theorem refresh_owes (hon : t.timers.OnTime now) (hnow : now ≤ env.clock .update)
    (hpersistent : t.timers.persistent_keepalive = 0) (hcall : t.refresh env = .ok t₁) :
    Owes (env.clock .update) t.timers.Owed t₁.timers t₁.rate_limiter := by
  have htimed : Timed t.timers.time_started now t.rate_limiter.mac1_key t.timers t.rate_limiter :=
    ⟨hon, rfl, rfl⟩
  have htimed := timed_refresh htimed hnow hcall
  refine ⟨htimed.1, ?_, ?_⟩
  · obtain ⟨_, _, _, _, _, rfl⟩ := refresh_cases hcall
    exact hpersistent
  · obtain ⟨_, _, _, _, _, rfl⟩ := refresh_cases hcall
    intro howed
    unfold Timers.Owed at howed
    dsimp only at howed
    rwa [Function.update_of_ne (by decide), Function.update_of_ne (by decide)] at howed

/-- **A call makes the tunnel owe an answer only if it hands data to the interface.** -/
theorem step_owes {op : Op} (hon : t.timers.OnTime now) (hnow : ∀ r, now ≤ env.clock r)
    (horder : env.clock .update ≤ env.clock .clear)
    (hpersistent : t.timers.persistent_keepalive = 0)
    (hstep : t.step B op env = .ok (r, t', evs)) :
    Owes (env.clock .clear) (t.timers.Owed ∨ r.toTunnel?.isSome) t'.timers t'.rate_limiter := by
  by_cases hop : ∃ priv pub lim, op = .set_static_private priv pub lim
  · obtain ⟨priv, pub, lim, rfl⟩ := hop
    cases step_cases hstep with
    | handles _ _ _ hreceived _ _ => cases hreceived
    | rekeys _ _ _ _ hset =>
      obtain ⟨params, _, hset⟩ := Outcome.bind_eq_ok.mp hset
      cases hset
      have hon := hon.mono (hnow .clear)
      exact ⟨⟨hon.timers, hon.session_timers, hon.current⟩, hpersistent, Or.inl⟩
  · refine stable_step (steady_owes env _) (fun priv pub lim heq => hop ⟨priv, pub, lim, heq⟩)
      hstep ?_ ?_ ⟨hon.mono (hnow .clear), hpersistent, Or.inl⟩
    · rintro hsome T l ⟨hon', hpersistent', _⟩
      exact ⟨hon'.tick _, hpersistent', fun _ => Or.inr hsome⟩
    · intro t₁ hrefresh
      obtain ⟨hon₁, hpersistent₁, howed₁⟩ := refresh_owes hon (hnow .update) hpersistent hrefresh
      exact ⟨hon₁.mono horder, hpersistent₁, fun howed => Or.inl (howed₁ howed)⟩

/-- Without persistent keepalives, one is required only if an answer is owed. -/
theorem keepalive_required_owed {time : Nat} (h : t.keepalive_required time = .ok (true, t'))
    (hpersistent : t.timers.persistent_keepalive = 0) :
    t.timers.Owed ∧ ∃ want, t' = { t with timers := { t.timers with want_keepalive := want } } := by
  obtain ⟨silent, hsilent, h⟩ := Outcome.bind_eq_ok.mp h
  obtain ⟨persistent, hreached, h⟩ := Outcome.bind_eq_ok.mp h
  obtain rfl : persistent = false := by
    have hzero : (if silent then { t with timers := { t.timers with want_keepalive := false } }
        else t).timers.persistent_keepalive = 0 := by
      split <;> exact hpersistent
    unfold reached_if at hreached
    rw [hzero] at hreached
    cases hreached
    rfl
  cases silent with
  | false =>
    obtain ⟨hfalse, _⟩ := Prod.mk.inj (Outcome.ok.inj h)
    cases hfalse
  | true =>
    refine ⟨?_, ⟨_, (Prod.mk.inj (Outcome.ok.inj h)).2.symm⟩⟩
    unfold reached_if at hsilent
    split at hsilent
    · rename_i howed
      exact of_decide_eq_true howed
    · cases hsilent

/-- **When a keepalive is due, an answer is owed** and no initiation is outstanding. -/
theorem keepalive_due_cases (hpersistent : t.timers.persistent_keepalive = 0)
    (h : t.keepalive_due env = .ok (some t₁)) :
    ∃ t₂ cookies want want', t.refresh env = .ok t₂ ∧ t₂.timers.Owed ∧
      (∀ s, t₂.handshake.state ≠ .InitSent s) ∧
      t₁ = { t₂ with
        handshake := { t₂.handshake with cookies := cookies }
        timers := { t₂.timers with want_handshake := want, want_keepalive := want' } } := by
  obtain ⟨t₂, hrefresh, h⟩ := Outcome.bind_eq_ok.mp h
  have hpersistent₂ : t₂.timers.persistent_keepalive = 0 := by
    obtain ⟨_, _, _, _, _, rfl⟩ := refresh_cases hrefresh
    exact hpersistent
  dsimp only at h
  split at h
  · cases h
  obtain ⟨t₃, hcookie, h⟩ := Outcome.bind_eq_ok.mp h
  obtain ⟨cookies, rfl⟩ := expire_cookie_cases hcookie
  obtain ⟨expired, _, h⟩ := Outcome.bind_eq_ok.mp h
  split at h
  · cases h
  split at h
  · cases h
  rename_i htimer
  obtain ⟨⟨required, t₄⟩, hrekey, h⟩ := Outcome.bind_eq_ok.mp h
  obtain ⟨want, rfl⟩ := handshake_required_cases hrekey
  dsimp only at h
  split at h
  · cases h
  obtain ⟨⟨required', t₅⟩, hkeepalive, h⟩ := Outcome.bind_eq_ok.mp h
  dsimp only at h
  split at h
  · rename_i hdue
    subst hdue
    obtain ⟨howed, want', rfl⟩ := keepalive_required_owed hkeepalive hpersistent₂
    cases h
    exact ⟨t₂, cookies, want, want', hrefresh, howed, timer_none htimer, rfl⟩
  · cases h

/-- **A keepalive settles what is owed.**  Without a session it starts a handshake. -/
theorem keepalive_settles (hon : t.timers.OnTime (env.clock .clear))
    (hroom : B.variant.init_size ≤ dst_len) (hs : t.handshake.Settled)
    (hidle : ∀ s, t.handshake.state ≠ .InitSent s)
    (henc : t.Encapsulates B [] dst_len env r t' evs) : ¬ t'.timers.Owed := by
  cases henc with
  | sealed session packet _ _ => exact hon.sent_not_owed
  | queued _ hstart =>
    have hqueued : (t.queue_packet []).timers.OnTime (env.clock .clear) :=
      stable_queue_packet (Q := fun T _ => T.OnTime (env.clock .clear)) [] hon
    cases hstart with
    | busy hbusy _ =>
      rw [queue_packet_handshake] at hbusy
      unfold Handshake.is_in_progress at hbusy
      cases hstate : t.handshake.state with
      | None => simp [hstate] at hbusy
      | Expired => simp [hstate] at hbusy
      | InitSent s => exact absurd hstate (hidle s)
      | InitReceived hash chaining_key ephemeral index ek => exact absurd hstate (hs _ _ _ _ _)
    | no_room _ hdst => exact absurd hdst (Nat.not_lt.mpr hroom)
    | sent m h' evs _ _ =>
      have hcleared : ((t.queue_packet []).cleared env).timers.OnTime (env.clock .clear) := by
        unfold cleared
        split
        · exact hqueued.clear
        · exact hqueued
      unfold initiated
      dsimp only
      split
      · exact hcleared.sent_not_owed
      · exact (hcleared.tick .TimeLastHandshakeStarted).sent_not_owed

end Tunn

/-! ## Section 4: Runs -/

/-- How many data packets were accepted and handed to the interface. -/
def accepted (tr : List Label) : Nat := tr.countP fun l => l.result.toTunnel?.isSome

/-- The packet of the interface that is passed to `encapsulate`; it is not empty. -/
def Op.data? : Op → Option Bytes
  | .encapsulate src _ => if src = [] then none else some src
  | _ => none

/-- The packets of the interface that were passed to `encapsulate`. -/
def passed (tr : List Label) : List Bytes := tr.filterMap fun l => l.op.data?

/-- A tunnel without persistent keepalives, from its creation on, with a clock that does not go
    back and buffers that are large enough. -/
structure Tunn.Passive (B : Build) (start : Nat) (t₀ : Tunn C) (tr : List Label) : Prop where
  new : t₀.IsNew start
  persistent : t₀.timers.persistent_keepalive = 0
  clock : Clocked start tr
  roomy : ∀ l ∈ tr, l.op.Roomy B

namespace Tunn

variable {t t' t₀ : Tunn C} {l : Label} {tr : List Label} {now start : Nat}

/-- **A keepalive pays off what is owed**, and only accepted data makes the tunnel owe more. -/
theorem keepalive_step (hon : t.timers.OnTime now) (hnow : ∀ r, now ≤ l.env.clock r)
    (horder : l.env.clock .update ≤ l.env.clock .clear)
    (hpersistent : t.timers.persistent_keepalive = 0) (hs : t.handshake.Settled)
    (hroomy : l.op.Roomy B) (hstep : (tunnel C B).step t l t') :
    (if t.passes_keepalive l then 1 else 0) + (if t'.timers.Owed then 1 else 0)
      ≤ (if t.timers.Owed then 1 else 0) + if l.result.toTunnel?.isSome then 1 else 0 := by
  obtain ⟨op, env, r, evs⟩ := l
  have hstep : t.step B op env = .ok (r, t', evs) := hstep
  obtain ⟨_, _, hcause⟩ := step_owes hon hnow horder hpersistent hstep
  by_cases hpasses : t.passes_keepalive ⟨op, env, r, evs⟩
  · have hpasses' := hpasses
    unfold passes_keepalive at hpasses'
    cases op with
    | update_timers dst_len =>
      dsimp only at hpasses'
      split at hpasses'
      · rename_i t₁ hdue
        obtain ⟨t₂, cookies, want, want', hrefresh, howed, hidle, rfl⟩ :=
          keepalive_due_cases hpersistent hdue
        obtain ⟨hon₂, _, howed₂⟩ := refresh_owes hon (hnow .update) hpersistent hrefresh
        have hon₂ := hon₂.mono horder
        have hs₂ : t₂.handshake.Settled := by
          obtain ⟨_, _, _, _, _, rfl⟩ := refresh_cases hrefresh
          exact hs
        have henc := encapsulate_cases ((update_timers_of_due hdue).symm.trans hstep)
        have hsettled : ¬ t'.timers.Owed := by
          refine keepalive_settles ?_ hroomy ?_ ?_ henc
          · exact ⟨hon₂.timers, hon₂.session_timers, hon₂.current⟩
          · exact hs₂
          · exact hidle
        rw [if_pos hpasses, if_neg hsettled, if_pos (howed₂ howed)]
        omega
      · cases hpasses'
    | _ => cases hpasses'
  · rw [if_neg hpasses]
    by_cases howed : t'.timers.Owed
    · rcases hcause howed with howed' | hsome
      · rw [if_pos howed, if_pos howed']
        omega
      · rw [if_pos howed, if_pos hsome]
        omega
    · rw [if_neg howed]
      omega

theorem Passive.of_append {tr' : List Label} (h : t₀.Passive B start (tr ++ tr')) :
    t₀.Passive B start tr :=
  ⟨h.new, h.persistent, h.clock.of_append, fun l hl => h.roomy l (List.mem_append_left _ hl)⟩

/-- Along a run the keepalives, and the answer that is owed, were paid for by accepted data. -/
theorem run_paid (hpassive : t₀.Passive B start tr) (hrun : Run (tunnel C B) t₀ tr t) :
    t.timers.persistent_keepalive = 0 ∧ t.handshake.Settled ∧
      keepalives B t₀ tr + (if t.timers.Owed then 1 else 0) ≤ accepted tr := by
  induction hrun with
  | nil =>
    refine ⟨hpassive.persistent, ?_, ?_⟩
    · obtain ⟨_, _, _, _, _, _, _, _, _, rfl⟩ := hpassive.new
      intro _ _ _ _ _ hstate
      cases hstate
    · obtain ⟨_, _, _, _, _, _, _, _, _, rfl⟩ := hpassive.new
      exact Nat.le_refl 0
  | @snoc tr s s' l hrun hstep ih =>
    obtain ⟨hpersistent, hs, hpaid⟩ := ih hpassive.of_append
    have hmem : l ∈ tr ++ [l] := by simp
    obtain ⟨now, hon, _, hnow⟩ := run_onTime hpassive.new hrun hpassive.clock.of_append
    have hnow := hpassive.clock.after hnow
    have horder := hpassive.clock.order l hmem
    have hroomy := hpassive.roomy l hmem
    have hstep' : s.step B l.op l.env = .ok (l.result, s', l.events) := hstep
    refine ⟨(step_owes hon hnow horder hpersistent hstep').2.1, settled_step hroomy hstep' hs, ?_⟩
    have hone := keepalive_step hon hnow horder hpersistent hs hroomy hstep
    have haccepted : accepted (tr ++ [l])
        = accepted tr + if l.result.toTunnel?.isSome then 1 else 0 := by
      simp [accepted, List.countP_append, List.countP_cons]
    rw [keepalives_snoc hrun hstep, haccepted]
    omega

end Tunn

/-- The plaintext of the packet that the call hands to the interface. -/
def Label.delivered? (l : Label) : Option Bytes :=
  if l.result.toTunnel?.isSome then (opened l.events).head?.map fun x => x.2.2 else none

theorem count_delivered (src : Bytes) (tr : List Label) :
    (tr.filterMap Label.delivered?).count src ≤ deliveredCount src tr := by
  rw [List.count_filterMap]
  refine List.countP_mono_left fun l _ h => ?_
  have h : l.delivered? = some src := eq_of_beq h
  unfold Label.delivered? at h
  split at h
  · rename_i hsome
    obtain ⟨x, hx, hsrc⟩ := Option.map_eq_some_iff.mp h
    refine Bool.and_eq_true_iff.mpr ⟨hsome, List.any_eq_true.mpr ⟨x, List.mem_of_head? hx, ?_⟩⟩
    exact decide_eq_true hsrc
  · cases h

theorem callCount_le_count {src : Bytes} (hne : src ≠ []) (tr : List Label) :
    callCount src tr ≤ (passed tr).count src := by
  unfold passed
  rw [List.count_filterMap]
  refine List.countP_mono_left fun l _ h => ?_
  cases hop : l.op with
  | encapsulate src' dst_len =>
    rw [hop] at h
    obtain rfl : src' = src := of_decide_eq_true h
    simp [Op.data?, hne]
  | _ =>
    rw [hop] at h
    cases h

namespace Tunn

variable {t t₀ : Tunn C} {tr : List Label}

/-- A call that hands a packet to the interface has opened it; it is not empty. -/
theorem run_delivered (hrun : Run (tunnel C B) t₀ tr t) {l : Label} (hl : l ∈ tr)
    (hsome : l.result.toTunnel?.isSome) : ∃ src, l.delivered? = some src ∧ src ≠ [] := by
  obtain ⟨⟨packet, addr⟩, hr⟩ := Option.isSome_iff_exists.mp hsome
  obtain ⟨id, n, src, ct, len, hevents, hne, _⟩ := run_delivers hrun hl hr
  refine ⟨src, ?_, hne⟩
  rw [Label.delivered?, if_pos hsome, hevents]
  rfl

theorem accepted_eq (hrun : Run (tunnel C B) t₀ tr t) :
    accepted tr = (tr.filterMap Label.delivered?).length := by
  rw [List.length_filterMap_eq_countP]
  refine List.countP_congr fun l hl => ?_
  constructor
  · intro hsome
    obtain ⟨src, hdelivered, _⟩ := run_delivered hrun hl hsome
    rw [hdelivered]
    rfl
  · intro h
    by_contra hnone
    rw [Label.delivered?, if_neg hnone] at h
    cases h

end Tunn

section pair
variable {B : Bool → Build} {t₀ t : Bool → Tunn C} {tr tr' : List (Bool × Label)}

/-- With large enough buffers no flush fails. -/
theorem flushing_of_roomy (hroomy : ∀ side, ∀ l ∈ labelsOf side tr, l.op.Roomy (B side))
    (hrun : Run (tunnels C B) t₀ tr t) : Run (flushingTunnels C B) t₀ tr t := by
  induction hrun with
  | nil => exact .nil
  | @snoc tr s s' l _ hstep ih =>
    have hrun := ih fun side l hl => hroomy side l (by
      rw [labelsOf_append]
      exact List.mem_append_left _ hl)
    have hl : l.2.op.Roomy (B l.1) := hroomy l.1 l.2 (mem_labelsOf.mpr (by simp))
    refine .snoc hrun ⟨⟨hstep.1, ?_⟩, hstep.2⟩
    intro addr dst_len hop _ _ _
    rw [hop] at hl
    exact hl

/-- **Data that is accepted was passed to the other tunnel.** -/
theorem Peers.accepted_le_passed (hC : C.Ideal) (hD : C.DhInjective) (h : Peers t₀)
    (hrun : Run (flushingTunnels C B) t₀ tr t)
    (hsound : ∀ side, Sound C (B side) (labelsOf side tr)) (hauth : Authentic tr) (side : Bool) :
    accepted (labelsOf side tr) ≤ (passed (labelsOf (!side) tr)).length := by
  have hside := (of_flushing hrun).component side
  rw [Tunn.accepted_eq hside]
  refine (List.subperm_ext_iff.mpr fun src hsrc => ?_).length_le
  have hne : src ≠ [] := by
    obtain ⟨l, hl, hdelivered⟩ := List.mem_filterMap.mp hsrc
    by_cases hsome : l.result.toTunnel?.isSome
    · obtain ⟨src', hsrc', hne⟩ := Tunn.run_delivered hside hl hsome
      cases hsrc'.symm.trans hdelivered
      exact hne
    · rw [Label.delivered?, if_neg hsome] at hdelivered
      cases hdelivered
  calc ((labelsOf side tr).filterMap Label.delivered?).count src
      ≤ deliveredCount src (labelsOf side tr) := count_delivered src _
    _ ≤ callCount src (labelsOf (!side) tr) :=
        h.deliveredCount_le_callCount hC hD hrun hsound hauth side src
    _ ≤ (passed (labelsOf (!side) tr)).count src := callCount_le_count hne _

end pair

end PqBoringtun
