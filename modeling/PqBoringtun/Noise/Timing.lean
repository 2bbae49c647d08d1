import PqBoringtun.Noise.Instant
import PqBoringtun.Noise.Sources
import PqBoringtun.Noise.Symbolic

/-! # Timers and rate limiter along a run

    Timers and rate limiter change in few ways: a timer ticks, all timers
    are cleared, a flag is reset, the limiter counts.  `Stable` names the
    properties that survive these changes, and one lemma per operation shows
    that they survive a call.

    Two invariants follow for runs whose clock does not go back:

    * no timer, of the tunnel or of a session, is ahead of `TimeCurrent`;
    * the limiter checks mac1 with the own public key.

    The first one makes every subtraction of durations possible.
-/

namespace PqBoringtun

variable {C : Crypto} {B : Build}

/-! ## Section 1: Stable properties -/

/-- Survives what a call does to timers and limiter after the time was read. -/
structure Stable (env : Env) (Q : Timers → RateLimiter → Prop) : Prop where
  tick : ∀ {T r} n, Q T r → Q (T.timer_tick n) r
  established : ∀ {T r} b i, Q T r → Q (T.timer_tick_session_established b i) r
  clear : ∀ {T r}, Q T r → Q (T.clear (env.clock .clear)) r
  want : ∀ {T r} h k, Q T r → Q { T with want_handshake := h, want_keepalive := k } r
  load : ∀ {T r} c n l, Q T r → Q T { r with count := c, nonce_ctr := n, last_reset := l }

/-- Survives all of this, except that data arrives. -/
structure Steady (env : Env) (Q : Timers → RateLimiter → Prop) : Prop where
  tick : ∀ {T r} n, n ≠ .TimeLastDataPacketReceived → Q T r → Q (T.timer_tick n) r
  established : ∀ {T r} b i, Q T r → Q (T.timer_tick_session_established b i) r
  clear : ∀ {T r}, Q T r → Q (T.clear (env.clock .clear)) r
  want : ∀ {T r} h k, Q T r → Q { T with want_handshake := h, want_keepalive := k } r
  load : ∀ {T r} c n l, Q T r → Q T { r with count := c, nonce_ctr := n, last_reset := l }

/-- Survives the arrival of data, if the call hands it to the interface. -/
def Arrives (Q : Timers → RateLimiter → Prop) (result : TunnResult) : Prop :=
  result.toTunnel?.isSome → ∀ {T r}, Q T r → Q (T.timer_tick .TimeLastDataPacketReceived) r

theorem Stable.steady {env : Env} {Q : Timers → RateLimiter → Prop} (hQ : Stable env Q) :
    Steady env Q where
  tick := fun n _ h => hQ.tick n h
  established := hQ.established
  clear := hQ.clear
  want := hQ.want
  load := hQ.load

theorem Stable.arrives {env : Env} {Q : Timers → RateLimiter → Prop} (hQ : Stable env Q)
    (result : TunnResult) : Arrives Q result :=
  fun _ _ _ h => hQ.tick .TimeLastDataPacketReceived h

namespace Tunn

variable {env : Env} {Q : Timers → RateLimiter → Prop} {t t' : Tunn C} {dst_len : Nat}
  {r : TunnResult} {evs : List Event}

theorem stable_queue_packet (src : Bytes) (h : Q t.timers t.rate_limiter) :
    Q (t.queue_packet src).timers (t.queue_packet src).rate_limiter := by
  unfold queue_packet
  split <;> exact h

theorem stable_requeue_packet (src : Bytes) (h : Q t.timers t.rate_limiter) :
    Q (t.requeue_packet src).timers (t.requeue_packet src).rate_limiter := by
  unfold requeue_packet
  split <;> exact h

theorem stable_set_current_session (i : Nat) (h : Q t.timers t.rate_limiter) :
    Q (t.set_current_session i).timers (t.set_current_session i).rate_limiter := by
  unfold set_current_session
  split
  · exact h
  · split <;> exact h

theorem stable_cleared (hQ : Steady env Q) (h : Q t.timers t.rate_limiter) :
    Q (t.cleared env).timers (t.cleared env).rate_limiter := by
  unfold cleared
  split
  · exact hQ.clear h
  · exact h

theorem stable_starts (hQ : Steady env Q) {force : Bool}
    (hstart : t.Starts B dst_len force env r t' evs) (h : Q t.timers t.rate_limiter) :
    Q t'.timers t'.rate_limiter := by
  have hcleared := stable_cleared hQ h
  cases hstart with
  | busy _ _ => exact h
  | no_room _ _ => exact hcleared
  | sent m h' evs _ _ =>
    unfold initiated
    dsimp only
    split
    · exact hQ.tick .TimeLastPacketSent (by decide) hcleared
    · exact hQ.tick .TimeLastPacketSent (by decide)
        (hQ.tick .TimeLastHandshakeStarted (by decide) hcleared)

theorem stable_encapsulates (hQ : Steady env Q) {src : Bytes}
    (henc : t.Encapsulates B src dst_len env r t' evs) (h : Q t.timers t.rate_limiter) :
    Q t'.timers t'.rate_limiter := by
  cases henc with
  | sealed session packet _ =>
    unfold after_send
    dsimp only
    split
    · exact hQ.tick .TimeLastDataPacketSent (by decide) (hQ.tick .TimeLastPacketSent (by decide) h)
    · exact hQ.tick .TimeLastPacketSent (by decide) h
  | queued _ hstart => exact stable_starts hQ hstart (stable_queue_packet src h)

theorem stable_flushes (hQ : Steady env Q) (hflush : t.Flushes B dst_len env r t' evs)
    (h : Q t.timers t.rate_limiter) : Q t'.timers t'.rate_limiter := by
  cases hflush with
  | empty _ => exact h
  | failed packet rest e t₁ evs _ henc =>
    exact stable_requeue_packet packet (stable_encapsulates hQ henc h)
  | passed packet rest _ _ henc => exact stable_encapsulates hQ henc h

theorem stable_handle_init (hQ : Steady env Q)
    {res : Except WireGuardError (Bytes × Session) × Handshake C × List Event}
    (hcall : t.handle_init res = (r, t', evs)) (h : Q t.timers t.rate_limiter) :
    Q t'.timers t'.rate_limiter := by
  rcases res with ⟨_ | ⟨packet, session⟩, h', evs'⟩
  · cases hcall
    exact h
  · cases hcall
    exact hQ.established false _ (hQ.tick .TimeLastPacketSent (by decide)
      (hQ.tick .TimeLastPacketReceived (by decide) h))

theorem stable_handle_response (hQ : Steady env Q)
    {res : Except WireGuardError Session × Handshake C × List Event}
    (hcall : t.handle_response B res dst_len = .ok (r, t', evs))
    (h : Q t.timers t.rate_limiter) : Q t'.timers t'.rate_limiter := by
  rcases res with ⟨_ | session, h', evs'⟩
  · cases hcall
    exact h
  · obtain ⟨⟨packet, session', sealed⟩, _, hcall⟩ := Outcome.bind_eq_ok.mp hcall
    cases hcall
    exact stable_set_current_session _
      (hQ.established true _ (hQ.tick .TimeLastPacketReceived (by decide) h))

theorem stable_handle_cookie_reply (hQ : Steady env Q) {p : PacketCookieReply}
    (hcall : t.handle_cookie_reply p = (r, t', evs)) (h : Q t.timers t.rate_limiter) :
    Q t'.timers t'.rate_limiter := by
  unfold handle_cookie_reply at hcall
  rcases hreply : t.handshake.receive_cookie_reply p with ⟨_ | _, h'⟩
  all_goals
    rw [hreply] at hcall
    cases hcall
  · exact h
  · exact hQ.tick .TimeCookieReceived (by decide) (hQ.tick .TimeLastPacketReceived (by decide) h)

theorem stable_validate_decapsulated_packet (packet : Bytes)
    (hdata : Arrives Q (t.validate_decapsulated_packet packet).1) (h : Q t.timers t.rate_limiter) :
    Q (t.validate_decapsulated_packet packet).2.timers
      (t.validate_decapsulated_packet packet).2.rate_limiter := by
  unfold validate_decapsulated_packet at hdata ⊢
  split
  · exact h
  rename_i hne
  rw [if_neg hne] at hdata
  split
  · exact h
  rename_i len addr hheader
  rw [hheader] at hdata
  dsimp only at hdata
  split
  · exact h
  rename_i hlen
  rw [if_neg hlen] at hdata
  cases addr with
  | V4 addr => exact hdata rfl h
  | V6 addr => exact hdata rfl h

theorem stable_receives_data (hQ : Steady env Q) {packet : PacketData}
    (hreceives : t.ReceivesData B packet r t' evs) (hdata : Arrives Q r)
    (h : Q t.timers t.rate_limiter) :
    Q t'.timers t'.rate_limiter := by
  cases hreceives with
  | rejected e => exact h
  | accepted session plaintext v t₁ _ _ ht₁ =>
    refine stable_validate_decapsulated_packet plaintext hdata ?_
    rw [ht₁]
    exact hQ.tick .TimeLastPacketReceived (by decide) (stable_set_current_session _ h)

theorem stable_handles (hQ : Steady env Q) {packet : Packet}
    (hhandles : t.Handles B dst_len env packet r t' evs) (hdata : Arrives Q r)
    (h : Q t.timers t.rate_limiter) :
    Q t'.timers t'.rate_limiter := by
  cases hhandles with
  | init v p ek _ _ hres => exact stable_handle_init hQ hres h
  | response v p ct _ _ hres => exact stable_handle_response hQ hres h
  | cookie p hres => exact stable_handle_cookie_reply hQ hres h
  | data p hreceives => exact stable_receives_data hQ hreceives hdata h

theorem stable_verify_packet (hQ : Steady env Q) {T : Timers} {l : RateLimiter}
    (src_addr : Option IpAddr) (src : Bytes) (n now : Nat) (h : Q T l) :
    Q T (l.verify_packet C B src_addr src n now).2 := by
  have hload : ∀ c n, Q T { l with count := c, nonce_ctr := n } := fun c n =>
    hQ.load c n l.last_reset h
  unfold RateLimiter.verify_packet
  split
  · exact h
  split
  · exact h
  dsimp only [RateLimiter.is_under_load]
  split
  · exact h
  split
  · exact hload _ _
  split
  · exact hload _ _
  split
  · exact hload _ _
  unfold RateLimiter.format_cookie_reply
  split
  · rename_i hreply
    split at hreply
    · cases hreply
    · cases hreply
      exact hload _ _
  · rename_i hreply
    split at hreply
    · cases hreply
      exact hload _ _
    · cases hreply

theorem stable_decapsulates (hQ : Steady env Q) {addr : Option IpAddr} {datagram : Bytes}
    (hdec : t.Decapsulates B addr datagram dst_len env r t' evs) (hdata : Arrives Q r)
    (h : Q t.timers t.rate_limiter) :
    Q t'.timers t'.rate_limiter := by
  have hverified := stable_verify_packet (C := C) (B := B) hQ addr datagram COOKIE_REPLY_SZ
    (env.clock .cookie) h
  cases hdec with
  | flush _ hflush => exact stable_flushes hQ hflush h
  | verified packet limiter _ hverify hhandles =>
    rw [hverify] at hverified
    exact stable_handles hQ hhandles hdata hverified
  | dropped limiter r _ hverify _ =>
    rw [hverify] at hverified
    exact hverified

theorem stable_ticks (hQ : Steady env Q) (hticks : t.Ticks B dst_len env r t' evs)
    (h : Q t.timers t.rate_limiter) : Q t'.timers t'.rate_limiter := by
  cases hticks with
  | expires _ => exact hQ.clear h
  | retransmits s _ _ _ hstart => exact stable_starts hQ hstart h
  | waits s _ _ _ => exact h
  | rekeys want _ _ hstart =>
    exact stable_starts hQ hstart (hQ.want want t.timers.want_keepalive h)
  | keepalive want want' t₁ _ _ ht₁ henc =>
    have h₁ : Q t₁.timers t₁.rate_limiter := by
      rcases ht₁ with rfl | rfl
      · exact hQ.want want want' h
      · exact hQ.tick .TimePersistentKeepalive (by decide) (hQ.want want want' h)
    rcases henc with henc | ⟨_, rfl, _⟩
    · exact stable_encapsulates hQ henc h₁
    · exact h₁

/-- After the time was read, an update of the timers is like any other call. -/
theorem stable_updates (hQ : Steady env Q) (hupdate : t.Updates B dst_len env r t' evs)
    (h : ∀ t₁, t.refresh env = .ok t₁ → Q t₁.timers t₁.rate_limiter) :
    Q t'.timers t'.rate_limiter := by
  cases hupdate with
  | expired t₁ hrefresh _ => exact h _ hrefresh
  | ticks t₁ cookies hrefresh _ hticks => exact stable_ticks hQ hticks (h t₁ hrefresh)

/-- **A call keeps a steady property**, unless it is one for a new static key. -/
theorem stable_step (hQ : Steady env Q) {op : Op}
    (hop : ∀ priv pub lim, op ≠ .set_static_private priv pub lim)
    (hstep : t.step B op env = .ok (r, t', evs)) (hdata : Arrives Q r)
    (hrefresh : ∀ t₁, t.refresh env = .ok t₁ → Q t₁.timers t₁.rate_limiter)
    (h : Q t.timers t.rate_limiter) : Q t'.timers t'.rate_limiter := by
  cases op with
  | encapsulate src dst_len => exact stable_encapsulates hQ (encapsulate_cases hstep) h
  | decapsulate src_addr datagram dst_len =>
    exact stable_decapsulates hQ (decapsulate_cases hstep) hdata h
  | handle_verified_packet packet dst_len =>
    exact stable_handles hQ (handle_verified_packet_cases hstep) hdata h
  | update_timers dst_len => exact stable_updates hQ (update_timers_cases hstep) hrefresh
  | format_handshake_initiation dst_len force =>
    injection hstep with hstep
    exact stable_starts hQ (format_handshake_initiation_cases hstep) h
  | set_static_private priv pub lim => exact absurd rfl (hop priv pub lim)
  | shared c n l =>
    cases hstep
    exact hQ.load c n l h

end Tunn

/-! ## Section 2: Time and mac1 key -/

/-- No timer is ahead of `TimeCurrent`, which is not ahead of `now`. -/
structure Timers.OnTime (now : Nat) (T : Timers) : Prop where
  timers : ∀ n, T.timers n ≤ T.timers .TimeCurrent
  session_timers : ∀ i, T.session_timers i ≤ T.timers .TimeCurrent
  current : T.timers .TimeCurrent ≤ now - T.time_started

namespace Timers

variable {T : Timers} {now now' : Nat}

/-- A tick does not move `TimeCurrent`. -/
@[simp] theorem timer_tick_current (n : TimerName) :
    (T.timer_tick n).timers .TimeCurrent = T.timers .TimeCurrent := by
  cases n <;> rfl

@[simp] theorem timer_tick_started (n : TimerName) :
    (T.timer_tick n).time_started = T.time_started := by
  cases n <;> rfl

@[simp] theorem timer_tick_session_timers (n : TimerName) :
    (T.timer_tick n).session_timers = T.session_timers := by
  cases n <;> rfl

theorem OnTime.mono (h : T.OnTime now) (hle : now ≤ now') : T.OnTime now' :=
  ⟨h.timers, h.session_timers, h.current.trans (Nat.sub_le_sub_right hle _)⟩

theorem OnTime.tick (h : T.OnTime now) (n : TimerName) : (T.timer_tick n).OnTime now where
  timers := by
    intro m
    rw [timer_tick_current]
    by_cases hm : m = n
    · subst hm
      cases m <;> exact Nat.le_refl _
    · have hother : (T.timer_tick n).timers m = T.timers m := by
        cases n <;> exact Function.update_of_ne hm ..
      rw [hother]
      exact h.timers m
  session_timers := by
    intro i
    rw [timer_tick_current, timer_tick_session_timers]
    exact h.session_timers i
  current := by
    rw [timer_tick_current, timer_tick_started]
    exact h.current

theorem OnTime.established (h : T.OnTime now) (b : Bool) (i : Nat) :
    (T.timer_tick_session_established b i).OnTime now where
  timers := (h.tick .TimeSessionEstablished).timers
  session_timers := by
    intro j
    by_cases hj : j = slot i
    · subst hj
      exact (Function.update_self ..).le
    · exact (Function.update_of_ne hj ..).le.trans (h.session_timers j)
  current := (h.tick .TimeSessionEstablished).current

/-- A session that was just established is the newest. -/
theorem OnTime.established_newest (h : T.OnTime now) (b : Bool) (i : Nat) (j : Fin N_SESSIONS) :
    (T.timer_tick_session_established b i).session_timers j
      ≤ (T.timer_tick_session_established b i).session_timers (slot i) := by
  have hnew : (T.timer_tick_session_established b i).session_timers (slot i)
      = T.timers .TimeCurrent := Function.update_self ..
  rw [hnew]
  exact (h.established b i).session_timers j

theorem OnTime.clear (h : T.OnTime now) : (T.clear now).OnTime now where
  timers := fun _ => Nat.le_refl _
  session_timers := fun i => (h.session_timers i).trans h.current
  current := Nat.le_refl _

end Timers

/-- On time, started at `start`, with a limiter that checks mac1 under `key`. -/
def Timed (start now : Nat) (key : Bytes) (T : Timers) (l : RateLimiter) : Prop :=
  T.OnTime now ∧ T.time_started = start ∧ l.mac1_key = key

theorem stable_timed (env : Env) (start : Nat) (key : Bytes) :
    Stable env (Timed start (env.clock .clear) key) where
  tick := fun n h => ⟨h.1.tick n, (Timers.timer_tick_started n).trans h.2.1, h.2.2⟩
  established := fun b i h => ⟨h.1.established b i, h.2⟩
  clear := fun h => ⟨h.1.clear, h.2⟩
  want := fun _ _ h => ⟨⟨h.1.timers, h.1.session_timers, h.1.current⟩, h.2⟩
  load := fun _ _ _ h => h

namespace Tunn

variable {env : Env} {t t' : Tunn C} {start now : Nat} {key : Bytes}

theorem reset_count_mac1_key (l : RateLimiter) (now : Nat) :
    (l.reset_count now).mac1_key = l.mac1_key := by
  unfold RateLimiter.reset_count
  split <;> rfl

/-- Reading the time moves `TimeCurrent` forward; a session that expires is set to it. -/
theorem timed_refresh (h : Timed start now key t.timers t.rate_limiter)
    (hnow : now ≤ env.clock .update) (hcall : t.refresh env = .ok t') :
    Timed start (env.clock .update) key t'.timers t'.rate_limiter := by
  obtain ⟨hon, hstart, hkey⟩ := h
  have hle : t.timers.timers .TimeCurrent ≤ env.clock .update - t.timers.time_started :=
    hon.current.trans (Nat.sub_le_sub_right hnow _)
  obtain ⟨limiter, _, rfl, rfl, hall, rfl⟩ := refresh_cases hcall
  refine ⟨⟨fun n => ?_, fun i => ?_, Nat.le_refl _⟩, hstart, ?_⟩
  · by_cases hn : n = .TimeCurrent
    · subst hn
      exact Nat.le_refl _
    · exact (Function.update_of_ne hn ..).le.trans ((hon.timers n).trans hle)
  · dsimp only
    split
    · exact Nat.le_refl _
    · exact hall i
  · dsimp only
    split
    · rw [reset_count_mac1_key, hkey]
    · exact hkey

/-- One operation, except for a new static key. -/
theorem timed_step {op : Op} {r : TunnResult} {evs : List Event}
    (h : Timed start now key t.timers t.rate_limiter) (hnow : ∀ r, now ≤ env.clock r)
    (horder : env.clock .update ≤ env.clock .clear)
    (hop : ∀ priv pub lim, op ≠ .set_static_private priv pub lim)
    (hstep : t.step B op env = .ok (r, t', evs)) :
    Timed start (env.clock .clear) key t'.timers t'.rate_limiter := by
  have hQ := stable_timed env start key
  refine stable_step hQ.steady hop hstep (hQ.arrives r) ?_ ⟨h.1.mono (hnow .clear), h.2⟩
  intro t₁ hrefresh
  obtain ⟨hon, hrest⟩ := timed_refresh h (hnow .update) hrefresh
  exact ⟨hon.mono horder, hrest⟩

end Tunn

/-! ## Section 3: Runs with a clock that does not go back -/

/-- The clock does not go back, from call to call and between the two
    readings of one call. -/
structure Clocked (start : Nat) (tr : List Label) : Prop where
  start : ∀ l ∈ tr, ∀ r, start ≤ l.env.clock r
  order : ∀ l ∈ tr, l.env.clock .update ≤ l.env.clock .clear
  mono : tr.Pairwise fun l l' => ∀ r r', l.env.clock r ≤ l'.env.clock r'

theorem Clocked.nil {start : Nat} : Clocked start [] :=
  ⟨by simp, by simp, .nil⟩

theorem Clocked.of_append {start : Nat} {tr tr' : List Label} (h : Clocked start (tr ++ tr')) :
    Clocked start tr where
  start := fun l hl => h.start l (List.mem_append_left _ hl)
  order := fun l hl => h.order l (List.mem_append_left _ hl)
  mono := (List.pairwise_append.mp h.mono).1

/-- The readings of a call are not before the last call. -/
theorem Clocked.after {start now : Nat} {tr : List Label} {l : Label}
    (h : Clocked start (tr ++ [l])) (hnow : now = start ∨ ∃ l ∈ tr, now = l.env.clock .clear) :
    ∀ r, now ≤ l.env.clock r := by
  intro r
  rcases hnow with rfl | ⟨l', hl', rfl⟩
  · exact h.start l (by simp) r
  · exact (List.pairwise_append.mp h.mono).2.2 l' hl' l (by simp) .clear r

/-- The mac1 key that belongs to a public key. -/
def mac1_key_of (C : Crypto) (public_key : Bytes) : Bytes := b2s_hash C LABEL_MAC1 public_key

/-- Limiters handed over with a new static key belong to it. -/
def LimitersMatch (C : Crypto) (tr : List Label) : Prop :=
  ∀ l ∈ tr, ∀ priv pub lim, l.op = .set_static_private priv pub (some lim) →
    lim.mac1_key = mac1_key_of C pub

theorem LimitersMatch.nil : LimitersMatch C [] := by
  intro l hl
  cases hl

/-- On time, with the limiter of the own static key. -/
structure Tunn.Ready (now : Nat) (t : Tunn C) : Prop where
  on_time : t.timers.OnTime now
  mac1_key : t.rate_limiter.mac1_key = mac1_key_of C t.handshake.params.static_public

namespace Tunn

variable {t t' : Tunn C} {start now : Nat}

/-- A new static key comes with its limiter and does not touch the timers. -/
theorem set_static_private_ready {priv pub : Bytes} {lim : Option RateLimiter} {env : Env}
    (hlim : ∀ l, lim = some l → l.mac1_key = mac1_key_of C pub) (h : t.timers.OnTime now)
    (hcall : t.set_static_private priv pub lim env = .ok t') :
    t'.Ready now ∧ t'.timers.time_started = t.timers.time_started := by
  obtain ⟨params, hparams, hcall⟩ := Outcome.bind_eq_ok.mp hcall
  obtain ⟨_, hpub, _⟩ := NoiseParams.set_static_private_eq_ok hparams
  cases hcall
  refine ⟨⟨⟨h.timers, h.session_timers, h.current⟩, ?_⟩, rfl⟩
  show _ = mac1_key_of C params.static_public
  rw [hpub]
  cases lim with
  | none => rfl
  | some l => exact hlim l rfl

theorem step_ready {l : Label} (hstart : t.timers.time_started = start) (h : t.Ready now)
    (hnow : ∀ r, now ≤ l.env.clock r) (horder : l.env.clock .update ≤ l.env.clock .clear)
    (hlim : ∀ priv pub lim, l.op = .set_static_private priv pub (some lim) →
      lim.mac1_key = mac1_key_of C pub)
    (hstep : (tunnel C B).step t l t') :
    t'.Ready (l.env.clock .clear) ∧ t'.timers.time_started = start := by
  by_cases hop : ∃ priv pub lim, l.op = .set_static_private priv pub lim
  · obtain ⟨priv, pub, lim, hop⟩ := hop
    have hcall : t.step B l.op l.env = .ok (l.result, t', l.events) := hstep
    rw [hop] at hcall
    obtain ⟨t₁, hset, hcall⟩ := Outcome.bind_eq_ok.mp hcall
    obtain rfl : t₁ = t' := by
      injection hcall with hcall
      exact (Prod.mk.inj (Prod.mk.inj hcall).2).1
    rw [← hstart]
    exact set_static_private_ready (fun l' hl' => hlim priv pub l' (hl' ▸ hop))
      (h.on_time.mono (hnow .clear)) hset
  · have hop' : ∀ priv pub lim, l.op ≠ .set_static_private priv pub lim :=
      fun priv pub lim heq => hop ⟨priv, pub, lim, heq⟩
    obtain ⟨hon, hstart', hkey⟩ := timed_step ⟨h.on_time, hstart, h.mac1_key⟩ hnow horder hop' hstep
    have hparams := (step_works hop' hstep).params
    exact ⟨⟨hon, hkey.trans (congrArg (fun p => mac1_key_of C p.static_public) hparams.symm)⟩,
      hstart'⟩

theorem step_onTime {l : Label} (hstart : t.timers.time_started = start) (h : t.timers.OnTime now)
    (hnow : ∀ r, now ≤ l.env.clock r) (horder : l.env.clock .update ≤ l.env.clock .clear)
    (hstep : (tunnel C B).step t l t') :
    t'.timers.OnTime (l.env.clock .clear) ∧ t'.timers.time_started = start := by
  by_cases hop : ∃ priv pub lim, l.op = .set_static_private priv pub lim
  · obtain ⟨priv, pub, lim, hop⟩ := hop
    obtain ⟨_, env, r, evs⟩ := l
    subst hop
    cases step_cases hstep with
    | handles _ _ _ hreceived _ _ => cases hreceived
    | rekeys _ _ _ _ hset =>
      obtain ⟨params, _, hset⟩ := Outcome.bind_eq_ok.mp hset
      cases hset
      have hon := h.mono (hnow .clear)
      exact ⟨⟨hon.timers, hon.session_timers, hon.current⟩, hstart⟩
  · have htimed := timed_step ⟨h, hstart, rfl⟩ hnow horder
      (fun priv pub lim heq => hop ⟨priv, pub, lim, heq⟩) hstep
    exact ⟨htimed.1, htimed.2.1⟩

/-- **Timers of a reachable tunnel are on time.** -/
theorem run_onTime {t₀ : Tunn C} {tr : List Label} (hnew : t₀.IsNew start)
    (hrun : Run (tunnel C B) t₀ tr t) (hclock : Clocked start tr) :
    ∃ now, t.timers.OnTime now ∧ t.timers.time_started = start ∧
      (now = start ∨ ∃ l ∈ tr, now = l.env.clock .clear) := by
  refine Run.invariant_of (A := Clocked start) (I := fun tr t => ∃ now, t.timers.OnTime now ∧
    t.timers.time_started = start ∧ (now = start ∨ ∃ l ∈ tr, now = l.env.clock .clear))
    Clocked.of_append ?_ ?_ hrun hclock
  · obtain ⟨_, _, _, _, _, _, _, _, _, rfl⟩ := hnew
    exact ⟨start, ⟨fun _ => Nat.le_refl _, fun _ => Nat.le_refl _, Nat.zero_le _⟩, rfl, Or.inl rfl⟩
  · intro tr t l t' hclock h hstep
    obtain ⟨now, hon, hstart, hnow⟩ := h
    have hmem : l ∈ tr ++ [l] := by simp
    obtain ⟨hon', hstart'⟩ := step_onTime hstart hon (hclock.after hnow) (hclock.order l hmem) hstep
    exact ⟨_, hon', hstart', Or.inr ⟨l, hmem, rfl⟩⟩

/-- **Every reachable tunnel is ready.**  `now` is the time of its creation
    or of one of the calls. -/
theorem run_ready {priv peer : Bytes} {hpeer : peer.length = KEY_LEN} {psk : Option Bytes}
    {keepalive : Option UInt16} {index : UInt32} {limiter : Option RateLimiter}
    {unix_time : Nat} {env : Env} {tr : List Label}
    (hlimiter : ∀ l, limiter = some l → l.mac1_key = mac1_key_of C (C.x25519_public priv))
    (hrun : Run (tunnel C B)
      (Tunn.new C priv peer hpeer psk keepalive index limiter unix_time start env) tr t)
    (hclock : Clocked start tr) (hlims : LimitersMatch C tr) :
    ∃ now, t.Ready now ∧ t.timers.time_started = start ∧
      (now = start ∨ ∃ l ∈ tr, now = l.env.clock .clear) := by
  refine hrun.invariant_of (A := fun tr => Clocked start tr ∧ LimitersMatch C tr)
    (I := fun tr (t : Tunn C) => ∃ now, t.Ready now ∧ t.timers.time_started = start ∧
      (now = start ∨ ∃ l ∈ tr, now = l.env.clock .clear)) ?_ ?_ ?_ ⟨hclock, hlims⟩
  · intro tr l h
    exact ⟨h.1.of_append, fun l' hl' => h.2 l' (List.mem_append_left _ hl')⟩
  · refine ⟨start, ⟨⟨fun _ => Nat.le_refl _, fun _ => Nat.le_refl _, Nat.zero_le _⟩, ?_⟩, rfl,
      Or.inl rfl⟩
    cases limiter with
    | none => rfl
    | some l => exact hlimiter l rfl
  · rintro tr t l t' ⟨hclock, hlims⟩ ⟨now, hready, hstart, hnow⟩ hstep
    have hlast : l ∈ tr ++ [l] := List.mem_append_right _ (List.mem_singleton.mpr rfl)
    obtain ⟨hready', hstart'⟩ := step_ready hstart hready (hclock.after hnow) (hclock.order l hlast)
      (fun priv pub lim => hlims l hlast priv pub lim) hstep
    exact ⟨_, hready', hstart', Or.inr ⟨l, hlast, rfl⟩⟩

end Tunn

/-! ## Section 4: Subtractions of durations -/

theorem reached_returns {now since : Nat} (h : since ≤ now) (duration : Nat) :
    ∃ b, reached now since duration = .ok b := by
  unfold reached sub_duration
  rw [if_pos h]
  exact ⟨_, rfl⟩

theorem reached_if_returns (c : Bool) {now since : Nat} (h : since ≤ now) (duration : Nat) :
    ∃ b, reached_if c now since duration = .ok b := by
  unfold reached_if
  split
  · exact reached_returns h duration
  · exact ⟨_, rfl⟩

namespace Tunn

variable {t t' : Tunn C} {now : Nat} {env : Env} {dst_len : Nat} {msg : String}

theorem refresh_returns (h : t.timers.OnTime now) (hnow : now ≤ env.clock .update) :
    ∃ t', t.refresh env = .ok t' := by
  have hle : ∀ i, t.timers.session_timers i ≤ env.clock .update - t.timers.time_started :=
    fun i => (h.session_timers i).trans (h.current.trans (Nat.sub_le_sub_right hnow _))
  unfold refresh update_session_timers
  dsimp only
  rw [if_pos hle]
  exact ⟨_, rfl⟩

theorem expire_cookie_returns (h : t.timers.OnTime now) : ∃ t', t.expire_cookie t.now = .ok t' := by
  obtain ⟨due, hdue⟩ := reached_if_returns t.handshake.has_cookie
    (h.timers .TimeCookieReceived) COOKIE_EXPIRATION_TIME
  exact ⟨_, Outcome.bind_eq_ok.mpr ⟨due, hdue, rfl⟩⟩

theorem handshake_required_returns (h : t.timers.OnTime now) :
    ∃ res, t.handshake_required t.now = .ok res := by
  obtain ⟨on_send, hsend⟩ := reached_if_returns
    (t.timers.is_initiator && t.timers.timers .TimeSessionEstablished
      < t.timers.timers .TimeLastDataPacketSent) (h.timers .TimeSessionEstablished) REKEY_AFTER_TIME
  obtain ⟨on_receive, hreceive⟩ := reached_if_returns
    (t.timers.is_initiator && t.timers.timers .TimeSessionEstablished
      < t.timers.timers .TimeLastDataPacketReceived) (h.timers .TimeSessionEstablished)
    (REJECT_AFTER_TIME - KEEPALIVE_TIMEOUT - REKEY_TIMEOUT)
  obtain ⟨no_answer, hanswer⟩ := reached_if_returns
    (t.timers.timers .TimeLastPacketReceived < t.timers.timers .TimeLastDataPacketSent)
    (h.timers .TimeLastPacketReceived) (KEEPALIVE_TIMEOUT + REKEY_TIMEOUT)
  exact ⟨_, Outcome.bind_eq_ok.mpr ⟨on_send, hsend, Outcome.bind_eq_ok.mpr
    ⟨on_receive, hreceive, Outcome.bind_eq_ok.mpr ⟨no_answer, hanswer, rfl⟩⟩⟩⟩

theorem keepalive_required_returns (h : t.timers.OnTime now) :
    ∃ res, t.keepalive_required t.now = .ok res := by
  obtain ⟨silent, hsilent⟩ := reached_if_returns
    (t.timers.timers .TimeLastPacketSent < t.timers.timers .TimeLastDataPacketReceived)
    (h.timers .TimeLastPacketSent) KEEPALIVE_TIMEOUT
  obtain ⟨persistent, hpersistent⟩ := reached_if_returns (0 < t.timers.persistent_keepalive)
    (h.timers .TimePersistentKeepalive) (t.timers.persistent_keepalive * SEC)
  refine ⟨_, Outcome.bind_eq_ok.mpr ⟨silent, hsilent, Outcome.bind_eq_ok.mpr
    ⟨persistent, ?_, rfl⟩⟩⟩
  cases silent <;> exact hpersistent

/-- A packet is not sent only if the buffer is too small. -/
theorem encapsulate_panic {src : Bytes} (h : t.encapsulate B src dst_len env = .panic msg) :
    msg = "The destination buffer is too small" ∧ dst_len < src.length + DATA_OVERHEAD_SZ := by
  unfold encapsulate at h
  split at h
  · unfold Session.format_packet_data at h
    split at h
    · rename_i hsmall
      cases h
      exact ⟨rfl, hsmall⟩
    · cases h
  · cases h

/-- **No subtraction of `update_timers` underflows.**  What is left is the
    buffer of a keepalive. -/
theorem update_timers_panic (h : t.timers.OnTime now) (hnow : now ≤ env.clock .update)
    (hcall : t.update_timers B dst_len env = .panic msg) :
    msg = "The destination buffer is too small" ∧ dst_len < DATA_OVERHEAD_SZ := by
  obtain ⟨t₁, hrefresh, hcall⟩ := Outcome.bind_eq_panic (refresh_returns h hnow) hcall
  have htimed : Timed t.timers.time_started now t.rate_limiter.mac1_key t.timers t.rate_limiter :=
    ⟨h, rfl, rfl⟩
  obtain ⟨h₁, _⟩ := timed_refresh htimed hnow hrefresh
  dsimp only at hcall
  split at hcall
  · cases hcall
  obtain ⟨t₂, hcookie, hcall⟩ := Outcome.bind_eq_panic (expire_cookie_returns h₁) hcall
  obtain ⟨cookies, rfl⟩ := expire_cookie_cases hcookie
  obtain ⟨old, _, hcall⟩ := Outcome.bind_eq_panic
    (reached_returns (h₁.timers .TimeSessionEstablished) (REJECT_AFTER_TIME * 3)) hcall
  split at hcall
  · cases hcall
  split at hcall
  · obtain ⟨late, _, hcall⟩ := Outcome.bind_eq_panic
      (reached_returns (h₁.timers .TimeLastHandshakeStarted) REKEY_ATTEMPT_TIME) hcall
    split at hcall
    · cases hcall
    split at hcall <;> cases hcall
  · have hreturns := handshake_required_returns
      (t := { t₁ with handshake := { t₁.handshake with cookies := cookies } }) h₁
    obtain ⟨⟨required, t₃⟩, hrequired, hcall⟩ := Outcome.bind_eq_panic hreturns hcall
    obtain ⟨want, rfl⟩ := handshake_required_cases hrequired
    dsimp only at hcall
    split at hcall
    · cases hcall
    have hreturns := keepalive_required_returns
      (t := { t₁ with
        handshake := { t₁.handshake with cookies := cookies }
        timers := { t₁.timers with want_handshake := want } })
      ⟨h₁.timers, h₁.session_timers, h₁.current⟩
    obtain ⟨⟨required', t₄⟩, _, hcall⟩ := Outcome.bind_eq_panic hreturns hcall
    dsimp only at hcall
    split at hcall
    · exact encapsulate_panic hcall
    · cases hcall

/-- `now` is read after the creation at `start` and after the calls of `tr`. -/
structure ReadAfter (start : Nat) (tr : List Label) (now : Nat) : Prop where
  start : start ≤ now
  calls : ∀ l ∈ tr, ∀ r, l.env.clock r ≤ now

theorem time_since_last_handshake_returns {next : Nat} (h : t.timers.OnTime now)
    (hnow : now ≤ next) : ∃ d, t.time_since_last_handshake next = .ok d := by
  unfold time_since_last_handshake
  split
  · have hle := (h.timers .TimeSessionEstablished).trans (h.mono hnow).current
    unfold sub_duration
    dsimp only
    rw [if_pos hle]
    exact ⟨_, rfl⟩
  · exact ⟨_, rfl⟩

/-- **Timers do not underflow.**  The tunnel was created at `started` and its
    clock does not go back.  No timer is ahead of `TimeCurrent`, which is not
    ahead of the next reading, and no subtraction of durations panics: neither
    in the statistics nor in `update_timers`, where only the buffer for a
    keepalive can be too small. -/
theorem timers_never_underflow {t₀ : Tunn C} {started : Instant} {tr : List Label}
    (hnew : t₀.IsNew started.nanos) (hrun : Run (tunnel C B) t₀ tr t)
    (hclock : Clocked started.nanos tr) :
    (∀ n, t.timers.timers n ≤ t.timers.timers .TimeCurrent) ∧
    (∀ i, t.timers.session_timers i ≤ t.timers.timers .TimeCurrent) ∧
    (∀ next : Instant, ReadAfter started.nanos tr next.nanos →
      t.timers.timers .TimeCurrent ≤ next.duration_since started ∧
      ∃ d, t.time_since_last_handshake next.nanos = .ok d) ∧
    ∀ env dst_len msg, (∀ r, ReadAfter started.nanos tr (env.clock r)) →
      t.update_timers B dst_len env = .panic msg →
        msg = "The destination buffer is too small" ∧ dst_len < DATA_OVERHEAD_SZ := by
  obtain ⟨now, hon, hstarted, hnow⟩ := run_onTime hnew hrun hclock
  have hnext : ∀ next, ReadAfter started.nanos tr next → now ≤ next := by
    intro next hafter
    rcases hnow with rfl | ⟨l, hl, rfl⟩
    · exact hafter.start
    · exact hafter.calls l hl .clear
  refine ⟨hon.timers, hon.session_timers, ?_, ?_⟩
  · intro next hafter
    refine ⟨?_, time_since_last_handshake_returns hon (hnext _ hafter)⟩
    rw [Instant.duration_since_eq, ← hstarted]
    exact (hon.mono (hnext _ hafter)).current
  · intro env dst_len msg hafter hpanic
    exact update_timers_panic hon (hnext _ (hafter .update)) hpanic

/-- A session was established at ten seconds, the timers were updated at a hundred; now
    the statistics are asked for and the timers are updated again. -/
theorem timers_never_underflow_session :
    let B := symbolicBuild false
    ∃ l₁ l₂ t d, Run (tunnel symbolic B) symbolicTunn [l₁, l₂] t ∧
      l₁.op = .handle_verified_packet (.HandshakeInit (symbolicInit 1)) 2048 ∧
      l₂.op = .update_timers 2048 ∧
      t.timers.timers .TimeSessionEstablished ≤ t.timers.timers .TimeCurrent ∧
      t.time_since_last_handshake (101 * SEC) = .ok d ∧
      ∀ msg, t.update_timers B 2048 (symbolicEnv (101 * SEC)) ≠ .panic msg := by
  obtain ⟨⟨r₁, t₁, evs₁⟩, hstep₁, ⟨r₂, t₂, evs₂⟩, hstep₂⟩ : ∃ x,
      symbolicTunn.step (symbolicBuild false)
        (.handle_verified_packet (.HandshakeInit (symbolicInit 1)) 2048) (symbolicEnv (10 * SEC))
          = .ok x ∧
      ∃ y, x.2.1.step (symbolicBuild false) (.update_timers 2048) (symbolicEnv (100 * SEC))
        = .ok y := ⟨_, rfl, _, rfl⟩
  intro B
  let l₁ : Label := ⟨.handle_verified_packet (.HandshakeInit (symbolicInit 1)) 2048,
    symbolicEnv (10 * SEC), r₁, evs₁⟩
  let l₂ : Label := ⟨.update_timers 2048, symbolicEnv (100 * SEC), r₂, evs₂⟩
  obtain ⟨started, hzero⟩ : ∃ now : Instant, now.nanos = 0 :=
    ⟨⟨0, 0, by decide, by decide, by decide⟩, by simp [Instant.nanos, Instant.as_nanos]⟩
  obtain ⟨next, hnext⟩ : ∃ now : Instant, now.nanos = 101 * SEC :=
    ⟨⟨101, 0, by decide, by decide, by decide⟩, by simp [Instant.nanos, Instant.as_nanos, SEC]⟩
  have hfirst : (tunnel symbolic B).step symbolicTunn l₁ t₁ := hstep₁
  have hsecond : (tunnel symbolic B).step t₁ l₂ t₂ := hstep₂
  have hrun : Run (tunnel symbolic B) symbolicTunn [l₁, l₂] t₂ := .snoc (.snoc .nil hfirst) hsecond
  have hclock : Clocked started.nanos [l₁, l₂] := by
    rw [hzero]
    exact ⟨fun _ _ _ => Nat.zero_le _, by simp [l₁, l₂, symbolicEnv],
      by simp [l₁, l₂, symbolicEnv, SEC]⟩
  have hnew : symbolicTunn.IsNew started.nanos := by
    rw [hzero]
    exact ⟨_, _, _, _, _, _, _, _, _, rfl⟩
  have hafter : ReadAfter started.nanos [l₁, l₂] (101 * SEC) := by
    rw [hzero]
    exact ⟨Nat.zero_le _, by simp [l₁, l₂, symbolicEnv, SEC]⟩
  obtain ⟨htimers, _, hstats, hupdate⟩ := timers_never_underflow hnew hrun hclock
  have hstats := hstats next
  rw [hnext] at hstats
  obtain ⟨_, d, hd⟩ := hstats hafter
  refine ⟨l₁, l₂, t₂, d, hrun, rfl, rfl, htimers _, hd, ?_⟩
  intro msg hpanic
  have hsmall := (hupdate _ _ _ (fun _ => hafter) hpanic).2
  exact absurd hsmall (by decide)

end Tunn

end PqBoringtun
