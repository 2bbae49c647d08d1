import PqBoringtun.Framework.Fifo
import PqBoringtun.Noise.Sources
import PqBoringtun.Noise.Symbolic

/-! # The packet queue

    Packets that find no session wait in a queue.  The queue is meant to be
    the bounded queue of `Fifo`: packets leave in the order they came.

    `send_queued_packet` takes the first packet and hands it to
    `encapsulate`.  Without a session `encapsulate` puts it back at the end,
    and if the initiation that is then due does not fit, it fails and the
    packet is put back at the front as well.

    * Section 1: what each call does to the queue.
    * Section 2: a flush without a session keeps the queue exactly if all
      waiting packets are equal and the flush does not fail (or the queue is
      full).
    * Section 3: with such flushes only, a run of a tunnel is a run of the
      bounded queue.
-/

namespace PqBoringtun

variable {C : Crypto} {B : Build}

/-! ## Section 1: Calls and the queue -/

/-- The plaintext of the first data packet in a log. -/
def sealedPacket (evs : List Event) : Option Bytes :=
  evs.findSome? fun ev =>
    match ev with
    | .data _ _ s => some s.plaintext
    | _ => none

namespace Tunn

variable {t t' : Tunn C} {r : TunnResult} {evs : List Event} {dst_len : Nat} {env : Env}

theorem queue_packet_queue (t : Tunn C) (src : Bytes) : (t.queue_packet src).packet_queue =
    if t.packet_queue.length < MAX_QUEUE_DEPTH then t.packet_queue ++
      [src] else t.packet_queue := by
  unfold queue_packet
  split <;> rfl

theorem requeue_packet_queue (t : Tunn C) (src : Bytes) : (t.requeue_packet src).packet_queue =
    if t.packet_queue.length < MAX_QUEUE_DEPTH then src :: t.packet_queue else t.packet_queue := by
  unfold requeue_packet
  split <;> rfl

/-- An own initiation leaves the queue alone and seals no packet. -/
theorem queue_starts {force : Bool} (h : t.Starts B dst_len force env r t' evs) :
    t'.packet_queue = t.packet_queue ∧ sealedPacket evs = none := by
  cases h with
  | busy _ _ => exact ⟨rfl, rfl⟩
  | no_room _ _ => exact ⟨queue_cleared t env, rfl⟩
  | sent m h' evs _ hcall =>
    refine ⟨queue_initiated t env h', ?_⟩
    rcases Handshake.format_initiation_cases hcall with
      ⟨_, _, _, rfl⟩ | ⟨_, _, _, _, _, _, _, rfl⟩ <;> rfl

/-- `encapsulate` seals the packet or offers it to the queue. -/
theorem queue_encapsulates {src : Bytes} (h : t.Encapsulates B src dst_len env r t' evs) :
    ((∃ session, t.sessions (slot t.current) = some session) ∧ sealedPacket evs = some src ∧
        t'.packet_queue = t.packet_queue) ∨
      (t.sessions (slot t.current) = none ∧ sealedPacket evs = none ∧
        t'.packet_queue = (t.queue_packet src).packet_queue) := by
  cases h with
  | sealed session packet hsession htype =>
    refine Or.inl ⟨⟨session, hsession⟩, rfl, ?_⟩
    unfold after_send
    dsimp only
    split <;> rfl
  | queued hnone hstart =>
    obtain ⟨hqueue, hsealed⟩ := queue_starts hstart
    exact Or.inr ⟨hnone, hsealed, hqueue⟩

/-- A packet from the peer leaves the queue alone. -/
theorem queue_handles {packet : Packet} (h : t.Handles B dst_len env packet r t' evs) :
    t'.packet_queue = t.packet_queue := by
  cases h with
  | init v p ek _ hreceives hres =>
    cases hreceives <;> (cases hres; rfl)
  | response v p ct _ hreceives hres =>
    cases hreceives with
    | rejected e =>
      cases hres
      rfl
    | accepted s is_previous rk sk session _ _ _ _ =>
      obtain ⟨⟨keepalive, session', sealed⟩, _, hres⟩ := Outcome.bind_eq_ok.mp hres
      cases hres
      exact set_current_queue ..
  | cookie p hres =>
    unfold handle_cookie_reply at hres
    rcases hreply : t.handshake.receive_cookie_reply p with ⟨_ | _, h'⟩
    all_goals
      rw [hreply] at hres
      cases hres
      rfl
  | data p hreceives =>
    cases hreceives with
    | rejected e => rfl
    | accepted session plaintext v t₁ _ _ ht₁ =>
      rw [validate_queue, ht₁]
      exact set_current_queue ..

/-- A timer update keeps the queue, queues a keepalive, or clears the queue. -/
theorem queue_updates (h : t.Updates B dst_len env r t' evs) :
    t'.packet_queue = t.packet_queue ∨ t'.packet_queue = (t.queue_packet []).packet_queue ∨
      (t'.packet_queue = [] ∧ r = .Err .ConnectionExpired) := by
  have hrefreshed : ∀ {t₁}, t.refresh env = .ok t₁ → t₁.packet_queue = t.packet_queue := by
    intro t₁ hrefresh
    obtain ⟨_, _, _, _, _, rfl⟩ := refresh_cases hrefresh
    rfl
  have hqueued : ∀ {t₁ : Tunn C}, t₁.packet_queue = t.packet_queue →
      (t₁.queue_packet []).packet_queue = (t.queue_packet []).packet_queue := by
    intro t₁ hsame
    rw [queue_packet_queue, queue_packet_queue, hsame]
  cases h with
  | expired t₁ hrefresh _ => exact Or.inl (hrefreshed hrefresh)
  | ticks t₁ cookies hrefresh _ hticks =>
    have hsame := hrefreshed hrefresh
    cases hticks with
    | expires _ => exact Or.inr (Or.inr ⟨rfl, rfl⟩)
    | retransmits s _ _ _ hstart => exact Or.inl ((queue_starts hstart).1.trans hsame)
    | waits s _ _ _ => exact Or.inl hsame
    | rekeys want _ _ hstart => exact Or.inl ((queue_starts hstart).1.trans hsame)
    | keepalive want want' t₂ _ _ ht₂ henc =>
      have hsame₂ : t₂.packet_queue = t.packet_queue := by
        rcases ht₂ with rfl | rfl <;> exact hsame
      rcases henc with henc | ⟨_, rfl, _⟩
      · rcases queue_encapsulates henc with ⟨_, _, hqueue⟩ | ⟨_, _, hqueue⟩
        · exact Or.inl (hqueue.trans hsame₂)
        · exact Or.inr (Or.inl (hqueue.trans (hqueued hsame₂)))
      · exact Or.inl hsame₂

/-! ## Section 2: Flushes -/

/-- A call that queues its packet fails exactly if an initiation is due and does not fit. -/
theorem encapsulates_queued {src : Bytes} (h : t.Encapsulates B src dst_len env r t' evs)
    (hnone : t.sessions (slot t.current) = none) :
    (∃ e, r = .Err e) ↔ ¬ (t.handshake.is_in_progress = true ∨ B.variant.init_size ≤ dst_len) := by
  cases h with
  | sealed session packet hsession _ =>
    rw [hnone] at hsession
    cases hsession
  | queued _ hstart =>
    cases hstart with
    | busy hbusy _ =>
      rw [queue_packet_handshake] at hbusy
      simp [hbusy]
    | no_room hidle hdst =>
      have hidle := hidle rfl
      rw [queue_packet_handshake] at hidle
      simp [hidle, hdst]
    | sent m h' evs hidle hcall =>
      rcases Handshake.format_initiation_cases hcall with ⟨_, hres, _⟩ | ⟨hroom, _⟩
      · cases hres
      · simp [hroom]

/-- **What a flush does to the queue.** -/
theorem queue_flushes (h : t.Flushes B dst_len env r t' evs)
    (hcap : t.packet_queue.length ≤ MAX_QUEUE_DEPTH) :
    (t.packet_queue = [] ∧ sealedPacket evs = none ∧ t'.packet_queue = []) ∨
      ∃ p rest, t.packet_queue = p :: rest ∧
        (((∃ session, t.sessions (slot t.current) = some session) ∧ sealedPacket evs = some p ∧
          t'.packet_queue = rest) ∨
        (t.sessions (slot t.current) = none ∧ sealedPacket evs = none ∧
          t'.packet_queue =
            if t.handshake.is_in_progress = true ∨ B.variant.init_size ≤ dst_len ∨
              MAX_QUEUE_DEPTH ≤ t.packet_queue.length then rest ++ [p]
            else p :: (rest ++ [p]))) := by
  -- The place of the packet that was taken is free.
  have hroom : ∀ {p rest}, t.packet_queue = p :: rest →
      ({ t with packet_queue := rest }.queue_packet p).packet_queue = rest ++ [p] := by
    intro p rest hqueue
    rw [hqueue] at hcap
    rw [queue_packet_queue, if_pos (Nat.lt_of_succ_le hcap)]
  cases h with
  | empty hqueue => exact Or.inl ⟨hqueue, rfl, hqueue⟩
  | failed p rest e t₁ evs hqueue henc =>
    refine Or.inr ⟨p, rest, hqueue, Or.inr ?_⟩
    rcases queue_encapsulates henc with ⟨_, hsealed, _⟩ | ⟨hnone, hsealed, hqueued⟩
    · cases henc with
      | queued hnone hstart =>
        rw [(queue_starts hstart).2] at hsealed
        cases hsealed
    · have hfails := (encapsulates_queued henc hnone).mp ⟨e, rfl⟩
      dsimp only at hfails
      rw [not_or] at hfails
      refine ⟨hnone, hsealed, ?_⟩
      rw [requeue_packet_queue, hqueued, hroom hqueue, hqueue]
      by_cases hfull : MAX_QUEUE_DEPTH ≤ (rest ++ [p]).length
      · have hfull' : MAX_QUEUE_DEPTH ≤ (p :: rest).length := by simpa using hfull
        rw [if_neg (Nat.not_lt.mpr hfull), if_pos (Or.inr (Or.inr hfull'))]
      · have hfull' : ¬ MAX_QUEUE_DEPTH ≤ (p :: rest).length := by simpa using hfull
        rw [if_pos (Nat.lt_of_not_le hfull), if_neg
          (by simp only [not_or]; exact ⟨hfails.1, hfails.2, hfull'⟩)]
  | passed p rest hqueue hr henc =>
    refine Or.inr ⟨p, rest, hqueue, ?_⟩
    rcases queue_encapsulates henc with ⟨hsession, hsealed, hqueue'⟩ | ⟨hnone, hsealed, hqueued⟩
    · exact Or.inl ⟨hsession, hsealed, hqueue'⟩
    · have hreturns : t.handshake.is_in_progress = true ∨ B.variant.init_size ≤ dst_len := by
        by_contra hfails
        obtain ⟨e, rfl⟩ := (encapsulates_queued henc hnone).mpr hfails
        exact hr e rfl
      refine Or.inr ⟨hnone, hsealed, ?_⟩
      rw [hqueued, hroom hqueue, if_pos (by rw [← or_assoc]; exact Or.inl hreturns)]

/-- A flush that finds no session leaves the queue as it is: all waiting packets are equal, and
    the flush does not fail or the queue is full. -/
def KeepsOrder (B : Build) (t : Tunn C) (dst_len : Nat) : Prop :=
  t.sessions (slot t.current) = none → ∀ p rest, t.packet_queue = p :: rest →
    rest ++ [p] = p :: rest ∧ (t.handshake.is_in_progress = true ∨
      B.variant.init_size ≤ dst_len ∨ MAX_QUEUE_DEPTH ≤ t.packet_queue.length)

/-- **A flush takes the first packet or changes nothing**, exactly under this condition. -/
theorem flush_keeps_iff (h : t.Flushes B dst_len env r t' evs)
    (hcap : t.packet_queue.length ≤ MAX_QUEUE_DEPTH) :
    ((∃ p, sealedPacket evs = some p ∧ t.packet_queue = p :: t'.packet_queue) ∨
      (sealedPacket evs = none ∧ t'.packet_queue = t.packet_queue)) ↔ t.KeepsOrder B dst_len := by
  rcases queue_flushes h hcap with ⟨hempty, hsealed, hsame⟩ |
    ⟨p, rest, hqueue, ⟨⟨session, hsession⟩, hsealed, hrest⟩ | ⟨hnone, hsealed, hqueue'⟩⟩
  · refine iff_of_true (Or.inr ⟨hsealed, hsame.trans hempty.symm⟩) fun _ p rest hqueue => ?_
    rw [hempty] at hqueue
    cases hqueue
  · refine iff_of_true (Or.inl ⟨p, hsealed, hrest ▸ hqueue⟩) fun hnone => ?_
    rw [hsession] at hnone
    cases hnone
  · rw [hsealed]
    constructor
    · rintro (⟨_, hsome, _⟩ | ⟨_, hsame⟩) _ p' rest' hqueue''
      · cases hsome
      · obtain ⟨rfl, rfl⟩ : p = p' ∧ rest = rest' := List.cons.inj (hqueue.symm.trans hqueue'')
        rw [hqueue'] at hsame
        split at hsame
        · rename_i hreturns
          exact ⟨hsame.trans hqueue, hreturns⟩
        · -- The packet would be there twice.
          rw [hqueue] at hsame
          simpa using congrArg List.length hsame
    · intro hkeeps
      obtain ⟨hrotate, hreturns⟩ := hkeeps hnone p rest hqueue
      refine Or.inr ⟨rfl, ?_⟩
      rw [hqueue', if_pos hreturns, hrotate, hqueue]

/-! ## Section 3: The bounded queue -/

/-- What a call of a tunnel shows of the queue.  A packet passed to
    `encapsulate` is sealed or offered; a flush that seals a packet takes it
    and any other flush does nothing; the timers can offer a keepalive or end
    the connection. -/
def Shows (l : Label) (act : Fifo.Act Bytes) : Prop :=
  match l.op with
  | .encapsulate src _ =>
    (sealedPacket l.events = some src ∧ act = .idle) ∨
      (sealedPacket l.events = none ∧ (act = .push src ∨ act = .drop src))
  | .decapsulate _ [] _ =>
    (∃ p, sealedPacket l.events = some p ∧ act = .pop p) ∨
      (sealedPacket l.events = none ∧ act = .idle)
  | .update_timers _ =>
    act = .idle ∨ act = .push [] ∨ act = .drop [] ∨
      (act = .clear ∧ l.result = .Err .ConnectionExpired)
  | _ => act = .idle

/-- A flush in this step keeps the order. -/
def FlushKeeps (B : Build) (t : Tunn C) (l : Label) : Prop :=
  ∀ addr dst_len, l.op = .decapsulate addr [] dst_len → t.KeepsOrder B dst_len

/-- A packet offered to the queue enters it or is dropped. -/
theorem offered {src : Bytes} (h : t'.packet_queue = (t.queue_packet src).packet_queue) :
    ∃ act, (act = .push src ∨ act = .drop src) ∧
      (Fifo.queue Bytes MAX_QUEUE_DEPTH).step t.packet_queue act t'.packet_queue := by
  rw [queue_packet_queue] at h
  split at h
  · rename_i hroom
    exact ⟨.push src, Or.inl rfl, hroom, h⟩
  · rename_i hfull
    exact ⟨.drop src, Or.inr rfl, Nat.le_of_not_lt hfull, h⟩

/-- **A call is a step of the bounded queue.** -/
theorem step_shows {l : Label} (hcap : t.packet_queue.length ≤ MAX_QUEUE_DEPTH)
    (hstep : (tunnel C B).step t l t') (hkeeps : FlushKeeps B t l) :
    ∃ act, Shows l act ∧
      (Fifo.queue Bytes MAX_QUEUE_DEPTH).step t.packet_queue act t'.packet_queue := by
  obtain ⟨op, env, r, evs⟩ := l
  have hstep : t.step B op env = .ok (r, t', evs) := hstep
  cases op with
  | encapsulate src dst_len =>
    rcases queue_encapsulates (encapsulate_cases hstep) with
      ⟨_, hsealed, hsame⟩ | ⟨_, hsealed, hqueued⟩
    · exact ⟨.idle, Or.inl ⟨hsealed, rfl⟩, hsame⟩
    · obtain ⟨act, hact, hqueue⟩ := offered hqueued
      exact ⟨act, Or.inr ⟨hsealed, hact⟩, hqueue⟩
  | decapsulate addr datagram dst_len =>
    cases datagram with
    | nil =>
      have hflush := send_queued_packet_cases hstep
      rcases (flush_keeps_iff hflush hcap).mpr (hkeeps addr dst_len rfl) with
        ⟨p, hsealed, hqueue⟩ | ⟨hsealed, hsame⟩
      · exact ⟨.pop p, Or.inl ⟨p, hsealed, rfl⟩, hqueue⟩
      · exact ⟨.idle, Or.inr ⟨hsealed, rfl⟩, hsame⟩
    | cons b bs =>
      refine ⟨.idle, rfl, ?_⟩
      cases decapsulate_cases hstep with
      | flush hempty _ => cases hempty
      | verified packet limiter _ _ hhandles =>
        have hsame := queue_handles hhandles
        exact hsame
      | dropped limiter r _ _ _ => rfl
  | handle_verified_packet packet dst_len =>
    exact ⟨.idle, rfl, queue_handles (handle_verified_packet_cases hstep)⟩
  | update_timers dst_len =>
    rcases queue_updates (update_timers_cases hstep) with hsame | hqueued | ⟨hempty, hr⟩
    · exact ⟨.idle, Or.inl rfl, hsame⟩
    · obtain ⟨act, hact, hqueue⟩ := offered hqueued
      exact ⟨act, Or.inr (hact.elim Or.inl fun h => Or.inr (Or.inl h)), hqueue⟩
    · exact ⟨.clear, Or.inr (Or.inr (Or.inr ⟨rfl, hr⟩)), hempty⟩
  | format_handshake_initiation dst_len force =>
    injection hstep with hstep
    exact ⟨.idle, rfl, (queue_starts (format_handshake_initiation_cases hstep)).1⟩
  | set_static_private priv pub limiter =>
    obtain ⟨t₁, hset, hstep⟩ := Outcome.bind_eq_ok.mp hstep
    obtain ⟨params, _, hset⟩ := Outcome.bind_eq_ok.mp hset
    cases hset
    cases hstep
    exact ⟨.idle, rfl, rfl⟩
  | shared count nonce_ctr last_reset =>
    cases hstep
    exact ⟨.idle, rfl, rfl⟩

end Tunn

/-! ### Two packets change places -/

end PqBoringtun
