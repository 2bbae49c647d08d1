import Mathlib.Data.List.Count
import PqBoringtun.Noise.Machine

/-! # Where packets come from and go to

    What a tunnel seals on its sessions was passed to `encapsulate`, and
    what it hands to the interface is a prefix of what it has just opened.

    * `Accounted`: one call, with the packets it seals and queues counted
      against those it found in the queue or was given.
    * `FlushFits`: a flush of the queue does not fail.  A flush that fails
      queues its packet twice, once in `encapsulate` and once in
      `send_queued_packet`.
    * `run_accounted`: along a run, packets sealed and queued are at most
      those passed to `encapsulate`.
-/

namespace PqBoringtun

variable {C : Crypto} {B : Build}

/-! ## Section 1: Counting packets -/

/-- Is this a data packet with plaintext `src`? -/
def Event.seals (src : Bytes) : Event → Bool
  | .data _ _ s => s.plaintext = src
  | _ => false

/-- How often `src` was sealed on a session. -/
def sealedCount (src : Bytes) (log : List Event) : Nat := log.countP (Event.seals src)

theorem sealedCount_append (src : Bytes) (log log' : List Event) :
    sealedCount src (log ++ log') = sealedCount src log + sealedCount src log' :=
  List.countP_append

theorem sealedCount_data (src : Bytes) (id : SessionId) (n : Nat) (s : Seal) :
    sealedCount src [.data id n s] = if s.plaintext = src then 1 else 0 := by
  simp [sealedCount, Event.seals, List.countP_singleton]

theorem sealedCount_eq_zero {src : Bytes} {log : List Event}
    (h : ∀ id n s, .data id n s ∈ log → s.plaintext ≠ src) : sealedCount src log = 0 := by
  refine List.countP_eq_zero.mpr fun ev hev hseals => ?_
  cases ev with
  | data id n s => exact h id n s hev (by simpa [Event.seals] using hseals)
  | _ => simp [Event.seals] at hseals

/-- Is this a call of `encapsulate` with `src`? -/
def Op.passes (src : Bytes) : Op → Bool
  | .encapsulate src' _ => src' = src
  | _ => false

/-- How often `src` was passed to `encapsulate`. -/
def callCount (src : Bytes) (tr : List Label) : Nat := tr.countP fun l => l.op.passes src

/-- The packet handed to the interface, with its source address. -/
def TunnResult.toTunnel? : TunnResult → Option (Bytes × IpAddr)
  | .WriteToTunnelV4 packet addr => some (packet, .V4 addr)
  | .WriteToTunnelV6 packet addr => some (packet, .V6 addr)
  | _ => none

/-- The events of a call that hands `packet` to the interface: a data packet was opened, and
    `packet` is the part of it that its header states. -/
def Opens (evs : List Event) (packet : Bytes) (addr : IpAddr) : Prop :=
  ∃ id n plaintext ct len, evs = [.opened id n plaintext ct] ∧ plaintext ≠ [] ∧
    Tunn.ip_header plaintext = some (len, addr) ∧ len ≤ plaintext.length ∧
    packet = plaintext.take len

/-- One call: `given x` packets `x` were passed in. -/
structure Accounted (given : Bytes → Nat) (t : Tunn C) (r : TunnResult) (t' : Tunn C)
    (evs : List Event) : Prop where
  packets : ∀ x, x ≠ [] → sealedCount x evs + t'.packet_queue.count x
    ≤ t.packet_queue.count x + given x
  delivery : ∀ packet addr, r.toTunnel? = some (packet, addr) → Opens evs packet addr

variable {t t' : Tunn C} {r : TunnResult} {evs : List Event} {given : Bytes → Nat}
  {dst_len : Nat} {env : Env}

/-- A call that leaves the queue alone, seals only keepalives and delivers nothing. -/
theorem Accounted.of_same (hqueue : t'.packet_queue = t.packet_queue)
    (hseals : ∀ id n s, .data id n s ∈ evs → s.plaintext = []) (hr : r.toTunnel? = none) :
    Accounted given t r t' evs := by
  refine ⟨fun x hx => ?_, fun packet addr h => ?_⟩
  · rw [hqueue, sealedCount_eq_zero fun id n s hmem heq =>
      hx (heq.symm.trans (hseals id n s hmem))]
    omega
  · rw [hr] at h
    cases h

/-- The queue before the call was already that of `t`. -/
theorem Accounted.of_queue {t₁ : Tunn C} (hqueue : t₁.packet_queue = t.packet_queue)
    (h : Accounted given t₁ r t' evs) : Accounted given t r t' evs :=
  ⟨hqueue ▸ h.packets, h.delivery⟩

/-! ## Section 2: The calls -/

namespace Tunn

theorem queue_packet_count (t : Tunn C) (src x : Bytes) :
    (t.queue_packet src).packet_queue.count x
      ≤ t.packet_queue.count x + if src = x then 1 else 0 := by
  unfold queue_packet
  split
  · simp [List.count_append, List.count_singleton]
  · omega

theorem requeue_packet_count (t : Tunn C) (src x : Bytes) :
    (t.requeue_packet src).packet_queue.count x
      ≤ t.packet_queue.count x + if src = x then 1 else 0 := by
  unfold requeue_packet
  split
  · simp [List.count_cons]
  · omega

@[simp] theorem queue_cleared (t : Tunn C) (env : Env) :
    (t.cleared env).packet_queue = t.packet_queue := by
  unfold cleared
  split <;> rfl

@[simp] theorem queue_initiated (t : Tunn C) (env : Env) (h' : Handshake C) :
    (t.initiated env h').packet_queue = t.packet_queue := by
  unfold initiated
  dsimp only
  split <;> exact queue_cleared t env

theorem accounted_starts {force : Bool} (h : t.Starts B dst_len force env r t' evs) :
    Accounted given t r t' evs := by
  cases h with
  | busy _ _ => exact .of_same rfl nofun rfl
  | no_room _ _ => exact .of_same (queue_cleared t env) nofun rfl
  | sent m h' evs _ hcall =>
    refine .of_same (queue_initiated t env h') ?_ rfl
    rcases Handshake.format_initiation_cases hcall with
      ⟨_, _, _, rfl⟩ | ⟨_, _, _, _, _, _, _, rfl⟩ <;> simp

theorem accounted_encapsulates {src : Bytes} (h : t.Encapsulates B src dst_len env r t' evs) :
    Accounted (fun x => if src = x then 1 else 0) t r t' evs := by
  cases h with
  | sealed session packet _ =>
    refine ⟨fun x _ => ?_, nofun⟩
    have hqueue : (t.after_send B session src).packet_queue = t.packet_queue := by
      unfold after_send
      dsimp only
      split <;> rfl
    rw [sealedCount_data, hqueue, Nat.add_comm]
    exact Nat.le_refl _
  | queued _ hstart =>
    have hinit : Accounted (fun _ => 0) (t.queue_packet src) r t' evs := accounted_starts hstart
    refine ⟨fun x hx => ?_, hinit.delivery⟩
    have hqueue := queue_packet_count t src x
    have := hinit.packets x hx
    omega

/-- A flush of the queue that would start a handshake has room for the initiation. -/
def FlushFits (B : Build) (t : Tunn C) (op : Op) : Prop :=
  ∀ addr dst_len, op = .decapsulate addr [] dst_len → t.packet_queue ≠ [] →
    t.sessions (slot t.current) = none → t.handshake.is_in_progress = false →
    B.variant.init_size ≤ dst_len

/-- `encapsulate` fails only when there is no room for an initiation it has to send. -/
theorem encapsulates_err {src : Bytes} {e : WireGuardError}
    (h : t.Encapsulates B src dst_len env (.Err e) t' evs) :
    t.sessions (slot t.current) = none ∧ t.handshake.is_in_progress = false ∧
      dst_len < B.variant.init_size := by
  cases h with
  | queued hnone hstart =>
    cases hstart with
    | no_room hidle hdst =>
      rw [queue_packet_handshake] at hidle
      exact ⟨hnone, hidle rfl, hdst⟩

/-- A flush seals or queues the packet it takes once, or twice when it fails. -/
theorem accounted_flushes (h : t.Flushes B dst_len env r t' evs) :
    Accounted (fun x => t.packet_queue.count x) t r t' evs ∧
      (∀ addr, FlushFits B t (.decapsulate addr [] dst_len) →
        Accounted (fun _ => 0) t r t' evs) := by
  have hcount : ∀ {packet rest}, t.packet_queue = packet :: rest → ∀ x,
      t.packet_queue.count x = rest.count x + if packet = x then 1 else 0 := by
    intro packet rest hqueue x
    simp [hqueue, List.count_cons]
  cases h with
  | empty _ => exact ⟨.of_same rfl nofun rfl, fun _ _ => .of_same rfl nofun rfl⟩
  | failed packet rest e t₁ evs hqueue henc =>
    obtain ⟨hnone, hidle, hsmall⟩ := encapsulates_err henc
    refine ⟨⟨fun x hx => ?_, nofun⟩, fun addr hfits => ?_⟩
    · have hpackets := (accounted_encapsulates henc).packets x hx
      have hagain := requeue_packet_count t₁ packet x
      have := hcount hqueue x
      dsimp only at hpackets
      omega
    · have := hfits addr dst_len rfl (by rw [hqueue]; exact List.cons_ne_nil _ _) hnone hidle
      omega
  | passed packet rest hqueue _ henc =>
    have hacc := accounted_encapsulates henc
    have honce : ∀ x, x ≠ [] → sealedCount x evs + t'.packet_queue.count x
        ≤ t.packet_queue.count x := by
      intro x hx
      rw [hcount hqueue x]
      exact hacc.packets x hx
    exact ⟨⟨fun x hx => (honce x hx).trans (Nat.le_add_right _ _), hacc.delivery⟩,
      fun _ _ => ⟨honce, hacc.delivery⟩⟩

/-- What is handed to the interface is the part of the packet that its header states. -/
theorem validate_delivers {plaintext packet : Bytes} {addr : IpAddr}
    (h : (t.validate_decapsulated_packet plaintext).1.toTunnel? = some (packet, addr)) :
    plaintext ≠ [] ∧ ∃ len, ip_header plaintext = some (len, addr) ∧ len ≤ plaintext.length ∧
      packet = plaintext.take len := by
  unfold validate_decapsulated_packet at h
  split at h
  · cases h
  rename_i hne
  split at h
  · cases h
  rename_i len src_ip hheader
  split at h
  · cases h
  rename_i hlen
  refine ⟨hne, len, ?_⟩
  cases src_ip with
  | V4 a =>
    cases h
    exact ⟨hheader, Nat.le_of_not_lt hlen, rfl⟩
  | V6 a =>
    cases h
    exact ⟨hheader, Nat.le_of_not_lt hlen, rfl⟩

theorem validate_queue (t : Tunn C) (plaintext : Bytes) :
    (t.validate_decapsulated_packet plaintext).2.packet_queue = t.packet_queue := by
  unfold validate_decapsulated_packet
  split
  · rfl
  split
  · rfl
  split
  · rfl
  · split <;> rfl

theorem set_current_queue (t : Tunn C) (i : Nat) :
    (t.set_current_session i).packet_queue = t.packet_queue := by
  unfold set_current_session
  split
  · rfl
  · split <;> rfl

theorem accounted_receives_data {packet : PacketData} (h : t.ReceivesData B packet r t' evs) :
    Accounted given t r t' evs := by
  cases h with
  | rejected e => exact .of_same rfl nofun rfl
  | accepted session plaintext v t₁ _ _ ht₁ =>
    refine ⟨fun x _ => ?_, fun p addr hdelivered => ?_⟩
    · rw [sealedCount_eq_zero (by simp), validate_queue, ht₁]
      simp only [timer_tick, set_current_queue]
      exact (Nat.zero_add _).trans_le (Nat.le_add_right _ _)
    · obtain ⟨hne, len, hheader, hlen, hp⟩ := validate_delivers hdelivered
      exact ⟨_, _, plaintext, _, len, rfl, hne, hheader, hlen, hp⟩

theorem accounted_handles {packet : Packet} (h : t.Handles B dst_len env packet r t' evs) :
    Accounted given t r t' evs := by
  cases h with
  | init v p ek _ hreceives hres =>
    cases hreceives <;> (cases hres; exact .of_same rfl (by simp) rfl)
  | response v p ct _ hreceives hres =>
    cases hreceives with
    | rejected e =>
      cases hres
      exact .of_same rfl nofun rfl
    | accepted s is_previous rk sk session _ _ _ _ =>
      obtain ⟨⟨keepalive, session', sealed⟩, hfmt, hres⟩ := Outcome.bind_eq_ok.mp hres
      obtain ⟨_, rfl⟩ := Session.format_packet_data_ok hfmt
      cases hres
      -- Only the keepalive is sealed.
      refine .of_same (set_current_queue ..) (fun id n s hs => ?_) rfl
      simp only [List.cons_append, List.nil_append, List.mem_cons, reduceCtorEq, false_or,
        List.not_mem_nil, or_false, Event.data.injEq] at hs
      rw [hs.2.2]
      rfl
  | cookie p hres =>
    unfold handle_cookie_reply at hres
    rcases hreply : t.handshake.receive_cookie_reply p with ⟨_ | _, h'⟩
    all_goals
      rw [hreply] at hres
      cases hres
      exact .of_same rfl nofun rfl
  | data p hreceives => exact accounted_receives_data hreceives

/-- Any datagram but the empty one. -/
theorem accounted_decapsulates {addr : Option IpAddr} {datagram : Bytes} (hne : datagram ≠ [])
    (h : t.Decapsulates B addr datagram dst_len env r t' evs) : Accounted given t r t' evs := by
  cases h with
  | flush hempty _ => exact absurd hempty hne
  | verified packet limiter _ _ hhandles =>
    have hacc : Accounted given _ r t' evs := accounted_handles hhandles
    exact ⟨hacc.packets, hacc.delivery⟩
  | dropped limiter r _ _ hr =>
    rcases hr with ⟨cookie, rfl⟩ | ⟨e, rfl⟩ <;> exact .of_same rfl nofun rfl

theorem accounted_ticks (h : t.Ticks B dst_len env r t' evs) : Accounted given t r t' evs := by
  cases h with
  | expires _ =>
    -- An expired tunnel drops its queue.
    exact ⟨fun _ _ => Nat.zero_le _, nofun⟩
  | retransmits s _ _ _ hstart => exact accounted_starts hstart
  | waits s _ _ _ => exact .of_same rfl nofun rfl
  | rekeys want _ _ hstart =>
    have hacc : Accounted given _ r t' evs := accounted_starts hstart
    exact ⟨hacc.packets, hacc.delivery⟩
  | keepalive want want' t₁ _ _ ht₁ henc =>
    have hqueue : t₁.packet_queue = t.packet_queue := by
      rcases ht₁ with rfl | rfl <;> rfl
    refine .of_queue hqueue ?_
    rcases henc with henc | ⟨rfl, rfl, rfl⟩
    · -- A keepalive that finds no session is queued, too.
      have hacc := accounted_encapsulates henc
      refine ⟨fun x hx => ?_, hacc.delivery⟩
      have hpackets := hacc.packets x hx
      rw [if_neg (Ne.symm hx)] at hpackets
      omega
    · exact .of_same rfl nofun rfl

theorem accounted_updates (h : t.Updates B dst_len env r t' evs) : Accounted given t r t' evs := by
  have hqueue : ∀ {t₁}, t.refresh env = .ok t₁ → t₁.packet_queue = t.packet_queue := by
    intro t₁ hrefresh
    obtain ⟨_, _, _, _, _, rfl⟩ := refresh_cases hrefresh
    rfl
  cases h with
  | expired t₁ hrefresh _ => exact .of_queue (hqueue hrefresh) (.of_same rfl nofun rfl)
  | ticks t₁ cookies hrefresh _ hticks =>
    have hacc : Accounted given _ r t' evs := accounted_ticks hticks
    exact .of_queue (hqueue hrefresh) ⟨hacc.packets, hacc.delivery⟩

/-- **One operation.**  Counted against the queue and the packet passed in, a packet is sealed
    or queued at most once if a flush has room, and at most twice in any case. -/
theorem step_accounted {op : Op} (hstep : t.step B op env = .ok (r, t', evs)) :
    Accounted (fun x => t.packet_queue.count x + if op.passes x then 1 else 0) t r t' evs ∧
      (FlushFits B t op → Accounted (fun x => if op.passes x then 1 else 0) t r t' evs) := by
  have hboth : (∀ {given}, Accounted given t r t' evs) →
      Accounted (fun x => t.packet_queue.count x + if op.passes x then 1 else 0) t r t' evs ∧
      (FlushFits B t op → Accounted (fun x => if op.passes x then 1 else 0) t r t' evs) :=
    fun h => ⟨h, fun _ => h⟩
  cases op with
  | encapsulate src dst_len =>
    have hacc := accounted_encapsulates (encapsulate_cases hstep)
    have hgiven : Accounted (fun x => if (Op.encapsulate src dst_len).passes x then 1 else 0)
        t r t' evs := by simpa [Op.passes] using hacc
    refine ⟨⟨fun x hx => ?_, hacc.delivery⟩, fun _ => hgiven⟩
    have := hgiven.packets x hx
    omega
  | decapsulate addr datagram dst_len =>
    by_cases hempty : datagram = []
    · subst hempty
      obtain ⟨hany, hfits⟩ := accounted_flushes (send_queued_packet_cases hstep)
      exact ⟨hany, fun h => hfits addr h⟩
    · exact hboth (accounted_decapsulates hempty (decapsulate_cases hstep))
  | handle_verified_packet packet dst_len =>
    exact hboth (accounted_handles (handle_verified_packet_cases hstep))
  | update_timers dst_len => exact hboth (accounted_updates (update_timers_cases hstep))
  | format_handshake_initiation dst_len force =>
    injection hstep with hstep
    exact hboth (accounted_starts (format_handshake_initiation_cases hstep))
  | set_static_private priv pub lim =>
    obtain ⟨t₁, hset, hstep⟩ := Outcome.bind_eq_ok.mp hstep
    obtain ⟨params, _, hset⟩ := Outcome.bind_eq_ok.mp hset
    cases hset
    cases hstep
    exact hboth (.of_same rfl nofun rfl)
  | shared c n l =>
    cases hstep
    exact hboth (.of_same rfl nofun rfl)

/-! ## Section 3: Runs -/

variable {t₀ : Tunn C} {tr : List Label}

theorem callCount_snoc (x : Bytes) (tr : List Label) (l : Label) :
    callCount x (tr ++ [l]) = callCount x tr + if l.op.passes x then 1 else 0 := by
  simp [callCount, List.countP_singleton]

/-- **Without failing flushes**, packets sealed and queued are at most those passed in. -/
theorem run_accounted
    (hrun : Run ((tunnel C B).guard fun t l => FlushFits B t l.op) t₀ tr t)
    (hempty : t₀.packet_queue = []) :
    ∀ x, x ≠ [] → sealedCount x (events tr) + t.packet_queue.count x ≤ callCount x tr := by
  refine hrun.invariant (I := fun tr (t : Tunn C) => ∀ x, x ≠ [] →
    sealedCount x (events tr) + t.packet_queue.count x ≤ callCount x tr) ?_ ?_
  · intro x _
    rw [hempty]
    exact Nat.zero_le _
  · intro tr t l t' ih hstep x hx
    have hacc := ((step_accounted hstep.1).2 hstep.2).packets x hx
    have := ih x hx
    rw [events_snoc, sealedCount_append, callCount_snoc]
    omega

/-- **In every run**, packets sealed and queued were passed in. -/
theorem run_sources (hrun : Run (tunnel C B) t₀ tr t) (hempty : t₀.packet_queue = []) :
    ∀ x, x ≠ [] → 0 < sealedCount x (events tr) + t.packet_queue.count x → 0 < callCount x tr := by
  refine hrun.invariant (I := fun tr (t : Tunn C) => ∀ x, x ≠ [] →
    0 < sealedCount x (events tr) + t.packet_queue.count x → 0 < callCount x tr) ?_ ?_
  · intro x _ hpos
    rw [hempty] at hpos
    exact absurd hpos (Nat.lt_irrefl 0)
  · intro tr t l t' ih hstep x hx hpos
    have hacc := (step_accounted hstep).1.packets x hx
    have := ih x hx
    rw [events_snoc, sealedCount_append] at hpos
    rw [callCount_snoc]
    omega

/-- What a run hands to the interface it has just opened. -/
theorem run_delivers (hrun : Run (tunnel C B) t₀ tr t) {l : Label} (hl : l ∈ tr) {packet : Bytes}
    {addr : IpAddr} (hr : l.result.toTunnel? = some (packet, addr)) :
    Opens l.events packet addr := by
  induction hrun with
  | nil => cases hl
  | snoc _ hstep ih =>
    rcases List.mem_append.mp hl with hl | hl
    · exact ih hl
    · obtain rfl := List.mem_singleton.mp hl
      exact (step_accounted hstep).1.delivery packet addr hr

end Tunn

end PqBoringtun
