import PqBoringtun.Device.Get
import PqBoringtun.Device.Receiving
import PqBoringtun.Device.Revocation
import PqBoringtun.Noise.Flushing
import PqBoringtun.Noise.Panics

/-! # No handler panics

    The handlers of a device reach many panics: references into the heap,
    buffers that are too small, subtractions of durations, and results that
    the handler does not expect.  On a device that was reached from the start,
    what makes a handler panic is that it has no private key or no sockets.

    * Section 1: packets that wait in a tunnel fit the buffers of a device.
    * Section 2: the invariant of a device (`Device.Sound`).
    * Section 3: the handlers return.
    * Section 4: so do their loops, on every reachable device
      (`Device.run_returns`).
-/

namespace PqBoringtun

variable {C : Crypto} {B : Build}

/-! ## Section 1: Waiting packets -/

/-- A packet for the tunnel leaves room for the header and the tag. -/
def Op.Fits : Op → Prop
  | .encapsulate src _ => src.length + DATA_OVERHEAD_SZ ≤ MAX_UDP_SIZE
  | _ => True

/-- A packet from the interface leaves room for the header and the tag. -/
def DeviceOp.Fits : DeviceOp → Prop
  | .iface src _ => src.length + DATA_OVERHEAD_SZ ≤ MAX_UDP_SIZE
  | _ => True

namespace Tunn

variable {t t' : Tunn C} {r : TunnResult} {evs : List Event} {dst_len size : Nat} {env : Env}
  {src : Bytes}

theorem QueueFits.queue_packet (h : t.QueueFits size) (hsrc : src.length + DATA_OVERHEAD_SZ ≤ size) :
    (t.queue_packet src).QueueFits size := by
  intro packet hmem
  rw [queue_packet_queue] at hmem
  split at hmem
  · rcases List.mem_append.mp hmem with hmem | hmem
    · exact h packet hmem
    · rw [List.mem_singleton.mp hmem]
      exact hsrc
  · exact h packet hmem

theorem QueueFits.requeue_packet (h : t.QueueFits size)
    (hsrc : src.length + DATA_OVERHEAD_SZ ≤ size) : (t.requeue_packet src).QueueFits size := by
  intro packet hmem
  rw [requeue_packet_queue] at hmem
  split at hmem
  · rcases List.mem_cons.mp hmem with rfl | hmem
    · exact hsrc
    · exact h packet hmem
  · exact h packet hmem

/-- The queue is that of another tunnel. -/
theorem QueueFits.of_queue (h : t.QueueFits size) (hqueue : t'.packet_queue = t.packet_queue) :
    t'.QueueFits size := by
  unfold QueueFits
  rw [hqueue]
  exact h

theorem QueueFits.encapsulates (h : t.QueueFits size)
    (hsrc : src.length + DATA_OVERHEAD_SZ ≤ size)
    (henc : t.Encapsulates B src dst_len env r t' evs) : t'.QueueFits size := by
  rcases queue_encapsulates henc with ⟨_, _, hqueue⟩ | ⟨_, _, hqueue⟩
  · exact h.of_queue hqueue
  · exact (h.queue_packet hsrc).of_queue hqueue

theorem QueueFits.flushes (h : t.QueueFits size) (hflush : t.Flushes B dst_len env r t' evs) :
    t'.QueueFits size := by
  have htaken : ∀ {packet rest}, t.packet_queue = packet :: rest →
      packet.length + DATA_OVERHEAD_SZ ≤ size ∧ { t with packet_queue := rest }.QueueFits size := by
    intro packet rest hqueue
    refine ⟨h packet (by rw [hqueue]; exact List.mem_cons_self), ?_⟩
    intro packet' hmem
    exact h packet' (by rw [hqueue]; exact List.mem_cons_of_mem _ hmem)
  cases hflush with
  | empty _ => exact h
  | failed packet rest e t₁ evs hqueue henc =>
    obtain ⟨hpacket, hrest⟩ := htaken hqueue
    exact (hrest.encapsulates hpacket henc).requeue_packet hpacket
  | passed packet rest hqueue _ henc =>
    obtain ⟨hpacket, hrest⟩ := htaken hqueue
    exact hrest.encapsulates hpacket henc

/-- **A call keeps the queue within the bound.** -/
theorem QueueFits.step {op : Op} (h : t.QueueFits MAX_UDP_SIZE)
    (hstep : t.step B op env = .ok (r, t', evs)) (hop : op.Fits) : t'.QueueFits MAX_UDP_SIZE := by
  cases step_cases hstep with
  | handles packet limiter dst_len _ _ hhandles =>
    have hqueue := queue_handles hhandles
    exact h.of_queue hqueue
  | drops addr datagram dst_len r limiter _ _ _ => exact h
  | flushes addr dst_len hflush => exact h.flushes hflush
  | encapsulates src dst_len henc => exact h.encapsulates hop henc
  | updates dst_len hupdate =>
    rcases queue_updates hupdate with hqueue | hqueue | ⟨hqueue, _⟩
    · exact h.of_queue hqueue
    · exact (h.queue_packet (by decide)).of_queue hqueue
    · intro packet hmem
      rw [hqueue] at hmem
      cases hmem
  | starts dst_len force hstart => exact h.of_queue (queue_starts hstart).1
  | rekeys priv pub limiter t' hset =>
    obtain ⟨params, _, hset⟩ := Outcome.bind_eq_ok.mp hset
    cases hset
    exact h
  | shares count nonce_ctr last_reset => exact h

theorem QueueFits.run {tr : List Label} (h : t.QueueFits MAX_UDP_SIZE)
    (hrun : Run (tunnel C B) t tr t') (hops : ∀ l ∈ tr, l.op.Fits) :
    t'.QueueFits MAX_UDP_SIZE := by
  refine hrun.invariant_of (A := fun tr => ∀ l ∈ tr, l.op.Fits)
    (I := fun _ t => t.QueueFits MAX_UDP_SIZE) ?_ h ?_ hops
  · intro tr l hall l' hl'
    exact hall l' (List.mem_append_left _ hl')
  · intro tr t l t' hall hfits hstep
    exact hfits.step hstep (hall l (by simp))

/-- `encapsulate` and `update_timers` never write to the interface. -/
theorem Starts.toTunnel? {force : Bool} (h : t.Starts B dst_len force env r t' evs) :
    r.toTunnel? = none := by
  cases h with
  | busy _ _ => rfl
  | no_room _ _ => rfl
  | sent _ _ _ _ _ => rfl

theorem Encapsulates.toTunnel? (h : t.Encapsulates B src dst_len env r t' evs) :
    r.toTunnel? = none := by
  cases h with
  | sealed _ _ _ _ => rfl
  | queued _ hstart => exact hstart.toTunnel?

theorem Updates.toTunnel? (h : t.Updates B dst_len env r t' evs) : r.toTunnel? = none := by
  cases h with
  | expired _ _ _ => rfl
  | ticks _ _ _ _ hticks =>
    cases hticks with
    | expires _ => rfl
    | retransmits _ _ _ _ hstart => exact hstart.toTunnel?
    | waits _ _ _ _ => rfl
    | rekeys _ _ _ hstart => exact hstart.toTunnel?
    | keepalive _ _ _ _ _ _ henc =>
      rcases henc with henc | ⟨rfl, _, _⟩
      · exact henc.toTunnel?
      · rfl

/-- What `decapsulate` needs to return, on a device. -/
structure Receivable (B : Build) (packet : Bytes) : Prop where
  length_le : packet.length ≤ MAX_UDP_SIZE
  counter : ∀ p, parse_incoming_packet B packet = .ok (.PacketData p) → CounterFits B p.counter

theorem decapsulate_any_returns (hC : C.Sized) (hcookies : C.CookieSized) (hopen : C.OpenSized)
    (h : t.QueueFits MAX_UDP_SIZE) (addr : Option IpAddr) {packet : Bytes}
    (hpacket : Receivable B packet) (env : Env) :
    ∃ res, t.decapsulate B addr packet MAX_UDP_SIZE env = .ok res := by
  by_cases hne : packet = []
  · subst hne
    obtain ⟨⟨r, t'⟩, hcall⟩ := flush_call_returns (B := B) h env
    obtain ⟨evs, hsend⟩ := flush_call_eq_ok.mp hcall
    unfold decapsulate
    rw [if_pos rfl]
    exact ⟨_, hsend⟩
  · exact decapsulate_returns hC hcookies hopen addr hne
      (Nat.max_le.mpr ⟨by decide, hpacket.length_le⟩) hpacket.counter

end Tunn

theorem parse_anon_returns (hopen : C.OpenSized) (v : Variant) (priv pub : Bytes)
    (packet : HandshakeInit) : ∃ res, (parse_anon C v priv pub packet).run = .ok res := by
  unfold parse_anon
  exact Attempt.run_bind_returns (open_returns hopen packet.static_length) fun _ => ⟨_, rfl⟩

namespace Device

variable {d d₁ d' : Device C} {r : PeerRef} {p : Peer C} {calls calls' : List Call}
  {outputs : List Output} {op : DeviceOp}

/-! ## Section 2: The invariant -/

/-- The calls of a handler fit, and what its calls do not touch. -/
structure Ordinary (d : Device C) (calls : List Call) (d' : Device C) : Prop where
  fits : ∀ c ∈ calls, c.2.op.Fits
  rate_limiter : d'.rate_limiter = d.rate_limiter
  listening : d'.listening = d.listening

namespace Ordinary

theorem refl (d : Device C) : Ordinary d [] d := ⟨by simp, rfl, rfl⟩

theorem trans (h : Ordinary d calls d₁) (h' : Ordinary d₁ calls' d') :
    Ordinary d (calls ++ calls') d' where
  fits := by
    intro c hc
    rcases List.mem_append.mp hc with hc | hc
    · exact h.fits c hc
    · exact h'.fits c hc
  rate_limiter := h'.rate_limiter.trans h.rate_limiter
  listening := h'.listening.trans h.listening

theorem call {op : Op} {env : Env} {result : TunnResult}
    (h : d.call B r op env = .ok (result, d', calls)) (hop : op.Fits) : Ordinary d calls d' := by
  obtain ⟨p, tunnel, events, _, _, rfl, rfl⟩ := call_eq_ok.mp h
  refine ⟨?_, rfl, rfl⟩
  intro c hc
  rw [List.mem_singleton.mp hc]
  exact hop

theorem flush_loop {env : Nat → Env} {packets : List Bytes} {n : Nat}
    (h : d.flush_loop B r env n = .ok (d', calls, packets)) : Ordinary d calls d' := by
  induction n generalizing d calls packets with
  | zero =>
    cases h
    exact .refl _
  | succ n ih =>
    obtain ⟨⟨result, d₁, calls₁⟩, hcall, h⟩ := Outcome.bind_eq_ok.mp h
    dsimp only at h
    split at h
    · obtain ⟨⟨d₂, calls₂, packets₂⟩, hloop, h⟩ := Outcome.bind_eq_ok.mp h
      cases h
      exact (Ordinary.call hcall trivial).trans (ih hloop)
    · cases h
      exact .call hcall trivial

theorem respond {result : TunnResult} {send : Bytes → Output} {env : Nat → Env}
    (h : d.respond B r result send env = .ok (d', calls, outputs)) : Ordinary d calls d' := by
  unfold Device.respond at h
  cases result with
  | WriteToNetwork packet =>
    obtain ⟨⟨d₁, calls₁, packets⟩, hflush, h⟩ := Outcome.bind_eq_ok.mp h
    cases h
    unfold flush at hflush
    split at hflush
    · cases hflush
      exact .refl _
    · exact .flush_loop hflush
  | Done =>
    cases h
    exact .refl _
  | Err e =>
    cases h
    exact .refl _
  | WriteToTunnelV4 packet addr =>
    cases h
    exact .refl _
  | WriteToTunnelV6 packet addr =>
    cases h
    exact .refl _

theorem redirect {addr : SocketAddr} {connects : Bool}
    (h : d.redirect r addr connects = .ok d') : Ordinary d [] d' := by
  unfold Device.redirect at h
  split at h
  · cases h
  · dsimp only at h
    split at h
    · obtain ⟨⟨udp, p₂⟩, _, h⟩ := Outcome.bind_eq_ok.mp h
      cases udp with
      | none =>
        cases h
        exact ⟨by simp, rfl, rfl⟩
      | some udp =>
        cases h
        exact ⟨by simp, rfl, rfl⟩
    · cases h
      exact ⟨by simp, rfl, rfl⟩

theorem shutdown_endpoint (d : Device C) (r : PeerRef) : Ordinary d [] (d.shutdown_endpoint r) := by
  unfold Device.shutdown_endpoint
  split
  · exact .refl d
  · exact ⟨by simp, rfl, rfl⟩

theorem conn_handler {handler : ConnHandler} {packet : Bytes} {env : HandlerEnv}
    (h : d.conn_handler B handler packet env = .ok (d', calls, outputs)) : Ordinary d calls d' := by
  obtain ⟨⟨result, d₁, calls₁⟩, hcall, h⟩ := Outcome.bind_eq_ok.mp h
  obtain ⟨⟨d₂, calls₂, outputs₂⟩, hrespond, h⟩ := Outcome.bind_eq_ok.mp h
  cases h
  exact (Ordinary.call hcall trivial).trans (.respond hrespond)

theorem iface_handler {src : Bytes} {env : Env}
    (hsrc : src.length + DATA_OVERHEAD_SZ ≤ MAX_UDP_SIZE)
    (h : d.iface_handler B src env = .ok (d', calls, outputs)) : Ordinary d calls d' := by
  unfold Device.iface_handler at h
  split at h
  · cases h
  split at h
  · cases h
    exact .refl _
  · obtain ⟨⟨result, d₁, calls₁⟩, hcall, h⟩ := Outcome.bind_eq_ok.mp h
    have hcalled : Ordinary d calls₁ d₁ := .call hcall hsrc
    cases result with
    | Done =>
      cases h
      exact hcalled
    | Err e =>
      cases h
      exact hcalled
    | WriteToNetwork packet =>
      cases h
      exact hcalled
    | WriteToTunnelV4 packet addr => cases h
    | WriteToTunnelV6 packet addr => cases h

theorem timers_loop {env : PeerRef → Env} {rs : List PeerRef}
    (h : d.timers_loop B env rs = .ok (d', calls, outputs)) : Ordinary d calls d' := by
  induction rs generalizing d calls outputs with
  | nil =>
    cases h
    exact .refl _
  | cons r rs ih =>
    unfold Device.timers_loop at h
    split at h
    · exact ih h
    · obtain ⟨⟨result, d₁, calls₁⟩, hcall, h⟩ := Outcome.bind_eq_ok.mp h
      obtain ⟨⟨d₂, output⟩, hresult, h⟩ := Outcome.bind_eq_ok.mp h
      obtain ⟨⟨d₃, calls₃, outputs₃⟩, hrest, h⟩ := Outcome.bind_eq_ok.mp h
      cases h
      have hclose : Ordinary d₁ [] d₂ := by
        split at hresult
        · cases hresult
          exact .refl _
        · cases hresult
          exact .shutdown_endpoint d₁ r
        · cases hresult
          exact .refl _
        · cases hresult
          exact .refl _
        · cases hresult
      exact (Ordinary.call hcall trivial).trans (hclose.trans (ih hrest))

end Ordinary

/-- The handler of anonymous datagrams replaces the limiter by itself. -/
theorem udp_handler_fits {addr : SocketAddr} {packet : Bytes} {env : HandlerEnv}
    (h : d.udp_handler B addr packet env = .ok (d', calls, outputs)) :
    (∀ c ∈ calls, c.2.op.Fits) ∧ d'.rate_limiter.isSome = true := by
  cases udp_handler_cases h with
  | dropped limiter _ => exact ⟨by simp, rfl⟩
  | failed _ _ _ _ hcall =>
    have hcalled := Ordinary.call hcall trivial
    exact ⟨hcalled.fits, by rw [hcalled.rate_limiter]; rfl⟩
  | accepted _ _ _ _ hcall _ hrespond hredirect =>
    have hall := ((Ordinary.call hcall trivial).trans (.respond hrespond)).trans
      (.redirect hredirect)
    rw [List.append_nil] at hall
    exact ⟨hall.fits, by rw [hall.rate_limiter]; rfl⟩

theorem open_listen_socket_limiter (port : Nat) (bound : Option Nat) :
    (d.open_listen_socket port bound).rate_limiter = d.rate_limiter := by
  have hclose : ∀ (rs : List PeerRef) (d : Device C),
      (rs.foldl shutdown_endpoint d).rate_limiter = d.rate_limiter := by
    intro rs
    induction rs with
    | nil => exact fun d => rfl
    | cons r rs ih => exact fun d => (ih _).trans (Ordinary.shutdown_endpoint d r).rate_limiter
  unfold open_listen_socket
  cases bound with
  | none => exact hclose _ _
  | some assigned => exact hclose _ _

/-- With a private key there is a rate limiter. -/
def Keyed (d : Device C) : Prop := d.key_pair.isSome = true → d.rate_limiter.isSome = true

theorem Keyed.of_same (h : d.Keyed) (hkeys : d'.key_pair = d.key_pair)
    (hlimiter : d'.rate_limiter = d.rate_limiter) : d'.Keyed := by
  unfold Keyed
  rw [hkeys, hlimiter]
  exact h

theorem Changes.keyed (h : Changes B d op calls d') (hd : d.Keyed) : d'.Keyed := by
  cases h with
  | same_key _ => exact hd
  | set_key _ _ => exact fun _ => rfl
  | unknown _ _ => exact hd
  | remove _ _ _ => exact hd
  | add _ _ _ _ _ _ => exact hd
  | clear => exact hd

theorem Changes.fits (h : Changes B d op calls d') : ∀ c ∈ calls, c.2.op.Fits := by
  cases h with
  | set_key _ hloop =>
    intro c hc
    rw [(set_static_private_rekeys hloop).calls_op (show (c.1, c.2) ∈ _ from hc)]
    trivial
  | _ => simp

/-- The calls of a step fit if its packet does. -/
theorem step_fits (hop : op.Fits) (h : d.step B op = .ok (d', calls, outputs)) :
    ∀ c ∈ calls, c.2.op.Fits := by
  cases op with
  | udp addr packet env => exact (udp_handler_fits h).1
  | conn handler packet env =>
    simp only [step] at h
    split at h
    · exact (Ordinary.conn_handler h).fits
    · cases h
      simp
  | iface src env => exact (Ordinary.iface_handler hop h).fits
  | timers env =>
    have h : d.timers_handler B env = .ok (d', calls, outputs) := h
    unfold timers_handler at h
    split at h
    · exact (Ordinary.timers_loop h).fits
    · cases h
      simp
  | shared r count nonce_ctr last_reset env =>
    obtain ⟨⟨_, d₁, calls₁⟩, hcall, h⟩ := Outcome.bind_eq_ok.mp h
    cases h
    exact (Ordinary.call hcall trivial).fits
  | set_key private_key now env =>
    obtain ⟨⟨d₁, calls₁⟩, hset, h⟩ := Outcome.bind_eq_ok.mp h
    cases h
    exact (set_key_changes hset).fits
  | update_peer pub_key config new =>
    obtain ⟨d₁, _, h⟩ := Outcome.bind_eq_ok.mp h
    cases h
    simp
  | _ =>
    cases h
    simp

/-- A step keeps the limiter. -/
theorem step_keyed (hop : op.Fits) (hd : d.Keyed) (h : d.step B op = .ok (d', calls, outputs)) : d'.Keyed := by
  rcases step_cases h with hchanges | hacts
  · exact hchanges.keyed hd
  have hkeys := hacts.same_tables.key_pair
  cases op with
  | udp addr packet env => exact fun _ => (udp_handler_fits h).2
  | conn handler packet env =>
    simp only [step] at h
    split at h
    · exact hd.of_same hkeys (Ordinary.conn_handler h).rate_limiter
    · cases h
      exact hd
  | iface src env =>
    exact hd.of_same hkeys (Ordinary.iface_handler hop h).rate_limiter
  | timers env =>
    have h : d.timers_handler B env = .ok (d', calls, outputs) := h
    unfold timers_handler at h
    split at h
    · exact hd.of_same hkeys (Ordinary.timers_loop h).rate_limiter
    · cases h
      exact hd
  | shared r count nonce_ctr last_reset env =>
    obtain ⟨⟨_, d₁, calls₁⟩, hcall, h⟩ := Outcome.bind_eq_ok.mp h
    cases h
    exact hd.of_same hkeys (Ordinary.call hcall trivial).rate_limiter
  | open_listen_socket port bound =>
    cases h
    exact hd.of_same hkeys (open_listen_socket_limiter port bound)
  | reset_count now =>
    cases h
    intro hsome
    rw [Option.isSome_map]
    exact hd hsome
  | limiter count nonce_ctr last_reset =>
    cases h
    intro hsome
    rw [Option.isSome_map]
    exact hd hsome
  | set_fwmark mark =>
    cases h
    exact hd
  | cancel handler =>
    cases h
    exact hd
  | set_key private_key now env =>
    obtain ⟨⟨d₁, calls₁⟩, hset, h⟩ := Outcome.bind_eq_ok.mp h
    cases h
    exact (set_key_changes hset).keyed hd
  | update_peer pub_key config new =>
    obtain ⟨d₁, hupdate, h⟩ := Outcome.bind_eq_ok.mp h
    cases h
    have hchanges : Changes B d (.update_peer pub_key config new) [] d' :=
      update_peer_changes hupdate
    exact hchanges.keyed hd
  | remove_peer pub_key =>
    cases h
    have hchanges : Changes B d (.remove_peer pub_key) [] (d.remove_peer pub_key) :=
      remove_peer_changes (Or.inl rfl)
    exact hchanges.keyed hd
  | clear_peers =>
    cases h
    exact hd

/-- **The invariant of a device**: the tables are in order, waiting packets fit, there is a limiter
    with a key, and the peers of registered handlers exist. -/
structure Sound (d : Device C) : Prop where
  tables : d.Tables
  fits : ∀ {r : PeerRef} {p : Peer C}, d.heap[r]? = some p → p.tunnel.QueueFits MAX_UDP_SIZE
  keyed : d.Keyed
  handlers : ∀ h ∈ d.queue, h.peer < d.heap.length

/-- The peers of handlers exist. -/
theorem Acts.handlers (h : Acts B d calls d') (hd : ∀ h ∈ d.queue, h.peer < d.heap.length) :
    ∀ h ∈ d'.queue, h.peer < d'.heap.length := by
  refine h.invariant (I := fun d => ∀ h ∈ d.queue, h.peer < d.heap.length) ?_ hd
  intro d calls d' hd hact
  rw [hact.same_tables.heap_length]
  cases hact with
  | connect ip hp _ _ =>
    intro handler hmem
    rcases List.mem_append.mp hmem with hmem | hmem
    · exact hd handler hmem
    · rw [List.mem_singleton.mp hmem]
      exact (List.getElem?_eq_some_iff.mp hp).1
  | cancel handler => exact fun h hmem => hd h (List.mem_of_mem_erase hmem)
  | _ => exact hd

theorem Changes.queue (h : Changes B d op calls d') : d'.queue = d.queue := by
  have hloop : ∀ {rs : List PeerRef} {priv pub : Bytes} {limiter : RateLimiter} {env : Env}
      {d d₁ : Device C} {calls : List Call},
      d.set_static_private B priv pub limiter env rs = .ok (d₁, calls) → d₁.queue = d.queue := by
    intro rs
    induction rs with
    | nil =>
      intro _ _ _ _ d d₁ calls h
      cases h
      rfl
    | cons r rs ih =>
      intro _ _ _ _ d d₁ calls h
      obtain ⟨⟨_, d₂, calls₂⟩, hcall, h⟩ := Outcome.bind_eq_ok.mp h
      obtain ⟨⟨d₃, calls₃⟩, hrest, h⟩ := Outcome.bind_eq_ok.mp h
      cases h
      exact (ih hrest).trans (call_sockets hcall).queue
  cases h with
  | set_key _ hset =>
    have hsame := hloop hset
    exact hsame
  | _ => rfl

namespace Sound

theorem new {use_connected_socket : Bool} {seed mask : UInt32} {hseed : Seed seed}
    {hmask : Seed mask} :
    (Device.new use_connected_socket (.default seed mask hseed hmask) : Device C).Sound where
  tables := .new
  fits := by
    intro r p hp
    cases hp
  keyed := fun h => h
  handlers := by
    intro h hmem
    cases hmem

theorem step (h : d.Sound) (hstep : d.step B op = .ok (d', calls, outputs)) (hop : op.Fits) :
    d'.Sound where
  tables := h.tables.step hstep
  fits := by
    intro r p' hp'
    have hadvances := step_advances hstep
    by_cases hr : r < d.heap.length
    · obtain ⟨p'', hp'', hbecomes⟩ := hadvances.peer (List.getElem?_eq_getElem hr)
      obtain rfl := Option.some.inj (hp'.symm.trans hp'')
      refine (h.fits (List.getElem?_eq_getElem hr)).run hbecomes.run ?_
      intro l hl
      exact step_fits hop hstep _ (mem_labelsOf.mp hl)
    · -- a peer that the step has added
      rcases step_cases hstep with hchanges | hacts
      · obtain ⟨_, _, _, _, htunnel⟩ := hchanges.created (Nat.not_lt.mp hr) hp'
        intro packet hmem
        rw [htunnel] at hmem
        cases hmem
      · have hlt : r < d'.heap.length := (List.getElem?_eq_some_iff.mp hp').1
        rw [hacts.same_tables.heap_length] at hlt
        exact absurd hlt hr
  keyed := step_keyed hop h.keyed hstep
  handlers := by
    rcases step_cases hstep with hchanges | hacts
    · rw [hchanges.queue]
      intro handler hmem
      exact (h.handlers handler hmem).trans_le (step_advances hstep).length_le
    · exact hacts.handlers h.handlers

theorem run {use_connected_socket : Bool} {seed mask : UInt32} {hseed : Seed seed}
    {hmask : Seed mask} {tr : List DeviceLabel}
    (hrun : Run (device C B) (.new use_connected_socket (.default seed mask hseed hmask)) tr d)
    (hfits : ∀ l ∈ tr, l.op.Fits) : d.Sound := by
  refine hrun.invariant_of (A := fun tr => ∀ l ∈ tr, l.op.Fits) (I := fun _ d => d.Sound) ?_ .new ?_
    hfits
  · intro tr l hall l' hl'
    exact hall l' (List.mem_append_left _ hl')
  · intro tr d l d' hall hd hstep
    exact hd.step hstep (hall l (by simp))

end Sound

/-! ## Section 3: Handlers -/

section returns
variable (hC : C.Sized) (hcookies : C.CookieSized) (hopen : C.OpenSized)

theorem call_returns {op : Op} {env : Env} (hp : d.heap[r]? = some p)
    (hstep : ∃ res, p.tunnel.step B op env = .ok res) :
    ∃ result tunnel events, p.tunnel.step B op env = .ok (result, tunnel, events) ∧
      d.call B r op env = .ok (result, d.put r ({ p with tunnel }, none),
        [(r, ⟨op, env, result, events⟩)]) := by
  obtain ⟨⟨result, tunnel, events⟩, hstep⟩ := hstep
  exact ⟨result, tunnel, events, hstep, call_eq_ok.mpr ⟨p, tunnel, events, hp, hstep, rfl, rfl⟩⟩

theorem flush_loop_returns (hp : d.heap[r]? = some p) (hfits : p.tunnel.QueueFits MAX_UDP_SIZE)
    (env : Nat → Env) (n : Nat) :
    ∃ d' calls packets p', d.flush_loop B r env n = .ok (d', calls, packets) ∧
      d'.heap[r]? = some p' := by
  induction n generalizing d p with
  | zero => exact ⟨d, [], [], p, rfl, hp⟩
  | succ n ih =>
    have hreturns : ∃ res,
        p.tunnel.step B (.decapsulate none [] MAX_UDP_SIZE) (env n) = .ok res := by
      obtain ⟨x, hcall⟩ := Tunn.flush_call_returns (B := B) hfits (env n)
      obtain ⟨res, hres, _⟩ := Outcome.bind_eq_ok.mp hcall
      exact ⟨res, hres⟩
    obtain ⟨result, tunnel, events, hstep, hcall⟩ := call_returns hp hreturns
    have hp₁ : (d.put r ({ p with tunnel }, none)).heap[r]? = some { p with tunnel } :=
      getElem?_put hp
    obtain ⟨d₂, calls₂, packets₂, p₂, hloop, hp₂⟩ := ih hp₁ (hfits.step hstep trivial)
    unfold flush_loop
    rw [hcall, Outcome.ok_bind]
    dsimp only
    split
    · rw [hloop]
      exact ⟨_, _, _, p₂, rfl, hp₂⟩
    · exact ⟨_, _, _, _, rfl, hp₁⟩

theorem respond_returns (hp : d.heap[r]? = some p) (hfits : p.tunnel.QueueFits MAX_UDP_SIZE)
    (result : TunnResult) (send : Bytes → Output) (env : Nat → Env) :
    ∃ d' calls outputs p', d.respond B r result send env = .ok (d', calls, outputs) ∧
      d'.heap[r]? = some p' := by
  unfold respond
  cases result with
  | WriteToNetwork packet =>
    obtain ⟨d', calls, packets, p', hloop, hp'⟩ :=
      flush_loop_returns (B := B) hp hfits env (p.tunnel.packet_queue.length + 2)
    have hflush : d.flush B r env = .ok (d', calls, packets) := by
      unfold flush
      rw [hp]
      exact hloop
    dsimp only
    rw [hflush]
    exact ⟨d', calls, _, p', rfl, hp'⟩
  | Done => exact ⟨d, [], [], p, rfl, hp⟩
  | Err e => exact ⟨d, [], [], p, rfl, hp⟩
  | WriteToTunnelV4 packet addr => exact ⟨d, [], _, p, rfl, hp⟩
  | WriteToTunnelV6 packet addr => exact ⟨d, [], _, p, rfl, hp⟩

include hopen in
theorem find_peer_returns (private_key public_key : Bytes) (packet : Packet) :
    ∃ peer, d.find_peer private_key public_key packet = .ok peer := by
  cases packet with
  | HandshakeInit p =>
    obtain ⟨half, hhalf⟩ := parse_anon_returns hopen .classical private_key public_key p
    unfold find_peer parse_handshake_anon
    dsimp only
    rw [hhalf]
    cases half with
    | ok half => exact ⟨_, rfl⟩
    | error e => exact ⟨_, rfl⟩
  | PqHandshakeInit p =>
    obtain ⟨half, hhalf⟩ := parse_anon_returns hopen .pq private_key public_key p.toHandshakeInit
    unfold find_peer parse_pq_handshake_anon
    dsimp only
    rw [hhalf]
    cases half with
    | ok half => exact ⟨_, rfl⟩
    | error e => exact ⟨_, rfl⟩
  | HandshakeResponse p => exact ⟨_, rfl⟩
  | PqHandshakeResponse p => exact ⟨_, rfl⟩
  | PacketCookieReply p => exact ⟨_, rfl⟩
  | PacketData p => exact ⟨_, rfl⟩

/-- A peer of a table is in the heap. -/
theorem Sound.listed (h : d.Sound) (hlisted : d.Listed r) : ∃ p, d.heap[r]? = some p := by
  obtain ⟨k, hk⟩ := h.tables.listed hlisted
  obtain ⟨p, hfiled⟩ := h.tables.peers hk
  exact ⟨p, hfiled.heap⟩

include hopen in
theorem udp_datagram_returns (h : d.Sound) (hkeys : d.key_pair.isSome = true) {g : Datagram}
    (hg : Tunn.Receivable B g.packet) :
    ∃ counts turn d', udp_datagram B g d = .ok (counts, turn, d') := by
  obtain ⟨⟨private_key, public_key⟩, hkeys'⟩ := Option.isSome_iff_exists.mp hkeys
  obtain ⟨limiter, hlimiter⟩ := Option.isSome_iff_exists.mp (h.keyed hkeys)
  unfold udp_datagram
  split
  · rename_i hnone
    rw [hkeys'] at hnone
    cases hnone
  · rename_i hnone _
    rw [hlimiter] at hnone
    cases hnone
  · rename_i private_key public_key limiter _ _
    cases hverify : limiter.verify_packet C B (some g.addr.ip) g.packet MAX_UDP_SIZE
      (g.env.first.clock .cookie) with
    | mk verified limiter' =>
    dsimp only
    split
    · exact ⟨_, _, _, rfl⟩
    · exact ⟨_, _, _, rfl⟩
    · rename_i packet
      have hparse := RateLimiter.verify_packet_parse hverify
      obtain ⟨peer, hfind⟩ := find_peer_returns (d := { d with rate_limiter := some limiter' })
        hopen private_key public_key packet
      rw [hfind, Outcome.ok_bind]
      cases peer with
      | none => exact ⟨_, _, _, rfl⟩
      | some r =>
        obtain ⟨p, hp⟩ := h.listed (find_peer_listed (d := d) hfind)
        have hreturns : ∃ res, p.tunnel.step B (.handle_verified_packet packet MAX_UDP_SIZE)
            g.env.first = .ok res := by
          refine Tunn.handle_verified_packet_returns hopen packet (by decide) ?_
          rintro data rfl
          exact ⟨(Tunn.parse_data_length hparse).trans hg.length_le, hg.counter data hparse⟩
        obtain ⟨result, tunnel, events, hstep, hcall⟩ :=
          call_returns (d := { d with rate_limiter := some limiter' }) hp hreturns
        dsimp only
        rw [hcall, Outcome.ok_bind]
        dsimp only
        split
        · exact ⟨_, _, _, rfl⟩
        · have hfits : tunnel.QueueFits MAX_UDP_SIZE := (h.fits hp).step hstep trivial
          have hp₁ : ({ d with rate_limiter := some limiter' }.put r
              ({ p with tunnel }, none)).heap[r]? = some { p with tunnel } :=
            getElem?_put (d := { d with rate_limiter := some limiter' }) hp
          obtain ⟨d₂, calls₂, outputs₂, p₂, hrespond, hp₂⟩ := respond_returns (B := B) hp₁ hfits
            result (.send_to · g.addr) g.env.flush
          obtain ⟨d₃, _, hredirect, _⟩ := redirect_returns g.addr g.env.connects hp₂
          rw [hrespond, Outcome.ok_bind]
          dsimp only
          rw [hredirect]
          exact ⟨_, _, _, rfl⟩

include hC hcookies hopen in
theorem conn_handler_returns (h : d.Sound) {handler : ConnHandler}
    (hhandler : handler.peer < d.heap.length) {packet : Bytes} (hpacket : Tunn.Receivable B packet)
    (env : HandlerEnv) : ∃ res, d.conn_handler B handler packet env = .ok res := by
  have hp := List.getElem?_eq_getElem hhandler
  have hfits := h.fits hp
  have hreturns : ∃ res, d.heap[handler.peer].tunnel.step B
      (.decapsulate (some handler.peer_addr) packet MAX_UDP_SIZE) env.first = .ok res :=
    Tunn.decapsulate_any_returns hC hcookies hopen hfits (some handler.peer_addr) hpacket env.first
  obtain ⟨result, tunnel, events, hstep, hcall⟩ := call_returns hp hreturns
  have hfits₁ : tunnel.QueueFits MAX_UDP_SIZE := hfits.step hstep trivial
  have hp₁ : (d.put handler.peer ({ d.heap[handler.peer] with tunnel }, none)).heap[handler.peer]?
      = some { d.heap[handler.peer] with tunnel } := getElem?_put hp
  obtain ⟨d₂, calls₂, outputs₂, p₂, hrespond, _⟩ := respond_returns (B := B) hp₁ hfits₁ result
    (.send · handler.udp) env.flush
  unfold conn_handler
  rw [hcall, Outcome.ok_bind]
  dsimp only
  rw [hrespond]
  exact ⟨_, rfl⟩

theorem iface_handler_returns (h : d.Sound) (hlistening : d.listening = true) {src : Bytes}
    (hsrc : src.length + DATA_OVERHEAD_SZ ≤ MAX_UDP_SIZE) (env : Env) :
    ∃ res, d.iface_handler B src env = .ok res := by
  unfold iface_handler
  rw [if_neg (by simp [hlistening])]
  split
  · exact ⟨_, rfl⟩
  · rename_i r hfind
    obtain ⟨a, _, ha⟩ := Option.bind_eq_some_iff.mp hfind
    obtain ⟨p, hp⟩ := h.listed (Or.inr (Or.inr ⟨a, ha⟩))
    have hreturns : ∃ res, p.tunnel.step B (.encapsulate src MAX_UDP_SIZE) env = .ok res :=
      p.tunnel.encapsulate_of_room env hsrc
    obtain ⟨result, tunnel, events, hstep, hcall⟩ := call_returns hp hreturns
    have hnone := (Tunn.encapsulate_cases hstep).toTunnel?
    rw [hcall, Outcome.ok_bind]
    cases result with
    | Done => exact ⟨_, rfl⟩
    | Err e => exact ⟨_, rfl⟩
    | WriteToNetwork packet => exact ⟨_, rfl⟩
    | WriteToTunnelV4 packet addr => cases hnone
    | WriteToTunnelV6 packet addr => cases hnone

/-- The timers of a peer can be updated. -/
def Due (d : Device C) (env : PeerRef → Env) (r : PeerRef) : Prop :=
  ∀ p, d.heap[r]? = some p → ∃ now, p.tunnel.timers.OnTime now ∧ now ≤ (env r).clock .update

theorem timers_loop_returns {env : PeerRef → Env} {rs : List PeerRef} (hnodup : rs.Nodup)
    (hdue : ∀ r ∈ rs, d.Due env r) : ∃ res, d.timers_loop B env rs = .ok res := by
  induction rs generalizing d with
  | nil => exact ⟨_, rfl⟩
  | cons r rs ih =>
    obtain ⟨hnot, hnodup⟩ := List.nodup_cons.mp hnodup
    unfold timers_loop
    split
    · exact ih hnodup fun r' hr' => hdue r' (List.mem_cons_of_mem _ hr')
    · rename_i addr haddr
      obtain ⟨p, hp, _⟩ := Option.bind_eq_some_iff.mp haddr
      obtain ⟨now, hon, hnow⟩ := hdue r List.mem_cons_self p hp
      have hreturns : ∃ res, p.tunnel.step B (.update_timers MAX_UDP_SIZE) (env r) = .ok res := by
        cases hcall : p.tunnel.update_timers B MAX_UDP_SIZE (env r) with
        | ok res => exact ⟨res, hcall⟩
        | panic msg =>
          have hsmall := (Tunn.update_timers_panic hon hnow hcall).2
          exact absurd hsmall (by decide)
      obtain ⟨result, tunnel, events, hstep, hcall⟩ := call_returns hp hreturns
      have hnone := (Tunn.update_timers_cases hstep).toTunnel?
      -- the other peers are as before
      have hrest : ∀ p' (d₁ : Device C), d₁.heap = d.heap.set r p' →
          ∃ res, d₁.timers_loop B env rs = .ok res := by
        intro p' d₁ hheap
        refine ih hnodup fun r' hr' q hq => ?_
        have hne : r ≠ r' := by
          rintro rfl
          exact hnot hr'
        rw [hheap, List.getElem?_set_ne hne] at hq
        exact hdue r' (List.mem_cons_of_mem _ hr') q hq
      have hsame := hrest _ (d.put r ({ p with tunnel }, none)) rfl
      rw [hcall, Outcome.ok_bind]
      dsimp only
      split
      · obtain ⟨res, hres⟩ := hsame
        rw [Outcome.ok_bind, hres]
        exact ⟨_, rfl⟩
      · have hclosed : ((d.put r ({ p with tunnel }, none)).shutdown_endpoint r).heap
            = d.heap.set r (Peer.shutdown_endpoint { p with tunnel }).1 := by
          unfold Device.shutdown_endpoint
          rw [getElem?_put hp]
          exact List.set_set _
        obtain ⟨res, hres⟩ := hrest _ _ hclosed
        rw [Outcome.ok_bind, hres]
        exact ⟨_, rfl⟩
      · obtain ⟨res, hres⟩ := hsame
        rw [Outcome.ok_bind, hres]
        exact ⟨_, rfl⟩
      · obtain ⟨res, hres⟩ := hsame
        rw [Outcome.ok_bind, hres]
        exact ⟨_, rfl⟩
      · rename_i hdone _ herr hnetwork
        cases result with
        | Done => exact absurd rfl hdone
        | Err e => exact absurd rfl (herr e)
        | WriteToNetwork packet => exact absurd rfl (hnetwork packet)
        | WriteToTunnelV4 packet addr => cases hnone
        | WriteToTunnelV6 packet addr => cases hnone

end returns

/-! ## Section 4: Loops -/

section loops
variable (hC : C.Sized) (hcookies : C.CookieSized) (hopen : C.OpenSized)

include hopen in
/-- The loop over anonymous datagrams returns if there is a private key, and only then. -/
theorem udp_receive_returns_iff (h : d.Sound) {queue : List Datagram}
    (hqueue : ∀ g ∈ queue, Tunn.Receivable B g.packet) :
    (∃ res, d.udp_receive B queue = .ok res) ↔ d.key_pair.isSome = true := by
  constructor
  · rintro ⟨res, hres⟩
    unfold udp_receive at hres
    split at hres
    · cases hres
    · cases hres
    · rename_i keys limiter hkeys _
      rw [hkeys]
      rfl
  · intro hkeys
    have hbody : ∀ g ∈ queue, ∀ d : Device C, d.Sound ∧ d.key_pair.isSome = true →
        ∃ counts turn d', udp_datagram B g d = .ok (counts, turn, d') ∧
          d'.Sound ∧ d'.key_pair.isSome = true := by
      intro g hg d hd
      obtain ⟨counts, turn, d', hbody⟩ := udp_datagram_returns hopen hd.1 hd.2 (hqueue g hg)
      have hstep : d.step B g.op = .ok (d', turn.1, turn.2) := (udp_datagram_handler hbody).1
      refine ⟨counts, turn, d', hbody, hd.1.step hstep trivial, ?_⟩
      rw [(udp_handler_acts hstep).same_tables.key_pair]
      exact hd.2
    obtain ⟨turns, left, d', hdrain, _⟩ := Batch.drain_returns hbody MAX_ITR ⟨h, hkeys⟩
    obtain ⟨keys, hkeys'⟩ := Option.isSome_iff_exists.mp hkeys
    obtain ⟨limiter, hlimiter⟩ := Option.isSome_iff_exists.mp (h.keyed hkeys)
    unfold udp_receive
    rw [hkeys', hlimiter]
    exact ⟨_, hdrain⟩

include hC hcookies hopen in
theorem conn_receive_returns (h : d.Sound) {handler : ConnHandler} (hhandler : d.Open handler)
    {queue : List (Bytes × HandlerEnv)} (hqueue : ∀ g ∈ queue, Tunn.Receivable B g.1) :
    ∃ res, d.conn_receive B handler queue = .ok res := by
  have hbody : ∀ g ∈ queue, ∀ d : Device C, d.Sound ∧ d.Open handler →
      ∃ counts turn d', conn_datagram B handler g d = .ok (counts, turn, d') ∧
        d'.Sound ∧ d'.Open handler := by
    intro g hg d hd
    obtain ⟨⟨d', calls, outputs⟩, hcall⟩ := conn_handler_returns hC hcookies hopen hd.1
      (hd.1.handlers handler hd.2.1) (hqueue g hg) g.2
    have hturn : conn_datagram B handler g d = .ok (true, (calls, outputs), d') := by
      unfold conn_datagram
      rw [hcall]
      rfl
    have hstep := (hd.2.step_eq (B := B) g).trans hcall
    exact ⟨true, (calls, outputs), d', hturn, hd.1.step hstep trivial,
      (conn_handler_sockets hcall).open_iff.mpr hd.2⟩
  obtain ⟨turns, left, d', hdrain, _⟩ := Batch.drain_returns hbody MAX_ITR ⟨h, hhandler⟩
  exact ⟨_, hdrain⟩

/-- The loop over the interface returns if there are sockets, and only then. -/
theorem iface_receive_returns_iff (h : d.Sound) {queue : List (Bytes × Env)}
    (hqueue : ∀ g ∈ queue, g.1.length + DATA_OVERHEAD_SZ ≤ MAX_UDP_SIZE) (error : ReadError) :
    (∃ res, d.iface_receive B queue error = .ok res) ↔ d.listening = true := by
  constructor
  · rintro ⟨res, hres⟩
    unfold iface_receive at hres
    split at hres
    · cases hres
    · rename_i hlistening
      simpa using hlistening
  · intro hlistening
    have hbody : ∀ g ∈ queue, ∀ d : Device C, d.Sound ∧ d.listening = true →
        ∃ counts turn d', iface_packet B g d = .ok (counts, turn, d') ∧
          d'.Sound ∧ d'.listening = true := by
      intro g hg d hd
      obtain ⟨⟨d', calls, outputs⟩, hcall⟩ :=
        iface_handler_returns (B := B) hd.1 hd.2 (hqueue g hg) g.2
      have hturn : iface_packet B g d = .ok (true, (calls, outputs), d') := by
        unfold iface_packet
        rw [hcall]
        rfl
      have hstep : d.step B (ifaceOp g) = .ok (d', calls, outputs) := hcall
      refine ⟨true, (calls, outputs), d', hturn, hd.1.step hstep (hqueue g hg), ?_⟩
      rw [(Ordinary.iface_handler (hqueue g hg) hcall).listening]
      exact hd.2
    obtain ⟨turns, left, d', hdrain, _⟩ := Batch.drain_returns hbody MAX_ITR ⟨h, hlistening⟩
    unfold iface_receive
    rw [if_neg (by simp [hlistening]), hdrain]
    exact ⟨_, rfl⟩

theorem Tables.peer_values_nodup (h : d.Tables) : d.peer_values.Nodup := by
  have hkeys : (d.peers.entries.map Sigma.fst).Nodup := d.peers.nodupKeys
  refine List.Nodup.map_on ?_ (List.Nodup.of_map _ hkeys)
  rintro ⟨k, r⟩ hmem ⟨k', r'⟩ hmem' heq
  obtain rfl : r = r' := heq
  obtain rfl := h.key_inj (AList.mem_lookup_iff.mpr hmem) (AList.mem_lookup_iff.mpr hmem')
  rfl

/-- The clock has not gone back for any of the peers, and their timers are updated after their
    calls. -/
def UpdatedAfter (d : Device C) (calls : List Call) (env : PeerRef → Env) : Prop :=
  ∀ (r : PeerRef) (p : Peer C), d.heap[r]? = some p →
    Clocked p.tunnel.timers.time_started (labelsOf r calls) ∧
    Tunn.ReadAfter p.tunnel.timers.time_started (labelsOf r calls) ((env r).clock .update)

theorem timers_handler_returns (h : d.Tables) (hruns : PeerRuns B calls d) {env : PeerRef → Env}
    (henv : d.UpdatedAfter calls env) : ∃ res, d.timers_handler B env = .ok res := by
  unfold timers_handler
  split
  · refine timers_loop_returns h.peer_values_nodup fun r _ p hp => ?_
    obtain ⟨hclock, hread⟩ := henv r p hp
    obtain ⟨now, hon, hafter⟩ := hruns.onTime hp hclock
    exact ⟨now, hon, hafter hread⟩
  · exact ⟨_, rfl⟩

include hC hcookies hopen in
/-- **No handler panics on a reachable device.**  Packets from the interface leave room for the
    header and the tag; datagrams are any bytes, except that where overflows panic the counters of
    data packets leave room for the window.  The handlers of anonymous datagrams and of the
    interface return for every queue, unless the device has no private key or no sockets; those of
    connected sockets always return, and so do the timers if the clock does not go back. -/
theorem run_returns {use_connected_socket : Bool} {seed mask : UInt32} {hseed : Seed seed}
    {hmask : Seed mask} {tr : List DeviceLabel}
    (hrun : Run (device C B) (.new use_connected_socket (.default seed mask hseed hmask)) tr d)
    (hfits : ∀ l ∈ tr, l.op.Fits) :
    (∀ queue : List Datagram, (∀ g ∈ queue, Tunn.Receivable B g.packet) →
      ((∃ res, d.udp_receive B queue = .ok res) ↔ d.key_pair.isSome = true)) ∧
    (∀ handler, d.Open handler → ∀ queue : List (Bytes × HandlerEnv),
      (∀ g ∈ queue, Tunn.Receivable B g.1) → ∃ res, d.conn_receive B handler queue = .ok res) ∧
    (∀ (queue : List (Bytes × Env)) (error : ReadError),
      (∀ g ∈ queue, g.1.length + DATA_OVERHEAD_SZ ≤ MAX_UDP_SIZE) →
        ((∃ res, d.iface_receive B queue error = .ok res) ↔ d.listening = true)) ∧
    ∀ env, d.UpdatedAfter (deviceCalls tr) env → ∃ res, d.timers_handler B env = .ok res := by
  have hsound := Sound.run hrun hfits
  refine ⟨?_, ?_, ?_, ?_⟩
  · intro queue hqueue
    exact udp_receive_returns_iff hopen hsound hqueue
  · intro handler hhandler queue hqueue
    exact conn_receive_returns hC hcookies hopen hsound hhandler hqueue
  · intro queue error hqueue
    exact iface_receive_returns_iff hsound hqueue error
  · intro env henv
    exact timers_handler_returns hsound.tables (run_created hrun) henv

end loops

section
-- The handlers are evaluated.
set_option maxRecDepth 20000

end

end Device

end PqBoringtun
