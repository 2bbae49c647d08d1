import PqBoringtun.Device.Handlers

/-! # What a step of a device can do

    `Device.step_cases` says once what a step does: a change of the
    configuration (`Changes`), or a sequence of small actions of a handler
    (`Acts`): a call of a tunnel, closing, moving or connecting an endpoint,
    and what does not concern the peers.  Invariants are proved for these.
-/

namespace PqBoringtun

namespace Device

variable {C : Crypto} {B : Build} {d d₁ d' : Device C} {r : PeerRef} {calls calls' : List Call}
  {outputs : List Output}

/-! ## Section 1: Actions -/

/-- A table of the device has the peer. -/
def Listed (d : Device C) (r : PeerRef) : Prop :=
  (∃ k, d.peers.lookup k = some r) ∨ (∃ i, d.peers_by_idx.lookup i = some r) ∨
    ∃ a, d.peers_by_ip.find a = some r

/-- A handler waits for datagrams for the peer. -/
def Served (d : Device C) (r : PeerRef) : Prop := ∃ h ∈ d.queue, h.peer = r ∧ h.udp ∉ d.shut

/-- The operations a handler calls, and the one that stands for others. -/
def MayCall (d : Device C) (r : PeerRef) (op : Op) : Prop :=
  (∃ count nonce_ctr last_reset, op = .shared count nonce_ctr last_reset) ∨
    ((d.Listed r ∨ d.Served r) ∧ ∀ a b c, op ≠ .set_static_private a b c)

/-- One action of a handler. -/
inductive Act (B : Build) (d : Device C) : List Call → Device C → Prop where
  | call {r : PeerRef} {p : Peer C} {op : Op} {env : Env} {result : TunnResult} {tunnel : Tunn C}
      {events : List Event} (hp : d.heap[r]? = some p) (hmay : d.MayCall r op)
      (hstep : p.tunnel.step B op env = .ok (result, tunnel, events)) :
      Act B d [(r, ⟨op, env, result, events⟩)] (d.put r ({ p with tunnel }, none))
  | close {r : PeerRef} {p : Peer C} (hp : d.heap[r]? = some p) :
      Act B d [] (d.put r p.shutdown_endpoint)
  | move {r : PeerRef} {p : Peer C} (addr : SocketAddr) (hp : d.heap[r]? = some p) :
      Act B d [] (d.put r (p.set_endpoint addr))
  | connect {r : PeerRef} {p : Peer C} (ip : IpAddr) (hp : d.heap[r]? = some p)
      (hconn : p.endpoint.conn = none) (hlisted : d.Listed r) :
      Act B d [] { d.put r ({ p with endpoint := { p.endpoint with conn := some d.sockets } }, none)
        with sockets := d.sockets + 1, queue := d.queue ++ [⟨r, d.sockets, ip⟩] }
  | limiter (l : Option RateLimiter) : Act B d [] { d with rate_limiter := l }
  | listen (b : Bool) (port : Nat) : Act B d [] { d with listening := b, listen_port := port }
  | mark (mark : Nat) : Act B d [] (d.set_fwmark mark)
  | cancel (h : ConnHandler) : Act B d [] { d with queue := d.queue.erase h }

/-- Several actions. -/
inductive Acts (B : Build) : Device C → List Call → Device C → Prop where
  | nil (d : Device C) : Acts B d [] d
  | cons {d d₁ d' : Device C} {calls calls' : List Call} (hact : Act B d calls d₁)
      (hacts : Acts B d₁ calls' d') : Acts B d (calls ++ calls') d'

namespace Acts

theorem single (h : Act B d calls d') : Acts B d calls d' := by
  have hacts := Acts.cons h (.nil d')
  rwa [List.append_nil] at hacts

theorem trans (h : Acts B d calls d₁) (h' : Acts B d₁ calls' d') :
    Acts B d (calls ++ calls') d' := by
  induction h with
  | nil _ => exact h'
  | cons hact _ ih =>
    rw [List.append_assoc]
    exact .cons hact (ih h')

/-- What every action keeps, several keep. -/
theorem invariant {I : Device C → Prop} (hI : ∀ {d calls d'}, I d → Act B d calls d' → I d')
    (h : Acts B d calls d') (hd : I d) : I d' := by
  induction h with
  | nil _ => exact hd
  | cons hact _ ih => exact ih (hI hd hact)

end Acts

/-- What the actions of handlers do not touch. -/
structure SameTables (d d' : Device C) : Prop where
  key_pair : d'.key_pair = d.key_pair
  peers : d'.peers = d.peers
  peers_by_ip : d'.peers_by_ip = d.peers_by_ip
  peers_by_idx : d'.peers_by_idx = d.peers_by_idx
  next_index : d'.next_index = d.next_index
  use_connected_socket : d'.use_connected_socket = d.use_connected_socket
  heap_length : d'.heap.length = d.heap.length

theorem SameTables.put (d : Device C) (r : PeerRef) (p : Peer C × Option Socket) :
    SameTables d (d.put r p) :=
  ⟨rfl, rfl, rfl, rfl, rfl, rfl, List.length_set⟩

theorem SameTables.listed (h : SameTables d d') : d'.Listed r ↔ d.Listed r := by
  unfold Listed
  rw [h.peers, h.peers_by_ip, h.peers_by_idx]

theorem Act.same_tables (h : Act B d calls d') : SameTables d d' := by
  cases h with
  | call hp _ _ => exact .put d _ _
  | close hp => exact .put d _ _
  | move addr hp => exact .put d _ _
  | connect ip hp hconn hlisted => exact ⟨rfl, rfl, rfl, rfl, rfl, rfl, List.length_set⟩
  | limiter l => exact ⟨rfl, rfl, rfl, rfl, rfl, rfl, rfl⟩
  | listen b port => exact ⟨rfl, rfl, rfl, rfl, rfl, rfl, rfl⟩
  | mark mark => exact ⟨rfl, rfl, rfl, rfl, rfl, rfl, rfl⟩
  | cancel h => exact ⟨rfl, rfl, rfl, rfl, rfl, rfl, rfl⟩

theorem SameTables.trans (h : SameTables d d₁) (h' : SameTables d₁ d') : SameTables d d' where
  key_pair := h'.key_pair.trans h.key_pair
  peers := h'.peers.trans h.peers
  peers_by_ip := h'.peers_by_ip.trans h.peers_by_ip
  peers_by_idx := h'.peers_by_idx.trans h.peers_by_idx
  next_index := h'.next_index.trans h.next_index
  use_connected_socket := h'.use_connected_socket.trans h.use_connected_socket
  heap_length := h'.heap_length.trans h.heap_length

theorem Acts.same_tables (h : Acts B d calls d') : SameTables d d' := by
  induction h with
  | nil _ => exact ⟨rfl, rfl, rfl, rfl, rfl, rfl, rfl⟩
  | cons hact _ ih => exact hact.same_tables.trans ih

/-! ## Section 2: What handlers do -/

/-- A place in a list that got one more element. -/
theorem getElem?_concat_cases {α : Type} {xs : List α} {x y : α} {i : Nat}
    (h : (xs ++ [x])[i]? = some y) : xs[i]? = some y ∨ (i = xs.length ∧ y = x) := by
  rcases Nat.lt_trichotomy i xs.length with hlt | heq | hgt
  · rw [List.getElem?_append_left hlt] at h
    exact Or.inl h
  · subst heq
    rw [List.getElem?_concat_length] at h
    exact Or.inr ⟨rfl, (Option.some.inj h).symm⟩
  · have hlt : i < (xs ++ [x]).length := (List.getElem?_eq_some_iff.mp h).1
    rw [List.length_append, List.length_singleton] at hlt
    omega

theorem getElem?_concat_left {α : Type} {xs : List α} {x y : α} {i : Nat} (h : xs[i]? = some y) :
    (xs ++ [x])[i]? = some y :=
  (List.getElem?_append_left (List.getElem?_eq_some_iff.mp h).1).trans h

theorem getElem?_put {p p' : Peer C} {s : Option Socket} (hp : d.heap[r]? = some p) :
    (d.put r (p', s)).heap[r]? = some p' := by
  have hlt : r < d.heap.length := (List.getElem?_eq_some_iff.mp hp).1
  exact List.getElem?_set_self hlt

/-- Putting back what is there. -/
theorem put_same {p : Peer C} (hp : d.heap[r]? = some p) : d.put r (p, none) = d := by
  have hheap : d.heap.set r p = d.heap := by
    obtain ⟨hlt, rfl⟩ := List.getElem?_eq_some_iff.mp hp
    exact List.set_getElem_self hlt
  show { d with heap := d.heap.set r p, shut := d.shut } = d
  rw [hheap]

/-- A call that returned. -/
theorem call_eq_ok {op : Op} {env : Env} {result : TunnResult} :
    d.call B r op env = .ok (result, d', calls) ↔ ∃ p tunnel events, d.heap[r]? = some p ∧
      p.tunnel.step B op env = .ok (result, tunnel, events) ∧
      d.put r ({ p with tunnel }, none) = d' ∧ [(r, ⟨op, env, result, events⟩)] = calls := by
  unfold call
  cases hp : d.heap[r]? with
  | none => simp
  | some p =>
    simp only [Outcome.bind_eq_ok, Outcome.pure_eq, Outcome.ok.injEq, Prod.mk.injEq, Prod.exists]
    constructor
    · rintro ⟨result', tunnel, events, hstep, rfl, rfl, rfl⟩
      exact ⟨p, tunnel, events, rfl, hstep, rfl, rfl⟩
    · rintro ⟨p', tunnel, events, hp', hstep, rfl, rfl⟩
      cases hp'
      exact ⟨result, tunnel, events, hstep, rfl, rfl, rfl⟩

theorem call_act {op : Op} {env : Env} {result : TunnResult} (hmay : d.MayCall r op)
    (h : d.call B r op env = .ok (result, d', calls)) : Act B d calls d' := by
  obtain ⟨p, tunnel, events, hp, hstep, rfl, rfl⟩ := call_eq_ok.mp h
  exact .call hp hmay hstep

/-- The peer is known to a table or to a handler, and stays so when its tunnel is called. -/
theorem call_known {op : Op} {env : Env} {result : TunnResult} {r' : PeerRef}
    (hknown : d.Listed r' ∨ d.Served r') (h : d.call B r op env = .ok (result, d', calls)) :
    d'.Listed r' ∨ d'.Served r' := by
  obtain ⟨p, tunnel, events, hp, hstep, rfl, rfl⟩ := call_eq_ok.mp h
  exact hknown

theorem flush_loop_acts {env : Nat → Env} {packets : List Bytes} {n : Nat}
    (hknown : d.Listed r ∨ d.Served r) (h : d.flush_loop B r env n = .ok (d', calls, packets)) :
    Acts B d calls d' ∧ (d'.Listed r ∨ d'.Served r) := by
  induction n generalizing d calls packets with
  | zero =>
    cases h
    exact ⟨.nil _, hknown⟩
  | succ n ih =>
    obtain ⟨⟨result, d₁, calls₁⟩, hcall, hrest⟩ := Outcome.bind_eq_ok.mp h
    have hmay : d.MayCall r (.decapsulate none [] MAX_UDP_SIZE) := Or.inr ⟨hknown, by simp⟩
    have hact := call_act hmay hcall
    have hknown₁ := call_known hknown hcall
    dsimp only at hrest
    split at hrest
    · obtain ⟨⟨d₂, calls₂, packets₂⟩, hloop, hrest⟩ := Outcome.bind_eq_ok.mp hrest
      cases hrest
      obtain ⟨hacts, hknown₂⟩ := ih hknown₁ hloop
      exact ⟨.cons hact hacts, hknown₂⟩
    · cases hrest
      exact ⟨.single hact, hknown₁⟩

theorem respond_acts {result : TunnResult} {send : Bytes → Output} {env : Nat → Env}
    (hknown : d.Listed r ∨ d.Served r)
    (h : d.respond B r result send env = .ok (d', calls, outputs)) : Acts B d calls d' := by
  unfold respond at h
  cases result with
  | WriteToNetwork packet =>
    obtain ⟨⟨d₁, calls₁, packets⟩, hflush, hrest⟩ := Outcome.bind_eq_ok.mp h
    cases hrest
    unfold flush at hflush
    split at hflush
    · cases hflush
      exact .nil _
    · exact (flush_loop_acts hknown hflush).1
  | Done =>
    cases h
    exact .nil _
  | Err e =>
    cases h
    exact .nil _
  | WriteToTunnelV4 packet addr =>
    cases h
    exact .nil _
  | WriteToTunnelV6 packet addr =>
    cases h
    exact .nil _

theorem redirect_acts {addr : SocketAddr} {connects : Bool} (hlisted : d.Listed r)
    (h : d.redirect r addr connects = .ok d') : Acts B d [] d' := by
  unfold redirect at h
  cases hp : d.heap[r]? with
  | none =>
    rw [hp] at h
    cases h
  | some p =>
    rw [hp] at h
    dsimp only at h
    have hmove : Act B d [] (d.put r (p.set_endpoint addr)) := .move addr hp
    generalize hset : p.set_endpoint addr = ps at h hmove
    obtain ⟨p₁, closed⟩ := ps
    have hp₁ : (d.put r (p₁, closed)).heap[r]? = some p₁ := getElem?_put hp
    have hlisted₁ : (d.put r (p₁, closed)).Listed r := hlisted
    generalize d.put r (p₁, closed) = d₁ at h hmove hp₁ hlisted₁
    split at h
    · obtain ⟨⟨udp, p₂⟩, hconnect, h⟩ := Outcome.bind_eq_ok.mp h
      refine .cons hmove ?_
      unfold Peer.connect_endpoint at hconnect
      split at hconnect
      · -- There is a connected socket already.
        cases hconnect
        cases h
        rw [put_same hp₁]
        exact .nil _
      · rename_i hnone
        have hconn : p₁.endpoint.conn = none := by
          simpa using hnone
        split at hconnect
        · cases hconnect
        · cases connects with
          | false =>
            cases hconnect
            cases h
            have hsame : ({ p₁ with endpoint := { p₁.endpoint with conn := none } } : Peer C) =
                p₁ := by
              rw [← hconn]
            simp only [Bool.false_eq_true, if_false, hsame]
            rw [put_same hp₁]
            exact .nil _
          | true =>
            cases hconnect
            cases h
            exact .single (.connect addr.ip hp₁ hconn hlisted₁)
    · cases h
      exact .single hmove

theorem find_peer_listed {private_key public_key : Bytes} {packet : Packet}
    (h : d.find_peer private_key public_key packet = .ok (some r)) : d.Listed r := by
  unfold find_peer at h
  cases packet with
  | HandshakeInit p =>
    obtain ⟨hh, _, h⟩ := Outcome.bind_eq_ok.mp h
    cases hh with
    | ok hh => exact Or.inl ⟨_, Outcome.ok.inj h⟩
    | error e => cases h
  | PqHandshakeInit p =>
    obtain ⟨hh, _, h⟩ := Outcome.bind_eq_ok.mp h
    cases hh with
    | ok hh => exact Or.inl ⟨_, Outcome.ok.inj h⟩
    | error e => cases h
  | HandshakeResponse p => exact Or.inr (Or.inl ⟨_, Outcome.ok.inj h⟩)
  | PqHandshakeResponse p => exact Or.inr (Or.inl ⟨_, Outcome.ok.inj h⟩)
  | PacketCookieReply p => exact Or.inr (Or.inl ⟨_, Outcome.ok.inj h⟩)
  | PacketData p => exact Or.inr (Or.inl ⟨_, Outcome.ok.inj h⟩)

/-- What the handler of anonymous datagrams can do. -/
inductive Handles (B : Build) (d : Device C) (addr : SocketAddr) (packet : Bytes)
    (env : HandlerEnv) :
    Device C → List Call → List Output → Prop where
  | dropped (limiter : RateLimiter) (outputs : List Output) :
      Handles B d addr packet env { d with rate_limiter := some limiter } [] outputs
  | failed {keys : Bytes × Bytes} {limiter limiter' : RateLimiter} {parsed : Packet} {r : PeerRef}
      {e : WireGuardError} {d' : Device C} {calls : List Call} (hkeys : d.key_pair = some keys)
      (hlimiter : d.rate_limiter = some limiter)
      (hverify : limiter.verify_packet C B (some addr.ip) packet MAX_UDP_SIZE
        (env.first.clock .cookie) = (.ok parsed, limiter'))
      (hfind : d.find_peer keys.1 keys.2 parsed = .ok (some r))
      (hcall : { d with rate_limiter := some limiter' }.call B r
        (.handle_verified_packet parsed MAX_UDP_SIZE) env.first = .ok (.Err e, d', calls)) :
      Handles B d addr packet env d' calls []
  | accepted {keys : Bytes × Bytes} {limiter limiter' : RateLimiter} {parsed : Packet} {r : PeerRef}
      {result : TunnResult} {d₁ d₂ d' : Device C} {calls calls' : List Call} {outputs : List Output}
      (hkeys : d.key_pair = some keys) (hlimiter : d.rate_limiter = some limiter)
      (hverify : limiter.verify_packet C B (some addr.ip) packet MAX_UDP_SIZE
        (env.first.clock .cookie) = (.ok parsed, limiter'))
      (hfind : d.find_peer keys.1 keys.2 parsed = .ok (some r))
      (hcall : { d with rate_limiter := some limiter' }.call B r
        (.handle_verified_packet parsed MAX_UDP_SIZE) env.first = .ok (result, d₁, calls))
      (hok : ∀ e, result ≠ .Err e)
      (hrespond : d₁.respond B r result (.send_to · addr) env.flush = .ok (d₂, calls', outputs))
      (hredirect : d₂.redirect r addr env.connects = .ok d') :
      Handles B d addr packet env d' (calls ++ calls') outputs

theorem udp_handler_cases {addr : SocketAddr} {packet : Bytes} {env : HandlerEnv}
    (h : d.udp_handler B addr packet env = .ok (d', calls, outputs)) :
    Handles B d addr packet env d' calls outputs := by
  unfold udp_handler at h
  split at h
  · cases h
  · cases h
  · rename_i private_key public_key limiter hkeys hlimiter
    generalize hverify : limiter.verify_packet C B (some addr.ip) packet MAX_UDP_SIZE
      (env.first.clock .cookie) = verified at h
    obtain ⟨verified, limiter'⟩ := verified
    dsimp only at h
    split at h
    · cases h
      exact .dropped limiter' _
    · cases h
      exact .dropped limiter' _
    · rename_i parsed
      obtain ⟨peer, hfind, h⟩ := Outcome.bind_eq_ok.mp h
      cases peer with
      | none =>
        cases h
        exact .dropped limiter' _
      | some r =>
        obtain ⟨⟨result, d₁, calls₁⟩, hcall, h⟩ := Outcome.bind_eq_ok.mp h
        have hfind' : d.find_peer private_key public_key parsed = .ok (some r) := hfind
        dsimp only at h
        split at h
        · cases h
          exact .failed hkeys hlimiter hverify hfind' hcall
        · rename_i hok
          obtain ⟨⟨d₂, calls₂, outputs₂⟩, hrespond, h⟩ := Outcome.bind_eq_ok.mp h
          obtain ⟨d₃, hredirect, h⟩ := Outcome.bind_eq_ok.mp h
          cases h
          exact .accepted hkeys hlimiter hverify hfind' hcall (fun e he => hok e he) hrespond
            hredirect

theorem udp_handler_acts {addr : SocketAddr} {packet : Bytes} {env : HandlerEnv}
    (h : d.udp_handler B addr packet env = .ok (d', calls, outputs)) : Acts B d calls d' := by
  cases udp_handler_cases h with
  | dropped limiter _ => exact .single (.limiter _)
  | @failed _ _ limiter' parsed r _ _ _ _ _ _ hfind hcall =>
    have hlisted := find_peer_listed hfind
    have hmay : MayCall { d with rate_limiter := some limiter' } r
        (.handle_verified_packet parsed MAX_UDP_SIZE) := Or.inr ⟨Or.inl hlisted, by simp⟩
    exact .cons (.limiter _) (.single (call_act hmay hcall))
  | @accepted _ _ limiter' parsed r _ d₁ d₂ _ _ _ _ _ _ _ hfind hcall _ hrespond hredirect =>
    have hlisted := find_peer_listed hfind
    have hmay : MayCall { d with rate_limiter := some limiter' } r
        (.handle_verified_packet parsed MAX_UDP_SIZE) := Or.inr ⟨Or.inl hlisted, by simp⟩
    have hact := call_act hmay hcall
    have hlisted₁ : d₁.Listed r := hact.same_tables.listed.mpr hlisted
    have hacts := respond_acts (Or.inl hlisted₁) hrespond
    have hlast : Acts B d₂ [] d' := redirect_acts (hacts.same_tables.listed.mpr hlisted₁) hredirect
    have hlimiter : Act B d [] { d with rate_limiter := some limiter' } := .limiter _
    have hall := Acts.cons hlimiter ((Acts.cons hact hacts).trans hlast)
    rwa [List.append_nil, List.nil_append] at hall

theorem conn_handler_acts {handler : ConnHandler} {packet : Bytes} {env : HandlerEnv}
    (hmem : handler ∈ d.queue) (hopen : handler.udp ∉ d.shut)
    (h : d.conn_handler B handler packet env = .ok (d', calls, outputs)) : Acts B d calls d' := by
  obtain ⟨⟨result, d₁, calls₁⟩, hcall, h⟩ := Outcome.bind_eq_ok.mp h
  obtain ⟨⟨d₂, calls₂, outputs₂⟩, hrespond, h⟩ := Outcome.bind_eq_ok.mp h
  cases h
  have hserved : d.Listed handler.peer ∨ d.Served handler.peer := Or.inr ⟨handler, hmem, rfl, hopen⟩
  have hact := call_act (Or.inr ⟨hserved, by simp⟩) hcall
  exact .cons hact (respond_acts (call_known hserved hcall) hrespond)

theorem iface_handler_acts {src : Bytes} {env : Env}
    (h : d.iface_handler B src env = .ok (d', calls, outputs)) : Acts B d calls d' := by
  unfold iface_handler at h
  split at h
  · cases h
  · split at h
    · cases h
      exact .nil _
    · rename_i r hfind
      obtain ⟨a, _, ha⟩ := Option.bind_eq_some_iff.mp hfind
      obtain ⟨⟨result, d₁, calls₁⟩, hcall, h⟩ := Outcome.bind_eq_ok.mp h
      have hlisted : d.Listed r := Or.inr (Or.inr ⟨a, ha⟩)
      have hact := call_act (Or.inr ⟨Or.inl hlisted, by simp⟩) hcall
      dsimp only at h
      split at h
      · cases h
        exact .single hact
      · cases h
        exact .single hact
      · cases h
        exact .single hact
      · cases h

/-- Closing the endpoint of a peer that may be there. -/
theorem shutdown_endpoint_acts (d : Device C) (r : PeerRef) :
    Acts B d [] (d.shutdown_endpoint r) := by
  unfold shutdown_endpoint
  split
  · exact .nil _
  · rename_i p hp
    exact .single (.close hp)

theorem timers_loop_acts {env : PeerRef → Env} {rs : List PeerRef} (hlisted : ∀ r ∈ rs, d.Listed r)
    (h : d.timers_loop B env rs = .ok (d', calls, outputs)) : Acts B d calls d' := by
  induction rs generalizing d calls outputs with
  | nil =>
    cases h
    exact .nil _
  | cons r rs ih =>
    unfold timers_loop at h
    split at h
    · exact ih (fun r' hr' => hlisted r' (List.mem_cons_of_mem _ hr')) h
    · obtain ⟨⟨result, d₁, calls₁⟩, hcall, h⟩ := Outcome.bind_eq_ok.mp h
      obtain ⟨⟨d₂, output⟩, hresult, h⟩ := Outcome.bind_eq_ok.mp h
      obtain ⟨⟨d₃, calls₃, outputs₃⟩, hrest, h⟩ := Outcome.bind_eq_ok.mp h
      cases h
      have hmay : d.MayCall r (.update_timers MAX_UDP_SIZE) :=
        Or.inr ⟨Or.inl (hlisted r List.mem_cons_self), by simp⟩
      have hact := call_act hmay hcall
      have hclose : Acts B d₁ [] d₂ := by
        split at hresult
        · cases hresult
          exact .nil _
        · cases hresult
          exact shutdown_endpoint_acts d₁ r
        · cases hresult
          exact .nil _
        · cases hresult
          exact .nil _
        · cases hresult
      have htables := hact.same_tables.trans hclose.same_tables
      have hlisted₂ : ∀ r' ∈ rs, d₂.Listed r' := fun r' hr' =>
        htables.listed.mpr (hlisted r' (List.mem_cons_of_mem _ hr'))
      exact .cons hact (hclose.trans (ih hlisted₂ hrest))

theorem peer_values_listed (hr : r ∈ d.peer_values) : ∃ k, d.peers.lookup k = some r := by
  obtain ⟨⟨k, r'⟩, hmem, rfl⟩ := List.mem_map.mp hr
  exact ⟨k, AList.mem_lookup_iff.mpr hmem⟩

theorem timers_handler_acts {env : PeerRef → Env}
    (h : d.timers_handler B env = .ok (d', calls, outputs)) : Acts B d calls d' := by
  unfold timers_handler at h
  split at h
  · exact timers_loop_acts (fun r hr => Or.inl (peer_values_listed hr)) h
  · cases h
    exact .nil _

theorem open_listen_socket_acts (port : Nat) (bound : Option Nat) :
    Acts B d [] (d.open_listen_socket port bound) := by
  have hclose : ∀ (rs : List PeerRef) (d : Device C),
      Acts B d [] (rs.foldl shutdown_endpoint d) := by
    intro rs
    induction rs with
    | nil => exact fun d => .nil d
    | cons r rs ih => exact fun d => (shutdown_endpoint_acts d r).trans (ih _)
  have hclosed := (Acts.single (B := B) (.listen (d := d) false d.listen_port)).trans
    (hclose d.peer_values _)
  cases bound with
  | none => exact hclosed
  | some assigned => exact hclosed.trans (.single (.listen true _))

/-! ## Section 3: What a step does -/

end Device

/-- The operation removes the peer with this key. -/
def DeviceOp.Removes (op : DeviceOp) (pub_key : PublicKey) : Prop :=
  op = .remove_peer pub_key ∨ ∃ config new, op = .update_peer pub_key config new ∧
    config.remove = true

namespace Device

variable {C : Crypto} {B : Build} {d d₁ d' : Device C} {r : PeerRef} {calls calls' : List Call}
  {outputs : List Output}

/-- A device after a peer was removed from it. -/
def without (d : Device C) (key : Bytes) (r : PeerRef) (p : Peer C) : Device C :=
  { d.put r p.shutdown_endpoint with
    peers := d.peers.erase key
    peers_by_idx := d.peers_by_idx.erase p.index
    peers_by_ip := d.peers_by_ip.remove (· = r) }

/-- What a change of the configuration does. -/
inductive Changes (B : Build) (d : Device C) : DeviceOp → List Call → Device C → Prop where
  | same_key {private_key : Bytes} {now : Nat} {env : Env}
      (hsame : some (C.x25519_public private_key) = d.key_pair.map Prod.snd) :
      Changes B d (.set_key private_key now env) [] d
  | set_key {private_key : Bytes} {now : Nat} {env : Env} {limiter : RateLimiter} {d₁ : Device C}
      {calls : List Call}
      (hlimiter : limiter = RateLimiter.new C (C.x25519_public private_key) HANDSHAKE_RATE_LIMIT
        now env)
      (hloop : d.set_static_private B private_key (C.x25519_public private_key) limiter env
        d.peer_values = .ok (d₁, calls)) :
      Changes B d (.set_key private_key now env) calls
        { d₁ with key_pair := some (private_key, C.x25519_public private_key),
                  rate_limiter := some limiter }
  | unknown {op : DeviceOp} {pub_key : PublicKey} (hop : op.Removes pub_key)
      (hunknown : ∀ r, d.peers.lookup pub_key.bytes = some r → d.heap[r]? = none) :
      Changes B d op [] d
  | remove {op : DeviceOp} {pub_key : PublicKey} {r : PeerRef} {p : Peer C}
      (hop : op.Removes pub_key)
      (hlookup : d.peers.lookup pub_key.bytes = some r) (hp : d.heap[r]? = some p) :
      Changes B d op [] (d.without pub_key.bytes r p)
  | add {pub_key : PublicKey} {config : PeerConfig} {new : NewEnv} {index : UInt32}
      {generator : IndexLfsr} {keys : Bytes × Bytes} {p : Peer C} {peers_by_ip : AllowedIps PeerRef}
      (hremove : config.remove = false) (hnew : d.peers.lookup pub_key.bytes = none)
      (hnext : d.next_index.next = .ok (index, generator)) (hkeys : d.key_pair = some keys)
      (hpeer : Peer.new (new_tunnel keys.1 pub_key config index new) index config.endpoint
        config.allowed_ips config.preshared_key = .ok p)
      (hips : d.peers_by_ip.insert_all config.allowed_ips d.heap.length = .ok peers_by_ip) :
      Changes B d (.update_peer pub_key config new) []
        { d with
          next_index := generator
          heap := d.heap ++ [p]
          peers := d.peers.insert pub_key.bytes d.heap.length
          peers_by_idx := d.peers_by_idx.insert index d.heap.length
          peers_by_ip := peers_by_ip }
  | clear : Changes B d .clear_peers [] d.clear_peers

theorem remove_peer_changes {op : DeviceOp} {pub_key : PublicKey} (hop : op.Removes pub_key) :
    Changes B d op [] (d.remove_peer pub_key) := by
  unfold remove_peer
  split
  · rename_i hnone
    exact .unknown hop (by simp [hnone])
  · rename_i r hlookup
    split
    · rename_i hnone
      refine .unknown hop ?_
      intro r' hr'
      obtain rfl : r = r' := Option.some.inj (hlookup.symm.trans hr')
      exact hnone
    · rename_i p hp
      exact .remove hop hlookup hp

/-- A commit that does not remove its peer adds it. -/
theorem update_peer_new {pub_key : PublicKey} {config : PeerConfig} {new : NewEnv}
    (h : d.update_peer pub_key config new = .ok d') (hremove : config.remove = false) :
    ∃ index generator keys p peers_by_ip, d.peers.lookup pub_key.bytes = none ∧
      d.next_index.next = .ok (index, generator) ∧ d.key_pair = some keys ∧
      Peer.new (new_tunnel keys.1 pub_key config index new) index config.endpoint config.allowed_ips
        config.preshared_key = .ok p ∧
      d.peers_by_ip.insert_all config.allowed_ips d.heap.length = .ok peers_by_ip ∧
      d' = { d with
        next_index := generator
        heap := d.heap ++ [p]
        peers := d.peers.insert pub_key.bytes d.heap.length
        peers_by_idx := d.peers_by_idx.insert index d.heap.length
        peers_by_ip := peers_by_ip } := by
  unfold update_peer at h
  rw [if_neg (by simp [hremove])] at h
  split at h
  · cases h
  · rename_i hnew
    obtain ⟨⟨index, generator⟩, hnext, h⟩ := Outcome.bind_eq_ok.mp h
    dsimp only at h
    split at h
    · cases h
    · rename_i keys hkeys
      obtain ⟨p, hpeer, h⟩ := Outcome.bind_eq_ok.mp h
      obtain ⟨peers_by_ip, hips, h⟩ := Outcome.bind_eq_ok.mp h
      cases h
      exact ⟨index, generator, keys, p, peers_by_ip, by simpa using hnew, hnext, hkeys, hpeer, hips,
        rfl⟩

theorem update_peer_changes {pub_key : PublicKey} {config : PeerConfig} {new : NewEnv}
    (h : d.update_peer pub_key config new = .ok d') :
    Changes B d (.update_peer pub_key config new) [] d' := by
  cases hremove : config.remove with
  | true =>
    rw [update_peer, if_pos hremove] at h
    cases h
    exact remove_peer_changes (Or.inr ⟨config, new, rfl, hremove⟩)
  | false =>
    obtain ⟨index, generator, keys, p, peers_by_ip, hnew, hnext, hkeys, hpeer, hips, rfl⟩ :=
      update_peer_new h hremove
    exact .add hremove hnew hnext hkeys hpeer hips

theorem set_key_changes {private_key : Bytes} {now : Nat} {env : Env}
    (h : d.set_key B private_key now env = .ok (d', calls)) :
    Changes B d (.set_key private_key now env) calls d' := by
  unfold set_key at h
  dsimp only at h
  split at h
  · rename_i hsame
    cases h
    exact .same_key hsame
  · obtain ⟨⟨d₁, calls₁⟩, hloop, h⟩ := Outcome.bind_eq_ok.mp h
    cases h
    exact .set_key rfl hloop

/-- **What a step of a device can do**: change the configuration, or what handlers do. -/
theorem step_cases {op : DeviceOp} (h : d.step B op = .ok (d', calls, outputs)) :
    Changes B d op calls d' ∨ Acts B d calls d' := by
  unfold step at h
  cases op with
  | set_key private_key now env =>
    obtain ⟨⟨d₁, calls₁⟩, hset, h⟩ := Outcome.bind_eq_ok.mp h
    cases h
    exact Or.inl (set_key_changes hset)
  | update_peer pub_key config new =>
    obtain ⟨d₁, hupdate, h⟩ := Outcome.bind_eq_ok.mp h
    cases h
    exact Or.inl (update_peer_changes hupdate)
  | remove_peer pub_key =>
    cases h
    exact Or.inl (remove_peer_changes (Or.inl rfl))
  | clear_peers =>
    cases h
    exact Or.inl .clear
  | open_listen_socket port bound =>
    cases h
    exact Or.inr (open_listen_socket_acts port bound)
  | set_fwmark mark =>
    cases h
    exact Or.inr (.single (.mark mark))
  | udp addr packet env => exact Or.inr (udp_handler_acts h)
  | conn handler packet env =>
    dsimp only at h
    split at h
    · rename_i hopen
      exact Or.inr (conn_handler_acts hopen.1 hopen.2 h)
    · cases h
      exact Or.inr (.nil _)
  | cancel handler =>
    cases h
    exact Or.inr (.single (.cancel handler))
  | iface src env => exact Or.inr (iface_handler_acts h)
  | timers env => exact Or.inr (timers_handler_acts h)
  | reset_count now =>
    cases h
    exact Or.inr (.single (.limiter _))
  | shared r count nonce_ctr last_reset env =>
    obtain ⟨⟨_, d₁, calls₁⟩, hcall, h⟩ := Outcome.bind_eq_ok.mp h
    cases h
    exact Or.inr (.single (call_act (Or.inl ⟨_, _, _, rfl⟩) hcall))
  | limiter count nonce_ctr last_reset =>
    cases h
    exact Or.inr (.single (.limiter _))

end Device

end PqBoringtun
