import PqBoringtun.Device.Sections
import PqBoringtun.Framework.Printing
import PqBoringtun.Noise.Loss

/-! # The get command

    Model of the get command and of one exchange with a client in
    `device/api.rs`.  A reply is a list of lines.  How addresses are printed
    is a parameter, and so is the order in which the entries of tables are
    visited, which the standard library leaves open.

    * Section 1: `api_get` and the handler of a connection.
    * Section 2: what a tunnel keeps of its configuration, and that a device
      always has something to print for a peer (`Device.run_configured`).
    * Section 3: a get command returns when the clock does not go back
      (`Device.api_get_returns`).
-/

namespace PqBoringtun

variable {C : Crypto} {B : Build}

/-! ## Section 1: Model -/

/-- How the standard library prints addresses. -/
structure Printers where
  ip_addr : IpAddr → String
  socket_addr : SocketAddr → String

/-- The order in which the peers and the networks of a peer are visited. -/
structure Iteration where
  peers : HashMap Bytes PeerRef → List (Sigma fun _ : Bytes => PeerRef)
  networks : AllowedIps Unit → List IpNetwork
  peers_perm : ∀ t, (peers t).Perm t.entries
  networks_perm : ∀ t, (networks t).Perm t.keys

def IpNetwork.network_address : IpNetwork → IpAddr
  | .V4 n => .V4 n.address
  | .V6 n => .V6 n.address

/-- What `stats` returns; the readings are `none` if there is no value. -/
structure Stats where
  time : Option Nat
  tx_bytes : Nat
  rx_bytes : Nat
  loss : Option ℚ
  rtt : Option Nat

namespace Tunn

def persistent_keepalive (t : Tunn C) : Option UInt16 :=
  let keepalive := t.timers.persistent_keepalive
  if 0 < keepalive then some (UInt16.ofNat keepalive) else none

def stats (B : Build) (t : Tunn C) (now : Nat) : Outcome Stats := do
  let time ← t.time_since_last_handshake now
  return ⟨time, t.tx_bytes, t.rx_bytes, t.estimate_loss B, t.handshake.last_rtt⟩

end Tunn

/-- A key and a value, as they stand on a line. -/
abbrev Setting : Type := String × String

def Setting.line (x : Setting) : String := x.1 ++ "=" ++ x.2

namespace Device

/-- The lines that repeat what is configured for a peer. -/
def get_settings (F : Printers) (it : Iteration) (p : Peer C) : List Setting :=
  (p.preshared_key.map fun key => ("preshared_key", Hex.encode key)).toList ++
  (p.tunnel.persistent_keepalive.map fun keepalive =>
    ("persistent_keepalive_interval", keepalive.toNat.repr)).toList ++
  (p.endpoint.addr.map fun addr => ("endpoint", F.socket_addr addr)).toList ++
  (it.networks p.allowed_ips).map fun n =>
    ("allowed_ip", F.ip_addr n.network_address ++ "/" ++ n.netmask.repr)

/-- The lines about what a peer has done; the clock is read twice. -/
def get_status (B : Build) (p : Peer C) (now : Nat × Nat) : Outcome (List Setting) := do
  let time ← p.tunnel.time_since_last_handshake now.1
  let stats ← p.tunnel.stats B now.2
  return (time.toList.flatMap fun time =>
      [("last_handshake_time_sec", (time / SEC).repr),
       ("last_handshake_time_nsec", (time % SEC).repr)]) ++
    [("rx_bytes", stats.rx_bytes.repr), ("tx_bytes", stats.tx_bytes.repr)]

/-- The loop of `api_get` over the peers. -/
def get_peers (B : Build) (F : Printers) (it : Iteration) (clock : PeerRef → Nat × Nat)
    (d : Device C) : List (Sigma fun _ : Bytes => PeerRef) → Outcome (List Setting)
  | [] => .ok []
  | ⟨k, r⟩ :: rest =>
    match d.heap[r]? with
    | none => .panic "dangling reference"
    | some p => do
      let status ← get_status B p (clock r)
      let more ← d.get_peers B F it clock rest
      return (("public_key", Hex.encode k) :: get_settings F it p) ++ status ++ more

/-- The lines about the device itself. -/
def get_device (d : Device C) : List Setting :=
  (d.key_pair.map fun k => ("own_public_key", Hex.encode k.2)).toList ++
  (if d.listen_port ≠ 0 then [("listen_port", d.listen_port.repr)] else []) ++
  (d.fwmark.map fun fwmark => ("fwmark", fwmark.repr)).toList

/-- The status and the lines that are written. -/
def api_get (B : Build) (F : Printers) (it : Iteration) (clock : PeerRef → Nat × Nat)
    (d : Device C) : Outcome (Nat × List String) := do
  let peers ← d.get_peers B F it clock (it.peers d.peers)
  return (0, (d.get_device ++ peers).map Setting.line)

def EIO : Nat := 5

/-- What a client and the operating system give to an exchange: a get command reads the clock for
    each peer, a set command gets an answer for each line. -/
structure Answers where
  clock : PeerRef → Nat × Nat
  world : Nat → ApiEnv

/-- The handler of a connection: the lines of the reply, and what the command leaves. -/
def api_exchange (B : Build) (P : Parsers) (F : Printers) (it : Iteration) (env : Answers)
    (d : Device C) (reader : Reader) : Outcome (List String × Device C) :=
  match reader with
  | none :: _ => .ok ([], d) -- nothing was read, nothing is answered
  | reader => do
    let cmd := Str.pop (reader.headD none |>.getD "") -- pop the new line character
    let (status, lines, d) ←
      -- Only two commands are legal according to the protocol, get=1 and set=1.
      match cmd with
      | "get=1" => do
        let (status, lines) ← d.api_get B F it env.clock
        pure (status, lines, d)
      | "set=1" => do
        let (status, d) ← d.api_set B P env.world 0 reader.tail
        pure (status, [], d)
      | _ => pure ( EIO, [], d)
    -- The protocol requires to return an error code as the response, or zero on success
    return (lines ++ ["errno=" ++ status.repr, ""], d)

end Device

/-! ## Section 2: What is configured for a peer -/

namespace Tunn

variable {t t' t₀ : Tunn C} {env : Env} {r : TunnResult} {evs : List Event}

/-- The interval and the time of the creation do not change. -/
def Constant (start keepalive : Nat) (T : Timers) (_ : RateLimiter) : Prop :=
  T.time_started = start ∧ T.persistent_keepalive = keepalive

theorem stable_constant (env : Env) (start keepalive : Nat) :
    Stable env (Constant start keepalive) where
  tick := by
    intro T _ n h
    cases n <;> exact h
  established := fun _ _ h => h
  clear := fun h => h
  want := fun _ _ h => h
  load := fun _ _ _ h => h

/-- What a tunnel keeps whatever it does. -/
structure KeepsConfig (t t' : Tunn C) : Prop where
  peer : t'.handshake.params.peer_static_public = t.handshake.params.peer_static_public
  preshared_key : t'.handshake.params.preshared_key = t.handshake.params.preshared_key
  keepalive : t'.timers.persistent_keepalive = t.timers.persistent_keepalive
  started : t'.timers.time_started = t.timers.time_started

theorem KeepsConfig.refl (t : Tunn C) : t.KeepsConfig t := ⟨rfl, rfl, rfl, rfl⟩

theorem KeepsConfig.trans {t₁ t₂ t₃ : Tunn C} (h : t₁.KeepsConfig t₂)
    (h' : t₂.KeepsConfig t₃) : t₁.KeepsConfig t₃ where
  peer := h'.peer.trans h.peer
  preshared_key := h'.preshared_key.trans h.preshared_key
  keepalive := h'.keepalive.trans h.keepalive
  started := h'.started.trans h.started

theorem step_keepsConfig {op : Op} (hstep : t.step B op env = .ok (r, t', evs)) :
    t.KeepsConfig t' := by
  by_cases hop : ∃ priv pub lim, op = .set_static_private priv pub lim
  · -- a new private key comes with nothing else
    obtain ⟨priv, pub, lim, rfl⟩ := hop
    obtain ⟨t₁, hset, hstep⟩ := Outcome.bind_eq_ok.mp hstep
    obtain rfl : t₁ = t' := congrArg (fun x => x.2.1) (Outcome.ok.inj hstep)
    obtain ⟨params, hparams, hset⟩ := Outcome.bind_eq_ok.mp hset
    obtain ⟨_, _, hpeer, hpreshared⟩ := NoiseParams.set_static_private_eq_ok hparams
    cases hset
    exact ⟨hpeer, hpreshared, rfl, rfl⟩
  · have hop' : ∀ priv pub lim, op ≠ .set_static_private priv pub lim :=
      fun priv pub lim heq => hop ⟨priv, pub, lim, heq⟩
    have hparams := (step_works hop' hstep).params
    have hQ := stable_constant env t.timers.time_started t.timers.persistent_keepalive
    have hconstant := stable_step hQ.steady hop' hstep (hQ.arrives r) (fun t₁ hrefresh => by
      obtain ⟨limiter, _, _, _, _, rfl⟩ := refresh_cases hrefresh
      exact ⟨rfl, rfl⟩) ⟨rfl, rfl⟩
    exact ⟨congrArg NoiseParams.peer_static_public hparams,
      congrArg NoiseParams.preshared_key hparams, hconstant.2, hconstant.1⟩

theorem run_keepsConfig {tr : List Label} (hrun : Run (tunnel C B) t₀ tr t) : t₀.KeepsConfig t :=
  hrun.invariant (I := fun _ t => t₀.KeepsConfig t) (.refl t₀)
    fun h hstep => h.trans (step_keepsConfig hstep)

end Tunn

/-- The tunnel of a peer has what was configured for it, in the sizes of the source's types. -/
structure Peer.Configured (p : Peer C) : Prop where
  preshared_key : p.tunnel.handshake.params.preshared_key = p.preshared_key
  preshared_size : ∀ key, p.preshared_key = some key → key.length = 32
  peer_size : p.tunnel.handshake.params.peer_static_public.length = 32
  keepalive : p.tunnel.timers.persistent_keepalive < 65536

/-- A peer with the same preshared key whose tunnel has taken steps. -/
theorem Peer.Configured.keeps {p p' : Peer C} (h : p.Configured)
    (hpreshared : p'.preshared_key = p.preshared_key) (hkeeps : p.tunnel.KeepsConfig p'.tunnel) :
    p'.Configured where
  preshared_key := by rw [hkeeps.preshared_key, hpreshared, h.preshared_key]
  preshared_size := by
    rw [hpreshared]
    exact h.preshared_size
  peer_size := by
    rw [hkeeps.peer]
    exact h.peer_size
  keepalive := by
    rw [hkeeps.keepalive]
    exact h.keepalive

/-- A preshared key has 32 bytes. -/
def DeviceOp.Sized : DeviceOp → Prop
  | .update_peer _ config _ => ∀ key, config.preshared_key = some key → key.length = 32
  | _ => True

namespace Device

variable {d d₁ d' : Device C} {r : PeerRef} {p : Peer C} {calls : List Call}
  {outputs : List Output} {op : DeviceOp}

/-- All peers that were ever created are configured. -/
def Configured (d : Device C) : Prop := ∀ (r : PeerRef) (p : Peer C), d.heap[r]? = some p →
  p.Configured

theorem Configured.of_heap (h : d.Configured) (hheap : d'.heap = d.heap) : d'.Configured := by
  intro r p hp
  rw [hheap] at hp
  exact h r p hp

theorem Configured.set (h : d.Configured) {p' : Peer C} (hp : d.heap[r]? = some p)
    (hheap : d'.heap = d.heap.set r p') (hpreshared : p'.preshared_key = p.preshared_key)
    (hkeeps : p.tunnel.KeepsConfig p'.tunnel) : d'.Configured := by
  intro q pq hq
  rw [hheap] at hq
  by_cases hqr : r = q
  · subst hqr
    rw [List.getElem?_set_self (List.getElem?_eq_some_iff.mp hp).1] at hq
    cases hq
    exact (h r p hp).keeps hpreshared hkeeps
  · rw [List.getElem?_set_ne hqr] at hq
    exact h q pq hq

theorem Configured.act (h : d.Configured) (hact : Act B d calls d') : d'.Configured := by
  cases hact with
  | call hp _ hstep => exact h.set hp rfl rfl (Tunn.step_keepsConfig hstep)
  | close hp => exact h.set hp rfl rfl (.refl _)
  | @move r p addr hp =>
    have hsame : (p.set_endpoint addr).1.preshared_key = p.preshared_key ∧
        (p.set_endpoint addr).1.tunnel = p.tunnel := by
      unfold Peer.set_endpoint
      split <;> exact ⟨rfl, rfl⟩
    refine h.set hp rfl hsame.1 ?_
    rw [hsame.2]
    exact .refl _
  | connect ip hp _ _ => exact h.set hp rfl rfl (.refl _)
  | limiter l => exact h.of_heap rfl
  | listen b port => exact h.of_heap rfl
  | mark mark => exact h.of_heap rfl
  | cancel handler => exact h.of_heap rfl

theorem Configured.set_static_private {private_key public_key : Bytes} {limiter : RateLimiter}
    {env : Env} {rs : List PeerRef} (h : d.Configured)
    (hloop : d.set_static_private B private_key public_key limiter env rs = .ok (d', calls)) :
    d'.Configured := by
  induction rs generalizing d calls with
  | nil =>
    cases hloop
    exact h
  | cons r rs ih =>
    obtain ⟨⟨_, d₁, calls₁⟩, hcall, hloop⟩ := Outcome.bind_eq_ok.mp hloop
    obtain ⟨⟨d₂, calls₂⟩, hrest, hloop⟩ := Outcome.bind_eq_ok.mp hloop
    cases hloop
    obtain ⟨p, tunnel, events, hp, hstep, rfl, rfl⟩ := call_eq_ok.mp hcall
    have hfirst : (d.put r ({ p with tunnel }, none)).Configured :=
      h.set hp rfl rfl (Tunn.step_keepsConfig hstep)
    exact ih hfirst hrest

/-- A new peer is configured. -/
theorem new_configured {private_key : Bytes} {pub_key : PublicKey} {config : PeerConfig}
    {index : UInt32} {new : NewEnv} (hsized : ∀ key, config.preshared_key = some key →
      key.length = 32)
    (hpeer : Peer.new (new_tunnel private_key pub_key config index new) index config.endpoint
      config.allowed_ips config.preshared_key = .ok p) : p.Configured := by
  obtain ⟨htunnel, _, _, hpreshared, _⟩ := Peer.new_eq_ok hpeer
  constructor
  · rw [htunnel, hpreshared]
    rfl
  · rw [hpreshared]
    exact hsized
  · rw [htunnel]
    exact pub_key.length_bytes
  · rw [htunnel]
    exact (config.keepalive.getD 0).toNat_lt

theorem Configured.step (h : d.Configured) (hsized : op.Sized)
    (hstep : d.step B op = .ok (d', calls, outputs)) : d'.Configured := by
  rcases step_cases hstep with hchanges | hacts
  · cases hchanges with
    | same_key _ => exact h
    | set_key _ hloop => exact (h.set_static_private hloop).of_heap rfl
    | unknown _ _ => exact h
    | remove _ _ hp => exact h.set hp rfl rfl (.refl _)
    | add _ _ _ _ hpeer _ =>
      intro r p hp
      rcases getElem?_concat_cases hp with hold | ⟨_, rfl⟩
      · exact h r p hold
      · exact new_configured hsized hpeer
    | clear => exact h.of_heap rfl
  · exact hacts.invariant (I := Configured) (fun h hact => h.act hact) h

/-- **Whatever a device has done, its peers are configured.** -/
theorem run_configured {use_connected_socket : Bool} {generator : IndexLfsr}
    {tr : List DeviceLabel}
    (hrun : Run (device C B) (Device.new use_connected_socket generator) tr d)
    (hsized : ∀ l ∈ tr, l.op.Sized) : d.Configured := by
  refine hrun.invariant_of (A := fun tr : List DeviceLabel => ∀ l ∈ tr, l.op.Sized)
    (I := fun _ d => d.Configured) (fun hall l hl => hall l (List.mem_append_left _ hl)) ?_ ?_
    hsized
  · intro r p hp
    cases hp
  · intro tr d l d' hall ih hstep
    exact ih.step (hall l (by simp)) hstep

/-! ## Section 3: A get command returns -/

/-- The clock has not gone back for any of the peers, and `now` is read after their calls. -/
def ClockedTo (d : Device C) (calls : List Call) (clock : PeerRef → Nat × Nat) : Prop :=
  ∀ (r : PeerRef) (p : Peer C), d.heap[r]? = some p →
    Clocked p.tunnel.timers.time_started (labelsOf r calls) ∧
    Tunn.ReadAfter p.tunnel.timers.time_started (labelsOf r calls) (clock r).1 ∧
    Tunn.ReadAfter p.tunnel.timers.time_started (labelsOf r calls) (clock r).2

/-- No timer of a tunnel is ahead of what is read after its calls. -/
theorem PeerRuns.onTime (h : PeerRuns B calls d) (hp : d.heap[r]? = some p)
    (hclock : Clocked p.tunnel.timers.time_started (labelsOf r calls)) :
    ∃ now, p.tunnel.timers.OnTime now ∧ ∀ {next},
      Tunn.ReadAfter p.tunnel.timers.time_started (labelsOf r calls) next → now ≤ next := by
  obtain ⟨t₀, ⟨key, pub_key, config, new, rfl⟩, hrun⟩ := h.created hp
  have hstarted : p.tunnel.timers.time_started = new.now := (Tunn.run_keepsConfig hrun).started
  rw [hstarted] at hclock ⊢
  have hnew : (new_tunnel key pub_key config p.index new : Tunn C).IsNew new.now :=
    ⟨_, _, _, _, _, _, _, _, _, rfl⟩
  obtain ⟨now, hon, _, hnow⟩ := Tunn.run_onTime hnew hrun hclock
  refine ⟨now, hon, ?_⟩
  intro next hread
  rcases hnow with rfl | ⟨l, hl, rfl⟩
  · exact hread.start
  · exact hread.calls l hl .clear

/-- The statistics of a peer can be read. -/
theorem get_status_returns (hruns : PeerRuns B calls d) {clock : PeerRef → Nat × Nat}
    (hclock : d.ClockedTo calls clock) (hp : d.heap[r]? = some p) :
    ∃ status, get_status B p (clock r) = .ok status := by
  obtain ⟨hclocked, hfirst, hsecond⟩ := hclock r p hp
  obtain ⟨now, hon, hafter⟩ := hruns.onTime hp hclocked
  obtain ⟨time, htime⟩ := Tunn.time_since_last_handshake_returns hon (hafter hfirst)
  obtain ⟨time', htime'⟩ := Tunn.time_since_last_handshake_returns hon (hafter hsecond)
  unfold get_status Tunn.stats
  rw [htime, htime']
  exact ⟨_, rfl⟩

/-- The lines for each of these entries: the key, the settings and the status. -/
inductive Lists (B : Build) (F : Printers) (it : Iteration) (d : Device C) :
    List (Sigma fun _ : Bytes => PeerRef) → List Setting → Prop where
  | nil : Lists B F it d [] []
  | cons {k : Bytes} {r : PeerRef} {p : Peer C} {now : Nat × Nat} {status more : List Setting}
      {rest : List (Sigma fun _ : Bytes => PeerRef)} (hp : d.heap[r]? = some p)
      (hstatus : get_status B p now = .ok status) (hrest : Lists B F it d rest more) :
      Lists B F it d (⟨k, r⟩ :: rest)
        ((("public_key", Hex.encode k) :: get_settings F it p) ++ status ++ more)

theorem get_peers_returns (hruns : PeerRuns B calls d) {clock : PeerRef → Nat × Nat}
    (hclock : d.ClockedTo calls clock) (F : Printers) (it : Iteration)
    {entries : List (Sigma fun _ : Bytes => PeerRef)}
    (hheap : ∀ e ∈ entries, ∃ p, d.heap[e.2]? = some p) :
    ∃ lines, d.get_peers B F it clock entries = .ok lines ∧ Lists B F it d entries lines := by
  induction entries with
  | nil => exact ⟨[], rfl, .nil⟩
  | cons e entries ih =>
    obtain ⟨k, r⟩ := e
    obtain ⟨p, hp⟩ := hheap ⟨k, r⟩ List.mem_cons_self
    obtain ⟨status, hstatus⟩ := get_status_returns hruns hclock hp
    obtain ⟨more, hmore, hlists⟩ := ih fun e he => hheap e (List.mem_cons_of_mem _ he)
    refine ⟨_, ?_, .cons hp hstatus hlists⟩
    rw [get_peers, hp]
    show (get_status B p (clock r) >>= _) = _
    rw [hstatus, Outcome.ok_bind, hmore]
    rfl

/-- **A get command returns** and lists every peer of the device once. -/
theorem api_get_returns (htables : d.Tables) (hruns : PeerRuns B calls d)
    {clock : PeerRef → Nat × Nat} (hclock : d.ClockedTo calls clock) (F : Printers)
    (it : Iteration) : ∃ lines, Lists B F it d (it.peers d.peers) lines ∧
      d.api_get B F it clock = .ok (0, (d.get_device ++ lines).map Setting.line) := by
  have hheap : ∀ e ∈ it.peers d.peers, ∃ p, d.heap[e.2]? = some p := by
    intro e he
    have hmem : e ∈ d.peers.entries := (it.peers_perm d.peers).mem_iff.mp he
    obtain ⟨p, hfiled⟩ := htables.peers (AList.mem_lookup_iff.mpr hmem)
    exact ⟨p, hfiled.heap⟩
  obtain ⟨lines, hlines, hlists⟩ := get_peers_returns hruns hclock F it hheap
  exact ⟨lines, hlists, Outcome.bind_eq_ok.mpr ⟨lines, hlines, rfl⟩⟩

end Device

end PqBoringtun
