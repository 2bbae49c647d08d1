import PqBoringtun.Device.IndexLfsr
import PqBoringtun.Device.Peer
import PqBoringtun.Noise.Machine

/-! # The device

    Model of `device/mod.rs`: the peer tables and the operations on them.

    `Arc<Mutex<Peer>>` is a place in the heap of all peers ever created, so
    the tables and the handlers in the event queue can share a peer and
    outlive one another.  Calls of a peer's tunnel are recorded with their
    labels.

    * Section 1: the state.
    * Section 2: peers and keys.
-/

namespace PqBoringtun

/-! ## Section 1: State -/

/-- The number of handshakes per second we can tolerate before using cookies. -/
def HANDSHAKE_RATE_LIMIT : Nat := 100

/-- `HashMap` -/
abbrev HashMap (K V : Type) : Type := AList fun _ : K => V

/-- `Arc<Mutex<Peer>>`, by its place in the heap. -/
abbrev PeerRef : Type := Nat

/-- The handler of a connected socket, as it is registered in the event queue. -/
structure ConnHandler where
  peer : PeerRef
  udp : Socket
  peer_addr : IpAddr
  deriving DecidableEq

/-- A call of the tunnel of a peer. -/
abbrev Call : Type := PeerRef × Label

structure Device (C : Crypto) where
  key_pair : Option (Bytes × Bytes)
  /-- The handlers of connected sockets in the event queue -/
  queue : List ConnHandler
  listen_port : Nat
  fwmark : Option Nat
  /-- `udp4` and `udp6` are there -/
  listening : Bool
  peers : HashMap Bytes PeerRef
  peers_by_ip : AllowedIps PeerRef
  peers_by_idx : HashMap UInt32 PeerRef
  next_index : IndexLfsr
  use_connected_socket : Bool
  rate_limiter : Option RateLimiter
  /-- The peers created so far -/
  heap : List (Peer C)
  /-- How many sockets were connected so far -/
  sockets : Nat
  /-- The connected sockets that were shut down -/
  shut : List Socket

namespace Device

variable {C : Crypto} (B : Build)

/-- A new device, with the random numbers of `IndexLfsr::default`. -/
def new (use_connected_socket : Bool) (next_index : IndexLfsr) : Device C where
  key_pair := none
  queue := []
  listen_port := 0
  fwmark := none
  listening := false
  peers := ∅
  peers_by_ip := AllowedIps.new
  peers_by_idx := ∅
  next_index := next_index
  use_connected_socket := use_connected_socket
  rate_limiter := none
  heap := []
  sockets := 0
  shut := []

/-- `HashMap::values` of the peers. -/
def peer_values (d : Device C) : List PeerRef := d.peers.entries.map Sigma.snd

/-- Replace a peer that is locked; the socket it gives up is shut down. -/
def put (d : Device C) (r : PeerRef) (p : Peer C × Option Socket) : Device C :=
  { d with heap := d.heap.set r p.1, shut := p.2.toList ++ d.shut }

/-- Call the tunnel of a peer. -/
def call (d : Device C) (r : PeerRef) (op : Op) (env : Env) :
    Outcome (TunnResult × Device C × List Call) :=
  match d.heap[r]? with
  | none => .panic "dangling reference"
  | some p => do
    let (result, tunnel, events) ← p.tunnel.step B op env
    return (result, d.put r ({ p with tunnel }, none), [(r, ⟨op, env, result, events⟩)])

def shutdown_endpoint (d : Device C) (r : PeerRef) : Device C :=
  match d.heap[r]? with
  | none => d
  | some p => d.put r p.shutdown_endpoint

/-! ## Section 2: Peers and keys -/

/-- Find a peer and purge all references to it. -/
def remove_peer (d : Device C) (pub_key : PublicKey) : Device C :=
  match d.peers.lookup pub_key.bytes with
  | none => d
  | some peer =>
    match d.heap[peer]? with
    | none => d
    | some p =>
      let d := { d with peers := d.peers.erase pub_key.bytes }
      -- close open udp socket and free the closure
      let d := d.put peer p.shutdown_endpoint
      { d with
        peers_by_idx := d.peers_by_idx.erase p.index
        peers_by_ip := d.peers_by_ip.remove (· = peer) }

/-- The configuration of a peer, as `update_peer` is given it. -/
structure PeerConfig where
  remove : Bool
  replace_ips : Bool
  endpoint : Option SocketAddr
  allowed_ips : List AllowedIP
  keepalive : Option UInt16
  preshared_key : Option Bytes

/-- System time since the epoch and clock when a tunnel is created, and its environment. -/
structure NewEnv where
  unix_time : Nat
  now : Nat
  env : Env

/-- The tunnel of a new peer. -/
def new_tunnel (private_key : Bytes) (pub_key : PublicKey) (config : PeerConfig) (index : UInt32)
    (new : NewEnv) : Tunn C :=
  Tunn.new C private_key pub_key.bytes pub_key.length_bytes config.preshared_key config.keepalive
    index none new.unix_time new.now new.env

def update_peer (d : Device C) (pub_key : PublicKey) (config : PeerConfig) (new : NewEnv) :
    Outcome (Device C) :=
  if config.remove then
    -- Completely remove a peer
    .ok (d.remove_peer pub_key)
  else if (d.peers.lookup pub_key.bytes).isSome then
    -- We already have a peer, we need to merge the existing config into the newly created one
    .panic "Modifying existing peers is not yet supported. Remove and add again instead."
  else do
    let (next_index, generator) ← d.next_index.next
    match d.key_pair with
    | none => .panic "Private key must be set first"
    | some device_key_pair =>
      let tunn := new_tunnel device_key_pair.1 pub_key config next_index new
      let p ← Peer.new tunn next_index config.endpoint config.allowed_ips config.preshared_key
      let peer := d.heap.length
      let peers_by_ip ← d.peers_by_ip.insert_all config.allowed_ips peer
      return { d with
        next_index := generator
        heap := d.heap ++ [p]
        peers := d.peers.insert pub_key.bytes peer
        peers_by_idx := d.peers_by_idx.insert next_index peer
        peers_by_ip := peers_by_ip }

/-- The loop of `set_key` over the peers. -/
def set_static_private (d : Device C) (private_key public_key : Bytes) (limiter : RateLimiter)
    (env : Env) : List PeerRef → Outcome (Device C × List Call)
  | [] => .ok (d, [])
  | r :: rs => do
    let (_, d, calls) ← d.call B r (.set_static_private private_key public_key (some limiter)) env
    let (d, calls') ← d.set_static_private private_key public_key limiter env rs
    return (d, calls ++ calls')

/-- `limiter_now` is the clock when the new rate limiter is created. -/
def set_key (d : Device C) (private_key : Bytes) (limiter_now : Nat) (env : Env) :
    Outcome (Device C × List Call) :=
  let public_key := C.x25519_public private_key
  -- If the public keys are the same, then the private keys are the same.
  if some public_key = d.key_pair.map Prod.snd then .ok (d, [])
  else do
    let rate_limiter := RateLimiter.new C public_key HANDSHAKE_RATE_LIMIT limiter_now env
    let (d, calls) ← d.set_static_private B private_key public_key rate_limiter env d.peer_values
    return ({ d with
        key_pair := some (private_key, public_key), rate_limiter := some rate_limiter },
      calls)

def clear_peers (d : Device C) : Device C :=
  { d with peers := ∅, peers_by_idx := ∅, peers_by_ip := AllowedIps.new }

/-- `bound` is the port of the new sockets, if the operating system has bound them. -/
def open_listen_socket (d : Device C) (port : Nat) (bound : Option Nat) : Device C :=
  -- First close any existing open socket, and remove them from the event loop
  let d := { d with listening := false }
  let d := d.peer_values.foldl shutdown_endpoint d
  -- Then open new sockets and bind to the port
  match bound with
  | none => d
  | some assigned =>
    -- Random port was assigned
    let port := if port = 0 then assigned else port
    { d with listening := true, listen_port := port }

/-- The mark is stored before the sockets get it. -/
def set_fwmark (d : Device C) (mark : Nat) : Device C := { d with fwmark := some mark }

end Device

end PqBoringtun
