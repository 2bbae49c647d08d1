import PqBoringtun.Device.Device

/-! # Event handlers

    Model of the handlers that `device/mod.rs` registers in the event queue,
    one datagram, packet or tick at a time, and of the device as a labelled
    transition system.

    * Section 1: what the handlers share.
    * Section 2: the handlers.
    * Section 3: runs of a device.
-/

namespace PqBoringtun

open Bytes

/-! ## Section 1: Sending and flushing -/

def MAX_UDP_SIZE : Nat := 2 ^ 16 - 1

/-- What a handler sends to the network or writes to the interface. -/
inductive Output where
  | send_to (packet : Bytes) (addr : SocketAddr)
  | send (packet : Bytes) (udp : Socket)
  | write (packet : Bytes)
  deriving DecidableEq

namespace Device

variable {C : Crypto} (B : Build)

/-- A decapsulated packet is written to the interface if its source address is allowed. -/
def deliver (d : Device C) (r : PeerRef) (packet : Bytes) (addr : IpAddr) : List Output :=
  match d.heap[r]? with
  | none => []
  | some p => if p.is_allowed_ip addr then [.write packet] else []

/-- The loop that flushes the queue of a tunnel, at most `n` times. -/
def flush_loop (d : Device C) (r : PeerRef) (env : Nat → Env) :
    Nat → Outcome (Device C × List Call × List Bytes)
  | 0 => .ok (d, [], [])
  | n + 1 => do
    let (result, d, calls) ← d.call B r (.decapsulate none [] MAX_UDP_SIZE) (env n)
    match result with
    | .WriteToNetwork packet =>
      let (d, calls', packets) ← d.flush_loop r env n
      return (d, calls ++ calls', packet :: packets)
    | _ => return (d, calls, [])

/-- Flush pending queue.  Each call takes a packet from the queue or starts a handshake, and there
    is no second start. -/
def flush (d : Device C) (r : PeerRef) (env : Nat → Env) :
    Outcome (Device C × List Call × List Bytes) :=
  match d.heap[r]? with
  | none => .ok (d, [], [])
  | some p => d.flush_loop B r env (p.tunnel.packet_queue.length + 2)

/-- What the handlers of sockets do with the result of a tunnel: send, flush and write. -/
def respond (d : Device C) (r : PeerRef) (result : TunnResult) (send : Bytes → Output)
    (env : Nat → Env) : Outcome (Device C × List Call × List Output) :=
  match result with
  | .Done => .ok (d, [], [])
  | .Err _ => .ok (d, [], [])
  | .WriteToNetwork packet => do
    let (d, calls, packets) ← d.flush B r env
    return (d, calls, send packet :: packets.map send)
  | .WriteToTunnelV4 packet addr => .ok (d, [], d.deliver r packet (.V4 addr))
  | .WriteToTunnelV6 packet addr => .ok (d, [], d.deliver r packet (.V6 addr))

/-! ## Section 2: Handlers -/

/-- The peer that an anonymous packet is for. -/
def find_peer (d : Device C) (private_key public_key : Bytes) (packet : Packet) :
    Outcome (Option PeerRef) :=
  match packet with
  | .HandshakeInit p => do
    match ← (parse_handshake_anon C private_key public_key p).run with
    | .ok hh => return d.peers.lookup hh.peer_static_public
    | .error _ => return none
  | .PqHandshakeInit p => do
    match ← (parse_pq_handshake_anon C private_key public_key p).run with
    | .ok hh => return d.peers.lookup hh.peer_static_public
    | .error _ => return none
  | .PqHandshakeResponse p => .ok (d.peers_by_idx.lookup (p.receiver_idx >>> 8))
  | .HandshakeResponse p => .ok (d.peers_by_idx.lookup (p.receiver_idx >>> 8))
  | .PacketCookieReply p => .ok (d.peers_by_idx.lookup (p.receiver_idx >>> 8))
  | .PacketData p => .ok (d.peers_by_idx.lookup (p.receiver_idx >>> 8))

/-- The environments of the calls of a handler, and whether the operating system connects a new
    socket. -/
structure HandlerEnv where
  first : Env
  flush : Nat → Env
  connects : Bool

/-- Set the endpoint of a peer, and create a connected socket for it. -/
def redirect (d : Device C) (r : PeerRef) (addr : SocketAddr) (connects : Bool) :
    Outcome (Device C) :=
  match d.heap[r]? with
  | none => .panic "dangling reference"
  | some p => do
    let (p, closed) := p.set_endpoint addr
    let d := d.put r (p, closed)
    if d.use_connected_socket then
      let (udp, p) ← p.connect_endpoint (if connects then some d.sockets else none)
      let d := d.put r (p, none)
      match udp with
      | some udp =>
        return { d with sockets := d.sockets + 1, queue := d.queue ++ [⟨r, udp, addr.ip⟩] }
      | none => return d
    else return d

/-- Handler that handles anonymous packets over UDP. -/
def udp_handler (d : Device C) (addr : SocketAddr) (packet : Bytes) (env : HandlerEnv) :
    Outcome (Device C × List Call × List Output) :=
  match d.key_pair, d.rate_limiter with
  | none, _ => .panic "Key not set"
  | _, none => .panic "called Option::unwrap() on a None value"
  | some (private_key, public_key), some rate_limiter =>
    -- The rate limiter initially checks mac1 and mac2, and optionally asks to send a cookie
    let (verified, rate_limiter) := rate_limiter.verify_packet C B (some addr.ip) packet
      MAX_UDP_SIZE (env.first.clock .cookie)
    let d := { d with rate_limiter := some rate_limiter }
    match verified with
    | .error (.WriteToNetwork cookie) => .ok (d, [], [.send_to cookie addr])
    | .error _ => .ok (d, [], [])
    | .ok parsed_packet => do
      match ← d.find_peer private_key public_key parsed_packet with
      | none => return (d, [], [])
      | some peer =>
        -- We found a peer, use it to decapsulate the message
        let (result, d, calls) ←
          d.call B peer (.handle_verified_packet parsed_packet MAX_UDP_SIZE) env.first
        match result with
        | .Err _ => return (d, calls, [])
        | result =>
          let (d, calls', outputs) ← d.respond B peer result (.send_to · addr) env.flush
          -- This packet was OK, that means we want to create a connected socket for this peer
          let d ← d.redirect peer addr env.connects
          return (d, calls ++ calls', outputs)

/-- The handler of a connected UDP socket, associated with a known peer. -/
def conn_handler (d : Device C) (h : ConnHandler) (packet : Bytes) (env : HandlerEnv) :
    Outcome (Device C × List Call × List Output) := do
  let (result, d, calls) ←
    d.call B h.peer (.decapsulate (some h.peer_addr) packet MAX_UDP_SIZE) env.first
  let (d, calls', outputs) ← d.respond B h.peer result (.send · h.udp) env.flush
  return (d, calls ++ calls', outputs)

/-- Where a packet for a peer is sent: the connected socket is preferred. -/
def Endpoint.send (endpoint : Endpoint) (packet : Bytes) : List Output :=
  match endpoint.conn, endpoint.addr with
  | some conn, _ => [.send packet conn]
  | none, some addr => [.send_to packet addr]
  | none, none => []

/-- Handles packets received from the virtual network interface. -/
def iface_handler (d : Device C) (src : Bytes) (env : Env) :
    Outcome (Device C × List Call × List Output) :=
  if d.listening = false then .panic "Not connected"
  else
    match (Tunn.dst_address src).bind d.peers_by_ip.find with
    | none => .ok (d, [], [])
    | some peer => do
      let (result, d, calls) ← d.call B peer (.encapsulate src MAX_UDP_SIZE) env
      match result with
      | .Done => return (d, calls, [])
      | .Err _ => return (d, calls, [])
      | .WriteToNetwork packet =>
        return (d, calls, (d.heap[peer]?.map fun p => Endpoint.send p.endpoint packet).getD [])
      | _ => .panic "Unexpected result from encapsulate"

/-- Go over each peer and invoke the timer function. -/
def timers_loop (d : Device C) (env : PeerRef → Env) :
    List PeerRef → Outcome (Device C × List Call × List Output)
  | [] => .ok (d, [], [])
  | r :: rs =>
    match d.heap[r]?.bind fun p => p.endpoint.addr with
    | none => d.timers_loop env rs
    | some endpoint_addr => do
      let (result, d, calls) ← d.call B r (.update_timers MAX_UDP_SIZE) (env r)
      let (d, output) ← (match result with
        | .Done => .ok (d, [])
        | .Err .ConnectionExpired => .ok (d.shutdown_endpoint r, []) -- close open udp socket
        | .Err _ => .ok (d, [])
        | .WriteToNetwork packet => .ok (d, [Output.send_to packet endpoint_addr])
        | _ => .panic "Unexpected result from update_timers" : Outcome (Device C × List Output))
      let (d, calls', outputs) ← d.timers_loop env rs
      return (d, calls ++ calls', output ++ outputs)

def timers_handler (d : Device C) (env : PeerRef → Env) :
    Outcome (Device C × List Call × List Output) :=
  if d.listening then d.timers_loop B env d.peer_values else .ok (d, [], [])

/-! ## Section 3: Runs -/

end Device

/-- What happens to a device: configuration, events of the event queue, and what other users of a
    rate limiter do to its counters. -/
inductive DeviceOp where
  | set_key (private_key : Bytes) (limiter_now : Nat) (env : Env)
  | update_peer (pub_key : PublicKey) (config : Device.PeerConfig) (new : Device.NewEnv)
  | remove_peer (pub_key : PublicKey)
  | clear_peers
  | open_listen_socket (port : Nat) (bound : Option Nat)
  | set_fwmark (mark : Nat)
  | udp (addr : SocketAddr) (packet : Bytes) (env : Device.HandlerEnv)
  | conn (handler : ConnHandler) (packet : Bytes) (env : Device.HandlerEnv)
  | cancel (handler : ConnHandler)
  | iface (src : Bytes) (env : Env)
  | timers (env : PeerRef → Env)
  | reset_count (now : Nat)
  | shared (r : PeerRef) (count nonce_ctr last_reset : Nat) (env : Env)
  | limiter (count nonce_ctr last_reset : Nat)

/-- A label of a device's run: the operation, the calls of tunnels it makes, and what it sends and
    writes. -/
structure DeviceLabel where
  op : DeviceOp
  calls : List Call
  outputs : List Output

namespace Device

variable {C : Crypto} (B : Build)

/-- One operation.  A datagram comes in on a connected socket only if its handler is registered and
    the socket was not shut down. -/
def step (d : Device C) (op : DeviceOp) : Outcome (Device C × List Call × List Output) :=
  match op with
  | .set_key private_key limiter_now env => do
    let (d, calls) ← d.set_key B private_key limiter_now env
    return (d, calls, [])
  | .update_peer pub_key config new => do
    let d ← d.update_peer pub_key config new
    return (d, [], [])
  | .remove_peer pub_key => .ok (d.remove_peer pub_key, [], [])
  | .clear_peers => .ok (d.clear_peers, [], [])
  | .open_listen_socket port bound => .ok (d.open_listen_socket port bound, [], [])
  | .set_fwmark mark => .ok (d.set_fwmark mark, [], [])
  | .udp addr packet env => d.udp_handler B addr packet env
  | .conn h packet env =>
    if h ∈ d.queue ∧ h.udp ∉ d.shut then d.conn_handler B h packet env else .ok (d, [], [])
  | .cancel h => .ok ({ d with queue := d.queue.erase h }, [], [])
  | .iface src env => d.iface_handler B src env
  | .timers env => d.timers_handler B env
  | .reset_count now =>
    .ok ({ d with rate_limiter := d.rate_limiter.map (·.reset_count now) }, [], [])
  | .shared r count nonce_ctr last_reset env => do
    let (_, d, calls) ← d.call B r (.shared count nonce_ctr last_reset) env
    return (d, calls, [])
  | .limiter count nonce_ctr last_reset =>
    .ok ({ d with rate_limiter := d.rate_limiter.map fun l =>
      { l with count := count, nonce_ctr := nonce_ctr, last_reset := last_reset } }, [], [])

end Device

/-- A device as a labelled transition system. -/
def device (C : Crypto) (B : Build) : System (Device C) DeviceLabel where
  step := fun d l d' => d.step B l.op = .ok (d', l.calls, l.outputs)

/-- The calls of tunnels along a run of a device. -/
def deviceCalls (tr : List DeviceLabel) : List Call := tr.flatMap (·.calls)

end PqBoringtun
