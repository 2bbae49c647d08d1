import PqBoringtun.Device.AllowedIps
import PqBoringtun.Noise.Tunn

/-! # Peers

    Model of `device/peer.rs`.  A connected UDP socket is known by a number,
    which its clones share; shutting it down is left to the caller, who gets
    the number.  What the operating system answers is an argument.
-/

namespace PqBoringtun

/-- A public key of 32 bytes. -/
structure PublicKey where
  bytes : Bytes
  length_bytes : bytes.length = KEY_LEN
  deriving DecidableEq

inductive SocketAddr where
  | V4 (ip : BitVec 32) (port : UInt16)
  | V6 (ip : BitVec 128) (port : UInt16) (flowinfo scope_id : UInt32)
  deriving DecidableEq, Repr

def SocketAddr.ip : SocketAddr → IpAddr
  | .V4 ip _ => .V4 ip
  | .V6 ip _ _ _ => .V6 ip

/-- A socket, by the number of its opening. -/
abbrev Socket : Type := Nat

structure Endpoint where
  addr : Option SocketAddr
  conn : Option Socket
  deriving DecidableEq, Repr

structure Peer (C : Crypto) where
  /-- The associated tunnel struct -/
  tunnel : Tunn C
  /-- The index the tunnel uses -/
  index : UInt32
  endpoint : Endpoint
  allowed_ips : AllowedIps Unit
  preshared_key : Option Bytes

namespace Peer

variable {C : Crypto}

def new (tunnel : Tunn C) (index : UInt32) (endpoint : Option SocketAddr)
    (allowed_ips : List AllowedIP) (preshared_key : Option Bytes) : Outcome (Peer C) := do
  let allowed_ips ← AllowedIps.from_iter allowed_ips ()
  return { tunnel, index, endpoint := ⟨endpoint, none⟩, allowed_ips, preshared_key }

/-- What a new peer is made of. -/
theorem new_eq_ok {tunnel : Tunn C} {index : UInt32} {endpoint : Option SocketAddr}
    {ips : List AllowedIP} {preshared_key : Option Bytes} {p : Peer C}
    (h : new tunnel index endpoint ips preshared_key = .ok p) :
    p.tunnel = tunnel ∧ p.index = index ∧ p.endpoint = ⟨endpoint, none⟩ ∧
      p.preshared_key = preshared_key ∧ AllowedIps.from_iter ips () = .ok p.allowed_ips := by
  obtain ⟨allowed_ips, hips, h⟩ := Outcome.bind_eq_ok.mp h
  cases h
  exact ⟨rfl, rfl, rfl, rfl, hips⟩

theorem new_returns {ips : List AllowedIP} {table : AllowedIps Unit} (tunnel : Tunn C)
    (index : UInt32) (endpoint : Option SocketAddr) (preshared_key : Option Bytes)
    (hips : AllowedIps.from_iter ips () = .ok table) :
    new tunnel index endpoint ips preshared_key
      = .ok ⟨tunnel, index, ⟨endpoint, none⟩, table, preshared_key⟩ :=
  Outcome.bind_eq_ok.mpr ⟨table, hips, rfl⟩

/-- Forget the connected socket, which is shut down. -/
def shutdown_endpoint (p : Peer C) : Peer C × Option Socket :=
  ({ p with endpoint := { p.endpoint with conn := none } }, p.endpoint.conn)

def set_endpoint (p : Peer C) (addr : SocketAddr) : Peer C × Option Socket :=
  if p.endpoint.addr ≠ some addr then
    -- We only need to update the endpoint if it differs from the current one
    ({ p with endpoint := ⟨some addr, none⟩ }, p.endpoint.conn)
  else (p, none)

/-- `opened` is the socket the operating system has opened, bound to the
    listening port and connected to the endpoint, if all of that succeeded. -/
def connect_endpoint (p : Peer C) (opened : Option Socket) : Outcome (Option Socket × Peer C) :=
  if p.endpoint.conn.isSome then .ok (none, p)
  else
    match p.endpoint.addr with
    | none => .panic "Attempt to connect to undefined endpoint"
    | some _ => .ok (opened, { p with endpoint := { p.endpoint with conn := opened } })

def is_allowed_ip (p : Peer C) (addr : IpAddr) : Bool := (p.allowed_ips.find addr).isSome

end Peer

end PqBoringtun
