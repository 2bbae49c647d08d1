import PqBoringtun.Device.Device
import PqBoringtun.Serialization

/-! # The configuration interface

    Model of the set command in `device/api.rs`.  The command comes in as a
    stream of bytes, which is read line by line; a line that is no UTF-8, and
    a failing read, end the command without an error.

    The standard parsers of addresses are parameters.  What the clock, the
    random numbers and the operating system answer while a line is processed
    is an argument (`ApiEnv`).  Waking the other threads and waiting for the
    write lock, which is always granted, are left out.

    * Section 1: reading lines.
    * Section 2: allowed addresses.
    * Section 3: `api_set_peer` and `api_set`.
-/

namespace PqBoringtun

/-! ## Section 1: Lines -/

/-- What the calls of `read_line` give up to the end of the stream: a line with its newline, or an
    error. -/
abbrev Reader : Type := List (Option String)

/-- The reader of a stream; when it is `broken`, reading fails behind these bytes, otherwise they
    are followed by the end of file. -/
def Reader.new (stream : Bytes) (broken : Bool) : Reader :=
  if broken then ((Str.lines stream).filter Str.terminated).map Str.from_utf8 ++ [none]
  else (Str.lines stream).map Str.from_utf8

/-- The reader of a stream that was put together from lines. -/
theorem Reader.new_lines {texts : List String} (htexts : ∀ s ∈ texts, 10 ∉ Str.bytes s) :
    Reader.new (texts.flatMap fun s => Str.bytes (s ++ "\n")) false =
      texts.map fun s => some (s ++ "\n") :=
  Str.lines_flatMap htexts

/-! ## Section 2: Allowed addresses -/

/-- The parsers of addresses in the standard library. -/
structure Parsers where
  ip_addr : String → Option IpAddr
  socket_addr : String → Option SocketAddr

def AllowedIP.from_str (P : Parsers) (s : String) : Except String AllowedIP :=
  match Str.split '/' s with
  | [addr, cidr] =>
    match P.ip_addr addr, Str.parse_unsigned 255 cidr with
    | some (.V4 addr), some cidr =>
      if cidr ≤ 32 then .ok ⟨.V4 addr, UInt8.ofNat cidr⟩ else .error "Invalid IP format"
    | some (.V6 addr), some cidr =>
      if cidr ≤ 128 then .ok ⟨.V6 addr, UInt8.ofNat cidr⟩ else .error "Invalid IP format"
    | _, _ => .error "Invalid IP format"
  | _ => .error "Invalid IP format"

/-! ## Section 3: The set command -/

def EINVAL : Nat := 22

def EPROTO : Nat := 71

def EADDRINUSE : Nat := 98

/-- A key as a public key. -/
def KeyBytes.public_key (key_bytes : KeyBytes) : PublicKey := ⟨key_bytes.bytes, key_bytes.size⟩

namespace Device

/-- What the environment answers while a line is processed. -/
structure ApiEnv where
  /-- When a tunnel is created -/
  new : NewEnv
  /-- When the key is set -/
  limiter_now : Nat
  env : Env
  /-- The port of sockets for a port, if they were bound -/
  bound : Nat → Option Nat
  /-- The mark was set on all sockets -/
  marked : Nat → Bool

/-- The settings at the start of the first section. -/
def PeerConfig.start : PeerConfig where
  remove := false
  replace_ips := false
  endpoint := none
  allowed_ips := []
  keepalive := none
  preshared_key := none

/-- The lines of `api_set_peer` that only change the settings, all but `public_key`. -/
def set_peer_line (P : Parsers) (config : PeerConfig) (key val : String) :
    Outcome (Except Nat PeerConfig) :=
  match key with
  | "remove" =>
    match Str.parse_bool val with
    | some remove => .ok (.ok { config with remove })
    | none => .ok (.error EINVAL)
  | "preshared_key" => do
    match ← (KeyBytes.from_str val).run with
    | .ok key_bytes => .ok (.ok { config with preshared_key := some key_bytes.bytes })
    | .error _ => .ok (.error EINVAL)
  | "endpoint" =>
    match P.socket_addr val with
    | some addr => .ok (.ok { config with endpoint := some addr })
    | none => .ok (.error EINVAL)
  | "persistent_keepalive_interval" =>
    match Str.parse_unsigned 65535 val with
    | some interval => .ok (.ok { config with keepalive := some (UInt16.ofNat interval) })
    | none => .ok (.error EINVAL)
  | "replace_allowed_ips" =>
    match Str.parse_bool val with
    | some replace_ips => .ok (.ok { config with replace_ips })
    | none => .ok (.error EINVAL)
  | "allowed_ip" =>
    match AllowedIP.from_str P val with
    | .ok ip => .ok (.ok { config with allowed_ips := config.allowed_ips ++ [ip] })
    | .error _ => .ok (.error EINVAL)
  | "protocol_version" =>
    match Str.parse_unsigned 4294967295 val with
    | some 1 => .ok (.ok config) -- Only version 1 is legal
    | _ => .ok (.error EINVAL)
  | _ => .ok (.error EINVAL)

/-- A line in front of the first section. -/
inductive SetLine where
  | private_key (key_bytes : KeyBytes)
  | listen_port (port : Nat)
  | fwmark (mark : Nat)
  | replace_peers (replace : Bool)
  | public_key (key_bytes : KeyBytes)

/-- How `api_set` parses a line. -/
def set_line (key val : String) : Outcome (Except Nat SetLine) :=
  match key with
  | "private_key" => do
    match ← (KeyBytes.from_str val).run with
    | .ok key_bytes => .ok (.ok (.private_key key_bytes))
    | .error _ => .ok (.error EINVAL)
  | "listen_port" =>
    match Str.parse_unsigned 65535 val with
    | some port => .ok (.ok (.listen_port port))
    | none => .ok (.error EINVAL)
  | "fwmark" =>
    match Str.parse_unsigned 4294967295 val with
    | some mark => .ok (.ok (.fwmark mark))
    | none => .ok (.error EINVAL)
  | "replace_peers" =>
    match Str.parse_bool val with
    | some replace => .ok (.ok (.replace_peers replace))
    | none => .ok (.error EINVAL)
  | "public_key" => do
    match ← (KeyBytes.from_str val).run with
    | .ok key_bytes => .ok (.ok (.public_key key_bytes))
    | .error _ => .ok (.error EINVAL)
  | _ => .ok (.error EINVAL)

variable {C : Crypto} (B : Build) (P : Parsers) (world : Nat → ApiEnv)

/-- The loop of `api_set_peer`, from line `n` on: the key of the current section and the settings
    read so far.  At the end of file `read_line` leaves an empty line. -/
def api_set_peer (d : Device C) (public_key : PublicKey) (config : PeerConfig) (n : Nat) :
    Reader → Outcome (Nat × Device C)
  | [] => do
    let d ← d.update_peer public_key config (world n).new
    return (0, d)
  | none :: _ => .ok (0, d)
  | some line :: reader =>
    let cmd := Str.pop line -- remove newline if any
    if cmd = "" then do
      let d ← d.update_peer public_key config (world n).new
      return (0, d) -- Done
    else
      match Str.splitn_two '=' cmd with
      | [key, val] =>
        if key = "public_key" then do
          -- Commit changes for current peer, and continue to next peer
          let d ← d.update_peer public_key config (world n).new
          let config := { config with allowed_ips := [] } -- clear the vector content after update
          match ← (KeyBytes.from_str val).run with
          | .ok key_bytes => d.api_set_peer key_bytes.public_key config (n + 1) reader
          | .error _ => .ok (EINVAL, d)
        else do
          match ← set_peer_line P config key val with
          | .ok config => d.api_set_peer public_key config (n + 1) reader
          | .error status => .ok (status, d)
      | _ => .ok (EPROTO, d)

/-- The loop of `api_set`, from line `n` on. -/
def api_set (d : Device C) (n : Nat) : Reader → Outcome (Nat × Device C)
  | [] => .ok (0, d)
  | none :: _ => .ok (0, d)
  | some line :: reader =>
    let cmd := Str.pop line -- remove newline if any
    if cmd = "" then .ok (0, d) -- Done
    else
      match Str.split '=' cmd with
      | [key, val] => do
        match ← set_line key val with
        | .error status => .ok (status, d)
        | .ok (.private_key key_bytes) =>
          let (d, _) ← d.set_key B key_bytes.bytes (world n).limiter_now (world n).env
          d.api_set (n + 1) reader
        | .ok (.listen_port port) =>
          let d := d.open_listen_socket port ((world n).bound port)
          if ((world n).bound port).isSome then d.api_set (n + 1) reader else .ok (EADDRINUSE, d)
        | .ok (.fwmark mark) =>
          let d := d.set_fwmark mark
          if (world n).marked mark then d.api_set (n + 1) reader else .ok (EADDRINUSE, d)
        | .ok (.replace_peers true) => d.clear_peers.api_set (n + 1) reader
        | .ok (.replace_peers false) => d.api_set (n + 1) reader
        | .ok (.public_key key_bytes) =>
          -- Indicates a new peer section
          d.api_set_peer P world key_bytes.public_key .start (n + 1) reader
      | _ => .ok (EPROTO, d)

end Device

end PqBoringtun
