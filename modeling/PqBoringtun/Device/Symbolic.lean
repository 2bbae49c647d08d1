import PqBoringtun.Device.Handlers
import PqBoringtun.Noise.Symbolic

/-! # A device to run

    `Device.exec` runs a list of operations, and `symbolicDevice` is a device
    to run them on, with the primitives of `symbolic`.
-/

namespace PqBoringtun

namespace Device

variable {C : Crypto} {B : Build}

/-- Operations one after the other, with the labels of the run. -/
def exec (B : Build) (d : Device C) : List DeviceOp → Outcome (Device C × List DeviceLabel)
  | [] => .ok (d, [])
  | op :: ops => do
    let (d, calls, outputs) ← d.step B op
    let (d, tr) ← d.exec B ops
    return (d, ⟨op, calls, outputs⟩ :: tr)

theorem exec_run {d d' : Device C} {ops : List DeviceOp} {tr : List DeviceLabel}
    (h : d.exec B ops = .ok (d', tr)) : Run (device C B) d tr d' := by
  induction ops generalizing d tr with
  | nil =>
    cases h
    exact .nil
  | cons op ops ih =>
    obtain ⟨⟨d₁, calls, outputs⟩, hstep, h⟩ := Outcome.bind_eq_ok.mp h
    obtain ⟨⟨d₂, tr₂⟩, hrest, h⟩ := Outcome.bind_eq_ok.mp h
    cases h
    have hfirst : Run (device C B) d [⟨op, calls, outputs⟩] d₁ := .snoc .nil hstep
    exact hfirst.append (ih hrest)

/-- The labels are those of the operations. -/
theorem exec_op {d d' : Device C} {ops : List DeviceOp} {tr : List DeviceLabel}
    (h : d.exec B ops = .ok (d', tr)) {l : DeviceLabel} (hl : l ∈ tr) : l.op ∈ ops := by
  induction ops generalizing d tr with
  | nil =>
    cases h
    cases hl
  | cons op ops ih =>
    obtain ⟨⟨d₁, calls, outputs⟩, _, h⟩ := Outcome.bind_eq_ok.mp h
    obtain ⟨⟨d₂, tr₂⟩, hrest, h⟩ := Outcome.bind_eq_ok.mp h
    cases h
    rcases List.mem_cons.mp hl with rfl | hl
    · exact List.mem_cons_self
    · exact List.mem_cons_of_mem _ (ih hrest hl)

end Device

/-- A device that connects a socket for each peer, with the first index 1. -/
def symbolicDevice : Device symbolic :=
  .new true (.default 1 1 ⟨by decide, by decide⟩ ⟨by decide, by decide⟩)

def symbolicKey (b : UInt8) : PublicKey := ⟨List.replicate 32 b, rfl⟩

/-- A peer that may use these addresses. -/
def symbolicConfig (allowed_ips : List AllowedIP) : Device.PeerConfig where
  remove := false
  replace_ips := false
  endpoint := none
  allowed_ips := allowed_ips
  keepalive := none
  preshared_key := none

def symbolicNew : Device.NewEnv := ⟨0, 0, symbolicEnv 0⟩

/-- 10.0.0.0/8 -/
def net10 : AllowedIP := ⟨.V4 0x0a000000, 8⟩

/-- An IPv4 packet without payload. -/
def symbolicPacket (src dst : Bytes) : Bytes :=
  [0x45, 0, 0, 20] ++ List.replicate 8 0 ++ src ++ dst

/-- Where the datagrams come from. -/
def symbolicAddr : SocketAddr := .V4 0x01010101 7

/-- The environment of a handler whose socket gets connected. -/
def symbolicHandler : Device.HandlerEnv := ⟨symbolicEnv 0, fun _ => symbolicEnv 0, true⟩

end PqBoringtun
