import PqBoringtun.Device.Api
import PqBoringtun.Device.Symbolic
import PqBoringtun.Device.Tables

/-! # What a set command does

    A stream determines the operations on the device, the texts that are read
    as keys, and the status, all without looking at the device: its `Script`.
    The set command carries its script out (`Device.api_set_eq`), so it is a
    run of configuration operations.

    * Section 1: scripts.
    * Section 2: the command carries out its script.
    * Section 3: which operations the device admits.
    * Section 4: which commands return (`Device.api_set_returns_iff`), and
      streams that end the process.
-/

namespace PqBoringtun

/-! ## Section 1: Scripts -/

/-- What a command does, up to its end: a status, or the panic of a text that is read as a key. -/
structure Script where
  ops : List DeviceOp
  texts : List String
  ends : Outcome Nat

namespace Script

/-- The end of a command. -/
def stop (status : Nat) : Script := ⟨[], [], .ok status⟩

/-- An operation, then the rest. -/
def op (o : DeviceOp) (s : Script) : Script := { s with ops := o :: s.ops }

/-- Texts are read as keys, with the outcome `x`, then the rest. -/
def reads {α : Type} (texts : List String) (x : Outcome α) (next : α → Script) : Script :=
  match x with
  | .ok a => { next a with texts := texts ++ (next a).texts }
  | .panic msg => ⟨[], texts, .panic msg⟩

end Script

namespace Device

variable (P : Parsers) (world : Nat → ApiEnv)

/-- The text that a line of a section reads as a key, all but `public_key`. -/
def peer_line_texts (key val : String) : List String := if key = "preshared_key" then [val] else []

def peer_script (public_key : PublicKey) (config : PeerConfig) (n : Nat) : Reader → Script
  | [] => .op (.update_peer public_key config (world n).new) (.stop 0)
  | none :: _ => .stop 0
  | some line :: reader =>
    let cmd := Str.pop line
    if cmd = "" then .op (.update_peer public_key config (world n).new) (.stop 0)
    else
      match Str.splitn_two '=' cmd with
      | [key, val] =>
        if key = "public_key" then
          .op (.update_peer public_key config (world n).new) <|
            .reads [val] (KeyBytes.from_str val).run fun
              | .ok key_bytes =>
                peer_script key_bytes.public_key { config with allowed_ips := [] } (n + 1) reader
              | .error _ => .stop EINVAL
        else
          .reads (peer_line_texts key val) (set_peer_line P config key val) fun
            | .ok config => peer_script public_key config (n + 1) reader
            | .error status => .stop status
      | _ => .stop EPROTO

/-- The text that a line in front of the sections reads as a key. -/
def set_line_texts (key val : String) : List String :=
  if key = "private_key" ∨ key = "public_key" then [val] else []

def script (n : Nat) : Reader → Script
  | [] => .stop 0
  | none :: _ => .stop 0
  | some line :: reader =>
    let cmd := Str.pop line
    if cmd = "" then .stop 0
    else
      match Str.split '=' cmd with
      | [key, val] =>
        .reads (set_line_texts key val) (set_line key val) fun
          | .error status => .stop status
          | .ok (.private_key key_bytes) =>
            .op (.set_key key_bytes.bytes (world n).limiter_now (world n).env)
              (script (n + 1) reader)
          | .ok (.listen_port port) =>
            .op (.open_listen_socket port ((world n).bound port))
              (if ((world n).bound port).isSome then script (n + 1) reader else .stop EADDRINUSE)
          | .ok (.fwmark mark) =>
            .op (.set_fwmark mark)
              (if (world n).marked mark then script (n + 1) reader else .stop EADDRINUSE)
          | .ok (.replace_peers true) => .op .clear_peers (script (n + 1) reader)
          | .ok (.replace_peers false) => script (n + 1) reader
          | .ok (.public_key key_bytes) =>
            peer_script P world key_bytes.public_key .start (n + 1) reader
      | _ => .stop EPROTO

section lines
variable {P world} {key val : String} {k : KeyBytes} {public_key : PublicKey}
  {config config' : PeerConfig} {n : Nat} {reader : Reader}

theorem line_ne_empty (key val : String) : key ++ "=" ++ val ≠ "" := by
  intro h
  have hlist := congrArg String.toList h
  simp at hlist

/-- A line in front of the sections. -/
theorem script_line (hkey : '=' ∉ key.toList) (hval : '=' ∉ val.toList) :
    script P world n (some (key ++ "=" ++ val ++ "\n") :: reader) =
      .reads (set_line_texts key val) (set_line key val) fun
        | .error status => .stop status
        | .ok (.private_key key_bytes) =>
          .op (.set_key key_bytes.bytes (world n).limiter_now (world n).env)
            (script P world (n + 1) reader)
        | .ok (.listen_port port) =>
          .op (.open_listen_socket port ((world n).bound port))
            (if ((world n).bound port).isSome then script P world (n + 1) reader
              else .stop EADDRINUSE)
        | .ok (.fwmark mark) =>
          .op (.set_fwmark mark)
            (if (world n).marked mark then script P world (n + 1) reader else .stop EADDRINUSE)
        | .ok (.replace_peers true) => .op .clear_peers (script P world (n + 1) reader)
        | .ok (.replace_peers false) => script P world (n + 1) reader
        | .ok (.public_key key_bytes) =>
          peer_script P world key_bytes.public_key .start (n + 1) reader := by
  have hsplit : Str.split '=' (key ++ "=" ++ val) = [key, val] := Str.split_append hkey hval
  rw [script, Str.pop_newline, if_neg (line_ne_empty key val), hsplit]

/-- The line at the start of the first section. -/
theorem script_public_key (hk : (KeyBytes.from_str val).run = .ok (.ok k))
    (hval : '=' ∉ val.toList) :
    script P world n (some ("public_key" ++ "=" ++ val ++ "\n") :: reader) =
      .reads [val] (.ok ()) fun _ => peer_script P world k.public_key .start (n + 1) reader := by
  have hline : set_line "public_key" val = .ok (.ok (.public_key k)) := by
    show ((KeyBytes.from_str val).run >>= _) = _
    rw [hk]
    rfl
  rw [script_line (by decide) hval, hline]
  rfl

theorem script_private_key (hk : (KeyBytes.from_str val).run = .ok (.ok k))
    (hval : '=' ∉ val.toList) :
    script P world n (some ("private_key" ++ "=" ++ val ++ "\n") :: reader) =
      .reads [val] (.ok ()) fun _ => .op (.set_key k.bytes (world n).limiter_now (world n).env)
        (script P world (n + 1) reader) := by
  have hline : set_line "private_key" val = .ok (.ok (.private_key k)) := by
    show ((KeyBytes.from_str val).run >>= _) = _
    rw [hk]
    rfl
  rw [script_line (by decide) hval, hline]
  rfl

/-- The line at the start of a later section. -/
theorem peer_script_public_key (hk : (KeyBytes.from_str val).run = .ok (.ok k)) :
    peer_script P world public_key config n (some ("public_key" ++ "=" ++ val ++ "\n") :: reader) =
      .op (.update_peer public_key config (world n).new) (.reads [val] (.ok ()) fun _ =>
        peer_script P world k.public_key { config with allowed_ips := [] } (n + 1) reader) := by
  have hsplit : Str.splitn_two '=' ("public_key" ++ "=" ++ val) = ["public_key", val] :=
    Str.splitn_two_append (by decide) val
  rw [peer_script, Str.pop_newline, if_neg (line_ne_empty _ val), hsplit]
  dsimp only
  rw [if_pos rfl, hk]
  rfl

/-- A line with a setting. -/
theorem peer_script_setting (hkey : '=' ∉ key.toList) (hsetting : key ≠ "public_key")
    (hline : set_peer_line P config key val = .ok (.ok config')) :
    peer_script P world public_key config n (some (key ++ "=" ++ val ++ "\n") :: reader) =
      .reads (peer_line_texts key val) (.ok ()) fun _ =>
        peer_script P world public_key config' (n + 1) reader := by
  have hsplit : Str.splitn_two '=' (key ++ "=" ++ val) = [key, val] :=
    Str.splitn_two_append hkey val
  rw [peer_script, Str.pop_newline, if_neg (line_ne_empty key val), hsplit]
  dsimp only
  rw [if_neg hsetting, hline]
  rfl

/-- The empty line behind the sections. -/
theorem peer_script_done : peer_script P world public_key config n (some ("" ++ "\n") :: reader) =
    .op (.update_peer public_key config (world n).new) (.stop 0) := by
  rw [peer_script, Str.pop_newline, if_pos rfl]

end lines

/-! ## Section 2: Carrying out a script -/

variable {C : Crypto} {B : Build}

/-- The operations of a script, then its end. -/
def run_script (B : Build) (d : Device C) (s : Script) : Outcome (Nat × Device C) := do
  let (d, _) ← d.exec B s.ops
  let status ← s.ends
  return (status, d)

variable {d : Device C}

@[simp] theorem run_script_stop (status : Nat) : d.run_script B (.stop status) =
    .ok (status, d) := rfl

theorem run_script_op (o : DeviceOp) (s : Script) :
    d.run_script B (.op o s) = d.step B o >>= fun x => x.1.run_script B s := by
  have hexec : d.exec B (o :: s.ops) = d.step B o >>= fun x => x.1.exec B s.ops >>= fun y =>
      .ok (y.1, ⟨o, x.2.1, x.2.2⟩ :: y.2) := rfl
  unfold run_script Script.op
  rw [hexec]
  cases d.step B o with
  | panic msg => rfl
  | ok x =>
    simp only [Outcome.ok_bind]
    cases x.1.exec B s.ops with
    | panic msg => rfl
    | ok y => rfl

/-- A panic of the text comes before what is left of the script. -/
@[simp] theorem run_script_reads {α : Type} (texts : List String) (x : Outcome α)
    (next : α → Script) :
    d.run_script B (.reads texts x next) = x >>= fun a => d.run_script B (next a) := by
  cases x with
  | ok a => rfl
  | panic msg => rfl

@[simp] theorem run_script_update_peer (pub_key : PublicKey) (config : PeerConfig) (new : NewEnv)
    (s : Script) : d.run_script B (.op (.update_peer pub_key config new) s) =
      d.update_peer pub_key config new >>= fun d => d.run_script B s := by
  rw [run_script_op]
  show (d.update_peer pub_key config new >>= _) >>= _ = _
  cases d.update_peer pub_key config new with
  | ok d' => rfl
  | panic msg => rfl

@[simp] theorem run_script_set_key (private_key : Bytes) (now : Nat) (env : Env) (s : Script) :
    d.run_script B (.op (.set_key private_key now env) s) =
      d.set_key B private_key now env >>= fun x => x.1.run_script B s := by
  rw [run_script_op]
  show (d.set_key B private_key now env >>= _) >>= _ = _
  cases d.set_key B private_key now env with
  | ok x => rfl
  | panic msg => rfl

theorem api_set_peer_eq (public_key : PublicKey) (config : PeerConfig) (n : Nat) (reader : Reader) :
    d.api_set_peer P world public_key config n reader =
      d.run_script B (peer_script P world public_key config n reader) := by
  induction reader generalizing d public_key config n with
  | nil =>
    rw [api_set_peer, peer_script, run_script_update_peer]
    rfl
  | cons read reader ih =>
    cases read with
    | none => rfl
    | some line =>
      rw [api_set_peer, peer_script]
      dsimp only
      by_cases hempty : Str.pop line = ""
      · rw [if_pos hempty, if_pos hempty, run_script_update_peer]
        rfl
      rw [if_neg hempty, if_neg hempty]
      rcases Str.splitn_two '=' (Str.pop line) with _ | ⟨key, _ | ⟨val, _ | ⟨_, _⟩⟩⟩
      · rfl
      · rfl
      · dsimp only
        by_cases hkey : key = "public_key"
        · rw [if_pos hkey, if_pos hkey, run_script_update_peer]
          congr 1
          funext d
          rw [run_script_reads]
          congr 1
          funext res
          cases res with
          | ok key_bytes => exact ih ..
          | error e => rfl
        · rw [if_neg hkey, if_neg hkey, run_script_reads]
          congr 1
          funext res
          cases res with
          | ok config => exact ih ..
          | error status => rfl
      · rfl

/-- **The set command carries out its script.** -/
theorem api_set_eq (n : Nat) (reader : Reader) :
    d.api_set B P world n reader = d.run_script B (script P world n reader) := by
  induction reader generalizing d n with
  | nil => rfl
  | cons read reader ih =>
    cases read with
    | none => rfl
    | some line =>
      rw [api_set, script]
      dsimp only
      by_cases hempty : Str.pop line = ""
      · rw [if_pos hempty, if_pos hempty]
        rfl
      rw [if_neg hempty, if_neg hempty]
      rcases Str.split '=' (Str.pop line) with _ | ⟨key, _ | ⟨val, _ | ⟨_, _⟩⟩⟩
      · rfl
      · rfl
      · dsimp only
        rw [run_script_reads]
        congr 1
        funext res
        cases res with
        | error status => rfl
        | ok l =>
          cases l with
          | private_key key_bytes =>
            dsimp only
            rw [run_script_set_key]
            congr 1
            funext x
            exact ih ..
          | listen_port port =>
            dsimp only
            rw [run_script_op]
            show _ = (d.open_listen_socket port ((world n).bound port)).run_script B _
            cases (world n).bound port with
            | some assigned => exact ih ..
            | none => rfl
          | fwmark mark =>
            dsimp only
            rw [run_script_op]
            show _ = (d.set_fwmark mark).run_script B _
            cases (world n).marked mark with
            | true => exact ih ..
            | false => rfl
          | replace_peers replace =>
            cases replace with
            | true =>
              dsimp only
              rw [run_script_op]
              exact ih ..
            | false => exact ih ..
          | public_key key_bytes => exact api_set_peer_eq ..
      · rfl

end Device

/-! ## Section 3: Operations that are admitted -/

/-- Every allowed address has a network. -/
def Device.PeerConfig.Valid (config : Device.PeerConfig) : Prop :=
  ∀ ip ∈ config.allowed_ips, ip.network.isSome = true

/-- The operations of the configuration interface. -/
def DeviceOp.Configures : DeviceOp → Prop
  | .set_key _ _ _ => True
  | .update_peer _ config _ => config.Valid
  | .clear_peers => True
  | .open_listen_socket _ _ => True
  | .set_fwmark _ => True
  | _ => False

/-- What the configuration of a device depends on: is there a key, which peers are there, and the
    generator of their indices. -/
structure Outline where
  keyed : Bool
  configured : Bytes → Bool
  generator : IndexLfsr

namespace Outline

/-- A peer that is not removed must be new, the key must be set, and an index must be left. -/
def Allows (o : Outline) : DeviceOp → Prop
  | .update_peer pub_key config _ =>
    config.remove = true ∨
      (o.configured pub_key.bytes = false ∧ o.keyed = true ∧ ∃ x, o.generator.next = .ok x)
  | _ => True

def after (o : Outline) : DeviceOp → Outline
  | .set_key _ _ _ => { o with keyed := true }
  | .clear_peers => { o with configured := fun _ => false }
  | .update_peer pub_key config _ =>
    if config.remove then { o with configured := Function.update o.configured pub_key.bytes false }
    else
      { o with
        configured := Function.update o.configured pub_key.bytes true
        generator :=
          match o.generator.next with
          | .ok (_, generator) => generator
          | .panic _ => o.generator }
  | _ => o

/-- The operations are allowed, one after the other. -/
def Admits : Outline → List DeviceOp → Prop
  | _, [] => True
  | o, op :: ops => o.Allows op ∧ (o.after op).Admits ops

end Outline

namespace Device

variable {C : Crypto} {B : Build} {d d' : Device C} {calls : List Call} {outputs : List Output}

def outline (d : Device C) : Outline where
  keyed := d.key_pair.isSome
  configured := fun k => (d.peers.lookup k).isSome
  generator := d.next_index

theorem call_set_static_private_returns {r : PeerRef} (hr : r < d.heap.length) (private_key : Bytes)
    (limiter : RateLimiter) (env : Env) :
    ∃ x, d.call B r (.set_static_private private_key (C.x25519_public private_key)
      (some limiter)) env
      = .ok x := by
  obtain ⟨params, hparams⟩ :=
    d.heap[r].tunnel.handshake.params.set_static_private_own private_key
  obtain ⟨⟨result, tunnel, events⟩, hstep⟩ : ∃ x, d.heap[r].tunnel.step B (.set_static_private
      private_key (C.x25519_public private_key) (some limiter)) env = .ok x :=
    ⟨_, Outcome.bind_eq_ok.mpr ⟨_, Outcome.bind_eq_ok.mpr ⟨params, hparams, rfl⟩, rfl⟩⟩
  exact ⟨_, call_eq_ok.mpr ⟨_, tunnel, events, List.getElem?_eq_getElem hr, hstep, rfl, rfl⟩⟩

theorem set_static_private_returns {rs : List PeerRef} (hrs : ∀ r ∈ rs, r < d.heap.length)
    (private_key : Bytes) (limiter : RateLimiter) (env : Env) :
    ∃ x, d.set_static_private B private_key (C.x25519_public private_key) limiter env rs
      = .ok x := by
  induction rs generalizing d with
  | nil => exact ⟨_, rfl⟩
  | cons r rs ih =>
    obtain ⟨⟨result, d₁, calls⟩, hcall⟩ :=
      call_set_static_private_returns (B := B) (hrs r List.mem_cons_self) private_key limiter env
    obtain ⟨p, tunnel, events, hp, hstep, rfl, rfl⟩ := call_eq_ok.mp hcall
    obtain ⟨x, hx⟩ := ih (d := d.put r ({ p with tunnel }, none)) fun r' hr' => by
      rw [(SameTables.put d r ({ p with tunnel }, none)).heap_length]
      exact hrs r' (List.mem_cons_of_mem _ hr')
    exact ⟨_, Outcome.bind_eq_ok.mpr ⟨_, hcall, Outcome.bind_eq_ok.mpr ⟨x, hx, rfl⟩⟩⟩

/-- Setting the key calls only peers that are there. -/
theorem set_key_returns (h : d.Tables) (private_key : Bytes) (now : Nat) (env : Env) :
    ∃ x, d.set_key B private_key now env = .ok x := by
  unfold set_key
  dsimp only
  split
  · exact ⟨_, rfl⟩
  · have hrs : ∀ r ∈ d.peer_values, r < d.heap.length := by
      intro r hr
      obtain ⟨⟨k, r'⟩, hmem, rfl⟩ := List.mem_map.mp hr
      obtain ⟨p, hfiled⟩ := h.peers (AList.mem_lookup_iff.mpr hmem)
      exact (List.getElem?_eq_some_iff.mp hfiled.heap).1
    obtain ⟨x, hx⟩ := set_static_private_returns (B := B) hrs private_key
      (RateLimiter.new C (C.x25519_public private_key) HANDSHAKE_RATE_LIMIT now env) env
    exact ⟨_, Outcome.bind_eq_ok.mpr ⟨x, hx, rfl⟩⟩

/-- **When `update_peer` returns.** -/
theorem update_peer_returns_iff {config : PeerConfig} (hips : config.Valid) (pub_key : PublicKey)
    (new : NewEnv) : (∃ d', d.update_peer pub_key config new = .ok d') ↔
      d.outline.Allows (.update_peer pub_key config new) := by
  unfold update_peer Outline.Allows outline
  dsimp only
  by_cases hremove : config.remove = true
  · simp [hremove]
  rw [if_neg hremove]
  by_cases hnew : (d.peers.lookup pub_key.bytes).isSome = true
  · simp [hremove, hnew]
  rw [if_neg hnew]
  cases hnext : d.next_index.next with
  | panic msg => simp [hremove]
  | ok x =>
    cases hkeys : d.key_pair with
    | none => simp [hremove]
    | some keys =>
      obtain ⟨p_ips, hp_ips⟩ := AllowedIps.insert_all_returns AllowedIps.new () hips
      obtain ⟨by_ip, hby_ip⟩ :=
        AllowedIps.insert_all_returns d.peers_by_ip d.heap.length hips
      have hpeer := Peer.new_returns (new_tunnel (C := C) keys.1 pub_key config x.1 new) x.1
        config.endpoint config.preshared_key hp_ips
      simp [hremove, hnew, hpeer, hby_ip]

/-- One operation returns if it is allowed. -/
theorem step_returns_iff (h : d.Tables) {op : DeviceOp} (hop : op.Configures) :
    (∃ x, d.step B op = .ok x) ↔ d.outline.Allows op := by
  cases op with
  | set_key private_key now env =>
    obtain ⟨x, hx⟩ := set_key_returns (B := B) h private_key now env
    exact ⟨fun _ => trivial, fun _ => ⟨_, Outcome.bind_eq_ok.mpr ⟨x, hx, rfl⟩⟩⟩
  | update_peer pub_key config new =>
    rw [← update_peer_returns_iff hop]
    constructor
    · rintro ⟨x, hx⟩
      obtain ⟨d', hd', _⟩ := Outcome.bind_eq_ok.mp hx
      exact ⟨d', hd'⟩
    · rintro ⟨d', hd'⟩
      exact ⟨_, Outcome.bind_eq_ok.mpr ⟨d', hd', rfl⟩⟩
  | clear_peers => exact ⟨fun _ => trivial, fun _ => ⟨_, rfl⟩⟩
  | open_listen_socket port bound => exact ⟨fun _ => trivial, fun _ => ⟨_, rfl⟩⟩
  | set_fwmark mark => exact ⟨fun _ => trivial, fun _ => ⟨_, rfl⟩⟩
  | _ => cases hop

theorem SameTables.outline (h : SameTables d d') : d'.outline = d.outline := by
  unfold Device.outline
  rw [h.key_pair, h.peers, h.next_index]

theorem remove_peer_outline (h : d.Tables) (pub_key : PublicKey) :
    (d.remove_peer pub_key).outline =
      { d.outline with
        configured := Function.update d.outline.configured pub_key.bytes false } := by
  unfold remove_peer
  cases hlookup : d.peers.lookup pub_key.bytes with
  | none =>
    have hnone : d.outline.configured pub_key.bytes = false := by
      simp [Device.outline, hlookup]
    rw [← hnone, Function.update_eq_self]
  | some r =>
    obtain ⟨p, hfiled⟩ := h.peers hlookup
    simp only [hfiled.heap, Device.outline, put]
    congr 1
    funext k
    by_cases hk : k = pub_key.bytes
    · subst hk
      simp
    · rw [Function.update_of_ne hk, AList.lookup_erase_ne hk]

/-- One operation changes the outline as said. -/
theorem step_outline (h : d.Tables) {op : DeviceOp} (hop : op.Configures)
    (hstep : d.step B op = .ok (d', calls, outputs)) : d'.outline = d.outline.after op := by
  cases op with
  | set_key private_key now env =>
    obtain ⟨⟨d₁, calls₁⟩, hset, heq⟩ := Outcome.bind_eq_ok.mp hstep
    cases heq
    cases set_key_changes hset with
    | same_key hsame =>
      have hkeyed : d.key_pair.isSome = true := by
        rw [← Option.isSome_map (f := Prod.snd), ← hsame]
        rfl
      show Outline.mk _ _ _ = Outline.mk _ _ _
      rw [hkeyed]
      rfl
    | set_key _ hloop =>
      have hsame := (set_static_private_rekeys hloop).tables
      show Outline.mk _ _ _ = Outline.mk _ _ _
      rw [hsame.peers, hsame.next_index]
      rfl
    | unknown hremoves _ => rcases hremoves with h | ⟨_, _, h, _⟩ <;> cases h
    | remove hremoves _ _ => rcases hremoves with h | ⟨_, _, h, _⟩ <;> cases h
  | update_peer pub_key config new =>
    obtain ⟨d₁, hupdate, heq⟩ := Outcome.bind_eq_ok.mp hstep
    cases heq
    cases hremove : config.remove with
    | true =>
      rw [update_peer, if_pos hremove] at hupdate
      cases hupdate
      rw [remove_peer_outline h, Outline.after, if_pos hremove]
    | false =>
      obtain ⟨index, generator, keys, p, by_ip, hnew, hnext, hkeys, hpeer, hips, rfl⟩ :=
        update_peer_new hupdate hremove
      rw [Outline.after, if_neg (by simp [hremove])]
      simp only [Device.outline, hnext]
      congr 1
      funext k
      by_cases hk : k = pub_key.bytes
      · subst hk
        simp
      · rw [Function.update_of_ne hk, AList.lookup_insert_ne hk]
  | clear_peers =>
    cases hstep
    rfl
  | open_listen_socket port bound =>
    cases hstep
    exact (open_listen_socket_acts (B := B) port bound).same_tables.outline
  | set_fwmark mark =>
    cases hstep
    rfl
  | _ => cases hop

/-- **A list of operations returns if the device admits it.** -/
theorem exec_returns_iff (h : d.Tables) {ops : List DeviceOp} (hops : ∀ op ∈ ops, op.Configures) :
    (∃ x, d.exec B ops = .ok x) ↔ d.outline.Admits ops := by
  induction ops generalizing d with
  | nil => exact ⟨fun _ => trivial, fun _ => ⟨_, rfl⟩⟩
  | cons op ops ih =>
    have hop := hops op List.mem_cons_self
    have hrest := fun op' hop' => hops op' (List.mem_cons_of_mem _ hop')
    constructor
    · rintro ⟨x, hx⟩
      obtain ⟨⟨d₁, calls, outputs⟩, hstep, hx⟩ := Outcome.bind_eq_ok.mp hx
      obtain ⟨y, hy, _⟩ := Outcome.bind_eq_ok.mp hx
      have h₁ : d₁.Tables := h.step hstep
      refine ⟨(step_returns_iff h hop).mp ⟨_, hstep⟩, ?_⟩
      rw [← step_outline h hop hstep]
      exact (ih h₁ hrest).mp ⟨y, hy⟩
    · rintro ⟨hallows, hadmits⟩
      obtain ⟨⟨d₁, calls, outputs⟩, hstep⟩ := (step_returns_iff (B := B) h hop).mpr hallows
      have h₁ : d₁.Tables := h.step hstep
      rw [← step_outline h hop hstep] at hadmits
      obtain ⟨y, hy⟩ := (ih h₁ hrest).mpr hadmits
      exact ⟨_, Outcome.bind_eq_ok.mpr ⟨_, hstep, Outcome.bind_eq_ok.mpr ⟨y, hy, rfl⟩⟩⟩

/-! ## Section 4: Commands that return -/

/-- A parsed allowed address has a network. -/
theorem from_str_network {P : Parsers} {s : String} {ip : AllowedIP}
    (h : AllowedIP.from_str P s = .ok ip) : ip.network.isSome = true := by
  have hcidr : ∀ {cidr : Nat}, cidr ≤ 128 → (UInt8.ofNat cidr).toNat = cidr := by
    intro cidr hle
    rw [UInt8.toNat_ofNat']
    omega
  unfold AllowedIP.from_str at h
  repeat' split at h
  all_goals cases h
  · rename_i hle
    simp [AllowedIP.network, IpNetwork.new_truncate, Network.new_truncate,
      hcidr (hle.trans (by decide)), hle]
  · rename_i hle
    simp [AllowedIP.network, IpNetwork.new_truncate, Network.new_truncate, hcidr hle, hle]

theorem set_peer_line_valid {P : Parsers} {config config' : PeerConfig} {key val : String}
    (h : set_peer_line P config key val = .ok (.ok config')) (hvalid : config.Valid) :
    config'.Valid := by
  unfold set_peer_line at h
  split at h
  · split at h <;> cases h
    exact hvalid
  · obtain ⟨res, _, h⟩ := Outcome.bind_eq_ok.mp h
    split at h <;> cases h
    exact hvalid
  · split at h <;> cases h
    exact hvalid
  · split at h <;> cases h
    exact hvalid
  · split at h <;> cases h
    exact hvalid
  · split at h
    · rename_i ip hip
      cases h
      intro ip' hip'
      rcases List.mem_append.mp hip' with hip' | hip'
      · exact hvalid ip' hip'
      · cases List.mem_singleton.mp hip'
        exact from_str_network hip
    · cases h
  · split at h <;> cases h
    exact hvalid
  · cases h

/-- Reading a key text in a line panics if the text does. -/
theorem read_key_panics_iff {α : Type} (val : String) (f : KeyBytes → α) :
    (∃ msg, (do
      match ← (KeyBytes.from_str val).run with
      | .ok key_bytes => .ok (.ok (f key_bytes))
      | .error _ => .ok (.error EINVAL) : Outcome (Except Nat α)) = .panic msg) ↔
    KeyBytes.CutsCharacter val := by
  rw [← KeyBytes.from_str_panics_iff]
  refine Outcome.bind_panics_iff fun res => ?_
  cases res with
  | ok key_bytes => exact ⟨_, rfl⟩
  | error e => exact ⟨_, rfl⟩

theorem set_peer_line_panics_iff (P : Parsers) (config : PeerConfig) (key val : String) :
    (∃ msg, set_peer_line P config key val = .panic msg) ↔
      ∃ text ∈ peer_line_texts key val, KeyBytes.CutsCharacter text := by
  unfold set_peer_line
  split
  · split <;> simp [peer_line_texts]
  · refine (read_key_panics_iff val _).trans ?_
    simp [peer_line_texts]
  · split <;> simp [peer_line_texts]
  · split <;> simp [peer_line_texts]
  · split <;> simp [peer_line_texts]
  · split <;> simp [peer_line_texts]
  · split <;> simp [peer_line_texts]
  · rename_i hpreshared _ _ _ _ _
    rw [peer_line_texts, if_neg hpreshared]
    simp

theorem set_line_panics_iff (key val : String) : (∃ msg, set_line key val = .panic msg) ↔
    ∃ text ∈ set_line_texts key val, KeyBytes.CutsCharacter text := by
  unfold set_line
  split
  · refine (read_key_panics_iff val _).trans ?_
    simp [set_line_texts]
  · split <;> simp [set_line_texts]
  · split <;> simp [set_line_texts]
  · split <;> simp [set_line_texts]
  · refine (read_key_panics_iff val _).trans ?_
    simp [set_line_texts]
  · rename_i hprivate _ _ _ hpublic
    rw [set_line_texts, if_neg (not_or.mpr ⟨hprivate, hpublic⟩)]
    simp

end Device

/-- A script ends in a panic if one of its texts cuts a character, and its operations are those of
    the configuration interface. -/
structure Script.Proper (s : Script) : Prop where
  texts : (∃ msg, s.ends = .panic msg) ↔ ∃ text ∈ s.texts, KeyBytes.CutsCharacter text
  ops : ∀ op ∈ s.ops, op.Configures

namespace Script.Proper

theorem stop (status : Nat) : (Script.stop status).Proper :=
  ⟨by simp [Script.stop], by simp [Script.stop]⟩

theorem op {o : DeviceOp} {s : Script} (ho : o.Configures) (h : s.Proper) :
    (Script.op o s).Proper := by
  refine ⟨h.texts, fun o' ho' => ?_⟩
  rcases List.mem_cons.mp ho' with rfl | ho'
  · exact ho
  · exact h.ops o' ho'

theorem reads {α : Type} {texts : List String} {x : Outcome α} {next : α → Script}
    (hx : (∃ msg, x = .panic msg) ↔ ∃ text ∈ texts, KeyBytes.CutsCharacter text)
    (h : ∀ a, x = .ok a → (next a).Proper) : (Script.reads texts x next).Proper := by
  cases x with
  | panic msg => exact ⟨⟨fun _ => hx.mp ⟨msg, rfl⟩, fun _ => ⟨msg, rfl⟩⟩, by simp [Script.reads]⟩
  | ok a =>
    have hnone : ¬ ∃ text ∈ texts, KeyBytes.CutsCharacter text := by
      rw [← hx]
      simp
    refine ⟨?_, (h a rfl).ops⟩
    show (∃ msg, (next a).ends = .panic msg) ↔ ∃ text ∈ texts ++ (next a).texts, _
    rw [(h a rfl).texts]
    constructor
    · rintro ⟨text, htext, hcut⟩
      exact ⟨text, List.mem_append_right _ htext, hcut⟩
    · rintro ⟨text, htext, hcut⟩
      rcases List.mem_append.mp htext with htext | htext
      · exact absurd ⟨text, htext, hcut⟩ hnone
      · exact ⟨text, htext, hcut⟩

end Script.Proper

namespace Device

variable {C : Crypto} {B : Build} {d : Device C}

theorem peer_script_proper (P : Parsers) (world : Nat → ApiEnv) (public_key : PublicKey)
    {config : PeerConfig} (hvalid : config.Valid) (n : Nat) (reader : Reader) :
    (peer_script P world public_key config n reader).Proper := by
  induction reader generalizing public_key config n with
  | nil => exact .op hvalid (.stop 0)
  | cons read reader ih =>
    cases read with
    | none => exact .stop 0
    | some line =>
      rw [peer_script]
      by_cases hempty : Str.pop line = ""
      · rw [if_pos hempty]
        exact .op hvalid (.stop 0)
      rw [if_neg hempty]
      rcases Str.splitn_two '=' (Str.pop line) with _ | ⟨key, _ | ⟨val, _ | ⟨_, _⟩⟩⟩
      · exact .stop _
      · exact .stop _
      · dsimp only
        by_cases hkey : key = "public_key"
        · rw [if_pos hkey]
          have hempty : PeerConfig.Valid { config with allowed_ips := [] } := by
            intro ip hip
            cases hip
          refine .op hvalid (.reads ?_ fun res _ => ?_)
          · rw [KeyBytes.from_str_panics_iff]
            simp
          · cases res with
            | ok key_bytes => exact ih _ hempty _
            | error e => exact .stop _
        · rw [if_neg hkey]
          refine .reads (set_peer_line_panics_iff P config key val) fun res hres => ?_
          cases res with
          | ok config' => exact ih _ (set_peer_line_valid hres hvalid) _
          | error status => exact .stop _
      · exact .stop _

theorem script_proper (P : Parsers) (world : Nat → ApiEnv) (n : Nat) (reader : Reader) :
    (script P world n reader).Proper := by
  induction reader generalizing n with
  | nil => exact .stop 0
  | cons read reader ih =>
    cases read with
    | none => exact .stop 0
    | some line =>
      rw [script]
      by_cases hempty : Str.pop line = ""
      · rw [if_pos hempty]
        exact .stop 0
      rw [if_neg hempty]
      rcases Str.split '=' (Str.pop line) with _ | ⟨key, _ | ⟨val, _ | ⟨_, _⟩⟩⟩
      · exact .stop _
      · exact .stop _
      · refine .reads (set_line_panics_iff key val) fun res _ => ?_
        cases res with
        | error status => exact .stop _
        | ok l =>
          cases l with
          | private_key key_bytes => exact .op trivial (ih _)
          | listen_port port =>
            refine .op trivial ?_
            cases (world n).bound port with
            | some assigned => exact ih _
            | none => exact .stop _
          | fwmark mark =>
            refine .op trivial ?_
            cases (world n).marked mark with
            | true => exact ih _
            | false => exact .stop _
          | replace_peers replace =>
            cases replace with
            | true => exact .op trivial (ih _)
            | false => exact ih _
          | public_key key_bytes =>
            refine peer_script_proper P world _ ?_ _ _
            intro ip hip
            cases hip
      · exact .stop _

/-- A script returns if its operations are admitted and none of its texts cuts a character. -/
theorem run_script_returns_iff (h : d.Tables) {s : Script} (hs : s.Proper) :
    (∃ x, d.run_script B s = .ok x) ↔
      (∀ text ∈ s.texts, ¬ KeyBytes.CutsCharacter text) ∧ d.outline.Admits s.ops := by
  have hends : (∃ status, s.ends = .ok status) ↔
      ∀ text ∈ s.texts, ¬ KeyBytes.CutsCharacter text := by
    have htexts := hs.texts
    constructor
    · rintro ⟨status, hstatus⟩ text htext hcut
      obtain ⟨msg, hmsg⟩ := htexts.mpr ⟨text, htext, hcut⟩
      rw [hstatus] at hmsg
      cases hmsg
    · intro hnone
      cases hend : s.ends with
      | ok status => exact ⟨status, rfl⟩
      | panic msg =>
        obtain ⟨text, htext, hcut⟩ := htexts.mp ⟨msg, hend⟩
        exact absurd hcut (hnone text htext)
  rw [← hends, ← exec_returns_iff (B := B) h hs.ops]
  constructor
  · rintro ⟨x, hx⟩
    obtain ⟨y, hy, hx⟩ := Outcome.bind_eq_ok.mp hx
    obtain ⟨status, hstatus, _⟩ := Outcome.bind_eq_ok.mp hx
    exact ⟨⟨status, hstatus⟩, y, hy⟩
  · rintro ⟨⟨status, hstatus⟩, y, hy⟩
    exact ⟨_, Outcome.bind_eq_ok.mpr ⟨y, hy, Outcome.bind_eq_ok.mpr ⟨status, hstatus, rfl⟩⟩⟩

/-- No text is an address. -/
def noAddresses : Parsers := ⟨fun _ => none, fun _ => none⟩

/-- The same answers for every line. -/
def symbolicWorld (_ : Nat) : ApiEnv := ⟨symbolicNew, 0, symbolicEnv 0, some, fun _ => true⟩

/-- A stream of lines. -/
def streamOf (texts : List String) : Bytes := texts.flatMap fun s => Str.bytes (s ++ "\n")

/-- The hexadecimal text of a key whose bytes are all the same. -/
def hexText (c : Char) : String := String.ofList (List.replicate 64 c)

theorem hexText_plain {c : Char} (h : '=' ≠ c) : '=' ∉ (hexText c).toList := by
  simp [hexText, h]

theorem hexText_one : (KeyBytes.from_str (hexText '1')).run =
    .ok (.ok ⟨List.replicate 32 17, by simp⟩) := by
  decide

theorem hexText_two : (KeyBytes.from_str (hexText '2')).run =
    .ok (.ok ⟨List.replicate 32 34, by simp⟩) := by
  decide

/-- The private key is set, then there is one section. -/
def addingLines : List String :=
  ["private_key" ++ "=" ++ hexText '1', "public_key" ++ "=" ++ hexText '2']

theorem newline_addingLines : ∀ s ∈ addingLines, 10 ∉ Str.bytes s := by
  decide

theorem script_addingLines (more : Reader) :
    script noAddresses symbolicWorld 0 (addingLines.map (fun s => some (s ++ "\n")) ++ more) =
      .reads [hexText '1'] (.ok ()) fun _ => .op (.set_key (List.replicate 32 17) 0 (symbolicEnv 0))
        (.reads [hexText '2'] (.ok ()) fun _ =>
          peer_script noAddresses symbolicWorld (symbolicKey 34) .start 2 more) := by
  show script noAddresses symbolicWorld 0 (some ("private_key" ++ "=" ++ hexText '1' ++ "\n") ::
    some ("public_key" ++ "=" ++ hexText '2' ++ "\n") :: more) = _
  rw [script_private_key hexText_one (hexText_plain (by decide)),
    script_public_key hexText_two (hexText_plain (by decide))]
  rfl

end Device

end PqBoringtun
