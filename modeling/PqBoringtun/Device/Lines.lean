import PqBoringtun.Device.Sections

/-! # The set command line by line

    `api_set` hands a stream over to `api_set_peer` at the first section.
    Where they stand in front of a line is a `SetState`, and a line ends the
    command with a status or leads to the next state.

    * Section 1: what a line does (`SetState.line`).
    * Section 2: the loops do one line after the other
      (`SetState.resume_append`).
    * Section 3: the tables of the device stay in order.
-/

namespace PqBoringtun

namespace Device

variable {C : Crypto} {B : Build} {P : Parsers} {d d' : Device C} {config config' : PeerConfig}

/-! ## Section 1: Lines -/

/-- Where the loops of the set command stand, in front of a line. -/
inductive SetState (C : Crypto) where
  /-- In `api_set` -/
  | command (d : Device C)
  /-- In `api_set_peer` -/
  | peer (d : Device C) (public_key : PublicKey) (config : PeerConfig)

/-- A key is read, and `f` is made of it. -/
def keyed {α : Type} (f : KeyBytes → α) (val : String) : Outcome (Except Nat α) := do
  match ← (KeyBytes.from_str val).run with
  | .ok key_bytes => .ok (.ok (f key_bytes))
  | .error _ => .ok (.error EINVAL)

/-- How a key is read. -/
def read_key (val : String) : Outcome (Except Nat KeyBytes) := keyed id val

/-- How `api_set` reads a line. -/
def read_set (cmd : String) : Outcome (Except Nat SetLine) :=
  match Str.split '=' cmd with
  | [key, val] => set_line key val
  | _ => .ok (.error EPROTO)

/-- A line inside of a section: it starts the next section, or it changes the settings. -/
inductive PeerLine where
  | next (val : String)
  | setting (config : PeerConfig)

/-- How `api_set_peer` reads a line. -/
def read_peer (P : Parsers) (config : PeerConfig) (cmd : String) : Outcome (Except Nat PeerLine) :=
  match Str.splitn_two '=' cmd with
  | [key, val] =>
    if key = "public_key" then .ok (.ok (.next val))
    else do
      match ← set_peer_line P config key val with
      | .ok config => .ok (.ok (.setting config))
      | .error status => .ok (.error status)
  | _ => .ok (.error EPROTO)

/-- A line ends the command with a status, or the loops go on. -/
abbrev Verdict (C : Crypto) : Type := Except (Nat × Device C) (SetState C)

/-- A line that is read is carried out, one that is not ends the command. -/
def carryOut {α : Type} (d : Device C) (act : α → Outcome (Verdict C))
    (reading : Outcome (Except Nat α)) : Outcome (Verdict C) := do
  match ← reading with
  | .ok a => act a
  | .error status => .ok (.error (status, d))

/-- What `api_set` does with a line. -/
def SetLine.act (B : Build) (w : ApiEnv) (d : Device C) : SetLine → Outcome (Verdict C)
  | .private_key key_bytes => do
    let (d, _) ← d.set_key B key_bytes.bytes w.limiter_now w.env
    return .ok (.command d)
  | .listen_port port =>
    let d := d.open_listen_socket port (w.bound port)
    if (w.bound port).isSome then .ok (.ok (.command d)) else .ok (.error (EADDRINUSE, d))
  | .fwmark mark =>
    let d := d.set_fwmark mark
    if w.marked mark then .ok (.ok (.command d)) else .ok (.error (EADDRINUSE, d))
  | .replace_peers true => .ok (.ok (.command d.clear_peers))
  | .replace_peers false => .ok (.ok (.command d))
  | .public_key key_bytes => .ok (.ok (.peer d key_bytes.public_key .start))

/-- What `api_set_peer` does with a line. -/
def PeerLine.act (w : ApiEnv) (d : Device C) (public_key : PublicKey) (config : PeerConfig) :
    PeerLine → Outcome (Verdict C)
  | .setting config => .ok (.ok (.peer d public_key config))
  | .next val => do
    let d ← d.update_peer public_key config w.new
    carryOut d (fun key_bytes => .ok (.ok (.peer d key_bytes.public_key
      { config with allowed_ips := [] })))
      (read_key val)

namespace SetState

variable (B : Build) (P : Parsers) (world : Nat → ApiEnv)

def device : SetState C → Device C
  | .command d => d
  | .peer d _ _ => d

/-- The end of file, or an empty line. -/
def finish (w : ApiEnv) : SetState C → Outcome (Nat × Device C)
  | .command d => .ok (0, d)
  | .peer d public_key config => do
    let d ← d.update_peer public_key config w.new
    return (0, d)

/-- One line, without its last character. -/
def line (w : ApiEnv) (cmd : String) (s : SetState C) : Outcome (Verdict C) :=
  if cmd = "" then do
    let result ← s.finish w
    return .error result
  else
    match s with
    | .command d => carryOut d (SetLine.act B w d) (read_set cmd)
    | .peer d public_key config =>
      carryOut d (PeerLine.act w d public_key config) (read_peer P config cmd)

/-- The rest of the command, from line `n` on. -/
def resume (n : Nat) (reader : Reader) : SetState C → Outcome (Nat × Device C)
  | .command d => d.api_set B P world n reader
  | .peer d public_key config => d.api_set_peer P world public_key config n reader

/-- The lines in front of the rest of the command. -/
def after : Nat → Reader → SetState C → Outcome (Verdict C)
  | _, [], s => .ok (.ok s)
  | _, none :: _, s => .ok (.error (0, s.device))
  | n, some l :: reader, s => do
    match ← s.line B P (world n) (Str.pop l) with
    | .ok s => s.after (n + 1) reader
    | .error result => .ok (.error result)

/-! ## Section 2: One line after the other -/

variable {B P world} {s : SetState C} {n : Nat}

theorem resume_nil : s.resume B P world n [] = s.finish (world n) := by
  cases s with
  | command d => rfl
  | peer d public_key config => rfl

theorem resume_none (reader : Reader) : s.resume B P world n (none :: reader) =
    .ok (0, s.device) := by
  cases s with
  | command d => rfl
  | peer d public_key config => rfl

/-- The loops do one line after the other. -/
theorem resume_some (l : String) (reader : Reader) :
    s.resume B P world n (some l :: reader) = (do
      match ← s.line B P (world n) (Str.pop l) with
      | .ok s => s.resume B P world (n + 1) reader
      | .error result => .ok result) := by
  by_cases hempty : Str.pop l = ""
  · rw [line.eq_def, if_pos hempty]
    cases s with
    | command d =>
      rw [resume, api_set, hempty]
      rfl
    | peer d public_key config =>
      rw [resume, api_set_peer, hempty]
      show (d.update_peer public_key config (world n).new >>= _) = _
      cases hupdate : d.update_peer public_key config (world n).new with
      | ok d' =>
        simp only [finish, hupdate]
        rfl
      | panic msg =>
        simp only [finish, hupdate]
        rfl
  · rw [line.eq_def, if_neg hempty]
    cases s with
    | command d =>
      rw [resume, api_set]
      dsimp only
      rw [if_neg hempty, read_set]
      rcases Str.split '=' (Str.pop l) with _ | ⟨key, _ | ⟨val, _ | ⟨_, _⟩⟩⟩
      · rfl
      · rfl
      · dsimp only
        cases set_line key val with
        | panic msg => rfl
        | ok res =>
          cases res with
          | error status => rfl
          | ok l =>
            cases l with
            | private_key key_bytes =>
              dsimp only [Outcome.ok_bind, carryOut, SetLine.act]
              cases d.set_key B key_bytes.bytes (world n).limiter_now (world n).env with
              | ok x => rfl
              | panic msg => rfl
            | listen_port port =>
              dsimp only [Outcome.ok_bind, carryOut, SetLine.act]
              cases (world n).bound port with
              | some assigned => rfl
              | none => rfl
            | fwmark mark =>
              dsimp only [Outcome.ok_bind, carryOut, SetLine.act]
              cases (world n).marked mark with
              | true => rfl
              | false => rfl
            | replace_peers replace =>
              cases replace with
              | true => rfl
              | false => rfl
            | public_key key_bytes => rfl
      · rfl
    | peer d public_key config =>
      rw [resume, api_set_peer]
      dsimp only
      rw [if_neg hempty, read_peer]
      rcases Str.splitn_two '=' (Str.pop l) with _ | ⟨key, _ | ⟨val, _ | ⟨_, _⟩⟩⟩
      · rfl
      · rfl
      · dsimp only
        by_cases hkey : key = "public_key"
        · rw [if_pos hkey, if_pos hkey]
          dsimp only [Outcome.ok_bind, carryOut, PeerLine.act]
          cases d.update_peer public_key config (world n).new with
          | panic msg => rfl
          | ok d' =>
            dsimp only [Outcome.ok_bind, read_key, keyed]
            rcases (KeyBytes.from_str val).run with (e | key_bytes) | msg
            · rfl
            · rfl
            · rfl
        · rw [if_neg hkey, if_neg hkey]
          rcases set_peer_line P config key val with (status | config') | msg
          · rfl
          · rfl
          · rfl
      · rfl

/-- **The loops after some lines** go on from where these lines lead. -/
theorem resume_append (front rest : Reader) :
    s.resume B P world n (front ++ rest) = (do
      match ← s.after B P world n front with
      | .ok s => s.resume B P world (n + front.length) rest
      | .error result => .ok result) := by
  induction front generalizing s n with
  | nil => rfl
  | cons read front ih =>
    cases read with
    | none => exact resume_none _
    | some l =>
      rw [List.cons_append, resume_some, after]
      rcases s.line B P (world n) (Str.pop l) with (result | s') | msg
      · rfl
      · show s'.resume B P world (n + 1) (front ++ rest) = _
        rw [ih, List.length_cons, Nat.add_assoc, Nat.add_comm 1]
        rfl
      · rfl

/-! ## Section 3: Tables -/

/-- The tables of the device are in order, and every allowed address has a network. -/
def Sound : SetState C → Prop
  | .command d => d.Tables
  | .peer d _ config => d.Tables ∧ config.Valid

end SetState

theorem carryOut_eq_ok {α : Type} {act : α → Outcome (Verdict C)}
    {reading : Outcome (Except Nat α)} {s : SetState C}
    (h : carryOut d act reading = .ok (.ok s)) :
    ∃ a, reading = .ok (.ok a) ∧ act a = .ok (.ok s) := by
  rcases reading with (status | a) | msg
  · cases h
  · exact ⟨a, rfl, h⟩
  · cases h

theorem read_peer_valid {cmd : String} (hvalid : config.Valid)
    (h : read_peer P config cmd = .ok (.ok (.setting config'))) : config'.Valid := by
  unfold read_peer at h
  split at h
  · split at h
    · cases h
    · obtain ⟨res, hres, h⟩ := Outcome.bind_eq_ok.mp h
      cases res with
      | error status => cases h
      | ok config₁ =>
        cases h
        exact set_peer_line_valid hres hvalid
  · cases h

theorem SetLine.act_sound {w : ApiEnv} {l : SetLine} {s : SetState C} (h : d.Tables)
    (hact : l.act B w d = .ok (.ok s)) : s.Sound := by
  have hstep : ∀ (op : DeviceOp) {d' : Device C} {calls : List Call} {outputs : List Output},
      d.step B op = .ok (d', calls, outputs) → d'.Tables := fun _ _ _ _ hstep => h.step hstep
  cases l with
  | private_key key_bytes =>
    obtain ⟨⟨d₁, calls⟩, hset, hact⟩ := Outcome.bind_eq_ok.mp hact
    cases hact
    exact hstep (.set_key key_bytes.bytes w.limiter_now w.env)
      (Outcome.bind_eq_ok.mpr ⟨(d₁, calls), hset, rfl⟩)
  | listen_port port =>
    unfold act at hact
    dsimp only at hact
    split at hact <;> cases hact
    exact hstep (.open_listen_socket port (w.bound port)) rfl
  | fwmark mark =>
    unfold act at hact
    dsimp only at hact
    split at hact <;> cases hact
    exact hstep (.set_fwmark mark) rfl
  | replace_peers replace =>
    cases replace with
    | true =>
      cases hact
      exact hstep (.clear_peers) rfl
    | false =>
      cases hact
      exact h
  | public_key key_bytes =>
    cases hact
    exact ⟨h, by simp [PeerConfig.Valid, PeerConfig.start]⟩

namespace SetState

variable {world : Nat → ApiEnv} {s s' : SetState C} {n : Nat}

/-- One line keeps the tables in order. -/
theorem Sound.line {w : ApiEnv} {cmd : String} (h : s.Sound)
    (hline : s.line B P w cmd = .ok (.ok s')) : s'.Sound := by
  rw [line.eq_def] at hline
  split at hline
  · obtain ⟨result, _, hline⟩ := Outcome.bind_eq_ok.mp hline
    cases hline
  · cases s with
    | command d =>
      obtain ⟨l, _, hact⟩ := carryOut_eq_ok hline
      exact SetLine.act_sound h hact
    | peer d public_key config =>
      obtain ⟨htables, hvalid⟩ := h
      obtain ⟨l, hread, hact⟩ := carryOut_eq_ok hline
      cases l with
      | setting config' =>
        cases hact
        exact ⟨htables, read_peer_valid hvalid hread⟩
      | next val =>
        obtain ⟨d₁, hupdate, hact⟩ := Outcome.bind_eq_ok.mp hact
        obtain ⟨key_bytes, _, hact⟩ := carryOut_eq_ok hact
        cases hact
        refine ⟨htables.update_peer (u := ⟨public_key, config, w.new⟩) hupdate, ?_⟩
        simp [PeerConfig.Valid]

theorem Sound.after {front : Reader} (h : s.Sound)
    (hafter : s.after B P world n front = .ok (.ok s')) : s'.Sound := by
  induction front generalizing s n with
  | nil =>
    cases hafter
    exact h
  | cons read front ih =>
    cases read with
    | none => cases hafter
    | some l =>
      obtain ⟨verdict, hline, hafter⟩ := Outcome.bind_eq_ok.mp hafter
      cases verdict with
      | error result => cases hafter
      | ok s₁ => exact ih (h.line hline) hafter

end SetState

end Device

end PqBoringtun
