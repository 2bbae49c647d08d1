import PqBoringtun.Device.Scripts

/-! # Sections of a set command

    A set command can carry a section for each of several peers.  The
    settings of a section are collected in variables that are not reset when
    the next section begins, all but the allowed addresses; so a section takes
    what it does not set itself from the sections before it
    (`PeerSection.carry`).

    * Section 1: sections, and what is carried from one to the next.
    * Section 2: a command commits one peer after the other.
    * Section 3: the configuration of a device, and what a commit does to it.
    * Section 4: when one command does the same as one command for each
      section (`Device.sections_independent_iff`), and two sections that do
      not.
-/

namespace PqBoringtun

open Device

/-! ## Section 1: Sections -/

/-- The lines are read, one after the other, and lead from one configuration to another. -/
inductive Reads (P : Parsers) : PeerConfig → List (String × String) → PeerConfig → Prop where
  | nil (config : PeerConfig) : Reads P config [] config
  | cons {config config₁ config' : PeerConfig} {key val : String}
      {settings : List (String × String)}
      (hline : set_peer_line P config key val = .ok (.ok config₁))
      (hrest : Reads P config₁ settings config') : Reads P config ((key, val) :: settings) config'

/-- A well-formed section: a public key and settings, all of which are accepted, in lines. -/
structure PeerSection (P : Parsers) where
  /-- The text of the public key -/
  text : String
  key : KeyBytes
  settings : List (String × String)
  /-- The settings on their own -/
  config : PeerConfig
  read_key : (KeyBytes.from_str text).run = .ok (.ok key)
  read_settings : Reads P .start settings config
  text_plain : '=' ∉ text.toList
  key_plain : ∀ x ∈ settings, '=' ∉ x.1.toList ∧ x.1 ≠ "public_key"
  text_line : 10 ∉ Str.bytes ("public_key" ++ "=" ++ text)
  setting_line : ∀ x ∈ settings, 10 ∉ Str.bytes (x.1 ++ "=" ++ x.2)

/-- The settings have a line with this key. -/
def sets (key : String) (settings : List (String × String)) : Bool :=
  settings.any fun x => x.1 = key

/-- What the settings make of a configuration, when they are `own` on their own. -/
def Device.PeerConfig.carry (config own : PeerConfig) (settings : List (String × String)) :
    PeerConfig where
  remove := if sets "remove" settings then own.remove else config.remove
  replace_ips := if sets "replace_allowed_ips" settings then own.replace_ips else config.replace_ips
  endpoint := own.endpoint.or config.endpoint
  allowed_ips := config.allowed_ips ++ own.allowed_ips
  keepalive := own.keepalive.or config.keepalive
  preshared_key := own.preshared_key.or config.preshared_key

/-- What a section makes of the settings it finds. -/
def PeerSection.carry {P : Parsers} (config : PeerConfig) (s : PeerSection P) : PeerConfig :=
  config.carry s.config s.settings

theorem sets_append (key : String) (front : List (String × String)) (k v : String) :
    sets key (front ++ [(k, v)]) = (sets key front || decide (k = key)) := by
  simp [sets]

/-- A line sets one field, to the same value whatever the settings are. -/
theorem set_peer_line_carry {P : Parsers} {own own' : PeerConfig} {key val : String}
    (h : set_peer_line P own key val = .ok (.ok own')) (config : PeerConfig)
    (front : List (String × String)) :
    set_peer_line P (config.carry own front) key val =
      .ok (.ok (config.carry own' (front ++ [(key, val)]))) := by
  unfold set_peer_line at h ⊢
  split at h
  · cases hval : Str.parse_bool val with
    | none => simp [hval] at h
    | some b =>
      simp only [hval, Outcome.ok.injEq, Except.ok.injEq] at h
      subst h
      simp [PeerConfig.carry, sets_append]
  · obtain ⟨res, hres, h⟩ := Outcome.bind_eq_ok.mp h
    rw [hres]
    cases res with
    | error e => cases h
    | ok k =>
      cases h
      simp [PeerConfig.carry, sets_append]
  · cases hval : P.socket_addr val with
    | none => simp [hval] at h
    | some addr =>
      simp only [hval, Outcome.ok.injEq, Except.ok.injEq] at h
      subst h
      simp [PeerConfig.carry, sets_append]
  · cases hval : Str.parse_unsigned 65535 val with
    | none => simp [hval] at h
    | some b =>
      simp only [hval, Outcome.ok.injEq, Except.ok.injEq] at h
      subst h
      simp [PeerConfig.carry, sets_append]
  · cases hval : Str.parse_bool val with
    | none => simp [hval] at h
    | some b =>
      simp only [hval, Outcome.ok.injEq, Except.ok.injEq] at h
      subst h
      simp [PeerConfig.carry, sets_append]
  · cases hval : AllowedIP.from_str P val with
    | error e => simp [hval] at h
    | ok ip =>
      simp only [hval, Outcome.ok.injEq, Except.ok.injEq] at h
      subst h
      simp [PeerConfig.carry, sets_append]
  · split at h
    · cases h
      simp [PeerConfig.carry, sets_append]
    · cases h
  · cases h

theorem Reads.carry {P : Parsers} {own own' : PeerConfig} {settings : List (String × String)}
    (h : Reads P own settings own') (config : PeerConfig) (front : List (String × String)) :
    Reads P (config.carry own front) settings (config.carry own' (front ++ settings)) := by
  induction h generalizing front with
  | nil own =>
    rw [List.append_nil]
    exact .nil _
  | @cons _ _ _ key val _ hline _ ih =>
    refine .cons (set_peer_line_carry hline config front) ?_
    have hrest := ih (front ++ [(key, val)])
    rwa [List.append_assoc] at hrest

theorem Reads.unique {P : Parsers} {config config₁ config₂ : PeerConfig}
    {settings : List (String × String)} (h₁ : Reads P config settings config₁)
    (h₂ : Reads P config settings config₂) : config₁ = config₂ := by
  induction h₁ with
  | nil config =>
    cases h₂
    rfl
  | cons hline _ ih =>
    cases h₂ with
    | cons hline' hrest' =>
      cases hline.symm.trans hline'
      exact ih hrest'

namespace PeerSection

variable {P : Parsers}

theorem carry_start (config : PeerConfig) : config.carry .start [] = config := by
  simp [PeerConfig.carry, PeerConfig.start, sets]

/-- The lines of a section are accepted behind any other. -/
theorem reads (s : PeerSection P) (config : PeerConfig) :
    Reads P config s.settings (s.carry config) := by
  have h := s.read_settings.carry config []
  rwa [carry_start] at h

/-- Nothing is carried to the first section. -/
theorem carry_first (s : PeerSection P) : s.carry .start = s.config :=
  (s.reads .start).unique s.read_settings

/-- A section that is marked for removal stays so. -/
theorem carry_remove {s : PeerSection P} (h : s.config.remove = true) (config : PeerConfig) :
    (s.carry config).remove = true := by
  have hset : sets "remove" s.settings = true := by
    by_contra hunset
    have hfirst := congrArg PeerConfig.remove s.carry_first
    simp [carry, PeerConfig.carry, PeerConfig.start, hunset, h] at hfirst
  simp [carry, PeerConfig.carry, hset, h]

/-- The lines of a section. -/
def lines (s : PeerSection P) : List String :=
  ("public_key" ++ "=" ++ s.text) :: s.settings.map fun x => x.1 ++ "=" ++ x.2

theorem newline_lines (s : PeerSection P) : ∀ l ∈ s.lines, 10 ∉ Str.bytes l := by
  intro l hl
  rcases List.mem_cons.mp hl with rfl | hl
  · exact s.text_line
  · obtain ⟨x, hx, rfl⟩ := List.mem_map.mp hl
    exact s.setting_line x hx

end PeerSection

/-- The stream of a set command with these sections, which ends in an empty line. -/
def sectionsStream {P : Parsers} (sections : List (PeerSection P)) : Bytes :=
  streamOf (sections.flatMap PeerSection.lines ++ [""])

/-- What `read_line` gives for lines. -/
def readerOf (texts : List String) : Reader := texts.map fun s => some (s ++ "\n")

theorem new_sectionsStream {P : Parsers} (sections : List (PeerSection P)) :
    Reader.new (sectionsStream sections) false =
      readerOf (sections.flatMap PeerSection.lines ++ [""]) := by
  refine Reader.new_lines fun l hl => ?_
  rcases List.mem_append.mp hl with hl | hl
  · obtain ⟨s, _, hl⟩ := List.mem_flatMap.mp hl
    exact s.newline_lines l hl
  · cases List.mem_singleton.mp hl
    decide

/-- The settings each section is committed with, when these were collected before. -/
def collected {P : Parsers} (config : PeerConfig) :
    List (PeerSection P) → List (PeerSection P × PeerConfig)
  | [] => []
  | s :: sections =>
    (s, s.carry config) :: collected { s.carry config with allowed_ips := [] } sections

/-! ## Section 2: Commits -/

/-- A peer that is committed, with its settings. -/
structure Update where
  pub_key : PublicKey
  config : PeerConfig
  new : NewEnv

namespace Device

variable {C : Crypto} {B : Build} {P : Parsers} {d d' : Device C}

/-- One commit after the other. -/
def commits (d : Device C) : List Update → Outcome (Device C)
  | [] => .ok d
  | u :: us => do
    let d ← d.update_peer u.pub_key u.config u.new
    d.commits us

/-- The commits of sections whose settings are collected, when line `n` starts the first one.  A
    section is committed by the line behind it. -/
def updatesOf (world : Nat → ApiEnv) (n : Nat) : List (PeerSection P × PeerConfig) → List Update
  | [] => []
  | (s, config) :: rest =>
    ⟨s.key.public_key, config, (world (n + 1 + s.settings.length)).new⟩ ::
      updatesOf world (n + 1 + s.settings.length) rest

/-- The lines with settings, in the middle of a section. -/
theorem run_settings {config config' : PeerConfig} {settings : List (String × String)}
    (h : Reads P config settings config')
    (hplain : ∀ x ∈ settings, '=' ∉ x.1.toList ∧ x.1 ≠ "public_key") (world : Nat → ApiEnv)
    (pub_key : PublicKey) (n : Nat) (more : Reader) :
    d.run_script B (peer_script P world pub_key config n
      (readerOf (settings.map fun x => x.1 ++ "=" ++ x.2) ++ more)) =
    d.run_script B (peer_script P world pub_key config' (n + settings.length) more) := by
  induction h generalizing n with
  | nil config => rfl
  | @cons config config₁ config' key val settings hline _ ih =>
    obtain ⟨hkey, hsetting⟩ := hplain (key, val) List.mem_cons_self
    show d.run_script B (peer_script P world pub_key config n
      (some (key ++ "=" ++ val ++ "\n") :: (readerOf _ ++ more))) = _
    rw [peer_script_setting hkey hsetting hline, run_script_reads, Outcome.ok_bind,
      ih (fun x hx => hplain x (List.mem_cons_of_mem _ hx)), List.length_cons]
    congr 2
    omega

theorem readerOf_sections (s : PeerSection P) (sections : List (PeerSection P)) :
    readerOf ((s :: sections).flatMap PeerSection.lines ++ [""]) =
      some ("public_key" ++ "=" ++ s.text ++ "\n") ::
        (readerOf (s.settings.map fun x => x.1 ++ "=" ++ x.2) ++
          readerOf (sections.flatMap PeerSection.lines ++ [""])) := by
  simp [readerOf, PeerSection.lines]

/-- The rest of a command commits the current section and those behind it. -/
theorem run_sections (world : Nat → ApiEnv) (pub_key : PublicKey) (config : PeerConfig) (n : Nat)
    (sections : List (PeerSection P)) :
    d.run_script B (peer_script P world pub_key config n
      (readerOf (sections.flatMap PeerSection.lines ++ [""]))) =
    d.commits (⟨pub_key, config, (world n).new⟩ ::
      updatesOf world n (collected { config with allowed_ips := [] } sections)) >>=
        fun d => .ok (0, d) := by
  induction sections generalizing d pub_key config n with
  | nil =>
    show d.run_script B (peer_script P world pub_key config n [some ("" ++ "\n")]) = _
    rw [peer_script_done, run_script_update_peer, commits]
    cases d.update_peer pub_key config (world n).new with
    | ok d' => rfl
    | panic msg => rfl
  | cons s sections ih =>
    rw [readerOf_sections, peer_script_public_key s.read_key, run_script_update_peer, commits]
    cases d.update_peer pub_key config (world n).new with
    | panic msg => rfl
    | ok d' =>
      simp only [Outcome.ok_bind, run_script_reads]
      rw [run_settings (s.reads _) s.key_plain, ih]
      rfl

/-- **A command with sections commits them one after the other**, each with what is collected up to
    its end. -/
theorem api_set_sections (world : Nat → ApiEnv) (sections : List (PeerSection P)) :
    d.api_set B P world 0 (.new (sectionsStream sections) false) =
      d.commits (updatesOf world 0 (collected .start sections)) >>= fun d => .ok (0, d) := by
  rw [api_set_eq, new_sectionsStream]
  cases sections with
  | nil =>
    show d.run_script B (script P world 0 [some ("" ++ "\n")]) = _
    rw [script, Str.pop_newline, if_pos rfl]
    rfl
  | cons s sections =>
    rw [readerOf_sections, script_public_key s.read_key s.text_plain, run_script_reads,
      Outcome.ok_bind, run_settings s.read_settings s.key_plain, run_sections, collected,
      s.carry_first, updatesOf]

/-- One command for each section, with the statuses; every command has its own environment. -/
def api_sets (B : Build) (worlds : Nat → Nat → ApiEnv) (d : Device C) (m : Nat) :
    List (PeerSection P) → Outcome (List Nat × Device C)
  | [] => .ok ([], d)
  | s :: sections => do
    let (status, d) ← d.api_set B P (worlds m) 0 (.new (sectionsStream [s]) false)
    let (statuses, d) ← d.api_sets B worlds (m + 1) sections
    return (status :: statuses, d)

/-- The commits of sections on their own. -/
def ownUpdates (worlds : Nat → Nat → ApiEnv) (m : Nat) : List (PeerSection P) → List Update
  | [] => []
  | s :: sections =>
    ⟨s.key.public_key, s.config, (worlds m (1 + s.settings.length)).new⟩ ::
      ownUpdates worlds (m + 1) sections

/-- **Commands with one section each** commit what the sections say on their own. -/
theorem api_sets_eq (worlds : Nat → Nat → ApiEnv) (m : Nat) (sections : List (PeerSection P)) :
    d.api_sets B worlds m sections = d.commits (ownUpdates worlds m sections) >>=
      fun d => .ok (List.replicate sections.length 0, d) := by
  induction sections generalizing d m with
  | nil => rfl
  | cons s sections ih =>
    rw [api_sets, api_set_sections, ownUpdates]
    show ((d.update_peer s.key.public_key (s.carry .start)
      (worlds m (0 + 1 + s.settings.length)).new
      >>= fun d => .ok d) >>= fun d => .ok (0, d)) >>= _ = _
    rw [s.carry_first, Nat.zero_add, commits]
    cases d.update_peer s.key.public_key s.config (worlds m (1 + s.settings.length)).new with
    | panic msg => rfl
    | ok d₁ =>
      simp only [Outcome.ok_bind, ih]
      cases d₁.commits (ownUpdates worlds (m + 1) sections) with
      | panic msg => rfl
      | ok d₂ => rfl

/-! ## Section 3: The configuration of a device -/

/-- What is configured for a peer. -/
structure PeerSettings where
  endpoint : Option SocketAddr
  preshared_key : Option Bytes
  /-- The one the tunnel uses -/
  tunnel_preshared_key : Option Bytes
  persistent_keepalive : Nat
  allowed_ips : AllowedIps Unit

end Device

def Peer.settings {C : Crypto} (p : Peer C) : Device.PeerSettings where
  endpoint := p.endpoint.addr
  preshared_key := p.preshared_key
  tunnel_preshared_key := p.tunnel.handshake.params.preshared_key
  persistent_keepalive := p.tunnel.timers.persistent_keepalive
  allowed_ips := p.allowed_ips

/-- The settings of a peer, and its public key. -/
def Peer.profile {C : Crypto} (p : Peer C) : Device.PeerSettings × Bytes :=
  (p.settings, p.tunnel.handshake.params.peer_static_public)

namespace Device

variable {C : Crypto} {B : Build} {P : Parsers} {d d₁ d' d₁' : Device C}

/-- What is configured under a public key. -/
def settings (d : Device C) (k : Bytes) : Option PeerSettings :=
  (d.peers.lookup k).bind fun r => d.heap[r]?.map Peer.settings

/-- The public key of the peer that has a network. -/
def route (d : Device C) (n : IpNetwork) : Option Bytes :=
  (d.peers_by_ip.lookup n).bind fun r =>
    d.heap[r]?.map fun p => p.tunnel.handshake.params.peer_static_public

/-- The same peers, with the same settings, up to their indices. -/
structure SameConfig (d d' : Device C) : Prop where
  key_pair : d.key_pair = d'.key_pair
  peers : ∀ k, d.settings k = d'.settings k
  routes : ∀ n, d.route n = d'.route n

section remove
variable {pub_key : PublicKey} {r : PeerRef} {p : Peer C}

theorem remove_peer_of_unknown (hlookup : d.peers.lookup pub_key.bytes = none) :
    d.remove_peer pub_key = d := by
  unfold remove_peer
  rw [hlookup]

theorem remove_peer_of_dangling (hlookup : d.peers.lookup pub_key.bytes = some r)
    (hp : d.heap[r]? = none) : d.remove_peer pub_key = d := by
  unfold remove_peer
  simp only [hlookup, hp]

theorem remove_peer_of_known (hlookup : d.peers.lookup pub_key.bytes = some r)
    (hp : d.heap[r]? = some p) : d.remove_peer pub_key = d.without pub_key.bytes r p := by
  unfold remove_peer
  simp only [hlookup, hp]
  rfl

end remove

/-- A peer that is new is added. -/
theorem update_peer_of_new {pub_key : PublicKey} {config : PeerConfig} {index : UInt32}
    {generator : IndexLfsr} {keys : Bytes × Bytes} {table : AllowedIps Unit}
    {by_ip : AllowedIps PeerRef} (hremove : config.remove = false)
    (hnew : d.peers.lookup pub_key.bytes = none)
    (hnext : d.next_index.next = .ok (index, generator)) (hkeys : d.key_pair = some keys)
    (htable : AllowedIps.from_iter config.allowed_ips () = .ok table)
    (hips : d.peers_by_ip.insert_all config.allowed_ips d.heap.length = .ok by_ip) (new : NewEnv) :
    d.update_peer pub_key config new = .ok { d with
      next_index := generator
      heap := d.heap ++ [⟨new_tunnel keys.1 pub_key config index new, index,
        ⟨config.endpoint, none⟩,
        table, config.preshared_key⟩]
      peers := d.peers.insert pub_key.bytes d.heap.length
      peers_by_idx := d.peers_by_idx.insert index d.heap.length
      peers_by_ip := by_ip } := by
  unfold update_peer
  simp only [hremove, hnew, hnext, hkeys, hips, Peer.new_returns _ _ _ _ htable, Outcome.ok_bind,
    Option.isSome_none, Bool.false_eq_true, if_false]
  rfl

/-- A commit with these settings leaves this under the key of the peer. -/
def PeerConfig.Leaves (config : PeerConfig) (x : Option PeerSettings) : Prop :=
  (config.remove = true → x = none) ∧
    (config.remove = false → ∃ allowed_ips, x = some ⟨config.endpoint, config.preshared_key,
      config.preshared_key, (config.keepalive.getD 0).toNat, allowed_ips⟩)

/-- Replacing an element by one with the same image. -/
theorem map_set_same {α β : Type} {f : α → β} {xs : List α} {i : Nat} {x y : α}
    (hx : xs[i]? = some x) (hy : f y = f x) : (xs.set i y).map f = xs.map f := by
  apply List.ext_getElem?
  intro j
  rw [List.getElem?_map, List.getElem?_map]
  by_cases hij : i = j
  · subst hij
    rw [List.getElem?_set_self (List.getElem?_eq_some_iff.mp hx).1, hx]
    exact congrArg some hy
  · rw [List.getElem?_set_ne hij]

/-- Removing a peer closes its endpoint, which is no part of its settings. -/
theorem without_profiles {key : Bytes} {r : PeerRef} {p : Peer C} (hp : d.heap[r]? = some p) :
    (d.without key r p).heap.map Peer.profile = d.heap.map Peer.profile :=
  map_set_same (y := p.shutdown_endpoint.1) hp rfl

/-- The settings under a key depend on the profiles only. -/
theorem settings_eq (k : Bytes) : d.settings k =
    (d.peers.lookup k).bind fun r => (d.heap.map Peer.profile)[r]?.map Prod.fst := by
  unfold settings
  congr 1
  funext r
  rw [List.getElem?_map, Option.map_map]
  rfl

/-- **What a commit does to the settings**: those under other keys stay. -/
theorem update_peer_settings (h : d.Tables) {pub_key : PublicKey} {config : PeerConfig}
    {new : NewEnv} (hd : d.update_peer pub_key config new = .ok d') :
    config.Leaves (d'.settings pub_key.bytes) ∧
      ∀ k, k ≠ pub_key.bytes → d'.settings k = d.settings k := by
  cases update_peer_changes (B := symbolicBuild false) hd with
  | unknown hop hunknown =>
    rcases hop with heq | ⟨_, _, heq, hremove⟩ <;> cases heq
    refine ⟨⟨fun _ => ?_, fun hfalse => ?_⟩, fun _ _ => rfl⟩
    · cases hlookup : d.peers.lookup pub_key.bytes with
      | none => simp [settings, hlookup]
      | some r =>
        obtain ⟨p, hfiled⟩ := h.peers hlookup
        cases (hunknown r hlookup).symm.trans hfiled.heap
    · rw [hremove] at hfalse
      cases hfalse
  | remove hop hlookup hp =>
    rcases hop with heq | ⟨_, _, heq, hremove⟩ <;> cases heq
    refine ⟨⟨fun _ => ?_, fun hfalse => ?_⟩, fun k hk => ?_⟩
    · simp [settings, without]
    · rw [hremove] at hfalse
      cases hfalse
    · rw [settings_eq, settings_eq, without_profiles hp]
      exact congrArg (Option.bind · _) (AList.lookup_erase_ne hk)
  | @add _ _ _ _ _ _ p _ hremove hnew hnext hkeys hpeer hips =>
    obtain ⟨htunnel, _, hendpoint, hpreshared, _⟩ := Peer.new_eq_ok hpeer
    refine ⟨⟨fun htrue => ?_, fun _ => ⟨p.allowed_ips, ?_⟩⟩, fun k hk => ?_⟩
    · rw [hremove] at htrue
      cases htrue
    · simp only [settings, AList.lookup_insert, Option.bind_some, List.getElem?_concat_length,
        Option.map_some, Peer.settings, htunnel, hendpoint, hpreshared]
      rfl
    · simp only [settings, AList.lookup_insert_ne hk]
      cases hlookup : d.peers.lookup k with
      | none => rfl
      | some r =>
        obtain ⟨p, hfiled⟩ := h.peers hlookup
        simp only [Option.bind_some]
        rw [List.getElem?_append_left (List.getElem?_eq_some_iff.mp hfiled.heap).1]

theorem Tables.update_peer (h : d.Tables) {u : Update}
    (hd : d.update_peer u.pub_key u.config u.new = .ok d') : d'.Tables := by
  have hstep : d.step (symbolicBuild false) (.update_peer u.pub_key u.config u.new)
      = .ok (d', [], []) :=
    Outcome.bind_eq_ok.mpr ⟨d', hd, rfl⟩
  exact h.step hstep

/-- **What several commits leave**, of peers with different keys. -/
theorem commits_settings (h : d.Tables) {us : List Update} (hd : d.commits us = .ok d')
    (hnodup : (us.map fun u => u.pub_key.bytes).Nodup) :
    (∀ u ∈ us, u.config.Leaves (d'.settings u.pub_key.bytes)) ∧
      ∀ k, k ∉ us.map (fun u => u.pub_key.bytes) → d'.settings k = d.settings k := by
  induction us generalizing d with
  | nil =>
    cases hd
    exact ⟨by simp, fun _ _ => rfl⟩
  | cons u us ih =>
    obtain ⟨d₁, hfirst, hrest⟩ := Outcome.bind_eq_ok.mp hd
    obtain ⟨hfresh, hnodup'⟩ := List.nodup_cons.mp hnodup
    obtain ⟨hleaves, hothers⟩ := update_peer_settings h hfirst
    obtain ⟨ih₁, ih₂⟩ := ih (h.update_peer hfirst) hrest hnodup'
    refine ⟨fun v hv => ?_, fun k hk => ?_⟩
    · rcases List.mem_cons.mp hv with rfl | hv
      · rw [ih₂ _ hfresh]
        exact hleaves
      · exact ih₁ v hv
    · obtain ⟨hne, hrest'⟩ := not_or.mp (List.mem_cons.not.mp hk)
      rw [ih₂ k hrest', hothers k hne]

/-! ## Section 4: Independence -/

/-- Settings with which a peer is committed as with its own: if it is not to be removed it is added,
    with the same endpoint, preshared key and keepalive interval. -/
def PeerConfig.Agrees (config own : PeerConfig) : Prop :=
  own.remove = false → config.remove = false ∧ config.endpoint = own.endpoint ∧
    config.preshared_key = own.preshared_key ∧ config.keepalive.getD 0 = own.keepalive.getD 0

/-- **No section is committed with settings of the sections before it.** -/
def Unleaked (sections : List (PeerSection P)) : Prop :=
  ∀ x ∈ collected .start sections, x.2.Agrees x.1.config

/-- Two devices that differ in what does not belong to their configuration. -/
structure Aligned (d d' : Device C) : Prop where
  key_pair : d.key_pair = d'.key_pair
  peers : d.peers = d'.peers
  peers_by_ip : d.peers_by_ip = d'.peers_by_ip
  next_index : d.next_index = d'.next_index
  heap : d.heap.map Peer.profile = d'.heap.map Peer.profile

namespace Aligned

theorem heap_length (h : Aligned d d') : d.heap.length = d'.heap.length := by
  simpa using congrArg List.length h.heap

theorem getElem? (h : Aligned d d') (r : PeerRef) :
    d.heap[r]?.map Peer.profile = d'.heap[r]?.map Peer.profile := by
  rw [← List.getElem?_map, ← List.getElem?_map, h.heap]

theorem same_config (h : Aligned d d') : SameConfig d d' where
  key_pair := h.key_pair
  peers := by
    intro k
    rw [settings_eq, settings_eq, h.peers, h.heap]
  routes := by
    intro n
    unfold route
    rw [h.peers_by_ip]
    congr 1
    funext r
    have hr := congrArg (Option.map Prod.snd) (h.getElem? r)
    rwa [Option.map_map, Option.map_map] at hr

theorem remove_peer (h : Aligned d d') (pub_key : PublicKey) :
    Aligned (d.remove_peer pub_key) (d'.remove_peer pub_key) := by
  cases hlookup : d'.peers.lookup pub_key.bytes with
  | none =>
    rw [remove_peer_of_unknown (h.peers ▸ hlookup), remove_peer_of_unknown hlookup]
    exact h
  | some r =>
    have hr := h.getElem? r
    cases hp : d'.heap[r]? with
    | none =>
      rw [hp] at hr
      have hp' : d.heap[r]? = none := by simpa using hr
      rw [remove_peer_of_dangling (h.peers ▸ hlookup) hp', remove_peer_of_dangling hlookup hp]
      exact h
    | some p =>
      rw [hp] at hr
      obtain ⟨p', hp', _⟩ := Option.map_eq_some_iff.mp hr
      rw [remove_peer_of_known (h.peers ▸ hlookup) hp', remove_peer_of_known hlookup hp]
      refine ⟨h.key_pair, ?_, ?_, h.next_index, ?_⟩
      · exact congrArg (AList.erase pub_key.bytes) h.peers
      · exact congrArg (fun t => AllowedIps.remove t (· = r)) h.peers_by_ip
      · rw [without_profiles hp', without_profiles hp]
        exact h.heap

/-- **Commits that agree keep devices aligned.** -/
theorem update_peer (h : Aligned d d') {pub_key : PublicKey} {config own : PeerConfig}
    {new' : NewEnv} (new : NewEnv) (hremove : own.remove = true → config.remove = true)
    (hagrees : config.Agrees own) (hips : config.allowed_ips = own.allowed_ips)
    (hd' : d'.update_peer pub_key own new' = .ok d₁') :
    ∃ d₁, d.update_peer pub_key config new = .ok d₁ ∧ Aligned d₁ d₁' := by
  cases hown : own.remove with
  | true =>
    unfold Device.update_peer at hd' ⊢
    rw [if_pos hown] at hd'
    rw [if_pos (hremove hown)]
    cases hd'
    exact ⟨_, rfl, h.remove_peer pub_key⟩
  | false =>
    obtain ⟨hconfig, hendpoint, hpreshared, hkeepalive⟩ := hagrees hown
    obtain ⟨index, generator, keys, p, by_ip, hnew, hnext, hkeys, hpeer, hinsert, rfl⟩ :=
      update_peer_new hd' hown
    obtain ⟨htunnel, _, hendpoint', hpreshared', htable⟩ := Peer.new_eq_ok hpeer
    have hprofile : p.profile = (⟨own.endpoint, own.preshared_key, own.preshared_key,
        (own.keepalive.getD 0).toNat, p.allowed_ips⟩, pub_key.bytes) := by
      simp only [Peer.profile, Peer.settings, htunnel, hendpoint', hpreshared']
      rfl
    have hd := update_peer_of_new (d := d) hconfig (h.peers ▸ hnew) (h.next_index ▸ hnext)
      (h.key_pair.trans hkeys) (hips ▸ htable) (h.peers_by_ip ▸ h.heap_length ▸ hips ▸ hinsert) new
    refine ⟨_, hd, h.key_pair, ?_, rfl, rfl, ?_⟩
    · show AList.insert _ d.heap.length d.peers = AList.insert _ d'.heap.length d'.peers
      rw [h.heap_length, h.peers]
    · rw [List.map_append, List.map_append, h.heap]
      show _ ++ [Peer.profile _] = _ ++ [p.profile]
      rw [hprofile, ← hendpoint, ← hpreshared, ← hkeepalive]
      rfl

/-- Commits of sections that agree with their own settings. -/
theorem commits {worlds : Nat → Nat → ApiEnv} {m : Nat} {config : PeerConfig}
    {sections : List (PeerSection P)} (h : Aligned d d') (world : Nat → ApiEnv) (n : Nat)
    (hips : config.allowed_ips = [])
    (hagrees : ∀ x ∈ collected config sections, x.2.Agrees x.1.config)
    (hd' : d'.commits (ownUpdates worlds m sections) = .ok d₁') :
    ∃ d₁, d.commits (updatesOf world n (collected config sections)) = .ok d₁ ∧ Aligned d₁ d₁' := by
  induction sections generalizing d d' m n config with
  | nil =>
    cases hd'
    exact ⟨d, rfl, h⟩
  | cons s sections ih =>
    obtain ⟨d₂', hfirst', hrest'⟩ := Outcome.bind_eq_ok.mp hd'
    have hips' : (s.carry config).allowed_ips = s.config.allowed_ips := by
      show config.allowed_ips ++ s.config.allowed_ips = _
      rw [hips, List.nil_append]
    obtain ⟨d₂, hfirst, h₂⟩ := h.update_peer (world (n + 1 + s.settings.length)).new
      (fun hremove => PeerSection.carry_remove hremove config) (hagrees _ List.mem_cons_self) hips'
      hfirst'
    obtain ⟨d₁, hrest, h₁⟩ := ih h₂ _ rfl
      (fun x hx => hagrees x (List.mem_cons_of_mem _ hx)) hrest'
    exact ⟨d₁, Outcome.bind_eq_ok.mpr ⟨d₂, hfirst, hrest⟩, h₁⟩

end Aligned

/-- Commits that leave the same agree. -/
theorem PeerConfig.Leaves.agrees {config own : PeerConfig} {x : Option PeerSettings}
    (h : config.Leaves x) (hown : own.Leaves x) : config.Agrees own := by
  intro hremove
  obtain ⟨ips', hx'⟩ := hown.2 hremove
  cases hconfig : config.remove with
  | true =>
    rw [h.1 hconfig] at hx'
    cases hx'
  | false =>
    obtain ⟨ips, hx⟩ := h.2 hconfig
    obtain ⟨hendpoint, hpreshared, _, hkeepalive, _⟩ :=
      PeerSettings.mk.inj (Option.some.inj (hx.symm.trans hx'))
    exact ⟨rfl, hendpoint, hpreshared, UInt16.toNat_inj.mp hkeepalive⟩

/-- What is committed, without what the environment answers. -/
def Update.commit (u : Update) : PublicKey × PeerConfig := (u.pub_key, u.config)

theorem updatesOf_commit (world : Nat → ApiEnv) (n : Nat) (xs : List (PeerSection P × PeerConfig)) :
    (updatesOf world n xs).map Update.commit = xs.map fun x => (x.1.key.public_key, x.2) := by
  induction xs generalizing n with
  | nil => rfl
  | cons x xs ih => exact congrArg _ (ih _)

theorem ownUpdates_commit (worlds : Nat → Nat → ApiEnv) (m : Nat)
    (sections : List (PeerSection P)) :
    (ownUpdates worlds m sections).map Update.commit =
      sections.map fun s => (s.key.public_key, s.config) := by
  induction sections generalizing m with
  | nil => rfl
  | cons s sections ih => exact congrArg _ (ih _)

theorem collected_sections (config : PeerConfig) (sections : List (PeerSection P)) :
    (collected config sections).map Prod.fst = sections := by
  induction sections generalizing config with
  | nil => rfl
  | cons s sections ih => exact congrArg _ (ih _)

theorem updatesOf_keys (world : Nat → ApiEnv) (n : Nat) (config : PeerConfig)
    (sections : List (PeerSection P)) :
    (updatesOf world n (collected config sections)).map (fun u => u.pub_key.bytes) =
      sections.map fun s => s.key.bytes :=
  calc
    _ = ((updatesOf world n (collected config sections)).map Update.commit).map
        (fun c => c.1.bytes) := by rw [List.map_map]; rfl
    _ = ((collected config sections).map Prod.fst).map (fun s => s.key.bytes) := by
      rw [updatesOf_commit, List.map_map, List.map_map]
      rfl
    _ = sections.map fun s => s.key.bytes := by rw [collected_sections]

theorem ownUpdates_keys (worlds : Nat → Nat → ApiEnv) (m : Nat) (sections : List (PeerSection P)) :
    (ownUpdates worlds m sections).map (fun u => u.pub_key.bytes) =
      sections.map fun s => s.key.bytes :=
  calc
    _ = ((ownUpdates worlds m sections).map Update.commit).map (fun c => c.1.bytes) := by
      rw [List.map_map]
      rfl
    _ = sections.map fun s => s.key.bytes := by
      rw [ownUpdates_commit, List.map_map]
      rfl

/-- The generator can give this many indices. -/
def Provides : Nat → IndexLfsr → Prop
  | 0, _ => True
  | n + 1, g => ∃ index g', g.next = .ok (index, g') ∧ Provides n g'

theorem Provides.less {n : Nat} {g : IndexLfsr} (h : Provides (n + 1) g) : Provides n g := by
  induction n generalizing g with
  | zero => trivial
  | succ n ih =>
    obtain ⟨index, g', hnext, hrest⟩ := h
    exact ⟨index, g', hnext, ih hrest⟩

/-- The operation of a commit. -/
def Update.op (u : Update) : DeviceOp := .update_peer u.pub_key u.config u.new

theorem admits_updates {o : Outline} {us : List Update} (hkeyed : o.keyed = true)
    (hnew : ∀ u ∈ us, u.config.remove = true ∨ o.configured u.pub_key.bytes = false)
    (hnodup : (us.map fun u => u.pub_key.bytes).Nodup) (hindices : Provides us.length o.generator) :
    o.Admits (us.map Update.op) := by
  induction us generalizing o with
  | nil => trivial
  | cons u us ih =>
    obtain ⟨hfresh, hnodup'⟩ := List.nodup_cons.mp hnodup
    have hothers : ∀ (b : Bool), ∀ v ∈ us, v.config.remove = true ∨
        Function.update o.configured u.pub_key.bytes b v.pub_key.bytes = false := by
      intro b v hv
      have hne : v.pub_key.bytes ≠ u.pub_key.bytes :=
        fun heq => hfresh (List.mem_map.mpr ⟨v, hv, heq⟩)
      rw [Function.update_of_ne hne]
      exact hnew v (List.mem_cons_of_mem _ hv)
    cases hremove : u.config.remove with
    | true =>
      refine ⟨Or.inl hremove, ?_⟩
      rw [Update.op, Outline.after, if_pos hremove]
      exact ih hkeyed (hothers false) hnodup' hindices.less
    | false =>
      obtain ⟨index, g', hnext, hrest⟩ := hindices
      have hconfigured := (hnew u List.mem_cons_self).resolve_left (by simp [hremove])
      refine ⟨Or.inr ⟨hconfigured, hkeyed, _, hnext⟩, ?_⟩
      rw [Update.op, Outline.after, if_neg (by simp [hremove]), hnext]
      exact ih hkeyed (hothers true) hnodup' hrest

theorem commits_of_exec {us : List Update} {x : Device C × List DeviceLabel}
    (h : d.exec B (us.map Update.op) = .ok x) : d.commits us = .ok x.1 := by
  induction us generalizing d x with
  | nil =>
    cases h
    rfl
  | cons u us ih =>
    obtain ⟨y, hstep, h⟩ := Outcome.bind_eq_ok.mp h
    obtain ⟨z, hrest, h⟩ := Outcome.bind_eq_ok.mp h
    cases h
    obtain ⟨d₁, hupdate, heq⟩ := Outcome.bind_eq_ok.mp hstep
    cases heq
    have htail := ih (x := z) hrest
    exact Outcome.bind_eq_ok.mpr ⟨d₁, hupdate, htail⟩

theorem section_valid (s : PeerSection P) : s.config.Valid := by
  have hvalid : ∀ {config config' : PeerConfig} {settings : List (String × String)},
      Reads P config settings config' → config.Valid → config'.Valid := by
    intro config config' settings h
    induction h with
    | nil config => exact id
    | cons hline _ ih => exact fun hvalid => ih (set_peer_line_valid hline hvalid)
  refine hvalid s.read_settings ?_
  intro ip hip
  cases hip

/-- **Commands with one section each return** when the private key is set, the peers are new or to
    be removed, and there are indices for them. -/
theorem api_sets_returns (h : d.Tables) (hkeyed : d.key_pair.isSome = true)
    {sections : List (PeerSection P)} (hdistinct : (sections.map fun s => s.key.bytes).Nodup)
    (hnew : ∀ s ∈ sections, s.config.remove = true ∨ d.peers.lookup s.key.bytes = none)
    (hindices : Provides sections.length d.next_index) (worlds : Nat → Nat → ApiEnv) :
    ∃ d₂, d.api_sets B worlds 0 sections = .ok (List.replicate sections.length 0, d₂) := by
  have hcommits := ownUpdates_commit worlds 0 sections
  have hkeys := ownUpdates_keys worlds 0 sections
  have hlength : (ownUpdates worlds 0 sections).length = sections.length := by
    simpa using congrArg List.length hcommits
  have hsection : ∀ u ∈ ownUpdates worlds 0 sections,
      ∃ s ∈ sections, (s.key.public_key, s.config) = Update.commit u := by
    intro u hu
    exact List.mem_map.mp (hcommits ▸ List.mem_map_of_mem hu)
  have hadmits : d.outline.Admits ((ownUpdates worlds 0 sections).map Update.op) := by
    refine admits_updates hkeyed ?_ (hkeys ▸ hdistinct) (hlength ▸ hindices)
    intro u hu
    obtain ⟨s, hs, heq⟩ := hsection u hu
    obtain ⟨hkey, hconfig⟩ := Prod.mk.inj heq
    rw [← hkey, ← hconfig]
    refine (hnew s hs).imp_right fun hnone => ?_
    show (d.peers.lookup s.key.bytes).isSome = false
    rw [hnone]
    rfl
  have hops : ∀ op ∈ (ownUpdates worlds 0 sections).map Update.op, op.Configures := by
    intro op hop
    obtain ⟨u, hu, rfl⟩ := List.mem_map.mp hop
    obtain ⟨s, _, heq⟩ := hsection u hu
    show u.config.Valid
    rw [← (Prod.mk.inj heq).2]
    exact section_valid s
  obtain ⟨x, hx⟩ := (exec_returns_iff (B := B) h hops).mpr hadmits
  refine ⟨x.1, ?_⟩
  rw [api_sets_eq, commits_of_exec hx]
  rfl

/-- **When sections are independent.**  On every reachable device, if commands with one section
    each return, one command with all the sections returns too and leaves the same configuration
    exactly if no section is committed with settings of the sections before it. -/
theorem sections_independent_iff {use_connected_socket : Bool} {seed mask : UInt32}
    {hseed : Seed seed} {hmask : Seed mask} {tr : List DeviceLabel}
    (hrun : Run (device C B) (.new use_connected_socket (.default seed mask hseed hmask)) tr d)
    {sections : List (PeerSection P)} (hdistinct : (sections.map fun s => s.key.bytes).Nodup)
    {worlds : Nat → Nat → ApiEnv} {statuses : List Nat} {d₂ : Device C}
    (hseparate : d.api_sets B worlds 0 sections = .ok (statuses, d₂)) (world : Nat → ApiEnv) :
    (∃ d₁, d.api_set B P world 0 (.new (sectionsStream sections) false) = .ok (0, d₁) ∧
      SameConfig d₁ d₂) ↔ Unleaked sections := by
  have htables := run_tables hrun
  rw [api_sets_eq] at hseparate
  obtain ⟨_, hown, heq⟩ := Outcome.bind_eq_ok.mp hseparate
  cases heq
  rw [api_set_sections]
  constructor
  · rintro ⟨d₁, hd₁, hsame⟩ x hx
    obtain ⟨d₃, hcommits, heq⟩ := Outcome.bind_eq_ok.mp hd₁
    cases heq
    have hcollected := updatesOf_commit world 0 (collected .start sections)
    have hseparated := ownUpdates_commit worlds 0 sections
    have hsections := collected_sections .start sections
    obtain ⟨u, hu, heq⟩ := List.mem_map.mp (hcollected ▸ List.mem_map_of_mem hx)
    obtain ⟨u', hu', heq'⟩ := List.mem_map.mp
      (hseparated ▸ List.mem_map_of_mem (hsections ▸ List.mem_map_of_mem hx))
    have hleaves := (commits_settings htables hcommits
      (by rw [updatesOf_keys]; exact hdistinct)).1 u hu
    have hleaves' := (commits_settings htables hown
      (by rw [ownUpdates_keys]; exact hdistinct)).1 u' hu'
    obtain ⟨hkey, hconfig⟩ := Prod.mk.inj heq
    obtain ⟨hkey', hconfig'⟩ := Prod.mk.inj heq'
    rw [hkey, hconfig, hsame.peers] at hleaves
    rw [hkey', hconfig'] at hleaves'
    exact hleaves.agrees hleaves'
  · intro hunleaked
    have hrefl : Aligned d d := ⟨rfl, rfl, rfl, rfl, rfl⟩
    obtain ⟨d₁, hcommits, haligned⟩ := hrefl.commits world 0 rfl hunleaked hown
    exact ⟨d₁, Outcome.bind_eq_ok.mpr ⟨d₁, hcommits, rfl⟩, haligned.same_config⟩

/-- A section without settings. -/
def plainSection : PeerSection noAddresses where
  text := hexText '2'
  key := ⟨List.replicate 32 34, by simp⟩
  settings := []
  config := .start
  read_key := hexText_two
  read_settings := .nil _
  text_plain := hexText_plain (by decide)
  key_plain := by simp
  text_line := by decide
  setting_line := by simp

/-- A section that removes its peer. -/
def removingSection : PeerSection noAddresses where
  text := hexText '1'
  key := ⟨List.replicate 32 17, by simp⟩
  settings := [("remove", "true")]
  config := { PeerConfig.start with remove := true }
  read_key := hexText_one
  read_settings := .cons rfl (.nil _)
  text_plain := hexText_plain (by decide)
  key_plain := by decide
  text_line := by decide
  setting_line := by decide

/-- A section with a preshared key. -/
def secretSection : PeerSection noAddresses where
  text := hexText '1'
  key := ⟨List.replicate 32 17, by simp⟩
  settings := [("preshared_key", hexText '2')]
  config := { PeerConfig.start with preshared_key := some (List.replicate 32 34) }
  read_key := hexText_one
  read_settings := .cons (by
    show ((KeyBytes.from_str (hexText '2')).run >>= _) = _
    rw [hexText_two]
    rfl) (.nil _)
  text_plain := hexText_plain (by decide)
  key_plain := by decide
  text_line := by decide
  setting_line := by decide

/-- A section behind one without settings gets none of them. -/
theorem sections_independent_plain : ∃ (d : Device symbolic) (tr : List DeviceLabel)
    (d₁ d₂ : Device symbolic), Run (device symbolic (symbolicBuild false)) symbolicDevice tr d ∧
    d.api_sets (symbolicBuild false) (fun _ => symbolicWorld) 0 [plainSection, secretSection] =
      .ok ([0, 0], d₂) ∧
    d.api_set (symbolicBuild false) noAddresses symbolicWorld 0
      (.new (sectionsStream [plainSection, secretSection]) false) = .ok (0, d₁) ∧
    SameConfig d₁ d₂ := by
  obtain ⟨⟨d, tr⟩, hexec, hkeyed, hpeers, hindices⟩ : ∃ x,
      symbolicDevice.exec (symbolicBuild false) [.set_key [7] 0 (symbolicEnv 0)] = .ok x ∧
      x.1.key_pair.isSome = true ∧ x.1.peers = ∅ ∧ Provides 2 x.1.next_index :=
    ⟨_, rfl, rfl, rfl, _, _, rfl, _, _, rfl, trivial⟩
  have hrun := exec_run hexec
  have htables := run_tables hrun
  have hdistinct : ([plainSection, secretSection].map fun s => s.key.bytes).Nodup := by decide
  obtain ⟨d₂, hseparate⟩ := api_sets_returns (B := symbolicBuild false) htables hkeyed hdistinct
    (by
      intro s _
      rw [hpeers]
      exact Or.inr rfl)
    hindices fun _ => symbolicWorld
  have hunleaked : Unleaked [plainSection, secretSection] := by
    intro x hx
    rcases List.mem_cons.mp hx with rfl | hx
    · exact fun _ => ⟨rfl, rfl, rfl, rfl⟩
    · cases List.mem_singleton.mp hx
      exact fun _ => ⟨rfl, rfl, rfl, rfl⟩
  obtain ⟨d₁, hd₁, hsame⟩ :=
    (sections_independent_iff hrun hdistinct hseparate symbolicWorld).mpr hunleaked
  exact ⟨d, tr, d₁, d₂, hrun, hseparate, hd₁, hsame⟩

/-- **Settings that reach the next section.**  A section behind one that removes its peer is taken
    for a removal too, and the peer is not added; and a peer whose section has no preshared key gets
    the one of the section before it. -/
theorem sections_dependent : ∃ (d : Device symbolic) (tr : List DeviceLabel),
    Run (device symbolic (symbolicBuild false)) symbolicDevice tr d ∧ d.key_pair.isSome = true ∧
    (∃ d₁ d₂, d.api_set (symbolicBuild false) noAddresses symbolicWorld 0
        (.new (sectionsStream [removingSection, plainSection]) false) = .ok (0, d₁) ∧
      d.api_sets (symbolicBuild false) (fun _ => symbolicWorld) 0 [removingSection, plainSection] =
        .ok ([0, 0], d₂) ∧
      d₁.settings plainSection.key.bytes = none ∧
      (d₂.settings plainSection.key.bytes).isSome = true) ∧
    ∃ d₁ d₂, d.api_set (symbolicBuild false) noAddresses symbolicWorld 0
        (.new (sectionsStream [secretSection, plainSection]) false) = .ok (0, d₁) ∧
      d.api_sets (symbolicBuild false) (fun _ => symbolicWorld) 0 [secretSection, plainSection] =
        .ok ([0, 0], d₂) ∧
      (d₁.settings plainSection.key.bytes).map PeerSettings.preshared_key =
        some (some (List.replicate 32 34)) ∧
      (d₂.settings plainSection.key.bytes).map PeerSettings.preshared_key = some none := by
  obtain ⟨⟨d, tr⟩, hexec, hkeyed, ⟨d₁, hd₁, hnone⟩, ⟨d₂, hd₂, hsome⟩, ⟨d₃, hd₃, hsecret⟩,
      ⟨d₄, hd₄, hplain⟩⟩ : ∃ x,
      symbolicDevice.exec (symbolicBuild false) [.set_key [7] 0 (symbolicEnv 0)] = .ok x ∧
      x.1.key_pair.isSome = true ∧
      (∃ d₁, x.1.commits (updatesOf symbolicWorld 0
          (collected .start [removingSection, plainSection])) = .ok d₁ ∧
        d₁.settings plainSection.key.bytes = none) ∧
      (∃ d₂, x.1.commits (ownUpdates (fun _ => symbolicWorld) 0 [removingSection, plainSection])
          = .ok d₂ ∧ (d₂.settings plainSection.key.bytes).isSome = true) ∧
      (∃ d₃, x.1.commits (updatesOf symbolicWorld 0
          (collected .start [secretSection, plainSection])) = .ok d₃ ∧
        (d₃.settings plainSection.key.bytes).map PeerSettings.preshared_key =
          some (some (List.replicate 32 34))) ∧
      ∃ d₄, x.1.commits (ownUpdates (fun _ => symbolicWorld) 0 [secretSection, plainSection])
          = .ok d₄ ∧
        (d₄.settings plainSection.key.bytes).map PeerSettings.preshared_key = some none :=
    ⟨_, rfl, rfl, ⟨_, rfl, rfl⟩, ⟨_, rfl, rfl⟩, ⟨_, rfl, rfl⟩, ⟨_, rfl, rfl⟩⟩
  refine ⟨d, tr, exec_run hexec, hkeyed, ⟨d₁, d₂, ?_, ?_, hnone, hsome⟩, d₃, d₄, ?_, ?_, hsecret,
    hplain⟩
  · rw [api_set_sections, hd₁]
    rfl
  · rw [api_sets_eq, hd₂]
    rfl
  · rw [api_set_sections, hd₃]
    rfl
  · rw [api_sets_eq, hd₄]
    rfl

end Device

end PqBoringtun
