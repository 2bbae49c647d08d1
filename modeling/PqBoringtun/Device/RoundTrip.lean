import PqBoringtun.Device.Get
import PqBoringtun.Device.Routing

/-! # What a get command reports can be set again

    The reply to a get command cannot be handed to a set command as it is:
    it has lines that a set command refuses, and the settings of a section
    reach the sections behind it.  A client that keeps the lines with
    settings, and sends them in a command for each peer, gets the
    configuration back (`Device.get_set_restores`).

    * Section 1: printed settings are read back.
    * Section 2: a reply as sections of set commands.
    * Section 3: what the commits of new peers leave.
    * Section 4: the round trip, over the exchanges of a client.
-/

namespace PqBoringtun

open Device

variable {C : Crypto} {B : Build}

/-! ## Section 1: Printed settings -/

/-- An endpoint without the flow label, which has no place in its text. -/
def SocketAddr.unlabelled : SocketAddr → SocketAddr
  | .V4 ip port => .V4 ip port
  | .V6 ip port _ scope_id => .V6 ip port 0 scope_id

/-- The parsers read what is printed, and it stands on one line. -/
structure Printers.ReadBy (F : Printers) (P : Parsers) : Prop where
  ip_addr : ∀ a, P.ip_addr (F.ip_addr a) = some a
  socket_addr : ∀ a, P.socket_addr (F.socket_addr a) = some a.unlabelled
  ip_plain : ∀ a, '/' ∉ (F.ip_addr a).toList ∧ '\n' ∉ (F.ip_addr a).toList
  socket_plain : ∀ a, '\n' ∉ (F.socket_addr a).toList

/-- A printed key is read. -/
theorem KeyBytes.from_str_encode (k : KeyBytes) :
    (KeyBytes.from_str (Hex.encode k.bytes)).run = .ok (.ok k) := by
  have hencodes := Hex.encodes_encode k.bytes
  rw [KeyBytes.from_str_hex (KeyBytes.length_of_hex hencodes),
    KeyBytes.readPairs_of_encodes hencodes, KeyBytes.zero_write]
  rfl

namespace IpNetwork

/-- The entry of a set command for a network. -/
def allowed_ip (n : IpNetwork) : AllowedIP := ⟨n.network_address, UInt8.ofNat n.netmask⟩

theorem netmask_le (n : IpNetwork) : n.netmask ≤ 128 := by
  cases n with
  | V4 n => exact n.netmask_le.trans (by decide)
  | V6 n => exact n.netmask_le

theorem cidr_allowed_ip (n : IpNetwork) : n.allowed_ip.cidr.toNat = n.netmask := by
  have hle := n.netmask_le
  show (UInt8.ofNat n.netmask).toNat = n.netmask
  rw [UInt8.toNat_ofNat']
  omega

end IpNetwork

/-- A network has no host bits to clear. -/
theorem Network.new_truncate_self {w : Nat} (n : Network w) :
    Network.new_truncate n.address n.netmask = some n := by
  rw [Network.new_truncate, dif_pos n.netmask_le]
  exact congrArg some (Network.ext n.truncated rfl)

theorem IpNetwork.network_allowed_ip (n : IpNetwork) : n.allowed_ip.network = some n := by
  rw [AllowedIP.network, IpNetwork.cidr_allowed_ip]
  cases n with
  | V4 n => exact congrArg (Option.map IpNetwork.V4) n.new_truncate_self
  | V6 n => exact congrArg (Option.map IpNetwork.V6) n.new_truncate_self

section printed
variable {F : Printers} {P : Parsers} (h : F.ReadBy P) (it : Iteration)
include h

/-- A printed network is read. -/
theorem from_str_printed (n : IpNetwork) :
    AllowedIP.from_str P (F.ip_addr n.network_address ++ "/" ++ n.netmask.repr) =
      .ok n.allowed_ip := by
  have hsplit : Str.split '/' (F.ip_addr n.network_address ++ "/" ++ n.netmask.repr) =
      [F.ip_addr n.network_address, n.netmask.repr] :=
    Str.split_append (h.ip_plain _).1 ((Str.alnum_repr _).not_mem (by decide))
  have hmask : Str.parse_unsigned 255 n.netmask.repr = some n.netmask :=
    Str.parse_unsigned_repr (n.netmask_le.trans (by decide))
  unfold AllowedIP.from_str
  simp only [hsplit, hmask, h.ip_addr]
  cases n with
  | V4 n => exact if_pos n.netmask_le
  | V6 n => exact if_pos n.netmask_le

omit h in
theorem Reads.append {config config₁ config' : PeerConfig} {xs ys : List Setting}
    (hxs : Reads P config xs config₁) (hys : Reads P config₁ ys config') :
    Reads P config (xs ++ ys) config' := by
  induction hxs with
  | nil config => exact hys
  | cons hline _ ih => exact .cons hline (ih hys)

/-- The networks are collected in order. -/
theorem reads_networks (config : PeerConfig) (ns : List IpNetwork) :
    Reads P config
      (ns.map fun n => ("allowed_ip", F.ip_addr n.network_address ++ "/" ++ n.netmask.repr))
      { config with allowed_ips := config.allowed_ips ++ ns.map IpNetwork.allowed_ip } := by
  induction ns generalizing config with
  | nil =>
    rw [List.map_nil, List.map_nil, List.append_nil]
    exact .nil config
  | cons n ns ih =>
    have hline : set_peer_line P config "allowed_ip"
        (F.ip_addr n.network_address ++ "/" ++ n.netmask.repr) =
        .ok (.ok { config with allowed_ips := config.allowed_ips ++ [n.allowed_ip] }) := by
      simp only [set_peer_line, from_str_printed h]
    have hrest := ih { config with allowed_ips := config.allowed_ips ++ [n.allowed_ip] }
    rw [List.append_assoc] at hrest
    exact .cons hline hrest

end printed

/-- What the lines of a peer say. -/
def Peer.config (it : Iteration) (p : Peer C) : PeerConfig where
  remove := false
  replace_ips := false
  endpoint := p.endpoint.addr.map SocketAddr.unlabelled
  allowed_ips := (it.networks p.allowed_ips).map IpNetwork.allowed_ip
  keepalive := p.tunnel.persistent_keepalive
  preshared_key := p.preshared_key

/-- The lines of a peer with settings are the lines of a section. -/
theorem Device.get_settings_read {F : Printers} {P : Parsers} (h : F.ReadBy P) (it : Iteration)
    {p : Peer C} (hp : p.Configured) :
    Reads P .start (get_settings F it p) (p.config it) := by
  -- the four groups of lines set four fields, one after the other
  have hsecret : Reads P .start
      (p.preshared_key.map fun key => ("preshared_key", Hex.encode key)).toList
      { PeerConfig.start with preshared_key := p.preshared_key } := by
    cases hkey : p.preshared_key with
    | none => exact .nil _
    | some key =>
      have hread := KeyBytes.from_str_encode ⟨key, hp.preshared_size key hkey⟩
      refine .cons ?_ (.nil _)
      simp only [set_peer_line, hread, Outcome.ok_bind]
  have hkeepalive : Reads P { PeerConfig.start with preshared_key := p.preshared_key }
      (p.tunnel.persistent_keepalive.map fun keepalive =>
        ("persistent_keepalive_interval", keepalive.toNat.repr)).toList
      { PeerConfig.start with
        preshared_key := p.preshared_key, keepalive := p.tunnel.persistent_keepalive } := by
    cases p.tunnel.persistent_keepalive with
    | none => exact .nil _
    | some keepalive =>
      have hread : Str.parse_unsigned 65535 keepalive.toNat.repr = some keepalive.toNat :=
        Str.parse_unsigned_repr (Nat.le_of_lt_succ keepalive.toNat_lt)
      refine .cons ?_ (.nil _)
      simp only [set_peer_line, hread, UInt16.ofNat_toNat]
  have hendpoint : Reads P
      { PeerConfig.start with
        preshared_key := p.preshared_key, keepalive := p.tunnel.persistent_keepalive }
      (p.endpoint.addr.map fun addr => ("endpoint", F.socket_addr addr)).toList
      { PeerConfig.start with
        preshared_key := p.preshared_key, keepalive := p.tunnel.persistent_keepalive,
        endpoint := p.endpoint.addr.map SocketAddr.unlabelled } := by
    cases p.endpoint.addr with
    | none => exact .nil _
    | some addr =>
      refine .cons ?_ (.nil _)
      simp only [set_peer_line, h.socket_addr, Option.map_some]
  exact ((hsecret.append hkeepalive).append hendpoint).append (reads_networks h _ _)

/-! ## Section 2: A reply as sections -/

/-- The keys of the lines with settings. -/
def settingKeys : List String :=
  ["preshared_key", "persistent_keepalive_interval", "endpoint", "allowed_ip"]

/-- The keys of the lines that a set command has no use for, and of those about the device. -/
def otherKeys : List String :=
  ["own_public_key", "listen_port", "fwmark", "last_handshake_time_sec",
    "last_handshake_time_nsec", "rx_bytes", "tx_bytes"]

/-- The key of a line. -/
def keyOf (line : String) : String := (Str.splitn_two '=' line).headD ""

/-- A client turns a reply into set commands, one for each peer, with the lines that have
    settings. -/
def commands : List String → List (List String)
  | [] => []
  | line :: lines =>
    if keyOf line = "public_key" then
      (line :: (lines.takeWhile fun l => keyOf l ≠ "public_key").filter
        fun l => keyOf l ∈ settingKeys) :: commands lines
    else commands lines

theorem keyOf_line {x : Setting} (hx : '=' ∉ x.1.toList) : keyOf x.line = x.1 := by
  have hsplit : Str.splitn_two '=' x.line = [x.1, x.2] := Str.splitn_two_append hx x.2
  rw [keyOf, hsplit]
  rfl

theorem keyOf_public_key (text : String) :
    keyOf (Setting.line ("public_key", text)) = "public_key" :=
  keyOf_line (show '=' ∉ "public_key".toList by decide)

/-- Lines that do not start a section. -/
theorem commands_skip {front : List String} (hfront : ∀ l ∈ front, keyOf l ≠ "public_key")
    (rest : List String) : commands (front ++ rest) = commands rest := by
  induction front with
  | nil => rfl
  | cons l front ih =>
    rw [List.cons_append, commands, if_neg (hfront l List.mem_cons_self)]
    exact ih fun l' hl' => hfront l' (List.mem_cons_of_mem _ hl')

/-- The lines up to the next section have no settings. -/
def Unset (rest : List String) : Prop :=
  (rest.takeWhile fun l => keyOf l ≠ "public_key").filter (fun l => keyOf l ∈ settingKeys) = []

/-- The lines of a section end in front of lines without settings. -/
theorem commands_section {line : String} {settings others rest : List String}
    (hline : keyOf line = "public_key") (hsettings : ∀ l ∈ settings, keyOf l ∈ settingKeys)
    (hothers : ∀ l ∈ others, keyOf l ∈ otherKeys) (hrest : Unset rest) :
    commands (line :: (settings ++ others ++ rest)) = (line :: settings) :: commands rest := by
  have hskip : ∀ l ∈ settings ++ others, keyOf l ≠ "public_key" := by
    have hkeys : ∀ key ∈ settingKeys ++ otherKeys, key ≠ "public_key" := by decide
    intro l hl
    refine hkeys _ (List.mem_append.mpr ?_)
    exact (List.mem_append.mp hl).imp (hsettings l) (hothers l)
  have hnone : others.filter (fun l => keyOf l ∈ settingKeys) = [] := by
    have hkeys : ∀ key ∈ otherKeys, key ∉ settingKeys := by decide
    refine List.filter_eq_nil_iff.mpr fun l hl => ?_
    simpa using hkeys _ (hothers l hl)
  have hall : settings.filter (fun l => keyOf l ∈ settingKeys) = settings :=
    List.filter_eq_self.mpr fun l hl => by simpa using hsettings l hl
  rw [commands, if_pos hline, commands_skip hskip, List.takeWhile_append_of_pos
    (fun l hl => by simpa using hskip l hl), List.filter_append, List.filter_append, hall, hnone,
    hrest, List.append_nil, List.append_nil]

/-- A line whose key has no separator, and whose key and value have no line break. -/
structure Setting.Plain (x : Setting) : Prop where
  key : '=' ∉ x.1.toList
  key_line : '\n' ∉ x.1.toList
  value_line : '\n' ∉ x.2.toList

theorem Setting.Plain.newline {x : Setting} (h : x.Plain) : 10 ∉ Str.bytes x.line := by
  refine Str.newline_not_mem_bytes ?_
  simp [Setting.line, h.key_line, h.value_line]

/-- The keys of a reply, apart from those that are values. -/
theorem plain_of_key {x : Setting} (hkey : x.1 ∈ "public_key" :: settingKeys ++ otherKeys)
    (hvalue : '\n' ∉ x.2.toList) : x.Plain := by
  have hkeys : ∀ key ∈ "public_key" :: settingKeys ++ otherKeys,
      '=' ∉ key.toList ∧ '\n' ∉ key.toList := by
    decide
  exact ⟨(hkeys _ hkey).1, (hkeys _ hkey).2, hvalue⟩

namespace Device

variable {F : Printers} {P : Parsers} {it : Iteration} {p : Peer C} {d d' : Device C}

/-- A setting has one of the keys, and its value stands on a line. -/
theorem get_settings_mem (h : F.ReadBy P) {x : Setting} (hx : x ∈ get_settings F it p) :
    x.1 ∈ settingKeys ∧ '\n' ∉ x.2.toList := by
  unfold get_settings at hx
  rcases List.mem_append.mp hx with hx | hx
  · rcases List.mem_append.mp hx with hx | hx
    · rcases List.mem_append.mp hx with hx | hx
      · obtain ⟨key, _, rfl⟩ := Option.map_eq_some_iff.mp (Option.mem_toList.mp hx)
        exact ⟨by simp [settingKeys], (Str.alnum_encode key).not_mem (by decide)⟩
      · obtain ⟨keepalive, _, rfl⟩ := Option.map_eq_some_iff.mp (Option.mem_toList.mp hx)
        exact ⟨by simp [settingKeys], (Str.alnum_repr _).not_mem (by decide)⟩
    · obtain ⟨addr, _, rfl⟩ := Option.map_eq_some_iff.mp (Option.mem_toList.mp hx)
      exact ⟨by simp [settingKeys], h.socket_plain addr⟩
  · obtain ⟨n, _, rfl⟩ := List.mem_map.mp hx
    have hmask := (Str.alnum_repr n.netmask).not_mem (c := '\n') (by decide)
    refine ⟨by simp [settingKeys], ?_⟩
    simp only [String.toList_append, List.mem_append, not_or]
    exact ⟨⟨(h.ip_plain n.network_address).2, by decide⟩, hmask⟩

/-- The lines with the statistics have other keys. -/
theorem get_status_mem {now : Nat × Nat} {status : List Setting}
    (hstatus : get_status B p now = .ok status) {x : Setting} (hx : x ∈ status) :
    x.1 ∈ otherKeys ∧ '\n' ∉ x.2.toList := by
  have hnumber : ∀ n : Nat, '\n' ∉ n.repr.toList :=
    fun n => (Str.alnum_repr n).not_mem (by decide)
  obtain ⟨time, _, hstatus⟩ := Outcome.bind_eq_ok.mp hstatus
  obtain ⟨stats, _, hstatus⟩ := Outcome.bind_eq_ok.mp hstatus
  cases hstatus
  rcases List.mem_append.mp hx with hx | hx
  · obtain ⟨time, _, hx⟩ := List.mem_flatMap.mp hx
    simp only [List.mem_cons, List.not_mem_nil, or_false] at hx
    rcases hx with rfl | rfl
    · exact ⟨by simp [otherKeys], hnumber _⟩
    · exact ⟨by simp [otherKeys], hnumber _⟩
  · simp only [List.mem_cons, List.not_mem_nil, or_false] at hx
    rcases hx with rfl | rfl
    · exact ⟨by simp [otherKeys], hnumber _⟩
    · exact ⟨by simp [otherKeys], hnumber _⟩

theorem get_device_mem {x : Setting} (hx : x ∈ d.get_device) :
    x.1 ∈ otherKeys ∧ '\n' ∉ x.2.toList := by
  unfold get_device at hx
  rcases List.mem_append.mp hx with hx | hx
  · rcases List.mem_append.mp hx with hx | hx
    · obtain ⟨keys, _, rfl⟩ := Option.map_eq_some_iff.mp (Option.mem_toList.mp hx)
      exact ⟨by simp [otherKeys], (Str.alnum_encode _).not_mem (by decide)⟩
    · split at hx
      · cases List.mem_singleton.mp hx
        exact ⟨by simp [otherKeys], (Str.alnum_repr _).not_mem (by decide)⟩
      · cases hx
  · obtain ⟨mark, _, rfl⟩ := Option.map_eq_some_iff.mp (Option.mem_toList.mp hx)
    exact ⟨by simp [otherKeys], (Str.alnum_repr _).not_mem (by decide)⟩

/-- The section of a peer. -/
def sectionOf (h : F.ReadBy P) (it : Iteration) (k : KeyBytes) (p : Peer C) (hp : p.Configured) :
    PeerSection P where
  text := Hex.encode k.bytes
  key := k
  settings := get_settings F it p
  config := p.config it
  read_key := k.from_str_encode
  read_settings := get_settings_read h it hp
  text_plain := (Str.alnum_encode _).not_mem (by decide)
  key_plain := by
    have hkeys : ∀ key ∈ settingKeys, '=' ∉ key.toList ∧ key ≠ "public_key" := by decide
    exact fun x hx => hkeys _ (get_settings_mem h hx).1
  text_line := by
    refine Setting.Plain.newline (x := ("public_key", Hex.encode k.bytes)) (plain_of_key ?_ ?_)
    · simp
    · exact (Str.alnum_encode _).not_mem (by decide)
  setting_line := by
    intro x hx
    obtain ⟨hkey, hvalue⟩ := get_settings_mem h hx
    exact Setting.Plain.newline (x := x) (plain_of_key (by simp [hkey]) hvalue)

theorem sectionOf_lines (h : F.ReadBy P) (k : KeyBytes) (hp : p.Configured) :
    (sectionOf h it k p hp).lines =
      (("public_key", Hex.encode k.bytes) :: get_settings F it p).map Setting.line :=
  rfl

/-- Sections for these entries of `peers`, in order. -/
structure Describes (it : Iteration) (d : Device C)
    (entries : List (Sigma fun _ : Bytes => PeerRef)) (sections : List (PeerSection P)) : Prop where
  keys : (sections.map fun s => s.key.bytes) = entries.map Sigma.fst
  config : ∀ s ∈ sections, ∃ r p, ⟨s.key.bytes, r⟩ ∈ entries ∧ d.heap[r]? = some p ∧
    s.config = p.config it

/-- The next lines start a section, or the reply ends. -/
theorem Lists.unset {entries : List (Sigma fun _ : Bytes => PeerRef)} {lines : List Setting}
    (hlists : Lists B F it d entries lines) :
    Unset (lines.map Setting.line ++ ["errno=0", ""]) := by
  unfold Unset
  cases hlists with
  | nil => rfl
  | cons hp hstatus hrest => simp [keyOf_public_key]

/-- **The commands of a reply are the sections of the peers**, in the order of the reply. -/
theorem Lists.commands (h : F.ReadBy P) (hconfigured : d.Configured)
    {entries : List (Sigma fun _ : Bytes => PeerRef)} {lines : List Setting}
    (hlists : Lists B F it d entries lines)
    (hfiled : ∀ e ∈ entries, ∃ p, d.Filed e.1 e.2 p) :
    ∃ sections : List (PeerSection P), Describes it d entries sections ∧
      PqBoringtun.commands (lines.map Setting.line ++ ["errno=0", ""]) =
        sections.map PeerSection.lines := by
  induction hlists with
  | nil => exact ⟨[], ⟨rfl, by simp⟩, rfl⟩
  | @cons k r p now status more rest hp hstatus hrest ih =>
    obtain ⟨sections, hsections, hcommands⟩ :=
      ih fun e he => hfiled e (List.mem_cons_of_mem _ he)
    obtain ⟨q, hq⟩ := hfiled ⟨k, r⟩ List.mem_cons_self
    obtain rfl := Option.some.inj (hp.symm.trans hq.heap)
    have hsize : k.length = 32 := by
      have := (hconfigured r p hp).peer_size
      rwa [hq.key] at this
    refine ⟨sectionOf h it ⟨k, hsize⟩ p (hconfigured r p hp) :: sections,
      ⟨congrArg (k :: ·) hsections.keys, fun s hs => ?_⟩, ?_⟩
    · rcases List.mem_cons.mp hs with rfl | hs
      · exact ⟨r, p, List.mem_cons_self, hp, rfl⟩
      · obtain ⟨r', p', hmem, hrest'⟩ := hsections.config s hs
        exact ⟨r', p', List.mem_cons_of_mem _ hmem, hrest'⟩
    have hplain : ∀ {keys : List String} {xs : List Setting},
        (∀ key ∈ keys, '=' ∉ key.toList) → (∀ x ∈ xs, x.1 ∈ keys) →
        ∀ l ∈ xs.map Setting.line, keyOf l ∈ keys := by
      intro keys xs hkeys hxs l hl
      obtain ⟨x, hx, rfl⟩ := List.mem_map.mp hl
      rw [keyOf_line (hkeys _ (hxs x hx))]
      exact hxs x hx
    have hsettings : ∀ x ∈ get_settings F it p, x.1 ∈ settingKeys :=
      fun x hx => (get_settings_mem h hx).1
    have hsection := commands_section (keyOf_public_key (Hex.encode k))
      (hplain (by decide) hsettings)
      (hplain (by decide) fun x hx => (get_status_mem hstatus hx).1) hrest.unset
    rw [List.map_cons, ← hcommands, sectionOf_lines]
    simpa using hsection

/-! ## Section 3: Commits of new peers -/

/-- One of the entries stands for the network. -/
def PeerConfig.Has (config : PeerConfig) (n : IpNetwork) : Prop :=
  ∃ ip ∈ config.allowed_ips, ip.network = some n

/-- The settings of a peer that was added with this configuration. -/
def PeerConfig.Sets (config : PeerConfig) (x : Option PeerSettings) : Prop :=
  ∃ table, AllowedIps.from_iter config.allowed_ips () = .ok table ∧
    x = some ⟨config.endpoint, config.preshared_key, config.preshared_key,
      (config.keepalive.getD 0).toNat, table⟩

/-- **What a new peer brings**: its settings, and routes for its networks. -/
theorem update_peer_installs (h : d.Tables) {pub_key : PublicKey} {config : PeerConfig}
    {new : NewEnv} (hremove : config.remove = false)
    (hd : d.update_peer pub_key config new = .ok d') :
    config.Sets (d'.settings pub_key.bytes) ∧
      (∀ n, config.Has n → d'.route n = some pub_key.bytes) ∧
      ∀ n, ¬ config.Has n → d'.route n = d.route n := by
  obtain ⟨index, generator, keys, p, peers_by_ip, _, _, _, hpeer, hips, rfl⟩ :=
    update_peer_new hd hremove
  obtain ⟨htunnel, _, hendpoint, hpreshared, htable⟩ := Peer.new_eq_ok hpeer
  have hlookup := fun {n r} => lookup_added hips h (n := n) (r := r)
  refine ⟨⟨p.allowed_ips, htable, ?_⟩, fun n hn => ?_, fun n hn => ?_⟩
  · simp only [settings, AList.lookup_insert, Option.bind_some, List.getElem?_concat_length,
      Option.map_some, Peer.settings, htunnel, hendpoint, hpreshared]
    rfl
  · have hentry : peers_by_ip.lookup n = some d.heap.length := hlookup.mpr (Or.inl ⟨hn, rfl⟩)
    simp only [route, hentry, Option.bind_some, List.getElem?_concat_length, Option.map_some,
      htunnel]
    rfl
  · -- the entries of other networks stay, and so do their peers
    have hother : ∀ ip ∈ config.allowed_ips, ip.network ≠ some n :=
      fun ip hip heq => hn ⟨ip, hip, heq⟩
    cases hold : d.peers_by_ip.lookup n with
    | none =>
      have hentry : peers_by_ip.lookup n = none := by
        refine Option.eq_none_iff_forall_ne_some.mpr fun r hr => ?_
        rcases hlookup.mp hr with ⟨hhas, _⟩ | ⟨_, _, hsome⟩
        · exact hn hhas
        · rw [hold] at hsome
          cases hsome
      simp only [route, hentry, hold, Option.bind_none]
    | some r =>
      obtain ⟨k, hk⟩ := h.peers_by_ip hold
      obtain ⟨q, hfiled⟩ := h.peers hk
      have hlt := (List.getElem?_eq_some_iff.mp hfiled.heap).1
      have hentry : peers_by_ip.lookup n = some r := hlookup.mpr (Or.inr ⟨hother, hlt, hold⟩)
      simp only [route, hentry, hold, Option.bind_some, List.getElem?_append_left hlt]

/-- **What several new peers bring.**  A network leads to the only peer that has it. -/
theorem commits_install (h : d.Tables) {us : List Update} (hd : d.commits us = .ok d')
    (hremove : ∀ u ∈ us, u.config.remove = false)
    (hnodup : (us.map fun u => u.pub_key.bytes).Nodup) :
    (∀ u ∈ us, u.config.Sets (d'.settings u.pub_key.bytes)) ∧
      (∀ n, (∀ u ∈ us, ¬ u.config.Has n) → d'.route n = d.route n) ∧
      ∀ n k, (∃ u ∈ us, u.config.Has n) → (∀ u ∈ us, u.config.Has n → u.pub_key.bytes = k) →
        d'.route n = some k := by
  induction us generalizing d with
  | nil =>
    cases hd
    exact ⟨by simp, fun _ _ => rfl, by simp⟩
  | cons u us ih =>
    obtain ⟨d₁, hfirst, hrest⟩ := Outcome.bind_eq_ok.mp hd
    obtain ⟨hfresh, hnodup'⟩ := List.nodup_cons.mp hnodup
    obtain ⟨hsets, hhas, hhasnot⟩ :=
      update_peer_installs h (hremove u List.mem_cons_self) hfirst
    have h₁ := h.update_peer hfirst
    have hkept := (commits_settings h₁ hrest hnodup').2
    obtain ⟨ih₁, ih₂, ih₃⟩ :=
      ih h₁ hrest (fun v hv => hremove v (List.mem_cons_of_mem _ hv)) hnodup'
    refine ⟨fun v hv => ?_, fun n hn => ?_, fun n k hn hk => ?_⟩
    · rcases List.mem_cons.mp hv with rfl | hv
      · rw [hkept _ hfresh]
        exact hsets
      · exact ih₁ v hv
    · rw [ih₂ n fun v hv => hn v (List.mem_cons_of_mem _ hv), hhasnot n (hn u List.mem_cons_self)]
    · by_cases hlater : ∃ v ∈ us, v.config.Has n
      · exact ih₃ n k hlater fun v hv => hk v (List.mem_cons_of_mem _ hv)
      · -- the first peer is the only one with this network
        obtain ⟨v, hv, hvn⟩ := hn
        rcases List.mem_cons.mp hv with rfl | hv
        · rw [ih₂ n fun w hw hwn => hlater ⟨w, hw, hwn⟩, hhas n hvn,
            hk v List.mem_cons_self hvn]
        · exact absurd ⟨v, hv, hvn⟩ hlater

/-! ## Section 4: The round trip -/

/-- Settings that were restored from their text. -/
structure PeerSettings.Restored (x y : PeerSettings) : Prop where
  endpoint : y.endpoint = x.endpoint.map SocketAddr.unlabelled
  preshared_key : y.preshared_key = x.preshared_key
  tunnel_preshared_key : y.tunnel_preshared_key = x.tunnel_preshared_key
  persistent_keepalive : y.persistent_keepalive = x.persistent_keepalive
  allowed_ips : ∀ n, y.allowed_ips.lookup n = x.allowed_ips.lookup n

/-- Every network of a current peer leads to it. -/
def Entered (d : Device C) : Prop :=
  ∀ (n : IpNetwork) (r : PeerRef) (p : Peer C), d.HasPeer r → d.heap[r]? = some p →
    p.allowed_ips.lookup n = some () → d.peers_by_ip.lookup n = some r

/-- A device with the same peers, up to the flow labels of their endpoints; it has the same routes
    when no peer has lost one of its own. -/
structure Restores (d d' : Device C) : Prop where
  peers : ∀ k, Option.Rel PeerSettings.Restored (d.settings k) (d'.settings k)
  routes : d.Entered → ∀ n, d'.route n = d.route n

/-- The entries for a peer's networks stand for these networks. -/
theorem config_has {n : IpNetwork} :
    (p.config it).Has n ↔ p.allowed_ips.lookup n = some () := by
  have hkeys : n ∈ it.networks p.allowed_ips ↔ p.allowed_ips.lookup n = some () := by
    rw [(it.networks_perm p.allowed_ips).mem_iff]
    exact AList.mem_keys.symm.trans (AList.lookup_isSome.symm.trans (by
      rw [Option.isSome_iff_exists]
      exact ⟨fun ⟨_, hu⟩ => hu, fun hu => ⟨_, hu⟩⟩))
  rw [← hkeys]
  constructor
  · rintro ⟨ip, hip, hnet⟩
    obtain ⟨m, hm, rfl⟩ := List.mem_map.mp hip
    rw [IpNetwork.network_allowed_ip] at hnet
    exact Option.some.inj hnet ▸ hm
  · intro hn
    exact ⟨_, List.mem_map_of_mem hn, n.network_allowed_ip⟩

/-- The settings of a peer that was added with what is said about another one. -/
theorem PeerConfig.Sets.restored (hp : p.Configured) {x : Option PeerSettings}
    (hsets : (p.config it).Sets x) : ∃ y, x = some y ∧ p.settings.Restored y := by
  obtain ⟨table, htable, rfl⟩ := hsets
  refine ⟨_, rfl, rfl, rfl, hp.preshared_key.symm, ?_, fun n => ?_⟩
  · have hlt := hp.keepalive
    show (p.tunnel.persistent_keepalive.getD 0).toNat = p.tunnel.timers.persistent_keepalive
    by_cases hzero : 0 < p.tunnel.timers.persistent_keepalive
    · simp only [Tunn.persistent_keepalive, if_pos hzero, Option.getD_some, UInt16.toNat_ofNat']
      exact Nat.mod_eq_of_lt hlt
    · simp only [Tunn.persistent_keepalive, if_neg hzero, Option.getD_none]
      exact (Nat.eq_zero_of_not_pos hzero).symm
  · have hlookup := AllowedIps.lookup_insert_all htable (n := n) (d := ())
    have hhas : (∃ ip ∈ (p.config it).allowed_ips, ip.network = some n) ↔
        p.allowed_ips.lookup n = some () := config_has
    have hempty : (AllowedIps.new : AllowedIps Unit).lookup n = none := rfl
    simp only [hempty, hhas, and_true, reduceCtorEq, and_false, or_false] at hlookup
    show table.lookup n = p.allowed_ips.lookup n
    apply Option.ext
    intro u
    cases u
    exact hlookup

/-- One exchange for each of these commands, with the replies. -/
def exchanges (B : Build) (P : Parsers) (F : Printers) (it : Iteration) (envs : Nat → Answers)
    (d : Device C) (m : Nat) : List (List String) → Outcome (List (List String) × Device C)
  | [] => .ok ([], d)
  | cmd :: cmds => do
    let (reply, d) ← d.api_exchange B P F it (envs m)
      (.new (streamOf ("set=1" :: cmd ++ [""])) false)
    let (replies, d) ← d.exchanges B P F it envs (m + 1) cmds
    return (reply :: replies, d)

/-- An exchange with a set command. -/
theorem exchange_section (env : Answers) (s : PeerSection P) :
    d.api_exchange B P F it env (.new (streamOf ("set=1" :: s.lines ++ [""])) false) =
      d.api_set B P env.world 0 (.new (sectionsStream [s]) false) >>= fun x =>
        .ok (["errno=" ++ x.1.repr, ""], x.2) := by
  have hlines : ∀ l ∈ "set=1" :: s.lines ++ [""], 10 ∉ Str.bytes l := by
    intro l hl
    rcases List.mem_append.mp hl with hl | hl
    · rcases List.mem_cons.mp hl with rfl | hl
      · decide
      · exact s.newline_lines l hl
    · cases List.mem_singleton.mp hl
      decide
  have hreader : Reader.new (streamOf ("set=1" :: s.lines ++ [""])) false =
      some ("set=1" ++ "\n") :: Reader.new (sectionsStream [s]) false := by
    rw [new_sectionsStream]
    refine (Reader.new_lines hlines).trans ?_
    simp [readerOf]
  rw [hreader]
  simp only [api_exchange, List.headD_cons, Option.getD_some, Str.pop_newline, List.tail_cons]
  cases d.api_set B P env.world 0 (.new (sectionsStream [s]) false) with
  | panic msg => rfl
  | ok x => rfl

/-- The exchanges of a client are the commands of `api_sets`, with the statuses as text. -/
theorem exchanges_eq (envs : Nat → Answers) (m : Nat) (sections : List (PeerSection P)) :
    d.exchanges B P F it envs m (sections.map PeerSection.lines) =
      d.api_sets B (fun m => (envs m).world) m sections >>= fun x =>
        .ok (x.1.map fun status => ["errno=" ++ status.repr, ""], x.2) := by
  induction sections generalizing d m with
  | nil => rfl
  | cons s sections ih =>
    rw [List.map_cons, exchanges, exchange_section, api_sets]
    cases d.api_set B P (envs m).world 0 (.new (sectionsStream [s]) false) with
    | panic msg => rfl
    | ok x =>
      simp only [Outcome.ok_bind, ih]
      cases x.2.api_sets B (fun m => (envs m).world) (m + 1) sections with
      | panic msg => rfl
      | ok y => rfl

/-- The reply to a get command. -/
theorem exchange_get (env : Answers) : d.api_exchange B P F it env
    (.new (streamOf ["get=1", ""]) false) = d.api_get B F it env.clock >>= fun x =>
      .ok (x.2 ++ ["errno=" ++ x.1.repr, ""], d) := by
  have hreader : Reader.new (streamOf ["get=1", ""]) false =
      [some ("get=1" ++ "\n"), some ("" ++ "\n")] :=
    Reader.new_lines (by decide)
  rw [hreader]
  simp only [api_exchange, List.headD_cons, Option.getD_some, Str.pop_newline]
  cases d.api_get B F it env.clock with
  | panic msg => rfl
  | ok x => rfl

theorem errno_zero : "errno=" ++ (0 : Nat).repr = "errno=0" := by decide

/-- A device without peers has no routes. -/
theorem route_of_no_peers (h : d.Tables) (hempty : d.peers = ∅) (n : IpNetwork) :
    d.route n = none := by
  have hnone : d.peers_by_ip.lookup n = none := by
    refine Option.eq_none_iff_forall_ne_some.mpr fun r hr => ?_
    obtain ⟨k, hk⟩ := h.peers_by_ip hr
    rw [hempty] at hk
    cases hk
  rw [route, hnone]
  rfl

section restored
variable {sections : List (PeerSection P)} (htables : d.Tables)
  (hsections : Describes it d (it.peers d.peers) sections)
include hsections

/-- The entries of `peers`, whatever their order. -/
theorem Describes.keys_nodup : (sections.map fun s => s.key.bytes).Nodup := by
  rw [hsections.keys]
  exact ((it.peers_perm d.peers).map Sigma.fst).nodup_iff.mpr d.peers.nodupKeys

theorem Describes.peer {s : PeerSection P} (hs : s ∈ sections) :
    ∃ r p, d.peers.lookup s.key.bytes = some r ∧ d.heap[r]? = some p ∧ s.config = p.config it := by
  obtain ⟨r, p, hmem, hp, hconfig⟩ := hsections.config s hs
  have hentry := (it.peers_perm d.peers).mem_iff.mp hmem
  exact ⟨r, p, AList.mem_lookup_iff.mpr hentry, hp, hconfig⟩

/-- Every peer has its section. -/
theorem Describes.of_peer {k : Bytes} {r : PeerRef} (hr : d.peers.lookup k = some r) :
    ∃ s ∈ sections, s.key.bytes = k := by
  have hentry : ⟨k, r⟩ ∈ it.peers d.peers :=
    (it.peers_perm d.peers).mem_iff.mpr (AList.mem_lookup_iff.mp hr)
  have hkey : k ∈ sections.map fun s => s.key.bytes := by
    rw [hsections.keys]
    exact List.mem_map_of_mem (f := Sigma.fst) hentry
  exact List.mem_map.mp hkey

include htables

/-- **The commits of a reply restore the peers and their routes.** -/
theorem Describes.restores (howned : d.Owned) (hconfigured : d.Configured) {d₁ d₂ : Device C}
    (htables₁ : d₁.Tables) (hempty : d₁.peers = ∅) {worlds : Nat → Nat → ApiEnv} {m : Nat}
    (hd : d₁.commits (ownUpdates worlds m sections) = .ok d₂) : d.Restores d₂ := by
  have hcommits := ownUpdates_commit worlds m sections
  have hkeys := ownUpdates_keys worlds m sections
  have hnodup := hkeys ▸ hsections.keys_nodup
  -- an update belongs to a peer of the device, and every peer has one
  have hupdate : ∀ u ∈ ownUpdates worlds m sections, ∃ r p,
      d.peers.lookup u.pub_key.bytes = some r ∧ d.heap[r]? = some p ∧ u.config = p.config it := by
    intro u hu
    obtain ⟨s, hs, heq⟩ := List.mem_map.mp (hcommits ▸ List.mem_map_of_mem hu)
    obtain ⟨hkey, hconfig⟩ := Prod.mk.inj heq
    rw [← hkey, ← hconfig]
    exact hsections.peer hs
  have hpeer : ∀ {k r}, d.peers.lookup k = some r →
      ∃ u ∈ ownUpdates worlds m sections, u.pub_key.bytes = k := by
    intro k r hr
    obtain ⟨s, hs, hk⟩ := hsections.of_peer hr
    exact List.mem_map.mp (hkeys ▸ hk ▸ List.mem_map_of_mem (f := fun s => s.key.bytes) hs)
  have hremove : ∀ u ∈ ownUpdates worlds m sections, u.config.remove = false := by
    intro u hu
    obtain ⟨_, _, _, _, hconfig⟩ := hupdate u hu
    rw [hconfig]
    rfl
  obtain ⟨hsets, hother, hroute⟩ := commits_install htables₁ hd hremove hnodup
  constructor
  · intro k
    cases hr : d.peers.lookup k with
    | none =>
      have hmissing : k ∉ (ownUpdates worlds m sections).map fun u => u.pub_key.bytes := by
        intro hk
        obtain ⟨u, hu, rfl⟩ := List.mem_map.mp hk
        obtain ⟨r, _, hlookup, _⟩ := hupdate u hu
        rw [hr] at hlookup
        cases hlookup
      have hkept := (commits_settings htables₁ hd hnodup).2 k hmissing
      have hnone : d₁.settings k = none := by
        rw [settings, hempty]
        rfl
      rw [hkept, hnone, settings, hr]
      exact .none
    | some r =>
      obtain ⟨u, hu, rfl⟩ := hpeer hr
      obtain ⟨r', p, hr', hp, hconfig⟩ := hupdate u hu
      obtain rfl := Option.some.inj (hr.symm.trans hr')
      have hset := hsets u hu
      rw [hconfig] at hset
      obtain ⟨y, hy, hrestored⟩ := hset.restored (hconfigured r p hp)
      have hsettings : d.settings u.pub_key.bytes = some p.settings := by
        simp only [settings, hr, Option.bind_some, hp, Option.map_some]
      rw [hsettings, hy]
      exact .some hrestored
  · intro hentered n
    have hhas : ∀ u ∈ ownUpdates worlds m sections, u.config.Has n → ∃ r,
        d.peers.lookup u.pub_key.bytes = some r ∧ d.peers_by_ip.lookup n = some r := by
      intro u hu hn
      obtain ⟨r, p, hr, hp, hconfig⟩ := hupdate u hu
      rw [hconfig, config_has] at hn
      exact ⟨r, hr, hentered n r p ⟨_, hr⟩ hp hn⟩
    cases hold : d.peers_by_ip.lookup n with
    | none =>
      have hnot : ∀ u ∈ ownUpdates worlds m sections, ¬ u.config.Has n := by
        intro u hu hn
        obtain ⟨r, _, hsome⟩ := hhas u hu hn
        rw [hold] at hsome
        cases hsome
      rw [hother n hnot, route_of_no_peers htables₁ hempty, route, hold]
      rfl
    | some r =>
      -- the network belongs to a peer of the device, and to no other one
      obtain ⟨k, hk⟩ := htables.peers_by_ip hold
      obtain ⟨p, hfiled⟩ := htables.peers hk
      obtain ⟨u, hu, huk⟩ := hpeer hk
      obtain ⟨r', p', hr', hp', hconfig⟩ := hupdate u hu
      rw [huk, hk] at hr'
      obtain rfl := Option.some.inj hr'
      have hun : u.config.Has n := by
        rw [hconfig, config_has]
        exact howned n r p' hold hp'
      have hunique : ∀ v ∈ ownUpdates worlds m sections, v.config.Has n →
          v.pub_key.bytes = k := by
        intro v hv hvn
        obtain ⟨r₁, hr₁, hn₁⟩ := hhas v hv hvn
        obtain rfl := Option.some.inj (hold.symm.trans hn₁)
        exact htables.key_inj hr₁ hk
      rw [hroute n k ⟨u, hu, hun⟩ hunique, route, hold, Option.bind_some, hfiled.heap,
        Option.map_some, hfiled.key]

end restored

/-- Addresses as numbers, which are even for the first version of the protocol. -/
def numberPrinters : Printers where
  ip_addr
    | .V4 ip => (2 * ip.toNat).repr
    | .V6 ip => (2 * ip.toNat + 1).repr
  socket_addr
    | .V4 ip port => (2 * (2 ^ 16 * ip.toNat + port.toNat)).repr
    | .V6 ip port _ scope_id =>
      (2 * (2 ^ 48 * ip.toNat + 2 ^ 32 * port.toNat + scope_id.toNat) + 1).repr

def numberParsers : Parsers where
  ip_addr s := (Str.parse_unsigned (2 ^ 200) s).map fun n =>
    if n % 2 = 0 then .V4 (BitVec.ofNat 32 (n / 2)) else .V6 (BitVec.ofNat 128 (n / 2))
  socket_addr s := (Str.parse_unsigned (2 ^ 200) s).map fun n =>
    if n % 2 = 0 then .V4 (BitVec.ofNat 32 (n / 2 ^ 17)) (UInt16.ofNat (n / 2 % 2 ^ 16))
    else .V6 (BitVec.ofNat 128 (n / 2 ^ 49)) (UInt16.ofNat (n / 2 ^ 33 % 2 ^ 16)) 0
      (UInt32.ofNat (n / 2 % 2 ^ 32))

theorem numberPrinters_readBy : numberPrinters.ReadBy numberParsers where
  ip_addr := by
    intro a
    cases a with
    | V4 ip =>
      have hlt := ip.isLt
      have hread : Str.parse_unsigned (2 ^ 200) (2 * ip.toNat).repr = some (2 * ip.toNat) :=
        Str.parse_unsigned_repr (by omega)
      simp only [numberPrinters, numberParsers, hread, Option.map_some, Nat.mul_mod_right, if_true,
        Nat.mul_div_cancel_left _ Nat.two_pos, BitVec.ofNat_toNat, BitVec.setWidth_eq]
    | V6 ip =>
      have hlt := ip.isLt
      have hread : Str.parse_unsigned (2 ^ 200) (2 * ip.toNat + 1).repr =
          some (2 * ip.toNat + 1) :=
        Str.parse_unsigned_repr (by omega)
      have hhalf : (2 * ip.toNat + 1) / 2 = ip.toNat := by omega
      have hodd : ¬ (2 * ip.toNat + 1) % 2 = 0 := by omega
      simp only [numberPrinters, numberParsers, hread, Option.map_some, if_neg hodd, hhalf,
        BitVec.ofNat_toNat, BitVec.setWidth_eq]
  socket_addr := by
    intro a
    cases a with
    | V4 ip port =>
      have hip := ip.isLt
      have hport := port.toNat_lt
      have hread : Str.parse_unsigned (2 ^ 200) (2 * (2 ^ 16 * ip.toNat + port.toNat)).repr =
          some (2 * (2 ^ 16 * ip.toNat + port.toNat)) :=
        Str.parse_unsigned_repr (by omega)
      have heven : 2 * (2 ^ 16 * ip.toNat + port.toNat) % 2 = 0 := by omega
      have hhigh : 2 * (2 ^ 16 * ip.toNat + port.toNat) / 2 ^ 17 = ip.toNat := by omega
      have hlow : 2 * (2 ^ 16 * ip.toNat + port.toNat) / 2 % 2 ^ 16 = port.toNat := by omega
      simp only [numberPrinters, numberParsers, hread, Option.map_some, heven, if_true, hhigh, hlow,
        BitVec.ofNat_toNat, BitVec.setWidth_eq, UInt16.ofNat_toNat, SocketAddr.unlabelled]
    | V6 ip port flowinfo scope_id =>
      have hip := ip.isLt
      have hport := port.toNat_lt
      have hscope := scope_id.toNat_lt
      generalize hn : 2 * (2 ^ 48 * ip.toNat + 2 ^ 32 * port.toNat + scope_id.toNat) + 1 = n
      have hread : Str.parse_unsigned (2 ^ 200) n.repr = some n :=
        Str.parse_unsigned_repr (by omega)
      have hodd : ¬ n % 2 = 0 := by omega
      have hhigh : n / 2 ^ 49 = ip.toNat := by omega
      have hmiddle : n / 2 ^ 33 % 2 ^ 16 = port.toNat := by omega
      have hlow : n / 2 % 2 ^ 32 = scope_id.toNat := by omega
      simp only [numberPrinters, numberParsers, hn, hread, Option.map_some, if_neg hodd, hhigh,
        hmiddle, hlow, BitVec.ofNat_toNat, BitVec.setWidth_eq, UInt16.ofNat_toNat,
        UInt32.ofNat_toNat, SocketAddr.unlabelled]
  ip_plain := by
    intro a
    cases a with
    | V4 ip =>
      exact ⟨(Str.alnum_repr _).not_mem (by decide), (Str.alnum_repr _).not_mem (by decide)⟩
    | V6 ip =>
      exact ⟨(Str.alnum_repr _).not_mem (by decide), (Str.alnum_repr _).not_mem (by decide)⟩
  socket_plain := by
    intro a
    cases a with
    | V4 ip port => exact (Str.alnum_repr _).not_mem (by decide)
    | V6 ip port flowinfo scope_id => exact (Str.alnum_repr _).not_mem (by decide)

/-- The order of the entries in the model. -/
def entryOrder : Iteration where
  peers t := t.entries
  networks t := t.keys
  peers_perm := fun _ => .refl _
  networks_perm := fun _ => .refl _

/-- A peer with all settings, reached over IPv6. -/
def fullConfig : PeerConfig where
  remove := false
  replace_ips := false
  endpoint := some (.V6 1 7 9 2)
  allowed_ips := [net10]
  keepalive := some 25
  preshared_key := some (List.replicate 32 34)

end Device

end PqBoringtun
