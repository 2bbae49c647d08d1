import PqBoringtun.Device.Lines

/-! # The last line of a set command

    Both loops of the set command drop the last character of what
    `read_line` gave, whether it is a newline or not.  When a stream ends
    without a newline, its last line is read without its last character.

    * Section 1: commits that do the same.
    * Section 2: lines that are read the same without their last character.
    * Section 3: the streams for which a newline at the end makes no
      difference (`Device.last_line_iff`), and one for which it does.
-/

namespace PqBoringtun

namespace Device

variable {C : Crypto} {B : Build} {P : Parsers} {d d' : Device C} {config config' : PeerConfig}
  {pub_key pub_key' : PublicKey}

/-! ## Section 1: Commits -/

/-- A peer is added with the same settings, up to the order and the spelling of its addresses. -/
structure AddsAlike (d : Device C) (config config' : PeerConfig) : Prop where
  endpoint : config.endpoint = config'.endpoint
  preshared_key : config.preshared_key = config'.preshared_key
  keepalive : config.keepalive.getD 0 = config'.keepalive.getD 0
  allowed_ips : AllowedIps.from_iter config.allowed_ips () =
    AllowedIps.from_iter config'.allowed_ips ()
  routes : d.peers_by_ip.insert_all config.allowed_ips d.heap.length =
    d.peers_by_ip.insert_all config'.allowed_ips d.heap.length

/-- Two commits do the same: both panic, both remove the same peer or none, or both add the same
    peer. -/
def CommitsAlike (d : Device C) (pub_key : PublicKey) (config : PeerConfig) (pub_key' : PublicKey)
    (config' : PeerConfig) (new : NewEnv) : Prop :=
  (¬ d.outline.Allows (.update_peer pub_key config new) ∧
    ¬ d.outline.Allows (.update_peer pub_key' config' new)) ∨
  (config.remove = true ∧ config'.remove = true ∧ (pub_key = pub_key' ∨
    d.outline.configured pub_key.bytes = false ∧ d.outline.configured pub_key'.bytes = false)) ∨
  (config.remove = false ∧ config'.remove = false ∧ pub_key = pub_key' ∧ d.AddsAlike config config')

theorem PublicKey.eq_of_bytes (h : pub_key.bytes = pub_key'.bytes) : pub_key = pub_key' := by
  cases pub_key
  cases pub_key'
  cases h
  rfl

/-- Removing tells peers apart, if one of them is there. -/
theorem remove_peer_same_iff (h : d.Tables) :
    d.remove_peer pub_key = d.remove_peer pub_key' ↔ pub_key = pub_key' ∨
      d.outline.configured pub_key.bytes = false ∧ d.outline.configured pub_key'.bytes = false := by
  constructor
  · intro heq
    by_cases hkey : pub_key.bytes = pub_key'.bytes
    · exact Or.inl (PublicKey.eq_of_bytes hkey)
    · have houtline := congrArg outline heq
      rw [remove_peer_outline h, remove_peer_outline h] at houtline
      have hconfigured : Function.update d.outline.configured pub_key.bytes false =
          Function.update d.outline.configured pub_key'.bytes false :=
        congrArg Outline.configured houtline
      have hleft := congrFun hconfigured pub_key.bytes
      have hright := congrFun hconfigured pub_key'.bytes
      rw [Function.update_self, Function.update_of_ne hkey] at hleft
      rw [Function.update_self, Function.update_of_ne (Ne.symm hkey)] at hright
      exact Or.inr ⟨hleft.symm, hright⟩
  · rintro (rfl | ⟨hnone, hnone'⟩)
    · rfl
    · rw [remove_peer_of_unknown (by simpa [outline] using hnone),
        remove_peer_of_unknown (by simpa [outline] using hnone')]

/-- What is added for a new peer. -/
theorem update_peer_adds (hvalid : config.Valid) (hremove : config.remove = false) (new : NewEnv)
    {index : UInt32} {generator : IndexLfsr} {keys : Bytes × Bytes}
    (hnew : d.peers.lookup pub_key.bytes = none)
    (hnext : d.next_index.next = .ok (index, generator)) (hkeys : d.key_pair = some keys) :
    ∃ table by_ip, AllowedIps.from_iter config.allowed_ips () = .ok table ∧
      d.peers_by_ip.insert_all config.allowed_ips d.heap.length = .ok by_ip ∧
      d.update_peer pub_key config new = .ok { d with
        next_index := generator
        heap := d.heap ++ [⟨new_tunnel keys.1 pub_key config index new, index,
          ⟨config.endpoint, none⟩,
          table, config.preshared_key⟩]
        peers := d.peers.insert pub_key.bytes d.heap.length
        peers_by_idx := d.peers_by_idx.insert index d.heap.length
        peers_by_ip := by_ip } := by
  obtain ⟨table, htable⟩ := AllowedIps.insert_all_returns AllowedIps.new () hvalid
  obtain ⟨by_ip, hby_ip⟩ := AllowedIps.insert_all_returns d.peers_by_ip d.heap.length hvalid
  exact ⟨table, by_ip, htable, hby_ip,
    update_peer_of_new hremove hnew hnext hkeys htable hby_ip new⟩

/-- Two peers are added alike: they have the same key and the same settings. -/
theorem add_peer_same_iff (hvalid : config.Valid) (hvalid' : config'.Valid) {new : NewEnv}
    (hremove : config.remove = false) (hremove' : config'.remove = false)
    (hallows : d.outline.Allows (.update_peer pub_key config new))
    (hallows' : d.outline.Allows (.update_peer pub_key' config' new)) :
    (d.update_peer pub_key config new).Same (d.update_peer pub_key' config' new) ↔
      pub_key = pub_key' ∧ d.AddsAlike config config' := by
  obtain ⟨hnew, hkeyed, ⟨index, generator⟩, hnext⟩ :=
    hallows.resolve_left (by rw [hremove]; exact Bool.false_ne_true)
  obtain ⟨hnew', _⟩ := hallows'.resolve_left (by rw [hremove']; exact Bool.false_ne_true)
  obtain ⟨keys, hkeys⟩ := Option.isSome_iff_exists.mp hkeyed
  have hnone : d.peers.lookup pub_key.bytes = none := by simpa [outline] using hnew
  have hnone' : d.peers.lookup pub_key'.bytes = none := by simpa [outline] using hnew'
  obtain ⟨table, by_ip, htable, hby_ip, hadds⟩ :=
    update_peer_adds hvalid hremove new hnone hnext hkeys
  obtain ⟨table', by_ip', htable', hby_ip', hadds'⟩ :=
    update_peer_adds hvalid' hremove' new hnone' hnext hkeys
  rw [hadds, hadds', Outcome.same_ok]
  constructor
  · intro heq
    have hkey : pub_key.bytes = pub_key'.bytes := by
      by_contra hne
      have hlookup := congrArg (fun d : Device C => d.peers.lookup pub_key.bytes) heq
      simp only [AList.lookup_insert, AList.lookup_insert_ne hne, hnone] at hlookup
      cases hlookup
    have hpeer := List.append_cancel_left (congrArg Device.heap heq)
    obtain ⟨htunnel, _, hendpoint, htables, hpreshared⟩ := Peer.mk.inj (List.cons.inj hpeer).1
    have hkeepalive := congrArg (fun t : Tunn C => t.timers.persistent_keepalive) htunnel
    refine ⟨PublicKey.eq_of_bytes hkey, ?_, hpreshared, UInt16.toNat_inj.mp hkeepalive, ?_, ?_⟩
    · exact (Endpoint.mk.inj hendpoint).1
    · rw [htable, htable', htables]
    · rw [hby_ip, hby_ip']
      exact congrArg Outcome.ok (congrArg Device.peers_by_ip heq)
  · rintro ⟨rfl, hsame⟩
    have htables : table = table' := Outcome.ok.inj
        (htable.symm.trans (hsame.allowed_ips.trans htable'))
    have hroutes : by_ip = by_ip' := Outcome.ok.inj (hby_ip.symm.trans (hsame.routes.trans hby_ip'))
    have htunnel : new_tunnel (C := C) keys.1 pub_key config index new =
        new_tunnel keys.1 pub_key config' index new := by
      simp only [new_tunnel, Tunn.new, Timers.new, hsame.preshared_key, hsame.keepalive]
    rw [htables, hroutes, htunnel, hsame.endpoint, hsame.preshared_key]

/-- Adding a peer is not the same as removing one: the peers created so far are kept. -/
theorem not_same_remove_add (hremove : config.remove = true) (hremove' : config'.remove = false)
    (new : NewEnv) :
    ¬ (d.update_peer pub_key config new).Same (d.update_peer pub_key' config' new) := by
  intro hsame
  have hremoved : d.update_peer pub_key config new = .ok (d.remove_peer pub_key) := by
    rw [update_peer, if_pos hremove]
  have hlength : (d.remove_peer pub_key).heap.length = d.heap.length := by
    unfold remove_peer
    split
    · rfl
    · split
      · rfl
      · simp [put]
  have hadded := (hsame _).mp hremoved
  generalize d.remove_peer pub_key = d₁ at hadded hlength
  obtain ⟨_, _, _, _, _, _, _, _, _, _, rfl⟩ := update_peer_new hadded hremove'
  simp at hlength

/-- **When two commits do the same.** -/
theorem update_peer_same_iff (h : d.Tables) (hvalid : config.Valid) (hvalid' : config'.Valid)
    (new : NewEnv) :
    (d.update_peer pub_key config new).Same (d.update_peer pub_key' config' new) ↔
      d.CommitsAlike pub_key config pub_key' config' new := by
  cases hremove : config.remove with
  | true =>
    cases hremove' : config'.remove with
    | true =>
      rw [update_peer, if_pos hremove, update_peer, if_pos hremove', Outcome.same_ok,
        remove_peer_same_iff h]
      simp [CommitsAlike, Outline.Allows, hremove, hremove']
    | false =>
      refine iff_of_false (not_same_remove_add hremove hremove' new) ?_
      simp [CommitsAlike, Outline.Allows, hremove, hremove']
  | false =>
    cases hremove' : config'.remove with
    | true =>
      refine iff_of_false (fun hsame => not_same_remove_add hremove' hremove new hsame.symm) ?_
      simp [CommitsAlike, Outline.Allows, hremove, hremove']
    | false =>
      have hreturns := update_peer_returns_iff (d := d) hvalid pub_key new
      have hreturns' := update_peer_returns_iff (d := d) hvalid' pub_key' new
      have hkey : pub_key = pub_key' → (d.outline.Allows (.update_peer pub_key config new) ↔
          d.outline.Allows (.update_peer pub_key' config' new)) := by
        rintro rfl
        simp [Outline.Allows, hremove, hremove']
      by_cases hallows : d.outline.Allows (.update_peer pub_key config new)
      · by_cases hallows' : d.outline.Allows (.update_peer pub_key' config' new)
        · rw [add_peer_same_iff hvalid hvalid' hremove hremove' hallows hallows']
          simp [CommitsAlike, hremove, hremove', hallows]
        · refine iff_of_false (fun hsame => ?_) ?_
          · obtain ⟨d₁, hd₁⟩ := hreturns.mpr hallows
            exact hallows' (hreturns'.mp ⟨d₁, (hsame d₁).mp hd₁⟩)
          · rintro (⟨hnot, _⟩ | ⟨htrue, _⟩ | ⟨_, _, heq, _⟩)
            · exact hnot hallows
            · exact Bool.false_ne_true (hremove.symm.trans htrue)
            · exact hallows' ((hkey heq).mp hallows)
      · by_cases hallows' : d.outline.Allows (.update_peer pub_key' config' new)
        · refine iff_of_false (fun hsame => ?_) ?_
          · obtain ⟨d₁, hd₁⟩ := hreturns'.mpr hallows'
            exact hallows (hreturns.mp ⟨d₁, (hsame d₁).mpr hd₁⟩)
          · rintro (⟨_, hnot⟩ | ⟨htrue, _⟩ | ⟨_, _, heq, _⟩)
            · exact hnot hallows'
            · exact Bool.false_ne_true (hremove.symm.trans htrue)
            · exact hallows ((hkey heq).mpr hallows')
        · refine iff_of_true (fun d₁ => iff_of_false ?_ ?_) (Or.inl ⟨hallows, hallows'⟩)
          · exact fun hd₁ => hallows (hreturns.mp ⟨d₁, hd₁⟩)
          · exact fun hd₁ => hallows' (hreturns'.mp ⟨d₁, hd₁⟩)

/-! ## Section 2: Without the last character -/

/-- Two ways to read a line are alike: both reject it with the same status, or both accept it, and
    what they read is alike. -/
def ReadAlike {α : Type} (R : α → α → Prop) :
    Outcome (Except Nat α) → Outcome (Except Nat α) → Prop
  | .ok (.error status), .ok (.error status') => status = status'
  | .ok (.ok a), .ok (.ok a') => R a a'
  | _, _ => False

/-- The port the device listens on, if the sockets are bound. -/
def ApiEnv.port (w : ApiEnv) (port : Nat) : Option Nat :=
  (w.bound port).map fun assigned => if port = 0 then assigned else port

/-- Two lines of `api_set` do the same in front of the end of file: `w` is what the environment
    answers at the line, `w'` at the end of file. -/
def SetLine.Alike (d : Device C) (w w' : ApiEnv) : SetLine → SetLine → Prop
  | .private_key k, .private_key k' => k.bytes = k'.bytes ∨
    some (C.x25519_public k.bytes) = d.key_pair.map Prod.snd ∧
      some (C.x25519_public k'.bytes) = d.key_pair.map Prod.snd
  | .listen_port port, .listen_port port' => w.port port = w.port port'
  | .fwmark mark, .fwmark mark' => mark = mark'
  | .replace_peers replace, .replace_peers replace' => replace = replace'
  | .public_key k, .public_key k' =>
    d.CommitsAlike k.public_key .start k'.public_key .start w'.new
  | _, _ => False

/-- Two lines of `api_set_peer` do the same in front of the end of file. -/
def PeerLine.Alike (d : Device C) (public_key : PublicKey) (config : PeerConfig) (w w' : ApiEnv) :
    PeerLine → PeerLine → Prop
  | .setting config, .setting config' => d.CommitsAlike public_key config public_key config' w'.new
  | .next val, .next val' => ∀ d₁, d.update_peer public_key config w.new = .ok d₁ →
    ReadAlike (fun k k' => d₁.CommitsAlike k.public_key { config with allowed_ips := [] }
      k'.public_key { config with allowed_ips := [] } w'.new) (read_key val) (read_key val')
  | _, _ => False

/-- A last line does the same without its last character. -/
def SetState.Alike (P : Parsers) (w w' : ApiEnv) (x : String) (s : SetState C) : Prop :=
  Str.pop x ≠ "" ∧
    match s with
    | .command d => ReadAlike (SetLine.Alike d w w') (read_set (Str.pop x)) (read_set x)
    | .peer d public_key config => ReadAlike (PeerLine.Alike d public_key config w w')
        (read_peer P config (Str.pop x)) (read_peer P config x)

/-- The end of file behind a line. -/
def Verdict.finish (w : ApiEnv) : Verdict C → Outcome (Nat × Device C)
  | .ok s => s.finish w
  | .error result => .ok result

section readings
variable {α : Type} {act : α → Outcome (Verdict C)} {reading reading' : Outcome (Except Nat α)}
  {w : ApiEnv} {R : α → α → Prop}

/-- **Two readings of a line are carried out the same if they are alike**, when at most one of them
    panics, and no accepted line does what a rejected one does. -/
theorem carryOut_same_iff
    (hpanic : ∀ msg, reading = .panic msg → ∃ status, reading' = .ok (.error status))
    (hpanic' : ∀ msg, reading' = .panic msg → ∃ status, reading = .ok (.error status))
    (hmixed : ∀ status a, reading = .ok (.error status) → reading' = .ok (.ok a) →
      (act a >>= Verdict.finish w) ≠ .ok (status, d))
    (hmixed' : ∀ status a, reading' = .ok (.error status) → reading = .ok (.ok a) →
      (act a >>= Verdict.finish w) ≠ .ok (status, d))
    (hboth : ∀ a a', reading = .ok (.ok a) → reading' = .ok (.ok a') →
      ((act a >>= Verdict.finish w).Same (act a' >>= Verdict.finish w) ↔ R a a')) :
    (carryOut d act reading >>= Verdict.finish w).Same
    (carryOut d act reading' >>= Verdict.finish w) ↔
      ReadAlike R reading reading' := by
  rcases reading with (status | a) | msg
  · rcases reading' with (status' | a') | msg'
    · show Outcome.Same (.ok (status, d)) (.ok (status', d)) ↔ status = status'
      simp
    · refine iff_of_false (fun hsame => ?_) id
      exact hmixed status a' rfl rfl ((hsame (status, d)).mp rfl)
    · exact iff_of_false Outcome.not_same_ok_panic id
  · rcases reading' with (status' | a') | msg'
    · refine iff_of_false (fun hsame => ?_) id
      exact hmixed' status' a rfl rfl ((hsame (status', d)).mpr rfl)
    · exact hboth a a' rfl rfl
    · obtain ⟨status, hstatus⟩ := hpanic' msg' rfl
      cases hstatus
  · rcases reading' with (status' | a') | msg'
    · exact iff_of_false Outcome.not_same_panic_ok id
    · obtain ⟨status, hstatus⟩ := hpanic msg rfl
      cases hstatus
    · obtain ⟨status, hstatus⟩ := hpanic msg rfl
      cases hstatus

end readings

/-! ### Panics and statuses of readings -/

/-- A reading that panics, and one that is rejected. -/
def Opposed {α : Type} (reading reading' : Outcome (Except Nat α)) : Prop :=
  (∀ msg, reading = .panic msg → ∃ status, reading' = .ok (.error status)) ∧
    (∀ msg, reading' = .panic msg → ∃ status, reading = .ok (.error status))

theorem opposed_of_returns {α : Type} {reading reading' : Outcome (Except Nat α)}
    (h : ∀ msg, reading ≠ .panic msg) (h' : ∀ msg, reading' ≠ .panic msg) :
    Opposed reading reading' :=
  ⟨fun msg heq => absurd heq (h msg), fun msg heq => absurd heq (h' msg)⟩

theorem keyed_opposed {α : Type} (f : KeyBytes → α) (val : String) (c : Char) :
    Opposed (keyed f val) (keyed f (val ++ String.singleton c)) := by
  have hpanic : ∀ {v msg}, keyed f v = .panic msg → (KeyBytes.from_str v).run = .panic msg := by
    intro v msg h
    unfold keyed at h
    rcases hrun : (KeyBytes.from_str v).run with (e | k) | msg'
    · rw [hrun] at h
      cases h
    · rw [hrun] at h
      cases h
    · rw [hrun] at h
      cases h
      rfl
  have herror : ∀ {v e}, (KeyBytes.from_str v).run = .ok (.error e) →
      ∃ status, keyed f v = .ok (.error status) := by
    intro v e h
    refine ⟨EINVAL, ?_⟩
    rw [keyed, h]
    rfl
  exact ⟨fun msg h => herror (KeyBytes.from_str_panic_push.1 (hpanic h)),
    fun msg h => herror (KeyBytes.from_str_panic_push.2 (hpanic h))⟩

theorem set_line_opposed (key val : String) (c : Char) :
    Opposed (set_line key val) (set_line key (val ++ String.singleton c)) := by
  by_cases hprivate : key = "private_key"
  · subst hprivate
    exact keyed_opposed SetLine.private_key val c
  by_cases hpublic : key = "public_key"
  · subst hpublic
    exact keyed_opposed SetLine.public_key val c
  have hreturns : ∀ v msg, set_line key v ≠ .panic msg := by
    intro v msg h
    obtain ⟨text, htext, _⟩ := (set_line_panics_iff key v).mp ⟨msg, h⟩
    simp [set_line_texts, hprivate, hpublic] at htext
  exact opposed_of_returns (hreturns _) (hreturns _)

theorem set_peer_line_opposed (P : Parsers) (config : PeerConfig) (key val : String) (c : Char) :
    Opposed (set_peer_line P config key val)
      (set_peer_line P config key (val ++ String.singleton c)) := by
  by_cases hpreshared : key = "preshared_key"
  · subst hpreshared
    exact keyed_opposed (fun k => { config with preshared_key := some k.bytes }) val c
  have hreturns : ∀ v msg, set_peer_line P config key v ≠ .panic msg := by
    intro v msg h
    obtain ⟨text, htext, _⟩ := (set_peer_line_panics_iff P config key v).mp ⟨msg, h⟩
    simp [peer_line_texts, hpreshared] at htext
  exact opposed_of_returns (hreturns _) (hreturns _)

theorem keyed_rejects {α : Type} {f : KeyBytes → α} {val : String} {status : Nat}
    (h : keyed f val = .ok (.error status)) : status = EINVAL := by
  unfold keyed at h
  obtain ⟨res, _, h⟩ := Outcome.bind_eq_ok.mp h
  cases res with
  | error e =>
    cases h
    rfl
  | ok k => cases h

theorem set_line_rejects {key val : String} {status : Nat}
    (h : set_line key val = .ok (.error status)) : status = EINVAL := by
  unfold set_line at h
  split at h
  · exact keyed_rejects (f := SetLine.private_key) h
  · split at h <;> cases h
    rfl
  · split at h <;> cases h
    rfl
  · split at h <;> cases h
    rfl
  · exact keyed_rejects (f := SetLine.public_key) h
  · cases h
    rfl

theorem set_peer_line_rejects {key val : String} {status : Nat}
    (h : set_peer_line P config key val = .ok (.error status)) : status = EINVAL := by
  unfold set_peer_line at h
  split at h
  · split at h <;> cases h
    rfl
  · exact keyed_rejects (α := PeerConfig)
      (f := fun k => { config with preshared_key := some k.bytes }) h
  · split at h <;> cases h
    rfl
  · split at h <;> cases h
    rfl
  · split at h <;> cases h
    rfl
  · split at h <;> cases h
    rfl
  · split at h <;> cases h
    rfl
  · cases h
    rfl

theorem read_set_rejects {cmd : String} {status : Nat} (h : read_set cmd = .ok (.error status)) :
    status = EINVAL ∨ status = EPROTO := by
  unfold read_set at h
  split at h
  · exact Or.inl (set_line_rejects h)
  · cases h
    exact Or.inr rfl

/-- What is done at the end of file has the status zero. -/
theorem SetState.finish_status {w : ApiEnv} {s : SetState C} {status : Nat}
    (h : s.finish w = .ok (status, d')) : status = 0 := by
  cases s with
  | command d =>
    cases h
    rfl
  | peer d public_key config =>
    obtain ⟨d₁, _, h⟩ := Outcome.bind_eq_ok.mp h
    cases h
    rfl

theorem SetLine.act_status {w w' : ApiEnv} {l : SetLine} {status : Nat}
    (h : (l.act B w d >>= Verdict.finish w') = .ok (status, d')) :
    status = 0 ∨ status = EADDRINUSE := by
  obtain ⟨verdict, hact, hfinish⟩ := Outcome.bind_eq_ok.mp h
  cases verdict with
  | ok s => exact Or.inl (SetState.finish_status hfinish)
  | error result =>
    cases hfinish
    refine Or.inr ?_
    cases l with
    | private_key key_bytes =>
      obtain ⟨x, _, hact⟩ := Outcome.bind_eq_ok.mp hact
      cases hact
    | listen_port port =>
      unfold act at hact
      dsimp only at hact
      split at hact <;> cases hact
      rfl
    | fwmark mark =>
      unfold act at hact
      dsimp only at hact
      split at hact <;> cases hact
      rfl
    | replace_peers replace =>
      cases replace with
      | true => cases hact
      | false => cases hact
    | public_key key_bytes => cases hact

theorem PeerLine.act_status {w w' : ApiEnv} {l : PeerLine} {status : Nat}
    (h : (l.act w d pub_key config >>= Verdict.finish w') = .ok (status, d')) :
    status = 0 ∨ status = EINVAL := by
  cases l with
  | setting config' =>
    exact Or.inl (SetState.finish_status (w := w') (s := .peer d pub_key config') h)
  | next val =>
    obtain ⟨verdict, hact, hfinish⟩ := Outcome.bind_eq_ok.mp h
    obtain ⟨d₁, _, hact⟩ := Outcome.bind_eq_ok.mp hact
    cases hread : read_key val with
    | panic msg =>
      rw [hread] at hact
      cases hact
    | ok res =>
      rw [hread] at hact
      cases res with
      | ok k =>
        cases hact
        exact Or.inl (SetState.finish_status (w := w')
          (s := .peer d₁ k.public_key { config with allowed_ips := [] }) hfinish)
      | error e =>
        cases hact
        cases hfinish
        exact Or.inr (keyed_rejects (f := id) hread)

/-! ### Lines of `api_set` -/

theorem set_key_key_pair {private_key : Bytes} {now : Nat} {env : Env} {calls : List Call}
    (hchange : some (C.x25519_public private_key) ≠ d.key_pair.map Prod.snd)
    (h : d.set_key B private_key now env = .ok (d', calls)) :
    d'.key_pair = some (private_key, C.x25519_public private_key) := by
  unfold set_key at h
  dsimp only at h
  rw [if_neg hchange] at h
  obtain ⟨x, _, h⟩ := Outcome.bind_eq_ok.mp h
  cases h
  rfl

/-- **When two keys are set alike**: they are the same, or both have the public key the device has
    already. -/
theorem set_key_same_iff (h : d.Tables) (k k' : Bytes) (now : Nat) (env : Env) :
    (d.set_key B k now env >>= fun x => .ok x.1).Same
    (d.set_key B k' now env >>= fun x => .ok x.1) ↔
      k = k' ∨ some (C.x25519_public k) = d.key_pair.map Prod.snd ∧
        some (C.x25519_public k') = d.key_pair.map Prod.snd := by
  have hkept : ∀ {k}, some (C.x25519_public k) = d.key_pair.map Prod.snd →
      d.set_key B k now env = .ok (d, []) := by
    intro k hk
    rw [set_key, if_pos hk]
  obtain ⟨⟨d₁, calls⟩, hset⟩ := set_key_returns (B := B) h k now env
  obtain ⟨⟨d₁', calls'⟩, hset'⟩ := set_key_returns (B := B) h k' now env
  have hpair := fun hchange => set_key_key_pair hchange hset
  have hpair' := fun hchange => set_key_key_pair hchange hset'
  have hresult : (d.set_key B k now env >>= fun x => .ok x.1).Same
      (d.set_key B k' now env >>= fun x => .ok x.1) ↔ d₁ = d₁' := by
    rw [hset, hset']
    exact Outcome.same_ok
  rw [hresult]
  by_cases hk : some (C.x25519_public k) = d.key_pair.map Prod.snd
  · cases (hkept hk).symm.trans hset
    by_cases hk' : some (C.x25519_public k') = d.key_pair.map Prod.snd
    · cases (hkept hk').symm.trans hset'
      simp [hk, hk']
    · refine iff_of_false ?_ ?_
      · rintro rfl
        exact hk' (by rw [hpair' hk']; rfl)
      · rintro (rfl | ⟨_, hsame⟩)
        · exact hk' hk
        · exact hk' hsame
  · by_cases hk' : some (C.x25519_public k') = d.key_pair.map Prod.snd
    · cases (hkept hk').symm.trans hset'
      refine iff_of_false ?_ ?_
      · rintro rfl
        exact hk (by rw [hpair hk]; rfl)
      · rintro (rfl | ⟨hsame, _⟩)
        · exact hk hk'
        · exact hk hsame
    · constructor
      · rintro rfl
        have heq := (hpair hk).symm.trans (hpair' hk')
        exact Or.inl (Prod.mk.inj (Option.some.inj heq)).1
      · rintro (rfl | ⟨hsame, _⟩)
        · cases hset.symm.trans hset'
          rfl
        · exact absurd hsame hk

/-- Lines with the same key; a flag is none with a character more. -/
inductive SameKey : SetLine → SetLine → Prop where
  | private_key (k k' : KeyBytes) : SameKey (.private_key k) (.private_key k')
  | listen_port (port port' : Nat) : SameKey (.listen_port port) (.listen_port port')
  | fwmark (mark mark' : Nat) : SameKey (.fwmark mark) (.fwmark mark')
  | public_key (k k' : KeyBytes) : SameKey (.public_key k) (.public_key k')

theorem keyed_accepts {α : Type} {f : KeyBytes → α} {val : String} {a : α}
    (h : keyed f val = .ok (.ok a)) : ∃ k, a = f k := by
  obtain ⟨res, _, h⟩ := Outcome.bind_eq_ok.mp h
  cases res with
  | error e => cases h
  | ok k =>
    cases h
    exact ⟨k, rfl⟩

theorem set_line_same_key {key val : String} {c : Char} {l l' : SetLine}
    (h : set_line key val = .ok (.ok l))
    (h' : set_line key (val ++ String.singleton c) = .ok (.ok l')) : SameKey l l' := by
  unfold set_line at h
  split at h
  · obtain ⟨k, rfl⟩ := keyed_accepts (f := SetLine.private_key) h
    obtain ⟨k', rfl⟩ := keyed_accepts (f := SetLine.private_key) h'
    exact .private_key k k'
  · simp only [set_line] at h'
    split at h <;> cases h
    split at h' <;> cases h'
    exact .listen_port _ _
  · simp only [set_line] at h'
    split at h <;> cases h
    split at h' <;> cases h'
    exact .fwmark _ _
  · simp only [set_line] at h'
    split at h <;> cases h
    rename_i hflag
    rw [Str.parse_bool_push c hflag] at h'
    cases h'
  · obtain ⟨k, rfl⟩ := keyed_accepts (f := SetLine.public_key) h
    obtain ⟨k', rfl⟩ := keyed_accepts (f := SetLine.public_key) h'
    exact .public_key k k'
  · cases h

/-- The sockets are opened alike. -/
theorem listen_port_same_iff {w w' : ApiEnv} (port port' : Nat) :
    ((SetLine.listen_port port).act B w d >>= Verdict.finish w').Same
      ((SetLine.listen_port port').act B w d >>= Verdict.finish w') ↔
        w.port port = w.port port' := by
  dsimp only [SetLine.act, ApiEnv.port]
  cases w.bound port with
  | none =>
    cases w.bound port' with
    | none => exact iff_of_true Outcome.Same.rfl rfl
    | some assigned' =>
      refine iff_of_false (fun hsame => ?_) (by simp)
      cases (hsame (EADDRINUSE, d.open_listen_socket port none)).mp rfl
  | some assigned =>
    cases w.bound port' with
    | none =>
      refine iff_of_false (fun hsame => ?_) (by simp)
      cases (hsame (EADDRINUSE, d.open_listen_socket port' none)).mpr rfl
    | some assigned' =>
      show Outcome.Same (.ok (0, d.open_listen_socket port (some assigned)))
        (.ok (0, d.open_listen_socket port' (some assigned'))) ↔ _
      simp [open_listen_socket]

theorem fwmark_same_iff {w w' : ApiEnv} (mark mark' : Nat) :
    ((SetLine.fwmark mark).act B w d >>= Verdict.finish w').Same
      ((SetLine.fwmark mark').act B w d >>= Verdict.finish w') ↔ mark = mark' := by
  constructor
  · intro hsame
    have hact : ∀ mark, ∃ status, ((SetLine.fwmark mark).act B w d >>= Verdict.finish w') =
        .ok (status, d.set_fwmark mark) := by
      intro mark
      dsimp only [SetLine.act]
      cases w.marked mark with
      | true => exact ⟨_, rfl⟩
      | false => exact ⟨_, rfl⟩
    obtain ⟨status, h⟩ := hact mark
    obtain ⟨status', h'⟩ := hact mark'
    rw [h, h', Outcome.same_ok] at hsame
    exact Option.some.inj (congrArg (fun x : Nat × Device C => x.2.fwmark) hsame)
  · rintro rfl
    exact Outcome.Same.rfl

/-- **When two lines with the same key do the same.** -/
theorem SameKey.act_same_iff {w w' : ApiEnv} {l l' : SetLine} (hkey : SameKey l l') (h : d.Tables) :
    (l.act B w d >>= Verdict.finish w').Same (l'.act B w d >>= Verdict.finish w') ↔
      l.Alike d w w' l' := by
  cases hkey with
  | private_key k k' =>
    have hact : ∀ k : KeyBytes, ((SetLine.private_key k).act B w d >>= Verdict.finish w') =
        ((d.set_key B k.bytes w.limiter_now w.env >>= fun x => .ok x.1) >>=
          fun d => .ok (0, d)) := by
      intro k
      dsimp only [SetLine.act]
      cases d.set_key B k.bytes w.limiter_now w.env with
      | ok x => rfl
      | panic msg => rfl
    rw [hact, hact, Outcome.same_bind_ok (Prod.mk_right_injective 0), set_key_same_iff h]
    rfl
  | listen_port port port' => exact listen_port_same_iff port port'
  | fwmark mark mark' => exact fwmark_same_iff mark mark'
  | public_key k k' =>
    have hstart : PeerConfig.start.Valid := by simp [PeerConfig.Valid, PeerConfig.start]
    show (d.update_peer k.public_key .start w'.new >>= fun d => .ok (0, d)).Same
      (d.update_peer k'.public_key .start w'.new >>= fun d => .ok (0, d)) ↔ _
    rw [Outcome.same_bind_ok (Prod.mk_right_injective 0), update_peer_same_iff h hstart hstart]
    rfl

theorem read_set_cases (cmd : String) :
    (∃ key val, Str.split '=' cmd = [key, val] ∧ read_set cmd = set_line key val) ∨
      read_set cmd = .ok (.error EPROTO) := by
  unfold read_set
  rcases Str.split '=' cmd with _ | ⟨key, _ | ⟨val, _ | ⟨_, _⟩⟩⟩
  · exact Or.inr rfl
  · exact Or.inr rfl
  · exact Or.inl ⟨key, val, rfl, rfl⟩
  · exact Or.inr rfl

/-- Both texts are read with the same key, or one of them is no line. -/
theorem read_set_push (cmd : String) (c : Char) :
    (∃ key val, read_set cmd = set_line key val ∧
      read_set (cmd ++ String.singleton c) = set_line key (val ++ String.singleton c)) ∨
    read_set cmd = .ok (.error EPROTO) ∨
      read_set (cmd ++ String.singleton c) = .ok (.error EPROTO) := by
  rcases read_set_cases cmd with ⟨key, val, hsplit, hread⟩ | hreject
  · rcases read_set_cases (cmd ++ String.singleton c) with ⟨key', val', hsplit', hread'⟩ | hreject
    · obtain ⟨rfl, rfl⟩ := Str.split_push hsplit hsplit'
      exact Or.inl ⟨key', val, hread, hread'⟩
    · exact Or.inr (Or.inr hreject)
  · exact Or.inr (Or.inl hreject)

theorem read_set_opposed (cmd : String) (c : Char) :
    Opposed (read_set cmd) (read_set (cmd ++ String.singleton c)) := by
  rcases read_set_push cmd c with ⟨key, val, hread, hread'⟩ | hreject | hreject
  · rw [hread, hread']
    exact set_line_opposed key val c
  · rw [hreject]
    exact ⟨fun msg h => (nomatch h), fun _ _ => ⟨EPROTO, rfl⟩⟩
  · rw [hreject]
    exact ⟨fun _ _ => ⟨EPROTO, rfl⟩, fun msg h => (nomatch h)⟩

/-- **A last line of `api_set`**, with and without a further character. -/
theorem command_same_iff (h : d.Tables) {w w' : ApiEnv} (cmd : String) (c : Char) :
    (carryOut d (SetLine.act B w d) (read_set cmd) >>= Verdict.finish w').Same
      (carryOut d (SetLine.act B w d) (read_set (cmd ++ String.singleton c)) >>=
        Verdict.finish w') ↔
    ReadAlike (SetLine.Alike d w w') (read_set cmd) (read_set (cmd ++ String.singleton c)) := by
  have hmixed : ∀ {x status l}, read_set x = .ok (.error status) →
      (SetLine.act B w d l >>= Verdict.finish w') ≠ .ok (status, d) := by
    intro x status l hreject hact
    rcases read_set_rejects hreject with rfl | rfl
    · rcases SetLine.act_status hact with h | h <;> cases h
    · rcases SetLine.act_status hact with h | h <;> cases h
  obtain ⟨hpanic, hpanic'⟩ := read_set_opposed cmd c
  refine carryOut_same_iff hpanic hpanic' (fun status l hreject _ => hmixed hreject)
    (fun status l hreject _ => hmixed hreject) fun l l' hread hread' => ?_
  rcases read_set_push cmd c with ⟨key, val, hline, hline'⟩ | hreject | hreject
  · exact (set_line_same_key (hline.symm.trans hread) (hline'.symm.trans hread')).act_same_iff h
  · cases hreject.symm.trans hread
  · cases hreject.symm.trans hread'

/-! ### Lines of `api_set_peer` -/

/-- The settings of the last section are committed alike. -/
theorem setting_same_iff (h : d.Tables) (hvalid : config.Valid) (hvalid' : config'.Valid)
    {w w' : ApiEnv} {config₀ : PeerConfig} :
    ((PeerLine.setting config).act w d pub_key config₀ >>= Verdict.finish w').Same
      ((PeerLine.setting config').act w d pub_key config₀ >>= Verdict.finish w') ↔
    d.CommitsAlike pub_key config pub_key config' w'.new := by
  show (d.update_peer pub_key config w'.new >>= fun d => .ok (0, d)).Same
    (d.update_peer pub_key config' w'.new >>= fun d => .ok (0, d)) ↔ _
  rw [Outcome.same_bind_ok (Prod.mk_right_injective 0), update_peer_same_iff h hvalid hvalid']

/-- A section is committed, and a last section with one key or the other is. -/
theorem next_same_iff (h : d.Tables) {w w' : ApiEnv} (val : String) (c : Char) :
    ((PeerLine.next val).act w d pub_key config >>= Verdict.finish w').Same
      ((PeerLine.next (val ++ String.singleton c)).act w d pub_key config >>= Verdict.finish w') ↔
    PeerLine.Alike d pub_key config w w' (.next val) (.next (val ++ String.singleton c)) := by
  dsimp only [PeerLine.act, PeerLine.Alike]
  cases hupdate : d.update_peer pub_key config w.new with
  | panic msg => exact iff_of_true (Outcome.same_panic _ _) fun d₁ hd₁ => nomatch hd₁
  | ok d₁ =>
    have h₁ : d₁.Tables := h.update_peer (u := ⟨pub_key, config, w.new⟩) hupdate
    have hvalid : PeerConfig.Valid { config with allowed_ips := [] } := by simp [PeerConfig.Valid]
    have hmixed : ∀ {x status} {k : KeyBytes}, read_key x = .ok (.error status) →
        (Outcome.ok (.ok (.peer d₁ k.public_key { config with allowed_ips := [] })) >>=
          Verdict.finish w') ≠ .ok (status, d₁) := by
      intro x status k hreject hact
      cases keyed_rejects hreject
      cases SetState.finish_status (w := w')
        (s := .peer d₁ k.public_key { config with allowed_ips := [] }) hact
    obtain ⟨hpanic, hpanic'⟩ := keyed_opposed id val c
    rw [Outcome.ok_bind, Outcome.ok_bind]
    refine (carryOut_same_iff hpanic hpanic' (fun status k hreject _ => hmixed hreject)
      (fun status k hreject _ => hmixed hreject) fun k k' _ _ => ?_).trans
        ⟨fun halike d₂ hd₂ => by cases hd₂; exact halike, fun halike => halike d₁ rfl⟩
    show (d₁.update_peer k.public_key _ w'.new >>= fun d => .ok (0, d)).Same
      (d₁.update_peer k'.public_key _ w'.new >>= fun d => .ok (0, d)) ↔ _
    rw [Outcome.same_bind_ok (Prod.mk_right_injective 0), update_peer_same_iff h₁ hvalid hvalid]

/-- How a line with a setting is read. -/
def settingOf (res : Outcome (Except Nat PeerConfig)) : Outcome (Except Nat PeerLine) := do
  match ← res with
  | .ok config => .ok (.ok (.setting config))
  | .error status => .ok (.error status)

theorem settingOf_opposed {res res' : Outcome (Except Nat PeerConfig)} (h : Opposed res res') :
    Opposed (settingOf res) (settingOf res') := by
  have hpanic : ∀ {res msg}, settingOf res = .panic msg → res = .panic msg := by
    intro res msg hres
    rcases res with (status | config) | msg'
    · cases hres
    · cases hres
    · cases hres
      rfl
  refine ⟨fun msg hres => ?_, fun msg hres => ?_⟩
  · obtain ⟨status, rfl⟩ := h.1 msg (hpanic hres)
    exact ⟨status, rfl⟩
  · obtain ⟨status, rfl⟩ := h.2 msg (hpanic hres)
    exact ⟨status, rfl⟩

theorem settingOf_accepts {res : Outcome (Except Nat PeerConfig)} {l : PeerLine}
    (h : settingOf res = .ok (.ok l)) : ∃ config, l = .setting config := by
  rcases res with (status | config) | msg
  · cases h
  · cases h
    exact ⟨config, rfl⟩
  · cases h

theorem settingOf_rejects {key val : String} {status : Nat}
    (h : settingOf (set_peer_line P config key val) = .ok (.error status)) : status = EINVAL := by
  cases hres : set_peer_line P config key val with
  | panic msg =>
    rw [hres] at h
    cases h
  | ok res =>
    rw [hres] at h
    cases res with
    | ok config' => cases h
    | error status' =>
      cases h
      exact set_peer_line_rejects hres

/-- How the parts of a line inside of a section are read. -/
theorem read_peer_pair (P : Parsers) (config : PeerConfig) {cmd key val : String}
    (hsplit : Str.splitn_two '=' cmd = [key, val]) :
    read_peer P config cmd = if key = "public_key" then .ok (.ok (.next val))
      else settingOf (set_peer_line P config key val) := by
  rw [read_peer, hsplit]
  rfl

theorem read_peer_cases (P : Parsers) (config : PeerConfig) (cmd : String) :
    (∃ key val, Str.splitn_two '=' cmd = [key, val]) ∨
      read_peer P config cmd = .ok (.error EPROTO) := by
  unfold read_peer
  rcases Str.splitn_two '=' cmd with _ | ⟨key, _ | ⟨val, _ | ⟨_, _⟩⟩⟩
  · exact Or.inr rfl
  · exact Or.inr rfl
  · exact Or.inl ⟨key, val, rfl⟩
  · exact Or.inr rfl

/-- **A last line of `api_set_peer`**, with and without a further character. -/
theorem peer_same_iff (h : d.Tables) (hvalid : config.Valid) {w w' : ApiEnv} (cmd : String)
    (c : Char) :
    (carryOut d (PeerLine.act w d pub_key config) (read_peer P config cmd) >>=
    Verdict.finish w').Same
      (carryOut d (PeerLine.act w d pub_key config)
        (read_peer P config (cmd ++ String.singleton c)) >>=
        Verdict.finish w') ↔
    ReadAlike (PeerLine.Alike d pub_key config w w') (read_peer P config cmd)
      (read_peer P config (cmd ++ String.singleton c)) := by
  rcases read_peer_cases P config cmd with ⟨key, val, hsplit⟩ | hreject
  · have hread := read_peer_pair P config hsplit
    have hread' := read_peer_pair P config (Str.splitn_two_push (c := c) hsplit)
    by_cases hkey : key = "public_key"
    · rw [if_pos hkey] at hread hread'
      rw [hread, hread']
      exact next_same_iff h val c
    · rw [if_neg hkey] at hread hread'
      have hmixed : ∀ {x status l}, settingOf (set_peer_line P config key x) = .ok (.error status) →
          (∃ config', l = PeerLine.setting config') →
          (l.act w d pub_key config >>= Verdict.finish w') ≠ .ok (status, d) := by
        rintro x status l hrejects ⟨config', rfl⟩ hact
        cases settingOf_rejects hrejects
        cases SetState.finish_status (w := w') (s := .peer d pub_key config') hact
      obtain ⟨hpanic, hpanic'⟩ := settingOf_opposed (set_peer_line_opposed P config key val c)
      have hboth : ∀ l l', settingOf (set_peer_line P config key val) = .ok (.ok l) →
          settingOf (set_peer_line P config key (val ++ String.singleton c)) = .ok (.ok l') →
          ((l.act w d pub_key config >>= Verdict.finish w').Same
            (l'.act w d pub_key config >>= Verdict.finish w') ↔
              PeerLine.Alike d pub_key config w w' l l') := by
        intro l l' hl hl'
        obtain ⟨config₁, rfl⟩ := settingOf_accepts hl
        obtain ⟨config₂, rfl⟩ := settingOf_accepts hl'
        exact setting_same_iff h (read_peer_valid hvalid (hread.trans hl))
          (read_peer_valid hvalid (hread'.trans hl'))
      rw [hread, hread']
      exact carryOut_same_iff hpanic hpanic'
        (fun status l hrejects hl => hmixed hrejects (settingOf_accepts hl))
        (fun status l hrejects hl => hmixed hrejects (settingOf_accepts hl)) hboth
  · rw [hreject]
    refine carryOut_same_iff (fun msg hmsg => nomatch hmsg) (fun msg _ => ⟨EPROTO, rfl⟩)
      (fun status l hstatus _ hact => ?_) (fun status l _ hl => nomatch hl)
      (fun l l' hl _ => nomatch hl)
    cases hstatus
    rcases PeerLine.act_status hact with h | h <;> cases h

/-! ## Section 3: The last line -/

/-- A line with one character only is rejected. -/
theorem SetState.line_short (s : SetState C) (w : ApiEnv) (c : Char) :
    ∃ status, status ≠ 0 ∧
      s.line B P w (String.singleton c) = .ok (.error (status, s.device)) := by
  have hne : String.singleton c ≠ "" := by
    intro heq
    have := congrArg String.toList heq
    simp at this
  have hkey : ∀ {key val}, String.singleton c = key ++ String.singleton '=' ++ val → key = "" := by
    intro key val heq
    have hlength := congrArg (fun x : String => x.toList.length) heq
    simp at hlength
    have hnil : key.toList = [] := List.eq_nil_of_length_eq_zero (by omega)
    exact String.toList_inj.mp (by simpa using hnil)
  rw [line.eq_def, if_neg hne]
  cases s with
  | command d =>
    rcases read_set_cases (String.singleton c) with ⟨key, val, hsplit, hread⟩ | hreject
    · cases hkey (Str.split_eq_pair.mp hsplit).1
      refine ⟨EINVAL, by decide, ?_⟩
      dsimp only
      rw [hread]
      rfl
    · refine ⟨EPROTO, by decide, ?_⟩
      dsimp only
      rw [hreject]
      rfl
  | peer d public_key config =>
    rcases read_peer_cases P config (String.singleton c) with ⟨key, val, hsplit⟩ | hreject
    · cases hkey (Str.splitn_two_eq_pair.mp hsplit).1
      refine ⟨EINVAL, by decide, ?_⟩
      dsimp only
      rw [read_peer_pair P config hsplit]
      rfl
    · refine ⟨EPROTO, by decide, ?_⟩
      dsimp only
      rw [hreject]
      rfl

/-- **A last line does the same without its last character**, in front of the end of file. -/
theorem SetState.last_same_iff {s : SetState C} (h : s.Sound) {w w' : ApiEnv} {x : String}
    (hx : x ≠ "") :
    (s.line B P w (Str.pop x) >>= Verdict.finish w').Same (s.line B P w x >>= Verdict.finish w') ↔
      s.Alike P w w' x := by
  obtain ⟨c, hc⟩ := Str.pop_concat hx
  by_cases hpop : Str.pop x = ""
  · refine iff_of_false (fun hsame => ?_) fun halike => halike.1 hpop
    obtain ⟨status, hstatus, hline⟩ := line_short (B := B) (P := P) s w c
    have hx' : x = String.singleton c := by
      rw [hpop] at hc
      simpa using hc
    rw [hpop, hx', hline, line.eq_def, if_pos rfl] at hsame
    obtain ⟨verdict, hverdict, hfinish⟩ := Outcome.bind_eq_ok.mp
      ((hsame (status, s.device)).mpr rfl)
    obtain ⟨⟨status', d'⟩, hfinished, hverdict⟩ := Outcome.bind_eq_ok.mp hverdict
    cases hverdict
    cases hfinish
    exact hstatus (finish_status hfinished)
  · unfold Alike
    rw [line.eq_def, line.eq_def, if_neg hpop, if_neg hx]
    generalize Str.pop x = y at hc hpop
    subst hc
    cases s with
    | command d => exact (command_same_iff h y c).trans (and_iff_right hpop).symm
    | peer d public_key config =>
      exact (peer_same_iff h.1 h.2 y c).trans (and_iff_right hpop).symm

variable {world : Nat → ApiEnv}

theorem SetState.resume_last {s : SetState C} {n : Nat} (x : String) :
    s.resume B P world n [some x] = s.line B P (world n) (Str.pop x) >>=
      Verdict.finish (world (n + 1)) := by
  rw [resume_some]
  rcases s.line B P (world n) (Str.pop x) with (result | s') | msg
  · rfl
  · exact resume_nil
  · rfl

/-- **The last line of a stream without a newline at its end does not need it**: it is no UTF-8, the
    lines before it end the command, or it does the same without its last character. -/
def ReadsLast (B : Build) (P : Parsers) (world : Nat → ApiEnv) (d : Device C) (stream : Bytes) :
    Prop :=
  ∀ front last x s, Str.lines stream = front ++ [last] → Str.from_utf8 last = some x →
    (SetState.command d).after B P world 0 (front.map Str.from_utf8) = .ok (.ok s) →
    s.Alike P (world front.length) (world (front.length + 1)) x

end Device

end PqBoringtun
