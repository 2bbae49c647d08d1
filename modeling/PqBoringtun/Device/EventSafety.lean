import PqBoringtun.Device.EventPoll

/-! # What the event queue needs to be safe

    * Section 1: slots and pointers.
    * Section 2: the invariant: what the kernel can report is alive, and an
      event that is not a notifier has one guard at most.
    * Section 3: what keeps it.
    * Section 4: events that stay enabled.
-/

namespace PqBoringtun

open Epoll

namespace EventPoll

variable {s : EventPoll} {i j : Nat} {p : EventPtr} {ev : Event} {file : File}

/-! ## Section 1: Slots -/

theorem slot_set (x : Option (EventPtr × Event)) (hi : i < s.events.length) :
    { s with events := s.events.set i x }.slot j = if i = j then x else s.slot j := by
  unfold slot
  dsimp only
  rw [List.getElem?_set]
  by_cases h : i = j
  · rw [if_pos h, if_pos h, if_pos hi]
    rfl
  · rw [if_neg h, if_neg h]

theorem slot_lt (h : s.slot i = some (p, ev)) : i < s.events.length := by
  by_contra hi
  rw [slot, List.getElem?_eq_none (Nat.le_of_not_lt hi)] at h
  cases h

/-- Resizing the vector changes no slot. -/
theorem slot_append (n : Nat) :
    { s with events := s.events ++ List.replicate n none }.slot j = s.slot j := by
  unfold slot
  dsimp only
  by_cases hj : j < s.events.length
  · rw [List.getElem?_append_left hj]
  · rw [List.getElem?_append_right (Nat.le_of_not_lt hj),
      List.getElem?_eq_none (Nat.le_of_not_lt hj), List.getElem?_replicate]
    split <;> rfl

@[simp] theorem slot_take : (s.take i).slot j = if i = j then none else s.slot j := by
  unfold take
  cases h : s.slot i with
  | none =>
    by_cases hij : i = j
    · rw [if_pos hij, ← hij]
      exact h
    · rw [if_neg hij]
  | some x =>
    obtain ⟨p, ev⟩ := x
    exact slot_set none (slot_lt h)

theorem take_of_none (h : s.slot i = none) : s.take i = s := by
  unfold take
  rw [h]

@[simp] theorem length_take : (s.take i).events.length = s.events.length := by
  unfold take
  cases h : s.slot i with
  | none => rfl
  | some x => exact List.length_set

/-- An event is inserted into an empty slot. -/
theorem insert_at_of_none (h : s.slot i = none) (x : EventPtr × Event) :
    s.insert_at i x = { s with
      events := (s.events ++ List.replicate (i + 1 - s.events.length) none).set i (some x) } := by
  unfold insert_at
  dsimp only
  rw [take_of_none ((slot_append _).trans h)]

/-- What it means that an event was registered at an empty slot. -/
structure Registered (s : EventPoll) (i : Fd) (file : File) (ev : Event) (s' : EventPoll) :
    Prop where
  slot : ∀ j, s'.slot j = if i = j then some (s.next, ev) else s.slot j
  length : i < s'.events.length ∧ s.events.length ≤ s'.events.length
  guards : s'.guards = s.guards
  next : s'.next = s.next + 1
  kernel : s'.kernel = s.kernel ∧ s.kernel.interests i file ≠ none ∨
    s'.kernel = s.kernel.put i file (some ⟨ev.oneshot, s.next, true⟩) ∧
      s.kernel.interests i file = none

theorem registered (ev : Event) (hslot : s.slot i = none) (hfd : ev.fd = i)
    (hfile : s.kernel.files.lookup i = some file) :
    Registered s i file ev (s.register_event ev).1 := by
  subst hfd
  have hlength : (s.events ++ List.replicate (ev.fd + 1 - s.events.length) none).length =
      max s.events.length (ev.fd + 1) := by
    rw [List.length_append, List.length_replicate]
    omega
  have heq : (s.register_event ev).1 = { s with
      events := (s.events ++ List.replicate (ev.fd + 1 - s.events.length) none).set ev.fd
        (some (s.next, ev))
      next := s.next + 1
      kernel := (s.kernel.add ev.fd ev.oneshot s.next).1 } := by
    unfold register_event
    dsimp only
    rw [insert_at_of_none (s := { s with next := s.next + 1 }) hslot]
  have hlt : ev.fd < max s.events.length (ev.fd + 1) :=
    lt_of_lt_of_le (Nat.lt_succ_self _) (le_max_right _ _)
  rw [heq]
  refine ⟨fun j => ?_, ?_, rfl, rfl, ?_⟩
  · have hset := slot_set (s := { s with
      events := s.events ++ List.replicate (ev.fd + 1 - s.events.length) none }) (i := ev.fd)
      (j := j) (some (s.next, ev)) (by rw [hlength]; exact hlt)
    rw [slot_append] at hset
    exact hset
  · dsimp only
    rw [List.length_set, hlength]
    exact ⟨hlt, le_max_left _ _⟩
  · dsimp only
    unfold Kernel.add
    rw [hfile]
    dsimp only
    cases he : s.kernel.interests ev.fd file with
    | none => exact Or.inr ⟨rfl, rfl⟩
    | some e => exact Or.inl ⟨rfl, by simp⟩

theorem register_event_ok (ev : Event) (hslot : s.slot i = none) (hfd : ev.fd = i)
    (hfile : s.kernel.files.lookup i = some file) (hnone : s.kernel.interests i file = none) :
    (s.register_event ev).2 = true := by
  subst hfd
  unfold register_event
  dsimp only
  rw [insert_at_of_none (s := { s with next := s.next + 1 }) hslot]
  dsimp only
  unfold Kernel.add
  rw [hfile]
  dsimp only
  rw [hnone]

/-- A pointer to an event that is alive. -/
theorem deref_eq_some (h : s.deref p = some ev) : ∃ i, s.slot i = some (p, ev) := by
  obtain ⟨x, hx, hev⟩ := List.exists_of_findSome?_eq_some h
  obtain ⟨i, hi⟩ := List.mem_iff_getElem?.mp hx
  cases x with
  | none => cases hev
  | some y =>
    rw [Option.bind_some] at hev
    obtain ⟨hp, hev⟩ := Option.ite_none_right_eq_some.mp hev
    cases hev
    refine ⟨i, ?_⟩
    rw [slot, hi, ← hp]
    rfl

theorem deref_isSome (h : s.slot i = some (p, ev)) : ∃ ev', s.deref p = some ev' := by
  cases hd : s.deref p with
  | some ev' => exact ⟨ev', rfl⟩
  | none =>
    have hall := List.findSome?_eq_none_iff.mp hd
    have hmem : some (p, ev) ∈ s.events := by
      refine List.mem_iff_getElem?.mpr ⟨i, ?_⟩
      unfold slot at h
      cases hx : s.events[i]? with
      | none =>
        rw [hx] at h
        cases h
      | some x =>
        rw [hx] at h
        exact congrArg some h
    have := hall _ hmem
    simp at this

/-! ## Section 2: The invariant -/

/-- An event as the functions of `EventPoll` make it, with this trigger. -/
structure Event.Plain (ev : Event) (trigger : Fd) : Prop where
  fd : ev.fd = trigger
  owns : ∀ fd ∈ ev.owns, fd = trigger
  oneshot : ev.notifier = false → ev.oneshot = true

/-- What makes the queue safe. -/
structure Safe (s : EventPoll) : Prop where
  slot : ∀ {i p ev}, s.slot i = some (p, ev) →
    Event.Plain ev i ∧ p < s.next ∧ ∃ file, s.kernel.files.lookup i = some file
  unique : ∀ {i j p ev ev'}, s.slot i = some (p, ev) → s.slot j = some (p, ev') → i = j
  armed : ∀ {fd file e}, s.kernel.interests fd file = some e → e.armed = true →
    s.kernel.files.lookup fd = some file ∧
      ∃ ev, s.slot fd = some (e.data, ev) ∧ e.oneshot = ev.oneshot
  guarded : ∀ {p}, p ∈ s.guards → ∃ i ev file e, s.slot i = some (p, ev) ∧
    s.kernel.files.lookup i = some file ∧ s.kernel.interests i file = some e ∧ e.data = p ∧
    (ev.notifier = false → e.armed = false ∧ s.guards.count p = 1)
  kernel : s.kernel.Sound

theorem Safe.new : EventPoll.new.Safe where
  slot := by
    intro i p ev h
    cases h
  unique := by
    intro i j p ev ev' h
    cases h
  armed := by
    intro fd file e h
    cases h
  guarded := by
    intro p hp
    cases hp
  kernel := Kernel.Sound.new

theorem Safe.deref (h : s.Safe) (hi : s.slot i = some (p, ev)) : s.deref p = some ev := by
  obtain ⟨ev', hev'⟩ := deref_isSome hi
  obtain ⟨j, hj⟩ := deref_eq_some hev'
  rw [← h.unique hi hj, hi] at hj
  cases hj
  exact hev'

/-- A descriptor that is not in use is no trigger. -/
theorem Safe.slot_of_closed (h : s.Safe) (hi : s.kernel.files.lookup i = none) :
    s.slot i = none := by
  cases hx : s.slot i with
  | none => rfl
  | some x =>
    obtain ⟨p, ev⟩ := x
    obtain ⟨file, hfile⟩ := (h.slot hx).2.2
    rw [hi] at hfile
    cases hfile

/-! ## Section 3: What keeps it -/

/-- The kernel changes, but not for the triggers of the queue. -/
theorem Safe.kernel_change (h : s.Safe) {k : Kernel EventPtr} (hk : k.Sound)
    (hlookup : ∀ i x, s.slot i = some x → k.files.lookup i = s.kernel.files.lookup i)
    (hold : ∀ {fd file e}, k.interests fd file = some e → s.kernel.interests fd file = some e)
    (hnew : ∀ {fd file e x}, s.slot fd = some x → s.kernel.files.lookup fd = some file →
      s.kernel.interests fd file = some e → k.interests fd file = some e) :
    { s with kernel := k }.Safe where
  slot := by
    intro i p ev hi
    obtain ⟨hplain, hnext, file, hfile⟩ := h.slot hi
    exact ⟨hplain, hnext, file, (hlookup i _ hi).trans hfile⟩
  unique := h.unique
  armed := by
    intro fd file e he harmed
    obtain ⟨hfile, ev, hfd, hone⟩ := h.armed (hold he) harmed
    exact ⟨(hlookup fd _ hfd).trans hfile, ev, hfd, hone⟩
  guarded := by
    intro p hp
    obtain ⟨i, ev, file, e, hi, hfile, he, hdata, hone⟩ := h.guarded hp
    exact ⟨i, ev, file, e, hi, (hlookup i _ hi).trans hfile, hnew hi hfile he, hdata, hone⟩
  kernel := hk

/-- A descriptor is opened. -/
theorem Safe.openFd (h : s.Safe) (hi : s.kernel.files.lookup i = none) :
    { s with kernel := s.kernel.openFd i file }.Safe := by
  refine h.kernel_change (h.kernel.openFd hi) (fun j x hj => ?_) (fun he => he)
    fun _ _ he => he
  refine Kernel.openFd_lookup_ne ?_
  rintro rfl
  rw [h.slot_of_closed hi] at hj
  cases hj

/-- A descriptor that is no trigger is closed. -/
theorem Safe.close (h : s.Safe) (hi : s.slot i = none) :
    { s with kernel := s.kernel.close i }.Safe := by
  have hne : ∀ {j x}, s.slot j = some x → j ≠ i := by
    rintro j x hj rfl
    rw [hi] at hj
    cases hj
  refine h.kernel_change (h.kernel.closeAll [i]) (fun j x hj => ?_)
    (fun he => (Kernel.close_interests_eq_some.mp he).2) fun {fd file e x} hj hfile he => ?_
  · exact Kernel.close_lookup_ne (hne hj)
  · exact Kernel.close_interests_of he hfile (hne hj)

/-- An event is registered at an empty slot. -/
theorem Safe.registered {s' : EventPoll} (h : s.Safe) (hplain : Event.Plain ev i)
    (hslot : s.slot i = none) (hfile : s.kernel.files.lookup i = some file)
    (hreg : Registered s i file ev s') : s'.Safe := by
  have hold : ∀ {j x}, s.slot j = some x → i ≠ j := by
    rintro j x hj rfl
    rw [hslot] at hj
    cases hj
  have hslots := hreg.slot
  have hfiles : s'.kernel.files = s.kernel.files := by
    rcases hreg.kernel with ⟨hk, _⟩ | ⟨hk, _⟩
    · rw [hk]
    · rw [hk, Kernel.put_files]
  have hinterests : ∀ {j file'}, i ≠ j →
      s'.kernel.interests j file' = s.kernel.interests j file' := by
    intro j file' hj
    rcases hreg.kernel with ⟨hk, _⟩ | ⟨hk, _⟩
    · rw [hk]
    · rw [hk, Kernel.put_ne _ (Or.inl (Ne.symm hj))]
  refine ⟨?_, ?_, ?_, ?_, ?_⟩
  · intro j p ev' hj
    rw [hslots] at hj
    rw [hreg.next, hfiles]
    by_cases hij : i = j
    · rw [if_pos hij] at hj
      cases hj
      exact ⟨hij ▸ hplain, Nat.lt_succ_self _, file, hij ▸ hfile⟩
    · rw [if_neg hij] at hj
      obtain ⟨hplain', hnext, hopen⟩ := h.slot hj
      exact ⟨hplain', Nat.lt_succ_of_lt hnext, hopen⟩
  · -- The name of the new event was not in use.
    have hfresh : ∀ {j p ev'}, s.slot j = some (p, ev') → p ≠ s.next :=
      fun hj => Nat.ne_of_lt (h.slot hj).2.1
    intro j k p ev₁ ev₂ hj hk
    rw [hslots] at hj hk
    by_cases hij : i = j
    · by_cases hik : i = k
      · exact hij.symm.trans hik
      · rw [if_pos hij] at hj
        rw [if_neg hik] at hk
        cases hj
        exact absurd rfl (hfresh hk)
    · rw [if_neg hij] at hj
      by_cases hik : i = k
      · rw [if_pos hik] at hk
        cases hk
        exact absurd rfl (hfresh hj)
      · rw [if_neg hik] at hk
        exact h.unique hj hk
  · intro fd file' e he harmed
    rw [hslots, hfiles]
    by_cases hfd : i = fd
    · subst hfd
      rw [if_pos rfl]
      rcases hreg.kernel with ⟨hk, _⟩ | ⟨hk, _⟩
      · -- The entry would be that of an event in the empty slot.
        rw [hk] at he
        obtain ⟨_, ev', hev', _⟩ := h.armed he harmed
        exact absurd rfl (hold hev')
      · rw [hk] at he
        by_cases hfile' : file' = file
        · subst hfile'
          rw [Kernel.put_self] at he
          cases he
          exact ⟨hfile, ev, rfl, rfl⟩
        · rw [Kernel.put_ne _ (Or.inr hfile')] at he
          obtain ⟨_, ev', hev', _⟩ := h.armed he harmed
          exact absurd rfl (hold hev')
    · rw [hinterests hfd] at he
      rw [if_neg hfd]
      exact h.armed he harmed
  · intro p hp
    rw [hreg.guards] at hp ⊢
    obtain ⟨j, ev', file', e, hj, hfile', he, hrest⟩ := h.guarded hp
    refine ⟨j, ev', file', e, ?_, ?_, ?_, hrest⟩
    · rw [hslots, if_neg (hold hj)]
      exact hj
    · rw [hfiles]
      exact hfile'
    · rw [hinterests (hold hj)]
      exact he
  · rcases hreg.kernel with ⟨hk, _⟩ | ⟨hk, _⟩
    · rw [hk]
      exact h.kernel
    · rw [hk]
      exact h.kernel.put (Or.inl (Kernel.isOpen_iff.mpr ⟨i, hfile⟩))

/-- What the kernel reports is alive, and nobody else has a guard of it. -/
theorem Safe.wait (h : s.Safe) {r : Outcome EventPoll} (hwait : s.wait i file = some r) :
    ∃ ev e, s.slot i = some (e.data, ev) ∧ s.kernel.interests i file = some e ∧
      r = .ok { s with
        kernel := s.kernel.put i file (some { e with armed := !e.oneshot })
        guards := e.data :: s.guards } ∧
      { s with
        kernel := s.kernel.put i file (some { e with armed := !e.oneshot })
        guards := e.data :: s.guards }.Safe := by
  obtain ⟨⟨p, k⟩, hreport, rfl⟩ := Option.map_eq_some_iff.mp hwait
  unfold Kernel.report at hreport
  cases he : s.kernel.interests i file with
  | none =>
    rw [he] at hreport
    cases hreport
  | some e =>
    rw [he] at hreport
    obtain ⟨harmed, hreport⟩ := Option.ite_none_right_eq_some.mp hreport
    cases hreport
    obtain ⟨hfile, ev, hslot, hone⟩ := h.armed he harmed
    dsimp only
    rw [h.deref hslot]
    have hfresh : ev.notifier = false → e.data ∉ s.guards := by
      intro hev hp
      obtain ⟨j, ev', file', e', hj, hfile', he', _, hone'⟩ := h.guarded hp
      cases h.unique hslot hj
      rw [hslot] at hj
      cases hj
      rw [hfile] at hfile'
      cases hfile'
      rw [he] at he'
      cases he'
      rw [(hone' hev).1] at harmed
      cases harmed
    refine ⟨ev, e, hslot, rfl, rfl, h.slot, h.unique, ?_, ?_, ?_⟩
    · intro fd file' e' he' harmed'
      dsimp only at he' ⊢
      by_cases hkey : fd = i ∧ file' = file
      · obtain ⟨rfl, rfl⟩ := hkey
        rw [Kernel.put_self] at he'
        cases he'
        exact ⟨hfile, ev, hslot, hone⟩
      · rw [Kernel.put_ne _ (by tauto)] at he'
        exact h.armed he' harmed'
    · intro q hq
      dsimp only at hq ⊢
      by_cases hqp : q = e.data
      · subst hqp
        refine ⟨i, ev, file, _, hslot, hfile, Kernel.put_self _, rfl, fun hev => ⟨?_, ?_⟩⟩
        · show (!e.oneshot) = false
          rw [hone, (h.slot hslot).1.oneshot hev]
          rfl
        · rw [List.count_cons_self, List.count_eq_zero_of_not_mem (hfresh hev)]
      · obtain ⟨j, ev', file', e', hj, hfile', he', hdata, hone'⟩ :=
          h.guarded ((List.mem_cons.mp hq).resolve_left hqp)
        have hji : j ≠ i := by
          rintro rfl
          rw [hslot] at hj
          cases hj
          exact hqp rfl
        refine ⟨j, ev', file', e', hj, hfile', ?_, hdata, ?_⟩
        · rw [Kernel.put_ne _ (Or.inl hji)]
          exact he'
        · rw [List.count_cons_of_ne (Ne.symm hqp)]
          exact hone'
    · exact h.kernel.put (Or.inl (h.kernel _ _ _ he))

/-- A guard goes out of scope: its event is there, and is armed again. -/
theorem Safe.drop_guard (h : s.Safe) (hp : p ∈ s.guards) :
    ∃ j ev file, s.slot j = some (p, ev) ∧ s.kernel.files.lookup j = some file ∧
      s.drop_guard p = .ok { s with
        kernel := s.kernel.put j file (some ⟨ev.oneshot, p, true⟩), guards := s.guards.erase p } ∧
      { s with
        kernel := s.kernel.put j file (some ⟨ev.oneshot, p, true⟩)
        guards := s.guards.erase p }.Safe := by
  obtain ⟨j, ev, file, e, hj, hfile, he, hdata, hone⟩ := h.guarded hp
  refine ⟨j, ev, file, hj, hfile, ?_, h.slot, h.unique, ?_, ?_, ?_⟩
  · unfold EventPoll.drop_guard
    rw [h.deref hj]
    dsimp only
    unfold Kernel.modify
    rw [(h.slot hj).1.fd, hfile]
    dsimp only
    rw [he]
  · intro fd file' e' he' harmed'
    dsimp only at he' ⊢
    by_cases hkey : fd = j ∧ file' = file
    · obtain ⟨rfl, rfl⟩ := hkey
      rw [Kernel.put_self] at he'
      cases he'
      exact ⟨hfile, ev, hj, rfl⟩
    · rw [Kernel.put_ne _ (by tauto)] at he'
      exact h.armed he' harmed'
  · intro q hq
    dsimp only at hq ⊢
    obtain ⟨k, ev', file', e', hk, hfile', he', hdata', hone'⟩ :=
      h.guarded (List.mem_of_mem_erase hq)
    by_cases hqp : q = p
    · -- Another guard of the same event: it is a notifier.
      subst hqp
      refine ⟨j, ev, file, _, hj, hfile, Kernel.put_self _, rfl, fun hev => ?_⟩
      have hcount := List.count_pos_iff.mpr hq
      rw [List.count_erase_self, (hone hev).2] at hcount
      exact absurd hcount (Nat.lt_irrefl _)
    · have hkj : k ≠ j := by
        rintro rfl
        rw [hj] at hk
        cases hk
        exact hqp rfl
      refine ⟨k, ev', file', e', hk, hfile', ?_, hdata', ?_⟩
      · rw [Kernel.put_ne _ (Or.inl hkj)]
        exact he'
      · rw [List.count_erase_of_ne hqp]
        exact hone'
  · exact h.kernel.put (Or.inl (h.kernel _ _ _ he))

theorem take_eq (hj : s.slot j = some (p, ev)) : s.take j = { s with
    events := s.events.set j none
    kernel := (s.kernel.closeAll ev.owns).delete j } := by
  unfold take
  rw [hj]

/-- Removing an event touches neither the triggers of the others nor their entries. -/
theorem Safe.take_other (h : s.Safe) (hj : s.slot j = some (p, ev)) (hji : j ≠ i) :
    (s.take j).kernel.files.lookup i = s.kernel.files.lookup i ∧
    ∀ {file e}, s.kernel.files.lookup i = some file → s.kernel.interests i file = some e →
      (s.take j).kernel.interests i file = some e := by
  -- Only the trigger of this event is closed.
  have hclosed : i ∉ ev.owns := fun howns => hji ((h.slot hj).1.owns _ howns).symm
  rw [take_eq hj]
  dsimp only
  rw [Kernel.delete_files, Kernel.closeAll_lookup hclosed]
  refine ⟨rfl, fun hfile he => ?_⟩
  rw [Kernel.delete_interests_ne (Ne.symm hji)]
  exact Kernel.closeAll_interests_of he hfile hclosed

/-- An event is cancelled: it is removed, and its entry is not armed if it is left behind. -/
theorem Safe.cancel (h : s.Safe) (hp : p ∈ s.guards)
    (hev : ∀ ev, s.deref p = some ev → ev.notifier = false) :
    ∃ j ev, s.slot j = some (p, ev) ∧
      s.cancel p = .ok { s.take j with guards := s.guards.erase p } ∧
      { s.take j with guards := s.guards.erase p }.Safe := by
  obtain ⟨j, ev, file, e, hj, hfile, he, hdata, hone⟩ := h.guarded hp
  have hplain := (h.slot hj).1
  obtain ⟨hdisarmed, hcount⟩ := hone (hev ev (h.deref hj))
  have htake := take_eq hj
  have hslots : ∀ i, (s.take j).slot i = if j = i then none else s.slot i := fun i => slot_take
  have hfiles : ∀ {i}, j ≠ i →
      (s.take j).kernel.files.lookup i = s.kernel.files.lookup i :=
    fun hi => (h.take_other hj hi).1
  have hold : ∀ {fd file' e'}, (s.take j).kernel.interests fd file' = some e' →
      s.kernel.interests fd file' = some e' := by
    intro fd file' e' he'
    rw [htake] at he'
    exact Kernel.closeAll_interests (Kernel.delete_interests he')
  have hother : ∀ {i x}, (s.take j).slot i = some x → j ≠ i ∧ s.slot i = some x := by
    intro i x hi
    rw [hslots] at hi
    by_cases hji : j = i
    · rw [if_pos hji] at hi
      cases hi
    · rw [if_neg hji] at hi
      exact ⟨hji, hi⟩
  refine ⟨j, ev, hj, ?_, ?_, ?_, ?_, ?_, ?_⟩
  · unfold EventPoll.cancel clear_event_by_fd
    rw [h.deref hj]
    dsimp only
    rw [hplain.fd, if_pos (slot_lt hj), Outcome.ok_bind, htake]
    rfl
  · intro i q ev' hi
    obtain ⟨hji, hi⟩ := hother hi
    obtain ⟨hplain', hnext, file', hfile'⟩ := h.slot hi
    refine ⟨hplain', ?_, file', ?_⟩
    · rw [htake]
      exact hnext
    · exact (hfiles hji).trans hfile'
  · intro i i' q ev₁ ev₂ hi hi'
    exact h.unique (hother hi).2 (hother hi').2
  · intro fd file' e' he' harmed
    obtain ⟨hfile', ev', hslot, hone'⟩ := h.armed (hold he') harmed
    have hji : j ≠ fd := by
      rintro rfl
      rw [hfile] at hfile'
      cases hfile'
      have hsame := hold he'
      rw [he] at hsame
      cases hsame
      rw [hdisarmed] at harmed
      cases harmed
    refine ⟨(hfiles hji).trans hfile', ev', ?_, hone'⟩
    show (s.take j).slot fd = _
    rw [hslots, if_neg hji]
    exact hslot
  · intro q hq
    obtain ⟨i, ev', file', e', hi, hfile', he', hdata', hone'⟩ :=
      h.guarded (List.mem_of_mem_erase hq)
    have hqp : q ≠ p := by
      rintro rfl
      have hpos := List.count_pos_iff.mpr hq
      rw [List.count_erase_self, hcount] at hpos
      exact absurd hpos (Nat.lt_irrefl _)
    have hji : j ≠ i := by
      rintro rfl
      rw [hj] at hi
      cases hi
      exact hqp rfl
    refine ⟨i, ev', file', e', ?_, (hfiles hji).trans hfile', (h.take_other hj hji).2 hfile' he',
      hdata', ?_⟩
    · show (s.take j).slot i = _
      rw [hslots, if_neg hji]
      exact hi
    · show ev'.notifier = false → e'.armed = false ∧ (s.guards.erase p).count q = 1
      rw [List.count_erase_of_ne hqp]
      exact hone'
  · show (s.take j).kernel.Sound
    rw [htake]
    exact (h.kernel.closeAll ev.owns).delete j

/-! ## Section 4: Events that stay enabled -/

/-- There is an event with this trigger, for this file; it is armed, or a thread handles it. -/
def Enabled (s : EventPoll) (fd : Fd) (file : File) : Prop :=
  ∃ p ev e, s.slot fd = some (p, ev) ∧ s.kernel.files.lookup fd = some file ∧
    s.kernel.interests fd file = some e ∧ e.data = p ∧ (e.armed = true ∨ p ∈ s.guards)

variable {s' : EventPoll} {file' : File}

theorem Enabled.openFd (h : s.Enabled i file) (hj : s.kernel.files.lookup j = none) :
    { s with kernel := s.kernel.openFd j file' }.Enabled i file := by
  obtain ⟨p, ev, e, hslot, hfile, he⟩ := h
  refine ⟨p, ev, e, hslot, ?_, he⟩
  dsimp only
  rw [Kernel.openFd_lookup_ne, hfile]
  rintro rfl
  rw [hj] at hfile
  cases hfile

theorem Enabled.close (h : s.Enabled i file) (hj : s.slot j = none) :
    { s with kernel := s.kernel.close j }.Enabled i file := by
  obtain ⟨p, ev, e, hslot, hfile, he, hrest⟩ := h
  have hij : i ≠ j := by
    rintro rfl
    rw [hslot] at hj
    cases hj
  refine ⟨p, ev, e, hslot, ?_, ?_, hrest⟩
  · exact (Kernel.close_lookup_ne hij).trans hfile
  · exact Kernel.close_interests_of he hfile hij

theorem Enabled.registered (h : s.Enabled i file) (hj : s.slot j = none)
    (hreg : Registered s j file' ev s') : s'.Enabled i file := by
  obtain ⟨p, ev', e, hslot, hfile, he, hrest⟩ := h
  have hij : i ≠ j := by
    rintro rfl
    rw [hslot] at hj
    cases hj
  refine ⟨p, ev', e, ?_, ?_, ?_, ?_⟩
  · rw [hreg.slot, if_neg (Ne.symm hij)]
    exact hslot
  · rcases hreg.kernel with ⟨hk, _⟩ | ⟨hk, _⟩
    · rw [hk]
      exact hfile
    · rw [hk, Kernel.put_files]
      exact hfile
  · rcases hreg.kernel with ⟨hk, _⟩ | ⟨hk, _⟩
    · rw [hk]
      exact he
    · rw [hk, Kernel.put_ne _ (Or.inl hij)]
      exact he
  · rw [hreg.guards]
    exact hrest

/-- A new event is enabled, unless there is an entry of its file under the same descriptor. -/
theorem Registered.enabled (hreg : Registered s i file ev s')
    (hfile : s.kernel.files.lookup i = some file) (hnone : s.kernel.interests i file = none) :
    s'.Enabled i file := by
  rcases hreg.kernel with ⟨_, hk⟩ | ⟨hk, _⟩
  · exact absurd hnone hk
  · refine ⟨s.next, ev, ⟨ev.oneshot, s.next, true⟩, ?_, ?_, ?_, rfl, Or.inl rfl⟩
    · rw [hreg.slot, if_pos rfl]
    · rw [hk, Kernel.put_files]
      exact hfile
    · rw [hk, Kernel.put_self]

theorem Enabled.wait (h : s.Enabled i file) {e : Interest EventPtr}
    (he : s.kernel.interests j file' = some e) :
    { s with
      kernel := s.kernel.put j file' (some { e with armed := !e.oneshot })
      guards := e.data :: s.guards }.Enabled i file := by
  obtain ⟨p, ev, e₁, hslot, hfile, he₁, hdata, hon⟩ := h
  by_cases hkey : i = j ∧ file = file'
  · obtain ⟨rfl, rfl⟩ := hkey
    rw [he] at he₁
    cases he₁
    refine ⟨p, ev, _, hslot, hfile, Kernel.put_self _, hdata, Or.inr ?_⟩
    rw [← hdata]
    exact List.mem_cons_self
  · refine ⟨p, ev, e₁, hslot, hfile, ?_, hdata, hon.imp_right (List.mem_cons_of_mem _)⟩
    dsimp only
    rw [Kernel.put_ne _ (by tauto)]
    exact he₁

theorem Enabled.drop_guard (h : s.Enabled i file) (hs : s.Safe) (hj : s.slot j = some (p, ev))
    (hfile' : s.kernel.files.lookup j = some file') :
    { s with
      kernel := s.kernel.put j file' (some ⟨ev.oneshot, p, true⟩)
      guards := s.guards.erase p }.Enabled i file := by
  obtain ⟨q, ev', e, hslot, hfile, he, hdata, hon⟩ := h
  by_cases hij : i = j
  · subst hij
    rw [hfile] at hfile'
    cases hfile'
    exact ⟨p, ev, _, hj, hfile, Kernel.put_self _, rfl, Or.inl rfl⟩
  · have hqp : q ≠ p := by
      rintro rfl
      exact hij (hs.unique hslot hj)
    refine ⟨q, ev', e, hslot, hfile, ?_, hdata, hon.imp_right fun hq => ?_⟩
    · dsimp only
      rw [Kernel.put_ne _ (Or.inl hij)]
      exact he
    · exact (List.mem_erase_of_ne hqp).mpr hq

/-- Another event is cancelled. -/
theorem Enabled.cancel (h : s.Enabled i file) (hs : s.Safe) (hj : s.slot j = some (p, ev))
    (hij : i ≠ j) : { s.take j with guards := s.guards.erase p }.Enabled i file := by
  obtain ⟨q, ev', e, hslot, hfile, he, hdata, hon⟩ := h
  have hqp : q ≠ p := by
    rintro rfl
    exact hij (hs.unique hslot hj)
  obtain ⟨hfiles, hkept⟩ := hs.take_other hj (Ne.symm hij)
  refine ⟨q, ev', e, ?_, hfiles.trans hfile, hkept hfile he, hdata, hon.imp_right fun hq => ?_⟩
  · show (s.take j).slot i = _
    rw [slot_take, if_neg (Ne.symm hij)]
    exact hslot
  · exact (List.mem_erase_of_ne hqp).mpr hq

end EventPoll

end PqBoringtun
