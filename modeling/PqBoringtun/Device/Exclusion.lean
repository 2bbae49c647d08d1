import PqBoringtun.Device.DevLock

/-! # Who holds the device lock

    What holds in every state that the threads can reach, in any interleaving
    of their steps.

    * Section 1: who holds what (`Lock.Sound`).
    * Section 2: what a step can do (`Lock.Goes`), and that it keeps the locks
      sound.
-/

namespace PqBoringtun

open Scopes

variable {ι T W J : Type} {A : LockClient T W J} {s s' : Lock ι T W J} {i k : ι}
  {e : Option (LockEvent T W J)}

namespace Lock

/-! ## Section 1: Who holds what -/

/-- Who holds what, in every reachable state. -/
structure Sound (s : Lock ι T W J) : Prop where
  /-- The mutex -/
  mutex : AtMostOne Phase.has_mutex s.phase
  /-- The inner lock -/
  writer : Excludes Phase.has_write Phase.has_read s.phase
  /-- One thread at a time wants to write. -/
  owner : AtMostOne Phase.owns s.phase
  wants : s.wants_write = true ↔ ∃ i, (s.phase i).owns = true
  entering : ∀ i, (s.phase i).enters = true → s.wants_write = false
  /-- A thread that is asleep will be notified. -/
  asleep : ∀ i, (s.phase i).sleeps = true → s.wants_write = true ∨ ∃ k, s.phase k = .notify
  /-- After a panic nobody gets in. -/
  panicked : Excludes Phase.panicked Phase.has_read s.phase

theorem Sound.new (value : T) (world : W) : (Lock.new value world : Lock ι T W J).Sound where
  mutex := by
    intro i k hi
    cases hi
  writer := by
    intro i hi
    cases hi
  owner := by
    intro i k hi
    cases hi
  wants := by
    constructor
    · intro h
      cases h
    · rintro ⟨i, hi⟩
      cases hi
  entering := by
    intro i hi
    cases hi
  asleep := by
    intro i hi
    cases hi
  panicked := by
    intro i hi
    cases hi

/-- Nobody is marked as a writer where the mark is not set. -/
theorem Sound.nobody_owns (hs : s.Sound) (hwants : s.wants_write = false) :
    Nowhere Phase.owns s.phase := by
  intro k
  cases hk : (s.phase k).owns with
  | false => rfl
  | true =>
    rw [hs.wants.mpr ⟨k, hk⟩] at hwants
    cases hwants

/-- Two places with the same locks. -/
structure SameLocks (p p' : Phase J) : Prop where
  mutex : p'.has_mutex = p.has_mutex
  read : p'.has_read = p.has_read
  write : p'.has_write = p.has_write
  waits : p'.waits_write = p.waits_write
  prepared : p'.prepared = p.prepared
  kind : p'.kind = p.kind
  idle : p'.idle = p.idle
  owns : p'.owns = p.owns
  enters : p'.enters = p.enters
  panicked : p'.panicked = p.panicked
  job : p'.job = p.job

/-- A notification changes no locks. -/
theorem SameLocks.notified (p : Phase J) : SameLocks p p.notified := by
  cases p <;> exact ⟨rfl, rfl, rfl, rfl, rfl, rfl, rfl, rfl, rfl, rfl, rfl⟩

theorem sleeps_notified (p : Phase J) : p.notified.sleeps = false := by
  cases p <;> rfl

theorem enters_owns {p : Phase J} (h : p.enters = true) :
    p.has_mutex = true ∧ p.owns = false := by
  cases p with
  | read_inner => exact ⟨rfl, rfl⟩
  | read_return => exact ⟨rfl, rfl⟩
  | _ => cases h

theorem sleeps_owns {p : Phase J} (h : p.sleeps = true) : p.owns = false ∧ p ≠ .notify := by
  cases p with
  | read_wait => exact ⟨rfl, by simp⟩
  | write_wait j => exact ⟨rfl, by simp⟩
  | _ => cases h

theorem has_write_owns {p : Phase J} (h : p.has_write = true) :
    p.has_read = false ∧ p.owns = true := by
  cases p with
  | writing j => exact ⟨rfl, rfl⟩
  | _ => cases h

theorem panicked_owns {p : Phase J} (h : p.panicked = true) :
    p.has_read = false ∧ p.owns = true := by
  cases p with
  | unwinding => exact ⟨rfl, rfl⟩
  | dead => exact ⟨rfl, rfl⟩
  | _ => cases h

theorem waits_write_owns {p : Phase J} (h : p.waits_write = true) : p.owns = true := by
  cases p with
  | write_acquire j => rfl
  | _ => cases h

theorem prepared_owns {p : Phase J} {j : J} (h : p.prepared = some j) : p.owns = true := by
  cases p with
  | write_release j => rfl
  | write_acquire j => rfl
  | _ => cases h

/-- Write access is granted to one thread at a time. -/
theorem Sound.writer_unique (hs : s.Sound) {j j' : J} (hi : s.phase i = .writing j)
    (hk : s.phase k = .writing j') : k = i ∧ j' = j := by
  have hki : k = i := hs.owner k i (by rw [hk]; rfl) (by rw [hi]; rfl)
  subst hki
  rw [hi] at hk
  cases hk
  exact ⟨rfl, rfl⟩

/-- A thread that owns the mark is the only one that has write access or has prepared for it. -/
theorem Sound.owner_only (hs : s.Sound) (hi : (s.phase i).owns = true) (hk : k ≠ i) :
    (s.phase k).has_write = false ∧ (s.phase k).prepared = none := by
  constructor
  · cases hw : (s.phase k).has_write with
    | false => rfl
    | true => exact absurd (hs.owner k i (has_write_owns hw).2 hi) hk
  · cases hj : (s.phase k).prepared with
    | none => rfl
    | some j => exact absurd (hs.owner k i (prepared_owns hj) hi) hk

/-- The read lock is free when nobody wants to write. -/
theorem Sound.can_read_unmarked (hs : s.Sound) (hwants : s.wants_write = false) : s.can_read := by
  have hnobody := hs.nobody_owns hwants
  constructor
  · intro k
    cases hw : (s.phase k).has_write with
    | false => rfl
    | true => exact absurd ((hnobody k).symm.trans (has_write_owns hw).2) Bool.false_ne_true
  · intro k
    cases hw : (s.phase k).waits_write with
    | false => rfl
    | true => exact absurd ((hnobody k).symm.trans (waits_write_owns hw)) Bool.false_ne_true

/-! ## Section 2: Steps -/

variable [DecidableEq ι]

/-- The read lock is free for a thread that wants to write and does not ask for the write lock. -/
theorem Sound.can_read_owner (hs : s.Sound) (hi : (s.phase i).owns = true)
    (hwrite : (s.phase i).has_write = false) (hwaits : (s.phase i).waits_write = false) :
    s.can_read := by
  constructor
  · intro k
    by_cases hk : k = i
    · rw [hk]
      exact hwrite
    · exact (hs.owner_only hi hk).1
  · intro k
    cases hw : (s.phase k).waits_write with
    | false => rfl
    | true =>
      rw [hs.owner k i (waits_write_owns hw) hi, hwaits] at hw
      cases hw

/-- What a step from `p` to `q` does to the value and the world. -/
inductive Effect (A : LockClient T W J) (s : Lock ι T W J) :
    Phase J → Phase J → Option (LockEvent T W J) → Lock ι T W J → Prop where
  | nothing {p q : Phase J} {s' : Lock ι T W J} (hp : p.has_write = false)
      (hq : q.has_write = false) (hprepared : q.prepared = p.prepared)
      (hvalue : s'.value = s.value) (hworld : s'.world = s.world) : Effect A s p q none s'
  | prepared {s' : Lock ι T W J} (j : J) (hvalue : s'.value = s.value)
      (hworld : s'.world = A.prep_func j s.value s.world) :
      Effect A s (.prep j) (.write_release j) (some (.prepared j)) s'
  | granted {s' : Lock ι T W J} (j : J) (hvalue : s'.value = s.value)
      (hworld : s'.world = s.world) :
      Effect A s (.write_acquire j) (.writing j) (some (.granted j)) s'
  | wrote {s' : Lock ι T W J} {j j' : J}
      (hmut : A.mut_func j s.value s.world = .ok (s'.value, s'.world, some j')) :
      Effect A s (.writing j) (.writing j') none s'
  | finished {s' : Lock ι T W J} {j : J}
      (hmut : A.mut_func j s.value s.world = .ok (s'.value, s'.world, none)) :
      Effect A s (.writing j) .write_return (some .finished) s'
  | panicked {s' : Lock ι T W J} {j : J} {msg : String}
      (hmut : A.mut_func j s.value s.world = .panic msg) (hvalue : s'.value = s.value)
      (hworld : s'.world = s.world) :
      Effect A s (.writing j) .unwinding (some .panicked) s'

/-- What the places `p` and `q` of a thread before and after a step, and the mark `wants` after it,
    have to do with the locks of the other threads. -/
structure Allowed (s : Lock ι T W J) (p q : Phase J) (wants : Bool) : Prop where
  mutex : q.has_mutex = true → p.has_mutex = true ∨ s.mutex_free
  read : q.has_read = true → p.has_read = true ∨
    (s.can_read ∧ (p.enters = true ∨ p.owns = true ∧ p.panicked = false))
  write : q.has_write = true → p.has_write = true ∨ s.can_write
  marks : q.owns = true → p.owns = true ∨
    (s.wants_write = false ∧ p.has_mutex = true ∧ wants = true)
  clears : p.owns = true → q.owns = true ∨ (q = .notify ∧ wants = false)
  keeps : q.owns = p.owns → wants = s.wants_write
  enters : q.enters = true → p.enters = true ∨ s.wants_write = false
  sleeps : q.sleeps = true → s.wants_write = true
  panics : q.panicked = true → p.panicked = true ∨ p.has_write = true
  stays : p.panicked = true → q.panicked = true
  kind : q.kind = p.kind ∨ q = .guard ∨ p.idle = true
  job : q.job = p.job ∨ p = .guard ∨ q.has_write = true

/-- What a step of the thread `i` from `p` to `q` needs, and what it does. -/
structure Goes (A : LockClient T W J) (s : Lock ι T W J) (i : ι) (p q : Phase J)
    (e : Option (LockEvent T W J)) (s' : Lock ι T W J) : Prop
    extends Allowed s p q s'.wants_write where
  source : s.phase i = p
  phase : s'.phase = Function.update s.phase i q ∨
    p = .notify ∧ s'.phase = Function.update (fun k => (s.phase k).notified) i q
  awake : p = .notify → s'.phase = Function.update (fun k => (s.phase k).notified) i q
  effect : Effect A s p q e s'

namespace Goes

variable {p q : Phase J}

theorem at_self (h : Goes A s i p q e s') : s'.phase i = q := by
  rcases h.phase with hphase | ⟨_, hphase⟩
  · rw [hphase, Function.update_self]
  · rw [hphase, Function.update_self]

/-- The other threads stay where they are, or are notified. -/
theorem at_other_place (h : Goes A s i p q e s') (hk : k ≠ i) :
    s'.phase k = s.phase k ∨ s'.phase k = (s.phase k).notified := by
  rcases h.phase with hphase | ⟨_, hphase⟩
  · exact Or.inl (by rw [hphase, Function.update_of_ne hk])
  · exact Or.inr (by rw [hphase, Function.update_of_ne hk])

/-- The other threads keep their locks. -/
theorem at_other (h : Goes A s i p q e s') (hk : k ≠ i) : SameLocks (s.phase k) (s'.phase k) := by
  rcases h.at_other_place hk with hplace | hplace
  · rw [hplace]
    exact ⟨rfl, rfl, rfl, rfl, rfl, rfl, rfl, rfl, rfl, rfl, rfl⟩
  · rw [hplace]
    exact .notified _

theorem owner (h : Goes A s i p q e s') (hs : s.Sound) : AtMostOne Phase.owns s'.phase := by
  refine hs.owner.move (fun k hk => (h.at_other hk).owns) fun hi => ?_
  rw [h.at_self] at hi
  rw [h.source]
  rcases h.marks hi with hp | ⟨hwants, _⟩
  · exact Or.inl hp
  · exact Or.inr (hs.nobody_owns hwants)

theorem wants (h : Goes A s i p q e s') (hs : s.Sound) :
    s'.wants_write = true ↔ ∃ k, (s'.phase k).owns = true := by
  have howns : ∀ k, k ≠ i → (s'.phase k).owns = (s.phase k).owns := fun k hk => (h.at_other hk).owns
  cases hq : q.owns with
  | true =>
    have hwants : s'.wants_write = true := by
      rcases h.marks hq with hp | ⟨_, _, hwants⟩
      · rw [h.keeps (hq.trans hp.symm)]
        exact hs.wants.mpr ⟨i, by rw [h.source]; exact hp⟩
      · exact hwants
    exact ⟨fun _ => ⟨i, by rw [h.at_self]; exact hq⟩, fun _ => hwants⟩
  | false =>
    cases hp : p.owns with
    | false =>
      rw [h.keeps (hq.trans hp.symm), hs.wants]
      constructor
      · rintro ⟨k, hk⟩
        have hki : k ≠ i := by
          rintro rfl
          rw [h.source, hp] at hk
          cases hk
        exact ⟨k, (howns k hki).trans hk⟩
      · rintro ⟨k, hk⟩
        have hki : k ≠ i := by
          rintro rfl
          rw [h.at_self, hq] at hk
          cases hk
        exact ⟨k, (howns k hki).symm.trans hk⟩
    | true =>
      -- The mark is cleared by the only thread that had set it.
      rcases h.clears hp with hq' | ⟨_, hwants⟩
      · rw [hq] at hq'
        cases hq'
      rw [hwants]
      constructor
      · intro hfalse
        cases hfalse
      · rintro ⟨k, hk⟩
        by_cases hki : k = i
        · rw [hki, h.at_self, hq] at hk
          cases hk
        · rw [howns k hki] at hk
          exact absurd (hs.owner k i hk (by rw [h.source]; exact hp)) hki

/-- The mark is set by a thread that has the mutex, or it was set before. -/
theorem marked (h : Goes A s i p q e s') (hs : s.Sound) (hwants : s'.wants_write = true) :
    s.wants_write = true ∨ p.has_mutex = true := by
  obtain ⟨k, hk⟩ := (h.wants hs).mp hwants
  by_cases hki : k = i
  · rw [hki, h.at_self] at hk
    rcases h.marks hk with hp | ⟨_, hmutex, _⟩
    · exact Or.inl (hs.wants.mpr ⟨i, by rw [h.source]; exact hp⟩)
    · exact Or.inr hmutex
  · rw [(h.at_other hki).owns] at hk
    exact Or.inl (hs.wants.mpr ⟨k, hk⟩)

theorem entering (h : Goes A s i p q e s') (hs : s.Sound) (k : ι)
    (hk : (s'.phase k).enters = true) : s'.wants_write = false := by
  by_cases hki : k = i
  · rw [hki, h.at_self] at hk
    have hwants : s.wants_write = false := by
      rcases h.enters hk with hp | hwants
      · exact hs.entering i (by rw [h.source]; exact hp)
      · exact hwants
    have hp : p.owns = false := by
      rw [← h.source]
      exact hs.nobody_owns hwants i
    rw [h.keeps ((enters_owns hk).2.trans hp.symm)]
    exact hwants
  · rw [(h.at_other hki).enters] at hk
    cases hwants : s'.wants_write with
    | false => rfl
    | true =>
      rcases h.marked hs hwants with hset | hmutex
      · rw [hs.entering k hk] at hset
        cases hset
      · -- Both threads would have the mutex.
        rw [← h.source] at hmutex
        exact absurd (hs.mutex k i (enters_owns hk).1 hmutex) hki

theorem asleep (h : Goes A s i p q e s') (hs : s.Sound) (k : ι)
    (hk : (s'.phase k).sleeps = true) :
    s'.wants_write = true ∨ ∃ m, s'.phase m = .notify := by
  by_cases hki : k = i
  · rw [hki, h.at_self] at hk
    obtain ⟨hq, hnotify⟩ := sleeps_owns hk
    cases hp : p.owns with
    | false =>
      rw [h.keeps (hq.trans hp.symm)]
      exact Or.inl (h.sleeps hk)
    | true =>
      rcases h.clears hp with hq' | ⟨hq', _⟩
      · rw [hq] at hq'
        cases hq'
      · exact absurd hq' hnotify
  · rcases h.phase with hphase | ⟨_, hphase⟩
    · have hsame : ∀ m, m ≠ i → s'.phase m = s.phase m := by
        intro m hm
        rw [hphase, Function.update_of_ne hm]
      rw [hsame k hki] at hk
      rcases hs.asleep k hk with hwants | ⟨m, hm⟩
      · cases hq : q.owns with
        | true => exact Or.inl ((h.wants hs).mpr ⟨i, by rw [h.at_self]; exact hq⟩)
        | false =>
          cases hp : p.owns with
          | false =>
            rw [h.keeps (hq.trans hp.symm)]
            exact Or.inl hwants
          | true =>
            rcases h.clears hp with hq' | ⟨hq', _⟩
            · rw [hq] at hq'
              cases hq'
            · exact Or.inr ⟨i, h.at_self.trans hq'⟩
      · by_cases hmi : m = i
        · -- The thread that notifies wakes everybody up.
          rw [hmi, h.source] at hm
          have hawake := h.awake hm
          have hk' : s'.phase k = (s.phase k).notified := by
            rw [hawake, Function.update_of_ne hki]
          rw [← hsame k hki, hk', sleeps_notified] at hk
          cases hk
        · exact Or.inr ⟨m, (hsame m hmi).trans hm⟩
    · rw [hphase, Function.update_of_ne hki, sleeps_notified] at hk
      cases hk

/-- **A step keeps the locks sound.** -/
theorem sound (h : Goes A s i p q e s') (hs : s.Sound) : s'.Sound where
  mutex := by
    refine hs.mutex.move (fun k hk => (h.at_other hk).mutex) fun hi => ?_
    rw [h.at_self] at hi
    rw [h.source]
    exact h.mutex hi
  writer := by
    refine hs.writer.move (fun k hk => (h.at_other hk).write) (fun k hk => (h.at_other hk).read)
      (fun hi => ?_) fun hi => ?_
    · rw [h.at_self] at hi ⊢
      rw [h.source]
      refine ⟨(has_write_owns hi).1, ?_⟩
      rcases h.write hi with hp | hfree
      · exact Or.inl hp
      · exact Or.inr hfree.1
    · rw [h.at_self] at hi
      rw [h.source]
      rcases h.read hi with hp | ⟨hfree, _⟩
      · exact Or.inl hp
      · exact Or.inr hfree.1
  owner := h.owner hs
  wants := h.wants hs
  entering := h.entering hs
  asleep := h.asleep hs
  panicked := by
    refine hs.panicked.move (fun k hk => (h.at_other hk).panicked)
      (fun k hk => (h.at_other hk).read) (fun hi => ?_) fun hi => ?_
    · rw [h.at_self] at hi ⊢
      rw [h.source]
      refine ⟨(panicked_owns hi).1, ?_⟩
      rcases h.panics hi with hp | hp
      · exact Or.inl hp
      · exact Or.inr (hs.writer i (by rw [h.source]; exact hp))
    · rw [h.at_self] at hi
      rw [h.source]
      rcases h.read hi with hp | ⟨_, hp⟩
      · exact Or.inl hp
      refine Or.inr fun k => ?_
      cases hk : (s.phase k).panicked with
      | false => rfl
      | true =>
        have hown := (panicked_owns hk).2
        rcases hp with hp | ⟨hp, hnot⟩
        · rw [hs.nobody_owns (hs.entering i (by rw [h.source]; exact hp)) k] at hown
          cases hown
        · rw [hs.owner k i hown (by rw [h.source]; exact hp), h.source, hnot] at hk
          cases hk

end Goes

variable [Fintype ι]

section cases
attribute [local simp] Phase.has_mutex Phase.has_read Phase.has_write Phase.owns Phase.enters
  Phase.sleeps Phase.panicked Phase.kind Phase.idle Phase.job goto

omit [DecidableEq ι] [Fintype ι] in
/-- A step that had to wait for something. -/
private theorem ite_eq_some {c : Prop} [Decidable c] {x s' : Lock ι T W J}
    {y e : Option (LockEvent T W J)} (h : (if c then some (x, y) else none) = some (s', e)) :
    c ∧ x = s' ∧ y = e := by
  by_cases hc : c
  · rw [if_pos hc] at h
    cases h
    exact ⟨hc, rfl, rfl⟩
  · rw [if_neg hc] at h
    cases h

/-- **What a thread inside of the lock can do.** -/
theorem proceed_cases (h : s.proceed A i = some (s', e)) : ∃ p q, Goes A s i p q e s' := by
  unfold proceed at h
  cases hp : s.phase i with
  | outside => simp [hp] at h
  | guard => simp [hp] at h
  | dead => simp [hp] at h
  | read_wait => simp [hp] at h
  | write_wait j => simp [hp] at h
  | read_lock =>
    rw [hp] at h
    obtain ⟨hfree, rfl, rfl⟩ := ite_eq_some h
    exact ⟨_, .read_check, by constructor <;> simp [hfree], hp, Or.inl rfl, by simp,
      .nothing rfl rfl rfl rfl rfl⟩
  | read_check =>
    rw [hp] at h
    cases hwants : s.wants_write with
    | true =>
      rw [hwants] at h
      cases h
      exact ⟨_, .read_wait, by constructor <;> simp [hwants], hp, Or.inl rfl, by simp,
        .nothing rfl rfl rfl rfl rfl⟩
    | false =>
      rw [hwants] at h
      cases h
      exact ⟨_, .read_inner, by constructor <;> simp [hwants], hp, Or.inl rfl, by simp,
        .nothing rfl rfl rfl rfl rfl⟩
  | read_wake =>
    rw [hp] at h
    obtain ⟨hfree, rfl, rfl⟩ := ite_eq_some h
    exact ⟨_, .read_check, by constructor <;> simp [hfree], hp, Or.inl rfl, by simp,
      .nothing rfl rfl rfl rfl rfl⟩
  | read_inner =>
    rw [hp] at h
    obtain ⟨hfree, rfl, rfl⟩ := ite_eq_some h
    exact ⟨_, .read_return, by constructor <;> simp [hfree], hp, Or.inl rfl, by simp,
      .nothing rfl rfl rfl rfl rfl⟩
  | read_return =>
    rw [hp] at h
    cases h
    exact ⟨_, .guard, by constructor <;> simp, hp, Or.inl rfl, by simp,
      .nothing rfl rfl rfl rfl rfl⟩
  | write_lock j =>
    rw [hp] at h
    obtain ⟨hfree, rfl, rfl⟩ := ite_eq_some h
    exact ⟨_, .write_unlock j, by constructor <;> simp [hfree], hp, Or.inl rfl, by simp,
      .nothing rfl rfl rfl rfl rfl⟩
  | write_unlock j =>
    rw [hp] at h
    cases h
    exact ⟨_, .write_check j, by constructor <;> simp, hp, Or.inl rfl, by simp,
      .nothing rfl rfl rfl rfl rfl⟩
  | write_check j =>
    rw [hp] at h
    cases hwants : s.wants_write with
    | true =>
      rw [hwants] at h
      cases h
      exact ⟨_, .write_wait j, by constructor <;> simp [hwants], hp, Or.inl rfl, by simp,
        .nothing rfl rfl rfl rfl rfl⟩
    | false =>
      rw [hwants] at h
      cases h
      exact ⟨_, .write_relock j, by constructor <;> simp [hwants], hp, Or.inl rfl, by simp,
        .nothing rfl rfl rfl rfl rfl⟩
  | write_wake j =>
    rw [hp] at h
    obtain ⟨hfree, rfl, rfl⟩ := ite_eq_some h
    exact ⟨_, .write_check j, by constructor <;> simp [hfree], hp, Or.inl rfl, by simp,
      .nothing rfl rfl rfl rfl rfl⟩
  | write_relock j =>
    rw [hp] at h
    obtain ⟨hfree, rfl, rfl⟩ := ite_eq_some h
    exact ⟨_, .prep j, by constructor <;> simp [hfree], hp, Or.inl rfl, by simp,
      .nothing rfl rfl rfl rfl rfl⟩
  | prep j =>
    rw [hp] at h
    cases h
    exact ⟨_, .write_release j, by constructor <;> simp, hp, Or.inl rfl, by simp,
      .prepared j rfl rfl⟩
  | write_release j =>
    rw [hp] at h
    cases h
    exact ⟨_, .write_acquire j, by constructor <;> simp, hp, Or.inl rfl, by simp,
      .nothing rfl rfl rfl rfl rfl⟩
  | write_acquire j =>
    rw [hp] at h
    obtain ⟨hfree, rfl, rfl⟩ := ite_eq_some h
    exact ⟨_, .writing j, by constructor <;> simp [hfree], hp, Or.inl rfl, by simp,
      .granted j rfl rfl⟩
  | writing j =>
    rw [hp] at h
    dsimp only at h
    cases hmut : A.mut_func j s.value s.world with
    | panic msg =>
      rw [hmut] at h
      cases h
      exact ⟨_, .unwinding, by constructor <;> simp, hp, Or.inl rfl, by simp,
        .panicked hmut rfl rfl⟩
    | ok x =>
      obtain ⟨value, world, rest⟩ := x
      rw [hmut] at h
      cases rest with
      | some j' =>
        cases h
        exact ⟨_, .writing j', by constructor <;> simp, hp, Or.inl rfl, by simp,
          .wrote hmut⟩
      | none =>
        cases h
        exact ⟨_, .write_return, by constructor <;> simp, hp, Or.inl rfl, by simp,
          .finished hmut⟩
  | write_return =>
    rw [hp] at h
    obtain ⟨hfree, rfl, rfl⟩ := ite_eq_some h
    exact ⟨_, .signal_lock, by constructor <;> simp [hfree], hp, Or.inl rfl, by simp,
      .nothing rfl rfl rfl rfl rfl⟩
  | signal_lock =>
    rw [hp] at h
    obtain ⟨hfree, rfl, rfl⟩ := ite_eq_some h
    exact ⟨_, .signal, by constructor <;> simp [hfree], hp, Or.inl rfl, by simp,
      .nothing rfl rfl rfl rfl rfl⟩
  | signal =>
    rw [hp] at h
    cases h
    exact ⟨_, .notify, by constructor <;> simp, hp, Or.inl rfl, by simp,
      .nothing rfl rfl rfl rfl rfl⟩
  | notify =>
    rw [hp] at h
    cases h
    exact ⟨_, .guard, by constructor <;> simp, hp, Or.inr ⟨rfl, rfl⟩, by simp,
      .nothing rfl rfl rfl rfl rfl⟩
  | unwinding =>
    rw [hp] at h
    obtain ⟨hfree, rfl, rfl⟩ := ite_eq_some h
    exact ⟨_, .dead, by constructor <;> simp [hfree], hp, Or.inl rfl, by simp,
      .nothing rfl rfl rfl rfl rfl⟩

/-- **What a step can do**: a change through a shared reference, or a move. -/
theorem step_cases {c : Command T W J} (h : s.step A i c = some (s', e)) :
    (∃ value world, c = .touch value world ∧ s.phase i = .guard ∧
      s' = { s with value := value, world := world } ∧ e = some (.touched value world)) ∨
    ∃ p q, Goes A s i p q e s' := by
  unfold step at h
  split at h
  · rename_i hp
    cases h
    exact Or.inr ⟨_, .read_lock, by constructor <;> simp, hp, Or.inl rfl, by simp,
      .nothing rfl rfl rfl rfl rfl⟩
  · rename_i hp
    cases h
    exact Or.inr ⟨_, .outside, by constructor <;> simp, hp, Or.inl rfl, by simp,
      .nothing rfl rfl rfl rfl rfl⟩
  · rename_i j hp
    cases h
    exact Or.inr ⟨_, .write_lock j, by constructor <;> simp, hp, Or.inl rfl, by simp,
      .nothing rfl rfl rfl rfl rfl⟩
  · rename_i value world hp
    cases h
    exact Or.inl ⟨value, world, rfl, hp, rfl, rfl⟩
  · exact Or.inr (proceed_cases h)
  · cases h

end cases

/-- A thread that goes on is inside of the lock. -/
theorem proceed_busy (h : s.proceed A i = some (s', e)) : (s.phase i).idle = false := by
  cases hp : s.phase i with
  | outside => simp [proceed, hp] at h
  | guard => simp [proceed, hp] at h
  | _ => rfl

section commands
variable {c : Command T W J}

theorem step_read (h : s.step A i .read = some (s', e)) :
    s.phase i = .outside ∧ s'.phase = Function.update s.phase i .read_lock := by
  cases hp : s.phase i with
  | outside =>
    simp only [step, hp, Option.some.injEq, Prod.mk.injEq] at h
    exact ⟨rfl, by rw [← h.1]; rfl⟩
  | _ => simp [step, hp] at h

theorem step_drop (h : s.step A i .drop = some (s', e)) :
    s.phase i = .guard ∧ s'.phase = Function.update s.phase i .outside := by
  cases hp : s.phase i with
  | guard =>
    simp only [step, hp, Option.some.injEq, Prod.mk.injEq] at h
    exact ⟨rfl, by rw [← h.1]; rfl⟩
  | _ => simp [step, hp] at h

theorem step_try_writeable {j : J} (h : s.step A i (.try_writeable j) = some (s', e)) :
    s.phase i = .guard ∧ s'.value = s.value ∧
      s'.phase = Function.update s.phase i (.write_lock j) := by
  cases hp : s.phase i with
  | guard =>
    simp only [step, hp, Option.some.injEq, Prod.mk.injEq] at h
    exact ⟨rfl, by rw [← h.1]; rfl, by rw [← h.1]; rfl⟩
  | _ => simp [step, hp] at h

theorem step_touch {value : T} {world : W} (h : s.step A i (.touch value world) = some (s', e)) :
    s.phase i = .guard ∧ s' = { s with value := value, world := world } := by
  cases hp : s.phase i with
  | guard =>
    simp only [step, hp, Option.some.injEq, Prod.mk.injEq] at h
    exact ⟨rfl, h.1.symm⟩
  | _ => simp [step, hp] at h

/-- The other threads stay where they are, or are notified. -/
theorem step_other (h : s.step A i c = some (s', e)) (hk : k ≠ i) :
    s'.phase k = s.phase k ∨ s'.phase k = (s.phase k).notified := by
  obtain ⟨v, w, _, _, rfl, _⟩ | ⟨p, q, hgoes⟩ := step_cases h
  · exact Or.inl rfl
  · exact hgoes.at_other_place hk

/-- Without a call of `try_writeable` a thread gets nothing new to do. -/
theorem step_moves (h : s.step A i c = some (s', e)) (hc : c = .read ∨ c = .drop ∨ c = .proceed) :
    ∃ p q, Goes A s i p q e s' ∧ (q.job = p.job ∨ q.has_write = true) := by
  obtain ⟨v, w, rfl, _⟩ | ⟨p, q, hgoes⟩ := step_cases h
  · simp at hc
  refine ⟨p, q, hgoes, ?_⟩
  rcases hgoes.job with hjob | rfl | hwrite
  · exact Or.inl hjob
  · have hguard := hgoes.source
    rcases hc with rfl | rfl | rfl
    · rw [(step_read h).1] at hguard
      cases hguard
    · have hself := hgoes.at_self
      rw [(step_drop h).2, Function.update_self] at hself
      rw [← hself]
      exact Or.inl rfl
    · have hbusy := proceed_busy h
      rw [hguard] at hbusy
      cases hbusy
  · exact Or.inr hwrite

end commands

theorem step_sound {l : LockLabel ι T W J} (hs : s.Sound) (hstep : (locking A).step s l s') :
    s'.Sound := by
  obtain ⟨v, w, _, _, rfl, _⟩ | ⟨p, q, hgoes⟩ := step_cases hstep.1
  · exact ⟨hs.mutex, hs.writer, hs.owner, hs.wants, hs.entering, hs.asleep, hs.panicked⟩
  · exact hgoes.sound hs

/-- **Every reachable state is sound.** -/
theorem run_sound {value : T} {world : W} {tr : List (LockLabel ι T W J)}
    (hrun : Run (locking A) (Lock.new value world) tr s) : s.Sound :=
  hrun.invariant (I := fun _ s => s.Sound) (.new value world) step_sound

end Lock

end PqBoringtun
