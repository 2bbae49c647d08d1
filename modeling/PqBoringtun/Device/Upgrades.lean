import PqBoringtun.Device.Exclusion

/-! # What the device lock guarantees

    * Section 1: write access is atomic (`Lock.run_explained`).
    * Section 2: as long as nobody has panicked, some thread can go on, unless
      a writer waits for a guard that is kept (`Lock.Sound.progress`).
-/

namespace PqBoringtun

open Scopes

variable {ι T W J : Type} {A : LockClient T W J} {s s' : Lock ι T W J} {i k : ι}
  {e : Option (LockEvent T W J)}

namespace Lock

/-! ## Section 1: Write access is atomic -/

/-- Some steps of `mut_func`, with nothing in between. -/
inductive Partly (A : LockClient T W J) (j : J) (value : T) (world : W) : J → T → W → Prop where
  | start : Partly A j value world j value world
  | more {j₁ j₂ : J} {v₁ v₂ : T} {w₁ w₂ : W} (h : Partly A j value world j₁ v₁ w₁)
      (hmut : A.mut_func j₁ v₁ w₁ = .ok (v₂, w₂, some j₂)) : Partly A j value world j₂ v₂ w₂

/-- Executions in which `mut_func` runs at once, behind its own `prep_func`: what happens, what
    was prepared and waits for the write lock, and the value and the world afterwards. -/
inductive Serial (A : LockClient T W J) (value : T) (world : W) :
    List (LockEvent T W J) → Option J → T → W → Prop where
  | nil : Serial A value world [] none value world
  | touched {log : List (LockEvent T W J)} {o : Option J} {v v' : T} {w : W} (w' : W)
      (h : Serial A value world log o v w) (hinterior : A.interior v v') :
      Serial A value world (log ++ [LockEvent.touched v' w']) o v' w'
  | prepared {log : List (LockEvent T W J)} {v : T} {w : W} (j : J)
      (h : Serial A value world log none v w) :
      Serial A value world (log ++ [LockEvent.prepared j]) (some j) v (A.prep_func j v w)
  | finished {log : List (LockEvent T W J)} {j j' : J} {v v' v'' : T} {w w' w'' : W}
      (h : Serial A value world log (some j) v w) (hpartly : Partly A j v w j' v' w')
      (hmut : A.mut_func j' v' w' = .ok (v'', w'', none)) :
      Serial A value world (log ++ [LockEvent.granted j, LockEvent.finished]) none v'' w''
  | panicked {log : List (LockEvent T W J)} {j j' : J} {v v' : T} {w w' : W} {msg : String}
      (h : Serial A value world log (some j) v w) (hpartly : Partly A j v w j' v' w')
      (hmut : A.mut_func j' v' w' = .panic msg) :
      Serial A value world (log ++ [LockEvent.granted j, LockEvent.panicked]) none v' w'

/-- A state that is reached by an execution of this kind, or inside of `mut_func`. -/
inductive Explained (A : LockClient T W J) (value : T) (world : W)
    (log : List (LockEvent T W J)) (s : Lock ι T W J) : Prop where
  | settled {o : Option J} (h : Serial A value world log o s.value s.world)
      (hnobody : Nowhere Phase.has_write s.phase)
      (hprepared : ∀ j, o = some j ↔ ∃ i, (s.phase i).prepared = some j)
  | inside {log' : List (LockEvent T W J)} {j j' : J} {v : T} {w : W} (i : ι)
      (hi : s.phase i = .writing j') (h : Serial A value world log' (some j) v w)
      (hlog : log = log' ++ [LockEvent.granted j])
      (hpartly : Partly A j v w j' s.value s.world)

/-- While a thread has the read lock, no thread is inside of `mut_func`. -/
theorem Explained.settled_of {value : T} {world : W} {log : List (LockEvent T W J)}
    (h : Explained A value world log s) (hs : s.Sound) (hi : (s.phase i).has_write = false)
    (hfree : (s.phase i).has_read = true ∨ (s.phase i).owns = true) :
    ∃ o, Serial A value world log o s.value s.world ∧ Nowhere Phase.has_write s.phase ∧
      ∀ j, o = some j ↔ ∃ i, (s.phase i).prepared = some j := by
  cases h with
  | settled h hnobody hprepared => exact ⟨_, h, hnobody, hprepared⟩
  | inside k hk _ _ _ =>
    have hwrite : (s.phase k).has_write = true := by
      rw [hk]
      rfl
    rcases hfree with hread | howns
    · rw [hs.writer k hwrite i] at hread
      cases hread
    · rw [hs.owner k i (has_write_owns hwrite).2 howns, hi] at hwrite
      cases hwrite

variable [DecidableEq ι]

/-- What the writer does to the value leads to a settled state again. -/
theorem Goes.settles {p q : Phase J} (h : Goes A s i p q e s') (hs : s.Sound)
    (hp : p.owns = true) (hq : q.has_write = false) (hprepared : q.prepared = none) :
    Nowhere Phase.has_write s'.phase ∧
      ∀ j : J, none = some j ↔ ∃ k, (s'.phase k).prepared = some j := by
  have hi : (s.phase i).owns = true := by rw [h.source]; exact hp
  have hother : ∀ k, k ≠ i → (s'.phase k).has_write = false ∧ (s'.phase k).prepared = none := by
    intro k hk
    rw [(h.at_other hk).write, (h.at_other hk).prepared]
    exact hs.owner_only hi hk
  constructor
  · intro k
    by_cases hk : k = i
    · rw [hk, h.at_self]
      exact hq
    · exact (hother k hk).1
  · intro j
    constructor
    · intro hj
      cases hj
    · rintro ⟨k, hj⟩
      by_cases hk : k = i
      · rw [hk, h.at_self, hprepared] at hj
        cases hj
      · rw [(hother k hk).2] at hj
        cases hj

/-- A move keeps the explanation. -/
theorem Goes.explained {value : T} {world : W} {log : List (LockEvent T W J)} {p q : Phase J}
    (h : Goes A s i p q e s') (hs : s.Sound) (hexp : Explained A value world log s) :
    Explained A value world (log ++ e.toList) s' := by
  have hsource := h.source
  have hself := h.at_self
  cases h.effect with
  | nothing hp hq hprep hvalue hworld =>
    rw [Option.toList_none, List.append_nil]
    cases hexp with
    | @settled o hserial hnobody hprepared =>
      refine .settled (o := o) (by rw [hvalue, hworld]; exact hserial) ?_ ?_
      · intro k
        by_cases hk : k = i
        · rw [hk, hself]
          exact hq
        · rw [(h.at_other hk).write]
          exact hnobody k
      · intro j
        have hsame : ∀ k, (s'.phase k).prepared = (s.phase k).prepared := by
          intro k
          by_cases hk : k = i
          · rw [hk, hself, hsource]
            exact hprep
          · exact (h.at_other hk).prepared
        simp only [hsame]
        exact hprepared j
    | inside k hk hserial hlog hpartly =>
      have hki : k ≠ i := by
        rintro rfl
        rw [← hsource, hk] at hp
        cases hp
      refine .inside k ?_ hserial hlog (by rw [hvalue, hworld]; exact hpartly)
      rcases h.at_other_place hki with hplace | hplace
      · rw [hplace, hk]
      · rw [hplace, hk]
        rfl
  | prepared j hvalue hworld =>
    obtain ⟨o, hserial, hnobody, hprepared⟩ := hexp.settled_of hs (i := i) (by rw [hsource]; rfl)
      (Or.inl (by rw [hsource]; rfl))
    have howns : (s.phase i).owns = true := by rw [hsource]; rfl
    have hnone : o = none := by
      cases o with
      | none => rfl
      | some j₀ =>
        obtain ⟨k, hk⟩ := (hprepared j₀).mp rfl
        have hki := hs.owner k i (prepared_owns hk) howns
        rw [hki, hsource] at hk
        cases hk
    subst hnone
    refine .settled (o := some j) ?_ ?_ ?_
    · rw [hvalue, hworld]
      exact .prepared j hserial
    · intro k
      by_cases hk : k = i
      · rw [hk, hself]
        rfl
      · rw [(h.at_other hk).write]
        exact hnobody k
    · intro j₁
      constructor
      · intro hj
        exact ⟨i, by rw [hself]; exact hj⟩
      · rintro ⟨k, hk⟩
        by_cases hki : k = i
        · rw [hki, hself] at hk
          exact hk
        · rw [(h.at_other hki).prepared, (hs.owner_only howns hki).2] at hk
          cases hk
  | granted j hvalue hworld =>
    obtain ⟨o, hserial, _, hprepared⟩ := hexp.settled_of hs (i := i) (by rw [hsource]; rfl)
      (Or.inr (by rw [hsource]; rfl))
    have hsome : o = some j := (hprepared j).mpr ⟨i, by rw [hsource]; rfl⟩
    subst hsome
    refine .inside i hself hserial rfl ?_
    rw [hvalue, hworld]
    exact .start
  | wrote hmut =>
    rw [Option.toList_none, List.append_nil]
    cases hexp with
    | settled _ hnobody _ =>
      have := hnobody i
      rw [hsource] at this
      cases this
    | inside k hk hserial hlog hpartly =>
      obtain ⟨rfl, rfl⟩ := hs.writer_unique hsource hk
      exact .inside k hself hserial hlog (hpartly.more hmut)
  | finished hmut =>
    cases hexp with
    | settled _ hnobody _ =>
      have := hnobody i
      rw [hsource] at this
      cases this
    | inside k hk hserial hlog hpartly =>
      obtain ⟨rfl, rfl⟩ := hs.writer_unique hsource hk
      obtain ⟨hnobody, hprepared⟩ := h.settles hs rfl rfl rfl
      refine .settled ?_ hnobody hprepared
      rw [hlog, List.append_assoc]
      exact .finished hserial hpartly hmut
  | panicked hmut hvalue hworld =>
    cases hexp with
    | settled _ hnobody _ =>
      have := hnobody i
      rw [hsource] at this
      cases this
    | inside k hk hserial hlog hpartly =>
      obtain ⟨rfl, rfl⟩ := hs.writer_unique hsource hk
      obtain ⟨hnobody, hprepared⟩ := h.settles hs rfl rfl rfl
      refine .settled ?_ hnobody hprepared
      rw [hlog, List.append_assoc, hvalue, hworld]
      exact .panicked hserial hpartly hmut

variable [Fintype ι]

/-- **Write access is atomic.**  Whatever threads interleave, the value is that of an execution
    in which every `mut_func` runs at once, behind its own `prep_func` and with no other upgrade in
    between, or such an execution followed by a part of one `mut_func`. -/
theorem run_explained {value : T} {world : W} {tr : List (LockLabel ι T W J)}
    (hrun : Run (locking A) (Lock.new value world) tr s) :
    Explained A value world (lockEvents tr) s := by
  have hboth := hrun.invariant
    (I := fun tr s => s.Sound ∧ Explained A value world (lockEvents tr) s)
    ⟨.new value world, .settled .nil (fun _ => rfl) (by simp [Lock.new, Phase.prepared])⟩ ?_
  · exact hboth.2
  rintro tr s l s' ⟨hs, hexp⟩ ⟨hstep, hpermits⟩
  have hlog : lockEvents (tr ++ [l]) = lockEvents tr ++ l.event.toList := by
    simp [lockEvents]
  rw [hlog]
  obtain ⟨v, w, hc, hguard, rfl, hevent⟩ | ⟨p, q, hgoes⟩ := step_cases hstep
  · refine ⟨step_sound hs ⟨hstep, hpermits⟩, ?_⟩
    obtain ⟨o, hserial, hnobody, hprepared⟩ := hexp.settled_of hs (i := l.thread)
      (by rw [hguard]; rfl) (Or.inl (by rw [hguard]; rfl))
    rw [hevent]
    exact .settled (.touched w hserial (hpermits v w hc)) hnobody hprepared
  · exact ⟨hgoes.sound hs, hgoes.explained hs hexp⟩

/-! ## Section 2: No deadlock -/

/-- A thread that has the mutex does not wait. -/
theorem Sound.mutex_proceeds (hs : s.Sound) (hk : (s.phase k).has_mutex = true) :
    (s.proceed A k).isSome := by
  cases hp : s.phase k with
  | read_check => cases hwants : s.wants_write <;> simp [proceed, hp, hwants]
  | read_inner =>
    have hfree := hs.can_read_unmarked (hs.entering k (by rw [hp]; rfl))
    simp [proceed, hp, hfree]
  | read_return => simp [proceed, hp]
  | write_unlock j => simp [proceed, hp]
  | write_check j => cases hwants : s.wants_write <;> simp [proceed, hp, hwants]
  | signal => simp [proceed, hp]
  | notify => simp [proceed, hp]
  | _ =>
    rw [hp] at hk
    cases hk

/-- A thread that asks for the write lock gets it, unless a reader keeps its guard. -/
theorem Sound.acquire_proceeds (hs : s.Sound) (hfree : s.mutex_free) {j : J}
    (hi : s.phase i = .write_acquire j) :
    (∃ k, (s.proceed A k).isSome) ∨ ∃ k, s.phase k = .guard := by
  have howns : (s.phase i).owns = true := by rw [hi]; rfl
  have hwrite : Nowhere Phase.has_write s.phase := by
    intro k
    by_cases hk : k = i
    · rw [hk, hi]
      rfl
    · exact (hs.owner_only howns hk).1
  by_cases hread : Nowhere Phase.has_read s.phase
  · have hcan : s.can_write := ⟨hread, hwrite⟩
    exact Or.inl ⟨i, by simp [proceed, hi, hcan]⟩
  · obtain ⟨k, hk⟩ := not_forall.mp hread
    have hk : (s.phase k).has_read = true := by simpa using hk
    have hmutex := hfree k
    have hother : (s.phase k).owns = false := by
      cases hown : (s.phase k).owns with
      | false => rfl
      | true =>
        rw [hs.owner k i hown howns, hi] at hk
        cases hk
    cases hp : s.phase k with
    | guard => exact Or.inr ⟨k, hp⟩
    | write_lock j' => exact Or.inl ⟨k, by simp [proceed, hp, hfree]⟩
    | _ => simp [hp, Phase.has_read, Phase.has_mutex, Phase.owns] at hk hmutex hother

/-- The thread that wants to write goes on, unless a reader keeps its guard. -/
theorem Sound.owner_proceeds (hs : s.Sound) (hfree : s.mutex_free)
    (hpanic : Nowhere Phase.panicked s.phase) (hi : (s.phase i).owns = true) :
    (∃ k, (s.proceed A k).isSome) ∨
      ((s.phase i).waits_write = true ∧ ∃ k, s.phase k = .guard) := by
  cases hp : s.phase i with
  | write_relock j =>
    have hread := hs.can_read_owner hi (by rw [hp]; rfl) (by rw [hp]; rfl)
    exact Or.inl ⟨i, by simp [proceed, hp, hread]⟩
  | prep j => exact Or.inl ⟨i, by simp [proceed, hp]⟩
  | write_release j => exact Or.inl ⟨i, by simp [proceed, hp]⟩
  | write_acquire j => exact (hs.acquire_proceeds hfree hp).imp_right fun h => ⟨rfl, h⟩
  | writing j =>
    refine Or.inl ⟨i, ?_⟩
    rcases hmut : A.mut_func j s.value s.world with ⟨value, world, _ | j'⟩ | msg
    · simp [proceed, hp, hmut]
    · simp [proceed, hp, hmut]
    · simp [proceed, hp, hmut]
  | write_return =>
    have hread := hs.can_read_owner hi (by rw [hp]; rfl) (by rw [hp]; rfl)
    exact Or.inl ⟨i, by simp [proceed, hp, hread]⟩
  | signal_lock => exact Or.inl ⟨i, by simp [proceed, hp, hfree]⟩
  | _ =>
    have hmutex := hfree i
    have hno := hpanic i
    simp [hp, Phase.owns, Phase.has_mutex, Phase.panicked] at hi hmutex hno

/-- **No deadlock.**  As long as no `mut_func` has panicked: if a thread is inside of the lock,
    then a thread can go on, or a thread waits for the write lock and another one keeps its
    guard. -/
theorem Sound.progress (hs : s.Sound) (hpanic : Nowhere Phase.panicked s.phase)
    (hbusy : (s.phase i).idle = false) :
    (∃ k, (s.proceed A k).isSome) ∨
      (∃ k, (s.phase k).waits_write = true) ∧ ∃ k, s.phase k = .guard := by
  by_cases hfree : s.mutex_free
  · cases hwants : s.wants_write with
    | true =>
      obtain ⟨k, hk⟩ := hs.wants.mp hwants
      exact (hs.owner_proceeds hfree hpanic hk).imp_right fun h => ⟨⟨k, h.1⟩, h.2⟩
    | false =>
      have hmutex := hfree i
      have howns := hs.nobody_owns hwants i
      have hawake : (s.phase i).sleeps = false := by
        cases hsleeps : (s.phase i).sleeps with
        | false => rfl
        | true =>
          rcases hs.asleep i hsleeps with h | ⟨k, hk⟩
          · rw [hwants] at h
            cases h
          · have hno := hfree k
            rw [hk] at hno
            cases hno
      refine Or.inl ⟨i, ?_⟩
      cases hp : s.phase i with
      | read_lock => simp [proceed, hp, hfree]
      | read_wake => simp [proceed, hp, hfree]
      | write_lock j => simp [proceed, hp, hfree]
      | write_wake j => simp [proceed, hp, hfree]
      | _ =>
        rw [hp] at hbusy hmutex howns hawake
        simp [Phase.idle, Phase.has_mutex, Phase.owns, Phase.sleeps] at hbusy hmutex howns hawake
  · obtain ⟨k, hk⟩ := not_forall.mp hfree
    exact Or.inl ⟨k, hs.mutex_proceeds (by simpa using hk)⟩

end Lock

end PqBoringtun
