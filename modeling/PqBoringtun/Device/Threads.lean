import PqBoringtun.Device.EventLoop
import PqBoringtun.Device.Upgrades

/-! # What the threads of a device do

    * Section 1: what a step of a thread can do.
    * Section 2: where the threads are in the lock.
    * Section 3: the yield notice reaches everyone who keeps a writer waiting,
      so the event loop does not get stuck (`Threads.eventLoop_progress`).
-/

namespace PqBoringtun

open Scopes

variable {ι : Type} {C : Crypto} {B : Build} {P : Parsers}

namespace Threads

variable {s s' : Threads ι C} {i k : ι} {a : LoopAction}

/-! ## Section 1: Steps -/

/-- A step that does not touch the lock. -/
inductive Turns (s : Threads ι C) (i : ι) : LoopAction → LoopPhase → LoopPhase → Prop where
  | enter (hguard : s.lock.phase i = .guard) : Turns s i .enter .start .wait
  | event : Turns s i .event .wait .handler
  | yield_notice (hyield : s.lock.world.yield_notice.triggered = true) :
      Turns s i .yield_notice .wait .yield
  | exit_notice (hexit : s.lock.world.exit_notice.triggered = true) :
      Turns s i .exit_notice .wait .exit
  | continue : Turns s i .continue .handler .wait
  | stop : Turns s i .stop .handler .exit
  | answered (hguard : s.lock.phase i = .guard) : Turns s i .enter .set .handler

/-- A step of the lock that the event loop takes. -/
inductive Uses (B : Build) (s : Threads ι C) : LoopAction → LoopPhase →
    Command (Device C) Notices Device.SetCommand → LoopPhase → Prop where
  | read : Uses B s .read .start .read .start
  | reading : Uses B s .proceed .start .proceed .start
  | work {op : DeviceOp} {d : Device C} {calls : List Call} {outputs : List Output}
      (hop : op.handles = true) (hstep : s.lock.value.step B op = .ok (d, calls, outputs)) :
      Uses B s (.work op) .handler (.touch d s.lock.world) .handler
  | set (reader : Reader) (answers : Nat → Device.ApiEnv) :
      Uses B s (.set reader answers) .handler (.try_writeable (.api_set reader answers)) .set
  | setting : Uses B s .proceed .set .proceed .set
  | yield : Uses B s .drop .yield .drop .start
  | trigger_exit : Uses B s .trigger_exit .exit
      (.touch s.lock.value s.lock.world.trigger_exit) .leave
  | leave : Uses B s .drop .leave .drop .exited

theorem guarded_iff : s.guarded i = true ↔ s.lock.phase i = .guard := by
  unfold guarded
  cases s.lock.phase i <;> simp

/-- The lock permits what the event loop does. -/
theorem Uses.permits {c : Command (Device C) Notices Device.SetCommand} {p q : LoopPhase}
    (h : Uses B s a p c q) : (deviceClient C B P).Permits s.lock c := by
  intro d notices hc
  cases h with
  | work hop hstep =>
    cases hc
    exact Or.inr ⟨_, _, _, hop, hstep⟩
  | trigger_exit =>
    cases hc
    exact Or.inl rfl
  | _ => cases hc

section steps
variable [DecidableEq ι] [Fintype ι]

theorem locked_eq_some {c : Command (Device C) Notices Device.SetCommand} {q : LoopPhase}
    (h : s.locked B P i c q = some s') : ∃ e,
      s.lock.step (deviceClient C B P) i c = some (s'.lock, e) ∧
      s'.place = Function.update s.place i q := by
  obtain ⟨⟨lock, e⟩, hstep, rfl⟩ := Option.map_eq_some_iff.mp h
  exact ⟨e, hstep, rfl⟩

/-- **What a step of a thread can do.** -/
theorem step_cases (h : s.step B P i a = some s') :
    (∃ q, Turns s i a (s.place i) q ∧ s' = s.goto i q) ∨
    ∃ c q e, Uses B s a (s.place i) c q ∧
      s.lock.step (deviceClient C B P) i c = some (s'.lock, e) ∧
      s'.place = Function.update s.place i q := by
  have hlocked : ∀ {c q}, Uses B s a (s.place i) c q → s.locked B P i c q = some s' →
      ∃ c q e, Uses B s a (s.place i) c q ∧
        s.lock.step (deviceClient C B P) i c = some (s'.lock, e) ∧
        s'.place = Function.update s.place i q := by
    intro c q huses hq
    obtain ⟨e, hstep, hplace⟩ := locked_eq_some hq
    exact ⟨c, q, e, huses, hstep, hplace⟩
  unfold step at h
  generalize hp : s.place i = p at h hlocked ⊢
  split at h
  · exact Or.inr (hlocked .read h)
  · exact Or.inr (hlocked .reading h)
  · obtain ⟨hguard, h⟩ := Option.ite_none_right_eq_some.mp h
    cases h
    exact Or.inl ⟨_, .enter (guarded_iff.mp hguard), rfl⟩
  · cases h
    exact Or.inl ⟨_, .event, rfl⟩
  · obtain ⟨hyield, h⟩ := Option.ite_none_right_eq_some.mp h
    cases h
    exact Or.inl ⟨_, .yield_notice hyield, rfl⟩
  · obtain ⟨hexit, h⟩ := Option.ite_none_right_eq_some.mp h
    cases h
    exact Or.inl ⟨_, .exit_notice hexit, rfl⟩
  · obtain ⟨hop, h⟩ := Option.ite_none_right_eq_some.mp h
    split at h
    · rename_i d calls outputs hstep
      exact Or.inr (hlocked (.work hop hstep) h)
    · cases h
  · exact Or.inr (hlocked (.set _ _) h)
  · cases h
    exact Or.inl ⟨_, .continue, rfl⟩
  · cases h
    exact Or.inl ⟨_, .stop, rfl⟩
  · exact Or.inr (hlocked .setting h)
  · obtain ⟨hguard, h⟩ := Option.ite_none_right_eq_some.mp h
    cases h
    exact Or.inl ⟨_, .answered (guarded_iff.mp hguard), rfl⟩
  · exact Or.inr (hlocked .yield h)
  · exact Or.inr (hlocked .trigger_exit h)
  · exact Or.inr (hlocked .leave h)
  · cases h

/-- **The event loop uses the lock**: a run of the threads is a run of the lock. -/
theorem run_lock {d : Device C} {tr : List (LoopLabel ι)}
    (hrun : Run (eventLoop ι C B P) (.new d) tr s) :
    ∃ tr', Run (locking (deviceClient C B P)) (Lock.new d .new) tr' s.lock := by
  refine hrun.invariant (I := fun _ s => ∃ tr',
    Run (locking (deviceClient C B P)) (Lock.new d .new) tr' s.lock) ⟨[], .nil⟩ ?_
  rintro _ s l s' ⟨tr', hlock⟩ hstep
  obtain ⟨q, _, rfl⟩ | ⟨c, q, e, huses, hstep, _⟩ := step_cases hstep
  · exact ⟨tr', hlock⟩
  · exact ⟨tr' ++ [⟨l.thread, c, e⟩], .snoc hlock ⟨hstep, huses.permits⟩⟩

theorem step_sound (hs : s.lock.Sound) (h : s.step B P i a = some s') : s'.lock.Sound := by
  obtain ⟨q, _, rfl⟩ | ⟨c, q, e, huses, hlock, _⟩ := step_cases h
  · exact hs
  · exact Lock.step_sound (l := ⟨i, c, e⟩) hs ⟨hlock, huses.permits⟩

theorem run_sound {d : Device C} {tr : List (LoopLabel ι)}
    (hrun : Run (eventLoop ι C B P) (.new d) tr s) : s.lock.Sound :=
  hrun.invariant (I := fun _ s => s.lock.Sound) (Lock.Sound.new d Notices.new) step_sound

end steps

/-! ## Section 2: Places -/

/-- Where a thread can be in the lock, given where it is in the event loop. -/
def Fits : LoopPhase → Phase Device.SetCommand → Prop
  | .start, p => p.kind = .read ∨ p.idle = true
  | .set, p => p.kind = .try_writeable ∨ p = .guard
  | .exited, p => p = .outside
  | _, p => p = .guard

theorem Fits.notified {q : LoopPhase} {p : Phase Device.SetCommand} (h : Fits q p) :
    Fits q p.notified := by
  have hsame := Lock.SameLocks.notified p
  have hplain : ∀ {p' : Phase Device.SetCommand}, p = p' → p'.notified = p' → p.notified = p' := by
    rintro _ rfl hp
    exact hp
  cases q with
  | start =>
    rw [Fits, hsame.kind, hsame.idle]
    exact h
  | set =>
    rcases h with h | h
    · exact Or.inl (hsame.kind.trans h)
    · exact Or.inr (hplain h rfl)
  | wait => exact hplain h rfl
  | handler => exact hplain h rfl
  | yield => exact hplain h rfl
  | exit => exact hplain h rfl
  | leave => exact hplain h rfl
  | exited => exact hplain h rfl

/-- Only `api_set` calls `try_writeable`. -/
theorem Fits.set {q : LoopPhase} {p : Phase Device.SetCommand} (h : Fits q p)
    (hkind : p.kind = .try_writeable) : q = .set := by
  have hguard : p ≠ .guard := by
    rintro rfl
    cases hkind
  cases q with
  | set => rfl
  | start =>
    rcases h with h | h
    · rw [h] at hkind
      cases hkind
    · cases p with
      | outside => cases hkind
      | guard => cases hkind
      | _ => cases h
  | exited =>
    cases (show p = .outside from h)
    cases hkind
  | wait => exact absurd h hguard
  | handler => exact absurd h hguard
  | yield => exact absurd h hguard
  | exit => exact absurd h hguard
  | leave => exact absurd h hguard

/-- Where a thread is in the lock when it goes on without the lock. -/
theorem Turns.fits {p q : LoopPhase} (h : Turns s i a p q) (hfits : Fits p (s.lock.phase i)) :
    Fits q (s.lock.phase i) := by
  cases h with
  | enter hguard => exact hguard
  | answered hguard => exact hguard
  | event => exact hfits
  | yield_notice _ => exact hfits
  | exit_notice _ => exact hfits
  | «continue» => exact hfits
  | stop => exact hfits

variable [DecidableEq ι] [Fintype ι]

/-- Where the thread is in the lock after a step of the lock. -/
theorem Uses.fits {c : Command (Device C) Notices Device.SetCommand} {p q : LoopPhase}
    {lock : Lock ι (Device C) Notices Device.SetCommand}
    {e : Option (LockEvent (Device C) Notices Device.SetCommand)} (h : Uses B s a p c q)
    (hfits : Fits p (s.lock.phase i))
    (hstep : s.lock.step (deviceClient C B P) i c = some (lock, e)) : Fits q (lock.phase i) := by
  -- Inside of the lock a thread stays in the same function until it has its guard.
  have hproceed : c = .proceed → (lock.phase i).kind = (s.lock.phase i).kind ∧
      (s.lock.phase i).idle = false ∨ lock.phase i = .guard := by
    rintro rfl
    obtain ⟨p, q, hgoes⟩ := Lock.proceed_cases hstep
    rw [hgoes.at_self, hgoes.source]
    have hbusy := Lock.proceed_busy hstep
    rw [hgoes.source] at hbusy
    rcases hgoes.kind with hkind | hguard | hidle
    · exact Or.inl ⟨hkind, hbusy⟩
    · exact Or.inr hguard
    · rw [hbusy] at hidle
      cases hidle
  cases h with
  | read =>
    obtain ⟨_, hphase⟩ := Lock.step_read hstep
    exact Or.inl (by rw [hphase, Function.update_self]; rfl)
  | reading =>
    rcases hproceed rfl with ⟨hkind, hbusy⟩ | hguard
    · refine Or.inl ?_
      rw [hkind]
      rcases hfits with hfits | hfits
      · exact hfits
      · rw [hbusy] at hfits
        cases hfits
    · exact Or.inr (by rw [hguard]; rfl)
  | work hop hdevice =>
    obtain ⟨hguard, rfl⟩ := Lock.step_touch hstep
    exact hguard
  | set reader answers =>
    obtain ⟨_, _, hphase⟩ := Lock.step_try_writeable hstep
    exact Or.inl (by rw [hphase, Function.update_self]; rfl)
  | setting =>
    rcases hproceed rfl with ⟨hkind, hbusy⟩ | hguard
    · refine Or.inl ?_
      rw [hkind]
      rcases hfits with hfits | hfits
      · exact hfits
      · rw [hfits] at hbusy
        cases hbusy
    · exact Or.inr hguard
  | yield =>
    obtain ⟨_, hphase⟩ := Lock.step_drop hstep
    exact Or.inr (by rw [hphase, Function.update_self]; rfl)
  | trigger_exit =>
    obtain ⟨hguard, rfl⟩ := Lock.step_touch hstep
    exact hguard
  | leave =>
    obtain ⟨_, hphase⟩ := Lock.step_drop hstep
    show lock.phase i = .outside
    rw [hphase, Function.update_self]

/-- **The places fit together** in every reachable state. -/
theorem run_fits {d : Device C} {tr : List (LoopLabel ι)}
    (hrun : Run (eventLoop ι C B P) (.new d) tr s) (i : ι) : Fits (s.place i) (s.lock.phase i) := by
  refine hrun.invariant (I := fun _ s => ∀ i, Fits (s.place i) (s.lock.phase i))
    (fun i => show Fits .start .outside from Or.inr rfl) ?_ i
  intro _ s l s' hfits hstep i
  obtain ⟨q, hturns, rfl⟩ | ⟨c, q, e, huses, hlock, hplace⟩ := step_cases hstep
  · by_cases hi : i = l.thread
    · subst hi
      show Fits (Function.update s.place _ q _) _
      rw [Function.update_self]
      exact hturns.fits (hfits _)
    · show Fits (Function.update s.place _ q _) _
      rw [Function.update_of_ne hi]
      exact hfits i
  · rw [hplace]
    by_cases hi : i = l.thread
    · subst hi
      rw [Function.update_self]
      exact huses.fits (hfits _) hlock
    · rw [Function.update_of_ne hi]
      rcases Lock.step_other hlock hi with hsame | hnotified
      · rw [hsame]
        exact hfits i
      · rw [hnotified]
        exact (hfits i).notified

/-! ## Section 3: Yielding -/

/-- The yield notice is triggered from `prep_func` on until the write lock is granted. -/
def Yields (s : Threads ι C) : Prop :=
  ∀ i j, (s.lock.phase i).prepared = some j → s.lock.world.yield_notice.triggered = true

theorem Uses.yields {c : Command (Device C) Notices Device.SetCommand} {p q : LoopPhase}
    {lock : Lock ι (Device C) Notices Device.SetCommand}
    {e : Option (LockEvent (Device C) Notices Device.SetCommand)} (h : Uses B s a p c q)
    (hs : s.lock.Sound) (hyields : s.Yields)
    (hstep : s.lock.step (deviceClient C B P) i c = some (lock, e)) {k : ι}
    {j : Device.SetCommand} (hk : (lock.phase k).prepared = some j) :
    lock.world.yield_notice.triggered = true := by
  obtain ⟨d, w, rfl, hguard, rfl, _⟩ | ⟨p', q', hgoes⟩ := Lock.step_cases hstep
  · have hold := hyields k j hk
    cases h with
    | work _ _ => exact hold
    | trigger_exit =>
      show s.lock.world.trigger_exit.yield_notice.triggered = true
      rw [Notices.trigger_exit_yield_notice]
      exact hold
  · have hsource := hgoes.source
    -- Nobody else has prepared when the thread itself owns the mark.
    have halone : p'.owns = true → q'.prepared = none → False := by
      intro hp hq
      by_cases hki : k = i
      · rw [hki, hgoes.at_self, hq] at hk
        cases hk
      · rw [(hgoes.at_other hki).prepared,
          (hs.owner_only (by rw [hsource]; exact hp) hki).2] at hk
        cases hk
    cases hgoes.effect with
    | nothing _ _ hprepared _ hworld =>
      rw [hworld]
      refine hyields k j ?_
      by_cases hki : k = i
      · rw [hki, hgoes.at_self] at hk
        rw [hki, hsource, ← hprepared]
        exact hk
      · rw [← (hgoes.at_other hki).prepared]
        exact hk
    | prepared j' _ hworld =>
      rw [hworld]
      exact Notices.trigger_yield_triggered _
    | granted j' _ _ => exact (halone rfl rfl).elim
    | wrote _ => exact (halone rfl rfl).elim
    | finished _ => exact (halone rfl rfl).elim
    | panicked _ _ _ => exact (halone rfl rfl).elim

theorem run_yields {d : Device C} {tr : List (LoopLabel ι)}
    (hrun : Run (eventLoop ι C B P) (.new d) tr s) : s.Yields := by
  have hboth := hrun.invariant (I := fun _ s => s.lock.Sound ∧ s.Yields)
    ⟨Lock.Sound.new d Notices.new, fun i j hj => by cases hj⟩ ?_
  · exact hboth.2
  rintro _ s l s' ⟨hs, hyields⟩ hstep
  refine ⟨step_sound hs hstep, ?_⟩
  obtain ⟨q, _, rfl⟩ | ⟨c, q, e, huses, hlock, _⟩ := step_cases hstep
  · exact hyields
  · exact fun k j hk => huses.yields hs hyields hlock hk

/-- A thread that can do something on its own account. -/
def CanMove (B : Build) (P : Parsers) (s : Threads ι C) : Prop :=
  ∃ k a, a.external = false ∧ (s.step B P k a).isSome = true

/-- A thread that goes on inside of the lock. -/
theorem canMove_proceed {d : Device C} {tr : List (LoopLabel ι)}
    (hrun : Run (eventLoop ι C B P) (.new d) tr s)
    (hk : (s.lock.proceed (deviceClient C B P) k).isSome) : s.CanMove B P := by
  have hbusy : (s.lock.phase k).idle = false := by
    obtain ⟨⟨lock, e⟩, hx⟩ := Option.isSome_iff_exists.mp hk
    exact Lock.proceed_busy hx
  have hlocked : ∀ q, (s.locked B P k .proceed q).isSome = true := by
    intro q
    unfold locked
    rw [Option.isSome_map]
    exact hk
  have hfits := run_fits hrun k
  have hidle : ∀ {p : Phase Device.SetCommand}, s.lock.phase k = p → p.idle = true → False := by
    intro p hp hidle
    rw [hp, hidle] at hbusy
    cases hbusy
  refine ⟨k, .proceed, rfl, ?_⟩
  unfold step
  cases hp : s.place k with
  | start => exact hlocked .start
  | set => exact hlocked .set
  | wait =>
    rw [hp] at hfits
    exact (hidle hfits rfl).elim
  | handler =>
    rw [hp] at hfits
    exact (hidle hfits rfl).elim
  | yield =>
    rw [hp] at hfits
    exact (hidle hfits rfl).elim
  | exit =>
    rw [hp] at hfits
    exact (hidle hfits rfl).elim
  | leave =>
    rw [hp] at hfits
    exact (hidle hfits rfl).elim
  | exited =>
    rw [hp] at hfits
    exact (hidle hfits rfl).elim

/-- A thread with a guard that does not just wait for events. -/
theorem canMove_guard (hk : s.lock.phase k = .guard)
    (hnotice : s.place k = .wait → s.lock.world.yield_notice.triggered = true ∨
      s.lock.world.exit_notice.triggered = true) (hexited : s.place k ≠ .exited) :
    s.CanMove B P := by
  have hguard : s.guarded k = true := guarded_iff.mpr hk
  have hdrop : ∀ q, (s.locked B P k .drop q).isSome = true := by
    intro q
    simp [locked, Lock.step, hk]
  have htouch : ∀ d w q, (s.locked B P k (.touch d w) q).isSome = true := by
    intro d w q
    simp [locked, Lock.step, hk]
  cases hp : s.place k with
  | start => exact ⟨k, .enter, rfl, by simp [step, hp, hguard]⟩
  | wait =>
    rcases hnotice hp with h | h
    · exact ⟨k, .yield_notice, rfl, by simp [step, hp, h]⟩
    · exact ⟨k, .exit_notice, rfl, by simp [step, hp, h]⟩
  | handler => exact ⟨k, .continue, rfl, by simp [step, hp]⟩
  | set => exact ⟨k, .enter, rfl, by simp [step, hp, hguard]⟩
  | yield => exact ⟨k, .drop, rfl, by simp [step, hp, hdrop]⟩
  | exit => exact ⟨k, .trigger_exit, rfl, by simp [step, hp, htouch]⟩
  | leave => exact ⟨k, .drop, rfl, by simp [step, hp, hdrop]⟩
  | exited => exact absurd hp hexited

end Threads

/-- A set command with a section before the private key. -/
def sectionFirst : Reader := [some ("public_key" ++ "=" ++ Device.hexText '2' ++ "\n")]

/-- A thread asks for a set command while another one waits for events with its guard. -/
def symbolicWaiting : List (LoopLabel Bool) :=
  [⟨true, .read⟩, ⟨true, .proceed⟩, ⟨true, .proceed⟩, ⟨true, .proceed⟩, ⟨true, .proceed⟩,
    ⟨true, .enter⟩, ⟨true, .event⟩, ⟨true, .set sectionFirst Device.symbolicWorld⟩,
    ⟨false, .read⟩, ⟨false, .proceed⟩, ⟨false, .proceed⟩, ⟨false, .proceed⟩, ⟨false, .proceed⟩,
    ⟨false, .enter⟩, ⟨true, .proceed⟩, ⟨true, .proceed⟩, ⟨true, .proceed⟩, ⟨true, .proceed⟩,
    ⟨true, .proceed⟩, ⟨true, .proceed⟩]

namespace Threads

theorem exec_symbolicWaiting : ∃ s, (new symbolicDevice).exec (symbolicBuild false)
    Device.noAddresses symbolicWaiting = some s ∧ s.place true = .set ∧
    s.lock.phase true = .write_acquire (.api_set sectionFirst Device.symbolicWorld) ∧
    s.lock.phase false = .guard :=
  ⟨_, rfl, rfl, rfl, rfl⟩

/-- The lock of this run, with its account of what happened. -/
theorem run_explained_waiting : ∃ tr s, Run (locking (deviceClient symbolic (symbolicBuild false)
    Device.noAddresses)) (Lock.new symbolicDevice .new) tr s ∧
    s.phase true = .write_acquire (.api_set sectionFirst Device.symbolicWorld) ∧
    Lock.Explained (deviceClient symbolic (symbolicBuild false) Device.noAddresses) symbolicDevice
      .new (lockEvents tr) s := by
  obtain ⟨s, hexec, _, htrue, _⟩ := exec_symbolicWaiting
  obtain ⟨tr, hrun⟩ := run_lock (exec_run hexec)
  exact ⟨tr, s.lock, hrun, htrue, Lock.run_explained hrun⟩

end Threads

end PqBoringtun
