import PqBoringtun.Device.Threads

/-! # The threads one after the other

    Whatever the threads of a device do at the same time could also be done
    by one thread alone, one request after the other.

    * Section 1: a set command that runs line by line is a call of `api_set`.
    * Section 2: requests, and how one thread alone serves them.
    * Section 3: the account of a run.
    * Section 4: a run of the threads serves the requests one after the other
      (`Threads.eventLoop_serves`).
    * Section 5: the tables of the device stay in order.
    * Section 6: a set command that panics is the last one
      (`Threads.eventLoop_wedged`).
-/

namespace PqBoringtun

open Scopes

variable {C : Crypto} {B : Build} {P : Parsers}

/-! ## Section 1: Set commands, line by line -/

namespace Device

variable {d d' d'' : Device C} {w w' w'' : Notices} {reader : Reader} {answers : Nat → ApiEnv}
  {j : SetCommand}

/-- The lines after some lines. -/
theorem SetState.after_append {s : SetState C} {n : Nat} (front rest : Reader) :
    s.after B P answers n (front ++ rest) = (do
      match ← s.after B P answers n front with
      | .ok s => s.after B P answers (n + front.length) rest
      | .error result => .ok (.error result)) := by
  induction front generalizing s n with
  | nil => rfl
  | cons read front ih =>
    cases read with
    | none => rfl
    | some l =>
      rw [List.cons_append, after, after]
      rcases s.line B P (answers n) (Str.pop l) with (result | s') | msg
      · rfl
      · show s'.after B P answers (n + 1) (front ++ rest) = _
        rw [ih, List.length_cons, Nat.add_assoc, Nat.add_comm 1]
        rfl
      · rfl

/-- A set command that has carried out the lines `front`. -/
def SetCommand.Reached (B : Build) (P : Parsers) (reader : Reader) (answers : Nat → ApiEnv)
    (d : Device C) (j : SetCommand) (d' : Device C) : Prop :=
  ∃ front rest place, reader = front ++ rest ∧ j = .lines place front.length rest answers ∧
    (SetState.command d).after B P answers 0 front = .ok (.ok (place.on d'))

/-- One more line. -/
theorem SetCommand.Reached.line {j' : SetCommand} (h : SetCommand.Reached B P reader answers d j d')
    (hrun : j.run B P d' w = .ok (d'', w'', some j')) :
    SetCommand.Reached B P reader answers d j' d'' := by
  obtain ⟨front, rest, place, rfl, rfl, hafter⟩ := h
  cases rest with
  | nil =>
    obtain ⟨x, _, hrun⟩ := Outcome.bind_eq_ok.mp hrun
    cases hrun
  | cons read rest =>
    cases read with
    | none => cases hrun
    | some l =>
      obtain ⟨verdict, hline, hrun⟩ := Outcome.bind_eq_ok.mp hrun
      cases verdict with
      | error result => cases hrun
      | ok s =>
        cases hrun
        refine ⟨front ++ [some l], rest, s.place, by simp, by simp, ?_⟩
        rw [SetState.after_append, hafter, Outcome.ok_bind]
        dsimp only
        rw [SetState.after, Nat.zero_add, hline, Outcome.ok_bind]
        dsimp only
        rw [SetState.after, SetState.place_on]

/-- The last line. -/
theorem SetCommand.Reached.finish (h : SetCommand.Reached B P reader answers d j d')
    (hrun : j.run B P d' w = .ok (d'', w'', none)) :
    ∃ status, d.api_set B P answers 0 reader = .ok (status, d'') := by
  obtain ⟨front, rest, place, rfl, rfl, hafter⟩ := h
  have hresume : d.api_set B P answers 0 (front ++ rest) =
      (place.on d').resume B P answers front.length rest := by
    have happend : (SetState.command d).resume B P answers 0 (front ++ rest) = _ :=
      SetState.resume_append front rest
    rw [hafter, Outcome.ok_bind, Nat.zero_add] at happend
    exact happend
  rw [hresume]
  cases rest with
  | nil =>
    obtain ⟨⟨status, d₁⟩, hfinish, hrun⟩ := Outcome.bind_eq_ok.mp hrun
    cases hrun
    exact ⟨status, by rw [SetState.resume_nil]; exact hfinish⟩
  | cons read rest =>
    cases read with
    | none =>
      cases hrun
      exact ⟨0, by rw [SetState.resume_none, SetPlace.device_on]⟩
    | some l =>
      obtain ⟨verdict, hline, hrun⟩ := Outcome.bind_eq_ok.mp hrun
      cases verdict with
      | ok s => cases hrun
      | error result =>
        cases hrun
        exact ⟨result.1, by rw [SetState.resume_some, hline, Outcome.ok_bind]⟩

end Device

namespace Lock

variable {d d' d'' : Device C} {w w' w'' : Notices} {reader : Reader}
  {answers : Nat → Device.ApiEnv} {j : Device.SetCommand}

/-- A set command that has begun. -/
theorem Partly.reached
    (h : Partly (deviceClient C B P) (.api_set reader answers) d w j d' w') :
    (j = .api_set reader answers ∧ d' = d) ∨
      Device.SetCommand.Reached B P reader answers d j d' := by
  induction h with
  | start => exact Or.inl ⟨rfl, rfl⟩
  | more _ hmut ih =>
    rcases ih with ⟨rfl, rfl⟩ | ih
    · cases hmut
      exact Or.inr ⟨[], reader, .command, rfl, rfl, rfl⟩
    · exact Or.inr (ih.line hmut)

/-- The lines that a set command has carried out. -/
theorem Partly.lines
    (h : Partly (deviceClient C B P) (.api_set reader answers) d w j d' w') :
    ∃ front rest s, reader = front ++ rest ∧
      (Device.SetState.command d).after B P answers 0 front = .ok (.ok s) ∧ s.device = d' := by
  rcases h.reached with ⟨_, rfl⟩ | ⟨front, rest, place, hreader, _, hafter⟩
  · exact ⟨[], reader, .command d', rfl, rfl, rfl⟩
  · exact ⟨front, rest, _, hreader, hafter, Device.SetPlace.device_on d' place⟩

/-- **A set command in single steps** is a call of `api_set`. -/
theorem Partly.api_set
    (h : Partly (deviceClient C B P) (.api_set reader answers) d w j d' w')
    (hmut : (deviceClient C B P).mut_func j d' w' = .ok (d'', w'', none)) :
    ∃ status, d.api_set B P answers 0 reader = .ok (status, d'') := by
  rcases h.reached with ⟨rfl, _⟩ | hreached
  · cases hmut
  · exact hreached.finish hmut

end Lock

/-! ## Section 2: Requests -/

/-- What a handler is asked to do: to work on one datagram, packet or tick, or to carry out a set
    command. -/
inductive Request where
  | work (op : DeviceOp)
  | set (reader : Reader) (answers : Nat → Device.ApiEnv)

def LoopAction.request : LoopAction → Option Request
  | .work op => some (.work op)
  | .set reader answers => some (.set reader answers)
  | _ => none

/-- One thread alone serves the requests of all the others, one after the other. -/
inductive Serves {ι : Type} (B : Build) (P : Parsers) (d : Device C) :
    List (ι × Request) → Device C → Prop where
  | nil : Serves B P d [] d
  | work {served : List (ι × Request)} {d₁ d₂ : Device C} {op : DeviceOp} {calls : List Call}
      {outputs : List Output} (h : Serves B P d served d₁) (i : ι) (hop : op.handles = true)
      (hstep : d₁.step B op = .ok (d₂, calls, outputs)) :
      Serves B P d (served ++ [(i, .work op)]) d₂
  | set {served : List (ι × Request)} {d₁ d₂ : Device C} {reader : Reader}
      {answers : Nat → Device.ApiEnv} {status : Nat} (h : Serves B P d served d₁) (i : ι)
      (hset : d₁.api_set B P answers 0 reader = .ok (status, d₂)) :
      Serves B P d (served ++ [(i, .set reader answers)]) d₂

variable {ι : Type}

section lists
variable [DecidableEq ι]

/-- The requests of a thread, in the order in which it makes them. -/
def requests (i : ι) (tr : List (LoopLabel ι)) : List Request :=
  tr.filterMap fun l => if l.thread = i then l.action.request else none

/-- Those of a thread that are served, in the order in which this happens. -/
def servedTo (i : ι) (served : List (ι × Request)) : List Request :=
  served.filterMap fun x => if x.1 = i then some x.2 else none

variable (i k : ι) (tr : List (LoopLabel ι)) (served : List (ι × Request)) (r : Request)

theorem requests_concat (l : LoopLabel ι) : requests i (tr ++ [l]) =
    requests i tr ++ if l.thread = i then l.action.request.toList else [] := by
  unfold requests
  rw [List.filterMap_append]
  congr 1
  by_cases h : l.thread = i
  · cases hr : l.action.request with
    | none => simp [h, hr]
    | some r => simp [h, hr]
  · simp [h]

theorem servedTo_concat : servedTo i (served ++ [(k, r)]) =
    servedTo i served ++ if k = i then [r] else [] := by
  unfold servedTo
  rw [List.filterMap_append]
  congr 1
  by_cases h : k = i
  · simp [h]
  · simp [h]

end lists

/-! ## Section 3: The account of a run -/

/-- The text of a set command, and the answers of the operating system. -/
abbrev SetText : Type := Reader × (Nat → Device.ApiEnv)

namespace Threads

/-- The set command that a thread is about to carry out, at a place in the lock.  From the grant
    of the write lock on, it has turned the device `d₁` into `value` so far. -/
structure Standing (B : Build) (P : Parsers) (d₁ value : Device C) (world : Notices)
    (p : Phase Device.SetCommand) (text : Option SetText) : Prop where
  waiting : ∀ j, p.job = some j → ∃ reader answers,
    text = some (reader, answers) ∧ j = .api_set reader answers
  inside : p.has_write = true ∨ p.panicked = true → ∃ reader answers w j,
    text = some (reader, answers) ∧
    Lock.Partly (deviceClient C B P) (.api_set reader answers) d₁ w j value world ∧
    ∀ j', p = .writing j' → j' = j
  outside : p.job = none → p.has_write = false → p.panicked = false → text = none

/-- What was served so far, and which set commands are not finished. -/
structure Account (B : Build) (P : Parsers) (d : Device C) (s : Threads ι C)
    (served : List (ι × Request)) (d₁ : Device C) (pending : ι → Option SetText) : Prop where
  serves : Serves B P d served d₁
  standing : ∀ i, Standing B P d₁ s.lock.value s.lock.world (s.lock.phase i) (pending i)
  value : Nowhere Phase.has_write s.lock.phase → Nowhere Phase.panicked s.lock.phase →
    s.lock.value = d₁

variable {d d₁ d₂ value value' : Device C} {world world' : Notices} {s s' : Threads ι C} {i k : ι}
  {p p' : Phase Device.SetCommand} {text : Option SetText} {served : List (ι × Request)}
  {pending : ι → Option SetText}

/-- Outside of the write lock the device does not matter. -/
theorem Standing.frame (h : Standing B P d₁ value world p text) (hjob : p'.job = p.job)
    (hp : p.has_write = false ∧ p.panicked = false)
    (hp' : p'.has_write = false ∧ p'.panicked = false) :
    Standing B P d₂ value' world' p' text where
  waiting := by
    rw [hjob]
    exact h.waiting
  inside := by
    rw [hp'.1, hp'.2]
    rintro (h | h) <;> cases h
  outside := by
    intro hnone _ _
    exact h.outside (hjob.symm.trans hnone) hp.1 hp.2

theorem Standing.notified (h : Standing B P d₁ value world p text) :
    Standing B P d₁ value world p.notified text := by
  have hsame := Lock.SameLocks.notified p
  refine ⟨?_, ?_, ?_⟩
  · rw [hsame.job]
    exact h.waiting
  · rw [hsame.write, hsame.panicked]
    intro hin
    obtain ⟨reader, answers, w, j, htext, hpartly, hj⟩ := h.inside hin
    refine ⟨reader, answers, w, j, htext, hpartly, fun j' hj' => hj j' ?_⟩
    cases p with
    | writing j => exact hj'
    | _ => cases hj'
  · rw [hsame.job, hsame.write, hsame.panicked]
    exact h.outside

theorem Standing.move (h : Standing B P d₁ value world p text) (hjob : p'.job = p.job)
    (hp : p.has_write = false) (hp' : p'.has_write = false) (hpanicked : p'.panicked = p.panicked) :
    Standing B P d₁ value world p' text where
  waiting := by
    rw [hjob]
    exact h.waiting
  inside := by
    rw [hp', hpanicked]
    intro hin
    rw [← hp] at hin
    obtain ⟨reader, answers, w, j, htext, hpartly, _⟩ := h.inside hin
    refine ⟨reader, answers, w, j, htext, hpartly, ?_⟩
    rintro j' rfl
    cases hp'
  outside := by
    rw [hjob, hpanicked]
    intro hnone _ hpan
    exact h.outside hnone hp hpan

/-- A set command that is not finished is in `try_writeable`. -/
theorem Standing.kind (h : Standing B P d₁ value world p text) (htext : text ≠ none) :
    p.kind = .try_writeable := by
  have hin : ¬ (p.job = none ∧ p.has_write = false ∧ p.panicked = false) := by
    rintro ⟨hjob, hwrite, hpanicked⟩
    exact htext (h.outside hjob hwrite hpanicked)
  cases p <;> first | rfl | exact absurd ⟨rfl, rfl, rfl⟩ hin

/-- What the device is: what was served, or the first lines of a set command on top. -/
theorem Account.device (h : Account B P d s served d₁ pending) :
    s.lock.value = d₁ ∨ ∃ k reader answers front rest st,
      pending k = some (reader, answers) ∧ reader = front ++ rest ∧
      (Device.SetState.command d₁).after B P answers 0 front = .ok (.ok st) ∧
      s.lock.value = st.device := by
  by_cases hsettled : ∀ k, (s.lock.phase k).has_write = false ∧ (s.lock.phase k).panicked = false
  · exact Or.inl (h.value (fun k => (hsettled k).1) fun k => (hsettled k).2)
  · obtain ⟨k, hk⟩ := not_forall.mp hsettled
    have hin : (s.lock.phase k).has_write = true ∨ (s.lock.phase k).panicked = true := by
      by_contra hnot
      rw [not_or, Bool.not_eq_true, Bool.not_eq_true] at hnot
      exact hk hnot
    obtain ⟨reader, answers, w, j, htext, hpartly, _⟩ := (h.standing k).inside hin
    obtain ⟨front, rest, st, hreader, hafter, hdevice⟩ := hpartly.lines
    exact Or.inr ⟨k, reader, answers, front, rest, st, htext, hreader, hafter, hdevice.symm⟩

/-- Everybody else is outside of the write lock. -/
def Alone (s : Threads ι C) (i : ι) : Prop :=
  ∀ k, k ≠ i → (s.lock.phase k).has_write = false ∧ (s.lock.phase k).panicked = false

theorem alone_of_owns (hs : s.lock.Sound) (hi : (s.lock.phase i).owns = true) : s.Alone i := by
  intro k hk
  refine ⟨(hs.owner_only hi hk).1, ?_⟩
  cases hp : (s.lock.phase k).panicked with
  | false => rfl
  | true => exact absurd (hs.owner k i (Lock.panicked_owns hp).2 hi) hk

/-- A thread with a guard keeps everybody out. -/
theorem settled_of_guard (hs : s.lock.Sound) (hi : s.lock.phase i = .guard) (k : ι) :
    (s.lock.phase k).has_write = false ∧ (s.lock.phase k).panicked = false := by
  have hread : (s.lock.phase i).has_read = true := by
    rw [hi]
    rfl
  constructor
  · cases hk : (s.lock.phase k).has_write with
    | false => rfl
    | true =>
      rw [hs.writer k hk i] at hread
      cases hread
  · cases hk : (s.lock.phase k).panicked with
    | false => rfl
    | true =>
      rw [hs.panicked k hk i] at hread
      cases hread

/-- The handler of a thread works: its request is served at once. -/
theorem Account.touch (h : Account B P d s served d₁ pending) (hs : s.lock.Sound)
    (hi : s.lock.phase i = .guard) {served' : List (ι × Request)}
    (hserves : s.lock.value = d₁ → Serves B P d served' value)
    (hlock : s'.lock = { s.lock with value := value, world := world }) :
    Account B P d s' served' value pending := by
  have hsettled := settled_of_guard hs hi
  refine ⟨?_, ?_, ?_⟩
  · exact hserves (h.value (fun k => (hsettled k).1) fun k => (hsettled k).2)
  · intro k
    rw [hlock]
    exact (h.standing k).frame rfl (hsettled k) (hsettled k)
  · intro _ _
    rw [hlock]

variable [DecidableEq ι]

/-- A set command is handed to the lock. -/
theorem Account.try_writeable (h : Account B P d s served d₁ pending) (hs : s.lock.Sound)
    {reader : Reader} {answers : Nat → Device.ApiEnv} (hi : s.lock.phase i = .guard)
    (hvalue : s'.lock.value = s.lock.value)
    (hphase : s'.lock.phase =
      Function.update s.lock.phase i (.write_lock (.api_set reader answers))) :
    Account B P d s' served d₁ (Function.update pending i (some (reader, answers))) := by
  have hsettled := settled_of_guard hs hi
  refine ⟨h.serves, ?_, ?_⟩
  · intro k
    rw [hphase]
    by_cases hk : k = i
    · subst hk
      rw [Function.update_self, Function.update_self]
      refine ⟨?_, ?_, ?_⟩
      · intro j hj
        cases hj
        exact ⟨reader, answers, rfl, rfl⟩
      · rintro (h | h) <;> cases h
      · intro hnone
        cases hnone
    · rw [Function.update_of_ne hk, Function.update_of_ne hk]
      exact (h.standing k).frame rfl (hsettled k) (hsettled k)
  · intro _ _
    rw [hvalue]
    exact h.value (fun k => (hsettled k).1) fun k => (hsettled k).2

/-- The requests of a thread: those that are served, and the set command it waits for. -/
def listed (served : List (ι × Request)) (pending : ι → Option SetText) (i : ι) : List Request :=
  servedTo i served ++ (pending i).toList.map fun x => .set x.1 x.2

/-- A set command that is finished is served. -/
theorem listed_finish {reader : Reader} {answers : Nat → Device.ApiEnv}
    (hi : pending i = some (reader, answers)) :
    listed (served ++ [(i, .set reader answers)]) (Function.update pending i none) =
      listed served pending := by
  funext k
  unfold listed
  rw [servedTo_concat]
  by_cases hk : k = i
  · subst hk
    rw [Function.update_self, hi, if_pos rfl]
    simp
  · rw [Function.update_of_ne hk, if_neg (Ne.symm hk), List.append_nil]

section moves
variable {q : Phase Device.SetCommand} {e : Option (LockEvent (Device C) Notices Device.SetCommand)}

/-- The other threads are not affected by what the owner of the mark does. -/
theorem Account.standing_other (h : Account B P d s served d₁ pending) (halone : s.Alone i)
    (hgoes : Lock.Goes (deviceClient C B P) s.lock i p q e s'.lock) (hk : k ≠ i) :
    Standing B P d₂ s'.lock.value s'.lock.world (s'.lock.phase k) (pending k) := by
  have hother := hgoes.at_other hk
  refine (h.standing k).frame hother.job (halone k hk) ?_
  rw [hother.write, hother.panicked]
  exact halone k hk

/-- A move that touches nothing. -/
theorem Account.nothing (h : Account B P d s served d₁ pending)
    (hgoes : Lock.Goes (deviceClient C B P) s.lock i p q e s'.lock) (hp : p.has_write = false)
    (hq : q.has_write = false) (hjob : q.job = p.job) (hvalue : s'.lock.value = s.lock.value)
    (hworld : s'.lock.world = s.lock.world) : Account B P d s' served d₁ pending := by
  have hsource := hgoes.source
  have hpanicked : q.panicked = p.panicked := by
    cases hpan : p.panicked with
    | true => exact hgoes.stays hpan
    | false =>
      cases hqan : q.panicked with
      | false => rfl
      | true =>
        rcases hgoes.panics hqan with h | h
        · rw [hpan] at h
          cases h
        · rw [hp] at h
          cases h
  have hsame : ∀ k, (s'.lock.phase k).has_write = (s.lock.phase k).has_write ∧
      (s'.lock.phase k).panicked = (s.lock.phase k).panicked := by
    intro k
    by_cases hk : k = i
    · rw [hk, hgoes.at_self, hsource, hp, hq]
      exact ⟨rfl, hpanicked⟩
    · exact ⟨(hgoes.at_other hk).write, (hgoes.at_other hk).panicked⟩
  refine ⟨h.serves, ?_, ?_⟩
  · intro k
    rw [hvalue, hworld]
    by_cases hk : k = i
    · have hstanding := h.standing i
      rw [hsource] at hstanding
      rw [hk, hgoes.at_self]
      exact hstanding.move hjob hp hq hpanicked
    · rcases hgoes.at_other_place hk with hplace | hplace
      · rw [hplace]
        exact h.standing k
      · rw [hplace]
        exact (h.standing k).notified
  · intro hwrite hpan
    rw [hvalue]
    refine h.value (fun k => ?_) fun k => ?_
    · rw [← (hsame k).1]
      exact hwrite k
    · rw [← (hsame k).2]
      exact hpan k

/-- **What a thread does inside of the lock** keeps the account. -/
theorem Account.moves (h : Account B P d s served d₁ pending) (hs : s.lock.Sound)
    (hgoes : Lock.Goes (deviceClient C B P) s.lock i p q e s'.lock)
    (hjob : q.job = p.job ∨ q.has_write = true) : ∃ served' d₂ pending',
      Account B P d s' served' d₂ pending' ∧ listed served' pending' = listed served pending := by
  have hsource := hgoes.source
  have hself := hgoes.at_self
  have hstanding := h.standing i
  rw [hsource] at hstanding
  -- Everything but `nothing` is done by the owner of the mark.
  have halone : p.owns = true → s.Alone i := by
    intro hp
    rw [← hsource] at hp
    exact alone_of_owns hs hp
  have hmoved : p.owns = true → Standing B P d₁ s'.lock.value s'.lock.world q (pending i) →
      (q.has_write = false → q.panicked = false → s'.lock.value = d₁) →
      Account B P d s' served d₁ pending := by
    intro howns hnew hvalue
    refine ⟨h.serves, ?_, ?_⟩
    · intro k
      by_cases hk : k = i
      · rw [hk, hself]
        exact hnew
      · exact h.standing_other (halone howns) hgoes hk
    · intro hwrite hpan
      refine hvalue ?_ ?_
      · rw [← hself]
        exact hwrite i
      · rw [← hself]
        exact hpan i
  have hsettled : p.owns = true → p.has_write = false → p.panicked = false →
      s.lock.value = d₁ := by
    intro howns hp hpan
    refine h.value (fun k => ?_) fun k => ?_
    · by_cases hk : k = i
      · rw [hk, hsource]
        exact hp
      · exact (halone howns k hk).1
    · by_cases hk : k = i
      · rw [hk, hsource]
        exact hpan
      · exact (halone howns k hk).2
  cases hgoes.effect with
  | nothing hp hq _ hvalue hworld =>
    rw [hq] at hjob
    exact ⟨served, d₁, pending, h.nothing hgoes hp hq (by simpa using hjob) hvalue hworld, rfl⟩
  | prepared j hvalue hworld =>
    refine ⟨served, d₁, pending, hmoved rfl ?_ fun _ _ => ?_, rfl⟩
    · exact hstanding.frame rfl ⟨rfl, rfl⟩ ⟨rfl, rfl⟩
    · rw [hvalue]
      exact hsettled rfl rfl rfl
  | granted j hvalue hworld =>
    obtain ⟨reader, answers, htext, rfl⟩ := hstanding.waiting j rfl
    refine ⟨served, d₁, pending, hmoved rfl ⟨?_, ?_, ?_⟩ ?_, rfl⟩
    · intro j hj
      cases hj
    · intro _
      refine ⟨reader, answers, s'.lock.world, .api_set reader answers, htext, ?_, ?_⟩
      · rw [hvalue, hsettled rfl rfl rfl]
        exact .start
      · intro j' hj'
        cases hj'
        rfl
    · intro _ hq
      cases hq
    · intro hq
      cases hq
  | @wrote _ j j' hmut =>
    obtain ⟨reader, answers, w, j₁, htext, hpartly, hj₁⟩ := hstanding.inside (Or.inl rfl)
    cases hj₁ j rfl
    refine ⟨served, d₁, pending, hmoved rfl ⟨?_, ?_, ?_⟩ ?_, rfl⟩
    · intro j hj
      cases hj
    · intro _
      refine ⟨reader, answers, w, j', htext, hpartly.more hmut, ?_⟩
      intro j'' hj''
      cases hj''
      rfl
    · intro _ hq
      cases hq
    · intro hq
      cases hq
  | @finished _ j hmut =>
    obtain ⟨reader, answers, w, j₁, htext, hpartly, hj₁⟩ := hstanding.inside (Or.inl rfl)
    cases hj₁ j rfl
    obtain ⟨status, hset⟩ := hpartly.api_set hmut
    refine ⟨_, s'.lock.value, _, ⟨h.serves.set i hset, ?_, fun _ _ => rfl⟩, listed_finish htext⟩
    intro k
    by_cases hk : k = i
    · rw [hk, hself, Function.update_self]
      refine ⟨?_, ?_, fun _ _ _ => rfl⟩
      · intro j hj
        cases hj
      · rintro (h | h) <;> cases h
    · rw [Function.update_of_ne hk]
      exact h.standing_other (halone rfl) hgoes hk
  | @panicked _ j msg hmut hvalue hworld =>
    obtain ⟨reader, answers, w, j₁, htext, hpartly, _⟩ := hstanding.inside (Or.inl rfl)
    refine ⟨served, d₁, pending, hmoved rfl ⟨?_, ?_, ?_⟩ ?_, rfl⟩
    · intro j hj
      cases hj
    · intro _
      refine ⟨reader, answers, w, j₁, htext, ?_, ?_⟩
      · rw [hvalue, hworld]
        exact hpartly
      · intro j' hj'
        cases hj'
    · intro _ _ hq
      cases hq
    · intro _ hq
      cases hq

end moves

/-! ## Section 4: Serving -/

theorem listed_work (op : DeviceOp) (hi : pending i = none) :
    listed (served ++ [(i, .work op)]) pending = fun k =>
      listed served pending k ++ if i = k then [Request.work op] else [] := by
  funext k
  unfold listed
  rw [servedTo_concat]
  by_cases hk : i = k
  · subst hk
    rw [if_pos rfl, hi]
    simp
  · rw [if_neg hk]
    simp

theorem listed_set (reader : Reader) (answers : Nat → Device.ApiEnv) (hi : pending i = none) :
    listed served (Function.update pending i (some (reader, answers))) = fun k =>
      listed served pending k ++ if i = k then [Request.set reader answers] else [] := by
  funext k
  unfold listed
  by_cases hk : i = k
  · subst hk
    rw [Function.update_self, if_pos rfl, hi]
    simp
  · rw [Function.update_of_ne (Ne.symm hk), if_neg hk, List.append_nil]

variable [Fintype ι]

/-- **One step of a thread** keeps the account. -/
theorem Account.step {a : LoopAction} (h : Account B P d s served d₁ pending) (hs : s.lock.Sound)
    (hstep : s.step B P i a = some s') : ∃ served' d₂ pending',
      Account B P d s' served' d₂ pending' ∧
      listed served' pending' = fun k =>
        listed served pending k ++ if i = k then a.request.toList else [] := by
  have hsilent : ∀ {served' pending'}, a.request = none →
      listed served' pending' = listed served pending → listed served' pending' = fun k =>
        listed served pending k ++ if i = k then a.request.toList else [] := by
    intro served' pending' ha hlisted
    funext k
    rw [hlisted, ha]
    simp
  have hguard : s.lock.phase i = .guard → pending i = none := by
    intro hi
    have hout := (h.standing i).outside
    rw [hi] at hout
    exact hout rfl rfl rfl
  obtain ⟨q, hturns, rfl⟩ | ⟨c, q, e, huses, hlock, -⟩ := step_cases hstep
  · refine ⟨served, d₁, pending, ⟨h.serves, h.standing, h.value⟩, hsilent ?_ rfl⟩
    generalize s.place i = p at hturns
    cases hturns <;> rfl
  · have hmove : a.request = none → (c = .read ∨ c = .drop ∨ c = .proceed) →
        ∃ served' d₂ pending', Account B P d s' served' d₂ pending' ∧
          listed served' pending' = fun k =>
            listed served pending k ++ if i = k then a.request.toList else [] := by
      intro ha hc
      obtain ⟨p, q, hgoes, hjob⟩ := Lock.step_moves hlock hc
      obtain ⟨served', d₂, pending', haccount, hlisted⟩ := h.moves hs hgoes hjob
      exact ⟨served', d₂, pending', haccount, hsilent ha hlisted⟩
    generalize s.place i = p at huses
    cases huses with
    | read => exact hmove rfl (by simp)
    | reading => exact hmove rfl (by simp)
    | setting => exact hmove rfl (by simp)
    | yield => exact hmove rfl (by simp)
    | leave => exact hmove rfl (by simp)
    | @work op d₂ calls outputs hop hdevice =>
      obtain ⟨hi, hlock⟩ := Lock.step_touch hlock
      refine ⟨_, d₂, pending, h.touch hs hi (fun hd => ?_) hlock, listed_work op (hguard hi)⟩
      rw [hd] at hdevice
      exact h.serves.work i hop hdevice
    | set reader answers =>
      obtain ⟨hi, hvalue, hphase⟩ := Lock.step_try_writeable hlock
      exact ⟨_, d₁, _, h.try_writeable hs hi hvalue hphase,
        listed_set reader answers (hguard hi)⟩
    | trigger_exit =>
      obtain ⟨hi, hlock⟩ := Lock.step_touch hlock
      refine ⟨served, _, pending, h.touch hs hi (fun hd => ?_) hlock, hsilent rfl rfl⟩
      rw [hd]
      exact h.serves

/-- Every run has an account. -/
theorem run_account {tr : List (LoopLabel ι)} (hrun : Run (eventLoop ι C B P) (.new d) tr s) :
    ∃ served d₁ pending, Account B P d s served d₁ pending ∧
      ∀ k, requests k tr = listed served pending k := by
  have hboth := hrun.invariant (I := fun tr s => s.lock.Sound ∧ ∃ served d₁ pending,
    Account B P d s served d₁ pending ∧ ∀ k, requests k tr = listed served pending k)
    ⟨Lock.Sound.new d Notices.new, [], d, fun _ => none, ⟨.nil, ?_, fun _ _ => rfl⟩, fun _ => rfl⟩
    ?_
  · exact hboth.2
  · intro i
    refine ⟨?_, ?_, fun _ _ _ => rfl⟩
    · intro j hj
      cases hj
    · rintro (h | h) <;> cases h
  · rintro tr s l s' ⟨hs, served, d₁, pending, haccount, hrequests⟩ hstep
    obtain ⟨served', d₂, pending', haccount', hlisted⟩ := haccount.step hs hstep
    refine ⟨step_sound hs hstep, served', d₂, pending', haccount', fun k => ?_⟩
    rw [requests_concat, hlisted, hrequests]

end Threads

/-- The other thread yields, and the set command is granted. -/
def symbolicGranting : List (LoopLabel Bool) :=
  symbolicWaiting ++ [⟨false, .yield_notice⟩, ⟨false, .drop⟩, ⟨true, .proceed⟩]

namespace Threads

theorem exec_symbolicGranting : ∃ s, (new symbolicDevice).exec (symbolicBuild false)
    Device.noAddresses symbolicGranting = some s ∧ s.lock.value = symbolicDevice ∧
    s.lock.phase true = .writing (.api_set sectionFirst Device.symbolicWorld) :=
  ⟨_, rfl, rfl, rfl⟩

end Threads

/-! ## Section 5: Tables -/

/-- A served request is a run of the device. -/
theorem Serves.run {d d₁ : Device C} {served : List (ι × Request)} (h : Serves B P d served d₁) :
    ∃ tr, Run (device C B) d tr d₁ := by
  induction h with
  | nil => exact ⟨[], .nil⟩
  | @work served d₁ d₂ op calls outputs _ i _ hstep ih =>
    obtain ⟨tr, hrun⟩ := ih
    have hlast : Run (device C B) d₁ [⟨op, calls, outputs⟩] d₂ := .snoc .nil hstep
    exact ⟨tr ++ [⟨op, calls, outputs⟩], hrun.append hlast⟩
  | @set served d₁ d₂ reader answers status _ i hset ih =>
    obtain ⟨tr, hrun⟩ := ih
    rw [Device.api_set_eq] at hset
    obtain ⟨⟨d₃, tr'⟩, hexec, hset⟩ := Outcome.bind_eq_ok.mp hset
    obtain ⟨status', _, hset⟩ := Outcome.bind_eq_ok.mp hset
    cases hset
    exact ⟨tr ++ tr', hrun.append (Device.exec_run hexec)⟩

namespace Threads

variable {d : Device C} {s s' : Threads ι C} {i k : ι}

/-! ## Section 6: A set command that panics -/

/-- From the grant of the write lock on, the thread is inside of `mut_func`, or it has panicked. -/
structure Wedged (B : Build) (P : Parsers) (reader : Reader) (answers : Nat → Device.ApiEnv)
    (d : Device C) (i : ι) (s : Threads ι C) : Prop where
  sound : s.lock.Sound
  stays : (∃ w j, s.lock.phase i = .writing j ∧ Lock.Partly (deviceClient C B P)
    (.api_set reader answers) d w j s.lock.value s.lock.world) ∨ (s.lock.phase i).panicked = true

/-- Nobody has a guard then. -/
theorem Wedged.nobody {reader : Reader} {answers : Nat → Device.ApiEnv}
    (h : Wedged B P reader answers d i s) : Nowhere Phase.has_read s.lock.phase := by
  rcases h.stays with ⟨w, j, hi, _⟩ | hi
  · exact h.sound.writer i (by rw [hi]; rfl)
  · exact h.sound.panicked i hi

theorem Wedged.not_guard {reader : Reader} {answers : Nat → Device.ApiEnv}
    (h : Wedged B P reader answers d i s) : s.lock.phase k ≠ .guard := by
  intro hk
  have hread := h.nobody k
  rw [hk] at hread
  cases hread

variable [DecidableEq ι] [Fintype ι]

/-- A step makes no request and lets nobody else in. -/
theorem Wedged.step {reader : Reader} {answers : Nat → Device.ApiEnv} {msg : String}
    {a : LoopAction} (hpanic : d.api_set B P answers 0 reader = .panic msg)
    (h : Wedged B P reader answers d i s) (hstep : s.step B P k a = some s') :
    Wedged B P reader answers d i s' ∧ a.request = none := by
  have howns : (s.lock.phase i).owns = true := by
    rcases h.stays with ⟨w, j, hi, _⟩ | hi
    · rw [hi]
      rfl
    · exact (Lock.panicked_owns hi).2
  have hsound' := step_sound h.sound hstep
  obtain ⟨q, hturns, rfl⟩ | ⟨c, q, e, huses, hlock, -⟩ := step_cases hstep
  · refine ⟨⟨hsound', h.stays⟩, ?_⟩
    generalize s.place k = p at hturns
    cases hturns <;> rfl
  · have hrequest : a.request = none := by
      generalize s.place k = p at huses
      cases huses with
      | work _ _ => exact absurd (Lock.step_touch hlock).1 h.not_guard
      | set _ _ => exact absurd (Lock.step_try_writeable hlock).1 h.not_guard
      | _ => rfl
    refine ⟨⟨hsound', ?_⟩, hrequest⟩
    obtain ⟨v, w, _, hguard, _⟩ | ⟨p, q, hgoes⟩ := Lock.step_cases hlock
    · exact absurd hguard h.not_guard
    by_cases hk : i = k
    · subst hk
      rw [hgoes.at_self]
      have hsource := hgoes.source
      rcases h.stays with ⟨w, j, hi, hpartly⟩ | hi
      · rw [hi] at hsource
        subst hsource
        cases hgoes.effect with
        | nothing hp _ _ _ _ => cases hp
        | wrote hmut => exact Or.inl ⟨w, _, rfl, hpartly.more hmut⟩
        | finished hmut =>
          obtain ⟨status, hset⟩ := hpartly.api_set hmut
          rw [hpanic] at hset
          cases hset
        | panicked _ _ _ => exact Or.inr rfl
      · rw [hsource] at hi
        exact Or.inr (hgoes.stays hi)
    · -- Somebody else does not own the mark, and touches nothing.
      have hother := hgoes.at_other hk
      have hidle : p.owns = false := by
        cases hp : p.owns with
        | false => rfl
        | true =>
          rw [← hgoes.source] at hp
          exact absurd (h.sound.owner i k howns hp) hk
      rcases h.stays with ⟨w, j, hi, hpartly⟩ | hi
      · refine Or.inl ⟨w, j, ?_, ?_⟩
        · rcases hgoes.at_other_place hk with hplace | hplace
          · rw [hplace, hi]
          · rw [hplace, hi]
            rfl
        · cases hgoes.effect with
          | nothing _ _ _ hvalue hworld =>
            rw [hvalue, hworld]
            exact hpartly
          | _ => cases hidle
      · rw [hother.panicked]
        exact Or.inr hi

/-- **A set command that panics is the last thing the device does.**  From the grant of the write
    lock on no thread has a guard, and no handler is asked for anything any more. -/
theorem eventLoop_wedged {tr tr' : List (LoopLabel ι)} {reader : Reader}
    {answers : Nat → Device.ApiEnv} {msg : String} (hrun : Run (eventLoop ι C B P) (.new d) tr s)
    (hgrant : s.lock.phase i = .writing (.api_set reader answers))
    (hpanic : s.lock.value.api_set B P answers 0 reader = .panic msg)
    (hrun' : Run (eventLoop ι C B P) s tr' s') :
    Nowhere Phase.has_read s'.lock.phase ∧ ∀ l ∈ tr', l.action.request = none := by
  have hboth := hrun'.invariant (I := fun tr' s' =>
    Wedged B P reader answers s.lock.value i s' ∧ ∀ l ∈ tr', l.action.request = none)
    ⟨⟨run_sound hrun, Or.inl ⟨_, _, hgrant, .start⟩⟩, by simp⟩ ?_
  · exact ⟨hboth.1.nobody, hboth.2⟩
  · rintro tr' s₁ l s₂ ⟨hwedged, hnone⟩ hstep
    obtain ⟨hwedged', hrequest⟩ := hwedged.step hpanic hstep
    refine ⟨hwedged', fun l' hl' => ?_⟩
    rcases List.mem_append.mp hl' with hl' | hl'
    · exact hnone l' hl'
    · rw [List.mem_singleton.mp hl']
      exact hrequest

theorem sectionFirst_panics : symbolicDevice.api_set (symbolicBuild false) Device.noAddresses
    Device.symbolicWorld 0 sectionFirst = .panic "Private key must be set first" := by
  rw [Device.api_set_eq]
  refine (congrArg _ (Device.script_public_key Device.hexText_two
    (Device.hexText_plain (by decide)))).trans ?_
  rfl

theorem eventLoop_wedged_granting : ∃ s, Run (eventLoop Bool symbolic (symbolicBuild false)
    Device.noAddresses) (.new symbolicDevice) symbolicGranting s ∧ ∀ tr' s',
      Run (eventLoop Bool symbolic (symbolicBuild false) Device.noAddresses) s tr' s' →
      Nowhere Phase.has_read s'.lock.phase ∧ ∀ l ∈ tr', l.action.request = none := by
  obtain ⟨s, hexec, hvalue, hgrant⟩ := exec_symbolicGranting
  have hpanic := sectionFirst_panics
  rw [← hvalue] at hpanic
  exact ⟨s, exec_run hexec, fun tr' s' hrun' =>
    eventLoop_wedged (exec_run hexec) hgrant hpanic hrun'⟩

end Threads

end PqBoringtun
