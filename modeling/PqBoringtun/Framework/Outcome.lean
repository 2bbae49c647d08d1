import Mathlib.Data.List.Basic

/-! # Outcomes of code that can panic

    A call either returns a value or panics with a message.  `Outcome` is
    the monad of such calls; the inversion lemmas peel a sequence of calls
    that returned into the calls it is made of.
-/

/-- A call returns a value or panics. -/
inductive Outcome (α : Type) where
  | ok (a : α)
  | panic (msg : String)
  deriving DecidableEq, Repr

namespace Outcome

variable {α β : Type}

/-- Run `f` on the returned value; a panic goes through. -/
def bind (x : Outcome α) (f : α → Outcome β) : Outcome β :=
  match x with
  | ok a => f a
  | panic msg => panic msg

instance : Monad Outcome where
  pure := ok
  bind := bind

@[simp] theorem pure_eq (a : α) : (pure a : Outcome α) = ok a := rfl

@[simp] theorem ok_bind (a : α) (f : α → Outcome β) : (ok a >>= f) = f a := rfl

@[simp] theorem panic_bind (msg : String) (f : α → Outcome β) :
    ((panic msg : Outcome α) >>= f) = panic msg := rfl

/-- A sequence of two calls returned: both did. -/
theorem bind_eq_ok {x : Outcome α} {f : α → Outcome β} {b : β} :
    (x >>= f) = ok b ↔ ∃ a, x = ok a ∧ f a = ok b := by
  cases x with
  | ok a => simp
  | panic msg => simp

/-- A sequence panicked although its first call returned: the rest did. -/
theorem bind_eq_panic {x : Outcome α} {f : α → Outcome β} {msg : String} (hx : ∃ a, x = ok a)
    (h : (x >>= f) = panic msg) : ∃ a, x = ok a ∧ f a = panic msg := by
  obtain ⟨a, rfl⟩ := hx
  exact ⟨a, rfl, h⟩

/-- A sequence whose second call always returns panics where its first one does. -/
theorem bind_panics_iff {x : Outcome α} {f : α → Outcome β} (hf : ∀ a, ∃ b, f a = ok b) :
    (∃ msg, (x >>= f) = panic msg) ↔ ∃ msg, x = panic msg := by
  cases x with
  | ok a =>
    obtain ⟨b, hb⟩ := hf a
    simp [hb]
  | panic msg => simp

/-- Two calls return the same, if they return. -/
def Same (x y : Outcome α) : Prop := ∀ a, x = ok a ↔ y = ok a

@[simp] theorem same_ok {a b : α} : Same (ok a) (ok b) ↔ a = b := by
  constructor
  · intro h
    exact (ok.inj ((h a).mp rfl)).symm
  · rintro rfl
    exact fun _ => Iff.rfl

@[simp] theorem same_panic (msg msg' : String) : Same (panic msg : Outcome α) (panic msg') := by
  intro a
  simp

@[simp] theorem not_same_ok_panic {a : α} {msg : String} : ¬ Same (ok a) (panic msg) := by
  intro h
  cases (h a).mp rfl

@[simp] theorem not_same_panic_ok {a : α} {msg : String} : ¬ Same (panic msg) (ok a) := by
  intro h
  cases (h a).mpr rfl

theorem Same.rfl {x : Outcome α} : Same x x := fun _ => Iff.rfl

theorem Same.symm {x y : Outcome α} (h : Same x y) : Same y x := fun a => (h a).symm

/-- What is done to the results does not matter, if it tells them apart. -/
theorem same_bind_ok {f : α → β} (hf : f.Injective) {x y : Outcome α} :
    Same (x >>= fun a => ok (f a)) (y >>= fun a => ok (f a)) ↔ Same x y := by
  cases x with
  | ok a =>
    cases y with
    | ok b => simp [hf.eq_iff]
    | panic msg => simp
  | panic msg =>
    cases y with
    | ok b => simp
    | panic msg' => simp

end Outcome

/-- A call that returns a value, returns an error, or panics. -/
abbrev Attempt (ε α : Type) : Type := ExceptT ε Outcome α

namespace Attempt

variable {ε α β : Type}

/-- A panic inside a fallible call. -/
def panic (msg : String) : Attempt ε α := ExceptT.mk (Outcome.panic msg)

@[simp] theorem run_pure (a : α) : (pure a : Attempt ε α).run = .ok (.ok a) := rfl

@[simp] theorem run_throw (e : ε) : (throw e : Attempt ε α).run = .ok (.error e) := rfl

@[simp] theorem run_panic (msg : String) : (panic msg : Attempt ε α).run = .panic msg := rfl

/-- A sequence of two fallible calls succeeded: both did. -/
theorem run_bind_eq_ok {x : Attempt ε α} {f : α → Attempt ε β} {b : β} :
    (x >>= f).run = .ok (.ok b) ↔ ∃ a, x.run = .ok (.ok a) ∧ (f a).run = .ok (.ok b) := by
  have hbind : (x >>= f).run = x.run >>= ExceptT.bindCont f := rfl
  rw [hbind]
  rcases x.run with (e | a) | msg
  · simp [ExceptT.bindCont]
  · simp [ExceptT.bindCont, ExceptT.run]
  · simp

/-- Running a sequence whose first call succeeded. -/
theorem run_bind_of_ok {x : Attempt ε α} {f : α → Attempt ε β} {a : α}
    (hx : x.run = .ok (.ok a)) : (x >>= f).run = (f a).run := by
  have hbind : (x >>= f).run = x.run >>= ExceptT.bindCont f := rfl
  rw [hbind, hx]
  rfl

/-- An error ends a sequence. -/
theorem run_bind_of_error {x : Attempt ε α} {f : α → Attempt ε β} {e : ε}
    (hx : x.run = .ok (.error e)) : (x >>= f).run = .ok (.error e) := by
  have hbind : (x >>= f).run = x.run >>= ExceptT.bindCont f := rfl
  rw [hbind, hx]
  rfl

/-- A sequence gave an error: one of its calls did. -/
theorem run_bind_eq_error {x : Attempt ε α} {f : α → Attempt ε β} {e : ε} :
    (x >>= f).run = .ok (.error e) ↔
      x.run = .ok (.error e) ∨ ∃ a, x.run = .ok (.ok a) ∧ (f a).run = .ok (.error e) := by
  have hbind : (x >>= f).run = x.run >>= ExceptT.bindCont f := rfl
  rw [hbind]
  rcases x.run with (e | a) | msg
  · simp [ExceptT.bindCont]
  · simp [ExceptT.bindCont, ExceptT.run]
  · simp

/-- A sequence of calls that do not panic. -/
theorem run_bind_returns {x : Attempt ε α} {f : α → Attempt ε β} (hx : ∃ res, x.run = .ok res)
    (hf : ∀ a, ∃ res, (f a).run = .ok res) : ∃ res, (x >>= f).run = .ok res := by
  obtain ⟨e | a, hx⟩ := hx
  · exact ⟨_, run_bind_of_error hx⟩
  · rw [run_bind_of_ok hx]
    exact hf a

end Attempt
