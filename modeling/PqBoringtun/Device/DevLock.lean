import PqBoringtun.Framework.Outcome
import PqBoringtun.Framework.Run
import PqBoringtun.Framework.Scopes

/-! # The device lock

    Model of `device/dev_lock.rs`: a lock whose readers keep their guards for
    long, and a reader who wants to write asks the others to yield.

    A thread is at a place of the code (`Phase`).  Guards of the mutex around
    `wants_write` and of the inner `RwLock` live as long as their scopes, so
    the place says what the thread holds.  The `RwLock` is that of
    `parking_lot`: a reader is kept out while a writer waits.  `cvar.wait`
    wakes up only when it is notified.

    * Section 1: places.
    * Section 2: the lock and what its users do.
    * Section 3: the steps of a thread.
    * Section 4: runs.
-/

namespace PqBoringtun

open Scopes

/-! ## Section 1: Places -/

/-- Where a thread is; `J` is what it wants to do with write access. -/
inductive Phase (J : Type) where
  /-- Without a guard -/
  | outside
  /-- `read`: `lock.lock()` -/
  | read_lock
  /-- `read`: `while *wants_write` -/
  | read_check
  /-- `read`: asleep in `cvar.wait` -/
  | read_wait
  /-- `read`: `cvar.wait` was notified and locks the mutex again -/
  | read_wake
  /-- `read`: `self.inner.read()` -/
  | read_inner
  /-- `read`: the guard is made, the mutex is unlocked -/
  | read_return
  /-- With a `LockReadGuard` -/
  | guard
  /-- `try_writeable`: `lock.lock()` -/
  | write_lock (j : J)
  /-- `try_writeable`: the first `unlocked` gives up the read lock -/
  | write_unlock (j : J)
  /-- `try_writeable`: `while *wants_write` -/
  | write_check (j : J)
  /-- `try_writeable`: asleep in `cvar.wait` -/
  | write_wait (j : J)
  /-- `try_writeable`: `cvar.wait` was notified and locks the mutex again -/
  | write_wake (j : J)
  /-- `try_writeable`: the first `unlocked` takes the read lock again -/
  | write_relock (j : J)
  /-- `try_writeable`: `prep_func` -/
  | prep (j : J)
  /-- `try_writeable`: the second `unlocked` gives up the read lock -/
  | write_release (j : J)
  /-- `try_writeable`: `lock.write()` -/
  | write_acquire (j : J)
  /-- `try_writeable`: inside of `mut_func`, of which `j` is left -/
  | writing (j : J)
  /-- `try_writeable`: the second `unlocked` takes the read lock again -/
  | write_return
  /-- `try_writeable`: `lock.lock()`, to signal other threads -/
  | signal_lock
  /-- `try_writeable`: `*wants_write = false` -/
  | signal
  /-- `try_writeable`: `cvar.notify_all()` -/
  | notify
  /-- `mut_func` has panicked, and `unlocked` takes the read lock again -/
  | unwinding
  /-- The thread has ended in a panic -/
  | dead

namespace Phase

variable {J : Type}

/-- The places where a thread has the mutex. -/
def has_mutex : Phase J → Bool
  | read_check | read_inner | read_return | write_unlock _ | write_check _ | signal | notify => true
  | _ => false

/-- The places where a thread has the read lock. -/
def has_read : Phase J → Bool
  | read_return | guard | write_lock _ | write_unlock _ | prep _ | write_release _ | signal_lock
  | signal | notify => true
  | _ => false

/-- The place where a thread has the write lock. -/
def has_write : Phase J → Bool
  | writing _ => true
  | _ => false

/-- The place where a thread waits for the write lock. -/
def waits_write : Phase J → Bool
  | write_acquire _ => true
  | _ => false

/-- What is left to do when `prep_func` has run and the write lock is not granted yet. -/
def prepared : Phase J → Option J
  | write_release j | write_acquire j => some j
  | _ => none

/-- What is left to do until the write lock is granted. -/
def job : Phase J → Option J
  | write_lock j | write_unlock j | write_check j | write_wait j | write_wake j | write_relock j
  | prep j | write_release j | write_acquire j => some j
  | _ => none

/-- The places between setting and clearing `wants_write`. -/
def owns : Phase J → Bool
  | write_relock _ | prep _ | write_release _ | write_acquire _ | writing _ | write_return
  | signal_lock | signal | unwinding | dead => true
  | _ => false

/-- The places of `read` behind its loop. -/
def enters : Phase J → Bool
  | read_inner | read_return => true
  | _ => false

def sleeps : Phase J → Bool
  | read_wait | write_wait _ => true
  | _ => false

/-- The places after a panic. -/
def panicked : Phase J → Bool
  | unwinding | dead => true
  | _ => false

/-- The places outside of `dev_lock.rs`. -/
def idle : Phase J → Bool
  | outside | guard => true
  | _ => false

/-- Which function of `dev_lock.rs` the thread is in. -/
inductive Kind where
  | none
  | read
  | try_writeable
  deriving DecidableEq

def kind : Phase J → Kind
  | outside | guard => .none
  | read_lock | read_check | read_wait | read_wake | read_inner | read_return => .read
  | _ => .try_writeable

/-- A thread that is asleep is notified. -/
def notified : Phase J → Phase J
  | read_wait => read_wake
  | write_wait j => write_wake j
  | p => p

end Phase

/-! ## Section 2: The lock and its users -/

/-- What the users of a lock do: `mut_func` is a program that takes one step at a time and says
    what is left of it; `interior` is what a shared reference lets them change. -/
structure LockClient (T W J : Type) where
  prep_func : J → T → W → W
  mut_func : J → T → W → Outcome (T × W × Option J)
  interior : T → T → Prop

/-- The lock, the threads `ι`, and `world`, which is not protected by the lock. -/
structure Lock (ι T W J : Type) where
  wants_write : Bool
  value : T
  world : W
  phase : ι → Phase J

variable {ι T W J : Type}

/-- What a thread does on its own account; inside of the lock it can only go on. -/
inductive Command (T W J : Type) where
  /-- `Lock::read` -/
  | read
  /-- Drop the guard -/
  | drop
  /-- `LockReadGuard::try_writeable` -/
  | try_writeable (j : J)
  /-- Change the value through the shared reference, or the world -/
  | touch (value : T) (world : W)
  /-- Go on inside of `dev_lock.rs` -/
  | proceed

/-- What happens to the value and the world. -/
inductive LockEvent (T W J : Type) where
  | touched (value : T) (world : W)
  | prepared (j : J)
  | granted (j : J)
  | finished
  | panicked

namespace Lock

def new (user_data : T) (world : W) : Lock ι T W J where
  wants_write := false
  value := user_data
  world := world
  phase := fun _ => .outside

/-! ## Section 3: Steps -/

/-- The mutex can be locked. -/
def mutex_free (s : Lock ι T W J) : Prop := Nowhere Phase.has_mutex s.phase

/-- The read lock can be taken: nobody has the write lock or waits for it. -/
def can_read (s : Lock ι T W J) : Prop :=
  Nowhere Phase.has_write s.phase ∧ Nowhere Phase.waits_write s.phase

/-- The write lock can be taken. -/
def can_write (s : Lock ι T W J) : Prop :=
  Nowhere Phase.has_read s.phase ∧ Nowhere Phase.has_write s.phase

section decidable
variable [Fintype ι] (s : Lock ι T W J)

instance : Decidable s.mutex_free := inferInstanceAs (Decidable (Nowhere _ _))

instance : Decidable s.can_read := inferInstanceAs (Decidable (_ ∧ _))

instance : Decidable s.can_write := inferInstanceAs (Decidable (_ ∧ _))

end decidable

variable [DecidableEq ι]

/-- The thread goes to another place. -/
def goto (s : Lock ι T W J) (i : ι) (p : Phase J) : Lock ι T W J :=
  { s with phase := Function.update s.phase i p }

variable [Fintype ι] (A : LockClient T W J)

/-- The thread goes on, unless it has to wait. -/
def proceed (s : Lock ι T W J) (i : ι) :
    Option (Lock ι T W J × Option (LockEvent T W J)) :=
  match s.phase i with
  | .outside | .guard | .dead => none
  | .read_wait | .write_wait _ => none
  | .read_lock => if s.mutex_free then some (s.goto i .read_check, none) else none
  | .read_check =>
    -- We have a writer and we want to wait for it to go away
    if s.wants_write then some (s.goto i .read_wait, none) else some (s.goto i .read_inner, none)
  | .read_wake => if s.mutex_free then some (s.goto i .read_check, none) else none
  | .read_inner => if s.can_read then some (s.goto i .read_return, none) else none
  | .read_return => some (s.goto i .guard, none)
  -- First tell everyone that we want to write now
  | .write_lock j => if s.mutex_free then some (s.goto i (.write_unlock j), none) else none
  | .write_unlock j => some (s.goto i (.write_check j), none)
  | .write_check j =>
    if s.wants_write then some (s.goto i (.write_wait j), none)
    else some ({ s.goto i (.write_relock j) with wants_write := true }, none)
  | .write_wake j => if s.mutex_free then some (s.goto i (.write_check j), none) else none
  | .write_relock j => if s.can_read then some (s.goto i (.prep j), none) else none
  -- Second stage is to run the prep function
  | .prep j =>
    some ({ s.goto i (.write_release j) with world := A.prep_func j s.value s.world },
      some (.prepared j))
  | .write_release j => some (s.goto i (.write_acquire j), none)
  -- Third stage is to perform our op under a write lock
  | .write_acquire j =>
    if s.can_write then some (s.goto i (.writing j), some (.granted j)) else none
  | .writing j =>
    match A.mut_func j s.value s.world with
    | .ok (value, world, some j) =>
      some ({ s.goto i (.writing j) with value := value, world := world }, none)
    | .ok (value, world, none) =>
      some ({ s.goto i .write_return with value := value, world := world }, some .finished)
    | .panic _ => some (s.goto i .unwinding, some .panicked)
  | .write_return => if s.can_read then some (s.goto i .signal_lock, none) else none
  -- Finally signal other threads
  | .signal_lock => if s.mutex_free then some (s.goto i .signal, none) else none
  | .signal => some ({ s.goto i .notify with wants_write := false }, none)
  | .notify => some ({ s with phase := Function.update (fun k => (s.phase k).notified) i .guard },
      none)
  | .unwinding => if s.can_read then some (s.goto i .dead, none) else none

/-- One step of a thread. -/
def step (s : Lock ι T W J) (i : ι) (c : Command T W J) :
    Option (Lock ι T W J × Option (LockEvent T W J)) :=
  match c, s.phase i with
  | .read, .outside => some (s.goto i .read_lock, none)
  | .drop, .guard => some (s.goto i .outside, none)
  | .try_writeable j, .guard => some (s.goto i (.write_lock j), none)
  | .touch value world, .guard =>
    some ({ s with value := value, world := world }, some (.touched value world))
  | .proceed, _ => s.proceed A i
  | _, _ => none

end Lock

/-! ## Section 4: Runs -/

/-- A label of a run: the thread, what it does, and what happens. -/
structure LockLabel (ι T W J : Type) where
  thread : ι
  command : Command T W J
  event : Option (LockEvent T W J)

/-- What happens along a run. -/
def lockEvents (tr : List (LockLabel ι T W J)) : List (LockEvent T W J) :=
  tr.flatMap fun l => l.event.toList

/-- A shared reference only changes what is mutable inside. -/
def LockClient.Permits (A : LockClient T W J) (s : Lock ι T W J) (c : Command T W J) : Prop :=
  ∀ value world, c = .touch value world → A.interior s.value value

variable [DecidableEq ι] [Fintype ι]

/-- The threads interleave: a step is the next step of one of them. -/
def locking (A : LockClient T W J) : System (Lock ι T W J) (LockLabel ι T W J) where
  step := fun s l s' => s.step A l.thread l.command = some (s', l.event) ∧ A.Permits s l.command

end PqBoringtun
