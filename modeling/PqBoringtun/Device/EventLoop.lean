import PqBoringtun.Device.DevLock
import PqBoringtun.Device.Lines

/-! # The event loop

    Model of `DeviceHandle::event_loop`: any number of threads that share the
    device through the device lock, wait for events, call their handlers and
    yield the lock when one of them wants to change the configuration.

    What a handler does with one datagram, packet or tick is one step of the
    device; a set command is carried out line by line.  Which events come in,
    and in which order they are handed to the threads, is left open.

    * Section 1: notifications.
    * Section 2: set commands, line by line.
    * Section 3: threads.
-/

namespace PqBoringtun

/-! ## Section 1: Notifications -/

/-- The counter of an `eventfd`. -/
structure EventFd where
  counter : Nat

namespace EventFd

/-- The event is triggered as long as the counter is not zero. -/
def triggered (fd : EventFd) : Bool := 0 < fd.counter

/-- `trigger_notification` writes `u64::MAX - 1`, which is also the largest value of the counter;
    a write that does not fit is refused. -/
def trigger_notification (fd : EventFd) : EventFd :=
  if fd.counter + (2 ^ 64 - 2) ≤ 2 ^ 64 - 2 then ⟨fd.counter + (2 ^ 64 - 2)⟩ else fd

/-- `stop_notification` reads the counter, which resets it. -/
def stop_notification (_ : EventFd) : EventFd := ⟨0⟩

theorem triggered_trigger (fd : EventFd) : fd.trigger_notification.triggered = true := by
  unfold trigger_notification triggered
  by_cases h : fd.counter + (2 ^ 64 - 2) ≤ 2 ^ 64 - 2
  · rw [if_pos h]
    exact decide_eq_true (by show 0 < fd.counter + (2 ^ 64 - 2); omega)
  · rw [if_neg h]
    exact decide_eq_true (by omega)

end EventFd

/-- The notification events of a device. -/
structure Notices where
  yield_notice : EventFd
  exit_notice : EventFd

namespace Notices

def new : Notices := ⟨⟨0⟩, ⟨0⟩⟩

def trigger_yield (n : Notices) : Notices :=
  { n with yield_notice := n.yield_notice.trigger_notification }

def trigger_exit (n : Notices) : Notices :=
  { n with exit_notice := n.exit_notice.trigger_notification }

def cancel_yield (n : Notices) : Notices :=
  { n with yield_notice := n.yield_notice.stop_notification }

@[simp] theorem trigger_exit_yield_notice (n : Notices) :
    n.trigger_exit.yield_notice = n.yield_notice := by
  unfold trigger_exit
  rfl

@[simp] theorem trigger_yield_triggered (n : Notices) :
    n.trigger_yield.yield_notice.triggered = true := by
  simp only [trigger_yield, EventFd.triggered_trigger]

end Notices

/-! ## Section 2: Set commands -/

variable {C : Crypto}

namespace Device

/-- Where the loops of a set command stand, apart from the device. -/
inductive SetPlace where
  | command
  | peer (public_key : PublicKey) (config : PeerConfig)

def SetPlace.on (d : Device C) : SetPlace → SetState C
  | .command => .command d
  | .peer public_key config => .peer d public_key config

def SetState.place : SetState C → SetPlace
  | .command _ => .command
  | .peer _ public_key config => .peer public_key config

@[simp] theorem SetState.place_on (s : SetState C) : s.place.on s.device = s := by
  cases s with
  | command d => rfl
  | peer d public_key config => rfl

@[simp] theorem SetPlace.device_on (d : Device C) (place : SetPlace) : (place.on d).device = d := by
  cases place with
  | command => rfl
  | peer public_key config => rfl

/-- What is left of the closure that `api_set` hands to `try_writeable`. -/
inductive SetCommand where
  | api_set (reader : Reader) (answers : Nat → ApiEnv)
  | lines (place : SetPlace) (n : Nat) (reader : Reader) (answers : Nat → ApiEnv)

variable (B : Build) (P : Parsers)

/-- The next line. -/
def SetCommand.run (d : Device C) (notices : Notices) :
    SetCommand → Outcome (Device C × Notices × Option SetCommand)
  | .api_set reader answers =>
    .ok (d, notices.cancel_yield, some (.lines .command 0 reader answers))
  | .lines place n [] answers => do
    let (_, d) ← (place.on d).finish (answers n)
    return (d, notices, none)
  | .lines _ _ (none :: _) _ => .ok (d, notices, none)
  | .lines place n (some line :: reader) answers => do
    match ← (place.on d).line B P (answers n) (Str.pop line) with
    | .ok s => return (s.device, notices, some (.lines s.place (n + 1) reader answers))
    | .error (_, d) => return (d, notices, none)

end Device

/-- What handlers do: everything but changes of the configuration. -/
def DeviceOp.handles : DeviceOp → Bool
  | .udp .. | .conn .. | .cancel .. | .iface .. | .timers .. | .reset_count .. | .shared ..
  | .limiter .. => true
  | _ => false

/-- The device as the value of its lock. -/
def deviceClient (C : Crypto) (B : Build) (P : Parsers) :
    LockClient (Device C) Notices Device.SetCommand where
  prep_func := fun _ _ notices => notices.trigger_yield
  mut_func := fun j d notices => j.run B P d notices
  interior := fun d d' => d' = d ∨ ∃ op calls outputs, op.handles = true ∧
    d.step B op = .ok (d', calls, outputs)

/-! ## Section 3: Threads -/

/-- Where a thread is in the event loop. -/
inductive LoopPhase where
  /-- `device.read()` -/
  | start
  /-- `queue.wait()` -/
  | wait
  /-- Inside of a handler -/
  | handler
  /-- Inside of `api_set`, in the handler of the configuration interface -/
  | set
  /-- `Action::Yield`: break, and drop the guard -/
  | yield
  /-- `Action::Exit`: trigger the exit of the other threads -/
  | exit
  /-- Return, and drop the guard -/
  | leave
  | exited
  deriving DecidableEq

/-- The next step of a thread. -/
inductive LoopAction where
  | read
  /-- Go on inside of the lock -/
  | proceed
  /-- The guard is there -/
  | enter
  /-- `queue.wait()` returns an event that is no notification -/
  | event
  /-- `queue.wait()` returns the yield notice -/
  | yield_notice
  /-- `queue.wait()` returns the exit notice -/
  | exit_notice
  /-- The handler does its work on one datagram, packet or tick -/
  | work (op : DeviceOp)
  /-- The handler carries out a set command -/
  | set (reader : Reader) (answers : Nat → Device.ApiEnv)
  /-- The handler returns `Action::Continue` -/
  | continue
  /-- The handler returns `Action::Exit` -/
  | stop
  | drop
  | trigger_exit

/-- An event from outside, not a step that a thread takes on its own account. -/
def LoopAction.external : LoopAction → Bool
  | .event => true
  | _ => false

/-- The threads `ι` of a device. -/
structure Threads (ι : Type) (C : Crypto) where
  lock : Lock ι (Device C) Notices Device.SetCommand
  place : ι → LoopPhase

variable {ι : Type}

namespace Threads

def new (d : Device C) : Threads ι C where
  lock := .new d .new
  place := fun _ => .start

variable [DecidableEq ι]

def goto (s : Threads ι C) (i : ι) (q : LoopPhase) : Threads ι C :=
  { s with place := Function.update s.place i q }

variable [Fintype ι] (B : Build) (P : Parsers)

/-- A step of the lock, after which the thread is at `q`. -/
def locked (s : Threads ι C) (i : ι) (c : Command (Device C) Notices Device.SetCommand)
    (q : LoopPhase) : Option (Threads ι C) :=
  (s.lock.step (deviceClient C B P) i c).map fun x =>
    { lock := x.1, place := Function.update s.place i q }

/-- The thread has its guard. -/
def guarded (s : Threads ι C) (i : ι) : Bool :=
  match s.lock.phase i with
  | .guard => true
  | _ => false

/-- One step of a thread. -/
def step (s : Threads ι C) (i : ι) (a : LoopAction) : Option (Threads ι C) :=
  match s.place i, a with
  | .start, .read => s.locked B P i .read .start
  | .start, .proceed => s.locked B P i .proceed .start
  | .start, .enter => if s.guarded i then some (s.goto i .wait) else none
  | .wait, .event => some (s.goto i .handler)
  | .wait, .yield_notice =>
    if s.lock.world.yield_notice.triggered then some (s.goto i .yield) else none
  | .wait, .exit_notice =>
    if s.lock.world.exit_notice.triggered then some (s.goto i .exit) else none
  | .handler, .work op =>
    if op.handles then
      match s.lock.value.step B op with
      | .ok (d, _, _) => s.locked B P i (.touch d s.lock.world) .handler
      | .panic _ => none
    else none
  | .handler, .set reader answers =>
    s.locked B P i (.try_writeable (.api_set reader answers)) .set
  | .handler, .continue => some (s.goto i .wait)
  | .handler, .stop => some (s.goto i .exit)
  | .set, .proceed => s.locked B P i .proceed .set
  | .set, .enter => if s.guarded i then some (s.goto i .handler) else none
  | .yield, .drop => s.locked B P i .drop .start
  | .exit, .trigger_exit =>
    s.locked B P i (.touch s.lock.value s.lock.world.trigger_exit) .leave
  | .leave, .drop => s.locked B P i .drop .exited
  | _, _ => none

end Threads

/-- A label of the event loop: the thread and its step. -/
structure LoopLabel (ι : Type) where
  thread : ι
  action : LoopAction

/-- The threads interleave. -/
def eventLoop (ι : Type) [DecidableEq ι] [Fintype ι] (C : Crypto) (B : Build) (P : Parsers) :
    System (Threads ι C) (LoopLabel ι) where
  step := fun s l s' => s.step B P l.thread l.action = some s'

namespace Threads

variable [DecidableEq ι] [Fintype ι] {B : Build} {P : Parsers}

/-- Steps one after the other. -/
def exec (B : Build) (P : Parsers) (s : Threads ι C) : List (LoopLabel ι) → Option (Threads ι C)
  | [] => some s
  | l :: tr => (s.step B P l.thread l.action).bind fun s => s.exec B P tr

theorem exec_run {s s' : Threads ι C} {tr : List (LoopLabel ι)} (h : s.exec B P tr = some s') :
    Run (eventLoop ι C B P) s tr s' := by
  induction tr generalizing s with
  | nil =>
    cases h
    exact .nil
  | cons l tr ih =>
    obtain ⟨s₁, hstep, hrest⟩ := Option.bind_eq_some_iff.mp h
    have hfirst : Run (eventLoop ι C B P) s [l] s₁ := .snoc .nil hstep
    exact hfirst.append (ih hrest)

end Threads

end PqBoringtun
