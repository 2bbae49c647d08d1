import PqBoringtun.Framework.Epoll
import PqBoringtun.Framework.Outcome

/-! # The event queue

    Model of `device/epoll.rs` over the kernel of `Framework.Epoll`.

    A `Box<Event>` has a name that is never used again, and the kernel hands
    out the names that it was given: a name whose box was dropped is a dangling
    pointer, and its use a fault.  Dropping a box drops its handler, which
    closes the descriptors that the handler owns.

    * Section 1: events and guards.
    * Section 2: registration and removal.
    * Section 3: waiting.
-/

namespace PqBoringtun

open Epoll

/-! ## Section 1: Events and guards -/

/-- The name of a `Box<Event>`. -/
abbrev EventPtr : Type := Nat

/-- An event, with the descriptors that are closed when its handler is dropped. -/
structure EventPoll.Event where
  fd : Fd
  /-- The event flags have `EPOLLONESHOT` -/
  oneshot : Bool
  notifier : Bool
  needs_read : Bool
  owns : List Fd
  deriving DecidableEq

namespace EventPoll.Event

/-- The event of `new_event`, whose handler owns the trigger or not. -/
def new_event (trigger : Fd) (owned : Bool) : Event :=
  ⟨trigger, true, false, false, if owned then [trigger] else []⟩

/-- The event of `new_periodic_event`; the descriptor of the timer is never closed. -/
def new_periodic_event (tfd : Fd) : Event := ⟨tfd, true, false, true, []⟩

/-- The event of `new_notifier`; its descriptor is never closed. -/
def new_notifier (efd : Fd) : Event := ⟨efd, false, true, false, []⟩

end EventPoll.Event

structure EventPoll where
  /-- `events: Mutex<Vec<Option<Box<Event>>>>` -/
  events : List (Option (EventPtr × EventPoll.Event))
  /-- The kernel with the interest list of `epoll` -/
  kernel : Kernel EventPtr
  /-- The names from here on are not in use -/
  next : EventPtr
  /-- The events that threads have an `EventGuard` of -/
  guards : List EventPtr

namespace EventPoll

def new : EventPoll := ⟨[], .new, 0, []⟩

/-- The event at an index. -/
def slot (s : EventPoll) (index : Fd) : Option (EventPtr × Event) := s.events[index]?.join

/-- The event that a pointer points to. -/
def deref (s : EventPoll) (p : EventPtr) : Option Event :=
  s.events.findSome? fun x => x.bind fun y => if y.1 = p then some y.2 else none

/-! ## Section 2: Registration and removal -/

/-- Take the event out of its slot and drop it; its entry is deleted afterwards. -/
def take (s : EventPoll) (index : Fd) : EventPoll :=
  match s.slot index with
  | none => s
  | some (_, ev) => { s with
      events := s.events.set index none
      kernel := (s.kernel.closeAll ev.owns).delete index }

/-- Insert an event into the events vector. -/
def insert_at (s : EventPoll) (index : Fd) (data : EventPtr × Event) : EventPoll :=
  -- Resize the vector to be able to fit the new index
  let s := { s with events := s.events ++ List.replicate (index + 1 - s.events.length) none }
  -- Properly remove the previous event first
  let s := s.take index
  { s with events := s.events.set index (some data) }

/-- Register an event, and whether this succeeded. -/
def register_event (s : EventPoll) (ev : Event) : EventPoll × Bool :=
  let p := s.next
  let s := { s with next := p + 1 }.insert_at ev.fd (p, ev)
  -- Add the event to epoll
  let (kernel, ok) := s.kernel.add ev.fd ev.oneshot p
  ({ s with kernel := kernel }, ok)

def clear_event_by_fd (s : EventPoll) (index : Fd) : Outcome EventPoll :=
  if index < s.events.length then .ok (s.take index) else .panic "index out of bounds"

/-! ## Section 3: Waiting -/

/-- Wait until the kernel reports this entry. -/
def wait (s : EventPoll) (fd : Fd) (file : File) : Option (Outcome EventPoll) :=
  (s.kernel.report fd file).map fun x =>
    match s.deref x.1 with
    | none => .panic "dangling pointer"
    | some _ => .ok { s with kernel := x.2, guards := x.1 :: s.guards }

/-- The guard goes out of scope, and the event is enabled again. -/
def drop_guard (s : EventPoll) (p : EventPtr) : Outcome EventPoll :=
  match s.deref p with
  | none => .panic "dangling pointer"
  | some ev =>
    .ok { s with kernel := s.kernel.modify ev.fd ev.oneshot p, guards := s.guards.erase p }

/-- Cancel and remove the event referenced by this guard. -/
def cancel (s : EventPoll) (p : EventPtr) : Outcome EventPoll :=
  match s.deref p with
  | none => .panic "dangling pointer"
  | some ev => do
    let s ← s.clear_event_by_fd ev.fd
    -- Don't call the regular drop that would enable the event
    return { s with guards := s.guards.erase p }

end EventPoll

end PqBoringtun
