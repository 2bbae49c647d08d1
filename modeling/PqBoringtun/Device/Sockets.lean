import PqBoringtun.Device.EventSafety
import PqBoringtun.Framework.Run

/-! # How the device uses the event queue

    The descriptors of a device: those that handlers own, the listening
    sockets `udp4` and `udp6`, and the `conn` of the endpoints of peers.
    `open_listen_socket` registers clones of the listening sockets, and
    `connect_endpoint` keeps a clone of the socket that is registered.

    Which descriptors and files the operating system hands out, which events
    it reports and when the other end of a connection is gone, is left open.

    * Section 1: the state and its operations.
    * Section 2: what the operating system guarantees.
    * Section 3: every operation is safe (`Sockets.run_safe`).
    * Section 4: listening sockets are never given up
      (`Sockets.run_listens`).
-/

namespace PqBoringtun

open Epoll

/-! ## Section 1: Operations -/

/-- The descriptors and files of the sockets that `open_listen_socket` opens. -/
structure Listening where
  udp4 : Fd
  udp6 : Fd
  clone4 : Fd
  clone6 : Fd
  file4 : File
  file6 : File

structure Sockets where
  poll : EventPoll
  udp4 : Option Fd
  udp6 : Option Fd
  /-- The `conn` of the endpoints of peers -/
  conns : List Fd
  /-- The files whose connection has ended -/
  ended : List File
  /-- The listening sockets registered so far, by the descriptors of their handlers -/
  listened : List (Fd × File)

inductive SocketOp where
  /-- A file is opened and an event is registered for it -/
  | start (ev : EventPoll.Event) (file : File)
  /-- `open_listen_socket`; `shut` are the `conn` of the peers, and the sockets may not be bound -/
  | listen (shut : List Fd) (sockets : Option Listening)
  /-- `connect_endpoint` and `register_conn_handler` -/
  | connect (udp conn : Fd) (file : File)
  /-- The `conn` of a peer is shut down and dropped -/
  | disconnect (conn : Fd)
  /-- The other end of a connection is gone -/
  | hangup (file : File)
  /-- `queue.wait()` returns the event of an entry -/
  | wait (fd : Fd) (file : File)
  /-- The handler has returned -/
  | drop_guard (p : EventPtr)
  /-- The event loop cancels an event after `WaitResult::EoF` -/
  | cancel (p : EventPtr)

/-- The listening sockets that an operation registers, by the descriptors of their handlers. -/
def SocketOp.listens : SocketOp → List (Fd × File)
  | .listen _ (some x) => [(x.clone6, x.file6), (x.clone4, x.file4)]
  | _ => []

namespace Sockets

def new : Sockets := ⟨.new, none, none, [], [], []⟩

def openFd (s : Sockets) (fd : Fd) (file : File) : Sockets :=
  { s with poll := { s.poll with kernel := s.poll.kernel.openFd fd file } }

def close (s : Sockets) (fd : Fd) : Sockets :=
  { s with poll := { s.poll with kernel := s.poll.kernel.close fd } }

/-- An event is registered, and whether this succeeded. -/
def register (s : Sockets) (ev : EventPoll.Event) : Sockets × Bool :=
  let (poll, ok) := s.poll.register_event ev
  ({ s with poll := poll }, ok)

/-- The `conn` of a peer is shut down and dropped. -/
def disconnect (s : Sockets) (conn : Fd) : Sockets :=
  if conn ∈ s.conns then
    let ended := (s.poll.kernel.files.lookup conn).toList ++ s.ended
    { s.close conn with conns := s.conns.erase conn, ended := ended }
  else s

/-- The socket that was taken is removed from the event loop and dropped. -/
def clear_socket (s : Sockets) : Option Fd → Outcome Sockets
  | none => .ok s
  | some fd => do
    let poll ← s.poll.clear_event_by_fd fd
    return { s with poll := poll }.close fd

/-- `register_udp_handler` with a clone of the socket. -/
def register_udp_handler (s : Sockets) (clone : Fd) (file : File) : Sockets × Bool :=
  let (s, ok) := (s.openFd clone file).register (.new_event clone true)
  ({ s with listened := (clone, file) :: s.listened }, ok)

/-- The first part of `open_listen_socket`. -/
def close_listen_socket (s : Sockets) (shut : List Fd) : Outcome Sockets := do
  -- First close any existing open socket, and remove them from the event loop
  let s ← { s with udp4 := none }.clear_socket s.udp4
  let s ← { s with udp6 := none }.clear_socket s.udp6
  return shut.foldl disconnect s

/-- The second part of `open_listen_socket`. -/
def bind_listen_socket (s : Sockets) (x : Listening) : Sockets :=
  -- Then open new sockets and bind to the port
  let s := (s.openFd x.udp4 x.file4).openFd x.udp6 x.file6
  match s.register_udp_handler x.clone4 x.file4 with
  | (s, false) => (s.close x.udp4).close x.udp6
  | (s, true) =>
    match s.register_udp_handler x.clone6 x.file6 with
    | (s, false) => (s.close x.udp4).close x.udp6
    | (s, true) => { s with udp4 := some x.udp4, udp6 := some x.udp6 }

def open_listen_socket (s : Sockets) (shut : List Fd) (sockets : Option Listening) :
    Outcome Sockets := do
  let s ← s.close_listen_socket shut
  match sockets with
  | none => return s
  | some x => return s.bind_listen_socket x

/-- One operation; `none` if there is nothing to report. -/
def step (s : Sockets) : SocketOp → Option (Outcome Sockets)
  | .start ev file => some (.ok ((s.openFd ev.fd file).register ev).1)
  | .listen shut sockets => some (s.open_listen_socket shut sockets)
  | .connect udp conn file =>
    let s := { (s.openFd udp file).openFd conn file with conns := conn :: s.conns }
    some (.ok (s.register (.new_event udp true)).1)
  | .disconnect conn => some (.ok (s.disconnect conn))
  | .hangup file => some (.ok { s with ended := file :: s.ended })
  | .wait fd file =>
    (s.poll.wait fd file).map fun r => r >>= fun poll => .ok { s with poll := poll }
  | .drop_guard p => some (s.poll.drop_guard p >>= fun poll => .ok { s with poll := poll })
  | .cancel p => some (s.poll.cancel p >>= fun poll => .ok { s with poll := poll })

/-! ## Section 2: What the operating system guarantees -/

/-- A new file. -/
def Unused (s : Sockets) (file : File) : Prop :=
  s.poll.kernel.isOpen file = false ∧ file ∉ s.ended

instance (s : Sockets) (file : File) : Decidable (s.Unused file) :=
  inferInstanceAs (Decidable (_ ∧ _))

/-- The sockets of `open_listen_socket` are new.  Descriptors are handed out from below, so the
    clones are above the sockets. -/
def Fresh (s : Sockets) (x : Listening) : Prop :=
  (∀ fd ∈ [x.udp4, x.udp6, x.clone4, x.clone6], s.poll.kernel.files.lookup fd = none) ∧
  (x.udp4 < x.udp6 ∧ x.udp6 < x.clone4 ∧ x.clone4 < x.clone6) ∧
  s.Unused x.file4 ∧ s.Unused x.file6 ∧ x.file4 ≠ x.file6

instance (s : Sockets) (x : Listening) : Decidable (s.Fresh x) :=
  inferInstanceAs (Decidable (_ ∧ _ ∧ _ ∧ _ ∧ _))

/-- The sockets are new once the old ones are closed. -/
def FreshAfter (s : Sockets) (shut : List Fd) (x : Listening) : Prop :=
  match s.close_listen_socket shut with
  | .ok s' => s'.Fresh x
  | .panic _ => True

instance (s : Sockets) (shut : List Fd) (x : Listening) : Decidable (s.FreshAfter shut x) :=
  match h : s.close_listen_socket shut with
  | .ok s' => decidable_of_iff (s'.Fresh x) (by rw [FreshAfter, h])
  | .panic _ => .isTrue (by rw [FreshAfter, h]; trivial)

/-- The connection of the event has ended; this does not happen to the descriptor of a notifier. -/
def HangsUp (s : Sockets) (p : EventPtr) : Prop :=
  ∃ ev ∈ s.poll.deref p, ev.notifier = false ∧
    ∃ file ∈ s.poll.kernel.files.lookup ev.fd, file ∈ s.ended

instance (s : Sockets) (p : EventPtr) : Decidable (s.HangsUp p) :=
  inferInstanceAs (Decidable (∃ ev ∈ s.poll.deref p, _))

/-- When an operation can happen. -/
def Permits (s : Sockets) : SocketOp → Prop
  | .start ev file => s.poll.kernel.files.lookup ev.fd = none ∧ s.Unused file ∧
    (ev = .new_event ev.fd true ∨ ev = .new_event ev.fd false ∨ ev = .new_periodic_event ev.fd ∨
      ev = .new_notifier ev.fd)
  | .listen shut (some x) => s.FreshAfter shut x
  | .listen _ none => True
  | .connect udp conn file => s.poll.kernel.files.lookup udp = none ∧
    s.poll.kernel.files.lookup conn = none ∧ udp ≠ conn ∧ s.Unused file
  | .disconnect _ => True
  -- A socket that is not connected does not hang up.
  | .hangup file => ∀ x ∈ s.listened, x.2 ≠ file
  | .wait _ _ => True
  | .drop_guard p => p ∈ s.poll.guards
  | .cancel p => p ∈ s.poll.guards ∧ s.HangsUp p

instance (s : Sockets) : (op : SocketOp) → Decidable (s.Permits op)
  | .start _ _ => inferInstanceAs (Decidable (_ ∧ _ ∧ _))
  | .listen shut (some x) => inferInstanceAs (Decidable (s.FreshAfter shut x))
  | .listen _ none => .isTrue trivial
  | .connect _ _ _ => inferInstanceAs (Decidable (_ ∧ _ ∧ _ ∧ _))
  | .disconnect _ => .isTrue trivial
  | .hangup file => inferInstanceAs (Decidable (∀ x ∈ s.listened, x.2 ≠ file))
  | .wait _ _ => .isTrue trivial
  | .drop_guard p => inferInstanceAs (Decidable (p ∈ s.poll.guards))
  | .cancel _ => inferInstanceAs (Decidable (_ ∧ _))

end Sockets

/-- The operations of a device on its sockets, in any order. -/
def sockets : System Sockets SocketOp where
  step := fun s op s' => s.Permits op ∧ s.step op = some (.ok s')

namespace Sockets

/-- Operations one after the other, as long as they can happen and return. -/
def exec (s : Sockets) : List SocketOp → Option Sockets
  | [] => some s
  | op :: ops =>
    if s.Permits op then
      match s.step op with
      | some (.ok s) => s.exec ops
      | _ => none
    else none

theorem exec_run {s s' : Sockets} {ops : List SocketOp} (h : s.exec ops = some s') :
    Run sockets s ops s' := by
  induction ops generalizing s with
  | nil =>
    cases h
    exact .nil
  | cons op ops ih =>
    obtain ⟨hop, h⟩ := Option.ite_none_right_eq_some.mp h
    rcases hstep : s.step op with _ | s₁ | msg
    · rw [hstep] at h
      cases h
    · rw [hstep] at h
      have hfirst : Run sockets s [op] s₁ := .snoc .nil ⟨hop, hstep⟩
      exact hfirst.append (ih h)
    · rw [hstep] at h
      cases h

/-- A port is bound, a peer is connected, a datagram is waited for and another port is bound. -/
def rebinding : List SocketOp :=
  [.start (.new_notifier 3) 0, .listen [] (some ⟨4, 5, 6, 7, 1, 2⟩), .connect 8 9 3, .wait 6 1,
    .listen [9] (some ⟨4, 5, 9, 10, 4, 5⟩)]

theorem exec_rebinding : (new.exec rebinding).isSome = true := by
  decide

end Sockets

/-! ## Section 3: Safety -/

namespace Sockets

variable {s s' : Sockets} {fd : Fd} {file : File} {ev : EventPoll.Event} {p : EventPtr}

/-- The descriptors that the device and its peers hold. -/
def held (s : Sockets) : List Fd := s.udp4.toList ++ s.udp6.toList ++ s.conns

/-- What all operations keep. -/
structure Kept (s : Sockets) : Prop where
  safe : s.poll.Safe
  nodup : s.held.Nodup
  held : ∀ fd ∈ s.held, s.poll.slot fd = none ∧ ∃ file, s.poll.kernel.files.lookup fd = some file
  length : ∀ fd ∈ s.udp4.toList ++ s.udp6.toList, fd < s.poll.events.length
  conns : ∀ c ∈ s.conns, ∀ x ∈ s.listened, s.poll.kernel.files.lookup c ≠ some x.2
  listened : ∀ x ∈ s.listened, s.poll.Enabled x.1 x.2 ∧ x.2 ∉ s.ended

theorem Kept.new : Sockets.new.Kept where
  safe := EventPoll.Safe.new
  nodup := List.nodup_nil
  held := by
    intro fd hfd
    cases hfd
  length := by
    intro fd hfd
    cases hfd
  conns := by
    intro c hc
    cases hc
  listened := by
    intro x hx
    cases hx

/-- A descriptor that is not in use is not held. -/
theorem Kept.not_held (h : s.Kept) (hfd : s.poll.kernel.files.lookup fd = none) : fd ∉ s.held := by
  intro hheld
  obtain ⟨file, hfile⟩ := (h.held fd hheld).2
  rw [hfd] at hfile
  cases hfile

/-- Only the queue changes, and the descriptors that are held are not concerned. -/
theorem Kept.poll (h : s.Kept) {poll : EventPoll} (hsafe : poll.Safe)
    (hslot : ∀ fd ∈ s.held, poll.slot fd = s.poll.slot fd)
    (hfiles : ∀ fd ∈ s.held, poll.kernel.files.lookup fd = s.poll.kernel.files.lookup fd)
    (hlength : s.poll.events.length ≤ poll.events.length)
    (henabled : ∀ x ∈ s.listened, poll.Enabled x.1 x.2) : { s with poll := poll }.Kept where
  safe := hsafe
  nodup := h.nodup
  held := by
    intro fd hfd
    dsimp only
    rw [hslot fd hfd, hfiles fd hfd]
    exact h.held fd hfd
  length := fun fd hfd => lt_of_lt_of_le (h.length fd hfd) hlength
  conns := by
    intro c hc x hx
    dsimp only
    rw [hfiles c (List.mem_append_right _ hc)]
    exact h.conns c hc x hx
  listened := fun x hx => ⟨henabled x hx, (h.listened x hx).2⟩

/-- A descriptor is opened. -/
theorem Kept.openFd (h : s.Kept) (hfd : s.poll.kernel.files.lookup fd = none) :
    (s.openFd fd file).Kept := by
  refine h.poll (h.safe.openFd hfd) (fun _ _ => rfl) (fun fd' hfd' => ?_) (le_refl _)
    fun x hx => (h.listened x hx).1.openFd hfd
  refine Kernel.openFd_lookup_ne ?_
  rintro rfl
  exact h.not_held hfd hfd'

/-- A descriptor is closed that is neither held nor a trigger. -/
theorem Kept.close (h : s.Kept) (hfd : fd ∉ s.held) (hslot : s.poll.slot fd = none) :
    (s.close fd).Kept := by
  refine h.poll (h.safe.close hslot) (fun _ _ => rfl) (fun fd' hfd' => ?_) (le_refl _)
    fun x hx => (h.listened x hx).1.close hslot
  refine Kernel.close_lookup_ne ?_
  rintro rfl
  exact hfd hfd'

/-- An event is registered for a descriptor that is not held. -/
theorem Kept.registered (h : s.Kept) (hplain : EventPoll.Event.Plain ev fd) (hfd : fd ∉ s.held)
    (hslot : s.poll.slot fd = none) (hfile : s.poll.kernel.files.lookup fd = some file)
    {poll : EventPoll} (hreg : EventPoll.Registered s.poll fd file ev poll) :
    { s with poll := poll }.Kept := by
  refine h.poll (h.safe.registered hplain hslot hfile hreg) (fun fd' hfd' => ?_)
    (fun fd' _ => ?_) hreg.length.2 fun x hx => (h.listened x hx).1.registered hslot hreg
  · refine (hreg.slot fd').trans (if_neg ?_)
    rintro rfl
    exact hfd hfd'
  · rcases hreg.kernel with ⟨hk, _⟩ | ⟨hk, _⟩
    · rw [hk]
    · rw [hk, Kernel.put_files]

/-- The device gives up descriptors, and files have ended that are not listened on. -/
theorem Kept.give_up (h : s.Kept) (hpoll : s'.poll = s.poll) (hheld : s'.held.Sublist s.held)
    (hudp : ∀ fd ∈ s'.udp4.toList ++ s'.udp6.toList, fd ∈ s.udp4.toList ++ s.udp6.toList)
    (hconns : ∀ c ∈ s'.conns, c ∈ s.conns) (hlistened : s'.listened = s.listened)
    (hover : ∀ x ∈ s.listened, x.2 ∉ s'.ended) : s'.Kept where
  safe := by
    rw [hpoll]
    exact h.safe
  nodup := hheld.nodup h.nodup
  held := by
    rw [hpoll]
    exact fun fd hfd => h.held fd (hheld.subset hfd)
  length := by
    rw [hpoll]
    exact fun fd hfd => h.length fd (hudp fd hfd)
  conns := by
    rw [hpoll, hlistened]
    exact fun c hc => h.conns c (hconns c hc)
  listened := by
    rw [hpoll, hlistened]
    exact fun x hx => ⟨(h.listened x hx).1, hover x hx⟩

/-- The `conn` of a peer is shut down and dropped. -/
theorem Kept.disconnect (h : s.Kept) (conn : Fd) : (s.disconnect conn).Kept := by
  unfold Sockets.disconnect
  by_cases hconn : conn ∈ s.conns
  · rw [if_pos hconn]
    have hheld : conn ∈ s.held := List.mem_append_right _ hconn
    let s₁ : Sockets := { s with
      conns := s.conns.erase conn
      ended := (s.poll.kernel.files.lookup conn).toList ++ s.ended }
    have hkept : s₁.Kept := by
      refine h.give_up rfl ?_ (fun _ hfd => hfd) (fun c hc => List.mem_of_mem_erase hc) rfl ?_
      · exact (List.Sublist.refl _).append List.erase_sublist
      · intro x hx hover
        rcases List.mem_append.mp hover with hover | hover
        · exact h.conns conn hconn x hx (Option.mem_toList.mp hover)
        · exact (h.listened x hx).2 hover
    show (s₁.close conn).Kept
    refine hkept.close ?_ (h.held conn hheld).1
    -- It was held once.
    have hnodup := h.nodup
    rw [Sockets.held, List.nodup_append] at hnodup
    intro hmem
    rcases List.mem_append.mp hmem with hmem | hmem
    · exact hnodup.2.2 conn hmem conn hconn rfl
    · exact (List.Nodup.not_mem_erase hnodup.2.1) hmem
  · rw [if_neg hconn]
    exact h

/-- A socket that was taken from the device is not registered itself, so nothing is removed. -/
theorem Kept.clear_socket (h : s.Kept) {x : Option Fd}
    (hx : ∀ fd ∈ x, fd ∉ s.held ∧ s.poll.slot fd = none ∧ fd < s.poll.events.length) :
    ∃ s', s.clear_socket x = .ok s' ∧ s'.Kept ∧ s'.listened = s.listened := by
  cases x with
  | none => exact ⟨s, rfl, h, rfl⟩
  | some fd =>
    obtain ⟨hheld, hslot, hlt⟩ := hx fd rfl
    refine ⟨s.close fd, ?_, h.close hheld hslot, rfl⟩
    show (s.poll.clear_event_by_fd fd >>= _) = _
    unfold EventPoll.clear_event_by_fd
    rw [if_pos hlt, EventPoll.take_of_none hslot]
    rfl

theorem foldl_disconnect (h : s.Kept) (shut : List Fd) :
    (shut.foldl Sockets.disconnect s).Kept ∧
    (shut.foldl Sockets.disconnect s).listened = s.listened := by
  induction shut generalizing s with
  | nil => exact ⟨h, rfl⟩
  | cons conn shut ih =>
    have hsame : (s.disconnect conn).listened = s.listened := by
      unfold Sockets.disconnect
      by_cases hconn : conn ∈ s.conns
      · rw [if_pos hconn]
        rfl
      · rw [if_neg hconn]
    obtain ⟨hkept, hlistened⟩ := ih (h.disconnect conn)
    exact ⟨hkept, hlistened.trans hsame⟩

/-- **The old listening sockets**: the device drops them, and removes no event. -/
theorem Kept.close_listen_socket (h : s.Kept) (shut : List Fd) :
    ∃ s', s.close_listen_socket shut = .ok s' ∧ s'.Kept ∧ s'.listened = s.listened := by
  have hnodup := h.nodup
  rw [Sockets.held, List.append_assoc, List.nodup_append] at hnodup
  -- What is left is held by others.
  have h₀ : { s with udp4 := none }.Kept := by
    refine h.give_up rfl ?_ ?_ (fun _ hc => hc) rfl fun x hx => (h.listened x hx).2
    · rw [Sockets.held, Sockets.held, List.append_assoc, List.append_assoc]
      exact List.Sublist.append (List.nil_sublist _) (List.Sublist.refl _)
    · exact fun fd hfd => List.mem_append_right _ hfd
  obtain ⟨s₁, hs₁, hkept₁, hsame₁⟩ := h₀.clear_socket (x := s.udp4) (by
    intro fd hfd
    have hmem : fd ∈ s.udp4.toList := Option.mem_toList.mpr hfd
    refine ⟨fun hheld => ?_, (h.held fd ?_).1, h.length fd (List.mem_append_left _ hmem)⟩
    · exact hnodup.2.2 fd hmem fd hheld rfl
    · exact List.mem_append_left _ (List.mem_append_left _ hmem))
  have hnodup₁ := hkept₁.nodup
  rw [Sockets.held, List.append_assoc, List.nodup_append, List.nodup_append] at hnodup₁
  have h₂ : { s₁ with udp6 := none }.Kept := by
    refine hkept₁.give_up rfl ?_ ?_ (fun _ hc => hc) rfl fun x hx => (hkept₁.listened x hx).2
    · rw [Sockets.held, Sockets.held, List.append_assoc, List.append_assoc]
      exact (List.Sublist.refl _).append ((List.nil_sublist _).append (List.Sublist.refl _))
    · exact fun fd hfd => List.mem_append_left _ (by simpa using hfd)
  obtain ⟨s₂, hs₂, hkept₂, hsame₂⟩ := h₂.clear_socket (x := s₁.udp6) (by
    intro fd hfd
    have hmem : fd ∈ s₁.udp6.toList := Option.mem_toList.mpr hfd
    refine ⟨fun hheld => ?_, (hkept₁.held fd ?_).1,
      hkept₁.length fd (List.mem_append_right _ hmem)⟩
    · rw [Sockets.held, List.append_assoc] at hheld
      rcases List.mem_append.mp hheld with hheld | hheld
      · exact hnodup₁.2.2 fd hheld fd (List.mem_append_left _ hmem) rfl
      · exact hnodup₁.2.1.2.2 fd hmem fd hheld rfl
    · exact List.mem_append_left _ (List.mem_append_right _ hmem))
  obtain ⟨hkept₃, hlistened⟩ := foldl_disconnect hkept₂ shut
  refine ⟨shut.foldl Sockets.disconnect s₂, ?_, hkept₃, ?_⟩
  · unfold Sockets.close_listen_socket
    rw [hs₁, Outcome.ok_bind, hs₂]
    rfl
  · rw [hlistened, hsame₂]
    exact hsame₁

/-- What `register_udp_handler` does with a new descriptor of the socket. -/
structure Handles (s : Sockets) (clone : Fd) (file : File) (s' : Sockets) : Prop where
  kept : s'.Kept
  conns : s'.conns = s.conns
  ended : s'.ended = s.ended
  listened : s'.listened = (clone, file) :: s.listened
  length : clone < s'.poll.events.length
  slot : ∀ fd, fd ≠ clone → s'.poll.slot fd = s.poll.slot fd
  files : ∀ fd, fd ≠ clone → s'.poll.kernel.files.lookup fd = s.poll.kernel.files.lookup fd
  interests : ∀ fd file', fd ≠ clone →
    s'.poll.kernel.interests fd file' = s.poll.kernel.interests fd file'

theorem Kept.register_udp_handler (h : s.Kept) (clone : Fd) (file : File)
    (hclone : s.poll.kernel.files.lookup clone = none)
    (hnone : s.poll.kernel.interests clone file = none)
    (hconns : ∀ c ∈ s.conns, s.poll.kernel.files.lookup c ≠ some file) (hover : file ∉ s.ended) :
    ∃ s', s.register_udp_handler clone file = (s', true) ∧ Handles s clone file s' := by
  have hheld := h.not_held hclone
  have hopened : (s.openFd clone file).Kept := h.openFd hclone
  have hslot : (s.openFd clone file).poll.slot clone = none := h.safe.slot_of_closed hclone
  have hfile : (s.openFd clone file).poll.kernel.files.lookup clone = some file :=
    Kernel.openFd_lookup_self
  have hplain : (EventPoll.Event.new_event clone true).Plain clone :=
    ⟨rfl, by simp [EventPoll.Event.new_event], fun _ => rfl⟩
  have hreg := EventPoll.registered (.new_event clone true) hslot rfl hfile
  have hok := EventPoll.register_event_ok (.new_event clone true) hslot rfl hfile hnone
  have hkept := hopened.registered hplain hheld hslot hfile hreg
  have hkernel := hreg.kernel.resolve_left fun hk => hk.2 hnone
  have hlookup : ∀ fd, fd ≠ clone → ((s.openFd clone file).poll.register_event
      (.new_event clone true)).1.kernel.files.lookup fd = s.poll.kernel.files.lookup fd := by
    intro fd hfd
    rw [hkernel.1, Kernel.put_files]
    exact Kernel.openFd_lookup_ne hfd
  refine ⟨{ s with
    poll := ((s.openFd clone file).poll.register_event (.new_event clone true)).1
    listened := (clone, file) :: s.listened }, ?_, ?_, rfl, rfl, rfl, hreg.length.1, ?_, hlookup,
    ?_⟩
  · unfold Sockets.register_udp_handler register
    dsimp only
    rw [hok]
    rfl
  · refine ⟨hkept.safe, hkept.nodup, hkept.held, hkept.length, ?_, ?_⟩
    · intro c hc x hx
      rcases List.mem_cons.mp hx with rfl | hx
      · dsimp only
        rw [hlookup c]
        · exact hconns c hc
        · rintro rfl
          exact hheld (List.mem_append_right _ hc)
      · exact hkept.conns c hc x hx
    · intro x hx
      rcases List.mem_cons.mp hx with rfl | hx
      · exact ⟨hreg.enabled hfile hnone, hover⟩
      · exact hkept.listened x hx
  · intro fd hfd
    exact (hreg.slot fd).trans (if_neg (Ne.symm hfd))
  · intro fd file' hfd
    rw [hkernel.1, Kernel.put_ne _ (Or.inl hfd)]
    rfl

/-- **The new listening sockets.** -/
theorem Kept.bind_listen_socket (h : s.Kept) {x : Listening} (hx : s.Fresh x) :
    (s.bind_listen_socket x).Kept ∧
      (s.bind_listen_socket x).listened =
        (x.clone6, x.file6) :: (x.clone4, x.file4) :: s.listened := by
  obtain ⟨h4, h6, hc4, hc6⟩ : s.poll.kernel.files.lookup x.udp4 = none ∧
      s.poll.kernel.files.lookup x.udp6 = none ∧ s.poll.kernel.files.lookup x.clone4 = none ∧
      s.poll.kernel.files.lookup x.clone6 = none := by
    simpa using hx.1
  obtain ⟨h46, h6c, hcc⟩ := hx.2.1
  obtain ⟨⟨hfile4, hover4⟩, ⟨hfile6, hover6⟩, _⟩ := hx.2.2
  have hne : ∀ {a b : Fd}, a < b → a ≠ b ∧ b ≠ a := fun hab => ⟨ne_of_lt hab, ne_of_gt hab⟩
  have h4c := Nat.lt_trans h46 h6c
  -- The sockets.
  have hkept₁ : (s.openFd x.udp4 x.file4).Kept := h.openFd h4
  have hkept₂ : ((s.openFd x.udp4 x.file4).openFd x.udp6 x.file6).Kept :=
    hkept₁.openFd ((Kernel.openFd_lookup_ne (hne h46).2).trans h6)
  have hlookup₂ : ∀ fd, fd ≠ x.udp4 → fd ≠ x.udp6 →
      ((s.openFd x.udp4 x.file4).openFd x.udp6 x.file6).poll.kernel.files.lookup fd =
        s.poll.kernel.files.lookup fd := by
    intro fd hfd4 hfd6
    exact (Kernel.openFd_lookup_ne hfd6).trans (Kernel.openFd_lookup_ne hfd4)
  have hconn : ∀ {c fd}, c ∈ s.conns → s.poll.kernel.files.lookup fd = none → c ≠ fd := by
    rintro c fd hc hfd rfl
    exact h.not_held hfd (List.mem_append_right _ hc)
  -- The clone of the first socket.
  obtain ⟨s₃, hs₃, hh₃⟩ := hkept₂.register_udp_handler x.clone4 x.file4
    ((hlookup₂ _ (hne h4c).2 (hne h6c).2).trans hc4) (h.safe.kernel.no_entry hfile4 _)
    (fun c hc => by
      rw [hlookup₂ c (hconn hc h4) (hconn hc h6)]
      exact Kernel.lookup_ne_of_closed hfile4) hover4
  have hlookup₃ : ∀ fd, fd ≠ x.udp4 → fd ≠ x.udp6 → fd ≠ x.clone4 →
      s₃.poll.kernel.files.lookup fd = s.poll.kernel.files.lookup fd := by
    intro fd hfd4 hfd6 hfdc
    rw [hh₃.files fd hfdc, hlookup₂ fd hfd4 hfd6]
  -- The clone of the second socket.
  have hconns₃ : ∀ c ∈ s₃.conns, s₃.poll.kernel.files.lookup c ≠ some x.file6 := by
    intro c hc
    rw [hh₃.conns] at hc
    rw [hlookup₃ c (hconn hc h4) (hconn hc h6) (hconn hc hc4)]
    exact Kernel.lookup_ne_of_closed hfile6
  have hnone₃ : s₃.poll.kernel.interests x.clone6 x.file6 = none := by
    rw [hh₃.interests _ _ (hne hcc).2]
    exact h.safe.kernel.no_entry hfile6 _
  obtain ⟨s₄, hs₄, hh₄⟩ := hh₃.kept.register_udp_handler x.clone6 x.file6
    ((hlookup₃ _ (hne (Nat.lt_trans h4c hcc)).2 (hne (Nat.lt_trans h6c hcc)).2 (hne hcc).2).trans
      hc6) hnone₃
    hconns₃ (by rw [hh₃.ended]; exact hover6)
  have heq : s.bind_listen_socket x = { s₄ with udp4 := some x.udp4, udp6 := some x.udp6 } := by
    unfold Sockets.bind_listen_socket
    dsimp only
    rw [hs₃]
    dsimp only
    rw [hs₄]
  have hconns₄ : s₄.conns = s.conns := hh₄.conns.trans hh₃.conns
  -- The sockets themselves are not registered.
  have hsock : ∀ {fd file}, s.poll.kernel.files.lookup fd = none → fd < x.clone4 →
      ((s.openFd x.udp4 x.file4).openFd x.udp6 x.file6).poll.kernel.files.lookup fd = some file →
      s₄.poll.slot fd = none ∧ ∃ file, s₄.poll.kernel.files.lookup fd = some file := by
    intro fd file hfd hlt hfile
    rw [hh₄.slot fd (hne (Nat.lt_trans hlt hcc)).1, hh₃.slot fd (hne hlt).1,
      hh₄.files fd (hne (Nat.lt_trans hlt hcc)).1, hh₃.files fd (hne hlt).1]
    exact ⟨h.safe.slot_of_closed hfd, file, hfile⟩
  rw [heq]
  refine ⟨⟨hh₄.kept.safe, ?_, ?_, ?_, hh₄.kept.conns, hh₄.kept.listened⟩, ?_⟩
  · have hnodup : s₄.conns.Nodup := hh₄.kept.nodup.sublist (List.sublist_append_right _ _)
    show (x.udp4 :: x.udp6 :: s₄.conns).Nodup
    rw [hconns₄] at hnodup ⊢
    refine List.nodup_cons.mpr ⟨?_, List.nodup_cons.mpr ⟨?_, hnodup⟩⟩
    · rw [List.mem_cons, not_or]
      exact ⟨(hne h46).1, fun hc => hconn hc h4 rfl⟩
    · exact fun hc => hconn hc h6 rfl
  · intro fd hfd
    have hfd' : fd ∈ x.udp4 :: x.udp6 :: s₄.conns := hfd
    rcases List.mem_cons.mp hfd' with rfl | hfd'
    · exact hsock h4 h4c ((Kernel.openFd_lookup_ne (hne h46).1).trans Kernel.openFd_lookup_self)
    rcases List.mem_cons.mp hfd' with rfl | hfd'
    · exact hsock h6 h6c Kernel.openFd_lookup_self
    · exact hh₄.kept.held fd (List.mem_append_right _ hfd')
  · intro fd hfd
    have hlt : fd < x.clone6 := by
      have hfd' : fd ∈ [x.udp4, x.udp6] := hfd
      rcases List.mem_cons.mp hfd' with rfl | hfd'
      · exact Nat.lt_trans h4c hcc
      · rw [List.mem_singleton.mp hfd']
        exact Nat.lt_trans h6c hcc
    exact Nat.lt_trans hlt hh₄.length
  · exact hh₄.listened.trans (congrArg _ hh₃.listened)

/-- `open_listen_socket` returns, and what was listened on stays. -/
theorem Kept.open_listen_socket (h : s.Kept) (shut : List Fd) {sockets : Option Listening}
    (hfresh : ∀ x, sockets = some x → s.FreshAfter shut x) :
    ∃ s', s.open_listen_socket shut sockets = .ok s' ∧ s'.Kept ∧
      s'.listened = (SocketOp.listen shut sockets).listens ++ s.listened := by
  obtain ⟨s₁, hs₁, hkept₁, hlistened₁⟩ := h.close_listen_socket shut
  unfold Sockets.open_listen_socket
  rw [hs₁, Outcome.ok_bind]
  cases sockets with
  | none => exact ⟨s₁, rfl, hkept₁, hlistened₁⟩
  | some x =>
    have hx := hfresh x rfl
    rw [FreshAfter, hs₁] at hx
    obtain ⟨hkept, hlistened⟩ := hkept₁.bind_listen_socket hx
    refine ⟨_, rfl, hkept, ?_⟩
    rw [hlistened, hlistened₁]
    rfl

/-- A file is opened and an event is registered for it. -/
theorem Kept.start (h : s.Kept) (hplain : EventPoll.Event.Plain ev ev.fd)
    (hfd : s.poll.kernel.files.lookup ev.fd = none) :
    ((s.openFd ev.fd file).register ev).1.Kept := by
  have hopened : (s.openFd ev.fd file).Kept := h.openFd hfd
  have hslot : (s.openFd ev.fd file).poll.slot ev.fd = none := h.safe.slot_of_closed hfd
  have hfile : (s.openFd ev.fd file).poll.kernel.files.lookup ev.fd = some file :=
    Kernel.openFd_lookup_self
  exact hopened.registered hplain (h.not_held hfd) hslot hfile
    (EventPoll.registered ev hslot rfl hfile)

theorem Kept.connect (h : s.Kept) {udp conn : Fd}
    (hudp : s.poll.kernel.files.lookup udp = none) (hconn : s.poll.kernel.files.lookup conn = none)
    (hne : udp ≠ conn) (hfile : s.poll.kernel.isOpen file = false) :
    ({ (s.openFd udp file).openFd conn file with conns := conn :: s.conns }.register
      (.new_event udp true)).1.Kept := by
  have hkept₂ : ((s.openFd udp file).openFd conn file).Kept :=
    (h.openFd hudp).openFd ((Kernel.openFd_lookup_ne (Ne.symm hne)).trans hconn)
  have hlookup : ((s.openFd udp file).openFd conn file).poll.kernel.files.lookup conn = some file :=
    Kernel.openFd_lookup_self
  have hperm : { (s.openFd udp file).openFd conn file with conns := conn :: s.conns }.held.Perm
      (conn :: s.held) := List.perm_middle
  have hkept₃ : { (s.openFd udp file).openFd conn file with conns := conn :: s.conns }.Kept := by
    refine ⟨hkept₂.safe, ?_, ?_, hkept₂.length, ?_, hkept₂.listened⟩
    · rw [hperm.nodup_iff]
      exact List.nodup_cons.mpr ⟨h.not_held hconn, h.nodup⟩
    · intro fd hfd
      rcases List.mem_cons.mp (hperm.mem_iff.mp hfd) with rfl | hfd
      · exact ⟨h.safe.slot_of_closed hconn, file, hlookup⟩
      · exact hkept₂.held fd hfd
    · intro c hc x hx
      rcases List.mem_cons.mp hc with rfl | hc
      · dsimp only
        rw [hlookup]
        intro hfile'
        cases hfile'
        obtain ⟨_, _, _, _, hopen, _⟩ := (h.listened x hx).1
        exact Kernel.lookup_ne_of_closed hfile hopen
      · exact hkept₂.conns c hc x hx
  have hplain : (EventPoll.Event.new_event udp true).Plain udp :=
    ⟨rfl, by simp [EventPoll.Event.new_event], fun _ => rfl⟩
  have hslot : ((s.openFd udp file).openFd conn file).poll.slot udp = none :=
    h.safe.slot_of_closed hudp
  have hopen : ((s.openFd udp file).openFd conn file).poll.kernel.files.lookup udp = some file :=
    (Kernel.openFd_lookup_ne hne).trans Kernel.openFd_lookup_self
  refine hkept₃.registered hplain ?_ hslot hopen (EventPoll.registered _ hslot rfl hopen)
  rw [hperm.mem_iff, List.mem_cons, not_or]
  exact ⟨hne, h.not_held hudp⟩

/-- **Every operation returns**, and what was listened on stays. -/
theorem Kept.step (h : s.Kept) {op : SocketOp} (hop : s.Permits op) {r : Outcome Sockets}
    (hr : s.step op = some r) :
    ∃ s', r = .ok s' ∧ s'.Kept ∧ s'.listened = op.listens ++ s.listened := by
  cases op with
  | start ev file =>
    cases hr
    obtain ⟨hfd, _, hev⟩ := hop
    refine ⟨_, rfl, h.start ?_ hfd, rfl⟩
    rcases hev with hev | hev | hev | hev <;> rw [hev] <;>
      exact ⟨rfl, by simp [EventPoll.Event.new_event, EventPoll.Event.new_periodic_event,
        EventPoll.Event.new_notifier],
        fun hnot => by first | rfl | cases hnot⟩
  | listen shut sockets =>
    cases hr
    refine h.open_listen_socket shut fun x hx => ?_
    rw [hx] at hop
    exact hop
  | connect udp conn file =>
    cases hr
    obtain ⟨hudp, hconn, hne, hfile, _⟩ := hop
    exact ⟨_, rfl, h.connect hudp hconn hne hfile, rfl⟩
  | disconnect conn =>
    cases hr
    refine ⟨_, rfl, h.disconnect conn, ?_⟩
    exact (foldl_disconnect h [conn]).2
  | hangup file =>
    cases hr
    refine ⟨_, rfl, h.give_up rfl (List.Sublist.refl _) (fun _ hfd => hfd) (fun _ hc => hc) rfl ?_,
      rfl⟩
    intro x hx hover
    rcases List.mem_cons.mp hover with hover | hover
    · exact hop x hx hover
    · exact (h.listened x hx).2 hover
  | wait fd file =>
    obtain ⟨r, hwait, rfl⟩ := Option.map_eq_some_iff.mp hr
    obtain ⟨ev, e, hslot, he, rfl, hsafe⟩ := h.safe.wait hwait
    refine ⟨_, rfl, h.poll hsafe (fun _ _ => rfl) (fun _ _ => rfl) (le_refl _) ?_, rfl⟩
    exact fun x hx => (h.listened x hx).1.wait he
  | drop_guard p =>
    cases hr
    obtain ⟨j, ev, file, hj, hfile, heq, hsafe⟩ := h.safe.drop_guard hop
    rw [heq]
    refine ⟨_, rfl, h.poll hsafe (fun _ _ => rfl) (fun _ _ => rfl) (le_refl _) ?_, rfl⟩
    exact fun x hx => (h.listened x hx).1.drop_guard h.safe hj hfile
  | cancel p =>
    cases hr
    obtain ⟨hp, ev, hev, hnotifier, file, hfile, hover⟩ := hop
    rw [Option.mem_def] at hev hfile
    obtain ⟨j, ev', hj, heq, hsafe⟩ := h.safe.cancel hp (by
      intro ev₁ hev₁
      rw [hev] at hev₁
      cases hev₁
      exact hnotifier)
    rw [h.safe.deref hj] at hev
    cases hev
    rw [(h.safe.slot hj).1.fd] at hfile
    have hne : ∀ fd ∈ s.held, j ≠ fd := by
      rintro fd hfd rfl
      rw [(h.held j hfd).1] at hj
      cases hj
    rw [heq]
    refine ⟨_, rfl, h.poll hsafe (fun fd hfd => ?_) (fun fd hfd => ?_) ?_ fun x hx => ?_, rfl⟩
    · exact EventPoll.slot_take.trans (if_neg (hne fd hfd))
    · exact (h.safe.take_other hj (hne fd hfd)).1
    · exact le_of_eq EventPoll.length_take.symm
    · -- The connection of a listening socket has not ended.
      refine (h.listened x hx).1.cancel h.safe hj ?_
      rintro rfl
      obtain ⟨_, _, _, _, hopen, _⟩ := (h.listened x hx).1
      rw [hfile] at hopen
      cases hopen
      exact (h.listened x hx).2 hover

theorem run_kept {tr : List SocketOp} (hrun : Run sockets .new tr s) : s.Kept := by
  refine hrun.invariant (I := fun _ s => s.Kept) Kept.new ?_
  rintro _ s op s' h ⟨hop, hstep⟩
  obtain ⟨s₁, hs₁, hkept, _⟩ := h.step hop hstep
  cases hs₁
  exact hkept

/-- **The device uses its event queue safely.**  Whatever the operating system reports and in
    whatever order, no operation uses a dangling pointer or an index out of bounds; the event of a
    guard is there as long as the guard; and an event that is not a notifier has one guard at
    most. -/
theorem run_safe {tr : List SocketOp} (hrun : Run sockets .new tr s) :
    (∀ op r, s.Permits op → s.step op = some r → ∃ s', r = .ok s') ∧
    ∀ p ∈ s.poll.guards, ∃ ev, s.poll.deref p = some ev ∧
      (ev.notifier = false → s.poll.guards.count p = 1) := by
  have hkept := run_kept hrun
  constructor
  · intro op r hop hr
    obtain ⟨s', hs', _⟩ := hkept.step hop hr
    exact ⟨s', hs'⟩
  · intro p hp
    obtain ⟨i, ev, file, e, hi, _, _, _, hone⟩ := hkept.safe.guarded hp
    exact ⟨ev, hkept.safe.deref hi, fun hev => (hone hev).2⟩

theorem run_safe_rebinding : ∃ s, Run sockets .new rebinding s ∧
    (∀ op r, s.Permits op → s.step op = some r → ∃ s', r = .ok s') ∧
    ∀ p ∈ s.poll.guards, ∃ ev, s.poll.deref p = some ev ∧
      (ev.notifier = false → s.poll.guards.count p = 1) := by
  obtain ⟨s, hs⟩ := Option.isSome_iff_exists.mp exec_rebinding
  exact ⟨s, exec_run hs, run_safe (exec_run hs)⟩

/-! ## Section 4: Listening sockets -/

/-- **Listening sockets are never given up.**  Whatever `open_listen_socket` has once bound stays
    registered and is served, also after it has bound other sockets. -/
theorem run_listens {tr : List SocketOp} (hrun : Run sockets .new tr s) {op : SocketOp}
    (hop : op ∈ tr) {x : Fd × File} (hx : x ∈ op.listens) : s.poll.Enabled x.1 x.2 := by
  have hlistened := hrun.invariant (I := fun tr s => s.Kept ∧ ∀ op ∈ tr, ∀ x ∈ op.listens,
    x ∈ s.listened) ⟨Kept.new, by simp⟩ ?_
  · exact (hlistened.1.listened x (hlistened.2 op hop x hx)).1
  rintro tr s op s' ⟨h, hmem⟩ ⟨hop, hstep⟩
  obtain ⟨s₁, hs₁, hkept, hlistened⟩ := h.step hop hstep
  cases hs₁
  refine ⟨hkept, fun op' hop' x hx => ?_⟩
  rw [hlistened]
  rcases List.mem_append.mp hop' with hop' | hop'
  · exact List.mem_append_right _ (hmem op' hop' x hx)
  · cases List.mem_singleton.mp hop'
    exact List.mem_append_left _ hx

theorem run_listens_rebinding : ∃ s, Run sockets .new rebinding s ∧ s.poll.Enabled 6 1 := by
  obtain ⟨s, hs⟩ := Option.isSome_iff_exists.mp exec_rebinding
  have hop : SocketOp.listen [] (some ⟨4, 5, 6, 7, 1, 2⟩) ∈ rebinding := by
    simp [rebinding]
  exact ⟨s, exec_run hs, run_listens (exec_run hs) hop (x := (6, 1)) (by simp [SocketOp.listens])⟩

end Sockets

end PqBoringtun
