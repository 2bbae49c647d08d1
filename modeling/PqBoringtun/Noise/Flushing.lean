import PqBoringtun.Framework.Loop
import PqBoringtun.Noise.Queue

/-! # Encapsulation and its buffer

    `encapsulate` seals a packet on the current session or queues it and
    starts a handshake, and each of these needs its own space.  The handlers
    flush the queue with it until nothing is left to write.

    * Section 1: when `encapsulate` returns, and with what.
    * Section 2: the documented size of the buffer is enough exactly if no
      PQ initiation is due (`Tunn.documented_size_enough_iff`).
    * Section 3: flushing ends (`Tunn.flush_terminates`).  With a session
      each repetition takes a packet from the queue; without one the queue
      keeps its length, but there is at most one initiation.
-/

namespace PqBoringtun

variable {C : Crypto} {B : Build}

namespace Tunn

variable {t t' : Tunn C} {r : TunnResult} {evs : List Event} {src : Bytes} {dst_len : Nat}
  {env : Env}

/-! ## Section 1: Room -/

/-- There is room for the packet in a session, so `encapsulate` does not panic. -/
theorem encapsulate_of_room (t : Tunn C) (env : Env)
    (hroom : src.length + DATA_OVERHEAD_SZ ≤ dst_len) :
    ∃ x, t.encapsulate B src dst_len env = .ok x := by
  unfold encapsulate
  split
  · unfold Session.format_packet_data
    rw [if_neg (Nat.not_lt.mpr hroom)]
    exact ⟨_, rfl⟩
  · exact ⟨_, rfl⟩

theorem initiated_in_progress {m : Bytes} {h' : Handshake C}
    (hcall : t.handshake.format_initiation B.variant dst_len env = (.ok m, h', evs)) :
    h'.is_in_progress = true := by
  rcases Handshake.format_initiation_cases hcall with ⟨_, hres, _⟩ | ⟨_, _, _, _, _, rfl, _⟩
  · cases hres
  · rfl

/-- Room for what `encapsulate` may have to write without a session. -/
def InitiationFits (B : Build) (t : Tunn C) (dst_len : Nat) : Prop :=
  t.sessions (slot t.current) = none → t.handshake.is_in_progress = false →
    B.variant.init_size ≤ dst_len

/-- A packet was queued although no handshake is on the way exactly if there was no room. -/
theorem encapsulates_room (h : t.Encapsulates B src dst_len env r t' evs) :
    (r ≠ .Err .DestinationBufferTooSmall ∧
      (t.sessions (slot t.current) = none → t'.handshake.is_in_progress = true)) ↔
    t.InitiationFits B dst_len := by
  cases h with
  | sealed session packet hsession _ =>
    have hsome : t.sessions (slot t.current) ≠ none := by
      rw [hsession]
      exact Option.some_ne_none _
    refine iff_of_true ⟨?_, fun hnone => absurd hnone hsome⟩ fun hnone => absurd hnone hsome
    intro h
    cases h
  | queued hnone hstart =>
    cases hstart with
    | busy hbusy _ =>
      refine iff_of_true ⟨?_, fun _ => hbusy⟩ fun _ hidle => ?_
      · intro h
        cases h
      · rw [queue_packet_handshake, hidle] at hbusy
        cases hbusy
    | no_room hidle hdst =>
      refine iff_of_false (fun h => h.1 rfl) fun hfits => ?_
      have hidle := hidle rfl
      rw [queue_packet_handshake] at hidle
      exact Nat.not_lt.mpr (hfits hnone hidle) hdst
    | sent m h' evs hidle hcall =>
      have hbusy := initiated_in_progress hcall
      have hroom : B.variant.init_size ≤ dst_len := by
        rcases Handshake.format_initiation_cases hcall with ⟨_, hres, _⟩ | ⟨hroom, _⟩
        · cases hres
        · exact hroom
      refine iff_of_true ⟨?_, fun _ => ?_⟩ fun _ _ => hroom
      · intro h
        cases h
      · rw [initiated_handshake]
        exact hbusy

/-! ## Section 2: The documented size -/

/-- The size that the documentation of `encapsulate` asks for. -/
def documented_size (src : Bytes) : Nat := max (src.length + 32) 148

/-- `encapsulate` returns without an error for lack of space, and a packet that finds no session
    has its handshake on the way. -/
def Encapsulable (B : Build) (t : Tunn C) (src : Bytes) (dst_len : Nat) (env : Env) : Prop :=
  ∃ r t' evs, t.encapsulate B src dst_len env = .ok (r, t', evs) ∧
    r ≠ .Err .DestinationBufferTooSmall ∧
    (t.sessions (slot t.current) = none → t'.handshake.is_in_progress = true)

/-- **The documented buffer size is enough exactly if an initiation that is due fits.**  It always
    does in a classical build; an initiation of a PQ build takes more space. -/
theorem documented_size_enough_iff (B : Build) (t : Tunn C) (src : Bytes) (dst_len : Nat)
    (env : Env) (hdst : documented_size src ≤ dst_len) :
    (∃ x, t.encapsulate B src dst_len env = .ok x) ∧
      (t.Encapsulable B src dst_len env ↔ t.InitiationFits B dst_len) ∧
      (B.pq = false → t.InitiationFits B dst_len) := by
  obtain ⟨hsrc, hinit⟩ := Nat.max_le.mp hdst
  obtain ⟨⟨r, t', evs⟩, hcall⟩ := t.encapsulate_of_room (B := B) env hsrc
  have hroom := encapsulates_room (encapsulate_cases hcall)
  refine ⟨⟨_, hcall⟩, ?_, ?_⟩
  · rw [← hroom]
    constructor
    · rintro ⟨r₁, t₁, evs₁, hcall₁, henough⟩
      cases hcall.symm.trans hcall₁
      exact henough
    · exact fun henough => ⟨r, t', evs, hcall, henough⟩
  · intro hclassical _ _
    unfold Build.variant
    rw [hclassical]
    exact hinit

/-- A PQ build has its initiation fit in a larger buffer. -/
theorem documented_size_enough_pq :
    documented_size [1] ≤ PQ_HANDSHAKE_INIT_SZ ∧
      symbolicTunn.Encapsulable (symbolicBuild true) [1] PQ_HANDSHAKE_INIT_SZ (symbolicEnv 0) := by
  have hdst : documented_size [1] ≤ PQ_HANDSHAKE_INIT_SZ := by decide
  obtain ⟨_, henough, _⟩ :=
    documented_size_enough_iff (symbolicBuild true) symbolicTunn [1] _ (symbolicEnv 0) hdst
  exact ⟨hdst, henough.mpr fun _ _ => Nat.le_refl _⟩

/-- A new tunnel of a PQ build, with the documented size: the packet waits, and no handshake is on
    the way. -/
theorem documented_size_too_small : documented_size [1] ≤ 148 ∧ ∃ t',
    symbolicTunn.encapsulate (symbolicBuild true) [1] 148 (symbolicEnv 0)
      = .ok (.Err .DestinationBufferTooSmall, t', []) ∧ t'.packet_queue = [[1]] ∧
    t'.handshake.is_in_progress = false ∧
    ¬ symbolicTunn.Encapsulable (symbolicBuild true) [1] 148 (symbolicEnv 0) := by
  obtain ⟨t', hcall, hqueue, hidle⟩ : ∃ t',
      symbolicTunn.encapsulate (symbolicBuild true) [1] 148 (symbolicEnv 0)
        = .ok (.Err .DestinationBufferTooSmall, t', []) ∧ t'.packet_queue = [[1]] ∧
      t'.handshake.is_in_progress = false := ⟨_, rfl, rfl, rfl⟩
  refine ⟨by decide, t', hcall, hqueue, hidle, ?_⟩
  rintro ⟨r, t₁, evs, hcall₁, hr, _⟩
  cases hcall.symm.trans hcall₁
  exact hr rfl

/-! ## Section 3: Flushing -/

end Tunn

/-- The packet that a result sends. -/
def TunnResult.network : TunnResult → Option Bytes
  | .WriteToNetwork packet => some packet
  | _ => none

namespace Tunn

variable {t t' : Tunn C} {r : TunnResult} {evs : List Event} {dst_len : Nat} {env : Env}

/-- The call of the loop that flushes the queue. -/
def flush_call (B : Build) (dst_len : Nat) (env : Env) (t : Tunn C) :
    Outcome (TunnResult × Tunn C) := do
  let (r, t, _) ← t.decapsulate B none [] dst_len env
  return (r, t)

/-- How often the loop can still write: once for each packet in a session, and otherwise once, if
    an initiation is due. -/
def flush_measure (t : Tunn C) : Nat :=
  if (t.sessions (slot t.current)).isSome then t.packet_queue.length
  else if t.handshake.is_in_progress then 0
  else min t.packet_queue.length 1

theorem flush_measure_le (t : Tunn C) : t.flush_measure ≤ t.packet_queue.length := by
  unfold flush_measure
  split
  · exact Nat.le_refl _
  · split
    · exact Nat.zero_le _
    · exact Nat.min_le_left _ _

/-- There is room for each packet that waits. -/
def QueueFits (t : Tunn C) (dst_len : Nat) : Prop :=
  ∀ packet ∈ t.packet_queue, packet.length + DATA_OVERHEAD_SZ ≤ dst_len

theorem flush_call_eq_ok : flush_call B dst_len env t = .ok (r, t') ↔
    ∃ evs, t.send_queued_packet B dst_len env = .ok (r, t', evs) := by
  unfold flush_call decapsulate
  rw [if_pos rfl, Outcome.bind_eq_ok]
  constructor
  · rintro ⟨⟨r₁, t₁, evs₁⟩, hcall, hres⟩
    cases hres
    exact ⟨evs₁, hcall⟩
  · rintro ⟨evs, hcall⟩
    exact ⟨(r, t', evs), hcall, rfl⟩

theorem flush_call_returns (hfits : t.QueueFits dst_len) (env : Env) :
    ∃ x, flush_call B dst_len env t = .ok x := by
  have hsend : ∃ x, t.send_queued_packet B dst_len env = .ok x := by
    unfold send_queued_packet
    split
    · exact ⟨_, rfl⟩
    · rename_i packet rest hqueue
      have hroom : packet.length + DATA_OVERHEAD_SZ ≤ dst_len := by
        apply hfits
        rw [hqueue]
        exact List.mem_cons_self
      obtain ⟨⟨r, t', evs⟩, hcall⟩ :=
        { t with packet_queue := rest }.encapsulate_of_room (B := B) env hroom
      rw [hcall, Outcome.ok_bind]
      split
      · exact ⟨_, rfl⟩
      · exact ⟨_, rfl⟩
  obtain ⟨⟨r, t', evs⟩, hcall⟩ := hsend
  exact ⟨(r, t'), flush_call_eq_ok.mpr ⟨evs, hcall⟩⟩

/-- A packet that was sealed on a session leaves the session there. -/
theorem after_send_session (t : Tunn C) (session : Session) (src : Bytes) :
    (t.after_send B session src).sessions (slot (t.after_send B session src).current)
      = some (session.sent B) := by
  unfold after_send
  dsimp only
  split
  · exact Function.update_self ..
  · exact Function.update_self ..

/-- An own initiation leaves the current session as it is. -/
theorem initiated_session (t : Tunn C) (env : Env) (h' : Handshake C) :
    (t.initiated env h').sessions (slot (t.initiated env h').current)
      = t.sessions (slot t.current) := by
  unfold initiated cleared
  dsimp only
  split <;> split <;> rfl

theorem queue_packet_session (t : Tunn C) (src : Bytes) :
    (t.queue_packet src).sessions (slot (t.queue_packet src).current)
      = t.sessions (slot t.current) := by
  unfold queue_packet
  split <;> rfl

/-- The queue after a call of `encapsulate` has no other packets. -/
theorem encapsulates_queue_fits {src : Bytes} (h : t.Encapsulates B src dst_len env r t' evs)
    (hfits : t.QueueFits dst_len) (hroom : src.length + DATA_OVERHEAD_SZ ≤ dst_len) :
    t'.QueueFits dst_len := by
  intro packet hmem
  rcases queue_encapsulates h with ⟨_, _, hqueue⟩ | ⟨_, _, hqueue⟩
  · rw [hqueue] at hmem
    exact hfits packet hmem
  · rw [hqueue, queue_packet_queue] at hmem
    split at hmem
    · rcases List.mem_append.mp hmem with hmem | hmem
      · exact hfits packet hmem
      · rw [List.mem_singleton.mp hmem]
        exact hroom
    · exact hfits packet hmem

/-- **A repetition of the loop lowers the measure.** -/
theorem flush_call_lowers (hfits : t.QueueFits dst_len)
    (hcall : flush_call B dst_len env t = .ok (r, t')) {packet : Bytes}
    (hr : r.network = some packet) : t'.QueueFits dst_len ∧ t'.flush_measure < t.flush_measure := by
  obtain ⟨evs, hsend⟩ := flush_call_eq_ok.mp hcall
  cases send_queued_packet_cases hsend with
  | empty _ => cases hr
  | failed _ _ _ _ _ _ _ => cases hr
  | passed first rest hqueue _ henc =>
    have hfirst : first.length + DATA_OVERHEAD_SZ ≤ dst_len := by
      apply hfits
      rw [hqueue]
      exact List.mem_cons_self
    have hrest : { t with packet_queue := rest }.QueueFits dst_len := by
      intro p hp
      apply hfits
      rw [hqueue]
      exact List.mem_cons_of_mem _ hp
    refine ⟨encapsulates_queue_fits henc hrest hfirst, ?_⟩
    cases henc with
    | sealed session packet hsession htype =>
      have hqueue' : ({ t with packet_queue := rest }.after_send B session first).packet_queue
          = rest := by
        unfold after_send
        dsimp only
        split <;> rfl
      unfold flush_measure
      rw [after_send_session, hqueue']
      simp only [Option.isSome_some, if_true]
      have hsession : t.sessions (slot t.current) = some session := hsession
      rw [hsession, hqueue]
      simp
    | queued hnone hstart =>
      have hnone : t.sessions (slot t.current) = none := hnone
      cases hstart with
      | busy _ _ => cases hr
      | no_room _ _ => cases hr
      | sent m h' evs hidle hinit =>
        have hbusy := initiated_in_progress hinit
        have hidle := hidle rfl
        rw [queue_packet_handshake] at hidle
        have hidle : t.handshake.is_in_progress = false := hidle
        unfold flush_measure
        rw [initiated_session, queue_packet_session, initiated_handshake]
        dsimp only
        rw [hnone, hbusy, hidle, hqueue]
        simp

/-- **Flushing terminates.**  Whatever the session and the handshake, the loop of the handlers
    ends, and has written at most one packet more than there are in the queue. -/
theorem flush_terminates (t : Tunn C) (env : Nat → Env)
    (hqueue : ∀ packet ∈ t.packet_queue, packet.length + 32 ≤ dst_len) :
    ∃ packets r t', Loop.Runs (flush_call B dst_len) TunnResult.network env t packets r t' ∧
      packets.length ≤ t.packet_queue.length + 1 := by
  have hfits : t.QueueFits dst_len := hqueue
  obtain ⟨packets, r, t', hloop, hlen⟩ := Loop.runs_of_measure
    (flush_call B dst_len) TunnResult.network (fun t => t.QueueFits dst_len) flush_measure
    (fun env _ hfits => flush_call_returns hfits env)
    (fun hfits hcall hr => flush_call_lowers hfits hcall hr) env hfits
  exact ⟨packets, r, t', hloop, Nat.le_succ_of_le (hlen.trans t.flush_measure_le)⟩

/-- A packet waits and no handshake is on the way: the first repetition starts one. -/
theorem flush_terminates_waiting : ∃ (t : Tunn symbolic) (packets : List Bytes) (r : TunnResult)
    (t' : Tunn symbolic),
      symbolicTunn.step (symbolicBuild true) (.encapsulate [1] 148) (symbolicEnv 0)
        = .ok (.Err .DestinationBufferTooSmall, t, []) ∧
      t.packet_queue = [[1]] ∧ t.handshake.is_in_progress = false ∧
      Loop.Runs (flush_call (symbolicBuild true) 2048) TunnResult.network (fun _ => symbolicEnv 0) t
        packets r t' ∧ packets.length ≤ 2 := by
  obtain ⟨t, hstep, hqueue, hidle⟩ : ∃ t,
      symbolicTunn.step (symbolicBuild true) (.encapsulate [1] 148) (symbolicEnv 0)
        = .ok (.Err .DestinationBufferTooSmall, t, []) ∧ t.packet_queue = [[1]] ∧
      t.handshake.is_in_progress = false := ⟨_, rfl, rfl, rfl⟩
  have hfits : ∀ packet ∈ t.packet_queue, packet.length + 32 ≤ 2048 := by
    rw [hqueue]
    decide
  obtain ⟨packets, r, t', hloop, hlen⟩ :=
    t.flush_terminates (B := symbolicBuild true) (fun _ => symbolicEnv 0) hfits
  rw [hqueue] at hlen
  exact ⟨t, packets, r, t', hstep, hqueue, hidle, hloop, hlen⟩

end Tunn

end PqBoringtun
