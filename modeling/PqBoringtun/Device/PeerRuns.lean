import PqBoringtun.Device.Steps
import PqBoringtun.Noise.Indices
import PqBoringtun.Noise.Initiations

/-! # The tunnels of a device

    Whatever a device does, a tunnel of it only takes steps of its own
    (`Device.Advances`).  So the calls of a peer's tunnel that a run of the
    device makes are a run of the tunnel, from its creation on
    (`Device.run_created`), and what holds in every run of a tunnel holds of
    all tunnels of a device.
-/

namespace PqBoringtun

variable {C : Crypto} {B : Build}

/-! ## Section 1: What happens to a peer -/

/-- A peer after the calls `ls` of its tunnel; only its endpoint may be another one. -/
structure Peer.Becomes (B : Build) (p : Peer C) (ls : List Label) (p' : Peer C) : Prop where
  index : p'.index = p.index
  allowed_ips : p'.allowed_ips = p.allowed_ips
  run : Run (PqBoringtun.tunnel C B) p.tunnel ls p'.tunnel

theorem Peer.Becomes.trans {p p₁ p' : Peer C} {ls ls' : List Label} (h : p.Becomes B ls p₁)
    (h' : p₁.Becomes B ls' p') : p.Becomes B (ls ++ ls') p' where
  index := h'.index.trans h.index
  allowed_ips := h'.allowed_ips.trans h.allowed_ips
  run := h.run.append h'.run

theorem Peer.Becomes.refl (p : Peer C) : p.Becomes B [] p := ⟨rfl, rfl, .nil⟩

/-- The tunnel of a peer takes a step. -/
theorem Peer.Becomes.of_step {p : Peer C} {op : Op} {env : Env} {result : TunnResult}
    {tunnel : Tunn C} {events : List Event}
    (hstep : p.tunnel.step B op env = .ok (result, tunnel, events)) :
    p.Becomes B [⟨op, env, result, events⟩] { p with tunnel } :=
  ⟨rfl, rfl, .snoc .nil hstep⟩

namespace Device

variable {d d₁ d' : Device C} {r : PeerRef} {p p' : Peer C} {calls calls' : List Call}
  {outputs : List Output} {op : DeviceOp}

/-- The peers of a device stay, and their tunnels take the steps that were recorded. -/
structure Advances (B : Build) (d : Device C) (calls : List Call) (d' : Device C) : Prop where
  length_le : d.heap.length ≤ d'.heap.length
  known : ∀ {r : PeerRef} {l : Label}, (r, l) ∈ calls → r < d.heap.length
  peer : ∀ {r : PeerRef} {p : Peer C}, d.heap[r]? = some p →
    ∃ p', d'.heap[r]? = some p' ∧ p.Becomes B (labelsOf r calls) p'

namespace Advances

theorem of_heap (h : d'.heap = d.heap) : Advances B d [] d' where
  length_le := by rw [h]
  known := by simp
  peer := by
    intro r p hp
    rw [h]
    exact ⟨p, hp, .refl p⟩

/-- One peer was replaced. -/
theorem set {ls : List Label} (hp : d.heap[r]? = some p) (h : p.Becomes B ls p')
    (hheap : d'.heap = d.heap.set r p') : Advances B d (ls.map (Prod.mk r)) d' where
  length_le := by
    rw [hheap, List.length_set]
  known := by
    intro q l hmem
    obtain ⟨_, _, heq⟩ := List.mem_map.mp hmem
    cases heq
    exact (List.getElem?_eq_some_iff.mp hp).1
  peer := by
    intro q pq hq
    rw [labelsOf_only, hheap]
    by_cases hqr : r = q
    · subst hqr
      obtain rfl := Option.some.inj (hp.symm.trans hq)
      rw [if_pos rfl]
      exact ⟨p', List.getElem?_set_self (List.getElem?_eq_some_iff.mp hp).1, h⟩
    · rw [if_neg hqr, List.getElem?_set_ne hqr]
      exact ⟨pq, hq, .refl pq⟩

theorem trans (h : Advances B d calls d₁) (h' : Advances B d₁ calls' d')
    (hlength : d₁.heap.length = d.heap.length) : Advances B d (calls ++ calls') d' where
  length_le := h.length_le.trans h'.length_le
  known := by
    intro r l hmem
    rcases List.mem_append.mp hmem with hmem | hmem
    · exact h.known hmem
    · rw [← hlength]
      exact h'.known hmem
  peer := by
    intro r p hp
    obtain ⟨p₁, hp₁, hbecomes⟩ := h.peer hp
    obtain ⟨p', hp', hbecomes'⟩ := h'.peer hp₁
    rw [labelsOf_append]
    exact ⟨p', hp', hbecomes.trans hbecomes'⟩

end Advances

/-! ## Section 2: What a step does to the peers -/

theorem Act.advances (h : Act B d calls d') : Advances B d calls d' := by
  cases h with
  | call hp _ hstep => exact .set hp (.of_step hstep) rfl
  | @close r p hp =>
    have hbecomes : p.Becomes B [] p.shutdown_endpoint.1 := ⟨rfl, rfl, .nil⟩
    exact .set hp hbecomes rfl
  | @move r p addr hp =>
    have hbecomes : p.Becomes B [] (p.set_endpoint addr).1 := by
      unfold Peer.set_endpoint
      split
      · exact ⟨rfl, rfl, .nil⟩
      · exact .refl p
    exact .set hp hbecomes rfl
  | @connect r p ip hp _ _ =>
    have hbecomes :
        p.Becomes B [] { p with endpoint := { p.endpoint with conn := some d.sockets } } :=
      ⟨rfl, rfl, .nil⟩
    exact .set hp hbecomes rfl
  | limiter l => exact .of_heap rfl
  | listen b port => exact .of_heap rfl
  | mark mark => exact .of_heap rfl
  | cancel h => exact .of_heap rfl

theorem Acts.advances (h : Acts B d calls d') : Advances B d calls d' := by
  induction h with
  | nil d => exact .of_heap rfl
  | cons hact _ ih => exact hact.advances.trans ih hact.same_tables.heap_length

/-- The loop of `set_key` calls `set_static_private` of every peer. -/
structure Rekeys (B : Build) (d : Device C) (op : Op) (rs : List PeerRef) (calls : List Call)
    (d' : Device C) : Prop where
  advances : Advances B d calls d'
  tables : SameTables d d'
  calls_op : ∀ {r : PeerRef} {l : Label}, (r, l) ∈ calls → l.op = op
  called : ∀ r, r ∈ rs ↔ ∃ l, (r, l) ∈ calls

theorem set_static_private_rekeys {private_key public_key : Bytes} {limiter : RateLimiter}
    {env : Env} {rs : List PeerRef}
    (h : d.set_static_private B private_key public_key limiter env rs = .ok (d', calls)) :
    Rekeys B d (.set_static_private private_key public_key (some limiter)) rs calls d' := by
  induction rs generalizing d calls with
  | nil =>
    cases h
    exact ⟨.of_heap rfl, ⟨rfl, rfl, rfl, rfl, rfl, rfl, rfl⟩, by simp, by simp⟩
  | cons r rs ih =>
    obtain ⟨⟨_, d₁, calls₁⟩, hcall, h⟩ := Outcome.bind_eq_ok.mp h
    obtain ⟨⟨d₂, calls₂⟩, hloop, h⟩ := Outcome.bind_eq_ok.mp h
    cases h
    obtain ⟨hadvances, htables, hop, hcalled⟩ := ih hloop
    obtain ⟨p, tunnel, events, hp, hstep, rfl, rfl⟩ := call_eq_ok.mp hcall
    have hsame := SameTables.put d r ({ p with tunnel }, none)
    have hfirst := Advances.set hp (.of_step hstep)
      (rfl : (d.put r ({ p with tunnel }, none)).heap = d.heap.set r { p with tunnel })
    refine ⟨hfirst.trans hadvances hsame.heap_length, hsame.trans htables, ?_, ?_⟩
    · intro r' l hmem
      rcases List.mem_append.mp hmem with hmem | hmem
      · cases List.mem_singleton.mp hmem
        rfl
      · exact hop hmem
    · intro r'
      constructor
      · intro hr'
        rcases List.mem_cons.mp hr' with rfl | hr'
        · exact ⟨_, List.mem_append_left _ (List.mem_singleton_self _)⟩
        · obtain ⟨l, hl⟩ := (hcalled r').mp hr'
          exact ⟨l, List.mem_append_right _ hl⟩
      · intro ⟨l, hl⟩
        rcases List.mem_append.mp hl with hl | hl
        · cases List.mem_singleton.mp hl
          exact List.mem_cons_self
        · exact List.mem_cons_of_mem _ ((hcalled r').mpr ⟨l, hl⟩)

theorem Changes.advances (h : Changes B d op calls d') : Advances B d calls d' := by
  cases h with
  | same_key _ => exact .of_heap rfl
  | set_key _ hloop =>
    obtain ⟨hle, hknown, hpeer⟩ := (set_static_private_rekeys hloop).advances
    exact ⟨hle, hknown, hpeer⟩
  | unknown _ _ => exact .of_heap rfl
  | @remove _ _ r p _ _ hp =>
    have hbecomes : p.Becomes B [] p.shutdown_endpoint.1 := ⟨rfl, rfl, .nil⟩
    exact .set hp hbecomes rfl
  | @add _ _ _ _ _ _ p _ _ _ _ _ _ _ =>
    refine ⟨?_, by simp, ?_⟩
    · show d.heap.length ≤ (d.heap ++ [p]).length
      rw [List.length_append]
      omega
    · intro r q hq
      exact ⟨q, getElem?_concat_left hq, .refl q⟩
  | clear => exact .of_heap rfl

/-- **The peers along a step.** -/
theorem step_advances (h : d.step B op = .ok (d', calls, outputs)) : Advances B d calls d' := by
  rcases step_cases h with hchanges | hacts
  · exact hchanges.advances
  · exact hacts.advances

/-- A peer whose tunnel was not called yet. -/
def Created (p : Peer C) (t₀ : Tunn C) : Prop :=
  ∃ private_key pub_key config new, t₀ = new_tunnel private_key pub_key config p.index new

/-- Only a new peer is put at the end of the heap. -/
theorem Changes.created (h : Changes B d op calls d') (hr : d.heap.length ≤ r)
    (hp : d'.heap[r]? = some p) : Created p p.tunnel := by
  have hlt : r < d'.heap.length := (List.getElem?_eq_some_iff.mp hp).1
  have hsame : d'.heap.length ≠ d.heap.length := by
    intro heq
    rw [heq] at hlt
    exact Nat.not_le.mpr hlt hr
  cases h with
  | same_key _ => exact absurd rfl hsame
  | set_key _ hloop => exact absurd (set_static_private_rekeys hloop).tables.heap_length hsame
  | unknown _ _ => exact absurd rfl hsame
  | remove _ _ _ => exact absurd List.length_set hsame
  | @add _ _ _ index _ _ q _ _ _ _ _ hpeer _ =>
    rcases getElem?_concat_cases hp with hold | ⟨_, rfl⟩
    · exact absurd (List.getElem?_eq_some_iff.mp hold).1 (Nat.not_lt.mpr hr)
    obtain ⟨htunnel, hindex, _⟩ := Peer.new_eq_ok hpeer
    rw [← hindex] at htunnel
    exact ⟨_, _, _, _, htunnel⟩
  | clear => exact absurd rfl hsame

/-! ## Section 3: What a run does to the peers -/

/-- The calls recorded so far are runs of the tunnels, which began when they were created. -/
structure PeerRuns (B : Build) (calls : List Call) (d : Device C) : Prop where
  known : ∀ {r : PeerRef} {l : Label}, (r, l) ∈ calls → r < d.heap.length
  created : ∀ {r : PeerRef} {p : Peer C}, d.heap[r]? = some p →
    ∃ t₀, Created p t₀ ∧ Run (tunnel C B) t₀ (labelsOf r calls) p.tunnel

theorem PeerRuns.step (h : PeerRuns B calls d) (hstep : d.step B op = .ok (d', calls', outputs)) :
    PeerRuns B (calls ++ calls') d' := by
  have hadvances := step_advances hstep
  constructor
  · intro r l hmem
    rcases List.mem_append.mp hmem with hmem | hmem
    · exact (h.known hmem).trans_le hadvances.length_le
    · exact (hadvances.known hmem).trans_le hadvances.length_le
  · intro r p' hp'
    rw [labelsOf_append]
    by_cases hr : r < d.heap.length
    · -- The peer was there before.
      obtain ⟨p'', hp'', hbecomes⟩ := hadvances.peer (List.getElem?_eq_getElem hr)
      obtain rfl := Option.some.inj (hp'.symm.trans hp'')
      obtain ⟨t₀, ⟨key, pub, config, new, hcreated⟩, hrun⟩ :=
        h.created (List.getElem?_eq_getElem hr)
      refine ⟨t₀, ⟨key, pub, config, new, ?_⟩, hrun.append hbecomes.run⟩
      rw [hbecomes.index]
      exact hcreated
    · -- It is new, and nothing was recorded for it.
      have hnone : ∀ calls : List Call, (∀ {q l}, (q, l) ∈ calls → q < d.heap.length) →
          labelsOf r calls = [] := by
        intro calls hknown
        refine List.eq_nil_iff_forall_not_mem.mpr ?_
        intro l hl
        exact hr (hknown (mem_labelsOf.mp hl))
      rw [hnone calls h.known, hnone calls' hadvances.known]
      refine ⟨p'.tunnel, ?_, .nil⟩
      rcases step_cases hstep with hchanges | hacts
      · exact hchanges.created (Nat.not_lt.mp hr) hp'
      · have hlt : r < d'.heap.length := (List.getElem?_eq_some_iff.mp hp').1
        rw [hacts.same_tables.heap_length] at hlt
        exact absurd hlt hr

theorem deviceCalls_snoc {tr : List DeviceLabel} {l : DeviceLabel} :
    deviceCalls (tr ++ [l]) = deviceCalls tr ++ l.calls := by
  simp [deviceCalls]

/-- **The tunnels of a device.**  In every run of a device, the calls made of a peer's tunnel are a
    run of the tunnel, from its creation on. -/
theorem run_created {use_connected_socket : Bool} {generator : IndexLfsr} {tr : List DeviceLabel}
    (hrun : Run (device C B) (Device.new use_connected_socket generator) tr d) :
    PeerRuns B (deviceCalls tr) d := by
  refine hrun.invariant (I := fun tr d => PeerRuns B (deviceCalls tr) d) ?_ ?_
  · refine ⟨by simp [deviceCalls], ?_⟩
    intro r p hp
    cases hp
  · intro tr d l d' ih hstep
    rw [deviceCalls_snoc]
    exact ih.step hstep

end Device

end PqBoringtun
