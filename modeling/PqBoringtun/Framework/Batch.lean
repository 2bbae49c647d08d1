import PqBoringtun.Framework.Outcome
import PqBoringtun.Framework.Run
import Mathlib.Data.List.Basic

/-! # Loops over a queue with a budget

    A loop takes one input after the other from a queue.  Its body says
    whether the input counts, and the loop ends when the queue is empty or
    when as many inputs have counted as the budget allows.

    - `drain_calls`: what the loop did is a sequence of calls of its body on
      the front of the queue, and it stopped as soon as it had to.
    - `drain_returns`: a body that returns under an invariant it keeps makes
      the loop return.
    - `Calls.run`: if the body takes steps of a system, the loop is a run of it.
    - `drain_skips`: inputs that do not count and change nothing, in front of
      a queue, do not change what happens to the queue.
-/

namespace Batch

variable {ι σ ρ : Type}

/-- The inputs that counted. -/
def counted (outs : List (Bool × ρ)) : Nat := outs.countP fun x => x.1

/-- The budget after an input. -/
def spend (budget : Nat) (counts : Bool) : Nat := if counts then budget - 1 else budget

/-- The loop, with what is left of the budget and of the queue. -/
def drain (body : ι → σ → Outcome (Bool × ρ × σ)) :
    Nat → List ι → σ → Outcome (List (Bool × ρ) × List ι × σ)
  | _, [], s => .ok ([], [], s)
  | budget, i :: queue, s => do
    let (counts, out, s) ← body i s
    if counts ∧ spend budget counts = 0 then return ([(counts, out)], queue, s)
    else
      let (outs, left, s) ← drain body (spend budget counts) queue s
      return ((counts, out) :: outs, left, s)

/-- Calls of the body, one after the other. -/
inductive Calls (body : ι → σ → Outcome (Bool × ρ × σ)) :
    σ → List ι → List (Bool × ρ) → σ → Prop where
  | nil (s : σ) : Calls body s [] [] s
  | cons {s s₁ s' : σ} {i : ι} {counts : Bool} {out : ρ} {front : List ι}
      {outs : List (Bool × ρ)} (hbody : body i s = .ok (counts, out, s₁))
      (hrest : Calls body s₁ front outs s') :
      Calls body s (i :: front) ((counts, out) :: outs) s'

/-- The loop stops when the queue is empty or the budget is used up, and not before. -/
structure Stops (budget : Nat) (outs : List (Bool × ρ)) (left : List ι) : Prop where
  before : counted outs.dropLast < budget
  after : left = [] ∨ counted outs = budget

variable {body : ι → σ → Outcome (Bool × ρ × σ)}

theorem counted_cons (counts : Bool) (out : ρ) (outs : List (Bool × ρ)) :
    counted ((counts, out) :: outs) = counted outs + if counts then 1 else 0 := by
  simp [counted, List.countP_cons]

@[simp] theorem spend_true (budget : Nat) : spend budget true = budget - 1 := rfl

@[simp] theorem spend_false (budget : Nat) : spend budget false = budget := rfl

/-- One more call in front. -/
theorem Stops.cons {budget : Nat} {counts : Bool} {out : ρ} {outs : List (Bool × ρ)}
    {left : List ι} (hbudget : 0 < spend budget counts)
    (h : Stops (spend budget counts) outs left) : Stops budget ((counts, out) :: outs) left := by
  have hbefore := h.before
  have hspend : spend budget counts + (if counts then 1 else 0) = budget := by
    cases counts with
    | true =>
      simp only [spend_true, if_true] at hbudget ⊢
      omega
    | false => rfl
  constructor
  · cases outs with
    | nil =>
      simp only [List.dropLast_singleton, counted, List.countP_nil]
      omega
    | cons x outs =>
      rw [List.dropLast_cons_cons, counted_cons]
      omega
  · refine h.after.imp_right fun hcount => ?_
    rw [counted_cons, hcount, hspend]

/-- **What a loop did.** -/
theorem drain_calls {budget : Nat} {queue left : List ι} {s s' : σ} {outs : List (Bool × ρ)}
    (hbudget : 0 < budget) (h : drain body budget queue s = .ok (outs, left, s')) :
    ∃ front, queue = front ++ left ∧ Calls body s front outs s' ∧ Stops budget outs left := by
  induction queue generalizing budget s outs with
  | nil =>
    cases h
    exact ⟨[], rfl, .nil _, by simpa [counted] using hbudget, Or.inl rfl⟩
  | cons i queue ih =>
    obtain ⟨⟨counts, out, s₁⟩, hbody, h⟩ := Outcome.bind_eq_ok.mp h
    dsimp only at h
    split at h
    · -- the last one that the budget allows
      rename_i hlast
      cases h
      obtain ⟨rfl, hzero⟩ := hlast
      rw [spend_true] at hzero
      refine ⟨[i], rfl, .cons hbody (.nil _), by simpa [counted] using hbudget, Or.inr ?_⟩
      rw [counted_cons]
      simp only [counted, List.countP_nil, if_true]
      omega
    · rename_i hmore
      obtain ⟨⟨outs', left', s₂⟩, hrest, h⟩ := Outcome.bind_eq_ok.mp h
      cases h
      have hbudget' : 0 < spend budget counts := by
        cases counts with
        | true => exact Nat.pos_of_ne_zero fun hzero => hmore ⟨rfl, hzero⟩
        | false => exact hbudget
      obtain ⟨front, rfl, hcalls, hstops⟩ := ih hbudget' hrest
      exact ⟨i :: front, rfl, .cons hbody hcalls, hstops.cons hbudget'⟩

/-- **A loop returns** if its body does. -/
theorem drain_returns {I : σ → Prop} {queue : List ι}
    (hbody : ∀ i ∈ queue, ∀ s, I s → ∃ counts out s', body i s = .ok (counts, out, s') ∧ I s')
    (budget : Nat) {s : σ} (hs : I s) :
    ∃ outs left s', drain body budget queue s = .ok (outs, left, s') ∧ I s' := by
  induction queue generalizing budget s with
  | nil => exact ⟨_, _, _, rfl, hs⟩
  | cons i queue ih =>
    obtain ⟨counts, out, s₁, hfirst, hs₁⟩ := hbody i List.mem_cons_self s hs
    obtain ⟨outs, left, s₂, hrest, hs₂⟩ :=
      ih (fun j hj => hbody j (List.mem_cons_of_mem _ hj)) (spend budget counts) hs₁
    rw [drain, hfirst, Outcome.ok_bind]
    dsimp only
    split
    · exact ⟨_, _, _, rfl, hs₁⟩
    · rw [hrest]
      exact ⟨_, _, _, rfl, hs₂⟩

/-- There is one output for each input. -/
theorem Calls.length_eq {s s' : σ} {front : List ι} {outs : List (Bool × ρ)}
    (h : Calls body s front outs s') : outs.length = front.length := by
  induction h with
  | nil s => rfl
  | cons _ _ ih => rw [List.length_cons, List.length_cons, ih]

/-- What holds of the flag of each call holds of all outputs. -/
theorem Calls.forall_outs {P : Bool × ρ → Prop}
    (hbody : ∀ {i s counts out s'}, body i s = .ok (counts, out, s') → P (counts, out))
    {s s' : σ} {front : List ι} {outs : List (Bool × ρ)} (h : Calls body s front outs s') :
    ∀ x ∈ outs, P x := by
  induction h with
  | nil s =>
    intro x hx
    cases hx
  | cons hfirst _ ih =>
    intro x hx
    rcases List.mem_cons.mp hx with rfl | hx
    · exact hbody hfirst
    · exact ih x hx

/-- **The loop as a run** of a system whose steps the body takes, under an invariant. -/
theorem Calls.run {L : Type} {sys : System σ L} {I : σ → Prop} {label : ι → Bool × ρ → L}
    (hbody : ∀ {i s counts out s'}, I s → body i s = .ok (counts, out, s') →
      sys.step s (label i (counts, out)) s' ∧ I s')
    {s s' : σ} {front : List ι} {outs : List (Bool × ρ)} (h : Calls body s front outs s')
    (hs : I s) : Run sys s (List.zipWith label front outs) s' := by
  induction h with
  | nil s => exact .nil
  | cons hfirst _ ih =>
    obtain ⟨hstep, hs₁⟩ := hbody hs hfirst
    have hone : Run sys _ [_] _ := .snoc .nil hstep
    exact hone.append (ih hs₁)

/-- When every input counts, the loop takes as many as the budget allows. -/
theorem Stops.takes {budget : Nat} {front left : List ι} {outs : List (Bool × ρ)}
    (h : Stops budget outs left) (hlength : outs.length = front.length)
    (hcounts : ∀ x ∈ outs, x.1 = true) :
    front = (front ++ left).take budget ∧ left = (front ++ left).drop budget := by
  have hall : ∀ {xs : List (Bool × ρ)}, (∀ x ∈ xs, x.1 = true) → counted xs = xs.length := by
    intro xs hxs
    exact List.countP_eq_length.mpr hxs
  have hbefore := h.before
  rw [hall fun x hx => hcounts x (List.dropLast_subset _ hx), List.length_dropLast] at hbefore
  rcases h.after with rfl | hcount
  · rw [List.append_nil, List.take_of_length_le (by omega), List.drop_eq_nil_of_le (by omega)]
    exact ⟨rfl, rfl⟩
  · rw [hall hcounts, hlength] at hcount
    rw [List.take_left' hcount, List.drop_left' hcount]
    exact ⟨rfl, rfl⟩

/-- **Inputs that do not count** and leave the state as it is do not change the rest. -/
theorem drain_skips {s s' : σ} {budget : Nat} {front queue left : List ι} {out : ι → ρ}
    {outs : List (Bool × ρ)} (hskip : ∀ i ∈ front, body i s = .ok (false, out i, s))
    (h : drain body budget queue s = .ok (outs, left, s')) :
    drain body budget (front ++ queue) s
      = .ok (front.map (fun i => (false, out i)) ++ outs, left, s') := by
  induction front with
  | nil => exact h
  | cons i front ih =>
    have hrest := ih fun j hj => hskip j (List.mem_cons_of_mem _ hj)
    rw [List.cons_append, drain, hskip i List.mem_cons_self, Outcome.ok_bind]
    dsimp only
    rw [if_neg (by simp), spend_false, hrest]
    rfl

end Batch
