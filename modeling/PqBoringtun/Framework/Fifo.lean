import PqBoringtun.Framework.Run

/-! # Bounded queues

    A queue of at most `cap` elements.  An element that comes when the queue
    is full is dropped; the first one leaves; the whole queue can be cleared.

    * `Fifo.order`: since it was last cleared, what entered is what left,
      followed by what is still waiting, in this order.
    * `Fifo.length_le`: the bound holds.
-/

namespace Fifo

variable {α : Type}

/-- What can happen to a queue. -/
inductive Act (α : Type) where
  | idle
  | push (a : α)
  | drop (a : α)
  | pop (a : α)
  | clear
  deriving DecidableEq, Repr

/-- The queue as a transition system. -/
def queue (α : Type) (cap : Nat) : System (List α) (Act α) where
  step := fun q act q' =>
    match act with
    | .idle => q' = q
    | .push a => q.length < cap ∧ q' = q ++ [a]
    | .drop _ => cap ≤ q.length ∧ q' = q
    | .pop a => q = a :: q'
    | .clear => q' = []

/-- What entered since the queue was last cleared. -/
def pushed (tr : List (Act α)) : List α :=
  tr.foldl (fun acc act =>
    match act with
    | .push a => acc ++ [a]
    | .clear => []
    | _ => acc) []

/-- What left since the queue was last cleared. -/
def popped (tr : List (Act α)) : List α :=
  tr.foldl (fun acc act =>
    match act with
    | .pop a => acc ++ [a]
    | .clear => []
    | _ => acc) []

variable {cap : Nat} {tr : List (Act α)} {q : List α}

/-- **First in, first out, each once.** -/
theorem order (hrun : Run (queue α cap) [] tr q) : pushed tr = popped tr ++ q := by
  refine hrun.invariant (I := fun tr q => pushed tr = popped tr ++ q) rfl ?_
  intro tr q act q' ih hstep
  unfold pushed popped at ih ⊢
  rw [List.foldl_append, List.foldl_append]
  cases act with
  | idle =>
    obtain rfl : q' = q := hstep
    exact ih
  | push a =>
    obtain ⟨_, rfl⟩ : q.length < cap ∧ q' = q ++ [a] := hstep
    show List.foldl _ [] tr ++ [a] = List.foldl _ [] tr ++ (q ++ [a])
    rw [ih, List.append_assoc]
  | drop a =>
    obtain ⟨_, rfl⟩ : cap ≤ q.length ∧ q' = q := hstep
    exact ih
  | pop a =>
    obtain rfl : q = a :: q' := hstep
    show List.foldl _ [] tr = List.foldl _ [] tr ++ [a] ++ q'
    rw [ih, List.append_assoc]
    rfl
  | clear =>
    obtain rfl : q' = [] := hstep
    rfl

theorem length_le (hrun : Run (queue α cap) [] tr q) : q.length ≤ cap := by
  refine hrun.invariant (I := fun _ q => q.length ≤ cap) (Nat.zero_le _) ?_
  intro tr q act q' ih hstep
  cases act with
  | idle =>
    obtain rfl : q' = q := hstep
    exact ih
  | push a =>
    obtain ⟨hroom, rfl⟩ : q.length < cap ∧ q' = q ++ [a] := hstep
    rw [List.length_append]
    exact hroom
  | drop a =>
    obtain ⟨_, rfl⟩ : cap ≤ q.length ∧ q' = q := hstep
    exact ih
  | pop a =>
    obtain rfl : q = a :: q' := hstep
    exact Nat.le_of_succ_le ih
  | clear =>
    obtain rfl : q' = [] := hstep
    exact Nat.zero_le _

end Fifo
