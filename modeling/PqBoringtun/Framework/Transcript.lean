import Mathlib.Data.List.Basic
import Mathlib.Logic.Function.Basic

/-! # Transcript hashes

    A transcript hash absorbs one field after the other, each time hashing
    the old value followed by the field.  With a hash that has no collisions
    it determines its start and its fields, as long as their lengths are
    known (`absorb_inj`).
-/

namespace Transcript

variable {α : Type} {H : List α → List α}

/-- Absorb a list of fields. -/
def absorb (H : List α → List α) (h : List α) (xs : List (List α)) : List α :=
  xs.foldl (fun h x => H (h ++ x)) h

@[simp] theorem absorb_nil (h : List α) : absorb H h [] = h := rfl

@[simp] theorem absorb_cons (h x : List α) (xs : List (List α)) :
    absorb H h (x :: xs) = absorb H (H (h ++ x)) xs := rfl

/-- **A transcript hash determines its start and its fields.** -/
theorem absorb_inj (hH : Function.Injective H) {h h' : List α} {xs ys : List (List α)}
    (hlen : xs.map List.length = ys.map List.length) (heq : absorb H h xs = absorb H h' ys) :
    h = h' ∧ xs = ys := by
  induction xs generalizing h h' ys with
  | nil =>
    obtain rfl : ys = [] := by simpa using hlen.symm
    exact ⟨heq, rfl⟩
  | cons x xs ih =>
    cases ys with
    | nil => simp at hlen
    | cons y ys =>
      obtain ⟨hxy, hlen⟩ := List.cons.inj hlen
      -- The later fields agree, and so do the values they were absorbed into.
      obtain ⟨hhash, rfl⟩ := ih hlen heq
      obtain ⟨rfl, rfl⟩ := List.append_inj' (hH hhash) hxy
      exact ⟨rfl, rfl⟩

end Transcript
