import Mathlib.Data.Fintype.Basic

/-! # Locks that are held by scope

    Threads move through a program, one at a time.  Where the guard of a lock
    lives as long as a scope, a thread holds the lock exactly at the places
    inside of the scope; `P : φ → Bool` says which ones these are.

    * `Nowhere P place`: no thread holds the lock.
    * `AtMostOne P place`: at most one thread holds it.
    * `Excludes P Q place`: while a thread holds the first lock, none holds the
      second.

    The rules say when a thread may go to another place.
-/

namespace Scopes

variable {ι φ : Type} {P Q : φ → Bool} {place : ι → φ}

/-- No thread is in the scope. -/
def Nowhere (P : φ → Bool) (place : ι → φ) : Prop := ∀ k, P (place k) = false

/-- At most one thread is in the scope. -/
def AtMostOne (P : φ → Bool) (place : ι → φ) : Prop :=
  ∀ i k, P (place i) = true → P (place k) = true → i = k

/-- While a thread is in the first scope, none is in the second. -/
def Excludes (P Q : φ → Bool) (place : ι → φ) : Prop :=
  ∀ i, P (place i) = true → Nowhere Q place

instance [Fintype ι] : Decidable (Nowhere P place) :=
  inferInstanceAs (Decidable (∀ k, P (place k) = false))

variable {place' : ι → φ} {i : ι}

/-- One thread moves: if it comes into the scope, nobody was there. -/
theorem AtMostOne.move (h : AtMostOne P place) (hother : ∀ k, k ≠ i → P (place' k) = P (place k))
    (hi : P (place' i) = true → P (place i) = true ∨ Nowhere P place) : AtMostOne P place' := by
  have hfirst : ∀ k, k ≠ i → P (place' i) = true → P (place' k) = true → False := by
    intro k hk hin hheld
    rw [hother k hk] at hheld
    rcases hi hin with hi | hnone
    · exact hk (h k i hheld hi)
    · rw [hnone k] at hheld
      cases hheld
  intro a b ha hb
  by_cases hai : a = i
  · subst hai
    by_cases hba : b = a
    · exact hba.symm
    · exact (hfirst b hba ha hb).elim
  · by_cases hbi : b = i
    · subst hbi
      exact (hfirst a hai hb ha).elim
    · rw [hother a hai] at ha
      rw [hother b hbi] at hb
      exact h a b ha hb

/-- One thread moves: if it comes into one of the scopes, nobody was in the other. -/
theorem Excludes.move (h : Excludes P Q place) (hother : ∀ k, k ≠ i → P (place' k) = P (place k))
    (hother' : ∀ k, k ≠ i → Q (place' k) = Q (place k))
    (hi : P (place' i) = true → Q (place' i) = false ∧ (P (place i) = true ∨ Nowhere Q place))
    (hi' : Q (place' i) = true → Q (place i) = true ∨ Nowhere P place) : Excludes P Q place' := by
  intro a ha k
  by_cases hai : a = i
  · subst hai
    obtain ⟨hself, hin⟩ := hi ha
    by_cases hka : k = a
    · rw [hka]
      exact hself
    · rw [hother' k hka]
      rcases hin with hin | hnone
      · exact h a hin k
      · exact hnone k
  · rw [hother a hai] at ha
    by_cases hki : k = i
    · subst hki
      cases hk : Q (place' k) with
      | false => rfl
      | true =>
        rcases hi' hk with hin | hnone
        · rw [h a ha k] at hin
          cases hin
        · rw [hnone a] at ha
          cases ha
    · rw [hother' k hki]
      exact h a ha k

end Scopes
