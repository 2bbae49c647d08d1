import Mathlib.Data.Finset.Lattice.Fold
import Mathlib.Data.Finset.Max
import Mathlib.Data.Nat.ModEq
import Mathlib.Order.Interval.Finset.Nat
import Mathlib.Order.Lattice.Nat

/-! # Sliding windows over a set of received numbers

    The abstract view of a replay filter: the finite set `R` of the numbers
    received so far.  Its `top` is one more than the largest of them, and a
    number is acceptable when it is new and not more than `W` below the top.

    A ring of `W` flags `f` (number `c` owns the flag of `c % W`)
    *represents* `R` when, inside the window of the last `W` numbers, the
    flag of a number says whether it was received.  The lemmas say how the
    flags have to change when a number is received.
-/

namespace Window

/-- One more than the largest number received, `0` if none was. -/
def top (R : Finset ℕ) : ℕ := R.sup (· + 1)

theorem lt_top {R : Finset ℕ} {c : ℕ} (h : c ∈ R) : c < top R :=
  Nat.lt_of_succ_le (Finset.le_sup (f := (· + 1)) h)

theorem not_mem_of_top_le {R : Finset ℕ} {c : ℕ} (h : top R ≤ c) : c ∉ R :=
  fun hc => absurd (lt_top hc) (Nat.not_lt.mpr h)

@[simp] theorem top_empty : top ∅ = 0 := rfl

theorem top_insert (R : Finset ℕ) (c : ℕ) : top (insert c R) = max (c + 1) (top R) := by
  simp [top, Finset.sup_insert]

/-- The top of a nonempty set is its maximum plus one. -/
theorem top_eq_max_add_one {R : Finset ℕ} (h : R.Nonempty) : top R = R.max' h + 1 := by
  apply le_antisymm
  · apply Finset.sup_le
    intro c hc
    exact Nat.succ_le_succ (R.le_max' c hc)
  · exact Nat.succ_le_of_lt (lt_top (R.max'_mem h))

/-- New, and not more than `W` below the top. -/
def Acceptable (W : ℕ) (R : Finset ℕ) (c : ℕ) : Prop := c ∉ R ∧ top R ≤ c + W

/-- Inside the window the flag of a number says whether it was received. -/
def Represents (W : ℕ) (f : ℕ → Bool) (R : Finset ℕ) : Prop :=
  ∀ c, top R ≤ c + W → c < top R → (f c = true ↔ c ∈ R)

/-- Numbers less than `W` apart own different flags. -/
theorem eq_of_mod_eq {W x y : ℕ} (hxy : x ≤ y) (hW : y < x + W) (h : x % W = y % W) : x = y := by
  have hdvd : W ∣ y - x := (Nat.modEq_iff_dvd' hxy).mp h
  have hzero : y - x = 0 := Nat.eq_zero_of_dvd_of_lt hdvd (by omega)
  omega

/-- An older number of the window is received: its flag is set. -/
theorem Represents.insert_old {W : ℕ} {f g : ℕ → Bool} {R : Finset ℕ} {c : ℕ}
    (hR : Represents W f R) (hlow : top R ≤ c + W) (hlt : c < top R)
    (hg : ∀ x, g x = true ↔ x % W = c % W ∨ f x = true) :
    Represents W g (insert c R) := by
  have htop : top (insert c R) = top R := by
    rw [top_insert]; omega
  intro x hx hxt
  rw [htop] at hx hxt
  have hold := hR x hx hxt
  rw [hg, Finset.mem_insert, ← hold]
  constructor
  · rintro (hmod | hf)
    · left
      -- both numbers lie in one window, so equal flags mean equal numbers
      rcases Nat.le_total x c with hle | hle
      · exact eq_of_mod_eq hle (by omega) hmod
      · exact (eq_of_mod_eq hle (by omega) hmod.symm).symm
    · exact Or.inr hf
  · rintro (rfl | hf)
    · exact Or.inl rfl
    · exact Or.inr hf

/-- A number at or above the top is received: the flags of the skipped
    numbers are cleared and its own is set. -/
theorem Represents.insert_new {W : ℕ} {f g : ℕ → Bool} {R : Finset ℕ} {c : ℕ}
    (hR : Represents W f R) (hge : top R ≤ c)
    (hg : ∀ x, g x = true ↔ x % W = c % W ∨
      (f x = true ∧ ∀ j, top R ≤ j → j < c → x % W ≠ j % W)) :
    Represents W g (insert c R) := by
  have htop : top (insert c R) = c + 1 := by
    rw [top_insert]; omega
  intro x hx hxt
  rw [htop] at hx hxt
  rw [hg, Finset.mem_insert]
  have hmod_c : x % W = c % W ↔ x = c :=
    ⟨fun h => eq_of_mod_eq (by omega) (by omega) h, fun h => by rw [h]⟩
  rw [hmod_c]
  by_cases hxc : x = c
  · simp [hxc]
  · have hxlt : x < c := by omega
    simp only [hxc, false_or]
    by_cases hxt' : x < top R
    · -- x was in the window before, and no skipped number owns its flag
      rw [← hR x (by omega) hxt']
      refine ⟨fun h => h.1, fun h => ⟨h, fun j hj hjc hmod => ?_⟩⟩
      have := eq_of_mod_eq (W := W) (x := x) (y := j) (by omega) (by omega) hmod
      omega
    · -- x is one of the skipped numbers
      have hnot : x ∉ R := not_mem_of_top_le (by omega)
      simp only [hnot, iff_false, not_and]
      intro _ hall
      exact hall x (by omega) hxlt rfl

/-- A number `W` or more above the top is received: all other flags are clear. -/
theorem Represents.insert_far {W : ℕ} {g : ℕ → Bool} {R : Finset ℕ} {c : ℕ}
    (hfar : top R + W ≤ c) (hg : ∀ x, g x = true ↔ x % W = c % W) :
    Represents W g (insert c R) := by
  have htop : top (insert c R) = c + 1 := by
    rw [top_insert]; omega
  intro x hx hxt
  rw [htop] at hx hxt
  have hnot : x ∉ R := not_mem_of_top_le (by omega)
  rw [hg, Finset.mem_insert]
  simp only [hnot, or_false]
  exact ⟨fun h => eq_of_mod_eq (by omega) (by omega) h, fun h => by rw [h]⟩

end Window
