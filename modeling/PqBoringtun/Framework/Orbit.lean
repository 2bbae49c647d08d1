import Mathlib.Data.Finset.Card
import Mathlib.Dynamics.PeriodicPts.Lemmas

/-! # Orbits

    How long the orbit of a point under a map is, when it is too long to be
    enumerated.

    - `minimalPeriod_eq_of_primes`: the period is `n` when the point returns
      after `n` steps, but not after `n / p` for any prime divisor `p`.
    - `minimalPeriod_eq_of_card`: an orbit that is as large as the set it
      stays in is the whole set, so all points of the set have its period.
    - `Linear.power_eq`: for a linear map the points of the orbit can be computed by
      repeated squaring, from the coordinates in the first of them.
-/

namespace Orbit

open Function

/-! ## Section 1: Periods -/

section period
variable {α : Type*} {f : α → α} {x y : α}

/-- **The period from its prime divisors.** -/
theorem minimalPeriod_eq_of_primes {n : Nat} (hx : IsPeriodicPt f n x)
    (hprimes : ∀ p, p.Prime → p ∣ n → ¬ IsPeriodicPt f (n / p) x) : minimalPeriod f x = n := by
  obtain ⟨a, ha⟩ := hx.minimalPeriod_dvd
  suffices hone : a = 1 by rw [ha, hone, Nat.mul_one]
  by_contra hne
  -- Otherwise the period divides `n / p` for a prime divisor `p` of `a`.
  have hdvd : a.minFac ∣ n := by
    rw [ha]
    exact Nat.dvd_mul_left_of_dvd (Nat.minFac_dvd a) _
  apply hprimes _ (Nat.minFac_prime hne) hdvd
  apply isPeriodicPt_iff_minimalPeriod_dvd.mpr
  apply (Nat.dvd_div_iff_mul_dvd hdvd).mpr
  calc a.minFac * minimalPeriod f x ∣ a * minimalPeriod f x :=
        Nat.mul_dvd_mul_right (Nat.minFac_dvd a) _
    _ = n := by rw [ha, Nat.mul_comm]

/-- **A full orbit**: all points of the set have the same period. -/
theorem minimalPeriod_eq_of_card [DecidableEq α] {s : Finset α} (hmaps : ∀ n, f^[n] x ∈ s)
    (hcard : s.card ≤ minimalPeriod f x) (hy : y ∈ s) : minimalPeriod f y = minimalPeriod f x := by
  have hinj : Set.InjOn (fun n => f^[n] x) (Finset.range (minimalPeriod f x)) := by
    rw [Finset.coe_range]
    exact iterate_injOn_Iio_minimalPeriod
  have himage : (Finset.range (minimalPeriod f x)).image (fun n => f^[n] x) = s := by
    apply Finset.eq_of_subset_of_card_le
    · intro z hz
      obtain ⟨n, _, rfl⟩ := Finset.mem_image.mp hz
      exact hmaps n
    · rw [Finset.card_image_of_injOn hinj, Finset.card_range]
      exact hcard
  rw [← himage] at hy
  obtain ⟨n, hn, rfl⟩ := Finset.mem_image.mp hy
  have hpos : 0 < minimalPeriod f x := by
    have := Finset.mem_range.mp hn
    omega
  exact minimalPeriod_apply_iterate (minimalPeriod_pos_iff_mem_periodicPts.mp hpos) n

end period

/-! ## Section 2: Linear maps -/

section linear
variable {V : Type*} (f : V → V) (add : V → V → V) (zero : V)

/-- A linear map, over bits. -/
structure Linear : Prop where
  add : ∀ u v, f (add u v) = add (f u) (f v)
  zero : f zero = zero

/-- The sum of the iterates of a point that are selected by bits. -/
def combine : List Bool → V → V
  | [], _ => zero
  | b :: bs, v => if b then add v (combine bs (f v)) else combine bs (f v)

variable (coords : V → List Bool) (e : V)

/-- The combination of the iterates of `e` that gives `u`, with `v` instead of `e`. -/
def mul (u v : V) : V := combine f add zero (coords u) v

/-- Repeated squaring, with the binary digits of the exponent, the lowest one first. -/
def power : List Bool → V
  | [] => e
  | b :: bs =>
    let v := power bs
    let square := mul f add zero coords v v
    if b then f square else square

/-- The number of these binary digits. -/
def value : List Bool → Nat
  | [] => 0
  | b :: bs => 2 * value bs + b.toNat

variable {f add zero coords e}

theorem Linear.combine_apply (h : Linear f add zero) (bs : List Bool) (v : V) :
    f (combine f add zero bs v) = combine f add zero bs (f v) := by
  induction bs generalizing v with
  | nil => exact h.zero
  | cons b bs ih =>
    cases b with
    | false => exact ih (f v)
    | true =>
      show f (add v _) = add (f v) _
      rw [h.add, ih (f v)]

theorem Linear.iterate_combine (h : Linear f add zero) (n : Nat) (bs : List Bool) (v : V) :
    f^[n] (combine f add zero bs v) = combine f add zero bs (f^[n] v) := by
  induction n with
  | zero => rfl
  | succ n ih => rw [iterate_succ_apply', iterate_succ_apply', ih, h.combine_apply]

/-- **Exponents add up** when points are multiplied. -/
theorem Linear.iterate_add (h : Linear f add zero) {m : Nat}
    (hcoords : combine f add zero (coords (f^[m] e)) e = f^[m] e) (n : Nat) :
    f^[n + m] e = mul f add zero coords (f^[m] e) (f^[n] e) := by
  rw [mul, ← h.iterate_combine, hcoords, iterate_add_apply]

/-- **Repeated squaring computes the orbit.** -/
theorem Linear.power_eq (h : Linear f add zero)
    (hcoords : ∀ n, combine f add zero (coords (f^[n] e)) e = f^[n] e) (bs : List Bool) :
    power f add zero coords e bs = f^[value bs] e := by
  induction bs with
  | nil => rfl
  | cons b bs ih =>
    have hsquare : mul f add zero coords (power f add zero coords e bs)
        (power f add zero coords e bs) = f^[2 * value bs] e := by
      rw [ih, Nat.two_mul, h.iterate_add (hcoords _)]
    cases b with
    | false => exact hsquare
    | true =>
      show f (mul f add zero coords _ _) = f^[2 * value bs + 1] e
      rw [hsquare, iterate_succ_apply']

end linear

end Orbit
