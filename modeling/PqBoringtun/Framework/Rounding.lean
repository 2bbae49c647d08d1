import Mathlib.Algebra.Order.Field.Power
import Mathlib.Data.Int.Log
import Mathlib.Data.Rat.Floor
import Mathlib.Tactic.Linarith
import Mathlib.Tactic.NormNum
import Mathlib.Tactic.Positivity
import Mathlib.Tactic.Ring

/-! # Floating-point rounding

    Values of a binary floating-point format, as rational numbers, and the
    operations that round to the nearest value, ties to even.  A result that
    is no finite value, an infinity or NaN, is `none`.

    - `round_mono`: rounding keeps the order of nonnegative numbers.
    - `round_of_representable`: values of the format are not rounded.
    - `fit_between`: a result between two values of the format is rounded to
      a value between them.
-/

namespace Rounding

/-! ## Section 1: Nearest integers -/

/-- The nearest integer, ties to even. -/
def nearest (x : ℚ) : ℤ :=
  if x - ⌊x⌋ < 1 / 2 then ⌊x⌋
  else if 1 / 2 < x - ⌊x⌋ then ⌊x⌋ + 1
  else ⌊x⌋ + ⌊x⌋ % 2

theorem floor_le_nearest (x : ℚ) : ⌊x⌋ ≤ nearest x := by
  unfold nearest
  split
  · exact Int.le_refl _
  · split <;> omega

theorem nearest_le_succ (x : ℚ) : nearest x ≤ ⌊x⌋ + 1 := by
  unfold nearest
  split
  · omega
  · split <;> omega

theorem nearest_mono {x y : ℚ} (h : x ≤ y) : nearest x ≤ nearest y := by
  have hfloor : ⌊x⌋ ≤ ⌊y⌋ := Int.floor_mono h
  by_cases heq : ⌊x⌋ = ⌊y⌋
  · -- Between the same integers the fractional parts decide.
    unfold nearest
    rw [heq]
    have hfrac : x - ⌊y⌋ ≤ y - ⌊y⌋ := by linarith
    by_cases hx : x - ⌊y⌋ < 1 / 2
    · rw [if_pos hx]
      split
      · exact Int.le_refl _
      · split <;> omega
    · have hy : ¬ y - ⌊y⌋ < 1 / 2 := by linarith
      rw [if_neg hx, if_neg hy]
      by_cases hx' : 1 / 2 < x - ⌊y⌋
      · rw [if_pos hx', if_pos (by linarith)]
      · rw [if_neg hx']
        split <;> omega
  · have hx := nearest_le_succ x
    have hy := floor_le_nearest y
    omega

@[simp] theorem nearest_intCast (n : ℤ) : nearest n = n := by
  unfold nearest
  rw [Int.floor_intCast, if_pos]
  norm_num

theorem le_nearest {x : ℚ} {n : ℤ} (h : n ≤ x) : n ≤ nearest x := by
  rw [← nearest_intCast n]
  exact nearest_mono h

theorem nearest_le {x : ℚ} {n : ℤ} (h : x ≤ n) : nearest x ≤ n := by
  rw [← nearest_intCast n]
  exact nearest_mono h

/-! ## Section 2: Formats -/

/-- A binary format: the bits of a significand, the exponent of the smallest unit, and a power of
    two above all finite values. -/
structure Format where
  precision : Nat
  least : ℤ
  limit : ℤ
  precision_pos : 0 < precision

namespace Format

variable (F : Format)

/-- The exponent of the last digit of a number. -/
def unit (x : ℚ) : ℤ := max F.least (Int.log 2 |x| - (F.precision - 1))

def round (x : ℚ) : ℚ := nearest (x / 2 ^ F.unit x) * 2 ^ F.unit x

/-- The nonnegative values of the format, without a bound. -/
def Representable (x : ℚ) : Prop :=
  ∃ (m : Nat) (e : ℤ), F.least ≤ e ∧ m < 2 ^ F.precision ∧ x = m * 2 ^ e

variable {F} {x y lo hi : ℚ}

theorem Representable.nonneg (h : F.Representable x) : 0 ≤ x := by
  obtain ⟨m, e, _, _, rfl⟩ := h
  positivity

theorem representable_zero : F.Representable 0 :=
  ⟨0, F.least, Int.le_refl _, Nat.two_pow_pos _, by simp⟩

theorem representable_two_pow {e : ℤ} (he : F.least ≤ e) : F.Representable (2 ^ e) :=
  ⟨1, e, he, Nat.one_lt_two_pow (Nat.pos_iff_ne_zero.mp F.precision_pos), by simp⟩

/-- A number of units that is a whole one. -/
theorem div_two_pow {m : Nat} {e u : ℤ} (h : u ≤ e) :
    (m * 2 ^ e : ℚ) / 2 ^ u = ((m * 2 ^ (e - u).toNat : ℤ) : ℚ) := by
  have hsub : (2 : ℚ) ^ e / 2 ^ u = 2 ^ (e - u).toNat := by
    rw [← zpow_sub₀ (by norm_num), ← zpow_natCast, Int.toNat_of_nonneg (by omega)]
  rw [mul_div_assoc, hsub]
  push_cast
  rfl

theorem round_of_div {n : ℤ} (h : x / 2 ^ F.unit x = n) : F.round x = x := by
  rw [round, h, nearest_intCast, ← h]
  field_simp

/-- **Values of the format are not rounded.** -/
theorem round_of_representable (h : F.Representable x) : F.round x = x := by
  obtain ⟨m, e, hleast, hm, rfl⟩ := h
  by_cases hzero : m = 0
  · subst hzero
    exact round_of_div (n := 0) (by simp)
  · have hpos : (0 : ℚ) < m * 2 ^ e := by positivity
    have hlog : Int.log 2 |(m * 2 ^ e : ℚ)| < F.precision + e := by
      rw [abs_of_pos hpos]
      apply (Int.lt_zpow_iff_log_lt (by norm_num) hpos).mp
      rw [zpow_add₀ (by norm_num), zpow_natCast]
      have hcast : (m : ℚ) < 2 ^ F.precision := by exact_mod_cast hm
      push_cast
      exact mul_lt_mul_of_pos_right hcast (by positivity)
    apply round_of_div
    apply div_two_pow
    exact max_le hleast (by omega)

@[simp] theorem round_zero : F.round 0 = 0 := round_of_representable representable_zero

theorem significand_nonneg (hx : 0 ≤ x) : 0 ≤ nearest (x / 2 ^ F.unit x) := by
  apply le_nearest
  push_cast
  positivity

theorem round_nonneg (hx : 0 ≤ x) : 0 ≤ F.round x := by
  have hcast : (0 : ℚ) ≤ nearest (x / 2 ^ F.unit x) := by exact_mod_cast significand_nonneg hx
  exact mul_nonneg hcast (by positivity)

/-- The significand of a number has at most the precision, before rounding. -/
theorem div_unit_lt (hx : 0 < x) : x / 2 ^ F.unit x < 2 ^ F.precision := by
  have hlog : Int.log 2 x < F.unit x + F.precision := by
    have := le_max_right F.least (Int.log 2 |x| - (F.precision - 1))
    rw [abs_of_pos hx] at this
    unfold unit
    rw [abs_of_pos hx]
    omega
  have hlt := (Int.lt_zpow_iff_log_lt (b := 2) (by norm_num) hx).mpr hlog
  rw [div_lt_iff₀ (by positivity), mul_comm, ← zpow_natCast, ← zpow_add₀ (by norm_num)]
  exact_mod_cast hlt

/-- **Rounding yields values of the format.** -/
theorem round_representable (hx : 0 ≤ x) : F.Representable (F.round x) := by
  rcases hx.eq_or_lt with rfl | hpos
  · rw [round_zero]
    exact representable_zero
  have hle : nearest (x / 2 ^ F.unit x) ≤ 2 ^ F.precision := by
    apply nearest_le
    push_cast
    exact (div_unit_lt hpos).le
  obtain ⟨k, hk⟩ := Int.eq_ofNat_of_zero_le (significand_nonneg (F := F) hx)
  have hkle : k ≤ 2 ^ F.precision := by
    rw [hk] at hle
    exact_mod_cast hle
  have hleast : F.least ≤ F.unit x := le_max_left ..
  rw [round, hk]
  rcases Nat.lt_or_eq_of_le hkle with hlt | heq
  · exact ⟨k, F.unit x, hleast, hlt, by push_cast; rfl⟩
  · -- The significand was rounded up to the next power of two.
    refine ⟨2 ^ (F.precision - 1), F.unit x + 1, by omega, ?_, ?_⟩
    · exact Nat.pow_lt_pow_right (by decide) (Nat.sub_lt F.precision_pos (by decide))
    · have hsplit : (2 : ℚ) ^ F.precision = 2 ^ (F.precision - 1) * 2 := by
        rw [← pow_succ, Nat.sub_add_cancel F.precision_pos]
      rw [heq, zpow_add_one₀ (by norm_num)]
      push_cast
      rw [hsplit]
      ring

theorem unit_mono (hx : 0 < x) (hle : x ≤ y) : F.unit x ≤ F.unit y := by
  have hlog : Int.log 2 |x| ≤ Int.log 2 |y| := by
    rw [abs_of_pos hx, abs_of_pos (hx.trans_le hle)]
    exact Int.log_mono_right hx hle
  unfold unit
  omega

/-- A power of two is a whole number of smaller units. -/
theorem two_pow_div {k u : ℤ} (h : u ≤ k) :
    (2 : ℚ) ^ k / 2 ^ u = ((2 ^ (k - u).toNat : ℤ) : ℚ) := by
  have hdiv := div_two_pow (m := 1) h
  rw [Nat.cast_one, one_mul] at hdiv
  rw [hdiv]
  push_cast
  ring

theorem round_le_two_pow {k : ℤ} (hk : F.unit x ≤ k) (hle : x ≤ 2 ^ k) : F.round x ≤ 2 ^ k := by
  have hnearest : nearest (x / 2 ^ F.unit x) ≤ (2 ^ (k - F.unit x).toNat : ℤ) := by
    apply nearest_le
    rw [← two_pow_div hk]
    exact div_le_div_of_nonneg_right hle (by positivity)
  rw [round, ← le_div_iff₀ (by positivity), two_pow_div hk]
  exact_mod_cast hnearest

theorem two_pow_le_round {k : ℤ} (hk : F.unit x ≤ k) (hle : 2 ^ k ≤ x) : 2 ^ k ≤ F.round x := by
  have hnearest : (2 ^ (k - F.unit x).toNat : ℤ) ≤ nearest (x / 2 ^ F.unit x) := by
    apply le_nearest
    rw [← two_pow_div hk]
    exact div_le_div_of_nonneg_right hle (by positivity)
  rw [round, ← div_le_iff₀ (by positivity), two_pow_div hk]
  exact_mod_cast hnearest

/-- **Rounding keeps the order.** -/
theorem round_mono (hx : 0 ≤ x) (hle : x ≤ y) : F.round x ≤ F.round y := by
  rcases hx.eq_or_lt with rfl | hpos
  · rw [round_zero]
    exact round_nonneg hle
  have hypos : 0 < y := hpos.trans_le hle
  rcases (unit_mono (F := F) hpos hle).eq_or_lt with heq | hlt
  · have hdiv : x / 2 ^ F.unit x ≤ y / 2 ^ F.unit x :=
      div_le_div_of_nonneg_right hle (by positivity)
    have hcast : (nearest (x / 2 ^ F.unit x) : ℚ) ≤ nearest (y / 2 ^ F.unit x) := by
      exact_mod_cast nearest_mono hdiv
    rw [round, round, ← heq]
    exact mul_le_mul_of_nonneg_right hcast (by positivity)
  · -- The power of two below `y` lies between the two results.
    have hleast : F.least ≤ F.unit x := le_max_left ..
    have hunit : F.unit y = Int.log 2 y - (F.precision - 1) := by
      unfold unit at hlt hleast ⊢
      rw [abs_of_pos hypos] at hlt ⊢
      omega
    have hlogs : Int.log 2 x < Int.log 2 y := by
      have := le_max_right F.least (Int.log 2 |x| - (F.precision - 1))
      rw [hunit, unit] at hlt
      rw [abs_of_pos hpos] at this hlt
      omega
    have hbelow : x ≤ 2 ^ Int.log 2 y := by
      have := (Int.lt_zpow_iff_log_lt (b := 2) (by norm_num) hpos).mpr hlogs
      exact_mod_cast this.le
    have habove : (2 : ℚ) ^ Int.log 2 y ≤ y := by
      have := Int.zpow_log_le_self (b := 2) (by norm_num) hypos
      exact_mod_cast this
    have hprecision := F.precision_pos
    exact (round_le_two_pow (by omega) hbelow).trans (two_pow_le_round (by omega) habove)

/-! ## Section 3: Operations -/

variable (F) in
/-- The result of an operation. -/
def fit (x : ℚ) : Option ℚ := if |F.round x| < 2 ^ F.limit then some (F.round x) else none

variable (F) in
def div (x y : ℚ) : Option ℚ := if y = 0 then none else F.fit (x / y)

/-- **A result between two values** is rounded to a value between them. -/
theorem fit_between (hlo : F.Representable lo) (hhi : F.Representable hi)
    (hlimit : hi < 2 ^ F.limit) (h : lo ≤ x) (h' : x ≤ hi) :
    F.fit x = some (F.round x) ∧ lo ≤ F.round x ∧ F.round x ≤ hi := by
  have hx : 0 ≤ x := hlo.nonneg.trans h
  have hge : lo ≤ F.round x := by
    rw [← round_of_representable hlo]
    exact round_mono hlo.nonneg h
  have hle : F.round x ≤ hi := by
    rw [← round_of_representable hhi]
    exact round_mono hx h'
  refine ⟨?_, hge, hle⟩
  rw [fit, if_pos]
  rw [abs_of_nonneg (round_nonneg hx)]
  exact hle.trans_lt hlimit

end Format

end Rounding
