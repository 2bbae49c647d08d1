import Mathlib.Tactic.NormNum.Prime
import PqBoringtun.Device.IndexLfsr
import PqBoringtun.Framework.Orbit

/-! # How many peer indices there are

    The step of the index register is linear over bits, and every 24-bit
    value is a combination of the steps of its highest bit.  So the orbit of
    this bit can be computed by repeated squaring: its period is `2^24 - 1`,
    as many as there are seeds, and all seeds lie on it.

    * Section 1: the step is linear.
    * Section 2: the period of the register.
    * Section 3: the calls of `next` (`IndexLfsr.full_period`).
-/

namespace PqBoringtun

namespace IndexLfsr

open Function Orbit

/-! ## Section 1: The step is linear -/

theorem shift_linear : Linear shift (· ^^^ ·) 0 where
  add := by
    intro x y
    apply UInt32.toBitVec_inj.mp
    apply BitVec.eq_of_getLsbD_eq
    intro i _
    rw [UInt32.toBitVec_xor, BitVec.getLsbD_xor, getLsbD_shift, getLsbD_shift, getLsbD_shift,
      UInt32.toBitVec_xor, BitVec.getLsbD_xor, BitVec.getLsbD_xor]
    cases x.toBitVec.getLsbD 0 <;> cases y.toBitVec.getLsbD 0 <;>
      cases LFSR_POLY.toBitVec.getLsbD i <;> simp
  zero := rfl

/-- A single bit. -/
def unit (n : Nat) : UInt32 := UInt32.ofNat (2 ^ n)

theorem getLsbD_unit {n i : Nat} (hi : i < 32) :
    (unit n).toBitVec.getLsbD i = decide (n = i) := by
  show (BitVec.ofNat 32 (2 ^ n)).getLsbD i = _
  rw [BitVec.getLsbD_ofNat, Nat.testBit_two_pow]
  simp [hi]

/-- A bit above the lowest one only moves. -/
theorem shift_unit : ∀ n < 23, shift (unit (n + 1)) = unit n := by decide

/-- The lowest `n` bits, from the highest one down. -/
def bits : Nat → UInt32 → List Bool
  | 0, _ => []
  | n + 1, x => x.toBitVec.getLsbD n :: bits n x

theorem getLsbD_combine (x : UInt32) {n i : Nat} (hn : n < 24) (hi : i < 32) :
    (combine shift (· ^^^ ·) 0 (bits (n + 1) x) (unit n)).toBitVec.getLsbD i =
      (decide (i ≤ n) && x.toBitVec.getLsbD i) := by
  -- The combination takes the highest bit itself, and the other ones from its steps.
  have hhead : ∀ {m : Nat} (rest : UInt32) (b : Bool),
      (if b = true then unit m ^^^ rest else rest).toBitVec.getLsbD i =
        ((b && decide (m = i)) ^^ rest.toBitVec.getLsbD i) := by
    intro m rest b
    cases b with
    | false => simp
    | true =>
      rw [if_pos rfl, UInt32.toBitVec_xor, BitVec.getLsbD_xor, getLsbD_unit hi]
      rfl
  induction n with
  | zero =>
    rw [bits, combine, hhead]
    by_cases hzero : i = 0
    · subst hzero
      simp [bits, combine]
    · have hne : ¬ 0 = i := fun h => hzero h.symm
      simp [bits, combine, hzero, hne]
  | succ n ih =>
    rw [bits, combine, hhead, shift_unit n (by omega), ih (by omega)]
    by_cases heq : n + 1 = i
    · subst heq
      simp
    · by_cases hle : i ≤ n
      · simp [heq, hle, Nat.le_succ_of_le hle]
      · have hlt : ¬ i ≤ n + 1 := by omega
        simp [heq, hle, hlt]

/-- **The steps of the highest bit span** all 24-bit values. -/
theorem combine_bits {x : UInt32} (hx : x.toNat < 2 ^ 24) :
    combine shift (· ^^^ ·) 0 (bits 24 x) (unit 23) = x := by
  apply UInt32.toBitVec_inj.mp
  apply BitVec.eq_of_getLsbD_eq
  intro i hi
  rw [getLsbD_combine x (by decide) hi]
  by_cases hle : i ≤ 23
  · simp [hle]
  · rw [getLsbD_small hx (by omega)]
    simp

/-! ## Section 2: The period -/

theorem unit_seed : Seed (unit 23) := ⟨by decide, by decide⟩

/-- The binary digits of an exponent. -/
def digits (n : Nat) : List Bool := (List.range 24).map n.testBit

/-- An iterate of the highest bit, by repeated squaring. -/
def unit_power (n : Nat) : UInt32 := power shift (· ^^^ ·) 0 (bits 24) (unit 23) (digits n)

theorem iterate_unit {n : Nat} (hn : value (digits n) = n) :
    shift^[n] (unit 23) = unit_power n := by
  have hcoords : ∀ k, combine shift (· ^^^ ·) 0 (bits 24 (shift^[k] (unit 23))) (unit 23) =
      shift^[k] (unit 23) := fun k => combine_bits (iterate_seed unit_seed k).2
  rw [unit_power, shift_linear.power_eq hcoords, hn]

/-- The prime divisors of the period. -/
theorem prime_divisors {p : Nat} (hp : p.Prime) (hdvd : p ∣ 2 ^ 24 - 1) :
    p ∈ [3, 5, 7, 13, 17, 241] := by
  have hfactors : 2 ^ 24 - 1 = 3 * 3 * 5 * 7 * 13 * 17 * 241 := by decide
  have heq : ∀ {q : Nat}, q.Prime → p ∣ q → p = q :=
    fun hq h => (Nat.prime_dvd_prime_iff_eq hp hq).mp h
  rw [hfactors] at hdvd
  simp only [hp.dvd_mul] at hdvd
  rcases hdvd with (((((h | h) | h) | h) | h) | h) | h <;> simp [heq (by norm_num) h]

section evaluation
set_option maxRecDepth 10000

theorem unit_power_period : value (digits (2 ^ 24 - 1)) = 2 ^ 24 - 1 ∧
    unit_power (2 ^ 24 - 1) = unit 23 := by decide +kernel

theorem unit_power_divisors : ∀ p ∈ [3, 5, 7, 13, 17, 241],
    value (digits ((2 ^ 24 - 1) / p)) = (2 ^ 24 - 1) / p ∧
      unit_power ((2 ^ 24 - 1) / p) ≠ unit 23 := by decide +kernel

end evaluation

theorem unit_period : minimalPeriod shift (unit 23) = 2 ^ 24 - 1 := by
  apply minimalPeriod_eq_of_primes
  · obtain ⟨hvalue, hpower⟩ := unit_power_period
    exact (iterate_unit hvalue).trans hpower
  · intro p hp hdvd hperiodic
    obtain ⟨hvalue, hpower⟩ := unit_power_divisors p (prime_divisors hp hdvd)
    exact hpower ((iterate_unit hvalue).symm.trans hperiodic)

/-- All seeds. -/
def seeds : Finset UInt32 := (Finset.Ioo 0 (2 ^ 24)).image UInt32.ofNat

theorem mem_seeds {x : UInt32} (hx : Seed x) : x ∈ seeds := by
  refine Finset.mem_image.mpr ⟨x.toNat, Finset.mem_Ioo.mpr ⟨?_, hx.2⟩, UInt32.ofNat_toNat⟩
  apply Nat.pos_of_ne_zero
  intro hzero
  exact hx.1 (UInt32.toNat_inj.mp hzero)

theorem card_seeds : seeds.card ≤ 2 ^ 24 - 1 :=
  calc seeds.card ≤ (Finset.Ioo 0 (2 ^ 24)).card := Finset.card_image_le
    _ = 2 ^ 24 - 1 := by rw [Nat.card_Ioo, Nat.sub_zero]

/-- **The register has full period**, from every seed. -/
theorem seed_period {x : UInt32} (hx : Seed x) : minimalPeriod shift x = 2 ^ 24 - 1 := by
  rw [← unit_period]
  apply minimalPeriod_eq_of_card (s := seeds)
  · intro n
    exact mem_seeds (iterate_seed unit_seed n)
  · rw [unit_period]
    exact card_seeds
  · exact mem_seeds hx

/-! ## Section 3: The calls -/

/-- A register at the start of its sequence. -/
def start (seed mask : UInt32) (hseed : Seed seed) (hmask : mask.toNat < 2 ^ 24) : IndexLfsr :=
  ⟨seed, seed, mask, hseed, hseed, hmask⟩

/-- `next` of a build that checks the subtraction. -/
def checked_next (r : IndexLfsr) : Outcome (UInt32 × IndexLfsr) :=
  if r.lfsr = 0 then .panic "attempt to subtract with overflow" else r.next

/-- The values of `n` calls. -/
def calls : Nat → IndexLfsr → Outcome (List UInt32 × IndexLfsr)
  | 0, r => .ok ([], r)
  | n + 1, r => do
    let (value, r) ← r.checked_next
    let (values, r) ← calls n r
    return (value :: values, r)

/-- **The subtraction never underflows.** -/
theorem checked_next_eq (r : IndexLfsr) : r.checked_next = r.next := if_neg r.lfsr_seed.1

theorem next_eq (r : IndexLfsr) : r.next =
    if shift r.lfsr = r.initial then .panic "Too many peers created"
    else .ok ((r.lfsr - 1) ^^^ r.mask,
      { r with lfsr := shift r.lfsr, lfsr_seed := shift_seed r.lfsr_seed }) := rfl

/-- A call returns while the register is not back at its start. -/
theorem After.next_returns {n : Nat} {r : IndexLfsr} (h : After n r)
    (hfresh : shift^[n + 1] r.initial ≠ r.initial) :
    ∃ r', r.next = .ok (r.index n, r') ∧ After (n + 1) r' ∧ r'.initial = r.initial ∧
      r'.mask = r.mask := by
  have hne : shift r.lfsr ≠ r.initial := by
    rw [h.lfsr, ← iterate_succ_apply' shift]
    exact hfresh
  have hnext := r.next_eq
  rw [if_neg hne] at hnext
  obtain ⟨hvalue, hafter⟩ := h.next hnext
  exact ⟨_, hvalue ▸ hnext, hafter, rfl, rfl⟩

/-- The call that brings it back panics. -/
theorem After.next_panics {n : Nat} {r : IndexLfsr} (h : After n r)
    (hback : shift^[n + 1] r.initial = r.initial) :
    r.next = .panic "Too many peers created" := by
  rw [next_eq, if_pos]
  rw [h.lfsr, ← iterate_succ_apply' shift]
  exact hback

/-- **Calls in a row** return the values of the sequence, one after the other. -/
theorem After.calls_returns {n k : Nat} {r : IndexLfsr} (h : After k r)
    (hfresh : ∀ j, k < j → j ≤ k + n → shift^[j] r.initial ≠ r.initial) :
    ∃ r', r.calls n = .ok ((List.range' k n).map r.index, r') ∧ After (k + n) r' ∧
      r'.initial = r.initial ∧ r'.mask = r.mask := by
  induction n generalizing k r with
  | zero => exact ⟨r, rfl, h, rfl, rfl⟩
  | succ n ih =>
    obtain ⟨r₁, hnext, hafter, hinitial, hmask⟩ :=
      h.next_returns (hfresh (k + 1) (by omega) (by omega))
    obtain ⟨r₂, hcalls, hafter₂, hinitial₂, hmask₂⟩ := ih hafter fun j hlt hle => by
      rw [hinitial]
      exact hfresh j (by omega) (by omega)
    have hindex : r₁.index = r.index := funext (index_next hnext)
    refine ⟨r₂, ?_, ?_, hinitial₂.trans hinitial, hmask₂.trans hmask⟩
    · rw [calls, checked_next_eq, hnext, Outcome.ok_bind]
      dsimp only
      rw [hcalls, hindex]
      rfl
    · rw [← Nat.add_assoc, Nat.add_right_comm]
      exact hafter₂

/-- **The indices are used up only after all of them.**  From every seed, `2^24 - 2` calls return
    distinct 24-bit values, no subtraction underflows, and the next call panics. -/
theorem full_period {seed mask : UInt32} (hseed : Seed seed) (hmask : mask.toNat < 2 ^ 24) :
    ∃ values r, (start seed mask hseed hmask).calls (2 ^ 24 - 2) = .ok (values, r) ∧
      values.length = 2 ^ 24 - 2 ∧ values.Nodup ∧ (∀ v ∈ values, v.toNat < 2 ^ 24) ∧
      r.checked_next = .panic "Too many peers created" := by
  have hperiod := seed_period hseed
  have hstart : After 0 (start seed mask hseed hmask) :=
    ⟨rfl, fun k hpos hle => absurd hle (by omega)⟩
  obtain ⟨r, hcalls, hafter, hinitial, hrmask⟩ := hstart.calls_returns (n := 2 ^ 24 - 2) (by
    intro j hpos hle hback
    have hdvd : 2 ^ 24 - 1 ∣ j := hperiod ▸ IsPeriodicPt.minimalPeriod_dvd hback
    have := Nat.le_of_dvd hpos hdvd
    omega)
  rw [Nat.zero_add] at hafter
  have hindex : (start seed mask hseed hmask).index = r.index := by
    funext n
    rw [index, index, hinitial, hrmask]
  refine ⟨_, r, hcalls, ?_, ?_, ?_, ?_⟩
  · rw [List.length_map, List.length_range']
  · refine List.Nodup.map_on ?_ List.nodup_range'
    intro i hi j hj heq
    rw [hindex] at heq
    have hi := List.mem_range'_1.mp hi
    have hj := List.mem_range'_1.mp hj
    exact hafter.index_inj (by omega) (by omega) heq
  · intro v hv
    obtain ⟨n, _, rfl⟩ := List.mem_map.mp hv
    exact index_lt _ n
  · rw [checked_next_eq]
    apply hafter.next_panics
    have hsucc : 2 ^ 24 - 2 + 1 = 2 ^ 24 - 1 := by decide
    rw [hinitial, hsucc, ← hperiod]
    exact iterate_minimalPeriod

/-- The highest seed, without a mask. -/
theorem full_period_unmasked : ∃ values r,
    (start 0xffffff 0 ⟨by decide, by decide⟩ (by decide)).calls (2 ^ 24 - 2) = .ok (values, r) ∧
      values.length = 2 ^ 24 - 2 ∧ values.Nodup ∧ (∀ v ∈ values, v.toNat < 2 ^ 24) ∧
      r.checked_next = .panic "Too many peers created" :=
  full_period ⟨by decide, by decide⟩ (by decide)

end IndexLfsr

end PqBoringtun
