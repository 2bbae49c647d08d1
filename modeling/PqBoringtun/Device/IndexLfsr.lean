import Mathlib.Algebra.Group.Nat.Defs
import Mathlib.Logic.Function.Iterate
import PqBoringtun.Framework.Outcome

/-! # Peer indices

    Model of `IndexLfsr` in `device/mod.rs`.  The register runs through
    non-zero 24-bit values (`Seed`); on these its step is injective, so the
    first value that returns is the initial one, which the assertion in
    `next` catches.
-/

namespace PqBoringtun

/-- 24 bits and not zero, as `random_index` generates. -/
def Seed (x : UInt32) : Prop := x ≠ 0 ∧ x.toNat < 2 ^ 24

/-- 24-bit polynomial for randomness. -/
def LFSR_POLY : UInt32 := 0xd80000

/-- A basic linear-feedback shift register implemented as xorshift, used to
    distribute peer indexes across the 24-bit address space reserved for peer
    identification. -/
structure IndexLfsr where
  initial : UInt32
  lfsr : UInt32
  mask : UInt32
  initial_seed : Seed initial
  lfsr_seed : Seed lfsr
  mask_small : mask.toNat < 2 ^ 24

namespace IndexLfsr

/-- One step of the register. -/
def shift (lfsr : UInt32) : UInt32 := (lfsr >>> 1) ^^^ ((0 - (lfsr &&& 1)) &&& LFSR_POLY)

/-! ## Section 1: One step -/

/-- The bits of a step: the register moves down by one, and the polynomial is added when the
    lowest bit falls out. -/
theorem getLsbD_shift (x : UInt32) (i : Nat) : (shift x).toBitVec.getLsbD i
    = (x.toBitVec.getLsbD (i + 1) ^^ (x.toBitVec.getLsbD 0 && LFSR_POLY.toBitVec.getLsbD i)) := by
  have hbits : (shift x).toBitVec = (x.toBitVec >>> 1)
      ^^^ ((0 - (x.toBitVec &&& 1#32)) &&& LFSR_POLY.toBitVec) := rfl
  have hmask : (0 - (x.toBitVec &&& 1#32)) &&& LFSR_POLY.toBitVec
      = if x.toBitVec.getLsbD 0 then LFSR_POLY.toBitVec else 0 := by
    rw [BitVec.and_one_eq_setWidth_ofBool_getLsbD]
    cases x.toBitVec.getLsbD 0 <;> rfl
  rw [hbits, hmask, BitVec.getLsbD_xor, BitVec.getLsbD_ushiftRight, Nat.add_comm]
  cases x.toBitVec.getLsbD 0 <;> simp

/-- The bits above the 24th of a small number. -/
theorem getLsbD_small {x : UInt32} (hx : x.toNat < 2 ^ 24) {i : Nat} (hi : 24 ≤ i) :
    x.toBitVec.getLsbD i = false :=
  Nat.testBit_lt_two_pow (Nat.lt_of_lt_of_le hx (Nat.pow_le_pow_right (by decide) hi))

theorem shift_small {x : UInt32} (hx : x.toNat < 2 ^ 24) : (shift x).toNat < 2 ^ 24 := by
  apply Nat.lt_pow_two_of_testBit
  intro i hi
  show (shift x).toBitVec.getLsbD i = false
  have hpoly : LFSR_POLY.toBitVec.getLsbD i = false := getLsbD_small (by decide) hi
  rw [getLsbD_shift, getLsbD_small hx (Nat.le_succ_of_le hi), hpoly]
  simp

/-- **The step is injective** on 24 bits: the highest bit of the result tells the lowest one of the
    argument. -/
theorem shift_injOn {x y : UInt32} (hx : x.toNat < 2 ^ 24) (hy : y.toNat < 2 ^ 24)
    (h : shift x = shift y) : x = y := by
  have hbit : ∀ i, (x.toBitVec.getLsbD (i + 1)
      ^^ (x.toBitVec.getLsbD 0 && LFSR_POLY.toBitVec.getLsbD i))
      = (y.toBitVec.getLsbD (i + 1)
        ^^ (y.toBitVec.getLsbD 0 && LFSR_POLY.toBitVec.getLsbD i)) := by
    intro i
    rw [← getLsbD_shift, ← getLsbD_shift, h]
  have hlow : x.toBitVec.getLsbD 0 = y.toBitVec.getLsbD 0 := by
    have htop := hbit 23
    have hpoly : LFSR_POLY.toBitVec.getLsbD 23 = true := by decide
    rw [getLsbD_small hx (by decide), getLsbD_small hy (by decide), hpoly] at htop
    simpa using htop
  apply UInt32.toBitVec_inj.mp
  apply BitVec.eq_of_getLsbD_eq
  intro i _
  cases i with
  | zero => exact hlow
  | succ i =>
    have hi := hbit i
    rw [hlow] at hi
    simpa using hi

/-- The register stays a seed: only zero is stepped to zero. -/
theorem shift_seed {x : UInt32} (hx : Seed x) : Seed (shift x) := by
  refine ⟨?_, shift_small hx.2⟩
  intro hzero
  exact hx.1 (shift_injOn (y := 0) hx.2 (by decide) hzero)

/-- Generate the next value in the pseudorandom sequence. -/
def next (r : IndexLfsr) : Outcome (UInt32 × IndexLfsr) :=
  -- lfsr will never have value of 0
  let value := r.lfsr - 1
  let lfsr := shift r.lfsr
  if lfsr = r.initial then .panic "Too many peers created"
  else .ok (value ^^^ r.mask, { r with lfsr := lfsr, lfsr_seed := shift_seed r.lfsr_seed })

/-- `Default`, with the two random indices. -/
def default (seed mask : UInt32) (hseed : Seed seed) (hmask : Seed mask) : IndexLfsr :=
  ⟨seed, seed, mask, hseed, hseed, hmask.2⟩

/-! ## Section 2: The sequence of indices -/

/-- The `n`-th value of a sequence. -/
def index (r : IndexLfsr) (n : Nat) : UInt32 := (shift^[n] r.initial - 1) ^^^ r.mask

/-- The register after `n` values, none of which has brought it back to its start. -/
structure After (n : Nat) (r : IndexLfsr) : Prop where
  lfsr : r.lfsr = shift^[n] r.initial
  fresh : ∀ k, 0 < k → k ≤ n → shift^[k] r.initial ≠ r.initial

theorem iterate_seed {x : UInt32} (hx : Seed x) (n : Nat) : Seed (shift^[n] x) := by
  induction n with
  | zero => exact hx
  | succ n ih =>
    rw [Function.iterate_succ_apply']
    exact shift_seed ih

theorem iterate_injOn {x y : UInt32} (hx : Seed x) (hy : Seed y) {n : Nat}
    (h : shift^[n] x = shift^[n] y) : x = y := by
  induction n with
  | zero => exact h
  | succ n ih =>
    rw [Function.iterate_succ_apply', Function.iterate_succ_apply'] at h
    exact ih (shift_injOn (iterate_seed hx n).2 (iterate_seed hy n).2 h)

theorem After.default {seed mask : UInt32} (hseed : Seed seed) (hmask : Seed mask) :
    After 0 (default seed mask hseed hmask) where
  lfsr := rfl
  fresh := by
    intro k hpos hle
    omega

/-- **A call that returns** yields the next value of the same sequence. -/
theorem After.next {n : Nat} {r r' : IndexLfsr} {v : UInt32} (h : After n r)
    (hnext : r.next = .ok (v, r')) :
    v = r.index n ∧ After (n + 1) r' := by
  unfold IndexLfsr.next at hnext
  dsimp only at hnext
  split at hnext
  · cases hnext
  · rename_i hne
    cases hnext
    have hlfsr : shift r.lfsr = shift^[n + 1] r.initial := by
      rw [h.lfsr, Function.iterate_succ_apply']
    refine ⟨?_, hlfsr, ?_⟩
    · rw [index, ← h.lfsr]
    · intro k hpos hle
      by_cases hk : k = n + 1
      · subst hk
        rw [← hlfsr]
        exact hne
      · exact h.fresh k hpos (by omega)

/-- The values stay the same along the sequence. -/
theorem index_next {r r' : IndexLfsr} {v : UInt32} (h : r.next = .ok (v, r')) (n : Nat) :
    r'.index n = r.index n := by
  unfold IndexLfsr.next at h
  dsimp only at h
  split at h
  · cases h
  · cases h
    rfl

/-- **The values are distinct**: the first one to return would have been the initial one. -/
theorem After.index_inj {n : Nat} {r : IndexLfsr} (h : After n r) {i j : Nat} (hi : i < n)
    (hj : j < n) (heq : r.index i = r.index j) : i = j := by
  have hiter : shift^[i] r.initial = shift^[j] r.initial := by
    have hxor : shift^[i] r.initial - 1 = shift^[j] r.initial - 1 :=
      (UInt32.xor_left_inj r.mask).mp heq
    exact (UInt32.sub_left_inj 1).mp hxor
  have hcase : ∀ {i j}, i < j → j < n → shift^[i] r.initial = shift^[j] r.initial → False := by
    intro i j hlt hj hiter
    obtain ⟨k, rfl⟩ := Nat.exists_eq_add_of_lt hlt
    rw [show i + k + 1 = i + (k + 1) from rfl, Function.iterate_add_apply] at hiter
    have hback := iterate_injOn r.initial_seed (iterate_seed r.initial_seed _) hiter
    exact h.fresh (k + 1) (by omega) (by omega) hback.symm
  rcases Nat.lt_trichotomy i j with hlt | heq | hlt
  · exact (hcase hlt hj hiter).elim
  · exact heq
  · exact (hcase hlt hi hiter.symm).elim

/-- **The values have 24 bits.** -/
theorem index_lt (r : IndexLfsr) (n : Nat) : (r.index n).toNat < 2 ^ 24 := by
  have hseed := iterate_seed r.initial_seed n
  rw [index, UInt32.toNat_xor]
  refine Nat.xor_lt_two_pow ?_ r.mask_small
  have hpos : (1 : UInt32) ≤ shift^[n] r.initial := by
    apply UInt32.le_iff_toNat_le.mpr
    apply Nat.one_le_iff_ne_zero.mpr
    intro hzero
    exact hseed.1 (UInt32.toNat_inj.mp hzero)
  rw [UInt32.toNat_sub_of_le _ _ hpos]
  have := hseed.2
  omega

end IndexLfsr

end PqBoringtun
