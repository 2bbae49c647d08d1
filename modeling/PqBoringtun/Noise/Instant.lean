import Mathlib.Data.Int.Basic

/-! # Clock readings

    Model of `sleepyinstant/unix.rs`.  A reading of the clock is a `timespec`;
    the tunnel only ever takes the difference of two of them.  The rest of
    the development counts a reading in nanoseconds: the difference of two
    readings is then the truncated subtraction of natural numbers.
-/

namespace PqBoringtun

def NANOSECOND : Int := 1000000000

/-- A reading of the clock: a `timespec` of a clock that started at zero. -/
structure Instant where
  tv_sec : Int
  tv_nsec : Int
  sec_nonneg : 0 ≤ tv_sec
  nsec_nonneg : 0 ≤ tv_nsec
  nsec_lt : tv_nsec < NANOSECOND

namespace Instant

/-- Seconds and nanoseconds of the difference, `none` if `earlier` is later. -/
def checked_duration_since (self earlier : Instant) : Option (Nat × Nat) :=
  let (tv_sec, tv_nsec) :=
    if self.tv_nsec < earlier.tv_nsec then
      (self.tv_sec - earlier.tv_sec - 1, self.tv_nsec - earlier.tv_nsec + NANOSECOND)
    else (self.tv_sec - earlier.tv_sec, self.tv_nsec - earlier.tv_nsec)
  if tv_sec < 0 then none else some (tv_sec.toNat, tv_nsec.toNat)

/-- The nanoseconds of a `Duration`. -/
def as_nanos (duration : Nat × Nat) : Nat := duration.1 * 1000000000 + duration.2

/-- Zero if `earlier` is later. -/
def duration_since (self earlier : Instant) : Nat :=
  ((self.checked_duration_since earlier).map as_nanos).getD 0

/-- The reading in nanoseconds. -/
def nanos (self : Instant) : Nat := as_nanos (self.tv_sec.toNat, self.tv_nsec.toNat)

/-- **The difference of two readings.** -/
theorem duration_since_eq (self earlier : Instant) :
    self.duration_since earlier = self.nanos - earlier.nanos := by
  have h₁ := self.sec_nonneg
  have h₂ := self.nsec_nonneg
  have h₃ := self.nsec_lt
  have h₄ := earlier.sec_nonneg
  have h₅ := earlier.nsec_nonneg
  have h₆ := earlier.nsec_lt
  unfold duration_since checked_duration_since nanos as_nanos
  unfold NANOSECOND at *
  -- The borrow of one second, then the sign of the seconds
  by_cases hborrow : self.tv_nsec < earlier.tv_nsec
  · rw [if_pos hborrow]
    dsimp only
    by_cases hneg : self.tv_sec - earlier.tv_sec - 1 < 0
    · rw [if_pos hneg]
      simp only [Option.map_none, Option.getD_none]
      omega
    · rw [if_neg hneg]
      simp only [Option.map_some, Option.getD_some]
      omega
  · rw [if_neg hborrow]
    dsimp only
    by_cases hneg : self.tv_sec - earlier.tv_sec < 0
    · rw [if_pos hneg]
      simp only [Option.map_none, Option.getD_none]
      omega
    · rw [if_neg hneg]
      simp only [Option.map_some, Option.getD_some]
      omega

end Instant

end PqBoringtun
