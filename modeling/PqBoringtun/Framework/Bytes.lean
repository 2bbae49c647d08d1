import Mathlib.Data.List.Basic
import Mathlib.Tactic.Ring

/-! # Byte strings and fixed-width integers

    Byte strings are lists of bytes.  A fixed-width unsigned integer is
    written to and read from a byte string in little-endian or big-endian
    order.  The lemmas are the ones a wire format needs: lengths, round
    trips and injectivity on the values that fit the width.
-/

/-- A byte string. -/
abbrev Bytes : Type := List UInt8

namespace Bytes

/-! ## Little-endian integers -/

/-- The `w` low bytes of `n`, least significant byte first. -/
def leBytes : Nat → Nat → Bytes
  | 0, _ => []
  | w + 1, n => UInt8.ofNat (n % 256) :: leBytes w (n / 256)

/-- The number a byte string spells, least significant byte first. -/
def leValue : Bytes → Nat
  | [] => 0
  | b :: bs => b.toNat + 256 * leValue bs

@[simp] theorem length_leBytes (w n : Nat) : (leBytes w n).length = w := by
  induction w generalizing n with
  | zero => rfl
  | succ w ih => simp [leBytes, ih]

theorem leValue_lt (bs : Bytes) : leValue bs < 256 ^ bs.length := by
  induction bs with
  | nil => simp [leValue]
  | cons b bs ih =>
    have hb : b.toNat < 256 := b.toNat_lt
    simp only [leValue, List.length_cons, pow_succ]
    omega

/-- Reading back a written integer keeps what fits the width. -/
theorem leValue_leBytes (w n : Nat) : leValue (leBytes w n) = n % 256 ^ w := by
  induction w generalizing n with
  | zero => simp [leBytes, leValue, Nat.mod_one]
  | succ w ih =>
    have hbyte : (UInt8.ofNat (n % 256)).toNat = n % 256 := by
      simp [UInt8.toNat_ofNat']
    rw [leBytes, leValue, ih, hbyte, pow_succ, Nat.mul_comm (256 ^ w) 256, Nat.mod_mul]

theorem leBytes_injective {w m n : Nat} (hm : m < 256 ^ w) (hn : n < 256 ^ w)
    (h : leBytes w m = leBytes w n) : m = n := by
  have := congrArg leValue h
  rwa [leValue_leBytes, leValue_leBytes, Nat.mod_eq_of_lt hm, Nat.mod_eq_of_lt hn] at this

/-- Writing back what was read reproduces the bytes. -/
theorem leBytes_leValue (bs : Bytes) : leBytes bs.length (leValue bs) = bs := by
  induction bs with
  | nil => rfl
  | cons b bs ih =>
    have hb : b.toNat < 256 := b.toNat_lt
    have hmod : (b.toNat + 256 * leValue bs) % 256 = b.toNat := by omega
    have hdiv : (b.toNat + 256 * leValue bs) / 256 = leValue bs := by omega
    simp [leBytes, leValue, hmod, hdiv, ih]

/-! ## Big-endian integers -/

/-- The `w` low bytes of `n`, most significant byte first. -/
def beBytes (w n : Nat) : Bytes := (leBytes w n).reverse

/-- The number a byte string spells, most significant byte first. -/
def beValue (bs : Bytes) : Nat := leValue bs.reverse

@[simp] theorem length_beBytes (w n : Nat) : (beBytes w n).length = w := by
  simp [beBytes]

theorem beValue_beBytes (w n : Nat) : beValue (beBytes w n) = n % 256 ^ w := by
  simp [beValue, beBytes, leValue_leBytes]

theorem beBytes_injective {w m n : Nat} (hm : m < 256 ^ w) (hn : n < 256 ^ w)
    (h : beBytes w m = beBytes w n) : m = n := by
  apply leBytes_injective hm hn
  simpa [beBytes] using h

/-- Zero bytes at the end multiply. -/
theorem beBytes_append_zeros (w k n : Nat) :
    beBytes w n ++ List.replicate k 0 = beBytes (w + k) (n * 256 ^ k) := by
  have hlow : leBytes (w + k) (n * 256 ^ k) = List.replicate k 0 ++ leBytes w n := by
    induction k with
    | zero => simp
    | succ k ih =>
      have hmod : n * 256 ^ (k + 1) % 256 = 0 := by
        rw [pow_succ, ← Nat.mul_assoc, Nat.mul_mod_left]
      have hdiv : n * 256 ^ (k + 1) / 256 = n * 256 ^ k := by
        rw [pow_succ, ← Nat.mul_assoc, Nat.mul_div_cancel _ (by decide)]
      rw [← Nat.add_assoc, leBytes, hmod, hdiv, ih, List.replicate_succ]
      rfl
  rw [beBytes, beBytes, hlow, List.reverse_append, List.reverse_replicate]

theorem beValue_lt (bs : Bytes) : beValue bs < 256 ^ bs.length := by
  have := leValue_lt bs.reverse
  simpa [beValue] using this

/-! ## Slices -/

/-- The half-open range `[lo, hi)` of a byte string. -/
def slice (bs : Bytes) (lo hi : Nat) : Bytes := (bs.drop lo).take (hi - lo)

theorem length_slice (bs : Bytes) (lo hi : Nat) :
    (slice bs lo hi).length = min (hi - lo) (bs.length - lo) := by
  simp [slice]

theorem length_slice_of_le {bs : Bytes} {lo hi : Nat} (h : hi ≤ bs.length) :
    (slice bs lo hi).length = hi - lo := by
  rw [length_slice]; omega

/-- A range that lies behind the first `a.length` bytes is a range of the rest. -/
theorem slice_append_right (a b : Bytes) {lo hi : Nat} (h : a.length ≤ lo) :
    slice (a ++ b) lo hi = slice b (lo - a.length) (hi - a.length) := by
  unfold slice
  rw [List.drop_append, List.drop_eq_nil_of_le h, List.nil_append]
  congr 1
  omega

/-- The range that starts at `0` and is exactly as long as the first part. -/
theorem slice_append_left (a b : Bytes) : slice (a ++ b) 0 a.length = a := by
  simp [slice]

/-- Two adjacent ranges. -/
theorem slice_append_slice (bs : Bytes) {lo mid hi : Nat} (h : lo ≤ mid) (h' : mid ≤ hi) :
    slice bs lo mid ++ slice bs mid hi = slice bs lo hi := by
  obtain ⟨n, rfl⟩ := Nat.exists_eq_add_of_le h
  obtain ⟨m, rfl⟩ := Nat.exists_eq_add_of_le h'
  unfold slice
  rw [show lo + n - lo = n by omega, show lo + n + m - (lo + n) = m by omega,
    show lo + n + m - lo = n + m by omega, ← List.drop_drop, List.take_add]

/-- A range from the start and the rest. -/
theorem slice_append_drop (bs : Bytes) (n : Nat) : slice bs 0 n ++ bs.drop n = bs := by
  simp [slice]

end Bytes
