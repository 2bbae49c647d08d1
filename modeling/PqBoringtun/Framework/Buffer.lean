import PqBoringtun.Framework.Bytes
import PqBoringtun.Framework.Outcome

/-! # Slices that check their bounds

    Byte slices as a language with bounds checks treats them: a range outside
    of a slice, a split behind its end and a copy between slices of different
    lengths panic.  For each operation there is the equation for a check that
    passes.

    A message is written by cutting its buffer into fields and copying one
    content into each: `split_fields`, then `fill`.
-/

namespace Bytes

/-- `&bs[lo..hi]` -/
def range (bs : Bytes) (lo hi : Nat) : Outcome { r : Bytes // r.length = hi - lo } :=
  if h : lo ≤ hi ∧ hi ≤ bs.length then .ok ⟨slice bs lo hi, length_slice_of_le h.2⟩
  else .panic "range end index out of range for slice"

/-- `bs.split_at(mid)` -/
def split_at (bs : Bytes) (mid : Nat) : Outcome (Bytes × Bytes) :=
  if mid ≤ bs.length then .ok (bs.take mid, bs.drop mid) else .panic "mid > len"

/-- `dst.copy_from_slice(src)`: what `dst` holds afterwards. -/
def copy_from_slice (dst src : Bytes) : Outcome Bytes :=
  if src.length = dst.length then .ok src
  else .panic "source slice length does not match destination slice length"

/-- `bs.try_into().expect(msg)`, for an array of `n` bytes. -/
def try_into (bs : Bytes) (n : Nat) (msg : String) : Outcome { a : Bytes // a.length = n } :=
  if h : bs.length = n then .ok ⟨bs, h⟩ else .panic msg

/-- Cut off fields of the given widths, one after the other; the fields and the rest. -/
def split_fields (bs : Bytes) : List Nat → Outcome (List Bytes × Bytes)
  | [] => .ok ([], bs)
  | width :: widths => do
    let (field, rest) ← bs.split_at width
    let (fields, rest) ← rest.split_fields widths
    return (field :: fields, rest)

/-- Copy one content into each field; the fields afterwards, written one after the other. -/
def fill : List Bytes → List Bytes → Outcome Bytes
  | field :: fields, content :: contents => do
    let field ← copy_from_slice field content
    let rest ← fill fields contents
    return field ++ rest
  | _, _ => .ok []

variable {bs : Bytes}

theorem range_ok {lo hi : Nat} (hle : lo ≤ hi) (hhi : hi ≤ bs.length) :
    bs.range lo hi = .ok ⟨slice bs lo hi, length_slice_of_le hhi⟩ := dif_pos ⟨hle, hhi⟩

theorem split_at_ok {mid : Nat} (h : mid ≤ bs.length) :
    bs.split_at mid = .ok (bs.take mid, bs.drop mid) := if_pos h

theorem copy_from_slice_ok {dst src : Bytes} (h : src.length = dst.length) :
    copy_from_slice dst src = .ok src := if_pos h

theorem try_into_ok {n : Nat} (h : bs.length = n) (msg : String) :
    bs.try_into n msg = .ok ⟨bs, h⟩ := dif_pos h

/-- The fields fit into the buffer. -/
theorem split_fields_ok (bs : Bytes) (widths : List Nat) (h : widths.sum ≤ bs.length) :
    ∃ fields, bs.split_fields widths = .ok (fields, bs.drop widths.sum) ∧
      fields.map List.length = widths := by
  induction widths generalizing bs with
  | nil => exact ⟨[], rfl, rfl⟩
  | cons width widths ih =>
    rw [List.sum_cons] at h
    obtain ⟨fields, hsplit, hwidths⟩ := ih (bs.drop width) (by rw [List.length_drop]; omega)
    refine ⟨bs.take width :: fields, ?_, ?_⟩
    · rw [split_fields, split_at_ok (by omega), Outcome.ok_bind]
      dsimp only
      rw [hsplit, Outcome.ok_bind, List.drop_drop, List.sum_cons]
      rfl
    · rw [List.map_cons, hwidths, List.length_take, Nat.min_eq_left (by omega)]

/-- Each content is as long as its field. -/
theorem fill_ok {fields contents : List Bytes}
    (h : fields.map List.length = contents.map List.length) :
    fill fields contents = .ok contents.flatten := by
  induction fields generalizing contents with
  | nil =>
    cases contents with
    | nil => rfl
    | cons content contents => cases h
  | cons field fields ih =>
    cases contents with
    | nil => cases h
    | cons content contents =>
      rw [List.map_cons, List.map_cons, List.cons.injEq] at h
      rw [fill, copy_from_slice_ok h.1.symm, Outcome.ok_bind, ih h.2]
      rfl

/-- The message at the start of a buffer. -/
theorem range_append {message : Bytes} {n : Nat} (h : message.length = n) (rest : Bytes) :
    (message ++ rest).range 0 n = .ok ⟨message, h⟩ := by
  subst h
  rw [range_ok (Nat.zero_le _) (by simp)]
  congr 2
  exact slice_append_left message rest

end Bytes
