import Mathlib.Data.List.Pairwise
import Mathlib.Data.Nat.Basic

/-! # Budgets that are refilled

    A budget grants the first `limit` requests after every refill.  A history
    is the list of its requests and refills with the times they took effect.

    - `Follows.granted_le`: a history with `r` refills has at most
      `limit * (1 + r)` granted requests.
    - `Follows.granted_within`: with a non-decreasing clock and refills at
      least `d` apart, at most `limit * (len / d + 2)` of them lie in an
      interval of length `len`.
-/

namespace Budget

/-- A request, granted or not, or a refill. -/
inductive Action where
  | request (granted : Bool)
  | refill
  deriving DecidableEq, Repr

/-- What happened, and when. -/
abbrev History : Type := List (Nat × Action)

/-- A history of a budget with `used` requests since the last refill. -/
inductive Follows (limit : Nat) : Nat → History → Prop where
  | nil {used : Nat} : Follows limit used []
  | request {used time : Nat} {h : History} (rest : Follows limit (used + 1) h) :
      Follows limit used ((time, .request (decide (used < limit))) :: h)
  | refill {used time : Nat} {h : History} (rest : Follows limit 0 h) :
      Follows limit used ((time, .refill) :: h)

/-- The number of granted requests. -/
def granted (h : History) : Nat := h.countP fun x => x.2 = .request true

/-- The number of refills. -/
def refills (h : History) : Nat := h.countP fun x => x.2 = .refill

/-- The part of a history inside of an interval. -/
def within (start len : Nat) (h : History) : History :=
  h.filter fun x => start ≤ x.1 ∧ x.1 ≤ start + len

variable {limit used : Nat} {h : History}

/-- **A budget grants `limit` requests per refill.**  The requests since the last refill are part
    of the potential, up to the limit. -/
theorem Follows.granted_add_le (hf : Follows limit used h) :
    granted h + min used limit ≤ limit * (1 + refills h) := by
  induction hf with
  | nil =>
    simp only [granted, refills, List.countP_nil]
    omega
  | @request used time h rest ih =>
    by_cases hlt : used < limit
    · have hg : granted ((time, .request (decide (used < limit))) :: h) = granted h + 1 := by
        simp [granted, hlt]
      have hr : refills ((time, .request (decide (used < limit))) :: h) = refills h := by
        simp [refills]
      rw [hg, hr]
      omega
    · have hg : granted ((time, .request (decide (used < limit))) :: h) = granted h := by
        simp [granted, hlt]
      have hr : refills ((time, .request (decide (used < limit))) :: h) = refills h := by
        simp [refills]
      rw [hg, hr]
      omega
  | @refill used time h rest ih =>
    have hg : granted ((time, .refill) :: h) = granted h := by simp [granted]
    have hr : refills ((time, .refill) :: h) = refills h + 1 := by simp [refills]
    rw [hg, hr, ← Nat.add_assoc, Nat.mul_succ]
    omega

theorem Follows.granted_le (hf : Follows limit used h) :
    granted h ≤ limit * (1 + refills h) := by
  have := hf.granted_add_le
  omega

/-! ## Intervals -/

/-- The clock of a history never goes back. -/
def Monotone (h : History) : Prop := h.Pairwise fun x y => x.1 ≤ y.1

/-- Refills are at least `d` apart. -/
def Spaced (d : Nat) (h : History) : Prop :=
  h.Pairwise fun x y => x.2 = .refill → y.2 = .refill → x.1 + d ≤ y.1

/-- A part of a history is a history. -/
theorem Follows.piece {part : History} (hf : Follows limit used h) (hpart : part <:+: h) :
    ∃ used', Follows limit used' part := by
  obtain ⟨before, after, rfl⟩ := hpart
  rw [List.append_assoc] at hf
  -- first go behind the part before it, then cut off what follows
  induction before generalizing used with
  | nil =>
    refine ⟨used, ?_⟩
    induction part generalizing used with
    | nil => exact .nil
    | cons x part ih =>
      cases hf with
      | request rest => exact .request (ih rest)
      | refill rest => exact .refill (ih rest)
  | cons x before ih =>
    cases hf with
    | request rest => exact ih rest
    | refill rest => exact ih rest

/-- From the start of an interval on, its part is a first part of the history. -/
theorem within_initial {start len : Nat} (hmono : Monotone h) (hstart : ∀ x ∈ h, start ≤ x.1) :
    within start len h <+: h := by
  induction h with
  | nil => exact List.prefix_refl _
  | cons x h ih =>
    obtain ⟨hlater, hmono⟩ := List.pairwise_cons.mp hmono
    have hx := hstart x (List.mem_cons_self ..)
    have hih := ih hmono fun y hy => hstart y (List.mem_cons_of_mem _ hy)
    by_cases hin : x.1 ≤ start + len
    · have hkeep : within start len (x :: h) = x :: within start len h := by
        simp [within, hx, hin]
      rw [hkeep]
      exact List.cons_prefix_cons.mpr ⟨rfl, hih⟩
    · have hnil : within start len (x :: h) = [] := by
        apply List.filter_eq_nil_iff.mpr
        intro y hy
        have hle : x.1 ≤ y.1 := by
          rcases List.mem_cons.mp hy with rfl | hy
          · exact Nat.le_refl _
          · exact hlater y hy
        simp only [decide_eq_true_eq]
        omega
      rw [hnil]
      exact List.nil_prefix

/-- The part of a history inside of an interval is one piece of it. -/
theorem within_piece (start len : Nat) (hmono : Monotone h) : within start len h <:+: h := by
  induction h with
  | nil => exact List.infix_refl _
  | cons x h ih =>
    by_cases hstart : start ≤ x.1
    · refine (within_initial hmono fun y hy => ?_).isInfix
      rcases List.mem_cons.mp hy with rfl | hy
      · exact hstart
      · exact Nat.le_trans hstart ((List.pairwise_cons.mp hmono).1 y hy)
    · have hskip : within start len (x :: h) = within start len h := by
        simp [within, hstart]
      rw [hskip]
      exact List.infix_cons (ih (List.pairwise_cons.mp hmono).2)

/-- Refills that are `d` apart and lie in an interval. -/
theorem refills_le {d start len : Nat} (hd : 0 < d) (hspaced : Spaced d h)
    (hin : ∀ x ∈ h, start ≤ x.1 ∧ x.1 ≤ start + len) : refills h ≤ len / d + 1 := by
  -- the first refill and the room behind it
  have hroom : ∀ first, (∀ x ∈ h, x.2 = .refill → first ≤ x.1) → first ≤ start + len + d →
      first + refills h * d ≤ start + len + d := by
    induction h with
    | nil =>
      intro first _ hfirst
      simpa [refills] using hfirst
    | cons x h ih =>
      obtain ⟨hnext, hspaced⟩ := List.pairwise_cons.mp hspaced
      have hih := ih hspaced fun y hy => hin y (List.mem_cons_of_mem _ hy)
      intro first hfirst hle
      by_cases hrefill : x.2 = .refill
      · have hx := hfirst x (List.mem_cons_self ..) hrefill
        have hx' := (hin x (List.mem_cons_self ..)).2
        have := hih (x.1 + d) (fun y hy => hnext y hy hrefill) (by omega)
        have hcount : refills (x :: h) = refills h + 1 := by simp [refills, hrefill]
        rw [hcount, Nat.succ_mul]
        omega
      · have hcount : refills (x :: h) = refills h := by simp [refills, hrefill]
        rw [hcount]
        exact hih first (fun y hy => hfirst y (List.mem_cons_of_mem _ hy)) hle
  have hall := hroom start (fun x hx _ => (hin x hx).1) (by omega)
  have hmul : refills h * d ≤ len + d := by omega
  calc refills h = refills h * d / d := (Nat.mul_div_cancel _ hd).symm
    _ ≤ (len + d) / d := Nat.div_le_div_right hmul
    _ = len / d + 1 := Nat.add_div_right _ hd

/-- **A budget bounds the rate.** -/
theorem Follows.granted_within {d : Nat} (hd : 0 < d) (hf : Follows limit used h)
    (hmono : Monotone h) (hspaced : Spaced d h) (start len : Nat) :
    granted (within start len h) ≤ limit * (len / d + 2) := by
  have hpart := within_piece start len hmono
  obtain ⟨used', hf'⟩ := hf.piece hpart
  have hin : ∀ x ∈ within start len h, start ≤ x.1 ∧ x.1 ≤ start + len := by
    intro x hx
    simpa using (List.mem_filter.mp hx).2
  have hrefills := refills_le hd (hspaced.sublist hpart.sublist) hin
  calc granted (within start len h) ≤ limit * (1 + refills (within start len h)) := hf'.granted_le
    _ ≤ limit * (len / d + 2) := Nat.mul_le_mul_left _ (by omega)

end Budget
