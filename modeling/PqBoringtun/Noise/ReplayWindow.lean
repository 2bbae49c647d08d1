import PqBoringtun.Framework.Window
import PqBoringtun.Noise.Session

/-! # The replay window refines the set of accepted counters

    `ReceivingKeyCounterValidator` keeps a ring of 1024 bits and the next
    expected counter.  `Tracks v R` connects it to the plain finite set `R`
    of the counters it accepted: `next` is the top of `R`, and inside the
    window the bit of a counter says whether it is in `R`.

    * Section 1: one lemma per bit operation.
    * Section 2: what the three clearing loops clear.
    * Section 3: one call of `mark_did_receive` or `will_accept`.
    * Section 4: runs of calls.
-/

namespace PqBoringtun
namespace ReceivingKeyCounterValidator

open Window

variable (v : ReceivingKeyCounterValidator)

/-! ## Section 1: Bit operations -/

theorem bit_lt (idx : Nat) : bit idx < 64 := Nat.mod_lt _ (by decide)

/-- A counter owns one bit of the ring: equal positions are equal residues. -/
theorem word_bit_eq_iff (x y : Nat) :
    word x = word y ∧ bit x = bit y ↔ x % N_BITS = y % N_BITS := by
  simp only [word, bit, N_BITS, WORD_SIZE, N_WORDS, Fin.mk.injEq]
  omega

theorem getLsbD_one_shiftLeft {i j : Nat} (hj : j < 64) :
    (1#64 <<< i).getLsbD j = decide (j = i) := by
  rw [Bool.eq_iff_iff]
  simp only [BitVec.getLsbD_shiftLeft, BitVec.getLsbD_one, Bool.and_eq_true, Bool.not_eq_true',
    decide_eq_true_eq, decide_eq_false_iff_not]
  omega

theorem check_bit_set_bit (i x : Nat) :
    (v.set_bit i).check_bit x = true ↔ x % N_BITS = i % N_BITS ∨ v.check_bit x = true := by
  rw [check_bit_eq, check_bit_eq, ← word_bit_eq_iff]
  by_cases hw : word x = word i
  · have hword : (v.set_bit i).bitmap[word x] = v.bitmap[word i] ||| 1#64 <<< bit i := by
      simp [set_bit, hw]
    rw [hword, BitVec.getLsbD_or, getLsbD_one_shiftLeft (bit_lt x)]
    simp [hw, or_comm]
  · have hw' : (word i).val ≠ (word x).val := fun h => hw (Fin.ext h.symm)
    simp [set_bit, hw, hw']

theorem check_bit_clear_bit (i x : Nat) :
    (v.clear_bit i).check_bit x = true ↔ v.check_bit x = true ∧ x % N_BITS ≠ i % N_BITS := by
  rw [check_bit_eq, check_bit_eq, ne_eq, ← word_bit_eq_iff]
  by_cases hw : word x = word i
  · have hword : (v.clear_bit i).bitmap[word x] = v.bitmap[word i] &&& ~~~(1#64 <<< bit i) := by
      simp [clear_bit, hw]
    rw [hword, BitVec.getLsbD_and, BitVec.getLsbD_not, getLsbD_one_shiftLeft (bit_lt x)]
    simp [hw, bit_lt x]
  · have hw' : (word i).val ≠ (word x).val := fun h => hw (Fin.ext h.symm)
    simp [clear_bit, hw, hw']

theorem check_bit_clear_word (i x : Nat) :
    (v.clear_word i).check_bit x = true ↔ v.check_bit x = true ∧ word x ≠ word i := by
  rw [check_bit_eq, check_bit_eq]
  by_cases hw : word x = word i
  · simp [clear_word, hw]
  · have hw' : (word i).val ≠ (word x).val := fun h => hw (Fin.ext h.symm)
    simp [clear_word, hw, hw']

theorem check_bit_replicate_zero (x : Nat) :
    ({ v with bitmap := Vector.replicate 16 0 } : ReceivingKeyCounterValidator).check_bit x
      = false := by
  rw [check_bit_eq]
  simp

/-! ## Section 2: The clearing loops -/

/-- `v'` is `v` with the bits of the counters in `[lo, hi)` cleared. -/
structure Cleared (v v' : ReceivingKeyCounterValidator) (lo hi : Nat) : Prop where
  next_eq : v'.next = v.next
  receive_cnt_eq : v'.receive_cnt = v.receive_cnt
  check_bit_iff : ∀ x, v'.check_bit x = true ↔
    v.check_bit x = true ∧ ∀ j, lo ≤ j → j < hi → x % N_BITS ≠ j % N_BITS

variable {v}

theorem Cleared.refl (v : ReceivingKeyCounterValidator) (lo : Nat) : Cleared v v lo lo :=
  ⟨rfl, rfl, fun x => ⟨fun h => ⟨h, fun j h₁ h₂ => by omega⟩, fun h => h.1⟩⟩

theorem Cleared.trans {v₁ v₂ v₃ : ReceivingKeyCounterValidator} {lo mid hi : Nat}
    (hlo : lo ≤ mid) (hhi : mid ≤ hi)
    (h₁ : Cleared v₁ v₂ lo mid) (h₂ : Cleared v₂ v₃ mid hi) : Cleared v₁ v₃ lo hi := by
  refine ⟨h₂.next_eq.trans h₁.next_eq, h₂.receive_cnt_eq.trans h₁.receive_cnt_eq, ?_⟩
  intro x
  rw [h₂.check_bit_iff, h₁.check_bit_iff]
  constructor
  · rintro ⟨⟨hx, hlow⟩, hhigh⟩
    refine ⟨hx, fun j hj hjh => ?_⟩
    by_cases hm : j < mid
    · exact hlow j hj hm
    · exact hhigh j (by omega) hjh
  · rintro ⟨hx, hall⟩
    exact ⟨⟨hx, fun j hj hjm => hall j hj (by omega)⟩, fun j hj hjh => hall j (by omega) hjh⟩

theorem cleared_clear_bit (v : ReceivingKeyCounterValidator) (i : Nat) :
    Cleared v (v.clear_bit i) i (i + 1) := by
  refine ⟨rfl, rfl, fun x => ?_⟩
  rw [check_bit_clear_bit]
  constructor
  · rintro ⟨hx, hne⟩
    refine ⟨hx, fun j hj hjl => ?_⟩
    have : j = i := by omega
    rw [this]; exact hne
  · rintro ⟨hx, hall⟩
    exact ⟨hx, hall i (Nat.le_refl i) (Nat.lt_succ_self i)⟩

/-- A word that starts at an aligned counter holds the next 64 counters. -/
theorem cleared_clear_word (v : ReceivingKeyCounterValidator) {i : Nat} (hi : i % WORD_SIZE = 0) :
    Cleared v (v.clear_word i) i (i + WORD_SIZE) := by
  refine ⟨rfl, rfl, fun x => ?_⟩
  rw [check_bit_clear_word]
  simp only [WORD_SIZE] at hi ⊢
  constructor
  · rintro ⟨hx, hne⟩
    refine ⟨hx, fun j hj hjl hmod => hne ?_⟩
    simp only [word, N_BITS, WORD_SIZE, N_WORDS, Fin.mk.injEq] at hmod ⊢
    omega
  · rintro ⟨hx, hall⟩
    refine ⟨hx, fun heq => hall (i + x % 64) (by omega) (by omega) ?_⟩
    simp only [word, N_BITS, WORD_SIZE, N_WORDS, Fin.mk.injEq] at heq ⊢
    omega

/-- The mask of the word loop does nothing to an aligned counter. -/
theorem and_word_mask {n : Nat} (hn : n % WORD_SIZE = 0) (hlt : n < 2 ^ 64) :
    n &&& (2 ^ 64 - WORD_SIZE) = n := by
  obtain ⟨k, rfl⟩ : ∃ k, n = k <<< 6 := by
    refine ⟨n / 64, ?_⟩
    simp only [WORD_SIZE] at hn
    rw [Nat.shiftLeft_eq]
    omega
  have hmask : 2 ^ 64 - WORD_SIZE = (2 ^ 58 - 1) <<< 6 := by decide
  have hk : k < 2 ^ 58 := by
    rw [Nat.shiftLeft_eq] at hlt
    omega
  rw [hmask, ← Nat.shiftLeft_and_distrib, Nat.and_two_pow_sub_one_eq_mod, Nat.mod_eq_of_lt hk]

/-- The first loop stops at a word boundary or at `counter`. -/
theorem clear_until_aligned_spec (counter : Nat) :
    ∀ (fuel i : Nat) (v : ReceivingKeyCounterValidator), i ≤ counter → counter - i ≤ fuel →
      let r := clear_until_aligned counter fuel i v
      i ≤ r.2 ∧ r.2 ≤ counter ∧ (r.2 % WORD_SIZE = 0 ∨ r.2 = counter) ∧
        Cleared v r.1 i r.2 := by
  intro fuel
  induction fuel with
  | zero =>
    intro i v hi hfuel
    have : i = counter := by omega
    exact ⟨Nat.le_refl i, hi, Or.inr this, Cleared.refl v i⟩
  | succ fuel ih =>
    intro i v hi hfuel
    simp only [clear_until_aligned]
    split
    · next hcond =>
      obtain ⟨hle, hlec, hstop, hcl⟩ := ih (i + 1) (v.clear_bit i) (by omega) (by omega)
      exact ⟨by omega, hlec, hstop, (cleared_clear_bit v i).trans (by omega) hle hcl⟩
    · next hcond =>
      refine ⟨Nat.le_refl i, hi, ?_, Cleared.refl v i⟩
      by_cases ha : i % WORD_SIZE = 0
      · exact Or.inl ha
      · exact Or.inr (by
          by_contra hne
          exact hcond ⟨ha, by omega⟩)

/-- The word loop, from a word boundary, stops at or before `counter`. -/
theorem clear_words_spec (counter : Nat) (hcounter : counter < 2 ^ 64) :
    ∀ (fuel i : Nat) (v : ReceivingKeyCounterValidator), i ≤ counter →
      (i % WORD_SIZE = 0 ∨ i = counter) → counter - i ≤ fuel →
      let r := clear_words counter fuel i v
      i ≤ r.2 ∧ r.2 ≤ counter ∧ Cleared v r.1 i r.2 := by
  intro fuel
  induction fuel with
  | zero =>
    intro i v hi _ _
    exact ⟨Nat.le_refl i, hi, Cleared.refl v i⟩
  | succ fuel ih =>
    intro i v hi halign hfuel
    simp only [clear_words]
    split
    · next hcond =>
      have hW : WORD_SIZE = 64 := rfl
      have ha : i % WORD_SIZE = 0 := by
        rcases halign with h | h
        · exact h
        · omega
      have ha' : (i + WORD_SIZE) % WORD_SIZE = 0 := by
        rw [Nat.add_mod_right]; exact ha
      have hnext : (i + WORD_SIZE) &&& (2 ^ 64 - WORD_SIZE) = i + WORD_SIZE :=
        and_word_mask ha' (by omega)
      rw [hnext]
      obtain ⟨hle, hlec, hcl⟩ :=
        ih (i + WORD_SIZE) (v.clear_word i) (by omega) (Or.inl ha') (by omega)
      exact ⟨by omega, hlec, (cleared_clear_word v ha).trans (by omega) hle hcl⟩
    · exact ⟨Nat.le_refl i, hi, Cleared.refl v i⟩

/-- The last loop clears everything up to `counter`. -/
theorem clear_remaining_spec (counter : Nat) :
    ∀ (fuel i : Nat) (v : ReceivingKeyCounterValidator), i ≤ counter → counter - i ≤ fuel →
      Cleared v (clear_remaining counter fuel i v).1 i counter := by
  intro fuel
  induction fuel with
  | zero =>
    intro i v hi hfuel
    have : i = counter := by omega
    subst this
    exact Cleared.refl v i
  | succ fuel ih =>
    intro i v hi hfuel
    simp only [clear_remaining]
    split
    · next hlt =>
      exact (cleared_clear_bit v i).trans (by omega) (by omega)
        (ih (i + 1) (v.clear_bit i) (by omega) (by omega))
    · next hlt =>
      have : i = counter := by omega
      subst this
      exact Cleared.refl v i

/-- The three loops together clear exactly the skipped counters. -/
theorem cleared_clear_skipped (v : ReceivingKeyCounterValidator) (counter : Nat)
    (hlt : counter < 2 ^ 64) (hle : v.next ≤ counter) :
    Cleared v (v.clear_skipped counter) v.next counter := by
  unfold clear_skipped
  obtain ⟨h₁, h₁c, hstop, hcl₁⟩ :=
    clear_until_aligned_spec counter (counter - v.next) v.next v hle (Nat.le_refl _)
  obtain ⟨h₂, h₂c, hcl₂⟩ := clear_words_spec counter hlt _ _
    (clear_until_aligned counter (counter - v.next) v.next v).1 h₁c hstop (Nat.le_refl _)
  have hcl₃ := clear_remaining_spec counter _ _
    (clear_words counter (counter - (clear_until_aligned counter (counter - v.next) v.next v).2)
      (clear_until_aligned counter (counter - v.next) v.next v).2
      (clear_until_aligned counter (counter - v.next) v.next v).1).1 h₂c (Nat.le_refl _)
  exact (hcl₁.trans h₁ h₂ hcl₂).trans (by omega) h₂c hcl₃

/-! ## Section 3: One call -/

/-- The validator tracks the set `R` of the counters it accepted. -/
structure Tracks (v : ReceivingKeyCounterValidator) (R : Finset ℕ) : Prop where
  next_eq : v.next = top R
  bits : Represents N_BITS v.check_bit R

theorem tracks_default : Tracks default ∅ :=
  ⟨rfl, fun c _ hc => by simp at hc⟩

/-- Counters and `next` stay below `2^64 - N_BITS`, so that no addition overflows. -/
def Bounded (R : Finset ℕ) : Prop := ∀ c ∈ R, c < 2 ^ 64 - N_BITS

theorem top_le_of_bounded {R : Finset ℕ} (hR : Bounded R) : top R ≤ 2 ^ 64 - N_BITS :=
  Finset.sup_le fun c hc => hR c hc

theorem add_u64_of_lt (B : Build) {a b : Nat} (h : a + b < 2 ^ 64) :
    add_u64 B a b = .ok (a + b) := by
  unfold add_u64
  rw [if_pos h]

/-- **One call of `mark_did_receive`.**  It accepts exactly the acceptable
    counters; then the validator tracks the set with the counter added.  A
    rejected call leaves the validator as it is. -/
theorem mark_did_receive_spec (B : Build) {R : Finset ℕ} {c : Nat}
    (hv : Tracks v R) (hR : Bounded R) (hc : c < 2 ^ 64 - N_BITS) :
    (Acceptable N_BITS R c ∧ ∃ v', v.mark_did_receive B c = .ok (.ok (), v') ∧
      Tracks v' (insert c R)) ∨
    (¬ Acceptable N_BITS R c ∧ ∃ e, v.mark_did_receive B c = .ok (.error e, v)) := by
  have hN : N_BITS = 1024 := rfl
  have htop := top_le_of_bounded hR
  have hnext := hv.next_eq
  simp only [mark_did_receive, add_u64_of_lt B (show c + N_BITS < 2 ^ 64 by omega),
    Outcome.ok_bind]
  by_cases hfar : c + N_BITS < v.next
  · -- too far back
    refine Or.inr ⟨fun hacc => ?_, .InvalidCounter, by rw [if_pos hfar]; rfl⟩
    have := hacc.2
    omega
  rw [if_neg hfar]
  by_cases heq : c = v.next
  · -- in order: only the bit of the counter itself changes
    rw [if_pos heq, add_u64_of_lt B (show v.next + 1 < 2 ^ 64 by omega)]
    refine Or.inl ⟨⟨not_mem_of_top_le (by omega), by omega⟩, _, rfl, ?_, ?_⟩
    · rw [top_insert]
      show v.next + 1 = _
      omega
    · apply hv.bits.insert_new (by omega)
      intro x
      show (v.set_bit c).check_bit x = true ↔ _
      rw [check_bit_set_bit]
      have hgap : ∀ j, top R ≤ j → j < c → x % N_BITS ≠ j % N_BITS := by
        intro j h₁ h₂
        omega
      exact ⟨fun h => h.imp_right fun hx => ⟨hx, hgap⟩, fun h => h.imp_right fun hx => hx.1⟩
  rw [if_neg heq]
  by_cases hlt : c < v.next
  · -- out of order: the bit decides
    rw [if_pos hlt]
    have hbit := hv.bits c (by omega) (by omega)
    by_cases hset : v.check_bit c = true
    · refine Or.inr ⟨fun hacc => hacc.1 (hbit.mp hset), .InvalidCounter, by rw [if_pos hset]; rfl⟩
    · rw [if_neg hset]
      refine Or.inl ⟨⟨fun hmem => hset (hbit.mpr hmem), by omega⟩, _, rfl, ?_, ?_⟩
      · rw [top_insert]
        show v.next = _
        omega
      · exact hv.bits.insert_old (by omega) (by omega) (fun x => check_bit_set_bit v c x)
  rw [if_neg hlt, add_u64_of_lt B (show c + 1 < 2 ^ 64 by omega)]
  refine Or.inl ⟨⟨not_mem_of_top_le (by omega), by omega⟩, _, rfl, ?_, ?_⟩
  · rw [top_insert]
    show c + 1 = _
    omega
  by_cases hgap : N_BITS ≤ c - v.next
  · -- too far ahead: the whole ring is cleared
    simp only [if_pos hgap]
    apply Represents.insert_far (by omega)
    intro x
    show (set_bit _ c).check_bit x = true ↔ _
    rw [check_bit_set_bit, check_bit_replicate_zero]
    simp
  · -- the loops clear the skipped counters
    simp only [if_neg hgap]
    have hcl := cleared_clear_skipped v c (by omega) (by omega)
    apply hv.bits.insert_new (by omega)
    intro x
    show ((v.clear_skipped c).set_bit c).check_bit x = true ↔ _
    rw [check_bit_set_bit, hcl.check_bit_iff, hnext]

/-- **One call of `will_accept`**: ok exactly on the acceptable counters. -/
theorem will_accept_spec (B : Build) {R : Finset ℕ} {c : Nat}
    (hv : Tracks v R) (hR : Bounded R) (hc : c < 2 ^ 64 - N_BITS) :
    (Acceptable N_BITS R c ∧ v.will_accept B c = .ok (.ok ())) ∨
    (¬ Acceptable N_BITS R c ∧ ∃ e, v.will_accept B c = .ok (.error e)) := by
  have hN : N_BITS = 1024 := rfl
  have htop := top_le_of_bounded hR
  have hnext := hv.next_eq
  unfold will_accept
  by_cases hge : v.next ≤ c
  · exact Or.inl ⟨⟨not_mem_of_top_le (by omega), by omega⟩, by rw [if_pos hge]⟩
  rw [if_neg hge, add_u64_of_lt B (show c + N_BITS < 2 ^ 64 by omega), Outcome.ok_bind]
  by_cases hfar : c + N_BITS < v.next
  · refine Or.inr ⟨fun hacc => ?_, .InvalidCounter, by rw [if_pos hfar]; rfl⟩
    have := hacc.2
    omega
  rw [if_neg hfar]
  have hbit := hv.bits c (by omega) (by omega)
  cases hset : v.check_bit c with
  | false =>
    refine Or.inl ⟨⟨fun hmem => ?_, by omega⟩, by simp⟩
    rw [← hbit, hset] at hmem
    exact absurd hmem (by simp)
  | true => exact Or.inr ⟨fun hacc => hacc.1 (hbit.mp hset), .DuplicateCounter, by simp⟩

/-! ## Section 4: Runs of calls -/

/-- Pass a list of counters to `mark_did_receive`, one after the other, and
    collect those for which it returned ok. -/
def mark_all (B : Build) :
    List Nat → ReceivingKeyCounterValidator → Finset ℕ →
      Outcome (ReceivingKeyCounterValidator × Finset ℕ)
  | [], v, R => .ok (v, R)
  | c :: cs, v, R => do
    match ← v.mark_did_receive B c with
    | (.ok (), v') => mark_all B cs v' (insert c R)
    | (.error _, v') => mark_all B cs v' R

/-- A run from a tracking validator returns and ends in a tracking validator. -/
theorem mark_all_tracks (B : Build) (cs : List Nat) (hcs : ∀ c ∈ cs, c < 2 ^ 64 - N_BITS) :
    ∀ (v : ReceivingKeyCounterValidator) (R : Finset ℕ), Tracks v R → Bounded R →
      ∃ v' R', mark_all B cs v R = .ok (v', R') ∧ Tracks v' R' ∧ Bounded R' := by
  induction cs with
  | nil =>
    intro v R hv hR
    exact ⟨v, R, rfl, hv, hR⟩
  | cons c cs ih =>
    intro v R hv hR
    have hc := hcs c (List.mem_cons_self ..)
    have ih' := ih fun d hd => hcs d (List.mem_cons_of_mem _ hd)
    rcases mark_did_receive_spec B hv hR hc with ⟨_, v', hmark, hv'⟩ | ⟨_, e, hmark⟩
    · have hR' : Bounded (insert c R) := by
        intro d hd
        rcases Finset.mem_insert.mp hd with rfl | hd
        · exact hc
        · exact hR d hd
      obtain ⟨w, S, hrun, hw, hS⟩ := ih' v' (insert c R) hv' hR'
      exact ⟨w, S, by simp only [mark_all, hmark, Outcome.ok_bind, hrun], hw, hS⟩
    · obtain ⟨w, S, hrun, hw, hS⟩ := ih' v R hv hR
      exact ⟨w, S, by simp only [mark_all, hmark, Outcome.ok_bind, hrun], hw, hS⟩

/-- **The replay window refines the set of accepted counters.**  After every
    run of `mark_did_receive` calls from the default state, with `R` the set
    of accepted counters: `next` is the maximum of `R` plus one; a call is
    accepted iff its counter is new and `counter + N_BITS ≥ next`; inside
    the window the bits spell `R`; a failing call changes nothing; and
    `will_accept` agrees with `mark_did_receive`. -/
theorem replay_window_refines_accepted_set (B : Build) (cs : List Nat)
    (hcs : ∀ c ∈ cs, c < 2 ^ 64 - N_BITS) :
    ∃ v R, mark_all B cs default ∅ = .ok (v, R) ∧
      (R = ∅ → v.next = 0) ∧ (∀ h : R.Nonempty, v.next = R.max' h + 1) ∧
      (∀ c, c < 2 ^ 64 - N_BITS →
        ((∃ v', v.mark_did_receive B c = .ok (.ok (), v')) ↔ c ∉ R ∧ v.next ≤ c + N_BITS)) ∧
      (∀ c, v.next ≤ c + N_BITS → c < v.next → (v.check_bit c = true ↔ c ∈ R)) ∧
      (∀ c e v', c < 2 ^ 64 - N_BITS →
        v.mark_did_receive B c = .ok (.error e, v') → v' = v) ∧
      (∀ c, c < 2 ^ 64 - N_BITS → (v.will_accept B c = .ok (.ok ()) ↔
        ∃ v', v.mark_did_receive B c = .ok (.ok (), v'))) := by
  obtain ⟨v, R, hrun, hv, hR⟩ :=
    mark_all_tracks B cs hcs default ∅ tracks_default (fun c hc => absurd hc (by simp))
  have hacc : ∀ c, c < 2 ^ 64 - N_BITS →
      ((∃ v', v.mark_did_receive B c = .ok (.ok (), v')) ↔ Acceptable N_BITS R c) := by
    intro c hc
    rcases mark_did_receive_spec B hv hR hc with ⟨hok, v', hmark, _⟩ | ⟨hno, e, hmark⟩
    · exact ⟨fun _ => hok, fun _ => ⟨v', hmark⟩⟩
    · simp [hmark, hno]
  refine ⟨v, R, hrun, ?_, ?_, ?_, ?_, ?_, ?_⟩
  · rintro rfl
    rw [hv.next_eq, top_empty]
  · intro h
    rw [hv.next_eq, top_eq_max_add_one h]
  · intro c hc
    rw [hacc c hc, Acceptable, hv.next_eq]
  · intro c hlow hlt
    rw [hv.next_eq] at hlow hlt
    exact hv.bits c hlow hlt
  · intro c e v' hc herr
    rcases mark_did_receive_spec B hv hR hc with ⟨_, w, hmark, _⟩ | ⟨_, e', hmark⟩
    · rw [hmark] at herr
      cases herr
    · rw [hmark] at herr
      cases herr
      rfl
  · intro c hc
    rw [hacc c hc]
    rcases will_accept_spec B hv hR hc with ⟨hok, hw⟩ | ⟨hno, e, hw⟩
    · simp [hw, hok]
    · simp [hw, hno]

/-- A run with a replay, a gap over a word boundary and a gap larger than the window. -/
theorem replay_window_refines_accepted_set_gaps :
    ∃ v R, mark_all ⟨true, 64, true, by decide, by decide⟩ [0, 1, 1, 70, 15, 5000, 4000] default ∅
        = .ok (v, R) ∧
      (∀ c, c < 2 ^ 64 - N_BITS →
        ((∃ v', v.mark_did_receive ⟨true, 64, true, by decide, by decide⟩ c = .ok (.ok (), v')) ↔
          c ∉ R ∧ v.next ≤ c + N_BITS)) := by
  obtain ⟨v, R, hrun, _, _, hacc, _⟩ :=
    replay_window_refines_accepted_set ⟨true, 64, true, by decide, by decide⟩
      [0, 1, 1, 70, 15, 5000, 4000] (by decide)
  exact ⟨v, R, hrun, hacc⟩

end ReceivingKeyCounterValidator
end PqBoringtun
