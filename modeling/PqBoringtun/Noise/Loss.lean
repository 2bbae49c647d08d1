import PqBoringtun.Framework.Rounding
import PqBoringtun.Noise.Delivery

/-! # Packet loss

    A session counts the packets it accepted.  Since the replay window
    accepts a counter once, the count is the size of the set of accepted
    counters, and what is missing below `next` was never accepted.

    `estimate_loss` computes a ratio from the two numbers with `f32`
    operations; they round to nearest, which keeps the order of their
    arguments.

    * Section 1: the counts of a session.
    * Section 2: the loss of a session and the weighted average.
    * Section 3: runs of a tunnel.
-/

namespace PqBoringtun

open ReceivingKeyCounterValidator Window

/-! ## Section 1: Counts -/

/-- Marking a counter leaves the number of accepted ones alone. -/
theorem ReceivingKeyCounterValidator.mark_did_receive_receive_cnt {B : Build}
    {v v' : ReceivingKeyCounterValidator} {counter : Nat} {r : Except WireGuardError Unit}
    (hc : counter < 2 ^ 64) (h : v.mark_did_receive B counter = .ok (r, v')) :
    v'.receive_cnt = v.receive_cnt := by
  unfold mark_did_receive at h
  obtain ⟨far, _, h⟩ := Outcome.bind_eq_ok.mp h
  split at h
  · cases h
    rfl
  split at h
  · obtain ⟨next, _, h⟩ := Outcome.bind_eq_ok.mp h
    cases h
    rfl
  split at h
  · split at h
    · cases h
      rfl
    · cases h
      rfl
  · rename_i hne hlt
    obtain ⟨next, _, h⟩ := Outcome.bind_eq_ok.mp h
    cases h
    show ReceivingKeyCounterValidator.receive_cnt (if _ then _ else _) = _
    split
    · rfl
    · exact (cleared_clear_skipped v counter hc (by omega)).receive_cnt_eq

namespace Session

/-- The session has accepted the counters in `R`, and counted them. -/
structure Counted (s : Session) (R : Finset ℕ) : Prop where
  tracks : Tracks s.receiving_key_counter R
  bounded : Bounded R
  count : s.receiving_key_counter.receive_cnt = R.card

variable {B : Build} {s : Session} {R : Finset ℕ}

theorem counted_new (l p : UInt32) (r k : Bytes) : (new l p r k).Counted ∅ :=
  ⟨tracks_default, nofun, rfl⟩

theorem Counted.congr {s' : Session} (h : s.Counted R)
    (hv : s'.receiving_key_counter = s.receiving_key_counter) : s'.Counted R :=
  ⟨hv ▸ h.tracks, h.bounded, hv ▸ h.count⟩

/-- An accepted counter is new, and counted. -/
theorem Counted.received (h : s.Counted R) {c : Nat} {v : ReceivingKeyCounterValidator}
    (hc : c < 2 ^ 64 - N_BITS)
    (hmark : s.receiving_key_counter.mark_did_receive B c = .ok (.ok (), v)) :
    (s.received v).Counted (insert c R) := by
  rcases mark_did_receive_spec B h.tracks h.bounded hc with
    ⟨hacceptable, v', heq, htracks⟩ | ⟨_, e, heq⟩
  · rw [hmark] at heq
    cases heq
    refine ⟨⟨htracks.next_eq, htracks.bits⟩, ?_, ?_⟩
    · intro x hx
      rcases Finset.mem_insert.mp hx with rfl | hx
      · exact hc
      · exact h.bounded x hx
    · show v.receive_cnt + 1 = _
      rw [mark_did_receive_receive_cnt (by omega) hmark, h.count,
        Finset.card_insert_of_notMem hacceptable.1]
  · rw [hmark] at heq
    cases heq

/-- **The counts are exact**: what was not received below `next` was never accepted. -/
theorem Counted.missing (h : s.Counted R) :
    s.current_packet_cnt.2 ≤ s.current_packet_cnt.1 ∧
      s.current_packet_cnt.1 - s.current_packet_cnt.2 =
        ((Finset.range s.current_packet_cnt.1).filter (· ∉ R)).card := by
  have hsubset : R ⊆ Finset.range s.current_packet_cnt.1 := by
    intro c hc
    show c ∈ Finset.range s.receiving_key_counter.next
    rw [h.tracks.next_eq]
    exact Finset.mem_range.mpr (lt_top hc)
  have hcount : s.current_packet_cnt.2 = R.card := h.count
  constructor
  · rw [hcount, ← Finset.card_range s.current_packet_cnt.1]
    exact Finset.card_le_card hsubset
  · have hfilter : (Finset.range s.current_packet_cnt.1).filter (· ∉ R) =
        Finset.range s.current_packet_cnt.1 \ R := by
      ext c
      simp
    rw [hfilter, Finset.card_sdiff_of_subset hsubset, Finset.card_range, hcount]

theorem Counted.expected_lt (h : s.Counted R) : s.current_packet_cnt.1 < 2 ^ 64 := by
  have htop := top_le_of_bounded h.bounded
  have hN : N_BITS = 1024 := rfl
  show s.receiving_key_counter.next < 2 ^ 64
  rw [h.tracks.next_eq]
  omega

/-- Pass counters to `receiving_counter_mark`, one after the other, and collect those for which it
    returned ok. -/
def receiving_counter_marks (B : Build) (s : Session) : List Nat → Outcome (List Nat × Session)
  | [] => .ok ([], s)
  | c :: cs => do
    match ← s.receiving_counter_mark B c with
    | (.ok (), s) =>
      let (accepted, s) ← s.receiving_counter_marks B cs
      return (c :: accepted, s)
    | (.error _, s) => s.receiving_counter_marks B cs

/-- One call: either the counter is counted, or nothing changes. -/
theorem Counted.mark (h : s.Counted R) (B : Build) {c : Nat} (hc : c < 2 ^ 64 - N_BITS) :
    (∃ s', s.receiving_counter_mark B c = .ok (.ok (), s') ∧ s'.Counted (insert c R)) ∨
      ∃ e, s.receiving_counter_mark B c = .ok (.error e, s) := by
  rcases mark_did_receive_spec B h.tracks h.bounded hc with
    ⟨_, v, hmark, _⟩ | ⟨_, e, hmark⟩
  · refine Or.inl ⟨s.received v, ?_, h.received hc hmark⟩
    rw [receiving_counter_mark, hmark]
    rfl
  · refine Or.inr ⟨e, ?_⟩
    rw [receiving_counter_mark, hmark]
    rfl

/-- **Calls in a row** return, and the accepted counters are counted. -/
theorem Counted.marks (h : s.Counted R) (B : Build) {cs : List Nat}
    (hcs : ∀ c ∈ cs, c < 2 ^ 64 - N_BITS) : ∃ accepted s',
      s.receiving_counter_marks B cs = .ok (accepted, s') ∧
        s'.Counted (R ∪ accepted.toFinset) := by
  induction cs generalizing s R with
  | nil =>
    refine ⟨[], s, rfl, ?_⟩
    rw [List.toFinset_nil, Finset.union_empty]
    exact h
  | cons c cs ih =>
    have hrest : ∀ c ∈ cs, c < 2 ^ 64 - N_BITS := fun d hd => hcs d (List.mem_cons_of_mem _ hd)
    rcases h.mark B (hcs c List.mem_cons_self) with ⟨s₁, hmark, h₁⟩ | ⟨e, hmark⟩
    · obtain ⟨accepted, s₂, hmarks, h₂⟩ := ih h₁ hrest
      refine ⟨c :: accepted, s₂, ?_, ?_⟩
      · rw [receiving_counter_marks, hmark, Outcome.ok_bind]
        dsimp only
        rw [hmarks]
        rfl
      · rw [List.toFinset_cons, Finset.union_insert, ← Finset.insert_union]
        exact h₂
    · obtain ⟨accepted, s₂, hmarks, h₂⟩ := ih h hrest
      refine ⟨accepted, s₂, ?_, h₂⟩
      rw [receiving_counter_marks, hmark, Outcome.ok_bind]
      exact hmarks

end Session

/-! ## Section 2: The loss estimate -/

/-- The `f32` operations; an infinity or NaN is `none`. -/
def f32 : Rounding.Format := ⟨24, -149, 128, by decide⟩

open Rounding Rounding.Format

/-- The loss ratio of a session. -/
def Session.loss (s : Session) : Option ℚ :=
  let (expected, received) := s.current_packet_cnt
  if expected = 0 then some 0
  else do
    let received ← f32.fit received
    let expected ← f32.fit expected
    let ratio ← f32.div received expected
    f32.fit (1 - ratio)

namespace Tunn

variable {C : Crypto}

/-- The loop of `estimate_loss`, with the average and the weight so far. -/
def weigh_losses (B : Build) (t : Tunn C) (weight cur_avg total_weight : ℚ) :
    List Nat → Option (ℚ × ℚ)
  | [] => some (cur_avg, total_weight)
  | i :: is =>
    -- session_idx.wrapping_sub(i)
    match t.sessions (slot ((t.current + 2 ^ B.usize_bits - i) % 2 ^ B.usize_bits)) with
    | none => t.weigh_losses B weight cur_avg total_weight is
    | some session => do
      let loss ← session.loss
      let weighted ← f32.fit (loss * weight)
      let cur_avg ← f32.fit (cur_avg + weighted)
      let total_weight ← f32.fit (total_weight + weight)
      let weight ← f32.div weight 3
      t.weigh_losses B weight cur_avg total_weight is

def estimate_loss (B : Build) (t : Tunn C) : Option ℚ := do
  let (cur_avg, total_weight) ← t.weigh_losses B 9 0 0 (List.range N_SESSIONS)
  if total_weight = 0 then some 0 else f32.div cur_avg total_weight

end Tunn

theorem representable_one : f32.Representable 1 :=
  representable_two_pow (F := f32) (e := 0) (by decide)

/-- Powers of two up to the size of a counter are values. -/
theorem two_pow_f32 {n : Nat} (hn : n ≤ 64) :
    f32.Representable (2 ^ n) ∧ (2 : ℚ) ^ n < 2 ^ f32.limit := by
  constructor
  · rw [← zpow_natCast]
    exact representable_two_pow (F := f32) (by show (-149 : ℤ) ≤ n; omega)
  · rw [← zpow_natCast]
    exact zpow_lt_zpow_right₀ (by norm_num) (by show (n : ℤ) < 128; omega)

theorem one_lt_limit : (1 : ℚ) < 2 ^ f32.limit := (two_pow_f32 (n := 0) (by decide)).2

/-- **A ratio of ordered values** lies between 0 and 1. -/
theorem div_unit_interval {a b : ℚ} (ha : 0 ≤ a) (hle : a ≤ b) (hb : b ≠ 0) :
    ∃ q, f32.div a b = some q ∧ 0 ≤ q ∧ q ≤ 1 := by
  have hpos : 0 < b := lt_of_le_of_ne (ha.trans hle) (Ne.symm hb)
  obtain ⟨hfit, hge, hle⟩ := fit_between representable_zero representable_one one_lt_limit
    (div_nonneg ha hpos.le) ((div_le_one hpos).mpr hle)
  exact ⟨_, by rw [Format.div, if_neg hb, hfit], hge, hle⟩

/-- **The loss of a session** lies between 0 and 1. -/
theorem Session.loss_unit_interval {s : Session}
    (hle : s.current_packet_cnt.2 ≤ s.current_packet_cnt.1)
    (hlt : s.current_packet_cnt.1 < 2 ^ 64) : ∃ loss, s.loss = some loss ∧ 0 ≤ loss ∧ loss ≤ 1 := by
  unfold Session.loss
  generalize s.current_packet_cnt = counts at hle hlt
  obtain ⟨expected, received⟩ := counts
  dsimp only at hle hlt ⊢
  by_cases hzero : expected = 0
  · rw [if_pos hzero]
    exact ⟨0, rfl, le_refl 0, zero_le_one⟩
  rw [if_neg hzero]
  have hsize := two_pow_f32 (n := 64) (by decide)
  have hbound : (expected : ℚ) ≤ 2 ^ 64 := by exact_mod_cast hlt.le
  have hcounts : (received : ℚ) ≤ expected := by exact_mod_cast hle
  have hone : (1 : ℚ) ≤ expected := by exact_mod_cast Nat.pos_of_ne_zero hzero
  obtain ⟨hfit, hge, _⟩ := fit_between representable_one hsize.1 hsize.2 hone hbound
  obtain ⟨hfit', hge', _⟩ := fit_between representable_zero hsize.1 hsize.2
    (Nat.cast_nonneg received) (hcounts.trans hbound)
  have hmono : f32.round received ≤ f32.round expected := round_mono (Nat.cast_nonneg _) hcounts
  obtain ⟨ratio, hdiv, hratio, hratio'⟩ := div_unit_interval hge' hmono (by linarith)
  obtain ⟨hsub, hlow, hhigh⟩ := fit_between representable_zero representable_one one_lt_limit
    (x := 1 - ratio) (by linarith) (by linarith)
  refine ⟨f32.round (1 - ratio), ?_, hlow, hhigh⟩
  rw [hfit', hfit]
  show (f32.div _ _ >>= _) = _
  rw [hdiv]
  exact hsub

namespace Tunn

variable {C : Crypto} {B : Build} {t : Tunn C}

/-- The average so far stays below the weight so far: both are rounded the same way. -/
theorem weigh_losses_le
    (hsessions : ∀ i s, t.sessions i = some s → ∃ loss, s.loss = some loss ∧ 0 ≤ loss ∧ loss ≤ 1)
    {is : List Nat} {k : Nat} (hk : k + is.length ≤ 60) {weight cur_avg total_weight : ℚ}
    (hweight : f32.Representable weight) (hweight' : weight ≤ 2 ^ 4) (havg : 0 ≤ cur_avg)
    (hle : cur_avg ≤ total_weight) (htotal : total_weight ≤ 2 ^ (k + 4)) :
    ∃ cur_avg' total_weight', t.weigh_losses B weight cur_avg total_weight is =
      some (cur_avg', total_weight') ∧ 0 ≤ cur_avg' ∧ cur_avg' ≤ total_weight' := by
  induction is generalizing k weight cur_avg total_weight with
  | nil => exact ⟨cur_avg, total_weight, rfl, havg, hle⟩
  | cons i is ih =>
    rw [List.length_cons] at hk
    rw [weigh_losses]
    cases hslot : t.sessions (slot ((t.current + 2 ^ B.usize_bits - i) % 2 ^ B.usize_bits)) with
    | none => exact ih (k := k) (by omega) hweight hweight' havg hle htotal
    | some session =>
      dsimp only
      obtain ⟨loss, hloss, hnonneg, hone⟩ := hsessions _ _ hslot
      have hpos := hweight.nonneg
      have hsize := two_pow_f32 (n := k + 1 + 4) (by omega)
      have hsize' := two_pow_f32 (n := 4) (by decide)
      have hdouble : (2 : ℚ) ^ (k + 1 + 4) = 2 ^ (k + 4) + 2 ^ (k + 4) := by ring
      have hfour : (2 : ℚ) ^ 4 ≤ 2 ^ (k + 4) := pow_le_pow_right₀ (by norm_num) (by omega)
      -- The weighted loss is at most the weight, which is a value.
      obtain ⟨hmul, hweighted, hweighted'⟩ := fit_between representable_zero hweight
        (hweight'.trans_lt hsize'.2) (mul_nonneg hnonneg hpos)
        (mul_le_of_le_one_left hpos hone)
      obtain ⟨hadd, havg', _⟩ := fit_between representable_zero hsize.1 hsize.2
        (x := cur_avg + f32.round (loss * weight)) (by linarith) (by linarith)
      obtain ⟨hadd', _, htotal'⟩ := fit_between representable_zero hsize.1 hsize.2
        (x := total_weight + weight) (by linarith) (by linarith)
      obtain ⟨hdiv, _, hthird⟩ := fit_between representable_zero hsize'.1 hsize'.2
        (x := weight / 3) (by linarith) (by linarith)
      have hmono : f32.round (cur_avg + f32.round (loss * weight)) ≤
          f32.round (total_weight + weight) := round_mono (by linarith) (by linarith)
      obtain ⟨cur_avg', total_weight', hrest, h⟩ := ih (k := k + 1) (by omega)
        (round_representable (x := weight / 3) (by linarith)) hthird havg' hmono htotal'
      refine ⟨cur_avg', total_weight', ?_, h⟩
      rw [hloss]
      show (f32.fit (loss * weight) >>= _) = _
      rw [hmul]
      show (f32.fit _ >>= _) = _
      rw [hadd]
      show (f32.fit _ >>= _) = _
      rw [hadd']
      show (f32.div weight 3 >>= _) = _
      rw [Format.div, if_neg (by norm_num), hdiv]
      exact hrest

/-- **The estimate lies between 0 and 1** when every session has received at most what it
    expected. -/
theorem estimate_loss_unit_interval
    (hsessions : ∀ i s, t.sessions i = some s → ∃ R, s.Counted R) (B : Build) :
    ∃ loss, t.estimate_loss B = some loss ∧ 0 ≤ loss ∧ loss ≤ 1 := by
  have hlosses : ∀ i s, t.sessions i = some s → ∃ loss, s.loss = some loss ∧ 0 ≤ loss ∧
      loss ≤ 1 := by
    intro i s hs
    obtain ⟨R, hR⟩ := hsessions i s hs
    exact Session.loss_unit_interval hR.missing.1 hR.expected_lt
  have hnine : f32.Representable 9 := ⟨9, 0, by decide, by decide, by norm_num⟩
  obtain ⟨cur_avg, total_weight, hloop, havg, hle⟩ := weigh_losses_le (B := B) hlosses (k := 0)
    (show 0 + (List.range N_SESSIONS).length ≤ 60 by decide) hnine (by norm_num) (le_refl 0)
    (le_refl 0)
    (by norm_num)
  rw [estimate_loss, hloop]
  show ∃ loss, (if total_weight = 0 then some 0 else f32.div cur_avg total_weight) = some loss ∧ _
  by_cases hzero : total_weight = 0
  · rw [if_pos hzero]
    exact ⟨0, rfl, le_refl 0, zero_le_one⟩
  · rw [if_neg hzero]
    exact div_unit_interval havg hle hzero

end Tunn

/-! ## Section 3: Runs -/

variable {C : Crypto} {B : Build}

/-- All sessions of a ring have counted what they accepted. -/
def AllCounted (sessions : Fin N_SESSIONS → Option Session) : Prop :=
  ∀ i s, sessions i = some s → ∃ R, s.Counted R

theorem AllCounted.update {sessions : Fin N_SESSIONS → Option Session} (h : AllCounted sessions)
    (k : Fin N_SESSIONS) {session : Session} {R : Finset ℕ} (hsession : session.Counted R) :
    AllCounted (Function.update sessions k (some session)) := by
  intro i s hs
  by_cases hi : i = k
  · subst hi
    rw [Function.update_self] at hs
    cases hs
    exact ⟨R, hsession⟩
  · rw [Function.update_of_ne hi] at hs
    exact h i s hs

theorem AllCounted.move {w w' : View C} {evs : List Event} (h : AllCounted w.sessions)
    (hbelow : CountersBelow evs) (hmove : Move B w evs w') : AllCounted w'.sessions := by
  cases hmove with
  | initiate e seed timestamp time => exact h
  | stall v packet ek c hc => exact h
  | refuse v packet ek c e hc => exact h
  | respond v packet ek c e seed kem r session hc hkem hr hsession =>
    subst hsession
    exact h.update _ (Session.counted_new ..)
  | complete v s is_previous packet ct rk sk session current hslot _ hkeys hsession _ =>
    subst hsession
    have hnew := Session.counted_new s.local_index packet.sender_idx rk sk
    exact h.update _ (hnew.congr rfl)
  | send session src hsession =>
    obtain ⟨R, hR⟩ := h _ _ hsession
    exact h.update _ (hR.congr rfl)
  | receive session packet plaintext v current hsession haccepts _ =>
    obtain ⟨R, hR⟩ := h _ _ hsession
    have hcounter := hbelow _ _ _ _ List.mem_cons_self
    exact h.update _ (hR.received hcounter haccepts.marked)

/-- **Every step keeps the counts right.** -/
theorem AllCounted.step {t t' : Tunn C} {l : Label} (h : AllCounted t.sessions)
    (hbelow : CountersBelow l.events) (hstep : (tunnel C B).step t l t') :
    AllCounted t'.sessions := by
  rcases Tunn.step_view hstep with ⟨⟨params, _, _, hview⟩, _⟩ | ⟨w, hquiet, hacts⟩
  · have hsessions : t'.sessions = fun _ => none := congrArg View.sessions hview
    intro i s hs
    rw [hsessions] at hs
    cases hs
  · have hw : AllCounted w.sessions := by
      intro i s hs
      rcases hquiet.sessions i with hi | hi
      · exact h i s (hi.symm.trans hs)
      · rw [hi] at hs
        cases hs
    rcases hacts with ⟨heq, _⟩ | hmove
    · rw [← heq] at hw
      exact hw
    · exact hw.move hbelow hmove

/-- **The estimate of a reachable tunnel** lies between 0 and 1. -/
theorem Tunn.run_estimate_loss {t₀ t : Tunn C} {tr : List Label} (hnew : ∀ i, t₀.sessions i = none)
    (hrun : Run (tunnel C B) t₀ tr t) (hbelow : CountersBelow (events tr)) :
    ∃ loss, t.estimate_loss B = some loss ∧ 0 ≤ loss ∧ loss ≤ 1 := by
  refine estimate_loss_unit_interval ?_ B
  refine hrun.invariant_of (A := fun tr => CountersBelow (events tr))
    (I := fun _ (t : Tunn C) => AllCounted t.sessions) ?_ ?_ ?_ hbelow
  · intro tr l h id n p ct hmem
    rw [events_snoc] at h
    exact h id n p ct (List.mem_append_left _ hmem)
  · intro i s hs
    rw [hnew i] at hs
    cases hs
  · intro tr t l t' hbelow ih hstep
    rw [events_snoc] at hbelow
    exact ih.step (fun id n p ct hmem => hbelow id n p ct (List.mem_append_right _ hmem)) hstep

/-- The window of the session is that of a new one after calls of `receiving_counter_mark`. -/
def Session.Marked (B : Build) (s : Session) : Prop :=
  ∃ (l p : UInt32) (r k : Bytes) (cs accepted : List Nat) (s' : Session),
    (∀ c ∈ cs, c < 2 ^ 64 - N_BITS) ∧
      (new l p r k).receiving_counter_marks B cs = .ok (accepted, s') ∧
      s.receiving_key_counter = s'.receiving_key_counter

theorem Session.Marked.counted {s : Session} (h : s.Marked B) : ∃ R, s.Counted R := by
  obtain ⟨l, p, r, k, cs, accepted, s', hcs, hmarks, hv⟩ := h
  obtain ⟨accepted', s'', hmarks', hcounted⟩ := (counted_new l p r k).marks B hcs
  rw [hmarks] at hmarks'
  cases hmarks'
  exact ⟨_, hcounted.congr hv⟩

/-- **The loss accounting is exact.**  After any calls of `receiving_counter_mark` on a new session
    it has received at most what it expects, and what it has not received are the counters it never
    accepted; a tunnel with such sessions estimates a loss between 0 and 1. -/
theorem Tunn.loss_exact {cs : List Nat} (hcs : ∀ c ∈ cs, c < 2 ^ 64 - N_BITS) (l p : UInt32)
    (r k : Bytes) {t : Tunn C} (hsessions : ∀ i s, t.sessions i = some s → s.Marked B) :
    (∃ accepted s, (Session.new l p r k).receiving_counter_marks B cs = .ok (accepted, s) ∧
      s.current_packet_cnt.2 ≤ s.current_packet_cnt.1 ∧
      s.current_packet_cnt.1 - s.current_packet_cnt.2 =
        ((Finset.range s.current_packet_cnt.1).filter (· ∉ accepted)).card) ∧
    ∃ loss, t.estimate_loss B = some loss ∧ 0 ≤ loss ∧ loss ≤ 1 := by
  constructor
  · obtain ⟨accepted, s, hmarks, hcounted⟩ := (Session.counted_new l p r k).marks B hcs
    obtain ⟨hle, hmissing⟩ := hcounted.missing
    refine ⟨accepted, s, hmarks, hle, ?_⟩
    rw [hmissing]
    simp only [Finset.empty_union, List.mem_toFinset]
  · exact estimate_loss_unit_interval (fun i s hs => (hsessions i s hs).counted) B

/-- Counters with a gap, one of them late and one repeated. -/
theorem Tunn.loss_exact_gaps : ∃ (accepted : List Nat) (s : Session) (loss : ℚ),
    (Session.new 1 2 [] []).receiving_counter_marks (symbolicBuild false) [0, 5, 3, 3] =
      .ok (accepted, s) ∧
    s.current_packet_cnt = (6, 3) ∧
    ((Finset.range 6).filter (· ∉ accepted)).card = 3 ∧
    ({ symbolicPeers true with sessions := fun _ => some s } : Tunn symbolic).estimate_loss
      (symbolicBuild false) = some loss ∧ 0 ≤ loss ∧ loss ≤ 1 := by
  obtain ⟨accepted, s, hmarks, hcounts⟩ : ∃ accepted s,
      (Session.new 1 2 [] []).receiving_counter_marks (symbolicBuild false) [0, 5, 3, 3] =
        .ok (accepted, s) ∧ s.current_packet_cnt = (6, 3) := ⟨_, _, rfl, rfl⟩
  have hcs : ∀ c ∈ [0, 5, 3, 3], c < 2 ^ 64 - N_BITS := by decide
  have hsessions : ∀ i s',
      ({ symbolicPeers true with sessions := fun _ => some s } : Tunn symbolic).sessions i =
        some s' →
      s'.Marked (symbolicBuild false) := by
    intro i s' hs
    cases hs
    exact ⟨1, 2, [], [], _, accepted, s, hcs, hmarks, rfl⟩
  obtain ⟨⟨accepted', s', hmarks', _, hmissing⟩, loss, hloss⟩ := loss_exact hcs 1 2 [] [] hsessions
  rw [hmarks] at hmarks'
  cases hmarks'
  rw [hcounts] at hmissing
  exact ⟨accepted, s, loss, hmarks, hcounts, hmissing.symm, hloss⟩

end PqBoringtun
