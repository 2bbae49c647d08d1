import PqBoringtun.Noise.ReplayWindow
import PqBoringtun.Noise.Symbolic

/-! # Counters on the whole 64-bit range

    A data packet carries a counter of 64 bits, chosen by its sender.  The
    replay check adds to it without looking whether the sum fits, and the
    sender's own counter is as wide as `usize` and wraps.

    * Section 1: the additions inside the clearing loops never overflow.
    * Section 2: runs of `will_accept` and `mark_did_receive` with any
      counters.  They are sound exactly if no counter from `2^64 - N_BITS` on
      is marked (`sound_iff`).
    * Section 3: runs of `format_packet_data`.  Their counters are distinct
      exactly if there are at most `2^usize_bits` packets.
-/

namespace PqBoringtun

/-! ## Section 1: Additions in the clearing loops -/

namespace Checked

open ReceivingKeyCounterValidator

/-- `ReceivingKeyCounterValidator.clear_until_aligned`, with its addition on `u64`. -/
def clear_until_aligned (B : Build) (counter : Nat) :
    Nat → Nat → ReceivingKeyCounterValidator → Outcome (ReceivingKeyCounterValidator × Nat)
  | 0, i, v => .ok (v, i)
  | fuel + 1, i, v =>
    if i % WORD_SIZE ≠ 0 ∧ i < counter then do
      let i' ← add_u64 B i 1
      clear_until_aligned B counter fuel i' (v.clear_bit i)
    else .ok (v, i)

/-- `ReceivingKeyCounterValidator.clear_words`, with its two additions on `u64`. -/
def clear_words (B : Build) (counter : Nat) :
    Nat → Nat → ReceivingKeyCounterValidator → Outcome (ReceivingKeyCounterValidator × Nat)
  | 0, i, v => .ok (v, i)
  | fuel + 1, i, v => do
    let word_end ← add_u64 B i WORD_SIZE
    if word_end < counter then
      let i' ← add_u64 B i WORD_SIZE
      clear_words B counter fuel (i' &&& (2 ^ 64 - WORD_SIZE)) (v.clear_word i)
    else .ok (v, i)

/-- `ReceivingKeyCounterValidator.clear_remaining`, with its addition on `u64`. -/
def clear_remaining (B : Build) (counter : Nat) :
    Nat → Nat → ReceivingKeyCounterValidator → Outcome (ReceivingKeyCounterValidator × Nat)
  | 0, i, v => .ok (v, i)
  | fuel + 1, i, v =>
    if i < counter then do
      let i' ← add_u64 B i 1
      clear_remaining B counter fuel i' (v.clear_bit i)
    else .ok (v, i)

/-- The three loops. -/
def clear_skipped (B : Build) (v : ReceivingKeyCounterValidator) (counter : Nat) :
    Outcome ReceivingKeyCounterValidator := do
  let (v₁, i₁) ← clear_until_aligned B counter (counter - v.next) v.next v
  let (v₂, i₂) ← clear_words B counter (counter - i₁) i₁ v₁
  let (v₃, _) ← clear_remaining B counter (counter - i₂) i₂ v₂
  return v₃

/-- `ReceivingKeyCounterValidator.mark_did_receive`, with all its additions on `u64`. -/
def mark_did_receive (B : Build) (v : ReceivingKeyCounterValidator) (counter : Nat) :
    Outcome (Except WireGuardError Unit × ReceivingKeyCounterValidator) := do
  let far ← add_u64 B counter N_BITS
  if far < v.next then
    return (.error .InvalidCounter, v)
  else if counter = v.next then
    let next ← add_u64 B v.next 1
    return (.ok (), { v.set_bit counter with next := next })
  else if counter < v.next then
    if v.check_bit counter then
      return (.error .InvalidCounter, v)
    else
      return (.ok (), v.set_bit counter)
  else
    let cleared ←
      if N_BITS ≤ counter - v.next then .ok { v with bitmap := Vector.replicate 16 0 }
      else clear_skipped B v counter
    let next ← add_u64 B counter 1
    return (.ok (), { cleared.set_bit counter with next := next })

theorem clear_until_aligned_eq (B : Build) {counter : Nat} (hc : counter < 2 ^ 64)
    (fuel i : Nat) (v : ReceivingKeyCounterValidator) :
    clear_until_aligned B counter fuel i v =
      .ok (ReceivingKeyCounterValidator.clear_until_aligned counter fuel i v) := by
  induction fuel generalizing i v with
  | zero => rfl
  | succ fuel ih =>
    simp only [clear_until_aligned, ReceivingKeyCounterValidator.clear_until_aligned]
    split
    · next hcond =>
      rw [add_u64_of_lt B (by omega), Outcome.ok_bind]
      exact ih (i + 1) (v.clear_bit i)
    · rfl

theorem clear_remaining_eq (B : Build) {counter : Nat} (hc : counter < 2 ^ 64)
    (fuel i : Nat) (v : ReceivingKeyCounterValidator) :
    clear_remaining B counter fuel i v =
      .ok (ReceivingKeyCounterValidator.clear_remaining counter fuel i v) := by
  induction fuel generalizing i v with
  | zero => rfl
  | succ fuel ih =>
    simp only [clear_remaining, ReceivingKeyCounterValidator.clear_remaining]
    split
    · next hcond =>
      rw [add_u64_of_lt B (by omega), Outcome.ok_bind]
      exact ih (i + 1) (v.clear_bit i)
    · rfl

theorem clear_words_eq (B : Build) {counter : Nat} (hc : counter + WORD_SIZE < 2 ^ 64)
    (fuel i : Nat) (v : ReceivingKeyCounterValidator) (hi : i ≤ counter) :
    clear_words B counter fuel i v =
      .ok (ReceivingKeyCounterValidator.clear_words counter fuel i v) := by
  induction fuel generalizing i v with
  | zero => rfl
  | succ fuel ih =>
    have hadd : add_u64 B i WORD_SIZE = .ok (i + WORD_SIZE) := add_u64_of_lt B (by omega)
    simp only [clear_words, ReceivingKeyCounterValidator.clear_words, hadd, Outcome.ok_bind]
    split
    · next hcond =>
      -- masking the low bits does not increase the index
      have hmask : (i + WORD_SIZE) &&& (2 ^ 64 - WORD_SIZE) ≤ i + WORD_SIZE := Nat.and_le_left
      exact ih _ _ (by omega)
    · rfl

theorem clear_skipped_eq (B : Build) {v : ReceivingKeyCounterValidator} {counter : Nat}
    (hc : counter + WORD_SIZE < 2 ^ 64) (hle : v.next ≤ counter) :
    clear_skipped B v counter = .ok (v.clear_skipped counter) := by
  have hlt : counter < 2 ^ 64 := by omega
  obtain ⟨_, hi, _⟩ :=
    clear_until_aligned_spec counter (counter - v.next) v.next v hle (Nat.le_refl _)
  unfold clear_skipped ReceivingKeyCounterValidator.clear_skipped
  rw [clear_until_aligned_eq B hlt, Outcome.ok_bind]
  generalize ReceivingKeyCounterValidator.clear_until_aligned counter (counter - v.next) v.next v =
    aligned at hi ⊢
  obtain ⟨v₁, i₁⟩ := aligned
  dsimp only
  rw [clear_words_eq B hc _ _ _ hi, Outcome.ok_bind]
  generalize ReceivingKeyCounterValidator.clear_words counter (counter - i₁) i₁ v₁ = words
  obtain ⟨v₂, i₂⟩ := words
  dsimp only
  rw [clear_remaining_eq B hlt]
  rfl

/-- The loops run only if `counter + N_BITS` did not overflow: a sum that wrapped is below
    `N_BITS`, and a window that reaches up to it is far away from the counter. -/
theorem not_wrapped {B : Build} {far next counter : Nat} (hc : counter < 2 ^ 64)
    (hfar : add_u64 B counter N_BITS = .ok far) (hnear : next ≤ far)
    (hloop : counter - next < N_BITS) : counter + N_BITS < 2 ^ 64 := by
  have hN : N_BITS = 1024 := rfl
  by_contra hover
  unfold add_u64 at hfar
  rw [if_neg hover] at hfar
  split at hfar
  · cases hfar
  · have hwrap := Outcome.ok.inj hfar
    omega

/-- **No addition inside the loops overflows**: checking them as well changes nothing. -/
theorem mark_did_receive_eq (B : Build) (v : ReceivingKeyCounterValidator) {counter : Nat}
    (hc : counter < 2 ^ 64) : mark_did_receive B v counter = v.mark_did_receive B counter := by
  unfold mark_did_receive ReceivingKeyCounterValidator.mark_did_receive
  cases hfar : add_u64 B counter N_BITS with
  | panic msg => rfl
  | ok far =>
    rw [Outcome.ok_bind, Outcome.ok_bind]
    by_cases hback : far < v.next
    · rw [if_pos hback, if_pos hback]
    rw [if_neg hback, if_neg hback]
    by_cases heq : counter = v.next
    · rw [if_pos heq, if_pos heq]
    rw [if_neg heq, if_neg heq]
    by_cases hlt : counter < v.next
    · rw [if_pos hlt, if_pos hlt]
    rw [if_neg hlt, if_neg hlt]
    by_cases hahead : N_BITS ≤ counter - v.next
    · rw [if_pos hahead, if_pos hahead]
      rfl
    have hfits := not_wrapped hc hfar (Nat.le_of_not_lt hback) (Nat.lt_of_not_le hahead)
    have hW : WORD_SIZE ≤ N_BITS := by decide
    rw [if_neg hahead, if_neg hahead, clear_skipped_eq B (by omega) (by omega)]
    rfl

end Checked

/-! ## Section 2: Runs of the replay check -/

/-- The same build with overflow checks. -/
def Build.checked (B : Build) : Build := { B with overflow_checks := true }

namespace ReceivingKeyCounterValidator

/-- A call on the window. -/
inductive Call where
  | will_accept (counter : Nat)
  | mark_did_receive (counter : Nat)
  deriving DecidableEq, Repr

def Call.counter : Call → Nat
  | will_accept counter => counter
  | mark_did_receive counter => counter

/-- A call that was made: whether it returned ok, and `next` after it. -/
structure Answer where
  call : Call
  ok : Bool
  next : Nat
  deriving DecidableEq, Repr

/-- The call accepted its counter for good. -/
def Answer.Accepted (a : Answer) : Prop :=
  a.call = .mark_did_receive a.call.counter ∧ a.ok = true

/-- One call, with all its additions on `u64`. -/
def call (B : Build) (v : ReceivingKeyCounterValidator) :
    Call → Outcome (Answer × ReceivingKeyCounterValidator)
  | .will_accept counter => do
    let ret ← v.will_accept B counter
    return (⟨.will_accept counter, ret.isOk, v.next⟩, v)
  | .mark_did_receive counter => do
    let (ret, v') ← Checked.mark_did_receive B v counter
    return (⟨.mark_did_receive counter, ret.isOk, v'.next⟩, v')

/-- One call after the other. -/
def calls (B : Build) (v : ReceivingKeyCounterValidator) : List Call → Outcome (List Answer)
  | [] => .ok []
  | c :: cs => do
    let (a, v') ← v.call B c
    let answers ← v'.calls B cs
    return a :: answers

/-- A sound run: no addition overflows, `next` never decreases, and a counter that was accepted
    is not accepted again, by neither of the two checks. -/
structure Sound (B : Build) (cs : List Call) : Prop where
  -- the build with overflow checks panics at the first addition that overflows
  no_overflow : ∃ answers, calls B.checked default cs = .ok answers
  next_monotone : ∀ answers, calls B default cs = .ok answers →
    answers.Pairwise fun a b => a.next ≤ b.next
  accepted_once : ∀ answers, calls B default cs = .ok answers →
    answers.Pairwise fun a b => a.Accepted → b.call.counter = a.call.counter → b.ok = false

/-- What one call does to the set of accepted counters. -/
structure Extends (R R' : Finset ℕ) (a : Answer) : Prop where
  subset : R ⊆ R'
  bounded : Bounded R'
  next_eq : a.next = Window.top R'
  accepted : a.Accepted → a.call.counter ∈ R'
  refused : a.call.counter ∈ R → a.ok = false

/-- `will_accept` needs no bound: from `next` on it does not add anything. -/
theorem will_accept_tracks (B : Build) {v : ReceivingKeyCounterValidator} {R : Finset ℕ}
    (hv : Tracks v R) (hR : Bounded R) (c : Nat) :
    ∃ ret, v.will_accept B c = .ok ret ∧ (c ∈ R → ret.isOk = false) := by
  by_cases hmem : c ∈ R
  · rcases will_accept_spec B hv hR (hR c hmem) with ⟨hacc, _⟩ | ⟨_, e, hret⟩
    · exact absurd hmem hacc.1
    · exact ⟨_, hret, fun _ => rfl⟩
  · by_cases hge : v.next ≤ c
    · exact ⟨.ok (), if_pos hge, fun h => absurd h hmem⟩
    · have hc : c < 2 ^ 64 - N_BITS := by
        have := top_le_of_bounded hR
        rw [← hv.next_eq] at this
        omega
      rcases will_accept_spec B hv hR hc with ⟨_, hret⟩ | ⟨_, e, hret⟩
      · exact ⟨_, hret, fun h => absurd h hmem⟩
      · exact ⟨_, hret, fun h => absurd h hmem⟩

/-- One call with a counter that leaves room for the additions. -/
theorem call_tracks (B : Build) {v : ReceivingKeyCounterValidator} {R : Finset ℕ}
    (hv : Tracks v R) (hR : Bounded R) {c : Call}
    (hc : ∀ n, c = .mark_did_receive n → n < 2 ^ 64 - N_BITS) :
    ∃ a v' R', v.call B c = .ok (a, v') ∧ a.call = c ∧ Tracks v' R' ∧ Extends R R' a := by
  cases c with
  | will_accept n =>
    obtain ⟨ret, hret, hrefused⟩ := will_accept_tracks B hv hR n
    refine ⟨⟨.will_accept n, ret.isOk, v.next⟩, v, R, ?_, rfl, hv, ?_⟩
    · rw [call, hret]
      rfl
    · exact {
        subset := Finset.Subset.refl R
        bounded := hR
        next_eq := hv.next_eq
        accepted := fun h => by cases h.1
        refused := hrefused }
  | mark_did_receive n =>
    have hn := hc n rfl
    have hchecked := Checked.mark_did_receive_eq B v (show n < 2 ^ 64 by omega)
    rcases mark_did_receive_spec B hv hR hn with ⟨hacc, v', hmark, hv'⟩ | ⟨hacc, e, hmark⟩
    · refine ⟨⟨.mark_did_receive n, true, v'.next⟩, v', insert n R, ?_, rfl, hv', ?_⟩
      · rw [call, hchecked, hmark]
        rfl
      · exact {
          subset := Finset.subset_insert n R
          bounded := Finset.forall_mem_insert _ _ _ |>.mpr ⟨hn, hR⟩
          next_eq := hv'.next_eq
          accepted := fun _ => Finset.mem_insert_self n R
          refused := fun h => absurd h hacc.1 }
    · refine ⟨⟨.mark_did_receive n, false, v.next⟩, v, R, ?_, rfl, hv, ?_⟩
      · rw [call, hchecked, hmark]
        rfl
      · exact {
          subset := Finset.Subset.refl R
          bounded := hR
          next_eq := hv.next_eq
          accepted := fun h => by cases h.2
          refused := fun _ => rfl }

/-- A run of such calls. -/
theorem calls_tracks (B : Build) {cs : List Call}
    (hcs : ∀ n, .mark_did_receive n ∈ cs → n < 2 ^ 64 - N_BITS)
    {v : ReceivingKeyCounterValidator} {R : Finset ℕ} (hv : Tracks v R) (hR : Bounded R) :
    ∃ answers, v.calls B cs = .ok answers ∧
      (∀ a ∈ answers, Window.top R ≤ a.next ∧ (a.call.counter ∈ R → a.ok = false)) ∧
      (answers.Pairwise fun a b => a.next ≤ b.next) ∧
      (answers.Pairwise fun a b => a.Accepted → b.call.counter = a.call.counter →
        b.ok = false) := by
  induction cs generalizing v R with
  | nil => exact ⟨[], rfl, by simp, .nil, .nil⟩
  | cons c cs ih =>
    obtain ⟨a, v', R', hcall, hac, hv', hext⟩ := call_tracks B hv hR (c := c)
      (fun n h => hcs n (h ▸ List.mem_cons_self ..))
    obtain ⟨answers, hrun, hall, hmono, honce⟩ :=
      ih (fun n h => hcs n (List.mem_cons_of_mem _ h)) hv' hext.bounded
    have htop : Window.top R ≤ Window.top R' := Finset.sup_mono hext.subset
    refine ⟨a :: answers, ?_, ?_, ?_, ?_⟩
    · rw [calls, hcall, Outcome.ok_bind]
      dsimp only
      rw [hrun]
      rfl
    · intro b hb
      rcases List.mem_cons.mp hb with rfl | hb
      · exact ⟨by rw [hext.next_eq]; exact htop, hext.refused⟩
      · exact ⟨htop.trans (hall b hb).1, fun h => (hall b hb).2 (hext.subset h)⟩
    · refine List.pairwise_cons.mpr ⟨fun b hb => ?_, hmono⟩
      rw [hext.next_eq]
      exact (hall b hb).1
    · refine List.pairwise_cons.mpr ⟨fun b hb hacc heq => ?_, honce⟩
      exact (hall b hb).2 (heq ▸ hext.accepted hacc)

/-- With overflow checks, a call that returns left room for `counter + N_BITS`. -/
theorem lt_of_call_checked {B : Build} {v v' : ReceivingKeyCounterValidator} {n : Nat} {a : Answer}
    (h : v.call B.checked (.mark_did_receive n) = .ok (a, v')) : n < 2 ^ 64 - N_BITS := by
  obtain ⟨⟨ret, w⟩, hmark, _⟩ := Outcome.bind_eq_ok.mp h
  obtain ⟨far, hfar, _⟩ := Outcome.bind_eq_ok.mp hmark
  by_contra hover
  have hbig : ¬ n + N_BITS < 2 ^ 64 := by omega
  unfold add_u64 at hfar
  rw [if_neg hbig, if_pos (show B.checked.overflow_checks = true from rfl)] at hfar
  cases hfar

theorem lt_of_calls_checked {B : Build} {cs : List Call} {v : ReceivingKeyCounterValidator}
    {answers : List Answer} (h : v.calls B.checked cs = .ok answers) :
    ∀ n, .mark_did_receive n ∈ cs → n < 2 ^ 64 - N_BITS := by
  induction cs generalizing v answers with
  | nil => simp
  | cons c cs ih =>
    obtain ⟨⟨a, v'⟩, hcall, h⟩ := Outcome.bind_eq_ok.mp h
    obtain ⟨rest, hrest, _⟩ := Outcome.bind_eq_ok.mp h
    intro n hn
    rcases List.mem_cons.mp hn with rfl | hn
    · exact lt_of_call_checked hcall
    · exact ih hrest n hn

/-- **The replay check on the whole range of counters.**  A run of calls with any counters is
    sound exactly if every counter that is marked leaves room for `counter + N_BITS`. -/
theorem sound_iff (B : Build) (cs : List Call) :
    Sound B cs ↔ ∀ n, .mark_did_receive n ∈ cs → n < 2 ^ 64 - N_BITS := by
  constructor
  · intro hsound
    obtain ⟨answers, hrun⟩ := hsound.no_overflow
    exact lt_of_calls_checked hrun
  · intro hcs
    have hempty : Bounded ∅ := fun c hc => absurd hc (by simp)
    obtain ⟨_, hchecked, _⟩ := calls_tracks B.checked hcs tracks_default hempty
    obtain ⟨answers, hrun, _, hmono, honce⟩ := calls_tracks B hcs tracks_default hempty
    refine ⟨⟨_, hchecked⟩, fun answers' h => ?_, fun answers' h => ?_⟩
    · rw [hrun] at h
      cases h
      exact hmono
    · rw [hrun] at h
      cases h
      exact honce

/-- **The largest counter empties the window.**  With overflow checks marking it panics; without
    them `next` wraps to zero, and the counter 5 is accepted a second time. -/
theorem largest_counter_replays :
    (∃ msg, calls ⟨true, 64, true, by decide, by decide⟩ default
      [.mark_did_receive 5, .mark_did_receive (2 ^ 64 - 1)] = .panic msg) ∧
    calls ⟨true, 64, false, by decide, by decide⟩ default
        [.mark_did_receive 5, .mark_did_receive (2 ^ 64 - 1), .mark_did_receive 5] =
      .ok [⟨.mark_did_receive 5, true, 6⟩, ⟨.mark_did_receive (2 ^ 64 - 1), true, 0⟩,
        ⟨.mark_did_receive 5, true, 6⟩] := by
  refine ⟨⟨_, rfl⟩, ?_⟩
  decide

end ReceivingKeyCounterValidator

/-! ## Section 3: Runs of sealed packets -/

/-- The key and the nonce a data packet was sealed with. -/
def Event.data_nonce : Event → Option (Bytes × Bytes)
  | .data _ _ x => some (x.key, x.nonce)
  | _ => none

namespace Session

/-- Format one packet after the other, each into a buffer of its own. -/
def format_all (C : Crypto) (B : Build) (s : Session) :
    List (Bytes × Nat) → Outcome (List Bytes × Session × List Event)
  | [] => .ok ([], s, [])
  | (src, dst_len) :: rest => do
    let (packet, s', evs) ← s.format_packet_data C B src dst_len
    let (packets, s'', evs') ← format_all C B s' rest
    return (packet :: packets, s'', evs ++ evs')

/-- The counter field of a data packet. -/
def counter_field (packet : Bytes) : Nat := Bytes.leValue (Bytes.slice packet 8 16)

/-- The `n` counters from `c` on, on a counter with `M` values. -/
def wrapped (M c n : Nat) : List Nat := (List.range n).map fun i => (c + i) % M

theorem wrapped_succ (M c n : Nat) : wrapped M c (n + 1) = c % M :: wrapped M ((c + 1) % M) n := by
  unfold wrapped
  rw [List.range_succ_eq_map, List.map_cons, List.map_map, Nat.add_zero]
  congr 1
  apply List.map_congr_left
  intro i _
  show (c + (i + 1)) % M = ((c + 1) % M + i) % M
  rw [Nat.mod_add_mod]
  congr 1
  omega

/-- They are distinct as long as there are at most `M` of them. -/
theorem nodup_wrapped_iff {M : Nat} (hM : 0 < M) (c n : Nat) : (wrapped M c n).Nodup ↔ n ≤ M := by
  unfold wrapped
  rw [List.nodup_map_iff_inj_on List.nodup_range]
  constructor
  · intro hinj
    by_contra hlt
    have := hinj 0 (List.mem_range.mpr (by omega)) M (List.mem_range.mpr (by omega)) (by simp)
    omega
  · intro hle i hi j hj heq
    rw [List.mem_range] at hi hj
    have hmod : i % M = j % M := Nat.ModEq.add_left_cancel' c heq
    rwa [Nat.mod_eq_of_lt (by omega), Nat.mod_eq_of_lt (by omega)] at hmod

/-- One packet carries the counter it is sealed with. -/
theorem format_packet_data_counter {C : Crypto} {B : Build} {s s' : Session} {src packet : Bytes}
    {dst_len : Nat} {evs : List Event} (hs : s.sending_key_counter < 2 ^ B.usize_bits)
    (h : s.format_packet_data C B src dst_len = .ok (packet, s', evs)) :
    counter_field packet = s.sending_key_counter := by
  have hfits : s.sending_key_counter < 256 ^ 8 :=
    calc s.sending_key_counter < 2 ^ B.usize_bits := hs
      _ ≤ 2 ^ 64 := Nat.pow_le_pow_right (by decide) B.usize_bits_le
      _ = 256 ^ 8 := by norm_num
  unfold format_packet_data at h
  split at h
  · cases h
  · cases h
    rw [counter_field, List.append_assoc, Bytes.slice_append_right _ _ (by simp)]
    simp only [List.length_append, Bytes.length_leBytes, length_le32]
    have hread := Bytes.slice_append_left (Bytes.leBytes 8 s.sending_key_counter)
      (s.packet_seal C src).ciphertext
    rw [Bytes.length_leBytes] at hread
    rw [show 8 - (4 + 4) = 0 from rfl, show 16 - (4 + 4) = 8 from rfl, hread,
      Bytes.leValue_leBytes, Nat.mod_eq_of_lt hfits]

/-- A run of packets counts on from the counter of the session. -/
theorem format_all_counters {C : Crypto} {B : Build} {s s' : Session} {srcs : List (Bytes × Nat)}
    {packets : List Bytes} {evs : List Event} (hs : s.sending_key_counter < 2 ^ B.usize_bits)
    (h : s.format_all C B srcs = .ok (packets, s', evs)) :
    packets.map counter_field = wrapped (2 ^ B.usize_bits) s.sending_key_counter srcs.length ∧
      evs.filterMap Event.data_nonce =
        (packets.map counter_field).map fun c => (s.sender, nonce_of_counter c) := by
  induction srcs generalizing s packets evs with
  | nil =>
    cases h
    exact ⟨rfl, rfl⟩
  | cons src srcs ih =>
    obtain ⟨⟨packet, s₁, evs₁⟩, hfirst, h⟩ := Outcome.bind_eq_ok.mp h
    obtain ⟨⟨rest, s₂, evs₂⟩, hrest, h⟩ := Outcome.bind_eq_ok.mp h
    cases h
    obtain ⟨rfl, rfl⟩ := format_packet_data_ok hfirst
    have hcounter := format_packet_data_counter hs hfirst
    obtain ⟨hcounters, hnonces⟩ := ih (Nat.mod_lt _ (Nat.two_pow_pos _)) hrest
    constructor
    · rw [List.map_cons, List.length_cons, wrapped_succ, hcounters, hcounter, Nat.mod_eq_of_lt hs]
      rfl
    · rw [List.filterMap_append, hnonces, List.map_cons, List.map_cons, hcounter]
      rfl

/-- The nonces of a session are distinct if and only if the counters are. -/
theorem nodup_nonces_iff (key : Bytes) {M : Nat} (hM : 0 < M) (hle : M ≤ 2 ^ 64) (c n : Nat) :
    ((wrapped M c n).map fun i => (key, nonce_of_counter i)).Nodup ↔ (wrapped M c n).Nodup := by
  constructor
  · exact List.Nodup.of_map _
  · intro hnodup
    apply List.Nodup.map_on _ hnodup
    intro i hi j hj heq
    have hlt : ∀ k ∈ wrapped M c n, k < 2 ^ 64 := by
      intro k hk
      obtain ⟨_, _, rfl⟩ := List.mem_map.mp hk
      exact (Nat.mod_lt _ hM).trans_le hle
    exact nonce_of_counter_injective (hlt i hi) (hlt j hj) (Prod.mk.inj heq).2

/-- **Sending counters.**  The counters of a run of packets, and the nonces they are sealed with,
    are pairwise distinct exactly if there are no more packets than the counter has values. -/
theorem sending_counters_distinct_iff {C : Crypto} {B : Build} {s s' : Session}
    {srcs : List (Bytes × Nat)} {packets : List Bytes} {evs : List Event}
    (hs : s.sending_key_counter < 2 ^ B.usize_bits)
    (h : s.format_all C B srcs = .ok (packets, s', evs)) :
    (packets.map counter_field).Nodup ∧ (evs.filterMap Event.data_nonce).Nodup ↔
      srcs.length ≤ 2 ^ B.usize_bits := by
  have hM : 0 < 2 ^ B.usize_bits := Nat.two_pow_pos _
  have hle : 2 ^ B.usize_bits ≤ 2 ^ 64 := Nat.pow_le_pow_right (by decide) B.usize_bits_le
  obtain ⟨hcounters, hnonces⟩ := format_all_counters hs h
  rw [hnonces, hcounters, nodup_nonces_iff s.sender hM hle, and_self, nodup_wrapped_iff hM]

/-- A buffer with room for every packet. -/
theorem format_all_returns (C : Crypto) (B : Build) (s : Session) {srcs : List (Bytes × Nat)}
    (hroom : ∀ p ∈ srcs, p.1.length + DATA_OVERHEAD_SZ ≤ p.2) :
    ∃ res, s.format_all C B srcs = .ok res := by
  induction srcs generalizing s with
  | nil => exact ⟨_, rfl⟩
  | cons p srcs ih =>
    obtain ⟨src, dst_len⟩ := p
    have hfirst : ¬ dst_len < src.length + DATA_OVERHEAD_SZ :=
      Nat.not_lt.mpr (hroom _ (List.mem_cons_self ..))
    obtain ⟨res, hrest⟩ := ih (s.sent B) fun q hq => hroom q (List.mem_cons_of_mem _ hq)
    rw [format_all, format_packet_data, if_neg hfirst, Outcome.ok_bind]
    dsimp only
    rw [hrest]
    exact ⟨_, rfl⟩

/-- A target with 32-bit words, such as armv7. -/
def build32 : Build := ⟨false, 32, false, by decide, by decide⟩

/-- Two packets on a 32-bit target. -/
theorem sending_counters_distinct_two :
    ∃ packets s' evs, (new 1 2 [] [3]).format_all symbolic build32 [([1], 40), ([2], 40)] =
        .ok (packets, s', evs) ∧
      ((packets.map counter_field).Nodup ∧ (evs.filterMap Event.data_nonce).Nodup ↔
        2 ≤ 2 ^ 32) := by
  have hs : (new 1 2 [] [3]).sending_key_counter < 2 ^ build32.usize_bits := by decide
  have hrun : ∃ packets s' evs, (new 1 2 [] [3]).format_all symbolic build32
      [([1], 40), ([2], 40)] = .ok (packets, s', evs) := ⟨_, _, _, rfl⟩
  obtain ⟨packets, s', evs, hrun⟩ := hrun
  exact ⟨packets, s', evs, hrun, sending_counters_distinct_iff hs hrun⟩

/-- **The counter wraps.**  On a 32-bit target, `2^32 + 1` packets are sealed without an error,
    the last one with the counter of the first. -/
theorem sending_counter_wraps :
    ∃ packets s' evs, (new 1 2 [] [3]).format_all symbolic build32
        (List.replicate (2 ^ 32 + 1) ([], 32)) = .ok (packets, s', evs) ∧
      ¬ (packets.map counter_field).Nodup := by
  have hroom : ∀ p ∈ List.replicate (2 ^ 32 + 1) (([] : Bytes), 32),
      p.1.length + DATA_OVERHEAD_SZ ≤ p.2 := by
    intro p hp
    rw [List.eq_of_mem_replicate hp]
    decide
  have hs : (new 1 2 [] [3]).sending_key_counter < 2 ^ build32.usize_bits := by decide
  obtain ⟨⟨packets, s', evs⟩, hrun⟩ := format_all_returns symbolic build32 (new 1 2 [] [3]) hroom
  refine ⟨packets, s', evs, hrun, ?_⟩
  obtain ⟨hcounters, _⟩ := format_all_counters hs hrun
  rw [hcounters, nodup_wrapped_iff (by decide), List.length_replicate]
  decide

end Session

end PqBoringtun
