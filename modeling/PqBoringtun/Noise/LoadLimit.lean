import PqBoringtun.Framework.Budget
import PqBoringtun.Noise.Cookies

/-! # The load limit

    A rate limiter lets `limit` handshake messages pass after every reset of
    its counter; a message beyond them has to prove its source address with a
    cookie.  All workers of a device share one limiter.

    Each call acts on the counter in one atomic step, so a run of the calls
    of any number of callers is a list of calls.  A reset reads the clock
    before it takes its lock: `current_time` is the reading and `now` the time
    at which it takes effect.

    The counter follows a budget (`Framework.Budget`) as long as it does not
    wrap (`follows`).
-/

namespace PqBoringtun

open Bytes

namespace RateLimiter

/-! ## Section 1: Runs -/

/-- A call of any of the callers. -/
inductive Call where
  | verify_packet (src_addr : Option IpAddr) (src : Bytes) (dst_len now : Nat)
  | reset_count (current_time now : Nat)
  deriving DecidableEq, Repr

/-- When the call takes effect. -/
def Call.now : Call → Nat
  | verify_packet _ _ _ now => now
  | reset_count _ now => now

variable (C : Crypto) (B : Build)

/-- The limiter after a call. -/
def after (l : RateLimiter) : Call → RateLimiter
  | .verify_packet src_addr src dst_len now => (l.verify_packet C B src_addr src dst_len now).2
  | .reset_count current_time _ => l.reset_count current_time

/-- The calls of a run, each with the limiter it meets. -/
def steps (l : RateLimiter) : List Call → List (RateLimiter × Call)
  | [] => []
  | c :: cs => (l, c) :: steps (l.after C B c) cs

/-- mac2 of a message is right for its source address. -/
def proves (l : RateLimiter) (src_addr : Option IpAddr) (src : Bytes) (now : Nat) : Bool :=
  match src_addr with
  | none => false
  | some addr =>
    b2s_keyed_mac_16_2 C (l.current_cookie C addr now) (slice src 0 (src.length - 32))
      (slice src (src.length - 32) (src.length - 16)) = slice src (src.length - 16) src.length

/-- A handshake message was returned although it did not prove its source address. -/
def unproven (x : RateLimiter × Call) : Bool :=
  match x.2 with
  | .verify_packet src_addr src dst_len now =>
    match (x.1.verify_packet C B src_addr src dst_len now).1 with
    | .ok packet => packet.sender_idx.isSome && !x.1.proves C src_addr src now
    | .error _ => false
  | .reset_count _ _ => false

/-- The call wraps the counter of messages. -/
def wraps (x : RateLimiter × Call) : Bool :=
  match x.2 with
  | .verify_packet _ _ _ _ => (x.1.after C B x.2).count < x.1.count
  | .reset_count _ _ => false

/-- The clock reading of a reset that takes effect. -/
def effective (x : RateLimiter × Call) : Option Nat :=
  match x.2 with
  | .verify_packet _ _ _ _ => none
  | .reset_count current_time _ =>
    if RESET_PERIOD ≤ (current_time - x.1.last_reset) / SEC then some current_time else none

variable {C B}

/-! ## Section 2: One call -/

/-- A handshake message with the right mac1 takes from the budget. -/
structure Counted (l l' : RateLimiter) : Prop where
  count : l'.count = (l.count + 1) % 2 ^ 64
  limit : l'.limit = l.limit
  last_reset : l'.last_reset = l.last_reset

theorem format_cookie_reply_counted {l l₁ l₂ : RateLimiter} {idx : UInt32} {cookie mac1 : Bytes}
    {dst_len : Nat} {r : Except WireGuardError Bytes} (hl : Counted l l₁)
    (h : l₁.format_cookie_reply C idx cookie mac1 dst_len = (r, l₂)) : Counted l l₂ := by
  unfold format_cookie_reply at h
  split at h
  · cases h
    exact hl
  · cases h
    exact ⟨hl.count, hl.limit, hl.last_reset⟩

theorem unproven_of_error {l l' : RateLimiter} {src_addr : Option IpAddr} {src : Bytes}
    {dst_len now : Nat} {r : TunnResult}
    (h : l.verify_packet C B src_addr src dst_len now = (.error r, l')) :
    unproven C B (l, .verify_packet src_addr src dst_len now) = false := by
  unfold unproven
  dsimp only
  rw [h]

/-- **What `verify_packet` does to the budget.**  Unless a handshake message comes with the right
    mac1, nothing; else one request is counted, and beyond the limit the message has to prove its
    address. -/
theorem verify_packet_cases (l : RateLimiter) (src_addr : Option IpAddr) (src : Bytes)
    (dst_len now : Nat) :
    ((l.verify_packet C B src_addr src dst_len now).2 = l ∧
      unproven C B (l, .verify_packet src_addr src dst_len now) = false) ∨
    ((∃ packet, parse_incoming_packet B src = .ok packet ∧ packet.sender_idx.isSome ∧
        b2s_keyed_mac_16 C l.mac1_key (slice src 0 (src.length - 32)) =
          slice src (src.length - 32) (src.length - 16)) ∧
      Counted l (l.verify_packet C B src_addr src dst_len now).2 ∧
      (unproven C B (l, .verify_packet src_addr src dst_len now) = true → l.count < l.limit)) := by
  obtain ⟨⟨r, l'⟩, hv⟩ : ∃ res, l.verify_packet C B src_addr src dst_len now = res := ⟨_, rfl⟩
  have hcounted : Counted l l.is_under_load.2 := ⟨rfl, rfl, rfl⟩
  have herror : ∀ e, r = .error e →
      unproven C B (l, .verify_packet src_addr src dst_len now) = false := by
    rintro e rfl
    exact unproven_of_error hv
  rw [hv]
  have hv' := hv
  unfold verify_packet at hv'
  cases hparse : parse_incoming_packet B src with
  | error e =>
    rw [hparse] at hv'
    cases hv'
    exact Or.inl ⟨rfl, herror _ rfl⟩
  | ok packet =>
    rw [hparse] at hv'
    dsimp only at hv'
    cases hidx : packet.sender_idx with
    | none =>
      rw [hidx] at hv'
      cases hv'
      refine Or.inl ⟨rfl, ?_⟩
      simp [unproven, hv, hidx]
    | some idx =>
      rw [hidx] at hv'
      dsimp only at hv'
      by_cases hmac1 : b2s_keyed_mac_16 C l.mac1_key (slice src 0 (src.length - 32)) =
          slice src (src.length - 32) (src.length - 16)
      · refine Or.inr ⟨⟨packet, rfl, by rw [hidx]; rfl, hmac1⟩, ?_⟩
        rw [if_neg (not_not.mpr hmac1)] at hv'
        by_cases hload : l.count < l.limit
        · -- not under load
          have hidle : l.is_under_load.1 = false := decide_eq_false (Nat.not_le.mpr hload)
          rw [if_pos hidle] at hv'
          cases hv'
          exact ⟨hcounted, fun _ => hload⟩
        · have hbusy : ¬ l.is_under_load.1 = false := by
            rw [show l.is_under_load.1 = true from decide_eq_true (Nat.le_of_not_lt hload)]
            simp
          rw [if_neg hbusy] at hv'
          cases src_addr with
          | none =>
            cases hv'
            exact ⟨hcounted, fun h => absurd h (by rw [herror _ rfl]; simp)⟩
          | some addr =>
            dsimp only at hv'
            split at hv'
            · rename_i hmac2
              cases hv'
              have hproves : l.proves C (some addr) src now = true := decide_eq_true hmac2
              refine ⟨hcounted, fun h => ?_⟩
              simp [unproven, hv, hproves] at h
            · split at hv'
              · rename_i hreply
                cases hv'
                exact ⟨format_cookie_reply_counted hcounted hreply,
                  fun h => absurd h (by rw [herror _ rfl]; simp)⟩
              · rename_i hreply
                cases hv'
                exact ⟨format_cookie_reply_counted hcounted hreply,
                  fun h => absurd h (by rw [herror _ rfl]; simp)⟩
      · rw [if_pos hmac1] at hv'
        cases hv'
        exact Or.inl ⟨rfl, herror _ rfl⟩

/-- A reset that does not take effect changes nothing. -/
theorem reset_count_cases (l : RateLimiter) (current_time now : Nat) :
    (effective (l, .reset_count current_time now) = none ∧ l.reset_count current_time = l) ∨
    (effective (l, .reset_count current_time now) = some current_time ∧
      l.last_reset + SEC ≤ current_time ∧
      l.reset_count current_time = { l with count := 0, last_reset := current_time }) := by
  unfold effective reset_count
  dsimp only
  by_cases hperiod : RESET_PERIOD ≤ (current_time - l.last_reset) / SEC
  · rw [if_pos hperiod, if_pos hperiod]
    refine Or.inr ⟨rfl, ?_, rfl⟩
    have hmul := (Nat.le_div_iff_mul_le (by decide)).mp hperiod
    unfold RESET_PERIOD SEC at *
    omega
  · rw [if_neg hperiod, if_neg hperiod]
    exact Or.inl ⟨rfl, rfl⟩

/-! ## Section 3: The budget of a run -/

/-- What a call does to the budget, and when. -/
def action (C : Crypto) (B : Build) (x : RateLimiter × Call) : Option (Nat × Budget.Action) :=
  match x.2 with
  | .verify_packet _ _ _ now =>
    if (x.1.after C B x.2).count = x.1.count then none
    else some (now, .request (x.1.count < x.1.limit))
  | .reset_count _ now => (effective x).map fun _ => (now, .refill)

/-- The history of the budget. -/
def history (C : Crypto) (B : Build) (l : RateLimiter) (cs : List Call) : Budget.History :=
  (steps C B l cs).filterMap (action C B)

theorem steps_map_snd (l : RateLimiter) (cs : List Call) :
    (steps C B l cs).map Prod.snd = cs := by
  induction cs generalizing l with
  | nil => rfl
  | cons c cs ih =>
    rw [steps, List.map_cons, ih]

/-- The limit stays, and the counter stays a counter of 64 bits. -/
theorem after_counts (l : RateLimiter) (hl : l.count < 2 ^ 64) (c : Call) :
    (l.after C B c).count < 2 ^ 64 ∧ (l.after C B c).limit = l.limit := by
  cases c with
  | verify_packet src_addr src dst_len now =>
    rcases verify_packet_cases (C := C) (B := B) l src_addr src dst_len now with
      ⟨hsame, _⟩ | ⟨_, hcounted, _⟩
    · rw [after, hsame]
      exact ⟨hl, rfl⟩
    · rw [after, hcounted.count, hcounted.limit]
      exact ⟨Nat.mod_lt _ (by decide), rfl⟩
  | reset_count current_time now =>
    rcases l.reset_count_cases current_time now with ⟨_, hsame⟩ | ⟨_, _, hreset⟩
    · rw [after, hsame]
      exact ⟨hl, rfl⟩
    · rw [after, hreset]
      exact ⟨Nat.two_pow_pos 64, rfl⟩

theorem count_lt_of_mem {l : RateLimiter} {cs : List Call} (hl : l.count < 2 ^ 64)
    {x : RateLimiter × Call} (hx : x ∈ steps C B l cs) : x.1.count < 2 ^ 64 := by
  induction cs generalizing l with
  | nil => cases hx
  | cons c cs ih =>
    rcases List.mem_cons.mp hx with rfl | hx
    · exact hl
    · exact ih (l.after_counts hl c).1 hx

/-- **The counter follows a budget**, as long as it does not wrap. -/
theorem follows {l : RateLimiter} {cs : List Call} (hl : l.count < 2 ^ 64)
    (hwraps : ∀ x ∈ steps C B l cs, wraps C B x = false) :
    Budget.Follows l.limit l.count (history C B l cs) := by
  induction cs generalizing l with
  | nil => exact .nil
  | cons c cs ih =>
    have hafter := l.after_counts (C := C) (B := B) hl c
    have hih := ih hafter.1 fun x hx => hwraps x (List.mem_cons_of_mem _ hx)
    have hhere := hwraps (l, c) (List.mem_cons_self ..)
    rw [hafter.2] at hih
    cases c with
    | verify_packet src_addr src dst_len now =>
      rcases verify_packet_cases (C := C) (B := B) l src_addr src dst_len now with
        ⟨hsame, _⟩ | ⟨_, hcounted, _⟩
      · -- nothing is counted
        have haction : action C B (l, .verify_packet src_addr src dst_len now) = none := by
          simp [action, after, hsame]
        rw [history, steps, List.filterMap_cons_none haction]
        rw [after, hsame] at hih ⊢
        exact hih
      · have hnowrap : ¬ (l.verify_packet C B src_addr src dst_len now).2.count < l.count :=
          of_decide_eq_false hhere
        have hcount : (l.verify_packet C B src_addr src dst_len now).2.count = l.count + 1 := by
          have := hcounted.count
          omega
        have haction : action C B (l, .verify_packet src_addr src dst_len now) =
            some (now, .request (decide (l.count < l.limit))) := by
          simp [action, after, hcount]
        rw [history, steps, List.filterMap_cons_some haction]
        rw [after, hcount] at hih
        exact .request hih
    | reset_count current_time now =>
      rcases l.reset_count_cases current_time now with ⟨heff, hsame⟩ | ⟨heff, _, hreset⟩
      · have haction : action C B (l, .reset_count current_time now) = none := by
          simp [action, heff]
        rw [history, steps, List.filterMap_cons_none haction]
        rw [after, hsame] at hih ⊢
        exact hih
      · have haction : action C B (l, .reset_count current_time now) = some (now, .refill) := by
          simp [action, heff]
        rw [history, steps, List.filterMap_cons_some haction]
        rw [after, hreset] at hih
        rw [after, hreset]
        exact .refill hih

/-- A message that passes unproven is a granted request. -/
theorem action_of_unproven {x : RateLimiter × Call} (hx : x.1.count < 2 ^ 64)
    (h : unproven C B x = true) : action C B x = some (x.2.now, .request true) := by
  obtain ⟨l, c⟩ := x
  cases c with
  | verify_packet src_addr src dst_len now =>
    rcases verify_packet_cases (C := C) (B := B) l src_addr src dst_len now with
      ⟨_, hproven⟩ | ⟨_, hcounted, hgranted⟩
    · rw [hproven] at h
      cases h
    · have hne : ¬ (l.verify_packet C B src_addr src dst_len now).2.count = l.count := by
        have := hcounted.count
        simp only at hx
        omega
      simp [action, after, hne, hgranted h, Call.now]
  | reset_count current_time now => cases h

/-- A refill is a reset that took effect. -/
theorem action_refill (x : RateLimiter × Call) :
    ((action C B x).map fun a => decide (a.2 = .refill)).getD false = (effective x).isSome := by
  obtain ⟨l, c⟩ := x
  cases c with
  | verify_packet src_addr src dst_len now =>
    unfold action effective
    dsimp only
    split <;> simp
  | reset_count current_time now =>
    unfold action
    dsimp only
    cases effective (l, .reset_count current_time now) <;> simp

/-- Resets that take effect are at least a second apart, by the clock readings they are based
    on. -/
theorem resets_spaced (l : RateLimiter) (cs : List Call) :
    (∀ x ∈ steps C B l cs, ∀ t ∈ effective x, l.last_reset + SEC ≤ t) ∧
    (steps C B l cs).Pairwise fun x y =>
      ∀ s ∈ effective x, ∀ t ∈ effective y, s + SEC ≤ t := by
  induction cs generalizing l with
  | nil => exact ⟨by simp [steps], .nil⟩
  | cons c cs ih =>
    obtain ⟨hlater, hspaced⟩ := ih (l.after C B c)
    cases c with
    | verify_packet src_addr src dst_len now =>
      have hlast : (l.after C B (.verify_packet src_addr src dst_len now)).last_reset =
          l.last_reset := by
        rcases verify_packet_cases (C := C) (B := B) l src_addr src dst_len now with
          ⟨hsame, _⟩ | ⟨_, hcounted, _⟩
        · rw [after, hsame]
        · exact hcounted.last_reset
      rw [hlast] at hlater
      have hnone : effective (l, .verify_packet src_addr src dst_len now) = none := rfl
      refine ⟨?_, List.pairwise_cons.mpr ⟨?_, hspaced⟩⟩
      · intro x hx t ht
        rcases List.mem_cons.mp hx with rfl | hx
        · rw [hnone] at ht
          cases ht
        · exact hlater x hx t ht
      · intro y _ s hs
        rw [hnone] at hs
        cases hs
    | reset_count current_time now =>
      rcases l.reset_count_cases current_time now with ⟨heff, hsame⟩ | ⟨heff, hlate, hreset⟩
      · rw [after, hsame] at hlater hspaced
        refine ⟨?_, ?_⟩
        · intro x hx t ht
          rw [steps, after, hsame] at hx
          rcases List.mem_cons.mp hx with rfl | hx
          · rw [heff] at ht
            cases ht
          · exact hlater x hx t ht
        · rw [steps, after, hsame]
          refine List.pairwise_cons.mpr ⟨?_, hspaced⟩
          intro y _ s hs
          rw [heff] at hs
          cases hs
      · have hnext : (l.after C B (.reset_count current_time now)).last_reset = current_time := by
          rw [after, hreset]
        rw [hnext] at hlater
        refine ⟨?_, List.pairwise_cons.mpr ⟨?_, hspaced⟩⟩
        · intro x hx t ht
          rcases List.mem_cons.mp hx with rfl | hx
          · rw [heff] at ht
            cases ht
            exact hlate
          · have := hlater x hx t ht
            omega
        · intro y hy s hs t ht
          rw [heff] at hs
          cases hs
          exact hlater y hy t ht

/-- The handshake messages that pass unproven, and take effect inside of an interval. -/
def passed (C : Crypto) (B : Build) (l : RateLimiter) (cs : List Call) (start len : Nat) : Nat :=
  (steps C B l cs).countP fun x => unproven C B x && (start ≤ x.2.now ∧ x.2.now ≤ start + len)

/-- What the limiter promises of a run. -/
structure Limits (C : Crypto) (B : Build) (l : RateLimiter) (cs : List Call) : Prop where
  /-- Unproven messages, against the number of resets that take effect. -/
  total : (steps C B l cs).countP (unproven C B) ≤
    l.limit * (1 + (steps C B l cs).countP fun x => (effective x).isSome)
  /-- These resets are at least a second apart. -/
  spaced : (steps C B l cs).Pairwise fun x y =>
    ∀ s ∈ effective x, ∀ t ∈ effective y, s + SEC ≤ t
  /-- Unproven messages, against the time. -/
  rate : ∀ start len, passed C B l cs start len ≤ l.limit * (len / SEC + 2)
  /-- Anything but a handshake message with the right mac1 leaves the limiter as it is. -/
  untouched : ∀ x ∈ steps C B l cs, ∀ src_addr src dst_len now,
    x.2 = .verify_packet src_addr src dst_len now →
    (∀ packet, parse_incoming_packet B src = .ok packet → packet.sender_idx.isSome →
      b2s_keyed_mac_16 C x.1.mac1_key (slice src 0 (src.length - 32)) ≠
        slice src (src.length - 32) (src.length - 16)) →
    x.1.after C B x.2 = x.1

theorem countP_unproven_le {l : RateLimiter} {cs : List Call} (hl : l.count < 2 ^ 64) :
    (steps C B l cs).countP (unproven C B) ≤ Budget.granted (history C B l cs) := by
  rw [Budget.granted, history, List.countP_filterMap]
  apply List.countP_mono_left
  intro x hx hun
  simp [action_of_unproven (count_lt_of_mem hl hx) hun]

theorem refills_history (l : RateLimiter) (cs : List Call) :
    Budget.refills (history C B l cs) =
      (steps C B l cs).countP fun x => (effective x).isSome := by
  rw [Budget.refills, history, List.countP_filterMap]
  apply List.countP_congr
  intro x _
  rw [action_refill]

theorem passed_le {l : RateLimiter} {cs : List Call} (hl : l.count < 2 ^ 64) (start len : Nat) :
    passed C B l cs start len ≤ Budget.granted (Budget.within start len (history C B l cs)) := by
  rw [passed, Budget.granted, Budget.within, List.countP_filter, history, List.countP_filterMap]
  apply List.countP_mono_left
  intro x hx h
  obtain ⟨hun, hin⟩ := Bool.and_eq_true_iff.mp h
  simpa [action_of_unproven (count_lt_of_mem hl hx) hun] using hin

/-- The time of an action is the time of its call. -/
theorem action_time {x : RateLimiter × Call} {a : Nat × Budget.Action}
    (h : action C B x = some a) : a.1 = x.2.now := by
  obtain ⟨l, c⟩ := x
  cases c with
  | verify_packet src_addr src dst_len now =>
    unfold action at h
    dsimp only at h
    split at h
    · cases h
    · cases h
      rfl
  | reset_count current_time now =>
    obtain ⟨_, _, rfl⟩ := Option.map_eq_some_iff.mp h
    rfl

/-- **The rate limiter bounds unproven handshakes**: in every run under a non-decreasing clock in
    which the counter does not wrap and every reset takes effect at the time it has read. -/
theorem unproven_bounded {l : RateLimiter} {cs : List Call} (hl : l.count < 2 ^ 64)
    (hclock : cs.Pairwise fun c d => c.now ≤ d.now)
    (hwraps : ∀ x ∈ steps C B l cs, wraps C B x = false)
    (hprompt : ∀ x ∈ steps C B l cs, ∀ t ∈ effective x, t = x.2.now) : Limits C B l cs := by
  have hfollows := follows hl hwraps
  have hspaced := (resets_spaced (C := C) (B := B) l cs).2
  have hmono : Budget.Monotone (history C B l cs) := by
    rw [← steps_map_snd (C := C) (B := B) l cs, List.pairwise_map] at hclock
    refine hclock.filterMap _ ?_
    intro x y hxy a ha b hb
    rw [action_time ha, action_time hb]
    exact hxy
  have hrefills : Budget.Spaced SEC (history C B l cs) := by
    have hnow : (steps C B l cs).Pairwise fun x y =>
        (effective x).isSome → (effective y).isSome → x.2.now + SEC ≤ y.2.now := by
      refine hspaced.imp_of_mem ?_
      intro x y hx hy hxy hex hey
      obtain ⟨s, hs⟩ := Option.isSome_iff_exists.mp hex
      obtain ⟨t, ht⟩ := Option.isSome_iff_exists.mp hey
      rw [← hprompt x hx s hs, ← hprompt y hy t ht]
      exact hxy s hs t ht
    refine hnow.filterMap _ ?_
    intro x y hxy a ha b hb hra hrb
    rw [action_time ha, action_time hb]
    refine hxy ?_ ?_
    · rw [← action_refill (C := C) (B := B), ha]
      simpa using hra
    · rw [← action_refill (C := C) (B := B), hb]
      simpa using hrb
  constructor
  · calc (steps C B l cs).countP (unproven C B)
        ≤ Budget.granted (history C B l cs) := countP_unproven_le hl
      _ ≤ l.limit * (1 + Budget.refills (history C B l cs)) := hfollows.granted_le
      _ = _ := by rw [refills_history]
  · exact hspaced
  · intro start len
    exact (passed_le hl start len).trans
      (hfollows.granted_within (by decide) hmono hrefills start len)
  · intro x _ src_addr src dst_len now hcall hwrong
    rw [hcall]
    rcases verify_packet_cases (C := C) (B := B) x.1 src_addr src dst_len now with
      ⟨hsame, _⟩ | ⟨⟨packet, hparse, hidx, hmac1⟩, _⟩
    · exact hsame
    · exact absurd hmac1 (hwrong packet hparse hidx)

/-! ## Section 4: Runs beyond the bound -/

theorem steps_append (l : RateLimiter) (cs ds : List Call) :
    steps C B l (cs ++ ds) = steps C B l cs ++ steps C B (cs.foldl (after C B) l) ds := by
  induction cs generalizing l with
  | nil => rfl
  | cons c cs ih =>
    rw [List.cons_append, steps, ih]
    rfl

/-- A limiter of the symbolic tunnel's peer that lets one message pass. -/
def limiterOfOne : RateLimiter := RateLimiter.new symbolic (List.replicate 32 9) 1 0 (symbolicEnv 0)

/-- A handshake message for that peer, from an unknown address. -/
theorem exists_message : ∃ m, ∀ (l : RateLimiter) (now : Nat), l.mac1_key = limiterOfOne.mac1_key →
    l.after symbolic (symbolicBuild false) (.verify_packet none m 0 now) = l.counted ∧
      unproven symbolic (symbolicBuild false) (l, .verify_packet none m 0 now) =
        decide (l.count < l.limit) := by
  obtain ⟨m, h', evs, hcall⟩ : ∃ m h' evs,
      symbolicTunn.handshake.format_handshake_initiation 148 (symbolicEnv 1)
        = (.ok m, h', evs) := ⟨_, _, _, rfl⟩
  have hw := Handshake.format_handshake_initiation_writes symbolic_correct.toSized hcall
  refine ⟨m, ?_⟩
  intro l now hkey
  have hverify := hw.verify (B := symbolicBuild false) symbolic_correct.toSized
      (fun h => by cases h)
    hkey none 0 now
  by_cases hload : l.count < l.limit
  · rw [if_pos hload] at hverify
    constructor
    · rw [after, hverify]
    · simp [unproven, hverify, hload, proves, Packet.sender_idx]
  · rw [if_neg hload] at hverify
    constructor
    · rw [after, hverify]
    · simp [unproven, hverify, hload]

/-- A run of such messages counts on, modulo `2^64`. -/
theorem foldl_counted {m : Bytes} {l : RateLimiter} (n : Nat) (hl : l.count < 2 ^ 64)
    (hm : ∀ (l : RateLimiter) (now : Nat), l.mac1_key = limiterOfOne.mac1_key →
      l.after C B (.verify_packet none m 0 now) = l.counted)
    (hkey : l.mac1_key = limiterOfOne.mac1_key) :
    (List.replicate n (.verify_packet none m 0 0)).foldl (after C B) l =
      { l with count := (l.count + n) % 2 ^ 64 } := by
  induction n generalizing l with
  | zero =>
    rw [Nat.add_zero, Nat.mod_eq_of_lt hl]
    rfl
  | succ n ih =>
    rw [List.replicate_succ, List.foldl_cons, hm l 0 hkey,
      ih (l := l.counted) (Nat.mod_lt _ (Nat.two_pow_pos 64)) hkey]
    simp only [counted, mk.injEq, true_and, and_true]
    rw [Nat.mod_add_mod]
    congr 1
    omega

section message
variable {m : Bytes}
  (hm : ∀ (l : RateLimiter) (now : Nat), l.mac1_key = limiterOfOne.mac1_key →
    l.after C B (.verify_packet none m 0 now) = l.counted ∧
      unproven C B (l, .verify_packet none m 0 now) = decide (l.count < l.limit))
include hm

/-- After a multiple of `2^64` messages one more passes. -/
theorem two_pass {N : Nat} (hN : 0 < N) (hmod : N % 2 ^ 64 = 0) :
    2 ≤ (steps C B limiterOfOne (List.replicate (N + 1) (.verify_packet none m 0 0))).countP
      (unproven C B) := by
  have hlast := foldl_counted N (show limiterOfOne.count < 2 ^ 64 by decide)
    (fun l now hkey => (hm l now hkey).1) rfl
  have hzero : (limiterOfOne.count + N) % 2 ^ 64 = 0 := by
    rw [show limiterOfOne.count = 0 from rfl, Nat.zero_add, hmod]
  obtain ⟨k, rfl⟩ : ∃ k, N = k + 1 := ⟨N - 1, by omega⟩
  have hfirst : unproven C B (limiterOfOne, .verify_packet none m 0 0) = true :=
    (hm limiterOfOne 0 rfl).2
  have hagain : unproven C B ({ limiterOfOne with count := (limiterOfOne.count +
      (k + 1)) % 2 ^ 64 },
      .verify_packet none m 0 0) = true := by
    refine (hm { limiterOfOne with count := (limiterOfOne.count + (k + 1)) % 2 ^ 64 } 0 rfl).2.trans
      (decide_eq_true ?_)
    show (limiterOfOne.count + (k + 1)) % 2 ^ 64 < 1
    rw [hzero]
    exact Nat.one_pos
  rw [List.replicate_succ', steps_append, hlast, List.countP_append, List.replicate_succ, steps,
    List.countP_cons_of_pos hfirst, steps, List.countP_cons_of_pos hagain]
  omega

/-- A reset in time, and a message right after it. -/
theorem passed_round (l : RateLimiter) (t now : Nat) (hkey : l.mac1_key = limiterOfOne.mac1_key)
    (hlimit : 0 < l.limit) (ht : l.last_reset + SEC ≤ t) (cs : List Call) :
    passed C B l (.reset_count t now :: .verify_packet none m 0 now :: cs) now 0 =
      passed C B { l with count := 1, last_reset := t } cs now 0 + 1 := by
  have hreset : l.reset_count t = { l with count := 0, last_reset := t } := by
    refine if_pos ((Nat.le_div_iff_mul_le (by decide)).mpr ?_)
    unfold RESET_PERIOD
    omega
  obtain ⟨hafter, hunproven⟩ := hm { l with count := 0, last_reset := t } now hkey
  rw [decide_eq_true hlimit] at hunproven
  unfold passed
  rw [steps, after, hreset, steps, hafter, List.countP_cons_of_neg (by simp [unproven]),
    List.countP_cons_of_pos (by simp [hunproven, Call.now])]
  rfl

end message

/-- A message that passes, one that does not, and a reset. -/
theorem unproven_bounded_reset : ∃ m,
    Limits symbolic (symbolicBuild false) limiterOfOne [.verify_packet none m 0 0,
      .verify_packet none m 0 SEC, .reset_count (2 * SEC) (2 * SEC)] ∧
    unproven symbolic (symbolicBuild false) (limiterOfOne, .verify_packet none m 0 0) = true := by
  obtain ⟨m, hm⟩ := exists_message
  have hsteps : steps symbolic (symbolicBuild false) limiterOfOne [.verify_packet none m 0 0,
      .verify_packet none m 0 SEC, .reset_count (2 * SEC) (2 * SEC)] =
      [(limiterOfOne, .verify_packet none m 0 0),
        (limiterOfOne.counted, .verify_packet none m 0 SEC),
        (limiterOfOne.counted.counted, .reset_count (2 * SEC) (2 * SEC))] := by
    rw [steps, (hm limiterOfOne 0 rfl).1, steps, (hm limiterOfOne.counted SEC rfl).1, steps, steps]
  refine ⟨m, unproven_bounded (by decide) (by simp [Call.now, SEC]) ?_ ?_,
    (hm limiterOfOne 0 rfl).2⟩
  · rw [hsteps]
    intro x hx
    simp only [List.mem_cons, List.not_mem_nil, or_false] at hx
    rcases hx with rfl | rfl | rfl
    · simp only [wraps, (hm limiterOfOne 0 rfl).1]
      rfl
    · simp only [wraps, (hm limiterOfOne.counted SEC rfl).1]
      rfl
    · rfl
  · rw [hsteps]
    intro x hx t ht
    simp only [List.mem_cons, List.not_mem_nil, or_false] at hx
    rcases hx with rfl | rfl | rfl
    · cases ht
    · cases ht
    · cases ht
      rfl

/-- **Two ways around the limit.**  After `2^64` messages without a reset the counter is back at
    zero, and the next one passes beyond the budget.  And resets that read the clock in different
    seconds, but take the lock at the same time, let three messages pass at once. -/
theorem unproven_beyond_limit : ∃ m,
    limiterOfOne.limit * (1 + (steps symbolic (symbolicBuild false) limiterOfOne
        (List.replicate (2 ^ 64 + 1) (.verify_packet none m 0 0))).countP
          fun x => (effective x).isSome) <
      (steps symbolic (symbolicBuild false) limiterOfOne
        (List.replicate (2 ^ 64 + 1) (.verify_packet none m 0 0))).countP
          (unproven symbolic (symbolicBuild false)) ∧
    limiterOfOne.limit * (0 / SEC + 2) <
      passed symbolic (symbolicBuild false) limiterOfOne
        [.reset_count (1 * SEC) (10 * SEC), .verify_packet none m 0 (10 * SEC),
          .reset_count (2 * SEC) (10 * SEC), .verify_packet none m 0 (10 * SEC),
          .reset_count (3 * SEC) (10 * SEC), .verify_packet none m 0 (10 * SEC)] (10 * SEC) 0 := by
  obtain ⟨m, hm⟩ := exists_message
  refine ⟨m, ?_, ?_⟩
  · have hno : (steps symbolic (symbolicBuild false) limiterOfOne
        (List.replicate (2 ^ 64 + 1) (.verify_packet none m 0 0))).countP
          (fun x => (effective x).isSome) = 0 := by
      rw [List.countP_eq_zero]
      intro x hx
      have hcall := List.mem_map_of_mem (f := Prod.snd) hx
      rw [steps_map_snd] at hcall
      simp [effective, List.eq_of_mem_replicate hcall]
    rw [hno]
    exact two_pass hm (N := 2 ^ 64) (by decide) (by decide)
  · have h₁ := passed_round hm limiterOfOne (1 * SEC) (10 * SEC) rfl (by decide) (by decide)
    have h₂ := passed_round hm { limiterOfOne with count := 1, last_reset := 1 * SEC } (2 * SEC)
      (10 * SEC) rfl (by decide) (by decide)
    have h₃ := passed_round hm { limiterOfOne with count := 1, last_reset := 2 * SEC } (3 * SEC)
      (10 * SEC) rfl (by decide) (by decide)
    rw [h₁, h₂, h₃]
    decide

end RateLimiter

end PqBoringtun
