import PqBoringtun.Noise.Machine
import PqBoringtun.Noise.Wire

/-! # Sender indices

    The upper 24 bits of an index stand for the peer, the lower 8 bits count
    its handshakes.

    * `inc_index_peer`: counting never carries into the upper bits.
    * `Tunn.run_sender_index`: every handshake message that a tunnel sends,
      in a run of any length, has the upper bits of the tunnel's first index.
-/

namespace PqBoringtun

open Bytes

variable {C : Crypto} {B : Build}

/-! ## Section 1: The two parts of an index -/

theorem inc_index_peer (i : UInt32) : inc_index i >>> 8 = i >>> 8 := by
  apply UInt32.toNat_inj.mp
  have hcount : ((i.toNat + 1) % 256) >>> 8 = 0 := by
    rw [Nat.shiftRight_eq_div_pow]
    omega
  have hmask : (4294967040 : Nat) >>> 8 = 2 ^ 24 - 1 := by decide
  have hsmall : i.toNat >>> 8 < 2 ^ 24 := by
    have := i.toNat_lt
    rw [Nat.shiftRight_eq_div_pow]
    omega
  have hinc : (inc_index i).toNat = i.toNat &&& 4294967040 ||| (i.toNat + 1) % 256 := by
    simp [inc_index]
  show (inc_index i).toNat >>> 8 = i.toNat >>> 8
  rw [hinc, Nat.shiftRight_or_distrib, Nat.shiftRight_and_distrib, hcount, hmask,
    Nat.and_two_pow_sub_one_eq_mod, Nat.mod_eq_of_lt hsmall, Nat.or_zero]

/-- The upper bits of the first index of a tunnel. -/
theorem shift_index {i : UInt32} (hi : i.toNat < 2 ^ 24) : i <<< 8 >>> 8 = i := by
  apply UInt32.toNat_inj.mp
  simp only [UInt32.toNat_shiftRight, UInt32.toNat_shiftLeft, Nat.shiftLeft_eq,
    Nat.shiftRight_eq_div_pow]
  show i.toNat * 2 ^ 8 % 2 ^ 32 / 2 ^ 8 = i.toNat
  omega

/-! ## Section 2: Messages -/

/-- The types of the handshake messages. -/
def HANDSHAKE_TYPES : List Nat :=
  [HANDSHAKE_INIT, HANDSHAKE_RESP, PQ_HANDSHAKE_INIT, PQ_HANDSHAKE_RESP]

/-- The sender index of a handshake message that is written to the network. -/
def TunnResult.sender_index : TunnResult → Option UInt32
  | .WriteToNetwork m =>
    if leValue (slice m 0 4) ∈ HANDSHAKE_TYPES then some (u32_from_le (slice m 4 8)) else none
  | _ => none

theorem sender_index_typed {T : Nat} {rest : Bytes} (hT : T < 256) :
    (TunnResult.WriteToNetwork (leBytes 4 T ++ rest)).sender_index =
      if T ∈ HANDSHAKE_TYPES then some (u32_from_le (slice rest 0 4)) else none := by
  have hlen : (leBytes 4 T).length = 4 := by simp
  have htype : slice (leBytes 4 T ++ rest) 0 4 = leBytes 4 T := slice_read hlen
  have hindex : slice (leBytes 4 T ++ rest) 4 8 = slice rest 0 4 := slice_skip hlen (Nat.le_refl 4)
  show (if leValue (slice (leBytes 4 T ++ rest) 0 4) ∈ HANDSHAKE_TYPES then
    some (u32_from_le (slice (leBytes 4 T ++ rest) 4 8)) else none) = _
  rw [htype, hindex, leValue_type hT]

theorem sender_index_handshake {T : Nat} {i : UInt32} {rest : Bytes} (hT : T ∈ HANDSHAKE_TYPES) :
    (TunnResult.WriteToNetwork (leBytes 4 T ++ le32 i ++ rest)).sender_index = some i := by
  have hsmall : ∀ T ∈ HANDSHAKE_TYPES, T < 256 := by decide
  rw [List.append_assoc, sender_index_typed (hsmall T hT), if_pos hT, slice_read (length_le32 i),
    u32_from_le_le32]

theorem init_type_handshake (v : Variant) : v.init_type ∈ HANDSHAKE_TYPES := by
  cases v <;> decide

theorem resp_type_handshake (v : Variant) : v.resp_type ∈ HANDSHAKE_TYPES := by
  cases v <;> decide

/-- Data packets and cookie replies have no sender index. -/
theorem sender_index_data {m : Bytes} (h : ∃ rest, m = leBytes 4 DATA ++ rest) :
    (TunnResult.WriteToNetwork m).sender_index = none := by
  obtain ⟨rest, rfl⟩ := h
  rw [sender_index_typed (by decide), if_neg (by decide)]

theorem sender_index_limiter {r : TunnResult}
    (h : (∃ rest, r = .WriteToNetwork (leBytes 4 COOKIE_REPLY ++ rest)) ∨ ∃ e, r = .Err e) :
    r.sender_index = none := by
  rcases h with ⟨rest, rfl⟩ | ⟨e, rfl⟩
  · rw [sender_index_typed (by decide), if_neg (by decide)]
  · rfl

/-! ## Section 3: What an operation does to the index -/

namespace Handshake

/-- The upper bits stay, and a handshake message carries the new index. -/
structure Numbers (h : Handshake C) (r : TunnResult) (h' : Handshake C) : Prop where
  peer : h'.next_index >>> 8 = h.next_index >>> 8
  sender : ∀ i, r.sender_index = some i → i = h'.next_index

theorem Numbers.of_silent {h h' : Handshake C} {r : TunnResult}
    (hindex : h'.next_index = h.next_index) (hr : r.sender_index = none) : h.Numbers r h' where
  peer := by rw [hindex]
  sender := by
    intro i hi
    rw [hr] at hi
    cases hi

end Handshake

namespace Tunn

open Handshake (Numbers)

variable {t t' : Tunn C} {dst_len : Nat} {env : Env} {op : Op} {r : TunnResult} {evs : List Event}

theorem numbers_starts {force : Bool} (h : t.Starts B dst_len force env r t' evs) :
    t.handshake.Numbers r t'.handshake := by
  cases h with
  | busy _ _ => exact .of_silent rfl rfl
  | no_room _ _ => exact .of_silent (by rw [cleared_handshake]) rfl
  | sent m h' evs hidle hcall =>
    rw [initiated_handshake]
    obtain ⟨rest, rfl⟩ := Handshake.format_initiation_header hcall
    rcases Handshake.format_initiation_cases hcall with ⟨_, hres, _⟩ | ⟨_, _, _, _, _, rfl, _, _⟩
    · cases hres
    · refine ⟨inc_index_peer _, ?_⟩
      intro i hi
      rw [sender_index_handshake (init_type_handshake _)] at hi
      exact (Option.some.inj hi).symm

theorem numbers_encapsulates {src : Bytes} (h : t.Encapsulates B src dst_len env r t' evs) :
    t.handshake.Numbers r t'.handshake := by
  cases h with
  | sealed session packet _ htype =>
    rw [after_send_handshake]
    exact .of_silent rfl (sender_index_data htype)
  | queued _ hstart =>
    rw [← queue_packet_handshake t src]
    exact numbers_starts hstart

theorem numbers_flushes (h : t.Flushes B dst_len env r t' evs) :
    t.handshake.Numbers r t'.handshake := by
  cases h with
  | empty _ => exact .of_silent rfl rfl
  | failed packet rest e t₁ evs _ henc =>
    rw [requeue_packet_handshake]
    refine ⟨(numbers_encapsulates (t := { t with packet_queue := rest }) henc).peer, ?_⟩
    intro i hi
    cases hi
  | passed packet rest _ _ henc =>
    exact numbers_encapsulates (t := { t with packet_queue := rest }) henc

theorem numbers_ticks (h : t.Ticks B dst_len env r t' evs) :
    t.handshake.Numbers r t'.handshake := by
  cases h with
  | expires _ => exact .of_silent rfl rfl
  | retransmits s _ _ _ hstart => exact numbers_starts hstart
  | waits s _ _ _ => exact .of_silent rfl rfl
  | rekeys want _ _ hstart =>
    exact numbers_starts (t := { t with timers := { t.timers with want_handshake := want } }) hstart
  | keepalive want want' t₁ _ _ ht₁ henc =>
    have hsame : t₁.handshake = t.handshake := by
      rcases ht₁ with rfl | rfl <;> rfl
    rw [← hsame]
    rcases henc with henc | ⟨rfl, rfl, _⟩
    · exact numbers_encapsulates henc
    · exact .of_silent rfl rfl

theorem numbers_updates (h : t.Updates B dst_len env r t' evs) :
    t.handshake.Numbers r t'.handshake := by
  have hrefreshed : ∀ {t₁}, t.refresh env = .ok t₁ → t₁.handshake = t.handshake := by
    intro t₁ hrefresh
    obtain ⟨_, _, _, _, _, rfl⟩ := refresh_cases hrefresh
    rfl
  cases h with
  | expired _ hrefresh _ =>
    rw [hrefreshed hrefresh]
    exact .of_silent rfl rfl
  | ticks t₁ cookies hrefresh _ hticks =>
    rw [← hrefreshed hrefresh]
    obtain ⟨hpeer, hsender⟩ := numbers_ticks hticks
    exact ⟨hpeer, hsender⟩

theorem sender_index_cookie_reply {p : PacketCookieReply}
    (h : t.handle_cookie_reply p = (r, t', evs)) : r.sender_index = none := by
  unfold handle_cookie_reply at h
  dsimp only at h
  split at h
  · cases h
    rfl
  · cases h
    rfl

/-- What was decapsulated goes to the interface. -/
theorem sender_index_validate (t : Tunn C) (p : Bytes) :
    (t.validate_decapsulated_packet p).1.sender_index = none := by
  unfold validate_decapsulated_packet
  split
  · rfl
  split
  · rfl
  split
  · rfl
  · split <;> rfl

theorem numbers_handles {packet : Packet} (h : t.Handles B dst_len env packet r t' evs) :
    t.handshake.Numbers r t'.handshake := by
  cases h with
  | init v p ek hinit hreceives hres =>
    cases hreceives with
    | rejected e hc =>
      cases hres
      exact .of_silent rfl rfl
    | stalled c hc _ =>
      cases hres
      exact .of_silent rfl rfl
    | refused c e hc _ _ =>
      cases hres
      refine ⟨inc_index_peer _, ?_⟩
      intro i hi
      cases hi
    | answered c kem r' session m cookies hc _ _ _ _ hm =>
      cases hres
      obtain ⟨rest, rfl⟩ := hm
      refine ⟨inc_index_peer _, ?_⟩
      intro i hi
      rw [sender_index_handshake (resp_type_handshake _)] at hi
      exact (Option.some.inj hi).symm
  | response v p ct _ hreceives hres =>
    cases hreceives with
    | rejected e =>
      cases hres
      exact .of_silent rfl rfl
    | accepted s is_previous rk sk session hslot _ _ _ =>
      -- The answer to a response is a keepalive, which is a data packet.
      obtain ⟨⟨keepalive, session', sealed⟩, hfmt, hres⟩ := Outcome.bind_eq_ok.mp hres
      have htype := Session.format_packet_data_type hfmt
      cases hres
      rw [set_current_session_handshake]
      exact .of_silent rfl (sender_index_data htype)
  | cookie p hres =>
    have hindex := congrArg View.next_index (view_handle_cookie_reply hres).1
    exact .of_silent hindex (sender_index_cookie_reply hres)
  | data p hreceives =>
    cases hreceives with
    | rejected e => exact .of_silent rfl rfl
    | accepted session plaintext v t₁ _ _ ht₁ =>
      have hsame : t₁.handshake = t.handshake := by
        rw [ht₁]
        show (Tunn.set_current_session _ _).handshake = _
        rw [set_current_session_handshake]
        rfl
      have hindex := congrArg View.next_index (view_validate_decapsulated_packet t₁ plaintext)
      exact .of_silent (hindex.trans (congrArg Handshake.next_index hsame))
        (sender_index_validate t₁ plaintext)

/-- **What an operation does to the index.** -/
theorem step_numbers (hstep : t.step B op env = .ok (r, t', evs)) :
    t.handshake.Numbers r t'.handshake := by
  cases step_cases hstep with
  | handles packet limiter dst_len _ _ hhandles =>
    exact numbers_handles (t := { t with rate_limiter := limiter }) hhandles
  | drops addr datagram dst_len r limiter _ _ hr => exact .of_silent rfl (sender_index_limiter hr)
  | flushes addr dst_len hflush => exact numbers_flushes hflush
  | encapsulates src dst_len henc => exact numbers_encapsulates henc
  | updates dst_len hupdate => exact numbers_updates hupdate
  | starts dst_len force hstart => exact numbers_starts hstart
  | rekeys priv pub limiter t' hset =>
    obtain ⟨params, _, _, hview⟩ := view_set_static_private hset
    exact .of_silent (congrArg View.next_index hview) rfl
  | shares count nonce_ctr last_reset => exact .of_silent rfl rfl

/-- **Every handshake message names the peer.**  In a run of a tunnel, the upper bits of the index
    stay, and the sender index of every handshake message has them. -/
theorem run_sender_index {t₀ t : Tunn C} {tr : List Label} (hrun : Run (tunnel C B) t₀ tr t) :
    t.handshake.next_index >>> 8 = t₀.handshake.next_index >>> 8 ∧
      ∀ l ∈ tr, ∀ i, l.result.sender_index = some i → i >>> 8 = t₀.handshake.next_index >>> 8 := by
  refine hrun.invariant (I := fun (tr : List Label) (t : Tunn C) =>
    t.handshake.next_index >>> 8 = t₀.handshake.next_index >>> 8 ∧
      ∀ l ∈ tr, ∀ i : UInt32, l.result.sender_index = some i →
        i >>> 8 = t₀.handshake.next_index >>> 8) ⟨rfl, by simp⟩ ?_
  intro tr t l t' ih hstep
  obtain ⟨hpeer, hsender⟩ := step_numbers hstep
  have hkept := hpeer.trans ih.1
  refine ⟨hkept, ?_⟩
  intro l' hl' i hi
  rcases List.mem_append.mp hl' with hold | hlast
  · exact ih.2 l' hold i hi
  · obtain rfl := List.mem_singleton.mp hlast
    rw [hsender i hi]
    exact hkept

end Tunn

end PqBoringtun
