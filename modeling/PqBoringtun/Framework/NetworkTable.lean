import Mathlib.Data.List.AList
import Mathlib.Data.List.MinMax

/-! # Tables of networks

    A table maps networks to values; an address is looked up by the longest
    network that contains it.

    * `Networks`: what a network is to a table.  Two networks of one length
      that share an address are equal.
    * `NetworkTable`: a finite map from networks, with insertion, retention
      and `longest_match`.
    * `longest_match_eq_some`: the longest match is the entry of the longest
      network that contains the address, and there is only one.
-/

/-! ## Finite maps -/

namespace AList

variable {K V : Type} [DecidableEq K] {t : AList fun _ : K => V} {k k' : K} {v v' : V}

theorem lookup_insert_eq_some : (t.insert k' v').lookup k = some v ↔
    (k = k' ∧ v = v') ∨ (k ≠ k' ∧ t.lookup k = some v) := by
  by_cases hk : k = k'
  · subst hk
    rw [lookup_insert]
    simp [eq_comm]
  · rw [lookup_insert_ne hk]
    simp [hk]

theorem lookup_erase_eq_some : (t.erase k').lookup k = some v ↔
    k ≠ k' ∧ t.lookup k = some v := by
  by_cases hk : k = k'
  · subst hk
    rw [lookup_erase]
    simp
  · rw [lookup_erase_ne hk]
    simp [hk]

end AList

/-! ## Networks -/

/-- Networks of addresses. -/
class Networks (Net : Type) (Addr : outParam Type) where
  contains : Net → Addr → Bool
  length : Net → Nat
  eq_of_contains {n m : Net} {a : Addr} (hn : contains n a) (hm : contains m a)
    (hlen : length n = length m) : n = m

open Networks

/-- A finite map from networks. -/
abbrev NetworkTable (Net D : Type) : Type := AList fun _ : Net => D

namespace NetworkTable

variable {Net Addr D : Type} [DecidableEq Net]

/-- The entries whose value passes. -/
def retain (t : NetworkTable Net D) (p : D → Bool) : NetworkTable Net D where
  entries := t.entries.filter fun e => p e.2
  nodupKeys := t.nodupKeys.sublist List.filter_sublist

variable {t : NetworkTable Net D} {p : D → Bool} {n m : Net} {a : Addr} {d d' : D}

theorem lookup_eq_some : t.lookup n = some d ↔ ⟨n, d⟩ ∈ t.entries :=
  AList.mem_lookup_iff

theorem lookup_retain : (t.retain p).lookup n = some d ↔ t.lookup n = some d ∧ p d = true := by
  rw [lookup_eq_some, lookup_eq_some]
  exact List.mem_filter

variable [Networks Net Addr]

/-- The entry of the longest network that contains the address. -/
def longest_match (t : NetworkTable Net D) (a : Addr) : Option (Net × D) :=
  ((t.entries.filter fun e => contains e.1 a).argmax fun e => length e.1).map fun e => (e.1, e.2)

/-- **The longest match** is the entry of the longest network that contains the address. -/
theorem longest_match_eq_some :
    t.longest_match a = some (n, d) ↔ t.lookup n = some d ∧ contains n a = true ∧
      ∀ m d', t.lookup m = some d' → contains m a = true → length m ≤ length n := by
  have hmem : ∀ {m : Net} {d' : D}, (⟨m, d'⟩ : Sigma fun _ => D) ∈
      t.entries.filter (fun e => contains e.1 a) ↔ t.lookup m = some d' ∧ contains m a = true := by
    intro m d'
    rw [lookup_eq_some]
    exact List.mem_filter
  unfold longest_match
  constructor
  · intro h
    obtain ⟨e, hmax, heq⟩ := Option.map_eq_some_iff.mp h
    cases heq
    obtain ⟨hlookup, hcontains⟩ := hmem.mp (List.argmax_mem hmax)
    refine ⟨hlookup, hcontains, ?_⟩
    intro m d' hm ha
    exact List.le_of_mem_argmax (f := fun e : Sigma fun _ : Net => D => length e.1)
      (hmem.mpr ⟨hm, ha⟩) hmax
  · rintro ⟨hlookup, hcontains, hlongest⟩
    cases hmax : (t.entries.filter fun e => contains e.1 a).argmax fun e => length e.1 with
    | none =>
      have hnil := List.argmax_eq_none.mp hmax
      have hin := hmem.mpr ⟨hlookup, hcontains⟩
      rw [hnil] at hin
      cases hin
    | some e =>
      -- The maximum has the same length, so it is the same network.
      obtain ⟨hlookup', hcontains'⟩ := hmem.mp (List.argmax_mem hmax)
      have hle : length n ≤ length e.1 :=
        List.le_of_mem_argmax (f := fun e : Sigma fun _ : Net => D => length e.1)
          (hmem.mpr ⟨hlookup, hcontains⟩) hmax
      have hge : length e.1 ≤ length n := hlongest _ _ hlookup' hcontains'
      obtain rfl : n = e.1 := eq_of_contains hcontains hcontains' (Nat.le_antisymm hle hge)
      have hd : some d = some e.2 := hlookup.symm.trans hlookup'
      cases hd
      rfl

/-- There is no match when no network contains the address. -/
theorem longest_match_eq_none :
    t.longest_match a = none ↔ ∀ m d', t.lookup m = some d' → contains m a = false := by
  unfold longest_match
  rw [Option.map_eq_none_iff, List.argmax_eq_none, List.filter_eq_nil_iff]
  constructor
  · intro h m d' hm
    exact Bool.eq_false_iff.mpr (h _ (lookup_eq_some.mp hm))
  · intro h e he
    rw [h e.1 e.2 (lookup_eq_some.mpr he)]
    exact Bool.false_ne_true

end NetworkTable
