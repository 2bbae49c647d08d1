import Mathlib.Data.List.Basic
import Mathlib.Data.List.Induction

/-! # Key schedules over a keyed hash

    A key schedule keeps a chaining key `ck` and mixes one input after the
    other into it with a keyed hash `h`.  Mixing an input `x` extracts the
    temporary key `h ck x`, and up to three keys are expanded from it:

    * `mix ck x`, the next chaining key;
    * `field ck x`, expanded from the next chaining key;
    * `confirm ck x`, expanded from `field ck x`.

    `derive tag start xs x` is the key of kind `tag` obtained from `start`
    by mixing the inputs `xs` and then `x`.  When the hash has no collisions
    and a start is never an output of it, a derived key determines its kind,
    its start and all its inputs (`derive_inj`).
-/

namespace KeyChain

/-- A keyed hash with the data hashed for the three expansions. -/
structure Schedule (K D : Type) where
  h : K → D → K
  one : D
  two : K → D
  three : K → D

/-- The kind of a derived key. -/
inductive Tag where
  | chain
  | field
  | confirm
  deriving DecidableEq, Repr

namespace Schedule

variable {K D : Type} (S : Schedule K D)

/-- The next chaining key. -/
def mix (ck : K) (x : D) : K := S.h (S.h ck x) S.one

/-- The key expanded next to the chaining key. -/
def field (ck : K) (x : D) : K := S.h (S.h ck x) (S.two (S.mix ck x))

/-- The key expanded from `field`. -/
def confirm (ck : K) (x : D) : K := S.h (S.h ck x) (S.three (S.field ck x))

/-- Mix a list of inputs into the chaining key. -/
def chain (ck : K) (xs : List D) : K := xs.foldl S.mix ck

/-- The key of kind `tag` after mixing `xs` and then `x`. -/
def derive (tag : Tag) (start : K) (xs : List D) (x : D) : K :=
  match tag with
  | .chain => S.mix (S.chain start xs) x
  | .field => S.field (S.chain start xs) x
  | .confirm => S.confirm (S.chain start xs) x

@[simp] theorem chain_nil (ck : K) : S.chain ck [] = ck := rfl

@[simp] theorem chain_cons (ck : K) (x : D) (xs : List D) :
    S.chain ck (x :: xs) = S.chain (S.mix ck x) xs := rfl

theorem chain_snoc (ck : K) (xs : List D) (x : D) :
    S.chain ck (xs ++ [x]) = S.mix (S.chain ck xs) x := by
  simp [chain]

theorem chain_append (ck : K) (xs ys : List D) :
    S.chain ck (xs ++ ys) = S.chain (S.chain ck xs) ys := by
  simp [chain]

/-- A derivation that starts from a chaining key continues its inputs. -/
theorem derive_chain (tag : Tag) (start : K) (xs ys : List D) (x : D) :
    S.derive tag (S.chain start xs) ys x = S.derive tag start (xs ++ ys) x := by
  cases tag <;> simp [derive, chain_append]

/-- Not an output of the hash. -/
def Fresh (k : K) : Prop := ∀ k' d, S.h k' d ≠ k

/-- The hash has no collisions and the three expansions hash different data. -/
structure Ideal : Prop where
  h_inj : ∀ {k d k' d'}, S.h k d = S.h k' d' → k = k' ∧ d = d'
  one_ne_two : ∀ k, S.one ≠ S.two k
  one_ne_three : ∀ k, S.one ≠ S.three k
  two_ne_three : ∀ k k', S.two k ≠ S.three k'

variable {S}

theorem mix_inj (hS : S.Ideal) {ck ck' : K} {x x' : D} (heq : S.mix ck x = S.mix ck' x') :
    ck = ck' ∧ x = x' :=
  hS.h_inj (hS.h_inj heq).1

/-- **A chaining key determines its start and its inputs.** -/
theorem chain_inj (hS : S.Ideal) {ck ck' : K} (hck : S.Fresh ck) (hck' : S.Fresh ck')
    {xs ys : List D} (heq : S.chain ck xs = S.chain ck' ys) : ck = ck' ∧ xs = ys := by
  -- Compare from the last input backwards; when one list runs out first, its
  -- start would be an output of the hash.
  induction xs using List.reverseRecOn generalizing ys with
  | nil =>
    rcases List.eq_nil_or_concat ys with rfl | ⟨ys, y, rfl⟩
    · exact ⟨heq, rfl⟩
    · rw [List.concat_eq_append, chain_snoc, chain_nil] at heq
      exact absurd heq.symm (hck _ _)
  | append_singleton xs x ih =>
    rcases List.eq_nil_or_concat ys with rfl | ⟨ys, y, rfl⟩
    · rw [chain_snoc, chain_nil] at heq
      exact absurd heq (hck' _ _)
    · rw [List.concat_eq_append, chain_snoc, chain_snoc] at heq
      obtain ⟨hchain, rfl⟩ := mix_inj hS heq
      obtain ⟨hstart, rfl⟩ := ih hchain
      exact ⟨hstart, List.concat_eq_append.symm⟩

/-- Every derived key is one hash of the same temporary key. -/
theorem derive_eq (tag : Tag) (start : K) (xs : List D) (x : D) :
    ∃ d, S.derive tag start xs x = S.h (S.h (S.chain start xs) x) d ∧
      (match tag with
        | .chain => d = S.one
        | .field => ∃ k, d = S.two k
        | .confirm => ∃ k, d = S.three k) := by
  cases tag with
  | chain => exact ⟨_, rfl, rfl⟩
  | field => exact ⟨_, rfl, _, rfl⟩
  | confirm => exact ⟨_, rfl, _, rfl⟩

/-- **A derived key determines its kind, its start and its inputs.** -/
theorem derive_inj (hS : S.Ideal) {start start' : K} (hs : S.Fresh start) (hs' : S.Fresh start')
    {tag tag' : Tag} {xs xs' : List D} {x x' : D}
    (heq : S.derive tag start xs x = S.derive tag' start' xs' x') :
    tag = tag' ∧ start = start' ∧ xs = xs' ∧ x = x' := by
  obtain ⟨d, hd, htag⟩ := S.derive_eq tag start xs x
  obtain ⟨d', hd', htag'⟩ := S.derive_eq tag' start' xs' x'
  rw [hd, hd'] at heq
  obtain ⟨htemp, rfl⟩ := hS.h_inj heq
  obtain ⟨hchain, hx⟩ := hS.h_inj htemp
  obtain ⟨hstart, hxs⟩ := chain_inj hS hs hs' hchain
  refine ⟨?_, hstart, hxs, hx⟩
  -- The data of the last hash tells the kinds apart.
  cases tag <;> cases tag' <;> first | rfl | skip
  case chain.field => obtain ⟨k, hk⟩ := htag'; exact absurd (htag.symm.trans hk) (hS.one_ne_two k)
  case chain.confirm =>
    obtain ⟨k, hk⟩ := htag'; exact absurd (htag.symm.trans hk) (hS.one_ne_three k)
  case field.chain => obtain ⟨k, hk⟩ := htag; exact absurd (htag'.symm.trans hk) (hS.one_ne_two k)
  case field.confirm =>
    obtain ⟨k, hk⟩ := htag
    obtain ⟨k', hk'⟩ := htag'
    exact absurd (hk.symm.trans hk') (hS.two_ne_three k k')
  case confirm.chain =>
    obtain ⟨k, hk⟩ := htag; exact absurd (htag'.symm.trans hk) (hS.one_ne_three k)
  case confirm.field =>
    obtain ⟨k, hk⟩ := htag
    obtain ⟨k', hk'⟩ := htag'
    exact absurd (hk'.symm.trans hk) (hS.two_ne_three k' k)

end Schedule

end KeyChain
