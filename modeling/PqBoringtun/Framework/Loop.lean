import PqBoringtun.Framework.Outcome

/-! # Loops

    A loop calls its body as long as the result has an output, and collects
    the outputs.  `Runs` is its big-step semantics, so a run exists exactly
    if the loop ends without a panic.

    - `runs_of_measure`: a measure that every repetition lowers bounds the
      number of repetitions.
-/

namespace Loop

variable {ι σ ρ α : Type}

/-- A run of a loop.  `body` is given the inputs in turn; `more` is the output of a result, if the
    loop goes on. -/
inductive Runs (body : ι → σ → Outcome (ρ × σ)) (more : ρ → Option α) :
    (Nat → ι) → σ → List α → ρ → σ → Prop where
  | ends {inputs : Nat → ι} {s s' : σ} {res : ρ} (hbody : body (inputs 0) s = .ok (res, s'))
      (hends : more res = none) : Runs body more inputs s [] res s'
  | again {inputs : Nat → ι} {s s₁ s' : σ} {res res' : ρ} {a : α} {as : List α}
      (hbody : body (inputs 0) s = .ok (res, s₁)) (hmore : more res = some a)
      (hrest : Runs body more (fun i => inputs (i + 1)) s₁ as res' s') :
      Runs body more inputs s (a :: as) res' s'

/-- **Measure rule**: if the body does not panic under an invariant, and each repetition keeps the
    invariant and lowers a measure, then the loop ends, after at most as many repetitions as the
    measure says. -/
theorem runs_of_measure (body : ι → σ → Outcome (ρ × σ)) (more : ρ → Option α) (I : σ → Prop)
    (measure : σ → Nat) (hreturns : ∀ i {s}, I s → ∃ x, body i s = .ok x)
    (hlower : ∀ {i s res s' a}, I s → body i s = .ok (res, s') → more res = some a →
      I s' ∧ measure s' < measure s)
    (inputs : Nat → ι) {s : σ} (hI : I s) :
    ∃ as res s', Runs body more inputs s as res s' ∧ as.length ≤ measure s := by
  induction hn : measure s using Nat.strongRecOn generalizing inputs s with
  | ind n ih =>
    obtain ⟨⟨res, s₁⟩, hbody⟩ := hreturns (inputs 0) hI
    cases hmore : more res with
    | none => exact ⟨[], res, s₁, .ends hbody hmore, Nat.zero_le n⟩
    | some a =>
      obtain ⟨hI₁, hlt⟩ := hlower hI hbody hmore
      rw [hn] at hlt
      obtain ⟨as, res', s', hrest, hlen⟩ :=
        ih (measure s₁) hlt (fun i => inputs (i + 1)) hI₁ rfl
      refine ⟨a :: as, res', s', .again hbody hmore hrest, ?_⟩
      rw [List.length_cons]
      omega

end Loop
