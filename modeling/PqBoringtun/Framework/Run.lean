import Mathlib.Data.List.Forall2
import Mathlib.Logic.Function.Basic

/-! # Runs of labelled transition systems

    * `Run sys s₀ tr s`: the labels `tr` lead from `s₀` to `s`.
    * `Run.invariant_of`: a property of trace and state that holds initially
      and is preserved by every step holds after every run; a step may use an
      assumption about the trace that every earlier trace inherits.
    * `Run.simulate`: a run of a system whose every step is a step of another
      system, seen through a map of states and labels, is a run of that other
      system.
    * `Run.explain`: the same when a label of the other system is not
      determined by the label alone.
    * `System.guard`: only the steps that meet a condition.
    * `System.interleave`: several components that step one at a time, and
      the run of one of them inside a run of all (`Run.component`).
-/

/-- A labelled transition system. -/
structure System (σ L : Type) where
  step : σ → L → σ → Prop

variable {σ τ L M : Type}

/-- A finite run, with the labels of its steps in order. -/
inductive Run (sys : System σ L) (s₀ : σ) : List L → σ → Prop where
  | nil : Run sys s₀ [] s₀
  | snoc {tr : List L} {s s' : σ} {l : L} (hrun : Run sys s₀ tr s) (hstep : sys.step s l s') :
      Run sys s₀ (tr ++ [l]) s'

namespace Run

variable {sys : System σ L} {s₀ : σ}

/-- **Invariance under an assumption about the trace.** -/
theorem invariant_of {A : List L → Prop} {I : List L → σ → Prop}
    (hA : ∀ {tr l}, A (tr ++ [l]) → A tr) (hinit : I [] s₀)
    (hstep : ∀ {tr s l s'}, A (tr ++ [l]) → I tr s → sys.step s l s' → I (tr ++ [l]) s')
    {tr : List L} {s : σ} (hrun : Run sys s₀ tr s) (htr : A tr) : I tr s := by
  induction hrun with
  | nil => exact hinit
  | snoc _ hst ih => exact hstep htr (ih (hA htr)) hst

/-- **Invariance.** -/
theorem invariant {I : List L → σ → Prop} (hinit : I [] s₀)
    (hstep : ∀ {tr s l s'}, I tr s → sys.step s l s' → I (tr ++ [l]) s')
    {tr : List L} {s : σ} (hrun : Run sys s₀ tr s) : I tr s :=
  invariant_of (A := fun _ => True) (fun _ => trivial) hinit (fun _ => hstep) hrun trivial

/-- The last step of a run. -/
theorem last {tr : List L} {l : L} {s' : σ} (hrun : Run sys s₀ (tr ++ [l]) s') :
    ∃ s, Run sys s₀ tr s ∧ sys.step s l s' := by
  generalize htr : tr ++ [l] = tr' at hrun
  cases hrun with
  | nil => simp at htr
  | snoc hrun hst =>
    obtain ⟨rfl, hl⟩ := List.append_inj' htr rfl
    cases hl
    exact ⟨_, hrun, hst⟩

theorem append {tr tr' : List L} {s s' : σ} (hrun : Run sys s₀ tr s) (hrun' : Run sys s tr' s') :
    Run sys s₀ (tr ++ tr') s' := by
  induction hrun' with
  | nil =>
    rw [List.append_nil]
    exact hrun
  | snoc _ hst ih =>
    rw [← List.append_assoc]
    exact .snoc ih hst

/-- **Simulation.**  Steps map to steps, so runs map to runs. -/
theorem simulate {sys' : System τ M} {f : σ → τ} {g : L → M}
    (hsim : ∀ {s l s'}, sys.step s l s' → sys'.step (f s) (g l) (f s'))
    {tr : List L} {s : σ} (hrun : Run sys s₀ tr s) : Run sys' (f s₀) (tr.map g) (f s) := by
  induction hrun with
  | nil => exact .nil
  | snoc _ hst ih =>
    rw [List.map_append]
    exact .snoc ih (hsim hst)

/-- **Refinement.**  Every step is explained by a step of another system, given
    a run of that system to its source, so a run is explained by a run. -/
theorem explain {sys' : System τ M} {f : σ → τ} {E : L → M → Prop}
    (hsim : ∀ {tr' s l s'}, Run sys' (f s₀) tr' (f s) → sys.step s l s' →
      ∃ m, E l m ∧ sys'.step (f s) m (f s'))
    {tr : List L} {s : σ} (hrun : Run sys s₀ tr s) :
    ∃ tr', List.Forall₂ E tr tr' ∧ Run sys' (f s₀) tr' (f s) := by
  induction hrun with
  | nil => exact ⟨[], .nil, .nil⟩
  | snoc _ hst ih =>
    obtain ⟨tr', hexplained, hrun'⟩ := ih
    obtain ⟨m, hm, hstep⟩ := hsim hrun' hst
    exact ⟨tr' ++ [m], List.rel_append hexplained (.cons hm .nil), .snoc hrun' hstep⟩

end Run

/-- The steps whose source and label meet a condition. -/
def System.guard (sys : System σ L) (G : σ → L → Prop) : System σ L where
  step := fun s l s' => sys.step s l s' ∧ G s l

/-- Runs of a system with fewer steps. -/
theorem Run.mono {sys sys' : System σ L} (h : ∀ {s l s'}, sys.step s l s' → sys'.step s l s')
    {s₀ s : σ} {tr : List L} (hrun : Run sys s₀ tr s) : Run sys' s₀ tr s := by
  induction hrun with
  | nil => exact .nil
  | snoc _ hst ih => exact .snoc ih (h hst)

/-! ## Interleaving -/

/-- Components that step one at a time; a label names the one that steps. -/
def System.interleave {P : Type} (sys : P → System σ L) : System (P → σ) (P × L) where
  step := fun s l s' => (sys l.1).step (s l.1) l.2 (s' l.1) ∧ ∀ q, q ≠ l.1 → s' q = s q

/-- The labels of one component. -/
def labelsOf {P : Type} [DecidableEq P] (p : P) (tr : List (P × L)) : List L :=
  tr.filterMap fun l => if l.1 = p then some l.2 else none

section interleave
variable {P : Type} [DecidableEq P] {p q : P} {l : L} {tr tr' : List (P × L)}

theorem labelsOf_append : labelsOf p (tr ++ tr') = labelsOf p tr ++ labelsOf p tr' := by
  simp [labelsOf]

@[simp] theorem labelsOf_self : labelsOf p [(p, l)] = [l] := by
  simp [labelsOf]

theorem labelsOf_other (h : q ≠ p) : labelsOf p [(q, l)] = [] := by
  simp [labelsOf, h]

theorem mem_labelsOf : l ∈ labelsOf p tr ↔ (p, l) ∈ tr := by
  simp only [labelsOf, List.mem_filterMap]
  constructor
  · rintro ⟨⟨q, m⟩, hmem, hq⟩
    split at hq
    · rename_i hp
      cases hq
      exact hp ▸ hmem
    · cases hq
  · intro hmem
    exact ⟨(p, l), hmem, by simp⟩

/-- The labels of a component that is the only one to step. -/
theorem labelsOf_only {ls : List L} : labelsOf p (ls.map (Prod.mk q)) = if q =
    p then ls else [] := by
  unfold labelsOf
  rw [List.filterMap_map]
  split
  · rename_i heq
    simp [heq]
  · rename_i hne
    simp [hne]

/-- **Each component of an interleaved run is a run.** -/
theorem Run.component {sys : P → System σ L} {s₀ s : P → σ}
    (hrun : Run (System.interleave sys) s₀ tr s) (p : P) :
    Run (sys p) (s₀ p) (labelsOf p tr) (s p) := by
  induction hrun with
  | nil => exact .nil
  | @snoc tr s s' l _ hst ih =>
    obtain ⟨hone, hother⟩ := hst
    rw [labelsOf_append]
    by_cases hp : l.1 = p
    · subst hp
      rw [labelsOf_self]
      exact .snoc ih hone
    · rw [labelsOf_other hp, List.append_nil, hother p (Ne.symm hp)]
      exact ih

/-- One component takes a step. -/
theorem Run.snoc_component {sys : P → System σ L} {s₀ s : P → σ}
    (hrun : Run (System.interleave sys) s₀ tr s) {s' : σ} (hstep : (sys p).step (s p) l s') :
    Run (System.interleave sys) s₀ (tr ++ [(p, l)]) (Function.update s p s') := by
  refine .snoc hrun ⟨?_, fun q hq => Function.update_of_ne hq ..⟩
  rw [Function.update_self]
  exact hstep

end interleave
