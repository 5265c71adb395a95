import Mathlib.Tactic

/-! # Runs of a labelled machine

Runs of a step relation whose labels are recorded, and the rule that carries an invariant, which may
speak of the labels seen so far, along a run.
-/

namespace Reactive

variable {S L : Type}

/-- A run from a state, with the list of its labels in order, through steps of `step`. -/
inductive Run (step : S → L → S → Prop) (s₀ : S) : List L → S → Prop
  | nil : Run step s₀ [] s₀
  | snoc {trace : List L} {s s' : S} {l : L} (run : Run step s₀ trace s) (h : step s l s') :
      Run step s₀ (trace ++ [l]) s'

namespace Run

variable {step step' : S → L → S → Prop} {s₀ s : S} {trace : List L}

/-- What holds at the start and is kept by every step holds after every run. -/
theorem invariant {Inv : List L → S → Prop} (h₀ : Inv [] s₀)
    (hstep : ∀ trace s l s', Inv trace s → step s l s' → Inv (trace ++ [l]) s')
    (h : Run step s₀ trace s) : Inv trace s := by
  induction h with
  | nil => exact h₀
  | snoc _ h ih => exact hstep _ _ _ _ ih h

/-- A run of a machine is a run of any machine that has its steps. -/
theorem mono (hle : ∀ s l s', step s l s' → step' s l s') (h : Run step s₀ trace s) :
    Run step' s₀ trace s := by
  induction h with
  | nil => exact nil
  | snoc _ h ih => exact ih.snoc (hle _ _ _ h)

/-- The last step of a run. -/
theorem snoc_inv {l : L} {s' : S} (h : Run step s₀ (trace ++ [l]) s') :
    ∃ s, Run step s₀ trace s ∧ step s l s' := by
  generalize ht : trace ++ [l] = trace' at h
  cases h with
  | nil => simp at ht
  | snoc run h =>
    obtain ⟨rfl, hl⟩ := List.append_inj' ht rfl
    cases hl
    exact ⟨_, run, h⟩

/-- The labels determine the run of a deterministic machine. -/
theorem deterministic (hdet : ∀ s l s₁ s₂, step s l s₁ → step' s l s₂ → s₁ = s₂) {s' : S}
    (h : Run step s₀ trace s) (h' : Run step' s₀ trace s') : s = s' := by
  induction h generalizing s' with
  | nil =>
    generalize ht : ([] : List L) = trace at h'
    cases h' with
    | nil => rfl
    | snoc run h => simp at ht
  | snoc _ hstep ih =>
    obtain ⟨s₁, hrun, hstep'⟩ := h'.snoc_inv
    cases ih hrun
    exact hdet _ _ _ _ hstep hstep'

/-- Labels whose steps a relation does not see can be erased from a run. -/
theorem erase {rel : S → S → Prop} {silent : L → Bool} (h₀ : rel s₀ s₀)
    (hsilent : ∀ s l s' t, rel s t → step s l s' → silent l = true → rel s' t)
    (hseen : ∀ s l s' t, rel s t → step s l s' → silent l = false → ∃ t', step t l t' ∧ rel s' t')
    (h : Run step s₀ trace s) :
    ∃ t, Run step s₀ (trace.filter fun l => !silent l) t ∧ rel s t := by
  induction h with
  | nil => exact ⟨s₀, nil, h₀⟩
  | @snoc trace s s' l _ hl ih =>
    obtain ⟨t, hrun, hrel⟩ := ih
    rw [List.filter_append]
    cases hs : silent l with
    | true =>
      refine ⟨t, ?_, hsilent _ _ _ _ hrel hl hs⟩
      rwa [List.filter_cons_of_neg (by simp [hs]), List.filter_nil, List.append_nil]
    | false =>
      obtain ⟨t', ht, hrel'⟩ := hseen _ _ _ _ hrel hl hs
      rw [List.filter_cons_of_pos (by simp [hs]), List.filter_nil]
      exact ⟨t', hrun.snoc ht, hrel'⟩

end Run

/-! ## Machines given by a function -/

/-- The steps of a function, at the labels that satisfy a condition. -/
def Guarded (C : S → L → Prop) (step : S → L → Option S) (s : S) (l : L) (s' : S) : Prop :=
  C s l ∧ step s l = some s'

/-- Follow a list of labels, as long as the condition holds and there is a step. -/
def execute (C : S → L → Prop) [∀ s l, Decidable (C s l)] (step : S → L → Option S) :
    S → List L → Option S
  | s, [] => some s
  | s, l :: ls => if C s l then (step s l).bind fun s' => execute C step s' ls else none

/-- What is executed is a run. -/
theorem run_execute {C : S → L → Prop} [∀ s l, Decidable (C s l)] {step : S → L → Option S}
    {s₀ s s' : S} {trace ls : List L} (h : Run (Guarded C step) s₀ trace s)
    (hls : execute C step s ls = some s') : Run (Guarded C step) s₀ (trace ++ ls) s' := by
  induction ls generalizing trace s with
  | nil =>
    cases hls
    rwa [List.append_nil]
  | cons l ls ih =>
    rw [execute] at hls
    split_ifs at hls with hC
    obtain ⟨s₁, hstep, hls⟩ := Option.bind_eq_some_iff.1 hls
    have hsuite := ih (h.snoc ⟨hC, hstep⟩) hls
    rwa [List.append_assoc] at hsuite

/-! ## Guarded actions -/

section Admissible

variable {A : Type} (guard : S → A → Prop) (effect : S → A → S)

/-- Every action of a list finds its guard when it is reached. -/
def Admissible : S → List A → Prop
  | _, [] => True
  | s, a :: as => guard s a ∧ Admissible (effect s a) as

variable {guard effect}

theorem admissible_cons {s : S} {a : A} {as : List A} :
    Admissible guard effect s (a :: as) ↔ guard s a ∧ Admissible guard effect (effect s a) as :=
  Iff.rfl

/-- The second of two lists is followed from where the first one leads. -/
theorem admissible_append {s : S} {as bs : List A} :
    Admissible guard effect s (as ++ bs) ↔
      Admissible guard effect s as ∧ Admissible guard effect (as.foldl effect s) bs := by
  induction as generalizing s with
  | nil => simp [Admissible]
  | cons a as ih =>
    rw [List.cons_append, admissible_cons, admissible_cons, ih, and_assoc]
    rfl

end Admissible

/-! ## Abstract executions -/

section Abstract

variable {V A : Type} {γ : V → S → Prop} {absStep : V → A → Option V} {step : S → A → S}

/-- An abstract execution of a program describes its execution, when it does so for each of its
statements. -/
theorem abstract_foldlM (hstep : ∀ v v' s a, γ v s → absStep v a = some v' → γ v' (step s a))
    {as : List A} {v v' : V} {s : S} (h : γ v s) (has : as.foldlM absStep v = some v') :
    γ v' (as.foldl step s) := by
  induction as generalizing v s with
  | nil =>
    cases has
    exact h
  | cons a as ih =>
    rw [List.foldlM_cons] at has
    obtain ⟨v₁, ha, has⟩ := Option.bind_eq_some_iff.1 has
    exact ih (hstep _ _ _ _ h ha) has

end Abstract

end Reactive
