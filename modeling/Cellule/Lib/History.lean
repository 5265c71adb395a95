import Cellule.Lib.Machine

/-! # Recorded runs

A run whose labels keep the states they lead between, and a rule about what a run has gone through:
what a state holds was put there by some step, and has been kept by every step since.
-/

namespace Reactive

variable {S L : Type}

/-- A step, with the states it leads between. -/
structure Transition (S L : Type) where
  before : S
  label : L
  after : S

/-- The steps of a machine, recorded. -/
def Recorded (step : S → L → S → Prop) (s : S) (t : Transition S L) (s' : S) : Prop :=
  t.before = s ∧ t.after = s' ∧ step s t.label s'

/-- `P` was true at a step, and `Q` has been true at every step since. -/
def Since (P Q : L → Prop) (trace : List L) : Prop :=
  ∃ past l recent, trace = past ++ l :: recent ∧ P l ∧ ∀ l' ∈ recent, Q l'

namespace Since

variable {P Q : L → Prop} {trace : List L} {l : L}

theorem last (h : P l) : Since P Q (trace ++ [l]) := ⟨trace, l, [], rfl, h, by simp⟩

theorem snoc (h : Since P Q trace) (hl : Q l) : Since P Q (trace ++ [l]) := by
  obtain ⟨past, l₀, recent, rfl, hP, hQ⟩ := h
  refine ⟨past, l₀, recent ++ [l], by simp, hP, fun l' hl' => ?_⟩
  rcases List.mem_append.1 hl' with hl' | hl'
  · exact hQ l' hl'
  · rwa [List.mem_singleton.1 hl']

end Since

namespace Run

variable {step : S → L → S → Prop} {s₀ s : S} {trace : List L}

/-- The labels of a recorded run are a run. -/
theorem labels {ts : List (Transition S L)} (h : Run (Recorded step) s₀ ts s) :
    Run step s₀ (ts.map Transition.label) s := by
  induction h with
  | nil => exact nil
  | snoc _ hl ih =>
    rw [List.map_append]
    exact ih.snoc hl.2.2

/-- A run can be recorded. -/
theorem recorded (h : Run step s₀ trace s) :
    ∃ ts, Run (Recorded step) s₀ ts s ∧ ts.map Transition.label = trace := by
  induction h with
  | nil => exact ⟨[], nil, rfl⟩
  | @snoc trace s s' l _ hl ih =>
    obtain ⟨ts, hts, rfl⟩ := ih
    exact ⟨ts ++ [⟨s, l, s'⟩], hts.snoc ⟨rfl, rfl, hl⟩, by simp⟩

/-- What came before a recorded step is a run that ends where the step begins. -/
theorem split {past recent : List (Transition S L)} {t : Transition S L}
    (h : Run (Recorded step) s₀ (past ++ t :: recent) s) :
    Run (Recorded step) s₀ past t.before ∧ step t.before t.label t.after := by
  induction recent using List.reverseRecOn generalizing s with
  | nil =>
    obtain ⟨s₁, hrun, rfl, rfl, ht⟩ := h.snoc_inv
    exact ⟨hrun, ht⟩
  | append_singleton recent t' ih =>
    rw [← List.cons_append, ← List.append_assoc] at h
    obtain ⟨s₁, hrun, -⟩ := h.snoc_inv
    exact ih hrun

/-- What came after a recorded step is a run that starts where the step leads. -/
theorem rest {past recent : List (Transition S L)} {t : Transition S L}
    (h : Run (Recorded step) s₀ (past ++ t :: recent) s) : Run (Recorded step) t.after recent s := by
  induction recent using List.reverseRecOn generalizing s with
  | nil =>
    obtain ⟨s₁, -, -, rfl, -⟩ := h.snoc_inv
    exact nil
  | append_singleton recent t' ih =>
    rw [← List.cons_append, ← List.append_assoc] at h
    obtain ⟨s₁, hrun, ht'⟩ := h.snoc_inv
    exact (ih hrun).snoc ht'

/-- What a state holds was put there by some step, when every step that leads to a state that holds
it puts it there or keeps it. -/
theorem since {A : Type} {R : S → A → Prop} {P Q : A → L → Prop} (h₀ : ∀ a, ¬R s₀ a)
    (hstep : ∀ trace s l s' a, Run step s₀ trace s → step s l s' → R s' a → P a l ∨ R s a ∧ Q a l)
    (h : Run step s₀ trace s) {a : A} (ha : R s a) : Since (P a) (Q a) trace := by
  induction h with
  | nil => exact absurd ha (h₀ a)
  | snoc hrun hl ih =>
    rcases hstep _ _ _ _ a hrun hl ha with hP | ⟨hR, hQ⟩
    · exact Since.last hP
    · exact (ih hR).snoc hQ

end Run

end Reactive
