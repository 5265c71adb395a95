import Cellule.Lib.Machine

/-! # What can still be reached

Runs that are continued, and the rule for a goal that stays within reach: when from every state of a
rank some run leads to the goal or to a state of a lower rank, the goal can be reached.
-/

namespace Reactive

variable {S L : Type} {step : S → L → S → Prop}

/-- A run is continued. -/
theorem Run.append {s₀ s s' : S} {trace trace' : List L} (h : Run step s₀ trace s)
    (h' : Run step s trace' s') : Run step s₀ (trace ++ trace') s' := by
  induction h' with
  | nil => rwa [List.append_nil]
  | snoc _ hl ih =>
    rw [← List.append_assoc]
    exact ih.snoc hl

/-- Some run leads from a state to another. -/
def Reaches (step : S → L → S → Prop) (s s' : S) : Prop := ∃ trace, Run step s trace s'

namespace Reaches

theorem refl (s : S) : Reaches step s s := ⟨[], .nil⟩

theorem single {s s' : S} {l : L} (h : step s l s') : Reaches step s s' := ⟨_, Run.nil.snoc h⟩

theorem trans {s s' s'' : S} (h : Reaches step s s') (h' : Reaches step s' s'') :
    Reaches step s s'' := by
  obtain ⟨trace, h⟩ := h
  obtain ⟨trace', h'⟩ := h'
  exact ⟨trace ++ trace', h.append h'⟩

theorem mono {step' : S → L → S → Prop} {s s' : S} (hle : ∀ s l s', step s l s' → step' s l s')
    (h : Reaches step s s') : Reaches step' s s' := by
  obtain ⟨trace, h⟩ := h
  exact ⟨trace, h.mono hle⟩

/-- A goal that is reached, or brought nearer, from everywhere can be reached. -/
theorem of_rank {Inv : ℕ → S → Prop} {Goal : S → Prop}
    (h : ∀ n s, Inv n s → ∃ s', Reaches step s s' ∧ (Goal s' ∨ ∃ m < n, Inv m s')) {n : ℕ} {s : S}
    (hs : Inv n s) : ∃ s', Reaches step s s' ∧ Goal s' := by
  induction n using Nat.strong_induction_on generalizing s with
  | _ n ih =>
    obtain ⟨s', hreach, hgoal | ⟨m, hlt, hs'⟩⟩ := h n s hs
    · exact ⟨s', hreach, hgoal⟩
    · obtain ⟨s'', hreach', hgoal⟩ := ih m hlt hs'
      exact ⟨s'', hreach.trans hreach', hgoal⟩

end Reaches

end Reactive
