import Mathlib.Tactic

/-! # Loops that may not end

A loop repeats a turn. A turn fails, gives the state of the next turn, or leaves the loop with a
result; a loop that fails, or that turns for ever, has no result. The rules: an invariant holds at
the turn that leaves, a measure that decreases makes the loop end, and a loop whose invariant never
leaves does not.
-/

namespace Loop

variable {S R E : Type} {turn : S → Except E (S ⊕ R)} {s : S} {r : R}

/-- The loop started in a state comes to its end, with a result. -/
inductive Ends (turn : S → Except E (S ⊕ R)) : S → R → Prop
  | leave {s : S} {r : R} (h : turn s = .ok (.inr r)) : Ends turn s r
  | next {s s' : S} {r : R} (h : turn s = .ok (.inl s')) (ends : Ends turn s' r) : Ends turn s r

/-- A loop has one result at most. -/
theorem Ends.unique {r' : R} (h : Ends turn s r) (h' : Ends turn s r') : r = r' := by
  induction h with
  | leave h =>
    cases h' with
    | leave h' => exact Sum.inr.inj (Except.ok.inj (h.symm.trans h'))
    | next h' _ => cases h.symm.trans h'
  | next h _ ih =>
    cases h' with
    | leave h' => cases h.symm.trans h'
    | next h' ends =>
      obtain rfl := Sum.inl.inj (Except.ok.inj (h.symm.trans h'))
      exact ih ends

/-- What every turn keeps holds at the turn that leaves the loop. -/
theorem Ends.invariant (Inv : S → Prop) (h : Ends turn s r) (hs : Inv s)
    (hturn : ∀ s s', Inv s → turn s = .ok (.inl s') → Inv s') :
    ∃ s', Inv s' ∧ turn s' = .ok (.inr r) := by
  induction h with
  | leave h => exact ⟨_, hs, h⟩
  | next h _ ih => exact ih (hturn _ _ hs h)

/-- A loop whose invariant never leaves it does not end. -/
theorem not_ends (Inv : S → Prop) (hs : Inv s)
    (hturn : ∀ s s', Inv s → turn s = .ok (.inl s') → Inv s')
    (hstay : ∀ s r, Inv s → turn s ≠ .ok (.inr r)) : ¬Ends turn s r := by
  intro h
  obtain ⟨s', hs', hleave⟩ := h.invariant Inv hs hturn
  exact hstay s' r hs' hleave

/-- A loop whose turns leave or decrease a measure ends. -/
theorem exists_ends (Inv : S → Prop) (measure : S → ℕ) (hs : Inv s)
    (hturn : ∀ s, Inv s → (∃ r, turn s = .ok (.inr r)) ∨
      ∃ s', turn s = .ok (.inl s') ∧ Inv s' ∧ measure s' < measure s) :
    ∃ r, Ends turn s r := by
  induction hn : measure s using Nat.strong_induction_on generalizing s with
  | _ n ih =>
    rcases hturn s hs with ⟨r, hleave⟩ | ⟨s', hnext, hs', hlt⟩
    · exact ⟨r, .leave hleave⟩
    · obtain ⟨r, hends⟩ := ih (measure s') (hn ▸ hlt) hs' rfl
      exact ⟨r, .next hnext hends⟩

end Loop
