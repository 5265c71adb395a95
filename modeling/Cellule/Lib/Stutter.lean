import Mathlib.Tactic

/-! # What a chain of cells and lossy queues lets through

A value that is sent goes through cells that are read again and again, and through queues that lose
messages. What comes out repeats and skips values, but never goes back: it follows what was sent.
The whole content of a chain, from its end to its source, is one list of this kind, and each thing
that happens to the chain repeats, removes or adds one value of it.
-/

namespace Stutter

variable {α β : Type}

/-- The second list goes through the values of the first one in their order: it skips values, and
repeats them. -/
inductive Follows : List α → List α → Prop
  | nil (h : List α) : Follows h []
  | skip {a : α} {h xs : List α} (t : Follows h xs) : Follows (a :: h) xs
  | take {a : α} {h xs : List α} (t : Follows (a :: h) xs) : Follows (a :: h) (a :: xs)

namespace Follows

variable {h h' xs ys : List α} {a : α}

theorem refl (h : List α) : Follows h h := by
  induction h with
  | nil => exact nil []
  | cons a h ih => exact ih.skip.take

/-- Values are removed. -/
theorem sublist (t : Follows h xs) (hys : ys.Sublist xs) : Follows h ys := by
  induction t generalizing ys with
  | nil h => exact List.sublist_nil.1 hys ▸ nil h
  | skip _ ih => exact (ih hys).skip
  | take _ ih =>
    rcases List.sublist_cons_iff.1 hys with hys | ⟨zs, rfl, hzs⟩
    · exact ih hys
    · exact (ih hzs).take

/-- A value is added at the source. -/
theorem concat (t : Follows h xs) (a : α) : Follows (h ++ [a]) (xs ++ [a]) := by
  induction t with
  | nil h =>
    induction h with
    | nil => exact refl [a]
    | cons b h ih => exact ih.skip
  | skip _ ih => exact ih.skip
  | take _ ih => exact ih.take

/-- A value is sent and lost. -/
theorem append_left (t : Follows h xs) (h' : List α) : Follows (h ++ h') xs := by
  induction t with
  | nil h => exact nil _
  | skip _ ih => exact ih.skip
  | take _ ih => exact ih.take

/-- A value is repeated. -/
theorem double (t : Follows h (xs ++ a :: ys)) : Follows h (xs ++ a :: a :: ys) := by
  generalize hzs : xs ++ a :: ys = zs at t
  induction t generalizing xs with
  | nil h => simp at hzs
  | skip _ ih => exact (ih hzs).skip
  | @take b h zs t ih =>
    cases xs with
    | nil =>
      obtain ⟨rfl, rfl⟩ := List.cons.inj hzs
      exact t.take.take
    | cons c xs =>
      obtain ⟨rfl, rfl⟩ := List.cons.inj hzs
      exact (ih rfl).take

/-- The values are seen through a function. -/
theorem map (f : α → β) (t : Follows h xs) : Follows (h.map f) (xs.map f) := by
  induction t with
  | nil h => exact nil _
  | skip _ ih => exact ih.skip
  | take _ ih => exact ih.take

/-- What is seen through a function comes from values. -/
theorem map_inv {f : α → β} {ys : List β} (t : Follows (h.map f) ys) :
    ∃ xs, Follows h xs ∧ xs.map f = ys := by
  generalize hzs : h.map f = zs at t
  induction t generalizing h with
  | nil zs => exact ⟨[], nil h, rfl⟩
  | skip _ ih =>
    obtain ⟨a, h, rfl, -, rfl⟩ := List.map_eq_cons_iff.1 hzs
    obtain ⟨xs, hxs, rfl⟩ := ih rfl
    exact ⟨xs, hxs.skip, rfl⟩
  | take _ ih =>
    obtain ⟨xs, hxs, rfl⟩ := ih hzs
    obtain ⟨a, h, rfl, rfl, rfl⟩ := List.map_eq_cons_iff.1 hzs
    exact ⟨a :: xs, hxs.take, rfl⟩

theorem mem (t : Follows h xs) (ha : a ∈ xs) : a ∈ h := by
  induction t with
  | nil h => cases ha
  | skip _ ih => exact List.mem_cons_of_mem _ (ih ha)
  | take _ ih =>
    rcases List.mem_cons.1 ha with rfl | ha
    · exact List.mem_cons_self
    · exact ih ha

end Follows

end Stutter
