import Mathlib.Tactic

/-! # Bounded queues

The queues of the subscriptions of a node: a message that comes to a full queue pushes the oldest
one out. What the queues hold together is a multiset.
-/

namespace Mailbox

variable {K α : Type}

/-- A message comes to a queue that keeps the last `n`. -/
def push (n : ℕ) (q : List α) (a : α) : List α := (q ++ [a]).drop (q.length + 1 - n)

/-- A queue that is not full loses nothing. -/
theorem push_of_lt {n : ℕ} {q : List α} (h : q.length < n) (a : α) : push n q a = q ++ [a] := by
  rw [push, Nat.sub_eq_zero_of_le h, List.drop_zero]

variable [Fintype K]

/-- The messages of all the queues. -/
def contents (boxes : K → List α) : Multiset α := ∑ k, (boxes k : Multiset α)

theorem contents_empty {boxes : K → List α} (h : ∀ k, boxes k = []) : contents boxes = 0 := by
  apply Finset.sum_eq_zero
  intro k _
  rw [h k]
  rfl

variable [DecidableEq K]

/-- One queue changes. -/
theorem contents_update (boxes : K → List α) (k : K) (q : List α) :
    contents (Function.update boxes k q) + (boxes k : Multiset α) = contents boxes + (q : Multiset α) := by
  have hrest : ∑ i ∈ Finset.univ.erase k, (Function.update boxes k q i : Multiset α) =
      ∑ i ∈ Finset.univ.erase k, (boxes i : Multiset α) := by
    apply Finset.sum_congr rfl
    intro i hi
    rw [Function.update_of_ne (Finset.ne_of_mem_erase hi)]
  unfold contents
  rw [← Finset.add_sum_erase _ _ (Finset.mem_univ k), ← Finset.add_sum_erase _ _ (Finset.mem_univ k),
    hrest, Function.update_self]
  abel

/-- A message comes to a queue that is not full. -/
theorem contents_push {n : ℕ} {boxes : K → List α} {k : K} (h : (boxes k).length < n) (a : α) :
    contents (Function.update boxes k (push n (boxes k) a)) = contents boxes + {a} := by
  have hupdate := contents_update boxes k (push n (boxes k) a)
  rw [push_of_lt h, ← Multiset.coe_add, add_comm (boxes k : Multiset α), ← add_assoc] at hupdate
  rw [push_of_lt h]
  exact add_right_cancel hupdate

/-- The oldest message of a queue is taken out. -/
theorem contents_pop {boxes : K → List α} {k : K} {a : α} {rest : List α} (h : boxes k = a :: rest) :
    contents boxes = contents (Function.update boxes k rest) + {a} := by
  have hupdate := contents_update boxes k rest
  rw [h, ← Multiset.cons_coe, ← Multiset.singleton_add, ← add_assoc] at hupdate
  exact (add_right_cancel hupdate).symm

end Mailbox
