import Mathlib.Tactic

/-! # First in, first out, by key

A list of entries with keys, where an entry that is used gets a null key, is one queue for each key.
The places of a list that satisfy a predicate are in the order of their ranks, the number of such
places before them.
-/

namespace Fifo

/-! ## Ranks -/

section

variable {α : Type} (p : α → Prop)

/-- The place `i` of a list satisfies the predicate. -/
def At (l : List α) (i : ℕ) : Prop := ∃ a, l[i]? = some a ∧ p a

variable [DecidablePred p]

/-- How many places before `i` do. -/
def rank (l : List α) (i : ℕ) : ℕ := (l.take i).countP fun a => p a

variable {p} {l : List α} {i j m : ℕ}

theorem rank_succ_of_at (h : At p l i) : rank p l (i + 1) = rank p l i + 1 := by
  obtain ⟨a, ha, hp⟩ := h
  unfold rank
  rw [List.take_add_one, List.countP_append, ha]
  simp [hp]

theorem rank_succ_of_not_at (h : ¬At p l i) : rank p l (i + 1) = rank p l i := by
  unfold rank
  rw [List.take_add_one, List.countP_append]
  cases ha : l[i]? with
  | none => simp
  | some a =>
    have hp : ¬p a := fun hp => h ⟨a, ha, hp⟩
    simp [hp]

omit [DecidablePred p] in
theorem lt_length_of_at (h : At p l i) : i < l.length := by
  obtain ⟨a, ha, -⟩ := h
  exact (List.getElem?_eq_some_iff.1 ha).1

omit [DecidablePred p] in
theorem at_append (h : At p l i) (l' : List α) : At p (l ++ l') i := by
  obtain ⟨a, ha, hp⟩ := h
  exact ⟨a, (List.getElem?_append_left (List.getElem?_eq_some_iff.1 ha).1).trans ha, hp⟩

omit [DecidablePred p] in
theorem at_concat {a : α} (h : p a) (l : List α) : At p (l ++ [a]) l.length :=
  ⟨a, List.getElem?_concat_length, h⟩

theorem rank_append (h : i ≤ l.length) (l' : List α) : rank p (l ++ l') i = rank p l i := by
  unfold rank
  rw [List.take_append_of_le_length h]

theorem rank_concat (l : List α) (a : α) : rank p (l ++ [a]) l.length = l.countP fun a => p a := by
  unfold rank
  rw [List.take_left]

theorem rank_mono (h : i ≤ j) : rank p l i ≤ rank p l j :=
  (List.take_sublist_take_left h).countP_le

theorem rank_lt_rank (hi : At p l i) (h : i < j) : rank p l i < rank p l j := by
  have hsucc : rank p l (i + 1) ≤ rank p l j := rank_mono h
  rw [rank_succ_of_at hi] at hsucc
  exact hsucc

/-- Places with the same rank are the same. -/
theorem eq_of_rank (hi : At p l i) (hj : At p l j) (h : rank p l i = rank p l j) : i = j := by
  rcases lt_trichotomy i j with hlt | heq | hlt
  · exact absurd h (rank_lt_rank hi hlt).ne
  · exact heq
  · exact absurd h (rank_lt_rank hj hlt).ne'

/-- Each rank below the one of `j` is the one of a place before `j`. -/
theorem exists_at (h : m < rank p l j) : ∃ i < j, At p l i ∧ rank p l i = m := by
  induction j with
  | zero => exact absurd h (Nat.not_lt_zero m)
  | succ j ih =>
    by_cases hj : At p l j
    · rw [rank_succ_of_at hj] at h
      rcases Nat.lt_succ_iff_lt_or_eq.1 h with hlt | rfl
      · obtain ⟨i, hi, hat⟩ := ih hlt
        exact ⟨i, hi.trans (Nat.lt_succ_self j), hat⟩
      · exact ⟨j, Nat.lt_succ_self j, hj, rfl⟩
    · rw [rank_succ_of_not_at hj] at h
      obtain ⟨i, hi, hat⟩ := ih h
      exact ⟨i, hi.trans (Nat.lt_succ_self j), hat⟩

end

/-! ## Queues -/

variable {K V : Type} [DecidableEq K]

/-- The entries of a key, with their places counted from `n`. -/
def queue (k : K) : ℕ → List (K × V) → List (ℕ × V)
  | _, [] => []
  | n, e :: l => if e.1 = k then (n, e.2) :: queue k (n + 1) l else queue k (n + 1) l

/-- The first entry of a key: its value, and the list once its key is overwritten. -/
def takeFirst (k null : K) : List (K × V) → Option (V × List (K × V))
  | [] => none
  | e :: l =>
      if e.1 = k then some (e.2, (null, e.2) :: l)
      else (takeFirst k null l).map fun r => (r.1, e :: r.2)

variable {k null q : K} {l : List (K × V)} {r : V × List (K × V)}

theorem queue_concat (k : K) (n : ℕ) (l : List (K × V)) (e : K × V) :
    queue k n (l ++ [e]) = queue k n l ++ if e.1 = k then [(n + l.length, e.2)] else [] := by
  induction l generalizing n with
  | nil => rfl
  | cons e' l ih =>
    have hplace : n + 1 + l.length = n + (l.length + 1) := by omega
    rw [List.cons_append, queue, queue, ih, hplace, List.length_cons]
    split_ifs <;> rfl

/-- The first place of a key is the one of the head of its queue. -/
theorem map_findIdx? (k : K) (n : ℕ) (l : List (K × V)) :
    (l.findIdx? fun e => e.1 = k).map (n + ·) = (queue k n l).head?.map Prod.fst := by
  induction l generalizing n with
  | nil => rfl
  | cons e l ih =>
    rw [queue, List.findIdx?_cons]
    by_cases he : e.1 = k
    · rw [if_pos he, if_pos (decide_eq_true he)]
      rfl
    · rw [if_neg he, if_neg (by simpa using he), ← ih (n + 1), Option.map_map]
      congr 1
      funext i
      exact (Nat.add_right_comm n i 1).trans rfl

/-- The queue of the key loses its head. -/
theorem queue_takeFirst (h : takeFirst k null l = some r) (hnull : null ≠ k) (n : ℕ) :
    ∃ i, queue k n l = (i, r.1) :: queue k n r.2 := by
  induction l generalizing n r with
  | nil => cases h
  | cons e l ih =>
    unfold takeFirst at h
    split_ifs at h with he
    · cases h
      refine ⟨n, ?_⟩
      rw [queue, queue, if_pos he, if_neg hnull]
    · obtain ⟨r', hr', rfl⟩ := Option.map_eq_some_iff.1 h
      obtain ⟨i, hi⟩ := ih hr' (n + 1)
      refine ⟨i, ?_⟩
      rw [queue, queue, if_neg he, if_neg he, hi]

/-- The other queues stay. -/
theorem queue_takeFirst_of_ne (h : takeFirst k null l = some r) (hq : k ≠ q) (hnull : null ≠ q)
    (n : ℕ) : queue q n r.2 = queue q n l := by
  induction l generalizing n r with
  | nil => cases h
  | cons e l ih =>
    unfold takeFirst at h
    split_ifs at h with he
    · cases h
      rw [queue, queue, if_neg hnull, if_neg (by rw [he]; exact hq)]
    · obtain ⟨r', hr', rfl⟩ := Option.map_eq_some_iff.1 h
      rw [queue, queue, ih hr' (n + 1)]

theorem length_takeFirst (h : takeFirst k null l = some r) : r.2.length = l.length := by
  induction l generalizing r with
  | nil => cases h
  | cons e l ih =>
    unfold takeFirst at h
    split_ifs at h with he
    · cases h
      rfl
    · obtain ⟨r', hr', rfl⟩ := Option.map_eq_some_iff.1 h
      exact congrArg (· + 1) (ih hr')

end Fifo
