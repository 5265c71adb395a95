import Mathlib.Tactic

/-! # Snapshots over a lossy link

A sender that publishes its whole state each time it changes, a first-in first-out link that may
lose any message but the last of its queue, and a receiver that overwrites what it knows with each
message: once the link is empty the receiver reflects the sender's state, whatever was lost.
-/

namespace Snapshot

variable {M C : Type}

/-- The messages under way, oldest first, and the receiver. -/
structure Link (M C : Type) where
  queue : List M
  receiver : C

namespace Link

/-- Publish a message. -/
def publish (m : M) (l : Link M C) : Link M C := { l with queue := l.queue ++ [m] }

/-- Deliver the oldest message to the receiver's callback. -/
def deliver (callback : M → C → C) (l : Link M C) : Option (Link M C) :=
  match l.queue with
  | [] => none
  | m :: queue => some { queue := queue, receiver := callback m l.receiver }

/-- Lose a message other than the last. -/
def lose (i : ℕ) (l : Link M C) : Option (Link M C) :=
  if i + 1 < l.queue.length then some { l with queue := l.queue.eraseIdx i } else none

/-- What a delivery does. -/
theorem deliver_spec {callback : M → C → C} {l l' : Link M C} (hl : l.deliver callback = some l') :
    ∃ m, l.queue = m :: l'.queue ∧ l'.receiver = callback m l.receiver := by
  obtain ⟨queue, receiver⟩ := l
  cases queue with
  | nil => cases hl
  | cons m queue =>
    cases hl
    exact ⟨m, rfl, rfl⟩

/-- What a loss does. -/
theorem lose_spec {i : ℕ} {l l' : Link M C} (hl : l.lose i = some l') :
    l'.queue.Sublist l.queue ∧ l'.receiver = l.receiver := by
  unfold Link.lose at hl
  split_ifs at hl
  cases hl
  exact ⟨List.eraseIdx_sublist _ _, rfl⟩

variable (reflects : M → C → Prop)

/-- The newest message under way is the sender's state, and with none under way the receiver
reflects it. -/
def Fresh (current : M) (l : Link M C) : Prop :=
  l.queue.getLast? = some current ∨ l.queue = [] ∧ reflects current l.receiver

variable {reflects} {current : M} {l l' : Link M C}

theorem fresh_publish (m : M) (l : Link M C) : Fresh reflects m (l.publish m) := by
  left
  exact List.getLast?_concat

theorem Fresh.deliver {callback : M → C → C} (hcallback : ∀ m c, reflects m (callback m c))
    (h : Fresh reflects current l) (hl : l.deliver callback = some l') :
    Fresh reflects current l' := by
  obtain ⟨queue, receiver⟩ := l
  cases queue with
  | nil => cases hl
  | cons m queue =>
    cases hl
    rcases h with h | ⟨h, -⟩
    · cases queue with
      | nil =>
        -- the message delivered was the newest
        cases h
        exact .inr ⟨rfl, hcallback m receiver⟩
      | cons m' queue =>
        left
        rwa [List.getLast?_cons_cons] at h
    · cases h

theorem Fresh.lose {i : ℕ} (h : Fresh reflects current l) (hl : l.lose i = some l') :
    Fresh reflects current l' := by
  unfold Link.lose at hl
  split_ifs at hl with hi
  cases hl
  rcases h with h | ⟨h, -⟩
  · left
    rw [← h]
    show (l.queue.eraseIdx i).getLast? = l.queue.getLast?
    rw [List.getLast?_eq_getElem?, List.getLast?_eq_getElem?, List.length_eraseIdx_of_lt (by omega),
      List.getElem?_eraseIdx_of_ge (by omega)]
    congr 1
    omega
  · rw [h] at hi
    simp at hi

/-- What a drained link has brought. -/
theorem Fresh.arrived (h : Fresh reflects current l) (hl : l.queue = []) :
    reflects current l.receiver := by
  rcases h with h | h
  · rw [hl] at h
    cases h
  · exact h.2

end Link

end Snapshot
