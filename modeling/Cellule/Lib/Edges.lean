import Mathlib.Tactic

/-! # Edges of a sampled signal

A level that is set by messages and read by samples. A detector that compares each sample with the
one before sees a falling edge when it reads a low level after a high one. It counts the falls of
the level exactly, those that no sample has followed yet apart, as long as the level changes at most
once between two samples.
-/

namespace Edges

/-- What can happen to a level: it is set, or it is sampled. -/
inductive Signal
  | set (level : Bool)
  | sample
  deriving DecidableEq

/-- The level after an event. -/
def Signal.next (level : Bool) : Signal → Bool
  | set b => b
  | sample => level

/-- The level after a sequence of events. -/
def levelAfter (level : Bool) (signals : List Signal) : Bool := signals.foldl Signal.next level

/-- The number of falling edges that the samples show, from the level of the last sample and the
level now. -/
def detected (mem level : Bool) : List Signal → ℕ
  | [] => 0
  | .set b :: signals => detected mem b signals
  | .sample :: signals =>
      (if mem = true ∧ level = false then 1 else 0) + detected level level signals

/-- The number of times the level falls before some later sample. -/
def falls (level : Bool) : List Signal → ℕ
  | [] => 0
  | .set b :: signals =>
      (if level = true ∧ b = false ∧ .sample ∈ signals then 1 else 0) + falls b signals
  | .sample :: signals => falls level signals

/-- A sample comes before the next change of the level. -/
def Watched (level : Bool) (signals : List Signal) : Prop :=
  ∀ mid b post, signals = mid ++ .set b :: post → (∀ b', .set b' ∈ mid → b' = level) → b ≠ level →
    .sample ∈ mid

/-- A sample comes between a change of the level and the next one. -/
def Spaced (level : Bool) (signals : List Signal) : Prop :=
  ∀ pre b rest, signals = pre ++ .set b :: rest → b ≠ levelAfter level pre → Watched b rest

variable {level mem : Bool} {signals : List Signal}

/-- The spacing seen from the second event on. -/
theorem Spaced.tail {e : Signal} (h : Spaced level (e :: signals)) : Spaced (e.next level) signals := by
  intro pre b rest hpre hchange
  exact h (e :: pre) b rest (by rw [hpre, List.cons_append]) hchange

theorem Spaced.watched {b : Bool} (h : Spaced level (.set b :: signals)) (hb : b ≠ level) :
    Watched b signals :=
  h [] b signals rfl hb

/-- A watched level does not change at once. -/
theorem Watched.eq_of_set {b : Bool} (h : Watched level (.set b :: signals)) : b = level := by
  by_contra hb
  exact List.not_mem_nil (h [] b signals rfl (fun _ hmem => absurd hmem List.not_mem_nil) hb)

/-- Setting a level to what it is does not count. -/
theorem Watched.tail (h : Watched level (.set level :: signals)) : Watched level signals := by
  intro mid b post hmid hsame hb
  have hcons : Signal.sample ∈ .set level :: mid := by
    refine h (.set level :: mid) b post (by rw [hmid, List.cons_append]) ?_ hb
    intro b' hb'
    rcases List.mem_cons.1 hb' with heq | hmem
    · exact Signal.set.inj heq
    · exact hsame b' hmem
  exact (List.mem_cons.1 hcons).resolve_left Signal.noConfusion

theorem spaced_nil : Spaced level [] := by
  intro pre b rest hpre _
  simp at hpre

/-- A sample in front watches over what follows. -/
theorem watched_sample : Watched level (.sample :: signals) := by
  intro mid b post hmid _ _
  cases mid with
  | nil => cases hmid
  | cons e mid =>
    obtain ⟨rfl, -⟩ := List.cons.inj hmid
    exact List.mem_cons_self

theorem Spaced.sample (h : Spaced level signals) : Spaced level (.sample :: signals) := by
  intro pre b rest hpre hchange
  cases pre with
  | nil => cases hpre
  | cons e pre =>
    obtain ⟨rfl, hrest⟩ := List.cons.inj hpre
    exact h pre b rest hrest hchange

/-- A change that is watched may come in front. -/
theorem Spaced.set {b : Bool} (h : Spaced b signals) (hwatched : Watched b signals) :
    Spaced level (.set b :: signals) := by
  intro pre b' rest hpre hchange
  cases pre with
  | nil =>
    cases hpre
    exact hwatched
  | cons e pre =>
    obtain ⟨rfl, hrest⟩ := List.cons.inj hpre
    exact h pre b' rest hrest hchange

/-- A level is not high and low at once. -/
theorem not_high_low (level : Bool) (p : Prop) : ¬(level = true ∧ level = false ∧ p) := by
  rintro ⟨hhigh, hlow, -⟩
  exact Bool.false_ne_true (hlow.symm.trans hhigh)

/-- The detector counts the falls that were sampled, and the one that was under way at the start. -/
theorem detected_eq (hwatched : mem ≠ level → Watched level signals) (hspaced : Spaced level signals) :
    detected mem level signals =
      (if mem = true ∧ level = false ∧ .sample ∈ signals then 1 else 0) + falls level signals := by
  induction signals generalizing mem level with
  | nil => simp [detected, falls]
  | cons e signals ih =>
    cases e with
    | sample =>
      have hrest := @ih level level (fun h => absurd rfl h) hspaced.tail
      rw [if_neg (not_high_low level _), Nat.zero_add] at hrest
      simp only [detected, falls, hrest, List.mem_cons_self, and_true]
    | set b =>
      by_cases hb : b = level
      · -- the level stays
        subst hb
        have hrest := @ih b mem (fun h => (hwatched h).tail) hspaced.tail
        rw [detected, falls, hrest, if_neg (not_high_low b _), Nat.zero_add]
        simp only [List.mem_cons, reduceCtorEq, false_or]
      · -- the level changes, so that it was sampled since it last did
        have hmem : mem = level := by
          by_contra hne
          exact hb (hwatched hne).eq_of_set
        subst hmem
        have hrest := @ih b mem (fun _ => hspaced.watched hb) hspaced.tail
        rw [detected, falls, hrest, if_neg (not_high_low mem _), Nat.zero_add]

end Edges
