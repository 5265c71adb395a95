import Mathlib.Tactic

/-! # Tokens handed on from queue to queue

Places hold queues of tokens. A pass visits some places in order, and a place that is visited hands
on, drops or keeps the token at the head of its queue. The queues change while the pass goes on, so
a token handed on to a place that is visited later may be handed on again. The number of tokens a
place ends with is balanced by who leaves it and who enters it; and no token is handed on twice when
a place that receives one before its visit is not empty.
-/

namespace Relay

/-- What the visit of a place does with the token at the head of its queue. -/
inductive Exit (P : Type)
  | keep
  | drop
  | next (q : P)
  deriving DecidableEq

variable {P T : Type} [LinearOrder P] {exit : P → Exit P} {Q : P → List T} {l : List P} {p q a : P}

/-! ## One visit -/

section

variable (exit Q a)

/-- The visit of a place. -/
def visit : P → List T :=
  match Q a, exit a with
  | [], _ => Q
  | _ :: _, .keep => Q
  | _ :: rest, .drop => Function.update Q a rest
  | t :: _, .next q =>
      let Q' := Function.update Q q (Q q ++ [t])
      Function.update Q' a (Q' a).tail

end

theorem visit_of_nil (h : Q a = []) : visit exit Q a = Q := by
  unfold visit
  rw [h]

theorem visit_of_keep (h : exit a = .keep) : visit exit Q a = Q := by
  unfold visit
  rw [h]
  cases Q a <;> rfl

theorem visit_of_drop {t : T} {rest : List T} (hQ : Q a = t :: rest) (h : exit a = .drop) :
    visit exit Q a = Function.update Q a rest := by
  unfold visit
  rw [h, hQ]

theorem visit_of_next {t : T} {rest : List T} (hQ : Q a = t :: rest) (h : exit a = .next q) :
    visit exit Q a = Function.update (Function.update Q q (Q q ++ [t])) a
      (Function.update Q q (Q q ++ [t]) a).tail := by
  unfold visit
  rw [h, hQ]

/-- A visit is the departure of the head of the queue, or nothing. -/
theorem visit_cases (exit : P → Exit P) (Q : P → List T) (a : P) :
    ((exit a = .keep ∨ Q a = []) ∧ visit exit Q a = Q) ∨ ∃ t rest, Q a = t :: rest ∧
      ((exit a = .drop ∧ visit exit Q a = Function.update Q a rest) ∨ ∃ q, exit a = .next q ∧
        visit exit Q a = Function.update (Function.update Q q (Q q ++ [t])) a
          (Function.update Q q (Q q ++ [t]) a).tail) := by
  cases hQ : Q a with
  | nil => exact .inl ⟨.inr rfl, visit_of_nil hQ⟩
  | cons t rest =>
    cases h : exit a with
    | keep => exact .inl ⟨.inl rfl, visit_of_keep h⟩
    | drop => exact .inr ⟨t, rest, rfl, .inl ⟨rfl, visit_of_drop hQ h⟩⟩
    | next q => exact .inr ⟨t, rest, rfl, .inr ⟨q, rfl, visit_of_next hQ h⟩⟩

/-- A place that a visit neither empties nor fills. -/
theorem visit_of_ne (hp : p ≠ a) (hnext : exit a ≠ .next p) : visit exit Q a p = Q p := by
  rcases visit_cases exit Q a with ⟨-, h⟩ | ⟨t, rest, -, ⟨-, h⟩ | ⟨q, hq, h⟩⟩
  · rw [h]
  · rw [h, Function.update_of_ne hp]
  · have hpq : p ≠ q := by
      rintro rfl
      exact hnext hq
    rw [h, Function.update_of_ne hp, Function.update_of_ne hpq]

/-- A place that a visit fills. -/
theorem visit_next (hp : p ≠ a) (hnext : exit a = .next p) {t : T} {rest : List T}
    (hQ : Q a = t :: rest) : visit exit Q a p = Q p ++ [t] := by
  rw [visit_of_next hQ hnext, Function.update_of_ne hp, Function.update_self]

open scoped Classical in
/-- The lengths before and after a visit. -/
theorem length_visit (exit : P → Exit P) (Q : P → List T) (a p : P) :
    (visit exit Q a p).length + (if p = a ∧ exit a ≠ .keep ∧ Q a ≠ [] then 1 else 0) =
      (Q p).length + if exit a = .next p ∧ Q a ≠ [] then 1 else 0 := by
  rcases visit_cases exit Q a with ⟨hstay, h⟩ | ⟨t, rest, hQ, ⟨hdrop, h⟩ | ⟨q, hq, h⟩⟩
  · have hleft : ¬(p = a ∧ exit a ≠ .keep ∧ Q a ≠ []) := fun hl => hstay.elim hl.2.1 hl.2.2
    have hright : ¬(exit a = .next p ∧ Q a ≠ []) := by
      rintro ⟨hnext, hne⟩
      rcases hstay with hkeep | hnil
      · rw [hkeep] at hnext
        cases hnext
      · exact hne hnil
    rw [h, if_neg hleft, if_neg hright]
  · rw [h]
    by_cases hp : p = a
    · subst hp
      simp [hQ, hdrop]
    · simp [hp, hdrop]
  · rw [h]
    by_cases hp : p = a
    · subst hp
      by_cases hpq : p = q
      · subst hpq
        simp [hQ, hq]
      · simp [hQ, hq, Function.update_of_ne hpq, Ne.symm hpq]
    · by_cases hpq : p = q
      · subst hpq
        simp [hQ, hq, hp]
      · simp [Function.update_of_ne hpq, hp, hq, Ne.symm hpq]

/-! ## One pass -/

/-- The visits of a pass, in order. -/
def pass (exit : P → Exit P) (Q : P → List T) (l : List P) : P → List T := l.foldl (visit exit) Q

@[simp] theorem pass_nil : pass exit Q [] = Q := rfl

theorem pass_snoc : pass exit Q (l ++ [a]) = visit exit (pass exit Q l) a := List.foldl_concat ..

variable (exit Q l) in
/-- A token leaves the place during a pass that visits places in increasing order: the place holds
one at the start, or receives one before its visit. -/
inductive Leaves : P → Prop
  | own {p : P} (hp : p ∈ l) (hexit : exit p ≠ .keep) (hQ : Q p ≠ []) : Leaves p
  | received {q p : P} (hp : p ∈ l) (hexit : exit p ≠ .keep) (hqp : q < p)
      (hq : exit q = .next p) (h : Leaves q) : Leaves p

namespace Leaves

theorem mem (h : Leaves exit Q l p) : p ∈ l := by
  cases h with
  | own hp _ _ => exact hp
  | received hp _ _ _ _ => exact hp

/-- A pass that goes on visits places above the ones it has visited, so what has left is the
same. -/
theorem snoc_iff (hpa : p < a) : Leaves exit Q (l ++ [a]) p ↔ Leaves exit Q l p := by
  constructor
  · intro h
    have hmem : ∀ {p : P}, p < a → p ∈ l ++ [a] → p ∈ l := by
      intro p hpa hp
      rcases List.mem_append.1 hp with hp | hp
      · exact hp
      · exact absurd (List.mem_singleton.1 hp) hpa.ne
    induction h with
    | own hp hexit hQ => exact .own (hmem hpa hp) hexit hQ
    | received hp hexit hqp hq _ ih => exact .received (hmem hpa hp) hexit hqp hq (ih (hqp.trans hpa))
  · intro h
    induction h with
    | own hp hexit hQ => exact .own (List.mem_append_left _ hp) hexit hQ
    | received hp hexit hqp hq _ ih =>
      exact .received (List.mem_append_left _ hp) hexit hqp hq (ih (hqp.trans hpa))

end Leaves

/-- A list in increasing order, split at its end. -/
theorem pairwise_snoc (hl : (l ++ [a]).Pairwise (· < ·)) : l.Pairwise (· < ·) ∧ ∀ q ∈ l, q < a := by
  obtain ⟨hl, -, hlt⟩ := List.pairwise_append.1 hl
  exact ⟨hl, fun q hq => hlt q hq a (List.mem_singleton_self a)⟩

open scoped Classical in
/-- **Balance of a pass**: what a place ends with and what leaves it are what it started with and
what enters it. -/
theorem length_pass (hl : l.Pairwise (· < ·)) (p : P) :
    (pass exit Q l p).length + (if Leaves exit Q l p then 1 else 0) =
      (Q p).length + l.countP fun q => Leaves exit Q l q ∧ exit q = .next p := by
  induction l using List.reverseRecOn generalizing p with
  | nil =>
    have hnot : ¬Leaves exit Q [] p := fun h => by simpa using h.mem
    simp [hnot]
  | append_singleton l a ih =>
    obtain ⟨hl, hlt⟩ := pairwise_snoc hl
    -- the place visited last still holds what it received
    have hnonempty : pass exit Q l a ≠ [] ↔
        Q a ≠ [] ∨ ∃ q ∈ l, Leaves exit Q l q ∧ exit q = .next a := by
      have hbalance := ih hl a
      rw [if_neg fun h => (hlt a h.mem).false, Nat.add_zero] at hbalance
      have henter : 0 < l.countP (fun q => Leaves exit Q l q ∧ exit q = .next a) ↔
          ∃ q ∈ l, Leaves exit Q l q ∧ exit q = .next a := by
        rw [List.countP_pos_iff]
        simp
      rw [← List.length_pos_iff_ne_nil, ← List.length_pos_iff_ne_nil, ← henter, hbalance]
      omega
    have hleaves : Leaves exit Q (l ++ [a]) a ↔ exit a ≠ .keep ∧ pass exit Q l a ≠ [] := by
      rw [hnonempty]
      constructor
      · intro h
        cases h with
        | own _ hexit hQ => exact ⟨hexit, .inl hQ⟩
        | received _ hexit hqa hq h =>
          have h := (Leaves.snoc_iff hqa).1 h
          exact ⟨hexit, .inr ⟨_, h.mem, h, hq⟩⟩
      · rintro ⟨hexit, hQ | ⟨q, hq, h, hnext⟩⟩
        · exact .own (by simp) hexit hQ
        · exact .received (by simp) hexit (hlt q hq) hnext ((Leaves.snoc_iff (hlt q hq)).2 h)
    have hcount : (l ++ [a]).countP (fun q => Leaves exit Q (l ++ [a]) q ∧ exit q = .next p) =
        l.countP (fun q => Leaves exit Q l q ∧ exit q = .next p) +
          if exit a = .next p ∧ pass exit Q l a ≠ [] then 1 else 0 := by
      rw [List.countP_append, List.countP_singleton]
      congr 1
      · apply List.countP_congr
        intro q hq
        simp only [Leaves.snoc_iff (hlt q hq)]
      · simp only [hleaves, decide_eq_true_eq]
        congr 1
        apply propext
        constructor
        · rintro ⟨⟨-, hne⟩, hnext⟩
          exact ⟨hnext, hne⟩
        · rintro ⟨hnext, hne⟩
          exact ⟨⟨by simp [hnext], hne⟩, hnext⟩
    have hvisit := length_visit exit (pass exit Q l) a p
    have hbalance := ih hl p
    rw [pass_snoc, hcount]
    by_cases hp : p = a
    · subst hp
      rw [if_neg fun h => (hlt p h.mem).false] at hbalance
      simp only [hleaves, true_and] at hvisit ⊢
      omega
    · have hleaves' : Leaves exit Q (l ++ [a]) p ↔ Leaves exit Q l p := by
        by_cases hmem : p ∈ l
        · exact Leaves.snoc_iff (hlt p hmem)
        · refine iff_of_false (fun h => ?_) fun h => hmem h.mem
          rcases List.mem_append.1 h.mem with h | h
          · exact hmem h
          · exact hp (List.mem_singleton.1 h)
      simp only [hp, false_and, if_false] at hvisit
      simp only [hleaves']
      omega

/-! ## Tokens handed on once -/

section

variable (hl : l.Pairwise (· < ·))
  (hfull : ∀ p ∈ l, ∀ q ∈ l, p < q → Q p ≠ [] → exit p = .next q → (∃ r, exit q = .next r) → Q q ≠ [])

include hl hfull

/-- While no empty place hands a token on, a place that is still to be visited holds what it held,
and then what it received from places that were not empty. -/
theorem pass_of_lt (hp : ∀ q ∈ l, q < p) : ∃ received, pass exit Q l p = Q p ++ received ∧
    (received ≠ [] → ∃ q ∈ l, Q q ≠ [] ∧ exit q = .next p) := by
  induction l using List.reverseRecOn generalizing p with
  | nil => exact ⟨[], by simp, fun h => absurd rfl h⟩
  | append_singleton l a ih =>
    obtain ⟨hl, hlt⟩ := pairwise_snoc hl
    have ih := fun {p} => @ih p hl fun p hp q hq =>
      hfull p (List.mem_append_left _ hp) q (List.mem_append_left _ hq)
    obtain ⟨received, hpass, hfrom⟩ := ih fun q hq => hp q (List.mem_append_left _ hq)
    have hap : a < p := hp a (by simp)
    rw [pass_snoc]
    by_cases hnext : exit a = .next p ∧ pass exit Q l a ≠ []
    · obtain ⟨hnext, hne⟩ := hnext
      obtain ⟨t, rest, ht⟩ := List.exists_cons_of_ne_nil hne
      refine ⟨received ++ [t], ?_, fun _ => ?_⟩
      · rw [visit_next hap.ne' hnext ht, hpass, List.append_assoc]
      · obtain ⟨received', hpass', hfrom'⟩ := ih hlt
        refine ⟨a, by simp, ?_, hnext⟩
        intro hnil
        rw [hpass', hnil, List.nil_append] at hne
        obtain ⟨q, hq, hQ, hqa⟩ := hfrom' hne
        exact hfull q (List.mem_append_left _ hq) a (by simp) (hlt q hq) hQ hqa ⟨p, hnext⟩ hnil
    · refine ⟨received, ?_, fun hne => ?_⟩
      · rw [← hpass]
        by_cases h : exit a = .next p
        · rw [visit_of_nil (not_not.1 fun hne => hnext ⟨h, hne⟩)]
        · exact visit_of_ne hap.ne' h
      · obtain ⟨q, hq, h⟩ := hfrom hne
        exact ⟨q, List.mem_append_left _ hq, h⟩

/-- **One hop**: a token ends in the place where it was, or in the place its own place hands on to,
when no empty place hands on a token that it received in the same pass. -/
theorem mem_pass {t : T} (h : t ∈ pass exit Q l p) : t ∈ Q p ∨ ∃ q ∈ l, t ∈ Q q ∧ exit q = .next p := by
  induction l using List.reverseRecOn generalizing p with
  | nil => exact .inl h
  | append_singleton l a ih =>
    obtain ⟨hl, hlt⟩ := pairwise_snoc hl
    have hfull' : ∀ p ∈ l, ∀ q ∈ l, p < q → Q p ≠ [] → exit p = .next q →
        (∃ r, exit q = .next r) → Q q ≠ [] := fun p hp q hq =>
      hfull p (List.mem_append_left _ hp) q (List.mem_append_left _ hq)
    have hold : ∀ {p : P}, t ∈ pass exit Q l p →
        t ∈ Q p ∨ ∃ q ∈ l ++ [a], t ∈ Q q ∧ exit q = .next p := by
      intro p h
      rcases ih hl hfull' h with h | ⟨q, hq, h⟩
      · exact .inl h
      · exact .inr ⟨q, List.mem_append_left _ hq, h⟩
    rw [pass_snoc] at h
    rcases visit_cases exit (pass exit Q l) a with ⟨-, hv⟩ | ⟨t', rest, hQ, ⟨-, hv⟩ | ⟨q, hq, hv⟩⟩
    · rw [hv] at h
      exact hold h
    · rw [hv] at h
      by_cases hp : p = a
      · subst hp
        rw [Function.update_self] at h
        exact hold (hQ ▸ List.mem_cons_of_mem t' h)
      · rw [Function.update_of_ne hp] at h
        exact hold h
    -- the head of the queue is one of the tokens that the place held
    · have hhead : t' ∈ Q a := by
        obtain ⟨received, hpass, hfrom⟩ := pass_of_lt hl hfull' hlt
        cases hQa : Q a with
        | nil =>
          rw [hpass, hQa, List.nil_append] at hQ
          obtain ⟨q', hq', hQ', hq'a⟩ := hfrom (by simp [hQ])
          exact absurd hQa
            (hfull q' (List.mem_append_left _ hq') a (by simp) (hlt q' hq') hQ' hq'a ⟨q, hq⟩)
        | cons t'' rest' =>
          rw [hpass, hQa] at hQ
          obtain ⟨rfl, -⟩ := List.cons.inj hQ
          exact List.mem_cons_self
      have hnew : ∀ {p : P}, t ∈ Function.update (pass exit Q l) q (pass exit Q l q ++ [t']) p →
          t ∈ Q p ∨ ∃ q ∈ l ++ [a], t ∈ Q q ∧ exit q = .next p := by
        intro p h
        by_cases hp : p = q
        · subst hp
          rw [Function.update_self] at h
          rcases List.mem_append.1 h with h | h
          · exact hold h
          · rw [List.mem_singleton.1 h]
            exact .inr ⟨a, by simp, hhead, hq⟩
        · rw [Function.update_of_ne hp] at h
          exact hold h
      rw [hv] at h
      by_cases hp : p = a
      · subst hp
        rw [Function.update_self] at h
        exact hnew (List.mem_of_mem_tail h)
      · rw [Function.update_of_ne hp] at h
        exact hnew h

end

end Relay
