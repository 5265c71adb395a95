import Cellule.Lib.Machine

/-! # Actions that wait

Actions are issued in the order of a program and performed later, some of them before others that
were issued first. An action may overtake those that do not see it: then the waiting actions,
performed in the order of their issue, still lead where the program leads.
-/

namespace Reactive

variable {S A : Type} (guard : S → A → Prop) (effect : S → A → S)

/-- Two actions that do not see each other. -/
structure Independent (a b : A) : Prop where
  comm : ∀ s, effect (effect s a) b = effect (effect s b) a
  guard_left : ∀ s, guard (effect s b) a ↔ guard s a
  guard_right : ∀ s, guard (effect s a) b ↔ guard s b

/-- The actions that wait, performed in their order, are possible and lead to `t`. -/
structure Deferred (s : S) (as : List A) (t : S) : Prop where
  admissible : Admissible guard effect s as
  result : as.foldl effect s = t

variable {guard effect}

instance Admissible.decidable [∀ s a, Decidable (guard s a)] (s : S) (as : List A) :
    Decidable (Admissible guard effect s as) :=
  match as with
  | [] => .isTrue trivial
  | a :: as => @instDecidableAnd _ _ _ (Admissible.decidable (effect s a) as)

/-- What is first among the waiting actions is possible, however late it was issued, when those
before it do not see it. -/
theorem Admissible.overtake {s : S} {as bs : List A} {a : A}
    (h : Admissible guard effect s (as ++ a :: bs)) (hind : ∀ b ∈ as, Independent guard effect b a) :
    guard s a ∧ Admissible guard effect (effect s a) (as ++ bs) ∧
      (as ++ bs).foldl effect (effect s a) = (as ++ a :: bs).foldl effect s := by
  induction as generalizing s with
  | nil => exact ⟨h.1, h.2, rfl⟩
  | cons b as ih =>
    obtain ⟨hb, hind⟩ := List.forall_mem_cons.1 hind
    obtain ⟨hguard, hadm, hfold⟩ := ih h.2 hind
    refine ⟨(hb.guard_right s).1 hguard, ⟨(hb.guard_left s).2 h.1, ?_⟩, ?_⟩
    · rwa [← hb.comm]
    · rw [List.cons_append, List.foldl_cons, ← hb.comm, hfold]
      rfl

namespace Deferred

variable {s t : S} {as bs : List A} {a : A}

/-- Nothing waits. -/
theorem nil (s : S) : Deferred guard effect s [] s := ⟨trivial, rfl⟩

/-- The program goes on. -/
theorem issue (h : Deferred guard effect s as t) (hbs : Admissible guard effect t bs) :
    Deferred guard effect s (as ++ bs) (bs.foldl effect t) := by
  obtain ⟨hadm, rfl⟩ := h
  exact ⟨admissible_append.2 ⟨hadm, hbs⟩, List.foldl_append⟩

/-- An action is performed before those that do not see it. -/
theorem perform (h : Deferred guard effect s (as ++ a :: bs) t)
    (hind : ∀ b ∈ as, Independent guard effect b a) :
    guard s a ∧ Deferred guard effect (effect s a) (as ++ bs) t := by
  obtain ⟨hguard, hadm, hfold⟩ := h.admissible.overtake hind
  exact ⟨hguard, hadm, hfold.trans h.result⟩

end Deferred

/-! ## Footprints -/

section Footprint

variable {K V : Type} {guard : (K → V) → A → Prop} {effect : (K → V) → A → K → V}

/-- An action reads and writes only some places. -/
structure Within (guard : (K → V) → A → Prop) (effect : (K → V) → A → K → V) (a : A) (places : List K) :
    Prop where
  frame : ∀ s, ∀ k ∉ places, effect s a k = s k
  effect_congr : ∀ s s', (∀ k ∈ places, s k = s' k) → ∀ k ∈ places, effect s a k = effect s' a k
  guard_congr : ∀ s s', (∀ k ∈ places, s k = s' k) → (guard s a ↔ guard s' a)

/-- Actions on disjoint places do not see each other. -/
theorem Within.independent {a b : A} {places places' : List K} (ha : Within guard effect a places)
    (hb : Within guard effect b places') (hdisjoint : places.Disjoint places') :
    Independent guard effect a b where
  comm s := by
    funext k
    by_cases hk : k ∈ places
    · have hk' : k ∉ places' := hdisjoint hk
      rw [hb.frame _ _ hk', ha.effect_congr s (effect s b)
        (fun j hj => (hb.frame s j (hdisjoint hj)).symm) k hk]
    · rw [ha.frame _ _ hk]
      by_cases hk' : k ∈ places'
      · exact hb.effect_congr _ _ (fun j hj => ha.frame s j fun h => hdisjoint h hj) k hk'
      · rw [hb.frame _ _ hk', hb.frame _ _ hk', ha.frame _ _ hk]
  guard_left s := ha.guard_congr _ _ fun k hk => hb.frame s k (hdisjoint hk)
  guard_right s := hb.guard_congr _ _ fun k hk => ha.frame s k fun h => hdisjoint h hk

end Footprint

end Reactive
