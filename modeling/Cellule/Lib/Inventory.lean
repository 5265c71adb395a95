import Mathlib.Algebra.Order.BigOperators.Group.Finset
import Mathlib.Data.PEquiv
import Mathlib.Tactic

/-! # Items that are kept in places

An inventory lists items in the order of their arrival, each with the place that keeps it, or with
none once it is lost; no place keeps two of them. Items are moved by a partial bijection of the
places, so that what a place keeps after a move was kept by one place before it.
-/

/-- The items in the order of their arrival, with the places that keep them. -/
structure Inventory (K A : Type) where
  items : List (Option K × A)
  exclusive : ∀ (i j : ℕ) (k : K) (a b : A),
    items[i]? = some (some k, a) → items[j]? = some (some k, b) → i = j

namespace Inventory

variable {K A : Type}

/-- Nothing has arrived. -/
def empty : Inventory K A where
  items := []
  exclusive i j k a b h := by simp at h

/-- The items are moved. One whose place leads nowhere is lost. -/
def relocate (f : K ≃. K) (s : Inventory K A) : Inventory K A where
  items := s.items.map fun x => (x.1.bind f, x.2)
  exclusive i j k a b hi hj := by
    simp only [List.getElem?_map, Option.map_eq_some_iff, Prod.mk.injEq, Prod.exists] at hi hj
    obtain ⟨o, a', hi, hk, -⟩ := hi
    obtain ⟨o', b', hj, hk', -⟩ := hj
    obtain ⟨k₁, rfl, hk⟩ := Option.bind_eq_some_iff.1 hk
    obtain ⟨k₂, rfl, hk'⟩ := Option.bind_eq_some_iff.1 hk'
    -- the two places are the same one, since the move is injective
    obtain rfl : k₁ = k₂ := f.inj hk hk'
    exact s.exclusive _ _ _ _ _ hi hj

/-- The item of a rank changes, wherever it is kept. -/
def update (i : ℕ) (g : A → A) (s : Inventory K A) : Inventory K A where
  items := s.items.modify i (Prod.map id g)
  exclusive j j' k a b hj hj' := by
    have hplace : ∀ (j : ℕ) (a : A), (s.items.modify i (Prod.map id g))[j]? = some (some k, a) →
        ∃ a', s.items[j]? = some (some k, a') := by
      intro j a hj
      rw [List.getElem?_modify] at hj
      obtain ⟨⟨o, a'⟩, hj, hx⟩ := Option.map_eq_some_iff.1 hj
      refine ⟨a', ?_⟩
      rw [hj]
      split_ifs at hx
      · exact congrArg (fun o => some (o, a')) (congrArg Prod.fst hx)
      · exact congrArg (fun o => some (o, a')) (congrArg Prod.fst hx)
    obtain ⟨a', hj⟩ := hplace j a hj
    obtain ⟨b', hj'⟩ := hplace j' b hj'
    exact s.exclusive _ _ _ _ _ hj hj'

theorem items_update_of_ne {s : Inventory K A} {i j : ℕ} (h : i ≠ j) (g : A → A) :
    (s.update i g).items[j]? = s.items[j]? := List.getElem?_modify_ne _ _ h

theorem items_update {s : Inventory K A} {i : ℕ} {x : Option K × A} (h : s.items[i]? = some x) (g : A → A) :
    (s.update i g).items[i]? = some (x.1, g x.2) := by
  show (s.items.modify i _)[i]? = _
  rw [List.getElem?_modify_eq, h]
  rfl

/-- An item after an update: one that was there, or the one that has changed. -/
theorem mem_update {s : Inventory K A} {i : ℕ} {g : A → A} {x : Option K × A}
    (h : x ∈ (s.update i g).items) : x ∈ s.items ∨ ∃ y, s.items[i]? = some y ∧ x = (y.1, g y.2) := by
  obtain ⟨j, hj⟩ := List.mem_iff_getElem?.1 h
  rcases eq_or_ne i j with rfl | hne
  · rw [update, List.getElem?_modify_eq] at hj
    obtain ⟨y, hy, rfl⟩ := Option.map_eq_some_iff.1 hj
    exact .inr ⟨y, hy, rfl⟩
  · rw [items_update_of_ne hne] at hj
    exact .inl (List.mem_of_getElem? hj)

/-- An item stays where it is in a move that fixes its place. -/
theorem kept_relocate {f : K ≃. K} {s : Inventory K A} {i : ℕ} {l : K} {a : A} (hf : f l = some l)
    (h : s.items[i]? = some (some l, a)) : (s.relocate f).items[i]? = some (some l, a) := by
  show (s.items.map fun x => (x.1.bind f, x.2))[i]? = _
  rw [List.getElem?_map, h]
  exact congrArg (fun o => some (o, a)) hf

section

variable [DecidableEq K]

/-- The rank of the item that a place keeps. -/
def rank (s : Inventory K A) (k : K) : Option ℕ := s.items.findIdx? fun x => x.1 = some k

/-- The item that a place keeps. -/
def find (s : Inventory K A) (k : K) : Option A :=
  (s.rank k).bind fun i => s.items[i]?.map Prod.snd

/-- What a place keeps is lost. -/
def dropping (k : K) : K ≃. K := PEquiv.ofSet {l | l ≠ k}

/-- Two places exchange what they keep. -/
def exchanging (k k' : K) : K ≃. K := (Equiv.swap k k').toPEquiv

/-- What a place keeps is put in another place, where it takes the place of what was there. -/
def moving (k k' : K) : K ≃. K := (dropping k').trans (exchanging k k')

section Moves

variable {k k' l : K}

theorem dropping_of_ne (h : l ≠ k) : dropping k l = some l := if_pos h

theorem exchanging_of_ne (h : l ≠ k) (h' : l ≠ k') : exchanging k k' l = some l :=
  congrArg some (Equiv.swap_apply_of_ne_of_ne h h')

theorem moving_of_ne (h : l ≠ k) (h' : l ≠ k') : moving k k' l = some l := by
  show (dropping k' l).bind (exchanging k k') = some l
  rw [dropping_of_ne h']
  exact exchanging_of_ne h h'

theorem symm_dropping (k l : K) : (dropping k).symm l = if l = k then none else some l := by
  show (if l ≠ k then some l else none) = _
  rw [ite_not]

theorem symm_exchanging (k k' l : K) :
    (exchanging k k').symm l = some (if l = k then k' else if l = k' then k else l) := by
  rw [exchanging, ← Equiv.toPEquiv_symm, Equiv.symm_swap, Equiv.toPEquiv_apply, Equiv.swap_apply_def]

theorem symm_moving (hne : k ≠ k') (l : K) :
    (moving k k').symm l = if l = k' then some k else if l = k then none else some l := by
  rw [moving, PEquiv.symm_trans_rev]
  show ((exchanging k k').symm l).bind (dropping k').symm = _
  rw [symm_exchanging, Option.bind_some, symm_dropping]
  split_ifs <;> simp_all

end Moves

/-- The places of the items, and what they keep. -/
theorem rank_eq_some_iff {s : Inventory K A} {k : K} {i : ℕ} :
    s.rank k = some i ↔ ∃ a, s.items[i]? = some (some k, a) := by
  constructor
  · intro h
    obtain ⟨hlt, hk, -⟩ := List.findIdx?_eq_some_iff_getElem.1 h
    refine ⟨s.items[i].2, ?_⟩
    rw [List.getElem?_eq_getElem hlt]
    exact congrArg (fun o => some (o, s.items[i].2)) (of_decide_eq_true hk)
  · rintro ⟨a, hi⟩
    cases hrank : s.rank k with
    | none =>
      have hnone := List.findIdx?_eq_none_iff.1 hrank _ (List.mem_of_getElem? hi)
      simp at hnone
    | some j =>
      obtain ⟨hlt, hk, -⟩ := List.findIdx?_eq_some_iff_getElem.1 hrank
      have hj : s.items[j]? = some (some k, s.items[j].2) := by
        rw [List.getElem?_eq_getElem hlt]
        exact congrArg (fun o => some (o, s.items[j].2)) (of_decide_eq_true hk)
      rw [s.exclusive _ _ _ _ _ hj hi]

theorem find_eq_some_iff {s : Inventory K A} {k : K} {a : A} :
    s.find k = some a ↔ ∃ i : ℕ, s.items[i]? = some (some k, a) := by
  constructor
  · intro h
    obtain ⟨i, hrank, hi⟩ := Option.bind_eq_some_iff.1 h
    obtain ⟨a', ha'⟩ := rank_eq_some_iff.1 hrank
    rw [ha'] at hi
    obtain rfl := Option.some.inj hi
    exact ⟨i, ha'⟩
  · rintro ⟨i, hi⟩
    have hrank : s.rank k = some i := rank_eq_some_iff.2 ⟨a, hi⟩
    rw [find, hrank]
    show s.items[i]?.map Prod.snd = some a
    rw [hi]
    rfl

/-- The rank and the item of a place. -/
theorem rank_of_find {s : Inventory K A} {k : K} {a : A} (h : s.find k = some a) :
    ∃ i : ℕ, s.rank k = some i ∧ s.items[i]? = some (some k, a) := by
  obtain ⟨i, hi⟩ := find_eq_some_iff.1 h
  exact ⟨i, rank_eq_some_iff.2 ⟨a, hi⟩, hi⟩

@[simp] theorem find_empty (k : K) : (empty : Inventory K A).find k = none := rfl

/-- What a place keeps after a move comes from one place. -/
theorem find_relocate (f : K ≃. K) (s : Inventory K A) (k : K) :
    (s.relocate f).find k = (f.symm k).bind s.find := by
  refine Option.ext fun a => ?_
  rw [find_eq_some_iff, Option.bind_eq_some_iff]
  simp only [relocate, List.getElem?_map, Option.map_eq_some_iff, Prod.mk.injEq, Prod.exists]
  constructor
  · rintro ⟨i, o, a', hi, hk, rfl⟩
    obtain ⟨k₀, rfl, hk⟩ := Option.bind_eq_some_iff.1 hk
    exact ⟨k₀, f.eq_some_iff.2 hk, find_eq_some_iff.2 ⟨i, hi⟩⟩
  · rintro ⟨k₀, hk, hfind⟩
    obtain ⟨i, hi⟩ := find_eq_some_iff.1 hfind
    exact ⟨i, some k₀, a, hi, f.eq_some_iff.1 hk, rfl⟩

/-- The item of a rank is the only one that changes. -/
theorem find_update {s : Inventory K A} {i : ℕ} {k : K} {a : A} (h : s.items[i]? = some (some k, a))
    (g : A → A) (l : K) : (s.update i g).find l = if l = k then some (g a) else s.find l := by
  have hitems : ∀ j : ℕ, (s.update i g).items[j]? =
      (s.items[j]?).map fun x => if i = j then Prod.map id g x else x := fun j => List.getElem?_modify ..
  split_ifs with hl
  · rw [find_eq_some_iff, hl]
    refine ⟨i, ?_⟩
    rw [hitems, h]
    simp
  · refine Option.ext fun b => ?_
    rw [find_eq_some_iff, find_eq_some_iff]
    refine exists_congr fun j => ?_
    rw [hitems]
    rcases eq_or_ne i j with rfl | hj
    · simp [h, Ne.symm hl]
    · simp [hj]

/-- A new item is put in a place, and what was there is lost. -/
def arrive (k : K) (a : A) (s : Inventory K A) : Inventory K A where
  items := (s.relocate (dropping k)).items ++ [(some k, a)]
  exclusive i j l b c hi hj := by
    have hvide : ∀ (i : ℕ) (b : A), (s.relocate (dropping k)).items[i]? ≠ some (some k, b) := by
      intro i b hi
      have hfind := find_eq_some_iff.2 ⟨i, hi⟩
      rw [find_relocate, symm_dropping, if_pos rfl] at hfind
      cases hfind
    have hcases : ∀ (i : ℕ) (b : A),
        ((s.relocate (dropping k)).items ++ [(some k, a)])[i]? = some (some l, b) →
          (s.relocate (dropping k)).items[i]? = some (some l, b) ∨
            i = (s.relocate (dropping k)).items.length ∧ l = k := by
      intro i b hi
      rcases lt_or_ge i (s.relocate (dropping k)).items.length with hlt | hge
      · rw [List.getElem?_append_left hlt] at hi
        exact .inl hi
      · rw [List.getElem?_append_right hge, List.getElem?_singleton] at hi
        split_ifs at hi with h0
        cases hi
        exact .inr ⟨by omega, rfl⟩
    rcases hcases i b hi with hi | ⟨hi, hl⟩ <;> rcases hcases j c hj with hj | ⟨hj, hl'⟩
    · exact (s.relocate (dropping k)).exclusive _ _ _ _ _ hi hj
    · exact absurd (hl' ▸ hi) (hvide i b)
    · exact absurd (hl ▸ hj) (hvide j c)
    · rw [hi, hj]

theorem find_arrive (k : K) (a : A) (s : Inventory K A) (l : K) :
    (s.arrive k a).find l = if l = k then some a else s.find l := by
  have hlast : (s.arrive k a).items[(s.relocate (dropping k)).items.length]? = some (some k, a) :=
    List.getElem?_concat_length
  split_ifs with hl
  · rw [hl]
    exact find_eq_some_iff.2 ⟨_, hlast⟩
  · have hdropping : (s.relocate (dropping k)).find l = s.find l := by
      rw [find_relocate, symm_dropping, if_neg hl]
      rfl
    rw [← hdropping]
    refine Option.ext fun b => ?_
    rw [find_eq_some_iff, find_eq_some_iff]
    refine exists_congr fun j => ?_
    rcases lt_trichotomy j (s.relocate (dropping k)).items.length with hj | rfl | hj
    · rw [arrive, List.getElem?_append_left hj]
    · rw [hlast, List.getElem?_eq_none le_rfl]
      simp [Ne.symm hl]
    · rw [arrive, List.getElem?_append_right hj.le, List.getElem?_eq_none hj.le,
        List.getElem?_eq_none (by simp; omega)]

theorem kept_arrive {s : Inventory K A} {i : ℕ} {k l : K} {a b : A} (hne : l ≠ k)
    (h : s.items[i]? = some (some l, a)) : (s.arrive k b).items[i]? = some (some l, a) := by
  have hkept := kept_relocate (dropping_of_ne hne) h
  rw [arrive, List.getElem?_append_left (List.getElem?_eq_some_iff.1 hkept).1, hkept]

end

/-! ## Totals -/

/-- The sum of a weight over the items, wherever they are. -/
def total (w : A → ℕ) (s : Inventory K A) : ℕ := (s.items.map fun x => w x.2).sum

theorem total_relocate (w : A → ℕ) (f : K ≃. K) (s : Inventory K A) :
    (s.relocate f).total w = s.total w := by
  show ((s.items.map _).map _).sum = _
  rw [List.map_map]
  rfl

/-- One item changes by a given amount. -/
theorem total_update {w : A → ℕ} {s : Inventory K A} {i : ℕ} {x : Option K × A}
    (h : s.items[i]? = some x) {g : A → A} {d : ℕ} (hd : w (g x.2) = w x.2 + d) :
    (s.update i g).total w = s.total w + d := by
  obtain ⟨past, recent, hitems, rfl⟩ : ∃ past recent, s.items = past ++ x :: recent ∧ past.length = i := by
    obtain ⟨hlt, hx⟩ := List.getElem?_eq_some_iff.1 h
    refine ⟨s.items.take i, s.items.drop (i + 1), ?_, List.length_take_of_le hlt.le⟩
    rw [← hx, List.cons_getElem_drop_succ, List.take_append_drop]
  have hmodify : ∀ (past : List (Option K × A)),
      (past ++ x :: recent).modify past.length (Prod.map id g) = past ++ (x.1, g x.2) :: recent := by
    intro past
    induction past with
    | nil => rfl
    | cons y past ih => rw [List.cons_append, List.length_cons, List.modify_succ_cons, ih, List.cons_append]
  show ((s.items.modify _ _).map _).sum = _
  rw [total, hitems, hmodify]
  simp only [List.map_append, List.map_cons, List.sum_append, List.sum_cons, hd]
  omega

variable [DecidableEq K]

theorem total_arrive (w : A → ℕ) (k : K) (a : A) (s : Inventory K A) :
    (s.arrive k a).total w = s.total w + w a := by
  show (((s.relocate _).items ++ [_]).map _).sum = _
  rw [List.map_append, List.sum_append, ← total_relocate w (dropping k) s]
  rfl

/-- What a place keeps is the only item that has it for a place. -/
theorem find_elim (w : A → ℕ) (s : Inventory K A) (k : K) :
    (s.find k).elim 0 w = (s.items.map fun x => if x.1 = some k then w x.2 else 0).sum := by
  have hzero : ∀ items : List (Option K × A), (∀ x ∈ items, x.1 ≠ some k) →
      (items.map fun x => if x.1 = some k then w x.2 else 0).sum = 0 := fun items hitems =>
    List.sum_eq_zero fun n hn => by
      obtain ⟨x, hx, rfl⟩ := List.mem_map.1 hn
      exact if_neg (hitems x hx)
  cases hfind : s.find k with
  | none =>
    refine (hzero _ fun x hx hk => ?_).symm
    obtain ⟨i, hi⟩ := List.mem_iff_getElem?.1 hx
    have hsome : s.find k = some x.2 := find_eq_some_iff.2 ⟨i, by rw [hi, ← hk]⟩
    rw [hfind] at hsome
    cases hsome
  | some a =>
    obtain ⟨i, hi⟩ := find_eq_some_iff.1 hfind
    obtain ⟨hlt, hx⟩ := List.getElem?_eq_some_iff.1 hi
    have hitems : s.items = s.items.take i ++ (some k, a) :: s.items.drop (i + 1) := by
      rw [← hx, List.cons_getElem_drop_succ, List.take_append_drop]
    -- no other item has this place
    have hautre : ∀ j : ℕ, j ≠ i → ∀ x, s.items[j]? = some x → x.1 ≠ some k := by
      rintro j hj ⟨o, b⟩ hx rfl
      exact hj (s.exclusive _ _ _ _ _ hx hi)
    have hpast := hzero (s.items.take i) fun x hx => by
      obtain ⟨j, hj, rfl⟩ := List.getElem_of_mem hx
      rw [List.length_take] at hj
      exact hautre j (by omega) _ (by rw [List.getElem_take, List.getElem?_eq_getElem])
    have hrecent := hzero (s.items.drop (i + 1)) fun x hx => by
      obtain ⟨j, hj⟩ := List.mem_iff_getElem?.1 hx
      rw [List.getElem?_drop] at hj
      exact hautre _ (by omega) _ hj
    rw [hitems, List.map_append, List.map_cons, List.sum_append, List.sum_cons, hpast, hrecent, if_pos rfl]
    exact ((Nat.zero_add _).trans (Nat.add_zero _)).symm

/-- What some places keep is the items that are kept there. -/
theorem sum_find (w : A → ℕ) (s : Inventory K A) (places : Finset K) :
    ∑ k ∈ places, (s.find k).elim 0 w =
      (s.items.map fun x => x.1.elim 0 fun k => if k ∈ places then w x.2 else 0).sum := by
  simp only [find_elim]
  -- each item is counted at one place at most
  induction s.items with
  | nil => simp
  | cons x items ih =>
    simp only [List.map_cons, List.sum_cons, Finset.sum_add_distrib, ih]
    rcases x with ⟨_ | k, a⟩
    · simp
    · simp only [Option.some.injEq, Finset.sum_ite_eq, Option.elim_some]

theorem kept_le (w : A → ℕ) (places : Finset K) (x : Option K × A) :
    (x.1.elim 0 fun k => if k ∈ places then w x.2 else 0) ≤ w x.2 := by
  rcases x with ⟨_ | k, a⟩
  · exact Nat.zero_le _
  · show (if k ∈ places then w a else 0) ≤ w a
    split_ifs
    · exact le_rfl
    · exact Nat.zero_le _

/-- What some places keep is a part of the total. -/
theorem sum_find_le (w : A → ℕ) (s : Inventory K A) (places : Finset K) :
    ∑ k ∈ places, (s.find k).elim 0 w ≤ s.total w :=
  (s.sum_find w places).trans_le (List.sum_le_sum fun x _ => kept_le w places x)

/-- When some places keep the whole total, every item that weighs is in one of them. -/
theorem kept_of_total_le {w : A → ℕ} {s : Inventory K A} {places : Finset K}
    (h : s.total w ≤ ∑ k ∈ places, (s.find k).elim 0 w) {x : Option K × A} (hx : x ∈ s.items)
    (hw : 0 < w x.2) : ∃ k ∈ places, x.1 = some k := by
  by_contra hnone
  have hzero : (x.1.elim 0 fun k => if k ∈ places then w x.2 else 0) = 0 := by
    rcases x with ⟨_ | k, a⟩
    · rfl
    · exact if_neg fun hk => hnone ⟨k, hk, rfl⟩
  have hlt := List.sum_lt_sum _ (fun x : Option K × A => w x.2) (fun x _ => kept_le w places x)
    ⟨x, hx, hzero.trans_lt hw⟩
  exact absurd (h.trans_eq (s.sum_find w places)) (not_le.2 hlt)

/-- When every item is in one of some places, these keep the whole total. -/
theorem sum_find_eq_total (w : A → ℕ) {s : Inventory K A} {places : Finset K}
    (h : ∀ x ∈ s.items, ∃ k ∈ places, x.1 = some k) : ∑ k ∈ places, (s.find k).elim 0 w = s.total w := by
  rw [sum_find, total]
  congr 1
  refine List.map_congr_left fun x hx => ?_
  obtain ⟨k, hk, hx⟩ := h x hx
  rw [hx]
  exact if_pos hk

end Inventory
