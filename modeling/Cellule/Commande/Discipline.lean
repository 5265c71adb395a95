import Cellule.Commande.Petri
import Cellule.Lib.Machine

/-! # The discipline of the commands

The marked place of the net tells which commands can be unanswered. A view keeps the marked places
and the robots and posts that may be busy; the transitions are followed on views, and each leads
from a view that is expected to a view that is expected.
-/

namespace Commande

/-- The places that share one token. -/
def principales : List ℕ := (List.range 25).map (10 * ·) ++ [182, placeFin]

/-- The places of the side branch that stops the next shuttle. -/
def laterales : List ℕ := [141, 142]

/-- A command is issued when the robots can take it: no unanswered move of the robot, no unanswered
task on the posts concerned. -/
def Discipline (e : EnCours) : Publication → Prop
  | .deplacerPiece msg => e.deplacements msg.numRobot = 0 ∧
      e.taches (msg.numRobot, msg.positionA) = 0 ∧ e.taches (msg.numRobot, msg.positionB) = 0
  | .faireTache msg => e.taches (msg.numRobot, msg.position) = 0
  | .evacuer => ∀ poste, computeFromNumPoste 3 = some poste → e.taches poste = 0
  | _ => True

/-! ## Views -/

/-- The marked places, and the robots and posts that may have an unanswered command. -/
structure Vue where
  place : Option ℕ
  cote : Option ℕ
  deplacements : List ℤ
  taches : List (ℤ × ℤ)
  deriving DecidableEq

namespace Vue

/-- A view that allows more unanswered commands. -/
def Inclus (v v' : Vue) : Prop :=
  v.place = v'.place ∧ v.cote = v'.cote ∧ v.deplacements ⊆ v'.deplacements ∧ v.taches ⊆ v'.taches

instance (v v' : Vue) : Decidable (v.Inclus v') := by
  unfold Inclus
  infer_instance

/-- Move a token on a set of places that holds at most one. -/
def deplacerJeton (jeton : Option ℕ) (i : ℕ) (d : ℤ) : Option (Option ℕ) :=
  if jeton = some i ∧ d = -1 then some none
  else if jeton = none ∧ d = 1 then some (some i)
  else none

/-- A statement on a view; `none` when the view does not allow it. -/
def executer (v : Vue) : Action → Option Vue
  | .marquer i d =>
      if i ∈ principales then (deplacerJeton v.place i d).map fun place => { v with place }
      else if i ∈ laterales then (deplacerJeton v.cote i d).map fun cote => { v with cote }
      else some v
  | .ajouterProduit poste produit =>
      if (1 ≤ poste ∧ poste ≤ 8) ∧ 1 ≤ produit ∧ produit ≤ 6 then some v else none
  | .faireTache q _ =>
      (computeFromNumPoste q).bind fun poste =>
        if poste ∈ v.taches then none else some { v with taches := poste :: v.taches }
  | .deplacerPiece r a b =>
      if r ∈ v.deplacements ∨ (r, a) ∈ v.taches ∨ (r, b) ∈ v.taches then none
      else some { v with deplacements := r :: v.deplacements }
  | .evacuer => if (2, 1) ∈ v.taches then none else some v
  | _ => some v

/-- What a test that succeeds says. -/
def apprendre (v : Vue) : Condition → Vue
  | .tacheFinie q =>
      { v with taches := v.taches.filter fun poste => computeFromNumPoste q ≠ some poste }
  | .finDeplacerPiece r =>
      if 1 ≤ r ∧ r ≤ 4 then { v with deplacements := v.deplacements.filter (· ≠ r) } else v
  | _ => v

/-- A transition on a view. -/
def franchir (v : Vue) (t : Transition) : Option Vue :=
  t.actions.foldlM executer (t.conditions.foldl apprendre v)

end Vue

/-- For each place, the robots and the posts that may have an unanswered command. -/
def attendus : List (ℕ × List ℤ × List (ℤ × ℤ)) :=
  [(0, [], []), (10, [], []), (20, [], [(4, 1)]), (30, [2, 4], []), (40, [], []), (50, [3], []),
    (60, [], [(3, 1)]), (70, [], [(3, 1)]), (80, [], [(3, 1)]), (90, [3, 1], []),
    (100, [], [(3, 4), (1, 4)]), (110, [], [(1, 4), (3, 4)]), (120, [1, 3], []), (130, [], []),
    (140, [], []), (150, [], []), (160, [2], []), (170, [], [(2, 4)]), (180, [2], [(2, 4)]),
    (182, [], [(2, 4), (2, 1)]), (190, [], [(2, 4)]), (200, [2], []), (210, [], []), (220, [], []),
    (230, [], []), (240, [], []), (placeFin, [], [])]

/-- The views that are expected: the side branch is entered at the place 140. -/
def permises : List Vue :=
  attendus.flatMap fun (place, deplacements, taches) =>
    (if place < 150 then [none] else [none, some 141, some 142]).map fun cote =>
      { place := some place, cote, deplacements, taches }

/-- Each transition leads from an expected view to an expected view. -/
theorem franchir_permises : ∀ v ∈ permises, ∀ t ∈ transitions,
    v.place = some t.place ∨ v.cote = some t.place →
      ∃ v' ∈ permises, ∃ v'' ∈ v.franchir t, v''.Inclus v' := by
  decide +kernel

/-! ## What a view says of the node -/

/-- One token on the places of a list, or none, as `jeton` says. -/
def Marque (M : ℕ → ℤ) (places : List ℕ) (jeton : Option ℕ) : Prop :=
  ∀ q ∈ places, M q = if jeton = some q then 1 else 0

/-- The products that wait are codes of two digits. -/
def CodesValides (codes : List ℤ) : Prop := ∀ code ∈ codes, 11 ≤ code ∧ code ≤ 86

/-- A flag that acknowledges commands: at most one is unanswered, and none when the flag is set. -/
structure Verrou {κ : Type} (drapeau : κ → ℤ) (nombre : κ → ℕ) : Prop where
  le_one : ∀ k, nombre k ≤ 1
  libre : ∀ k, drapeau k ≠ 0 → nombre k = 0

/-- The interface of the robots agrees with what is unanswered. -/
structure Accorde (robot : RobotsInterface) (e : EnCours) : Prop where
  nbRobot : robot.nbRobot = 4
  codes : CodesValides robot.produitAAjouter
  deplacements : Verrou robot.robotMacroDeplacement e.deplacements
  taches : Verrou robot.robotTask e.taches

/-- The node is as the view says. -/
structure Conforme (v : Vue) (s : Petri) : Prop where
  principales : Marque s.M principales v.place
  laterales : Marque s.M laterales v.cote
  deplacements : ∀ r ∉ v.deplacements, s.enCours.deplacements r = 0
  taches : ∀ poste ∉ v.taches, s.enCours.taches poste = 0
  accorde : Accorde s.robot s.enCours
  publiees : ∀ p ∈ s.publiees, Discipline p.2 p.1

theorem Conforme.mono {v v' : Vue} {s : Petri} (h : Conforme v s) (hle : v.Inclus v') :
    Conforme v' s := by
  obtain ⟨hplace, hcote, hdep, htaches⟩ := hle
  exact
    { principales := hplace ▸ h.principales
      laterales := hcote ▸ h.laterales
      deplacements := fun r hr => h.deplacements r fun hmem => hr (hdep hmem)
      taches := fun poste hp => h.taches poste fun hmem => hp (htaches hmem)
      accorde := h.accorde
      publiees := h.publiees }

/-! ### The marking -/

theorem Marque.update_of_notMem {M : ℕ → ℤ} {places : List ℕ} {jeton : Option ℕ} {i : ℕ} {x : ℤ}
    (h : Marque M places jeton) (hi : i ∉ places) : Marque (Function.update M i x) places jeton := by
  intro q hq
  rw [Function.update_of_ne (ne_of_mem_of_not_mem hq hi)]
  exact h q hq

/-- A move of the token on the view is the move on the marking. -/
theorem Marque.update {M : ℕ → ℤ} {places : List ℕ} {jeton jeton' : Option ℕ} {i : ℕ} {d : ℤ}
    (h : Marque M places jeton) (hi : i ∈ places)
    (hd : Vue.deplacerJeton jeton i d = some jeton') :
    Marque (Function.update M i (M i + d)) places jeton' := by
  intro q hq
  unfold Vue.deplacerJeton at hd
  have hqi := h q hq
  have hii := h i hi
  rcases eq_or_ne q i with rfl | hne
  · rw [Function.update_self]
    split_ifs at hd with h₁ h₂
    · obtain ⟨rfl, rfl⟩ := h₁
      cases hd
      simp only [if_true] at hii
      simp [hii]
    · obtain ⟨rfl, rfl⟩ := h₂
      cases hd
      simp at hii
      simp [hii]
  · rw [Function.update_of_ne hne, hqi]
    split_ifs at hd with h₁ h₂
    · obtain ⟨rfl, rfl⟩ := h₁
      cases hd
      simp [hne.symm]
    · obtain ⟨rfl, rfl⟩ := h₂
      cases hd
      simp [hne.symm]

theorem Marque.nonneg {M : ℕ → ℤ} {places : List ℕ} {jeton : Option ℕ} (h : Marque M places jeton) :
    ∀ q ∈ places, 0 ≤ M q := by
  intro q hq
  rw [h q hq]
  split_ifs <;> decide

/-- The total on the places is the number of tokens of the view. -/
theorem Marque.sum {M : ℕ → ℤ} {places : List ℕ} {jeton : Option ℕ} (hnodup : places.Nodup)
    (h : Marque M places jeton) :
    (places.map M).sum = if ∃ q ∈ places, jeton = some q then 1 else 0 := by
  induction places with
  | nil => simp
  | cons q places ih =>
    obtain ⟨hq, hnodup⟩ := List.nodup_cons.1 hnodup
    rw [List.map_cons, List.sum_cons, ih hnodup fun q' hq' => h q' (List.mem_cons_of_mem _ hq'),
      h q List.mem_cons_self]
    by_cases hj : jeton = some q
    · have hno : ¬ ∃ q' ∈ places, jeton = some q' := by
        rintro ⟨q', hq', hjq'⟩
        rw [hj] at hjq'
        cases hjq'
        exact hq hq'
      simp [hj] at hno ⊢
      exact hno
    · simp [hj]

/-! ### The flags -/

section Verrou

variable {κ : Type} [DecidableEq κ] {drapeau : κ → ℤ} {nombre : κ → ℕ} {k : κ}

theorem Verrou.emettre (h : Verrou drapeau nombre) (hk : nombre k = 0) :
    Verrou (Function.update drapeau k 0) (Function.update nombre k (nombre k + 1)) where
  le_one k' := by
    rcases eq_or_ne k' k with rfl | hne
    · rw [Function.update_self, hk]
    · rw [Function.update_of_ne hne]
      exact h.le_one k'
  libre k' hk' := by
    rcases eq_or_ne k' k with rfl | hne
    · exact absurd (Function.update_self ..) hk'
    · rw [Function.update_of_ne hne] at hk' ⊢
      exact h.libre k' hk'

theorem Verrou.repondre (h : Verrou drapeau nombre) :
    Verrou (Function.update drapeau k 1) (Function.update nombre k (nombre k - 1)) where
  le_one k' := by
    have hle := h.le_one k'
    rcases eq_or_ne k' k with rfl | hne
    · rw [Function.update_self]
      omega
    · rwa [Function.update_of_ne hne]
  libre k' hk' := by
    have hle := h.le_one k'
    rcases eq_or_ne k' k with rfl | hne
    · rw [Function.update_self]
      omega
    · rw [Function.update_of_ne hne] at hk' ⊢
      exact h.libre k' hk'

omit drapeau in
theorem update_sub_one_le (k' : κ) : Function.update nombre k (nombre k - 1) k' ≤ nombre k' := by
  rcases eq_or_ne k' k with rfl | hne
  · rw [Function.update_self]
    exact Nat.sub_le _ _
  · rw [Function.update_of_ne hne]

end Verrou

/-! ### The statements -/

theorem CodesValides.push {codes : List ℤ} {poste produit : ℤ} (h : CodesValides codes)
    (hcode : (1 ≤ poste ∧ poste ≤ 8) ∧ 1 ≤ produit ∧ produit ≤ 6) :
    CodesValides (codes ++ [poste * 10 + produit]) := by
  intro code hmem
  rcases List.mem_append.1 hmem with hmem | hmem
  · exact h code hmem
  · rw [List.mem_singleton.1 hmem]
    omega

section Executer

variable {v v' : Vue} {s : Petri}

theorem Conforme.marquer {i : ℕ} {d : ℤ} (h : Conforme v s)
    (hv' : v.executer (.marquer i d) = some v') : Conforme v' (s.marquer i d) := by
  have hdisjoint : ∀ q ∈ Commande.principales, q ∉ Commande.laterales := by decide
  rw [Vue.executer] at hv'
  split_ifs at hv' with hp hl
  · obtain ⟨place, hplace, rfl⟩ := Option.map_eq_some_iff.1 hv'
    exact { h with
      principales := h.principales.update hp hplace
      laterales := h.laterales.update_of_notMem (hdisjoint i hp) }
  · obtain ⟨cote, hcote, rfl⟩ := Option.map_eq_some_iff.1 hv'
    exact { h with
      principales := h.principales.update_of_notMem hp
      laterales := h.laterales.update hl hcote }
  · cases hv'
    exact { h with
      principales := h.principales.update_of_notMem hp
      laterales := h.laterales.update_of_notMem hl }

/-- A publication that nothing answers. -/
theorem Conforme.publier {p : Publication} (h : Conforme v s) (hp : s.enCours.emettre p = s.enCours)
    (hd : Discipline s.enCours p) : Conforme v (s.publier p) := by
  unfold Petri.publier
  rw [hp]
  exact { h with
    publiees := by
      intro q hq
      rcases List.mem_append.1 hq with hq | hq
      · exact h.publiees q hq
      · rw [List.mem_singleton.1 hq]
        exact hd }

theorem Conforme.ajouterProduit {poste produit : ℤ} (h : Conforme v s)
    (hcode : (1 ≤ poste ∧ poste ≤ 8) ∧ 1 ≤ produit ∧ produit ≤ 6) :
    Conforme v (s.executer (.ajouterProduit poste produit)) := by
  have hnb := h.accorde.nbRobot
  rw [Petri.executer, RobotsInterface.ajouterProduit, if_pos (by omega), if_pos hcode.2]
  have hcodes := h.accorde.codes.push hcode
  have hrobot : Conforme v { s with
      robot := { s.robot with produitAAjouter := s.robot.produitAAjouter ++ [poste * 10 + produit] } } :=
    { h with accorde := { h.accorde with codes := hcodes } }
  have hsrv := hrobot.publier (p := .srvAddProduct poste produit) rfl trivial
  exact hsrv.publier (p := .addProduct poste (produit * 10 + 4)) rfl trivial

theorem Conforme.faireTache {q duree : ℤ} {poste : ℤ × ℤ} (h : Conforme v s)
    (hq : computeFromNumPoste q = some poste) (hlibre : poste ∉ v.taches) :
    Conforme { v with taches := poste :: v.taches } (s.executer (.faireTache q duree)) := by
  have hzero := h.taches poste hlibre
  rw [Petri.executer, RobotsInterface.faireTache]
  by_cases hrange : 1 ≤ q ∧ q ≤ s.robot.nbRobot * 2
  · obtain ⟨numRobot, position⟩ := poste
    rw [if_pos hrange, hq]
    exact
      { principales := h.principales
        laterales := h.laterales
        deplacements := h.deplacements
        taches := by
          intro poste' hposte'
          rw [List.mem_cons, not_or] at hposte'
          exact (Function.update_of_ne hposte'.1 _ _).trans (h.taches poste' hposte'.2)
        accorde := { h.accorde with taches := h.accorde.taches.emettre hzero }
        publiees := by
          intro p hp
          rcases List.mem_append.1 hp with hp | hp
          · exact h.publiees p hp
          · rw [List.mem_singleton.1 hp]
            exact hzero }
  · rw [if_neg hrange]
    exact h.mono ⟨rfl, rfl, List.Subset.refl _, List.subset_cons_self _ _⟩

theorem Conforme.deplacerPiece {r a b : ℤ} (h : Conforme v s) (hr : r ∉ v.deplacements)
    (ha : (r, a) ∉ v.taches) (hb : (r, b) ∉ v.taches) :
    Conforme { v with deplacements := r :: v.deplacements } (s.executer (.deplacerPiece r a b)) := by
  have hzero := h.deplacements r hr
  have hle : v.Inclus { v with deplacements := r :: v.deplacements } :=
    ⟨rfl, rfl, List.subset_cons_self _ _, List.Subset.refl _⟩
  rw [Petri.executer, RobotsInterface.deplacerPiece]
  split_ifs with hrange hpositions
  · exact
      { principales := h.principales
        laterales := h.laterales
        deplacements := by
          intro r' hr'
          rw [List.mem_cons, not_or] at hr'
          exact (Function.update_of_ne hr'.1 _ _).trans (h.deplacements r' hr'.2)
        taches := h.taches
        accorde := { h.accorde with deplacements := h.accorde.deplacements.emettre hzero }
        publiees := by
          intro p hp
          rcases List.mem_append.1 hp with hp | hp
          · exact h.publiees p hp
          · rw [List.mem_singleton.1 hp]
            exact ⟨hzero, h.taches _ ha, h.taches _ hb⟩ }
  · exact h.mono hle
  · exact h.mono hle

/-- A statement that the view allows leaves the node as the view says. -/
theorem Conforme.executer (v v' : Vue) (s : Petri) (a : Action) (h : Conforme v s)
    (ha : v.executer a = some v') : Conforme v' (s.executer a) := by
  cases a with
  | marquer i d => exact h.marquer ha
  | ajouterProduit poste produit =>
    rw [Vue.executer] at ha
    split_ifs at ha with hcode
    cases ha
    exact h.ajouterProduit hcode
  | faireTache q duree =>
    obtain ⟨poste, hq, ha⟩ := Option.bind_eq_some_iff.1 ha
    split_ifs at ha with hlibre
    cases ha
    exact h.faireTache hq hlibre
  | deplacerPiece r a b =>
    rw [Vue.executer] at ha
    split_ifs at ha with hoccupe
    cases ha
    rw [not_or, not_or] at hoccupe
    exact h.deplacerPiece hoccupe.1 hoccupe.2.1 hoccupe.2.2
  | evacuer =>
    rw [Vue.executer] at ha
    split_ifs at ha with hoccupe
    cases ha
    refine h.publier (p := .evacuer) rfl fun poste hposte => ?_
    cases hposte
    exact h.taches _ hoccupe
  | stopPS | ouvrirPS | sortirErgot | droite | gauche =>
    cases ha
    exact h

/-- A test that succeeds teaches what it says. -/
theorem Conforme.apprendre {cond : Condition} (h : Conforme v s)
    (hcond : cond.vraie s.capteurs s.robot) : Conforme (v.apprendre cond) s := by
  have hnb := h.accorde.nbRobot
  cases cond with
  | tacheFinie q =>
    refine { h with taches := fun poste hposte => ?_ }
    by_cases hq : computeFromNumPoste q = some poste
    -- the flag of the post was read
    · have hrange := computeFromNumPoste_range hq
      rw [Condition.vraie, RobotsInterface.tacheFinie, if_neg (by omega), hq] at hcond
      exact h.accorde.taches.libre poste hcond
    · exact h.taches poste fun hmem => hposte (List.mem_filter.2 ⟨hmem, by simpa using hq⟩)
  | finDeplacerPiece r =>
    rw [Vue.apprendre]
    split_ifs with hrange
    · rw [Condition.vraie, RobotsInterface.finDeplacerPiece, if_neg (by omega)] at hcond
      refine { h with deplacements := fun r' hr' => ?_ }
      rcases eq_or_ne r' r with rfl | hne
      · exact h.accorde.deplacements.libre r' hcond
      · exact h.deplacements r' fun hmem => hr' (List.mem_filter.2 ⟨hmem, by simpa using hne⟩)
    · exact h
  | ps | nonPS | cp | dg => exact h

/-- The tests of a transition, when they all succeed. -/
theorem Conforme.foldl_apprendre {conds : List Condition} (h : Conforme v s)
    (hconds : ∀ cond ∈ conds, cond.vraie s.capteurs s.robot) :
    Conforme (conds.foldl Vue.apprendre v) s := by
  induction conds generalizing v with
  | nil => exact h
  | cons cond conds ih =>
    rw [List.forall_mem_cons] at hconds
    exact ih (h.apprendre hconds.1) hconds.2

/-- The place of a transition that is fired is marked in the view. -/
theorem Conforme.place_of_marque {q : ℕ} (h : Conforme v s)
    (hq : q ∈ Commande.principales ∨ q ∈ Commande.laterales) (hM : s.M q ≠ 0) :
    v.place = some q ∨ v.cote = some q := by
  rcases hq with hq | hq
  · left
    by_contra hne
    exact hM ((h.principales q hq).trans (if_neg hne))
  · right
    by_contra hne
    exact hM ((h.laterales q hq).trans (if_neg hne))

end Executer

/-! ## The run -/

/-- The node is as an expected view says, and what is left of the iteration is in the net. -/
structure Reglee (s : Petri) : Prop where
  conforme : ∃ v ∈ permises, Conforme v s
  reste : ∀ t ∈ s.reste, t ∈ transitions

theorem places_permises : ∀ v ∈ permises, ∃ q ∈ principales, v.place = some q := by
  decide +kernel

theorem places_transitions : ∀ t ∈ transitions, t.place ∈ principales ∨ t.place ∈ laterales := by
  decide +kernel

/-- A transition that is tested keeps the node as an expected view says. -/
theorem tester_conforme {s : Petri} {t : Transition} (ht : t ∈ transitions)
    (h : ∃ v ∈ permises, Conforme v s) : ∃ v ∈ permises, Conforme v (s.tester t) := by
  obtain ⟨v, hv, h⟩ := h
  unfold Petri.tester
  split_ifs with hfire
  · obtain ⟨hM, hconds⟩ := hfire
    have hplace := h.place_of_marque (places_transitions t ht) hM
    obtain ⟨v', hv', v'', hfranchir, hinclus⟩ := franchir_permises v hv t ht hplace
    have hfin := Reactive.abstract_foldlM Conforme.executer (h.foldl_apprendre hconds) hfranchir
    exact ⟨v', hv', hfin.mono hinclus⟩
  · exact ⟨v, hv, h⟩

theorem Conforme.robot {v : Vue} {s : Petri} {robot : RobotsInterface} {e : EnCours}
    (h : Conforme v s) (hrobot : Accorde robot e)
    (hdep : ∀ r, e.deplacements r ≤ s.enCours.deplacements r)
    (htaches : ∀ poste, e.taches poste ≤ s.enCours.taches poste) :
    Conforme v { s with robot, enCours := e } :=
  { h with
    deplacements := fun r hr => Nat.le_zero.1 ((hdep r).trans (h.deplacements r hr).le)
    taches := fun poste hposte => Nat.le_zero.1 ((htaches poste).trans (h.taches poste hposte).le)
    accorde := hrobot }

/-- The products that wait only mark places of their own. -/
theorem produit_notMem {code : ℤ} (h : 11 ≤ code ∧ code ≤ 86) :
    500 + code.toNat ∉ principales ∧ 500 + code.toNat ∉ laterales := by
  have hplaces : ∀ q ∈ principales ++ laterales, q ≤ 240 ∨ q = 1000 := by decide
  constructor
  · intro hmem
    have hq := hplaces _ (List.mem_append_left _ hmem)
    omega
  · intro hmem
    have hq := hplaces _ (List.mem_append_right _ hmem)
    omega

theorem Conforme.ajouterProduits {v : Vue} (n : ℕ) {s : Petri} (h : Conforme v s) :
    Conforme v (s.ajouterProduits n) := by
  induction n generalizing s with
  | zero => exact h
  | succ n ih =>
    rw [Petri.ajouterProduits, RobotsInterface.ajoutProduitEnAttente]
    cases hlast : s.robot.produitAAjouter.getLast? with
    | none => exact h
    | some code =>
      have hcode := h.accorde.codes code (List.mem_of_getLast? hlast)
      have hcodes : CodesValides s.robot.produitAAjouter.dropLast :=
        fun c hc => h.accorde.codes c (List.dropLast_subset _ hc)
      have hplace := produit_notMem hcode
      let robot := { s.robot with produitAAjouter := s.robot.produitAAjouter.dropLast }
      have haccorde : Accorde robot s.enCours := { h.accorde with codes := hcodes }
      have hrobot := h.robot haccorde (fun _ => le_rfl) fun _ => le_rfl
      rw [if_pos (by show code ≠ -1; omega)]
      apply ih
      exact { hrobot with
        principales := hrobot.principales.update_of_notMem hplace.1
        laterales := hrobot.laterales.update_of_notMem hplace.2 }

theorem Accorde.repondreTache {robot : RobotsInterface} {e e' : EnCours} {poste : ℤ × ℤ}
    (h : Accorde robot e) (he : e.repondreTache poste = some e') :
    Accorde (robot.setTask poste 1) e' ∧
      (∀ r, e'.deplacements r ≤ e.deplacements r) ∧ ∀ p, e'.taches p ≤ e.taches p := by
  unfold EnCours.repondreTache at he
  split_ifs at he
  cases he
  exact ⟨{ h with taches := h.taches.repondre }, fun _ => le_rfl, update_sub_one_le⟩

/-- An answer leaves the flags in agreement with what is unanswered. -/
theorem Accorde.repondre {robot : RobotsInterface} {e e' : EnCours} {numRobot data : ℤ}
    (h : Accorde robot e) (he : e.repondre numRobot data = some e') :
    Accorde (robot.retourRobotCallback numRobot data) e' ∧
      (∀ r, e'.deplacements r ≤ e.deplacements r) ∧ ∀ poste, e'.taches poste ≤ e.taches poste := by
  unfold EnCours.repondre at he
  split_ifs at he with h8 h9 h10 hlibre
  · subst h8
    exact h.repondreTache he
  · subst h9
    exact h.repondreTache he
  · subst h10
    cases he
    exact ⟨{ h with deplacements := h.deplacements.repondre }, update_sub_one_le, fun _ => le_rfl⟩
  · cases he
    obtain ⟨hnb, hcodes, hmacro, htask⟩ := robot.retourRobotCallback_frame numRobot ⟨h8, h9, h10⟩
    exact
      ⟨{ nbRobot := hnb.trans h.nbRobot
         codes := hcodes ▸ h.codes
         deplacements := hmacro ▸ h.deplacements
         taches := htask ▸ h.taches },
        fun _ => le_rfl, fun _ => le_rfl⟩

theorem tester_reste (s : Petri) (t : Transition) : (s.tester t).reste = s.reste := by
  have hpublier : ∀ (ps : List Publication) (s : Petri), (ps.foldl Petri.publier s).reste = s.reste := by
    intro ps
    induction ps with
    | nil => exact fun _ => rfl
    | cons p ps ih => exact fun s => (ih (s.publier p)).trans rfl
  have hactions : ∀ (as : List Action) (s : Petri), (as.foldl Petri.executer s).reste = s.reste := by
    intro as
    induction as with
    | nil => exact fun _ => rfl
    | cons a as ih =>
      refine fun s => (ih (s.executer a)).trans ?_
      cases a <;> first | rfl | exact hpublier _ _
  unfold Petri.tester
  split_ifs
  · exact hactions _ _
  · rfl

/-- What the loop keeps. -/
theorem Reglee.etape {s s' : Petri} {ev : Evenement} (h : Reglee s) (hs : s.etape ev = some s') :
    Reglee s' := by
  obtain ⟨v, hv, hconf⟩ := h.conforme
  cases ev with
  | iterer c =>
    rw [Petri.etape] at hs
    split_ifs at hs
    cases hs
    have hdebut := hconf.ajouterProduits (s.robot.produitAAjouter.length + 1)
    exact ⟨⟨v, hv, { hdebut with }⟩, fun t ht => ht⟩
  | suivant =>
    rw [Petri.etape] at hs
    cases hreste : s.reste with
    | nil =>
      rw [hreste] at hs
      cases hs
    | cons t reste =>
      rw [hreste] at hs
      cases hs
      have ht : t ∈ transitions := h.reste t (hreste ▸ List.mem_cons_self)
      have hreste' : ∀ t ∈ reste, t ∈ transitions :=
        fun t ht => h.reste t (hreste ▸ List.mem_cons_of_mem _ ht)
      have htester : Reglee ({ s with reste }.tester t) :=
        { conforme := tester_conforme ht ⟨v, hv, { hconf with }⟩
          reste := by rwa [tester_reste] }
      split_ifs
      · obtain ⟨v', hv', hconf'⟩ := htester.conforme
        exact { htester with conforme := ⟨v', hv', { hconf' with }⟩ }
      · exact htester
  | retour numRobot data =>
    rw [Petri.etape] at hs
    split_ifs at hs with hreste
    obtain ⟨e, he, rfl⟩ := Option.map_eq_some_iff.1 hs
    obtain ⟨haccorde, hdep, htaches⟩ := hconf.accorde.repondre he
    exact ⟨⟨v, hv, hconf.robot haccorde hdep htaches⟩, h.reste⟩
  | pushBack poste produit =>
    rw [Petri.etape] at hs
    split_ifs at hs with hpush
    cases hs
    have hcodes : CodesValides (s.robot.productAddPushBack poste produit).produitAAjouter :=
      hconf.accorde.codes.push hpush.2
    exact ⟨⟨v, hv, hconf.robot { hconf.accorde with codes := hcodes } (fun _ => le_rfl) fun _ => le_rfl⟩,
      h.reste⟩
  | play b =>
    rw [Petri.etape] at hs
    split_ifs at hs with hreste
    cases hs
    exact ⟨⟨v, hv, { hconf with }⟩, h.reste⟩

/-- The node starts as expected. -/
theorem reglee_initial : Reglee .initial where
  conforme := by
    refine ⟨⟨some 0, none, [], []⟩, by decide, ?_⟩
    exact
      { principales := by
          intro q _
          show (if q = 0 then 1 else 0) = if some 0 = some q then 1 else 0
          simp [eq_comm]
        laterales := by
          intro q hq
          have hne : q ≠ 0 := by
            rintro rfl
            revert hq
            decide
          exact if_neg hne
        deplacements := fun _ _ => rfl
        taches := fun _ _ => rfl
        accorde :=
          { nbRobot := rfl
            codes := by simp [CodesValides, Petri.initial, RobotsInterface.initial]
            deplacements := ⟨fun _ => Nat.zero_le _, fun _ _ => rfl⟩
            taches := ⟨fun _ => Nat.zero_le _, fun _ _ => rfl⟩ }
        publiees := by simp [Petri.initial] }
  reste := by simp [Petri.initial]

/-- In every run the net keeps one token on the main places and at most one on the side branch, and
every command was issued when the robots could take it. -/
theorem commandes_disciplinees {evenements : List Evenement} {s : Petri}
    (h : Reactive.Run (fun s ev s' => s.etape ev = some s') .initial evenements s) :
    ((∀ q ∈ principales, 0 ≤ s.M q) ∧ (principales.map s.M).sum = 1) ∧
      ((∀ q ∈ laterales, 0 ≤ s.M q) ∧ (laterales.map s.M).sum ≤ 1) ∧
      ∀ p ∈ s.publiees, Discipline p.2 p.1 := by
  have hstep : ∀ (trace : List Evenement) s ev s', Reglee s → Petri.etape s ev = some s' → Reglee s' :=
    fun _ _ _ _ h hs => h.etape hs
  have hreglee : Reglee s := Reactive.Run.invariant reglee_initial hstep h
  obtain ⟨v, hv, hconf⟩ := hreglee.conforme
  have hplace : ∃ q ∈ principales, v.place = some q := places_permises v hv
  refine ⟨⟨hconf.principales.nonneg, ?_⟩, ⟨hconf.laterales.nonneg, ?_⟩, hconf.publiees⟩
  · rw [hconf.principales.sum (by decide), if_pos hplace]
  · rw [hconf.laterales.sum (by decide)]
    split_ifs <;> decide

/-- The first commands: the products appear, the first shuttle comes, and a task starts. -/
theorem commandes_disciplinees_debut : ∃ s,
    Reactive.Run (fun s ev s' => Petri.etape s ev = some s') .initial
      [.play true, .iterer { Capteurs.initial with PSx := fun _ => true }, .suivant, .suivant] s ∧
    s.publiees.length = 5 ∧ ∀ p ∈ s.publiees, Discipline p.2 p.1 := by
  have hrun : Reactive.Run (fun s ev s' => Petri.etape s ev = some s') .initial
      [.play true, .iterer { Capteurs.initial with PSx := fun _ => true }, .suivant, .suivant] _ :=
    (((Reactive.Run.nil.snoc rfl).snoc rfl).snoc rfl).snoc rfl
  exact ⟨_, hrun, rfl, (commandes_disciplinees hrun).2.2⟩

end Commande
