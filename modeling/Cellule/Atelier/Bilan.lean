import Cellule.Atelier.Taches
import Cellule.Shuttles.Conservation

/-! # The balance of the products

A product that enters the cell is on a table, on a shuttle or in a gripper, has left through an
evacuation, or was overwritten and reported. One way out is not reported: a product placed at a
position of the track where the shuttle manager finds no shuttle.
-/

namespace Atelier

open Reactive Reactive.Prog Robots Robots.Robot
open Vue (table)

variable {τ : Type}

/-! ## Counting products -/

/-- A stack carries a product when its base cube is visible. -/
def porte (p : Pile) : ℕ := if p.base ≠ 0 then 1 else 0

/-- The tables of the posts and the six shuttles. -/
def lieux : Finset String :=
  (["Table#0", "Table#1", "Table#3", "Table#4", "Table#6", "Table#7", "Table#9", "Table#10"] ++
    (List.range 6).map fun i : ℕ => nomNavette i).toFinset

/-- The products on the tables, on the shuttles and in the grippers. -/
def presents (v : Vue τ) : ℕ := ∑ nom ∈ lieux, porte (v.pile nom) + ∑ r, porte (v.pince r)

/-- The evacuated stacks that were not empty. -/
def sorties (v : Vue τ) : ℕ := v.evacues.countP fun l => l.any fun c => c != 0

/-- The products that are present, evacuated, or overwritten and reported. -/
def solde (v : Vue τ) : ℕ := presents v + sorties v + v.ecrasements

/-- The products added by a run. -/
def ajouts (trace : Trace τ) : ℕ :=
  trace.countP fun x =>
    match x.1 with
    | .ajouterProduit _ _ => true
    | _ => false

/-- A stack without a base is empty. -/
def Assise (p : Pile) : Prop := p.base = 0 → p = Pile.vide

/-- Every stack of the cell is empty or has a base. -/
structure Assises (v : Vue τ) : Prop where
  pile : ∀ nom, Assise (v.pile nom)
  pince : ∀ r, Assise (v.pince r)

theorem assise_vide : Assise Pile.vide := fun _ => rfl

theorem porte_vide : porte Pile.vide = 0 := rfl

theorem Assise.porte_eq {p : Pile} (h : Assise p) : porte p = if p ≠ Pile.vide then 1 else 0 := by
  rw [porte]
  by_cases hb : p.base = 0
  · rw [if_neg (by simp [hb]), if_neg (by simp [h hb])]
  · rw [if_pos hb, if_pos fun hv => hb (by rw [hv]; rfl)]

theorem assise_avecCube {p : Pile} {k : ℕ} (hk : k < nbCube) (h0 : 0 < k) (hkp : k ≤ p.hauteur)
    (c : ℤ) : Assise (p.avecCube k c) := by
  intro h
  rw [p.base_avecCube hk h0, ← p.hauteur_eq_zero] at h
  omega

/-- Changing one stack of a sum. -/
theorem sum_update {α : Type} [DecidableEq α] (g : Pile → ℕ) (s : Finset α) (f : α → Pile) {i : α}
    (hi : i ∈ s) (p : Pile) :
    ∑ x ∈ s, g (Function.update f i p x) + g (f i) = ∑ x ∈ s, g (f x) + g p := by
  have h₁ := Finset.add_sum_erase s (fun x => g (Function.update f i p x)) hi
  have h₂ := Finset.add_sum_erase s (fun x => g (f x)) hi
  have h₃ : ∑ x ∈ s.erase i, g (Function.update f i p x) = ∑ x ∈ s.erase i, g (f x) :=
    Finset.sum_congr rfl fun x hx => by rw [Function.update_of_ne (Finset.ne_of_mem_erase hx)]
  simp only [Function.update_self] at h₁
  omega

/-- What the stacks at some places and in the grippers weigh. -/
def poids (g : Pile → ℕ) (S : Finset String) (v : Vue τ) : ℕ :=
  ∑ nom ∈ S, g (v.pile nom) + ∑ r, g (v.pince r)

/-- Painting a place. -/
theorem poids_peindre (g : Pile → ℕ) {S : Finset String} (v : Vue τ) {nom : String} (hnom : nom ∈ S)
    (p : Pile) : poids g S (v.peindre nom p) + g (v.pile nom) = poids g S v + g p := by
  have h := sum_update g S v.pile hnom p
  simp only [poids, Vue.peindre]
  omega

/-- Changing what a gripper holds. -/
theorem poids_tenir (g : Pile → ℕ) (S : Finset String) (v : Vue τ) (r : Fin 4) (p : Pile) :
    poids g S (v.tenir r p) + g (v.pince r) = poids g S v + g p := by
  have h := sum_update g Finset.univ v.pince (Finset.mem_univ r) p
  simp only [poids, Vue.tenir]
  omega

/-- The place an action paints is one of the cell. -/
def ActionSituee : Action τ → Prop
  | .prise _ nom | .pose _ nom | .ajout nom _ => nom ∈ lieux
  | _ => True

/-- The place that an action paints is one of those. -/
def ActionDans (S : Finset String) : Action τ → Prop
  | .prise _ nom | .pose _ nom | .ajout nom _ => nom ∈ S
  | _ => True

theorem ActionSituee.dans {a : Action τ} (h : ActionSituee a) : ActionDans lieux a := by
  cases a <;> exact h

theorem table_mem_lieux (r : Fin 4) {position : ℤ} (hpos : position = 1 ∨ position = 4) :
    (table r position).1 ∈ lieux := by
  have key : ∀ r : Fin 4, ∀ position ∈ ([1, 4] : List ℤ), (table r position).1 ∈ lieux := by decide
  exact key r position (by simpa using hpos)

theorem nomNavette_mem_lieux {n : ℤ} (h : 0 ≤ n ∧ n ≤ 5) : nomNavette n ∈ lieux := by
  have key : ∀ n ∈ ([0, 1, 2, 3, 4, 5] : List ℤ), nomNavette n ∈ lieux := by decide
  exact key n (by simp; omega)

/-! ## One action -/

/-- What an action adds to the cell. -/
def gain : Action τ → ℕ
  | .ajout _ _ => 1
  | _ => 0

/-- What an action makes disappear unreported. -/
def perte (v : Vue τ) : Action τ → ℕ
  | .chute r => porte (v.pince r)
  | _ => 0

/-- A task starts on a product and ends on a cube above it. -/
def ActionAssise (v : Vue τ) : Action τ → Prop
  | .debut r position _ _ => (position = 1 ∨ position = 4) ∧
      0 < hauteurPoste v r position ∧ hauteurPoste v r position < nbCube
  | .fin r position => (position = 1 ∨ position = 4) ∧ 2 ≤ hauteurPoste v r position
  | _ => True

/-- The stack that an action takes away. -/
def emportee (v : Vue τ) : Action τ → Pile
  | .pose _ nom | .ajout nom _ => v.pile nom
  | .chute r => v.pince r
  | .evacuation => v.pile (tableDe 2 1).1
  | _ => Pile.vide

/-- The stack that an action brings. -/
def apportee : Action τ → Pile
  | .ajout _ produit => Pile.ofList (CommandeLocale.pileProduit produit)
  | _ => Pile.vide

/-- A weight that the base cube alone decides. -/
structure DeLaBase (g : Pile → ℕ) : Prop where
  vide : g Pile.vide = 0
  base : ∀ {p q : Pile}, p.base = q.base → g p = g q

/-- A cube above the base weighs nothing. -/
theorem DeLaBase.avecCube {g : Pile → ℕ} (hg : DeLaBase g) (p : Pile) {k : ℕ} (hk : k < nbCube)
    (h0 : 0 < k) (c : ℤ) : g (p.avecCube k c) = g p :=
  hg.base (p.base_avecCube hk h0 c)

/-- **One action moves a stack at most**: the others weigh what they weighed. -/
theorem poids_apres {g : Pile → ℕ} (hg : DeLaBase g) {S : Finset String} (hS : lieux ⊆ S) {v : Vue τ}
    {a : Action τ} (hs : ActionDans S a) (ha : ActionAssise v a) :
    poids g S (v.apres a) + g (emportee v a) = poids g S v + g (apportee a) := by
  have hvide := hg.vide
  cases a with
  | debut r position temps duree =>
    obtain ⟨hpos, h0, h6⟩ := ha
    rw [hauteurPoste] at h0 h6
    have h := poids_peindre g v (hS (table_mem_lieux r hpos))
      ((v.pile (table r position).1).avecCube (v.pile (table r position).1).hauteur
        ((table r position).2 * 10 + 2))
    rw [hg.avecCube _ h6 h0] at h
    simp only [poids, emportee, apportee, Vue.apres, Vue.setPoste, Vue.peindre] at h ⊢
    omega
  | fin r position =>
    obtain ⟨hpos, h2⟩ := ha
    have hle := (v.pile (table r position).1).hauteur_le
    have h := poids_peindre g v (hS (table_mem_lieux r hpos))
      ((v.pile (table r position).1).avecCube ((v.pile (table r position).1).hauteur - 1)
        ((table r position).2 * 10 + 3))
    rw [hauteurPoste] at h2
    rw [hg.avecCube _ (by omega) (by omega)] at h
    simp only [poids, emportee, apportee, Vue.apres, Vue.setPoste, Vue.peindre] at h ⊢
    omega
  | arret r position => rfl
  | prise r nom =>
    -- the place takes what the gripper held, and the gripper what the place carried
    have h₁ := poids_peindre g v hs (v.pince r)
    have h₂ := poids_tenir g S (v.peindre nom (v.pince r)) r (v.pile nom)
    simp only [poids, emportee, apportee, Vue.apres, Vue.peindre, Vue.tenir] at h₁ h₂ ⊢
    omega
  | pose r nom =>
    have h₁ := poids_peindre g v hs (v.pince r)
    have h₂ := poids_tenir g S (v.peindre nom (v.pince r)) r Pile.vide
    simp only [poids, emportee, apportee, Vue.apres, Vue.peindre, Vue.tenir, Vue.ecraser] at h₁ h₂ ⊢
    omega
  | chute r => exact poids_tenir g S v r Pile.vide
  | ajout nom produit => exact poids_peindre g v hs _
  | evacuation => exact poids_peindre g v (hS (by decide)) Pile.vide

theorem deLaBase_porte : DeLaBase porte where
  vide := porte_vide
  base h := by rw [porte, porte, h]

/-- A stack that is taken away is dropped unreported, evacuated or reported. -/
theorem sorties_apres {v : Vue τ} (hv : Assises v) (a : Action τ) :
    sorties (v.apres a) + (v.apres a).ecrasements + perte v a =
      sorties v + v.ecrasements + porte (emportee v a) := by
  cases a with
  | pose r nom =>
    have h := (hv.pile nom).porte_eq
    simp only [emportee, perte, Vue.apres, sorties, Vue.peindre, Vue.tenir, Vue.ecraser] at h ⊢
    omega
  | ajout nom produit =>
    have h : porte (v.pile nom) = if (v.pile nom).base ≠ 0 then 1 else 0 := rfl
    simp only [emportee, perte, Vue.apres, sorties, Vue.peindre, Vue.ecraser] at h ⊢
    omega
  | evacuation =>
    have h := (hv.pile (tableDe 2 1).1).porte_eq
    have hnonVide : (v.pile (tableDe 2 1).1).toList.any (fun c => c != 0)
        = decide (v.pile (tableDe 2 1).1 ≠ Pile.vide) := by
      rw [Bool.eq_iff_iff]
      simp [Pile.eq_vide_iff]
    simp only [emportee, perte, Vue.apres, sorties, Vue.peindre, List.countP_append,
      List.countP_singleton, hnonVide, decide_eq_true_eq] at h ⊢
    omega
  | _ => rfl

theorem porte_apportee (a : Action τ) : porte (apportee a) = gain a := by
  cases a with
  | ajout nom produit =>
    rw [apportee, porte, CommandeLocale.base_pileProduit, if_pos (by omega), gain]
  | _ => rfl

/-- **The balance of one action.** -/
theorem solde_apres {v : Vue τ} (hv : Assises v) {a : Action τ} (hs : ActionSituee a)
    (ha : ActionAssise v a) : solde (v.apres a) + perte v a = solde v + gain a := by
  have hpoids : presents (v.apres a) + porte (emportee v a) = presents v + porte (apportee a) :=
    poids_apres deLaBase_porte (Finset.Subset.refl _) hs.dans ha
  have hsorties := sorties_apres hv a
  rw [porte_apportee] at hpoids
  rw [solde, solde]
  omega

/-- Every action keeps the stacks empty or on a base. -/
theorem Assises.apres {v : Vue τ} (hv : Assises v) {a : Action τ} (ha : ActionAssise v a) :
    Assises (v.apres a) := by
  have hpeindre : ∀ (v : Vue τ) nom p, Assises v → Assise p → Assises (v.peindre nom p) := by
    intro v nom p hv hp
    refine ⟨fun nom' => ?_, hv.pince⟩
    by_cases h : nom' = nom
    · simpa [Vue.peindre, h] using hp
    · simpa [Vue.peindre, h] using hv.pile nom'
  have htenir : ∀ (v : Vue τ) r p, Assises v → Assise p → Assises (v.tenir r p) := by
    intro v r p hv hp
    refine ⟨hv.pile, fun r' => ?_⟩
    by_cases h : r' = r
    · simpa [Vue.tenir, h] using hp
    · simpa [Vue.tenir, h] using hv.pince r'
  cases a with
  | debut r position temps duree =>
    obtain ⟨-, h0, h6⟩ := ha
    rw [hauteurPoste] at h0 h6
    have h := hpeindre v (table r position).1 _ hv
      (assise_avecCube h6 h0 (le_refl _) ((table r position).2 * 10 + 2))
    exact ⟨h.pile, h.pince⟩
  | fin r position =>
    obtain ⟨-, h2⟩ := ha
    rw [hauteurPoste] at h2
    have hle := (v.pile (table r position).1).hauteur_le
    have hlt : (v.pile (table r position).1).hauteur - 1 < nbCube := by omega
    have hassise := assise_avecCube hlt (by omega) (Nat.sub_le _ 1) ((table r position).2 * 10 + 3)
    have h := hpeindre v (table r position).1 _ hv hassise
    exact ⟨h.pile, h.pince⟩
  | arret r position => exact ⟨hv.pile, hv.pince⟩
  | prise r nom => exact htenir _ r _ (hpeindre v nom _ hv (hv.pince r)) (hv.pile nom)
  | pose r nom =>
    have h := htenir _ r _ (hpeindre v nom _ hv (hv.pince r)) assise_vide
    exact ⟨h.pile, h.pince⟩
  | chute r => exact htenir v r _ hv assise_vide
  | ajout nom produit =>
    have hassise : Assise (Pile.ofList (CommandeLocale.pileProduit produit)) := by
      intro h
      rw [CommandeLocale.base_pileProduit] at h
      omega
    have h := hpeindre v nom _ hv hassise
    exact ⟨h.pile, h.pince⟩
  | evacuation =>
    have h := hpeindre v (tableDe 2 1).1 _ hv assise_vide
    exact ⟨h.pile, h.pince⟩

/-! ## The actions of an order -/

/-- Every action of a list paints a place of the cell and keeps its base, when its turn comes. -/
def ActionsJustes (v : Vue τ) : List (Action τ) → Prop
  | [] => True
  | a :: as => ActionSituee a ∧ ActionAssise v a ∧ ActionsJustes (v.apres a) as

/-- What a list of actions makes disappear. -/
def pertes (v : Vue τ) : List (Action τ) → ℕ
  | [] => 0
  | a :: as => perte v a + pertes (v.apres a) as

theorem ActionsJustes.append {v : Vue τ} {as bs : List (Action τ)} (ha : ActionsJustes v as)
    (hb : ActionsJustes (as.foldl Vue.apres v) bs) : ActionsJustes v (as ++ bs) := by
  induction as generalizing v with
  | nil => exact hb
  | cons a as ih => exact ⟨ha.1, ha.2.1, ih ha.2.2 hb⟩

theorem pertes_append (v : Vue τ) (as bs : List (Action τ)) :
    pertes v (as ++ bs) = pertes v as + pertes (as.foldl Vue.apres v) bs := by
  induction as generalizing v with
  | nil => simp [pertes]
  | cons a as ih => simp [pertes, ih, Nat.add_assoc]

/-- The balance of a list of actions. -/
theorem solde_foldl {v : Vue τ} (hv : Assises v) {as : List (Action τ)} (ha : ActionsJustes v as) :
    Assises (as.foldl Vue.apres v) ∧
      solde (as.foldl Vue.apres v) + pertes v as = solde v + (as.map gain).sum := by
  induction as generalizing v with
  | nil => exact ⟨hv, by simp [pertes]⟩
  | cons a as ih =>
    have h := solde_apres hv ha.1 ha.2.1
    obtain ⟨hv', hs⟩ := ih (hv.apres ha.2.1) ha.2.2
    refine ⟨hv', ?_⟩
    simp only [List.foldl_cons, pertes, List.map_cons, List.sum_cons]
    omega

/-- No shuttle is found at a position of the track. -/
def NavetteAbsente (position : ℤ) (navettes : List ℤ) : Prop :=
  (position = 2 ∨ position = 3) ∧ navettes.headD 66 = 66

instance (position : ℤ) (navettes : List ℤ) : Decidable (NavetteAbsente position navettes) := by
  unfold NavetteAbsente
  infer_instance

/-- The place that `Colorer` touches. -/
def lieuTouche (r : Fin 4) (position : ℤ) (navettes : List ℤ) : String :=
  if position = 2 ∨ position = 3 then nomNavette (navettes.headD 66) else (table r position).1

/-- The stack that a move picks. -/
def pilePrise (v : Vue τ) (r : Fin 4) (position : ℤ) (navettes : List ℤ) : Pile :=
  if NavetteAbsente position navettes then Pile.vide else v.pile (lieuTouche r position navettes)

/-- The shuttle manager answers with a loaded shuttle, or with `66`. -/
def NavettesConnues (navettes : List ℤ) : Prop := ∀ n ∈ navettes, n = 66 ∨ (0 ≤ n ∧ n ≤ 5)

/-- The answers of the service are such. -/
theorem navettesConnues_shuttleAtPoste {navettes : List ℤ}
    (h : ∀ id ∈ navettes, ∃ nbNavette images s num robot position,
      Shuttles.executer nbNavette images = .ok s ∧
        Shuttles.shuttleAtPoste s num robot position = .ok id) :
    NavettesConnues navettes := by
  intro id hid
  obtain ⟨nbNavette, images, s, num, robot, position, hs, hid⟩ := h id hid
  exact Shuttles.shuttleAtPoste_range hs hid

/-- The three shapes of `Colorer`. -/
theorem actionsColorer_cases (r : Fin 4) (position type : ℤ) (navettes : List ℤ) :
    (NavetteAbsente position navettes ∧
      (actionsColorer r position type (navettes.headD 66) : List (Action τ)) = [.chute r]) ∨
    (¬NavetteAbsente position navettes ∧ ∃ avant : List (Action τ),
      (avant = [] ∨ avant = [.arret r position]) ∧
      actionsColorer r position type (navettes.headD 66)
        = avant ++ [geste r type (lieuTouche r position navettes)]) := by
  rw [actionsColorer, lieuTouche, NavetteAbsente]
  by_cases h23 : position = 2 ∨ position = 3
  · rw [if_pos h23, if_pos h23]
    by_cases h66 : navettes.headD 66 = 66
    · exact Or.inl ⟨⟨h23, h66⟩, if_pos h66⟩
    · exact Or.inr ⟨fun h => h66 h.2, [], Or.inl rfl, if_neg h66⟩
  · rw [if_neg h23, if_neg h23]
    exact Or.inr ⟨fun h => h23 h.1, [.arret r position], Or.inr rfl, rfl⟩

/-- A touched place is one of the cell. -/
theorem lieuTouche_mem {r : Fin 4} {position : ℤ} {navettes : List ℤ}
    (hpos : position ∈ [1, 2, 3, 4]) (hnav : NavettesConnues navettes)
    (hpres : ¬NavetteAbsente position navettes) : lieuTouche r position navettes ∈ lieux := by
  rw [lieuTouche]
  split_ifs with h23
  · have h66 : navettes.headD 66 ≠ 66 := fun h => hpres ⟨h23, h⟩
    cases navettes with
    | nil => exact absurd rfl h66
    | cons n ns => exact nomNavette_mem_lieux ((hnav n (by simp)).resolve_left h66)
  · exact table_mem_lieux r (by simp at hpos; omega)

/-- What `Colorer` does to the counts. -/
theorem actionsColorer_justes (v : Vue τ) (r : Fin 4) {position type : ℤ} {navettes : List ℤ}
    (hpos : position ∈ [1, 2, 3, 4]) (hnav : NavettesConnues navettes) :
    ActionsJustes v (actionsColorer r position type (navettes.headD 66)) := by
  rcases @actionsColorer_cases τ r position type navettes with
    ⟨-, h⟩ | ⟨hpres, avant, havant, h⟩
  · rw [h]
    exact ⟨trivial, trivial, trivial⟩
  · have hmem := lieuTouche_mem (r := r) hpos hnav hpres
    have hg : ∀ v : Vue τ, ActionsJustes v [geste r type (lieuTouche r position navettes)] := by
      intro v
      rw [geste]
      split
      · exact ⟨hmem, trivial, trivial⟩
      · exact ⟨hmem, trivial, trivial⟩
    rw [h]
    rcases havant with rfl | rfl
    · exact hg v
    · exact ⟨trivial, trivial, hg _⟩

/-- What `Colorer` makes disappear: the stack in the gripper, when no shuttle is found. -/
theorem pertes_actionsColorer (v : Vue τ) (r : Fin 4) (position type : ℤ) (navettes : List ℤ) :
    pertes v (actionsColorer r position type (navettes.headD 66))
      = if NavetteAbsente position navettes then porte (v.pince r) else 0 := by
  rcases @actionsColorer_cases τ r position type navettes with
    ⟨habs, h⟩ | ⟨hpres, avant, havant, h⟩
  · rw [h, if_pos habs]
    rfl
  · rw [h, if_neg hpres]
    rcases havant with rfl | rfl <;>
    · rw [geste]
      split <;> rfl

/-- What the gripper holds after a pick. -/
theorem pince_prise (v : Vue τ) (r : Fin 4) (position : ℤ) (navettes : List ℤ) :
    ((actionsColorer r position 0 (navettes.headD 66)).foldl Vue.apres v).pince r
      = pilePrise v r position navettes := by
  rw [pilePrise]
  rcases @actionsColorer_cases τ r position 0 navettes with
    ⟨habs, h⟩ | ⟨hpres, avant, havant, h⟩
  · rw [h, if_pos habs]
    simp [Vue.apres, Vue.tenir]
  · rw [h, if_neg hpres]
    rcases havant with rfl | rfl <;> simp [geste, Vue.apres, Vue.tenir, Vue.setPoste, Vue.peindre]

/-- A placement empties the gripper and leaves the others. -/
theorem pince_pose (v : Vue τ) (r r' : Fin 4) (position : ℤ) (navettes : List ℤ) :
    ((actionsColorer r position 1 (navettes.headD 66)).foldl Vue.apres v).pince r'
      = if r' = r then Pile.vide else v.pince r' := by
  rcases @actionsColorer_cases τ r position 1 navettes with
    ⟨-, h⟩ | ⟨-, avant, havant, h⟩
  · rw [h]
    by_cases hr : r' = r <;> simp [Vue.apres, Vue.tenir, hr]
  · rw [h]
    rcases havant with rfl | rfl <;> by_cases hr : r' = r <;>
      simp [geste, Vue.apres, Vue.tenir, Vue.setPoste, Vue.peindre, Vue.ecraser, hr]

/-- A pick leaves the other grippers. -/
theorem pince_prise_autre (v : Vue τ) {r r' : Fin 4} (hr : r' ≠ r) (position : ℤ)
    (navettes : List ℤ) :
    ((actionsColorer r position 0 (navettes.headD 66)).foldl Vue.apres v).pince r' = v.pince r' := by
  rcases @actionsColorer_cases τ r position 0 navettes with
    ⟨-, h⟩ | ⟨-, avant, havant, h⟩
  · rw [h]
    simp [Vue.apres, Vue.tenir, hr]
  · rw [h]
    rcases havant with rfl | rfl <;>
      simp [geste, Vue.apres, Vue.tenir, Vue.setPoste, Vue.peindre, hr]

variable [Horloge τ]

/-- Between two orders no gripper holds anything. -/
def PincesVides (v : Vue τ) : Prop := ∀ r, v.pince r = Pile.vide

omit [Horloge τ] in
/-- A move loses nothing: a shuttle is found where it places, or it has picked nothing. -/
def SansPerte (v : Vue τ) : Ordre τ → Prop
  | .deplacerPiece r msg _ navettes =>
      numero r = msg.numRobot →
        NavetteAbsente msg.positionB (navettesApres msg.positionA navettes) →
          (pilePrise v r msg.positionA navettes).base = 0
  | _ => True

omit [Horloge τ] in
/-- The answers of the shuttle manager during an order name shuttles of the cell. -/
def NavettesDe : Ordre τ → Prop
  | .deplacerPiece _ _ _ navettes => NavettesConnues navettes
  | _ => True

omit [Horloge τ] in
theorem NavettesConnues.apres {navettes : List ℤ} (h : NavettesConnues navettes) (position : ℤ) :
    NavettesConnues (navettesApres position navettes) := by
  rw [navettesApres]
  split
  · exact fun n hn => h n (List.mem_of_mem_tail hn)
  · exact h

/-- A tick finds its tasks above the base. -/
private theorem hauteur_finTache {trace : Trace τ} {c : Cellule τ} (hs : Suivi trace c) {r : Fin 4}
    {position : ℤ} (hpos : position = 1 ∨ position = 4) {temps : τ}
    (h : ((vue c).poste r position).finTache temps = true) : 2 ≤ hauteurPoste (vue c) r position := by
  obtain ⟨k, -, h1, -, hh, -⟩ := hs.visibles r position hpos (Poste.taskEnCours_of_finTache h)
  rw [hauteurPoste]
  omega

/-- The actions of an order keep the bases, as long as nothing is evacuated during a task. -/
theorem actions_justes {trace : Trace τ} {c : Cellule τ} (hs : Suivi trace c) {o : Ordre τ}
    (ho : o.Valide) (hnav : NavettesDe o) : ActionsJustes (vue c) (actions o (vue c)) := by
  cases o with
  | faireTache r msg temps =>
    rw [actions]
    split_ifs with hd
    · have hle := ((vue c).pile (table r msg.position).1).hauteur_le
      exact ⟨trivial, ⟨hd.2.1, Nat.pos_of_ne_zero hd.2.2.1, lt_of_le_of_ne hle hd.2.2.2⟩, trivial⟩
    · trivial
  | update r temps =>
    rw [actions]
    refine ActionsJustes.append ?_ ?_
    · split_ifs with h
      · exact ⟨trivial, ⟨Or.inl rfl, hauteur_finTache hs (Or.inl rfl) h⟩, trivial⟩
      · trivial
    -- the end of the task at position 1 does not change the stack at position 4
    · have hne : (table r 4).1 ≠ (table r 1).1 := fun h =>
        absurd (table_injective (Or.inr rfl) (Or.inl rfl) h).2 (by decide)
      have hh : hauteurPoste ((if ((vue c).poste r 1).finTache temps then [.fin r 1]
          else []).foldl Vue.apres (vue c)) r 4 = hauteurPoste (vue c) r 4 := by
        split_ifs
        · simp [hauteurPoste, Vue.apres, Vue.setPoste, Vue.peindre, hne]
        · rfl
      split_ifs at hh ⊢ with h1 h4 h4
      · exact ⟨trivial, ⟨Or.inr rfl, by rw [hh]; exact hauteur_finTache hs (Or.inr rfl) h4⟩, trivial⟩
      · trivial
      · exact ⟨trivial, ⟨Or.inr rfl, hauteur_finTache hs (Or.inr rfl) h4⟩, trivial⟩
      · trivial
  | evacuer r =>
    rw [actions]
    split_ifs
    · exact ⟨trivial, trivial, trivial⟩
    · trivial
  | ajouterProduit produit poste =>
    obtain ⟨r, position, hpos, hcible, hr, hnom⟩ := poste_valide ho
    simp only [actions, hcible, hr, hnom]
    have hmem := table_mem_lieux r hpos
    split_ifs
    · exact ⟨trivial, trivial, hmem, trivial, trivial⟩
    · exact ⟨hmem, trivial, trivial⟩
  | stopTache r position =>
    rw [actions]
    split_ifs
    · exact ⟨trivial, trivial, trivial⟩
    · trivial
  | deplacerPiece r msg temps navettes =>
    rw [actions]
    split_ifs
    · exact (actionsColorer_justes _ r ho.1 hnav).append
        (actionsColorer_justes _ r ho.2 (hnav.apres _))
    · trivial

/-- **What an order makes disappear unreported**: nothing, unless a move places a product at a
position of the track where no shuttle is found. -/
theorem pertes_actions {v : Vue τ} (hp : PincesVides v) {o : Ordre τ} (ho : o.Valide) :
    pertes v (actions o v) = 0 ↔ SansPerte v o := by
  cases o with
  | faireTache r msg temps =>
    rw [actions]
    split_ifs <;> simp [pertes, perte, SansPerte]
  | update r temps =>
    rw [actions]
    split_ifs <;> simp [pertes, perte, SansPerte]
  | evacuer r =>
    rw [actions]
    split_ifs <;> simp [pertes, perte, SansPerte]
  | ajouterProduit produit poste =>
    obtain ⟨r, position, hpos, hcible, hr, hnom⟩ := poste_valide ho
    simp only [actions, hcible, hr, hnom]
    split_ifs <;> simp [pertes, perte, SansPerte]
  | stopTache r position =>
    rw [actions]
    split_ifs <;> simp [pertes, perte, SansPerte]
  | deplacerPiece r msg temps navettes =>
    rw [actions, SansPerte]
    split_ifs with hmsg
    · rw [pertes_append, pertes_actionsColorer, pertes_actionsColorer, pince_prise, hp r, porte_vide]
      simp [hmsg, porte]
    · simp [pertes, hmsg]

/-- Only an addition brings a product. -/
theorem gains_actions (v : Vue τ) {o : Ordre τ} (ho : o.Valide) (res : Resultat) :
    ((actions o v).map gain).sum = ajouts [(o, res)] := by
  -- a pick or a placement exchanges what is there
  have hcolorer : ∀ r (position type : ℤ) (navettes : List ℤ), type = 0 ∨ type = 1 →
      ((actionsColorer r position type (navettes.headD 66) : List (Action τ)).map gain).sum = 0 := by
    intro r position type navettes htype
    rcases @actionsColorer_cases τ r position type navettes with
      ⟨-, h⟩ | ⟨-, avant, havant, h⟩
    · rw [h]
      rfl
    · rw [h]
      rcases htype with rfl | rfl <;> rcases havant with rfl | rfl <;> simp [geste, gain]
  cases o with
  | faireTache r msg temps =>
    rw [actions]
    split_ifs <;> rfl
  | update r temps =>
    rw [actions]
    split_ifs <;> rfl
  | evacuer r =>
    rw [actions]
    split_ifs <;> rfl
  | ajouterProduit produit poste =>
    obtain ⟨r, position, hpos, hcible, hr, hnom⟩ := poste_valide ho
    simp only [actions, hcible, hr, hnom]
    split_ifs <;> rfl
  | stopTache r position =>
    rw [actions]
    split_ifs <;> rfl
  | deplacerPiece r msg temps navettes =>
    rw [actions]
    split_ifs
    · rw [List.map_append, List.sum_append, hcolorer _ _ _ _ (Or.inl rfl),
        hcolorer _ _ _ _ (Or.inr rfl)]
      rfl
    · rfl

/-- Every order leaves the grippers empty. -/
theorem PincesVides.actions {v : Vue τ} (hp : PincesVides v) {o : Ordre τ} (ho : o.Valide) :
    PincesVides ((Atelier.actions o v).foldl Vue.apres v) := by
  cases o with
  | faireTache r msg temps =>
    rw [Atelier.actions]
    split_ifs <;> exact hp
  | update r temps =>
    rw [Atelier.actions]
    split_ifs <;> exact hp
  | evacuer r =>
    rw [Atelier.actions]
    split_ifs <;> exact hp
  | ajouterProduit produit poste =>
    obtain ⟨r, position, hpos, hcible, hr, hnom⟩ := poste_valide ho
    simp only [Atelier.actions, hcible, hr, hnom]
    split_ifs <;> exact hp
  | stopTache r position =>
    rw [Atelier.actions]
    split_ifs <;> exact hp
  | deplacerPiece r msg temps navettes =>
    rw [Atelier.actions]
    split_ifs
    · intro r'
      rw [List.foldl_append, pince_pose]
      split_ifs with hr
      · rfl
      · rw [pince_prise_autre v hr]
        exact hp r'
    · exact hp

/-! ## Runs -/

/-- The runs of the balance: nothing is evacuated during a task of post 3, and the shuttles named
are those of the cell. -/
def DomaineBilan (c : Cellule τ) (o : Ordre τ) : Prop := EvacuerHorsTache c o ∧ NavettesDe o

/-- The runs of the balance in which no move loses a product. -/
def DomaineSansPerte (c : Cellule τ) (o : Ordre τ) : Prop := DomaineBilan c o ∧ SansPerte (vue c) o

/-- What every run of the balance keeps. -/
structure Equilibre (c₀ : Cellule τ) (trace : Trace τ) (c : Cellule τ) : Prop where
  suivi : Suivi trace c
  assises : Assises (vue c)
  pinces : PincesVides (vue c)
  bilan : ∃ perdus, ajouts trace = solde (vue c) + perdus ∧
    (perdus = 0 ↔ Run (Pas DomaineSansPerte) c₀ trace c)

/-- One order keeps the balance, and adds to the lost products exactly when it is not
`SansPerte`. -/
theorem Equilibre.pas {c₀ c c' : Cellule τ} {trace : Trace τ} {x : Ordre τ × Resultat}
    (hrun : Run (Pas DomaineBilan) c₀ trace c) (h : Equilibre c₀ trace c)
    (hx : Pas DomaineBilan c x c') : Equilibre c₀ (trace ++ [x]) c' := by
  obtain ⟨o, res⟩ := x
  obtain ⟨ho, ⟨hevac, hnav⟩, hex⟩ :
    o.Valide ∧ DomaineBilan c o ∧ Cellule.executerOrdre o c = .ok (res, c') := hx
  obtain ⟨-, hvue, -⟩ := executerOrdre_vue h.suivi.equipee ho hex
  obtain ⟨hass, hsolde⟩ := solde_foldl h.assises (actions_justes h.suivi ho hnav)
  have hpinces := h.pinces.actions ho
  rw [gains_actions _ ho res, ← hvue] at hsolde
  rw [← hvue] at hass hpinces
  obtain ⟨perdus, hbilan, hperdus⟩ := h.bilan
  refine ⟨h.suivi.pas ⟨ho, hevac, hex⟩, hass, hpinces,
    perdus + pertes (vue c) (Atelier.actions o (vue c)), ?_, ?_⟩
  · have hsnoc : ajouts (trace ++ [(o, res)]) = ajouts trace + ajouts [(o, res)] :=
      List.countP_append
    omega
  · rw [Nat.add_eq_zero_iff, hperdus, pertes_actions h.pinces ho]
    constructor
    · rintro ⟨hr, hsans⟩
      exact hr.snoc ⟨ho, ⟨⟨hevac, hnav⟩, hsans⟩, hex⟩
    · intro hr
      obtain ⟨c₁, hr₁, hpas⟩ := hr.snoc_inv
      -- The orders determine the states they go through.
      have hc : c₁ = c := hr₁.deterministic (fun s l s₁ s₂ h₁ h₂ => by
        have := h₁.2.2.symm.trans h₂.2.2
        cases this
        rfl) hrun
      subst hc
      exact ⟨hr₁, hpas.2.1.2⟩

/-- An empty cell is balanced. -/
theorem equilibre_initiale (temps : τ) :
    Equilibre (Cellule.initiale (fun _ => Pile.vide) temps) []
      (Cellule.initiale (fun _ => Pile.vide) temps) := by
  refine ⟨suivi_initiale _ temps, ⟨fun _ => assise_vide, fun _ => assise_vide⟩, fun _ => rfl, 0, ?_,
    by simp [Run.nil]⟩
  simp [ajouts, solde, presents, sorties, vue, Cellule.initiale, Robot.init, porte_vide, evacuesDe,
    ecrasementsDe]

/-- **The balance of the products.** From an empty cell, the products added are those present, those
evacuated and those overwritten and reported, exactly when no move of the run has placed a
product where no shuttle was found. -/
theorem produits_conserves_iff {temps₀ : τ} {trace : Trace τ} {c : Cellule τ}
    (h : Run (Pas DomaineBilan) (Cellule.initiale (fun _ => Pile.vide) temps₀) trace c) :
    ajouts trace = presents (vue c) + sorties (vue c) + (vue c).ecrasements ↔
      Run (Pas DomaineSansPerte) (Cellule.initiale (fun _ => Pile.vide) temps₀) trace c := by
  have heq : Equilibre (Cellule.initiale (fun _ => Pile.vide) temps₀) trace c := by
    induction h with
    | nil => exact equilibre_initiale temps₀
    | snoc hrun hx ih => exact ih.pas hrun hx
  obtain ⟨perdus, hbilan, hperdus⟩ := heq.bilan
  rw [← hperdus]
  rw [solde] at hbilan
  omega

/-- A product added on post 1, moved by the robot `r` to a shuttle that is there, then to its first
post. -/
def moveParNavette (r : Fin 4) : List (Ordre ℤ) :=
  [.ajouterProduit 1 1, .deplacerPiece r ⟨numero r, 4, 2⟩ 0 [3],
    .deplacerPiece r ⟨numero r, 2, 1⟩ 9 [3]]

/-- A product added on post 1 and moved by the robot `r` to a position where there is no shuttle. -/
def moveSansNavette (r : Fin 4) : List (Ordre ℤ) :=
  [.ajouterProduit 1 1, .deplacerPiece r ⟨numero r, 4, 2⟩ 0 [66]]

/-- The four counts of the balance after orders executed from an empty cell. -/
def comptes (os : List (Ordre ℤ)) : Except Stop (ℕ × ℕ × ℕ × ℕ) :=
  (derouler celluleVide os).map fun x =>
    (ajouts x.1, presents (vue x.2), sorties (vue x.2), (vue x.2).ecrasements)

/-- The orders of `comptes` as a run. -/
private theorem run_comptes {os : List (Ordre ℤ)} {a p s e : ℕ}
    (hos : ∀ o ∈ os, o.Valide ∧ ∀ c, DomaineBilan c o) (h : comptes os = .ok (a, p, s, e)) :
    ∃ trace c, Run (Pas DomaineBilan) celluleVide trace c ∧ ajouts trace = a ∧
      presents (vue c) = p ∧ sorties (vue c) = s ∧ (vue c).ecrasements = e := by
  rw [comptes] at h
  cases hd : derouler celluleVide os with
  | error e => simp [hd, Except.map] at h
  | ok x =>
    simp only [hd, Except.map, Except.ok.injEq, Prod.mk.injEq] at h
    exact ⟨x.1, x.2, run_derouler hos .nil hd, h⟩

/-- A run that carries its product over the track keeps it. -/
theorem produits_conserves_iff_moveParNavette :
    ∃ trace c, Run (Pas DomaineSansPerte) celluleVide trace c ∧ ajouts trace = 1 ∧
      presents (vue c) = 1 := by
  have hcomptes : comptes (moveParNavette 0) = .ok (1, 1, 0, 0) := by decide +kernel
  obtain ⟨trace, c, hrun, ha, hp, hs, he⟩ := run_comptes (by
    simp [moveParNavette, Ordre.Valide, DomaineBilan, EvacuerHorsTache, NavettesDe,
      NavettesConnues]) hcomptes
  exact ⟨trace, c, (produits_conserves_iff hrun).1 (by rw [ha, hp, hs, he]), ha, hp⟩

/-- **A product placed where no shuttle is found disappears without a report.** -/
theorem produit_perdu :
    ∃ trace c, Run (Pas DomaineBilan) celluleVide trace c ∧
      ajouts trace ≠ presents (vue c) + sorties (vue c) + (vue c).ecrasements := by
  have hcomptes : comptes (moveSansNavette 0) = .ok (1, 0, 0, 0) := by decide +kernel
  obtain ⟨trace, c, hrun, ha, hp, hs, he⟩ := run_comptes (by
    simp [moveSansNavette, Ordre.Valide, DomaineBilan, EvacuerHorsTache, NavettesDe,
      NavettesConnues]) hcomptes
  exact ⟨trace, c, hrun, by rw [ha, hp, hs, he]; decide⟩

end Atelier
