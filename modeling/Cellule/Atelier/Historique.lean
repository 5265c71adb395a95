import Cellule.Atelier.Empilement
import Cellule.Atelier.Recit
import Cellule.Lib.Inventory

/-! # What becomes of each product

The cell knows its products by the colours of six cubes, which the robots read and write again. Here
the products are told apart: a ledger follows each of them from its addition on, with the tasks that
were started on it and those that have ended, and knows where it is. `historiques_fideles` says that
the colours of every place, of every gripper and of every evacuation are those of the product that
the ledger has there.
-/

namespace Atelier

open Reactive Robots Robots.Robot
open Vue (table)

variable {τ : Type}

/-! ## The ledger -/

/-- What keeps a stack: a table or a shuttle, the gripper of a robot, or an evacuation, by its
rank. -/
inductive Lieu
  | place (nom : String)
  | pince (r : Fin 4)
  | sortie (n : ℕ)
  deriving DecidableEq

/-- A product that was added, with the posts of the tasks started on it and whether they have
ended. -/
structure Exemplaire where
  produit : ℤ
  taches : List (ℤ × Bool)
  deriving DecidableEq

namespace Exemplaire

/-- The cube of a task. -/
def cube (t : ℤ × Bool) : ℤ := 10 * t.1 + if t.2 then 3 else 2

/-- The stack that shows the product. -/
def pile (e : Exemplaire) : Pile := Pile.ofList ((10 * e.produit + 4) :: e.taches.map cube)

/-- The colours of the base, of every task, and of the cubes that are left. -/
def histoire (e : Exemplaire) : List ℤ :=
  (10 * e.produit + 4) :: (e.taches.map cube ++ List.replicate (nbCube - 1 - e.taches.length) 0)

/-- A task starts. -/
def commencer (q : ℤ) (e : Exemplaire) : Exemplaire := { e with taches := e.taches ++ [(q, false)] }

/-- The task of a rank ends. -/
def finir (k : ℕ) (e : Exemplaire) : Exemplaire :=
  { e with taches := e.taches.modify k fun t => (t.1, true) }

end Exemplaire

/-- The products, where they are, the task that each table works at, by the rank of its product and
its own rank among the tasks of this product, and the number of evacuations. -/
structure Registre where
  exemplaires : Inventory Lieu Exemplaire
  enCours : String → Option (ℕ × ℕ)
  sorties : ℕ

namespace Registre

/-- The ledger of an empty cell. -/
def vide : Registre := { exemplaires := .empty, enCours := fun _ => none, sorties := 0 }

/-- The stack that a place should show. -/
def pile (g : Registre) (l : Lieu) : Pile := (g.exemplaires.find l).elim Pile.vide Exemplaire.pile

/-- A task starts on the product of a table. -/
def commencer (g : Registre) (t : String × ℤ) : Registre :=
  match g.exemplaires.rank (.place t.1), g.exemplaires.find (.place t.1) with
  | some i, some e =>
      { g with
        exemplaires := g.exemplaires.update i (Exemplaire.commencer t.2)
        enCours := Function.update g.enCours t.1 (some (i, e.taches.length)) }
  | _, _ => g

/-- The task that a table works at ends, wherever its product is. -/
def finir (g : Registre) (t : String × ℤ) : Registre :=
  match g.enCours t.1 with
  | some (i, k) =>
      { g with
        exemplaires := g.exemplaires.update i (Exemplaire.finir k)
        enCours := Function.update g.enCours t.1 none }
  | none => g

/-- What an action does to the products. -/
def apres (g : Registre) : Action τ → Registre
  | .debut r position _ _ => g.commencer (table r position)
  | .fin r position => g.finir (table r position)
  | .arret r position => { g with enCours := Function.update g.enCours (table r position).1 none }
  | .prise r nom =>
    { g with exemplaires := g.exemplaires.relocate (Inventory.exchanging (.place nom) (.pince r)) }
  | .pose r nom =>
    { g with exemplaires := g.exemplaires.relocate (Inventory.moving (.pince r) (.place nom)) }
  | .chute r => { g with exemplaires := g.exemplaires.relocate (Inventory.dropping (.pince r)) }
  | .ajout nom produit => { g with exemplaires := g.exemplaires.arrive (.place nom) ⟨produit, []⟩ }
  | .evacuation =>
      { g with
        exemplaires :=
          g.exemplaires.relocate (Inventory.moving (.place (tableDe 2 1).1) (.sortie g.sorties))
        sorties := g.sorties + 1 }

/-- A table works at the last task of the product that it carries. -/
def TravailleA (g : Registre) (t : String × ℤ) : Prop :=
  ∃ (i : ℕ) (produit : ℤ) (avant : List (ℤ × Bool)), g.enCours t.1 = some (i, avant.length) ∧
    g.exemplaires.items[i]? = some (some (.place t.1), ⟨produit, avant ++ [(t.2, false)]⟩)

end Registre

/-! ## The stacks of the products -/

/-- The posts have numbers from 1 to 8. -/
theorem numero_table (r : Fin 4) {position : ℤ} (hpos : position = 1 ∨ position = 4) :
    1 ≤ (table r position).2 ∧ (table r position).2 ≤ 8 := by
  have key : ∀ r : Fin 4, ∀ position ∈ ([1, 4] : List ℤ),
      1 ≤ (table r position).2 ∧ (table r position).2 ≤ 8 := by decide
  exact key r position (by simpa using hpos)

/-- A product of the catalogue, with no more tasks than a stack shows, at posts that exist. -/
structure Exemplaire.Sain (e : Exemplaire) : Prop where
  produit : 1 ≤ e.produit ∧ e.produit ≤ 6
  nombre : e.taches.length ≤ nbCube - 1
  postes : ∀ t ∈ e.taches, 1 ≤ t.1 ∧ t.1 ≤ 8

namespace Exemplaire

variable {e : Exemplaire}

theorem Sain.empile (h : e.Sain) : ProduitEmpile e.pile e.produit (e.taches.map cube) where
  catalogue := h.produit
  nombre := by rw [List.length_map]; exact h.nombre
  cubesTaches c hc := by
    obtain ⟨t, ht, rfl⟩ := List.mem_map.1 hc
    obtain ⟨h1, h8⟩ := h.postes t ht
    refine ⟨t.1, h1, h8, ?_⟩
    unfold cube
    split_ifs
    · exact .inr rfl
    · exact .inl rfl
  cubes := rfl

/-- The stack of a product shows its whole history. -/
theorem Sain.toList_pile (h : e.Sain) : e.pile.toList = e.histoire := by
  have hnombre := h.nombre
  have hnb : nbCube = 6 := rfl
  rw [pile, Pile.toList_ofList (by simp only [List.length_cons, List.length_map]; omega), histoire,
    List.length_cons, List.length_map, List.cons_append, Nat.add_comm, Nat.sub_add_eq]

theorem Sain.hauteur (h : e.Sain) : e.pile.hauteur = e.taches.length + 1 := by
  rw [h.empile.hauteur_eq, List.length_map]

/-- The cube of a task that starts is put on top. -/
theorem avecCube_commencer (hlt : e.taches.length + 1 < nbCube) (q : ℤ) :
    e.pile.avecCube (e.taches.length + 1) (q * 10 + 2) = (e.commencer q).pile := by
  rw [pile, ofList_avecCube _ hlt (by simp), List.take_of_length_le (by simp), pile, commencer,
    List.map_append, mul_comm q]
  rfl

theorem modify_last {α : Type} (avant : List α) (a : α) (f : α → α) :
    (avant ++ [a]).modify avant.length f = avant ++ [f a] := by
  induction avant with
  | nil => rfl
  | cons b avant ih => rw [List.cons_append, List.length_cons, List.modify_succ_cons, ih, List.cons_append]

/-- The cube of the last task changes when it ends. -/
theorem Sain.avecCube_finir {produit q : ℤ} {avant : List (ℤ × Bool)}
    (h : Sain ⟨produit, avant ++ [(q, false)]⟩) :
    (pile ⟨produit, avant ++ [(q, false)]⟩).avecCube (avant.length + 1) (q * 10 + 3) =
      pile (finir avant.length ⟨produit, avant ++ [(q, false)]⟩) := by
  have hnombre := h.nombre
  have hnb : nbCube = 6 := rfl
  simp only [List.length_append, List.length_cons, List.length_nil] at hnombre
  rw [pile, ofList_avecCube _ (by omega) (by simp), pile, finir, modify_last, List.take_succ_cons,
    List.map_append, List.take_append_of_le_length (by simp), List.take_of_length_le (by simp),
    List.map_append, mul_comm q]
  rfl

theorem Sain.commencer (h : e.Sain) (hlt : e.taches.length + 1 < nbCube) {q : ℤ} (hq : 1 ≤ q ∧ q ≤ 8) :
    (e.commencer q).Sain where
  produit := h.produit
  nombre := by
    simp only [Exemplaire.commencer, List.length_append, List.length_cons, List.length_nil]
    omega
  postes t ht := by
    rcases List.mem_append.1 ht with ht | ht
    · exact h.postes t ht
    · rw [List.mem_singleton.1 ht]
      exact hq

theorem Sain.finir (h : e.Sain) (k : ℕ) : (e.finir k).Sain where
  produit := h.produit
  nombre := by
    rw [Exemplaire.finir, List.length_modify]
    exact h.nombre
  postes t ht := by
    obtain ⟨j, hj⟩ := List.mem_iff_getElem?.1 ht
    rw [Exemplaire.finir, List.getElem?_modify] at hj
    obtain ⟨t', ht', hx⟩ := Option.map_eq_some_iff.1 hj
    have hposte := h.postes t' (List.mem_of_getElem? ht')
    split_ifs at hx <;> (rw [← hx]; exact hposte)

end Exemplaire

/-! ## The places of a view -/

namespace Vue

/-- The stack of a place. -/
def en (v : Vue τ) : Lieu → Pile
  | .place nom => v.pile nom
  | .pince r => v.pince r
  | .sortie n => Pile.ofList (v.evacues.getD n [])

variable (v : Vue τ) (l : Lieu)

@[simp] theorem en_setPoste (r : Fin 4) (position : ℤ) (p : Poste τ) :
    (v.setPoste r position p).en l = v.en l := by
  cases l <;> rfl

@[simp] theorem en_ecraser (oui : Prop) [Decidable oui] : (v.ecraser oui).en l = v.en l := by
  cases l <;> rfl

theorem en_peindre (nom : String) (p : Pile) :
    (v.peindre nom p).en l = if l = .place nom then p else v.en l := by
  cases l with
  | place nom' =>
    show Function.update v.pile nom p nom' = _
    rw [Function.update_apply]
    simp only [Lieu.place.injEq]
    rfl
  | pince | sortie => rfl

theorem en_tenir (r : Fin 4) (p : Pile) : (v.tenir r p).en l = if l = .pince r then p else v.en l := by
  cases l with
  | pince r' =>
    show Function.update v.pince r p r' = _
    rw [Function.update_apply]
    simp only [Lieu.pince.injEq]
    rfl
  | place | sortie => rfl

/-- An evacuation. -/
theorem en_evacuation : (v.apres .evacuation).en l =
    if l = .sortie v.evacues.length then v.en (.place (tableDe 2 1).1)
    else if l = .place (tableDe 2 1).1 then Pile.vide else v.en l := by
  cases l with
  | place nom =>
    have hsortie : Lieu.place nom ≠ .sortie v.evacues.length := fun h => by cases h
    rw [if_neg hsortie]
    exact en_peindre v (.place nom) (tableDe 2 1).1 Pile.vide
  | pince r => rfl
  | sortie n =>
    have hplace : Lieu.sortie n ≠ .place (tableDe 2 1).1 := fun h => by cases h
    have hsortie : Lieu.sortie n = .sortie v.evacues.length ↔ n = v.evacues.length :=
      ⟨Lieu.sortie.inj, congrArg Lieu.sortie⟩
    rw [if_neg hplace]
    simp only [hsortie]
    show Pile.ofList ((v.evacues ++ [(v.pile (tableDe 2 1).1).toList]).getD n []) = _
    rcases lt_trichotomy n v.evacues.length with hn | rfl | hn
    · rw [if_neg hn.ne, List.getD_append _ _ _ _ hn]
      rfl
    · rw [if_pos rfl, List.getD_append_right _ _ _ _ le_rfl, Nat.sub_self]
      exact Pile.ofList_toList _
    · have hlength : (v.evacues ++ [(v.pile (tableDe 2 1).1).toList]).length ≤ n := by
        rw [List.length_append]
        exact hn
      rw [if_neg hn.ne', List.getD_eq_default _ _ hlength, en, List.getD_eq_default _ _ hn.le]

end Vue

/-! ## One action -/

/-- The ledger has the products of a view: every place shows the product that it has there, and
every table whose task is running works at the last task of its product. -/
structure Registre.Fidele (g : Registre) (v : Vue τ) : Prop where
  pile : ∀ l, v.en l = g.pile l
  sorties : v.evacues.length = g.sorties
  entiers : ∀ l ∈ v.evacues, l.length = nbCube
  sains : ∀ x ∈ g.exemplaires.items, x.2.Sain
  enCours : ∀ r position, position = 1 ∨ position = 4 → (v.poste r position).taskEnCours = true →
    g.TravailleA (table r position)

/-- What an action of the cell meets. -/
def ActionReguliere (v : Vue τ) : Action τ → Prop
  | .debut r position _ _ => (position = 1 ∨ position = 4) ∧
      0 < hauteurPoste v r position ∧ hauteurPoste v r position < nbCube
  | .fin r position => (position = 1 ∨ position = 4) ∧ (v.poste r position).taskEnCours = true
  | .arret _ position => position = 1 ∨ position = 4
  | .ajout nom produit => ActionPermise v (.ajout nom produit) ∧ 1 ≤ produit ∧ produit ≤ 6
  | a => ActionPermise v a

namespace Registre.Fidele

variable {g : Registre} {v v' : Vue τ}

/-- The products are moved, from places where no task is running. -/
theorem deplacer {f : Lieu ≃. Lieu} {n : ℕ} (h : g.Fidele v)
    (hen : ∀ l, v'.en l = (f.symm l).elim Pile.vide v.en) (hposte : v'.poste = v.poste)
    (hsorties : v'.evacues.length = n) (hentiers : ∀ l ∈ v'.evacues, l.length = nbCube)
    (hlibre : ∀ r position, position = 1 ∨ position = 4 → (v.poste r position).taskEnCours = true →
      f (.place (table r position).1) = some (.place (table r position).1)) :
    ({ g with exemplaires := g.exemplaires.relocate f, sorties := n } : Registre).Fidele v' where
  pile l := by
    rw [hen, Registre.pile, Inventory.find_relocate]
    cases f.symm l with
    | none => rfl
    | some l' => exact h.pile l'
  sorties := hsorties
  entiers := hentiers
  sains x hx := by
    obtain ⟨y, hy, rfl⟩ := List.mem_map.1 hx
    exact h.sains y hy
  enCours r position hpos ht := by
    rw [hposte] at ht
    obtain ⟨i, produit, avant, hen, hitem⟩ := h.enCours r position hpos ht
    exact ⟨i, produit, avant, hen, Inventory.kept_relocate (hlibre r position hpos ht) hitem⟩

theorem arret (h : g.Fidele v) {r : Fin 4} {position : ℤ} (hpos : position = 1 ∨ position = 4) :
    (g.apres (.arret r position : Action τ)).Fidele (v.apres (.arret r position)) where
  pile l := by
    rw [Vue.apres, Vue.en_setPoste]
    exact h.pile l
  sorties := h.sorties
  entiers := h.entiers
  sains := h.sains
  enCours r' position' hpos' ht := by
    rw [poste_arret v hpos' hpos] at ht
    split_ifs at ht with hici
    · cases ht
    · obtain ⟨i, produit, avant, hen, hitem⟩ := h.enCours r' position' hpos' ht
      refine ⟨i, produit, avant, ?_, hitem⟩
      have hne : (table r' position').1 ≠ (table r position).1 := fun hnom => by
        obtain ⟨rfl, rfl⟩ := table_injective hpos' hpos hnom
        exact hici ⟨rfl, rfl⟩
      show Function.update g.enCours _ none _ = _
      rw [Function.update_of_ne hne, hen]

theorem chute (h : g.Fidele v) (r : Fin 4) :
    (g.apres (.chute r : Action τ)).Fidele (v.apres (.chute r)) := by
  refine h.deplacer (fun l => ?_) rfl h.sorties h.entiers fun r' position' _ _ => ?_
  · rw [Vue.apres, Vue.en_tenir, Inventory.symm_dropping]
    split_ifs <;> rfl
  · exact Inventory.dropping_of_ne fun h => by cases h

/-- A place where no task is running is not the table of a running task. -/
theorem place_ne {nom : String} (hlibre : ∀ r position, position = 1 ∨ position = 4 →
    (table r position).1 = nom → (v.poste r position).taskEnCours = false) {r : Fin 4} {position : ℤ}
    (hpos : position = 1 ∨ position = 4) (ht : (v.poste r position).taskEnCours = true) :
    Lieu.place (table r position).1 ≠ .place nom := by
  intro hnom
  rw [hlibre r position hpos (Lieu.place.inj hnom)] at ht
  cases ht

theorem prise (h : g.Fidele v) {r : Fin 4} {nom : String} (ha : ActionPermise v (.prise r nom)) :
    (g.apres (.prise r nom : Action τ)).Fidele (v.apres (.prise r nom)) := by
  refine h.deplacer (fun l => ?_) rfl h.sorties h.entiers fun r' position' hpos' ht => ?_
  · rw [Vue.apres, Vue.en_tenir, Vue.en_peindre, Inventory.symm_exchanging]
    by_cases hplace : l = .place nom
    · subst hplace
      rw [if_neg (fun h => by cases h), if_pos rfl, if_pos rfl]
      rfl
    · rw [if_neg hplace, if_neg hplace]
      split_ifs <;> rfl
  · exact Inventory.exchanging_of_ne (place_ne ha hpos' ht) fun h => by cases h

theorem pose (h : g.Fidele v) {r : Fin 4} {nom : String} (ha : ActionPermise v (.pose r nom)) :
    (g.apres (.pose r nom : Action τ)).Fidele (v.apres (.pose r nom)) := by
  have hne : Lieu.pince r ≠ .place nom := fun h => by cases h
  refine h.deplacer (fun l => ?_) rfl h.sorties h.entiers fun r' position' hpos' ht => ?_
  · rw [Vue.apres, Vue.en_ecraser, Vue.en_tenir, Vue.en_peindre, Inventory.symm_moving hne]
    by_cases hplace : l = .place nom
    · subst hplace
      rw [if_neg hne.symm, if_pos rfl, if_pos rfl]
      rfl
    · rw [if_neg hplace, if_neg hplace]
      split_ifs <;> rfl
  · exact Inventory.moving_of_ne (fun h => by cases h) (place_ne ha hpos' ht)

theorem evacuation (h : g.Fidele v) (ha : ActionPermise v .evacuation) :
    (g.apres (.evacuation : Action τ)).Fidele (v.apres .evacuation) := by
  have hne : Lieu.place (tableDe 2 1).1 ≠ .sortie g.sorties := fun h => by cases h
  refine h.deplacer (fun l => ?_) rfl ?_ ?_ fun r' position' hpos' ht => ?_
  · rw [Vue.en_evacuation, Inventory.symm_moving hne, h.sorties]
    split_ifs <;> rfl
  · show (v.evacues ++ _).length = _
    rw [List.length_append, h.sorties]
    rfl
  · intro l hl
    rcases List.mem_append.1 hl with hl | hl
    · exact h.entiers l hl
    · rw [List.mem_singleton.1 hl]
      exact Pile.length_toList _
  · refine Inventory.moving_of_ne (place_ne (fun r position hpos hnom => ?_) hpos' ht)
      fun h => by cases h
    -- the table of the evacuation is that of post 3
    have htable : (table r position).1 = (table 1 1).1 := hnom
    obtain ⟨rfl, rfl⟩ := table_injective hpos (.inl rfl) htable
    exact ha

/-- A fresh product has no tasks. -/
theorem ofList_pileProduit (produit : ℤ) :
    Pile.ofList (CommandeLocale.pileProduit produit) = Exemplaire.pile ⟨produit, []⟩ := by
  refine Pile.ext_cube fun i hi => ?_
  rw [Pile.cube_ofList _ hi, Exemplaire.pile, Pile.cube_ofList _ hi, CommandeLocale.pileProduit]
  cases i with
  | zero => exact congrArg (· + 4) (mul_comm produit 10)
  | succ i =>
    rw [List.getD_cons_succ, List.getD_cons_succ, List.getD_replicate _ (by omega)]
    rfl

theorem ajout (h : g.Fidele v) {nom : String} {produit : ℤ} (ha : ActionPermise v (.ajout nom produit))
    (hproduit : 1 ≤ produit ∧ produit ≤ 6) :
    (g.apres (.ajout nom produit : Action τ)).Fidele (v.apres (.ajout nom produit)) where
  pile l := by
    rw [Vue.apres, Vue.en_ecraser, Vue.en_peindre, Registre.pile, Registre.apres, Inventory.find_arrive]
    split_ifs with hl
    · exact ofList_pileProduit produit
    · exact h.pile l
  sorties := h.sorties
  entiers := h.entiers
  sains x hx := by
    rcases List.mem_append.1 hx with hx | hx
    · obtain ⟨y, hy, rfl⟩ := List.mem_map.1 hx
      exact h.sains y hy
    · rw [List.mem_singleton.1 hx]
      exact ⟨hproduit, Nat.zero_le _, fun t ht => absurd ht List.not_mem_nil⟩
  enCours r position hpos ht := by
    obtain ⟨i, produit', avant, hen, hitem⟩ := h.enCours r position hpos ht
    exact ⟨i, produit', avant, hen, Inventory.kept_arrive (place_ne ha hpos ht) hitem⟩

/-- The tasks that are running on other tables, when the product of one table changes. -/
theorem autres_enCours (h : g.Fidele v) {r : Fin 4} {position : ℤ} (hpos : position = 1 ∨ position = 4)
    {i : ℕ} {e : Exemplaire}
    (hi : g.exemplaires.items[i]? = some (some (.place (table r position).1), e))
    (f : Exemplaire → Exemplaire)
    (suite : Option (ℕ × ℕ)) {r' : Fin 4} {position' : ℤ} (hpos' : position' = 1 ∨ position' = 4)
    (hautre : ¬(r = r' ∧ position = position')) (ht : (v.poste r' position').taskEnCours = true) :
    ({ g with
      exemplaires := g.exemplaires.update i f
      enCours := Function.update g.enCours (table r position).1 suite } : Registre).TravailleA
        (table r' position') := by
  obtain ⟨j, produit, avant, hen, hj⟩ := h.enCours r' position' hpos' ht
  have hne : (table r' position').1 ≠ (table r position).1 := fun hnom => by
    obtain ⟨rfl, rfl⟩ := table_injective hpos' hpos hnom
    exact hautre ⟨rfl, rfl⟩
  have hij : i ≠ j := by
    rintro rfl
    rw [hi] at hj
    exact hne (Lieu.place.inj (Option.some.inj (congrArg Prod.fst (Option.some.inj hj)))).symm
  refine ⟨j, produit, avant, ?_, ?_⟩
  · show Function.update g.enCours _ suite _ = _
    rw [Function.update_of_ne hne, hen]
  · rw [Inventory.items_update_of_ne hij, hj]

theorem fin (h : g.Fidele v) {r : Fin 4} {position : ℤ} (hpos : position = 1 ∨ position = 4)
    (ht : (v.poste r position).taskEnCours = true) :
    (g.apres (.fin r position : Action τ)).Fidele (v.apres (.fin r position)) := by
  obtain ⟨i, produit, avant, hen, hitem⟩ := h.enCours r position hpos ht
  have hsain := h.sains _ (List.mem_of_getElem? hitem)
  have hpile : v.pile (table r position).1 = Exemplaire.pile
      ⟨produit, avant ++ [((table r position).2, false)]⟩ := by
    have hplace := h.pile (.place (table r position).1)
    rw [Registre.pile, Inventory.find_eq_some_iff.2 ⟨i, hitem⟩] at hplace
    exact hplace
  have hhauteur : (v.pile (table r position).1).hauteur - 1 = avant.length + 1 := by
    rw [hpile, hsain.hauteur, List.length_append]
    rfl
  rw [Registre.apres, Registre.finir, hen]
  exact
    { pile := fun l => by
        rw [Vue.apres, Vue.en_setPoste, Vue.en_peindre, Registre.pile, Inventory.find_update hitem]
        split_ifs with hl
        · rw [hhauteur, hpile]
          exact hsain.avecCube_finir
        · exact h.pile l
      sorties := h.sorties
      entiers := h.entiers
      sains := fun x hx => by
        rcases Inventory.mem_update hx with hx | ⟨y, hy, rfl⟩
        · exact h.sains x hx
        · exact (h.sains y (List.mem_of_getElem? hy)).finir _
      enCours := fun r' position' hpos' ht' => by
        rw [poste_fin v hpos' hpos] at ht'
        split_ifs at ht' with hici
        · cases ht'
        · exact h.autres_enCours hpos hitem _ none hpos' hici ht' }

theorem debut (h : g.Fidele v) {r : Fin 4} {position : ℤ} (hpos : position = 1 ∨ position = 4)
    (h0 : 0 < hauteurPoste v r position) (h6 : hauteurPoste v r position < nbCube) (temps : τ) (duree : ℤ) :
    (g.apres (.debut r position temps duree : Action τ)).Fidele
      (v.apres (.debut r position temps duree)) := by
  have hplace := h.pile (.place (table r position).1)
  rw [Registre.pile] at hplace
  cases hfind : g.exemplaires.find (.place (table r position).1) with
  | none =>
    rw [hfind] at hplace
    have hvide : v.pile (table r position).1 = Pile.vide := hplace
    rw [hauteurPoste, hvide, (Pile.hauteur_eq_zero _).2 rfl] at h0
    exact absurd h0 (lt_irrefl 0)
  | some e =>
    obtain ⟨i, hrank, hitem⟩ := Inventory.rank_of_find hfind
    have hsain := h.sains _ (List.mem_of_getElem? hitem)
    have hpile : v.pile (table r position).1 = e.pile := by
      rw [hfind] at hplace
      exact hplace
    have hlt : e.taches.length + 1 < nbCube := by
      rw [hauteurPoste, hpile, hsain.hauteur] at h6
      exact h6
    rw [Registre.apres, Registre.commencer, hrank, hfind]
    exact
      { pile := fun l => by
          rw [Vue.apres, Vue.en_setPoste, Vue.en_peindre, Registre.pile, Inventory.find_update hitem]
          split_ifs with hl
          · rw [hpile, hsain.hauteur]
            exact Exemplaire.avecCube_commencer hlt _
          · exact h.pile l
        sorties := h.sorties
        entiers := h.entiers
        sains := fun x hx => by
          rcases Inventory.mem_update hx with hx | ⟨y, hy, rfl⟩
          · exact h.sains x hx
          · rw [hitem] at hy
            obtain rfl := Option.some.inj hy
            exact hsain.commencer hlt (numero_table r hpos)
        enCours := fun r' position' hpos' ht' => by
          by_cases hici : r = r' ∧ position = position'
          · obtain ⟨rfl, rfl⟩ := hici
            refine ⟨i, e.produit, e.taches, ?_, ?_⟩
            · exact Function.update_self ..
            · exact Inventory.items_update hitem _
          · rw [poste_debut v hpos' hpos, if_neg hici] at ht'
            exact h.autres_enCours hpos hitem _ _ hpos' hici ht' }

/-- Every action of the cell. -/
theorem apres (h : g.Fidele v) {a : Action τ} (ha : ActionReguliere v a) :
    (g.apres a).Fidele (v.apres a) := by
  cases a with
  | debut r position temps duree => exact h.debut ha.1 ha.2.1 ha.2.2 temps duree
  | fin r position => exact h.fin ha.1 ha.2
  | arret r position => exact h.arret ha
  | prise r nom => exact h.prise ha
  | pose r nom => exact h.pose ha
  | chute r => exact h.chute r
  | ajout nom produit => exact h.ajout ha.1 ha.2
  | evacuation => exact h.evacuation ha

theorem foldl (h : g.Fidele v) {as : List (Action τ)} (has : Admissible ActionReguliere Vue.apres v as) :
    (as.foldl Registre.apres g).Fidele (as.foldl Vue.apres v) := by
  induction as generalizing g v with
  | nil => exact h
  | cons a as ih => exact ih (h.apres has.1) has.2

end Registre.Fidele

/-! ## The actions of an order -/

/-- An action that neither starts nor ends a task. -/
def ActionPassive : Action τ → Prop
  | .debut _ _ _ _ | .fin _ _ => False
  | .arret _ position => position = 1 ∨ position = 4
  | .ajout _ produit => 1 ≤ produit ∧ produit ≤ 6
  | .prise _ _ | .pose _ _ | .chute _ | .evacuation => True

theorem regulieres_of_permises {v : Vue τ} {as : List (Action τ)} (has : ActionsPermises v as)
    (hpassives : ∀ a ∈ as, ActionPassive a) : Admissible ActionReguliere Vue.apres v as := by
  induction as generalizing v with
  | nil => trivial
  | cons a as ih =>
    obtain ⟨hpassive, hpassives⟩ := List.forall_mem_cons.1 hpassives
    refine ⟨?_, ih has.2 hpassives⟩
    cases a with
    | debut | fin => exact hpassive.elim
    | arret => exact hpassive
    | ajout => exact ⟨has.1, hpassive⟩
    | prise | pose | chute | evacuation => exact has.1

theorem passives_actionsColorer {r : Fin 4} {position type idNavette : ℤ} (hpos : position ∈ [1, 2, 3, 4]) :
    ∀ a ∈ (actionsColorer r position type idNavette : List (Action τ)), ActionPassive a := by
  have hgeste : ∀ nom, ActionPassive (geste r type nom : Action τ) := by
    intro nom
    rw [geste]
    split_ifs <;> trivial
  rw [actionsColorer]
  split_ifs with h23 h66
  · exact List.forall_mem_singleton.2 trivial
  · exact List.forall_mem_singleton.2 (hgeste _)
  · have h14 : position = 1 ∨ position = 4 := by simp at hpos; omega
    exact List.forall_mem_cons.2 ⟨h14, List.forall_mem_singleton.2 (hgeste _)⟩

variable [Horloge τ]

/-- The orders that neither start nor end a task. -/
theorem passives_actions {c : Cellule τ} {o : Ordre τ} (ho : o.Valide) (hg : DuCatalogue c o)
    (hdebut : ∀ r msg t, o ≠ .faireTache r msg t) (hfin : ∀ r t, o ≠ .update r t) (v : Vue τ) :
    ∀ a ∈ actions o v, ActionPassive a := by
  cases o with
  | faireTache r msg t => exact absurd rfl (hdebut r msg t)
  | update r t => exact absurd rfl (hfin r t)
  | evacuer r =>
    rw [actions]
    split_ifs
    · exact List.forall_mem_singleton.2 trivial
    · exact fun a ha => absurd ha List.not_mem_nil
  | ajouterProduit produit poste =>
    obtain ⟨r, position, hpos, hcible, hr, -⟩ := poste_valide ho
    have hproduit := hg.2 produit poste rfl
    simp only [actions, hcible, hr]
    split_ifs
    · exact List.forall_mem_cons.2 ⟨hpos, List.forall_mem_singleton.2 hproduit⟩
    · exact List.forall_mem_singleton.2 hproduit
  | stopTache r position =>
    rw [actions]
    split_ifs with hpos
    · exact List.forall_mem_singleton.2 hpos
    · exact fun a ha => absurd ha List.not_mem_nil
  | deplacerPiece r msg t navettes =>
    rw [actions]
    split_ifs
    · exact List.forall_mem_append.2 ⟨passives_actionsColorer ho.1, passives_actionsColorer ho.2⟩
    · exact fun a ha => absurd ha List.not_mem_nil

/-- The actions of an order, after a run in which nothing is evacuated during a task. -/
theorem actions_regulieres {trace : Trace τ} {c : Cellule τ} {o : Ordre τ} (hs : Suivi trace c)
    (ho : o.Valide) (hg : DuCatalogue c o) :
    Admissible ActionReguliere Vue.apres (vue c) (actions o (vue c)) := by
  have hautre (hdebut : ∀ r msg t, o ≠ .faireTache r msg t) (hfin : ∀ r t, o ≠ .update r t) :
      Admissible ActionReguliere Vue.apres (vue c) (actions o (vue c)) :=
    regulieres_of_permises (actions_permises hs.visibles ho hg.1 hdebut)
      (passives_actions ho hg hdebut hfin _)
  cases o with
  | faireTache r msg t =>
    rw [actions]
    split_ifs with hd
    · exact ⟨⟨hd.2.1, Nat.pos_of_ne_zero hd.2.2.1, lt_of_le_of_ne (Pile.hauteur_le _) hd.2.2.2⟩, trivial⟩
    · trivial
  | update r t =>
    -- the end of the first task leaves the other one running
    have hposte : ((if ((vue c).poste r 1).finTache t then [Action.fin r 1] else []).foldl Vue.apres
        (vue c)).poste r 4 = _ := poste_fin_si (vue c) (.inr rfl) (.inl rfl) _
    rw [actions]
    refine admissible_append.2 ⟨?_, ?_⟩
    · split_ifs with h
      · exact ⟨⟨.inl rfl, Poste.taskEnCours_of_finTache h⟩, trivial⟩
      · trivial
    · by_cases h : ((vue c).poste r 4).finTache t = true
      · rw [if_pos h]
        refine ⟨⟨.inr rfl, ?_⟩, trivial⟩
        rw [hposte, if_neg fun h => absurd h.1.2 (by decide)]
        exact Poste.taskEnCours_of_finTache h
      · rw [if_neg h]
        trivial
  | evacuer | ajouterProduit | stopTache | deplacerPiece =>
    exact hautre (fun _ _ _ h => by cases h) fun _ _ h => by cases h

/-! ## Runs -/

/-- The ledger after one more order. -/
def Registre.etape (g : Registre) (e : Etape τ) : Registre :=
  (actions e.label.1 (vue e.before)).foldl Registre.apres g

/-- The ledger of a run. -/
def registre (recit : List (Etape τ)) : Registre := recit.foldl Registre.etape Registre.vide

omit [Horloge τ] in
/-- The product that an order adds. -/
def produitAjoute : Ordre τ → Option ℤ
  | .ajouterProduit produit _ => some produit
  | _ => none

omit [Horloge τ] in
/-- The product that an action adds. -/
def Action.ajoute : Action τ → Option ℤ
  | .ajout _ produit => some produit
  | _ => none

/-- The products of the ledger, in the order of their additions. -/
def Registre.produits (g : Registre) : List ℤ := g.exemplaires.items.map fun x => x.2.produit

section Produits

variable (g : Registre)

omit [Horloge τ]

theorem produits_relocate (f : Lieu ≃. Lieu) :
    (g.exemplaires.relocate f).items.map (fun x => x.2.produit) = g.produits := by
  show (g.exemplaires.items.map _).map _ = _
  rw [List.map_map]
  rfl

theorem produits_update (i : ℕ) {f : Exemplaire → Exemplaire} (hf : ∀ e, (f e).produit = e.produit) :
    (g.exemplaires.update i f).items.map (fun x => x.2.produit) = g.produits := by
  refine List.ext_getElem? fun j => ?_
  rw [Registre.produits, List.getElem?_map, List.getElem?_map]
  rcases eq_or_ne i j with rfl | hne
  · cases hi : g.exemplaires.items[i]? with
    | none =>
      rw [Inventory.update, List.getElem?_modify_eq, hi]
      rfl
    | some x =>
      rw [Inventory.items_update hi]
      exact congrArg some (hf x.2)
  · rw [Inventory.items_update_of_ne hne]

theorem produits_apres (a : Action τ) : (g.apres a).produits = g.produits ++ a.ajoute.toList := by
  have hrien : ∀ g' : Registre, g'.produits = g.produits → g'.produits = g.produits ++ [] :=
    fun _ h => h.trans (List.append_nil _).symm
  cases a with
  | debut r position temps duree =>
    refine hrien _ ?_
    rw [Registre.apres, Registre.commencer]
    split
    · exact produits_update g _ fun _ => rfl
    · rfl
  | fin r position =>
    refine hrien _ ?_
    rw [Registre.apres, Registre.finir]
    split
    · exact produits_update g _ fun _ => rfl
    · rfl
  | arret => exact hrien _ rfl
  | prise | pose | chute | evacuation => exact hrien _ (produits_relocate g _)
  | ajout nom produit =>
    show ((g.exemplaires.relocate _).items ++ [_]).map _ = _
    rw [List.map_append, produits_relocate]
    rfl

theorem produits_foldl (as : List (Action τ)) :
    (as.foldl Registre.apres g).produits = g.produits ++ as.filterMap Action.ajoute := by
  induction as generalizing g with
  | nil => exact (List.append_nil _).symm
  | cons a as ih =>
    rw [List.foldl_cons, ih, produits_apres, List.append_assoc]
    cases a <;> rfl

end Produits

/-- An order adds the product that it names. -/
theorem filterMap_actions {o : Ordre τ} (ho : o.Valide) (v : Vue τ) :
    (actions o v).filterMap Action.ajoute = (produitAjoute o).toList := by
  cases o with
  | ajouterProduit produit poste =>
    obtain ⟨r, position, hpos, hcible, hr, -⟩ := poste_valide ho
    simp only [actions, hcible, hr]
    split_ifs <;> rfl
  | deplacerPiece r msg t navettes =>
    have hcolorer : ∀ position type idNavette,
        (actionsColorer r position type idNavette : List (Action τ)).filterMap Action.ajoute = [] := by
      intro position type idNavette
      rw [actionsColorer, geste, geste]
      split_ifs <;> rfl
    rw [actions]
    split_ifs
    · rw [List.filterMap_append, hcolorer, hcolorer]
      rfl
    · rfl
  | faireTache | update | evacuer | stopTache =>
    rw [actions]
    split_ifs <;> rfl

/-- What the ledger and the cell keep. -/
structure SuiviHistoriques (recit : List (Etape τ)) (c : Cellule τ) : Prop where
  suivi : Suivi (recit.map Transition.label) c
  fidele : (registre recit).Fidele (vue c)
  produits : (registre recit).produits = recit.filterMap fun e => produitAjoute e.label.1

theorem suiviHistoriques_initiale (temps₀ : τ) :
    SuiviHistoriques [] (Cellule.initiale (fun _ => Pile.vide) temps₀) where
  suivi := suivi_initiale _ temps₀
  fidele :=
    { pile := fun l => by cases l <;> rfl
      sorties := rfl
      entiers := fun l hl => absurd hl List.not_mem_nil
      sains := fun x hx => absurd hx List.not_mem_nil
      enCours := fun r position _ ht =>
        absurd (ht.symm.trans (taskEnCours_init (numero r) position)) (by decide) }
  produits := rfl

/-- One more order. -/
theorem SuiviHistoriques.pas {recit : List (Etape τ)} {c c' : Cellule τ} {e : Etape τ}
    (h : SuiviHistoriques recit c) (hp : Recorded (Pas DuCatalogue) c e c') :
    SuiviHistoriques (recit ++ [e]) c' := by
  obtain ⟨rfl, rfl, ho, hg, hex⟩ := hp
  obtain ⟨-, hvue, -⟩ := executerOrdre_vue h.suivi.equipee ho hex
  have hregistre : registre (recit ++ [e]) = (registre recit).etape e := by
    rw [registre, List.foldl_append]
    rfl
  refine ⟨?_, ?_, ?_⟩
  · rw [List.map_append]
    exact h.suivi.pas ⟨ho, hg.1, hex⟩
  · rw [hregistre, hvue]
    exact h.fidele.foldl (actions_regulieres h.suivi ho hg)
  · have hun : [e].filterMap (fun e => produitAjoute e.label.1) = (produitAjoute e.label.1).toList := by
      rw [List.filterMap_cons]
      cases produitAjoute e.label.1 <;> rfl
    rw [hregistre, Registre.etape, produits_foldl, h.produits, filterMap_actions ho, List.filterMap_append,
      hun]

/-- The stacks that were evacuated are those of the products that the ledger has outside. -/
theorem SuiviHistoriques.evacues {recit : List (Etape τ)} {c : Cellule τ} (h : SuiviHistoriques recit c) :
    evacuesDe c.sim.journal =
      (List.range (registre recit).sorties).map fun n => ((registre recit).pile (.sortie n)).toList := by
  have hsorties : (evacuesDe c.sim.journal).length = (registre recit).sorties := h.fidele.sorties
  refine List.ext_getElem (by rw [hsorties, List.length_map, List.length_range]) fun n hn _ => ?_
  have hsortie : Pile.ofList (evacuesDe c.sim.journal)[n] = (registre recit).pile (.sortie n) := by
    rw [← h.fidele.pile]
    exact congrArg Pile.ofList (List.getD_eq_getElem _ _ hn).symm
  have hentier := h.fidele.entiers _ (List.getElem_mem hn)
  rw [List.getElem_map, List.getElem_range, ← hsortie, Pile.toList_ofList hentier.le, hentier, Nat.sub_self]
  exact (List.append_nil _).symm

/-- What was evacuated is an empty post, or the whole history of a product that was added. -/
theorem SuiviHistoriques.histoire {recit : List (Etape τ)} {c : Cellule τ} (h : SuiviHistoriques recit c)
    {n : ℕ} {pile : List ℤ} (hpile : (evacuesDe c.sim.journal)[n]? = some pile) :
    pile = Pile.vide.toList ∨ ∃ (i : ℕ) (e : Exemplaire),
      (registre recit).exemplaires.items[i]? = some (some (.sortie n), e) ∧
        (recit.filterMap fun e => produitAjoute e.label.1)[i]? = some e.produit ∧ e.Sain ∧
          pile = e.histoire := by
  rw [h.evacues, List.getElem?_map] at hpile
  obtain ⟨n', hn', rfl⟩ := Option.map_eq_some_iff.1 hpile
  obtain rfl : n = n' := by
    obtain ⟨hlt, heq⟩ := List.getElem?_eq_some_iff.1 hn'
    rwa [List.getElem_range] at heq
  rw [Registre.pile]
  cases hfind : (registre recit).exemplaires.find (.sortie n) with
  | none => exact .inl rfl
  | some e =>
    obtain ⟨i, hi⟩ := Inventory.find_eq_some_iff.1 hfind
    have hsain := h.fidele.sains _ (List.mem_of_getElem? hi)
    refine .inr ⟨i, e, hi, ?_, hsain, hsain.toList_pile⟩
    rw [← h.produits, Registre.produits, List.getElem?_map, hi]
    rfl

/-- **The products are told apart by the cell.** Along every run that begins empty, each place shows
the product that the ledger has there with its tasks, those that have ended and those that have not,
and no product has more tasks than a stack shows. What was evacuated is an empty post, or the whole
history of a product that was added. An `Inventory` has each product in one place at most. -/
theorem historiques_fideles {temps₀ : τ} {recit : List (Etape τ)} {c : Cellule τ}
    (h : Run (Recorded (Pas DuCatalogue)) (Cellule.initiale (fun _ => Pile.vide) temps₀) recit c) :
    (∀ nom, c.sim.couleur nom = (registre recit).pile (.place nom)) ∧
      (∀ r, (c.robot r).couleurTransportee = (registre recit).pile (.pince r)) ∧
      evacuesDe c.sim.journal =
        (List.range (registre recit).sorties).map (fun n => ((registre recit).pile (.sortie n)).toList) ∧
      (registre recit).produits = recit.filterMap (fun e => produitAjoute e.label.1) ∧
      (∀ x ∈ (registre recit).exemplaires.items, x.2.Sain) ∧
      ∀ (n : ℕ) pile, (evacuesDe c.sim.journal)[n]? = some pile → pile = Pile.vide.toList ∨
        ∃ (i : ℕ) (e : Exemplaire), (registre recit).exemplaires.items[i]? = some (some (.sortie n), e) ∧
          (recit.filterMap fun e => produitAjoute e.label.1)[i]? = some e.produit ∧ e.Sain ∧
            pile = e.histoire := by
  have hsuivi : SuiviHistoriques recit c :=
    h.invariant (suiviHistoriques_initiale temps₀) fun _ _ _ _ hs hp => hs.pas hp
  have hpile := hsuivi.fidele.pile
  exact ⟨fun nom => hpile (.place nom), fun r => hpile (.pince r), hsuivi.evacues, hsuivi.produits,
    hsuivi.fidele.sains, fun _ _ hn => hsuivi.histoire hn⟩

/-- A product is worked on at post 3 and evacuated. -/
theorem run_evacuation : ∃ recit c, Run (Recorded (Pas DuCatalogue)) celluleVide recit c ∧
    evacuesDe c.sim.journal = [[24, 33, 0, 0, 0, 0]] := by
  have hres : ((derouler celluleVide (tacheSurPoste3 ++ [.update 1 10])).bind fun x =>
      (Cellule.executerOrdre (.evacuer 1) x.2).map fun y =>
        ((x.2.robot 1).postePos1.taskEnCours, evacuesDe y.2.sim.journal)) =
      .ok (false, [[24, 33, 0, 0, 0, 0]]) := by decide +kernel
  cases hd : derouler celluleVide (tacheSurPoste3 ++ [.update 1 10]) with
  | error e => simp [hd, Except.bind] at hres
  | ok x =>
    rw [hd] at hres
    obtain ⟨y, hex, hy⟩ := map_eq_ok hres
    have hrun : Run (Pas DuCatalogue) celluleVide x.1 x.2 :=
      run_derouler (by simp [tacheSurPoste3, Ordre.Valide, DuCatalogue, EvacuerHorsTache]) .nil hd
    have hpas : Pas DuCatalogue x.2 (.evacuer 1, y.1) y.2 :=
      ⟨trivial, ⟨fun _ => congrArg Prod.fst hy, fun _ _ h => by cases h⟩, hex⟩
    obtain ⟨recit, hrecit, -⟩ := (hrun.snoc hpas).recorded
    exact ⟨recit, y.2, hrecit, congrArg Prod.snd hy⟩

theorem historiques_fideles_evacuation : ∃ recit c, Run (Recorded (Pas DuCatalogue)) celluleVide recit c ∧
    ∃ (i : ℕ) (e : Exemplaire), (registre recit).exemplaires.items[i]? = some (some (.sortie 0), e) ∧
      (recit.filterMap fun e => produitAjoute e.label.1)[i]? = some e.produit ∧
        e.histoire = [24, 33, 0, 0, 0, 0] := by
  obtain ⟨recit, c, hrun, hevacues⟩ := run_evacuation
  have hpile : (evacuesDe c.sim.journal)[0]? = some [24, 33, 0, 0, 0, 0] := by
    rw [hevacues]
    rfl
  rcases (historiques_fideles hrun).2.2.2.2.2 0 _ hpile with hvide | ⟨i, e, hi, hproduit, -, hhistoire⟩
  · exact absurd hvide (by decide)
  · exact ⟨recit, c, hrun, i, e, hi, hproduit, hhistoire.symm⟩

end Atelier
