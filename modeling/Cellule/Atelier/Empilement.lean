import Mathlib.Data.List.GetD
import Cellule.Atelier.Entrees

/-! # The shape of the stacks

A stack is empty, or a product with the cubes of its tasks above it and nothing between them. The
scan loops rely on this to find the first empty slot, and the log to read the tasks. A start puts a
cube on the first empty slot and an end colours the highest cube again, which is never the base as
long as nothing is evacuated during a task.
-/

namespace Atelier

open Reactive Robots Robots.Robot
open Vue (table)

/-! ## Stacks -/

/-- The colour of the cube of a task of post `q`, transparent while it runs and opaque at
its end. -/
def CubeTache (c : ℤ) : Prop := ∃ q, 1 ≤ q ∧ q ≤ 8 ∧ (c = 10 * q + 2 ∨ c = 10 * q + 3)

/-- A product, the cubes of its tasks above it, then invisible cubes. -/
structure ProduitEmpile (p : Pile) (produit : ℤ) (taches : List ℤ) : Prop where
  catalogue : 1 ≤ produit ∧ produit ≤ 6
  nombre : taches.length ≤ nbCube - 1
  cubesTaches : ∀ c ∈ taches, CubeTache c
  cubes : p = Pile.ofList ((10 * produit + 4) :: taches)

/-- The stack is empty or carries a product. -/
def BienEmpilee (p : Pile) : Prop := p = Pile.vide ∨ ∃ produit taches, ProduitEmpile p produit taches

theorem bienEmpilee_vide : BienEmpilee Pile.vide := .inl rfl

/-- A fresh product. -/
theorem bienEmpilee_produit {produit : ℤ} (h : 1 ≤ produit ∧ produit ≤ 6) :
    BienEmpilee (Pile.ofList (CommandeLocale.pileProduit produit)) := by
  refine .inr ⟨produit, [], h, Nat.zero_le _, by simp, ?_⟩
  refine Pile.ext_cube fun i hi => ?_
  rw [Pile.cube_ofList _ hi, Pile.cube_ofList _ hi, CommandeLocale.pileProduit]
  cases i with
  | zero => simp [mul_comm]
  | succ i =>
    rw [List.getD_cons_succ, List.getD_cons_succ, List.getD_replicate _ (by omega)]
    rfl

/-- The cubes of a product and its tasks are visible, and no others. -/
theorem ProduitEmpile.hauteur_eq {p : Pile} {produit : ℤ} {taches : List ℤ}
    (h : ProduitEmpile p produit taches) : p.hauteur = taches.length + 1 := by
  have hnb : nbCube = 6 := rfl
  have hlen := h.nombre
  rw [h.cubes]
  apply Pile.hauteur_eq
  · intro i hi
    rw [Pile.cube_ofList _ (by omega)]
    cases i with
    | zero =>
      have hproduit := h.catalogue
      rw [List.getD_cons_zero]
      omega
    | succ i =>
      have hi : i < taches.length := by omega
      obtain ⟨q, hq, -, hc⟩ := h.cubesTaches _ (List.getElem_mem hi)
      rw [List.getD_cons_succ, List.getD_eq_getElem _ _ hi]
      omega
  · rcases Nat.lt_or_ge (taches.length + 1) nbCube with hlt | hge
    · rw [Pile.cube_ofList _ hlt, List.getD_cons_succ, List.getD_eq_default _ _ le_rfl]
    · exact Pile.cube_of_le _ hge

/-- A cube put on a stack built from a list. -/
theorem ofList_avecCube (l : List ℤ) {k : ℕ} (hk : k < nbCube) (hkl : k ≤ l.length) (c : ℤ) :
    (Pile.ofList l).avecCube k c = Pile.ofList (l.take k ++ [c]) := by
  refine Pile.ext_cube fun i hi => ?_
  rw [Pile.cube_avecCube _ hk, Pile.cube_ofList _ hi, Pile.cube_ofList _ hi]
  simp only [List.getD_eq_getElem?_getD]
  have hlen : (l.take k).length = k := by
    rw [List.length_take]
    omega
  rcases lt_trichotomy i k with hik | rfl | hik
  · rw [if_pos hik, List.getElem?_append_left (by omega), List.getElem?_take, if_pos hik]
  · rw [if_neg (lt_irrefl i), if_pos rfl, List.getElem?_append_right (by omega), hlen]
    simp
  · rw [if_neg (by omega), if_neg (by omega), List.getElem?_append_right (by omega), hlen,
      List.getElem?_eq_none]
    · rfl
    · simp only [List.length_cons, List.length_nil]
      omega

/-- The cube of a task put on a product, above its base. -/
theorem BienEmpilee.avecCube {p : Pile} (h : BienEmpilee p) {k : ℕ} (hk : k < nbCube) (h0 : 0 < k)
    (hkp : k ≤ p.hauteur) {c : ℤ} (hc : CubeTache c) : BienEmpilee (p.avecCube k c) := by
  rcases h with rfl | ⟨produit, taches, h⟩
  · rw [(Pile.hauteur_eq_zero _).2 rfl] at hkp
    omega
  · have hhauteur := h.hauteur_eq
    obtain ⟨k, rfl⟩ : ∃ j, k = j + 1 := ⟨k - 1, by omega⟩
    refine .inr ⟨produit, taches.take k ++ [c], h.catalogue, ?_, ?_, ?_⟩
    · simp only [List.length_append, List.length_take, List.length_cons, List.length_nil]
      omega
    · intro c' hc'
      rcases List.mem_append.1 hc' with hc' | hc'
      · exact h.cubesTaches c' (List.mem_of_mem_take hc')
      · rw [List.mem_singleton.1 hc']
        exact hc
    · rw [h.cubes, ofList_avecCube _ hk (by simp only [List.length_cons]; omega)]
      rfl

/-! ## One action -/

variable {τ : Type}

/-- Every stack of the cell is well formed, on the tables, on the shuttles and in the grippers. -/
structure BienEmpilees (v : Vue τ) : Prop where
  pile : ∀ nom, BienEmpilee (v.pile nom)
  pince : ∀ r, BienEmpilee (v.pince r)

/-- Only products of the catalogue are added. -/
def ActionCatalogue : Action τ → Prop
  | .ajout _ produit => 1 ≤ produit ∧ produit ≤ 6
  | _ => True

/-- The posts are numbered from 1 to 8. -/
theorem cubeTache_table (r : Fin 4) {position : ℤ} (hpos : position = 1 ∨ position = 4) :
    CubeTache ((table r position).2 * 10 + 2) ∧ CubeTache ((table r position).2 * 10 + 3) := by
  have key : ∀ r : Fin 4, ∀ position ∈ ([1, 4] : List ℤ),
      1 ≤ (table r position).2 ∧ (table r position).2 ≤ 8 := by decide
  obtain ⟨h1, h8⟩ := key r position (by simpa using hpos)
  exact ⟨⟨_, h1, h8, .inl (by ring)⟩, ⟨_, h1, h8, .inr (by ring)⟩⟩

namespace BienEmpilees

variable {v : Vue τ}

theorem peindre (hv : BienEmpilees v) (nom : String) {p : Pile} (hp : BienEmpilee p) :
    BienEmpilees (v.peindre nom p) := by
  refine ⟨fun nom' => ?_, hv.pince⟩
  by_cases h : nom' = nom
  · simpa [Vue.peindre, h] using hp
  · simpa [Vue.peindre, h] using hv.pile nom'

theorem tenir (hv : BienEmpilees v) (r : Fin 4) {p : Pile} (hp : BienEmpilee p) :
    BienEmpilees (v.tenir r p) := by
  refine ⟨hv.pile, fun r' => ?_⟩
  by_cases h : r' = r
  · simpa [Vue.tenir, h] using hp
  · simpa [Vue.tenir, h] using hv.pince r'

/-- Every action keeps the shape of the stacks. -/
theorem apres (hv : BienEmpilees v) {a : Action τ} (ha : ActionAssise v a) (hc : ActionCatalogue a) :
    BienEmpilees (v.apres a) := by
  cases a with
  | debut r position temps duree =>
    obtain ⟨hpos, h0, h6⟩ := ha
    have h := hv.peindre (table r position).1
      ((hv.pile _).avecCube h6 h0 (le_refl _) (cubeTache_table r hpos).1)
    exact ⟨h.pile, h.pince⟩
  | fin r position =>
    obtain ⟨hpos, h2⟩ := ha
    rw [hauteurPoste] at h2
    have hle := (v.pile (table r position).1).hauteur_le
    -- the highest cube becomes the one of a finished task
    have hpile := (hv.pile (table r position).1).avecCube
      (k := (v.pile (table r position).1).hauteur - 1) (by omega) (by omega) (by omega)
      (cubeTache_table r hpos).2
    have h := hv.peindre (table r position).1 hpile
    exact ⟨h.pile, h.pince⟩
  | arret r position => exact ⟨hv.pile, hv.pince⟩
  | prise r nom => exact (hv.peindre nom (hv.pince r)).tenir r (hv.pile nom)
  | pose r nom =>
    have h := (hv.peindre nom (hv.pince r)).tenir r bienEmpilee_vide
    exact ⟨h.pile, h.pince⟩
  | chute r => exact hv.tenir r bienEmpilee_vide
  | ajout nom produit =>
    have h := hv.peindre nom (bienEmpilee_produit hc)
    exact ⟨h.pile, h.pince⟩
  | evacuation =>
    have h := hv.peindre (tableDe 2 1).1 bienEmpilee_vide
    exact ⟨h.pile, h.pince⟩

theorem foldl (hv : BienEmpilees v) {as : List (Action τ)}
    (has : Admissible ActionAssise Vue.apres v as) (hcs : ∀ a ∈ as, ActionCatalogue a) :
    BienEmpilees (as.foldl Vue.apres v) := by
  induction as generalizing v with
  | nil => exact hv
  | cons a as ih =>
    obtain ⟨hc, hcs⟩ := List.forall_mem_cons.1 hcs
    exact ih (hv.apres has.1 hc) has.2 hcs

end BienEmpilees

/-! ## Runs -/

variable [Horloge τ]

/-- Nothing is evacuated during a task of post 3, and the products are those of the catalogue. -/
def DuCatalogue (c : Cellule τ) (o : Ordre τ) : Prop :=
  EvacuerHorsTache c o ∧ ∀ produit poste, o = .ajouterProduit produit poste → 1 ≤ produit ∧ produit ≤ 6

/-- The actions of an order add nothing but the product it names. -/
theorem actions_catalogue {c : Cellule τ} {o : Ordre τ} (ho : o.Valide) (hg : DuCatalogue c o)
    (v : Vue τ) : ∀ a ∈ actions o v, ActionCatalogue a := by
  cases o with
  | ajouterProduit produit poste =>
    obtain ⟨r, position, hpos, hcible, hr, hnom⟩ := poste_valide ho
    have hproduit := hg.2 produit poste rfl
    simp only [actions, hcible, hr]
    split_ifs <;> simpa [ActionCatalogue] using hproduit
  | deplacerPiece r msg temps navettes =>
    intro a ha
    have h := actions_deplace (S := lieux ∪ (navettes.map nomNavette).toFinset) Finset.subset_union_left
      ho (fun nom hnom => Finset.mem_union_right _ (List.mem_toFinset.2 hnom)) v a ha
    cases a with
    | ajout => exact h.elim
    | _ => trivial
  | _ =>
    rw [actions]
    split_ifs <;> simp [ActionCatalogue]

/-- What every run keeps that begins empty and adds products of the catalogue. -/
structure SuiviPiles (trace : Trace τ) (c : Cellule τ) : Prop extends Suivi trace c where
  piles : BienEmpilees (vue c)

/-- One order keeps the shape of the stacks. -/
theorem SuiviPiles.pas {trace : Trace τ} {c c' : Cellule τ} {x : Ordre τ × Resultat}
    (h : SuiviPiles trace c) (hp : Pas DuCatalogue c x c') : SuiviPiles (trace ++ [x]) c' := by
  refine ⟨h.toSuivi.pas ⟨hp.1, hp.2.1.1, hp.2.2⟩, ?_⟩
  obtain ⟨ho, hg, hex⟩ := hp
  obtain ⟨-, hvue, -⟩ := executerOrdre_vue h.equipee ho hex
  -- The order may touch its shuttles besides the tables.
  obtain ⟨hassises, -⟩ := actions_entrees h.toSuivi ho (S := lieux ∪ (nomsNavettes x.1).toFinset)
    Finset.subset_union_left fun nom hnom => Finset.mem_union_right _ (List.mem_toFinset.2 hnom)
  rw [hvue]
  exact h.piles.foldl hassises (actions_catalogue ho hg _)

/-- **Every stack is a product and its tasks**, or nothing, on the tables, on the shuttles and in
the grippers, after every run of the cell that begins empty. -/
theorem piles_bien_formees {temps₀ : τ} {trace : Trace τ} {c : Cellule τ}
    (h : Run (Pas DuCatalogue) (Cellule.initiale (fun _ => Pile.vide) temps₀) trace c) :
    (∀ nom, BienEmpilee (c.sim.couleur nom)) ∧ ∀ r, BienEmpilee (c.robot r).couleurTransportee := by
  have hinitiale : SuiviPiles [] (Cellule.initiale (fun _ => Pile.vide) temps₀) :=
    ⟨suivi_initiale _ temps₀, fun _ => bienEmpilee_vide, fun _ => bienEmpilee_vide⟩
  have hsuivi : SuiviPiles trace c := h.invariant hinitiale fun _ _ _ _ hs hp => hs.pas hp
  exact ⟨hsuivi.piles.pile, hsuivi.piles.pince⟩

/-- The stacks after a task on post 3. -/
theorem piles_bien_formees_tacheSurPoste3 :
    ∃ trace c, Run (Pas DuCatalogue) celluleVide trace c ∧
      trace.map Prod.snd = [.rien, .debut (some 1), .fins (some 1) none] ∧
      (∀ nom, BienEmpilee (c.sim.couleur nom)) ∧ ∀ r, BienEmpilee (c.robot r).couleurTransportee := by
  have hres : ((derouler celluleVide (tacheSurPoste3 ++ [.update 1 10])).map fun x => x.1.map Prod.snd)
      = .ok [.rien, .debut (some 1), .fins (some 1) none] := by decide +kernel
  cases hd : derouler celluleVide (tacheSurPoste3 ++ [.update 1 10]) with
  | error e => simp [hd, Except.map] at hres
  | ok x =>
    simp only [hd, Except.map, Except.ok.injEq] at hres
    have hrun : Run (Pas DuCatalogue) celluleVide x.1 x.2 :=
      run_derouler (by simp [tacheSurPoste3, Ordre.Valide, DuCatalogue, EvacuerHorsTache]) .nil hd
    exact ⟨x.1, x.2, hrun, hres, piles_bien_formees hrun⟩

end Atelier
