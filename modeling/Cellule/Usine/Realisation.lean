import Cellule.Atelier.Empilement
import Cellule.Atelier.Recit
import Cellule.Usine.Plan

/-! # The shop in the cell

The cell shows the shop when each place of the shop is a place of the cell, with the stack of its
product, and the grippers are empty. An operation that is possible in the shop is what the actions
of its order do to the cell.
-/

namespace Usine

open Atelier Reactive Robots Robots.Robot
open Atelier.Vue (table)

/-! ## The shuttles -/

/-- The shuttles that carry the two products on each of their two trips. -/
structure Trafic where
  navette : Bool → Bool → ℤ
  existe : ∀ seconde violet, 0 ≤ navette seconde violet ∧ navette seconde violet ≤ 5
  distinctes : ∀ seconde, navette seconde false ≠ navette seconde true

namespace Trafic

variable (n : Trafic)

/-- What the shuttle manager answers during a move. -/
def navettes (msg : DeplacerPieceMsg) : List ℤ := (voyage msg).toList.map fun v => n.navette v.1 v.2

/-- The name of a place during a trip. -/
def nom (seconde : Bool) : Place → String
  | .poste numRobot position => (tableDe numRobot position).1
  | .navette violet => nomNavette (n.navette seconde violet)
  | .sortie => ""

end Trafic

/-! ## Places and posts -/

theorem robot_existe {numRobot : ℤ} (h : 1 ≤ numRobot ∧ numRobot ≤ 4) : ∃ r, numero r = numRobot := by
  have key : ∀ m ∈ ([1, 2, 3, 4] : List ℤ), ∃ r, numero r = m := by decide
  exact key numRobot (by simp; omega)

theorem Place.existe_poste (r : Fin 4) {position : ℤ} (h : position = 1 ∨ position = 4) :
    (Place.poste (numero r) position).Existe := by
  have key : ∀ r : Fin 4, 1 ≤ numero r ∧ numero r ≤ 4 := by decide
  exact ⟨key r, h⟩

/-- The places of the shop have different names. -/
theorem nom_injective (n : Trafic) (seconde : Bool) {p q : Place} (hp : p.Existe) (hq : q.Existe)
    (h : n.nom seconde p = n.nom seconde q) : p = q := by
  cases p with
  | sortie => exact hp.elim
  | poste numRobot position =>
    obtain ⟨r, rfl⟩ := robot_existe hp.1
    cases q with
    | sortie => exact hq.elim
    | poste numRobot' position' =>
      obtain ⟨r', rfl⟩ := robot_existe hq.1
      obtain ⟨rfl, rfl⟩ := table_injective hp.2 hq.2 h
      rfl
    | navette violet => exact absurd h (table_ne_nomNavette r hp.2 _)
  | navette violet =>
    cases q with
    | sortie => exact hq.elim
    | poste numRobot' position' =>
      obtain ⟨r', rfl⟩ := robot_existe hq.1
      exact absurd h.symm (table_ne_nomNavette r' hq.2 _)
    | navette violet' =>
      have hid := nomNavette_injective (n.existe seconde violet) (n.existe seconde violet') h
      have hne := n.distinctes seconde
      cases violet <;> cases violet' <;> first | rfl | exact absurd hid hne | exact absurd hid.symm hne

/-! ## Stacks -/

/-- The stack of a place. -/
def Contenu.pile (c : Contenu) : Pile := c.produits.head?.elim Pile.vide Pile.ofList

theorem Contenu.Visible.seul {c : Contenu} {n : ℕ} (h : c.Visible n) :
    ∃ e, c.produits = [e] ∧ e ≠ [] ∧ e.length ≤ n ∧ ∀ cube ∈ e, cube ≠ 0 := by
  obtain ⟨hlength, hvisible⟩ := h
  obtain ⟨e, he⟩ := List.length_eq_one_iff.1 hlength
  exact ⟨e, he, hvisible e (he ▸ List.mem_singleton_self e)⟩

theorem Contenu.pile_seul {c : Contenu} {e : List ℤ} (h : c.produits = [e]) : c.pile = Pile.ofList e := by
  rw [Contenu.pile, h]
  rfl

theorem Contenu.pile_vide {c : Contenu} (h : c.produits = []) : c.pile = Pile.vide := by
  rw [Contenu.pile, h]
  rfl

/-- The height of a stack of visible cubes. -/
theorem hauteur_ofList {e : List ℤ} (hlength : e.length ≤ nbCube) (he : ∀ cube ∈ e, cube ≠ 0) :
    (Pile.ofList e).hauteur = e.length := by
  refine Pile.hauteur_eq (fun i hi => ?_) ?_
  · rw [Pile.cube_ofList _ (by omega), List.getD_eq_getElem _ _ hi]
    exact he _ (List.getElem_mem hi)
  · rcases Nat.lt_or_ge e.length nbCube with hlt | hge
    · rw [Pile.cube_ofList _ hlt, List.getD_eq_default _ _ le_rfl]
    · exact Pile.cube_of_le _ hge

/-! ## The shop that the cell shows -/

variable {τ : Type}

/-- The cell shows the shop. -/
structure Montre (nom : Place → String) (s : Etat) (v : Atelier.Vue τ) : Prop where
  pile : ∀ p : Place, p.Existe → v.pile (nom p) = (s p).pile
  autres : ∀ x, (∀ p : Place, p.Existe → nom p ≠ x) → v.pile x = Pile.vide
  pince : ∀ r, v.pince r = Pile.vide
  postes : ∀ r position, position = 1 ∨ position = 4 →
    (v.poste r position).taskEnCours = (s (.poste (numero r) position)).enCours
  evacues : v.evacues = (s .sortie).produits.map fun e => (Pile.ofList e).toList

section Montre

variable {n : Trafic} {seconde : Bool} {s : Etat} {v v' : Atelier.Vue τ}

/-- A place is written. -/
theorem Montre.ecrire (h : Montre (n.nom seconde) s v) {p : Place} (hp : p.Existe) {c : Contenu}
    (hpile : v'.pile = Function.update v.pile (n.nom seconde p) c.pile) (hpince : v'.pince = v.pince)
    (hevacues : v'.evacues = v.evacues)
    (hpostes : ∀ r position, position = 1 ∨ position = 4 → (v'.poste r position).taskEnCours =
      if Place.poste (numero r) position = p then c.enCours else (v.poste r position).taskEnCours) :
    Montre (n.nom seconde) (Function.update s p c) v' where
  pile q hq := by
    rw [hpile]
    by_cases hqp : q = p
    · subst hqp
      rw [Function.update_self, Function.update_self]
    · rw [Function.update_of_ne fun hnom => hqp (nom_injective n seconde hq hp hnom),
        Function.update_of_ne hqp, h.pile q hq]
  autres x hx := by rw [hpile, Function.update_of_ne (hx p hp).symm, h.autres x hx]
  pince r := by rw [hpince, h.pince]
  postes r position hpos := by
    rw [hpostes r position hpos]
    split_ifs with hici
    · rw [hici, Function.update_self]
    · rw [Function.update_of_ne hici, h.postes r position hpos]
  evacues := by
    have hsortie : Place.sortie ≠ p := by
      rintro rfl
      exact hp
    rw [hevacues, Function.update_of_ne hsortie, h.evacues]

/-- A stack is written in a place, where no task starts or ends. -/
theorem Montre.peindre (h : Montre (n.nom seconde) s v) {p : Place} (hp : p.Existe) {produits : List (List ℤ)}
    (hpile : v'.pile = Function.update v.pile (n.nom seconde p) (Contenu.pile ⟨produits, (s p).enCours⟩))
    (hpince : v'.pince = v.pince) (hevacues : v'.evacues = v.evacues) (hposte : v'.poste = v.poste) :
    Montre (n.nom seconde) (Function.update s p ⟨produits, (s p).enCours⟩) v' := by
  refine h.ecrire hp hpile hpince hevacues fun r position hpos => ?_
  rw [hposte]
  split_ifs with hici
  · rw [← hici, ← h.postes r position hpos]
  · rfl

/-- The product of a place, its stack and its height. -/
theorem Montre.produit (h : Montre (n.nom seconde) s v) {p : Place} (hp : p.Existe) {m : ℕ} (hm : m ≤ nbCube)
    (hvisible : (s p).Visible m) : ∃ e, (s p).produits = [e] ∧ (0 < e.length ∧ e.length ≤ m) ∧
      v.pile (n.nom seconde p) = Pile.ofList e ∧ (Pile.ofList e).hauteur = e.length := by
  obtain ⟨e, he, hne, hlength, hcubes⟩ := hvisible.seul
  exact ⟨e, he, ⟨List.length_pos_of_ne_nil hne, hlength⟩, (h.pile p hp).trans (Contenu.pile_seul he),
    hauteur_ofList (hlength.trans hm) hcubes⟩

/-- The posts of two robots or of two positions are two places. -/
theorem poste_eq_iff {r r' : Fin 4} {position position' : ℤ} :
    Place.poste (numero r) position = .poste (numero r') position' ↔ r' = r ∧ position' = position := by
  rw [Place.poste.injEq]
  exact ⟨fun h => ⟨numero_injective h.1.symm, h.2.symm⟩, fun h => ⟨h.1 ▸ rfl, h.2.symm⟩⟩

/-- A task starts. -/
theorem Montre.debut (h : Montre (n.nom seconde) s v) {r : Fin 4} {position : ℤ} (temps : τ) (duree : ℤ)
    (hposs : s.Possible (.debut ⟨numero r, position, duree⟩)) :
    DebutPossible v r ⟨numero r, position, duree⟩ ∧
      Montre (n.nom seconde) (s.effet (.debut ⟨numero r, position, duree⟩))
        (v.apres (.debut r position temps duree)) := by
  obtain ⟨hexiste, -, hvisible⟩ := hposs
  obtain ⟨e, he, ⟨hpos, hlength⟩, hpile, hhauteur⟩ := h.produit hexiste (Nat.sub_le nbCube 1) hvisible
  have hnb : nbCube = 6 := rfl
  change v.pile (table r position).1 = Pile.ofList e at hpile
  refine ⟨⟨rfl, hexiste.2, ?_, ?_⟩, ?_⟩
  · rw [hauteurPoste, hpile, hhauteur]
    exact hpos.ne'
  · rw [hauteurPoste, hpile, hhauteur]
    exact (by omega : e.length < nbCube).ne
  · refine h.ecrire hexiste ?_ rfl rfl fun r' position' hpos' => ?_
    · show Function.update v.pile (table r position).1 _ = Function.update v.pile (table r position).1 _
      rw [hpile, hhauteur, ofList_avecCube e (by omega) le_rfl, List.take_length, Contenu.pile,
        Contenu.commencer, he]
      rfl
    · rw [poste_debut v hpos' hexiste.2]
      simp only [posteDe, poste_eq_iff]
      split_ifs <;> rfl

/-- A task ends. -/
theorem Montre.fin (h : Montre (n.nom seconde) s v) {r : Fin 4} {position : ℤ} (duree : ℤ)
    (hposs : s.Possible (.fin ⟨numero r, position, duree⟩)) :
    Montre (n.nom seconde) (s.effet (.fin ⟨numero r, position, duree⟩)) (v.apres (.fin r position)) := by
  obtain ⟨hexiste, -, hvisible⟩ := hposs
  obtain ⟨e, he, ⟨hpos, hlength⟩, hpile, hhauteur⟩ := h.produit hexiste le_rfl hvisible
  change v.pile (table r position).1 = Pile.ofList e at hpile
  refine h.ecrire hexiste ?_ rfl rfl fun r' position' hpos' => ?_
  · show Function.update v.pile (table r position).1 _ = Function.update v.pile (table r position).1 _
    rw [hpile, hhauteur, ofList_avecCube e (by omega) (Nat.sub_le _ _), ← List.dropLast_eq_take, Contenu.pile,
      Contenu.finir, he]
    rfl
  · rw [poste_fin v hpos' hexiste.2]
    simp only [posteDe, poste_eq_iff]
    split_ifs <;> rfl

/-! ## A move -/

variable (n seconde) in
/-- `Colorer` at a position of a move, on the shuttle of the trip when it is on the track. -/
theorem actionsColorer_lieuDe {msg : DeplacerPieceMsg} {r : Fin 4} (hmsg : numero r = msg.numRobot)
    {position type : ℤ} {navettes : List ℤ}
    (hnavette : SurPiste position →
      ∃ violet, voyage msg = some (seconde, violet) ∧ navettes.headD 66 = n.navette seconde violet) :
    (actionsColorer r position type (navettes.headD 66) : List (Atelier.Action τ)) =
      Atelier.arretDe r position ++ [geste r type (n.nom seconde (lieuDe msg position))] := by
  rw [actionsColorer, Atelier.arretDe, lieuDe]
  by_cases hpiste : SurPiste position
  · obtain ⟨violet, hvoyage, hid⟩ := hnavette hpiste
    have hexiste := n.existe seconde violet
    rw [if_pos hpiste, if_pos hpiste, if_pos hpiste, hid, if_neg (by omega), hvoyage]
    rfl
  · rw [if_neg hpiste, if_neg hpiste, if_neg hpiste, Trafic.nom, ← hmsg]
    rfl

/-- The actions of a move of the program. -/
theorem actions_deplacement [Horloge τ] {k : ℕ} {msg : DeplacerPieceMsg} {r : Fin 4}
    (hmsg : numero r = msg.numRobot) (hvoyage : EnVoyage k (.deplacement msg))
    (hne : depart msg ≠ arrivee msg) (temps : τ) (v : Atelier.Vue τ) :
    actions (.deplacerPiece r msg temps (n.navettes msg)) v =
      gestes r msg.positionA msg.positionB (n.nom (decide (11 < k)) (depart msg))
        (n.nom (decide (11 < k)) (arrivee msg)) := by
  obtain ⟨htrip, -, hpiste⟩ := hvoyage
  have hnavettes : SurPiste msg.positionA ∨ SurPiste msg.positionB → ∃ violet,
      voyage msg = some (decide (11 < k), violet) ∧ n.navettes msg =
          [n.navette (decide (11 < k)) violet] := by
    intro hsur
    obtain ⟨⟨seconde, violet⟩, hv⟩ := Option.ne_none_iff_exists'.1 (hpiste hsur)
    have hseconde : seconde = decide (11 < k) := htrip _ hv
    subst hseconde
    exact ⟨violet, hv, by rw [Trafic.navettes, hv]; rfl⟩
  rw [actions, if_pos hmsg, actionsColorer_lieuDe n (decide (11 < k)) hmsg,
    actionsColorer_lieuDe n (decide (11 < k)) hmsg]
  · rfl
  · intro hB
    obtain ⟨violet, hv, hnav⟩ := hnavettes (.inr hB)
    -- the piece comes from a post, so that the answer is for the place where it goes
    have hA : ¬SurPiste msg.positionA := by
      intro hA
      apply hne
      rw [depart, arrivee, lieuDe, lieuDe, if_pos hA, if_pos hB]
    exact ⟨violet, hv, by rw [navettesApres, if_neg hA, hnav]; rfl⟩
  · intro hA
    obtain ⟨violet, hv, hnav⟩ := hnavettes (.inl hA)
    exact ⟨violet, hv, by rw [hnav]; rfl⟩

/-- A post of a move where no task is running. -/
theorem Montre.repos (h : Montre (n.nom seconde) s v) {msg : DeplacerPieceMsg} {r : Fin 4}
    (hmsg : numero r = msg.numRobot) {position : ℤ} (hpos : position ∈ [1, 2, 3, 4])
    (hlibre : (s (lieuDe msg position)).enCours = false) :
    (¬SurPiste position → (s (.poste (numero r) position)).enCours = false) ∧
      arrets r position (v.poste r position) = [] := by
  have hposte : ¬SurPiste position → (s (.poste (numero r) position)).enCours = false := by
    intro hpiste
    rwa [lieuDe, if_neg hpiste, ← hmsg] at hlibre
  refine ⟨hposte, if_neg fun hcontre => ?_⟩
  have h14 : position = 1 ∨ position = 4 := by
    have hpiste := hcontre.1
    simp at hpos
    omega
  rw [h.postes r position h14, hposte hcontre.1] at hcontre
  exact absurd hcontre.2 Bool.false_ne_true

/-- A move leaves the posts of the other robots. -/
theorem poste_gestes_autre (v : Atelier.Vue τ) {r r' : Fin 4} (hr : r' ≠ r) {positionA positionB : ℤ}
    {nomA nomB : String} :
    ((gestes r positionA positionB nomA nomB).foldl Atelier.Vue.apres v).poste r' = v.poste r' := by
  have harret : ∀ (position : ℤ) (v : Atelier.Vue τ),
      ((Atelier.arretDe r position).foldl Atelier.Vue.apres v).poste r' = v.poste r' := by
    intro position v
    rw [Atelier.arretDe]
    split_ifs
    · rfl
    · exact Function.update_of_ne hr _ _
  simp only [gestes, List.foldl_append, List.foldl_cons, List.foldl_nil]
  exact (harret _ _).trans (harret _ _)

/-- A move of the program, which signals nothing. -/
theorem Montre.deplacement (h : Montre (n.nom seconde) s v) {msg : DeplacerPieceMsg} {r : Fin 4}
    (hmsg : numero r = msg.numRobot) (hA : msg.positionA ∈ [1, 2, 3, 4]) (hB : msg.positionB ∈ [1, 2, 3, 4])
    (hposs : s.Possible (.deplacement msg)) :
    Montre (n.nom seconde) (s.effet (.deplacement msg))
        ((gestes r msg.positionA msg.positionB (n.nom seconde (depart msg))
          (n.nom seconde (arrivee msg))).foldl Atelier.Vue.apres v) ∧
      signaux v (gestes r msg.positionA msg.positionB (n.nom seconde (depart msg))
        (n.nom seconde (arrivee msg))) = [] := by
  obtain ⟨⟨hdepart, harrivee, hne⟩, henCours, hlibre, hvide⟩ := hposs
  obtain ⟨hreposA, harretsA⟩ := h.repos hmsg hA henCours
  obtain ⟨hreposB, harretsB⟩ := h.repos hmsg hB hlibre
  have hnom : n.nom seconde (arrivee msg) ≠ n.nom seconde (depart msg) := fun hnom =>
    hne (nom_injective n seconde harrivee hdepart hnom).symm
  have hpince : v.pince r = Pile.vide := h.pince r
  constructor
  · set v₁ : Atelier.Vue τ := v.peindre (n.nom seconde (depart msg)) Pile.vide with hv₁
    have hprise : Montre (n.nom seconde) (Function.update s (depart msg) ⟨[], (s (depart msg)).enCours⟩) v₁ :=
      h.peindre hdepart rfl rfl rfl rfl
    refine hprise.ecrire harrivee ?_ ?_ ?_ fun r' position hpos => ?_
    · rw [pile_gestes, hpince, h.pile _ hdepart, hvide]
      rfl
    · funext r'
      by_cases hr : r' = r
      · rw [hr, pince_gestes]
        exact hpince.symm
      · simp [gestes, List.foldl_append, Atelier.Vue.apres, Atelier.Vue.peindre, Atelier.Vue.tenir,
          Atelier.Vue.ecraser, hr, hv₁]
    · have hevacues : ∀ (position : ℤ) (v : Atelier.Vue τ),
          ((Atelier.arretDe r position).foldl Atelier.Vue.apres v).evacues = v.evacues := by
        intro position v
        rw [Atelier.arretDe]
        split_ifs <;> rfl
      simp only [gestes, List.foldl_append, List.foldl_cons, List.foldl_nil]
      exact (hevacues _ _).trans (hevacues _ _)
    · have hgestes : (((gestes r msg.positionA msg.positionB (n.nom seconde (depart msg))
          (n.nom seconde (arrivee msg))).foldl Atelier.Vue.apres v).poste r' position).taskEnCours =
          (v.poste r' position).taskEnCours := by
        by_cases hr : r' = r
        -- the posts that the move stops had no task
        · subst hr
          rw [poste_gestes v r' _ _ hA hB hpos]
          split_ifs with hici
          · have hpiste : ¬(position = 2 ∨ position = 3) := by omega
            rw [Poste.taskEnCours_stopTask, h.postes r' position hpos]
            rcases hici with hici | hici
            · rw [hici] at hpiste ⊢
              exact (hreposA hpiste).symm
            · rw [hici] at hpiste ⊢
              exact (hreposB hpiste).symm
          · rfl
        · rw [poste_gestes_autre v hr]
      rw [hgestes]
      split_ifs with hici
      · rw [h.postes r' position hpos, hici]
      · rfl
  · rw [signaux_gestes _ _ _ _ hA hB, harretsA, harretsB, hpince, Function.update_of_ne hnom,
      h.pile _ harrivee, Contenu.pile_vide hvide]
    simp

/-! ## An evacuation and an addition -/

/-- A product leaves. -/
theorem Montre.evacuation (h : Montre (n.nom seconde) s v) (hposs : s.Possible .evacuation) :
    Montre (n.nom seconde) (s.effet .evacuation) (v.apres .evacuation) := by
  obtain ⟨-, hvisible⟩ := hposs
  have hexiste : posteEvacue.Existe := ⟨by decide, .inl rfl⟩
  obtain ⟨e, he, -, hpile, -⟩ := h.produit hexiste le_rfl hvisible
  change v.pile (tableDe 2 1).1 = Pile.ofList e at hpile
  have hvide : Montre (n.nom seconde) (Function.update s posteEvacue ⟨[], (s posteEvacue).enCours⟩)
      (v.peindre (tableDe 2 1).1 Pile.vide) := h.peindre hexiste rfl rfl rfl rfl
  have hsortie : ∀ p : Place, p.Existe → p ≠ .sortie := by
    rintro p hp rfl
    exact hp
  refine ⟨fun p hp => ?_, hvide.autres, hvide.pince, fun r position hpos => ?_, ?_⟩
  · rw [Etat.effet, Etat.transferer, Function.update_of_ne (hsortie p hp)]
    exact hvide.pile p hp
  · rw [Etat.effet, Etat.transferer, Function.update_of_ne (hsortie _ (Place.existe_poste r hpos))]
    exact hvide.postes r position hpos
  · rw [Etat.effet, Etat.transferer, Function.update_self, he, List.map_append, ← h.evacues,
      Atelier.Vue.apres,
      hpile]
    rfl

/-- The stack of a fresh product. -/
theorem ofList_pileProduit (produit : ℤ) :
    Pile.ofList (CommandeLocale.pileProduit produit) = Pile.ofList [produit * 10 + 4] := by
  funext i
  fin_cases i <;> rfl

/-- The post of a product. -/
theorem poste_ajoute {q : ℤ} (hq : 1 ≤ q ∧ q ≤ 8) : ∃ r position, (position = 1 ∨ position = 4) ∧
    Commande.computeFromNumPoste q = some (numero r, position) ∧
    CommandeLocale.computeNumRobotPosteTache q = some (numero r, position) ∧
    CommandeLocale.nomTable (CommandeLocale.computeTableId q) = (table r position).1 := by
  have key : ∀ q ∈ ([1, 2, 3, 4, 5, 6, 7, 8] : List ℤ),
      Commande.computeFromNumPoste q = CommandeLocale.computeNumRobotPosteTache q := by decide
  obtain ⟨r, position, hpos, hcible, -, hnom⟩ := poste_valide hq
  exact ⟨r, position, hpos, (key q (by simp; omega)).trans hcible, hcible, hnom⟩

/-- A product is added, on a post that is free. -/
theorem Montre.ajout [Horloge τ] (h : Montre (n.nom seconde) s v) {q produit : ℤ}
    (hposs : s.Possible (.ajout q produit)) :
    (v.pile (CommandeLocale.nomTable (CommandeLocale.computeTableId q))).base = 0 ∧
      Montre (n.nom seconde) (s.effet (.ajout q produit))
        ((actions (.ajouterProduit produit q) v).foldl Atelier.Vue.apres v) := by
  obtain ⟨hq, hlibre⟩ := hposs
  obtain ⟨r, position, hpos, hposte, hcible, hnom⟩ := poste_ajoute hq
  have hexiste := Place.existe_poste r hpos
  obtain ⟨henCours, hvide⟩ := hlibre _ hposte
  have hpile : v.pile (table r position).1 = Pile.vide :=
    (h.pile _ hexiste).trans (Contenu.pile_vide hvide)
  have hbase : (v.pile (table r position).1).base = 0 := by
    rw [hpile]
    rfl
  refine ⟨hnom ▸ hbase, ?_⟩
  simp only [actions, hcible, hnom, hbase, ne_eq, not_true_eq_false, if_false, List.nil_append,
    Etat.effet, hposte, Option.elim]
  refine h.peindre hexiste ?_ rfl rfl rfl
  show Function.update v.pile (table r position).1 _ = Function.update v.pile (table r position).1 _
  rw [ofList_pileProduit]
  rfl

end Montre

end Usine
