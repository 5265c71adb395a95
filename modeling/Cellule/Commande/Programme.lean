import Cellule.Commande.Marquage
import Cellule.Lib.History

/-! # The program of the net

The main branch of the net is a chain. Whatever the sensors show, however long the robots take and
whatever is added on the console, the transitions of the chain are fired in its order, each once, so
that the commands published are a prefix of one list.
-/

namespace Commande

open Boucle (Franchissable)

/-- The transitions of the main branch. -/
def chaine : List Transition := transitions.filter fun t => t.place ∈ principales

/-- The transitions of the side branch. -/
def branche : List Transition := transitions.filter fun t => t.place ∈ laterales

/-- What a statement publishes, with four robots. -/
def Action.publications : Action → List Publication
  | .ajouterProduit poste produit => ((RobotsInterface.initial 4).ajouterProduit poste produit).2
  | .faireTache poste duree => ((RobotsInterface.initial 4).faireTache poste duree).2
  | .deplacerPiece numRobot positionA positionB =>
      ((RobotsInterface.initial 4).deplacerPiece numRobot positionA positionB).2
  | .evacuer => (RobotsInterface.initial 4).evacuer.2
  | _ => []

/-- What a transition publishes. -/
def Transition.publications (t : Transition) : List Publication := t.actions.flatMap Action.publications

/-- What the main branch publishes. -/
def programme : List Publication := chaine.flatMap Transition.publications

/-- The transition that a step fires. -/
def Petri.tirees (s : Petri) : Evenement → List Transition
  | .suivant =>
      match s.reste with
      | [] => []
      | t :: _ => if Franchissable s t then [t] else []
  | _ => []

/-- The steps of the net. -/
abbrev Petri.Avance (s : Petri) (ev : Evenement) (s' : Petri) : Prop := s.etape ev = some s'

/-- The transitions fired in a recorded run. -/
def tirees (recit : List (Reactive.Transition Petri Evenement)) : List Transition :=
  recit.flatMap fun e => e.before.tirees e.label

/-! ## The chain -/

/-- The marked place once `k` transitions of the chain were fired. -/
def placeDe (k : ℕ) : ℕ := (chaine[k]?.map Transition.place).getD placeFin

/-- The marked place of the side branch, which is entered at the transition 14 of the chain, once
`j` of its transitions were fired. -/
def coteDe (k j : ℕ) : Option ℕ := if k ≤ 14 then none else branche[j]?.map Transition.place

theorem length_chaine : chaine.length = 26 := by decide

theorem length_branche : branche.length = 2 := by decide

theorem nodup_places : (transitions.map Transition.place).Nodup := by decide

/-- A transition is known by its place. -/
theorem transition_unique {t t' : Transition} (ht : t ∈ transitions) (ht' : t' ∈ transitions)
    (h : t.place = t'.place) : t = t' := List.inj_on_of_nodup_map nodup_places ht ht' h

theorem placeDe_principale : ∀ k ∈ List.range 27, placeDe k ∈ principales := by decide

theorem placeDe_eq_placeFin : ∀ k ∈ List.range 27, placeDe k = placeFin → k = 26 := by decide

theorem placeFin_notMem : ∀ t ∈ transitions, t.place ≠ placeFin := by decide

/-- The chain on views. -/
theorem franchir_chaine : ∀ v ∈ permises, ∀ k ∈ List.range 26, ∀ j ∈ List.range 3,
    v.place = some (placeDe k) → v.cote = coteDe k j → (k ≤ 14 → j = 0) →
      ∃ t ∈ chaine[k]?, ∃ v' ∈ v.franchir t,
        v'.place = some (placeDe (k + 1)) ∧ v'.cote = coteDe (k + 1) j := by
  decide +kernel

/-- The side branch on views. -/
theorem franchir_branche : ∀ v ∈ permises, ∀ j ∈ List.range 2, ∀ t ∈ branche[j]?,
    v.cote = some t.place →
      ∃ v' ∈ v.franchir t, v'.place = v.place ∧ v'.cote = branche[j + 1]?.map Transition.place := by
  decide +kernel

/-- The side branch publishes nothing. -/
theorem publications_branche : ∀ t ∈ branche, t.publications = [] := by decide

/-! ## What is published -/

section Publications

variable {s s' : Petri} {v : Vue}

theorem publiees_appeler (s : Petri) (r : RobotsInterface × List Publication) :
    (s.appeler r).publiees.map Prod.fst = s.publiees.map Prod.fst ++ r.2 ∧
      (s.appeler r).robot = r.1 := by
  obtain ⟨robot, ps⟩ := r
  have hpublier : ∀ (ps : List Publication) (s : Petri),
      (ps.foldl Petri.publier s).publiees.map Prod.fst = s.publiees.map Prod.fst ++ ps ∧
        (ps.foldl Petri.publier s).robot = s.robot := by
    intro ps
    induction ps with
    | nil => exact fun s => ⟨(List.append_nil _).symm, rfl⟩
    | cons p ps ih =>
      intro s
      obtain ⟨hpubliees, hrobot⟩ := ih (s.publier p)
      refine ⟨?_, hrobot⟩
      rw [List.foldl_cons, hpubliees, Petri.publier, List.map_append, List.append_assoc]
      rfl
  exact hpublier ps { s with robot }

/-- A statement publishes what is said of it, and keeps the number of robots. -/
theorem publiees_executer (hnb : s.robot.nbRobot = 4) (a : Action) :
    (s.executer a).publiees.map Prod.fst = s.publiees.map Prod.fst ++ a.publications ∧
      (s.executer a).robot.nbRobot = 4 := by
  cases a with
  | ajouterProduit poste produit =>
    obtain ⟨hpubliees, hrobot⟩ := publiees_appeler s (s.robot.ajouterProduit poste produit)
    rw [Petri.executer, hpubliees, hrobot, Action.publications]
    unfold RobotsInterface.ajouterProduit
    rw [hnb]
    show _ = _ ++ (if 1 ≤ poste ∧ poste ≤ 4 * 2 then _ else _ : RobotsInterface × List Publication).2 ∧ _
    split_ifs
    · exact ⟨rfl, rfl⟩
    · exact ⟨rfl, hnb⟩
    · exact ⟨rfl, hnb⟩
  | faireTache poste duree =>
    obtain ⟨hpubliees, hrobot⟩ := publiees_appeler s (s.robot.faireTache poste duree)
    rw [Petri.executer, hpubliees, hrobot, Action.publications]
    unfold RobotsInterface.faireTache
    rw [hnb]
    show _ = _ ++ (if 1 ≤ poste ∧ poste ≤ 4 * 2 then _ else _ : RobotsInterface × List Publication).2 ∧ _
    cases computeFromNumPoste poste <;> split_ifs <;> exact ⟨rfl, hnb⟩
  | deplacerPiece numRobot positionA positionB =>
    obtain ⟨hpubliees, hrobot⟩ :=
      publiees_appeler s (s.robot.deplacerPiece numRobot positionA positionB)
    rw [Petri.executer, hpubliees, hrobot, Action.publications]
    unfold RobotsInterface.deplacerPiece
    rw [hnb]
    show _ = _ ++ (if 1 ≤ numRobot ∧ numRobot ≤ 4 then _ else _ : RobotsInterface × List Publication).2 ∧ _
    split_ifs <;> exact ⟨rfl, hnb⟩
  | evacuer =>
    obtain ⟨hpubliees, hrobot⟩ := publiees_appeler s s.robot.evacuer
    exact ⟨hpubliees, hrobot ▸ hnb⟩
  | marquer | stopPS | ouvrirPS | sortirErgot | droite | gauche =>
    exact ⟨(List.append_nil _).symm, hnb⟩

theorem publiees_foldl (hnb : s.robot.nbRobot = 4) (as : List Action) :
    (as.foldl Petri.executer s).publiees.map Prod.fst =
      s.publiees.map Prod.fst ++ as.flatMap Action.publications := by
  induction as generalizing s with
  | nil => exact (List.append_nil _).symm
  | cons a as ih =>
    obtain ⟨hpubliees, hnb'⟩ := publiees_executer hnb a
    rw [List.foldl_cons, ih hnb', hpubliees, List.flatMap_cons, List.append_assoc]

/-- The drain of the products changes the marking and the codes that wait. -/
theorem ajouterProduits_cadre (n : ℕ) (s : Petri) : ∃ M produitAAjouter,
    s.ajouterProduits n = { s with M, robot := { s.robot with produitAAjouter } } := by
  induction n generalizing s with
  | zero => exact ⟨_, _, rfl⟩
  | succ n ih =>
    have hcode : ∃ produitAAjouter,
        s.robot.ajoutProduitEnAttente.1 = { s.robot with produitAAjouter } := by
      unfold RobotsInterface.ajoutProduitEnAttente
      split
      · exact ⟨_, rfl⟩
      · exact ⟨_, rfl⟩
    obtain ⟨codes, hcodes⟩ := hcode
    rw [Petri.ajouterProduits, hcodes]
    dsimp only
    split_ifs
    · obtain ⟨M, codes', hM⟩ :=
        ih (({ s with robot := { s.robot with produitAAjouter := codes } } : Petri).marquer
          (500 + s.robot.ajoutProduitEnAttente.2.toNat) 1)
      exact ⟨M, codes', hM⟩
    · exact ⟨_, _, rfl⟩

/-- Between the tests nothing is published and the view stays. -/
theorem Conforme.hors_test {ev : Evenement} (h : Conforme v s) (hev : ev ≠ .suivant)
    (hs : s.etape ev = some s') : Conforme v s' ∧ s'.publiees = s.publiees ∧ s'.fini = s.fini := by
  cases ev with
  | suivant => exact absurd rfl hev
  | iterer c =>
    rw [Petri.etape] at hs
    split_ifs at hs
    cases hs
    have hdebut := h.ajouterProduits (s.robot.produitAAjouter.length + 1)
    obtain ⟨M, codes, hcadre⟩ := ajouterProduits_cadre (s.robot.produitAAjouter.length + 1) s
    refine ⟨{ hdebut with }, ?_⟩
    rw [Petri.debut, hcadre]
    exact ⟨rfl, rfl⟩
  | retour numRobot data =>
    rw [Petri.etape] at hs
    split_ifs at hs
    obtain ⟨e, he, rfl⟩ := Option.map_eq_some_iff.1 hs
    obtain ⟨haccorde, hdep, htaches⟩ := h.accorde.repondre he
    exact ⟨h.robot haccorde hdep htaches, rfl, rfl⟩
  | pushBack poste produit =>
    rw [Petri.etape] at hs
    split_ifs at hs with hpush
    cases hs
    have hcodes : CodesValides (s.robot.productAddPushBack poste produit).produitAAjouter :=
      h.accorde.codes.push hpush.2
    exact ⟨h.robot { h.accorde with codes := hcodes } (fun _ => le_rfl) fun _ => le_rfl, rfl, rfl⟩
  | play b =>
    rw [Petri.etape] at hs
    split_ifs at hs
    cases hs
    exact ⟨{ h with }, rfl, rfl⟩

end Publications

/-! ## The advance -/

/-- `k` transitions of the chain and `j` of the side branch were fired. -/
structure Avancement (k j : ℕ) (tires : List Transition) (s : Petri) : Prop where
  conforme : ∃ v ∈ permises, Conforme v s ∧ v.place = some (placeDe k) ∧ v.cote = coteDe k j
  k_le : k ≤ 26
  j_le : j ≤ 2
  entree : k ≤ 14 → j = 0
  reste : ∀ t ∈ s.reste, t ∈ transitions
  principales : (tires.filter fun t => t.place ∈ principales) = chaine.take k
  laterales : (tires.filter fun t => t.place ∈ laterales) = branche.take j
  publiees : s.publiees.map Prod.fst = (chaine.take k).flatMap Transition.publications
  fini : s.fini = true → k = 26

section Avancement

variable {k j : ℕ} {tires : List Transition} {s s' : Petri} {t : Transition}

theorem avancement_initial : Avancement 0 0 [] .initial where
  conforme := by
    obtain ⟨v, hv, hconf⟩ := reglee_initial.conforme
    obtain ⟨q, hq, hplace⟩ := places_permises v hv
    have hcote : v.place = some 0 := by
      have hM := hconf.principales 0 (by decide)
      by_contra hne
      rw [if_neg hne] at hM
      exact absurd hM (by decide)
    have hcotes : ∀ v ∈ permises, v.place = some 0 → v.cote = none := by decide +kernel
    exact ⟨v, hv, hconf, hcote, hcotes v hv hcote⟩
  k_le := Nat.zero_le _
  j_le := Nat.zero_le _
  entree _ := rfl
  reste := reglee_initial.reste
  principales := rfl
  laterales := rfl
  publiees := rfl
  fini h := by cases h

/-- A step other than a test. -/
theorem Avancement.hors_test (h : Avancement k j tires s) {ev : Evenement} (hev : ev ≠ .suivant)
    (hs : s.etape ev = some s') : Avancement k j tires s' := by
  obtain ⟨v, hv, hconf, hplace, hcote⟩ := h.conforme
  obtain ⟨hconf', hpubliees, hfini⟩ := hconf.hors_test hev hs
  have hreglee : Reglee s' := Reglee.etape ⟨⟨v, hv, hconf⟩, h.reste⟩ hs
  exact
    { h with
      conforme := ⟨v, hv, hconf', hplace, hcote⟩
      reste := hreglee.reste
      publiees := hpubliees ▸ h.publiees
      fini := hfini ▸ h.fini }

/-- The statements of a transition that is fired, on the view. -/
theorem conforme_tester {v v' : Vue} (hv : v ∈ permises) (hconf : Conforme v s) (ht : t ∈ transitions)
    (hfire : Franchissable s t) (hv' : v.franchir t = some v') :
    ∃ w ∈ permises, Conforme w (s.tester t) ∧ w.place = v'.place ∧ w.cote = v'.cote := by
  obtain ⟨hM, hconds⟩ := hfire
  have hplace := hconf.place_of_marque (places_transitions t ht) hM
  obtain ⟨w, hw, v'', hfranchir, hinclus⟩ := franchir_permises v hv t ht hplace
  cases hv'.symm.trans hfranchir
  have hfin := Reactive.abstract_foldlM Conforme.executer (hconf.foldl_apprendre hconds) hv'
  refine ⟨w, hw, ?_, hinclus.1.symm, hinclus.2.1.symm⟩
  rw [Petri.tester, if_pos ⟨hM, hconds⟩]
  exact hfin.mono hinclus

/-- A transition of the main branch that is fired is the next of the chain. -/
theorem Avancement.suivante (h : Avancement k j tires s) (ht : t ∈ transitions)
    (hprincipale : t.place ∈ Commande.principales) (hM : s.M t.place ≠ 0) :
    k < 26 ∧ chaine[k]? = some t := by
  obtain ⟨v, -, hconf, hplace, -⟩ := h.conforme
  have hk := h.k_le
  have hdisjoint : ∀ q ∈ Commande.principales, q ∉ Commande.laterales := by decide
  have hmarque : v.place = some t.place := by
    by_contra hne
    exact hM ((hconf.principales t.place hprincipale).trans (if_neg hne))
  have heq : placeDe k = t.place := Option.some.inj (hplace.symm.trans hmarque)
  have hlt : k < 26 := by
    refine lt_of_le_of_ne hk ?_
    rintro rfl
    exact placeFin_notMem t ht heq.symm
  have hlen : k < chaine.length := length_chaine ▸ hlt
  refine ⟨hlt, ?_⟩
  rw [List.getElem?_eq_getElem hlen]
  have hmem : chaine[k] ∈ transitions := List.mem_of_mem_filter (List.getElem_mem hlen)
  rw [placeDe, List.getElem?_eq_getElem hlen] at heq
  exact congrArg some (transition_unique hmem ht heq)

/-- A transition of the side branch that is fired is its next one. -/
theorem Avancement.suivante_cote (h : Avancement k j tires s) (ht : t ∈ transitions)
    (hlaterale : t.place ∈ Commande.laterales) (hM : s.M t.place ≠ 0) :
    14 < k ∧ j < 2 ∧ branche[j]? = some t := by
  obtain ⟨v, -, hconf, -, hcote⟩ := h.conforme
  have hmarque : v.cote = some t.place := by
    by_contra hne
    exact hM ((hconf.laterales t.place hlaterale).trans (if_neg hne))
  have heq : coteDe k j = some t.place := hcote.symm.trans hmarque
  unfold coteDe at heq
  split_ifs at heq with hk
  obtain ⟨t', ht', hplace⟩ := Option.map_eq_some_iff.1 heq
  have hlt : j < branche.length := (List.getElem?_eq_some_iff.1 ht').1
  have hmem : t' ∈ transitions := List.mem_of_mem_filter (List.mem_of_getElem? ht')
  exact ⟨not_le.1 hk, length_branche ▸ hlt, transition_unique hmem ht hplace ▸ ht'⟩

/-- A test leaves the sensors, and does not end the loop. -/
theorem tester_cadre (s : Petri) (t : Transition) :
    (s.tester t).fini = s.fini ∧ (s.tester t).capteurs = s.capteurs := by
  have hpublier : ∀ (ps : List Publication) (s : Petri), (ps.foldl Petri.publier s).fini = s.fini ∧
      (ps.foldl Petri.publier s).capteurs = s.capteurs := by
    intro ps
    induction ps with
    | nil => exact fun _ => ⟨rfl, rfl⟩
    | cons p ps ih => exact fun s => ih (s.publier p)
  have hactions : ∀ (as : List Action) (s : Petri), (as.foldl Petri.executer s).fini = s.fini ∧
      (as.foldl Petri.executer s).capteurs = s.capteurs := by
    intro as
    induction as with
    | nil => exact fun _ => ⟨rfl, rfl⟩
    | cons a as ih =>
      intro s
      have ha : (s.executer a).fini = s.fini ∧ (s.executer a).capteurs = s.capteurs := by
        cases a <;> first | exact ⟨rfl, rfl⟩ | exact hpublier _ _
      obtain ⟨hfini, hcapteurs⟩ := ih (s.executer a)
      exact ⟨hfini.trans ha.1, hcapteurs.trans ha.2⟩
  unfold Petri.tester
  split_ifs
  · exact hactions _ _
  · exact ⟨rfl, rfl⟩

/-- A transition that is fired advances the branch that it is on. -/
theorem Avancement.tirer (h : Avancement k j tires s) (ht : t ∈ transitions)
    (hfire : Franchissable s t) :
    (t.place ∈ Commande.principales ∧ k < 26 ∧ Avancement (k + 1) j (tires ++ [t]) (s.tester t)) ∨
      t.place ∈ Commande.laterales ∧ Avancement k (j + 1) (tires ++ [t]) (s.tester t) := by
  obtain ⟨v, hv, hconf, hplace, hcote⟩ := h.conforme
  have hdisjoint : ∀ q ∈ Commande.principales, q ∉ Commande.laterales := by decide
  have hpubliees : (s.tester t).publiees.map Prod.fst =
      (chaine.take k).flatMap Transition.publications ++ t.publications := by
    obtain ⟨hM, hconds⟩ := hfire
    rw [Petri.tester, if_pos ⟨hM, hconds⟩, publiees_foldl hconf.accorde.nbRobot, h.publiees]
    rfl
  have hreste : ∀ t' ∈ (s.tester t).reste, t' ∈ transitions := by
    rw [tester_reste]
    exact h.reste
  have hfini := (tester_cadre s t).1
  rcases places_transitions t ht with hprincipale | hlaterale
  · obtain ⟨hk, hchaine⟩ := h.suivante ht hprincipale hfire.1
    obtain ⟨t', ht', v', hv', hplace', hcote'⟩ := franchir_chaine v hv k (List.mem_range.2 hk) j
      (List.mem_range.2 (Nat.lt_succ_of_le h.j_le)) hplace hcote h.entree
    cases hchaine.symm.trans ht'
    obtain ⟨w, hw, hconfw, hplacew, hcotew⟩ := conforme_tester hv hconf ht hfire hv'
    exact .inl ⟨hprincipale, hk,
      { conforme := ⟨w, hw, hconfw, hplacew.trans hplace', hcotew.trans hcote'⟩
        k_le := hk
        j_le := h.j_le
        entree := fun hle => h.entree (by omega)
        reste := hreste
        principales := by
          rw [List.filter_append, h.principales, List.take_add_one, hchaine]
          simp [hprincipale]
        laterales := by
          rw [List.filter_append, h.laterales]
          simp [hdisjoint _ hprincipale]
        publiees := by
          rw [hpubliees, List.take_add_one, hchaine, List.flatMap_append]
          simp
        fini := fun hf => by
          have hk' := h.fini (hfini ▸ hf)
          omega }⟩
  · have hnp : t.place ∉ Commande.principales := fun hp => hdisjoint _ hp hlaterale
    obtain ⟨hk, hj, hbranche⟩ := h.suivante_cote ht hlaterale hfire.1
    have hcote₁ : v.cote = some t.place := by
      rw [hcote, coteDe, if_neg (by omega), hbranche]
      rfl
    obtain ⟨v', hv', hplace', hcote'⟩ := franchir_branche v hv j (List.mem_range.2 hj) t hbranche hcote₁
    obtain ⟨w, hw, hconfw, hplacew, hcotew⟩ := conforme_tester hv hconf ht hfire hv'
    exact .inr ⟨hlaterale,
      { conforme := by
          refine ⟨w, hw, hconfw, hplacew.trans (hplace'.trans hplace), ?_⟩
          rw [hcotew, hcote', coteDe, if_neg (by omega)]
        k_le := h.k_le
        j_le := hj
        entree := fun hle => by omega
        reste := hreste
        principales := by
          rw [List.filter_append, h.principales]
          simp [hnp]
        laterales := by
          rw [List.filter_append, h.laterales, List.take_add_one, hbranche]
          simp [hlaterale]
        publiees := by
          rw [hpubliees, publications_branche t (List.mem_of_getElem? hbranche), List.append_nil]
        fini := fun hf => h.fini (hfini ▸ hf) }⟩

/-- The node stays in its last loop. -/
theorem Avancement.finir (h : Avancement k j tires s) (hM : s.M placeFin ≠ 0) :
    Avancement k j tires { s with fini := true } := by
  obtain ⟨v, hv, hconf, hplace, hcote⟩ := h.conforme
  have hfin : v.place = some placeFin := by
    by_contra hne
    exact hM ((hconf.principales placeFin (by decide)).trans (if_neg hne))
  have hk : placeDe k = placeFin := Option.some.inj (hplace.symm.trans hfin)
  exact
    { h with
      conforme := ⟨v, hv, { hconf with }, hplace, hcote⟩
      fini := fun _ => placeDe_eq_placeFin k (List.mem_range.2 (Nat.lt_succ_of_le h.k_le)) hk }

/-- What a test of the next transition does. -/
theorem Avancement.suivant (h : Avancement k j tires s) (hs : s.etape .suivant = some s') :
    ∃ k' j', k ≤ k' ∧ Avancement k' j' (tires ++ s.tirees .suivant) s' := by
  rw [Petri.etape] at hs
  unfold Petri.tirees
  cases hreste : s.reste with
  | nil =>
    rw [hreste] at hs
    cases hs
  | cons t reste =>
    rw [hreste] at hs
    cases hs
    have ht : t ∈ transitions := h.reste t (hreste ▸ List.mem_cons_self)
    obtain ⟨v, hv, hconf, hplace⟩ := h.conforme
    have hs₁ : Avancement k j tires { s with reste } :=
      { h with
        conforme := ⟨v, hv, { hconf with }, hplace⟩
        reste := fun t ht => h.reste t (hreste ▸ List.mem_cons_of_mem _ ht) }
    have hs₂ : ∃ k' j', k ≤ k' ∧ Avancement k' j' (tires ++ if Franchissable s t then [t] else [])
        ({ s with reste }.tester t) := by
      by_cases hfire : Franchissable s t
      · rw [if_pos hfire]
        rcases hs₁.tirer ht hfire with ⟨-, -, hs₂⟩ | ⟨-, hs₂⟩
        · exact ⟨_, _, Nat.le_succ k, hs₂⟩
        · exact ⟨_, _, le_rfl, hs₂⟩
      · have hneg : ({ s with reste } : Petri).tester t = { s with reste } := if_neg hfire
        rw [if_neg hfire, List.append_nil, hneg]
        exact ⟨k, j, le_rfl, hs₁⟩
    obtain ⟨k', j', hle, hs₂⟩ := hs₂
    refine ⟨k', j', hle, ?_⟩
    by_cases hfin : reste = [] ∧ (({ s with reste } : Petri).tester t).M placeFin ≠ 0
    · rw [if_pos hfin]
      exact hs₂.finir hfin.2
    · rw [if_neg hfin]
      exact hs₂

/-- Every step. -/
theorem Avancement.etape (h : Avancement k j tires s) {ev : Evenement} (hs : s.etape ev = some s') :
    ∃ k' j', Avancement k' j' (tires ++ s.tirees ev) s' := by
  by_cases hev : ev = .suivant
  · subst hev
    obtain ⟨k', j', -, hs'⟩ := h.suivant hs
    exact ⟨k', j', hs'⟩
  · have htirees : s.tirees ev = [] := by
      cases ev <;> first | rfl | exact absurd rfl hev
    rw [htirees, List.append_nil]
    exact ⟨k, j, h.hors_test hev hs⟩

end Avancement

/-- Where the net stands after a recorded run. -/
theorem avancement_of_run {recit : List (Reactive.Transition Petri Evenement)} {s : Petri}
    (h : Reactive.Run (Reactive.Recorded Petri.Avance) .initial recit s) :
    ∃ k j, Avancement k j (tirees recit) s := by
  have hstep : ∀ recit s e s', (∃ k j, Avancement k j (tirees recit) s) →
      Reactive.Recorded Petri.Avance s e s' → ∃ k j, Avancement k j (tirees (recit ++ [e])) s' := by
    rintro recit s e s' ⟨k, j, hs⟩ ⟨rfl, -, hetape⟩
    have htirees : tirees (recit ++ [e]) = tirees recit ++ e.before.tirees e.label := by
      simp [tirees]
    rw [htirees]
    exact hs.etape hetape
  exact h.invariant ⟨0, 0, avancement_initial⟩ hstep

/-- The transitions of the main branch are fired in the order of the chain, and those of the side
branch in theirs, so that the commands published are the first ones of the program; when the node
has ended, they are the whole of it. -/
theorem programme_suivi {recit : List (Reactive.Transition Petri Evenement)} {s : Petri}
    (h : Reactive.Run (Reactive.Recorded Petri.Avance) .initial recit s) :
    ((tirees recit).filter fun t => t.place ∈ principales) <+: chaine ∧
      ((tirees recit).filter fun t => t.place ∈ laterales) <+: branche ∧
      s.publiees.map Prod.fst <+: programme ∧
      (s.fini = true → ((tirees recit).filter fun t => t.place ∈ principales) = chaine ∧
        s.publiees.map Prod.fst = programme) := by
  obtain ⟨k, j, hs⟩ := avancement_of_run h
  rw [hs.principales, hs.laterales, hs.publiees]
  refine ⟨List.take_prefix _ _, List.take_prefix _ _, ?_, fun hfini => ?_⟩
  · exact (List.take_prefix k chaine).flatMap _
  · have hk : chaine.take k = chaine := List.take_of_length_le (by rw [hs.fini hfini, length_chaine])
    rw [hk]
    exact ⟨rfl, rfl⟩

/-- The first two transitions. -/
theorem programme_suivi_debut : ∃ recit s,
    Reactive.Run (Reactive.Recorded Petri.Avance) .initial recit s ∧
      s.publiees.length = 5 ∧ s.publiees.map Prod.fst <+: programme := by
  have hrun : Reactive.Run Petri.Avance .initial
      [.play true, .iterer { Capteurs.initial with PSx := fun _ => true }, .suivant, .suivant] _ :=
    (((Reactive.Run.nil.snoc rfl).snoc rfl).snoc rfl).snoc rfl
  obtain ⟨recit, hrecit, -⟩ := hrun.recorded
  exact ⟨recit, _, hrecit, rfl, (programme_suivi hrecit).2.2.1⟩

end Commande
