import Cellule.Commande.Programme
import Cellule.Lib.Progress

/-! # The end of the program

The net never locks itself. Whatever has happened so far, if the robots answer what they were asked
and the shuttles come and go as the net awaits them, the node goes through the rest of its program,
without anything being added on the console.
-/

namespace Commande

open Boucle (Franchissable)
open Reactive (Reaches Run)

/-- A step in which nothing is added on the console. -/
def Petri.Seule (s : Petri) (ev : Evenement) (s' : Petri) : Prop :=
  s.Avance ev s' ∧ ∀ poste produit, ev ≠ .pushBack poste produit

/-- A test of the transition that is next. -/
def Petri.Teste (s : Petri) (ev : Evenement) (s' : Petri) : Prop := s.Avance ev s' ∧ ev = .suivant

theorem Petri.Teste.seule {s s' : Petri} {ev : Evenement} (h : s.Teste ev s') : s.Seule ev s' := by
  obtain ⟨hetape, rfl⟩ := h
  exact ⟨hetape, fun _ _ h => by cases h⟩

/-- The post of a task. -/
def Publication.poste : Publication → Option (ℤ × ℤ)
  | .faireTache msg => some (msg.numRobot, msg.position)
  | _ => none

/-- A flag that is down is that of a command that is still to be answered. -/
structure Attente (s : Petri) : Prop where
  deplacements : ∀ r, s.robot.robotMacroDeplacement r = 0 → s.enCours.deplacements r ≠ 0
  taches : ∀ poste ∈ (s.publiees.map Prod.fst).filterMap Publication.poste,
    s.robot.robotTask poste = 0 → s.enCours.taches poste ≠ 0

section Attente

variable {s s' : Petri}

/-- Only the flags, what is not answered and what was published matter. -/
theorem Attente.congr (h : Attente s)
    (hdep : s'.robot.robotMacroDeplacement = s.robot.robotMacroDeplacement)
    (htask : s'.robot.robotTask = s.robot.robotTask) (henCours : s'.enCours = s.enCours)
    (hpubliees : (s'.publiees.map Prod.fst).filterMap Publication.poste =
      (s.publiees.map Prod.fst).filterMap Publication.poste) : Attente s' where
  deplacements r := by
    rw [hdep, henCours]
    exact h.deplacements r
  taches poste := by
    rw [htask, henCours, hpubliees]
    exact h.taches poste

/-- A publication that is no command to a robot. -/
theorem Attente.publier {p : Publication} (h : Attente s) (hposte : p.poste = none)
    (henCours : s.enCours.emettre p = s.enCours) : Attente (s.publier p) :=
  h.congr rfl rfl henCours (by simp [Petri.publier, hposte])

theorem Attente.faireTache (h : Attente s) (q duree : ℤ) : Attente (s.executer (.faireTache q duree)) := by
  rw [Petri.executer, RobotsInterface.faireTache]
  split_ifs
  · split
    · next numRobot position _ =>
      refine ⟨h.deplacements, fun poste hposte => ?_⟩
      rcases eq_or_ne poste (numRobot, position) with rfl | hne
      · intro _
        show Function.update s.enCours.taches _ _ _ ≠ 0
        rw [Function.update_self]
        exact Nat.succ_ne_zero _
      · show Function.update s.robot.robotTask _ _ _ = 0 → Function.update s.enCours.taches _ _ _ ≠ 0
        rw [Function.update_of_ne hne, Function.update_of_ne hne]
        refine h.taches poste ?_
        simpa [Petri.appeler, Petri.publier, Publication.poste, hne] using hposte
    · exact h.congr rfl rfl rfl rfl
  · exact h.congr rfl rfl rfl rfl

theorem Attente.deplacerPiece (h : Attente s) (r a b : ℤ) :
    Attente (s.executer (.deplacerPiece r a b)) := by
  rw [Petri.executer, RobotsInterface.deplacerPiece]
  split_ifs
  · refine ⟨fun r' => ?_, fun poste hposte => ?_⟩
    · show Function.update s.robot.robotMacroDeplacement _ _ _ = 0 →
        Function.update s.enCours.deplacements _ _ _ ≠ 0
      rcases eq_or_ne r' r with rfl | hne
      · intro _
        rw [Function.update_self]
        exact Nat.succ_ne_zero _
      · rw [Function.update_of_ne hne, Function.update_of_ne hne]
        exact h.deplacements r'
    · refine h.taches poste ?_
      simpa [Petri.appeler, Petri.publier, Publication.poste] using hposte
  · exact h.congr rfl rfl rfl rfl
  · exact h.congr rfl rfl rfl rfl

theorem Attente.ajouterProduit (h : Attente s) (poste produit : ℤ) :
    Attente (s.executer (.ajouterProduit poste produit)) := by
  rw [Petri.executer, RobotsInterface.ajouterProduit]
  split_ifs
  · have hrobot : Attente { s with robot :=
        { s.robot with produitAAjouter := s.robot.produitAAjouter ++ [poste * 10 + produit] } } :=
      h.congr rfl rfl rfl rfl
    exact (hrobot.publier rfl rfl).publier rfl rfl
  · exact h.congr rfl rfl rfl rfl
  · exact h.congr rfl rfl rfl rfl

/-- Every statement. -/
theorem Attente.executer (h : Attente s) (a : Action) : Attente (s.executer a) := by
  cases a with
  | ajouterProduit poste produit => exact h.ajouterProduit poste produit
  | faireTache poste duree => exact h.faireTache poste duree
  | deplacerPiece numRobot positionA positionB => exact h.deplacerPiece numRobot positionA positionB
  | evacuer => exact h.publier (p := .evacuer) rfl rfl
  | marquer i d => exact h.congr rfl rfl rfl rfl
  | stopPS | ouvrirPS | sortirErgot | droite | gauche => exact h

theorem Attente.tester (h : Attente s) (t : Transition) : Attente (s.tester t) := by
  have hfold : ∀ (as : List Action) (s : Petri), Attente s → Attente (as.foldl Petri.executer s) := by
    intro as
    induction as with
    | nil => exact fun _ h => h
    | cons a as ih => exact fun s h => ih _ (h.executer a)
  unfold Petri.tester
  split_ifs
  · exact hfold _ _ h
  · exact h

/-- An answer raises the flag that waits for it. -/
theorem Attente.repondre {e : EnCours} {numRobot data : ℤ} (h : Attente s)
    (he : s.enCours.repondre numRobot data = some e) :
    Attente { s with robot := s.robot.retourRobotCallback numRobot data, enCours := e } := by
  have htache : ∀ position e, s.enCours.repondreTache (numRobot, position) = some e →
      Attente { s with robot := s.robot.setTask (numRobot, position) 1, enCours := e } := by
    intro position e he
    unfold EnCours.repondreTache at he
    split_ifs at he
    cases he
    refine ⟨h.deplacements, fun poste hposte => ?_⟩
    show Function.update s.robot.robotTask _ _ _ = 0 → Function.update s.enCours.taches _ _ _ ≠ 0
    rcases eq_or_ne poste (numRobot, position) with rfl | hne
    · rw [Function.update_self]
      exact fun hone => absurd hone one_ne_zero
    · rw [Function.update_of_ne hne, Function.update_of_ne hne]
      exact h.taches poste hposte
  unfold EnCours.repondre at he
  split_ifs at he with h8 h9 h10
  · subst h8
    exact htache 1 e he
  · subst h9
    exact htache 4 e he
  · subst h10
    cases he
    refine ⟨fun r => ?_, h.taches⟩
    show Function.update s.robot.robotMacroDeplacement _ _ _ = 0 →
      Function.update s.enCours.deplacements _ _ _ ≠ 0
    rcases eq_or_ne r numRobot with rfl | hne
    · rw [Function.update_self]
      exact fun hone => absurd hone one_ne_zero
    · rw [Function.update_of_ne hne, Function.update_of_ne hne]
      exact h.deplacements r
  · cases he
    obtain ⟨-, -, hdeplacement, htask⟩ := s.robot.retourRobotCallback_frame numRobot ⟨h8, h9, h10⟩
    exact h.congr hdeplacement htask rfl rfl

/-- Every step. -/
theorem Attente.etape {ev : Evenement} (h : Attente s) (hs : s.etape ev = some s') : Attente s' := by
  cases ev with
  | iterer c =>
    rw [Petri.etape] at hs
    split_ifs at hs
    cases hs
    obtain ⟨M, codes, hcadre⟩ := ajouterProduits_cadre (s.robot.produitAAjouter.length + 1) s
    rw [Petri.debut, hcadre]
    exact h.congr rfl rfl rfl rfl
  | suivant =>
    rw [Petri.etape] at hs
    cases hreste : s.reste with
    | nil =>
      rw [hreste] at hs
      cases hs
    | cons t reste =>
      rw [hreste] at hs
      cases hs
      have hreste' : Attente { s with reste } := h.congr rfl rfl rfl rfl
      split_ifs
      · exact (hreste'.tester t).congr rfl rfl rfl rfl
      · exact hreste'.tester t
  | retour numRobot data =>
    rw [Petri.etape] at hs
    split_ifs at hs
    obtain ⟨e, he, rfl⟩ := Option.map_eq_some_iff.1 hs
    exact h.repondre he
  | pushBack poste produit =>
    rw [Petri.etape] at hs
    split_ifs at hs
    cases hs
    exact h.congr rfl rfl rfl rfl
  | play b =>
    rw [Petri.etape] at hs
    split_ifs at hs
    cases hs
    exact h.congr rfl rfl rfl rfl

theorem attente_initial : Attente .initial where
  deplacements r h := by cases h
  taches poste h := by cases h

end Attente

/-! ## What the net awaits -/

/-- The sensors as a transition awaits them. -/
def Transition.capteursAttendus (t : Transition) : Capteurs where
  PSx n := decide (.nonPS n ∉ t.conditions)
  DxD _ := true
  DxG _ := true
  CPx _ := true
  CPIx _ := true

/-- Every command was answered. -/
def RobotsInterface.repondu : RobotsInterface := { initial 4 with robotTask := fun _ => 1 }

theorem attendus_vraies : ∀ t ∈ chaine, ∀ cond ∈ t.conditions,
    cond.vraie t.capteursAttendus .repondu := by decide

/-- The end of a task is awaited once `k` transitions of the chain have been fired, of which one
starts a task on the post. -/
def Condition.posee (k : ℕ) : Condition → Bool
  | .tacheFinie q => (computeFromNumPoste q).any fun poste =>
      (((chaine.take k).flatMap Transition.publications).filterMap Publication.poste).any fun p =>
        decide (p = poste)
  | _ => true

theorem taches_posees :
    ∀ k ∈ List.range 26, ∀ t ∈ chaine[k]?, ∀ cond ∈ t.conditions, cond.posee k = true := by
  decide +kernel

/-- A statement that does not call the interface of the robots. -/
def Action.muette : Action → Bool
  | .ajouterProduit _ _ | .faireTache _ _ | .deplacerPiece _ _ _ | .evacuer => false
  | _ => true

theorem branche_muette : ∀ t ∈ branche, ∀ a ∈ t.actions, a.muette = true := by decide

theorem robot_of_muette {a : Action} (ha : a.muette = true) (s : Petri) :
    (s.executer a).robot = s.robot := by
  cases a with
  | ajouterProduit | faireTache | deplacerPiece | evacuer => cases ha
  | marquer | stopPS | ouvrirPS | sortirErgot | droite | gauche => rfl

/-- The side branch does not reach the robots. -/
theorem robot_branche {t : Transition} (ht : t ∈ branche) (s : Petri) :
    (t.actions.foldl Petri.executer s).robot = s.robot := by
  have hfold : ∀ (as : List Action) (s : Petri), (∀ a ∈ as, a.muette = true) →
      (as.foldl Petri.executer s).robot = s.robot := by
    intro as
    induction as with
    | nil => exact fun _ _ => rfl
    | cons a as ih =>
      intro s has
      rw [List.forall_mem_cons] at has
      exact (ih (s.executer a) has.2).trans (robot_of_muette has.1 s)
  exact hfold t.actions s (branche_muette t ht)

/-! ## Answers -/

/-- Between two iterations that play, after `k` transitions of the chain. -/
structure Repos (k : ℕ) (s : Petri) : Prop where
  avancement : ∃ j tires, Avancement k j tires s
  attente : Attente s
  reste : s.reste = []
  play : s.play = true
  fini : s.fini = false

section Reponses

variable {k : ℕ} {s : Petri}

/-- A robot answers. -/
theorem Repos.repondre {e : EnCours} {numRobot data : ℤ} (h : Repos k s)
    (he : s.enCours.repondre numRobot data = some e) :
    Petri.Seule s (.retour numRobot data)
        { s with robot := s.robot.retourRobotCallback numRobot data, enCours := e } ∧
      Repos k { s with robot := s.robot.retourRobotCallback numRobot data, enCours := e } := by
  have hetape : s.etape (.retour numRobot data) =
      some { s with robot := s.robot.retourRobotCallback numRobot data, enCours := e } := by
    rw [Petri.etape, if_pos h.reste, he]
    rfl
  obtain ⟨j, tires, havance⟩ := h.avancement
  have hautre : Evenement.retour numRobot data ≠ .suivant := fun h => by cases h
  exact ⟨⟨hetape, fun _ _ h => by cases h⟩,
    { h with
      avancement := ⟨j, tires, havance.hors_test hautre hetape⟩
      attente := h.attente.etape hetape }⟩

/-- An answer lowers no flag. -/
theorem retourRobotCallback_leve (robot : RobotsInterface) (numRobot data : ℤ) :
    (∀ poste, robot.robotTask poste ≠ 0 →
        (robot.retourRobotCallback numRobot data).robotTask poste ≠ 0) ∧
      ∀ r, robot.robotMacroDeplacement r ≠ 0 →
        (robot.retourRobotCallback numRobot data).robotMacroDeplacement r ≠ 0 := by
  have hleve : ∀ {κ : Type} [DecidableEq κ] (f : κ → ℤ) (x y : κ), f y ≠ 0 →
      Function.update f x 1 y ≠ 0 := by
    intro κ _ f x y hy
    rcases eq_or_ne y x with rfl | hne
    · rw [Function.update_self]
      exact one_ne_zero
    · rwa [Function.update_of_ne hne]
  by_cases h8 : data = 8
  · subst h8
    exact ⟨fun poste => hleve robot.robotTask _ poste, fun _ => id⟩
  · by_cases h9 : data = 9
    · subst h9
      exact ⟨fun poste => hleve robot.robotTask _ poste, fun _ => id⟩
    · by_cases h10 : data = 10
      · subst h10
        exact ⟨fun _ => id, fun r => hleve robot.robotMacroDeplacement _ r⟩
      · obtain ⟨-, -, hdeplacement, htask⟩ := robot.retourRobotCallback_frame numRobot ⟨h8, h9, h10⟩
        rw [hdeplacement, htask]
        exact ⟨fun _ => id, fun _ => id⟩

/-- An answer keeps the tests that succeed. -/
theorem Condition.vraie.retour {c : Capteurs} {robot : RobotsInterface} {cond : Condition}
    (h : cond.vraie c robot) (numRobot data : ℤ) :
    cond.vraie c (robot.retourRobotCallback numRobot data) := by
  have hnb := robot.nbRobot_retourRobotCallback numRobot data
  obtain ⟨htask, hdeplacement⟩ := retourRobotCallback_leve robot numRobot data
  cases cond with
  | tacheFinie q =>
    rw [Condition.vraie, RobotsInterface.tacheFinie] at h ⊢
    rw [hnb]
    split_ifs at h ⊢
    · exact h
    · cases hq : computeFromNumPoste q with
      | none =>
        rw [hq] at h
        exact h
      | some poste =>
        rw [hq] at h
        exact htask poste h
  | finDeplacerPiece r =>
    rw [Condition.vraie, RobotsInterface.finDeplacerPiece] at h ⊢
    rw [hnb]
    split_ifs at h ⊢
    · exact h
    · exact hdeplacement r h
  | ps n | nonPS n | cp n | dg n => exact h

/-- The answer that a test of the next transition waits for can be given. -/
theorem Repos.reponse_attendue {t : Transition} {cond : Condition} (h : Repos k s) (hk : k < 26)
    (ht : chaine[k]? = some t) (hcond : cond ∈ t.conditions)
    (hvraie : ¬cond.vraie t.capteursAttendus s.robot) :
    ∃ r data e, s.enCours.repondre r data = some e ∧
      cond.vraie t.capteursAttendus (s.robot.retourRobotCallback r data) ∧
      (1 ≤ r ∧ r ≤ 4) ∧ (data = 8 ∨ data = 9 ∨ data = 10) := by
  have hrepondu := attendus_vraies t (List.mem_of_getElem? ht) cond hcond
  obtain ⟨j, tires, havance⟩ := h.avancement
  obtain ⟨v, -, hconf, -⟩ := havance.conforme
  have hnb := hconf.accorde.nbRobot
  cases cond with
  | ps | nonPS | cp | dg => exact absurd hrepondu hvraie
  | finDeplacerPiece r =>
    rw [Condition.vraie, RobotsInterface.finDeplacerPiece] at hvraie
    split_ifs at hvraie with hrange
    · exact absurd one_ne_zero hvraie
    · have hdep := h.attente.deplacements r (not_not.1 hvraie)
      refine ⟨r, 10, _, if_neg hdep, ?_, by omega, .inr (.inr rfl)⟩
      rw [Condition.vraie, RobotsInterface.finDeplacerPiece,
        RobotsInterface.nbRobot_retourRobotCallback, if_neg hrange]
      show Function.update s.robot.robotMacroDeplacement r 1 r ≠ 0
      rw [Function.update_self]
      exact one_ne_zero
  | tacheFinie q =>
    have hposee := taches_posees k (List.mem_range.2 hk) t ht _ hcond
    rw [Condition.posee, Option.any_eq_true] at hposee
    obtain ⟨_, hq, hposte⟩ := hposee
    obtain ⟨poste, hposte, heq⟩ := List.any_eq_true.1 hposte
    rw [← of_decide_eq_true heq] at hq
    rw [← havance.publiees] at hposte
    rw [Condition.vraie, RobotsInterface.tacheFinie, hq] at hvraie
    split_ifs at hvraie with hrange
    · exact absurd one_ne_zero hvraie
    · have htache := h.attente.taches poste hposte (not_not.1 hvraie)
      have hfin : ∀ data, (s.robot.retourRobotCallback poste.1 data).robotTask poste ≠ 0 →
          Condition.vraie t.capteursAttendus (s.robot.retourRobotCallback poste.1 data)
            (.tacheFinie q) := by
        intro data hflag
        rw [Condition.vraie, RobotsInterface.tacheFinie,
          RobotsInterface.nbRobot_retourRobotCallback, if_neg hrange, hq]
        exact hflag
      have hun : Function.update s.robot.robotTask poste 1 poste ≠ 0 := by
        rw [Function.update_self]
        exact one_ne_zero
      have hrobot := robot_of_compute hq
      obtain ⟨r, position⟩ := poste
      rcases position_of_compute hq with hposition | hposition
      · subst hposition
        exact ⟨r, 8, _, if_neg htache, hfin 8 hun, hrobot, .inl rfl⟩
      · subst hposition
        exact ⟨r, 9, _, if_neg htache, hfin 9 hun, hrobot, .inr (.inl rfl)⟩

/-- A test of the next transition succeeds once a robot has answered, if it asks a robot. -/
theorem Repos.satisfaire {t : Transition} {cond : Condition} (h : Repos k s) (hk : k < 26)
    (ht : chaine[k]? = some t) (hcond : cond ∈ t.conditions) : ∃ s', Reaches Petri.Seule s s' ∧
      Repos k s' ∧ cond.vraie t.capteursAttendus s'.robot ∧
        ∀ cond' : Condition, cond'.vraie t.capteursAttendus s.robot →
            cond'.vraie t.capteursAttendus s'.robot := by
  by_cases hvraie : cond.vraie t.capteursAttendus s.robot
  · exact ⟨s, .refl s, h, hvraie, fun _ => id⟩
  · obtain ⟨r, data, e, he, hvraie', -⟩ := h.reponse_attendue hk ht hcond hvraie
    obtain ⟨hseule, hrepos⟩ := h.repondre he
    exact ⟨_, .single hseule, hrepos, hvraie', fun _ hautre => hautre.retour r data⟩

/-- All its tests succeed once the robots have answered. -/
theorem Repos.satisfaire_tous {t : Transition} (h : Repos k s) (hk : k < 26)
    (ht : chaine[k]? = some t) : ∃ s', Reaches Petri.Seule s s' ∧ Repos k s' ∧
      ∀ cond ∈ t.conditions, cond.vraie t.capteursAttendus s'.robot := by
  have hfold : ∀ (conds : List Condition) (s : Petri), Repos k s → conds ⊆ t.conditions →
      ∃ s', Reaches Petri.Seule s s' ∧ Repos k s' ∧
        (∀ cond ∈ conds, cond.vraie t.capteursAttendus s'.robot) ∧
        ∀ cond : Condition,
          cond.vraie t.capteursAttendus s.robot → cond.vraie t.capteursAttendus s'.robot := by
    intro conds
    induction conds with
    | nil => exact fun s h _ => ⟨s, .refl s, h, fun _ hmem => absurd hmem List.not_mem_nil, fun _ => id⟩
    | cons cond conds ih =>
      intro s h hsub
      obtain ⟨hcond, hsub⟩ := List.cons_subset.1 hsub
      obtain ⟨s₁, hreach, h₁, hvraie, hgarde⟩ := h.satisfaire hk ht hcond
      obtain ⟨s', hreach', h', hvraies, hgarde'⟩ := ih s₁ h₁ hsub
      refine ⟨s', hreach.trans hreach', h', ?_, fun c hc => hgarde' c (hgarde c hc)⟩
      rw [List.forall_mem_cons]
      exact ⟨hgarde' cond hvraie, hvraies⟩
  obtain ⟨s', hreach, h', hvraies, -⟩ := hfold t.conditions s h (List.Subset.refl _)
  exact ⟨s', hreach, h', hvraies⟩

end Reponses

/-! ## An iteration -/

/-- The node after a test of the first transition that is left. -/
def Petri.apresTest (s : Petri) (t : Transition) (reste : List Transition) : Petri :=
  let s' := { s with reste }.tester t
  if reste = [] ∧ s'.M placeFin ≠ 0 then { s' with fini := true } else s'

section Iteration

variable {k : ℕ} {s : Petri} {t : Transition} {reste : List Transition}

theorem teste_suivant (hreste : s.reste = t :: reste) :
    Petri.Teste s .suivant (s.apresTest t reste) := by
  refine ⟨?_, rfl⟩
  show s.etape .suivant = _
  rw [Petri.etape, hreste]
  rfl

theorem apresTest_spec (s : Petri) (t : Transition) (reste : List Transition) :
    (s.apresTest t reste).reste = reste ∧ (s.apresTest t reste).capteurs = s.capteurs ∧
      (s.apresTest t reste).robot = ({ s with reste }.tester t).robot ∧
      (s.apresTest t reste).M = ({ s with reste }.tester t).M := by
  have hcapteurs := (tester_cadre { s with reste } t).2
  have hreste := tester_reste { s with reste } t
  unfold Petri.apresTest
  dsimp only
  split_ifs
  · exact ⟨hreste, hcapteurs, rfl, rfl⟩
  · exact ⟨hreste, hcapteurs, rfl, rfl⟩

/-- The node ends when the last place is marked after the last test, and does not start again. -/
theorem apresTest_fini (s : Petri) (t : Transition) (reste : List Transition) :
    (s.fini = true → (s.apresTest t reste).fini = true) ∧
      (reste = [] → (s.apresTest t reste).M placeFin ≠ 0 → (s.apresTest t reste).fini = true) := by
  have hfini := (tester_cadre { s with reste } t).1
  unfold Petri.apresTest
  dsimp only
  split_ifs with hfin
  · exact ⟨fun _ => rfl, fun _ _ => rfl⟩
  · exact ⟨fun h => hfini.trans h, fun hreste hM => absurd ⟨hreste, hM⟩ hfin⟩

/-- In the middle of an iteration, after `k` transitions of the chain. -/
structure EnRoute (k : ℕ) (s : Petri) : Prop where
  avancement : ∃ j tires, Avancement k j tires s
  attente : Attente s

/-- The place that awaits the next transition of the chain is marked. -/
theorem EnRoute.marquee (h : EnRoute k s) : s.M (placeDe k) ≠ 0 := by
  obtain ⟨j, tires, havance⟩ := h.avancement
  obtain ⟨v, -, hconf, hplace, -⟩ := havance.conforme
  have hmem := placeDe_principale k (List.mem_range.2 (Nat.lt_succ_of_le havance.k_le))
  rw [hconf.principales _ hmem, if_pos hplace]
  exact one_ne_zero

/-- The tests of the iteration go on, and the chain does not go back. When the transition tested can
be fired and is the next one of the chain, the chain advances; otherwise the robots are left alone,
unless it advances. -/
theorem EnRoute.suivant (h : EnRoute k s) (hreste : s.reste = t :: reste) :
    ∃ k', k ≤ k' ∧ EnRoute k' (s.apresTest t reste) ∧
      (chaine[k]? = some t → Franchissable s t → k < k') ∧
      (chaine[k]? ≠ some t → (s.apresTest t reste).robot = s.robot) := by
  obtain ⟨j, tires, havance⟩ := h.avancement
  obtain ⟨hetape, -⟩ := teste_suivant hreste
  obtain ⟨-, -, hrobot, -⟩ := apresTest_spec s t reste
  obtain ⟨k', j', hle, havance'⟩ := havance.suivant hetape
  have ht : t ∈ transitions := havance.reste t (hreste ▸ List.mem_cons_self)
  refine ⟨k', hle, ⟨⟨j', _, havance'⟩, h.attente.etape hetape⟩, ?_, ?_⟩
  -- the transitions fired are one more
  · intro hchaine hfire
    have htirees : s.tirees .suivant = [t] := by
      unfold Petri.tirees
      rw [hreste]
      exact if_pos hfire
    have hmem : t ∈ chaine := List.mem_of_getElem? hchaine
    have hprincipale : t.place ∈ principales := of_decide_eq_true (List.mem_filter.1 hmem).2
    have hlength := congrArg List.length havance'.principales
    rw [htirees, List.filter_append, havance.principales, List.length_append, List.length_take,
      List.length_take, length_chaine, min_eq_left havance.k_le, min_eq_left havance'.k_le] at hlength
    simp [hprincipale] at hlength
    omega
  · intro hchaine
    rw [hrobot]
    by_cases hfire : Franchissable s t
    · rcases places_transitions t ht with hprincipale | hlaterale
      · exact absurd (havance.suivante ht hprincipale hfire.1).2 hchaine
      · have hbranche : t ∈ branche := List.mem_filter.2 ⟨ht, decide_eq_true hlaterale⟩
        have htester : ({ s with reste } : Petri).tester t =
            t.actions.foldl Petri.executer { s with reste } := if_pos hfire
        rw [htester, robot_branche hbranche]
    · have htester : ({ s with reste } : Petri).tester t = { s with reste } := if_neg hfire
      rw [htester]

/-- The tests that are left are made; the node ends with them when the chain is over. -/
theorem EnRoute.terminer (h : EnRoute k s) : ∃ k' s', k ≤ k' ∧ Reaches Petri.Teste s s' ∧
    EnRoute k' s' ∧ s'.reste = [] ∧ (s.fini = true → s'.fini = true) ∧
      (k = 26 → s.reste ≠ [] → s'.fini = true) := by
  induction hreste : s.reste generalizing k s with
  | nil => exact ⟨k, s, le_rfl, .refl s, h, hreste, id, fun _ hne => absurd rfl hne⟩
  | cons t reste ih =>
    obtain ⟨k₁, hle, h₁, -⟩ := h.suivant hreste
    have hreste₁ := (apresTest_spec s t reste).1
    obtain ⟨hgarde, hfin⟩ := apresTest_fini s t reste
    obtain ⟨k', s', hle', hreach, h', hlibre, hgarde', hfini⟩ := ih h₁ hreste₁
    refine ⟨k', s', hle.trans hle', (Reaches.single (teste_suivant hreste)).trans hreach, h', hlibre,
      fun hs => hgarde' (hgarde hs), fun hk _ => ?_⟩
    obtain ⟨j₁, tires₁, havance₁⟩ := h₁.avancement
    have hk₁ : k₁ = 26 := le_antisymm havance₁.k_le (hk ▸ hle)
    by_cases hvide : reste = []
    · have hM : (s.apresTest t reste).M placeFin ≠ 0 := by
        have hmarquee := h₁.marquee
        rwa [hk₁] at hmarquee
      exact hgarde' (hfin hvide hM)
    · exact hfini hk₁ hvide

/-- The chain advances in an iteration on sensors that show what it awaits, once the robots have
answered. -/
theorem EnRoute.avancer (h : EnRoute k s) (hchaine : chaine[k]? = some t) (hmem : t ∈ s.reste)
    (hconds : ∀ cond ∈ t.conditions, cond.vraie s.capteurs s.robot) :
    ∃ k' s', k < k' ∧ Reaches Petri.Teste s s' ∧ EnRoute k' s' ∧ s'.reste = [] := by
  induction hreste : s.reste generalizing k s with
  | nil =>
    rw [hreste] at hmem
    exact absurd hmem List.not_mem_nil
  | cons t₀ reste ih =>
    obtain ⟨k₁, hle, h₁, htire, hmuette⟩ := h.suivant hreste
    obtain ⟨hreste₁, hcapteurs, -⟩ := apresTest_spec s t₀ reste
    have hpas : Reaches Petri.Teste s (s.apresTest t₀ reste) := .single (teste_suivant hreste)
    rcases hle.lt_or_eq with hlt | rfl
    -- it has advanced: the iteration is finished
    · obtain ⟨k', s', hle', hreach, h', hlibre, -⟩ := h₁.terminer
      exact ⟨k', s', hlt.trans_le hle', hpas.trans hreach, h', hlibre⟩
    · have hautre : t₀ ≠ t := by
        rintro rfl
        obtain ⟨j, tires, havance⟩ := h.avancement
        have hplace : placeDe k = t₀.place := by
          rw [placeDe, hchaine]
          rfl
        exact absurd (htire hchaine ⟨hplace ▸ h.marquee, hconds⟩) (lt_irrefl _)
      have hrobot := hmuette fun hne => hautre (Option.some.inj (hne.symm.trans hchaine))
      have hmem₁ : t ∈ (s.apresTest t₀ reste).reste := by
        rw [hreste] at hmem
        rw [hreste₁]
        exact (List.mem_cons.1 hmem).resolve_left (Ne.symm hautre)
      have hconds₁ : ∀ cond ∈ t.conditions,
          cond.vraie (s.apresTest t₀ reste).capteurs (s.apresTest t₀ reste).robot := by
        rwa [hcapteurs, hrobot]
      obtain ⟨k', s', hlt, hreach, h', hlibre⟩ := ih h₁ hchaine hmem₁ hconds₁ hreste₁
      exact ⟨k', s', hlt, hpas.trans hreach, h', hlibre⟩

/-- An iteration starts. -/
theorem Repos.iterer (h : Repos k s) (c : Capteurs) : ∃ s', Petri.Seule s (.iterer c) s' ∧
    EnRoute k s' ∧ s'.reste = transitions ∧ s'.capteurs = c ∧
      ∀ cond : Condition, cond.vraie c s.robot → cond.vraie c s'.robot := by
  have hetape : s.etape (.iterer c) = some (s.debut c) := if_pos ⟨h.reste, h.play, h.fini⟩
  obtain ⟨j, tires, havance⟩ := h.avancement
  have hautre : Evenement.iterer c ≠ .suivant := fun h => by cases h
  obtain ⟨M, codes, hcadre⟩ := ajouterProduits_cadre (s.robot.produitAAjouter.length + 1) s
  refine ⟨s.debut c, ⟨hetape, fun _ _ h => by cases h⟩,
    ⟨⟨j, tires, havance.hors_test hautre hetape⟩, h.attente.etape hetape⟩, rfl, rfl, ?_⟩
  rw [Petri.debut, hcadre]
  intro cond hcond
  cases cond <;> exact hcond

end Iteration

/-! ## The end -/

/-- Between two iterations the chain can advance, or the node ends. -/
theorem Repos.avancer {k : ℕ} {s : Petri} (h : Repos k s) : ∃ k' s', Reaches Petri.Seule s s' ∧
    (s'.fini = true ∨ k < k' ∧ EnRoute k' s' ∧ s'.reste = []) := by
  obtain ⟨j, tires, havance⟩ := h.avancement
  rcases havance.k_le.lt_or_eq with hk | rfl
  · have hlength : k < chaine.length := length_chaine ▸ hk
    have hchaine : chaine[k]? = some chaine[k] := List.getElem?_eq_getElem hlength
    obtain ⟨s₁, hreach₁, h₁, hvraies⟩ := h.satisfaire_tous hk hchaine
    obtain ⟨s₂, hiterer, h₂, hreste, hcapteurs, hgarde⟩ := h₁.iterer chaine[k].capteursAttendus
    have hmem : chaine[k] ∈ s₂.reste := hreste ▸ List.mem_of_mem_filter (List.getElem_mem hlength)
    obtain ⟨k', s', hlt, hreach, h', hlibre⟩ := h₂.avancer hchaine hmem fun cond hcond =>
      hcapteurs ▸ hgarde cond (hvraies cond hcond)
    exact ⟨k', s', (hreach₁.trans (.single hiterer)).trans (hreach.mono fun _ _ _ h => h.seule),
      .inr ⟨hlt, h', hlibre⟩⟩
  · obtain ⟨s₁, hiterer, h₁, hreste, -⟩ := h.iterer .initial
    have hne : s₁.reste ≠ [] := by
      rw [hreste]
      exact List.cons_ne_nil _ _
    obtain ⟨k', s', -, hreach, -, -, -, hfini⟩ := h₁.terminer
    exact ⟨k', s', (Reaches.single hiterer).trans (hreach.mono fun _ _ _ h => h.seule), .inl (hfini rfl hne)⟩

/-- Somewhere in the loop, after a run. -/
theorem enRoute_of_run {evenements : List Evenement} {s : Petri}
    (h : Run Petri.Avance .initial evenements s) : ∃ k, EnRoute k s := by
  have hstep : ∀ (_ : List Evenement) s ev s', (∃ k, EnRoute k s) → Petri.Avance s ev s' →
      ∃ k, EnRoute k s' := by
    rintro _ s ev s' ⟨k, ⟨j, tires, havance⟩, hattente⟩ hetape
    obtain ⟨k', j', havance'⟩ := havance.etape hetape
    exact ⟨k', ⟨j', _, havance'⟩, hattente.etape hetape⟩
  exact h.invariant ⟨0, ⟨0, [], avancement_initial⟩, attente_initial⟩ hstep

/-- Between two iterations the simulation is set to play. -/
theorem EnRoute.jouer {k : ℕ} {s : Petri} (h : EnRoute k s) (hlibre : s.reste = [])
    (hfini : s.fini = false) : ∃ s', Petri.Seule s (.play true) s' ∧ Repos k s' := by
  have hetape : s.etape (.play true) = some { s with play := true } := if_pos hlibre
  obtain ⟨j, tires, havance⟩ := h.avancement
  have hautre : Evenement.play true ≠ .suivant := fun h => by cases h
  exact ⟨_, ⟨hetape, fun _ _ h => by cases h⟩,
    ⟨⟨j, tires, havance.hors_test hautre hetape⟩, h.attente.etape hetape, hlibre, rfl, hfini⟩⟩

/-- From every state that the node reaches, its end can still be reached, without anything being
added on the console; the commands published are then those of the program. -/
theorem fin_accessible {evenements : List Evenement} {s : Petri}
    (h : Run Petri.Avance .initial evenements s) :
    ∃ suite s', Run Petri.Seule s suite s' ∧ s'.fini = true ∧ s'.publiees.map Prod.fst = programme := by
  obtain ⟨k, hk⟩ := enRoute_of_run h
  obtain ⟨k₁, s₁, -, hreach₁, h₁, hlibre₁, -⟩ := hk.terminer
  have hrang : ∀ n s, (∃ k, n = 26 - k ∧ EnRoute k s ∧ s.reste = []) →
      ∃ s', Reaches Petri.Seule s s' ∧
        (s'.fini = true ∨ ∃ m < n, ∃ k, m = 26 - k ∧ EnRoute k s' ∧ s'.reste = []) := by
    rintro n s ⟨k, rfl, hk, hlibre⟩
    cases hfini : s.fini with
    | true => exact ⟨s, .refl s, .inl hfini⟩
    | false =>
      obtain ⟨s₁, hplay, hrepos⟩ := hk.jouer hlibre hfini
      obtain ⟨k', s', hreach, hfin⟩ := hrepos.avancer
      refine ⟨s', (Reaches.single hplay).trans hreach, hfin.imp_right ?_⟩
      rintro ⟨hlt, hk', hlibre'⟩
      obtain ⟨j', tires', havance'⟩ := hk'.avancement
      have hle := havance'.k_le
      exact ⟨26 - k', by omega, k', rfl, hk', hlibre'⟩
  obtain ⟨s', hreach', hfini⟩ := Reaches.of_rank hrang ⟨k₁, rfl, h₁, hlibre₁⟩
  obtain ⟨suite, hsuite⟩ := (hreach₁.mono fun _ _ _ h => h.seule).trans hreach'
  refine ⟨suite, s', hsuite, hfini, ?_⟩
  -- the whole run
  have hrun := h.append (hsuite.mono fun _ _ _ hs => hs.1)
  obtain ⟨k', ⟨j', tires', havance'⟩, -⟩ := enRoute_of_run hrun
  have hchaine : chaine.take k' = chaine :=
    List.take_of_length_le (by rw [havance'.fini hfini, length_chaine])
  rw [havance'.publiees, hchaine]
  rfl

/-- From the middle of the first iteration, while the simulation plays. -/
theorem fin_accessible_debut : ∃ s, Run Petri.Avance .initial
      [.play true, .iterer { Capteurs.initial with PSx := fun _ => true }, .suivant, .suivant] s ∧
    ∃ suite s', Run Petri.Seule s suite s' ∧ s'.fini = true ∧ s'.publiees.map Prod.fst = programme := by
  have hrun : Run Petri.Avance .initial
      [.play true, .iterer { Capteurs.initial with PSx := fun _ => true }, .suivant, .suivant] _ :=
    (((Run.nil.snoc rfl).snoc rfl).snoc rfl).snoc rfl
  exact ⟨_, hrun, fin_accessible hrun⟩

end Commande
