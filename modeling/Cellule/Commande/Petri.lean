import Cellule.Capteurs
import Cellule.Commande.RobotsInterface

/-! # The Petri net of the command node

`commande/src/main_commande.cpp`. The loop tests the same kind of condition and runs the same kind
of statements about thirty times; its transitions are data here, in the order of the source, with
their statements one by one. The sensors change only in `spinOnce`, so an iteration reads one image
of them.
-/

namespace Commande

/-- A test of a transition, besides the one of its place. -/
inductive Condition
  | ps (n : ℕ)
  | nonPS (n : ℕ)
  | cp (n : ℕ)
  | dg (n : ℕ)
  | tacheFinie (poste : ℤ)
  | finDeplacerPiece (numRobot : ℤ)
  deriving DecidableEq

/-- A statement of a transition. -/
inductive Action
  /-- `M[i]++` or `M[i]--`. -/
  | marquer (i : ℕ) (d : ℤ)
  | ajouterProduit (poste produit : ℤ)
  | faireTache (poste duree : ℤ)
  | deplacerPiece (numRobot positionA positionB : ℤ)
  | evacuer
  | stopPS (n : ℕ)
  | ouvrirPS (n : ℕ)
  | sortirErgot (n : ℕ)
  | droite (n : ℕ)
  | gauche (n : ℕ)
  deriving DecidableEq

/-- `if (M[place] && conditions) { actions }`. -/
structure Transition where
  place : ℕ
  conditions : List Condition
  actions : List Action

/-- The place that ends the net. -/
def placeFin : ℕ := 1000

/-- The transitions, in the order of the loop. -/
def transitions : List Transition :=
  [⟨0, [],
      [.marquer 0 (-1), .ajouterProduit 3 2, .ajouterProduit 7 6, .stopPS 10, .marquer 10 1]⟩,
    ⟨10, [.ps 1],
      [.marquer 10 (-1), .marquer 532 (-1), .marquer 576 (-1), .stopPS 2, .faireTache 7 3,
        .marquer 20 1]⟩,
    ⟨20, [.ps 2, .tacheFinie 7],
      [.marquer 20 (-1), .deplacerPiece 2 1 2, .deplacerPiece 4 1 3, .sortirErgot 1, .marquer 30 1]⟩,
    ⟨30, [.finDeplacerPiece 2, .finDeplacerPiece 4],
      [.marquer 30 (-1), .ouvrirPS 2, .ouvrirPS 10, .droite 2, .stopPS 6, .stopPS 14, .marquer 40 1]⟩,
    ⟨40, [.ps 6, .ps 14],
      [.marquer 40 (-1), .deplacerPiece 3 2 1, .gauche 3, .gauche 10, .marquer 50 1]⟩,
    ⟨50, [.dg 3, .dg 10, .finDeplacerPiece 3],
      [.marquer 50 (-1), .ouvrirPS 6, .stopPS 22, .faireTache 6 6, .marquer 60 1]⟩,
    ⟨60, [.ps 20], [.marquer 60 (-1), .marquer 70 1]⟩,
    ⟨70, [.nonPS 20], [.marquer 70 (-1), .droite 10, .droite 3, .marquer 80 1]⟩,
    ⟨80, [.ps 22, .tacheFinie 6],
      [.marquer 80 (-1), .deplacerPiece 3 1 4, .deplacerPiece 1 3 4, .sortirErgot 8, .marquer 90 1]⟩,
    ⟨90, [.finDeplacerPiece 1, .finDeplacerPiece 3],
      [.marquer 90 (-1), .faireTache 5 3, .faireTache 1 4, .marquer 100 1]⟩,
    ⟨100, [.tacheFinie 5],
      [.marquer 100 (-1), .faireTache 5 1, .ouvrirPS 14, .stopPS 15, .marquer 110 1]⟩,
    ⟨110, [.tacheFinie 1, .tacheFinie 5],
      [.marquer 110 (-1), .deplacerPiece 1 4 3, .deplacerPiece 3 4 3, .marquer 120 1]⟩,
    ⟨120, [.finDeplacerPiece 1, .finDeplacerPiece 3],
      [.marquer 120 (-1), .ouvrirPS 22, .ouvrirPS 15, .marquer 130 1]⟩,
    ⟨130, [.ps 1], [.marquer 130 (-1), .gauche 11, .gauche 12, .marquer 140 1]⟩,
    ⟨140, [.cp 1], [.marquer 140 (-1), .stopPS 3, .marquer 141 1, .marquer 150 1]⟩,
    ⟨141, [.ps 2], [.marquer 141 (-1), .marquer 142 1]⟩,
    ⟨142, [.nonPS 2], [.marquer 142 (-1), .stopPS 2]⟩,
    ⟨150, [.ps 3], [.marquer 150 (-1), .deplacerPiece 2 3 4, .marquer 160 1]⟩,
    ⟨160, [.finDeplacerPiece 2], [.marquer 160 (-1), .faireTache 4 5, .marquer 170 1]⟩,
    ⟨170, [.ps 2], [.marquer 170 (-1), .deplacerPiece 2 2 1, .marquer 180 1]⟩,
    ⟨180, [.finDeplacerPiece 2], [.marquer 180 (-1), .faireTache 3 1, .marquer 182 1]⟩,
    ⟨182, [.tacheFinie 3], [.marquer 182 (-1), .evacuer, .marquer 190 1]⟩,
    ⟨190, [.tacheFinie 4], [.marquer 190 (-1), .deplacerPiece 2 4 1, .marquer 200 1]⟩,
    ⟨200, [.finDeplacerPiece 2],
      [.marquer 200 (-1), .evacuer, .ouvrirPS 3, .ouvrirPS 2, .gauche 3, .gauche 10, .marquer 210 1]⟩,
    ⟨210, [.ps 6], [.marquer 210 (-1), .marquer 220 1]⟩,
    ⟨220, [.nonPS 6], [.marquer 220 (-1), .marquer 230 1]⟩,
    ⟨230, [.ps 6], [.marquer 230 (-1), .marquer 240 1]⟩,
    ⟨240, [.nonPS 6], [.marquer 240 (-1), .gauche 1, .gauche 2, .marquer placeFin 1]⟩]

/-- The value of a test. -/
def Condition.vraie (c : Capteurs) (robot : RobotsInterface) : Condition → Prop
  | ps n => c.getPS n = true
  | nonPS n => c.getPS n = false
  | cp n => c.getCP n = true
  | dg n => c.getDG n = true
  | tacheFinie poste => robot.tacheFinie poste ≠ 0
  | finDeplacerPiece numRobot => robot.finDeplacerPiece numRobot ≠ 0

instance (c : Capteurs) (robot : RobotsInterface) (cond : Condition) :
    Decidable (cond.vraie c robot) := by
  cases cond <;> unfold Condition.vraie <;> infer_instance

/-! ## The node and what is not answered -/

/-- The commands that were not answered: moves of each robot, tasks of each post. A post is given by
its robot and its position. -/
structure EnCours where
  deplacements : ℤ → ℕ
  taches : ℤ × ℤ → ℕ

/-- A command is not answered yet. -/
def EnCours.emettre (e : EnCours) : Publication → EnCours
  | .deplacerPiece msg =>
      let r := msg.numRobot
      { e with deplacements := Function.update e.deplacements r (e.deplacements r + 1) }
  | .faireTache msg =>
      let poste := (msg.numRobot, msg.position)
      { e with taches := Function.update e.taches poste (e.taches poste + 1) }
  | _ => e

/-- The end of a task is answered, if there is one to answer. -/
def EnCours.repondreTache (e : EnCours) (poste : ℤ × ℤ) : Option EnCours :=
  if e.taches poste = 0 then none
  else some { e with taches := Function.update e.taches poste (e.taches poste - 1) }

/-- The robots answer each command once: a `10` answers a move, an `8` or a `9` a task. -/
def EnCours.repondre (e : EnCours) (r data : ℤ) : Option EnCours :=
  if data = 8 then e.repondreTache (r, 1)
  else if data = 9 then e.repondreTache (r, 4)
  else if data = 10 then
    if e.deplacements r = 0 then none
    else some { e with deplacements := Function.update e.deplacements r (e.deplacements r - 1) }
  else some e

/-- The command node in its loop: the marking, the interface of the robots, the sensor image that
the iteration reads, and the transitions that are left in it. `publiees` lists what was published,
each with what was not answered at that moment. -/
structure Petri where
  M : ℕ → ℤ
  robot : RobotsInterface
  play : Bool
  capteurs : Capteurs
  reste : List Transition
  fini : Bool
  enCours : EnCours
  publiees : List (Publication × EnCours)

namespace Petri

/-- `M[i] += d`. -/
def marquer (s : Petri) (i : ℕ) (d : ℤ) : Petri :=
  { s with M := Function.update s.M i (s.M i + d) }

/-- Publish. -/
def publier (s : Petri) (p : Publication) : Petri :=
  { s with enCours := s.enCours.emettre p, publiees := s.publiees ++ [(p, s.enCours)] }

/-- A call of the interface of the robots. -/
def appeler (s : Petri) (r : RobotsInterface × List Publication) : Petri :=
  r.2.foldl publier { s with robot := r.1 }

/-- One statement. The actuators of the track have no effect on the state. -/
def executer (s : Petri) : Action → Petri
  | .marquer i d => s.marquer i d
  | .ajouterProduit poste produit => s.appeler (s.robot.ajouterProduit poste produit)
  | .faireTache poste duree => s.appeler (s.robot.faireTache poste duree)
  | .deplacerPiece numRobot positionA positionB =>
      s.appeler (s.robot.deplacerPiece numRobot positionA positionB)
  | .evacuer => s.appeler s.robot.evacuer
  | _ => s

/-- The drain of the products added: `M[500+code]++` until there is none. -/
def ajouterProduits : ℕ → Petri → Petri
  | 0, s => s
  | n + 1, s =>
      let r := s.robot.ajoutProduitEnAttente
      if r.2 ≠ -1 then
        ajouterProduits n ({ s with robot := r.1 }.marquer (500 + r.2.toNat) 1)
      else { s with robot := r.1 }

/-- The start of an iteration, when the simulation plays. -/
def debut (s : Petri) (c : Capteurs) : Petri :=
  { s.ajouterProduits (s.robot.produitAAjouter.length + 1) with capteurs := c, reste := transitions }

/-- One transition is tested, and fired. -/
def tester (s : Petri) (t : Transition) : Petri :=
  if s.M t.place ≠ 0 ∧ ∀ cond ∈ t.conditions, cond.vraie s.capteurs s.robot then
    t.actions.foldl executer s
  else s

end Petri

/-- What can happen. -/
inductive Evenement
  /-- An iteration starts, on a sensor image. -/
  | iterer (c : Capteurs)
  /-- The next transition of the iteration is tested. -/
  | suivant
  /-- A robot acknowledges. -/
  | retour (numRobot data : ℤ)
  /-- A product is added on the console. -/
  | pushBack (poste produit : ℤ)
  /-- The simulation is started or paused. -/
  | play (b : Bool)

namespace Petri

/-- One step. Callbacks run in `spinOnce` only, at the end of an iteration; when the last place is
marked the node stays in a loop that calls nothing but `spinOnce`. -/
def etape (s : Petri) : Evenement → Option Petri
  | .iterer c =>
      if s.reste = [] ∧ s.play = true ∧ s.fini = false then some (s.debut c) else none
  | .suivant =>
      match s.reste with
      | [] => none
      | t :: reste =>
          let s' := { s with reste }.tester t
          some (if reste = [] ∧ s'.M placeFin ≠ 0 then { s' with fini := true } else s')
  | .retour numRobot data =>
      if s.reste = [] then
        (s.enCours.repondre numRobot data).map fun e =>
          { s with robot := s.robot.retourRobotCallback numRobot data, enCours := e }
      else none
  | .pushBack poste produit =>
      if s.reste = [] ∧ (1 ≤ poste ∧ poste ≤ 8) ∧ 1 ≤ produit ∧ produit ≤ 6 then
        some { s with robot := s.robot.productAddPushBack poste produit }
      else none
  | .play b => if s.reste = [] then some { s with play := b } else none

/-- The initial marking. -/
def initial : Petri where
  M i := if i = 0 then 1 else 0
  robot := .initial 4
  play := false
  capteurs := .initial
  reste := []
  fini := false
  enCours := { deplacements := fun _ => 0, taches := fun _ => 0 }
  publiees := []

end Petri

end Commande
