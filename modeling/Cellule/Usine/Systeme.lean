import Cellule.Atelier.Reponses
import Cellule.Usine.Realisation

/-! # The command node and the cell

The loop of the command node and the nodes of the robots, with what is under way between them. A
command is published to the four robots; each receives the commands in the order of their
publication and executes one at a time, to completion. A robot's acknowledgements come back in their
order, those of different robots in any order. The service of `srvAddProduct` answers before the
loop goes on. On the track a product stays on its shuttle, so that the shuttle manager answers for
the trips as a `Trafic` says.
-/

namespace Usine

open Commande Reactive Robots
open Atelier (Cellule Ordre numero vue)

variable {τ : Type}

/-- The command node, the cell, the commands that each robot has not executed yet and the
acknowledgements of each that the node has not received yet. -/
structure Systeme (τ : Type) where
  petri : Petri
  cellule : Cellule τ
  attente : Fin 4 → List Publication
  retours : Fin 4 → List ℤ

/-- What can happen. No product is added on the console. -/
inductive Evenement (τ : Type)
  /-- An iteration of the loop starts, on a sensor image. -/
  | iterer (c : Capteurs)
  /-- The next transition of the iteration is tested. -/
  | suivant
  /-- The simulation is started or paused. -/
  | play (b : Bool)
  /-- The node receives an acknowledgement of a robot. -/
  | repondre (r : Fin 4)
  /-- A robot executes the next command that it received. -/
  | executer (r : Fin 4) (temps : τ)
  /-- A robot looks whether its tasks are over. -/
  | update (r : Fin 4) (temps : τ)

/-- What an acknowledgement of a robot says. -/
def retourDe (r : Fin 4) : Message → Option ℤ
  | .retourCommande numRobot data => if numRobot = numero r then some data else none
  | _ => none

/-- What a robot executes when it receives a command. -/
def ordreDe (n : Trafic) (r : Fin 4) (temps : τ) : Publication → Option (Ordre τ)
  | .faireTache msg => some (.faireTache r msg temps)
  | .deplacerPiece msg => some (.deplacerPiece r msg temps (n.navettes msg))
  | .evacuer => some (.evacuer r)
  | .srvAddProduct _ _ | .addProduct _ _ => none

/-- An acknowledgement of a robot, with what it answers. -/
def recevoir (s : Petri) (numRobot data : ℤ) : Petri :=
  { s with
    robot := s.robot.retourRobotCallback numRobot data
    enCours := (s.enCours.repondre numRobot data).getD s.enCours }

/-- What was published between two states of the node. -/
def emises (s s' : Petri) : List Publication := (s'.publiees.drop s.publiees.length).map Prod.fst

namespace Systeme

/-- The cell changes; the acknowledgements published meanwhile are on their way. -/
def avecCellule (s : Systeme τ) (c : Cellule τ) : Systeme τ :=
  { s with
    cellule := c
    retours := fun r => s.retours r ++
      (c.sim.journal.drop s.cellule.sim.journal.length).filterMap (retourDe r) }

variable [Horloge τ]

/-- The cell executes an order. -/
def ordonner (s : Systeme τ) (o : Ordre τ) : Option (Systeme τ) :=
  match Cellule.executerOrdre o s.cellule with
  | .ok (_, c) => some (s.avecCellule c)
  | .error _ => none

/-- What becomes of a publication. The messages `AddProduct` are for the log only. -/
def publier (s : Systeme τ) : Publication → Option (Systeme τ)
  | .srvAddProduct poste produit => s.ordonner (.ajouterProduit produit poste)
  | .addProduct _ _ => some s
  | p => some { s with attente := fun r => s.attente r ++ [p] }

/-- One step. -/
def etape (n : Trafic) (s : Systeme τ) : Evenement τ → Option (Systeme τ)
  | .iterer c => (s.petri.etape (.iterer c)).map fun petri => { s with petri }
  | .play b => (s.petri.etape (.play b)).map fun petri => { s with petri }
  | .suivant =>
      (s.petri.etape .suivant).bind fun petri =>
        (emises s.petri petri).foldlM publier { s with petri }
  | .repondre r =>
      match s.retours r with
      | [] => none
      | data :: retours =>
          if s.petri.reste = [] then
            some { s with
              petri := recevoir s.petri (numero r) data
              retours := Function.update s.retours r retours }
          else none
  | .executer r temps =>
      match s.attente r with
      | [] => none
      | p :: attente =>
          (ordreDe n r temps p).bind { s with attente := Function.update s.attente r attente }.ordonner
  | .update r temps => s.ordonner (.update r temps)

/-- The node starts its loop in front of an empty cell. -/
def initial (temps : τ) : Systeme τ where
  petri := .initial
  cellule := Cellule.initiale (fun _ => Pile.vide) temps
  attente _ := []
  retours _ := []

end Systeme

end Usine
