import Cellule.Lib.Machine
import Cellule.Atelier.Routines

/-! # The cell under orders that run one after the other

Four robots around one simulator. An order is a message delivered to one robot node, a tick of its
`update`, or a product added by `commande_locale`; each runs to completion before the next.
-/

namespace Atelier

open Reactive Reactive.Prog Robots Robots.Robot

/-- The robots and what surrounds them. -/
structure Cellule (τ : Type) where
  robot : Fin 4 → Robot τ
  sim : Simulateur τ

/-- The number of a robot, as its node is launched with. -/
def numero (r : Fin 4) : ℤ := r + 1

/-- What is executed to completion. The clock shows `temps` when a task starts, a tick comes or a
move begins; `navettes` are the answers the shuttle manager gives during a move. -/
inductive Ordre (τ : Type)
  | faireTache (r : Fin 4) (msg : FaireTacheMsg) (temps : τ)
  | update (r : Fin 4) (temps : τ)
  | evacuer (r : Fin 4)
  | ajouterProduit (produit poste : ℤ)
  | stopTache (r : Fin 4) (position : ℤ)
  | deplacerPiece (r : Fin 4) (msg : DeplacerPieceMsg) (temps : τ) (navettes : List ℤ)

/-- What an order brings to light: the local `retourDebTask` of `faireTacheCallback`, or the
two local `indice` of `update`. -/
inductive Resultat
  | rien
  | debut (retourDebTask : Option ℕ)
  | fins (indice1 indice4 : Option ℕ)
  deriving DecidableEq

namespace Cellule

variable {τ : Type} [Horloge τ] {α : Type}

omit [Horloge τ] in
/-- The clock shows `t`. -/
def aTemps (c : Cellule τ) (t : τ) : Cellule τ := { c with sim := { c.sim with temps := t } }

omit [Horloge τ] in
/-- The shuttle manager is about to give these answers. -/
def avecNavettes (c : Cellule τ) (navettes : List ℤ) : Cellule τ :=
  { c with sim := { c.sim with navettes := navettes } }

/-- The cell with new attributes of robot `r` and new surroundings. -/
def avec (c : Cellule τ) (r : Fin 4) (s : Robot τ) (w : Simulateur τ) : Cellule τ :=
  ⟨Function.update c.robot r s, w⟩

/-- Let robot `r` run its code. -/
def surRobot (r : Fin 4) (p : Robots.Code τ α) (c : Cellule τ) : Except Stop (α × Cellule τ) :=
  (executer p (c.robot r) c.sim).map fun x => (x.1, c.avec r x.2.1 x.2.2)

/-- The robot that subscribes to the `StopTache` topic of a number. -/
def robotDe (n : ℤ) : Option (Fin 4) := (List.finRange 4).find? fun r => numero r = n

/-- Deliver a `StopTache`. -/
def livrerStop (c : Cellule τ) (m : ℤ × ℤ) : Except Stop (Cellule τ) :=
  match robotDe m.1 with
  | some r => (surRobot r (stopTacheCallback m.2) c).map Prod.snd
  | none => .ok c

/-- Deliver every `StopTache` that is pending in `w`. -/
def livrerStops (c : Cellule τ) (w : Simulateur τ) : Except Stop (Cellule τ) :=
  w.stopTaches.foldlM livrerStop { c with sim := { w with stopTaches := [] } }

/-- `addProduct`, then the delivery of the `StopTache` it sent. -/
def ajouterProduit (produit poste : ℤ) (c : Cellule τ) : Except Stop (Cellule τ) :=
  ((CommandeLocale.addProduct produit poste).run Simulateur.handler () c.sim).bind fun x =>
    c.livrerStops x.2.2

/-- Execute an order. -/
def executerOrdre : Ordre τ → Cellule τ → Except Stop (Resultat × Cellule τ)
  | .faireTache r msg t, c =>
      (surRobot r (faireTacheCallback msg) (c.aTemps t)).map fun x => (.debut x.1, x.2)
  | .update r t, c =>
      (surRobot r update (c.aTemps t)).map fun x => (.fins x.1.1 x.1.2, x.2)
  | .evacuer r, c => (surRobot r evacuer c).map fun x => (.rien, x.2)
  | .ajouterProduit produit poste, c => (ajouterProduit produit poste c).map fun c' => (.rien, c')
  | .stopTache r position, c =>
      (surRobot r (stopTacheCallback position) c).map fun x => (.rien, x.2)
  | .deplacerPiece r msg t navettes, c =>
      (surRobot r (deplacerPieceCallback msg) ((c.aTemps t).avecNavettes navettes)).map
        fun x => (.rien, x.2)

/-- The cell once every node is initialised, with the stacks the scene shows. -/
def initiale (couleur : String → Pile) (temps : τ) : Cellule τ where
  robot r := Robot.init (numero r)
  sim :=
    { couleur, temps
      articulations := fun _ _ => 0
      navettes := []
      ecritures := []
      stopTaches := []
      journal := [] }

end Cellule

/-- The orders that reach the cell: `RobotsInterface` and the console refuse other positions and
posts. -/
def Ordre.Valide {τ : Type} : Ordre τ → Prop
  | .ajouterProduit _ poste => 1 ≤ poste ∧ poste ≤ 8
  | .deplacerPiece _ msg _ _ => msg.positionA ∈ [1, 2, 3, 4] ∧ msg.positionB ∈ [1, 2, 3, 4]
  | _ => True

end Atelier
