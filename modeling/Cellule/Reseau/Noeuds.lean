import Cellule.Commande.RobotsInterface
import Cellule.CommandeLocale.VrepController
import Cellule.Robots.Noeud

/-! # Three nodes and the topics between them

The command node, one robot node and `commande_locale`. Each topic keeps its messages in order; the
topics are delivered independently, and the replies of the simulator are any replies.
-/

namespace Reseau

open Reactive Robots Commande

/-- `commande_locale`, whose callbacks add products. -/
abbrev NoeudLocale (τ : Type) := Node (interface τ) Canal (ReponseSim τ) Unit

/-- The code of a call of `addProduct`: a product on a post. -/
def codeLocale (τ : Type) (a : ℤ × ℤ) : Prog (interface τ) Unit Unit :=
  CommandeLocale.addProduct a.1 a.2

/-- The nodes and the messages in flight. `tachees` lists the posts that were given a task. -/
structure Noeuds (τ : Type) where
  commande : RobotsInterface
  robot : Noeud τ
  locale : NoeudLocale τ
  faireTaches : List FaireTacheMsg
  deplacerPieces : List DeplacerPieceMsg
  stopTaches : List ℤ
  retours : List (ℤ × ℤ)
  tachees : List ℤ

/-- What can happen. -/
inductive Evenement (τ : Type)
  /-- `RobotsInterface::FaireTache`. -/
  | faireTache (poste duree : ℤ)
  /-- `RobotsInterface::DeplacerPiece`. -/
  | deplacerPiece (numRobot positionA positionB : ℤ)
  /-- `RobotsInterface::AjouterProduit`. -/
  | ajouterProduit (poste produit : ℤ)
  /-- A product is added on the console, which then calls `srv_add_product_push_back`. -/
  | console (poste produit : ℤ)
  | pushBack (poste produit : ℤ)
  | livrerFaireTache
  | livrerDeplacerPiece
  | livrerStopTache
  | livrerRetour
  /-- The main loop of the robot node calls `update`. -/
  | update
  /-- The robot node receives a reply of the simulator. -/
  | repondreRobot (m : ReponseSim τ)
  /-- The running routine of the robot node leaves its wait. -/
  | continuerRobot
  /-- The shuttle manager answers the robot node. -/
  | servirRobot (idNavette : ℤ)
  | repondreLocale (m : ReponseSim τ)
  | continuerLocale

namespace Noeuds

variable {τ : Type} [Horloge τ]

/-- The acknowledgements among the messages of a robot node. -/
def retoursDe (ms : List Message) : List (ℤ × ℤ) :=
  ms.filterMap fun
    | .retourCommande n d => some (n, d)
    | _ => none

/-- The `StopTache` for a robot among the messages of `commande_locale`. -/
def stopTachesDe (numRobot : ℤ) (ms : List Message) : List ℤ :=
  ms.filterMap fun
    | .stopTache n p => if n = numRobot then some p else none
    | _ => none

omit [Horloge τ] in
/-- The robot node goes on, and what it has published is put on the topics. -/
def avecRobot (s : Noeuds τ) (robot : Noeud τ) : Noeuds τ :=
  { s with
    robot := { robot with posted := [] }
    retours := s.retours ++ retoursDe robot.posted }

omit [Horloge τ] in
/-- `commande_locale` goes on, and what it has published is put on the topics. -/
def avecLocale (s : Noeuds τ) (locale : NoeudLocale τ) : Noeuds τ :=
  { s with
    locale := { locale with posted := [] }
    stopTaches := s.stopTaches ++ stopTachesDe s.robot.attributes.numRobot locale.posted }

/-- A step of the robot node. -/
def robotFait (s : Noeuds τ) (e : EvenementNoeud τ) : Option (Noeuds τ) :=
  (s.robot.etape e).map s.avecRobot

omit [Horloge τ] in
/-- A step of `commande_locale`. -/
def localeFait (s : Noeuds τ) (e : NodeEvent (interface τ) (ℤ × ℤ) (ReponseSim τ)) :
    Option (Noeuds τ) :=
  (s.locale.step (liaisons τ) (codeLocale τ) e).map s.avecLocale

omit [Horloge τ] in
/-- A publication of the command node; the service is called at once. -/
def publier (s : Noeuds τ) : Publication → Option (Noeuds τ)
  | .faireTache msg => some { s with faireTaches := s.faireTaches ++ [msg] }
  | .deplacerPiece msg => some { s with deplacerPieces := s.deplacerPieces ++ [msg] }
  | .srvAddProduct poste produit => s.localeFait (.start (produit, poste))
  | _ => some s

omit [Horloge τ] in
/-- A call of `RobotsInterface`. -/
def appeler (s : Noeuds τ) (r : RobotsInterface × List Publication) : Option (Noeuds τ) :=
  r.2.foldlM publier { s with commande := r.1 }

/-- The answer of the shuttle manager. -/
def reponseNavette (idNavette : ℤ) : (q : Requete) → Option (q.Reponse τ)
  | .getIdShuttle _ _ => some idNavette
  | _ => none

/-- One step. -/
def etape (s : Noeuds τ) : Evenement τ → Option (Noeuds τ)
  | .faireTache poste duree =>
      ({ s with tachees := poste :: s.tachees } : Noeuds τ).appeler (s.commande.faireTache poste duree)
  | .deplacerPiece numRobot a b => s.appeler (s.commande.deplacerPiece numRobot a b)
  | .ajouterProduit poste produit => s.appeler (s.commande.ajouterProduit poste produit)
  | .console poste produit => s.localeFait (.start (produit, poste))
  | .pushBack poste produit =>
      some { s with commande := s.commande.productAddPushBack poste produit }
  | .livrerFaireTache =>
      match s.faireTaches with
      | [] => none
      | msg :: reste => { s with faireTaches := reste }.robotFait (.start (.faireTache msg))
  | .livrerDeplacerPiece =>
      match s.deplacerPieces with
      | [] => none
      | msg :: reste => { s with deplacerPieces := reste }.robotFait (.start (.deplacerPiece msg))
  | .livrerStopTache =>
      match s.stopTaches with
      | [] => none
      | data :: reste => { s with stopTaches := reste }.robotFait (.start (.stopTache data))
  | .livrerRetour =>
      match s.retours with
      | [] => none
      | (numRobot, data) :: reste =>
          some { s with
            retours := reste
            commande := s.commande.retourRobotCallback numRobot data }
  | .update => if s.robot.stack.isEmpty then s.robotFait (.start .update) else none
  | .repondreRobot m => s.robotFait (.receive m)
  | .continuerRobot => s.robotFait .resume
  | .servirRobot idNavette => s.robotFait (.serve (reponseNavette idNavette))
  | .repondreLocale m => s.localeFait (.receive m)
  | .continuerLocale => s.localeFait .resume

/-- The nodes once they are initialised. -/
def initial (nbRobot numRobot : ℤ) : Noeuds τ where
  commande := .initial nbRobot
  robot := Noeud.initial numRobot
  locale := .idle ()
  faireTaches := []
  deplacerPieces := []
  stopTaches := []
  retours := []
  tachees := []

/-! ## The deliveries

A delivery takes the oldest message of its queue. -/

theorem etape_livrerFaireTache {s s' : Noeuds τ} (h : s.etape .livrerFaireTache = some s') :
    ∃ msg reste, s.faireTaches = msg :: reste ∧
      ({ s with faireTaches := reste } : Noeuds τ).robotFait (.start (.faireTache msg)) = some s' := by
  rw [etape] at h
  split at h
  · cases h
  · next msg reste hmsgs => exact ⟨msg, reste, hmsgs, h⟩

theorem etape_livrerDeplacerPiece {s s' : Noeuds τ} (h : s.etape .livrerDeplacerPiece = some s') :
    ∃ msg reste, s.deplacerPieces = msg :: reste ∧
      ({ s with deplacerPieces := reste } : Noeuds τ).robotFait (.start (.deplacerPiece msg)) = some s' := by
  rw [etape] at h
  split at h
  · cases h
  · next msg reste hmsgs => exact ⟨msg, reste, hmsgs, h⟩

theorem etape_livrerStopTache {s s' : Noeuds τ} (h : s.etape .livrerStopTache = some s') :
    ∃ data reste, s.stopTaches = data :: reste ∧
      ({ s with stopTaches := reste } : Noeuds τ).robotFait (.start (.stopTache data)) = some s' := by
  rw [etape] at h
  split at h
  · cases h
  · next data reste hmsgs => exact ⟨data, reste, hmsgs, h⟩

theorem etape_livrerRetour {s s' : Noeuds τ} (h : s.etape .livrerRetour = some s') :
    ∃ numRobot data reste, s.retours = (numRobot, data) :: reste ∧
      s' = { s with
        retours := reste
        commande := s.commande.retourRobotCallback numRobot data } := by
  rw [etape] at h
  split at h
  · cases h
  · next numRobot data reste hmsgs => exact ⟨numRobot, data, reste, hmsgs, (Option.some.inj h).symm⟩

end Noeuds

end Reseau
