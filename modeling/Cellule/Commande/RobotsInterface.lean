import Cellule.Robots.Robot

/-! # The commands to the robots

`commande/src/RobotsInterface.cpp`: the commands that move pieces and start tasks, the products
added, and the flags that the acknowledgements of the robots set. The position, arm and gripper
commands are in `BrasPince`, with what they publish. The console messages are left out.
-/

namespace Commande

open Robots (DeplacerPieceMsg FaireTacheMsg)

/-- What `RobotsInterface` publishes, and the service it calls. -/
inductive Publication
  | deplacerPiece (msg : DeplacerPieceMsg)
  | faireTache (msg : FaireTacheMsg)
  | evacuer
  /-- The service `srv_add_product`. -/
  | srvAddProduct (choixPoste choixProduit : ℤ)
  /-- The message `AddProduct` of the log. -/
  | addProduct (numPoste numProduit : ℤ)
  deriving DecidableEq

/-- The attributes of `class RobotsInterface`, indexed by the number of the robot; `robotTask` is
indexed by the robot and the position, 1 or 4, of a post. -/
structure RobotsInterface where
  nbRobot : ℤ
  robotInit : ℤ → ℤ
  robotPosition : ℤ → ℤ
  robotBras : ℤ → ℤ
  robotPince : ℤ → ℤ
  robotTask : ℤ × ℤ → ℤ
  robotMacroDeplacement : ℤ → ℤ
  produitAAjouter : List ℤ

/-- `RobotsInterface::computeFromNumPoste`: the robot of a post, and its position. -/
def computeFromNumPoste : ℤ → Option (ℤ × ℤ)
  | 1 => some (1, 4)
  | 2 => some (1, 1)
  | 3 => some (2, 1)
  | 4 => some (2, 4)
  | 5 => some (3, 4)
  | 6 => some (3, 1)
  | 7 => some (4, 1)
  | 8 => some (4, 4)
  | _ => none

/-- A post is given by its robot and its position. -/
def numPoste : ℤ × ℤ → ℤ
  | (1, 4) => 1
  | (1, 1) => 2
  | (2, 1) => 3
  | (2, 4) => 4
  | (3, 4) => 5
  | (3, 1) => 6
  | (4, 1) => 7
  | (4, 4) => 8
  | _ => 0

theorem numPoste_of_compute {q : ℤ} {poste : ℤ × ℤ} (h : computeFromNumPoste q = some poste) :
    numPoste poste = q := by
  unfold computeFromNumPoste at h
  split at h <;> cases h <;> rfl

theorem computeFromNumPoste_injective {q q' : ℤ} {poste : ℤ × ℤ}
    (h : computeFromNumPoste q = some poste) (h' : computeFromNumPoste q' = some poste) : q = q' :=
  (numPoste_of_compute h).symm.trans (numPoste_of_compute h')

theorem computeFromNumPoste_range {q : ℤ} {poste : ℤ × ℤ} (h : computeFromNumPoste q = some poste) :
    1 ≤ q ∧ q ≤ 8 := by
  unfold computeFromNumPoste at h
  split at h <;> first | omega | cases h

theorem position_of_compute {q : ℤ} {poste : ℤ × ℤ} (h : computeFromNumPoste q = some poste) :
    poste.2 = 1 ∨ poste.2 = 4 := by
  unfold computeFromNumPoste at h
  split at h <;> cases h <;> decide

theorem robot_of_compute {q : ℤ} {poste : ℤ × ℤ} (h : computeFromNumPoste q = some poste) :
    1 ≤ poste.1 ∧ poste.1 ≤ 4 := by
  unfold computeFromNumPoste at h
  split at h <;> cases h <;> decide

namespace RobotsInterface

/-- The constructor. -/
def initial (nbRobot : ℤ) : RobotsInterface where
  nbRobot := nbRobot
  robotInit _ := 0
  robotPosition _ := 0
  robotBras _ := 0
  robotPince _ := 0
  robotTask _ := 0
  robotMacroDeplacement _ := 1
  produitAAjouter := []

/-- Write the flag of a task. -/
def setTask (s : RobotsInterface) (poste : ℤ × ℤ) (valeur : ℤ) : RobotsInterface :=
  { s with robotTask := Function.update s.robotTask poste valeur }

/-- Write the flag of a move. -/
def setMacroDeplacement (s : RobotsInterface) (numRobot valeur : ℤ) : RobotsInterface :=
  { s with robotMacroDeplacement := Function.update s.robotMacroDeplacement numRobot valeur }

/-- `RetourRobotCallback`. -/
def retourRobotCallback (s : RobotsInterface) (numRobot data : ℤ) : RobotsInterface :=
  if data = 0 then { s with robotInit := Function.update s.robotInit numRobot 1 }
  else if data = 1 then { s with robotPosition := Function.update s.robotPosition numRobot 0 }
  else if data = 2 then { s with robotPosition := Function.update s.robotPosition numRobot 1 }
  else if data = 3 then { s with robotBras := Function.update s.robotBras numRobot 0 }
  else if data = 4 then { s with robotBras := Function.update s.robotBras numRobot (-1) }
  else if data = 5 then { s with robotBras := Function.update s.robotBras numRobot 1 }
  else if data = 6 then { s with robotPince := Function.update s.robotPince numRobot 1 }
  else if data = 7 then { s with robotPince := Function.update s.robotPince numRobot (-1) }
  else if data = 8 then s.setTask (numRobot, 1) 1
  else if data = 9 then s.setTask (numRobot, 4) 1
  else if data = 10 then s.setMacroDeplacement numRobot 1
  else s

/-- The other acknowledgements leave the flags of the moves and of the tasks. -/
theorem retourRobotCallback_frame (robot : RobotsInterface) (numRobot : ℤ) {data : ℤ}
    (h : data ≠ 8 ∧ data ≠ 9 ∧ data ≠ 10) :
    (robot.retourRobotCallback numRobot data).nbRobot = robot.nbRobot ∧
      (robot.retourRobotCallback numRobot data).produitAAjouter = robot.produitAAjouter ∧
      (robot.retourRobotCallback numRobot data).robotMacroDeplacement =
        robot.robotMacroDeplacement ∧
      (robot.retourRobotCallback numRobot data).robotTask = robot.robotTask := by
  obtain ⟨h8, h9, h10⟩ := h
  unfold RobotsInterface.retourRobotCallback
  rw [if_neg h8, if_neg h9, if_neg h10]
  simp only [apply_ite RobotsInterface.nbRobot, apply_ite RobotsInterface.produitAAjouter,
    apply_ite RobotsInterface.robotMacroDeplacement, apply_ite RobotsInterface.robotTask, ite_self,
    and_self]

theorem nbRobot_retourRobotCallback (robot : RobotsInterface) (numRobot data : ℤ) :
    (robot.retourRobotCallback numRobot data).nbRobot = robot.nbRobot := by
  simp only [retourRobotCallback, apply_ite RobotsInterface.nbRobot, setTask, setMacroDeplacement,
    ite_self]

/-- `TacheFinie`. -/
def tacheFinie (s : RobotsInterface) (numPoste : ℤ) : ℤ :=
  if numPoste < 1 ∨ numPoste > s.nbRobot * 2 then 1
  else (computeFromNumPoste numPoste).elim 0 s.robotTask

/-- `FinDeplacerPiece`. -/
def finDeplacerPiece (s : RobotsInterface) (numRobot : ℤ) : ℤ :=
  if numRobot < 1 ∨ numRobot > s.nbRobot then 1 else s.robotMacroDeplacement numRobot

/-- `DeplacerPiece`. -/
def deplacerPiece (s : RobotsInterface) (numRobot positionA positionB : ℤ) :
    RobotsInterface × List Publication :=
  if 1 ≤ numRobot ∧ numRobot ≤ s.nbRobot then
    if (positionA < 5 ∧ positionA > 0) ∧ positionB < 5 ∧ positionB > 0 then
      (s.setMacroDeplacement numRobot 0, [.deplacerPiece { numRobot, positionA, positionB }])
    else (s, [])
  else (s, [])

/-- `FaireTache`. -/
def faireTache (s : RobotsInterface) (numPoste duree : ℤ) : RobotsInterface × List Publication :=
  if 1 ≤ numPoste ∧ numPoste ≤ s.nbRobot * 2 then
    match computeFromNumPoste numPoste with
    | some (numRobot, position) =>
        (s.setTask (numRobot, position) 0, [.faireTache { numRobot, position, duree }])
    | none => (s, [])
  else (s, [])

/-- `Evacuer`. -/
def evacuer (s : RobotsInterface) : RobotsInterface × List Publication := (s, [.evacuer])

/-- `AjouterProduit`. -/
def ajouterProduit (s : RobotsInterface) (poste produit : ℤ) : RobotsInterface × List Publication :=
  if 1 ≤ poste ∧ poste ≤ s.nbRobot * 2 then
    if 1 ≤ produit ∧ produit ≤ 6 then
      ({ s with produitAAjouter := s.produitAAjouter ++ [poste * 10 + produit] },
        [.srvAddProduct poste produit, .addProduct poste (produit * 10 + 4)])
    else (s, [])
  else (s, [])

/-- `ProductAddPushBack`. -/
def productAddPushBack (s : RobotsInterface) (poste produit : ℤ) : RobotsInterface :=
  { s with produitAAjouter := s.produitAAjouter ++ [poste * 10 + produit] }

/-- `AjoutProduitEnAttente`: the last product pushed, or -1. -/
def ajoutProduitEnAttente (s : RobotsInterface) : RobotsInterface × ℤ :=
  match s.produitAAjouter.getLast? with
  | some code => ({ s with produitAAjouter := s.produitAAjouter.dropLast }, code)
  | none => (s, -1)

end RobotsInterface

end Commande
