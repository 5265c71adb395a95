import Mathlib.Tactic
import Cellule.Commande.BrasPince

/-! # Commands with an argument out of range

The commands of `RobotsInterface` check their arguments before they act, each in its own way. A
command that is rejected leaves the attributes as they are, publishes nothing and calls no service.
`EnvoyerPosition` alone goes on after its second check has failed.
-/

namespace Commande

open Robots (Ordre)

/-- `commande_locale/msg/RobotJoints.msg`. -/
structure RobotJoints where
  joint1 : ℤ
  joint2 : ℤ
  joint3 : ℤ
  joint4 : ℤ
  joint5 : ℤ
  joint6 : ℤ
  joint7 : ℤ
  numRobot : ℤ
  deriving DecidableEq

/-- What a command sends: an order to the arms and grippers, the angles of a robot, or the messages
and service calls of the other commands. -/
inductive Emission
  | ordre (o : Ordre)
  | sendJoints (msg : RobotJoints)
  | publication (p : Publication)
  deriving DecidableEq

namespace RobotsInterface

/-- `EnvoyerAngles`. -/
def envoyerAngles (s : RobotsInterface)
    (numRobot angle1 angle2 angle3 angle4 angle5 angle6 angle7 : ℤ) :
    RobotsInterface × List RobotJoints :=
  if s.Existe numRobot then
    ({ s with robotPosition := Function.update s.robotPosition numRobot 0 },
      [{ joint1 := angle1, joint2 := angle2, joint3 := angle3, joint4 := angle4, joint5 := angle5,
         joint6 := angle6, joint7 := angle7, numRobot }])
  else (s, [])

/-- `RobotEnPosition`. -/
def robotEnPosition (s : RobotsInterface) (numRobot : ℤ) : ℤ :=
  if numRobot < 1 ∨ numRobot > s.nbRobot then 1 else s.robotPosition numRobot

end RobotsInterface

/-- The commands with their arguments. -/
inductive CommandeRobot
  | envoyerPosition (numRobot numPosition : ℤ)
  | envoyerAngles (numRobot angle1 angle2 angle3 angle4 angle5 angle6 angle7 : ℤ)
  | controlerRobot (numRobot numPosition bras pince : ℤ)
  | fermerPince (numRobot : ℤ)
  | ouvrirPince (numRobot : ℤ)
  | descendreBras (numRobot : ℤ)
  | monterBras (numRobot : ℤ)
  | deplacerPiece (numRobot positionA positionB : ℤ)
  | faireTache (numPoste duree : ℤ)
  | ajouterProduit (poste produit : ℤ)

/-- An interval of integers does not hold an argument. -/
def Hors (bas haut argument : ℤ) : Prop := argument < bas ∨ haut < argument

/-- A state of an arm or of a gripper that does not exist. -/
def EtatInaccessible (etat : ℤ) : Prop := etat ≠ -1 ∧ etat ≠ 1

namespace CommandeRobot

/-- What a command leaves, and what it sends. -/
def executer (s : RobotsInterface) : CommandeRobot → RobotsInterface × List Emission
  | envoyerPosition numRobot numPosition =>
      (s.envoyerPosition numRobot numPosition).map id (List.map .ordre)
  | envoyerAngles numRobot angle1 angle2 angle3 angle4 angle5 angle6 angle7 =>
      (s.envoyerAngles numRobot angle1 angle2 angle3 angle4 angle5 angle6 angle7).map id
        (List.map .sendJoints)
  | controlerRobot numRobot numPosition bras pince =>
      (s.controlerRobot numRobot numPosition bras pince).map id (List.map .ordre)
  | fermerPince numRobot => (s.fermerPince numRobot).map id (List.map .ordre)
  | ouvrirPince numRobot => (s.ouvrirPince numRobot).map id (List.map .ordre)
  | descendreBras numRobot => (s.descendreBras numRobot).map id (List.map .ordre)
  | monterBras numRobot => (s.monterBras numRobot).map id (List.map .ordre)
  | deplacerPiece numRobot positionA positionB =>
      (s.deplacerPiece numRobot positionA positionB).map id (List.map .publication)
  | faireTache numPoste duree => (s.faireTache numPoste duree).map id (List.map .publication)
  | ajouterProduit poste produit => (s.ajouterProduit poste produit).map id (List.map .publication)

/-- Some argument is out of range, for a cell of `nbRobot` robots. -/
def Invalide (nbRobot : ℤ) : CommandeRobot → Prop
  | envoyerPosition numRobot numPosition => Hors 1 nbRobot numRobot ∨ Hors 1 4 numPosition
  | envoyerAngles numRobot _ _ _ _ _ _ _ => Hors 1 nbRobot numRobot
  | controlerRobot numRobot numPosition bras pince =>
      Hors 1 nbRobot numRobot ∨ Hors 1 4 numPosition ∨ EtatInaccessible bras ∨ EtatInaccessible pince
  | fermerPince numRobot | ouvrirPince numRobot | descendreBras numRobot | monterBras numRobot =>
      Hors 1 nbRobot numRobot
  | deplacerPiece numRobot positionA positionB =>
      Hors 1 nbRobot numRobot ∨ Hors 1 4 positionA ∨ Hors 1 4 positionB
  | faireTache numPoste _ => Hors 1 (2 * nbRobot) numPoste
  | ajouterProduit poste produit => Hors 1 (2 * nbRobot) poste ∨ Hors 1 6 produit

/-- The command changes no attribute, publishes nothing and calls no service. -/
def Rejetee (s : RobotsInterface) (c : CommandeRobot) : Prop := c.executer s = (s, [])

/-- The command is `EnvoyerPosition`, for a robot that exists. -/
def PositionDunRobot (s : RobotsInterface) : CommandeRobot → Prop
  | envoyerPosition numRobot _ => s.Existe numRobot
  | _ => False

end CommandeRobot

/-! ## The checks -/

theorem not_existe_of_hors {s : RobotsInterface} {numRobot : ℤ} (h : Hors 1 s.nbRobot numRobot) :
    ¬ s.Existe numRobot := by
  unfold Hors at h
  unfold RobotsInterface.Existe
  omega

namespace CommandeRobot

variable {s : RobotsInterface}

/-- A function of `RobotsInterface` that did nothing sends nothing. -/
theorem emettre_rejet {α : Type} {emission : α → Emission} {r : RobotsInterface × List α}
    (h : r = (s, [])) : r.map id (List.map emission) = (s, []) := by
  rw [h]
  rfl

/-- `ControlerRobot` checks its four arguments one after the other. -/
theorem controlerRobot_rejet {numRobot numPosition bras pince : ℤ}
    (h : Invalide s.nbRobot (controlerRobot numRobot numPosition bras pince)) :
    s.controlerRobot numRobot numPosition bras pince = (s, []) := by
  unfold RobotsInterface.controlerRobot
  split_ifs with hposition hbras hpince hrobot
  · rfl
  · rfl
  · rfl
  -- every check has passed
  · rcases h with h | h | h | h
    · exact absurd hrobot (not_existe_of_hors h)
    · exact absurd h hposition
    · exact absurd h hbras
    · exact absurd h hpince
  · rfl

/-- `DeplacerPiece` says nothing of a position that does not exist, but does nothing either. -/
theorem deplacerPiece_rejet {numRobot positionA positionB : ℤ}
    (h : Invalide s.nbRobot (deplacerPiece numRobot positionA positionB)) :
    s.deplacerPiece numRobot positionA positionB = (s, []) := by
  unfold RobotsInterface.deplacerPiece
  split_ifs with hrobot hpositions
  · simp only [Invalide, Hors] at h
    omega
  · rfl
  · rfl

theorem faireTache_rejet {numPoste : ℤ} (h : Hors 1 (2 * s.nbRobot) numPoste) (duree : ℤ) :
    s.faireTache numPoste duree = (s, []) := by
  unfold Hors at h
  apply if_neg
  omega

theorem ajouterProduit_rejet {poste produit : ℤ}
    (h : Invalide s.nbRobot (ajouterProduit poste produit)) :
    s.ajouterProduit poste produit = (s, []) := by
  unfold RobotsInterface.ajouterProduit
  split_ifs with hposte hproduit
  · simp only [Invalide, Hors] at h
    omega
  · rfl
  · rfl

/-- `EnvoyerPosition` sends a robot that exists to any position, be there such a position or not. -/
theorem executer_envoyerPosition {numRobot : ℤ} (h : s.Existe numRobot) (numPosition : ℤ) :
    ∃ data, executer s (envoyerPosition numRobot numPosition) =
      ({ s with robotPosition := Function.update s.robotPosition numRobot 0 },
        [.ordre (.sendPosition { numRobot, data })]) :=
  ⟨_, congrArg (Prod.map id (List.map Emission.ordre)) (if_pos h)⟩

/-- A command with an argument out of range is rejected whole, unless it is `EnvoyerPosition` for a
robot that exists. -/
theorem rejetee_iff {s : RobotsInterface} {c : CommandeRobot} (h : c.Invalide s.nbRobot) :
    c.Rejetee s ↔ ¬ c.PositionDunRobot s := by
  cases c with
  | envoyerPosition numRobot numPosition =>
    constructor
    · intro hrejet hexiste
      obtain ⟨data, hexec⟩ := executer_envoyerPosition hexiste numPosition
      rw [Rejetee, hexec] at hrejet
      cases (Prod.ext_iff.1 hrejet).2
    · intro hexiste
      exact emettre_rejet (if_neg hexiste)
  -- the other commands check all their arguments before they do anything
  | envoyerAngles | fermerPince | ouvrirPince | descendreBras | monterBras =>
    exact iff_of_true (emettre_rejet (if_neg (not_existe_of_hors h))) not_false
  | controlerRobot => exact iff_of_true (emettre_rejet (controlerRobot_rejet h)) not_false
  | deplacerPiece => exact iff_of_true (emettre_rejet (deplacerPiece_rejet h)) not_false
  | faireTache numPoste duree => exact iff_of_true (emettre_rejet (faireTache_rejet h duree)) not_false
  | ajouterProduit => exact iff_of_true (emettre_rejet (ajouterProduit_rejet h)) not_false

/-- A piece is moved to position 5 by robot 1 of two. -/
theorem rejetee_iff_deplacerPiece :
    Rejetee (.initial 2) (deplacerPiece 1 2 5) ↔
      ¬ PositionDunRobot (.initial 2) (deplacerPiece 1 2 5) :=
  rejetee_iff (.inr (.inr (.inr (by decide))))

/-- Robot 1 of two, in position, is sent to position 5: the order goes out with the default data,
and the robot is no longer reported in position. -/
theorem envoyerPosition_cinq :
    let s : RobotsInterface := { RobotsInterface.initial 2 with robotPosition := fun _ => 1 }
    let c := envoyerPosition 1 5
    c.Invalide s.nbRobot ∧ ¬ c.Rejetee s ∧
      (c.executer s).2 = [.ordre (.sendPosition { numRobot := 1, data := 0 })] ∧
      s.robotEnPosition 1 = 1 ∧ (c.executer s).1.robotEnPosition 1 = 0 := by
  intro s c
  have hsent : (c.executer s).2 = [.ordre (.sendPosition { numRobot := 1, data := 0 })] := rfl
  refine ⟨.inr (.inr (by decide)), ?_, hsent, rfl, rfl⟩
  intro hrejet
  rw [Rejetee] at hrejet
  rw [hrejet] at hsent
  cases hsent

end CommandeRobot

end Commande
