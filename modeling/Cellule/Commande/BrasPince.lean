import Cellule.Commande.RobotsInterface
import Cellule.Robots.Commandes

/-! # The commands for arms and grippers

`commande/src/RobotsInterface.cpp`: positions, arms and grippers, with the flags that the commands
clear. A command gives the orders that it publishes.
-/

namespace Commande

open Robots

namespace RobotsInterface

/-- The robot exists. -/
def Existe (s : RobotsInterface) (numRobot : ℤ) : Prop := numRobot ≥ 1 ∧ numRobot ≤ s.nbRobot

instance (s : RobotsInterface) (numRobot : ℤ) : Decidable (s.Existe numRobot) :=
  inferInstanceAs (Decidable (_ ∧ _))

/-- `EnvoyerPosition`; the message of a position that does not exist keeps its default data. -/
def envoyerPosition (s : RobotsInterface) (numRobot numPosition : ℤ) : RobotsInterface × List Ordre :=
  if s.Existe numRobot then
    let data := if numPosition < 1 ∨ numPosition > 4 then 0 else numPosition
    ({ s with robotPosition := Function.update s.robotPosition numRobot 0 },
      [.sendPosition { numRobot, data }])
  else (s, [])

/-- `ControlerRobot`. -/
def controlerRobot (s : RobotsInterface) (numRobot numPosition bras pince : ℤ) :
    RobotsInterface × List Ordre :=
  if numPosition < 1 ∨ numPosition > 4 then (s, [])
  else if bras ≠ -1 ∧ bras ≠ 1 then (s, [])
  else if pince ≠ -1 ∧ pince ≠ 1 then (s, [])
  else if ¬ s.Existe numRobot then (s, [])
  else
    ({ s with robotPosition := Function.update s.robotPosition numRobot 0 },
      [.controlerRobot { numRobot, position := numPosition, bras, pince }])

/-- `FermerPince`. -/
def fermerPince (s : RobotsInterface) (numRobot : ℤ) : RobotsInterface × List Ordre :=
  if s.Existe numRobot then
    ({ s with robotPince := Function.update s.robotPince numRobot 0 },
      [.fermerPince { numRobot, data := 1 }])
  else (s, [])

/-- `OuvrirPince`. -/
def ouvrirPince (s : RobotsInterface) (numRobot : ℤ) : RobotsInterface × List Ordre :=
  if s.Existe numRobot then
    ({ s with robotPince := Function.update s.robotPince numRobot 0 },
      [.ouvrirPince { numRobot, data := 0 }])
  else (s, [])

/-- `DescendreBras`. -/
def descendreBras (s : RobotsInterface) (numRobot : ℤ) : RobotsInterface × List Ordre :=
  if s.Existe numRobot then
    ({ s with robotBras := Function.update s.robotBras numRobot 0 },
      [.descendreBras { numRobot, data := 1 }])
  else (s, [])

/-- `MonterBras`. -/
def monterBras (s : RobotsInterface) (numRobot : ℤ) : RobotsInterface × List Ordre :=
  if s.Existe numRobot then
    ({ s with robotBras := Function.update s.robotBras numRobot 0 },
      [.monterBras { numRobot, data := 0 }])
  else (s, [])

/-- `BrasEnPosition`. -/
def brasEnPosition (s : RobotsInterface) (numRobot : ℤ) : ℤ :=
  if numRobot < 1 ∨ numRobot > s.nbRobot then 1 else s.robotBras numRobot

/-- `PinceEnPosition`. -/
def pinceEnPosition (s : RobotsInterface) (numRobot : ℤ) : ℤ :=
  if numRobot < 1 ∨ numRobot > s.nbRobot then 1 else s.robotPince numRobot

/-- The order that a publication is for the robots. -/
def ordreDe : Publication → Option Ordre
  | .deplacerPiece msg => some (.deplacerPiece msg)
  | .faireTache msg => some (.faireTache msg)
  | _ => none

end RobotsInterface

/-- A call of a command of `RobotsInterface`. -/
inductive Appel
  | envoyerPosition (numRobot numPosition : ℤ)
  | controlerRobot (numRobot numPosition bras pince : ℤ)
  | fermerPince (numRobot : ℤ)
  | ouvrirPince (numRobot : ℤ)
  | descendreBras (numRobot : ℤ)
  | monterBras (numRobot : ℤ)
  | deplacerPiece (numRobot positionA positionB : ℤ)
  | faireTache (numPoste duree : ℤ)
  deriving DecidableEq

/-- What a call leaves, and the orders that it publishes. -/
def Appel.executer (s : RobotsInterface) : Appel → RobotsInterface × List Ordre
  | envoyerPosition numRobot numPosition => s.envoyerPosition numRobot numPosition
  | controlerRobot numRobot numPosition bras pince =>
      s.controlerRobot numRobot numPosition bras pince
  | fermerPince numRobot => s.fermerPince numRobot
  | ouvrirPince numRobot => s.ouvrirPince numRobot
  | descendreBras numRobot => s.descendreBras numRobot
  | monterBras numRobot => s.monterBras numRobot
  | deplacerPiece numRobot positionA positionB =>
      let r := s.deplacerPiece numRobot positionA positionB
      (r.1, r.2.filterMap RobotsInterface.ordreDe)
  | faireTache numPoste duree =>
      let r := s.faireTache numPoste duree
      (r.1, r.2.filterMap RobotsInterface.ordreDe)

end Commande
