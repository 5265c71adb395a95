import Cellule.Robots.Robot

/-! # Adding a product

`commande_locale/src/vrepController.cpp`: the node `commande_locale` puts a product on a post, and
tells the robot of that post to stop its task when the post was occupied.
-/

namespace CommandeLocale

open Reactive Reactive.Prog Robots

/-- The code of `commande_locale` for one product; it keeps nothing from one call to the next. -/
abbrev Code (τ : Type) := Prog (interface τ) Unit

variable {τ : Type}

/-- `vrepController::computeTableId`. -/
def computeTableId : ℤ → ℤ
  | 1 => 0
  | 2 => 1
  | 3 => 3
  | 4 => 4
  | 5 => 6
  | 6 => 7
  | 7 => 9
  | 8 => 10
  | _ => -1

/-- `vrepController::computeNumRobotPosteTache`; the source leaves `tab` unset for other posts. -/
def computeNumRobotPosteTache : ℤ → Option (ℤ × ℤ)
  | 1 => some (1, 4)
  | 2 => some (1, 1)
  | 3 => some (2, 1)
  | 4 => some (2, 4)
  | 5 => some (3, 4)
  | 6 => some (3, 1)
  | 7 => some (4, 1)
  | 8 => some (4, 4)
  | _ => none

/-- The signal name of a table. -/
def nomTable (id : ℤ) : String := "Table#" ++ toString id

/-- The stack of a fresh product. -/
def pileProduit (produit : ℤ) : List ℤ := (produit * 10 + 4) :: List.replicate (nbCube - 1) 0

theorem base_pileProduit (produit : ℤ) : (Pile.ofList (pileProduit produit)).base = produit * 10 + 4 := by
  rw [Pile.base, Pile.cube_ofList _ (by decide), pileProduit, List.getD_cons_zero]

/-- `On ecrase un produit`: report it, and stop the task of the post. -/
def signalerEcrasement (poste : ℤ) : Code τ Unit := do
  publish (.erreurLog 66 poste)
  match computeNumRobotPosteTache poste with
  | some (numRobot, posTache) => publish (.stopTache numRobot posTache)
  | none => fault

/-- The test on the colour read, before the product is placed. -/
def verifierPoste (poste couleurLue : ℤ) : Code τ Unit :=
  if couleurLue ≠ 0 then signalerEcrasement poste else pure ()

/-- `vrepController::addProduct`. -/
def addProduct (produit poste : ℤ) : Code τ Unit := do
  let couleurLue : ℤ ← (Requete.getColor (nomTable (computeTableId poste)) 0).demander
  verifierPoste poste couleurLue
  let _ ← (Requete.changeColor (computeTableId poste :: pileProduit produit)).demander
  pure ()

end CommandeLocale
