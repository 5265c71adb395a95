import Cellule.Lib.Prog

/-! # The log manager

`commande_locale/src/LogManager.cpp`. A callback waits for the simulator's time where the line shows
it, then writes one line. Times are exact numbers.
-/

namespace CommandeLocale.LogManager

open Reactive Reactive.Prog

/-- The node asks for the time, and writes lines in the log. -/
abbrev interface : Interface where
  Request := Unit
  Reply _ := ℚ
  Message := List Char

/-- The code of the node. -/
abbrev Code := Prog interface Unit

/-! ## Writing numbers -/

/-- `<<` on an integer. -/
def entier (n : ℤ) : List Char :=
  (if n < 0 then ['-'] else []) ++ Nat.toDigits 10 n.natAbs

/-- The nearest number of hundredths, an even one between two. -/
def centiemes (x : ℚ) : ℤ :=
  let reste := 100 * x - ⌊100 * x⌋
  if reste < 1 / 2 then ⌊100 * x⌋
  else if 1 / 2 < reste then ⌊100 * x⌋ + 1
  else if ⌊100 * x⌋ % 2 = 0 then ⌊100 * x⌋ else ⌊100 * x⌋ + 1

/-- `fixed << setprecision(2)` on a number. -/
def fixe (x : ℚ) : List Char :=
  let c := (centiemes x).natAbs
  (if x < 0 then ['-'] else []) ++ Nat.toDigits 10 (c / 100) ++
    '.' :: [Nat.digitChar (c / 10 % 10), Nat.digitChar (c % 10)]

/-! ## The lines -/

/-- The line of an evacuation, from the four colours that are kept. -/
def ligneSortie (couleur : List ℤ) (temps : ℚ) : List Char :=
  "Sortie".toList ++ couleur.flatMap (fun c => " :".toList ++ entier c) ++ " :".toList ++ fixe temps ++
    ['\n']

/-- The line of a product that is added. -/
def ligneNouveauProduit (numProduit : ℤ) (temps : ℚ) : List Char :=
  "NouveauProduit: ".toList ++ entier numProduit ++ " :".toList ++ fixe temps ++ ['\n']

/-- The line of a task that ends. -/
def ligneTempoT (numProduit numPoste duree : ℤ) : List Char :=
  "TempoT".toList ++ ": ".toList ++ entier numProduit ++ ": ".toList ++ entier numPoste ++
    ": ".toList ++ entier duree ++ ['\n']

/-- What introduces the line of an error, for the codes that have one. -/
def debutErreur : ℤ → Option (List Char)
  | 1 => some "OperationPosteVide: ".toList
  | 2 => some "OperationProduitPlein: ".toList
  | 3 => some "ManipulationEnTraitement: ".toList
  | 4 => some "PerteNavette: ".toList
  | 66 => some "EcrasementProduit:".toList
  | _ => none

/-! ## The callbacks -/

/-- `ProduitEvacCallback`; a message with fewer than four colours is read outside of its data. -/
def produitEvacCallback (data : List ℤ) : Code Unit := do
  let temps ← (request () : Code ℚ)
  if data.length < 4 then fault else publish (I := interface) (ligneSortie (data.take 4) temps)

/-- `NewProductCallback`. -/
def newProductCallback (numProduit : ℤ) : Code Unit := do
  let temps ← (request () : Code ℚ)
  publish (I := interface) (ligneNouveauProduit numProduit temps)

/-- `TachefinieCallback`. -/
def tachefinieCallback (numPoste numProduit duree : ℤ) : Code Unit :=
  publish (I := interface) (ligneTempoT numProduit numPoste duree)

/-- `ErreurCallback`. -/
def erreurCallback (code nPoste : ℤ) : Code Unit :=
  match debutErreur code with
  | some debut => publish (I := interface) (debut ++ entier nPoste ++ ['\n'])
  | none => pure ()

/-- The simulator at a time, and the lines written. -/
def horloge (temps : ℚ) : Handler interface (List (List Char)) where
  answer _ w := (temps, w)
  settle _ _ w := some w
  post ligne w := w ++ [ligne]

/-- The lines that a callback writes at a time. -/
def lignesEcrites (p : Code Unit) (temps : ℚ) : Except Stop (List (List Char)) :=
  (p.run (horloge temps) () []).map fun x => x.2.2

end CommandeLocale.LogManager
