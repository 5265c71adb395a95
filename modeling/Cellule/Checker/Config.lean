import Cellule.Lib.Python

/-! # Reading the configuration

`checker.py`, first part: the product lines of `ProductConfiguration.config`, after the line that
contains `Start`. The tables `tache` and `dure`, which nothing reads, are left out.
-/

namespace Checker

open Python

/-- The largest number of tasks on a product. -/
def maxTaches : ℕ := 5

/-! ## What the script prints -/

/-- The lines printed, with what is formatted into them. The blank lines are left out. -/
inductive Message (F : Type)
  | mauvaisProduit
  | mauvaiseDestination
  | tropDeDestinations
  | pasAutantDeDurees
  | operationPosteVide (poste : ℤ)
  | operationProduitPlein (poste : ℤ)
  | ecrasementProduit (poste : ℤ)
  | perteNavette (troncon : ℤ)
  | apparitionPasProduit (time : F) (instance_ P : ℤ)
  | enchainementTaches (instance_ P : ℤ) (attendu lu : List ℤ)
  | basePasProduit (instance_ P : ℤ)
  | tacheNonTerminee (i instance_ P : ℤ)
  | pasUneTache (i instance_ P : ℤ)
  | evacuationVide
  | dureeTache (j i : ℤ) (attendue lue : F)
  | apparuNonPrevu (i nouveaux : ℤ)
  | apparuTropOuPeu (i prevus nouveaux : ℤ)
  | sortiTropOuPeu (i sortis prevus : ℤ)
  | assemblage (i sortis : ℤ) (taches : List ℤ)
  | tempsMoyen (duree : F)

namespace Message

variable {F : Type}

/-- The text of a line up to the first value formatted into it. -/
def debut : Message F → String
  | mauvaisProduit => "ERREUR: mauvaise déclaration dans config, n° produit doit être entre 1 et 6"
  | mauvaiseDestination =>
      "ERREUR: mauvaise déclaration dans config, n° destination doit être entre 1 et 8"
  | tropDeDestinations =>
      "ERREUR: mauvaise déclaration dans config, nombre max de destinations par produit est "
  | pasAutantDeDurees =>
      "ERREUR: mauvaise déclaration dans config, pas le même nombre de destinations que de durées"
  | operationPosteVide _ => "ERREUR: opération sur poste vide numero "
  | operationProduitPlein _ =>
      "ERREUR: opération sur un produit qui a déjà les 3 tâches maximale sur le poste "
  | ecrasementProduit _ => "ERREUR: il y a un produit écrasé au poste "
  | perteNavette _ => "ERREUR: perte navette au tronçon "
  | apparitionPasProduit _ _ _ => "ERREUR à t="
  | enchainementTaches _ _ _ _ => "ERREUR: enchainement tâches de l'instance "
  | basePasProduit _ _ => "ERREUR: la base de l'instance "
  | tacheNonTerminee _ _ _ => "ERREUR: la tâche "
  | pasUneTache _ _ _ => "ERREUR: la tâche "
  | evacuationVide => "ERREUR: il y a une évacuation vide au poste 3"
  | dureeTache _ _ _ _ => "ERREUR: durée tâche "
  | apparuNonPrevu _ _ => "ERREUR: le produit "
  | apparuTropOuPeu _ _ _ => "ERREUR: le produit "
  | sortiTropOuPeu _ _ _ => "ERREUR: le produit "
  | assemblage _ _ _ => "Le produit "
  | tempsMoyen _ => "Le temps moyen d'assemblage de ce produit est de "

end Message

/-! ## The tables -/

/-- The variables of the first part. Row `p - 1` of `production` is `p` and its destinations, and
`verifConfig` lists each destination with its duration. -/
structure Config (F : Type) where
  erreurConfig : ℤ
  production : List (List ℤ)
  nbProduit : List ℤ
  verifConfig : List (ℤ × ℤ × F)
  affichage : List (Message F)

/-- The lines after the first one that contains `Start`. Without such a line, `readline` answers the
empty text for ever. -/
def apresStart : List Str → Option (List Str)
  | [] => none
  | ligne :: lignes => if "Start".toList <:+: ligne then some lignes else apresStart lignes

/-- One turn of the loop that groups the characters between spaces; the flag is `espace`. -/
def grouper : List Str × Bool → Char → List Str × Bool
  | (mots, espace), c =>
      if c = ' ' then (mots, true)
      else if espace then (mots ++ [[c]], false)
      else (mots.dropLast ++ [mots.getLastD [] ++ [c]], false)

/-- The words of a field, as the script cuts them. -/
def separer (champ : Str) : List Str := (champ.foldl grouper ([], true)).1

/-- Write at the start of a row. -/
def ranger (valeurs rangee : List ℤ) : List ℤ := valeurs ++ rangee.drop valeurs.length

namespace Config

variable {F : Type}

/-- The variables before the first product line. -/
def initial : Config F where
  erreurConfig := 0
  production := List.replicate 6 (List.replicate (maxTaches + 1) 0)
  nbProduit := List.replicate 6 0
  verifConfig := []
  affichage := []

/-- An error of declaration. -/
def signaler (c : Config F) (m : Message F) : Config F :=
  { c with erreurConfig := 1, affichage := c.affichage ++ [m] }

/-- The check of one destination. -/
def verifierDestination (c : Config F) (d : ℤ) : Config F :=
  if d < 1 ∨ d > 8 then c.signaler .mauvaiseDestination else c

/-- The check of the number of destinations. -/
def verifierNombre (c : Config F) (tacheVar : List ℤ) : Config F :=
  if tacheVar.length > maxTaches then c.signaler .tropDeDestinations else c

/-- Fill the row of the product, unless an error was found. -/
def remplirProduction (c : Config F) (produitNum : ℤ) (tacheVar : List ℤ) : Config F :=
  if c.erreurConfig = 0 then
    { c with production :=
        c.production.modify (produitNum - 1).toNat (ranger (produitNum :: tacheVar)) }
  else c

/-- The check of the number of durations, which prints nothing. -/
def verifierDurees (c : Config F) (dureVar : List F) : Config F :=
  if dureVar.length > maxTaches then { c with erreurConfig := 1 } else c

/-- The count that is ordered. -/
def commander (c : Config F) (produitNum var : ℤ) : Config F :=
  { c with nbProduit := c.nbProduit.set (produitNum - 1).toNat var }

/-- As many destinations as durations. -/
def verifierTailles (c : Config F) (tacheVar : List ℤ) (dureVar : List F) : Config F :=
  if tacheVar.length ≠ dureVar.length then c.signaler .pasAutantDeDurees else c

/-- Keep each destination with its duration, unless an error was found. -/
def remplirVerif (c : Config F) (produitNum : ℤ) (tacheVar : List ℤ) (dureVar : List F) :
    Config F :=
  if c.erreurConfig = 0 then
    { c with verifConfig :=
        c.verifConfig ++ (tacheVar.zip dureVar).map fun x => (produitNum, x.1, x.2) }
  else c

variable [Floating F]

/-- A line that declares the product `nom`; the flag says that the loop is left. -/
def lireProduit (c : Config F) (conf : List Str) (nom : Str) :
    Except Exception (Config F × Bool) := do
  let produitNum ← int nom
  -- a bad product number leaves the loop
  if produitNum < 1 ∨ produitNum > 6 then pure (c.signaler .mauvaisProduit, true)
  else do
    -- the destinations
    let tacheVar ← (separer (← item conf 1)).mapM int
    let c := tacheVar.foldl verifierDestination c
    let c := (c.verifierNombre tacheVar).remplirProduction produitNum tacheVar
    -- the durations
    let dureVar ← (separer (← item conf 2)).mapM float
    let c := c.verifierDurees dureVar
    -- the number that is ordered, kept even after an error
    let var ← int (← item conf 3)
    let c := (c.commander produitNum var).verifierTailles tacheVar dureVar
    pure (c.remplirVerif produitNum tacheVar dureVar, false)

/-- One turn of the loop over the lines. -/
def lireLigne (c : Config F) (ligne : Str) : Except Exception (Config F × Bool) := do
  let conf := split ':' ligne
  let nom := remove ' ' (← item conf 0)
  if nom ≠ ['\n'] then c.lireProduit conf nom else pure (c, false)

/-- The loop over the lines. -/
def lireLignes (c : Config F) : List Str → Except Exception (Config F)
  | [] => .ok c
  | ligne :: contenu => do
      let r ← c.lireLigne ligne
      if r.2 then pure r.1 else r.1.lireLignes contenu

end Config

/-- A table of one row for each product, written at a product and a task. -/
def ecrireTemps {F : Type} (temps : List (List F)) (x : ℤ × ℤ × F) :
    Except Exception (List (List F)) := do
  let rangee ← setItem (← item temps (x.1 - 1)) (x.2.1 - 1) x.2.2
  setItem temps (x.1 - 1) rangee

/-- A table of durations, filled from a list of products, tasks and durations. -/
def remplirTemps {F : Type} [Floating F] (verif : List (ℤ × ℤ × F)) :
    Except Exception (List (List F)) :=
  verif.foldlM ecrireTemps (List.replicate 6 (List.replicate 8 Floating.zero))

end Checker
