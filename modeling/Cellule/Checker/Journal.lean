import Cellule.Checker.Config

/-! # Reading the log

`checker.py`, from the second part on: the loop over the lines of the log, the comparison with the
configuration, and the recapitulation.
-/

namespace Checker

open Python

/-- The variables of the second part. A row of `D` is the number and the type of a task; `D` and
`DList` outlive the line they were filled from. -/
structure Journal (F : Type) where
  test : ℤ
  verifConfigLog : List (ℤ × ℤ × F)
  nbProduitLog : List ℤ
  nbProduitNew : List ℤ
  produitEntree : List (ℤ × F)
  produitDuree : List F
  D : List (ℤ × ℤ)
  DList : List Str
  affichage : List (Message F)

/-! ## The fields of a line -/

/-- The fields of a line of the log. -/
def champs (line : Str) : List Str := split ':' (remove ' ' line)

/-- The first field. -/
def identifiant (line : Str) : Str := (champs line).headD []

/-- `int(champ[i])`, the value of one digit of a field. -/
def chiffre (champ : Str) (i : ℤ) : Except Exception ℤ := do int [← item champ i]

/-- The task fields of a `Sortie` line, between the product and the time. -/
def champsTaches (info : List Str) : List Str := (info.drop 2).take (info.length - 3)

/-- The digit after the number, read only when the number is not zero. -/
def chiffreType (numero : ℤ) (champ : Str) (ancien : ℤ) : Except Exception ℤ :=
  if numero ≠ 0 then chiffre champ 1 else pure ancien

/-- The loop that fills `D` from the task fields. -/
def remplirD : List (ℤ × ℤ) → List Str → Except Exception (List (ℤ × ℤ))
  | D, [] => pure D
  -- there is no `D[i]`, which the script finds out once it has read the digit
  | [], champ :: _ => do
      let _ ← chiffre champ 0
      throw .indexError
  | d :: D, champ :: DList => do
      let numero ← chiffre champ 0
      let type ← chiffreType numero champ d.2
      let D' ← remplirD D DList
      pure ((numero, type) :: D')

/-- The search of the oldest entry of `P`, which is then cleared: its time, and the list that is
left. -/
def sortirEntree {F : Type} (P : ℤ) : List (ℤ × F) → Except Exception (F × List (ℤ × F))
  -- the loop runs past the end of `produit_entree`
  | [] => throw .indexError
  | (Q, entree) :: suite =>
      if Q = P then pure (entree, (0, entree) :: suite)
      else do
        let r ← sortirEntree P suite
        pure (r.1, (Q, entree) :: r.2)

/-- What a `Sortie` line reads: the time, the product and its type, and the tasks. -/
structure Sortie (F : Type) where
  time : F
  P : ℤ
  pType : ℤ
  D : List (ℤ × ℤ)
  DList : List Str

namespace Journal

variable {F : Type}

/-- Rows of `D` that hold nothing. -/
def videD : List (ℤ × ℤ) := List.replicate maxTaches (0, 0)

/-- An error: a line is printed and the log fails. -/
def signaler (j : Journal F) (m : Message F) : Journal F :=
  { j with test := 0, affichage := j.affichage ++ [m] }

/-- A line is printed. -/
def afficher (j : Journal F) (m : Message F) : Journal F :=
  { j with affichage := j.affichage ++ [m] }

/-- A line that reports an error of the cell. -/
def lireErreur (j : Journal F) (info : List Str) (m : ℤ → Message F) :
    Except Exception (Journal F) := do
  let poste ← int (strip '\n' (← item info 1))
  pure (j.signaler (m poste))

/-- The message on the base of a product that comes in. -/
def verifierApparition (j : Journal F) (attendus nouveaux : ℤ) (time : F) (P pType : ℤ) :
    Journal F :=
  if pType ≠ 4 ∧ attendus ≠ 0 then j.signaler (.apparitionPasProduit time nouveaux P) else j

/-- The messages on the types of the tasks; the last field is not looked at. -/
def afficherTypes (j : Journal F) (tailleD : ℕ) (sortis P : ℤ) (D : List (ℤ × ℤ)) : Journal F :=
  (D.take (tailleD - 1)).zipIdx.foldl (fun j x =>
    if x.1.2 = 2 then j.afficher (.tacheNonTerminee (x.2 + 1) sortis P)
    else if x.1.2 ≠ 3 then j.afficher (.pasUneTache (x.2 + 1) sortis P)
    else j) j

/-- The comparison of a product that leaves with what is ordered. -/
def verifierSortie (j : Journal F) (attendus sortis : ℤ) (attendu lu : List ℤ) (s : Sortie F) :
    Journal F :=
  if attendus ≠ 0 ∧ sortis ≤ attendus then
    -- the tasks, the base, then the types of the tasks
    let j := if lu ≠ attendu then j.signaler (.enchainementTaches sortis s.P attendu.tail lu.tail)
      else j
    let j := if s.pType ≠ 4 then j.signaler (.basePasProduit sortis s.P) else j
    j.afficherTypes s.DList.length sortis s.P s.D
  else j

variable [Floating F]

/-- The variables before the first line of the log. -/
def initial : Journal F where
  test := 1
  verifConfigLog := []
  nbProduitLog := List.replicate 6 0
  nbProduitNew := List.replicate 6 0
  produitEntree := []
  produitDuree := List.replicate 6 Floating.zero
  D := videD
  DList := []
  affichage := []

/-- A `TempoT` line. -/
def lireTempoT (j : Journal F) (info : List Str) : Except Exception (Journal F) := do
  let P ← int (strip '\n' [← item (← item info 1) 0])
  let dTempo ← int (← item info 2)
  let T ← float (← item info 3)
  pure { j with verifConfigLog := j.verifConfigLog ++ [(P, dTempo, T)] }

/-- A `NouveauProduit` line. -/
def lireNouveauProduit (c : Config F) (j : Journal F) (info : List Str) :
    Except Exception (Journal F) := do
  let champ ← item info 1
  let P ← chiffre champ 0
  let pType ← chiffre champ 1
  let time ← float (strip '\n' (← item info 2))
  let nouveaux := (← item j.nbProduitNew (P - 1)) + 1
  let nbProduitNew ← setItem j.nbProduitNew (P - 1) nouveaux
  let attendus ← item c.nbProduit (P - 1)
  pure ({ j with nbProduitNew, produitEntree := j.produitEntree ++ [(P, time)] }.verifierApparition
    attendus nouveaux time P pType)

/-- What is read on a `Sortie` line. -/
def analyserSortie (j : Journal F) (info : List Str) : Except Exception (Sortie F) := do
  let champ ← item info 1
  -- the fields are appended to those that are there
  let DList := j.DList ++ champsTaches info
  let time ← float (strip '\n' (← item info (info.length - 1)))
  let P ← chiffre champ 0
  let pType ← chiffreType P champ 0
  let D ← remplirD j.D DList
  pure { time, P, pType, D, DList }

/-- What is done for a product that leaves. -/
def sortir (c : Config F) (j : Journal F) (s : Sortie F) : Except Exception (Journal F) := do
  let produitFinal := s.P :: (s.D.take maxTaches).map Prod.fst
  let sortis := (← item j.nbProduitLog (s.P - 1)) + 1
  let nbProduitLog ← setItem j.nbProduitLog (s.P - 1) sortis
  -- the time inside, from the oldest entry of the product
  let r ← sortirEntree s.P j.produitEntree
  let duree := Floating.add (← item j.produitDuree (s.P - 1)) (Floating.sub s.time r.1)
  let produitDuree ← setItem j.produitDuree (s.P - 1) duree
  let attendus ← item c.nbProduit (s.P - 1)
  let attendu ← item c.production (s.P - 1)
  let j := { j with nbProduitLog, produitEntree := r.2, produitDuree }.verifierSortie attendus sortis
    attendu produitFinal s
  -- `D` and `D_list` are emptied on this branch only
  pure { j with D := videD, DList := [] }

/-- What is done for an empty evacuation; what was read stays in `D` and `DList`. -/
def sortirVide (c : Config F) (j : Journal F) (s : Sortie F) : Except Exception (Journal F) := do
  -- for `P = 0` the subscript is -1, the last product
  let attendus ← item c.nbProduit (s.P - 1)
  let j := { j with D := s.D, DList := s.DList }
  pure (if attendus = 0 then j.signaler .evacuationVide else j)

/-- A `Sortie` line. -/
def lireSortie (c : Config F) (j : Journal F) (info : List Str) : Except Exception (Journal F) := do
  let s ← j.analyserSortie info
  if s.P ≠ 0 then j.sortir c s else j.sortirVide c s

/-- One turn of the loop over the log. -/
def lireLigne (c : Config F) (j : Journal F) (line : Str) : Except Exception (Journal F) :=
  let info := champs line
  let ID := identifiant line
  if ID = "OperationPosteVide".toList then j.lireErreur info .operationPosteVide
  else if ID = "OperationProduitPlein".toList then j.lireErreur info .operationProduitPlein
  else if ID = "EcrasementProduit".toList then j.lireErreur info .ecrasementProduit
  else if ID = "PerteNavette".toList then j.lireErreur info .perteNavette
  else if ID = "TempoT".toList then j.lireTempoT info
  else if ID = "NouveauProduit".toList then j.lireNouveauProduit c info
  else if ID = "Sortie".toList then j.lireSortie c info
  else pure j

/-- The loop over the log. -/
def lireLog (c : Config F) (j : Journal F) (Log : List Str) : Except Exception (Journal F) :=
  Log.foldlM (lireLigne c) j

/-- The mean time of presence of each product that left. -/
def moyennes (j : Journal F) : Journal F :=
  { j with produitDuree := List.zipWith (fun duree n : _ =>
      if n ≠ 0 then Floating.divInt duree n else duree) j.produitDuree j.nbProduitLog }

/-! ## Comparison with the configuration -/

/-- The durations of one task: `verif_temps` is 2 when they differ. -/
def comparerDuree (attendus : ℤ) (i : ℕ) (j : Journal F) (x : (F × F) × ℕ) : Journal F :=
  if Floating.eq x.1.1 x.1.2 = false ∧ attendus ≠ 0 ∧ Floating.eq x.1.1 Floating.zero = false then
    j.signaler (.dureeTache (x.2 + 1) (i + 1) x.1.1 x.1.2)
  else j

/-- The durations of the tasks of one product. -/
def comparerDurees (j : Journal F) (x : (ℤ × List F × List F) × ℕ) : Journal F :=
  (x.1.2.1.zip x.1.2.2).zipIdx.foldl (comparerDuree x.1.1 x.2) j

/-- The number of times a product came in. -/
def comparerApparus (j : Journal F) (i : ℕ) (attendus nouveaux : ℤ) : Journal F :=
  if attendus ≠ nouveaux then
    if attendus = 0 then j.signaler (.apparuNonPrevu (i + 1) nouveaux)
    else j.signaler (.apparuTropOuPeu (i + 1) attendus nouveaux)
  else j

/-- The number of times a product left. -/
def comparerSortis (j : Journal F) (i : ℕ) (attendus sortis : ℤ) : Journal F :=
  if attendus ≠ sortis ∧ attendus ≠ 0 then j.signaler (.sortiTropOuPeu (i + 1) sortis attendus)
  else j

/-- The counts of one product. -/
def comparerNombres (j : Journal F) (x : (ℤ × ℤ × ℤ) × ℕ) : Journal F :=
  (j.comparerApparus x.2 x.1.1 x.1.2.1).comparerSortis x.2 x.1.1 x.1.2.2

/-- The comparison of the log with the configuration. -/
def comparer (c : Config F) (j : Journal F) (temps tempsLog : List (List F)) : Journal F :=
  let j := (c.nbProduit.zip (temps.zip tempsLog)).zipIdx.foldl comparerDurees j
  (c.nbProduit.zip (j.nbProduitNew.zip j.nbProduitLog)).zipIdx.foldl comparerNombres j

/-- The lines on one product when the log is right. -/
def recapituler (j : Journal F) (x : (ℤ × ℤ × List ℤ × F) × ℕ) : Journal F :=
  if x.1.1 ≠ 0 then
    (j.afficher (.assemblage (x.2 + 1) x.1.2.1 x.1.2.2.1.tail)).afficher (.tempsMoyen x.1.2.2.2)
  else j

/-- The recapitulation. -/
def conclure (c : Config F) (j : Journal F) : Journal F :=
  if j.test = 1 then
    (c.nbProduit.zip (j.nbProduitLog.zip (c.production.zip j.produitDuree))).zipIdx.foldl recapituler j
  else j

end Journal

/-- The script on the lines after `Start` and on the log: the variables it ends with. -/
def checker {F : Type} [Floating F] (contenu Log : List Str) :
    Except Exception (Config F × Journal F) := do
  let c ← Config.initial.lireLignes contenu
  if c.erreurConfig = 0 then do
    let temps ← remplirTemps c.verifConfig
    let j ← Journal.lireLog c .initial Log
    let tempsLog ← remplirTemps j.verifConfigLog
    pure (c, (j.moyennes.comparer c temps tempsLog).conclure c)
  else pure (c, .initial)

end Checker
