import Cellule.Capteurs
import Cellule.Shuttles.FileAttente

/-! # The shuttle manager

`shuttles/src/main_ShuttleManager.cpp`. The node follows every shuttle through 34 track sections. A
falling edge of the sensor that ends a section moves the shuttle at the head of that section's queue
into the queue of the next one, or drops it and publishes an error when the switch between the two
is still turning.

The accesses that C++ leaves unchecked go through `Except Faute` here, so a run that ends in `.ok`
is one in which every index of `liste_file` named a queue and no empty queue was read or popped.
-/

namespace Shuttles

/-- `shuttles/msg/Msg_Erreur.msg`. -/
structure MsgErreur where
  code : ℤ
  nPoste : ℤ
  deriving DecidableEq, Repr

/-- The variables of `main` that outlive one turn of the loop, and the errors published so far. -/
structure ShuttleManager where
  listeFile : List (Option FileAttente)
  etatCapteur : List Bool
  erreurs : List MsgErreur
  deriving DecidableEq, Repr

/-- The three queues that hold shuttles at the start. -/
structure QueuesInitiales where
  queue1 : List ℤ
  queue2 : List ℤ
  queue3 : List ℤ
  deriving DecidableEq, Repr

/-- One turn of the loop that spreads the shuttles over the initial queues. -/
def chargerNavette (q : QueuesInitiales) (i : ℕ) : QueuesInitiales :=
  if i = 0 then { q with queue3 := q.queue3 ++ [0] }
  else if i < 4 then { q with queue1 := q.queue1 ++ [(i : ℤ)] }
  else if i < 6 then { q with queue2 := q.queue2 ++ [(i : ℤ)] }
  else q

/-- The whole loop, for `NbNavette` shuttles. -/
def chargerNavettes (nbNavette : ℕ) : QueuesInitiales :=
  (List.range nbNavette).foldl chargerNavette ⟨[], [], []⟩

/-- `liste_file` as `main` fills it: sections `1..24` end at a stop sensor, sections `25..34` at a
position sensor. -/
def listeFileInitiale (q : QueuesInitiales) : List (Option FileAttente) :=
  [ none,
    some ⟨1, 1 + 24, 2 + 24, []⟩,    -- PS1
    some ⟨0, 3, 3, []⟩,              -- PS2
    some ⟨0, 5, 5, q.queue3⟩,
    some ⟨2, 0, 6, []⟩,
    some ⟨2, 6, 0, []⟩,
    some ⟨3, 24 + 3, 20, []⟩,
    some ⟨4, 8, 0, q.queue2⟩,
    some ⟨5, 4 + 24, 5 + 24, []⟩,
    some ⟨0, 10, 10, []⟩,
    some ⟨0, 12, 12, []⟩,
    some ⟨6, 0, 13, []⟩,
    some ⟨6, 13, 0, []⟩,
    some ⟨7, 6 + 24, 7 + 24, []⟩,
    some ⟨0, 15, 15, []⟩,
    some ⟨0, 17, 17, []⟩,
    some ⟨8, 0, 18, []⟩,
    some ⟨8, 18, 0, []⟩,
    some ⟨9, 8 + 24, 8, []⟩,
    some ⟨10, 20, 0, q.queue1⟩,
    some ⟨11, 9 + 24, 10 + 24, []⟩,
    some ⟨0, 22, 22, []⟩,
    some ⟨0, 24, 24, []⟩,
    some ⟨12, 0, 1, []⟩,
    some ⟨12, 1, 0, []⟩,
    some ⟨0, 2, 2, []⟩,              -- CP1
    some ⟨0, 4, 4, []⟩,              -- CP2
    some ⟨0, 7, 7, []⟩,
    some ⟨0, 9, 9, []⟩,
    some ⟨0, 11, 11, []⟩,
    some ⟨0, 14, 14, []⟩,
    some ⟨0, 16, 16, []⟩,
    some ⟨0, 19, 19, []⟩,
    some ⟨0, 21, 21, []⟩,
    some ⟨0, 23, 23, []⟩ ]

/-- The state in which the loop is entered, once `NbNavette` is known. -/
def initial (nbNavette : ℕ) : ShuttleManager :=
  { listeFile := listeFileInitiale (chargerNavettes nbNavette)
    etatCapteur := (List.range' 1 35).map fun _ => false
    erreurs := [] }

/-- `*liste_file[i]`. -/
def fileDe (l : List (Option FileAttente)) (i : ℕ) : Except Faute FileAttente :=
  match l[i]? with
  | some (some f) => .ok f
  | _ => .error .indice

/-- `v[i]` on the vectors of sensor levels. -/
def niveau (v : List Bool) (i : ℕ) : Except Faute Bool :=
  match v[i]? with
  | some b => .ok b
  | none => .error .indice

/-- `etat_capteur` as a scan rebuilds it: an unused slot, then `PS1..PS24`, then `CP1..CP10`. -/
def lireCapteurs (c : Capteurs) : List Bool :=
  false :: ((List.range' 1 24).map c.getPS ++ (List.range' 1 10).map c.getCP)

/-- `liste_file[suivante]->add_navette_in_queue(liste_file[i]->get_first_navette())` followed by
`liste_file[i]->delete_navette_in_queue()`. -/
def deplacerNavette (l : List (Option FileAttente)) (i suivante : ℕ) :
    Except Faute (List (Option FileAttente)) := do
  let cible ← fileDe l suivante
  let source ← fileDe l i
  let navette ← source.getFirstNavette
  let l := l.set suivante (some (cible.addNavetteInQueue navette))
  let source ← fileDe l i
  let source ← source.deleteNavetteInQueue
  return l.set i (some source)

/-- `liste_file[i]->delete_navette_in_queue()` alone. -/
def retirerNavette (l : List (Option FileAttente)) (i : ℕ) :
    Except Faute (List (Option FileAttente)) := do
  let source ← fileDe l i
  let source ← source.deleteNavetteInQueue
  return l.set i (some source)

/-- The branch of the edge loop that a falling edge of sensor `i` takes. -/
def brancheDescendante (c : Capteurs) (s : ShuttleManager) (i : ℕ) : Except Faute ShuttleManager := do
  let file ← fileDe s.listeFile i
  let suivante := file.maj (c.getDD file.idAiguillage) (c.getDG file.idAiguillage)
  if suivante > 0 then
    let l ← deplacerNavette s.listeFile i suivante.toNat
    return { s with listeFile := l }
  else if suivante = -1 then
    let l ← retirerNavette s.listeFile i
    return { s with listeFile := l, erreurs := s.erreurs ++ [⟨4, i⟩] }
  else return s

/-- The test of the edge loop for sensor `i`, whatever its branch does and the loop keeps. -/
def testerFront {σ : Type} (branche : σ → ℕ → Except Faute σ) (mem etat : List Bool) (s : σ) (i : ℕ) :
    Except Faute σ := do
  let present ← niveau etat i
  let avant ← niveau mem i
  if present = false ∧ avant = true then branche s i else return s

/-- The body of the edge loop for sensor `i`. -/
def traiterCapteur (c : Capteurs) (mem etat : List Bool) (s : ShuttleManager) (i : ℕ) :
    Except Faute ShuttleManager :=
  testerFront (brancheDescendante c) mem etat s i

/-- One turn of the loop of `main`, on the sensor image `c`. -/
def scan (s : ShuttleManager) (c : Capteurs) : Except Faute ShuttleManager := do
  let mem := s.etatCapteur
  let etat := lireCapteurs c
  let s ← (List.range' 1 34).foldlM (traiterCapteur c mem etat) s
  return { s with etatCapteur := etat }

/-- The loop over successive sensor images. -/
def executer (nbNavette : ℕ) (images : List Capteurs) : Except Faute ShuttleManager :=
  images.foldlM scan (initial nbNavette)

/-! ## The service `get_id_shuttle_at_poste` -/

/-- The stop sensor at a position of a robot on the track; another request leaves the global
`num_capteur` as it is. -/
def numCapteur (numCapteur : ℕ) (robot position : ℤ) : ℕ :=
  match robot, position with
  | 1, 2 => 21
  | 1, 3 => 22
  | 2, 2 => 2
  | 2, 3 => 3
  | 3, 2 => 14
  | 3, 3 => 15
  | 4, 2 => 9
  | 4, 3 => 10
  | _, _ => numCapteur

/-- `shuttle_at_poste`: the shuttle at the head of the queue before a sensor, `66` when there is
none; `num` is the value the previous request has left in `num_capteur`. -/
def shuttleAtPoste (s : ShuttleManager) (num : ℕ) (robot position : ℤ) : Except Faute ℤ := do
  let file ← fileDe s.listeFile (numCapteur num robot position)
  if file.queue = [] then return 66 else file.getFirstNavette

end Shuttles
