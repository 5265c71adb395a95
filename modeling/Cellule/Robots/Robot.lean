import Cellule.Lib.Prog
import Cellule.Robots.Pile
import Cellule.Robots.Poste

/-! # A robot node

`robots/src/Robot.cpp`. The routines wait for the simulator between their steps, so they are written
as programs over what a node exchanges with the outside. The console messages are left out, and
angles are counted in degrees, which the source converts with `pi/180`.
-/

namespace Robots

open Reactive Reactive.Prog

/-! ## What a node exchanges -/

/-- The requests a node waits on: topics of the simulator, and the service of the shuttle manager.
A colour signal is named by its place and the index of its cube (`nom#cube_color`). -/
inductive Requete
  | setJointState (numRobot : ℤ) (rpos : Fin 7 → ℤ)
  | getJointState (numRobot : ℤ) (joint : Fin 7)
  | getTime
  | getTimeUpdate
  | getColor (nom : String) (cube : ℕ)
  | changeColor (data : List ℤ)
  | changeShuttleColor (data : List ℤ)
  | getIdShuttle (robot position : ℤ)

/-- The reply to each request; a joint position is in radians. -/
abbrev Requete.Reponse (τ : Type) : Requete → Type
  | setJointState _ _ => Unit
  | getJointState _ _ => ℚ
  | getTime => τ
  | getTimeUpdate => τ
  | getColor _ _ => ℤ
  | changeColor _ => Unit
  | changeShuttleColor _ => Unit
  | getIdShuttle _ _ => ℤ

/-- The messages published without waiting. -/
inductive Message
  | retourCommande (numRobot data : ℤ)
  | robotTransport (numRobot : ℤ) (valeur : Bool)
  | erreurLog (code nPoste : ℤ)
  | tacheFinie (numPoste numProduit duree : ℤ)
  | produitEvac (data : List ℤ)
  | cmdPince (numRobot cmd : ℤ)
  | robotPosition (numRobot data : ℤ)
  | robotBras (numRobot data : ℤ)
  | robotPince (numRobot data : ℤ)
  | stopTache (numRobot position : ℤ)
  deriving DecidableEq

/-- The topics and the service of the cell. -/
abbrev interface (τ : Type) : Interface where
  Request := Requete
  Reply := Requete.Reponse τ
  Message := Message

namespace Requete

variable {τ σ : Type}

/-- Ask for the reply to a request. -/
def demander (q : Requete) : Prog (interface τ) σ (q.Reponse τ) := .ask q .ret

/-- Ask again until the reply is accepted. -/
def redemander (q : Requete) (ok : σ → q.Reponse τ → Bool) : Prog (interface τ) σ Unit :=
  .askUntil q ok (.ret ())

end Requete

/-- `robots/msg/FaireTacheMsg.msg`. -/
structure FaireTacheMsg where
  numRobot : ℤ
  position : ℤ
  duree : ℤ
  deriving DecidableEq

/-- `commande_locale/msg/DeplacerPieceMsg.msg`. -/
structure DeplacerPieceMsg where
  numRobot : ℤ
  positionA : ℤ
  positionB : ℤ
  deriving DecidableEq

/-! ## The attributes -/

/-- The attributes of `class Robot` that outlive a routine. -/
structure Robot (τ : Type) where
  numRobot : ℤ
  rpos : Fin 7 → ℤ
  couleurTransportee : Pile
  retour : ℤ
  robotPosition : ℤ
  postePos1 : Poste τ
  postePos4 : Poste τ

/-- The code of a robot node. -/
abbrev Code (τ : Type) := Prog (interface τ) (Robot τ)

namespace Robot

variable {τ : Type}

/-- The post at position 1, or at position 4. -/
def poste (s : Robot τ) (position : ℤ) : Poste τ :=
  if position = 1 then s.postePos1 else s.postePos4

/-- Replace the post at position 1, or at position 4. -/
def setPoste (s : Robot τ) (position : ℤ) (p : Poste τ) : Robot τ :=
  if position = 1 then { s with postePos1 := p } else { s with postePos4 := p }

/-- The data of the acknowledgement about a post: `8` for position 1, `9` for position 4. -/
def codeRetour (position : ℤ) : ℤ := if position = 1 then 8 else 9

/-- The names and numbers of the two posts, position 1 first (`Robot::init`). -/
def nomsPostes : ℤ → (String × ℤ) × (String × ℤ)
  | 1 => (("Table#1", 2), ("Table#0", 1))
  | 2 => (("Table#3", 3), ("Table#4", 4))
  | 3 => (("Table#7", 6), ("Table#6", 5))
  | 4 => (("Table#9", 7), ("Table#10", 8))
  | _ => (("", 0), ("", 0))

/-- The constructor followed by `Robot::init`. -/
def init [Horloge τ] (numRobot : ℤ) : Robot τ :=
  { numRobot
    rpos := fun _ => 0
    couleurTransportee := Pile.vide
    retour := 0
    robotPosition := 0
    postePos1 := Poste.init (nomsPostes numRobot).1.1 (nomsPostes numRobot).1.2
    postePos4 := Poste.init (nomsPostes numRobot).2.1 (nomsPostes numRobot).2.2 }

/-- `Robot::computeTableId`. -/
def computeTableId (numRobot position : ℤ) : ℤ :=
  match numRobot with
  | 1 => if position = 1 then 1 else if position = 4 then 0 else -1
  | 2 => if position = 1 then 3 else if position = 4 then 4 else -1
  | 3 => if position = 1 then 7 else if position = 4 then 6 else -1
  | 4 => if position = 1 then 9 else if position = 4 then 10 else -1
  | _ => -1

/-- `retour.data = data` and its publication. -/
def retourner (data : ℤ) : Code τ Unit := do
  modify fun s => { s with retour := data }
  let s ← get
  publish (.retourCommande s.numRobot data)

/-- `Robot::transport`. -/
def transport (valeur : Bool) : Code τ Unit := do
  let s ← get
  publish (.robotTransport s.numRobot valeur)

/-! ## Arm and gripper -/

/-- The predefined poses of `Robot::EnvoyerRobot`. -/
def pose : ℤ → Option (Fin 7 → ℤ)
  | 1 => some ![128, 90, 90, 80, 90, -90, -40]
  | 2 => some ![60, 90, 90, 80, 90, -90, -20]
  | 3 => some ![15, 90, 90, 80, 90, -90, -65]
  | 4 => some ![-53, 90, 90, 80, 90, -90, -40]
  | _ => none

/-- The constant `pi` of the constructor. -/
def pi : ℚ := 314159265359 / 100000000000

/-- `abs(Position-Rpos[i]) < 0.001`. -/
def atteint (cible : ℤ) (position : ℚ) : Bool := decide (|position - cible * pi / 180| < 1 / 1000)

/-- Send `Rpos` to the joints and wait until each of them is there. -/
def rejoindre : Code τ Unit := do
  let s ← get
  let _ ← (Requete.setJointState s.numRobot s.rpos).demander
  (List.finRange 7).forM fun i =>
    (Requete.getJointState s.numRobot i).redemander fun s position => atteint (s.rpos i) position

/-- `Robot::EnvoyerRobot`. -/
def envoyerRobot (numposition : ℤ) : Code τ Unit := do
  modify fun s =>
    { s with robotPosition := numposition, rpos := (pose numposition).getD s.rpos }
  rejoindre
  retourner 2
  let s ← get
  publish (.robotPosition s.numRobot s.robotPosition)

/-- What `Robot::DescendreBras` adds to the joints. -/
def descente : Fin 7 → ℤ := ![2, 10, 0, 0, 10, 3, 6]

/-- `Robot::DescendreBras`. -/
def descendreBras : Code τ Unit := do
  modify fun s => { s with rpos := fun i => s.rpos i + descente i }
  rejoindre
  retourner 4
  let s ← get
  publish (.robotBras s.numRobot 0)

/-- `Robot::MonterBras`. -/
def monterBras : Code τ Unit := do
  modify fun s => { s with rpos := fun i => s.rpos i - descente i }
  rejoindre
  retourner 5
  let s ← get
  publish (.robotBras s.numRobot 1)

/-- The wait and the acknowledgement of a gripper order, skipped when `code` was the last
acknowledgement sent. -/
def attendrePince [Horloge τ] (code : ℤ) : Code τ Unit := do
  let s ← get
  if s.retour ≠ code then do
    let t0 : τ ← Requete.getTime.demander
    Requete.getTime.redemander fun _ (time : τ) => !Horloge.demiSeconde time t0
    retourner code
  else pure ()

/-- What `Robot::FermerPince` and `Robot::OuvrirPince` share. -/
def bougerPince [Horloge τ] (cmd code : ℤ) : Code τ Unit := do
  let s ← get
  publish (.cmdPince s.numRobot cmd)
  attendrePince code
  publish (.robotPince s.numRobot cmd)

/-- `Robot::FermerPince`. -/
def fermerPince [Horloge τ] : Code τ Unit := bougerPince 1 6

/-- `Robot::OuvrirPince`. -/
def ouvrirPince [Horloge τ] : Code τ Unit := bougerPince 0 7

/-! ## Reading and writing colours -/

/-- The name of a shuttle: `Shuttle` and a letter. -/
def nomNavette (idNavette : ℤ) : String :=
  "Shuttle" ++ String.singleton
    (if idNavette = 0 then 'Z' else Char.ofNat (idNavette + 64).toNat)

/-- `atoi(nom.substr(6))` on the name of a table. -/
def idPoste (nom : String) : ℤ :=
  (nom.toList.drop 6).foldl (fun n c => 10 * n + (c.toNat - '0'.toNat : ℕ)) 0

/-- Read the colours of all the cubes of a place. -/
def lireCouleurs (signal : String) : Code τ (List ℤ) :=
  (List.range nbCube).mapM fun i => (Requete.getColor signal i).demander

/-- The loop that looks for the first empty slot: read the cubes from index `i` on, at most `reste`
of them, up to an empty one. -/
def chercherCaseVide (signal : String) : ℕ → ℕ → Code τ (List ℤ)
  | 0, _ => pure []
  | reste + 1, i => do
    let couleur : ℤ ← (Requete.getColor signal i).demander
    if couleur = 0 then pure [couleur]
    else do
      let suite ← chercherCaseVide signal reste (i + 1)
      pure (couleur :: suite)

/-- The array `couleur` after the scan has read `lus`. -/
def tableau (lus : List ℤ) : List ℤ := lus ++ List.replicate (nbCube - lus.length) 0

/-- The part of `Robot::Colorer` that stops a task running on the post it is about to touch. -/
def interrompreTache (position : ℤ) : Code τ Unit := do
  let s ← get
  if (s.poste position).taskEnCours then do
    publish (.erreurLog 3 (s.poste position).numeroPoste)
    modify fun s => s.setPoste position (s.poste position).stopTask
    retourner (codeRetour position)
  else pure ()

/-- The name of the place at a position, once a task running there is stopped. -/
def choisirSignal (position idNavette : ℤ) : Code τ String :=
  if position = 2 ∨ position = 3 then pure (nomNavette idNavette)
  else if position = 1 ∨ position = 4 then do
    interrompreTache position
    let s ← get
    pure (s.poste position).nomPoste
  else pure ""

/-- Give the place at a position the colours in the gripper. -/
def peindre (position idNavette : ℤ) : Code τ Unit := do
  let s ← get
  if position = 2 ∨ position = 3 then do
    let _ ← (Requete.changeShuttleColor (idNavette :: s.couleurTransportee.toList)).demander
    pure ()
  else if position = 1 ∨ position = 4 then do
    let _ ← (Requete.changeColor
      (computeTableId s.numRobot position :: s.couleurTransportee.toList)).demander
    pure ()
  else pure ()

/-- `ON A ECRASE UN PRODUIT`, on a placement over a stack that is not empty. -/
def signalerEcrasement (type : ℤ) (couleurVide : Bool) : Code τ Unit := do
  let s ← get
  if type = 1 ∧ couleurVide = false then publish (.erreurLog 66 s.numRobot) else pure ()

/-- `Robot::Colorer` at a place that exists. -/
def colorerPlace (position type idNavette : ℤ) : Code τ Unit := do
  let signal ← choisirSignal position idNavette
  let couleur ← lireCouleurs signal
  let couleurVide := couleur.all fun c => c == 0
  peindre position idNavette
  modify fun s =>
    { s with couleurTransportee := if type = 0 then Pile.ofList couleur else Pile.vide }
  transport (decide (type = 0) && !couleurVide)
  signalerEcrasement type couleurVide

/-- `Robot::Colorer` when the shuttle manager answers `66`. -/
def viderPince : Code τ Unit := do
  modify fun s => { s with couleurTransportee := Pile.vide }
  transport false

/-- The answer of the shuttle manager for a position on the track, `-1` for a post. -/
def chercherNavette (position : ℤ) : Code τ ℤ := do
  let s ← get
  if position = 2 ∨ position = 3 then (Requete.getIdShuttle s.numRobot position).demander else pure (-1)

/-- `Robot::Colorer`: a pick for `type` 0, a placement for `type` 1. -/
def colorer (position type : ℤ) : Code τ Unit := do
  let idNavette ← chercherNavette position
  if idNavette = 66 then viderPince else colorerPlace position type idNavette

/-- `Robot::DeplacerPieceCallback`. -/
def deplacerPieceCallback [Horloge τ] (msg : DeplacerPieceMsg) : Code τ Unit := do
  let s ← get
  if s.numRobot = msg.numRobot then do
    envoyerRobot msg.positionA
    descendreBras
    colorer msg.positionA 0
    fermerPince
    monterBras
    envoyerRobot msg.positionB
    descendreBras
    colorer msg.positionB 1
    ouvrirPince
    monterBras
    retourner 10
  else pure ()

/-! ## Tasks -/

/-- `Robot::colorerPosteDebutTask`: the index of the slot that received the transparent cube, `none`
for the source's `-1`. -/
def colorerPosteDebutTask (positionPoste : ℤ) : Code τ (Option ℕ) := do
  let s ← get
  let p := s.poste positionPoste
  let lus ← chercherCaseVide p.nomPoste nbCube 0
  if lus.length = 1 then do
    publish (.erreurLog 1 p.numeroPoste)
    pure none
  else if lus.length = nbCube ∧ lus.getLastD 0 ≠ 0 then do
    publish (.erreurLog 2 p.numeroPoste)
    pure none
  else do
    let _ ← (Requete.changeColor
      (idPoste p.nomPoste :: (tableau lus).set (lus.length - 1) (p.couleur - 1))).demander
    pure (some (lus.length - 1))

/-- The index that `Robot::colorerPosteFinTask` overwrites, `none` when it is `-1`. -/
def caseFinTask (lus : List ℤ) : Option ℕ :=
  if lus.length = nbCube ∧ lus.getLastD 0 ≠ 0 then some (lus.length - 1)
  else if 2 ≤ lus.length then some (lus.length - 2)
  else none

/-- `Robot::colorerPosteFinTask`: the index of the cube it overwrites. -/
def colorerPosteFinTask (positionPoste duree : ℤ) : Code τ ℕ := do
  let s ← get
  let p := s.poste positionPoste
  let lus ← chercherCaseVide p.nomPoste nbCube 0
  match caseFinTask lus with
  | none => fault
  | some indice => do
    let couleur := (tableau lus).set indice p.couleur
    let _ ← (Requete.changeColor (idPoste p.nomPoste :: couleur)).demander
    publish (.tacheFinie p.numeroPoste (couleur.getD 0 0) duree)
    pure indice

/-- The end of `Robot::faireTacheCallback`: start the task, or acknowledge it at once when no cube
could be placed. -/
def commencerTache (msg : FaireTacheMsg) (time : τ) : Option ℕ → Code τ (Option ℕ)
  | some i => do
    modify fun s => s.setPoste msg.position ((s.poste msg.position).debutTask time msg.duree)
    pure (some i)
  | none => do
    retourner (codeRetour msg.position)
    pure none

/-- `Robot::faireTacheCallback`, with the local `retourDebTask` as its result. -/
def faireTacheCallback (msg : FaireTacheMsg) : Code τ (Option ℕ) := do
  let s ← get
  if msg.numRobot = s.numRobot ∧ (msg.position = 1 ∨ msg.position = 4) then do
    let time : τ ← Requete.getTime.demander
    let retourDebTask ← colorerPosteDebutTask msg.position
    commencerTache msg time retourDebTask
  else pure none

/-- One half of `Robot::update`, with the local `indice` as its result when a task is finished. -/
def updatePoste [Horloge τ] (position : ℤ) (time : τ) : Code τ (Option ℕ) := do
  let s ← get
  if (s.poste position).finTache time then do
    modify fun s => s.setPoste position ((s.poste position).updateTask time).2
    let indice ← colorerPosteFinTask position (s.poste position).dureeTask
    (Requete.getColor (s.poste position).nomPoste indice).redemander fun s (couleur : ℤ) =>
      couleur == (s.poste position).couleur
    retourner (codeRetour position)
    pure (some indice)
  else pure none

/-- `Robot::update`, with the indices found for position 1 and for position 4. -/
def update [Horloge τ] : Code τ (Option ℕ × Option ℕ) := do
  let s ← get
  if s.postePos1.taskEnCours ∨ s.postePos4.taskEnCours then do
    let time : τ ← Requete.getTimeUpdate.demander
    let indice1 ← updatePoste 1 time
    let indice4 ← updatePoste 4 time
    pure (indice1, indice4)
  else pure (none, none)

/-- `Robot::Evacuer`. -/
def evacuer : Code τ Unit := do
  let s ← get
  if s.numRobot = 2 then do
    let couleur ← lireCouleurs s.postePos1.nomPoste
    publish (.produitEvac couleur)
    let _ ← (Requete.changeColor
      (computeTableId s.numRobot 1 :: List.replicate nbCube 0)).demander
    pure ()
  else pure ()

/-- `Robot::stopTacheCallback`. -/
def stopTacheCallback (data : ℤ) : Code τ Unit :=
  if data = 1 ∨ data = 4 then do
    modify fun s => s.setPoste data (s.poste data).stopTask
    retourner (codeRetour data)
  else pure ()

end Robot

end Robots
