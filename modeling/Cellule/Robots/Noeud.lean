import Cellule.Lib.Latch
import Cellule.Robots.Robot

/-! # The waits of a robot node

Every wait of `Robot.cpp` is the loop `while(!repSim_x&&ros::ok()) { ros::spinOnce(); … }`, and
`spinOnce` runs the callbacks of the topics: a routine that waits can be covered by another one.
Each topic of the simulator has one flag `repSim_x` and one value, for all the routines of the node.
-/

namespace Robots

open Reactive

/-- The topics of the simulator, and the service of the shuttle manager. -/
inductive Canal
  | setJointState
  | getJointState
  | getTime
  | getTimeUpdate
  | getColor
  | changeColor
  | changeShuttleColor
  | idShuttle
  deriving DecidableEq

/-- The messages of the response topics of the simulator. -/
inductive ReponseSim (τ : Type)
  | setJointState
  | getJointState (position : ℚ)
  | getTime (time : τ)
  | getTimeUpdate (time : τ)
  | getColor (couleur : ℤ)
  | changeColor
  | changeShuttleColor
  deriving DecidableEq

/-- The topic of a request. -/
def Requete.canal : Requete → Canal
  | setJointState _ _ => .setJointState
  | getJointState _ _ => .getJointState
  | getTime => .getTime
  | getTimeUpdate => .getTimeUpdate
  | getColor _ _ => .getColor
  | changeColor _ => .changeColor
  | changeShuttleColor _ => .changeShuttleColor
  | getIdShuttle _ _ => .idShuttle

/-- The service call is the only request that does not run `spinOnce`. -/
def Requete.estService : Requete → Bool
  | getIdShuttle _ _ => true
  | _ => false

namespace ReponseSim

variable {τ : Type}

/-- The flag that the callback of a message raises. -/
def canal : ReponseSim τ → Canal
  | setJointState => .setJointState
  | getJointState _ => .getJointState
  | getTime _ => .getTime
  | getTimeUpdate _ => .getTimeUpdate
  | getColor _ => .getColor
  | changeColor => .changeColor
  | changeShuttleColor => .changeShuttleColor

/-- The value that a message leaves for a request of its topic. -/
def valeur : ReponseSim τ → (q : Requete) → Option (q.Reponse τ)
  | setJointState, .setJointState _ _ => some ()
  | getJointState position, .getJointState _ _ => some position
  | getTime time, .getTime => some time
  | getTimeUpdate time, .getTimeUpdate => some time
  | getColor couleur, .getColor _ _ => some couleur
  | changeColor, .changeColor _ => some ()
  | changeShuttleColor, .changeShuttleColor _ => some ()
  | _, _ => none

end ReponseSim

/-- The topics and the service of a robot node. -/
def liaisons (τ : Type) : Wiring (interface τ) Canal (ReponseSim τ) where
  channel := Requete.canal
  source := ReponseSim.canal
  read := ReponseSim.valeur
  direct := Requete.estService

/-- The callbacks of the orders, and the `update` of the main loop. -/
inductive Activation
  | deplacerPiece (msg : DeplacerPieceMsg)
  | faireTache (msg : FaireTacheMsg)
  | evacuer
  | stopTache (data : ℤ)
  | update

/-- The code of an activation. -/
def Activation.code {τ : Type} [Horloge τ] : Activation → Code τ Unit
  | deplacerPiece msg => Robot.deplacerPieceCallback msg
  | faireTache msg => do
    let _ ← Robot.faireTacheCallback (τ := τ) msg
    pure ()
  | evacuer => Robot.evacuer
  | stopTache data => Robot.stopTacheCallback data
  | update => do
    let _ ← Robot.update (τ := τ)
    pure ()

/-- A robot node with its suspended routines. -/
abbrev Noeud (τ : Type) := Node (interface τ) Canal (ReponseSim τ) (Robot τ)

/-- What can happen to a robot node. -/
abbrev EvenementNoeud (τ : Type) := NodeEvent (interface τ) Activation (ReponseSim τ)

namespace Noeud

variable {τ : Type} [Horloge τ]

/-- The node after `Robot::init`. -/
def initial (numRobot : ℤ) : Noeud τ := Node.idle (Robot.init numRobot)

/-- One step of the node. -/
def etape (s : Noeud τ) (e : EvenementNoeud τ) : Option (Noeud τ) :=
  s.step (liaisons τ) Activation.code e

omit [Horloge τ] in
/-- `update` is called by the main loop only. -/
def Possible (s : Noeud τ) : EvenementNoeud τ → Prop
  | .start .update => s.stack.isEmpty = true
  | _ => True

omit [Horloge τ] in
instance (s : Noeud τ) (e : EvenementNoeud τ) : Decidable (s.Possible e) := by
  unfold Possible
  split <;> infer_instance

omit [Horloge τ] in
/-- At most one routine waits for a colour. -/
def LectureUnique (s : Noeud τ) : Prop := Node.Alone (liaisons τ) .getColor s

omit [Horloge τ] in
instance (s : Noeud τ) : Decidable s.LectureUnique :=
  inferInstanceAs (Decidable (_ ≤ _))

/-- `FaireTache` on post 4 waits for the time while `Evacuer` reads the cubes of post 3; then it
reads the first cube of its own post. -/
def evacuerDansFaireTache : List (EvenementNoeud ℤ) :=
  [.start (.faireTache { numRobot := 2, position := 4, duree := 5 }), .start .evacuer,
    .receive (.getColor 14), .resume, .receive (.getColor 0), .resume, .receive (.getColor 0), .resume,
    .receive (.getColor 0), .resume, .receive (.getColor 0), .resume, .receive (.getColor 0), .resume,
    .receive .changeColor, .resume, .receive (.getTime 0), .resume, .receive (.getColor 24), .resume]

end Noeud

end Robots
