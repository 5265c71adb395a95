import Cellule.Robots.Noeud

/-! # The orders to the robots

The callbacks of `Robot.cpp` for the topics of the command node. Every robot receives every order,
and takes up those that have its number. `SendJointsCallback`, which only the console uses, is left
out.
-/

namespace Robots

open Reactive Reactive.Prog

/-- `robots/msg/Msg_numrobot.msg`. -/
structure MsgNumrobot where
  numRobot : ℤ
  data : ℤ
  deriving DecidableEq

/-- `robots/msg/MoveRobot.msg`. -/
structure MoveRobot where
  numRobot : ℤ
  position : ℤ
  bras : ℤ
  pince : ℤ
  deriving DecidableEq

namespace Robot

variable {τ : Type} [Horloge τ]

/-- What the callbacks of a `Msg_numrobot` share. -/
def siConcerne (numRobot : ℤ) (routine : Code τ Unit) : Code τ Unit := do
  let s ← get
  if s.numRobot = numRobot then routine else pure ()

omit [Horloge τ] in
/-- `Robot::SendPositionCallback`. -/
def sendPositionCallback (msg : MsgNumrobot) : Code τ Unit :=
  siConcerne msg.numRobot (envoyerRobot msg.data)

/-- `Robot::FermerPinceCallback`. -/
def fermerPinceCallback (msg : MsgNumrobot) : Code τ Unit := siConcerne msg.numRobot fermerPince

/-- `Robot::OuvrirPinceCallback`. -/
def ouvrirPinceCallback (msg : MsgNumrobot) : Code τ Unit := siConcerne msg.numRobot ouvrirPince

omit [Horloge τ] in
/-- `Robot::DescendreBrasCallback`. -/
def descendreBrasCallback (msg : MsgNumrobot) : Code τ Unit := siConcerne msg.numRobot descendreBras

omit [Horloge τ] in
/-- `Robot::MonterBrasCallback`. -/
def monterBrasCallback (msg : MsgNumrobot) : Code τ Unit := siConcerne msg.numRobot monterBras

omit [Horloge τ] in
/-- The arm part of `Robot::ControlerRobotCallback`. -/
def controlerBras (bras : ℤ) : Code τ Unit :=
  if bras = -1 then descendreBras else if bras = 1 then monterBras else pure ()

/-- The gripper part of `Robot::ControlerRobotCallback`. -/
def controlerPince (pince : ℤ) : Code τ Unit :=
  if pince = -1 then ouvrirPince else if pince = 1 then fermerPince else pure ()

/-- `Robot::ControlerRobotCallback`. -/
def controlerRobotCallback (msg : MoveRobot) : Code τ Unit :=
  siConcerne msg.numRobot do
    envoyerRobot msg.position
    controlerBras msg.bras
    controlerPince msg.pince

end Robot

/-- The orders, one constructor for each topic. -/
inductive Ordre
  | sendPosition (msg : MsgNumrobot)
  | fermerPince (msg : MsgNumrobot)
  | ouvrirPince (msg : MsgNumrobot)
  | descendreBras (msg : MsgNumrobot)
  | monterBras (msg : MsgNumrobot)
  | controlerRobot (msg : MoveRobot)
  | deplacerPiece (msg : DeplacerPieceMsg)
  | faireTache (msg : FaireTacheMsg)
  deriving DecidableEq

/-- The callback of an order. -/
def Ordre.callback {τ : Type} [Horloge τ] : Ordre → Code τ Unit
  | sendPosition msg => Robot.sendPositionCallback msg
  | fermerPince msg => Robot.fermerPinceCallback msg
  | ouvrirPince msg => Robot.ouvrirPinceCallback msg
  | descendreBras msg => Robot.descendreBrasCallback msg
  | monterBras msg => Robot.monterBrasCallback msg
  | controlerRobot msg => Robot.controlerRobotCallback msg
  | deplacerPiece msg => Robot.deplacerPieceCallback msg
  | faireTache msg => (Activation.faireTache msg).code

/-- A routine of the robot node: the callback of an order, or the `update` of the main loop. -/
inductive Routine
  | ordre (o : Ordre)
  | update
  deriving DecidableEq

/-- The code of a routine. -/
def Routine.code {τ : Type} [Horloge τ] : Routine → Code τ Unit
  | ordre o => o.callback
  | update => Activation.update.code

end Robots
