import Mathlib.Tactic

/-! # The sensor image

`class Capteurs`, the same code in `shuttles/src/capteurs.cpp` and `commande/src/capteurs.cpp`: the
copy of the last `Msg_SensorState` that the shuttle manager and the command node read.
-/

/-- `aiguillages/msg/Msg_SensorState.msg`. -/
structure MsgSensorState where
  CPI : ℕ → Bool
  CP : ℕ → Bool
  PS : ℕ → Bool
  DG : ℕ → Bool
  DD : ℕ → Bool

/-- `class Capteurs`. -/
structure Capteurs where
  PSx : ℕ → Bool
  DxD : ℕ → Bool
  DxG : ℕ → Bool
  CPx : ℕ → Bool
  CPIx : ℕ → Bool

namespace Capteurs

/-- The constructor clears every cell. -/
def initial : Capteurs :=
  { PSx := fun _ => false, DxD := fun _ => false, DxG := fun _ => false
    CPx := fun _ => false, CPIx := fun _ => false }

/-- The loop `for(int i=1;i<n;i++) dest[i]=src[i]`. -/
def copier (n : ℕ) (src dest : ℕ → Bool) (i : ℕ) : Bool :=
  if 1 ≤ i ∧ i < n then src i else dest i

/-- `Capteurs::Callback_capteurs_simulation`. -/
def callbackCapteursSimulation (msg : MsgSensorState) (c : Capteurs) : Capteurs :=
  { PSx := copier 25 msg.PS c.PSx
    DxD := copier 13 msg.DD c.DxD
    DxG := copier 13 msg.DG c.DxG
    CPx := copier 11 msg.CP c.CPx
    CPIx := copier 9 msg.CPI c.CPIx }

/-- `Capteurs::get_PS`. -/
def getPS (c : Capteurs) (numPS : ℕ) : Bool := c.PSx numPS

/-- `Capteurs::get_DD`. -/
def getDD (c : Capteurs) (numDD : ℕ) : Bool := c.DxD numDD

/-- `Capteurs::get_DG`. -/
def getDG (c : Capteurs) (numDG : ℕ) : Bool := c.DxG numDG

/-- `Capteurs::get_CP`. -/
def getCP (c : Capteurs) (numCP : ℕ) : Bool := c.CPx numCP

end Capteurs
