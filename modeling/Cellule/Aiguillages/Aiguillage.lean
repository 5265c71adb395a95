import Cellule.Lib.Machine

/-! # The node of the switches

`aiguillages/src/Aiguillage.cpp`, with the switches of the simulator and the topics between them. A
callback that waits for a switch calls `ros::spinOnce`, so other callbacks run inside it; the
callbacks that wait are kept with the innermost one first.
-/

namespace Aiguillages

/-- The sides of a switch. -/
inductive Cote
  | droite
  | gauche
  deriving DecidableEq, Repr

/-- The other side. -/
def Cote.oppose : Cote → Cote
  | droite => gauche
  | gauche => droite

/-- What the node publishes, with the number of the switch. -/
inductive Message
  | deverouille (n : ℕ)
  | mouvement (c : Cote) (n : ℕ)
  | verouille (n : ℕ)
  deriving DecidableEq, Repr

/-- The side of a movement of the switch `n`. -/
def Message.pour (n : ℕ) : Message → Option Cote
  | mouvement c k => if k = n then some c else none
  | _ => none

/-! ## The node -/

/-- The attributes of `class Aiguillage`, and the callbacks that wait. The source does not give the
two arrays a first value, and writes one place past their end, which no switch reads. -/
structure Aiguillage where
  aigD : ℕ → Bool
  aigG : ℕ → Bool
  attentes : List (Cote × ℕ)

namespace Aiguillage

/-- The array of one side. -/
def butee (a : Aiguillage) : Cote → ℕ → Bool
  | .droite => a.aigD
  | .gauche => a.aigG

/-- `SwitchSensorCallback`. -/
def switchSensorCallback (a : Aiguillage) (data : BitVec 32) : Aiguillage :=
  { a with
    aigD := fun i => if 1 ≤ i ∧ i < 13 then data.getLsbD (2 * i - 2) else a.aigD i
    aigG := fun i => if 1 ≤ i ∧ i < 13 then data.getLsbD (2 * i - 1) else a.aigG i }

/-- The start of an order callback, up to its first wait. -/
def ordreCallback (c : Cote) (a : Aiguillage) (n : ℕ) : Aiguillage × List Message :=
  if a.butee c n then (a, [])
  else ({ a with attentes := (c, n) :: a.attentes }, [.deverouille n, .mouvement c n])

/-- `GaucheCallback`. -/
def gaucheCallback : Aiguillage → ℕ → Aiguillage × List Message := ordreCallback .gauche

/-- `DroiteCallback`. -/
def droiteCallback : Aiguillage → ℕ → Aiguillage × List Message := ordreCallback .droite

/-- The callback of the topic of each side. -/
def callback : Cote → Aiguillage → ℕ → Aiguillage × List Message
  | .droite => droiteCallback
  | .gauche => gaucheCallback

theorem callback_eq (c : Cote) : callback c = ordreCallback c := by
  cases c <;> rfl

/-- What a waiting callback does when `spinOnce` returns: the order is published again when the
switch is on the other side, and the callback ends when it is on the right one. -/
def tour (a : Aiguillage) : Aiguillage × List Message :=
  match a.attentes with
  | [] => (a, [])
  | (c, n) :: attentes =>
      let encore := if a.butee c.oppose n then [.mouvement c n] else []
      if a.butee c n then ({ a with attentes }, encore ++ [.verouille n]) else (a, encore)

end Aiguillage

/-! ## The switches and the topics -/

/-- The node, the switches, and what is on its way between them. A switch that is not at rest has no
position; `cible` is the side of the last movement it received, and `recus` counts the sensor words
handled. -/
structure Monde where
  noeud : Aiguillage
  messages : List Message
  rapports : List (BitVec 32)
  position : ℕ → Option Cote
  cible : ℕ → Cote
  recus : ℕ

/-- What can happen. -/
inductive Evenement
  /-- An order for a switch is received. -/
  | ordre (c : Cote) (n : ℕ)
  /-- The oldest sensor word is received. -/
  | capteur
  /-- `spinOnce` returns in the innermost waiting callback. -/
  | tour
  /-- The switches receive the oldest message. -/
  | executer
  /-- A moving switch arrives. -/
  | arriver (n : ℕ)
  /-- The sensors publish a word. -/
  | mesurer
  deriving DecidableEq, Repr

/-- The word that the sensors publish: two bits for each of the twelve switches. -/
def mot (position : ℕ → Option Cote) : BitVec 32 :=
  (BitVec.ofBoolListLE ((List.range 24).map fun k =>
    position (k / 2 + 1) = some (if k % 2 = 0 then .droite else .gauche))).setWidth 32

namespace Monde

/-- The node has run and published. -/
def publier (m : Monde) (r : Aiguillage × List Message) : Monde :=
  { m with noeud := r.1, messages := m.messages ++ r.2 }

/-- The switches receive a message: one that is already on the side asked for stays there. -/
def recevoir (m : Monde) : Message → Monde
  | .mouvement c n =>
      { m with
        cible := Function.update m.cible n c
        position := Function.update m.position n
          (if m.position n = some c then some c else none) }
  | _ => m

/-- One step. -/
def etape (m : Monde) : Evenement → Option Monde
  | .ordre c n =>
      if 1 ≤ n ∧ n ≤ 11 then some (m.publier (m.noeud.callback c n)) else none
  | .capteur =>
      match m.rapports with
      | [] => none
      | w :: rapports =>
          some { m with noeud := m.noeud.switchSensorCallback w, rapports, recus := m.recus + 1 }
  | .tour => if m.noeud.attentes = [] then none else some (m.publier m.noeud.tour)
  | .executer =>
      match m.messages with
      | [] => none
      | message :: messages => some ({ m with messages }.recevoir message)
  | .arriver n =>
      if m.position n = none then
        some { m with position := Function.update m.position n (some (m.cible n)) }
      else none
  | .mesurer => some { m with rapports := m.rapports ++ [mot m.position] }

/-- At the start no callback waits, nothing is on its way, and the switches are at rest. -/
def initial (aigD aigG : ℕ → Bool) (cote : ℕ → Cote) : Monde where
  noeud := { aigD, aigG, attentes := [] }
  messages := []
  rapports := []
  position n := some (cote n)
  cible := cote
  recus := 0

/-- The movements of one switch that it has not received. -/
def mouvements (m : Monde) (n : ℕ) : List Cote := m.messages.filterMap (Message.pour n)

/-- The switch is on a side, and every movement published for it was received. -/
def AuRepos (m : Monde) (n : ℕ) : Prop := m.position n ≠ none ∧ m.mouvements n = []

end Monde

/-- The side of an order for the switch `n`. -/
def Evenement.ordrePour (n : ℕ) : Evenement → Option Cote
  | ordre c k => if k = n then some c else none
  | _ => none

/-- The side of the last order received for a switch. -/
def dernierOrdre (n : ℕ) (trace : List Evenement) : Option Cote :=
  (trace.filterMap (Evenement.ordrePour n)).getLast?

end Aiguillages
