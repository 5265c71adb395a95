import Cellule.Aiguillages.Aiguillage
import Cellule.Commande.Actionneurs

/-! # The actuators of the command node

`commande/src/commande.cpp`: the arrays of the orders for the switches, the stops and the pins, and
the messages that are published from them.
-/

/-- The movement orders of one side. -/
def MsgSwitchControl.ordres (msg : MsgSwitchControl) : Aiguillages.Cote → ℕ → Bool
  | .droite => msg.RD
  | .gauche => msg.RG

namespace Commande

open Aiguillages

/-- The attributes of `class Commande` that its actuator functions use. -/
structure NoeudCommande where
  RxD : ℕ → Bool
  RxG : ℕ → Bool
  Vx : ℕ → Bool
  Dx : ℕ → Bool
  PIx : ℕ → Bool
  actionneursSimulationStop : MsgStopControl
  actionneursSimulationAiguillages : MsgSwitchControl
  actionneursSimulationPin : MsgPinControl

/-- The loop `for(int i=0;i<n;i++) dest[i]=src(i)`. -/
def recopierTout (n : ℕ) (src dest : ℕ → Bool) (i : ℕ) : Bool :=
  if i < n then src i else dest i

namespace NoeudCommande

/-- The part of the constructor that sets the messages. -/
def initialiserActionneurs (s : NoeudCommande) : NoeudCommande :=
  { s with
    actionneursSimulationStop :=
      { STOP := recopier 24 (fun _ => false) s.actionneursSimulationStop.STOP
        GO := recopier 24 (fun _ => true) s.actionneursSimulationStop.GO }
    actionneursSimulationAiguillages :=
      { LOCK := recopier 12 (fun _ => false) s.actionneursSimulationAiguillages.LOCK
        RD := recopier 12 (fun _ => false) s.actionneursSimulationAiguillages.RD
        RG := recopier 12 (fun _ => false) s.actionneursSimulationAiguillages.RG }
    actionneursSimulationPin :=
      { PINON := recopier 8 (fun _ => false) s.actionneursSimulationPin.PINON
        PINOFF := recopier 8 (fun _ => true) s.actionneursSimulationPin.PINOFF } }

/-- `Commande::Initialisation`. -/
def initialisation (s : NoeudCommande) : NoeudCommande :=
  { s with
    RxD := recopierTout 13 (fun _ => false) s.RxD
    RxG := recopierTout 13 (fun _ => false) s.RxG
    Vx := recopierTout 13 (fun _ => false) s.Vx
    Dx := recopierTout 13 (fun _ => false) s.Dx
    PIx := recopierTout 9 (fun _ => false) s.PIx }

/-- `Commande::Stop_PS`, with what it publishes. -/
def stopPS (s : NoeudCommande) (pointStop : ℕ) : NoeudCommande × MsgStopControl :=
  let stop : MsgStopControl :=
    { STOP := Function.update s.actionneursSimulationStop.STOP pointStop true
      GO := Function.update s.actionneursSimulationStop.GO pointStop false }
  ({ s with actionneursSimulationStop := stop }, stop)

/-- `Commande::Ouvrir_PS`. -/
def ouvrirPS (s : NoeudCommande) (pointStop : ℕ) : NoeudCommande × MsgStopControl :=
  let stop : MsgStopControl :=
    { STOP := Function.update s.actionneursSimulationStop.STOP pointStop false
      GO := Function.update s.actionneursSimulationStop.GO pointStop true }
  ({ s with actionneursSimulationStop := stop }, stop)

/-- `Commande::DeverouilleAiguillagesCallback`. -/
def deverouilleAiguillagesCallback (s : NoeudCommande) (n : ℕ) : NoeudCommande :=
  { s with Dx := Function.update s.Dx n true, Vx := Function.update s.Vx n false }

/-- `Commande::VerouilleAiguillagesCallback`. -/
def verouilleAiguillagesCallback (s : NoeudCommande) (n : ℕ) : NoeudCommande :=
  { s with Dx := Function.update s.Dx n false, Vx := Function.update s.Vx n true }

/-- `Rx[n] = valeur` in the array of one side. -/
def ecrireRx (s : NoeudCommande) (c : Cote) (n : ℕ) (valeur : Bool) : NoeudCommande :=
  match c with
  | .droite => { s with RxD := Function.update s.RxD n valeur }
  | .gauche => { s with RxG := Function.update s.RxG n valeur }

/-- The switch orders as they are published. -/
def messageAiguillages (s : NoeudCommande) : MsgSwitchControl :=
  { LOCK := recopierTout 13 (fun i => !s.Vx i && s.Dx i) s.actionneursSimulationAiguillages.LOCK
    RD := recopierTout 13 s.RxD s.actionneursSimulationAiguillages.RD
    RG := recopierTout 13 s.RxG s.actionneursSimulationAiguillages.RG }

/-- The callback of the movement orders of one side: the order is up only while the message is
written. -/
def aiguillagesCallback (c : Cote) (s : NoeudCommande) (n : ℕ) : NoeudCommande × MsgSwitchControl :=
  let leve := s.ecrireRx c n true
  let msg := leve.messageAiguillages
  ({ leve with actionneursSimulationAiguillages := msg }.ecrireRx c n false, msg)

/-- `Commande::AiguillagesgauchesCallback`. -/
def aiguillagesgauchesCallback : NoeudCommande → ℕ → NoeudCommande × MsgSwitchControl :=
  aiguillagesCallback .gauche

/-- `Commande::AiguillagesdroitsCallback`. -/
def aiguillagesdroitsCallback : NoeudCommande → ℕ → NoeudCommande × MsgSwitchControl :=
  aiguillagesCallback .droite

/-- `Commande::SortirErgot`, with what it publishes. -/
def sortirErgot (s : NoeudCommande) (numErgot : ℕ) : NoeudCommande × MsgPinControl :=
  let PIx := Function.update s.PIx numErgot true
  let pin : MsgPinControl :=
    { PINON := recopier 8 PIx s.actionneursSimulationPin.PINON
      PINOFF := recopier 8 (fun i => !PIx i) s.actionneursSimulationPin.PINOFF }
  ({ s with PIx, actionneursSimulationPin := pin }, pin)

/-- `Commande::RentrerErgot`. -/
def rentrerErgot (s : NoeudCommande) (numErgot : ℕ) : NoeudCommande × MsgPinControl :=
  let PIx := Function.update s.PIx numErgot false
  let pin : MsgPinControl :=
    { PINON := recopier 8 PIx s.actionneursSimulationPin.PINON
      PINOFF := recopier 8 (fun i => !PIx i) s.actionneursSimulationPin.PINOFF }
  ({ s with PIx, actionneursSimulationPin := pin }, pin)

/-! ## The switches -/

/-- The switches that may move: `Dx` without `Vx`. -/
def ouverts (s : NoeudCommande) (n : ℕ) : Bool := !s.Vx n && s.Dx n

/-- The movement orders of one side. -/
def Rx (s : NoeudCommande) : Cote → ℕ → Bool
  | .droite => s.RxD
  | .gauche => s.RxG

/-- What the callback of a topic of the switches does, and what it publishes. -/
def recevoir (s : NoeudCommande) : Message → NoeudCommande × List MsgSwitchControl
  | .deverouille n => (s.deverouilleAiguillagesCallback n, [])
  | .verouille n => (s.verouilleAiguillagesCallback n, [])
  | .mouvement .gauche n => ((s.aiguillagesgauchesCallback n).1, [(s.aiguillagesgauchesCallback n).2])
  | .mouvement .droite n => ((s.aiguillagesdroitsCallback n).1, [(s.aiguillagesdroitsCallback n).2])

/-- No movement order is up. -/
def AuRepos (s : NoeudCommande) : Prop := ∀ c, ∀ i < 13, s.Rx c i = false

theorem ouverts_deverouille (s : NoeudCommande) (n : ℕ) :
    (s.deverouilleAiguillagesCallback n).ouverts = Function.update s.ouverts n true := by
  funext i
  by_cases hi : i = n <;> simp [ouverts, deverouilleAiguillagesCallback, hi]

theorem ouverts_verouille (s : NoeudCommande) (n : ℕ) :
    (s.verouilleAiguillagesCallback n).ouverts = Function.update s.ouverts n false := by
  funext i
  by_cases hi : i = n <;> simp [ouverts, verouilleAiguillagesCallback, hi]

@[simp] theorem Rx_ecrireRx (s : NoeudCommande) (c : Cote) (n : ℕ) (valeur : Bool) (c' : Cote) (i : ℕ) :
    (s.ecrireRx c n valeur).Rx c' i = if c' = c ∧ i = n then valeur else s.Rx c' i := by
  cases c <;> cases c' <;> simp [ecrireRx, Rx, Function.update_apply]

@[simp] theorem ouverts_ecrireRx (s : NoeudCommande) (c : Cote) (n : ℕ) (valeur : Bool) :
    (s.ecrireRx c n valeur).ouverts = s.ouverts := by
  cases c <;> rfl

theorem ordres_messageAiguillages (s : NoeudCommande) (c : Cote) {i : ℕ} (hi : i < 13) :
    s.messageAiguillages.ordres c i = s.Rx c i := by
  cases c <;> exact if_pos hi

/-- The callback lowers the order it has raised. -/
theorem Rx_aiguillagesCallback {s : NoeudCommande} (h : s.AuRepos) (c : Cote) (n : ℕ) :
    (aiguillagesCallback c s n).1.AuRepos := by
  intro c' i hi
  have hRx : (aiguillagesCallback c s n).1.Rx c' i =
      if c' = c ∧ i = n then false else (s.ecrireRx c n true).Rx c' i := Rx_ecrireRx _ c n false c' i
  rw [hRx, Rx_ecrireRx, h c' i hi]
  split_ifs <;> rfl

/-- The orders of the message are the one that was received. -/
theorem ordres_aiguillagesCallback {s : NoeudCommande} (h : s.AuRepos) (c c' : Cote) (n : ℕ)
    {i : ℕ} (hi : i < 13) :
    (aiguillagesCallback c s n).2.ordres c' i = true ↔ c' = c ∧ i = n := by
  have hmsg : (aiguillagesCallback c s n).2.ordres c' i = (s.ecrireRx c n true).Rx c' i :=
    ordres_messageAiguillages _ c' hi
  rw [hmsg, Rx_ecrireRx, h c' i hi]
  split_ifs with hci <;> simp [hci]

/-- The message shows which switches may move. -/
theorem LOCK_aiguillagesCallback (s : NoeudCommande) (c : Cote) (n : ℕ) {i : ℕ} (hi : i < 13) :
    (aiguillagesCallback c s n).2.LOCK i = s.ouverts i := by
  have hmsg : (aiguillagesCallback c s n).2.LOCK i = (s.ecrireRx c n true).ouverts i := if_pos hi
  rw [hmsg, ouverts_ecrireRx]

theorem ouverts_aiguillagesCallback (s : NoeudCommande) (c : Cote) (n : ℕ) :
    (aiguillagesCallback c s n).1.ouverts = s.ouverts := by
  cases c <;> rfl

end NoeudCommande

end Commande
