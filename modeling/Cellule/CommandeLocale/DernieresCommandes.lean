import Mathlib.Tactic
import Cellule.Lib.LastWrite
import Cellule.Lib.Snapshot
import Cellule.Commande.Commande
import Cellule.CommandeLocale.InOutController

/-! # The words of the stops and the pins

The command node rewrites one cell of its arrays at each command and publishes the arrays whole, and
`inOutController` packs them into words. The words show, for each stop and each pin, the last
command that was given to it.
-/

namespace CommandeLocale

open Commande (NoeudCommande recopier)
open LastWrite (last Written)

namespace InOutController

/-- The words `PinOn.data` and `PinOff.data` computed by `StatePinCallBack`. -/
def motsErgots (msg : MsgPinControl) : BitVec 32 × BitVec 32 :=
  (Registre.somme 32 msg.PINON 8, Registre.somme 32 msg.PINOFF 8)

/-- The pin sensors are read back from the first word. -/
theorem statePinCallBack_motsErgots (msg : MsgPinControl) (SensorState : MsgSensorState) :
    statePinCallBack msg SensorState =
      { SensorState with
        CPI := recopier 8 (fun i => bit (motsErgots msg).1 (i - 1)) SensorState.CPI } := rfl

end InOutController

/-! ## Two arrays for one map -/

/-- The first array holds the commands of a map, and the second one holds their complement. -/
structure Porte (n : ℕ) (commandes : ℕ → Option Bool) (on off : ℕ → Bool) : Prop where
  on : ∀ i, 1 ≤ i → i ≤ n → on i = (commandes i).getD false
  off : ∀ i, 1 ≤ i → i ≤ n → off i = !(commandes i).getD false

namespace Porte

variable {n : ℕ} {commandes : ℕ → Option Bool} {on off : ℕ → Bool}

/-- Nothing commanded yet: the arrays as the constructor leaves them. -/
theorem initial (on off : ℕ → Bool) :
    Porte n (fun _ => none) (recopier n (fun _ => false) on) (recopier n (fun _ => true) off) where
  on := fun _ h1 hn => if_pos ⟨h1, hn⟩
  off := fun _ h1 hn => if_pos ⟨h1, hn⟩

/-- One command rewrites one cell of each array. -/
theorem update (h : Porte n commandes on off) (j : ℕ) (v : Bool) :
    Porte n (Function.update commandes j (some v)) (Function.update on j v)
      (Function.update off j (!v)) where
  on := by
    intro i h1 hn
    rw [Function.update_apply, Function.update_apply, apply_ite (Option.getD · false), h.on i h1 hn]
    rfl
  off := by
    intro i h1 hn
    rw [Function.update_apply, Function.update_apply, apply_ite (Option.getD · false), h.off i h1 hn,
      apply_ite not]
    rfl

/-- The arrays copied from one that holds the commands. -/
theorem recopier {tab : ℕ → Bool} (h : ∀ i, 1 ≤ i → i ≤ n → tab i = (commandes i).getD false)
    (on off : ℕ → Bool) :
    Porte n commandes (Commande.recopier n tab on) (Commande.recopier n (fun i => !tab i) off) where
  on := by
    intro i h1 hn
    rw [ImageCapteurs.recopier_of_mem h1 hn, h i h1 hn]
  off := by
    intro i h1 hn
    rw [ImageCapteurs.recopier_of_mem h1 hn, h i h1 hn]

/-- The words packed from the two arrays: a bit for each command, and the complement. -/
theorem mots (h : Porte n commandes on off) (hn : n ≤ 32) :
    (∀ i, 1 ≤ i → i ≤ n →
      ((Registre.somme 32 on n).getLsbD (i - 1) = true ↔ commandes i = some true)) ∧
    Registre.somme 32 off n = ~~~Registre.somme 32 on n &&& (BitVec.allOnes n).setWidth 32 := by
  constructor
  · intro i h1 hin
    rw [Registre.getLsbD_somme _ hn, decide_eq_true (by omega), Bool.true_and, Nat.sub_add_cancel h1,
      h.on i h1 hin]
    cases commandes i <;> simp
  · apply Registre.somme_not hn
    intro i h1 hin
    rw [h.on i h1 hin, h.off i h1 hin]

end Porte

/-! ## The commands and the messages -/

namespace DernieresCommandes

open Snapshot

/-- A command, or the handling of the oldest message of a topic by `inOutController`. -/
inductive Evenement
  | stopPS (pointStop : ℕ)
  | ouvrirPS (pointStop : ℕ)
  | sortirErgot (numErgot : ℕ)
  | rentrerErgot (numErgot : ℕ)
  | stateStopCallBack
  | statePinCallBack

/-- The command node, and the topics with the words sent or computed so far. -/
structure Etat where
  noeud : NoeudCommande
  stops : Link MsgStopControl (List (BitVec 32 × BitVec 32))
  pins : Link MsgPinControl (List (BitVec 32 × BitVec 32))

/-- After the constructor and `Initialisation`. -/
def Etat.initial (noeud : NoeudCommande) : Etat where
  noeud := noeud.initialiserActionneurs.initialisation
  stops := { queue := [], receiver := [] }
  pins := { queue := [], receiver := [] }

/-- A command of a stop: the attributes change and the message is published. -/
def Etat.publierStop (s : Etat) (r : NoeudCommande × MsgStopControl) : Etat :=
  { s with noeud := r.1, stops := s.stops.publish r.2 }

/-- A command of a pin. -/
def Etat.publierPin (s : Etat) (r : NoeudCommande × MsgPinControl) : Etat :=
  { s with noeud := r.1, pins := s.pins.publish r.2 }

/-- The effect of an event. -/
def etape (s : Etat) : Evenement → Option Etat
  | .stopPS pointStop => some (s.publierStop (s.noeud.stopPS pointStop))
  | .ouvrirPS pointStop => some (s.publierStop (s.noeud.ouvrirPS pointStop))
  | .sortirErgot numErgot => some (s.publierPin (s.noeud.sortirErgot numErgot))
  | .rentrerErgot numErgot => some (s.publierPin (s.noeud.rentrerErgot numErgot))
  | .stateStopCallBack =>
      (s.stops.deliver fun msg mots => mots ++ [InOutController.stateStopCallBack msg]).map
        fun l => { s with stops := l }
  | .statePinCallBack =>
      (s.pins.deliver fun msg mots => mots ++ [InOutController.motsErgots msg]).map
        fun l => { s with pins := l }

/-- The stops are numbered from 1 to 24 and the pins from 1 to 8. -/
def garde (_ : Etat) : Evenement → Prop
  | .stopPS i | .ouvrirPS i => 1 ≤ i ∧ i ≤ 24
  | .sortirErgot i | .rentrerErgot i => 1 ≤ i ∧ i ≤ 8
  | .stateStopCallBack | .statePinCallBack => True

instance (s : Etat) : (e : Evenement) → Decidable (garde s e)
  | .stopPS i | .ouvrirPS i => inferInstanceAs (Decidable (1 ≤ i ∧ i ≤ 24))
  | .sortirErgot i | .rentrerErgot i => inferInstanceAs (Decidable (1 ≤ i ∧ i ≤ 8))
  | .stateStopCallBack | .statePinCallBack => inferInstanceAs (Decidable True)

/-- A command of a stop: the stop, and whether it is closed. -/
def Evenement.surStop : Evenement → Option (ℕ × Bool)
  | .stopPS i => some (i, true)
  | .ouvrirPS i => some (i, false)
  | _ => none

/-- A command of a pin: the pin, and whether it is out. -/
def Evenement.surErgot : Evenement → Option (ℕ × Bool)
  | .sortirErgot i => some (i, true)
  | .rentrerErgot i => some (i, false)
  | _ => none

/-- The last words are those of a message. -/
def Derniers {M : Type} (mots : M → BitVec 32 × BitVec 32) (msg : M)
    (envoyes : List (BitVec 32 × BitVec 32)) : Prop :=
  envoyes.getLast? = some (mots msg)

theorem derniers_concat {M : Type} (mots : M → BitVec 32 × BitVec 32) (msg : M)
    (envoyes : List (BitVec 32 × BitVec 32)) : Derniers mots msg (envoyes ++ [mots msg]) :=
  List.getLast?_concat

/-- The invariant of the runs: the arrays hold the last command of each actuator, and once there was
a command the newest message or the last words show the arrays. -/
structure Suit (trace : List Evenement) (s : Etat) : Prop where
  stop : Porte 24 (last Evenement.surStop trace) s.noeud.actionneursSimulationStop.STOP
    s.noeud.actionneursSimulationStop.GO
  PIx : ∀ i, 1 ≤ i → i ≤ 8 → s.noeud.PIx i = (last Evenement.surErgot trace i).getD false
  pin : Porte 8 (last Evenement.surErgot trace) s.noeud.actionneursSimulationPin.PINON
    s.noeud.actionneursSimulationPin.PINOFF
  stops : Written Evenement.surStop trace →
    s.stops.Fresh (Derniers InOutController.stateStopCallBack) s.noeud.actionneursSimulationStop
  pins : Written Evenement.surErgot trace →
    s.pins.Fresh (Derniers InOutController.motsErgots) s.noeud.actionneursSimulationPin

theorem suit_initial (noeud : NoeudCommande) : Suit [] (Etat.initial noeud) where
  stop := Porte.initial _ _
  PIx := fun i _ h8 => if_pos (by omega)
  pin := Porte.initial _ _
  stops := by
    rintro ⟨e, he, -⟩
    cases he
  pins := by
    rintro ⟨e, he, -⟩
    cases he

namespace Suit

variable {trace : List Evenement} {s : Etat}

/-- A command of a stop keeps the invariant, whatever the value it writes. -/
theorem commanderStop (h : Suit trace s) {e : Evenement} {i : ℕ} {v : Bool}
    (he : e.surStop = some (i, v)) (hergot : e.surErgot = none) {r : NoeudCommande × MsgStopControl}
    (hmsg : r.2 = { STOP := Function.update s.noeud.actionneursSimulationStop.STOP i v
                    GO := Function.update s.noeud.actionneursSimulationStop.GO i (!v) })
    (hnoeud : r.1 = { s.noeud with actionneursSimulationStop := r.2 }) :
    Suit (trace ++ [e]) (s.publierStop r) where
  stop := by
    rw [LastWrite.last_concat_of_some he]
    show Porte 24 _ r.1.actionneursSimulationStop.STOP r.1.actionneursSimulationStop.GO
    rw [hnoeud, hmsg]
    exact h.stop.update i v
  PIx := by
    rw [LastWrite.last_concat_of_none hergot]
    show ∀ i, 1 ≤ i → i ≤ 8 → r.1.PIx i = _
    rw [hnoeud]
    exact h.PIx
  pin := by
    rw [LastWrite.last_concat_of_none hergot]
    show Porte 8 _ r.1.actionneursSimulationPin.PINON r.1.actionneursSimulationPin.PINOFF
    rw [hnoeud]
    exact h.pin
  stops := by
    intro _
    show (s.stops.publish r.2).Fresh _ r.1.actionneursSimulationStop
    rw [hnoeud]
    exact Link.fresh_publish _ _
  pins := by
    rw [LastWrite.written_concat_of_none hergot]
    show _ → s.pins.Fresh _ r.1.actionneursSimulationPin
    rw [hnoeud]
    exact h.pins

/-- The same for a command of a pin. -/
theorem commanderErgot (h : Suit trace s) {e : Evenement} {i : ℕ} {v : Bool}
    (he : e.surErgot = some (i, v)) (hstop : e.surStop = none) {r : NoeudCommande × MsgPinControl}
    (hmsg : r.2 =
      { PINON := recopier 8 (Function.update s.noeud.PIx i v) s.noeud.actionneursSimulationPin.PINON
        PINOFF := recopier 8 (fun j => !Function.update s.noeud.PIx i v j)
          s.noeud.actionneursSimulationPin.PINOFF })
    (hnoeud : r.1 =
      { s.noeud with PIx := Function.update s.noeud.PIx i v, actionneursSimulationPin := r.2 }) :
    Suit (trace ++ [e]) (s.publierPin r) := by
  have hPIx : ∀ j, 1 ≤ j → j ≤ 8 → Function.update s.noeud.PIx i v j =
      (last Evenement.surErgot (trace ++ [e]) j).getD false := by
    intro j h1 h8
    rw [LastWrite.last_concat_of_some he, Function.update_apply, Function.update_apply,
      apply_ite (Option.getD · false), h.PIx j h1 h8]
    rfl
  constructor
  · rw [LastWrite.last_concat_of_none hstop]
    show Porte 24 _ r.1.actionneursSimulationStop.STOP r.1.actionneursSimulationStop.GO
    rw [hnoeud]
    exact h.stop
  · show ∀ j, 1 ≤ j → j ≤ 8 → r.1.PIx j = _
    rw [hnoeud]
    exact hPIx
  · show Porte 8 _ r.1.actionneursSimulationPin.PINON r.1.actionneursSimulationPin.PINOFF
    rw [hnoeud, hmsg]
    exact Porte.recopier hPIx _ _
  · rw [LastWrite.written_concat_of_none hstop]
    show _ → s.stops.Fresh _ r.1.actionneursSimulationStop
    rw [hnoeud]
    exact h.stops
  · intro _
    show (s.pins.publish r.2).Fresh _ r.1.actionneursSimulationPin
    rw [hnoeud]
    exact Link.fresh_publish _ _

/-- Every event keeps the invariant. -/
theorem etape (h : Suit trace s) {e : Evenement} {s' : Etat}
    (he : DernieresCommandes.etape s e = some s') : Suit (trace ++ [e]) s' := by
  cases e with
  | stopPS i =>
    cases he
    exact h.commanderStop rfl rfl rfl rfl
  | ouvrirPS i =>
    cases he
    exact h.commanderStop rfl rfl rfl rfl
  | sortirErgot i =>
    cases he
    exact h.commanderErgot rfl rfl rfl rfl
  | rentrerErgot i =>
    cases he
    exact h.commanderErgot rfl rfl rfl rfl
  | stateStopCallBack =>
    obtain ⟨l, hl, rfl⟩ := Option.map_eq_some_iff.1 he
    have hsurStop : Evenement.stateStopCallBack.surStop = none := rfl
    have hsurErgot : Evenement.stateStopCallBack.surErgot = none := rfl
    constructor
    · rw [LastWrite.last_concat_of_none hsurStop]
      exact h.stop
    · rw [LastWrite.last_concat_of_none hsurErgot]
      exact h.PIx
    · rw [LastWrite.last_concat_of_none hsurErgot]
      exact h.pin
    · intro hw
      rw [LastWrite.written_concat_of_none hsurStop] at hw
      exact (h.stops hw).deliver (derniers_concat _) hl
    · rw [LastWrite.written_concat_of_none hsurErgot]
      exact h.pins
  | statePinCallBack =>
    obtain ⟨l, hl, rfl⟩ := Option.map_eq_some_iff.1 he
    have hsurStop : Evenement.statePinCallBack.surStop = none := rfl
    have hsurErgot : Evenement.statePinCallBack.surErgot = none := rfl
    constructor
    · rw [LastWrite.last_concat_of_none hsurStop]
      exact h.stop
    · rw [LastWrite.last_concat_of_none hsurErgot]
      exact h.PIx
    · rw [LastWrite.last_concat_of_none hsurErgot]
      exact h.pin
    · rw [LastWrite.written_concat_of_none hsurStop]
      exact h.stops
    · intro hw
      rw [LastWrite.written_concat_of_none hsurErgot] at hw
      exact (h.pins hw).deliver (derniers_concat _) hl

end Suit

/-- Once the messages of a topic are handled and there was a command, the last words show the last
command of each actuator: the first word those that closed a stop or took a pin out, the second one
the others. -/
theorem mots_commandes (noeud : NoeudCommande) {trace : List Evenement} {s : Etat}
    (h : Reactive.Run (Reactive.Guarded garde etape) (Etat.initial noeud) trace s) :
    (Written Evenement.surStop trace → s.stops.queue = [] →
      ∃ Stop Go, s.stops.receiver.getLast? = some (Stop, Go) ∧
        (∀ i, 1 ≤ i → i ≤ 24 →
          (Stop.getLsbD (i - 1) = true ↔ last Evenement.surStop trace i = some true)) ∧
        Go = ~~~Stop &&& 0xFFFFFF#32) ∧
    (Written Evenement.surErgot trace → s.pins.queue = [] →
      ∃ PinOn PinOff, s.pins.receiver.getLast? = some (PinOn, PinOff) ∧
        (∀ i, 1 ≤ i → i ≤ 8 →
          (PinOn.getLsbD (i - 1) = true ↔ last Evenement.surErgot trace i = some true)) ∧
        PinOff = ~~~PinOn &&& 0xFF#32) := by
  have hstep : ∀ (trace : List Evenement) s e s', Suit trace s →
      Reactive.Guarded garde etape s e s' → Suit (trace ++ [e]) s' := fun _ _ _ _ hs he => hs.etape he.2
  have hsuit := Reactive.Run.invariant (suit_initial noeud) hstep h
  constructor
  · intro hw hvide
    obtain ⟨hbits, hnot⟩ := hsuit.stop.mots (by norm_num)
    exact ⟨_, _, (hsuit.stops hw).arrived hvide, hbits, hnot⟩
  · intro hw hvide
    obtain ⟨hbits, hnot⟩ := hsuit.pin.mots (by norm_num)
    exact ⟨_, _, (hsuit.pins hw).arrived hvide, hbits, hnot⟩

/-- A node before its constructor. -/
def noeudNeuf : NoeudCommande where
  RxD _ := false
  RxG _ := false
  Vx _ := false
  Dx _ := false
  PIx _ := false
  actionneursSimulationStop := { STOP := fun _ => false, GO := fun _ => false }
  actionneursSimulationAiguillages := { LOCK := fun _ => false, RD := fun _ => false, RG := fun _ => false }
  actionneursSimulationPin := { PINON := fun _ => false, PINOFF := fun _ => false }

/-- Stops 3 and 5 are closed, stop 3 is opened again, and pin 2 comes out. -/
def quatreCommandes : List Evenement :=
  [.stopPS 3, .stopPS 5, .stateStopCallBack, .sortirErgot 2, .ouvrirPS 3, .statePinCallBack,
    .stateStopCallBack, .stateStopCallBack]

/-- The words after these commands. -/
theorem mots_commandes_quatreCommandes :
    ∃ s, Reactive.Run (Reactive.Guarded garde etape) (Etat.initial noeudNeuf) quatreCommandes s ∧
      ∃ Stop PinOn, s.stops.receiver.getLast? = some (Stop, ~~~Stop &&& 0xFFFFFF#32) ∧
        Stop.getLsbD 4 = true ∧ Stop.getLsbD 2 = false ∧
        s.pins.receiver.getLast? = some (PinOn, ~~~PinOn &&& 0xFF#32) ∧ PinOn.getLsbD 1 = true := by
  obtain ⟨s, hs, hstops, hpins⟩ : ∃ s, Reactive.execute garde etape (Etat.initial noeudNeuf)
      quatreCommandes = some s ∧ s.stops.queue = [] ∧ s.pins.queue = [] := ⟨_, rfl, rfl, rfl⟩
  have hrun := Reactive.run_execute Reactive.Run.nil hs
  obtain ⟨hstop, hpin⟩ := mots_commandes noeudNeuf hrun
  obtain ⟨Stop, Go, hmots, hbits, rfl⟩ :=
    hstop ⟨.stopPS 3, List.mem_cons_self, rfl⟩ hstops
  obtain ⟨PinOn, PinOff, hmotsPin, hbitsPin, rfl⟩ :=
    hpin ⟨.sortirErgot 2, by simp [quatreCommandes], rfl⟩ hpins
  refine ⟨s, hrun, Stop, PinOn, hmots, ?_, ?_, hmotsPin, ?_⟩
  · exact (hbits 5 (by norm_num) (by norm_num)).2 rfl
  · apply Bool.eq_false_of_not_eq_true
    rw [hbits 3 (by norm_num) (by norm_num)]
    exact fun h => Bool.noConfusion (Option.some.inj (h : some false = some true))
  · exact (hbitsPin 2 (by norm_num) (by norm_num)).2 rfl

end DernieresCommandes

end CommandeLocale
