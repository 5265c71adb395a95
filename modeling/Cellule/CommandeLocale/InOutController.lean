import Mathlib.Tactic
import Cellule.Lib.Machine
import Cellule.Lib.Registre
import Cellule.Lib.Snapshot
import Cellule.Capteurs
import Cellule.Commande.Actionneurs

/-! # Inputs and outputs of the simulator

`commande_locale/src/inOutController.cpp`: the words of the simulated sensors are unpacked into one
`Msg_SensorState`, which is published whole at each change, and the actuator arrays are packed into
words for the simulator. `int` and `Int32` are two's complement words of 32 bits.
-/

namespace CommandeLocale

open Commande (recopier)

/-- The test `(mot & (int32_t)pow(2,n)) > 0`. -/
def bit (mot : BitVec 32) (n : ℕ) : Bool := decide (0 < (mot &&& BitVec.twoPow 32 n).toInt)

theorem bit_eq {n : ℕ} (hn : n < 31) (mot : BitVec 32) : bit mot n = mot.getLsbD n := by
  unfold bit
  rw [Bool.eq_iff_iff, decide_eq_true_iff]
  exact Registre.toInt_and_twoPow_pos (by omega)

namespace InOutController

/-- The message `SensorState` of a new node. -/
def sensorStateInitial : MsgSensorState :=
  { CPI := fun _ => false, CP := fun _ => false, PS := fun _ => false
    DG := fun _ => false, DD := fun _ => false }

/-- `inOutController::SensorCallbackRail`, up to the publication of the result. -/
def sensorCallbackRail (data : BitVec 32) (SensorState : MsgSensorState) : MsgSensorState :=
  { SensorState with CP := recopier 10 (fun i => bit data (i - 1)) SensorState.CP }

/-- `inOutController::SensorCallbackStop`, up to the publication of the result. -/
def sensorCallbackStop (data : BitVec 32) (SensorState : MsgSensorState) : MsgSensorState :=
  { SensorState with PS := recopier 24 (fun i => bit data (i - 1)) SensorState.PS }

/-- `inOutController::SensorCallbackSwitch`, up to the publication of the result. -/
def sensorCallbackSwitch (data : BitVec 32) (SensorState : MsgSensorState) : MsgSensorState :=
  { SensorState with
    DD := recopier 12 (fun i => bit data (2 * i - 2)) SensorState.DD
    DG := recopier 12 (fun i => bit data (2 * i - 1)) SensorState.DG }

/-- `inOutController::StatePinCallBack`, up to the publication of the result. The pins are packed
into the word `PinOn.data`, and the pin sensors are read back from it. -/
def statePinCallBack (msg : MsgPinControl) (SensorState : MsgSensorState) : MsgSensorState :=
  let PinOn := Registre.somme 32 msg.PINON 8
  { SensorState with CPI := recopier 8 (fun i => bit PinOn (i - 1)) SensorState.CPI }

/-- `inOutController::StateStopCallBack`: the words published for the closed and the open stops. -/
def stateStopCallBack (msg : MsgStopControl) : BitVec 32 × BitVec 32 :=
  (Registre.somme 32 msg.STOP 24, Registre.somme 32 msg.GO 24)

end InOutController

/-! ## The sensor image -/

namespace ImageCapteurs

open Snapshot

/-- A message handled by `inOutController`, or an event of the link from its publications to the
node that keeps the `Capteurs`, whose subscription holds one message. -/
inductive Evenement
  | rail (data : BitVec 32)
  | stop (data : BitVec 32)
  | switch (data : BitVec 32)
  | pin (msg : MsgPinControl)
  | livrer
  | perdre (i : ℕ)

/-- The message of `inOutController` and the link. -/
structure Etat where
  SensorState : MsgSensorState
  lien : Link MsgSensorState Capteurs

namespace Etat

/-- Nothing received, nothing published. -/
def initial : Etat :=
  { SensorState := InOutController.sensorStateInitial
    lien := { queue := [], receiver := Capteurs.initial } }

/-- `planifRailSensorState.publish(SensorState)`, after a callback has rewritten the message. -/
def publier (s : Etat) (SensorState : MsgSensorState) : Etat :=
  { SensorState := SensorState, lien := s.lien.publish SensorState }

end Etat

/-- The effect of an event. -/
def etape (s : Etat) : Evenement → Option Etat
  | .rail data => some (s.publier (InOutController.sensorCallbackRail data s.SensorState))
  | .stop data => some (s.publier (InOutController.sensorCallbackStop data s.SensorState))
  | .switch data => some (s.publier (InOutController.sensorCallbackSwitch data s.SensorState))
  | .pin msg => some (s.publier (InOutController.statePinCallBack msg s.SensorState))
  | .livrer => (s.lien.deliver Capteurs.callbackCapteursSimulation).map fun l => { s with lien := l }
  | .perdre i => (s.lien.lose i).map fun l => { s with lien := l }

/-- The latest datum of a kind in a trace, or a default. -/
def dernier {α : Type} (kind : Evenement → Option α) (defaut : α) (trace : List Evenement) : α :=
  trace.foldl (fun a e => (kind e).getD a) defaut

/-- The word of a `RailSensor` message. -/
def Evenement.motRail : Evenement → Option (BitVec 32)
  | .rail data => some data
  | _ => none

/-- The word of a `StopSensor` message. -/
def Evenement.motStop : Evenement → Option (BitVec 32)
  | .stop data => some data
  | _ => none

/-- The word of a `SwitchSensor` message. -/
def Evenement.motSwitch : Evenement → Option (BitVec 32)
  | .switch data => some data
  | _ => none

/-- The array `PINON` of a `Msg_PinControl` message. -/
def Evenement.pinOn : Evenement → Option (ℕ → Bool)
  | .pin msg => some msg.PINON
  | _ => none

theorem dernier_concat {α : Type} (kind : Evenement → Option α) (defaut : α)
    (trace : List Evenement) (e : Evenement) :
    dernier kind defaut (trace ++ [e]) = (kind e).getD (dernier kind defaut trace) := by
  unfold dernier
  rw [List.foldl_concat]

/-- A message of sensors shows given words and pins. -/
structure Montre (rail stop switch : BitVec 32) (pinOn : ℕ → Bool) (m : MsgSensorState) : Prop where
  CP : ∀ i, 1 ≤ i → i ≤ 10 → m.CP i = rail.getLsbD (i - 1)
  PS : ∀ i, 1 ≤ i → i ≤ 24 → m.PS i = stop.getLsbD (i - 1)
  DD : ∀ i, 1 ≤ i → i ≤ 12 → m.DD i = switch.getLsbD (2 * i - 2)
  DG : ∀ i, 1 ≤ i → i ≤ 12 → m.DG i = switch.getLsbD (2 * i - 1)
  CPI : ∀ i, 1 ≤ i → i ≤ 8 → m.CPI i = pinOn i

/-- A cell rewritten by the loop. -/
theorem recopier_of_mem {n i : ℕ} (h1 : 1 ≤ i) (hn : i ≤ n) (src dest : ℕ → Bool) :
    recopier n src dest i = src i := if_pos ⟨h1, hn⟩

namespace Montre

variable {rail stop switch : BitVec 32} {pinOn : ℕ → Bool} {m : MsgSensorState}

theorem initial :
    Montre 0#32 0#32 0#32 (fun _ => false) InOutController.sensorStateInitial := by
  constructor <;> intro i _ _ <;> simp [InOutController.sensorStateInitial]

theorem sensorCallbackRail (h : Montre rail stop switch pinOn m) (data : BitVec 32) :
    Montre data stop switch pinOn (InOutController.sensorCallbackRail data m) where
  CP := by
    intro i h1 h10
    show recopier 10 (fun i => bit data (i - 1)) m.CP i = _
    rw [recopier_of_mem h1 h10, bit_eq (by omega)]
  PS := h.PS
  DD := h.DD
  DG := h.DG
  CPI := h.CPI

theorem sensorCallbackStop (h : Montre rail stop switch pinOn m) (data : BitVec 32) :
    Montre rail data switch pinOn (InOutController.sensorCallbackStop data m) where
  CP := h.CP
  PS := by
    intro i h1 h24
    show recopier 24 (fun i => bit data (i - 1)) m.PS i = _
    rw [recopier_of_mem h1 h24, bit_eq (by omega)]
  DD := h.DD
  DG := h.DG
  CPI := h.CPI

theorem sensorCallbackSwitch (h : Montre rail stop switch pinOn m) (data : BitVec 32) :
    Montre rail stop data pinOn (InOutController.sensorCallbackSwitch data m) where
  CP := h.CP
  PS := h.PS
  DD := by
    intro i h1 h12
    show recopier 12 (fun i => bit data (2 * i - 2)) m.DD i = _
    rw [recopier_of_mem h1 h12, bit_eq (by omega)]
  DG := by
    intro i h1 h12
    show recopier 12 (fun i => bit data (2 * i - 1)) m.DG i = _
    rw [recopier_of_mem h1 h12, bit_eq (by omega)]
  CPI := h.CPI

/-- The pins survive the word they are packed into. -/
theorem statePinCallBack (h : Montre rail stop switch pinOn m) (msg : MsgPinControl) :
    Montre rail stop switch msg.PINON (InOutController.statePinCallBack msg m) where
  CP := h.CP
  PS := h.PS
  DD := h.DD
  DG := h.DG
  CPI := by
    intro i h1 h8
    show recopier 8 (fun i => bit (Registre.somme 32 msg.PINON 8) (i - 1)) m.CPI i = _
    rw [recopier_of_mem h1 h8, bit_eq (by omega), Registre.getLsbD_somme _ (by norm_num),
      decide_eq_true (by omega), Bool.true_and, Nat.sub_add_cancel h1]

end Montre

/-- The image shows what a message shows. -/
structure Reflete (m : MsgSensorState) (c : Capteurs) : Prop where
  PS : ∀ i, 1 ≤ i → i ≤ 24 → c.PSx i = m.PS i
  CP : ∀ i, 1 ≤ i → i ≤ 10 → c.CPx i = m.CP i
  DD : ∀ i, 1 ≤ i → i ≤ 12 → c.DxD i = m.DD i
  DG : ∀ i, 1 ≤ i → i ≤ 12 → c.DxG i = m.DG i
  CPI : ∀ i, 1 ≤ i → i ≤ 8 → c.CPIx i = m.CPI i

theorem reflete_initial : Reflete InOutController.sensorStateInitial Capteurs.initial := by
  constructor <;> intro i _ _ <;> rfl

/-- `Callback_capteurs_simulation` copies every cell. -/
theorem reflete_callback (m : MsgSensorState) (c : Capteurs) :
    Reflete m (Capteurs.callbackCapteursSimulation m c) := by
  constructor <;> intro i h1 hn <;> exact if_pos ⟨h1, by omega⟩

/-- The invariant of the runs: the message shows the latest words, and the link carries it. -/
structure Suit (trace : List Evenement) (s : Etat) : Prop where
  montre : Montre (dernier Evenement.motRail 0#32 trace) (dernier Evenement.motStop 0#32 trace)
    (dernier Evenement.motSwitch 0#32 trace) (dernier Evenement.pinOn (fun _ => false) trace)
    s.SensorState
  lien : s.lien.Fresh Reflete s.SensorState

theorem suit_initial : Suit [] Etat.initial where
  montre := Montre.initial
  lien := .inr ⟨rfl, reflete_initial⟩

/-- Every event keeps the invariant. -/
theorem Suit.etape {trace : List Evenement} {s s' : Etat} {e : Evenement} (h : Suit trace s)
    (he : etape s e = some s') : Suit (trace ++ [e]) s' := by
  have hm := h.montre
  constructor
  · simp only [dernier_concat]
    cases e with
    | rail data =>
      cases he
      exact hm.sensorCallbackRail data
    | stop data =>
      cases he
      exact hm.sensorCallbackStop data
    | switch data =>
      cases he
      exact hm.sensorCallbackSwitch data
    | pin msg =>
      cases he
      exact hm.statePinCallBack msg
    | livrer =>
      obtain ⟨l, -, rfl⟩ := Option.map_eq_some_iff.1 he
      exact hm
    | perdre i =>
      obtain ⟨l, -, rfl⟩ := Option.map_eq_some_iff.1 he
      exact hm
  · cases e with
    | livrer =>
      obtain ⟨l, hl, rfl⟩ := Option.map_eq_some_iff.1 he
      exact h.lien.deliver reflete_callback hl
    | perdre i =>
      obtain ⟨l, hl, rfl⟩ := Option.map_eq_some_iff.1 he
      exact h.lien.lose hl
    | rail | stop | switch | pin =>
      cases he
      exact Link.fresh_publish _ _

/-- Once nothing is under way, the sensor image shows the latest words and pins handled by
`inOutController`, whatever was lost before. -/
theorem image_a_jour {trace : List Evenement} {s : Etat}
    (h : Reactive.Run (fun s e s' => etape s e = some s') Etat.initial trace s)
    (hvide : s.lien.queue = []) :
    (∀ i, 1 ≤ i → i ≤ 24 → s.lien.receiver.PSx i =
      (dernier Evenement.motStop 0#32 trace).getLsbD (i - 1)) ∧
    (∀ i, 1 ≤ i → i ≤ 10 → s.lien.receiver.CPx i =
      (dernier Evenement.motRail 0#32 trace).getLsbD (i - 1)) ∧
    (∀ i, 1 ≤ i → i ≤ 12 → s.lien.receiver.DxD i =
      (dernier Evenement.motSwitch 0#32 trace).getLsbD (2 * i - 2)) ∧
    (∀ i, 1 ≤ i → i ≤ 12 → s.lien.receiver.DxG i =
      (dernier Evenement.motSwitch 0#32 trace).getLsbD (2 * i - 1)) ∧
    (∀ i, 1 ≤ i → i ≤ 8 → s.lien.receiver.CPIx i =
      dernier Evenement.pinOn (fun _ => false) trace i) := by
  have hstep : ∀ (trace : List Evenement) s e s', Suit trace s → etape s e = some s' →
      Suit (trace ++ [e]) s' := fun _ _ _ _ hs he => hs.etape he
  have hsuit := Reactive.Run.invariant suit_initial hstep h
  have hm := hsuit.montre
  have hr := hsuit.lien.arrived hvide
  refine ⟨?_, ?_, ?_, ?_, ?_⟩
  · intro i h1 hn
    rw [hr.PS i h1 hn, hm.PS i h1 hn]
  · intro i h1 hn
    rw [hr.CP i h1 hn, hm.CP i h1 hn]
  · intro i h1 hn
    rw [hr.DD i h1 hn, hm.DD i h1 hn]
  · intro i h1 hn
    rw [hr.DG i h1 hn, hm.DG i h1 hn]
  · intro i h1 hn
    rw [hr.CPI i h1 hn, hm.CPI i h1 hn]

/-- Four messages, of which the first publication is lost. -/
def quatreMessages : List Evenement :=
  [.stop 5#32, .switch 6#32, .perdre 0, .rail 1#32,
    .pin { PINON := fun i => i == 7, PINOFF := fun _ => false }, .perdre 1, .livrer, .livrer]

/-- The image after these messages. -/
theorem image_a_jour_quatreMessages :
    ∃ s, Reactive.Run (fun s e s' => etape s e = some s') Etat.initial quatreMessages s ∧
      s.lien.queue = [] ∧ s.lien.receiver.PSx 1 = true ∧ s.lien.receiver.PSx 2 = false ∧
      s.lien.receiver.CPx 1 = true ∧ s.lien.receiver.DxD 2 = true ∧
      s.lien.receiver.DxG 1 = true ∧ s.lien.receiver.CPIx 7 = true := by
  obtain ⟨s, hs, hvide⟩ : ∃ s, Reactive.execute (fun _ _ => True) etape Etat.initial quatreMessages
      = some s ∧ s.lien.queue = [] := ⟨_, rfl, rfl⟩
  have hrun : Reactive.Run (fun s e s' => etape s e = some s') Etat.initial quatreMessages s :=
    (Reactive.run_execute .nil hs).mono fun _ _ _ h => h.2
  obtain ⟨hPS, hCP, hDD, hDG, hCPI⟩ := image_a_jour hrun hvide
  refine ⟨s, hrun, hvide, ?_, ?_, ?_, ?_, ?_, ?_⟩
  · rw [hPS 1 (by norm_num) (by norm_num)]
    rfl
  · rw [hPS 2 (by norm_num) (by norm_num)]
    rfl
  · rw [hCP 1 (by norm_num) (by norm_num)]
    rfl
  · rw [hDD 2 (by norm_num) (by norm_num)]
    rfl
  · rw [hDG 1 (by norm_num) (by norm_num)]
    rfl
  · rw [hCPI 7 (by norm_num) (by norm_num)]
    rfl

end ImageCapteurs

end CommandeLocale
