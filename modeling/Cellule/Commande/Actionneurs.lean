import Mathlib.Tactic
import Cellule.Lib.Registre

/-! # Actuators

`commande/src/actionneurs.cpp`, which packs the actuator arrays into one register, and
`communication/src/communication.cpp`, which cuts the register into the words of the two
controllers. `long int` and `int` are two's complement words of 64 and 32 bits; the powers of two
are exact in the `double` arithmetic of `pow`.
-/

/-- `commande_locale/msg/Msg_StopControl.msg`. -/
structure MsgStopControl where
  STOP : ℕ → Bool
  GO : ℕ → Bool

/-- `commande_locale/msg/Msg_SwitchControl.msg`. -/
structure MsgSwitchControl where
  LOCK : ℕ → Bool
  RD : ℕ → Bool
  RG : ℕ → Bool

/-- `commande_locale/msg/Msg_PinControl.msg`. -/
structure MsgPinControl where
  PINON : ℕ → Bool
  PINOFF : ℕ → Bool

namespace Commande

/-- `MASK` of `commande/src/capteurs.cpp`. -/
def MASK (registre : BitVec 64) (numeroBit : ℕ) : Bool :=
  (registre &&& BitVec.twoPow 64 numeroBit) / BitVec.twoPow 64 numeroBit != 0#64

/-- `WRITE`. -/
def WRITE (registre : BitVec 64) (donnee : Bool) (numeroBit : ℕ) : BitVec 64 :=
  if MASK registre numeroBit ≠ donnee then
    if donnee then registre + BitVec.twoPow 64 numeroBit
    else registre - BitVec.twoPow 64 numeroBit
  else registre

/-- A sequence of calls of `WRITE`, each given by its datum and its bit. -/
def ecrireLigne (ecritures : List (Bool × ℕ)) (registre : BitVec 64) : BitVec 64 :=
  ecritures.foldl (fun r e => WRITE r e.1 e.2) registre

/-- The calls of `Actionneurs::Ecrire_ligne_STx`. -/
def ligneSTx (STx : ℕ → Bool) : List (Bool × ℕ) :=
  [(STx 1, 8), (STx 2, 9), (STx 3, 10), (STx 4, 12), (STx 5, 11), (STx 20, 24), (STx 21, 25),
    (STx 22, 26), (STx 23, 28), (STx 24, 27)]

/-- The calls of `Actionneurs::Ecrire_ligne_RxD`. -/
def ligneRxD (RxD : ℕ → Bool) : List (Bool × ℕ) :=
  [(RxD 1, 0), (RxD 2, 4), (RxD 11, 16), (RxD 12, 20)]

/-- The calls of `Actionneurs::Ecrire_ligne_RxG`. -/
def ligneRxG (RxG : ℕ → Bool) : List (Bool × ℕ) :=
  [(RxG 1, 1), (RxG 2, 5), (RxG 11, 17), (RxG 12, 21)]

/-- The calls of `Actionneurs::Ecrire_ligne_PIx`. -/
def lignePIx (PIx : ℕ → Bool) : List (Bool × ℕ) :=
  [(PIx 1, 13), (PIx 2, 14), (PIx 7, 29), (PIx 8, 30)]

/-- The calls of `Actionneurs::Ecrire_ligne_Vx`. -/
def ligneVx (Vx : ℕ → Bool) : List (Bool × ℕ) :=
  [(Vx 1, 2), (Vx 2, 6), (Vx 11, 18), (Vx 12, 22)]

/-- The calls of `Actionneurs::Ecrire_ligne_Dx`. -/
def ligneDx (Dx : ℕ → Bool) : List (Bool × ℕ) :=
  [(Dx 1, 3), (Dx 2, 7), (Dx 11, 19), (Dx 12, 23)]

/-- The arguments of `Actionneurs::Envoyer`. -/
structure Signaux where
  STx : ℕ → Bool
  RxD : ℕ → Bool
  RxG : ℕ → Bool
  Vx : ℕ → Bool
  Dx : ℕ → Bool
  PIx : ℕ → Bool

/-- `class Actionneurs`. -/
structure Actionneurs where
  actionneursLigne : BitVec 64
  actionneursSimulationStop : MsgStopControl
  actionneursSimulationAguillages : MsgSwitchControl
  actionneursSimulationPin : MsgPinControl

/-- What one call of `Envoyer` publishes. -/
structure Envoi where
  actionneurs : BitVec 64
  stops : MsgStopControl
  aiguillages : MsgSwitchControl
  pins : MsgPinControl

/-- The loop `for(int i=1;i<=n;i++) dest[i]=src(i)`. -/
def recopier (n : ℕ) (src dest : ℕ → Bool) (i : ℕ) : Bool :=
  if 1 ≤ i ∧ i ≤ n then src i else dest i

namespace Actionneurs

/-- The constructor. -/
def initial : Actionneurs :=
  { actionneursLigne := 0#64
    actionneursSimulationStop :=
      { STOP := recopier 24 (fun _ => true) fun _ => false
        GO := fun _ => false }
    actionneursSimulationAguillages :=
      { LOCK := fun _ => false, RD := fun _ => false, RG := fun _ => false }
    actionneursSimulationPin :=
      { PINON := fun _ => false, PINOFF := fun _ => false } }

/-- `Actionneurs::Ecrire_ligne_STx`. -/
def ecrireLigneSTx (STx : ℕ → Bool) : BitVec 64 → BitVec 64 := ecrireLigne (ligneSTx STx)

/-- `Actionneurs::Ecrire_ligne_RxD`. -/
def ecrireLigneRxD (RxD : ℕ → Bool) : BitVec 64 → BitVec 64 := ecrireLigne (ligneRxD RxD)

/-- `Actionneurs::Ecrire_ligne_RxG`. -/
def ecrireLigneRxG (RxG : ℕ → Bool) : BitVec 64 → BitVec 64 := ecrireLigne (ligneRxG RxG)

/-- `Actionneurs::Ecrire_ligne_PIx`. -/
def ecrireLignePIx (PIx : ℕ → Bool) : BitVec 64 → BitVec 64 := ecrireLigne (lignePIx PIx)

/-- `Actionneurs::Ecrire_ligne_Vx`. -/
def ecrireLigneVx (Vx : ℕ → Bool) : BitVec 64 → BitVec 64 := ecrireLigne (ligneVx Vx)

/-- `Actionneurs::Ecrire_ligne_Dx`. -/
def ecrireLigneDx (Dx : ℕ → Bool) : BitVec 64 → BitVec 64 := ecrireLigne (ligneDx Dx)

/-- `Actionneurs::Envoyer`. -/
def envoyer (s : Actionneurs) (a : Signaux) : Actionneurs × Envoi :=
  let ligne := ecrireLigneSTx a.STx s.actionneursLigne
  let ligne := ecrireLigneRxD a.RxD ligne
  let ligne := ecrireLigneRxG a.RxG ligne
  let ligne := ecrireLignePIx a.PIx ligne
  let ligne := ecrireLigneVx a.Vx ligne
  let ligne := ecrireLigneDx a.Dx ligne
  let stop : MsgStopControl :=
    { STOP := recopier 24 (fun i => !a.STx i) s.actionneursSimulationStop.STOP
      GO := recopier 24 a.STx s.actionneursSimulationStop.GO }
  let aiguillages : MsgSwitchControl :=
    { LOCK := recopier 12 (fun i => !a.Vx i && a.Dx i) s.actionneursSimulationAguillages.LOCK
      RD := recopier 12 a.RxD s.actionneursSimulationAguillages.RD
      RG := recopier 12 a.RxG s.actionneursSimulationAguillages.RG }
  let pin : MsgPinControl :=
    { PINON := recopier 8 a.PIx s.actionneursSimulationPin.PINON
      PINOFF := recopier 8 (fun i => !a.PIx i) s.actionneursSimulationPin.PINOFF }
  ({ actionneursLigne := ligne, actionneursSimulationStop := stop
     actionneursSimulationAguillages := aiguillages, actionneursSimulationPin := pin },
    { actionneurs := ligne, stops := stop, aiguillages := aiguillages, pins := pin })

/-- The node after a sequence of calls of `Envoyer`. -/
def apres (appels : List Signaux) : Actionneurs :=
  appels.foldl (fun s a => (s.envoyer a).1) initial

end Actionneurs

/-- `Communication_commande::Decoupe_sorties`: the words `sorties_api` of the two controllers, as a
function of `ACTIONNEURS`. -/
def decoupeSorties (ACTIONNEURS : BitVec 64) : BitVec 32 × BitVec 32 :=
  ((ACTIONNEURS &&& 0xFFFF#64).setWidth 32,
    ((ACTIONNEURS &&& 0xFFFF0000#64).sshiftRight 16).setWidth 32)

/-! ## Bits of the register -/

/-- `MASK` reads one bit. -/
theorem MASK_eq {registre : BitVec 64} {n : ℕ} (hn : n < 64) :
    MASK registre n = registre.getLsbD n := by
  unfold MASK
  rw [BitVec.and_twoPow]
  cases registre.getLsbD n with
  | false => simp
  | true =>
    have hdiv : BitVec.twoPow 64 n / BitVec.twoPow 64 n = 1#64 := by
      apply BitVec.eq_of_toNat_eq
      rw [BitVec.toNat_udiv, BitVec.toNat_twoPow_of_lt hn, Nat.div_self (Nat.two_pow_pos n)]
      rfl
    simp [hdiv]

/-- `WRITE` sets one bit and leaves the others. -/
theorem getLsbD_WRITE {registre : BitVec 64} {n : ℕ} (hn : n < 64) (donnee : Bool) (i : ℕ) :
    (WRITE registre donnee n).getLsbD i = if i = n then donnee else registre.getLsbD i := by
  unfold WRITE
  rw [MASK_eq hn]
  by_cases hbit : registre.getLsbD n = donnee
  · rw [if_neg (not_not.2 hbit)]
    split_ifs with hi
    · rw [hi, hbit]
    · rfl
  · rw [if_pos hbit]
    cases donnee with
    | false =>
      rw [if_neg Bool.false_ne_true]
      exact Registre.getLsbD_sub_twoPow hn (by simpa using hbit) i
    | true =>
      rw [if_pos rfl]
      exact Registre.getLsbD_add_twoPow hn (by simpa using hbit) i

/-- A bit that no call writes keeps its value. -/
theorem getLsbD_ecrireLigne_of_notMem {ecritures : List (Bool × ℕ)} {i : ℕ}
    (h64 : ∀ e ∈ ecritures, e.2 < 64) (hi : i ∉ ecritures.map Prod.snd) (registre : BitVec 64) :
    (ecrireLigne ecritures registre).getLsbD i = registre.getLsbD i := by
  induction ecritures generalizing registre with
  | nil => rfl
  | cons e es ih =>
    rw [List.map_cons, List.mem_cons, not_or] at hi
    have hrest := ih (fun e' he' => h64 e' (List.mem_cons_of_mem _ he')) hi.2
    have hhead : (WRITE registre e.1 e.2).getLsbD i = if i = e.2 then e.1 else registre.getLsbD i :=
      getLsbD_WRITE (h64 e List.mem_cons_self) e.1 i
    rw [if_neg hi.1] at hhead
    rw [← hhead]
    exact hrest (WRITE registre e.1 e.2)

/-- A bit written by one call holds its datum, when no two calls write the same bit. -/
theorem getLsbD_ecrireLigne_of_mem {ecritures : List (Bool × ℕ)} {donnee : Bool} {i : ℕ}
    (h64 : ∀ e ∈ ecritures, e.2 < 64) (hdiff : (ecritures.map Prod.snd).Nodup)
    (hmem : (donnee, i) ∈ ecritures) (registre : BitVec 64) :
    (ecrireLigne ecritures registre).getLsbD i = donnee := by
  induction ecritures generalizing registre with
  | nil => cases hmem
  | cons e es ih =>
    rw [List.map_cons, List.nodup_cons] at hdiff
    have h64' : ∀ e' ∈ es, e'.2 < 64 := fun e' he' => h64 e' (List.mem_cons_of_mem _ he')
    show (ecrireLigne es (WRITE registre e.1 e.2)).getLsbD i = donnee
    rcases List.mem_cons.1 hmem with rfl | htail
    · rw [getLsbD_ecrireLigne_of_notMem h64' hdiff.1, getLsbD_WRITE (h64 _ List.mem_cons_self),
        if_pos rfl]
    · exact ih h64' hdiff.2 htail _

/-! ## Words of the controllers -/

namespace Signaux

/-- The signal at each bit of the register. Bits `15` and `31` carry none. -/
def signal (a : Signaux) : ℕ → Bool
  | 0 => a.RxD 1
  | 1 => a.RxG 1
  | 2 => a.Vx 1
  | 3 => a.Dx 1
  | 4 => a.RxD 2
  | 5 => a.RxG 2
  | 6 => a.Vx 2
  | 7 => a.Dx 2
  | 8 => a.STx 1
  | 9 => a.STx 2
  | 10 => a.STx 3
  | 11 => a.STx 5
  | 12 => a.STx 4
  | 13 => a.PIx 1
  | 14 => a.PIx 2
  | 16 => a.RxD 11
  | 17 => a.RxG 11
  | 18 => a.Vx 11
  | 19 => a.Dx 11
  | 20 => a.RxD 12
  | 21 => a.RxG 12
  | 22 => a.Vx 12
  | 23 => a.Dx 12
  | 24 => a.STx 20
  | 25 => a.STx 21
  | 26 => a.STx 22
  | 27 => a.STx 24
  | 28 => a.STx 23
  | 29 => a.PIx 7
  | 30 => a.PIx 8
  | _ => false

/-- The calls of `WRITE` made by `Envoyer`, in order. -/
def ecritures (a : Signaux) : List (Bool × ℕ) :=
  ligneSTx a.STx ++ ligneRxD a.RxD ++ ligneRxG a.RxG ++ lignePIx a.PIx ++ ligneVx a.Vx ++
    ligneDx a.Dx

/-- The bits in the order in which they are written. -/
theorem bits_ecritures (a : Signaux) : a.ecritures.map Prod.snd =
    [8, 9, 10, 12, 11, 24, 25, 26, 28, 27, 0, 4, 16, 20, 1, 5, 17, 21, 13, 14, 29, 30, 2, 6, 18, 22,
      3, 7, 19, 23] := rfl

/-- No bit is written twice. -/
theorem nodup_ecritures (a : Signaux) : (a.ecritures.map Prod.snd).Nodup := by
  rw [bits_ecritures]
  decide

/-- The bits written are those of two words of sixteen bits, the last bit of each apart. -/
theorem mem_bits_ecritures (a : Signaux) (n : ℕ) :
    n ∈ a.ecritures.map Prod.snd ↔ n < 31 ∧ n ≠ 15 := by
  rw [bits_ecritures]
  simp only [List.mem_cons, List.not_mem_nil, or_false]
  omega

theorem lt_of_mem_ecritures {a : Signaux} {e : Bool × ℕ} (he : e ∈ a.ecritures) : e.2 < 64 := by
  have hbit := (a.mem_bits_ecritures e.2).1 (List.mem_map_of_mem he)
  omega

/-- Every bit written is written with its signal. -/
theorem ecritures_eq (a : Signaux) :
    a.ecritures = (a.ecritures.map Prod.snd).map fun n => (a.signal n, n) := rfl

theorem signal_mem_ecritures (a : Signaux) {n : ℕ} (hn : n ∈ a.ecritures.map Prod.snd) :
    (a.signal n, n) ∈ a.ecritures := by
  rw [ecritures_eq]
  exact List.mem_map.2 ⟨n, hn, rfl⟩

/-- The other bits carry no signal. -/
theorem signal_of_notMem (a : Signaux) {n : ℕ} (hn : n ∉ a.ecritures.map Prod.snd) :
    a.signal n = false := by
  rw [mem_bits_ecritures] at hn
  unfold signal
  split <;> first | rfl | omega

end Signaux

namespace Actionneurs

/-- `Envoyer` is one sequence of calls of `WRITE`, and publishes the register it leaves. -/
theorem ligne_envoyer (s : Actionneurs) (a : Signaux) :
    (s.envoyer a).1.actionneursLigne = ecrireLigne a.ecritures s.actionneursLigne := by
  unfold Signaux.ecritures ecrireLigne
  simp only [List.foldl_append]
  rfl

/-- No bit of the register is ever set where no signal is carried. -/
def Propre (s : Actionneurs) : Prop :=
  ∀ n, ¬(n < 31 ∧ n ≠ 15) → s.actionneursLigne.getLsbD n = false

theorem propre_initial : initial.Propre := by
  intro n hn
  exact BitVec.getLsbD_zero

/-- `Envoyer` writes no other bit than those of the signals. -/
theorem Propre.envoyer {s : Actionneurs} (hs : s.Propre) (a : Signaux) :
    (s.envoyer a).1.Propre := by
  intro n hn
  have hnot : n ∉ a.ecritures.map Prod.snd := by
    rwa [Signaux.mem_bits_ecritures]
  rw [ligne_envoyer,
    getLsbD_ecrireLigne_of_notMem (fun _ => Signaux.lt_of_mem_ecritures) hnot]
  exact hs n hn

/-- The same after any sequence of calls. -/
theorem propre_apres (appels : List Signaux) : (apres appels).Propre := by
  unfold apres
  induction appels using List.reverseRecOn with
  | nil => exact propre_initial
  | append_singleton appels a ih =>
    rw [List.foldl_append]
    exact ih.envoyer a

/-- After a call the register holds the signals of that call, bit for bit. -/
theorem getLsbD_envoyer {s : Actionneurs} (hs : s.Propre) (a : Signaux) (n : ℕ) :
    (s.envoyer a).1.actionneursLigne.getLsbD n = a.signal n := by
  by_cases hn : n ∈ a.ecritures.map Prod.snd
  · rw [ligne_envoyer]
    exact getLsbD_ecrireLigne_of_mem (fun _ => Signaux.lt_of_mem_ecritures)
      a.nodup_ecritures (a.signal_mem_ecritures hn) _
  · rw [a.signal_of_notMem hn]
    rw [Signaux.mem_bits_ecritures] at hn
    exact hs.envoyer a n hn

/-- A clean register is a word of thirty-one bits. -/
theorem Propre.toNat_lt {s : Actionneurs} (hs : s.Propre) :
    s.actionneursLigne.toNat < 2 ^ 31 := by
  apply Nat.lt_pow_two_of_testBit
  intro n hn
  exact hs n (by omega)

end Actionneurs

/-- The low word of the register. -/
theorem getLsbD_decoupeSorties_fst (mot : BitVec 64) (n : ℕ) :
    (decoupeSorties mot).1.getLsbD n = (decide (n < 16) && mot.getLsbD n) := by
  have hmask : 0xFFFF#64 = (BitVec.allOnes 16).setWidth 64 := rfl
  unfold decoupeSorties
  rw [hmask, BitVec.getLsbD_setWidth, BitVec.getLsbD_and, BitVec.getLsbD_setWidth,
    BitVec.getLsbD_allOnes]
  by_cases hn : n < 16
  · have h32 : n < 32 := by omega
    have h64 : n < 64 := by omega
    simp [hn, h32, h64]
  · simp [hn]

/-- The high word of the register. -/
theorem getLsbD_decoupeSorties_snd (mot : BitVec 64) (n : ℕ) :
    (decoupeSorties mot).2.getLsbD n = (decide (n < 16) && mot.getLsbD (16 + n)) := by
  have hmask : 0xFFFF0000#64 = (BitVec.allOnes 16).setWidth 64 <<< 16 := rfl
  -- the masked register is not negative, so the arithmetic shift brings in zeros
  have hmsb : (mot &&& (BitVec.allOnes 16).setWidth 64 <<< 16).msb = false := by
    rw [BitVec.msb_eq_getLsbD_last, BitVec.getLsbD_and, BitVec.getLsbD_shiftLeft]
    simp
  unfold decoupeSorties
  rw [hmask, BitVec.getLsbD_setWidth, BitVec.getLsbD_sshiftRight, hmsb, BitVec.getLsbD_and,
    BitVec.getLsbD_shiftLeft, BitVec.getLsbD_setWidth, BitVec.getLsbD_allOnes]
  by_cases hn : n < 16
  · have h32 : n < 32 := by omega
    have h64 : n < 64 := by omega
    have h80 : 16 + n < 64 := by omega
    simp [hn, h32, h64, not_le.2 h64, h80]
  · simp [hn]

/-- Both words have sixteen bits. -/
theorem decoupeSorties_lt (mot : BitVec 64) :
    (decoupeSorties mot).1.toNat < 2 ^ 16 ∧ (decoupeSorties mot).2.toNat < 2 ^ 16 := by
  constructor
  · apply Nat.lt_pow_two_of_testBit
    intro n hn
    have hbit := getLsbD_decoupeSorties_fst mot n
    rwa [decide_eq_false (not_lt.2 hn), Bool.false_and] at hbit
  · apply Nat.lt_pow_two_of_testBit
    intro n hn
    have hbit := getLsbD_decoupeSorties_snd mot n
    rwa [decide_eq_false (not_lt.2 hn), Bool.false_and] at hbit

/-- After any sequence of calls of `Envoyer` the published register is a word of thirty-one bits,
and the words cut from it carry the signals of the last call at their bits and nothing else. -/
theorem signaux_transmis (appels : List Signaux) (a : Signaux) :
    let mot := ((Actionneurs.apres appels).envoyer a).2.actionneurs
    let AP1 := (decoupeSorties mot).1
    let AP2 := (decoupeSorties mot).2
    (0 ≤ mot.toInt ∧ mot.toInt ≤ 2 ^ 31 - 1) ∧
      (0 ≤ AP1.toInt ∧ AP1.toInt ≤ 2 ^ 16 - 1) ∧ (0 ≤ AP2.toInt ∧ AP2.toInt ≤ 2 ^ 16 - 1) ∧
      (∀ n, n < 16 → AP1.getLsbD n = a.signal n) ∧
      (∀ n, 16 ≤ n → n < 32 → AP2.getLsbD (n - 16) = a.signal n) ∧
      AP1.getLsbD 15 = false ∧ AP2.getLsbD 15 = false := by
  intro mot AP1 AP2
  have hpropre := Actionneurs.propre_apres appels
  have hbit : ∀ n, mot.getLsbD n = a.signal n := Actionneurs.getLsbD_envoyer hpropre a
  obtain ⟨h1, h2⟩ := decoupeSorties_lt mot
  have hbas : ∀ n, n < 16 → AP1.getLsbD n = a.signal n := by
    intro n hn
    have h := getLsbD_decoupeSorties_fst mot n
    rwa [decide_eq_true hn, Bool.true_and, hbit] at h
  have hhaut : ∀ n, n < 16 → AP2.getLsbD n = a.signal (16 + n) := by
    intro n hn
    have h := getLsbD_decoupeSorties_snd mot n
    rwa [decide_eq_true hn, Bool.true_and, hbit] at h
  refine ⟨Registre.toInt_of_toNat_lt (hpropre.envoyer a).toNat_lt (by norm_num),
    Registre.toInt_of_toNat_lt h1 (by norm_num), Registre.toInt_of_toNat_lt h2 (by norm_num), hbas,
      ?_, ?_, ?_⟩
  · intro n h16 h32
    rw [hhaut (n - 16) (by omega), Nat.add_sub_cancel' h16]
  · rw [hbas 15 (by norm_num)]
    rfl
  · rw [hhaut 15 (by norm_num)]
    rfl

end Commande
