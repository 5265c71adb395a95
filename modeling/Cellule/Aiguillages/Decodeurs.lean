import Cellule.Aiguillages.Aiguillage
import Cellule.CommandeLocale.InOutController

/-! # The two decoders of the switch sensors

`Aiguillage::SwitchSensorCallback` and `inOutController::SensorCallbackSwitch` cut the same word
into two arrays, by the same loop over the switches `1..12`. The arrays of the message are declared
with 13 cells; those of `Aiguillage` with 12, so that its loop writes past their end at the last
switch.
-/

namespace Aiguillages

namespace Decodeurs

open Commande (recopier)
open CommandeLocale (bit bit_eq)
open CommandeLocale.ImageCapteurs (recopier_of_mem)

/-- A cell outside an array, which C++ leaves unchecked. -/
inductive Faute
  | horsTableau (i : ℕ)
  deriving DecidableEq, Repr

/-- `t[i]=b`, for an array declared with `n` cells. -/
def ecrire {n : ℕ} (t : Vector Bool n) (i : ℕ) (b : Bool) : Except Faute (Vector Bool n) :=
  if h : i < n then .ok (t.set i b) else .error (.horsTableau i)

/-- The arrays of the two sides, with the number of cells that they are declared with. -/
structure Tableaux (n : ℕ) where
  D : Vector Bool n
  G : Vector Bool n

variable {n : ℕ}

/-- The two writes for the switch `i`. -/
def decoder (data : BitVec 32) (t : Tableaux n) (i : ℕ) : Except Faute (Tableaux n) := do
  let D ← ecrire t.D i (bit data (2 * i - 2))
  let G ← ecrire t.G i (bit data (2 * i - 1))
  return ⟨D, G⟩

/-- The loop over the switches `1..k`. -/
def boucle (k : ℕ) (t : Tableaux n) (data : BitVec 32) : Except Faute (Tableaux n) :=
  (List.range' 1 k).foldlM (decoder data) t

/-- `Aiguillage::SwitchSensorCallback`, on `bool Aig_D[12]` and `bool Aig_G[12]`. -/
def switchSensorCallback : Tableaux 12 → BitVec 32 → Except Faute (Tableaux 12) := boucle 12

/-- `inOutController::SensorCallbackSwitch`, on the arrays `bool[13] DD` and `bool[13] DG` of the
message that it publishes. -/
def sensorCallbackSwitch : Tableaux 13 → BitVec 32 → Except Faute (Tableaux 13) := boucle 12

/-- The words are handled by both nodes: every access stays inside its array and, after each word,
the cells `1..12` of both are its bits. -/
def DecodeursAccordes (aig : Tableaux 12) (SensorState : Tableaux 13) (mots : List (BitVec 32)) :
    Prop :=
  ∀ lus data, lus ++ [data] <+: mots → ∃ aig' SensorState',
    (lus ++ [data]).foldlM switchSensorCallback aig = .ok aig' ∧
    (lus ++ [data]).foldlM sensorCallbackSwitch SensorState = .ok SensorState' ∧
    ∀ i, 1 ≤ i → i ≤ 12 →
      (aig'.D[i]? = some (data.getLsbD (2 * i - 2)) ∧ aig'.G[i]? = some (data.getLsbD (2 * i - 1))) ∧
      SensorState'.D[i]? = some (data.getLsbD (2 * i - 2)) ∧
      SensorState'.G[i]? = some (data.getLsbD (2 * i - 1))

/-! ## The loop -/

variable {t t' : Tableaux n} {D G : ℕ → Bool} {data : BitVec 32} {i k : ℕ}

theorem ecrire_of_lt (t : Vector Bool n) (h : i < n) (b : Bool) : ecrire t i b = .ok (t.set i b) :=
  dif_pos h

theorem ecrire_of_le (t : Vector Bool n) (h : n ≤ i) (b : Bool) :
    ecrire t i b = .error (.horsTableau i) := dif_neg (not_lt.2 h)

/-- The last turn of the loop. -/
theorem boucle_succ (k : ℕ) (t : Tableaux n) (data : BitVec 32) :
    boucle (k + 1) t data = boucle k t data >>= fun t => decoder data t (k + 1) := by
  unfold boucle
  rw [List.range'_1_concat, List.foldlM_append, Nat.add_comm 1 k]
  simp only [List.foldlM_cons, List.foldlM_nil, bind_pure]

/-- The cells hold the values of two functions. -/
structure Represente (t : Tableaux n) (D G : ℕ → Bool) : Prop where
  D : ∀ i, i < n → t.D[i]? = some (D i)
  G : ∀ i, i < n → t.G[i]? = some (G i)

/-- Every pair of arrays represents something. -/
theorem exists_represente (t : Tableaux n) : ∃ D G, Represente t D G := by
  refine ⟨fun i => t.D[i]?.getD false, fun i => t.G[i]?.getD false, fun i hi => ?_, fun i hi => ?_⟩
  · rw [Vector.getElem?_eq_getElem hi, Option.getD_some]
  · rw [Vector.getElem?_eq_getElem hi, Option.getD_some]

/-- One more cell of the loop that rewrites the cells `1..k`. -/
theorem recopier_succ (k : ℕ) (src dest : ℕ → Bool) :
    recopier (k + 1) src dest = Function.update (recopier k src dest) (k + 1) (src (k + 1)) := by
  funext i
  unfold recopier
  by_cases hi : i = k + 1
  · subst hi
    rw [Function.update_self, if_pos (by omega)]
  · rw [Function.update_of_ne hi]
    exact if_congr (by omega) rfl rfl

/-- Only the cells `1..k` of the source are read. -/
theorem recopier_congr {src src' : ℕ → Bool} (h : ∀ i, 1 ≤ i → i ≤ k → src i = src' i)
    (dest : ℕ → Bool) : recopier k src dest = recopier k src' dest := by
  funext i
  unfold recopier
  by_cases hi : 1 ≤ i ∧ i ≤ k
  · rw [if_pos hi, if_pos hi, h i hi.1 hi.2]
  · rw [if_neg hi, if_neg hi]

/-- A write inside the array. -/
theorem getElem?_set {t : Vector Bool n} {f : ℕ → Bool} (ht : ∀ j, j < n → t[j]? = some (f j))
    (hi : i < n) (b : Bool) : ∀ j, j < n → (t.set i b)[j]? = some (Function.update f i b j) := by
  intro j hj
  by_cases hij : j = i
  · subst hij
    rw [Function.update_self, Vector.getElem?_set_self]
  · rw [Function.update_of_ne hij, Vector.getElem?_set_ne _ (Ne.symm hij), ht j hj]

/-- A loop that stops before the size of the arrays writes the bits of the word. -/
theorem boucle_represente (h : Represente t D G) (data : BitVec 32) (hk : k < n) (hbits : k ≤ 15) :
    ∃ t', boucle k t data = .ok t' ∧ Represente t'
      (recopier k (fun i => data.getLsbD (2 * i - 2)) D)
      (recopier k (fun i => data.getLsbD (2 * i - 1)) G) := by
  induction k with
  | zero =>
    refine ⟨t, rfl, fun i hi => ?_, fun i hi => ?_⟩
    · rw [h.D i hi, recopier, if_neg (by omega)]
    · rw [h.G i hi, recopier, if_neg (by omega)]
  | succ k ih =>
    obtain ⟨t₁, ht₁, hr⟩ := ih (by omega) (by omega)
    refine ⟨⟨t₁.D.set (k + 1) (data.getLsbD (2 * (k + 1) - 2)),
      t₁.G.set (k + 1) (data.getLsbD (2 * (k + 1) - 1))⟩, ?_, ?_, ?_⟩
    · rw [boucle_succ, ht₁]
      show decoder data t₁ (k + 1) = _
      rw [decoder, ecrire_of_lt _ hk, ecrire_of_lt _ hk, bit_eq (by omega), bit_eq (by omega)]
      rfl
    · rw [recopier_succ]
      exact getElem?_set hr.D hk _
    · rw [recopier_succ]
      exact getElem?_set hr.G hk _

/-- After every word of a sequence, a loop that stops before the size of the arrays has left the
bits of this word in their cells. -/
theorem boucle_mots (t : Tableaux n) (hk : k < n) (hbits : k ≤ 15) (lus : List (BitVec 32))
    (data : BitVec 32) :
    ∃ t', (lus ++ [data]).foldlM (boucle k) t = .ok t' ∧ ∀ i, 1 ≤ i → i ≤ k →
      t'.D[i]? = some (data.getLsbD (2 * i - 2)) ∧ t'.G[i]? = some (data.getLsbD (2 * i - 1)) := by
  obtain ⟨D, G, h⟩ := exists_represente t
  induction lus generalizing t D G with
  | nil =>
    obtain ⟨t', ht', hr⟩ := boucle_represente h data hk hbits
    refine ⟨t', ?_, fun i h1 hi => ⟨?_, ?_⟩⟩
    · rw [List.nil_append, List.foldlM_cons, ht']
      rfl
    · rw [hr.D i (by omega), recopier_of_mem h1 hi]
    · rw [hr.G i (by omega), recopier_of_mem h1 hi]
  | cons mot lus ih =>
    obtain ⟨t₁, ht₁, hr⟩ := boucle_represente h mot hk hbits
    rw [List.cons_append, List.foldlM_cons, ht₁]
    exact ih t₁ _ _ hr

/-- A loop up to the size of the arrays writes past their end. -/
theorem boucle_hors (t : Tableaux (k + 1)) (data : BitVec 32) (hbits : k ≤ 15) :
    boucle (k + 1) t data = .error (.horsTableau (k + 1)) := by
  obtain ⟨D, G, h⟩ := exists_represente t
  obtain ⟨t', ht', -⟩ := boucle_represente h data (Nat.lt_succ_self k) hbits
  rw [boucle_succ, ht']
  show decoder data t' (k + 1) = _
  rw [decoder, ecrire_of_le _ le_rfl]
  rfl

/-! ## The two callbacks -/

/-- `SwitchSensorCallback` writes past the end of its arrays, whatever the word is. -/
theorem switchSensorCallback_hors (aig : Tableaux 12) (data : BitVec 32) :
    switchSensorCallback aig data = .error (.horsTableau 12) := boucle_hors aig data (by norm_num)

/-- Every access of `SensorCallbackSwitch` is inside, and the message is the one of the simulator's
node. -/
theorem sensorCallbackSwitch_represente {t : Tableaux 13} {m : MsgSensorState}
    (h : Represente t m.DD m.DG) (data : BitVec 32) :
    ∃ t', sensorCallbackSwitch t data = .ok t' ∧ Represente t'
      (CommandeLocale.InOutController.sensorCallbackSwitch data m).DD
      (CommandeLocale.InOutController.sensorCallbackSwitch data m).DG := by
  obtain ⟨t', ht', hr⟩ := boucle_represente h data (by norm_num : 12 < 13) (by norm_num)
  have hD : (CommandeLocale.InOutController.sensorCallbackSwitch data m).DD =
      recopier 12 (fun i => data.getLsbD (2 * i - 2)) m.DD :=
    recopier_congr (fun i _ _ => bit_eq (by omega) data) m.DD
  have hG : (CommandeLocale.InOutController.sensorCallbackSwitch data m).DG =
      recopier 12 (fun i => data.getLsbD (2 * i - 1)) m.DG :=
    recopier_congr (fun i _ _ => bit_eq (by omega) data) m.DG
  rw [hD, hG]
  exact ⟨t', ht', hr⟩

/-- The first eleven turns of `SwitchSensorCallback` stay inside, and leave in the arrays what the
node of the switches has in its cells. -/
theorem boucle_onze_represente {t : Tableaux 12} {a : Aiguillage}
    (h : Represente t a.aigD a.aigG) (data : BitVec 32) :
    ∃ t', boucle 11 t data = .ok t' ∧ Represente t'
      (a.switchSensorCallback data).aigD (a.switchSensorCallback data).aigG := by
  obtain ⟨t', ht', hr⟩ := boucle_represente h data (by norm_num : 11 < 12) (by norm_num)
  refine ⟨t', ht', fun i hi => ?_, fun i hi => ?_⟩
  · rw [hr.D i hi]
    exact congrArg some (if_congr (by omega) rfl rfl)
  · rw [hr.G i hi]
    exact congrArg some (if_congr (by omega) rfl rfl)

/-- On the first eleven switches the two loops agree after every word of a sequence. -/
theorem onze_accordes (aig : Tableaux 12) (SensorState : Tableaux 13) (lus : List (BitVec 32))
    (data : BitVec 32) :
    ∃ aig' SensorState', (lus ++ [data]).foldlM (boucle 11) aig = .ok aig' ∧
      (lus ++ [data]).foldlM sensorCallbackSwitch SensorState = .ok SensorState' ∧
      ∀ i, 1 ≤ i → i ≤ 11 →
        aig'.D[i]? = SensorState'.D[i]? ∧ aig'.G[i]? = SensorState'.G[i]? := by
  obtain ⟨aig', haig', hbits⟩ := boucle_mots aig (by norm_num : 11 < 12) (by norm_num) lus data
  obtain ⟨S', hS', hbits'⟩ := boucle_mots SensorState (by norm_num : 12 < 13) (by norm_num) lus data
  refine ⟨aig', S', haig', hS', fun i h1 h11 => ?_⟩
  obtain ⟨hD, hG⟩ := hbits i h1 h11
  obtain ⟨hD', hG'⟩ := hbits' i h1 (by omega)
  exact ⟨hD.trans hD'.symm, hG.trans hG'.symm⟩

/-- The nodes agree on the sequences without a word, and on no other. -/
theorem decodeurs_accordes_iff (aig : Tableaux 12) (SensorState : Tableaux 13)
    (mots : List (BitVec 32)) : DecodeursAccordes aig SensorState mots ↔ mots = [] := by
  constructor
  · intro h
    cases mots with
    | nil => rfl
    | cons data mots =>
      obtain ⟨aig', -, haig, -⟩ := h [] data ⟨mots, rfl⟩
      rw [List.nil_append, List.foldlM_cons, switchSensorCallback_hors] at haig
      cases haig
  · rintro rfl lus data h
    exact absurd (List.prefix_nil.1 h) (by simp)

/-- The word without a sensor. -/
theorem decodeurs_hors :
    ¬ ∀ aig SensorState mots, DecodeursAccordes aig SensorState mots := by
  intro h
  obtain ⟨aig', -, haig, -⟩ :=
    h ⟨Vector.replicate 12 false, Vector.replicate 12 false⟩
      ⟨Vector.replicate 13 false, Vector.replicate 13 false⟩ [0#32] [] 0#32 (List.prefix_refl _)
  rw [List.nil_append, List.foldlM_cons, switchSensorCallback_hors] at haig
  cases haig

end Decodeurs

end Aiguillages
