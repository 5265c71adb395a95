import Cellule.Checker.Correction
import Cellule.CommandeLocale.LogManager
import Cellule.Robots.Pile

/-! # Reading back what the log manager writes

The writer of the log is in C++ and its reader in Python. The log manager keeps the base and three
cubes of a stack that is evacuated, whatever `NB_CUBE` and `MAX_TACHES` are: a fourth task is lost.
-/

namespace Checker

open Python CommandeLocale.LogManager
open Robots (nbCube)

/-! ## The fields written -/

theorem isDigit_of_mem_toDigits {n : ℕ} {c : Char} (h : c ∈ Nat.toDigits 10 n) : c.isDigit :=
  Nat.isDigit_of_mem_toDigits (by omega) (by omega) h

theorem isDigit_digitChar {n : ℕ} (h : n < 10) : (Nat.digitChar n).isDigit := by
  apply isDigit_of_mem_toDigits (n := n)
  rw [Nat.toDigits_of_lt_base h]
  simp

theorem entier_natCast (n : ℕ) : entier n = Nat.toDigits 10 n := by
  unfold entier
  rw [if_neg (by omega)]
  simp

/-- A code of two digits. -/
theorem entier_code {a b : ℤ} (ha₁ : 1 ≤ a) (ha₂ : a ≤ 9) (hb₁ : 0 ≤ b) (hb₂ : b ≤ 9) :
    entier (10 * a + b) = [Nat.digitChar a.toNat, Nat.digitChar b.toNat] := by
  lift a to ℕ using by omega
  lift b to ℕ using hb₁
  have hcode : (10 * a + b : ℤ) = ((10 * a + b : ℕ) : ℤ) := by push_cast; rfl
  have ha₁ : 0 < a := by omega
  have ha₂ : a < 10 := by omega
  have hb₂ : b < 10 := by omega
  rw [hcode, entier_natCast, ← Nat.toDigits_append_toDigits (by omega) ha₁ hb₂,
    Nat.toDigits_of_lt_base ha₂, Nat.toDigits_of_lt_base hb₂]
  rfl

/-- The digits of a code. -/
theorem chiffre_code {a b : ℤ} (ha₁ : 1 ≤ a) (ha₂ : a ≤ 9) (hb₁ : 0 ≤ b) (hb₂ : b ≤ 9) :
    chiffre (entier (10 * a + b)) 0 = .ok a ∧ chiffre (entier (10 * a + b)) 1 = .ok b := by
  rw [entier_code ha₁ ha₂ hb₁ hb₂]
  have ha : int [Nat.digitChar a.toNat] = .ok a := by
    rw [int_digitChar (by omega), Int.toNat_of_nonneg (by omega)]
  have hb : int [Nat.digitChar b.toNat] = .ok b := by
    rw [int_digitChar (by omega), Int.toNat_of_nonneg (by omega)]
  exact ⟨ha, hb⟩

/-- A time as it is written. -/
def tempsEcrit (t : ℚ) : ℚ := centiemes t / 100

theorem centiemes_nonneg {t : ℚ} (ht : 0 ≤ t) : 0 ≤ centiemes t := by
  have hfloor : 0 ≤ ⌊100 * t⌋ := Int.floor_nonneg.2 (by positivity)
  unfold centiemes
  dsimp only
  split_ifs <;> omega

/-- The time of a line, without the end of the line, is digits, a point and two digits. -/
theorem fixe_eq {t : ℚ} (ht : 0 ≤ t) : ∃ a b : Str, fixe t = a ++ '.' :: b ∧ a ≠ [] ∧ b ≠ [] ∧
    (∀ c ∈ a, c.isDigit) ∧ (∀ c ∈ b, c.isDigit) ∧
    (Nat.ofDigitChars 10 a 0 : ℚ) + (Nat.ofDigitChars 10 b 0 : ℚ) / 10 ^ b.length = tempsEcrit t := by
  have hc := centiemes_nonneg ht
  unfold fixe tempsEcrit
  rw [if_neg (by linarith)]
  generalize centiemes t = n at hc
  lift n to ℕ using hc
  have hd₁ : n / 10 % 10 < 10 := Nat.mod_lt _ (by omega)
  have hd₂ : n % 10 < 10 := Nat.mod_lt _ (by omega)
  refine ⟨Nat.toDigits 10 (n / 100), [Nat.digitChar (n / 10 % 10), Nat.digitChar (n % 10)], rfl,
    Nat.toDigits_ne_nil, by simp, fun c hc => isDigit_of_mem_toDigits hc, ?_, ?_⟩
  · simp only [List.forall_mem_cons]
    exact ⟨isDigit_digitChar hd₁, isDigit_digitChar hd₂, by simp⟩
  · rw [Nat.ofDigitChars_ten_toDigits, Nat.ofDigitChars_cons_digitChar_of_lt_ten hd₁,
      Nat.ofDigitChars_cons_digitChar_of_lt_ten hd₂, Nat.ofDigitChars_nil]
    have hn : (n : ℚ) = 100 * (n / 100 : ℕ) + (10 * (10 * 0 + n / 10 % 10) + n % 10 : ℕ) := by
      exact_mod_cast (by omega : n = 100 * (n / 100) + (10 * (10 * 0 + n / 10 % 10) + n % 10))
    rw [Int.cast_natCast, hn]
    simp only [List.length_cons, List.length_nil]
    ring

/-- The field of the time, and what `float` reads in it. -/
theorem champTemps {t : ℚ} (ht : 0 ≤ t) :
    (∀ c ∈ fixe t, c.isDigit ∨ c = '.') ∧ strip '\n' (fixe t ++ ['\n']) = fixe t ∧
      (float (fixe t) : Except Exception ℚ) = .ok (tempsEcrit t) := by
  obtain ⟨a, b, hfixe, ha₀, hb₀, ha, hb, hval⟩ := fixe_eq ht
  have hall : ∀ c ∈ fixe t, c.isDigit ∨ c = '.' := by
    rw [hfixe]
    intro c hc
    rcases List.mem_append.1 hc with hc | hc
    · exact .inl (ha c hc)
    · rcases List.mem_cons.1 hc with rfl | hc
      · exact .inr rfl
      · exact .inl (hb c hc)
  refine ⟨hall, ?_, ?_⟩
  · refine stripBy_snoc (by simp) (by simp [hfixe]) ?_
    intro c hc
    rcases hall c hc with hd | rfl
    · simpa using ne_of_isDigit hd rfl
    · rfl
  · rw [hfixe, float_point ha hb ha₀ hb₀, hval]

/-! ## Events -/

/-- What happens in the cell and is written with its data. A task is a post and a type. -/
inductive Evenement
  | apparition (p : ℤ)
  | tacheFinie (p poste duree : ℤ)
  | evacuation (p : ℤ) (taches : List (ℤ × ℤ))

namespace Evenement

/-- The events of the cell: at most `NB_CUBE - 1` tasks on a product, of type 2 or 3. -/
def Valide : Evenement → Prop
  | apparition p => 1 ≤ p ∧ p ≤ 6
  | tacheFinie p poste duree => (1 ≤ p ∧ p ≤ 6) ∧ (1 ≤ poste ∧ poste ≤ 8) ∧ 0 ≤ duree
  | evacuation p taches => (1 ≤ p ∧ p ≤ 6) ∧ taches.length ≤ nbCube - 1 ∧
      ∀ x ∈ taches, (1 ≤ x.1 ∧ x.1 ≤ 8) ∧ (x.2 = 2 ∨ x.2 = 3)

/-- The tasks on the product that leaves. -/
def taches : Evenement → List (ℤ × ℤ)
  | evacuation _ taches => taches
  | _ => []

/-- The code of a task cube. -/
def code (x : ℤ × ℤ) : ℤ := 10 * x.1 + x.2

/-- The stack of the product that leaves, as `Evacuer` reads it. -/
def pile (p : ℤ) (taches : List (ℤ × ℤ)) : Robots.Pile :=
  Robots.Pile.ofList (code (p, 4) :: taches.map code)

/-- The callback that writes the event. -/
def callback : Evenement → Code Unit
  | apparition p => newProductCallback (code (p, 4))
  | tacheFinie p poste duree => tachefinieCallback poste (code (p, 4)) duree
  | evacuation p taches => produitEvacCallback (pile p taches).toList

/-- The event is found back in a line that the script reads. -/
def Retrouve (c : Config ℚ) (j : Journal ℚ) (t : ℚ) (l : Str) : Evenement → Prop
  | apparition p => ∃ j', Journal.lireLigne c j l = .ok j' ∧
      j'.produitEntree = j.produitEntree ++ [(p, tempsEcrit t)]
  | tacheFinie p poste duree => ∃ j', Journal.lireLigne c j l = .ok j' ∧
      j'.verifConfigLog = j.verifConfigLog ++ [(p, poste, (duree : ℚ))]
  | evacuation p taches => identifiant l = "Sortie".toList ∧
      ∃ s, j.analyserSortie (champs l) = .ok s ∧ s.P = p ∧ s.pType = 4 ∧ s.time = tempsEcrit t ∧
        s.D = taches ++ List.replicate (maxTaches - taches.length) (0, 0)

end Evenement

open Evenement

theorem not_mem_entier (n : ℤ) {c : Char} (hc : c.isDigit = false) (hm : c ≠ '-') :
    c ∉ entier n := by
  intro hmem
  rcases List.mem_append.1 hmem with hmem | hmem
  · split_ifs at hmem
    · exact hm (List.mem_singleton.1 hmem)
    · cases hmem
  · exact ne_of_isDigit (isDigit_of_mem_toDigits hmem) hc rfl

theorem not_mem_fixe (t : ℚ) {c : Char} (hc : c.isDigit = false) (hp : c ≠ '.') (hm : c ≠ '-') :
    c ∉ fixe t := by
  have hchiffre : ∀ n : ℕ, c ≠ Nat.digitChar (n % 10) := fun n h =>
    ne_of_isDigit (isDigit_digitChar (Nat.mod_lt n (by omega))) hc h.symm
  unfold fixe
  simp only [List.mem_append, List.mem_cons, List.not_mem_nil, or_false, not_or]
  refine ⟨⟨?_, fun h => ne_of_isDigit (isDigit_of_mem_toDigits h) hc rfl⟩, hp, hchiffre _, hchiffre _⟩
  split_ifs
  · simpa using hm
  · simp

/-- Fields joined by colons, after spaces are taken away. -/
theorem champs_of_remove {line x : Str} {l : List Str}
    (hline : remove ' ' line = x ++ l.flatMap (':' :: ·)) (hx : ':' ∉ x) (hl : ∀ s ∈ l, ':' ∉ s) :
    champs line = x :: l := by
  unfold champs
  rw [hline, split_flatMap hx hl]

theorem not_mem_finLigne {s : Str} {c : Char} (h : c ∉ s) (hc : c ≠ '\n') : c ∉ s ++ ['\n'] := by
  simp [h, hc]

/-! ## A product that comes in -/

theorem champs_nouveauProduit (n : ℤ) (t : ℚ) :
    champs (ligneNouveauProduit n t) =
      ["NouveauProduit".toList, entier n, fixe t ++ ['\n']] := by
  apply champs_of_remove
  · have h₁ : remove ' ' "NouveauProduit: ".toList = "NouveauProduit".toList ++ [':'] := by decide
    have h₂ : remove ' ' " :".toList = [':'] := by decide
    have h₃ : remove ' ' ['\n'] = ['\n'] := by decide
    unfold ligneNouveauProduit
    simp only [remove_append, h₁, h₂, h₃, remove_of_not_mem (not_mem_entier n (c := ' ') rfl (by decide)),
      remove_of_not_mem (not_mem_fixe t (c := ' ') rfl (by decide) (by decide)), List.flatMap_cons,
      List.flatMap_nil, List.append_assoc, List.append_nil, List.cons_append, List.nil_append]
  · decide
  · simp only [List.forall_mem_cons]
    exact ⟨not_mem_entier n rfl (by decide),
      not_mem_finLigne (not_mem_fixe t rfl (by decide) (by decide)) (by decide), by simp⟩

theorem identifiant_nouveauProduit (n : ℤ) (t : ℚ) :
    identifiant (ligneNouveauProduit n t) = "NouveauProduit".toList := by
  unfold identifiant
  rw [champs_nouveauProduit]
  rfl

/-- The digits of the product are those of its number. -/
theorem chiffres_nouveauProduit (n : ℤ) (t : ℚ) :
    produitDe (ligneNouveauProduit n t) = chiffre (entier n) 0 ∧
      typeDe (ligneNouveauProduit n t) = chiffre (entier n) 1 := by
  unfold produitDe typeDe
  rw [champs_nouveauProduit, item_cons_one, ok_bind, ok_bind]
  exact ⟨rfl, rfl⟩

theorem retrouve_apparition {c : Config ℚ} {j : Journal ℚ} {lus : List Str} (hj : Accord c lus j)
    (hc : c.nbProduit.length = 6) {p : ℤ} (hp₁ : 1 ≤ p) (hp₂ : p ≤ 6) {t : ℚ} (ht : 0 ≤ t) :
    Retrouve c j t (ligneNouveauProduit (code (p, 4)) t) (.apparition p) := by
  have hID := identifiant_nouveauProduit (code (p, 4)) t
  obtain ⟨hproduit, htypeDe⟩ := chiffres_nouveauProduit (code (p, 4)) t
  obtain ⟨hP, htype⟩ := chiffre_code (a := p) (b := 4) hp₁ (by omega) (by omega) (by omega)
  obtain ⟨-, hstrip, htemps⟩ := champTemps ht
  have hnew := hj.nouveaux p hp₁ hp₂
  have hlt := (List.getElem?_eq_some_iff.1 hnew).1
  obtain ⟨attendus, hatt⟩ : ∃ attendus, c.nbProduit[(p - 1).toNat]? = some attendus :=
    ⟨_, List.getElem?_eq_getElem (by omega)⟩
  have htime : (item (champs (ligneNouveauProduit (code (p, 4)) t)) 2 >>= fun champ =>
      float (strip '\n' champ)) = .ok (tempsEcrit t) := by
    rw [champs_nouveauProduit, item_cons_two, ok_bind, hstrip, htemps]
  have hlu := Journal.lireNouveauProduit_eq_ok.2 ⟨p, 4, _, attendus, tempsEcrit t, _,
    hproduit.trans hP, htypeDe.trans htype, htime, item_of_getElem? (by omega) hnew,
      setItem_of_lt (by omega) hlt,
    item_of_getElem? (by omega) hatt, rfl⟩
  refine ⟨_, (Journal.lireLigne_nouveauProduit hID).trans hlu, ?_⟩
  exact congrArg Journal.produitEntree (Journal.verifierApparition_controle _ _ _ _ _ _).eq

/-! ## A task that ends -/

theorem champs_tempoT (n q d : ℤ) :
    champs (ligneTempoT n q d) =
      ["TempoT".toList, entier n, entier q, entier d ++ ['\n']] := by
  have hespace : ∀ n, remove ' ' (entier n) = entier n :=
    fun n => remove_of_not_mem (not_mem_entier n rfl (by decide))
  have hcolon : ∀ n, ':' ∉ entier n := fun n => not_mem_entier n rfl (by decide)
  apply champs_of_remove
  · have h₁ : remove ' ' "TempoT".toList = "TempoT".toList := by decide
    have h₂ : remove ' ' ": ".toList = [':'] := by decide
    have h₃ : remove ' ' ['\n'] = ['\n'] := by decide
    unfold ligneTempoT
    simp only [remove_append, h₁, h₂, h₃, hespace, List.flatMap_cons, List.flatMap_nil,
      List.append_assoc, List.append_nil, List.cons_append, List.nil_append]
  · decide
  · simp only [List.forall_mem_cons]
    exact ⟨hcolon n, hcolon q, not_mem_finLigne (hcolon d) (by decide), by simp⟩

theorem identifiant_tempoT (n q d : ℤ) : identifiant (ligneTempoT n q d) = "TempoT".toList := by
  unfold identifiant
  rw [champs_tempoT]
  rfl

theorem retrouve_tacheFinie (c : Config ℚ) (j : Journal ℚ) {p q d : ℤ} (hp₁ : 1 ≤ p) (hp₂ : p ≤ 6)
    (hq : 0 ≤ q) (hd : 0 ≤ d) (t : ℚ) :
    Retrouve c j t (ligneTempoT (code (p, 4)) q d) (.tacheFinie p q d) := by
  have hcode := entier_code (a := p) (b := 4) hp₁ (by omega) (by omega) (by omega)
  have hstrip : strip '\n' [Nat.digitChar p.toNat] = [Nat.digitChar p.toNat] := by
    apply stripBy_eq_self
    · simp
    · simp
  -- only the first digit of the product is read
  have hint : int [Nat.digitChar p.toNat] = .ok p := by
    rw [int_digitChar (by omega), Int.toNat_of_nonneg (by omega)]
  lift q to ℕ using hq
  lift d to ℕ using hd
  unfold Retrouve
  dsimp only
  rw [Journal.lireLigne_tempoT (identifiant_tempoT _ _ _), champs_tempoT]
  unfold Journal.lireTempoT
  simp only [item_cons_one, item_cons_two, item_cons_three, ok_bind, code, hcode, item_cons_zero,
    hstrip, hint, entier_natCast, int_toDigits, float_toDigits]
  exact ⟨_, rfl, by simp⟩

/-! ## A product that leaves -/

theorem champs_sortie (couleur : List ℤ) (t : ℚ) :
    champs (ligneSortie couleur t) =
      "Sortie".toList :: (couleur.map entier ++ [fixe t ++ ['\n']]) := by
  apply champs_of_remove
  · have h₁ : remove ' ' "Sortie".toList = "Sortie".toList := by decide
    have h₂ : remove ' ' " :".toList = [':'] := by decide
    have h₃ : remove ' ' ['\n'] = ['\n'] := by decide
    have hcouleur : remove ' ' (couleur.flatMap fun c => " :".toList ++ entier c) =
        (couleur.map entier).flatMap (':' :: ·) := by
      induction couleur with
      | nil => rfl
      | cons n couleur ih =>
        rw [List.flatMap_cons, remove_append, remove_append, h₂,
          remove_of_not_mem (not_mem_entier n rfl (by decide)), ih]
        rfl
    unfold ligneSortie
    simp only [remove_append, h₁, h₂, h₃, hcouleur,
      remove_of_not_mem (not_mem_fixe t (c := ' ') rfl (by decide) (by decide)), List.flatMap_append,
      List.flatMap_cons, List.flatMap_nil, List.append_assoc, List.append_nil, List.cons_append,
      List.nil_append]
  · decide
  · intro s hs
    rcases List.mem_append.1 hs with hs | hs
    · obtain ⟨n, -, rfl⟩ := List.mem_map.1 hs
      exact not_mem_entier n rfl (by decide)
    · rw [List.mem_singleton.1 hs]
      exact not_mem_finLigne (not_mem_fixe t rfl (by decide) (by decide)) (by decide)

theorem identifiant_sortie (couleur : List ℤ) (t : ℚ) :
    identifiant (ligneSortie couleur t) = "Sortie".toList := by
  unfold identifiant
  rw [champs_sortie]
  rfl

/-- The digits of the product are those of its base. -/
theorem chiffres_sortie (n : ℤ) (couleur : List ℤ) (t : ℚ) :
    produitDe (ligneSortie (n :: couleur) t) = chiffre (entier n) 0 ∧
      typeDe (ligneSortie (n :: couleur) t) = chiffre (entier n) 1 := by
  unfold produitDe typeDe
  rw [champs_sortie, List.map_cons, List.cons_append, item_cons_one, ok_bind, ok_bind]
  exact ⟨rfl, rfl⟩

/-- A task, or a cube that is not there. -/
def EstCube (x : ℤ × ℤ) : Prop := x = (0, 0) ∨ (1 ≤ x.1 ∧ x.1 ≤ 9) ∧ 0 ≤ x.2 ∧ x.2 ≤ 9

/-- The number and the type read in the field of a cube. -/
theorem chiffres_cube {x : ℤ × ℤ} (hx : EstCube x) : chiffre (entier (code x)) 0 = .ok x.1 ∧
    chiffreType x.1 (entier (code x)) 0 = .ok x.2 := by
  unfold chiffreType
  rcases hx with rfl | ⟨⟨h₁, h₂⟩, h₃, h₄⟩
  · decide
  · rw [if_pos (by omega)]
    exact chiffre_code h₁ h₂ h₃ h₄

/-- `D` is filled from the fields of cubes. -/
theorem remplirD_codes {l : List (ℤ × ℤ)} {n : ℕ} (hn : l.length ≤ n) (hl : ∀ x ∈ l, EstCube x) :
    remplirD (List.replicate n (0, 0)) (l.map fun x => entier (code x)) =
      .ok (l ++ List.replicate (n - l.length) (0, 0)) := by
  induction l generalizing n with
  | nil =>
    cases n <;> rfl
  | cons x l ih =>
    cases n with
    | zero => simp at hn
    | succ n =>
      simp only [List.forall_mem_cons] at hl
      obtain ⟨h₁, h₂⟩ := chiffres_cube hl.1
      rw [List.replicate_succ, List.map_cons, remplirD]
      simp only [h₁, h₂, ok_bind, ih (by simpa using hn) hl.2]
      simp [pure, Except.pure]

/-- The first cubes above the base. -/
def troisCubes (taches : List (ℤ × ℤ)) : List (ℤ × ℤ) :=
  [taches.getD 0 (0, 0), taches.getD 1 (0, 0), taches.getD 2 (0, 0)]

/-- The colours that the log manager keeps. -/
theorem take_pile (p : ℤ) (taches : List (ℤ × ℤ)) :
    (pile p taches).toList.take 4 = (((p, 4) :: troisCubes taches).map code) := by
  have hgetD : ∀ i, (taches.map code).getD i 0 = code (taches.getD i (0, 0)) := by
    intro i
    simp only [List.getD_eq_getElem?_getD, List.getElem?_map]
    cases taches[i]? <;> rfl
  unfold troisCubes
  simp only [List.map_cons, List.map_nil, ← hgetD]
  rfl

/-- The fields of the line of a product that leaves. -/
theorem champs_evacuation (p : ℤ) (l : List (ℤ × ℤ)) (t : ℚ) :
    champs (ligneSortie (((p, 4) :: l).map code) t) =
      "Sortie".toList :: entier (code (p, 4)) ::
        ((l.map fun x => entier (code x)) ++ [fixe t ++ ['\n']]) := by
  rw [champs_sortie, List.map_map, List.map_cons]
  rfl

theorem champsTaches_evacuation (p : ℤ) (l : List (ℤ × ℤ)) (t : ℚ) :
    champsTaches (champs (ligneSortie (((p, 4) :: l).map code) t)) =
      l.map fun x => entier (code x) := by
  rw [champs_evacuation]
  unfold champsTaches
  simp

/-- The last field is the time. -/
theorem dernier_evacuation (p : ℤ) (l : List (ℤ × ℤ)) (t : ℚ) :
    item (champs (ligneSortie (((p, 4) :: l).map code) t))
      ((champs (ligneSortie (((p, 4) :: l).map code) t)).length - 1) = .ok (fixe t ++ ['\n']) := by
  rw [champs_evacuation]
  exact item_length_sub_one "Sortie".toList
    (entier (code (p, 4)) :: l.map fun x => entier (code x)) (fixe t ++ ['\n'])

/-- What the script reads on the line of an evacuation. -/
theorem analyserSortie_ligne {j : Journal ℚ} (hD : j.D = Journal.videD) (hDList : j.DList = [])
    {p : ℤ} (hp₁ : 1 ≤ p) (hp₂ : p ≤ 6) {l : List (ℤ × ℤ)} (hl : ∀ x ∈ l, EstCube x)
    (hlen : l.length ≤ maxTaches) {t : ℚ} (ht : 0 ≤ t) :
    identifiant (ligneSortie (((p, 4) :: l).map code) t) = "Sortie".toList ∧
      j.analyserSortie (champs (ligneSortie (((p, 4) :: l).map code) t)) =
        .ok { time := tempsEcrit t, P := p, pType := 4,
              D := l ++ List.replicate (maxTaches - l.length) (0, 0),
              DList := l.map fun x => entier (code x) } := by
  have hcube : ∀ x ∈ (p, 4) :: l, EstCube x := by
    rintro x hx
    rcases List.mem_cons.1 hx with rfl | hx
    · exact .inr ⟨⟨hp₁, by dsimp only; omega⟩, by norm_num, by norm_num⟩
    · exact hl x hx
  have hfields := champs_evacuation p l t
  -- the product is the first cube, and the fields after it are the tasks
  have hun : item (champs (ligneSortie (((p, 4) :: l).map code) t)) 1 =
      .ok (entier (code (p, 4))) := by
    rw [hfields]
    rfl
  obtain ⟨hP, htype⟩ := chiffres_cube (hcube (p, 4) (by simp))
  obtain ⟨-, hstrip, htemps⟩ := champTemps ht
  refine ⟨identifiant_sortie _ t, ?_⟩
  unfold Journal.analyserSortie
  rw [hun, dernier_evacuation, champsTaches_evacuation, hDList, hD]
  simp only [ok_bind, hP, htype, hstrip, htemps, List.nil_append]
  unfold Journal.videD
  rw [remplirD_codes hlen hl]
  rfl

/-! ## All events -/

theorem getD_valide {taches : List (ℤ × ℤ)}
    (h : ∀ x ∈ taches, (1 ≤ x.1 ∧ x.1 ≤ 8) ∧ (x.2 = 2 ∨ x.2 = 3)) (i : ℕ) :
    EstCube (taches.getD i (0, 0)) := by
  rw [List.getD_eq_getElem?_getD]
  cases hx : taches[i]? with
  | none => exact .inl rfl
  | some x =>
    obtain ⟨⟨h₁, h₂⟩, h₃⟩ := h x (List.mem_of_getElem? hx)
    show EstCube x
    exact .inr ⟨by omega, by omega, by omega⟩

/-- The three cubes that are kept are all the tasks exactly when there are at most three. -/
theorem troisCubes_eq_iff {taches : List (ℤ × ℤ)} (hlen : taches.length ≤ maxTaches)
    (h : ∀ x ∈ taches, (1 ≤ x.1 ∧ x.1 ≤ 8) ∧ (x.2 = 2 ∨ x.2 = 3)) :
    troisCubes taches ++ List.replicate (maxTaches - 3) (0, 0) =
      taches ++ List.replicate (maxTaches - taches.length) (0, 0) ↔ taches.length ≤ 3 := by
  unfold troisCubes
  match taches, hlen, h with
  | [], _, _ => exact ⟨fun _ => by simp, fun _ => rfl⟩
  | [a], _, _ => exact ⟨fun _ => by simp, fun _ => rfl⟩
  | [a, b], _, _ => exact ⟨fun _ => by simp, fun _ => rfl⟩
  | [a, b, c], _, _ => exact ⟨fun _ => by simp, fun _ => rfl⟩
  | a :: b :: c :: d :: reste, _, h =>
    refine ⟨fun heq => ?_, fun hle => absurd hle (by simp)⟩
    -- the fourth task is read as a cube that is not there
    have hd : (0, 0) = d := by
      have h₃ := congrArg (fun l : List (ℤ × ℤ) => l[3]?) heq
      simpa [maxTaches] using h₃
    have hpos := (h d (by simp)).1.1
    rw [← hd] at hpos
    exact absurd hpos (by decide)

/-- **Lines read back**, for a line that follows any lines read before without an empty evacuation:
the script finds the event again exactly when there are at most three tasks to write. -/
theorem retrouve_iff {contenu lus : List Str} {c : Config ℚ} {j : Journal ℚ}
    (hconfig : Config.initial.lireLignes contenu = .ok c) (herreur : c.erreurConfig = 0)
    (hlus : ∀ l ∈ lus, LigneConforme l) (hlog : Journal.lireLog c .initial lus = .ok j)
    {e : Evenement} (he : e.Valide) {t : ℚ} (ht : 0 ≤ t) :
    (∃ l, lignesEcrites e.callback t = .ok [l] ∧ Retrouve c j t l e) ↔ e.taches.length ≤ 3 := by
  have hj := (accord_initial c).lireLog hlus hlog
  have hc : c.nbProduit.length = 6 := Config.length_nbProduit hconfig herreur
  cases e with
  | apparition p =>
    refine ⟨fun _ => by simp [taches], fun _ => ⟨_, rfl, retrouve_apparition hj hc he.1 he.2 ht⟩⟩
  | tacheFinie p poste duree =>
    obtain ⟨⟨hp₁, hp₂⟩, ⟨hq, -⟩, hd⟩ := he
    exact ⟨fun _ => by simp [taches],
      fun _ => ⟨_, rfl, retrouve_tacheFinie c j hp₁ hp₂ (by omega) hd t⟩⟩
  | evacuation p taches =>
    obtain ⟨⟨hp₁, hp₂⟩, hlen, htaches⟩ := he
    -- the log manager keeps the base and three cubes
    have hecrit : lignesEcrites (callback (.evacuation p taches)) t =
        .ok [ligneSortie (((p, 4) :: troisCubes taches).map code) t] := by
      rw [← take_pile]
      rfl
    have hcubes : ∀ x ∈ troisCubes taches, EstCube x := by
      unfold troisCubes
      simp only [List.forall_mem_cons]
      exact ⟨getD_valide htaches 0, getD_valide htaches 1, getD_valide htaches 2, by simp⟩
    obtain ⟨hID, hlu⟩ := analyserSortie_ligne hj.D_vide hj.DList_vide hp₁ hp₂ hcubes
      (Nat.le_of_ble_eq_true rfl) ht
    rw [show Evenement.taches (.evacuation p taches) = taches from rfl,
      ← troisCubes_eq_iff hlen htaches]
    constructor
    · rintro ⟨l, hl, -, s, hs, -, -, -, hD⟩
      rw [hecrit] at hl
      cases hl
      rw [hlu] at hs
      cases hs
      exact hD
    · intro heq
      exact ⟨_, hecrit, hID, _, hlu, rfl, rfl, rfl, heq⟩

/-- The product 1 leaves after four tasks. -/
def quatreTaches : Evenement := .evacuation 1 [(1, 3), (2, 3), (3, 3), (4, 3)]

/-- An evacuation after three tasks is found again. -/
theorem retrouve_iff_troisTaches :
    ∃ l, lignesEcrites (callback (.evacuation 2 [(1, 3), (4, 3), (5, 2)])) 10 = .ok [l] ∧
      Retrouve Config.initial Journal.initial 10 l (.evacuation 2 [(1, 3), (4, 3), (5, 2)]) := by
  have hconfig : Config.initial.lireLignes [] = .ok (Config.initial : Config ℚ) := rfl
  have hlus : ∀ l ∈ ([] : List Str), LigneConforme l := by simp
  have he : (evacuation 2 [(1, 3), (4, 3), (5, 2)]).Valide := by simp [Valide, nbCube]
  exact (retrouve_iff hconfig rfl hlus rfl he (by norm_num)).2 (by decide)

/-- **A fourth task is not in the log.** -/
theorem quatreTaches_perdue : quatreTaches.Valide ∧
    ¬∃ l, lignesEcrites quatreTaches.callback 15 = .ok [l] ∧
      Retrouve Config.initial Journal.initial 15 l quatreTaches := by
  refine ⟨by simp [quatreTaches, Valide, nbCube], ?_⟩
  have hD : (lignesEcrites quatreTaches.callback 15).map (fun ls => ls.map fun l =>
      ((Journal.initial : Journal ℚ).analyserSortie (champs l)).map (·.D)) =
      .ok [.ok [(1, 3), (2, 3), (3, 3), (0, 0), (0, 0)]] := by decide +kernel
  rintro ⟨l, hl, -, s, hs, -, -, -, hs'⟩
  rw [hl] at hD
  simp only [Except.map, List.map_cons, List.map_nil, Except.ok.injEq, List.cons.injEq, and_true,
    hs] at hD
  rw [hs'] at hD
  exact absurd hD (by decide)

end Checker
