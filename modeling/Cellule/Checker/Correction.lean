import Cellule.Checker.Declarations
import Cellule.Checker.Journal

/-! # Soundness of the verdict

A log that the script accepts has the ordered number of each product, coming in and going out, each
one with its ordered tasks. The tests of a line are switched off once more products left than were
ordered; the final counts then fail.
-/

namespace Checker

open Python

variable {F : Type}

/-! ## Checks -/

/-- `j'` is `j` after checks: lines may be printed, the log may fail, and if it does not then `P`
holds. -/
structure Controle (P : Prop) (j j' : Journal F) : Prop where
  eq : j' = { j with test := j'.test, affichage := j'.affichage }
  test : j'.test = 1 → j.test = 1 ∧ P

namespace Controle

variable {P Q : Prop} {j j' j'' : Journal F}

theorem refl (hP : P) (j : Journal F) : Controle P j j := ⟨rfl, fun h => ⟨h, hP⟩⟩

theorem trans (h₁ : Controle P j j') (h₂ : Controle Q j' j'') : Controle (P ∧ Q) j j'' where
  eq := by rw [h₂.eq, h₁.eq]
  test h := by
    obtain ⟨h', hQ⟩ := h₂.test h
    obtain ⟨h, hP⟩ := h₁.test h'
    exact ⟨h, hP, hQ⟩

theorem mono (h : Controle P j j') (hPQ : P → Q) : Controle Q j j' :=
  ⟨h.eq, fun ht => ⟨(h.test ht).1, hPQ (h.test ht).2⟩⟩

/-- An error fails the log. -/
theorem signaler (j : Journal F) (m : Message F) : Controle P j (j.signaler m) :=
  ⟨rfl, fun h => absurd h zero_ne_one⟩

theorem afficher (j : Journal F) (m : Message F) : Controle True j (j.afficher m) :=
  ⟨rfl, fun h => ⟨h, trivial⟩⟩

/-- An error found exactly when `P` does not hold checks `P`. -/
theorem ite_signaler [Decidable P] (j : Journal F) (m : Message F) :
    Controle (¬P) j (if P then j.signaler m else j) := by
  by_cases h : P
  · rw [if_pos h]
    exact signaler j m
  · rw [if_neg h]
    exact refl h j

/-- Checks one after the other. -/
theorem foldl {α : Type} {f : Journal F → α → Journal F} {P : α → Prop} (l : List α)
    (hf : ∀ j, ∀ a ∈ l, Controle (P a) j (f j a)) (j : Journal F) :
    Controle (∀ a ∈ l, P a) j (l.foldl f j) := by
  induction l generalizing j with
  | nil => exact refl (by simp) j
  | cons a l ih =>
    have hsuite := ih (fun j b hb => hf j b (by simp [hb])) (f j a)
    exact ((hf j a (by simp)).trans hsuite).mono (by simp)

end Controle

namespace Journal

/-- Checks that find nothing one by one find nothing. -/
theorem foldl_eq_self {α : Type} {f : Journal F → α → Journal F} {l : List α} (j : Journal F)
    (h : ∀ j, ∀ x ∈ l, f j x = j) : l.foldl f j = j := by
  induction l with
  | nil => rfl
  | cons x l ih =>
    rw [List.foldl_cons, h j x List.mem_cons_self, ih fun j y hy => h j y (List.mem_cons_of_mem x hy)]

theorem afficherTypes_controle (j : Journal F) (n : ℕ) (sortis P : ℤ) (D : List (ℤ × ℤ)) :
    Controle True j (j.afficherTypes n sortis P D) := by
  unfold afficherTypes
  refine (Controle.foldl (P := fun _ => True) _ ?_ j).mono fun _ => trivial
  intro j x hx
  split_ifs
  · exact .afficher j _
  · exact .afficher j _
  · exact .refl trivial j

theorem verifierApparition_controle (j : Journal F) (attendus nouveaux : ℤ) (time : F)
    (P pType : ℤ) :
    Controle (attendus ≠ 0 → pType = 4) j (j.verifierApparition attendus nouveaux time P pType) := by
  unfold verifierApparition
  exact (Controle.ite_signaler j _).mono fun h hne => by_contra fun h4 => h ⟨h4, hne⟩

theorem verifierSortie_controle (j : Journal F) (attendus sortis : ℤ) (attendu lu : List ℤ)
    (s : Sortie F) :
    Controle (attendus ≠ 0 → sortis ≤ attendus → lu = attendu ∧ s.pType = 4) j
      (j.verifierSortie attendus sortis attendu lu s) := by
  unfold verifierSortie
  by_cases h : attendus ≠ 0 ∧ sortis ≤ attendus
  · rw [if_pos h]
    have hlu := Controle.ite_signaler (P := lu ≠ attendu) j
      (.enchainementTaches sortis s.P attendu.tail lu.tail)
    refine (hlu.trans ((Controle.ite_signaler (P := s.pType ≠ 4) _ _).trans
      (afficherTypes_controle _ _ _ _ _))).mono ?_
    rintro ⟨hlu, htype, -⟩ - -
    exact ⟨not_not.1 hlu, not_not.1 htype⟩
  · rw [if_neg h]
    exact .refl (fun h₁ h₂ => absurd ⟨h₁, h₂⟩ h) j

theorem comparerNombres_controle (j : Journal F) (x : (ℤ × ℤ × ℤ) × ℕ) :
    Controle (x.1.1 = x.1.2.1 ∧ (x.1.1 = x.1.2.2 ∨ x.1.1 = 0)) j (j.comparerNombres x) := by
  have happarus : Controle (x.1.1 = x.1.2.1) j (j.comparerApparus x.2 x.1.1 x.1.2.1) := by
    unfold comparerApparus
    split_ifs with h₁ h₂
    · exact .signaler j _
    · exact .signaler j _
    · exact .refl (not_not.1 h₁) j
  refine happarus.trans ((Controle.ite_signaler _ _).mono ?_)
  intro h
  by_cases h₀ : x.1.1 = 0
  · exact .inr h₀
  · exact .inl (by_contra fun hne => h ⟨hne, h₀⟩)

theorem conclure_controle (c : Config F) (j : Journal F) : Controle True j (j.conclure c) := by
  unfold conclure
  split_ifs
  · refine (Controle.foldl (P := fun _ => True) _ ?_ j).mono fun _ => trivial
    intro j x hx
    unfold recapituler
    split_ifs
    · exact ((Controle.afficher j _).trans (.afficher _ _)).mono fun _ => trivial
    · exact .refl trivial j
  · exact .refl trivial j

variable [Floating F]

/-- The durations of a product that is ordered are equal, or there is nothing to compare. -/
theorem comparerDurees_controle (j : Journal F) (x : (ℤ × List F × List F) × ℕ) :
    Controle (x.1.1 ≠ 0 → ∀ y ∈ x.1.2.1.zip x.1.2.2,
      Floating.eq y.1 y.2 = true ∨ Floating.eq y.1 Floating.zero = true) j (j.comparerDurees x) := by
  unfold comparerDurees
  refine (Controle.foldl _ (fun j y _ => Controle.ite_signaler j _) j).mono ?_
  intro h hx y hy
  obtain ⟨i, hi⟩ := List.getElem?_of_mem hy
  have hcomparee := h (y, i) (List.mem_zipIdx_iff_getElem?.2 hi)
  by_contra hne
  rw [not_or, Bool.not_eq_true, Bool.not_eq_true] at hne
  exact hcomparee ⟨hne.1, hx, hne.2⟩

/-- The comparison checks the durations of the ordered products, that each of them came in and left
as often as it is ordered, and that no other came in. -/
theorem comparer_controle (c : Config F) (j : Journal F) (temps tempsLog : List (List F)) :
    Controle ((∀ x ∈ c.nbProduit.zip (temps.zip tempsLog), x.1 ≠ 0 → ∀ y ∈ x.2.1.zip x.2.2,
        Floating.eq y.1 y.2 = true ∨ Floating.eq y.1 Floating.zero = true) ∧
      ∀ x ∈ c.nbProduit.zip (j.nbProduitNew.zip j.nbProduitLog),
        x.1 = x.2.1 ∧ (x.1 = x.2.2 ∨ x.1 = 0)) j (j.comparer c temps tempsLog) := by
  unfold comparer
  have hdurees := Controle.foldl (c.nbProduit.zip (temps.zip tempsLog)).zipIdx
    (fun j x _ => comparerDurees_controle j x) j
  have hnombres := Controle.foldl (c.nbProduit.zip (j.nbProduitNew.zip j.nbProduitLog)).zipIdx
    (fun j x _ => comparerNombres_controle j x)
    ((c.nbProduit.zip (temps.zip tempsLog)).zipIdx.foldl comparerDurees j)
  have hnew := congrArg Journal.nbProduitNew hdurees.eq
  have hlog := congrArg Journal.nbProduitLog hdurees.eq
  dsimp only at hnew hlog ⊢
  rw [hnew, hlog]
  refine (hdurees.trans hnombres).mono ?_
  rintro ⟨hd, hn⟩
  constructor
  · intro x hx
    obtain ⟨i, hi⟩ := List.getElem?_of_mem hx
    exact hd (x, i) (List.mem_zipIdx_iff_getElem?.2 hi)
  · intro x hx
    obtain ⟨i, hi⟩ := List.getElem?_of_mem hx
    exact hn (x, i) (List.mem_zipIdx_iff_getElem?.2 hi)

end Journal

/-! ## What a line says -/

/-- `int(P_list[0])`, the product of a line. -/
def produitDe (line : Str) : Except Exception ℤ := do chiffre (← item (champs line) 1) 0

/-- `int(P_list[1])`, the type of the base. -/
def typeDe (line : Str) : Except Exception ℤ := do chiffre (← item (champs line) 1) 1

/-- The task digits of a `Sortie` line. -/
def tachesDe (line : Str) : Except Exception (List ℤ) :=
  (champsTaches (champs line)).mapM fun champ => chiffre champ 0

/-- The line is about the product `p`, under the given identifier. -/
def EstLigne (ID : String) (p : ℤ) (line : Str) : Prop :=
  identifiant line = ID.toList ∧ produitDe line = .ok p

instance (ID : String) (p : ℤ) (line : Str) : Decidable (EstLigne ID p line) :=
  inferInstanceAs (Decidable (_ ∧ _))

/-- How many lines are about the product `p`. -/
def nombreLignes (ID : String) (p : ℤ) (Log : List Str) : ℕ := Log.countP fun l => EstLigne ID p l

/-- The lines that report an error of the cell. -/
def identifiantsErreur : List String :=
  ["OperationPosteVide", "OperationProduitPlein", "EcrasementProduit", "PerteNavette"]

/-- The line reports an error of the cell. -/
def EstErreur (line : Str) : Prop := ∃ ID ∈ identifiantsErreur, identifiant line = ID.toList

/-- The product field of a `NouveauProduit` or `Sortie` line starts with the number of a product,
and a `Sortie` line has at most `maxTaches` task fields. -/
structure LigneConforme (line : Str) : Prop where
  produit : identifiant line = "NouveauProduit".toList ∨ identifiant line = "Sortie".toList →
    ∃ p, produitDe line = .ok p ∧ 1 ≤ p ∧ p ≤ 6
  taches : identifiant line = "Sortie".toList →
    (champsTaches (champs line)).length ≤ maxTaches

/-! ## One line of the log -/

/-- A line of product `p` that leaves with what is ordered. -/
def SortieJuste (c : Config F) (p : ℤ) (line : Str) : Prop :=
  typeDe line = .ok 4 ∧
    ∃ taches, tachesDe line = .ok taches ∧ c.production[(p - 1).toNat]? = some (p :: completer taches)

/-- What the variables hold once some lines are read. -/
structure Accord (c : Config F) (lus : List Str) (j : Journal F) : Prop where
  nouveaux : ∀ p, 1 ≤ p → p ≤ 6 →
    j.nbProduitNew[(p - 1).toNat]? = some (nombreLignes "NouveauProduit" p lus : ℤ)
  sortis : ∀ p, 1 ≤ p → p ≤ 6 →
    j.nbProduitLog[(p - 1).toNat]? = some (nombreLignes "Sortie" p lus : ℤ)
  entrees : ∀ p, 1 ≤ p → p ≤ 6 →
    j.produitEntree.countP (fun e => e.1 = p) + nombreLignes "Sortie" p lus =
      nombreLignes "NouveauProduit" p lus
  D_vide : j.D = Journal.videD
  DList_vide : j.DList = []
  erreurs : j.test = 1 → ∀ l ∈ lus, ¬EstErreur l
  bases : j.test = 1 → ∀ p, 1 ≤ p → p ≤ 6 → ∀ n : ℤ, n ≠ 0 → c.nbProduit[(p - 1).toNat]? = some n →
    ∀ l ∈ lus, EstLigne "NouveauProduit" p l → typeDe l = .ok 4
  sorties : j.test = 1 → ∀ p, 1 ≤ p → p ≤ 6 → ∀ n : ℤ, n ≠ 0 → c.nbProduit[(p - 1).toNat]? = some n →
    nombreLignes "Sortie" p lus ≤ n → ∀ l ∈ lus, EstLigne "Sortie" p l → SortieJuste c p l

theorem nombreLignes_snoc (ID : String) (p : ℤ) (lus : List Str) (line : Str) :
    nombreLignes ID p (lus ++ [line]) =
      nombreLignes ID p lus + if EstLigne ID p line then 1 else 0 := by
  unfold nombreLignes
  simp [List.countP_append, List.countP_cons]

/-- A line under another identifier is about no product. -/
theorem not_estLigne {ID : String} {line : Str} (h : identifiant line ≠ ID.toList) (p : ℤ) :
    ¬EstLigne ID p line := fun hl => h hl.1

/-- A line is about one product. -/
theorem estLigne_iff {ID : String} {line : Str} {q : ℤ} (hID : identifiant line = ID.toList)
    (hq : produitDe line = .ok q) (p : ℤ) : EstLigne ID p line ↔ q = p := by
  unfold EstLigne
  rw [hq]
  simp [hID]

/-- A line counts for its product. -/
theorem nombreLignes_snoc_de {ID : String} {line : Str} {q : ℤ} (hID : identifiant line = ID.toList)
    (hq : produitDe line = .ok q) (p : ℤ) (lus : List Str) :
    nombreLignes ID p (lus ++ [line]) = nombreLignes ID p lus + if q = p then 1 else 0 := by
  rw [nombreLignes_snoc]
  simp only [estLigne_iff hID hq p]

theorem nombreLignes_snoc_autre {ID : String} {line : Str} (h : identifiant line ≠ ID.toList)
    (p : ℤ) (lus : List Str) : nombreLignes ID p (lus ++ [line]) = nombreLignes ID p lus := by
  rw [nombreLignes_snoc, if_neg (not_estLigne h p), Nat.add_zero]

/-- A line that counts for no product and reports no error. -/
theorem Accord.neutre {c : Config F} {lus : List Str} {j j' : Journal F} {line : Str}
    (h : Accord c lus j) (hnew : identifiant line ≠ "NouveauProduit".toList)
    (hsortie : identifiant line ≠ "Sortie".toList)
    (heq : j' = { j with
      test := j'.test
      affichage := j'.affichage
      verifConfigLog := j'.verifConfigLog })
    (htest : j'.test = 1 → j.test = 1 ∧ ¬EstErreur line) : Accord c (lus ++ [line]) j' := by
  have hn := fun p => nombreLignes_snoc_autre hnew p lus
  have hs := fun p => nombreLignes_snoc_autre hsortie p lus
  rw [heq]
  refine ⟨?_, ?_, ?_, h.D_vide, h.DList_vide, ?_, ?_, ?_⟩
  · simpa only [hn] using h.nouveaux
  · simpa only [hs] using h.sortis
  · simpa only [hn, hs] using h.entrees
  · intro ht l hl
    obtain ⟨ht, hline⟩ := htest ht
    rcases List.mem_append.1 hl with hl | hl
    · exact h.erreurs ht l hl
    · rw [List.mem_singleton.1 hl]
      exact hline
  · intro ht p h₁ h₂ n hn₀ hnb l hl hest
    rcases List.mem_append.1 hl with hl | hl
    · exact h.bases (htest ht).1 p h₁ h₂ n hn₀ hnb l hl hest
    · rw [List.mem_singleton.1 hl] at hest
      exact absurd hest (not_estLigne hnew p)
  · intro ht p h₁ h₂ n hn₀ hnb hle l hl hest
    rw [hs] at hle
    rcases List.mem_append.1 hl with hl | hl
    · exact h.sorties (htest ht).1 p h₁ h₂ n hn₀ hnb hle l hl hest
    · rw [List.mem_singleton.1 hl] at hest
      exact absurd hest (not_estLigne hsortie p)

/-- A row of counters, one of which is read and incremented. -/
theorem compteur_incrementer {l l' : List ℤ} {m : ℤ → ℕ} {n q : ℤ}
    (h : ∀ p, 1 ≤ p → p ≤ 6 → l[(p - 1).toNat]? = some (m p : ℤ)) (hq₁ : 1 ≤ q) (hq₂ : q ≤ 6)
    (hn : item l (q - 1) = .ok n) (hset : setItem l (q - 1) (n + 1) = .ok l') :
    n = m q ∧
      ∀ p, 1 ≤ p → p ≤ 6 → l'[(p - 1).toNat]? = some ((m p + if q = p then 1 else 0 : ℕ) : ℤ) := by
  have hq := h q hq₁ hq₂
  have hlt := (List.getElem?_eq_some_iff.1 hq).1
  have hget := getElem?_of_item (by omega) hn
  obtain ⟨-, rfl⟩ := eq_set_of_setItem (by omega) hset
  rw [hq, Option.some_inj] at hget
  refine ⟨hget.symm, fun p hp₁ hp₂ => ?_⟩
  rw [List.getElem?_set]
  by_cases hqp : q = p
  · subst hqp
    rw [if_pos rfl, if_pos hlt, if_pos rfl, ← hget, Nat.cast_add, Nat.cast_one]
  · rw [if_neg (by omega), h p hp₁ hp₂, if_neg hqp, Nat.add_zero]

/-- The search takes the oldest entry of the product, and no other one. -/
theorem countP_sortirEntree {P : ℤ} {l : List (ℤ × F)} {r : F × List (ℤ × F)}
    (h : sortirEntree P l = .ok r) {p : ℤ} (hp : p ≠ 0) :
    l.countP (fun e => e.1 = p) =
      r.2.countP (fun e => e.1 = p) + if P = p then 1 else 0 := by
  induction l generalizing r with
  | nil => cases h
  | cons e suite ih =>
    obtain ⟨Q, entree⟩ := e
    unfold sortirEntree at h
    split_ifs at h with hQ
    · cases h
      by_cases hP : P = p
      · simp [hQ, hP, hp.symm]
      · simp [hQ, hP, hp.symm]
    · obtain ⟨r', hr', h⟩ := bind_eq_ok.1 h
      cases h
      rw [List.countP_cons, List.countP_cons, ih hr']
      omega

/-- `D` holds the digits of the fields, then what it held. -/
theorem map_fst_remplirD {D D' : List (ℤ × ℤ)} {fields : List Str}
    (h : remplirD D fields = .ok D') :
    ∃ taches, (fields.mapM fun champ => chiffre champ 0) = .ok taches ∧
      taches.length ≤ D.length ∧
      D'.map Prod.fst = taches ++ (D.map Prod.fst).drop taches.length := by
  induction fields generalizing D D' with
  | nil =>
    cases D <;> cases h <;> exact ⟨[], rfl, by simp, by simp⟩
  | cons champ fields ih =>
    cases D with
    | nil =>
      obtain ⟨n, hn, h⟩ := bind_eq_ok.1 h
      cases h
    | cons d D =>
      obtain ⟨numero, hn, h⟩ := bind_eq_ok.1 h
      obtain ⟨type, ht, h⟩ := bind_eq_ok.1 h
      obtain ⟨D₁, hD₁, h⟩ := bind_eq_ok.1 h
      cases h
      obtain ⟨taches, htaches, hlen, hmap⟩ := ih hD₁
      refine ⟨numero :: taches, ?_, by simpa using hlen, by simpa using hmap⟩
      rw [List.mapM_cons, hn, htaches]
      rfl

/-- The identifiers are different texts. -/
theorem identifiant_nouveau_ne {line : Str} (h : identifiant line = "NouveauProduit".toList) :
    identifiant line ≠ "Sortie".toList ∧ ¬EstErreur line := by
  unfold EstErreur
  rw [h]
  decide

theorem identifiant_sortie_ne {line : Str} (h : identifiant line = "Sortie".toList) :
    identifiant line ≠ "NouveauProduit".toList ∧ ¬EstErreur line := by
  unfold EstErreur
  rw [h]
  decide

section

variable [Floating F] {c : Config F} {lus : List Str} {j j' : Journal F} {line : Str} {q : ℤ}

/-- The errors that the cell reports. -/
def erreursCellule : List (ℤ → Message F) :=
  [.operationPosteVide, .operationProduitPlein, .ecrasementProduit, .perteNavette]

/-- What a `NouveauProduit` line does, when it is read without an exception. -/
inductive NouveauProduitLu (c : Config F) (j : Journal F) (line : Str) (j' : Journal F) : Prop
  | intro (P pType n attendus : ℤ) (time : F) (nbProduitNew : List ℤ) (hP : produitDe line = .ok P)
      (htype : typeDe line = .ok pType)
      (htime : (item (champs line) 2 >>= fun champ => float (strip '\n' champ)) = .ok time)
      (hn : item j.nbProduitNew (P - 1) = .ok n)
      (hset : setItem j.nbProduitNew (P - 1) (n + 1) = .ok nbProduitNew)
      (hatt : item c.nbProduit (P - 1) = .ok attendus)
      (h : j' = { j with
        nbProduitNew
        produitEntree := j.produitEntree ++ [(P, time)] }.verifierApparition attendus (n + 1) time P pType)

/-- What a `Sortie` line does. -/
inductive SortieLue (c : Config F) (j : Journal F) (line : Str) (j' : Journal F) : Prop
  | produit (s : Sortie F) (hs : j.analyserSortie (champs line) = .ok s) (hP : s.P ≠ 0)
      (n attendus : ℤ) (attendu nbProduitLog : List ℤ) (r : F × List (ℤ × F)) (duree : F)
      (produitDuree : List F) (hn : item j.nbProduitLog (s.P - 1) = .ok n)
      (hset : setItem j.nbProduitLog (s.P - 1) (n + 1) = .ok nbProduitLog)
      (hr : sortirEntree s.P j.produitEntree = .ok r) (hd : item j.produitDuree (s.P - 1) = .ok duree)
      (hduree : setItem j.produitDuree (s.P - 1) (Floating.add duree (Floating.sub s.time r.1)) =
        .ok produitDuree)
      (hatt : item c.nbProduit (s.P - 1) = .ok attendus)
      (hattendu : item c.production (s.P - 1) = .ok attendu)
      (h : j' = { { j with nbProduitLog, produitEntree := r.2, produitDuree }.verifierSortie attendus
          (n + 1) attendu (s.P :: (s.D.take maxTaches).map Prod.fst) s with
        D := Journal.videD
        DList := [] })
  | vide (s : Sortie F) (hs : j.analyserSortie (champs line) = .ok s) (hP : s.P = 0) (attendus : ℤ)
      (hatt : item c.nbProduit (s.P - 1) = .ok attendus)
      (h : j' = if attendus = 0 then { j with D := s.D, DList := s.DList }.signaler .evacuationVide
        else { j with D := s.D, DList := s.DList })

/-- What a line does. -/
inductive LigneLue (c : Config F) (j : Journal F) (line : Str) (j' : Journal F) : Prop
  | erreur (hID : EstErreur line) (m : ℤ → Message F) (hm : m ∈ erreursCellule) (poste : ℤ)
      (h : j' = j.signaler (m poste))
  | tempoT (hID : identifiant line = "TempoT".toList) (h : j.lireTempoT (champs line) = .ok j')
  | nouveauProduit (hID : identifiant line = "NouveauProduit".toList) (h : NouveauProduitLu c j line j')
  | sortie (hID : identifiant line = "Sortie".toList) (h : SortieLue c j line j')
  | autre (hID : ¬EstErreur line) (h₁ : identifiant line ≠ "TempoT".toList)
      (h₂ : identifiant line ≠ "NouveauProduit".toList) (h₃ : identifiant line ≠ "Sortie".toList)
      (h : j' = j)

/-- The identifiers that are not those of errors. -/
theorem not_estErreur (h₁ : identifiant line ≠ "OperationPosteVide".toList)
    (h₂ : identifiant line ≠ "OperationProduitPlein".toList)
    (h₃ : identifiant line ≠ "EcrasementProduit".toList)
    (h₄ : identifiant line ≠ "PerteNavette".toList) : ¬EstErreur line := by
  rintro ⟨ID, hmem, hID⟩
  simp only [identifiantsErreur, List.mem_cons, List.not_mem_nil, or_false] at hmem
  rcases hmem with rfl | rfl | rfl | rfl
  · exact h₁ hID
  · exact h₂ hID
  · exact h₃ hID
  · exact h₄ hID

/-- A product that comes in is read when its digits, its time and its counters are. -/
theorem Journal.lireNouveauProduit_eq_ok :
    j.lireNouveauProduit c (champs line) = .ok j' ↔ NouveauProduitLu c j line j' := by
  constructor
  · intro hok
    unfold Journal.lireNouveauProduit at hok
    obtain ⟨champ, hchamp, hok⟩ := bind_eq_ok.1 hok
    obtain ⟨P, hP, hok⟩ := bind_eq_ok.1 hok
    obtain ⟨pType, htype, hok⟩ := bind_eq_ok.1 hok
    obtain ⟨champTime, hchampTime, hok⟩ := bind_eq_ok.1 hok
    obtain ⟨time, htime, hok⟩ := bind_eq_ok.1 hok
    obtain ⟨n, hn, hok⟩ := bind_eq_ok.1 hok
    obtain ⟨nbProduitNew, hset, hok⟩ := bind_eq_ok.1 hok
    obtain ⟨attendus, hatt, hok⟩ := bind_eq_ok.1 hok
    exact ⟨P, pType, n, attendus, time, nbProduitNew, bind_eq_ok.2 ⟨champ, hchamp, hP⟩,
      bind_eq_ok.2 ⟨champ, hchamp, htype⟩, bind_eq_ok.2 ⟨champTime, hchampTime, htime⟩, hn, hset, hatt,
      (Except.ok.inj hok).symm⟩
  · rintro ⟨P, pType, n, attendus, time, nbProduitNew, hP, htype, htime, hn, hset, hatt, rfl⟩
    obtain ⟨champ, hchamp, hP⟩ := bind_eq_ok.1 hP
    obtain ⟨champ', hchamp', htype⟩ := bind_eq_ok.1 htype
    obtain rfl : champ = champ' := Except.ok.inj (hchamp.symm.trans hchamp')
    obtain ⟨champTime, hchampTime, htime⟩ := bind_eq_ok.1 htime
    unfold Journal.lireNouveauProduit
    rw [hchamp, ok_bind, hP, ok_bind, htype, ok_bind, hchampTime, ok_bind, htime, ok_bind, hn, ok_bind]
    dsimp only
    rw [hset, ok_bind, hatt]
    rfl

/-- A product that leaves is read when it is inside and its counters are; an empty evacuation when
the count at its subscript is. -/
theorem Journal.lireSortie_eq_ok :
    j.lireSortie c (champs line) = .ok j' ↔ SortieLue c j line j' := by
  constructor
  · intro hok
    unfold Journal.lireSortie at hok
    obtain ⟨s, hs, hok⟩ := bind_eq_ok.1 hok
    split_ifs at hok with hP
    · unfold Journal.sortir at hok
      obtain ⟨n, hn, hok⟩ := bind_eq_ok.1 hok
      obtain ⟨nbProduitLog, hset, hok⟩ := bind_eq_ok.1 hok
      obtain ⟨r, hr, hok⟩ := bind_eq_ok.1 hok
      obtain ⟨duree, hd, hok⟩ := bind_eq_ok.1 hok
      obtain ⟨produitDuree, hduree, hok⟩ := bind_eq_ok.1 hok
      obtain ⟨attendus, hatt, hok⟩ := bind_eq_ok.1 hok
      obtain ⟨attendu, hattendu, hok⟩ := bind_eq_ok.1 hok
      exact .produit s hs hP n attendus attendu nbProduitLog r duree produitDuree hn hset hr hd hduree
        hatt hattendu (Except.ok.inj hok).symm
    -- an empty evacuation
    · unfold Journal.sortirVide at hok
      obtain ⟨attendus, hatt, hok⟩ := bind_eq_ok.1 hok
      exact .vide s hs (not_not.1 hP) attendus hatt (Except.ok.inj hok).symm
  · intro hlue
    unfold Journal.lireSortie
    cases hlue with
    | produit s hs hP n attendus attendu nbProduitLog r duree produitDuree hn hset hr hd hduree hatt
        hattendu heq =>
      rw [hs, ok_bind, if_pos hP]
      unfold Journal.sortir
      rw [hn, ok_bind]
      dsimp only
      rw [hset, ok_bind, hr, ok_bind, hd, ok_bind, hduree, ok_bind, hatt, ok_bind, hattendu, ok_bind, heq]
      rfl
    | vide s hs hP attendus hatt heq =>
      rw [hs, ok_bind, if_neg (not_not.2 hP)]
      unfold Journal.sortirVide
      rw [hatt, ok_bind, heq]
      rfl

/-! The branches of the loop, by the identifier of the line. -/

theorem Journal.lireLigne_tempoT (hID : identifiant line = "TempoT".toList) :
    Journal.lireLigne c j line = j.lireTempoT (champs line) := by
  unfold Journal.lireLigne
  dsimp only
  rw [hID]
  rfl

theorem Journal.lireLigne_nouveauProduit (hID : identifiant line = "NouveauProduit".toList) :
    Journal.lireLigne c j line = j.lireNouveauProduit c (champs line) := by
  unfold Journal.lireLigne
  dsimp only
  rw [hID]
  rfl

theorem Journal.lireLigne_sortie (hID : identifiant line = "Sortie".toList) :
    Journal.lireLigne c j line = j.lireSortie c (champs line) := by
  unfold Journal.lireLigne
  dsimp only
  rw [hID]
  rfl

/-- **One turn of the loop.** -/
theorem Journal.lireLigne_inv (hok : Journal.lireLigne c j line = .ok j') : LigneLue c j line j' := by
  have herreur : ∀ ID ∈ identifiantsErreur, identifiant line = ID.toList → ∀ m ∈ erreursCellule,
      j.lireErreur (champs line) m = .ok j' → LigneLue c j line j' := by
    intro ID hmem hID m hm hok
    obtain ⟨champ, -, hok⟩ := bind_eq_ok.1 hok
    obtain ⟨poste, -, hok⟩ := bind_eq_ok.1 hok
    exact .erreur ⟨ID, hmem, hID⟩ m hm poste (Except.ok.inj hok).symm
  unfold Journal.lireLigne at hok
  dsimp only at hok
  split_ifs at hok with h₁ h₂ h₃ h₄ h₅ h₆ h₇
  · exact herreur _ (by decide) h₁ _ (by simp [erreursCellule]) hok
  · exact herreur _ (by decide) h₂ _ (by simp [erreursCellule]) hok
  · exact herreur _ (by decide) h₃ _ (by simp [erreursCellule]) hok
  · exact herreur _ (by decide) h₄ _ (by simp [erreursCellule]) hok
  · exact .tempoT h₅ hok
  · exact .nouveauProduit h₆ (Journal.lireNouveauProduit_eq_ok.1 hok)
  · exact .sortie h₇ (Journal.lireSortie_eq_ok.1 hok)
  · exact .autre (not_estErreur h₁ h₂ h₃ h₄) h₅ h₆ h₇ (Except.ok.inj hok).symm

/-- The identifiers of errors are different texts from the others. -/
theorem identifiant_erreur_ne (h : EstErreur line) : identifiant line ≠ "TempoT".toList ∧
    identifiant line ≠ "NouveauProduit".toList ∧ identifiant line ≠ "Sortie".toList := by
  have hne : ∀ ID ∈ identifiantsErreur, ID.toList ≠ "TempoT".toList ∧
      ID.toList ≠ "NouveauProduit".toList ∧ ID.toList ≠ "Sortie".toList := by decide
  obtain ⟨ID, hmem, hID⟩ := h
  rw [hID]
  exact hne ID hmem

theorem identifiant_tempoT_ne (h : identifiant line = "TempoT".toList) :
    identifiant line ≠ "NouveauProduit".toList ∧ identifiant line ≠ "Sortie".toList ∧
      ¬EstErreur line := by
  unfold EstErreur
  rw [h]
  decide

/-- A product that comes in. -/
theorem Accord.nouveauProduit (h : Accord c lus j)
    (hID : identifiant line = "NouveauProduit".toList) (hq : produitDe line = .ok q) (hq₁ : 1 ≤ q)
    (hq₂ : q ≤ 6) (hlu : NouveauProduitLu c j line j') : Accord c (lus ++ [line]) j' := by
  obtain ⟨hsortie, herreur⟩ := identifiant_nouveau_ne hID
  obtain ⟨P, pType, n, attendus, time, nbProduitNew, hP, htypeDe, -, hn, hset, hatt, rfl⟩ := hlu
  obtain rfl : P = q := Except.ok.inj (hP.symm.trans hq)
  have hatt := getElem?_of_item (by omega) hatt
  obtain ⟨-, hnouveaux⟩ := compteur_incrementer h.nouveaux hq₁ hq₂ hn hset
  -- the check of the base changes only what is printed and `test`
  have hcontrole := Journal.verifierApparition_controle
    { j with nbProduitNew, produitEntree := j.produitEntree ++ [(P, time)] } attendus (n + 1) time P
    pType
  generalize Journal.verifierApparition _ _ _ _ _ _ = j₁ at hcontrole ⊢
  have hs := fun p => nombreLignes_snoc_autre hsortie p lus
  have hcompte := fun p => nombreLignes_snoc_de hID hq p lus
  rw [hcontrole.eq]
  refine ⟨?_, ?_, ?_, h.D_vide, h.DList_vide, ?_, ?_, ?_⟩
  · simpa only [hcompte] using hnouveaux
  · simpa only [hs] using h.sortis
  · intro p hp₁ hp₂
    show (j.produitEntree ++ [(P, time)]).countP _ + _ = _
    rw [hs, hcompte, List.countP_append, ← h.entrees p hp₁ hp₂]
    simp only [List.countP_singleton, decide_eq_true_eq]
    omega
  · intro ht l hl
    rcases List.mem_append.1 hl with hl | hl
    · exact h.erreurs (hcontrole.test ht).1 l hl
    · rw [List.mem_singleton.1 hl]
      exact herreur
  · intro ht p hp₁ hp₂ n hn₀ hnb l hl hl'
    obtain ⟨ht, hbase⟩ := hcontrole.test ht
    rcases List.mem_append.1 hl with hl | hl
    · exact h.bases ht p hp₁ hp₂ n hn₀ hnb l hl hl'
    · rw [List.mem_singleton.1 hl] at hl' ⊢
      obtain rfl := (estLigne_iff hID hq p).1 hl'
      rw [hatt, Option.some_inj] at hnb
      rw [htypeDe, hbase (hnb ▸ hn₀)]
  · intro ht p hp₁ hp₂ n hn₀ hnb hle l hl hl'
    rw [hs] at hle
    rcases List.mem_append.1 hl with hl | hl
    · exact h.sorties (hcontrole.test ht).1 p hp₁ hp₂ n hn₀ hnb hle l hl hl'
    · rw [List.mem_singleton.1 hl] at hl'
      exact absurd hl' (not_estLigne hsortie p)

/-- What is read on a `Sortie` line, whatever is left of the lines before. -/
theorem analyserSortie_produit {s : Sortie F} (hs : j.analyserSortie (champs line) = .ok s) :
    produitDe line = .ok s.P ∧ (s.P ≠ 0 → typeDe line = .ok s.pType) ∧
      (item (champs line) ((champs line).length - 1) >>= fun champ => float (strip '\n' champ)) =
        .ok s.time ∧
      s.DList = j.DList ++ champsTaches (champs line) ∧ remplirD j.D s.DList = .ok s.D := by
  unfold Journal.analyserSortie at hs
  obtain ⟨champ, hchamp, hs⟩ := bind_eq_ok.1 hs
  obtain ⟨champTime, hchampTime, hs⟩ := bind_eq_ok.1 hs
  obtain ⟨time, htime, hs⟩ := bind_eq_ok.1 hs
  obtain ⟨P, hP, hs⟩ := bind_eq_ok.1 hs
  obtain ⟨pType, htype, hs⟩ := bind_eq_ok.1 hs
  obtain ⟨D, hremplir, hs⟩ := bind_eq_ok.1 hs
  cases hs
  refine ⟨bind_eq_ok.2 ⟨champ, hchamp, hP⟩, ?_, bind_eq_ok.2 ⟨champTime, hchampTime, htime⟩, rfl,
    hremplir⟩
  intro hP₀
  unfold chiffreType at htype
  rw [if_pos hP₀] at htype
  exact bind_eq_ok.2 ⟨champ, hchamp, htype⟩

/-- The tasks read into an empty table, completed with zeros. -/
theorem taches_remplirD {D : List (ℤ × ℤ)} {fields : List Str}
    (h : remplirD Journal.videD fields = .ok D) :
    ∃ taches, (fields.mapM fun champ => chiffre champ 0) = .ok taches ∧
      (D.take maxTaches).map Prod.fst = completer taches := by
  obtain ⟨taches, htaches, hlen, hmap⟩ := map_fst_remplirD h
  refine ⟨taches, htaches, ?_⟩
  have hvide : Journal.videD.map Prod.fst = List.replicate maxTaches 0 := rfl
  have hlen : taches.length ≤ maxTaches := hlen
  rw [List.map_take, hmap, hvide, List.drop_replicate, List.take_of_length_le]
  · rfl
  · simp only [List.length_append, List.length_replicate]
    omega

/-- The same when nothing is left of them. -/
theorem analyserSortie_inv {s : Sortie F} (hD : j.D = Journal.videD) (hDList : j.DList = [])
    (hq : produitDe line = .ok q) (hq₀ : q ≠ 0) (hs : j.analyserSortie (champs line) = .ok s) :
    s.P = q ∧ typeDe line = .ok s.pType ∧ ∃ taches, tachesDe line = .ok taches ∧
      (s.D.take maxTaches).map Prod.fst = completer taches := by
  obtain ⟨hP, htype, -, hlus, hremplir⟩ := analyserSortie_produit hs
  obtain rfl : s.P = q := Except.ok.inj (hP.symm.trans hq)
  rw [hlus, hDList, hD] at hremplir
  exact ⟨rfl, htype hq₀, taches_remplirD hremplir⟩

/-- A product that leaves. -/
theorem Accord.sortie (h : Accord c lus j) (hID : identifiant line = "Sortie".toList)
    (hq : produitDe line = .ok q) (hq₁ : 1 ≤ q) (hq₂ : q ≤ 6) (hlue : SortieLue c j line j') :
    Accord c (lus ++ [line]) j' := by
  obtain ⟨hnew, herreur⟩ := identifiant_sortie_ne hID
  obtain ⟨s, hs, -, n, attendus, attendu, nbProduitLog, r, duree, produitDuree, hn, hset, hr, -, -, hatt,
    hattendu, rfl⟩ | ⟨s, hs, hP, -⟩ := hlue
  swap
  -- the product of the line is not 0
  · have hsP := (analyserSortie_inv h.D_vide h.DList_vide hq (by omega) hs).1
    omega
  obtain ⟨rfl, htype, taches, htaches, hfinal⟩ :=
    analyserSortie_inv h.D_vide h.DList_vide hq (by omega) hs
  have hatt := getElem?_of_item (by omega) hatt
  have hattendu := getElem?_of_item (by omega) hattendu
  obtain ⟨hn, hsortis⟩ := compteur_incrementer h.sortis hq₁ hq₂ hn hset
  -- the checks change only what is printed and `test`
  have hcontrole := Journal.verifierSortie_controle
    { j with nbProduitLog, produitEntree := r.2, produitDuree } attendus (n + 1) attendu
    (s.P :: (s.D.take maxTaches).map Prod.fst) s
  generalize Journal.verifierSortie _ _ _ _ _ _ = j₁ at hcontrole ⊢
  have hne := fun p => nombreLignes_snoc_autre hnew p lus
  have hcompte := fun p => nombreLignes_snoc_de hID hq p lus
  rw [hcontrole.eq]
  refine ⟨?_, ?_, ?_, rfl, rfl, ?_, ?_, ?_⟩
  · simpa only [hne] using h.nouveaux
  · simpa only [hcompte] using hsortis
  · intro p hp₁ hp₂
    show r.2.countP _ + _ = _
    have hentrees := h.entrees p hp₁ hp₂
    rw [countP_sortirEntree hr (by omega)] at hentrees
    rw [hne, hcompte]
    omega
  · intro ht l hl
    rcases List.mem_append.1 hl with hl | hl
    · exact h.erreurs (hcontrole.test ht).1 l hl
    · rw [List.mem_singleton.1 hl]
      exact herreur
  · intro ht p hp₁ hp₂ n hn₀ hnb l hl hl'
    rcases List.mem_append.1 hl with hl | hl
    · exact h.bases (hcontrole.test ht).1 p hp₁ hp₂ n hn₀ hnb l hl hl'
    · rw [List.mem_singleton.1 hl] at hl'
      exact absurd hl' (not_estLigne hnew p)
  -- the test of this line counts only while no more products left than were ordered
  · intro ht p hp₁ hp₂ m hm₀ hnb hle l hl hl'
    obtain ⟨ht, hjuste⟩ := hcontrole.test ht
    rw [hcompte] at hle
    rcases List.mem_append.1 hl with hl | hl
    · exact h.sorties ht p hp₁ hp₂ m hm₀ hnb (by omega) l hl hl'
    · rw [List.mem_singleton.1 hl] at hl' ⊢
      obtain rfl := (estLigne_iff hID hq p).1 hl'
      rw [hatt, Option.some_inj] at hnb
      rw [if_pos rfl] at hle
      obtain ⟨hlu, hbase⟩ := hjuste (hnb ▸ hm₀) (by omega)
      refine ⟨by rw [htype, hbase], taches, htaches, ?_⟩
      rw [hattendu, ← hlu, hfinal]

/-- A `TempoT` line adds a duration. -/
theorem Journal.lireTempoT_inv {info : List Str} (hok : j.lireTempoT info = .ok j') :
    ∃ x, j' = { j with verifConfigLog := j.verifConfigLog ++ [x] } := by
  unfold Journal.lireTempoT at hok
  obtain ⟨champ, -, hok⟩ := bind_eq_ok.1 hok
  obtain ⟨c₀, -, hok⟩ := bind_eq_ok.1 hok
  obtain ⟨P, -, hok⟩ := bind_eq_ok.1 hok
  obtain ⟨champPoste, -, hok⟩ := bind_eq_ok.1 hok
  obtain ⟨dTempo, -, hok⟩ := bind_eq_ok.1 hok
  obtain ⟨champDuree, -, hok⟩ := bind_eq_ok.1 hok
  obtain ⟨T, -, hok⟩ := bind_eq_ok.1 hok
  exact ⟨(P, dTempo, T), (Except.ok.inj hok).symm⟩

/-- One turn of the loop. -/
theorem Accord.lireLigne (h : Accord c lus j) (hline : LigneConforme line)
    (hok : Journal.lireLigne c j line = .ok j') : Accord c (lus ++ [line]) j' := by
  cases Journal.lireLigne_inv hok with
  | erreur hID m hm poste heq =>
    obtain ⟨-, h₂, h₃⟩ := identifiant_erreur_ne hID
    rw [heq]
    exact h.neutre h₂ h₃ rfl fun ht => absurd ht zero_ne_one
  | tempoT hID hok =>
    obtain ⟨h₂, h₃, herreur⟩ := identifiant_tempoT_ne hID
    obtain ⟨x, rfl⟩ := Journal.lireTempoT_inv hok
    exact h.neutre h₂ h₃ rfl fun ht => ⟨ht, herreur⟩
  | nouveauProduit hID hlu =>
    obtain ⟨q, hq, hq₁, hq₂⟩ := hline.produit (.inl hID)
    exact h.nouveauProduit hID hq hq₁ hq₂ hlu
  | sortie hID hlue =>
    obtain ⟨q, hq, hq₁, hq₂⟩ := hline.produit (.inr hID)
    exact h.sortie hID hq hq₁ hq₂ hlue
  | autre hID h₁ h₂ h₃ heq =>
    rw [heq]
    exact h.neutre h₂ h₃ rfl fun ht => ⟨ht, hID⟩

/-- The whole log. -/
theorem Accord.lireLog {Log : List Str} (h : Accord c lus j) (hLog : ∀ l ∈ Log, LigneConforme l)
    (hok : Journal.lireLog c j Log = .ok j') : Accord c (lus ++ Log) j' := by
  induction Log generalizing lus j with
  | nil =>
    cases hok
    simpa using h
  | cons line Log ih =>
    obtain ⟨j₁, h₁, hok⟩ := bind_eq_ok.1 hok
    have hline := h.lireLigne (hLog line (by simp)) h₁
    have hsuite := ih hline (fun l hl => hLog l (by simp [hl])) hok
    rwa [List.append_assoc] at hsuite

theorem accord_initial (c : Config F) : Accord c [] Journal.initial where
  nouveaux p h₁ h₂ := by
    show (List.replicate 6 (0 : ℤ))[_]? = _
    rw [List.getElem?_replicate, if_pos (by omega)]
    rfl
  sortis p h₁ h₂ := by
    show (List.replicate 6 (0 : ℤ))[_]? = _
    rw [List.getElem?_replicate, if_pos (by omega)]
    rfl
  entrees _ _ _ := rfl
  D_vide := rfl
  DList_vide := rfl
  erreurs _ l hl := by simp at hl
  bases _ _ _ _ _ _ _ l hl := by simp at hl
  sorties _ _ _ _ _ _ _ _ l hl := by simp at hl

end

/-- The row of a product that is ordered. -/
theorem rangeeDe_of_nombreDe {ds : List (Declaration F)} {p : ℤ} (h : nombreDe ds p ≠ 0) :
    rangeeDe ds p = p :: completer (destinationsDe ds p) := by
  unfold nombreDe at h
  unfold rangeeDe destinationsDe
  cases hd : declarationDe ds p with
  | none =>
    rw [hd] at h
    exact absurd rfl h
  | some d => rfl

theorem not_estLigne_of_nombreLignes {ID : String} {p : ℤ} {Log : List Str}
    (h : nombreLignes ID p Log = 0) : ∀ l ∈ Log, ¬EstLigne ID p l := by
  simpa [nombreLignes, List.countP_eq_zero] using h

/-- What the final counts say of one product, when they are right. -/
theorem Accord.conclusion {c : Config F} {ds : List (Declaration F)} {Log : List Str}
    {j : Journal F} (h : Accord c Log j) (ht : c.Tables ds) (htest : j.test = 1)
    (hnombres : ∀ x ∈ c.nbProduit.zip (j.nbProduitNew.zip j.nbProduitLog),
      x.1 = x.2.1 ∧ (x.1 = x.2.2 ∨ x.1 = 0)) {p : ℤ} (hp₁ : 1 ≤ p) (hp₂ : p ≤ 6) :
    nombreLignes "NouveauProduit" p Log = nombreLignes "Sortie" p Log ∧
      (nombreLignes "Sortie" p Log : ℤ) = nombreDe ds p ∧
      (∀ l ∈ Log, EstLigne "NouveauProduit" p l ∨ EstLigne "Sortie" p l → typeDe l = .ok 4) ∧
      ∀ l ∈ Log, EstLigne "Sortie" p l → ∃ taches, tachesDe l = .ok taches ∧
        completer taches = completer (destinationsDe ds p) := by
  have hnb := ht.nombre p hp₁ hp₂
  -- the counts of the product, in the three tables
  have hzip : (nombreDe ds p, (nombreLignes "NouveauProduit" p Log : ℤ),
      (nombreLignes "Sortie" p Log : ℤ)) ∈ c.nbProduit.zip (j.nbProduitNew.zip j.nbProduitLog) := by
    apply List.mem_of_getElem? (i := (p - 1).toNat)
    rw [List.getElem?_zip_eq_some, List.getElem?_zip_eq_some]
    exact ⟨hnb, h.nouveaux p hp₁ hp₂, h.sortis p hp₁ hp₂⟩
  obtain ⟨hnew, hlog⟩ := hnombres _ hzip
  dsimp only at hnew hlog
  have hentrees := h.entrees p hp₁ hp₂
  by_cases hn : nombreDe ds p = 0
  -- a product that is not ordered came in never, so it left never
  · have hnew₀ : nombreLignes "NouveauProduit" p Log = 0 := by omega
    have hlog₀ : nombreLignes "Sortie" p Log = 0 := by omega
    have hsans := not_estLigne_of_nombreLignes hnew₀
    have hsans' := not_estLigne_of_nombreLignes hlog₀
    refine ⟨by omega, by omega, ?_, ?_⟩
    · rintro l hl (hl' | hl')
      · exact absurd hl' (hsans l hl)
      · exact absurd hl' (hsans' l hl)
    · intro l hl hl'
      exact absurd hl' (hsans' l hl)
  · have hlog : nombreDe ds p = nombreLignes "Sortie" p Log := hlog.resolve_right hn
    have hsorties := h.sorties htest p hp₁ hp₂ _ hn hnb (by omega)
    refine ⟨by omega, hlog.symm, ?_, ?_⟩
    · rintro l hl (hl' | hl')
      · exact h.bases htest p hp₁ hp₂ _ hn hnb l hl hl'
      · exact (hsorties l hl hl').1
    · intro l hl hl'
      obtain ⟨-, taches, htaches, hrangee⟩ := hsorties l hl hl'
      refine ⟨taches, htaches, ?_⟩
      rw [ht.rangee p hp₁ hp₂, rangeeDe_of_nombreDe hn, Option.some_inj] at hrangee
      exact (List.tail_eq_of_cons_eq hrangee).symm

/-- The script from the log on, once no error of declaration was found. -/
theorem checker_inv [Floating F] {contenu Log : List Str} {c : Config F} {j : Journal F}
    (hok : checker contenu Log = .ok (c, j)) (hconfig : c.erreurConfig = 0) :
    ∃ (temps tempsLog : List (List F)) (j₁ : Journal F), Config.initial.lireLignes contenu = .ok c ∧
      remplirTemps c.verifConfig = .ok temps ∧ Journal.lireLog c .initial Log = .ok j₁ ∧
      remplirTemps j₁.verifConfigLog = .ok tempsLog ∧
      j = (j₁.moyennes.comparer c temps tempsLog).conclure c := by
  unfold checker at hok
  obtain ⟨c₁, hc, hok⟩ := bind_eq_ok.1 hok
  by_cases hz : c₁.erreurConfig = 0
  · rw [if_pos hz] at hok
    obtain ⟨temps, htemps, hok⟩ := bind_eq_ok.1 hok
    obtain ⟨j₁, hj, hok⟩ := bind_eq_ok.1 hok
    obtain ⟨tempsLog, htempsLog, hok⟩ := bind_eq_ok.1 hok
    cases hok
    exact ⟨temps, tempsLog, j₁, hc, htemps, hj, htempsLog, rfl⟩
  · rw [if_neg hz] at hok
    cases hok
    exact absurd hconfig hz

/-- **What an accepted log satisfies**, for a configuration that declares each product at most once
and a log whose product fields start with the number of a product: the counts of the products that
came in and left are the ordered ones, all bases are products, the tasks of all products that left
are the ordered ones, and no error of the cell was logged. -/
theorem checker_correct [Floating F] {contenu Log : List Str} {c : Config F} {j : Journal F}
    (hok : checker contenu Log = .ok (c, j)) (hconfig : c.erreurConfig = 0)
    (hdistincts : ((declarations (F := F) contenu).map Declaration.produit).Nodup)
    (hLog : ∀ l ∈ Log, LigneConforme l) (htest : j.test = 1) :
    (∀ p, 1 ≤ p → p ≤ 6 →
      nombreLignes "NouveauProduit" p Log = nombreLignes "Sortie" p Log ∧
      (nombreLignes "Sortie" p Log : ℤ) = nombreDe (declarations (F := F) contenu) p ∧
      (∀ l ∈ Log, EstLigne "NouveauProduit" p l ∨ EstLigne "Sortie" p l → typeDe l = .ok 4) ∧
      ∀ l ∈ Log, EstLigne "Sortie" p l → ∃ taches, tachesDe l = .ok taches ∧
        completer taches = completer (destinationsDe (declarations (F := F) contenu) p)) ∧
    ∀ l ∈ Log, ¬EstErreur l := by
  obtain ⟨temps, tempsLog, j₁, hc, -, hj, -, rfl⟩ := checker_inv hok hconfig
  have htables := Config.lireLignes_tables hc hconfig Config.tables_initial (by simpa using hdistincts)
  have haccord := (accord_initial c).lireLog hLog hj
  rw [List.nil_append] at htables haccord
  -- a comparison that leaves `test` at 1 found no difference
  have hcontrole := (Journal.comparer_controle c j₁.moyennes temps tempsLog).trans
    (Journal.conclure_controle c _)
  obtain ⟨hfin, ⟨-, hnombres⟩, -⟩ := hcontrole.test htest
  refine ⟨?_, haccord.erreurs hfin⟩
  intro p hp₁ hp₂
  exact haccord.conclusion htables hfin hnombres hp₁ hp₂

/-- A configuration that orders the product 2 once, at the posts 1 and 4. -/
def configUnProduit : List Str := ["\n".toList, "2 : 1 4 : 4 5 : 1\n".toList]

/-- The log of a run that makes this product. -/
def logUnProduit : List Str :=
  ["NouveauProduit: 24 :10.00\n".toList, "TempoT: 24: 1: 4\n".toList,
    "TempoT: 24: 4: 5\n".toList, "Sortie :24 :13 :43 :0 :35.25\n".toList]

/-- The script accepts this log, and the product left once. -/
theorem checker_correct_unProduit : nombreLignes "Sortie" 2 logUnProduit = 1 := by
  have hverdict : (checker (F := ℚ) configUnProduit logUnProduit).map
      (fun x => (x.1.erreurConfig, x.2.test)) = .ok (0, 1) := by decide +kernel
  cases hok : checker (F := ℚ) configUnProduit logUnProduit with
  | error e =>
    rw [hok] at hverdict
    cases hverdict
  | ok x =>
    rw [hok] at hverdict
    obtain ⟨hconfig, htest⟩ := Prod.mk.inj (Except.ok.inj hverdict)
    have hLog : ∀ l ∈ logUnProduit, LigneConforme l := by
      have hproduit : ∀ l ∈ logUnProduit, produitDe l = .ok 2 := by decide +kernel
      have htaches : ∀ l ∈ logUnProduit, (champsTaches (champs l)).length ≤ maxTaches := by
        decide +kernel
      intro l hl
      exact ⟨fun _ => ⟨2, hproduit l hl, by decide, by decide⟩, fun _ => htaches l hl⟩
    have hnombre : nombreDe (declarations (F := ℚ) configUnProduit) 2 = 1 := by decide +kernel
    have hcorrect := (checker_correct hok hconfig (by decide +kernel) hLog htest).1 2 (by decide)
      (by decide)
    rw [hnombre] at hcorrect
    exact_mod_cast hcorrect.2.1

end Checker
