import Cellule.Checker.Inachevees
import Cellule.Checker.Signalement

/-! # Printed errors and verdict

The script prints its errors at many places, and most of them set the verdict too. The two messages
on the type of a task do not. Each check is followed by what it prints, and what it prints by what
the configuration and the log say, so that the log fails whenever an error is printed exactly when a
task without its end comes with another error.
-/

namespace Checker

open Python

variable {F : Type}

/-! ## What a step prints -/

/-- An error that is printed and does not fail the log. -/
def Message.tolere (m : Message F) : Bool := !m.echoue && !m.recapitule

/-- An error that is printed fails the log, or not. -/
theorem Message.estErreur_iff_or {m : Message F} :
    m.EstErreur ↔ m.echoue = true ∨ m.tolere = true := by
  rw [estErreur_iff]
  unfold tolere
  cases m <;> simp [echoue, recapitule]

/-- Between `j` and `j'` an error that fails the log is printed when `P` holds, and an error that
does not fail it when `Q` holds. -/
def Constat (P Q : Prop) (j j' : Journal F) : Prop :=
  ∃ lignes : List (Message F), j'.affichage = j.affichage ++ lignes ∧
    ((∃ m ∈ lignes, m.echoue = true) ↔ P) ∧ ((∃ m ∈ lignes, m.tolere = true) ↔ Q)

namespace Constat

variable {P Q P' Q' : Prop} {j j' j'' : Journal F}

theorem of_eq (h : j'.affichage = j.affichage) : Constat False False j j' :=
  ⟨[], by rw [h, List.append_nil], by simp, by simp⟩

theorem signaler (j : Journal F) {m : Message F} (hm : m.echoue = true) :
    Constat True False j (j.signaler m) :=
  ⟨[m], rfl, by simp [hm], by simp [Message.tolere, hm]⟩

theorem afficher (j : Journal F) {m : Message F} (hm : m.tolere = true) :
    Constat False True j (j.afficher m) := by
  refine ⟨[m], rfl, ?_, by simp [hm]⟩
  unfold Message.tolere at hm
  simp only [Bool.and_eq_true, Bool.not_eq_true'] at hm
  simp [hm.1]

theorem trans (h : Constat P Q j j') (h' : Constat P' Q' j' j'') :
    Constat (P ∨ P') (Q ∨ Q') j j'' := by
  obtain ⟨lignes, ha, hP, hQ⟩ := h
  obtain ⟨lignes', ha', hP', hQ'⟩ := h'
  refine ⟨lignes ++ lignes', by rw [ha', ha, List.append_assoc], ?_, ?_⟩
  · simp only [List.mem_append, or_and_right, exists_or, hP, hP']
  · simp only [List.mem_append, or_and_right, exists_or, hQ, hQ']

theorem congr (h : Constat P Q j j') (hP : P ↔ P') (hQ : Q ↔ Q') : Constat P' Q' j j' := by
  obtain ⟨lignes, ha, hP₀, hQ₀⟩ := h
  exact ⟨lignes, ha, hP₀.trans hP, hQ₀.trans hQ⟩

/-- An error found exactly when `P` holds. -/
theorem ite_signaler [Decidable P] (j : Journal F) {m : Message F} (hm : m.echoue = true) :
    Constat P False j (if P then j.signaler m else j) := by
  by_cases h : P
  · rw [if_pos h]
    exact (signaler j hm).congr (iff_of_true trivial h) Iff.rfl
  · rw [if_neg h]
    exact (of_eq rfl).congr (iff_of_false not_false h) Iff.rfl

/-- A check that is made only when `P` holds. -/
theorem ite [Decidable P'] (h : P' → Constat P Q j j') :
    Constat (P' ∧ P) (P' ∧ Q) j (if P' then j' else j) := by
  by_cases hP : P'
  · rw [if_pos hP]
    exact (h hP).congr (by simp [hP]) (by simp [hP])
  · rw [if_neg hP]
    exact (of_eq rfl).congr (by simp [hP]) (by simp [hP])

/-- Checks one after the other. -/
theorem foldl {α : Type} {f : Journal F → α → Journal F} {P Q : α → Prop}
    (hf : ∀ j a, Constat (P a) (Q a) j (f j a)) (l : List α) (j : Journal F) :
    Constat (∃ a ∈ l, P a) (∃ a ∈ l, Q a) j (l.foldl f j) := by
  induction l generalizing j with
  | nil => exact (of_eq rfl).congr (by simp) (by simp)
  | cons a l ih =>
    exact ((hf j a).trans (ih (f j a))).congr (List.exists_mem_cons_iff P a l).symm
      (List.exists_mem_cons_iff Q a l).symm

/-- Checks one after the other, over the places of a list. -/
theorem foldl_zipIdx {α : Type} {f : Journal F → α × ℕ → Journal F} {P Q : α → Prop}
    (hf : ∀ j a, Constat (P a.1) (Q a.1) j (f j a)) (l : List α) (j : Journal F) :
    Constat (∃ a ∈ l, P a) (∃ a ∈ l, Q a) j (l.zipIdx.foldl f j) := by
  have hmem : ∀ R : α → Prop, (∃ a ∈ l.zipIdx, R a.1) ↔ ∃ a ∈ l, R a := by
    intro R
    conv_rhs => rw [← List.zipIdx_map_fst 0 l]
    simp only [List.mem_map, exists_exists_and_eq_and]
  exact (foldl hf l.zipIdx j).congr (hmem P) (hmem Q)

end Constat

namespace Journal

variable (j : Journal F)

theorem constat_verifierApparition (attendus nouveaux : ℤ) (time : F) (P pType : ℤ) :
    Constat (pType ≠ 4 ∧ attendus ≠ 0) False j
      (j.verifierApparition attendus nouveaux time P pType) := by
  unfold verifierApparition
  exact .ite_signaler j rfl

/-- The messages on the types do not fail the log. -/
theorem constat_afficherTypes (n : ℕ) (sortis P : ℤ) (D : List (ℤ × ℤ)) :
    Constat False (∃ x ∈ D.take (n - 1), x.2 ≠ 3) j (j.afficherTypes n sortis P D) := by
  unfold afficherTypes
  refine (Constat.foldl_zipIdx (P := fun _ => False) (Q := fun x => x.2 ≠ 3) ?_ _ j).congr (by simp)
    Iff.rfl
  rintro j ⟨⟨numero, type⟩, i⟩
  dsimp only
  split_ifs with h₂ h₃
  · exact (Constat.afficher j rfl).congr Iff.rfl (iff_of_true trivial (by omega))
  · exact (Constat.afficher j rfl).congr Iff.rfl (iff_of_true trivial h₃)
  · exact (Constat.of_eq rfl).congr Iff.rfl (iff_of_false not_false h₃)

theorem constat_verifierSortie (attendus sortis : ℤ) (attendu lu : List ℤ) (s : Sortie F) :
    Constat ((attendus ≠ 0 ∧ sortis ≤ attendus) ∧ (lu ≠ attendu ∨ s.pType ≠ 4))
      ((attendus ≠ 0 ∧ sortis ≤ attendus) ∧ ∃ x ∈ s.D.take (s.DList.length - 1), x.2 ≠ 3) j
      (j.verifierSortie attendus sortis attendu lu s) := by
  unfold verifierSortie
  apply Constat.ite
  intro _
  have hlu := Constat.ite_signaler (P := lu ≠ attendu) j
    (m := .enchainementTaches sortis s.P attendu.tail lu.tail) rfl
  refine (hlu.trans ((Constat.ite_signaler (P := s.pType ≠ 4) _ rfl).trans
    (constat_afficherTypes _ _ _ _ _))).congr ?_ ?_
  · rw [or_false]
  · rw [false_or, false_or]

theorem constat_comparerNombres (x : (ℤ × ℤ × ℤ) × ℕ) :
    Constat (x.1.1 ≠ x.1.2.1 ∨ x.1.1 ≠ x.1.2.2 ∧ x.1.1 ≠ 0) False j (j.comparerNombres x) := by
  have happarus : Constat (x.1.1 ≠ x.1.2.1) False j (j.comparerApparus x.2 x.1.1 x.1.2.1) := by
    unfold comparerApparus
    split_ifs with h₁ h₂
    · exact (Constat.signaler j rfl).congr (iff_of_true trivial h₁) Iff.rfl
    · exact (Constat.signaler j rfl).congr (iff_of_true trivial h₁) Iff.rfl
    · exact (Constat.of_eq rfl).congr (iff_of_false not_false h₁) Iff.rfl
  exact (happarus.trans (.ite_signaler _ rfl)).congr Iff.rfl (or_self_iff)

theorem constat_conclure (c : Config F) : Constat False False j (j.conclure c) := by
  have hligne : ∀ (j : Journal F) (m : Message F), m.recapitule = true →
      Constat False False j (j.afficher m) := by
    intro j m hm
    refine ⟨[m], rfl, ?_, by simp [Message.tolere, hm]⟩
    cases m <;> simp_all [Message.recapitule, Message.echoue]
  unfold conclure
  split_ifs
  · refine (Constat.foldl (P := fun _ => False) (Q := fun _ => False) ?_ _ j).congr (by simp) (by simp)
    intro j x
    unfold recapituler
    split_ifs
    · exact ((hligne j _ rfl).trans (hligne _ _ rfl)).congr or_self_iff or_self_iff
    · exact .of_eq rfl
  · exact .of_eq rfl

variable [Floating F]

theorem constat_comparerDurees (x : (ℤ × List F × List F) × ℕ) :
    Constat (∃ y ∈ x.1.2.1.zip x.1.2.2, Floating.eq y.1 y.2 = false ∧ x.1.1 ≠ 0 ∧
      Floating.eq y.1 Floating.zero = false) False j (j.comparerDurees x) := by
  unfold comparerDurees
  refine (Constat.foldl_zipIdx (P := fun y => Floating.eq y.1 y.2 = false ∧ x.1.1 ≠ 0 ∧
    Floating.eq y.1 Floating.zero = false) (Q := fun _ => False) ?_ _ j).congr Iff.rfl (by simp)
  intro j y
  exact .ite_signaler j rfl

/-- What the comparison prints. -/
theorem constat_comparer (c : Config F) (temps tempsLog : List (List F)) :
    Constat ((∃ x ∈ c.nbProduit.zip (temps.zip tempsLog), ∃ y ∈ x.2.1.zip x.2.2,
        Floating.eq y.1 y.2 = false ∧ x.1 ≠ 0 ∧ Floating.eq y.1 Floating.zero = false) ∨
      ∃ x ∈ c.nbProduit.zip (j.nbProduitNew.zip j.nbProduitLog),
        x.1 ≠ x.2.1 ∨ x.1 ≠ x.2.2 ∧ x.1 ≠ 0) False j (j.comparer c temps tempsLog) := by
  unfold comparer
  have hdurees := (Controle.foldl (c.nbProduit.zip (temps.zip tempsLog)).zipIdx
    (fun j x _ => comparerDurees_controle j x) j).eq
  have hnew := congrArg Journal.nbProduitNew hdurees
  have hlog := congrArg Journal.nbProduitLog hdurees
  dsimp only at hnew hlog ⊢
  rw [hnew, hlog]
  refine (Constat.trans (Constat.foldl_zipIdx (Q := fun _ => False) ?_ _ j)
    (Constat.foldl_zipIdx (Q := fun _ => False) constat_comparerNombres _ _)).congr Iff.rfl (by simp)
  exact fun j x => constat_comparerDurees j x

end Journal

/-! ## What the log says -/

/-- The task fields that the empty evacuations since the last product left. -/
def enAttente (lus : List Str) : List Str :=
  lus.foldl (fun attente line =>
    if EstLigne "Sortie" 0 line then attente ++ champsTaches (champs line)
    else if identifiant line = "Sortie".toList then []
    else attente) []

/-- The task fields that a product is judged on. -/
def champsJuges (lus : List Str) (line : Str) : List Str :=
  enAttente lus ++ champsTaches (champs line)

/-- The task of a field is there and is finished. -/
def TacheAchevee (champ : Str) : Prop := chiffre champ 0 ≠ .ok 0 ∧ chiffre champ 1 = .ok 3

/-- The product of a line has the subscript of `p`; the one of product 0 is the last. -/
def EstCompte (ID : String) (p : ℤ) (line : Str) : Prop :=
  identifiant line = ID.toList ∧ (produitDe line).map (normaliser 6) = .ok p

instance (ID : String) (p : ℤ) (line : Str) : Decidable (EstCompte ID p line) :=
  inferInstanceAs (Decidable (_ ∧ _))

/-- How many products that came in are counted for `p`. -/
def nombreComptes (p : ℤ) (Log : List Str) : ℕ := Log.countP fun l => EstCompte "NouveauProduit" p l

/-- A product that leaves and is compared: not more of them left than were ordered. -/
structure Jugee (c : Config F) (lus : List Str) (p : ℤ) (line : Str) : Prop where
  sortie : EstLigne "Sortie" p line
  produit : p ≠ 0
  commandee : ∃ n, c.nbProduit[(p - 1).toNat]? = some n ∧ nombreLignes "Sortie" p lus < n

/-- Its tasks are those of the configuration. -/
def TachesAttendues (c : Config F) (lus : List Str) (p : ℤ) (line : Str) : Prop :=
  ∃ taches, (champsJuges lus line).mapM (fun champ => chiffre champ 0) = .ok taches ∧
    c.production[(p - 1).toNat]? = some (p :: completer taches)

/-- A line that fails the log. -/
inductive LigneFautive (c : Config F) (lus : List Str) (line : Str) : Prop
  | erreur (h : EstErreur line)
  | apparition (p n : ℤ) (h : EstCompte "NouveauProduit" p line)
      (hn : c.nbProduit[(p - 1).toNat]? = some n) (hcommande : n ≠ 0) (htype : typeDe line ≠ .ok 4)
  | vide (h : EstLigne "Sortie" 0 line) (hn : c.nbProduit[5]? = some 0)
  | base (p : ℤ) (h : Jugee c lus p line) (htype : typeDe line ≠ .ok 4)
  | taches (p : ℤ) (h : Jugee c lus p line) (hlues : ¬TachesAttendues c lus p line)

/-- A product leaves with a task that is not finished; the last field is not looked at. -/
def LigneInachevee (c : Config F) (lus : List Str) (line : Str) : Prop :=
  ∃ p, Jugee c lus p line ∧ ∃ champ ∈ (champsJuges lus line).dropLast, ¬TacheAchevee champ

/-- What the variables hold once some lines are read. -/
structure Memoire (lus : List Str) (j : Journal F) : Prop where
  taille : j.nbProduitNew.length = 6
  nouveaux : ∀ p, 1 ≤ p → p ≤ 6 → j.nbProduitNew[(p - 1).toNat]? = some (nombreComptes p lus : ℤ)
  sortis : ∀ p, 1 ≤ p → p ≤ 6 →
    j.nbProduitLog[(p - 1).toNat]? = some (nombreLignes "Sortie" p lus : ℤ)
  DList : j.DList = enAttente lus
  D : remplirD Journal.videD j.DList = .ok j.D

/-- Rows that are filled from some fields are filled again from them and others. -/
theorem remplirD_append {D D' : List (ℤ × ℤ)} {l : List Str} (h : remplirD D l = .ok D')
    (l' : List Str) : remplirD D' (l ++ l') = remplirD D (l ++ l') := by
  induction l generalizing D D' with
  | nil =>
    cases D <;> cases h <;> rfl
  | cons champ l ih =>
    cases D with
    | nil =>
      obtain ⟨n, -, h⟩ := bind_eq_ok.1 h
      cases h
    | cons d D =>
      obtain ⟨numero, hn, h⟩ := bind_eq_ok.1 h
      obtain ⟨type, ht, h⟩ := bind_eq_ok.1 h
      obtain ⟨D₁, hD₁, h⟩ := bind_eq_ok.1 h
      cases h
      -- a type that is not read again is the one that was kept
      have htype : chiffreType numero champ type = .ok type := by
        unfold chiffreType at ht ⊢
        split_ifs at ht ⊢
        · exact ht
        · rfl
      rw [List.cons_append, remplirD, remplirD, hn, ok_bind, ok_bind, htype, ht, ok_bind, ok_bind,
        ih hD₁]

/-- The types that are not those of finished tasks. -/
theorem types_remplirD {D D' : List (ℤ × ℤ)} {l : List Str} (hD : ∀ d ∈ D, d.2 = 0)
    (h : remplirD D l = .ok D') {n : ℕ} (hn : n ≤ l.length) :
    (∃ x ∈ D'.take n, x.2 ≠ 3) ↔ ∃ champ ∈ l.take n, ¬TacheAchevee champ := by
  induction l generalizing D D' n with
  | nil =>
    have hn₀ : n = 0 := by simpa using hn
    rw [hn₀, List.take_zero, List.take_zero]
    simp
  | cons champ l ih =>
    cases D with
    | nil =>
      obtain ⟨k, -, h⟩ := bind_eq_ok.1 h
      cases h
    | cons d D =>
      obtain ⟨numero, hnumero, h⟩ := bind_eq_ok.1 h
      obtain ⟨type, ht, h⟩ := bind_eq_ok.1 h
      obtain ⟨D₁, hD₁, h⟩ := bind_eq_ok.1 h
      cases h
      obtain ⟨hd, hD⟩ := List.forall_mem_cons.1 hD
      cases n with
      | zero => simp
      | succ n =>
        have htype : type ≠ 3 ↔ ¬TacheAchevee champ := by
          unfold chiffreType at ht
          unfold TacheAchevee
          rw [hnumero]
          split_ifs at ht with hne
          · rw [ht]
            simp [hne]
          · cases ht
            rw [hd]
            simp [not_not.1 hne]
        rw [List.take_succ_cons, List.take_succ_cons, List.exists_mem_cons_iff,
          List.exists_mem_cons_iff, htype, ih hD hD₁ (by simpa using hn)]

theorem enAttente_snoc (lus : List Str) (line : Str) : enAttente (lus ++ [line]) =
    if EstLigne "Sortie" 0 line then enAttente lus ++ champsTaches (champs line)
    else if identifiant line = "Sortie".toList then []
    else enAttente lus := by
  unfold enAttente
  rw [List.foldl_append]
  rfl

theorem nombreComptes_snoc (p : ℤ) (lus : List Str) (line : Str) : nombreComptes p (lus ++ [line]) =
    nombreComptes p lus + if EstCompte "NouveauProduit" p line then 1 else 0 := by
  unfold nombreComptes
  simp [List.countP_append, List.countP_cons]

theorem estCompte_iff {ID : String} {line : Str} {P : ℤ} (hID : identifiant line = ID.toList)
    (hP : produitDe line = .ok P) (p : ℤ) : EstCompte ID p line ↔ normaliser 6 P = p := by
  unfold EstCompte
  rw [hP]
  simp [hID, Except.map]

theorem Jugee.eq {c : Config F} {lus : List Str} {p q : ℤ} {line : Str} (h : Jugee c lus p line)
    (hq : produitDe line = .ok q) : p = q := Except.ok.inj (h.sortie.2.symm.trans hq)

/-! ## One line -/

section

variable {c : Config F} {lus : List Str} {line : Str} {p : ℤ}

/-- A line under another identifier is faulty when it reports an error of the cell. -/
theorem ligneFautive_autre (h₁ : identifiant line ≠ "NouveauProduit".toList)
    (h₂ : identifiant line ≠ "Sortie".toList) : LigneFautive c lus line ↔ EstErreur line := by
  constructor
  · intro h
    cases h with
    | erreur h => exact h
    | apparition p n h => exact absurd h.1 h₁
    | vide h => exact absurd h.1 h₂
    | base p h => exact absurd h.sortie.1 h₂
    | taches p h => exact absurd h.sortie.1 h₂
  · exact .erreur

theorem not_ligneInachevee (h : identifiant line ≠ "Sortie".toList) : ¬LigneInachevee c lus line :=
  fun ⟨_, hjugee, _⟩ => h hjugee.sortie.1

theorem ligneFautive_nouveauProduit (hID : identifiant line = "NouveauProduit".toList)
    {P pType attendus : ℤ} (hP : produitDe line = .ok P) (htype : typeDe line = .ok pType)
    (hatt : c.nbProduit[(normaliser 6 P - 1).toNat]? = some attendus) :
    LigneFautive c lus line ↔ pType ≠ 4 ∧ attendus ≠ 0 := by
  obtain ⟨hsortie, herreur⟩ := identifiant_nouveau_ne hID
  constructor
  · intro h
    cases h with
    | erreur h => exact absurd h herreur
    | apparition p n h hn hcommande ht =>
      rw [← (estCompte_iff hID hP p).1 h, hatt, Option.some_inj] at hn
      rw [htype] at ht
      exact ⟨fun h4 => ht (congrArg Except.ok h4), hn ▸ hcommande⟩
    | vide h => exact absurd h.1 hsortie
    | base p h => exact absurd h.sortie.1 hsortie
    | taches p h => exact absurd h.sortie.1 hsortie
  · rintro ⟨h4, hcommande⟩
    refine .apparition _ attendus ((estCompte_iff hID hP _).2 rfl) hatt hcommande ?_
    rw [htype]
    exact fun h => h4 (Except.ok.inj h)

theorem ligneFautive_vide (hvide : EstLigne "Sortie" 0 line) {attendus : ℤ}
    (hatt : c.nbProduit[5]? = some attendus) : LigneFautive c lus line ↔ attendus = 0 := by
  obtain ⟨hnouveau, herreur⟩ := identifiant_sortie_ne hvide.1
  constructor
  · intro h
    cases h with
    | erreur h => exact absurd h herreur
    | apparition p n h => exact absurd h.1 hnouveau
    | vide h hn => exact Option.some.inj (hatt.symm.trans hn)
    | base p h => exact absurd (h.eq hvide.2) h.produit
    | taches p h => exact absurd (h.eq hvide.2) h.produit
  · rintro rfl
    exact .vide hvide hatt

/-- The product of the line is compared while it is ordered and not too many of it left. -/
theorem jugee_iff (hest : EstLigne "Sortie" p line) (hp : p ≠ 0) {attendus : ℤ}
    (hatt : c.nbProduit[(p - 1).toNat]? = some attendus) :
    Jugee c lus p line ↔ attendus ≠ 0 ∧ (nombreLignes "Sortie" p lus : ℤ) + 1 ≤ attendus := by
  constructor
  · intro h
    obtain ⟨n, hn, hlt⟩ := h.commandee
    obtain rfl : n = attendus := Option.some.inj (hn.symm.trans hatt)
    omega
  · rintro ⟨-, hle⟩
    exact ⟨hest, hp, attendus, hatt, by omega⟩

theorem ligneFautive_produit (hest : EstLigne "Sortie" p line) (hp : p ≠ 0) {pType : ℤ}
    (htype : typeDe line = .ok pType) :
    LigneFautive c lus line ↔ Jugee c lus p line ∧ (¬TachesAttendues c lus p line ∨ pType ≠ 4) := by
  obtain ⟨hnouveau, herreur⟩ := identifiant_sortie_ne hest.1
  constructor
  · intro h
    cases h with
    | erreur h => exact absurd h herreur
    | apparition p n h => exact absurd h.1 hnouveau
    | vide h => exact absurd (Except.ok.inj (hest.2.symm.trans h.2)) hp
    | base q h ht =>
      obtain rfl := h.eq hest.2
      rw [htype] at ht
      exact ⟨h, .inr fun h4 => ht (congrArg Except.ok h4)⟩
    | taches q h hlues =>
      obtain rfl := h.eq hest.2
      exact ⟨h, .inl hlues⟩
  · rintro ⟨h, hlues | h4⟩
    · exact .taches p h hlues
    · refine .base p h ?_
      rw [htype]
      exact fun h => h4 (Except.ok.inj h)

theorem ligneInachevee_iff (hest : EstLigne "Sortie" p line) : LigneInachevee c lus line ↔
    Jugee c lus p line ∧ ∃ champ ∈ (champsJuges lus line).dropLast, ¬TacheAchevee champ := by
  constructor
  · rintro ⟨q, h, htaches⟩
    obtain rfl := h.eq hest.2
    exact ⟨h, htaches⟩
  · rintro ⟨h, htaches⟩
    exact ⟨p, h, htaches⟩

variable {j j' : Journal F}

theorem memoire_initial [Floating F] : Memoire [] (Journal.initial : Journal F) where
  taille := rfl
  nouveaux p h₁ h₂ := by
    show (List.replicate 6 (0 : ℤ))[_]? = _
    rw [List.getElem?_replicate, if_pos (by omega)]
    rfl
  sortis p h₁ h₂ := by
    show (List.replicate 6 (0 : ℤ))[_]? = _
    rw [List.getElem?_replicate, if_pos (by omega)]
    rfl
  DList := rfl
  D := rfl

/-- A line that is not about a product. -/
theorem Memoire.neutre (h : Memoire lus j) (hnew : identifiant line ≠ "NouveauProduit".toList)
    (hsortie : identifiant line ≠ "Sortie".toList)
    (heq : j' = { j with
      test := j'.test
      affichage := j'.affichage
      verifConfigLog := j'.verifConfigLog }) : Memoire (lus ++ [line]) j' := by
  have hn : ∀ p, nombreComptes p (lus ++ [line]) = nombreComptes p lus := by
    intro p
    rw [nombreComptes_snoc, if_neg fun h => hnew h.1, Nat.add_zero]
  have hs := fun p => nombreLignes_snoc_autre hsortie p lus
  rw [heq]
  refine ⟨h.taille, ?_, ?_, ?_, h.D⟩
  · simpa only [hn] using h.nouveaux
  · simpa only [hs] using h.sortis
  · rw [enAttente_snoc, if_neg fun h => hsortie h.1, if_neg hsortie]
    exact h.DList

variable [Floating F]

/-- A product that comes in. -/
theorem constat_nouveauProduit (h : Memoire lus j) (hnb : c.nbProduit.length = 6)
    (hID : identifiant line = "NouveauProduit".toList) (hlu : NouveauProduitLu c j line j') :
    Constat (LigneFautive c lus line) (LigneInachevee c lus line) j j' ∧
      Memoire (lus ++ [line]) j' := by
  obtain ⟨hsortie, -⟩ := identifiant_nouveau_ne hID
  obtain ⟨P, pType, n, attendus, time, nbProduitNew, hP, htype, -, hn, hset, hatt, rfl⟩ := hlu
  have hrange : 1 ≤ normaliser 6 P ∧ normaliser 6 P ≤ 6 := by
    have hitem := range_of_item hatt
    rw [hnb] at hitem
    exact normaliser_iff.2 hitem
  -- the subscripts, counted from the start of the tables
  have hatt : item c.nbProduit (normaliser 6 P - 1) = .ok attendus :=
    (item_normaliser hnb hrange).trans hatt
  have hn : item j.nbProduitNew (normaliser 6 P - 1) = .ok n :=
    (item_normaliser h.taille hrange).trans hn
  have hset : setItem j.nbProduitNew (normaliser 6 P - 1) (n + 1) = .ok nbProduitNew :=
    (setItem_normaliser h.taille hrange _).trans hset
  have hatt := getElem?_of_item (by omega) hatt
  have hlen := (eq_set_of_setItem (by omega) hset).2
  obtain ⟨-, hnouveaux⟩ := compteur_incrementer h.nouveaux hrange.1 hrange.2 hn hset
  have hest := estCompte_iff hID hP
  have hentree : Constat False False j { j with
      nbProduitNew
      produitEntree := j.produitEntree ++ [(P, time)] } := .of_eq rfl
  have hconstat := Journal.constat_verifierApparition
    { j with nbProduitNew, produitEntree := j.produitEntree ++ [(P, time)] } attendus (n + 1) time P
    pType
  refine ⟨(hentree.trans hconstat).congr ?_ ?_, ?_⟩
  · rw [false_or, ligneFautive_nouveauProduit hID hP htype hatt]
  · rw [false_or]
    exact iff_of_false not_false (not_ligneInachevee hsortie)
  · have hs := fun p => nombreLignes_snoc_autre hsortie p lus
    rw [(Journal.verifierApparition_controle _ _ _ _ _ _).eq]
    refine ⟨?_, ?_, ?_, ?_, h.D⟩
    · exact ((congrArg List.length hlen).trans List.length_set).trans h.taille
    · simpa only [nombreComptes_snoc, hest] using hnouveaux
    · simpa only [hs] using h.sortis
    · rw [enAttente_snoc, if_neg fun h => hsortie h.1, if_neg hsortie]
      exact h.DList

omit [Floating F] in
/-- The tasks that are compared with the configuration. -/
theorem tachesAttendues_iff {D : List (ℤ × ℤ)} {attendu : List ℤ}
    (hD : remplirD Journal.videD (champsJuges lus line) = .ok D)
    (hattendu : c.production[(p - 1).toNat]? = some attendu) :
    TachesAttendues c lus p line ↔ p :: (D.take maxTaches).map Prod.fst = attendu := by
  obtain ⟨taches, htaches, hfinal⟩ := taches_remplirD hD
  unfold TachesAttendues
  rw [hattendu, hfinal]
  constructor
  · rintro ⟨taches', htaches', heq⟩
    obtain rfl : taches = taches' := Except.ok.inj (htaches.symm.trans htaches')
    exact (Option.some.inj heq).symm
  · rintro rfl
    exact ⟨taches, htaches, rfl⟩

/-- What a `Sortie` line reads. -/
theorem Memoire.analyserSortie (h : Memoire lus j) {s : Sortie F}
    (hs : j.analyserSortie (champs line) = .ok s) : s.DList = champsJuges lus line ∧
      remplirD Journal.videD (champsJuges lus line) = .ok s.D := by
  obtain ⟨-, -, -, hDList, hremplir⟩ := analyserSortie_produit hs
  have hchamps : s.DList = champsJuges lus line := by
    rw [hDList, h.DList]
    rfl
  refine ⟨hchamps, ?_⟩
  rw [← hchamps, hDList, ← remplirD_append h.D, ← hDList]
  exact hremplir

/-- A `Sortie` line. -/
theorem constat_sortie (h : Memoire lus j) (hnb : c.nbProduit.length = 6)
    (hID : identifiant line = "Sortie".toList) (hlue : SortieLue c j line j') :
    Constat (LigneFautive c lus line) (LigneInachevee c lus line) j j' ∧
      Memoire (lus ++ [line]) j' := by
  obtain ⟨hnouveau, -⟩ := identifiant_sortie_ne hID
  have hn : ∀ p, nombreComptes p (lus ++ [line]) = nombreComptes p lus := by
    intro p
    rw [nombreComptes_snoc, if_neg fun h => hnouveau h.1, Nat.add_zero]
  cases hlue with
  | produit s hs hP n attendus attendu nbProduitLog r duree produitDuree hitem hset hr hd hduree hatt
      hattendu heq =>
    obtain ⟨hproduit, htype, -⟩ := analyserSortie_produit hs
    obtain ⟨hDList, hD⟩ := h.analyserSortie hs
    have hest : EstLigne "Sortie" s.P line := ⟨hID, hproduit⟩
    have hP₁ : 1 ≤ s.P := by
      have hnonneg := nonneg_of_produitDe hproduit
      omega
    have hP₆ : s.P ≤ 6 := by
      have hlt := lt_of_item hatt
      omega
    have hatt := getElem?_of_item (by omega) hatt
    have hattendu := getElem?_of_item (by omega) hattendu
    obtain ⟨rfl, hsortis⟩ := compteur_incrementer h.sortis hP₁ hP₆ hitem hset
    have hconstat := Journal.constat_verifierSortie
      { j with nbProduitLog, produitEntree := r.2, produitDuree } attendus
      (nombreLignes "Sortie" s.P lus + 1) attendu (s.P :: (s.D.take maxTaches).map Prod.fst) s
    have hcontrole := Journal.verifierSortie_controle
      { j with nbProduitLog, produitEntree := r.2, produitDuree } attendus
      (nombreLignes "Sortie" s.P lus + 1) attendu (s.P :: (s.D.take maxTaches).map Prod.fst) s
    rw [heq]
    generalize Journal.verifierSortie _ _ _ _ _ _ = j₁ at hconstat hcontrole ⊢
    have hdebut : Constat False False j { j with nbProduitLog, produitEntree := r.2, produitDuree } :=
      .of_eq rfl
    have hfin : Constat False False j₁ { j₁ with D := Journal.videD, DList := [] } := .of_eq rfl
    refine ⟨((hdebut.trans hconstat).trans hfin).congr ?_ ?_, ?_⟩
    · rw [false_or, or_false, ligneFautive_produit hest hP (htype hP), jugee_iff hest hP hatt,
        tachesAttendues_iff hD hattendu]
    · rw [false_or, or_false, ligneInachevee_iff hest, jugee_iff hest hP hatt, List.dropLast_eq_take,
        ← hDList, types_remplirD (by decide) (hDList ▸ hD) (Nat.sub_le _ _)]
    · rw [hcontrole.eq]
      refine ⟨h.taille, ?_, ?_, ?_, rfl⟩
      · simpa only [hn] using h.nouveaux
      · simpa only [nombreLignes_snoc_de hID hproduit] using hsortis
      · rw [enAttente_snoc, if_neg fun h => hP (Except.ok.inj (hproduit.symm.trans h.2)), if_pos hID]
  | vide s hs hP attendus hatt heq =>
    obtain ⟨hproduit, -⟩ := analyserSortie_produit hs
    obtain ⟨hDList, hD⟩ := h.analyserSortie hs
    rw [hP] at hproduit hatt
    have hvide : EstLigne "Sortie" 0 line := ⟨hID, hproduit⟩
    -- the subscript is the one of the last product
    rw [← item_normaliser hnb (by decide)] at hatt
    have hatt := getElem?_of_item (by decide) hatt
    have htampons : Constat False False j { j with D := s.D, DList := s.DList } := .of_eq rfl
    have hconstat := Constat.ite_signaler (P := attendus = 0) { j with D := s.D, DList := s.DList }
      (m := .evacuationVide) rfl
    have hcontrole := Controle.ite_signaler (P := attendus = 0) { j with D := s.D, DList := s.DList }
      .evacuationVide
    have hs : ∀ p, 1 ≤ p → nombreLignes "Sortie" p (lus ++ [line]) = nombreLignes "Sortie" p lus := by
      intro p hp
      rw [nombreLignes_snoc_de hID hproduit, if_neg (by omega), Nat.add_zero]
    rw [heq]
    refine ⟨(htampons.trans hconstat).congr ?_ ?_, ?_⟩
    · rw [false_or, ligneFautive_vide hvide hatt]
    · rw [false_or, ligneInachevee_iff hvide]
      exact iff_of_false not_false fun h => h.1.produit rfl
    · rw [hcontrole.eq]
      refine ⟨h.taille, ?_, ?_, ?_, ?_⟩
      · simpa only [hn] using h.nouveaux
      · intro p hp₁ hp₂
        rw [hs p hp₁]
        exact h.sortis p hp₁ hp₂
      · rw [enAttente_snoc, if_pos hvide]
        exact hDList
      · exact (congrArg _ hDList).trans hD

/-- One turn of the loop. -/
theorem constat_lireLigne (h : Memoire lus j) (hnb : c.nbProduit.length = 6)
    (hok : Journal.lireLigne c j line = .ok j') :
    Constat (LigneFautive c lus line) (LigneInachevee c lus line) j j' ∧
      Memoire (lus ++ [line]) j' := by
  cases Journal.lireLigne_inv hok with
  | erreur hID m hm poste heq =>
    obtain ⟨-, h₂, h₃⟩ := identifiant_erreur_ne hID
    rw [heq]
    refine ⟨(Constat.signaler j (Journal.echoue_of_mem hm poste)).congr ?_ ?_, h.neutre h₂ h₃ rfl⟩
    · exact iff_of_true trivial (.erreur hID)
    · exact iff_of_false not_false (not_ligneInachevee h₃)
  | tempoT hID hok =>
    obtain ⟨h₂, h₃, herreur⟩ := identifiant_tempoT_ne hID
    obtain ⟨x, rfl⟩ := Journal.lireTempoT_inv hok
    refine ⟨(Constat.of_eq rfl).congr ?_ ?_, h.neutre h₂ h₃ rfl⟩
    · exact iff_of_false not_false fun h => herreur ((ligneFautive_autre h₂ h₃).1 h)
    · exact iff_of_false not_false (not_ligneInachevee h₃)
  | nouveauProduit hID hlu => exact constat_nouveauProduit h hnb hID hlu
  | sortie hID hlue => exact constat_sortie h hnb hID hlue
  | autre hID h₁ h₂ h₃ heq =>
    subst heq
    refine ⟨(Constat.of_eq rfl).congr ?_ ?_, h.neutre h₂ h₃ rfl⟩
    · exact iff_of_false not_false fun h => hID ((ligneFautive_autre h₂ h₃).1 h)
    · exact iff_of_false not_false (not_ligneInachevee h₃)

/-! ## The log -/

/-- One of the lines of the log, after those before it. -/
def UneLigne (R : List Str → Str → Prop) (Log : List Str) : Prop :=
  ∃ lus line, lus ++ [line] <+: Log ∧ R lus line

omit [Floating F] in
theorem uneLigne_snoc {R : List Str → Str → Prop} {Log : List Str} :
    UneLigne R (Log ++ [line]) ↔ UneLigne R Log ∨ R Log line := by
  constructor
  · rintro ⟨lus, l, hlus, h⟩
    rcases List.prefix_concat_iff.1 hlus with heq | hlus
    · obtain ⟨rfl, hl⟩ := List.append_inj' heq rfl
      cases hl
      exact .inr h
    · exact .inl ⟨lus, l, hlus, h⟩
  · rintro (⟨lus, l, hlus, h⟩ | h)
    · exact ⟨lus, l, hlus.trans (List.prefix_append _ _), h⟩
    · exact ⟨Log, line, List.prefix_rfl, h⟩

/-- The loop over the log. -/
theorem constat_lireLog (hnb : c.nbProduit.length = 6) {Log : List Str}
    (hok : Journal.lireLog c .initial Log = .ok j) :
    Constat (UneLigne (LigneFautive c) Log) (UneLigne (LigneInachevee c) Log) .initial j ∧
      Memoire Log j := by
  induction Log using List.reverseRecOn generalizing j with
  | nil =>
    cases hok
    have hrien : ∀ R, ¬UneLigne R [] := fun R ⟨lus, l, hlus, _⟩ => by simp at hlus
    refine ⟨(Constat.of_eq rfl).congr ?_ ?_, memoire_initial⟩
    · exact iff_of_false not_false (hrien _)
    · exact iff_of_false not_false (hrien _)
  | append_singleton Log line ih =>
    rw [lireLog_snoc] at hok
    obtain ⟨j₁, h₁, hok⟩ := bind_eq_ok.1 hok
    obtain ⟨hconstat, hmemoire⟩ := ih h₁
    obtain ⟨hligne, hmemoire'⟩ := constat_lireLigne hmemoire hnb hok
    exact ⟨(hconstat.trans hligne).congr uneLigne_snoc.symm uneLigne_snoc.symm, hmemoire'⟩

/-! ## The comparison -/

/-- The duration that the configuration gives for a task. -/
def dureeConfiguree (c : Config F) (p d : ℤ) : F := (derniere c.verifConfig p d).getD Floating.zero

/-- The duration that the log gives for it. -/
def dureeLue (Log : List Str) (p d : ℤ) : F := (derniereEcrite Log p d).getD Floating.zero

/-- The duration of a task of an ordered product is not the one of the configuration. -/
structure DureeFausse (c : Config F) (Log : List Str) (p d n : ℤ) : Prop where
  table : DansTable p d
  commande : c.nbProduit[(p - 1).toNat]? = some n ∧ n ≠ 0
  configuree : Floating.eq (dureeConfiguree c p d) Floating.zero = false
  differe : Floating.eq (dureeConfiguree c p d) (dureeLue Log p d) = false

omit [Floating F] in
/-- A product came in or left not as often as it is ordered. -/
structure NombreFaux (c : Config F) (Log : List Str) (p n : ℤ) : Prop where
  produit : 1 ≤ p ∧ p ≤ 6
  commande : c.nbProduit[(p - 1).toNat]? = some n
  differe : n ≠ nombreComptes p Log ∨ n ≠ nombreLignes "Sortie" p Log ∧ n ≠ 0

/-- What makes a log fail. -/
inductive Fautif (c : Config F) (Log : List Str) : Prop
  | ligne (h : UneLigne (LigneFautive c) Log)
  | duree (p d n : ℤ) (h : DureeFausse c Log p d n)
  | nombre (p n : ℤ) (h : NombreFaux c Log p n)

omit [Floating F] in
theorem nombres_iff (hnb : c.nbProduit.length = 6) {Log : List Str} (h : Memoire Log j) :
    (∃ x ∈ c.nbProduit.zip (j.nbProduitNew.zip j.nbProduitLog),
      x.1 ≠ x.2.1 ∨ x.1 ≠ x.2.2 ∧ x.1 ≠ 0) ↔ ∃ p n, NombreFaux c Log p n := by
  constructor
  · rintro ⟨⟨n, nouveaux, sortis⟩, hx, hfaux⟩
    obtain ⟨i, hi⟩ := List.getElem?_of_mem hx
    rw [List.getElem?_zip_eq_some, List.getElem?_zip_eq_some] at hi
    obtain ⟨hn, hnouveaux, hsortis⟩ := hi
    have hlt := (List.getElem?_eq_some_iff.1 hn).1
    have hplace : ((i : ℤ) + 1 - 1).toNat = i := by omega
    have hnew := h.nouveaux (i + 1) (by omega) (by omega)
    have hlog := h.sortis (i + 1) (by omega) (by omega)
    rw [hplace, hnouveaux, Option.some_inj] at hnew
    rw [hplace, hsortis, Option.some_inj] at hlog
    refine ⟨i + 1, n, by omega, ?_, ?_⟩
    · rw [hplace]
      exact hn
    · rw [← hnew, ← hlog]
      exact hfaux
  · rintro ⟨p, n, hp, hn, hfaux⟩
    refine ⟨(n, (nombreComptes p Log : ℤ), (nombreLignes "Sortie" p Log : ℤ)), ?_, hfaux⟩
    apply List.mem_of_getElem? (i := (p - 1).toNat)
    rw [List.getElem?_zip_eq_some, List.getElem?_zip_eq_some]
    exact ⟨hn, h.nouveaux p hp.1 hp.2, h.sortis p hp.1 hp.2⟩

theorem durees_iff {Log : List Str} {temps tempsLog : List (List F)} (hforme : Rectangle temps)
    (hcases : ∀ p d, DansTable p d → caseDe temps p d = some (dureeConfiguree c p d))
    (hcasesLog : ∀ p d, DansTable p d → caseDe tempsLog p d = some (dureeLue Log p d)) :
    (∃ x ∈ c.nbProduit.zip (temps.zip tempsLog), ∃ y ∈ x.2.1.zip x.2.2,
      Floating.eq y.1 y.2 = false ∧ x.1 ≠ 0 ∧ Floating.eq y.1 Floating.zero = false) ↔
      ∃ p d n, DureeFausse c Log p d n := by
  constructor
  · rintro ⟨⟨n, r, r'⟩, hx, ⟨T, T'⟩, hy, hdiff, hn₀, hconfig⟩
    obtain ⟨i, hi⟩ := List.getElem?_of_mem hx
    rw [List.getElem?_zip_eq_some, List.getElem?_zip_eq_some] at hi
    obtain ⟨hn, hr, hr'⟩ := hi
    obtain ⟨k, hk⟩ := List.getElem?_of_mem hy
    rw [List.getElem?_zip_eq_some] at hk
    have hlti := (List.getElem?_eq_some_iff.1 hr).1
    have hltk : k < r.length := (List.getElem?_eq_some_iff.1 hk.1).1
    have hlen := hforme.1
    have hlenr : r.length = 8 := hforme.2 i r hr
    -- the place of a row is that of its product, and so for the columns
    have hplace : ((i : ℤ) + 1 - 1).toNat = i := by omega
    have hplace' : ((k : ℤ) + 1 - 1).toNat = k := by omega
    have htable : DansTable (i + 1) (k + 1) := ⟨by omega, by omega⟩
    have hT := hcases _ _ htable
    have hT' := hcasesLog _ _ htable
    unfold caseDe at hT hT'
    rw [hplace, hplace', hr, Option.bind_some, hk.1, Option.some_inj] at hT
    rw [hplace, hplace', hr', Option.bind_some, hk.2, Option.some_inj] at hT'
    refine ⟨i + 1, k + 1, n, htable, ⟨?_, hn₀⟩, ?_, ?_⟩
    · rw [hplace]
      exact hn
    · rw [← hT]
      exact hconfig
    · rw [← hT, ← hT']
      exact hdiff
  · rintro ⟨p, d, n, htable, ⟨hn, hn₀⟩, hconfig, hdiff⟩
    obtain ⟨r, hr, hT⟩ := Option.bind_eq_some_iff.1 (hcases p d htable)
    obtain ⟨r', hr', hT'⟩ := Option.bind_eq_some_iff.1 (hcasesLog p d htable)
    refine ⟨(n, r, r'), ?_, (dureeConfiguree c p d, dureeLue Log p d), ?_, hdiff, hn₀, hconfig⟩
    · apply List.mem_of_getElem? (i := (p - 1).toNat)
      rw [List.getElem?_zip_eq_some, List.getElem?_zip_eq_some]
      exact ⟨hn, hr, hr'⟩
    · exact List.mem_of_getElem? (List.getElem?_zip_eq_some.2 ⟨hT, hT'⟩)

/-- What the script prints from the log on. -/
theorem constat_checker {contenu Log : List Str} (hok : checker contenu Log = .ok (c, j))
    (hconfig : c.erreurConfig = 0) : c.affichage = [] ∧
      Constat (Fautif c Log) (UneLigne (LigneInachevee c) Log) .initial j := by
  obtain ⟨temps, tempsLog, j₁, hc, htemps, hj, htempsLog, rfl⟩ := checker_inv hok hconfig
  obtain ⟨-, hds, heq⟩ := Config.lireLignes_inv hc hconfig
  have hnb : c.nbProduit.length = 6 := Config.length_nbProduit hc hconfig
  -- the durations of the configuration
  have hverif : c.verifConfig = (declarations (F := F) contenu).flatMap Declaration.temps := by
    rw [heq, Config.verifConfig_foldl_declarer]
    rfl
  obtain ⟨temps', htemps', hforme, hcases⟩ := remplirTemps_ok (hverif ▸ dansTable_of_temps hds)
  obtain rfl : temps = temps' := Except.ok.inj (htemps.symm.trans htemps')
  have hcasesLog := remplirTemps_lireLog hj htempsLog
  obtain ⟨hconstat, hmemoire⟩ := constat_lireLog hnb hj
  have hmoyennes : Constat False False j₁ j₁.moyennes := .of_eq rfl
  have hcomparer := Journal.constat_comparer j₁.moyennes c temps tempsLog
  rw [durees_iff hforme hcases hcasesLog, nombres_iff (j := j₁.moyennes) hnb
    ⟨hmemoire.taille, hmemoire.nouveaux, hmemoire.sortis, hmemoire.DList, hmemoire.D⟩] at hcomparer
  refine ⟨?_, (((hconstat.trans hmoyennes).trans hcomparer).trans
    (Journal.constat_conclure _ c)).congr ?_ ?_⟩
  · rw [heq, Config.affichage_foldl_declarer]
    rfl
  · rw [or_false, or_false]
    constructor
    · rintro (h | ⟨p, d, n, h⟩ | ⟨p, n, h⟩)
      · exact .ligne h
      · exact .duree p d n h
      · exact .nombre p n h
    · intro h
      cases h with
      | ligne h => exact .inl h
      | duree p d n h => exact .inr (.inl ⟨p, d, n, h⟩)
      | nombre p n h => exact .inr (.inr ⟨p, n, h⟩)
  · rw [or_false, or_false, or_false]

/-- **Printed errors and verdict**: a log fails whenever an error is printed, and only then, exactly
when a product that leaves with an unfinished task comes with another error. -/
theorem erreurs_verdict_iff {contenu Log : List Str} (hok : checker contenu Log = .ok (c, j))
    (hconfig : c.erreurConfig = 0) :
    ((∃ m ∈ c.affichage ++ j.affichage, m.EstErreur) ↔ j.test = 0) ↔
      (UneLigne (LigneInachevee c) Log → Fautif c Log) := by
  obtain ⟨hvide, lignes, haffichage, hP, hQ⟩ := constat_checker hok hconfig
  have htest := test_eq_ite hok hconfig
  have hechoue : j.test = 0 ↔ Fautif c Log := by
    rw [htest, haffichage, ← hP]
    simp [Journal.initial]
  rw [hvide, haffichage, hechoue, ← hP, ← hQ]
  simp only [Journal.initial, List.nil_append, Message.estErreur_iff_or, and_or_left, exists_or]
  constructor
  · exact fun h hQ => h.1 (.inr hQ)
  · exact fun h => ⟨fun hor => hor.elim id h, .inl⟩

end

/-- The script on a log of one product, when an error is printed. -/
theorem checker_imprime {Log : List Str} {test : ℤ}
    (hverdict : (checker (F := ℚ) configUnProduit Log).map (fun x =>
      (x.1.erreurConfig, x.2.test, x.2.affichage.any fun m => !m.recapitule)) = .ok (0, test, true)) :
    ∃ (c : Config ℚ) (j : Journal ℚ), checker configUnProduit Log = .ok (c, j) ∧ c.erreurConfig = 0 ∧
      j.test = test ∧ ∃ m ∈ j.affichage, m.EstErreur := by
  cases hok : checker (F := ℚ) configUnProduit Log with
  | error e =>
    rw [hok] at hverdict
    cases hverdict
  | ok x =>
    rw [hok] at hverdict
    have hx := Except.ok.inj hverdict
    simp only [Prod.mk.injEq, List.any_eq_true, Bool.not_eq_true'] at hx
    obtain ⟨hconfig, htest, m, hm, hrecapitule⟩ := hx
    exact ⟨x.1, x.2, rfl, hconfig, htest, m, hm, Message.estErreur_iff.2 hrecapitule⟩

/-- A product leaves before its task is finished: an error is printed, and the log passes. -/
theorem checker_inacheve : ∃ (c : Config ℚ) (j : Journal ℚ),
    checker configUnProduit logInacheve = .ok (c, j) ∧ c.erreurConfig = 0 ∧ j.test = 1 ∧
      ∃ m ∈ j.affichage, m.EstErreur := checker_imprime (by decide +kernel)

/-- The same log, then the line of a shuttle that is lost. -/
def logNavettePerdue : List Str := logInacheve ++ ["PerteNavette: 12\n".toList]

/-- The log of such a product does not pass when another line is at fault. -/
theorem checker_navettePerdue : ∃ (c : Config ℚ) (j : Journal ℚ),
    checker configUnProduit logNavettePerdue = .ok (c, j) ∧ c.erreurConfig = 0 ∧ j.test = 0 ∧
      ∃ m ∈ j.affichage, m.EstErreur := checker_imprime (by decide +kernel)

/-- In both logs a product leaves with an unfinished task; in the second one something else is
wrong. -/
theorem erreurs_verdict_inacheve : ∃ c : Config ℚ,
    (UneLigne (LigneInachevee c) logInacheve ∧ ¬Fautif c logInacheve) ∧
    UneLigne (LigneInachevee c) logNavettePerdue ∧ Fautif c logNavettePerdue := by
  obtain ⟨c, j, hok, hconfig, htest, m, hm, hERREUR⟩ := checker_inacheve
  obtain ⟨c', j', hok', -, htest', m', hm', hERREUR'⟩ := checker_navettePerdue
  -- the two runs read the same configuration
  obtain ⟨c₀, temps, -, -, -, -, -, hchecker⟩ := configValide_unProduit.distincte.execution
  have hc₀ : ∀ {Log c j}, checker (F := ℚ) configUnProduit Log = .ok (c, j) → c = c₀ := by
    intro Log c j hok
    rw [hchecker] at hok
    obtain ⟨j₁, -, hok⟩ := bind_eq_ok.1 hok
    obtain ⟨tempsLog, -, hok⟩ := bind_eq_ok.1 hok
    cases hok
    rfl
  obtain rfl : c' = c := (hc₀ hok').trans (hc₀ hok).symm
  have hpas : ¬((∃ m ∈ c'.affichage ++ j.affichage, m.EstErreur) ↔ j.test = 0) := by
    rw [htest]
    exact fun h => absurd (h.1 ⟨m, List.mem_append_right _ hm, hERREUR⟩) (by decide)
  rw [erreurs_verdict_iff hok hconfig, Classical.not_imp] at hpas
  have hfautif := (erreurs_verdict_iff hok' hconfig).1
    (iff_of_true ⟨m', List.mem_append_right _ hm', hERREUR'⟩ htest')
  have hinacheve : UneLigne (LigneInachevee c') logNavettePerdue := by
    obtain ⟨lus, line, hlus, h⟩ := hpas.1
    exact ⟨lus, line, hlus.trans (List.prefix_append _ _), h⟩
  exact ⟨c', hpas, hinacheve, hfautif hinacheve⟩

/-- **The recapitulation follows an error**: one is printed, and the verdict is right. -/
theorem erreur_puis_succes : ¬∀ (contenu Log : List Str) (c : Config ℚ) (j : Journal ℚ),
    checker contenu Log = .ok (c, j) → c.erreurConfig = 0 →
      ((∃ m ∈ c.affichage ++ j.affichage, m.EstErreur) ↔ j.test = 0) := by
  intro h
  obtain ⟨c, j, hok, hconfig, htest, m, hm, hERREUR⟩ := checker_inacheve
  have hzero := (h _ _ c j hok hconfig).1 ⟨m, List.mem_append_right _ hm, hERREUR⟩
  rw [htest] at hzero
  cases hzero

end Checker
