import Cellule.Atelier.Entrees
import Cellule.Checker.Decodage
import Cellule.Checker.Verdict

/-! # The search of the oldest entry

`while(1)` of `checker.py`, which looks for the entry of the product that leaves and supposes that
there is one. There is, in every log of the cell: no product leaves more often than it came in.
-/

namespace Checker

open Python CommandeLocale.LogManager Reactive Atelier
open Robots (Horloge nbCube)

variable {F : Type}

/-- The search succeeds when there is an entry of the product. -/
theorem sortirEntree_ok {P : ℤ} {l : List (ℤ × F)} (h : 0 < l.countP fun e => e.1 = P) :
    ∃ r, sortirEntree P l = .ok r := by
  induction l with
  | nil => simp at h
  | cons e suite ih =>
    obtain ⟨Q, entree⟩ := e
    unfold sortirEntree
    by_cases hQ : Q = P
    · rw [if_pos hQ]
      exact ⟨_, rfl⟩
    · rw [if_neg hQ]
      rw [List.countP_cons_of_neg (by simpa using hQ)] at h
      obtain ⟨r, hr⟩ := ih h
      rw [hr]
      exact ⟨_, rfl⟩

/-- The entries that are left are those of the products that came in and have not left. -/
def Entrees (lus : List Str) (j : Journal F) : Prop :=
  ∀ p, p ≠ 0 → j.produitEntree.countP (fun e => e.1 = p) + nombreLignes "Sortie" p lus =
    nombreLignes "NouveauProduit" p lus

variable [Floating F] {c : Config F} {j j' : Journal F} {lus : List Str} {line : Str}

/-- What a line does to the entries. -/
inductive LigneEntrees (line : Str) (j j' : Journal F) : Prop
  | autre (hnew : identifiant line ≠ "NouveauProduit".toList)
      (hsortie : identifiant line ≠ "Sortie".toList) (h : j'.produitEntree = j.produitEntree)
  | entree (hID : identifiant line = "NouveauProduit".toList) (P : ℤ) (time : F)
      (hP : produitDe line = .ok P) (h : j'.produitEntree = j.produitEntree ++ [(P, time)])
  | vide (hID : identifiant line = "Sortie".toList) (hP : produitDe line = .ok 0)
      (h : j'.produitEntree = j.produitEntree)
  | sortie (hID : identifiant line = "Sortie".toList) (P : ℤ) (r : F × List (ℤ × F))
      (hP : produitDe line = .ok P) (hr : sortirEntree P j.produitEntree = .ok r)
      (h : j'.produitEntree = r.2)

theorem ligneEntrees_sortie (hID : identifiant line = "Sortie".toList) (h : SortieLue c j line j') :
    LigneEntrees line j j' := by
  cases h with
  | produit s hs hP n attendus attendu nbProduitLog r duree produitDuree hn hset hr hd hduree hatt
      hattendu heq =>
    refine .sortie hID s.P r (analyserSortie_produit hs).1 hr ?_
    rw [heq]
    exact congrArg Journal.produitEntree (Journal.verifierSortie_controle _ _ _ _ _ _).eq
  | vide s hs hP attendus hatt heq =>
    have hproduit := (analyserSortie_produit hs).1
    rw [hP] at hproduit
    refine .vide hID hproduit ?_
    rw [heq]
    split_ifs <;> rfl

theorem ligneEntrees_of_lireLigne (h : Journal.lireLigne c j line = .ok j') :
    LigneEntrees line j j' := by
  cases Journal.lireLigne_inv h with
  | erreur hID m hm poste heq =>
    obtain ⟨-, h₂, h₃⟩ := identifiant_erreur_ne hID
    exact .autre h₂ h₃ ((congrArg Journal.produitEntree heq).trans rfl)
  | tempoT hID hok =>
    obtain ⟨h₂, h₃, -⟩ := identifiant_tempoT_ne hID
    obtain ⟨x, rfl⟩ := Journal.lireTempoT_inv hok
    exact .autre h₂ h₃ rfl
  | nouveauProduit hID hlu =>
    obtain ⟨P, pType, n, attendus, time, nbProduitNew, hP, -, -, -, -, -, rfl⟩ := hlu
    refine .entree hID P time hP ?_
    exact congrArg Journal.produitEntree (Journal.verifierApparition_controle _ _ _ _ _ _).eq
  | sortie hID hlue => exact ligneEntrees_sortie hID hlue
  | autre hID h₁ h₂ h₃ heq => exact .autre h₂ h₃ (congrArg Journal.produitEntree heq)

/-- One line keeps the entries in step with the lines read. -/
theorem Entrees.lireLigne (h : Entrees lus j) (hok : Journal.lireLigne c j line = .ok j') :
    Entrees (lus ++ [line]) j' := by
  intro p hp
  have havant := h p hp
  cases ligneEntrees_of_lireLigne hok with
  | autre hnew hsortie heq =>
    rw [heq, nombreLignes_snoc_autre hnew, nombreLignes_snoc_autre hsortie, havant]
  | entree hID P time hP heq =>
    rw [heq, nombreLignes_snoc_autre (identifiant_nouveau_ne hID).1, nombreLignes_snoc_de hID hP,
      List.countP_append, ← havant]
    simp only [List.countP_singleton, decide_eq_true_eq]
    omega
  | vide hID hP heq =>
    rw [heq, nombreLignes_snoc_autre (identifiant_sortie_ne hID).1, nombreLignes_snoc_de hID hP,
      if_neg (Ne.symm hp), ← havant]
    rfl
  | sortie hID P r hP hr heq =>
    rw [countP_sortirEntree hr hp] at havant
    rw [heq, nombreLignes_snoc_autre (identifiant_sortie_ne hID).1, nombreLignes_snoc_de hID hP,
      ← havant]
    omega

theorem Entrees.lireLog {Log : List Str} (h : Entrees lus j)
    (hok : Journal.lireLog c j Log = .ok j') : Entrees (lus ++ Log) j' := by
  induction Log generalizing lus j with
  | nil =>
    cases hok
    simpa using h
  | cons line Log ih =>
    obtain ⟨j₁, h₁, hok⟩ := bind_eq_ok.1 hok
    have hsuite := ih (h.lireLigne h₁) hok
    rwa [List.append_assoc] at hsuite

/-- When no product leaves more often than it came in, the search finds its entry. -/
theorem recherche_ok (hlog : Journal.lireLog c .initial lus = .ok j)
    (hID : identifiant line = "Sortie".toList) {s : Sortie F}
    (hs : j.analyserSortie (champs line) = .ok s) (hP : s.P ≠ 0)
    (hnombres : nombreLignes "Sortie" s.P (lus ++ [line]) ≤
      nombreLignes "NouveauProduit" s.P (lus ++ [line])) :
    ∃ r, sortirEntree s.P j.produitEntree = .ok r := by
  have hinitial : Entrees [] (Journal.initial : Journal F) := fun _ _ => rfl
  have hentrees := hinitial.lireLog hlog s.P hP
  have hproduit := (analyserSortie_produit hs).1
  rw [nombreLignes_snoc_autre (identifiant_sortie_ne hID).1, nombreLignes_snoc_de hID hproduit,
    if_pos rfl] at hnombres
  rw [List.nil_append] at hentrees
  exact sortirEntree_ok (by omega)

/-! ## The lines of a run -/

/-- The messages published, and the log they make: the lines that the log manager writes for them,
in their order, among lines that it writes by itself, and none for an error that has no line. -/
inductive Ecrit : List Avis → List Str → Prop
  | nil : Ecrit [] []
  | avis {log : List Avis} {Log : List Str} {a : Avis} {ligne : Str} (h : Ecrit log Log)
      (ha : a.Ligne ligne) : Ecrit (log ++ [a]) (Log ++ [ligne])
  | muet {log : List Avis} {Log : List Str} {code : ℤ} (h : Ecrit log Log)
      (hcode : debutErreur code = none) (nPoste : ℤ) : Ecrit (log ++ [.erreurLog code nPoste]) Log
  | autre {log : List Avis} {Log : List Str} {ligne : Str} (h : Ecrit log Log)
      (hnew : identifiant ligne ≠ "NouveauProduit".toList)
      (hsortie : identifiant ligne ≠ "Sortie".toList) : Ecrit log (Log ++ [ligne])

/-- The beginning of a log is the log of the first messages. -/
theorem Ecrit.debut {log : List Avis} {Log debut : List Str} (h : Ecrit log Log)
    (hdebut : debut <+: Log) : ∃ l, l <+: log ∧ Ecrit l debut := by
  induction h with
  | nil =>
    rw [List.prefix_nil.1 hdebut]
    exact ⟨[], List.prefix_rfl, .nil⟩
  | avis h ha ih =>
    rcases List.prefix_concat_iff.1 hdebut with rfl | hdebut
    · exact ⟨_, List.prefix_rfl, h.avis ha⟩
    · obtain ⟨l, hl, hecrit⟩ := ih hdebut
      exact ⟨l, hl.trans (List.prefix_append _ _), hecrit⟩
  | muet h hcode nPoste ih =>
    obtain ⟨l, hl, hecrit⟩ := ih hdebut
    exact ⟨l, hl.trans (List.prefix_append _ _), hecrit⟩
  | autre h hnew hsortie ih =>
    rcases List.prefix_concat_iff.1 hdebut with rfl | hdebut
    · exact ⟨_, List.prefix_rfl, h.autre hnew hsortie⟩
    · exact ih hdebut

/-- The codes of product `p`, as the script reads them. -/
def estProduit (p : ℤ) (code : ℤ) : Bool := decide (chiffre (entier code) 0 = .ok p)

/-- The line of a message counts for a product when the message does. -/
theorem estLigne_of_ligne {p : ℤ} {a : Avis} {ligne : Str} (ha : a.Ligne ligne)
    (hentier : ∀ data, a = .produitEvac data → data.length = nbCube) :
    (EstLigne "NouveauProduit" p ligne ↔ estNouveau (estProduit p) a = true) ∧
      (EstLigne "Sortie" p ligne ↔ estSortie (estProduit p) a = true) := by
  -- any other line counts for no product
  have hautre : ∀ {l : Str}, identifiant l ≠ "NouveauProduit".toList →
      identifiant l ≠ "Sortie".toList →
      (EstLigne "NouveauProduit" p l ↔ false = true) ∧ (EstLigne "Sortie" p l ↔ false = true) :=
    fun hnew hsortie => ⟨iff_of_false (not_estLigne hnew p) Bool.false_ne_true,
      iff_of_false (not_estLigne hsortie p) Bool.false_ne_true⟩
  cases a with
  | tacheFinie numPoste numProduit duree =>
    have hID : identifiant ligne = "TempoT".toList := ha ▸ identifiant_tempoT _ _ _
    exact hautre (hID.trans_ne (by decide)) (hID.trans_ne (by decide))
  | produitEvac data =>
    obtain ⟨temps, rfl⟩ := ha
    obtain ⟨base, cubes, rfl⟩ : ∃ base cubes, data = base :: cubes :=
      List.exists_cons_of_length_pos (by rw [hentier data rfl]; decide)
    have hID := identifiant_sortie ((base :: cubes).take 4) temps
    have hP : produitDe (ligneSortie ((base :: cubes).take 4) temps) = chiffre (entier base) 0 :=
      (chiffres_sortie base (cubes.take 3) temps).1
    refine ⟨iff_of_false (not_estLigne (identifiant_sortie_ne hID).1 p) Bool.false_ne_true, ?_⟩
    rw [EstLigne, hP, estSortie, estProduit, decide_eq_true_iff]
    exact ⟨fun h => h.2, fun h => ⟨hID, h⟩⟩
  | addProduct numProduit =>
    obtain ⟨temps, rfl⟩ := ha
    have hID := identifiant_nouveauProduit numProduit temps
    have hP := (chiffres_nouveauProduit numProduit temps).1
    refine ⟨?_, iff_of_false (not_estLigne (identifiant_nouveau_ne hID).1 p) Bool.false_ne_true⟩
    rw [EstLigne, hP, estNouveau, estProduit, decide_eq_true_iff]
    exact ⟨fun h => h.2, fun h => ⟨hID, h⟩⟩
  | erreurLog code nPoste =>
    obtain ⟨debut, hdebut, rfl⟩ := ha
    rcases identifiant_erreur hdebut nPoste with ⟨-, ID, hmem, hID⟩ | ⟨-, hID⟩
    · have hne : ∀ ID ∈ identifiantsErreur, ID.toList ≠ "NouveauProduit".toList ∧
          ID.toList ≠ "Sortie".toList := by decide
      exact hautre (hID ▸ (hne ID hmem).1) (hID ▸ (hne ID hmem).2)
    · exact hautre (hID.trans_ne (by decide)) (hID.trans_ne (by decide))

/-- The lines about a product are as many as the messages about it. -/
theorem Ecrit.nombreLignes {p : ℤ} {log : List Avis} {Log : List Str} (h : Ecrit log Log)
    (hentier : ∀ data, .produitEvac data ∈ log → data.length = nbCube) :
    nombreLignes "NouveauProduit" p Log = log.countP (estNouveau (estProduit p)) ∧
      nombreLignes "Sortie" p Log = log.countP (estSortie (estProduit p)) := by
  induction h with
  | nil => exact ⟨rfl, rfl⟩
  | avis h ha ih =>
    obtain ⟨hnew, hsortie⟩ := ih fun data hdata => hentier data (List.mem_append_left _ hdata)
    obtain ⟨hestNew, hestSortie⟩ := estLigne_of_ligne (p := p) ha fun data hdata =>
      hentier data (hdata ▸ List.mem_append_right _ (List.mem_singleton_self _))
    rw [nombreLignes_snoc, nombreLignes_snoc, hnew, hsortie, List.countP_append,
      List.countP_append, List.countP_singleton, List.countP_singleton]
    simp only [hestNew, hestSortie, and_self]
  | muet h hcode nPoste ih =>
    obtain ⟨hnew, hsortie⟩ := ih fun data hdata => hentier data (List.mem_append_left _ hdata)
    rw [hnew, hsortie, List.countP_append, List.countP_append]
    exact ⟨rfl, rfl⟩
  | autre h hnew hsortie ih =>
    rw [nombreLignes_snoc_autre hnew, nombreLignes_snoc_autre hsortie]
    exact ih hentier

section

variable {τ : Type} [Horloge τ]

/-- In every log of the cell, no product leaves more often than it came in. -/
theorem nombreLignes_le {temps : τ} {trace : List (Demande τ)} {s : Chronique τ}
    (h : Run (Guarded Chronique.Permis Chronique.etape) (.initiale temps) trace s) {Log : List Str}
    (hLog : Ecrit s.log Log) {p : ℤ} (hp : p ≠ 0) {lus : List Str} (hlus : lus <+: Log) :
    nombreLignes "Sortie" p lus ≤ nombreLignes "NouveauProduit" p lus := by
  obtain ⟨l, hl, hecrit⟩ := hLog.debut hlus
  have hzero : estProduit p 0 = false := by
    have hchiffre : chiffre (entier 0) 0 = .ok 0 := by decide
    rw [estProduit, hchiffre, decide_eq_false_iff_not]
    exact fun h => hp (Except.ok.inj h).symm
  have hentier : ∀ data, .produitEvac data ∈ l → data.length = nbCube :=
    fun data hdata => length_of_produitEvac h (hl.subset hdata)
  obtain ⟨hnew, hsortie⟩ := hecrit.nombreLignes (p := p) hentier
  rw [hnew, hsortie]
  exact (suivie_run hzero h).prefixes l hl

/-- **No product leaves more often than it came in**, at any moment of any run of the cell; so the
search of the script, on a line that it can read, finds an entry of the product. -/
theorem sorties_le_nouveaux {temps : τ} {trace : List (Demande τ)} {s : Chronique τ}
    (h : Run (Guarded Chronique.Permis Chronique.etape) (.initiale temps) trace s) {Log : List Str}
    (hLog : Ecrit s.log Log) :
    (∀ p, 1 ≤ p → p ≤ 6 → ∀ lus, lus <+: Log →
      nombreLignes "Sortie" p lus ≤ nombreLignes "NouveauProduit" p lus) ∧
    ∀ (c : Config F) (lus : List Str) (line : Str), lus ++ [line] <+: Log →
      identifiant line = "Sortie".toList → ∀ j, Journal.lireLog c .initial lus = .ok j →
      ∀ x, j.analyserSortie (champs line) = .ok x → x.P ≠ 0 →
      ∃ r, sortirEntree x.P j.produitEntree = .ok r := by
  refine ⟨fun p hp₁ _ lus hlus => nombreLignes_le h hLog (by omega) hlus, ?_⟩
  intro c lus line hprefixe hID j hj x hx hP
  exact recherche_ok hj hID hx hP (nombreLignes_le h hLog hP hprefixe)

end

instance {τ : Type} (o : Ordre τ) : Decidable o.Valide := by
  cases o <;> (unfold Ordre.Valide; infer_instance)

instance {τ : Type} (c : Cellule τ) (o : Ordre τ) : Decidable (EvacuerHorsTache c o) := by
  cases o <;> (unfold EvacuerHorsTache; infer_instance)

instance {τ : Type} (s : Chronique τ) (d : Demande τ) : Decidable (Chronique.Permis s d) :=
  inferInstanceAs (Decidable (_ ∧ _))

/-- A product is added on post 3 and evacuated from it: the script finds its entry. -/
theorem sorties_le_nouveaux_evacuation : ∃ (trace : List (Demande ℤ)) (s : Chronique ℤ)
    (j : Journal ℚ) (x : Sortie ℚ),
    Run (Guarded Chronique.Permis Chronique.etape) (.initiale 0) trace s ∧
    (∀ p, 1 ≤ p → p ≤ 6 → ∀ lus, lus <+: [ligneNouveauProduit 14 3, ligneSortie [14, 0, 0, 0] 8] →
      nombreLignes "Sortie" p lus ≤ nombreLignes "NouveauProduit" p lus) ∧
    Journal.lireLog .initial .initial [ligneNouveauProduit 14 3] = .ok j ∧
    j.analyserSortie (champs (ligneSortie [14, 0, 0, 0] 8)) = .ok x ∧ x.P = 1 ∧
    ∃ r, sortirEntree x.P j.produitEntree = .ok r := by
  have hexec : (execute Chronique.Permis Chronique.etape (.initiale (0 : ℤ))
      [⟨.ajouterProduit 1 3, true⟩, ⟨.evacuer 1, false⟩]).any (fun s =>
        decide (s.log = [.addProduct 14, .produitEvac [14, 0, 0, 0, 0, 0]])) = true := by
    decide +kernel
  obtain ⟨s, hs, hlog⟩ := (Option.any_eq_true _ _).1 hexec
  have hlog := of_decide_eq_true hlog
  have hrun := run_execute .nil hs
  have hecrit : Ecrit s.log [ligneNouveauProduit 14 3, ligneSortie [14, 0, 0, 0] 8] := by
    rw [hlog]
    exact (Ecrit.nil.avis (a := .addProduct 14) ⟨3, rfl⟩).avis
      (a := .produitEvac [14, 0, 0, 0, 0, 0]) ⟨8, rfl⟩
  have hlu : (do
      let j ← Journal.lireLog (F := ℚ) .initial .initial [ligneNouveauProduit 14 3]
      let x ← j.analyserSortie (champs (ligneSortie [14, 0, 0, 0] 8))
      pure x.P) = .ok 1 := by decide +kernel
  obtain ⟨j, hj, hlu⟩ := bind_eq_ok.1 hlu
  obtain ⟨x, hx, hP⟩ := bind_eq_ok.1 hlu
  have hP : x.P = 1 := Except.ok.inj hP
  obtain ⟨hcomptes, hentree⟩ := sorties_le_nouveaux (F := ℚ) hrun hecrit
  exact ⟨_, s, j, x, hrun, hcomptes, hj, hx, hP, hentree .initial [ligneNouveauProduit 14 3] _
    List.prefix_rfl (by decide +kernel) j hj x hx (by omega)⟩

end Checker
