import Cellule.Checker.Correction
import Cellule.CommandeLocale.LogManager

/-! # The verdict and the printed lines

The verdict is what the printed lines say: the log fails exactly when one of the errors that fail it
is printed, and nothing restores it. The lines of `ErreurCallback` are then followed through the
script.
-/

namespace Checker

open Python

variable {F : Type}

/-- The errors that come with `test = 0`. The two messages on the type of a task do not, and the
recapitulation reports no error. -/
def Message.echoue : Message F → Bool
  | .tacheNonTerminee _ _ _ => false
  | .pasUneTache _ _ _ => false
  | .assemblage _ _ _ => false
  | .tempsMoyen _ => false
  | _ => true

/-- `j'` is `j` after some lines are printed, and the log failed if one of them says so. -/
def Rapport (j j' : Journal F) : Prop :=
  ∃ lignes : List (Message F), j'.affichage = j.affichage ++ lignes ∧
    j'.test = if lignes.any Message.echoue then 0 else j.test

namespace Rapport

variable {j j' j'' : Journal F}

/-- Nothing printed. -/
theorem of_eq (haffichage : j'.affichage = j.affichage) (htest : j'.test = j.test) :
    Rapport j j' :=
  ⟨[], by rw [haffichage, List.append_nil], htest⟩

theorem refl (j : Journal F) : Rapport j j := of_eq rfl rfl

theorem trans (h₁ : Rapport j j') (h₂ : Rapport j' j'') : Rapport j j'' := by
  obtain ⟨lignes₁, ha₁, ht₁⟩ := h₁
  obtain ⟨lignes₂, ha₂, ht₂⟩ := h₂
  refine ⟨lignes₁ ++ lignes₂, by rw [ha₂, ha₁, List.append_assoc], ?_⟩
  rw [ht₂, ht₁, List.any_append]
  cases lignes₁.any Message.echoue <;> cases lignes₂.any Message.echoue <;> rfl

theorem signaler (j : Journal F) {m : Message F} (hm : m.echoue = true) :
    Rapport j (j.signaler m) :=
  ⟨[m], rfl, by simp [hm, Journal.signaler]⟩

theorem afficher (j : Journal F) {m : Message F} (hm : m.echoue = false) :
    Rapport j (j.afficher m) :=
  ⟨[m], rfl, by simp [hm, Journal.afficher]⟩

theorem ite {P : Prop} [Decidable P] (h₁ : Rapport j j') (h₂ : Rapport j j'') :
    Rapport j (if P then j' else j'') := by
  split_ifs
  · exact h₁
  · exact h₂

theorem foldl {α : Type} {f : Journal F → α → Journal F} (hf : ∀ j a, Rapport j (f j a))
    (l : List α) (j : Journal F) : Rapport j (l.foldl f j) := by
  induction l generalizing j with
  | nil => exact refl j
  | cons a l ih => exact (hf j a).trans (ih (f j a))

/-- A failed log stays failed. -/
theorem echec (h : Rapport j j') (htest : j.test = 0) : j'.test = 0 := by
  obtain ⟨lignes, -, ht⟩ := h
  rw [ht, htest, ite_self]

end Rapport

namespace Journal

theorem rapport_afficherTypes (j : Journal F) (n : ℕ) (sortis P : ℤ) (D : List (ℤ × ℤ)) :
    Rapport j (j.afficherTypes n sortis P D) := by
  unfold afficherTypes
  apply Rapport.foldl
  intro j x
  exact .ite (.afficher j rfl) (.ite (.afficher j rfl) (.refl j))

theorem rapport_verifierSortie (j : Journal F) (attendus sortis : ℤ) (attendu lu : List ℤ)
    (s : Sortie F) : Rapport j (j.verifierSortie attendus sortis attendu lu s) := by
  unfold verifierSortie
  apply Rapport.ite ?_ (.refl j)
  have hlu : Rapport j (if lu ≠ attendu then
      j.signaler (.enchainementTaches sortis s.P attendu.tail lu.tail) else j) :=
    .ite (.signaler j rfl) (.refl j)
  exact (hlu.trans (.ite (.signaler _ rfl) (.refl _))).trans (rapport_afficherTypes _ _ _ _ _)

/-- The errors of the cell fail the log. -/
theorem echoue_of_mem {m : ℤ → Message F} (hm : m ∈ erreursCellule) (poste : ℤ) :
    (m poste).echoue = true := by
  simp only [erreursCellule, List.mem_cons, List.not_mem_nil, or_false] at hm
  rcases hm with rfl | rfl | rfl | rfl <;> rfl

theorem rapport_recapituler (j : Journal F) (x : (ℤ × ℤ × List ℤ × F) × ℕ) :
    Rapport j (j.recapituler x) := by
  unfold recapituler
  exact .ite ((Rapport.afficher j rfl).trans (.afficher _ rfl)) (.refl j)

theorem rapport_conclure (c : Config F) (j : Journal F) : Rapport j (j.conclure c) := by
  unfold conclure
  exact .ite (.foldl rapport_recapituler _ j) (.refl j)

theorem rapport_comparerNombres (j : Journal F) (x : (ℤ × ℤ × ℤ) × ℕ) :
    Rapport j (j.comparerNombres x) := by
  have happarus : Rapport j (j.comparerApparus x.2 x.1.1 x.1.2.1) := by
    unfold comparerApparus
    exact .ite (.ite (.signaler j rfl) (.signaler j rfl)) (.refl j)
  unfold comparerNombres
  refine happarus.trans ?_
  unfold comparerSortis
  exact .ite (.signaler _ rfl) (.refl _)

variable [Floating F]

theorem rapport_nouveauProduit {c : Config F} {j j' : Journal F} {line : Str}
    (h : NouveauProduitLu c j line j') : Rapport j j' := by
  obtain ⟨P, pType, n, attendus, time, nbProduitNew, -, -, -, -, -, -, rfl⟩ := h
  have hentree : Rapport j { j with
      nbProduitNew
      produitEntree := j.produitEntree ++ [(P, time)] } := .of_eq rfl rfl
  refine hentree.trans ?_
  unfold verifierApparition
  exact .ite (.signaler _ rfl) (.refl _)

theorem rapport_sortie {c : Config F} {j j' : Journal F} {line : Str} (h : SortieLue c j line j') :
    Rapport j j' := by
  cases h with
  | produit s hs hP n attendus attendu nbProduitLog r duree produitDuree hn hset hr hd hduree hatt
      hattendu heq =>
    have hverifier := rapport_verifierSortie
      { j with nbProduitLog, produitEntree := r.2, produitDuree } attendus (n + 1) attendu
      (s.P :: (s.D.take maxTaches).map Prod.fst) s
    rw [heq]
    generalize verifierSortie _ _ _ _ _ _ = j₁ at hverifier ⊢
    exact (Rapport.of_eq rfl rfl).trans (hverifier.trans (.of_eq rfl rfl))
  | vide s hs hP attendus hatt heq =>
    have htampons : Rapport j { j with D := s.D, DList := s.DList } := .of_eq rfl rfl
    rw [heq]
    exact htampons.trans (.ite (.signaler _ rfl) (.refl _))

/-- One turn of the loop; a line that reports an error of the cell fails the log. -/
theorem rapport_lireLigne {c : Config F} {j j' : Journal F} {line : Str}
    (h : lireLigne c j line = .ok j') : Rapport j j' ∧ (EstErreur line → j'.test = 0) := by
  cases lireLigne_inv h with
  | erreur hID m hm poste heq =>
    rw [heq]
    exact ⟨.signaler j (echoue_of_mem hm poste), fun _ => rfl⟩
  | tempoT hID hok =>
    obtain ⟨x, rfl⟩ := lireTempoT_inv hok
    exact ⟨.of_eq rfl rfl, fun herr => absurd herr (identifiant_tempoT_ne hID).2.2⟩
  | nouveauProduit hID hlu =>
    exact ⟨rapport_nouveauProduit hlu, fun herr => absurd herr (identifiant_nouveau_ne hID).2⟩
  | sortie hID hlue =>
    exact ⟨rapport_sortie hlue, fun herr => absurd herr (identifiant_sortie_ne hID).2⟩
  | autre hID h₁ h₂ h₃ heq =>
    rw [heq]
    exact ⟨.refl j, fun herr => absurd herr hID⟩

/-- The loop over the log; a line that reports an error of the cell fails the log. -/
theorem rapport_lireLog {c : Config F} {Log : List Str} {j j' : Journal F}
    (h : lireLog c j Log = .ok j') :
    Rapport j j' ∧ ((∃ line ∈ Log, EstErreur line) → j'.test = 0) := by
  induction Log generalizing j with
  | nil =>
    cases h
    exact ⟨.refl _, fun ⟨line, hline, _⟩ => absurd hline List.not_mem_nil⟩
  | cons line Log ih =>
    obtain ⟨j₁, h₁, h⟩ := bind_eq_ok.1 h
    obtain ⟨hr₁, herr₁⟩ := rapport_lireLigne h₁
    obtain ⟨hr, herr⟩ := ih h
    refine ⟨hr₁.trans hr, ?_⟩
    rintro ⟨l, hl, hlerr⟩
    rcases List.mem_cons.1 hl with rfl | hl
    · exact hr.echec (herr₁ hlerr)
    · exact herr ⟨l, hl, hlerr⟩

theorem rapport_comparer (c : Config F) (j : Journal F) (temps tempsLog : List (List F)) :
    Rapport j (j.comparer c temps tempsLog) := by
  have hdurees : ∀ (j : Journal F) (x : (ℤ × List F × List F) × ℕ),
      Rapport j (j.comparerDurees x) := by
    intro j x
    unfold comparerDurees
    apply Rapport.foldl
    intro j y
    unfold comparerDuree
    exact .ite (.signaler j rfl) (.refl j)
  unfold comparer
  exact (Rapport.foldl hdurees _ j).trans (.foldl rapport_comparerNombres _ _)

end Journal

/-- The script from the log on: the journal it ends with reports on what was printed since the first
line of the log. -/
theorem rapport_checker [Floating F] {contenu Log : List Str} {c : Config F} {j : Journal F}
    (h : checker contenu Log = .ok (c, j)) (hconfig : c.erreurConfig = 0) :
    Rapport .initial j ∧ ((∃ line ∈ Log, EstErreur line) → j.test = 0) := by
  obtain ⟨temps, tempsLog, j₁, -, -, hj, -, rfl⟩ := checker_inv h hconfig
  obtain ⟨hr, herr⟩ := Journal.rapport_lireLog hj
  have hfin : Rapport j₁ ((j₁.moyennes.comparer c temps tempsLog).conclure c) :=
    (Rapport.of_eq rfl rfl).trans
      ((Journal.rapport_comparer c j₁.moyennes temps tempsLog).trans (Journal.rapport_conclure c _))
  exact ⟨hr.trans hfin, fun hLog => hfin.echec (herr hLog)⟩

/-- **The verdict is in the printed lines**: the log fails when an error that fails it is printed,
and otherwise it passes. -/
theorem test_eq_ite [Floating F] {contenu Log : List Str} {c : Config F} {j : Journal F}
    (h : checker contenu Log = .ok (c, j)) (hconfig : c.erreurConfig = 0) :
    j.test = if j.affichage.any Message.echoue then 0 else 1 := by
  obtain ⟨⟨lignes, haffichage, htest⟩, -⟩ := rapport_checker h hconfig
  rw [haffichage]
  exact htest

/-! ## The errors of the cell -/

open CommandeLocale.LogManager

/-- The identifier of a line is what stands before its first colon. -/
theorem identifiant_of_not_mem {debut suite : Str} (h : ':' ∉ debut) :
    identifiant (debut ++ ':' :: suite) = remove ' ' debut := by
  have hremove : remove ' ' (debut ++ ':' :: suite) = remove ' ' debut ++ ':' :: remove ' ' suite := by
    rw [remove_append]
    rfl
  have hmem : ':' ∉ remove ' ' debut := fun hmem => h (List.mem_filter.1 hmem).1
  unfold identifiant champs split
  rw [hremove, List.splitOn_append_cons_self_of_not_mem hmem]
  rfl

/-- The line that `ErreurCallback` writes. -/
theorem lignesEcrites_erreurCallback {code nPoste : ℤ} {temps : ℚ} {ligne : Str}
    (h : lignesEcrites (erreurCallback code nPoste) temps = .ok [ligne]) :
    ∃ debut, debutErreur code = some debut ∧ ligne = debut ++ entier nPoste ++ ['\n'] := by
  unfold erreurCallback at h
  cases hdebut : debutErreur code with
  | none =>
    rw [hdebut] at h
    cases h
  | some debut =>
    rw [hdebut] at h
    cases h
    exact ⟨debut, rfl, rfl⟩

/-- The script knows the identifiers of all these lines but one. -/
theorem identifiant_erreur {code : ℤ} {debut : Str} (h : debutErreur code = some debut) (n : ℤ) :
    (code ≠ 3 ∧ EstErreur (debut ++ entier n ++ ['\n'])) ∨
      code = 3 ∧ identifiant (debut ++ entier n ++ ['\n']) = "ManipulationEnTraitement".toList := by
  have hdeux : ∀ (nom suite : Str), debut = nom ++ ':' :: suite → ':' ∉ nom → remove ' ' nom = nom →
      identifiant (debut ++ entier n ++ ['\n']) = nom := by
    intro nom suite hd hnom hremove
    rw [hd, List.append_assoc, List.append_assoc, List.cons_append, identifiant_of_not_mem hnom,
      hremove]
  unfold debutErreur at h
  split at h
  · cases h
    exact .inl ⟨by decide, "OperationPosteVide", by decide,
      hdeux _ [' '] rfl (by decide) (by decide)⟩
  · cases h
    exact .inl ⟨by decide, "OperationProduitPlein", by decide,
      hdeux _ [' '] rfl (by decide) (by decide)⟩
  · cases h
    exact .inr ⟨rfl, hdeux _ [' '] rfl (by decide) (by decide)⟩
  · cases h
    exact .inl ⟨by decide, "PerteNavette", by decide, hdeux _ [' '] rfl (by decide) (by decide)⟩
  · cases h
    exact .inl ⟨by decide, "EcrasementProduit", by decide, hdeux _ [] rfl (by decide) (by decide)⟩
  · cases h

section

variable [Floating F] {c : Config F} {j : Journal F} {line : Str}

/-- A line whose identifier is not known changes nothing. -/
theorem lireLigne_inconnue (h : identifiant line = "ManipulationEnTraitement".toList) :
    Journal.lireLigne c j line = .ok j := by
  unfold Journal.lireLigne
  rw [h]
  rfl

/-- A line that changes nothing may be taken out of the log. -/
theorem lireLog_inconnue (h : identifiant line = "ManipulationEnTraitement".toList)
    (avant apres : List Str) :
    Journal.lireLog c j (avant ++ line :: apres) = Journal.lireLog c j (avant ++ apres) := by
  unfold Journal.lireLog
  rw [List.foldlM_append, List.foldlM_append]
  congr 1
  funext j₁
  rw [List.foldlM_cons, lireLigne_inconnue h]
  rfl

theorem checker_inconnue {contenu : List Str}
    (h : identifiant line = "ManipulationEnTraitement".toList) (avant apres : List Str) :
    checker (F := F) contenu (avant ++ line :: apres) = checker contenu (avant ++ apres) := by
  unfold checker
  simp only [lireLog_inconnue h]

end

/-- The durations of a product that is not ordered are not compared. -/
theorem comparerDurees_of_eq_zero [Floating F] (j : Journal F) {x : (ℤ × List F × List F) × ℕ}
    (hx : x.1.1 = 0) : j.comparerDurees x = j := by
  unfold Journal.comparerDurees
  apply Journal.foldl_eq_self
  intro j y _
  unfold Journal.comparerDuree
  rw [if_neg fun h => h.2.1 hx]

/-- The empty log passes when nothing is ordered. -/
theorem checker_vide [Floating F] : ∃ j : Journal F, checker [] [] = .ok (Config.initial, j) ∧
    j.test = 1 := by
  refine ⟨_, rfl, ?_⟩
  unfold Journal.comparer
  have hrien : ∀ (l : List ((ℤ × List F × List F) × ℕ)) (j : Journal F), (∀ x ∈ l, x.1.1 = 0) →
      l.foldl Journal.comparerDurees j = j := fun l j hl =>
    Journal.foldl_eq_self j fun j x hx => comparerDurees_of_eq_zero j (hl x hx)
  rw [hrien _ _ (by simp [Config.initial, List.zipIdx])]
  rfl

/-- **Errors of the cell fail the check**, for the line that `ErreurCallback` writes for one of its
codes, at any place of any log: exactly when the code is not the one of a manipulation during a
task. -/
theorem erreur_signalee_iff [Floating F] {code nPoste : ℤ} {temps : ℚ} {ligne : Str}
    (hligne : lignesEcrites (erreurCallback code nPoste) temps = .ok [ligne]) :
    (∀ (contenu avant apres : List Str) (c : Config F) (j : Journal F),
      checker contenu (avant ++ ligne :: apres) = .ok (c, j) → c.erreurConfig = 0 → j.test = 0) ↔
    code ≠ 3 := by
  obtain ⟨debut, hdebut, rfl⟩ := lignesEcrites_erreurCallback hligne
  rcases identifiant_erreur hdebut nPoste with ⟨hcode, herreur⟩ | ⟨rfl, hID⟩
  · refine ⟨fun _ => hcode, fun _ => ?_⟩
    intro contenu avant apres c j hok hconfig
    exact (rapport_checker hok hconfig).2 ⟨_, by simp, herreur⟩
  -- the line is passed over, and a log that is right without it passes with it
  · refine ⟨fun h => ?_, fun h => absurd rfl h⟩
    obtain ⟨j, hok, htest⟩ := checker_vide (F := F)
    rw [← List.append_nil ([] : List Str), ← checker_inconnue hID] at hok
    rw [h [] [] [] Config.initial j hok rfl] at htest
    cases htest

/-- The line of a product that would overflow fails the check. -/
theorem erreur_signalee_produitPlein :
    (∀ (contenu avant apres : List Str) (c : Config ℚ) (j : Journal ℚ),
      checker contenu (avant ++ "OperationProduitPlein: 3\n".toList :: apres) = .ok (c, j) →
        c.erreurConfig = 0 → j.test = 0) ↔ (2 : ℤ) ≠ 3 :=
  @erreur_signalee_iff ℚ _ 2 3 0 _ (by rfl)

/-- The log of a run that makes a product, during which a robot took it while it was worked on. -/
def logManipulation : List Str :=
  ["NouveauProduit: 24 :10.00\n".toList, "ManipulationEnTraitement: 1\n".toList,
    "TempoT: 24: 1: 4\n".toList, "TempoT: 24: 4: 5\n".toList,
    "Sortie :24 :13 :43 :0 :35.25\n".toList]

/-- The log manager writes the second of these lines, and the script accepts them. -/
theorem manipulation_acceptee :
    lignesEcrites (erreurCallback 3 1) 12 = .ok ["ManipulationEnTraitement: 1\n".toList] ∧
      "ManipulationEnTraitement: 1\n".toList ∈ logManipulation ∧
      (checker (F := ℚ) configUnProduit logManipulation).map
        (fun x => (x.1.erreurConfig, x.2.test)) = .ok (0, 1) := by
  refine ⟨by rfl, by decide, ?_⟩
  decide +kernel

end Checker
