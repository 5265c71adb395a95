import Cellule.Checker.Fabrication
import Cellule.Checker.Lecture

/-! # Unfinished tasks

The script reads the types of the tasks of a product that leaves, and prints a line for a task that
is not finished, but the log does not fail. So a log with unfinished tasks is accepted for every
configuration for which the log manager can write an accepted log at all.
-/

namespace Checker

open Python CommandeLocale.LogManager Evenement

variable {F : Type}

/-! ## What the log manager writes -/

/-- A line that a callback of the log manager writes. -/
inductive LigneEcrite (line : Str) : Prop
  | evacuation (data : List ℤ) (temps : ℚ)
      (h : lignesEcrites (produitEvacCallback data) temps = .ok [line])
  | apparition (numProduit : ℤ) (temps : ℚ)
      (h : lignesEcrites (newProductCallback numProduit) temps = .ok [line])
  | tacheFinie (numPoste numProduit duree : ℤ) (temps : ℚ)
      (h : lignesEcrites (tachefinieCallback numPoste numProduit duree) temps = .ok [line])
  | erreur (code nPoste : ℤ) (temps : ℚ)
      (h : lignesEcrites (erreurCallback code nPoste) temps = .ok [line])

/-- `ProduitEvacCallback` writes a line for a message of four colours or more. -/
theorem lignesEcrites_evacuation {data : List ℤ} (h : 4 ≤ data.length) (temps : ℚ) :
    lignesEcrites (produitEvacCallback data) temps = .ok [ligneSortie (data.take 4) temps] := by
  have hlen : ¬data.length < 4 := by omega
  show Except.map _ (Reactive.Prog.run _ (if data.length < 4 then _ else _) _ _) = _
  rw [if_neg hlen]
  rfl

namespace LigneEcrite

variable {line : Str}

/-- The text of a line. -/
theorem cas (h : LigneEcrite line) :
    (∃ couleur t, couleur.length = 4 ∧ line = ligneSortie couleur t) ∨
    (∃ n t, line = ligneNouveauProduit n t) ∨ (∃ n q d, line = ligneTempoT n q d) ∨
    ∀ ID ∈ ["TempoT", "NouveauProduit", "Sortie"], identifiant line ≠ ID.toList := by
  cases h with
  | evacuation data temps h =>
    by_cases hlen : 4 ≤ data.length
    · rw [lignesEcrites_evacuation hlen] at h
      cases h
      exact .inl ⟨data.take 4, temps, by simpa using hlen, rfl⟩
    -- a shorter message is read outside of its data
    · have hlen : data.length < 4 := by omega
      change Except.map _ (Reactive.Prog.run _ (if data.length < 4 then _ else _) _ _) = _ at h
      rw [if_pos hlen] at h
      cases h
  | apparition n temps h =>
    cases h
    exact .inr (.inl ⟨n, temps, rfl⟩)
  | tacheFinie q n d temps h =>
    cases h
    exact .inr (.inr (.inl ⟨n, q, d, rfl⟩))
  | erreur code n temps h =>
    obtain ⟨debut, hdebut, rfl⟩ := lignesEcrites_erreurCallback h
    refine .inr (.inr (.inr ?_))
    -- the error of code 3 has a text that the script does not know
    rcases identifiant_erreur hdebut n with ⟨-, ID, hmem, hID⟩ | ⟨-, hID⟩
    · have hne : ∀ ID ∈ identifiantsErreur, ∀ ID' ∈ ["TempoT", "NouveauProduit", "Sortie"],
          ID.toList ≠ ID'.toList := by decide
      intro ID' hmem'
      rw [hID]
      exact hne ID hmem ID' hmem'
    · rw [hID]
      decide

theorem sortie (h : LigneEcrite line) (hID : identifiant line = "Sortie".toList) :
    ∃ couleur t, couleur.length = 4 ∧ line = ligneSortie couleur t := by
  rcases h.cas with h | ⟨n, t, rfl⟩ | ⟨n, q, d, rfl⟩ | h
  · exact h
  · exact absurd ((identifiant_nouveauProduit n t).symm.trans hID) (by decide)
  · exact absurd ((identifiant_tempoT n q d).symm.trans hID) (by decide)
  · exact absurd hID (h "Sortie" (by decide))

theorem nouveauProduit (h : LigneEcrite line) (hID : identifiant line = "NouveauProduit".toList) :
    ∃ n t, line = ligneNouveauProduit n t := by
  rcases h.cas with ⟨couleur, t, -, rfl⟩ | h | ⟨n, q, d, rfl⟩ | h
  · exact absurd ((identifiant_sortie couleur t).symm.trans hID) (by decide)
  · exact h
  · exact absurd ((identifiant_tempoT n q d).symm.trans hID) (by decide)
  · exact absurd hID (h "NouveauProduit" (by decide))

theorem tempoT (h : LigneEcrite line) (hID : identifiant line = "TempoT".toList) :
    ∃ n q d, line = ligneTempoT n q d := by
  rcases h.cas with ⟨couleur, t, -, rfl⟩ | ⟨n, t, rfl⟩ | h | h
  · exact absurd ((identifiant_sortie couleur t).symm.trans hID) (by decide)
  · exact absurd ((identifiant_nouveauProduit n t).symm.trans hID) (by decide)
  · exact h
  · exact absurd hID (h "TempoT" (by decide))

/-- A line of an evacuation has three task fields. -/
theorem length_taches (h : LigneEcrite line) (hID : identifiant line = "Sortie".toList) :
    (champsTaches (champs line)).length = 3 := by
  obtain ⟨couleur, t, hlen, rfl⟩ := h.sortie hID
  rw [champs_sortie]
  unfold champsTaches
  simp [hlen]

end LigneEcrite

/-! ## The products of a log that is read -/

/-- The first digit of a number that has two of them. -/
theorem chiffre_entier {n p : ℤ} (h : chiffre (entier n) 0 = .ok p) : n = 0 ∨ 1 ≤ p := by
  rcases lt_trichotomy n 0 with hn | rfl | hn
  -- the sign is no digit
  · have hsigne : chiffre (entier n) 0 = .error .valueError := by
      unfold entier
      rw [if_pos hn]
      rfl
    rw [hsigne] at h
    cases h
  · exact .inl rfl
  · lift n to ℕ using hn.le
    obtain ⟨k, cs, hk, heq⟩ := exists_head_toDigits (n := n) (by omega)
    rw [entier_natCast, heq] at h
    have hint : int [Nat.digitChar k] = .ok p := h
    rw [int_digitChar (by omega)] at hint
    have hp := Except.ok.inj hint
    exact .inr (by omega)

section

variable [Floating F] {contenu Log : List Str} {c : Config F} {j : Journal F}

/-- The log of a run of the script that ends can be read. -/
theorem lisible_of_checker (hconfig : ConfigValide (F := F) contenu)
    (hvides : ∀ line ∈ Log, ¬EstLigne "Sortie" 0 line) (hok : checker contenu Log = .ok (c, j)) :
    LogLisible F Log := by
  obtain ⟨c₁, temps, -, -, htables, hnb, -, hchecker⟩ := hconfig.distincte.execution
  rw [hchecker] at hok
  obtain ⟨j₁, hj, -⟩ := bind_eq_ok.1 hok
  exact (lireLog_ok_iff htables hnb hvides).1 ⟨j₁, hj⟩

/-- The lines of the log manager have then the form that soundness asks for: a number with a second
digit does not start with zero. -/
theorem LigneEcrite.conforme {line : Str} (h : LigneEcrite line) (hlisible : LigneLisible F line)
    (hvide : ¬EstLigne "Sortie" 0 line) : LigneConforme line := by
  refine hlisible.conforme ?_ hvide
  rintro ⟨hID, hP⟩
  obtain ⟨p, -, -, ⟨t, ht⟩, -⟩ := hlisible.nouveauProduit hID
  obtain ⟨n, temps, rfl⟩ := h.nouveauProduit hID
  obtain ⟨hproduit, htype⟩ := chiffres_nouveauProduit n temps
  rw [hproduit] at hP
  rw [htype] at ht
  rcases chiffre_entier hP with rfl | hpos
  · cases ht
  · exact absurd hpos (by decide)

/-! ## Accepted logs with unfinished tasks -/

/-- The task fields of the ordered products that leave are zero or end in 3. -/
def TachesAchevees (ds : List (Declaration F)) (Log : List Str) : Prop :=
  ∀ line ∈ Log, ∀ p, 0 < nombreDe ds p → EstLigne "Sortie" p line →
    ∀ champ ∈ champsTaches (champs line), chiffre champ 0 ≠ .ok 0 → champ.getLast? = some '3'

/-- The log manager cannot write an accepted log of what is ordered: a product has more tasks than
it keeps, or a duration that is compared and that is no whole number. -/
def Irrealisable (ds : List (Declaration F)) : Prop :=
  ∃ D ∈ ds, 0 < D.nombre ∧ (3 < D.destinations.length ∨ ∃ x ∈ D.durees,
    Floating.eq x Floating.zero = false ∧
      ∀ n T, float (entier n ++ ['\n']) = .ok T → Floating.eq x T = false)

/-- A log of the log manager that is accepted makes what is ordered. -/
theorem realisable_of_accepte (hconfig : ConfigValide (F := F) contenu)
    (hecrites : ∀ line ∈ Log, LigneEcrite line) (hvides : ∀ line ∈ Log, ¬EstLigne "Sortie" 0 line)
    (hok : checker contenu Log = .ok (c, j)) (htest : j.test = 1) :
    ¬Irrealisable (declarations (F := F) contenu) := by
  have hds := hconfig.correctes
  have hz := hconfig.sans_erreur hok
  have hlisible := lisible_of_checker hconfig hvides hok
  have hconformes : ∀ line ∈ Log, LigneConforme line := fun line hline =>
    (hecrites line hline).conforme (hlisible.lignes line hline) (hvides line hline)
  rintro ⟨D, hD, hn, hlong | ⟨x, hx, hnonzero, hpas⟩⟩
  -- the fourth task is read as a cube that is not there
  · have hproduit := hds D hD
    obtain ⟨-, hsortis, -, htaches⟩ := (checker_correct hok hz hconfig.distincts hconformes htest).1
      D.produit hproduit.produit_pos hproduit.produit_le
    have hdecl := declarationDe_of_mem hconfig.distincts hD
    -- the product left at least once
    have hune : ∃ line ∈ Log, EstLigne "Sortie" D.produit line := by
      by_contra hrien
      push Not at hrien
      have hzero : nombreLignes "Sortie" D.produit Log = 0 := by
        unfold nombreLignes
        rw [List.countP_eq_zero]
        exact fun l hl hest => hrien l hl (of_decide_eq_true hest)
      unfold nombreDe at hsortis
      rw [hzero, hdecl] at hsortis
      have hsortis : (0 : ℤ) = D.nombre := hsortis
      omega
    obtain ⟨line, hline, hest⟩ := hune
    obtain ⟨taches, hlues, hcompleter⟩ := htaches line hline hest
    have hlen : taches.length = 3 := by
      rw [← (mapM_eq_ok.1 hlues).length_eq]
      exact (hecrites line hline).length_taches hest.1
    unfold destinationsDe completer at hcompleter
    rw [hdecl] at hcompleter
    have hquatre := congrArg (fun l : List ℤ => l[3]?) hcompleter
    dsimp only [Option.elim] at hquatre
    rw [List.getElem?_append_right hlen.le, List.getElem?_append_left hlong, hlen,
      List.getElem?_eq_getElem hlong] at hquatre
    have hd := hproduit.destination _ (List.getElem_mem hlong)
    have hzero : (List.replicate (maxTaches - 3) (0 : ℤ))[3 - 3]? = some 0 := rfl
    rw [hzero, Option.some_inj] at hquatre
    omega
  -- the duration that is compared is one of the log
  · obtain ⟨i, hi⟩ := List.getElem?_of_mem hx
    have hlt := (List.getElem?_eq_some_iff.1 hi).1
    rw [(hds D hD).nombre_durees] at hlt
    have hzip : (D.destinations[i], x) ∈ D.destinations.zip D.durees :=
      List.mem_of_getElem? (List.getElem?_zip_eq_some.2 ⟨List.getElem?_eq_getElem hlt, hi⟩)
    obtain ⟨T, hT, heq⟩ := checker_durees hconfig.distincte hok htest hD hn hzip hnonzero
    obtain ⟨⟨p, d, T'⟩, hmem, hplace⟩ := List.mem_map.1 (mem_of_derniere hT)
    obtain rfl : T' = T := congrArg (fun y : ℤ × ℤ × F => y.2.2) hplace
    obtain ⟨line, hline, ⟨hID, -⟩, -, hduree⟩ := mem_tempos.1 hmem
    obtain ⟨n, q, d', rfl⟩ := (hecrites line hline).tempoT hID
    unfold dureeDe at hduree
    rw [champs_tempoT, item_cons_three, ok_bind] at hduree
    exact absurd (heq.symm.trans (hpas d' T' hduree)) (by decide)

/-- The log manager's line for a task of an ordered product. -/
theorem lue_tache {ds : List (Declaration F)} (hds : ∀ D ∈ ds, D.Correcte) {x : ℤ × ℤ × F}
    (hx : x ∈ dureesComparees ds) {n : ℤ} {T : F} (hT : float (entier n ++ ['\n']) = .ok T)
    (heq : Floating.eq x.2.2 T = true) : EstLigne "TempoT" x.1 (ligneTempoT (code (x.1, 4)) x.2.1 n) ∧
      posteDe (ligneTempoT (code (x.1, 4)) x.2.1 n) = .ok x.2.1 ∧
      ∃ T, dureeDe (ligneTempoT (code (x.1, 4)) x.2.1 n) = .ok T ∧ Floating.eq x.2.2 T = true := by
  obtain ⟨hp, hd⟩ := dansTable_of_temps (fun D hD => (hds D hD).toValide) x (List.mem_filter.1 hx).1
  obtain ⟨hest, hposte, hduree⟩ := lue_tempoT (F := F) hp (d := x.2.1) (by omega) n
  exact ⟨hest, hposte, T, hduree.trans hT, heq⟩

/-- The log manager's lines for what is ordered, when no task is finished. -/
def ecritureInachevee (ds : List (Declaration F)) (duree : ℤ × ℤ × F → ℤ) : Ecriture F :=
  ecriture ds 2 3 fun x => ligneTempoT (code (x.1, 4)) x.2.1 (duree x)

/-- The log manager writes them, when the products have three cubes. -/
theorem ligneEcrite_inachevee {ds : List (Declaration F)} {duree : ℤ × ℤ × F → ℤ}
    (hcourts : ∀ p, 0 < nombreDe ds p → (destinationsDe ds p).length ≤ 3) :
    ∀ line ∈ (ecritureInachevee ds duree).log ds, LigneEcrite line := by
  intro line hline
  rcases List.mem_append.1 hline with hline | hline
  · obtain ⟨p, -, rfl⟩ := mem_commandes hline
    exact .apparition (code (p, 4)) 0 rfl
  rcases List.mem_append.1 hline with hline | hline
  · obtain ⟨x, -, rfl⟩ := List.mem_map.1 hline
    exact .tacheFinie x.2.1 (code (x.1, 4)) (duree x) 0 rfl
  · obtain ⟨p, hp, rfl⟩ := mem_commandes hline
    have hlen : (((p, 4) :: cubes (destinationsDe ds p) 2 3).map code).length = 4 := by
      rw [List.length_map, List.length_cons, length_cubes (hcourts p hp)]
    refine .evacuation (((p, 4) :: cubes (destinationsDe ds p) 2 3).map code) 0 ?_
    rw [lignesEcrites_evacuation hlen.ge, List.take_of_length_le hlen.le]
    rfl

/-- What can be made has at most three tasks on a product. -/
theorem courts_of_realisable {ds : List (Declaration F)} (h : ¬Irrealisable ds) :
    ∀ p, 0 < nombreDe ds p → (destinationsDe ds p).length ≤ 3 := by
  intro p hp
  obtain ⟨D, hD, -, hdecl⟩ := exists_of_nombreDe hp.ne'
  unfold nombreDe at hp
  unfold destinationsDe
  rw [hdecl] at hp ⊢
  exact not_lt.1 fun hlong => h ⟨D, hD, hp, .inl hlong⟩

/-- It has durations that the log manager writes. -/
theorem durees_of_realisable {ds : List (Declaration F)} (hdistincts : (ds.map Declaration.produit).Nodup)
    (h : ¬Irrealisable ds) : ∀ x ∈ dureesComparees ds,
      ∃ n T, float (entier n ++ ['\n']) = .ok T ∧ Floating.eq x.2.2 T = true := by
  intro x hx
  obtain ⟨hmem, hcond⟩ := List.mem_filter.1 hx
  obtain ⟨hp, hnonzero⟩ := of_decide_eq_true hcond
  obtain ⟨D, hD, htemps⟩ := List.mem_flatMap.1 hmem
  obtain ⟨y, hy, rfl⟩ := List.mem_map.1 htemps
  unfold nombreDe at hp
  rw [declarationDe_of_mem hdistincts hD] at hp
  by_contra hpas
  push Not at hpas
  refine h ⟨D, hD, hp, .inr ⟨y.2, (List.of_mem_zip hy).2, hnonzero, ?_⟩⟩
  exact fun n T hT => Bool.not_eq_true _ ▸ hpas n T hT

/-- The log manager writes an accepted log of a run in which no task is finished. -/
theorem exists_inacheve [LawfulFloating F] (hzero : ∃ time : F, float "0.00".toList = .ok time)
    (hconfig : ConfigValide (F := F) contenu) {D : Declaration F} (hD : D ∈ declarations contenu)
    (hn : 0 < D.nombre) (hrealisable : ¬Irrealisable (declarations (F := F) contenu)) :
    ∃ Log, (∀ line ∈ Log, LigneEcrite line) ∧ (∀ line ∈ Log, ¬EstLigne "Sortie" 0 line) ∧
      (∃ (c : Config F) (j : Journal F), checker contenu Log = .ok (c, j) ∧ j.test = 1) ∧
      ¬TachesAchevees (declarations (F := F) contenu) Log := by
  have hds := hconfig.correctes
  have hcourts := courts_of_realisable hrealisable
  choose! duree hduree using durees_of_realisable hconfig.distincts hrealisable
  have hlisible : (ecritureInachevee _ duree).Lisible (declarations (F := F) contenu) :=
    lisible_ecriture hds (by decide) (by decide) hcourts hzero fun x hx =>
      (hduree x hx).elim fun T hT => lue_tache hds hx hT.1 hT.2
  obtain ⟨c, j, hok, -, htest⟩ := checker_of_admis LawfulFloating.zero_eq_zero hconfig
    (hlisible.logAdmis hds hconfig.distincts)
  refine ⟨_, ligneEcrite_inachevee hcourts, hlisible.sans_vide hds, ⟨c, j, hok, htest⟩, ?_⟩
  -- the first task of `D` ends in 2
  intro h
  have hdecl := declarationDe_of_mem hconfig.distincts hD
  have hp : 0 < nombreDe (declarations (F := F) contenu) D.produit := by
    unfold nombreDe
    rwa [hdecl]
  obtain ⟨d, reste, hdest⟩ := List.exists_cons_of_ne_nil (hds D hD).taches
  have hd := (hds D hD).destination d (hdest ▸ List.mem_cons_self)
  have hdestinations : destinationsDe (declarations (F := F) contenu) D.produit = d :: reste := by
    unfold destinationsDe
    rw [hdecl, ← hdest]
    rfl
  have hline := mem_commandes_of_pos hds
    (ecritureInachevee (declarations (F := F) contenu) duree).sortie hp
  have hfin := h _ (List.mem_append_right _ (List.mem_append_right _ hline)) D.produit hp
    (hlisible.sortie D.produit hp).1 (entier (code (d, 2)))
  have hchamps : champsTaches (champs ((ecritureInachevee (declarations (F := F) contenu)
      duree).sortie D.produit)) = _ := champsTaches_evacuation _ _ _
  rw [hchamps, hdestinations] at hfin
  have hchiffre := (chiffre_code hd.1 (by omega) (show (0 : ℤ) ≤ 2 by decide) (by decide)).1
  have hdeux := hfin (by simp [cubes]) fun hnul => by
    have hd₀ : d = 0 := Except.ok.inj (hchiffre.symm.trans hnul)
    omega
  change (entier (10 * d + 2)).getLast? = some '3' at hdeux
  rw [entier_code hd.1 (by omega) (by decide) (by decide)] at hdeux
  exact absurd hdeux (by simp)

/-- **Unfinished tasks**, for every valid configuration: all accepted logs of the log manager,
without empty evacuations, have finished tasks only exactly when there is no such log or nothing is
ordered. -/
theorem taches_achevees_iff [LawfulFloating F] (hzero : ∃ time : F, float "0.00".toList = .ok time)
    (hconfig : ConfigValide (F := F) contenu) :
    (∀ Log, (∀ line ∈ Log, LigneEcrite line) → (∀ line ∈ Log, ¬EstLigne "Sortie" 0 line) →
      ∀ (c : Config F) (j : Journal F), checker contenu Log = .ok (c, j) → j.test = 1 →
        TachesAchevees (declarations (F := F) contenu) Log) ↔
    (∀ D ∈ declarations (F := F) contenu, D.nombre = 0) ∨
      Irrealisable (declarations (F := F) contenu) := by
  constructor
  · intro h
    by_contra hnon
    rw [not_or] at hnon
    obtain ⟨hcommande, hrealisable⟩ := hnon
    push Not at hcommande
    obtain ⟨D, hD, hn⟩ := hcommande
    have hpos : 0 < D.nombre := lt_of_le_of_ne (hconfig.correctes D hD).nombre_nonneg hn.symm
    -- a log with unfinished tasks exists as soon as one can be accepted
    obtain ⟨Log, hecrites, hvides, ⟨c, j, hok, htest⟩, hpas⟩ :=
      exists_inacheve hzero hconfig hD hpos hrealisable
    exact hpas (h Log hecrites hvides c j hok htest)
  · rintro (hrien | hirrealisable) Log hecrites hvides c j hok htest
    -- no product is ordered
    · intro line hline p hp
      obtain ⟨D, hD, -, hdecl⟩ := exists_of_nombreDe hp.ne'
      unfold nombreDe at hp
      rw [hdecl] at hp
      have hnul : D.nombre = 0 := hrien D hD
      exact absurd hp (by simp [hnul])
    · exact absurd hirrealisable (realisable_of_accepte hconfig hecrites hvides hok htest)

end

/-- A configuration that orders a product with four tasks. -/
def configQuatreTaches : List Str := ["1 : 1 2 3 4 : 5 5 5 5 : 1\n".toList]

/-- What it declares. -/
def declarationQuatreTaches : Declaration ℚ where
  produit := 1
  destinations := [1, 2, 3, 4]
  durees := [5, 5, 5, 5]
  nombre := 1

/-- Its tasks are checked, because the log manager keeps three of them and no log is accepted. -/
theorem taches_achevees_quatreTaches : Irrealisable (declarations (F := ℚ) configQuatreTaches) ∧
    ∀ Log, (∀ line ∈ Log, LigneEcrite line) → (∀ line ∈ Log, ¬EstLigne "Sortie" 0 line) →
      ∀ (c : Config ℚ) (j : Journal ℚ), checker configQuatreTaches Log = .ok (c, j) → j.test = 1 →
        TachesAchevees (declarations (F := ℚ) configQuatreTaches) Log := by
  have hligne : declaration "1 : 1 2 3 4 : 5 5 5 5 : 1\n".toList =
      .ok (some declarationQuatreTaches) := by decide +kernel
  have hdeclarations : declarations (F := ℚ) configQuatreTaches = [declarationQuatreTaches] :=
    declarations_cons_some hligne []
  have hconfig : ConfigValide (F := ℚ) configQuatreTaches := configValide_une hligne (by decide)
  have hirrealisable : Irrealisable (declarations (F := ℚ) configQuatreTaches) := by
    rw [hdeclarations]
    exact ⟨_, List.mem_cons_self, by decide, .inl (by decide)⟩
  exact ⟨hirrealisable, (taches_achevees_iff ⟨0, by decide +kernel⟩ hconfig).2 (.inr hirrealisable)⟩

/-- The log of a run that makes a product, and takes it out before its task on post 1 is
finished. -/
def logInacheve : List Str :=
  ["NouveauProduit: 24 :10.00\n".toList, "TempoT: 24: 1: 4\n".toList,
    "TempoT: 24: 4: 5\n".toList, "Sortie :24 :12 :43 :0 :35.25\n".toList]

/-- **An unfinished task is accepted.** -/
theorem inacheve_accepte : ConfigValide (F := ℚ) configUnProduit ∧
    (∀ line ∈ logInacheve, LigneEcrite line) ∧ (∀ line ∈ logInacheve, ¬EstLigne "Sortie" 0 line) ∧
    (checker (F := ℚ) configUnProduit logInacheve).map (fun x => (x.1.erreurConfig, x.2.test)) =
      .ok (0, 1) ∧
    ¬TachesAchevees (declarations (F := ℚ) configUnProduit) logInacheve := by
  refine ⟨configValide_unProduit, ?_, by decide +kernel, by decide +kernel, ?_⟩
  · simp only [logInacheve, List.forall_mem_cons]
    refine ⟨.apparition 24 10 ?_, .tacheFinie 1 24 4 12 ?_, .tacheFinie 4 24 5 20 ?_,
      .evacuation [24, 12, 43, 0] (141 / 4) ?_, by simp⟩
    all_goals decide +kernel
  · intro h
    rw [declarations_unProduit] at h
    have hdeux := h "Sortie :24 :12 :43 :0 :35.25\n".toList (by decide) 2 (by decide)
      (by decide +kernel) "12".toList (by decide +kernel) (by decide +kernel)
    exact absurd hdeux (by decide)

end Checker
