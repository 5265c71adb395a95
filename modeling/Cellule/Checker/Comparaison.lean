import Cellule.Checker.Completude

/-! # The durations that are compared

A table keeps the last duration written at each place, so one line of the log is compared for each
task of a product, whatever the others say.
-/

namespace Checker

open Python

variable {F : Type}

/-! ## The places of a table -/

/-- A row or a column of a table of `n`, where a negative subscript counts from the end. -/
def normaliser (n i : ℤ) : ℤ := if 1 ≤ i then i else i + n

/-- An entry, at the place of the tables where it is written. -/
def placeDe (x : ℤ × ℤ × F) : ℤ × ℤ × F := (normaliser 6 x.1, normaliser 8 x.2.1, x.2.2)

/-- A subscript is in range when its normal form is. -/
theorem normaliser_iff {n : ℕ} {i : ℤ} : (1 ≤ normaliser n i ∧ normaliser n i ≤ n) ↔
    -(n : ℤ) ≤ i - 1 ∧ i - 1 < n := by
  unfold normaliser
  split_ifs with hi
  · omega
  · omega

/-- Both name the same place. -/
theorem place_normaliser {n : ℕ} {i : ℤ} (h : 1 ≤ normaliser n i ∧ normaliser n i ≤ n) :
    place n (normaliser n i - 1) = place n (i - 1) := by
  have hrange := normaliser_iff.1 h
  unfold normaliser place
  by_cases hi : 1 ≤ i
  · rw [if_pos hi]
  · rw [if_neg hi, if_pos (by omega), if_neg (by omega), if_pos (by omega)]
    exact congrArg some (congrArg Int.toNat (by omega))

theorem item_normaliser {α : Type} {l : List α} {n : ℕ} {i : ℤ} (hn : l.length = n)
    (h : 1 ≤ normaliser n i ∧ normaliser n i ≤ n) :
    item l (normaliser n i - 1) = item l (i - 1) := by
  subst hn
  unfold item
  rw [place_normaliser h]

theorem setItem_normaliser {α : Type} {l : List α} {n : ℕ} {i : ℤ} (hn : l.length = n)
    (h : 1 ≤ normaliser n i ∧ normaliser n i ≤ n) (a : α) :
    setItem l (normaliser n i - 1) a = setItem l (i - 1) a := by
  subst hn
  unfold setItem
  rw [place_normaliser h]

/-- A write that does not raise is at a place of the table. -/
theorem dansTable_of_ecrireTemps {temps temps' : List (List F)} (h : Rectangle temps) {x : ℤ × ℤ × F}
    (hok : ecrireTemps temps x = .ok temps') : DansTable (placeDe x).1 (placeDe x).2.1 := by
  unfold ecrireTemps at hok
  obtain ⟨r, hr, hok⟩ := bind_eq_ok.1 hok
  obtain ⟨rangee, hrangee, -⟩ := bind_eq_ok.1 hok
  have hrange := range_of_item hr
  rw [h.1] at hrange
  have hp := normaliser_iff.2 hrange
  rw [← item_normaliser h.1 hp] at hr
  have hget := getElem?_of_item (sub_nonneg.2 hp.1) hr
  have hrangeDuree := range_of_setItem hrangee
  rw [h.2 _ r hget] at hrangeDuree
  exact ⟨hp, normaliser_iff.2 hrangeDuree⟩

/-- A write at a place of the table is the same with the normal forms. -/
theorem ecrireTemps_placeDe {temps : List (List F)} (h : Rectangle temps) {x : ℤ × ℤ × F}
    (hx : DansTable (placeDe x).1 (placeDe x).2.1) :
    ecrireTemps temps (placeDe x) = ecrireTemps temps x := by
  obtain ⟨hp, hd⟩ := hx
  have hitem : item temps ((placeDe x).1 - 1) = item temps (x.1 - 1) := item_normaliser h.1 hp
  unfold ecrireTemps
  rw [hitem]
  cases hr : item temps (x.1 - 1) with
  | error e => rfl
  | ok r =>
    have hr' := getElem?_of_item (sub_nonneg.2 hp.1) (hitem.trans hr)
    have hset : setItem r ((placeDe x).2.1 - 1) x.2.2 = setItem r (x.2.1 - 1) x.2.2 :=
      setItem_normaliser (h.2 _ r hr') hd _
    rw [ok_bind, ok_bind]
    refine congr (congrArg _ hset) ?_
    funext rangee
    exact setItem_normaliser h.1 hp rangee

/-- So is a table that is filled at its places. -/
theorem remplirTemps_placeDe [Floating F] {verif : List (ℤ × ℤ × F)}
    (h : ∀ x ∈ verif.map placeDe, DansTable x.1 x.2.1) :
    remplirTemps (verif.map placeDe) = remplirTemps verif := by
  induction verif using List.reverseRecOn with
  | nil => rfl
  | append_singleton verif x ih =>
    rw [List.map_append, List.forall_mem_append] at h
    obtain ⟨temps, hok, hforme, -⟩ := remplirTemps_ok h.1
    have hok' := (ih h.1).symm.trans hok
    rw [List.map_append]
    unfold remplirTemps at hok hok' ⊢
    rw [List.foldlM_append, List.foldlM_append, hok, hok', ok_bind, ok_bind, List.map_singleton,
      List.foldlM_cons, List.foldlM_cons, ecrireTemps_placeDe hforme (h.2 _ (by simp))]

/-- A table is filled exactly when all is written at its places. -/
theorem remplirTemps_ok_iff [Floating F] {verif : List (ℤ × ℤ × F)} :
    (∃ temps, remplirTemps verif = .ok temps) ↔ ∀ x ∈ verif.map placeDe, DansTable x.1 x.2.1 := by
  constructor
  · rintro ⟨temps, h⟩
    induction verif using List.reverseRecOn generalizing temps with
    | nil => simp
    | append_singleton verif x ih =>
      unfold remplirTemps at h
      rw [List.foldlM_append] at h
      obtain ⟨temps₁, h₁, hx⟩ := bind_eq_ok.1 h
      obtain ⟨temps₂, hx, -⟩ := bind_eq_ok.1 hx
      have hdans := ih temps₁ h₁
      obtain ⟨temps₁', hok', hforme, -⟩ := remplirTemps_ok hdans
      rw [remplirTemps_placeDe hdans] at hok'
      obtain rfl : temps₁ = temps₁' := Except.ok.inj (h₁.symm.trans hok')
      rw [List.map_append, List.forall_mem_append]
      exact ⟨hdans, List.forall_mem_singleton.2 (dansTable_of_ecrireTemps hforme hx)⟩
  · intro h
    obtain ⟨temps, hok, -⟩ := remplirTemps_ok h
    exact ⟨temps, (remplirTemps_placeDe h).symm.trans hok⟩

/-! ## The durations of a log -/

/-- The duration that a declaration gives for a task is the last one that the configuration has. -/
theorem derniere_temps {ds : List (Declaration F)} (hds : ∀ D ∈ ds, D.Valide)
    (hpostes : ∀ D ∈ ds, D.destinations.Nodup) (hdistincts : (ds.map Declaration.produit).Nodup)
    {D : Declaration F} (hD : D ∈ ds) {x : ℤ × F} (hx : x ∈ D.destinations.zip D.durees) :
    derniere (ds.flatMap Declaration.temps) D.produit x.1 = some x.2 := by
  have hmem : (D.produit, x.1, x.2) ∈ ds.flatMap Declaration.temps :=
    List.mem_flatMap.2 ⟨D, hD, List.mem_map.2 ⟨x, hx, rfl⟩⟩
  obtain ⟨T, hT⟩ := exists_derniere hmem
  rw [hT, duree_unique hds hpostes hdistincts hD hx (mem_of_derniere hT)]

section

variable [Floating F] {c : Config F} {j j' : Journal F} {line : Str}

/-- What a `TempoT` line read without an error says. -/
theorem lireTempoT_tempo (hID : identifiant line = "TempoT".toList)
    (hok : j.lireTempoT (champs line) = .ok j') :
    j'.verifConfigLog = j.verifConfigLog ++ [line].filterMap tempoDe := by
  unfold Journal.lireTempoT at hok
  obtain ⟨champ, hchamp, hok⟩ := bind_eq_ok.1 hok
  obtain ⟨c₀, hc₀, hok⟩ := bind_eq_ok.1 hok
  obtain ⟨P, hP, hok⟩ := bind_eq_ok.1 hok
  obtain ⟨champPoste, hposte, hok⟩ := bind_eq_ok.1 hok
  obtain ⟨d, hd, hok⟩ := bind_eq_ok.1 hok
  obtain ⟨champDuree, hduree, hok⟩ := bind_eq_ok.1 hok
  obtain ⟨T, hT, hok⟩ := bind_eq_ok.1 hok
  cases hok
  rw [int_strip_eq] at hP
  have hest : EstLigne "TempoT" P line := by
    refine ⟨hID, ?_⟩
    unfold produitDe chiffre
    rw [hchamp, ok_bind, hc₀, ok_bind, hP]
  have hposteDe : posteDe line = .ok d := bind_eq_ok.2 ⟨_, hposte, hd⟩
  have hdureeDe : dureeDe line = .ok T := bind_eq_ok.2 ⟨_, hduree, hT⟩
  rw [List.filterMap_cons, tempoDe_eq_some.2 ⟨hest, hposteDe, hdureeDe⟩]
  rfl

/-- A `Sortie` line keeps the durations. -/
theorem SortieLue.tempos (h : SortieLue c j line j') : j'.verifConfigLog = j.verifConfigLog := by
  cases h with
  | produit s hs hP n attendus attendu nbProduitLog r duree produitDuree hn hset hr hd hduree hatt
      hattendu heq =>
    rw [heq]
    exact (Journal.verifierSortie_conserve _ _ _ _ _ s).2
  | vide s hs hP attendus hatt heq =>
    rw [heq]
    split_ifs <;> rfl

/-- Each line adds the duration it says. -/
theorem lireLigne_tempo (hok : Journal.lireLigne c j line = .ok j') :
    j'.verifConfigLog = j.verifConfigLog ++ [line].filterMap tempoDe := by
  have hautre : identifiant line ≠ "TempoT".toList → j'.verifConfigLog = j.verifConfigLog →
      j'.verifConfigLog = j.verifConfigLog ++ [line].filterMap tempoDe := by
    intro hne heq
    rw [List.filterMap_cons, tempoDe_autre hne, heq]
    exact (List.append_nil _).symm
  cases Journal.lireLigne_inv hok with
  | erreur hID m hm poste heq =>
    exact hautre (identifiant_erreur_ne hID).1 ((congrArg Journal.verifConfigLog heq).trans rfl)
  | tempoT hID hok => exact lireTempoT_tempo hID hok
  | nouveauProduit hID hlu =>
    obtain ⟨P, pType, n, attendus, time, nbProduitNew, -, -, -, -, -, -, rfl⟩ := hlu
    apply hautre (hID.trans_ne (by decide))
    exact (congrArg Journal.verifConfigLog
      (Journal.verifierApparition_controle _ _ _ _ _ _).eq).trans rfl
  | sortie hID hlue => exact hautre (hID.trans_ne (by decide)) hlue.tempos
  | autre hID h₁ h₂ h₃ heq => exact hautre h₁ (congrArg Journal.verifConfigLog heq)

/-- The durations of the log are those of its lines, whatever the log. -/
theorem lireLog_tempos {Log : List Str} (hok : Journal.lireLog c j Log = .ok j') :
    j'.verifConfigLog = j.verifConfigLog ++ Log.filterMap tempoDe := by
  induction Log generalizing j with
  | nil =>
    cases hok
    exact (List.append_nil _).symm
  | cons line Log ih =>
    obtain ⟨j₁, h₁, hok⟩ := bind_eq_ok.1 hok
    rw [ih hok, lireLigne_tempo h₁, List.append_assoc, ← List.filterMap_append]
    rfl

/-- The last duration that a log writes at the place of a product and a task. -/
def derniereEcrite (Log : List Str) (p d : ℤ) : Option F :=
  derniere ((Log.filterMap tempoDe).map placeDe) p d

/-- The durations of a log, in a table. -/
theorem remplirTemps_lireLog {Log : List Str} {tempsLog : List (List F)}
    (hj : Journal.lireLog c .initial Log = .ok j)
    (htempsLog : remplirTemps j.verifConfigLog = .ok tempsLog) (p d : ℤ) (hpd : DansTable p d) :
    caseDe tempsLog p d = some ((derniereEcrite Log p d).getD Floating.zero) := by
  rw [lireLog_tempos hj] at htempsLog
  have hdans := remplirTemps_ok_iff.1 ⟨tempsLog, htempsLog⟩
  obtain ⟨tempsLog', hremplir, -, hcases⟩ := remplirTemps_ok hdans
  rw [remplirTemps_placeDe hdans] at hremplir
  obtain rfl : tempsLog = tempsLog' := Except.ok.inj (htempsLog.symm.trans hremplir)
  exact hcases p d hpd

/-! ## Accepted logs -/

/-- **What an accepted log says of the durations**: the last one written at the place of a task of
an ordered product is the one of the configuration, unless this one is zero. -/
theorem checker_durees {contenu Log : List Str} (hconfig : ConfigDistincte (F := F) contenu)
    (hok : checker contenu Log = .ok (c, j)) (htest : j.test = 1) {D : Declaration F}
    (hD : D ∈ declarations contenu) (hn : 0 < D.nombre) {x : ℤ × F}
    (hx : x ∈ D.destinations.zip D.durees) (hnonzero : Floating.eq x.2 Floating.zero = false) :
    ∃ T, derniereEcrite Log D.produit x.1 = some T ∧ Floating.eq x.2 T = true := by
  have hds := hconfig.valides
  obtain ⟨c₁, temps, -, -, htables, -, htemps, hchecker⟩ := hconfig.execution
  obtain ⟨temps', htemps', -, hcases⟩ := remplirTemps_ok (dansTable_of_temps hds)
  obtain rfl : temps = temps' := Except.ok.inj (htemps.symm.trans htemps')
  rw [hchecker] at hok
  obtain ⟨j₁, hj, hok⟩ := bind_eq_ok.1 hok
  obtain ⟨tempsLog, htempsLog, hok⟩ := bind_eq_ok.1 hok
  cases hok
  -- the cells that are compared
  have hpd : DansTable D.produit x.1 :=
    ⟨⟨(hds D hD).produit_pos, (hds D hD).produit_le⟩, (hds D hD).destination _ (List.of_mem_zip hx).1⟩
  have hcase := hcases _ _ hpd
  have hcaseLog := remplirTemps_lireLog hj htempsLog _ _ hpd
  rw [derniere_temps hds hconfig.postes hconfig.distincts hD hx] at hcase
  obtain ⟨r, hr, hduree⟩ := Option.bind_eq_some_iff.1 hcase
  obtain ⟨r', hr', hdureeLog⟩ := Option.bind_eq_some_iff.1 hcaseLog
  have hnombre := htables.nombre _ hpd.1.1 hpd.1.2
  unfold nombreDe at hnombre
  rw [declarationDe_of_mem hconfig.distincts hD] at hnombre
  have hcontrole := (Journal.comparer_controle c j₁.moyennes temps tempsLog).trans
    (Journal.conclure_controle c _)
  obtain ⟨-, ⟨hcompares, -⟩, -⟩ := hcontrole.test htest
  have hrangees : (D.nombre, r, r') ∈ c.nbProduit.zip (temps.zip tempsLog) := by
    apply List.mem_of_getElem? (i := (D.produit - 1).toNat)
    rw [List.getElem?_zip_eq_some, List.getElem?_zip_eq_some]
    exact ⟨hnombre, hr, hr'⟩
  have hpaire : (x.2, (derniereEcrite Log D.produit x.1).getD Floating.zero) ∈ r.zip r' :=
    List.mem_of_getElem? (List.getElem?_zip_eq_some.2 ⟨hduree, hdureeLog⟩)
  rcases hcompares _ hrangees hn.ne' _ hpaire with heq | heq
  · cases hderniere : (derniereEcrite Log D.produit x.1 : Option F) with
    | none =>
      rw [hderniere] at heq
      exact absurd (heq.symm.trans hnonzero) (by decide)
    | some T =>
      rw [hderniere] at heq
      exact ⟨T, rfl, heq⟩
  · exact absurd (heq.symm.trans hnonzero) (by decide)

/-- The lines of the log on a task of an ordered product carry the duration that is configured. -/
def DureesVerifiees (ds : List (Declaration F)) (Log : List Str) : Prop :=
  ∀ D ∈ ds, 0 < D.nombre → ∀ x ∈ D.destinations.zip D.durees, Floating.eq x.2 Floating.zero = false →
    ∀ line ∈ Log, EstLigne "TempoT" D.produit line → posteDe line = .ok x.1 →
      ∃ T, dureeDe line = .ok T ∧ Floating.eq x.2 T = true

/-- They carry the duration of the last line that writes at the same place of the table. -/
def DureesCoherentes (ds : List (Declaration F)) (Log : List Str) : Prop :=
  ∀ D ∈ ds, 0 < D.nombre → ∀ x ∈ D.destinations.zip D.durees, Floating.eq x.2 Floating.zero = false →
    ∀ line ∈ Log, EstLigne "TempoT" D.produit line → posteDe line = .ok x.1 →
      ∃ T T' : F, dureeDe line = .ok T ∧ derniereEcrite Log D.produit x.1 = some T' ∧
        Floating.eq T' T = true

/-- **Durations checked**, for every configuration of distinct products that visit no post twice and
every log that is accepted: the durations of the log are those of the configuration exactly when the
lines on each task agree with the last one on it. -/
theorem durees_verifiees_iff [LawfulFloating F] {contenu Log : List Str}
    (hconfig : ConfigDistincte (F := F) contenu) (hok : checker contenu Log = .ok (c, j))
    (htest : j.test = 1) :
    DureesVerifiees (declarations (F := F) contenu) Log ↔
      DureesCoherentes (declarations (F := F) contenu) Log := by
  constructor
  · intro h D hD hn x hx hnonzero line hline hest hposte
    obtain ⟨T, hT, heq⟩ := h D hD hn x hx hnonzero line hline hest hposte
    obtain ⟨T', hT', heq'⟩ := checker_durees hconfig hok htest hD hn hx hnonzero
    exact ⟨T, T', hT, hT', LawfulFloating.trans (LawfulFloating.symm heq') heq⟩
  · intro h D hD hn x hx hnonzero line hline hest hposte
    obtain ⟨T, T', hT, hT', heq⟩ := h D hD hn x hx hnonzero line hline hest hposte
    obtain ⟨T'', hT'', heq'⟩ := checker_durees hconfig hok htest hD hn hx hnonzero
    obtain rfl : T' = T'' := Option.some.inj (hT'.symm.trans hT'')
    exact ⟨T, hT, LawfulFloating.trans heq' heq⟩

end

/-- The log of the run that makes one product has the durations that are configured. -/
theorem durees_verifiees_unProduit : DureesVerifiees [declarationUnProduit] logUnProduit := by
  have hverdict : (checker (F := ℚ) configUnProduit logUnProduit).map (fun x => x.2.test) = .ok 1 := by
    decide +kernel
  have hcoherentes : DureesCoherentes (declarations (F := ℚ) configUnProduit) logUnProduit := by
    rw [declarations_unProduit]
    intro D hD _ x hx _ line hline hest hposte
    rw [List.mem_singleton.1 hD] at hx hest ⊢
    have hdurees : ∀ x ∈ declarationUnProduit.destinations.zip declarationUnProduit.durees,
        ∀ line ∈ logUnProduit, EstLigne "TempoT" 2 line → posteDe line = .ok x.1 →
          dureeDe line = .ok x.2 ∧ derniereEcrite logUnProduit 2 x.1 = some x.2 := by decide +kernel
    obtain ⟨hduree, hderniere⟩ := hdurees x hx line hline hest hposte
    exact ⟨x.2, x.2, hduree, hderniere, decide_eq_true rfl⟩
  cases hok : checker (F := ℚ) configUnProduit logUnProduit with
  | error e =>
    rw [hok] at hverdict
    cases hverdict
  | ok x =>
    rw [hok] at hverdict
    have hdurees := (durees_verifiees_iff configValide_unProduit.distincte hok
      (Except.ok.inj hverdict)).2 hcoherentes
    rwa [declarations_unProduit] at hdurees

/-- A configuration that orders two of this product. -/
def configDeuxProduits : List Str := ["\n".toList, "2 : 1 4 : 4 5 : 2\n".toList]

/-- The log of a run that makes them, where the task of the first one on post 1 took nine
seconds. -/
def logDeuxDurees : List Str :=
  ["NouveauProduit: 24 :10.00\n".toList, "TempoT: 24: 1: 9\n".toList,
    "TempoT: 24: 4: 5\n".toList, "Sortie :24 :13 :43 :0 :35.25\n".toList,
    "NouveauProduit: 24 :40.00\n".toList, "TempoT: 24: 1: 4\n".toList,
    "TempoT: 24: 4: 5\n".toList, "Sortie :24 :13 :43 :0 :65.25\n".toList]

/-- **A wrong duration is accepted when the next one is right.** -/
theorem deuxDurees_acceptees : ConfigValide (F := ℚ) configDeuxProduits ∧
    (checker (F := ℚ) configDeuxProduits logDeuxDurees).map (fun x => (x.1.erreurConfig, x.2.test)) =
      .ok (0, 1) ∧
    ¬DureesVerifiees (declarations (F := ℚ) configDeuxProduits) logDeuxDurees := by
  have hligne : declaration "2 : 1 4 : 4 5 : 2\n".toList =
      .ok (some { declarationUnProduit with nombre := 2 }) := by decide +kernel
  have hdeclarations : declarations (F := ℚ) configDeuxProduits =
      [{ declarationUnProduit with nombre := 2 }] :=
    (declarations_cons_none rfl _).trans (declarations_cons_some hligne [])
  refine ⟨(configValide_une hligne (by decide)).blanche rfl, by decide +kernel, ?_⟩
  rw [hdeclarations]
  intro h
  obtain ⟨T, hT, heq⟩ := h _ List.mem_cons_self (by decide) (1, 4) List.mem_cons_self
    (by decide +kernel) "TempoT: 24: 1: 9\n".toList (by decide) (by decide +kernel)
    (by decide +kernel)
  have hneuf : dureeDe "TempoT: 24: 1: 9\n".toList = .ok (9 : ℚ) := by decide +kernel
  obtain rfl : (9 : ℚ) = T := Except.ok.inj (hneuf.symm.trans hT)
  exact absurd heq (by decide +kernel)

end Checker
