import Cellule.Checker.Comparaison

/-! # The logs that are read

A log without empty evacuations is read without an exception exactly when each of its lines can be
read on its own and no product leaves before it came in. Whatever the lines say, the variables then
hold nothing of the lines before.
-/

namespace Checker

open Python

variable {F : Type}

/-! ## Lines that can be read -/

/-- `int(info[1].strip('\n'))`, the post of a line that reports an error. -/
def posteErreur (line : Str) : Except Exception ℤ := do int (strip '\n' (← item (champs line) 1))

section

variable (F) [Floating F]

/-- A `Sortie` line that can be read when nothing is left of the lines before. -/
structure SortieLisible (line : Str) : Prop where
  produit : ∃ p, produitDe line = .ok p ∧ p ≤ 6 ∧ (p ≠ 0 → ∃ t, typeDe line = .ok t)
  taches : ∀ champ ∈ champsTaches (champs line), ChampLisible champ
  nombre : (champsTaches (champs line)).length ≤ maxTaches
  temps : ∃ time : F, tempsSortie line = .ok time

/-- A line that can be read, whatever the lines before. -/
structure LigneLisible (line : Str) : Prop where
  erreur : EstErreur line → ∃ n, posteErreur line = .ok n
  tempoT : identifiant line = "TempoT".toList → ∃ x : ℤ × ℤ × F, tempoDe line = some x
  nouveauProduit : identifiant line = "NouveauProduit".toList → ∃ p, produitDe line = .ok p ∧ p ≤ 6 ∧
    (∃ t, typeDe line = .ok t) ∧ ∃ time : F, tempsNouveau line = .ok time
  sortie : identifiant line = "Sortie".toList → SortieLisible F line

/-- A log whose lines can be read, and where a product leaves only if one is inside. -/
structure LogLisible (Log : List Str) : Prop where
  lignes : ∀ line ∈ Log, LigneLisible F line
  ordre : ∀ lus line, lus ++ [line] <+: Log → ∀ p, p ≠ 0 → EstLigne "Sortie" p line →
    nombreLignes "Sortie" p lus < nombreLignes "NouveauProduit" p lus

end

/-- A digit is not negative. -/
theorem nonneg_of_chiffre {champ : Str} {i d : ℤ} (h : chiffre champ i = .ok d) : 0 ≤ d := by
  obtain ⟨c, -, hc⟩ := bind_eq_ok.1 h
  exact nonneg_of_int hc

theorem nonneg_of_produitDe {line : Str} {p : ℤ} (h : produitDe line = .ok p) : 0 ≤ p := by
  obtain ⟨champ, -, hchamp⟩ := bind_eq_ok.1 h
  exact nonneg_of_chiffre hchamp

theorem logLisible_snoc [Floating F] {Log : List Str} {line : Str} :
    LogLisible F (Log ++ [line]) ↔ LogLisible F Log ∧ LigneLisible F line ∧
      ∀ p, p ≠ 0 → EstLigne "Sortie" p line →
        nombreLignes "Sortie" p Log < nombreLignes "NouveauProduit" p Log := by
  constructor
  · intro h
    refine ⟨⟨fun l hl => h.lignes l (List.mem_append_left _ hl), ?_⟩, h.lignes line (by simp), ?_⟩
    · intro lus l hlus
      exact h.ordre lus l (hlus.trans (List.prefix_append _ _))
    · exact h.ordre Log line List.prefix_rfl
  · rintro ⟨h, hline, hordre⟩
    refine ⟨?_, ?_⟩
    · intro l hl
      rcases List.mem_append.1 hl with hl | hl
      · exact h.lignes l hl
      · rw [List.mem_singleton.1 hl]
        exact hline
    · intro lus l hlus
      rcases List.prefix_concat_iff.1 hlus with heq | hlus
      · obtain ⟨rfl, hl⟩ := List.append_inj' heq rfl
        cases hl
        exact hordre
      · exact h.ordre lus l hlus

/-! ## What the variables hold -/

/-- Nothing is left of the lines read, but the products that are still inside. -/
structure Vierge (lus : List Str) (j : Journal F) : Prop where
  nouveaux : j.nbProduitNew.length = 6
  sortis : j.nbProduitLog.length = 6
  durees : j.produitDuree.length = 6
  entrees : ∀ p, p ≠ 0 → j.produitEntree.countP (fun e => e.1 = p) + nombreLignes "Sortie" p lus =
    nombreLignes "NouveauProduit" p lus
  D_vide : j.D = Journal.videD
  DList_vide : j.DList = []

theorem vierge_initial [Floating F] : Vierge [] (Journal.initial : Journal F) where
  nouveaux := rfl
  sortis := rfl
  durees := rfl
  entrees _ _ := rfl
  D_vide := rfl
  DList_vide := rfl

section

variable [Floating F] {c : Config F} {ds : List (Declaration F)} {lus : List Str} {j : Journal F}
  {line : Str}

/-! ## One line -/

omit [Floating F] in
theorem lireErreur_ok_iff {m : ℤ → Message F} :
    (∃ j', j.lireErreur (champs line) m = .ok j') ↔ ∃ n, posteErreur line = .ok n := by
  unfold Journal.lireErreur posteErreur
  constructor
  · rintro ⟨j', hj'⟩
    obtain ⟨champ, hchamp, hj'⟩ := bind_eq_ok.1 hj'
    obtain ⟨n, hn, -⟩ := bind_eq_ok.1 hj'
    exact ⟨n, bind_eq_ok.2 ⟨champ, hchamp, hn⟩⟩
  · rintro ⟨n, hn⟩
    obtain ⟨champ, hchamp, hn⟩ := bind_eq_ok.1 hn
    rw [hchamp, ok_bind, hn]
    exact ⟨_, rfl⟩

theorem lireTempoT_ok_iff (hID : identifiant line = "TempoT".toList) :
    (∃ j', j.lireTempoT (champs line) = .ok j') ↔ ∃ x : ℤ × ℤ × F, tempoDe line = some x := by
  constructor
  · rintro ⟨j', hj'⟩
    have htempo := lireTempoT_tempo hID hj'
    obtain ⟨x, rfl⟩ := Journal.lireTempoT_inv hj'
    cases hx : (tempoDe line : Option (ℤ × ℤ × F)) with
    | none =>
      rw [List.filterMap_cons, hx] at htempo
      exact absurd htempo (by simp)
    | some y => exact ⟨y, rfl⟩
  · rintro ⟨⟨p, d, T⟩, hx⟩
    obtain ⟨⟨-, hP⟩, hd, hT⟩ := tempoDe_eq_some.1 hx
    exact ⟨_, lireTempoT_ok hP hd hT⟩

/-- A product that comes in is read when its line can be. -/
theorem lireNouveauProduit_ok_iff (h : Vierge lus j) (hnb : c.nbProduit.length = 6) :
    (∃ j', j.lireNouveauProduit c (champs line) = .ok j') ↔
      ∃ p, produitDe line = .ok p ∧ p ≤ 6 ∧ (∃ t, typeDe line = .ok t) ∧
        ∃ time : F, tempsNouveau line = .ok time := by
  constructor
  · rintro ⟨j', hj'⟩
    obtain ⟨P, pType, n, attendus, time, nbProduitNew, hP, htype, htime, hn, -, -, -⟩ :=
      Journal.lireNouveauProduit_eq_ok.1 hj'
    have hlt := lt_of_item hn
    rw [h.nouveaux] at hlt
    exact ⟨P, hP, by omega, ⟨pType, htype⟩, time, htime⟩
  · rintro ⟨p, hp, hle, ⟨t, ht⟩, time, htime⟩
    have hnonneg := nonneg_of_produitDe hp
    have hnew := h.nouveaux
    obtain ⟨n, hn⟩ := exists_item (l := j.nbProduitNew) (i := p - 1) (by omega) (by omega)
    obtain ⟨l', hl'⟩ := exists_setItem (l := j.nbProduitNew) (i := p - 1) (by omega) (by omega) (n + 1)
    obtain ⟨attendus, hatt⟩ := exists_item (l := c.nbProduit) (i := p - 1) (by omega) (by omega)
    exact ⟨_, Journal.lireNouveauProduit_eq_ok.2
      ⟨p, t, n, attendus, time, l', hp, ht, htime, hn, hl', hatt, rfl⟩⟩

/-- A line can be read up to its product when it has its digits and its time. -/
theorem analyserSortie_ok_iff (h : Vierge lus j) : (∃ s, j.analyserSortie (champs line) = .ok s) ↔
    (∃ p, produitDe line = .ok p ∧ (p ≠ 0 → ∃ t, typeDe line = .ok t)) ∧
      (∀ champ ∈ champsTaches (champs line), ChampLisible champ) ∧
      (champsTaches (champs line)).length ≤ maxTaches ∧ ∃ time : F, tempsSortie line = .ok time := by
  constructor
  · rintro ⟨s, hs⟩
    obtain ⟨hP, htype, htime, hDList, hremplir⟩ := analyserSortie_produit hs
    rw [h.DList_vide, List.nil_append] at hDList
    rw [hDList, h.D_vide] at hremplir
    obtain ⟨hlen, htaches⟩ := remplirD_ok_iff.1 ⟨_, hremplir⟩
    exact ⟨⟨s.P, hP, fun hP₀ => ⟨_, htype hP₀⟩⟩, htaches, hlen, _, htime⟩
  · rintro ⟨⟨p, hP, htype⟩, htaches, hlen, time, htime⟩
    obtain ⟨D, hD⟩ := (remplirD_ok_iff (D := Journal.videD)).2 ⟨hlen, htaches⟩
    obtain ⟨champ, hchamp, hchiffre⟩ := bind_eq_ok.1 hP
    obtain ⟨champTime, hchampTime, htime⟩ := bind_eq_ok.1 htime
    -- the type is read for a product only
    have htypeChamp : ∃ t, chiffreType p champ 0 = .ok t := by
      unfold chiffreType
      by_cases hp : p = 0
      · rw [if_neg (not_not.2 hp)]
        exact ⟨0, rfl⟩
      · obtain ⟨t, ht⟩ := htype hp
        obtain ⟨champ', hchamp', ht⟩ := bind_eq_ok.1 ht
        obtain rfl : champ = champ' := Except.ok.inj (hchamp.symm.trans hchamp')
        rw [if_pos hp]
        exact ⟨t, ht⟩
    obtain ⟨t, ht⟩ := htypeChamp
    unfold Journal.analyserSortie
    rw [hchamp, ok_bind, hchampTime]
    dsimp only
    rw [ok_bind, htime, ok_bind, hchiffre, ok_bind, ht, ok_bind, h.DList_vide, h.D_vide,
      List.nil_append, hD]
    exact ⟨_, rfl⟩

/-- A product that leaves is read when its line can be and one is inside; an empty evacuation when
its line can be. -/
theorem lireSortie_ok_iff (h : Vierge lus j) (ht : c.Tables ds) (hnb : c.nbProduit.length = 6)
    (hID : identifiant line = "Sortie".toList) :
    (∃ j', j.lireSortie c (champs line) = .ok j') ↔ SortieLisible F line ∧
      ∀ p, p ≠ 0 → EstLigne "Sortie" p line →
        nombreLignes "Sortie" p lus < nombreLignes "NouveauProduit" p lus := by
  constructor
  · rintro ⟨j', hj'⟩
    -- an entry of the product was found, so one is inside
    obtain ⟨s, hs, hle, hinterieur⟩ : ∃ s, j.analyserSortie (champs line) = .ok s ∧
        s.P ≤ 6 ∧ (s.P ≠ 0 → nombreLignes "Sortie" s.P lus < nombreLignes "NouveauProduit" s.P lus) := by
      cases Journal.lireSortie_eq_ok.1 hj' with
      | produit s hs hP n attendus attendu nbProduitLog r duree produitDuree hn hset hr hd =>
        have hlt := lt_of_item hn
        have hentrees := h.entrees s.P hP
        rw [h.sortis] at hlt
        rw [countP_sortirEntree hr hP, if_pos rfl] at hentrees
        exact ⟨s, hs, by omega, fun _ => by omega⟩
      | vide s hs hP => exact ⟨s, hs, by omega, fun hne => absurd hP hne⟩
    obtain ⟨⟨p, hP, htype⟩, htaches, hlen, htime⟩ := (analyserSortie_ok_iff h).1 ⟨s, hs⟩
    obtain rfl : p = s.P := Except.ok.inj (hP.symm.trans (analyserSortie_produit hs).1)
    refine ⟨⟨⟨s.P, hP, hle, htype⟩, htaches, hlen, htime⟩, ?_⟩
    intro q hq hest
    obtain rfl := (estLigne_iff hID hP q).1 hest
    exact hinterieur hq
  · rintro ⟨⟨⟨p, hP, hle, htype⟩, htaches, hlen, htime⟩, hordre⟩
    obtain ⟨s, hs⟩ := (analyserSortie_ok_iff h).2 ⟨⟨p, hP, htype⟩, htaches, hlen, htime⟩
    obtain rfl : p = s.P := Except.ok.inj (hP.symm.trans (analyserSortie_produit hs).1)
    have hnonneg := nonneg_of_produitDe hP
    obtain ⟨attendus, hatt⟩ := exists_item (l := c.nbProduit) (i := s.P - 1) (by omega) (by omega)
    by_cases hp : s.P = 0
    · exact ⟨_, Journal.lireSortie_eq_ok.2 (.vide s hs hp attendus hatt rfl)⟩
    · have hlog := h.sortis
      have hdurees := h.durees
      have hentrees := h.entrees s.P hp
      have hlt := hordre s.P hp ((estLigne_iff hID hP s.P).2 rfl)
      -- all subscripts are in range
      obtain ⟨n, hn⟩ := exists_item (l := j.nbProduitLog) (i := s.P - 1) (by omega) (by omega)
      obtain ⟨l', hl'⟩ := exists_setItem (l := j.nbProduitLog) (i := s.P - 1) (by omega) (by omega)
        (n + 1)
      obtain ⟨r, hr⟩ := sortirEntree_ok (P := s.P) (l := j.produitEntree) (by omega)
      obtain ⟨duree, hduree⟩ := exists_item (l := j.produitDuree) (i := s.P - 1) (by omega) (by omega)
      obtain ⟨durees', hdurees'⟩ := exists_setItem (l := j.produitDuree) (i := s.P - 1) (by omega)
        (by omega) (Floating.add duree (Floating.sub s.time r.1))
      have hrangee := item_of_getElem? (by omega) (ht.rangee s.P (by omega) hle)
      exact ⟨_, Journal.lireSortie_eq_ok.2 (.produit s hs hp n attendus _ l' r duree durees' hn hl' hr hduree
        hdurees' hatt hrangee rfl)⟩

/-- One turn of the loop. -/
theorem lireLigne_ok_iff (h : Vierge lus j) (ht : c.Tables ds) (hnb : c.nbProduit.length = 6) :
    (∃ j', Journal.lireLigne c j line = .ok j') ↔ LigneLisible F line ∧
      ∀ p, p ≠ 0 → EstLigne "Sortie" p line →
        nombreLignes "Sortie" p lus < nombreLignes "NouveauProduit" p lus := by
  -- an identifier is read by its branch, and the conditions on the others are empty
  have hcas : ∀ {P : Prop}, identifiant line ≠ "Sortie".toList →
      (P → LigneLisible F line) → (LigneLisible F line → P) →
      (P ↔ LigneLisible F line ∧ ∀ p, p ≠ 0 → EstLigne "Sortie" p line →
        nombreLignes "Sortie" p lus < nombreLignes "NouveauProduit" p lus) := by
    intro P hne hP hP'
    refine ⟨fun h => ⟨hP h, ?_⟩, fun h => hP' h.1⟩
    intro p _ hest
    exact absurd hest.1 hne
  have herreur : ∀ ID ∈ identifiantsErreur, identifiant line = ID.toList → ∀ m : ℤ → Message F,
      ((∃ j', j.lireErreur (champs line) m = .ok j') ↔ LigneLisible F line ∧
        ∀ p, p ≠ 0 → EstLigne "Sortie" p line →
          nombreLignes "Sortie" p lus < nombreLignes "NouveauProduit" p lus) := by
    intro ID hmem hID m
    obtain ⟨h₁, h₂, h₃⟩ := identifiant_erreur_ne ⟨ID, hmem, hID⟩
    rw [lireErreur_ok_iff]
    refine hcas h₃ (fun hn => ⟨fun _ => hn, ?_, ?_, ?_⟩) (fun hl => hl.erreur ⟨ID, hmem, hID⟩)
    · exact fun h => absurd h h₁
    · exact fun h => absurd h h₂
    · exact fun h => absurd h h₃
  unfold Journal.lireLigne
  dsimp only
  split_ifs with h₁ h₂ h₃ h₄ h₅ h₆ h₇
  · exact herreur _ (by decide) h₁ _
  · exact herreur _ (by decide) h₂ _
  · exact herreur _ (by decide) h₃ _
  · exact herreur _ (by decide) h₄ _
  · obtain ⟨hnouveau, hsortie, herr⟩ := identifiant_tempoT_ne h₅
    rw [lireTempoT_ok_iff h₅]
    refine hcas hsortie (fun hx => ⟨fun he => absurd he herr, fun _ => hx, ?_, ?_⟩)
      (fun hl => hl.tempoT h₅)
    · exact fun h => absurd h hnouveau
    · exact fun h => absurd h hsortie
  · obtain ⟨hsortie, herr⟩ := identifiant_nouveau_ne h₆
    rw [lireNouveauProduit_ok_iff h hnb]
    refine hcas hsortie (fun hx => ⟨fun he => absurd he herr, ?_, fun _ => hx, ?_⟩)
      (fun hl => hl.nouveauProduit h₆)
    · exact fun h => absurd h₆ (identifiant_tempoT_ne h).1
    · exact fun h => absurd h hsortie
  · obtain ⟨hnouveau, herr⟩ := identifiant_sortie_ne h₇
    rw [lireSortie_ok_iff h ht hnb h₇]
    refine and_congr_left fun _ => ⟨fun hx => ⟨?_, ?_, ?_, fun _ => hx⟩, fun hl => hl.sortie h₇⟩
    · exact fun he => absurd he herr
    · exact fun h => absurd h₇ (identifiant_tempoT_ne h).2.1
    · exact fun h => absurd h hnouveau
  -- a line that is passed over
  · refine iff_of_true ⟨j, rfl⟩ ⟨⟨fun he => absurd he (not_estErreur h₁ h₂ h₃ h₄), fun h => absurd h h₅,
      fun h => absurd h h₆, fun h => absurd h h₇⟩, ?_⟩
    exact fun p _ hest => absurd hest.1 h₇

/-- What the variables hold after one turn. -/
theorem Vierge.lireLigne (h : Vierge lus j) (hvide : ¬EstLigne "Sortie" 0 line) {j' : Journal F}
    (hok : Journal.lireLigne c j line = .ok j') : Vierge (lus ++ [line]) j' := by
  have hentrees : Entrees (lus ++ [line]) j' := Entrees.lireLigne h.entrees hok
  cases Journal.lireLigne_inv hok with
  | erreur hID m hm poste heq =>
    subst heq
    exact ⟨h.nouveaux, h.sortis, h.durees, hentrees, h.D_vide, h.DList_vide⟩
  | tempoT hID hok =>
    obtain ⟨x, rfl⟩ := Journal.lireTempoT_inv hok
    exact ⟨h.nouveaux, h.sortis, h.durees, hentrees, h.D_vide, h.DList_vide⟩
  | nouveauProduit hID hlu =>
    obtain ⟨P, pType, n, attendus, time, nbProduitNew, -, -, -, -, hset, -, rfl⟩ := hlu
    have hcontrole := Journal.verifierApparition_controle
      { j with nbProduitNew, produitEntree := j.produitEntree ++ [(P, time)] } attendus (n + 1) time P
      pType
    rw [hcontrole.eq] at hentrees ⊢
    exact ⟨(length_setItem hset).trans h.nouveaux, h.sortis, h.durees, hentrees, h.D_vide, h.DList_vide⟩
  | sortie hID hlue =>
    obtain ⟨s, hs, hP, n, attendus, attendu, nbProduitLog, r, duree, produitDuree, -, hset, -, -, hduree,
      -, -, rfl⟩ | ⟨s, hs, hP, -⟩ := hlue
    · have hcontrole := Journal.verifierSortie_controle
        { j with nbProduitLog, produitEntree := r.2, produitDuree } attendus (n + 1) attendu
        (s.P :: (s.D.take maxTaches).map Prod.fst) s
      generalize Journal.verifierSortie _ _ _ _ _ _ = j₁ at hcontrole hentrees ⊢
      rw [hcontrole.eq] at hentrees ⊢
      exact ⟨h.nouveaux, (length_setItem hset).trans h.sortis, (length_setItem hduree).trans h.durees,
        hentrees, rfl, rfl⟩
    -- an empty evacuation would have filled the buffers
    · exact absurd ((estLigne_iff hID (analyserSortie_produit hs).1 0).2 hP) hvide
  | autre hID h₁ h₂ h₃ heq =>
    subst heq
    exact ⟨h.nouveaux, h.sortis, h.durees, hentrees, h.D_vide, h.DList_vide⟩

theorem lireLog_append (l l' : List Str) :
    Journal.lireLog c j (l ++ l') = Journal.lireLog c j l >>= fun j' => Journal.lireLog c j' l' :=
  List.foldlM_append

theorem lireLog_snoc (l : List Str) :
    Journal.lireLog c j (l ++ [line]) = Journal.lireLog c j l >>= fun j' =>
      Journal.lireLigne c j' line := by
  rw [lireLog_append]
  congr 1
  funext j'
  unfold Journal.lireLog
  rw [List.foldlM_cons]
  cases Journal.lireLigne c j' line <;> rfl

/-- What is read of a log is read of its beginnings. -/
theorem lireLog_prefixe {l l' : List Str} (hl : l <+: l')
    (hok : ∃ j', Journal.lireLog c j l' = .ok j') :
    ∃ j', Journal.lireLog c j l = .ok j' := by
  obtain ⟨suite, rfl⟩ := hl
  obtain ⟨j', hj'⟩ := hok
  rw [lireLog_append] at hj'
  obtain ⟨j₁, h₁, -⟩ := bind_eq_ok.1 hj'
  exact ⟨j₁, h₁⟩

/-- What the variables hold after a log without empty evacuations. -/
theorem Vierge.lireLog {Log : List Str} (hvides : ∀ line ∈ Log, ¬EstLigne "Sortie" 0 line)
    (hok : Journal.lireLog c .initial Log = .ok j) : Vierge Log j := by
  induction Log using List.reverseRecOn generalizing j with
  | nil =>
    cases hok
    exact vierge_initial
  | append_singleton Log line ih =>
    rw [lireLog_snoc] at hok
    obtain ⟨j₁, h₁, hok⟩ := bind_eq_ok.1 hok
    exact (ih (fun l hl => hvides l (List.mem_append_left _ hl)) h₁).lireLigne
      (hvides line (by simp)) hok

/-- **The logs that are read**, when none of their lines is an empty evacuation. -/
theorem lireLog_ok_iff (ht : c.Tables ds) (hnb : c.nbProduit.length = 6) {Log : List Str}
    (hvides : ∀ line ∈ Log, ¬EstLigne "Sortie" 0 line) :
    (∃ j', Journal.lireLog c .initial Log = .ok j') ↔ LogLisible F Log := by
  induction Log using List.reverseRecOn with
  | nil => exact iff_of_true ⟨.initial, rfl⟩ ⟨by simp, fun lus line h => by simp at h⟩
  | append_singleton Log line ih =>
    have hLog : ∀ l ∈ Log, ¬EstLigne "Sortie" 0 l := fun l hl => hvides l (List.mem_append_left _ hl)
    rw [logLisible_snoc, ← ih hLog, lireLog_snoc]
    constructor
    · rintro ⟨j', hj'⟩
      obtain ⟨j₁, h₁, hj'⟩ := bind_eq_ok.1 hj'
      exact ⟨⟨j₁, h₁⟩, (lireLigne_ok_iff (.lireLog hLog h₁) ht hnb).1 ⟨j', hj'⟩⟩
    · rintro ⟨⟨j₁, h₁⟩, hline⟩
      rw [h₁, ok_bind]
      exact (lireLigne_ok_iff (.lireLog hLog h₁) ht hnb).2 hline

/-- A line that can be read has the form that soundness asks for, unless it is about product 0. -/
theorem LigneLisible.conforme (h : LigneLisible F line)
    (hnouveau : ¬EstLigne "NouveauProduit" 0 line) (hvide : ¬EstLigne "Sortie" 0 line) :
    LigneConforme line := by
  refine ⟨?_, fun hID => (h.sortie hID).nombre⟩
  rintro (hID | hID)
  · obtain ⟨p, hp, hle, -⟩ := h.nouveauProduit hID
    have hnonneg := nonneg_of_produitDe hp
    have hne : p ≠ 0 := fun hp₀ => hnouveau ⟨hID, hp₀ ▸ hp⟩
    exact ⟨p, hp, by omega, hle⟩
  · obtain ⟨p, hp, hle, -⟩ := (h.sortie hID).produit
    have hnonneg := nonneg_of_produitDe hp
    have hne : p ≠ 0 := fun hp₀ => hvide ⟨hID, hp₀ ▸ hp⟩
    exact ⟨p, hp, by omega, hle⟩

end

end Checker
