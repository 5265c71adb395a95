import Cellule.Atelier.TachesAnnoncees
import Cellule.Checker.Attestation
import Cellule.Checker.Fabrication

/-! # A right production is accepted

The converse of what a good verdict attests, for a log that has its lines in the order of the
messages. The cell is asked for what the configuration orders and for nothing else; the script,
which has only the lines to judge by, reads them all without an exception and gives a good verdict.
-/

namespace Checker

open Python CommandeLocale.LogManager Reactive Atelier
open Robots (Horloge Pile nbCube)

/-! ## The lines at their times -/

/-- A line that the callback of a message writes, at a time of the simulator. -/
def LigneDatee (a : Avis) (ligne : Str) : Prop :=
  ∃ temps : ℚ, 0 ≤ temps ∧ lignesEcrites a.code temps = .ok [ligne]

section

variable {a : Avis} {ligne : Str}

/-- The line of an evacuation. -/
theorem ligneDatee_sortie {data : List ℤ} (h : LigneDatee (.produitEvac data) ligne) :
    ∃ temps : ℚ, 0 ≤ temps ∧ ligne = ligneSortie (data.take 4) temps := by
  obtain ⟨temps, htemps, h⟩ := h
  change Except.map _ ((if data.length < 4 then Prog.fault else
    Prog.publish (ligneSortie (data.take 4) temps) : Code Unit).run (horloge temps) () []) = _ at h
  split_ifs at h
  · cases h
  · exact ⟨temps, htemps, (List.cons.inj (Except.ok.inj h)).1.symm⟩

theorem ligneDatee_nouveauProduit {n : ℤ} (h : LigneDatee (.addProduct n) ligne) :
    ∃ temps : ℚ, 0 ≤ temps ∧ ligne = ligneNouveauProduit n temps := by
  obtain ⟨temps, htemps, h⟩ := h
  exact ⟨temps, htemps, (List.cons.inj (Except.ok.inj h)).1.symm⟩

theorem ligneDatee_tempoT {q n duree : ℤ} (h : LigneDatee (.tacheFinie q n duree) ligne) :
    ligne = ligneTempoT n q duree := by
  obtain ⟨temps, -, h⟩ := h
  exact (List.cons.inj (Except.ok.inj h)).1.symm

/-- It is a line of the message. -/
theorem LigneDatee.de (h : LigneDatee a ligne) : a.Ligne ligne := by
  cases a with
  | tacheFinie => exact ligneDatee_tempoT h
  | produitEvac =>
    obtain ⟨temps, -, h⟩ := ligneDatee_sortie h
    exact ⟨temps, h⟩
  | addProduct =>
    obtain ⟨temps, -, h⟩ := ligneDatee_nouveauProduit h
    exact ⟨temps, h⟩
  | erreurLog =>
    obtain ⟨temps, -, h⟩ := h
    exact lignesEcrites_erreurCallback h

end

/-- The lines on durations are those of the tasks that end. -/
theorem tacheFinie_of_ligne {a : Avis} {ligne : Str} (h : a.Ligne ligne)
    (hID : identifiant ligne = "TempoT".toList) : ∃ q code duree, a = .tacheFinie q code duree := by
  cases a with
  | tacheFinie q code duree => exact ⟨q, code, duree, rfl⟩
  | produitEvac data =>
    obtain ⟨temps, rfl⟩ := h
    exact absurd (hID.symm.trans (identifiant_sortie _ temps)) (by decide)
  | addProduct n =>
    obtain ⟨temps, rfl⟩ := h
    exact absurd (hID.symm.trans (identifiant_nouveauProduit n temps)) (by decide)
  | erreurLog code nPoste =>
    obtain ⟨debut, hdebut, rfl⟩ := h
    rcases identifiant_erreur hdebut nPoste with ⟨-, herreur⟩ | ⟨-, hautre⟩
    · exact absurd hID (identifiant_erreur_ne herreur).1
    · exact absurd (hID.symm.trans hautre) (by decide)

/-- The script does not know the line. -/
def Inconnue (ligne : Str) : Prop := ∀ ID ∈ identifiants, identifiant ligne ≠ ID.toList

theorem Inconnue.ne {ligne : Str} (h : Inconnue ligne) :
    identifiant ligne ≠ "NouveauProduit".toList ∧ identifiant ligne ≠ "Sortie".toList ∧
      identifiant ligne ≠ "TempoT".toList :=
  ⟨h "NouveauProduit" (by decide), h "Sortie" (by decide), h "TempoT" (by decide)⟩

/-- The lines of the messages follow what is already in the file. -/
theorem Ecrit.suite {log log' : List Avis} {Log lignes : List Str} (h : Ecrit log Log)
    (hlignes : List.Forall₂ Avis.Ligne log' lignes) : Ecrit (log ++ log') (Log ++ lignes) := by
  induction hlignes generalizing log Log with
  | nil =>
    rw [List.append_nil, List.append_nil]
    exact h
  | cons ha _ ih =>
    have hsuite := ih (h.avis ha)
    rwa [List.append_assoc, List.append_assoc] at hsuite

theorem Ecrit.inconnues {log : List Avis} {Log autres : List Str} (h : Ecrit log Log)
    (hautres : ∀ l ∈ autres, Inconnue l) : Ecrit log (Log ++ autres) := by
  induction autres generalizing Log with
  | nil =>
    rw [List.append_nil]
    exact h
  | cons l autres ih =>
    obtain ⟨hl, hautres⟩ := List.forall_mem_cons.1 hautres
    have hsuite := ih (h.autre hl.ne.1 hl.ne.2.1) hautres
    rwa [List.append_assoc] at hsuite

/-! ## What is right -/

/-- The production is what is ordered: each product was added as often, all have left with their
first three tasks at the posts that are ordered, every task has ended and was announced with its
duration, no evacuation was empty, and no error was published but those of a move during a task. -/
structure ProductionJuste (ds : List (Declaration ℚ)) (g : Registre) (log : List Avis) : Prop where
  nombres : ∀ p, 1 ≤ p → p ≤ 6 → (g.produits.count p : ℤ) = nombreDe ds p
  sortis : ∀ x ∈ g.exemplaires.items, ∃ k < g.sorties, x.1 = some (.sortie k)
  taches : ∀ x ∈ g.exemplaires.items, (x.2.taches.map Prod.fst).take 3 = destinationsDe ds x.2.produit ∧
    ∀ t ∈ x.2.taches, t.2 = true
  durees : ∀ q code (duree : ℤ), .tacheFinie q code duree ∈ log → 0 ≤ duree ∧ ∀ D ∈ ds,
    code = 10 * D.produit + 4 → ∀ x ∈ D.destinations.zip D.durees, x.1 = q → x.2 = duree
  evacuations : ∀ data, .produitEvac data ∈ log → data.headD 0 ≠ 0
  erreurs : ∀ code nPoste, .erreurLog code nPoste ∈ log → code = 3

/-! ## The lines are admissible -/

section

variable {ds : List (Declaration ℚ)} {e : Exemplaire}

/-- The tasks of a product are read on its line. -/
theorem tachesLues_pile (he : e.Sain)
    (hdestinations : (e.taches.map Prod.fst).take 3 = destinationsDe ds e.produit) :
    TachesLues (destinationsDe ds e.produit)
      ((troisCubes (tachesEcrites e)).map fun x => entier (Evenement.code x)) := by
  have hchamp : ∀ t ∈ e.taches, chiffre (entier (Evenement.code (t.1, if t.2 then 3 else 2))) 0 = .ok t.1 ∧
      ∃ type, chiffre (entier (Evenement.code (t.1, if t.2 then 3 else 2))) 1 = .ok type := by
    intro t ht
    obtain ⟨h₁, h₂⟩ := he.postes t ht
    have htype : (0 : ℤ) ≤ (if t.2 then 3 else 2) ∧ (if t.2 then 3 else 2 : ℤ) ≤ 9 := by
      split_ifs <;> decide
    obtain ⟨hnumero, htype⟩ := chiffre_code h₁ (by omega) htype.1 htype.2
    exact ⟨hnumero, _, htype⟩
  rw [← hdestinations]
  refine ⟨(e.taches.take 3).map fun t => entier (Evenement.code (t.1, if t.2 then 3 else 2)),
    List.replicate (3 - e.taches.length) (entier (Evenement.code (0, 0))), ?_, ?_, ?_⟩
  · obtain ⟨produit, taches⟩ := e
    unfold tachesEcrites troisCubes
    match taches with
    | [] => rfl
    | [a] => rfl
    | [a, b] => rfl
    | a :: b :: c :: reste => simp
  · rw [← List.map_take, List.forall₂_map_left_iff, List.forall₂_map_right_iff, List.forall₂_same]
    exact fun t ht => hchamp t (List.mem_of_mem_take ht)
  · intro champ hmem
    rw [(List.mem_replicate.1 hmem).2]
    decide

theorem ligneAdmise_sortie (he : e.Sain) (hp : 0 < nombreDe ds e.produit)
    (hdestinations : (e.taches.map Prod.fst).take 3 = destinationsDe ds e.produit) {temps : ℚ}
    (htemps : 0 ≤ temps) : LigneAdmise ds (ligneSortie (e.pile.toList.take 4) temps) := by
  rw [ligneSortie_pile]
  obtain ⟨hligne, htype, htime⟩ := lue_evacuation (F := ℚ) he.produit (troisCubes (tachesEcrites e)) htemps
  refine .sortie e.produit (tempsEcrit temps) hligne.1 hp hligne.2 htype ?_ ?_ ?_
  · rw [champsTaches_evacuation]
    exact tachesLues_pile he hdestinations
  · rw [champsTaches_evacuation]
    exact Nat.le_of_ble_eq_true rfl
  · rw [htime, (champTemps htemps).2.2]

theorem ligneAdmise_nouveauProduit {p : ℤ} (hp : 1 ≤ p ∧ p ≤ 6) (hpos : 0 < nombreDe ds p) {temps : ℚ}
    (htemps : 0 ≤ temps) : LigneAdmise ds (ligneNouveauProduit (10 * p + 4) temps) := by
  obtain ⟨hligne, htype, htime⟩ := lue_nouveauProduit (F := ℚ) hp htemps
  exact .nouveauProduit p (tempsEcrit temps) hligne.1 hpos hligne.2 htype
    (htime.trans (champTemps htemps).2.2)

/-- What is read on the line of a task. -/
theorem lue_tacheFinie {p q duree : ℤ} (hp : 1 ≤ p ∧ p ≤ 6) (hq : 0 ≤ q) (hduree : 0 ≤ duree) :
    EstLigne "TempoT" p (ligneTempoT (10 * p + 4) q duree) ∧
      posteDe (ligneTempoT (10 * p + 4) q duree) = .ok q ∧
      (dureeDe (ligneTempoT (10 * p + 4) q duree) : Except Exception ℚ) = .ok duree := by
  obtain ⟨hligne, hposte, hlue⟩ := lue_tempoT (F := ℚ) hp hq duree
  refine ⟨hligne, hposte, hlue.trans ?_⟩
  lift duree to ℕ using hduree
  rw [entier_natCast, float_toDigits]
  rfl

end

variable {τ : Type} [Horloge τ] {demandes : List (Demande τ)} {recit : List (Etape τ)} {s : Chronique τ}

namespace ProductionJuste

variable {ds : List (Declaration ℚ)}

/-- What is in the ledger is ordered. -/
theorem nombre_pos (hjuste : ProductionJuste ds (registre recit) s.log)
    (h : Consigne demandes recit s) {p : ℤ}
    (hp : p ∈ (registre recit).produits) : 0 < nombreDe ds p := by
  obtain ⟨hp₁, hp₂⟩ := h.catalogue hp
  rw [← hjuste.nombres p hp₁ hp₂]
  exact_mod_cast List.count_pos_iff.2 hp

/-- The line of a message is admissible. -/
theorem ligneAdmise (hjuste : ProductionJuste ds (registre recit) s.log) (h : Consigne demandes recit s)
    {temps₀ : τ}
    (hrun : Run (Recorded (Pas DuCatalogue)) (Cellule.initiale (fun _ => Pile.vide) temps₀) recit s.cellule)
    {a : Avis} (ha : a ∈ s.log) {ligne : Str} (hligne : LigneDatee a ligne) : LigneAdmise ds ligne := by
  cases a with
  | tacheFinie q code duree =>
    have hjournal : 0 < s.cellule.sim.journal.countP (estTacheFinie q code) :=
      List.countP_pos_iff.2 ⟨_, (h.taches q code duree).1 ha, by simp [estTacheFinie]⟩
    obtain ⟨⟨hq₁, hq₂⟩, p, hp, rfl⟩ := produit_annonce hrun hjournal
    obtain ⟨hestLigne, hposte, hduree⟩ :=
      lue_tacheFinie (h.catalogue hp) (by omega : 0 ≤ q) (hjuste.durees _ _ _ ha).1
    rw [ligneDatee_tempoT hligne]
    exact .tempoT p q duree hestLigne.1 (hjuste.nombre_pos h hp) hestLigne.2 hposte ⟨hq₁, hq₂⟩ hduree
  | produitEvac data =>
    obtain ⟨temps, htemps, rfl⟩ := ligneDatee_sortie hligne
    obtain ⟨x, hx, rfl⟩ := h.produit_sorti ha (hjuste.evacuations data ha)
    exact ligneAdmise_sortie (h.historiques.fidele.sains x hx)
      (hjuste.nombre_pos h (List.mem_map.2 ⟨x, hx, rfl⟩)) (hjuste.taches x hx).1 htemps
  | addProduct code =>
    obtain ⟨temps, htemps, rfl⟩ := ligneDatee_nouveauProduit hligne
    obtain ⟨p, hp, rfl⟩ := h.produit_ajoute ha
    exact ligneAdmise_nouveauProduit (h.catalogue hp) (hjuste.nombre_pos h hp) htemps
  | erreurLog code nPoste =>
    obtain ⟨debut, hdebut, rfl⟩ := hligne.de
    rcases identifiant_erreur hdebut nPoste with ⟨hcode, -⟩ | ⟨-, hID⟩
    · exact absurd (hjuste.erreurs code nPoste ha) hcode
    · refine .autre fun ID hmem => hID.trans_ne ?_
      have hne : ∀ ID ∈ identifiants, "ManipulationEnTraitement".toList ≠ ID.toList := by decide
      exact hne ID hmem

/-- What is read on the line of a task is what was announced. -/
theorem duree_lue (hjuste : ProductionJuste ds (registre recit) s.log) (h : Consigne demandes recit s)
    {temps₀ : τ}
    (hrun : Run (Recorded (Pas DuCatalogue)) (Cellule.initiale (fun _ => Pile.vide) temps₀) recit s.cellule)
    {a : Avis} (ha : a ∈ s.log) {ligne : Str} (hligne : LigneDatee a ligne) {D : Declaration ℚ} (hD : D ∈ ds)
    {x : ℤ × ℚ} (hx : x ∈ D.destinations.zip D.durees) (hestLigne : EstLigne "TempoT" D.produit ligne)
    (hposte : posteDe ligne = .ok x.1) : dureeDe ligne = .ok x.2 := by
  obtain ⟨q, code, duree, rfl⟩ := tacheFinie_of_ligne hligne.de hestLigne.1
  have hjournal : 0 < s.cellule.sim.journal.countP (estTacheFinie q code) :=
    List.countP_pos_iff.2 ⟨_, (h.taches q code duree).1 ha, by simp [estTacheFinie]⟩
  obtain ⟨⟨hq₁, -⟩, p, hp, rfl⟩ := produit_annonce hrun hjournal
  obtain ⟨hpositive, hduree⟩ := hjuste.durees _ _ _ ha
  obtain ⟨hlue, hlu, hlueDuree⟩ := lue_tacheFinie (h.catalogue hp) (by omega : 0 ≤ q) hpositive
  rw [ligneDatee_tempoT hligne] at hestLigne hposte ⊢
  obtain rfl : D.produit = p := Except.ok.inj (hestLigne.2.symm.trans hlue.2)
  rw [hlueDuree, hduree D hD rfl x hx (Except.ok.inj (hposte.symm.trans hlu))]

/-- As many products have left as were added. -/
theorem sorties (hjuste : ProductionJuste ds (registre recit) s.log) (h : Consigne demandes recit s) {p : ℤ}
    (hp : 1 ≤ p ∧ p ≤ 6) :
    (s.log.countP (estNouveau (estProduit p)) : ℤ) = nombreDe ds p ∧
      (s.log.countP (estSortie (estProduit p)) : ℤ) = nombreDe ds p := by
  have hnouveaux : (s.log.countP (estNouveau (estProduit p)) : ℤ) = nombreDe ds p := by
    rw [← h.count_produits, hjuste.nombres p hp.1 hp.2]
  have hsorties : s.log.countP (estSortie (estProduit p)) = s.log.countP (estNouveau (estProduit p)) := by
    rw [← h.somme (estProduit_zero hp.1), ← h.total]
    refine Inventory.sum_find_eq_total _ fun x hx => ?_
    obtain ⟨k, hk, hx⟩ := hjuste.sortis x hx
    exact ⟨_, Finset.mem_image_of_mem _ (Finset.mem_range.2 hk), hx⟩
  exact ⟨hnouveaux, hsorties ▸ hnouveaux⟩

/-- A task that is ordered was announced. -/
theorem annonce (hjuste : ProductionJuste ds (registre recit) s.log) (h : Consigne demandes recit s)
    {temps₀ : τ}
    (hrun : Run (Recorded (Pas DuCatalogue)) (Cellule.initiale (fun _ => Pile.vide) temps₀) recit s.cellule)
    {p q : ℤ} (hp : p ∈ (registre recit).produits) (hq : q ∈ destinationsDe ds p) :
    ∃ duree, .tacheFinie q (10 * p + 4) duree ∈ s.log := by
  obtain ⟨x, hx, rfl⟩ := List.mem_map.1 hp
  obtain ⟨hdestinations, hfinies⟩ := hjuste.taches x hx
  rw [← hdestinations] at hq
  obtain ⟨t, ht, rfl⟩ := List.mem_map.1 (List.mem_of_mem_take hq)
  -- the product weighs in the tasks that have ended
  have hpoids : 0 < x.2.finies t.1 x.2.produit := by
    rw [Exemplaire.finies, if_pos rfl, List.count_pos_iff, ← hfinies t ht]
    exact ht
  have hmem : x.2.finies t.1 x.2.produit ∈
      (registre recit).exemplaires.items.map fun y => y.2.finies t.1 x.2.produit :=
    List.mem_map.2 ⟨x, hx, rfl⟩
  have htotal : x.2.finies t.1 x.2.produit ≤ (registre recit).finies t.1 x.2.produit :=
    List.single_le_sum (fun _ _ => Nat.zero_le _) _ hmem
  have hjournal := (finies_registre hrun t.1 x.2.produit).2
  obtain ⟨m, hm, hfinie⟩ := List.countP_pos_iff.1 (hjournal ▸ hpoids.trans_le htotal)
  cases m with
  | tacheFinie numPoste numProduit duree =>
    simp only [estTacheFinie, Bool.and_eq_true, beq_iff_eq] at hfinie
    obtain ⟨rfl, hcode⟩ := hfinie
    rw [hcode] at hm
    exact ⟨duree, (h.taches _ _ _).2 hm⟩
  | _ => cases hfinie

end ProductionJuste

/-- **A right production is accepted.** When what the cell has done is what the configuration orders
and the log manager has written its lines in the order of the messages, at the times of the
simulator, between lines that the script does not know, the script ends without an exception and its
verdict is good. -/
theorem production_acceptee {temps₀ : τ}
    (h : Run (Guarded AuCatalogue Chronique.etape) (.initiale temps₀) demandes s) {contenu : List Str}
    (hconfig : ConfigValide (F := ℚ) contenu) {avant lignes apres : List Str}
    (hlignes : List.Forall₂ LigneDatee s.log lignes) (hautres : ∀ l ∈ avant ++ apres, Inconnue l) :
    ∃ recit, Run (Recorded (Pas DuCatalogue)) (Cellule.initiale (fun _ => Pile.vide) temps₀) recit s.cellule ∧
      recit.map (fun e => e.label.1) = demandes.map Demande.ordre ∧
      (ProductionJuste (declarations contenu) (registre recit) s.log →
        ∃ (c : Config ℚ) (j : Journal ℚ), checker contenu (avant ++ lignes ++ apres) = .ok (c, j) ∧
          c.erreurConfig = 0 ∧ j.test = 1) := by
  obtain ⟨recit, hrun, hconsigne⟩ := consigne_run h
  refine ⟨recit, hrun, hconsigne.ordres, fun hjuste => ?_⟩
  have hds := hconfig.correctes
  have hde : List.Forall₂ Avis.Ligne s.log lignes := hlignes.imp fun _ _ h => h.de
  obtain ⟨havant, hapres⟩ := List.forall_mem_append.1 hautres
  have hecrit : Ecrit s.log (avant ++ lignes ++ apres) :=
    ((Ecrit.nil.inconnues havant).suite hde).inconnues hapres
  have hpermis : Run (Guarded Chronique.Permis Chronique.etape) (.initiale temps₀) demandes s :=
    h.mono fun _ _ _ hpas => ⟨⟨hpas.1.1, hpas.1.2.1⟩, hpas.2⟩
  have hcompte := fun p => hecrit.nombreLignes (p := p) hconsigne.entier
  -- the line of a message, and what the others are not
  have hmessage : ∀ l ∈ avant ++ lignes ++ apres, (∃ a ∈ s.log, LigneDatee a l) ∨ Inconnue l := by
    intro l hl
    rcases List.mem_append.1 hl with hl | hl
    · rcases List.mem_append.1 hl with hl | hl
      · exact .inr (havant l hl)
      · exact .inl (exists_of_forall₂ hlignes.flip hl)
    · exact .inr (hapres l hl)
  refine checker_of_admis (decide_eq_true rfl) hconfig ⟨?_, ?_, ?_, ?_, ?_⟩
  · intro l hl
    rcases hmessage l hl with ⟨a, ha, hligne⟩ | hinconnue
    · exact hjuste.ligneAdmise hconsigne hrun ha hligne
    · exact .autre hinconnue
  · intro p hp
    rw [(hcompte p).1]
    exact (hjuste.sorties hconsigne (produit_le_six hds hp)).1
  · intro p hp
    rw [(hcompte p).2]
    exact (hjuste.sorties hconsigne (produit_le_six hds hp)).2
  · intro p hp lus hlus
    have hp₁ := (produit_le_six hds hp).1
    exact nombreLignes_le hpermis hecrit (by omega) hlus
  · intro D hD hpos x hx _
    have hdecl := declarationDe_of_mem hconfig.distincts hD
    have hnombre : nombreDe (declarations (F := ℚ) contenu) D.produit = D.nombre := by
      rw [nombreDe, hdecl]
      rfl
    have hdestinations : destinationsDe (declarations (F := ℚ) contenu) D.produit = D.destinations := by
      rw [destinationsDe, hdecl]
      rfl
    have hproduit : D.produit ∈ (registre recit).produits := by
      have hcount := hjuste.nombres D.produit (hds D hD).produit_pos (hds D hD).produit_le
      exact List.count_pos_iff.1 (by omega)
    constructor
    · obtain ⟨duree, hduree⟩ := hjuste.annonce hconsigne hrun hproduit
        (by rw [hdestinations]; exact (List.of_mem_zip hx).1)
      obtain ⟨ligne, hmem, hligne⟩ := exists_of_forall₂ hlignes hduree
      have hx₁ := (hds D hD).destination x.1 (List.of_mem_zip hx).1
      obtain ⟨hestLigne, hposte, -⟩ := lue_tacheFinie (hconsigne.catalogue hproduit) (by omega : 0 ≤ x.1)
        (hjuste.durees _ _ _ hduree).1
      rw [← ligneDatee_tempoT hligne] at hestLigne hposte
      exact ⟨ligne, List.mem_append_left _ (List.mem_append_right _ hmem), hestLigne, hposte⟩
    · intro l hl hestLigne hposte
      rcases hmessage l hl with ⟨a, ha, hligne⟩ | hinconnue
      · exact ⟨x.2, hjuste.duree_lue hconsigne hrun ha hligne hD hx hestLigne hposte, decide_eq_true rfl⟩
      · exact absurd hestLigne.1 hinconnue.ne.2.2

/-- The cell and the ledger, followed together. -/
def suivre (etat : Cellule τ × Registre) (o : Ordre τ) : Except Reactive.Prog.Stop (Cellule τ × Registre) :=
  (Cellule.executerOrdre o etat.1).map fun x => (x.2, (actions o (vue etat.1)).foldl Registre.apres etat.2)

/-- The ledger of a recorded run is the one that is followed. -/
theorem suivre_recit {temps₀ : τ} {c : Cellule τ}
    (h : Run (Recorded (Pas DuCatalogue)) (Cellule.initiale (fun _ => Pile.vide) temps₀) recit c) :
    (recit.map fun e => e.label.1).foldlM suivre
    (Cellule.initiale (fun _ => Pile.vide) temps₀, Registre.vide) =
      .ok (c, registre recit) := by
  induction h with
  | nil => rfl
  | @snoc recit c c' e _ hpas ih =>
    obtain ⟨rfl, rfl, -, -, hex⟩ := hpas
    rw [List.map_append, List.foldlM_append, ih]
    show List.foldlM suivre (e.before, registre recit) [e.label.1] = _
    have hregistre : registre (recit ++ [e]) = (registre recit).etape e := by
      rw [registre, List.foldl_append]
      rfl
    rw [List.foldlM_cons, suivre, hex, hregistre]
    rfl

/-- The file of one product is accepted, between the lines of the beginning and of the end. -/
theorem production_acceptee_unProduit : ∃ (c : Config ℚ) (j : Journal ℚ),
    checker configUneTache (["Creation fichier log: 1\n".toList] ++ lignesUnProduit ++
      ["\n".toList, "Petri termine\n".toList]) = .ok (c, j) ∧ c.erreurConfig = 0 ∧ j.test = 1 := by
  have hdecl : declaration (F := ℚ) "2 : 3 : 5 : 1\n".toList =
      .ok (some { produit := 2, destinations := [3], durees := [5], nombre := 1 }) := by decide +kernel
  have hdecls : declarations (F := ℚ) configUneTache =
      [{ produit := 2, destinations := [3], durees := [5], nombre := 1 }] := declarations_cons_some hdecl []
  obtain ⟨s, hs, hlog⟩ := run_unProduit
  have hlignes : List.Forall₂ LigneDatee s.log lignesUnProduit := by
    rw [hlog]
    exact .cons ⟨1, by decide, by decide +kernel⟩ (.cons ⟨0, by decide, by decide +kernel⟩
      (.cons ⟨20, by decide, by decide +kernel⟩ .nil))
  have hautres : ∀ l ∈ ["Creation fichier log: 1\n".toList] ++ ["\n".toList, "Petri termine\n".toList],
      Inconnue l := by
    show ∀ l ∈ _, ∀ ID ∈ identifiants, identifiant l ≠ ID.toList
    decide +kernel
  have hconfig : ConfigValide (F := ℚ) configUneTache := configValide_une hdecl (by decide)
  obtain ⟨recit, hrun, hordres, haccepte⟩ := production_acceptee hs hconfig hlignes hautres
  -- the ledger has one product, outside
  have hregistre : (registre recit).exemplaires.items = [(some (.sortie 0), ⟨2, [(3, true)]⟩)] ∧
      (registre recit).sorties = 1 := by
    have hsuivi := suivre_recit hrun
    rw [hordres] at hsuivi
    have hcalcul : (((commandeUnProduit 1).map Demande.ordre).foldlM suivre
        (Cellule.initiale (fun _ => Pile.vide) 0, Registre.vide)).map
          (fun x => (x.2.exemplaires.items, x.2.sorties)) =
        .ok ([(some (.sortie 0), ⟨2, [(3, true)]⟩)], 1) := by decide +kernel
    rw [hsuivi] at hcalcul
    exact Prod.mk.inj (Except.ok.inj hcalcul)
  refine haccepte ?_
  rw [hdecls, hlog]
  obtain ⟨hitems, hsorties⟩ := hregistre
  have hproduits : (registre recit).produits = [2] := by
    rw [Registre.produits, hitems]
    rfl
  refine ⟨fun p hp₁ hp₂ => ?_, ?_, ?_, ?_, ?_, ?_⟩
  · rw [hproduits]
    interval_cases p <;> rfl
  · rw [hitems, hsorties]
    exact List.forall_mem_singleton.2 ⟨0, Nat.zero_lt_one, rfl⟩
  · rw [hitems]
    exact List.forall_mem_singleton.2 ⟨rfl, List.forall_mem_singleton.2 rfl⟩
  · intro q code duree hmem
    obtain ⟨rfl, rfl, rfl⟩ : q = 3 ∧ code = 24 ∧ duree = 5 := by simpa [avisUnProduit] using hmem
    simp
  · simp [avisUnProduit]
  · simp [avisUnProduit]

end Checker
