import Cellule.Atelier.Historique
import Cellule.Checker.Recherche

/-! # What an accepted log attests

The cell executes orders and publishes messages, the log manager writes a line for each of them, in
an order of its own, and the script reads the file and gives its verdict. `production_attestee` goes
through the three of them: when the verdict is good, every product that was added has left the cell,
and the posts of its tasks are those that the configuration orders.
-/

namespace Checker

open Python CommandeLocale.LogManager Reactive Atelier
open Robots (Horloge Pile nbCube)

/-! ## The lines of the messages -/

/-- A message about a product of the cell: its base when it is added, its stack when it leaves. -/
def AvisConforme : Avis → Prop
  | .addProduct code => ∃ p, 1 ≤ p ∧ p ≤ 6 ∧ code = 10 * p + 4
  | .produitEvac data => ∃ e : Exemplaire, e.Sain ∧ data = e.pile.toList
  | _ => True

/-- The tasks of a product as the script writes them. -/
def tachesEcrites (e : Exemplaire) : List (ℤ × ℤ) := e.taches.map fun t => (t.1, if t.2 then 3 else 2)

theorem pile_eq (e : Exemplaire) : e.pile = Evenement.pile e.produit (tachesEcrites e) := by
  rw [Exemplaire.pile, Evenement.pile, tachesEcrites, List.map_map]
  rfl

/-- A line that is neither of the two kinds that have fields to read. -/
theorem ligneConforme_of_ne {ligne : Str} (hnew : identifiant ligne ≠ "NouveauProduit".toList)
    (hsortie : identifiant ligne ≠ "Sortie".toList) : LigneConforme ligne where
  produit h := by
    rcases h with h | h
    · exact absurd h hnew
    · exact absurd h hsortie
  taches h := absurd h hsortie

section

variable {e : Exemplaire}

theorem estCube_troisCubes (he : e.Sain) : ∀ x ∈ troisCubes (tachesEcrites e), EstCube x := by
  have hvalide : ∀ x ∈ tachesEcrites e, (1 ≤ x.1 ∧ x.1 ≤ 8) ∧ (x.2 = 2 ∨ x.2 = 3) := by
    intro x hx
    obtain ⟨t, ht, rfl⟩ := List.mem_map.1 hx
    refine ⟨he.postes t ht, ?_⟩
    cases t.2
    · exact .inl rfl
    · exact .inr rfl
  unfold troisCubes
  simp only [List.forall_mem_cons]
  exact ⟨getD_valide hvalide 0, getD_valide hvalide 1, getD_valide hvalide 2, by simp⟩

theorem ligneSortie_pile (e : Exemplaire) (temps : ℚ) : ligneSortie (e.pile.toList.take 4) temps =
    ligneSortie (((e.produit, 4) :: troisCubes (tachesEcrites e)).map Evenement.code) temps := by
  rw [pile_eq, take_pile]

/-- The script reads the number of the product. -/
theorem produitDe_pile (he : e.Sain) (temps : ℚ) :
    produitDe (ligneSortie (e.pile.toList.take 4) temps) = .ok e.produit := by
  obtain ⟨h1, h6⟩ := he.produit
  rw [ligneSortie_pile, List.map_cons, (chiffres_sortie _ _ temps).1]
  exact (chiffre_code h1 (by omega) (by omega) (by omega)).1

/-- The script reads the posts of the first three tasks. -/
theorem tachesDe_pile (he : e.Sain) (temps : ℚ) :
    tachesDe (ligneSortie (e.pile.toList.take 4) temps) =
      .ok ((troisCubes (tachesEcrites e)).map Prod.fst) := by
  have hchiffres : ∀ l : List (ℤ × ℤ), (∀ x ∈ l, EstCube x) →
      (l.map fun x => entier (Evenement.code x)).mapM (fun champ => chiffre champ 0) =
        .ok (l.map Prod.fst) := by
    intro l hl
    induction l with
    | nil => rfl
    | cons x l ih =>
      obtain ⟨hx, hl⟩ := List.forall_mem_cons.1 hl
      rw [List.map_cons, List.mapM_cons, (chiffres_cube hx).1, ih hl]
      rfl
  rw [tachesDe, ligneSortie_pile, champsTaches_evacuation]
  exact hchiffres _ (estCube_troisCubes he)

end

/-- The line of a message can be read. -/
theorem ligneConforme_of_ligne {a : Avis} {ligne : Str} (ha : a.Ligne ligne) (hconforme : AvisConforme a) :
    LigneConforme ligne := by
  cases a with
  | tacheFinie numPoste numProduit duree =>
    have hID : identifiant ligne = "TempoT".toList := ha ▸ identifiant_tempoT _ _ _
    exact ligneConforme_of_ne (identifiant_tempoT_ne hID).1 (identifiant_tempoT_ne hID).2.1
  | produitEvac data =>
    obtain ⟨temps, rfl⟩ := ha
    obtain ⟨e, he, rfl⟩ := hconforme
    refine ⟨fun _ => ⟨_, produitDe_pile he temps, he.produit⟩, fun _ => ?_⟩
    rw [ligneSortie_pile, champsTaches_evacuation]
    exact Nat.le_of_ble_eq_true rfl
  | addProduct code =>
    obtain ⟨temps, rfl⟩ := ha
    obtain ⟨p, hp₁, hp₂, rfl⟩ := hconforme
    have hID := identifiant_nouveauProduit (10 * p + 4) temps
    refine ⟨fun _ => ⟨p, ?_, hp₁, hp₂⟩, fun hsortie => absurd hsortie (identifiant_nouveau_ne hID).1⟩
    rw [(chiffres_nouveauProduit _ temps).1]
    exact (chiffre_code hp₁ (by omega) (by omega) (by omega)).1
  | erreurLog code nPoste =>
    obtain ⟨debut, hdebut, rfl⟩ := ha
    rcases identifiant_erreur hdebut nPoste with ⟨-, herreur⟩ | ⟨-, hID⟩
    · exact ligneConforme_of_ne (identifiant_erreur_ne herreur).2.1 (identifiant_erreur_ne herreur).2.2
    · exact ligneConforme_of_ne (hID.trans_ne (by decide)) (hID.trans_ne (by decide))

theorem exists_of_forall₂ {α β : Type} {R : α → β → Prop} {l : List α} {l' : List β}
    (h : List.Forall₂ R l l') {a : α} (ha : a ∈ l) : ∃ b ∈ l', R a b := by
  induction h with
  | nil => exact absurd ha List.not_mem_nil
  | cons hR _ ih =>
    rcases List.mem_cons.1 ha with rfl | ha
    · exact ⟨_, List.mem_cons_self, hR⟩
    · obtain ⟨b, hb, hR⟩ := ih ha
      exact ⟨b, List.mem_cons_of_mem _ hb, hR⟩

/-- The lines about a product are as many as the messages about it. -/
theorem countP_lignes {p : ℤ} {publies : List Avis} {lignes : List Str}
    (h : List.Forall₂ Avis.Ligne publies lignes)
    (hentier : ∀ data, .produitEvac data ∈ publies → data.length = nbCube) :
    nombreLignes "NouveauProduit" p lignes = publies.countP (estNouveau (estProduit p)) ∧
      nombreLignes "Sortie" p lignes = publies.countP (estSortie (estProduit p)) := by
  induction h with
  | nil => exact ⟨rfl, rfl⟩
  | @cons a ligne publies lignes ha _ ih =>
    obtain ⟨hnew, hsortie⟩ := ih fun data hdata => hentier data (List.mem_cons_of_mem _ hdata)
    obtain ⟨hestNew, hestSortie⟩ := estLigne_of_ligne (p := p) ha fun data hdata =>
      hentier data (hdata ▸ List.mem_cons_self)
    unfold nombreLignes at hnew hsortie ⊢
    rw [List.countP_cons, List.countP_cons, List.countP_cons, List.countP_cons, hnew, hsortie]
    simp only [hestNew, hestSortie, decide_eq_true_eq, and_self]

/-- A file with a line for each message, in any order, and other lines. -/
def Fichier (publies : List Avis) (Log : List Str) : Prop :=
  ∃ lignes autres, List.Forall₂ Avis.Ligne publies lignes ∧ Log.Perm (lignes ++ autres) ∧
    ∀ l ∈ autres, identifiant l ≠ "NouveauProduit".toList ∧ identifiant l ≠ "Sortie".toList

namespace Fichier

variable {publies : List Avis} {Log : List Str}

/-- The line of a message. -/
theorem ligne (h : Fichier publies Log) {a : Avis} (ha : a ∈ publies) : ∃ ligne ∈ Log, a.Ligne ligne := by
  obtain ⟨lignes, autres, hlignes, hperm, -⟩ := h
  obtain ⟨ligne, hmem, hligne⟩ := exists_of_forall₂ hlignes ha
  exact ⟨ligne, hperm.mem_iff.2 (List.mem_append_left _ hmem), hligne⟩

/-- The script can read every line. -/
theorem conforme (h : Fichier publies Log) (hpublies : ∀ a ∈ publies, AvisConforme a) :
    ∀ l ∈ Log, LigneConforme l := by
  obtain ⟨lignes, autres, hlignes, hperm, hautres⟩ := h
  intro l hl
  rcases List.mem_append.1 (hperm.mem_iff.1 hl) with hl | hl
  · obtain ⟨a, ha, hligne⟩ := exists_of_forall₂ hlignes.flip hl
    exact ligneConforme_of_ligne hligne (hpublies a ha)
  · exact ligneConforme_of_ne (hautres l hl).1 (hautres l hl).2

/-- The lines about a product are as many as the messages about it. -/
theorem nombreLignes (h : Fichier publies Log)
    (hentier : ∀ data, .produitEvac data ∈ publies → data.length = nbCube) (p : ℤ) :
    nombreLignes "NouveauProduit" p Log = publies.countP (estNouveau (estProduit p)) ∧
      nombreLignes "Sortie" p Log = publies.countP (estSortie (estProduit p)) := by
  obtain ⟨lignes, autres, hlignes, hperm, hautres⟩ := h
  have hrien : ∀ ID, (∀ l ∈ autres, identifiant l ≠ ID.toList) → Checker.nombreLignes ID p autres = 0 :=
    fun ID hID => List.countP_eq_zero.2 fun l hl h => hID l hl (of_decide_eq_true h).1
  obtain ⟨hnew, hsortie⟩ := countP_lignes (p := p) hlignes hentier
  unfold Checker.nombreLignes at hnew hsortie hrien ⊢
  rw [hperm.countP_eq, hperm.countP_eq, List.countP_append, List.countP_append, hnew, hsortie,
    hrien _ fun l hl => (hautres l hl).1, hrien _ fun l hl => (hautres l hl).2]
  exact ⟨rfl, rfl⟩

end Fichier

/-- The file of the log manager, once it has handled everything. -/
theorem fichier_of_repos {evenements : List EvenementLog} {n : NoeudLog}
    (hn : Run (Guarded NoeudLog.SansPerte NoeudLog.etape) .initial evenements n) (hrepos : n.Repos)
    {Log autres : List Str} (hLog : Log.Perm (n.log ++ autres))
    (hautres : ∀ l ∈ autres,
      identifiant l ≠ "NouveauProduit".toList ∧ identifiant l ≠ "Sortie".toList) :
    Fichier n.publies Log := by
  have hpas : ∀ (_ : List EvenementLog) n e n', n.Inv →
      Guarded NoeudLog.SansPerte NoeudLog.etape n e n' → n'.Inv :=
    fun _ _ _ _ hinv hpas => NoeudLog.inv_etape hinv hpas.1 hpas.2
  obtain ⟨-, -, lignes, hlignes, hperm⟩ := (Run.invariant NoeudLog.inv_initial hpas hn).repos hrepos
  exact ⟨lignes, autres, hlignes, hLog.trans (hperm.symm.append_right autres), hautres⟩

/-- The product of a base. -/
theorem estProduit_base {p q : ℤ} (hq₁ : 1 ≤ q) (hq₂ : q ≤ 6) :
    estProduit p (10 * q + 4) = decide (q = p) := by
  rw [estProduit, (chiffre_code hq₁ (by omega) (by omega) (by omega)).1]
  exact decide_eq_decide.2 ⟨Except.ok.inj, congrArg _⟩

/-! ## The tasks -/

/-- The destinations of a product are posts. -/
theorem destinations_ne_zero {F : Type} {ds : List (Declaration F)} (hds : ∀ d ∈ ds, d.Valide) (p : ℤ) :
    ∀ x ∈ destinationsDe ds p, x ≠ 0 := by
  intro x hx
  unfold destinationsDe at hx
  cases hd : declarationDe ds p with
  | none =>
    rw [hd] at hx
    exact absurd hx List.not_mem_nil
  | some d =>
    rw [hd] at hx
    have hposte := ((hds d (List.mem_of_find?_eq_some hd)).destination x hx).1
    omega

/-- Tasks are found again in the row that they complete. -/
theorem eq_of_completer {l l' : List ℤ} (h : completer l = completer l') :
    l.filter (· ≠ 0) = l'.filter (· ≠ 0) := by
  have hfilter : ∀ l : List ℤ, (completer l).filter (· ≠ 0) = l.filter (· ≠ 0) := by
    intro l
    rw [completer, List.filter_append, List.filter_replicate]
    simp
  rw [← hfilter l, h, hfilter]

/-- The tasks that are read are the first three. -/
theorem filter_troisCubes {e : Exemplaire} (he : e.Sain) :
    ((troisCubes (tachesEcrites e)).map Prod.fst).filter (· ≠ 0) = (e.taches.map Prod.fst).take 3 := by
  have hne : ∀ t ∈ e.taches, t.1 ≠ 0 := fun t ht h => by
    have hposte := (he.postes t ht).1
    omega
  obtain ⟨produit, taches⟩ := e
  unfold tachesEcrites troisCubes
  match taches, hne with
  | [], _ => rfl
  | [a], hne =>
    rw [List.forall_mem_cons] at hne
    simp [hne.1]
  | [a, b], hne =>
    rw [List.forall_mem_cons, List.forall_mem_cons] at hne
    simp [hne.1, hne.2.1]
  | a :: b :: c :: reste, hne =>
    rw [List.forall_mem_cons, List.forall_mem_cons, List.forall_mem_cons] at hne
    simp [hne.1, hne.2.1, hne.2.2.1]

/-! ## The log of a run -/

/-- The codes of the products that a log says to be added. -/
def codesLog (log : List Avis) : List ℤ :=
  log.filterMap fun
    | .addProduct code => some code
    | _ => none

theorem codesLog_append (log log' : List Avis) : codesLog (log ++ log') = codesLog log ++ codesLog log' :=
  List.filterMap_append

theorem countP_codesLog (f : ℤ → Bool) (log : List Avis) :
    log.countP (estNouveau f) = (codesLog log).countP f := by
  unfold codesLog
  rw [List.countP_filterMap]
  apply List.countP_congr
  intro a _
  cases a <;> rfl

/-- The journal of the cell adds no product. -/
theorem codesLog_avisDe (journal : List Robots.Message) : codesLog (avisDe journal) = [] := by
  refine List.filterMap_eq_nil_iff.2 fun a ha => ?_
  obtain ⟨m, -, hm⟩ := List.mem_filterMap.1 ha
  cases m <;> cases hm <;> rfl

variable {τ : Type}

/-- An order adds one product at most. -/
theorem codesLog_messages (d : Demande τ) {ms : List Avis} (hms : codesLog ms = []) :
    codesLog (messages d ms) = ((produitAjoute d.ordre).map fun p => 10 * p + 4).toList := by
  have hneufs : codesLog (Atelier.nouveaux d.ordre) =
      ((produitAjoute d.ordre).map fun p => 10 * p + 4).toList := by
    cases d.ordre with
    | ajouterProduit produit poste =>
      rw [produitAjoute, Atelier.nouveaux, mul_comm produit]
      rfl
    | _ => rfl
  unfold messages
  split_ifs
  · rw [codesLog_append, hms, List.append_nil, hneufs]
  · rw [codesLog_append, hms, List.nil_append, hneufs]

/-- The ends of tasks that an order adds to the log are those that it publishes. -/
theorem tacheFinie_mem_messages {d : Demande τ} {journal : List Robots.Message} {q code duree : ℤ} :
    .tacheFinie q code duree ∈ messages d (avisDe journal) ↔ .tacheFinie q code duree ∈ journal := by
  have hneufs : Avis.tacheFinie q code duree ∉ Atelier.nouveaux d.ordre := by
    cases d.ordre <;> simp [Atelier.nouveaux]
  have hjournal : Avis.tacheFinie q code duree ∈ avisDe journal ↔ .tacheFinie q code duree ∈ journal := by
    unfold avisDe
    rw [List.mem_filterMap]
    constructor
    · rintro ⟨m, hm, ha⟩
      cases m <;> cases ha
      exact hm
    · exact fun hm => ⟨_, hm, rfl⟩
  unfold messages
  split_ifs <;> simp [hneufs, hjournal]

variable [Horloge τ]

/-- An order that reaches the cell: nothing is evacuated during a task of post 3, and what is added
is a product of the catalogue. -/
def AuCatalogue (s : Chronique τ) (d : Demande τ) : Prop := d.ordre.Valide ∧ DuCatalogue s.cellule d.ordre

/-- The log of a run and its story. -/
structure Consigne (demandes : List (Demande τ)) (recit : List (Etape τ)) (s : Chronique τ) : Prop where
  historiques : SuiviHistoriques recit s.cellule
  ordres : recit.map (fun e => e.label.1) = demandes.map Demande.ordre
  evacues : evacuesDe s.cellule.sim.journal = evacuesLog s.log
  codes : codesLog s.log = (registre recit).produits.map fun p => 10 * p + 4
  taches : ∀ q code duree,
    .tacheFinie q code duree ∈ s.log ↔ .tacheFinie q code duree ∈ s.cellule.sim.journal

/-- Every run has its story. -/
theorem consigne_run {temps₀ : τ} {demandes : List (Demande τ)} {s : Chronique τ}
    (h : Run (Guarded AuCatalogue Chronique.etape) (.initiale temps₀) demandes s) :
    ∃ recit, Run (Recorded (Pas DuCatalogue)) (Cellule.initiale (fun _ => Pile.vide) temps₀) recit s.cellule ∧
      Consigne demandes recit s := by
  induction h with
  | nil => exact ⟨[], .nil, suiviHistoriques_initiale temps₀, rfl, rfl, rfl,
      fun _ _ _ => iff_of_false List.not_mem_nil List.not_mem_nil⟩
  | @snoc demandes s s' d _ hpas ih =>
    obtain ⟨recit, hrun, hconsigne⟩ := ih
    obtain ⟨⟨ho, hg⟩, hetape⟩ := hpas
    unfold Chronique.etape at hetape
    split at hetape
    · rename_i res c hex
      rw [← Option.some.inj hetape]
      let e : Etape τ := ⟨s.cellule, (d.ordre, res), c⟩
      have hrecorded : Recorded (Pas DuCatalogue) s.cellule e c := ⟨rfl, rfl, ho, hg, hex⟩
      have hhistoriques := hconsigne.historiques.pas hrecorded
      have hevacues := evacues_avisDe (journal_executerOrdre hex)
      have hcodes := codesLog_messages d
        (codesLog_avisDe (c.sim.journal.drop s.cellule.sim.journal.length))
      refine ⟨recit ++ [e], hrun.snoc hrecorded, hhistoriques, ?_, ?_, ?_, fun q code duree => ?_⟩
      · rw [List.map_append, List.map_append, hconsigne.ordres]
        rfl
      · show (vue c).evacues = _
        rw [hevacues, evacuesLog_append, evacuesLog_messages, ← hconsigne.evacues]
        rfl
      · have havant := hconsigne.codes
        rw [hconsigne.historiques.produits] at havant
        rw [codesLog_append, hcodes, havant, hhistoriques.produits, List.filterMap_append, List.map_append]
        congr 1
        show _ = (List.filterMap _ [e]).map _
        rw [List.filterMap_cons]
        cases produitAjoute d.ordre <;> rfl
      · show _ ↔ Robots.Message.tacheFinie q code duree ∈ c.sim.journal
        rw [List.mem_append, tacheFinie_mem_messages, hconsigne.taches,
          ← List.prefix_iff_eq_append.1 (journal_executerOrdre hex), List.mem_append, List.drop_left]
    · cases hetape

/-! ## Counts -/

/-- A product of a class counts for one. -/
def poidsDe (f : ℤ → Bool) (e : Exemplaire) : ℕ := if f (10 * e.produit + 4) then 1 else 0

namespace Consigne

variable {demandes : List (Demande τ)} {recit : List (Etape τ)} {s : Chronique τ}

/-- The products of a class, wherever they are. -/
theorem total (h : Consigne demandes recit s) (f : ℤ → Bool) :
    (registre recit).exemplaires.total (poidsDe f) = s.log.countP (estNouveau f) := by
  rw [countP_codesLog, h.codes, Registre.produits, List.map_map, List.countP_map, Inventory.total]
  induction (registre recit).exemplaires.items with
  | nil => rfl
  | cons x items ih =>
    rw [List.map_cons, List.sum_cons, List.countP_cons, ih, Nat.add_comm]
    rfl

/-- The products of a class that have left. -/
theorem somme (h : Consigne demandes recit s) {f : ℤ → Bool} (hf : f 0 = false) :
    ∑ l ∈ (Finset.range (registre recit).sorties).image Lieu.sortie,
        ((registre recit).exemplaires.find l).elim 0 (poidsDe f) = s.log.countP (estSortie f) := by
  have hune : ∀ l, ((registre recit).exemplaires.find l).elim 0 (poidsDe f) =
      if f (((registre recit).pile l).toList.headD 0) = true then 1 else 0 := by
    intro l
    rw [Registre.pile]
    cases (registre recit).exemplaires.find l with
    | none =>
      show 0 = if f 0 = true then 1 else 0
      rw [hf]
      rfl
    | some e => rfl
  rw [Finset.sum_image fun k _ k' _ hk => Lieu.sortie.inj hk, ← countP_evacuesLog, ← h.evacues,
    h.historiques.evacues, List.countP_map]
  simp only [hune]
  induction (registre recit).sorties with
  | zero => rfl
  | succ n ih =>
    rw [Finset.sum_range_succ, ih, List.range_succ, List.countP_append, List.countP_singleton]
    rfl

/-- A stack that has left is that of a product. -/
theorem sortie (h : Consigne demandes recit s) {data : List ℤ} (hdata : .produitEvac data ∈ s.log) :
    ∃ k ∈ Finset.range (registre recit).sorties, data = ((registre recit).pile (.sortie k)).toList := by
  have hmem : data ∈ evacuesLog s.log := List.mem_filterMap.2 ⟨_, hdata, rfl⟩
  rw [← h.evacues, h.historiques.evacues] at hmem
  obtain ⟨k, hk, rfl⟩ := List.mem_map.1 hmem
  exact ⟨k, Finset.mem_range.2 (List.mem_range.1 hk), rfl⟩

/-- A stack that is not empty is that of a product of the ledger. -/
theorem produit_sorti (h : Consigne demandes recit s) {data : List ℤ} (hdata : .produitEvac data ∈ s.log)
    (hbase : data.headD 0 ≠ 0) :
    ∃ x ∈ (registre recit).exemplaires.items, data = x.2.pile.toList := by
  obtain ⟨k, -, rfl⟩ := h.sortie hdata
  rw [Registre.pile] at hbase ⊢
  cases hfind : (registre recit).exemplaires.find (.sortie k) with
  | none =>
    rw [hfind] at hbase
    exact absurd rfl hbase
  | some e =>
    obtain ⟨i, hi⟩ := Inventory.find_eq_some_iff.1 hfind
    exact ⟨_, List.mem_of_getElem? hi, rfl⟩

/-- A product that the log says to be added is in the ledger. -/
theorem produit_ajoute (h : Consigne demandes recit s) {code : ℤ} (hcode : .addProduct code ∈ s.log) :
    ∃ p ∈ (registre recit).produits, code = 10 * p + 4 := by
  have hmem : code ∈ codesLog s.log := List.mem_filterMap.2 ⟨_, hcode, rfl⟩
  rw [h.codes] at hmem
  obtain ⟨p, hp, rfl⟩ := List.mem_map.1 hmem
  exact ⟨p, hp, rfl⟩

theorem catalogue (h : Consigne demandes recit s) {p : ℤ} (hp : p ∈ (registre recit).produits) :
    1 ≤ p ∧ p ≤ 6 := by
  obtain ⟨x, hx, rfl⟩ := List.mem_map.1 hp
  exact (h.historiques.fidele.sains x hx).produit

/-- The messages are about products of the catalogue, when no evacuation is empty. -/
theorem conforme (h : Consigne demandes recit s)
    (hevacues : ∀ data, .produitEvac data ∈ s.log → data.headD 0 ≠ 0) :
    ∀ a ∈ s.log, AvisConforme a := by
  intro a ha
  cases a with
  | tacheFinie | erreurLog => trivial
  | produitEvac data =>
    obtain ⟨x, hx, hpile⟩ := h.produit_sorti ha (hevacues data ha)
    exact ⟨x.2, h.historiques.fidele.sains x hx, hpile⟩
  | addProduct code =>
    obtain ⟨p, hp, hcode⟩ := h.produit_ajoute ha
    obtain ⟨hp₁, hp₂⟩ := h.catalogue hp
    exact ⟨p, hp₁, hp₂, hcode⟩

/-- Every stack that leaves is read whole. -/
theorem entier (h : Consigne demandes recit s) (data : List ℤ) (hdata : .produitEvac data ∈ s.log) :
    data.length = nbCube := by
  obtain ⟨k, -, rfl⟩ := h.sortie hdata
  exact Pile.length_toList _

/-- When as many products of a class have left as were added, all of them have left. -/
theorem sortis (h : Consigne demandes recit s) {f : ℤ → Bool} (hf : f 0 = false)
    (hnombres : s.log.countP (estNouveau f) = s.log.countP (estSortie f))
    {x : Option Lieu × Exemplaire} (hx : x ∈ (registre recit).exemplaires.items)
    (hfx : f (10 * x.2.produit + 4) = true) : ∃ k < (registre recit).sorties, x.1 = some (.sortie k) := by
  have hsomme : (registre recit).exemplaires.total (poidsDe f) ≤
      ∑ l ∈ (Finset.range (registre recit).sorties).image Lieu.sortie,
        ((registre recit).exemplaires.find l).elim 0 (poidsDe f) := by
    rw [h.somme hf, h.total, hnombres]
  obtain ⟨l, hl, hx⟩ := Inventory.kept_of_total_le hsomme hx
    (Nat.lt_of_lt_of_eq Nat.zero_lt_one (if_pos hfx).symm)
  obtain ⟨k, hk, rfl⟩ := Finset.mem_image.1 hl
  exact ⟨k, Finset.mem_range.1 hk, hx⟩

/-- The products are counted as the lines are. -/
theorem count_produits (h : Consigne demandes recit s) (p : ℤ) :
    (registre recit).produits.count p = s.log.countP (estNouveau (estProduit p)) := by
  rw [countP_codesLog, h.codes, List.countP_map, List.count]
  refine List.countP_congr fun q hq => ?_
  obtain ⟨hq₁, hq₂⟩ := h.catalogue hq
  rw [Function.comp_apply, estProduit_base hq₁ hq₂, decide_eq_true_iff, beq_iff_eq]

/-- The product that is found at an exit was announced. -/
theorem evac (h : Consigne demandes recit s) {k : ℕ} (hk : k < (registre recit).sorties) {e : Exemplaire}
    (he : (some (.sortie k), e) ∈ (registre recit).exemplaires.items) :
    .produitEvac e.pile.toList ∈ s.log := by
  obtain ⟨i, hi⟩ := List.mem_iff_getElem?.1 he
  have hfind := Inventory.find_eq_some_iff.2 ⟨i, hi⟩
  have hmem : e.pile.toList ∈ evacuesLog s.log := by
    rw [← h.evacues, h.historiques.evacues]
    refine List.mem_map.2 ⟨k, List.mem_range.2 hk, ?_⟩
    rw [Registre.pile, hfind]
    rfl
  obtain ⟨a, ha, hdata⟩ := List.mem_filterMap.1 hmem
  cases a <;> cases hdata
  exact ha

end Consigne

/-- A place has nothing when every product has left. -/
theorem pile_eq_vide {g : Registre} (hsortis : ∀ x ∈ g.exemplaires.items, ∃ k, x.1 = some (.sortie k))
    {l : Lieu} (hl : ∀ k, l ≠ .sortie k) : g.pile l = Pile.vide := by
  rw [Registre.pile]
  cases hfind : g.exemplaires.find l with
  | none => rfl
  | some e =>
    obtain ⟨i, hi⟩ := Inventory.find_eq_some_iff.1 hfind
    obtain ⟨k, hk⟩ := hsortis _ (List.mem_of_getElem? hi)
    exact absurd (Option.some.inj hk) (hl k)

theorem estProduit_zero {p : ℤ} (hp : 1 ≤ p) : estProduit p 0 = false := by
  have hchiffre : chiffre (entier 0) 0 = .ok 0 := by decide
  rw [estProduit, hchiffre, decide_eq_false_iff_not]
  intro h
  have hzero := Except.ok.inj h
  omega

/-! ## The verdict -/

variable {F : Type} [Floating F]

/-- **What a good verdict attests.** The cell has executed any orders, the log manager has handled
all that was published, in its own order, and the script accepts the file, which may have other
lines. Then each product was added as often as it is ordered, each one that was added has left the
cell with its first three tasks at the posts that are ordered, nothing is left on the tables, on the
shuttles and in the grippers, and the only errors published are those of a move during a task. -/
theorem production_attestee {temps₀ : τ} {demandes : List (Demande τ)} {s : Chronique τ}
    (h : Run (Guarded AuCatalogue Chronique.etape) (.initiale temps₀) demandes s)
    {evenements : List EvenementLog} {n : NoeudLog}
    (hn : Run (Guarded NoeudLog.SansPerte NoeudLog.etape) .initial evenements n) (hrepos : n.Repos)
    (hpublies : n.publies = s.log) (hevacues : ∀ data, .produitEvac data ∈ s.log → data.headD 0 ≠ 0)
    {Log autres contenu : List Str} (hLog : Log.Perm (n.log ++ autres))
    (hautres : ∀ l ∈ autres,
      identifiant l ≠ "NouveauProduit".toList ∧ identifiant l ≠ "Sortie".toList)
    {c : Config F} {j : Journal F} (hok : checker contenu Log = .ok (c, j)) (hconfig : c.erreurConfig = 0)
    (hdistincts : ((declarations (F := F) contenu).map Declaration.produit).Nodup) (htest : j.test = 1) :
    ∃ recit, Run (Recorded (Pas DuCatalogue)) (Cellule.initiale (fun _ => Pile.vide) temps₀) recit s.cellule ∧
      recit.map (fun e => e.label.1) = demandes.map Demande.ordre ∧
      (∀ p, 1 ≤ p → p ≤ 6 →
        ((registre recit).produits.count p : ℤ) = nombreDe (declarations (F := F) contenu) p) ∧
      (∀ x ∈ (registre recit).exemplaires.items,
        (∃ k < (registre recit).sorties, x.1 = some (.sortie k)) ∧
        (x.2.taches.map Prod.fst).take 3 = destinationsDe (declarations (F := F) contenu) x.2.produit) ∧
      (∀ nom, s.cellule.sim.couleur nom = Pile.vide) ∧
      (∀ r, (s.cellule.robot r).couleurTransportee = Pile.vide) ∧
      ∀ code nPoste, .erreurLog code nPoste ∈ s.log → code = 3 := by
  obtain ⟨recit, hrun, hconsigne⟩ := consigne_run h
  have hfichier := fichier_of_repos hn hrepos hLog hautres
  rw [hpublies] at hfichier
  have hentier := hconsigne.entier
  -- what the script has compared
  obtain ⟨temps, tempsLog, j₁, hc, -, hj, -, rfl⟩ := checker_inv hok hconfig
  have htables := Config.lireLignes_tables hc hconfig Config.tables_initial (by simpa using hdistincts)
  have haccord := (accord_initial c).lireLog (hfichier.conforme (hconsigne.conforme hevacues)) hj
  rw [List.nil_append] at htables haccord
  have hcontrole := (Journal.comparer_controle c j₁.moyennes temps tempsLog).trans
    (Journal.conclure_controle c _)
  obtain ⟨hfin, ⟨-, hnombres⟩, -⟩ := hcontrole.test htest
  have hverdict := fun p hp₁ hp₂ => haccord.conclusion htables hfin hnombres (p := p) hp₁ hp₂
  have hegaux : ∀ p, 1 ≤ p → p ≤ 6 →
      s.log.countP (estNouveau (estProduit p)) = s.log.countP (estSortie (estProduit p)) := by
    intro p hp₁ hp₂
    obtain ⟨hnew, hsortie⟩ := hfichier.nombreLignes hentier p
    rw [← hnew, ← hsortie]
    exact (hverdict p hp₁ hp₂).1
  -- every product of the ledger has left
  have hsortis : ∀ x ∈ (registre recit).exemplaires.items,
      ∃ k < (registre recit).sorties, x.1 = some (.sortie k) := by
    intro x hx
    obtain ⟨hp₁, hp₂⟩ := (hconsigne.historiques.fidele.sains x hx).produit
    refine hconsigne.sortis (estProduit_zero hp₁) (hegaux _ hp₁ hp₂) hx ?_
    rw [estProduit_base hp₁ hp₂]
    exact decide_eq_true rfl
  have hdehors : ∀ x ∈ (registre recit).exemplaires.items, ∃ k, x.1 = some (.sortie k) :=
    fun x hx => (hsortis x hx).imp fun _ h => h.2
  have hpile := hconsigne.historiques.fidele.pile
  refine ⟨recit, hrun, hconsigne.ordres, ?_, fun x hx => ⟨hsortis x hx, ?_⟩, fun nom => ?_, fun r => ?_, ?_⟩
  · intro p hp₁ hp₂
    rw [hconsigne.count_produits, hegaux p hp₁ hp₂, ← (hfichier.nombreLignes hentier p).2]
    exact (hverdict p hp₁ hp₂).2.1
  · obtain ⟨k, hk, hx₁⟩ := hsortis x hx
    obtain ⟨lieu, e⟩ := x
    obtain rfl : lieu = some (.sortie k) := hx₁
    have hsain := hconsigne.historiques.fidele.sains _ hx
    obtain ⟨ligne, hligne, temps, rfl⟩ := hfichier.ligne (hconsigne.evac hk hx)
    obtain ⟨taches, htaches, hdestinations⟩ := (hverdict _ hsain.produit.1 hsain.produit.2).2.2.2 _ hligne
      ⟨identifiant_sortie _ temps, produitDe_pile hsain temps⟩
    rw [tachesDe_pile hsain] at htaches
    obtain rfl := Except.ok.inj htaches
    have hvalides := (Config.lireLignes_inv hc hconfig).2.1
    rw [← filter_troisCubes hsain, eq_of_completer hdestinations, List.filter_eq_self]
    exact fun d hd => decide_eq_true (destinations_ne_zero hvalides _ d hd)
  · exact (hpile (.place nom)).trans (pile_eq_vide hdehors fun _ h => by cases h)
  · exact (hpile (.pince r)).trans (pile_eq_vide hdehors fun _ h => by cases h)
  · intro code nPoste hmem
    obtain ⟨ligne, hligne, debut, hdebut, rfl⟩ := hfichier.ligne hmem
    rcases identifiant_erreur hdebut nPoste with ⟨-, herreur⟩ | ⟨hcode, -⟩
    · exact absurd herreur (haccord.erreurs hfin _ hligne)
    · exact hcode

omit [Floating F] in
/-- A run whose additions are of the catalogue. -/
theorem run_auCatalogue {s₀ s : Chronique τ} {demandes : List (Demande τ)}
    (h : Run (Guarded Chronique.Permis Chronique.etape) s₀ demandes s)
    (hproduits : ∀ d ∈ demandes, ∀ produit poste, d.ordre = .ajouterProduit produit poste →
      1 ≤ produit ∧ produit ≤ 6) :
    Run (Guarded AuCatalogue Chronique.etape) s₀ demandes s := by
  induction h with
  | nil => exact .nil
  | @snoc demandes s s' d _ hpas ih =>
    obtain ⟨⟨ho, hevac⟩, hetape⟩ := hpas
    exact (ih fun d' hd' => hproduits d' (List.mem_append_left _ hd')).snoc
      ⟨⟨ho, hevac, hproduits d (List.mem_append_right _ (List.mem_singleton_self d))⟩, hetape⟩

/-- The product 2 is added on post 3, where a robot works on it, and evacuated. -/
def commandeUnProduit (r : Fin 4) : List (Demande ℤ) :=
  [⟨.ajouterProduit 2 3, true⟩, ⟨.faireTache r ⟨2, 1, 5⟩ 0, true⟩, ⟨.update r 10, true⟩, ⟨.evacuer r, true⟩]

/-- The log manager handles each message before the next one is published. -/
def suiteUnProduit : List EvenementLog :=
  [.publier (.addProduct 24), .traiter .addProduct, .repondre 1, .recevoir, .continuer,
    .publier (.tacheFinie 3 24 5), .traiter .tacheFinie, .publier (.produitEvac [24, 33, 0, 0, 0, 0]),
    .traiter .produitEvac, .repondre 20, .recevoir, .continuer]

/-- What is published meanwhile. -/
def avisUnProduit : List Avis := [.addProduct 24, .tacheFinie 3 24 5, .produitEvac [24, 33, 0, 0, 0, 0]]

/-- The lines, and the configuration that orders the product. -/
def lignesUnProduit : List Str :=
  ["NouveauProduit: 24 :1.00\n".toList, "TempoT: 24: 3: 5\n".toList, "Sortie :24 :33 :0 :0 :20.00\n".toList]

def configUneTache : List Str := ["2 : 3 : 5 : 1\n".toList]

theorem run_unProduit : ∃ s : Chronique ℤ,
    Run (Guarded AuCatalogue Chronique.etape) (.initiale 0) (commandeUnProduit 1) s ∧
        s.log = avisUnProduit := by
  have hcellule : (execute Chronique.Permis Chronique.etape (.initiale (0 : ℤ)) (commandeUnProduit 1)).any
      (fun s => decide (s.log = avisUnProduit)) = true := by decide +kernel
  obtain ⟨s, hs, hlog⟩ := (Option.any_eq_true _ _).1 hcellule
  refine ⟨s, run_auCatalogue (run_execute .nil hs) ?_, of_decide_eq_true hlog⟩
  simp [commandeUnProduit]

theorem production_attestee_unProduit : ∃ (demandes : List (Demande ℤ)) (s : Chronique ℤ) (recit : _),
    Run (Guarded AuCatalogue Chronique.etape) (.initiale 0) demandes s ∧
      recit.map (fun e => e.label.1) = demandes.map Demande.ordre ∧
      (registre recit).produits.count 2 = 1 ∧ ∀ nom, s.cellule.sim.couleur nom = Pile.vide := by
  have hnoeud : (execute NoeudLog.SansPerte NoeudLog.etape .initial suiteUnProduit).any
      (fun n => decide (n.Repos ∧ n.publies = avisUnProduit ∧ n.log = lignesUnProduit)) = true := by
    decide +kernel
  have hverdict : (checker (F := ℚ) configUneTache lignesUnProduit).map
      (fun x => (x.1.erreurConfig, x.2.test)) = .ok (0, 1) := by decide +kernel
  obtain ⟨s, hrun, hslog⟩ := run_unProduit
  obtain ⟨n, hn, hnlog⟩ := (Option.any_eq_true _ _).1 hnoeud
  obtain ⟨hrepos, hpublies, hnlog⟩ := of_decide_eq_true hnlog
  rw [← hnlog] at hverdict
  cases hok : checker (F := ℚ) configUneTache n.log with
  | error e =>
    rw [hok] at hverdict
    cases hverdict
  | ok x =>
    rw [hok] at hverdict
    obtain ⟨hconfig, htest⟩ := Prod.mk.inj (Except.ok.inj hverdict)
    have hfichier : n.log.Perm (n.log ++ []) := by rw [List.append_nil]
    obtain ⟨recit, -, hordres, hcount, -, hvide, -⟩ := production_attestee hrun (run_execute .nil hn) hrepos
      (hpublies.trans hslog.symm) (by simp [hslog, avisUnProduit]) hfichier (by simp) hok hconfig
      (by decide +kernel) htest
    refine ⟨_, s, recit, hrun, hordres, ?_, hvide⟩
    have hnombre : nombreDe (declarations (F := ℚ) configUneTache) 2 = 1 := by decide +kernel
    have hdeux := hcount 2 (by decide) (by decide)
    rw [hnombre] at hdeux
    exact_mod_cast hdeux

end Checker
