import Cellule.Checker.Completude

/-! # A log for each configuration

The log of a run that makes all that is ordered: the products come in, their tasks end, and they
leave. The text of the lines is left open, so that a log can be written in any way that the script
reads.
-/

namespace Checker

open Python CommandeLocale.LogManager

variable {F : Type}

/-! ## Counting lines -/

theorem nombreLignes_append (ID : String) (p : ℤ) (l l' : List Str) :
    nombreLignes ID p (l ++ l') = nombreLignes ID p l + nombreLignes ID p l' := List.countP_append

theorem nombreLignes_prefixe (ID : String) (p : ℤ) {l l' : List Str} (h : l <+: l') :
    nombreLignes ID p l ≤ nombreLignes ID p l' := h.sublist.countP_le

theorem nombreLignes_autre {ID ID' : String} {l : List Str}
    (h : ∀ line ∈ l, identifiant line = ID'.toList) (hne : ID'.toList ≠ ID.toList) (p : ℤ) :
    nombreLignes ID p l = 0 := by
  unfold nombreLignes
  rw [List.countP_eq_zero]
  intro line hline hest
  exact hne ((h line hline).symm.trans (of_decide_eq_true hest).1)

/-- Each product of a list has its lines, as many as asked for. -/
theorem nombreLignes_flatMap {ID : String} {ligne : ℤ → Str} {n : ℤ → ℕ} {ps : List ℤ} (hps : ps.Nodup)
    (hligne : ∀ q, 0 < n q → EstLigne ID q (ligne q)) (p : ℤ) :
    nombreLignes ID p (ps.flatMap fun q => List.replicate (n q) (ligne q)) =
      if p ∈ ps then n p else 0 := by
  induction ps with
  | nil => rfl
  | cons q ps ih =>
    obtain ⟨hq, hps⟩ := List.nodup_cons.1 hps
    have htete : nombreLignes ID p (List.replicate (n q) (ligne q)) = if q = p then n q else 0 := by
      unfold nombreLignes
      rw [List.countP_replicate]
      rcases Nat.eq_zero_or_pos (n q) with hn | hn
      · simp [hn]
      · simp [estLigne_iff (hligne q hn).1 (hligne q hn).2 p]
    rw [List.flatMap_cons, nombreLignes_append, htete, ih hps]
    by_cases hqp : q = p
    · subst hqp
      simp [hq]
    · simp [hqp, Ne.symm hqp]

/-! ## The lines of a run -/

/-- The products that can be ordered. -/
def produits : List ℤ := [1, 2, 3, 4, 5, 6]

/-- The text of the lines, for a product that comes in, for a task that ends and for a product that
leaves. -/
structure Ecriture (F : Type) where
  entree : ℤ → Str
  tache : ℤ × ℤ × F → Str
  sortie : ℤ → Str

/-- One line for each instance that is ordered. -/
def commandes (ds : List (Declaration F)) (ligne : ℤ → Str) : List Str :=
  produits.flatMap fun p => List.replicate (nombreDe ds p).toNat (ligne p)

theorem mem_commandes {ds : List (Declaration F)} {ligne : ℤ → Str} {line : Str}
    (h : line ∈ commandes ds ligne) : ∃ p, 0 < nombreDe ds p ∧ line = ligne p := by
  obtain ⟨p, -, hp⟩ := List.mem_flatMap.1 h
  obtain ⟨hn, rfl⟩ := List.mem_replicate.1 hp
  exact ⟨p, by omega, rfl⟩

/-- The products that can be ordered are those of the table. -/
theorem mem_produits {ds : List (Declaration F)} (hds : ∀ D ∈ ds, D.Correcte) {p : ℤ}
    (hp : 0 < nombreDe ds p) : p ∈ produits := by
  obtain ⟨hp₁, hp₂⟩ := produit_le_six hds hp
  simp only [produits, List.mem_cons, List.not_mem_nil, or_false]
  omega

theorem mem_commandes_of_pos {ds : List (Declaration F)} (hds : ∀ D ∈ ds, D.Correcte)
    (ligne : ℤ → Str) {p : ℤ} (hp : 0 < nombreDe ds p) : ligne p ∈ commandes ds ligne :=
  List.mem_flatMap.2 ⟨p, mem_produits hds hp, List.mem_replicate.2 ⟨by omega, rfl⟩⟩

theorem nombreLignes_commandes {ds : List (Declaration F)} (hds : ∀ D ∈ ds, D.Correcte) {ID : String}
    {ligne : ℤ → Str} (hligne : ∀ q, 0 < nombreDe ds q → EstLigne ID q (ligne q)) {p : ℤ}
    (hp : 0 < nombreDe ds p) : (nombreLignes ID p (commandes ds ligne) : ℤ) = nombreDe ds p := by
  unfold commandes
  rw [nombreLignes_flatMap (by decide) fun q hq => hligne q (by omega), if_pos (mem_produits hds hp)]
  omega

section

variable [Floating F]

/-- The durations that are compared. -/
def dureesComparees (ds : List (Declaration F)) : List (ℤ × ℤ × F) :=
  (ds.flatMap Declaration.temps).filter fun x =>
    0 < nombreDe ds x.1 ∧ Floating.eq x.2.2 Floating.zero = false

namespace Ecriture

/-- The lines of the run. -/
def log (e : Ecriture F) (ds : List (Declaration F)) : List Str :=
  commandes ds e.entree ++ ((dureesComparees ds).map e.tache ++ commandes ds e.sortie)

/-- The script reads in the lines what they are written for. -/
structure Lisible (e : Ecriture F) (ds : List (Declaration F)) : Prop where
  entree : ∀ p, 0 < nombreDe ds p → EstLigne "NouveauProduit" p (e.entree p) ∧
    typeDe (e.entree p) = .ok 4 ∧ ∃ time : F, tempsNouveau (e.entree p) = .ok time
  tache : ∀ x ∈ dureesComparees ds, EstLigne "TempoT" x.1 (e.tache x) ∧
    posteDe (e.tache x) = .ok x.2.1 ∧ ∃ T, dureeDe (e.tache x) = .ok T ∧ Floating.eq x.2.2 T = true
  sortie : ∀ p, 0 < nombreDe ds p → EstLigne "Sortie" p (e.sortie p) ∧ typeDe (e.sortie p) = .ok 4 ∧
    TachesLues (destinationsDe ds p) (champsTaches (champs (e.sortie p))) ∧
    (champsTaches (champs (e.sortie p))).length ≤ maxTaches ∧
    ∃ time : F, tempsSortie (e.sortie p) = .ok time

variable {e : Ecriture F} {ds : List (Declaration F)}

/-! Where the lines of each kind are. -/

theorem Lisible.entrees (h : e.Lisible ds) :
    ∀ line ∈ commandes ds e.entree, identifiant line = "NouveauProduit".toList := by
  intro line hline
  obtain ⟨p, hp, rfl⟩ := mem_commandes hline
  exact (h.entree p hp).1.1

theorem Lisible.taches (h : e.Lisible ds) :
    ∀ line ∈ (dureesComparees ds).map e.tache, identifiant line = "TempoT".toList := by
  intro line hline
  obtain ⟨x, hx, rfl⟩ := List.mem_map.1 hline
  exact (h.tache x hx).1.1

theorem Lisible.sorties (h : e.Lisible ds) :
    ∀ line ∈ commandes ds e.sortie, identifiant line = "Sortie".toList := by
  intro line hline
  obtain ⟨p, hp, rfl⟩ := mem_commandes hline
  exact (h.sortie p hp).1.1

/-- Each product comes in as often as it is ordered. -/
theorem Lisible.nombreEntrees (h : e.Lisible ds) (hds : ∀ D ∈ ds, D.Correcte) {p : ℤ}
    (hp : 0 < nombreDe ds p) :
    (nombreLignes "NouveauProduit" p (e.log ds) : ℤ) = nombreDe ds p := by
  rw [← nombreLignes_commandes hds (fun q hq => (h.entree q hq).1) hp]
  unfold log
  rw [nombreLignes_append, nombreLignes_append, nombreLignes_autre h.taches (by decide),
    nombreLignes_autre h.sorties (by decide)]
  omega

/-- Each product leaves as often as it is ordered. -/
theorem Lisible.nombreSorties (h : e.Lisible ds) (hds : ∀ D ∈ ds, D.Correcte) {p : ℤ}
    (hp : 0 < nombreDe ds p) :
    (nombreLignes "Sortie" p (e.log ds) : ℤ) = nombreDe ds p := by
  rw [← nombreLignes_commandes hds (fun q hq => (h.sortie q hq).1) hp]
  unfold log
  rw [nombreLignes_append, nombreLignes_append, nombreLignes_autre h.entrees (by decide),
    nombreLignes_autre h.taches (by decide)]
  omega

/-- No product leaves before all of them came in. -/
theorem Lisible.ordre (h : e.Lisible ds) (hds : ∀ D ∈ ds, D.Correcte) {p : ℤ}
    (hp : 0 < nombreDe ds p) {lus : List Str} (hlus : lus <+: e.log ds) :
    nombreLignes "Sortie" p lus ≤ nombreLignes "NouveauProduit" p lus := by
  rcases List.prefix_or_prefix_of_prefix hlus (List.prefix_append _ _) with hdebut | hdebut
  · have hzero : nombreLignes "Sortie" p (commandes ds e.entree) = 0 :=
      nombreLignes_autre h.entrees (by decide) p
    have hle := nombreLignes_prefixe "Sortie" p hdebut
    omega
  · have hle := nombreLignes_prefixe "Sortie" p hlus
    have hge := nombreLignes_prefixe "NouveauProduit" p hdebut
    have hn := nombreLignes_commandes hds (fun q hq => (h.entree q hq).1) hp
    have hs := h.nombreSorties hds hp
    omega

/-- The script reads each line. -/
theorem Lisible.ligneAdmise (h : e.Lisible ds) (hds : ∀ D ∈ ds, D.Correcte) :
    ∀ line ∈ e.log ds, LigneAdmise ds line := by
  intro line hline
  rcases List.mem_append.1 hline with hline | hline
  · obtain ⟨p, hp, rfl⟩ := mem_commandes hline
    obtain ⟨⟨hID, hP⟩, htype, time, htime⟩ := h.entree p hp
    exact .nouveauProduit p time hID hp hP htype htime
  rcases List.mem_append.1 hline with hline | hline
  · obtain ⟨x, hx, rfl⟩ := List.mem_map.1 hline
    obtain ⟨⟨hID, hP⟩, hposte, T, hT, -⟩ := h.tache x hx
    obtain ⟨hmem, hcond⟩ := List.mem_filter.1 hx
    exact .tempoT x.1 x.2.1 T hID (of_decide_eq_true hcond).1 hP hposte
      (dansTable_of_temps (fun D hD => (hds D hD).toValide) x hmem).2 hT
  · obtain ⟨p, hp, rfl⟩ := mem_commandes hline
    obtain ⟨⟨hID, hP⟩, htype, htaches, hlen, time, htime⟩ := h.sortie p hp
    exact .sortie p time hID hp hP htype htaches hlen htime

/-- No line of such a log is an empty evacuation. -/
theorem Lisible.sans_vide (h : e.Lisible ds) (hds : ∀ D ∈ ds, D.Correcte) :
    ∀ line ∈ e.log ds, ¬EstLigne "Sortie" 0 line := by
  rintro line hline ⟨hID, hP⟩
  rcases List.mem_append.1 hline with hline | hline
  · exact absurd (hID.symm.trans (h.entrees line hline)) (by decide)
  rcases List.mem_append.1 hline with hline | hline
  · exact absurd (hID.symm.trans (h.taches line hline)) (by decide)
  · obtain ⟨p, hp, rfl⟩ := mem_commandes hline
    have hpos := (produit_le_six hds hp).1
    have hzero : (0 : ℤ) = p := Except.ok.inj (hP.symm.trans (h.sortie p hp).1.2)
    omega

/-- A line for the duration of a task carries the duration that is configured. -/
theorem Lisible.durees (h : e.Lisible ds) (hds : ∀ D ∈ ds, D.Correcte)
    (hdistincts : (ds.map Declaration.produit).Nodup) {D : Declaration F} (hD : D ∈ ds) {x : ℤ × F}
    (hx : x ∈ D.destinations.zip D.durees) {line : Str} (hline : line ∈ e.log ds)
    (hest : EstLigne "TempoT" D.produit line) (hposte : posteDe line = .ok x.1) :
    ∃ T, dureeDe line = .ok T ∧ Floating.eq x.2 T = true := by
  rcases List.mem_append.1 hline with hline | hline
  · exact absurd (hest.1.symm.trans (h.entrees line hline)) (by decide)
  rcases List.mem_append.1 hline with hline | hline
  · obtain ⟨y, hy, rfl⟩ := List.mem_map.1 hline
    obtain ⟨hest', hposte', T, hT, heq⟩ := h.tache y hy
    obtain ⟨p, d, T'⟩ := y
    obtain rfl : p = D.produit := Except.ok.inj (hest'.2.symm.trans hest.2)
    obtain rfl : d = x.1 := Except.ok.inj (hposte'.symm.trans hposte)
    obtain rfl := duree_unique (fun D hD => (hds D hD).toValide)
      (fun D hD => (hds D hD).postes) hdistincts hD hx (List.mem_filter.1 hy).1
    exact ⟨T, hT, heq⟩
  · exact absurd (hest.1.symm.trans (h.sorties line hline)) (by decide)

/-- Such a log is accepted. -/
theorem Lisible.logAdmis (h : e.Lisible ds) (hds : ∀ D ∈ ds, D.Correcte)
    (hdistincts : (ds.map Declaration.produit).Nodup) : LogAdmis ds (e.log ds) := by
  refine ⟨h.ligneAdmise hds, fun p hp => h.nombreEntrees hds hp, fun p hp => h.nombreSorties hds hp,
    fun p hp lus hlus => h.ordre hds hp hlus, ?_⟩
  intro D hD hn x hx hnonzero
  have hproduit : 0 < nombreDe ds D.produit := by
    unfold nombreDe
    rwa [declarationDe_of_mem hdistincts hD]
  have hmem : (D.produit, x.1, x.2) ∈ dureesComparees ds := by
    refine List.mem_filter.2 ⟨?_, decide_eq_true ⟨hproduit, hnonzero⟩⟩
    exact List.mem_flatMap.2 ⟨D, hD, List.mem_map.2 ⟨x, hx, rfl⟩⟩
  obtain ⟨hest, hposte, -⟩ := h.tache _ hmem
  refine ⟨⟨e.tache (D.produit, x.1, x.2), ?_, hest, hposte⟩, ?_⟩
  · exact List.mem_append_right _ (List.mem_append_left _ (List.mem_map.2 ⟨_, hmem, rfl⟩))
  · intro line hline hest hposte
    exact h.durees hds hdistincts hD hx hline hest hposte

end Ecriture

/-! ## The lines of the log manager -/

open Evenement

/-- The digits of a base. -/
theorem chiffres_base {p : ℤ} (hp : 1 ≤ p ∧ p ≤ 6) :
    chiffre (entier (code (p, 4))) 0 = .ok p ∧ chiffre (entier (code (p, 4))) 1 = .ok 4 :=
  chiffre_code hp.1 (by omega) (by omega) (by omega)

theorem lue_nouveauProduit {p : ℤ} (hp : 1 ≤ p ∧ p ≤ 6) {t : ℚ} (ht : 0 ≤ t) :
    EstLigne "NouveauProduit" p (ligneNouveauProduit (code (p, 4)) t) ∧
      typeDe (ligneNouveauProduit (code (p, 4)) t) = .ok 4 ∧
      (tempsNouveau (ligneNouveauProduit (code (p, 4)) t) : Except Exception F) = float (fixe t) := by
  obtain ⟨hproduit, htypeDe⟩ := chiffres_nouveauProduit (code (p, 4)) t
  obtain ⟨hP, htype⟩ := chiffres_base hp
  refine ⟨⟨identifiant_nouveauProduit _ t, hproduit.trans hP⟩, htypeDe.trans htype, ?_⟩
  unfold tempsNouveau
  rw [champs_nouveauProduit, item_cons_two, ok_bind, (champTemps ht).2.1]

/-- The fields of a line on a duration. -/
theorem lue_champsDuree {ligne ID mot : Str} {suite : List Str} {p d : ℤ} (hp : 1 ≤ p ∧ p ≤ 6)
    (hd : 0 ≤ d) (hchamps : champs ligne = ID :: entier (code (p, 4)) :: entier d :: mot :: suite) :
    produitDe ligne = .ok p ∧ posteDe ligne = .ok d ∧
      (dureeDe ligne : Except Exception F) = float mot := by
  refine ⟨?_, ?_, ?_⟩
  · unfold produitDe
    rw [hchamps, item_cons_one, ok_bind, (chiffres_base hp).1]
  · lift d to ℕ using hd
    unfold posteDe
    rw [hchamps, item_cons_two, ok_bind, entier_natCast, int_toDigits]
  · unfold dureeDe
    rw [hchamps, item_cons_three, ok_bind]

theorem lue_tempoT {p d : ℤ} (hp : 1 ≤ p ∧ p ≤ 6) (hd : 0 ≤ d) (n : ℤ) :
    EstLigne "TempoT" p (ligneTempoT (code (p, 4)) d n) ∧
      posteDe (ligneTempoT (code (p, 4)) d n) = .ok d ∧
      (dureeDe (ligneTempoT (code (p, 4)) d n) : Except Exception F) = float (entier n ++ ['\n']) := by
  obtain ⟨hproduit, hlus⟩ := lue_champsDuree (F := F) hp hd (champs_tempoT (code (p, 4)) d n)
  exact ⟨⟨identifiant_tempoT _ d n, hproduit⟩, hlus⟩

theorem lue_evacuation {p : ℤ} (hp : 1 ≤ p ∧ p ≤ 6) (l : List (ℤ × ℤ)) {t : ℚ} (ht : 0 ≤ t) :
    EstLigne "Sortie" p (ligneSortie (((p, 4) :: l).map code) t) ∧
      typeDe (ligneSortie (((p, 4) :: l).map code) t) = .ok 4 ∧
      (tempsSortie (ligneSortie (((p, 4) :: l).map code) t) : Except Exception F) =
        float (fixe t) := by
  obtain ⟨hproduit, htypeDe⟩ := chiffres_sortie (code (p, 4)) (l.map code) t
  obtain ⟨hP, htype⟩ := chiffres_base hp
  refine ⟨⟨identifiant_sortie _ t, hproduit.trans hP⟩, htypeDe.trans htype, ?_⟩
  unfold tempsSortie
  rw [dernier_evacuation, ok_bind, (champTemps ht).2.1]

/-- The cubes of a product that leaves with its tasks, all of one type, and empty places up to
`n`. -/
def cubes (destinations : List ℤ) (type : ℤ) (n : ℕ) : List (ℤ × ℤ) :=
  destinations.map (·, type) ++ List.replicate (n - destinations.length) (0, 0)

theorem length_cubes {destinations : List ℤ} {n : ℕ} (h : destinations.length ≤ n) (type : ℤ) :
    (cubes destinations type n).length = n := by
  unfold cubes
  rw [List.length_append, List.length_map, List.length_replicate]
  omega

/-- They are read as the tasks of the product. -/
theorem tachesLues_cubes {destinations : List ℤ} (h : ∀ d ∈ destinations, 1 ≤ d ∧ d ≤ 8) {type : ℤ}
    (ht : 0 ≤ type ∧ type ≤ 9) (n : ℕ) :
    TachesLues destinations ((cubes destinations type n).map fun x => entier (code x)) := by
  refine ⟨destinations.map fun d => entier (code (d, type)),
    List.replicate (n - destinations.length) (entier (code (0, 0))), ?_, ?_, ?_⟩
  · unfold cubes
    rw [List.map_append, List.map_map, List.map_replicate]
    rfl
  · rw [List.forall₂_map_left_iff, List.forall₂_same]
    intro d hd
    obtain ⟨hd₁, hd₂⟩ := h d hd
    obtain ⟨hnumero, htype⟩ := chiffre_code hd₁ (by omega) ht.1 ht.2
    exact ⟨hnumero, type, htype⟩
  · intro champ hchamp
    rw [(List.mem_replicate.1 hchamp).2]
    decide

theorem fixe_zero : fixe 0 = "0.00".toList := by decide +kernel

/-- The lines for what is ordered, at time zero: the tasks on the products that leave are of one
type, and each product has `n` task fields. -/
def ecriture (ds : List (Declaration F)) (type : ℤ) (n : ℕ) (tache : ℤ × ℤ × F → Str) :
    Ecriture F where
  entree p := ligneNouveauProduit (code (p, 4)) 0
  tache := tache
  sortie p := ligneSortie (((p, 4) :: cubes (destinationsDe ds p) type n).map code) 0

/-- The script reads them, if it reads the lines of the tasks. -/
theorem lisible_ecriture {ds : List (Declaration F)} (hds : ∀ D ∈ ds, D.Correcte) {type : ℤ}
    (htype : 0 ≤ type ∧ type ≤ 9) {n : ℕ} (hn : n ≤ maxTaches)
    (hcourts : ∀ p, 0 < nombreDe ds p → (destinationsDe ds p).length ≤ n)
    (hzero : ∃ time : F, float "0.00".toList = .ok time) {tache : ℤ × ℤ × F → Str}
    (htache : ∀ x ∈ dureesComparees ds, EstLigne "TempoT" x.1 (tache x) ∧
      posteDe (tache x) = .ok x.2.1 ∧ ∃ T, dureeDe (tache x) = .ok T ∧ Floating.eq x.2.2 T = true) :
    (ecriture ds type n tache).Lisible ds := by
  obtain ⟨time, htime⟩ := hzero
  rw [← fixe_zero] at htime
  refine ⟨?_, htache, ?_⟩
  · intro p hp
    obtain ⟨hest, hbase, htemps⟩ := lue_nouveauProduit (F := F) (produit_le_six hds hp) le_rfl
    exact ⟨hest, hbase, time, htemps.trans htime⟩
  · intro p hp
    obtain ⟨hest, hbase, htemps⟩ := lue_evacuation (F := F) (produit_le_six hds hp)
      (cubes (destinationsDe ds p) type n) le_rfl
    have htaches : champsTaches (champs ((ecriture ds type n tache).sortie p)) = _ :=
      champsTaches_evacuation p (cubes (destinationsDe ds p) type n) 0
    refine ⟨hest, hbase, ?_, ?_, time, htemps.trans htime⟩
    · exact htaches ▸ tachesLues_cubes (destinationsDe_valides hds p) htype n
    · rwa [htaches, List.length_map, length_cubes (hcourts p hp)]

end

end Checker
