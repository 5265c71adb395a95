import Cellule.Checker.Lecture
import Cellule.Checker.Fabrication

/-! # Empty evacuations

The branch on an empty evacuation reads the count of product `P - 1` with `P = 0`: the subscript
`-1` names the last product. An empty evacuation is reported when product 6 is not ordered, and
passed over otherwise.
-/

namespace Checker

open Python CommandeLocale.LogManager Evenement

variable {F : Type}

/-! ## The durations that a configuration writes -/

/-- The characters of the words are those of the field, and none is a space. -/
theorem grouper_forall {P : Char → Prop} {champ : Str} (hchamp : ∀ a ∈ champ, a ≠ ' ' → P a)
    {mots : List Str} {espace : Bool} (hmots : ∀ mot ∈ mots, ∀ a ∈ mot, P a) :
    ∀ mot ∈ (champ.foldl grouper (mots, espace)).1, ∀ a ∈ mot, P a := by
  induction champ generalizing mots espace with
  | nil => exact hmots
  | cons a champ ih =>
    obtain ⟨ha, hsuite⟩ := List.forall_mem_cons.1 hchamp
    rw [List.foldl_cons]
    unfold grouper
    dsimp only
    split_ifs with hespace hnouveau
    · exact ih hsuite hmots
    -- a new word
    · apply ih hsuite
      intro mot hmot
      rcases List.mem_append.1 hmot with hmot | hmot
      · exact hmots mot hmot
      · rw [List.mem_singleton.1 hmot]
        exact List.forall_mem_singleton.2 (ha hespace)
    -- the last word is continued
    · have hdernier : ∀ b ∈ mots.getLastD [], P b := by
        rw [List.getLastD_eq_getLast?]
        cases hlast : mots.getLast? with
        | none => exact fun b hb => absurd hb List.not_mem_nil
        | some mot => exact hmots mot (List.mem_of_getLast? hlast)
      apply ih hsuite
      intro mot hmot
      rcases List.mem_append.1 hmot with hmot | hmot
      · exact hmots mot (List.mem_of_mem_dropLast hmot)
      · rw [List.mem_singleton.1 hmot]
        intro b hb
        rcases List.mem_append.1 hb with hb | hb
        · exact hdernier b hb
        · rw [List.mem_singleton.1 hb]
          exact ha hespace

/-- The words of a field between colons have no space and no colon. -/
theorem mot_of_separer {champ mot : Str} (hchamp : ':' ∉ champ) (hmot : mot ∈ separer champ) :
    ' ' ∉ mot ∧ ':' ∉ mot := by
  have hmots : ∀ a ∈ mot, a ≠ ' ' ∧ a ≠ ':' :=
    grouper_forall (P := fun a => a ≠ ' ' ∧ a ≠ ':')
      (fun a ha hespace => ⟨hespace, fun h => hchamp (h ▸ ha)⟩)
      (fun mot hmot => absurd hmot List.not_mem_nil) mot hmot
  exact ⟨fun h => (hmots _ h).1 rfl, fun h => (hmots _ h).2 rfl⟩

section

variable [Floating F] {contenu Log : List Str} {c : Config F} {j : Journal F}

/-- A duration that is declared is written as a word of the line. -/
theorem duree_ecrite {ligne : Str} {D : Declaration F} (hd : declaration ligne = .ok (some D)) {x : F}
    (hx : x ∈ D.durees) : ∃ mot, ' ' ∉ mot ∧ ':' ∉ mot ∧ float mot = .ok x := by
  unfold declaration at hd
  obtain ⟨champ, -, hd⟩ := bind_eq_ok.1 hd
  dsimp only at hd
  split_ifs at hd
  · obtain ⟨produit, -, hd⟩ := bind_eq_ok.1 hd
    obtain ⟨champ₁, -, hd⟩ := bind_eq_ok.1 hd
    obtain ⟨destinations, -, hd⟩ := bind_eq_ok.1 hd
    obtain ⟨champ₂, h₂, hd⟩ := bind_eq_ok.1 hd
    obtain ⟨durees, hdurees, hd⟩ := bind_eq_ok.1 hd
    obtain ⟨champ₃, -, hd⟩ := bind_eq_ok.1 hd
    obtain ⟨nombre, -, hd⟩ := bind_eq_ok.1 hd
    obtain rfl := Option.some.inj (Except.ok.inj hd)
    have hcolon : ':' ∉ champ₂ :=
      not_mem_of_mem_split (List.mem_of_getElem? (getElem?_of_item (by omega) h₂))
    obtain ⟨i, hi, rfl⟩ := List.getElem_of_mem hx
    obtain ⟨hlen, hmots⟩ := List.forall₂_iff_get.1 (mapM_eq_ok.1 hdurees)
    obtain ⟨hespace, hdeux⟩ := mot_of_separer hcolon (List.getElem_mem (hlen ▸ hi))
    exact ⟨_, hespace, hdeux, hmots i (hlen ▸ hi) hi⟩
  · cases hd

/-- The same for the durations that are compared. -/
theorem duree_comparee {x : ℤ × ℤ × F} (hx : x ∈ dureesComparees (declarations (F := F) contenu)) :
    ∃ mot, ' ' ∉ mot ∧ ':' ∉ mot ∧ float mot = .ok x.2.2 := by
  obtain ⟨D, hD, htemps⟩ := List.mem_flatMap.1 (List.mem_filter.1 hx).1
  obtain ⟨y, hy, rfl⟩ := List.mem_map.1 htemps
  obtain ⟨ligne, -, hligne⟩ := List.mem_filterMap.1 hD
  have hd : declaration ligne = .ok (some D) := by
    cases hdecl : (declaration ligne : Except Exception (Option (Declaration F))) with
    | error e =>
      rw [hdecl] at hligne
      cases hligne
    | ok d =>
      rw [hdecl] at hligne
      exact congrArg Except.ok hligne
  exact duree_ecrite hd (List.of_mem_zip hy).2

/-- A line for a task of product `p` on post `d`, whose duration is a word of the configuration. -/
def ligneDuree (p d : ℤ) (mot : Str) : Str :=
  "TempoT".toList ++ [entier (code (p, 4)), entier d, mot, ['\n']].flatMap (':' :: ·)

theorem champs_duree (p d : ℤ) {mot : Str} (hespace : ' ' ∉ mot) (hcolon : ':' ∉ mot) :
    champs (ligneDuree p d mot) =
      ["TempoT".toList, entier (code (p, 4)), entier d, mot, ['\n']] := by
  have hentier : ∀ n, remove ' ' (entier n) = entier n :=
    fun n => remove_of_not_mem (not_mem_entier n rfl (by decide))
  apply champs_of_remove
  · have h₁ : remove ' ' "TempoT".toList = "TempoT".toList := by decide
    have h₂ : ∀ s, remove ' ' (':' :: s) = ':' :: remove ' ' s := fun s => rfl
    have h₃ : remove ' ' ['\n'] = ['\n'] := by decide
    unfold ligneDuree
    simp only [remove_append, h₁, h₂, h₃, hentier, remove_of_not_mem hespace, List.flatMap_cons,
      List.flatMap_nil, List.append_nil]
  · decide
  · simp only [List.forall_mem_cons]
    have hentier : ∀ n, ':' ∉ entier n := fun n => not_mem_entier n rfl (by decide)
    exact ⟨hentier _, hentier _, hcolon, by decide, by simp⟩

/-- The script reads on it what it is written for. -/
theorem lue_duree {p d : ℤ} (hp : 1 ≤ p ∧ p ≤ 6) (hd : 0 ≤ d) {mot : Str} (hespace : ' ' ∉ mot)
    (hcolon : ':' ∉ mot) : EstLigne "TempoT" p (ligneDuree p d mot) ∧
      posteDe (ligneDuree p d mot) = .ok d ∧
      (dureeDe (ligneDuree p d mot) : Except Exception F) = float mot := by
  have hchamps := champs_duree p d hespace hcolon
  obtain ⟨hproduit, hlus⟩ := lue_champsDuree (F := F) hp hd hchamps
  refine ⟨⟨?_, hproduit⟩, hlus⟩
  unfold identifiant
  rw [hchamps]
  rfl

/-! ## The branch -/

variable {ds : List (Declaration F)} {line : Str} {j' : Journal F}

omit [Floating F] in
/-- The count that is read for product 0 is the one of product 6. -/
theorem item_attendus_vide (ht : c.Tables ds) (hnb : c.nbProduit.length = 6) :
    item c.nbProduit (0 - 1) = .ok (nombreDe ds 6) := by
  have hsix := ht.nombre 6 (by omega) (by omega)
  have hplace : place c.nbProduit.length (0 - 1) = some 5 := by rw [hnb]; rfl
  change c.nbProduit[5]? = _ at hsix
  unfold item
  rw [hplace, Option.bind_some, hsix]

/-- What an empty evacuation does: what was read stays, and the error is reported when the count
that is read is zero. -/
theorem lireLigne_vide (hvide : EstLigne "Sortie" 0 line) (hok : Journal.lireLigne c j line = .ok j') :
    ∃ s attendus, j.analyserSortie (champs line) = .ok s ∧ item c.nbProduit (0 - 1) = .ok attendus ∧
      j' = if attendus = 0 then { j with D := s.D, DList := s.DList }.signaler .evacuationVide
        else { j with D := s.D, DList := s.DList } := by
  rw [Journal.lireLigne_sortie hvide.1] at hok
  have hzero : ∀ s, j.analyserSortie (champs line) = .ok s → s.P = 0 := fun s hs =>
    Except.ok.inj ((analyserSortie_produit hs).1.symm.trans hvide.2)
  obtain ⟨s, hs, hP, -⟩ | ⟨s, hs, hP, attendus, hatt, heq⟩ := Journal.lireSortie_eq_ok.1 hok
  · exact absurd (hzero s hs) hP
  · exact ⟨s, attendus, hs, hP ▸ hatt, heq⟩

/-- One that is read anywhere in the log fails it, when product 6 is not ordered. -/
theorem lireLog_vide (ht : c.Tables ds) (hnb : c.nbProduit.length = 6) (hsix : nombreDe ds 6 = 0)
    (hvide : ∃ line ∈ Log, EstLigne "Sortie" 0 line) (hok : Journal.lireLog c j Log = .ok j') :
    j'.test = 0 := by
  induction Log generalizing j with
  | nil =>
    obtain ⟨line, hline, -⟩ := hvide
    exact absurd hline List.not_mem_nil
  | cons line Log ih =>
    obtain ⟨j₁, h₁, hok⟩ := bind_eq_ok.1 hok
    by_cases hline : EstLigne "Sortie" 0 line
    · obtain ⟨s, attendus, -, hatt, heq⟩ := lireLigne_vide hline h₁
      rw [item_attendus_vide ht hnb, hsix] at hatt
      have htest : j₁.test = 0 := by
        rw [heq, if_pos (Except.ok.inj hatt).symm]
        rfl
      exact (Journal.rapport_lireLog hok).1.echec htest
    · obtain ⟨l, hl, hest⟩ := hvide
      rcases List.mem_cons.1 hl with rfl | hl
      · exact absurd hest hline
      · exact ih ⟨l, hl, hest⟩ hok

/-- An empty evacuation is reported when product 6 is not ordered. -/
theorem checker_vide_signalee (hconfig : ConfigValide (F := F) contenu)
    (hsix : nombreDe (declarations (F := F) contenu) 6 = 0)
    (hvide : ∃ line ∈ Log, EstLigne "Sortie" 0 line) (hok : checker contenu Log = .ok (c, j)) :
    j.test = 0 := by
  obtain ⟨c₁, temps, -, -, htables, hnb, -, hchecker⟩ := hconfig.distincte.execution
  rw [hchecker] at hok
  obtain ⟨j₁, hj, hok⟩ := bind_eq_ok.1 hok
  obtain ⟨tempsLog, -, hok⟩ := bind_eq_ok.1 hok
  cases hok
  have htest := lireLog_vide htables hnb hsix hvide hj
  have hcomparer := Journal.rapport_comparer c j₁.moyennes temps tempsLog
  exact (Journal.rapport_conclure c _).echec (hcomparer.echec htest)

/-! ## An accepted log that ends with one -/

/-- A duration of an ordered product that is not a number. -/
def DureeIndefinie (ds : List (Declaration F)) : Prop :=
  ∃ D ∈ ds, 0 < D.nombre ∧ ∃ x ∈ D.durees, Floating.eq x x = false

/-- With such a duration no log is accepted. -/
theorem test_of_indefinie [LawfulFloating F] (hconfig : ConfigValide (F := F) contenu)
    (hindefinie : DureeIndefinie (declarations (F := F) contenu))
    (hok : checker contenu Log = .ok (c, j)) : j.test ≠ 1 := by
  intro htest
  obtain ⟨D, hD, hn, x, hx, hdiff⟩ := hindefinie
  obtain ⟨i, hi, rfl⟩ := List.getElem_of_mem hx
  have hlt : i < D.destinations.length := (hconfig.correctes D hD).nombre_durees ▸ hi
  have hzip : (D.destinations[i], D.durees[i]) ∈ D.destinations.zip D.durees :=
    List.mem_of_getElem? (List.getElem?_zip_eq_some.2
      ⟨List.getElem?_eq_getElem hlt, List.getElem?_eq_getElem hi⟩)
  -- a duration that is equal to another one is equal to itself
  have hpas : ∀ y, Floating.eq D.durees[i] y = true → False := fun y hy =>
    absurd ((LawfulFloating.trans hy (LawfulFloating.symm hy)).symm.trans hdiff) (by decide)
  obtain ⟨T, -, heq⟩ := checker_durees hconfig.distincte hok htest hD hn hzip
    (Bool.eq_false_iff.2 fun hzero => hpas _ hzero)
  exact hpas T heq

/-- The empty evacuation of the log manager. -/
def ligneVide : Str := ligneSortie [0, 0, 0, 0] 0

theorem champs_ligneVide : champs ligneVide =
    ["Sortie".toList, ['0'], ['0'], ['0'], ['0'], "0.00
".toList] := by decide +kernel

theorem estLigne_ligneVide : EstLigne "Sortie" 0 ligneVide := by decide +kernel

/-- It is read after any log without empty evacuations; when product 6 is ordered, only what was
read stays. -/
theorem lireLog_ligneVide (ht : c.Tables ds) (hnb : c.nbProduit.length = 6) (hsix : nombreDe ds 6 ≠ 0)
    (hzero : ∃ time : F, float "0.00".toList = .ok time)
    (hvides : ∀ line ∈ Log, ¬EstLigne "Sortie" 0 line) (hok : Journal.lireLog c .initial Log = .ok j) :
    ∃ j', Journal.lireLog c .initial (Log ++ [ligneVide]) = .ok j' ∧ MemesComptes j j' := by
  obtain ⟨time, htime⟩ := hzero
  have htemps : (tempsSortie ligneVide : Except Exception F) = .ok time := by
    unfold tempsSortie
    rw [champs_ligneVide]
    exact htime
  have hzeros : ∀ champ ∈ champsTaches (champs ligneVide), chiffre champ 0 = .ok 0 := by decide +kernel
  obtain ⟨s, hs⟩ : ∃ s, j.analyserSortie (champs ligneVide) = .ok s := by
    refine (analyserSortie_ok_iff (.lireLog hvides hok)).2
      ⟨⟨0, estLigne_ligneVide.2, ?_⟩, ?_, ?_, time, htemps⟩
    · exact fun h => absurd rfl h
    · exact fun champ hchamp => ⟨0, hzeros champ hchamp, fun h => absurd rfl h⟩
    · decide +kernel
  have hP : s.P = 0 :=
    Except.ok.inj ((analyserSortie_produit hs).1.symm.trans estLigne_ligneVide.2)
  -- `nbProduit[-1]` is the count of product 6
  have hatt : item c.nbProduit (s.P - 1) = .ok (nombreDe ds 6) := by
    rw [hP]
    exact item_attendus_vide ht hnb
  have hlue : j.lireSortie c (champs ligneVide) = .ok { j with D := s.D, DList := s.DList } :=
    Journal.lireSortie_eq_ok.2 (.vide s hs hP _ hatt (if_neg hsix).symm)
  refine ⟨{ j with D := s.D, DList := s.DList }, ?_, rfl, rfl, rfl, rfl⟩
  rw [lireLog_snoc, hok, ok_bind, Journal.lireLigne_sortie estLigne_ligneVide.1, hlue]

/-- A log that makes what is ordered and ends with an empty evacuation is accepted, when product 6
is ordered. -/
theorem exists_vide_accepte [LawfulFloating F] (hzero : ∃ time : F, float "0.00".toList = .ok time)
    (hconfig : ConfigValide (F := F) contenu)
    (hsix : nombreDe (declarations (F := F) contenu) 6 ≠ 0)
    (hdefinies : ¬DureeIndefinie (declarations (F := F) contenu)) :
    ∃ Log, (∃ line ∈ Log, EstLigne "Sortie" 0 line) ∧
      ∃ (c : Config F) (j : Journal F), checker contenu Log = .ok (c, j) ∧ j.test = 1 := by
  have hds := hconfig.correctes
  have hdurees : ∀ x ∈ dureesComparees (declarations (F := F) contenu),
      ∃ mot, ' ' ∉ mot ∧ ':' ∉ mot ∧ float mot = .ok x.2.2 := fun x hx => duree_comparee hx
  choose! mot hespace hcolon hmot using hdurees
  -- a duration that differs from itself would not be ordered
  have hegales : ∀ x ∈ dureesComparees (declarations (F := F) contenu),
      Floating.eq x.2.2 x.2.2 = true := by
    intro x hx
    obtain ⟨hmem, hcond⟩ := List.mem_filter.1 hx
    obtain ⟨D, hD, htemps⟩ := List.mem_flatMap.1 hmem
    obtain ⟨y, hy, rfl⟩ := List.mem_map.1 htemps
    have hp := (of_decide_eq_true hcond).1
    unfold nombreDe at hp
    rw [declarationDe_of_mem hconfig.distincts hD] at hp
    by_contra hdiff
    exact hdefinies ⟨D, hD, hp, y.2, (List.of_mem_zip hy).2, Bool.eq_false_iff.2 hdiff⟩
  -- each duration is written with the word of the configuration
  have hlisible : (ecriture (declarations (F := F) contenu) 3 maxTaches
      fun x => ligneDuree x.1 x.2.1 (mot x)).Lisible (declarations (F := F) contenu) := by
    apply lisible_ecriture hds (by decide) le_rfl ?_ hzero ?_
    · intro p hp
      obtain ⟨D, hD, -, hdecl⟩ := exists_of_nombreDe hp.ne'
      unfold destinationsDe
      rw [hdecl]
      exact (hds D hD).nombre_taches
    · intro x hx
      obtain ⟨hp, hd⟩ := dansTable_of_temps (fun D hD => (hds D hD).toValide) x (List.mem_filter.1 hx).1
      obtain ⟨hest, hposte, hduree⟩ := lue_duree (F := F) hp (d := x.2.1) (by omega) (hespace x hx)
        (hcolon x hx)
      exact ⟨hest, hposte, x.2.2, hduree.trans (hmot x hx), hegales x hx⟩
  obtain ⟨c, j, hok, -, htest⟩ := checker_of_comptes LawfulFloating.zero_eq_zero hconfig
    (hlisible.logAdmis hds hconfig.distincts) fun c j ht hnb hj _ =>
      lireLog_ligneVide ht hnb hsix hzero (hlisible.sans_vide hds) hj
  exact ⟨_, ⟨ligneVide, by simp, estLigne_ligneVide⟩, c, j, hok, htest⟩

/-- **Empty evacuations**, for every valid configuration: they are reported in every log exactly
when product 6 is not ordered, or when a duration that is not a number lets no log pass. -/
theorem evacuation_vide_signalee_iff [LawfulFloating F]
    (hzero : ∃ time : F, float "0.00".toList = .ok time) (hconfig : ConfigValide (F := F) contenu) :
    (∀ Log, (∃ line ∈ Log, EstLigne "Sortie" 0 line) → ∀ (c : Config F) (j : Journal F),
      checker contenu Log = .ok (c, j) → j.test = 0) ↔
    nombreDe (declarations (F := F) contenu) 6 = 0 ∨
      DureeIndefinie (declarations (F := F) contenu) := by
  constructor
  · intro h
    by_contra hnon
    rw [not_or] at hnon
    obtain ⟨Log, hvide, c, j, hok, htest⟩ := exists_vide_accepte hzero hconfig hnon.1 hnon.2
    exact absurd (htest.symm.trans (h Log hvide c j hok)) (by decide)
  · rintro (hsix | hindefinie) Log hvide c j hok
    · exact checker_vide_signalee hconfig hsix hvide hok
    · have htest := test_of_indefinie hconfig hindefinie hok
      rw [test_eq_ite hok (hconfig.sans_erreur hok)] at htest ⊢
      split_ifs at htest ⊢
      · rfl
      · exact absurd rfl htest

end

/-- The configuration of one product does not order product 6, and its empty evacuations are
reported. -/
theorem evacuation_vide_unProduit : nombreDe (declarations (F := ℚ) configUnProduit) 6 = 0 ∧
    ∀ Log, (∃ line ∈ Log, EstLigne "Sortie" 0 line) →
      ∀ (c : Config ℚ) (j : Journal ℚ), checker configUnProduit Log = .ok (c, j) → j.test = 0 := by
  have hsix : nombreDe (declarations (F := ℚ) configUnProduit) 6 = 0 := by
    rw [declarations_unProduit]
    rfl
  exact ⟨hsix,
    (evacuation_vide_signalee_iff ⟨0, by decide +kernel⟩ configValide_unProduit).2 (.inl hsix)⟩

/-- A configuration that orders one of product 6. -/
def configSix : List Str := ["6 : 1 4 : 4 5 : 1\n".toList]

/-- The log of a run that makes it, where an empty shuttle is evacuated at the end. -/
def logVideFinal : List Str :=
  ["NouveauProduit: 64 :10.00\n".toList, "TempoT: 64: 1: 4\n".toList, "TempoT: 64: 4: 5\n".toList,
    "Sortie :64 :13 :43 :0 :35.25\n".toList, "Sortie :0 :0 :0 :0 :50.00\n".toList]

/-- **An empty evacuation is accepted.** -/
theorem videFinal_accepte : ConfigValide (F := ℚ) configSix ∧
    (∃ line ∈ logVideFinal, EstLigne "Sortie" 0 line) ∧
    (checker (F := ℚ) configSix logVideFinal).map (fun x => (x.1.erreurConfig, x.2.test)) =
      .ok (0, 1) := by
  have hligne : declaration "6 : 1 4 : 4 5 : 1\n".toList =
      .ok (some { declarationUnProduit with produit := 6 }) := by decide +kernel
  exact ⟨configValide_une hligne (by decide), by decide +kernel, by decide +kernel⟩

end Checker
