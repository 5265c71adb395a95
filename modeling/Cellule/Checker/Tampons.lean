import Cellule.Checker.EvacuationVide

/-! # What an empty evacuation leaves behind

`D` and `DList` are emptied when a product leaves, and by nothing else. After an empty evacuation
its fields are still there, and the fields of the next `Sortie` line do not fit behind them: the
script raises. A log is compared with the same log without its empty evacuations. Up to the first
one the two runs are the same, and the lines after it change the same variables until a product
leaves.
-/

namespace Checker

open Python

variable {F : Type}

/-! ## Two logs -/

/-- The log without its empty evacuations. -/
def sansVides (Log : List Str) : List Str := Log.filter fun line => ¬EstLigne "Sortie" 0 line

/-- The lines up to the first `Sortie` line. -/
def jusquaSortie : List Str → List Str
  | [] => []
  | line :: Log => if identifiant line = "Sortie".toList then [line] else line :: jusquaSortie Log

/-- The lines of a log are `Sortie` lines of a product field, three task fields and a time. -/
def FormatSortie (Log : List Str) : Prop :=
  ∀ line ∈ Log, identifiant line = "Sortie".toList → (champs line).length = 6

theorem not_vide_of_mem_sansVides {Log : List Str} {line : Str} (h : line ∈ sansVides Log) :
    ¬EstLigne "Sortie" 0 line := of_decide_eq_true (List.mem_filter.1 h).2

/-- A log without empty evacuations is left as it is. -/
theorem sansVides_eq_self {Log : List Str} (h : ∀ line ∈ Log, ¬EstLigne "Sortie" 0 line) :
    sansVides Log = Log :=
  List.filter_eq_self.2 fun line hline => decide_eq_true (h line hline)

theorem sansVides_append_cons {avant apres : List Str} {vide : Str}
    (havant : ∀ line ∈ avant, ¬EstLigne "Sortie" 0 line) (hvide : EstLigne "Sortie" 0 vide) :
    sansVides (avant ++ vide :: apres) = avant ++ sansVides apres := by
  have htete := sansVides_eq_self havant
  unfold sansVides at htete ⊢
  rw [List.filter_append, htete, List.filter_cons_of_neg (by simpa using hvide)]

/-- The lines up to the first `Sortie` line start the log. -/
theorem jusquaSortie_prefixe (Log : List Str) : jusquaSortie Log <+: Log := by
  induction Log with
  | nil => exact List.prefix_rfl
  | cons line Log ih =>
    unfold jusquaSortie
    split_ifs
    · exact ⟨Log, rfl⟩
    · exact List.prefix_cons_inj line |>.2 ih

/-- They are the whole log when it has no such line. -/
theorem jusquaSortie_eq_self {Log : List Str} (h : ∀ line ∈ Log, identifiant line ≠ "Sortie".toList) :
    jusquaSortie Log = Log := by
  induction Log with
  | nil => rfl
  | cons line Log ih =>
    obtain ⟨hline, hLog⟩ := List.forall_mem_cons.1 h
    unfold jusquaSortie
    rw [if_neg hline, ih hLog]

/-! ## What the products are judged on -/

/-- `produit_final`, and the types of the tasks that are looked at. -/
def jugement (s : Sortie F) : List ℤ × List ℤ :=
  (s.P :: (s.D.take maxTaches).map Prod.fst, (s.D.take (s.DList.length - 1)).map Prod.snd)

section

variable [Floating F]

/-- What the product of a line is judged on, if the line is the one of a product that leaves. -/
def jugementsLigne (j : Journal F) (line : Str) : List (List ℤ × List ℤ) :=
  if identifiant line = "Sortie".toList then
    match j.analyserSortie (champs line) with
    | .ok s => if s.P ≠ 0 then [jugement s] else []
    | .error _ => []
  else []

/-- What the products of a log are judged on, in order, until the script raises. -/
def jugements (c : Config F) (j : Journal F) : List Str → List (List ℤ × List ℤ)
  | [] => []
  | line :: Log =>
      match Journal.lireLigne c j line with
      | .ok j' => jugementsLigne j line ++ jugements c j' Log
      | .error _ => []

variable {c : Config F} {j j' : Journal F} {line : Str} {l l' : List Str}

theorem jugements_cons_ok (h : Journal.lireLigne c j line = .ok j') :
    jugements c j (line :: l) = jugementsLigne j line ++ jugements c j' l := by
  conv_lhs => unfold jugements
  rw [h]

theorem jugements_cons_error (h : ¬∃ j', Journal.lireLigne c j line = .ok j') :
    jugements c j (line :: l) = [] := by
  unfold jugements
  split
  · next j' hj' => exact absurd ⟨j', hj'⟩ h
  · rfl

/-- Only `Sortie` lines are judged. -/
theorem jugementsLigne_autre (h : identifiant line ≠ "Sortie".toList) : jugementsLigne j line = [] :=
  if_neg h

/-- An empty evacuation is not judged. -/
theorem jugementsLigne_vide (hvide : EstLigne "Sortie" 0 line) : jugementsLigne j line = [] := by
  unfold jugementsLigne
  rw [if_pos hvide.1]
  split
  · next s hs =>
    have hP : s.P = 0 := Except.ok.inj ((analyserSortie_produit hs).1.symm.trans hvide.2)
    rw [if_neg (not_not.2 hP)]
  · rfl

/-- A product that leaves is judged. -/
theorem jugementsLigne_produit (hID : identifiant line = "Sortie".toList)
    (hvide : ¬EstLigne "Sortie" 0 line) (hok : Journal.lireLigne c j line = .ok j') :
    jugementsLigne j line ≠ [] := by
  rw [Journal.lireLigne_sortie hID] at hok
  obtain ⟨s, hs, -⟩ := bind_eq_ok.1 hok
  have hP : s.P ≠ 0 := fun hP => hvide ((estLigne_iff hID (analyserSortie_produit hs).1 0).2 hP)
  unfold jugementsLigne
  rw [if_pos hID, hs]
  dsimp only
  rw [if_pos hP]
  exact List.cons_ne_nil _ _

theorem lireLog_cons : Journal.lireLog c j (line :: l) =
    Journal.lireLigne c j line >>= fun j' => Journal.lireLog c j' l := List.foldlM_cons

/-- A line that raises ends the loop. -/
theorem lireLog_cons_error (h : ¬∃ j', Journal.lireLigne c j line = .ok j') :
    ¬∃ j', Journal.lireLog c j (line :: l) = .ok j' := by
  rw [lireLog_cons]
  rintro ⟨j', hj'⟩
  obtain ⟨j₁, h₁, -⟩ := bind_eq_ok.1 hj'
  exact h ⟨j₁, h₁⟩

/-- The judgements of a log that is read go on from what it leaves. -/
theorem jugements_append (h : Journal.lireLog c j l = .ok j') :
    jugements c j (l ++ l') = jugements c j l ++ jugements c j' l' := by
  induction l generalizing j with
  | nil =>
    cases h
    rfl
  | cons line l ih =>
    obtain ⟨j₁, h₁, h⟩ := bind_eq_ok.1 h
    rw [List.cons_append, jugements_cons_ok h₁, jugements_cons_ok h₁, ih h, List.append_assoc]

/-- After an exception there is none. -/
theorem jugements_append_error (h : ¬∃ j', Journal.lireLog c j l = .ok j') :
    jugements c j (l ++ l') = jugements c j l := by
  induction l generalizing j with
  | nil => exact absurd ⟨j, rfl⟩ h
  | cons line l ih =>
    by_cases hline : ∃ j₁, Journal.lireLigne c j line = .ok j₁
    · obtain ⟨j₁, h₁⟩ := hline
      rw [lireLog_cons, h₁, ok_bind] at h
      rw [List.cons_append, jugements_cons_ok h₁, jugements_cons_ok h₁, ih h]
    · rw [List.cons_append, jugements_cons_error hline, jugements_cons_error hline]

/-- A log without empty evacuations has no judgement when it has no `Sortie` line, or when the
script raises up to the first one. -/
theorem jugements_eq_nil_iff (hvides : ∀ line ∈ l, ¬EstLigne "Sortie" 0 line) :
    jugements c j l = [] ↔ (∀ line ∈ l, identifiant line ≠ "Sortie".toList) ∨
      ¬∃ j', Journal.lireLog c j (jusquaSortie l) = .ok j' := by
  induction l generalizing j with
  | nil => exact iff_of_true rfl (.inl (by simp))
  | cons line l ih =>
    obtain ⟨hvide, hvides⟩ := List.forall_mem_cons.1 hvides
    by_cases hline : ∃ j₁, Journal.lireLigne c j line = .ok j₁
    · obtain ⟨j₁, h₁⟩ := hline
      rw [jugements_cons_ok h₁, List.append_eq_nil_iff, List.forall_mem_cons]
      unfold jusquaSortie
      -- a `Sortie` line is judged once it is read
      by_cases hID : identifiant line = "Sortie".toList
      · rw [if_pos hID, lireLog_cons, h₁, ok_bind]
        refine iff_of_false (fun h => jugementsLigne_produit hID hvide h₁ h.1) ?_
        rintro (h | h)
        · exact h.1 hID
        · exact h ⟨j₁, rfl⟩
      · rw [if_neg hID, lireLog_cons, h₁, ok_bind, ih hvides]
        simp only [jugementsLigne_autre hID, hID, not_false_eq_true, true_and, ne_eq]
    · rw [jugements_cons_error hline]
      refine iff_of_true rfl (.inr ?_)
      unfold jusquaSortie
      split_ifs
      all_goals exact lireLog_cons_error hline

/-! ## Lines that are no `Sortie` lines -/

/-- The variables without the verdict, the lines printed and what is left of the `Sortie` lines. -/
def noyau (j : Journal F) : Journal F :=
  { j with test := 1, affichage := [], D := Journal.videD, DList := [] }

omit [Floating F] in
/-- Checks change nothing else. -/
theorem Controle.noyau {P : Prop} (h : Controle P j j') : noyau j' = noyau j := by
  rw [h.eq]
  rfl

/-- What such a line does is the same whatever the verdict and what is left of the `Sortie`
lines. -/
theorem map_noyau_lireLigne (hID : identifiant line ≠ "Sortie".toList) :
    noyau <$> Journal.lireLigne c j line = noyau <$> Journal.lireLigne c (noyau j) line := by
  have herreur : ∀ m : ℤ → Message F, noyau <$> j.lireErreur (champs line) m =
      noyau <$> (noyau j).lireErreur (champs line) m := by
    intro m
    unfold Journal.lireErreur
    simp only [map_bind, map_pure]
    rfl
  unfold Journal.lireLigne
  dsimp only
  split_ifs
  · exact herreur _
  · exact herreur _
  · exact herreur _
  · exact herreur _
  · unfold Journal.lireTempoT
    simp only [map_bind, map_pure]
    rfl
  · unfold Journal.lireNouveauProduit
    simp only [map_bind, map_pure, (Journal.verifierApparition_controle _ _ _ _ _ _).noyau]
    rfl
  · rfl

/-- It keeps what is left of the `Sortie` lines. -/
theorem tampons_lireLigne (hID : identifiant line ≠ "Sortie".toList)
    (hok : Journal.lireLigne c j line = .ok j') : j'.D = j.D ∧ j'.DList = j.DList := by
  cases Journal.lireLigne_inv hok with
  | erreur hID m hm poste heq =>
    subst heq
    exact ⟨rfl, rfl⟩
  | tempoT hID hok =>
    obtain ⟨x, rfl⟩ := Journal.lireTempoT_inv hok
    exact ⟨rfl, rfl⟩
  | nouveauProduit hID hlu =>
    obtain ⟨P, pType, n, attendus, time, nbProduitNew, -, -, -, -, -, -, rfl⟩ := hlu
    have hcontrole := Journal.verifierApparition_controle
      { j with nbProduitNew, produitEntree := j.produitEntree ++ [(P, time)] } attendus (n + 1) time P
      pType
    rw [hcontrole.eq]
    exact ⟨rfl, rfl⟩
  | sortie hsortie hlue => exact absurd hsortie hID
  | autre hID h₁ h₂ h₃ heq =>
    subst heq
    exact ⟨rfl, rfl⟩

/-- Lines that are no `Sortie` lines have no judgement, also after an empty evacuation. -/
theorem jugements_autres (hl : ∀ line ∈ l, identifiant line ≠ "Sortie".toList) :
    jugements c j l = [] :=
  (jugements_eq_nil_iff fun line hline hest => hl line hline hest.1).2 (.inl hl)

theorem jugements_vide_autres (hvide : EstLigne "Sortie" 0 line)
    (hl : ∀ line ∈ l, identifiant line ≠ "Sortie".toList) : jugements c j (line :: l) = [] := by
  by_cases hok : ∃ j₁, Journal.lireLigne c j line = .ok j₁
  · obtain ⟨j₁, h₁⟩ := hok
    rw [jugements_cons_ok h₁, jugementsLigne_vide hvide, jugements_autres hl]
    rfl
  · exact jugements_cons_error hok

/-- Two runs that agree but for these variables go on together. -/
theorem lireLigne_noyau {j₁ j₂ j₁' : Journal F} (hID : identifiant line ≠ "Sortie".toList)
    (h : noyau j₁ = noyau j₂) (hok : Journal.lireLigne c j₁ line = .ok j₁') :
    ∃ j₂', Journal.lireLigne c j₂ line = .ok j₂' ∧ noyau j₁' = noyau j₂' := by
  have hmap : noyau <$> Journal.lireLigne c j₁ line = noyau <$> Journal.lireLigne c j₂ line := by
    rw [map_noyau_lireLigne hID, h, ← map_noyau_lireLigne hID]
  rw [hok] at hmap
  cases hok₂ : Journal.lireLigne c j₂ line with
  | error e =>
    rw [hok₂] at hmap
    cases hmap
  | ok j₂' =>
    rw [hok₂] at hmap
    exact ⟨j₂', rfl, Except.ok.inj hmap⟩

theorem lireLog_noyau {j₁ j₂ : Journal F} (hl : ∀ line ∈ l, identifiant line ≠ "Sortie".toList)
    (h : noyau j₁ = noyau j₂) (hok : ∃ j₁', Journal.lireLog c j₁ l = .ok j₁') :
    ∃ j₂', Journal.lireLog c j₂ l = .ok j₂' := by
  induction l generalizing j₁ j₂ with
  | nil => exact ⟨j₂, rfl⟩
  | cons line l ih =>
    obtain ⟨hline, hl⟩ := List.forall_mem_cons.1 hl
    obtain ⟨j₁', hok⟩ := hok
    obtain ⟨k₁, hk₁, hok⟩ := bind_eq_ok.1 hok
    obtain ⟨k₂, hk₂, hk⟩ := lireLigne_noyau hline h hk₁
    rw [lireLog_cons, hk₂, ok_bind]
    exact ih hl hk ⟨j₁', hok⟩

/-! ## After an empty evacuation -/

/-- What an empty evacuation leaves. -/
theorem tampons_vide {lus : List Str} (h : Vierge lus j) (hformat : (champs line).length = 6)
    (hvide : EstLigne "Sortie" 0 line) (hok : Journal.lireLigne c j line = .ok j') :
    noyau j' = noyau j ∧ j'.D.length = maxTaches ∧ j'.DList.length = 3 := by
  obtain ⟨s, attendus, hs, -, rfl⟩ := lireLigne_vide hvide hok
  obtain ⟨-, -, -, hlus, hremplir⟩ := analyserSortie_produit hs
  have hDList : s.DList.length = 3 := by
    rw [hlus, h.DList_vide, List.nil_append]
    unfold champsTaches
    rw [List.length_take, List.length_drop, hformat]
    rfl
  have hD : s.D.length = maxTaches := by
    obtain ⟨taches, -, hlen, hmap⟩ := map_fst_remplirD hremplir
    have hlength := congrArg List.length hmap
    rw [h.D_vide] at hlen hlength
    rw [List.length_map, List.length_append, List.length_drop, List.length_map] at hlength
    have hcinq : Journal.videD.length = maxTaches := rfl
    omega
  split_ifs
  · exact ⟨rfl, hD, hDList⟩
  · exact ⟨rfl, hD, hDList⟩

/-- The next `Sortie` line raises, before a product is judged. -/
theorem lireLog_charge (hD : j.D.length = maxTaches) (hDList : j.DList.length = 3)
    (hformat : FormatSortie l) (hsortie : ∃ line ∈ l, identifiant line = "Sortie".toList) :
    (¬∃ j', Journal.lireLog c j l = .ok j') ∧ jugements c j l = [] := by
  induction l generalizing j with
  | nil =>
    obtain ⟨line, hline, -⟩ := hsortie
    exact absurd hline List.not_mem_nil
  | cons line l ih =>
    obtain ⟨hline, hl⟩ := List.forall_mem_cons.1 hformat
    by_cases hok : ∃ j₁, Journal.lireLigne c j line = .ok j₁
    · obtain ⟨j₁, h₁⟩ := hok
      by_cases hID : identifiant line = "Sortie".toList
      -- six fields do not fit in five rows
      · rw [Journal.lireLigne_sortie hID] at h₁
        obtain ⟨s, hs, -⟩ := bind_eq_ok.1 h₁
        obtain ⟨-, -, -, hlus, hremplir⟩ := analyserSortie_produit hs
        have hle := (remplirD_ok_iff.1 ⟨_, hremplir⟩).1
        have hsix := hline hID
        unfold champsTaches at hlus
        rw [hlus, List.length_append, List.length_take, List.length_drop, hD, hDList, hsix] at hle
        exact absurd hle (by decide)
      · obtain ⟨hD₁, hDList₁⟩ := tampons_lireLigne hID h₁
        have hsuite : ∃ line ∈ l, identifiant line = "Sortie".toList := by
          obtain ⟨l₀, hl₀, hID₀⟩ := hsortie
          rcases List.mem_cons.1 hl₀ with rfl | hl₀
          · exact absurd hID₀ hID
          · exact ⟨l₀, hl₀, hID₀⟩
        obtain ⟨hpas, hrien⟩ := ih (by rw [hD₁, hD]) (by rw [hDList₁, hDList]) hl hsuite
        rw [lireLog_cons, h₁, ok_bind, jugements_cons_ok h₁, jugementsLigne_autre hID, hrien]
        exact ⟨hpas, rfl⟩
    · exact ⟨lireLog_cons_error hok, jugements_cons_error hok⟩

/-! ## When the script ends -/

variable (F) in
/-- The durations of a log are at places of the table. -/
def DureesDansTable (Log : List Str) : Prop :=
  ∀ x ∈ (Log.filterMap (tempoDe (F := F))).map placeDe, DansTable x.1 x.2.1

/-- Empty evacuations say no duration. -/
theorem dureesDansTable_sansVides {Log : List Str} :
    DureesDansTable F (sansVides Log) ↔ DureesDansTable F Log := by
  have htempos : (sansVides Log).filterMap (tempoDe (F := F)) = Log.filterMap tempoDe := by
    unfold sansVides
    rw [List.filterMap_filter]
    apply List.filterMap_congr
    intro line _
    split_ifs with hline
    · rfl
    · have hvide : EstLigne "Sortie" 0 line := by simpa using hline
      exact (tempoDe_autre (hvide.1.trans_ne (by decide))).symm
  unfold DureesDansTable
  rw [htempos]

/-- The script ends without an exception when the log is read and its durations are in the table. -/
theorem checker_ok_iff {contenu Log : List Str} (hconfig : ConfigValide (F := F) contenu)
    (hc : Config.initial.lireLignes contenu = .ok c) :
    (∃ x : Config F × Journal F, checker contenu Log = .ok x) ↔
      (∃ j, Journal.lireLog c .initial Log = .ok j) ∧ DureesDansTable F Log := by
  obtain ⟨c₁, temps, hc₁, -, -, -, -, hchecker⟩ := hconfig.distincte.execution
  obtain rfl : c = c₁ := Except.ok.inj (hc.symm.trans hc₁)
  rw [hchecker]
  unfold DureesDansTable
  rw [← remplirTemps_ok_iff]
  constructor
  · rintro ⟨x, hx⟩
    obtain ⟨j, hj, hx⟩ := bind_eq_ok.1 hx
    obtain ⟨tempsLog, htempsLog, -⟩ := bind_eq_ok.1 hx
    rw [lireLog_tempos hj] at htempsLog
    exact ⟨⟨j, hj⟩, tempsLog, htempsLog⟩
  · rintro ⟨⟨j, hj⟩, tempsLog, htempsLog⟩
    have htempos : j.verifConfigLog = Log.filterMap tempoDe := lireLog_tempos hj
    rw [hj, ok_bind, htempos, htempsLog]
    exact ⟨_, rfl⟩

/-! ## Both runs -/

variable (F) in
/-- The empty evacuations of a log disturb nothing: without them the script ends without an
exception for the same logs, and the products are judged on the same tasks and types. -/
structure EvacuationsNeutres (contenu Log : List Str) : Prop where
  fin : (∃ x : Config F × Journal F, checker contenu Log = .ok x) ↔
    ∃ x : Config F × Journal F, checker contenu (sansVides Log) = .ok x
  jugements : ∀ c : Config F, Config.initial.lireLignes contenu = .ok c →
    jugements c .initial Log = jugements c .initial (sansVides Log)

variable (F) in
/-- The first empty evacuation has no effect: it is read and no `Sortie` line follows, or without it
the script raises before another product is judged. -/
def SansEffet (avant : List Str) (vide : Str) (apres : List Str) : Prop :=
  (SortieLisible F vide ∧ ∀ line ∈ apres, identifiant line ≠ "Sortie".toList) ∨
    ¬LogLisible F (avant ++ jusquaSortie (sansVides apres)) ∨
    (∀ line ∈ sansVides apres, identifiant line ≠ "Sortie".toList) ∧
      ¬DureesDansTable F (avant ++ sansVides apres)

variable {contenu avant apres : List Str} {vide : Str} {ds : List (Declaration F)}

theorem lireLog_append_ok (h : Journal.lireLog c .initial l = .ok j) :
    (∃ j', Journal.lireLog c .initial (l ++ l') = .ok j') ↔ ∃ j', Journal.lireLog c j l' = .ok j' := by
  rw [lireLog_append, h, ok_bind]

/-- An empty evacuation that cannot be read, or that another `Sortie` line follows, ends the run. -/
theorem arret_vide (ht : c.Tables ds) (hnb : c.nbProduit.length = 6) (h : Vierge avant j)
    (hformat : FormatSortie (vide :: apres)) (hvide : EstLigne "Sortie" 0 vide)
    (hpas : ¬(SortieLisible F vide ∧ ∀ line ∈ apres, identifiant line ≠ "Sortie".toList)) :
    (¬∃ j', Journal.lireLog c j (vide :: apres) = .ok j') ∧ jugements c j (vide :: apres) = [] := by
  obtain ⟨hsix, hapres⟩ := List.forall_mem_cons.1 hformat
  by_cases hok : ∃ j₁, Journal.lireLigne c j vide = .ok j₁
  · obtain ⟨j₁, h₁⟩ := hok
    obtain ⟨-, hD, hDList⟩ := tampons_vide h (hsix hvide.1) hvide h₁
    have hsortie : ∃ line ∈ apres, identifiant line = "Sortie".toList := by
      rw [Journal.lireLigne_sortie hvide.1] at h₁
      have hlisible := ((lireSortie_ok_iff h ht hnb hvide.1).1 ⟨j₁, h₁⟩).1
      by_contra hsans
      push Not at hsans
      exact hpas ⟨hlisible, hsans⟩
    obtain ⟨harret, hjugements⟩ := lireLog_charge (c := c) hD hDList hapres hsortie
    rw [lireLog_cons, h₁, ok_bind, jugements_cons_ok h₁, jugementsLigne_vide hvide, hjugements]
    exact ⟨harret, rfl⟩
  · exact ⟨lireLog_cons_error hok, jugements_cons_error hok⟩

/-- One that is read and that no `Sortie` line follows changes nothing of the lines after it. -/
theorem suite_vide (ht : c.Tables ds) (hnb : c.nbProduit.length = 6) (h : Vierge avant j)
    (hformat : (champs vide).length = 6) (hvide : EstLigne "Sortie" 0 vide)
    (hlisible : SortieLisible F vide) (hapres : ∀ line ∈ apres, identifiant line ≠ "Sortie".toList) :
    (∃ j', Journal.lireLog c j (vide :: apres) = .ok j') ↔
      ∃ j', Journal.lireLog c j apres = .ok j' := by
  have hordre : ∀ p, p ≠ 0 → EstLigne "Sortie" p vide →
      nombreLignes "Sortie" p avant < nombreLignes "NouveauProduit" p avant := by
    intro p hp hest
    exact absurd (Except.ok.inj (hest.2.symm.trans hvide.2)) hp
  obtain ⟨j₁, h₁⟩ := (lireSortie_ok_iff h ht hnb hvide.1).2 ⟨hlisible, hordre⟩
  rw [← Journal.lireLigne_sortie hvide.1] at h₁
  obtain ⟨hnoyau, -, -⟩ := tampons_vide h hformat hvide h₁
  rw [lireLog_cons, h₁, ok_bind]
  exact ⟨lireLog_noyau hapres hnoyau, lireLog_noyau hapres hnoyau.symm⟩

/-- The ends of both runs, as what is read of both logs. -/
theorem evacuationsNeutres_iff_lectures {Log : List Str} (hconfig : ConfigValide (F := F) contenu)
    (hc : Config.initial.lireLignes contenu = .ok c) : EvacuationsNeutres F contenu Log ↔
      (((∃ j, Journal.lireLog c .initial Log = .ok j) ∧ DureesDansTable F (sansVides Log) ↔
        (∃ j, Journal.lireLog c .initial (sansVides Log) = .ok j) ∧
          DureesDansTable F (sansVides Log)) ∧
      jugements c .initial Log = jugements c .initial (sansVides Log)) := by
  constructor
  · intro h
    have hfin := h.fin
    rw [checker_ok_iff hconfig hc, checker_ok_iff hconfig hc, ← dureesDansTable_sansVides] at hfin
    exact ⟨hfin, h.jugements c hc⟩
  · rintro ⟨hfin, hjugements⟩
    refine ⟨?_, ?_⟩
    · rw [checker_ok_iff hconfig hc, checker_ok_iff hconfig hc, ← dureesDansTable_sansVides]
      exact hfin
    · intro c' hc'
      obtain rfl : c' = c := Except.ok.inj (hc'.symm.trans hc)
      exact hjugements

/-- The first empty evacuation of a log decides for all of them. -/
theorem evacuations_neutres_cons (hconfig : ConfigValide (F := F) contenu)
    (hformat : FormatSortie (avant ++ vide :: apres))
    (havant : ∀ line ∈ avant, ¬EstLigne "Sortie" 0 line) (hvide : EstLigne "Sortie" 0 vide) :
    EvacuationsNeutres F contenu (avant ++ vide :: apres) ↔ SansEffet F avant vide apres := by
  obtain ⟨c, temps, hc, -, ht, hnb, -⟩ := hconfig.distincte.execution
  have hsuite : ∀ line ∈ avant ++ jusquaSortie (sansVides apres), ¬EstLigne "Sortie" 0 line := by
    rw [List.forall_mem_append]
    exact ⟨havant, fun line hline =>
      not_vide_of_mem_sansVides ((jusquaSortie_prefixe _).subset hline)⟩
  rw [evacuationsNeutres_iff_lectures hconfig hc, sansVides_append_cons havant hvide]
  unfold SansEffet
  rw [← lireLog_ok_iff ht hnb hsuite]
  by_cases hlu : ∃ j, Journal.lireLog c .initial avant = .ok j
  · obtain ⟨j, hj⟩ := hlu
    have hvierge := Vierge.lireLog havant hj
    have hformat' : FormatSortie (vide :: apres) := fun line hline =>
      hformat line (List.mem_append_right _ hline)
    rw [lireLog_append_ok hj, lireLog_append_ok hj, lireLog_append_ok hj, jugements_append hj,
      jugements_append hj, List.append_cancel_left_eq]
    by_cases hpas : SortieLisible F vide ∧ ∀ line ∈ apres, identifiant line ≠ "Sortie".toList
    -- the lines after it are the same for both
    · have hapres : sansVides apres = apres :=
        sansVides_eq_self fun line hline hest => hpas.2 line hline hest.1
      have hsix := hformat' vide List.mem_cons_self hvide.1
      rw [hapres, suite_vide ht hnb hvierge hsix hvide hpas.1 hpas.2, jugements_autres hpas.2,
        jugements_vide_autres hvide hpas.2]
      exact iff_of_true ⟨Iff.rfl, rfl⟩ (.inl hpas)
    -- one run ends here; the other one must raise before it judges a product
    · obtain ⟨harret, hrien⟩ := arret_vide ht hnb hvierge hformat' hvide hpas
      rw [hrien, eq_comm, jugements_eq_nil_iff fun line hline => not_vide_of_mem_sansVides hline]
      have hdebut : (∃ j', Journal.lireLog c j (sansVides apres) = .ok j') →
          ∃ j', Journal.lireLog c j (jusquaSortie (sansVides apres)) = .ok j' :=
        lireLog_prefixe (jusquaSortie_prefixe _)
      have htout : (∀ line ∈ sansVides apres, identifiant line ≠ "Sortie".toList) →
          (∃ j', Journal.lireLog c j (jusquaSortie (sansVides apres)) = .ok j') →
            ∃ j', Journal.lireLog c j (sansVides apres) = .ok j' := by
        intro hautres h
        rwa [jusquaSortie_eq_self hautres] at h
      constructor
      · rintro ⟨hfin, hjugements⟩
        by_cases hR : ∃ j', Journal.lireLog c j (jusquaSortie (sansVides apres)) = .ok j'
        · rcases hjugements with hautres | hnon
          · exact .inr (.inr ⟨hautres, fun hT => harret (hfin.2 ⟨htout hautres hR, hT⟩).1⟩)
          · exact absurd hR hnon
        · exact .inr (.inl hR)
      · rintro (h | hR | ⟨hautres, hT⟩)
        · exact absurd h hpas
        · exact ⟨iff_of_false (fun h => harret h.1) fun h => hR (hdebut h.1), .inr hR⟩
        · exact ⟨iff_of_false (fun h => hT h.2) fun h => hT h.2, .inl hautres⟩
  -- both raise before it
  · have hpas : ∀ l, ¬∃ j, Journal.lireLog c .initial (avant ++ l) = .ok j := fun l h =>
      hlu (lireLog_prefixe (List.prefix_append avant l) h)
    rw [jugements_append_error hlu, jugements_append_error hlu]
    exact iff_of_true ⟨iff_of_false (fun h => hpas _ h.1) fun h => hpas _ h.1, rfl⟩
      (.inr (.inl (hpas _)))

/-- **Empty evacuations and the lines after them**, for every valid configuration and every log in
the format of the log manager: the empty evacuations disturb nothing exactly when the first one has
no effect. -/
theorem evacuations_neutres_iff {Log : List Str} (hconfig : ConfigValide (F := F) contenu)
    (hformat : FormatSortie Log) : EvacuationsNeutres F contenu Log ↔
      ∀ avant vide apres, Log = avant ++ vide :: apres →
        (∀ line ∈ avant, ¬EstLigne "Sortie" 0 line) → EstLigne "Sortie" 0 vide →
          SansEffet F avant vide apres := by
  constructor
  · rintro h avant vide apres rfl havant hvide
    exact (evacuations_neutres_cons hconfig hformat havant hvide).1 h
  · intro h
    cases hfind : Log.find? fun line => EstLigne "Sortie" 0 line with
    | none =>
      have hvides : ∀ line ∈ Log, ¬EstLigne "Sortie" 0 line := by
        simpa using List.find?_eq_none.1 hfind
      refine ⟨?_, ?_⟩
      · rw [sansVides_eq_self hvides]
      · intro c _
        rw [sansVides_eq_self hvides]
    | some vide =>
      obtain ⟨hvide, avant, apres, rfl, havant⟩ := List.find?_eq_some_iff_append.1 hfind
      have hvide : EstLigne "Sortie" 0 vide := of_decide_eq_true hvide
      have havant : ∀ line ∈ avant, ¬EstLigne "Sortie" 0 line := by simpa using havant
      exact (evacuations_neutres_cons hconfig hformat havant hvide).2
        (h avant vide apres rfl havant hvide)

end

/-- The log of the run that makes one product, where an empty shuttle is evacuated at the end. -/
def logUnProduitVide : List Str := logUnProduit ++ ["Sortie :0 :0 :0 :0 :50.00\n".toList]

/-- This evacuation disturbs nothing, because no product leaves after it. -/
theorem evacuations_neutres_unProduit : EvacuationsNeutres ℚ configUnProduit logUnProduitVide := by
  have hformat : FormatSortie logUnProduitVide := by
    unfold FormatSortie
    decide +kernel
  have hlisible : SortieLisible ℚ "Sortie :0 :0 :0 :0 :50.00\n".toList := by
    refine ⟨⟨0, by decide +kernel, by decide, fun h => absurd rfl h⟩, ?_, by decide +kernel,
      ⟨50, by decide +kernel⟩⟩
    have hzeros : ∀ champ ∈ champsTaches (champs "Sortie :0 :0 :0 :0 :50.00\n".toList),
        chiffre champ 0 = .ok 0 := by decide +kernel
    exact fun champ hchamp => ⟨0, hzeros champ hchamp, fun h => absurd rfl h⟩
  refine (evacuations_neutres_iff configValide_unProduit hformat).2 ?_
  intro avant vide apres heq havant hvide
  rcases List.eq_nil_or_concat apres with rfl | ⟨apres', line, rfl⟩
  · obtain ⟨-, hderniere⟩ := List.append_inj' heq rfl
    cases hderniere
    exact .inl ⟨hlisible, by simp⟩
  -- the lines before the last one are those of the run
  · rw [List.concat_eq_append, ← List.cons_append, ← List.append_assoc] at heq
    obtain ⟨hdebut, -⟩ := List.append_inj' heq rfl
    have hpas : ∀ line ∈ logUnProduit, ¬EstLigne "Sortie" 0 line := by decide +kernel
    exact absurd hvide (hpas vide (hdebut ▸ List.mem_append_right _ List.mem_cons_self))

/-- The same log, where an empty shuttle is evacuated at the beginning. -/
def logVideUnProduit : List Str := "Sortie :0 :0 :0 :0 :5.00\n".toList :: logUnProduit

/-- **An empty evacuation disturbs the product that leaves after it**: the script raises, and
without the empty evacuation the log passes. -/
theorem videPuisProduit_perturbe : ConfigValide (F := ℚ) configUnProduit ∧
    FormatSortie logVideUnProduit ∧ ¬EvacuationsNeutres ℚ configUnProduit logVideUnProduit := by
  refine ⟨configValide_unProduit, ?_, ?_⟩
  · unfold FormatSortie
    decide +kernel
  · intro h
    have hexception : (checker (F := ℚ) configUnProduit logVideUnProduit).map (fun x => x.2.test) =
        .error .indexError := by decide +kernel
    have hsans : sansVides logVideUnProduit = logUnProduit := by decide +kernel
    obtain ⟨c, j, hok, -⟩ := checker_of_admis LawfulFloating.zero_eq_zero configValide_unProduit
      (declarations_unProduit ▸ logConforme_unProduit.admis)
    obtain ⟨x, hx⟩ := h.fin.2 ⟨(c, j), hsans ▸ hok⟩
    rw [hx] at hexception
    cases hexception

end Checker
