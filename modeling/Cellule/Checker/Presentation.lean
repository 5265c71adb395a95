import Cellule.Checker.Durees

/-! # The layout of a configuration

Spaces around the words and the colons of a product line, blank lines and the order of the lines do
not change the tables that the script fills. A field is cut by a loop over its characters, which
starts a word at the first character after a space.
-/

namespace Checker

open Python

variable {F : Type}

/-! ## Fields -/

/-- A text made of spaces. -/
def blancs (n : ℕ) : Str := List.replicate n ' '

/-- What is written as one word of a field. -/
structure Mot (mot : Str) : Prop where
  ne_nil : mot ≠ []
  espace : ' ' ∉ mot
  deuxPoints : ':' ∉ mot

/-- A field in which words are written, with spaces around them and between any two of them. -/
inductive Champ : List Str → Str → Prop
  | vide (n : ℕ) : Champ [] (blancs n)
  | mot (n : ℕ) {mot : Str} {mots : List Str} {reste : Str} (hmot : Mot mot)
      (hsep : ∀ c ∈ reste.head?, c = ' ') (h : Champ mots reste) :
      Champ (mot :: mots) (blancs n ++ mot ++ reste)

theorem not_mem_blancs {c : Char} (hc : c ≠ ' ') (n : ℕ) : c ∉ blancs n :=
  fun h => hc (List.eq_of_mem_replicate h)

theorem remove_blancs (n : ℕ) : remove ' ' (blancs n) = [] := by
  unfold remove blancs
  rw [List.filter_replicate, if_neg (by simp)]

theorem isSpace_blancs (n : ℕ) : ∀ c ∈ blancs n, isSpace c = true := by
  intro c hc
  rw [List.eq_of_mem_replicate hc]
  rfl

/-- A field holds no colon. -/
theorem Champ.deuxPoints {mots : List Str} {champ : Str} (h : Champ mots champ) : ':' ∉ champ := by
  induction h with
  | vide n => exact not_mem_blancs (by decide) n
  | mot n hmot hsep h ih =>
    rw [List.mem_append, List.mem_append]
    rintro ((hc | hc) | hc)
    · exact not_mem_blancs (by decide) n hc
    · exact hmot.deuxPoints hc
    · exact ih hc

/-- Only spaces before the next word. -/
theorem foldl_grouper_blancs (mots : List Str) (n : ℕ) :
    (blancs n).foldl grouper (mots, true) = (mots, true) := by
  unfold blancs
  induction n with
  | zero => rfl
  | succ n ih => exact ih

/-- The characters of a word are added to the last word. -/
theorem foldl_grouper_suite {suite : Str} (h : ' ' ∉ suite) (mots : List Str) (mot : Str) :
    suite.foldl grouper (mots ++ [mot], false) = (mots ++ [mot ++ suite], false) := by
  induction suite generalizing mot with
  | nil => rw [List.append_nil, List.foldl_nil]
  | cons c suite ih =>
    rw [List.mem_cons, not_or] at h
    have hpas : grouper (mots ++ [mot], false) c = (mots ++ [mot ++ [c]], false) := by
      unfold grouper
      dsimp only
      rw [if_neg (Ne.symm h.1), if_neg Bool.false_ne_true, List.dropLast_concat,
        List.getLastD_concat]
    rw [List.foldl_cons, hpas, ih h.2, List.append_assoc, List.singleton_append]

/-- A word after a space is a new word. -/
theorem foldl_grouper_mot {mot : Str} (h : Mot mot) (mots : List Str) :
    mot.foldl grouper (mots, true) = (mots ++ [mot], false) := by
  obtain ⟨c, suite, rfl⟩ := List.exists_cons_of_ne_nil h.ne_nil
  have hespace := h.espace
  rw [List.mem_cons, not_or] at hespace
  have hpas : grouper (mots, true) c = (mots ++ [[c]], false) := by
    unfold grouper
    dsimp only
    rw [if_neg (Ne.symm hespace.1), if_pos rfl]
  rw [List.foldl_cons, hpas, foldl_grouper_suite hespace.2, List.singleton_append]

/-- A text that starts with a space ends the word before it. -/
theorem foldl_grouper_separe {reste : Str} (hsep : ∀ c ∈ reste.head?, c = ' ') (mots : List Str) :
    (reste.foldl grouper (mots, false)).1 = (reste.foldl grouper (mots, true)).1 := by
  cases reste with
  | nil => rfl
  | cons c reste =>
    rw [hsep c rfl]
    rfl

/-- The words that the script cuts are those that were written. -/
theorem separer_champ {mots : List Str} {champ : Str} (h : Champ mots champ) :
    separer champ = mots := by
  have hfold : ∀ acc, (champ.foldl grouper (acc, true)).1 = acc ++ mots := by
    induction h with
    | vide n =>
      intro acc
      rw [foldl_grouper_blancs, List.append_nil]
    | mot n hmot hsep h ih =>
      intro acc
      rw [List.foldl_append, List.foldl_append, foldl_grouper_blancs, foldl_grouper_mot hmot,
        foldl_grouper_separe hsep, ih, List.append_assoc, List.singleton_append]
  exact hfold []

/-- A field of one word, without its spaces. -/
theorem remove_champ {mot champ : Str} (h : Champ [mot] champ) : remove ' ' champ = mot := by
  cases h with
  | mot n hmot hsep h =>
    cases h with
    | vide m =>
      rw [remove_append, remove_append, remove_blancs, remove_blancs, remove_of_not_mem hmot.espace,
        List.nil_append, List.append_nil]

/-- `int` on a field of one word, at the end of the line or not. -/
theorem int_champ {mot champ fin : Str} (h : Champ [mot] champ) (hfin : fin = [] ∨ fin = ['\n']) :
    int (champ ++ fin) = int mot := by
  cases h with
  | mot n hmot hsep h =>
    cases h with
    | vide m =>
      rw [List.append_assoc]
      apply int_append (isSpace_blancs n)
      intro c hc
      rcases List.mem_append.1 hc with hc | hc
      · exact isSpace_blancs m c hc
      · rcases hfin with rfl | rfl
        · cases hc
        · rw [List.mem_singleton.1 hc]
          rfl

/-! ## Lines -/

section

variable [Floating F]

/-- A line on which a declaration is written. Every number may be written in any way that `int` or
`float` reads. -/
def Rendue (D : Declaration F) (ligne : Str) : Prop :=
  ∃ nom destinations durees nombre fin : Str,
    ligne = nom ++ [destinations, durees, nombre ++ fin].flatMap (':' :: ·) ∧
    (∃ mot, Champ [mot] nom ∧ int mot = .ok D.produit) ∧
    (∃ mots, Champ mots destinations ∧ mots.Forall₂ (fun mot d => int mot = .ok d) D.destinations) ∧
    (∃ mots, Champ mots durees ∧ mots.Forall₂ (fun mot x => float mot = .ok x) D.durees) ∧
    (∃ mot, Champ [mot] nombre ∧ int mot = .ok D.nombre) ∧ (fin = [] ∨ fin = ['\n'])

/-- Lines on which declarations are written in order, with blank lines in between. -/
inductive Rendues : List (Declaration F) → List Str → Prop
  | fin : Rendues [] []
  | blanche (n : ℕ) {ds : List (Declaration F)} {contenu : List Str} (h : Rendues ds contenu) :
      Rendues ds ((blancs n ++ ['\n']) :: contenu)
  | ligne {D : Declaration F} {ligne : Str} {ds : List (Declaration F)} {contenu : List Str}
      (hligne : Rendue D ligne) (h : Rendues ds contenu) : Rendues (D :: ds) (ligne :: contenu)

/-- The declaration that the script reads on a line is the one that was written. -/
theorem declaration_rendue {D : Declaration F} {ligne : Str} (h : Rendue D ligne) :
    declaration ligne = .ok (some D) := by
  obtain ⟨nom, destinations, durees, nombre, fin, rfl, ⟨mot, hnom, hproduit⟩, ⟨mots, hdest, hmots⟩,
    ⟨mots', hdurees, hmots'⟩, ⟨mot', hnombre, hcompte⟩, hfin⟩ := h
  have hfin' : ':' ∉ nombre ++ fin := by
    rw [List.mem_append, not_or]
    refine ⟨hnombre.deuxPoints, ?_⟩
    rcases hfin with rfl | rfl <;> decide
  have hsplit : split ':' (nom ++ [destinations, durees, nombre ++ fin].flatMap (':' :: ·)) =
      [nom, destinations, durees, nombre ++ fin] := by
    apply split_flatMap hnom.deuxPoints
    simp only [List.forall_mem_cons]
    exact ⟨hdest.deuxPoints, hdurees.deuxPoints, hfin', fun s hs => absurd hs List.not_mem_nil⟩
  -- the name is a number, which an empty line is not
  have hne : mot ≠ ['\n'] := by
    rintro rfl
    cases hproduit
  unfold declaration
  dsimp only
  rw [hsplit, item_cons_zero, ok_bind, remove_champ hnom, if_pos hne, hproduit, ok_bind,
    item_cons_one, ok_bind, separer_champ hdest, mapM_eq_ok.2 hmots, ok_bind, item_cons_two, ok_bind,
    separer_champ hdurees, mapM_eq_ok.2 hmots', ok_bind, item_cons_three, ok_bind,
    int_champ hnombre hfin, hcompte, ok_bind]
  rfl

/-- A blank line declares nothing. -/
theorem declaration_blanche (n : ℕ) : declaration (F := F) (blancs n ++ ['\n']) = .ok none := by
  have hmem : ':' ∉ blancs n ++ ['\n'] := by
    rw [List.mem_append, not_or]
    exact ⟨not_mem_blancs (by decide) n, by decide⟩
  have hsplit : split ':' (blancs n ++ ['\n']) = [blancs n ++ ['\n']] :=
    List.splitOn_eq_singleton hmem
  have hnom : remove ' ' (blancs n ++ ['\n']) = ['\n'] := by
    rw [remove_append, remove_blancs]
    rfl
  unfold declaration
  dsimp only
  rw [hsplit, item_cons_zero, ok_bind, hnom, if_neg fun h => h rfl]
  rfl

/-- What the script reads on the lines is what was written. -/
theorem Rendues.declarations {ds : List (Declaration F)} {contenu : List Str} (h : Rendues ds contenu) :
    Checker.declarations contenu = ds ∧ ∀ ligne ∈ contenu, declaration (F := F) ligne = .ok none ∨
      ∃ D ∈ ds, declaration ligne = .ok (some D) := by
  induction h with
  | fin => exact ⟨rfl, fun ligne hligne => absurd hligne List.not_mem_nil⟩
  | blanche n h ih =>
    rw [declarations_cons_none (declaration_blanche n), List.forall_mem_cons]
    exact ⟨ih.1, .inl (declaration_blanche n), ih.2⟩
  | @ligne D ligne ds contenu hligne h ih =>
    have hd := declaration_rendue hligne
    rw [declarations_cons_some hd, ih.1, List.forall_mem_cons]
    refine ⟨rfl, .inr ⟨D, List.mem_cons_self, hd⟩, ?_⟩
    intro l hl
    apply (ih.2 l hl).imp_right
    rintro ⟨D', hD', hd'⟩
    exact ⟨D', List.mem_cons_of_mem _ hD', hd'⟩

end

/-! ## Tables -/

/-- The duration of the last occurrence of a task among the destinations. -/
def Declaration.derniereDuree (D : Declaration F) (d : ℤ) : Option F :=
  ((D.destinations.zip D.durees).filter (·.1 = d)).getLast?.map Prod.snd

/-- The last duration of a declaration, in the list that fills the table. -/
theorem derniere_temps_self (D : Declaration F) (d : ℤ) :
    derniere D.temps D.produit d = D.derniereDuree d := by
  unfold derniere Declaration.temps Declaration.derniereDuree
  rw [List.filter_map, List.getLast?_map, Option.map_map]
  simp only [Function.comp_def, true_and]

/-- The durations of another product are left aside. -/
theorem filter_temps_autre {D : Declaration F} {p : ℤ} (hD : D.produit ≠ p) (d : ℤ) :
    D.temps.filter (fun x => x.1 = p ∧ x.2.1 = d) = [] := by
  rw [List.filter_eq_nil_iff]
  intro x hx
  obtain ⟨y, -, rfl⟩ := List.mem_map.1 hx
  simp [hD]

/-- The last duration of a task of a product is the last one of the declaration of the product. -/
theorem derniere_declarations {ds : List (Declaration F)}
    (hdistincts : (ds.map Declaration.produit).Nodup) (p d : ℤ) :
    derniere (ds.flatMap Declaration.temps) p d =
      (declarationDe ds p).bind fun D => D.derniereDuree d := by
  induction ds with
  | nil => rfl
  | cons D ds ih =>
    rw [List.map_cons, List.nodup_cons] at hdistincts
    have ih := ih hdistincts.2
    unfold declarationDe derniere at ih ⊢
    rw [List.flatMap_cons, List.filter_append]
    by_cases hD : D.produit = p
    · subst hD
      -- the product is not declared again
      have hsuite : (ds.flatMap Declaration.temps).filter (fun x => x.1 = D.produit ∧ x.2.1 = d) = [] := by
        rw [List.filter_flatMap, List.flatMap_eq_nil_iff]
        intro D' hD'
        apply filter_temps_autre
        intro h
        exact hdistincts.1 (List.mem_map.2 ⟨D', hD', h⟩)
      rw [hsuite, List.append_nil, List.find?_cons_of_pos (by simp), Option.bind_some]
      exact derniere_temps_self D d
    · rw [filter_temps_autre hD, List.nil_append, List.find?_cons_of_neg (by simpa using hD)]
      exact ih

section

variable [Floating F]

/-- The tables of a configuration hold what is declared, and nothing else. -/
structure Remplies (ds : List (Declaration F)) (c : Config F) (temps : List (List F)) : Prop where
  declares : ∀ D ∈ ds,
    c.production[(D.produit - 1).toNat]? = some (D.produit :: completer D.destinations) ∧
    c.nbProduit[(D.produit - 1).toNat]? = some D.nombre ∧
    ∀ d, 1 ≤ d → d ≤ 8 →
      caseDe temps D.produit d = some ((D.derniereDuree d).getD Floating.zero)
  autres : ∀ p, 1 ≤ p → p ≤ 6 → (∀ D ∈ ds, D.produit ≠ p) →
    c.production[(p - 1).toNat]? = some (List.replicate (maxTaches + 1) 0) ∧
    c.nbProduit[(p - 1).toNat]? = some 0 ∧
    ∀ d, 1 ≤ d → d ≤ 8 → caseDe temps p d = some Floating.zero

/-- However the declarations of distinct products are laid out and ordered, they are read without an
exception or an error, and the tables hold them. -/
theorem mise_en_page {ds ordre : List (Declaration F)} {contenu : List Str}
    (hds : ∀ D ∈ ds, D.Valide) (hdistincts : (ds.map Declaration.produit).Nodup)
    (hordre : ordre.Perm ds) (hcontenu : Rendues ordre contenu) :
    ∃ (c : Config F) (temps : List (List F)), Config.initial.lireLignes contenu = .ok c ∧
      c.erreurConfig = 0 ∧ remplirTemps c.verifConfig = .ok temps ∧ Remplies ds c temps := by
  have hdistincts' : (ordre.map Declaration.produit).Nodup :=
    (hordre.map Declaration.produit).nodup_iff.2 hdistincts
  have hvalides : ∀ D ∈ ordre, D.Valide := fun D hD => hds D (hordre.mem_iff.1 hD)
  obtain ⟨hlues, hlignes⟩ := hcontenu.declarations
  have hlignes' : ∀ ligne ∈ contenu, declaration (F := F) ligne = .ok none ∨
      ∃ D : Declaration F, declaration ligne = .ok (some D) ∧ D.Valide := by
    intro ligne hligne
    apply (hlignes ligne hligne).imp_right
    rintro ⟨D, hD, hd⟩
    exact ⟨D, hd, hvalides D hD⟩
  obtain ⟨c, hc, hz, hverif⟩ := Config.lireLignes_ok (c := .initial) rfl hlignes'
  have htables := Config.lireLignes_tables hc hz Config.tables_initial (by simpa [hlues] using hdistincts')
  rw [hlues, List.nil_append] at htables
  have hverif : c.verifConfig = ordre.flatMap Declaration.temps := by
    rw [hverif, hlues]
    rfl
  obtain ⟨temps, htemps, -, hcases⟩ := remplirTemps_ok (dansTable_of_temps hvalides)
  refine ⟨c, temps, hc, hz, hverif ▸ htemps, ?_, ?_⟩
  · intro D hD
    have h1 := (hds D hD).produit_pos
    have h6 := (hds D hD).produit_le
    have hdecl := declarationDe_of_mem hdistincts' (hordre.mem_iff.2 hD)
    refine ⟨?_, ?_, ?_⟩
    · rw [htables.rangee _ h1 h6, rangeeDe, hdecl]
      rfl
    · rw [htables.nombre _ h1 h6, nombreDe, hdecl]
      rfl
    · intro d hd1 hd8
      rw [hcases _ d ⟨⟨h1, h6⟩, hd1, hd8⟩, derniere_declarations hdistincts', hdecl]
      rfl
  · intro p h1 h6 hp
    have hdecl : declarationDe ordre p = none := by
      apply Config.declarationDe_eq_none
      intro hmem
      obtain ⟨D, hD, hDp⟩ := List.mem_map.1 hmem
      exact hp D (hordre.mem_iff.1 hD) hDp
    refine ⟨?_, ?_, ?_⟩
    · rw [htables.rangee p h1 h6, rangeeDe, hdecl]
      rfl
    · rw [htables.nombre p h1 h6, nombreDe, hdecl]
      rfl
    · intro d hd1 hd8
      rw [hcases p d ⟨⟨h1, h6⟩, hd1, hd8⟩, derniere_declarations hdistincts', hdecl]
      rfl

end

/-- Product 4 with two tasks, and product 2 with none. -/
def quatreEtDeux : List (Declaration ℚ) :=
  [{ produit := 4, destinations := [1, 8], durees := [15, 20], nombre := 4 },
    { produit := 2, destinations := [], durees := [], nombre := 0 }]

/-- Product 2 comes first, with blank lines and spaces. -/
def configEspacee : List Str :=
  ["   \n".toList, "2:  : :0\n".toList, "\n".toList, "  4 : 1   8:15 20 :4 \n".toList]

theorem mise_en_page_configEspacee :
    ∃ (c : Config ℚ) (temps : List (List ℚ)), Config.initial.lireLignes configEspacee = .ok c ∧
      c.erreurConfig = 0 ∧ remplirTemps c.verifConfig = .ok temps ∧ Remplies quatreEtDeux c temps := by
  have hmot : ∀ mot ∈ [['2'], ['0'], ['4'], ['1'], ['8'], ['1', '5'], ['2', '0']], Mot mot := by
    have htous : ∀ mot ∈ [['2'], ['0'], ['4'], ['1'], ['8'], ['1', '5'], ['2', '0']],
        mot ≠ [] ∧ ' ' ∉ mot ∧ ':' ∉ mot := by decide
    exact fun mot h => ⟨(htous mot h).1, (htous mot h).2.1, (htous mot h).2.2⟩
  have hfin : ∀ n m {mot : Str}, Mot mot → Champ [mot] (blancs n ++ mot ++ blancs m) :=
    fun n m _ h => .mot n h (fun _ hc => List.eq_of_mem_replicate (List.mem_of_head? hc)) (.vide m)
  have hblanc : ∀ (n m : ℕ) (mot : Str), ∀ c ∈ (blancs (n + 1) ++ mot ++ blancs m).head?, c = ' ' :=
    fun _ _ _ _ hc => (Option.some.inj hc).symm
  have hquatre : Rendue (F := ℚ) { produit := 4, destinations := [1, 8], durees := [15, 20], nombre := 4 }
      "  4 : 1   8:15 20 :4 \n".toList :=
    ⟨_, _, _, _, ['\n'], rfl, ⟨_, hfin 2 1 (hmot ['4'] (by decide)), rfl⟩,
      ⟨_, .mot 1 (hmot ['1'] (by decide)) (hblanc 2 0 _) (hfin 3 0 (hmot ['8'] (by decide))),
        .cons rfl (.cons rfl .nil)⟩,
      ⟨_, .mot 0 (hmot ['1', '5'] (by decide)) (hblanc 0 1 _) (hfin 1 1 (hmot ['2', '0'] (by decide))),
        .cons (by decide +kernel) (.cons (by decide +kernel) .nil)⟩,
      ⟨_, hfin 0 1 (hmot ['4'] (by decide)), rfl⟩, .inr rfl⟩
  have hdeux : Rendue (F := ℚ) { produit := 2, destinations := [], durees := [], nombre := 0 }
      "2:  : :0\n".toList :=
    ⟨_, _, _, _, ['\n'], rfl, ⟨_, hfin 0 0 (hmot ['2'] (by decide)), rfl⟩, ⟨[], .vide 2, .nil⟩,
      ⟨[], .vide 1, .nil⟩, ⟨_, hfin 0 0 (hmot ['0'] (by decide)), rfl⟩, .inr rfl⟩
  have hvalides : ∀ D ∈ quatreEtDeux, D.Valide := by
    simp only [quatreEtDeux, List.forall_mem_cons]
    refine ⟨⟨?_, ?_, ?_, ?_, ?_⟩, ⟨?_, ?_, ?_, ?_, ?_⟩, fun _ h => absurd h List.not_mem_nil⟩ <;>
      decide
  exact mise_en_page hvalides (by decide) (List.Perm.swap _ _ [])
    (.blanche 3 (.ligne hdeux (.blanche 0 (.ligne hquatre .fin))))

end Checker
