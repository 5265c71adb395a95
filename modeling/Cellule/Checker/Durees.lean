import Cellule.Checker.Declarations

/-! # Valid configurations and tables of durations

Every line of a valid configuration is read without an error. The tables of durations, of the
configuration and of the log, hold the last duration written for a product and a task.
-/

namespace Checker

open Python

variable {F : Type}

/-! ## Tables -/

/-- A product and a task that a table has. -/
def DansTable (p d : ℤ) : Prop := (1 ≤ p ∧ p ≤ 6) ∧ 1 ≤ d ∧ d ≤ 8

/-- The shape of a table: a row for each product, with a place for each task. -/
def Rectangle (temps : List (List F)) : Prop :=
  temps.length = 6 ∧ ∀ (i : ℕ) (rangee : List F), temps[i]? = some rangee → rangee.length = 8

/-- What a table holds for a product and a task. -/
def caseDe (temps : List (List F)) (p d : ℤ) : Option F :=
  temps[(p - 1).toNat]?.bind fun rangee => rangee[(d - 1).toNat]?

/-- One write, and what is read after it. -/
theorem ecrireTemps_ok {temps : List (List F)} (h : Rectangle temps) {x : ℤ × ℤ × F}
    (hx : DansTable x.1 x.2.1) :
    ∃ temps', ecrireTemps temps x = .ok temps' ∧ Rectangle temps' ∧
      ∀ p d, DansTable p d →
        caseDe temps' p d = if p = x.1 ∧ d = x.2.1 then some x.2.2 else caseDe temps p d := by
  obtain ⟨⟨hp₁, hp₂⟩, hd₁, hd₂⟩ := hx
  obtain ⟨hlen, hrangees⟩ := h
  have hlt : (x.1 - 1).toNat < temps.length := by omega
  have hget : temps[(x.1 - 1).toNat]? = some temps[(x.1 - 1).toNat] := List.getElem?_eq_getElem hlt
  generalize temps[(x.1 - 1).toNat] = rangee at hget
  have hrangee := hrangees _ _ hget
  have hltd : (x.2.1 - 1).toNat < rangee.length := by omega
  refine ⟨temps.set (x.1 - 1).toNat (rangee.set (x.2.1 - 1).toNat x.2.2), ?_, ⟨?_, ?_⟩, ?_⟩
  · unfold ecrireTemps
    rw [item_of_getElem? (by omega) hget, ok_bind, setItem_of_lt (by omega) hltd, ok_bind,
      setItem_of_lt (by omega) hlt]
  · rw [List.length_set]
    exact hlen
  · intro i r hi
    rw [List.getElem?_set] at hi
    split_ifs at hi with heq
    · rw [← Option.some.inj hi, List.length_set]
      exact hrangee
    · exact hrangees i r hi
  · intro p d hpd
    obtain ⟨⟨hp₁', hp₂'⟩, hd₁', hd₂'⟩ := hpd
    unfold caseDe
    rw [List.getElem?_set]
    -- the cell that is written, and the others
    by_cases hp : p = x.1
    · rw [hp, if_pos rfl, if_pos hlt, hget, Option.bind_some, Option.bind_some, List.getElem?_set]
      by_cases hd : d = x.2.1
      · rw [hd, if_pos rfl, if_pos hltd, if_pos ⟨rfl, rfl⟩]
      · rw [if_neg (by omega), if_neg fun h => hd h.2]
    · rw [if_neg (by omega), if_neg fun h => hp h.1]

/-- The last duration of a list for a product and a task. -/
def derniere (verif : List (ℤ × ℤ × F)) (p d : ℤ) : Option F :=
  (verif.filter fun x => x.1 = p ∧ x.2.1 = d).getLast?.map fun x => x.2.2

theorem derniere_snoc (verif : List (ℤ × ℤ × F)) (x : ℤ × ℤ × F) (p d : ℤ) :
    derniere (verif ++ [x]) p d = if p = x.1 ∧ d = x.2.1 then some x.2.2 else derniere verif p d := by
  unfold derniere
  rw [List.filter_append]
  by_cases h : p = x.1 ∧ d = x.2.1
  · obtain ⟨rfl, rfl⟩ := h
    rw [if_pos ⟨rfl, rfl⟩, List.filter_cons_of_pos (by simp), List.filter_nil, List.getLast?_concat]
    rfl
  · have hx : ¬(x.1 = p ∧ x.2.1 = d) := fun hx => h ⟨hx.1.symm, hx.2.symm⟩
    rw [if_neg h, List.filter_cons_of_neg (by simpa using hx), List.filter_nil, List.append_nil]

/-- The last duration is one of the list. -/
theorem mem_of_derniere {verif : List (ℤ × ℤ × F)} {p d : ℤ} {T : F}
    (h : derniere verif p d = some T) : (p, d, T) ∈ verif := by
  unfold derniere at h
  obtain ⟨x, hx, rfl⟩ := Option.map_eq_some_iff.1 h
  obtain ⟨hmem, hpd⟩ := List.mem_filter.1 (List.mem_of_getLast? hx)
  obtain ⟨rfl, rfl⟩ := of_decide_eq_true hpd
  exact hmem

/-- There is a last duration when there is one. -/
theorem exists_derniere {verif : List (ℤ × ℤ × F)} {p d : ℤ} {T : F} (h : (p, d, T) ∈ verif) :
    ∃ T', derniere verif p d = some T' := by
  have hmem : (p, d, T) ∈ verif.filter fun x => x.1 = p ∧ x.2.1 = d :=
    List.mem_filter.2 ⟨h, by simp⟩
  have hne := List.ne_nil_of_mem hmem
  unfold derniere
  rw [List.getLast?_eq_getLast_of_ne_nil hne]
  exact ⟨_, rfl⟩

/-- A table is filled without an error from entries that it has, and holds the last ones. -/
theorem remplirTemps_ok [Floating F] {verif : List (ℤ × ℤ × F)}
    (h : ∀ x ∈ verif, DansTable x.1 x.2.1) :
    ∃ temps, remplirTemps verif = .ok temps ∧ Rectangle temps ∧ ∀ p d, DansTable p d →
      caseDe temps p d = some ((derniere verif p d).getD Floating.zero) := by
  induction verif using List.reverseRecOn with
  | nil =>
    refine ⟨_, rfl, ⟨rfl, ?_⟩, ?_⟩
    · intro i rangee hi
      rw [List.getElem?_replicate] at hi
      split_ifs at hi
      rw [← Option.some.inj hi]
      exact List.length_replicate
    · intro p d hpd
      obtain ⟨⟨hp₁, hp₂⟩, hd₁, hd₂⟩ := hpd
      unfold caseDe
      rw [List.getElem?_replicate, if_pos (by omega), Option.bind_some, List.getElem?_replicate,
        if_pos (by omega)]
      rfl
  | append_singleton verif x ih =>
    obtain ⟨temps, htemps, hforme, hcases⟩ := ih fun y hy => h y (List.mem_append_left _ hy)
    obtain ⟨temps', hok, hforme', hcases'⟩ :=
      ecrireTemps_ok hforme (h x (List.mem_append_right _ (List.mem_singleton_self x)))
    refine ⟨temps', ?_, hforme', ?_⟩
    · unfold remplirTemps at htemps ⊢
      rw [List.foldlM_append, htemps, ok_bind, List.foldlM_cons, hok]
      rfl
    · intro p d hpd
      rw [hcases' p d hpd, derniere_snoc, hcases p d hpd]
      split_ifs <;> rfl

/-! ## Reading a valid configuration -/

/-- The durations of a declaration, with the product and the tasks. -/
def Declaration.temps (D : Declaration F) : List (ℤ × ℤ × F) :=
  (D.destinations.zip D.durees).map fun x => (D.produit, x.1, x.2)

theorem Config.verifConfig_foldl_declarer (ds : List (Declaration F)) (c : Config F) :
    (ds.foldl declarer c).verifConfig = c.verifConfig ++ ds.flatMap Declaration.temps := by
  induction ds generalizing c with
  | nil => simp
  | cons d ds ih =>
    rw [List.foldl_cons, ih, List.flatMap_cons, ← List.append_assoc]
    rfl

/-- The entries of the durations of the configuration are in the table. -/
theorem dansTable_of_temps {ds : List (Declaration F)} (hds : ∀ D ∈ ds, D.Valide) :
    ∀ x ∈ ds.flatMap Declaration.temps, DansTable x.1 x.2.1 := by
  intro x hx
  obtain ⟨D, hD, hmem⟩ := List.mem_flatMap.1 hx
  obtain ⟨y, hy, rfl⟩ := List.mem_map.1 hmem
  exact ⟨⟨(hds D hD).produit_pos, (hds D hD).produit_le⟩,
    (hds D hD).destination y.1 (List.of_mem_zip hy).1⟩

/-- The declarations of distinct products are found back. -/
theorem declarationDe_of_mem {ds : List (Declaration F)}
    (hdistincts : (ds.map Declaration.produit).Nodup) {D : Declaration F} (hD : D ∈ ds) :
    declarationDe ds D.produit = some D := by
  induction ds with
  | nil => cases hD
  | cons D' ds ih =>
    rw [List.map_cons, List.nodup_cons] at hdistincts
    unfold declarationDe
    rcases List.mem_cons.1 hD with rfl | hmem
    · rw [List.find?_cons_of_pos (by simp)]
    · have hne : D'.produit ≠ D.produit := fun h =>
        hdistincts.1 (h ▸ List.mem_map.2 ⟨D, hmem, rfl⟩)
      rw [List.find?_cons_of_neg (by simpa using hne)]
      exact ih hdistincts.2 hmem

/-- A declaration of a valid configuration. -/
structure Declaration.Correcte (D : Declaration F) : Prop extends D.Valide where
  nombre_nonneg : 0 ≤ D.nombre
  taches : D.destinations ≠ []
  postes : D.destinations.Nodup

theorem Declaration.correcte_iff {D : Declaration F} : D.Correcte ↔
    (1 ≤ D.produit ∧ D.produit ≤ 6) ∧ (∀ x ∈ D.destinations, 1 ≤ x ∧ x ≤ 8) ∧
      D.destinations.length ≤ maxTaches ∧ D.durees.length = D.destinations.length ∧ 0 ≤ D.nombre ∧
      D.destinations ≠ [] ∧ D.destinations.Nodup := by
  constructor
  · rintro ⟨⟨h₁, h₂, h₃, h₄, h₅⟩, h₆, h₇, h₈⟩
    exact ⟨⟨h₁, h₂⟩, h₃, h₄, h₅, h₆, h₇, h₈⟩
  · rintro ⟨⟨h₁, h₂⟩, h₃, h₄, h₅, h₆, h₇, h₈⟩
    exact ⟨⟨h₁, h₂, h₃, h₄, h₅⟩, h₆, h₇, h₈⟩

instance (D : Declaration F) : Decidable D.Correcte := decidable_of_iff' _ Declaration.correcte_iff

/-- A configuration of distinct products, where no product visits a post twice. -/
structure ConfigDistincte [Floating F] (contenu : List Str) : Prop where
  lignes : ∀ ligne ∈ contenu, declaration (F := F) ligne = .ok none ∨
    ∃ D : Declaration F, declaration ligne = .ok (some D) ∧ D.Valide ∧ D.destinations.Nodup
  distincts : ((declarations (F := F) contenu).map Declaration.produit).Nodup

/-- A valid configuration: every line is blank or a correct declaration, of distinct products. -/
structure ConfigValide [Floating F] (contenu : List Str) : Prop where
  lignes : ∀ ligne ∈ contenu, declaration (F := F) ligne = .ok none ∨
    ∃ D : Declaration F, declaration ligne = .ok (some D) ∧ D.Correcte
  distincts : ((declarations (F := F) contenu).map Declaration.produit).Nodup

/-- What the lines declare holds of the declarations. -/
theorem forall_declarations [Floating F] {contenu : List Str} {P : Declaration F → Prop}
    (h : ∀ ligne ∈ contenu, declaration (F := F) ligne = .ok none ∨
      ∃ D : Declaration F, declaration ligne = .ok (some D) ∧ P D) :
    ∀ D ∈ declarations (F := F) contenu, P D := by
  intro D hD
  obtain ⟨ligne, hligne, hdecl⟩ := declaration_of_mem hD
  rcases h ligne hligne with hd | ⟨D', hd, hD'⟩
  · rw [hd] at hdecl
    cases hdecl
  · rw [hd] at hdecl
    cases hdecl
    exact hD'

/-- No product of it visits a post twice. -/
theorem ConfigValide.distincte [Floating F] {contenu : List Str}
    (h : ConfigValide (F := F) contenu) : ConfigDistincte (F := F) contenu where
  lignes := by
    intro ligne hligne
    apply (h.lignes ligne hligne).imp_right
    rintro ⟨D, hd, hD⟩
    exact ⟨D, hd, hD.toValide, hD.postes⟩
  distincts := h.distincts

/-- One correct declaration is a valid configuration. -/
theorem configValide_une [Floating F] {ligne : Str} {D : Declaration F}
    (hd : declaration ligne = .ok (some D)) (hD : D.Correcte) : ConfigValide (F := F) [ligne] where
  lignes := List.forall_mem_singleton.2 (.inr ⟨D, hd, hD⟩)
  distincts := by
    rw [declarations_cons_some hd]
    exact List.nodup_singleton _

/-- A blank line may stand before the others. -/
theorem ConfigValide.blanche [Floating F] {ligne : Str} {contenu : List Str}
    (h : ConfigValide (F := F) contenu) (hd : declaration (F := F) ligne = .ok none) :
    ConfigValide (F := F) (ligne :: contenu) where
  lignes := List.forall_mem_cons.2 ⟨.inl hd, h.lignes⟩
  distincts := by
    rw [declarations_cons_none hd]
    exact h.distincts

/-- Its declarations are correct. -/
theorem ConfigValide.correctes [Floating F] {contenu : List Str} (h : ConfigValide (F := F) contenu) :
    ∀ D ∈ declarations (F := F) contenu, D.Correcte := forall_declarations h.lignes

/-- Its lines declare what is valid. -/
theorem ConfigDistincte.lignes_valides [Floating F] {contenu : List Str}
    (h : ConfigDistincte (F := F) contenu) :
    ∀ ligne ∈ contenu, declaration (F := F) ligne = .ok none ∨
      ∃ D : Declaration F, declaration ligne = .ok (some D) ∧ D.Valide := by
  intro ligne hligne
  apply (h.lignes ligne hligne).imp_right
  rintro ⟨D, hd, hD, -⟩
  exact ⟨D, hd, hD⟩

/-- Its declarations are valid. -/
theorem ConfigDistincte.valides [Floating F] {contenu : List Str}
    (h : ConfigDistincte (F := F) contenu) : ∀ D ∈ declarations (F := F) contenu, D.Valide :=
  forall_declarations h.lignes_valides

/-- Their posts are distinct. -/
theorem ConfigDistincte.postes [Floating F] {contenu : List Str}
    (h : ConfigDistincte (F := F) contenu) :
    ∀ D ∈ declarations (F := F) contenu, D.destinations.Nodup :=
  fun D hD => (forall_declarations h.lignes D hD).2

namespace Config

theorem foldl_verifierDestination_ok {c : Config F} {tacheVar : List ℤ}
    (h : ∀ x ∈ tacheVar, 1 ≤ x ∧ x ≤ 8) : tacheVar.foldl verifierDestination c = c := by
  induction tacheVar with
  | nil => rfl
  | cons d ds ih =>
    obtain ⟨hd, hds⟩ := List.forall_mem_cons.1 h
    have hpas : c.verifierDestination d = c := by
      unfold verifierDestination
      rw [if_neg (by omega)]
    rw [List.foldl_cons, hpas, ih hds]

theorem verifierNombre_ok {c : Config F} {tacheVar : List ℤ} (h : tacheVar.length ≤ maxTaches) :
    c.verifierNombre tacheVar = c := by
  unfold verifierNombre
  rw [if_neg (by omega)]

theorem remplirProduction_ok {c : Config F} (hc : c.erreurConfig = 0) (p : ℤ) (tacheVar : List ℤ) :
    c.remplirProduction p tacheVar =
      { c with production := c.production.modify (p - 1).toNat (ranger (p :: tacheVar)) } := by
  unfold remplirProduction
  rw [if_pos hc]

theorem verifierDurees_ok {c : Config F} {dureVar : List F} (h : dureVar.length ≤ maxTaches) :
    c.verifierDurees dureVar = c := by
  unfold verifierDurees
  rw [if_neg (by omega)]

theorem verifierTailles_ok {c : Config F} {tacheVar : List ℤ} {dureVar : List F}
    (h : tacheVar.length = dureVar.length) : c.verifierTailles tacheVar dureVar = c := by
  unfold verifierTailles
  rw [if_neg fun hne => hne h]

theorem remplirVerif_ok {c : Config F} (hc : c.erreurConfig = 0) (p : ℤ) (tacheVar : List ℤ)
    (dureVar : List F) : c.remplirVerif p tacheVar dureVar =
      { c with verifConfig :=
          c.verifConfig ++ (tacheVar.zip dureVar).map fun x => (p, x.1, x.2) } := by
  unfold remplirVerif
  rw [if_pos hc]

variable [Floating F]

/-- A valid declaration is read without an error. -/
theorem lireLigne_ok {c : Config F} (hc : c.erreurConfig = 0) {ligne : Str} {D : Declaration F}
    (hd : declaration ligne = .ok (some D)) (hD : D.Valide) :
    c.lireLigne ligne = .ok (c.declarer D, false) := by
  unfold declaration at hd
  obtain ⟨champ, hchamp, hd⟩ := bind_eq_ok.1 hd
  unfold lireLigne
  dsimp only at hd ⊢
  rw [hchamp, ok_bind]
  split_ifs at hd ⊢ with hnom
  · obtain ⟨produit, hproduit, hd⟩ := bind_eq_ok.1 hd
    obtain ⟨champ₁, h₁, hd⟩ := bind_eq_ok.1 hd
    obtain ⟨destinations, hdest, hd⟩ := bind_eq_ok.1 hd
    obtain ⟨champ₂, h₂, hd⟩ := bind_eq_ok.1 hd
    obtain ⟨durees, hdurees, hd⟩ := bind_eq_ok.1 hd
    obtain ⟨champ₃, h₃, hd⟩ := bind_eq_ok.1 hd
    obtain ⟨nombre, hnombre, hd⟩ := bind_eq_ok.1 hd
    obtain rfl := Option.some.inj (Except.ok.inj hd)
    obtain ⟨hpos, hle, hvalides, hmax, hlen⟩ := hD
    dsimp only at hpos hle hvalides hmax hlen
    unfold lireProduit
    rw [hproduit, ok_bind, if_neg (by omega), h₁, ok_bind, hdest, ok_bind]
    dsimp only
    rw [foldl_verifierDestination_ok hvalides, h₂, ok_bind, hdurees, ok_bind, h₃, ok_bind, hnombre,
      ok_bind]
    rw [verifierNombre_ok hmax, remplirProduction_ok hc, verifierDurees_ok (by omega),
      verifierTailles_ok hlen.symm, remplirVerif_ok]
    · rfl
    · exact hc
  · cases hd

/-- A blank line declares nothing. -/
theorem lireLigne_blanche (c : Config F) {ligne : Str} (hd : declaration (F := F) ligne = .ok none) :
    c.lireLigne ligne = .ok (c, false) := by
  unfold declaration at hd
  obtain ⟨champ, hchamp, hd⟩ := bind_eq_ok.1 hd
  unfold lireLigne
  dsimp only at hd ⊢
  rw [hchamp, ok_bind]
  split_ifs at hd ⊢ with hnom
  -- any other line declares a product
  · obtain ⟨_, _, hd⟩ := bind_eq_ok.1 hd
    obtain ⟨_, _, hd⟩ := bind_eq_ok.1 hd
    obtain ⟨_, _, hd⟩ := bind_eq_ok.1 hd
    obtain ⟨_, _, hd⟩ := bind_eq_ok.1 hd
    obtain ⟨_, _, hd⟩ := bind_eq_ok.1 hd
    obtain ⟨_, _, hd⟩ := bind_eq_ok.1 hd
    obtain ⟨_, _, hd⟩ := bind_eq_ok.1 hd
    cases hd
  · rfl

/-- Valid declarations are read without an error, and their durations are those declared. -/
theorem lireLignes_ok {contenu : List Str} {c : Config F} (hc : c.erreurConfig = 0)
    (h : ∀ ligne ∈ contenu, declaration (F := F) ligne = .ok none ∨
      ∃ D : Declaration F, declaration ligne = .ok (some D) ∧ D.Valide) :
    ∃ c', c.lireLignes contenu = .ok c' ∧ c'.erreurConfig = 0 ∧
      c'.verifConfig = c.verifConfig ++ (declarations (F := F) contenu).flatMap Declaration.temps := by
  induction contenu generalizing c with
  | nil =>
    refine ⟨c, rfl, hc, ?_⟩
    simp [declarations]
  | cons ligne contenu ih =>
    obtain ⟨hligne, hsuite⟩ := List.forall_mem_cons.1 h
    unfold lireLignes
    rcases hligne with hd | ⟨D, hd, hD⟩
    · rw [lireLigne_blanche c hd, ok_bind, declarations_cons_none hd]
      exact ih hc hsuite
    · obtain ⟨c', hok, hc', hverif⟩ := ih (c := c.declarer D) hc hsuite
      rw [lireLigne_ok hc hd hD, ok_bind, declarations_cons_some hd]
      refine ⟨c', hok, hc', ?_⟩
      rw [hverif, List.flatMap_cons, ← List.append_assoc]
      rfl

end Config

/-- The tables that the script holds once such a configuration is read. -/
theorem ConfigDistincte.lue [Floating F] {contenu : List Str}
    (h : ConfigDistincte (F := F) contenu) :
    ∃ c : Config F, Config.initial.lireLignes contenu = .ok c ∧ c.erreurConfig = 0 ∧
      c.verifConfig = (declarations contenu).flatMap Declaration.temps ∧
      c.Tables (declarations contenu) ∧ c.nbProduit.length = 6 := by
  obtain ⟨c, hc, hz, hverif⟩ := Config.lireLignes_ok (c := .initial) rfl h.lignes_valides
  have htables := Config.lireLignes_tables hc hz Config.tables_initial (by simpa using h.distincts)
  exact ⟨c, hc, hz, hverif, htables, Config.length_nbProduit hc hz⟩

end Checker
