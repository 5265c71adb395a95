import Cellule.Checker.Config

/-! # What a configuration declares

A product line read on its own, and the tables that the script holds once it has read lines that
declare each product at most once.
-/

namespace Checker

open Python

variable {F : Type}

/-- What a product line declares. -/
structure Declaration (F : Type) where
  produit : ℤ
  destinations : List ℤ
  durees : List F
  nombre : ℤ

/-- Tasks followed by zeros, up to the largest number of tasks. -/
def completer (taches : List ℤ) : List ℤ := taches ++ List.replicate (maxTaches - taches.length) 0

/-- The declaration of a product among others. -/
def declarationDe (ds : List (Declaration F)) (p : ℤ) : Option (Declaration F) :=
  ds.find? (·.produit = p)

/-- The count ordered for a product. -/
def nombreDe (ds : List (Declaration F)) (p : ℤ) : ℤ := (declarationDe ds p).elim 0 (·.nombre)

/-- The destinations of a product. -/
def destinationsDe (ds : List (Declaration F)) (p : ℤ) : List ℤ :=
  (declarationDe ds p).elim [] (·.destinations)

section

variable [Floating F]

/-- The declaration on a line, if the line is not blank. -/
def declaration (ligne : Str) : Except Exception (Option (Declaration F)) := do
  let conf := split ':' ligne
  let nom := remove ' ' (← item conf 0)
  if nom ≠ ['\n'] then do
    let produit ← int nom
    let destinations ← (separer (← item conf 1)).mapM int
    let durees ← (separer (← item conf 2)).mapM float
    let nombre ← int (← item conf 3)
    pure (some { produit, destinations, durees, nombre })
  else pure none

/-- The declarations of a configuration, in order. -/
def declarations (contenu : List Str) : List (Declaration F) :=
  contenu.filterMap fun ligne => (declaration ligne).toOption.join

theorem declarations_cons_none {ligne : Str} (h : declaration (F := F) ligne = .ok none)
    (contenu : List Str) : declarations (F := F) (ligne :: contenu) = declarations contenu := by
  simp [declarations, h, Except.toOption]

theorem declarations_cons_some {ligne : Str} {D : Declaration F}
    (h : declaration ligne = .ok (some D)) (contenu : List Str) :
    declarations (ligne :: contenu) = D :: declarations contenu := by
  simp [declarations, h, Except.toOption]

theorem declaration_of_mem {contenu : List Str} {D : Declaration F} (h : D ∈ declarations contenu) :
    ∃ ligne ∈ contenu, declaration ligne = .ok (some D) := by
  obtain ⟨ligne, hligne, hD⟩ := List.mem_filterMap.1 h
  refine ⟨ligne, hligne, ?_⟩
  cases hd : declaration (F := F) ligne with
  | error e =>
    rw [hd] at hD
    cases hD
  | ok d =>
    rw [hd] at hD
    exact congrArg Except.ok hD

end

/-! ## One line -/

/-- What a declaration must satisfy for no error to be found. -/
structure Declaration.Valide (d : Declaration F) : Prop where
  produit_pos : 1 ≤ d.produit
  produit_le : d.produit ≤ 6
  destination : ∀ x ∈ d.destinations, 1 ≤ x ∧ x ≤ 8
  nombre_taches : d.destinations.length ≤ maxTaches
  nombre_durees : d.durees.length = d.destinations.length

namespace Config

/-- The tables once a declaration is read. -/
def declarer (c : Config F) (d : Declaration F) : Config F :=
  { c with
    production :=
      c.production.modify (d.produit - 1).toNat (ranger (d.produit :: d.destinations))
    nbProduit := c.nbProduit.set (d.produit - 1).toNat d.nombre
    verifConfig :=
      c.verifConfig ++ (d.destinations.zip d.durees).map fun x => (d.produit, x.1, x.2) }

theorem signaler_ne_zero (c : Config F) (m : Message F) : (c.signaler m).erreurConfig ≠ 0 :=
  one_ne_zero

/-- No error is found in the destinations only if there is none, and nothing else changes. -/
theorem foldl_verifierDestination {tacheVar : List ℤ} {c : Config F}
    (h : (tacheVar.foldl verifierDestination c).erreurConfig = 0) :
    tacheVar.foldl verifierDestination c = c ∧ ∀ x ∈ tacheVar, 1 ≤ x ∧ x ≤ 8 := by
  induction tacheVar generalizing c with
  | nil => exact ⟨rfl, by simp⟩
  | cons d ds ih =>
    obtain ⟨heq, hds⟩ := ih h
    rw [List.foldl_cons] at h ⊢
    rw [heq] at h ⊢
    unfold verifierDestination at h ⊢
    by_cases hd : d < 1 ∨ d > 8
    · rw [if_pos hd] at h
      exact absurd h (signaler_ne_zero c _)
    · rw [if_neg hd]
      refine ⟨rfl, ?_⟩
      simp only [List.forall_mem_cons]
      exact ⟨by omega, hds⟩

theorem verifierNombre_inv {c : Config F} {tacheVar : List ℤ}
    (h : (c.verifierNombre tacheVar).erreurConfig = 0) :
    c.verifierNombre tacheVar = c ∧ tacheVar.length ≤ maxTaches := by
  unfold verifierNombre at h ⊢
  split_ifs at h ⊢ with hlen
  · exact absurd h (signaler_ne_zero c _)
  · exact ⟨rfl, by omega⟩

theorem remplirProduction_inv {c : Config F} {p : ℤ} {tacheVar : List ℤ}
    (h : (c.remplirProduction p tacheVar).erreurConfig = 0) :
    c.erreurConfig = 0 ∧ c.remplirProduction p tacheVar =
      { c with production := c.production.modify (p - 1).toNat (ranger (p :: tacheVar)) } := by
  unfold remplirProduction at h ⊢
  split_ifs at h ⊢ with hc
  · exact ⟨hc, rfl⟩
  · exact absurd h hc

theorem verifierDurees_inv {c : Config F} {dureVar : List F}
    (h : (c.verifierDurees dureVar).erreurConfig = 0) : c.verifierDurees dureVar = c := by
  unfold verifierDurees at h ⊢
  split_ifs at h ⊢
  · exact absurd h one_ne_zero
  · rfl

theorem verifierTailles_inv {c : Config F} {tacheVar : List ℤ} {dureVar : List F}
    (h : (c.verifierTailles tacheVar dureVar).erreurConfig = 0) :
    c.verifierTailles tacheVar dureVar = c ∧ dureVar.length = tacheVar.length := by
  unfold verifierTailles at h ⊢
  split_ifs at h ⊢ with hlen
  · exact absurd h (signaler_ne_zero c _)
  · exact ⟨rfl, by omega⟩

theorem remplirVerif_inv {c : Config F} {p : ℤ} {tacheVar : List ℤ} {dureVar : List F}
    (h : (c.remplirVerif p tacheVar dureVar).erreurConfig = 0) :
    c.erreurConfig = 0 ∧ c.remplirVerif p tacheVar dureVar =
      { c with verifConfig :=
          c.verifConfig ++ (tacheVar.zip dureVar).map fun x => (p, x.1, x.2) } := by
  unfold remplirVerif at h ⊢
  split_ifs at h ⊢ with hc
  · exact ⟨hc, rfl⟩
  · exact absurd h hc

variable [Floating F]

/-- A product line read without an error declares a product, and its declaration is what the tables
take from it. -/
theorem lireProduit_inv {c c' : Config F} {conf : List Str} {nom : Str} {arret : Bool}
    (h : c.lireProduit conf nom = .ok (c', arret)) (hc' : c'.erreurConfig = 0) :
    arret = false ∧ c.erreurConfig = 0 ∧ ∃ d : Declaration F, d.Valide ∧ c' = c.declarer d ∧
      int nom = .ok d.produit ∧ (item conf 1 >>= fun x => (separer x).mapM int) = .ok d.destinations ∧
      (item conf 2 >>= fun x => (separer x).mapM float) = .ok d.durees ∧
      (item conf 3 >>= int) = .ok d.nombre := by
  unfold lireProduit at h
  obtain ⟨p, hp, h⟩ := bind_eq_ok.1 h
  dsimp only at h
  split_ifs at h with hrange
  · cases h
    exact absurd hc' (signaler_ne_zero c _)
  · obtain ⟨champ₁, h₁, h⟩ := bind_eq_ok.1 h
    obtain ⟨tacheVar, htaches, h⟩ := bind_eq_ok.1 h
    obtain ⟨champ₂, h₂, h⟩ := bind_eq_ok.1 h
    obtain ⟨dureVar, hdures, h⟩ := bind_eq_ok.1 h
    obtain ⟨champ₃, h₃, h⟩ := bind_eq_ok.1 h
    obtain ⟨var, hvar, h⟩ := bind_eq_ok.1 h
    cases h
    -- the checks, from the last one back
    obtain ⟨hz, hverif⟩ := remplirVerif_inv hc'
    obtain ⟨htailles, hlen⟩ := verifierTailles_inv hz
    rw [hverif]
    rw [htailles] at hz ⊢
    have hz₃ := verifierDurees_inv (show (verifierDurees _ dureVar).erreurConfig = 0 from hz)
    unfold commander at hz ⊢
    rw [hz₃] at hz ⊢
    obtain ⟨hz₂, hprod⟩ := remplirProduction_inv hz
    obtain ⟨hnombre, hmax⟩ := verifierNombre_inv hz₂
    rw [hprod]
    rw [hnombre] at hz₂ ⊢
    obtain ⟨hdest, hvalides⟩ := foldl_verifierDestination hz₂
    rw [hdest] at hz₂ ⊢
    have hpos : 1 ≤ p := by omega
    have hle : p ≤ 6 := by omega
    refine ⟨rfl, hz₂, ⟨p, tacheVar, dureVar, var⟩, ⟨hpos, hle, hvalides, hmax, hlen⟩, rfl, hp, ?_, ?_,
      ?_⟩
    · rw [h₁]; exact htaches
    · rw [h₂]; exact hdures
    · rw [h₃]; exact hvar

/-- A line read without an error is blank, or is a declaration that the tables take. -/
theorem lireLigne_inv {c c' : Config F} {ligne : Str} {arret : Bool}
    (h : c.lireLigne ligne = .ok (c', arret)) (hc' : c'.erreurConfig = 0) :
    arret = false ∧ c.erreurConfig = 0 ∧
      ((declaration (F := F) ligne = .ok none ∧ c' = c) ∨
        ∃ d : Declaration F, d.Valide ∧ declaration ligne = .ok (some d) ∧ c' = c.declarer d) := by
  unfold lireLigne at h
  obtain ⟨champ, hchamp, h⟩ := bind_eq_ok.1 h
  unfold declaration
  dsimp only at h ⊢
  rw [hchamp]
  by_cases hnom : remove ' ' champ = ['\n']
  · rw [if_neg (by simpa using hnom)] at h
    cases h
    refine ⟨rfl, hc', .inl ⟨?_, rfl⟩⟩
    exact if_neg (by simpa using hnom)
  · rw [if_pos hnom] at h
    obtain ⟨harret, hc, d, hd, rfl, hp, hdest, hdurees, hnombre⟩ := lireProduit_inv h hc'
    refine ⟨harret, hc, .inr ⟨d, hd, ?_, rfl⟩⟩
    refine Eq.trans (if_pos hnom) ?_
    obtain ⟨champ₁, h₁, hdest⟩ := bind_eq_ok.1 hdest
    obtain ⟨champ₂, h₂, hdurees⟩ := bind_eq_ok.1 hdurees
    obtain ⟨champ₃, h₃, hnombre⟩ := bind_eq_ok.1 hnombre
    simp only [hp, h₁, hdest, h₂, hdurees, h₃, hnombre, bind, Except.bind]
    rfl

end Config

/-! ## All lines -/

/-- The row of `production` of a product. -/
def rangeeDe (ds : List (Declaration F)) (p : ℤ) : List ℤ :=
  (declarationDe ds p).elim (List.replicate (maxTaches + 1) 0) fun d =>
    p :: completer d.destinations

/-- The tables hold what is declared. -/
structure Config.Tables (c : Config F) (ds : List (Declaration F)) : Prop where
  rangee : ∀ p, 1 ≤ p → p ≤ 6 → c.production[(p - 1).toNat]? = some (rangeeDe ds p)
  nombre : ∀ p, 1 ≤ p → p ≤ 6 → c.nbProduit[(p - 1).toNat]? = some (nombreDe ds p)

namespace Config

theorem tables_initial : (initial : Config F).Tables [] where
  rangee p h₁ h₂ := by
    unfold initial
    rw [List.getElem?_replicate, if_pos (by omega)]
    rfl
  nombre p h₁ h₂ := by
    unfold initial
    rw [List.getElem?_replicate, if_pos (by omega)]
    rfl

theorem declarationDe_snoc (ds : List (Declaration F)) (d : Declaration F) (p : ℤ) :
    declarationDe (ds ++ [d]) p =
      (declarationDe ds p).or (if d.produit = p then some d else none) := by
  unfold declarationDe
  rw [List.find?_append]
  by_cases h : d.produit = p <;> simp [h]

theorem declarationDe_eq_none {ds : List (Declaration F)} {p : ℤ}
    (h : p ∉ ds.map (·.produit)) : declarationDe ds p = none := by
  unfold declarationDe
  rw [List.find?_eq_none]
  intro d hd heq
  exact h (List.mem_map.2 ⟨d, hd, by simpa using heq⟩)

/-- A product that was not declared before enters the tables. -/
theorem Tables.declarer {c : Config F} {ds : List (Declaration F)} (ht : c.Tables ds)
    {d : Declaration F} (hd : d.Valide) (hnew : d.produit ∉ ds.map (·.produit)) :
    (c.declarer d).Tables (ds ++ [d]) := by
  have hnone := declarationDe_eq_none hnew
  have h₁ := hd.produit_pos
  have h₂ := hd.produit_le
  refine ⟨?_, ?_⟩
  · intro p hp₁ hp₂
    have hrangee := ht.rangee p hp₁ hp₂
    unfold rangeeDe at hrangee ⊢
    rw [declarationDe_snoc]
    unfold Config.declarer
    rw [List.getElem?_modify, hrangee]
    -- the row of the product was blank until now
    by_cases hp : d.produit = p
    · subst hp
      rw [hnone]
      simp [ranger, completer]
    · have hne : (d.produit - 1).toNat ≠ (p - 1).toNat := by omega
      rw [if_neg hp, Option.or_none]
      simp only [if_neg hne, Option.map_eq_map, Option.map_some]
  · intro p hp₁ hp₂
    have hnombre := ht.nombre p hp₁ hp₂
    unfold nombreDe at hnombre ⊢
    rw [declarationDe_snoc]
    unfold Config.declarer
    rw [List.getElem?_set]
    by_cases hp : d.produit = p
    · subst hp
      have hlt := (List.getElem?_eq_some_iff.1 hnombre).1
      rw [if_pos rfl, if_pos hlt, hnone, if_pos rfl]
      rfl
    · rw [if_neg (by omega), hnombre, if_neg hp, Option.or_none]

/-- So do distinct products, one after the other. -/
theorem Tables.foldl_declarer {c : Config F} {ds lues : List (Declaration F)} (ht : c.Tables lues)
    (hds : ∀ d ∈ ds, d.Valide) (hdistincts : ((lues ++ ds).map Declaration.produit).Nodup) :
    (ds.foldl Config.declarer c).Tables (lues ++ ds) := by
  induction ds generalizing c lues with
  | nil =>
    rw [List.append_nil]
    exact ht
  | cons d ds ih =>
    obtain ⟨hvalide, hds⟩ := List.forall_mem_cons.1 hds
    rw [List.append_cons] at hdistincts ⊢
    refine ih (ht.declarer hvalide ?_) hds hdistincts
    rw [List.map_append, List.map_append] at hdistincts
    -- its number is not among those declared before
    have hnd := (List.nodup_append.1 hdistincts).1
    intro hmem
    exact (List.nodup_append.1 hnd).2.2 _ hmem _ (by simp) rfl

theorem length_foldl_declarer (ds : List (Declaration F)) (c : Config F) :
    (ds.foldl declarer c).nbProduit.length = c.nbProduit.length := by
  induction ds generalizing c with
  | nil => rfl
  | cons d ds ih =>
    rw [List.foldl_cons, ih]
    exact List.length_set

theorem affichage_foldl_declarer (ds : List (Declaration F)) (c : Config F) :
    (ds.foldl declarer c).affichage = c.affichage := by
  induction ds generalizing c with
  | nil => rfl
  | cons d ds ih => exact ih (c.declarer d)

variable [Floating F]

/-- **Lines read without an error** are the declarations that the tables take, one after the
other. -/
theorem lireLignes_inv {contenu : List Str} {c c' : Config F} (h : c.lireLignes contenu = .ok c')
    (hc' : c'.erreurConfig = 0) : c.erreurConfig = 0 ∧
      (∀ d ∈ declarations (F := F) contenu, d.Valide) ∧ c' = (declarations contenu).foldl declarer c := by
  induction contenu generalizing c with
  | nil =>
    cases h
    exact ⟨hc', by simp [declarations], rfl⟩
  | cons ligne contenu ih =>
    unfold lireLignes at h
    obtain ⟨⟨c₁, arret⟩, h₁, hsuite⟩ := bind_eq_ok.1 h
    dsimp only at hsuite
    cases arret with
    -- the loop is left after an error only
    | true =>
      cases hsuite
      cases (lireLigne_inv h₁ hc').1
    | false =>
      obtain ⟨hz, hds, heq⟩ := ih hsuite
      obtain ⟨-, hc, ⟨hd, rfl⟩ | ⟨d, hvalide, hd, rfl⟩⟩ := lireLigne_inv h₁ hz
      · rw [declarations_cons_none hd]
        exact ⟨hc, hds, heq⟩
      · rw [declarations_cons_some hd]
        exact ⟨hc, List.forall_mem_cons.2 ⟨hvalide, hds⟩, heq⟩

/-- The rows of the counts. -/
theorem length_nbProduit {contenu : List Str} {c c' : Config F} (h : c.lireLignes contenu = .ok c')
    (hc' : c'.erreurConfig = 0) : c'.nbProduit.length = c.nbProduit.length := by
  rw [(lireLignes_inv h hc').2.2, length_foldl_declarer]

/-- The tables hold what the lines declare, when no error was found and each product is declared at
most once. -/
theorem lireLignes_tables {contenu : List Str} {c c' : Config F} {ds : List (Declaration F)}
    (h : c.lireLignes contenu = .ok c') (hc' : c'.erreurConfig = 0) (ht : c.Tables ds)
    (hdistincts : ((ds ++ declarations contenu).map Declaration.produit).Nodup) :
    c'.Tables (ds ++ declarations contenu) := by
  obtain ⟨-, hds, rfl⟩ := lireLignes_inv h hc'
  exact ht.foldl_declarer hds hdistincts

end Config

end Checker
