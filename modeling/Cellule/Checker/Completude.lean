import Cellule.Checker.Durees
import Cellule.Checker.Recherche

/-! # Completeness of the verdict

The script accepts every log that conforms to a valid configuration, in whatever order the lines of
the products come. What is left from one line to the next is nothing: the buffers are empty again
after each product that leaves.
-/

namespace Checker

open Python

variable {F : Type}

/-! ## Conforming logs -/

/-- `int(info[2])`, the post of a `TempoT` line. -/
def posteDe (line : Str) : Except Exception ℤ := do int (← item (champs line) 2)

/-- The identifiers that the script knows. -/
def identifiants : List String := identifiantsErreur ++ ["TempoT", "NouveauProduit", "Sortie"]

/-- The task fields of a product that leaves: its destinations in order as finished cubes, then
zeros. -/
def TachesFinies (destinations : List ℤ) (fields : List Str) : Prop :=
  ∃ finis vides, fields = finis ++ vides ∧
    List.Forall₂ (fun champ d => chiffre champ 0 = .ok d ∧ chiffre champ 1 = .ok 3) finis destinations ∧
    ∀ champ ∈ vides, chiffre champ 0 = .ok 0

/-- The same with any type for each task. -/
def TachesLues (destinations : List ℤ) (fields : List Str) : Prop :=
  ∃ cubes vides, fields = cubes ++ vides ∧
    List.Forall₂ (fun champ d => chiffre champ 0 = .ok d ∧ ∃ t, chiffre champ 1 = .ok t) cubes
      destinations ∧
    ∀ champ ∈ vides, chiffre champ 0 = .ok 0

section

variable [Floating F]

/-- `float(info[3])`, the duration of a `TempoT` line. -/
def dureeDe (line : Str) : Except Exception F := do float (← item (champs line) 3)

/-- The time of a `NouveauProduit` line. -/
def tempsNouveau (line : Str) : Except Exception F := do float (strip '\n' (← item (champs line) 2))

/-- The time of a `Sortie` line. -/
def tempsSortie (line : Str) : Except Exception F := do
  float (strip '\n' (← item (champs line) ((champs line).length - 1)))

/-- The lines of a conforming log. -/
inductive LigneAttendue (ds : List (Declaration F)) (line : Str) : Prop
  | nouveauProduit (p : ℤ) (time : F) (hID : identifiant line = "NouveauProduit".toList)
      (hp : 0 < nombreDe ds p) (hP : produitDe line = .ok p) (htype : typeDe line = .ok 4)
      (htime : tempsNouveau line = .ok time)
  | tempoT (p d : ℤ) (T : F) (hID : identifiant line = "TempoT".toList) (hp : 0 < nombreDe ds p)
      (hP : produitDe line = .ok p) (hposte : posteDe line = .ok d) (hd : 1 ≤ d ∧ d ≤ 8)
      (hT : dureeDe line = .ok T)
  | sortie (p : ℤ) (time : F) (hID : identifiant line = "Sortie".toList) (hp : 0 < nombreDe ds p)
      (hP : produitDe line = .ok p) (htype : typeDe line = .ok 4)
      (htaches : TachesFinies (destinationsDe ds p) (champsTaches (champs line)))
      (hlen : (champsTaches (champs line)).length ≤ maxTaches)
      (htime : tempsSortie line = .ok time)
  | autre (h : ∀ ID ∈ identifiants, identifiant line ≠ ID.toList)

/-- The lines that the script reads without an error. The types of the tasks are read and never
checked. -/
inductive LigneAdmise (ds : List (Declaration F)) (line : Str) : Prop
  | nouveauProduit (p : ℤ) (time : F) (hID : identifiant line = "NouveauProduit".toList)
      (hp : 0 < nombreDe ds p) (hP : produitDe line = .ok p) (htype : typeDe line = .ok 4)
      (htime : tempsNouveau line = .ok time)
  | tempoT (p d : ℤ) (T : F) (hID : identifiant line = "TempoT".toList) (hp : 0 < nombreDe ds p)
      (hP : produitDe line = .ok p) (hposte : posteDe line = .ok d) (hd : 1 ≤ d ∧ d ≤ 8)
      (hT : dureeDe line = .ok T)
  | sortie (p : ℤ) (time : F) (hID : identifiant line = "Sortie".toList) (hp : 0 < nombreDe ds p)
      (hP : produitDe line = .ok p) (htype : typeDe line = .ok 4)
      (htaches : TachesLues (destinationsDe ds p) (champsTaches (champs line)))
      (hlen : (champsTaches (champs line)).length ≤ maxTaches)
      (htime : tempsSortie line = .ok time)
  | autre (h : ∀ ID ∈ identifiants, identifiant line ≠ ID.toList)

/-- A log that conforms to what is declared. -/
structure LogConforme (ds : List (Declaration F)) (Log : List Str) : Prop where
  lignes : ∀ line ∈ Log, LigneAttendue ds line
  apparus : ∀ p, 0 < nombreDe ds p → (nombreLignes "NouveauProduit" p Log : ℤ) = nombreDe ds p
  sortis : ∀ p, 0 < nombreDe ds p → (nombreLignes "Sortie" p Log : ℤ) = nombreDe ds p
  ordre : ∀ p, 0 < nombreDe ds p → ∀ lus, lus <+: Log →
    nombreLignes "Sortie" p lus ≤ nombreLignes "NouveauProduit" p lus
  tempos : ∀ D ∈ ds, 0 < D.nombre → ∀ x ∈ D.destinations.zip D.durees,
    (∃ line ∈ Log, EstLigne "TempoT" D.produit line ∧ posteDe line = .ok x.1) ∧
    ∀ line ∈ Log, EstLigne "TempoT" D.produit line → posteDe line = .ok x.1 →
      ∃ T, dureeDe line = .ok T ∧ Floating.eq x.2 T = true

/-- A log that the script accepts: it conforms to what is declared, but for the types of the tasks
and for the durations that are zero. -/
structure LogAdmis (ds : List (Declaration F)) (Log : List Str) : Prop where
  lignes : ∀ line ∈ Log, LigneAdmise ds line
  apparus : ∀ p, 0 < nombreDe ds p → (nombreLignes "NouveauProduit" p Log : ℤ) = nombreDe ds p
  sortis : ∀ p, 0 < nombreDe ds p → (nombreLignes "Sortie" p Log : ℤ) = nombreDe ds p
  ordre : ∀ p, 0 < nombreDe ds p → ∀ lus, lus <+: Log →
    nombreLignes "Sortie" p lus ≤ nombreLignes "NouveauProduit" p lus
  tempos : ∀ D ∈ ds, 0 < D.nombre → ∀ x ∈ D.destinations.zip D.durees,
    Floating.eq x.2 Floating.zero = false →
    (∃ line ∈ Log, EstLigne "TempoT" D.produit line ∧ posteDe line = .ok x.1) ∧
    ∀ line ∈ Log, EstLigne "TempoT" D.produit line → posteDe line = .ok x.1 →
      ∃ T, dureeDe line = .ok T ∧ Floating.eq x.2 T = true

end

/-! ## Ordered products -/

/-- A product that is ordered is declared. -/
theorem exists_of_nombreDe {ds : List (Declaration F)} {p : ℤ} (hp : nombreDe ds p ≠ 0) :
    ∃ D ∈ ds, D.produit = p ∧ declarationDe ds p = some D := by
  unfold nombreDe at hp
  cases hD : declarationDe ds p with
  | none =>
    rw [hD] at hp
    exact absurd rfl hp
  | some D => exact ⟨D, List.mem_of_find?_eq_some hD, by simpa using List.find?_some hD, rfl⟩

/-- A product that is ordered has a number. -/
theorem produit_le_six {ds : List (Declaration F)} (hds : ∀ D ∈ ds, D.Correcte) {p : ℤ}
    (hp : 0 < nombreDe ds p) : 1 ≤ p ∧ p ≤ 6 := by
  obtain ⟨D, hD, rfl, -⟩ := exists_of_nombreDe hp.ne'
  exact ⟨(hds D hD).produit_pos, (hds D hD).produit_le⟩

/-- A configuration has one duration for each task of a product. -/
theorem duree_unique {ds : List (Declaration F)} (hds : ∀ D ∈ ds, D.Valide)
    (hpostes : ∀ D ∈ ds, D.destinations.Nodup) (hdistincts : (ds.map Declaration.produit).Nodup)
    {D : Declaration F} (hD : D ∈ ds) {x : ℤ × F} (hx : x ∈ D.destinations.zip D.durees) {T : F}
    (hT : (D.produit, x.1, T) ∈ ds.flatMap Declaration.temps) : T = x.2 := by
  obtain ⟨D', hD', htemps⟩ := List.mem_flatMap.1 hT
  obtain ⟨y, hy, heq⟩ := List.mem_map.1 htemps
  obtain ⟨hproduit, hposte, hduree⟩ : D'.produit = D.produit ∧ y.1 = x.1 ∧ y.2 = T := by
    simpa [Prod.ext_iff] using heq
  obtain rfl : D' = D := by
    have h' := declarationDe_of_mem hdistincts hD'
    rw [hproduit, declarationDe_of_mem hdistincts hD] at h'
    exact (Option.some.inj h').symm
  have hnodup : ((D'.destinations.zip D'.durees).map Prod.fst).Nodup := by
    rw [List.map_fst_zip (hds D' hD).nombre_durees.ge]
    exact hpostes D' hD
  rw [← hduree, List.inj_on_of_nodup_map hnodup hy hx hposte]

/-- No count is negative. -/
theorem nombreDe_nonneg {ds : List (Declaration F)} (hds : ∀ D ∈ ds, D.Correcte) (p : ℤ) :
    0 ≤ nombreDe ds p := by
  by_cases hp : nombreDe ds p = 0
  · omega
  · obtain ⟨D, hD, -, hdecl⟩ := exists_of_nombreDe hp
    unfold nombreDe
    rw [hdecl]
    exact (hds D hD).nombre_nonneg

/-- The destinations of a product are posts. -/
theorem destinationsDe_valides {ds : List (Declaration F)} (hds : ∀ D ∈ ds, D.Correcte) (p : ℤ) :
    ∀ d ∈ destinationsDe ds p, 1 ≤ d ∧ d ≤ 8 := by
  unfold destinationsDe
  cases hD : declarationDe ds p with
  | none => exact fun d hd => absurd hd List.not_mem_nil
  | some D => exact (hds D (List.mem_of_find?_eq_some hD)).destination

/-! ## Reading the fields -/

/-- The product and the type are in the same field. -/
theorem champ_base {line : Str} {p t : ℤ} (hP : produitDe line = .ok p) (ht : typeDe line = .ok t) :
    ∃ champ, item (champs line) 1 = .ok champ ∧ chiffre champ 0 = .ok p ∧ chiffre champ 1 = .ok t := by
  obtain ⟨champ, hchamp, hp⟩ := bind_eq_ok.1 hP
  obtain ⟨champ', hchamp', ht⟩ := bind_eq_ok.1 ht
  rw [hchamp] at hchamp'
  cases hchamp'
  exact ⟨champ, hchamp, hp, ht⟩

/-- The end of a line is taken from a character that is no digit, or there is none. -/
theorem int_strip_eq (c : Char) : int (strip '\n' [c]) = int [c] := by
  by_cases hc : c = '\n'
  · subst hc
    decide
  · have hstrip : strip '\n' [c] = [c] := by
      apply stripBy_eq_self
      · simpa using hc
      · simpa using hc
    rw [hstrip]

/-- A task field has its number, and the type of a task that is there. -/
def ChampLisible (champ : Str) : Prop :=
  ∃ d, chiffre champ 0 = .ok d ∧ (d ≠ 0 → ∃ t, chiffre champ 1 = .ok t)

/-- `D` is filled when it has a row for each field, and the fields have the digits it reads. -/
theorem remplirD_ok_iff {D : List (ℤ × ℤ)} {fields : List Str} :
    (∃ D', remplirD D fields = .ok D') ↔
      fields.length ≤ D.length ∧ ∀ champ ∈ fields, ChampLisible champ := by
  induction fields generalizing D with
  | nil =>
    refine iff_of_true ?_ (by simp)
    cases D with
    | nil => exact ⟨[], rfl⟩
    | cons x D => exact ⟨x :: D, rfl⟩
  | cons champ fields ih =>
    cases D with
    | nil =>
      -- more fields than rows
      refine iff_of_false ?_ (by simp)
      rintro ⟨D', hD'⟩
      obtain ⟨d, -, hD'⟩ := bind_eq_ok.1 hD'
      cases hD'
    | cons x D =>
      rw [List.forall_mem_cons, List.length_cons, List.length_cons, Nat.add_le_add_iff_right]
      constructor
      · rintro ⟨D', hD'⟩
        obtain ⟨d, hd, hD'⟩ := bind_eq_ok.1 hD'
        obtain ⟨t, ht, hD'⟩ := bind_eq_ok.1 hD'
        obtain ⟨D₁, hD₁, -⟩ := bind_eq_ok.1 hD'
        obtain ⟨hlen, hfields⟩ := ih.1 ⟨D₁, hD₁⟩
        refine ⟨hlen, ⟨d, hd, fun hd₀ => ⟨t, ?_⟩⟩, hfields⟩
        unfold chiffreType at ht
        rwa [if_pos hd₀] at ht
      · rintro ⟨hlen, ⟨d, hd, htype⟩, hfields⟩
        obtain ⟨D', hD'⟩ := ih.2 ⟨hlen, hfields⟩
        unfold remplirD chiffreType
        rw [hd, ok_bind]
        -- the type is read only after a number that is not 0
        by_cases hd₀ : d = 0
        · rw [if_neg (not_not.2 hd₀), hD']
          exact ⟨_, rfl⟩
        · obtain ⟨t, ht⟩ := htype hd₀
          rw [if_pos hd₀, ht, ok_bind, hD']
          exact ⟨_, rfl⟩

theorem TachesFinies.lues {destinations : List ℤ} {fields : List Str}
    (h : TachesFinies destinations fields) : TachesLues destinations fields := by
  obtain ⟨finis, vides, hfields, hfinis, hvides⟩ := h
  exact ⟨finis, vides, hfields, hfinis.imp fun champ d h => ⟨h.1, 3, h.2⟩, hvides⟩

/-- The fields of a product that leaves have the digits that are read. -/
theorem TachesLues.chiffres {destinations : List ℤ} {fields : List Str}
    (h : TachesLues destinations fields) : ∀ champ ∈ fields, ChampLisible champ := by
  obtain ⟨cubes, vides, rfl, hcubes, hvides⟩ := h
  intro champ hchamp
  rcases List.mem_append.1 hchamp with hchamp | hchamp
  · obtain ⟨i, hi, rfl⟩ := List.getElem_of_mem hchamp
    obtain ⟨hd, t, ht⟩ := (List.forall₂_iff_get.1 hcubes).2 i hi ((hcubes.length_eq) ▸ hi)
    exact ⟨_, hd, fun _ => ⟨t, ht⟩⟩
  · exact ⟨0, hvides champ hchamp, fun h => absurd rfl h⟩

/-- The task digits of such fields, completed, are the destinations, completed. -/
theorem TachesLues.completer {destinations : List ℤ} {fields : List Str}
    (h : TachesLues destinations fields) (hlen : fields.length ≤ maxTaches) :
    ∃ taches, (fields.mapM fun champ => chiffre champ 0) = .ok taches ∧
      Checker.completer taches = Checker.completer destinations := by
  obtain ⟨cubes, vides, rfl, hcubes, hvides⟩ := h
  have hzeros : List.Forall₂ (fun champ d => chiffre champ 0 = .ok d) vides
      (List.replicate vides.length 0) := by
    rw [List.forall₂_iff_get]
    refine ⟨List.length_replicate.symm, ?_⟩
    intro i hi hi'
    rw [List.get_eq_getElem, List.get_eq_getElem, List.getElem_replicate]
    exact hvides _ (List.getElem_mem hi)
  have hnumeros := hcubes.imp fun champ d (h : _ ∧ _) => h.1
  refine ⟨destinations ++ List.replicate vides.length 0,
    mapM_eq_ok.2 (List.rel_append hnumeros hzeros), ?_⟩
  rw [List.length_append, hcubes.length_eq] at hlen
  unfold Checker.completer
  rw [List.append_assoc, List.replicate_append_replicate, List.length_append, List.length_replicate]
  congr 2
  omega

/-! ## Checks that find nothing -/

namespace Journal

variable (j : Journal F)

theorem foldl_test {α : Type} {f : Journal F → α → Journal F} (h : ∀ j x, (f j x).test = j.test)
    (l : List α) : (l.foldl f j).test = j.test := by
  induction l generalizing j with
  | nil => rfl
  | cons x l ih => rw [List.foldl_cons, ih, h]

/-- The messages on the types fail nothing. -/
theorem afficherTypes_test (n : ℕ) (sortis P : ℤ) (D : List (ℤ × ℤ)) :
    (j.afficherTypes n sortis P D).test = j.test := by
  unfold afficherTypes
  apply foldl_test
  intro j x
  split_ifs <;> rfl

/-- A product that leaves with what is ordered fails nothing. -/
theorem verifierSortie_test (attendus sortis : ℤ) {attendu lu : List ℤ} {s : Sortie F}
    (hlu : lu = attendu) (htype : s.pType = 4) :
    (j.verifierSortie attendus sortis attendu lu s).test = j.test := by
  unfold verifierSortie
  rw [if_neg (not_not.2 hlu)]
  dsimp only
  rw [if_neg (not_not.2 htype)]
  split_ifs
  · exact afficherTypes_test j _ _ _ _
  · rfl

/-- These checks keep the durations. -/
theorem verifierSortie_conserve (attendus sortis : ℤ) (attendu lu : List ℤ) (s : Sortie F) :
    (j.verifierSortie attendus sortis attendu lu s).produitDuree = j.produitDuree ∧
      (j.verifierSortie attendus sortis attendu lu s).verifConfigLog = j.verifConfigLog := by
  have heq := (verifierSortie_controle j attendus sortis attendu lu s).eq
  have hduree := congrArg Journal.produitDuree heq
  have hverif := congrArg Journal.verifConfigLog heq
  exact ⟨hduree, hverif⟩

/-- The recapitulation fails nothing. -/
theorem conclure_test (c : Config F) : (j.conclure c).test = j.test := by
  unfold conclure
  split_ifs
  · apply foldl_test
    intro j x
    unfold recapituler
    split_ifs <;> rfl
  · rfl

end Journal

/-! ## One line of the log -/

section

variable [Floating F]

/-- What a `TempoT` line adds to the durations. -/
def tempoDe (line : Str) : Option (ℤ × ℤ × F) :=
  if identifiant line = "TempoT".toList then
    (do
      let P ← produitDe line
      let d ← posteDe line
      let T ← dureeDe line
      pure (P, d, T) : Except Exception (ℤ × ℤ × F)).toOption
  else none

theorem tempoDe_eq_some {line : Str} {p d : ℤ} {T : F} : tempoDe line = some (p, d, T) ↔
    EstLigne "TempoT" p line ∧ posteDe line = .ok d ∧ dureeDe line = .ok T := by
  unfold tempoDe EstLigne
  by_cases hID : identifiant line = "TempoT".toList
  · rw [if_pos hID]
    constructor
    · intro h
      cases hP : produitDe line <;> cases hd : posteDe line <;>
        cases hT : (dureeDe line : Except Exception F) <;> rw [hP, hd, hT] at h <;> cases h
      exact ⟨⟨hID, rfl⟩, rfl, rfl⟩
    · rintro ⟨⟨-, hP⟩, hd, hT⟩
      rw [hP, hd, hT]
      rfl
  · rw [if_neg hID]
    exact iff_of_false (by simp) fun h => hID h.1.1

/-- What the variables hold while a conforming log is read. -/
structure Juste (c : Config F) (lus : List Str) (j : Journal F) : Prop where
  accord : Accord c lus j
  test : j.test = 1
  durees : j.produitDuree.length = 6
  tempos : j.verifConfigLog = lus.filterMap tempoDe

variable {c : Config F} {ds : List (Declaration F)} {lus : List Str} {j : Journal F} {line : Str}
  {p : ℤ}

/-- A line that is no `TempoT` line adds no duration. -/
theorem tempoDe_autre (h : identifiant line ≠ "TempoT".toList) : (tempoDe line : Option (ℤ × ℤ × F)) = none :=
  if_neg h

theorem lireTempoT_ok {d : ℤ} {T : F} (hP : produitDe line = .ok p) (hd : posteDe line = .ok d)
    (hT : dureeDe line = .ok T) : j.lireTempoT (champs line) =
      .ok { j with verifConfigLog := j.verifConfigLog ++ [(p, d, T)] } := by
  obtain ⟨champ, hchamp, hp⟩ := bind_eq_ok.1 hP
  obtain ⟨c₀, hc₀, hp⟩ := bind_eq_ok.1 hp
  obtain ⟨champPoste, hposte, hd⟩ := bind_eq_ok.1 hd
  obtain ⟨champDuree, hduree, hT⟩ := bind_eq_ok.1 hT
  unfold Journal.lireTempoT
  rw [hchamp, ok_bind, hc₀, ok_bind, int_strip_eq, hp, ok_bind, hposte, ok_bind, hd, ok_bind, hduree,
    ok_bind, hT]
  rfl

theorem lireNouveauProduit_ok (h : Juste c lus j) (ht : c.Tables ds) (hp : 1 ≤ p ∧ p ≤ 6)
    (hP : produitDe line = .ok p) (htype : typeDe line = .ok 4) {time : F}
    (htime : tempsNouveau line = .ok time) :
    ∃ j', j.lireNouveauProduit c (champs line) = .ok j' ∧ j'.test = 1 ∧
      j'.produitDuree = j.produitDuree ∧ j'.verifConfigLog = j.verifConfigLog := by
  have hnew := h.accord.nouveaux p hp.1 hp.2
  have hlt := (List.getElem?_eq_some_iff.1 hnew).1
  have hlu := (Journal.lireNouveauProduit_eq_ok (c := c) (j := j)).2 ⟨p, 4, _, _, time, _, hP, htype,
    htime, item_of_getElem? (by omega) hnew, setItem_of_lt (by omega) hlt,
    item_of_getElem? (by omega) (ht.nombre p hp.1 hp.2), rfl⟩
  unfold Journal.verifierApparition at hlu
  rw [if_neg fun h => h.1 rfl] at hlu
  exact ⟨_, hlu, h.test, rfl, rfl⟩

/-- What is read on the line of a product that leaves. -/
theorem analyserSortie_ok (h : Juste c lus j) (hp : p ≠ 0) (hP : produitDe line = .ok p)
    (htype : typeDe line = .ok 4) {destinations : List ℤ}
    (htaches : TachesLues destinations (champsTaches (champs line)))
    (hlen : (champsTaches (champs line)).length ≤ maxTaches) {time : F}
    (htime : tempsSortie line = .ok time) :
    ∃ s, j.analyserSortie (champs line) = .ok s ∧ s.P = p ∧ s.pType = 4 ∧
      (s.D.take maxTaches).map Prod.fst = completer destinations := by
  obtain ⟨champ, hchamp, hchiffre, htypeChamp⟩ := champ_base hP htype
  obtain ⟨champTime, hchampTime, htime⟩ := bind_eq_ok.1 htime
  obtain ⟨D, hD⟩ := (remplirD_ok_iff (D := Journal.videD)).2 ⟨hlen, htaches.chiffres⟩
  -- every field of the line can be read
  obtain ⟨s, hs⟩ : ∃ s, j.analyserSortie (champs line) = .ok s := by
    unfold Journal.analyserSortie chiffreType
    rw [hchamp, ok_bind, hchampTime]
    dsimp only
    rw [ok_bind, htime, ok_bind, hchiffre, ok_bind, if_pos hp, htypeChamp, ok_bind,
      h.accord.DList_vide, h.accord.D_vide, List.nil_append, hD]
    exact ⟨_, rfl⟩
  obtain ⟨hsP, hstype, taches, hlues, hfinal⟩ :=
    analyserSortie_inv h.accord.D_vide h.accord.DList_vide hP hp hs
  obtain ⟨taches', hlues', hcompleter⟩ := htaches.completer hlen
  refine ⟨s, hs, hsP, ?_, ?_⟩
  · rw [htype] at hstype
    exact (Except.ok.inj hstype).symm
  · obtain rfl : taches = taches' := Except.ok.inj (hlues.symm.trans hlues')
    rw [hfinal, hcompleter]

theorem lireSortie_ok (h : Juste c lus j) (ht : c.Tables ds) (hp : 1 ≤ p ∧ p ≤ 6)
    (hn : nombreDe ds p ≠ 0) (hID : identifiant line = "Sortie".toList)
    (hP : produitDe line = .ok p) (htype : typeDe line = .ok 4)
    (htaches : TachesLues (destinationsDe ds p) (champsTaches (champs line)))
    (hlen : (champsTaches (champs line)).length ≤ maxTaches) {time : F}
    (htime : tempsSortie line = .ok time)
    (hordre : nombreLignes "Sortie" p (lus ++ [line]) ≤
      nombreLignes "NouveauProduit" p (lus ++ [line])) :
    ∃ j', j.lireSortie c (champs line) = .ok j' ∧ j'.test = 1 ∧ j'.produitDuree.length = 6 ∧
      j'.verifConfigLog = j.verifConfigLog := by
  obtain ⟨s, hs, rfl, htype, hfinal⟩ := analyserSortie_ok h (by omega) hP htype htaches hlen htime
  -- an instance of the product is still inside
  have hdedans : 0 < j.produitEntree.countP fun e => e.1 = s.P := by
    have hentrees := h.accord.entrees s.P hp.1 hp.2
    rw [nombreLignes_snoc_autre (identifiant_sortie_ne hID).1, nombreLignes_snoc_de hID hP,
      if_pos rfl] at hordre
    omega
  obtain ⟨r, hr⟩ := sortirEntree_ok hdedans
  have hlog := h.accord.sortis s.P hp.1 hp.2
  have hlt := (List.getElem?_eq_some_iff.1 hlog).1
  have hltd : (s.P - 1).toNat < j.produitDuree.length := by
    rw [h.durees]
    omega
  have hduree := List.getElem?_eq_getElem hltd
  have hrangee := ht.rangee s.P hp.1 hp.2
  rw [rangeeDe_of_nombreDe hn, ← hfinal] at hrangee
  refine ⟨_, Journal.lireSortie_eq_ok.2 (.produit s hs (by omega) _ _ _ _ r _ _
    (item_of_getElem? (by omega) hlog) (setItem_of_lt (by omega) hlt) hr
    (item_of_getElem? (by omega) hduree) (setItem_of_lt (by omega) hltd)
    (item_of_getElem? (by omega) (ht.nombre s.P hp.1 hp.2)) (item_of_getElem? (by omega) hrangee) rfl),
    ?_, ?_, ?_⟩
  · exact (Journal.verifierSortie_test _ _ _ rfl htype).trans h.test
  · dsimp only
    rw [(Journal.verifierSortie_conserve _ _ _ _ _ s).1, List.length_set]
    exact h.durees
  · exact (Journal.verifierSortie_conserve _ _ _ _ _ s).2

/-- The lines of a conforming log are read without an error. -/
theorem LigneAttendue.admise (h : LigneAttendue ds line) : LigneAdmise ds line := by
  cases h with
  | nouveauProduit p time hID hp hP htype htime => exact .nouveauProduit p time hID hp hP htype htime
  | tempoT p d T hID hp hP hposte hd hT => exact .tempoT p d T hID hp hP hposte hd hT
  | sortie p time hID hp hP htype htaches hlen htime =>
    exact .sortie p time hID hp hP htype htaches.lues hlen htime
  | autre h => exact .autre h

/-- Such a log is one that the script accepts. -/
theorem LogConforme.admis {Log : List Str} (h : LogConforme ds Log) : LogAdmis ds Log where
  lignes line hline := (h.lignes line hline).admise
  apparus := h.apparus
  sortis := h.sortis
  ordre := h.ordre
  tempos D hD hn x hx _ := h.tempos D hD hn x hx

/-- The line has the form that soundness asks for. -/
theorem LigneAdmise.conforme (hds : ∀ D ∈ ds, D.Correcte) (h : LigneAdmise ds line) :
    LigneConforme line := by
  cases h with
  | nouveauProduit p time hID hp hP htype htime =>
    exact ⟨fun _ => ⟨p, hP, produit_le_six hds hp⟩, fun hs => absurd hs (identifiant_nouveau_ne hID).1⟩
  | tempoT p d T hID hp hP hposte hd hT =>
    exact ⟨fun _ => ⟨p, hP, produit_le_six hds hp⟩, fun hs => absurd (hID.symm.trans hs) (by decide)⟩
  | sortie p time hID hp hP htype htaches hlen htime =>
    exact ⟨fun _ => ⟨p, hP, produit_le_six hds hp⟩, fun _ => hlen⟩
  | autre h =>
    refine ⟨?_, fun hs => absurd hs (h "Sortie" (by decide))⟩
    rintro (hID | hID)
    · exact absurd hID (h "NouveauProduit" (by decide))
    · exact absurd hID (h "Sortie" (by decide))

/-- Such a line is read without an error. -/
theorem Juste.lireLigne (h : Juste c lus j) (ht : c.Tables ds) (hds : ∀ D ∈ ds, D.Correcte)
    (hline : LigneAdmise ds line)
    (hordre : ∀ p, 0 < nombreDe ds p → nombreLignes "Sortie" p (lus ++ [line]) ≤
      nombreLignes "NouveauProduit" p (lus ++ [line])) :
    ∃ j', Journal.lireLigne c j line = .ok j' ∧ Juste c (lus ++ [line]) j' := by
  -- soundness follows the counters, once the line is read
  have hjuste : ∀ j', Journal.lireLigne c j line = .ok j' → j'.test = 1 →
      j'.produitDuree.length = 6 →
      j'.verifConfigLog = j.verifConfigLog ++ [line].filterMap tempoDe →
      Juste c (lus ++ [line]) j' := by
    intro j' hok htest hdurees hverif
    refine ⟨h.accord.lireLigne (hline.conforme hds) hok, htest, hdurees, ?_⟩
    rw [hverif, h.tempos, List.filterMap_append]
  have hautre : identifiant line ≠ "TempoT".toList →
      [line].filterMap (tempoDe (F := F)) = [] := by
    intro hne
    rw [List.filterMap_cons, tempoDe_autre hne]
    rfl
  cases hline with
  | nouveauProduit p time hID hp hP htype htime =>
    obtain ⟨j', hok, htest, hdurees, hverif⟩ :=
      lireNouveauProduit_ok h ht (produit_le_six hds hp) hP htype htime
    rw [← Journal.lireLigne_nouveauProduit hID] at hok
    refine ⟨j', hok, hjuste j' hok htest (hdurees ▸ h.durees) ?_⟩
    rw [hverif, hautre (hID.trans_ne (by decide)), List.append_nil]
  | tempoT p d T hID hp hP hposte hd hT =>
    have hok := (Journal.lireLigne_tempoT hID (c := c) (j := j)).trans (lireTempoT_ok hP hposte hT)
    refine ⟨_, hok, hjuste _ hok h.test h.durees ?_⟩
    rw [List.filterMap_cons, tempoDe_eq_some.2 ⟨⟨hID, hP⟩, hposte, hT⟩]
    rfl
  | sortie p time hID hp hP htype htaches hlen htime =>
    obtain ⟨j', hok, htest, hdurees, hverif⟩ :=
      lireSortie_ok h ht (produit_le_six hds hp) hp.ne' hID hP htype htaches hlen htime (hordre p hp)
    rw [← Journal.lireLigne_sortie hID] at hok
    refine ⟨j', hok, hjuste j' hok htest hdurees ?_⟩
    rw [hverif, hautre (hID.trans_ne (by decide)), List.append_nil]
  | autre hID =>
    have hok : Journal.lireLigne c j line = .ok j := by
      unfold Journal.lireLigne
      dsimp only
      rw [if_neg (hID _ (by decide)), if_neg (hID _ (by decide)), if_neg (hID _ (by decide)),
        if_neg (hID _ (by decide)), if_neg (hID _ (by decide)), if_neg (hID _ (by decide)),
        if_neg (hID _ (by decide))]
      rfl
    refine ⟨j, hok, hjuste j hok h.test h.durees ?_⟩
    rw [hautre (hID "TempoT" (by decide)), List.append_nil]

/-- So is a log of such lines. -/
theorem juste_lireLog (ht : c.Tables ds) (hds : ∀ D ∈ ds, D.Correcte) {Log : List Str}
    (hlignes : ∀ line ∈ Log, LigneAdmise ds line)
    (hordre : ∀ p, 0 < nombreDe ds p → ∀ lus, lus <+: Log →
      nombreLignes "Sortie" p lus ≤ nombreLignes "NouveauProduit" p lus) :
    ∃ j, Journal.lireLog c .initial Log = .ok j ∧ Juste c Log j := by
  induction Log using List.reverseRecOn with
  | nil => exact ⟨.initial, rfl, accord_initial c, rfl, rfl, rfl⟩
  | append_singleton Log line ih =>
    obtain ⟨j, hok, hj⟩ := ih (fun l hl => hlignes l (List.mem_append_left _ hl))
      fun p hp lus hlus => hordre p hp lus (hlus.trans (List.prefix_append _ _))
    obtain ⟨j', hok', hj'⟩ := hj.lireLigne ht hds (hlignes line (by simp))
      fun p hp => hordre p hp _ List.prefix_rfl
    refine ⟨j', ?_, hj'⟩
    unfold Journal.lireLog at hok ⊢
    rw [List.foldlM_append, hok, ok_bind, List.foldlM_cons, hok']
    rfl

/-! ## The comparison -/

/-- A product that is not ordered does not come in. -/
theorem nombreLignes_of_nombreDe {Log : List Str} (hlignes : ∀ line ∈ Log, LigneAdmise ds line)
    (hp : nombreDe ds p = 0) : nombreLignes "NouveauProduit" p Log = 0 := by
  unfold nombreLignes
  rw [List.countP_eq_zero]
  intro line hline hest
  obtain ⟨hID, hP⟩ := of_decide_eq_true hest
  have hautre : ∀ q, 0 < nombreDe ds q → produitDe line = .ok q → False := by
    intro q hq hPq
    rw [hP] at hPq
    cases hPq
    omega
  cases hlignes line hline with
  | nouveauProduit q time hID' hq hPq htype htime => exact hautre q hq hPq
  | tempoT q d T hID' hq hPq hposte hd hT => exact hautre q hq hPq
  | sortie q time hID' hq hPq htype htaches hlen htime => exact hautre q hq hPq
  | autre h => exact h "NouveauProduit" (by decide) hID

/-- The durations of the log are those of its lines. -/
theorem mem_tempos {Log : List Str} {d : ℤ} {T : F} :
    (p, d, T) ∈ Log.filterMap tempoDe ↔
      ∃ line ∈ Log, EstLigne "TempoT" p line ∧ posteDe line = .ok d ∧ dureeDe line = .ok T := by
  rw [List.mem_filterMap]
  simp only [tempoDe_eq_some]

/-- A duration that is compared is the one of the log, or zero. -/
theorem durees_egales (hzero : Floating.eq (Floating.zero : F) Floating.zero = true)
    (hdistincts : (ds.map Declaration.produit).Nodup) {Log : List Str} (hLog : LogAdmis ds Log)
    (hp : 0 < nombreDe ds p) (d : ℤ) :
    let attendue := (derniere (ds.flatMap Declaration.temps) p d).getD Floating.zero
    Floating.eq attendue ((derniere (Log.filterMap tempoDe) p d).getD Floating.zero) = true ∨
      Floating.eq attendue Floating.zero = true := by
  intro attendue
  cases hx : derniere (ds.flatMap Declaration.temps) p d with
  | none =>
    have hattendue : attendue = Floating.zero := by
      show (derniere _ p d).getD _ = _
      rw [hx]
      rfl
    rw [hattendue]
    exact .inr hzero
  | some x =>
    have hattendue : attendue = x := by
      show (derniere _ p d).getD _ = _
      rw [hx]
      rfl
    obtain ⟨D, hD, hmem⟩ := List.mem_flatMap.1 (mem_of_derniere hx)
    obtain ⟨⟨d', x'⟩, hzip, heq⟩ := List.mem_map.1 hmem
    cases heq
    have hnombre : 0 < D.nombre := by
      unfold nombreDe at hp
      rwa [declarationDe_of_mem hdistincts hD] at hp
    by_cases hnonzero : Floating.eq x' Floating.zero = true
    · exact .inr (hattendue ▸ hnonzero)
    -- the last duration of the log is the one of some line
    obtain ⟨⟨line, hline, hest, hposte⟩, htoutes⟩ :=
      hLog.tempos D hD hnombre (d', x') hzip (Bool.not_eq_true _ ▸ hnonzero)
    obtain ⟨T, hT, -⟩ := htoutes line hline hest hposte
    obtain ⟨T', hT'⟩ := exists_derniere (mem_tempos.2 ⟨line, hline, hest, hposte, hT⟩)
    obtain ⟨line', hline', hest', hposte', hduree'⟩ := mem_tempos.1 (mem_of_derniere hT')
    obtain ⟨T'', hT'', hegales⟩ := htoutes line' hline' hest' hposte'
    rw [hduree'] at hT''
    cases hT''
    rw [hattendue, hT']
    exact .inl hegales

/-- The comparison of the tables finds nothing. -/
theorem comparer_eq {j₀ : Journal F} (ht : c.Tables ds) (hnb : c.nbProduit.length = 6) {Log : List Str}
    (hnouveaux : ∀ p, 1 ≤ p → p ≤ 6 →
      j₀.nbProduitNew[(p - 1).toNat]? = some (nombreLignes "NouveauProduit" p Log : ℤ))
    (hsortis : ∀ p, 1 ≤ p → p ≤ 6 →
      j₀.nbProduitLog[(p - 1).toNat]? = some (nombreLignes "Sortie" p Log : ℤ))
    {temps tempsLog : List (List F)} (hforme : Rectangle temps)
    (hdurees : ∀ p d, DansTable p d → 0 < nombreDe ds p → ∀ a b, caseDe temps p d = some a →
      caseDe tempsLog p d = some b → Floating.eq a b = true ∨ Floating.eq a Floating.zero = true)
    (hds : ∀ D ∈ ds, D.Correcte)
    (hnombres : ∀ p, 1 ≤ p → p ≤ 6 →
      nombreDe ds p = nombreLignes "NouveauProduit" p Log ∧
        (nombreDe ds p = nombreLignes "Sortie" p Log ∨ nombreDe ds p = 0)) :
    j₀.comparer c temps tempsLog = j₀ := by
  -- row `i` is that of product `i + 1`
  have hproduit : ∀ (i : ℕ) (n : ℤ), c.nbProduit[i]? = some n →
      (1 ≤ (i + 1 : ℤ) ∧ (i + 1 : ℤ) ≤ 6) ∧ n = nombreDe ds (i + 1) := by
    intro i n hi
    have hlt := (List.getElem?_eq_some_iff.1 hi).1
    have hp₁ : 1 ≤ (i + 1 : ℤ) := by omega
    have hp₂ : (i + 1 : ℤ) ≤ 6 := by omega
    have hnombre := ht.nombre (i + 1) hp₁ hp₂
    rw [add_sub_cancel_right, Int.toNat_natCast, hi] at hnombre
    exact ⟨⟨hp₁, hp₂⟩, Option.some.inj hnombre⟩
  have hpasDurees : ∀ j : Journal F, ∀ x ∈ (c.nbProduit.zip (temps.zip tempsLog)).zipIdx,
      j.comparerDurees x = j := by
    rintro j ⟨⟨n, r, r'⟩, i⟩ hx
    obtain ⟨hi, hrr⟩ := List.getElem?_zip_eq_some.1 (List.mem_zipIdx_iff_getElem?.1 hx)
    obtain ⟨hr, hr'⟩ := List.getElem?_zip_eq_some.1 hrr
    obtain ⟨hp, hn⟩ := hproduit i n hi
    apply Journal.foldl_eq_self
    rintro j ⟨⟨a, b⟩, k⟩ hy
    obtain ⟨ha, hb⟩ := List.getElem?_zip_eq_some.1 (List.mem_zipIdx_iff_getElem?.1 hy)
    have hk := (List.getElem?_eq_some_iff.1 ha).1
    dsimp only at hi hr hr' ha hb hk
    rw [hforme.2 i r hr] at hk
    have hd : 1 ≤ (k + 1 : ℤ) ∧ (k + 1 : ℤ) ≤ 8 := by omega
    have hcase : ∀ (t : List (List F)) (l : List F) (v : F), t[i]? = some l → l[k]? = some v →
        caseDe t (i + 1) (k + 1) = some v := by
      intro t l v hl hv
      unfold caseDe
      rw [add_sub_cancel_right, add_sub_cancel_right, Int.toNat_natCast, Int.toNat_natCast, hl,
        Option.bind_some, hv]
    unfold Journal.comparerDuree
    rw [if_neg]
    rintro ⟨hdiff, hattendus, hnonzero⟩
    have hpos : 0 < nombreDe ds (i + 1) :=
      lt_of_le_of_ne (nombreDe_nonneg hds _) fun h => hattendus (hn.trans h.symm)
    rcases hdurees _ _ ⟨hp, hd⟩ hpos a b (hcase _ _ _ hr ha) (hcase _ _ _ hr' hb) with heq | heq
    · exact absurd (heq.symm.trans hdiff) (by decide)
    · exact absurd (heq.symm.trans hnonzero) (by decide)
  have hpasNombres : ∀ j : Journal F, ∀ x ∈
      (c.nbProduit.zip (j₀.nbProduitNew.zip j₀.nbProduitLog)).zipIdx, j.comparerNombres x = j := by
    rintro j ⟨⟨n, new, log⟩, i⟩ hx
    obtain ⟨hi, hcomptes⟩ := List.getElem?_zip_eq_some.1 (List.mem_zipIdx_iff_getElem?.1 hx)
    obtain ⟨hnew, hlog⟩ := List.getElem?_zip_eq_some.1 hcomptes
    obtain ⟨⟨hp₁, hp₂⟩, hn⟩ := hproduit i n hi
    have hnew' := hnouveaux _ hp₁ hp₂
    have hlog' := hsortis _ hp₁ hp₂
    rw [add_sub_cancel_right, Int.toNat_natCast] at hnew' hlog'
    dsimp only at hnew hlog
    rw [hnew] at hnew'
    rw [hlog] at hlog'
    obtain ⟨happarus, hpartis⟩ := hnombres _ hp₁ hp₂
    unfold Journal.comparerNombres Journal.comparerApparus Journal.comparerSortis
    dsimp only
    rw [Option.some.inj hnew', Option.some.inj hlog', hn, if_neg (not_not.2 happarus), if_neg]
    rintro ⟨hdiff, hattendus⟩
    exact hpartis.elim hdiff hattendus
  unfold Journal.comparer
  dsimp only
  rw [Journal.foldl_eq_self _ hpasDurees, Journal.foldl_eq_self _ hpasNombres]

/-- Those of such a log too. -/
theorem dansTable_of_tempos (hds : ∀ D ∈ ds, D.Correcte) {Log : List Str}
    (hlignes : ∀ line ∈ Log, LigneAdmise ds line) :
    ∀ x ∈ Log.filterMap (tempoDe (F := F)), DansTable x.1 x.2.1 := by
  rintro ⟨p, d, T⟩ hx
  obtain ⟨line, hline, ⟨hID, hP⟩, hposte, -⟩ := mem_tempos.1 hx
  cases hlignes line hline with
  | nouveauProduit q time hID' hq hPq htype htime =>
    exact absurd (hID.symm.trans hID') (by decide)
  | tempoT q d' T' hID' hq hPq hposte' hd hT =>
    rw [hP] at hPq
    rw [hposte] at hposte'
    cases hPq
    cases hposte'
    exact ⟨produit_le_six hds hq, hd⟩
  | sortie q time hID' hq hPq htype htaches hlen htime =>
    exact absurd (hID.symm.trans hID') (by decide)
  | autre h => exact absurd hID (h "TempoT" (by decide))

/-- The script on such a configuration: the log is read, its durations are tabulated, and the two
are compared. -/
theorem ConfigDistincte.execution {contenu : List Str} (h : ConfigDistincte (F := F) contenu) :
    ∃ (c : Config F) (temps : List (List F)), Config.initial.lireLignes contenu = .ok c ∧
      c.erreurConfig = 0 ∧ c.Tables (declarations contenu) ∧ c.nbProduit.length = 6 ∧
      remplirTemps ((declarations contenu).flatMap Declaration.temps) = .ok temps ∧
      ∀ Log, checker contenu Log = (do
        let j ← Journal.lireLog c .initial Log
        let tempsLog ← remplirTemps j.verifConfigLog
        pure (c, (j.moyennes.comparer c temps tempsLog).conclure c)) := by
  obtain ⟨c, hc, hz, hverif, htables, hnb⟩ := h.lue
  obtain ⟨temps, htemps, -⟩ := remplirTemps_ok (dansTable_of_temps h.valides)
  refine ⟨c, temps, hc, hz, htables, hnb, htemps, ?_⟩
  intro Log
  unfold checker
  rw [hc, ok_bind, if_pos hz, hverif, htemps, ok_bind]

/-- No error of declaration is found in it. -/
theorem ConfigValide.sans_erreur {contenu Log : List Str} (h : ConfigValide (F := F) contenu)
    (hok : checker contenu Log = .ok (c, j)) : c.erreurConfig = 0 := by
  obtain ⟨c₁, temps, -, hz, -, -, -, hchecker⟩ := h.distincte.execution
  rw [hchecker] at hok
  obtain ⟨j₁, -, hok⟩ := bind_eq_ok.1 hok
  obtain ⟨tempsLog, -, hok⟩ := bind_eq_ok.1 hok
  cases hok
  exact hz

/-- What the comparison looks at. -/
structure MemesComptes (j j' : Journal F) : Prop where
  test : j'.test = j.test
  nouveaux : j'.nbProduitNew = j.nbProduitNew
  sortis : j'.nbProduitLog = j.nbProduitLog
  tempos : j'.verifConfigLog = j.verifConfigLog

/-- A log is accepted when it leaves what an admissible log leaves to compare. -/
theorem checker_of_comptes (hzero : Floating.eq (Floating.zero : F) Floating.zero = true)
    {contenu Log Log' : List Str} (hconfig : ConfigValide (F := F) contenu)
    (hLog : LogAdmis (declarations (F := F) contenu) Log)
    (hsuite : ∀ (c : Config F) (j : Journal F), c.Tables (declarations contenu) →
      c.nbProduit.length = 6 → Journal.lireLog c .initial Log = .ok j → Juste c Log j →
      ∃ j', Journal.lireLog c .initial Log' = .ok j' ∧ MemesComptes j j') :
    ∃ (c : Config F) (j : Journal F), checker contenu Log' = .ok (c, j) ∧ c.erreurConfig = 0 ∧
      j.test = 1 := by
  have hds := hconfig.correctes
  obtain ⟨c, temps, -, hz, htables, hnb, htemps, hchecker⟩ := hconfig.distincte.execution
  obtain ⟨temps', htemps', hforme, hcases⟩ :=
    remplirTemps_ok (dansTable_of_temps hconfig.distincte.valides)
  obtain rfl : temps = temps' := Except.ok.inj (htemps.symm.trans htemps')
  obtain ⟨j, hj, hjuste⟩ := juste_lireLog htables hds hLog.lignes hLog.ordre
  obtain ⟨j', hj', hcomptes⟩ := hsuite c j htables hnb hj hjuste
  obtain ⟨tempsLog, htempsLog, -, hcasesLog⟩ :=
    remplirTemps_ok (dansTable_of_tempos hds hLog.lignes)
  -- a product that is not ordered counts for nothing
  have hnombres : ∀ p, 1 ≤ p → p ≤ 6 → nombreDe (declarations (F := F) contenu) p =
      nombreLignes "NouveauProduit" p Log ∧
      (nombreDe (declarations (F := F) contenu) p = nombreLignes "Sortie" p Log ∨
        nombreDe (declarations (F := F) contenu) p = 0) := by
    intro p _ _
    rcases (nombreDe_nonneg hds p).eq_or_lt with hp | hp
    · rw [nombreLignes_of_nombreDe hLog.lignes hp.symm, ← hp]
      exact ⟨rfl, .inr rfl⟩
    · exact ⟨(hLog.apparus p hp).symm, .inl (hLog.sortis p hp).symm⟩
  -- so the comparison reports nothing
  have hcomparer : j'.moyennes.comparer c temps tempsLog = j'.moyennes := by
    apply comparer_eq htables hnb ?_ ?_ hforme ?_ hds hnombres
    · intro p hp₁ hp₂
      exact hcomptes.nouveaux ▸ hjuste.accord.nouveaux p hp₁ hp₂
    · intro p hp₁ hp₂
      exact hcomptes.sortis ▸ hjuste.accord.sortis p hp₁ hp₂
    · intro p d hpd hp a b ha hb
      rw [hcases p d hpd] at ha
      rw [hcasesLog p d hpd] at hb
      rw [← Option.some.inj ha, ← Option.some.inj hb]
      exact durees_egales hzero hconfig.distincts hLog hp d
  refine ⟨c, (j'.moyennes.comparer c temps tempsLog).conclure c, ?_, hz, ?_⟩
  · rw [hchecker, hj', ok_bind, hcomptes.tempos, hjuste.tempos, htempsLog]
    rfl
  · rw [hcomparer, Journal.conclure_test]
    exact hcomptes.test.trans hjuste.test

/-- The script accepts the admissible logs. -/
theorem checker_of_admis (hzero : Floating.eq (Floating.zero : F) Floating.zero = true)
    {contenu Log : List Str} (hconfig : ConfigValide (F := F) contenu)
    (hLog : LogAdmis (declarations (F := F) contenu) Log) :
    ∃ (c : Config F) (j : Journal F), checker contenu Log = .ok (c, j) ∧ c.erreurConfig = 0 ∧
      j.test = 1 := by
  apply checker_of_comptes hzero hconfig hLog
  intro c j _ _ hj _
  exact ⟨j, hj, rfl, rfl, rfl, rfl⟩

end

/-- **Conforming logs are accepted**: for every valid configuration and every log that conforms to
it, the script ends without an exception, finds no error of declaration, and the log passes. Of the
numbers of the language, only that zero is equal to itself is used. -/
theorem checker_complete [Floating F] (hzero : Floating.eq (Floating.zero : F) Floating.zero = true)
    {contenu Log : List Str} (hconfig : ConfigValide (F := F) contenu)
    (hLog : LogConforme (declarations (F := F) contenu) Log) :
    ∃ (c : Config F) (j : Journal F), checker contenu Log = .ok (c, j) ∧ c.erreurConfig = 0 ∧
      j.test = 1 :=
  checker_of_admis hzero hconfig hLog.admis

deriving instance DecidableEq for Declaration

/-- What the configuration of one product declares. -/
def declarationUnProduit : Declaration ℚ where
  produit := 2
  destinations := [1, 4]
  durees := [4, 5]
  nombre := 1

theorem nombreDe_unProduit {p : ℤ} (hp : 0 < nombreDe [declarationUnProduit] p) : p = 2 := by
  obtain ⟨D, hD, rfl, -⟩ := exists_of_nombreDe hp.ne'
  rw [List.mem_singleton.1 hD]
  rfl

theorem logConforme_unProduit : LogConforme [declarationUnProduit] logUnProduit where
  lignes := by
    intro line hline
    simp only [logUnProduit, List.mem_cons, List.not_mem_nil, or_false] at hline
    rcases hline with rfl | rfl | rfl | rfl
    · exact .nouveauProduit 2 10 (by decide) (by decide) (by decide +kernel) (by decide +kernel)
        (by decide +kernel)
    · exact .tempoT 2 1 4 (by decide) (by decide) (by decide +kernel) (by decide +kernel) (by decide)
        (by decide +kernel)
    · exact .tempoT 2 4 5 (by decide) (by decide) (by decide +kernel) (by decide +kernel) (by decide)
        (by decide +kernel)
    · refine .sortie 2 (141 / 4) (by decide) (by decide) (by decide +kernel) (by decide +kernel) ?_
        (by decide +kernel) (by decide +kernel)
      refine ⟨["13".toList, "43".toList], ["0".toList], by decide +kernel, ?_, by decide +kernel⟩
      exact .cons (by decide +kernel) (.cons (by decide +kernel) .nil)
  apparus p hp := by
    rw [nombreDe_unProduit hp]
    decide +kernel
  sortis p hp := by
    rw [nombreDe_unProduit hp]
    decide +kernel
  ordre p hp lus hlus := by
    have hdebuts : ∀ lus ∈ logUnProduit.inits,
        nombreLignes "Sortie" 2 lus ≤ nombreLignes "NouveauProduit" 2 lus := by decide +kernel
    rw [nombreDe_unProduit hp]
    exact hdebuts lus ((List.mem_inits _ _).2 hlus)
  tempos D hD _ x hx := by
    rw [List.mem_singleton.1 hD] at hx ⊢
    have hpostes : ∀ x ∈ declarationUnProduit.destinations.zip declarationUnProduit.durees,
        (∃ line ∈ logUnProduit, EstLigne "TempoT" 2 line ∧ posteDe line = .ok x.1) ∧
        ∀ line ∈ logUnProduit, EstLigne "TempoT" 2 line → posteDe line = .ok x.1 →
          dureeDe line = .ok x.2 ∧ Floating.eq x.2 x.2 = true := by decide +kernel
    obtain ⟨hune, htoutes⟩ := hpostes x hx
    exact ⟨hune, fun line hline hest hposte => ⟨x.2, htoutes line hline hest hposte⟩⟩

theorem declaration_unProduit :
    declaration "2 : 1 4 : 4 5 : 1\n".toList = .ok (some declarationUnProduit) := by decide +kernel

theorem declarations_unProduit : declarations (F := ℚ) configUnProduit = [declarationUnProduit] :=
  (declarations_cons_none rfl _).trans (declarations_cons_some declaration_unProduit [])

theorem configValide_unProduit : ConfigValide (F := ℚ) configUnProduit :=
  (configValide_une declaration_unProduit (by decide)).blanche rfl

/-- The log of a run that makes the product that is ordered. -/
theorem checker_complete_unProduit : ∃ (c : Config ℚ) (j : Journal ℚ),
    checker configUnProduit logUnProduit = .ok (c, j) ∧ c.erreurConfig = 0 ∧ j.test = 1 := by
  have hLog : LogConforme (declarations (F := ℚ) configUnProduit) logUnProduit := by
    rw [declarations_unProduit]
    exact logConforme_unProduit
  exact checker_complete (by decide +kernel) configValide_unProduit hLog

end Checker
