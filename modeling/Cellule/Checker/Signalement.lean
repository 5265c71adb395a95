import Cellule.Checker.Presentation

/-! # What happens to a malformed configuration

The fields of a line are converted one after the other, and the checks set a flag without stopping
the loop. A line that cannot be read ends the script with an exception; a line that can be read and
breaks a rule is reported; fields after the fourth one are passed over in silence.
-/

namespace Checker

open Python

variable {F : Type}

/-! ## Lines -/

/-- Only spaces, and the end of the line. -/
def Blanche (ligne : Str) : Prop := ∀ a ∈ ligne, a = ' ' ∨ a = '\n'

/-- Such a line has one field. -/
theorem Blanche.length_split {ligne : Str} (h : Blanche ligne) : (split ':' ligne).length = 1 := by
  have hmem : ':' ∉ ligne := by
    intro hmem
    have hne := h ':' hmem
    revert hne
    decide
  have hsplit : split ':' ligne = [ligne] := List.splitOn_eq_singleton hmem
  rw [hsplit]
  rfl

/-- The product number at the start of a line. -/
def produitLu (ligne : Str) : Except Exception ℤ := int (remove ' ' ((split ':' ligne).headD []))

/-- The number at the start of a line names no product. -/
def HorsCatalogue (ligne : Str) : Prop := ∃ p, produitLu ligne = .ok p ∧ (p < 1 ∨ 6 < p)

instance (ligne : Str) : Decidable (HorsCatalogue ligne) :=
  match h : produitLu ligne with
  | .ok p => decidable_of_iff (p < 1 ∨ 6 < p) (by simp [HorsCatalogue, h])
  | .error _ => isFalse (by simp [HorsCatalogue, h])

/-- The lines up to the first one whose number names no product, which ends the loop. -/
def lignesLues : List Str → List Str
  | [] => []
  | ligne :: contenu => if HorsCatalogue ligne then [ligne] else ligne :: lignesLues contenu

/-- A line printed that starts with `ERREUR`. -/
def Message.EstErreur (m : Message F) : Prop := "ERREUR".toList <+: m.debut.toList

/-- The lines of the recapitulation. -/
def Message.recapitule : Message F → Bool
  | .assemblage _ _ _ => true
  | .tempsMoyen _ => true
  | _ => false

/-- All the lines but those of the recapitulation start with `ERREUR`. -/
theorem Message.estErreur_iff {m : Message F} : m.EstErreur ↔ m.recapitule = false := by
  unfold EstErreur
  cases m <;> simp [debut, recapitule]

section

variable [Floating F]

/-- A line whose first four fields are the numbers of a declaration; `suite` are the other
fields. -/
def Ecrite (suite : List Str) (D : Declaration F) (ligne : Str) : Prop :=
  ∃ nom destinations durees nombre,
    split ':' ligne = nom :: destinations :: durees :: nombre :: suite ∧
    int (remove ' ' nom) = .ok D.produit ∧ (separer destinations).mapM int = .ok D.destinations ∧
    (separer durees).mapM float = .ok D.durees ∧ int nombre = .ok D.nombre

variable (F) in
/-- A line that can be read. -/
inductive Lisible (ligne : Str) : Prop
  | blanche (n : ℕ) (h : ligne = blancs n ++ ['\n'])
  | horsCatalogue (h : HorsCatalogue ligne)
  | ecrite (suite : List Str) (D : Declaration F) (h : Ecrite suite D ligne)

variable (F) in
/-- A line that is reported: its product is none, or its declaration breaks a rule. -/
def EnErreur (ligne : Str) : Prop :=
  HorsCatalogue ligne ∨ ∃ (suite : List Str) (D : Declaration F), Ecrite suite D ligne ∧ ¬ D.Valide

variable (F) in
/-- A line of four fields that is a valid declaration. -/
def LigneDeclaree (ligne : Str) : Prop := ∃ D : Declaration F, Ecrite [] D ligne ∧ D.Valide

/-- The script up to the log: the tables, and the durations once no error was found. -/
def phaseConfig (contenu : List Str) : Except Exception (Config F × List (List F)) := do
  let c ← Config.initial.lireLignes contenu
  if c.erreurConfig = 0 then do
    let temps ← remplirTemps c.verifConfig
    pure (c, temps)
  else pure (c, List.replicate 6 (List.replicate 8 Floating.zero))

variable (F) in
/-- The configuration is read without an exception, and an error is printed and noted, or every line
is blank or a valid declaration. -/
def Signalee (contenu : List Str) : Prop :=
  ∃ (c : Config F) (temps : List (List F)), phaseConfig contenu = .ok (c, temps) ∧
    ((c.erreurConfig = 1 ∧ ∃ m ∈ c.affichage, m.EstErreur) ∨
      ∀ ligne ∈ contenu, Blanche ligne ∨ LigneDeclaree F ligne)

/-- The script reads on a line the declaration that its fields hold. -/
theorem declaration_iff {ligne : Str} {D : Declaration F} :
    declaration ligne = .ok (some D) ↔ ∃ suite, Ecrite suite D ligne := by
  unfold declaration
  dsimp only
  constructor
  · intro h
    obtain ⟨nom, h₀, h⟩ := bind_eq_ok.1 h
    split_ifs at h with hnom
    · obtain ⟨produit, hproduit, h⟩ := bind_eq_ok.1 h
      obtain ⟨champ₁, h₁, h⟩ := bind_eq_ok.1 h
      obtain ⟨destinations, hdest, h⟩ := bind_eq_ok.1 h
      obtain ⟨champ₂, h₂, h⟩ := bind_eq_ok.1 h
      obtain ⟨durees, hdurees, h⟩ := bind_eq_ok.1 h
      obtain ⟨champ₃, h₃, h⟩ := bind_eq_ok.1 h
      obtain ⟨nombre, hnombre, h⟩ := bind_eq_ok.1 h
      cases h
      -- the fourth subscript says that there are four fields
      rcases hsplit : split ':' ligne with _ | ⟨a, _ | ⟨b, _ | ⟨c, _ | ⟨d, suite⟩⟩⟩⟩
      all_goals rw [hsplit] at h₀ h₁ h₂ h₃
      · cases h₀
      · cases h₁
      · cases h₂
      · cases h₃
      · cases h₀
        cases h₁
        cases h₂
        cases h₃
        exact ⟨suite, _, _, _, _, hsplit, hproduit, hdest, hdurees, hnombre⟩
    · cases h
  · rintro ⟨suite, nom, destinations, durees, nombre, hsplit, hproduit, hdest, hdurees, hnombre⟩
    have hnom : remove ' ' nom ≠ ['\n'] := by
      intro h
      rw [h] at hproduit
      cases hproduit
    rw [hsplit, item_cons_zero, ok_bind, if_pos hnom, hproduit, ok_bind, item_cons_one, ok_bind, hdest,
      ok_bind, item_cons_two, ok_bind, hdurees, ok_bind, item_cons_three, ok_bind, hnombre, ok_bind]
    rfl

theorem produitLu_ecrite {suite : List Str} {ligne : Str} {D : Declaration F}
    (h : Ecrite suite D ligne) : produitLu ligne = .ok D.produit := by
  obtain ⟨nom, destinations, durees, nombre, hsplit, hproduit, -⟩ := h
  unfold produitLu
  rw [hsplit]
  exact hproduit

/-- A declaration has four fields before the others. -/
theorem Ecrite.length_split {suite : List Str} {ligne : Str} {D : Declaration F}
    (h : Ecrite suite D ligne) : (split ':' ligne).length = suite.length + 4 := by
  obtain ⟨nom, destinations, durees, nombre, hsplit, -⟩ := h
  rw [hsplit]
  rfl

/-- A line that has the end of line only at its end, and nothing else before its first colon, is
blank. -/
theorem eq_blancs {ligne nom : Str} {suite : List Str} (hfin : '\n' ∉ ligne.dropLast)
    (hsplit : split ':' ligne = nom :: suite) (hnom : remove ' ' nom = ['\n']) :
    ∃ n, ligne = blancs n ++ ['\n'] := by
  have hmem : '\n' ∈ nom := by
    have h : '\n' ∈ remove ' ' nom := by
      rw [hnom]
      exact List.mem_cons_self
    exact (List.mem_filter.1 h).1
  have hligne := flatMap_of_split hsplit
  -- a second field would come after the end of line
  have hsuite : suite = [] := by
    cases suite with
    | nil => rfl
    | cons champ suite =>
      exfalso
      apply hfin
      rw [hligne, List.flatMap_cons, List.dropLast_append_of_ne_nil (by simp)]
      exact List.mem_append_left _ hmem
  subst hsuite
  rw [List.flatMap_nil, List.append_nil] at hligne
  subst hligne
  obtain ⟨debut, c, rfl⟩ : ∃ debut c, ligne = debut ++ [c] :=
    ⟨ligne.dropLast, ligne.getLast (List.ne_nil_of_mem hmem), (List.dropLast_concat_getLast _).symm⟩
  rw [List.dropLast_concat] at hfin
  have hdebut : ∀ a ∈ debut, a = ' ' := by
    intro a ha
    by_contra hne
    have h : a ∈ remove ' ' (debut ++ [c]) :=
      List.mem_filter.2 ⟨List.mem_append_left _ ha, by simpa using hne⟩
    rw [hnom, List.mem_singleton] at h
    exact hfin (h ▸ ha)
  refine ⟨debut.length, ?_⟩
  have heq : debut = blancs debut.length := List.eq_replicate_iff.2 ⟨rfl, hdebut⟩
  rw [heq, remove_append, remove_blancs, List.nil_append] at hnom
  have hc : c = '\n' := by
    have h : '\n' ∈ remove ' ' [c] := by
      rw [hnom]
      exact List.mem_cons_self
    exact (List.mem_singleton.1 (List.mem_filter.1 h).1).symm
  rw [hc, ← heq]

end

/-! ## The messages of a declaration -/

/-- The messages on the destinations of a declaration and on the number of its durations. -/
def Declaration.messages (D : Declaration F) : List (Message F) :=
  (D.destinations.filter fun d => d < 1 ∨ d > 8).map (fun _ => .mauvaiseDestination) ++
    (if D.destinations.length > maxTaches then [.tropDeDestinations] else []) ++
    (if D.destinations.length ≠ D.durees.length then [.pasAutantDeDurees] else [])

theorem Declaration.messages_eq_nil_iff {D : Declaration F} (hp : 1 ≤ D.produit ∧ D.produit ≤ 6) :
    D.messages = [] ↔ D.Valide := by
  unfold Declaration.messages
  rw [List.append_eq_nil_iff, List.append_eq_nil_iff, List.map_eq_nil_iff, List.filter_eq_nil_iff]
  constructor
  · rintro ⟨⟨hdest, hnombre⟩, hdurees⟩
    refine ⟨hp.1, hp.2, ?_, ?_, ?_⟩
    · intro d hd
      have h := hdest d hd
      simp only [decide_eq_true_eq] at h
      omega
    · by_contra h
      rw [if_pos (by omega)] at hnombre
      cases hnombre
    · by_contra h
      rw [if_pos (Ne.symm h)] at hdurees
      cases hdurees
  · rintro ⟨-, -, hdest, hnombre, hdurees⟩
    refine ⟨⟨?_, if_neg (by omega)⟩, if_neg (fun h => h hdurees.symm)⟩
    intro d hd
    have h := hdest d hd
    simp only [decide_eq_true_eq]
    omega

/-- Messages are printed, and the flag is set with the first of them. -/
structure Config.Annonce (c c' : Config F) (ms : List (Message F)) : Prop where
  affichage : c'.affichage = c.affichage ++ ms
  erreur : c'.erreurConfig = if ms = [] then c.erreurConfig else 1

namespace Config

theorem Annonce.refl (c : Config F) : Annonce c c [] where
  affichage := (List.append_nil _).symm
  erreur := (if_pos rfl).symm

theorem Annonce.trans {c c' c'' : Config F} {ms ms' : List (Message F)} (h : Annonce c c' ms)
    (h' : Annonce c' c'' ms') : Annonce c c'' (ms ++ ms') where
  affichage := by rw [h'.affichage, h.affichage, List.append_assoc]
  erreur := by
    rw [h'.erreur, h.erreur]
    by_cases hms : ms = [] <;> by_cases hms' : ms' = [] <;> simp [hms, hms']

theorem annonce_signaler (c : Config F) (m : Message F) : Annonce c (c.signaler m) [m] where
  affichage := rfl
  erreur := rfl

/-- A check that prints a message or does nothing. -/
theorem annonce_ite (c : Config F) (P : Prop) [Decidable P] (m : Message F) :
    Annonce c (if P then c.signaler m else c) (if P then [m] else []) := by
  split_ifs
  · exact annonce_signaler c m
  · exact Annonce.refl c

theorem annonce_destinations (c : Config F) (tacheVar : List ℤ) :
    Annonce c (tacheVar.foldl verifierDestination c)
      ((tacheVar.filter fun d => d < 1 ∨ d > 8).map fun _ => .mauvaiseDestination) := by
  induction tacheVar generalizing c with
  | nil => exact Annonce.refl c
  | cons d ds ih =>
    have hpas := annonce_ite c (d < 1 ∨ d > 8) .mauvaiseDestination
    have hsuite := hpas.trans (ih (c.verifierDestination d))
    rw [List.foldl_cons, List.filter_cons]
    by_cases hd : d < 1 ∨ d > 8
    · rw [if_pos hd] at hsuite
      rwa [if_pos (by simpa using hd), List.map_cons]
    · rw [if_neg hd] at hsuite
      rwa [if_neg (by simpa using hd)]

/-- The tables do not show in what is printed. -/
theorem annonce_remplirProduction (c : Config F) (p : ℤ) (tacheVar : List ℤ) :
    Annonce c (c.remplirProduction p tacheVar) [] := by
  unfold remplirProduction
  split_ifs
  · exact ⟨(List.append_nil _).symm, (if_pos rfl).symm⟩
  · exact Annonce.refl c

theorem annonce_remplirVerif (c : Config F) (p : ℤ) (tacheVar : List ℤ) (dureVar : List F) :
    Annonce c (c.remplirVerif p tacheVar dureVar) [] := by
  unfold remplirVerif
  split_ifs
  · exact ⟨(List.append_nil _).symm, (if_pos rfl).symm⟩
  · exact Annonce.refl c

/-- The check that sets the flag without a message comes with another message: there are too many
destinations, or not as many as durations. -/
theorem annonce_durees {c c' : Config F} {D : Declaration F} (p : ℤ)
    (h : Annonce c c' ((D.destinations.filter fun d => d < 1 ∨ d > 8).map
      (fun _ => Message.mauvaiseDestination) ++
      (if D.destinations.length > maxTaches then [.tropDeDestinations] else []))) :
    Annonce c (((c'.verifierDurees D.durees).commander p D.nombre).verifierTailles D.destinations
      D.durees) D.messages := by
  have htailles := annonce_ite ((c'.verifierDurees D.durees).commander p D.nombre)
    (D.destinations.length ≠ D.durees.length) .pasAutantDeDurees
  by_cases hdurees : D.durees.length > maxTaches
  · have hne : D.messages ≠ [] := by
      intro hnil
      unfold Declaration.messages at hnil
      rw [List.append_eq_nil_iff, List.append_eq_nil_iff] at hnil
      obtain ⟨⟨-, hnombre⟩, hegal⟩ := hnil
      by_cases hlen : D.destinations.length = D.durees.length
      · rw [if_pos (by omega)] at hnombre
        cases hnombre
      · rw [if_pos hlen] at hegal
        cases hegal
    constructor
    · have haffichage :
          ((c'.verifierDurees D.durees).commander p D.nombre).affichage = c'.affichage := by
        unfold verifierDurees
        rw [if_pos hdurees]
        rfl
      rw [Declaration.messages, ← List.append_assoc, ← h.affichage, ← haffichage]
      exact htailles.affichage
    · have herreur : ((c'.verifierDurees D.durees).commander p D.nombre).erreurConfig = 1 := by
        unfold verifierDurees
        rw [if_pos hdurees]
        rfl
      rw [if_neg hne]
      refine htailles.erreur.trans ?_
      rw [herreur, ite_self]
  · have hverif : c'.verifierDurees D.durees = c' := if_neg hdurees
    rw [hverif] at htailles ⊢
    have hcommande : Annonce c' (c'.commander p D.nombre) [] :=
      ⟨(List.append_nil _).symm, (if_pos rfl).symm⟩
    have htout := (h.trans hcommande).trans htailles
    rwa [List.append_nil] at htout

variable [Floating F] {suite : List Str} {D : Declaration F} {ligne : Str} {contenu : List Str}

/-- A line that is a declaration of a product of the catalogue. -/
theorem lireLigne_ecrite (c : Config F) (h : Ecrite suite D ligne)
    (hp : 1 ≤ D.produit ∧ D.produit ≤ 6) :
    ∃ c', c.lireLigne ligne = .ok (c', false) ∧ Annonce c c' D.messages := by
  obtain ⟨nom, destinations, durees, nombre, hsplit, hproduit, hdest, hdurees, hnombre⟩ := h
  have hnom : remove ' ' nom ≠ ['\n'] := by
    intro h
    rw [h] at hproduit
    cases hproduit
  -- the checks of the destinations, then those of the durations
  have hdestinations := ((annonce_destinations c D.destinations).trans
    (annonce_ite _ (D.destinations.length > maxTaches) .tropDeDestinations)).trans
      (annonce_remplirProduction _ D.produit D.destinations)
  rw [List.append_nil] at hdestinations
  have hligne := (annonce_durees D.produit hdestinations).trans
    (annonce_remplirVerif _ D.produit D.destinations D.durees)
  rw [List.append_nil] at hligne
  refine ⟨_, ?_, hligne⟩
  unfold lireLigne lireProduit
  rw [hsplit]
  dsimp only
  rw [item_cons_zero, ok_bind, if_pos hnom, hproduit, ok_bind, if_neg (by omega), item_cons_one,
    ok_bind, hdest, ok_bind, item_cons_two, ok_bind, hdurees, ok_bind, item_cons_three, ok_bind,
    hnombre, ok_bind]
  rfl

/-- A number that names no product ends the loop. -/
theorem lireLigne_horsCatalogue (c : Config F) (h : HorsCatalogue ligne) :
    c.lireLigne ligne = .ok (c.signaler .mauvaisProduit, true) := by
  obtain ⟨p, hp, hhors⟩ := h
  unfold produitLu at hp
  obtain ⟨nom, suite, hsplit⟩ := List.exists_cons_of_ne_nil (List.splitOn_ne_nil ':' ligne)
  change split ':' ligne = nom :: suite at hsplit
  rw [hsplit, List.headD_cons] at hp
  have hnom : remove ' ' nom ≠ ['\n'] := by
    intro h
    rw [h] at hp
    cases hp
  unfold lireLigne lireProduit
  rw [hsplit]
  dsimp only
  rw [item_cons_zero, ok_bind, if_pos hnom, hp, ok_bind, if_pos (by omega)]
  rfl

/-- A line that does not end the script can be read. -/
theorem lisible_of_lireLigne {c : Config F} {r : Config F × Bool} (hfin : '\n' ∉ ligne.dropLast)
    (h : c.lireLigne ligne = .ok r) : Lisible F ligne := by
  obtain ⟨nom, suite, hsplit⟩ := List.exists_cons_of_ne_nil (List.splitOn_ne_nil ':' ligne)
  change split ':' ligne = nom :: suite at hsplit
  unfold lireLigne at h
  rw [hsplit] at h
  dsimp only at h
  rw [item_cons_zero, ok_bind] at h
  by_cases hnom : remove ' ' nom = ['\n']
  · obtain ⟨n, hn⟩ := eq_blancs hfin hsplit hnom
    exact .blanche n hn
  · rw [if_pos hnom] at h
    unfold lireProduit at h
    obtain ⟨p, hp, h⟩ := bind_eq_ok.1 h
    dsimp only at h
    split_ifs at h with hrange
    · refine .horsCatalogue ⟨p, ?_, by omega⟩
      unfold produitLu
      rwa [hsplit]
    · obtain ⟨champ₁, h₁, h⟩ := bind_eq_ok.1 h
      obtain ⟨destinations, hdest, h⟩ := bind_eq_ok.1 h
      obtain ⟨champ₂, h₂, h⟩ := bind_eq_ok.1 h
      obtain ⟨durees, hdurees, h⟩ := bind_eq_ok.1 h
      obtain ⟨champ₃, h₃, h⟩ := bind_eq_ok.1 h
      obtain ⟨nombre, hnombre, h⟩ := bind_eq_ok.1 h
      -- the same reading declares a product
      have hdecl : declaration ligne = .ok (some { produit := p, destinations, durees, nombre }) := by
        unfold declaration
        rw [hsplit]
        dsimp only
        rw [item_cons_zero, ok_bind, if_pos hnom, hp, ok_bind, h₁, ok_bind, hdest, ok_bind, h₂, ok_bind,
          hdurees, ok_bind, h₃, ok_bind, hnombre, ok_bind]
        rfl
      obtain ⟨suite', hecrite⟩ := declaration_iff.1 hdecl
      exact .ecrite suite' _ hecrite

/-! ## The loop over the lines -/

omit [Floating F] in
theorem estErreur_messages {m : Message F} (hm : m ∈ D.messages) : m.EstErreur := by
  rw [Message.estErreur_iff]
  unfold Declaration.messages at hm
  rcases List.mem_append.1 hm with hm | hm
  · rcases List.mem_append.1 hm with hm | hm
    · obtain ⟨d, -, rfl⟩ := List.mem_map.1 hm
      rfl
    · split_ifs at hm
      · rw [List.mem_singleton.1 hm]
        rfl
      · cases hm
  · split_ifs at hm
    · rw [List.mem_singleton.1 hm]
      rfl
    · cases hm

/-- A line that can be read is read: the loop goes on or is left, and what is printed tells whether
the line is in error. -/
theorem lireLigne_lisible (c : Config F) (h : Lisible F ligne) :
    ∃ c' ms, c.lireLigne ligne = .ok (c', decide (HorsCatalogue ligne)) ∧ Annonce c c' ms ∧
      (ms ≠ [] ↔ EnErreur F ligne) ∧ ∀ m ∈ ms, m.EstErreur := by
  by_cases hhors : HorsCatalogue ligne
  · refine ⟨_, _, ?_, annonce_signaler c .mauvaisProduit,
      iff_of_true (List.cons_ne_nil _ _) (.inl hhors), ?_⟩
    · rw [lireLigne_horsCatalogue c hhors, decide_eq_true hhors]
    · rintro m hm
      rw [List.mem_singleton.1 hm, Message.estErreur_iff]
      rfl
  · rw [decide_eq_false hhors]
    cases h with
    | blanche n h =>
      have hdecl : declaration (F := F) ligne = .ok none := by
        rw [h]
        exact declaration_blanche n
      refine ⟨c, [], lireLigne_blanche c hdecl, Annonce.refl c, ?_, by simp⟩
      refine iff_of_false (fun h => h rfl) ?_
      rintro (h | ⟨suite, D, hD, -⟩)
      · exact hhors h
      · rw [declaration_iff.2 ⟨suite, hD⟩] at hdecl
        cases hdecl
    | horsCatalogue h => exact absurd h hhors
    | ecrite suite D h =>
      have hp : 1 ≤ D.produit ∧ D.produit ≤ 6 := by
        by_contra hp
        exact hhors ⟨D.produit, produitLu_ecrite h, by omega⟩
      obtain ⟨c', hok, hc'⟩ := lireLigne_ecrite c h hp
      refine ⟨c', D.messages, hok, hc', ?_, fun m hm => estErreur_messages hm⟩
      rw [Ne, Declaration.messages_eq_nil_iff hp]
      constructor
      · exact fun hD => .inr ⟨suite, D, h, hD⟩
      · rintro (h' | ⟨suite', D', hD', hD'v⟩)
        · exact absurd h' hhors
        -- the fields of a line hold one declaration
        · have heq := (declaration_iff.2 ⟨suite, h⟩).symm.trans (declaration_iff.2 ⟨suite', hD'⟩)
          cases heq
          exact hD'v

/-- Lines that can be read are read, and what is printed tells whether one of them is in error. -/
theorem lireLignes_lisibles (c : Config F) (h : ∀ ligne ∈ lignesLues contenu, Lisible F ligne) :
    ∃ c' ms, c.lireLignes contenu = .ok c' ∧ Annonce c c' ms ∧
      (ms ≠ [] ↔ ∃ ligne ∈ lignesLues contenu, EnErreur F ligne) ∧ ∀ m ∈ ms, m.EstErreur := by
  induction contenu generalizing c with
  | nil => exact ⟨c, [], rfl, Annonce.refl c, by simp [lignesLues], by simp⟩
  | cons ligne contenu ih =>
    unfold lignesLues at h ⊢
    unfold lireLignes
    by_cases hhors : HorsCatalogue ligne
    · rw [if_pos hhors] at h ⊢
      obtain ⟨c', ms, hok, hc', hms, herr⟩ := lireLigne_lisible c (List.forall_mem_singleton.1 h)
      refine ⟨c', ms, ?_, hc', ?_, herr⟩
      · rw [hok, ok_bind, if_pos (decide_eq_true hhors)]
        rfl
      · rw [hms]
        simp
    · rw [if_neg hhors] at h ⊢
      obtain ⟨hligne, hsuite⟩ := List.forall_mem_cons.1 h
      obtain ⟨c₁, ms₁, hok₁, hc₁, hms₁, herr₁⟩ := lireLigne_lisible c hligne
      obtain ⟨c₂, ms₂, hok₂, hc₂, hms₂, herr₂⟩ := ih c₁ hsuite
      refine ⟨c₂, ms₁ ++ ms₂, ?_, hc₁.trans hc₂, ?_, ?_⟩
      · rw [hok₁, ok_bind, if_neg (by simpa using hhors)]
        exact hok₂
      · rw [List.exists_mem_cons_iff, ← hms₁, ← hms₂, Ne, List.append_eq_nil_iff, not_and_or]
      · intro m hm
        exact (List.mem_append.1 hm).elim (herr₁ m) (herr₂ m)

/-- When the loop ends, the lines up to the one that ends it can be read. -/
theorem lisibles_of_lireLignes {c c' : Config F} (hfin : ∀ ligne ∈ contenu, '\n' ∉ ligne.dropLast)
    (h : c.lireLignes contenu = .ok c') : ∀ ligne ∈ lignesLues contenu, Lisible F ligne := by
  induction contenu generalizing c with
  | nil =>
    intro ligne hligne
    cases hligne
  | cons ligne contenu ih =>
    obtain ⟨hligne, hsuite⟩ := List.forall_mem_cons.1 hfin
    obtain ⟨r, hr, h⟩ := bind_eq_ok.1 h
    have hlisible := lisible_of_lireLigne hligne hr
    unfold lignesLues
    split_ifs with hhors
    · exact List.forall_mem_singleton.2 hlisible
    · obtain ⟨c₁, ms, hok, -⟩ := lireLigne_lisible c hlisible
      cases hr.symm.trans hok
      rw [if_neg (by simpa using hhors)] at h
      exact List.forall_mem_cons.2 ⟨hlisible, ih hsuite h⟩

end Config

section

variable [Floating F] {contenu : List Str} {ligne : Str}

/-- Where no line is in error, all of them are read. -/
theorem lignesLues_eq (h : ¬ ∃ ligne ∈ lignesLues contenu, EnErreur F ligne) :
    lignesLues contenu = contenu := by
  induction contenu with
  | nil => rfl
  | cons ligne contenu ih =>
    unfold lignesLues at h ⊢
    split_ifs at h ⊢ with hhors
    · exact absurd ⟨ligne, List.mem_singleton_self _, .inl hhors⟩ h
    · rw [ih fun ⟨l, hl, herr⟩ => h ⟨l, List.mem_cons_of_mem _ hl, herr⟩]

/-- A line without an error declares a valid product, or nothing. -/
theorem Lisible.declaration (h : Lisible F ligne) (herr : ¬ EnErreur F ligne) :
    declaration (F := F) ligne = .ok none ∨
      ∃ D : Declaration F, declaration ligne = .ok (some D) ∧ D.Valide := by
  cases h with
  | blanche n h =>
    rw [h]
    exact .inl (declaration_blanche n)
  | horsCatalogue h => exact absurd (.inl h) herr
  | ecrite suite D h =>
    refine .inr ⟨D, declaration_iff.2 ⟨suite, h⟩, ?_⟩
    by_contra hD
    exact herr (.inr ⟨suite, D, h, hD⟩)

/-- Such a line is as it should be when it has no more than four fields. -/
theorem Lisible.conforme_iff (h : Lisible F ligne) (herr : ¬ EnErreur F ligne) :
    (Blanche ligne ∨ LigneDeclaree F ligne) ↔ (split ':' ligne).length ≤ 4 := by
  cases h with
  | blanche n h =>
    have hblanche : Blanche ligne := by
      intro a ha
      rw [h] at ha
      exact (List.mem_append.1 ha).imp List.eq_of_mem_replicate List.mem_singleton.1
    have hlength := hblanche.length_split
    exact iff_of_true (.inl hblanche) (by omega)
  | horsCatalogue h => exact absurd (.inl h) herr
  | ecrite suite D h =>
    have hlength := h.length_split
    constructor
    · rintro (hblanche | ⟨D', hD', -⟩)
      · have h1 := hblanche.length_split
        omega
      · have h4 := hD'.length_split
        simp only [List.length_nil] at h4
        omega
    · intro h4
      have hsuite : suite = [] := List.eq_nil_of_length_eq_zero (by omega)
      subst hsuite
      refine .inr ⟨D, h, ?_⟩
      by_contra hD
      exact herr (.inr ⟨[], D, h, hD⟩)

/-- Without an error, the durations of the lines read fill the table. -/
theorem phaseConfig_ok (h : ∀ ligne ∈ contenu, Lisible F ligne ∧ ¬ EnErreur F ligne) :
    ∃ c temps, phaseConfig (F := F) contenu = .ok (c, temps) ∧ c.erreurConfig = 0 := by
  have hlignes := fun ligne hligne => (h ligne hligne).1.declaration (h ligne hligne).2
  obtain ⟨c, hc, hz, hverif⟩ := Config.lireLignes_ok (c := .initial) rfl hlignes
  have hvalides : ∀ D ∈ declarations (F := F) contenu, D.Valide := by
    intro D hD
    obtain ⟨ligne, hligne, hdecl⟩ := declaration_of_mem hD
    rcases hlignes ligne hligne with hd | ⟨D', hd, hD'⟩
    · cases hdecl.symm.trans hd
    · cases hdecl.symm.trans hd
      exact hD'
  obtain ⟨temps, htemps, -⟩ := remplirTemps_ok (dansTable_of_temps hvalides)
  refine ⟨c, temps, ?_, hz⟩
  unfold phaseConfig
  rw [hc, ok_bind, if_pos hz, hverif]
  change (do
    let temps ← remplirTemps ((declarations (F := F) contenu).flatMap Declaration.temps)
    pure (c, temps)) = _
  rw [htemps]
  rfl

/-- **Errors of the configuration are reported** exactly when the lines up to the first bad product
number can be read, and either one of them is in error or no line has more than four fields. -/
theorem signalee_iff (texte : Str) :
    Signalee F (readlines texte) ↔
      (∀ ligne ∈ lignesLues (readlines texte), Lisible F ligne) ∧
        ((∃ ligne ∈ lignesLues (readlines texte), EnErreur F ligne) ∨
          ∀ ligne ∈ readlines texte, (split ':' ligne).length ≤ 4) := by
  constructor
  · rintro ⟨c, temps, hphase, hc⟩
    obtain ⟨c₁, hlignes, hphase⟩ := bind_eq_ok.1 hphase
    have hlisibles := Config.lisibles_of_lireLignes
      (fun ligne hligne => not_mem_dropLast_of_mem_lines hligne) hlignes
    refine ⟨hlisibles, ?_⟩
    by_cases herr : ∃ ligne ∈ lignesLues (readlines texte), EnErreur F ligne
    · exact .inl herr
    -- nothing is noted, so each line is as it should be
    · right
      obtain ⟨c₂, ms, hok, hannonce, hms, -⟩ := Config.lireLignes_lisibles .initial hlisibles
      cases hlignes.symm.trans hok
      have hz : c₁.erreurConfig = 0 := by
        rw [hannonce.erreur, if_pos (by_contra fun h => herr (hms.1 h))]
        rfl
      rw [if_pos hz] at hphase
      obtain ⟨temps', -, hphase⟩ := bind_eq_ok.1 hphase
      cases hphase
      intro ligne hligne
      have hligne' : ligne ∈ lignesLues (readlines texte) := by rwa [lignesLues_eq herr]
      apply ((hlisibles ligne hligne').conforme_iff fun h => herr ⟨ligne, hligne', h⟩).1
      rcases hc with ⟨hun, -⟩ | hc
      · rw [hz] at hun
        cases hun
      · exact hc ligne hligne
  · rintro ⟨hlisibles, hsuite⟩
    by_cases herr : ∃ ligne ∈ lignesLues (readlines texte), EnErreur F ligne
    · obtain ⟨c, ms, hok, hannonce, hms, hERREUR⟩ := Config.lireLignes_lisibles .initial hlisibles
      have hne : ms ≠ [] := hms.2 herr
      have hun : c.erreurConfig = 1 := by rw [hannonce.erreur, if_neg hne]
      obtain ⟨m, hm⟩ := List.exists_mem_of_ne_nil ms hne
      refine ⟨c, List.replicate 6 (List.replicate 8 Floating.zero), ?_,
        .inl ⟨hun, m, ?_, hERREUR m hm⟩⟩
      · unfold phaseConfig
        rw [hok, ok_bind, if_neg (by omega)]
        rfl
      · rw [hannonce.affichage]
        exact List.mem_append_right _ hm
    · have htoutes := lignesLues_eq herr
      rw [htoutes] at herr hlisibles hsuite
      have hlignes := fun ligne hligne =>
        And.intro (hlisibles ligne hligne) fun h => herr ⟨ligne, hligne, h⟩
      obtain ⟨c, temps, hphase, -⟩ := phaseConfig_ok hlignes
      refine ⟨c, temps, hphase, .inr ?_⟩
      intro ligne hligne
      apply ((hlignes ligne hligne).1.conforme_iff (hlignes ligne hligne).2).2
      exact (hsuite.resolve_left herr) ligne hligne

end

/-- A product and its destinations, without the durations and the count. -/
def ligneTronquee : Str := "2 : 1\n".toList

/-- That line is not reported: the third subscript raises an exception. -/
theorem ligneTronquee_leve : ¬ Signalee ℚ (readlines ligneTronquee) := by
  rintro ⟨c, temps, hphase, -⟩
  have hleve : phaseConfig (F := ℚ) (readlines ligneTronquee) = .error .indexError := by rfl
  rw [hleve] at hphase
  cases hphase

end Checker
