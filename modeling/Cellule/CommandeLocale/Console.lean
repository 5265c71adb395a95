import Cellule.Lib.Istream

/-! # The menu of the console

The loop at the end of `main` in `commande_locale/src/commande_locale.cpp`, which reads the choices
of the user on `cin`. The texts of the menu are left out.
-/

namespace CommandeLocale

open Istream (Stream Blank Numeral isSpace)

/-- What a turn of the loop does outside the console, and the line `[Erreur mauvais choix ..]`. -/
inductive Effet
  | erreur
  /-- The message `AddProduct` of the log. -/
  | pubProductAdd (num_poste num_produit : ℤ)
  | addProduct (choixProduit choixPoste : ℤ)
  /-- The service `srv_add_product_push_back`. -/
  | clientAddProduct (poste produit : ℤ)
  | pause
  | play
  | pubStopSim
  | pubShutdown
  | pubActuator
  deriving DecidableEq

/-- The stream and the variables of the loop. -/
structure Console where
  cin : Stream
  choix : List Char
  choixPoste : ℤ
  choixProduit : ℤ

namespace Console

/-- The start of the loop. -/
def initial (input : List Char) : Console :=
  { cin := .ready input, choix := [], choixPoste := 0, choixProduit := 0 }

/-- `[Erreur mauvais choix ..]`, `cin.clear()` and `cin.ignore(256,'\n')`. -/
def mauvaisChoix (s : Console) : Console × List Effet :=
  ({ s with cin := s.cin.clear.ignore 256 '\n' }, [.erreur])

/-- `case 1`, once the post is read. -/
def choisirProduit (s : Console) : Console × List Effet :=
  let r := s.cin.readInt s.choixProduit
  let s := { s with cin := r.1, choixProduit := r.2 }
  if s.cin.fail = true ∨ s.choixProduit < 1 ∨ s.choixProduit > 6 then s.mauvaisChoix
  else
    (s, [.pubProductAdd s.choixPoste (s.choixProduit * 10 + 4), .addProduct s.choixProduit s.choixPoste,
      .clientAddProduct s.choixPoste s.choixProduit])

/-- `case 1`. -/
def ajouterProduit (s : Console) : Console × List Effet :=
  let r := s.cin.readInt s.choixPoste
  let s := { s with cin := r.1, choixPoste := r.2 }
  if s.cin.fail = true ∨ s.choixPoste < 1 ∨ s.choixPoste > 8 then s.mauvaisChoix else s.choisirProduit

/-- The first character of the choice; the empty string ends with a null character. -/
def premier (s : Console) : Char := s.choix.headD '\x00'

/-- The other cases of the `switch`. -/
def effetsChoix (choixInt : ℕ) : List Effet :=
  if choixInt = 2 then [.pause]
  else if choixInt = 3 then [.play]
  else if choixInt = 4 then [.pubStopSim, .pubShutdown]
  else [.erreur]

/-- What is done of a choice. -/
def executer (s : Console) : Console × List Effet :=
  if s.choix = ['h', 'h', 'b', 'b', 'g', 'd'] then (s, [])
  else if s.choix = ['h', 'h', 'b', 'b', 'g', 'd', 'g', 'd', 'b', 'a'] then (s, [.pubActuator])
  else if s.choix.length > 1 ∨ s.premier < '1' ∨ s.premier > '9' then s.mauvaisChoix
  else
    let choixInt := s.premier.toNat - '0'.toNat
    if choixInt = 1 then s.ajouterProduit else (s, effetsChoix choixInt)

/-- A turn of the loop. -/
def tour (s : Console) : Console × List Effet :=
  let r := s.cin.readWord s.choix
  executer { s with cin := r.1, choix := r.2 }

/-- As many turns as are made while `ros::ok()`, with the effects of each. -/
def tours : ℕ → Console → Console × List (List Effet)
  | 0, s => (s, [])
  | n + 1, s =>
      let r := tours n s.tour.1
      (r.1, s.tour.2 :: r.2)

end Console

/-! ## Products -/

namespace Effet

/-- The post and the product that the simulator gets. -/
def pose : Effet → Option (ℤ × ℤ)
  | .addProduct choixProduit choixPoste => some (choixPoste, choixProduit)
  | _ => none

/-- The post and the code that the log gets. -/
def journal : Effet → Option (ℤ × ℤ)
  | .pubProductAdd num_poste num_produit => some (num_poste, num_produit)
  | _ => none

/-- The post and the product that the command node gets. -/
def annonce : Effet → Option (ℤ × ℤ)
  | .clientAddProduct poste produit => some (poste, produit)
  | _ => none

end Effet

/-- The simulator, the log and the command node hear of the same products, which exist. -/
structure Concordant (effets : List Effet) : Prop where
  journal : effets.filterMap Effet.journal =
    (effets.filterMap Effet.pose).map fun x => (x.1, x.2 * 10 + 4)
  annonce : effets.filterMap Effet.annonce = effets.filterMap Effet.pose
  bornes : ∀ x ∈ effets.filterMap Effet.pose, (1 ≤ x.1 ∧ x.1 ≤ 8) ∧ 1 ≤ x.2 ∧ x.2 ≤ 6

namespace Concordant

variable {effets effets' : List Effet}

theorem append (h : Concordant effets) (h' : Concordant effets') : Concordant (effets ++ effets') where
  journal := by
    rw [List.filterMap_append, List.filterMap_append, List.map_append, h.journal, h'.journal]
  annonce := by
    rw [List.filterMap_append, List.filterMap_append, h.annonce, h'.annonce]
  bornes x hx := by
    rw [List.filterMap_append] at hx
    exact (List.mem_append.1 hx).elim (h.bornes x) (h'.bornes x)

/-- Nothing is said of any product. -/
theorem of_none (h : ∀ e ∈ effets, e.pose = none ∧ e.journal = none ∧ e.annonce = none) :
    Concordant effets := by
  have hpose : effets.filterMap Effet.pose = [] := List.filterMap_eq_nil_iff.2 fun e he => (h e he).1
  have hjournal : effets.filterMap Effet.journal = [] :=
    List.filterMap_eq_nil_iff.2 fun e he => (h e he).2.1
  have hannonce : effets.filterMap Effet.annonce = [] :=
    List.filterMap_eq_nil_iff.2 fun e he => (h e he).2.2
  constructor
  · rw [hjournal, hpose]
    rfl
  · rw [hannonce, hpose]
  · rw [hpose]
    simp

end Concordant

namespace Console

theorem concordant_mauvaisChoix (s : Console) : Concordant s.mauvaisChoix.2 :=
  Concordant.of_none fun e he => by
    rw [List.mem_singleton.1 he]
    exact ⟨rfl, rfl, rfl⟩

theorem concordant_ajouterProduit (s : Console) : Concordant s.ajouterProduit.2 := by
  unfold ajouterProduit
  dsimp only
  split_ifs with hposte
  · exact concordant_mauvaisChoix _
  · unfold choisirProduit
    dsimp only
    split_ifs with hproduit
    · exact concordant_mauvaisChoix _
    · refine ⟨rfl, rfl, fun x hx => ?_⟩
      rw [List.mem_singleton.1 hx]
      dsimp only
      omega

/-- No other choice is about products. -/
theorem effetsChoix_pose (n : ℕ) :
    ∀ e ∈ effetsChoix n, e.pose = none ∧ e.journal = none ∧ e.annonce = none := by
  unfold effetsChoix
  split_ifs <;> simp [Effet.pose, Effet.journal, Effet.annonce]

theorem concordant_tour (s : Console) : Concordant s.tour.2 := by
  unfold tour executer
  dsimp only
  split_ifs
  · exact Concordant.of_none fun e he => absurd he List.not_mem_nil
  · refine Concordant.of_none fun e he => ?_
    rw [List.mem_singleton.1 he]
    exact ⟨rfl, rfl, rfl⟩
  · exact concordant_mauvaisChoix _
  · exact concordant_ajouterProduit _
  · exact Concordant.of_none (effetsChoix_pose _)

/-- Whatever is typed, and for as long as the loop turns, the simulator, the log and the command
node hear of the same products in the same order; the log gets their codes, and every post and
product is one that exists. -/
theorem ajouts_concordants (n : ℕ) (s : Console) :
    (tours n s).2.flatten.filterMap Effet.journal =
        ((tours n s).2.flatten.filterMap Effet.pose).map (fun x => (x.1, x.2 * 10 + 4)) ∧
      (tours n s).2.flatten.filterMap Effet.annonce = (tours n s).2.flatten.filterMap Effet.pose ∧
      ∀ x ∈ (tours n s).2.flatten.filterMap Effet.pose,
        (1 ≤ x.1 ∧ x.1 ≤ 8) ∧ 1 ≤ x.2 ∧ x.2 ≤ 6 := by
  have hconcordant : ∀ n s, Concordant (tours n s).2.flatten := by
    intro n
    induction n with
    | zero => exact fun _ => Concordant.of_none fun e he => absurd he List.not_mem_nil
    | succ n ih => exact fun s => (concordant_tour s).append (ih s.tour.1)
  obtain ⟨hjournal, hannonce, hbornes⟩ := hconcordant n s
  exact ⟨hjournal, hannonce, hbornes⟩

end Console

/-! ## What is typed -/

/-- What is typed for a number between 1 and `haut` that is refused, and what is then left of it. -/
inductive Refuse (haut : ℤ) : List Char → List Char → Prop
  | horsBornes {p reste : List Char} {n : ℤ} (hp : Numeral p n) (hn : ¬(1 ≤ n ∧ n ≤ haut))
      (hreste : ∀ c ∈ reste.head?, c.isDigit = false) : Refuse haut (p ++ reste) reste
  | illisible {c : Char} {reste : List Char} (hspace : isSpace c = false) (hdigit : c.isDigit = false)
      (hsign : c ≠ '+' ∧ c ≠ '-') : Refuse haut (c :: reste) (c :: reste)

/-- The rest of a line that `cin.ignore(256,'\n')` discards. -/
def FinDeLigne (reste : List Char) : Prop := '\n' ∉ reste ∧ reste.length < 256

/-- A word that is no choice. -/
structure Mauvais (mot : List Char) : Prop where
  ne_nil : mot ≠ []
  plein : ∀ c ∈ mot, isSpace c = false
  secret : mot ≠ ['h', 'h', 'b', 'b', 'g', 'd'] ∧
    mot ≠ ['h', 'h', 'b', 'b', 'g', 'd', 'g', 'd', 'b', 'a']
  choix : mot.length > 1 ∨ mot.headD '\x00' < '1' ∨ mot.headD '\x00' > '9'

/-- A text that is typed, and what each turn reads of it: the word of the choice, and the effects.
There are products, the other choices, and lines that are refused, with blanks of any kind between
the words. -/
inductive Saisie : List Char → List (List Char × List Effet) → Prop
  | fin {blancs : List Char} (h : Blank blancs) : Saisie blancs []
  | ajouter {b₀ b₁ b₂ p q suite : List Char} {poste produit : ℤ} {lus : List (List Char × List Effet)}
      (h₀ : Blank b₀) (h₁ : Blank b₁) (h₁' : b₁ ≠ []) (h₂ : Blank b₂) (h₂' : b₂ ≠ [])
      (hp : Numeral p poste) (hposte : 1 ≤ poste ∧ poste ≤ 8)
      (hq : Numeral q produit) (hproduit : 1 ≤ produit ∧ produit ≤ 6)
      (hsuite : ∀ c ∈ suite.head?, c.isDigit = false) (h : Saisie suite lus) :
      Saisie (b₀ ++ ('1' :: (b₁ ++ (p ++ (b₂ ++ (q ++ suite))))))
        ((['1'], [.pubProductAdd poste (produit * 10 + 4), .addProduct produit poste,
          .clientAddProduct poste produit]) :: lus)
  | choisir {b₀ suite : List Char} {c : Char} {lus : List (List Char × List Effet)} (h₀ : Blank b₀)
      (hc : '2' ≤ c ∧ c ≤ '9') (hsuite : ∀ c ∈ suite.head?, isSpace c = true) (h : Saisie suite lus) :
      Saisie (b₀ ++ c :: suite) (([c], Console.effetsChoix (c.toNat - '0'.toNat)) :: lus)
  | mauvaisChoix {b₀ mot reste suite : List Char} {lus : List (List Char × List Effet)} (h₀ : Blank b₀)
      (hmot : Mauvais mot) (hreste : ∀ c ∈ reste.head?, isSpace c = true) (hfin : FinDeLigne reste)
      (h : Saisie suite lus) :
      Saisie (b₀ ++ (mot ++ (reste ++ '\n' :: suite))) ((mot, [.erreur]) :: lus)
  | mauvaisPoste {b₀ b₁ p reste suite : List Char} {lus : List (List Char × List Effet)} (h₀ : Blank b₀)
      (h₁ : Blank b₁) (h₁' : b₁ ≠ []) (hp : Refuse 8 p reste) (hfin : FinDeLigne reste)
      (h : Saisie suite lus) :
      Saisie (b₀ ++ ('1' :: (b₁ ++ (p ++ '\n' :: suite)))) ((['1'], [.erreur]) :: lus)
  | mauvaisProduit {b₀ b₁ b₂ p q reste suite : List Char} {poste : ℤ} {lus : List (List Char × List Effet)}
      (h₀ : Blank b₀) (h₁ : Blank b₁) (h₁' : b₁ ≠ []) (h₂ : Blank b₂) (h₂' : b₂ ≠ [])
      (hp : Numeral p poste) (hposte : 1 ≤ poste ∧ poste ≤ 8) (hq : Refuse 6 q reste)
      (hfin : FinDeLigne reste) (h : Saisie suite lus) :
      Saisie (b₀ ++ ('1' :: (b₁ ++ (p ++ (b₂ ++ (q ++ '\n' :: suite)))))) ((['1'], [.erreur]) :: lus)

/-! ## What the turns do of it -/

/-- A refused number is left with its line. -/
theorem Refuse.lu {haut : ℤ} {b p reste : List Char} (h : Refuse haut p reste) (hb : Blank b)
    (suite : List Char) (old : ℤ) :
    let r := (Stream.ready (b ++ (p ++ '\n' :: suite))).readInt old
    (r.1.fail = true ∨ r.2 < 1 ∨ r.2 > haut) ∧ r.1.input = reste ++ '\n' :: suite := by
  cases h with
  | @horsBornes p reste n hp hn hreste =>
    have hafter : ∀ c ∈ (reste ++ '\n' :: suite).head?, c.isDigit = false := by
      intro c hc
      cases reste with
      | nil =>
        obtain rfl := Option.some.inj hc
        rfl
      | cons c' reste => exact hreste c hc
    have hlu := Stream.readInt_ready hb hp hafter old
    rw [List.append_assoc, hlu]
    refine ⟨?_, rfl⟩
    unfold Stream.clamp
    split_ifs
    · exact .inl rfl
    · exact .inl rfl
    · right
      dsimp only
      omega
  | @illisible c reste hspace hdigit hsign =>
    rw [List.cons_append, Stream.readInt_refused hb hspace hdigit hsign]
    exact ⟨.inl rfl, rfl⟩

namespace Console

open Stream (ready rest)

variable {s : Console} {b suite reste : List Char}

/-- After a refusal the loop starts again at the next line. -/
theorem mauvaisChoix_spec (hinput : s.cin.input = reste ++ '\n' :: suite) (hfin : FinDeLigne reste) :
    s.mauvaisChoix = ({ s with cin := ready suite }, [.erreur]) := by
  have hclear : s.cin.clear = ready (reste ++ '\n' :: suite) := by
    rw [← hinput]
    rfl
  rw [mauvaisChoix, hclear, Stream.ignore_line hfin.1 hfin.2]

/-- A turn reads a word first. -/
theorem tour_mot (mot : List Char) (hs : s.cin = ready (b ++ (mot ++ suite))) (hb : Blank b)
    (hne : mot ≠ []) (hplein : ∀ c ∈ mot, isSpace c = false)
    (hsuite : ∀ c ∈ suite.head?, isSpace c = true) :
    s.tour = executer { s with cin := rest suite, choix := mot } := by
  rw [tour, hs, Stream.readWord_ready hb hne hplein hsuite]

/-- The choice 1. -/
theorem executer_un (hs : s.choix = ['1']) : s.executer = s.ajouterProduit := by
  unfold executer premier
  rw [hs]
  rfl

/-- A number that is accepted. -/
theorem readInt_accepte {p : List Char} {n : ℤ} (hb : Blank b) (hp : Numeral p n) (hn : 1 ≤ n ∧ n ≤ 8)
    (hsuite : ∀ c ∈ suite.head?, c.isDigit = false) (old : ℤ) :
    (ready (b ++ (p ++ suite))).readInt old = (rest suite, n) := by
  have hclamp : Stream.clamp n = (n, false) := by
    unfold Stream.clamp
    rw [if_neg (by omega), if_neg (by omega)]
  rw [Stream.readInt_ready hb hp hsuite, hclamp]
  rfl

/-- A blank ends a number. -/
theorem isDigit_of_blank (hb : Blank b) (hne : b ≠ []) :
    ∀ c ∈ (b ++ suite).head?, c.isDigit = false := by
  intro c hc
  obtain ⟨c', b', rfl⟩ := List.exists_cons_of_ne_nil hne
  obtain rfl := Option.some.inj hc
  exact Istream.not_isDigit_of_isSpace (hb _ List.mem_cons_self)

/-- A post is read. -/
theorem ajouterProduit_poste {p : List Char} {poste : ℤ} (hs : s.cin = ready (b ++ (p ++ suite)))
    (hb : Blank b) (hp : Numeral p poste) (hposte : 1 ≤ poste ∧ poste ≤ 8)
    (hsuite : ∀ c ∈ suite.head?, c.isDigit = false) :
    s.ajouterProduit = choisirProduit { s with cin := rest suite, choixPoste := poste } := by
  rw [ajouterProduit, hs, readInt_accepte hb hp hposte hsuite]
  dsimp only
  rw [if_neg]
  rintro (hfail | hlt | hgt)
  · cases hfail
  · omega
  · omega

/-- A post is refused. -/
theorem ajouterProduit_refuse {p : List Char} (hs : s.cin = ready (b ++ (p ++ '\n' :: suite)))
    (hb : Blank b) (hp : Refuse 8 p reste) (hfin : FinDeLigne reste) :
    ∃ s', s.ajouterProduit = (s', [.erreur]) ∧ s'.cin = ready suite ∧ s'.choix = s.choix := by
  obtain ⟨hrefus, hinput⟩ := hp.lu hb suite s.choixPoste
  rw [← hs] at hrefus hinput
  rw [ajouterProduit]
  dsimp only
  rw [if_pos hrefus, mauvaisChoix_spec hinput hfin]
  exact ⟨_, rfl, rfl, rfl⟩

/-- A product is read. -/
theorem choisirProduit_accepte {q : List Char} {produit : ℤ} (hs : s.cin = ready (b ++ (q ++ suite)))
    (hb : Blank b) (hq : Numeral q produit) (hproduit : 1 ≤ produit ∧ produit ≤ 6)
    (hsuite : ∀ c ∈ suite.head?, c.isDigit = false) :
    ∃ s', s.choisirProduit = (s', [.pubProductAdd s.choixPoste (produit * 10 + 4),
      .addProduct produit s.choixPoste, .clientAddProduct s.choixPoste produit]) ∧
        s'.cin = rest suite ∧ s'.choix = s.choix := by
  rw [choisirProduit, hs, readInt_accepte hb hq ⟨hproduit.1, by omega⟩ hsuite]
  dsimp only
  rw [if_neg]
  · exact ⟨_, rfl, rfl, rfl⟩
  · rintro (hfail | hlt | hgt)
    · cases hfail
    · omega
    · omega

/-- A product is refused. -/
theorem choisirProduit_refuse {q : List Char} (hs : s.cin = ready (b ++ (q ++ '\n' :: suite)))
    (hb : Blank b) (hq : Refuse 6 q reste) (hfin : FinDeLigne reste) :
    ∃ s', s.choisirProduit = (s', [.erreur]) ∧ s'.cin = ready suite ∧ s'.choix = s.choix := by
  obtain ⟨hrefus, hinput⟩ := hq.lu hb suite s.choixProduit
  rw [← hs] at hrefus hinput
  rw [choisirProduit]
  dsimp only
  rw [if_pos hrefus, mauvaisChoix_spec hinput hfin]
  exact ⟨_, rfl, rfl, rfl⟩

/-- A word that is no choice. -/
theorem executer_mauvais (h : Mauvais s.choix) : s.executer = s.mauvaisChoix := by
  unfold executer premier
  rw [if_neg h.secret.1, if_neg h.secret.2, if_pos h.choix]

/-- The choices that read nothing more. -/
theorem executer_choix {c : Char} (hs : s.choix = [c]) (hc : '2' ≤ c ∧ c ≤ '9') :
    s.executer = (s, effetsChoix (c.toNat - '0'.toNat)) := by
  obtain ⟨h2, h9⟩ := hc
  have hbas : 50 ≤ c.toNat := h2
  have hhaut : c.toNat ≤ 57 := h9
  have hpremier : s.premier = c := by rw [premier, hs, List.headD_cons]
  rw [executer, hpremier, if_neg (by simp [hs]), if_neg (by simp [hs]), if_neg, if_neg]
  · show ¬c.toNat - 48 = 1
    omega
  · rintro (hlength | hlt | hgt)
    · simp [hs] at hlength
    · have hlt : c.toNat < 49 := hlt
      omega
    · have hgt : 57 < c.toNat := hgt
      omega

/-- What blanks separate is still to be read. -/
theorem rest_blank (hne : b ≠ []) : rest (b ++ suite) = ready (b ++ suite) :=
  Stream.rest_of_ne_nil (by simp [hne])

/-- A blank ends a word. -/
theorem isSpace_of_blank (hb : Blank b) (hne : b ≠ []) : ∀ c ∈ (b ++ suite).head?, isSpace c = true := by
  intro c hc
  obtain ⟨c', b', rfl⟩ := List.exists_cons_of_ne_nil hne
  obtain rfl := Option.some.inj hc
  exact hb _ List.mem_cons_self

/-- The word 1 is read. -/
theorem tour_un (hs : s.cin = ready (b ++ '1' :: suite)) (hb : Blank b)
    (hsuite : ∀ c ∈ suite.head?, isSpace c = true) :
    s.tour = ajouterProduit { s with cin := rest suite, choix := ['1'] } := by
  have hplein : ∀ c ∈ ['1'], isSpace c = false := List.forall_mem_singleton.2 rfl
  rw [tour_mot ['1'] hs hb (List.cons_ne_nil _ _) hplein hsuite]
  exact executer_un rfl

/-- The first turn does what is typed first. -/
theorem tour_saisie {texte mot : List Char} {bloc : List Effet} {lus : List (List Char × List Effet)}
    (h : Saisie texte ((mot, bloc) :: lus)) (hs : s.cin = ready texte) :
    ∃ s' suite, s.tour = (s', bloc) ∧ s'.choix = mot ∧ (s'.cin = ready suite ∨ s'.cin = rest suite) ∧
      Saisie suite lus := by
  cases h with
  | @ajouter b₀ b₁ b₂ p q suite poste produit lus h₀ h₁ h₁' h₂ h₂' hp hposte hq hproduit hfin h =>
    obtain ⟨s', hs', hcin, hchoix⟩ := choisirProduit_accepte
      (s := { s with cin := rest (b₂ ++ (q ++ suite)), choix := ['1'], choixPoste := poste })
      (rest_blank h₂') h₂ hq hproduit hfin
    refine ⟨s', suite, ?_, hchoix, .inr hcin, h⟩
    rw [tour_un hs h₀ (isSpace_of_blank h₁ h₁'), ← hs']
    exact ajouterProduit_poste (rest_blank h₁') h₁ hp hposte (isDigit_of_blank h₂ h₂')
  | @choisir b₀ suite c lus h₀ hc hfin h =>
    have hdigit : c.isDigit = true := by
      have h2 : 50 ≤ c.toNat := hc.1
      have h9 : c.toNat ≤ 57 := hc.2
      simp only [Char.isDigit, Bool.and_eq_true, decide_eq_true_eq, ge_iff_le, UInt32.le_iff_toNat_le]
      exact ⟨by show 48 ≤ c.toNat; omega, h9⟩
    have hplein : ∀ c' ∈ [c], isSpace c' = false := by
      intro c' hc'
      rw [List.mem_singleton.1 hc']
      exact Istream.isSpace_of_isDigit hdigit
    refine ⟨{ s with cin := rest suite, choix := [c] }, suite, ?_, rfl, .inr rfl, h⟩
    rw [tour_mot [c] hs h₀ (List.cons_ne_nil _ _) hplein hfin]
    exact executer_choix rfl hc
  | @mauvaisChoix b₀ mot reste suite lus h₀ hmot hreste hfin h =>
    have hafter : ∀ c ∈ (reste ++ '\n' :: suite).head?, isSpace c = true := by
      intro c hc
      cases reste with
      | nil =>
        obtain rfl := Option.some.inj hc
        rfl
      | cons c' reste => exact hreste c hc
    refine ⟨{ s with cin := ready suite, choix := mot }, suite, ?_, rfl, .inl rfl, h⟩
    rw [tour_mot mot hs h₀ hmot.ne_nil hmot.plein hafter, executer_mauvais hmot, mauvaisChoix_spec _ hfin]
    cases reste <;> rfl
  | @mauvaisPoste b₀ b₁ p reste suite lus h₀ h₁ h₁' hp hfin h =>
    obtain ⟨s', hs', hcin, hchoix⟩ := ajouterProduit_refuse
      (s := { s with cin := rest (b₁ ++ (p ++ '\n' :: suite)), choix := ['1'] })
      (rest_blank h₁') h₁ hp hfin
    refine ⟨s', suite, ?_, hchoix, .inl hcin, h⟩
    rw [tour_un hs h₀ (isSpace_of_blank h₁ h₁'), ← hs']
  | @mauvaisProduit b₀ b₁ b₂ p q reste suite poste lus h₀ h₁ h₁' h₂ h₂' hp hposte hq hfin h =>
    obtain ⟨s', hs', hcin, hchoix⟩ := choisirProduit_refuse
      (s := { s with cin := rest (b₂ ++ (q ++ '\n' :: suite)), choix := ['1'], choixPoste := poste })
      (rest_blank h₂') h₂ hq hfin
    refine ⟨s', suite, ?_, hchoix, .inl hcin, h⟩
    rw [tour_un hs h₀ (isSpace_of_blank h₁ h₁'), ← hs']
    exact ajouterProduit_poste (rest_blank h₁') h₁ hp hposte (isDigit_of_blank h₂ h₂')

/-! ## After the end of the text -/

/-- The effects of a turn that finds nothing to read: those of the last choice, except that no
product can be added. -/
def blocFinal (choix : List Char) : List Effet :=
  if choix = ['h', 'h', 'b', 'b', 'g', 'd'] then []
  else if choix = ['h', 'h', 'b', 'b', 'g', 'd', 'g', 'd', 'b', 'a'] then [.pubActuator]
  else if choix.length > 1 ∨ choix.headD '\x00' < '1' ∨ choix.headD '\x00' > '9' then [.erreur]
  else if (choix.headD '\x00').toNat - '0'.toNat = 1 then [.erreur]
  else effetsChoix ((choix.headD '\x00').toNat - '0'.toNat)

/-- A turn that finds nothing to read. -/
theorem executer_vide (hblank : Blank s.cin.input) :
    s.executer.2 = blocFinal s.choix ∧ s.executer.1.choix = s.choix ∧
      Blank s.executer.1.cin.input := by
  have hmauvais : ∀ s : Console, Blank s.cin.input → Blank s.mauvaisChoix.1.cin.input :=
    fun s h => Stream.ignore_blank (s := s.cin.clear) h 256 '\n'
  have hajouter : s.ajouterProduit.2 = [.erreur] ∧ s.ajouterProduit.1.choix = s.choix ∧
      Blank s.ajouterProduit.1.cin.input := by
    obtain ⟨-, hfail, hblank'⟩ := Stream.readInt_blank hblank s.choixPoste
    unfold ajouterProduit
    dsimp only
    rw [if_pos (.inl hfail)]
    exact ⟨rfl, rfl, hmauvais _ hblank'⟩
  unfold blocFinal executer premier
  dsimp only
  split_ifs
  · exact ⟨rfl, rfl, hblank⟩
  · exact ⟨rfl, rfl, hblank⟩
  · exact ⟨rfl, rfl, hmauvais s hblank⟩
  · exact hajouter
  · exact ⟨rfl, rfl, hblank⟩

theorem tour_vide (hblank : Blank s.cin.input) :
    s.tour.2 = blocFinal s.choix ∧ s.tour.1.choix = s.choix ∧ Blank s.tour.1.cin.input := by
  obtain ⟨hchoix, -, hblank'⟩ := Stream.readWord_blank hblank s.choix
  have h := executer_vide
    (s := { s with cin := (s.cin.readWord s.choix).1, choix := (s.cin.readWord s.choix).2 })
    hblank'
  dsimp only at h
  rw [hchoix] at h
  rw [tour, hchoix]
  exact h

/-- Nothing more to read: the turns repeat the last choice. -/
theorem tours_vide (n : ℕ) (hblank : Blank s.cin.input) :
    (tours n s).2 = List.replicate n (blocFinal s.choix) := by
  induction n generalizing s with
  | zero => rfl
  | succ n ih =>
    obtain ⟨heffets, hchoix, hblank'⟩ := tour_vide hblank
    rw [tours, ih hblank', heffets, hchoix, List.replicate_succ]

/-- No product is added then. -/
theorem pose_blocFinal (choix : List Char) : ∀ e ∈ blocFinal choix, e.pose = none := by
  have herreur : ∀ e ∈ [Effet.erreur], e.pose = none := by decide
  have hactuator : ∀ e ∈ [Effet.pubActuator], e.pose = none := by decide
  unfold blocFinal
  split_ifs
  · exact fun e he => absurd he List.not_mem_nil
  · exact hactuator
  · exact herreur
  · exact herreur
  · exact fun e he => (effetsChoix_pose _ e he).1

/-- The last word that was read as a choice. -/
def dernierChoix (choix : List Char) (lus : List (List Char × List Effet)) : List Char :=
  (lus.map Prod.fst).getLastD choix

end Console

end CommandeLocale
