import Cellule.Commande.Discipline
import Cellule.Lib.Machine

/-! # The marking of the products

The loop of `main_commande.cpp` statement by statement, with counters of what was added and
consumed. A product is marked at the next iteration, while the transition that consumes the two
products may be fired in the iteration that adds them.
-/

namespace Commande

/-- The loop: the turns of the drain, then the transitions, each one statement at a time. `ajouts`
counts the additions of each pair of a post and a product, `retraits` how often a transition took a
token away from a place. -/
structure Boucle where
  petri : Petri
  vidage : Bool
  actions : List Action
  ajouts : ℤ × ℤ → ℕ
  retraits : ℕ → ℕ

/-- One step of the loop, or what happens in `spinOnce`. -/
inductive Pas
  | iterer (c : Capteurs)
  | vider
  | tester
  | executer
  | retour (numRobot data : ℤ)
  | pushBack (poste produit : ℤ)
  | play (b : Bool)

/-- The place of a product on a post. -/
def placeProduit (poste produit : ℤ) : ℕ := 500 + (poste * 10 + produit).toNat

/-- One more in a counter. -/
def compter {κ : Type} [DecidableEq κ] (n : κ → ℕ) (k : κ) : κ → ℕ := Function.update n k (n k + 1)

namespace Boucle

/-- The node is in `spinOnce`. -/
def Libre (s : Boucle) : Prop := s.vidage = false ∧ s.actions = [] ∧ s.petri.reste = []

instance (s : Boucle) : Decidable s.Libre := inferInstanceAs (Decidable (_ ∧ _ ∧ _))

/-- The condition of a transition. -/
def Franchissable (s : Petri) (t : Transition) : Prop :=
  s.M t.place ≠ 0 ∧ ∀ cond ∈ t.conditions, cond.vraie s.capteurs s.robot

instance (s : Petri) (t : Transition) : Decidable (Franchissable s t) :=
  inferInstanceAs (Decidable (_ ∧ _))

/-- One turn of the drain: a code is taken, and marked unless there was none. -/
def vider (s : Boucle) : Boucle :=
  let r := s.petri.robot.ajoutProduitEnAttente
  if r.2 ≠ -1 then { s with petri := { s.petri with robot := r.1 }.marquer (500 + r.2.toNat) 1 }
  else { s with petri := { s.petri with robot := r.1, reste := transitions }, vidage := false }

/-- The counters after a statement. -/
def compterAction (s : Boucle) : Action → Boucle
  | .ajouterProduit poste produit => { s with ajouts := compter s.ajouts (poste, produit) }
  | .marquer i d => if d = -1 then { s with retraits := compter s.retraits i } else s
  | _ => s

/-- One step. Once the last place is marked no iteration starts. -/
def etape (s : Boucle) : Pas → Option Boucle
  | .iterer c =>
      if s.Libre ∧ s.petri.play = true ∧ s.petri.M placeFin = 0 then
        some { s with petri := { s.petri with capteurs := c }, vidage := true }
      else none
  | .vider => if s.vidage = true then some s.vider else none
  | .tester =>
      match s.actions, s.petri.reste with
      | [], t :: reste =>
          some { s with
            petri := { s.petri with reste }
            actions := if Franchissable s.petri t then t.actions else [] }
      | _, _ => none
  | .executer =>
      match s.actions with
      | [] => none
      | a :: actions =>
          some ({ s with petri := s.petri.executer a, actions }.compterAction a)
  | .retour numRobot data =>
      if s.Libre then
        some { s with petri :=
          { s.petri with robot := s.petri.robot.retourRobotCallback numRobot data } }
      else none
  | .pushBack poste produit =>
      if s.Libre ∧ (1 ≤ poste ∧ poste ≤ 8) ∧ 1 ≤ produit ∧ produit ≤ 6 then
        some { s with
          petri := { s.petri with robot := s.petri.robot.productAddPushBack poste produit }
          ajouts := compter s.ajouts (poste, produit) }
      else none
  | .play b => if s.Libre then some { s with petri := { s.petri with play := b } } else none

/-- What one step does. -/
inductive Avance (s : Boucle) : Pas → Boucle → Prop
  | iterer (c : Capteurs) (hlibre : s.Libre) (hplay : s.petri.play = true)
      (hfin : s.petri.M placeFin = 0) :
      Avance s (.iterer c) { s with petri := { s.petri with capteurs := c }, vidage := true }
  | vider (hvidage : s.vidage = true) : Avance s .vider s.vider
  | tester (t : Transition) (reste : List Transition) (hactions : s.actions = [])
      (hreste : s.petri.reste = t :: reste) :
      Avance s .tester { s with
        petri := { s.petri with reste }
        actions := if Franchissable s.petri t then t.actions else [] }
  | executer (a : Action) (actions : List Action) (hactions : s.actions = a :: actions) :
      Avance s .executer ({ s with petri := s.petri.executer a, actions }.compterAction a)
  | retour (numRobot data : ℤ) (hlibre : s.Libre) :
      Avance s (.retour numRobot data) { s with petri :=
        { s.petri with robot := s.petri.robot.retourRobotCallback numRobot data } }
  | pushBack (poste produit : ℤ) (hlibre : s.Libre) (hposte : 1 ≤ poste ∧ poste ≤ 8)
      (hproduit : 1 ≤ produit ∧ produit ≤ 6) :
      Avance s (.pushBack poste produit) { s with
        petri := { s.petri with robot := s.petri.robot.productAddPushBack poste produit }
        ajouts := compter s.ajouts (poste, produit) }
  | play (b : Bool) (hlibre : s.Libre) :
      Avance s (.play b) { s with petri := { s.petri with play := b } }

theorem etape_inv {s s' : Boucle} {p : Pas} (h : s.etape p = some s') : Avance s p s' := by
  cases p with
  | iterer c =>
    rw [etape] at h
    split_ifs at h with hcond
    cases h
    exact .iterer c hcond.1 hcond.2.1 hcond.2.2
  | vider =>
    rw [etape] at h
    split_ifs at h with hvidage
    cases h
    exact .vider hvidage
  | tester =>
    rw [etape] at h
    split at h
    · next t reste hactions hreste =>
      cases h
      exact .tester t reste hactions hreste
    · cases h
  | executer =>
    rw [etape] at h
    split at h
    · cases h
    · next a actions hactions =>
      cases h
      exact .executer a actions hactions
  | retour numRobot data =>
    rw [etape] at h
    split_ifs at h with hlibre
    cases h
    exact .retour numRobot data hlibre
  | pushBack poste produit =>
    rw [etape] at h
    split_ifs at h with hcond
    cases h
    exact .pushBack poste produit hcond.1 hcond.2.1 hcond.2.2
  | play b =>
    rw [etape] at h
    split_ifs at h with hlibre
    cases h
    exact .play b hlibre

/-- The start of the loop. -/
def initial : Boucle where
  petri := .initial
  vidage := false
  actions := []
  ajouts _ := 0
  retraits _ := 0

/-- The codes that wait. -/
def attente (s : Boucle) : List ℤ := s.petri.robot.produitAAjouter

/-! ## The statements -/

/-- A statement moves one token, not into a place of a product, or adds a product that exists. -/
def Sain : Action → Prop
  | .marquer i d => d = -1 ∨ d = 1 ∧ (i < 500 ∨ i = placeFin)
  | .ajouterProduit poste produit => (1 ≤ poste ∧ poste ≤ 8) ∧ 1 ≤ produit ∧ produit ≤ 6
  | _ => True

instance (a : Action) : Decidable (Sain a) := by
  cases a <;> unfold Sain <;> infer_instance

theorem sain_transitions : ∀ t ∈ transitions, ∀ a ∈ t.actions, Sain a := by decide

/-- The code that a statement adds. -/
def codesAjoutes : Action → List ℤ
  | .ajouterProduit poste produit => [poste * 10 + produit]
  | _ => []

/-- What a statement changes: the marking, the products that wait, and nothing else of what the loop
reads. -/
structure Effet (a : Action) (s s' : Petri) : Prop where
  M : ∀ i, s'.M i =
    s.M i + (if a = .marquer i 1 then 1 else 0) - (if a = .marquer i (-1) then 1 else 0)
  produitAAjouter : s'.robot.produitAAjouter = s.robot.produitAAjouter ++ codesAjoutes a
  nbRobot : s'.robot.nbRobot = s.robot.nbRobot
  capteurs : s'.capteurs = s.capteurs
  reste : s'.reste = s.reste

/-- A call of the interface publishes, and changes the interface only. -/
theorem appeler_spec (s : Petri) (r : RobotsInterface × List Publication) :
    (s.appeler r).M = s.M ∧ (s.appeler r).robot = r.1 ∧ (s.appeler r).capteurs = s.capteurs ∧
      (s.appeler r).reste = s.reste := by
  obtain ⟨robot, publications⟩ := r
  unfold Petri.appeler
  have hfold : ∀ (ps : List Publication) (s : Petri), (ps.foldl Petri.publier s).M = s.M ∧
      (ps.foldl Petri.publier s).robot = s.robot ∧
      (ps.foldl Petri.publier s).capteurs = s.capteurs ∧
      (ps.foldl Petri.publier s).reste = s.reste := by
    intro ps
    induction ps with
    | nil => exact fun s => ⟨rfl, rfl, rfl, rfl⟩
    | cons p ps ih => exact fun s => ih (s.publier p)
  exact hfold publications _

/-- A statement that calls the interface. -/
theorem effet_appeler {a : Action} {s : Petri} {r : RobotsInterface × List Publication}
    (ha : ∀ i d, a ≠ .marquer i d)
    (hproduits : r.1.produitAAjouter = s.robot.produitAAjouter ++ codesAjoutes a)
    (hnb : r.1.nbRobot = s.robot.nbRobot) : Effet a s (s.appeler r) := by
  obtain ⟨hM, hrobot, hcapteurs, hreste⟩ := appeler_spec s r
  constructor
  · intro i
    rw [hM, if_neg (ha i 1), if_neg (ha i (-1)), add_zero, sub_zero]
  · rw [hrobot, hproduits]
  · rw [hrobot, hnb]
  · exact hcapteurs
  · exact hreste

/-- A statement on the track. -/
theorem effet_piste {a : Action} (s : Petri) (ha : ∀ i d, a ≠ .marquer i d)
    (hcodes : codesAjoutes a = []) : Effet a s s := by
  constructor
  · intro i
    rw [if_neg (ha i 1), if_neg (ha i (-1)), add_zero, sub_zero]
  · rw [hcodes, List.append_nil]
  · rfl
  · rfl
  · rfl

/-- Every statement has its effect. -/
theorem effet_executer {s : Petri} {a : Action} (ha : Sain a) (hnb : s.robot.nbRobot = 4) :
    Effet a s (s.executer a) := by
  cases a with
  | marquer j d =>
    refine ⟨?_, (List.append_nil _).symm, rfl, rfl, rfl⟩
    intro i
    show Function.update s.M j (s.M j + d) i = _
    rcases eq_or_ne i j with rfl | hne
    · rw [Function.update_self]
      rcases ha with rfl | ⟨rfl, -⟩ <;> simp
      ring
    · rw [Function.update_of_ne hne]
      simp [Ne.symm hne]
  | ajouterProduit poste produit =>
    obtain ⟨hposte, hproduit⟩ := ha
    refine effet_appeler (by simp) ?_ ?_
    · rw [RobotsInterface.ajouterProduit, if_pos (by omega), if_pos hproduit]
      rfl
    · rw [RobotsInterface.ajouterProduit, if_pos (by omega), if_pos hproduit]
  | faireTache q duree =>
    refine effet_appeler (by simp) ?_ ?_
    · unfold RobotsInterface.faireTache
      split_ifs
      · split <;> exact (List.append_nil _).symm
      · exact (List.append_nil _).symm
    · unfold RobotsInterface.faireTache
      split_ifs
      · split <;> rfl
      · rfl
  | deplacerPiece r a b =>
    refine effet_appeler (by simp) ?_ ?_
    · unfold RobotsInterface.deplacerPiece
      split_ifs <;> exact (List.append_nil _).symm
    · unfold RobotsInterface.deplacerPiece
      split_ifs <;> rfl
  | evacuer =>
    refine effet_appeler (by simp) ?_ ?_
    · exact (List.append_nil _).symm
    · rfl
  | stopPS | ouvrirPS | sortirErgot | droite | gauche =>
    exact effet_piste s (by simp) rfl

/-! ## Transitions as a whole -/

/-- The statements that are left, executed to the end. -/
theorem execute_actions (s : Boucle) : ∃ s',
    Reactive.execute (fun _ _ => True) etape s (List.replicate s.actions.length .executer) = some s' ∧
      s'.petri = s.actions.foldl Petri.executer s.petri ∧ s'.actions = [] := by
  obtain ⟨petri, vidage, actions, ajouts, retraits⟩ := s
  induction actions generalizing petri ajouts retraits with
  | nil => exact ⟨_, rfl, rfl, rfl⟩
  | cons a actions ih =>
    have hstep : ∃ ajouts' retraits',
        etape ⟨petri, vidage, a :: actions, ajouts, retraits⟩ .executer =
          some ⟨petri.executer a, vidage, actions, ajouts', retraits'⟩ := by
      rw [etape]
      cases a with
      | marquer i d =>
        by_cases hd : d = -1
        · exact ⟨ajouts, compter retraits i, by simp [compterAction, hd]⟩
        · exact ⟨ajouts, retraits, by simp [compterAction, hd]⟩
      | ajouterProduit poste produit => exact ⟨compter ajouts (poste, produit), retraits, rfl⟩
      | faireTache | deplacerPiece | evacuer | stopPS | ouvrirPS | sortirErgot | droite | gauche =>
        exact ⟨ajouts, retraits, rfl⟩
    obtain ⟨ajouts', retraits', hstep⟩ := hstep
    obtain ⟨s', hs', hpetri, hfin⟩ := ih (petri.executer a) ajouts' retraits'
    refine ⟨s', ?_, hpetri, hfin⟩
    rw [List.length_cons, List.replicate_succ, Reactive.execute, if_pos trivial, hstep]
    exact hs'

/-- What a test gives when nothing is left of the transition before. -/
theorem etape_tester {s : Boucle} {t : Transition} {reste : List Transition}
    (hactions : s.actions = []) (hreste : s.petri.reste = t :: reste) :
    s.etape .tester = some { s with
      petri := { s.petri with reste }
      actions := if Franchissable s.petri t then t.actions else [] } := by
  rw [etape, hactions, hreste]

/-- A transition tested and executed statement by statement is the transition tested as a whole. -/
theorem execute_tester {s : Boucle} {t : Transition} {reste : List Transition}
    (hactions : s.actions = []) (hreste : s.petri.reste = t :: reste) : ∃ n s',
    Reactive.execute (fun _ _ => True) etape s (.tester :: List.replicate n .executer) = some s' ∧
      s'.petri = ({ s.petri with reste } : Petri).tester t ∧ s'.actions = [] := by
  obtain ⟨s', hs', hpetri, hfin⟩ := execute_actions { s with
    petri := { s.petri with reste }
    actions := if Franchissable s.petri t then t.actions else [] }
  refine ⟨(if Franchissable s.petri t then t.actions else []).length, s', ?_, ?_, hfin⟩
  · rw [Reactive.execute, if_pos trivial, etape_tester hactions hreste]
    exact hs'
  · rw [hpetri]
    by_cases hfr : Franchissable s.petri t
    · simp only [if_pos hfr]
      exact (if_pos hfr).symm
    · simp only [if_neg hfr]
      exact (if_neg hfr).symm

/-! ## The law of the products -/

/-- What the law rests on: the interface is that of four robots, the codes are those of products,
and the statements are those of the net. -/
structure Comptes (s : Boucle) : Prop where
  nbRobot : s.petri.robot.nbRobot = 4
  codes : CodesValides s.attente
  sain : ∀ a ∈ s.actions, Sain a
  reste : ∃ k, s.petri.reste = transitions.drop k
  loi : ∀ poste produit, (1 ≤ poste ∧ poste ≤ 8) → (1 ≤ produit ∧ produit ≤ 6) →
    s.petri.M (placeProduit poste produit) + (s.attente.count (poste * 10 + produit) : ℤ) =
      s.ajouts (poste, produit) - s.retraits (placeProduit poste produit)

theorem produitAAjouter_retourRobotCallback (robot : RobotsInterface) (numRobot data : ℤ) :
    (robot.retourRobotCallback numRobot data).produitAAjouter = robot.produitAAjouter := by
  simp only [RobotsInterface.retourRobotCallback, apply_ite RobotsInterface.produitAAjouter,
    RobotsInterface.setTask, RobotsInterface.setMacroDeplacement, ite_self]

/-- The net with other products that wait. -/
def avecAttente (s : Boucle) (codes : List ℤ) : Petri :=
  { s.petri with robot := { s.petri.robot with produitAAjouter := codes } }

/-- The code taken by a turn of the drain is the last one, or there is none. -/
theorem vider_cases {s : Boucle} (hcodes : CodesValides s.attente) :
    (s.attente = [] ∧
      s.vider = { s with petri := { s.petri with reste := transitions }, vidage := false }) ∨
    ∃ codes code, s.attente = codes ++ [code] ∧ 11 ≤ code ∧ code ≤ 86 ∧
      s.vider = { s with petri := (s.avecAttente codes).marquer (500 + code.toNat) 1 } := by
  unfold vider RobotsInterface.ajoutProduitEnAttente
  rcases List.eq_nil_or_concat s.attente with hvide | ⟨codes, code, hcons⟩
  · left
    have hproduits : s.petri.robot.produitAAjouter = [] := hvide
    refine ⟨hvide, ?_⟩
    simp only [hproduits, List.getLast?_nil, ne_eq, not_true_eq_false, if_false]
  · right
    rw [List.concat_eq_append] at hcons
    have hproduits : s.petri.robot.produitAAjouter = codes ++ [code] := hcons
    have hcode := hcodes code (by simp [hcons])
    refine ⟨codes, code, hcons, hcode.1, hcode.2, ?_⟩
    simp only [hproduits, List.getLast?_concat, List.dropLast_concat]
    rw [if_pos (by omega)]
    rfl

/-- One more token where a product is marked. -/
theorem placeProduit_eq_iff {poste produit code : ℤ} (hcode : 11 ≤ code ∧ code ≤ 86) :
    placeProduit poste produit = 500 + code.toNat ↔ poste * 10 + produit = code := by
  unfold placeProduit
  omega

theorem compter_apply {κ : Type} [DecidableEq κ] (n : κ → ℕ) (k k' : κ) :
    compter n k k' = n k' + if k = k' then 1 else 0 := by
  unfold compter
  rcases eq_or_ne k' k with rfl | hne
  · rw [Function.update_self, if_pos rfl]
  · rw [Function.update_of_ne hne, if_neg hne.symm, add_zero]

/-- What a statement does to the counters. -/
theorem compterAction_spec (s : Boucle) (a : Action) :
    (s.compterAction a).petri = s.petri ∧ (s.compterAction a).vidage = s.vidage ∧
      (s.compterAction a).actions = s.actions ∧
      (∀ poste produit, (s.compterAction a).ajouts (poste, produit) =
        s.ajouts (poste, produit) + if a = .ajouterProduit poste produit then 1 else 0) ∧
      ∀ i, (s.compterAction a).retraits i =
        s.retraits i + if a = .marquer i (-1) then 1 else 0 := by
  cases a with
  | marquer j d =>
    by_cases hd : d = -1
    · subst hd
      refine ⟨rfl, rfl, rfl, fun _ _ => by simp [compterAction], fun i => ?_⟩
      show compter s.retraits j i = _
      simp [compter_apply]
    · simp [compterAction, hd]
  | ajouterProduit poste produit =>
    refine ⟨rfl, rfl, rfl, fun poste' produit' => ?_, fun i => by simp [compterAction]⟩
    show compter s.ajouts (poste, produit) (poste', produit') = _
    simp [compter_apply]
  | faireTache | deplacerPiece | evacuer | stopPS | ouvrirPS | sortirErgot | droite | gauche =>
    simp [compterAction]

/-- No statement puts a token into the place of a product. -/
theorem Sain.ne_marquer {a : Action} (ha : Sain a) {poste produit : ℤ}
    (hproduit : 1 ≤ produit ∧ produit ≤ 6) : a ≠ .marquer (placeProduit poste produit) 1 := by
  rintro rfl
  rcases ha with h | ⟨-, h⟩
  · cases h
  · unfold placeProduit placeFin at h
    omega

/-- The code added is that of the pair that is counted. -/
theorem Sain.count_codesAjoutes {a : Action} (ha : Sain a) {poste produit : ℤ}
    (hproduit : 1 ≤ produit ∧ produit ≤ 6) :
    (codesAjoutes a).count (poste * 10 + produit) =
      if a = .ajouterProduit poste produit then 1 else 0 := by
  cases a with
  | ajouterProduit poste' produit' =>
    obtain ⟨-, hproduit'⟩ := ha
    have hiff : poste' * 10 + produit' = poste * 10 + produit ↔ poste' = poste ∧ produit' = produit := by
      omega
    simp [codesAjoutes, List.count_singleton, hiff]
  | marquer | faireTache | deplacerPiece | evacuer | stopPS | ouvrirPS | sortirErgot | droite
  | gauche => simp [codesAjoutes]

/-- The codes stay those of products. -/
theorem Sain.codes {a : Action} (ha : Sain a) {codes : List ℤ} (h : CodesValides codes) :
    CodesValides (codes ++ codesAjoutes a) := by
  cases a with
  | ajouterProduit poste produit => exact h.push ha
  | marquer | faireTache | deplacerPiece | evacuer | stopPS | ouvrirPS | sortirErgot | droite
  | gauche => simpa [codesAjoutes] using h

/-- The law after a statement. -/
theorem Comptes.executer {s : Boucle} {a : Action} {actions : List Action} (h : Comptes s)
    (hactions : s.actions = a :: actions) :
    Comptes ({ s with petri := s.petri.executer a, actions }.compterAction a) := by
  have ha : Sain a := h.sain a (by simp [hactions])
  obtain ⟨hM, hproduits, hnb, -, hreste⟩ := effet_executer ha h.nbRobot
  obtain ⟨hpetri, -, hsuite, hajouts, hretraits⟩ :=
    compterAction_spec { s with petri := s.petri.executer a, actions } a
  obtain ⟨k, hk⟩ := h.reste
  constructor
  · rw [hpetri]
    exact hnb.trans h.nbRobot
  · unfold attente
    rw [hpetri]
    exact hproduits ▸ ha.codes h.codes
  · rw [hsuite]
    exact fun b hb => h.sain b (by simp [hactions, hb])
  · rw [hpetri]
    exact ⟨k, hreste.trans hk⟩
  · intro poste produit hposte hproduit
    have hloi := h.loi poste produit hposte hproduit
    unfold attente at hloi ⊢
    rw [hpetri, hajouts, hretraits, hM, hproduits, List.count_append,
      ha.count_codesAjoutes hproduit, if_neg (ha.ne_marquer hproduit)]
    push_cast
    linarith

/-- The law after a turn of the drain. -/
theorem Comptes.vider {s : Boucle} (h : Comptes s) : Comptes s.vider := by
  rcases vider_cases h.codes with ⟨-, hvider⟩ | ⟨codes, code, hcons, hcode₁, hcode₂, hvider⟩
  · rw [hvider]
    exact { h with reste := ⟨0, rfl⟩ }
  · rw [hvider]
    have hcodes := h.codes
    rw [hcons] at hcodes
    refine ⟨h.nbRobot, fun c hc => hcodes c (List.mem_append_left _ hc), h.sain, h.reste, ?_⟩
    intro poste produit hposte hproduit
    have hloi := h.loi poste produit hposte hproduit
    rw [hcons, List.count_append, List.count_singleton] at hloi
    have hplace : placeProduit poste produit = 500 + code.toNat ↔ poste * 10 + produit = code :=
      placeProduit_eq_iff ⟨hcode₁, hcode₂⟩
    show Function.update s.petri.M _ _ _ + (codes.count _ : ℤ) = _
    by_cases heq : poste * 10 + produit = code
    · rw [hplace.2 heq, Function.update_self, ← hplace.2 heq]
      rw [if_pos (by simp [heq])] at hloi
      push_cast at hloi
      show s.petri.M _ + 1 + (codes.count _ : ℤ) = s.ajouts _ - s.retraits _
      linarith
    · rw [Function.update_of_ne (fun hp => heq (hplace.1 hp))]
      rw [if_neg (by simpa using Ne.symm heq)] at hloi
      simpa using hloi

/-- The law after every step. -/
theorem Comptes.etape {s s' : Boucle} {p : Pas} (h : Comptes s) (hs : s.etape p = some s') :
    Comptes s' := by
  cases etape_inv hs with
  | iterer c hlibre hplay hfin => exact { h with }
  | vider hvidage => exact h.vider
  | tester t reste hactions hreste =>
    obtain ⟨k, hk⟩ := h.reste
    have ht : t ∈ transitions := List.mem_of_mem_drop (by rw [← hk, hreste]; simp)
    refine { h with sain := ?_, reste := ⟨k + 1, ?_⟩ }
    · split_ifs
      · exact sain_transitions t ht
      · simp
    · rw [← List.tail_drop, ← hk, hreste]
      rfl
  | executer a actions hactions => exact h.executer hactions
  | retour numRobot data hlibre =>
    have hproduits := produitAAjouter_retourRobotCallback s.petri.robot numRobot data
    refine ⟨?_, ?_, h.sain, h.reste, ?_⟩
    · exact (RobotsInterface.nbRobot_retourRobotCallback _ _ _).trans h.nbRobot
    · unfold attente
      exact hproduits ▸ h.codes
    · unfold attente
      exact hproduits ▸ h.loi
  | pushBack poste produit hlibre hposte hproduit =>
    have ha : Sain (.ajouterProduit poste produit) := ⟨hposte, hproduit⟩
    refine ⟨h.nbRobot, ha.codes h.codes, h.sain, h.reste, ?_⟩
    intro poste' produit' hposte' hproduit'
    have hloi := h.loi poste' produit' hposte' hproduit'
    have hcount : (codesAjoutes (.ajouterProduit poste produit)).count (poste' * 10 + produit') =
        if Action.ajouterProduit poste produit = .ajouterProduit poste' produit' then 1 else 0 :=
      ha.count_codesAjoutes hproduit'
    show s.petri.M _ + ((s.attente ++ codesAjoutes (.ajouterProduit poste produit)).count _ : ℤ) =
      (compter s.ajouts (poste, produit) (poste', produit') : ℤ) - _
    rw [List.count_append, hcount, compter_apply]
    simp only [Action.ajouterProduit.injEq, Prod.mk.injEq]
    push_cast
    linarith
  | play b hlibre => exact { h with }

theorem comptes_initial : Comptes initial where
  nbRobot := rfl
  codes := by simp [CodesValides, attente, initial, Petri.initial, RobotsInterface.initial]
  sain := by simp [initial]
  reste := ⟨transitions.length, (List.drop_length).symm⟩
  loi poste produit hposte hproduit := by
    show (if placeProduit poste produit = 0 then (1 : ℤ) else 0) + _ = _
    rw [if_neg (by unfold placeProduit; omega)]
    rfl

/-- **The law of the products**, along every run: the tokens of a product on a post and the codes
that wait are what was added and not consumed. -/
theorem loi_des_produits {trace : List Pas} {s : Boucle}
    (h : Reactive.Run (fun s p s' => etape s p = some s') initial trace s) {poste produit : ℤ}
    (hposte : 1 ≤ poste ∧ poste ≤ 8) (hproduit : 1 ≤ produit ∧ produit ≤ 6) :
    s.petri.M (placeProduit poste produit) + (s.attente.count (poste * 10 + produit) : ℤ) =
      s.ajouts (poste, produit) - s.retraits (placeProduit poste produit) := by
  have hstep : ∀ (_ : List Pas) s p s', Comptes s → etape s p = some s' → Comptes s' :=
    fun _ _ _ _ hs hp => hs.etape hp
  exact (Reactive.Run.invariant comptes_initial hstep h).loi poste produit hposte hproduit

/-! ## The tokens are not negative -/

/-- The tokens of a product on a post, marked or still to be marked. -/
def disponible (s : Boucle) (poste produit : ℤ) : ℤ :=
  s.petri.M (placeProduit poste produit) + s.attente.count (poste * 10 + produit)

/-- An iteration that fires the first transition does not find the stop sensor 1 active, unless the
products 2 and 6 of the posts 3 and 7 are already there. -/
def Prete (s : Boucle) : Pas → Prop
  | .iterer c => s.petri.M 0 ≠ 0 → c.getPS 1 = true → 1 ≤ s.disponible 3 2 ∧ 1 ≤ s.disponible 7 6
  | _ => True

/-- The marking of a place once the transition being fired is finished. -/
def solde (s : Boucle) (i : ℕ) : ℤ :=
  s.petri.M i + s.actions.count (.marquer i 1) - s.actions.count (.marquer i (-1))

/-- The additions of a product, with those of the transition being fired. -/
def ajoutsFinis (s : Boucle) (poste produit : ℤ) : ℕ :=
  s.ajouts (poste, produit) + s.actions.count (.ajouterProduit poste produit)

/-- The tokens taken from a place, with those of the transition being fired. -/
def retraitsFinis (s : Boucle) (i : ℕ) : ℕ := s.retraits i + s.actions.count (.marquer i (-1))

/-- What is kept on the way to the second transition. One token is on the place 0, then on the place
10, then gone with the two products; the additions come with the first move. -/
structure Jeton (s : Boucle) : Prop where
  provision : ∀ i, (s.actions.count (.marquer i (-1)) : ℤ) ≤ s.petri.M i
  unique : s.solde 0 + s.solde 10 + s.retraitsFinis 532 = 1
  paire : s.retraitsFinis 576 = s.retraitsFinis 532
  ajoute₃ : 1 ≤ s.ajoutsFinis 3 2 + s.solde 0
  ajoute₇ : 1 ≤ s.ajoutsFinis 7 6 + s.solde 0

/-- Where the iteration stands, and what the sensor image then promises. -/
structure Place (s : Boucle) : Prop where
  vidage : s.vidage = true → s.actions = [] ∧ s.petri.reste = [] ∧
    (s.petri.M 0 ≠ 0 → s.petri.capteurs.getPS 1 = true →
      1 ≤ s.disponible 3 2 ∧ 1 ≤ s.disponible 7 6)
  premiere : s.petri.reste = transitions → s.actions = [] ∧ s.attente = [] ∧
    (s.petri.M 0 ≠ 0 → s.petri.capteurs.getPS 1 = true → 1 ≤ s.petri.M 532 ∧ 1 ≤ s.petri.M 576)
  deuxieme : s.petri.reste = transitions.drop 1 → s.petri.capteurs.getPS 1 = true →
    1 ≤ s.solde 10 → 1 ≤ s.solde 532 ∧ 1 ≤ s.solde 576

/-- Executing a statement leaves what will be once the transition is finished. -/
theorem executer_solde {s : Boucle} {a : Action} {actions : List Action} (h : Comptes s)
    (hactions : s.actions = a :: actions) (i : ℕ) :
    let s' := { s with petri := s.petri.executer a, actions }.compterAction a
    s'.solde i = s.solde i ∧ s'.retraitsFinis i = s.retraitsFinis i ∧
      ∀ poste produit, s'.ajoutsFinis poste produit = s.ajoutsFinis poste produit := by
  intro s'
  have ha : Sain a := h.sain a (by simp [hactions])
  have heffet := effet_executer ha h.nbRobot
  obtain ⟨hpetri, -, hsuite, hajouts, hretraits⟩ :=
    compterAction_spec { s with petri := s.petri.executer a, actions } a
  have hsolde : s'.solde i = s.solde i := by
    unfold solde
    rw [hpetri, hsuite, heffet.M, hactions, List.count_cons, List.count_cons]
    simp only [beq_iff_eq]
    push_cast
    ring
  have hretrait : s'.retraitsFinis i = s.retraitsFinis i := by
    unfold retraitsFinis
    rw [hretraits, hsuite, hactions, List.count_cons]
    simp only [beq_iff_eq]
    ring
  refine ⟨hsolde, hretrait, fun poste produit => ?_⟩
  unfold ajoutsFinis
  rw [hajouts, hsuite, hactions, List.count_cons]
  simp only [beq_iff_eq]
  ring

/-- The provisions after a statement. -/
theorem Jeton.executer {s : Boucle} {a : Action} {actions : List Action} (hc : Comptes s)
    (h : Jeton s) (hactions : s.actions = a :: actions) :
    Jeton ({ s with petri := s.petri.executer a, actions }.compterAction a) := by
  have ha : Sain a := hc.sain a (by simp [hactions])
  have heffet := effet_executer ha hc.nbRobot
  obtain ⟨hpetri, -, hsuite, -, -⟩ :=
    compterAction_spec { s with petri := s.petri.executer a, actions } a
  have hsolde := fun i => (executer_solde hc hactions i).1
  have hretraits := fun i => (executer_solde hc hactions i).2.1
  have hajouts := (executer_solde hc hactions 0).2.2
  constructor
  · intro i
    have hi := h.provision i
    rw [hactions, List.count_cons] at hi
    simp only [beq_iff_eq] at hi
    rw [hpetri, hsuite, heffet.M]
    push_cast at hi ⊢
    split_ifs at hi ⊢ <;> linarith
  · rw [hsolde, hsolde, hretraits]
    exact h.unique
  · rw [hretraits, hretraits]
    exact h.paire
  · rw [hajouts, hsolde]
    exact h.ajoute₃
  · rw [hajouts, hsolde]
    exact h.ajoute₇

/-- More tokens outside of the places 0 and 10, or more additions. -/
theorem Jeton.mono {s s' : Boucle} (h : Jeton s) (hactions : s'.actions = s.actions)
    (hretraits : s'.retraits = s.retraits) (hM : ∀ i, s.petri.M i ≤ s'.petri.M i)
    (h0 : s'.petri.M 0 = s.petri.M 0) (h10 : s'.petri.M 10 = s.petri.M 10)
    (hajouts : ∀ x, s.ajouts x ≤ s'.ajouts x) : Jeton s' := by
  have h3 := h.ajoute₃
  have h7 := h.ajoute₇
  have hunique := h.unique
  have hpaire := h.paire
  have h32 := hajouts (3, 2)
  have h76 := hajouts (7, 6)
  unfold ajoutsFinis solde at h3 h7
  unfold solde retraitsFinis at hunique
  unfold retraitsFinis at hpaire
  constructor
  · intro i
    rw [hactions]
    exact (h.provision i).trans (hM i)
  · unfold solde retraitsFinis
    rw [hactions, hretraits, h0, h10]
    exact hunique
  · unfold retraitsFinis
    rw [hactions, hretraits]
    exact hpaire
  · unfold ajoutsFinis solde
    rw [hactions, h0]
    omega
  · unfold ajoutsFinis solde
    rw [hactions, h0]
    omega

/-! ### The transitions -/

/-- The place that a statement takes a token from. -/
def retire : Action → Option ℕ
  | .marquer i d => if d = -1 then some i else none
  | _ => none

theorem count_retire (actions : List Action) (i : ℕ) :
    actions.count (.marquer i (-1)) = (actions.filterMap retire).count i := by
  induction actions with
  | nil => rfl
  | cons a actions ih =>
    rw [List.count_cons, ih]
    cases a with
    | marquer j d =>
      by_cases hd : d = -1
      · subst hd
        rw [List.filterMap_cons_some (b := j) (by simp [retire]), List.count_cons]
        simp
      · rw [List.filterMap_cons_none (by simp [retire, hd])]
        simp [hd]
    | ajouterProduit | faireTache | deplacerPiece | evacuer | stopPS | ouvrirPS | sortirErgot
    | droite | gauche =>
      rw [List.filterMap_cons_none rfl]
      simp

/-- A transition takes a token from the place it tests; the second one takes those of two products,
which it does not test. -/
theorem retraits_transitions : ∀ t ∈ transitions, t.actions.filterMap retire =
    if t.place = 10 then [10, 532, 576] else [t.place] := by decide

/-- The first transition. -/
theorem premiere_transition : ∀ t ∈ (transitions.drop 0).take 1, t.place = 0 ∧ t.conditions = [] ∧
    t.actions.count (.marquer 0 1) = 0 ∧ t.actions.count (.marquer 10 1) = 1 ∧
    t.actions.count (.marquer 532 1) = 0 ∧ t.actions.count (.marquer 576 1) = 0 ∧
    t.actions.count (.ajouterProduit 3 2) = 1 ∧ t.actions.count (.ajouterProduit 7 6) = 1 := by
  decide

/-- The second one. -/
theorem deuxieme_transition : ∀ t ∈ (transitions.drop 1).take 1, t.place = 10 ∧
    Condition.ps 1 ∈ t.conditions ∧
    t.actions.count (.marquer 0 1) = 0 ∧ t.actions.count (.marquer 10 1) = 0 := by decide

/-- The others leave the places 0 and 10 and the two products. -/
theorem autres_transitions : ∀ t ∈ transitions.drop 2,
    (t.place ≠ 0 ∧ t.place ≠ 10 ∧ t.place ≠ 532 ∧ t.place ≠ 576) ∧
    t.actions.count (.marquer 0 1) = 0 ∧ t.actions.count (.marquer 10 1) = 0 := by decide

/-- The next transition is the first one, the second one, or another one. -/
theorem transition_cases {t : Transition} {reste : List Transition} {k : ℕ}
    (h : transitions.drop k = t :: reste) :
    (k = 0 ∧ t ∈ (transitions.drop 0).take 1) ∨ (k = 1 ∧ t ∈ (transitions.drop 1).take 1) ∨
      2 ≤ k ∧ t ∈ transitions.drop 2 := by
  match k, h with
  | 0, h => exact .inl ⟨rfl, by rw [h]; simp⟩
  | 1, h => exact .inr (.inl ⟨rfl, by rw [h]; simp⟩)
  | k + 2, h =>
    refine .inr (.inr ⟨by omega, ?_⟩)
    have hmem : t ∈ transitions.drop (2 + k) := by
      rw [Nat.add_comm, h]
      simp
    rw [← List.drop_drop] at hmem
    exact List.mem_of_mem_drop hmem

theorem count_retraits {t : Transition} (ht : t ∈ transitions) (i : ℕ) :
    t.actions.count (.marquer i (-1)) =
      (if t.place = 10 then [10, 532, 576] else [t.place]).count i := by
  rw [count_retire, retraits_transitions t ht]

/-- It takes one token from a place. -/
theorem retraits_pourvus {t : Transition} (ht : t ∈ transitions) {M : ℕ → ℤ} (hM : ∀ i, 0 ≤ M i)
    (hplace : 1 ≤ M t.place) (hproduits : t.place = 10 → 1 ≤ M 532 ∧ 1 ≤ M 576) (i : ℕ) :
    (t.actions.count (.marquer i (-1)) : ℤ) ≤ M i := by
  rw [count_retraits ht]
  split_ifs with h10
  · obtain ⟨h32, h76⟩ := hproduits h10
    rw [h10] at hplace
    by_cases hmem : i ∈ [10, 532, 576]
    · rw [List.count_eq_one_of_mem (by decide) hmem]
      simp only [List.mem_cons, List.not_mem_nil, or_false] at hmem
      rcases hmem with rfl | rfl | rfl <;> assumption
    · rw [List.count_eq_zero_of_not_mem hmem]
      exact hM i
  · rw [List.count_singleton]
    split_ifs with heq
    · rw [beq_iff_eq] at heq
      exact heq ▸ hplace
    · exact hM i

/-- What a transition does to the token and to the additions. -/
theorem jeton_transition {t : Transition} {reste : List Transition} {k : ℕ}
    (hk : transitions.drop k = t :: reste) :
    ((t.actions.count (.marquer 0 1) : ℤ) - t.actions.count (.marquer 0 (-1))) +
        (t.actions.count (.marquer 10 1) - t.actions.count (.marquer 10 (-1))) +
        t.actions.count (.marquer 532 (-1)) = 0 ∧
      t.actions.count (.marquer 576 (-1)) = t.actions.count (.marquer 532 (-1)) ∧
      0 ≤ (t.actions.count (.ajouterProduit 3 2) : ℤ) + t.actions.count (.marquer 0 1) -
        t.actions.count (.marquer 0 (-1)) ∧
      0 ≤ (t.actions.count (.ajouterProduit 7 6) : ℤ) + t.actions.count (.marquer 0 1) -
        t.actions.count (.marquer 0 (-1)) := by
  have ht : t ∈ transitions := List.mem_of_mem_drop (i := k) (by rw [hk]; simp)
  simp only [count_retraits ht]
  rcases transition_cases hk with ⟨-, hmem⟩ | ⟨-, hmem⟩ | ⟨-, hmem⟩
  · obtain ⟨hp, -, h01, h101, -, -, h32, h76⟩ := premiere_transition t hmem
    rw [hp, h01, h101, h32, h76]
    decide
  · obtain ⟨hp, -, h01, h101⟩ := deuxieme_transition t hmem
    rw [hp, h01, h101]
    simp only [if_true, show List.count 0 [10, 532, 576] = 0 by decide,
      show List.count 10 [10, 532, 576] = 1 by decide,
      show List.count 532 [10, 532, 576] = 1 by decide,
      show List.count 576 [10, 532, 576] = 1 by decide]
    simp
  · obtain ⟨⟨hp0, hp10, hp532, hp576⟩, h01, h101⟩ := autres_transitions t hmem
    rw [if_neg hp10, h01, h101]
    simp only [List.count_singleton, beq_iff_eq, hp0, hp10, hp532, hp576, if_false]
    simp

/-- A transition that is fired finds the tokens it takes. -/
theorem Jeton.franchir {s : Boucle} {t : Transition} {reste : List Transition} {k : ℕ}
    (h : Jeton s) (hactions : s.actions = []) (hk : transitions.drop k = t :: reste)
    (hM : s.petri.M t.place ≠ 0)
    (hproduits : t.place = 10 → 1 ≤ s.petri.M 532 ∧ 1 ≤ s.petri.M 576) :
    Jeton { s with petri := { s.petri with reste }, actions := t.actions } := by
  have ht : t ∈ transitions := List.mem_of_mem_drop (i := k) (by rw [hk]; simp)
  have hprovision := h.provision
  have h3 := h.ajoute₃
  have h7 := h.ajoute₇
  have hunique := h.unique
  have hpaire := h.paire
  unfold ajoutsFinis solde at h3 h7
  unfold solde retraitsFinis at hunique
  unfold retraitsFinis at hpaire
  simp only [hactions, List.count_nil, Nat.cast_zero, add_zero, sub_zero] at *
  have hplace : 1 ≤ s.petri.M t.place := by
    have := hprovision t.place
    omega
  have hprovision' := retraits_pourvus ht hprovision hplace hproduits
  obtain ⟨hj, hp, h32, h76⟩ := jeton_transition hk
  constructor
  · exact hprovision'
  · show s.petri.M 0 + _ - _ + (s.petri.M 10 + _ - _) + ((s.retraits 532 + _ : ℕ) : ℤ) = 1
    push_cast
    linarith
  · show s.retraits 576 + _ = s.retraits 532 + _
    rw [hp, hpaire]
  · show 1 ≤ ((s.ajouts (3, 2) + _ : ℕ) : ℤ) + (s.petri.M 0 + _ - _)
    push_cast
    linarith
  · show 1 ≤ ((s.ajouts (7, 6) + _ : ℕ) : ℤ) + (s.petri.M 0 + _ - _)
    push_cast
    linarith

/-! ### The runs -/

/-- What is kept by the steps that are ready. -/
structure Pourvue (s : Boucle) : Prop where
  comptes : Comptes s
  jeton : Jeton s
  place : Place s

theorem reste_ne (k : ℕ) (hk : k ≤ 1) : ([] : List Transition) ≠ transitions.drop k := by
  intro h
  have hlen := congrArg List.length h
  rw [List.length_drop, show transitions.length = 28 from rfl, List.length_nil] at hlen
  omega

/-- Between two iterations nothing is promised. -/
theorem place_of_libre {s : Boucle} (hvidage : s.vidage = false) (hreste : s.petri.reste = []) :
    Place s where
  vidage h := by
    rw [hvidage] at h
    cases h
  premiere h := by
    rw [hreste] at h
    exact absurd h (reste_ne 0 (by decide))
  deuxieme h := by
    rw [hreste] at h
    exact absurd h (reste_ne 1 (by decide))

/-- An iteration starts. -/
theorem Pourvue.iterer {s : Boucle} (h : Pourvue s) (hlibre : s.Libre) {c : Capteurs}
    (hprete : s.Prete (.iterer c)) :
    Pourvue { s with petri := { s.petri with capteurs := c }, vidage := true } where
  comptes := { h.comptes with }
  jeton := h.jeton.mono rfl rfl (fun _ => le_rfl) rfl rfl fun _ => le_rfl
  place :=
    { vidage := fun _ => ⟨hlibre.2.1, hlibre.2.2, hprete⟩
      premiere := fun hreste => absurd (hlibre.2.2.symm.trans hreste) (reste_ne 0 (by decide))
      deuxieme := fun hreste => absurd (hlibre.2.2.symm.trans hreste) (reste_ne 1 (by decide)) }

/-- A turn of the drain. -/
theorem Pourvue.vider {s : Boucle} (h : Pourvue s) (hvidage : s.vidage = true) :
    Pourvue s.vider := by
  obtain ⟨hactions, hreste, hprete⟩ := h.place.vidage hvidage
  refine ⟨h.comptes.vider, ?_, ?_⟩
  · rcases vider_cases h.comptes.codes with ⟨-, hvider⟩ | ⟨codes, code, -, -, -, hvider⟩
    · rw [hvider]
      exact h.jeton.mono rfl rfl (fun _ => le_rfl) rfl rfl fun _ => le_rfl
    · rw [hvider]
      have hne : ∀ i, i < 500 → i ≠ 500 + code.toNat := fun i hi => by omega
      refine h.jeton.mono rfl rfl ?_ ?_ ?_ fun _ => le_rfl
      · intro i
        show s.petri.M i ≤ Function.update s.petri.M _ (s.petri.M _ + 1) i
        rcases eq_or_ne i (500 + code.toNat) with rfl | hi
        · rw [Function.update_self]
          omega
        · rw [Function.update_of_ne hi]
      · exact Function.update_of_ne (hne 0 (by decide)) _ _
      · exact Function.update_of_ne (hne 10 (by decide)) _ _
  · have hM0 : s.vider.petri.M 0 = s.petri.M 0 ∧ s.vider.petri.capteurs = s.petri.capteurs ∧
        s.vider.ajouts = s.ajouts ∧ s.vider.retraits = s.retraits := by
      rcases vider_cases h.comptes.codes with ⟨-, hvider⟩ | ⟨codes, code, -, -, -, hvider⟩
      · rw [hvider]
        exact ⟨rfl, rfl, rfl, rfl⟩
      · rw [hvider]
        exact ⟨Function.update_of_ne (by omega) _ _, rfl, rfl, rfl⟩
    obtain ⟨hM0, hcapteurs, hajouts, hretraits⟩ := hM0
    -- the law says that the drain loses nothing
    have hdisponible : ∀ poste produit, (1 ≤ poste ∧ poste ≤ 8) → (1 ≤ produit ∧ produit ≤ 6) →
        s.vider.disponible poste produit = s.disponible poste produit := by
      intro poste produit hposte hproduit
      have hapres := h.comptes.vider.loi poste produit hposte hproduit
      rw [hajouts, hretraits, ← h.comptes.loi poste produit hposte hproduit] at hapres
      exact hapres
    rw [← hM0, ← hcapteurs, ← hdisponible 3 2 (by decide) (by decide),
      ← hdisponible 7 6 (by decide) (by decide)] at hprete
    rcases vider_cases h.comptes.codes with ⟨hvide, hvider⟩ | ⟨codes, code, -, -, -, hvider⟩
    · rw [hvider] at hprete ⊢
      refine ⟨nofun, fun _ => ⟨hactions, hvide, fun h0 hps => ?_⟩, fun hdeux => ?_⟩
      · obtain ⟨h32, h76⟩ := hprete h0 hps
        have hcount : ∀ code, s.attente.count code = 0 := fun code => by rw [hvide]; rfl
        unfold disponible attente at h32 h76
        unfold attente at hcount
        simp only [hcount, Nat.cast_zero, add_zero] at h32 h76
        exact ⟨h32, h76⟩
      · have hlen := congrArg List.length hdeux
        rw [List.length_drop, show transitions.length = 28 from rfl] at hlen
        cases hlen
    · rw [hvider] at hprete ⊢
      refine ⟨fun _ => ⟨hactions, hreste, hprete⟩, fun hun => ?_, fun hdeux => ?_⟩
      · exact absurd (hreste.symm.trans hun) (reste_ne 0 (by decide))
      · exact absurd (hreste.symm.trans hdeux) (reste_ne 1 (by decide))

/-- The places after a test that does not fire. -/
theorem Pourvue.passer {s : Boucle} {t : Transition} {reste : List Transition} {k : ℕ}
    (h : Pourvue s) (hactions : s.actions = []) (hreste : s.petri.reste = t :: reste)
    (hk : transitions.drop k = t :: reste) (hnon : ¬Franchissable s.petri t)
    (h10 : 1 ≤ s.petri.M 10) (hk0 : k = 0) :
    1 ≤ s.petri.M 532 ∧ 1 ≤ s.petri.M 576 := by
  subst hk0
  obtain ⟨-, hvide, -⟩ := h.place.premiere (hreste.trans hk.symm)
  obtain ⟨hplace, hconditions, -⟩ := premiere_transition t (by rw [hk]; simp)
  -- the first transition has no test but its place, so the place is empty
  have hM0 : s.petri.M 0 = 0 := by
    by_contra hne
    refine hnon ⟨by rwa [hplace], ?_⟩
    rw [hconditions]
    simp
  have h3 := h.jeton.ajoute₃
  have h7 := h.jeton.ajoute₇
  have hunique := h.jeton.unique
  have hpaire := h.jeton.paire
  have hloi3 := h.comptes.loi 3 2 (by decide) (by decide)
  have hloi7 := h.comptes.loi 7 6 (by decide) (by decide)
  rw [show placeProduit 3 2 = 532 from rfl, hvide] at hloi3
  rw [show placeProduit 7 6 = 576 from rfl, hvide] at hloi7
  unfold ajoutsFinis solde at h3 h7
  unfold solde retraitsFinis at hunique
  unfold retraitsFinis at hpaire
  simp only [hactions, List.count_nil, Nat.cast_zero, add_zero, sub_zero, hM0] at *
  omega

/-- A transition is tested. -/
theorem Pourvue.tester {s s' : Boucle} {t : Transition} {reste : List Transition} (h : Pourvue s)
    (hactions : s.actions = []) (hreste : s.petri.reste = t :: reste)
    (hs : s.etape .tester = some s') : Pourvue s' := by
  have hcomptes := h.comptes.etape hs
  obtain ⟨k, hk⟩ := h.comptes.reste
  have hdrop : transitions.drop k = t :: reste := hk.symm.trans hreste
  rw [etape_tester hactions hreste] at hs
  cases hs
  have hvidage : s.vidage ≠ true := by
    intro hv
    have hvide := (h.place.vidage hv).2.1
    rw [hreste] at hvide
    cases hvide
  have hlength : reste.length + 1 = transitions.length - k := by
    rw [← List.length_drop, hdrop, List.length_cons]
  have hpremiere : reste ≠ transitions := by
    rintro rfl
    omega
  have hdeuxieme : reste = transitions.drop 1 → k = 0 := by
    intro hr
    rw [hr, List.length_drop, show transitions.length = 28 from rfl] at hlength
    omega
  by_cases hfr : Franchissable s.petri t
  · simp only [if_pos hfr] at hcomptes ⊢
    have hproduits : t.place = 10 → 1 ≤ s.petri.M 532 ∧ 1 ≤ s.petri.M 576 := by
      intro h10
      rcases transition_cases hdrop with ⟨-, hmem⟩ | ⟨rfl, hmem⟩ | ⟨-, hmem⟩
      · rw [(premiere_transition t hmem).1] at h10
        cases h10
      -- the sensor is active in this iteration, so the products are there
      · have hps : s.petri.capteurs.getPS 1 = true :=
          hfr.2 (.ps 1) (deuxieme_transition t hmem).2.1
        have hM10 : 1 ≤ s.petri.M 10 := by
          have hpos := h.jeton.provision 10
          have hne := hfr.1
          rw [h10] at hne
          omega
        have hplace := h.place.deuxieme hk hps
        unfold solde at hplace
        simp only [hactions, List.count_nil, Nat.cast_zero, add_zero, sub_zero] at hplace
        exact hplace hM10
      · exact absurd h10 (autres_transitions t hmem).1.2.1
    refine ⟨hcomptes, h.jeton.franchir hactions hdrop hfr.1 hproduits, ?_⟩
    refine ⟨fun hv => absurd hv hvidage, fun hr => absurd hr hpremiere, fun hr hps _ => ?_⟩
    obtain rfl := hdeuxieme hr
    obtain ⟨hplace, -, -, -, h532, h576, -⟩ := premiere_transition t (by rw [hdrop]; simp)
    have hM0 : s.petri.M 0 ≠ 0 := hplace ▸ hfr.1
    obtain ⟨-, -, hpret⟩ := h.place.premiere hk
    have hretire : ∀ i ≠ 0, t.actions.count (.marquer i (-1)) = 0 := by
      intro i hi
      rw [count_retire, retraits_transitions t (List.mem_of_mem_drop (i := 0) (by rw [hdrop]; simp)),
        hplace]
      simp [hi.symm]
    unfold solde
    dsimp only
    rw [h532, h576, hretire 532 (by decide), hretire 576 (by decide)]
    simpa using hpret hM0 hps
  · simp only [if_neg hfr] at hcomptes ⊢
    have hjeton : Jeton { s with petri := { s.petri with reste }, actions := [] } :=
      h.jeton.mono hactions.symm rfl (fun _ => le_rfl) rfl rfl fun _ => le_rfl
    refine ⟨hcomptes, hjeton, ?_⟩
    refine ⟨fun hv => absurd hv hvidage, fun hr => absurd hr hpremiere, fun hr _ h10 => ?_⟩
    unfold solde at h10 ⊢
    simp only [List.count_nil, Nat.cast_zero, add_zero, sub_zero] at h10 ⊢
    exact h.passer hactions hreste hdrop hfr h10 (hdeuxieme hr)

/-- A statement is executed. -/
theorem Pourvue.executer {s : Boucle} {a : Action} {actions : List Action} (h : Pourvue s)
    (hactions : s.actions = a :: actions) :
    Pourvue ({ s with petri := s.petri.executer a, actions }.compterAction a) := by
  have ha : Sain a := h.comptes.sain a (by simp [hactions])
  have heffet := effet_executer ha h.comptes.nbRobot
  obtain ⟨hpetri, hvidage, -, -, -⟩ :=
    compterAction_spec { s with petri := s.petri.executer a, actions } a
  have hsolde := fun i => (executer_solde h.comptes hactions i).1
  refine ⟨h.comptes.executer hactions, h.jeton.executer h.comptes hactions, ?_⟩
  constructor
  · intro hv
    rw [hvidage] at hv
    rw [(h.place.vidage hv).1] at hactions
    cases hactions
  · intro hr
    rw [hpetri, heffet.reste] at hr
    rw [(h.place.premiere hr).1] at hactions
    cases hactions
  · rw [hpetri, heffet.reste, heffet.capteurs, hsolde, hsolde, hsolde]
    exact h.place.deuxieme

/-- Every step that is ready keeps the invariant. -/
theorem Pourvue.etape {s s' : Boucle} {p : Pas} (h : Pourvue s) (hprete : s.Prete p)
    (hs : s.etape p = some s') : Pourvue s' := by
  have hcomptes := h.comptes.etape hs
  cases etape_inv hs with
  | iterer c hlibre hplay hfin => exact h.iterer hlibre hprete
  | vider hvidage => exact h.vider hvidage
  | tester t reste hactions hreste => exact h.tester hactions hreste hs
  | executer a actions hactions => exact h.executer hactions
  | retour numRobot data hlibre =>
    exact ⟨hcomptes, h.jeton.mono rfl rfl (fun _ => le_rfl) rfl rfl fun _ => le_rfl,
      place_of_libre hlibre.1 hlibre.2.2⟩
  | pushBack poste produit hlibre hposte hproduit =>
    refine ⟨hcomptes, h.jeton.mono rfl rfl (fun _ => le_rfl) rfl rfl fun x => ?_,
      place_of_libre hlibre.1 hlibre.2.2⟩
    show s.ajouts x ≤ compter s.ajouts (poste, produit) x
    rw [compter_apply]
    omega
  | play b hlibre =>
    exact ⟨hcomptes, h.jeton.mono rfl rfl (fun _ => le_rfl) rfl rfl fun _ => le_rfl,
      place_of_libre hlibre.1 hlibre.2.2⟩

theorem pourvue_initial : Pourvue initial where
  comptes := comptes_initial
  jeton :=
    { provision := by
        intro i
        show (0 : ℤ) ≤ if i = 0 then 1 else 0
        split_ifs <;> decide
      unique := rfl
      paire := rfl
      ajoute₃ := by decide
      ajoute₇ := by decide }
  place := place_of_libre rfl rfl

/-- **The marking of the products**, when the iteration that fires the first transition does not
find the stop sensor 1 active before the two products are there: at every point of every iteration
the law of the products holds, and no place has a negative number of tokens. -/
theorem marquage_des_produits {trace : List Pas} {s : Boucle}
    (h : Reactive.Run (Reactive.Guarded Prete etape) initial trace s) :
    (∀ poste produit, (1 ≤ poste ∧ poste ≤ 8) → (1 ≤ produit ∧ produit ≤ 6) →
      s.petri.M (placeProduit poste produit) + (s.attente.count (poste * 10 + produit) : ℤ) =
        s.ajouts (poste, produit) - s.retraits (placeProduit poste produit)) ∧
    ∀ i, 0 ≤ s.petri.M i := by
  have hstep : ∀ (_ : List Pas) s p s', Pourvue s → Reactive.Guarded Prete etape s p s' →
      Pourvue s' := fun _ _ _ _ hs hp => hs.etape hp.1 hp.2
  have hfin := Reactive.Run.invariant pourvue_initial hstep h
  refine ⟨hfin.comptes.loi, fun i => ?_⟩
  have hi := hfin.jeton.provision i
  omega

instance (s : Boucle) (p : Pas) : Decidable (s.Prete p) := by
  cases p <;> unfold Prete <;> infer_instance

/-- A sensor image with the stop sensor 1 alone. -/
def capteurPS1 : Capteurs := { Capteurs.initial with PSx := fun i => i == 1 }

/-- The simulation plays, and the first transition is fired: the drain finds nothing, and the
transition has five statements. -/
def debutNet (c : Capteurs) : List Pas :=
  [.play true, .iterer c, .vider, .tester] ++ List.replicate 5 .executer

/-- The second transition is tested in the iteration of the first one, and takes the two
products. -/
def produitsPris : List Pas := debutNet capteurPS1 ++ [.tester, .executer, .executer, .executer]

/-- The first transition is fired while the sensor 1 is not active. -/
theorem marquage_des_produits_debut : ∃ s : Boucle,
    Reactive.Run (Reactive.Guarded Prete etape) initial (debutNet .initial) s ∧
      s.petri.M 10 = 1 ∧ s.attente.count 32 = 1 ∧ s.ajouts (3, 2) = 1 ∧ ∀ i, 0 ≤ s.petri.M i := by
  obtain ⟨s, hs, h10, h32, ha⟩ : ∃ s, Reactive.execute Prete etape initial (debutNet .initial) = some s ∧
      s.petri.M 10 = 1 ∧ s.attente.count 32 = 1 ∧ s.ajouts (3, 2) = 1 := ⟨_, rfl, rfl, rfl, rfl⟩
  have hrun := Reactive.run_execute .nil hs
  exact ⟨s, hrun, h10, h32, ha, (marquage_des_produits hrun).2⟩

/-- **A negative number of tokens**: the sensor 1 is active in the first iteration. -/
theorem produitsPris_negatif : ∃ s : Boucle,
    Reactive.Run (fun s p s' => etape s p = some s') initial produitsPris s ∧
      s.petri.M 532 = -1 ∧ s.petri.M 576 = -1 ∧ s.attente.count 32 = 1 := by
  obtain ⟨s, hs, h532, h576, h32⟩ : ∃ s,
      Reactive.execute (fun _ _ => True) etape initial produitsPris = some s ∧
      s.petri.M 532 = -1 ∧ s.petri.M 576 = -1 ∧ s.attente.count 32 = 1 :=
    ⟨_, rfl, rfl, rfl, rfl⟩
  exact ⟨s, (Reactive.run_execute .nil hs).mono fun _ _ _ h => h.2, h532, h576, h32⟩

end Boucle

end Commande
