import Cellule.Atelier.Routines
import Cellule.Lib.Contract
import Cellule.Reseau.Noeuds
import Cellule.Robots.Calme

/-! # A product added on a post with a task

`addProduct` of `commande_locale` and the `update` of the robot of the post, with the simulator
between them. The simulator handles the requests of the two nodes in any order, and the robot
receives `StopTache` at any time after it is sent.
-/

namespace Reseau

open Reactive Reactive.Prog Robots Atelier

/-- The two nodes, the simulator, and the `StopTache` messages on their way. -/
structure Ajout (τ : Type) where
  robot : Noeud τ
  locale : NoeudLocale τ
  sim : Simulateur τ
  stopTaches : List ℤ

/-- What can happen. -/
inductive EvenementAjout (τ : Type)
  /-- The main loop of the robot node calls `update`. -/
  | update
  /-- The simulator handles the request of the robot node, and replies. -/
  | traiterRobot
  | continuerRobot
  /-- The simulator handles the request of `commande_locale`, and replies. -/
  | traiterLocale
  | continuerLocale
  | livrerStopTache
  | horloge (temps : τ)

namespace Ajout

variable {τ : Type}

/-- The message that carries a reply of the simulator. -/
def messageDe : (q : Requete) → q.Reponse τ → Option (ReponseSim τ)
  | .setJointState _ _, _ => some .setJointState
  | .getJointState _ _, position => some (.getJointState position)
  | .getTime, time => some (.getTime time)
  | .getTimeUpdate, time => some (.getTimeUpdate time)
  | .getColor _ _, couleur => some (.getColor couleur)
  | .changeColor _, _ => some .changeColor
  | .changeShuttleColor _, _ => some .changeShuttleColor
  | .getIdShuttle _ _, _ => none

/-- The simulator handles the request in flight of a node. `update` and `addProduct` wait for one
reply at a time and `stopTacheCallback` for none, so it is the request of the running routine. -/
def traiter {P σ : Type} (code : P → Prog (interface τ) σ Unit)
    (n : Node (interface τ) Canal (ReponseSim τ) σ) (w : Simulateur τ) :
    Option (Node (interface τ) Canal (ReponseSim τ) σ × Simulateur τ) :=
  match n.stack with
  | [] => none
  | f :: _ =>
      let (v, w') := Simulateur.repondre f.wait.request w
      (messageDe f.wait.request v).bind fun m =>
        (n.step (liaisons τ) code (.receive m)).map fun n' => (n', w')

variable [Horloge τ]

/-- One step. -/
def etape (s : Ajout τ) : EvenementAjout τ → Option (Ajout τ)
  | .update =>
      if s.robot.stack.isEmpty then (s.robot.etape (.start .update)).map fun robot => { s with robot }
      else none
  | .traiterRobot =>
      (traiter Activation.code s.robot s.sim).map fun (robot, sim) => { s with robot, sim }
  | .continuerRobot => (s.robot.etape .resume).map fun robot => { s with robot }
  | .traiterLocale =>
      (traiter (codeLocale τ) s.locale s.sim).map fun (locale, sim) => { s with locale, sim }
  | .continuerLocale =>
      (s.locale.step (liaisons τ) (codeLocale τ) .resume).map fun locale =>
        { s with
          locale := { locale with posted := [] }
          stopTaches := s.stopTaches ++
            Noeuds.stopTachesDe s.robot.attributes.numRobot locale.posted }
  | .livrerStopTache =>
      match s.stopTaches with
      | [] => none
      | data :: reste =>
          (s.robot.etape (.start (.stopTache data))).map fun robot =>
            { s with robot, stopTaches := reste }
  | .horloge temps => some { s with sim := { s.sim with temps } }

omit [Horloge τ] in
/-- `addProduct` has begun, and the robot is in its main loop. -/
def initial (a : Robot τ) (w : Simulateur τ) (produit poste : ℤ) : Ajout τ where
  robot := .idle a
  locale := .advance (liaisons τ) (codeLocale τ (produit, poste)) (.idle ())
  sim := w
  stopTaches := []

omit [Horloge τ] in
/-- The post, at a position of the robot, holds a product and has a task in progress. -/
structure Occupe (a : Robot τ) (w : Simulateur τ) (poste position : ℤ) : Prop where
  robot : Equipe a
  cible : CommandeLocale.computeNumRobotPosteTache poste = some (a.numRobot, position)
  produit : (w.couleur (CommandeLocale.nomTable (CommandeLocale.computeTableId poste))).base ≠ 0
  tache : (a.poste position).taskEnCours = true

omit [Horloge τ] in
/-- A request that gives the table new colours. -/
def Ecrit (nom : String) : Requete → Prop
  | .changeColor (id :: _) => CommandeLocale.nomTable id = nom
  | _ => False

omit [Horloge τ] in
instance (nom : String) (q : Requete) : Decidable (Ecrit nom q) := by
  unfold Ecrit
  split <;> infer_instance

omit [Horloge τ] in
/-- The simulator gives the table the colours of the robot only before those of `addProduct`. -/
def EcritAvant (nom : String) (s : Ajout τ) : EvenementAjout τ → Prop
  | .traiterRobot =>
      (∃ f ∈ s.robot.stack.head?, Ecrit nom f.wait.request) → s.locale.received .changeColor = []
  | _ => True

omit [Horloge τ] in
instance (nom : String) (s : Ajout τ) (e : EvenementAjout τ) : Decidable (EcritAvant nom s e) := by
  unfold EcritAvant
  split <;> infer_instance

/-! ## What the robot asks for -/

omit [Horloge τ] in
/-- A request that leaves a visible base on every table that it changes. -/
def GardeBase : Requete → Prop
  | .changeColor data => data.getD 1 0 ≠ 0
  | .changeShuttleColor _ => False
  | _ => True

omit [Horloge τ] in
/-- The colours of a table that a request does not change. -/
theorem couleur_repondre {nom : String} {q : Requete} (hq : GardeBase q) (hnom : ¬ Ecrit nom q)
    (w : Simulateur τ) : (Simulateur.repondre q w).2.couleur nom = w.couleur nom := by
  cases q with
  | changeColor data =>
    cases data with
    | nil => rfl
    | cons id cubes => exact Function.update_of_ne (Ne.symm hnom) ..
  | changeShuttleColor data => exact hq.elim
  | _ => rfl

omit [Horloge τ] in
/-- A table keeps a visible base. -/
theorem base_repondre {nom : String} {q : Requete} (hq : GardeBase q) {w : Simulateur τ}
    (hbase : (w.couleur nom).base ≠ 0) : ((Simulateur.repondre q w).2.couleur nom).base ≠ 0 := by
  by_cases hnom : Ecrit nom q
  · cases q with
    | changeColor data =>
      cases data with
      | nil => exact hnom.elim
      | cons id cubes =>
        have hid : CommandeLocale.nomTable id = nom := hnom
        subst hid
        show (Function.update w.couleur _ (Pile.ofList cubes) _).base ≠ 0
        rw [Function.update_self, Pile.base, Pile.cube_ofList cubes (by decide)]
        exact hq
    | _ => exact hnom.elim
  · rw [couleur_repondre hq hnom]
    exact hbase

omit [Horloge τ] in
/-- The robot keeps its number and its posts, and a visible base on the tables. -/
def gardeBase (τ : Type) (numRobot : ℤ) : Contract (interface τ) (Robot τ) where
  inv s := s.numRobot = numRobot ∧ Equipe s
  held _ := 0
  carried _ := 0
  asks := GardeBase
  replies _ _ := True

open Contract

variable {r : ℤ}

section Quiet

omit [Horloge τ]

theorem quiet_demander {q : Requete} {res : q.Reponse τ → Prop} (hq : GardeBase q) (h : ∀ v, res v) :
    (gardeBase τ r).Quiet res (q.demander : Robots.Code τ (q.Reponse τ)) :=
  ⟨hq, fun v _ => h v⟩

theorem quiet_retourner {data : ℤ} {res : Unit → Prop} (h : res ()) :
    (gardeBase τ r).Quiet res (Robot.retourner data : Robots.Code τ Unit) := by
  refine ⟨?_, fun s _ => ⟨rfl, h⟩⟩
  exact fun s hs => ⟨⟨hs.1, hs.2.num, hs.2.poste⟩, rfl⟩

/-- Replacing a post by one with the same name, number and colour. -/
theorem quiet_setPoste {position : ℤ} {f : Poste τ → Poste τ}
    (hf : ∀ p, (f p).nomPoste = p.nomPoste ∧ (f p).numeroPoste = p.numeroPoste ∧
      (f p).couleur = p.couleur) {res : Unit → Prop} (h : res ()) :
    (gardeBase τ r).Quiet res
      (Prog.modify fun s => s.setPoste position (f (s.poste position)) : Robots.Code τ Unit) := by
  refine ⟨fun s ⟨hnum, hs⟩ => ⟨⟨(setPoste_numRobot ..).trans hnum, hs.setPoste ?_⟩, rfl⟩, h⟩
  obtain ⟨hnom, hnumero, hcouleur⟩ := hf (s.poste position)
  have hp := hs.poste position
  exact ⟨hnom.trans hp.nomPoste, hnumero.trans hp.numeroPoste, hcouleur.trans hp.couleur⟩

/-- The scan goes on after the first cube only when that cube is visible. -/
theorem quiet_chercherCaseVide (signal : String) (reste i : ℕ) :
    (gardeBase τ r).Quiet (fun lus => 2 ≤ lus.length → lus.getD 0 0 ≠ 0)
      (Robot.chercherCaseVide signal reste i : Robots.Code τ (List ℤ)) := by
  induction reste generalizing i with
  | zero => exact fun h => absurd h (by simp)
  | succ reste ih =>
    rw [Robot.chercherCaseVide, quiet_bind]
    refine quiet_demander trivial fun couleur => ?_
    split_ifs with hcouleur
    · exact fun h => absurd h (by simp)
    · exact quiet_bind.2 ((ih (i + 1)).mono fun _ _ _ => hcouleur)

/-- The colours that the end of a task sends back have a visible base. -/
theorem getD_tableau_set {lus : List ℤ} {indice : ℕ} (hlus : 2 ≤ lus.length → lus.getD 0 0 ≠ 0)
    (hcase : Robot.caseFinTask lus = some indice) {couleur : ℤ} (hcouleur : couleur ≠ 0) :
    ((Robot.tableau lus).set indice couleur).getD 0 0 ≠ 0 := by
  have hlength : 2 ≤ lus.length := by
    unfold Robot.caseFinTask nbCube at hcase
    split_ifs at hcase with hplein hdeux
    · omega
    · exact hdeux
  obtain ⟨c, suite, rfl⟩ := List.exists_cons_of_length_pos (by omega : 0 < lus.length)
  cases indice with
  | zero => exact hcouleur
  | succ indice => exact hlus hlength

theorem quiet_colorerPosteFinTask (position duree : ℤ) :
    (gardeBase τ r).Quiet (fun _ => True)
      (Robot.colorerPosteFinTask position duree : Robots.Code τ ℕ) := by
  unfold Robot.colorerPosteFinTask
  rw [quiet_bind, quiet_get]
  intro s ⟨_, hs⟩
  dsimp only
  have hcouleur : (s.poste position).couleur ≠ 0 := by
    rw [(hs.poste position).couleur]
    have hpos := tableDe_pos hs.num position
    omega
  rw [quiet_bind]
  refine (quiet_chercherCaseVide _ _ _).mono fun lus hlus => ?_
  cases hcase : Robot.caseFinTask lus with
  | none => trivial
  | some indice =>
    exact quiet_bind.2 (quiet_demander (getD_tableau_set hlus hcase hcouleur) fun _ => ⟨rfl, trivial⟩)

end Quiet

theorem quiet_updatePoste (position : ℤ) (time : τ) :
    (gardeBase τ r).Quiet (fun _ => True)
      (Robot.updatePoste position time : Robots.Code τ (Option ℕ)) := by
  unfold Robot.updatePoste
  rw [quiet_bind, quiet_get]
  intro s _
  split_ifs
  · refine quiet_bind.2 (quiet_setPoste (f := fun p => (p.updateTask time).2) ?_ ?_)
    · intro p
      unfold Poste.updateTask
      split_ifs <;> exact ⟨rfl, rfl, rfl⟩
    · refine quiet_bind.2 ((quiet_colorerPosteFinTask _ _).mono fun indice _ => ?_)
      exact quiet_bind.2 ⟨trivial, quiet_bind.2 (quiet_retourner trivial)⟩
  · trivial

theorem quiet_update :
    (gardeBase τ r).Quiet (fun _ => True) (Robot.update : Robots.Code τ (Option ℕ × Option ℕ)) := by
  unfold Robot.update
  rw [quiet_bind, quiet_get]
  intro s _
  split_ifs
  · refine quiet_bind.2 (quiet_demander trivial fun time => ?_)
    refine quiet_bind.2 ((quiet_updatePoste 1 time).mono fun _ _ => ?_)
    exact quiet_bind.2 ((quiet_updatePoste 4 time).mono fun _ _ => trivial)
  · trivial

omit [Horloge τ] in
theorem quiet_stopTacheCallback (data : ℤ) :
    (gardeBase τ r).Quiet (fun _ => True) (Robot.stopTacheCallback data : Robots.Code τ Unit) := by
  unfold Robot.stopTacheCallback
  split_ifs
  · refine quiet_bind.2 (quiet_setPoste (f := Poste.stopTask) ?_ (quiet_retourner trivial))
    exact fun p => ⟨rfl, rfl, rfl⟩
  · trivial

/-! ## The task of the post -/

omit [Horloge τ] in
/-- No task begins on the post. -/
def sansReprise (τ : Type) (position : ℤ) : Pact (Robot τ) where
  rely _ _ := True
  guar s s' := (s.poste position).taskEnCours = false → (s'.poste position).taskEnCours = false
  rely_trans _ _ := trivial
  guar_refl _ h := h
  guar_trans h h' := h' ∘ h

open Pact

/-- The messages of the robot are any messages. -/
abbrev Quelconque : Message → Prop := fun _ => True

section Calm

omit [Horloge τ]

variable {position : ℤ}

theorem calm_retourner (data : ℤ) :
    (sansReprise τ position).Calm Quelconque (Robot.retourner data : Robots.Code τ Unit) :=
  ⟨fun _ h => h, fun _ => ⟨trivial, trivial⟩⟩

/-- A post is replaced by one whose task does not begin. -/
theorem guar_setPoste {autre : ℤ} {p : Poste τ} {s : Robot τ}
    (hp : (s.poste autre).taskEnCours = false → p.taskEnCours = false) :
    (sansReprise τ position).guar s (s.setPoste autre p) := by
  intro h
  rw [poste_setPoste]
  split_ifs with hmeme
  · apply hp
    rwa [poste_congr s hmeme.symm]
  · exact h

theorem calm_stopTacheCallback (data : ℤ) :
    (sansReprise τ position).Calm Quelconque (Robot.stopTacheCallback data : Robots.Code τ Unit) := by
  unfold Robot.stopTacheCallback
  refine Calm.ite (Calm.bind (calm_modify fun s => ?_) fun _ => calm_retourner _) trivial
  exact guar_setPoste fun _ => rfl

end Calm

theorem calm_updatePoste (position autre : ℤ) (time : τ) :
    (sansReprise τ position).Calm Quelconque
      (Robot.updatePoste autre time : Robots.Code τ (Option ℕ)) := by
  unfold Robot.updatePoste
  refine calm_get.bind fun s => Calm.ite (Calm.bind (calm_modify fun s => ?_) fun _ => ?_) trivial
  · refine guar_setPoste fun h => ?_
    unfold Poste.updateTask
    split_ifs
    · rfl
    · exact h
  · refine (Robot.calm_colorerPosteFinTask (fun _ _ => trivial) _ _).bind fun indice => ?_
    exact Calm.bind trivial fun _ => (calm_retourner _).bind fun _ => trivial

theorem calm_update (position : ℤ) : (sansReprise τ position).Calm Quelconque
    (Robot.update : Robots.Code τ (Option ℕ × Option ℕ)) := by
  unfold Robot.update
  refine calm_get.bind fun s => Calm.ite (Calm.bind (fun _ => trivial) fun time => ?_) trivial
  refine (calm_updatePoste position 1 time).bind fun _ => ?_
  exact (calm_updatePoste position 4 time).bind fun _ => trivial

/-! ## The robot node -/

/-- What the robot node keeps: its number, visible bases, and code that begins no task. -/
structure Tient (r position : ℤ) (n : Noeud τ) : Prop where
  base : ∃ ns, (gardeBase τ r).Kept n ns ∧ ns.sum = 0
  calme : (sansReprise τ position).CalmNode Quelconque n

omit [Horloge τ] in
/-- No activation holds a token. -/
theorem tokens_gardeBase (n : Noeud τ) (ns : List ℕ) : (gardeBase τ r).tokens n ns = ns.sum := by
  simp [tokens, gardeBase]

/-- The callbacks of the robot while a product is added. -/
theorem quiet_code {p : Activation} (hp : p = .update ∨ ∃ data, p = .stopTache data) :
    (gardeBase τ r).Quiet (fun _ => True) (p.code : Robots.Code τ Unit) := by
  rcases hp with rfl | ⟨data, rfl⟩
  · exact quiet_bind.2 (quiet_update.mono fun _ _ => trivial)
  · exact quiet_stopTacheCallback data

theorem calm_code {position : ℤ} {p : Activation} (hp : p = .update ∨ ∃ data, p = .stopTache data) :
    (sansReprise τ position).Calm Quelconque (p.code : Robots.Code τ Unit) := by
  rcases hp with rfl | ⟨data, rfl⟩
  · exact (calm_update position).bind fun _ => trivial
  · exact calm_stopTacheCallback data

/-- A step of the robot node. -/
theorem Tient.step {position : ℤ} {n n' : Noeud τ} {e : EvenementNoeud τ} (h : Tient r position n)
    (he : ∀ p, e = .start p → p = .update ∨ ∃ data, p = .stopTache data)
    (hs : n.etape e = some n') :
    Tient r position n' ∧ (sansReprise τ position).guar n.attributes n'.attributes := by
  obtain ⟨⟨ns, hkept, hsum⟩, hcalme⟩ := h
  have hone : (gardeBase τ r).held n.attributes + ns.sum ≤ 1 := by
    rw [hsum]
    exact Nat.zero_le _
  have hstart : ∀ p, e = .start p →
      (gardeBase τ r).Respects (p.code : Robots.Code τ Unit) 0 n.attributes := by
    intro p hp
    have hfits : (gardeBase τ r).Fits 0 n.attributes := ⟨hkept.inv, Nat.zero_le _⟩
    exact ((quiet_code (he p hp)).meets hfits).mono fun _ _ _ _ => trivial
  obtain ⟨ns', hkept', htokens⟩ :=
    hkept.step hone hstart (fun _ _ _ => trivial) (fun _ _ _ _ _ => trivial) hs
  rw [tokens_gardeBase, tokens_gardeBase, hsum] at htokens
  obtain ⟨hcalme', hguar⟩ := hcalme.step (fun p hp => calm_code (he p hp)) hs
  exact ⟨⟨⟨ns', hkept', by omega⟩, hcalme'⟩, hguar⟩

omit [Horloge τ] in
/-- The running routine of the robot node asks for a base. -/
theorem Tient.gardeBase {position : ℤ} {n : Noeud τ} (h : Tient r position n)
    {f : Frame (interface τ) (Robot τ)} {rest : List (Frame (interface τ) (Robot τ))}
    (hstack : n.stack = f :: rest) : GardeBase f.wait.request := by
  obtain ⟨⟨ns, hkept, -⟩, -⟩ := h
  have hframes := hkept.frames
  rw [hstack] at hframes
  obtain ⟨_, _, hf, -⟩ := List.forall₂_cons_right_iff.1 hframes
  exact hf.1

omit [Horloge τ] in
/-- What the simulator does with the request in flight of a node. -/
theorem traiter_eq_some {P σ : Type} {code : P → Prog (interface τ) σ Unit}
    {n n' : Node (interface τ) Canal (ReponseSim τ) σ} {w w' : Simulateur τ}
    (h : traiter code n w = some (n', w')) : ∃ f rest m, n.stack = f :: rest ∧
      n.step (liaisons τ) code (.receive m) = some n' ∧
        w' = (Simulateur.repondre f.wait.request w).2 := by
  unfold traiter at h
  rcases hstack : n.stack with _ | ⟨f, rest⟩
  · rw [hstack] at h
    cases h
  · rw [hstack] at h
    obtain ⟨m, -, hm⟩ := Option.bind_eq_some_iff.1 h
    obtain ⟨n₁, hn₁, hpair⟩ := Option.map_eq_some_iff.1 hm
    cases hpair
    exact ⟨f, rest, m, rfl, hn₁, rfl⟩

/-! ## The phases of `addProduct` -/

section Phases

omit [Horloge τ]

/-- The table of the post. -/
def table (poste : ℤ) : String := CommandeLocale.nomTable (CommandeLocale.computeTableId poste)

variable (produit poste : ℤ)

/-- The colours that `addProduct` sends. -/
def donnees : List ℤ := CommandeLocale.computeTableId poste :: CommandeLocale.pileProduit produit

/-- `addProduct` once the base of the table is read. -/
def suite (couleurLue : ℤ) : CommandeLocale.Code τ Unit := do
  CommandeLocale.verifierPoste poste couleurLue
  let _ ← (Requete.changeColor (donnees produit poste)).demander
  pure ()

/-- The wait for the base of the table. -/
def attenteLecture : Frame (interface τ) Unit :=
  ⟨0, .once (Requete.getColor (table poste) 0) (suite produit poste)⟩

/-- The wait for the new colours. -/
def attenteEcriture : Frame (interface τ) Unit :=
  ⟨0, .once (Requete.changeColor (donnees produit poste)) fun _ => pure ()⟩

/-- The base of the table is asked for. -/
def enLecture : NoeudLocale τ :=
  .advance (liaisons τ) (codeLocale τ (produit, poste)) (.idle ())

/-- The base of the table has come. -/
def lue (couleurLue : ℤ) : NoeudLocale τ :=
  (enLecture produit poste).deliver (liaisons τ) (.getColor couleurLue)

/-- The new colours are sent. -/
def enEcriture (couleurLue : ℤ) : NoeudLocale τ :=
  ((lue produit poste couleurLue).take (liaisons τ) (attenteLecture produit poste) []
    couleurLue).await (liaisons τ) (attenteEcriture produit poste).wait

/-- The table has its new colours. -/
def ecrite (couleurLue : ℤ) : NoeudLocale τ :=
  (enEcriture produit poste couleurLue).deliver (liaisons τ) .changeColor

/-- `addProduct` is over. -/
def finie (couleurLue : ℤ) : NoeudLocale τ :=
  (ecrite produit poste couleurLue).take (liaisons τ) (attenteEcriture produit poste) [] ()

variable {produit poste} (c : ℤ) (w : Simulateur τ)

theorem traiter_enLecture : traiter (codeLocale τ) (enLecture produit poste) w =
    some (lue produit poste (w.couleur (table poste)).base, w) := rfl

theorem traiter_lue : traiter (codeLocale τ) (lue produit poste c) w = none := rfl

theorem traiter_enEcriture : traiter (codeLocale τ) (enEcriture produit poste c) w =
    some (ecrite produit poste c,
      w.peindre (table poste) (Pile.ofList (CommandeLocale.pileProduit produit))) := rfl

theorem traiter_ecrite : traiter (codeLocale τ) (ecrite produit poste c) w = none := rfl

theorem traiter_finie : traiter (codeLocale τ) (finie produit poste c) w = none := rfl

theorem resume_enLecture :
    (enLecture produit poste).step (liaisons τ) (codeLocale τ) .resume = none := rfl

/-- A base that is read stops the task of the post. -/
theorem resume_lue {c : ℤ} (hc : c ≠ 0) {cible : ℤ × ℤ}
    (hcible : CommandeLocale.computeNumRobotPosteTache poste = some cible) :
    (lue produit poste c).step (liaisons τ) (codeLocale τ) .resume =
      some { enEcriture produit poste c with
        posted := [.erreurLog 66 poste, .stopTache cible.1 cible.2] } := by
  have hsuite : (suite produit poste c : CommandeLocale.Code τ Unit) =
      .emit (.erreurLog 66 poste) (.emit (.stopTache cible.1 cible.2)
        (.ask (Requete.changeColor (donnees produit poste)) fun _ => pure ())) := by
    unfold suite CommandeLocale.verifierPoste CommandeLocale.signalerEcrasement
    rw [if_pos hc, hcible]
    rfl
  show some (Node.advance (liaisons τ) (suite produit poste c) _) = _
  rw [hsuite]
  rfl

theorem resume_enEcriture :
    (enEcriture produit poste c).step (liaisons τ) (codeLocale τ) .resume = none := rfl

theorem resume_ecrite : (ecrite produit poste c).step (liaisons τ) (codeLocale τ) .resume =
    some (finie produit poste c) := rfl

theorem resume_finie :
    (finie produit poste c).step (liaisons τ) (codeLocale τ) .resume = none := rfl

end Phases

/-! ## The invariant -/

variable {produit poste position : ℤ} {s s' : Ajout τ}

omit [Horloge τ] in
/-- The task of the post is stopped, or its `StopTache` is on its way. -/
def Arrete (position : ℤ) (s : Ajout τ) : Prop :=
  position ∈ s.stopTaches ∨ (s.robot.attributes.poste position).taskEnCours = false

omit [Horloge τ] in
/-- The colours of the post are those of the product. -/
def Pose (produit poste : ℤ) (s : Ajout τ) : Prop :=
  s.sim.couleur (table poste) = Pile.ofList (CommandeLocale.pileProduit produit)

omit [Horloge τ] in
/-- How far `addProduct` is, and what it has done. -/
inductive Phase (produit poste position : ℤ) (s : Ajout τ) : Prop
  | enLecture (h : s.locale = enLecture produit poste)
  | lue (c : ℤ) (hc : c ≠ 0) (h : s.locale = lue produit poste c)
  | enEcriture (c : ℤ) (h : s.locale = enEcriture produit poste c) (harret : Arrete position s)
  | ecrite (c : ℤ) (h : s.locale = ecrite produit poste c) (harret : Arrete position s)
      (hpose : Pose produit poste s)
  | finie (c : ℤ) (h : s.locale = finie produit poste c) (harret : Arrete position s)
      (hpose : Pose produit poste s)

omit [Horloge τ] in
/-- What holds in every state of a run. -/
structure Inv (r produit poste position : ℤ) (s : Ajout τ) : Prop where
  robot : Tient r position s.robot
  base : (s.sim.couleur (table poste)).base ≠ 0
  phase : Phase produit poste position s

omit [Horloge τ] in
/-- What `commande_locale` sees of a step of the others. -/
theorem Phase.congr (h : Phase produit poste position s) (hlocale : s'.locale = s.locale)
    (harret : Arrete position s → Arrete position s')
    (hcouleur : s.locale.received .changeColor ≠ [] →
      s'.sim.couleur (table poste) = s.sim.couleur (table poste)) :
    Phase produit poste position s' := by
  cases h with
  | enLecture h => exact .enLecture (hlocale.trans h)
  | lue c hc h => exact .lue c hc (hlocale.trans h)
  | enEcriture c h harret' => exact .enEcriture c (hlocale.trans h) (harret harret')
  | ecrite c h harret' hpose =>
    refine .ecrite c (hlocale.trans h) (harret harret') ((hcouleur ?_).trans hpose)
    rw [h]
    exact List.cons_ne_nil _ _
  | finie c h harret' hpose =>
    refine .finie c (hlocale.trans h) (harret harret') ((hcouleur ?_).trans hpose)
    rw [h]
    exact List.cons_ne_nil _ _

/-- A step of the robot node that no `StopTache` begins. -/
theorem Inv.robotFait (h : Inv r produit poste position s) {e : EvenementNoeud τ}
    (he : ∀ p, e = .start p → p = .update ∨ ∃ data, p = .stopTache data) {robot : Noeud τ}
    (hs : s.robot.etape e = some robot) {sim : Simulateur τ}
    (hbase : (sim.couleur (table poste)).base ≠ 0)
    (hcouleur : s.locale.received .changeColor ≠ [] →
      sim.couleur (table poste) = s.sim.couleur (table poste)) :
    Inv r produit poste position { s with robot, sim } := by
  obtain ⟨hrobot, hguar⟩ := h.robot.step he hs
  exact ⟨hrobot, hbase, h.phase.congr rfl (Or.imp_right hguar) hcouleur⟩

/-- The robot receives a `StopTache`. -/
theorem Inv.arreter (h : Inv r produit poste position s) (hposition : position = 1 ∨ position = 4)
    {data : ℤ} {reste : List ℤ} (hstop : s.stopTaches = data :: reste) {robot : Noeud τ}
    (hs : s.robot.etape (.start (.stopTache data)) = some robot) :
    Inv r produit poste position { s with robot, stopTaches := reste } := by
  obtain ⟨hrobot, hguar⟩ := h.robot.step (fun p hp => .inr ⟨data, by cases hp; rfl⟩) hs
  refine ⟨hrobot, h.base, h.phase.congr rfl ?_ fun _ => rfl⟩
  rintro (hmem | hoff)
  · rw [hstop, List.mem_cons] at hmem
    rcases hmem with rfl | hmem
    · right
      generalize he : NodeEvent.start (Activation.stopTache position) = e at hs
      cases Node.step_moves hs with
      | started p =>
        cases he
        show ((Node.advance _ (Robot.stopTacheCallback position) _).attributes.poste
          position).taskEnCours = false
        unfold Robot.stopTacheCallback
        rw [if_pos hposition]
        show ((s.robot.attributes.setPoste position _).poste position).taskEnCours = false
        rw [poste_setPoste, if_pos Iff.rfl]
        rfl
      | _ => cases he
    · exact .inl hmem
  · exact .inr (hguar hoff)

omit [Horloge τ] in
/-- The simulator handles the request of `commande_locale`. -/
theorem Inv.traiterLocale (h : Inv r produit poste position s) {locale : NoeudLocale τ}
    {sim : Simulateur τ} (hs : traiter (codeLocale τ) s.locale s.sim = some (locale, sim)) :
    Inv r produit poste position { s with locale, sim } := by
  have hproduit : (Pile.ofList (CommandeLocale.pileProduit produit)).base ≠ 0 := by
    rw [CommandeLocale.base_pileProduit]
    omega
  cases h.phase with
  | enLecture hlocale =>
    rw [hlocale, traiter_enLecture] at hs
    cases hs
    exact ⟨h.robot, h.base, .lue _ h.base rfl⟩
  | lue c _ hlocale =>
    rw [hlocale, traiter_lue] at hs
    cases hs
  | enEcriture c hlocale harret =>
    rw [hlocale, traiter_enEcriture] at hs
    cases hs
    have hpose : (s.sim.peindre (table poste)
        (Pile.ofList (CommandeLocale.pileProduit produit))).couleur (table poste) =
          Pile.ofList (CommandeLocale.pileProduit produit) := Function.update_self ..
    refine ⟨h.robot, ?_, .ecrite c rfl harret hpose⟩
    exact (congrArg Pile.base hpose).trans_ne hproduit
  | ecrite c hlocale =>
    rw [hlocale, traiter_ecrite] at hs
    cases hs
  | finie c hlocale =>
    rw [hlocale, traiter_finie] at hs
    cases hs

omit [Horloge τ] in
/-- `commande_locale` goes on: past a visible base it has stopped the task of the post. -/
theorem Inv.continuerLocale (h : Inv r produit poste position s)
    (hcible : CommandeLocale.computeNumRobotPosteTache poste = some (r, position))
    {locale : NoeudLocale τ}
    (hs : s.locale.step (liaisons τ) (codeLocale τ) .resume = some locale) :
    Inv r produit poste position { s with
      locale := { locale with posted := [] }
      stopTaches := s.stopTaches ++
        Noeuds.stopTachesDe s.robot.attributes.numRobot locale.posted } := by
  obtain ⟨ns, hkept, -⟩ := h.robot.base
  have hnum : s.robot.attributes.numRobot = r := hkept.inv.1
  refine ⟨h.robot, h.base, ?_⟩
  cases h.phase with
  | enLecture hlocale =>
    rw [hlocale, resume_enLecture] at hs
    cases hs
  | lue c hc hlocale =>
    rw [hlocale, resume_lue hc hcible] at hs
    cases hs
    refine .enEcriture c rfl (.inl (List.mem_append_right _ ?_))
    rw [hnum]
    simp [Noeuds.stopTachesDe]
  | enEcriture c hlocale =>
    rw [hlocale, resume_enEcriture] at hs
    cases hs
  | ecrite c hlocale harret hpose =>
    rw [hlocale, resume_ecrite] at hs
    cases hs
    exact .finie c rfl (harret.imp_left (List.mem_append_left _)) hpose
  | finie c hlocale =>
    rw [hlocale, resume_finie] at hs
    cases hs

/-- What a step keeps, as long as the robot gives the table its colours before `addProduct` does. -/
theorem Inv.step (h : Inv r produit poste position s)
    (hcible : CommandeLocale.computeNumRobotPosteTache poste = some (r, position))
    (hposition : position = 1 ∨ position = 4) {e : EvenementAjout τ}
    (hs : Guarded (EcritAvant (table poste)) etape s e s') : Inv r produit poste position s' := by
  obtain ⟨havant, hs⟩ := hs
  cases e with
  | update =>
    rw [etape] at hs
    split_ifs at hs
    obtain ⟨robot, hrobot, rfl⟩ := Option.map_eq_some_iff.1 hs
    exact h.robotFait (fun p hp => .inl (by cases hp; rfl)) hrobot h.base fun _ => rfl
  | traiterRobot =>
    obtain ⟨⟨robot, sim⟩, htraiter, rfl⟩ := Option.map_eq_some_iff.1 hs
    obtain ⟨f, rest, m, hstack, hrobot, rfl⟩ := traiter_eq_some htraiter
    have hgarde := h.robot.gardeBase hstack
    refine h.robotFait (fun p hp => by cases hp) hrobot (base_repondre hgarde h.base) ?_
    intro hecrit
    apply couleur_repondre hgarde
    intro hnom
    exact hecrit (havant ⟨f, by rw [hstack]; rfl, hnom⟩)
  | continuerRobot =>
    obtain ⟨robot, hrobot, rfl⟩ := Option.map_eq_some_iff.1 hs
    exact h.robotFait (fun p hp => by cases hp) hrobot h.base fun _ => rfl
  | traiterLocale =>
    obtain ⟨⟨locale, sim⟩, htraiter, rfl⟩ := Option.map_eq_some_iff.1 hs
    exact h.traiterLocale htraiter
  | continuerLocale =>
    obtain ⟨locale, hlocale, rfl⟩ := Option.map_eq_some_iff.1 hs
    exact h.continuerLocale hcible hlocale
  | livrerStopTache =>
    rw [etape] at hs
    rcases hstop : s.stopTaches with _ | ⟨data, reste⟩
    · rw [hstop] at hs
      cases hs
    · rw [hstop] at hs
      obtain ⟨robot, hrobot, rfl⟩ := Option.map_eq_some_iff.1 hs
      exact h.arreter hposition hstop hrobot
  | horloge temps =>
    cases hs
    exact ⟨h.robot, h.base, h.phase.congr rfl id fun _ => rfl⟩

omit [Horloge τ] in
/-- The positions of the posts. -/
theorem position_de_cible {r : ℤ}
    (hcible : CommandeLocale.computeNumRobotPosteTache poste = some (r, position)) :
    position = 1 ∨ position = 4 := by
  unfold CommandeLocale.computeNumRobotPosteTache at hcible
  split at hcible <;> cases hcible <;> simp

omit [Horloge τ] in
theorem inv_initial {a : Robot τ} {w : Simulateur τ} (h : Occupe a w poste position) :
    Inv a.numRobot produit poste position (initial a w produit poste) where
  robot := ⟨⟨[], ⟨⟨rfl, h.robot⟩, .nil⟩, rfl⟩, by simp [CalmNode, initial, Node.idle]⟩
  base := h.produit
  phase := .enLecture rfl

omit [Horloge τ] in
/-- The robot and `addProduct` have finished, and `StopTache` has been handled. -/
def Termine (s : Ajout τ) : Prop :=
  s.robot.stack = [] ∧ s.locale.stack = [] ∧ s.stopTaches = []

/-- Adding a product on a busy post is not undone, as long as the simulator gives the table of the
post the colours of the robot before those of `addProduct`. -/
theorem produit_reste {a : Robot τ} {w : Simulateur τ} {produit poste position : ℤ}
    (hoccupe : Occupe a w poste position) {trace : List (EvenementAjout τ)} {s : Ajout τ}
    (h : Run (Guarded (EcritAvant (table poste)) etape) (initial a w produit poste) trace s)
    (hfin : s.Termine) :
    s.sim.couleur (table poste) = Pile.ofList ((10 * produit + 4) :: List.replicate (nbCube - 1) 0) ∧
      (s.robot.attributes.poste position).taskEnCours = false := by
  have hstep : ∀ (_ : List (EvenementAjout τ)) (s : Ajout τ) e s',
      Inv a.numRobot produit poste position s →
        Guarded (EcritAvant (table poste)) etape s e s' → Inv a.numRobot produit poste position s' :=
    fun _ _ _ _ h hs => h.step hoccupe.cible (position_de_cible hoccupe.cible) hs
  have hinv := Run.invariant (inv_initial hoccupe) hstep h
  obtain ⟨-, hlocale, hstop⟩ := hfin
  cases hinv.phase with
  | enLecture h =>
    rw [h] at hlocale
    cases hlocale
  | lue c _ h =>
    rw [h] at hlocale
    cases hlocale
  | enEcriture c h =>
    rw [h] at hlocale
    cases hlocale
  | ecrite c h =>
    rw [h] at hlocale
    cases hlocale
  | finie c h harret hpose =>
    constructor
    · rw [hpose, CommandeLocale.pileProduit, mul_comm]
    · rcases harret with hmem | hoff
      · rw [hstop] at hmem
        cases hmem
      · exact hoff

/-! ## Robot 1 with a task on post 2 -/

/-- Product 1 is on post 2, with a task of five seconds that has begun at the origin. -/
def robotOccupe : Robot ℤ :=
  let a := Robot.init 1
  a.setPoste 1 ((a.poste 1).debutTask 0 5)

/-- Ten seconds later, before the robot looks at its tasks. -/
def simulateurOccupe : Simulateur ℤ where
  couleur nom := if nom = table 2 then Pile.ofList [14, 22] else Pile.vide
  temps := 10
  articulations _ _ := 0
  navettes := []
  ecritures := []
  stopTaches := []
  journal := []

theorem occupe_poste2 : Occupe robotOccupe simulateurOccupe 2 1 := by
  refine ⟨⟨by decide, fun position => ?_⟩, rfl, by decide, rfl⟩
  by_cases hposition : position = 1
  · subst hposition
    exact ⟨rfl, rfl, rfl⟩
  · have hposte : robotOccupe.poste position = robotOccupe.postePos4 := if_neg hposition
    have htable : tableDe robotOccupe.numRobot position = (Robot.nomsPostes 1).2 := if_neg hposition
    rw [hposte, htable]
    exact ⟨rfl, rfl, rfl⟩

/-- The robot ends its task, receives `StopTache` while it looks for the first empty slot, and
colours the table before product 2 is placed. -/
theorem produit_reste_poste2 : ∃ s : Ajout ℤ,
    (s.sim.couleur (table 2) = Pile.ofList ((10 * 2 + 4) :: List.replicate (nbCube - 1) 0) ∧
      (s.robot.attributes.poste 1).taskEnCours = false) ∧ s.sim.ecritures.length = 2 := by
  have hs : (execute (EcritAvant (table 2)) etape (initial robotOccupe simulateurOccupe 2 2)
      [.update, .traiterRobot, .continuerRobot, .traiterLocale, .continuerLocale, .traiterRobot,
        .livrerStopTache, .continuerRobot, .traiterRobot, .continuerRobot, .traiterRobot,
        .continuerRobot, .traiterRobot, .continuerRobot, .traiterRobot, .continuerRobot,
        .traiterLocale, .continuerLocale]).any
      (fun s => decide (s.robot.stack.length = 0 ∧ s.locale.stack.length = 0 ∧ s.stopTaches = [] ∧
        s.sim.ecritures.length = 2)) = true := by
    decide +kernel
  obtain ⟨s, hs, hfin⟩ := (Option.any_eq_true _ _).1 hs
  obtain ⟨hrobot, hlocale, hstop, hecritures⟩ := of_decide_eq_true hfin
  refine ⟨s, produit_reste occupe_poste2 (run_execute .nil hs) ?_, hecritures⟩
  exact ⟨List.length_eq_zero_iff.1 hrobot, List.length_eq_zero_iff.1 hlocale, hstop⟩

/-- The robot ends its task and reads `14` and `22`; product 2 is placed and `StopTache` stops
nothing; then the table takes the colours of product 1 again. -/
theorem produit_efface_par_finTache : ¬ ∀ (a : Robot ℤ) (w : Simulateur ℤ)
    (produit poste position : ℤ),
    Occupe a w poste position → ∀ (trace : List (EvenementAjout ℤ)) (s : Ajout ℤ),
      Run (Guarded (fun _ _ => True) etape) (initial a w produit poste) trace s → s.Termine →
        s.sim.couleur (table poste) =
            Pile.ofList ((10 * produit + 4) :: List.replicate (nbCube - 1) 0) ∧
          (s.robot.attributes.poste position).taskEnCours = false := by
  intro h
  have hs : (execute (fun _ _ => True) etape (initial robotOccupe simulateurOccupe 2 2)
      [.update, .traiterRobot, .continuerRobot, .traiterRobot, .continuerRobot, .traiterRobot,
        .continuerRobot, .traiterRobot, .continuerRobot, .traiterLocale, .continuerLocale,
        .traiterLocale, .continuerLocale, .livrerStopTache, .traiterRobot, .continuerRobot,
        .traiterRobot, .continuerRobot]).any
      (fun s => decide (s.robot.stack.length = 0 ∧ s.locale.stack.length = 0 ∧ s.stopTaches = [] ∧
        (s.sim.couleur (table 2)).toList = [14, 23, 0, 0, 0, 0])) = true := by
    decide +kernel
  obtain ⟨s, hs, hfin⟩ := (Option.any_eq_true _ _).1 hs
  obtain ⟨hrobot, hlocale, hstop, hpile⟩ := of_decide_eq_true hfin
  obtain ⟨hpose, -⟩ := h robotOccupe simulateurOccupe 2 2 1 occupe_poste2 _ s (run_execute .nil hs)
    ⟨List.length_eq_zero_iff.1 hrobot, List.length_eq_zero_iff.1 hlocale, hstop⟩
  rw [hpose] at hpile
  revert hpile
  decide

end Ajout

end Reseau
