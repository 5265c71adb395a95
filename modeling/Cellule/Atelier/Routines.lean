import Cellule.Atelier.Simulateur

/-! # The routines run alone

What each routine of a robot does when it runs to completion while no other node moves.
-/

namespace Atelier

open Reactive Reactive.Prog Robots Robots.Robot

variable {τ : Type} [Horloge τ] {α β : Type}

/-- Run the code of a robot alone. -/
def executer (p : Robots.Code τ α) (s : Robot τ) (w : Simulateur τ) :
    Except Stop (α × Robot τ × Simulateur τ) :=
  p.run Simulateur.handler s w

/-! ## The steps -/

section Steps

variable (s : Robot τ) (w : Simulateur τ)

@[simp] theorem executer_pure (a : α) :
    executer (pure a : Robots.Code τ α) s w = .ok (a, s, w) := rfl

theorem executer_bind (p : Robots.Code τ α) (f : α → Robots.Code τ β) :
    executer (p >>= f) s w = (executer p s w).bind fun r => executer (f r.1) r.2.1 r.2.2 :=
  run_bind _ s w p f

/-- A sequence whose first part succeeds. -/
theorem executer_bind_of_ok {p : Robots.Code τ α} {a : α} {s' : Robot τ} {w' : Simulateur τ}
    (hp : executer p s w = .ok (a, s', w')) (f : α → Robots.Code τ β) :
    executer (p >>= f) s w = executer (f a) s' w' :=
  run_bind_of_ok _ s w hp f

/-- A sequence that succeeds, cut in two. -/
theorem executer_bind_inv {p : Robots.Code τ α} {f : α → Robots.Code τ β} {b : β} {s' : Robot τ}
    {w' : Simulateur τ} (h : executer (p >>= f) s w = .ok (b, s', w')) :
    ∃ a s₁ w₁, executer p s w = .ok (a, s₁, w₁) ∧ executer (f a) s₁ w₁ = .ok (b, s', w') := by
  rw [executer_bind] at h
  cases hp : executer p s w with
  | error e => rw [hp] at h; cases h
  | ok r => rw [hp] at h; exact ⟨r.1, r.2.1, r.2.2, rfl, h⟩

@[simp] theorem executer_get_bind (f : Robot τ → Robots.Code τ β) :
    executer (Prog.get >>= f) s w = executer (f s) s w := rfl

@[simp] theorem executer_modify_bind (g : Robot τ → Robot τ) (f : Unit → Robots.Code τ β) :
    executer (Prog.modify g >>= f) s w = executer (f ()) (g s) w := rfl

@[simp] theorem executer_modify (g : Robot τ → Robot τ) :
    executer (Prog.modify g : Robots.Code τ Unit) s w = .ok ((), g s, w) := rfl

@[simp] theorem executer_demander_bind (q : Requete) (f : q.Reponse τ → Robots.Code τ β) :
    executer (q.demander >>= f) s w
      = executer (f (Simulateur.repondre q w).1) s (Simulateur.repondre q w).2 := rfl

@[simp] theorem executer_publish (m : Message) :
    executer (Prog.publish m : Robots.Code τ Unit) s w = .ok ((), s, Simulateur.publier m w) := rfl

@[simp] theorem executer_publish_bind (m : Message) (f : Unit → Robots.Code τ β) :
    executer (Prog.publish m >>= f) s w = executer (f ()) s (Simulateur.publier m w) := rfl

@[simp] theorem executer_retourner (data : ℤ) :
    executer (retourner data) s w
      = .ok ((), { s with retour := data }, w.noter (.retourCommande s.numRobot data)) := rfl

@[simp] theorem executer_transport (valeur : Bool) :
    executer (transport valeur) s w = .ok ((), s, w.noter (.robotTransport s.numRobot valeur)) :=
  rfl

/-- Asking again succeeds when the surroundings settle. -/
theorem executer_redemander {q : Requete} {ok : Robot τ → q.Reponse τ → Bool} {w' : Simulateur τ}
    (h : Simulateur.attendre q (ok s) w = some w') :
    executer (q.redemander ok) s w = .ok ((), s, w') :=
  run_requestUntil _ s w h

/-- Asking again changes nothing on the side of the robot. -/
theorem executer_redemander_inv {q : Requete} {ok : Robot τ → q.Reponse τ → Bool} {u : Unit}
    {s' : Robot τ} {w' : Simulateur τ} (h : executer (q.redemander ok) s w = .ok (u, s', w')) :
    s' = s ∧ Simulateur.attendre q (ok s) w = some w' := by
  cases hatt : Simulateur.attendre q (ok s) w with
  | none =>
    have : executer (q.redemander ok) s w = .error .diverges := by
      simp [executer, Requete.redemander, Prog.run, Simulateur.handler, hatt]
    rw [this] at h
    cases h
  | some w₁ =>
    rw [executer_redemander s w hatt] at h
    cases h
    exact ⟨rfl, rfl⟩

end Steps

/-! ## Moving the arm -/

/-- What the arm and the gripper may change: the joints, the clock, the acknowledgements. -/
structure Mouvement (s : Robot τ) (w : Simulateur τ) (s' : Robot τ) (w' : Simulateur τ) : Prop where
  robot : s' = { s with
    rpos := s'.rpos, retour := s'.retour, robotPosition := s'.robotPosition }
  couleur : w'.couleur = w.couleur
  navettes : w'.navettes = w.navettes
  ecritures : w'.ecritures = w.ecritures
  stopTaches : w'.stopTaches = w.stopTaches
  journal : ∃ ms, w'.journal = w.journal ++ ms ∧
    ∀ m ∈ ms, (∀ l, m ≠ .produitEvac l) ∧ ∀ n, m ≠ .erreurLog 66 n

omit [Horloge τ] in
theorem Mouvement.trans {s s₁ s₂ : Robot τ} {w w₁ w₂ : Simulateur τ} (h₁ : Mouvement s w s₁ w₁)
    (h₂ : Mouvement s₁ w₁ s₂ w₂) : Mouvement s w s₂ w₂ := by
  obtain ⟨ms₁, hj₁, hms₁⟩ := h₁.journal
  obtain ⟨ms₂, hj₂, hms₂⟩ := h₂.journal
  refine ⟨?_, h₂.couleur.trans h₁.couleur, h₂.navettes.trans h₁.navettes,
    h₂.ecritures.trans h₁.ecritures, h₂.stopTaches.trans h₁.stopTaches,
    ms₁ ++ ms₂, by rw [hj₂, hj₁, List.append_assoc], ?_⟩
  · have h := h₂.robot
    rw [h₁.robot] at h
    exact h
  · intro m hm
    rcases List.mem_append.1 hm with hm | hm
    · exact hms₁ m hm
    · exact hms₂ m hm

/-- The joints of a robot reach their targets. -/
theorem executer_rejoindre (s : Robot τ) (w : Simulateur τ) :
    executer rejoindre s w = .ok ((), s, { w with
      articulations :=
        Function.update w.articulations s.numRobot fun i => s.rpos i * Robot.pi / 180 }) := by
  refine run_forM_fixed _ s _ _ _ fun i _ => run_requestUntil _ s _ ?_
  simp [Simulateur.handler, Simulateur.attendre, Simulateur.repondre, atteint]

/-- The messages of an arm movement: neither an evacuation nor an overwritten product. -/
private theorem mouvement_messages {r n : ℤ} {m : Message} (hm : (∀ l, m ≠ .produitEvac l) ∧
    ∀ n, m ≠ .erreurLog 66 n) : ∀ m' ∈ [.retourCommande r n, m],
      (∀ l, m' ≠ Message.produitEvac l) ∧ ∀ n, m' ≠ .erreurLog 66 n := by
  simp [hm]

/-- What the three arm movements share: new targets, the joints reach them, an acknowledgement and
a message on the state of the arm. -/
private theorem mouvement_bras (g : Robot τ → Robot τ) (data : ℤ) (m : Robot τ → Message)
    (hg : ∀ s, g s = { s with rpos := (g s).rpos, robotPosition := (g s).robotPosition })
    (hm : ∀ s, (∀ l, m s ≠ .produitEvac l) ∧ ∀ n, m s ≠ .erreurLog 66 n)
    (hpub : ∀ s (w : Simulateur τ), Simulateur.publier (m s) w = w.noter (m s))
    (s : Robot τ) (w : Simulateur τ) :
    ∃ s' w', executer (do
      Prog.modify g
      rejoindre
      retourner data
      let s ← Prog.get
      Prog.publish (m s)) s w = .ok ((), s', w') ∧ Mouvement s w s' w' := by
  refine ⟨_, _, by
    rw [executer_modify_bind, executer_bind_of_ok _ _ (executer_rejoindre _ _),
      executer_bind_of_ok _ _ (executer_retourner _ _ _), executer_get_bind, executer_publish,
      hpub], ?_⟩
  refine ⟨?_, rfl, rfl, rfl, rfl, ⟨_, List.append_assoc .., mouvement_messages (hm _)⟩⟩
  have h := hg s
  rw [h]

theorem mouvement_envoyerRobot (n : ℤ) (s : Robot τ) (w : Simulateur τ) :
    ∃ s' w', executer (envoyerRobot n) s w = .ok ((), s', w') ∧ Mouvement s w s' w' :=
  mouvement_bras _ 2 (fun s => .robotPosition s.numRobot s.robotPosition) (fun _ => rfl)
    (fun _ => by simp) (fun _ _ => rfl) s w

theorem mouvement_descendreBras (s : Robot τ) (w : Simulateur τ) :
    ∃ s' w', executer descendreBras s w = .ok ((), s', w') ∧ Mouvement s w s' w' :=
  mouvement_bras _ 4 (fun s => .robotBras s.numRobot 0) (fun _ => rfl) (fun _ => by simp)
    (fun _ _ => rfl) s w

theorem mouvement_monterBras (s : Robot τ) (w : Simulateur τ) :
    ∃ s' w', executer monterBras s w = .ok ((), s', w') ∧ Mouvement s w s' w' :=
  mouvement_bras _ 5 (fun s => .robotBras s.numRobot 1) (fun _ => rfl) (fun _ => by simp)
    (fun _ _ => rfl) s w

/-- A gripper order moves nothing but the gripper. -/
theorem mouvement_bougerPince {cmd code : ℤ} {s s' : Robot τ} {w w' : Simulateur τ}
    (h : executer (bougerPince cmd code) s w = .ok ((), s', w')) : Mouvement s w s' w' := by
  rw [bougerPince, executer_get_bind, executer_publish_bind] at h
  obtain ⟨_, s₁, w₁, hatt, hfin⟩ := executer_bind_inv _ _ h
  cases hfin
  rw [attendrePince, executer_get_bind] at hatt
  split at hatt
  · rw [executer_demander_bind] at hatt
    obtain ⟨_, s₂, w₂, htemps, hret⟩ := executer_bind_inv _ _ hatt
    cases hret
    obtain ⟨rfl, hw₂⟩ := executer_redemander_inv _ _ htemps
    simp only [Simulateur.attendre, Option.ite_none_right_eq_some, Option.some.injEq] at hw₂
    obtain ⟨-, rfl⟩ := hw₂
    exact ⟨rfl, rfl, rfl, rfl, rfl, [.cmdPince s₂.numRobot cmd, .retourCommande s₂.numRobot code,
      .robotPince s₂.numRobot cmd], by
      simp [Simulateur.handler, Simulateur.publier, Simulateur.noter, Simulateur.repondre], by simp⟩
  · cases hatt
    exact ⟨rfl, rfl, rfl, rfl, rfl, ⟨_, List.append_assoc .., by simp⟩⟩

/-! ## Reading and writing colours -/

omit [Horloge τ] in
@[simp] theorem repondre_getColor (nom : String) (i : ℕ) (w : Simulateur τ) :
    Simulateur.repondre (.getColor nom i) w = ((w.couleur nom).cube i, w) := rfl

/-- All the cubes of a place. -/
theorem executer_lireCouleurs (nom : String) (s : Robot τ) (w : Simulateur τ) :
    executer (lireCouleurs nom) s w = .ok ((w.couleur nom).toList, s, w) := by
  have h : ((List.range nbCube).map fun i => (w.couleur nom).cube i) = (w.couleur nom).toList := by
    refine List.ext_getElem (by simp) fun i h₁ h₂ => ?_
    simp [Pile.cube, List.getD_eq_getElem?_getD, List.getElem?_eq_getElem h₂]
  rw [← h]
  exact run_mapM_fixed _ s w _ _ _ fun i _ => rfl

/-- The scan from index `i` on. -/
private theorem executer_chercherCaseVide_drop (nom : String) (s : Robot τ) (w : Simulateur τ)
    (reste i : ℕ) (hi : i + reste = nbCube) :
    executer (chercherCaseVide nom reste i) s w
      = .ok (Pile.jusquAuVide ((w.couleur nom).toList.drop i), s, w) := by
  induction reste generalizing i with
  | zero =>
    rw [List.drop_eq_nil_of_le (by simp; omega)]
    rfl
  | succ n ih =>
    have hlt : i < (w.couleur nom).toList.length := by simp; omega
    have hcube : (w.couleur nom).cube i = (w.couleur nom).toList[i] := by
      simp [Pile.cube, List.getD_eq_getElem?_getD, List.getElem?_eq_getElem hlt]
    rw [chercherCaseVide, executer_demander_bind, repondre_getColor, hcube,
      List.drop_eq_getElem_cons hlt, Pile.jusquAuVide]
    split
    · rfl
    · rw [executer_bind_of_ok _ _ (ih (i + 1) (by omega))]
      rfl

/-- The scan that looks for the first empty slot. -/
theorem executer_chercherCaseVide (nom : String) (s : Robot τ) (w : Simulateur τ) :
    executer (chercherCaseVide nom nbCube 0) s w = .ok ((w.couleur nom).lus, s, w) :=
  executer_chercherCaseVide_drop nom s w nbCube 0 rfl

/-- The array sent back after the scan, with one cube overwritten. -/
theorem ofList_tableau_set (p : Pile) {k : ℕ} (hk : k ≤ p.hauteur) (hk' : p.hauteur ≤ k + 1)
    (hk6 : k < nbCube) (c : ℤ) : Pile.ofList ((tableau p.lus).set k c) = p.avecCube k c := by
  have hlen : p.lus.length ≤ nbCube := by rw [p.length_lus]; omega
  have htab : ∀ i, (tableau p.lus).getD i 0 = p.lus.getD i 0 := by
    intro i
    rw [tableau, List.getD_eq_getElem?_getD, List.getElem?_append, List.getD_eq_getElem?_getD]
    split_ifs with h
    · rfl
    · rw [List.getElem?_eq_none (by omega : p.lus.length ≤ i), List.getElem?_replicate]
      split <;> rfl
  refine Pile.ext_cube fun i hi => ?_
  rw [Pile.cube_ofList _ hi, Pile.cube_avecCube p hk6, List.getD_eq_getElem?_getD,
    List.getElem?_set]
  have htaille : (tableau p.lus).length = nbCube := by simp [tableau]; omega
  rcases lt_trichotomy i k with hik | rfl | hik
  · rw [if_neg (by omega), if_pos hik, ← List.getD_eq_getElem?_getD, htab, p.getD_lus,
      if_pos (by omega)]
  · simp [htaille, hi]
  · rw [if_neg (by omega), if_neg (by omega), if_neg (by omega), ← List.getD_eq_getElem?_getD, htab]
    rw [p.getD_lus, if_neg (by omega)]

/-! ## The posts -/

/-- The name and the number of the post at a position of a robot. -/
def tableDe (numRobot position : ℤ) : String × ℤ :=
  if position = 1 then (nomsPostes numRobot).1 else (nomsPostes numRobot).2

/-- A post as `Robot::init` sets it up. -/
structure PosteInstalle (p : Poste τ) (table : String × ℤ) : Prop where
  nomPoste : p.nomPoste = table.1
  numeroPoste : p.numeroPoste = table.2
  couleur : p.couleur = table.2 * 10 + 3

/-- A robot whose number and posts are those `Robot::init` sets up. -/
structure Equipe (s : Robot τ) : Prop where
  num : s.numRobot ∈ [1, 2, 3, 4]
  poste : ∀ position, PosteInstalle (s.poste position) (tableDe s.numRobot position)

omit [Horloge τ] in
@[simp] theorem setPoste_numRobot (s : Robot τ) (position : ℤ) (p : Poste τ) :
    (s.setPoste position p).numRobot = s.numRobot := by
  rw [setPoste]
  split <;> rfl

omit [Horloge τ] in
@[simp] theorem setPoste_couleurTransportee (s : Robot τ) (position : ℤ) (p : Poste τ) :
    (s.setPoste position p).couleurTransportee = s.couleurTransportee := by
  rw [setPoste]
  split <;> rfl

omit [Horloge τ] in
/-- The post depends only on whether the position is 1. -/
theorem poste_congr (s : Robot τ) {position autre : ℤ} (h : position = 1 ↔ autre = 1) :
    s.poste autre = s.poste position := by
  by_cases h1 : position = 1
  · rw [poste, poste, if_pos h1, if_pos (h.1 h1)]
  · rw [poste, poste, if_neg h1, if_neg fun h2 => h1 (h.2 h2)]

omit [Horloge τ] in
/-- A post is replaced where it stands, the other is kept. -/
theorem poste_setPoste (s : Robot τ) (position autre : ℤ) (p : Poste τ) :
    (s.setPoste position p).poste autre
      = if (position = 1 ↔ autre = 1) then p else s.poste autre := by
  by_cases h1 : position = 1 <;> by_cases h2 : autre = 1 <;> simp [setPoste, poste, h1, h2]

omit [Horloge τ] in
/-- Replacing a post by one with the same name, number and colour keeps a robot set up. -/
theorem Equipe.setPoste {s : Robot τ} (hs : Equipe s) {position : ℤ} {p : Poste τ}
    (hp : PosteInstalle p (tableDe s.numRobot position)) : Equipe (s.setPoste position p) := by
  refine ⟨by rw [setPoste_numRobot]; exact hs.num, fun autre => ?_⟩
  rw [poste_setPoste, setPoste_numRobot]
  split
  · next h =>
    have : tableDe s.numRobot autre = tableDe s.numRobot position := by
      by_cases h1 : position = 1
      · rw [tableDe, tableDe, if_pos h1, if_pos (h.1 h1)]
      · rw [tableDe, tableDe, if_neg h1, if_neg fun h2 => h1 (h.2 h2)]
    rwa [this]
  · exact hs.poste autre

/-- The name sent with the colours is the one of the table the scan has read. -/
theorem nomTable_idPoste {n : ℤ} (hn : n ∈ [1, 2, 3, 4]) (position : ℤ) :
    CommandeLocale.nomTable (idPoste (tableDe n position).1) = (tableDe n position).1 := by
  have h : ∀ n ∈ ([1, 2, 3, 4] : List ℤ),
      CommandeLocale.nomTable (idPoste (nomsPostes n).1.1) = (nomsPostes n).1.1 ∧
        CommandeLocale.nomTable (idPoste (nomsPostes n).2.1) = (nomsPostes n).2.1 := by decide
  rw [tableDe]
  split
  · exact (h n hn).1
  · exact (h n hn).2

/-- `computeTableId` names the table of the post. -/
theorem nomTable_computeTableId {n position : ℤ} (hn : n ∈ [1, 2, 3, 4])
    (hpos : position = 1 ∨ position = 4) :
    CommandeLocale.nomTable (computeTableId n position) = (tableDe n position).1 := by
  have h : ∀ n ∈ ([1, 2, 3, 4] : List ℤ), ∀ position ∈ ([1, 4] : List ℤ),
      CommandeLocale.nomTable (computeTableId n position) = (tableDe n position).1 := by decide
  exact h n hn position (by simpa using hpos)

/-- The posts are numbered from 1. -/
theorem tableDe_pos {n : ℤ} (hn : n ∈ [1, 2, 3, 4]) (position : ℤ) : 0 < (tableDe n position).2 := by
  have h : ∀ n ∈ ([1, 2, 3, 4] : List ℤ), 0 < (nomsPostes n).1.2 ∧ 0 < (nomsPostes n).2.2 := by
    decide
  rw [tableDe]
  split
  · exact (h n hn).1
  · exact (h n hn).2

/-! ## The tasks -/

section Tasks

variable {s : Robot τ} (hs : Equipe s) (w : Simulateur τ) (position : ℤ)
include hs

/-- The start of a task: refused on an empty or a full stack, else one more cube. -/
theorem executer_colorerPosteDebutTask :
    executer (colorerPosteDebutTask position) s w =
      let table := tableDe s.numRobot position
      let p := w.couleur table.1
      if p.hauteur = 0 then .ok (none, s, w.noter (.erreurLog 1 table.2))
      else if p.hauteur = nbCube then .ok (none, s, w.noter (.erreurLog 2 table.2))
      else .ok (some p.hauteur, s,
        w.peindre table.1 (p.avecCube p.hauteur (table.2 * 10 + 2))) := by
  have hp := hs.poste position
  rw [colorerPosteDebutTask, executer_get_bind]
  dsimp only
  -- the scan stops at the first cube that is not visible
  rw [hp.nomPoste, hp.numeroPoste, hp.couleur,
    executer_bind_of_ok _ _ (executer_chercherCaseVide _ s w)]
  simp only [Pile.length_lus_eq_one, Pile.lus_plein]
  have hle := (w.couleur (tableDe s.numRobot position).1).hauteur_le
  have hlen := (w.couleur (tableDe s.numRobot position).1).length_lus
  split_ifs with h0 h6
  · rfl
  · rfl
  · rw [executer_demander_bind]
    simp only [Simulateur.repondre, Simulateur.peindreData, executer_pure]
    rw [nomTable_idPoste hs.num, show (w.couleur (tableDe s.numRobot position).1).lus.length - 1
      = (w.couleur (tableDe s.numRobot position).1).hauteur by omega,
      ofList_tableau_set _ (le_refl _) (by omega) (by omega)]
    rw [show (tableDe s.numRobot position).2 * 10 + 3 - 1
      = (tableDe s.numRobot position).2 * 10 + 2 by ring]

omit hs [Horloge τ] in
/-- The index overwritten at the end of a task. -/
theorem caseFinTask_lus (p : Pile) :
    caseFinTask p.lus = if p.hauteur = 0 then none else some (p.hauteur - 1) := by
  have hlen := p.length_lus
  have hle := p.hauteur_le
  have hnb : nbCube = 6 := rfl
  simp only [caseFinTask, Pile.lus_plein]
  split_ifs with h6 h0 h2 h0
  · omega
  · exact congrArg some (by omega)
  · omega
  · exact congrArg some (by omega)
  · rfl
  · omega

/-- The end of a task: the highest visible cube takes the colour of the post; without any visible
cube the source writes before the array. -/
theorem executer_colorerPosteFinTask (duree : ℤ) :
    executer (colorerPosteFinTask position duree) s w =
      let table := tableDe s.numRobot position
      let p := w.couleur table.1
      let fini := p.avecCube (p.hauteur - 1) (table.2 * 10 + 3)
      if p.hauteur = 0 then .error .fault
      else .ok (p.hauteur - 1, s,
        (w.peindre table.1 fini).noter (.tacheFinie table.2 fini.base duree)) := by
  have hp := hs.poste position
  rw [colorerPosteFinTask, executer_get_bind]
  dsimp only
  rw [hp.nomPoste, hp.numeroPoste, hp.couleur,
    executer_bind_of_ok _ _ (executer_chercherCaseVide _ s w), caseFinTask_lus]
  have hle := (w.couleur (tableDe s.numRobot position).1).hauteur_le
  split_ifs with h0
  · rfl
  · dsimp only
    -- the array holds the stack up to the cube that is rewritten
    have htab := ofList_tableau_set (w.couleur (tableDe s.numRobot position).1)
      (k := (w.couleur (tableDe s.numRobot position).1).hauteur - 1) (by omega) (by omega)
      (by omega) ((tableDe s.numRobot position).2 * 10 + 3)
    rw [executer_demander_bind]
    simp only [Simulateur.repondre, Simulateur.peindreData, executer_publish_bind, executer_pure,
      Simulateur.publier]
    rw [nomTable_idPoste hs.num, htab, ← htab, Pile.base, Pile.cube_ofList _ (by decide)]

/-- A tick on a post whose task is not over does nothing; else the task is stopped, its cube is
coloured and the end is acknowledged. -/
theorem executer_updatePoste (time : τ) :
    executer (updatePoste position time) s w =
      let table := tableDe s.numRobot position
      let p := w.couleur table.1
      let fini := p.avecCube (p.hauteur - 1) (table.2 * 10 + 3)
      let t := (s.poste position).stopTask
      if (s.poste position).finTache time = false then .ok (none, s, w)
      else if p.hauteur = 0 then .error .fault
      else .ok (some (p.hauteur - 1), { s.setPoste position t with retour := codeRetour position },
        ((w.peindre table.1 fini).noter (.tacheFinie table.2 fini.base t.dureeTask)).noter
          (.retourCommande s.numRobot (codeRetour position))) := by
  have hp := hs.poste position
  rw [updatePoste, executer_get_bind]
  dsimp only
  by_cases hfin : (s.poste position).finTache time = true
  · have hs' : Equipe (s.setPoste position (s.poste position).stopTask) :=
      hs.setPoste ⟨hp.nomPoste, hp.numeroPoste, hp.couleur⟩
    have hup : ((s.poste position).updateTask time).2 = (s.poste position).stopTask := by
      rw [Poste.updateTask, if_pos hfin]
      rfl
    have hfint := executer_colorerPosteFinTask hs' w position (s.poste position).dureeTask
    rw [if_pos hfin, if_neg (by simp [hfin]), executer_modify_bind, hup]
    split_ifs with h0
    · rw [executer_bind, hfint]
      dsimp only
      rw [setPoste_numRobot, if_pos h0]
      rfl
    · dsimp only at hfint
      rw [setPoste_numRobot, if_neg h0] at hfint
      rw [executer_bind_of_ok _ _ hfint]
      have hle := (w.couleur (tableDe s.numRobot position).1).hauteur_le
      -- The simulator shows the cube just coloured.
      rw [executer_bind_of_ok _ _ (executer_redemander _ _ (by
        simp only [Simulateur.attendre]
        rw [if_pos]
        simp [poste_setPoste, Simulateur.noter, Simulateur.peindre, Poste.stopTask, hp.nomPoste,
          hp.couleur,
          Pile.cube_avecCube _ (show (w.couleur (tableDe s.numRobot position).1).hauteur - 1
            < nbCube by omega)])), executer_bind_of_ok _ _ (executer_retourner _ _ _),
        executer_pure, setPoste_numRobot]
      rfl
  · rw [if_neg hfin, if_pos (by simpa using hfin), executer_pure]

end Tasks

/-- A tick asks for the time once and looks at both posts with it. -/
theorem executer_update (s : Robot τ) (w : Simulateur τ) :
    executer update s w = (executer (updatePoste 1 w.temps) s w).bind fun r₁ =>
      (executer (updatePoste 4 w.temps) r₁.2.1 r₁.2.2).map fun r₄ => ((r₁.1, r₄.1), r₄.2) := by
  rw [update, executer_get_bind]
  split_ifs with h
  · rw [executer_demander_bind, executer_bind]
    simp only [Simulateur.repondre]
    congr 1
    funext r₁
    rw [executer_bind]
    cases executer (updatePoste 4 w.temps) r₁.2.1 r₁.2.2 <;> rfl
  -- no task runs, so neither half of the tick does anything
  · have hfin : ∀ position, (s.poste position).finTache w.temps = false := by
      intro position
      by_contra hfin
      have ht := Poste.taskEnCours_of_finTache (eq_true_of_ne_false hfin)
      rw [poste] at ht
      split at ht
      · exact h (Or.inl ht)
      · exact h (Or.inr ht)
    have h₁ : executer (updatePoste 1 w.temps) s w = .ok (none, s, w) := by
      rw [updatePoste, executer_get_bind, if_neg (by simp [hfin]), executer_pure]
    have h₄ : executer (updatePoste 4 w.temps) s w = .ok (none, s, w) := by
      rw [updatePoste, executer_get_bind, if_neg (by simp [hfin]), executer_pure]
    rw [executer_pure, h₁]
    dsimp only [Except.bind]
    rw [h₄]
    rfl

/-- A tick whose two halves complete. -/
theorem executer_update_of_ok {s s₁ s₄ : Robot τ} {w w₁ w₄ : Simulateur τ} {i₁ i₄ : Option ℕ}
    (h₁ : executer (updatePoste 1 w.temps) s w = .ok (i₁, s₁, w₁))
    (h₄ : executer (updatePoste 4 w.temps) s₁ w₁ = .ok (i₄, s₄, w₄)) :
    executer update s w = .ok ((i₁, i₄), s₄, w₄) := by
  rw [executer_update, h₁]
  dsimp only [Except.bind]
  rw [h₄]
  rfl

/-- The two halves of a tick that completes. -/
theorem executer_update_inv {s s' : Robot τ} {w w' : Simulateur τ} {i : Option ℕ × Option ℕ}
    (h : executer update s w = .ok (i, s', w')) :
    ∃ s₁ w₁, executer (updatePoste 1 w.temps) s w = .ok (i.1, s₁, w₁) ∧
      executer (updatePoste 4 w.temps) s₁ w₁ = .ok (i.2, s', w') := by
  rw [executer_update] at h
  cases h₁ : executer (updatePoste 1 w.temps) s w with
  | error e =>
    rw [h₁] at h
    cases h
  | ok x₁ =>
    obtain ⟨i₁, s₁, w₁⟩ := x₁
    rw [h₁] at h
    cases h₄ : executer (updatePoste 4 w.temps) s₁ w₁ with
    | error e => simp [Except.bind, h₄, Except.map] at h
    | ok x₄ =>
      obtain ⟨i₄, s₄, w₄⟩ := x₄
      simp only [Except.bind, h₄, Except.map, Except.ok.injEq, Prod.mk.injEq] at h
      obtain ⟨rfl, rfl, rfl⟩ := h
      exact ⟨s₁, w₁, rfl, h₄⟩

/-! ## Picking and placing -/

/-- `Colorer` stops the task of the post it touches. -/
def tacheInterrompue (s : Robot τ) (position : ℤ) : Bool :=
  decide (position = 1 ∨ position = 4) && (s.poste position).taskEnCours

/-- The robot once the task is stopped. -/
def robotInterrompu (s : Robot τ) (position : ℤ) : Robot τ :=
  if tacheInterrompue s position then
    { s.setPoste position (s.poste position).stopTask with retour := codeRetour position }
  else s

/-- The traffic once the task is stopped. -/
def traficInterrompu (s : Robot τ) (w : Simulateur τ) (position : ℤ) : Simulateur τ :=
  if tacheInterrompue s position then
    (w.noter (.erreurLog 3 (s.poste position).numeroPoste)).noter
      (.retourCommande s.numRobot (codeRetour position))
  else w

/-- The name of the place that `Colorer` touches. -/
def nomPlace (s : Robot τ) (position idNavette : ℤ) : String :=
  if position = 2 ∨ position = 3 then nomNavette idNavette
  else if position = 1 ∨ position = 4 then (tableDe s.numRobot position).1
  else ""

section Colorer

variable (s : Robot τ) (w : Simulateur τ) (position type idNavette : ℤ)

omit [Horloge τ] in
@[simp] theorem robotInterrompu_numRobot : (robotInterrompu s position).numRobot = s.numRobot := by
  rw [robotInterrompu]
  split <;> simp

omit [Horloge τ] in
@[simp] theorem robotInterrompu_couleurTransportee :
    (robotInterrompu s position).couleurTransportee = s.couleurTransportee := by
  rw [robotInterrompu]
  split <;> simp

omit [Horloge τ] in
@[simp] theorem traficInterrompu_couleur : (traficInterrompu s w position).couleur = w.couleur := by
  rw [traficInterrompu]
  split <;> rfl

omit [Horloge τ] in
/-- The task of the post that is touched is not running any more. -/
theorem poste_robotInterrompu (autre : ℤ) :
    (robotInterrompu s position).poste autre =
      if (position = 1 ∨ position = 4) ∧ (position = 1 ↔ autre = 1) then (s.poste autre).stopTask
      else s.poste autre := by
  have hset : ∀ r : ℤ, ({ s.setPoste position (s.poste position).stopTask with
      retour := r } : Robot τ).poste autre
        = (s.setPoste position (s.poste position).stopTask).poste autre := fun _ => rfl
  by_cases h14 : position = 1 ∨ position = 4
  · by_cases ht : (s.poste position).taskEnCours = true
    · rw [robotInterrompu, tacheInterrompue, if_pos (by simp [h14, ht]), hset, poste_setPoste]
      by_cases h : position = 1 ↔ autre = 1
      · rw [if_pos h, if_pos ⟨h14, h⟩, poste_congr s h]
      · rw [if_neg h, if_neg fun h' => h h'.2]
    · rw [robotInterrompu, tacheInterrompue, if_neg (by simp [ht])]
      split_ifs with h
      · rw [poste_congr s h.2, Poste.stopTask_of_eq_false (by simpa using ht)]
      · rfl
  · rw [robotInterrompu, tacheInterrompue, if_neg (by simp [h14]), if_neg fun h => h14 h.1]

theorem executer_interrompreTache (h14 : position = 1 ∨ position = 4) :
    executer (interrompreTache position) s w
      = .ok ((), robotInterrompu s position, traficInterrompu s w position) := by
  rw [interrompreTache, executer_get_bind, robotInterrompu, traficInterrompu, tacheInterrompue]
  by_cases ht : (s.poste position).taskEnCours = true
  · simp [h14, ht, Simulateur.publier]
  · simp [ht]

/-- What `Colorer` does before it reads the colours. -/
theorem executer_choisirSignal (hs : Equipe s) :
    executer (choisirSignal position idNavette) s w
      = .ok (nomPlace s position idNavette, robotInterrompu s position,
          traficInterrompu s w position) := by
  rw [choisirSignal, nomPlace]
  split_ifs with h23 h14
  · have h14 : ¬(position = 1 ∨ position = 4) := by omega
    simp [robotInterrompu, traficInterrompu, tacheInterrompue, h14]
  · have hnom : ((robotInterrompu s position).poste position).nomPoste
        = (tableDe s.numRobot position).1 := by
      rw [poste_robotInterrompu, if_pos ⟨h14, Iff.rfl⟩]
      exact (hs.poste position).nomPoste
    rw [executer_bind_of_ok _ _ (executer_interrompreTache s w position h14), executer_get_bind,
      executer_pure, hnom]
  · simp [robotInterrompu, traficInterrompu, tacheInterrompue, h14]

/-- The place that exists receives what the gripper holds. -/
theorem executer_peindre (hs : s.numRobot ∈ [1, 2, 3, 4]) :
    executer (Robot.peindre position idNavette) s w
      = .ok ((), s, if position ∈ [1, 2, 3, 4]
          then w.peindre (nomPlace s position idNavette) s.couleurTransportee else w) := by
  rw [Robot.peindre, executer_get_bind, nomPlace]
  by_cases h23 : position = 2 ∨ position = 3
  · rw [if_pos h23, if_pos h23, if_pos (by simp; omega), executer_demander_bind]
    simp only [Simulateur.repondre, Simulateur.peindreData, Pile.ofList_toList, executer_pure]
  · rw [if_neg h23, if_neg h23]
    by_cases h14 : position = 1 ∨ position = 4
    · rw [if_pos h14, if_pos h14, if_pos (by simp; omega), executer_demander_bind]
      simp only [Simulateur.repondre, Simulateur.peindreData, Pile.ofList_toList, executer_pure,
        nomTable_computeTableId hs h14]
    · rw [if_neg h14, if_neg (by simp; omega), executer_pure]

omit [Horloge τ] in
/-- All the cubes read are invisible when the stack is. -/
theorem all_toList (p : Pile) : (p.toList.all fun c => c == 0) = decide (p = Pile.vide) := by
  rw [Bool.eq_iff_iff]
  simp [Pile.eq_vide_iff]

/-- The messages of `Colorer` after the colours are written, over a place that showed `p`. -/
def messagesColorer (numRobot type : ℤ) (p : Pile) : List Message :=
  .robotTransport numRobot (decide (type = 0) && !decide (p = Pile.vide)) ::
    if type = 1 ∧ p ≠ Pile.vide then [.erreurLog 66 numRobot] else []

/-- **A pick or a placement at a place that exists.** The gripper and the place exchange their
stacks, except that a placement empties the gripper; a stack overwritten this way is reported. -/
theorem executer_colorerPlace (hs : Equipe s) :
    executer (colorerPlace position type idNavette) s w =
      let nom := nomPlace s position idNavette
      let p := w.couleur nom
      let w₁ := traficInterrompu s w position
      let w₂ := if position ∈ [1, 2, 3, 4] then w₁.peindre nom s.couleurTransportee else w₁
      .ok ((), { robotInterrompu s position with
          couleurTransportee := if type = 0 then p else Pile.vide },
        { w₂ with journal := w₂.journal ++ messagesColorer s.numRobot type p }) := by
  have hnum : (robotInterrompu s position).numRobot ∈ [1, 2, 3, 4] := by
    rw [robotInterrompu_numRobot]
    exact hs.num
  have hnom : nomPlace (robotInterrompu s position) position idNavette
      = nomPlace s position idNavette := by
    rw [nomPlace, nomPlace, robotInterrompu_numRobot]
  rw [colorerPlace, executer_bind_of_ok _ _ (executer_choisirSignal s w position idNavette hs),
    executer_bind_of_ok _ _ (executer_lireCouleurs _ _ _), all_toList,
    executer_bind_of_ok _ _ (executer_peindre _ _ _ _ hnum), executer_modify_bind,
    executer_bind_of_ok _ _ (executer_transport _ _ _), Pile.ofList_toList, hnom,
    traficInterrompu_couleur, robotInterrompu_couleurTransportee, signalerEcrasement,
    executer_get_bind]
  dsimp only
  rw [robotInterrompu_numRobot, messagesColorer]
  -- a placement reports what it covers
  by_cases hecrase : type = 1 ∧ w.couleur (nomPlace s position idNavette) ≠ Pile.vide
  · rw [if_pos (by simpa using hecrase), if_pos hecrase, executer_publish]
    simp [Simulateur.publier, Simulateur.noter]
  · rw [if_neg (by simpa using hecrase), if_neg hecrase, executer_pure]
    rfl

/-- `Colorer` first asks the shuttle manager, on the track. -/
theorem executer_colorer :
    executer (colorer position type) s w =
      if position = 2 ∨ position = 3 then
        let w' := { w with navettes := w.navettes.tail }
        if w.navettes.headD 66 = 66 then
          .ok ((), { s with couleurTransportee := Pile.vide },
            w'.noter (.robotTransport s.numRobot false))
        else executer (colorerPlace position type (w.navettes.headD 66)) s w'
      else executer (colorerPlace position type (-1)) s w := by
  rw [colorer, chercherNavette]
  by_cases h23 : position = 2 ∨ position = 3
  · have hnav : executer (do
        let s ← Prog.get
        if position = 2 ∨ position = 3 then (Requete.getIdShuttle s.numRobot position).demander
        else pure (-1)) s w
          = .ok (w.navettes.headD 66, s, { w with navettes := w.navettes.tail }) := by
      rw [executer_get_bind, if_pos h23]
      rfl
    rw [executer_bind_of_ok _ _ hnav, if_pos h23]
    split
    -- no shuttle: the gripper is emptied and nothing is painted
    · rw [viderPince, executer_modify_bind, executer_transport]
    · rfl
  · have hnav : executer (do
        let s ← Prog.get
        if position = 2 ∨ position = 3 then (Requete.getIdShuttle s.numRobot position).demander
        else pure (-1)) s w = .ok ((-1 : ℤ), s, w) := by
      rw [executer_get_bind, if_neg h23]
      rfl
    rw [executer_bind_of_ok _ _ hnav, if_neg h23, if_neg (by decide)]

end Colorer

/-! ## The callbacks -/

/-- A robot ignores the moves of the others. -/
theorem executer_deplacerPiece_autre {s : Robot τ} {msg : DeplacerPieceMsg}
    (h : s.numRobot ≠ msg.numRobot) (w : Simulateur τ) :
    executer (deplacerPieceCallback msg) s w = .ok ((), s, w) := by
  rw [deplacerPieceCallback, executer_get_bind, if_neg h, executer_pure]

/-- The first steps of a move, up to the pick. -/
def approcher (positionA : ℤ) : Robots.Code τ Unit := do
  envoyerRobot positionA
  descendreBras

/-- The steps from the pick to the placement. -/
def transferer (positionB : ℤ) : Robots.Code τ Unit := do
  fermerPince
  monterBras
  envoyerRobot positionB
  descendreBras

/-- The steps after the placement. -/
def revenir : Robots.Code τ Unit := do
  ouvrirPince
  monterBras
  retourner 10

/-- The move of a robot, cut at the pick and at the placement. -/
theorem deplacerPieceCallback_eq (msg : DeplacerPieceMsg) :
    deplacerPieceCallback msg = (do
      let s ← Prog.get
      if s.numRobot = msg.numRobot then do
        approcher msg.positionA
        colorer msg.positionA 0
        transferer msg.positionB
        colorer msg.positionB 1
        revenir
      else pure () : Robots.Code τ Unit) := by
  simp only [deplacerPieceCallback, approcher, transferer, revenir, LawfulMonad.bind_assoc]

theorem mouvement_approcher (positionA : ℤ) (s : Robot τ) (w : Simulateur τ) :
    ∃ s' w', executer (approcher positionA) s w = .ok ((), s', w') ∧ Mouvement s w s' w' := by
  obtain ⟨s₁, w₁, h₁, hm₁⟩ := mouvement_envoyerRobot positionA s w
  obtain ⟨s₂, w₂, h₂, hm₂⟩ := mouvement_descendreBras s₁ w₁
  exact ⟨s₂, w₂, by rw [approcher, executer_bind_of_ok _ _ h₁, h₂], hm₁.trans hm₂⟩

theorem mouvement_transferer {positionB : ℤ} {s s' : Robot τ} {w w' : Simulateur τ}
    (h : executer (transferer positionB) s w = .ok ((), s', w')) : Mouvement s w s' w' := by
  obtain ⟨_, s₁, w₁, hferme, h⟩ := executer_bind_inv _ _ h
  obtain ⟨s₂, w₂, h₂, hm₂⟩ := mouvement_monterBras s₁ w₁
  obtain ⟨s₃, w₃, h₃, hm₃⟩ := mouvement_approcher positionB s₂ w₂
  rw [executer_bind_of_ok _ _ h₂] at h
  cases h.symm.trans h₃
  exact (mouvement_bougerPince hferme).trans (hm₂.trans hm₃)

theorem mouvement_revenir {s s' : Robot τ} {w w' : Simulateur τ}
    (h : executer revenir s w = .ok ((), s', w')) : Mouvement s w s' w' := by
  obtain ⟨_, s₁, w₁, houvre, h⟩ := executer_bind_inv _ _ h
  obtain ⟨s₂, w₂, h₂, hm₂⟩ := mouvement_monterBras s₁ w₁
  rw [executer_bind_of_ok _ _ h₂, executer_retourner] at h
  cases h
  have hfin : Mouvement s₂ w₂ { s₂ with retour := 10 }
      (w₂.noter (.retourCommande s₂.numRobot 10)) :=
    ⟨rfl, rfl, rfl, rfl, rfl, [_], rfl, by simp⟩
  exact (mouvement_bougerPince houvre).trans (hm₂.trans hfin)

/-- A completed move is a pick and a placement, with movements around them. -/
theorem executer_deplacerPiece_etapes {s s' : Robot τ} {w w' : Simulateur τ} {msg : DeplacerPieceMsg}
    (hnum : s.numRobot = msg.numRobot)
    (h : executer (deplacerPieceCallback msg) s w = .ok ((), s', w')) :
    ∃ s₁ w₁ s₂ w₂ s₃ w₃ s₄ w₄,
      (executer (approcher msg.positionA) s w = .ok ((), s₁, w₁) ∧ Mouvement s w s₁ w₁) ∧
      executer (colorer msg.positionA 0) s₁ w₁ = .ok ((), s₂, w₂) ∧
      (executer (transferer msg.positionB) s₂ w₂ = .ok ((), s₃, w₃) ∧ Mouvement s₂ w₂ s₃ w₃) ∧
      executer (colorer msg.positionB 1) s₃ w₃ = .ok ((), s₄, w₄) ∧
      executer revenir s₄ w₄ = .ok ((), s', w') ∧ Mouvement s₄ w₄ s' w' := by
  rw [deplacerPieceCallback_eq, executer_get_bind, if_pos hnum] at h
  obtain ⟨s₁, w₁, h₁, hm₁⟩ := mouvement_approcher msg.positionA s w
  rw [executer_bind_of_ok _ _ h₁] at h
  obtain ⟨_, s₂, w₂, h₂, h⟩ := executer_bind_inv _ _ h
  obtain ⟨_, s₃, w₃, h₃, h⟩ := executer_bind_inv _ _ h
  obtain ⟨_, s₄, w₄, h₄, h⟩ := executer_bind_inv _ _ h
  exact ⟨s₁, w₁, s₂, w₂, s₃, w₃, s₄, w₄, ⟨h₁, hm₁⟩, h₂, ⟨h₃, mouvement_transferer h₃⟩, h₄, h,
    mouvement_revenir h⟩

/-- A robot ignores the tasks of the others. -/
theorem executer_faireTache_autre {s : Robot τ} {msg : FaireTacheMsg}
    (h : ¬(msg.numRobot = s.numRobot ∧ (msg.position = 1 ∨ msg.position = 4)))
    (w : Simulateur τ) : executer (faireTacheCallback msg) s w = .ok (none, s, w) := by
  rw [faireTacheCallback, executer_get_bind, if_neg h, executer_pure]

/-- A task starts with one more cube on its post, and is acknowledged at once when none fits. -/
theorem executer_faireTache {s : Robot τ} (hs : Equipe s) (w : Simulateur τ) {msg : FaireTacheMsg}
    (h : msg.numRobot = s.numRobot ∧ (msg.position = 1 ∨ msg.position = 4)) :
    executer (faireTacheCallback msg) s w =
      let table := tableDe s.numRobot msg.position
      let p := w.couleur table.1
      let refus : ℤ → Except Stop (Option ℕ × Robot τ × Simulateur τ) := fun code =>
        .ok (none, { s with retour := codeRetour msg.position },
          (w.noter (.erreurLog code table.2)).noter
            (.retourCommande s.numRobot (codeRetour msg.position)))
      if p.hauteur = 0 then refus 1
      else if p.hauteur = nbCube then refus 2
      else .ok (some p.hauteur,
        s.setPoste msg.position ((s.poste msg.position).debutTask w.temps msg.duree),
        w.peindre table.1 (p.avecCube p.hauteur (table.2 * 10 + 2))) := by
  rw [faireTacheCallback, executer_get_bind, if_pos h, executer_demander_bind, executer_bind]
  simp only [Simulateur.repondre]
  rw [executer_colorerPosteDebutTask hs]
  dsimp only
  split_ifs <;> rfl

/-- An evacuation publishes the stack of the post at position 1 of robot 2 and clears it. -/
theorem executer_evacuer {s : Robot τ} (hs : Equipe s) (w : Simulateur τ) :
    executer evacuer s w =
      if s.numRobot = 2 then
        let nom := (tableDe 2 1).1
        .ok ((), s, (w.noter (.produitEvac (w.couleur nom).toList)).peindre nom Pile.vide)
      else .ok ((), s, w) := by
  rw [evacuer, executer_get_bind]
  split_ifs with h2
  · have hnom : s.postePos1.nomPoste = (tableDe 2 1).1 := by
      rw [← h2]
      exact (hs.poste 1).nomPoste
    rw [hnom, executer_bind_of_ok _ _ (executer_lireCouleurs _ s w), executer_publish_bind,
      executer_demander_bind, h2]
    simp only [Simulateur.repondre, Simulateur.peindreData, executer_pure, Simulateur.publier]
    rw [nomTable_computeTableId (by decide) (by decide),
      show Pile.ofList (List.replicate nbCube 0) = Pile.vide by decide]
  · rfl

/-- A stop is acknowledged, whether a task was running or not. -/
theorem executer_stopTache (s : Robot τ) (w : Simulateur τ) (data : ℤ) :
    executer (stopTacheCallback data) s w =
      if data = 1 ∨ data = 4 then
        .ok ((), { s.setPoste data (s.poste data).stopTask with retour := codeRetour data },
          w.noter (.retourCommande s.numRobot (codeRetour data)))
      else .ok ((), s, w) := by
  rw [stopTacheCallback]
  split_ifs
  · simp
  · rfl

/-- Adding a product over another one reports it and sends a stop to the robot of the post. -/
theorem addProduct_run {produit poste : ℤ} {cible : ℤ × ℤ} (w : Simulateur τ)
    (hcible : CommandeLocale.computeNumRobotPosteTache poste = some cible) :
    (CommandeLocale.addProduct produit poste).run Simulateur.handler () w =
      let nom := CommandeLocale.nomTable (CommandeLocale.computeTableId poste)
      let p := Pile.ofList (CommandeLocale.pileProduit produit)
      if (w.couleur nom).base ≠ 0 then
        .ok ((), (), (Simulateur.publier (.stopTache cible.1 cible.2)
          (w.noter (.erreurLog 66 poste))).peindre nom p)
      else .ok ((), (), w.peindre nom p) := by
  have hver : (CommandeLocale.verifierPoste poste
      (w.couleur (CommandeLocale.nomTable (CommandeLocale.computeTableId poste))).base).run
        Simulateur.handler () w =
      .ok ((), (), if (w.couleur (CommandeLocale.nomTable
        (CommandeLocale.computeTableId poste))).base ≠ 0 then
          Simulateur.publier (.stopTache cible.1 cible.2) (w.noter (.erreurLog 66 poste)) else w) := by
    rw [CommandeLocale.verifierPoste]
    split
    · rw [CommandeLocale.signalerEcrasement, hcible]
      rfl
    · rfl
  -- the colour is read, and the rest of the code depends on it
  change (CommandeLocale.verifierPoste poste
    (w.couleur (CommandeLocale.nomTable (CommandeLocale.computeTableId poste))).base >>= fun _ => do
      let _ ← (Requete.changeColor
        (CommandeLocale.computeTableId poste :: CommandeLocale.pileProduit produit)).demander
      pure ()).run Simulateur.handler () w = _
  rw [run_bind_of_ok _ _ _ hver]
  dsimp only
  split_ifs <;> rfl

end Atelier
