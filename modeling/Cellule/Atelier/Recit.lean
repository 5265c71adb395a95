import Cellule.Atelier.Deplacement
import Cellule.Lib.History

/-! # What the orders announce about the tasks

An order that is recorded with the cell before and after it tells what was published meanwhile.
Three kinds of messages are about the tasks of the posts: the end of a task, the interruption of a
task by a move, and the stop that the addition of a product sends. `annonces_executerOrdre` says
which of them an order publishes, from what it finds in the cell.
-/

namespace Atelier

open Reactive Reactive.Prog Robots Robots.Robot
open Vue (table)

variable {τ : Type}

/-- An order executed to completion with what it brought to light, and the cell before and after. -/
abbrev Etape (τ : Type) := Transition (Cellule τ) (Ordre τ × Resultat)

/-- The messages published during a step. -/
def Etape.messages (e : Etape τ) : List Message :=
  e.after.sim.journal.drop e.before.sim.journal.length

/-- The messages about the tasks of the posts. -/
def estAnnonce : Message → Bool
  | .tacheFinie _ _ _ => true
  | .erreurLog code _ => code == 3
  | .stopTache _ _ => true
  | _ => false

/-! ## The posts and their numbers -/

/-- Posts at different places have different numbers. -/
theorem numeroTable_injective {r r' : Fin 4} {position position' : ℤ}
    (hpos : position = 1 ∨ position = 4) (hpos' : position' = 1 ∨ position' = 4)
    (h : (table r position).2 = (table r' position').2) : r = r' ∧ position = position' := by
  have key : ∀ r r' : Fin 4, ∀ position ∈ ([1, 4] : List ℤ), ∀ position' ∈ ([1, 4] : List ℤ),
      (table r position).2 = (table r' position').2 → r = r' ∧ position = position' := by
    decide
  exact key r r' position (by simpa using hpos) position' (by simpa using hpos') h

theorem numero_injective {r r' : Fin 4} (h : numero r = numero r') : r = r' := by
  have key : ∀ r r' : Fin 4, numero r = numero r' → r = r' := by decide
  exact key r r' h

/-- Replacing a post is seen at its position and nowhere else. -/
theorem poste_vueSetPoste (v : Vue τ) {r r' : Fin 4} {position position' : ℤ}
    (hpos : position = 1 ∨ position = 4) (hpos' : position' = 1 ∨ position' = 4) (p : Poste τ) :
    (v.setPoste r' position' p).poste r position =
      if r' = r ∧ position' = position then p else v.poste r position := by
  have hiff : (position' = 1 ↔ position = 1) ↔ position' = position := by omega
  by_cases hr : r' = r
  · subst hr
    simp only [Vue.setPoste, Function.update_self, hiff, true_and]
  · simp [Vue.setPoste, Function.update_of_ne (Ne.symm hr), hr]

section ActionsDePoste

variable (v : Vue τ) {r r' : Fin 4} {position position' : ℤ} (hpos : position = 1 ∨ position = 4)
  (hpos' : position' = 1 ∨ position' = 4)

include hpos hpos'

theorem poste_debut (temps : τ) (duree : ℤ) :
    (v.apres (.debut r' position' temps duree)).poste r position =
      if r' = r ∧ position' = position then (v.poste r position).debutTask temps duree
      else v.poste r position := by
  rw [Vue.apres, poste_vueSetPoste _ hpos hpos']
  split_ifs with h
  · rw [h.1, h.2]
  · rfl

theorem poste_fin :
    (v.apres (.fin r' position')).poste r position =
      if r' = r ∧ position' = position then (v.poste r position).stopTask
      else v.poste r position := by
  rw [Vue.apres, poste_vueSetPoste _ hpos hpos']
  split_ifs with h
  · rw [h.1, h.2]
  · rfl

theorem poste_arret :
    (v.apres (.arret r' position')).poste r position =
      if r' = r ∧ position' = position then (v.poste r position).stopTask
      else v.poste r position := by
  rw [Vue.apres, poste_vueSetPoste _ hpos hpos']
  split_ifs with h
  · rw [h.1, h.2]
  · rfl

/-- A post and the end of a task that may come. -/
theorem poste_fin_si (oui : Bool) :
    ((if oui then [Action.fin r' position'] else []).foldl Vue.apres v).poste r position =
      if (r' = r ∧ position' = position) ∧ oui = true then (v.poste r position).stopTask
      else v.poste r position := by
  cases oui
  · simp
  · simp [poste_fin v hpos hpos']

end ActionsDePoste

/-! ## What a move may publish -/

/-- Neither the end of a task nor a stop. -/
def DuDeplacement (m : Message) : Prop := estAnnonce m = true → estSignalement m = true

private abbrev Discret {α : Type} (p : Robots.Code τ α) : Prop := p.Emits DuDeplacement

private theorem duDeplacement_retour (data n : ℤ) : DuDeplacement (.retourCommande n data) := by
  simp [DuDeplacement, estAnnonce]

private theorem discret_envoyerRobot (n : ℤ) : Discret (envoyerRobot n : Robots.Code τ Unit) :=
  emits_bras (duDeplacement_retour 2) fun _ => by simp [DuDeplacement, estAnnonce]

private theorem discret_descendreBras : Discret (descendreBras : Robots.Code τ Unit) :=
  emits_bras (duDeplacement_retour 4) fun _ => by simp [DuDeplacement, estAnnonce]

private theorem discret_monterBras : Discret (monterBras : Robots.Code τ Unit) :=
  emits_bras (duDeplacement_retour 5) fun _ => by simp [DuDeplacement, estAnnonce]

private theorem discret_bougerPince [Horloge τ] (cmd code : ℤ) :
    Discret (bougerPince cmd code : Robots.Code τ Unit) :=
  emits_bougerPince (fun _ => by simp [DuDeplacement, estAnnonce]) (duDeplacement_retour code)
    fun _ => by simp [DuDeplacement, estAnnonce]

/-- Reading colours publishes nothing. -/
private theorem discret_lireCouleurs (signal : String) :
    Discret (lireCouleurs signal : Robots.Code τ (List ℤ)) := by
  rw [lireCouleurs]
  induction List.range nbCube with
  | nil => trivial
  | cons i is ih =>
    rw [List.mapM_cons]
    exact Emits.bind (p := (Requete.getColor signal i).demander) (fun _ => trivial) fun _ =>
      Emits.bind ih fun _ => trivial

private theorem discret_choisirSignal (position idNavette : ℤ) :
    Discret (choisirSignal position idNavette : Robots.Code τ String) := by
  rw [choisirSignal]
  split_ifs
  · trivial
  · refine Emits.bind (p := interrompreTache position) (fun s => ?_) fun _ _ => trivial
    change Emits _ (if (s.poste position).taskEnCours = true then _ else _)
    split_ifs
    · exact ⟨by simp [DuDeplacement, estSignalement], emits_retourner (duDeplacement_retour _)⟩
    · trivial
  · trivial

private theorem discret_colorer (position type : ℤ) :
    Discret (colorer position type : Robots.Code τ Unit) := by
  refine Emits.bind (p := chercherNavette position) (fun s => ?_) fun idNavette => ?_
  · change Emits _ (if position = 2 ∨ position = 3 then _ else _)
    split_ifs
    · exact fun _ => trivial
    · trivial
  · split_ifs
    · exact fun _ => ⟨by simp [DuDeplacement, estAnnonce], trivial⟩
    · refine Emits.bind (discret_choisirSignal position idNavette) fun signal =>
        Emits.bind (discret_lireCouleurs signal) fun couleur =>
          Emits.bind (p := Robot.peindre position idNavette) (fun s => ?_) fun _ =>
            fun s => ⟨by simp [DuDeplacement, estAnnonce], fun s => ?_⟩
      · change Emits _ (if position = 2 ∨ position = 3 then _ else _)
        split_ifs
        · exact fun _ => trivial
        · exact fun _ => trivial
        · trivial
      · change Emits _ (if type = 1 ∧ _ then _ else _)
        split_ifs
        · exact ⟨by simp [DuDeplacement, estSignalement], trivial⟩
        · trivial

/-- A move publishes neither the end of a task nor a stop. -/
theorem emits_deplacerPiece [Horloge τ] (msg : DeplacerPieceMsg) :
    (deplacerPieceCallback msg : Robots.Code τ Unit).Emits DuDeplacement := by
  intro s
  change Emits _ (if s.numRobot = msg.numRobot then _ else _)
  split_ifs
  · exact Emits.bind (discret_envoyerRobot _) fun _ => Emits.bind discret_descendreBras fun _ =>
      Emits.bind (discret_colorer _ _) fun _ => Emits.bind (discret_bougerPince _ _) fun _ =>
      Emits.bind discret_monterBras fun _ => Emits.bind (discret_envoyerRobot _) fun _ =>
      Emits.bind discret_descendreBras fun _ => Emits.bind (discret_colorer _ _) fun _ =>
      Emits.bind (discret_bougerPince _ _) fun _ => Emits.bind discret_monterBras fun _ =>
      emits_retourner (duDeplacement_retour 10)
  · trivial

/-! ## What an order announces -/

variable [Horloge τ]

/-- A tick announces the end of a task that is over. -/
def finAnnoncee (r : Fin 4) (position : ℤ) (temps : τ) (v : Vue τ) : List Message :=
  if (v.poste r position).finTache temps then
    [.tacheFinie (table r position).2 ((v.apres (.fin r position)).pile (table r position).1).base
      (v.poste r position).dureeTask]
  else []

/-- The announcements of an order. -/
def annonces : Ordre τ → Vue τ → List Message
  | .update r temps, v => finAnnoncee r 1 temps v ++ finAnnoncee r 4 temps v
  | .ajouterProduit _ poste, v =>
      match CommandeLocale.computeNumRobotPosteTache poste with
      | some cible =>
          if (v.pile (CommandeLocale.nomTable (CommandeLocale.computeTableId poste))).base ≠ 0 then
            [.stopTache cible.1 cible.2]
          else []
      | none => []
  | .deplacerPiece r msg temps navettes, v =>
      (signaux v (actions (.deplacerPiece r msg temps navettes) v)).filter estAnnonce
  | .faireTache _ _ _, _ => []
  | .evacuer _, _ => []
  | .stopTache _ _, _ => []

/-- Only the post and its stack decide what a tick announces. -/
theorem finAnnoncee_congr {r : Fin 4} {position : ℤ} {v v' : Vue τ}
    (hposte : v'.poste r position = v.poste r position)
    (hpile : v'.pile (table r position).1 = v.pile (table r position).1) (temps : τ) :
    finAnnoncee r position temps v' = finAnnoncee r position temps v := by
  have hfin : ∀ v : Vue τ, (v.apres (.fin r position)).pile (table r position).1 =
      (v.pile (table r position).1).avecCube ((v.pile (table r position).1).hauteur - 1)
        ((table r position).2 * 10 + 3) := fun v => by
    simp [Vue.apres, Vue.setPoste, Vue.peindre]
  rw [finAnnoncee, finAnnoncee, hfin, hfin, hposte, hpile]

omit [Horloge τ] in
/-- A stop announces nothing. -/
theorem emits_stopTache (data : ℤ) :
    (stopTacheCallback data : Robots.Code τ Unit).Emits fun m => estAnnonce m = false := by
  rw [stopTacheCallback]
  split_ifs
  · exact fun _ => ⟨rfl, trivial⟩
  · trivial

theorem annonces_livrerStops {stops : List (ℤ × ℤ)} {c c' : Cellule τ}
    (h : stops.foldlM Cellule.livrerStop c = .ok c') :
    c'.sim.journal.filter estAnnonce = c.sim.journal.filter estAnnonce :=
  livrerStops_rel (R := fun c c' => c'.sim.journal.filter estAnnonce = c.sim.journal.filter estAnnonce)
    (fun _ => rfl) (fun _ _ _ h₁ h₂ => h₂.trans h₁)
    (fun _ _ _ _ _ _ hex => filter_journal_of_emits (emits_stopTache _) hex) h

/-- One half of a tick announces the end of the task that is over. -/
theorem annonces_updatePoste {r : Fin 4} {s s' : Robot τ} {w w' : Simulateur τ} (hs : Equipe s)
    (hnum : s.numRobot = numero r) {position : ℤ} {time : τ} {i : Option ℕ}
    (h : executer (Robot.updatePoste position time) s w = .ok (i, s', w')) (c : Cellule τ) :
    w'.journal.filter estAnnonce =
      w.journal.filter estAnnonce ++ finAnnoncee r position time (vue (c.avec r s w)) := by
  have hposte : (vue (c.avec r s w)).poste r position = s.poste position := by
    rw [vue_avec_poste, Function.update_self]
  rw [executer_updatePoste hs] at h
  dsimp only at h
  rw [hnum] at h
  rw [finAnnoncee, hposte]
  split_ifs at h with hfin h0
  · cases h
    rw [if_neg (by simp [hfin]), List.append_nil]
  · cases h
    rw [if_pos (eq_true_of_ne_false hfin)]
    have hpile : ((vue (c.avec r s w)).apres (.fin r position)).pile (table r position).1 =
        (w.couleur (table r position).1).avecCube ((w.couleur (table r position).1).hauteur - 1)
          ((table r position).2 * 10 + 3) := by
      simp [Vue.apres, Vue.setPoste, Vue.peindre]
    rw [hpile]
    simp only [Simulateur.noter, Simulateur.peindre, List.filter_append]
    rw [List.append_assoc]
    rfl

/-- A tick announces the end of the tasks that are over. -/
theorem annonces_update {r : Fin 4} {s s' : Robot τ} {w w' : Simulateur τ} (hs : Equipe s)
    (hnum : s.numRobot = numero r) {i : Option ℕ × Option ℕ}
    (h : executer Robot.update s w = .ok (i, s', w')) (c : Cellule τ) :
    w'.journal.filter estAnnonce =
      w.journal.filter estAnnonce ++ annonces (.update r w.temps) (vue (c.avec r s w)) := by
  obtain ⟨s₁, w₁, h₁, h₄⟩ := executer_update_inv h
  have he₁ := (Effet.updatePoste hs hnum h₁).1
  have ha₁ := annonces_updatePoste hs hnum h₁ c
  have ha₄ := annonces_updatePoste he₁.equipe (he₁.numRobot.trans hnum) h₄ c
  -- the second half reads the other post as it was before the tick
  obtain ⟨hposte, hpile⟩ := Effet.updatePoste_autre he₁
  have hautre : finAnnoncee r 4 w.temps (vue (c.avec r s₁ w₁)) =
      finAnnoncee r 4 w.temps (vue (c.avec r s w)) := by
    refine finAnnoncee_congr ?_ hpile w.temps
    rw [vue_avec_poste, vue_avec_poste, Function.update_self, Function.update_self, hposte]
  rw [ha₄, ha₁, hautre, List.append_assoc]
  rfl

/-- A task that starts or is refused announces nothing: a refusal is logged with the code 1 or 2. -/
theorem annonces_faireTache {s s' : Robot τ} {w w' : Simulateur τ} (hs : Equipe s)
    {msg : FaireTacheMsg} {i : Option ℕ}
    (h : executer (faireTacheCallback msg) s w = .ok (i, s', w')) :
    w'.journal.filter estAnnonce = w.journal.filter estAnnonce := by
  by_cases hmoi : msg.numRobot = s.numRobot ∧ (msg.position = 1 ∨ msg.position = 4)
  · rw [executer_faireTache hs _ hmoi] at h
    dsimp only at h
    split_ifs at h
    · cases h
      simp [Simulateur.noter, estAnnonce]
    · cases h
      simp [Simulateur.noter, estAnnonce]
    · cases h
      rfl
  · rw [executer_faireTache_autre hmoi] at h
    cases h
    rfl

/-- An evacuation announces nothing. -/
theorem annonces_evacuer {s s' : Robot τ} {w w' : Simulateur τ} (hs : Equipe s)
    (h : executer Robot.evacuer s w = .ok ((), s', w')) :
    w'.journal.filter estAnnonce = w.journal.filter estAnnonce := by
  rw [executer_evacuer hs] at h
  split_ifs at h
  · cases h
    simp [Simulateur.noter, Simulateur.peindre, estAnnonce]
  · cases h
    rfl

/-- Every announcement of a move is among its signals. -/
theorem annonces_deplacerPiece {r : Fin 4} {s s' : Robot τ} {w w' : Simulateur τ} (hs : Equipe s)
    (hnum : s.numRobot = numero r) {msg : DeplacerPieceMsg} (hA : msg.positionA ∈ [1, 2, 3, 4])
    (hB : msg.positionB ∈ [1, 2, 3, 4]) (hmsg : numero r = msg.numRobot)
    (h : executer (deplacerPieceCallback msg) s w = .ok ((), s', w')) (c : Cellule τ) :
    w'.journal.filter estAnnonce = w.journal.filter estAnnonce ++
      annonces (.deplacerPiece r msg w.temps w.navettes) (vue (c.avec r s w)) := by
  have hsignal := signalements_deplacerPiece hs hnum hA hB hmsg h c
  obtain ⟨ms, hms, hdep⟩ := run_log Simulateur.handler _ _ Simulateur.journal
    Simulateur.journal_repondre (fun _ _ _ _ h => Simulateur.journal_attendre h)
    Simulateur.journal_publier (emits_deplacerPiece msg) h
  have hfiltre : ms.filter estAnnonce = (ms.filter estSignalement).filter estAnnonce := by
    rw [List.filter_filter]
    refine List.filter_congr fun m hm => ?_
    have hm := hdep m hm
    rw [DuDeplacement] at hm
    cases ha : estAnnonce m
    · simp
    · simp [hm ha]
  rw [signalements, signalements, hms, List.filter_append] at hsignal
  rw [hms, List.filter_append, hfiltre, List.append_cancel_left hsignal, annonces, actions, if_pos hmsg]

/-- The addition of a product announces a stop when the post shows a product. -/
theorem annonces_ajouterProduit {c c' : Cellule τ} {produit poste : ℤ} (hposte : 1 ≤ poste ∧ poste ≤ 8)
    (h : Cellule.ajouterProduit produit poste c = .ok c') :
    c'.sim.journal.filter estAnnonce =
      c.sim.journal.filter estAnnonce ++ annonces (.ajouterProduit produit poste) (vue c) := by
  obtain ⟨r, position, -, hcible, -, hnom⟩ := poste_valide hposte
  have hpile : (vue c).pile = c.sim.couleur := rfl
  rw [Cellule.ajouterProduit, addProduct_run c.sim hcible, hnom] at h
  rw [annonces, hcible, hpile, hnom]
  dsimp only at h ⊢
  by_cases hbase : (c.sim.couleur (table r position).1).base ≠ 0
  · rw [if_pos hbase] at h
    rw [if_pos hbase, annonces_livrerStops h]
    simp [Simulateur.publier, Simulateur.peindre, Simulateur.noter, estAnnonce]
  · rw [if_neg hbase] at h
    rw [if_neg hbase, annonces_livrerStops h, List.append_nil]
    rfl

/-- **What an order announces** is what the view predicts. -/
theorem annonces_executerOrdre {o : Ordre τ} {c c' : Cellule τ} {res : Resultat} (hc : Equipee c)
    (ho : o.Valide) (h : Cellule.executerOrdre o c = .ok (res, c')) :
    c'.sim.journal.filter estAnnonce = c.sim.journal.filter estAnnonce ++ annonces o (vue c) := by
  cases o with
  | faireTache r msg t =>
    obtain ⟨i, s', w', hex, hres⟩ := surRobot_map_inv h
    cases hres
    have hrien := annonces_faireTache (hc.equipe r) hex
    rwa [annonces, List.append_nil]
  | update r t =>
    obtain ⟨i, s', w', hex, hres⟩ := surRobot_map_inv h
    cases hres
    have hvue := annonces_update (hc.equipe r) (hc.numRobot r) hex (c.aTemps t)
    rwa [show (c.aTemps t).avec r (c.robot r) (c.aTemps t).sim = c.aTemps t from avec_self ..] at hvue
  | evacuer r =>
    obtain ⟨i, s', w', hex, hres⟩ := surRobot_map_inv h
    cases hres
    have hrien := annonces_evacuer (hc.equipe r) hex
    rwa [annonces, List.append_nil]
  | ajouterProduit produit poste =>
    obtain ⟨c₁, hajout, hres⟩ := map_eq_ok h
    cases hres
    exact annonces_ajouterProduit ho hajout
  | stopTache r position =>
    obtain ⟨i, s', w', hex, hres⟩ := surRobot_map_inv h
    cases hres
    rw [annonces, List.append_nil]
    exact filter_journal_of_emits (emits_stopTache position) hex
  | deplacerPiece r msg t navettes =>
    obtain ⟨s', w', hex, rfl⟩ := executerOrdre_deplacerPiece_inv h
    by_cases hmsg : numero r = msg.numRobot
    · have hvue := annonces_deplacerPiece (hc.equipe r) (hc.numRobot r) ho.1 ho.2 hmsg hex c
      rwa [show c.avec r (c.robot r) ((c.aTemps t).avecNavettes navettes).sim =
        (c.aTemps t).avecNavettes navettes from avec_self ..] at hvue
    -- a message for another robot
    · have hautre : (c.robot r).numRobot ≠ msg.numRobot := by
        rw [hc.numRobot r]
        exact hmsg
      have hrien := executer_deplacerPiece_autre hautre ((c.aTemps t).avecNavettes navettes).sim
      cases hrien.symm.trans hex
      rw [annonces, actions, if_neg hmsg]
      exact (List.append_nil _).symm

/-! ## What becomes of the task of a post -/

section Devenir

variable (r : Fin 4) (position : ℤ)

/-- The post before a step. -/
def Etape.posteAvant (e : Etape τ) : Poste τ := (e.before.robot r).poste position

/-- The post after a step. -/
def Etape.posteApres (e : Etape τ) : Poste τ := (e.after.robot r).poste position

/-- A message is about the task of the post. -/
def concerne : Message → Bool
  | .tacheFinie n _ _ => n == (table r position).2
  | .erreurLog code n => code == 3 && n == (table r position).2
  | .stopTache n p => n == numero r && p == position
  | _ => false

/-- The messages of a step about the task of the post. -/
def Etape.annoncesDe (e : Etape τ) : List Message := e.messages.filter (concerne r position)

/-- A task starts on the post: `colorerPosteDebutTask` did not return `-1`. -/
def Etape.demarre (e : Etape τ) : Bool :=
  match e.label with
  | (.faireTache r' msg _, .debut (some _)) => decide (r' = r ∧ msg.position = position)
  | _ => false

/-- A `StopTache` for the post is delivered: from its topic, or at once when the addition of a
product sends it. -/
def Etape.recoitStop (e : Etape τ) : Bool :=
  match e.label.1 with
  | .stopTache r' position' => decide (r' = r ∧ position' = position)
  | _ => decide (Message.stopTache (numero r) position ∈ e.messages)

/-- What a step does to the task of the post, and what it announces about it. -/
inductive Devenir (e : Etape τ) : Prop
  | demarree {msg : FaireTacheMsg} {temps : τ} (ordre : e.label.1 = .faireTache r msg temps)
      (cible : msg.position = position) (possible : DebutPossible (vue e.before) r msg)
      (poste : e.posteApres r position = (e.posteAvant r position).debutTask temps msg.duree)
      (demarre : e.demarre r position = true) (stop : e.recoitStop r position = false)
      (annonces : e.annoncesDe r position = [])
  | finie {temps : τ} (ordre : e.label.1 = .update r temps)
      (fin : (e.posteAvant r position).finTache temps = true)
      (poste : e.posteApres r position = (e.posteAvant r position).stopTask)
      (demarre : e.demarre r position = false) (stop : e.recoitStop r position = false)
      (annonces : e.annoncesDe r position = finAnnoncee r position temps (vue e.before))
  | arretee (poste : e.posteApres r position = (e.posteAvant r position).stopTask)
      (demarre : e.demarre r position = false) (stop : e.recoitStop r position = true)
      (annonces : ∀ m ∈ e.annoncesDe r position, m = .stopTache (numero r) position)
  | interrompue (enCours : (e.posteAvant r position).taskEnCours = true)
      (poste : e.posteApres r position = (e.posteAvant r position).stopTask)
      (demarre : e.demarre r position = false) (stop : e.recoitStop r position = false)
      (annonces : e.annoncesDe r position = [.erreurLog 3 (table r position).2])
  | inchangee (poste : e.posteApres r position = e.posteAvant r position)
      (demarre : e.demarre r position = false) (stop : e.recoitStop r position = false)
      (annonces : e.annoncesDe r position = [])

variable {r position}

omit [Horloge τ] in
theorem estAnnonce_of_concerne {m : Message} (h : concerne r position m = true) :
    estAnnonce m = true := by
  cases m with
  | erreurLog code n =>
    rw [concerne, Bool.and_eq_true] at h
    exact h.1
  | tacheFinie | stopTache => rfl
  | _ => exact absurd h Bool.false_ne_true

/-- What a step announces is read off the cell that the order finds. -/
theorem annonces_etape {e : Etape τ} {garde : Cellule τ → Ordre τ → Prop} (hc : Equipee e.before)
    (hp : Pas garde e.before e.label e.after) :
    e.messages.filter estAnnonce = annonces e.label.1 (vue e.before) := by
  obtain ⟨ms, hms⟩ := journal_executerOrdre hp.2.2
  have h := annonces_executerOrdre hc hp.1 hp.2.2
  rw [← hms, List.filter_append] at h
  rw [Etape.messages, ← hms, List.drop_left]
  exact List.append_cancel_left h

omit [Horloge τ] in
theorem filter_concerne (ms : List Message) :
    (ms.filter estAnnonce).filter (concerne r position) = ms.filter (concerne r position) := by
  rw [List.filter_filter]
  refine List.filter_congr fun m _ => ?_
  cases hm : concerne r position m
  · rfl
  · simp [estAnnonce_of_concerne hm]

theorem annoncesDe_eq {e : Etape τ} {garde : Cellule τ → Ordre τ → Prop} (hc : Equipee e.before)
    (hp : Pas garde e.before e.label e.after) :
    e.annoncesDe r position =
      (annonces e.label.1 (vue e.before)).filter (concerne r position) := by
  rw [Etape.annoncesDe, ← annonces_etape hc hp, filter_concerne]

omit [Horloge τ] in
/-- The stops among the messages of a step are those it announces. -/
theorem stopTache_mem_messages {e : Etape τ} :
    Message.stopTache (numero r) position ∈ e.messages ↔
      Message.stopTache (numero r) position ∈ e.annoncesDe r position := by
  simp [Etape.annoncesDe, concerne]

/-- A tick announces the end of a task under the number of its post. -/
theorem filter_finAnnoncee (hpos : position = 1 ∨ position = 4) {r' : Fin 4} {position' : ℤ}
    (hpos' : position' = 1 ∨ position' = 4) (temps : τ) (v : Vue τ) :
    (finAnnoncee r' position' temps v).filter (concerne r position) =
      if r' = r ∧ position' = position then finAnnoncee r position temps v else [] := by
  have hnum : (table r' position').2 = (table r position).2 ↔ r' = r ∧ position' = position :=
    ⟨numeroTable_injective hpos' hpos, fun h => by rw [h.1, h.2]⟩
  by_cases h : r' = r ∧ position' = position
  · obtain ⟨rfl, rfl⟩ := h
    rw [if_pos ⟨rfl, rfl⟩, finAnnoncee]
    split_ifs
    · simp [concerne]
    · rfl
  · rw [if_neg h, finAnnoncee]
    split_ifs
    · simp [concerne, hnum.not.2 h]
    · rfl

/-! ### A move -/

/-- The actions of a move. -/
def EstGeste : Action τ → Prop
  | .arret _ position => position = 1 ∨ position = 4
  | .prise _ _ | .pose _ _ | .chute _ => True
  | _ => False

omit [Horloge τ] in
theorem actionsColorer_gestes {r : Fin 4} {position type idNavette : ℤ}
    (hpos : position ∈ [1, 2, 3, 4]) :
    ∀ a ∈ (actionsColorer r position type idNavette : List (Action τ)), EstGeste a := by
  have hgeste : ∀ nom, EstGeste (geste r type nom : Action τ) := by
    intro nom
    rw [geste]
    split <;> trivial
  rw [actionsColorer]
  split_ifs with h23 h66
  · simp [EstGeste]
  · simpa using hgeste _
  · have h14 : position = 1 ∨ position = 4 := by simp at hpos; omega
    simpa [EstGeste, h14] using hgeste _

theorem gestes_deplacerPiece {r : Fin 4} {msg : DeplacerPieceMsg} {temps : τ} {navettes : List ℤ}
    (ho : (Ordre.deplacerPiece r msg temps navettes).Valide) (v : Vue τ) :
    ∀ a ∈ actions (.deplacerPiece r msg temps navettes) v, EstGeste a := by
  rw [actions]
  split_ifs
  · intro a ha
    rcases List.mem_append.1 ha with ha | ha
    · exact actionsColorer_gestes ho.1 a ha
    · exact actionsColorer_gestes ho.2 a ha
  · simp

/-- The task of the post is left alone and nothing is said about it, or it was running, is stopped
and one message says so. -/
def TacheManipulee (r : Fin 4) (position : ℤ) (v v' : Vue τ) (ms : List Message) : Prop :=
  (v'.poste r position = v.poste r position ∧ ms.filter (concerne r position) = []) ∨
    ((v.poste r position).taskEnCours = true ∧
      v'.poste r position = (v.poste r position).stopTask ∧
      ms.filter (concerne r position) = [.erreurLog 3 (table r position).2])

omit [Horloge τ] in
theorem TacheManipulee.trans {v v₁ v₂ : Vue τ} {ms₁ ms₂ : List Message}
    (h₁ : TacheManipulee r position v v₁ ms₁) (h₂ : TacheManipulee r position v₁ v₂ ms₂) :
    TacheManipulee r position v v₂ (ms₁ ++ ms₂) := by
  rw [TacheManipulee, List.filter_append]
  rcases h₁ with ⟨hp₁, hm₁⟩ | ⟨ht₁, hp₁, hm₁⟩
  · rw [hm₁, List.nil_append, ← hp₁]
    exact h₂
  -- a task that was stopped is not stopped again
  · rcases h₂ with ⟨hp₂, hm₂⟩ | ⟨ht₂, -, -⟩
    · exact .inr ⟨ht₁, hp₂.trans hp₁, by rw [hm₁, hm₂]; rfl⟩
    · rw [hp₁] at ht₂
      exact absurd ht₂ Bool.false_ne_true

omit [Horloge τ] in
theorem tacheManipulee_signal (hpos : position = 1 ∨ position = 4) {a : Action τ} (ha : EstGeste a)
    (v : Vue τ) : TacheManipulee r position v (v.apres a) (signal v a) := by
  cases a with
  | arret r' position' =>
    rw [TacheManipulee, poste_arret v hpos ha, signal]
    by_cases h : r' = r ∧ position' = position
    · obtain ⟨rfl, rfl⟩ := h
      rw [if_pos ⟨rfl, rfl⟩]
      by_cases ht : (v.poste r' position').taskEnCours = true
      · rw [if_pos ht]
        exact .inr ⟨ht, rfl, by simp [concerne]⟩
      · rw [if_neg ht]
        exact .inl ⟨Poste.stopTask_of_eq_false (by simpa using ht), rfl⟩
    -- the stop of another post
    · have hnum : (table r' position').2 ≠ (table r position).2 := fun h' =>
        h (numeroTable_injective ha hpos h')
      rw [if_neg h]
      refine .inl ⟨rfl, ?_⟩
      split_ifs
      · simp [concerne, hnum]
      · rfl
  | pose r' nom =>
    refine .inl ⟨rfl, ?_⟩
    rw [signal]
    split_ifs <;> rfl
  | prise | chute => exact .inl ⟨rfl, rfl⟩
  | _ => exact ha.elim

omit [Horloge τ] in
/-- A move leaves the task of a post alone, or interrupts it and says so once. -/
theorem tacheManipulee_signaux (hpos : position = 1 ∨ position = 4) {as : List (Action τ)}
    (has : ∀ a ∈ as, EstGeste a) (v : Vue τ) :
    TacheManipulee r position v (as.foldl Vue.apres v) (signaux v as) := by
  induction as generalizing v with
  | nil => exact .inl ⟨rfl, rfl⟩
  | cons a as ih =>
    exact (tacheManipulee_signal hpos (has a (by simp)) v).trans
      (ih (fun a' ha' => has a' (by simp [ha'])) _)

/-! ### The cases of a step -/

omit [Horloge τ] in
/-- A step that neither is the order of a stop nor announces one delivers none. -/
theorem recoitStop_eq_false {e : Etape τ} (hordre : e.label.1 ≠ .stopTache r position)
    (hannonces : Message.stopTache (numero r) position ∉ e.annoncesDe r position) :
    e.recoitStop r position = false := by
  rw [← stopTache_mem_messages] at hannonces
  rw [Etape.recoitStop]
  split
  · rename_i r' position' ho
    refine decide_eq_false fun h => hordre ?_
    rw [ho, h.1, h.2]
  · exact decide_eq_false hannonces

omit [Horloge τ] in
/-- Only the order of a task starts one. -/
theorem demarre_eq_false {e : Etape τ} (hordre : ∀ r msg temps, e.label.1 ≠ .faireTache r msg temps) :
    e.demarre r position = false := by
  rw [Etape.demarre]
  split
  · rename_i r' msg temps k he
    exact absurd (by rw [he]) (hordre r' msg temps)
  · rfl

omit [Horloge τ] in
theorem demarre_of_debut {e : Etape τ} {r' : Fin 4} {msg : FaireTacheMsg} {temps : τ} {i : Option ℕ}
    (hordre : e.label.1 = .faireTache r' msg temps) (hres : e.label.2 = .debut i) :
    e.demarre r position = (i.isSome && decide (r' = r ∧ msg.position = position)) := by
  obtain ⟨c, ⟨o, res⟩, c'⟩ := e
  dsimp only at hordre hres
  rw [hordre, hres]
  cases i <;> simp [Etape.demarre]

/-- A step that leaves the post and says nothing about it. -/
theorem Devenir.de_rien {e : Etape τ} (hposte : e.posteApres r position = e.posteAvant r position)
    (hann : e.annoncesDe r position = []) (hordre : e.label.1 ≠ .stopTache r position)
    (hdem : e.demarre r position = false) : Devenir r position e :=
  .inchangee hposte hdem (recoitStop_eq_false hordre (by simp [hann])) hann

/-- The post after a step, by the actions of its order. -/
theorem Etape.posteApres_eq {e : Etape τ} {garde : Cellule τ → Ordre τ → Prop}
    (hc : Equipee e.before) (hp : Pas garde e.before e.label e.after) :
    e.posteApres r position =
      ((actions e.label.1 (vue e.before)).foldl Vue.apres (vue e.before)).poste r position := by
  rw [← (executerOrdre_vue hc hp.1 hp.2.2).2.1]
  rfl

section Ordres

variable {e : Etape τ} {garde : Cellule τ → Ordre τ → Prop} (hc : Equipee e.before)
  (hp : Pas garde e.before e.label e.after) (hpos : position = 1 ∨ position = 4)

include hc hp hpos

/-- A task that starts on the post, or elsewhere, or is refused. -/
theorem devenir_faireTache {r' : Fin 4} {msg : FaireTacheMsg} {temps : τ}
    (hordre : e.label.1 = .faireTache r' msg temps) : Devenir r position e := by
  have hann : e.annoncesDe r position = _ := annoncesDe_eq hc hp
  have hposte : e.posteApres r position = _ := Etape.posteApres_eq hc hp
  have hres := (executerOrdre_vue hc hp.1 hp.2.2).2.2
  rw [hordre] at hann hposte hres
  rw [actions] at hposte
  have hdem : e.demarre r position = _ := demarre_of_debut hordre hres
  by_cases hd : DebutPossible (vue e.before) r' msg
  · rw [if_pos hd] at hposte hdem
    rw [List.foldl_cons, List.foldl_nil, poste_debut _ hpos hd.2.1] at hposte
    by_cases h : r' = r ∧ msg.position = position
    · obtain ⟨rfl, rfl⟩ := h
      rw [if_pos ⟨rfl, rfl⟩] at hposte
      exact .demarree hordre rfl hd hposte (by simpa using hdem)
        (recoitStop_eq_false (by simp [hordre]) (by simp [hann, annonces])) hann
    · rw [if_neg h] at hposte
      exact .de_rien hposte hann (by simp [hordre]) (by simpa [h] using hdem)
  · rw [if_neg hd] at hposte hdem
    exact .de_rien hposte hann (by simp [hordre]) (by simpa using hdem)

/-- A tick ends the task of the post that is over. -/
theorem devenir_update {r' : Fin 4} {temps : τ} (hordre : e.label.1 = .update r' temps) :
    Devenir r position e := by
  have hann : e.annoncesDe r position = _ := annoncesDe_eq hc hp
  have hposte : e.posteApres r position = _ := Etape.posteApres_eq hc hp
  have havant : (vue e.before).poste r position = e.posteAvant r position := rfl
  have hdem : e.demarre r position = false := demarre_eq_false (by simp [hordre])
  rw [hordre] at hann hposte
  rw [annonces, List.filter_append, filter_finAnnoncee hpos (.inl rfl),
    filter_finAnnoncee hpos (.inr rfl)] at hann
  rw [actions, List.foldl_append, poste_fin_si _ hpos (.inr rfl), poste_fin_si _ hpos (.inl rfl)]
    at hposte
  by_cases hr : r' = r
  · subst hr
    -- one of the two halves of the tick looks at this post
    have hmoitie : e.posteApres r' position = (if (e.posteAvant r' position).finTache temps = true
          then (e.posteAvant r' position).stopTask else e.posteAvant r' position) ∧
        e.annoncesDe r' position = finAnnoncee r' position temps (vue e.before) := by
      rcases hpos with rfl | rfl
      · simpa [havant] using And.intro hposte hann
      · simpa [havant] using And.intro hposte hann
    by_cases hfin : (e.posteAvant r' position).finTache temps = true
    · rw [if_pos hfin] at hmoitie
      exact .finie hordre hfin hmoitie.1 hdem (recoitStop_eq_false (by simp [hordre])
        (by simp [hmoitie.2, finAnnoncee, havant, hfin])) hmoitie.2
    · rw [if_neg hfin] at hmoitie
      refine .de_rien hmoitie.1 ?_ (by simp [hordre]) hdem
      rw [hmoitie.2, finAnnoncee, havant, if_neg hfin]
  · simp only [hr, false_and, if_false, List.nil_append] at hann hposte
    exact .de_rien hposte hann (by simp [hordre]) hdem

omit hpos in
/-- An evacuation touches no post. -/
theorem devenir_evacuer {r' : Fin 4} (hordre : e.label.1 = .evacuer r') : Devenir r position e := by
  have hann : e.annoncesDe r position = _ := annoncesDe_eq hc hp
  have hposte : e.posteApres r position = _ := Etape.posteApres_eq hc hp
  rw [hordre] at hann hposte
  refine .de_rien ?_ hann (by simp [hordre]) (demarre_eq_false (by simp [hordre]))
  rw [hposte, actions]
  split_ifs <;> rfl

/-- The addition of a product to a post that shows one stops its task. -/
theorem devenir_ajouterProduit {produit poste : ℤ}
    (hordre : e.label.1 = .ajouterProduit produit poste) : Devenir r position e := by
  have hann : e.annoncesDe r position = _ := annoncesDe_eq hc hp
  have hposte : e.posteApres r position = _ := Etape.posteApres_eq hc hp
  have hdem : e.demarre r position = false := demarre_eq_false (by simp [hordre])
  have ho := hp.1
  rw [hordre] at hann hposte ho
  obtain ⟨r', position', hpos', hcible, hr, hnom⟩ := poste_valide ho
  simp only [actions, annonces, hcible, hr, hnom] at hposte hann
  by_cases hbase : ((vue e.before).pile (table r' position').1).base ≠ 0
  · rw [if_pos hbase] at hposte hann
    change _ = ((vue e.before).apres (.arret r' position')).poste r position at hposte
    rw [poste_arret _ hpos hpos'] at hposte
    by_cases h : r' = r ∧ position' = position
    · obtain ⟨rfl, rfl⟩ := h
      have hstop : e.annoncesDe r' position' = [.stopTache (numero r') position'] := by
        simpa [concerne] using hann
      rw [if_pos ⟨rfl, rfl⟩] at hposte
      refine .arretee hposte hdem ?_ (by simp [hstop])
      rw [Etape.recoitStop, hordre]
      exact decide_eq_true (stopTache_mem_messages.2 (by simp [hstop]))
    · have hautre : concerne r position (.stopTache (numero r') position') = false := by
        rw [concerne]
        by_contra hn
        simp only [Bool.not_eq_false, Bool.and_eq_true, beq_iff_eq] at hn
        exact h ⟨numero_injective hn.1, hn.2⟩
      rw [if_neg h] at hposte
      exact .de_rien hposte (by simpa [hautre] using hann) (by simp [hordre]) hdem
  · rw [if_neg hbase] at hposte hann
    exact .de_rien hposte hann (by simp [hordre]) hdem

/-- A stop for the post, or for another one. -/
theorem devenir_stopTache {r' : Fin 4} {position' : ℤ} (hordre : e.label.1 = .stopTache r' position') :
    Devenir r position e := by
  have hann : e.annoncesDe r position = _ := annoncesDe_eq hc hp
  have hposte : e.posteApres r position = _ := Etape.posteApres_eq hc hp
  have hdem : e.demarre r position = false := demarre_eq_false (by simp [hordre])
  rw [hordre] at hann hposte
  rw [actions] at hposte
  by_cases h : r' = r ∧ position' = position
  · obtain ⟨rfl, rfl⟩ := h
    rw [if_pos hpos, List.foldl_cons, List.foldl_nil, poste_arret _ hpos hpos, if_pos ⟨rfl, rfl⟩]
      at hposte
    refine .arretee hposte hdem ?_ (by simp [hann, annonces])
    rw [Etape.recoitStop, hordre]
    simp
  · refine .de_rien ?_ hann (by simpa [hordre] using h) hdem
    rw [hposte]
    split_ifs with hpos'
    · rw [List.foldl_cons, List.foldl_nil, poste_arret _ hpos hpos', if_neg h]
      rfl
    · rfl

/-- A move interrupts the task of a post that it touches. -/
theorem devenir_deplacerPiece {r' : Fin 4} {msg : DeplacerPieceMsg} {temps : τ} {navettes : List ℤ}
    (hordre : e.label.1 = .deplacerPiece r' msg temps navettes) : Devenir r position e := by
  have hann : e.annoncesDe r position = _ := annoncesDe_eq hc hp
  have hposte : e.posteApres r position = _ := Etape.posteApres_eq hc hp
  have hdem : e.demarre r position = false := demarre_eq_false (by simp [hordre])
  have ho := hp.1
  rw [hordre] at hann hposte ho
  rw [annonces, filter_concerne] at hann
  have htache : TacheManipulee r position (vue e.before) _ _ :=
    tacheManipulee_signaux hpos (gestes_deplacerPiece ho (vue e.before)) (vue e.before)
  rcases htache with ⟨hp, hm⟩ | ⟨ht, hp, hm⟩
  · exact .de_rien (hposte.trans hp) (hann.trans hm) (by simp [hordre]) hdem
  · exact .interrompue ht (hposte.trans hp) hdem
      (recoitStop_eq_false (by simp [hordre]) (by simp [hann, hm])) (hann.trans hm)

/-- **The cases of a step**, for the task of a post. -/
theorem Etape.devenir : Devenir r position e := by
  cases hordre : e.label.1 with
  | faireTache r' msg temps => exact devenir_faireTache hc hp hpos hordre
  | update r' temps => exact devenir_update hc hp hpos hordre
  | evacuer r' => exact devenir_evacuer hc hp hordre
  | ajouterProduit produit poste => exact devenir_ajouterProduit hc hp hpos hordre
  | stopTache r' position' => exact devenir_stopTache hc hp hpos hordre
  | deplacerPiece r' msg temps navettes => exact devenir_deplacerPiece hc hp hpos hordre

end Ordres

end Devenir

/-! ## Recorded runs -/

/-- The cell of a recorded run is equipped, before each of its steps and at the end. -/
theorem equipee_recit {garde : Cellule τ → Ordre τ → Prop} {couleur : String → Pile} {temps₀ : τ}
    {recit : List (Etape τ)} {c : Cellule τ}
    (h : Run (Recorded (Pas garde)) (Cellule.initiale couleur temps₀) recit c) : Equipee c := by
  induction h with
  | nil => exact equipee_initiale couleur temps₀
  | snoc _ hl ih =>
    obtain ⟨rfl, rfl, ho, -, hex⟩ := hl
    exact (executerOrdre_vue ih ho hex).1

/-- Execute orders one after the other and record them. -/
def enregistrer : Cellule τ → List (Ordre τ) → Except Stop (List (Etape τ) × Cellule τ)
  | c, [] => .ok ([], c)
  | c, o :: os =>
    (Cellule.executerOrdre o c).bind fun x =>
      (enregistrer x.2 os).map fun y => (⟨c, (o, x.1), x.2⟩ :: y.1, y.2)

/-- Orders that are recorded prolong a run. -/
theorem run_enregistrer {garde : Cellule τ → Ordre τ → Prop} {os : List (Ordre τ)}
    {c₀ c c' : Cellule τ} {recit suite : List (Etape τ)} (hos : ∀ o ∈ os, o.Valide ∧ ∀ c, garde c o)
    (h : Run (Recorded (Pas garde)) c₀ recit c) (hd : enregistrer c os = .ok (suite, c')) :
    Run (Recorded (Pas garde)) c₀ (recit ++ suite) c' := by
  induction os generalizing c recit suite with
  | nil =>
    cases hd
    rwa [List.append_nil]
  | cons o os ih =>
    rw [enregistrer] at hd
    cases hx : Cellule.executerOrdre o c with
    | error e => simp [hx, Except.bind] at hd
    | ok x =>
      cases hy : enregistrer x.2 os with
      | error e => simp [hx, hy, Except.bind, Except.map] at hd
      | ok y =>
        simp only [hx, hy, Except.bind, Except.map, Except.ok.injEq, Prod.mk.injEq] at hd
        obtain ⟨rfl, rfl⟩ := hd
        have hpas : Recorded (Pas garde) c ⟨c, (o, x.1), x.2⟩ x.2 :=
          ⟨rfl, rfl, (hos o (by simp)).1, (hos o (by simp)).2 c, hx⟩
        have := ih (fun o' ho' => hos o' (by simp [ho'])) (h.snoc hpas) hy
        rwa [List.append_assoc] at this

end Atelier
