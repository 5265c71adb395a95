import Cellule.Atelier.Recit

/-! # The end of a task that is published is true

`colorerPosteFinTask` puts its message together from what is left of the task: the number given to
the post by `init`, its last duration, and the base cube that it reads again on the table. All three
are those of the start of the task, because whatever takes the product away stops the task first.
-/

namespace Atelier

open Reactive Reactive.Prog Robots Robots.Robot
open Vue (table)

variable {τ : Type}

/-! ## The product stays -/

/-- An order that takes the product off the post or puts another one there: a move from the post or
onto it, an addition, an evacuation for post 3. -/
def Deplace (r : Fin 4) (position : ℤ) : Ordre τ → Prop
  | .deplacerPiece r' msg _ _ =>
      r' = r ∧ msg.numRobot = numero r ∧ (msg.positionA = position ∨ msg.positionB = position)
  | .ajouterProduit _ poste =>
      CommandeLocale.computeNumRobotPosteTache poste = some (numero r, position)
  | .evacuer r' => r' = r ∧ numero r = 2 ∧ position = 1
  | _ => False

section Reste

variable {r : Fin 4} {position : ℤ} (hpos : position = 1 ∨ position = 4)

include hpos

/-- A permitted action after which the task of a post runs has not touched the stack of the post. -/
theorem pile_apres {v : Vue τ} {a : Action τ} (ha : ActionPermise v a)
    (ht : ((v.apres a).poste r position).taskEnCours = true) :
    (v.poste r position).taskEnCours = true ∧
      (v.apres a).pile (table r position).1 = v.pile (table r position).1 := by
  -- an action that paints a place where no task runs
  have hpeindre : ∀ {nom : String} {v' : Vue τ} {p : Pile},
      (∀ r position, position = 1 ∨ position = 4 → (table r position).1 = nom →
        (v.poste r position).taskEnCours = false) → v'.poste = v.poste →
      v'.pile = Function.update v.pile nom p → (v'.poste r position).taskEnCours = true →
      (v.poste r position).taskEnCours = true ∧
        v'.pile (table r position).1 = v.pile (table r position).1 := by
    intro nom v' p hlibre hposte hpile ht
    rw [hposte] at ht
    refine ⟨ht, ?_⟩
    rw [hpile, Function.update_of_ne fun h => by simp [hlibre r position hpos h] at ht]
  cases a with
  | debut => exact ha.elim
  | fin r' position' =>
    rw [poste_fin v hpos ha] at ht
    split_ifs at ht with h
    · exact absurd ht Bool.false_ne_true
    · refine ⟨ht, Function.update_of_ne (fun h' => h ?_) ..⟩
      obtain ⟨hr, hp⟩ := table_injective hpos ha h'
      exact ⟨hr.symm, hp.symm⟩
  | arret r' position' => exact ⟨(taskEnCours_setPoste_stop ht).2, rfl⟩
  | prise r' nom => exact hpeindre ha rfl rfl ht
  | pose r' nom => exact hpeindre ha rfl rfl ht
  | chute r' => exact ⟨ht, rfl⟩
  | ajout nom produit => exact hpeindre ha rfl rfl ht
  | evacuation =>
    refine hpeindre (fun r' position' hpos' h => ?_) rfl rfl ht
    have h' : (table r' position').1 = (table 1 1).1 := h
    obtain ⟨rfl, rfl⟩ := table_injective hpos' (.inl rfl) h'
    exact ha

theorem pile_foldl {v : Vue τ} {as : List (Action τ)} (has : ActionsPermises v as)
    (ht : ((as.foldl Vue.apres v).poste r position).taskEnCours = true) :
    (v.poste r position).taskEnCours = true ∧
      (as.foldl Vue.apres v).pile (table r position).1 = v.pile (table r position).1 := by
  induction as generalizing v with
  | nil => exact ⟨ht, rfl⟩
  | cons a as ih =>
    obtain ⟨ht', hpile'⟩ := ih has.2 ht
    obtain ⟨ht₀, hpile₀⟩ := pile_apres hpos has.1 ht'
    exact ⟨ht₀, hpile'.trans hpile₀⟩

/-- A move that touches the post leaves no task running there. -/
theorem arretee_gestes {as : List (Action τ)} (has : ∀ a ∈ as, EstGeste a)
    (ha : Action.arret r position ∈ as) (v : Vue τ) :
    ((as.foldl Vue.apres v).poste r position).taskEnCours = false := by
  obtain ⟨avant, apres, rfl⟩ := List.append_of_mem ha
  rw [List.foldl_append, List.foldl_cons]
  -- the stop leaves no task, and the rest of the move starts none
  have harret : ((avant.foldl Vue.apres v).apres (.arret r position)).poste r position =
      ((avant.foldl Vue.apres v).poste r position).stopTask := by
    rw [poste_arret _ hpos hpos, if_pos ⟨rfl, rfl⟩]
  rcases tacheManipulee_signaux (r := r) hpos (fun a (ha : a ∈ apres) => has a (by simp [ha])) _
    with ⟨hposte, -⟩ | ⟨ht, -, -⟩
  · rw [hposte, harret, Poste.taskEnCours_stopTask]
  · rw [harret, Poste.taskEnCours_stopTask] at ht
    exact absurd ht Bool.false_ne_true

/-- A move from the post or onto it stops its task. -/
theorem arret_mem_actionsColorer (type idNavette : ℤ) :
    Action.arret r position ∈ (actionsColorer r position type idNavette : List (Action τ)) := by
  rw [actionsColorer, if_neg (by omega)]
  simp

variable [Horloge τ]

/-- While a task goes on, its product stays. -/
theorem produit_sur_place {trace : Trace τ} {e : Etape τ} (hs : Suivi trace e.before)
    (hp : Pas EvacuerHorsTache e.before e.label e.after) (hdem : e.demarre r position = false)
    (hposte : e.posteApres r position = e.posteAvant r position)
    (ht : (e.posteApres r position).taskEnCours = true) :
    ¬Deplace r position e.label.1 ∧
      e.after.sim.couleur (table r position).1 = e.before.sim.couleur (table r position).1 := by
  obtain ⟨ho, hg, hex⟩ := hp
  obtain ⟨-, hvue, hres⟩ := executerOrdre_vue hs.equipee ho hex
  have hpile : e.after.sim.couleur (table r position).1 =
      ((actions e.label.1 (vue e.before)).foldl Vue.apres (vue e.before)).pile (table r position).1 := by
    rw [← hvue]
    rfl
  have htache : ((vue e.after).poste r position).taskEnCours = true := ht
  rw [hvue] at htache
  rw [hpile]
  by_cases hfaire : ∃ r' msg temps, e.label.1 = .faireTache r' msg temps
  · obtain ⟨r', msg, temps, hordre⟩ := hfaire
    rw [hordre] at hres ⊢
    rw [demarre_of_debut hordre hres] at hdem
    refine ⟨id, ?_⟩
    rw [actions]
    split_ifs with hd
    -- the cube of a task that starts on another post
    · have hne : (table r position).1 ≠ (table r' msg.position).1 := fun h => by
        obtain ⟨rfl, hcible⟩ := table_injective hpos hd.2.1 h
        simp [hd, hcible] at hdem
      exact Function.update_of_ne hne ..
    · rfl
  · have hpermises := actions_permises hs.visibles ho hg fun r' msg temps hordre =>
      hfaire ⟨r', msg, temps, hordre⟩
    obtain ⟨ht₀, hreste⟩ := pile_foldl hpos hpermises htache
    refine ⟨fun hdep => ?_, hreste⟩
    cases hordre : e.label.1 with
    | deplacerPiece r' msg temps navettes =>
      rw [hordre] at hdep ho htache
      obtain ⟨rfl, hmsg, hplace⟩ := hdep
      have harret : Action.arret r' position ∈
          actions (.deplacerPiece r' msg temps navettes) (vue e.before) := by
        rw [actions, if_pos hmsg.symm]
        rcases hplace with rfl | rfl
        · exact List.mem_append_left _ (arret_mem_actionsColorer hpos _ _)
        · exact List.mem_append_right _ (arret_mem_actionsColorer hpos _ _)
      rw [arretee_gestes hpos (gestes_deplacerPiece ho _) harret] at htache
      exact absurd htache Bool.false_ne_true
    | ajouterProduit produit poste =>
      rw [hordre] at hdep ho htache
      obtain ⟨r', position', -, hcible, hr, hnom⟩ := poste_valide ho
      obtain ⟨hnum, rfl⟩ := Prod.mk.inj (Option.some.inj (hcible.symm.trans hdep))
      obtain rfl := numero_injective hnum
      -- the running task shows a product, so the addition stops it
      obtain ⟨k, -, h1, -, hh, -⟩ := hs.visibles r' position' hpos ht₀
      have hbase : ((vue e.before).pile (table r' position').1).base ≠ 0 := fun hb => by
        have := (Pile.hauteur_eq_zero _).2 hb
        omega
      simp only [actions, hcible, hr, hnom] at htache
      rw [if_pos hbase] at htache
      change (((vue e.before).apres (.arret r' position')).poste r' position').taskEnCours = true
        at htache
      rw [poste_arret _ hpos hpos, if_pos ⟨rfl, rfl⟩] at htache
      exact Bool.false_ne_true htache
    | evacuer r' =>
      rw [hordre] at hdep hg
      obtain ⟨rfl, h2, rfl⟩ := hdep
      have hlibre : ((vue e.before).poste r' 1).taskEnCours = false := hg h2
      rw [hlibre] at ht₀
      exact Bool.false_ne_true ht₀
    | _ =>
      rw [hordre] at hdep
      exact hdep

end Reste

/-! ## What has held since the start of a task -/

/-- A task of the post starts at a time, for a duration, on a product with this base cube. -/
structure Debut (r : Fin 4) (position : ℤ) (temps : τ) (duree base : ℤ) (e : Etape τ) : Prop where
  ordre : e.label.1 = .faireTache r ⟨numero r, position, duree⟩ temps
  demarre : e.demarre r position = true
  produit : (e.before.sim.couleur (table r position).1).base = base
  present : base ≠ 0

/-- The task of the post goes on, and its product stays: no other task starts there, no stop is
delivered, nothing is published about the task, and nothing moves the product. -/
structure Continue (r : Fin 4) (position base : ℤ) (e : Etape τ) : Prop where
  demarre : e.demarre r position = false
  stop : e.recoitStop r position = false
  annonces : e.annoncesDe r position = []
  enCours : (e.posteApres r position).taskEnCours = true
  deplace : ¬Deplace r position e.label.1
  produit : (e.after.sim.couleur (table r position).1).base = base

/-- What the cell remembers of a running task: its time, its duration, and its product on the
table. -/
structure Memoire (r : Fin 4) (position : ℤ) (c : Cellule τ) (x : τ × ℤ × ℤ) : Prop where
  enCours : ((c.robot r).poste position).taskEnCours = true
  temps : ((c.robot r).poste position).tempsDebutTask = x.1
  duree : ((c.robot r).poste position).dureeTask = x.2.1
  produit : (c.sim.couleur (table r position).1).base = x.2.2

variable [Horloge τ]

/-- The tasks stay visible in a recorded run. -/
theorem suivi_recit {couleur : String → Pile} {temps₀ : τ} {recit : List (Etape τ)} {c : Cellule τ}
    (h : Run (Recorded (Pas EvacuerHorsTache)) (Cellule.initiale couleur temps₀) recit c) :
    Suivi (recit.map Transition.label) c :=
  h.labels.invariant (suivi_initiale couleur temps₀) fun _ _ _ _ hs hp => hs.pas hp

/-- A step that leads to a running task starts it or lets it go on. -/
theorem memoire_etape {trace : Trace τ} {e : Etape τ} (hs : Suivi trace e.before)
    (hp : Pas EvacuerHorsTache e.before e.label e.after) {r : Fin 4} {position : ℤ}
    (hpos : position = 1 ∨ position = 4) {x : τ × ℤ × ℤ} (hm : Memoire r position e.after x) :
    Debut r position x.1 x.2.1 x.2.2 e ∨
      Memoire r position e.before x ∧ Continue r position x.2.2 e := by
  have ht : (e.posteApres r position).taskEnCours = true := hm.enCours
  cases Etape.devenir (r := r) hs.equipee hp hpos with
  | @demarree msg temps ordre cible possible poste demarre =>
    obtain ⟨-, hvue, -⟩ := executerOrdre_vue hs.equipee hp.1 hp.2.2
    rw [ordre, actions, if_pos possible, List.foldl_cons, List.foldl_nil] at hvue
    obtain ⟨numRobot, position', duree⟩ := msg
    obtain ⟨rfl, -, h0, h6⟩ := possible
    dsimp only at cible
    subst cible
    have hposte : (e.after.robot r).poste position' =
        ((e.before.robot r).poste position').debutTask temps duree := poste
    have htemps : temps = x.1 := by
      rw [← hm.temps, hposte]
      rfl
    have hduree : duree = x.2.1 := by
      rw [← hm.duree, hposte]
      rfl
    -- the cube of the task is above the base
    have hbase : (e.before.sim.couleur (table r position').1).base = x.2.2 := by
      have hpile : (vue e.after).pile (table r position').1 =
          (e.before.sim.couleur (table r position').1).avecCube
            (e.before.sim.couleur (table r position').1).hauteur ((table r position').2 * 10 + 2) := by
        rw [hvue]
        simp [Vue.apres, Vue.setPoste, Vue.peindre, vue]
      have hlt := lt_of_le_of_ne (e.before.sim.couleur (table r position').1).hauteur_le h6
      rw [← hm.produit, ← Pile.base_avecCube _ hlt (Nat.pos_of_ne_zero h0), ← hpile]
      rfl
    refine .inl ⟨by rw [ordre, htemps, hduree], demarre, hbase, ?_⟩
    rw [← hbase]
    exact (Pile.hauteur_eq_zero _).not.1 h0
  | finie ordre fin poste =>
    rw [poste] at ht
    exact absurd ht Bool.false_ne_true
  | arretee poste =>
    rw [poste] at ht
    exact absurd ht Bool.false_ne_true
  | interrompue enCours poste =>
    rw [poste] at ht
    exact absurd ht Bool.false_ne_true
  | inchangee poste demarre stop annonces =>
    obtain ⟨hdep, hpile⟩ := produit_sur_place hpos hs hp demarre poste ht
    have hposte : (e.after.robot r).poste position = (e.before.robot r).poste position := poste
    refine .inr ⟨⟨?_, ?_, ?_, ?_⟩, demarre, stop, annonces, ht, hdep, hm.produit⟩
    · rw [← hposte, hm.enCours]
    · rw [← hposte, hm.temps]
    · rw [← hposte, hm.duree]
    · rw [← hpile, hm.produit]

/-- **A running task was started as the post remembers it**, and has gone on since. -/
theorem depuis_le_debut {couleur : String → Pile} {temps₀ : τ} {recit : List (Etape τ)}
    {c : Cellule τ}
    (h : Run (Recorded (Pas EvacuerHorsTache)) (Cellule.initiale couleur temps₀) recit c) {r : Fin 4}
    {position : ℤ} (hpos : position = 1 ∨ position = 4) {x : τ × ℤ × ℤ}
    (hm : Memoire r position c x) :
    Since (Debut r position x.1 x.2.1 x.2.2) (Continue r position x.2.2) recit := by
  refine Run.since (R := Memoire r position) (P := fun x => Debut r position x.1 x.2.1 x.2.2)
    (Q := fun x => Continue r position x.2.2) (fun x hx => ?_)
    (fun recit c e c' x hrun hl hx => ?_) h hm
  · exact Bool.false_ne_true ((taskEnCours_init (numero r) position).symm.trans hx.enCours)
  · obtain ⟨rfl, rfl, hp⟩ := hl
    exact memoire_etape (suivi_recit hrun) hp hpos hx

/-! ## The message -/

omit [Horloge τ] in
/-- A move signals no end of a task. -/
theorem tacheFinie_not_mem_signaux {n produit duree : ℤ} (v : Vue τ) (as : List (Action τ)) :
    Message.tacheFinie n produit duree ∉ signaux v as := by
  induction as generalizing v with
  | nil => simp [signaux]
  | cons a as ih =>
    rw [signaux, List.mem_append, not_or]
    refine ⟨?_, ih _⟩
    cases a with
    | arret r position =>
      rw [signal]
      split_ifs <;> simp
    | pose r nom =>
      rw [signal]
      split_ifs <;> simp
    | _ => simp [signal]

/-- Only a tick announces the end of a task. -/
theorem tacheFinie_mem_annonces {n produit duree : ℤ} {o : Ordre τ} {v : Vue τ}
    (h : Message.tacheFinie n produit duree ∈ annonces o v) :
    ∃ r position temps, (position = 1 ∨ position = 4) ∧ o = .update r temps ∧
      Message.tacheFinie n produit duree ∈ finAnnoncee r position temps v := by
  cases o with
  | update r temps =>
    rcases List.mem_append.1 h with h | h
    · exact ⟨r, 1, temps, .inl rfl, rfl, h⟩
    · exact ⟨r, 4, temps, .inr rfl, rfl, h⟩
  | ajouterProduit produit poste =>
    rw [annonces] at h
    split at h
    · split_ifs at h <;> simp at h
    · simp at h
  | deplacerPiece r msg temps navettes =>
    exact absurd (List.mem_filter.1 h).1 (tacheFinie_not_mem_signaux _ _)
  | _ => simp [annonces] at h

omit [Horloge τ] in
theorem numeroPoste_table {c : Cellule τ} (hc : Equipee c) (r : Fin 4) (position : ℤ) :
    ((c.robot r).poste position).numeroPoste = (table r position).2 := by
  rw [((hc.equipe r).poste position).numeroPoste, hc.numRobot, table]

/-- The end of a task on a post tells the number of the post, the last duration and the base of the
product, which the task has not touched. -/
theorem finAnnoncee_eq {trace : Trace τ} {c : Cellule τ} (hs : Suivi trace c) {r : Fin 4}
    {position : ℤ} (hpos : position = 1 ∨ position = 4) {temps : τ}
    (hfin : ((c.robot r).poste position).finTache temps = true) :
    finAnnoncee r position temps (vue c) =
      [.tacheFinie ((c.robot r).poste position).numeroPoste (c.sim.couleur (table r position).1).base
        ((c.robot r).poste position).dureeTask] := by
  obtain ⟨k, -, h1, h5, hh, -⟩ := hs.visibles r position hpos (Poste.taskEnCours_of_finTache hfin)
  have hposte : (vue c).poste r position = (c.robot r).poste position := rfl
  have hpile : ((vue c).apres (.fin r position)).pile (table r position).1 =
      (c.sim.couleur (table r position).1).avecCube (((vue c).pile (table r position).1).hauteur - 1)
        ((table r position).2 * 10 + 3) := by
    simp [Vue.apres, Vue.setPoste, Vue.peindre, vue]
  rw [finAnnoncee, hposte, if_pos hfin, hpile, Pile.base_avecCube _ (by omega) (by omega),
    numeroPoste_table hs.equipee]

/-- The end that a step publishes is true: it comes from a tick of the robot of the post, after the
latest task started there has lasted more than its duration; the step says nothing else about the
post, and since the start that task has gone on, over a product with this base cube. -/
def FinVraie (passe : List (Etape ℚ)) (e : Etape ℚ) (numPoste numProduit duree : ℤ) : Prop :=
  ∃ (r : Fin 4) (position : ℤ) (debut temps : ℚ), (position = 1 ∨ position = 4) ∧
    e.label.1 = .update r temps ∧ numPoste = (e.posteAvant r position).numeroPoste ∧
    e.annoncesDe r position = [.tacheFinie numPoste numProduit duree] ∧ debut + duree < temps ∧
    Since (Debut r position debut duree numProduit) (Continue r position numProduit) passe

/-- **`TacheFinie` tells the truth**, in every run in which nothing is evacuated during a task of
post 3. -/
theorem tacheFinie_vraie {couleur : String → Pile} {temps₀ : ℚ} {recit : List (Etape ℚ)}
    {c : Cellule ℚ}
    (h : Run (Recorded (Pas EvacuerHorsTache)) (Cellule.initiale couleur temps₀) recit c)
    {passe suite : List (Etape ℚ)} {e : Etape ℚ} (he : recit = passe ++ e :: suite)
    {numPoste numProduit duree : ℤ} (hm : .tacheFinie numPoste numProduit duree ∈ e.messages) :
    FinVraie passe e numPoste numProduit duree := by
  subst he
  obtain ⟨hrun, hp⟩ := h.split
  have hs := suivi_recit hrun
  have hann : Message.tacheFinie numPoste numProduit duree ∈ e.messages.filter estAnnonce :=
    List.mem_filter.2 ⟨hm, rfl⟩
  rw [annonces_etape hs.equipee hp] at hann
  obtain ⟨r, position, temps, hpos, hordre, hmem⟩ := tacheFinie_mem_annonces hann
  have hfin : (e.posteAvant r position).finTache temps = true := by
    by_contra hnon
    have hposte : (vue e.before).poste r position = e.posteAvant r position := rfl
    rw [finAnnoncee, hposte, if_neg hnon] at hmem
    exact List.not_mem_nil hmem
  rw [finAnnoncee_eq hs hpos hfin, List.mem_singleton, Message.tacheFinie.injEq] at hmem
  obtain ⟨hnum, rfl, rfl⟩ := hmem
  have hdit : Message.tacheFinie numPoste (e.before.sim.couleur (table r position).1).base
      ((e.before.robot r).poste position).dureeTask ∈ e.annoncesDe r position := by
    refine List.mem_filter.2 ⟨hm, ?_⟩
    rw [concerne, hnum, numeroPoste_table hs.equipee, beq_self_eq_true]
  cases Etape.devenir (r := r) hs.equipee hp hpos with
  | @finie temps' hordre' fin poste demarre stop annonces =>
    obtain rfl : temps' = temps := by
      rw [hordre'] at hordre
      exact (Ordre.update.inj hordre).2
    rw [finAnnoncee_eq hs hpos hfin, ← hnum] at annonces
    have htrop : (e.posteAvant r position).tempsDebutTask + (e.posteAvant r position).dureeTask
        < temps' := by
      rw [Poste.finTache, Bool.and_eq_true] at fin
      exact of_decide_eq_true fin.2
    have hmemoire : Memoire r position e.before ((e.posteAvant r position).tempsDebutTask,
        (e.posteAvant r position).dureeTask, (e.before.sim.couleur (table r position).1).base) :=
      ⟨Poste.taskEnCours_of_finTache hfin, rfl, rfl, rfl⟩
    exact ⟨r, position, (e.posteAvant r position).tempsDebutTask, temps', hpos, hordre', hnum,
      annonces, htrop, depuis_le_debut hrun hpos hmemoire⟩
  | arretee poste demarre stop annonces => exact absurd (annonces _ hdit) (by simp)
  | demarree ordre cible possible poste demarre stop annonces =>
    rw [annonces] at hdit
    exact absurd hdit List.not_mem_nil
  | interrompue enCours poste demarre stop annonces =>
    rw [annonces] at hdit
    simp at hdit
  | inchangee poste demarre stop annonces =>
    rw [annonces] at hdit
    exact absurd hdit List.not_mem_nil

/-- A product is added on post 3, a task of the robot `r` starts, is replaced by a shorter one, and
is over. -/
def tacheFinieSurPoste3 (r : Fin 4) : List (Ordre ℚ) :=
  [.ajouterProduit 2 3, .faireTache r ⟨numero r, 1, 5⟩ 0, .faireTache r ⟨numero r, 1, 2⟩ (1 / 2),
    .update r 3]

/-- The message of the task that is over. -/
theorem tacheFinie_vraie_surPoste3 :
    ∃ (passe : List (Etape ℚ)) (e : Etape ℚ) (c : Cellule ℚ),
      Run (Recorded (Pas EvacuerHorsTache)) (Cellule.initiale (fun _ => Pile.vide) (0 : ℚ))
        (passe ++ [e]) c ∧
      e.messages = [.tacheFinie 3 24 2, .retourCommande 2 8] ∧ FinVraie passe e 3 24 2 := by
  have hmessages : ((enregistrer (Cellule.initiale (fun _ => Pile.vide) 0)
      (tacheFinieSurPoste3 1)).map fun x => x.1.map Etape.messages) =
        .ok [[], [], [], [.tacheFinie 3 24 2, .retourCommande 2 8]] := by decide +kernel
  cases hd : enregistrer (Cellule.initiale (fun _ => Pile.vide) 0) (tacheFinieSurPoste3 1) with
  | error e => simp [hd, Except.map] at hmessages
  | ok x =>
    simp only [hd, Except.map, Except.ok.injEq] at hmessages
    obtain ⟨passe, fin, hx, -, hfin⟩ := List.map_eq_append_iff.1
      (show x.1.map Etape.messages = [[], [], []] ++ [[.tacheFinie 3 24 2, .retourCommande 2 8]] from
        hmessages)
    obtain ⟨e, rfl, he⟩ := List.map_eq_singleton_iff.1 hfin
    have hrun : Run (Recorded (Pas EvacuerHorsTache)) _ ([] ++ x.1) x.2 :=
      run_enregistrer (by simp [tacheFinieSurPoste3, Ordre.Valide, EvacuerHorsTache]) .nil hd
    rw [List.nil_append, hx] at hrun
    exact ⟨passe, e, x.2, hrun, he, tacheFinie_vraie hrun rfl (by rw [he]; exact List.mem_cons_self)⟩

end Atelier
