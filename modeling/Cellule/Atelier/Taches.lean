import Cellule.Atelier.Vue

/-! # The end of a task colours the cube of its start

`colorerPosteFinTask` does not remember where the start of the task put its cube: it scans the stack
again. The two agree as long as whatever touches the stack of a post stops its task first. Every
order does, except an evacuation.
-/

namespace Atelier

open Reactive Reactive.Prog Robots Robots.Robot
open Vue (table)

variable {τ : Type} [Horloge τ]

/-- The orders executed so far with what each brought to light. -/
abbrev Trace (τ : Type) := List (Ordre τ × Resultat)

omit [Horloge τ] in
/-- The slot where the last task started on a post has put its cube. -/
def dernierDebut (trace : Trace τ) (r : Fin 4) (position : ℤ) : Option ℕ :=
  trace.foldl (fun d x =>
    match x with
    | (.faireTache r' msg _, .debut (some k)) =>
        if r' = r ∧ msg.position = position then some k else d
    | _ => d) none

/-- One order executed to completion, when `garde` allows it. -/
def Pas (garde : Cellule τ → Ordre τ → Prop) (c : Cellule τ) (x : Ordre τ × Resultat)
    (c' : Cellule τ) : Prop :=
  x.1.Valide ∧ garde c x.1 ∧ Cellule.executerOrdre x.1 c = .ok (x.2, c')

/-- No evacuation while the task of post 3 is running. -/
def EvacuerHorsTache (c : Cellule τ) : Ordre τ → Prop
  | .evacuer r => numero r = 2 → (c.robot r).postePos1.taskEnCours = false
  | _ => True

omit [Horloge τ] in
/-- A stack shows the transparent cube of a task of post `numero`, at the slot recorded at its
start, with nothing above. -/
def TacheVisible (p : Pile) (numero : ℤ) (debut : Option ℕ) : Prop :=
  ∃ k, debut = some k ∧ 1 ≤ k ∧ k < nbCube ∧ p.hauteur = k + 1 ∧ p.cube k = numero * 10 + 2

/-- Every running task shows its transparent cube. -/
def TachesVisibles (v : Vue τ) (debut : Fin 4 → ℤ → Option ℕ) : Prop :=
  ∀ r position, position = 1 ∨ position = 4 → (v.poste r position).taskEnCours = true →
    TacheVisible (v.pile (table r position).1) (table r position).2 (debut r position)

/-! ## Actions that keep the running tasks visible -/

/-- An action that touches the stack of a post comes when no task runs there. -/
def ActionPermise (v : Vue τ) : Action τ → Prop
  | .debut _ _ _ _ => False
  | .prise _ nom | .pose _ nom | .ajout nom _ => ∀ r position, position = 1 ∨ position = 4 →
      (table r position).1 = nom → (v.poste r position).taskEnCours = false
  | .evacuation => (v.poste 1 1).taskEnCours = false
  | .fin _ position => position = 1 ∨ position = 4
  | .arret _ _ | .chute _ => True

/-- A list of actions, each permitted when its turn comes. -/
def ActionsPermises (v : Vue τ) : List (Action τ) → Prop
  | [] => True
  | a :: as => ActionPermise v a ∧ ActionsPermises (v.apres a) as

omit [Horloge τ] in
theorem ActionsPermises.append {v : Vue τ} {as bs : List (Action τ)} (ha : ActionsPermises v as)
    (hb : ActionsPermises (as.foldl Vue.apres v) bs) : ActionsPermises v (as ++ bs) := by
  induction as generalizing v with
  | nil => exact hb
  | cons a as ih => exact ⟨ha.1, ih ha.2 hb⟩

omit [Horloge τ] in
/-- Painting a place keeps the tasks visible when no task runs there. -/
private theorem TachesVisibles.peindre {v v' : Vue τ} {debut : Fin 4 → ℤ → Option ℕ} {nom : String}
    {p : Pile} (hv : TachesVisibles v debut) (hpile : v'.pile = Function.update v.pile nom p)
    (hposte : v'.poste = v.poste)
    (hlibre : ∀ r position, position = 1 ∨ position = 4 → (table r position).1 = nom →
      (v.poste r position).taskEnCours = false) : TachesVisibles v' debut := by
  intro r position hpos ht
  rw [hposte] at ht
  rw [hpile, Function.update_of_ne fun h => by simp [hlibre r position hpos h] at ht]
  exact hv r position hpos ht

omit [Horloge τ] in
/-- What runs after a post was stopped was running before, on another post. -/
theorem taskEnCours_setPoste_stop {v : Vue τ} {r r' : Fin 4} {position position' : ℤ}
    (h : ((v.setPoste r position (v.poste r position).stopTask).poste r' position').taskEnCours
      = true) :
    ¬(r' = r ∧ (position = 1 ↔ position' = 1)) ∧ (v.poste r' position').taskEnCours = true := by
  by_cases hr : r' = r
  · subst hr
    by_cases hp : position = 1 ↔ position' = 1
    · simp [Vue.setPoste, hp] at h
    · simpa [Vue.setPoste, hp] using h
  · simpa [Vue.setPoste, hr] using h

omit [Horloge τ] in
/-- A permitted action keeps every running task visible. -/
theorem TachesVisibles.apres {v : Vue τ} {debut : Fin 4 → ℤ → Option ℕ} {a : Action τ}
    (hv : TachesVisibles v debut) (ha : ActionPermise v a) : TachesVisibles (v.apres a) debut := by
  cases a with
  | debut => exact ha.elim
  | fin r position =>
    intro r' position' hpos' ht
    obtain ⟨hautre, ht'⟩ := taskEnCours_setPoste_stop
      (v := v.peindre (table r position).1 _) ht
    -- the task that ends is on another table
    have hne : (table r' position').1 ≠ (table r position).1 := fun h => by
      obtain ⟨rfl, rfl⟩ := table_injective hpos' ha h
      exact hautre ⟨rfl, Iff.rfl⟩
    simpa [Vue.apres, Vue.peindre, Vue.setPoste, hne] using hv r' position' hpos' ht'
  | arret r position =>
    intro r' position' hpos' ht
    exact hv r' position' hpos' (taskEnCours_setPoste_stop ht).2
  | prise r nom => exact hv.peindre rfl rfl ha
  | pose r nom => exact hv.peindre rfl rfl ha
  | chute r => exact hv
  | ajout nom produit => exact hv.peindre rfl rfl ha
  | evacuation =>
    -- an evacuation clears the table of position 1 of robot 2 only
    refine hv.peindre rfl rfl fun r position hpos h => ?_
    have h' : (table r position).1 = (table 1 1).1 := h
    obtain ⟨rfl, rfl⟩ := table_injective hpos (Or.inl rfl) h'
    exact ha

omit [Horloge τ] in
theorem TachesVisibles.foldl {v : Vue τ} {debut : Fin 4 → ℤ → Option ℕ} {as : List (Action τ)}
    (hv : TachesVisibles v debut) (ha : ActionsPermises v as) :
    TachesVisibles (as.foldl Vue.apres v) debut := by
  induction as generalizing v with
  | nil => exact hv
  | cons a as ih => exact ih (hv.apres ha.1) ha.2

omit [Horloge τ] in
/-- Shuttles are not tables. -/
theorem table_ne_nomNavette (r : Fin 4) {position : ℤ} (hpos : position = 1 ∨ position = 4)
    (idNavette : ℤ) : (table r position).1 ≠ nomNavette idNavette := by
  have key : ∀ r : Fin 4, ∀ position ∈ ([1, 4] : List ℤ),
      (table r position).1.toList.head? = some 'T' := by decide
  intro h
  have hT := key r position (by simpa using hpos)
  rw [h, nomNavette] at hT
  simp at hT

omit [Horloge τ] in
/-- `Colorer` stops the task of the post it touches before it writes there. -/
theorem actionsColorer_permises (v : Vue τ) (r : Fin 4) {position type idNavette : ℤ}
    (hpos : position ∈ [1, 2, 3, 4]) :
    ActionsPermises v (actionsColorer r position type idNavette) := by
  have hgeste : ∀ (v : Vue τ) nom, (∀ r position, position = 1 ∨ position = 4 →
      (table r position).1 = nom → (v.poste r position).taskEnCours = false) →
      ActionPermise v (geste r type nom) := by
    intro v nom h
    rw [geste]
    split
    · exact h
    · exact h
  rw [actionsColorer]
  split_ifs with h23 h66
  · exact ⟨trivial, trivial⟩
  · exact ⟨hgeste v _ fun r' position' hpos' h =>
      absurd h (table_ne_nomNavette r' hpos' idNavette), trivial⟩
  · have h14 : position = 1 ∨ position = 4 := by simp at hpos; omega
    refine ⟨trivial, hgeste _ _ fun r' position' hpos' h => ?_, trivial⟩
    obtain ⟨rfl, rfl⟩ := table_injective hpos' h14 h
    simp [Vue.apres, Vue.setPoste]

/-- Every order but the start of a task is made of permitted actions, as long as nothing is
evacuated during a task. -/
theorem actions_permises {c : Cellule τ} {o : Ordre τ} {debut : Fin 4 → ℤ → Option ℕ}
    (hv : TachesVisibles (vue c) debut) (ho : o.Valide) (hg : EvacuerHorsTache c o)
    (hdebut : ∀ r msg t, o ≠ .faireTache r msg t) : ActionsPermises (vue c) (actions o (vue c)) := by
  cases o with
  | faireTache r msg t => exact absurd rfl (hdebut r msg t)
  | update r t =>
    rw [actions]
    refine ActionsPermises.append ?_ ?_
    · split_ifs
      · exact ⟨Or.inl rfl, trivial⟩
      · trivial
    · split_ifs
      all_goals first | exact ⟨Or.inr rfl, trivial⟩ | trivial
  | evacuer r =>
    rw [actions]
    split_ifs with h2
    · have hr : r = 1 := by
        have h : ∀ r : Fin 4, numero r = 2 → r = 1 := by decide
        exact h r h2
      subst hr
      exact ⟨hg h2, trivial⟩
    · trivial
  | ajouterProduit produit poste =>
    obtain ⟨r, position, hpos, hcible, hr, hnom⟩ := poste_valide ho
    simp only [actions, hcible, hr, hnom]
    by_cases hbase : ((vue c).pile (table r position).1).base ≠ 0
    · rw [if_pos hbase]
      -- the task of the post is stopped first
      refine ⟨trivial, fun r' position' hpos' h => ?_, trivial⟩
      obtain ⟨rfl, rfl⟩ := table_injective hpos' hpos h
      simp [Vue.apres, Vue.setPoste]
    -- A running task would show a product below its cube.
    · rw [if_neg hbase]
      refine ⟨fun r' position' hpos' h => ?_, trivial⟩
      obtain ⟨rfl, rfl⟩ := table_injective hpos' hpos h
      by_contra ht
      obtain ⟨k, -, -, -, hh, -⟩ := hv r' position' hpos' (eq_true_of_ne_false ht)
      exact hbase ((Pile.hauteur_eq_zero _).not.1 (by omega))
  | stopTache r position =>
    rw [actions]
    split_ifs
    · exact ⟨trivial, trivial⟩
    · trivial
  | deplacerPiece r msg t navettes =>
    rw [actions]
    split_ifs
    · exact (actionsColorer_permises _ r ho.1).append (actionsColorer_permises _ r ho.2)
    · trivial

/-! ## Runs -/

omit [Horloge τ] in
/-- A task that starts becomes visible. -/
theorem TachesVisibles.debut {v : Vue τ} {debut : Fin 4 → ℤ → Option ℕ}
    (hv : TachesVisibles v debut) {r : Fin 4} {msg : FaireTacheMsg} (hd : DebutPossible v r msg)
    (temps : τ) :
    TachesVisibles (v.apres (.debut r msg.position temps msg.duree)) fun r' position =>
      if r = r' ∧ msg.position = position then some (hauteurPoste v r msg.position)
      else debut r' position := by
  obtain ⟨-, hpos, h0, h6⟩ := hd
  intro r' position hpos' ht
  have hle := (v.pile (table r msg.position).1).hauteur_le
  have hlt : hauteurPoste v r msg.position < nbCube := lt_of_le_of_ne hle h6
  by_cases h : r = r' ∧ msg.position = position
  · obtain ⟨rfl, rfl⟩ := h
    have hnum : 0 < (table r msg.position).2 := tableDe_pos (by
      have hn : ∀ r : Fin 4, numero r ∈ ([1, 2, 3, 4] : List ℤ) := by decide
      exact hn r) _
    refine ⟨hauteurPoste v r msg.position, by simp, Nat.pos_of_ne_zero h0, hlt, ?_, ?_⟩
    · simp only [Vue.apres, Vue.setPoste, Vue.peindre, Function.update_self]
      exact Pile.hauteur_avecCube hlt (le_refl _) (by omega)
    · simp only [Vue.apres, Vue.setPoste, Vue.peindre, Function.update_self]
      exact (Pile.cube_avecCube _ hlt _ _).trans (by simp [hauteurPoste])
  -- the tasks that ran are on other tables
  · have hne : (table r' position).1 ≠ (table r msg.position).1 := fun h' => by
      obtain ⟨rfl, rfl⟩ := table_injective hpos' hpos h'
      exact h ⟨rfl, rfl⟩
    have ht' : (v.poste r' position).taskEnCours = true := by
      by_cases hr : r' = r
      · subst hr
        have hp : ¬(msg.position = 1 ↔ position = 1) := by
          have : msg.position ≠ position := fun h' => h ⟨rfl, h'⟩
          omega
        simpa [Vue.apres, Vue.setPoste, Vue.peindre, hp] using ht
      · simpa [Vue.apres, Vue.setPoste, Vue.peindre, hr] using ht
    simpa [Vue.apres, Vue.setPoste, Vue.peindre, hne, h] using hv r' position hpos' ht'

/-- What every run without evacuation during a task keeps. -/
structure Suivi (trace : Trace τ) (c : Cellule τ) : Prop where
  equipee : Equipee c
  visibles : TachesVisibles (vue c) (dernierDebut trace)

/-- One more order on the recorded starts. -/
theorem dernierDebut_snoc (trace : Trace τ) (v : Vue τ) (o : Ordre τ) :
    dernierDebut (trace ++ [(o, resultat o v)]) = fun r position =>
      match o with
      | .faireTache r' msg _ =>
          if DebutPossible v r' msg ∧ r' = r ∧ msg.position = position
          then some (hauteurPoste v r' msg.position) else dernierDebut trace r position
      | _ => dernierDebut trace r position := by
  funext r position
  rw [dernierDebut, List.foldl_append]
  cases o with
  | faireTache r' msg t =>
    by_cases hd : DebutPossible v r' msg
    · simp [resultat, hd, dernierDebut]
    · simp [resultat, hd, dernierDebut]
  | _ => rfl

/-- One order keeps the tasks visible. -/
theorem Suivi.pas {trace : Trace τ} {c c' : Cellule τ} {x : Ordre τ × Resultat}
    (h : Suivi trace c) (hp : Pas EvacuerHorsTache c x c') : Suivi (trace ++ [x]) c' := by
  obtain ⟨o, res⟩ := x
  obtain ⟨ho, hg, hex⟩ := hp
  obtain ⟨hc', hvue, hres⟩ := executerOrdre_vue h.equipee ho hex
  dsimp only at hres hvue
  subst hres
  refine ⟨hc', ?_⟩
  rw [hvue, dernierDebut_snoc]
  -- only the start of a task changes what the last starts are
  by_cases hdebut : ∃ r msg t, o = .faireTache r msg t
  · obtain ⟨r, msg, t, rfl⟩ := hdebut
    rw [actions]
    by_cases hd : DebutPossible (vue c) r msg
    · rw [if_pos hd]
      simp only [hd, true_and]
      exact h.visibles.debut hd t
    · rw [if_neg hd]
      simp only [hd, false_and, if_false]
      exact h.visibles
  · have hne : ∀ r msg t, o ≠ .faireTache r msg t := fun r msg t ho => hdebut ⟨r, msg, t, ho⟩
    have hfold := h.visibles.foldl (actions_permises h.visibles ho hg hne)
    cases o with
    | faireTache r msg t => exact absurd rfl (hne r msg t)
    | _ => exact hfold

/-- The nodes of an initialised cell are set up. -/
theorem equipee_initiale (couleur : String → Pile) (temps : τ) :
    Equipee (Cellule.initiale couleur temps) := by
  have hnum : ∀ r : Fin 4, numero r ∈ ([1, 2, 3, 4] : List ℤ) := by decide
  refine ⟨fun r => ⟨hnum r, fun position => ?_⟩, fun _ => rfl, rfl⟩
  have hinit : ∀ n : ℤ, ((Robot.init n : Robot τ).poste position)
      = Poste.init (tableDe n position).1 (tableDe n position).2 := by
    intro n
    by_cases h1 : position = 1 <;> simp [poste, tableDe, h1, Robot.init]
  change PosteInstalle ((Robot.init (numero r) : Robot τ).poste position) _
  rw [hinit]
  exact ⟨rfl, rfl, rfl⟩

/-- No task runs on a robot that is initialised. -/
theorem taskEnCours_init (n position : ℤ) :
    ((Robot.init n : Robot τ).poste position).taskEnCours = false := by
  rw [poste]
  split <;> rfl

/-- No task runs in an initialised cell. -/
theorem suivi_initiale (couleur : String → Pile) (temps : τ) :
    Suivi [] (Cellule.initiale couleur temps) := by
  refine ⟨equipee_initiale couleur temps, fun r position _ ht => ?_⟩
  exact absurd ht (by simp [vue, Cellule.initiale, taskEnCours_init])

/-! ## The end of a task -/

/-- What a tick finds on a post: nothing to finish, or a finished task whose cube, the one its start
has recorded, turns from transparent to opaque. -/
def FinJuste (debut : Option ℕ) (p : Poste τ) (table : String × ℤ) (temps : τ) :
    Option ℕ → Option Ecriture → Prop
  | none, none => p.finTache temps = false
  | some indice, some e =>
      p.finTache temps = true ∧ debut = some indice ∧ 1 ≤ indice ∧ indice ≤ nbCube - 1 ∧
        e.nom = table.1 ∧ e.avant.cube indice = table.2 * 10 + 2 ∧
        e.apres.cube indice = table.2 * 10 + 3
  | _, _ => False

/-- One half of a tick, on a post whose running task is visible. -/
theorem executer_updatePoste_juste {r : Fin 4} {s : Robot τ} {w : Simulateur τ} (hs : Equipe s)
    (hnum : s.numRobot = numero r) {position : ℤ} {debut : Option ℕ}
    (hv : (s.poste position).taskEnCours = true →
      TacheVisible (w.couleur (table r position).1) (table r position).2 debut) (temps : τ) :
    ∃ i s' w' e, executer (updatePoste position temps) s w = .ok (i, s', w') ∧
      w'.ecritures = w.ecritures ++ e.toList ∧
      FinJuste debut (s.poste position) (table r position) temps i e := by
  rw [executer_updatePoste hs]
  dsimp only
  rw [hnum]
  by_cases hfin : (s.poste position).finTache temps = true
  -- the highest cube is the one that the task has put there
  · obtain ⟨k, hdebut, h1, h5, hh, hcube⟩ := hv (Poste.taskEnCours_of_finTache hfin)
    rw [if_neg (by simp [hfin]), if_neg (by rw [table] at hh; omega)]
    refine ⟨_, _, _, some _, rfl, rfl, hfin, ?_, ?_, ?_, rfl, ?_, ?_⟩
    all_goals rw [table] at hh
    · rw [hh, hdebut]
      rfl
    · omega
    · omega
    · rw [hh]
      exact hcube
    · rw [hh, Pile.cube_avecCube _ (by omega)]
      simp [table]
  · rw [if_pos (by simpa using hfin)]
    exact ⟨none, s, w, none, rfl, by simp, by simpa [FinJuste] using hfin⟩

/-- Every tick that may come next completes, and each task it finds finished colours the cube that
the last task started on that post has placed. -/
def TicksJustes (trace : Trace τ) (c : Cellule τ) : Prop :=
  ∀ (r : Fin 4) (temps : τ), ∃ i₁ i₄ c' e₁ e₄,
    Cellule.executerOrdre (.update r temps) c = .ok (.fins i₁ i₄, c') ∧
      c'.sim.ecritures = c.sim.ecritures ++ (e₁.toList ++ e₄.toList) ∧
      FinJuste (dernierDebut trace r 1) ((c.robot r).poste 1) (table r 1) temps i₁ e₁ ∧
      FinJuste (dernierDebut trace r 4) ((c.robot r).poste 4) (table r 4) temps i₄ e₄

/-- **A finished task colours its own cube**, after every run in which nothing is evacuated during a
task of post 3. -/
theorem update_colore_son_cube {couleur : String → Pile} {temps₀ : τ} {trace : Trace τ}
    {c : Cellule τ} (h : Run (Pas EvacuerHorsTache) (Cellule.initiale couleur temps₀) trace c) :
    TicksJustes trace c := by
  intro r temps
  have hsuivi : Suivi trace c :=
    h.invariant (suivi_initiale couleur temps₀) fun _ _ _ _ hs hp => hs.pas hp
  have hs := hsuivi.equipee.equipe r
  have hnum := hsuivi.equipee.numRobot r
  obtain ⟨i₁, s₁, w₁, e₁, hex₁, he₁, hf₁⟩ := executer_updatePoste_juste (w := (c.aTemps temps).sim)
    hs hnum (hsuivi.visibles r 1 (Or.inl rfl)) temps
  obtain ⟨heff, -⟩ := Effet.updatePoste (r := r) hs hnum hex₁
  -- the first half of the tick leaves the other post as it was
  obtain ⟨hposte, hpile⟩ := Effet.updatePoste_autre heff
  have hv₄ : (s₁.poste 4).taskEnCours = true →
      TacheVisible (w₁.couleur (table r 4).1) (table r 4).2 (dernierDebut trace r 4) := by
    rw [hposte, hpile]
    exact hsuivi.visibles r 4 (Or.inr rfl)
  obtain ⟨i₄, s₄, w₄, e₄, hex₄, he₄, hf₄⟩ := executer_updatePoste_juste heff.equipe
    (heff.numRobot.trans hnum) hv₄ temps
  rw [hposte] at hf₄
  refine ⟨i₁, i₄, (c.aTemps temps).avec r s₄ w₄, e₁, e₄, ?_, ?_, hf₁, hf₄⟩
  · have hup : executer Robot.update ((c.aTemps temps).robot r) (c.aTemps temps).sim
        = .ok ((i₁, i₄), s₄, w₄) := executer_update_of_ok hex₁ hex₄
    rw [Cellule.executerOrdre, Cellule.surRobot, hup]
    rfl
  · change w₄.ecritures = c.sim.ecritures ++ (e₁.toList ++ e₄.toList)
    rw [he₄, he₁, List.append_assoc]
    rfl

/-! ## Without the condition

`Evacuer` clears post 3 and leaves its task running; the next product arrives on an empty table, so
no stop is sent for it, and the task of the product that has left is finished on the new one.
-/

/-- The orders one after the other, with what each brought to light. -/
def derouler : Cellule τ → List (Ordre τ) → Except Stop (Trace τ × Cellule τ)
  | c, [] => .ok ([], c)
  | c, o :: os =>
    (Cellule.executerOrdre o c).bind fun x =>
      (derouler x.2 os).map fun y => ((o, x.1) :: y.1, y.2)

/-- Executing orders one after the other prolongs a run. -/
theorem run_derouler {garde : Cellule τ → Ordre τ → Prop} {os : List (Ordre τ)}
    {c₀ c c' : Cellule τ} {trace suite : Trace τ} (hos : ∀ o ∈ os, o.Valide ∧ ∀ c, garde c o)
    (h : Run (Pas garde) c₀ trace c) (hd : derouler c os = .ok (suite, c')) :
    Run (Pas garde) c₀ (trace ++ suite) c' := by
  induction os generalizing c trace suite with
  | nil =>
    cases hd
    rwa [List.append_nil]
  | cons o os ih =>
    rw [derouler] at hd
    cases hx : Cellule.executerOrdre o c with
    | error e => simp [hx, Except.bind] at hd
    | ok x =>
      cases hy : derouler x.2 os with
      | error e => simp [hx, hy, Except.bind, Except.map] at hd
      | ok y =>
        simp only [hx, hy, Except.bind, Except.map, Except.ok.injEq, Prod.mk.injEq] at hd
        obtain ⟨rfl, rfl⟩ := hd
        have hpas : Pas garde c (o, x.1) x.2 :=
          ⟨(hos o (by simp)).1, (hos o (by simp)).2 c, hx⟩
        have := ih (fun o' ho' => hos o' (by simp [ho'])) (h.snoc hpas) hy
        rwa [List.append_assoc] at this

/-- The cell with nothing on its tables, and a clock in whole seconds. -/
def celluleVide : Cellule ℤ := Cellule.initiale (fun _ => Pile.vide) 0

/-- A product is added on post 3 and its task starts. -/
def tacheSurPoste3 : List (Ordre ℤ) := [.ajouterProduit 2 3, .faireTache 1 ⟨2, 1, 5⟩ 0]

/-- Then it is evacuated, and another product arrives. -/
def evacuationPendantTache : List (Ordre ℤ) :=
  tacheSurPoste3 ++ [.evacuer 1, .ajouterProduit 6 3]

/-- The condition is met by a run that starts a task. -/
theorem update_colore_son_cube_tacheSurPoste3 :
    ∃ trace c, Run (Pas EvacuerHorsTache) celluleVide trace c ∧
      trace.map Prod.snd = [.rien, .debut (some 1)] ∧ TicksJustes trace c := by
  have hres : ((derouler celluleVide tacheSurPoste3).map fun x => x.1.map Prod.snd)
      = .ok [.rien, .debut (some 1)] := by decide +kernel
  cases hd : derouler celluleVide tacheSurPoste3 with
  | error e => simp [hd, Except.map] at hres
  | ok x =>
    simp only [hd, Except.map, Except.ok.injEq] at hres
    have hrun : Run (Pas EvacuerHorsTache) celluleVide x.1 x.2 :=
      run_derouler (by simp [tacheSurPoste3, Ordre.Valide, EvacuerHorsTache]) .nil hd
    exact ⟨x.1, x.2, hrun, hres, update_colore_son_cube hrun⟩

/-- **An evacuation during a task makes a later task end on the base of another product.** -/
theorem update_colore_une_base :
    ∃ trace c, Run (Pas fun _ _ => True) celluleVide trace c ∧ ¬TicksJustes trace c := by
  have hres : ((derouler celluleVide evacuationPendantTache).bind fun x =>
      (Cellule.executerOrdre (.update 1 10) x.2).map Prod.fst) = .ok (.fins (some 0) none) := by
    decide +kernel
  cases hd : derouler celluleVide evacuationPendantTache with
  | error e => simp [hd, Except.bind] at hres
  | ok x =>
    rw [hd] at hres
    refine ⟨x.1, x.2, run_derouler
      (by simp [evacuationPendantTache, tacheSurPoste3, Ordre.Valide]) .nil hd, fun h => ?_⟩
    obtain ⟨i₁, i₄, c', e₁, e₄, hex, -, hf, -⟩ := h 1 10
    simp only [Except.bind, hex, Except.map, Except.ok.injEq, Resultat.fins.injEq] at hres
    obtain ⟨rfl, rfl⟩ := hres
    cases e₁ with
    | none => exact hf
    | some e => exact absurd hf.2.2.1 (by decide)

end Atelier
