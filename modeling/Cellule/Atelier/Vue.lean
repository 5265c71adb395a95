import Cellule.Atelier.Cellule

/-! # What the orders do to the products

The stacks, the grippers, the posts, and two counts of the journal, are all that decides what
becomes of the products and of the tasks. An order acts on them by a list of elementary actions, and
`executerOrdre_vue` says which.
-/

namespace Atelier

open Reactive Reactive.Prog Robots Robots.Robot

variable {τ : Type}

/-- The stacks, the grippers, the posts of each robot by position, the evacuated stacks and the
number of overwritten products reported. -/
@[ext] structure Vue (τ : Type) where
  pile : String → Pile
  pince : Fin 4 → Pile
  poste : Fin 4 → ℤ → Poste τ
  evacues : List (List ℤ)
  ecrasements : ℕ

/-- The elementary actions. -/
inductive Action (τ : Type)
  /-- A task starts: a transparent cube appears on top of the stack of the post. -/
  | debut (r : Fin 4) (position : ℤ) (temps : τ) (duree : ℤ)
  /-- A task ends: the highest cube takes the colour of the post. -/
  | fin (r : Fin 4) (position : ℤ)
  /-- A task is stopped. -/
  | arret (r : Fin 4) (position : ℤ)
  /-- The gripper and the place exchange their stacks. -/
  | prise (r : Fin 4) (nom : String)
  /-- The gripper puts its stack on the place. -/
  | pose (r : Fin 4) (nom : String)
  /-- The gripper loses its stack. -/
  | chute (r : Fin 4)
  /-- A fresh product is put on a table. -/
  | ajout (nom : String) (produit : ℤ)
  /-- The stack of post 3 leaves the cell. -/
  | evacuation

namespace Vue

/-- Replace the post at a position of a robot. -/
def setPoste (v : Vue τ) (r : Fin 4) (position : ℤ) (p : Poste τ) : Vue τ :=
  { v with poste := Function.update v.poste r fun autre =>
      if (position = 1 ↔ autre = 1) then p else v.poste r autre }

/-- Give a place its colours. -/
def peindre (v : Vue τ) (nom : String) (p : Pile) : Vue τ :=
  { v with pile := Function.update v.pile nom p }

/-- Change the stack in a gripper. -/
def tenir (v : Vue τ) (r : Fin 4) (p : Pile) : Vue τ :=
  { v with pince := Function.update v.pince r p }

/-- Report an overwritten product. -/
def ecraser (v : Vue τ) (oui : Prop) [Decidable oui] : Vue τ :=
  { v with ecrasements := v.ecrasements + if oui then 1 else 0 }

/-- The table and the number of a post. -/
def table (r : Fin 4) (position : ℤ) : String × ℤ := tableDe (numero r) position

/-- The effect of an action. -/
def apres (v : Vue τ) : Action τ → Vue τ
  | .debut r position temps duree =>
      let p := v.pile (table r position).1
      (v.peindre (table r position).1 (p.avecCube p.hauteur ((table r position).2 * 10 + 2))).setPoste
        r position ((v.poste r position).debutTask temps duree)
  | .fin r position =>
      let p := v.pile (table r position).1
      (v.peindre (table r position).1
        (p.avecCube (p.hauteur - 1) ((table r position).2 * 10 + 3))).setPoste
        r position (v.poste r position).stopTask
  | .arret r position => v.setPoste r position (v.poste r position).stopTask
  | .prise r nom => (v.peindre nom (v.pince r)).tenir r (v.pile nom)
  | .pose r nom =>
      ((v.peindre nom (v.pince r)).tenir r Pile.vide).ecraser (v.pile nom ≠ Pile.vide)
  | .chute r => v.tenir r Pile.vide
  | .ajout nom produit =>
      (v.peindre nom (Pile.ofList (CommandeLocale.pileProduit produit))).ecraser
        ((v.pile nom).base ≠ 0)
  | .evacuation =>
      { v.peindre (tableDe 2 1).1 Pile.vide with
        evacues := v.evacues ++ [(v.pile (tableDe 2 1).1).toList] }

end Vue

/-- Posts at different places have different tables. -/
theorem table_injective {r r' : Fin 4} {position position' : ℤ} (hpos : position = 1 ∨ position = 4)
    (hpos' : position' = 1 ∨ position' = 4)
    (h : (Vue.table r position).1 = (Vue.table r' position').1) :
    r = r' ∧ position = position' := by
  have key : ∀ r r' : Fin 4, ∀ position ∈ ([1, 4] : List ℤ), ∀ position' ∈ ([1, 4] : List ℤ),
      (Vue.table r position).1 = (Vue.table r' position').1 → r = r' ∧ position = position' := by
    decide
  exact key r r' position (by simpa using hpos) position' (by simpa using hpos') h

/-! ## The actions of an order -/

open Vue (table)

/-- A pick for `type` 0, a placement for `type` 1. -/
def geste (r : Fin 4) (type : ℤ) (nom : String) : Action τ :=
  if type = 0 then .prise r nom else .pose r nom

/-- The actions of `Colorer` at a position of the track or at a post. -/
def actionsColorer (r : Fin 4) (position type idNavette : ℤ) : List (Action τ) :=
  if position = 2 ∨ position = 3 then
    if idNavette = 66 then [.chute r] else [geste r type (nomNavette idNavette)]
  else [.arret r position, geste r type (table r position).1]

/-- The answers of the shuttle manager left after `Colorer` at a position. -/
def navettesApres (position : ℤ) (navettes : List ℤ) : List ℤ :=
  if position = 2 ∨ position = 3 then navettes.tail else navettes

/-- The height of the stack of a post. -/
def hauteurPoste (v : Vue τ) (r : Fin 4) (position : ℤ) : ℕ := (v.pile (table r position).1).hauteur

/-- A message is about a task of robot `r` that can start. -/
def DebutPossible (v : Vue τ) (r : Fin 4) (msg : FaireTacheMsg) : Prop :=
  msg.numRobot = numero r ∧ (msg.position = 1 ∨ msg.position = 4) ∧
    hauteurPoste v r msg.position ≠ 0 ∧ hauteurPoste v r msg.position ≠ nbCube

instance (v : Vue τ) (r : Fin 4) (msg : FaireTacheMsg) : Decidable (DebutPossible v r msg) := by
  unfold DebutPossible
  infer_instance

/-! ## The view of a cell -/

/-- The evacuated stacks in a journal. -/
def evacuesDe (journal : List Message) : List (List ℤ) :=
  journal.filterMap fun
    | .produitEvac l => some l
    | _ => none

/-- The number of overwritten products reported in a journal. -/
def ecrasementsDe (journal : List Message) : ℕ :=
  journal.countP fun
    | .erreurLog code _ => code == 66
    | _ => false

/-- What the cell shows. -/
def vue (c : Cellule τ) : Vue τ where
  pile := c.sim.couleur
  pince r := (c.robot r).couleurTransportee
  poste r := (c.robot r).poste
  evacues := evacuesDe c.sim.journal
  ecrasements := ecrasementsDe c.sim.journal

/-- A robot that keeps its attributes. -/
theorem avec_self (c : Cellule τ) (r : Fin 4) (w : Simulateur τ) :
    c.avec r (c.robot r) w = { c with sim := w } := by
  rw [Cellule.avec, Function.update_eq_self]

section VueAvec

variable (c : Cellule τ) (r : Fin 4) (s : Robot τ) (w : Simulateur τ)

@[simp] theorem vue_avec_pile : (vue (c.avec r s w)).pile = w.couleur := rfl

@[simp] theorem vue_avec_pince : (vue (c.avec r s w)).pince
    = Function.update (vue c).pince r s.couleurTransportee := by
  funext r'
  by_cases h : r' = r
  · subst h
    simp [vue, Cellule.avec]
  · simp [vue, Cellule.avec, h]

@[simp] theorem vue_avec_poste : (vue (c.avec r s w)).poste
    = Function.update (vue c).poste r s.poste := by
  funext r'
  by_cases h : r' = r
  · subst h
    simp [vue, Cellule.avec]
  · simp [vue, Cellule.avec, h]

@[simp] theorem vue_avec_evacues : (vue (c.avec r s w)).evacues = evacuesDe w.journal := rfl

@[simp] theorem vue_avec_ecrasements :
    (vue (c.avec r s w)).ecrasements = ecrasementsDe w.journal := rfl

end VueAvec

@[simp] theorem evacuesDe_append (j k : List Message) :
    evacuesDe (j ++ k) = evacuesDe j ++ evacuesDe k := List.filterMap_append

@[simp] theorem ecrasementsDe_append (j k : List Message) :
    ecrasementsDe (j ++ k) = ecrasementsDe j + ecrasementsDe k := List.countP_append

/-- Every node is the one `Robot::init` sets up for its number, and no `StopTache` is pending. -/
structure Equipee (c : Cellule τ) : Prop where
  equipe : ∀ r, Equipe (c.robot r)
  numRobot : ∀ r, (c.robot r).numRobot = numero r
  stopTaches : c.sim.stopTaches = []

/-- The run of a robot from `(s, w)` to `(s', w')` acts on what the cell shows by `as`. -/
structure Effet (r : Fin 4) (s : Robot τ) (w : Simulateur τ) (as : List (Action τ)) (s' : Robot τ)
    (w' : Simulateur τ) : Prop where
  equipe : Equipe s'
  numRobot : s'.numRobot = s.numRobot
  stopTaches : w'.stopTaches = w.stopTaches
  vue : ∀ c : Cellule τ, vue (c.avec r s' w') = as.foldl Vue.apres (vue (c.avec r s w))

namespace Effet

variable {r : Fin 4} {s s₁ s' : Robot τ} {w w₁ w' : Simulateur τ} {as bs : List (Action τ)}

theorem trans (h₁ : Effet r s w as s₁ w₁) (h₂ : Effet r s₁ w₁ bs s' w') :
    Effet r s w (as ++ bs) s' w' where
  equipe := h₂.equipe
  numRobot := h₂.numRobot.trans h₁.numRobot
  stopTaches := h₂.stopTaches.trans h₁.stopTaches
  vue c := by rw [List.foldl_append, ← h₁.vue, h₂.vue]

/-- Arm and gripper movements are not seen. -/
theorem mouvement (hs : Equipe s) (h : Mouvement s w s' w') : Effet r s w [] s' w' := by
  obtain ⟨ms, hj, hms⟩ := h.journal
  have hposte : s'.poste = s.poste := by rw [h.robot]; rfl
  -- movements publish neither an evacuation nor the error 66
  have hev : evacuesDe ms = [] := by
    refine List.filterMap_eq_nil_iff.2 fun m hm => ?_
    cases m <;> first | rfl | exact absurd rfl ((hms _ hm).1 _)
  have hec : ecrasementsDe ms = 0 := by
    refine List.countP_eq_zero.2 fun m hm => ?_
    cases m with
    | erreurLog code n =>
      intro h66
      rw [beq_iff_eq] at h66
      subst h66
      exact (hms _ hm).2 n rfl
    | _ => simp
  refine ⟨⟨by rw [h.robot]; exact hs.num, fun position => ?_⟩, by rw [h.robot], h.stopTaches,
    fun c => ?_⟩
  · rw [hposte, h.robot]
    exact hs.poste position
  · refine Vue.ext h.couleur ?_ ?_ ?_ ?_
    · simp only [vue_avec_pince, List.foldl_nil]
      rw [h.robot]
    · simp [hposte]
    · simp [hj, hev]
    · simp [hj, hec]

/-- Replacing the post at a position, as seen from outside. -/
theorem setPoste_vue (s : Robot τ) (position : ℤ) (p : Poste τ) :
    (s.setPoste position p).poste = fun autre =>
      if (position = 1 ↔ autre = 1) then p else s.poste autre :=
  funext fun _ => poste_setPoste ..

/-- A stopped task. -/
theorem arret (hs : Equipe s) (position : ℤ) (data : ℤ) (ms : List Message)
    (hev : evacuesDe ms = []) (hec : ecrasementsDe ms = 0) (hj : w'.journal = w.journal ++ ms)
    (hw : w' = { w with journal := w'.journal }) :
    Effet r s w [.arret r position]
      { s.setPoste position (s.poste position).stopTask with retour := data } w' where
  equipe := by
    have hp := hs.poste position
    have h : Equipe (s.setPoste position (s.poste position).stopTask) :=
      hs.setPoste ⟨hp.nomPoste, hp.numeroPoste, hp.couleur⟩
    exact ⟨h.num, h.poste⟩
  numRobot := setPoste_numRobot ..
  stopTaches := by rw [hw]
  vue c := by
    refine Vue.ext ?_ ?_ ?_ ?_ ?_
    · simp only [vue_avec_pile, List.foldl_cons, List.foldl_nil, Vue.apres, Vue.setPoste]
      rw [hw]
    · simp [Vue.apres, Vue.setPoste]
    · have h : ({ s.setPoste position (s.poste position).stopTask with
          retour := data } : Robot τ).poste
            = (s.setPoste position (s.poste position).stopTask).poste := rfl
      rw [vue_avec_poste, h, setPoste_vue]
      simp [Vue.apres, Vue.setPoste]
    · simp [Vue.apres, Vue.setPoste, hj, hev]
    · simp [Vue.apres, Vue.setPoste, hj, hec]

/-- `Colorer` stops the task of the post it is about to touch. -/
theorem interruption (hs : Equipe s) {position : ℤ} (h14 : position = 1 ∨ position = 4) :
    Effet r s w [.arret r position] (robotInterrompu s position)
      (traficInterrompu s w position) := by
  rw [robotInterrompu, traficInterrompu]
  split_ifs with h
  · exact arret hs position _ [.erreurLog 3 (s.poste position).numeroPoste,
      .retourCommande s.numRobot (codeRetour position)] rfl rfl (List.append_assoc ..) rfl
  -- Stopping a post that has no task changes nothing.
  · have ht : (s.poste position).taskEnCours = false := by simpa [tacheInterrompue, h14] using h
    refine ⟨hs, rfl, rfl, fun c => Vue.ext rfl rfl ?_ rfl rfl⟩
    simp only [List.foldl_cons, List.foldl_nil, Vue.apres, Vue.setPoste, vue_avec_poste,
      Function.update_self, Function.update_idem, Poste.stopTask_of_eq_false ht]
    congr 1
    funext autre
    split_ifs with hm
    · exact poste_congr s hm
    · rfl

/-- The gripper and a place exchange their stacks, or the gripper puts its stack there. -/
theorem geste (hs : Equipe s) {type : ℤ} (htype : type = 0 ∨ type = 1) (nom : String)
    {ms : List Message} (hcouleur : w'.couleur = Function.update w.couleur nom s.couleurTransportee)
    (hstop : w'.stopTaches = w.stopTaches) (hj : w'.journal = w.journal ++ ms)
    (hev : evacuesDe ms = [])
    (hec : ecrasementsDe ms = if type = 1 ∧ w.couleur nom ≠ Pile.vide then 1 else 0) :
    Effet r s w [Atelier.geste r type nom]
      { s with couleurTransportee := if type = 0 then w.couleur nom else Pile.vide } w' where
  equipe := ⟨hs.num, hs.poste⟩
  numRobot := rfl
  stopTaches := hstop
  vue c := by
    rcases htype with rfl | rfl
    · rw [Atelier.geste, if_pos rfl]
      refine Vue.ext ?_ ?_ ?_ ?_ ?_
      · simp [Vue.apres, Vue.peindre, Vue.tenir, hcouleur]
      · simp [Vue.apres, Vue.peindre, Vue.tenir]
      · simp [Vue.apres, Vue.peindre, Vue.tenir]
        rfl
      · simp [Vue.apres, Vue.peindre, Vue.tenir, hj, hev]
      · simp [Vue.apres, Vue.peindre, Vue.tenir, hj, hec]
    · rw [Atelier.geste, if_neg one_ne_zero]
      refine Vue.ext ?_ ?_ ?_ ?_ ?_
      · simp [Vue.apres, Vue.peindre, Vue.tenir, Vue.ecraser, hcouleur]
      · simp [Vue.apres, Vue.peindre, Vue.tenir, Vue.ecraser]
      · simp [Vue.apres, Vue.peindre, Vue.tenir, Vue.ecraser]
        rfl
      · simp [Vue.apres, Vue.peindre, Vue.tenir, Vue.ecraser, hj, hev]
      · by_cases hv : w.couleur nom = Pile.vide <;>
          simp [Vue.apres, Vue.peindre, Vue.tenir, Vue.ecraser, hj, hec, hv]

/-- An order to a robot acts on the cell. -/
theorem surRobot {c : Cellule τ} (hc : Equipee c)
    (he : Effet r (c.robot r) c.sim as s' w') :
    Equipee (c.avec r s' w') ∧ Atelier.vue (c.avec r s' w') = as.foldl Vue.apres (Atelier.vue c) := by
  have hself : c.avec r (c.robot r) c.sim = c := avec_self c r c.sim
  refine ⟨⟨fun r' => ?_, fun r' => ?_, he.stopTaches.trans hc.stopTaches⟩, ?_⟩
  · by_cases h : r' = r
    · subst h
      simpa [Cellule.avec] using he.equipe
    · simpa [Cellule.avec, h] using hc.equipe r'
  · by_cases h : r' = r
    · subst h
      simpa [Cellule.avec] using he.numRobot.trans (hc.numRobot r')
    · simpa [Cellule.avec, h] using hc.numRobot r'
  · rw [he.vue c, hself]

/-- The first half of a tick touches neither the post nor the table of the second. -/
theorem updatePoste_autre {fini : Bool}
    (he : Effet r s w (if fini then [.fin r 1] else []) s' w') :
    s'.poste 4 = s.poste 4 ∧ w'.couleur (table r 4).1 = w.couleur (table r 4).1 := by
  have hne : (table r 4).1 ≠ (table r 1).1 := fun h =>
    absurd (table_injective (Or.inr rfl) (Or.inl rfl) h).2 (by decide)
  have hv := he.vue ⟨fun _ => s, w⟩
  have hposte := congrFun (congrFun (congrArg Vue.poste hv) r) 4
  have hpile := congrFun (congrArg Vue.pile hv) (table r 4).1
  rw [vue_avec_poste, Function.update_self] at hposte
  rw [vue_avec_pile] at hpile
  rw [hposte, hpile]
  cases fini <;> simp [Vue.apres, Vue.setPoste, Vue.peindre, hne]

variable [Horloge τ]

/-- What `Colorer` does to a place of the cell. -/
theorem colorerPlace (hs : Equipe s) {position type idNavette : ℤ} (htype : type = 0 ∨ type = 1)
    (hpos : position ∈ [1, 2, 3, 4])
    (h : executer (Robot.colorerPlace position type idNavette) s w = .ok ((), s', w')) :
    Effet r (robotInterrompu s position) (traficInterrompu s w position)
      [Atelier.geste r type (nomPlace s position idNavette)] s' w' ∧ w'.navettes = w.navettes := by
  rw [executer_colorerPlace s w position type idNavette hs] at h
  dsimp only at h
  rw [if_pos hpos] at h
  cases h
  -- a task that is stopped leaves the names of the posts
  have hs' : Equipe (robotInterrompu s position) := by
    refine ⟨by rw [robotInterrompu_numRobot]; exact hs.num, fun autre => ?_⟩
    have hp := hs.poste autre
    rw [poste_robotInterrompu, robotInterrompu_numRobot]
    split
    · exact ⟨hp.nomPoste, hp.numeroPoste, hp.couleur⟩
    · exact hp
  refine ⟨?_, ?_⟩
  · rw [← traficInterrompu_couleur s w position]
    refine geste hs' htype _ (by rw [robotInterrompu_couleurTransportee]; rfl) rfl rfl ?_ ?_
    · rw [messagesColorer]
      split_ifs <;> rfl
    · rw [messagesColorer]
      split_ifs <;> rfl
  · rw [traficInterrompu]
    split <;> rfl

/-- What `Colorer` does at a position of the cell. -/
theorem colorer (hs : Equipe s) (hnum : s.numRobot = numero r) {position type : ℤ}
    (htype : type = 0 ∨ type = 1) (hpos : position ∈ [1, 2, 3, 4])
    (h : executer (Robot.colorer position type) s w = .ok ((), s', w')) :
    Effet r s w (actionsColorer r position type (w.navettes.headD 66)) s' w' ∧
      w'.navettes = navettesApres position w.navettes := by
  rw [executer_colorer] at h
  dsimp only at h
  rw [actionsColorer, navettesApres]
  by_cases h23 : position = 2 ∨ position = 3
  · rw [if_pos h23] at h ⊢
    rw [if_pos h23]
    split_ifs at h with h66
    -- the shuttle manager finds no shuttle: the gripper forgets what it holds
    · cases h
      rw [if_pos h66]
      refine ⟨⟨⟨hs.num, hs.poste⟩, rfl, rfl, fun c => ?_⟩, rfl⟩
      refine Vue.ext rfl ?_ ?_ ?_ ?_
      · simp [Vue.apres, Vue.tenir]
      · simp [Vue.apres, Vue.tenir]
        rfl
      · simp [Vue.apres, Vue.tenir, Simulateur.noter, evacuesDe]
      · simp [Vue.apres, Vue.tenir, Simulateur.noter, ecrasementsDe]
    · rw [if_neg h66]
      have hplace := colorerPlace (r := r) hs htype hpos h
      -- no task is stopped on the track
      have hnt : tacheInterrompue s position = false := by
        rw [tacheInterrompue, decide_eq_false (by omega), Bool.false_and]
      rw [robotInterrompu, traficInterrompu, hnt, nomPlace, if_pos h23] at hplace
      obtain ⟨heff, hnav⟩ := hplace
      exact ⟨⟨heff.equipe, heff.numRobot, heff.stopTaches, heff.vue⟩, hnav⟩
  · rw [if_neg h23] at h ⊢
    rw [if_neg h23]
    have h14 : position = 1 ∨ position = 4 := by simp at hpos; omega
    have hplace := colorerPlace (r := r) hs htype hpos h
    rw [nomPlace, if_neg h23, if_pos h14, hnum] at hplace
    exact ⟨(interruption hs h14).trans hplace.1, hplace.2⟩

/-- A whole move. -/
theorem deplacerPiece (hs : Equipe s) (hnum : s.numRobot = numero r) {msg : DeplacerPieceMsg}
    (hA : msg.positionA ∈ [1, 2, 3, 4]) (hB : msg.positionB ∈ [1, 2, 3, 4])
    (hmsg : numero r = msg.numRobot)
    (h : executer (deplacerPieceCallback msg) s w = .ok ((), s', w')) :
    Effet r s w (actionsColorer r msg.positionA 0 (w.navettes.headD 66) ++
      actionsColorer r msg.positionB 1 ((navettesApres msg.positionA w.navettes).headD 66)) s' w' := by
  obtain ⟨s₁, w₁, s₂, w₂, s₃, w₃, s₄, w₄, ⟨-, hm₁⟩, hprise, ⟨-, hm₂⟩, hpose, -, hm₃⟩ :=
    executer_deplacerPiece_etapes (hnum.trans hmsg) h
  have he₁ := mouvement (r := r) hs hm₁
  have hp := colorer he₁.equipe (he₁.numRobot.trans hnum) (Or.inl rfl) hA hprise
  have he₂ := mouvement (r := r) hp.1.equipe hm₂
  have hnum₃ : s₃.numRobot = numero r := by
    rw [he₂.numRobot, hp.1.numRobot, he₁.numRobot, hnum]
  have hq := colorer he₂.equipe hnum₃ (Or.inr rfl) hB hpose
  have he₃ := mouvement (r := r) hq.1.equipe hm₃
  have htout := (((he₁.trans hp.1).trans he₂).trans hq.1).trans he₃
  rw [hm₂.navettes, hp.2, hm₁.navettes] at htout
  simpa using htout

/-- One half of a tick. -/
theorem updatePoste (hs : Equipe s) (hnum : s.numRobot = numero r) {position : ℤ} {time : τ}
    {i : Option ℕ} (h : executer (Robot.updatePoste position time) s w = .ok (i, s', w')) :
    Effet r s w (if (s.poste position).finTache time then [.fin r position] else []) s' w' ∧
      i = if (s.poste position).finTache time
        then some ((w.couleur (table r position).1).hauteur - 1) else none := by
  rw [executer_updatePoste hs] at h
  dsimp only at h
  rw [hnum] at h
  split_ifs at h with hfin h0
  · cases h
    rw [if_neg (by simp [hfin]), if_neg (by simp [hfin])]
    exact ⟨⟨hs, rfl, rfl, fun _ => rfl⟩, rfl⟩
  · cases h
    have hfin : (s.poste position).finTache time = true := eq_true_of_ne_false hfin
    rw [if_pos hfin, if_pos hfin]
    refine ⟨⟨?_, setPoste_numRobot .., rfl, fun c => ?_⟩, rfl⟩
    · have hp := hs.poste position
      have hs' : Equipe (s.setPoste position (s.poste position).stopTask) :=
        hs.setPoste ⟨hp.nomPoste, hp.numeroPoste, hp.couleur⟩
      exact ⟨hs'.num, hs'.poste⟩
    · refine Vue.ext ?_ ?_ ?_ ?_ ?_
      · simp [Vue.apres, Vue.peindre, Vue.setPoste, Simulateur.noter, Simulateur.peindre, table]
      · simp [Vue.apres, Vue.peindre, Vue.setPoste]
      · have hret : ({ s.setPoste position (s.poste position).stopTask with
            retour := codeRetour position } : Robot τ).poste
              = (s.setPoste position (s.poste position).stopTask).poste := rfl
        rw [vue_avec_poste, hret, setPoste_vue]
        simp [Vue.apres, Vue.peindre, Vue.setPoste]
      · simp [Vue.apres, Vue.peindre, Vue.setPoste, Simulateur.noter, Simulateur.peindre, evacuesDe]
      · simp [Vue.apres, Vue.peindre, Vue.setPoste, Simulateur.noter, Simulateur.peindre,
          ecrasementsDe]

/-- A whole tick. -/
theorem update (hs : Equipe s) (hnum : s.numRobot = numero r) {i : Option ℕ × Option ℕ}
    (h : executer Robot.update s w = .ok (i, s', w')) :
    Effet r s w ((if (s.poste 1).finTache w.temps then [.fin r 1] else []) ++
      if (s.poste 4).finTache w.temps then [.fin r 4] else []) s' w' ∧
      i = (if (s.poste 1).finTache w.temps
          then some ((w.couleur (table r 1).1).hauteur - 1) else none,
        if (s.poste 4).finTache w.temps
          then some ((w.couleur (table r 4).1).hauteur - 1) else none) := by
  obtain ⟨s₁, w₁, h₁, h₄⟩ := executer_update_inv h
  obtain ⟨he₁, hi₁⟩ := updatePoste hs hnum h₁
  obtain ⟨he₄, hi₄⟩ := updatePoste he₁.equipe (he₁.numRobot.trans hnum) h₄
  -- the second half reads the other post as it was before the tick
  have hautre := updatePoste_autre he₁
  rw [hautre.1] at he₄ hi₄
  rw [hautre.2] at hi₄
  exact ⟨he₁.trans he₄, Prod.ext hi₁ hi₄⟩

/-- The start of a task. -/
theorem faireTache (hs : Equipe s) (hnum : s.numRobot = numero r) {msg : FaireTacheMsg}
    {i : Option ℕ} (h : executer (faireTacheCallback msg) s w = .ok (i, s', w')) (c : Cellule τ)
    (hpile : c.sim.couleur = w.couleur) :
    Effet r s w (if DebutPossible (Atelier.vue c) r msg
        then [.debut r msg.position w.temps msg.duree] else []) s' w' ∧
      i = if DebutPossible (Atelier.vue c) r msg
        then some (hauteurPoste (Atelier.vue c) r msg.position) else none := by
  have hh : hauteurPoste (Atelier.vue c) r msg.position
      = (w.couleur (tableDe s.numRobot msg.position).1).hauteur := by
    rw [hauteurPoste, hnum, ← hpile]
    rfl
  by_cases hmoi : msg.numRobot = s.numRobot ∧ (msg.position = 1 ∨ msg.position = 4)
  · rw [executer_faireTache hs w hmoi] at h
    dsimp only at h
    -- a task that is refused is acknowledged at once
    have hrefus : ∀ code : ℤ, ¬DebutPossible (Atelier.vue c) r msg → code ≠ 66 →
        (.ok (none, { s with retour := codeRetour msg.position },
          (w.noter (.erreurLog code (tableDe s.numRobot msg.position).2)).noter
            (.retourCommande s.numRobot (codeRetour msg.position))) :
          Except Stop (Option ℕ × Robot τ × Simulateur τ)) = .ok (i, s', w') →
        Effet r s w (if DebutPossible (Atelier.vue c) r msg
          then [.debut r msg.position w.temps msg.duree] else []) s' w' ∧
        i = if DebutPossible (Atelier.vue c) r msg
          then some (hauteurPoste (Atelier.vue c) r msg.position) else none := by
      intro code hnon h66 h
      cases h
      rw [if_neg hnon, if_neg hnon]
      refine ⟨⟨⟨hs.num, hs.poste⟩, rfl, rfl, fun c => Vue.ext rfl ?_ ?_ ?_ ?_⟩, rfl⟩
      · simp
      · simp
        rfl
      · simp [Simulateur.noter, evacuesDe]
      · simp [Simulateur.noter, ecrasementsDe, h66]
    split_ifs at h with h0 h6
    · exact hrefus 1 (fun hd => hd.2.2.1 (hh.trans h0)) (by decide) h
    · exact hrefus 2 (fun hd => hd.2.2.2 (hh.trans h6)) (by decide) h
    · have hd : DebutPossible (Atelier.vue c) r msg :=
        ⟨hmoi.1.trans hnum, hmoi.2, by rwa [hh], by rwa [hh]⟩
      cases h
      rw [if_pos hd, if_pos hd, hh]
      have hp := hs.poste msg.position
      refine ⟨⟨hs.setPoste ⟨hp.nomPoste, hp.numeroPoste, hp.couleur⟩, setPoste_numRobot .., rfl,
        fun c => ?_⟩, rfl⟩
      rw [hnum]
      refine Vue.ext ?_ ?_ ?_ ?_ ?_
      · simp [Vue.apres, Vue.peindre, Vue.setPoste, Simulateur.peindre, table]
      · simp [Vue.apres, Vue.peindre, Vue.setPoste]
      · rw [vue_avec_poste, setPoste_vue]
        simp [Vue.apres, Vue.peindre, Vue.setPoste]
      · simp [Vue.apres, Vue.peindre, Vue.setPoste, Simulateur.peindre]
      · simp [Vue.apres, Vue.peindre, Vue.setPoste, Simulateur.peindre]
  · rw [executer_faireTache_autre hmoi] at h
    have hd : ¬DebutPossible (Atelier.vue c) r msg := fun hd =>
      hmoi ⟨hd.1.trans hnum.symm, hd.2.1⟩
    cases h
    rw [if_neg hd, if_neg hd]
    exact ⟨⟨hs, rfl, rfl, fun _ => rfl⟩, rfl⟩

/-- An evacuation. -/
theorem evacuer (hs : Equipe s) (hnum : s.numRobot = numero r)
    (h : executer Robot.evacuer s w = .ok ((), s', w')) :
    Effet r s w (if numero r = 2 then [.evacuation] else []) s' w' := by
  rw [executer_evacuer hs, hnum] at h
  split_ifs at h ⊢ with h2
  · cases h
    refine ⟨hs, rfl, rfl, fun c => Vue.ext ?_ ?_ ?_ ?_ ?_⟩
    · simp [Vue.apres, Vue.peindre, Simulateur.peindre, Simulateur.noter]
    · simp [Vue.apres, Vue.peindre]
    · simp [Vue.apres, Vue.peindre]
    · simp [Vue.apres, Vue.peindre, Simulateur.peindre, Simulateur.noter, evacuesDe]
    · simp [Vue.apres, Vue.peindre, Simulateur.peindre, Simulateur.noter, ecrasementsDe]
  · cases h
    exact ⟨hs, rfl, rfl, fun _ => rfl⟩

/-- A stop. -/
theorem stopTache (hs : Equipe s) {position : ℤ}
    (h : executer (stopTacheCallback position) s w = .ok ((), s', w')) :
    Effet r s w (if position = 1 ∨ position = 4 then [.arret r position] else []) s' w' := by
  rw [executer_stopTache] at h
  split_ifs at h ⊢ with h14
  · cases h
    exact arret hs position _ [.retourCommande s.numRobot (codeRetour position)] rfl rfl rfl rfl
  · cases h
    exact ⟨hs, rfl, rfl, fun _ => rfl⟩

end Effet

variable [Horloge τ]

/-- The actions of an order. -/
def actions : Ordre τ → Vue τ → List (Action τ)
  | .faireTache r msg temps, v =>
      if DebutPossible v r msg then [.debut r msg.position temps msg.duree] else []
  | .update r temps, v =>
      (if (v.poste r 1).finTache temps then [.fin r 1] else []) ++
        if (v.poste r 4).finTache temps then [.fin r 4] else []
  | .evacuer r, _ => if numero r = 2 then [.evacuation] else []
  | .ajouterProduit produit poste, v =>
      let nom := CommandeLocale.nomTable (CommandeLocale.computeTableId poste)
      (match CommandeLocale.computeNumRobotPosteTache poste with
        | some (n, position) =>
            if (v.pile nom).base ≠ 0 then ((Cellule.robotDe n).map (Action.arret · position)).toList
            else []
        | none => []) ++ [.ajout nom produit]
  | .stopTache r position, _ => if position = 1 ∨ position = 4 then [.arret r position] else []
  | .deplacerPiece r msg _ navettes, _ =>
      if numero r = msg.numRobot then
        actionsColorer r msg.positionA 0 (navettes.headD 66) ++
          actionsColorer r msg.positionB 1 ((navettesApres msg.positionA navettes).headD 66)
      else []

/-- What an order brings to light. -/
def resultat : Ordre τ → Vue τ → Resultat
  | .faireTache r msg _, v =>
      .debut (if DebutPossible v r msg then some (hauteurPoste v r msg.position) else none)
  | .update r temps, v =>
      .fins (if (v.poste r 1).finTache temps then some (hauteurPoste v r 1 - 1) else none)
        (if (v.poste r 4).finTache temps then some (hauteurPoste v r 4 - 1) else none)
  | _, _ => .rien

/-! ## Refinement -/

omit [Horloge τ] in
theorem map_eq_ok {α β : Type} {x : Except Stop α} {f : α → β} {b : β} (h : x.map f = .ok b) :
    ∃ a, x = .ok a ∧ f a = b := by
  cases x with
  | error e => cases h
  | ok a => exact ⟨a, rfl, Except.ok.inj h⟩

omit [Horloge τ] in
/-- A robot whose code ran, and where it left the cell. -/
theorem surRobot_inv [Horloge τ] {α : Type} {r : Fin 4} {p : Robots.Code τ α} {c c' : Cellule τ}
    {a : α} (h : Cellule.surRobot r p c = .ok (a, c')) :
    ∃ s' w', executer p (c.robot r) c.sim = .ok (a, s', w') ∧ c' = c.avec r s' w' := by
  rw [Cellule.surRobot] at h
  cases hp : executer p (c.robot r) c.sim with
  | error e => rw [hp] at h; cases h
  | ok x =>
    rw [hp] at h
    cases h
    exact ⟨x.2.1, x.2.2, rfl, rfl⟩

omit [Horloge τ] in
/-- The same when its answer is passed on. -/
theorem surRobot_map_inv [Horloge τ] {α β : Type} {r : Fin 4} {p : Robots.Code τ α} {c : Cellule τ}
    {f : α × Cellule τ → β} {b : β} (h : (Cellule.surRobot r p c).map f = .ok b) :
    ∃ a s' w', executer p (c.robot r) c.sim = .ok (a, s', w') ∧ f (a, c.avec r s' w') = b := by
  obtain ⟨⟨a, c'⟩, hsur, hb⟩ := map_eq_ok h
  obtain ⟨s', w', hex, rfl⟩ := surRobot_inv hsur
  exact ⟨a, s', w', hex, hb⟩

/-- What the stops of the robots keep, the delivery of a queue of stops keeps. -/
theorem livrerStops_rel {R : Cellule τ → Cellule τ → Prop} (hrefl : ∀ c, R c c)
    (htrans : ∀ c c₁ c₂, R c c₁ → R c₁ c₂ → R c c₂)
    (hstop : ∀ c (r : Fin 4) position a s' w',
      executer (stopTacheCallback position) (c.robot r) c.sim = .ok (a, s', w') →
        R c (c.avec r s' w'))
    {stops : List (ℤ × ℤ)} {c c' : Cellule τ} (h : stops.foldlM Cellule.livrerStop c = .ok c') :
    R c c' := by
  induction stops generalizing c with
  | nil =>
    cases h
    exact hrefl _
  | cons m stops ih =>
    rw [List.foldlM_cons] at h
    cases hm : c.livrerStop m with
    | error e =>
      rw [hm] at h
      cases h
    | ok c₁ =>
      rw [hm] at h
      refine htrans c c₁ c' ?_ (ih h)
      rw [Cellule.livrerStop] at hm
      split at hm
      · obtain ⟨a, s', w', hex, rfl⟩ := surRobot_map_inv hm
        exact hstop c _ m.2 a s' w' hex
      -- no robot has this number
      · cases hm
        exact hrefl _

/-- Every post of the cell has a robot, a position there, and its table. -/
theorem poste_valide {poste : ℤ} (h : 1 ≤ poste ∧ poste ≤ 8) :
    ∃ r : Fin 4, ∃ position, (position = 1 ∨ position = 4) ∧
      CommandeLocale.computeNumRobotPosteTache poste = some (numero r, position) ∧
      Cellule.robotDe (numero r) = some r ∧
      CommandeLocale.nomTable (CommandeLocale.computeTableId poste) = (table r position).1 := by
  have key : ∀ poste ∈ ([1, 2, 3, 4, 5, 6, 7, 8] : List ℤ), ∃ r : Fin 4, ∃ position ∈ ([1, 4] : List ℤ),
      CommandeLocale.computeNumRobotPosteTache poste = some (numero r, position) ∧
      Cellule.robotDe (numero r) = some r ∧
      CommandeLocale.nomTable (CommandeLocale.computeTableId poste) = (table r position).1 := by
    decide
  obtain ⟨r, position, hpos, hrest⟩ := key poste (by simp; omega)
  exact ⟨r, position, by simpa using hpos, hrest⟩

/-- A stop delivered to its robot. -/
theorem livrerStop_vue {c c' : Cellule τ} (hc : Equipee c) {r : Fin 4} {position : ℤ}
    (hpos : position = 1 ∨ position = 4) (hr : Cellule.robotDe (numero r) = some r)
    (h : c.livrerStop (numero r, position) = .ok c') :
    Equipee c' ∧ vue c' = (vue c).apres (.arret r position) := by
  rw [Cellule.livrerStop, hr] at h
  obtain ⟨_, s', w', hex, rfl⟩ := surRobot_map_inv h
  have heff := Effet.stopTache (r := r) (hc.equipe r) hex
  rw [if_pos hpos] at heff
  exact heff.surRobot hc

/-- A product added to the cell. -/
theorem ajouterProduit_vue {c c' : Cellule τ} (hc : Equipee c) {produit poste : ℤ}
    (hposte : 1 ≤ poste ∧ poste ≤ 8) (h : Cellule.ajouterProduit produit poste c = .ok c') :
    Equipee c' ∧
      vue c' = (actions (.ajouterProduit produit poste) (vue c)).foldl Vue.apres (vue c) := by
  obtain ⟨r, position, hpos, hcible, hr, hnom⟩ := poste_valide hposte
  rw [Cellule.ajouterProduit, addProduct_run c.sim hcible] at h
  simp only [actions, hcible, hr]
  rw [hnom] at h ⊢
  by_cases hbase : (c.sim.couleur (table r position).1).base ≠ 0
  -- The post was occupied: its robot receives a stop.
  · set w := (Simulateur.publier (.stopTache (numero r) position)
      (c.sim.noter (.erreurLog 66 poste))).peindre (table r position).1
        (Pile.ofList (CommandeLocale.pileProduit produit)) with hw
    have hstop : w.stopTaches = [(numero r, position)] := by
      simp [hw, Simulateur.publier, Simulateur.peindre, Simulateur.noter, hc.stopTaches]
    dsimp only at h
    rw [if_pos hbase] at h
    change c.livrerStops w = .ok c' at h
    simp only [Cellule.livrerStops, hstop, List.foldlM_cons, List.foldlM_nil, bind_pure] at h
    have hc₁ : Equipee ({ c with sim := { w with stopTaches := [] } } : Cellule τ) :=
      ⟨hc.equipe, hc.numRobot, rfl⟩
    obtain ⟨hc', hvue⟩ := livrerStop_vue hc₁ hpos hr h
    refine ⟨hc', ?_⟩
    have hb : ((vue c).pile (table r position).1).base ≠ 0 := hbase
    rw [hvue, if_pos hb]
    -- The stop and the new colours do not meet: the view may take them in either order.
    change _ = ((vue c).apres (.ajout (table r position).1 produit)).apres (.arret r position)
    refine congrArg (fun v : Vue τ => v.apres (.arret r position)) (Vue.ext rfl rfl rfl ?_ ?_)
    · simp [vue, hw, Vue.apres, Vue.ecraser, Vue.peindre, Simulateur.peindre, Simulateur.publier,
        Simulateur.noter, evacuesDe]
    · simp only [Vue.apres, Vue.ecraser, Vue.peindre, if_pos hb]
      simp [vue, hw, Simulateur.peindre, Simulateur.publier, Simulateur.noter, ecrasementsDe]
  · dsimp only at h
    rw [if_neg hbase] at h
    change c.livrerStops (c.sim.peindre (table r position).1
      (Pile.ofList (CommandeLocale.pileProduit produit))) = .ok c' at h
    have hstop : (c.sim.peindre (table r position).1
        (Pile.ofList (CommandeLocale.pileProduit produit))).stopTaches = [] := hc.stopTaches
    simp only [Cellule.livrerStops, hstop, List.foldlM_nil] at h
    cases h
    refine ⟨⟨hc.equipe, hc.numRobot, rfl⟩, ?_⟩
    have hb : ¬((vue c).pile (table r position).1).base ≠ 0 := hbase
    rw [if_neg hb]
    refine Vue.ext rfl rfl rfl rfl ?_
    simp only [List.nil_append, List.foldl_cons, List.foldl_nil, Vue.apres, Vue.ecraser, if_neg hb]
    rfl

/-- **The cell refines its view.** An order that completes acts on what the cell shows by its
actions, and brings to light what the view predicts. -/
theorem executerOrdre_vue {o : Ordre τ} {c c' : Cellule τ} {res : Resultat} (hc : Equipee c)
    (ho : o.Valide) (h : Cellule.executerOrdre o c = .ok (res, c')) :
    Equipee c' ∧ vue c' = (actions o (vue c)).foldl Vue.apres (vue c) ∧
      res = resultat o (vue c) := by
  cases o with
  | faireTache r msg t =>
    obtain ⟨i, s', w', hex, hres⟩ := surRobot_map_inv h
    cases hres
    have hct : Equipee (c.aTemps t) := ⟨hc.equipe, hc.numRobot, hc.stopTaches⟩
    obtain ⟨heff, hi⟩ := Effet.faireTache (hct.equipe r) (hct.numRobot r) hex c rfl
    obtain ⟨hc', hvue⟩ := heff.surRobot hct
    exact ⟨hc', hvue, congrArg Resultat.debut hi⟩
  | update r t =>
    obtain ⟨i, s', w', hex, hres⟩ := surRobot_map_inv h
    cases hres
    have hct : Equipee (c.aTemps t) := ⟨hc.equipe, hc.numRobot, hc.stopTaches⟩
    obtain ⟨heff, hi⟩ := Effet.update (hct.equipe r) (hct.numRobot r) hex
    obtain ⟨hc', hvue⟩ := heff.surRobot hct
    exact ⟨hc', hvue, by rw [hi]; rfl⟩
  | evacuer r =>
    obtain ⟨i, s', w', hex, hres⟩ := surRobot_map_inv h
    cases hres
    obtain ⟨hc', hvue⟩ := (Effet.evacuer (hc.equipe r) (hc.numRobot r) hex).surRobot hc
    exact ⟨hc', hvue, rfl⟩
  | ajouterProduit produit poste =>
    obtain ⟨c₁, hajout, hres⟩ := map_eq_ok h
    cases hres
    obtain ⟨hc', hvue⟩ := ajouterProduit_vue hc ho hajout
    exact ⟨hc', hvue, rfl⟩
  | stopTache r position =>
    obtain ⟨i, s', w', hex, hres⟩ := surRobot_map_inv h
    cases hres
    obtain ⟨hc', hvue⟩ := (Effet.stopTache (hc.equipe r) hex).surRobot hc
    exact ⟨hc', hvue, rfl⟩
  | deplacerPiece r msg t navettes =>
    obtain ⟨i, s', w', hex, hres⟩ := surRobot_map_inv h
    cases hres
    have hct : Equipee ((c.aTemps t).avecNavettes navettes) :=
      ⟨hc.equipe, hc.numRobot, hc.stopTaches⟩
    rw [actions]
    split_ifs with hmsg
    · have heff := Effet.deplacerPiece (hct.equipe r) (hct.numRobot r) ho.1 ho.2 hmsg hex
      obtain ⟨hc', hvue⟩ := heff.surRobot hct
      exact ⟨hc', hvue, rfl⟩
    -- a message for another robot
    · have hautre : (c.robot r).numRobot ≠ msg.numRobot := by
        rw [hc.numRobot r]
        exact hmsg
      have hrien := executer_deplacerPiece_autre hautre ((c.aTemps t).avecNavettes navettes).sim
      cases hrien.symm.trans hex
      have heff : Effet r (c.robot r) c.sim [] (c.robot r)
          ((c.aTemps t).avecNavettes navettes).sim := ⟨hc.equipe r, rfl, rfl, fun _ => rfl⟩
      obtain ⟨hc', hvue⟩ := heff.surRobot hc
      exact ⟨hc', hvue, rfl⟩

end Atelier
