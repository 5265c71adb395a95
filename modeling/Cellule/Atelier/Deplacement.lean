import Cellule.Atelier.Entrees
import Cellule.Shuttles.Passage

/-! # Moving a piece

A move picks the stack of one place and puts it on another, with the gripper as the memory between
the two. On the track the places are the shuttles that the shuttle manager names. Besides the stacks
and the posts it touches, what a move signals is followed here message by message.
-/

namespace Atelier

open Reactive Reactive.Prog Robots Robots.Robot
open Vue (table)

variable {τ : Type}

/-! ## What a move signals -/

/-- The errors, and the acknowledgements `8` and `9` of the posts. -/
def estSignalement : Message → Bool
  | .erreurLog _ _ => true
  | .retourCommande _ data => data == 8 || data == 9
  | _ => false

/-- The signals published so far. -/
def signalements (w : Simulateur τ) : List Message := w.journal.filter estSignalement

/-- What an action of a move signals: a task that was running, a stack put on another one. -/
def signal (v : Vue τ) : Action τ → List Message
  | .arret r position =>
      if (v.poste r position).taskEnCours then
        [.erreurLog 3 (table r position).2, .retourCommande (numero r) (codeRetour position)]
      else []
  | .pose r nom => if v.pile nom ≠ Pile.vide then [.erreurLog 66 (numero r)] else []
  | _ => []

/-- What the actions of a move signal. -/
def signaux (v : Vue τ) : List (Action τ) → List Message
  | [] => []
  | a :: as => signal v a ++ signaux (v.apres a) as

theorem signaux_append (v : Vue τ) (as bs : List (Action τ)) :
    signaux v (as ++ bs) = signaux v as ++ signaux (as.foldl Vue.apres v) bs := by
  induction as generalizing v with
  | nil => rfl
  | cons a as ih => simp only [List.cons_append, signaux, ih, List.foldl_cons, List.append_assoc]

/-! ### The messages of the arm and of the gripper -/

section Emissions

variable {P : Message → Prop}

theorem emits_rejoindre : (rejoindre : Robots.Code τ Unit).Emits P :=
  fun _ _ => Emits.forM fun _ _ => trivial

theorem emits_retourner {data : ℤ} (h : ∀ n, P (.retourCommande n data)) :
    (retourner data : Robots.Code τ Unit).Emits P :=
  fun _ => ⟨h _, trivial⟩

/-- What the three arm movements share. -/
theorem emits_bras {f : Robot τ → Robot τ} {data : ℤ} {m : Robot τ → Message}
    (hretour : ∀ n, P (.retourCommande n data)) (hm : ∀ s, P (m s)) :
    Emits P (do
      Prog.modify f
      rejoindre
      retourner data
      let s ← Prog.get
      Prog.publish (m s) : Robots.Code τ Unit) :=
  Emits.bind (p := Prog.modify f) trivial fun _ => Emits.bind emits_rejoindre fun _ =>
    Emits.bind (emits_retourner hretour) fun _ s => ⟨hm s, trivial⟩

theorem emits_bougerPince [Horloge τ] {cmd code : ℤ} (hcmd : ∀ n, P (.cmdPince n cmd))
    (hretour : ∀ n, P (.retourCommande n code)) (hpince : ∀ n, P (.robotPince n cmd)) :
    (bougerPince cmd code : Robots.Code τ Unit).Emits P := by
  intro s
  refine ⟨hcmd _, Emits.bind (p := attendrePince code) (fun s => ?_) fun _ => ⟨hpince _, trivial⟩⟩
  change Emits _ (if s.retour ≠ code then _ else _)
  split_ifs
  · exact fun _ => emits_retourner hretour
  · trivial

end Emissions

/-- The code signals nothing. -/
def Muet {α : Type} (p : Robots.Code τ α) : Prop := p.Emits fun m => estSignalement m = false

theorem muet_approcher (positionA : ℤ) : Muet (approcher positionA : Robots.Code τ Unit) :=
  Emits.bind (emits_bras (fun _ => rfl) fun _ => rfl) fun _ => emits_bras (fun _ => rfl) fun _ => rfl

variable [Horloge τ]

theorem muet_transferer (positionB : ℤ) : Muet (transferer positionB : Robots.Code τ Unit) :=
  Emits.bind (emits_bougerPince (fun _ => rfl) (fun _ => rfl) fun _ => rfl) fun _ =>
    Emits.bind (emits_bras (fun _ => rfl) fun _ => rfl) fun _ =>
      Emits.bind (emits_bras (fun _ => rfl) fun _ => rfl) fun _ =>
        emits_bras (fun _ => rfl) fun _ => rfl

theorem muet_revenir : Muet (revenir : Robots.Code τ Unit) :=
  Emits.bind (emits_bougerPince (fun _ => rfl) (fun _ => rfl) fun _ => rfl) fun _ =>
    Emits.bind (emits_bras (fun _ => rfl) fun _ => rfl) fun _ => emits_retourner fun _ => rfl

theorem signalements_muet {α : Type} {p : Robots.Code τ α} (hp : Muet p) {s s' : Robot τ}
    {w w' : Simulateur τ} {a : α} (h : executer p s w = .ok (a, s', w')) :
    signalements w' = signalements w :=
  filter_journal_of_emits hp h

/-- `Colorer` signals the task it stops, and the stack it covers. -/
theorem signalements_colorer {r : Fin 4} {s s' : Robot τ} {w w' : Simulateur τ} (hs : Equipe s)
    (hnum : s.numRobot = numero r) {position type : ℤ} (htype : type = 0 ∨ type = 1)
    (hpos : position ∈ [1, 2, 3, 4])
    (h : executer (Robot.colorer position type) s w = .ok ((), s', w')) (c : Cellule τ) :
    signalements w' = signalements w ++
      signaux (vue (c.avec r s w)) (actionsColorer r position type (w.navettes.headD 66)) := by
  have hecrase : ∀ p : Pile, (messagesColorer s.numRobot type p).filter estSignalement =
      if type = 1 ∧ p ≠ Pile.vide then [.erreurLog 66 (numero r)] else [] := by
    intro p
    rw [messagesColorer, hnum]
    split_ifs <;> rfl
  have hgeste : ∀ (v : Vue τ) (nom : String), signaux v [geste r type nom] =
      if type = 1 ∧ v.pile nom ≠ Pile.vide then [.erreurLog 66 (numero r)] else [] := by
    intro v nom
    rcases htype with rfl | rfl <;> simp [geste, signaux, signal]
  -- A place that exists, with the task of a post stopped first.
  have hplace : ∀ (idNavette : ℤ) (w : Simulateur τ),
      executer (colorerPlace position type idNavette) s w = .ok ((), s', w') →
      signalements w' = signalements (traficInterrompu s w position) ++
        signaux (vue (c.avec r s w)) [geste r type (nomPlace s position idNavette)] := by
    intro idNavette w h
    rw [executer_colorerPlace s w position type idNavette hs] at h
    dsimp only at h
    rw [if_pos hpos] at h
    cases h
    rw [hgeste, signalements, List.filter_append, hecrase]
    rfl
  rw [executer_colorer] at h
  dsimp only at h
  rw [actionsColorer]
  split_ifs at h ⊢ with h23 h66
  · cases h
    rw [signalements, Simulateur.noter, List.filter_append]
    rfl
  · have hnt : traficInterrompu s { w with navettes := w.navettes.tail } position =
        { w with navettes := w.navettes.tail } := by
      rw [traficInterrompu, tacheInterrompue, decide_eq_false (by omega), Bool.false_and]
      rfl
    have h' := hplace _ _ h
    rw [hnt, nomPlace, if_pos h23] at h'
    exact h'
  · have h14 : position = 1 ∨ position = 4 := by simp at hpos; omega
    have harret : signalements (traficInterrompu s w position) = signalements w ++
        signal (vue (c.avec r s w)) (.arret r position) := by
      have hposte : (vue (c.avec r s w)).poste r position = s.poste position := by
        rw [vue_avec_poste, Function.update_self]
      have hnumero : (s.poste position).numeroPoste = (table r position).2 := by
        rw [(hs.poste position).numeroPoste, hnum, table]
      rw [traficInterrompu, tacheInterrompue, decide_eq_true h14, Bool.true_and, signal, hposte]
      split_ifs
      · rw [hnumero, hnum, signalements, Simulateur.noter, Simulateur.noter, List.filter_append,
          List.filter_append, List.append_assoc]
        refine congrArg _ ?_
        rw [codeRetour]
        split_ifs <;> rfl
      · rw [List.append_nil]
    rw [hplace _ _ h, nomPlace, if_neg h23, if_pos h14, harret, hnum, List.append_assoc]
    refine congrArg _ ?_
    change _ = signal _ _ ++ signaux ((vue (c.avec r s w)).apres (.arret r position)) [_]
    rw [hgeste, hgeste]
    rfl

/-- A move signals what its actions do. -/
theorem signalements_deplacerPiece {r : Fin 4} {s s' : Robot τ} {w w' : Simulateur τ} (hs : Equipe s)
    (hnum : s.numRobot = numero r) {msg : DeplacerPieceMsg} (hA : msg.positionA ∈ [1, 2, 3, 4])
    (hB : msg.positionB ∈ [1, 2, 3, 4]) (hmsg : numero r = msg.numRobot)
    (h : executer (deplacerPieceCallback msg) s w = .ok ((), s', w')) (c : Cellule τ) :
    signalements w' = signalements w ++ signaux (vue (c.avec r s w))
      (actionsColorer r msg.positionA 0 (w.navettes.headD 66) ++
        actionsColorer r msg.positionB 1 ((navettesApres msg.positionA w.navettes).headD 66)) := by
  obtain ⟨s₁, w₁, s₂, w₂, s₃, w₃, s₄, w₄, ⟨h₁, hm₁⟩, hprise, ⟨h₃, hm₃⟩, hpose, h₅, -⟩ :=
    executer_deplacerPiece_etapes (hnum.trans hmsg) h
  have he₁ := Effet.mouvement (r := r) hs hm₁
  have hnum₁ := he₁.numRobot.trans hnum
  obtain ⟨he₂, hnav₂⟩ := Effet.colorer he₁.equipe hnum₁ (Or.inl rfl) hA hprise
  have he₃ := Effet.mouvement (r := r) he₂.equipe hm₃
  have hnum₃ := he₃.numRobot.trans (he₂.numRobot.trans hnum₁)
  -- The placement sees what the pick has left.
  have hvue₃ : vue (c.avec r s₃ w₃) =
      (actionsColorer r msg.positionA 0 (w.navettes.headD 66)).foldl Vue.apres (vue (c.avec r s w)) := by
    rw [he₃.vue, he₂.vue, he₁.vue, hm₁.navettes]
    rfl
  rw [signalements_muet muet_revenir h₅,
    signalements_colorer he₃.equipe hnum₃ (Or.inr rfl) hB hpose c,
    signalements_muet (muet_transferer _) h₃,
    signalements_colorer he₁.equipe hnum₁ (Or.inl rfl) hA hprise c,
    signalements_muet (muet_approcher _) h₁, hvue₃, hm₃.navettes, hnav₂, he₁.vue, hm₁.navettes,
    signaux_append, List.append_assoc]
  rfl

/-! ## A move completes -/

/-- One more second ends the wait of the gripper. -/
def Avance (τ : Type) [Horloge τ] : Prop :=
  ∀ t : τ, Horloge.demiSeconde (Horloge.plus t 1) t = false

theorem executer_bougerPince_ok (hτ : Avance τ) (cmd code : ℤ) (s : Robot τ) (w : Simulateur τ) :
    ∃ s' w', executer (bougerPince cmd code) s w = .ok ((), s', w') := by
  have hatt : ∀ w : Simulateur τ, ∃ s' w', executer (attendrePince code) s w = .ok ((), s', w') := by
    intro w
    have htemps : Simulateur.attendre .getTime (fun time : τ => !Horloge.demiSeconde time w.temps) w
        = some { w with temps := Horloge.plus w.temps 1 } :=
      if_pos (congrArg (!·) (hτ w.temps))
    rw [attendrePince, executer_get_bind]
    split_ifs
    · rw [executer_demander_bind]
      exact ⟨_, _, (executer_bind_of_ok _ _ (executer_redemander s w htemps) _).trans
        (executer_retourner ..)⟩
    · exact ⟨_, _, rfl⟩
  obtain ⟨s₁, w₁, h₁⟩ := hatt (Simulateur.publier (.cmdPince s.numRobot cmd) w)
  exact ⟨_, _, by
    rw [bougerPince, executer_get_bind, executer_publish_bind, executer_bind_of_ok _ _ h₁,
      executer_publish]⟩

theorem executer_colorer_ok {s : Robot τ} (hs : Equipe s) (w : Simulateur τ) (position type : ℤ) :
    ∃ s' w', executer (colorer position type) s w = .ok ((), s', w') := by
  rw [executer_colorer]
  dsimp only
  split_ifs
  · exact ⟨_, _, rfl⟩
  · exact ⟨_, _, executer_colorerPlace s _ _ _ _ hs⟩
  · exact ⟨_, _, executer_colorerPlace s _ _ _ _ hs⟩

/-- A move completes as long as the clock goes on. -/
theorem executer_deplacerPiece_ok (hτ : Avance τ) {r : Fin 4} {s : Robot τ} (hs : Equipe s)
    (hnum : s.numRobot = numero r) {msg : DeplacerPieceMsg} (hA : msg.positionA ∈ [1, 2, 3, 4])
    (hmsg : numero r = msg.numRobot) (w : Simulateur τ) :
    ∃ s' w', executer (deplacerPieceCallback msg) s w = .ok ((), s', w') := by
  obtain ⟨s₁, w₁, h₁, hm₁⟩ := mouvement_approcher msg.positionA s w
  have he₁ := Effet.mouvement (r := r) hs hm₁
  obtain ⟨s₂, w₂, h₂⟩ := executer_colorer_ok he₁.equipe w₁ msg.positionA 0
  obtain ⟨he₂, -⟩ := Effet.colorer he₁.equipe (he₁.numRobot.trans hnum) (Or.inl rfl) hA h₂
  obtain ⟨s₃, w₃, h₃⟩ := executer_bougerPince_ok hτ 1 6 s₂ w₂
  obtain ⟨s₄, w₄, h₄, hm₄⟩ := mouvement_monterBras s₃ w₃
  obtain ⟨s₅, w₅, h₅, hm₅⟩ := mouvement_approcher msg.positionB s₄ w₄
  have hm₃ := (mouvement_bougerPince h₃).trans (hm₄.trans hm₅)
  have he₃ := Effet.mouvement (r := r) he₂.equipe hm₃
  obtain ⟨s₆, w₆, h₆⟩ := executer_colorer_ok he₃.equipe w₅ msg.positionB 1
  obtain ⟨s₇, w₇, h₇⟩ := executer_bougerPince_ok hτ 0 7 s₆ w₆
  obtain ⟨s₈, w₈, h₈, -⟩ := mouvement_monterBras s₇ w₇
  have htransfert : executer (transferer msg.positionB) s₂ w₂ = .ok ((), s₅, w₅) := by
    rw [transferer, fermerPince, executer_bind_of_ok _ _ h₃, executer_bind_of_ok _ _ h₄]
    exact h₅
  have hretour : executer revenir s₆ w₆ = .ok ((), { s₈ with retour := 10 },
      w₈.noter (.retourCommande s₈.numRobot 10)) := by
    rw [revenir, ouvrirPince, executer_bind_of_ok _ _ h₇, executer_bind_of_ok _ _ h₈,
      executer_retourner]
  exact ⟨_, _, by
    rw [deplacerPieceCallback_eq, executer_get_bind, if_pos (hnum.trans hmsg),
      executer_bind_of_ok _ _ h₁, executer_bind_of_ok _ _ h₂, executer_bind_of_ok _ _ htransfert,
      executer_bind_of_ok _ _ h₆, hretour]⟩

/-- The order of a move completes as long as the clock goes on. -/
theorem executerOrdre_deplacerPiece_ok (hτ : Avance τ) {c : Cellule τ} (hc : Equipee c) (r : Fin 4)
    {positionA : ℤ} (hA : positionA ∈ [1, 2, 3, 4]) (positionB : ℤ) (temps : τ) (navettes : List ℤ) :
    ∃ c', Cellule.executerOrdre (.deplacerPiece r ⟨numero r, positionA, positionB⟩ temps navettes) c =
      .ok (.rien, c') := by
  let msg : DeplacerPieceMsg := ⟨numero r, positionA, positionB⟩
  have hA' : msg.positionA ∈ [1, 2, 3, 4] := hA
  obtain ⟨s', w', hex⟩ := executer_deplacerPiece_ok hτ (hc.equipe r) (hc.numRobot r) hA' rfl
    ((c.aTemps temps).avecNavettes navettes).sim
  refine ⟨c.avec r s' w', ?_⟩
  rw [Cellule.executerOrdre, Cellule.surRobot]
  exact congrArg (fun x => Except.map _ (Except.map _ x)) hex

/-! ## The places of a move -/

section Places

omit [Horloge τ]

/-- The positions on the track. -/
abbrev SurPiste (position : ℤ) : Prop := position = 2 ∨ position = 3

/-- The shuttle that is looked up at a position, `66` when there is none; the positions on the track
set `num_capteur` anew, so its last value does not matter. -/
def navetteDe (g : Shuttles.ShuttleManager) (r : Fin 4) (position : ℤ) : ℤ :=
  ((Shuttles.shuttleAtPoste g 0 (numero r) position).toOption).getD 66

/-- The answers of the shuttle manager during a move. -/
def navettesDe (g : Shuttles.ShuttleManager) (r : Fin 4) (positionA positionB : ℤ) : List ℤ :=
  ([positionA, positionB].filter fun position => SurPiste position).map (navetteDe g r)

/-- The place at a position: the shuttle that is looked up, or the table of the post. -/
def nomLieu (g : Shuttles.ShuttleManager) (r : Fin 4) (position : ℤ) : String :=
  if SurPiste position then nomNavette (navetteDe g r position) else (table r position).1

/-- There is a place at a position. -/
def LieuPresent (g : Shuttles.ShuttleManager) (r : Fin 4) (position : ℤ) : Prop :=
  SurPiste position → navetteDe g r position ≠ 66

section Lieux

variable {g : Shuttles.ShuttleManager} {r : Fin 4}

/-- The first answer goes to the pick when it is on the track. -/
theorem actionsColorer_prise (positionA positionB type : ℤ) :
    (actionsColorer r positionA type ((navettesDe g r positionA positionB).headD 66) : List (Action τ)) =
      actionsColorer r positionA type (navetteDe g r positionA) := by
  by_cases hA : SurPiste positionA
  · rw [navettesDe, List.filter_cons_of_pos (by simpa using hA)]
    rfl
  · rw [actionsColorer, actionsColorer, if_neg hA, if_neg hA]

/-- The next one goes to the placement. -/
theorem actionsColorer_pose (positionA positionB type : ℤ) :
    (actionsColorer r positionB type
      ((navettesApres positionA (navettesDe g r positionA positionB)).headD 66) : List (Action τ)) =
      actionsColorer r positionB type (navetteDe g r positionB) := by
  by_cases hB : SurPiste positionB
  · have hsuite : navettesApres positionA (navettesDe g r positionA positionB) =
        [navetteDe g r positionB] := by
      by_cases hA : SurPiste positionA
      · rw [navettesApres, if_pos hA, navettesDe, List.filter_cons_of_pos (by simpa using hA),
          List.filter_cons_of_pos (by simpa using hB)]
        rfl
      · rw [navettesApres, if_neg hA, navettesDe, List.filter_cons_of_neg (by simpa using hA),
          List.filter_cons_of_pos (by simpa using hB)]
        rfl
    rw [hsuite, List.headD_cons]
  · rw [actionsColorer, actionsColorer, if_neg hB, if_neg hB]

/-- The stop of a task comes first, at a post. -/
def arretDe (r : Fin 4) (position : ℤ) : List (Action τ) :=
  if SurPiste position then [] else [.arret r position]

/-- `Colorer` where there is a place. -/
theorem actionsColorer_present {position : ℤ} (h : LieuPresent g r position) (type : ℤ) :
    (actionsColorer r position type (navetteDe g r position) : List (Action τ)) =
      arretDe r position ++ [geste r type (nomLieu g r position)] := by
  rw [actionsColorer, arretDe, nomLieu]
  by_cases hp : SurPiste position
  · rw [if_pos hp, if_pos hp, if_pos hp, if_neg (h hp), List.nil_append]
  · rw [if_neg hp, if_neg hp, if_neg hp]
    rfl

/-- `Colorer` where there is none. -/
theorem actionsColorer_absent {position : ℤ} (h : ¬LieuPresent g r position) (type : ℤ) :
    (actionsColorer r position type (navetteDe g r position) : List (Action τ)) = [.chute r] := by
  obtain ⟨hp, h66⟩ := Classical.not_imp.1 h
  rw [actionsColorer, if_pos hp, if_pos (not_not.1 h66)]

/-- The actions of a move. -/
theorem actions_deplacerPiece (positionA positionB : ℤ) (temps : τ) (v : Vue τ) [Horloge τ] :
    actions (.deplacerPiece r ⟨numero r, positionA, positionB⟩ temps
        (navettesDe g r positionA positionB)) v =
      actionsColorer r positionA 0 (navetteDe g r positionA) ++
        actionsColorer r positionB 1 (navetteDe g r positionB) := by
  rw [actions, if_pos rfl, actionsColorer_prise, actionsColorer_pose]

variable {nbNavette : ℕ} {images : List Capteurs}

/-- The shuttle that is looked up stands at the head of a section. -/
theorem mem_files_navetteDe (hg : Shuttles.executer nbNavette images = .ok g) {position : ℤ}
    (hpos : SurPiste position) (h : navetteDe g r position ≠ 66) :
    navetteDe g r position ∈ Shuttles.files g.listeFile (Shuttles.numCapteur 0 (numero r) position) := by
  obtain ⟨g', hg', hinv⟩ := Shuttles.executer_spec nbNavette images
  cases hg.symm.trans hg'
  have hcapteur : 1 ≤ Shuttles.numCapteur 0 (numero r) position ∧
      Shuttles.numCapteur 0 (numero r) position ≤ 34 := by
    have key : ∀ r : Fin 4, ∀ position ∈ ([2, 3] : List ℤ),
        1 ≤ Shuttles.numCapteur 0 (numero r) position ∧
          Shuttles.numCapteur 0 (numero r) position ≤ 34 := by decide
    exact key r position (by simpa using hpos)
  rw [navetteDe, Shuttles.shuttleAtPoste_eq hinv rfl hcapteur.1 hcapteur.2] at h ⊢
  cases hq : Shuttles.files g.listeFile (Shuttles.numCapteur 0 (numero r) position) with
  | nil => simp [hq, Except.toOption] at h
  | cons navette reste => simp [Except.toOption]

/-- Two positions of the track name two shuttles. -/
theorem navetteDe_injective (hg : Shuttles.executer nbNavette images = .ok g) {positionA positionB : ℤ}
    (hA : SurPiste positionA) (hB : SurPiste positionB) (hpresent : navetteDe g r positionA ≠ 66)
    (h : navetteDe g r positionA = navetteDe g r positionB) : positionA = positionB := by
  obtain ⟨g', hg', hinv⟩ := Shuttles.executer_spec nbNavette images
  cases hg.symm.trans hg'
  have hmemA := mem_files_navetteDe hg hA hpresent
  have hmemB := mem_files_navetteDe hg hB (h ▸ hpresent)
  have key : ∀ r : Fin 4, ∀ positionA ∈ ([2, 3] : List ℤ), ∀ positionB ∈ ([2, 3] : List ℤ),
      Shuttles.numCapteur 0 (numero r) positionA = Shuttles.numCapteur 0 (numero r) positionB →
        positionA = positionB := by decide
  exact key r positionA (by simpa using hA) positionB (by simpa using hB)
    (Shuttles.section_unique hinv.nodup hmemA (h ▸ hmemB))

theorem navetteDe_range (hg : Shuttles.executer nbNavette images = .ok g) {position : ℤ}
    (h : navetteDe g r position ≠ 66) : 0 ≤ navetteDe g r position ∧ navetteDe g r position ≤ 5 := by
  cases hid : Shuttles.shuttleAtPoste g 0 (numero r) position with
  | error e => simp [navetteDe, hid, Except.toOption] at h
  | ok id =>
    have heq : navetteDe g r position = id := by simp [navetteDe, hid, Except.toOption]
    rw [heq] at h ⊢
    exact (Shuttles.shuttleAtPoste_range hg hid).resolve_left h

theorem nomNavette_injective {n m : ℤ} (hn : 0 ≤ n ∧ n ≤ 5) (hm : 0 ≤ m ∧ m ≤ 5)
    (h : nomNavette n = nomNavette m) : n = m := by
  have key : ∀ n ∈ ([0, 1, 2, 3, 4, 5] : List ℤ), ∀ m ∈ ([0, 1, 2, 3, 4, 5] : List ℤ),
      nomNavette n = nomNavette m → n = m := by decide
  exact key n (by simp; omega) m (by simp; omega) h

/-- Two positions of a robot are two places. -/
theorem nomLieu_ne (hg : Shuttles.executer nbNavette images = .ok g) {positionA positionB : ℤ}
    (hA : positionA ∈ [1, 2, 3, 4]) (hB : positionB ∈ [1, 2, 3, 4]) (hne : positionA ≠ positionB)
    (hlieuA : LieuPresent g r positionA) (hlieuB : LieuPresent g r positionB) :
    nomLieu g r positionA ≠ nomLieu g r positionB := by
  have hposte : ∀ {position : ℤ}, position ∈ [1, 2, 3, 4] → ¬SurPiste position →
      position = 1 ∨ position = 4 := by
    intro position hpos hp
    simp only [List.mem_cons, List.not_mem_nil, or_false] at hpos
    omega
  rw [nomLieu, nomLieu]
  split_ifs with hpA hpB hpB
  · intro h
    have hid := nomNavette_injective (navetteDe_range hg (hlieuA hpA))
      (navetteDe_range hg (hlieuB hpB)) h
    exact hne (navetteDe_injective hg hpA hpB (hlieuA hpA) hid)
  · exact fun h => table_ne_nomNavette r (hposte hB hpB) _ h.symm
  · exact table_ne_nomNavette r (hposte hA hpA) _
  · exact fun h => hne (table_injective (hposte hA hpA) (hposte hB hpB) h).2

end Lieux

/-! ## What the actions of a move do -/

/-- The actions of a move between two places. -/
def gestes (r : Fin 4) (positionA positionB : ℤ) (nomA nomB : String) : List (Action τ) :=
  (arretDe r positionA ++ [.prise r nomA]) ++ (arretDe r positionB ++ [.pose r nomB])

/-- A move from a place to a place. -/
theorem actions_gestes [Horloge τ] {g : Shuttles.ShuttleManager} {r : Fin 4} {positionA positionB : ℤ}
    (hlieuA : LieuPresent g r positionA) (hlieuB : LieuPresent g r positionB) (temps : τ) (v : Vue τ) :
    actions (.deplacerPiece r ⟨numero r, positionA, positionB⟩ temps
        (navettesDe g r positionA positionB)) v =
      gestes r positionA positionB (nomLieu g r positionA) (nomLieu g r positionB) := by
  rw [actions_deplacerPiece, actionsColorer_present hlieuA, actionsColorer_present hlieuB]
  rfl

/-- What is signalled when the task of a post is stopped. -/
def arrets (r : Fin 4) (position : ℤ) (p : Poste τ) : List Message :=
  if ¬SurPiste position ∧ p.taskEnCours then
    [.erreurLog 3 (table r position).2, .retourCommande (numero r) (codeRetour position)]
  else []

theorem arrets_piste {r : Fin 4} {position : ℤ} (h : SurPiste position) (p : Poste τ) :
    arrets r position p = [] :=
  if_neg fun h' => h'.1 h

section Gestes

variable (v : Vue τ) (r : Fin 4) {position positionA positionB : ℤ} (nomA nomB : String)

@[simp] theorem pile_arretDe : ((arretDe r position).foldl Vue.apres v).pile = v.pile := by
  rw [arretDe]
  split <;> rfl

@[simp] theorem pince_arretDe : ((arretDe r position).foldl Vue.apres v).pince = v.pince := by
  rw [arretDe]
  split <;> rfl

theorem poste_arretDe (hpos : position ∈ [1, 2, 3, 4]) {autre : ℤ} (hautre : autre = 1 ∨ autre = 4) :
    ((arretDe r position).foldl Vue.apres v).poste r autre =
      if autre = position then (v.poste r autre).stopTask else v.poste r autre := by
  simp only [List.mem_cons, List.not_mem_nil, or_false] at hpos
  rw [arretDe]
  by_cases hp : SurPiste position
  · rw [if_pos hp, if_neg (by omega)]
    rfl
  · rw [if_neg hp, List.foldl_cons, List.foldl_nil, Vue.apres, Vue.setPoste]
    dsimp only
    rw [Function.update_self]
    by_cases h : autre = position
    · rw [if_pos h, if_pos (by rw [h]), h]
    · rw [if_neg h, if_neg (by omega)]

theorem signaux_arretDe : signaux v (arretDe r position) = arrets r position (v.poste r position) := by
  rw [arretDe, arrets]
  by_cases hp : SurPiste position
  · rw [if_pos hp, if_neg fun h => h.1 hp]
    rfl
  · rw [if_neg hp, signaux, signaux, List.append_nil, signal]
    simp only [hp, not_false_eq_true, true_and]

theorem pile_gestes : ((gestes r positionA positionB nomA nomB).foldl Vue.apres v).pile =
    Function.update (Function.update v.pile nomA (v.pince r)) nomB (v.pile nomA) := by
  simp [gestes, List.foldl_append, Vue.apres, Vue.peindre, Vue.tenir, Vue.ecraser]

theorem pince_gestes : ((gestes r positionA positionB nomA nomB).foldl Vue.apres v).pince r =
    Pile.vide := by
  simp [gestes, List.foldl_append, Vue.apres, Vue.peindre, Vue.tenir, Vue.ecraser]

theorem poste_gestes (hA : positionA ∈ [1, 2, 3, 4]) (hB : positionB ∈ [1, 2, 3, 4])
    (hpos : position = 1 ∨ position = 4) :
    ((gestes r positionA positionB nomA nomB).foldl Vue.apres v).poste r position =
      if position = positionA ∨ position = positionB then (v.poste r position).stopTask
      else v.poste r position := by
  simp only [gestes, List.foldl_append, List.foldl_cons, List.foldl_nil]
  change ((arretDe r positionB).foldl Vue.apres _).poste r position = _
  rw [poste_arretDe _ r hB hpos]
  change (if position = positionB then
    (((arretDe r positionA).foldl Vue.apres v).poste r position).stopTask
    else ((arretDe r positionA).foldl Vue.apres v).poste r position) = _
  rw [poste_arretDe v r hA hpos]
  split_ifs with hpB hpA hor hor hor hor
  all_goals first | rfl | omega

theorem signaux_gestes (hA : positionA ∈ [1, 2, 3, 4]) (hB : positionB ∈ [1, 2, 3, 4]) :
    signaux v (gestes r positionA positionB nomA nomB) = arrets r positionA (v.poste r positionA) ++
      ((if positionA = positionB then [] else arrets r positionB (v.poste r positionB)) ++
        if Function.update v.pile nomA (v.pince r) nomB ≠ Pile.vide then [.erreurLog 66 (numero r)]
        else []) := by
  set vA := (arretDe r positionA ++ [Action.prise r nomA]).foldl Vue.apres v with hvA
  have hpose : signaux ((arretDe r positionB).foldl Vue.apres vA) [.pose r nomB] =
      if Function.update v.pile nomA (v.pince r) nomB ≠ Pile.vide then [.erreurLog 66 (numero r)]
      else [] := by
    rw [signaux, signaux, List.append_nil, signal, pile_arretDe, hvA, List.foldl_append]
    simp [Vue.apres, Vue.peindre, Vue.tenir]
  -- The task of a post is stopped once, even when the piece is put back there.
  have hposeB : arrets r positionB (vA.poste r positionB) =
      if positionA = positionB then [] else arrets r positionB (v.poste r positionB) := by
    by_cases hB14 : positionB = 1 ∨ positionB = 4
    · have hposte : vA.poste r positionB = if positionB = positionA then (v.poste r positionB).stopTask
          else v.poste r positionB := by
        rw [hvA, List.foldl_append]
        exact poste_arretDe v r hA hB14
      rw [hposte]
      by_cases hAB : positionA = positionB
      · rw [if_pos hAB.symm, if_pos hAB, arrets, if_neg fun h => by simpa using h.2]
      · rw [if_neg fun h => hAB h.symm, if_neg hAB]
    · have hpiste : SurPiste positionB := by
        simp only [List.mem_cons, List.not_mem_nil, or_false] at hB
        omega
      rw [arrets_piste hpiste, arrets_piste hpiste, ite_self]
  have hprise : signaux ((arretDe r positionA).foldl Vue.apres v) [.prise r nomA] = [] := rfl
  rw [gestes, signaux_append, signaux_append, signaux_append, signaux_arretDe, signaux_arretDe, hprise,
    List.append_nil, hpose, hposeB]

end Gestes

/-! ## A move -/

/-- What a move does to the cell. -/
structure PileDeplacee (g : Shuttles.ShuttleManager) (r : Fin 4) (positionA positionB : ℤ)
    (c c' : Cellule τ) : Prop where
  arrivee : positionA ≠ positionB →
    c'.sim.couleur (nomLieu g r positionB) = c.sim.couleur (nomLieu g r positionA)
  depart : positionA ≠ positionB → c'.sim.couleur (nomLieu g r positionA) = Pile.vide
  surPlace : positionA = positionB →
    c'.sim.couleur (nomLieu g r positionA) = c.sim.couleur (nomLieu g r positionA)
  autres : ∀ nom, nom ≠ nomLieu g r positionA → nom ≠ nomLieu g r positionB →
    c'.sim.couleur nom = c.sim.couleur nom
  pince : (c'.robot r).couleurTransportee = Pile.vide
  robots : ∀ r', r' ≠ r → c'.robot r' = c.robot r'
  postes : ∀ position, position = 1 ∨ position = 4 → (c'.robot r).poste position =
    if position = positionA ∨ position = positionB then ((c.robot r).poste position).stopTask
    else (c.robot r).poste position
  signalements : ∃ ms, c'.sim.journal = c.sim.journal ++ ms ∧ ms.filter estSignalement =
    arrets r positionA ((c.robot r).poste positionA) ++
      if positionA = positionB then [] else arrets r positionB ((c.robot r).poste positionB) ++
        if c.sim.couleur (nomLieu g r positionB) ≠ Pile.vide then [.erreurLog 66 (numero r)] else []

end Places

/-- A move that completes, run by its robot. -/
theorem executerOrdre_deplacerPiece_inv {c c' : Cellule τ} {r : Fin 4} {msg : DeplacerPieceMsg}
    {temps : τ} {navettes : List ℤ} {res : Resultat}
    (h : Cellule.executerOrdre (.deplacerPiece r msg temps navettes) c = .ok (res, c')) :
    ∃ s' w', executer (deplacerPieceCallback msg) (c.robot r)
      ((c.aTemps temps).avecNavettes navettes).sim = .ok ((), s', w') ∧ c' = c.avec r s' w' := by
  obtain ⟨_, s', w', hex, hres⟩ := surRobot_map_inv h
  cases hres
  exact ⟨s', w', hex, rfl⟩

/-- The journal of a move between two places. -/
theorem journal_gestes {c c' : Cellule τ} (hc : Equipee c) {g : Shuttles.ShuttleManager} {r : Fin 4}
    {positionA positionB : ℤ} (hA : positionA ∈ [1, 2, 3, 4]) (hB : positionB ∈ [1, 2, 3, 4])
    (hlieuA : LieuPresent g r positionA) (hlieuB : LieuPresent g r positionB) {temps : τ}
    {res : Resultat}
    (h : Cellule.executerOrdre (.deplacerPiece r ⟨numero r, positionA, positionB⟩ temps
      (navettesDe g r positionA positionB)) c = .ok (res, c')) :
    ∃ ms, c'.sim.journal = c.sim.journal ++ ms ∧ ms.filter estSignalement =
      signaux (vue c) (gestes r positionA positionB (nomLieu g r positionA) (nomLieu g r positionB)) := by
  obtain ⟨ms, hms⟩ := journal_executerOrdre h
  obtain ⟨s', w', hex, rfl⟩ := executerOrdre_deplacerPiece_inv h
  have hsignaux := signalements_deplacerPiece (hc.equipe r) (hc.numRobot r) hA hB rfl hex c
  have hvue : vue (c.avec r (c.robot r)
      ((c.aTemps temps).avecNavettes (navettesDe g r positionA positionB)).sim) = vue c := by
    rw [avec_self]
    rfl
  -- the answers of the shuttle manager are those for the two places
  have hactions : actionsColorer r positionA 0 ((navettesDe g r positionA positionB).headD 66) ++
      actionsColorer r positionB 1
        ((navettesApres positionA (navettesDe g r positionA positionB)).headD 66) =
      (gestes r positionA positionB (nomLieu g r positionA) (nomLieu g r positionB) : List (Action τ)) := by
    rw [actionsColorer_prise, actionsColorer_pose, actionsColorer_present hlieuA,
      actionsColorer_present hlieuB]
    rfl
  refine ⟨ms, hms.symm, ?_⟩
  change w'.journal.filter estSignalement = c.sim.journal.filter estSignalement ++ signaux _
    (actionsColorer r positionA 0 ((navettesDe g r positionA positionB).headD 66) ++ actionsColorer r
      positionB 1 ((navettesApres positionA (navettesDe g r positionA positionB)).headD 66)) at hsignaux
  change c.sim.journal ++ ms = w'.journal at hms
  rw [hvue, hactions, ← hms, List.filter_append] at hsignaux
  exact List.append_cancel_left hsignaux

/-- **A move takes one stack from a place to another**, from every state of the cell and of the
shuttle manager in which the gripper is empty and both places are there. Every move completes as
long as the clock goes on. -/
theorem deplacerPiece_deplace {nbNavette : ℕ} {images : List Capteurs} {g : Shuttles.ShuttleManager}
    (hg : Shuttles.executer nbNavette images = .ok g) {c : Cellule τ} (hc : Equipee c) {r : Fin 4}
    (hpince : (c.robot r).couleurTransportee = Pile.vide) {positionA positionB : ℤ}
    (hA : positionA ∈ [1, 2, 3, 4]) (hB : positionB ∈ [1, 2, 3, 4])
    (hlieuA : LieuPresent g r positionA) (hlieuB : LieuPresent g r positionB) (temps : τ) :
    (∀ res c', Cellule.executerOrdre (.deplacerPiece r ⟨numero r, positionA, positionB⟩ temps
        (navettesDe g r positionA positionB)) c = .ok (res, c') →
      PileDeplacee g r positionA positionB c c') ∧
    (Avance τ → ∃ c', Cellule.executerOrdre (.deplacerPiece r ⟨numero r, positionA, positionB⟩ temps
        (navettesDe g r positionA positionB)) c = .ok (.rien, c')) := by
  have ho : (Ordre.deplacerPiece r ⟨numero r, positionA, positionB⟩ temps
      (navettesDe g r positionA positionB)).Valide := ⟨hA, hB⟩
  refine ⟨fun res c' h => ?_, fun hτ => ?_⟩
  · obtain ⟨ms, hms, hsignaux⟩ := journal_gestes hc hA hB hlieuA hlieuB h
    obtain ⟨-, hvue, -⟩ := executerOrdre_vue hc ho h
    rw [actions_gestes hlieuA hlieuB] at hvue
    -- the gripper was empty, so the place of the pick is left empty
    have hpiles : c'.sim.couleur = Function.update (Function.update c.sim.couleur
        (nomLieu g r positionA) Pile.vide) (nomLieu g r positionB)
        (c.sim.couleur (nomLieu g r positionA)) := by
      have hpile : ((gestes r positionA positionB (nomLieu g r positionA)
          (nomLieu g r positionB)).foldl Vue.apres (vue c)).pile = _ := pile_gestes ..
      rw [← hvue] at hpile
      change c'.sim.couleur = Function.update (Function.update c.sim.couleur _
        (c.robot r).couleurTransportee) _ _ at hpile
      rwa [hpince] at hpile
    refine ⟨?_, ?_, ?_, ?_, ?_, ?_, ?_, ms, hms, ?_⟩
    · intro _
      rw [hpiles, Function.update_self]
    · intro hne
      rw [hpiles, Function.update_of_ne (nomLieu_ne hg hA hB hne hlieuA hlieuB), Function.update_self]
    · rintro rfl
      rw [hpiles, Function.update_self]
    · intro nom hnomA hnomB
      rw [hpiles, Function.update_of_ne hnomB, Function.update_of_ne hnomA]
    · exact (congrFun (congrArg Vue.pince hvue) r).trans (pince_gestes ..)
    · intro r' hr
      obtain ⟨s', w', -, rfl⟩ := executerOrdre_deplacerPiece_inv h
      exact Function.update_of_ne hr _ _
    · intro position hpos
      have hposte := poste_gestes (vue c) r (nomLieu g r positionA) (nomLieu g r positionB) hA hB hpos
      rw [← hvue] at hposte
      exact hposte
    · rw [hsignaux, signaux_gestes _ _ _ _ hA hB]
      refine congrArg _ ?_
      -- a stack is covered at the second place, unless it is the first one, just emptied
      change _ ++ (if Function.update c.sim.couleur (nomLieu g r positionA)
        (c.robot r).couleurTransportee (nomLieu g r positionB) ≠ Pile.vide then _ else _) = _
      rw [hpince]
      by_cases hAB : positionA = positionB
      · subst hAB
        rw [if_pos rfl, if_pos rfl, Function.update_self, if_neg (not_not.2 rfl)]
        rfl
      · have hne := nomLieu_ne hg hA hB hAB hlieuA hlieuB
        rw [if_neg hAB, if_neg hAB, Function.update_of_ne hne.symm]
        rfl
  · exact executerOrdre_deplacerPiece_ok hτ hc r hA positionB temps _

omit [Horloge τ] in
/-- The clock in whole seconds goes on. -/
theorem avance_int : Avance ℤ := by
  intro t
  change decide (2 * (t + 1 - t) < 1) = false
  rw [add_sub_cancel_left]
  rfl

/-- A product on the shuttle that stands before post 3 at the start. -/
def celluleNavette : Cellule ℤ :=
  Cellule.initiale (fun nom => if nom = "ShuttleZ" then Pile.ofList [14] else Pile.vide) 0

/-- It is moved to the post. -/
theorem deplacerPiece_deplace_navette : ∃ c', Cellule.executerOrdre (.deplacerPiece 1 ⟨numero 1, 3, 1⟩ 0
      (navettesDe (Shuttles.initial 6) 1 3 1)) celluleNavette = .ok (.rien, c') ∧
    PileDeplacee (Shuttles.initial 6) 1 3 1 celluleNavette c' := by
  have hpres : LieuPresent (Shuttles.initial 6) 1 3 := fun _ => by decide
  have hposte : LieuPresent (Shuttles.initial 6) 1 1 := fun h => absurd h (by decide)
  have hdeplace := deplacerPiece_deplace (rfl : Shuttles.executer 6 [] = .ok (Shuttles.initial 6))
    (c := celluleNavette) (equipee_initiale _ _) rfl (by simp) (by simp) hpres hposte 0
  obtain ⟨c', hc'⟩ := hdeplace.2 avance_int
  exact ⟨c', hc', hdeplace.1 _ c' hc'⟩

/-! ## A pick that finds nothing -/

/-- The stacks of the cell are as they were. -/
def PilesInchangees (c c' : Cellule τ) : Prop :=
  c'.sim.couleur = c.sim.couleur ∧
    ∀ r, (c'.robot r).couleurTransportee = (c.robot r).couleurTransportee

/-- There is nothing to pick or to cover at a position. -/
def RienEn (g : Shuttles.ShuttleManager) (c : Cellule τ) (r : Fin 4) (position : ℤ) : Prop :=
  ¬LieuPresent g r position ∨ c.sim.couleur (nomLieu g r position) = Pile.vide

section Echec

variable {g : Shuttles.ShuttleManager} {r : Fin 4} {v : Vue τ} {position : ℤ}

omit [Horloge τ]

/-- A pick that finds nothing leaves the gripper empty. -/
theorem prise_rien (hpince : v.pince r = Pile.vide)
    (h : ¬LieuPresent g r position ∨ v.pile (nomLieu g r position) = Pile.vide) :
    ((actionsColorer r position 0 (navetteDe g r position)).foldl Vue.apres v).pile = v.pile ∧
      ((actionsColorer r position 0 (navetteDe g r position)).foldl Vue.apres v).pince = v.pince := by
  by_cases hlieu : LieuPresent g r position
  · have hvide := h.resolve_left (not_not.2 hlieu)
    rw [actionsColorer_present hlieu, geste, if_pos rfl, List.foldl_append]
    constructor
    · simp [Vue.apres, Vue.peindre, Vue.tenir, hpince, ← hvide]
    · simp [Vue.apres, Vue.peindre, Vue.tenir, hvide, ← hpince]
  · rw [actionsColorer_absent hlieu]
    exact ⟨rfl, by simp [Vue.apres, Vue.tenir, ← hpince]⟩

/-- A placement with an empty gripper clears the place. -/
theorem pose_rien (hpince : v.pince r = Pile.vide) :
    ((actionsColorer r position 1 (navetteDe g r position)).foldl Vue.apres v).pince = v.pince ∧
      (((actionsColorer r position 1 (navetteDe g r position)).foldl Vue.apres v).pile = v.pile ↔
        ¬LieuPresent g r position ∨ v.pile (nomLieu g r position) = Pile.vide) := by
  by_cases hlieu : LieuPresent g r position
  · rw [actionsColorer_present hlieu, geste, if_neg one_ne_zero, List.foldl_append]
    constructor
    · simp [Vue.apres, Vue.peindre, Vue.tenir, Vue.ecraser, ← hpince]
    · simp [Vue.apres, Vue.peindre, Vue.tenir, Vue.ecraser, hpince, hlieu, eq_comm]
  · rw [actionsColorer_absent hlieu]
    exact ⟨by simp [Vue.apres, Vue.tenir, ← hpince], iff_of_true rfl (.inl hlieu)⟩

end Echec

/-- **A pick that finds nothing leaves the stacks as they are**, exactly when the placement that
follows it finds nothing to cover. -/
theorem prise_echouee_iff {g : Shuttles.ShuttleManager} {c c' : Cellule τ} (hc : Equipee c) {r : Fin 4}
    (hpince : (c.robot r).couleurTransportee = Pile.vide) {positionA positionB : ℤ}
    (hA : positionA ∈ [1, 2, 3, 4]) (hB : positionB ∈ [1, 2, 3, 4]) (hechec : RienEn g c r positionA)
    {temps : τ} {res : Resultat}
    (h : Cellule.executerOrdre (.deplacerPiece r ⟨numero r, positionA, positionB⟩ temps
      (navettesDe g r positionA positionB)) c = .ok (res, c')) :
    PilesInchangees c c' ↔ RienEn g c r positionB := by
  have ho : (Ordre.deplacerPiece r ⟨numero r, positionA, positionB⟩ temps
      (navettesDe g r positionA positionB)).Valide := ⟨hA, hB⟩
  obtain ⟨-, hvue, -⟩ := executerOrdre_vue hc ho h
  rw [actions_deplacerPiece, List.foldl_append] at hvue
  obtain ⟨hpile₁, hpince₁⟩ := prise_rien (v := vue c) hpince hechec
  set v₁ := (actionsColorer r positionA 0 (navetteDe g r positionA)).foldl Vue.apres (vue c)
  have hvide : v₁.pince r = Pile.vide := (congrFun hpince₁ r).trans hpince
  obtain ⟨hpince₂, hpile₂⟩ := pose_rien (g := g) hvide
  rw [← hvue, hpince₁] at hpince₂
  rw [← hvue, hpile₁] at hpile₂
  exact ⟨fun h => hpile₂.1 h.1, fun h => ⟨hpile₂.2 h, congrFun hpince₂⟩⟩

/-- A product on post 1. -/
def celluleProduit : Cellule ℤ :=
  Cellule.initiale (fun nom => if nom = "Table#0" then Pile.ofList [14] else Pile.vide) 0

/-- No shuttle stands before robot 1 at the start, and nothing on post 2 either. -/
theorem prise_echouee_iff_posteVide : ∃ c', Cellule.executerOrdre
      (.deplacerPiece 0 ⟨numero 0, 2, 1⟩ 0 (navettesDe (Shuttles.initial 6) 0 2 1)) celluleProduit =
        .ok (.rien, c') ∧
    PilesInchangees celluleProduit c' := by
  have hA : (2 : ℤ) ∈ [1, 2, 3, 4] := by simp
  obtain ⟨c', hc'⟩ := executerOrdre_deplacerPiece_ok avance_int (equipee_initiale _ _) 0 hA 1 0
    (navettesDe (Shuttles.initial 6) 0 2 1)
  have hrienA : RienEn (Shuttles.initial 6) celluleProduit 0 2 := .inl fun h => h (.inl rfl) rfl
  have hrienB : RienEn (Shuttles.initial 6) celluleProduit 0 1 := .inr (by decide)
  exact ⟨c', hc', (prise_echouee_iff (equipee_initiale _ _) rfl (by simp) (by simp) hrienA hc').2 hrienB⟩

/-- **A pick that finds no shuttle clears the post where it would have placed.** -/
theorem prise_echouee_efface : ∃ c', Shuttles.executer 6 [] = .ok (Shuttles.initial 6) ∧
    Equipee celluleProduit ∧ (celluleProduit.robot 0).couleurTransportee = Pile.vide ∧
    RienEn (Shuttles.initial 6) celluleProduit 0 2 ∧
    Cellule.executerOrdre (.deplacerPiece 0 ⟨numero 0, 2, 4⟩ 0
      (navettesDe (Shuttles.initial 6) 0 2 4)) celluleProduit = .ok (.rien, c') ∧
    ¬PilesInchangees celluleProduit c' := by
  have hA : (2 : ℤ) ∈ [1, 2, 3, 4] := by simp
  obtain ⟨c', hc'⟩ := executerOrdre_deplacerPiece_ok avance_int (c := celluleProduit)
    (equipee_initiale _ _) 0 hA 4 0 (navettesDe (Shuttles.initial 6) 0 2 4)
  have hefface : (Cellule.executerOrdre (.deplacerPiece 0 ⟨numero 0, 2, 4⟩ 0
      (navettesDe (Shuttles.initial 6) 0 2 4)) celluleProduit).map
        (fun x => (x.2.sim.couleur "Table#0").base) = .ok 0 := by decide +kernel
  refine ⟨c', rfl, equipee_initiale _ _, rfl, .inl fun h => h (.inl rfl) rfl, hc', fun h => ?_⟩
  have hreste : (c'.sim.couleur "Table#0").base = 14 := by
    rw [h.1]
    decide
  have heq := congrArg (Except.map fun x => (x.2.sim.couleur "Table#0").base) hc'
  rw [hefface] at heq
  have hzero : (0 : ℤ) = (c'.sim.couleur "Table#0").base := Except.ok.inj heq
  rw [hreste] at hzero
  exact absurd hzero (by decide)

end Atelier
