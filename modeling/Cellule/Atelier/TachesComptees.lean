import Cellule.Atelier.Recit

/-! # Every started task is accounted for

A task that has started is finished and announced, stopped, or still running, as long as no other
task starts on its post meanwhile: a post keeps one start time and one duration, and
`faireTacheCallback` writes the new ones over those of the task that is running.
-/

namespace Atelier

open Reactive Reactive.Prog Robots Robots.Robot
open Vue (table)

variable {τ : Type}

/-! ## Counting tasks -/

section Comptes

variable (r : Fin 4) (position : ℤ) (recit : List (Etape τ))

/-- The messages published during a run. -/
def publies : List Message := recit.flatMap Etape.messages

/-- The tasks started on the post. -/
def demarrees : ℕ := recit.countP fun e => e.demarre r position

/-- A message says that a task of the post is finished. -/
def finDuPoste : Message → Bool
  | .tacheFinie n _ _ => n == (table r position).2
  | _ => false

/-- The ends of tasks published for the post. -/
def finies : ℕ := (publies recit).countP (finDuPoste r position)

/-- The running tasks of the post that were interrupted: by a `StopTache`, or by `Colorer` and its
code 3. -/
def interrompues : ℕ :=
  (recit.countP fun e => e.recoitStop r position && (e.posteAvant r position).taskEnCours) +
    (publies recit).count (.erreurLog 3 (table r position).2)

/-- The running tasks over which another one has started. -/
def remplacees : ℕ :=
  recit.countP fun e => e.demarre r position && (e.posteAvant r position).taskEnCours

/-- Whether a task of the post is running. -/
def enCours (p : Poste τ) : ℕ := if p.taskEnCours then 1 else 0

end Comptes

@[simp] theorem enCours_debutTask (p : Poste τ) (temps : τ) (duree : ℤ) :
    enCours (p.debutTask temps duree) = 1 := rfl

@[simp] theorem enCours_stopTask (p : Poste τ) : enCours p.stopTask = 0 := rfl

section Ajout

variable (r : Fin 4) (position : ℤ) (recit recit' : List (Etape τ))

theorem publies_append : publies (recit ++ recit') = publies recit ++ publies recit' :=
  List.flatMap_append

theorem demarrees_append :
    demarrees r position (recit ++ recit') = demarrees r position recit + demarrees r position recit' :=
  List.countP_append

theorem finies_append :
    finies r position (recit ++ recit') = finies r position recit + finies r position recit' := by
  rw [finies, publies_append, List.countP_append]
  rfl

theorem interrompues_append : interrompues r position (recit ++ recit') =
    interrompues r position recit + interrompues r position recit' := by
  simp only [interrompues, publies_append, List.countP_append, List.count_append]
  omega

theorem remplacees_append : remplacees r position (recit ++ recit') =
    remplacees r position recit + remplacees r position recit' :=
  List.countP_append

end Ajout

/-! ## The balance -/

section Bilan

variable {r : Fin 4} {position : ℤ} {e : Etape τ}

/-- The ends of tasks of a step are among what it announces about the post. -/
theorem finies_singleton :
    finies r position [e] = (e.annoncesDe r position).countP (finDuPoste r position) := by
  rw [finies, publies, List.flatMap_singleton, Etape.annoncesDe, List.countP_filter]
  refine List.countP_congr fun m _ => ?_
  cases m <;> simp [finDuPoste, concerne]

theorem interrompues_singleton : interrompues r position [e] =
    (if e.recoitStop r position && (e.posteAvant r position).taskEnCours then 1 else 0) +
      (e.annoncesDe r position).count (.erreurLog 3 (table r position).2) := by
  rw [interrompues, publies, List.flatMap_singleton, Etape.annoncesDe,
    List.count_filter (by simp [concerne]), List.countP_singleton]

variable [Horloge τ]

/-- The balance of one step. -/
theorem compte_etape (h : Devenir r position e) :
    demarrees r position [e] + enCours (e.posteAvant r position) =
      finies r position [e] + interrompues r position [e] + remplacees r position [e] +
        enCours (e.posteApres r position) := by
  rw [finies_singleton, interrompues_singleton, demarrees, remplacees, List.countP_singleton,
    List.countP_singleton]
  cases h with
  | demarree ordre cible possible poste demarre stop annonces =>
    simp [poste, demarre, stop, annonces, enCours, Nat.add_comm]
  | finie ordre fin poste demarre stop annonces =>
    have ht := Poste.taskEnCours_of_finTache fin
    have hfin : (vue e.before).poste r position = e.posteAvant r position := rfl
    simp [poste, demarre, stop, annonces, enCours, finAnnoncee, hfin, fin, ht, finDuPoste]
  | arretee poste demarre stop annonces =>
    have hfin : (e.annoncesDe r position).countP (finDuPoste r position) = 0 :=
      List.countP_eq_zero.2 fun m hm => by simp [annonces m hm, finDuPoste]
    have herreur : (e.annoncesDe r position).count (.erreurLog 3 (table r position).2) = 0 :=
      List.count_eq_zero.2 fun hm => by simpa using annonces _ hm
    simp [poste, demarre, stop, hfin, herreur, enCours]
  | interrompue enCours poste demarre stop annonces =>
    simp [poste, demarre, stop, annonces, Atelier.enCours, enCours, finDuPoste]
  | inchangee poste demarre stop annonces =>
    simp [poste, demarre, stop, annonces]

end Bilan

variable [Horloge τ]

/-- The balance of every run: a task that was replaced is missing from the others. -/
theorem compte_run {garde : Cellule τ → Ordre τ → Prop} {couleur : String → Pile} {temps₀ : τ}
    {recit : List (Etape τ)} {c : Cellule τ}
    (h : Run (Recorded (Pas garde)) (Cellule.initiale couleur temps₀) recit c) (r : Fin 4)
    {position : ℤ} (hpos : position = 1 ∨ position = 4) :
    demarrees r position recit =
      finies r position recit + interrompues r position recit + remplacees r position recit +
        enCours ((c.robot r).poste position) := by
  induction h with
  | nil =>
    simp [demarrees, finies, interrompues, remplacees, publies, enCours, Cellule.initiale,
      taskEnCours_init]
  | snoc hrun hl ih =>
    obtain ⟨rfl, rfl, hpas⟩ := hl
    have hetape := compte_etape (Etape.devenir (r := r) (equipee_recit hrun) hpas hpos)
    rw [demarrees_append, finies_append, interrompues_append, remplacees_append]
    rw [Etape.posteAvant, Etape.posteApres] at hetape
    omega

/-- A task that can start is ordered on the post while a task is running there. -/
def Remplace (r : Fin 4) (position : ℤ) (c : Cellule τ) : Ordre τ → Prop
  | .faireTache r' msg _ => r' = r ∧ msg.position = position ∧ DebutPossible (vue c) r msg ∧
      ((c.robot r).poste position).taskEnCours = true
  | _ => False

/-- A step starts a task over another one exactly when it finds the post so. -/
theorem remplace_iff {garde : Cellule τ → Ordre τ → Prop} {e : Etape τ} (hc : Equipee e.before)
    (hp : Pas garde e.before e.label e.after) (r : Fin 4) (position : ℤ) :
    (e.demarre r position && (e.posteAvant r position).taskEnCours) = true ↔
      Remplace r position e.before e.label.1 := by
  obtain ⟨-, -, hres⟩ := executerOrdre_vue hc hp.1 hp.2.2
  cases hordre : e.label.1 with
  | faireTache r' msg temps =>
    rw [hordre] at hres
    have hdebut : (if DebutPossible (vue e.before) r' msg
        then some (hauteurPoste (vue e.before) r' msg.position) else none).isSome =
          decide (DebutPossible (vue e.before) r' msg) := by
      split_ifs with hd <;> simp [hd]
    rw [demarre_of_debut hordre hres, hdebut, Remplace]
    simp only [Bool.and_eq_true, decide_eq_true_eq]
    constructor
    · rintro ⟨⟨hd, rfl, hcible⟩, ht⟩
      exact ⟨rfl, hcible, hd, ht⟩
    · rintro ⟨rfl, hcible, hd, ht⟩
      exact ⟨⟨hd, rfl, hcible⟩, ht⟩
  | _ =>
    rw [demarre_eq_false (by simp [hordre]), Bool.false_and]
    simp [Remplace]

/-- **Every started task is accounted for**, exactly when no task that can start was ordered during
another one: the tasks started on a post are those whose end is published, those interrupted, and
the one that is running. -/
theorem taches_comptees_iff {couleur : String → Pile} {temps₀ : τ} {recit : List (Etape τ)}
    {c : Cellule τ}
    (h : Run (Recorded (Pas fun _ _ => True)) (Cellule.initiale couleur temps₀) recit c) (r : Fin 4)
    {position : ℤ} (hpos : position = 1 ∨ position = 4) :
    demarrees r position recit =
        finies r position recit + interrompues r position recit + enCours ((c.robot r).poste position) ↔
      ∀ e ∈ recit, ¬Remplace r position e.before e.label.1 := by
  have hcompte := compte_run h r hpos
  have hzero : remplacees r position recit = 0 ↔
      ∀ e ∈ recit, ¬Remplace r position e.before e.label.1 := by
    rw [remplacees, List.countP_eq_zero]
    refine forall₂_congr fun e he => not_congr ?_
    obtain ⟨past, recent, rfl⟩ := List.append_of_mem he
    obtain ⟨hrun, hpas⟩ := h.split
    exact remplace_iff (equipee_recit hrun) hpas r position
  rw [← hzero]
  omega

/-- After the task that the robot `r` has started, two more: the first is finished, the second is
stopped, and the third is interrupted by a move. -/
def troisTaches (r : Fin 4) : List (Ordre ℤ) :=
  tacheSurPoste3 ++ [.update r 3, .update r 6, .faireTache r ⟨numero r, 1, 5⟩ 7, .stopTache r 1,
    .faireTache r ⟨numero r, 1, 4⟩ 8, .deplacerPiece r ⟨numero r, 1, 4⟩ 9 []]

/-- A second task during the first one. -/
def tachePendantTache (r : Fin 4) : List (Ordre ℤ) :=
  tacheSurPoste3 ++ [.faireTache r ⟨numero r, 1, 4⟩ 1]

/-- The four counts of the post at position 1 of a robot after orders executed from an empty
cell. -/
def comptesDuPoste (r : Fin 4) (os : List (Ordre ℤ)) : Except Stop (ℕ × ℕ × ℕ × ℕ) :=
  (enregistrer celluleVide os).map fun x =>
    (demarrees r 1 x.1, finies r 1 x.1, interrompues r 1 x.1, enCours ((x.2.robot r).poste 1))

/-- The orders of `comptesDuPoste` as a run. -/
private theorem run_comptesDuPoste {r : Fin 4} {os : List (Ordre ℤ)} {d f i n : ℕ}
    (hos : ∀ o ∈ os, o.Valide) (h : comptesDuPoste r os = .ok (d, f, i, n)) :
    ∃ recit c, Run (Recorded (Pas fun _ _ => True)) celluleVide recit c ∧
      demarrees r 1 recit = d ∧ finies r 1 recit = f ∧ interrompues r 1 recit = i ∧
        enCours ((c.robot r).poste 1) = n := by
  rw [comptesDuPoste] at h
  cases hd : enregistrer celluleVide os with
  | error e => simp [hd, Except.map] at h
  | ok x =>
    simp only [hd, Except.map, Except.ok.injEq, Prod.mk.injEq] at h
    exact ⟨x.1, x.2, run_enregistrer (fun o ho => ⟨hos o ho, fun _ => trivial⟩) .nil hd, h⟩

/-- The tasks of a run in which none replaces another. -/
theorem taches_comptees_iff_troisTaches :
    ∃ recit c, Run (Recorded (Pas fun _ _ => True)) celluleVide recit c ∧ demarrees 1 1 recit = 3 ∧
      finies 1 1 recit = 1 ∧ interrompues 1 1 recit = 2 ∧
      ∀ e ∈ recit, ¬Remplace 1 1 e.before e.label.1 := by
  have hcomptes : comptesDuPoste 1 (troisTaches 1) = .ok (3, 1, 2, 0) := by decide +kernel
  obtain ⟨recit, c, hrun, hd, hf, hi, hn⟩ :=
    run_comptesDuPoste (by simp [troisTaches, tacheSurPoste3, Ordre.Valide]) hcomptes
  exact ⟨recit, c, hrun, hd, hf, hi,
    (taches_comptees_iff hrun 1 (.inl rfl)).1 (by rw [hd, hf, hi, hn])⟩

/-- **A task that starts during another one makes it disappear.** -/
theorem tache_oubliee :
    ∃ recit c, Run (Recorded (Pas fun _ _ => True)) celluleVide recit c ∧
      demarrees 1 1 recit ≠
        finies 1 1 recit + interrompues 1 1 recit + enCours ((c.robot 1).poste 1) := by
  have hcomptes : comptesDuPoste 1 (tachePendantTache 1) = .ok (2, 0, 0, 1) := by decide +kernel
  obtain ⟨recit, c, hrun, hd, hf, hi, hn⟩ :=
    run_comptesDuPoste (by simp [tachePendantTache, tacheSurPoste3, Ordre.Valide]) hcomptes
  exact ⟨recit, c, hrun, by rw [hd, hf, hi, hn]; decide⟩

end Atelier
