import Cellule.Usine.Chantier

/-! # What the node expects

The answers that the command node still expects of a robot, how each of its steps changes them, and
what the test of a transition publishes.
-/

namespace Commande

open Usine (Operation operations operationsDe dus Valide emises)
open Robots (Message)
open Boucle (Franchissable)

/-! ## Answers -/

namespace EnCours

/-- How many answers `data` of a robot are expected. -/
def attendus (e : EnCours) (numRobot data : ℤ) : ℕ :=
  if data = 8 then e.taches (numRobot, 1)
  else if data = 9 then e.taches (numRobot, 4)
  else if data = 10 then e.deplacements numRobot
  else 0

variable {e : EnCours} {numRobot data : ℤ}

/-- The other acknowledgements are not answers. -/
theorem repondre_autre (hdata : ¬(data = 8 ∨ data = 9 ∨ data = 10)) : e.repondre numRobot data = some e := by
  rw [not_or, not_or] at hdata
  rw [repondre, if_neg hdata.1, if_neg hdata.2.1, if_neg hdata.2.2]

/-- An answer that is expected. -/
theorem repondre_attendu (hdata : data = 8 ∨ data = 9 ∨ data = 10) (h : e.attendus numRobot data ≠ 0) :
    ∃ e', e.repondre numRobot data = some e' ∧
      ∀ r d, e.attendus r d = e'.attendus r d + if r = numRobot ∧ d = data then 1 else 0 := by
  have htache : ∀ position, e.taches (numRobot, position) ≠ 0 → ∃ e',
      e.repondreTache (numRobot, position) = some e' ∧ e'.deplacements = e.deplacements ∧
        ∀ r p, e.taches (r, p) = e'.taches (r, p) + if r = numRobot ∧ p = position then 1 else 0 := by
    intro position hne
    refine ⟨_, if_neg hne, rfl, fun r p => ?_⟩
    show _ = Function.update e.taches _ _ (r, p) + _
    rw [Function.update_apply]
    by_cases hici : r = numRobot ∧ p = position
    · rw [if_pos hici, hici.1, hici.2, if_pos rfl]
      omega
    · rw [if_neg hici, if_neg fun heq => hici (Prod.mk.inj heq)]
      rfl
  rcases hdata with rfl | rfl | rfl
  · obtain ⟨e', he', hdep, htaches⟩ := htache 1 h
    refine ⟨e', he', fun r d => ?_⟩
    rw [attendus, attendus, hdep, htaches r 1, htaches r 4]
    by_cases hd : d = 8 <;> simp [hd]
  · obtain ⟨e', he', hdep, htaches⟩ := htache 4 h
    refine ⟨e', he', fun r d => ?_⟩
    rw [attendus, attendus, hdep, htaches r 1, htaches r 4]
    by_cases hd : d = 9 <;> simp [hd]
  · refine ⟨{ e with deplacements := _ }, if_neg h, fun r d => ?_⟩
    have hne : e.deplacements numRobot ≠ 0 := h
    rw [attendus, attendus]
    by_cases hd : d = 10
    · subst hd
      show e.deplacements r = Function.update e.deplacements _ _ r + _
      rw [Function.update_apply]
      by_cases hr : r = numRobot
      · rw [if_pos hr, if_pos ⟨hr, rfl⟩, hr]
        omega
      · rw [if_neg hr, if_neg fun hici => hr hici.1]
        rfl
    · simp [hd]

/-- An answer that is not expected. -/
theorem repondre_inattendu (hdata : data = 8 ∨ data = 9 ∨ data = 10) (h : e.attendus numRobot data = 0) :
    e.repondre numRobot data = none := by
  rcases hdata with rfl | rfl | rfl <;> exact if_pos h

/-- A publication makes the node expect the answers of its operations. -/
theorem attendus_emettre (e : EnCours) {p : Publication} (hp : Valide p) (numRobot data : ℤ) :
    (e.emettre p).attendus numRobot data =
      e.attendus numRobot data + (dus (operations p)).count (.retourCommande numRobot data) := by
  cases p with
  | srvAddProduct | addProduct | evacuer => rfl
  | deplacerPiece msg =>
    have hcount : (dus (operations (.deplacerPiece msg))).count (.retourCommande numRobot data) =
        if msg.numRobot = numRobot ∧ 10 = data then 1 else 0 := by
      simp [dus, operations, Operation.reponse, List.count_cons]
    rw [hcount, attendus, attendus, emettre]
    by_cases hd : data = 10
    · subst hd
      by_cases hr : numRobot = msg.numRobot
      · simp [hr]
      · simp [hr, Ne.symm hr]
    · simp [hd, Ne.symm hd]
  | faireTache msg =>
    obtain ⟨r, position, duree⟩ := msg
    have hcount : (dus (operations (.faireTache ⟨r, position, duree⟩))).count
      (.retourCommande numRobot data) =
        if r = numRobot ∧ Robots.Robot.codeRetour position = data then 1 else 0 := by
      simp [dus, operations, Operation.reponse, List.count_cons]
    rw [hcount, attendus, attendus, emettre]
    rcases hp with hp | hp
    · subst hp
      by_cases hd : data = 8
      · subst hd
        by_cases hr : numRobot = r
        · simp [hr, Robots.Robot.codeRetour]
        · simp [hr, Ne.symm hr]
      · simp [hd, Ne.symm hd, Robots.Robot.codeRetour]
    · subst hp
      by_cases hd : data = 9
      · subst hd
        by_cases hr : numRobot = r
        · simp [hr, Robots.Robot.codeRetour]
        · simp [hr, Ne.symm hr]
      · simp [hd, Ne.symm hd, Robots.Robot.codeRetour]

theorem attendus_foldl (e : EnCours) {ps : List Publication} (hps : ∀ p ∈ ps, Valide p) (numRobot data : ℤ) :
    (ps.foldl emettre e).attendus numRobot data =
      e.attendus numRobot data + (dus (ps.flatMap operations)).count (.retourCommande numRobot data) := by
  induction ps generalizing e with
  | nil => rfl
  | cons p ps ih =>
    obtain ⟨hp, hps⟩ := List.forall_mem_cons.1 hps
    rw [List.foldl_cons, ih _ hps, attendus_emettre e hp, List.flatMap_cons, Usine.dus_append,
      List.count_append,
      Nat.add_assoc]

end EnCours

/-! ## The test of a transition -/

section Petri

variable {s s' : Petri} {t : Transition} {k j : ℕ} {tires : List Transition}

/-- What is published is expected. -/
theorem enCours_executer (hnb : s.robot.nbRobot = 4) (a : Action) :
    (s.executer a).enCours = a.publications.foldl EnCours.emettre s.enCours := by
  have hpublier : ∀ (ps : List Publication) (s : Petri),
      (ps.foldl Petri.publier s).enCours = ps.foldl EnCours.emettre s.enCours := by
    intro ps
    induction ps with
    | nil => exact fun _ => rfl
    | cons p ps ih => exact fun s => ih (s.publier p)
  have happeler : ∀ r : RobotsInterface × List Publication, ∃ ps,
      (s.appeler r).publiees.map Prod.fst = s.publiees.map Prod.fst ++ ps ∧
        (s.appeler r).enCours = ps.foldl EnCours.emettre s.enCours := fun r =>
    ⟨r.2, (publiees_appeler s r).1, hpublier r.2 { s with robot := r.1 }⟩
  have hemises : ∃ ps, (s.executer a).publiees.map Prod.fst = s.publiees.map Prod.fst ++ ps ∧
      (s.executer a).enCours = ps.foldl EnCours.emettre s.enCours := by
    cases a with
    | ajouterProduit | faireTache | deplacerPiece | evacuer => exact happeler _
    | marquer | stopPS | ouvrirPS | sortirErgot | droite | gauche => exact ⟨[], (List.append_nil _).symm, rfl⟩
  obtain ⟨ps, hpubliees, henCours⟩ := hemises
  have hps : ps = a.publications :=
    List.append_cancel_left (hpubliees.symm.trans (publiees_executer hnb a).1)
  rw [henCours, hps]

theorem enCours_foldl (hnb : s.robot.nbRobot = 4) (as : List Action) :
    (as.foldl Petri.executer s).enCours =
      (as.flatMap Action.publications).foldl EnCours.emettre s.enCours := by
  induction as generalizing s with
  | nil => rfl
  | cons a as ih =>
    rw [List.foldl_cons, ih (publiees_executer hnb a).2, enCours_executer hnb a, List.flatMap_cons,
      List.foldl_append]

/-- Neither the start of an iteration nor a pause changes what is expected. -/
theorem enCours_hors_test {ev : Evenement} (hev : (∃ c, ev = .iterer c) ∨ ∃ b, ev = .play b)
    (hs : s.etape ev = some s') : s'.enCours = s.enCours := by
  rcases hev with ⟨c, rfl⟩ | ⟨b, rfl⟩
  · rw [Petri.etape] at hs
    split_ifs at hs
    cases hs
    obtain ⟨M, codes, hcadre⟩ := ajouterProduits_cadre (s.robot.produitAAjouter.length + 1) s
    rw [Petri.debut, hcadre]
  · rw [Petri.etape] at hs
    split_ifs at hs
    cases hs
    rfl

/-- What a step publishes. -/
theorem emises_of_append {ps : List Publication}
    (h : s'.publiees.map Prod.fst = s.publiees.map Prod.fst ++ ps) : emises s s' = ps := by
  rw [emises, List.map_drop, h, List.drop_left' (by simp)]

/-- The test of a transition: nothing is published, or the next transition of the chain is fired. -/
theorem Avancement.suivant_cas (h : Avancement k j tires s) (hs : s.etape .suivant = some s') :
    (∃ j' tires', Avancement k j' tires' s' ∧ emises s s' = [] ∧ s'.enCours = s.enCours) ∨
      ∃ t j' tires', chaine[k]? = some t ∧ (∀ cond ∈ t.conditions, cond.vraie s.capteurs s.robot) ∧
        Avancement (k + 1) j' tires' s' ∧ emises s s' = t.publications ∧
        s'.enCours = t.publications.foldl EnCours.emettre s.enCours := by
  rw [Petri.etape] at hs
  cases hreste : s.reste with
  | nil =>
    rw [hreste] at hs
    cases hs
  | cons t reste =>
    rw [hreste] at hs
    cases hs
    have ht : t ∈ transitions := h.reste t (hreste ▸ List.mem_cons_self)
    obtain ⟨v, hv, hconf, hplace⟩ := h.conforme
    have hnb := hconf.accorde.nbRobot
    have hs₁ : Avancement k j tires { s with reste } :=
      { h with
        conforme := ⟨v, hv, { hconf with }, hplace⟩
        reste := fun t ht => h.reste t (hreste ▸ List.mem_cons_of_mem _ ht) }
    -- the last loop only changes `fini`
    have hfinir : ∀ {k j tires} {s : Petri}, Avancement k j tires s →
        Avancement k j tires (if reste = [] ∧ s.M placeFin ≠ 0 then { s with fini := true } else s) ∧
          (if reste = [] ∧ s.M placeFin ≠ 0 then { s with fini := true } else s).publiees = s.publiees ∧
          (if reste = [] ∧ s.M placeFin ≠ 0 then { s with fini := true } else s).enCours = s.enCours := by
      intro k j tires s hs
      split_ifs with hfin
      · exact ⟨hs.finir hfin.2, rfl, rfl⟩
      · exact ⟨hs, rfl, rfl⟩
    by_cases hfire : Franchissable s t
    · have htester : ({ s with reste } : Petri).tester t = t.actions.foldl Petri.executer { s with reste } :=
        if_pos hfire
      have hpubliees : (({ s with reste } : Petri).tester t).publiees.map Prod.fst =
          s.publiees.map Prod.fst ++ t.publications := by
        rw [htester, publiees_foldl (s := { s with reste }) hnb]
        rfl
      have henCours : (({ s with reste } : Petri).tester t).enCours =
          t.publications.foldl EnCours.emettre s.enCours := by
        rw [htester, enCours_foldl (s := { s with reste }) hnb]
        rfl
      rcases hs₁.tirer ht hfire with ⟨hprincipale, -, hs₂⟩ | ⟨hlaterale, hs₂⟩
      · obtain ⟨hs₃, hp, he⟩ := hfinir hs₂
        refine .inr ⟨t, j, _, (hs₁.suivante ht hprincipale hfire.1).2, hfire.2, hs₃, emises_of_append ?_, ?_⟩
        · rw [hp, hpubliees]
        · rw [he, henCours]
      · obtain ⟨hs₃, hp, he⟩ := hfinir hs₂
        have hrien := publications_branche t (List.mem_filter.2 ⟨ht, by simpa using hlaterale⟩)
        refine .inl ⟨j + 1, _, hs₃, emises_of_append ?_, ?_⟩
        · rw [hp, hpubliees, hrien]
        · rw [he, henCours, hrien]
          rfl
    · have hneg : ({ s with reste } : Petri).tester t = { s with reste } := if_neg hfire
      rw [hneg]
      obtain ⟨hs₃, hp, he⟩ := hfinir hs₁
      refine .inl ⟨j, tires, hs₃, emises_of_append ?_, he⟩
      rw [hp, List.append_nil]

end Petri

end Commande
