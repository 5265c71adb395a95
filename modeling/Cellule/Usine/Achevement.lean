import Cellule.Commande.Achevement
import Cellule.Usine.Production

/-! # The end of the production

From wherever the shop stands its production can be brought to its end. The orders complete and the
tasks end as the clock goes on; once nothing waits and the answers have reached the node, the tests
of its next transition succeed on the sensors that it awaits.
-/

namespace Usine

open Commande Reactive Robots Robots.Robot
open Atelier (Cellule Ordre Equipee numero vue reponses finAcquittee)
open Atelier.Vue (table)

variable {τ : Type} [Horloge τ] {n : Trafic} {k : ℕ} {l : List Operation} {e : Etat} {s s' : Systeme τ}

/-! ## The orders complete -/

section Ordres

variable {c : Cellule τ} {r : Fin 4}

theorem surRobot_ok {α : Type} {p : Robots.Code τ α} (h : ∃ x, Atelier.executer p (c.robot r) c.sim = .ok x) :
    ∃ x, Cellule.surRobot r p c = .ok x := by
  obtain ⟨x, hx⟩ := h
  rw [Cellule.surRobot, hx]
  exact ⟨_, rfl⟩

/-- A robot executes every command that it receives. -/
theorem commande_ok (hτ : Atelier.Avance τ) (hc : Equipee c) (temps : τ) {p : Publication} (hp : Valide p)
    (hcommande : estCommande p = true) :
    ∃ o, ordreDe n r temps p = some o ∧ ∃ x, Cellule.executerOrdre o c = .ok x := by
  cases p with
  | srvAddProduct | addProduct => cases hcommande
  | faireTache msg =>
    refine ⟨_, rfl, ?_⟩
    have hex : ∃ x, Cellule.surRobot r (faireTacheCallback msg) (c.aTemps temps) = .ok x := by
      refine surRobot_ok ?_
      by_cases hmsg : msg.numRobot = (c.robot r).numRobot ∧ (msg.position = 1 ∨ msg.position = 4)
      · have hrun := Atelier.executer_faireTache (hc.equipe r) (c.aTemps temps).sim hmsg
        dsimp only at hrun
        split_ifs at hrun
        · exact ⟨_, hrun⟩
        · exact ⟨_, hrun⟩
        · exact ⟨_, hrun⟩
      · exact ⟨_, Atelier.executer_faireTache_autre hmsg _⟩
    obtain ⟨x, hx⟩ := hex
    rw [Cellule.executerOrdre, hx]
    exact ⟨_, rfl⟩
  | deplacerPiece msg =>
    refine ⟨_, rfl, ?_⟩
    have hex : ∃ x, Cellule.surRobot r (deplacerPieceCallback msg)
        ((c.aTemps temps).avecNavettes (n.navettes msg)) = .ok x := by
      refine surRobot_ok ?_
      by_cases hmsg : numero r = msg.numRobot
      · obtain ⟨s', w', hrun⟩ := Atelier.executer_deplacerPiece_ok hτ (hc.equipe r) (hc.numRobot r) hp.1 hmsg
          ((c.aTemps temps).avecNavettes (n.navettes msg)).sim
        exact ⟨_, hrun⟩
      · have hautre : (c.robot r).numRobot ≠ msg.numRobot := by
          rw [hc.numRobot r]
          exact hmsg
        exact ⟨_, Atelier.executer_deplacerPiece_autre hautre _⟩
    obtain ⟨x, hx⟩ := hex
    rw [Cellule.executerOrdre, hx]
    exact ⟨_, rfl⟩
  | evacuer =>
    refine ⟨_, rfl, ?_⟩
    have hex : ∃ x, Cellule.surRobot r evacuer c = .ok x := by
      refine surRobot_ok ?_
      have hrun := Atelier.executer_evacuer (hc.equipe r) c.sim
      dsimp only at hrun
      split_ifs at hrun
      · exact ⟨_, hrun⟩
      · exact ⟨_, hrun⟩
    obtain ⟨x, hx⟩ := hex
    rw [Cellule.executerOrdre, hx]
    exact ⟨_, rfl⟩

/-- Half of a tick completes when there is a product on a post whose task is over. -/
theorem updatePoste_ok {s : Robot τ} (hs : Atelier.Equipe s) (w : Atelier.Simulateur τ)
    (position autre : ℤ) (temps : τ)
    (hgarnie : (s.poste position).taskEnCours = true →
      (w.couleur (Atelier.tableDe s.numRobot position).1).hauteur ≠ 0)
    (hautre : ¬(position = 1 ↔ autre = 1))
    (htable : (Atelier.tableDe s.numRobot autre).1 ≠ (Atelier.tableDe s.numRobot position).1) :
    ∃ i s' w', Atelier.executer (updatePoste position temps) s w = .ok (i, s', w') ∧ Atelier.Equipe s' ∧
      s'.numRobot = s.numRobot ∧ s'.poste autre = s.poste autre ∧
      w'.couleur (Atelier.tableDe s.numRobot autre).1 = w.couleur (Atelier.tableDe s.numRobot autre).1 := by
  have hrun := Atelier.executer_updatePoste hs w position temps
  dsimp only at hrun
  cases hfin : (s.poste position).finTache temps with
  | false =>
    rw [if_pos hfin] at hrun
    exact ⟨_, _, _, hrun, hs, rfl, rfl, rfl⟩
  | true =>
    have hcours : (s.poste position).taskEnCours = true := (Bool.and_eq_true_iff.1 hfin).1
    rw [if_neg (by simp [hfin]), if_neg (hgarnie hcours)] at hrun
    have hp := hs.poste position
    have hs' : Atelier.Equipe (s.setPoste position (s.poste position).stopTask) :=
      hs.setPoste ⟨hp.nomPoste, hp.numeroPoste, hp.couleur⟩
    refine ⟨_, _, _, hrun, ⟨hs'.num, hs'.poste⟩, ?_, ?_, ?_⟩
    · exact Atelier.setPoste_numRobot s position _
    · exact (Atelier.poste_setPoste s position autre _).trans (if_neg hautre)
    · exact Function.update_of_ne htable _ _

/-- A tick completes. -/
theorem update_ok (hc : Equipee c) (temps : τ) (hgarnie : ∀ position, position = 1 ∨ position = 4 →
      ((vue c).poste r position).taskEnCours = true → ((vue c).pile (table r position).1).hauteur ≠ 0) :
    ∃ x, Cellule.executerOrdre (.update r temps) c = .ok x := by
  have htables : (table r 4).1 ≠ (table r 1).1 := fun heq =>
    absurd (Atelier.table_injective (.inr rfl) (.inl rfl) heq).2 (by decide)
  have hnum := hc.numRobot r
  have hex : ∃ x, Cellule.surRobot r update (c.aTemps temps) = .ok x := by
    refine surRobot_ok ?_
    obtain ⟨i₁, s₁, w₁, h₁, hs₁, hnum₁, hposte₁, hcouleur₁⟩ := updatePoste_ok (hc.equipe r)
      (c.aTemps temps).sim 1 4 temps (by rw [hnum]; exact hgarnie 1 (.inl rfl)) (by simp)
      (by rw [hnum]; exact htables)
    obtain ⟨i₄, s₄, w₄, h₄, -⟩ := updatePoste_ok hs₁ w₁ 4 1 temps
      (by rw [hposte₁, hnum₁, hcouleur₁, hnum]; exact hgarnie 4 (.inr rfl)) (by simp)
      (by rw [hnum₁, hnum]; exact htables.symm)
    exact ⟨_, Atelier.executer_update_of_ok h₁ h₄⟩
  obtain ⟨x, hx⟩ := hex
  rw [Cellule.executerOrdre, hx]
  exact ⟨_, rfl⟩

end Ordres

/-! ## What waits can be done -/

section Attente

omit [Horloge τ] in
/-- A queue loses its first element. -/
theorem sum_length_update {α : Type} {f : Fin 4 → List α} {r : Fin 4} {a : α} {as : List α}
    (hr : f r = a :: as) :
    ∑ r', (Function.update f r as r').length < ∑ r', (f r').length := by
  refine Finset.sum_lt_sum (fun r' _ => ?_) ⟨r, Finset.mem_univ r, ?_⟩
  · by_cases h : r' = r
    · rw [h, Function.update_self, hr]
      exact Nat.le_succ _
    · rw [Function.update_of_ne h]
  · rw [Function.update_self, hr]
    exact Nat.lt_succ_self _

/-- The next command of a robot can be executed. -/
theorem Suivi.executer_ok (hτ : Atelier.Avance τ) (h : Suivi n k l e s) {r : Fin 4} {p : Publication}
    {attente : List Publication} (hr : s.attente r = p :: attente) (temps : τ) :
    ∃ s', s.etape n (.executer r temps) = some s' ∧ s'.petri = s.petri ∧
      s'.attente = Function.update s.attente r attente := by
  obtain ⟨hp, hcommande⟩ := h.valides r p (hr ▸ List.mem_cons_self)
  obtain ⟨o, ho, hex⟩ := commande_ok (n := n) (r := r) hτ h.equipee temps hp hcommande
  obtain ⟨s', hs'⟩ := ordonner_ok (s := { s with attente := Function.update s.attente r attente }) hex
  have hordonne := ordonne_of_ordonner
    (s := { s with attente := Function.update s.attente r attente }) h.equipee
    (valide_ordreDe hp ho) hs'
  refine ⟨s', ?_, hordonne.petri, hordonne.attente⟩
  rw [Systeme.etape, hr]
  show (ordreDe n r temps p).bind _ = _
  rw [ho]
  exact hs'

/-- The robots execute every command that waits. -/
theorem Suivi.vider (hτ : Atelier.Avance τ) (h : Suivi n k l e s) : ∃ l' e' s', Reaches (Avance n) s s' ∧
    Suivi n k l' e' s' ∧ s'.petri = s.petri ∧ ∀ r, s'.attente r = [] := by
  have hrang : ∀ (m : ℕ) (t : Systeme τ),
      ((∃ l e, Suivi n k l e t) ∧ t.petri = s.petri ∧ m = ∑ r, (t.attente r).length) → ∃ t',
        Reaches (Avance n) t t' ∧
        (((∃ l e, Suivi n k l e t') ∧ t'.petri = s.petri ∧ ∀ r, t'.attente r = []) ∨
          ∃ m' < m, (∃ l e, Suivi n k l e t') ∧ t'.petri = s.petri ∧ m' = ∑ r, (t'.attente r).length) := by
    rintro m t ⟨⟨l, e, ht⟩, hpetri, rfl⟩
    by_cases hvide : ∀ r, t.attente r = []
    · exact ⟨t, .refl t, .inl ⟨⟨l, e, ht⟩, hpetri, hvide⟩⟩
    · obtain ⟨r, hr⟩ := not_forall.1 hvide
      obtain ⟨p, attente, hr⟩ := List.exists_cons_of_ne_nil hr
      obtain ⟨t', hetape, hpetri', hattente⟩ := ht.executer_ok hτ hr t.cellule.sim.temps
      refine ⟨t', .single hetape, .inr ⟨_, ?_, ht.executer hetape, hpetri'.trans hpetri, rfl⟩⟩
      rw [hattente]
      exact sum_length_update hr
  obtain ⟨s', hreach, ⟨l', e', hs'⟩, hpetri, hvide⟩ := Reaches.of_rank hrang ⟨⟨l, e, h⟩, rfl, rfl⟩
  exact ⟨l', e', s', hreach, hs', hpetri, hvide⟩

omit [Horloge τ] in
/-- When no command waits, the next operation is the end of a task that is running. -/
theorem Suivi.premiere_fin {o : Operation} (h : Suivi n k (o :: l) e s) (hattente : ∀ r, s.attente r = []) :
    ∃ r position, (position = 1 ∨ position = 4) ∧ ((vue s.cellule).poste r position).taskEnCours = true := by
  have hk : k ∈ List.range 27 := h.chantier.mem_range
  have hmem : o ∈ suspens k := h.chantier.en_suspens.subset List.mem_cons_self
  have hrobot : ∀ numRobot, o.robot ≠ some numRobot := by
    intro numRobot hnum
    obtain ⟨r, rfl⟩ := robot_existe (robots_prevus k hk o hmem numRobot hnum)
    have hfile : (o :: l).filterMap (message r) = [] := by
      rw [← h.files r, hattente r]
      rfl
    exact message_eq_none_iff.1 (List.filterMap_eq_nil_iff.1 hfile o List.mem_cons_self) hnum
  cases o with
  | ajout => exact absurd (demandees_prevues k hk _ hmem) Bool.false_ne_true
  | debut | deplacement | evacuation => exact absurd rfl (hrobot _)
  | fin msg =>
    obtain ⟨hexiste, hcours, -⟩ := h.chantier.differe.admissible.1
    obtain ⟨r, hr⟩ := robot_existe hexiste.1
    refine ⟨r, msg.position, hexiste.2, ?_⟩
    rw [h.chantier.montre.postes r msg.position hexiste.2, hr]
    exact hcours

/-- The tasks end as the clock goes on. -/
theorem Suivi.terminer (hhorloge : ∀ limite : τ, ∃ temps, Horloge.depasse temps limite = true)
    (h : Suivi n k l e s) (hattente : ∀ r, s.attente r = []) : ∃ e' s', Reaches (Avance n) s s' ∧
      Suivi n k [] e' s' ∧ s'.petri = s.petri := by
  have hrang : ∀ (m : ℕ) (t : Systeme τ),
      ((∃ l e, Suivi n k l e t ∧ m = (dus l).length) ∧ t.petri = s.petri ∧ t.attente = s.attente) →
        ∃ t', Reaches (Avance n) t t' ∧ (((∃ e, Suivi n k [] e t') ∧ t'.petri = s.petri) ∨
          ∃ m' < m, (∃ l e, Suivi n k l e t' ∧ m' = (dus l).length) ∧ t'.petri = s.petri ∧
            t'.attente = s.attente) := by
    rintro m t ⟨⟨l, e, ht, rfl⟩, hpetri, hfiles⟩
    cases l with
    | nil => exact ⟨t, .refl t, .inl ⟨⟨e, ht⟩, hpetri⟩⟩
    | cons o l =>
      obtain ⟨r, position, hpos, hcours⟩ := ht.premiere_fin fun r => by rw [hfiles, hattente r]
      obtain ⟨temps, htemps⟩ := hhorloge (Horloge.plus ((vue t.cellule).poste r position).tempsDebutTask
        ((vue t.cellule).poste r position).dureeTask)
      have hfin : ((vue t.cellule).poste r position).finTache temps = true := by
        rw [Poste.finTache, hcours, htemps]
        rfl
      obtain ⟨t', hetape⟩ := ordonner_ok (update_ok (r := r) ht.equipee temps fun position hpos hcours =>
        ht.chantier.garnie hpos hcours)
      have ho : (Ordre.update r temps : Ordre τ).Valide := trivial
      have hordonne := ordonne_of_ordonner ht.equipee ho hetape
      have htick : t.etape n (.update r temps) = some t' := hetape
      obtain ⟨l', e', ht', hdus⟩ := ht.update htick
      refine ⟨t', .single htick, .inr ⟨_, ?_, ⟨l', e', ht', rfl⟩, hordonne.petri.trans hpetri,
        hordonne.attente.trans hfiles⟩⟩
      -- the end of the task is acknowledged
      have hacquit : 0 < (reponses (.update r temps) (vue t.cellule)).length := by
        have hpart : ∀ position, ((vue t.cellule).poste r position).finTache temps = true →
            (finAcquittee r position temps (vue t.cellule)).length = 1 := by
          intro position hfin
          rw [finAcquittee, if_pos hfin]
          rfl
        rw [reponses, List.length_append]
        rcases hpos with rfl | rfl
        · have hun := hpart 1 hfin
          omega
        · have hquatre := hpart 4 hfin
          omega
      have hlength := hdus.length_eq
      rw [List.length_append] at hlength
      omega
  obtain ⟨s', hreach, ⟨e', hs'⟩, hpetri⟩ := Reaches.of_rank hrang ⟨⟨l, e, h, rfl⟩, rfl, rfl⟩
  exact ⟨e', s', hreach, hs', hpetri⟩

/-- The answers reach the node. -/
theorem Suivi.livrer (h : Suivi n k l e s) (hrepos : Repos k s.petri) : ∃ s', Reaches (Avance n) s s' ∧
    Suivi n k l e s' ∧ Repos k s'.petri ∧ ∀ r, s'.retours r = [] := by
  have hrang : ∀ (m : ℕ) (t : Systeme τ),
    (Suivi n k l e t ∧ Repos k t.petri ∧ m = ∑ r, (t.retours r).length) →
      ∃ t', Reaches (Avance n) t t' ∧ ((Suivi n k l e t' ∧ Repos k t'.petri ∧ ∀ r, t'.retours r = []) ∨
        ∃ m' < m, Suivi n k l e t' ∧ Repos k t'.petri ∧ m' = ∑ r, (t'.retours r).length) := by
    rintro m t ⟨ht, hrepos, rfl⟩
    by_cases hvide : ∀ r, t.retours r = []
    · exact ⟨t, .refl t, .inl ⟨ht, hrepos, hvide⟩⟩
    · obtain ⟨r, hr⟩ := not_forall.1 hvide
      obtain ⟨data, retours, hr⟩ := List.exists_cons_of_ne_nil hr
      obtain ⟨enCours, hrepondre, -⟩ := ht.repondre_attendu hr
      have hetape : t.etape n (.repondre r) = some
          { t with
            petri := recevoir t.petri (numero r) data
            retours := Function.update t.retours r retours } := by
        rw [Systeme.etape, hr]
        exact if_pos hrepos.reste
      refine ⟨_, .single hetape, .inr ⟨_, sum_length_update hr, (ht.repondre hetape).1, ?_, rfl⟩⟩
      show Repos k (recevoir t.petri (numero r) data)
      rw [recevoir, hrepondre]
      exact (hrepos.repondre hrepondre).2
  exact Reaches.of_rank hrang ⟨h, hrepos, rfl⟩

omit [Horloge τ] in
/-- When nothing waits, the tests of the next transition succeed on the sensors that it awaits. -/
theorem Suivi.satisfaits (h : Suivi n k [] e s) (hrepos : Repos k s.petri) (hretours : ∀ r, s.retours r = [])
    {t : Transition} (ht : chaine[k]? = some t) :
    ∀ cond ∈ t.conditions, cond.vraie t.capteursAttendus s.petri.robot := by
  intro cond hcond
  by_contra hvraie
  obtain ⟨numRobot, data, enCours, hrepondre, -, hnum, hdata⟩ :=
    hrepos.reponse_attendue (lt_of_chaine ht) ht hcond hvraie
  obtain ⟨r, rfl⟩ := robot_existe hnum
  have hzero : s.petri.enCours.attendus (numero r) data = 0 := by
    rw [h.attendues r data hdata, hretours r]
    rfl
  rw [EnCours.repondre_inattendu hdata hzero] at hrepondre
  cases hrepondre

end Attente

/-! ## The net goes on -/

section Suite

theorem placeDe_injective : ∀ k ∈ List.range 27, ∀ k' ∈ List.range 27, placeDe k = placeDe k' → k = k' := by
  decide

/-- The marking tells how many transitions of the chain were fired. -/
theorem avancement_unique {k k' j j' : ℕ} {tires tires' : List Transition} {p : Petri}
    (h : Avancement k j tires p) (h' : Avancement k' j' tires' p) : k = k' := by
  have hk : k ∈ List.range 27 := List.mem_range.2 (Nat.lt_succ_of_le h.k_le)
  have hk' : k' ∈ List.range 27 := List.mem_range.2 (Nat.lt_succ_of_le h'.k_le)
  obtain ⟨v, -, hconf, hplace, -⟩ := h.conforme
  obtain ⟨v', -, hconf', hplace', -⟩ := h'.conforme
  have hmarque : p.M (placeDe k) = 1 := by rw [hconf.principales _ (placeDe_principale k hk), if_pos hplace]
  refine placeDe_injective k hk k' hk' ?_
  by_contra hne
  rw [hconf'.principales _ (placeDe_principale k hk), hplace', if_neg fun heq =>
    hne (Option.some.inj heq).symm]
    at hmarque
  exact absurd hmarque (by decide)

/-- The tests of the net are tests of the shop. -/
theorem Suivi.tester (h : Suivi n k l e s) {petri : Petri} (hreach : Reaches Petri.Teste s.petri petri) :
    ∃ k' l' e' s', Reaches (Avance n) s s' ∧ Suivi n k' l' e' s' ∧ s'.petri = petri := by
  obtain ⟨trace, hrun⟩ := hreach
  induction hrun with
  | nil => exact ⟨k, l, e, s, .refl s, h, rfl⟩
  | snoc _ hteste ih =>
    obtain ⟨k₁, l₁, e₁, s₁, hreach₁, h₁, rfl⟩ := ih
    obtain ⟨hetape, rfl⟩ := hteste
    obtain ⟨k', l', e', s', hs', h', hpetri⟩ := h₁.suivant hetape
    exact ⟨k', l', e', s', hreach₁.trans (.single hs'), h', hpetri⟩

/-- The same, when it is known how far the net has gone. -/
theorem Suivi.tester_jusqua (h : Suivi n k l e s) {petri : Petri} (hreach : Reaches Petri.Teste s.petri petri)
    {k' : ℕ} (hroute : EnRoute k' petri) :
    ∃ l' e' s', Reaches (Avance n) s s' ∧ Suivi n k' l' e' s' ∧ s'.petri = petri := by
  obtain ⟨k₁, l', e', s', hreach', h', rfl⟩ := h.tester hreach
  obtain ⟨j, tires, havancement⟩ := h'.avancement
  obtain ⟨j', tires', havancement'⟩ := hroute.avancement
  obtain rfl := avancement_unique havancement havancement'
  exact ⟨l', e', s', hreach', h', rfl⟩

/-- An iteration of the shop starts. -/
theorem Suivi.iterer (h : Suivi n k l e s) {c : Capteurs} {petri : Petri}
    (hetape : s.petri.etape (.iterer c) = some petri) (hroute : EnRoute k petri) :
    s.etape n (.iterer c) = some { s with petri } ∧ Suivi n k l e { s with petri } := by
  refine ⟨?_, h.avecPetri hroute.avancement (enCours_hors_test (.inl ⟨c, rfl⟩) hetape)⟩
  rw [Systeme.etape, hetape]
  rfl

/-- The node is at its end and no command waits. -/
def Acheve (n : Trafic) (s : Systeme τ) : Prop :=
  (∃ l e, Suivi n 26 l e s) ∧ s.petri.fini = true ∧ ∀ r, s.attente r = []

/-- From between two iterations the end can be reached, or the next transition of the chain. -/
theorem Suivi.avancer (hτ : Atelier.Avance τ)
    (hhorloge : ∀ limite : τ, ∃ temps, Horloge.depasse temps limite = true) (h : Suivi n k l e s)
    (hroute : EnRoute k s.petri) (hreste : s.petri.reste = []) : ∃ s', Reaches (Avance n) s s' ∧
      (Acheve n s' ∨ ∃ k' l' e', k < k' ∧ Suivi n k' l' e' s' ∧ EnRoute k' s'.petri ∧
        s'.petri.reste = []) := by
  -- at its end the node lets the robots execute what waits
  have hfin : ∀ {l e} {s : Systeme τ}, Suivi n k l e s → s.petri.fini = true → ∃ s', Reaches (Avance n) s s' ∧
      Acheve n s' := by
    intro l e s h hfini
    obtain ⟨j, tires, havancement⟩ := h.avancement
    obtain rfl : k = 26 := havancement.fini hfini
    obtain ⟨l', e', s', hreach, h', hpetri, hvide⟩ := h.vider hτ
    exact ⟨s', hreach, ⟨l', e', h'⟩, hpetri ▸ hfini, hvide⟩
  cases hfini : s.petri.fini with
  | true =>
    obtain ⟨s', hreach, hacheve⟩ := hfin h hfini
    exact ⟨s', hreach, .inl hacheve⟩
  | false =>
    obtain ⟨petri₁, ⟨hjouer, -⟩, hrepos⟩ := hroute.jouer hreste hfini
    have hetape₁ : s.etape n (.play true) = some { s with petri := petri₁ } := by
      rw [Systeme.etape, hjouer]
      rfl
    have h₁ : Suivi n k l e { s with petri := petri₁ } :=
      h.avecPetri hrepos.avancement (enCours_hors_test (.inr ⟨true, rfl⟩) hjouer)
    obtain ⟨l₂, e₂, s₂, hreach₂, h₂, hpetri₂, hvide₂⟩ := h₁.vider hτ
    obtain ⟨e₃, s₃, hreach₃, h₃, hpetri₃⟩ := h₂.terminer hhorloge hvide₂
    have hrepos₃ : Repos k s₃.petri := by
      rw [hpetri₃, hpetri₂]
      exact hrepos
    obtain ⟨s₄, hreach₄, h₄, hrepos₄, hretours⟩ := h₃.livrer hrepos₃
    have hjusquici : Reaches (Avance n) s s₄ :=
      (Reaches.single hetape₁).trans (hreach₂.trans (hreach₃.trans hreach₄))
    rcases h₄.chantier.k_le.lt_or_eq with hk | rfl
    · have hlength : k < chaine.length := length_chaine ▸ hk
      have hchaine : chaine[k]? = some chaine[k] := List.getElem?_eq_getElem hlength
      obtain ⟨petri₅, ⟨hiterer, -⟩, hroute₅, hreste₅, hcapteurs, hgarde⟩ :=
        hrepos₄.iterer chaine[k].capteursAttendus
      obtain ⟨hetape₅, h₅⟩ := h₄.iterer hiterer hroute₅
      have hmem : chaine[k] ∈ petri₅.reste := hreste₅ ▸ List.mem_of_mem_filter (List.getElem_mem hlength)
      obtain ⟨k', petri', hlt, hreach', hroute', hreste'⟩ := hroute₅.avancer hchaine hmem fun cond hcond =>
        hcapteurs ▸ hgarde cond (h₄.satisfaits hrepos₄ hretours hchaine cond hcond)
      obtain ⟨l', e', s', hreach₆, h', rfl⟩ := h₅.tester_jusqua hreach' hroute'
      exact ⟨s', hjusquici.trans ((Reaches.single hetape₅).trans hreach₆),
        .inr ⟨k', l', e', hlt, h', hroute', hreste'⟩⟩
    -- the chain is over, and the node ends with the iteration
    · obtain ⟨petri₅, ⟨hiterer, -⟩, hroute₅, hreste₅, -⟩ := hrepos₄.iterer .initial
      obtain ⟨hetape₅, h₅⟩ := h₄.iterer hiterer hroute₅
      have hne : petri₅.reste ≠ [] := by
        rw [hreste₅]
        exact List.cons_ne_nil _ _
      obtain ⟨k', petri', hle, hreach', hroute', -, -, hfini'⟩ := hroute₅.terminer
      obtain ⟨j', tires', havancement'⟩ := hroute'.avancement
      obtain rfl : k' = 26 := le_antisymm havancement'.k_le hle
      obtain ⟨l', e', s', hreach₆, h', rfl⟩ := h₅.tester_jusqua hreach' hroute'
      obtain ⟨s'', hreach'', hacheve⟩ := hfin h' (hfini' rfl hne)
      exact ⟨s'', hjusquici.trans ((Reaches.single hetape₅).trans (hreach₆.trans hreach'')), .inl hacheve⟩

/-- From everywhere the end can be reached. -/
theorem Suivi.achever (hτ : Atelier.Avance τ)
    (hhorloge : ∀ limite : τ, ∃ temps, Horloge.depasse temps limite = true) (h : Suivi n k l e s)
    (hroute : EnRoute k s.petri) : ∃ s', Reaches (Avance n) s s' ∧ Acheve n s' := by
  obtain ⟨k₁, petri₁, -, hreach₁, hroute₁, hreste₁, -⟩ := hroute.terminer
  obtain ⟨l₁, e₁, s₁, hreach, h₁, rfl⟩ := h.tester_jusqua hreach₁ hroute₁
  have hrang : ∀ (m : ℕ) (t : Systeme τ), (∃ k l e, m = 26 - k ∧ Suivi n k l e t ∧ EnRoute k t.petri ∧
      t.petri.reste = []) → ∃ t', Reaches (Avance n) t t' ∧ (Acheve n t' ∨
        ∃ m' < m, ∃ k l e, m' = 26 - k ∧ Suivi n k l e t' ∧ EnRoute k t'.petri ∧ t'.petri.reste = []) := by
    rintro m t ⟨k, l, e, rfl, ht, hroute, hreste⟩
    obtain ⟨t', hreach, hsuite⟩ := ht.avancer hτ hhorloge hroute hreste
    refine ⟨t', hreach, hsuite.imp_right ?_⟩
    rintro ⟨k', l', e', hlt, ht', hroute', hreste'⟩
    have hle := ht'.chantier.k_le
    exact ⟨26 - k', by omega, k', l', e', rfl, ht', hroute', hreste'⟩
  obtain ⟨s', hreach', hacheve⟩ := Reaches.of_rank hrang ⟨k₁, l₁, e₁, rfl, h₁, hroute₁, hreste₁⟩
  exact ⟨s', hreach.trans hreach', hacheve⟩

/-- Where the shop and its net stand after a run. -/
theorem enRoute_suivi {temps : τ} {trace : List (Evenement τ)} (h : Run (Avance n) (.initial temps) trace s) :
    ∃ k l e, Suivi n k l e s ∧ EnRoute k s.petri := by
  obtain ⟨⟨k, l, e, hs⟩, recit, hrun⟩ := suivi_of_run h
  obtain ⟨k', -, hattente⟩ := enRoute_of_run hrun
  exact ⟨k, l, e, hs, hs.avancement, hattente⟩

end Suite

/-- From every state that the shop reaches, its production can still be brought to its end, if the
clock goes on: no order hangs, no task and no command is left waiting, both products leave and the
cell is empty. -/
theorem production_achevable (hτ : Atelier.Avance τ)
    (hhorloge : ∀ limite : τ, ∃ temps, Horloge.depasse temps limite = true) {temps : τ}
    {trace : List (Evenement τ)}
    (h : Run (Avance n) (.initial temps) trace s) : ∃ suite s', Run (Avance n) s suite s' ∧
      s'.petri.fini = true ∧ (∀ r, s'.attente r = []) ∧
        Atelier.evacuesDe s'.cellule.sim.journal = sortiesPrevues ∧
          ∀ nom, s'.cellule.sim.couleur nom = Pile.vide := by
  obtain ⟨k, l, e, hs, hroute⟩ := enRoute_suivi h
  obtain ⟨s', ⟨suite, hsuite⟩, ⟨l', e', hs'⟩, hfini, hvide⟩ := hs.achever hτ hhorloge hroute
  obtain ⟨hsorties, hcellule⟩ := hs'.vide hvide
  exact ⟨suite, s', hsuite, hfini, hvide, hsorties, hcellule⟩

omit [Horloge τ] in
/-- The clock in whole seconds goes past every limit. -/
theorem horloge_int (limite : ℤ) : ∃ temps, Horloge.depasse temps limite = true :=
  ⟨limite + 1, decide_eq_true (Int.lt_succ limite)⟩

/-- From the first task, which a robot is executing. -/
theorem production_achevable_premiereTache : ∃ trace s, Run (Avance deuxNavettes) (.initial (0 : ℤ)) trace s ∧
    (∃ r, ((vue s.cellule).poste r 1).taskEnCours = true) ∧
    ∃ suite s', Run (Avance deuxNavettes) s suite s' ∧ s'.petri.fini = true ∧ (∀ r, s'.attente r = []) ∧
      Atelier.evacuesDe s'.cellule.sim.journal = sortiesPrevues ∧ ∀ nom,
          s'.cellule.sim.couleur nom = Pile.vide := by
  have hcours : (([.play true, .iterer { Capteurs.initial with PSx := fun _ => true }, .suivant, .suivant,
      .executer 3 0] : List (Evenement ℤ)).foldlM (Systeme.etape deuxNavettes) (.initial 0)).map
        (fun s => ((s.cellule.robot 3).poste 1).taskEnCours) = some true := by decide +kernel
  obtain ⟨s, hs, hr⟩ := Option.map_eq_some_iff.1 hcours
  have hrun := run_foldlM hs
  exact ⟨_, s, hrun, ⟨3, hr⟩, production_achevable Atelier.avance_int horloge_int hrun⟩

/-- A whole production. -/
theorem production_conforme_complete : ∃ trace s, Run (Avance deuxNavettes) (.initial (0 : ℤ)) trace s ∧
    s.petri.fini = true ∧ Atelier.evacuesDe s.cellule.sim.journal = sortiesPrevues := by
  obtain ⟨k, l, e, hs, hroute⟩ := enRoute_suivi (Run.nil : Run (Avance deuxNavettes) (.initial (0 : ℤ)) [] _)
  obtain ⟨s, ⟨trace, hrun⟩, -, hfini, hvide⟩ := hs.achever Atelier.avance_int horloge_int hroute
  exact ⟨trace, s, hrun, hfini, ((production_conforme hrun).2 hfini hvide).1⟩

end Usine
