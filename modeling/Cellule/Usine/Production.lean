import Cellule.Atelier.Entrees
import Cellule.Lib.Progress
import Cellule.Usine.Comptes

/-! # The production

The command node and the robots follow each other: the node waits for the answers that the robots
owe it, and the operations that wait are those of the program. So the robots answer each command
once, no error is logged, and whatever the order of the steps the cell evacuates the products of the
program, with their tasks.
-/

namespace Usine

open Commande Reactive Robots
open Atelier (Cellule Ordre Equipee numero vue actions reponses estReponse)

variable {τ : Type} [Horloge τ] {n : Trafic} {k : ℕ} {l : List Operation} {e : Etat} {s s' : Systeme τ}

/-- The answers that the node expects are due or on their way. -/
def Attendues (l : List Operation) (retours : Fin 4 → List ℤ) (enCours : EnCours) : Prop :=
  ∀ r data, (data = 8 ∨ data = 9 ∨ data = 10) → enCours.attendus (numero r) data =
    (dus l).count (.retourCommande (numero r) data) + (retours r).count data

omit [Horloge τ] in
/-- The first `k` transitions of the chain are fired, and the operations `l` are still to be
made. -/
structure Suivi (n : Trafic) (k : ℕ) (l : List Operation) (e : Etat) (s : Systeme τ) : Prop where
  avancement : ∃ j tires, Avancement k j tires s.petri
  equipee : Equipee s.cellule
  chantier : Chantier n k l e (vue s.cellule)
  files : ∀ r, (s.attente r).filter (destinee r) = l.filterMap (message r)
  valides : ∀ r, ∀ p ∈ s.attente r, Valide p ∧ estCommande p = true
  attendues : Attendues l s.retours s.petri.enCours
  erreurs : ∀ code q, .erreurLog code q ∉ s.cellule.sim.journal

/-! ## Answers on their way -/

section Retours

omit [Horloge τ] in
theorem count_retourDe (r : Fin 4) (ms : List Message) (data : ℤ) :
    (ms.filterMap (retourDe r)).count data = ms.count (.retourCommande (numero r) data) := by
  induction ms with
  | nil => rfl
  | cons m ms ih =>
    rw [List.count_cons, ← ih]
    cases m with
    | retourCommande numRobot d =>
      by_cases hr : numRobot = numero r
      · simp [retourDe, hr, List.count_cons]
      · simp [retourDe, hr]
    | _ => simp [retourDe, List.filterMap_cons]

/-- An order publishes the answers that are predicted. -/
theorem reponses_publiees {o : Ordre τ} {c c' : Cellule τ} {res : Atelier.Resultat}
    (hc : Equipee c) (ho : o.Valide)
    (h : Cellule.executerOrdre o c = .ok (res, c')) :
    (c'.sim.journal.drop c.sim.journal.length).filter estReponse = reponses o (vue c) := by
  obtain ⟨ms, hms⟩ := Atelier.journal_executerOrdre h
  have hreponses := Atelier.reponses_executerOrdre hc ho h
  rw [← hms, List.filter_append] at hreponses
  rw [← hms, List.drop_left]
  exact List.append_cancel_left hreponses

omit [Horloge τ] in
/-- An answer that is due is an acknowledgement. -/
theorem retour_of_dus {m : Message} (h : m ∈ dus l) : ∃ numRobot data, m = .retourCommande numRobot data := by
  obtain ⟨o, -, hm⟩ := List.mem_flatMap.1 h
  cases o with
  | deplacement | fin => exact ⟨_, _, List.mem_singleton.1 hm⟩
  | ajout | debut | evacuation => cases hm

end Retours

/-! ## The orders -/

section Ordres

omit [Horloge τ] in
/-- The order of a command. -/
theorem valide_ordreDe {r : Fin 4} {temps : τ} {p : Publication} {o : Ordre τ} (hp : Valide p)
    (ho : ordreDe n r temps p = some o) : o.Valide := by
  cases p with
  | deplacerPiece msg =>
    cases ho
    exact hp
  | faireTache | evacuer =>
    cases ho
    trivial
  | srvAddProduct | addProduct => cases ho

/-- A command for another robot. -/
theorem ordreDe_autre {r : Fin 4} {temps : τ} {p : Publication} {o : Ordre τ} (hp : destinee r p = false)
    (ho : ordreDe n r temps p = some o) (v : Atelier.Vue τ) : actions o v = [] ∧ reponses o v = [] := by
  cases p with
  | faireTache msg =>
    cases ho
    have hmsg : msg.numRobot ≠ numero r := by simpa [destinee] using hp
    exact ⟨if_neg fun h => hmsg h.1, if_neg fun h => hmsg h.1⟩
  | deplacerPiece msg =>
    cases ho
    have hmsg : msg.numRobot ≠ numero r := by simpa [destinee] using hp
    exact ⟨if_neg hmsg.symm, if_neg hmsg.symm⟩
  | evacuer =>
    cases ho
    have hnum : numero r ≠ 2 := by simpa [destinee] using hp
    exact ⟨if_neg hnum, rfl⟩
  | srvAddProduct | addProduct => cases ho

/-- What the cell does of an order. -/
structure Ordonne (s : Systeme τ) (o : Ordre τ) (s' : Systeme τ) : Prop where
  petri : s'.petri = s.petri
  attente : s'.attente = s.attente
  equipee : Equipee s'.cellule
  vue : vue s'.cellule = (actions o (vue s.cellule)).foldl Atelier.Vue.apres (vue s.cellule)
  retours : ∀ r data, (data = 8 ∨ data = 9 ∨ data = 10) → (s'.retours r).count data =
    (s.retours r).count data + (reponses o (Atelier.vue s.cellule)).count (.retourCommande (numero r) data)
  erreurs : ∀ code q, .erreurLog code q ∈ s'.cellule.sim.journal →
    .erreurLog code q ∈ s.cellule.sim.journal ∨ .erreurLog code q ∈ reponses o (Atelier.vue s.cellule)

/-- An order is executed, and its answers are on their way. -/
theorem ordonne_of_ordonner (hc : Equipee s.cellule) {o : Ordre τ} (ho : o.Valide)
    (hs : s.ordonner o = some s') :
    Ordonne s o s' := by
  rw [Systeme.ordonner] at hs
  split at hs
  · rename_i res c hex
    cases hs
    obtain ⟨hc', hvue, -⟩ := Atelier.executerOrdre_vue hc ho hex
    refine ⟨rfl, rfl, hc', hvue, fun r data hdata => ?_, fun code q hmem => ?_⟩
    · have hcount : (c.sim.journal.drop s.cellule.sim.journal.length).count
        (.retourCommande (numero r) data) =
          (reponses o (vue s.cellule)).count (.retourCommande (numero r) data) := by
        rw [← reponses_publiees hc ho hex, List.count_filter]
        rcases hdata with rfl | rfl | rfl <;> rfl
      rw [Systeme.avecCellule, List.count_append, count_retourDe, hcount]
    · have hfilter : Message.erreurLog code q ∈ c.sim.journal.filter estReponse :=
        List.mem_filter.2 ⟨hmem, rfl⟩
      rw [Atelier.reponses_executerOrdre hc ho hex] at hfilter
      exact (List.mem_append.1 hfilter).imp_left List.mem_of_mem_filter
  · cases hs

theorem ordonner_ok {o : Ordre τ} (h : ∃ x, Cellule.executerOrdre o s.cellule = .ok x) :
    ∃ s', s.ordonner o = some s' := by
  obtain ⟨x, hx⟩ := h
  rw [Systeme.ordonner, hx]
  exact ⟨_, rfl⟩

/-- The node does not see it. -/
theorem petri_ordonner {o : Ordre τ} (hs : s.ordonner o = some s') : s'.petri = s.petri := by
  rw [Systeme.ordonner] at hs
  split at hs
  · cases hs
    rfl
  · cases hs

/-- The cell executes an order that makes operations. -/
theorem Suivi.ordonner (h : Suivi n k l e s) {attente : Fin 4 → List Publication} {o : Ordre τ}
    (ho : o.Valide)
    (hs : ({ s with attente } : Systeme τ).ordonner o = some s') {faits : Fin 4 → List Publication}
    {l' : List Operation} {e' : Etat}
    (hfait : Poursuivi n k l faits (reponses o (vue s.cellule)) l' e'
      ((actions o (vue s.cellule)).foldl Atelier.Vue.apres (vue s.cellule)))
    (hattente : ∀ r, (s.attente r).filter (destinee r) = faits r ++ (attente r).filter (destinee r))
    (hsous : ∀ r, ∀ p ∈ attente r, p ∈ s.attente r) : Suivi n k l' e' s' := by
  have hordonne := ordonne_of_ordonner (s := { s with attente }) h.equipee ho hs
  exact
    { avancement := hordonne.petri ▸ h.avancement
      equipee := hordonne.equipee
      chantier := hordonne.vue ▸ hfait.chantier
      files := fun r => by
        rw [hordonne.attente]
        exact List.append_cancel_left (((hattente r).symm.trans (h.files r)).trans (hfait.files r))
      valides := fun r p hp => by
        rw [hordonne.attente] at hp
        exact h.valides r p (hsous r p hp)
      attendues := fun r data hdata => by
        have hretours : (s'.retours r).count data = (s.retours r).count data +
            (reponses o (vue s.cellule)).count (.retourCommande (numero r) data) :=
              hordonne.retours r data hdata
        have hattendues := h.attendues r data hdata
        rw [hfait.dus.count_eq, List.count_append] at hattendues
        rw [hordonne.petri, hretours]
        show s.petri.enCours.attendus (numero r) data = _
        omega
      erreurs := fun code q hmem => by
        rcases hordonne.erreurs code q hmem with hold | hnew
        · exact h.erreurs code q hold
        · obtain ⟨numRobot, data, heq⟩ := retour_of_dus (hfait.dus.symm.subset (List.mem_append_left _ hnew))
          cases heq }

/-- A robot executes its next command. -/
theorem Suivi.executer (h : Suivi n k l e s) {r : Fin 4} {temps : τ}
    (hs : s.etape n (.executer r temps) = some s') : ∃ l' e', Suivi n k l' e' s' := by
  rw [Systeme.etape] at hs
  split at hs
  · cases hs
  · rename_i p attente hr
    obtain ⟨o, ho, hs⟩ := Option.bind_eq_some_iff.1 hs
    have hp : Valide p := (h.valides r p (hr ▸ List.mem_cons_self)).1
    have hsous : ∀ r', ∀ q ∈ Function.update s.attente r attente r', q ∈ s.attente r' := by
      intro r' q hq
      by_cases hr' : r' = r
      · subst hr'
        rw [Function.update_self] at hq
        rw [hr]
        exact List.mem_cons_of_mem _ hq
      · rwa [Function.update_of_ne hr'] at hq
    have hreste : ∀ r', (s.attente r').filter (destinee r') =
        (if r' = r then [p].filter (destinee r) else []) ++
          (Function.update s.attente r attente r').filter (destinee r') := by
      intro r'
      by_cases hr' : r' = r
      · subst hr'
        rw [if_pos rfl, Function.update_self, hr, ← List.filter_append]
        rfl
      · rw [if_neg hr', Function.update_of_ne hr']
        rfl
    cases hdest : destinee r p with
    | true =>
      have hfile : l.filterMap (message r) = p :: attente.filter (destinee r) := by
        rw [← h.files r, hr, List.filter_cons_of_pos hdest]
      obtain ⟨l', e', hfait⟩ := h.chantier.commande hfile temps ho
      refine ⟨l', e', h.ordonner (valide_ordreDe hp ho) hs hfait (fun r' => ?_) hsous⟩
      rw [hreste r', List.filter_cons_of_pos hdest, List.filter_nil]
    | false =>
      obtain ⟨hactions, hreponses⟩ := ordreDe_autre hdest ho (vue s.cellule)
      have hfait : Poursuivi n k l (fun _ => []) (reponses o (vue s.cellule)) l e
          ((actions o (vue s.cellule)).foldl Atelier.Vue.apres (vue s.cellule)) := by
        rw [hactions, hreponses]
        exact h.chantier.rien
      refine ⟨l, e, h.ordonner (valide_ordreDe hp ho) hs hfait (fun r' => ?_) hsous⟩
      rw [hreste r', List.filter_cons_of_neg (by simp [hdest]), List.filter_nil, ite_self]

/-- A robot looks whether its tasks are over. -/
theorem Suivi.update (h : Suivi n k l e s) {r : Fin 4} {temps : τ}
    (hs : s.etape n (.update r temps) = some s') :
    ∃ l' e', Suivi n k l' e' s' ∧ (dus l).Perm (reponses (.update r temps) (vue s.cellule) ++ dus l') := by
  obtain ⟨l', e', hfait⟩ := h.chantier.update r temps
  have ho : (Ordre.update r temps : Ordre τ).Valide := trivial
  exact ⟨l', e', h.ordonner ho hs hfait (fun _ => rfl) fun _ _ hp => hp, hfait.dus⟩

end Ordres

/-! ## The command node -/

section Noeud

omit [Horloge τ] in
/-- A step of the node that publishes nothing and expects what it expected. -/
theorem Suivi.avecPetri (h : Suivi n k l e s) {petri : Petri}
    (havancement : ∃ j tires, Avancement k j tires petri)
    (henCours : petri.enCours = s.petri.enCours) : Suivi n k l e { s with petri } :=
  { h with
    avancement := havancement
    attendues := by
      show Attendues l s.retours petri.enCours
      rw [henCours]
      exact h.attendues }

omit [Horloge τ] in
/-- An acknowledgement answers a command. -/
theorem Suivi.repondre_attendu (h : Suivi n k l e s) {r : Fin 4} {data : ℤ} {retours : List ℤ}
    (hr : s.retours r = data :: retours) : ∃ enCours, s.petri.enCours.repondre (numero r) data =
      some enCours ∧
      Attendues l (Function.update s.retours r retours) enCours := by
  by_cases hdata : data = 8 ∨ data = 9 ∨ data = 10
  · have hne : s.petri.enCours.attendus (numero r) data ≠ 0 := by
      rw [h.attendues r data hdata, hr, List.count_cons_self]
      omega
    obtain ⟨enCours, hrepondre, hattendus⟩ := EnCours.repondre_attendu hdata hne
    refine ⟨enCours, hrepondre, fun r' d hd => ?_⟩
    have havant := h.attendues r' d hd
    rw [hattendus (numero r') d] at havant
    by_cases hr' : r' = r
    · subst hr'
      rw [hr, List.count_cons] at havant
      rw [Function.update_self]
      by_cases hd' : d = data
      · simp [hd'] at havant ⊢
        omega
      · simp [hd', Ne.symm hd'] at havant ⊢
        omega
    · rw [if_neg fun hici => hr' (Atelier.numero_injective hici.1)] at havant
      rw [Function.update_of_ne hr']
      exact havant
  -- the other acknowledgements, of the positions and of the grippers
  · refine ⟨_, EnCours.repondre_autre hdata, fun r' d hd => ?_⟩
    rw [h.attendues r' d hd]
    by_cases hr' : r' = r
    · subst hr'
      have hne : data ≠ d := fun heq => hdata (heq ▸ hd)
      rw [Function.update_self, hr, List.count_cons_of_ne hne]
    · rw [Function.update_of_ne hr']

/-- The node receives an acknowledgement. -/
theorem Suivi.repondre (h : Suivi n k l e s) {r : Fin 4} (hs : s.etape n (.repondre r) = some s') :
    Suivi n k l e s' ∧ ∃ data, s.petri.etape (.retour (numero r) data) = some s'.petri := by
  rw [Systeme.etape] at hs
  split at hs
  · cases hs
  · rename_i data retours hr
    split_ifs at hs with hreste
    cases hs
    obtain ⟨enCours, hrepondre, hattendues⟩ := h.repondre_attendu hr
    have hpetri : s.petri.etape (.retour (numero r) data) = some (recevoir s.petri (numero r) data) := by
      rw [Petri.etape, if_pos hreste, recevoir, hrepondre]
      rfl
    obtain ⟨j, tires, havancement⟩ := h.avancement
    refine ⟨{ h with avancement := ⟨j, tires, havancement.hors_test (by simp) hpetri⟩, attendues :=
      ?_ }, _, hpetri⟩
    show Attendues l (Function.update s.retours r retours) (recevoir s.petri (numero r) data).enCours
    rw [recevoir, hrepondre]
    exact hattendues

omit [Horloge τ] in
/-- Nothing that a test tells to be done still waits. -/
theorem Suivi.acquittees (h : Suivi n k l e s) {cond : Condition}
    (hcond : cond.vraie s.petri.capteurs s.petri.robot) : ∀ o ∈ l, acquitte cond o = false := by
  obtain ⟨j, tires, havancement⟩ := h.avancement
  obtain ⟨v, -, hconf, -⟩ := havancement.conforme
  have hnb := hconf.accorde.nbRobot
  have hk : k ∈ List.range 27 := h.chantier.mem_range
  -- an answer that is not expected is not due
  have hdus : ∀ r data, (data = 8 ∨ data = 9 ∨ data = 10) → s.petri.enCours.attendus (numero r) data = 0 →
      Message.retourCommande (numero r) data ∉ dus l := by
    intro r data hdata hzero hmem
    have hcount := List.count_pos_iff.2 hmem
    have hattendues := h.attendues r data hdata
    omega
  cases cond with
  | ps | nonPS | cp | dg =>
    intro o _
    cases o <;> rfl
  | finDeplacerPiece numRobot =>
    intro o ho
    cases o with
    | deplacement msg =>
      refine decide_eq_false fun hmsg => ?_
      obtain ⟨r, hr⟩ := robot_existe (robots_prevus k hk _ (h.chantier.en_suspens.subset ho) _ rfl)
      have hrange := robots_prevus k hk _ (h.chantier.en_suspens.subset ho) _ rfl
      rw [Condition.vraie, RobotsInterface.finDeplacerPiece, if_neg (by omega), ← hmsg, ← hr] at hcond
      refine hdus r 10 (.inr (.inr rfl)) (hconf.accorde.deplacements.libre _ hcond) ?_
      rw [hr]
      exact List.mem_flatMap.2 ⟨_, ho, List.mem_singleton_self _⟩
    | ajout | debut | fin | evacuation => rfl
  | tacheFinie q =>
    -- no task is to end on the post
    have hfin : ∀ msg, computeFromNumPoste q = some (msg.numRobot, msg.position) → .fin msg ∉ l := by
      rintro ⟨numRobot, position, duree⟩ hq hmem
      have hq' := computeFromNumPoste_range hq
      have hnum : 1 ≤ numRobot ∧ numRobot ≤ 4 := robot_of_compute hq
      obtain ⟨r, rfl⟩ := robot_existe hnum
      have hpos : position = 1 ∨ position = 4 := position_of_compute hq
      rw [Condition.vraie, RobotsInterface.tacheFinie, if_neg (by omega), hq] at hcond
      have hzero := hconf.accorde.taches.libre _ hcond
      have hdue : Message.retourCommande (numero r) (Robot.codeRetour position) ∈ dus l :=
        List.mem_flatMap.2 ⟨_, hmem, List.mem_singleton_self _⟩
      rcases hpos with rfl | rfl
      · exact hdus r 8 (.inl rfl) hzero hdue
      · exact hdus r 9 (.inr (.inl rfl)) hzero hdue
    intro o ho
    cases o with
    | fin msg => exact decide_eq_false fun hq => hfin msg hq ho
    -- a task that is to start is also to end
    | debut msg =>
      refine decide_eq_false fun hq => ?_
      have hpos := position_of_compute hq
      have hnum := robots_prevus k hk _ (h.chantier.en_suspens.subset ho) _ rfl
      have ht := postes_prevus k hk msg.numRobot (by simp; omega) msg.position (by simpa using hpos)
      obtain ⟨msg', hmem, hposte⟩ := fin_of_debut h.chantier.differe ho ht
      have heq : msg'.numRobot = msg.numRobot ∧ msg'.position = msg.position := by
        simpa [posteDe] using hposte
      exact hfin msg' (by rw [hq, heq.1, heq.2]) hmem
    | ajout | deplacement | evacuation => rfl

end Noeud

/-! ## What is published -/

section Publications

variable {ps : List Publication}

omit [Horloge τ] in
theorem publications_valides : ∀ t ∈ transitions, ∀ p ∈ t.publications, Valide p := by decide

/-- What is asked of the robots waits. -/
theorem publier_demandees (hps : ∀ o ∈ ps.flatMap operations, o.demandee = true) (s : Systeme τ) :
    ∃ attente, ps.foldlM Systeme.publier s = some { s with attente } ∧
      (∀ r, (attente r).filter (destinee r) = (s.attente r).filter (destinee r) ++ ps.filter (destinee r)) ∧
      ∀ r, ∀ p ∈ attente r, p ∈ s.attente r ∨ (p ∈ ps ∧ estCommande p = true) := by
  induction ps generalizing s with
  | nil => exact ⟨s.attente, rfl, fun r => (List.append_nil _).symm, fun r p hp => .inl hp⟩
  | cons p ps ih =>
    rw [List.flatMap_cons, List.forall_mem_append] at hps
    have hpublier : ∃ attente, s.publier p = some { s with attente } ∧
        (∀ r, (attente r).filter (destinee r) = (s.attente r).filter (destinee r) ++
          [p].filter (destinee r)) ∧
        ∀ r, ∀ p' ∈ attente r, p' ∈ s.attente r ∨ (p' = p ∧ estCommande p = true) := by
      cases p with
      | srvAddProduct poste produit => exact absurd (hps.1 _ (List.mem_singleton_self _)) Bool.false_ne_true
      | addProduct => exact ⟨s.attente, rfl, fun r => (List.append_nil _).symm, fun r p hp => .inl hp⟩
      | deplacerPiece | faireTache | evacuer =>
        refine ⟨_, rfl, fun r => List.filter_append .., fun r p hp => ?_⟩
        simpa [estCommande] using hp
    obtain ⟨attente₁, hp, hfiles₁, hsous₁⟩ := hpublier
    obtain ⟨attente, hps', hfiles, hsous⟩ := ih hps.2 { s with attente := attente₁ }
    refine ⟨attente, ?_, fun r => ?_, fun r p' hp' => ?_⟩
    · rw [List.foldlM_cons, hp]
      exact hps'
    · rw [hfiles r]
      show (attente₁ r).filter (destinee r) ++ _ = _
      rw [hfiles₁ r, List.append_assoc, ← List.filter_append]
      rfl
    · rcases hsous r p' hp' with hold | ⟨hmem, hcommande⟩
      · rcases hsous₁ r p' hold with hold | ⟨rfl, hcommande⟩
        · exact .inl hold
        · exact .inr ⟨List.mem_cons_self, hcommande⟩
      · exact .inr ⟨List.mem_cons_of_mem _ hmem, hcommande⟩

/-- A product is added to a free post. -/
theorem ajout_ok {c : Cellule τ} (hc : Equipee c) {q : ℤ} (hq : 1 ≤ q ∧ q ≤ 8) (produit : ℤ)
    (hbase : (c.sim.couleur (CommandeLocale.nomTable (CommandeLocale.computeTableId q))).base = 0) :
    ∃ x, Cellule.executerOrdre (.ajouterProduit produit q) c = .ok x := by
  obtain ⟨r, position, -, -, hcible, -⟩ := poste_ajoute hq
  have hrun : (CommandeLocale.addProduct produit q).run Atelier.Simulateur.handler () c.sim = _ :=
    Atelier.addProduct_run c.sim hcible
  dsimp only at hrun
  rw [if_neg fun hne => hne hbase] at hrun
  have hstop : (c.sim.peindre (CommandeLocale.nomTable (CommandeLocale.computeTableId q))
      (Pile.ofList (CommandeLocale.pileProduit produit))).stopTaches = [] := hc.stopTaches
  rw [Cellule.executerOrdre, Cellule.ajouterProduit, hrun]
  show ∃ x, Except.map _ (c.livrerStops _) = .ok x
  simp only [Cellule.livrerStops, hstop, List.foldlM_nil]
  exact ⟨_, rfl⟩

/-- What is added is in the cell at once. -/
theorem publier_ajouts {seconde : Bool} (hc : Equipee s.cellule)
    (hm : Montre (n.nom seconde) e (vue s.cellule))
    (hpossible : Admissible Etat.Possible Etat.effet e (ps.flatMap operations))
    (hps : ∀ o ∈ ps.flatMap operations, o.demandee = false) :
    ∃ s', ps.foldlM Systeme.publier s = some s' ∧ s'.petri = s.petri ∧ s'.attente = s.attente ∧
      Equipee s'.cellule ∧
      Montre (n.nom seconde) ((ps.flatMap operations).foldl Etat.effet e) (vue s'.cellule) ∧
      (∀ r data, (data = 8 ∨ data = 9 ∨ data = 10) → (s'.retours r).count data = (s.retours r).count data) ∧
      ∀ code q, .erreurLog code q ∈ s'.cellule.sim.journal → .erreurLog code q ∈ s.cellule.sim.journal := by
  induction ps generalizing s e with
  | nil => exact ⟨s, rfl, rfl, rfl, hc, hm, fun _ _ _ => rfl, fun _ _ h => h⟩
  | cons p ps ih =>
    rw [List.flatMap_cons, List.forall_mem_append] at hps
    rw [List.flatMap_cons, admissible_append] at hpossible
    rw [List.flatMap_cons, List.foldl_append]
    cases p with
    | srvAddProduct poste produit =>
      obtain ⟨⟨hposs, -⟩, hpossible⟩ := hpossible
      obtain ⟨hbase, hajout⟩ := hm.ajout hposs
      have hreponses : reponses (.ajouterProduit produit poste) (vue s.cellule) = [] := by
        rw [reponses]
        cases CommandeLocale.computeNumRobotPosteTache poste with
        | none => rfl
        | some cible => exact if_neg fun hne => hne hbase
      obtain ⟨s₁, hs₁⟩ := ordonner_ok (ajout_ok hc hposs.1 produit hbase)
      have hordonne := ordonne_of_ordonner hc (o := .ajouterProduit produit poste) hposs.1 hs₁
      obtain ⟨s', hs', hpetri, hattente, hc', hm', hretours, herreurs⟩ :=
        ih hordonne.equipee (hordonne.vue ▸ hajout) hpossible hps.2
      refine ⟨s', ?_, hpetri.trans hordonne.petri, hattente.trans hordonne.attente, hc', hm',
        fun r data hdata => ?_,
        fun code q hmem => ?_⟩
      · rw [List.foldlM_cons]
        show (s.ordonner _).bind _ = _
        rw [hs₁]
        exact hs'
      · rw [hretours r data hdata, hordonne.retours r data hdata, hreponses]
        rfl
      · rcases hordonne.erreurs code q (herreurs code q hmem) with hold | hnew
        · exact hold
        · rw [hreponses] at hnew
          cases hnew
    | addProduct => exact ih hc hm hpossible.2 hps.2
    | deplacerPiece | faireTache | evacuer =>
      exact absurd (hps.1 _ List.mem_cons_self) (by simp [Operation.demandee])

end Publications

/-! ## Runs -/

section Runs

/-- The node tests a transition. -/
theorem Suivi.suivant (h : Suivi n k l e s) {petri : Petri} (hpetri : s.petri.etape .suivant = some petri) :
    ∃ k' l' e' s', s.etape n .suivant = some s' ∧ Suivi n k' l' e' s' ∧ s'.petri = petri := by
  have hetape : s.etape n .suivant = (emises s.petri petri).foldlM Systeme.publier { s with petri } := by
    rw [Systeme.etape, hpetri]
    rfl
  rw [hetape]
  obtain ⟨j, tires, havancement⟩ := h.avancement
  rcases havancement.suivant_cas hpetri with
    ⟨j', tires', havancement', hemises, henCours⟩ | ⟨t, j', tires', ht, hconds, havancement',
      hemises, henCours⟩
  · rw [hemises]
    exact ⟨k, l, e, _, rfl, h.avecPetri ⟨j', tires', havancement'⟩ henCours, rfl⟩
  · rw [hemises]
    have hk := lt_of_chaine ht
    have htrans : t ∈ transitions := List.mem_of_mem_filter (List.mem_of_getElem? ht)
    have hacquittees : ∀ cond ∈ t.conditions, ∀ o ∈ l, acquitte cond o = false := fun cond hcond =>
      h.acquittees (hconds cond hcond)
    have hattendus := fun r data => EnCours.attendus_foldl s.petri.enCours
      (publications_valides t htrans) r data
    rcases ajouts_prevus k (List.mem_range.2 hk) t ht with hdemandees | ⟨hvide, hajouts⟩
    · obtain ⟨attente, hs', hfiles, hsous⟩ := publier_demandees hdemandees { s with petri }
      refine ⟨k + 1, l ++ operationsDe t, e, _, hs', ?_, rfl⟩
      exact
        { avancement := ⟨j', tires', havancement'⟩
          equipee := h.equipee
          chantier := h.chantier.tirer ht hacquittees hdemandees
          files := fun r => by
            rw [hfiles r, List.filterMap_append, operationsDe, filterMap_flatMap_operations]
            exact congrArg (· ++ _) (h.files r)
          valides := fun r p hp => (hsous r p hp).elim (h.valides r p) fun hmem =>
            ⟨publications_valides t htrans p hmem.1, hmem.2⟩
          attendues := fun r data hdata => by
            show petri.enCours.attendus (numero r) data = _ + (s.retours r).count data
            rw [henCours, hattendus, h.attendues r data hdata, dus_append, List.count_append, operationsDe]
            omega
          erreurs := h.erreurs }
    -- the products are added to a cell where nothing waits
    · have hl : l = [] := by
        have hsous := h.chantier.en_suspens
        rwa [hvide, List.sublist_nil] at hsous
      subst hl
      have he : e = etatPrevu k := h.chantier.differe.result
      have hrien : ∀ m, (dus (operationsDe t)).count m = 0 := by
        intro m
        refine List.count_eq_zero.2 fun hmem => ?_
        obtain ⟨o, ho, hm⟩ := List.mem_flatMap.1 hmem
        cases o with
        | ajout => cases hm
        | debut | fin | deplacement | evacuation => exact absurd (hajouts _ ho) (by simp [Operation.demandee])
      obtain ⟨s', hs', hpetri', hattente, hc, hm, hretours, herreurs⟩ :=
        publier_ajouts (s := { s with petri })
        h.equipee (h.chantier.montre_suivant ht hacquittees) (he ▸ possible_prevues ht) hajouts
      refine ⟨k + 1, [], etatPrevu (k + 1), s', hs', ?_, hpetri'⟩
      exact
        { avancement := hpetri'.symm ▸ ⟨j', tires', havancement'⟩
          equipee := hc
          chantier := by
            refine ⟨?_, Deferred.nil _, List.nil_sublist _, hk⟩
            rw [etatPrevu_succ ht, ← he]
            exact hm
          files := fun r => by
            rw [hattente]
            exact h.files r
          valides := fun r p hp => h.valides r p (by rwa [hattente] at hp)
          attendues := fun r data hdata => by
            have hcount := hattendus (numero r) data
            have hzero := hrien (.retourCommande (numero r) data)
            have hattendues := h.attendues r data hdata
            rw [operationsDe] at hzero
            rw [hpetri', hretours r data hdata]
            show petri.enCours.attendus (numero r) data = _ + (s.retours r).count data
            rw [henCours, hcount, hzero, hattendues]
            rfl
          erreurs := fun code q hmem => h.erreurs code q (herreurs code q hmem) }

/-- Every step, and what the net sees of it. -/
theorem Suivi.etape (h : Suivi n k l e s) {ev : Evenement τ} (hs : s.etape n ev = some s') :
    (∃ k' l' e', Suivi n k' l' e' s') ∧
      (s'.petri = s.petri ∨ ∃ ev' : Commande.Evenement, s.petri.etape ev' = some s'.petri) := by
  cases ev with
  | suivant =>
    obtain ⟨petri, hpetri, -⟩ := Option.bind_eq_some_iff.1 hs
    obtain ⟨k', l', e', s'', hs'', hsuivi, hpetri'⟩ := h.suivant hpetri
    obtain rfl : s'' = s' := Option.some.inj (hs''.symm.trans hs)
    exact ⟨⟨k', l', e', hsuivi⟩, .inr ⟨_, hpetri'.symm ▸ hpetri⟩⟩
  | iterer c =>
    obtain ⟨petri, hpetri, rfl⟩ := Option.map_eq_some_iff.1 hs
    obtain ⟨j, tires, havancement⟩ := h.avancement
    have henCours := enCours_hors_test (.inl ⟨c, rfl⟩) hpetri
    exact ⟨⟨k, l, e, h.avecPetri ⟨j, tires, havancement.hors_test (by simp) hpetri⟩ henCours⟩,
      .inr ⟨_, hpetri⟩⟩
  | play b =>
    obtain ⟨petri, hpetri, rfl⟩ := Option.map_eq_some_iff.1 hs
    obtain ⟨j, tires, havancement⟩ := h.avancement
    have henCours := enCours_hors_test (.inr ⟨b, rfl⟩) hpetri
    exact ⟨⟨k, l, e, h.avecPetri ⟨j, tires, havancement.hors_test (by simp) hpetri⟩ henCours⟩,
      .inr ⟨_, hpetri⟩⟩
  | repondre r =>
    obtain ⟨hs', data, hpetri⟩ := h.repondre hs
    exact ⟨⟨k, l, e, hs'⟩, .inr ⟨_, hpetri⟩⟩
  | executer r temps =>
    obtain ⟨l', e', hs'⟩ := h.executer hs
    refine ⟨⟨k, l', e', hs'⟩, .inl ?_⟩
    rw [Systeme.etape] at hs
    split at hs
    · cases hs
    · obtain ⟨o, -, ho⟩ := Option.bind_eq_some_iff.1 hs
      have hpetri := petri_ordonner ho
      exact hpetri
  | update r temps =>
    obtain ⟨l', e', hs', -⟩ := h.update hs
    exact ⟨⟨k, l', e', hs'⟩, .inl (petri_ordonner hs)⟩

/-- The node and the cell at the start. -/
theorem suivi_initial (temps : τ) : Suivi n 0 [] Etat.vide (.initial temps) where
  avancement := ⟨0, [], avancement_initial⟩
  equipee := Atelier.equipee_initiale _ _
  chantier := by
    refine ⟨⟨fun p _ => rfl, fun x _ => rfl, fun r => rfl, fun r position _ => ?_, rfl⟩, ⟨trivial, rfl⟩,
      List.nil_sublist _, Nat.zero_le _⟩
    exact Atelier.taskEnCours_init (numero r) position
  files _ := rfl
  valides r p hp := by cases hp
  attendues r data hdata := by rcases hdata with rfl | rfl | rfl <;> rfl
  erreurs code q hmem := by cases hmem

/-- The steps of the shop. -/
abbrev Avance (n : Trafic) (s : Systeme τ) (ev : Evenement τ) (s' : Systeme τ) : Prop :=
    s.etape n ev = some s'

/-- Where the shop stands after a run, which is a run of the net. -/
theorem suivi_of_run {temps : τ} {trace : List (Evenement τ)} (h : Run (Avance n) (.initial temps) trace s) :
    (∃ k l e, Suivi n k l e s) ∧ ∃ recit, Run Petri.Avance .initial recit s.petri := by
  have hstep : ∀ (_ : List (Evenement τ)) (s : Systeme τ) ev s',
      ((∃ k l e, Suivi n k l e s) ∧ ∃ recit, Run Petri.Avance .initial recit s.petri) → Avance n s ev s' →
        (∃ k l e, Suivi n k l e s') ∧ ∃ recit, Run Petri.Avance .initial recit s'.petri := by
    rintro _ s ev s' ⟨⟨k, l, e, hs⟩, recit, hrun⟩ hetape
    obtain ⟨hs', hpetri | ⟨ev', hpetri⟩⟩ := hs.etape hetape
    · exact ⟨hs', recit, hpetri ▸ hrun⟩
    · exact ⟨hs', _, hrun.snoc hpetri⟩
  exact h.invariant ⟨⟨0, [], Etat.vide, suivi_initial temps⟩, [], .nil⟩ hstep

/-- What is executed is a run. -/
theorem run_foldlM {evs : List (Evenement τ)} (h : evs.foldlM (Systeme.etape n) s = some s') :
    Run (Avance n) s evs s' := by
  induction evs generalizing s with
  | nil =>
    cases h
    exact .nil
  | cons ev evs ih =>
    rw [List.foldlM_cons] at h
    obtain ⟨s₁, hev, h⟩ := Option.bind_eq_some_iff.1 h
    have hsingle : Run (Avance n) s [ev] s₁ := Run.nil.snoc hev
    exact hsingle.append (ih h)

end Runs

/-! ## The promise of the robots -/

/-- Whatever the order of the steps, the robots answer each command once, as the net relies on, so
that a run of the shop is a run of the net; and no error is logged. -/
theorem commandes_acquittees {temps : τ} {trace : List (Evenement τ)}
    (h : Run (Avance n) (.initial temps) trace s) :
    (∃ recit, Run Petri.Avance .initial recit s.petri) ∧
      (∀ r data retours, s.retours r = data :: retours →
        (s.petri.enCours.repondre (numero r) data).isSome = true) ∧
      ∀ code q, .erreurLog code q ∉ s.cellule.sim.journal := by
  obtain ⟨⟨k, l, e, hs⟩, hpetri⟩ := suivi_of_run h
  refine ⟨hpetri, fun r data retours hr => ?_, hs.erreurs⟩
  obtain ⟨enCours, hrepondre, -⟩ := hs.repondre_attendu hr
  rw [hrepondre]
  rfl

/-- Two shuttles. -/
def deuxNavettes : Trafic where
  navette _ violet := if violet then 1 else 0
  existe _ violet := by cases violet <;> decide
  distinctes _ := by decide

/-- Robot 4 is asked for its first task, and ends it. -/
theorem commandes_acquittees_premiereTache : ∃ trace s, Run (Avance deuxNavettes) (.initial (0 : ℤ)) trace s ∧
    ∃ r, s.retours r = [8] ∧ (s.petri.enCours.repondre (numero r) 8).isSome = true := by
  have hretours : (([.play true, .iterer { Capteurs.initial with PSx := fun _ => true }, .suivant, .suivant,
      .executer 3 0, .update 3 10] : List (Evenement ℤ)).foldlM (Systeme.etape deuxNavettes)
        (.initial 0)).map (fun s => s.retours 3) = some [8] := by decide +kernel
  obtain ⟨s, hs, hr⟩ := Option.map_eq_some_iff.1 hretours
  have hrun := run_foldlM hs
  exact ⟨_, s, hrun, 3, hr, (commandes_acquittees hrun).2.1 3 8 [] hr⟩

/-! ## The products -/

section Sorties

omit [Horloge τ]

/-- The first product evacuated has the base of type 6 and its tasks at the posts 7, 6, 5, 5 and 3,
the second the base of type 2 and its tasks at the posts 1 and 4. -/
def sortiesPrevues : List (List ℤ) := [[64, 73, 63, 53, 53, 33], [24, 13, 43, 0, 0, 0]]

theorem Suivi.sorties (h : Suivi n k l e s) : Atelier.evacuesDe s.cellule.sim.journal <+: sortiesPrevues := by
  have hprevues : sortiesPrevues = (etatPrevu 26 .sortie).produits.map fun e => (Pile.ofList e).toList := by
    rw [sorties_prevues]
    decide
  have hevacues : Atelier.evacuesDe s.cellule.sim.journal = _ := h.chantier.montre.evacues
  rw [hevacues, hprevues]
  exact h.chantier.sorties.map _

/-- When the robots have executed every command, at the end, nothing waits. -/
theorem Suivi.acheve (h : Suivi n 26 l e s) (hattente : ∀ r, s.attente r = []) :
    l = [] ∧ e = etatPrevu 26 := by
  have hdeux : (1 : ℤ) ≤ 2 ∧ (2 : ℤ) ≤ 4 := by decide
  obtain ⟨r, hr⟩ := robot_existe hdeux
  have hl : l = [] := by
    refine List.eq_nil_iff_forall_not_mem.2 fun o ho => ?_
    have hfile : l.filterMap (message r) = [] := by
      rw [← h.files r, hattente r]
      rfl
    have hmessage := List.filterMap_eq_nil_iff.1 hfile o ho
    rw [suspens_fin o (h.chantier.en_suspens.subset ho), message, if_pos hr] at hmessage
    cases hmessage
  subst hl
  exact ⟨rfl, h.chantier.differe.result⟩

/-- Both products have left, and nothing is left. -/
theorem Suivi.vide (h : Suivi n 26 l e s) (hattente : ∀ r, s.attente r = []) :
    Atelier.evacuesDe s.cellule.sim.journal = sortiesPrevues ∧ ∀ nom,
        s.cellule.sim.couleur nom = Pile.vide := by
  obtain ⟨-, rfl⟩ := h.acheve hattente
  have hevacues : Atelier.evacuesDe s.cellule.sim.journal = _ := h.chantier.montre.evacues
  refine ⟨?_, h.chantier.montre.videe⟩
  rw [hevacues, sorties_prevues]
  decide

end Sorties

/-- Whatever the order of the steps, the products that have left the cell are the first ones of the
program, with their tasks; when the node is at its end and the robots have executed every command,
both have left and the cell is empty. -/
theorem production_conforme {temps : τ} {trace : List (Evenement τ)}
    (h : Run (Avance n) (.initial temps) trace s) :
    Atelier.evacuesDe s.cellule.sim.journal <+: sortiesPrevues ∧
      (s.petri.fini = true → (∀ r, s.attente r = []) →
        Atelier.evacuesDe s.cellule.sim.journal = sortiesPrevues ∧
          ∀ nom, s.cellule.sim.couleur nom = Pile.vide) := by
  obtain ⟨⟨k, l, e, hs⟩, -⟩ := suivi_of_run h
  refine ⟨hs.sorties, fun hfini hattente => ?_⟩
  obtain ⟨j, tires, havancement⟩ := hs.avancement
  obtain rfl : k = 26 := havancement.fini hfini
  exact hs.vide hattente

end Usine
