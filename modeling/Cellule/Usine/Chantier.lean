import Cellule.Usine.Systeme

/-! # The operations under way

The cell shows a shop in which the operations that wait, performed in the order of the program, lead
to where the program is. What a robot does when it executes its next command, and what a tick does
when it ends a task, is one of them, which those that were issued before it do not see.
-/

namespace Usine

open Commande Reactive Robots Robots.Robot
open Atelier (Ordre numero signaux gestes DebutPossible acquit reponses finAcquittee actions numero_injective)

/-! ## Messages and acknowledgements -/

/-- The command by which a robot makes an operation. -/
def message (r : Fin 4) : Operation → Option Publication
  | .debut msg => if msg.numRobot = numero r then some (.faireTache msg) else none
  | .deplacement msg => if msg.numRobot = numero r then some (.deplacerPiece msg) else none
  | .evacuation => if numero r = 2 then some .evacuer else none
  | .ajout _ _ | .fin _ => none

/-- The commands that are for a robot. -/
def destinee (r : Fin 4) : Publication → Bool
  | .faireTache msg => decide (msg.numRobot = numero r)
  | .deplacerPiece msg => decide (msg.numRobot = numero r)
  | .evacuer => decide (numero r = 2)
  | .srvAddProduct _ _ | .addProduct _ _ => false

/-- What the cell answers when an operation is made. -/
def Operation.reponse : Operation → List Message
  | .deplacement msg => [.retourCommande msg.numRobot 10]
  | .fin msg => [.retourCommande msg.numRobot (codeRetour msg.position)]
  | .ajout _ _ | .debut _ | .evacuation => []

/-- The answers that are due. -/
def dus (l : List Operation) : List Message := l.flatMap Operation.reponse

/-- A command that names posts and positions of the cell. -/
def Valide : Publication → Prop
  | .faireTache msg => msg.position = 1 ∨ msg.position = 4
  | .deplacerPiece msg => msg.positionA ∈ [1, 2, 3, 4] ∧ msg.positionB ∈ [1, 2, 3, 4]
  | _ => True

instance : DecidablePred Valide
  | .faireTache _ => inferInstanceAs (Decidable (_ ∨ _))
  | .deplacerPiece _ => inferInstanceAs (Decidable (_ ∧ _))
  | .evacuer | .srvAddProduct _ _ | .addProduct _ _ => inferInstanceAs (Decidable True)

/-- The commands to the robots. -/
def estCommande : Publication → Bool
  | .faireTache _ | .deplacerPiece _ | .evacuer => true
  | .srvAddProduct _ _ | .addProduct _ _ => false

theorem message_eq_none_iff {r : Fin 4} {o : Operation} :
    message r o = none ↔ o.robot ≠ some (numero r) := by
  cases o <;> simp [message, Operation.robot, eq_comm]

/-- The commands of a publication for a robot. -/
theorem filterMap_operations (r : Fin 4) (p : Publication) :
    (operations p).filterMap (message r) = [p].filter (destinee r) := by
  cases p with
  | faireTache msg => by_cases h : msg.numRobot = numero r <;> simp [operations, message, destinee, h]
  | deplacerPiece msg => by_cases h : msg.numRobot = numero r <;> simp [operations, message, destinee, h]
  | evacuer => by_cases h : numero r = 2 <;> simp [operations, message, destinee, h]
  | srvAddProduct | addProduct => simp [operations, message, destinee]

theorem filterMap_flatMap_operations (r : Fin 4) (ps : List Publication) :
    (ps.flatMap operations).filterMap (message r) = ps.filter (destinee r) := by
  induction ps with
  | nil => rfl
  | cons p ps ih =>
    rw [List.flatMap_cons, List.filterMap_append, ih, filterMap_operations, ← List.filter_append]
    rfl

theorem dus_append (l l' : List Operation) : dus (l ++ l') = dus l ++ dus l' := List.flatMap_append

/-! ## The state of the work -/

variable {τ : Type} {n : Trafic} {k : ℕ} {l l₁ l₂ : List Operation} {s : Etat} {v v' : Atelier.Vue τ}

/-- The operations `l` of the first `k` transitions are still to be made. -/
structure Chantier (n : Trafic) (k : ℕ) (l : List Operation) (s : Etat) (v : Atelier.Vue τ) : Prop where
  montre : Montre (n.nom (decide (11 < k))) s v
  differe : Deferred Etat.Possible Etat.effet s l (etatPrevu k)
  en_suspens : l.Sublist (suspens k)
  k_le : k ≤ 26

/-- The cell, which answers `ms` and shows `v'`, has executed the commands `faits` of each robot and
made operations, so that `l'` is left. -/
structure Poursuivi (n : Trafic) (k : ℕ) (l : List Operation) (faits : Fin 4 → List Publication)
    (ms : List Message) (l' : List Operation) (s' : Etat) (v' : Atelier.Vue τ) : Prop where
  chantier : Chantier n k l' s' v'
  dus : (dus l).Perm (ms ++ dus l')
  files : ∀ r, l.filterMap (message r) = faits r ++ l'.filterMap (message r)

section Chantier

theorem Chantier.mem_range (h : Chantier n k l s v) : k ∈ List.range 27 :=
  List.mem_range.2 (Nat.lt_succ_of_le h.k_le)

/-- Nothing is made. -/
theorem Chantier.rien (h : Chantier n k l s v) : Poursuivi n k l (fun _ => []) [] l s v :=
  ⟨h, .refl _, fun _ => rfl⟩

/-- What precedes an operation that waits. -/
theorem Chantier.suivent {o : Operation} (h : Chantier n k (l₁ ++ o :: l₂) s v) : ∀ b ∈ l₁, Suivent b o := by
  have hpairwise := (suspens_ordonnees k h.mem_range).sublist h.en_suspens
  intro b hb
  exact (List.pairwise_append.1 hpairwise).2.2 b hb o List.mem_cons_self

/-- An operation is made before those that do not see it. -/
theorem Chantier.accomplir {o : Operation} {faits : Fin 4 → List Publication}
    (h : Chantier n k (l₁ ++ o :: l₂) s v) (hind : ∀ b ∈ l₁, Independent Etat.Possible Etat.effet b o)
    (hfiles : ∀ r, (l₁ ++ o :: l₂).filterMap (message r) = faits r ++ (l₁ ++ l₂).filterMap (message r))
    (hmontre : s.Possible o → Montre (n.nom (decide (11 < k))) (s.effet o) v') :
    Poursuivi n k (l₁ ++ o :: l₂) faits o.reponse (l₁ ++ l₂) (s.effet o) v' := by
  obtain ⟨hposs, hdiffere⟩ := h.differe.perform hind
  refine ⟨⟨hmontre hposs, hdiffere, ?_, h.k_le⟩, ?_, hfiles⟩
  · exact ((List.Sublist.refl l₁).append (List.sublist_cons_self o l₂)).trans h.en_suspens
  · exact (List.perm_middle.flatMap_right Operation.reponse).trans (.of_eq List.flatMap_cons)

/-- The next command of a robot is an operation that those before it do not see. -/
theorem Chantier.premiere (h : Chantier n k l s v) {r : Fin 4} {p : Publication} {ps : List Publication}
    (hp : l.filterMap (message r) = p :: ps) :
    ∃ l₁ o l₂, l = l₁ ++ o :: l₂ ∧ message r o = some p ∧
      (∀ b ∈ l₁, Independent Etat.Possible Etat.effet b o) ∧
      ∀ r', l.filterMap (message r') =
        (if r' = r then [p] else []) ++ (l₁ ++ l₂).filterMap (message r') := by
  obtain ⟨l₁, o, l₂, rfl, hl₁, ho, -⟩ := List.filterMap_eq_cons_iff.1 hp
  have hrobot : o.robot = some (numero r) := by
    by_contra hne
    rw [message_eq_none_iff.2 hne] at ho
    cases ho
  refine ⟨l₁, o, l₂, rfl, ho, fun b hb => ?_, fun r' => ?_⟩
  · rcases h.suivent b hb with hlieux | ⟨hmeme, -⟩ | ⟨-, hfin, -⟩
    · exact independent_of_lieux hlieux
    -- what the same robot makes before has its command before
    · exact absurd (hmeme.trans hrobot) (message_eq_none_iff.1 (hl₁ b hb))
    · exact absurd (hfin.symm.trans hrobot) (by simp)
  · rw [List.filterMap_append, List.filterMap_append]
    split_ifs with hr
    · rw [hr, List.filterMap_eq_nil_iff.2 hl₁, List.filterMap_cons_some ho]
      rfl
    · have hautre : message r' o = none := by
        rw [message_eq_none_iff, hrobot]
        exact fun hnum => hr (numero_injective (Option.some.inj hnum)).symm
      rw [List.filterMap_cons_none hautre]
      rfl

/-- The end of a running task is an operation that those before it do not see. -/
theorem Chantier.fin (h : Chantier n k l s v) {r : Fin 4} {position : ℤ} (hpos : position = 1 ∨ position = 4)
    (hs : (s (.poste (numero r) position)).enCours = true) :
    ∃ l₁ duree l₂, l = l₁ ++ .fin ⟨numero r, position, duree⟩ :: l₂ ∧
      ∀ b ∈ l₁, Independent Etat.Possible Etat.effet b (.fin ⟨numero r, position, duree⟩) := by
  have hnum : ∀ r : Fin 4, numero r ∈ ([1, 2, 3, 4] : List ℤ) := by decide
  have ht := postes_prevus k h.mem_range _ (hnum r) position
    (by simpa using hpos)
  obtain ⟨l₁, msg, l₂, rfl, hmsg, havant⟩ := fin_en_attente h.differe hs ht
  obtain ⟨numRobot, position, duree⟩ := msg
  cases hmsg
  refine ⟨l₁, duree, l₂, rfl, fun b hb => ?_⟩
  rcases h.suivent b hb with hlieux | ⟨-, hne⟩ | ⟨hrobot, -, hlieux⟩
  · exact independent_of_lieux hlieux
  · exact absurd rfl hne
  -- it would be the start of another task on the post
  · exfalso
    cases b with
    | debut msg => exact havant _ hb msg (.inl rfl) (List.singleton_inj.1 hlieux)
    | ajout | fin => exact hrobot rfl
    | deplacement | evacuation => simp [Operation.lieux] at hlieux

/-- Operations made one after the other. -/
theorem Poursuivi.trans {l' l'' : List Operation} {s' s'' : Etat} {v'' : Atelier.Vue τ}
    {faits : Fin 4 → List Publication} {ms ms' : List Message} (h : Poursuivi n k l (fun _ => []) ms l' s' v')
    (h' : Poursuivi n k l' faits ms' l'' s'' v'') : Poursuivi n k l faits (ms ++ ms') l'' s'' v'' := by
  refine ⟨h'.chantier, ?_, fun r => (h.files r).trans (h'.files r)⟩
  rw [List.append_assoc]
  exact h.dus.trans (h'.dus.append_left ms)

/-- On a post where a task runs there is a product. -/
theorem Chantier.garnie (h : Chantier n k l s v) {r : Fin 4} {position : ℤ}
    (hpos : position = 1 ∨ position = 4)
    (ht : (v.poste r position).taskEnCours = true) :
      (v.pile (Atelier.Vue.table r position).1).hauteur ≠ 0 := by
  have hs : (s (.poste (numero r) position)).enCours = true := by rwa [← h.montre.postes r position hpos]
  obtain ⟨l₁, duree, l₂, rfl, hind⟩ := h.fin hpos hs
  obtain ⟨⟨hexiste, -, hvisible⟩, -⟩ := h.differe.perform hind
  obtain ⟨e, -, ⟨hlength, -⟩, hpile, hhauteur⟩ := h.montre.produit hexiste le_rfl hvisible
  change v.pile (Atelier.Vue.table r position).1 = Pile.ofList e at hpile
  rw [hpile, hhauteur]
  exact hlength.ne'

end Chantier

/-! ## The orders -/

section Ordres

variable [Horloge τ]

/-- A robot executes its next command. -/
theorem Chantier.commande (h : Chantier n k l s v) {r : Fin 4} {p : Publication} {ps : List Publication}
    (hp : l.filterMap (message r) = p :: ps) (temps : τ) {ordre : Ordre τ}
    (hordre : ordreDe n r temps p = some ordre) :
    ∃ l' s', Poursuivi n k l (fun r' => if r' = r then [p] else []) (reponses ordre v) l' s'
      ((actions ordre v).foldl Atelier.Vue.apres v) := by
  obtain ⟨l₁, o, l₂, rfl, ho, hind, hfiles⟩ := h.premiere hp
  refine ⟨l₁ ++ l₂, s.effet o, ?_⟩
  cases o with
  | ajout | fin => cases ho
  | debut msg =>
    obtain ⟨numRobot, position, duree⟩ := msg
    rw [message] at ho
    split_ifs at ho with hmsg
    cases ho
    cases hordre
    subst hmsg
    obtain ⟨hposs, -⟩ := h.differe.perform hind
    obtain ⟨hdebut, hmontre⟩ := h.montre.debut temps duree hposs
    have hactions : actions (.faireTache r ⟨numero r, position, duree⟩ temps) v =
        [.debut r position temps duree] := if_pos hdebut
    have hreponses : reponses (.faireTache r ⟨numero r, position, duree⟩ temps) v = [] := by
      rw [reponses, if_pos ⟨rfl, hdebut.2.1⟩, if_neg hdebut.2.2.1, if_neg hdebut.2.2.2]
    rw [hactions, hreponses]
    exact h.accomplir hind hfiles fun _ => hmontre
  | deplacement msg =>
    rw [message] at ho
    split_ifs at ho with hmsg
    cases ho
    cases hordre
    have hvoyage := suspens_en_voyage k h.mem_range _
      (h.en_suspens.subset (List.mem_append_right l₁ List.mem_cons_self))
    obtain ⟨hposs, -⟩ := h.differe.perform hind
    have hactions := actions_deplacement (n := n) hmsg.symm hvoyage hposs.1.2.2 temps v
    obtain ⟨hmontre, hsignaux⟩ := h.montre.deplacement hmsg.symm hvoyage.2.1.1 hvoyage.2.1.2 hposs
    have hreponses : reponses (.deplacerPiece r msg temps (n.navettes msg)) v =
        (Operation.deplacement msg).reponse := by
      rw [reponses, if_pos hmsg.symm, hactions, hsignaux, Operation.reponse, hmsg]
      rfl
    rw [hactions, hreponses]
    exact h.accomplir hind hfiles fun _ => hmontre
  | evacuation =>
    rw [message] at ho
    split_ifs at ho with hmsg
    cases ho
    cases hordre
    have hactions : actions (.evacuer r) v = [.evacuation] := if_pos hmsg
    rw [hactions]
    exact h.accomplir hind hfiles h.montre.evacuation

/-- Half of a tick. -/
theorem Chantier.tick (h : Chantier n k l s v) (r : Fin 4) {position : ℤ} (hpos : position = 1 ∨ position = 4)
    (temps : τ) :
    ∃ l' s', Poursuivi n k l (fun _ => []) (finAcquittee r position temps v) l' s'
      (if (v.poste r position).finTache temps then v.apres (.fin r position) else v) := by
  rw [finAcquittee]
  split_ifs with hfin
  · have hs : (s (.poste (numero r) position)).enCours = true := by
      rw [← h.montre.postes r position hpos]
      exact (Bool.and_eq_true_iff.1 hfin).1
    obtain ⟨l₁, duree, l₂, rfl, hind⟩ := h.fin hpos hs
    refine ⟨l₁ ++ l₂, _, h.accomplir hind (fun r' => ?_) fun hposs => h.montre.fin duree hposs⟩
    rw [List.filterMap_append, List.filterMap_append]
    rfl
  · exact ⟨l, s, h.rien⟩

/-- A tick. -/
theorem Chantier.update (h : Chantier n k l s v) (r : Fin 4) (temps : τ) :
    ∃ l' s', Poursuivi n k l (fun _ => []) (reponses (.update r temps) v) l' s'
      ((actions (.update r temps) v).foldl Atelier.Vue.apres v) := by
  obtain ⟨l₁, s₁, h₁⟩ := h.tick r (.inl rfl) temps
  obtain ⟨l₂, s₂, h₂⟩ := h₁.chantier.tick r (.inr rfl) temps
  -- the end of a task leaves the other post
  have hposte : ((if (v.poste r 1).finTache temps then v.apres (.fin r 1) else v).poste r 4) =
      v.poste r 4 := by
    split_ifs
    · exact (Atelier.poste_fin v (.inr rfl) (.inl rfl)).trans (if_neg (by simp))
    · rfl
  have hacquit : finAcquittee r 4 temps (if (v.poste r 1).finTache temps then v.apres (.fin r 1) else v) =
      finAcquittee r 4 temps v := by
    rw [finAcquittee, finAcquittee, hposte]
  have hactions : (actions (.update r temps) v).foldl Atelier.Vue.apres v =
      if (v.poste r 4).finTache temps
      then (if (v.poste r 1).finTache temps then v.apres (.fin r 1) else v).apres (.fin r 4)
      else if (v.poste r 1).finTache temps then v.apres (.fin r 1) else v := by
    rw [actions, List.foldl_append]
    split_ifs <;> rfl
  rw [hposte, hacquit] at h₂
  rw [hactions]
  exact ⟨l₂, s₂, h₁.trans h₂⟩

end Ordres

/-! ## A transition is fired -/

section Transition

variable {t : Transition}

theorem prevues_succ (ht : chaine[k]? = some t) : prevues (k + 1) = prevues k ++ operationsDe t := by
  rw [prevues, List.take_add_one, ht, List.flatMap_append]
  simp [prevues]

theorem etatPrevu_succ (ht : chaine[k]? = some t) :
    etatPrevu (k + 1) = (operationsDe t).foldl Etat.effet (etatPrevu k) := by
  rw [etatPrevu, prevues_succ ht, List.foldl_append]
  rfl

theorem lt_of_chaine (ht : chaine[k]? = some t) : k < 26 := length_chaine ▸ (List.getElem?_eq_some_iff.1 ht).1

/-- What a transition asks for is possible when what was asked before is made. -/
theorem possible_prevues (ht : chaine[k]? = some t) :
    Admissible Etat.Possible Etat.effet (etatPrevu k) (operationsDe t) := by
  have hk := lt_of_chaine ht
  have hprogramme : prevues 26 = prevues k ++
      (operationsDe t ++ (chaine.drop (k + 1)).flatMap operationsDe) := by
    rw [← List.append_assoc, ← prevues_succ ht, prevues, prevues, ← List.flatMap_append,
      List.take_append_drop,
      List.take_of_length_le length_chaine.le]
  have hpossible := programme_possible
  rw [hprogramme] at hpossible
  exact (admissible_append.1 (admissible_append.1 hpossible).2).1

/-- Shuttles that carry nothing may change. -/
theorem Montre.changer {seconde : Bool} (h : Montre (n.nom seconde) s v)
    (hvides : ∀ violet, (s (.navette violet)).produits = []) (autre : Bool) : Montre (n.nom autre) s v := by
  -- a place that is not a post shows nothing
  have hvide : ∀ x, (∀ p : Place, p.Existe → (∀ violet, p ≠ .navette violet) → n.nom seconde p ≠ x) →
      v.pile x = Pile.vide := by
    intro x hx
    by_cases hnavette : ∃ violet, n.nom seconde (.navette violet) = x
    · obtain ⟨violet, rfl⟩ := hnavette
      rw [h.pile (.navette violet) trivial, Contenu.pile_vide (hvides violet)]
    · refine h.autres x fun p hp hpx => ?_
      by_cases hp' : ∃ violet, p = .navette violet
      · obtain ⟨violet, rfl⟩ := hp'
        exact hnavette ⟨violet, hpx⟩
      · exact hx p hp (fun violet heq => hp' ⟨violet, heq⟩) hpx
  refine ⟨fun p hp => ?_, fun x hx => hvide x fun p hp hp' => ?_, h.pince, h.postes, h.evacues⟩
  · cases p with
    | poste numRobot position => exact h.pile _ hp
    | navette violet =>
      rw [Contenu.pile_vide (hvides violet)]
      refine hvide _ fun p hp hp' hnom => ?_
      cases p with
      | poste numRobot position =>
        have heq : Place.poste numRobot position = .navette violet := nom_injective n autre hp trivial hnom
        exact absurd heq (by simp)
      | navette violet' => exact hp' violet' rfl
      | sortie => exact hp
    | sortie => exact hp.elim
  · cases p with
    | poste numRobot position => exact hx _ hp
    | navette violet => exact absurd rfl (hp' violet)
    | sortie => exact hp.elim

/-- The operations that wait when the tests of a transition succeed may still wait after it. -/
theorem Chantier.sublist_suspens (h : Chantier n k l s v)
    (hacquittees : ∀ cond ∈ t.conditions, ∀ o ∈ l, acquitte cond o = false) :
    l.Sublist (apresTests t (suspens k)) := by
  have hfilter : apresTests t l = l := by
    refine List.filter_eq_self.2 fun o ho => ?_
    simpa using fun cond hcond => hacquittees cond hcond o ho
  rw [← hfilter]
  exact h.en_suspens.filter _

/-- The second trip starts with empty shuttles. -/
theorem Chantier.montre_suivant (h : Chantier n k l s v) (ht : chaine[k]? = some t)
    (hacquittees : ∀ cond ∈ t.conditions, ∀ o ∈ l, acquitte cond o = false) :
    Montre (n.nom (decide (11 < k + 1))) s v := by
  by_cases hk : k = 11
  · subst hk
    have hl := h.sublist_suspens hacquittees
    rw [entre_voyages.1 t ht, List.sublist_nil] at hl
    have hs : s = etatPrevu 11 := by
      have hresult := h.differe.result
      rwa [hl] at hresult
    exact h.montre.changer (hs ▸ entre_voyages.2) _
  · rw [show decide (11 < k + 1) = decide (11 < k) from decide_eq_decide.2 (by omega)]
    exact h.montre

/-- The commands of a transition are asked of the robots. -/
theorem Chantier.tirer (h : Chantier n k l s v) (ht : chaine[k]? = some t)
    (hacquittees : ∀ cond ∈ t.conditions, ∀ o ∈ l, acquitte cond o = false)
    (hdemandees : ∀ o ∈ operationsDe t, o.demandee = true) :
    Chantier n (k + 1) (l ++ operationsDe t) s v := by
  refine ⟨h.montre_suivant ht hacquittees, ?_, ?_, lt_of_chaine ht⟩
  · rw [etatPrevu_succ ht]
    exact h.differe.issue (possible_prevues ht)
  · rw [suspens, ht]
    have htout : (operationsDe t).filter Operation.demandee = operationsDe t :=
      List.filter_eq_self.2 hdemandees
    rw [Option.elim, htout]
    exact (h.sublist_suspens hacquittees).append (List.Sublist.refl _)

end Transition

/-! ## What leaves the cell -/

section Sorties

theorem lieuDe_ne_sortie (msg : Robots.DeplacerPieceMsg) (position : ℤ) : lieuDe msg position ≠ .sortie := by
  rw [lieuDe]
  split_ifs <;> simp

/-- The exit only receives. -/
theorem sortie_effet (s : Etat) (o : Operation) : (s .sortie).produits <+: (s.effet o .sortie).produits := by
  have hautre : ∀ (s : Etat) (p : Place) (c : Contenu), p ≠ .sortie →
      (s .sortie).produits <+: (Function.update s p c .sortie).produits := by
    intro s p c hp
    rw [Function.update_of_ne hp.symm]
  cases o with
  | ajout q produit =>
    rw [Etat.effet]
    cases computeFromNumPoste q with
    | none => exact List.prefix_rfl
    | some poste => exact hautre s _ _ (by simp)
  | debut msg | fin msg => exact hautre s _ _ (by simp [posteDe])
  | deplacement msg =>
    exact (hautre s _ _ (lieuDe_ne_sortie msg _)).trans (hautre _ _ _ (lieuDe_ne_sortie msg _))
  | evacuation =>
    rw [Etat.effet, Etat.transferer, Function.update_self]
    exact List.prefix_append _ _

theorem sortie_foldl (s : Etat) (os : List Operation) :
    (s .sortie).produits <+: (os.foldl Etat.effet s .sortie).produits := by
  induction os generalizing s with
  | nil => exact List.prefix_rfl
  | cons o os ih => exact (sortie_effet s o).trans (ih _)

/-- What has left the cell is the beginning of what the program sends out. -/
theorem Chantier.sorties (h : Chantier n k l s v) :
    (s .sortie).produits <+: (etatPrevu 26 .sortie).produits := by
  have htake := List.take_append_drop k (chaine.take 26)
  rw [List.take_take, min_eq_left h.k_le] at htake
  have hfin : etatPrevu 26 = ((chaine.take 26).drop k |>.flatMap operationsDe).foldl Etat.effet
      (etatPrevu k) := by
    rw [etatPrevu, prevues, ← htake, List.flatMap_append, List.foldl_append, htake]
    rfl
  have hk : (s .sortie).produits <+: (etatPrevu k .sortie).produits := by
    rw [← h.differe.result]
    exact sortie_foldl s l
  rw [hfin]
  exact hk.trans (sortie_foldl _ _)

/-- Once everything is made the cell is empty. -/
theorem Montre.videe {seconde : Bool} (h : Montre (n.nom seconde) (etatPrevu 26) v) (nom : String) :
    v.pile nom = Robots.Pile.vide := by
  by_cases hnom : ∃ p : Place, p.Existe ∧ n.nom seconde p = nom
  · obtain ⟨p, hp, rfl⟩ := hnom
    rw [h.pile p hp]
    cases p with
    | poste numRobot position =>
      have hnum : numRobot ∈ ([1, 2, 3, 4] : List ℤ) := by
        have hrange := hp.1
        simp
        omega
      exact Contenu.pile_vide (places_videes.1 numRobot hnum position (by simpa using hp.2))
    | navette violet => exact Contenu.pile_vide (places_videes.2 violet)
    | sortie => exact hp.elim
  · exact h.autres nom fun p hp hpnom => hnom ⟨p, hp, hpnom⟩

end Sorties

end Usine
