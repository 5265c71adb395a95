import Cellule.Atelier.Recit

/-! # What the orders answer

The command node hears of its orders through acknowledgements: `8` or `9` for a task that has ended
or was stopped, `10` for a move, and through the errors of the log. `reponses_executerOrdre` says
which of them an order publishes, from what it finds in the cell.
-/

namespace Atelier

open Reactive Reactive.Prog Robots Robots.Robot
open Vue (table)

variable {τ : Type}

/-- The errors, and the acknowledgements of the moves and of the tasks. -/
def estReponse : Message → Bool
  | .erreurLog _ _ => true
  | .retourCommande _ data => data == 8 || data == 9 || data == 10
  | _ => false

/-- The acknowledgement of a task. -/
def acquit (r : Fin 4) (position : ℤ) : Message := .retourCommande (numero r) (codeRetour position)

theorem estReponse_acquit (numRobot position : ℤ) :
    estReponse (.retourCommande numRobot (codeRetour position)) = true := by
  rw [estReponse, codeRetour]
  split_ifs <;> rfl

/-- A tick acknowledges a task that is over. -/
def finAcquittee [Horloge τ] (r : Fin 4) (position : ℤ) (temps : τ) (v : Vue τ) : List Message :=
  if (v.poste r position).finTache temps then [acquit r position] else []

/-- The answers of an order. -/
def reponses [Horloge τ] : Ordre τ → Vue τ → List Message
  | .faireTache r msg _, v =>
      if msg.numRobot = numero r ∧ (msg.position = 1 ∨ msg.position = 4) then
        if hauteurPoste v r msg.position = 0 then
          [.erreurLog 1 (table r msg.position).2, acquit r msg.position]
        else if hauteurPoste v r msg.position = nbCube then
          [.erreurLog 2 (table r msg.position).2, acquit r msg.position]
        else []
      else []
  | .update r temps, v => finAcquittee r 1 temps v ++ finAcquittee r 4 temps v
  | .evacuer _, _ => []
  | .ajouterProduit _ poste, v =>
      match CommandeLocale.computeNumRobotPosteTache poste with
      | some cible =>
          if (v.pile (CommandeLocale.nomTable (CommandeLocale.computeTableId poste))).base ≠ 0 then
            [.erreurLog 66 poste, .retourCommande cible.1 (codeRetour cible.2)]
          else []
      | none => []
  | .stopTache r position, _ => if position = 1 ∨ position = 4 then [acquit r position] else []
  | .deplacerPiece r msg temps navettes, v =>
      if numero r = msg.numRobot then
        signaux v (actions (.deplacerPiece r msg temps navettes) v) ++ [.retourCommande (numero r) 10]
      else []

/-! ## A move -/

section Deplacement

variable {P : Message → Prop}

/-- `Colorer` publishes what the gripper carries, errors, and the acknowledgement of a task. -/
theorem emits_colorer (htransport : ∀ n b, P (.robotTransport n b)) (herreur : ∀ c n, P (.erreurLog c n))
    (hretour : ∀ n position, P (.retourCommande n (codeRetour position))) (position type : ℤ) :
    (colorer position type : Robots.Code τ Unit).Emits P := by
  have hlire : ∀ signal, (lireCouleurs signal : Robots.Code τ (List ℤ)).Emits P := by
    intro signal
    rw [lireCouleurs]
    induction List.range nbCube with
    | nil => trivial
    | cons i is ih =>
      rw [List.mapM_cons]
      exact Emits.bind (p := (Requete.getColor signal i).demander) (fun _ => trivial) fun _ =>
        Emits.bind ih fun _ => trivial
  have hchoisir : ∀ idNavette, (choisirSignal position idNavette : Robots.Code τ String).Emits P := by
    intro idNavette
    rw [choisirSignal]
    split_ifs
    · trivial
    · refine Emits.bind (p := interrompreTache position) (fun s => ?_) fun _ _ => trivial
      change Emits _ (if (s.poste position).taskEnCours = true then _ else _)
      split_ifs
      · exact ⟨herreur _ _, fun _ => ⟨hretour _ _, trivial⟩⟩
      · trivial
    · trivial
  refine Emits.bind (p := chercherNavette position) (fun s => ?_) fun idNavette => ?_
  · change Emits _ (if position = 2 ∨ position = 3 then _ else _)
    split_ifs
    · exact fun _ => trivial
    · trivial
  · split_ifs
    · exact fun _ => ⟨htransport _ _, trivial⟩
    · refine Emits.bind (hchoisir idNavette) fun signal => Emits.bind (hlire signal) fun couleur =>
        Emits.bind (p := Robot.peindre position idNavette) (fun s => ?_) fun _ =>
          fun s => ⟨htransport _ _, fun s => ?_⟩
      · change Emits _ (if position = 2 ∨ position = 3 then _ else _)
        split_ifs
        · exact fun _ => trivial
        · exact fun _ => trivial
        · trivial
      · change Emits _ (if type = 1 ∧ _ then _ else _)
        split_ifs
        · exact ⟨herreur _ _, trivial⟩
        · trivial

end Deplacement

variable [Horloge τ]

/-- `Colorer` answers what it signals. -/
theorem reponses_colorer {r : Fin 4} {s s' : Robot τ} {w w' : Simulateur τ} (hs : Equipe s)
    (hnum : s.numRobot = numero r) {position type : ℤ} (htype : type = 0 ∨ type = 1)
    (hpos : position ∈ [1, 2, 3, 4])
    (h : executer (colorer position type) s w = .ok ((), s', w')) (c : Cellule τ) :
    w'.journal.filter estReponse = w.journal.filter estReponse ++
      signaux (vue (c.avec r s w)) (actionsColorer r position type (w.navettes.headD 66)) := by
  have hsignaux := signalements_colorer hs hnum htype hpos h c
  have hemits : (colorer position type : Robots.Code τ Unit).Emits
      fun m => estReponse m = estSignalement m :=
    emits_colorer (fun _ _ => rfl) (fun _ _ => rfl) (fun _ position => by
      rw [estReponse_acquit, estSignalement, codeRetour]
      split_ifs <;> rfl) position type
  obtain ⟨ms, hms, hfiltres⟩ := run_log Simulateur.handler _ _ Simulateur.journal
    Simulateur.journal_repondre (fun _ _ _ _ h => Simulateur.journal_attendre h)
    Simulateur.journal_publier hemits h
  rw [signalements, signalements, hms, List.filter_append] at hsignaux
  rw [hms, List.filter_append, List.filter_congr hfiltres, List.append_cancel_left hsignaux]

/-- The end of a move acknowledges it. -/
theorem reponses_revenir {s s' : Robot τ} {w w' : Simulateur τ}
    (h : executer revenir s w = .ok ((), s', w')) :
    w'.journal.filter estReponse = w.journal.filter estReponse ++ [.retourCommande s.numRobot 10] := by
  rw [revenir] at h
  obtain ⟨_, s₁, w₁, h₁, h⟩ := executer_bind_inv _ _ h
  obtain ⟨_, s₂, w₂, h₂, h⟩ := executer_bind_inv _ _ h
  have hretour : w'.journal = w₂.journal ++ [.retourCommande s₂.numRobot 10] := by
    cases h
    rfl
  have hm₁ := mouvement_bougerPince h₁
  obtain ⟨s₃, w₃, hmonter, hm₂⟩ := mouvement_monterBras s₁ w₁
  cases hmonter.symm.trans h₂
  have hnum : s₂.numRobot = s.numRobot := by
    rw [hm₂.robot]
    show s₁.numRobot = _
    rw [hm₁.robot]
  have hmuet₁ := filter_journal_of_emits (P := estReponse)
    (emits_bougerPince (fun _ => rfl) (fun _ => rfl) fun _ => rfl) h₁
  have hmuet₂ := filter_journal_of_emits (P := estReponse)
    (emits_bras (fun _ => rfl) fun _ => rfl) hmonter
  rw [hretour, List.filter_append, hmuet₂, hmuet₁, hnum]
  rfl

/-- A move answers what it signals, and its end. -/
theorem reponses_deplacerPiece {r : Fin 4} {s s' : Robot τ} {w w' : Simulateur τ} (hs : Equipe s)
    (hnum : s.numRobot = numero r) {msg : DeplacerPieceMsg} (hA : msg.positionA ∈ [1, 2, 3, 4])
    (hB : msg.positionB ∈ [1, 2, 3, 4]) (hmsg : numero r = msg.numRobot)
    (h : executer (deplacerPieceCallback msg) s w = .ok ((), s', w')) (c : Cellule τ) :
    w'.journal.filter estReponse = w.journal.filter estReponse ++
      reponses (.deplacerPiece r msg w.temps w.navettes) (vue (c.avec r s w)) := by
  obtain ⟨s₁, w₁, s₂, w₂, s₃, w₃, s₄, w₄, ⟨h₁, hm₁⟩, hprise, ⟨h₃, hm₃⟩, hpose, h₅, -⟩ :=
    executer_deplacerPiece_etapes (hnum.trans hmsg) h
  have he₁ := Effet.mouvement (r := r) hs hm₁
  have hnum₁ := he₁.numRobot.trans hnum
  obtain ⟨he₂, hnav₂⟩ := Effet.colorer he₁.equipe hnum₁ (Or.inl rfl) hA hprise
  have he₃ := Effet.mouvement (r := r) he₂.equipe hm₃
  have hnum₃ := he₃.numRobot.trans (he₂.numRobot.trans hnum₁)
  obtain ⟨he₄, -⟩ := Effet.colorer he₃.equipe hnum₃ (Or.inr rfl) hB hpose
  have hnum₄ := he₄.numRobot.trans hnum₃
  -- the placement sees what the pick has left
  have hvue₃ : vue (c.avec r s₃ w₃) =
      (actionsColorer r msg.positionA 0 (w.navettes.headD 66)).foldl Vue.apres (vue (c.avec r s w)) := by
    rw [he₃.vue, he₂.vue, he₁.vue, hm₁.navettes]
    rfl
  have hmuet₁ : w₁.journal.filter estReponse = w.journal.filter estReponse :=
    filter_journal_of_emits (Emits.bind (emits_bras (fun _ => rfl) fun _ => rfl) fun _ =>
      emits_bras (fun _ => rfl) fun _ => rfl) h₁
  have hmuet₃ : w₃.journal.filter estReponse = w₂.journal.filter estReponse :=
    filter_journal_of_emits
        (Emits.bind (emits_bougerPince (fun _ => rfl) (fun _ => rfl) fun _ => rfl) fun _ =>
      Emits.bind (emits_bras (fun _ => rfl) fun _ => rfl) fun _ =>
        Emits.bind (emits_bras (fun _ => rfl) fun _ => rfl) fun _ =>
          emits_bras (fun _ => rfl) fun _ => rfl) h₃
  rw [reponses, if_pos hmsg, actions, if_pos hmsg, signaux_append, reponses_revenir h₅, hnum₄,
    reponses_colorer he₃.equipe hnum₃ (Or.inr rfl) hB hpose c, hmuet₃,
    reponses_colorer he₁.equipe hnum₁ (Or.inl rfl) hA hprise c, hmuet₁, hvue₃, hm₃.navettes, hnav₂,
    he₁.vue, hm₁.navettes]
  simp only [List.append_assoc]
  rfl

/-! ## The other orders -/

/-- One half of a tick acknowledges the task that is over. -/
theorem reponses_updatePoste {r : Fin 4} {s s' : Robot τ} {w w' : Simulateur τ} (hs : Equipe s)
    (hnum : s.numRobot = numero r) {position : ℤ} {time : τ} {i : Option ℕ}
    (h : executer (Robot.updatePoste position time) s w = .ok (i, s', w')) (c : Cellule τ) :
    w'.journal.filter estReponse =
      w.journal.filter estReponse ++ finAcquittee r position time (vue (c.avec r s w)) := by
  have hposte : (vue (c.avec r s w)).poste r position = s.poste position := by
    rw [vue_avec_poste, Function.update_self]
  rw [executer_updatePoste hs] at h
  dsimp only at h
  rw [hnum] at h
  rw [finAcquittee, hposte]
  split_ifs at h with hfin h0
  · cases h
    rw [if_neg (by simp [hfin]), List.append_nil]
  · cases h
    rw [if_pos (eq_true_of_ne_false hfin)]
    simp only [Simulateur.noter, Simulateur.peindre, List.filter_append]
    rw [acquit, List.filter_singleton, List.filter_singleton, estReponse_acquit]
    simp [estReponse]

/-- A tick acknowledges the tasks that are over. -/
theorem reponses_update {r : Fin 4} {s s' : Robot τ} {w w' : Simulateur τ} (hs : Equipe s)
    (hnum : s.numRobot = numero r) {i : Option ℕ × Option ℕ}
    (h : executer Robot.update s w = .ok (i, s', w')) (c : Cellule τ) :
    w'.journal.filter estReponse =
      w.journal.filter estReponse ++ reponses (.update r w.temps) (vue (c.avec r s w)) := by
  obtain ⟨s₁, w₁, h₁, h₄⟩ := executer_update_inv h
  have he₁ := (Effet.updatePoste hs hnum h₁).1
  have ha₁ := reponses_updatePoste hs hnum h₁ c
  have ha₄ := reponses_updatePoste he₁.equipe (he₁.numRobot.trans hnum) h₄ c
  -- the second half reads the other post as it was before the tick
  have hautre : finAcquittee r 4 w.temps (vue (c.avec r s₁ w₁)) =
      finAcquittee r 4 w.temps (vue (c.avec r s w)) := by
    rw [finAcquittee, finAcquittee, vue_avec_poste, vue_avec_poste, Function.update_self,
      Function.update_self, (Effet.updatePoste_autre he₁).1]
  rw [ha₄, ha₁, hautre, List.append_assoc]
  rfl

/-- A task that is refused is answered at once. -/
theorem reponses_faireTache {r : Fin 4} {s s' : Robot τ} {w w' : Simulateur τ} (hs : Equipe s)
    (hnum : s.numRobot = numero r) {msg : FaireTacheMsg} {i : Option ℕ}
    (h : executer (faireTacheCallback msg) s w = .ok (i, s', w')) (c : Cellule τ) :
    w'.journal.filter estReponse = w.journal.filter estReponse ++
      reponses (.faireTache r msg w.temps) (vue (c.avec r s w)) := by
  by_cases hmoi : msg.numRobot = s.numRobot ∧ (msg.position = 1 ∨ msg.position = 4)
  · rw [executer_faireTache hs _ hmoi] at h
    dsimp only at h
    rw [reponses, if_pos (hnum ▸ hmoi)]
    have hrefus : ∀ code q : ℤ,
        [Message.erreurLog code q, acquit r msg.position].filter estReponse =
          [.erreurLog code q, acquit r msg.position] := fun code q => by
      rw [List.filter_eq_self]
      intro m hm
      rcases List.mem_cons.1 hm with rfl | hm
      · rfl
      · rw [List.mem_singleton.1 hm, acquit, estReponse_acquit]
    rw [hnum] at h
    have hhauteur : hauteurPoste (vue (c.avec r s w)) r msg.position =
      (w.couleur (tableDe (numero r) msg.position).1).hauteur := rfl
    rw [hhauteur]
    split_ifs at h ⊢ with h0 h6
    · cases h
      rw [← hrefus, ← List.filter_append, Simulateur.noter, Simulateur.noter, List.append_assoc]
      rfl
    · cases h
      rw [← hrefus, ← List.filter_append, Simulateur.noter, Simulateur.noter, List.append_assoc]
      rfl
    · cases h
      rw [List.append_nil]
      rfl
  · rw [executer_faireTache_autre hmoi] at h
    cases h
    rw [reponses, if_neg (hnum ▸ hmoi), List.append_nil]

/-- The addition of a product reports the product that it covers, and has its task stopped. -/
theorem reponses_ajouterProduit {c c' : Cellule τ} (hc : Equipee c) {produit poste : ℤ}
    (hposte : 1 ≤ poste ∧ poste ≤ 8) (h : Cellule.ajouterProduit produit poste c = .ok c') :
    c'.sim.journal.filter estReponse =
      c.sim.journal.filter estReponse ++ reponses (.ajouterProduit produit poste) (vue c) := by
  obtain ⟨r, position, hpos, hcible, hr, hnom⟩ := poste_valide hposte
  have hpile : (vue c).pile = c.sim.couleur := rfl
  rw [Cellule.ajouterProduit, addProduct_run c.sim hcible, hnom] at h
  rw [reponses, hcible, hpile]
  dsimp only at h ⊢
  rw [hnom]
  by_cases hbase : (c.sim.couleur (table r position).1).base ≠ 0
  · rw [if_pos hbase] at h
    rw [if_pos hbase]
    set w := (Simulateur.publier (.stopTache (numero r) position)
      (c.sim.noter (.erreurLog 66 poste))).peindre (table r position).1
        (Pile.ofList (CommandeLocale.pileProduit produit)) with hw
    have hstop : w.stopTaches = [(numero r, position)] := by
      simp [hw, Simulateur.publier, Simulateur.peindre, Simulateur.noter, hc.stopTaches]
    change c.livrerStops w = .ok c' at h
    simp only [Cellule.livrerStops, hstop, List.foldlM_cons, List.foldlM_nil, bind_pure] at h
    rw [Cellule.livrerStop, hr] at h
    obtain ⟨_, s', w', hex, rfl⟩ := surRobot_map_inv h
    rw [executer_stopTache, if_pos hpos] at hex
    cases hex
    show (w.journal ++ [Message.retourCommande (c.robot r).numRobot (codeRetour position)]).filter _ = _
    have hjournal : w.journal = c.sim.journal ++ [.erreurLog 66 poste, .stopTache (numero r) position] := by
      simp [hw, Simulateur.publier, Simulateur.peindre, Simulateur.noter]
    rw [hc.numRobot r, hjournal, List.append_assoc, List.filter_append]
    refine congrArg _ ?_
    show Message.erreurLog 66 poste ::
      [Message.retourCommande (numero r) (codeRetour position)].filter estReponse = _
    rw [List.filter_singleton, estReponse_acquit]
    rfl
  · rw [if_neg hbase] at h
    rw [if_neg hbase, List.append_nil]
    change c.livrerStops _ = .ok c' at h
    have hstop : (c.sim.peindre (table r position).1
        (Pile.ofList (CommandeLocale.pileProduit produit))).stopTaches = [] := hc.stopTaches
    simp only [Cellule.livrerStops, hstop, List.foldlM_nil] at h
    cases h
    rfl

/-- What an order answers is what the view predicts. -/
theorem reponses_executerOrdre {o : Ordre τ} {c c' : Cellule τ} {res : Resultat} (hc : Equipee c)
    (ho : o.Valide) (h : Cellule.executerOrdre o c = .ok (res, c')) :
    c'.sim.journal.filter estReponse = c.sim.journal.filter estReponse ++ reponses o (vue c) := by
  cases o with
  | faireTache r msg t =>
    obtain ⟨i, s', w', hex, hres⟩ := surRobot_map_inv h
    cases hres
    have hvue := reponses_faireTache (hc.equipe r) (hc.numRobot r) hex (c.aTemps t)
    rwa [show (c.aTemps t).avec r (c.robot r) (c.aTemps t).sim = c.aTemps t from avec_self ..] at hvue
  | update r t =>
    obtain ⟨i, s', w', hex, hres⟩ := surRobot_map_inv h
    cases hres
    have hvue := reponses_update (hc.equipe r) (hc.numRobot r) hex (c.aTemps t)
    rwa [show (c.aTemps t).avec r (c.robot r) (c.aTemps t).sim = c.aTemps t from avec_self ..] at hvue
  | evacuer r =>
    obtain ⟨i, s', w', hex, hres⟩ := surRobot_map_inv h
    cases hres
    rw [reponses, List.append_nil]
    rw [executer_evacuer (hc.equipe r)] at hex
    split_ifs at hex
    · cases hex
      simp [Cellule.avec, Simulateur.noter, Simulateur.peindre, estReponse]
    · cases hex
      rfl
  | ajouterProduit produit poste =>
    obtain ⟨c₁, hajout, hres⟩ := map_eq_ok h
    cases hres
    exact reponses_ajouterProduit hc ho hajout
  | stopTache r position =>
    obtain ⟨i, s', w', hex, hres⟩ := surRobot_map_inv h
    cases hres
    rw [executer_stopTache] at hex
    rw [reponses]
    split_ifs at hex ⊢
    · cases hex
      show (c.sim.journal ++ [Message.retourCommande (c.robot r).numRobot (codeRetour position)]).filter _ = _
      rw [hc.numRobot r, List.filter_append, List.filter_singleton, estReponse_acquit]
      rfl
    · cases hex
      exact (List.append_nil _).symm
  | deplacerPiece r msg t navettes =>
    obtain ⟨s', w', hex, rfl⟩ := executerOrdre_deplacerPiece_inv h
    by_cases hmsg : numero r = msg.numRobot
    · have hvue := reponses_deplacerPiece (hc.equipe r) (hc.numRobot r) ho.1 ho.2 hmsg hex c
      rwa [show c.avec r (c.robot r) ((c.aTemps t).avecNavettes navettes).sim =
        (c.aTemps t).avecNavettes navettes from avec_self ..] at hvue
    -- a message for another robot
    · have hautre : (c.robot r).numRobot ≠ msg.numRobot := by
        rw [hc.numRobot r]
        exact hmsg
      have hrien := executer_deplacerPiece_autre hautre ((c.aTemps t).avecNavettes navettes).sim
      cases hrien.symm.trans hex
      rw [reponses, if_neg hmsg]
      exact (List.append_nil _).symm

end Atelier
