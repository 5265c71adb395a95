import Cellule.Lib.Contract
import Cellule.Robots.Noeud

/-! # Who owes the acknowledgement of a task

A task of a post ends with one acknowledgement `8` or `9`. The right to send it is a token: the post
holds it while the task runs, a routine that has ended the task holds it until it publishes the
acknowledgement, and the acknowledgement carries it to the command node.
-/

namespace Robots

open Reactive Reactive.Prog Reactive.Contract

variable {τ : Type}

/-- The tokens of the post at a position of a robot. -/
def jetons (τ : Type) (numRobot position : ℤ) : Contract (interface τ) (Robot τ) where
  inv s := s.numRobot = numRobot
  held s := if (s.poste position).taskEnCours then 1 else 0
  carried m := if m = .retourCommande numRobot (Robot.codeRetour position) then 1 else 0
  asks _ := True
  replies _ _ := True

namespace Robot

variable {r pos : ℤ}

/-! ## Routines that move no token -/

theorem quiet_demander {q : Requete} {res : q.Reponse τ → Prop} (h : ∀ v, res v) :
    (jetons τ r pos).Quiet res (q.demander : Code τ (q.Reponse τ)) :=
  ⟨trivial, fun v _ => h v⟩

theorem quiet_redemander {q : Requete} {ok : Robot τ → q.Reponse τ → Bool} {res : Unit → Prop}
    (h : res ()) : (jetons τ r pos).Quiet res (q.redemander ok) :=
  ⟨trivial, h⟩

/-- A change of attributes that the tokens do not see. -/
theorem jetons_frame {s s' : Robot τ} (hnum : s'.numRobot = s.numRobot)
    (h1 : s'.postePos1 = s.postePos1) (h4 : s'.postePos4 = s.postePos4)
    (h : (jetons τ r pos).inv s) :
    (jetons τ r pos).inv s' ∧ (jetons τ r pos).held s' = (jetons τ r pos).held s := by
  have hposte : s'.poste pos = s.poste pos := by
    unfold poste
    rw [h1, h4]
  refine ⟨hnum.trans h, ?_⟩
  unfold jetons
  dsimp only
  rw [hposte]

theorem quiet_retourner {data : ℤ} (hdata : data ≠ codeRetour pos) :
    (jetons τ r pos).Quiet (fun _ => True) (retourner data : Code τ Unit) := by
  unfold retourner
  simp only [quiet_bind, quiet_modify, quiet_get, quiet_publish]
  refine ⟨fun s hs => jetons_frame rfl rfl rfl hs, fun s _ => ⟨?_, trivial⟩⟩
  simp [jetons, hdata]

/-- An acknowledgement that is not about a task. -/
theorem ne_codeRetour {data : ℤ} (h8 : data ≠ 8) (h9 : data ≠ 9) : data ≠ codeRetour pos := by
  unfold codeRetour
  split_ifs
  · exact h8
  · exact h9

theorem quiet_rejoindre : (jetons τ r pos).Quiet (fun _ => True) (rejoindre : Code τ Unit) := by
  unfold rejoindre
  simp only [quiet_bind, quiet_get]
  intro s _
  apply quiet_demander
  exact fun _ => Quiet.forM fun i _ => quiet_redemander trivial

/-- A message that is not an acknowledgement carries nothing. -/
theorem carried_autre {m : Message} (hm : ∀ n d, m ≠ .retourCommande n d) :
    (jetons τ r pos).carried m = 0 := if_neg (hm _ _)

/-- The end of an arm movement: its acknowledgement, and what follows. -/
theorem quiet_acquitter {data : ℤ} {res : Unit → Prop} (h8 : data ≠ 8) (h9 : data ≠ 9) (h : res ()) :
    (jetons τ r pos).Quiet (fun _ => (jetons τ r pos).Quiet res (retourner data : Code τ Unit))
      (rejoindre : Code τ Unit) :=
  quiet_rejoindre.mono fun _ _ => (quiet_retourner (ne_codeRetour h8 h9)).mono fun _ _ => h

theorem quiet_envoyerRobot (p : ℤ) :
    (jetons τ r pos).Quiet (fun _ => True) (envoyerRobot p : Code τ Unit) := by
  unfold envoyerRobot
  simp only [quiet_bind, quiet_modify, quiet_get, quiet_publish]
  refine ⟨fun s hs => jetons_frame rfl rfl rfl hs, quiet_acquitter (by decide) (by decide) ?_⟩
  exact fun s _ => ⟨carried_autre (by simp), trivial⟩

theorem quiet_descendreBras : (jetons τ r pos).Quiet (fun _ => True) (descendreBras : Code τ Unit) := by
  unfold descendreBras
  simp only [quiet_bind, quiet_modify, quiet_get, quiet_publish]
  refine ⟨fun s hs => jetons_frame rfl rfl rfl hs, quiet_acquitter (by decide) (by decide) ?_⟩
  exact fun s _ => ⟨carried_autre (by simp), trivial⟩

theorem quiet_monterBras : (jetons τ r pos).Quiet (fun _ => True) (monterBras : Code τ Unit) := by
  unfold monterBras
  simp only [quiet_bind, quiet_modify, quiet_get, quiet_publish]
  refine ⟨fun s hs => jetons_frame rfl rfl rfl hs, quiet_acquitter (by decide) (by decide) ?_⟩
  exact fun s _ => ⟨carried_autre (by simp), trivial⟩

theorem quiet_publier {m : Message} {res : Unit → Prop} (hm : ∀ n d, m ≠ .retourCommande n d)
    (h : res ()) : (jetons τ r pos).Quiet res (publish m : Code τ Unit) :=
  ⟨carried_autre hm, h⟩

theorem quiet_bougerPince [Horloge τ] {cmd code : ℤ} (h8 : code ≠ 8) (h9 : code ≠ 9) :
    (jetons τ r pos).Quiet (fun _ => True) (bougerPince cmd code : Code τ Unit) := by
  unfold bougerPince attendrePince
  simp only [quiet_bind, quiet_get]
  intro s _
  refine quiet_publier (by simp) fun s' _ => ?_
  have hfin : (jetons τ r pos).Quiet (fun _ => True)
      (publish (.robotPince s.numRobot cmd) : Code τ Unit) := quiet_publier (by simp) trivial
  split_ifs
  · simp only [quiet_bind]
    apply quiet_demander
    intro t0
    apply quiet_redemander
    exact (quiet_retourner (ne_codeRetour h8 h9)).mono fun _ _ => hfin
  · exact hfin

theorem quiet_transport (valeur : Bool) :
    (jetons τ r pos).Quiet (fun _ => True) (transport valeur : Code τ Unit) := by
  unfold transport
  simp only [quiet_bind, quiet_get]
  exact fun s _ => quiet_publier (by simp) trivial

theorem quiet_lireCouleurs (signal : String) :
    (jetons τ r pos).Quiet (fun _ => True) (lireCouleurs signal : Code τ (List ℤ)) :=
  Quiet.mapM fun _ _ => quiet_demander fun _ => trivial

theorem quiet_chercherCaseVide (signal : String) (reste i : ℕ) :
    (jetons τ r pos).Quiet (fun _ => True) (chercherCaseVide signal reste i : Code τ (List ℤ)) := by
  induction reste generalizing i with
  | zero => trivial
  | succ reste ih =>
    rw [chercherCaseVide, quiet_bind]
    apply quiet_demander
    intro couleur
    split_ifs
    · trivial
    · exact quiet_bind.2 ((ih (i + 1)).mono fun _ _ => trivial)

theorem quiet_peindre (position idNavette : ℤ) :
    (jetons τ r pos).Quiet (fun _ => True) (peindre position idNavette : Code τ Unit) := by
  unfold peindre
  simp only [quiet_bind, quiet_get]
  intro s _
  split_ifs
  · exact quiet_bind.2 (quiet_demander fun _ => trivial)
  · exact quiet_bind.2 (quiet_demander fun _ => trivial)
  · trivial

theorem quiet_signalerEcrasement (type : ℤ) (couleurVide : Bool) :
    (jetons τ r pos).Quiet (fun _ => True) (signalerEcrasement type couleurVide : Code τ Unit) := by
  unfold signalerEcrasement
  simp only [quiet_bind, quiet_get]
  intro s _
  split_ifs
  · exact quiet_publier (by simp) trivial
  · trivial

theorem quiet_viderPince : (jetons τ r pos).Quiet (fun _ => True) (viderPince : Code τ Unit) := by
  unfold viderPince
  simp only [quiet_bind, quiet_modify]
  exact ⟨fun s hs => jetons_frame rfl rfl rfl hs, quiet_transport _⟩

theorem quiet_chercherNavette (position : ℤ) :
    (jetons τ r pos).Quiet (fun _ => True) (chercherNavette position : Code τ ℤ) := by
  unfold chercherNavette
  simp only [quiet_bind, quiet_get]
  intro s _
  split_ifs
  · exact quiet_demander fun _ => trivial
  · trivial

theorem quiet_colorerPosteDebutTask (position : ℤ) :
    (jetons τ r pos).Quiet (fun _ => True) (colorerPosteDebutTask position : Code τ (Option ℕ)) := by
  unfold colorerPosteDebutTask
  simp only [quiet_bind, quiet_get]
  intro s _
  refine (quiet_chercherCaseVide _ _ _).mono fun lus _ => ?_
  split_ifs
  · exact quiet_bind.2 (quiet_publier (by simp) trivial)
  · exact quiet_bind.2 (quiet_publier (by simp) trivial)
  · exact quiet_bind.2 (quiet_demander fun _ => trivial)

theorem quiet_colorerPosteFinTask (position duree : ℤ) :
    (jetons τ r pos).Quiet (fun _ => True) (colorerPosteFinTask position duree : Code τ ℕ) := by
  unfold colorerPosteFinTask
  simp only [quiet_bind, quiet_get]
  intro s _
  refine (quiet_chercherCaseVide _ _ _).mono fun lus _ => ?_
  cases caseFinTask lus with
  | none => trivial
  | some indice =>
    simp only [quiet_bind]
    apply quiet_demander
    exact fun _ => quiet_publier (by simp) trivial

theorem quiet_evacuer : (jetons τ r pos).Quiet (fun _ => True) (evacuer : Code τ Unit) := by
  unfold evacuer
  simp only [quiet_bind, quiet_get]
  intro s _
  split_ifs
  · simp only [quiet_bind]
    refine (quiet_lireCouleurs _).mono fun _ _ => ?_
    refine quiet_publier (by simp) ?_
    exact quiet_demander fun _ => trivial
  · trivial

/-! ## Routines that move the token -/

/-- The positions of the posts. -/
abbrev EstPoste (position : ℤ) : Prop := position = 1 ∨ position = 4

/-- The token that a routine about a position holds, seen from the post. -/
def du (position pos : ℤ) : ℕ := if position = pos then 1 else 0

theorem codeRetour_injective {position : ℤ} (h : EstPoste position) (hpos : EstPoste pos)
    (hcode : codeRetour position = codeRetour pos) : position = pos := by
  unfold codeRetour at hcode
  rcases h with rfl | rfl <;> rcases hpos with rfl | rfl <;> first | rfl | cases hcode

theorem carried_retour {position n : ℤ} (h : EstPoste position) (hpos : EstPoste pos) (hn : n = r) :
    (jetons τ r pos).carried (.retourCommande n (codeRetour position)) = du position pos := by
  unfold jetons du
  dsimp only
  subst hn
  by_cases heq : position = pos
  · rw [if_pos (by rw [heq]), if_pos heq]
  · rw [if_neg heq, if_neg]
    intro hm
    injection hm with _ hcode
    exact heq (codeRetour_injective h hpos hcode)

/-- The tokens of the attributes when the post at a position changes. -/
theorem held_setPoste {position : ℤ} (h : EstPoste position) (hpos : EstPoste pos) (s : Robot τ)
    (p : Poste τ) : (jetons τ r pos).held (s.setPoste position p) =
      if position = pos then (if p.taskEnCours then 1 else 0) else (jetons τ r pos).held s := by
  unfold jetons setPoste poste
  rcases h with rfl | rfl <;> rcases hpos with rfl | rfl <;> rfl

theorem inv_setPoste {s : Robot τ} (hs : (jetons τ r pos).inv s) (position : ℤ) (p : Poste τ) :
    (jetons τ r pos).inv (s.setPoste position p) := by
  unfold setPoste
  split_ifs <;> exact hs

theorem held_le (s : Robot τ) : (jetons τ r pos).held s ≤ 1 := by
  unfold jetons
  dsimp only
  split_ifs <;> decide

/-- Code with no token in hand can find any attributes. -/
theorem fits_zero {s : Robot τ} (hs : (jetons τ r pos).inv s) : (jetons τ r pos).Fits 0 s :=
  ⟨hs, by rw [Nat.zero_add]; exact held_le s⟩

/-- The acknowledgement of a task, by code that holds the token of its position. -/
theorem meets_retourner {position : ℤ} (h : EstPoste position) (hpos : EstPoste pos)
    {post : Unit → ℕ → Robot τ → Prop} {s : Robot τ} (hs : (jetons τ r pos).inv s)
    (hpost : post () 0 { s with retour := codeRetour position }) :
    (jetons τ r pos).Meets post (retourner (codeRetour position) : Code τ Unit) (du position pos) s := by
  obtain ⟨hinv, hheld⟩ : _ ∧ (jetons τ r pos).held { s with retour := codeRetour position } = _ :=
    jetons_frame rfl rfl rfl hs
  unfold retourner
  refine Meets.bind (meets_modify hinv hheld (Meets.bind ?_))
  rw [← Nat.zero_add (du position pos)]
  exact meets_publish (carried_retour h hpos hs) hpost

/-- Ending the task of a position puts its token in hand. -/
theorem meets_finir {position : ℤ} (h : EstPoste position) (hpos : EstPoste pos)
    {f : Robot τ → Poste τ} {post : Unit → ℕ → Robot τ → Prop} {s : Robot τ}
    (hs : (jetons τ r pos).inv s) (htask : (s.poste position).taskEnCours = true)
    (hf : (f s).taskEnCours = false) (hpost : post () (du position pos) (s.setPoste position (f s))) :
    (jetons τ r pos).Meets post (modify fun s => s.setPoste position (f s) : Code τ Unit) 0 s := by
  have hheld : 0 + (jetons τ r pos).held s - (jetons τ r pos).held (s.setPoste position (f s)) =
      du position pos ∧
      (jetons τ r pos).held (s.setPoste position (f s)) ≤ 0 + (jetons τ r pos).held s := by
    rw [held_setPoste h hpos, hf]
    unfold du
    by_cases heq : position = pos
    · subst heq
      simp [jetons, htask]
    · simp [heq]
  refine ⟨inv_setPoste hs position (f s), hheld.2, ?_⟩
  rw [hheld.1]
  exact hpost

/-- What the code that has ended the task of a position finds. -/
theorem fits_finir {position : ℤ} (h : EstPoste position) (hpos : EstPoste pos) {s : Robot τ}
    (hs : (jetons τ r pos).inv s) {p : Poste τ} (hp : p.taskEnCours = false) :
    (jetons τ r pos).Fits (du position pos) (s.setPoste position p) := by
  refine ⟨inv_setPoste hs position p, ?_⟩
  have hle : (jetons τ r pos).held s ≤ 1 := held_le s
  rw [held_setPoste h hpos, hp, if_neg Bool.false_ne_true]
  unfold du
  split_ifs <;> omega

theorem neutral_interrompreTache {position : ℤ} (h : EstPoste position) (hpos : EstPoste pos) :
    (jetons τ r pos).Neutral (interrompreTache position : Code τ Unit) := by
  intro s hs
  refine Meets.bind ?_
  show (jetons τ r pos).Meets _ (if (s.poste position).taskEnCours then _ else _) 0 s
  split_ifs with htask
  -- nothing else runs between the test and the acknowledgement
  · refine Meets.bind (meets_publish_free (carried_autre (by simp)) (Meets.bind ?_))
    refine meets_finir h hpos hs.inv htask rfl ?_
    have hinv := inv_setPoste hs.inv position (s.poste position).stopTask
    exact meets_retourner h hpos hinv ⟨rfl, fits_zero hinv⟩
  · exact ⟨rfl, hs⟩

theorem neutral_choisirSignal (position idNavette : ℤ) (hpos : EstPoste pos) :
    (jetons τ r pos).Neutral (choisirSignal position idNavette : Code τ String) := by
  unfold choisirSignal
  refine Neutral.ite (fun _ => Quiet.neutral (R := fun _ => True) trivial) fun _ => ?_
  refine Neutral.ite (fun h => ?_) fun _ => Quiet.neutral (R := fun _ => True) trivial
  refine (neutral_interrompreTache h hpos).bind fun _ => Quiet.neutral (R := fun _ => True) ?_
  simp only [quiet_bind, quiet_get]
  exact fun _ _ => trivial

theorem neutral_colorerPlace (position type idNavette : ℤ) (hpos : EstPoste pos) :
    (jetons τ r pos).Neutral (colorerPlace position type idNavette : Code τ Unit) := by
  unfold colorerPlace
  refine (neutral_choisirSignal position idNavette hpos).bind fun signal => ?_
  refine (quiet_lireCouleurs signal).neutral.bind fun couleur => ?_
  refine (quiet_peindre position idNavette).neutral.bind fun _ => ?_
  refine Quiet.neutral (R := fun _ => True) ?_
  simp only [quiet_bind, quiet_modify]
  refine ⟨fun s hs => jetons_frame rfl rfl rfl hs, ?_⟩
  exact (quiet_transport _).mono fun _ _ => quiet_signalerEcrasement _ _

theorem neutral_colorer (position type : ℤ) (hpos : EstPoste pos) :
    (jetons τ r pos).Neutral (colorer position type : Code τ Unit) := by
  unfold colorer
  refine (quiet_chercherNavette position).neutral.bind fun idNavette => ?_
  exact Neutral.ite (fun _ => quiet_viderPince.neutral) fun _ => neutral_colorerPlace _ _ _ hpos

theorem neutral_deplacerPieceCallback [Horloge τ] (msg : DeplacerPieceMsg) (hpos : EstPoste pos) :
    (jetons τ r pos).Neutral (deplacerPieceCallback msg : Code τ Unit) := by
  unfold deplacerPieceCallback
  refine Quiet.neutral (R := fun _ => True) (quiet_get.2 fun _ _ => trivial) |>.bind fun s => ?_
  refine Neutral.ite (fun _ => ?_) fun _ => Quiet.neutral (R := fun _ => True) trivial
  refine (quiet_envoyerRobot _).neutral.bind fun _ => ?_
  refine quiet_descendreBras.neutral.bind fun _ => ?_
  refine (neutral_colorer _ _ hpos).bind fun _ => ?_
  refine (quiet_bougerPince (by decide) (by decide)).neutral.bind fun _ => ?_
  refine quiet_monterBras.neutral.bind fun _ => ?_
  refine (quiet_envoyerRobot _).neutral.bind fun _ => ?_
  refine quiet_descendreBras.neutral.bind fun _ => ?_
  refine (neutral_colorer _ _ hpos).bind fun _ => ?_
  refine (quiet_bougerPince (by decide) (by decide)).neutral.bind fun _ => ?_
  refine quiet_monterBras.neutral.bind fun _ => ?_
  exact (quiet_retourner (ne_codeRetour (by decide) (by decide))).neutral

/-- An update that finds the task finished holds its token until it acknowledges it. -/
theorem neutral_updatePoste [Horloge τ] {position : ℤ} (h : EstPoste position) (hpos : EstPoste pos)
    (time : τ) : (jetons τ r pos).Neutral (updatePoste position time : Code τ (Option ℕ)) := by
  intro s hs
  refine Meets.bind ?_
  show (jetons τ r pos).Meets _ (if (s.poste position).finTache time then _ else _) 0 s
  split_ifs with hfin
  · have hdone : ((s.poste position).updateTask time).2.taskEnCours = false := by
      rw [Poste.updateTask, if_pos hfin]
    refine Meets.bind (meets_finir h hpos hs.inv (Poste.taskEnCours_of_finTache hfin) hdone ?_)
    refine Quiet.meets_bind (quiet_colorerPosteFinTask _ _) (fits_finir h hpos hs.inv hdone) ?_
    intro indice s₁ _ hs₁
    have hverifier : (jetons τ r pos).Quiet (fun _ => True) ((Requete.getColor
        (s.poste position).nomPoste indice).redemander fun s (couleur : ℤ) =>
          couleur == (s.poste position).couleur : Code τ Unit) := quiet_redemander trivial
    refine Quiet.meets_bind hverifier hs₁ fun _ s₂ _ hs₂ => Meets.bind ?_
    exact meets_retourner h hpos hs₂.inv ⟨rfl, fits_zero hs₂.inv⟩
  · exact ⟨rfl, hs⟩

theorem neutral_update [Horloge τ] (hpos : EstPoste pos) :
    (jetons τ r pos).Neutral (update : Code τ (Option ℕ × Option ℕ)) := by
  unfold update
  refine Quiet.neutral (R := fun _ => True) (quiet_get.2 fun _ _ => trivial) |>.bind fun s => ?_
  refine Neutral.ite (fun _ => ?_) fun _ => Quiet.neutral (R := fun _ => True) trivial
  refine (Quiet.neutral (quiet_demander fun _ => trivial)).bind fun time => ?_
  refine (neutral_updatePoste (.inl rfl) hpos time).bind fun indice1 => ?_
  refine (neutral_updatePoste (.inr rfl) hpos time).bind fun indice4 => ?_
  exact Quiet.neutral (R := fun _ => True) trivial

/-- A task that starts gives its token to the post; a task that is refused gives it to the
acknowledgement. -/
theorem meets_commencerTache {msg : FaireTacheMsg} (h : EstPoste msg.position) (hpos : EstPoste pos)
    (time : τ) (retourDebTask : Option ℕ) {s : Robot τ}
    (hs : (jetons τ r pos).Fits (du msg.position pos) s) :
    (jetons τ r pos).Meets (fun _ _ _ => True)
      (commencerTache msg time retourDebTask : Code τ (Option ℕ)) (du msg.position pos) s := by
  cases retourDebTask with
  | some i =>
    refine ⟨inv_setPoste hs.inv _ _, ?_, trivial⟩
    rw [held_setPoste h hpos, Poste.taskEnCours_debutTask]
    unfold du
    split_ifs <;> omega
  | none => exact Meets.bind (meets_retourner h hpos hs.inv trivial)

/-! ## The activations -/

/-- The token that an activation brings: that of the task it is asked to start. -/
def apport (r pos : ℤ) : Activation → ℕ
  | .faireTache msg => if msg.numRobot = r ∧ msg.position = pos then 1 else 0
  | _ => 0

theorem respects_faireTache [Horloge τ] (msg : FaireTacheMsg) (hpos : EstPoste pos) {s : Robot τ}
    (hs : (jetons τ r pos).Fits (apport r pos (.faireTache msg)) s) :
    (jetons τ r pos).Respects (Activation.faireTache msg).code (apport r pos (.faireTache msg)) s := by
  have hinv : s.numRobot = r := hs.inv
  refine Meets.bind (Meets.bind ?_)
  show (jetons τ r pos).Meets _ (if msg.numRobot = s.numRobot ∧ EstPoste msg.position then _ else _) _ s
  split_ifs with h
  · have happort : apport r pos (.faireTache msg) = du msg.position pos := by
      have hmsg : msg.numRobot = r := h.1.trans hinv
      simp only [apport, du, hmsg, true_and]
    rw [happort] at hs ⊢
    refine (Quiet.meets_bind (quiet_demander fun _ => trivial) hs fun time s₁ _ hs₁ => ?_)
    refine Quiet.meets_bind (quiet_colorerPosteDebutTask _) hs₁ fun retourDebTask s₂ _ hs₂ => ?_
    exact meets_commencerTache h.2 hpos time retourDebTask hs₂
  · trivial

/-- Every activation respects the tokens, but a `StopTache` handled while no task runs. -/
theorem respects_activation [Horloge τ] (a : Activation) (hpos : EstPoste pos) {s : Robot τ}
    (hs : (jetons τ r pos).Fits (apport r pos a) s)
    (hstop : a = .stopTache pos → (s.poste pos).taskEnCours = true) :
    (jetons τ r pos).Respects a.code (apport r pos a) s := by
  have hneutre : ∀ {α : Type} {p : Code τ α}, (jetons τ r pos).Neutral p →
      (jetons τ r pos).Fits 0 s → (jetons τ r pos).Meets (fun _ _ _ => True) p 0 s :=
    fun hp hs => (hp s hs).mono fun _ _ _ _ => trivial
  cases a with
  | deplacerPiece msg => exact hneutre (neutral_deplacerPieceCallback msg hpos) hs
  | faireTache msg => exact respects_faireTache msg hpos hs
  | evacuer => exact hneutre quiet_evacuer.neutral hs
  | stopTache data =>
    show (jetons τ r pos).Meets _ (if EstPoste data then _ else _) 0 s
    split_ifs with h
    · by_cases htask : (s.poste data).taskEnCours = true
      · have hinv := inv_setPoste hs.inv data (s.poste data).stopTask
        refine Meets.bind (meets_finir h hpos hs.inv htask rfl ?_)
        exact meets_retourner h hpos hinv trivial
      -- another position: neither the post nor its acknowledgement is concerned
      · have hne : data ≠ pos := by
          rintro rfl
          exact htask (hstop rfl)
        have hdu : (0 : ℕ) = du data pos := (if_neg hne).symm
        have hinv := inv_setPoste hs.inv data (s.poste data).stopTask
        refine Meets.bind (meets_modify hinv ((held_setPoste h hpos _ _).trans (if_neg hne)) ?_)
        rw [hdu]
        exact meets_retourner h hpos hinv trivial
    · trivial
  | update =>
    exact Meets.bind ((neutral_update hpos s hs).mono fun _ _ _ _ => trivial)

end Robot

end Robots
