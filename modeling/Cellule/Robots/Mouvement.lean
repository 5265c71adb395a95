import Cellule.Robots.Calme

/-! # What the routines do to the arm

An abstract view of a robot: the target of its joints, its position, the state of the arm that the
command node learns from the acknowledgements, and the position that was published last. Each arm
movement is a step of this view, provided that nothing else moves the arm inside its waits.
-/

namespace Robots

open Reactive Reactive.Prog Reactive.Pact

/-- The flag of the arm after a message of the robot `r`: `-1` for `BAS`, `1` for `HAUT`. -/
def brasVu (r : ℤ) (bras : ℤ) : Message → ℤ
  | .retourCommande n data =>
      if n = r then
        if data = 3 then 0 else if data = 4 then -1 else if data = 5 then 1 else bras
      else bras
  | _ => bras

/-- The last position published. -/
def positionVue (position : Option ℤ) : Message → Option ℤ
  | .robotPosition _ data => some data
  | _ => position

/-- A message that says nothing of arm and position. -/
def Message.SansBras : Message → Prop
  | .retourCommande _ data => data ≠ 3 ∧ data ≠ 4 ∧ data ≠ 5
  | .robotPosition _ _ => False
  | _ => True

theorem brasVu_sansBras {r bras : ℤ} {m : Message} (h : m.SansBras) : brasVu r bras m = bras := by
  cases m with
  | retourCommande n data =>
    obtain ⟨h3, h4, h5⟩ := h
    unfold brasVu
    dsimp only
    rw [if_neg h3, if_neg h4, if_neg h5, ite_self]
  | _ => rfl

theorem positionVue_sansBras {position : Option ℤ} {m : Message} (h : m.SansBras) :
    positionVue position m = position := by
  cases m with
  | robotPosition n data => cases h
  | _ => rfl

theorem foldl_brasVu {r bras : ℤ} {ms : List Message} (h : ∀ m ∈ ms, m.SansBras) :
    ms.foldl (brasVu r) bras = bras := by
  induction ms generalizing bras with
  | nil => rfl
  | cons m ms ih =>
    rw [List.forall_mem_cons] at h
    rw [List.foldl_cons, brasVu_sansBras h.1, ih h.2]

theorem foldl_positionVue {position : Option ℤ} {ms : List Message} (h : ∀ m ∈ ms, m.SansBras) :
    ms.foldl positionVue position = position := by
  induction ms generalizing position with
  | nil => rfl
  | cons m ms ih =>
    rw [List.forall_mem_cons] at h
    rw [List.foldl_cons, positionVue_sansBras h.1, ih h.2]

/-- The abstract view. -/
structure VueBras where
  rpos : Fin 7 → ℤ
  position : ℤ
  bras : ℤ
  publiee : Option ℤ

namespace VueBras

/-- The robot is sent to a position. -/
def envoyer (v : VueBras) (position : ℤ) (cible : Fin 7 → ℤ) : VueBras :=
  { v with rpos := cible, position := position, publiee := some position }

/-- The arm goes down. -/
def descendre (v : VueBras) : VueBras :=
  { v with rpos := fun i => v.rpos i + Robot.descente i, bras := -1 }

/-- The arm goes up. -/
def monter (v : VueBras) : VueBras :=
  { v with rpos := fun i => v.rpos i - Robot.descente i, bras := 1 }

/-- The arm is at the pose `q` and is not said to be down, or below the pose and is not said to be
up. -/
def Accord (v : VueBras) : Prop :=
  ∃ q, Robot.pose v.position = some q ∧
    (v.rpos = q ∧ v.bras ≠ -1 ∨ (v.rpos = fun i => q i + Robot.descente i) ∧ v.bras ≠ 1)

/-- What is said of the arm may be forgotten. -/
theorem Accord.oublier {v : VueBras} (h : v.Accord) : ({ v with bras := 0 } : VueBras).Accord := by
  obtain ⟨q, hq, ⟨hrpos, -⟩ | ⟨hrpos, -⟩⟩ := h
  · exact ⟨q, hq, .inl ⟨hrpos, show (0 : ℤ) ≠ -1 by decide⟩⟩
  · exact ⟨q, hq, .inr ⟨hrpos, show (0 : ℤ) ≠ 1 by decide⟩⟩

/-- The arm goes down from a pose. -/
theorem accord_descendre {v : VueBras} (h : Robot.pose v.position = some v.rpos) :
    v.descendre.Accord := ⟨v.rpos, h, .inr ⟨rfl, show (-1 : ℤ) ≠ 1 by decide⟩⟩

/-- The arm goes up after it went down. -/
theorem monter_rpos {v : VueBras} {q : Fin 7 → ℤ} (h : v.rpos = fun i => q i + Robot.descente i) :
    v.monter.rpos = q := by
  funext i
  show v.rpos i - Robot.descente i = q i
  rw [h, add_sub_cancel_right]

theorem accord_monter {v : VueBras} {q : Fin 7 → ℤ} (hq : Robot.pose v.position = some q)
    (h : v.rpos = fun i => q i + Robot.descente i) : v.monter.Accord :=
  ⟨q, hq, .inl ⟨monter_rpos h, show (1 : ℤ) ≠ -1 by decide⟩⟩

/-- The view is the one of a robot `r` and of what its messages have said. -/
structure Montre {τ : Type} (v : VueBras) (r : ℤ) (a : Robot τ) (bras : ℤ) (publiee : Option ℤ) :
    Prop where
  numRobot : a.numRobot = r
  rpos : a.rpos = v.rpos
  position : a.robotPosition = v.position
  bras : bras = v.bras
  publiee : publiee = v.publiee

end VueBras

/-- The pact of a routine that needs the arm for itself. -/
def aSoi (τ : Type) : Pact (Robot τ) where
  rely := MemeBras
  guar := (memeNumero τ).guar
  rely_trans := MemeBras.trans
  guar_refl := (memeNumero τ).guar_refl
  guar_trans := (memeNumero τ).guar_trans

/-- The pact of the routines that leave the arm and rely on it. -/
def memeBras (τ : Type) : Pact (Robot τ) where
  rely := MemeBras
  guar := MemeBras
  rely_trans := MemeBras.trans
  guar_refl := MemeBras.refl
  guar_trans := MemeBras.trans

/-- From the view `v` the code leads to the view `v'`, when nothing else moves the arm. -/
def Mene {τ α : Type} (r : ℤ) (prog : Code τ α) (v v' : VueBras) : Prop :=
  ∀ a bras publiee, v.Montre r a bras publiee →
    (aSoi τ).Ends prog a (fun _ => True) fun _ a' ms =>
      v'.Montre r a' (ms.foldl (brasVu r) bras) (ms.foldl positionVue publiee)

namespace Mene

variable {τ α β : Type} {r : ℤ} {v v' v'' : VueBras}

theorem bind {p : Code τ α} {f : α → Code τ β} (hp : Mene r p v v') (hf : ∀ x, Mene r (f x) v' v'') :
    Mene r (p >>= f) v v'' := by
  intro a bras publiee ha
  refine ends_bind.2 ((hp a bras publiee ha).post fun x a' ms ha' => ?_)
  exact (hf x a' _ _ ha').post fun y a'' ms' ha'' => by rwa [List.foldl_append, List.foldl_append]

/-- Code that leaves the arm alone and does not speak of it. -/
theorem calme {prog : Code τ α} (h : (memeBras τ).Calm Message.SansBras prog) : Mene r prog v v := by
  intro a bras publiee ha
  have hends := h.ends (J := MemeBras a) (s := a) (fun _ _ hab ha => MemeBras.trans ha hab)
    (fun _ _ hab ha => MemeBras.trans ha hab) (MemeBras.refl _)
  refine (hends.change (R := aSoi τ) (fun _ _ h => h) fun _ _ h => h.numRobot).mono
    (fun _ _ => trivial) ?_
  rintro _ a' ms ⟨hmeme, hms⟩
  rw [foldl_brasVu hms, foldl_positionVue hms]
  exact ⟨hmeme.numRobot.trans ha.numRobot, hmeme.rpos.trans ha.rpos,
    hmeme.robotPosition.trans ha.position, ha.bras, ha.publiee⟩

/-- An arm movement: what it does to the attributes, its acknowledgement and its message. -/
theorem mouvement {f : Robot τ → Robot τ} {data : ℤ} {m : Robot τ → Message}
    (h : ∀ a bras publiee, v.Montre r a bras publiee →
      v'.Montre r (f a) (brasVu r (brasVu r bras (.retourCommande r data)) (m (f a)))
        (positionVue publiee (m (f a))))
    (hm : ∀ a a' : Robot τ, MemeBras a a' → m a' = m a) :
    Mene r (do
      modify f
      Robot.rejoindre
      Robot.retourner data
      let s ← get
      publish (m s) : Code τ Unit) v v' := by
  intro a bras publiee ha
  have hfa := h a bras publiee ha
  rw [ends_bind, ends_modify]
  refine ⟨hfa.numRobot.trans ha.numRobot.symm, ends_bind.2 ?_⟩
  have hends := Calm.ends (P := memeBras τ) (A := fun _ => False) (J := MemeBras (f a)) (s := f a)
    Robot.calm_rejoindre (fun _ _ hab ha => MemeBras.trans ha hab)
    (fun _ _ hab ha => MemeBras.trans ha hab) (MemeBras.refl _)
  refine (hends.change (R := aSoi τ) (fun _ _ h => h) fun _ _ h => h.numRobot).mono
    (fun _ _ => trivial) ?_
  rintro _ a' ms ⟨hmeme, hms⟩
  obtain rfl : ms = [] := List.eq_nil_iff_forall_not_mem.2 fun m hm => hms m hm
  refine ends_bind.2 (Robot.ends_retourner (fun _ _ h => h.numRobot) ?_)
  have hnum : a'.numRobot = r := hmeme.numRobot.trans hfa.numRobot
  have hma : m { a' with retour := data } = m (f a) :=
    hm _ _ ⟨hmeme.numRobot, hmeme.rpos, hmeme.robotPosition⟩
  show v'.Montre r { a' with retour := data }
    (brasVu r (brasVu r bras (.retourCommande a'.numRobot data)) (m { a' with retour := data }))
    (positionVue publiee (m { a' with retour := data }))
  rw [hma, hnum]
  exact ⟨rfl, hmeme.rpos.trans hfa.rpos, hmeme.robotPosition.trans hfa.position, hfa.bras,
    hfa.publiee⟩

theorem envoyerRobot {position : ℤ} {q : Fin 7 → ℤ} (hq : Robot.pose position = some q) :
    Mene r (Robot.envoyerRobot position : Code τ Unit) v (v.envoyer position q) := by
  apply mouvement
  · intro a bras publiee ha
    refine ⟨ha.numRobot, ?_, rfl, ?_, rfl⟩
    · show (Robot.pose position).getD a.rpos = q
      rw [hq]
      rfl
    · show (if r = r then _ else _) = _
      rw [if_pos rfl]
      exact ha.bras
  · intro a a' h
    rw [h.numRobot, h.robotPosition]

theorem descendreBras : Mene r (Robot.descendreBras : Code τ Unit) v v.descendre := by
  apply mouvement
  · intro a bras publiee ha
    refine ⟨ha.numRobot, ?_, ha.position, if_pos rfl, ha.publiee⟩
    show (fun i => a.rpos i + _) = fun i => v.rpos i + _
    rw [ha.rpos]
  · intro a a' h
    rw [h.numRobot]

theorem monterBras : Mene r (Robot.monterBras : Code τ Unit) v v.monter := by
  apply mouvement
  · intro a bras publiee ha
    refine ⟨ha.numRobot, ?_, ha.position, if_pos rfl, ha.publiee⟩
    show (fun i => a.rpos i - _) = fun i => v.rpos i - _
    rw [ha.rpos]
  · intro a a' h
    rw [h.numRobot]

/-- The callback of an order that has the robot's number. -/
theorem siConcerne {n : ℤ} {routine : Code τ Unit} (hn : n = r) (h : Mene r routine v v') :
    Mene r (Robot.siConcerne n routine) v v' := by
  intro a bras publiee ha
  unfold Robot.siConcerne
  rw [ends_bind, ends_get, if_pos (ha.numRobot.trans hn.symm)]
  exact h a bras publiee ha

/-- The messages about other things say nothing of arm and position. -/
theorem sansBras_autre (m : Message) (h : m.EstAutre) : m.SansBras := by
  cases m <;> first | exact h.elim | trivial

theorem sansBras_tache (n position : ℤ) :
    (Message.retourCommande n (Robot.codeRetour position)).SansBras := by
  unfold Robot.codeRetour
  split_ifs
  · exact ⟨by decide, by decide, by decide⟩
  · exact ⟨by decide, by decide, by decide⟩

/-- What leaves the arm keeps its pact. -/
theorem guar_meme (s s' : Robot τ) (h : MemeBras s s') : (memeBras τ).guar s s' := h

theorem colorer (position type : ℤ) : Mene r (Robot.colorer position type : Code τ Unit) v v :=
  calme (Robot.calm_colorer guar_meme sansBras_autre sansBras_tache position type)

theorem bougerPince [Horloge τ] {cmd code : ℤ} (hcode : ∀ n, (Message.retourCommande n code).SansBras) :
    Mene r (Robot.bougerPince cmd code : Code τ Unit) v v :=
  calme (Robot.calm_bougerPince guar_meme sansBras_autre cmd hcode)

theorem fermerPince [Horloge τ] : Mene r (Robot.fermerPince : Code τ Unit) v v :=
  bougerPince fun _ => ⟨by decide, by decide, by decide⟩

theorem ouvrirPince [Horloge τ] : Mene r (Robot.ouvrirPince : Code τ Unit) v v :=
  bougerPince fun _ => ⟨by decide, by decide, by decide⟩

theorem controlerPince [Horloge τ] (pince : ℤ) :
    Mene r (Robot.controlerPince pince : Code τ Unit) v v := by
  unfold Robot.controlerPince
  split_ifs
  · exact ouvrirPince
  · exact fermerPince
  · exact calme trivial

/-- `ControlerRobot` with the arm down. -/
theorem controlerRobot [Horloge τ] {msg : MoveRobot} {q : Fin 7 → ℤ} (hn : msg.numRobot = r)
    (hq : Robot.pose msg.position = some q) (hbras : msg.bras = -1) :
    Mene r (Robot.controlerRobotCallback msg : Code τ Unit) v (v.envoyer msg.position q).descendre := by
  have hdescendre : (Robot.controlerBras msg.bras : Code τ Unit) = Robot.descendreBras := if_pos hbras
  apply siConcerne hn
  rw [hdescendre]
  refine (envoyerRobot hq).bind fun _ => ?_
  exact descendreBras.bind fun _ => controlerPince msg.pince

/-- `DeplacerPiece` ends above its second position. -/
theorem deplacerPiece [Horloge τ] {msg : DeplacerPieceMsg} {qA qB : Fin 7 → ℤ}
    (hn : msg.numRobot = r) (hA : Robot.pose msg.positionA = some qA)
    (hB : Robot.pose msg.positionB = some qB) :
    Mene r (Robot.deplacerPieceCallback msg : Code τ Unit) v
      ((v.envoyer msg.positionA qA).descendre.monter.envoyer msg.positionB qB).descendre.monter := by
  refine siConcerne hn ?_
  refine (envoyerRobot hA).bind fun _ => descendreBras.bind fun _ => ?_
  refine (colorer msg.positionA 0).bind fun _ => fermerPince.bind fun _ => ?_
  refine monterBras.bind fun _ => (envoyerRobot hB).bind fun _ => descendreBras.bind fun _ => ?_
  refine (colorer msg.positionB 1).bind fun _ => ouvrirPince.bind fun _ => ?_
  refine monterBras.bind fun _ => calme ?_
  exact Robot.calm_retourner guar_meme fun n => ⟨by decide, by decide, by decide⟩

end Mene

end Robots
