import Cellule.Lib.Rely
import Cellule.Robots.Commandes

/-! # Routines that leave arm and position alone

The routines about grippers, colours and tasks neither move the arm nor speak of the position. The
results are stated for any pact that such routines keep, and for any class of messages that has what
they publish.
-/

namespace Robots

open Reactive Reactive.Prog Reactive.Pact

variable {τ : Type}

/-- The arm and the position are the same. -/
structure MemeBras (s s' : Robot τ) : Prop where
  numRobot : s'.numRobot = s.numRobot
  rpos : s'.rpos = s.rpos
  robotPosition : s'.robotPosition = s.robotPosition

theorem MemeBras.refl (s : Robot τ) : MemeBras s s := ⟨rfl, rfl, rfl⟩

theorem MemeBras.trans {s s' s'' : Robot τ} (h : MemeBras s s') (h' : MemeBras s' s'') :
    MemeBras s s'' :=
  ⟨h'.numRobot.trans h.numRobot, h'.rpos.trans h.rpos, h'.robotPosition.trans h.robotPosition⟩

/-- The robot keeps its number. -/
def memeNumero (τ : Type) : Pact (Robot τ) where
  rely s s' := s'.numRobot = s.numRobot
  guar s s' := s'.numRobot = s.numRobot
  rely_trans h h' := h'.trans h
  guar_refl _ := rfl
  guar_trans h h' := h'.trans h

/-- A message that neither acknowledges an order nor tells a position. -/
def Message.EstAutre : Message → Prop
  | .retourCommande _ _ => False
  | .robotPosition _ _ => False
  | _ => True

namespace Robot

/-- What leaves arm and position keeps the number. -/
theorem guar_memeBras (s s' : Robot τ) (h : MemeBras s s') : (memeNumero τ).guar s s' := h.numRobot

variable {P : Pact (Robot τ)} {A : Message → Prop} {s : Robot τ} {pause : List Message → Prop}

@[simp] theorem ends_demander {q : Requete} {Q : q.Reponse τ → Robot τ → List Message → Prop} :
    P.Ends (q.demander : Code τ (q.Reponse τ)) s pause Q ↔
      pause [] ∧ ∀ v s', P.rely s s' → Q v s' [] := Iff.rfl

@[simp] theorem ends_redemander {q : Requete} {ok : Robot τ → q.Reponse τ → Bool}
    {Q : Unit → Robot τ → List Message → Prop} :
    P.Ends (q.redemander ok) s pause Q ↔ pause [] ∧ ∀ s', P.rely s s' → Q () s' [] := Iff.rfl

theorem calm_rejoindre : P.Calm A (rejoindre : Code τ Unit) := by
  unfold rejoindre
  exact calm_get.bind fun s => Calm.bind (fun _ => trivial) fun _ => Calm.forM fun i => trivial

theorem calm_siConcerne {numRobot : ℤ} {routine : Code τ Unit} (h : P.Calm A routine) :
    P.Calm A (siConcerne numRobot routine) := by
  unfold siConcerne
  exact calm_get.bind fun s => Calm.ite h trivial

theorem calm_lireCouleurs (signal : String) : P.Calm A (lireCouleurs signal : Code τ (List ℤ)) :=
  Calm.mapM fun _ _ => trivial

theorem calm_chercherCaseVide (signal : String) (reste i : ℕ) :
    P.Calm A (chercherCaseVide signal reste i : Code τ (List ℤ)) := by
  induction reste generalizing i with
  | zero => trivial
  | succ reste ih =>
    rw [chercherCaseVide]
    refine Calm.bind (fun _ => trivial) fun couleur => Calm.ite trivial ?_
    exact (ih (i + 1)).bind fun _ => trivial

theorem calm_peindre (position idNavette : ℤ) :
    P.Calm A (peindre position idNavette : Code τ Unit) := by
  unfold peindre
  exact calm_get.bind fun s => Calm.ite (fun _ => trivial) (Calm.ite (fun _ => trivial) trivial)

theorem calm_chercherNavette (position : ℤ) : P.Calm A (chercherNavette position : Code τ ℤ) := by
  unfold chercherNavette
  exact calm_get.bind fun s => Calm.ite (fun _ => trivial) trivial

variable (hP : ∀ s s', MemeBras s s' → P.guar s s')

include hP in
/-- A write that leaves the arm and the position. -/
theorem calm_ecrire {f : Robot τ → Robot τ} (h : ∀ s, MemeBras s (f s)) :
    P.Calm A (modify f : Code τ Unit) := calm_modify fun s => hP _ _ (h s)

include hP in
theorem ends_retourner {data : ℤ} {Q : Unit → Robot τ → List Message → Prop}
    (h : Q () { s with retour := data } [.retourCommande s.numRobot data]) :
    P.Ends (retourner data) s pause Q := ⟨hP _ _ ⟨rfl, rfl, rfl⟩, h⟩

include hP in
theorem calm_retourner {data : ℤ} (hdata : ∀ n, A (.retourCommande n data)) :
    P.Calm A (retourner data : Code τ Unit) := by
  unfold retourner
  refine Calm.bind (calm_ecrire hP ?_) fun _ => calm_get.bind fun s => calm_publish (hdata _)
  exact fun s => ⟨rfl, rfl, rfl⟩

variable (hA : ∀ m : Message, m.EstAutre → A m)

include hA in
theorem calm_publier {m : Message} (hm : m.EstAutre) : P.Calm A (publish m : Code τ Unit) :=
  calm_publish (hA m hm)

include hA in
theorem calm_transport (valeur : Bool) : P.Calm A (transport valeur : Code τ Unit) := by
  unfold transport
  exact calm_get.bind fun s => calm_publier hA trivial

include hA in
theorem calm_signalerEcrasement (type : ℤ) (couleurVide : Bool) :
    P.Calm A (signalerEcrasement type couleurVide : Code τ Unit) := by
  unfold signalerEcrasement
  exact calm_get.bind fun s => Calm.ite (calm_publier hA trivial) trivial

include hP hA in
theorem calm_bougerPince [Horloge τ] (cmd : ℤ) {code : ℤ} (hcode : ∀ n, A (.retourCommande n code)) :
    P.Calm A (bougerPince cmd code : Code τ Unit) := by
  unfold bougerPince attendrePince
  refine calm_get.bind fun s => Calm.bind (calm_publier hA trivial) fun _ => ?_
  refine Calm.bind ?_ fun _ => calm_publier hA trivial
  refine calm_get.bind fun s => Calm.ite (Calm.bind (fun _ => trivial) fun _ => ?_) trivial
  exact Calm.bind trivial fun _ => calm_retourner hP hcode

variable (htache : ∀ n position, A (.retourCommande n (codeRetour position)))

theorem memeBras_setPoste (s : Robot τ) (position : ℤ) (p : Poste τ) :
    MemeBras s (s.setPoste position p) := by
  unfold setPoste
  split_ifs <;> exact ⟨rfl, rfl, rfl⟩

include hP hA htache in
theorem calm_interrompreTache (position : ℤ) :
    P.Calm A (interrompreTache position : Code τ Unit) := by
  unfold interrompreTache
  refine calm_get.bind fun s => Calm.ite ?_ trivial
  refine Calm.bind (calm_publier hA trivial) fun _ => ?_
  refine (calm_ecrire hP fun s => memeBras_setPoste s _ _).bind fun _ => ?_
  exact calm_retourner hP fun n => htache n position

include hP hA htache in
theorem calm_colorer (position type : ℤ) : P.Calm A (colorer position type : Code τ Unit) := by
  unfold colorer viderPince colorerPlace choisirSignal
  refine (calm_chercherNavette position).bind fun idNavette => Calm.ite ?_ ?_
  · refine Calm.bind (calm_ecrire hP ?_) fun _ => calm_transport hA false
    exact fun s => ⟨rfl, rfl, rfl⟩
  · have hsignal : P.Calm A (if position = 2 ∨ position = 3 then pure (nomNavette idNavette)
        else if position = 1 ∨ position = 4 then do
          interrompreTache position
          let s ← get
          pure (s.poste position).nomPoste
        else pure "" : Code τ String) := by
      refine Calm.ite trivial (Calm.ite ?_ trivial)
      exact (calm_interrompreTache hP hA htache position).bind fun _ => calm_get.bind fun s => trivial
    refine hsignal.bind fun signal => (calm_lireCouleurs signal).bind fun couleur => ?_
    refine (calm_peindre position idNavette).bind fun _ => ?_
    refine Calm.bind (calm_ecrire hP ?_) fun _ =>
      (calm_transport hA _).bind fun _ => calm_signalerEcrasement hA _ _
    exact fun s => ⟨rfl, rfl, rfl⟩

include hA in
theorem calm_colorerPosteDebutTask (position : ℤ) :
    P.Calm A (colorerPosteDebutTask position : Code τ (Option ℕ)) := by
  unfold colorerPosteDebutTask
  refine calm_get.bind fun s => (calm_chercherCaseVide _ _ _).bind fun lus => Calm.ite ?_ (Calm.ite ?_ ?_)
  · exact Calm.bind (calm_publier hA trivial) fun _ => trivial
  · exact Calm.bind (calm_publier hA trivial) fun _ => trivial
  · exact Calm.bind (fun _ => trivial) fun _ => trivial

include hP hA htache in
theorem calm_faireTacheCallback (msg : FaireTacheMsg) :
    P.Calm A (faireTacheCallback msg : Code τ (Option ℕ)) := by
  unfold faireTacheCallback
  refine calm_get.bind fun s => Calm.ite (Calm.bind (fun _ => trivial) fun time => ?_) trivial
  refine (calm_colorerPosteDebutTask hA _).bind fun retourDebTask => ?_
  cases retourDebTask with
  | some i => exact (calm_ecrire hP fun s => memeBras_setPoste s _ _).bind fun _ => trivial
  | none => exact (calm_retourner hP fun n => htache n msg.position).bind fun _ => trivial

include hA in
theorem calm_colorerPosteFinTask (position duree : ℤ) :
    P.Calm A (colorerPosteFinTask position duree : Code τ ℕ) := by
  unfold colorerPosteFinTask
  refine calm_get.bind fun s => (calm_chercherCaseVide _ _ _).bind fun lus => ?_
  cases caseFinTask lus with
  | none => trivial
  | some indice =>
    exact Calm.bind (fun _ => trivial) fun _ => Calm.bind (calm_publier hA trivial) fun _ => trivial

include hP hA htache in
theorem calm_updatePoste [Horloge τ] (position : ℤ) (time : τ) :
    P.Calm A (updatePoste position time : Code τ (Option ℕ)) := by
  unfold updatePoste
  refine calm_get.bind fun s => Calm.ite ?_ trivial
  refine (calm_ecrire hP fun s => memeBras_setPoste s _ _).bind fun _ => ?_
  refine (calm_colorerPosteFinTask hA _ _).bind fun indice => Calm.bind trivial fun _ => ?_
  exact (calm_retourner hP fun n => htache n position).bind fun _ => trivial

include hP hA htache in
theorem calm_update [Horloge τ] : P.Calm A (update : Code τ (Option ℕ × Option ℕ)) := by
  unfold update
  refine calm_get.bind fun s => Calm.ite (Calm.bind (fun _ => trivial) fun time => ?_) trivial
  refine (calm_updatePoste hP hA htache 1 time).bind fun indice1 => ?_
  exact (calm_updatePoste hP hA htache 4 time).bind fun indice4 => trivial

end Robot

end Robots
