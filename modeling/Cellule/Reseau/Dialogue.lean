import Cellule.Commande.BrasPince
import Cellule.Lib.Rely
import Cellule.Reseau.Noeuds

/-! # The command node and one robot

The command node calls the commands of `RobotsInterface`; their orders reach the robot node in
order, and its acknowledgements reach the command node in order. The callbacks of the robot node may
run inside the waits of one another, and the replies of the simulator are any replies.
-/

namespace Reseau

open Reactive Robots Commande

/-- A robot node with the routines that are suspended. -/
abbrev NoeudRoutines (τ : Type) := Roster (interface τ) Canal (ReponseSim τ) (Robot τ) Routine

/-- The command node, the robot node, and what is between them: the orders that are not taken up
yet, and the number of messages of the robot that the command node has received. -/
structure Dialogue (τ : Type) where
  commande : RobotsInterface
  robot : NoeudRoutines τ
  ordres : List Ordre
  recus : ℕ

/-- What can happen. -/
inductive EvenementDialogue (τ : Type)
  /-- A command of `RobotsInterface` is called. -/
  | appeler (a : Appel)
  /-- The robot node takes up the next order. -/
  | traiter
  /-- The main loop of the robot node calls `update`. -/
  | update
  /-- The robot node receives a reply of the simulator. -/
  | repondre (m : ReponseSim τ)
  /-- The running routine leaves its wait. -/
  | continuer
  /-- The shuttle manager answers. -/
  | servir (idNavette : ℤ)
  /-- The command node receives the next message of the robot. -/
  | livrer
  /-- The command node receives an acknowledgement of another robot. -/
  | retourAutre (numRobot data : ℤ)

/-- A condition on the commands that are called. -/
def EvenementDialogue.SiAppel {τ : Type} (e : EvenementDialogue τ) (P : Appel → Prop) : Prop :=
  match e with
  | .appeler a => P a
  | _ => True

instance {τ : Type} (e : EvenementDialogue τ) (P : Appel → Prop) [DecidablePred P] :
    Decidable (e.SiAppel P) := by
  unfold EvenementDialogue.SiAppel
  split <;> infer_instance

namespace Dialogue

variable {τ : Type} [Horloge τ]

omit [Horloge τ] in
/-- The number of the robot. -/
abbrev numRobot (s : Dialogue τ) : ℤ := s.robot.node.attributes.numRobot

omit [Horloge τ] in
/-- The messages of the robot that the command node has not received. -/
def enRoute (s : Dialogue τ) : List Message := s.robot.node.posted.drop s.recus

/-- A step of the robot node. -/
def robotFait (s : Dialogue τ) (e : NodeEvent (interface τ) Routine (ReponseSim τ)) :
    Option (Dialogue τ) :=
  (s.robot.step (liaisons τ) Routine.code e).map fun robot => { s with robot }

omit [Horloge τ] in
/-- The command node receives a message of the robot; only the acknowledgements are for it. -/
def recevoir (s : Dialogue τ) : Message → Dialogue τ
  | .retourCommande numRobot data =>
      { s with recus := s.recus + 1, commande := s.commande.retourRobotCallback numRobot data }
  | _ => { s with recus := s.recus + 1 }

/-- One step. -/
def etape (s : Dialogue τ) : EvenementDialogue τ → Option (Dialogue τ)
  | .appeler a =>
      some { s with
        commande := (a.executer s.commande).1
        ordres := s.ordres ++ (a.executer s.commande).2 }
  | .traiter =>
      match s.ordres with
      | [] => none
      | o :: reste => { s with ordres := reste }.robotFait (.start (.ordre o))
  | .update => if s.robot.node.stack.isEmpty then s.robotFait (.start .update) else none
  | .repondre m => s.robotFait (.receive m)
  | .continuer => s.robotFait .resume
  | .servir idNavette => s.robotFait (.serve (Noeuds.reponseNavette idNavette))
  | .livrer => s.robot.node.posted[s.recus]?.map s.recevoir
  | .retourAutre numRobot data =>
      if numRobot ≠ s.numRobot then
        some { s with commande := s.commande.retourRobotCallback numRobot data }
      else none

/-- The nodes once they are initialised. -/
def initial (nbRobot numRobot : ℤ) : Dialogue τ where
  commande := .initial nbRobot
  robot := { node := Noeud.initial numRobot, names := [] }
  ordres := []
  recus := 0

omit [Horloge τ] in
/-- Nothing is pending: the orders are carried out and the acknowledgements received. -/
structure Repos (s : Dialogue τ) : Prop where
  ordres : s.ordres = []
  stack : s.robot.node.stack = []
  recus : s.recus = s.robot.node.posted.length
  faulted : s.robot.node.faulted = false

omit [Horloge τ] in
instance (s : Dialogue τ) : Decidable s.Repos :=
  decidable_of_iff (s.ordres = [] ∧ s.robot.node.stack.isEmpty = true ∧
      s.recus = s.robot.node.posted.length ∧ s.robot.node.faulted = false)
    ⟨fun h => ⟨h.1, List.isEmpty_iff.1 h.2.1, h.2.2.1, h.2.2.2⟩,
      fun h => ⟨h.ordres, List.isEmpty_iff.2 h.stack, h.recus, h.faulted⟩⟩

omit [Horloge τ] in
/-- A condition on the orders that are taken up, with the orders that follow. -/
def SiTraite (s : Dialogue τ) (e : EvenementDialogue τ) (P : Ordre → List Ordre → Prop) : Prop :=
  match e, s.ordres with
  | .traiter, o :: reste => P o reste
  | _, _ => True

omit [Horloge τ] in
instance (s : Dialogue τ) (e : EvenementDialogue τ) (P : Ordre → List Ordre → Prop)
    [∀ o reste, Decidable (P o reste)] : Decidable (s.SiTraite e P) := by
  unfold SiTraite
  split <;> infer_instance

omit [Horloge τ] in
theorem siTraite_traiter {s : Dialogue τ} {o : Ordre} {reste : List Ordre}
    {P : Ordre → List Ordre → Prop} (hordres : s.ordres = o :: reste) :
    s.SiTraite .traiter P ↔ P o reste := by
  unfold SiTraite
  rw [hordres]

omit [Horloge τ] in
/-- A command is called. -/
def appele (s : Dialogue τ) (a : Appel) : Dialogue τ :=
  { s with
    commande := (a.executer s.commande).1
    ordres := s.ordres ++ (a.executer s.commande).2 }

/-- What a step does. -/
inductive Avance (s : Dialogue τ) (e : EvenementDialogue τ) (s' : Dialogue τ) : Prop
  | appel (a : Appel) (he : e = .appeler a) (hs : s' = s.appele a)
  /-- The robot node takes up an order. -/
  | prise (o : Ordre) (reste : List Ordre) (ρ' : NoeudRoutines τ) (he : e = .traiter)
      (ordres : s.ordres = o :: reste)
      (robot : s.robot.step (liaisons τ) Routine.code (.start (.ordre o)) = some ρ')
      (hs : s' = { s with robot := ρ', ordres := reste })
  /-- The robot node moves otherwise. -/
  | robot (e' : NodeEvent (interface τ) Routine (ReponseSim τ)) (ρ' : NoeudRoutines τ)
      (he : e ≠ .traiter ∧ ∀ a, e ≠ .appeler a) (hstart : ∀ p, e' = .start p → p = .update)
      (robot : s.robot.step (liaisons τ) Routine.code e' = some ρ') (hs : s' = { s with robot := ρ' })
  | message (m : Message) (he : e = .livrer) (hm : s.robot.node.posted[s.recus]? = some m)
      (hs : s' = s.recevoir m)
  | retourAutre (numRobot data : ℤ) (he : e = .retourAutre numRobot data)
      (hn : numRobot ≠ s.numRobot)
      (hs : s' = { s with commande := s.commande.retourRobotCallback numRobot data })

theorem etape_avance {s s' : Dialogue τ} {e : EvenementDialogue τ} (h : s.etape e = some s') :
    s.Avance e s' := by
  cases e with
  | appeler a => exact .appel a rfl (Option.some.inj h).symm
  | traiter =>
    rw [etape] at h
    split at h
    · cases h
    · obtain ⟨ρ', hρ, rfl⟩ := Option.map_eq_some_iff.1 h
      exact .prise _ _ ρ' rfl ‹_› hρ rfl
  | update =>
    rw [etape] at h
    split_ifs at h
    obtain ⟨ρ', hρ, rfl⟩ := Option.map_eq_some_iff.1 h
    exact .robot _ ρ' (by simp) (fun p hp => (NodeEvent.start.inj hp).symm) hρ rfl
  | repondre m =>
    obtain ⟨ρ', hρ, rfl⟩ := Option.map_eq_some_iff.1 h
    exact .robot _ ρ' (by simp) (by simp) hρ rfl
  | continuer =>
    obtain ⟨ρ', hρ, rfl⟩ := Option.map_eq_some_iff.1 h
    exact .robot _ ρ' (by simp) (by simp) hρ rfl
  | servir idNavette =>
    obtain ⟨ρ', hρ, rfl⟩ := Option.map_eq_some_iff.1 h
    exact .robot _ ρ' (by simp) (by simp) hρ rfl
  | livrer =>
    obtain ⟨m, hm, rfl⟩ := Option.map_eq_some_iff.1 h
    exact .message m rfl hm rfl
  | retourAutre n data =>
    rw [etape] at h
    split_ifs at h with hn
    exact .retourAutre n data rfl hn (Option.some.inj h).symm

omit [Horloge τ] in
/-- The command node alone moves when it receives a message. -/
theorem recevoir_frame (s : Dialogue τ) (m : Message) :
    (s.recevoir m).robot = s.robot ∧ (s.recevoir m).ordres = s.ordres ∧
      (s.recevoir m).recus = s.recus + 1 ∧ (s.recevoir m).commande.nbRobot = s.commande.nbRobot := by
  cases m with
  | retourCommande n data => exact ⟨rfl, rfl, rfl, RobotsInterface.nbRobot_retourRobotCallback _ _ _⟩
  | _ => exact ⟨rfl, rfl, rfl, rfl⟩

omit [Horloge τ] in
/-- The message that is received was the next on its way. -/
theorem enRoute_recevoir {s : Dialogue τ} {m : Message}
    (hm : s.robot.node.posted[s.recus]? = some m) : s.enRoute = m :: (s.recevoir m).enRoute := by
  obtain ⟨hlt, hget⟩ := List.getElem?_eq_some_iff.1 hm
  obtain ⟨hrobot, -, hrecus, -⟩ := recevoir_frame s m
  unfold enRoute
  rw [hrobot, hrecus, List.drop_eq_getElem_cons hlt, hget]

/-- A node that has failed stays so. -/
theorem faulted_etape {s s' : Dialogue τ} {e : EvenementDialogue τ}
    (h : s.robot.node.faulted = true) (hs : s.etape e = some s') :
    s'.robot.node.faulted = true := by
  have hstuck : ∀ {e ρ'}, s.robot.step (liaisons τ) Routine.code e ≠ some ρ' := by
    intro e ρ' hρ
    have halive := Roster.step_alive hρ
    rw [h] at halive
    cases halive
  cases etape_avance hs with
  | appel a he hs =>
    rw [hs]
    exact h
  | prise o reste ρ' he ordres robot hs => exact absurd robot hstuck
  | robot e' ρ' he hstart robot hs => exact absurd robot hstuck
  | message m he hm hs =>
    rw [hs, (recevoir_frame s m).1]
    exact h
  | retourAutre n data he hn hs =>
    rw [hs]
    exact h

end Dialogue

end Reseau
