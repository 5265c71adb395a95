import Mathlib.Tactic

/-! # Work posts

`robots/src/Poste.cpp`: the task running on one of the two posts of a robot.
-/

namespace Robots

/-- What the robots use of the simulator's clock, which the source reads as a `float`: the origin,
`time + duree`, the test `time > limite`, and the test `time - t0 < 0.5` of the gripper. -/
class Horloge (τ : Type) where
  zero : τ
  plus : τ → ℤ → τ
  depasse : τ → τ → Bool
  demiSeconde : τ → τ → Bool

/-- The clock with exact numbers. -/
instance : Horloge ℚ where
  zero := 0
  plus t duree := t + duree
  depasse t limite := decide (limite < t)
  demiSeconde time t0 := decide (time - t0 < 1 / 2)

/-- The clock in whole seconds. -/
instance : Horloge ℤ where
  zero := 0
  plus t duree := t + duree
  depasse t limite := decide (limite < t)
  demiSeconde time t0 := decide (2 * (time - t0) < 1)

/-- `class Poste`. -/
structure Poste (τ : Type) where
  nomPoste : String
  numeroPoste : ℤ
  couleur : ℤ
  dureeTask : ℤ
  tempsDebutTask : τ
  taskEnCours : Bool
  deriving DecidableEq

namespace Poste

variable {τ : Type}

/-- The constructor followed by `Poste::init`. -/
def init [Horloge τ] (nom : String) (numero : ℤ) : Poste τ :=
  { nomPoste := nom
    numeroPoste := numero
    couleur := numero * 10 + 3
    dureeTask := 0
    tempsDebutTask := Horloge.zero
    taskEnCours := false }

/-- `Poste::debutTask`. -/
def debutTask (p : Poste τ) (vrepTime : τ) (duree : ℤ) : Poste τ :=
  { p with taskEnCours := true, tempsDebutTask := vrepTime, dureeTask := duree }

/-- The test of `Poste::updateTask`: a task is running and its time is over. -/
def finTache [Horloge τ] (p : Poste τ) (time : τ) : Bool :=
  p.taskEnCours && Horloge.depasse time (Horloge.plus p.tempsDebutTask p.dureeTask)

/-- `Poste::updateTask`, with its result. -/
def updateTask [Horloge τ] (p : Poste τ) (time : τ) : Bool × Poste τ :=
  if p.finTache time then (true, { p with taskEnCours := false }) else (false, p)

/-- `Poste::stopTask`. -/
def stopTask (p : Poste τ) : Poste τ := { p with taskEnCours := false }

@[simp] theorem taskEnCours_stopTask (p : Poste τ) : p.stopTask.taskEnCours = false := rfl

@[simp] theorem taskEnCours_debutTask (p : Poste τ) (t : τ) (duree : ℤ) :
    (p.debutTask t duree).taskEnCours = true := rfl

/-- Stopping a post without a task changes nothing. -/
theorem stopTask_of_eq_false {p : Poste τ} (h : p.taskEnCours = false) : p.stopTask = p := by
  cases p
  cases h
  rfl

/-- Only a running task can be over. -/
theorem taskEnCours_of_finTache [Horloge τ] {p : Poste τ} {time : τ} (h : p.finTache time = true) :
    p.taskEnCours = true := by
  rw [finTache, Bool.and_eq_true] at h
  exact h.1

end Poste

end Robots
