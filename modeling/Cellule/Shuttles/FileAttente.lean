import Mathlib.Tactic

/-! # Waiting queues of the shuttle manager

`shuttles/src/FileAttente.cpp`: one queue of shuttle numbers per track section, with the switch that
ends the section and the section that follows on either side of it.
-/

namespace Shuttles

/-- What the C++ leaves undefined: `front` or `pop` on an empty queue, and an index at which a
vector holds no element (slot `0` of `liste_file` is the null pointer). -/
inductive Faute
  | fileVide
  | indice
  deriving DecidableEq, Repr

/-- `class FileAttente`. -/
structure FileAttente where
  idAiguillage : ℕ
  successeurDroite : ℤ
  successeurGauche : ℤ
  queue : List ℤ
  deriving DecidableEq, Repr

namespace FileAttente

/-- `FileAttente::maj`: the section a passing shuttle enters, `0` for none, `-1` for a shuttle lost
because the switch stands on neither side. -/
def maj (f : FileAttente) (dd dg : Bool) : ℤ :=
  if f.queue ≠ [] then
    if f.idAiguillage = 0 then f.successeurDroite
    else if dd then f.successeurDroite
    else if dg then f.successeurGauche
    else -1
  else 0

/-- `FileAttente::get_first_navette`. -/
def getFirstNavette (f : FileAttente) : Except Faute ℤ :=
  match f.queue with
  | [] => .error .fileVide
  | navette :: _ => .ok navette

/-- `FileAttente::add_navette_in_queue`. -/
def addNavetteInQueue (f : FileAttente) (navette : ℤ) : FileAttente :=
  { f with queue := f.queue ++ [navette] }

/-- `FileAttente::delete_navette_in_queue`. -/
def deleteNavetteInQueue (f : FileAttente) : Except Faute FileAttente :=
  match f.queue with
  | [] => .error .fileVide
  | _ :: reste => .ok { f with queue := reste }

/-- Both successors name a section or no section at all. -/
def SuccesseursValides (f : FileAttente) : Prop :=
  (0 ≤ f.successeurDroite ∧ f.successeurDroite ≤ 34) ∧
    0 ≤ f.successeurGauche ∧ f.successeurGauche ≤ 34

/-- An empty queue is never asked to move a shuttle. -/
theorem maj_of_queue_nil {f : FileAttente} (h : f.queue = []) (dd dg : Bool) : f.maj dd dg = 0 := by
  simp [maj, h]

/-- The answers of `maj`: a section number, `0`, or `-1`. -/
theorem maj_range {f : FileAttente} (hf : f.SuccesseursValides) (dd dg : Bool) :
    -1 ≤ f.maj dd dg ∧ f.maj dd dg ≤ 34 := by
  obtain ⟨⟨hd0, hd⟩, hg0, hg⟩ := hf
  unfold maj
  split_ifs <;> constructor <;> omega

/-- A non-zero answer of `maj` comes from a queue with a shuttle at its head. -/
theorem exists_cons_of_maj_ne_zero {f : FileAttente} {dd dg : Bool} (h : f.maj dd dg ≠ 0) :
    ∃ navette reste, f.queue = navette :: reste := by
  cases hq : f.queue with
  | nil => exact absurd (maj_of_queue_nil hq dd dg) h
  | cons navette reste => exact ⟨navette, reste, rfl⟩

end FileAttente

end Shuttles
