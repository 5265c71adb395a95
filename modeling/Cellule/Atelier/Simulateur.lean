import Cellule.CommandeLocale.VrepController

/-! # The simulator

What surrounds a node that runs alone: the simulator answers with the colours and the clock it
holds, the shuttle manager with the answers still to come, and messages are kept in a journal.
-/

namespace Atelier

open Reactive Reactive.Prog Robots

/-- A write of the colours of a place. -/
structure Ecriture where
  nom : String
  avant : Pile
  apres : Pile
  deriving DecidableEq

/-- The simulator's state and the traffic of the topics. -/
structure Simulateur (τ : Type) where
  couleur : String → Pile
  temps : τ
  articulations : ℤ → Fin 7 → ℚ
  /-- The answers the shuttle manager is about to give; `66` after them. -/
  navettes : List ℤ
  ecritures : List Ecriture
  /-- The `StopTache` messages not delivered yet. -/
  stopTaches : List (ℤ × ℤ)
  journal : List Message

namespace Simulateur

variable {τ : Type}

/-- Give a place its colours. -/
def peindre (w : Simulateur τ) (nom : String) (p : Pile) : Simulateur τ :=
  { w with
    couleur := Function.update w.couleur nom p
    ecritures := w.ecritures ++ [⟨nom, w.couleur nom, p⟩] }

/-- Give a place named by the head of the message the colours that follow. -/
def peindreData (w : Simulateur τ) (nomDe : ℤ → String) : List ℤ → Simulateur τ
  | [] => w
  | id :: cubes => w.peindre (nomDe id) (Pile.ofList cubes)

/-- The reply to a request. -/
def repondre : (q : Requete) → Simulateur τ → q.Reponse τ × Simulateur τ
  | .setJointState r rpos, w =>
      ((), { w with
        articulations := Function.update w.articulations r fun i => rpos i * Robot.pi / 180 })
  | .getJointState r i, w => (w.articulations r i, w)
  | .getTime, w => (w.temps, w)
  | .getTimeUpdate, w => (w.temps, w)
  | .getColor nom i, w => ((w.couleur nom).cube i, w)
  | .changeColor data, w => ((), w.peindreData CommandeLocale.nomTable data)
  | .changeShuttleColor data, w => ((), w.peindreData Robot.nomNavette data)
  | .getIdShuttle _ _, w => (w.navettes.headD 66, { w with navettes := w.navettes.tail })

/-- Asking again until the reply is accepted: one more second passes between two readings of the
clock, and nothing else moves. -/
def attendre [Horloge τ] : (q : Requete) → (q.Reponse τ → Bool) → Simulateur τ →
    Option (Simulateur τ)
  | .getTime, ok, w =>
      if ok (Horloge.plus w.temps 1 : τ) then some { w with temps := Horloge.plus w.temps 1 } else none
  | q, ok, w => if ok (repondre q w).1 then some (repondre q w).2 else none

/-- Note a message in the journal. -/
def noter (w : Simulateur τ) (m : Message) : Simulateur τ := { w with journal := w.journal ++ [m] }

/-- A message is noted; a `StopTache` also waits for its robot. -/
def publier : Message → Simulateur τ → Simulateur τ
  | .stopTache r p, w => { w.noter (.stopTache r p) with stopTaches := w.stopTaches ++ [(r, p)] }
  | m, w => w.noter m

/-- The surroundings of a node that runs alone. -/
def handler [Horloge τ] : Handler (interface τ) (Simulateur τ) where
  answer := repondre
  settle := attendre
  post := publier

/-! ## The journal -/

theorem journal_repondre (q : Requete) (w : Simulateur τ) : (repondre q w).2.journal = w.journal := by
  cases q with
  | changeColor data => cases data <;> rfl
  | changeShuttleColor data => cases data <;> rfl
  | _ => rfl

theorem journal_attendre [Horloge τ] {q : Requete} {ok : q.Reponse τ → Bool} {w w' : Simulateur τ}
    (h : attendre q ok w = some w') : w'.journal = w.journal := by
  cases q with
  | getTime =>
    obtain ⟨-, hw⟩ := Option.ite_none_right_eq_some.1 h
    rw [← Option.some.inj hw]
  | _ =>
    obtain ⟨-, hw⟩ := Option.ite_none_right_eq_some.1 h
    rw [← Option.some.inj hw]
    exact journal_repondre _ w

theorem journal_publier (m : Message) (w : Simulateur τ) :
    (publier m w).journal = w.journal ++ [m] := by
  cases m <;> rfl

end Simulateur

end Atelier
