import Cellule.Lib.Deferred
import Cellule.Atelier.Deplacement
import Cellule.Commande.Programme

/-! # The program as operations of the shop

What the commands of the net do to the products, on a shop reduced to its places: the posts, the two
shuttles that carry the two products, and the exit. In the order of the program every operation is
possible; the operations that may wait together do not see each other, unless they are ordered by
the robot that makes them.
-/

namespace Usine

open Commande Reactive Robots

/-! ## Operations -/

/-- What is done in the cell. A task is two operations, its start and its end. -/
inductive Operation
  | ajout (poste produit : ℤ)
  | debut (msg : FaireTacheMsg)
  | fin (msg : FaireTacheMsg)
  | deplacement (msg : DeplacerPieceMsg)
  | evacuation
  deriving DecidableEq

/-- What is done for a publication. -/
def operations : Publication → List Operation
  | .srvAddProduct poste produit => [.ajout poste produit]
  | .faireTache msg => [.debut msg, .fin msg]
  | .deplacerPiece msg => [.deplacement msg]
  | .evacuer => [.evacuation]
  | .addProduct _ _ => []

/-- What is done for a transition. -/
def operationsDe (t : Transition) : List Operation := t.publications.flatMap operations

/-- What is done for the first transitions of the chain. -/
def prevues (k : ℕ) : List Operation := (chaine.take k).flatMap operationsDe

/-! ## Places -/

/-- The posts, a shuttle for each of the two products, and the exit. -/
inductive Place
  | poste (numRobot position : ℤ)
  | navette (violet : Bool)
  | sortie
  deriving DecidableEq

/-- The places of the cell. -/
def Place.Existe : Place → Prop
  | poste numRobot position => (1 ≤ numRobot ∧ numRobot ≤ 4) ∧ (position = 1 ∨ position = 4)
  | navette _ => True
  | sortie => False

instance : DecidablePred Place.Existe
  | .poste _ _ => inferInstanceAs (Decidable (_ ∧ _))
  | .navette _ => inferInstanceAs (Decidable True)
  | .sortie => inferInstanceAs (Decidable False)

/-- The products of a place, each by its cubes, and whether a task is running. -/
structure Contenu where
  produits : List (List ℤ)
  enCours : Bool

/-- What is in each place. -/
abbrev Etat := Place → Contenu

/-- The empty shop. -/
def Etat.vide : Etat := fun _ => ⟨[], false⟩

/-- The place of a task. -/
def posteDe (msg : FaireTacheMsg) : Place := .poste msg.numRobot msg.position

/-- A product of the program goes on the track twice: the trips, with the product, of the moves that
load and unload a shuttle. -/
def voyages : List (DeplacerPieceMsg × Bool × Bool) :=
  [(⟨2, 1, 2⟩, false, false), (⟨1, 3, 4⟩, false, false), (⟨4, 1, 3⟩, false, true),
    (⟨3, 2, 1⟩, false, true), (⟨1, 4, 3⟩, true, false), (⟨2, 3, 4⟩, true, false),
    (⟨3, 4, 3⟩, true, true), (⟨2, 2, 1⟩, true, true)]

/-- The trip that a move belongs to, the second one or the first one, and the product that makes
it. -/
def voyage (msg : DeplacerPieceMsg) : Option (Bool × Bool) :=
  (voyages.find? fun v => decide (v.1 = msg)).map Prod.snd

/-- A position of a move. -/
def lieuDe (msg : DeplacerPieceMsg) (position : ℤ) : Place :=
  if Atelier.SurPiste position then .navette ((voyage msg).elim false Prod.snd)
  else .poste msg.numRobot position

/-- Where a move picks. -/
def depart (msg : DeplacerPieceMsg) : Place := lieuDe msg msg.positionA

/-- Where a move places. -/
def arrivee (msg : DeplacerPieceMsg) : Place := lieuDe msg msg.positionB

/-- The post that is evacuated. -/
def posteEvacue : Place := .poste 2 1

/-! ## The effect of an operation -/

namespace Contenu

/-- A task starts on the product. -/
def commencer (c : Contenu) (cube : ℤ) : Contenu := ⟨c.produits.map (· ++ [cube]), true⟩

/-- The last cube of the product is coloured. -/
def finir (c : Contenu) (cube : ℤ) : Contenu := ⟨c.produits.map fun e => e.dropLast ++ [cube], false⟩

/-- One product, of at most `n` visible cubes. -/
def Visible (c : Contenu) (n : ℕ) : Prop :=
  c.produits.length = 1 ∧ ∀ e ∈ c.produits, e ≠ [] ∧ e.length ≤ n ∧ ∀ cube ∈ e, cube ≠ 0

instance (c : Contenu) (n : ℕ) : Decidable (c.Visible n) := inferInstanceAs (Decidable (_ ∧ _))

end Contenu

namespace Etat

/-- The product of a place is taken to another one. -/
def transferer (s : Etat) (a b : Place) : Etat :=
  Function.update (Function.update s a ⟨[], (s a).enCours⟩) b
    ⟨(s b).produits ++ (s a).produits, (s b).enCours⟩

/-- The effect of an operation. -/
def effet (s : Etat) : Operation → Etat
  | .ajout q produit =>
      (computeFromNumPoste q).elim s fun p =>
        Function.update s (.poste p.1 p.2) ⟨[[produit * 10 + 4]], (s (.poste p.1 p.2)).enCours⟩
  | .debut msg =>
      Function.update s (posteDe msg)
        ((s (posteDe msg)).commencer ((Atelier.tableDe msg.numRobot msg.position).2 * 10 + 2))
  | .fin msg =>
      Function.update s (posteDe msg)
        ((s (posteDe msg)).finir ((Atelier.tableDe msg.numRobot msg.position).2 * 10 + 3))
  | .deplacement msg => s.transferer (depart msg) (arrivee msg)
  | .evacuation => s.transferer posteEvacue .sortie

/-- No task is running in a place, and nothing is there. -/
def Libre (s : Etat) (p : Place) : Prop := (s p).enCours = false ∧ (s p).produits = []

instance (s : Etat) (p : Place) : Decidable (s.Libre p) := inferInstanceAs (Decidable (_ ∧ _))

/-- An operation does what the program intends: a task starts on a product, a move has somewhere to
put its product, no running task is disturbed. -/
def Possible (s : Etat) : Operation → Prop
  | .ajout q _ => (1 ≤ q ∧ q ≤ 8) ∧ ∀ p ∈ computeFromNumPoste q, s.Libre (.poste p.1 p.2)
  | .debut msg => (posteDe msg).Existe ∧ (s (posteDe msg)).enCours = false ∧
      (s (posteDe msg)).Visible (nbCube - 1)
  | .fin msg => (posteDe msg).Existe ∧ (s (posteDe msg)).enCours = true ∧ (s (posteDe msg)).Visible nbCube
  | .deplacement msg => ((depart msg).Existe ∧ (arrivee msg).Existe ∧ depart msg ≠ arrivee msg) ∧
      (s (depart msg)).enCours = false ∧ s.Libre (arrivee msg)
  | .evacuation => (s posteEvacue).enCours = false ∧ (s posteEvacue).Visible nbCube

instance (s : Etat) : DecidablePred s.Possible
  | .ajout _ _ => inferInstanceAs (Decidable (_ ∧ _))
  | .debut _ => inferInstanceAs (Decidable (_ ∧ _))
  | .fin _ => inferInstanceAs (Decidable (_ ∧ _))
  | .deplacement _ => inferInstanceAs (Decidable (_ ∧ _))
  | .evacuation => inferInstanceAs (Decidable (_ ∧ _))

end Etat

/-- The shop once the operations of the first transitions are done. -/
def etatPrevu (k : ℕ) : Etat := (prevues k).foldl Etat.effet Etat.vide

/-! ## Operations that wait -/

/-- A test that succeeds says that an operation is done. -/
def acquitte : Condition → Operation → Bool
  | .tacheFinie q, .debut msg | .tacheFinie q, .fin msg =>
      decide (computeFromNumPoste q = some (msg.numRobot, msg.position))
  | .finDeplacerPiece r, .deplacement msg => decide (msg.numRobot = r)
  | _, _ => false

/-- An operation that is asked of a robot; a product is added at once. -/
def Operation.demandee : Operation → Bool
  | .ajout _ _ => false
  | _ => true

/-- The operations that may still wait after the tests of a transition. -/
def apresTests (t : Transition) (os : List Operation) : List Operation :=
  os.filter fun o => !t.conditions.any fun cond => acquitte cond o

/-- The operations that may wait after the first transitions of the chain. -/
def suspens : ℕ → List Operation
  | 0 => []
  | k + 1 =>
      (chaine[k]?).elim (suspens k) fun t =>
        apresTests t (suspens k) ++ (operationsDe t).filter Operation.demandee

/-- The places that an operation reads and writes. -/
def Operation.lieux : Operation → List Place
  | .ajout q _ => (computeFromNumPoste q).toList.map fun p => .poste p.1 p.2
  | .debut msg | .fin msg => [posteDe msg]
  | .deplacement msg => [depart msg, arrivee msg]
  | .evacuation => [posteEvacue, .sortie]

/-- The robot that makes an operation when it executes a message. -/
def Operation.robot : Operation → Option ℤ
  | .debut msg => some msg.numRobot
  | .deplacement msg => some msg.numRobot
  | .evacuation => some 2
  | .ajout _ _ | .fin _ => none

/-- Two operations that wait, in the order of the program, do not see each other, are made by one
robot, or are the start and the end of one task. -/
def Suivent (o o' : Operation) : Prop :=
  (∀ p ∈ o.lieux, p ∉ o'.lieux) ∨ (o.robot = o'.robot ∧ o'.robot ≠ none) ∨
    (o.robot ≠ none ∧ o'.robot = none ∧ o.lieux = o'.lieux)

instance (o o' : Operation) : Decidable (Suivent o o') := inferInstanceAs (Decidable (_ ∨ _))

/-- A move of the `k`-th transitions that goes on the track belongs to the trip of that moment. -/
def EnVoyage (k : ℕ) : Operation → Prop
  | .deplacement msg =>
      (∀ v ∈ voyage msg, v.1 = decide (11 < k)) ∧
        (msg.positionA ∈ [1, 2, 3, 4] ∧ msg.positionB ∈ [1, 2, 3, 4]) ∧
        (Atelier.SurPiste msg.positionA ∨ Atelier.SurPiste msg.positionB → voyage msg ≠ none)
  | _ => True

instance (k : ℕ) : DecidablePred (EnVoyage k)
  | .deplacement _ => inferInstanceAs (Decidable (_ ∧ _))
  | .ajout _ _ | .debut _ | .fin _ | .evacuation => inferInstanceAs (Decidable True)

/-! ## Operations that do not see each other -/

section Within

theorem transferer_frame (s : Etat) {a b p : Place} (hp : p ∉ [a, b]) : s.transferer a b p = s p := by
  simp only [List.mem_cons, List.not_mem_nil, or_false, not_or] at hp
  rw [Etat.transferer, Function.update_of_ne hp.2, Function.update_of_ne hp.1]

theorem transferer_congr {s s' : Etat} {a b : Place} (h : ∀ p ∈ [a, b], s p = s' p) :
    ∀ p ∈ [a, b], s.transferer a b p = s'.transferer a b p := by
  have ha : s a = s' a := h a (by simp)
  have hb : s b = s' b := h b (by simp)
  intro p hp
  have hab : p = a ∨ p = b := by simpa using hp
  rw [Etat.transferer, Etat.transferer, ha, hb]
  by_cases hpb : p = b
  · rw [hpb, Function.update_self, Function.update_self]
  · rw [Function.update_of_ne hpb, Function.update_of_ne hpb, hab.resolve_right hpb, Function.update_self,
      Function.update_self]

/-- A write in one place. -/
theorem within_update {o : Operation} {p : Place} {f : Contenu → Contenu} {P : Contenu → Prop}
    (heffet : ∀ s : Etat, s.effet o = Function.update s p (f (s p)))
    (hpossible : ∀ s : Etat, s.Possible o ↔ P (s p)) : Within Etat.Possible Etat.effet o [p] where
  frame s q hq := by rw [heffet, Function.update_of_ne (by simpa using hq)]
  effect_congr s s' h q hq := by
    have hqp : q = p := by simpa using hq
    rw [heffet, heffet, hqp, Function.update_self, Function.update_self, h p (by simp)]
  guard_congr s s' h := by rw [hpossible, hpossible, h p (by simp)]

/-- Every operation reads and writes its places only. -/
theorem within_lieux (o : Operation) : Within Etat.Possible Etat.effet o o.lieux := by
  cases o with
  | ajout q produit =>
    cases hq : computeFromNumPoste q with
    | none =>
      refine ⟨fun s p _ => ?_, fun s s' h p hp => ?_, fun s s' _ => ?_⟩
      · rw [Etat.effet, hq]
        rfl
      · rw [Etat.effet, Etat.effet, hq]
        exact h p hp
      · simp [Etat.Possible, hq]
    | some p =>
      have hlieux : (Operation.ajout q produit).lieux = [.poste p.1 p.2] := by rw [Operation.lieux, hq]; rfl
      rw [hlieux]
      refine within_update (f := fun c => ⟨[[produit * 10 + 4]], c.enCours⟩)
        (P := fun c => (1 ≤ q ∧ q ≤ 8) ∧ c.enCours = false ∧ c.produits = []) (fun s => ?_) fun s => ?_
      · rw [Etat.effet, hq]
        rfl
      · simp [Etat.Possible, hq, Etat.Libre]
  | debut msg =>
    exact within_update
      (f := fun c => c.commencer ((Atelier.tableDe msg.numRobot msg.position).2 * 10 + 2))
      (P := fun c => (posteDe msg).Existe ∧ c.enCours = false ∧ c.Visible (nbCube - 1))
      (fun _ => rfl) fun _ => Iff.rfl
  | fin msg =>
    exact within_update
      (f := fun c => c.finir ((Atelier.tableDe msg.numRobot msg.position).2 * 10 + 3))
      (P := fun c => (posteDe msg).Existe ∧ c.enCours = true ∧ c.Visible nbCube)
      (fun _ => rfl) fun _ => Iff.rfl
  | deplacement msg =>
    refine ⟨fun s p hp => transferer_frame s hp, fun s s' h => transferer_congr h, fun s s' h => ?_⟩
    have hdepart : s (depart msg) = s' (depart msg) := h _ (by simp [Operation.lieux])
    have harrivee : s (arrivee msg) = s' (arrivee msg) := h _ (by simp [Operation.lieux])
    rw [Etat.Possible, Etat.Possible, Etat.Libre, Etat.Libre, hdepart, harrivee]
  | evacuation =>
    refine ⟨fun s p hp => transferer_frame s hp, fun s s' h => transferer_congr h, fun s s' h => ?_⟩
    have hposte : s posteEvacue = s' posteEvacue := h _ (by simp [Operation.lieux])
    rw [Etat.Possible, Etat.Possible, hposte]

/-- Operations on different places do not see each other. -/
theorem independent_of_lieux {o o' : Operation} (h : ∀ p ∈ o.lieux, p ∉ o'.lieux) :
    Independent Etat.Possible Etat.effet o o' :=
  (within_lieux o).independent (within_lieux o') fun p hp hp' => h p hp hp'

end Within

/-! ## The end of a task -/

section Taches

variable {s t : Etat} {p : Place} {l : List Operation}

/-- A running task goes on until its end. -/
theorem enCours_effet (h : (s p).enCours = true) {o : Operation}
    (hfin : ∀ msg, o = .fin msg → posteDe msg ≠ p) : (s.effet o p).enCours = true := by
  have hupdate : ∀ (s : Etat) (q : Place) (c : Contenu), (s p).enCours = true → (q = p → c.enCours = true) →
      (Function.update s q c p).enCours = true := by
    intro s q c hs hc
    by_cases hq : p = q
    · rw [hq, Function.update_self]
      exact hc hq.symm
    · rwa [Function.update_of_ne hq]
  have htransferer : ∀ a b, (s.transferer a b p).enCours = true := fun a b =>
    hupdate _ b _ (hupdate s a _ h fun ha => ha ▸ h) fun hb => hb ▸ h
  cases o with
  | ajout q produit =>
    rw [Etat.effet]
    cases computeFromNumPoste q with
    | none => exact h
    | some poste => exact hupdate s _ _ h fun hq => hq ▸ h
  | debut msg => exact hupdate s _ _ h fun _ => rfl
  | fin msg => exact hupdate s _ _ h fun hq => absurd hq (hfin msg rfl)
  | deplacement msg => exact htransferer _ _
  | evacuation => exact htransferer _ _

/-- A running task that ends in the program has its end among the operations that wait, and nothing
before it starts or ends a task there. -/
theorem fin_en_attente (h : Deferred Etat.Possible Etat.effet s l t) (hs : (s p).enCours = true)
    (ht : (t p).enCours = false) :
    ∃ l₁ msg l₂, l = l₁ ++ .fin msg :: l₂ ∧ posteDe msg = p ∧
      ∀ o ∈ l₁, ∀ msg, o = .debut msg ∨ o = .fin msg → posteDe msg ≠ p := by
  obtain ⟨hadm, rfl⟩ := h
  induction l generalizing s with
  | nil => exact absurd (hs.symm.trans ht) (by decide)
  | cons o l ih =>
    by_cases hfin : ∃ msg, o = .fin msg ∧ posteDe msg = p
    · obtain ⟨msg, rfl, hp⟩ := hfin
      exact ⟨[], msg, l, rfl, hp, fun o ho => absurd ho List.not_mem_nil⟩
    · have hautre : ∀ msg, o = .fin msg → posteDe msg ≠ p := fun msg ho hp => hfin ⟨msg, ho, hp⟩
      obtain ⟨l₁, msg, l₂, rfl, hp, havant⟩ := ih (enCours_effet hs hautre) hadm.2 ht
      refine ⟨o :: l₁, msg, l₂, rfl, hp, List.forall_mem_cons.2 ⟨?_, havant⟩⟩
      rintro msg' (rfl | ho)
      -- no task starts where one is running
      · rintro rfl
        exact absurd (hs.symm.trans hadm.1.2.1) (by decide)
      · exact hautre msg' ho

/-- The start of a task does not wait without its end. -/
theorem fin_of_debut {msg : FaireTacheMsg} (h : Deferred Etat.Possible Etat.effet s l t)
    (hdebut : .debut msg ∈ l) (ht : (t (posteDe msg)).enCours = false) :
    ∃ msg', .fin msg' ∈ l ∧ posteDe msg' = posteDe msg := by
  obtain ⟨l₁, l₂, rfl⟩ := List.append_of_mem hdebut
  obtain ⟨hadm, rfl⟩ := h
  rw [List.foldl_append, List.foldl_cons] at ht
  obtain ⟨-, -, hadm₂⟩ := admissible_append.1 hadm
  have hs : ((l₁.foldl Etat.effet s).effet (.debut msg) (posteDe msg)).enCours = true := by
    rw [Etat.effet, Function.update_self]
    rfl
  obtain ⟨l₃, msg', l₄, rfl, hp, -⟩ := fin_en_attente ⟨hadm₂, rfl⟩ hs ht
  exact ⟨msg', by simp, hp⟩

end Taches

/-! ## Tables -/

/-- The program, one operation after the other. -/
theorem programme_possible : Admissible Etat.Possible Etat.effet Etat.vide (prevues 26) := by
  decide

theorem suspens_ordonnees : ∀ k ∈ List.range 27, (suspens k).Pairwise Suivent := by decide

theorem suspens_en_voyage : ∀ k ∈ List.range 27, ∀ o ∈ suspens k, EnVoyage k o := by decide

/-- Every task of the program ends. -/
theorem postes_prevus : ∀ k ∈ List.range 27, ∀ n ∈ ([1, 2, 3, 4] : List ℤ), ∀ p ∈ ([1, 4] : List ℤ),
    (etatPrevu k (.poste n p)).enCours = false := by
  decide

/-- Between the two trips nothing waits and the shuttles are empty. -/
theorem entre_voyages : (∀ t ∈ chaine[11]?, apresTests t (suspens 11) = []) ∧
    ∀ violet, (etatPrevu 11 (.navette violet)).produits = [] := by
  decide

/-- Products are added when nothing waits, and by the first transition only. -/
theorem ajouts_prevus : ∀ k ∈ List.range 26, ∀ t ∈ chaine[k]?,
    (∀ o ∈ operationsDe t, o.demandee = true) ∨
      suspens k = [] ∧ ∀ o ∈ operationsDe t, o.demandee = false := by
  decide

/-- The operations that wait are of the four robots. -/
theorem robots_prevus : ∀ k ∈ List.range 27, ∀ o ∈ suspens k, ∀ numRobot ∈ o.robot, 1 ≤ numRobot ∧
    numRobot ≤ 4 := by
  decide

/-- The additions do not wait. -/
theorem demandees_prevues : ∀ k ∈ List.range 27, ∀ o ∈ suspens k, o.demandee = true := by decide

/-- At the end only the evacuations, which nothing acknowledges, may wait. -/
theorem suspens_fin : ∀ o ∈ suspens 26, o = .evacuation := by decide

/-- At the end nothing is left in the cell. -/
theorem places_videes : (∀ n ∈ ([1, 2, 3, 4] : List ℤ), ∀ p ∈ ([1, 4] : List ℤ),
      (etatPrevu 26 (.poste n p)).produits = []) ∧
    ∀ violet, (etatPrevu 26 (.navette violet)).produits = [] := by
  decide

/-- The products that leave the cell. -/
theorem sorties_prevues :
    (etatPrevu 26 .sortie).produits = [[64, 73, 63, 53, 53, 33], [24, 13, 43]] := by
  decide

end Usine
