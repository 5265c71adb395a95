import Cellule.Atelier.Bilan
import Cellule.CommandeLocale.NoeudLog

/-! # What comes in and what goes out

Nothing that happens to a product changes its base cube, and every base cube was put there by an
addition. So the evacuated stacks with a given base, with those still in the cell, are at most the
additions of this base; and the log says so at every moment.
-/

namespace Atelier

open Reactive Reactive.Prog Robots Robots.Robot
open CommandeLocale.LogManager (Avis)
open Vue (table)

variable {τ : Type}

/-! ## The products of a class -/

section Classe

variable (f : ℤ → Bool) (S : Finset String)

/-- A stack carries a product of the class. -/
def porteDe (p : Pile) : ℕ := if f p.base then 1 else 0

/-- The products of the class at some places and in the grippers. -/
def presentsDe (v : Vue τ) : ℕ := ∑ nom ∈ S, porteDe f (v.pile nom) + ∑ r, porteDe f (v.pince r)

/-- The evacuated products of the class. -/
def sortiesDe (v : Vue τ) : ℕ := v.evacues.countP fun l => f (l.headD 0)

/-- The products of the class that are there or evacuated. -/
def soldeDe (v : Vue τ) : ℕ := presentsDe f S v + sortiesDe f v

/-- The products of the class that an action adds. -/
def gainDe : Action τ → ℕ
  | .ajout _ produit => if f (produit * 10 + 4) then 1 else 0
  | _ => 0

variable {f S}

theorem porteDe_vide (hf : f 0 = false) : porteDe f Pile.vide = 0 := by
  have hbase : Pile.vide.base = 0 := rfl
  rw [porteDe, hbase, hf]
  rfl

theorem deLaBase_porteDe (hf : f 0 = false) : DeLaBase (porteDe f) where
  vide := porteDe_vide hf
  base h := by rw [porteDe, porteDe, h]

/-- What an action brings of the class. -/
theorem porteDe_apportee (hf : f 0 = false) (a : Action τ) : porteDe f (apportee a) = gainDe f a := by
  cases a with
  | ajout nom produit =>
    rw [apportee, porteDe, CommandeLocale.base_pileProduit]
    rfl
  | _ => exact porteDe_vide hf

/-- Nothing leaves but what is taken away. -/
theorem sortiesDe_apres (v : Vue τ) (a : Action τ) :
    sortiesDe f (v.apres a) ≤ sortiesDe f v + porteDe f (emportee v a) := by
  cases a with
  | evacuation =>
    have hbase : (v.pile (tableDe 2 1).1).toList.headD 0 = (v.pile (tableDe 2 1).1).base := by
      rw [List.headD_eq_head?_getD, List.head?_eq_getElem?, Pile.base, Pile.cube,
        List.getD_eq_getElem?_getD]
    rw [sortiesDe, Vue.apres, List.countP_append, List.countP_singleton, hbase]
    exact le_rfl
  | _ => exact Nat.le_add_right _ _

/-- An action brings no product of the class but those it adds. -/
theorem soldeDe_apres (hf : f 0 = false) (hS : lieux ⊆ S) {v : Vue τ} {a : Action τ}
    (hs : ActionDans S a) (ha : ActionAssise v a) :
    soldeDe f S (v.apres a) ≤ soldeDe f S v + gainDe f a := by
  have hpoids : presentsDe f S (v.apres a) + porteDe f (emportee v a) =
      presentsDe f S v + porteDe f (apportee a) := poids_apres (deLaBase_porteDe hf) hS hs ha
  have hsorties := sortiesDe_apres (f := f) v a
  rw [porteDe_apportee hf] at hpoids
  rw [soldeDe, soldeDe]
  omega

/-- A list of actions brings no product of the class but those it adds. -/
theorem soldeDe_foldl (hf : f 0 = false) (hS : lieux ⊆ S) {v : Vue τ} {as : List (Action τ)}
    (hs : ∀ a ∈ as, ActionDans S a) (ha : Admissible ActionAssise Vue.apres v as) :
    soldeDe f S (as.foldl Vue.apres v) ≤ soldeDe f S v + (as.map (gainDe f)).sum := by
  induction as generalizing v with
  | nil => exact le_rfl
  | cons a as ih =>
    obtain ⟨hsa, hs⟩ := List.forall_mem_cons.1 hs
    have hpas := soldeDe_apres hf hS hsa ha.1
    have hsuite := ih hs ha.2
    rw [List.foldl_cons, List.map_cons, List.sum_cons]
    omega

end Classe

/-! ## The actions of an order -/

theorem ActionsJustes.situees {v : Vue τ} {as : List (Action τ)} (h : ActionsJustes v as) :
    ∀ a ∈ as, ActionSituee a := by
  induction as generalizing v with
  | nil => simp
  | cons a as ih => exact List.forall_mem_cons.2 ⟨h.1, ih h.2.2⟩

theorem ActionsJustes.assises {v : Vue τ} {as : List (Action τ)} (h : ActionsJustes v as) :
    Admissible ActionAssise Vue.apres v as := by
  induction as generalizing v with
  | nil => trivial
  | cons a as ih => exact ⟨h.2.1, ih h.2.2⟩

/-- The actions of a move: stopped tasks, and exchanges between the gripper and a place. -/
def ActionDeplace (S : Finset String) : Action τ → Prop
  | .arret _ _ | .chute _ => True
  | .prise _ nom | .pose _ nom => nom ∈ S
  | _ => False

theorem ActionDeplace.assises {S : Finset String} {v : Vue τ} {as : List (Action τ)}
    (h : ∀ a ∈ as, ActionDeplace S a) : Admissible ActionAssise Vue.apres v as := by
  induction as generalizing v with
  | nil => trivial
  | cons a as ih =>
    obtain ⟨ha, has⟩ := List.forall_mem_cons.1 h
    refine ⟨?_, ih has⟩
    cases a with
    | debut => exact ha.elim
    | fin => exact ha.elim
    | _ => trivial

theorem ActionDeplace.dans {S : Finset String} {a : Action τ} (h : ActionDeplace S a) :
    ActionDans S a ∧ ∀ f, gainDe f a = 0 := by
  cases a with
  | ajout => exact h.elim
  | prise r nom => exact ⟨h, fun _ => rfl⟩
  | pose r nom => exact ⟨h, fun _ => rfl⟩
  | _ => exact ⟨trivial, fun _ => rfl⟩

/-- The shuttles that an order may touch. -/
def nomsNavettes : Ordre τ → List String
  | .deplacerPiece _ _ _ navettes => navettes.map nomNavette
  | _ => []

/-- The actions of `Colorer` at a position touch the tables and the shuttle that is named. -/
theorem actionsColorer_deplace {S : Finset String} (hS : lieux ⊆ S) (r : Fin 4) {position : ℤ}
    (hpos : position ∈ [1, 2, 3, 4]) (type : ℤ) {navettes : List ℤ}
    (hnav : ∀ n ∈ navettes, nomNavette n ∈ S) :
    ∀ a ∈ (actionsColorer r position type (navettes.headD 66) : List (Action τ)),
      ActionDeplace S a := by
  rcases @actionsColorer_cases τ r position type navettes with ⟨-, h⟩ | ⟨hpres, avant, havant, h⟩
  · rw [h]
    simp [ActionDeplace]
  · have hlieu : lieuTouche r position navettes ∈ S := by
      rw [lieuTouche]
      split_ifs with h23
      · cases navettes with
        | nil => exact absurd ⟨h23, rfl⟩ hpres
        | cons n ns => exact hnav n (by simp)
      · exact hS (table_mem_lieux r (by simp at hpos; omega))
    have hgeste : ActionDeplace S
        (geste r type (lieuTouche r position navettes) : Action τ) := by
      rw [geste]
      split <;> exact hlieu
    rw [h]
    rcases havant with rfl | rfl
    · simpa using hgeste
    · simpa [ActionDeplace] using hgeste

variable [Horloge τ]

omit [Horloge τ] in
theorem entrees_of_justes {v : Vue τ} {as : List (Action τ)} (h : ActionsJustes v as)
    {S : Finset String} (hS : lieux ⊆ S) :
    Admissible ActionAssise Vue.apres v as ∧ ∀ a ∈ as, ActionDans S a := by
  refine ⟨h.assises, fun a ha => ?_⟩
  have hsituee := h.situees a ha
  cases a with
  | prise r nom => exact hS hsituee
  | pose r nom => exact hS hsituee
  | ajout nom produit => exact hS hsituee
  | _ => trivial

/-- The actions of a move. -/
theorem actions_deplace {S : Finset String} (hS : lieux ⊆ S) {r : Fin 4} {msg : DeplacerPieceMsg}
    {temps : τ} {navettes : List ℤ} (ho : (Ordre.deplacerPiece r msg temps navettes).Valide)
    (hnoms : ∀ nom ∈ nomsNavettes (.deplacerPiece r msg temps navettes), nom ∈ S) (v : Vue τ) :
    ∀ a ∈ actions (.deplacerPiece r msg temps navettes) v, ActionDeplace S a := by
  have hnav : ∀ n ∈ navettes, nomNavette n ∈ S := fun n hn => hnoms _ (List.mem_map_of_mem hn)
  have hapres : ∀ n ∈ navettesApres msg.positionA navettes, nomNavette n ∈ S := by
    intro n hn
    rw [navettesApres] at hn
    split_ifs at hn
    · exact hnav n (List.mem_of_mem_tail hn)
    · exact hnav n hn
  intro a ha
  rw [actions] at ha
  split_ifs at ha
  · rcases List.mem_append.1 ha with ha | ha
    · exact actionsColorer_deplace hS r ho.1 0 hnav a ha
    · exact actionsColorer_deplace hS r ho.2 1 hapres a ha
  · cases ha

/-- The actions of an order paint the places it may touch, and keep the bases. -/
theorem actions_entrees {trace : Trace τ} {c : Cellule τ} (hs : Suivi trace c) {o : Ordre τ}
    (ho : o.Valide) {S : Finset String} (hS : lieux ⊆ S) (hnoms : ∀ nom ∈ nomsNavettes o, nom ∈ S) :
    Admissible ActionAssise Vue.apres (vue c) (actions o (vue c)) ∧
      ∀ a ∈ actions o (vue c), ActionDans S a := by
  cases o with
  | deplacerPiece r msg temps navettes =>
    have h := actions_deplace hS ho hnoms (vue c)
    exact ⟨ActionDeplace.assises h, fun a ha => (h a ha).dans.1⟩
  | _ => exact entrees_of_justes (actions_justes hs ho trivial) hS

/-- The products of the class that an order adds. -/
def ajoutDe (f : ℤ → Bool) : Ordre τ → ℕ
  | .ajouterProduit produit _ => if f (produit * 10 + 4) then 1 else 0
  | _ => 0

theorem gainsDe_actions (f : ℤ → Bool) (v : Vue τ) {o : Ordre τ} (ho : o.Valide) :
    ((actions o v).map (gainDe f)).sum = ajoutDe f o := by
  cases o with
  | deplacerPiece r msg temps navettes =>
    have h := actions_deplace (S := lieux ∪ (navettes.map nomNavette).toFinset) Finset.subset_union_left
      ho (fun nom hnom => Finset.mem_union_right _ (List.mem_toFinset.2 hnom)) v
    rw [List.map_congr_left fun a ha => (h a ha).dans.2 f]
    simp [ajoutDe]
  | ajouterProduit produit poste =>
    obtain ⟨r, position, hpos, hcible, hr, hnom⟩ := poste_valide ho
    simp only [actions, hcible, hr]
    split_ifs <;> simp [gainDe, ajoutDe]
  | _ =>
    rw [actions]
    split_ifs <;> rfl

/-- An addition evacuates nothing. -/
theorem evacues_ajouterProduit (v : Vue τ) {produit poste : ℤ} (ho : 1 ≤ poste ∧ poste ≤ 8) :
    ((actions (.ajouterProduit produit poste) v).foldl Vue.apres v).evacues = v.evacues := by
  obtain ⟨r, position, hpos, hcible, hr, hnom⟩ := poste_valide ho
  simp only [actions, hcible, hr]
  split_ifs <;> rfl

omit [Horloge τ] in
/-- A stack that is evacuated is read whole. -/
theorem evacues_foldl {v : Vue τ} (as : List (Action τ)) (h : ∀ l ∈ v.evacues, l.length = nbCube) :
    ∀ l ∈ (as.foldl Vue.apres v).evacues, l.length = nbCube := by
  induction as generalizing v with
  | nil => exact h
  | cons a as ih =>
    refine ih ?_
    cases a with
    | evacuation =>
      intro l hl
      rcases List.mem_append.1 hl with hl | hl
      · exact h l hl
      · rw [List.mem_singleton.1 hl, Pile.length_toList]
    | _ => exact h

/-! ## The log of a run -/

/-- The messages of a journal that the log manager receives. -/
def avisDe (journal : List Message) : List Avis :=
  journal.filterMap fun
    | .produitEvac l => some (.produitEvac l)
    | .tacheFinie poste produit duree => some (.tacheFinie poste produit duree)
    | .erreurLog code n => some (.erreurLog code n)
    | _ => none

/-- What is published for a product that is added. -/
def nouveaux : Ordre τ → List Avis
  | .ajouterProduit produit _ => [.addProduct (produit * 10 + 4)]
  | _ => []

/-- An order, and whether it comes from the menu of `commande_locale`. -/
structure Demande (τ : Type) where
  ordre : Ordre τ
  menu : Bool

/-- The messages of an order: the menu publishes the product before it is added, and
`AjouterProduit` after. -/
def messages (d : Demande τ) (ms : List Avis) : List Avis :=
  if d.menu then nouveaux d.ordre ++ ms else ms ++ nouveaux d.ordre

/-- The cell, and the messages of the log in the order in which they were published. -/
structure Chronique (τ : Type) where
  cellule : Cellule τ
  log : List Avis

namespace Chronique

/-- An order is executed. -/
def etape (s : Chronique τ) (d : Demande τ) : Option (Chronique τ) :=
  match Cellule.executerOrdre d.ordre s.cellule with
  | .ok (_, c) =>
      some ⟨c, s.log ++ messages d (avisDe (c.sim.journal.drop s.cellule.sim.journal.length))⟩
  | .error _ => none

/-- The start, with nothing in the cell. -/
def initiale (temps : τ) : Chronique τ := ⟨.initiale (fun _ => Pile.vide) temps, []⟩

/-- The orders that reach the cell; nothing is evacuated during a task of post 3. -/
def Permis (s : Chronique τ) (d : Demande τ) : Prop :=
  d.ordre.Valide ∧ EvacuerHorsTache s.cellule d.ordre

end Chronique

/-- A message says that a product of the class comes in. -/
def estNouveau (f : ℤ → Bool) : Avis → Bool
  | .addProduct code => f code
  | _ => false

/-- A message says that a product of the class leaves. -/
def estSortie (f : ℤ → Bool) : Avis → Bool
  | .produitEvac data => f (data.headD 0)
  | _ => false

/-! ## The journal only grows -/

theorem journal_run {σ α : Type} {p : Prog (interface τ) σ α} {s s' : σ} {w w' : Simulateur τ}
    {a : α} (h : p.run Simulateur.handler s w = .ok (a, s', w')) : w.journal <+: w'.journal := by
  refine run_rel Simulateur.handler s w (R := fun w w' => w.journal <+: w'.journal)
    (fun _ => List.prefix_rfl) List.IsPrefix.trans ?_ ?_ ?_ h
  · intro q w
    exact (Simulateur.journal_repondre q w).symm ▸ List.prefix_rfl
  · intro q ok w w' hw
    rw [Simulateur.journal_attendre hw]
  · intro m w
    exact (Simulateur.journal_publier m w).symm ▸ List.prefix_append _ _

/-- Code that publishes no message of a kind adds none to the journal. -/
theorem filter_journal_of_emits {σ α : Type} {P : Message → Bool} {p : Prog (interface τ) σ α}
    (hp : p.Emits fun m => P m = false) {s s' : σ} {w w' : Simulateur τ} {a : α}
    (h : p.run Simulateur.handler s w = .ok (a, s', w')) : w'.journal.filter P = w.journal.filter P := by
  obtain ⟨ms, hms, hrien⟩ := run_log Simulateur.handler s w Simulateur.journal
    Simulateur.journal_repondre (fun _ _ _ _ h => Simulateur.journal_attendre h)
    Simulateur.journal_publier hp h
  have hvide : ms.filter P = [] := by
    refine List.filter_eq_nil_iff.2 fun m hm => ?_
    rw [hrien m hm]
    exact Bool.false_ne_true
  rw [hms, List.filter_append, hvide, List.append_nil]

theorem journal_livrerStops {stops : List (ℤ × ℤ)} {c c' : Cellule τ}
    (h : stops.foldlM Cellule.livrerStop c = .ok c') : c.sim.journal <+: c'.sim.journal :=
  livrerStops_rel (R := fun c c' => c.sim.journal <+: c'.sim.journal) (fun _ => List.prefix_rfl)
    (fun _ _ _ h₁ h₂ => h₁.trans h₂) (fun _ _ _ _ _ _ hex => journal_run hex) h

theorem journal_executerOrdre {o : Ordre τ} {c c' : Cellule τ} {res : Resultat}
    (h : Cellule.executerOrdre o c = .ok (res, c')) : c.sim.journal <+: c'.sim.journal := by
  cases o with
  | ajouterProduit produit poste =>
    obtain ⟨c₁, hajout, hres⟩ := map_eq_ok h
    cases hres
    unfold Cellule.ajouterProduit at hajout
    cases hrun : (CommandeLocale.addProduct produit poste).run Simulateur.handler () c.sim with
    | error e =>
      rw [hrun] at hajout
      cases hajout
    | ok x =>
      rw [hrun] at hajout
      exact (journal_run hrun).trans (journal_livrerStops hajout)
  | _ =>
    obtain ⟨a, s', w', hex, hres⟩ := surRobot_map_inv h
    cases hres
    have hjournal := journal_run hex
    exact hjournal

/-- The evacuated stacks in a log. -/
def evacuesLog (log : List Avis) : List (List ℤ) :=
  log.filterMap fun
    | .produitEvac data => some data
    | _ => none

omit [Horloge τ] in
theorem evacuesLog_append (log log' : List Avis) :
    evacuesLog (log ++ log') = evacuesLog log ++ evacuesLog log' := List.filterMap_append

omit [Horloge τ] in
theorem countP_evacuesLog (f : ℤ → Bool) (log : List Avis) :
    (evacuesLog log).countP (fun l => f (l.headD 0)) = log.countP (estSortie f) := by
  unfold evacuesLog
  rw [List.countP_filterMap]
  apply List.countP_congr
  intro a _
  cases a <;> rfl

omit [Horloge τ] in
/-- The messages of an order are those that the journal gains. -/
theorem evacues_avisDe {c c' : Cellule τ} (h : c.sim.journal <+: c'.sim.journal) :
    (vue c').evacues = (vue c).evacues ++
      evacuesLog (avisDe (c'.sim.journal.drop c.sim.journal.length)) := by
  obtain ⟨ms, hms⟩ := h
  have hevacues : evacuesLog (avisDe ms) = evacuesDe ms := by
    unfold evacuesLog avisDe evacuesDe
    rw [List.filterMap_filterMap]
    congr 1
    funext m
    cases m <;> rfl
  show evacuesDe c'.sim.journal = evacuesDe c.sim.journal ++ _
  rw [← hms, List.drop_left, hevacues, evacuesDe_append]

theorem nouveaux_avisDe (f : ℤ → Bool) (journal : List Message) :
    (avisDe journal).countP (estNouveau f) = 0 := by
  rw [List.countP_eq_zero]
  intro a ha
  obtain ⟨m, -, hm⟩ := List.mem_filterMap.1 ha
  cases m <;> cases hm <;> simp [estNouveau]

/-! ## Runs -/

omit [Horloge τ] in
/-- What an order adds to the log, beside the messages of its journal. -/
theorem countP_nouveaux (f : ℤ → Bool) (o : Ordre τ) :
    (nouveaux o).countP (estNouveau f) = ajoutDe f o ∧ (nouveaux o).countP (estSortie f) = 0 := by
  cases o with
  | ajouterProduit produit poste =>
    rw [nouveaux, List.countP_singleton, List.countP_singleton]
    exact ⟨rfl, rfl⟩
  | _ => exact ⟨rfl, rfl⟩

omit [Horloge τ] in
/-- The messages of an order, in whichever order. -/
theorem countP_messages (g : Avis → Bool) (d : Demande τ) (ms : List Avis) :
    (messages d ms).countP g = ms.countP g + (nouveaux d.ordre).countP g := by
  unfold messages
  split_ifs
  · rw [List.countP_append, Nat.add_comm]
  · rw [List.countP_append]

omit [Horloge τ] in
theorem evacuesLog_messages (d : Demande τ) (ms : List Avis) :
    evacuesLog (messages d ms) = evacuesLog ms := by
  have hneufs : evacuesLog (nouveaux d.ordre) = [] := by
    cases d.ordre <;> rfl
  unfold messages
  split_ifs
  · rw [evacuesLog_append, hneufs, List.nil_append]
  · rw [evacuesLog_append, hneufs, List.append_nil]

namespace Chronique

/-- What every run keeps, for a class of products, at any places that include those it may touch. -/
structure Suivie (f : ℤ → Bool) (trace : List (Demande τ)) (s : Chronique τ) : Prop where
  suivi : ∃ t, Suivi t s.cellule
  evacues : (vue s.cellule).evacues = evacuesLog s.log
  entiers : ∀ l ∈ (vue s.cellule).evacues, l.length = nbCube
  solde : ∀ S, lieux ⊆ S → (∀ d ∈ trace, ∀ nom ∈ nomsNavettes d.ordre, nom ∈ S) →
    soldeDe f S (vue s.cellule) ≤ s.log.countP (estNouveau f)
  prefixes : ∀ l, l <+: s.log → l.countP (estSortie f) ≤ l.countP (estNouveau f)

theorem suivie_initiale {f : ℤ → Bool} (hf : f 0 = false) (temps : τ) :
    Suivie f [] (initiale temps) where
  suivi := ⟨[], suivi_initiale _ temps⟩
  evacues := rfl
  entiers := by simp [initiale, vue, Cellule.initiale, evacuesDe]
  solde S _ _ := by
    have hvide := porteDe_vide hf
    have hpile : ∀ nom, porteDe f ((vue (initiale temps).cellule).pile nom) = 0 := fun _ => hvide
    have hpince : ∀ r, porteDe f ((vue (initiale temps).cellule).pince r) = 0 := fun _ => hvide
    rw [soldeDe, presentsDe, Finset.sum_eq_zero fun nom _ => hpile nom,
      Finset.sum_eq_zero fun r _ => hpince r]
    rfl
  prefixes l hl := by
    rw [List.prefix_nil.1 hl]
    rfl

omit [Horloge τ] in
/-- A log that is prolonged keeps its prefixes in order, when all that leaves had come in before. -/
theorem prefixes_append {f : ℤ → Bool} {log ms : List Avis}
    (h : ∀ l, l <+: log → l.countP (estSortie f) ≤ l.countP (estNouveau f))
    (hms : (log ++ ms).countP (estSortie f) ≤ log.countP (estNouveau f)) :
    ∀ l, l <+: log ++ ms → l.countP (estSortie f) ≤ l.countP (estNouveau f) := by
  intro l hl
  rcases List.prefix_or_prefix_of_prefix hl (List.prefix_append log ms) with hlog | ⟨fin, rfl⟩
  · exact h l hlog
  · have hfin : fin <+: ms := (List.prefix_append_right_inj log).1 hl
    calc (log ++ fin).countP (estSortie f)
        ≤ (log ++ ms).countP (estSortie f) := hl.sublist.countP_le
      _ ≤ log.countP (estNouveau f) := hms
      _ ≤ (log ++ fin).countP (estNouveau f) := (List.sublist_append_left log fin).countP_le

omit [Horloge τ] in
theorem Suivie.sorties {f : ℤ → Bool} {trace : List (Demande τ)} {s : Chronique τ}
    (h : Suivie f trace s) : sortiesDe f (vue s.cellule) = s.log.countP (estSortie f) := by
  rw [sortiesDe, h.evacues, countP_evacuesLog]

/-- An order adds to the cell and to the evacuations at most what it adds to the log. -/
theorem Suivie.etape {f : ℤ → Bool} (hf : f 0 = false) {trace : List (Demande τ)}
    {s s' : Chronique τ} {d : Demande τ} (h : Suivie f trace s)
    (hs : Guarded Permis Chronique.etape s d s') : Suivie f (trace ++ [d]) s' := by
  obtain ⟨⟨ho, hevac⟩, hs⟩ := hs
  unfold Chronique.etape at hs
  split at hs
  · rename_i res c hex
    rw [← Option.some.inj hs]
    obtain ⟨t, ht⟩ := h.suivi
    obtain ⟨-, hvue, -⟩ := executerOrdre_vue ht.equipee ho hex
    have hevacues := evacues_avisDe (journal_executerOrdre hex)
    have hneuf := nouveaux_avisDe f (c.sim.journal.drop s.cellule.sim.journal.length)
    generalize avisDe (c.sim.journal.drop s.cellule.sim.journal.length) = ms at hevacues hneuf
    obtain ⟨hnouveaux, hrien⟩ := countP_nouveaux f d.ordre
    have hsolde : ∀ S, lieux ⊆ S →
        (∀ d' ∈ trace ++ [d], ∀ nom ∈ nomsNavettes d'.ordre, nom ∈ S) →
        soldeDe f S (vue c) ≤ s.log.countP (estNouveau f) + ajoutDe f d.ordre := by
      intro S hS hnoms
      obtain ⟨hassises, hdans⟩ := actions_entrees ht ho hS (hnoms d (by simp))
      have hpas := soldeDe_foldl hf hS hdans hassises
      rw [← hvue, gainsDe_actions f _ ho] at hpas
      have havant := h.solde S hS fun d' hd' => hnoms d' (by simp [hd'])
      omega
    have hsortant : sortiesDe f (vue c) ≤ s.log.countP (estNouveau f) + ajoutDe f d.ordre := by
      have hlieux := hsolde (lieux ∪ ((trace ++ [d]).flatMap fun d => nomsNavettes d.ordre).toFinset)
        Finset.subset_union_left fun d' hd' nom hnom =>
          Finset.mem_union_right _ (List.mem_toFinset.2 (List.mem_flatMap.2 ⟨d', hd', hnom⟩))
      rw [soldeDe] at hlieux
      omega
    have hlog : s.log.countP (estSortie f) + ms.countP (estSortie f) = sortiesDe f (vue c) := by
      rw [← h.sorties, sortiesDe, sortiesDe, hevacues, List.countP_append, countP_evacuesLog f ms]
    have hms : s.log.countP (estSortie f) + ms.countP (estSortie f) ≤ s.log.countP (estNouveau f) := by
      rw [hlog]
      cases hordre : d.ordre with
      | ajouterProduit produit poste =>
        -- the product may be logged after it is added, but nothing leaves in between
        rw [hordre] at ho hvue
        have havant := h.prefixes s.log List.prefix_rfl
        rw [sortiesDe, hvue, evacues_ajouterProduit _ ho, ← sortiesDe, h.sorties]
        exact havant
      | _ =>
        rw [hordre] at hsortant
        exact hsortant
    refine ⟨⟨_, ht.pas (x := (d.ordre, res)) ⟨ho, hevac, hex⟩⟩, ?_, ?_, ?_, ?_⟩
    · show (vue c).evacues = evacuesLog (s.log ++ messages d ms)
      rw [hevacues, h.evacues, evacuesLog_append, evacuesLog_messages]
    · show ∀ l ∈ (vue c).evacues, _
      rw [hvue]
      exact evacues_foldl _ h.entiers
    · intro S hS hnoms
      show _ ≤ (s.log ++ messages d ms).countP _
      rw [List.countP_append, countP_messages, hneuf, hnouveaux, Nat.zero_add]
      exact hsolde S hS hnoms
    · apply prefixes_append h.prefixes
      rw [List.countP_append, countP_messages, hrien]
      exact hms
  · cases hs

end Chronique

/-- What every run keeps, at its end. -/
theorem suivie_run {f : ℤ → Bool} (hf : f 0 = false) {temps : τ} {trace : List (Demande τ)}
    {s : Chronique τ} (h : Run (Guarded Chronique.Permis Chronique.etape) (.initiale temps) trace s) :
    s.Suivie f trace := by
  have hstep : ∀ trace s d s', Chronique.Suivie f trace s →
      Guarded Chronique.Permis Chronique.etape s d s' → Chronique.Suivie (τ := τ) f (trace ++ [d]) s' :=
    fun _ _ _ _ hs hpas => hs.etape hf hpas
  exact Run.invariant (Chronique.suivie_initiale hf temps) hstep h

/-- Every evacuation of the log is that of a whole stack. -/
theorem length_of_produitEvac {temps : τ} {trace : List (Demande τ)} {s : Chronique τ}
    (h : Run (Guarded Chronique.Permis Chronique.etape) (.initiale temps) trace s) {data : List ℤ}
    (hdata : .produitEvac data ∈ s.log) : data.length = nbCube := by
  have hsuivie := suivie_run (f := fun _ => false) rfl h
  refine hsuivie.entiers data ?_
  rw [hsuivie.evacues]
  exact List.mem_filterMap.2 ⟨_, hdata, rfl⟩

end Atelier
