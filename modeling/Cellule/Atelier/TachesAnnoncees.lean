import Cellule.Atelier.Historique
import Cellule.Atelier.TachesFinies

/-! # The tasks that are announced and the cubes that show them

The log hears of the tasks by the messages `TacheFinie`, and of the products by the stacks that
leave the cell. `taches_annoncees` relates the two: for each post and each product there are as many
messages as tasks that have ended in the histories, hence never fewer than the cubes of ended tasks
that are shown anywhere.
-/

namespace Atelier

open Reactive Robots Robots.Robot
open Vue (table)

variable {τ : Type}

/-- The message that a task of a post has ended on a product, given by its code. -/
def estTacheFinie (numero code : ℤ) : Message → Bool
  | .tacheFinie numPoste numProduit _ => numPoste == numero && numProduit == code
  | _ => false

/-- The cubes of the ended tasks of a post, on the stack of a product. -/
def cubesFinis (numero produit : ℤ) (p : Pile) : ℕ :=
  if p.base = 10 * produit + 4 then p.toList.count (10 * numero + 3) else 0

/-- The ended tasks of a post, on a product. -/
def Exemplaire.finies (numero produit : ℤ) (e : Exemplaire) : ℕ :=
  if e.produit = produit then e.taches.count (numero, true) else 0

/-- The ended tasks of a post on the products of one kind, wherever they are. -/
def Registre.finies (numero produit : ℤ) (g : Registre) : ℕ :=
  g.exemplaires.total (Exemplaire.finies numero produit)

/-! ## Cubes and tasks -/

theorem cube_injective : Function.Injective Exemplaire.cube := by
  rintro ⟨q, b⟩ ⟨q', b'⟩ h
  cases b <;> cases b' <;> simp only [Exemplaire.cube, Bool.false_eq_true, if_false, if_true] at h <;>
    first
      | omega
      | rw [show q = q' by omega]

theorem Exemplaire.base_pile (e : Exemplaire) : e.pile.base = 10 * e.produit + 4 := by
  rw [Pile.base, pile, Pile.cube_ofList _ (by decide), List.getD_cons_zero]

/-- A stack shows the ended tasks of its product. -/
theorem cubesFinis_pile {e : Exemplaire} (h : e.Sain) (numero produit : ℤ) :
    cubesFinis numero produit e.pile = e.finies numero produit := by
  have hnombre := h.nombre
  have hnb : nbCube = 6 := rfl
  have hlength : ((10 * e.produit + 4) :: e.taches.map Exemplaire.cube).length ≤ nbCube := by
    rw [List.length_cons, List.length_map]
    omega
  have hcubes : (e.taches.map Exemplaire.cube).count (10 * numero + 3) = e.taches.count (numero, true) :=
    List.count_map_of_injective _ _ cube_injective (numero, true)
  have hiff : 10 * e.produit + 4 = 10 * produit + 4 ↔ e.produit = produit := by omega
  -- neither the cube of the product nor an invisible one shows a task
  have hproduit : ¬10 * e.produit + 4 = 10 * numero + 3 := by omega
  have hinvisible : ¬(0 : ℤ) = 10 * numero + 3 := by omega
  rw [cubesFinis, Exemplaire.finies, Exemplaire.base_pile, Exemplaire.pile,
    Pile.toList_ofList hlength, List.count_append,
    List.count_cons, hcubes, List.count_replicate]
  simp [hiff, hproduit, hinvisible]

/-! ## One action -/

/-- The ended tasks of a post on a product that an action adds. -/
def finDe (numero code : ℤ) (v : Vue τ) : Action τ → ℕ
  | .fin r position =>
      if (table r position).2 = numero ∧ (v.pile (table r position).1).base = code then 1 else 0
  | _ => 0

/-- The same for a list of actions. -/
def finsDe (numero code : ℤ) : Vue τ → List (Action τ) → ℕ
  | _, [] => 0
  | v, a :: as => finDe numero code v a + finsDe numero code (v.apres a) as

variable {numero produit : ℤ} {g : Registre} {v : Vue τ}

theorem Exemplaire.finies_commencer (q : ℤ) (e : Exemplaire) :
    (e.commencer q).finies numero produit = e.finies numero produit + 0 := by
  rw [finies, finies, commencer, List.count_append]
  simp

/-- The last task ends. -/
theorem Exemplaire.finies_finir {q p : ℤ} {avant : List (ℤ × Bool)} :
    (finir avant.length ⟨p, avant ++ [(q, false)]⟩).finies numero produit =
      finies numero produit ⟨p, avant ++ [(q, false)]⟩ + if q = numero ∧ p = produit then 1 else 0 := by
  rw [finir, modify_last, finies, finies]
  simp only [List.count_append, List.count_singleton]
  by_cases hp : p = produit
  · by_cases hq : q = numero
    · simp [hp, hq]
    · simp [hp, hq]
  · simp [hp]

/-- The base of a stack is that of the product that the ledger has there. -/
theorem Registre.Fidele.base_place (h : g.Fidele v) {i : ℕ} {nom : String} {e : Exemplaire}
    (hitem : g.exemplaires.items[i]? = some (some (.place nom), e)) :
    (v.pile nom).base = 10 * e.produit + 4 := by
  have hplace := h.pile (.place nom)
  rw [Registre.pile, Inventory.find_eq_some_iff.2 ⟨i, hitem⟩] at hplace
  have hpile : v.pile nom = Exemplaire.pile e := hplace
  rw [hpile, Exemplaire.base_pile]

theorem finies_apres (h : g.Fidele v) {a : Action τ} (ha : ActionReguliere v a) :
    (g.apres a).finies numero produit = g.finies numero produit + finDe numero (10 * produit + 4) v a := by
  cases a with
  | debut r position temps duree =>
    rw [Registre.apres, Registre.commencer]
    split
    · rename_i i e hrank hfind
      obtain ⟨e', hitem⟩ := Inventory.rank_eq_some_iff.1 hrank
      exact Inventory.total_update hitem (Exemplaire.finies_commencer _ _)
    · rfl
  | fin r position =>
    obtain ⟨i, p, avant, hen, hitem⟩ := h.enCours r position ha.1 ha.2
    have hbase := h.base_place hitem
    have hiff : 10 * p + 4 = 10 * produit + 4 ↔ p = produit := by omega
    rw [Registre.apres, Registre.finir, hen, finDe, hbase]
    simp only [hiff]
    exact Inventory.total_update hitem Exemplaire.finies_finir
  | arret => rfl
  | prise | pose | chute | evacuation => exact Inventory.total_relocate _ _ _
  | ajout nom p =>
    refine (Inventory.total_arrive _ _ _ _).trans ?_
    congr 1
    exact ite_self 0

theorem finies_foldl (h : g.Fidele v) {as : List (Action τ)}
    (has : Admissible ActionReguliere Vue.apres v as) :
    (as.foldl Registre.apres g).finies numero produit =
      g.finies numero produit + finsDe numero (10 * produit + 4) v as := by
  induction as generalizing g v with
  | nil => rfl
  | cons a as ih =>
    rw [List.foldl_cons, ih (h.apres has.1) has.2, finies_apres h has.1, finsDe, Nat.add_assoc]

/-- A task that ends is one of a product of the ledger. -/
theorem produit_of_finsDe {code : ℤ} (h : g.Fidele v) {as : List (Action τ)}
    (has : Admissible ActionReguliere Vue.apres v as) (hpos : 0 < finsDe numero code v as) :
    (1 ≤ numero ∧ numero ≤ 8) ∧ ∃ p ∈ (as.foldl Registre.apres g).produits, code = 10 * p + 4 := by
  induction as generalizing g v with
  | nil => exact absurd hpos (Nat.lt_irrefl 0)
  | cons a as ih =>
    rw [finsDe] at hpos
    by_cases hfin : 0 < finDe numero code v a
    · cases a with
      | fin r position =>
        rw [finDe] at hfin
        split_ifs at hfin with hici
        · obtain ⟨i, p, avant, -, hitem⟩ := h.enCours r position has.1.1 has.1.2
          refine ⟨hici.1 ▸ numero_table r has.1.1, p, ?_, hici.2 ▸ h.base_place hitem⟩
          rw [produits_foldl, List.mem_append]
          exact .inl (List.mem_map.2 ⟨_, List.mem_of_getElem? hitem, rfl⟩)
        · exact absurd hfin (Nat.lt_irrefl 0)
      | _ => exact absurd hfin (Nat.lt_irrefl 0)
    · exact ih (h.apres has.1) has.2 (by omega)

/-! ## One order -/

theorem finsDe_append {code : ℤ} (v : Vue τ) (as bs : List (Action τ)) :
    finsDe numero code v (as ++ bs) =
      finsDe numero code v as + finsDe numero code (as.foldl Vue.apres v) bs := by
  induction as generalizing v with
  | nil => exact (Nat.zero_add _).symm
  | cons a as ih => rw [List.cons_append, finsDe, ih, finsDe, List.foldl_cons, Nat.add_assoc]

theorem finsDe_passives {code : ℤ} {as : List (Action τ)} (has : ∀ a ∈ as, ActionPassive a) (v : Vue τ) :
    finsDe numero code v as = 0 := by
  induction as generalizing v with
  | nil => rfl
  | cons a as ih =>
    obtain ⟨ha, has⟩ := List.forall_mem_cons.1 has
    rw [finsDe, ih has]
    cases a with
    | fin => exact ha.elim
    | debut | arret | prise | pose | chute | ajout | evacuation => rfl

variable [Horloge τ]

/-- A task that ends is announced with its post and its product. -/
theorem finsDe_fin {code : ℤ} {debut : Fin 4 → ℤ → Option ℕ} (hv : TachesVisibles v debut) {r : Fin 4}
    {position : ℤ} (hpos : position = 1 ∨ position = 4) (temps : τ) :
    finsDe numero code v (if (v.poste r position).finTache temps then [.fin r position] else []) =
      (finAnnoncee r position temps v).countP (estTacheFinie numero code) := by
  rw [finAnnoncee]
  split_ifs with hfin
  · obtain ⟨k, -, h1, h6, hhauteur, -⟩ := hv r position hpos (Poste.taskEnCours_of_finTache hfin)
    have hbase : ((v.apres (.fin r position)).pile (table r position).1).base =
        (v.pile (table r position).1).base := by
      have hpile : (v.apres (.fin r position)).pile (table r position).1 =
          (v.pile (table r position).1).avecCube ((v.pile (table r position).1).hauteur - 1)
            ((table r position).2 * 10 + 3) := by
        simp [Vue.apres, Vue.setPoste, Vue.peindre]
      rw [hpile, Pile.base_avecCube _ (by omega) (by omega)]
    rw [hbase, List.countP_singleton]
    simp [finsDe, finDe, estTacheFinie]
  · rfl

/-- The tasks that an order ends are those that it announces. -/
theorem finsDe_actions {code : ℤ} {trace : Trace τ} {c : Cellule τ} {o : Ordre τ} (hs : Suivi trace c)
    (ho : o.Valide) (hg : DuCatalogue c o) :
    finsDe numero code (vue c) (actions o (vue c)) =
      (annonces o (vue c)).countP (estTacheFinie numero code) := by
  have hautre (hdebut : ∀ r msg t, o ≠ .faireTache r msg t) (hfin : ∀ r t, o ≠ .update r t) :
      finsDe numero code (vue c) (actions o (vue c)) =
        (annonces o (vue c)).countP (estTacheFinie numero code) := by
    rw [finsDe_passives (passives_actions ho hg hdebut hfin _)]
    refine (List.countP_eq_zero.2 fun m hm hfinie => ?_).symm
    cases m with
    | tacheFinie n p d =>
      obtain ⟨r, position, t, -, ho, -⟩ := tacheFinie_mem_annonces hm
      exact hfin r t ho
    | _ => cases hfinie
  cases o with
  | faireTache r msg t =>
    rw [actions]
    split_ifs <;> rfl
  | update r t =>
    rw [actions, annonces, finsDe_append, List.countP_append, finsDe_fin hs.visibles (.inl rfl)]
    congr 1
    -- the second half of the tick finds its post and its stack as they were
    set v₁ := (if ((vue c).poste r 1).finTache t then [Action.fin r 1] else []).foldl Vue.apres
      (vue c) with hv₁
    have hposte : v₁.poste r 4 = (vue c).poste r 4 := by
      rw [hv₁, poste_fin_si (vue c) (.inr rfl) (.inl rfl), if_neg fun h => absurd h.1.2 (by decide)]
    have hne : (table r 4).1 ≠ (table r 1).1 := fun h =>
      absurd (table_injective (.inr rfl) (.inl rfl) h).2 (by decide)
    have hpile : v₁.pile (table r 4).1 = (vue c).pile (table r 4).1 := by
      rw [hv₁]
      split_ifs
      · simp [Vue.apres, Vue.setPoste, Vue.peindre, hne]
      · rfl
    have hvisibles : TachesVisibles v₁ (dernierDebut trace) := by
      refine hs.visibles.foldl ?_
      split_ifs
      · exact ⟨.inl rfl, trivial⟩
      · trivial
    rw [← hposte, finsDe_fin hvisibles (.inr rfl), finAnnoncee_congr hposte hpile]
  | evacuer | ajouterProduit | stopTache | deplacerPiece =>
    exact hautre (fun _ _ _ h => by cases h) fun _ _ h => by cases h

/-- What an order adds to the messages. -/
theorem countP_tacheFinie {code : ℤ} {o : Ordre τ} {c c' : Cellule τ} {res : Resultat} (hc : Equipee c)
    (ho : o.Valide) (h : Cellule.executerOrdre o c = .ok (res, c')) :
    c'.sim.journal.countP (estTacheFinie numero code) =
      c.sim.journal.countP (estTacheFinie numero code) +
        (annonces o (vue c)).countP (estTacheFinie numero code) := by
  have hannonce : ∀ m : Message, (estTacheFinie numero code m && estAnnonce m) =
      estTacheFinie numero code m := by
    intro m
    cases m with
    | tacheFinie => exact Bool.and_true _
    | _ => rfl
  have hfilter : ∀ journal : List Message, (journal.filter estAnnonce).countP (estTacheFinie numero code) =
      journal.countP (estTacheFinie numero code) := by
    intro journal
    rw [List.countP_filter]
    exact List.countP_congr fun m _ => by rw [hannonce]
  rw [← hfilter, annonces_executerOrdre hc ho h, List.countP_append, hfilter]

/-! ## Runs -/

/-- The messages and the histories count the same tasks. -/
theorem finies_registre {temps₀ : τ} {recit : List (Etape τ)} {c : Cellule τ}
    (h : Run (Recorded (Pas DuCatalogue)) (Cellule.initiale (fun _ => Pile.vide) temps₀) recit c)
    (numero produit : ℤ) :
    SuiviHistoriques recit c ∧ c.sim.journal.countP (estTacheFinie numero (10 * produit + 4)) =
      (registre recit).finies numero produit := by
  have hstep : ∀ recit c e c', (SuiviHistoriques recit c ∧
        c.sim.journal.countP (estTacheFinie numero (10 * produit + 4)) =
          (registre recit).finies numero produit) → Recorded (Pas (τ := τ) DuCatalogue) c e c' →
      SuiviHistoriques (recit ++ [e]) c' ∧
        c'.sim.journal.countP (estTacheFinie numero (10 * produit + 4)) =
          (registre (recit ++ [e])).finies numero produit := by
    rintro recit c e c' ⟨hs, hcompte⟩ hp
    refine ⟨hs.pas hp, ?_⟩
    obtain ⟨rfl, rfl, ho, hg, hex⟩ := hp
    have hregistre : registre (recit ++ [e]) = (registre recit).etape e := by
      rw [registre, List.foldl_append]
      rfl
    rw [countP_tacheFinie hs.suivi.equipee ho hex, hcompte, ← finsDe_actions hs.suivi ho hg, hregistre,
      Registre.etape, finies_foldl hs.fidele (actions_regulieres hs.suivi ho hg)]
  exact h.invariant ⟨suiviHistoriques_initiale temps₀, rfl⟩ hstep

/-- Every message is about a post and a product that was added. -/
theorem produit_annonce {temps₀ : τ} {recit : List (Etape τ)} {c : Cellule τ}
    (h : Run (Recorded (Pas DuCatalogue)) (Cellule.initiale (fun _ => Pile.vide) temps₀) recit c)
    {numero code : ℤ} (hpos : 0 < c.sim.journal.countP (estTacheFinie numero code)) :
    (1 ≤ numero ∧ numero ≤ 8) ∧ ∃ p ∈ (registre recit).produits, code = 10 * p + 4 := by
  have hstep : ∀ recit c e c', (SuiviHistoriques recit c ∧
        (0 < c.sim.journal.countP (estTacheFinie numero code) →
          (1 ≤ numero ∧ numero ≤ 8) ∧ ∃ p ∈ (registre recit).produits, code = 10 * p + 4)) →
      Recorded (Pas (τ := τ) DuCatalogue) c e c' → SuiviHistoriques (recit ++ [e]) c' ∧
        (0 < c'.sim.journal.countP (estTacheFinie numero code) →
          (1 ≤ numero ∧ numero ≤ 8) ∧ ∃ p ∈ (registre (recit ++ [e])).produits, code = 10 * p + 4) := by
    rintro recit c e c' ⟨hs, havant⟩ hp
    refine ⟨hs.pas hp, fun hpos => ?_⟩
    obtain ⟨rfl, rfl, ho, hg, hex⟩ := hp
    have hregistre : registre (recit ++ [e]) = (registre recit).etape e := by
      rw [registre, List.foldl_append]
      rfl
    rw [countP_tacheFinie hs.suivi.equipee ho hex, ← finsDe_actions hs.suivi ho hg] at hpos
    rw [hregistre, Registre.etape]
    by_cases hneuf : 0 < finsDe numero code (vue e.before) (actions e.label.1 (vue e.before))
    · exact produit_of_finsDe hs.fidele (actions_regulieres hs.suivi ho hg) hneuf
    · obtain ⟨hnumero, p, hp, hcode⟩ := havant (by omega)
      refine ⟨hnumero, p, ?_, hcode⟩
      rw [produits_foldl, List.mem_append]
      exact .inl hp
  exact (h.invariant ⟨suiviHistoriques_initiale temps₀, fun h => absurd h (Nat.lt_irrefl 0)⟩ hstep).2 hpos

/-- **The announced tasks are the ended ones.** Along every run that begins empty, the log has heard
of as many tasks of a post on a product as have ended in the histories of these products, and the
places of the cell, its grippers and its evacuations never show more cubes of them. -/
theorem taches_annoncees {temps₀ : τ} {recit : List (Etape τ)} {c : Cellule τ}
    (h : Run (Recorded (Pas DuCatalogue)) (Cellule.initiale (fun _ => Pile.vide) temps₀) recit c)
    (numero produit : ℤ) :
    c.sim.journal.countP (estTacheFinie numero (10 * produit + 4)) =
        (registre recit).finies numero produit ∧
      ∀ lieux : Finset Lieu, ∑ l ∈ lieux, cubesFinis numero produit ((vue c).en l) ≤
        c.sim.journal.countP (estTacheFinie numero (10 * produit + 4)) := by
  obtain ⟨hsuivi, hcompte⟩ := finies_registre h numero produit
  refine ⟨hcompte, fun lieux => ?_⟩
  have hlieu : ∀ l, cubesFinis numero produit ((vue c).en l) =
      ((registre recit).exemplaires.find l).elim 0 (Exemplaire.finies numero produit) := by
    intro l
    rw [hsuivi.fidele.pile, Registre.pile]
    cases hfind : (registre recit).exemplaires.find l with
    | none =>
      have hvide : Pile.vide.base ≠ 10 * produit + 4 := by
        have hbase : Pile.vide.base = 0 := rfl
        omega
      exact if_neg hvide
    | some e =>
      obtain ⟨i, hi⟩ := Inventory.find_eq_some_iff.1 hfind
      exact cubesFinis_pile (hsuivi.fidele.sains _ (List.mem_of_getElem? hi)) numero produit
  rw [hcompte, Finset.sum_congr rfl fun l _ => hlieu l]
  exact Inventory.sum_find_le _ _ lieux

/-- The task of the product that was evacuated. -/
theorem taches_annoncees_evacuation : ∃ recit c, Run (Recorded (Pas DuCatalogue)) celluleVide recit c ∧
    evacuesDe c.sim.journal = [[24, 33, 0, 0, 0, 0]] ∧
    ∑ l ∈ {Lieu.sortie 0}, cubesFinis 3 2 ((vue c).en l) ≤
      c.sim.journal.countP (estTacheFinie 3 (10 * 2 + 4)) := by
  obtain ⟨recit, c, hrun, hevacues⟩ := run_evacuation
  exact ⟨recit, c, hrun, hevacues, (taches_annoncees hrun 3 2).2 _⟩

end Atelier
