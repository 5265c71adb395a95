import Cellule.Lib.Machine
import Cellule.Reseau.Noeuds
import Cellule.Robots.Jetons

/-! # `TacheFinie` is never early

The task of a post is one token: in the flag of the command node, in an order in flight, in the
robot node, or in an acknowledgement in flight.
-/

namespace Reseau.Noeuds

open Reactive Reactive.Contract Robots Robots.Robot Commande

variable {τ : Type} {q r pos : ℤ}

/-- A task is given to the post `q` only when it had none before, or its task is finished. -/
def Consigne (q : ℤ) (s : Noeuds τ) : Evenement τ → Prop
  | .faireTache poste _ => poste = q → q ∉ s.tachees ∨ s.commande.tacheFinie q = 1
  | _ => True

/-- A `StopTache` for the post at position `pos` is handled only while a task runs there. -/
def ArretUtile (pos : ℤ) (s : Noeuds τ) : Evenement τ → Prop
  | .livrerStopTache =>
      s.stopTaches.head? = some pos → (s.robot.attributes.poste pos).taskEnCours = true
  | _ => True

instance (q : ℤ) (s : Noeuds τ) (e : Evenement τ) : Decidable (Consigne q s e) := by
  unfold Consigne
  split <;> infer_instance

instance (pos : ℤ) (s : Noeuds τ) (e : Evenement τ) : Decidable (ArretUtile pos s e) := by
  unfold ArretUtile
  split <;> infer_instance

/-! ## The tokens of the network -/

/-- The orders in flight for the post. -/
def ordres (r pos : ℤ) (s : Noeuds τ) : ℕ :=
  s.faireTaches.countP fun msg => msg.numRobot = r ∧ msg.position = pos

/-- The acknowledgements in flight of the post. -/
def acquits (r pos : ℤ) (s : Noeuds τ) : ℕ := s.retours.count (r, codeRetour pos)

/-- The token of the flag. -/
def drapeau (r pos : ℤ) (s : Noeuds τ) : ℕ := if s.commande.robotTask (r, pos) = 1 then 1 else 0

/-- The post has been given a task that the command node knows. -/
def Engagee (q : ℤ) (s : Noeuds τ) : Prop := q ∈ s.tachees ∧ q ≤ s.commande.nbRobot * 2

/-- At most one token, and none before the first task. -/
structure Compte (q r pos : ℤ) (s : Noeuds τ) (ns : List ℕ) : Prop where
  kept : (jetons τ r pos).Kept s.robot ns
  posted : s.robot.posted = []
  robotTask : s.commande.robotTask (r, pos) = 0 ∨ s.commande.robotTask (r, pos) = 1
  le_one : drapeau r pos s + ordres r pos s + ((jetons τ r pos).held s.robot.attributes + ns.sum) +
    acquits r pos s ≤ 1
  le_zero : ¬ Engagee q s → drapeau r pos s + ordres r pos s +
    ((jetons τ r pos).held s.robot.attributes + ns.sum) + acquits r pos s = 0

/-- The acknowledgements published carry the tokens of the messages published. -/
theorem count_retoursDe (ms : List Message) :
    (retoursDe ms).count (r, codeRetour pos) = (ms.map (jetons τ r pos).carried).sum := by
  induction ms with
  | nil => rfl
  | cons m ms ih =>
    rw [List.map_cons, List.sum_cons, ← ih]
    cases m with
    | retourCommande n d =>
      show ((n, d) :: retoursDe ms).count _ = (if _ then 1 else 0) + _
      rw [List.count_cons, Nat.add_comm]
      congr 1
      by_cases hm : n = r ∧ d = codeRetour pos
      · rw [hm.1, hm.2]
        simp
      · rw [if_neg (by simpa using hm), if_neg (by simpa using hm)]
    | _ => exact (Nat.zero_add _).symm

/-- What the count does not see. -/
theorem Compte.congr {s s' : Noeuds τ} {ns : List ℕ} (h : Compte q r pos s ns)
    (hrobot : s'.robot = s.robot)
    (htask : s'.commande.robotTask (r, pos) = s.commande.robotTask (r, pos))
    (hordres : ordres r pos s' = ordres r pos s) (hretours : s'.retours = s.retours)
    (hengagee : Engagee q s' ↔ Engagee q s) : Compte q r pos s' ns := by
  have hdrapeau : drapeau r pos s' = drapeau r pos s := by
    unfold drapeau
    rw [htask]
  have hacquits : acquits r pos s' = acquits r pos s := by
    unfold acquits
    rw [hretours]
  exact
    { kept := hrobot ▸ h.kept
      posted := hrobot ▸ h.posted
      robotTask := htask ▸ h.robotTask
      le_one := by
        rw [hdrapeau, hordres, hacquits, hrobot]
        exact h.le_one
      le_zero := by
        rw [hdrapeau, hordres, hacquits, hrobot, hengagee]
        exact h.le_zero }

/-- A step of the robot node makes no token but those of the order it receives. -/
theorem Compte.robotFait [Horloge τ] {s s₀ s' : Noeuds τ} {ns : List ℕ} {n : ℕ}
    {e : EvenementNoeud τ} (h : Compte q r pos s ns) (hs : s₀.robotFait e = some s')
    (hrobot : s₀.robot = s.robot) (hcommande : s₀.commande = s.commande)
    (hretours : s₀.retours = s.retours) (htachees : s₀.tachees = s.tachees)
    (hordres : ordres r pos s = n + ordres r pos s₀)
    (hstart : ∀ a, e = .start a → (jetons τ r pos).Respects a.code n s.robot.attributes) :
    ∃ ns', Compte q r pos s' ns' := by
  obtain ⟨robot, hetape, rfl⟩ := Option.map_eq_some_iff.1 hs
  have hone := h.le_one
  rw [hrobot] at hetape
  obtain ⟨ns', hkept', htokens⟩ := h.kept.step (by omega) hstart (fun _ _ _ => trivial)
    (fun _ _ _ _ _ => trivial) hetape
  have htotal : (jetons τ r pos).held robot.attributes + ns'.sum +
      acquits r pos (s₀.avecRobot robot) ≤
      n + ((jetons τ r pos).held s.robot.attributes + ns.sum) + acquits r pos s := by
    unfold tokens at htokens
    rw [h.posted, ← count_retoursDe] at htokens
    unfold acquits avecRobot
    rw [List.count_append, hretours]
    rw [List.map_nil, List.sum_nil] at htokens
    omega
  have hdrapeau : drapeau r pos (s₀.avecRobot robot) = drapeau r pos s := by
    unfold drapeau avecRobot
    rw [hcommande]
  have hengagee : Engagee q (s₀.avecRobot robot) ↔ Engagee q s := by
    unfold Engagee avecRobot
    rw [htachees, hcommande]
  have hordres' : ordres r pos (s₀.avecRobot robot) = ordres r pos s₀ := rfl
  refine ⟨ns', ⟨hkept'.inv, hkept'.frames⟩, rfl, ?_, ?_, ?_⟩
  · show s₀.commande.robotTask _ = 0 ∨ s₀.commande.robotTask _ = 1
    rw [hcommande]
    exact h.robotTask
  · rw [hdrapeau, hordres']
    exact le_trans (by dsimp only [avecRobot] at *; omega) hone
  · rw [hengagee, hdrapeau, hordres']
    intro hno
    have hzero := h.le_zero hno
    dsimp only [avecRobot] at *
    omega

/-! ## The steps -/

/-- What a step of `commande_locale` leaves alone. -/
theorem Compte.localeFait {s s' : Noeuds τ} {ns : List ℕ} (h : Compte q r pos s ns)
    {e : NodeEvent (interface τ) (ℤ × ℤ) (ReponseSim τ)} (hs : s.localeFait e = some s') :
    Compte q r pos s' ns := by
  obtain ⟨locale, -, rfl⟩ := Option.map_eq_some_iff.1 hs
  exact h.congr rfl rfl rfl rfl Iff.rfl

/-- A publication that is not a task. -/
theorem Compte.publier {s s' : Noeuds τ} {ns : List ℕ} {p : Publication} (h : Compte q r pos s ns)
    (hp : ∀ msg, p ≠ .faireTache msg) (hs : s.publier p = some s') : Compte q r pos s' ns := by
  cases p with
  | faireTache msg => exact absurd rfl (hp msg)
  | srvAddProduct poste produit => exact h.localeFait hs
  | deplacerPiece msg | evacuer | addProduct =>
    cases hs
    exact h.congr rfl rfl rfl rfl Iff.rfl

/-- A call of `RobotsInterface` that starts no task. -/
theorem Compte.appeler {s s' : Noeuds τ} {ns : List ℕ} {c : RobotsInterface × List Publication}
    (h : Compte q r pos s ns) (htask : c.1.robotTask = s.commande.robotTask)
    (hnb : c.1.nbRobot = s.commande.nbRobot) (hc : ∀ p ∈ c.2, ∀ msg, p ≠ .faireTache msg)
    (hs : s.appeler c = some s') : Compte q r pos s' ns := by
  have hcommande : Compte q r pos { s with commande := c.1 } ns :=
    h.congr rfl (congrFun htask _) rfl rfl (by unfold Engagee; rw [hnb])
  unfold Noeuds.appeler at hs
  generalize ({ s with commande := c.1 } : Noeuds τ) = s₁ at hs hcommande
  generalize c.2 = ps at hs hc
  induction ps generalizing s₁ with
  | nil =>
    cases hs
    exact hcommande
  | cons p ps ih =>
    rw [List.forall_mem_cons] at hc
    rw [List.foldlM_cons] at hs
    obtain ⟨s₂, hp, hs⟩ := Option.bind_eq_some_iff.1 hs
    exact ih s₂ (hcommande.publier hc.1 hp) hs hc.2

theorem Compte.deplacerPiece {s s' : Noeuds τ} {ns : List ℕ} {numRobot a b : ℤ}
    (h : Compte q r pos s ns) (hs : s.appeler (s.commande.deplacerPiece numRobot a b) = some s') :
    Compte q r pos s' ns := by
  unfold RobotsInterface.deplacerPiece at hs
  split_ifs at hs
  · exact h.appeler rfl rfl (by simp) hs
  · exact h.appeler rfl rfl (by simp) hs
  · exact h.appeler rfl rfl (by simp) hs

theorem Compte.ajouterProduit {s s' : Noeuds τ} {ns : List ℕ} {poste produit : ℤ}
    (h : Compte q r pos s ns) (hs : s.appeler (s.commande.ajouterProduit poste produit) = some s') :
    Compte q r pos s' ns := by
  unfold RobotsInterface.ajouterProduit at hs
  split_ifs at hs
  · exact h.appeler rfl rfl (by simp) hs
  · exact h.appeler rfl rfl (by simp) hs
  · exact h.appeler rfl rfl (by simp) hs

/-- Giving a task to another post, or to a post that does not exist. -/
theorem engagee_cons {s : Noeuds τ} {poste : ℤ} (h : poste = q → ¬ q ≤ s.commande.nbRobot * 2) :
    (q ∈ poste :: s.tachees ∧ q ≤ s.commande.nbRobot * 2) ↔ Engagee q s := by
  unfold Engagee
  refine and_congr_left fun hle => ?_
  rw [List.mem_cons, or_iff_right]
  exact fun heq => h heq.symm hle

/-- A task is given to the post: the flag gives its token to the order, or the first order makes
it. -/
theorem Compte.donner {s : Noeuds τ} {ns : List ℕ} {duree : ℤ}
    (hq : computeFromNumPoste q = some (r, pos)) (h : Compte q r pos s ns)
    (hle : q ≤ s.commande.nbRobot * 2) (hconsigne : q ∉ s.tachees ∨ s.commande.tacheFinie q = 1) :
    Compte q r pos
      { s with
        commande := s.commande.setTask (r, pos) 0
        faireTaches := s.faireTaches ++ [{ numRobot := r, position := pos, duree }]
        tachees := q :: s.tachees } ns := by
  have hrange := computeFromNumPoste_range hq
  have hflag : (Function.update s.commande.robotTask (r, pos) 0) (r, pos) = 0 :=
    Function.update_self ..
  have hordres : (s.faireTaches ++ [({ numRobot := r, position := pos, duree } : FaireTacheMsg)]).countP
      (fun msg => msg.numRobot = r ∧ msg.position = pos) = ordres r pos s + 1 := by
    simp [ordres]
  refine ⟨⟨h.kept.inv, h.kept.frames⟩, h.posted, .inl hflag, ?_, fun hno => ?_⟩
  · have hone := h.le_one
    have hzero := h.le_zero
    unfold drapeau ordres acquits at *
    show (if (Function.update s.commande.robotTask (r, pos) 0) (r, pos) = 1 then 1 else 0) +
      List.countP _ (s.faireTaches ++ _) + _ + _ ≤ 1
    rw [hordres, hflag, if_neg (by decide)]
    rcases hconsigne with hnew | hfin
    · have htotal := hzero fun hengagee => hnew hengagee.1
      dsimp only
      omega
    · have htask : s.commande.robotTask (r, pos) = 1 := by
        unfold RobotsInterface.tacheFinie at hfin
        rwa [if_neg (by omega), hq] at hfin
      rw [if_pos htask] at hone
      dsimp only
      omega
  · exact absurd ⟨List.mem_cons_self, hle⟩ hno

theorem Compte.faireTache {s s' : Noeuds τ} {ns : List ℕ} {poste duree : ℤ}
    (hq : computeFromNumPoste q = some (r, pos)) (h : Compte q r pos s ns)
    (hconsigne : poste = q → q ∉ s.tachees ∨ s.commande.tacheFinie q = 1)
    (hs : ({ s with tachees := poste :: s.tachees } : Noeuds τ).appeler
      (s.commande.faireTache poste duree) = some s') : Compte q r pos s' ns := by
  have hrange := computeFromNumPoste_range hq
  unfold RobotsInterface.faireTache at hs
  split_ifs at hs with hposte
  · rcases hcompute : computeFromNumPoste poste with _ | ⟨numRobot, position⟩
    · rw [hcompute] at hs
      cases hs
      refine h.congr rfl rfl rfl rfl (engagee_cons fun heq => ?_)
      rw [heq, hq] at hcompute
      cases hcompute
    · rw [hcompute] at hs
      cases hs
      by_cases heq : poste = q
      · subst heq
        rw [hq] at hcompute
        cases hcompute
        exact h.donner hq hposte.2 (hconsigne rfl)
      · have hne : (r, pos) ≠ (numRobot, position) := by
          intro hk
          rw [← hk] at hcompute
          exact heq (computeFromNumPoste_injective hcompute hq)
        refine h.congr rfl (Function.update_of_ne hne ..) ?_ rfl (engagee_cons fun h => absurd h heq)
        have hautre : ¬ (numRobot = r ∧ position = pos) := fun hk => hne (by rw [hk.1, hk.2])
        simp [ordres, hautre]
  · cases hs
    exact h.congr rfl rfl rfl rfl (engagee_cons fun heq hle => hposte (by omega))

/-- What an acknowledgement does to the flag of the post. -/
theorem robotTask_retourRobotCallback (c : RobotsInterface) (numRobot data : ℤ) (hpos : EstPoste pos) :
    (c.retourRobotCallback numRobot data).robotTask (r, pos) =
      if (numRobot, data) = (r, codeRetour pos) then 1 else c.robotTask (r, pos) := by
  by_cases h8 : data = 8
  · subst h8
    show Function.update c.robotTask (numRobot, 1) 1 (r, pos) = _
    rw [Function.update_apply]
    rcases hpos with rfl | rfl <;> simp [codeRetour, eq_comm]
  · by_cases h9 : data = 9
    · subst h9
      show Function.update c.robotTask (numRobot, 4) 1 (r, pos) = _
      rw [Function.update_apply]
      rcases hpos with rfl | rfl <;> simp [codeRetour, eq_comm]
    · have hne : data ≠ codeRetour pos := ne_codeRetour h8 h9
      rw [if_neg fun h => hne (congrArg Prod.snd h)]
      by_cases h10 : data = 10
      · subst h10
        rfl
      · rw [(c.retourRobotCallback_frame numRobot ⟨h8, h9, h10⟩).2.2.2]

/-- An acknowledgement gives its token to the flag. -/
theorem Compte.retour {s : Noeuds τ} {ns : List ℕ} {numRobot data : ℤ} {reste : List (ℤ × ℤ)}
    (hpos : EstPoste pos) (h : Compte q r pos s ns) (hretours : s.retours = (numRobot, data) :: reste) :
    Compte q r pos
      { s with
        retours := reste
        commande := s.commande.retourRobotCallback numRobot data } ns := by
  have htask : (s.commande.retourRobotCallback numRobot data).robotTask (r, pos) = _ :=
    robotTask_retourRobotCallback s.commande numRobot data hpos
  have hnb := s.commande.nbRobot_retourRobotCallback numRobot data
  by_cases hours : (numRobot, data) = (r, codeRetour pos)
  · rw [if_pos hours] at htask
    have hacquits : acquits r pos s = reste.count (r, codeRetour pos) + 1 := by
      unfold acquits
      rw [hretours, hours, List.count_cons_self]
    have hone := h.le_one
    have hzero := h.le_zero
    rw [hacquits] at hone hzero
    refine ⟨⟨h.kept.inv, h.kept.frames⟩, h.posted, .inr htask, ?_, fun hno => ?_⟩
    · show (if _ = (1 : ℤ) then 1 else 0) + ordres r pos s + _ + reste.count _ ≤ 1
      rw [if_pos htask]
      dsimp only
      omega
    · have hno' : ¬ Engagee q s := fun he => hno ⟨he.1, hnb ▸ he.2⟩
      have htotal := hzero hno'
      omega
  · rw [if_neg hours] at htask
    have hacquits : acquits r pos s = reste.count (r, codeRetour pos) := by
      unfold acquits
      rw [hretours, List.count_cons_of_ne hours]
    have hdrapeau : drapeau r pos { s with
        retours := reste
        commande := s.commande.retourRobotCallback numRobot data } = drapeau r pos s := by
      unfold drapeau
      rw [htask]
    refine ⟨⟨h.kept.inv, h.kept.frames⟩, h.posted, htask ▸ h.robotTask, ?_, fun hno => ?_⟩
    · rw [hdrapeau]
      have hone := h.le_one
      rw [hacquits] at hone
      exact hone
    · rw [hdrapeau]
      have htotal := h.le_zero fun he => hno ⟨he.1, hnb ▸ he.2⟩
      rw [hacquits] at htotal
      exact htotal

theorem Compte.etape [Horloge τ] {s s' : Noeuds τ} {ns : List ℕ} {e : Evenement τ}
    (hq : computeFromNumPoste q = some (r, pos)) (h : Compte q r pos s ns)
    (hconsigne : Consigne q s e) (harret : ArretUtile pos s e) (hs : s.etape e = some s') :
    ∃ ns', Compte q r pos s' ns' := by
  have hpos : EstPoste pos := position_of_compute hq
  have hfits : (jetons τ r pos).Fits 0 s.robot.attributes := fits_zero h.kept.inv
  -- an activation that is not a task of the post and not a useless stop
  have hlibre : ∀ a, apport r pos a = 0 →
      (a = .stopTache pos → (s.robot.attributes.poste pos).taskEnCours = true) →
      (jetons τ r pos).Respects a.code 0 s.robot.attributes := by
    intro a ha hstop
    have hrespects := respects_activation a hpos (s := s.robot.attributes) (by rw [ha]; exact hfits) hstop
    rwa [ha] at hrespects
  cases e with
  | faireTache poste duree => exact ⟨ns, h.faireTache hq hconsigne hs⟩
  | deplacerPiece numRobot a b => exact ⟨ns, h.deplacerPiece hs⟩
  | ajouterProduit poste produit => exact ⟨ns, h.ajouterProduit hs⟩
  | console poste produit => exact ⟨ns, h.localeFait hs⟩
  | pushBack poste produit =>
    cases hs
    exact ⟨ns, h.congr rfl rfl rfl rfl Iff.rfl⟩
  | livrerFaireTache =>
    obtain ⟨msg, reste, hmsgs, hs⟩ := etape_livrerFaireTache hs
    have hordres : ordres r pos s =
        apport r pos (.faireTache msg) + ordres r pos { s with faireTaches := reste } := by
      unfold ordres apport
      rw [hmsgs, List.countP_cons, Nat.add_comm]
      simp
    refine h.robotFait hs rfl rfl rfl rfl hordres ?_
    intro a ha
    cases ha
    have hone := h.le_one
    exact respects_faireTache msg hpos ⟨h.kept.inv, by omega⟩
  | livrerDeplacerPiece =>
    obtain ⟨msg, reste, -, hs⟩ := etape_livrerDeplacerPiece hs
    refine h.robotFait (n := 0) hs rfl rfl rfl rfl (Nat.zero_add _).symm ?_
    intro a ha
    cases ha
    exact hlibre (.deplacerPiece msg) rfl fun hdata => by cases hdata
  | livrerStopTache =>
    obtain ⟨data, reste, hmsgs, hs⟩ := etape_livrerStopTache hs
    refine h.robotFait (n := 0) hs rfl rfl rfl rfl (Nat.zero_add _).symm ?_
    intro a ha
    cases ha
    refine hlibre (.stopTache data) rfl fun hdata => harret ?_
    cases hdata
    rw [hmsgs]
    rfl
  | livrerRetour =>
    obtain ⟨numRobot, data, reste, hmsgs, rfl⟩ := etape_livrerRetour hs
    exact ⟨ns, h.retour hpos hmsgs⟩
  | update =>
    rw [Noeuds.etape] at hs
    split_ifs at hs
    refine h.robotFait (n := 0) hs rfl rfl rfl rfl (Nat.zero_add _).symm ?_
    intro a ha
    cases ha
    exact hlibre .update rfl fun hdata => by cases hdata
  | repondreRobot m | continuerRobot | servirRobot m =>
    exact h.robotFait (n := 0) hs rfl rfl rfl rfl (Nat.zero_add _).symm fun _ ha => by cases ha
  | repondreLocale m | continuerLocale => exact ⟨ns, h.localeFait hs⟩

theorem compte_initial [Horloge τ] {nbRobot : ℤ} (hpos : EstPoste pos) :
    Compte q r pos (initial nbRobot r : Noeuds τ) [] := by
  have hheld : (jetons τ r pos).held (Robot.init r : Robot τ) = 0 := by
    rcases hpos with rfl | rfl <;> rfl
  have htotal : drapeau r pos (initial nbRobot r : Noeuds τ) +
      ordres r pos (initial nbRobot r : Noeuds τ) +
      ((jetons τ r pos).held (Robot.init r) + List.sum []) +
      acquits r pos (initial nbRobot r : Noeuds τ) = 0 := by
    rw [hheld]
    rfl
  exact ⟨⟨rfl, .nil⟩, rfl, .inl rfl, htotal.le.trans (Nat.zero_le _), fun _ => htotal⟩

/-- When every `StopTache` for a post is handled while a task runs there, `TacheFinie` is never
early: no task is in progress on the post and no order for it is in flight. -/
theorem tacheFinie_a_temps [Horloge τ] {nbRobot : ℤ} (hq : computeFromNumPoste q = some (r, pos))
    {trace : List (Evenement τ)} {s : Noeuds τ}
    (h : Run (Guarded (fun s e => Consigne q s e ∧ ArretUtile pos s e) etape) (initial nbRobot r)
      trace s)
    (hfin : s.commande.tacheFinie q = 1) :
    (s.robot.attributes.poste pos).taskEnCours = false ∧
      ∀ msg ∈ s.faireTaches, (msg.numRobot, msg.position) ≠ (r, pos) := by
  have hinit : ∃ ns, Compte q r pos (initial nbRobot r : Noeuds τ) ns :=
    ⟨[], compte_initial (position_of_compute hq)⟩
  have hstep : ∀ (_ : List (Evenement τ)) (s : Noeuds τ) e s', (∃ ns, Compte q r pos s ns) →
      Guarded (fun s e => Consigne q s e ∧ ArretUtile pos s e) etape s e s' →
      ∃ ns, Compte q r pos s' ns := by
    rintro _ s e s' ⟨ns, hcompte⟩ ⟨⟨hconsigne, harret⟩, hs⟩
    exact hcompte.etape hq hconsigne harret hs
  obtain ⟨ns, hcompte⟩ := Run.invariant hinit hstep h
  -- the flag has the only token, or there is none
  have hnone : ordres r pos s = 0 ∧ (jetons τ r pos).held s.robot.attributes = 0 := by
    by_cases hengagee : Engagee q s
    · have hrange := computeFromNumPoste_range hq
      have htask : s.commande.robotTask (r, pos) = 1 := by
        unfold RobotsInterface.tacheFinie at hfin
        rwa [if_neg (by have := hengagee.2; omega), hq] at hfin
      have hone := hcompte.le_one
      rw [drapeau, if_pos htask] at hone
      omega
    · have hzero := hcompte.le_zero hengagee
      omega
  constructor
  · have hheld : (if (s.robot.attributes.poste pos).taskEnCours then 1 else 0) = 0 := hnone.2
    split_ifs at hheld with htask
    exact Bool.eq_false_iff.2 htask
  · intro msg hmsg heq
    refine List.countP_eq_zero.1 hnone.1 msg hmsg ?_
    cases heq
    exact decide_eq_true ⟨rfl, rfl⟩

/-- A product is placed on post 3, a task runs on it, and another product takes its place. -/
def remplacerProduit : List (Evenement ℤ) :=
  [.ajouterProduit 3 1, .repondreLocale (.getColor 0), .continuerLocale, .repondreLocale .changeColor,
    .continuerLocale, .faireTache 3 5, .livrerFaireTache, .repondreRobot (.getTime 0), .continuerRobot,
    .repondreRobot (.getColor 14), .continuerRobot, .repondreRobot (.getColor 0), .continuerRobot,
    .repondreRobot .changeColor, .continuerRobot, .ajouterProduit 3 2, .repondreLocale (.getColor 14),
    .continuerLocale, .repondreLocale .changeColor, .continuerLocale]

/-- The `StopTache` of the second product is handled while the task runs: the task has ended when
`TacheFinie` says so. -/
theorem tacheFinie_a_temps_arretee : ∃ s s' : Noeuds ℤ,
    Run (Guarded (fun s e => Consigne 3 s e ∧ ArretUtile 1 s e) etape) (initial 4 2) remplacerProduit
      s ∧
    (s.robot.attributes.poste 1).taskEnCours = true ∧
    Run (Guarded (fun s e => Consigne 3 s e ∧ ArretUtile 1 s e) etape) (initial 4 2)
      (remplacerProduit ++ [.livrerStopTache, .livrerRetour]) s' ∧
    s'.commande.tacheFinie 3 = 1 ∧ (s'.robot.attributes.poste 1).taskEnCours = false := by
  obtain ⟨s, hs, hcours⟩ : ∃ s, execute (fun s e => Consigne 3 s e ∧ ArretUtile 1 s e) etape
      (initial 4 2 : Noeuds ℤ) remplacerProduit = some s ∧
      (s.robot.attributes.poste 1).taskEnCours = true := ⟨_, rfl, rfl⟩
  obtain ⟨s', hs', hfin⟩ : ∃ s', execute (fun s e => Consigne 3 s e ∧ ArretUtile 1 s e) etape
      (initial 4 2 : Noeuds ℤ) (remplacerProduit ++ [.livrerStopTache, .livrerRetour]) = some s' ∧
      s'.commande.tacheFinie 3 = 1 := ⟨_, rfl, rfl⟩
  have hrun := run_execute .nil hs'
  exact ⟨s, s', run_execute .nil hs, hcours, hrun, hfin, (tacheFinie_a_temps rfl hrun hfin).1⟩

/-- A product is placed twice on post 3; the `StopTache` of the second one is handled after a task
is given: the command node believes at once that the task, still in flight, is finished. -/
theorem tacheFinie_avant_la_tache : ¬ ∀ (q r pos nbRobot : ℤ) (trace : List (Evenement ℤ))
    (s : Noeuds ℤ), computeFromNumPoste q = some (r, pos) →
      Run (Guarded (Consigne q) etape) (initial nbRobot r) trace s → q ∈ s.tachees →
        s.commande.tacheFinie q = 1 → (s.robot.attributes.poste pos).taskEnCours = false ∧
          ∀ msg ∈ s.faireTaches, (msg.numRobot, msg.position) ≠ (r, pos) := by
  intro h
  obtain ⟨s, hs, htachees, hfin, henvol⟩ : ∃ s, execute (Consigne 3) etape (initial 4 2 : Noeuds ℤ)
      [.ajouterProduit 3 1, .repondreLocale (.getColor 0), .continuerLocale,
        .repondreLocale .changeColor, .continuerLocale, .ajouterProduit 3 2,
        .repondreLocale (.getColor 14), .continuerLocale, .repondreLocale .changeColor,
        .continuerLocale, .faireTache 3 5, .livrerStopTache, .livrerRetour] = some s ∧
      s.tachees = [3] ∧ s.commande.tacheFinie 3 = 1 ∧
      s.faireTaches = [{ numRobot := 2, position := 1, duree := 5 }] := ⟨_, rfl, rfl, rfl, rfl⟩
  have hmem : (3 : ℤ) ∈ s.tachees := htachees ▸ List.mem_singleton_self _
  obtain ⟨-, hloin⟩ := h 3 2 1 4 _ s rfl (run_execute .nil hs) hmem hfin
  exact hloin _ (henvol ▸ List.mem_singleton_self _) rfl

end Reseau.Noeuds
