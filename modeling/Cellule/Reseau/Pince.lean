import Cellule.Reseau.Dialogue
import Cellule.Robots.Calme

/-! # The gripper and its flag

A robot acknowledges a gripper order unless its last acknowledgement, of any order, was the same
code. What the flag of the command node will be is read on the acknowledgements to come: those that
are on their way, those of the suspended routines, innermost first, and those of the orders in the
queue.
-/

namespace Robots

open Reactive Reactive.Prog Reactive.Pact

/-- The acknowledgement of a gripper order: `6` when it is closed, `7` when it is open. -/
def EstPince (data : ℤ) : Prop := data = 6 ∨ data = 7

instance (data : ℤ) : Decidable (EstPince data) := inferInstanceAs (Decidable (_ ∨ _))

/-- The acknowledgement of a gripper order of the robot `r`. -/
def Message.pince (r : ℤ) : Message → Option ℤ
  | .retourCommande n data => if n = r ∧ EstPince data then some data else none
  | _ => none

/-- The acknowledgement that a gripper order to the robot `r` is to have. -/
def Ordre.pince (r : ℤ) : Ordre → Option ℤ
  | .fermerPince msg => if r = msg.numRobot then some 6 else none
  | .ouvrirPince msg => if r = msg.numRobot then some 7 else none
  | _ => none

/-- The acknowledgement that the order of a routine is to have. -/
def Routine.pince (r : ℤ) : Routine → Option ℤ
  | .ordre o => o.pince r
  | .update => none

/-- The orders other than `ControlerRobot` and `DeplacerPiece`, which are several orders in one. -/
def Ordre.Simple : Ordre → Prop
  | .controlerRobot _ => False
  | .deplacerPiece _ => False
  | _ => True

/-- The routines of simple orders, and `update`. -/
def Routine.Simple : Routine → Prop
  | .ordre o => o.Simple
  | .update => True

/-- The gripper acknowledgements among messages. -/
def pincesDe (r : ℤ) (ms : List Message) : List ℤ := ms.filterMap (Message.pince r)

theorem pincesDe_append (r : ℤ) (ms ms' : List Message) :
    pincesDe r (ms ++ ms') = pincesDe r ms ++ pincesDe r ms' := List.filterMap_append

theorem pincesDe_eq_nil {r : ℤ} {ms : List Message} (h : ∀ m ∈ ms, m.pince r = none) :
    pincesDe r ms = [] := List.filterMap_eq_nil_iff.2 h

namespace Robot

variable {τ : Type} {r : ℤ} {s : Robot τ}

/-- The gripper acknowledgements that a routine is to send when it begins. -/
def pincesAttendues (r : ℤ) (s : Robot τ) (p : Routine) : List ℤ :=
  (p.pince r).toList.filter fun code => s.retour ≠ code

/-- A routine sends its gripper acknowledgement at its end, and it waits only if it is to send
it. -/
def Acquitte (r : ℤ) (s : Robot τ) (p : Routine) (code : Code τ Unit) : Prop :=
  (memeNumero τ).Ends code s
    (fun ms => pincesAttendues r s p = (p.pince r).toList ∧ pincesDe r ms = [])
    fun _ _ ms => pincesDe r ms = pincesAttendues r s p

/-- A routine that is not about the gripper. -/
theorem acquitte_calme {p : Routine} {code : Code τ Unit} (hp : p.pince r = none)
    (h : (memeNumero τ).Calm (fun m : Message => m.pince r = none) code) : Acquitte r s p code := by
  have hattendues : pincesAttendues r s p = [] := by
    unfold pincesAttendues
    rw [hp]
    rfl
  unfold Acquitte
  rw [hattendues, hp]
  refine (Calm.ends (J := fun _ => True) h (fun _ _ _ _ => trivial) (fun _ _ _ _ => trivial)
    trivial).mono (fun ms hms => ⟨rfl, pincesDe_eq_nil hms⟩) ?_
  exact fun _ _ ms hms => pincesDe_eq_nil hms.2

/-- The gripper acknowledges when its last acknowledgement was another one. -/
theorem ends_bougerPince [Horloge τ] {cmd code : ℤ} (hcode : EstPince code) (hs : s.numRobot = r) :
    (memeNumero τ).Ends (bougerPince cmd code) s
      (fun ms => s.retour ≠ code ∧ pincesDe r ms = [])
      fun _ _ ms => pincesDe r ms = if s.retour ≠ code then [code] else [] := by
  unfold bougerPince attendrePince
  simp only [ends_bind, ends_get, ends_publish]
  by_cases h : s.retour ≠ code
  · rw [if_pos h, if_pos h]
    simp only [ends_bind, ends_redemander]
    refine ⟨⟨h, rfl⟩, fun t0 s₁ hs₁ => ⟨⟨h, rfl⟩, fun s₂ hs₂ => ends_retourner guar_memeBras ?_⟩⟩
    have hnum : s₂.numRobot = r := by
      rw [show s₂.numRobot = s₁.numRobot from hs₂, show s₁.numRobot = s.numRobot from hs₁, hs]
    have hpince : (Message.retourCommande s₂.numRobot code).pince r = some code :=
      if_pos ⟨hnum, hcode⟩
    show List.filterMap (Message.pince r)
      [.cmdPince _ _, .retourCommande s₂.numRobot code, .robotPince _ _] = [code]
    rw [List.filterMap_cons_none rfl, List.filterMap_cons_some hpince, List.filterMap_cons_none rfl]
    rfl
  · rw [if_neg h, if_neg h, ends_pure]
    rfl

theorem pince_autre {m : Message} (h : m.EstAutre) : m.pince r = none := by
  cases m with
  | retourCommande n data => cases h
  | _ => rfl

theorem pince_retour {n data : ℤ} (h : ¬ EstPince data) :
    (Message.retourCommande n data).pince r = none := if_neg fun hdata => h hdata.2

theorem pince_tache (n position : ℤ) :
    (Message.retourCommande n (codeRetour position)).pince r = none := by
  apply pince_retour
  unfold codeRetour EstPince
  split_ifs <;> decide

/-- An arm movement, given by what it does to the attributes, its acknowledgement and its
message. -/
theorem calm_mouvement {f : Robot τ → Robot τ} {data : ℤ} {m : Robot τ → Message}
    (hf : ∀ s, (f s).numRobot = s.numRobot) (hdata : ¬ EstPince data) (hm : ∀ s, (m s).pince r = none) :
    (memeNumero τ).Calm (fun m : Message => m.pince r = none) (do
      modify f
      rejoindre
      retourner data
      let s ← get
      publish (m s) : Code τ Unit) := by
  refine Calm.bind (calm_modify hf) fun _ => calm_rejoindre.bind fun _ => ?_
  refine (calm_retourner guar_memeBras fun n => pince_retour hdata).bind fun _ => ?_
  exact calm_get.bind fun s => calm_publish (hm s)

theorem acquitte_pince [Horloge τ] {p : Routine} {cmd code n : ℤ} (hcode : EstPince code)
    (hs : s.numRobot = r) (hp : p.pince r = if r = n then some code else none) :
    Acquitte r s p (siConcerne n (bougerPince cmd code)) := by
  unfold Acquitte siConcerne pincesAttendues
  rw [ends_bind, ends_get, hs, hp]
  by_cases hn : r = n
  · rw [if_pos hn, if_pos hn]
    refine (ends_bougerPince hcode hs).mono (fun ms hms => ⟨?_, hms.2⟩) fun _ _ ms hms => ?_
    · exact List.filter_eq_self.2 fun c hc => by simpa using Option.mem_some.1 (by simpa using hc) ▸ hms.1
    · show pincesDe r ms = _
      rw [hms, Option.toList_some, List.filter_cons, List.filter_nil]
      simp
  · rw [if_neg hn, if_neg hn, ends_pure]
    rfl

/-- What the simple routines acknowledge. -/
theorem acquitte_code [Horloge τ] {p : Routine} (hp : p.Simple) (hs : s.numRobot = r) :
    Acquitte r s p p.code := by
  cases p with
  | update =>
    exact acquitte_calme rfl (Calm.bind (calm_update guar_memeBras (fun _ => pince_autre) pince_tache)
      fun _ => trivial)
  | ordre o =>
    cases o with
    | sendPosition msg =>
      exact acquitte_calme rfl (calm_siConcerne (calm_mouvement (fun _ => rfl) (by decide) fun _ => rfl))
    | fermerPince msg => exact acquitte_pince (.inl rfl) hs rfl
    | ouvrirPince msg => exact acquitte_pince (.inr rfl) hs rfl
    | descendreBras msg =>
      exact acquitte_calme rfl (calm_siConcerne (calm_mouvement (fun _ => rfl) (by decide) fun _ => rfl))
    | monterBras msg =>
      exact acquitte_calme rfl (calm_siConcerne (calm_mouvement (fun _ => rfl) (by decide) fun _ => rfl))
    | faireTache msg =>
      exact acquitte_calme rfl (Calm.bind
        (calm_faireTacheCallback guar_memeBras (fun _ => pince_autre) pince_tache msg) fun _ => trivial)
    | controlerRobot msg => cases hp
    | deplacerPiece msg => cases hp

end Robot

end Robots

namespace Commande

open Robots Robots.Robot

/-- The flag that a gripper acknowledgement sets: `FERMEE` or `OUVERTE`. -/
def valeurPince (code : ℤ) : ℤ := if code = 6 then 1 else -1

/-- The acknowledgement that a call for the gripper of the robot `r` is to have. -/
def Appel.pince (r : ℤ) : Appel → Option ℤ
  | .fermerPince numRobot => if r = numRobot then some 6 else none
  | .ouvrirPince numRobot => if r = numRobot then some 7 else none
  | _ => none

/-- The calls whose orders are simple. -/
def Appel.Simple : Appel → Prop
  | .controlerRobot .. => False
  | .deplacerPiece .. => False
  | _ => True

namespace RobotsInterface

variable {c : RobotsInterface} {r : ℤ}

/-- The acknowledgements that are not about the gripper leave its flag. -/
theorem robotPince_autre {c : RobotsInterface} {numRobot data : ℤ} (h : ¬ EstPince data) :
    (c.retourRobotCallback numRobot data).robotPince = c.robotPince := by
  obtain ⟨h6, h7⟩ := not_or.1 h
  unfold retourRobotCallback
  rw [if_neg h6, if_neg h7]
  simp only [apply_ite RobotsInterface.robotPince, setTask, setMacroDeplacement, ite_self]

/-- What an acknowledgement does to the flag of the gripper. -/
theorem robotPince_retourRobotCallback (c : RobotsInterface) (r numRobot data : ℤ) :
    (c.retourRobotCallback numRobot data).robotPince r =
      ((Message.retourCommande numRobot data).pince r).elim (c.robotPince r) valeurPince := by
  by_cases hdata : EstPince data
  · have hflag : (c.retourRobotCallback numRobot data).robotPince =
        Function.update c.robotPince numRobot (valeurPince data) := by
      rcases hdata with rfl | rfl <;> rfl
    rw [hflag]
    by_cases hn : numRobot = r
    · rw [show (Message.retourCommande numRobot data).pince r = some data from if_pos ⟨hn, hdata⟩, hn]
      exact Function.update_self ..
    · rw [show (Message.retourCommande numRobot data).pince r = none from if_neg fun h => hn h.1]
      exact Function.update_of_ne (Ne.symm hn) ..
  · rw [robotPince_autre hdata, pince_retour hdata]
    rfl

/-- A call publishes the gripper order that it is for, and other calls leave the flag. -/
theorem executer_pince {a : Appel} (ha : a.Simple) (hr : c.Existe r) :
    (a.executer c).2.filterMap (Ordre.pince r) = (a.pince r).toList ∧
      (∀ o ∈ (a.executer c).2, o.Simple) ∧ (a.executer c).1.nbRobot = c.nbRobot ∧
      (a.pince r = none → (a.executer c).1.robotPince r = c.robotPince r) := by
  cases a with
  | envoyerPosition numRobot numPosition =>
    simp only [Appel.executer, envoyerPosition]
    split_ifs <;> simp [Ordre.pince, Appel.pince, Ordre.Simple]
  | descendreBras numRobot =>
    simp only [Appel.executer, descendreBras]
    split_ifs <;> simp [Ordre.pince, Appel.pince, Ordre.Simple]
  | monterBras numRobot =>
    simp only [Appel.executer, monterBras]
    split_ifs <;> simp [Ordre.pince, Appel.pince, Ordre.Simple]
  | fermerPince numRobot =>
    simp only [Appel.executer, fermerPince]
    by_cases hn : r = numRobot
    · subst hn
      simp [hr, Ordre.pince, Appel.pince, Ordre.Simple]
    · split_ifs <;> simp [Ordre.pince, Appel.pince, Ordre.Simple, hn]
  | ouvrirPince numRobot =>
    simp only [Appel.executer, ouvrirPince]
    by_cases hn : r = numRobot
    · subst hn
      simp [hr, Ordre.pince, Appel.pince, Ordre.Simple]
    · split_ifs <;> simp [Ordre.pince, Appel.pince, Ordre.Simple, hn]
  | faireTache numPoste duree =>
    simp only [Appel.executer, faireTache]
    split_ifs
    · split <;> simp [Ordre.pince, Appel.pince, Ordre.Simple, ordreDe, setTask]
    · simp [Appel.pince]
  | controlerRobot numRobot numPosition bras pince => cases ha
  | deplacerPiece numRobot a b => cases ha

end RobotsInterface

end Commande

namespace Reseau

open Reactive Robots Robots.Robot Commande

namespace Dialogue

variable {τ : Type} [Horloge τ] {r : ℤ} {s s' : Dialogue τ}

/-- The gripper acknowledgements of the suspended routines, innermost first. -/
def pincesSuspendues (r : ℤ) (s : Dialogue τ) : List ℤ := s.robot.names.filterMap (Routine.pince r)

/-- The gripper acknowledgements that orders are to have. -/
def pincesOrdonnees (r : ℤ) (os : List Ordre) : List ℤ := os.filterMap (Ordre.pince r)

/-- The gripper acknowledgements to come, in order, if every order is to have its own. -/
def pincesAVenir (r : ℤ) (s : Dialogue τ) : List ℤ :=
  pincesDe r s.enRoute ++ s.pincesSuspendues r ++ pincesOrdonnees r s.ordres

omit [Horloge τ] in
/-- The gripper order of a call for the robot `r`. -/
def pinceAppelee (r : ℤ) : EvenementDialogue τ → Option ℤ
  | .appeler a => a.pince r
  | _ => none

/-- The gripper order of the last such call. -/
def dernierePince (r : ℤ) (trace : List (EvenementDialogue τ)) : Option ℤ :=
  (trace.filterMap (pinceAppelee r)).getLast?

theorem pincesOrdonnees_cons (r : ℤ) (o : Ordre) (os : List Ordre) :
    pincesOrdonnees r (o :: os) = (o.pince r).toList ++ pincesOrdonnees r os := by
  unfold pincesOrdonnees
  rw [List.filterMap_cons]
  cases o.pince r <;> rfl

/-- The commands are positions, arm, gripper and tasks. -/
def EstSimple (e : EvenementDialogue τ) : Prop := e.SiAppel Appel.Simple

/-- A gripper order with the acknowledgement `code` is taken up before the orders `reste`. Another
gripper order follows it, or the last acknowledgement to come is `code`: the one of the outermost
routine that is suspended on the gripper; or, when there is none, the one that this order is given,
or the last one on its way. -/
def Acquittee (s : Dialogue τ) (code : ℤ) (reste : List Ordre) : Prop :=
  pincesOrdonnees s.numRobot reste ≠ [] ∨
    match (s.pincesSuspendues s.numRobot).getLast? with
    | some code' => code' = code
    | none =>
        s.robot.node.attributes.retour ≠ code ∨
          (pincesDe s.numRobot s.enRoute).getLast? = some code

/-- No gripper order that is taken up goes without its acknowledgement or before another one's. -/
def PinceAcquittee (s : Dialogue τ) (e : EvenementDialogue τ) : Prop :=
  s.SiTraite e fun o reste => ∀ code ∈ o.pince s.numRobot, s.Acquittee code reste

instance (a : Appel) : Decidable a.Simple := by
  unfold Appel.Simple
  split <;> infer_instance

omit [Horloge τ] in
instance (e : EvenementDialogue τ) : Decidable (EstSimple e) :=
  inferInstanceAs (Decidable (e.SiAppel _))

omit [Horloge τ] in
instance (s : Dialogue τ) (code : ℤ) (reste : List Ordre) : Decidable (s.Acquittee code reste) := by
  unfold Acquittee
  split <;> infer_instance

omit [Horloge τ] in
instance (s : Dialogue τ) (e : EvenementDialogue τ) : Decidable (s.PinceAcquittee e) :=
  inferInstanceAs (Decidable (s.SiTraite e _))

/-- What the flag is to become: the last gripper order is the last of the acknowledgements to come,
and the flag has its value when none is to come. -/
def Promesse (dernier : Option ℤ) (suite : List ℤ) (valeur : ℤ) : Prop :=
  match dernier with
  | none => suite = []
  | some code => suite.getLast? = some code ∨ suite = [] ∧ valeur = valeurPince code

/-- A gripper order is published. -/
theorem promesse_ordonner (suite : List ℤ) (valeur code : ℤ) :
    Promesse (some code) (suite ++ [code]) valeur := .inl List.getLast?_concat

/-- A gripper acknowledgement is received. -/
theorem Promesse.recevoir {dernier : Option ℤ} {suite : List ℤ} {valeur code : ℤ}
    (h : Promesse dernier (code :: suite) valeur) : Promesse dernier suite (valeurPince code) := by
  cases dernier with
  | none => cases h
  | some code' =>
    rcases h with hlast | ⟨hnil, -⟩
    · cases suite with
      | nil =>
        cases hlast
        exact .inr ⟨rfl, rfl⟩
      | cons x l => exact .inl (List.getLast?_cons_cons.symm.trans hlast)
    · cases hnil

/-- A gripper order is taken up: `enRoute` are the acknowledgements on their way, `suspendues` those
of the suspended routines, and `reste` those of the orders that follow. -/
theorem Promesse.traiter {dernier : Option ℤ} {enRoute suspendues reste : List ℤ} {valeur code : ℤ}
    {acquitte : Prop} [Decidable acquitte]
    (h : Promesse dernier (enRoute ++ suspendues ++ code :: reste) valeur)
    (hcond : reste ≠ [] ∨ match suspendues.getLast? with
      | some code' => code' = code
      | none => acquitte ∨ enRoute.getLast? = some code) :
    Promesse dernier (enRoute ++ (if acquitte then [code] else []) ++ suspendues ++ reste) valeur := by
  cases dernier with
  | none => simp [Promesse] at h
  | some dernier =>
    left
    have hlast : (enRoute ++ suspendues ++ code :: reste).getLast? = some dernier := by
      rcases h with h | ⟨h, -⟩
      · exact h
      · simp at h
    cases reste with
    | cons x l =>
      rw [List.getLast?_append_of_ne_nil _ (by simp), List.getLast?_cons_cons] at hlast
      rwa [List.getLast?_append_of_ne_nil _ (by simp)]
    | nil =>
      have hcode : code = dernier := by simpa using hlast
      rw [List.append_nil, List.getLast?_append]
      rcases hcond with hnil | hcond
      · exact absurd rfl hnil
      · rcases hsuspendues : suspendues.getLast? with _ | code'
        · rw [hsuspendues] at hcond
          rcases hcond with hacquitte | henRoute
          · simp [hacquitte, hcode]
          · split_ifs <;> simp [henRoute, hcode]
        · rw [hsuspendues] at hcond
          exact congrArg some (hcond.trans hcode)

/-! ## The invariant -/

/-- A suspended routine sends its gripper acknowledgement, if it has one, at its end. -/
def Tenue (r : ℤ) (a : Robot τ) (f : Frame (interface τ) (Robot τ)) (p : Routine) : Prop :=
  f.Ends (memeNumero τ) a (fun ms => pincesDe r ms = []) fun _ ms =>
    pincesDe r ms = (p.pince r).toList

/-- What the steps keep. -/
structure Suivi (r : ℤ) (dernier : Option ℤ) (s : Dialogue τ) : Prop where
  numero : s.numRobot = r
  existe : s.commande.Existe r
  simples : ∀ o ∈ s.ordres, o.Simple
  matched : s.robot.Matched
  routines : List.Forall₂ (Tenue r s.robot.node.attributes) s.robot.node.stack s.robot.names
  recus : s.recus ≤ s.robot.node.posted.length
  promesse : Promesse dernier (s.pincesAVenir r) (s.commande.robotPince r)

omit [Horloge τ] in
/-- The routines that are suspended stay so when the attributes move. -/
theorem tenue_move {a a' : Robot τ} (h : (memeNumero τ).rely a a')
    {fs : List (Frame (interface τ) (Robot τ))} {ps : List Routine}
    (hfs : List.Forall₂ (Tenue r a) fs ps) : List.Forall₂ (Tenue r a') fs ps :=
  hfs.imp fun _ _ hf => hf.move h

omit [Horloge τ] in
/-- The running routine, with the acknowledgements `codes` to send, goes up to its next wait. -/
theorem suivre {ρ' : NoeudRoutines τ} {n : Node (interface τ) Canal (ReponseSim τ) (Robot τ)}
    {p : Routine} {ps : List Routine} {prog : Code τ Unit} {codes : List ℤ}
    (hfollows : ρ'.Follows (liaisons τ) n p ps prog)
    (hprog : (memeNumero τ).Ends prog n.attributes
      (fun ms => codes = (p.pince r).toList ∧ pincesDe r ms = []) fun _ _ ms => pincesDe r ms = codes)
    (hps : List.Forall₂ (Tenue r n.attributes) n.stack ps) :
    ρ'.node.faulted = true ∨ ρ'.node.attributes.numRobot = n.attributes.numRobot ∧ ρ'.Matched ∧
      List.Forall₂ (Tenue r ρ'.node.attributes) ρ'.node.stack ρ'.names ∧
      ∃ ms, ρ'.node.posted = n.posted ++ ms ∧
        pincesDe r ms ++ ρ'.names.filterMap (Routine.pince r) =
          codes ++ ps.filterMap (Routine.pince r) := by
  obtain ⟨ms, hposted, hnum, houtcome⟩ := hfollows.outcome hprog
  cases houtcome with
  | failed h => exact .inl h
  | ended halive hstack hnames h =>
    refine .inr ⟨hnum, ?_, ?_, ms, hposted, ?_⟩
    · rw [Roster.Matched, hstack, hnames, hfollows.matched]
    · rw [hstack, hnames]
      exact tenue_move hnum hps
    · rw [h, hnames]
  | waits f halive hstack hnames hpause hf =>
    obtain ⟨rfl, hms⟩ := hpause
    have htenue : Tenue r ρ'.node.attributes f p := by
      refine hf.mono (fun ms' h => ?_) fun _ ms' h => ?_
      · rw [pincesDe_append, hms] at h
        exact h.2
      · rwa [pincesDe_append, hms] at h
    refine .inr ⟨hnum, ?_, ?_, ms, hposted, ?_⟩
    · rw [Roster.Matched, hstack, hnames, List.length_cons, List.length_cons, hfollows.matched]
    · rw [hstack, hnames]
      exact .cons htenue (tenue_move hnum hps)
    · rw [hms, hnames, List.filterMap_cons]
      cases p.pince r <;> rfl

/-- What is on its way when the robot publishes. -/
theorem pincesDe_drop {posted posted' ms : List Message} {n : ℕ} (hn : n ≤ posted.length)
    (h : posted' = posted ++ ms) :
    pincesDe r (posted'.drop n) = pincesDe r (posted.drop n) ++ pincesDe r ms := by
  rw [h, List.drop_append_of_le_length hn, pincesDe_append]

/-- The robot node moves: `codes` are the acknowledgements of the routine that begins, if one
does. -/
theorem suivre_robot {e : NodeEvent (interface τ) Routine (ReponseSim τ)} {ρ' : NoeudRoutines τ}
    {dernier : Option ℤ} {codes : List ℤ} (h : s.Suivi r dernier)
    (hstart : ∀ p, e = .start p →
      p.Simple ∧ codes = pincesAttendues r s.robot.node.attributes p)
    (hautre : (∀ p, e ≠ .start p) → codes = [])
    (hs : s.robot.step (liaisons τ) Routine.code e = some ρ') :
    ρ'.node.faulted = true ∨ ρ'.node.attributes.numRobot = r ∧ ρ'.Matched ∧
      List.Forall₂ (Tenue r ρ'.node.attributes) ρ'.node.stack ρ'.names ∧
      ∃ ms, ρ'.node.posted = s.robot.node.posted ++ ms ∧
        pincesDe r ms ++ ρ'.names.filterMap (Routine.pince r) =
          codes ++ s.robot.names.filterMap (Routine.pince r) := by
  cases Roster.step_moves h.matched hs with
  | delivered he hnames hstack hattributes hposted hfaulted =>
    right
    rw [Roster.Matched, hnames, hstack, hattributes, hposted, hautre he]
    exact ⟨h.numero, h.matched, h.routines, [], (List.append_nil _).symm, rfl⟩
  | started p he hfollows =>
    obtain ⟨hp, rfl⟩ := hstart p he
    rcases suivre hfollows (acquitte_code hp h.numero) h.routines with hfailed | ⟨hnum, hrest⟩
    · exact .inl hfailed
    · exact .inr ⟨hnum.trans h.numero, hrest⟩
  | resumed he f p ps v n hstack hnames hattributes hposted hfollows =>
    have hroutines := h.routines
    rw [hstack, hnames, ← hattributes] at hroutines
    obtain ⟨hf, hps⟩ := List.forall₂_cons.1 hroutines
    have hprog : (memeNumero τ).Ends (f.wait.next v s.robot.node.attributes) n.attributes
        (fun ms => (p.pince r).toList = (p.pince r).toList ∧ pincesDe r ms = [])
        fun _ _ ms => pincesDe r ms = (p.pince r).toList := by
      rw [← hattributes]
      exact (hf v n.attributes rfl).mono (fun ms hms => ⟨rfl, hms⟩) fun _ _ ms hms => hms
    rcases suivre hfollows hprog hps with hfailed | ⟨hnum, hmatched, hroutines', ms, hms, hsuite⟩
    · exact .inl hfailed
    · refine .inr ⟨?_, hmatched, hroutines', ms, hms.trans (by rw [hposted]), ?_⟩
      · rw [hnum, hattributes]
        exact h.numero
      · rw [hsuite, hnames, hautre he, List.filterMap_cons]
        cases p.pince r <;> rfl

/-- A step of the robot node, which leaves the orders `reste`. -/
theorem Suivi.robot {e : NodeEvent (interface τ) Routine (ReponseSim τ)} {ρ' : NoeudRoutines τ}
    {dernier : Option ℤ} (codes : List ℤ) {reste : List Ordre} (h : s.Suivi r dernier)
    (hreste : ∀ o ∈ reste, o ∈ s.ordres)
    (hstart : ∀ p, e = .start p →
      p.Simple ∧ codes = pincesAttendues r s.robot.node.attributes p)
    (hautre : (∀ p, e ≠ .start p) → codes = [])
    (hpromesse : Promesse dernier
      (pincesDe r s.enRoute ++ codes ++ s.pincesSuspendues r ++ pincesOrdonnees r reste)
      (s.commande.robotPince r))
    (hs : s.robot.step (liaisons τ) Routine.code e = some ρ') :
    ρ'.node.faulted = true ∨ ({ s with robot := ρ', ordres := reste } : Dialogue τ).Suivi r dernier := by
  rcases suivre_robot h hstart hautre hs with hfailed | ⟨hnum, hmatched, hroutines, ms, hms, hsuite⟩
  · exact .inl hfailed
  · right
    refine ⟨hnum, h.existe, fun o ho => h.simples o (hreste o ho), hmatched, hroutines, ?_, ?_⟩
    · show s.recus ≤ ρ'.node.posted.length
      rw [hms, List.length_append]
      exact h.recus.trans (Nat.le_add_right _ _)
    · have havenir : ({ s with robot := ρ', ordres := reste } : Dialogue τ).pincesAVenir r =
          pincesDe r s.enRoute ++ codes ++ s.pincesSuspendues r ++ pincesOrdonnees r reste := by
        show pincesDe r (ρ'.node.posted.drop s.recus) ++ ρ'.names.filterMap (Routine.pince r) ++ _ = _
        rw [pincesDe_drop h.recus hms, List.append_assoc (pincesDe r _), hsuite]
        simp only [List.append_assoc]
        rfl
      rw [havenir]
      exact hpromesse

omit [Horloge τ] in
/-- A command is called. -/
theorem Suivi.appeler {dernier : Option ℤ} {a : Appel} (h : s.Suivi r dernier) (ha : a.Simple) :
    (s.appele a).Suivi r ((a.pince r).or dernier) := by
  obtain ⟨hordres, hsimples, hnb, hflag⟩ := RobotsInterface.executer_pince ha h.existe
  refine ⟨h.numero, ?_, ?_, h.matched, h.routines, h.recus, ?_⟩
  · unfold RobotsInterface.Existe appele
    rw [hnb]
    exact h.existe
  · intro o ho
    rcases List.mem_append.1 ho with ho | ho
    · exact h.simples o ho
    · exact hsimples o ho
  · have havenir : (s.appele a).pincesAVenir r = s.pincesAVenir r ++ (a.pince r).toList := by
      rw [← hordres]
      unfold pincesAVenir pincesOrdonnees appele
      rw [List.filterMap_append, ← List.append_assoc]
      rfl
    rw [havenir]
    cases hpince : a.pince r with
    | some code => exact promesse_ordonner _ _ _
    | none =>
      show Promesse dernier _ ((a.executer s.commande).1.robotPince r)
      rw [hflag hpince, Option.toList_none, List.append_nil]
      exact h.promesse

omit [Horloge τ] in
/-- A message of the robot is received. -/
theorem Suivi.recevoir {dernier : Option ℤ} {m : Message} (h : s.Suivi r dernier)
    (hm : s.robot.node.posted[s.recus]? = some m) : (s.recevoir m).Suivi r dernier := by
  obtain ⟨hlt, -⟩ := List.getElem?_eq_some_iff.1 hm
  obtain ⟨hrobot, hordres, hrecus, hnb⟩ := recevoir_frame s m
  have hflag : (s.recevoir m).commande.robotPince r =
      (m.pince r).elim (s.commande.robotPince r) valeurPince := by
    cases m with
    | retourCommande n data => exact RobotsInterface.robotPince_retourRobotCallback _ _ _ _
    | _ => rfl
  refine ⟨?_, ?_, ?_, ?_, ?_, ?_, ?_⟩
  · rw [numRobot, hrobot]
    exact h.numero
  · unfold RobotsInterface.Existe
    rw [hnb]
    exact h.existe
  · rw [hordres]
    exact h.simples
  · rw [hrobot]
    exact h.matched
  · rw [hrobot]
    exact h.routines
  · rw [hrobot, hrecus]
    exact hlt
  · have hpromesse := h.promesse
    unfold pincesAVenir at hpromesse
    rw [enRoute_recevoir hm] at hpromesse
    unfold pincesAVenir pincesSuspendues
    rw [hrobot, hordres, hflag]
    rcases hpince : m.pince r with _ | code
    · rwa [pincesDe, List.filterMap_cons_none hpince] at hpromesse
    · rw [pincesDe, List.filterMap_cons_some hpince] at hpromesse
      exact hpromesse.recevoir

/-- An order is taken up. -/
theorem Suivi.traiter {dernier : Option ℤ} {o : Ordre} {reste : List Ordre} {ρ' : NoeudRoutines τ}
    (h : s.Suivi r dernier) (hordres : s.ordres = o :: reste)
    (hacquittee : s.PinceAcquittee .traiter)
    (hs : s.robot.step (liaisons τ) Routine.code (.start (.ordre o)) = some ρ') :
    ρ'.node.faulted = true ∨ ({ s with robot := ρ', ordres := reste } : Dialogue τ).Suivi r dernier := by
  have hnum : s.numRobot = r := h.numero
  have hpromesse := h.promesse
  unfold pincesAVenir at hpromesse
  rw [hordres, pincesOrdonnees_cons] at hpromesse
  rw [PinceAcquittee, siTraite_traiter hordres, hnum] at hacquittee
  refine Suivi.robot (pincesAttendues r s.robot.node.attributes (.ordre o)) h
    (fun o' ho' => by rw [hordres]; exact List.mem_cons_of_mem _ ho') ?_ ?_ ?_ hs
  · rintro p hp
    cases hp
    exact ⟨h.simples o (by rw [hordres]; exact List.mem_cons_self), rfl⟩
  · intro hp
    exact absurd rfl (hp (.ordre o))
  · unfold pincesAttendues Routine.pince
    dsimp only
    rcases hpince : o.pince r with _ | code
    · rw [hpince] at hpromesse
      rw [Option.toList_none, List.filter_nil, List.append_nil]
      exact hpromesse
    · rw [hpince] at hpromesse
      have hcond := hacquittee code hpince
      unfold Acquittee at hcond
      rw [hnum] at hcond
      rw [Option.toList_some, List.filter_singleton, Bool.cond_decide]
      exact hpromesse.traiter hcond

/-- One step. -/
theorem suivi_etape {dernier : Option ℤ} {e : EvenementDialogue τ} (h : s.Suivi r dernier)
    (hsimple : EstSimple e) (hacquittee : s.PinceAcquittee e) (hs : s.etape e = some s') :
    s'.robot.node.faulted = true ∨ s'.Suivi r ((pinceAppelee r e).or dernier) := by
  have hautre : (∀ a, e ≠ .appeler a) → (pinceAppelee r e).or dernier = dernier := by
    intro he
    cases e with
    | appeler a => exact absurd rfl (he a)
    | _ => rfl
  cases etape_avance hs with
  | appel a he hs =>
    rw [he] at hsimple ⊢
    rw [hs]
    exact .inr (h.appeler hsimple)
  | prise o reste ρ' he hordres hρ hs =>
    rw [he] at hacquittee
    rw [hs, hautre (by simp [he])]
    exact h.traiter hordres hacquittee hρ
  | robot e' ρ' he hstart hρ hs =>
    rw [hs, hautre he.2]
    refine Suivi.robot [] h (fun _ ho => ho) ?_ (fun _ => rfl) ?_ hρ
    · rintro p hp
      cases hstart p hp
      exact ⟨trivial, rfl⟩
    · rw [List.append_nil]
      exact h.promesse
  | message m he hm hs =>
    rw [hs, hautre (by simp [he])]
    exact .inr (h.recevoir hm)
  | retourAutre n data he hn hs =>
    rw [hs, hautre (by simp [he])]
    have hnum : n ≠ r := fun hr => hn (hr.trans h.numero.symm)
    have hflag : (s.commande.retourRobotCallback n data).robotPince r = s.commande.robotPince r := by
      rw [RobotsInterface.robotPince_retourRobotCallback,
        show (Message.retourCommande n data).pince r = none from if_neg fun hr => hnum hr.1]
      rfl
    refine .inr ⟨h.numero, ?_, h.simples, h.matched, h.routines, h.recus, ?_⟩
    · unfold RobotsInterface.Existe
      rw [RobotsInterface.nbRobot_retourRobotCallback]
      exact h.existe
    · show Promesse dernier _ ((s.commande.retourRobotCallback n data).robotPince r)
      rw [hflag]
      exact h.promesse

omit [Horloge τ] in
theorem dernierePince_snoc (trace : List (EvenementDialogue τ)) (e : EvenementDialogue τ) :
    dernierePince r (trace ++ [e]) = (pinceAppelee r e).or (dernierePince r trace) := by
  unfold dernierePince
  rw [List.filterMap_append, List.getLast?_append, List.filterMap_cons]
  cases pinceAppelee r e <;> rfl

omit [Horloge τ] in
/-- When nothing is pending, no acknowledgement is to come. -/
theorem Repos.pincesAVenir (hrepos : s.Repos) (hmatched : s.robot.Matched) :
    s.pincesAVenir r = [] := by
  have hnames : s.robot.names = [] := by
    rw [Roster.Matched, hrepos.stack] at hmatched
    exact List.length_eq_zero_iff.1 hmatched
  unfold Dialogue.pincesAVenir enRoute pincesSuspendues
  rw [hrepos.recus, List.drop_length, hnames, hrepos.ordres]
  rfl

/-- In every run whose gripper orders are acknowledged when they are taken up, the flag of the
gripper agrees with the last gripper order whenever nothing is pending. -/
theorem pince_suit_le_dernier_ordre {nbRobot : ℤ} (hr : 1 ≤ r ∧ r ≤ nbRobot)
    {trace : List (EvenementDialogue τ)}
    (h : Run (Guarded (fun s e => EstSimple e ∧ s.PinceAcquittee e) etape) (initial nbRobot r) trace s)
    (hrepos : s.Repos) {code : ℤ} (hcode : dernierePince r trace = some code) :
    s.commande.pinceEnPosition r = valeurPince code := by
  have h₀ : (initial nbRobot r : Dialogue τ).Suivi r none :=
    ⟨rfl, hr, by simp [initial], rfl, .nil, Nat.zero_le _, rfl⟩
  have hstep : ∀ (trace : List (EvenementDialogue τ)) (s : Dialogue τ) e s',
      (s.robot.node.faulted = true ∨ s.Suivi r (dernierePince r trace)) →
      Guarded (fun s e => EstSimple e ∧ s.PinceAcquittee e) etape s e s' →
      (s'.robot.node.faulted = true ∨ s'.Suivi r (dernierePince r (trace ++ [e]))) := by
    intro trace s e s' hinv hs
    rw [dernierePince_snoc]
    rcases hinv with hfailed | hsuivi
    · exact .inl (faulted_etape hfailed hs.2)
    · exact suivi_etape hsuivi hs.1.1 hs.1.2 hs.2
  rcases Run.invariant (.inr h₀) hstep h with hfailed | hsuivi
  · rw [hrepos.faulted] at hfailed
    cases hfailed
  · have hpromesse := hsuivi.promesse
    rw [hcode, hrepos.pincesAVenir hsuivi.matched] at hpromesse
    have hflag : s.commande.robotPince r = valeurPince code := by
      rcases hpromesse with hlast | ⟨-, hflag⟩
      · cases hlast
      · exact hflag
    obtain ⟨h1, hnb⟩ := hsuivi.existe
    unfold RobotsInterface.pinceEnPosition
    rw [if_neg (by omega), hflag]

/-- The events from the call of `FermerPince` to its acknowledgement. -/
def fermer : List (EvenementDialogue ℤ) :=
  [.appeler (.fermerPince 1), .traiter, .repondre (.getTime 0), .continuer, .repondre (.getTime 1),
    .continuer, .livrer, .livrer, .livrer]

/-- The events from the call of `OuvrirPince` to its acknowledgement. -/
def ouvrir : List (EvenementDialogue ℤ) :=
  [.appeler (.ouvrirPince 1), .traiter, .repondre (.getTime 1), .continuer, .repondre (.getTime 2),
    .continuer, .livrer, .livrer, .livrer]

/-- `FermerPince` then `OuvrirPince`, on a robot that has just started. -/
theorem pince_suit_le_dernier_ordre_fermer_ouvrir : ∃ s : Dialogue ℤ,
    Run (Guarded (fun s e => EstSimple e ∧ s.PinceAcquittee e) etape) (initial 4 1) (fermer ++ ouvrir)
      s ∧ s.commande.pinceEnPosition 1 = -1 := by
  obtain ⟨s, hs, hordres, hstack, hrecus, hfaulted⟩ : ∃ s,
      execute (fun s e => EstSimple e ∧ s.PinceAcquittee e) etape (initial 4 1 : Dialogue ℤ)
        (fermer ++ ouvrir) = some s ∧ s.ordres = [] ∧ s.robot.node.stack = [] ∧
        s.recus = s.robot.node.posted.length ∧ s.robot.node.faulted = false :=
    ⟨_, rfl, rfl, rfl, rfl, rfl⟩
  have hrun := run_execute .nil hs
  exact ⟨s, hrun,
    pince_suit_le_dernier_ordre ⟨by decide, by decide⟩ hrun ⟨hordres, hstack, hrecus, hfaulted⟩ rfl⟩

/-- The second `FermerPince` in a row is not acknowledged: the flag that it has cleared stays so. -/
theorem pince_fermee_deux_fois : ¬ ∀ (trace : List (EvenementDialogue ℤ)) (s : Dialogue ℤ),
    Run (Guarded (fun _ e => EstSimple e) etape) (initial 4 1) trace s → s.Repos →
      ∀ code, dernierePince 1 trace = some code →
        s.commande.pinceEnPosition 1 = valeurPince code := by
  intro h
  obtain ⟨s, hs, hordres, hstack, hrecus, hfaulted, hflag⟩ : ∃ s,
      execute (fun _ e => EstSimple e) etape (initial 4 1 : Dialogue ℤ)
        (fermer ++ [.appeler (.fermerPince 1), .traiter, .livrer, .livrer]) = some s ∧
        s.ordres = [] ∧ s.robot.node.stack = [] ∧ s.recus = s.robot.node.posted.length ∧
        s.robot.node.faulted = false ∧ s.commande.pinceEnPosition 1 = 0 :=
    ⟨_, rfl, rfl, rfl, rfl, rfl, rfl⟩
  have hfaux := h _ s (run_execute .nil hs) ⟨hordres, hstack, hrecus, hfaulted⟩ 6 rfl
  rw [hflag] at hfaux
  revert hfaux
  decide

end Dialogue

end Reseau
