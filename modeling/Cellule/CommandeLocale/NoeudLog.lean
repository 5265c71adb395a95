import Cellule.CommandeLocale.LogManager
import Cellule.Lib.Mailbox
import Cellule.Lib.Rely

/-! # The node of the log manager

`main` of `commande_locale/src/LogManager.cpp`: four subscriptions that keep one message each, and
two callbacks that wait for the simulator's time with one flag for both, and run the others inside.
-/

namespace CommandeLocale.LogManager

open Reactive

/-- The subscriptions whose messages are logged. -/
inductive Sujet
  | tacheFinie
  | produitEvac
  | addProduct
  | erreurLog
  deriving DecidableEq

instance : Fintype Sujet where
  elems := {.tacheFinie, .produitEvac, .addProduct, .erreurLog}
  complete k := by cases k <;> decide

/-- The messages of these subscriptions. -/
inductive Avis
  | tacheFinie (numPoste numProduit duree : ℤ)
  | produitEvac (data : List ℤ)
  | addProduct (numProduit : ℤ)
  | erreurLog (code nPoste : ℤ)
  deriving DecidableEq

/-- The subscription of a message. -/
def Avis.sujet : Avis → Sujet
  | tacheFinie .. => .tacheFinie
  | produitEvac _ => .produitEvac
  | addProduct _ => .addProduct
  | erreurLog .. => .erreurLog

/-- The callback of a message. -/
def Avis.code : Avis → Code Unit
  | tacheFinie numPoste numProduit duree => tachefinieCallback numPoste numProduit duree
  | produitEvac data => produitEvacCallback data
  | addProduct numProduit => newProductCallback numProduit
  | erreurLog code nPoste => erreurCallback code nPoste

/-- The flag `repSim_getTime` and the value that comes with it, for every request. -/
def liaisons : Wiring interface Unit ℚ where
  channel _ := ()
  source _ := ()
  read temps _ := some temps
  direct _ := false

/-- The node, the messages that its subscriptions keep, the replies that it has not handled, the
number of replies sent, and the messages published. -/
structure NoeudLog where
  noeud : Roster interface Unit ℚ Unit Avis
  files : Sujet → List Avis
  reponses : List ℚ
  repondus : ℕ
  publies : List Avis

/-- What can happen. -/
inductive EvenementLog
  /-- A message is published. -/
  | publier (a : Avis)
  /-- A message of a subscription is handled. -/
  | traiter (k : Sujet)
  /-- The simulator answers a request. -/
  | repondre (temps : ℚ)
  /-- A reply is handled. -/
  | recevoir
  /-- The innermost waiting callback sees the flag. -/
  | continuer

namespace Avis

/-- What the callback can write: an evacuation has at least four colours, and an error one of the
codes that have a line. -/
def Lisible : Avis → Prop
  | produitEvac data => 4 ≤ data.length
  | erreurLog code _ => debutErreur code ≠ none
  | _ => True

instance : DecidablePred Lisible := fun a => by
  unfold Lisible
  split <;> infer_instance

/-- A line for the message. -/
def Ligne (a : Avis) (ligne : List Char) : Prop :=
  match a with
  | tacheFinie numPoste numProduit duree => ligne = ligneTempoT numProduit numPoste duree
  | produitEvac data => ∃ temps, ligne = ligneSortie (data.take 4) temps
  | addProduct numProduit => ∃ temps, ligne = ligneNouveauProduit numProduit temps
  | erreurLog code nPoste =>
      ∃ debut, debutErreur code = some debut ∧ ligne = debut ++ entier nPoste ++ ['\n']

end Avis

/-- The node has no attributes beside the flag and the value of the time. -/
def libre : Pact Unit where
  rely _ _ := True
  guar _ _ := True
  rely_trans _ _ := trivial
  guar_refl _ := trivial
  guar_trans _ _ := trivial

/-- The callback of a message writes nothing until its wait ends, and then one line. -/
theorem code_ends {a : Avis} (ha : a.Lisible) :
    libre.Ends a.code () (fun ms => ms = []) fun _ _ ms => ∃ ligne, ms = [ligne] ∧ a.Ligne ligne := by
  cases a with
  | tacheFinie numPoste numProduit duree => exact ⟨_, rfl, rfl⟩
  | produitEvac data =>
    refine ⟨rfl, fun temps _ _ => ?_⟩
    show libre.Ends (if data.length < 4 then _ else _) _ _ _
    rw [if_neg (Nat.not_lt.2 ha)]
    exact ⟨_, rfl, temps, rfl⟩
  | addProduct numProduit => exact ⟨rfl, fun temps _ _ => ⟨_, rfl, temps, rfl⟩⟩
  | erreurLog code nPoste =>
    obtain ⟨debut, hdebut⟩ := Option.ne_none_iff_exists'.1 ha
    show libre.Ends (erreurCallback code nPoste) _ _ _
    unfold erreurCallback
    rw [hdebut]
    exact ⟨_, rfl, debut, hdebut, rfl⟩

theorem code_safe {a : Avis} (ha : a.Lisible) : a.code.Safe := by
  cases a with
  | tacheFinie numPoste numProduit duree => exact trivial
  | produitEvac data =>
    intro temps
    show Prog.Safe (if data.length < 4 then _ else _)
    rw [if_neg (Nat.not_lt.2 ha)]
    exact trivial
  | addProduct numProduit => exact fun _ => trivial
  | erreurLog code nPoste =>
    show Prog.Safe (erreurCallback code nPoste)
    unfold erreurCallback
    split <;> exact trivial

namespace NoeudLog

/-- The lines of the log. -/
abbrev log (s : NoeudLog) : List (List Char) := s.noeud.node.posted

/-- A step of the node. -/
def noeudFait (s : NoeudLog) (e : NodeEvent interface Avis ℚ) : Option NoeudLog :=
  (s.noeud.step liaisons Avis.code e).map fun noeud => { s with noeud }

/-- One step; the subscriptions keep one message, and the one of the replies a hundred. -/
def etape (s : NoeudLog) : EvenementLog → Option NoeudLog
  | .publier a =>
      some { s with
        files := Function.update s.files a.sujet (Mailbox.push 1 (s.files a.sujet) a)
        publies := s.publies ++ [a] }
  | .traiter k =>
      match s.files k with
      | [] => none
      | a :: reste => { s with files := Function.update s.files k reste }.noeudFait (.start a)
  | .repondre temps =>
      if s.repondus < s.noeud.node.sent () then
        some { s with
          reponses := Mailbox.push 100 s.reponses temps
          repondus := s.repondus + 1 }
      else none
  | .recevoir =>
      match s.reponses with
      | [] => none
      | temps :: reponses => { s with reponses }.noeudFait (.receive temps)
  | .continuer => s.noeudFait .resume

/-- The node at the start of its loop. -/
def initial : NoeudLog where
  noeud := { node := Node.idle (), names := [] }
  files _ := []
  reponses := []
  repondus := 0
  publies := []

/-- Every message and every reply is delivered, and no callback that waits can go on. -/
structure Repos (s : NoeudLog) : Prop where
  files : ∀ k, s.files k = []
  reponses : s.reponses = []
  repondus : s.repondus = s.noeud.node.sent ()
  arret : s.noeud.node.stack ≠ [] → s.noeud.node.up () = false

instance (s : NoeudLog) : Decidable s.Repos :=
  decidable_of_iff ((∀ k, s.files k = []) ∧ s.reponses = [] ∧
      s.repondus = s.noeud.node.sent () ∧
      (s.noeud.node.stack.isEmpty = true ∨ s.noeud.node.up () = false))
    ⟨fun h => ⟨h.1, h.2.1, h.2.2.1,
        fun hne => h.2.2.2.resolve_left fun he => hne (List.isEmpty_iff.1 he)⟩,
      fun h => ⟨h.files, h.reponses, h.repondus,
        or_iff_not_imp_left.2 fun hne => h.arret fun he => hne (List.isEmpty_iff.2 he)⟩⟩

/-- The log has one line for each message, and no other. -/
def UneLigneChacun (publies : List Avis) (log : List (List Char)) : Prop :=
  ∃ lignes, List.Forall₂ Avis.Ligne publies lignes ∧ lignes.Perm log

/-- A message can be written and finds its subscription empty, the replies are fewer than a hundred,
and a reply is handled when the flag is down. -/
def SansPerte (s : NoeudLog) : EvenementLog → Prop
  | .publier a => a.Lisible ∧ s.files a.sujet = []
  | .repondre _ => s.reponses.length < 100
  | .recevoir => s.noeud.node.up () = false
  | _ => True

instance (s : NoeudLog) (e : EvenementLog) : Decidable (s.SansPerte e) := by
  unfold SansPerte
  split <;> infer_instance

/-! ## The invariant -/

/-- A callback that waits writes one line when its wait ends. -/
def Attend (f : Frame interface Unit) (a : Avis) : Prop :=
  f.Ends libre () (fun ms => ms = []) fun _ ms => ∃ ligne, ms = [ligne] ∧ a.Ligne ligne

/-- The messages are written, waited for, or kept by their subscription. -/
def Reparti (s : NoeudLog) : Prop :=
  ∃ ecrits : List Avis, List.Forall₂ Avis.Ligne ecrits s.log ∧
    (s.publies : Multiset Avis) = ecrits + s.noeud.names + Mailbox.contents s.files

structure Inv (s : NoeudLog) : Prop where
  sain : s.noeud.node.Sound
  matched : s.noeud.Matched
  lisibles : ∀ k, ∀ a ∈ s.files k, a.Lisible
  attentes : List.Forall₂ Attend s.noeud.node.stack s.noeud.names
  equilibre : Node.Balanced liaisons () s.noeud.node
  reponses : s.repondus = (s.noeud.node.received ()).length + s.reponses.length
  reparti : s.Reparti

theorem inv_initial : initial.Inv where
  sain := Node.sound_idle ()
  matched := rfl
  lisibles := by simp [initial]
  attentes := .nil
  equilibre := rfl
  reponses := rfl
  reparti := ⟨[], .nil, by simp [initial, Mailbox.contents_empty]⟩

/-- Every activation waits for the time. -/
theorem waiting_eq (n : Node interface Unit ℚ Unit) : n.waiting liaisons () = n.stack :=
  List.filter_eq_self.2 fun _ _ => rfl

/-- At rest, no callback waits and every message has its line. -/
theorem Inv.repos {s : NoeudLog} (h : s.Inv) (hs : s.Repos) :
    s.noeud.node.stack = [] ∧ s.noeud.node.faulted = false ∧ UneLigneChacun s.publies s.log := by
  have hrecus := h.reponses
  rw [hs.reponses, List.length_nil, hs.repondus] at hrecus
  have hstack : s.noeud.node.stack = [] := by
    by_contra hne
    have hwaiting := Node.waiting_of_balanced h.equilibre hrecus (hs.arret hne)
    rw [waiting_eq] at hwaiting
    exact hne hwaiting
  have hnames : s.noeud.names = [] := by
    have hlength := h.matched
    rw [Roster.Matched, hstack] at hlength
    exact List.length_eq_zero_iff.1 hlength
  obtain ⟨ecrits, hecrits, hpublies⟩ := h.reparti
  rw [hnames, Mailbox.contents_empty hs.files, add_zero, Multiset.coe_nil, add_zero] at hpublies
  obtain ⟨lignes, hlignes, hperm⟩ :=
    List.perm_comp_forall₂ (Multiset.coe_eq_coe.1 hpublies) hecrits
  exact ⟨hstack, h.sain.alive, lignes, hlignes, hperm⟩

/-- A callback has run up to its next wait: what it was to write is written, or still waited for. -/
theorem reparti_of_follows {s : NoeudLog} {n : Node interface Unit ℚ Unit} {a : Avis}
    {noms ecrits : List Avis} {prog : Code Unit} (hsuit : s.noeud.Follows liaisons n a noms prog)
    (halive : s.noeud.node.faulted = false)
    (hprog : libre.Ends prog () (fun ms => ms = []) fun _ _ ms => ∃ ligne, ms = [ligne] ∧ a.Ligne ligne)
    (hattentes : List.Forall₂ Attend n.stack noms) (hecrits : List.Forall₂ Avis.Ligne ecrits n.posted)
    (hpublies : (s.publies : Multiset Avis) =
      ecrits + (a ::ₘ (noms : Multiset Avis)) + Mailbox.contents s.files) :
    s.noeud.Matched ∧ List.Forall₂ Attend s.noeud.node.stack s.noeud.names ∧ s.Reparti := by
  obtain ⟨ms, hposted, -, hissue⟩ := hsuit.outcome hprog
  refine ⟨hissue.matched halive hsuit.matched, ?_⟩
  cases hissue with
  | failed hf =>
    rw [hf] at halive
    cases halive
  | ended _ hstack hnames hligne =>
    obtain ⟨ligne, rfl, hligne⟩ := hligne
    rw [hstack, hnames]
    refine ⟨hattentes, ecrits ++ [a], ?_, ?_⟩
    · rw [log, hposted]
      exact List.rel_append hecrits (.cons hligne .nil)
    · rw [hpublies, hnames, ← Multiset.coe_add, Multiset.coe_singleton, ← Multiset.singleton_add]
      abel
  | waits f _ hstack hnames hpause hf =>
    subst hpause
    rw [hstack, hnames]
    refine ⟨.cons hf hattentes, ecrits, ?_, ?_⟩
    · rw [log, hposted, List.append_nil]
      exact hecrits
    · rw [hpublies, hnames, Multiset.cons_coe]

/-- A message is taken out of its subscription and its callback begins. -/
theorem inv_traiter {s : NoeudLog} (h : s.Inv) {k : Sujet} {a : Avis} {reste : List Avis}
    (hfile : s.files k = a :: reste) {ρ : Roster interface Unit ℚ Unit Avis}
    (hρ : s.noeud.step liaisons Avis.code (.start a) = some ρ) :
    Inv { s with files := Function.update s.files k reste, noeud := ρ } := by
  have ha : a.Lisible := h.lisibles k a (hfile ▸ List.mem_cons_self)
  have hnode := Roster.step_node hρ
  have hsain : ρ.node.Sound := Node.sound_step h.sain (fun p hp => by cases hp; exact code_safe ha) hnode
  obtain ⟨ecrits, hecrits, hpublies⟩ := h.reparti
  rw [Mailbox.contents_pop hfile] at hpublies
  have hsuit : ρ.Follows liaisons s.noeud.node a s.noeud.names a.code := by
    cases Roster.step_moves h.matched hρ with
    | delivered he => exact absurd rfl (he a)
    | started p he hfollows =>
      cases he
      exact hfollows
    | resumed he => exact absurd rfl (he a)
  obtain ⟨hmatched, hattentes, hreparti⟩ :=
    reparti_of_follows (s := { s with files := Function.update s.files k reste, noeud := ρ }) hsuit
      hsain.alive (code_ends ha) h.attentes hecrits (by
        rw [hpublies, ← Multiset.singleton_add]
        abel)
  refine ⟨hsain, hmatched, ?_, hattentes, ?_, ?_, hreparti⟩
  · intro k' b hb
    change b ∈ Function.update s.files k reste k' at hb
    by_cases hk : k' = k
    · subst hk
      rw [Function.update_self] at hb
      exact h.lisibles k' b (hfile ▸ List.mem_cons_of_mem a hb)
    · rw [Function.update_of_ne hk] at hb
      exact h.lisibles k' b hb
  · exact Node.balanced_step (fun _ _ => rfl) h.equilibre (by simp) hnode
  · rw [Node.received_step (by simp) hnode]
    exact h.reponses

/-- The node handles a reply, or a callback goes on. -/
theorem inv_noeud {s : NoeudLog} (h : s.Inv) {e : NodeEvent interface Avis ℚ}
    {ρ : Roster interface Unit ℚ Unit Avis} {reponses : List ℚ} (he : ∀ a, e ≠ .start a)
    (hρ : s.noeud.step liaisons Avis.code e = some ρ)
    (hflag : ∀ temps, e = .receive temps → s.noeud.node.up () = false)
    (hreponses : s.repondus = (ρ.node.received ()).length + reponses.length) :
    Inv { s with reponses, noeud := ρ } := by
  have hnode := Roster.step_node hρ
  have hsain : ρ.node.Sound := Node.sound_step h.sain (fun p hp => absurd hp (he p)) hnode
  obtain ⟨ecrits, hecrits, hpublies⟩ := h.reparti
  have hsuite : ρ.Matched ∧ List.Forall₂ Attend ρ.node.stack ρ.names ∧
      Reparti { s with reponses, noeud := ρ } := by
    cases Roster.step_moves h.matched hρ with
    | delivered _ hnames hstack _ hposted _ =>
      refine ⟨?_, ?_, ecrits, ?_, ?_⟩
      · rw [Roster.Matched, hnames, hstack]
        exact h.matched
      · rw [hstack, hnames]
        exact h.attentes
      · rw [log, hposted]
        exact hecrits
      · rw [hpublies, hnames]
    | started p hp => exact absurd hp (he p)
    | resumed _ f a noms v n hstack hnames _ hposted hfollows =>
      have hattentes := h.attentes
      rw [hstack, hnames] at hattentes
      cases hattentes with
      | cons hf hreste =>
        rw [log, ← hposted] at hecrits
        refine reparti_of_follows (s := { s with reponses, noeud := ρ }) hfollows hsain.alive
          (hf v () trivial) hreste hecrits ?_
        rw [hpublies, hnames, Multiset.cons_coe]
  exact ⟨hsain, hsuite.1, h.lisibles, hsuite.2.1,
    Node.balanced_step (fun _ _ => rfl) h.equilibre (fun m hm _ => hflag m hm) hnode, hreponses,
    hsuite.2.2⟩

/-- A message is published, and its subscription keeps it. -/
theorem inv_publier {s : NoeudLog} (h : s.Inv) {a : Avis} (ha : a.Lisible)
    (hfile : s.files a.sujet = []) :
    Inv { s with
      files := Function.update s.files a.sujet (Mailbox.push 1 (s.files a.sujet) a)
      publies := s.publies ++ [a] } := by
  have hlibre : (s.files a.sujet).length < 1 := by
    rw [hfile]
    exact Nat.zero_lt_one
  refine ⟨h.sain, h.matched, ?_, h.attentes, h.equilibre, h.reponses, ?_⟩
  · intro k b hb
    change b ∈ Function.update s.files a.sujet _ k at hb
    by_cases hk : k = a.sujet
    · subst hk
      rw [Function.update_self, Mailbox.push_of_lt hlibre, hfile] at hb
      rwa [List.mem_singleton.1 hb]
    · rw [Function.update_of_ne hk] at hb
      exact h.lisibles k b hb
  · obtain ⟨ecrits, hecrits, hpublies⟩ := h.reparti
    refine ⟨ecrits, hecrits, ?_⟩
    rw [← Multiset.coe_add, hpublies, Mailbox.contents_push hlibre, Multiset.coe_singleton]
    abel

theorem inv_etape {s s' : NoeudLog} {e : EvenementLog} (h : s.Inv) (hC : s.SansPerte e)
    (hs : s.etape e = some s') : s'.Inv := by
  cases e with
  | publier a =>
    rw [← Option.some.inj hs]
    exact inv_publier h hC.1 hC.2
  | traiter k =>
    rw [etape] at hs
    split at hs
    · cases hs
    · obtain ⟨ρ, hρ, rfl⟩ := Option.map_eq_some_iff.1 hs
      exact inv_traiter h ‹_› hρ
  | repondre temps =>
    obtain ⟨-, hs⟩ := Option.ite_none_right_eq_some.1 hs
    rw [← Option.some.inj hs]
    refine ⟨h.sain, h.matched, h.lisibles, h.attentes, h.equilibre, ?_, h.reparti⟩
    show s.repondus + 1 = _ + (Mailbox.push 100 s.reponses temps).length
    rw [Mailbox.push_of_lt hC, List.length_append, h.reponses]
    rfl
  | recevoir =>
    rw [etape] at hs
    split at hs
    · cases hs
    · rename_i temps reponses hreponses
      obtain ⟨ρ, hρ, rfl⟩ := Option.map_eq_some_iff.1 hs
      refine inv_noeud h (by simp) hρ (fun _ _ => hC) ?_
      have hrecus : ρ.node.received () = s.noeud.node.received () ++ [temps] := by
        rw [Node.received_receive (Roster.step_node hρ)]
        rfl
      have hlength := h.reponses
      rw [hreponses, List.length_cons] at hlength
      rw [hrecus, List.length_append, List.length_singleton]
      show s.repondus = _ + reponses.length
      omega
  | continuer =>
    obtain ⟨ρ, hρ, rfl⟩ := Option.map_eq_some_iff.1 hs
    refine inv_noeud h (by simp) hρ (by simp) ?_
    rw [Node.received_step (by simp) (Roster.step_node hρ)]
    exact h.reponses

/-- In every run where the subscriptions lose no message and no reply finds the flag up, once
everything is delivered no callback waits and the log has exactly one line for each message. -/
theorem une_ligne_par_message {trace : List EvenementLog} {s : NoeudLog}
    (h : Run (Guarded SansPerte etape) initial trace s) (hs : s.Repos) :
    s.noeud.node.stack = [] ∧ s.noeud.node.faulted = false ∧ UneLigneChacun s.publies s.log := by
  have hstep : ∀ (_ : List EvenementLog) s e s', s.Inv → Guarded SansPerte etape s e s' → s'.Inv :=
    fun _ _ _ _ hinv hstep => inv_etape hinv hstep.1 hstep.2
  exact (Run.invariant inv_initial hstep h).repos hs

/-- An evacuation is handled inside the wait of the callback of a new product. -/
def imbriques : List EvenementLog :=
  [.publier (.addProduct 14), .publier (.produitEvac [24, 13, 0, 0]), .traiter .addProduct,
    .traiter .produitEvac]

/-- The two replies come one at a time, and the messages that do not wait come after. -/
theorem une_ligne_par_message_imbriques :
    ∃ trace s, Run (Guarded SansPerte etape) initial trace s ∧ s.Repos ∧ s.publies.length = 4 ∧
      s.noeud.node.stack = [] ∧ s.noeud.node.faulted = false ∧ UneLigneChacun s.publies s.log := by
  have hrun : (execute SansPerte etape initial (imbriques ++
      [.repondre 1, .recevoir, .continuer, .publier (.tacheFinie 2 14 3), .repondre 2, .recevoir,
        .publier (.erreurLog 66 1), .traiter .erreurLog, .continuer, .traiter .tacheFinie])).any
      (fun s => decide (s.Repos ∧ s.publies.length = 4)) = true := by decide +kernel
  obtain ⟨s, hs, hrepos⟩ := (Option.any_eq_true _ _).1 hrun
  obtain ⟨hrepos, hpublies⟩ := of_decide_eq_true hrepos
  have h := run_execute .nil hs
  exact ⟨_, s, h, hrepos, hpublies, une_ligne_par_message h hrepos⟩

/-- The two replies come in one `spinOnce`: the callback of the new product waits for ever. -/
theorem nouveauProduit_attend_toujours :
    ¬ ∀ trace s, Run (Guarded (fun _ _ => True) etape) initial trace s → s.Repos →
      s.noeud.node.stack = [] ∧ UneLigneChacun s.publies s.log := by
  intro h
  have hrun : (execute (fun _ _ => True) etape initial (imbriques ++
      [.repondre 1, .repondre 2, .recevoir, .recevoir, .continuer])).any
      (fun s => decide (s.Repos ∧ s.noeud.node.stack.isEmpty = false)) = true := by decide +kernel
  obtain ⟨s, hs, hrepos⟩ := (Option.any_eq_true _ _).1 hrun
  obtain ⟨hrepos, hattend⟩ := of_decide_eq_true hrepos
  rw [(h _ s (run_execute .nil hs) hrepos).1] at hattend
  cases hattend

end NoeudLog

end CommandeLocale.LogManager
