import Cellule.Commande.Commande

/-! # The locks of the switches

The node of the switches and the command node: the unlock, movement and lock messages of the first
reach the second in order. Orders may be received inside the wait of another order, and the sensor
words are any words.
-/

namespace Reseau

open Reactive Aiguillages Commande

/-- The two nodes, the messages on their way, and what the command node has published. For each
callback that waits, innermost first, `finis` has the switches of the callbacks that have ended
inside it. -/
structure Verrous where
  noeud : Aiguillage
  finis : List (List ℕ)
  messages : List Message
  commande : NoeudCommande
  publies : List MsgSwitchControl

/-- What can happen. -/
inductive EvenementVerrous
  /-- An order for a switch is received. -/
  | ordre (c : Cote) (n : ℕ)
  /-- A sensor word is received. -/
  | capteur (data : BitVec 32)
  /-- `spinOnce` returns in the innermost waiting callback. -/
  | tour
  /-- The command node receives the oldest message. -/
  | livrer
  deriving DecidableEq

namespace Verrous

/-- The node of the switches has run and published. -/
def publier (s : Verrous) (r : Aiguillage × List Message) : Verrous :=
  { s with noeud := r.1, messages := s.messages ++ r.2 }

/-- What the return of `spinOnce` leaves of `finis`. -/
def finisApresTour (s : Verrous) : List (List ℕ) :=
  match s.noeud.attentes, s.finis with
  | (c, n) :: _, f :: finis => if s.noeud.butee c n then finis.map (n :: ·) else f :: finis
  | _, finis => finis

/-- One step. -/
def etape (s : Verrous) : EvenementVerrous → Option Verrous
  | .ordre c n =>
      if 1 ≤ n ∧ n ≤ 11 then
        some { s.publier (s.noeud.callback c n) with
          finis := if s.noeud.butee c n then s.finis else [] :: s.finis }
      else none
  | .capteur data => some { s with noeud := s.noeud.switchSensorCallback data }
  | .tour =>
      if s.noeud.attentes = [] then none
      else some { s.publier s.noeud.tour with finis := s.finisApresTour }
  | .livrer =>
      match s.messages with
      | [] => none
      | message :: messages =>
          some { s with
            messages
            commande := (s.commande.recevoir message).1
            publies := s.publies ++ (s.commande.recevoir message).2 }

/-- The start: the command node is initialised and no callback waits. -/
def initial (aigD aigG : ℕ → Bool) (commande : NoeudCommande) : Verrous where
  noeud := { aigD, aigG, attentes := [] }
  finis := []
  messages := []
  commande := commande.initialiserActionneurs.initialisation
  publies := []

/-- A callback does not publish its order again once an order for the same switch has ended inside
it. -/
def SansRelance (s : Verrous) (e : EvenementVerrous) : Prop :=
  match e, s.noeud.attentes, s.finis with
  | .tour, (c, n) :: _, f :: _ => s.noeud.butee c.oppose n = true → n ∉ f
  | _, _, _ => True

instance (s : Verrous) (e : EvenementVerrous) : Decidable (s.SansRelance e) := by
  unfold SansRelance
  split <;> infer_instance

/-- A published message orders one movement, of an unlocked switch. -/
def UnSeulOuvert (msg : MsgSwitchControl) : Prop :=
  ∃ c, ∃ n < 13, (∀ c', ∀ i < 13, msg.ordres c' i = true ↔ c' = c ∧ i = n) ∧ msg.LOCK n = true

/-! ## The locks as the messages leave them -/

/-- The switches that may move, after a message. -/
def effet (ouverts : ℕ → Bool) : Message → ℕ → Bool
  | .deverouille n => Function.update ouverts n true
  | .mouvement _ _ => ouverts
  | .verouille n => Function.update ouverts n false

/-- A movement is for an unlocked switch of the arrays. -/
def Permis (ouverts : ℕ → Bool) : Message → Prop
  | .mouvement _ n => n < 13 ∧ ouverts n = true
  | _ => True

/-- The switches that may move once every message on its way is received. -/
def ouvertsFinal (s : Verrous) : ℕ → Bool := s.messages.foldl effet s.commande.ouverts

/-- The command node follows the locks, and publishes the movements that are permitted. -/
theorem recevoir_spec {s : NoeudCommande} (hrepos : s.AuRepos) {m : Message}
    (hm : Permis s.ouverts m) :
    (s.recevoir m).1.AuRepos ∧ (s.recevoir m).1.ouverts = effet s.ouverts m ∧
      ∀ msg ∈ (s.recevoir m).2, UnSeulOuvert msg := by
  have hmouvement : ∀ c n, n < 13 ∧ s.ouverts n = true →
      (NoeudCommande.aiguillagesCallback c s n).1.AuRepos ∧
        (NoeudCommande.aiguillagesCallback c s n).1.ouverts = s.ouverts ∧
        ∀ msg ∈ [(NoeudCommande.aiguillagesCallback c s n).2], UnSeulOuvert msg := by
    intro c n hn
    refine ⟨NoeudCommande.Rx_aiguillagesCallback hrepos c n,
      NoeudCommande.ouverts_aiguillagesCallback s c n, ?_⟩
    intro msg hmsg
    rw [List.mem_singleton.1 hmsg]
    refine ⟨c, n, hn.1, ?_, ?_⟩
    · intro c' i hi
      exact NoeudCommande.ordres_aiguillagesCallback hrepos c c' n hi
    · rw [NoeudCommande.LOCK_aiguillagesCallback s c n hn.1, hn.2]
  cases m with
  | deverouille n => exact ⟨hrepos, NoeudCommande.ouverts_deverouille s n, by simp [NoeudCommande.recevoir]⟩
  | verouille n => exact ⟨hrepos, NoeudCommande.ouverts_verouille s n, by simp [NoeudCommande.recevoir]⟩
  | mouvement c n =>
    cases c with
    | droite => exact hmouvement .droite n hm
    | gauche => exact hmouvement .gauche n hm

/-! ## The invariant -/

/-- The movements on their way are permitted when they arrive; and a callback that waits finds its
switch unlocked at the end, unless an order for the same switch has ended inside it. -/
structure Inv (s : Verrous) : Prop where
  repos : s.commande.AuRepos
  permis : Admissible Permis effet s.commande.ouverts s.messages
  attentes : List.Forall₂ (fun a f => a.2 < 13 ∧ (a.2 ∉ f → s.ouvertsFinal a.2 = true))
    s.noeud.attentes s.finis
  publies : ∀ msg ∈ s.publies, UnSeulOuvert msg

theorem inv_initial (aigD aigG : ℕ → Bool) (commande : NoeudCommande) :
    (initial aigD aigG commande).Inv where
  repos := by
    intro c i hi
    cases c <;> exact if_pos hi
  permis := trivial
  attentes := .nil
  publies := by simp [initial]

/-- The node of the switches publishes: the invariant needs the messages to be permitted, and the
waits to be covered after them. -/
theorem Inv.publier {s s' : Verrous} (h : s.Inv) (messages : List Message)
    (hmessages : s'.messages = s.messages ++ messages) (hcommande : s'.commande = s.commande)
    (hpublies : s'.publies = s.publies) (hpermis : Admissible Permis effet s.ouvertsFinal messages)
    (hattentes : List.Forall₂
      (fun a f => a.2 < 13 ∧ (a.2 ∉ f → messages.foldl effet s.ouvertsFinal a.2 = true))
      s'.noeud.attentes s'.finis) : s'.Inv where
  repos := by
    rw [hcommande]
    exact h.repos
  permis := by
    rw [hcommande, hmessages]
    exact admissible_append.2 ⟨h.permis, hpermis⟩
  attentes := by
    have hfinal : s'.ouvertsFinal = messages.foldl effet s.ouvertsFinal := by
      rw [ouvertsFinal, hcommande, hmessages, List.foldl_append, ouvertsFinal]
    rw [hfinal]
    exact hattentes
  publies := by
    rw [hpublies]
    exact h.publies

theorem inv_ordre {s : Verrous} (h : s.Inv) (c : Cote) {n : ℕ} (hn : n ≤ 11) :
    Inv { s.publier (s.noeud.callback c n) with
      finis := if s.noeud.butee c n then s.finis else [] :: s.finis } := by
  rw [Aiguillage.callback_eq]
  unfold Aiguillage.ordreCallback
  split_ifs with hbutee
  · refine h.publier [] rfl rfl rfl trivial ?_
    exact h.attentes
  · have hn' : n < 13 := by omega
    refine h.publier [.deverouille n, .mouvement c n] rfl rfl rfl ?_ ?_
    · exact ⟨trivial, ⟨hn', Function.update_self ..⟩, trivial⟩
    · refine .cons ⟨hn', fun _ => Function.update_self ..⟩ (h.attentes.imp ?_)
      rintro ⟨c', k⟩ f ⟨hk, hf⟩
      refine ⟨hk, ?_⟩
      intro hkf
      show Function.update s.ouvertsFinal n true k = true
      rw [Function.update_apply, hf hkf]
      split_ifs <;> rfl

/-- The order that is published again finds its switch unlocked. -/
theorem permis_relance {ouverts : ℕ → Bool} {c : Cote} {n : ℕ} {relance : Bool} (hn : n < 13)
    (hrelance : relance = true → ouverts n = true) :
    Admissible Permis effet ouverts (if relance then [.mouvement c n] else []) ∧
      (if relance then [.mouvement c n] else []).foldl effet ouverts = ouverts := by
  cases relance with
  | true => exact ⟨⟨⟨hn, hrelance rfl⟩, trivial⟩, rfl⟩
  | false => exact ⟨trivial, rfl⟩

theorem inv_tour {s : Verrous} (h : s.Inv) (hs : s.SansRelance .tour) :
    Inv { s.publier s.noeud.tour with finis := s.finisApresTour } := by
  rcases hattentes : s.noeud.attentes with - | ⟨⟨c, n⟩, attentes⟩
  · have htour : s.noeud.tour = (s.noeud, []) := by rw [Aiguillage.tour, hattentes]
    have hfinis : s.finisApresTour = s.finis := by rw [finisApresTour, hattentes]
    rw [htour, hfinis]
    exact h.publier [] rfl rfl rfl trivial h.attentes
  · have hrel := h.attentes
    rw [hattentes] at hrel
    obtain ⟨f, finis, ⟨hn, hf⟩, hreste, hfinis⟩ := List.forall₂_cons_left_iff.1 hrel
    replace hn : n < 13 := hn
    have hrelance : s.noeud.butee c.oppose n = true → s.ouvertsFinal n = true := by
      intro hoppose
      unfold SansRelance at hs
      rw [hattentes, hfinis] at hs
      exact hf (hs hoppose)
    obtain ⟨hpermis, heffet⟩ := permis_relance (c := c) hn hrelance
    have htour : s.noeud.tour = if s.noeud.butee c n then
        ({ s.noeud with attentes },
          (if s.noeud.butee c.oppose n then [.mouvement c n] else []) ++ [.verouille n])
        else (s.noeud, if s.noeud.butee c.oppose n then [.mouvement c n] else []) := by
      rw [Aiguillage.tour, hattentes]
    generalize (if s.noeud.butee c.oppose n then [Message.mouvement c n] else []) = relance
      at hpermis heffet htour
    have hfinisTour : s.finisApresTour =
        if s.noeud.butee c n then finis.map (n :: ·) else f :: finis := by
      rw [finisApresTour, hattentes, hfinis]
    rw [htour, hfinisTour]
    split_ifs with hbutee
    · refine h.publier _ rfl rfl rfl (admissible_append.2 ⟨hpermis, trivial, trivial⟩) ?_
      -- the callbacks that still wait for this switch are told that one has ended inside them
      refine List.forall₂_map_right_iff.2 (hreste.imp ?_)
      rintro ⟨c', k⟩ f' ⟨hk, hf'⟩
      refine ⟨hk, ?_⟩
      intro hkf
      obtain ⟨hkn, hkf'⟩ := not_or.1 (List.mem_cons.not.1 hkf)
      rw [List.foldl_append, heffet]
      show Function.update s.ouvertsFinal n false k = true
      rw [Function.update_of_ne hkn, hf' hkf']
    · refine h.publier _ rfl rfl rfl hpermis ?_
      rw [heffet]
      show List.Forall₂ _ s.noeud.attentes (f :: finis)
      rw [← hfinis]
      exact h.attentes

theorem inv_livrer {s : Verrous} (h : s.Inv) {message : Message} {messages : List Message}
    (hmessages : s.messages = message :: messages) :
    Inv { s with
      messages
      commande := (s.commande.recevoir message).1
      publies := s.publies ++ (s.commande.recevoir message).2 } := by
  have hpermis := h.permis
  rw [hmessages, admissible_cons] at hpermis
  obtain ⟨hrepos, houverts, hpublies⟩ := recevoir_spec h.repos hpermis.1
  refine ⟨hrepos, ?_, ?_, ?_⟩
  · rw [houverts]
    exact hpermis.2
  · have hfinal : s.ouvertsFinal = messages.foldl effet (effet s.commande.ouverts message) := by
      rw [ouvertsFinal, hmessages, List.foldl_cons]
    unfold ouvertsFinal
    rw [houverts, ← hfinal]
    exact h.attentes
  · intro msg hmsg
    rcases List.mem_append.1 hmsg with hmsg | hmsg
    · exact h.publies msg hmsg
    · exact hpublies msg hmsg

theorem inv_etape {s s' : Verrous} {e : EvenementVerrous} (h : s.Inv) (hC : s.SansRelance e)
    (hs : s.etape e = some s') : s'.Inv := by
  cases e with
  | ordre c n =>
    obtain ⟨hn, hs⟩ := Option.ite_none_right_eq_some.1 hs
    rw [← Option.some.inj hs]
    exact inv_ordre h c hn.2
  | capteur data =>
    rw [← Option.some.inj hs]
    exact h.publier [] (List.append_nil _).symm rfl rfl trivial h.attentes
  | tour =>
    rw [etape] at hs
    split_ifs at hs
    rw [← Option.some.inj hs]
    exact inv_tour h hC
  | livrer =>
    rw [etape] at hs
    split at hs
    · cases hs
    · rw [← Option.some.inj hs]
      exact inv_livrer h ‹_›

/-- In every run where no callback publishes its order again after an order for the same switch has
ended inside it, every published message orders one movement, of an unlocked switch. -/
theorem aiguillage_deverouille (aigD aigG : ℕ → Bool) (commande : NoeudCommande)
    {trace : List EvenementVerrous} {s : Verrous}
    (h : Run (Guarded SansRelance etape) (initial aigD aigG commande) trace s) :
    ∀ msg ∈ s.publies, UnSeulOuvert msg := by
  have hstep : ∀ (trace : List EvenementVerrous) s e s', s.Inv →
      Guarded SansRelance etape s e s' → s'.Inv :=
    fun _ _ _ _ hs h => inv_etape hs h.1 h.2
  have hinv : s.Inv := h.invariant (inv_initial aigD aigG commande) hstep
  exact hinv.publies

section Exemple

/-- A command node before its initialisation. -/
def eteint : NoeudCommande where
  RxD _ := false
  RxG _ := false
  Vx _ := false
  Dx _ := false
  PIx _ := false
  actionneursSimulationStop := { STOP := fun _ => false, GO := fun _ => false }
  actionneursSimulationAiguillages :=
    { LOCK := fun _ => false, RD := fun _ => false, RG := fun _ => false }
  actionneursSimulationPin := { PINON := fun _ => false, PINOFF := fun _ => false }

/-- Every switch is on the right; one moves to the left, and an order to the right ends inside the
wait for it. -/
def imbrique : List EvenementVerrous :=
  [.ordre .gauche 1, .capteur 0#32, .ordre .droite 1, .capteur 1#32, .tour]

theorem aiguillage_deverouille_imbrique :
    ∃ trace s, Run (Guarded SansRelance etape)
      (initial (fun _ => true) (fun _ => false) eteint) trace s ∧
      s.publies.length = 2 ∧ ∀ msg ∈ s.publies, UnSeulOuvert msg := by
  have hrun : (execute SansRelance etape (initial (fun _ => true) (fun _ => false) eteint)
      (imbrique ++ List.replicate 5 .livrer)).any
      (fun s => decide (s.publies.length = 2)) = true := by decide +kernel
  obtain ⟨s, hs, hpublies⟩ := (Option.any_eq_true _ _).1 hrun
  have h := run_execute .nil hs
  exact ⟨_, s, h, of_decide_eq_true hpublies, aiguillage_deverouille _ _ _ h⟩

/-- The order to the left is published again after the order to the right has locked the switch. -/
theorem aiguillage_deplace_verouille :
    ¬ ∀ trace s, Run (Guarded (fun _ _ => True) etape)
      (initial (fun _ => true) (fun _ => false) eteint) trace s →
      ∀ msg ∈ s.publies, UnSeulOuvert msg := by
  intro h
  have hrun : (execute (fun _ _ => True) etape
      (initial (fun _ => true) (fun _ => false) eteint)
      (imbrique ++ .tour :: List.replicate 6 .livrer)).any
      (fun s => s.publies.any fun msg => msg.RG 1 && !msg.LOCK 1) = true := by decide +kernel
  obtain ⟨s, hs, hpublies⟩ := (Option.any_eq_true _ _).1 hrun
  obtain ⟨msg, hmsg, hetat⟩ := List.any_eq_true.1 hpublies
  obtain ⟨hRG, hLOCK⟩ := Bool.and_eq_true_iff.1 hetat
  obtain ⟨c, n, -, hordres, hn⟩ := h _ s (run_execute .nil hs) msg hmsg
  obtain ⟨-, rfl⟩ := (hordres .gauche 1 (by decide)).1 hRG
  rw [hn] at hLOCK
  cases hLOCK

end Exemple

end Verrous

end Reseau
