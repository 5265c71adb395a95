import Cellule.Commande.Actionneurs
import Cellule.Lib.History
import Cellule.Lib.Snapshot
import Cellule.Lib.Stutter

/-! # The bridge to the controllers

`communication/src/communication.cpp` and `automates/src/API_schneider.cpp`, between the register of
the actuators that the command node publishes and the registers of the two controllers of the line.
Each topic is a queue that may lose any message but the last one. The transfers to the controllers
may fail: a word that is not written is lost, and what is read is a parameter of the step.
-/

namespace Communication

open Commande (Actionneurs Signaux decoupeSorties)
open Snapshot (Link)
open Stutter (Follows)

/-- The two controllers. -/
inductive Automate
  | ap1
  | ap2
  deriving DecidableEq

/-- `Communication_commande::Concatenation_entrees`: `CAPTEURS` as a function of the words
`entrees_api` of the two controllers. -/
def concatenationEntrees (AP1 AP2 : BitVec 32) : BitVec 64 :=
  AP1.signExtend 64 + AP2.signExtend 64 <<< 16

namespace Automate

/-- The word `sorties_api` of a controller, cut by `Decoupe_sorties`. -/
def sortiesApi (ACTIONNEURS : BitVec 64) : Automate → BitVec 32
  | ap1 => (decoupeSorties ACTIONNEURS).1
  | ap2 => (decoupeSorties ACTIONNEURS).2

/-- The bit of the register of the line where the word of a controller starts. -/
def decalage : Automate → ℕ
  | ap1 => 0
  | ap2 => 16

end Automate

/-- The nodes `commande`, `communication` and `automates`. The receiver of `actionneurs` is
`ACTIONNEURS`, that of `sorties` the attribute `sorties` of `API_schneider`, and that of `entrees`
the word `entrees_api`. The last four fields list what was sent, written, read and published. -/
structure Pont where
  commande : Actionneurs
  actionneurs : Link (BitVec 64) (BitVec 64)
  sorties : Automate → Link (BitVec 32) (BitVec 16)
  entrees : Automate → Link (BitVec 32) (BitVec 32)
  appels : List Signaux
  ecrits : Automate → List (BitVec 16)
  lus : Automate → List (BitVec 16)
  capteurs : List (BitVec 64)

/-- What can happen. -/
inductive Evenement
  /-- The command node calls `Envoyer`. -/
  | envoyer (a : Signaux)
  /-- `Callback_Actionneurs`. -/
  | callbackActionneurs
  /-- An iteration of `communication`. -/
  | iterer
  /-- `API_schneider::Callback`, whose `modbus_write_registers` succeeds or not. -/
  | callbackSorties (ap : Automate) (reussie : Bool)
  /-- `API_schneider::publish`, with what `get_register` returns. -/
  | publier (ap : Automate) (registre : BitVec 16)
  /-- `Callback_Entrees_api`. -/
  | callbackEntrees (ap : Automate)
  | perdreActionneurs (i : ℕ)
  | perdreSorties (ap : Automate) (i : ℕ)
  | perdreEntrees (ap : Automate) (i : ℕ)

namespace Pont

/-- The start, with the attributes `sorties` of the node `automates` that no constructor sets. -/
def initial (sorties : Automate → BitVec 16) : Pont where
  commande := .initial
  actionneurs := { queue := [], receiver := 0#64 }
  sorties ap := { queue := [], receiver := sorties ap }
  entrees _ := { queue := [], receiver := 0#32 }
  appels := []
  ecrits _ := []
  lus _ := []
  capteurs := []

/-- `Envoyer` of the command node. -/
def envoyer (s : Pont) (a : Signaux) : Pont :=
  let r := s.commande.envoyer a
  { s with
    commande := r.1
    actionneurs := s.actionneurs.publish r.2.actionneurs
    appels := s.appels ++ [a] }

/-- An iteration of `communication`, up to `spinOnce`: `Concatenation_entrees` and the publication
of `CAPTEURS`, then `Decoupe_sorties` and the publication of both words. -/
def iterer (s : Pont) : Pont :=
  let CAPTEURS := concatenationEntrees (s.entrees .ap1).receiver (s.entrees .ap2).receiver
  { s with
    sorties := fun ap => (s.sorties ap).publish (ap.sortiesApi s.actionneurs.receiver)
    capteurs := s.capteurs ++ [CAPTEURS] }

/-- One step. -/
def etape (s : Pont) : Evenement → Option Pont
  | .envoyer a => some (s.envoyer a)
  | .callbackActionneurs =>
      (s.actionneurs.deliver fun msg _ => msg).map fun l => { s with actionneurs := l }
  | .iterer => some s.iterer
  | .callbackSorties ap reussie =>
      ((s.sorties ap).deliver fun msg _ => msg.setWidth 16).map fun l =>
        { s with
          sorties := Function.update s.sorties ap l
          ecrits := if reussie then Function.update s.ecrits ap (s.ecrits ap ++ [l.receiver])
            else s.ecrits }
  | .publier ap registre =>
      some { s with
        entrees := Function.update s.entrees ap ((s.entrees ap).publish (registre.setWidth 32))
        lus := Function.update s.lus ap (s.lus ap ++ [registre]) }
  | .callbackEntrees ap =>
      ((s.entrees ap).deliver fun msg _ => msg).map fun l =>
        { s with entrees := Function.update s.entrees ap l }
  | .perdreActionneurs i => (s.actionneurs.lose i).map fun l => { s with actionneurs := l }
  | .perdreSorties ap i =>
      ((s.sorties ap).lose i).map fun l => { s with sorties := Function.update s.sorties ap l }
  | .perdreEntrees ap i =>
      ((s.entrees ap).lose i).map fun l => { s with entrees := Function.update s.entrees ap l }

/-- The steps of the nodes. -/
abbrev Avance (s : Pont) (ev : Evenement) (s' : Pont) : Prop := s.etape ev = some s'

end Pont

/-! ## Words -/

namespace Automate

/-- The bits of the word of a controller. -/
theorem getLsbD_sortiesApi (ap : Automate) (mot : BitVec 64) (n : ℕ) :
    (ap.sortiesApi mot).getLsbD n = (decide (n < 16) && mot.getLsbD (ap.decalage + n)) := by
  cases ap with
  | ap1 =>
    rw [decalage, Nat.zero_add]
    exact Commande.getLsbD_decoupeSorties_fst mot n
  | ap2 => exact Commande.getLsbD_decoupeSorties_snd mot n

end Automate

/-- Words of sixteen bits side by side. -/
theorem getLsbD_concatenationEntrees (AP1 AP2 : BitVec 16) (n : ℕ) :
    (concatenationEntrees (AP1.setWidth 32) (AP2.setWidth 32)).getLsbD n =
      if n < 16 then AP1.getLsbD n else AP2.getLsbD (n - 16) := by
  have hsigne : ∀ x : BitVec 16, (x.setWidth 32).signExtend 64 = x.setWidth 64 := by
    intro x
    have hmsb : (x.setWidth 32).msb = false := by
      rw [BitVec.msb_eq_getLsbD_last, BitVec.getLsbD_setWidth]
      simp
    rw [BitVec.signExtend_eq_setWidth_of_msb_false hmsb]
    apply BitVec.eq_of_getLsbD_eq
    intro i hi
    rw [BitVec.getLsbD_setWidth, BitVec.getLsbD_setWidth, BitVec.getLsbD_setWidth]
    by_cases h32 : i < 32
    · simp [h32]
    · simp [h32, BitVec.getLsbD_of_ge x i (by omega)]
  have hdisjoints : AP1.setWidth 64 &&& AP2.setWidth 64 <<< 16 = 0#64 := by
    apply BitVec.eq_of_getLsbD_eq
    intro i hi
    rw [BitVec.getLsbD_and, BitVec.getLsbD_setWidth, BitVec.getLsbD_shiftLeft, BitVec.getLsbD_zero]
    by_cases h16 : i < 16
    · simp [h16]
    · simp [BitVec.getLsbD_of_ge AP1 i (not_lt.1 h16)]
  unfold concatenationEntrees
  rw [hsigne, hsigne, BitVec.add_eq_or_of_and_eq_zero _ _ hdisjoints, BitVec.getLsbD_or,
    BitVec.getLsbD_setWidth, BitVec.getLsbD_shiftLeft, BitVec.getLsbD_setWidth]
  by_cases h16 : n < 16
  · have h64 : n < 64 := by omega
    simp [h16, h64]
  · by_cases h32 : n - 16 < 16
    · have h64 : n < 64 := by omega
      simp [h16, h64, BitVec.getLsbD_of_ge AP1 n (not_lt.1 h16), show n - 16 < 64 by omega]
    · simp [h16, BitVec.getLsbD_of_ge AP1 n (not_lt.1 h16), BitVec.getLsbD_of_ge AP2 _ (not_lt.1 h32)]

/-- The word that a call of `Envoyer` publishes. -/
def mot (a : Signaux) : BitVec 64 := (Actionneurs.initial.envoyer a).2.actionneurs

theorem getLsbD_mot (a : Signaux) (n : ℕ) : (mot a).getLsbD n = a.signal n :=
  Actionneurs.getLsbD_envoyer Actionneurs.propre_initial a n

/-- The word published does not depend on the calls before. -/
theorem envoyer_mot {s : Actionneurs} (hs : s.Propre) (a : Signaux) :
    (s.envoyer a).2.actionneurs = mot a := by
  apply BitVec.eq_of_getLsbD_eq
  intro n _
  rw [getLsbD_mot]
  exact Actionneurs.getLsbD_envoyer hs a n

/-- The word that a controller receives for a word of the line. -/
def Automate.mot (ap : Automate) (m : BitVec 64) : BitVec 16 := (ap.sortiesApi m).setWidth 16

theorem Automate.getLsbD_mot (ap : Automate) (m : BitVec 64) {n : ℕ} (hn : n < 16) :
    (ap.mot m).getLsbD n = m.getLsbD (ap.decalage + n) := by
  unfold Automate.mot
  rw [BitVec.getLsbD_setWidth, ap.getLsbD_sortiesApi]
  simp [hn]

/-- The word of a controller in a word of the sensors. -/
def Automate.entree (ap : Automate) (CAPTEURS : BitVec 64) : BitVec 16 :=
  (CAPTEURS >>> ap.decalage).setWidth 16

theorem Automate.getLsbD_entree (ap : Automate) (CAPTEURS : BitVec 64) {n : ℕ} (hn : n < 16) :
    (ap.entree CAPTEURS).getLsbD n = CAPTEURS.getLsbD (ap.decalage + n) := by
  unfold Automate.entree
  rw [BitVec.getLsbD_setWidth, BitVec.getLsbD_ushiftRight]
  simp [hn]

/-- The word of the sensors is cut where it was joined. -/
theorem entree_concatenationEntrees (registres : Automate → BitVec 16) (ap : Automate) :
    ap.entree (concatenationEntrees ((registres .ap1).setWidth 32) ((registres .ap2).setWidth 32)) =
      registres ap := by
  apply BitVec.eq_of_getLsbD_eq
  intro n hn
  rw [ap.getLsbD_entree _ hn, getLsbD_concatenationEntrees]
  cases ap with
  | ap1 => simp [Automate.decalage, hn]
  | ap2 => simp [Automate.decalage]

/-- No actuator is asked for. -/
def repos : Signaux where
  STx _ := false
  RxD _ := false
  RxG _ := false
  Vx _ := false
  Dx _ := false
  PIx _ := false

theorem mot_repos : mot repos = 0#64 := by
  apply BitVec.eq_of_getLsbD_eq
  intro n _
  rw [getLsbD_mot, BitVec.getLsbD_zero]
  unfold Signaux.signal
  split <;> rfl

/-! ## What flows through the bridge -/

namespace Pont

/-- The words of a controller, from its register to the command node. -/
def fluxSorties (s : Pont) (ap : Automate) : List (BitVec 16) :=
  s.ecrits ap ++ (s.sorties ap).queue.map (BitVec.setWidth 16) ++
    ap.mot s.actionneurs.receiver :: s.actionneurs.queue.map ap.mot

/-- The words of a controller, from the command node to its register. -/
def fluxEntrees (s : Pont) (ap : Automate) : List (BitVec 16) :=
  s.capteurs.map ap.entree ++
    (s.entrees ap).receiver.setWidth 16 :: (s.entrees ap).queue.map (BitVec.setWidth 16)

/-- What every run keeps. -/
structure Fidele (s : Pont) : Prop where
  propre : s.commande.Propre
  sorties : ∀ ap, Follows ((repos :: s.appels).map fun a => ap.mot (mot a)) (s.fluxSorties ap)
  entrees : ∀ ap, Follows (0#16 :: s.lus ap) (s.fluxEntrees ap)
  /-- Words of sixteen bits come from the controllers. -/
  courts : ∀ ap, ∀ m ∈ (s.entrees ap).receiver :: (s.entrees ap).queue, (m.setWidth 16).setWidth 32 = m
  capteurs : ∀ w ∈ s.capteurs, ∃ AP1 AP2 : BitVec 16,
    w = concatenationEntrees (AP1.setWidth 32) (AP2.setWidth 32)

variable {s s' : Pont}

theorem fidele_initial (sorties : Automate → BitVec 16) : Fidele (initial sorties) where
  propre := Actionneurs.propre_initial
  sorties ap := by
    have hrepos : ap.mot (mot repos) = ap.mot 0#64 := by rw [mot_repos]
    show Follows [ap.mot (mot repos)] [ap.mot 0#64]
    rw [hrepos]
    exact Follows.refl _
  entrees ap := Follows.refl _
  courts ap m hm := by
    rw [List.mem_singleton.1 hm]
    rfl
  capteurs w hw := by cases hw

theorem Fidele.envoyer (h : Fidele s) (a : Signaux) : Fidele (s.envoyer a) where
  propre := h.propre.envoyer a
  sorties ap := by
    have hflux : (s.envoyer a).fluxSorties ap = s.fluxSorties ap ++ [ap.mot (mot a)] := by
      simp [fluxSorties, Pont.envoyer, Link.publish, envoyer_mot h.propre]
    rw [hflux]
    show Follows ((repos :: (s.appels ++ [a])).map _) _
    rw [← List.cons_append, List.map_append]
    exact (h.sorties ap).concat _
  entrees := h.entrees
  courts := h.courts
  capteurs := h.capteurs

theorem Fidele.iterer (h : Fidele s) : Fidele s.iterer where
  propre := h.propre
  sorties ap := by
    have hflux : s.iterer.fluxSorties ap =
        (s.ecrits ap ++ (s.sorties ap).queue.map (BitVec.setWidth 16)) ++
          ap.mot s.actionneurs.receiver :: ap.mot s.actionneurs.receiver ::
            s.actionneurs.queue.map ap.mot := by
      simp [fluxSorties, Pont.iterer, Link.publish, Automate.mot]
    rw [hflux]
    exact (h.sorties ap).double
  entrees ap := by
    have hcourts : ∀ ap, (((s.entrees ap).receiver.setWidth 16).setWidth 32) = (s.entrees ap).receiver :=
      fun ap => h.courts ap _ List.mem_cons_self
    have hentree : ap.entree (concatenationEntrees (s.entrees .ap1).receiver (s.entrees .ap2).receiver) =
        (s.entrees ap).receiver.setWidth 16 := by
      rw [← hcourts .ap1, ← hcourts .ap2]
      exact entree_concatenationEntrees (fun ap => (s.entrees ap).receiver.setWidth 16) ap
    have hflux : s.iterer.fluxEntrees ap = s.capteurs.map ap.entree ++
        (s.entrees ap).receiver.setWidth 16 :: (s.entrees ap).receiver.setWidth 16 ::
          (s.entrees ap).queue.map (BitVec.setWidth 16) := by
      simp [fluxEntrees, Pont.iterer, hentree]
    rw [hflux]
    exact (h.entrees ap).double
  courts := h.courts
  capteurs w hw := by
    rcases List.mem_append.1 hw with hw | hw
    · exact h.capteurs w hw
    · refine ⟨(s.entrees .ap1).receiver.setWidth 16, (s.entrees .ap2).receiver.setWidth 16, ?_⟩
      rw [List.mem_singleton.1 hw, h.courts .ap1 _ List.mem_cons_self, h.courts .ap2 _ List.mem_cons_self]

/-- Words are lost on the way to the controllers, or go on. -/
theorem Fidele.of_sorties (h : Fidele s) (hcommande : s'.commande = s.commande)
    (hflux : ∀ ap, (s'.fluxSorties ap).Sublist (s.fluxSorties ap)) (happels : s'.appels = s.appels)
    (hentrees : s'.entrees = s.entrees) (hlus : s'.lus = s.lus) (hcapteurs : s'.capteurs = s.capteurs) :
    Fidele s' where
  propre := hcommande ▸ h.propre
  sorties ap := happels ▸ (h.sorties ap).sublist (hflux ap)
  entrees ap := by
    unfold fluxEntrees
    rw [hentrees, hlus, hcapteurs]
    exact h.entrees ap
  courts := hentrees ▸ h.courts
  capteurs := hcapteurs ▸ h.capteurs

/-- Words are lost on the way from a controller, or go on. -/
theorem Fidele.of_entrees (h : Fidele s) {ap : Automate} {l : Link (BitVec 32) (BitVec 32)}
    (hl : (l.receiver :: l.queue).Sublist ((s.entrees ap).receiver :: (s.entrees ap).queue)) :
    Fidele { s with entrees := Function.update s.entrees ap l } where
  propre := h.propre
  sorties := h.sorties
  entrees ap' := by
    show Follows (0#16 :: s.lus ap') (s.capteurs.map ap'.entree ++
      ((Function.update s.entrees ap l ap').receiver :: (Function.update s.entrees ap l ap').queue).map
        (BitVec.setWidth 16))
    rcases eq_or_ne ap' ap with rfl | hne
    · rw [Function.update_self]
      exact (h.entrees ap').sublist ((hl.map _).append_left _)
    · rw [Function.update_of_ne hne]
      exact h.entrees ap'
  courts ap' m hm := by
    dsimp only at hm
    rcases eq_or_ne ap' ap with rfl | hne
    · rw [Function.update_self] at hm
      exact h.courts ap' m (hl.subset hm)
    · rw [Function.update_of_ne hne] at hm
      exact h.courts ap' m hm
  capteurs := h.capteurs

/-- A word of the controller is read and published. -/
theorem Fidele.publier (h : Fidele s) (ap : Automate) (registre : BitVec 16) :
    Fidele { s with
      entrees := Function.update s.entrees ap ((s.entrees ap).publish (registre.setWidth 32))
      lus := Function.update s.lus ap (s.lus ap ++ [registre]) } where
  propre := h.propre
  sorties := h.sorties
  entrees ap' := by
    show Follows (0#16 :: Function.update s.lus ap (s.lus ap ++ [registre]) ap')
      (s.capteurs.map ap'.entree ++
        (Function.update s.entrees ap
          ((s.entrees ap).publish (registre.setWidth 32)) ap').receiver.setWidth 16 ::
          (Function.update s.entrees ap ((s.entrees ap).publish (registre.setWidth 32)) ap').queue.map
            (BitVec.setWidth 16))
    rcases eq_or_ne ap' ap with rfl | hne
    · have hregistre : (registre.setWidth 32).setWidth 16 = registre := by
        apply BitVec.eq_of_getLsbD_eq
        intro n hn
        simp [hn]
      rw [Function.update_self, Function.update_self, ← List.cons_append]
      have hconcat := (h.entrees ap').concat registre
      rw [fluxEntrees, List.append_assoc, List.cons_append] at hconcat
      simpa [Link.publish, hregistre] using hconcat
    · rw [Function.update_of_ne hne, Function.update_of_ne hne]
      exact h.entrees ap'
  courts ap' m hm := by
    dsimp only at hm
    rcases eq_or_ne ap' ap with rfl | hne
    · rw [Function.update_self] at hm
      rcases List.mem_append.1 (List.cons_append .. ▸ hm) with hm | hm
      · exact h.courts ap' m hm
      · rw [List.mem_singleton.1 hm]
        apply BitVec.eq_of_getLsbD_eq
        intro n hn
        simp [hn]
    · rw [Function.update_of_ne hne] at hm
      exact h.courts ap' m hm
  capteurs := h.capteurs

/-- A word comes to a controller. -/
theorem Fidele.callbackSorties (h : Fidele s) {ap : Automate} {l : Link (BitVec 32) (BitVec 16)}
    {m : BitVec 32} (hqueue : (s.sorties ap).queue = m :: l.queue) (hreceiver : l.receiver = m.setWidth 16)
    (reussie : Bool) :
    Fidele { s with
      sorties := Function.update s.sorties ap l
      ecrits := if reussie then Function.update s.ecrits ap (s.ecrits ap ++ [l.receiver])
        else s.ecrits } := by
  refine h.of_sorties rfl (fun ap' => ?_) rfl rfl rfl rfl
  unfold fluxSorties
  refine List.Sublist.append_right ?_ _
  dsimp only
  rcases eq_or_ne ap' ap with rfl | hne
  · rw [Function.update_self, hqueue, List.map_cons, ← hreceiver]
    cases reussie with
    | true =>
      rw [if_pos rfl, Function.update_self, List.append_assoc]
      exact List.Sublist.refl _
    | false =>
      rw [if_neg Bool.false_ne_true]
      exact (List.sublist_cons_self _ _).append_left _
  · rw [Function.update_of_ne hne]
    cases reussie with
    | true =>
      rw [if_pos rfl, Function.update_of_ne hne]
    | false => exact List.Sublist.refl _

/-- Every step. -/
theorem Fidele.etape {ev : Evenement} (h : Fidele s) (hs : s.etape ev = some s') : Fidele s' := by
  cases ev with
  | envoyer a =>
    cases hs
    exact h.envoyer a
  | iterer =>
    cases hs
    exact h.iterer
  | publier ap registre =>
    cases hs
    exact h.publier ap registre
  | callbackActionneurs =>
    obtain ⟨l, hl, rfl⟩ := Option.map_eq_some_iff.1 hs
    obtain ⟨m, hqueue, hreceiver⟩ := Link.deliver_spec hl
    refine h.of_sorties rfl (fun ap => ?_) rfl rfl rfl rfl
    unfold fluxSorties
    refine List.Sublist.append_left ?_ _
    rw [hqueue, hreceiver]
    exact List.sublist_cons_self _ _
  | perdreActionneurs i =>
    obtain ⟨l, hl, rfl⟩ := Option.map_eq_some_iff.1 hs
    obtain ⟨hqueue, hreceiver⟩ := Link.lose_spec hl
    refine h.of_sorties rfl (fun ap => ?_) rfl rfl rfl rfl
    unfold fluxSorties
    rw [hreceiver]
    exact List.Sublist.append_left ((hqueue.map _).cons_cons _) _
  | callbackSorties ap reussie =>
    obtain ⟨l, hl, rfl⟩ := Option.map_eq_some_iff.1 hs
    obtain ⟨m, hqueue, hreceiver⟩ := Link.deliver_spec hl
    exact h.callbackSorties hqueue hreceiver reussie
  | perdreSorties ap i =>
    obtain ⟨l, hl, rfl⟩ := Option.map_eq_some_iff.1 hs
    obtain ⟨hqueue, -⟩ := Link.lose_spec hl
    refine h.of_sorties rfl (fun ap' => ?_) rfl rfl rfl rfl
    unfold fluxSorties
    refine List.Sublist.append_right (List.Sublist.append_left ?_ _) _
    dsimp only
    rcases eq_or_ne ap' ap with rfl | hne
    · rw [Function.update_self]
      exact hqueue.map _
    · rw [Function.update_of_ne hne]
  | callbackEntrees ap =>
    obtain ⟨l, hl, rfl⟩ := Option.map_eq_some_iff.1 hs
    obtain ⟨m, hqueue, hreceiver⟩ := Link.deliver_spec hl
    refine h.of_entrees ?_
    rw [hqueue, hreceiver]
    exact List.sublist_cons_self _ _
  | perdreEntrees ap i =>
    obtain ⟨l, hl, rfl⟩ := Option.map_eq_some_iff.1 hs
    obtain ⟨hqueue, hreceiver⟩ := Link.lose_spec hl
    refine h.of_entrees ?_
    rw [hreceiver]
    exact hqueue.cons_cons _

theorem fidele_of_run {sorties : Automate → BitVec 16} {evenements : List Evenement}
    (h : Reactive.Run Avance (initial sorties) evenements s) : Fidele s := by
  have hstep : ∀ (_ : List Evenement) s ev s', Fidele s → Avance s ev s' → Fidele s' :=
    fun _ _ _ _ hs hetape => hs.etape hetape
  exact h.invariant (fidele_initial sorties) hstep

end Pont

open Pont

/-- The words written into a controller carry the signals of calls of `Envoyer`, in the order of the
calls, whatever the topics lose, however the nodes are scheduled and whichever writes fail: calls
are skipped or repeated, never taken back, and no word mixes two of them. -/
theorem sorties_dans_l_ordre {sorties : Automate → BitVec 16} {evenements : List Evenement} {s : Pont}
    (h : Reactive.Run Avance (initial sorties) evenements s) (ap : Automate) :
    ∃ appels, Follows (repos :: s.appels) appels ∧
      List.Forall₂ (fun mot a => ∀ n < 16, mot.getLsbD n = a.signal (ap.decalage + n))
        (s.ecrits ap) appels := by
  have hflux := (fidele_of_run h).sorties ap
  have hecrits : (s.ecrits ap).Sublist (s.fluxSorties ap) := by
    unfold fluxSorties
    rw [List.append_assoc]
    exact List.sublist_append_left _ _
  obtain ⟨appels, hfollows, happels⟩ := (hflux.sublist hecrits).map_inv
  refine ⟨appels, hfollows, ?_⟩
  rw [← happels, List.forall₂_map_left_iff, List.forall₂_same]
  intro a _ n hn
  rw [ap.getLsbD_mot _ hn, getLsbD_mot]

/-- The words published for the sensors are made of a word read in each controller, in the order in
which they were read there. -/
theorem entrees_dans_l_ordre {sorties : Automate → BitVec 16} {evenements : List Evenement} {s : Pont}
    (h : Reactive.Run Avance (initial sorties) evenements s) :
    (∀ ap, ∃ registres, Follows (0#16 :: s.lus ap) registres ∧
      List.Forall₂ (fun (CAPTEURS : BitVec 64) registre =>
          ∀ n < 16, CAPTEURS.getLsbD (ap.decalage + n) = registre.getLsbD n) s.capteurs registres) ∧
      ∀ CAPTEURS ∈ s.capteurs, 0 ≤ CAPTEURS.toInt ∧ CAPTEURS.toInt ≤ 2 ^ 32 - 1 := by
  have hfidele := fidele_of_run h
  refine ⟨fun ap => ⟨s.capteurs.map ap.entree, ?_, ?_⟩, fun CAPTEURS hmem => ?_⟩
  · exact (hfidele.entrees ap).sublist (List.sublist_append_left _ _)
  · rw [List.forall₂_map_right_iff, List.forall₂_same]
    intro CAPTEURS _ n hn
    exact (ap.getLsbD_entree CAPTEURS hn).symm
  · obtain ⟨AP1, AP2, rfl⟩ := hfidele.capteurs CAPTEURS hmem
    refine Registre.toInt_of_toNat_lt (Nat.lt_pow_two_of_testBit _ fun n hn => ?_) (by norm_num)
    have hbit := getLsbD_concatenationEntrees AP1 AP2 n
    rwa [if_neg (by omega), BitVec.getLsbD_of_ge AP2 _ (by omega)] at hbit

/-- A call reaches the first controller, while its other word waits. -/
theorem sorties_dans_l_ordre_premiere : ∃ s, Reactive.Run Avance (initial fun _ => 0#16)
      [.envoyer { repos with RxD := fun _ => true }, .callbackActionneurs, .iterer,
        .callbackSorties .ap1 true] s ∧
    (s.ecrits .ap1).length = 1 ∧ ∃ appels, Follows (repos :: s.appels) appels ∧
      List.Forall₂ (fun mot a => ∀ n < 16, mot.getLsbD n = a.signal (Automate.decalage .ap1 + n))
        (s.ecrits .ap1) appels := by
  have hrun : Reactive.Run Avance (initial fun _ => 0#16)
      [.envoyer { repos with RxD := fun _ => true }, .callbackActionneurs, .iterer,
        .callbackSorties .ap1 true] _ :=
    (((Reactive.Run.nil.snoc rfl).snoc rfl).snoc rfl).snoc rfl
  exact ⟨_, hrun, rfl, sorties_dans_l_ordre hrun .ap1⟩

/-- A word read in the second controller is published. -/
theorem entrees_dans_l_ordre_premiere : ∃ s, Reactive.Run Avance (initial fun _ => 0#16)
      [.publier .ap2 0xFFFF#16, .callbackEntrees .ap2, .iterer] s ∧
    s.capteurs = [0xFFFF0000#64] ∧
      ∀ CAPTEURS ∈ s.capteurs, 0 ≤ CAPTEURS.toInt ∧ CAPTEURS.toInt ≤ 2 ^ 32 - 1 := by
  have hrun : Reactive.Run Avance (initial fun _ => 0#16)
      [.publier .ap2 0xFFFF#16, .callbackEntrees .ap2, .iterer] _ :=
    ((Reactive.Run.nil.snoc rfl).snoc rfl).snoc rfl
  exact ⟨_, hrun, by decide, (entrees_dans_l_ordre hrun).2⟩

/-! ## At rest -/

/-- The last call of `Envoyer`. -/
def Pont.dernier (s : Pont) : Signaux := s.appels.getLastD repos

/-- The newest word under way, or `ACTIONNEURS` when there is none, is that of the last call. -/
def Pont.AJour (s : Pont) : Prop := Link.Fresh (fun m c => c = m) (mot s.dernier) s.actionneurs

section Repos

variable {s s' : Pont} {ap : Automate}

theorem aJour_etape {ev : Evenement} (hpropre : s.commande.Propre) (h : s.AJour)
    (hs : s.etape ev = some s') : s'.AJour := by
  cases ev with
  | envoyer a =>
    cases hs
    have hdernier : (s.envoyer a).dernier = a := List.getLastD_concat
    unfold Pont.AJour
    rw [hdernier, ← envoyer_mot hpropre a]
    exact Link.fresh_publish _ _
  | callbackActionneurs =>
    obtain ⟨l, hl, rfl⟩ := Option.map_eq_some_iff.1 hs
    exact Link.Fresh.deliver (fun _ _ => rfl) h hl
  | perdreActionneurs i =>
    obtain ⟨l, hl, rfl⟩ := Option.map_eq_some_iff.1 hs
    exact Link.Fresh.lose h hl
  | iterer | publier ap registre =>
    cases hs
    exact h
  | callbackSorties | callbackEntrees | perdreSorties | perdreEntrees =>
    obtain ⟨l, hl, rfl⟩ := Option.map_eq_some_iff.1 hs
    exact h

/-- After an iteration that started with nothing under way, and while nothing is sent: what comes to
a controller is the word of the last call, and `ecrite` says that it was written when it came. -/
structure Pont.Calme (a : Signaux) (ap : Automate) (ecrite : Prop) (s : Pont) : Prop where
  appels : s.dernier = a
  actionneurs : s.actionneurs = { queue := [], receiver := mot a }
  sorties : Link.Fresh (fun m c => c = m.setWidth 16) (ap.sortiesApi (mot a)) (s.sorties ap)
  ecrits : ecrite → (s.ecrits ap).getLast? = some (s.sorties ap).receiver

/-- The last reception of a controller was written. -/
def Ecrite (ap : Automate) (evenements : List Evenement) : Prop :=
  Reactive.Since (· = .callbackSorties ap true) (· ≠ .callbackSorties ap false) evenements

theorem Ecrite.of_concat {evenements : List Evenement} {ev : Evenement}
    (h : Ecrite ap (evenements ++ [ev])) :
    ev = .callbackSorties ap true ∨ ev ≠ .callbackSorties ap false ∧ Ecrite ap evenements := by
  obtain ⟨past, l, recent, htrace, rfl, hrecent⟩ := h
  induction recent using List.reverseRecOn with
  | nil =>
    obtain ⟨-, hev⟩ := List.append_inj' htrace rfl
    exact .inl (List.singleton_inj.1 hev)
  | append_singleton recent l _ =>
    rw [← List.cons_append, ← List.append_assoc] at htrace
    obtain ⟨rfl, hev⟩ := List.append_inj' htrace rfl
    obtain rfl := List.singleton_inj.1 hev
    refine .inr ⟨hrecent ev (by simp), past, _, recent, rfl, rfl, fun l hl => hrecent l (by simp [hl])⟩

/-- What is not a reception of the controller. -/
theorem Pont.Calme.autre {a : Signaux} {evenements : List Evenement} {ev : Evenement}
    (h : s.Calme a ap (Ecrite ap evenements)) (hev : ev ≠ .callbackSorties ap true)
    (happels : s'.appels = s.appels) (hactionneurs : s'.actionneurs = s.actionneurs)
    (hsorties : Link.Fresh (fun m c => c = m.setWidth 16) (ap.sortiesApi (mot a)) (s'.sorties ap))
    (hreceiver : (s'.sorties ap).receiver = (s.sorties ap).receiver)
    (hecrits : s'.ecrits ap = s.ecrits ap) : s'.Calme a ap (Ecrite ap (evenements ++ [ev])) where
  appels := by
    rw [Pont.dernier, happels]
    exact h.appels
  actionneurs := hactionneurs.trans h.actionneurs
  sorties := hsorties
  ecrits hecrite := by
    rw [hecrits, hreceiver]
    exact h.ecrits (hecrite.of_concat.resolve_left hev).2

theorem Pont.Calme.etape {a : Signaux} {evenements : List Evenement} {ev : Evenement}
    (h : s.Calme a ap (Ecrite ap evenements)) (hcalme : ∀ a, ev ≠ .envoyer a)
    (hs : s.etape ev = some s') : s'.Calme a ap (Ecrite ap (evenements ++ [ev])) := by
  cases ev with
  | envoyer a' => exact absurd rfl (hcalme a')
  | callbackActionneurs =>
    obtain ⟨l, hl, -⟩ := Option.map_eq_some_iff.1 hs
    rw [h.actionneurs] at hl
    cases hl
  | perdreActionneurs i =>
    obtain ⟨l, hl, -⟩ := Option.map_eq_some_iff.1 hs
    rw [h.actionneurs] at hl
    cases hl
  | iterer =>
    cases hs
    refine h.autre (fun hev => by cases hev) rfl rfl ?_ rfl rfl
    show Link.Fresh _ _ ((s.sorties ap).publish (ap.sortiesApi s.actionneurs.receiver))
    rw [h.actionneurs]
    exact Link.fresh_publish _ _
  | publier ap' registre =>
    cases hs
    exact h.autre (fun hev => by cases hev) rfl rfl h.sorties rfl rfl
  | callbackEntrees ap' =>
    obtain ⟨l, -, rfl⟩ := Option.map_eq_some_iff.1 hs
    exact h.autre (fun hev => by cases hev) rfl rfl h.sorties rfl rfl
  | perdreEntrees ap' i =>
    obtain ⟨l, -, rfl⟩ := Option.map_eq_some_iff.1 hs
    exact h.autre (fun hev => by cases hev) rfl rfl h.sorties rfl rfl
  | perdreSorties ap' i =>
    obtain ⟨l, hl, rfl⟩ := Option.map_eq_some_iff.1 hs
    have hspec := (Link.lose_spec hl).2
    rcases eq_or_ne ap ap' with rfl | hne
    · refine h.autre (fun hev => by cases hev) rfl rfl ?_ ?_ rfl
      · dsimp only
        rw [Function.update_self]
        exact h.sorties.lose hl
      · dsimp only
        rw [Function.update_self, hspec]
    · refine h.autre (fun hev => by cases hev) rfl rfl ?_ ?_ rfl
      · dsimp only
        rw [Function.update_of_ne hne]
        exact h.sorties
      · dsimp only
        rw [Function.update_of_ne hne]
  | callbackSorties ap' reussie =>
    obtain ⟨l, hl, rfl⟩ := Option.map_eq_some_iff.1 hs
    rcases eq_or_ne ap ap' with rfl | hne
    · refine ⟨h.appels, h.actionneurs, ?_, fun hecrite => ?_⟩
      · dsimp only
        rw [Function.update_self]
        exact h.sorties.deliver (fun _ _ => rfl) hl
      · have hreussie : reussie = true := by
          rcases hecrite.of_concat with hev | ⟨hev, -⟩
          · cases hev
            rfl
          · cases reussie with
            | true => rfl
            | false => exact absurd rfl hev
        dsimp only
        rw [if_pos hreussie, Function.update_self, Function.update_self]
        exact List.getLast?_concat
    · refine h.autre (fun hev => ?_) rfl rfl ?_ ?_ ?_
      · cases hev
        exact hne rfl
      · dsimp only
        rw [Function.update_of_ne hne]
        exact h.sorties
      · dsimp only
        rw [Function.update_of_ne hne]
      · dsimp only
        cases reussie with
        | true =>
          rw [if_pos rfl, Function.update_of_ne hne]
        | false => rfl

end Repos

/-- At rest the controllers hold the signals of the last call of `Envoyer`: once `communication` has
made an iteration with nothing left to receive and no call has come since, a controller whose topic
is drained and whose last word was written holds that call, at its half of the bits. -/
theorem sorties_au_repos {sorties : Automate → BitVec 16}
    {past recent : List (Reactive.Transition Pont Evenement)} {t : Reactive.Transition Pont Evenement}
    {s : Pont} (h : Reactive.Run (Reactive.Recorded Avance) (initial sorties) (past ++ t :: recent) s)
    (hiterer : t.label = .iterer) (hrecu : t.before.actionneurs.queue = [])
    (hcalme : ∀ e ∈ recent, ∀ a, e.label ≠ .envoyer a) {ap : Automate}
    (hvide : (s.sorties ap).queue = [])
    (hecrite : Ecrite ap (recent.map Reactive.Transition.label)) :
    ∃ mot, (s.ecrits ap).getLast? = some mot ∧
      ∀ n < 16, mot.getLsbD n = s.dernier.signal (ap.decalage + n) := by
  obtain ⟨hpast, hetape⟩ := h.split
  have haJour : t.before.AJour := by
    have hinit : (initial sorties).AJour := .inr ⟨rfl, mot_repos.symm⟩
    have hstep : ∀ (_ : List Evenement) s ev s', Pont.Fidele s ∧ s.AJour → Avance s ev s' →
        Pont.Fidele s' ∧ s'.AJour := by
      rintro _ s ev s' ⟨hfidele, haJour⟩ hs
      exact ⟨hfidele.etape hs, aJour_etape hfidele.propre haJour hs⟩
    exact (hpast.labels.invariant ⟨fidele_initial sorties, hinit⟩ hstep).2
  have hreceiver : t.before.actionneurs.receiver = mot t.before.dernier := Link.Fresh.arrived haJour hrecu
  -- the word is on its way to the controller
  have hdebut : t.after.Calme t.before.dernier ap (Ecrite ap []) := by
    rw [hiterer] at hetape
    have hafter : t.after = t.before.iterer := (Option.some.inj hetape).symm
    rw [hafter]
    refine ⟨rfl, ?_, ?_, fun hnil => ?_⟩
    · rw [← hreceiver, ← hrecu]
      rfl
    · rw [← hreceiver]
      exact Link.fresh_publish _ _
    · obtain ⟨past, l, recent, hnil, -⟩ := hnil
      simp at hnil
  have hfin : s.Calme t.before.dernier ap (Ecrite ap (recent.map Reactive.Transition.label)) := by
    have hstep : ∀ recent s e s', ((∀ e ∈ recent, ∀ a, e.label ≠ .envoyer a) →
          s.Calme t.before.dernier ap (Ecrite ap (recent.map Reactive.Transition.label))) →
        Reactive.Recorded Avance s e s' → (∀ e' ∈ recent ++ [e], ∀ a, e'.label ≠ .envoyer a) →
          s'.Calme t.before.dernier ap (Ecrite ap ((recent ++ [e]).map Reactive.Transition.label)) := by
      rintro recent s e s' hs ⟨rfl, -, hetape⟩ hcalme
      rw [List.map_append]
      exact (hs fun e' he' => hcalme e' (by simp [he'])).etape (hcalme e (by simp)) hetape
    exact h.rest.invariant (fun _ => hdebut) hstep hcalme
  refine ⟨_, hfin.ecrits hecrite, fun n hn => ?_⟩
  have hbit : ((s.sorties ap).receiver).getLsbD n = (ap.mot (mot t.before.dernier)).getLsbD n := by
    rw [hfin.sorties.arrived hvide]
    rfl
  rw [hbit, ap.getLsbD_mot _ hn, getLsbD_mot, hfin.appels]

/-- The same call once both nodes are at rest. -/
theorem sorties_au_repos_premiere : ∃ s : Pont, ∃ mot, (s.ecrits .ap1).getLast? = some mot ∧
    ∀ n < 16, mot.getLsbD n = s.dernier.signal (Automate.decalage .ap1 + n) := by
  let s₀ : Pont := initial fun _ => 0#16
  let a : Signaux := { repos with RxD := fun _ => true }
  let s₁ := s₀.envoyer a
  let s₂ : Pont := { s₁ with actionneurs := { queue := [], receiver := mot a } }
  let s₃ := s₂.iterer
  let l : Link (BitVec 32) (BitVec 16) :=
    { queue := [], receiver := (Automate.sortiesApi (mot a) .ap1).setWidth 16 }
  let s₄ : Pont := { s₃ with
    sorties := Function.update s₃.sorties .ap1 l
    ecrits := Function.update s₃.ecrits .ap1 [l.receiver] }
  let t₁ : Reactive.Transition Pont Evenement := ⟨s₀, .envoyer a, s₁⟩
  let t₂ : Reactive.Transition Pont Evenement := ⟨s₁, .callbackActionneurs, s₂⟩
  let t₃ : Reactive.Transition Pont Evenement := ⟨s₂, .iterer, s₃⟩
  let t₄ : Reactive.Transition Pont Evenement := ⟨s₃, .callbackSorties .ap1 true, s₄⟩
  have hrun : Reactive.Run (Reactive.Recorded Avance) s₀ ([t₁, t₂] ++ t₃ :: [t₄]) s₄ :=
    (((Reactive.Run.nil.snoc (l := t₁) ⟨rfl, rfl, rfl⟩).snoc (l := t₂) ⟨rfl, rfl, rfl⟩).snoc
      (l := t₃) ⟨rfl, rfl, rfl⟩).snoc (l := t₄) ⟨rfl, rfl, rfl⟩
  have hecrite : Ecrite .ap1 [.callbackSorties .ap1 true] :=
    ⟨[], _, [], rfl, rfl, fun _ h => absurd h List.not_mem_nil⟩
  refine ⟨s₄, sorties_au_repos hrun rfl rfl ?_ rfl hecrite⟩
  intro e he a' hev
  rw [List.mem_singleton.1 he] at hev
  cases hev

end Communication
