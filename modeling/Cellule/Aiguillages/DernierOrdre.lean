import Cellule.Aiguillages.Aiguillage

/-! # The last order for a switch

One switch is followed through what is known of it, oldest first: the sensor image, the words on
their way, and its position. Orders for one switch that do not nest with opposite ones leave the
switch on the side of the last of them. An opposite order received inside a callback is ignored, or
undone when the outer callback publishes its own side again.
-/

namespace Aiguillages

open Reactive

theorem Cote.oppose_ne (c : Cote) : c.oppose ≠ c := by
  cases c <;> decide

theorem Cote.eq_oppose_of_ne {c d : Cote} (h : d ≠ c) : d = c.oppose := by
  cases c <;> cases d <;> first | rfl | exact absurd rfl h

/-! ## One switch -/

/-- No callback waits for the switch: everything shows its side `f`. -/
structure Calme (f : Cote) (vues : List (Option Cote)) (mouvements : List Cote) (cible : Cote) :
    Prop where
  vues_eq : ∀ v ∈ vues, v = some f
  mouvements_eq : ∀ c ∈ mouvements, c = f
  cible_eq : cible = f

/-- Callbacks wait for the side `t` of the switch. As long as the switch has not received the first
movement to `t`, everything shows the other side; afterwards it only goes to `t`, and what shows `t`
is followed by what shows `t`. -/
inductive Appel (t : Cote) (vues : List (Option Cote)) (mouvements : List Cote) (cible : Cote) : Prop
  | avant (avant : List Cote) (apres : List Cote)
      (vues_eq : ∀ v ∈ vues, v = some t.oppose) (cible_eq : cible = t.oppose)
      (mouvements_eq : mouvements = avant ++ t :: apres) (avant_eq : ∀ c ∈ avant, c = t.oppose)
      (apres_eq : ∀ c ∈ apres, c = t)
  | apres (vues_croissantes : vues.Pairwise fun v v' => v = some t → v' = some t)
      (cible_eq : cible = t) (mouvements_eq : ∀ c ∈ mouvements, c = t)

/-- Where a switch goes when it receives a movement. -/
def bouger (position : Option Cote) (c : Cote) : Option Cote :=
  if position = some c then some c else none

section

variable {f t cible c : Cote} {vues : List (Option Cote)} {position v : Option Cote}
  {mouvements : List Cote}

theorem Calme.oublier (h : Calme f (v :: vues) mouvements cible) : Calme f vues mouvements cible :=
  ⟨fun w hw => h.vues_eq w (by simp [hw]), h.mouvements_eq, h.cible_eq⟩

theorem Appel.oublier (h : Appel t (v :: vues) mouvements cible) : Appel t vues mouvements cible := by
  cases h with
  | avant a b hv hc hm ha hb => exact .avant a b (fun w hw => hv w (by simp [hw])) hc hm ha hb
  | apres hv hc hm => exact .apres hv.of_cons hc hm

theorem Calme.mesurer (h : Calme f (vues ++ [position]) mouvements cible) :
    Calme f (vues ++ [position] ++ [position]) mouvements cible := by
  refine ⟨?_, h.mouvements_eq, h.cible_eq⟩
  intro v hv
  rcases List.mem_append.1 hv with hv | hv
  · exact h.vues_eq v hv
  · rw [List.mem_singleton.1 hv]
    exact h.vues_eq position (by simp)

theorem Appel.mesurer (h : Appel t (vues ++ [position]) mouvements cible) :
    Appel t (vues ++ [position] ++ [position]) mouvements cible := by
  cases h with
  | avant a b hv hc hm ha hb =>
    refine .avant a b ?_ hc hm ha hb
    intro v hmem
    rcases List.mem_append.1 hmem with hmem | hmem
    · exact hv v hmem
    · rw [List.mem_singleton.1 hmem]
      exact hv position (by simp)
  | apres hv hc hm =>
    refine .apres ?_ hc hm
    rw [List.pairwise_append] at hv ⊢
    refine ⟨List.pairwise_append.2 hv, List.pairwise_singleton _ _, ?_⟩
    intro v hmem w hw
    rw [List.mem_singleton.1 hw]
    rcases List.mem_append.1 hmem with hmem | hmem
    · exact hv.2.2 v hmem position (by simp)
    · rw [List.mem_singleton.1 hmem]
      exact id

theorem Calme.recevoir (h : Calme f (vues ++ [position]) (c :: mouvements) cible) :
    Calme f (vues ++ [bouger position c]) mouvements c := by
  have hc : c = f := h.mouvements_eq c (by simp)
  have hposition : position = some f := h.vues_eq position (by simp)
  refine ⟨?_, fun d hd => h.mouvements_eq d (by simp [hd]), hc⟩
  unfold bouger
  rw [hc, if_pos hposition]
  exact hposition ▸ h.vues_eq

theorem Appel.recevoir (h : Appel t (vues ++ [position]) (c :: mouvements) cible) :
    Appel t (vues ++ [bouger position c]) mouvements c := by
  have hne := t.oppose_ne
  cases h with
  | avant a b hv hc hm ha hb =>
    have hposition : position = some t.oppose := hv position (by simp)
    cases a with
    | nil =>
      -- the first movement to `t`: the switch leaves its side
      obtain ⟨rfl, rfl⟩ := List.cons.inj hm
      refine .apres ?_ rfl hb
      unfold bouger
      rw [hposition, if_neg (by simpa using hne)]
      rw [List.pairwise_append]
      refine ⟨?_, List.pairwise_singleton _ _, ?_⟩
      · apply List.Pairwise.imp_of_mem (R := fun _ _ => True)
        · intro v w hv' hw' _ hvt
          have hv'' := hv v (List.mem_append_left _ hv')
          rw [hvt] at hv''
          exact absurd (Option.some.inj hv'').symm hne
        · exact List.pairwise_of_forall fun _ _ => trivial
      · intro v hv' w _ hvt
        have hv'' := hv v (List.mem_append_left _ hv')
        rw [hvt] at hv''
        exact absurd (Option.some.inj hv'').symm hne
    | cons d a =>
      obtain ⟨rfl, rfl⟩ := List.cons.inj hm
      have hd : c = t.oppose := ha c (by simp)
      refine .avant a b ?_ hd rfl (fun e he => ha e (by simp [he])) hb
      unfold bouger
      rw [hd, if_pos hposition]
      exact hposition ▸ hv
  | apres hv hc hm =>
    have hct : c = t := hm c (by simp)
    refine .apres ?_ hct fun d hd => hm d (by simp [hd])
    rw [List.pairwise_append] at hv ⊢
    refine ⟨hv.1, List.pairwise_singleton _ _, ?_⟩
    intro v hmem w hw hvt
    rw [List.mem_singleton.1 hw]
    have hposition := hv.2.2 v hmem position (by simp) hvt
    unfold bouger
    rw [hct, if_pos hposition]

theorem Appel.arriver (h : Appel t (vues ++ [none]) mouvements cible) :
    Appel t (vues ++ [some cible]) mouvements cible := by
  cases h with
  | avant a b hv hc hm ha hb => exact absurd (hv none (by simp)) (by simp)
  | apres hv hc hm =>
    refine .apres ?_ hc hm
    rw [List.pairwise_append] at hv ⊢
    refine ⟨hv.1, List.pairwise_singleton _ _, ?_⟩
    intro v hmem w hw _
    rw [List.mem_singleton.1 hw, hc]

/-- An order for the side `t`, while callbacks wait for it. -/
theorem Appel.publier (h : Appel t vues mouvements cible) :
    Appel t vues (mouvements ++ [t]) cible := by
  cases h with
  | avant a b hv hc hm ha hb =>
    refine .avant a (b ++ [t]) hv hc ?_ ha ?_
    · rw [hm, List.append_assoc, List.cons_append]
    · intro c hmem
      rcases List.mem_append.1 hmem with hmem | hmem
      · exact hb c hmem
      · exact List.mem_singleton.1 hmem
  | apres hv hc hm =>
    refine .apres hv hc ?_
    intro c hmem
    rcases List.mem_append.1 hmem with hmem | hmem
    · exact hm c hmem
    · exact List.mem_singleton.1 hmem

/-- An order for the other side, when no callback waits. -/
theorem Calme.appeler (h : Calme t.oppose vues mouvements cible) :
    Appel t vues (mouvements ++ [t]) cible :=
  .avant mouvements [] h.vues_eq h.cible_eq rfl h.mouvements_eq (by simp)

/-- The callbacks end when the image shows their side. -/
theorem Appel.finir (h : Appel t (some t :: vues) mouvements cible) :
    Calme t (some t :: vues) mouvements cible := by
  cases h with
  | avant a b hv hc hm ha hb =>
    exact absurd (Option.some.inj (hv (some t) (by simp))).symm t.oppose_ne
  | apres hv hc hm =>
    refine ⟨?_, hm, hc⟩
    intro v hmem
    rcases List.mem_cons.1 hmem with rfl | hmem
    · rfl
    · exact (List.pairwise_cons.1 hv).1 v hmem rfl

end

/-! ## What the node and the words show of one switch -/

/-- The side that two bits show. -/
def cote (d g : Bool) : Option Cote := if d then some .droite else if g then some .gauche else none

/-- What a sensor word shows. -/
def lire (n : ℕ) (w : BitVec 32) : Option Cote := cote (w.getLsbD (2 * n - 2)) (w.getLsbD (2 * n - 1))

/-- What the sensor image of the node shows. -/
def image (n : ℕ) (a : Aiguillage) : Option Cote := cote (a.aigD n) (a.aigG n)

/-- A word shows one side at most. -/
def Lisible (n : ℕ) (w : BitVec 32) : Prop :=
  w.getLsbD (2 * n - 2) = false ∨ w.getLsbD (2 * n - 1) = false

theorem butee_iff {a : Aiguillage} {n : ℕ} (h : a.aigD n = false ∨ a.aigG n = false) (c : Cote) :
    a.butee c n = true ↔ image n a = some c := by
  unfold image cote
  cases c <;> cases hd : a.aigD n <;> cases hg : a.aigG n <;> simp_all [Aiguillage.butee]

theorem lire_mot {n : ℕ} (hn₁ : 1 ≤ n) (hn₂ : n ≤ 11) (p : ℕ → Option Cote) :
    lire n (mot p) = p n ∧ Lisible n (mot p) := by
  have hd : (mot p).getLsbD (2 * n - 2) = decide (p n = some .droite) := by
    have h₁ : (2 * n - 2) / 2 + 1 = n := by omega
    have h₂ : (2 * n - 2) % 2 = 0 := by omega
    have h₃ : 2 * n - 2 < 24 := by omega
    have h₄ : 2 * n - 2 < 32 := by omega
    unfold mot
    rw [BitVec.getLsbD_setWidth, BitVec.getLsbD_ofBoolListLE, List.getD_eq_getElem?_getD]
    simp [h₁, h₂, h₃, h₄]
  have hg : (mot p).getLsbD (2 * n - 1) = decide (p n = some .gauche) := by
    have h₁ : (2 * n - 1) / 2 + 1 = n := by omega
    have h₂ : (2 * n - 1) % 2 = 1 := by omega
    have h₃ : 2 * n - 1 < 24 := by omega
    have h₄ : 2 * n - 1 < 32 := by omega
    unfold mot
    rw [BitVec.getLsbD_setWidth, BitVec.getLsbD_ofBoolListLE, List.getD_eq_getElem?_getD]
    simp [h₁, h₂, h₃, h₄]
  unfold lire Lisible
  rw [hd, hg]
  cases p n with
  | none => decide
  | some c => cases c <;> decide

/-- What is seen of the switch before its position, oldest first. Before a first word is handled,
the image shows nothing of the switch. -/
def Monde.vues (m : Monde) (n : ℕ) : List (Option Cote) :=
  (if m.recus = 0 then [] else [image n m.noeud]) ++ m.rapports.map (lire n)

/-- Where one switch stands: `attend` are the sides that callbacks wait for, `dernier` the last
order. -/
def Phase (connu : Prop) (attend : Cote → Prop) (dernier : Option Cote) (vues : List (Option Cote))
    (mouvements : List Cote) (cible : Cote) : Prop :=
  (∃ f, (∀ c, ¬attend c) ∧ (dernier = none ∨ dernier = some f) ∧ Calme f vues mouvements cible) ∨
    ∃ t, connu ∧ attend t ∧ (∀ c, attend c → c = t) ∧ dernier = some t ∧
      Appel t vues mouvements cible

/-- The invariant of one switch. -/
structure Suivi (n : ℕ) (trace : List Evenement) (m : Monde) : Prop where
  lisibles : ∀ w ∈ m.rapports, Lisible n w
  image_lisible : 0 < m.recus → m.noeud.aigD n = false ∨ m.noeud.aigG n = false
  phase : Phase (0 < m.recus) (fun c => (c, n) ∈ m.noeud.attentes) (dernierOrdre n trace)
    (m.vues n ++ [m.position n]) (m.mouvements n) (m.cible n)

/-- The condition on the orders: the node knows the switches, and no callback waits for the other
side of the switch. -/
def OrdreSeul (m : Monde) : Evenement → Prop
  | .ordre c n => 0 < m.recus ∧ (c.oppose, n) ∉ m.noeud.attentes
  | _ => True

instance (m : Monde) (e : Evenement) : Decidable (OrdreSeul m e) := by
  unfold OrdreSeul
  split <;> infer_instance

theorem dernierOrdre_snoc (n : ℕ) (trace : List Evenement) (e : Evenement) :
    dernierOrdre n (trace ++ [e]) = (e.ordrePour n).or (dernierOrdre n trace) := by
  unfold dernierOrdre
  rw [List.filterMap_append]
  cases h : e.ordrePour n with
  | none => simp [h]
  | some c => simp [h]

theorem mouvements_publier (m : Monde) (r : Aiguillage × List Message) (n : ℕ) :
    (m.publier r).mouvements n = m.mouvements n ++ r.2.filterMap (Message.pour n) :=
  List.filterMap_append

/-- When words were handled, the image is what is seen first. -/
theorem vues_of_recus {m : Monde} (h : 0 < m.recus) (n : ℕ) :
    m.vues n = image n m.noeud :: m.rapports.map (lire n) := by
  unfold Monde.vues
  rw [if_neg (by omega)]
  rfl

namespace Suivi

variable {n : ℕ} {trace : List Evenement} {m m' : Monde}

/-- What happens to other switches changes nothing. -/
theorem autre (h : Suivi n trace m) {e : Evenement} (he : e.ordrePour n = none)
    (hrapports : m'.rapports = m.rapports) (hrecus : m'.recus = m.recus)
    (hD : m'.noeud.aigD = m.noeud.aigD) (hG : m'.noeud.aigG = m.noeud.aigG)
    (hattentes : ∀ c, (c, n) ∈ m'.noeud.attentes ↔ (c, n) ∈ m.noeud.attentes)
    (hmouvements : m'.mouvements n = m.mouvements n) (hposition : m'.position n = m.position n)
    (hcible : m'.cible n = m.cible n) : Suivi n (trace ++ [e]) m' := by
  refine ⟨?_, ?_, ?_⟩
  · rw [hrapports]
    exact h.lisibles
  · rw [hrecus, hD, hG]
    exact h.image_lisible
  · have hvues : m'.vues n = m.vues n := by
      unfold Monde.vues image
      rw [hrapports, hrecus, hD, hG]
    rw [dernierOrdre_snoc, he, Option.none_or, hvues, hmouvements, hposition, hcible, hrecus]
    simp only [hattentes]
    exact h.phase

/-- The node runs and publishes; it keeps its image. -/
theorem publier (h : Suivi n trace m) {e : Evenement} {attentes : List (Cote × ℕ)}
    {publies : List Message}
    (hphase : Phase (0 < m.recus) (fun c => (c, n) ∈ attentes) (dernierOrdre n (trace ++ [e]))
      (m.vues n ++ [m.position n]) (m.mouvements n ++ publies.filterMap (Message.pour n))
      (m.cible n)) :
    Suivi n (trace ++ [e]) (m.publier ({ m.noeud with attentes }, publies)) := by
  refine ⟨h.lisibles, h.image_lisible, ?_⟩
  rw [mouvements_publier]
  exact hphase

/-- An order is received. -/
theorem ordre (h : Suivi n trace m) {c : Cote} {k : ℕ} (hC : OrdreSeul m (.ordre c k)) :
    Suivi n (trace ++ [.ordre c k]) (m.publier (m.noeud.ordreCallback c k)) := by
  obtain ⟨hconnu, hseul⟩ := hC
  by_cases hk : k = n
  · subst hk
    have hbutee := butee_iff (h.image_lisible hconnu) c
    have hvues := vues_of_recus hconnu k
    have hdernier : dernierOrdre k (trace ++ [.ordre c k]) = some c := by
      rw [dernierOrdre_snoc]
      simp [Evenement.ordrePour]
    -- the callbacks that wait are all for this side
    have hcote : ∀ t, (t, k) ∈ m.noeud.attentes → t = c := by
      intro t ht
      by_contra hne
      rw [Cote.eq_oppose_of_ne hne] at ht
      exact hseul ht
    unfold Aiguillage.ordreCallback
    by_cases hb : m.noeud.butee c k = true
    -- the order is ignored: the image already shows its side
    · rw [if_pos hb]
      refine h.publier ?_
      rw [List.filterMap_nil, List.append_nil, hdernier]
      rcases h.phase with ⟨f, hsans, -, hcalme⟩ | ⟨t, -, ht, hseuls, -, happel⟩
      · have hf : f = c := by
          have himage := hcalme.vues_eq (image k m.noeud) (by simp [hvues])
          rw [hbutee.1 hb] at himage
          exact (Option.some.inj himage).symm
        exact .inl ⟨f, hsans, .inr (by rw [hf]), hcalme⟩
      · exact .inr ⟨t, hconnu, ht, hseuls, by rw [hcote t ht], happel⟩
    -- the order is published, and its callback waits for the stop
    · rw [if_neg hb]
      refine h.publier ?_
      have hpour : [Message.deverouille k, .mouvement c k].filterMap (Message.pour k) = [c] := by
        have hk : Message.pour k (.mouvement c k) = some c := if_pos rfl
        rw [List.filterMap_cons_none rfl, List.filterMap_cons_some hk]
        rfl
      rw [hpour, hdernier]
      rcases h.phase with ⟨f, hsans, -, hcalme⟩ | ⟨t, -, ht, hseuls, -, happel⟩
      · have hf : f = c.oppose := by
          apply Cote.eq_oppose_of_ne
          rintro rfl
          exact hb (hbutee.2 (hcalme.vues_eq _ (by simp [hvues])))
        subst hf
        refine .inr ⟨c, hconnu, List.mem_cons_self, ?_, rfl, hcalme.appeler⟩
        intro d hd
        rcases List.mem_cons.1 hd with hd | hd
        · exact (Prod.mk.inj hd).1
        · exact absurd hd (hsans d)
      · obtain rfl := hcote t ht
        refine .inr ⟨t, hconnu, List.mem_cons_self, ?_, rfl, happel.publier⟩
        intro d hd
        rcases List.mem_cons.1 hd with hd | hd
        · exact (Prod.mk.inj hd).1
        · exact hseuls d hd
  -- an order for another switch
  · have hpour : (Evenement.ordre c k).ordrePour n = none := if_neg hk
    unfold Aiguillage.ordreCallback
    split_ifs
    · exact h.autre hpour rfl rfl rfl rfl (fun _ => Iff.rfl) (by rw [mouvements_publier]; simp) rfl rfl
    · refine h.autre hpour rfl rfl rfl rfl ?_ ?_ rfl rfl
      · intro d
        show (d, n) ∈ (c, k) :: m.noeud.attentes ↔ _
        simp [Ne.symm hk]
      · rw [mouvements_publier]
        simp [Message.pour, hk]

/-- A sensor word is received. -/
theorem capteur (h : Suivi n trace m) (hn₁ : 1 ≤ n) (hn₂ : n ≤ 11) {w : BitVec 32}
    {rapports : List (BitVec 32)} (hw : m.rapports = w :: rapports) :
    Suivi n (trace ++ [.capteur])
      { m with noeud := m.noeud.switchSensorCallback w, rapports, recus := m.recus + 1 } := by
  have hD : (m.noeud.switchSensorCallback w).aigD n = w.getLsbD (2 * n - 2) :=
    if_pos ⟨hn₁, by omega⟩
  have hG : (m.noeud.switchSensorCallback w).aigG n = w.getLsbD (2 * n - 1) :=
    if_pos ⟨hn₁, by omega⟩
  have himage : image n (m.noeud.switchSensorCallback w) = lire n w := by
    unfold image lire
    rw [hD, hG]
  have hlisibles := h.lisibles
  rw [hw] at hlisibles
  refine ⟨fun v hv => hlisibles v (by simp [hv]), fun _ => ?_, ?_⟩
  · show (m.noeud.switchSensorCallback w).aigD n = false ∨ _
    rw [hD]
    show _ ∨ (m.noeud.switchSensorCallback w).aigG n = false
    rw [hG]
    exact hlisibles w (by simp)
  · rw [dernierOrdre_snoc, vues_of_recus (Nat.succ_pos _)]
    show Phase (0 < m.recus + 1) (fun c => (c, n) ∈ m.noeud.attentes) _
      (image n (m.noeud.switchSensorCallback w) :: rapports.map (lire n) ++ [m.position n])
      (m.mouvements n) (m.cible n)
    rw [himage]
    have hphase := h.phase
    unfold Monde.vues at hphase
    rw [hw] at hphase
    -- the first word tells where the switch stands, a later one replaces what was seen before it
    by_cases h₀ : m.recus = 0
    · rw [if_pos h₀, List.nil_append] at hphase
      rcases hphase with hcalme | ⟨t, hconnu, -⟩
      · exact .inl hcalme
      · omega
    · rw [if_neg h₀] at hphase
      rcases hphase with ⟨f, hsans, hdernier, hcalme⟩ | ⟨t, hconnu, ht, hseuls, hdernier, happel⟩
      · exact .inl ⟨f, hsans, hdernier, hcalme.oublier⟩
      · exact .inr ⟨t, by omega, ht, hseuls, hdernier, happel.oublier⟩

/-- `spinOnce` returns. -/
theorem tour (h : Suivi n trace m) : Suivi n (trace ++ [.tour]) (m.publier m.noeud.tour) := by
  have hdernier : dernierOrdre n (trace ++ [.tour]) = dernierOrdre n trace := by
    rw [dernierOrdre_snoc]
    rfl
  unfold Aiguillage.tour
  cases hattentes : m.noeud.attentes with
  | nil =>
    refine h.autre rfl rfl rfl rfl rfl (fun _ => Iff.rfl) ?_ rfl rfl
    rw [mouvements_publier]
    simp
  | cons a attentes =>
    obtain ⟨c, k⟩ := a
    dsimp only
    -- seen at the other stop, the switch is told once more to move
    generalize hencore : (if m.noeud.butee c.oppose k then [Message.mouvement c k] else []) = encore
    have hpourVer : ∀ n, (encore ++ [Message.verouille k]).filterMap (Message.pour n) =
        encore.filterMap (Message.pour n) := by
      intro n
      rw [List.filterMap_append]
      exact List.append_nil _
    by_cases hk : k = n
    · subst hk
      rcases h.phase with ⟨f, hsans, -⟩ | ⟨t, hconnu, ht, hseuls, hdernier', happel⟩
      · exact absurd (show (c, k) ∈ m.noeud.attentes by rw [hattentes]; simp) (hsans c)
      obtain rfl : c = t := hseuls c (show (c, k) ∈ m.noeud.attentes by rw [hattentes]; simp)
      have hencorePour : Appel c (m.vues k ++ [m.position k])
          (m.mouvements k ++ encore.filterMap (Message.pour k)) (m.cible k) := by
        rw [← hencore]
        split_ifs
        · simpa [Message.pour] using happel.publier
        · simpa using happel
      by_cases hb : m.noeud.butee c k = true
      · rw [if_pos hb]
        refine h.publier ?_
        rw [hpourVer, hdernier, hdernier']
        by_cases hreste : (c, k) ∈ attentes
        · refine .inr ⟨c, hconnu, hreste, ?_, rfl, hencorePour⟩
          intro d hd
          exact hseuls d (show (d, k) ∈ m.noeud.attentes by rw [hattentes]; simp [hd])
        -- the last callback for this switch ends
        · refine .inl ⟨c, ?_, .inr rfl, ?_⟩
          · intro d hd
            have hdc : d = c :=
              hseuls d (show (d, k) ∈ m.noeud.attentes by rw [hattentes]; simp [hd])
            exact hreste (hdc ▸ hd)
          · have himage := (butee_iff (h.image_lisible hconnu) c).1 hb
            rw [vues_of_recus hconnu, himage] at hencorePour ⊢
            exact hencorePour.finir
      -- not there yet: the callback waits on
      · rw [if_neg hb]
        refine h.publier ?_
        rw [hdernier, hdernier']
        exact .inr ⟨c, hconnu, ht, hseuls, rfl, hencorePour⟩
    -- a callback of another switch
    · have hpour : encore.filterMap (Message.pour n) = [] := by
        rw [← hencore]
        split_ifs <;> simp [Message.pour, hk]
      split_ifs
      · refine h.autre rfl rfl rfl rfl rfl ?_ ?_ rfl rfl
        · intro d
          rw [hattentes]
          simp [Ne.symm hk, Monde.publier]
        · rw [mouvements_publier, hpourVer, hpour, List.append_nil]
      · refine h.autre rfl rfl rfl rfl rfl (fun _ => Iff.rfl) ?_ rfl rfl
        rw [mouvements_publier, hpour, List.append_nil]

/-- The switches receive a message. -/
theorem executer (h : Suivi n trace m) {message : Message} {messages : List Message}
    (hm : m.messages = message :: messages) :
    Suivi n (trace ++ [.executer]) ({ m with messages }.recevoir message) := by
  have hmouvements : m.mouvements n =
      (Message.pour n message).toList ++ messages.filterMap (Message.pour n) := by
    unfold Monde.mouvements
    rw [hm, List.filterMap_cons]
    cases Message.pour n message <;> rfl
  cases message with
  | deverouille k => exact h.autre rfl rfl rfl rfl rfl (fun _ => Iff.rfl) hmouvements.symm rfl rfl
  | verouille k => exact h.autre rfl rfl rfl rfl rfl (fun _ => Iff.rfl) hmouvements.symm rfl rfl
  | mouvement c k =>
    by_cases hk : k = n
    · subst hk
      have hphase := h.phase
      have hpour : (Message.pour k (.mouvement c k)).toList = [c] := by
        simp [Message.pour]
      -- the switch obeys the oldest order first
      rw [hmouvements, hpour] at hphase
      refine ⟨h.lisibles, h.image_lisible, ?_⟩
      rw [dernierOrdre_snoc]
      show Phase _ _ (dernierOrdre k trace)
        (m.vues k ++ [Function.update m.position k (bouger (m.position k) c) k])
        (messages.filterMap (Message.pour k)) (Function.update m.cible k c k)
      rw [Function.update_self, Function.update_self]
      rcases hphase with ⟨f, hsans, hdernier, hcalme⟩ | ⟨t, hconnu, ht, hseuls, hdernier, happel⟩
      · refine .inl ⟨f, hsans, hdernier, hcalme.recevoir⟩
      · exact .inr ⟨t, hconnu, ht, hseuls, hdernier, happel.recevoir⟩
    · have hpour : Message.pour n (.mouvement c k) = none := if_neg hk
      rw [hpour] at hmouvements
      exact h.autre rfl rfl rfl rfl rfl (fun _ => Iff.rfl) hmouvements.symm
        (Function.update_of_ne (Ne.symm hk) _ _) (Function.update_of_ne (Ne.symm hk) _ _)

/-- A switch arrives. -/
theorem arriver (h : Suivi n trace m) {k : ℕ} (hk : m.position k = none) :
    Suivi n (trace ++ [.arriver k])
      { m with position := Function.update m.position k (some (m.cible k)) } := by
  by_cases hkn : k = n
  · subst hkn
    refine ⟨h.lisibles, h.image_lisible, ?_⟩
    rw [dernierOrdre_snoc]
    show Phase _ _ (dernierOrdre k trace)
      (m.vues k ++ [Function.update m.position k (some (m.cible k)) k]) _ _
    rw [Function.update_self]
    have hphase := h.phase
    rw [hk] at hphase
    rcases hphase with ⟨f, -, -, hcalme⟩ | ⟨t, hconnu, ht, hseuls, hdernier, happel⟩
    · exact absurd (hcalme.vues_eq none (by simp)) (by simp)
    · exact .inr ⟨t, hconnu, ht, hseuls, hdernier, happel.arriver⟩
  · exact h.autre rfl rfl rfl rfl rfl (fun _ => Iff.rfl) rfl
      (Function.update_of_ne (Ne.symm hkn) _ _) rfl

/-- The sensors publish a word. -/
theorem mesurer (h : Suivi n trace m) (hn₁ : 1 ≤ n) (hn₂ : n ≤ 11) :
    Suivi n (trace ++ [.mesurer]) { m with rapports := m.rapports ++ [mot m.position] } := by
  obtain ⟨hlire, hlisible⟩ := lire_mot hn₁ hn₂ m.position
  refine ⟨?_, h.image_lisible, ?_⟩
  · intro w hw
    rcases List.mem_append.1 hw with hw | hw
    · exact h.lisibles w hw
    · rw [List.mem_singleton.1 hw]
      exact hlisible
  · have hvues : Monde.vues { m with rapports := m.rapports ++ [mot m.position] } n =
        m.vues n ++ [m.position n] := by
      unfold Monde.vues
      dsimp only
      rw [List.map_append, List.map_singleton, hlire, List.append_assoc]
    rw [hvues, dernierOrdre_snoc]
    rcases h.phase with ⟨f, hsans, hdernier, hcalme⟩ | ⟨t, hconnu, ht, hseuls, hdernier, happel⟩
    · exact .inl ⟨f, hsans, hdernier, hcalme.mesurer⟩
    · exact .inr ⟨t, hconnu, ht, hseuls, hdernier, happel.mesurer⟩

/-- Every step keeps the invariant. -/
theorem etape (h : Suivi n trace m) (hn₁ : 1 ≤ n) (hn₂ : n ≤ 11) {e : Evenement}
    (hstep : Guarded OrdreSeul Monde.etape m e m') : Suivi n (trace ++ [e]) m' := by
  obtain ⟨hC, hstep⟩ := hstep
  cases e with
  | ordre c k =>
    unfold Monde.etape at hstep
    dsimp only at hstep
    split_ifs at hstep with hk
    rw [Aiguillage.callback_eq] at hstep
    cases hstep
    exact h.ordre hC
  | capteur =>
    unfold Monde.etape at hstep
    dsimp only at hstep
    split at hstep
    · cases hstep
    · cases hstep
      exact h.capteur hn₁ hn₂ ‹_›
  | tour =>
    unfold Monde.etape at hstep
    dsimp only at hstep
    split_ifs at hstep
    cases hstep
    exact h.tour
  | executer =>
    unfold Monde.etape at hstep
    dsimp only at hstep
    split at hstep
    · cases hstep
    · cases hstep
      exact h.executer ‹_›
  | arriver k =>
    unfold Monde.etape at hstep
    dsimp only at hstep
    split_ifs at hstep with hk
    cases hstep
    exact h.arriver hk
  | mesurer =>
    cases hstep
    exact h.mesurer hn₁ hn₂

theorem initial (n : ℕ) (aigD aigG : ℕ → Bool) (cote : ℕ → Cote) :
    Suivi n [] (Monde.initial aigD aigG cote) where
  lisibles w hw := by simp [Monde.initial] at hw
  image_lisible h := absurd h (lt_irrefl 0)
  phase := .inl ⟨cote n, by simp [Monde.initial], .inl rfl, by
    refine ⟨?_, ?_, rfl⟩
    · simp [Monde.initial, Monde.vues]
    · simp [Monde.initial, Monde.mouvements]⟩

end Suivi

/-- **The last order wins** when every order for a switch is received after a first sensor word and
while no callback waits for the other side of the switch: if no callback is active, the switch is on
the side of the last order received for it. -/
theorem dernier_ordre_gagne {aigD aigG : ℕ → Bool} {cote : ℕ → Cote} {trace : List Evenement}
    {m : Monde}
    (h : Run (Guarded OrdreSeul Monde.etape) (Monde.initial aigD aigG cote) trace m) {n : ℕ}
    (hn₁ : 1 ≤ n) (hn₂ : n ≤ 11) {c : Cote} (hc : dernierOrdre n trace = some c)
    (hattentes : m.noeud.attentes = []) : m.position n = some c := by
  have hsuivi : Suivi n trace m :=
    h.invariant (Suivi.initial n aigD aigG cote) fun _ _ _ _ hs hstep => hs.etape hn₁ hn₂ hstep
  rcases hsuivi.phase with ⟨f, -, hdernier, hcalme⟩ | ⟨t, -, ht, -⟩
  · have hf : f = c := by
      rcases hdernier with hnone | hsome
      · rw [hc] at hnone
        cases hnone
      · rw [hc] at hsome
        exact (Option.some.inj hsome).symm
    rw [← hf]
    exact hcalme.vues_eq (m.position n) (by simp)
  · rw [hattentes] at ht
    simp at ht

/-- Switches that start on the right, and no order yet. -/
def departADroite : Monde := Monde.initial (fun _ => false) (fun _ => false) fun _ => .droite

/-- Two switches go to the left, the second one in the callback of the first, which then goes
back. -/
def allerRetour : List Evenement :=
  [.mesurer, .capteur, .ordre .gauche 1, .ordre .gauche 2, .executer, .executer, .executer, .executer,
    .arriver 1, .arriver 2, .mesurer, .capteur, .tour, .tour, .ordre .droite 1, .executer, .executer,
    .executer, .executer, .arriver 1, .mesurer, .capteur, .tour]

/-- An order to the right is received while the callback for the left waits. -/
def ordreOppose : List Evenement :=
  [.mesurer, .capteur, .ordre .gauche 1, .ordre .droite 1, .executer, .executer, .arriver 1, .mesurer,
    .capteur, .tour, .executer]

/-- Each switch follows its last order. -/
theorem dernier_ordre_gagne_allerRetour :
    ∃ m, Run (Guarded OrdreSeul Monde.etape) departADroite allerRetour m ∧
      m.position 1 = some .droite ∧ m.position 2 = some .gauche := by
  have hexec : ((execute OrdreSeul Monde.etape departADroite allerRetour).map fun m =>
      m.noeud.attentes) = some [] := by decide +kernel
  obtain ⟨m, hm, hattentes⟩ := Option.map_eq_some_iff.1 hexec
  have hrun := run_execute .nil hm
  exact ⟨m, hrun, dernier_ordre_gagne hrun (by decide) (by decide) (by decide) hattentes,
    dernier_ordre_gagne hrun (by decide) (by decide) (by decide) hattentes⟩

/-- **An opposite order received inside a callback is lost.** -/
theorem ordreOppose_perdu :
    ∃ m, Run (Guarded (fun _ _ => True) Monde.etape) departADroite ordreOppose m ∧
      dernierOrdre 1 ordreOppose = some .droite ∧ m.noeud.attentes = [] ∧ m.AuRepos 1 ∧
      m.position 1 ≠ some .droite := by
  have hexec : ((execute (fun _ _ => True) Monde.etape departADroite ordreOppose).map fun m =>
      (m.noeud.attentes, m.position 1, m.mouvements 1)) = some ([], some .gauche, []) := by
    decide +kernel
  obtain ⟨m, hm, hfin⟩ := Option.map_eq_some_iff.1 hexec
  obtain ⟨hattentes, hfin⟩ := Prod.mk.inj hfin
  obtain ⟨hposition, hmouvements⟩ := Prod.mk.inj hfin
  exact ⟨m, run_execute .nil hm, by decide, hattentes, ⟨by rw [hposition]; simp, hmouvements⟩,
    by rw [hposition]; decide⟩

end Aiguillages
