import Cellule.Reseau.Pince
import Cellule.Robots.Mouvement

/-! # The arm and its flag

The orders about the arm move its target from where it is, and the flag of the command node follows
their acknowledgements. They agree as long as the routines that need the arm for themselves are not
mixed with others that move it, and each finds the arm where it expects it.
-/

namespace Robots

open Reactive Reactive.Prog Reactive.Pact

/-- What a routine does with the arm. -/
inductive Genre
  /-- It leaves it alone. -/
  | autre
  /-- It only sends the robot to a position. -/
  | envoi
  /-- It needs the arm for itself. -/
  | bras
  deriving DecidableEq

/-- What the callback of an order does with the arm of the robot `r`. -/
def Ordre.genre (r : ℤ) : Ordre → Genre
  | .sendPosition msg => if msg.numRobot = r then .envoi else .autre
  | .descendreBras msg => if msg.numRobot = r then .bras else .autre
  | .monterBras msg => if msg.numRobot = r then .bras else .autre
  | .controlerRobot msg => if msg.numRobot = r then .bras else .autre
  | .deplacerPiece msg => if msg.numRobot = r then .bras else .autre
  | _ => .autre

/-- What a routine does with the arm of the robot `r`. -/
def Routine.genre (r : ℤ) : Routine → Genre
  | .ordre o => o.genre r
  | .update => .autre

/-- Some routine is sending the robot to a position. -/
def enMouvement (r : ℤ) (ps : List Routine) : Bool := ps.any fun p => p.genre r = .envoi

/-- No routine needs the arm for itself. -/
def brasLibre (r : ℤ) (ps : List Routine) : Bool := ps.all fun p => p.genre r ≠ .bras

/-- No routine that moves the arm has begun inside a wait of one that needs it for itself. -/
def Ordonnes (r : ℤ) : List Routine → Prop
  | [] => True
  | p :: ps => (p.genre r ≠ .autre → brasLibre r ps = true) ∧ Ordonnes r ps

/-- The pact of a routine that leaves the arm and expects nothing of it. -/
def garde (τ : Type) : Pact (Robot τ) where
  rely _ _ := True
  guar := MemeBras
  rely_trans _ _ := trivial
  guar_refl := MemeBras.refl
  guar_trans := MemeBras.trans

variable {τ : Type} {r bras : ℤ} {publiee : Option ℤ}

/-- The view agrees, and the position was published unless the robot is being sent to it. -/
def Bon (r : ℤ) (mouvement : Bool) (a : Robot τ) (bras : ℤ) (publiee : Option ℤ) : Prop :=
  ∃ v : VueBras, v.Montre r a bras publiee ∧ v.Accord ∧
    (mouvement = true ∨ v.publiee = some v.position)

/-- What the end of the move to a position publishes. -/
def AnnoncePosition (r : ℤ) (a : Robot τ) (ms : List Message) : Prop :=
  (∀ bras, ms.foldl (brasVu r) bras = bras) ∧
    ∀ publiee, ms.foldl positionVue publiee = some a.robotPosition

/-- What a suspended routine does when it goes on. -/
def Tenue (r : ℤ) (bras : ℤ) (publiee : Option ℤ) (mouvement : Bool) (a : Robot τ)
    (f : Frame (interface τ) (Robot τ)) (p : Routine) : Prop :=
  match p.genre r with
  | .autre => f.Ends (garde τ) a (fun ms => ∀ m ∈ ms, m.SansBras) fun _ ms => ∀ m ∈ ms, m.SansBras
  | .envoi => f.Ends (garde τ) a (fun ms => ∀ m ∈ ms, m.SansBras) (AnnoncePosition r)
  | .bras => f.Ends (aSoi τ) a (fun _ => True) fun a' ms =>
      Bon r mouvement a' (ms.foldl (brasVu r) bras) (ms.foldl positionVue publiee)

/-- What holds of the suspended routines; `premier` says that no order was taken up yet. -/
structure Rangs (r : ℤ) (bras : ℤ) (publiee : Option ℤ) (premier : Prop) (a : Robot τ)
    (stack : List (Frame (interface τ) (Robot τ))) (ps : List Routine) : Prop where
  ordonnes : Ordonnes r ps
  routines : List.Forall₂ (Tenue r bras publiee (enMouvement r ps) a) stack ps
  pret : brasLibre r ps = true →
    Bon r (enMouvement r ps) a bras publiee ∨ premier ∧ enMouvement r ps = false

theorem Bon.move {mouvement : Bool} {a a' : Robot τ} (h : Bon r mouvement a bras publiee)
    (ha : MemeBras a a') : Bon r mouvement a' bras publiee := by
  obtain ⟨v, hv, haccord, hpubliee⟩ := h
  exact ⟨v, ⟨ha.numRobot.trans hv.numRobot, ha.rpos.trans hv.rpos, ha.robotPosition.trans hv.position,
    hv.bras, hv.publiee⟩, haccord, hpubliee⟩

/-- The move to a position ends. -/
theorem Bon.annoncer {mouvement mouvement' : Bool} {a a' : Robot τ} {ms : List Message}
    (h : Bon r mouvement a bras publiee) (ha : MemeBras a a') (hms : AnnoncePosition r a' ms) :
    Bon r mouvement' a' (ms.foldl (brasVu r) bras) (ms.foldl positionVue publiee) := by
  obtain ⟨v, hv, haccord, -⟩ := h
  rw [hms.1, hms.2]
  have hposition : a'.robotPosition = v.position := ha.robotPosition.trans hv.position
  exact ⟨{ v with publiee := some v.position },
    ⟨ha.numRobot.trans hv.numRobot, ha.rpos.trans hv.rpos, hposition, hv.bras,
      congrArg some hposition⟩, haccord, .inr rfl⟩

/-- The routines that do not need the arm for themselves go on whatever becomes of it. -/
theorem tenue_libre {bras' : ℤ} {publiee' : Option ℤ} {mouvement mouvement' : Bool} {a a' : Robot τ}
    {stack : List (Frame (interface τ) (Robot τ))} {ps : List Routine} (hlibre : brasLibre r ps = true)
    (h : List.Forall₂ (Tenue r bras publiee mouvement a) stack ps) :
    List.Forall₂ (Tenue r bras' publiee' mouvement' a') stack ps := by
  induction h with
  | nil => exact .nil
  | @cons f p stack ps hf hps ih =>
    rw [brasLibre, List.all_cons, Bool.and_eq_true, decide_eq_true_eq] at hlibre
    refine .cons ?_ (ih hlibre.2)
    unfold Tenue at hf ⊢
    cases hgenre : p.genre r with
    | autre =>
      rw [hgenre] at hf
      exact hf.move trivial
    | envoi =>
      rw [hgenre] at hf
      exact hf.move trivial
    | bras => exact absurd hgenre hlibre.1

/-- The suspended routines go on when the arm and its view are left alone. -/
theorem tenue_move {mouvement : Bool} {a a' : Robot τ} (ha : MemeBras a a')
    {stack : List (Frame (interface τ) (Robot τ))} {ps : List Routine}
    (h : List.Forall₂ (Tenue r bras publiee mouvement a) stack ps) :
    List.Forall₂ (Tenue r bras publiee mouvement a') stack ps := by
  refine h.imp fun f p hf => ?_
  unfold Tenue at hf ⊢
  split at hf
  · exact hf.move trivial
  · exact hf.move trivial
  · exact hf.move ha

section Rangs

variable {premier : Prop} {a a' : Robot τ} {stack : List (Frame (interface τ) (Robot τ))}
  {p : Routine} {ps : List Routine} {f : Frame (interface τ) (Robot τ)}

theorem enMouvement_cons (hp : p.genre r ≠ .envoi) : enMouvement r (p :: ps) = enMouvement r ps := by
  rw [enMouvement, List.any_cons, decide_eq_false hp, Bool.false_or]
  rfl

theorem brasLibre_cons (hp : p.genre r ≠ .bras) : brasLibre r (p :: ps) = brasLibre r ps := by
  rw [brasLibre, List.all_cons, decide_eq_true hp, Bool.true_and]
  rfl

theorem not_brasLibre_cons (hp : p.genre r = .bras) : brasLibre r (p :: ps) ≠ true := by
  rw [brasLibre, List.all_cons, hp]
  simp

/-- The arm and its view are left alone. -/
theorem Rangs.move (h : Rangs r bras publiee premier a stack ps) (ha : MemeBras a a') :
    Rangs r bras publiee premier a' stack ps :=
  ⟨h.ordonnes, tenue_move ha h.routines, fun hlibre => (h.pret hlibre).imp_left fun hbon => hbon.move ha⟩

theorem Rangs.mono {premier' : Prop} (h : Rangs r bras publiee premier a stack ps)
    (hpremier : premier → premier') : Rangs r bras publiee premier' a stack ps :=
  ⟨h.ordonnes, h.routines, fun hlibre => (h.pret hlibre).imp_right fun ⟨hp, hm⟩ => ⟨hpremier hp, hm⟩⟩

/-- A routine that leaves the arm alone begins to wait. -/
theorem Rangs.push (h : Rangs r bras publiee premier a stack ps) (hp : p.genre r = .autre)
    (hf : f.Ends (garde τ) a (fun ms => ∀ m ∈ ms, m.SansBras) fun _ ms => ∀ m ∈ ms, m.SansBras) :
    Rangs r bras publiee premier a (f :: stack) (p :: ps) := by
  have henvoi : p.genre r ≠ .envoi := by simp [hp]
  have hbras : p.genre r ≠ .bras := by simp [hp]
  refine ⟨⟨fun hautre => absurd hp hautre, h.ordonnes⟩, .cons ?_ ?_, ?_⟩
  · unfold Tenue
    rw [hp]
    exact hf
  · rw [enMouvement_cons henvoi]
    exact h.routines
  · rw [enMouvement_cons henvoi, brasLibre_cons hbras]
    exact h.pret

/-- A routine that leaves the arm alone is taken off. -/
theorem Rangs.pop (h : Rangs r bras publiee premier a (f :: stack) (p :: ps))
    (hp : p.genre r = .autre) : Rangs r bras publiee premier a stack ps := by
  have henvoi : p.genre r ≠ .envoi := by simp [hp]
  have hbras : p.genre r ≠ .bras := by simp [hp]
  obtain ⟨⟨-, hordonnes⟩, hroutines, hpret⟩ := h
  rw [enMouvement_cons henvoi] at hroutines
  rw [enMouvement_cons henvoi, brasLibre_cons hbras] at hpret
  exact ⟨hordonnes, (List.forall₂_cons.1 hroutines).2, hpret⟩

/-- The view of the arm after messages depends on what it was before, or not. -/
theorem foldl_brasVu_cases (r : ℤ) (ms : List Message) :
    (∀ b, ms.foldl (brasVu r) b = b) ∨ ∃ c, ∀ b, ms.foldl (brasVu r) b = c := by
  induction ms with
  | nil => exact .inl fun _ => rfl
  | cons m ms ih =>
    have hm : (∀ b, brasVu r b m = b) ∨ ∃ c, ∀ b, brasVu r b m = c := by
      cases m with
      | retourCommande n data =>
        unfold brasVu
        dsimp only
        split_ifs
        · exact .inr ⟨0, fun _ => rfl⟩
        · exact .inr ⟨-1, fun _ => rfl⟩
        · exact .inr ⟨1, fun _ => rfl⟩
        · exact .inl fun _ => rfl
        · exact .inl fun _ => rfl
      | _ => exact .inl fun _ => rfl
    rcases ih with ih | ⟨c, ih⟩
    · simpa only [List.foldl_cons, ih] using hm
    · exact .inr ⟨c, fun b => ih _⟩

/-- The flag of the arm is cleared. -/
theorem Bon.oublier {mouvement : Bool} {ms : List Message}
    (h : Bon r mouvement a (ms.foldl (brasVu r) bras) publiee) :
    Bon r mouvement a (ms.foldl (brasVu r) 0) publiee := by
  rcases foldl_brasVu_cases r ms with hms | ⟨c, hms⟩
  · obtain ⟨v, hv, haccord, hpubliee⟩ := h
    rw [hms]
    exact ⟨{ v with bras := 0 }, ⟨hv.numRobot, hv.rpos, hv.position, rfl, hv.publiee⟩,
      haccord.oublier, hpubliee⟩
  · rwa [hms] at h ⊢

theorem Rangs.oublier (h : Rangs r bras publiee premier a stack ps) :
    Rangs r 0 publiee premier a stack ps := by
  refine ⟨h.ordonnes, h.routines.imp fun f p hf => ?_, fun hlibre => (h.pret hlibre).imp_left ?_⟩
  · unfold Tenue at hf ⊢
    split at hf
    · exact hf
    · exact hf
    · exact hf.mono (fun _ _ => trivial) fun _ _ hbon => hbon.oublier
  · rintro ⟨v, hv, haccord, hpubliee⟩
    exact ⟨{ v with bras := 0 }, ⟨hv.numRobot, hv.rpos, hv.position, rfl, hv.publiee⟩,
      haccord.oublier, hpubliee⟩

end Rangs

/-! ## The running routine -/

section Courir

variable {premier : Prop} {ρ' : Roster (interface τ) Canal (ReponseSim τ) (Robot τ) Routine}
  {n : Node (interface τ) Canal (ReponseSim τ) (Robot τ)} {p : Routine} {ps : List Routine}
  {prog : Code τ Unit}

/-- What the routine that runs leaves: the messages that it has published, and the ranks. -/
def Laisse (r : ℤ) (bras : ℤ) (publiee : Option ℤ) (premier : Prop)
    (n : Node (interface τ) Canal (ReponseSim τ) (Robot τ))
    (ρ' : Roster (interface τ) Canal (ReponseSim τ) (Robot τ) Routine) : Prop :=
  ρ'.node.attributes.numRobot = n.attributes.numRobot ∧ ρ'.Matched ∧
    ∃ ms, ρ'.node.posted = n.posted ++ ms ∧
      Rangs r (ms.foldl (brasVu r) bras) (ms.foldl positionVue publiee) premier ρ'.node.attributes
        ρ'.node.stack ρ'.names

/-- A routine that leaves the arm alone. -/
theorem courir_autre (hfollows : ρ'.Follows (liaisons τ) n p ps prog) (hp : p.genre r = .autre)
    (hprog : (garde τ).Ends prog n.attributes (fun ms => ∀ m ∈ ms, m.SansBras)
      fun _ _ ms => ∀ m ∈ ms, m.SansBras)
    (h : Rangs r bras publiee premier n.attributes n.stack ps) :
    ρ'.node.faulted = true ∨ Laisse r bras publiee premier n ρ' := by
  obtain ⟨ms, hposted, hmeme, houtcome⟩ := hfollows.outcome hprog
  cases houtcome with
  | failed h => exact .inl h
  | ended halive hstack hnames hms =>
    refine .inr ⟨hmeme.numRobot, ?_, ms, hposted, ?_⟩
    · rw [Roster.Matched, hstack, hnames, hfollows.matched]
    · rw [hstack, hnames, foldl_brasVu hms, foldl_positionVue hms]
      exact h.move hmeme
  | waits f halive hstack hnames hms hf =>
    refine .inr ⟨hmeme.numRobot, ?_, ms, hposted, ?_⟩
    · rw [Roster.Matched, hstack, hnames, List.length_cons, List.length_cons, hfollows.matched]
    · rw [hstack, hnames, foldl_brasVu hms, foldl_positionVue hms]
      refine (h.move hmeme).push hp (hf.mono (fun ms' h => ?_) fun _ ms' h => ?_)
      · exact (List.forall_mem_append.1 h).2
      · exact (List.forall_mem_append.1 h).2

variable (premier) in
/-- A routine that sends the robot to a position. -/
theorem courir_envoi (hfollows : ρ'.Follows (liaisons τ) n p ps prog) (hp : p.genre r = .envoi)
    (hprog : (garde τ).Ends prog n.attributes (fun ms => ∀ m ∈ ms, m.SansBras)
      fun _ => AnnoncePosition r)
    (hordonnes : Ordonnes r ps) (hlibre : brasLibre r ps = true) {mouvement : Bool}
    (hroutines : List.Forall₂ (Tenue r bras publiee mouvement n.attributes) n.stack ps)
    (hbon : Bon r true n.attributes bras publiee) :
    ρ'.node.faulted = true ∨ Laisse r bras publiee premier n ρ' := by
  obtain ⟨ms, hposted, hmeme, houtcome⟩ := hfollows.outcome hprog
  cases houtcome with
  | failed h => exact .inl h
  | ended halive hstack hnames hms =>
    refine .inr ⟨hmeme.numRobot, ?_, ms, hposted, ?_⟩
    · rw [Roster.Matched, hstack, hnames, hfollows.matched]
    · rw [hstack, hnames]
      exact ⟨hordonnes, tenue_libre hlibre hroutines, fun _ => .inl (hbon.annoncer hmeme hms)⟩
  | waits f halive hstack hnames hms hf =>
    refine .inr ⟨hmeme.numRobot, ?_, ms, hposted, ?_⟩
    · rw [Roster.Matched, hstack, hnames, List.length_cons, List.length_cons, hfollows.matched]
    · rw [hstack, hnames, foldl_brasVu hms, foldl_positionVue hms]
      have hmouvement : enMouvement r (p :: ps) = true := by
        rw [enMouvement, List.any_cons, decide_eq_true hp, Bool.true_or]
      have htenue : Tenue r bras publiee (enMouvement r (p :: ps)) ρ'.node.attributes f p := by
        unfold Tenue
        rw [hp]
        refine hf.mono (fun ms' h => (List.forall_mem_append.1 h).2) fun a' ms' h =>
          ⟨fun b => ?_, fun q => ?_⟩
        · have hb := h.1 b
          rwa [List.foldl_append, foldl_brasVu hms] at hb
        · have hq := h.2 q
          rwa [List.foldl_append, foldl_positionVue hms] at hq
      refine ⟨⟨fun _ => hlibre, hordonnes⟩, .cons htenue (tenue_libre hlibre hroutines), fun _ => .inl ?_⟩
      rw [hmouvement]
      exact hbon.move hmeme

/-- A routine that needs the arm for itself. -/
theorem courir_bras (hfollows : ρ'.Follows (liaisons τ) n p ps prog) (hp : p.genre r = .bras)
    (hprog : (aSoi τ).Ends prog n.attributes (fun _ => True) fun _ a' ms =>
      Bon r (enMouvement r ps) a' (ms.foldl (brasVu r) bras) (ms.foldl positionVue publiee))
    (hordonnes : Ordonnes r ps) (hlibre : brasLibre r ps = true) {mouvement : Bool}
    (hroutines : List.Forall₂ (Tenue r bras publiee mouvement n.attributes) n.stack ps) :
    ρ'.node.faulted = true ∨ Laisse r bras publiee premier n ρ' := by
  obtain ⟨ms, hposted, hnum, houtcome⟩ := hfollows.outcome hprog
  cases houtcome with
  | failed h => exact .inl h
  | ended halive hstack hnames hbon =>
    refine .inr ⟨hnum, ?_, ms, hposted, ?_⟩
    · rw [Roster.Matched, hstack, hnames, hfollows.matched]
    · rw [hstack, hnames]
      exact ⟨hordonnes, tenue_libre hlibre hroutines, fun _ => .inl hbon⟩
  | waits f halive hstack hnames hms hf =>
    refine .inr ⟨hnum, ?_, ms, hposted, ?_⟩
    · rw [Roster.Matched, hstack, hnames, List.length_cons, List.length_cons, hfollows.matched]
    · rw [hstack, hnames]
      have htenue : Tenue r (ms.foldl (brasVu r) bras) (ms.foldl positionVue publiee)
          (enMouvement r (p :: ps)) ρ'.node.attributes f p := by
        unfold Tenue
        rw [hp, enMouvement_cons (by simp [hp])]
        refine hf.mono (fun _ _ => trivial) fun a' ms' h => ?_
        rwa [List.foldl_append, List.foldl_append] at h
      exact ⟨⟨fun _ => hlibre, hordonnes⟩, .cons htenue (tenue_libre hlibre hroutines),
        fun h => absurd h (not_brasLibre_cons hp)⟩

/-- The running routine goes on. -/
theorem Rangs.reprendre {f : Frame (interface τ) (Robot τ)} {v : Requete.Reponse τ f.wait.request}
    (h : Rangs r bras publiee premier n.attributes (f :: n.stack) (p :: ps))
    (hfollows : ρ'.Follows (liaisons τ) n p ps (f.wait.next v n.attributes)) :
    ρ'.node.faulted = true ∨ Laisse r bras publiee premier n ρ' := by
  obtain ⟨hf, hroutines⟩ := List.forall₂_cons.1 h.routines
  obtain ⟨hlibre, hordonnes⟩ := h.ordonnes
  unfold Tenue at hf
  cases hp : p.genre r with
  | autre =>
    rw [hp] at hf
    exact courir_autre hfollows hp (hf v n.attributes trivial) (h.pop hp)
  | envoi =>
    rw [hp] at hf
    have hps : brasLibre r ps = true := hlibre (by simp [hp])
    have hmouvement : enMouvement r (p :: ps) = true := by
      rw [enMouvement, List.any_cons, decide_eq_true hp, Bool.true_or]
    have hbon : Bon r true n.attributes bras publiee := by
      rcases h.pret (by rw [brasLibre_cons (by simp [hp]), hps]) with hbon | ⟨-, hfaux⟩
      · rwa [hmouvement] at hbon
      · rw [hmouvement] at hfaux
        cases hfaux
    exact courir_envoi premier hfollows hp (hf v n.attributes trivial) hordonnes hps hroutines hbon
  | bras =>
    rw [hp] at hf
    have hprog := hf v n.attributes ⟨rfl, rfl, rfl⟩
    rw [enMouvement_cons (by simp [hp])] at hprog
    exact courir_bras hfollows hp hprog hordonnes (hlibre (by simp [hp])) hroutines

end Courir

/-! ## The routines that begin -/

section Debut

variable [Horloge τ] {a : Robot τ} {p : Routine}

omit [Horloge τ] in
/-- The callback of an order for another robot does nothing. -/
theorem ends_siConcerne_autre {P : Pact (Robot τ)} {numRobot : ℤ} {routine : Code τ Unit}
    {pause : List Message → Prop} {Q : Unit → Robot τ → List Message → Prop}
    (hn : a.numRobot ≠ numRobot) (hQ : Q () a []) :
    P.Ends (Robot.siConcerne numRobot routine) a pause Q := by
  unfold Robot.siConcerne
  rw [ends_bind, ends_get, if_neg hn]
  exact hQ

omit [Horloge τ] in
/-- Calm code says nothing of the arm. -/
theorem ends_calme {code : Code τ Unit} (h : (garde τ).Calm Message.SansBras code) :
    (garde τ).Ends code a (fun ms => ∀ m ∈ ms, m.SansBras) fun _ _ ms => ∀ m ∈ ms, m.SansBras :=
  (h.ends (J := fun _ => True) (fun _ _ _ _ => trivial) (fun _ _ _ _ => trivial) trivial).post
    fun _ _ _ h => h.2

/-- The routines that leave the arm alone say nothing of it. -/
theorem ends_autre (hp : p.genre r = .autre) (ha : a.numRobot = r) :
    (garde τ).Ends p.code a (fun ms => ∀ m ∈ ms, m.SansBras) fun _ _ ms => ∀ m ∈ ms, m.SansBras := by
  have hguar : ∀ s s' : Robot τ, MemeBras s s' → (garde τ).guar s s' := fun _ _ h => h
  have hpince : ∀ cmd code : ℤ, code = 6 ∨ code = 7 →
      (garde τ).Calm Message.SansBras (Robot.bougerPince cmd code : Code τ Unit) := by
    rintro cmd code (rfl | rfl)
    · exact Robot.calm_bougerPince hguar Mene.sansBras_autre cmd
        fun n => ⟨by decide, by decide, by decide⟩
    · exact Robot.calm_bougerPince hguar Mene.sansBras_autre cmd
        fun n => ⟨by decide, by decide, by decide⟩
  have hautre : ∀ {numRobot : ℤ} {genre : Genre}, genre ≠ .autre →
      (if numRobot = r then genre else .autre) = .autre → a.numRobot ≠ numRobot := by
    intro numRobot genre hgenre h hn
    rw [if_pos (hn.symm.trans ha)] at h
    exact hgenre h
  cases p with
  | update =>
    exact ends_calme (Calm.bind
      (Robot.calm_update hguar Mene.sansBras_autre Mene.sansBras_tache) fun _ => trivial)
  | ordre o =>
    cases o with
    | sendPosition msg => exact ends_siConcerne_autre (hautre (by decide) hp) (by simp)
    | descendreBras msg => exact ends_siConcerne_autre (hautre (by decide) hp) (by simp)
    | monterBras msg => exact ends_siConcerne_autre (hautre (by decide) hp) (by simp)
    | controlerRobot msg => exact ends_siConcerne_autre (hautre (by decide) hp) (by simp)
    | deplacerPiece msg => exact ends_siConcerne_autre (hautre (by decide) hp) (by simp)
    | fermerPince msg => exact ends_calme (Robot.calm_siConcerne (hpince 1 6 (.inl rfl)))
    | ouvrirPince msg => exact ends_calme (Robot.calm_siConcerne (hpince 0 7 (.inr rfl)))
    | faireTache msg =>
      exact ends_calme (Calm.bind (Robot.calm_faireTacheCallback hguar Mene.sansBras_autre
        Mene.sansBras_tache msg) fun _ => trivial)

/-- The order finds the arm where it expects it, when `bras` is what the flag is to become. -/
def Ordre.Convient (a : Robot τ) (bras : ℤ) : Ordre → Prop
  | .sendPosition _ => bras ≠ -1
  | .descendreBras _ => Robot.pose a.robotPosition = some a.rpos
  | .monterBras _ => Robot.pose a.robotPosition = some fun i => a.rpos i - Robot.descente i
  | .controlerRobot msg => msg.bras = -1
  | _ => True

omit [Horloge τ] in
instance (a : Robot τ) (bras : ℤ) (o : Ordre) : Decidable (o.Convient a bras) := by
  unfold Ordre.Convient
  split <;> infer_instance

/-- The positions of an order for the robot `r` exist. -/
def Ordre.Valide (r : ℤ) : Ordre → Prop
  | .sendPosition msg => msg.numRobot = r → (Robot.pose msg.data).isSome
  | .controlerRobot msg => (Robot.pose msg.position).isSome
  | .deplacerPiece msg => (Robot.pose msg.positionA).isSome ∧ (Robot.pose msg.positionB).isSome
  | _ => True

omit [Horloge τ] in
/-- The end of a view that agrees. -/
theorem Mene.ends {prog : Code τ Unit} {v v' : VueBras} {mouvement : Bool}
    (h : Mene r prog v v') (ha : v.Montre r a bras publiee) (haccord : v'.Accord)
    (hpubliee : mouvement = true ∨ v'.publiee = some v'.position) :
    (aSoi τ).Ends prog a (fun _ => True) fun _ a' ms =>
      Bon r mouvement a' (ms.foldl (brasVu r) bras) (ms.foldl positionVue publiee) :=
  (h a bras publiee ha).post fun _ _ _ hv => ⟨v', hv, haccord, hpubliee⟩

/-- The routines that need the arm for themselves leave it in agreement. -/
theorem ends_bras {o : Ordre} {mouvement : Bool} (hp : o.genre r = .bras)
    (hbon : Bon r mouvement a bras publiee) (hvalide : o.Valide r) (hconvient : o.Convient a bras) :
    (aSoi τ).Ends (Routine.ordre o).code a (fun _ => True) fun _ a' ms =>
      Bon r mouvement a' (ms.foldl (brasVu r) bras) (ms.foldl positionVue publiee) := by
  obtain ⟨v, hv, haccord, hpubliee⟩ := hbon
  have hnum : ∀ {numRobot : ℤ}, (if numRobot = r then Genre.bras else .autre) = .bras →
      numRobot = r := by
    intro numRobot h
    by_contra hn
    rw [if_neg hn] at h
    cases h
  cases o with
  | descendreBras msg =>
    have hpose : Robot.pose v.position = some v.rpos := by
      rw [← hv.position, ← hv.rpos]
      exact hconvient
    exact (Mene.siConcerne (hnum hp) Mene.descendreBras).ends hv (VueBras.accord_descendre hpose)
      hpubliee
  | monterBras msg =>
    have hpose : Robot.pose v.position = some v.monter.rpos := by
      show _ = some fun i => v.rpos i - Robot.descente i
      rw [← hv.position, ← hv.rpos]
      exact hconvient
    exact (Mene.siConcerne (hnum hp) Mene.monterBras).ends hv
      ⟨_, hpose, .inl ⟨rfl, show (1 : ℤ) ≠ -1 by decide⟩⟩ hpubliee
  | controlerRobot msg =>
    obtain ⟨q, hq⟩ := Option.isSome_iff_exists.1 hvalide
    exact (Mene.controlerRobot (hnum hp) hq hconvient).ends hv (VueBras.accord_descendre hq) (.inr rfl)
  | deplacerPiece msg =>
    obtain ⟨qA, hA⟩ := Option.isSome_iff_exists.1 hvalide.1
    obtain ⟨qB, hB⟩ := Option.isSome_iff_exists.1 hvalide.2
    exact (Mene.deplacerPiece (hnum hp) hA hB).ends hv (VueBras.accord_monter hB rfl) (.inr rfl)
  | sendPosition msg =>
    unfold Ordre.genre at hp
    dsimp only at hp
    split_ifs at hp
  | fermerPince msg => cases hp
  | ouvrirPince msg => cases hp
  | faireTache msg => cases hp

omit [Horloge τ] in
/-- What follows the choice of the target in `EnvoyerRobot`. -/
theorem ends_envoyer :
    (garde τ).Ends (do
      Robot.rejoindre
      Robot.retourner 2
      let s ← get
      publish (.robotPosition s.numRobot s.robotPosition) : Code τ Unit) a
      (fun ms => ∀ m ∈ ms, m.SansBras) fun _ => AnnoncePosition r := by
  have hends := (Robot.calm_rejoindre (P := garde τ) (A := fun _ => False)).ends (s := a)
    (J := fun _ => True) (fun _ _ _ _ => trivial) (fun _ _ _ _ => trivial) trivial
  refine ends_bind.2 (hends.mono (fun ms hms m hm => (hms m hm).elim) ?_)
  rintro _ a' ms ⟨-, hms⟩
  obtain rfl : ms = [] := List.eq_nil_iff_forall_not_mem.2 fun m hm => hms m hm
  refine ends_bind.2 (Robot.ends_retourner (fun _ _ h => h) ⟨fun bras => ?_, fun publiee => rfl⟩)
  show brasVu r bras (.retourCommande a'.numRobot 2) = bras
  exact brasVu_sansBras ⟨by decide, by decide, by decide⟩

omit [Horloge τ] in
/-- The orders that only send the robot to a position. -/
theorem genre_envoi {o : Ordre} (h : o.genre r = .envoi) :
    ∃ msg : MsgNumrobot, o = .sendPosition msg ∧ msg.numRobot = r := by
  unfold Ordre.genre at h
  split at h
  · split_ifs at h with hn
    exact ⟨_, rfl, hn⟩
  · split_ifs at h
  · split_ifs at h
  · split_ifs at h
  · split_ifs at h
  · cases h

omit [Horloge τ] in
/-- `EnvoyerRobot` from the choice of its target on. -/
theorem follows_envoyer {ρ' : Roster (interface τ) Canal (ReponseSim τ) (Robot τ) Routine}
    {n : Node (interface τ) Canal (ReponseSim τ) (Robot τ)} {p : Routine} {ps : List Routine}
    {numRobot data : ℤ} (hn : n.attributes.numRobot = numRobot)
    (h : ρ'.Follows (liaisons τ) n p ps (Robot.siConcerne numRobot (Robot.envoyerRobot data))) :
    ρ'.Follows (liaisons τ)
      { n with attributes := { n.attributes with
          robotPosition := data
          rpos := (Robot.pose data).getD n.attributes.rpos } } p ps (do
        Robot.rejoindre
        Robot.retourner 2
        let s ← get
        publish (.robotPosition s.numRobot s.robotPosition)) := by
  refine ⟨h.node.trans ?_, h.names, h.alive, h.matched⟩
  show Node.advance _ (if n.attributes.numRobot = numRobot then _ else _) n = _
  rw [if_pos hn]
  rfl

/-- The order of a routine is taken up. -/
theorem Rangs.commencer {premier : Prop}
    {ρ' : Roster (interface τ) Canal (ReponseSim τ) (Robot τ) Routine}
    {n : Node (interface τ) Canal (ReponseSim τ) (Robot τ)} {o : Ordre} {ps : List Routine}
    (h : Rangs r bras publiee premier n.attributes n.stack ps) (ha : n.attributes.numRobot = r)
    (hpremier : premier → o.genre r = .envoi) (hvalide : o.Valide r)
    (hcond : o.genre r ≠ .autre → brasLibre r ps = true ∧ o.Convient n.attributes bras)
    (hfollows : ρ'.Follows (liaisons τ) n (.ordre o) ps (Routine.ordre o).code) :
    ρ'.node.faulted = true ∨ Laisse r bras publiee False n ρ' := by
  cases hp : o.genre r with
  | autre =>
    refine courir_autre hfollows hp (ends_autre hp ha) (h.mono fun hfaux => ?_)
    have henvoi := hpremier hfaux
    rw [hp] at henvoi
    cases henvoi
  | bras =>
    obtain ⟨hlibre, hconvient⟩ := hcond (by simp [hp])
    have hbon : Bon r (enMouvement r ps) n.attributes bras publiee := by
      rcases h.pret hlibre with hbon | ⟨hfaux, -⟩
      · exact hbon
      · have henvoi := hpremier hfaux
        rw [hp] at henvoi
        cases henvoi
    exact courir_bras hfollows hp (ends_bras hp hbon hvalide hconvient) h.ordonnes hlibre h.routines
  | envoi =>
    obtain ⟨hlibre, hconvient⟩ := hcond (by simp [hp])
    obtain ⟨msg, rfl, hmsg⟩ := genre_envoi hp
    obtain ⟨q, hq⟩ := Option.isSome_iff_exists.1 (hvalide hmsg)
    have hnum : n.attributes.numRobot = msg.numRobot := ha.trans hmsg.symm
    have hrpos : (Robot.pose msg.data).getD n.attributes.rpos = q := by
      rw [hq]
      rfl
    have hroutines : List.Forall₂ (Tenue r bras publiee true
        { n.attributes with
          robotPosition := msg.data
          rpos := (Robot.pose msg.data).getD n.attributes.rpos }) n.stack ps :=
      tenue_libre hlibre h.routines
    have hlaisse := courir_envoi False (follows_envoyer hnum hfollows) hp ends_envoyer
      h.ordonnes hlibre hroutines
      ⟨{ rpos := q, position := msg.data, bras, publiee }, ⟨ha, hrpos, rfl, rfl, rfl⟩,
        ⟨q, hq, .inl ⟨rfl, hconvient⟩⟩, .inl rfl⟩
    exact hlaisse

end Debut

end Robots

namespace Commande

open Robots

namespace RobotsInterface

variable {c : RobotsInterface} {r : ℤ}

/-- The acknowledgements that are not about the arm leave its flag. -/
theorem robotBras_autre {numRobot data : ℤ} (h : data ≠ 3 ∧ data ≠ 4 ∧ data ≠ 5) :
    (c.retourRobotCallback numRobot data).robotBras = c.robotBras := by
  obtain ⟨h3, h4, h5⟩ := h
  unfold retourRobotCallback
  rw [if_neg h3, if_neg h4, if_neg h5]
  simp only [apply_ite RobotsInterface.robotBras, setTask, setMacroDeplacement, ite_self]

/-- What an acknowledgement does to the flag of the arm. -/
theorem robotBras_retourRobotCallback (c : RobotsInterface) (r numRobot data : ℤ) :
    (c.retourRobotCallback numRobot data).robotBras r =
      brasVu r (c.robotBras r) (.retourCommande numRobot data) := by
  by_cases hdata : data ≠ 3 ∧ data ≠ 4 ∧ data ≠ 5
  · rw [robotBras_autre hdata,
      brasVu_sansBras (show (Message.retourCommande numRobot data).SansBras from hdata)]
  · have hflag : (c.retourRobotCallback numRobot data).robotBras =
        Function.update c.robotBras numRobot
          (if data = 3 then 0 else if data = 4 then -1 else 1) := by
      have hcases : data = 3 ∨ data = 4 ∨ data = 5 := by omega
      rcases hcases with rfl | rfl | rfl <;> rfl
    rw [hflag]
    by_cases hn : numRobot = r
    · subst hn
      rw [Function.update_self]
      unfold brasVu
      dsimp only
      rw [if_pos rfl]
      split_ifs <;> first | rfl | omega
    · rw [Function.update_of_ne (Ne.symm hn)]
      exact (if_neg hn).symm

/-- The positions that `EnvoyerRobot` knows. -/
theorem pose_isSome {position : ℤ} (h : 1 ≤ position ∧ position ≤ 4) :
    (Robot.pose position).isSome := by
  obtain ⟨h1, h4⟩ := h
  interval_cases position <;> rfl

end RobotsInterface

/-- The positions of `EnvoyerPosition` exist. -/
def Appel.PositionValide : Appel → Prop
  | .envoyerPosition _ numPosition => 1 ≤ numPosition ∧ numPosition ≤ 4
  | _ => True

instance (a : Appel) : Decidable a.PositionValide := by
  unfold Appel.PositionValide
  split <;> infer_instance

/-- A call publishes orders whose positions exist, and it can only clear the flag of the arm. -/
theorem RobotsInterface.executer_bras {c : RobotsInterface} {r : ℤ} {a : Appel}
    (ha : a.PositionValide) :
    (∀ o ∈ (a.executer c).2, o.Valide r) ∧ (a.executer c).1.nbRobot = c.nbRobot ∧
      ((a.executer c).1.robotBras r = c.robotBras r ∨ (a.executer c).1.robotBras r = 0) := by
  have hupdate : ∀ numRobot : ℤ, Function.update c.robotBras numRobot 0 r = c.robotBras r ∨
      Function.update c.robotBras numRobot 0 r = 0 := by
    intro numRobot
    rcases eq_or_ne r numRobot with rfl | hne
    · exact .inr (Function.update_self ..)
    · exact .inl (Function.update_of_ne hne ..)
  cases a with
  | envoyerPosition numRobot numPosition =>
    have hposition : ¬ (numPosition < 1 ∨ numPosition > 4) := by
      unfold Appel.PositionValide at ha
      omega
    simp only [Appel.executer, envoyerPosition, if_neg hposition]
    split_ifs
    · exact ⟨by simpa [Ordre.Valide] using fun _ => pose_isSome ha, rfl, .inl rfl⟩
    · exact ⟨by simp, rfl, .inl rfl⟩
  | controlerRobot numRobot numPosition bras pince =>
    simp only [Appel.executer, controlerRobot]
    split_ifs with hposition
    · exact ⟨by simp, rfl, .inl rfl⟩
    · exact ⟨by simp, rfl, .inl rfl⟩
    · exact ⟨by simp, rfl, .inl rfl⟩
    · exact ⟨by simpa [Ordre.Valide] using pose_isSome (by omega), rfl, .inl rfl⟩
    · exact ⟨by simp, rfl, .inl rfl⟩
  | fermerPince numRobot =>
    simp only [Appel.executer, fermerPince]
    split_ifs
    · exact ⟨by simp [Ordre.Valide], rfl, .inl rfl⟩
    · exact ⟨by simp, rfl, .inl rfl⟩
  | ouvrirPince numRobot =>
    simp only [Appel.executer, ouvrirPince]
    split_ifs
    · exact ⟨by simp [Ordre.Valide], rfl, .inl rfl⟩
    · exact ⟨by simp, rfl, .inl rfl⟩
  | descendreBras numRobot =>
    simp only [Appel.executer, descendreBras]
    split_ifs
    · exact ⟨by simp [Ordre.Valide], rfl, hupdate numRobot⟩
    · exact ⟨by simp, rfl, .inl rfl⟩
  | monterBras numRobot =>
    simp only [Appel.executer, monterBras]
    split_ifs
    · exact ⟨by simp [Ordre.Valide], rfl, hupdate numRobot⟩
    · exact ⟨by simp, rfl, .inl rfl⟩
  | deplacerPiece numRobot positionA positionB =>
    simp only [Appel.executer, deplacerPiece]
    split_ifs with hnum hposition
    · refine ⟨?_, rfl, .inl rfl⟩
      have hA : (Robot.pose positionA).isSome := pose_isSome (by omega)
      have hB : (Robot.pose positionB).isSome := pose_isSome (by omega)
      simpa [ordreDe, Ordre.Valide] using ⟨hA, hB⟩
    · exact ⟨by simp, rfl, .inl rfl⟩
    · exact ⟨by simp, rfl, .inl rfl⟩
  | faireTache numPoste duree =>
    simp only [Appel.executer, faireTache]
    split_ifs
    · split
      · exact ⟨by simp [ordreDe, Ordre.Valide], rfl, .inl rfl⟩
      · exact ⟨by simp, rfl, .inl rfl⟩
    · exact ⟨by simp, rfl, .inl rfl⟩

end Commande

namespace Reseau

open Reactive Robots Commande

namespace Dialogue

variable {τ : Type} [Horloge τ] {r : ℤ} {s s' : Dialogue τ}

omit [Horloge τ] in
/-- What the flag of the arm is to become with the acknowledgements on their way. -/
def brasPromis (s : Dialogue τ) (r : ℤ) : ℤ := s.enRoute.foldl (brasVu r) (s.commande.robotBras r)

omit [Horloge τ] in
/-- The last position reached: `EnvoyerRobot` publishes it when the joints are there. -/
def positionAtteinte (s : Dialogue τ) : Option ℤ := s.robot.node.posted.foldl positionVue none

omit [Horloge τ] in
/-- The target of the joints is the pose of the last position reached, or that pose lowered once; it
is the lowered one when `BrasEnPosition` says `BAS`, and the pose when it says `HAUT`. -/
def JointsAccordes (s : Dialogue τ) (r : ℤ) : Prop :=
  ∃ p q, s.positionAtteinte = some p ∧ Robot.pose p = some q ∧
    (s.robot.node.attributes.rpos = q ∨
      s.robot.node.attributes.rpos = fun i => q i + Robot.descente i) ∧
    (s.commande.brasEnPosition r = -1 →
      s.robot.node.attributes.rpos = fun i => q i + Robot.descente i) ∧
    (s.commande.brasEnPosition r = 1 → s.robot.node.attributes.rpos = q)

omit [Horloge τ] in
/-- The positions of the commands exist. -/
def PositionValide (e : EvenementDialogue τ) : Prop := e.SiAppel Appel.PositionValide

omit [Horloge τ] in
/-- An order that moves the arm is taken up only when no suspended routine needs the arm for itself,
and finds it where it expects it. -/
def BrasPret (s : Dialogue τ) (e : EvenementDialogue τ) : Prop :=
  s.SiTraite e fun o _ => o.genre s.numRobot ≠ .autre →
    brasLibre s.numRobot s.robot.names = true ∧
      o.Convient s.robot.node.attributes (s.brasPromis s.numRobot)

omit [Horloge τ] in
instance (e : EvenementDialogue τ) : Decidable (PositionValide e) :=
  inferInstanceAs (Decidable (e.SiAppel _))

omit [Horloge τ] in
instance (s : Dialogue τ) (e : EvenementDialogue τ) : Decidable (s.BrasPret e) :=
  inferInstanceAs (Decidable (s.SiTraite e _))

omit [Horloge τ] in
/-- No order was taken up: the first one sends the robot to a position. -/
def Premier (r : ℤ) (s : Dialogue τ) : Prop :=
  ∃ o reste, s.ordres = o :: reste ∧ o.genre r = .envoi

omit [Horloge τ] in
/-- What the steps keep. -/
structure SuiviBras (r : ℤ) (s : Dialogue τ) : Prop where
  numero : s.numRobot = r
  existe : s.commande.Existe r
  valides : ∀ o ∈ s.ordres, o.Valide r
  matched : s.robot.Matched
  recus : s.recus ≤ s.robot.node.posted.length
  rangs : Rangs r (s.brasPromis r) s.positionAtteinte (s.Premier r) s.robot.node.attributes
    s.robot.node.stack s.robot.names

omit [Horloge τ] in
/-- The robot node moves. -/
theorem SuiviBras.robot {premier : Prop} {ρ' : NoeudRoutines τ} {reste : List Ordre}
    {n : Node (interface τ) Canal (ReponseSim τ) (Robot τ)} (h : s.SuiviBras r)
    (hattributes : n.attributes = s.robot.node.attributes) (hposted : n.posted = s.robot.node.posted)
    (hreste : ∀ o ∈ reste, o ∈ s.ordres)
    (hpremier : premier → ({ s with robot := ρ', ordres := reste } : Dialogue τ).Premier r)
    (hlaisse : ρ'.node.faulted = true ∨ Laisse r (s.brasPromis r) s.positionAtteinte premier n ρ') :
    ρ'.node.faulted = true ∨ ({ s with robot := ρ', ordres := reste } : Dialogue τ).SuiviBras r := by
  rcases hlaisse with hfailed | ⟨hnum, hmatched, ms, hms, hrangs⟩
  · exact .inl hfailed
  · rw [hposted] at hms
    have hbras : ({ s with robot := ρ', ordres := reste } : Dialogue τ).brasPromis r =
        ms.foldl (brasVu r) (s.brasPromis r) := by
      show (ρ'.node.posted.drop s.recus).foldl _ _ = _
      rw [hms, List.drop_append_of_le_length h.recus, List.foldl_append]
      rfl
    have hposition : ({ s with robot := ρ', ordres := reste } : Dialogue τ).positionAtteinte =
        ms.foldl positionVue s.positionAtteinte := by
      show ρ'.node.posted.foldl _ _ = _
      rw [hms, List.foldl_append]
      rfl
    refine .inr ⟨?_, h.existe, fun o ho => h.valides o (hreste o ho), hmatched, ?_, ?_⟩
    · show ρ'.node.attributes.numRobot = r
      rw [hnum, hattributes]
      exact h.numero
    · show s.recus ≤ ρ'.node.posted.length
      rw [hms, List.length_append]
      exact h.recus.trans (Nat.le_add_right _ _)
    · rw [hbras, hposition]
      exact hrangs.mono hpremier

omit [Horloge τ] in
/-- A command is called. -/
theorem SuiviBras.appeler {a : Appel} (h : s.SuiviBras r) (ha : a.PositionValide) :
    (s.appele a).SuiviBras r := by
  obtain ⟨hvalides, hnb, hflag⟩ := RobotsInterface.executer_bras ha
  have hbras : (s.appele a).brasPromis r = s.brasPromis r ∨ (s.appele a).brasPromis r = 0 := by
    show s.enRoute.foldl (brasVu r) ((a.executer s.commande).1.robotBras r) = _ ∨
      s.enRoute.foldl (brasVu r) ((a.executer s.commande).1.robotBras r) = 0
    rcases hflag with hflag | hflag
    · exact .inl (by rw [hflag]; rfl)
    · unfold brasPromis
      rcases foldl_brasVu_cases r s.enRoute with hms | ⟨c, hms⟩
      · exact .inr (by rw [hms, hflag])
      · exact .inl (by rw [hms, hms])
  have hrangs : Rangs r (s.brasPromis r) s.positionAtteinte ((s.appele a).Premier r)
      s.robot.node.attributes s.robot.node.stack s.robot.names := by
    refine h.rangs.mono ?_
    rintro ⟨o, reste, hordres, ho⟩
    exact ⟨o, reste ++ (a.executer s.commande).2, congrArg (· ++ (a.executer s.commande).2) hordres, ho⟩
  refine ⟨h.numero, ?_, ?_, h.matched, h.recus, ?_⟩
  · unfold RobotsInterface.Existe appele
    rw [hnb]
    exact h.existe
  · intro o ho
    rcases List.mem_append.1 ho with ho | ho
    · exact h.valides o ho
    · exact hvalides o ho
  · rcases hbras with hbras | hbras
    · rw [hbras]
      exact hrangs
    · rw [hbras]
      exact hrangs.oublier

omit [Horloge τ] in
/-- The command node alone moves, and what the flag of the arm is to become does not change. -/
theorem SuiviBras.commande (h : s.SuiviBras r) (hrobot : s'.robot = s.robot)
    (hordres : s'.ordres = s.ordres) (hrecus : s'.recus ≤ s'.robot.node.posted.length)
    (hnb : s'.commande.nbRobot = s.commande.nbRobot) (hbras : s'.brasPromis r = s.brasPromis r) :
    s'.SuiviBras r := by
  refine ⟨?_, ?_, ?_, ?_, hrecus, ?_⟩
  · rw [numRobot, hrobot]
    exact h.numero
  · unfold RobotsInterface.Existe
    rw [hnb]
    exact h.existe
  · rw [hordres]
    exact h.valides
  · rw [hrobot]
    exact h.matched
  · have hrangs := h.rangs
    unfold positionAtteinte Premier at hrangs ⊢
    rwa [hbras, hrobot, hordres]

/-- An order is taken up. -/
theorem SuiviBras.traiter {o : Ordre} {reste : List Ordre} {ρ' : NoeudRoutines τ}
    (h : s.SuiviBras r) (hordres : s.ordres = o :: reste) (hpret : s.BrasPret .traiter)
    (hs : s.robot.step (liaisons τ) Routine.code (.start (.ordre o)) = some ρ') :
    ρ'.node.faulted = true ∨ ({ s with robot := ρ', ordres := reste } : Dialogue τ).SuiviBras r := by
  have hnum : s.numRobot = r := h.numero
  have ho : o ∈ s.ordres := by
    rw [hordres]
    exact List.mem_cons_self
  rw [BrasPret, siTraite_traiter hordres, hnum] at hpret
  cases Roster.step_moves h.matched hs with
  | delivered he => exact absurd rfl (he _)
  | resumed he => exact absurd rfl (he _)
  | started p he hfollows =>
    cases he
    refine h.robot rfl rfl (fun o' ho' => by rw [hordres]; exact List.mem_cons_of_mem _ ho')
      False.elim (h.rangs.commencer hnum ?_ (h.valides o ho) hpret hfollows)
    rintro ⟨o', reste', hordres', ho'⟩
    rw [hordres] at hordres'
    cases hordres'
    exact ho'

/-- One step. -/
theorem suiviBras_etape {e : EvenementDialogue τ} (h : s.SuiviBras r) (hvalide : PositionValide e)
    (hpret : s.BrasPret e) (hs : s.etape e = some s') :
    s'.robot.node.faulted = true ∨ s'.SuiviBras r := by
  cases etape_avance hs with
  | appel a he hs =>
    rw [he] at hvalide
    rw [hs]
    exact .inr (h.appeler hvalide)
  | prise o reste ρ' he hordres hρ hs =>
    rw [he] at hpret
    rw [hs]
    exact h.traiter hordres hpret hρ
  | robot e' ρ' he hstart hρ hs =>
    rw [hs]
    have hlaisse : ∃ n : Node (interface τ) Canal (ReponseSim τ) (Robot τ),
        n.attributes = s.robot.node.attributes ∧ n.posted = s.robot.node.posted ∧
          (ρ'.node.faulted = true ∨
            Laisse r (s.brasPromis r) s.positionAtteinte (s.Premier r) n ρ') := by
      cases Roster.step_moves h.matched hρ with
      | delivered he hnames hstack hattributes hposted hfaulted =>
        refine ⟨s.robot.node, rfl, rfl, .inr ⟨by rw [hattributes], ?_, [], ?_, ?_⟩⟩
        · rw [Roster.Matched, hnames, hstack]
          exact h.matched
        · rw [hposted, List.append_nil]
        · rw [hattributes, hstack, hnames]
          exact h.rangs
      | started p he hfollows =>
        cases hstart p he
        exact ⟨s.robot.node, rfl, rfl, courir_autre hfollows rfl (ends_autre rfl h.numero) h.rangs⟩
      | resumed he f p ps v n hstack hnames hattributes hposted hfollows =>
        have hrangs := h.rangs
        rw [hstack, hnames, ← hattributes] at hrangs
        rw [← hattributes] at hfollows
        exact ⟨n, hattributes, hposted, hrangs.reprendre hfollows⟩
    obtain ⟨n, hattributes, hposted, hlaisse⟩ := hlaisse
    exact h.robot hattributes hposted (fun _ ho => ho) (fun hpremier => hpremier) hlaisse
  | message m he hm hs =>
    obtain ⟨hlt, -⟩ := List.getElem?_eq_some_iff.1 hm
    obtain ⟨hrobot, hordres, hrecus, hnb⟩ := recevoir_frame s m
    rw [hs]
    refine .inr (h.commande hrobot hordres ?_ hnb ?_)
    · rw [hrobot, hrecus]
      exact hlt
    · have hflag : (s.recevoir m).commande.robotBras r = brasVu r (s.commande.robotBras r) m := by
        cases m with
        | retourCommande n data => exact RobotsInterface.robotBras_retourRobotCallback _ _ _ _
        | _ => rfl
      unfold brasPromis
      rw [enRoute_recevoir hm, hflag]
      rfl
  | retourAutre n data he hn hs =>
    rw [hs]
    have hnum : n ≠ r := fun hr => hn (hr.trans h.numero.symm)
    refine .inr (h.commande rfl rfl h.recus (RobotsInterface.nbRobot_retourRobotCallback _ _ _) ?_)
    show s.enRoute.foldl (brasVu r) ((s.commande.retourRobotCallback n data).robotBras r) = _
    have hvu : brasVu r (s.commande.robotBras r) (.retourCommande n data) = s.commande.robotBras r :=
      if_neg hnum
    rw [RobotsInterface.robotBras_retourRobotCallback, hvu]
    rfl

/-- The first command: `EnvoyerPosition` on a robot that has just started. -/
def envoye (nbRobot numRobot position : ℤ) : Dialogue τ :=
  (initial nbRobot numRobot).appele (.envoyerPosition numRobot position)

theorem suiviBras_envoye {nbRobot position : ℤ} (hr : 1 ≤ r ∧ r ≤ nbRobot)
    (hposition : 1 ≤ position ∧ position ≤ 4) : (envoye nbRobot r position : Dialogue τ).SuiviBras r := by
  have hexiste : (RobotsInterface.initial nbRobot).Existe r := hr
  have hordres : (envoye nbRobot r position : Dialogue τ).ordres =
      [.sendPosition { numRobot := r, data := position }] := by
    show [] ++ ((RobotsInterface.initial nbRobot).envoyerPosition r position).2 = _
    unfold RobotsInterface.envoyerPosition
    rw [if_pos hexiste, List.nil_append]
    dsimp only
    rw [if_neg (by omega)]
  have hnb : (envoye nbRobot r position : Dialogue τ).commande.nbRobot = nbRobot := by
    show ((RobotsInterface.initial nbRobot).envoyerPosition r position).1.nbRobot = nbRobot
    unfold RobotsInterface.envoyerPosition
    rw [if_pos hexiste]
    rfl
  refine ⟨rfl, ?_, ?_, rfl, Nat.zero_le _, ⟨trivial, .nil, fun _ => .inr ⟨?_, rfl⟩⟩⟩
  · unfold RobotsInterface.Existe
    rw [hnb]
    exact hr
  · rw [hordres, List.forall_mem_singleton]
    exact fun _ => RobotsInterface.pose_isSome hposition
  · exact ⟨_, [], hordres, if_pos rfl⟩

/-- In every run that begins with `EnvoyerPosition` and whose orders find the arm where they expect
it, the joints agree with the flag of the arm whenever nothing is pending. -/
theorem bras_et_joints {nbRobot position : ℤ} (hr : 1 ≤ r ∧ r ≤ nbRobot)
    (hposition : 1 ≤ position ∧ position ≤ 4) {trace : List (EvenementDialogue τ)}
    (h : Run (Guarded (fun s e => PositionValide e ∧ s.BrasPret e) etape) (envoye nbRobot r position)
      trace s) (hrepos : s.Repos) :
    s.JointsAccordes r := by
  have hstep : ∀ (_ : List (EvenementDialogue τ)) (s : Dialogue τ) e s',
      (s.robot.node.faulted = true ∨ s.SuiviBras r) →
      Guarded (fun s e => PositionValide e ∧ s.BrasPret e) etape s e s' →
      (s'.robot.node.faulted = true ∨ s'.SuiviBras r) := by
    intro _ s e s' hinv hs
    rcases hinv with hfailed | hsuivi
    · exact .inl (faulted_etape hfailed hs.2)
    · exact suiviBras_etape hsuivi hs.1.1 hs.1.2 hs.2
  rcases Run.invariant (.inr (suiviBras_envoye hr hposition)) hstep h with hfailed | hsuivi
  · rw [hrepos.faulted] at hfailed
    cases hfailed
  · have hnames : s.robot.names = [] := by
      have hmatched := hsuivi.matched
      rw [Roster.Matched, hrepos.stack] at hmatched
      exact List.length_eq_zero_iff.1 hmatched
    have hflag : s.commande.brasEnPosition r = s.brasPromis r := by
      obtain ⟨h1, hnb⟩ := hsuivi.existe
      unfold RobotsInterface.brasEnPosition brasPromis enRoute
      rw [if_neg (by omega), hrepos.recus, List.drop_length]
      rfl
    have hpret := hsuivi.rangs.pret
    rw [hnames] at hpret
    rcases hpret rfl with ⟨v, hv, ⟨q, hq, haccord⟩, hpubliee⟩ | ⟨⟨o, reste, hordres, -⟩, -⟩
    · have hposition : s.positionAtteinte = some v.position := by
        rcases hpubliee with hfaux | hpubliee
        · cases hfaux
        · rw [hv.publiee, hpubliee]
      refine ⟨v.position, q, hposition, hq, ?_⟩
      rw [hflag, hv.bras, hv.rpos]
      rcases haccord with ⟨hrpos, hbras⟩ | ⟨hrpos, hbras⟩
      · exact ⟨.inl hrpos, fun hb => absurd hb hbras, fun _ => hrpos⟩
      · exact ⟨.inr hrpos, fun _ => hrpos, fun hb => absurd hb hbras⟩
    · rw [hrepos.ordres] at hordres
      cases hordres

/-- The joints reach their targets one after the other. -/
def rejointes (cibles : List ℤ) : List (EvenementDialogue ℤ) :=
  .repondre .setJointState :: .continuer :: cibles.flatMap fun cible =>
    [.repondre (.getJointState (cible * Robot.pi / 180)), .continuer]

/-- The robot goes to position 1. -/
def allerPosition1 : List (EvenementDialogue ℤ) :=
  [.traiter] ++ rejointes [128, 90, 90, 80, 90, -90, -40] ++ [.livrer, .livrer]

/-- The arm goes down. -/
def descendre : List (EvenementDialogue ℤ) :=
  [.appeler (.descendreBras 1), .traiter] ++ rejointes [130, 100, 90, 80, 100, -87, -34] ++
  [.livrer, .livrer]

/-- The arm goes up again. -/
def monter : List (EvenementDialogue ℤ) :=
  [.appeler (.monterBras 1), .traiter] ++ rejointes [128, 90, 90, 80, 90, -90, -40] ++
  [.livrer, .livrer]

/-- `EnvoyerPosition`, `DescendreBras`, `MonterBras`: the joints agree with the flag of the arm when
it is down, and when it is up again. -/
theorem bras_et_joints_descendre_monter : ∃ s s' : Dialogue ℤ,
    Run (Guarded (fun s e => PositionValide e ∧ s.BrasPret e) etape) (envoye 4 1 1)
      (allerPosition1 ++ descendre) s ∧ s.commande.brasEnPosition 1 = -1 ∧ s.JointsAccordes 1 ∧
    Run (Guarded (fun s e => PositionValide e ∧ s.BrasPret e) etape) (envoye 4 1 1)
      (allerPosition1 ++ descendre ++ monter) s' ∧ s'.commande.brasEnPosition 1 = 1 ∧
      s'.JointsAccordes 1 := by
  have hdescendu : (execute (fun s e => PositionValide e ∧ s.BrasPret e) etape
      (envoye 4 1 1 : Dialogue ℤ) (allerPosition1 ++ descendre)).any (fun s =>
        decide (s.Repos ∧ s.commande.brasEnPosition 1 = -1)) = true := by
    decide +kernel
  have hmonte : (execute (fun s e => PositionValide e ∧ s.BrasPret e) etape
      (envoye 4 1 1 : Dialogue ℤ) (allerPosition1 ++ descendre ++ monter)).any (fun s =>
        decide (s.Repos ∧ s.commande.brasEnPosition 1 = 1)) = true := by
    decide +kernel
  obtain ⟨s, hs, hfin⟩ := (Option.any_eq_true _ _).1 hdescendu
  obtain ⟨s', hs', hfin'⟩ := (Option.any_eq_true _ _).1 hmonte
  obtain ⟨hrepos, hbas⟩ := of_decide_eq_true hfin
  obtain ⟨hrepos', hhaut⟩ := of_decide_eq_true hfin'
  have hrun := run_execute .nil hs
  have hrun' := run_execute .nil hs'
  exact ⟨s, s', hrun, hbas,
    bras_et_joints ⟨by decide, by decide⟩ ⟨by decide, by decide⟩ hrun hrepos, hrun', hhaut,
    bras_et_joints ⟨by decide, by decide⟩ ⟨by decide, by decide⟩ hrun' hrepos'⟩

/-- `DescendreBras` twice lowers the target twice. -/
theorem bras_descendu_deux_fois : ¬ ∀ (trace : List (EvenementDialogue ℤ)) (s : Dialogue ℤ),
    Run (Guarded (fun _ e => PositionValide e) etape) (envoye 4 1 1) trace s → s.Repos →
      s.JointsAccordes 1 := by
  intro h
  have hexecution : (execute (fun _ e => PositionValide e) etape (envoye 4 1 1 : Dialogue ℤ)
      (allerPosition1 ++ descendre ++ [.appeler (.descendreBras 1), .traiter] ++
        rejointes [132, 110, 90, 80, 110, -84, -28] ++ [.livrer, .livrer])).any (fun s =>
      decide (s.Repos ∧ s.positionAtteinte = some 1 ∧ s.robot.node.attributes.rpos 0 = 132)) =
        true := by
    decide +kernel
  obtain ⟨s, hs, hfin⟩ := (Option.any_eq_true _ _).1 hexecution
  obtain ⟨hrepos, hposition, hrpos⟩ := of_decide_eq_true hfin
  obtain ⟨p, q, hp, hq, hcas, -⟩ := h _ s (run_execute .nil hs) hrepos
  rw [hposition] at hp
  cases hp
  cases hq
  rcases hcas with hcas | hcas
  · rw [hcas] at hrpos
    revert hrpos
    decide
  · rw [hcas] at hrpos
    revert hrpos
    decide

end Dialogue

end Reseau
