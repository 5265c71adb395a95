import Cellule.Lib.Latch

/-! # Rely and guarantee

What code ends with when others move the attributes inside its waits. The code relies on a relation
between the attributes before a wait and after it, and guarantees a relation for each of its own
writes. The result is stated on the attributes it leaves and on the messages it publishes.
-/

namespace Reactive

/-- What the waits may do to the attributes, and what the writes do. -/
structure Pact (σ : Type) where
  rely : σ → σ → Prop
  guar : σ → σ → Prop
  rely_trans : ∀ {a b c}, rely a b → rely b c → rely a c
  guar_refl : ∀ a, guar a a
  guar_trans : ∀ {a b c}, guar a b → guar b c → guar a c

namespace Pact

variable {I : Interface} {σ α β : Type} (P : Pact σ)

/-- From the attributes `s`, the code keeps the pact; the messages that it has published satisfy
`pause` when it waits, and when it ends they satisfy `Q` with its result and the attributes. -/
def Ends : Prog I σ α → σ → (List I.Message → Prop) → (α → σ → List I.Message → Prop) → Prop
  | .ret a, s, _, Q => Q a s []
  | .read k, s, pause, Q => Ends (k s) s pause Q
  | .write f k, s, pause, Q => P.guar s (f s) ∧ Ends k (f s) pause Q
  | .emit m k, s, pause, Q => Ends k s (fun ms => pause (m :: ms)) fun a s' ms => Q a s' (m :: ms)
  | .ask _ k, s, pause, Q => pause [] ∧ ∀ v s', P.rely s s' → Ends (k v) s' pause Q
  | .askUntil _ _ k, s, pause, Q => pause [] ∧ ∀ s', P.rely s s' → Ends k s' pause Q
  | .fault, _, _, _ => True

variable {P} {p : Prog I σ α} {f : α → Prog I σ β} {s : σ} {pause pause' : List I.Message → Prop}
  {Q Q' : α → σ → List I.Message → Prop}

theorem Ends.mono (h : P.Ends p s pause Q) (hpause : ∀ ms, pause ms → pause' ms)
    (hQ : ∀ a s ms, Q a s ms → Q' a s ms) : P.Ends p s pause' Q' := by
  induction p generalizing s pause pause' Q Q' with
  | ret a => exact hQ _ _ _ h
  | read k ih => exact ih _ h hpause hQ
  | write g k ih => exact ⟨h.1, ih h.2 hpause hQ⟩
  | emit m k ih => exact ih h (fun ms => hpause (m :: ms)) fun a s' ms => hQ a s' (m :: ms)
  | ask q k ih => exact ⟨hpause _ h.1, fun v s' hs => ih v (h.2 v s' hs) hpause hQ⟩
  | askUntil q ok k ih => exact ⟨hpause _ h.1, fun s' hs => ih (h.2 s' hs) hpause hQ⟩
  | fault => trivial

/-- A weaker postcondition. -/
theorem Ends.post (h : P.Ends p s pause Q) (hQ : ∀ a s ms, Q a s ms → Q' a s ms) :
    P.Ends p s pause Q' := h.mono (fun _ h => h) hQ

/-- Code that keeps a pact keeps any pact that relies on more and guarantees less. -/
theorem Ends.change {R : Pact σ} (h : P.Ends p s pause Q) (hrely : ∀ a b, R.rely a b → P.rely a b)
    (hguar : ∀ a b, P.guar a b → R.guar a b) : R.Ends p s pause Q := by
  induction p generalizing s pause Q with
  | ret a => exact h
  | read k ih => exact ih _ h
  | write g k ih => exact ⟨hguar _ _ h.1, ih h.2⟩
  | emit m k ih => exact ih h
  | ask q k ih => exact ⟨h.1, fun v s' hs => ih v (h.2 v s' (hrely _ _ hs))⟩
  | askUntil q ok k ih => exact ⟨h.1, fun s' hs => ih (h.2 s' (hrely _ _ hs))⟩
  | fault => trivial

theorem ends_bind {Q : β → σ → List I.Message → Prop} :
    P.Ends (p >>= f) s pause Q ↔
      P.Ends p s pause fun a s' ms =>
        P.Ends (f a) s' (fun ms' => pause (ms ++ ms')) fun b s'' ms' => Q b s'' (ms ++ ms') := by
  change P.Ends (p.bind f) s pause Q ↔ _
  induction p generalizing s pause Q with
  | ret a => rfl
  | read k ih => exact ih s
  | write g k ih => exact and_congr_right fun _ => ih
  | emit m k ih => exact ih
  | ask q k ih =>
    exact and_congr_right fun _ =>
      forall_congr' fun v => forall_congr' fun s' => imp_congr_right fun _ => ih v
  | askUntil q ok k ih =>
    exact and_congr_right fun _ => forall_congr' fun s' => imp_congr_right fun _ => ih
  | fault => rfl

@[simp] theorem ends_pure {a : α} : P.Ends (pure a : Prog I σ α) s pause Q ↔ Q a s [] := Iff.rfl

@[simp] theorem ends_get {Q : σ → σ → List I.Message → Prop} :
    P.Ends (Prog.get : Prog I σ σ) s pause Q ↔ Q s s [] := Iff.rfl

@[simp] theorem ends_modify {g : σ → σ} {Q : Unit → σ → List I.Message → Prop} :
    P.Ends (Prog.modify g : Prog I σ Unit) s pause Q ↔ P.guar s (g s) ∧ Q () (g s) [] := Iff.rfl

@[simp] theorem ends_publish {m : I.Message} {Q : Unit → σ → List I.Message → Prop} :
    P.Ends (Prog.publish m : Prog I σ Unit) s pause Q ↔ Q () s [m] := Iff.rfl

/-! ## Calm code -/

variable (P) in
/-- Code whose writes keep the pact from any attributes, and whose messages all satisfy `A`. -/
def Calm (A : I.Message → Prop) : Prog I σ α → Prop
  | .ret _ => True
  | .read k => ∀ s, Calm A (k s)
  | .write f k => (∀ s, P.guar s (f s)) ∧ Calm A k
  | .emit m k => A m ∧ Calm A k
  | .ask _ k => ∀ v, Calm A (k v)
  | .askUntil _ _ k => Calm A k
  | .fault => True

variable {A : I.Message → Prop}

theorem Calm.bind (hp : P.Calm A p) (hf : ∀ a, P.Calm A (f a)) : P.Calm A (p >>= f) := by
  change P.Calm A (p.bind f)
  induction p with
  | ret a => exact hf a
  | read k ih => exact fun s => ih s (hp s)
  | write g k ih => exact ⟨hp.1, ih hp.2⟩
  | emit m k ih => exact ⟨hp.1, ih hp.2⟩
  | ask q k ih => exact fun v => ih v (hp v)
  | askUntil q ok k ih => exact ih hp
  | fault => trivial

theorem Calm.ite {c : Prop} [Decidable c] {p' : Prog I σ α} (hp : P.Calm A p) (hp' : P.Calm A p') :
    P.Calm A (if c then p else p') := by
  split_ifs
  · exact hp
  · exact hp'

@[simp] theorem calm_pure {a : α} : P.Calm A (pure a : Prog I σ α) := trivial

@[simp] theorem calm_get : P.Calm A (Prog.get : Prog I σ σ) := fun _ => trivial

theorem calm_modify {g : σ → σ} (h : ∀ s, P.guar s (g s)) :
    P.Calm A (Prog.modify g : Prog I σ Unit) := ⟨h, trivial⟩

theorem calm_publish {m : I.Message} (h : A m) : P.Calm A (Prog.publish m : Prog I σ Unit) :=
  ⟨h, trivial⟩

theorem Calm.forM {γ : Type} {l : List γ} {f : γ → Prog I σ Unit} (h : ∀ b, P.Calm A (f b)) :
    P.Calm A (l.forM f) := by
  induction l with
  | nil => trivial
  | cons b l ih => exact (h b).bind fun _ => ih

theorem Calm.mapM {γ : Type} {l : List γ} {f : γ → Prog I σ α} (h : ∀ b, P.Calm A (f b)) :
    P.Calm A (l.mapM f) := by
  induction l with
  | nil => trivial
  | cons b l ih =>
    rw [List.mapM_cons]
    exact (h b).bind fun _ => ih.bind fun _ => trivial

/-- Calm code publishes calm messages only, and what a property of the attributes that its writes
and its waits keep was before, it is after. -/
theorem Calm.ends {J : σ → Prop} (h : P.Calm A p) (hguar : ∀ a b, P.guar a b → J a → J b)
    (hrely : ∀ a b, P.rely a b → J a → J b) (hs : J s) :
    P.Ends p s (fun ms => ∀ m ∈ ms, A m) fun _ s' ms => J s' ∧ ∀ m ∈ ms, A m := by
  induction p generalizing s with
  | ret a => exact ⟨hs, by simp⟩
  | read k ih => exact ih s (h s) hs
  | write g k ih => exact ⟨h.1 s, ih h.2 (hguar _ _ (h.1 s) hs)⟩
  | emit m k ih =>
    refine (ih h.2 hs).mono (fun ms hms => List.forall_mem_cons.2 ⟨h.1, hms⟩) ?_
    exact fun _ s' ms hms => ⟨hms.1, List.forall_mem_cons.2 ⟨h.1, hms.2⟩⟩
  | ask q k ih => exact ⟨by simp, fun v s' hs' => ih v (h v) (hrely _ _ hs' hs)⟩
  | askUntil q ok k ih => exact ⟨by simp, fun s' hs' => ih h (hrely _ _ hs' hs)⟩
  | fault => trivial

/-! ## A node of calm code -/

section CalmNode

variable {I : Interface} {K R σ P : Type} [DecidableEq K] {C : Wiring I K R}
  {code : P → Prog I σ Unit} (π : Pact σ) (A : I.Message → Prop)

/-- What the activations of a node have left to run is calm. -/
def CalmNode (s : Node I K R σ) : Prop := ∀ f ∈ s.stack, ∀ v a, π.Calm A (f.wait.next v a)

variable {π A} {s s' : Node I K R σ}

/-- Calm code keeps the pact up to its next wait. -/
theorem CalmNode.advance {p : Prog I σ Unit} (h : π.CalmNode A s) (hp : π.Calm A p) :
    π.CalmNode A (Node.advance C p s) ∧ π.guar s.attributes (Node.advance C p s).attributes := by
  induction p generalizing s with
  | ret a => exact ⟨h, π.guar_refl _⟩
  | read k ih => exact ih _ h (hp _)
  | write f k ih =>
    obtain ⟨hcalm, hguar⟩ := ih (s := { s with attributes := f s.attributes }) h hp.2
    exact ⟨hcalm, π.guar_trans (hp.1 _) hguar⟩
  | emit m k ih => exact ih (s := { s with posted := s.posted ++ [m] }) h hp.2
  | ask q k => exact ⟨List.forall_mem_cons.2 ⟨fun v _ => hp v, h⟩, π.guar_refl _⟩
  | askUntil q ok k =>
    refine ⟨List.forall_mem_cons.2 ⟨?_, h⟩, π.guar_refl _⟩
    intro v a
    show π.Calm A (if ok a v then k else .askUntil q ok k)
    split_ifs <;> exact hp
  | fault => exact ⟨h, π.guar_refl _⟩

/-- A step of a node of calm code keeps the pact. -/
theorem CalmNode.step {e : NodeEvent I P R} (h : π.CalmNode A s)
    (hcode : ∀ p, e = .start p → π.Calm A (code p)) (hs : s.step C code e = some s') :
    π.CalmNode A s' ∧ π.guar s.attributes s'.attributes := by
  cases Node.step_moves hs with
  | started p => exact h.advance (hcode p rfl)
  | delivered m hm => exact ⟨h, π.guar_refl _⟩
  | taken f rest v hstack hup hv =>
    rw [CalmNode, hstack] at h
    obtain ⟨hf, hrest⟩ := List.forall_mem_cons.1 h
    exact CalmNode.advance (s := s.take C f rest v) hrest (hf _ _)
  | served answer f rest v hstack hcall =>
    rw [CalmNode, hstack] at h
    obtain ⟨hf, hrest⟩ := List.forall_mem_cons.1 h
    exact CalmNode.advance (s := { s with stack := rest }) hrest (hf _ _)

end CalmNode

end Pact

/-! ## The activations of a node -/

namespace Frame

variable {I : Interface} {σ : Type} (P : Pact σ)

/-- A suspended activation that goes on from attributes that the pact allows ends as `Q` says. -/
def Ends (f : Frame I σ) (s : σ) (pause : List I.Message → Prop) (Q : σ → List I.Message → Prop) :
    Prop :=
  ∀ v s', P.rely s s' → P.Ends (f.wait.next v s') s' pause fun _ => Q

variable {P} {f : Frame I σ} {s s' : σ} {pause pause' : List I.Message → Prop}
  {Q Q' : σ → List I.Message → Prop}

theorem Ends.mono (h : f.Ends P s pause Q) (hpause : ∀ ms, pause ms → pause' ms)
    (hQ : ∀ s ms, Q s ms → Q' s ms) : f.Ends P s pause' Q' :=
  fun v s' hs => (h v s' hs).mono hpause fun _ => hQ

/-- The attributes move while the activation is suspended. -/
theorem Ends.move (h : f.Ends P s pause Q) (hs : P.rely s s') : f.Ends P s' pause Q :=
  fun v s'' hs' => h v s'' (P.rely_trans hs hs')

theorem ends_once {q : I.Request} {k : I.Reply q → Prog I σ Unit} {r : ℕ}
    (h : P.Ends (.ask q k) s pause fun _ => Q) : (⟨r, .once q k⟩ : Frame I σ).Ends P s pause Q := h.2

theorem ends_again {q : I.Request} {ok : σ → I.Reply q → Bool} {k : Prog I σ Unit} {r : ℕ}
    (h : P.Ends (.askUntil q ok k) s pause fun _ => Q) :
    (⟨r, .again q ok k⟩ : Frame I σ).Ends P s pause Q := by
  intro v s' hs
  show P.Ends (if ok s' v then k else .askUntil q ok k) s' _ _
  split_ifs
  · exact h.2 s' hs
  · exact ⟨h.1, fun s'' hs' => h.2 s'' (P.rely_trans hs hs')⟩

end Frame

/-! ## Which activation a suspended routine belongs to -/

/-- A node with the activations of its suspended routines, innermost first. -/
structure Roster (I : Interface) (K R σ P : Type) where
  node : Node I K R σ
  names : List P

namespace Roster

variable {I : Interface} {K P R σ : Type} [DecidableEq K] (C : Wiring I K R)
  (code : P → Prog I σ Unit)

/-- The node moves; `ps` are the activations of its routines if the running one waits again. -/
def after (ps : List P) (n : Node I K R σ) : Roster I K R σ P where
  node := n
  names := ps.drop (ps.length - n.stack.length)

/-- One step of the node. -/
def step (s : Roster I K R σ P) (e : NodeEvent I P R) : Option (Roster I K R σ P) :=
  (s.node.step C code e).map (after (match e with
    | .start p => p :: s.names
    | _ => s.names))

/-- Every suspended routine has a name. -/
def Matched (s : Roster I K R σ P) : Prop := s.names.length = s.node.stack.length

/-- The node has run `prog`, for the activation `p`, from the node `n` up to its next wait. -/
structure Follows (s : Roster I K R σ P) (n : Node I K R σ) (p : P) (ps : List P)
    (prog : Prog I σ Unit) : Prop where
  node : s.node = Node.advance C prog n
  names : s.names = (p :: ps).drop ((p :: ps).length - s.node.stack.length)
  alive : n.faulted = false
  matched : ps.length = n.stack.length

/-- What a step does. -/
inductive Moves (s : Roster I K R σ P) (e : NodeEvent I P R) (s' : Roster I K R σ P) : Prop
  /-- A reply comes. -/
  | delivered (he : ∀ p, e ≠ .start p) (names : s'.names = s.names)
      (stack : s'.node.stack = s.node.stack) (attributes : s'.node.attributes = s.node.attributes)
      (posted : s'.node.posted = s.node.posted) (faulted : s'.node.faulted = s.node.faulted)
  /-- An activation begins. -/
  | started (p : P) (he : e = .start p) (follows : s'.Follows C s.node p s.names (code p))
  /-- The running activation goes on. -/
  | resumed (he : ∀ p, e ≠ .start p) (f : Frame I σ) (p : P) (ps : List P)
      (v : I.Reply f.wait.request) (n : Node I K R σ)
      (stack : s.node.stack = f :: n.stack) (names : s.names = p :: ps)
      (attributes : n.attributes = s.node.attributes) (posted : n.posted = s.node.posted)
      (follows : s'.Follows C n p ps (f.wait.next v s.node.attributes))

/-- The routine fails, ends, or waits; `ms` is what it has published since. -/
inductive Outcome (s : Roster I K R σ P) (n : Node I K R σ) (p : P) (ps : List P)
    (π : Pact σ) (pause : List I.Message → Prop) (Q : σ → List I.Message → Prop)
    (ms : List I.Message) : Prop
  | failed (h : s.node.faulted = true)
  | ended (alive : s.node.faulted = false) (stack : s.node.stack = n.stack) (names : s.names = ps)
      (h : Q s.node.attributes ms)
  | waits (f : Frame I σ) (alive : s.node.faulted = false) (stack : s.node.stack = f :: n.stack)
      (names : s.names = p :: ps) (hpause : pause ms)
      (h : f.Ends π s.node.attributes (fun ms' => pause (ms ++ ms')) fun s' ms' => Q s' (ms ++ ms'))

variable {C code} {s s' : Roster I K R σ P} {n : Node I K R σ} {p : P} {ps : List P}
  {prog : Prog I σ Unit} {π : Pact σ} {pause : List I.Message → Prop}
  {Q : σ → List I.Message → Prop}

/-- The step of the node. -/
theorem step_node {e : NodeEvent I P R} (h : s.step C code e = some s') :
    s.node.step C code e = some s'.node := by
  obtain ⟨n, hn, rfl⟩ := Option.map_eq_some_iff.1 h
  exact hn

/-- Only a node that has not failed moves. -/
theorem step_alive {e : NodeEvent I P R} (h : s.step C code e = some s') :
    s.node.faulted = false := by
  obtain ⟨n', hn, -⟩ := Option.map_eq_some_iff.1 h
  have hspin : s.node.spinning C = true → s.node.faulted = false := by
    intro hspin
    simp only [Node.spinning, Bool.and_eq_true, Bool.not_eq_true'] at hspin
    exact hspin.1
  cases e with
  | start p =>
    rw [Node.step] at hn
    split_ifs at hn with h
    exact hspin h
  | receive m =>
    rw [Node.step] at hn
    split_ifs at hn with h
    exact hspin h.1
  | resume =>
    rw [Node.step] at hn
    split at hn
    · cases hn
    · split_ifs at hn with h
      exact hspin h.1
  | serve answer =>
    rw [Node.step] at hn
    split at hn
    · cases hn
    · split_ifs at hn with h
      exact h.1

omit [DecidableEq K] in
/-- The name of the running activation. -/
theorem Matched.cons {f : Frame I σ} {rest : List (Frame I σ)} (hm : s.Matched)
    (hstack : s.node.stack = f :: rest) :
    ∃ p ps, s.names = p :: ps ∧ ps.length = rest.length := by
  rw [Matched, hstack] at hm
  obtain ⟨p, ps, hnames⟩ := List.exists_cons_of_length_eq_add_one hm
  rw [hnames] at hm
  exact ⟨p, ps, hnames, by simpa using hm⟩

/-- What a step does. -/
theorem step_moves {e : NodeEvent I P R} (hm : s.Matched) (h : s.step C code e = some s') :
    s.Moves C code e s' := by
  have halive := step_alive h
  obtain ⟨n', hn, rfl⟩ := Option.map_eq_some_iff.1 h
  cases e with
  | start p =>
    rw [Node.step] at hn
    split_ifs at hn
    cases hn
    exact .started p rfl ⟨rfl, rfl, halive, hm⟩
  | receive m =>
    rw [Node.step] at hn
    split_ifs at hn
    cases hn
    refine .delivered (by simp) ?_ rfl rfl rfl rfl
    show s.names.drop (s.names.length - s.node.stack.length) = s.names
    rw [hm, Nat.sub_self, List.drop_zero]
  | resume =>
    rw [Node.step] at hn
    rcases hstack : s.node.stack with _ | ⟨f, rest⟩
    · rw [hstack] at hn
      cases hn
    · rw [hstack] at hn
      dsimp only at hn
      split_ifs at hn
      obtain ⟨v, -, rfl⟩ := Option.map_eq_some_iff.1 hn
      obtain ⟨p, ps, hnames, hlength⟩ := hm.cons hstack
      refine .resumed (by simp) f p ps v (s.node.take C f rest v) hstack hnames rfl rfl
        ⟨rfl, ?_, halive, hlength⟩
      rw [← hnames]
      rfl
  | serve answer =>
    rw [Node.step] at hn
    rcases hstack : s.node.stack with _ | ⟨f, rest⟩
    · rw [hstack] at hn
      cases hn
    · rw [hstack] at hn
      dsimp only at hn
      split_ifs at hn
      obtain ⟨v, -, rfl⟩ := Option.map_eq_some_iff.1 hn
      obtain ⟨p, ps, hnames, hlength⟩ := hm.cons hstack
      refine .resumed (by simp) f p ps v { s.node with stack := rest } hstack hnames rfl rfl
        ⟨rfl, ?_, halive, hlength⟩
      rw [← hnames]
      rfl

/-- Code that ends as `Q` says, run up to its next wait. -/
theorem advance_ends (n : Node I K R σ) (h : π.Ends prog n.attributes pause fun _ => Q) : ∃ ms,
    (Node.advance C prog n).posted = n.posted ++ ms ∧
      π.guar n.attributes (Node.advance C prog n).attributes ∧
      ((Node.advance C prog n).faulted = true ∨
        (Node.advance C prog n).faulted = n.faulted ∧
          ((Node.advance C prog n).stack = n.stack ∧ Q (Node.advance C prog n).attributes ms ∨
            ∃ f : Frame I σ, (Node.advance C prog n).stack = f :: n.stack ∧ pause ms ∧
              f.Ends π (Node.advance C prog n).attributes (fun ms' => pause (ms ++ ms'))
                fun s' ms' => Q s' (ms ++ ms'))) := by
  induction prog generalizing n pause Q with
  | ret a => exact ⟨[], (List.append_nil _).symm, π.guar_refl _, .inr ⟨rfl, .inl ⟨rfl, h⟩⟩⟩
  | read k ih => exact ih _ n h
  | write f k ih =>
    obtain ⟨ms, hposted, hmoved, hcases⟩ := ih { n with attributes := f n.attributes } h.2
    exact ⟨ms, hposted, π.guar_trans h.1 hmoved, hcases⟩
  | emit m k ih =>
    obtain ⟨ms, hposted, hmoved, hcases⟩ := ih { n with posted := n.posted ++ [m] } h
    refine ⟨m :: ms, ?_, hmoved, hcases⟩
    exact hposted.trans (List.append_assoc _ [m] ms)
  | ask q k =>
    refine ⟨[], (List.append_nil _).symm, π.guar_refl _, .inr ⟨rfl, .inr ⟨_, rfl, h.1, ?_⟩⟩⟩
    exact Frame.ends_once h
  | askUntil q ok k =>
    refine ⟨[], (List.append_nil _).symm, π.guar_refl _, .inr ⟨rfl, .inr ⟨_, rfl, h.1, ?_⟩⟩⟩
    exact Frame.ends_again h
  | fault => exact ⟨[], (List.append_nil _).symm, π.guar_refl _, .inl rfl⟩

/-- What the running routine leaves. -/
theorem Follows.outcome (h : s'.Follows C n p ps prog)
    (hp : π.Ends prog n.attributes pause fun _ => Q) : ∃ ms,
      s'.node.posted = n.posted ++ ms ∧ π.guar n.attributes s'.node.attributes ∧
        s'.Outcome n p ps π pause Q ms := by
  obtain ⟨hnode, hnames, halive, hmatched⟩ := h
  obtain ⟨ms, hposted, hmoved, hcases⟩ := advance_ends (C := C) n hp
  rw [← hnode] at hposted hmoved hcases
  refine ⟨ms, hposted, hmoved, ?_⟩
  rcases hcases with hfailed | ⟨hfaulted, ⟨hstack, hQ⟩ | ⟨f, hstack, hpause, hf⟩⟩
  · exact .failed hfailed
  · refine .ended (hfaulted.trans halive) hstack ?_ hQ
    rw [hnames, hstack, List.length_cons, hmatched, Nat.add_sub_cancel_left]
    rfl
  · refine .waits f (hfaulted.trans halive) hstack ?_ hpause hf
    rw [hnames, hstack, List.length_cons, List.length_cons, hmatched, Nat.sub_self]
    rfl

omit [DecidableEq K] in
/-- Every suspended routine keeps its name. -/
theorem Outcome.matched {ms : List I.Message} (h : s'.Outcome n p ps π pause Q ms)
    (halive : s'.node.faulted = false) (hps : ps.length = n.stack.length) : s'.Matched := by
  cases h with
  | failed hf =>
    rw [hf] at halive
    cases halive
  | ended _ hstack hnames => rwa [Matched, hstack, hnames]
  | waits f _ hstack hnames => rw [Matched, hstack, hnames, List.length_cons, List.length_cons, hps]

end Roster

end Reactive
