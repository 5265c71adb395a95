import Cellule.Lib.Latch

/-! # Contracts of code that waits

What a node's code keeps when other activations run inside its waits. A contract names an invariant
of the attributes, the requests that may be made and the replies that may come, and accounts for
tokens: the attributes and the messages hold some, and code that is suspended holds the tokens that
it took from the attributes and has not given away.
-/

namespace Reactive

/-- An invariant of the attributes, the tokens that attributes and messages hold, and conditions on
requests and replies. -/
structure Contract (I : Interface) (σ : Type) where
  inv : σ → Prop
  held : σ → ℕ
  carried : I.Message → ℕ
  asks : I.Request → Prop
  replies : (q : I.Request) → I.Reply q → Prop

namespace Contract

variable {I : Interface} {σ α β : Type} (K : Contract I σ)

/-- The attributes that code holding `n` tokens can find: the invariant holds, and there is at most
one token. -/
structure Fits (n : ℕ) (s : σ) : Prop where
  inv : K.inv s
  le_one : n + K.held s ≤ 1

/-- The code respects the contract from the attributes `s` with `n` tokens in hand, and ends as
`post` says. After a wait the attributes are any that fit. -/
def Meets (post : α → ℕ → σ → Prop) : Prog I σ α → ℕ → σ → Prop
  | .ret a, n, s => post a n s
  | .read k, n, s => Meets post (k s) n s
  | .write f k, n, s =>
      K.inv (f s) ∧ K.held (f s) ≤ n + K.held s ∧ Meets post k (n + K.held s - K.held (f s)) (f s)
  | .emit m k, n, s => K.carried m ≤ n ∧ Meets post k (n - K.carried m) s
  | .ask q k, n, _ => K.asks q ∧ ∀ v s, K.replies q v → K.Fits n s → Meets post (k v) n s
  | .askUntil q _ k, n, _ => K.asks q ∧ ∀ s, K.Fits n s → Meets post k n s
  | .fault, _, _ => True

variable {K} {post post' : α → ℕ → σ → Prop} {n : ℕ} {s : σ}

theorem Meets.mono {p : Prog I σ α} (h : K.Meets post p n s)
    (hpost : ∀ a n s, post a n s → post' a n s) : K.Meets post' p n s := by
  induction p generalizing n s with
  | ret a => exact hpost a n s h
  | read k ih => exact ih s h
  | write f k ih => exact ⟨h.1, h.2.1, ih h.2.2⟩
  | emit m k ih => exact ⟨h.1, ih h.2⟩
  | ask q k ih => exact ⟨h.1, fun v s hv hs => ih v (h.2 v s hv hs)⟩
  | askUntil q ok k ih => exact ⟨h.1, fun s hs => ih (h.2 s hs)⟩
  | fault => trivial

/-- A sequence respects the contract when its first part leaves what its second part needs. -/
theorem Meets.bind {p : Prog I σ β} {f : β → Prog I σ α}
    (h : K.Meets (fun b n s => K.Meets post (f b) n s) p n s) : K.Meets post (p >>= f) n s := by
  change K.Meets post (p.bind f) n s
  induction p generalizing n s with
  | ret a => exact h
  | read k ih => exact ih s h
  | write g k ih => exact ⟨h.1, h.2.1, ih h.2.2⟩
  | emit m k ih => exact ⟨h.1, ih h.2⟩
  | ask q k ih => exact ⟨h.1, fun v s hv hs => ih v (h.2 v s hv hs)⟩
  | askUntil q ok k ih => exact ⟨h.1, fun s hs => ih (h.2 s hs)⟩
  | fault => trivial

/-! ## Code that moves no token -/

variable (K) in
/-- The code keeps the invariant and moves no token, and its results satisfy `res`. -/
def Quiet (res : α → Prop) : Prog I σ α → Prop
  | .ret a => res a
  | .read k => ∀ s, K.inv s → Quiet res (k s)
  | .write f k => (∀ s, K.inv s → K.inv (f s) ∧ K.held (f s) = K.held s) ∧ Quiet res k
  | .emit m k => K.carried m = 0 ∧ Quiet res k
  | .ask q k => K.asks q ∧ ∀ v, K.replies q v → Quiet res (k v)
  | .askUntil q _ k => K.asks q ∧ Quiet res k
  | .fault => True

variable {res res' : α → Prop}

theorem quiet_bind {p : Prog I σ β} {f : β → Prog I σ α} :
    K.Quiet res (p >>= f) ↔ K.Quiet (fun b => K.Quiet res (f b)) p := by
  change K.Quiet res (p.bind f) ↔ _
  induction p with
  | ret a => rfl
  | read k ih => exact forall_congr' fun s => imp_congr_right fun _ => ih s
  | write g k ih => exact and_congr_right fun _ => ih
  | emit m k ih => exact and_congr_right fun _ => ih
  | ask q k ih => exact and_congr_right fun _ => forall_congr' fun v => imp_congr_right fun _ => ih v
  | askUntil q ok k ih => exact and_congr_right fun _ => ih
  | fault => rfl

theorem Quiet.mono {p : Prog I σ α} (h : K.Quiet res p) (hres : ∀ a, res a → res' a) :
    K.Quiet res' p := by
  induction p with
  | ret a => exact hres a h
  | read k ih => exact fun s hs => ih s (h s hs)
  | write g k ih => exact ⟨h.1, ih h.2⟩
  | emit m k ih => exact ⟨h.1, ih h.2⟩
  | ask q k ih => exact ⟨h.1, fun v hv => ih v (h.2 v hv)⟩
  | askUntil q ok k ih => exact ⟨h.1, ih h.2⟩
  | fault => trivial

/-- Code that moves no token leaves in hand what it found. -/
theorem Quiet.meets {p : Prog I σ α} (h : K.Quiet res p) (hs : K.Fits n s) :
    K.Meets (fun a n' s' => res a ∧ n' = n ∧ K.Fits n s') p n s := by
  induction p generalizing s with
  | ret a => exact ⟨h, rfl, hs⟩
  | read k ih => exact ih s (h s hs.inv) hs
  | write f k ih =>
    obtain ⟨hinv, hheld⟩ := h.1 s hs.inv
    refine ⟨hinv, by omega, ?_⟩
    rw [hheld, Nat.add_sub_cancel]
    exact ih h.2 ⟨hinv, by rw [hheld]; exact hs.le_one⟩
  | emit m k ih =>
    refine ⟨by rw [h.1]; exact Nat.zero_le _, ?_⟩
    rw [h.1, Nat.sub_zero]
    exact ih h.2 hs
  | ask q k ih => exact ⟨h.1, fun v s hv hs => ih v (h.2 v hv) hs⟩
  | askUntil q ok k ih => exact ⟨h.1, fun s hs => ih h.2 hs⟩
  | fault => trivial

variable (K) in
/-- The code starts and ends with no token in hand. -/
def Neutral (p : Prog I σ α) : Prop :=
  ∀ s, K.Fits 0 s → K.Meets (fun _ n s => n = 0 ∧ K.Fits 0 s) p 0 s

theorem Quiet.neutral {R : α → Prop} {p : Prog I σ α} (h : K.Quiet R p) : K.Neutral p := by
  refine fun s hs => (h.meets hs).mono ?_
  rintro _ n s ⟨-, rfl, hs⟩
  exact ⟨rfl, hs⟩

theorem Neutral.bind {p : Prog I σ β} {f : β → Prog I σ α} (hp : K.Neutral p)
    (hf : ∀ b, K.Neutral (f b)) : K.Neutral (p >>= f) := by
  refine fun s hs => Meets.bind ((hp s hs).mono ?_)
  rintro b n s ⟨rfl, hs⟩
  exact hf b s hs

theorem Neutral.ite {c : Prop} [Decidable c] {p q : Prog I σ α} (hp : c → K.Neutral p)
    (hq : ¬ c → K.Neutral q) : K.Neutral (if c then p else q) := by
  split_ifs with h
  · exact hp h
  · exact hq h

/-! ### The operations -/

@[simp] theorem quiet_pure {a : α} : K.Quiet res (pure a) ↔ res a := Iff.rfl

@[simp] theorem quiet_get {res : σ → Prop} : K.Quiet res Prog.get ↔ ∀ s, K.inv s → res s := Iff.rfl

@[simp] theorem quiet_modify {f : σ → σ} {res : Unit → Prop} : K.Quiet res (Prog.modify f) ↔
    (∀ s, K.inv s → K.inv (f s) ∧ K.held (f s) = K.held s) ∧ res () := Iff.rfl

@[simp] theorem quiet_publish {m : I.Message} {res : Unit → Prop} :
    K.Quiet res (Prog.publish m) ↔ K.carried m = 0 ∧ res () := Iff.rfl

theorem meets_modify {f : σ → σ} {post : Unit → ℕ → σ → Prop} (hinv : K.inv (f s))
    (hheld : K.held (f s) = K.held s) (hpost : post () n (f s)) : K.Meets post (Prog.modify f) n s := by
  refine ⟨hinv, by omega, ?_⟩
  rw [hheld, Nat.add_sub_cancel]
  exact hpost

theorem meets_publish {m : I.Message} {c : ℕ} {post : Unit → ℕ → σ → Prop} (hm : K.carried m = c)
    (hpost : post () n s) : K.Meets post (Prog.publish m) (n + c) s := by
  refine ⟨by rw [hm]; exact Nat.le_add_left _ _, ?_⟩
  rw [hm, Nat.add_sub_cancel]
  exact hpost

theorem meets_publish_free {m : I.Message} {post : Unit → ℕ → σ → Prop} (hm : K.carried m = 0)
    (hpost : post () n s) : K.Meets post (Prog.publish m) n s :=
  meets_publish (n := n) (c := 0) hm hpost

/-- Code after code that moves no token. -/
theorem Quiet.meets_bind {p : Prog I σ β} {resβ : β → Prop} {f : β → Prog I σ α}
    (h : K.Quiet resβ p) (hs : K.Fits n s)
    (hf : ∀ b s, resβ b → K.Fits n s → K.Meets post (f b) n s) : K.Meets post (p >>= f) n s := by
  refine Meets.bind ((h.meets hs).mono ?_)
  rintro b n' s' ⟨hb, rfl, hs'⟩
  exact hf b s' hb hs'

theorem Quiet.forM {l : List β} {f : β → Prog I σ Unit}
    (h : ∀ b ∈ l, K.Quiet (fun _ => True) (f b)) : K.Quiet (fun _ => True) (l.forM f) := by
  induction l with
  | nil => trivial
  | cons b l ih =>
    rw [List.forall_mem_cons] at h
    exact quiet_bind.2 (h.1.mono fun _ _ => ih h.2)

theorem Quiet.mapM {l : List β} {f : β → Prog I σ α}
    (h : ∀ b ∈ l, K.Quiet (fun _ => True) (f b)) : K.Quiet (fun _ => True) (l.mapM f) := by
  induction l with
  | nil => trivial
  | cons b l ih =>
    rw [List.forall_mem_cons] at h
    rw [List.mapM_cons]
    refine quiet_bind.2 (h.1.mono fun _ _ => quiet_bind.2 ?_)
    exact (ih h.2).mono fun _ _ => trivial

/-! ## The activations of a node -/

section Node

variable {κ P R : Type} [DecidableEq κ] {C : Wiring I κ R} {code : P → Prog I σ Unit}

variable (K) in
/-- Code that respects the contract, whatever it leaves in hand. -/
def Respects (p : Prog I σ Unit) (n : ℕ) (s : σ) : Prop := K.Meets (fun _ _ _ => True) p n s

variable (K) in
/-- A suspended activation with `n` tokens in hand respects the contract when it goes on. -/
def Suspended (n : ℕ) (f : Frame I σ) : Prop :=
  K.asks f.wait.request ∧
    ∀ v s, K.replies f.wait.request v → K.Fits n s → K.Respects (f.wait.next v s) n s

variable (K) in
/-- Every activation of the node respects the contract; `ns` are the tokens they have in hand. -/
structure Kept (s : Node I κ R σ) (ns : List ℕ) : Prop where
  inv : K.inv s.attributes
  frames : List.Forall₂ K.Suspended ns s.stack

variable (K) in
/-- The tokens of the attributes, of the activations and of the messages published. -/
def tokens (s : Node I κ R σ) (ns : List ℕ) : ℕ :=
  K.held s.attributes + ns.sum + (s.posted.map K.carried).sum

theorem suspended_once {q : I.Request} {k : I.Reply q → Prog I σ Unit} {r : ℕ}
    (h : K.Respects (.ask q k) n s) : K.Suspended n ⟨r, .once q k⟩ := h

theorem suspended_again {q : I.Request} {ok : σ → I.Reply q → Bool} {k : Prog I σ Unit} {r : ℕ}
    (h : K.Respects (.askUntil q ok k) n s) : K.Suspended n ⟨r, .again q ok k⟩ := by
  refine ⟨h.1, fun v s' _ hs' => ?_⟩
  show K.Respects (if ok s' v then k else .askUntil q ok k) n s'
  split_ifs
  · exact h.2 s' hs'
  · exact h

variable {t t' : Node I κ R σ} {ns : List ℕ}

theorem tokens_await (w : Wait I σ) : K.tokens (t.await C w) (n :: ns) = n + K.tokens t ns := by
  unfold tokens Node.await
  rw [List.sum_cons]
  dsimp only
  omega

/-- Code that runs up to its next wait makes no token. -/
theorem Kept.advance {p : Prog I σ Unit} (h : K.Kept t ns) (hp : K.Respects p n t.attributes) :
    ∃ ns', K.Kept (Node.advance C p t) ns' ∧
      K.tokens (Node.advance C p t) ns' ≤ n + K.tokens t ns := by
  induction p generalizing n t with
  | ret a => exact ⟨ns, h, Nat.le_add_left _ _⟩
  | read k ih => exact ih t.attributes h hp
  | write f k ih =>
    obtain ⟨hinv, hle, hk⟩ := hp
    obtain ⟨ns', hkept, htokens⟩ := ih (t := { t with attributes := f t.attributes }) ⟨hinv, h.frames⟩ hk
    refine ⟨ns', hkept, htokens.trans ?_⟩
    unfold tokens
    dsimp only
    omega
  | emit m k ih =>
    obtain ⟨hle, hk⟩ := hp
    obtain ⟨ns', hkept, htokens⟩ := ih (t := { t with posted := t.posted ++ [m] }) ⟨h.inv, h.frames⟩ hk
    refine ⟨ns', hkept, htokens.trans ?_⟩
    unfold tokens
    rw [List.map_append, List.sum_append, List.map_singleton, List.sum_singleton]
    dsimp only
    omega
  | ask q k =>
    exact ⟨n :: ns, ⟨h.inv, .cons (suspended_once hp) h.frames⟩, (tokens_await _).le⟩
  | askUntil q ok k =>
    exact ⟨n :: ns, ⟨h.inv, .cons (suspended_again hp) h.frames⟩, (tokens_await _).le⟩
  | fault => exact ⟨ns, ⟨h.inv, h.frames⟩, Nat.le_add_left _ _⟩

/-- The running activation goes on, with the tokens it has in hand. -/
theorem Kept.next {f : Frame I σ} {rest : List (Frame I σ)} {v : I.Reply f.wait.request}
    (h : K.Kept t ns) (hone : K.held t.attributes + ns.sum ≤ 1) (hstack : t.stack = f :: rest)
    (hv : K.replies f.wait.request v) (t₁ : Node I κ R σ) (hattributes : t₁.attributes = t.attributes)
    (hrest : t₁.stack = rest) (hposted : t₁.posted = t.posted) :
    ∃ ns', K.Kept (Node.advance C (f.wait.next v t.attributes) t₁) ns' ∧
      K.tokens (Node.advance C (f.wait.next v t.attributes) t₁) ns' ≤ K.tokens t ns := by
  obtain ⟨hinv, hframes⟩ := h
  rw [hstack] at hframes
  obtain ⟨n, ns, hf, hrests, rfl⟩ := List.forall₂_cons_right_iff.1 hframes
  rw [List.sum_cons] at hone
  have hgo : K.Respects (f.wait.next v t.attributes) n t₁.attributes := by
    rw [hattributes]
    exact hf.2 v t.attributes hv ⟨hinv, by omega⟩
  have hkept : K.Kept t₁ ns := ⟨hattributes ▸ hinv, hrest ▸ hrests⟩
  obtain ⟨ns', hkept', htokens⟩ := hkept.advance (C := C) hgo
  refine ⟨ns', hkept', htokens.trans (le_of_eq ?_)⟩
  unfold tokens
  rw [hattributes, hposted, List.sum_cons]
  omega

/-- A step makes no token, but those that a new activation is given. -/
theorem Kept.step {e : NodeEvent I P R} (h : K.Kept t ns)
    (hone : K.held t.attributes + ns.sum ≤ 1)
    (hstart : ∀ p, e = .start p → K.Respects (code p) n t.attributes)
    (hlatched : ∀ q v, t.latched C q = some v → K.replies q v)
    (hserve : ∀ answer, e = .serve answer → ∀ q v, answer q = some v → K.replies q v)
    (hstep : t.step C code e = some t') :
    ∃ ns', K.Kept t' ns' ∧ K.tokens t' ns' ≤ n + K.tokens t ns := by
  cases e with
  | start p =>
    rw [Node.step] at hstep
    split_ifs at hstep
    cases hstep
    exact h.advance (hstart p rfl)
  | receive m =>
    rw [Node.step] at hstep
    split_ifs at hstep
    cases hstep
    exact ⟨ns, ⟨h.inv, h.frames⟩, Nat.le_add_left _ _⟩
  | resume =>
    rw [Node.step] at hstep
    rcases hstack : t.stack with _ | ⟨f, rest⟩
    · rw [hstack] at hstep
      cases hstep
    · rw [hstack] at hstep
      dsimp only at hstep
      split_ifs at hstep
      obtain ⟨v, hv, rfl⟩ := Option.map_eq_some_iff.1 hstep
      obtain ⟨ns', hkept, htokens⟩ := h.next (C := C) hone hstack (hlatched _ v hv)
        (t.take C f rest v) rfl rfl rfl
      exact ⟨ns', hkept, htokens.trans (Nat.le_add_left _ _)⟩
  | serve answer =>
    rw [Node.step] at hstep
    rcases hstack : t.stack with _ | ⟨f, rest⟩
    · rw [hstack] at hstep
      cases hstep
    · rw [hstack] at hstep
      dsimp only at hstep
      split_ifs at hstep
      obtain ⟨v, hv, rfl⟩ := Option.map_eq_some_iff.1 hstep
      obtain ⟨ns', hkept, htokens⟩ := h.next (C := C) hone hstack (hserve answer rfl _ v hv)
        { t with stack := rest } rfl rfl rfl
      exact ⟨ns', hkept, htokens.trans (Nat.le_add_left _ _)⟩

end Node

end Contract

end Reactive
