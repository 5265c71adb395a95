import Mathlib.Tactic

/-! # Programs of a node that asks and waits

The code of one node of a message-passing system, as a tree: it reads and writes the node's own
attributes, publishes messages, and sends requests whose replies it waits for. The tree leaves open
what happens while it waits, so the same code can be run alone, to completion (`Prog.run`, here), or
be suspended at each wait and interleaved with other code.
-/

namespace Reactive

/-- What a node exchanges with the outside: the requests it waits on, with the type of their
replies, and the messages it publishes without waiting. -/
structure Interface where
  Request : Type
  Reply : Request → Type
  Message : Type

/-- Code over the attributes `σ` of a node, with a result in `α`. -/
inductive Prog (I : Interface) (σ α : Type) : Type
  | ret (a : α)
  | read (k : σ → Prog I σ α)
  | write (f : σ → σ) (k : Prog I σ α)
  | emit (m : I.Message) (k : Prog I σ α)
  | ask (q : I.Request) (k : I.Reply q → Prog I σ α)
  /-- Ask `q` again until the reply is accepted. -/
  | askUntil (q : I.Request) (ok : σ → I.Reply q → Bool) (k : Prog I σ α)
  /-- An operation that the source language leaves undefined. -/
  | fault

namespace Prog

variable {I : Interface} {σ α β γ W : Type}

/-- Sequencing. -/
def bind : Prog I σ α → (α → Prog I σ β) → Prog I σ β
  | ret a, f => f a
  | read k, f => read fun s => (k s).bind f
  | write g k, f => write g (k.bind f)
  | emit m k, f => emit m (k.bind f)
  | ask q k, f => ask q fun v => (k v).bind f
  | askUntil q ok k, f => askUntil q ok (k.bind f)
  | fault, _ => fault

instance : Monad (Prog I σ) where
  pure := ret
  bind := bind

/-- The node's attributes. -/
def get : Prog I σ σ := read ret

/-- Update the node's attributes. -/
def modify (f : σ → σ) : Prog I σ Unit := write f (ret ())

/-- Publish a message. -/
def publish (m : I.Message) : Prog I σ Unit := emit m (ret ())

/-- Send a request and wait for its reply. -/
def request (q : I.Request) : Prog I σ (I.Reply q) := ask q ret

/-- Send a request again until its reply is accepted. -/
def requestUntil (q : I.Request) (ok : σ → I.Reply q → Bool) : Prog I σ Unit :=
  askUntil q ok (ret ())

/-- Sequencing with `ret` changes nothing. -/
theorem bind_ret (p : Prog I σ α) : p.bind ret = p := by
  induction p with
  | ret a => rfl
  | read k ih => exact congrArg read (funext ih)
  | write f k ih => exact congrArg (write f) ih
  | emit m k ih => exact congrArg (emit m) ih
  | ask q k ih => exact congrArg (ask q) (funext ih)
  | askUntil q ok k ih => exact congrArg (askUntil q ok) ih
  | fault => rfl

theorem bind_assoc (p : Prog I σ α) (f : α → Prog I σ β) (g : β → Prog I σ γ) :
    (p.bind f).bind g = p.bind fun a => (f a).bind g := by
  induction p with
  | ret a => rfl
  | read k ih => exact congrArg read (funext ih)
  | write f k ih => exact congrArg (write f) ih
  | emit m k ih => exact congrArg (emit m) ih
  | ask q k ih => exact congrArg (ask q) (funext ih)
  | askUntil q ok k ih => exact congrArg (askUntil q ok) ih
  | fault => rfl

instance : LawfulMonad (Prog I σ) :=
  LawfulMonad.mk' _ bind_ret (fun _ _ => rfl) bind_assoc

/-- No undefined operation is reached, whatever the replies. -/
def Safe : Prog I σ α → Prop
  | ret _ => True
  | read k => ∀ s, Safe (k s)
  | write _ k => Safe k
  | emit _ k => Safe k
  | ask _ k => ∀ v, Safe (k v)
  | askUntil _ _ k => Safe k
  | fault => False

/-- Every message that the program may publish satisfies `P`, whatever the replies. -/
def Emits (P : I.Message → Prop) : Prog I σ α → Prop
  | ret _ => True
  | read k => ∀ s, Emits P (k s)
  | write _ k => Emits P k
  | emit m k => P m ∧ Emits P k
  | ask _ k => ∀ v, Emits P (k v)
  | askUntil _ _ k => Emits P k
  | fault => True

theorem Emits.bind {P : I.Message → Prop} {p : Prog I σ α} {f : α → Prog I σ β} (hp : p.Emits P)
    (hf : ∀ a, (f a).Emits P) : (p >>= f).Emits P := by
  change (p.bind f).Emits P
  induction p with
  | ret a => exact hf a
  | read k ih => exact fun s => ih s (hp s)
  | write g k ih => exact ih hp
  | emit m k ih => exact ⟨hp.1, ih hp.2⟩
  | ask q k ih => exact fun v => ih v (hp v)
  | askUntil q ok k ih => exact ih hp
  | fault => trivial

theorem Emits.forM {P : I.Message → Prop} {l : List β} {f : β → Prog I σ Unit}
    (hf : ∀ b ∈ l, (f b).Emits P) : (l.forM f).Emits P := by
  induction l with
  | nil => trivial
  | cons b bs ih =>
    change (f b >>= fun _ => bs.forM f).Emits P
    exact Emits.bind (hf b (by simp)) fun _ => ih fun c hc => hf c (by simp [hc])

/-! ## Running a program alone -/

/-- Why a program that runs alone gives no result. -/
inductive Stop
  | fault
  | diverges
  deriving DecidableEq, Repr

/-- What surrounds a node that runs alone: how requests are answered, what asking again until the
reply is accepted leads to (`none` when no reply ever is), and what becomes of the messages. -/
structure Handler (I : Interface) (W : Type) where
  answer : (q : I.Request) → W → I.Reply q × W
  settle : (q : I.Request) → (I.Reply q → Bool) → W → Option W
  post : I.Message → W → W

/-- Run a program to completion while no other node moves. -/
def run (h : Handler I W) : Prog I σ α → σ → W → Except Stop (α × σ × W)
  | ret a, s, w => .ok (a, s, w)
  | read k, s, w => (k s).run h s w
  | write f k, s, w => k.run h (f s) w
  | emit m k, s, w => k.run h s (h.post m w)
  | ask q k, s, w => (k (h.answer q w).1).run h s (h.answer q w).2
  | askUntil q ok k, s, w =>
      match h.settle q (ok s) w with
      | some w' => k.run h s w'
      | none => .error .diverges
  | fault, _, _ => .error .fault

variable (h : Handler I W) (s : σ) (w : W)

@[simp] theorem run_pure (a : α) : (pure a : Prog I σ α).run h s w = .ok (a, s, w) := rfl

@[simp] theorem run_get : (get : Prog I σ σ).run h s w = .ok (s, s, w) := rfl

@[simp] theorem run_modify (f : σ → σ) :
    (modify f : Prog I σ Unit).run h s w = .ok ((), f s, w) := rfl

@[simp] theorem run_publish (m : I.Message) :
    (publish m : Prog I σ Unit).run h s w = .ok ((), s, h.post m w) := rfl

@[simp] theorem run_request (q : I.Request) :
    (request q : Prog I σ _).run h s w = .ok ((h.answer q w).1, s, (h.answer q w).2) := rfl

theorem run_requestUntil {q : I.Request} {ok : σ → I.Reply q → Bool} {w' : W}
    (hok : h.settle q (ok s) w = some w') :
    (requestUntil q ok : Prog I σ Unit).run h s w = .ok ((), s, w') := by
  simp [requestUntil, run, hok]

@[simp] theorem run_fault : (fault : Prog I σ α).run h s w = .error .fault := rfl

/-- A sequence runs its first part, then its second from the state the first leaves. -/
theorem run_bind (p : Prog I σ α) (f : α → Prog I σ β) :
    (p >>= f).run h s w = (p.run h s w).bind fun r => (f r.1).run h r.2.1 r.2.2 := by
  change (p.bind f).run h s w = _
  induction p generalizing s w with
  | ret a => rfl
  | read k ih => exact ih s s w
  | write g k ih => exact ih (g s) w
  | emit m k ih => exact ih s _
  | ask q k ih => exact ih _ s _
  | askUntil q ok k ih =>
    simp only [bind, run]
    split
    · exact ih s _
    · rfl
  | fault => rfl

/-- `run_bind` when the first part is known to succeed. -/
theorem run_bind_of_ok {p : Prog I σ α} {a : α} {s' : σ} {w' : W}
    (hp : p.run h s w = .ok (a, s', w')) (f : α → Prog I σ β) :
    (p >>= f).run h s w = (f a).run h s' w' := by
  rw [run_bind, hp]
  rfl

/-- What each exchange does to the surroundings, a run does. -/
theorem run_rel {R : W → W → Prop} (hrefl : ∀ w, R w w) (htrans : ∀ {a b c}, R a b → R b c → R a c)
    (hanswer : ∀ q w, R w (h.answer q w).2)
    (hsettle : ∀ q ok w w', h.settle q ok w = some w' → R w w') (hpost : ∀ m w, R w (h.post m w))
    {p : Prog I σ α} {a : α} {s' : σ} {w' : W} (hp : p.run h s w = .ok (a, s', w')) : R w w' := by
  induction p generalizing s w with
  | ret a =>
    cases hp
    exact hrefl _
  | read k ih => exact ih s s w hp
  | write f k ih => exact ih (f s) w hp
  | emit m k ih => exact htrans (hpost m w) (ih s _ hp)
  | ask q k ih => exact htrans (hanswer q w) (ih _ s _ hp)
  | askUntil q ok k ih =>
    rw [run] at hp
    split at hp
    · exact htrans (hsettle q _ _ _ ‹_›) (ih _ _ hp)
    · cases hp
  | fault => cases hp

/-- Where the surroundings keep the messages in a log, a run adds what the program may publish. -/
theorem run_log {P : I.Message → Prop} (log : W → List I.Message)
    (hanswer : ∀ q w, log (h.answer q w).2 = log w)
    (hsettle : ∀ q ok w w', h.settle q ok w = some w' → log w' = log w)
    (hpost : ∀ m w, log (h.post m w) = log w ++ [m]) {p : Prog I σ α} (he : p.Emits P) {a : α}
    {s' : σ} {w' : W} (hp : p.run h s w = .ok (a, s', w')) :
    ∃ ms, log w' = log w ++ ms ∧ ∀ m ∈ ms, P m := by
  induction p generalizing s w with
  | ret a =>
    cases hp
    exact ⟨[], by simp, by simp⟩
  | read k ih => exact ih s s w (he s) hp
  | write f k ih => exact ih (f s) w he hp
  | emit m k ih =>
    obtain ⟨ms, hms, hP⟩ := ih s _ he.2 hp
    exact ⟨m :: ms, by rw [hms, hpost, List.append_assoc, List.singleton_append],
      List.forall_mem_cons.2 ⟨he.1, hP⟩⟩
  | ask q k ih =>
    obtain ⟨ms, hms, hP⟩ := ih _ s _ (he _) hp
    exact ⟨ms, by rw [hms, hanswer], hP⟩
  | askUntil q ok k ih =>
    rw [run] at hp
    split at hp
    · obtain ⟨ms, hms, hP⟩ := ih _ _ he hp
      exact ⟨ms, by rw [hms, hsettle _ _ _ _ ‹_›], hP⟩
    · cases hp
  | fault => cases hp

/-- Steps that leave everything as it is, one after the other. -/
theorem run_forM_fixed (l : List β) (f : β → Prog I σ Unit)
    (hf : ∀ b ∈ l, (f b).run h s w = .ok ((), s, w)) : (l.forM f).run h s w = .ok ((), s, w) := by
  induction l with
  | nil => rfl
  | cons b bs ih =>
    change (f b >>= fun _ => bs.forM f).run h s w = _
    rw [run_bind_of_ok h s w (hf b (by simp))]
    exact ih fun c hc => hf c (by simp [hc])

/-- Readings that leave everything as it is, one after the other. -/
theorem run_mapM_fixed (l : List β) (f : β → Prog I σ α) (g : β → α)
    (hf : ∀ b ∈ l, (f b).run h s w = .ok (g b, s, w)) :
    (l.mapM f).run h s w = .ok (l.map g, s, w) := by
  induction l with
  | nil => rfl
  | cons b bs ih =>
    rw [List.mapM_cons, run_bind_of_ok h s w (hf b (by simp)),
      run_bind_of_ok h s w (ih fun c hc => hf c (by simp [hc]))]
    rfl

end Prog

end Reactive
