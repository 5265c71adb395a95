import Cellule.Lib.Machine
import Cellule.Lib.Prog

/-! # A node whose waits are nested

A node of one thread that waits by running its own event loop: while an activation of its code waits
for a reply, other callbacks may begin on top of it, and they end first. A reply is kept in
one attribute for each channel, with a flag that says it has come; every activation that waits on the
channel tests the same flag. Replies come in the order of the requests of their channel, one each.
-/

namespace Reactive

/-- The channels of a node: where requests and replies go, what a reply says to a request, and which
requests are direct calls, during which the event loop does not run. -/
structure Wiring (I : Interface) (K R : Type) where
  channel : I.Request → K
  source : R → K
  read : R → (q : I.Request) → Option (I.Reply q)
  direct : I.Request → Bool

/-- Code that waits for a reply. -/
inductive Wait (I : Interface) (σ : Type)
  | once (q : I.Request) (k : I.Reply q → Prog I σ Unit)
  | again (q : I.Request) (ok : σ → I.Reply q → Bool) (k : Prog I σ Unit)

namespace Wait

variable {I : Interface} {σ : Type}

/-- The request whose reply is awaited. -/
def request : Wait I σ → I.Request
  | once q _ => q
  | again q _ _ => q

/-- The code that follows the reply. -/
def next : (w : Wait I σ) → I.Reply w.request → σ → Prog I σ Unit
  | once _ k, v, _ => k v
  | again q ok k, v, s => if ok s v then k else .askUntil q ok k

end Wait

/-- A suspended activation: what it waits for, and the rank of its request in its channel. -/
structure Frame (I : Interface) (σ : Type) where
  rank : ℕ
  wait : Wait I σ

/-- A reply that an activation took for its own: the rank and the request of that activation. -/
structure Reading (I : Interface) where
  rank : ℕ
  request : I.Request
  reply : I.Reply request

/-- The node: its attributes, the flag of each channel, the replies received and the number of
requests sent on each channel, the suspended activations with the running one first, the replies
that were taken and the messages that were published. -/
structure Node (I : Interface) (K R σ : Type) where
  attributes : σ
  up : K → Bool
  received : K → List R
  sent : K → ℕ
  stack : List (Frame I σ)
  readings : List (Reading I)
  posted : List I.Message
  faulted : Bool

/-- What can happen to a node. -/
inductive NodeEvent (I : Interface) (P R : Type)
  /-- A callback begins. -/
  | start (p : P)
  /-- A reply is delivered. -/
  | receive (m : R)
  /-- The running activation finds the flag up. -/
  | resume
  /-- A direct call returns. -/
  | serve (answer : (q : I.Request) → Option (I.Reply q))

namespace Node

variable {I : Interface} {K P R σ : Type} [DecidableEq K] (C : Wiring I K R) (code : P → Prog I σ Unit)

/-- The node with no activation. -/
def idle (a : σ) : Node I K R σ where
  attributes := a
  up _ := false
  received _ := []
  sent _ := 0
  stack := []
  readings := []
  posted := []
  faulted := false

/-- Publish a request and wait for its reply. -/
def await (s : Node I K R σ) (w : Wait I σ) : Node I K R σ :=
  let c := C.channel w.request
  { s with
    stack := ⟨s.sent c, w⟩ :: s.stack
    sent := Function.update s.sent c (s.sent c + 1) }

/-- Run code up to its next wait. -/
def advance : Prog I σ Unit → Node I K R σ → Node I K R σ
  | .ret _, s => s
  | .read k, s => advance (k s.attributes) s
  | .write f k, s => advance k { s with attributes := f s.attributes }
  | .emit m k, s => advance k { s with posted := s.posted ++ [m] }
  | .ask q k, s => s.await C (.once q k)
  | .askUntil q ok k, s => s.await C (.again q ok k)
  | .fault, s => { s with faulted := true }

/-- The running activation is in a direct call. -/
def calling (s : Node I K R σ) : Bool :=
  match s.stack with
  | f :: _ => C.direct f.wait.request
  | [] => false

/-- The event loop runs. -/
def spinning (s : Node I K R σ) : Bool := !s.faulted && !s.calling C

/-- The reply that the flag of a channel announces. -/
def latched (s : Node I K R σ) (q : I.Request) : Option (I.Reply q) :=
  (s.received (C.channel q)).getLast?.bind fun m => C.read m q

/-- The running activation takes the reply and lowers the flag. -/
def take (s : Node I K R σ) (f : Frame I σ) (rest : List (Frame I σ)) (v : I.Reply f.wait.request) :
    Node I K R σ :=
  { s with
    up := Function.update s.up (C.channel f.wait.request) false
    stack := rest
    readings := s.readings ++ [⟨f.rank, f.wait.request, v⟩] }

/-- A reply comes: its channel keeps it and raises the flag. -/
def deliver (s : Node I K R σ) (m : R) : Node I K R σ :=
  let c := C.source m
  { s with
    up := Function.update s.up c true
    received := Function.update s.received c (s.received c ++ [m]) }

/-- One step of the node. -/
def step (s : Node I K R σ) : NodeEvent I P R → Option (Node I K R σ)
  | .start p => if s.spinning C then some (advance C (code p) s) else none
  | .receive m =>
      if s.spinning C ∧ (s.received (C.source m)).length < s.sent (C.source m) then
        some (s.deliver C m)
      else none
  | .resume =>
      match s.stack with
      | [] => none
      | f :: rest =>
          if s.spinning C ∧ s.up (C.channel f.wait.request) = true then
            (s.latched C f.wait.request).map fun v =>
              advance C (f.wait.next v s.attributes) (s.take C f rest v)
          else none
  | .serve answer =>
      match s.stack with
      | [] => none
      | f :: rest =>
          if s.faulted = false ∧ C.direct f.wait.request = true then
            (answer f.wait.request).map fun v =>
              advance C (f.wait.next v s.attributes) { s with stack := rest }
          else none

/-! ## One activation at a time on a channel -/

/-- The activations that wait on a channel. -/
def waiting (c : K) (s : Node I K R σ) : List (Frame I σ) :=
  s.stack.filter fun f => C.channel f.wait.request = c

/-- At most one activation waits on a channel. -/
def Alone (c : K) (s : Node I K R σ) : Prop := (s.waiting C c).length ≤ 1

/-- Every reply taken on a channel answers the request of the activation that took it. -/
def Answered (c : K) (s : Node I K R σ) : Prop :=
  ∀ r ∈ s.readings, C.channel r.request = c →
    ∃ m, (s.received c)[r.rank]? = some m ∧ C.read m r.request = some r.reply

/-- No request of the channel is unanswered, and the flag is down. -/
structure Settled (c : K) (s : Node I K R σ) : Prop where
  up : s.up c = false
  sent : s.sent c = (s.received c).length

/-- The last request of the channel has the rank `n`, and the flag is up when its reply has come. -/
structure Pending (c : K) (n : ℕ) (s : Node I K R σ) : Prop where
  sent : s.sent c = n + 1
  reply : s.up c = false ∧ (s.received c).length = n ∨ s.up c = true ∧ (s.received c).length = n + 1

/-- What holds of a channel, by the activations that wait on it. -/
def Turn (c : K) (s : Node I K R σ) : Prop :=
  match s.waiting C c with
  | [] => s.Settled c
  | [f] => s.Pending c f.rank
  | _ => True

/-- What is kept as long as at most one activation waits. -/
structure Orderly (c : K) (s : Node I K R σ) : Prop where
  turn : s.Turn C c
  answered : s.Answered C c

variable {C code} {c : K} {s : Node I K R σ}

/-- Code that runs up to its next wait changes the attributes and publishes messages, and then ends,
fails, or waits. -/
theorem advance_cases (p : Prog I σ Unit) (s : Node I K R σ) : ∃ a ms,
    (∃ b, advance C p s = { s with attributes := a, posted := ms, faulted := b }) ∨
      ∃ w, advance C p s = ({ s with attributes := a, posted := ms } : Node I K R σ).await C w := by
  induction p generalizing s with
  | ret => exact ⟨s.attributes, s.posted, .inl ⟨s.faulted, rfl⟩⟩
  | read k ih => exact ih s.attributes s
  | write f k ih => exact ih { s with attributes := f s.attributes }
  | emit m k ih => exact ih { s with posted := s.posted ++ [m] }
  | ask q k => exact ⟨s.attributes, s.posted, .inr ⟨.once q k, rfl⟩⟩
  | askUntil q ok k => exact ⟨s.attributes, s.posted, .inr ⟨.again q ok k, rfl⟩⟩
  | fault => exact ⟨s.attributes, s.posted, .inl ⟨true, rfl⟩⟩

theorem turn_of_nil (h : s.waiting C c = []) : s.Turn C c ↔ s.Settled c := by
  unfold Turn
  rw [h]

theorem turn_of_one {f : Frame I σ} (h : s.waiting C c = [f]) : s.Turn C c ↔ s.Pending c f.rank := by
  unfold Turn
  rw [h]

theorem turn_of_many {f g : Frame I σ} {l : List (Frame I σ)} (h : s.waiting C c = f :: g :: l) :
    s.Turn C c := by
  unfold Turn
  rw [h]
  trivial

/-- What a channel sees of the node. -/
theorem Turn.congr {s' : Node I K R σ} (h : s.Turn C c) (hwaiting : s'.waiting C c = s.waiting C c)
    (hup : s'.up c = s.up c) (hreceived : s'.received c = s.received c) (hsent : s'.sent c = s.sent c) :
    s'.Turn C c := by
  rcases hw : s.waiting C c with _ | ⟨f, _ | ⟨g, l⟩⟩
  · obtain ⟨hdown, hcount⟩ := (turn_of_nil hw).1 h
    exact (turn_of_nil (hwaiting.trans hw)).2 ⟨hup.trans hdown, by rw [hsent, hreceived, hcount]⟩
  · obtain ⟨hcount, hreply⟩ := (turn_of_one hw).1 h
    exact (turn_of_one (hwaiting.trans hw)).2 ⟨hsent.trans hcount, by rwa [hup, hreceived]⟩
  · exact turn_of_many (hwaiting.trans hw)

/-- Waiting for one more reply. -/
theorem turn_await (h : s.Turn C c) (w : Wait I σ) : (s.await C w).Turn C c := by
  by_cases hc : C.channel w.request = c
  · have hwaiting : (s.await C w).waiting C c = ⟨s.sent c, w⟩ :: s.waiting C c := by
      unfold waiting await
      rw [List.filter_cons_of_pos (by simpa using hc), hc]
    rcases hw : s.waiting C c with _ | ⟨f, l⟩
    · obtain ⟨hdown, hcount⟩ := (turn_of_nil hw).1 h
      rw [hw] at hwaiting
      refine (turn_of_one hwaiting).2 ⟨?_, .inl ⟨hdown, hcount.symm⟩⟩
      unfold await
      rw [hc]
      exact Function.update_self ..
    · rw [hw] at hwaiting
      exact turn_of_many hwaiting
  · refine h.congr ?_ rfl rfl (Function.update_of_ne (Ne.symm hc) ..)
    unfold waiting await
    exact List.filter_cons_of_neg (by simpa using hc)

theorem orderly_advance (h : s.Orderly C c) (p : Prog I σ Unit) : (advance C p s).Orderly C c := by
  obtain ⟨a, ms, ⟨b, hp⟩ | ⟨w, hp⟩⟩ := advance_cases (C := C) p s
  · rw [hp]
    exact ⟨h.turn.congr rfl rfl rfl rfl, h.answered⟩
  · have hturn : ({ s with attributes := a, posted := ms } : Node I K R σ).Turn C c :=
      h.turn.congr rfl rfl rfl rfl
    rw [hp]
    exact ⟨turn_await hturn w, h.answered⟩

/-- A reply taken stays the answer when other replies come. -/
theorem answered_deliver (h : s.Answered C c) (m : R) : (s.deliver C m).Answered C c := by
  intro r hr hc
  obtain ⟨m', hm', hread⟩ := h r hr hc
  refine ⟨m', ?_, hread⟩
  show (Function.update s.received _ _ c)[r.rank]? = some m'
  rcases eq_or_ne c (C.source m) with rfl | hne
  · rw [Function.update_self, List.getElem?_append_left (List.getElem?_eq_some_iff.1 hm').1, hm']
  · rw [Function.update_of_ne hne, hm']

/-- A reply is delivered. -/
theorem orderly_deliver {m : R} (h : s.Orderly C c)
    (hm : (s.received (C.source m)).length < s.sent (C.source m)) : (s.deliver C m).Orderly C c := by
  refine ⟨?_, answered_deliver h.answered m⟩
  rcases eq_or_ne c (C.source m) with rfl | hne
  · rcases hw : s.waiting C (C.source m) with _ | ⟨f, _ | ⟨g, l⟩⟩
    · have hcount := ((turn_of_nil hw).1 h.turn).sent
      omega
    · obtain ⟨hcount, hreply⟩ := (turn_of_one hw).1 h.turn
      refine (turn_of_one (s := s.deliver C m) hw).2 ⟨hcount, .inr ⟨Function.update_self .., ?_⟩⟩
      show (Function.update s.received (C.source m) _ (C.source m)).length = f.rank + 1
      rw [Function.update_self, List.length_append]
      rcases hreply with ⟨-, hlength⟩ | ⟨-, hlength⟩
      · rw [hlength]
        rfl
      · omega
    · exact turn_of_many (s := s.deliver C m) hw
  · exact h.turn.congr rfl (Function.update_of_ne hne ..) (Function.update_of_ne hne ..) rfl

/-- The running activation takes its reply, when it is alone to wait on its channel. -/
theorem orderly_take {f : Frame I σ} {rest : List (Frame I σ)} {v : I.Reply f.wait.request}
    (h : s.Orderly C c) (halone : s.Alone C c) (hstack : s.stack = f :: rest)
    (hup : s.up (C.channel f.wait.request) = true) (hv : s.latched C f.wait.request = some v) :
    (s.take C f rest v).Orderly C c := by
  by_cases hc : C.channel f.wait.request = c
  · have hw : s.waiting C c = f :: rest.filter fun f => C.channel f.wait.request = c := by
      unfold waiting
      rw [hstack, List.filter_cons_of_pos (by simpa using hc)]
    have hrest : (rest.filter fun f => C.channel f.wait.request = c) = [] := by
      rw [Alone, hw, List.length_cons] at halone
      exact List.length_eq_zero_iff.1 (by omega)
    rw [hrest] at hw
    obtain ⟨hcount, hreply⟩ := (turn_of_one hw).1 h.turn
    rw [hc] at hup
    have hlength : (s.received c).length = f.rank + 1 := by
      rcases hreply with ⟨hdown, -⟩ | ⟨-, hlength⟩
      · rw [hdown] at hup
        cases hup
      · exact hlength
    constructor
    · refine (turn_of_nil (s := s.take C f rest v) hrest).2 ⟨?_, hcount.trans hlength.symm⟩
      show Function.update s.up (C.channel f.wait.request) false c = false
      rw [hc, Function.update_self]
    · intro r hr hrc
      rcases List.mem_append.1 hr with hr | hr
      · exact h.answered r hr hrc
      -- the last reply received is the one to the last request
      · cases List.mem_singleton.1 hr
        obtain ⟨m, hm, hread⟩ := Option.bind_eq_some_iff.1 hv
        rw [hc, List.getLast?_eq_getElem?, hlength] at hm
        exact ⟨m, hm, hread⟩
  · constructor
    · refine h.turn.congr ?_ (Function.update_of_ne (Ne.symm hc) ..) rfl rfl
      show rest.filter _ = s.stack.filter _
      rw [hstack, List.filter_cons_of_neg (by simpa using hc)]
    · intro r hr hrc
      rcases List.mem_append.1 hr with hr | hr
      · exact h.answered r hr hrc
      · cases List.mem_singleton.1 hr
        exact absurd hrc hc

/-- What a step of the node does. -/
inductive Moves (C : Wiring I K R) (code : P → Prog I σ Unit) (s : Node I K R σ) :
    NodeEvent I P R → Node I K R σ → Prop
  | started (p : P) : Moves C code s (.start p) (advance C (code p) s)
  | delivered (m : R) (h : (s.received (C.source m)).length < s.sent (C.source m)) :
      Moves C code s (.receive m) (s.deliver C m)
  | taken (f : Frame I σ) (rest : List (Frame I σ)) (v : I.Reply f.wait.request)
      (hstack : s.stack = f :: rest) (hup : s.up (C.channel f.wait.request) = true)
      (hv : s.latched C f.wait.request = some v) :
      Moves C code s .resume (advance C (f.wait.next v s.attributes) (s.take C f rest v))
  | served (answer : (q : I.Request) → Option (I.Reply q)) (f : Frame I σ)
      (rest : List (Frame I σ)) (v : I.Reply f.wait.request) (hstack : s.stack = f :: rest)
      (hcall : C.direct f.wait.request = true) :
      Moves C code s (.serve answer)
        (advance C (f.wait.next v s.attributes) { s with stack := rest })

theorem step_moves {s' : Node I K R σ} {e : NodeEvent I P R} (h : s.step C code e = some s') :
    s.Moves C code e s' := by
  cases e with
  | start p =>
    rw [step] at h
    split_ifs at h
    cases h
    exact .started p
  | receive m =>
    rw [step] at h
    split_ifs at h with hm
    cases h
    exact .delivered m hm.2
  | resume =>
    rw [step] at h
    split at h
    · cases h
    · split_ifs at h with hup
      obtain ⟨v, hv, rfl⟩ := Option.map_eq_some_iff.1 h
      exact .taken _ _ v ‹_› hup.2 hv
  | serve answer =>
    rw [step] at h
    split at h
    · cases h
    · split_ifs at h with hcall
      obtain ⟨v, -, rfl⟩ := Option.map_eq_some_iff.1 h
      exact .served answer _ _ v ‹_› hcall.2

/-- A direct call ends: no wait of a channel without direct calls does. -/
theorem waiting_served {f : Frame I σ} {rest : List (Frame I σ)}
    (hdirect : ∀ q, C.channel q = c → C.direct q = false) (hstack : s.stack = f :: rest)
    (hcall : C.direct f.wait.request = true) :
    ({ s with stack := rest } : Node I K R σ).waiting C c = s.waiting C c := by
  have hc : C.channel f.wait.request ≠ c := by
    intro hc
    have hno := hdirect _ hc
    rw [hcall] at hno
    cases hno
  unfold waiting
  rw [hstack, List.filter_cons_of_neg (by simpa using hc)]

/-- What a step keeps on a channel where at most one activation waits, and without direct calls. -/
theorem orderly_step {s' : Node I K R σ} {e : NodeEvent I P R}
    (hdirect : ∀ q, C.channel q = c → C.direct q = false) (h : s.Orderly C c) (halone : s.Alone C c)
    (hs : s.step C code e = some s') : s'.Orderly C c := by
  cases step_moves hs with
  | started p => exact orderly_advance h _
  | delivered m hm => exact orderly_deliver h hm
  | taken f rest v hstack hup hv => exact orderly_advance (orderly_take h halone hstack hup hv) _
  | served answer f rest v hstack hcall =>
    have hwaiting := waiting_served hdirect hstack hcall
    exact orderly_advance ⟨h.turn.congr hwaiting rfl rfl rfl, h.answered⟩ _

/-- On a channel where no two activations wait at once, every reply taken answers the request of the
activation that took it. -/
theorem answered_of_alone {a : σ} {trace : List (NodeEvent I P R)}
    {E : Node I K R σ → NodeEvent I P R → Prop} (hE : ∀ s e, E s e → s.Alone C c)
    (hdirect : ∀ q, C.channel q = c → C.direct q = false)
    (h : Run (Guarded E (step C code)) (idle a) trace s) : s.Answered C c := by
  have h₀ : (idle a : Node I K R σ).Orderly C c :=
    ⟨(turn_of_nil rfl).2 ⟨rfl, rfl⟩, by simp [Answered, idle]⟩
  have hstep : ∀ (_ : List (NodeEvent I P R)) (s : Node I K R σ) e s', s.Orderly C c →
      Guarded E (step C code) s e s' → s'.Orderly C c :=
    fun _ _ _ _ h hs => orderly_step hdirect h (hE _ _ hs.1) hs.2
  exact (Run.invariant h₀ hstep h).answered

/-! ## Every reply is taken -/

/-- The replies of a channel balance its requests: every activation that waits is owed one, and the
one that the flag announces is not taken yet. -/
def Balanced (C : Wiring I K R) (c : K) (s : Node I K R σ) : Prop :=
  (s.waiting C c).length + (s.received c).length = s.sent c + (s.up c).toNat

theorem balanced_await (h : s.Balanced C c) (w : Wait I σ) : (s.await C w).Balanced C c := by
  unfold Balanced waiting await at *
  by_cases hc : C.channel w.request = c
  · rw [List.filter_cons_of_pos (by simpa using hc), List.length_cons, hc]
    show _ = Function.update s.sent c _ c + _
    rw [Function.update_self]
    dsimp only
    omega
  · rw [List.filter_cons_of_neg (by simpa using hc)]
    show _ = Function.update s.sent _ _ c + _
    rw [Function.update_of_ne (Ne.symm hc)]
    exact h

theorem balanced_advance (h : s.Balanced C c) (p : Prog I σ Unit) : (advance C p s).Balanced C c := by
  obtain ⟨a, ms, ⟨b, hp⟩ | ⟨w, hp⟩⟩ := advance_cases (C := C) p s
  · rw [hp]
    exact h
  · rw [hp]
    exact balanced_await h w

/-- A reply that finds the flag down is owed to one more activation. -/
theorem balanced_deliver {m : R} (h : s.Balanced C c) (hflag : C.source m = c → s.up c = false) :
    (s.deliver C m).Balanced C c := by
  unfold Balanced at *
  by_cases hc : C.source m = c
  · have hup := hflag hc
    subst hc
    show (s.waiting C _).length + (Function.update s.received _ _ (C.source m)).length =
      s.sent _ + (Function.update s.up _ _ (C.source m)).toNat
    rw [Function.update_self, Function.update_self, List.length_append, List.length_singleton]
    rw [hup] at h
    simp only [Bool.toNat_false, Bool.toNat_true] at h ⊢
    omega
  · show (s.waiting C c).length + (Function.update s.received _ _ c).length =
      s.sent c + (Function.update s.up _ _ c).toNat
    rw [Function.update_of_ne (Ne.symm hc), Function.update_of_ne (Ne.symm hc)]
    exact h

theorem balanced_take {f : Frame I σ} {rest : List (Frame I σ)} {v : I.Reply f.wait.request}
    (h : s.Balanced C c) (hstack : s.stack = f :: rest)
    (hup : s.up (C.channel f.wait.request) = true) : (s.take C f rest v).Balanced C c := by
  unfold Balanced waiting at *
  rw [hstack] at h
  by_cases hc : C.channel f.wait.request = c
  · rw [List.filter_cons_of_pos (by simpa using hc), List.length_cons] at h
    rw [hc] at hup
    show (rest.filter _).length + (s.received c).length =
      s.sent c + (Function.update s.up _ _ c).toNat
    rw [hc, Function.update_self]
    rw [hup] at h
    simp only [Bool.toNat_false, Bool.toNat_true] at h ⊢
    omega
  · rw [List.filter_cons_of_neg (by simpa using hc)] at h
    show _ = s.sent c + (Function.update s.up _ _ c).toNat
    rw [Function.update_of_ne (Ne.symm hc)]
    exact h

/-- What a step keeps on a channel whose replies find the flag down, and without direct calls. -/
theorem balanced_step {s' : Node I K R σ} {e : NodeEvent I P R}
    (hdirect : ∀ q, C.channel q = c → C.direct q = false) (h : s.Balanced C c)
    (hflag : ∀ m, e = .receive m → C.source m = c → s.up c = false)
    (hs : s.step C code e = some s') : s'.Balanced C c := by
  cases step_moves hs with
  | started p => exact balanced_advance h _
  | delivered m hm => exact balanced_deliver h (hflag m rfl)
  | taken f rest v hstack hup hv => exact balanced_advance (balanced_take h hstack hup) _
  | served answer f rest v hstack hcall =>
    have hpop : ({ s with stack := rest } : Node I K R σ).Balanced C c := by
      rw [Balanced, waiting_served hdirect hstack hcall]
      exact h
    exact balanced_advance hpop _

/-- When every reply has come and the flag is down, no activation waits. -/
theorem waiting_of_balanced (h : s.Balanced C c) (hsent : s.sent c = (s.received c).length)
    (hup : s.up c = false) : s.waiting C c = [] := by
  unfold Balanced at h
  rw [hup, hsent] at h
  simp only [Bool.toNat_false] at h
  exact List.length_eq_zero_iff.1 (by omega)

/-! ## Code that does not fail -/

/-- The node has not failed, and what its activations have left to run does not fail. -/
structure Sound (s : Node I K R σ) : Prop where
  alive : s.faulted = false
  stack : ∀ f ∈ s.stack, ∀ v a, (f.wait.next v a).Safe

omit [DecidableEq K] in
theorem sound_idle (a : σ) : (idle a : Node I K R σ).Sound :=
  ⟨rfl, by simp [idle]⟩

theorem sound_advance {p : Prog I σ Unit} (hp : p.Safe) (h : s.Sound) : (advance C p s).Sound := by
  induction p generalizing s with
  | ret => exact h
  | read k ih => exact ih _ (hp _) h
  | write f k ih => exact ih hp ⟨h.alive, h.stack⟩
  | emit m k ih => exact ih hp ⟨h.alive, h.stack⟩
  | ask q k => exact ⟨h.alive, List.forall_mem_cons.2 ⟨fun v _ => hp v, h.stack⟩⟩
  | askUntil q ok k =>
    refine ⟨h.alive, List.forall_mem_cons.2 ⟨?_, h.stack⟩⟩
    intro v a
    show (if ok a v then k else .askUntil q ok k).Safe
    split_ifs <;> exact hp
  | fault => exact hp.elim

/-- A node whose callbacks do not fail does not fail. -/
theorem sound_step {s' : Node I K R σ} {e : NodeEvent I P R} (h : s.Sound)
    (hcode : ∀ p, e = .start p → (code p).Safe) (hs : s.step C code e = some s') : s'.Sound := by
  cases step_moves hs with
  | started p => exact sound_advance (hcode p rfl) h
  | delivered m hm => exact ⟨h.alive, h.stack⟩
  | taken f rest v hstack hup hv =>
    obtain ⟨hf, hrest⟩ := List.forall_mem_cons.1 (hstack ▸ h.stack)
    exact sound_advance (hf _ _) ⟨h.alive, hrest⟩
  | served answer f rest v hstack hcall =>
    obtain ⟨hf, hrest⟩ := List.forall_mem_cons.1 (hstack ▸ h.stack)
    exact sound_advance (hf _ _) ⟨h.alive, hrest⟩

/-! ## The replies received -/

theorem received_advance (p : Prog I σ Unit) : (advance C p s).received = s.received := by
  obtain ⟨a, ms, ⟨b, hp⟩ | ⟨w, hp⟩⟩ := advance_cases (C := C) p s
  · rw [hp]
  · rw [hp]
    rfl

/-- Only a delivery adds a reply. -/
theorem received_step {s' : Node I K R σ} {e : NodeEvent I P R} (he : ∀ m, e ≠ .receive m)
    (hs : s.step C code e = some s') : s'.received = s.received := by
  cases step_moves hs with
  | started p => exact received_advance _
  | delivered m hm => exact absurd rfl (he m)
  | taken f rest v hstack hup hv => exact received_advance _
  | served answer f rest v hstack hcall => exact received_advance _

theorem received_receive {s' : Node I K R σ} {m : R} (hs : s.step C code (.receive m) = some s') :
    s'.received = Function.update s.received (C.source m) (s.received (C.source m) ++ [m]) := by
  generalize he : NodeEvent.receive m = e at hs
  cases step_moves hs with
  | delivered m' hm =>
    cases he
    rfl
  | _ => cases he

end Node

end Reactive
