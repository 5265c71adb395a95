import Mathlib.Tactic
import Cellule.Lib.Loop

/-! # The directory of the simulator

`vrepController::init` finds the root of the project from the path of the program: it walks back
from the end of the path, over five `/`, and keeps what comes before. Its loop goes on while the
position is negative, so that a fifth `/` at the very start of the path is walked past.
-/

namespace CommandeLocale

/-- The characters of a `std::string`. -/
abbrev Chaine := List UInt8

/-- A literal of ASCII characters. -/
def chaine (s : String) : Chaine := s.toList.map fun c => UInt8.ofNat c.toNat

namespace Chemin

/-- The character `/`. -/
def barre : UInt8 := 47

/-- An index outside a string, which C++ leaves unchecked. -/
inductive Faute
  | horsChaine (i : ℤ)
  deriving DecidableEq, Repr

/-- `executionPath[pos]`. -/
def caractere (executionPath : Chaine) (pos : ℤ) : Except Faute UInt8 :=
  match if pos < 0 then none else executionPath[pos.toNat]? with
  | some c => .ok c
  | none => .error (.horsChaine pos)

/-- The variables of the loop. -/
structure Recherche where
  count : ℕ
  pos : ℤ

/-- Before the loop: `int pos = executionPath.length()-1`, a word of 32 bits. -/
def depart (executionPath : Chaine) : Recherche where
  count := 0
  pos := ((executionPath.length : ℤ) - 1).bmod (2 ^ 32)

/-- One turn of `while (count < 5 || pos<0)`. -/
def tour (executionPath : Chaine) (s : Recherche) : Except Faute (Recherche ⊕ Recherche) :=
  if s.count < 5 ∨ s.pos < 0 then do
    let c ← caractere executionPath s.pos
    return .inl ⟨if c = barre then s.count + 1 else s.count, s.pos - 1⟩
  else return .inr s

/-- `executionPath.substr(0,pos+2)`. -/
def racine (executionPath : Chaine) (pos : ℤ) : Chaine := executionPath.take (pos + 2).toNat

/-- What follows the loop: whether `pos negative !!!` is printed, and `VRepPath`. -/
def suite (executionPath : Chaine) (s : Recherche) : Bool × Chaine :=
  (decide (s.pos < 0), racine executionPath s.pos ++ chaine "CoppeliaSim")

/-! ## What the loop is for -/

/-- The prefix of a path up to and including the fifth `/` from the end. -/
structure CinquiemeBarre (executionPath r : Chaine) : Prop where
  prefixe : r <+: executionPath
  derniere : r.getLast? = some barre
  apres : (executionPath.drop r.length).count barre = 4

/-- The loop ends without reading outside the path, and the root is that prefix. -/
def RacineTrouvee (executionPath : Chaine) : Prop :=
  ∃ s, Loop.Ends (tour executionPath) (depart executionPath) s ∧
    CinquiemeBarre executionPath (racine executionPath s.pos)

/-- No `/` is lost by the conversion of the length to an `int`, and the fifth one from the end is
not the first character. -/
structure Favorable (executionPath : Chaine) : Prop where
  positif : 0 ≤ (depart executionPath).pos
  apres : barre ∉ executionPath.drop ((depart executionPath).pos.toNat + 1)
  cinq : 5 ≤ executionPath.tail.count barre

/-! ## The loop -/

variable {executionPath : Chaine} {s s' : Recherche}

theorem depart_pos_lt (executionPath : Chaine) :
    (depart executionPath).pos < executionPath.length := by
  show ((executionPath.length : ℤ) - 1).bmod (2 ^ 32) < executionPath.length
  rw [Int.bmod_def]
  split_ifs <;> omega

/-- The whole path is walked when its length fits the variable. -/
theorem depart_pos_eq (h₀ : executionPath ≠ []) (h : executionPath.length ≤ 2 ^ 31) :
    (depart executionPath).pos = executionPath.length - 1 := by
  have hlen := List.length_pos_iff.2 h₀
  show ((executionPath.length : ℤ) - 1).bmod (2 ^ 32) = _
  rw [Int.bmod_def]
  split_ifs <;> omega

theorem caractere_ok {pos : ℤ} {c : UInt8} (h : caractere executionPath pos = .ok c) :
    0 ≤ pos ∧ executionPath[pos.toNat]? = some c := by
  unfold caractere at h
  by_cases hpos : pos < 0
  · rw [if_pos hpos] at h
    cases h
  · rw [if_neg hpos] at h
    split at h
    · next c' hc =>
      cases h
      exact ⟨not_lt.1 hpos, hc⟩
    · cases h

theorem caractere_of_lt {pos : ℤ} (h₀ : 0 ≤ pos) (h : pos < executionPath.length) :
    ∃ c, caractere executionPath pos = .ok c := by
  have hlt : pos.toNat < executionPath.length := by omega
  unfold caractere
  rw [if_neg (not_lt.2 h₀), List.getElem?_eq_getElem hlt]
  exact ⟨_, rfl⟩

/-- What a turn can do: it reads a character, or it leaves. -/
theorem tour_cases {r : Recherche ⊕ Recherche} (h : tour executionPath s = .ok r) :
    (∃ c, (s.count < 5 ∨ s.pos < 0) ∧ caractere executionPath s.pos = .ok c ∧
      r = .inl ⟨if c = barre then s.count + 1 else s.count, s.pos - 1⟩) ∨
    5 ≤ s.count ∧ 0 ≤ s.pos ∧ r = .inr s := by
  unfold tour at h
  split_ifs at h with hcond
  · cases hc : caractere executionPath s.pos with
    | error e =>
      rw [hc] at h
      cases h
    | ok c =>
      rw [hc] at h
      exact .inl ⟨c, hcond, rfl, (Except.ok.inj h).symm⟩
  · obtain ⟨hcount, hpos⟩ := not_or.1 hcond
    exact .inr ⟨not_lt.1 hcount, not_lt.1 hpos, (Except.ok.inj h).symm⟩

/-- A turn that goes on has read a character. -/
theorem tour_inl (h : tour executionPath s = .ok (.inl s')) :
    0 ≤ s.pos ∧ s.count < 5 ∧ s'.pos = s.pos - 1 ∧ ∃ c, executionPath[s.pos.toNat]? = some c ∧
      s'.count = s.count + if c = barre then 1 else 0 := by
  rcases tour_cases h with ⟨c, hcond, hc, hs'⟩ | ⟨-, -, hs'⟩
  · cases hs'
    obtain ⟨hpos, hget⟩ := caractere_ok hc
    refine ⟨hpos, hcond.resolve_right (not_lt.2 hpos), rfl, c, hget, ?_⟩
    show (if c = barre then s.count + 1 else s.count) = _
    split_ifs <;> rfl
  · cases hs'

/-- The loop is left once five `/` were seen at a position that is not negative. -/
theorem tour_inr (h : tour executionPath s = .ok (.inr s')) :
    s' = s ∧ 5 ≤ s.count ∧ 0 ≤ s.pos := by
  rcases tour_cases h with ⟨c, -, -, hs'⟩ | ⟨hcount, hpos, hs'⟩
  · cases hs'
  · exact ⟨Sum.inr.inj hs', hcount, hpos⟩

/-- The `/` from an index on. -/
theorem count_drop {i : ℕ} {c : UInt8} (h : executionPath[i]? = some c) :
    (executionPath.drop i).count barre =
      (executionPath.drop (i + 1)).count barre + if c = barre then 1 else 0 := by
  obtain ⟨hlt, rfl⟩ := List.getElem?_eq_some_iff.1 h
  rw [List.drop_eq_getElem_cons hlt, List.count_cons]
  simp only [beq_iff_eq]

/-- For a path whose length fits an `int`, only the first character matters. -/
theorem favorable_iff (h : executionPath.length ≤ 2 ^ 31) :
    Favorable executionPath ↔ 5 ≤ executionPath.tail.count barre := by
  refine ⟨Favorable.cinq, fun hcinq => ?_⟩
  have h₀ : executionPath ≠ [] := by
    rintro rfl
    exact absurd hcinq (by decide)
  have hpos := depart_pos_eq h₀ h
  have hlen := List.length_pos_iff.2 h₀
  refine ⟨by omega, ?_, hcinq⟩
  rw [List.drop_of_length_le (by omega)]
  exact List.not_mem_nil

/-- The message on a negative position is never printed. -/
theorem message_jamais {s₀ : Recherche} (h : Loop.Ends (tour executionPath) s₀ s) :
    (suite executionPath s).1 = false := by
  obtain ⟨s', -, hleave⟩ := h.invariant (fun _ => True) trivial fun _ _ _ _ => trivial
  obtain ⟨rfl, -, hpos⟩ := tour_inr hleave
  exact decide_eq_false (not_lt.2 hpos)

/-- The invariant of the loop: `count` counts the `/` between the position and its first value, and
the fifth one stands just after the position. -/
structure Suivi (executionPath : Chaine) (s : Recherche) : Prop where
  minimum : -1 ≤ s.pos
  maximum : s.pos ≤ (depart executionPath).pos
  compte : s.count + (executionPath.drop ((depart executionPath).pos + 1).toNat).count barre =
    (executionPath.drop (s.pos + 1).toNat).count barre
  cinq : s.count ≤ 5
  trouvee : s.count = 5 → executionPath[(s.pos + 1).toNat]? = some barre

theorem suivi_depart (h : 0 ≤ (depart executionPath).pos) :
    Suivi executionPath (depart executionPath) where
  minimum := by omega
  maximum := le_rfl
  compte := Nat.zero_add _
  cinq := Nat.zero_le _
  trouvee h := by cases h

/-- A turn keeps the invariant. -/
theorem Suivi.avance (h : Suivi executionPath s) (ht : tour executionPath s = .ok (.inl s')) :
    Suivi executionPath s' := by
  obtain ⟨hpos, hcount, hpos', c, hget, hcount'⟩ := tour_inl ht
  have hsucc : (s.pos + 1).toNat = s.pos.toNat + 1 := by omega
  have hpred : (s'.pos + 1).toNat = s.pos.toNat := by omega
  have hmax := h.maximum
  have hcompte := h.compte
  rw [hsucc] at hcompte
  refine ⟨by omega, by omega, ?_, ?_, ?_⟩
  · rw [hpred, count_drop hget, hcount', ← hcompte]
    omega
  · rw [hcount']
    split_ifs <;> omega
  · intro hfive
    rw [hpred, hget]
    split_ifs at hcount' with hc
    · exact congrArg some hc
    · omega

/-- A loop that starts inside the path keeps the invariant to its end. -/
theorem suivi_of_ends (hpositif : 0 ≤ (depart executionPath).pos)
    (h : Loop.Ends (tour executionPath) (depart executionPath) s) :
    Suivi executionPath s ∧ 5 ≤ s.count ∧ 0 ≤ s.pos := by
  obtain ⟨s', hs, hleave⟩ := h.invariant (Suivi executionPath) (suivi_depart hpositif)
    fun _ _ hs ht => hs.avance ht
  obtain ⟨rfl, hcount, hpos⟩ := tour_inr hleave
  exact ⟨hs, hcount, hpos⟩

/-- Where the loop is left, the root ends with the fifth `/` seen, and four follow it in what was
walked. -/
theorem Suivi.sortie (h : Suivi executionPath s) (hcount : 5 ≤ s.count) (hpos : 0 ≤ s.pos) :
    (racine executionPath s.pos).length = (s.pos + 2).toNat ∧
      (racine executionPath s.pos).getLast? = some barre ∧
      (executionPath.drop (s.pos + 2).toNat).count barre =
        4 + (executionPath.drop ((depart executionPath).pos + 1).toNat).count barre := by
  have hfive : s.count = 5 := le_antisymm h.cinq hcount
  have htrouvee := h.trouvee hfive
  have hsucc : (s.pos + 2).toNat = (s.pos + 1).toNat + 1 := by omega
  obtain ⟨hlt, hget⟩ := List.getElem?_eq_some_iff.1 htrouvee
  have hlen : (racine executionPath s.pos).length = (s.pos + 2).toNat := by
    rw [racine, List.length_take, hsucc]
    omega
  refine ⟨hlen, ?_, ?_⟩
  · rw [List.getLast?_eq_getElem?, hlen, racine, hsucc, Nat.add_sub_cancel,
      List.getElem?_take_of_lt (Nat.lt_succ_self _)]
    exact htrouvee
  · have hcompte := h.compte
    rw [count_drop htrouvee, if_pos rfl] at hcompte
    rw [hsucc]
    omega

/-- No `/` stands beyond the first position. -/
theorem Favorable.count_apres (hf : Favorable executionPath) :
    (executionPath.drop ((depart executionPath).pos + 1).toNat).count barre = 0 := by
  have hpositif := hf.positif
  have hsucc : ((depart executionPath).pos + 1).toNat = (depart executionPath).pos.toNat + 1 := by
    omega
  rw [hsucc]
  exact List.count_eq_zero.2 hf.apres

/-- What a successful search needs. -/
theorem RacineTrouvee.favorable (h : RacineTrouvee executionPath) : Favorable executionPath := by
  obtain ⟨s, hends, hracine⟩ := h
  have hpositif : 0 ≤ (depart executionPath).pos := by
    cases hends with
    | leave h => exact (tour_inr h).2.2
    | next h _ => exact (tour_inl h).1
  obtain ⟨hs, hcount, hpos⟩ := suivi_of_ends hpositif hends
  obtain ⟨hlen, -, hsuite⟩ := hs.sortie hcount hpos
  have hapres := hracine.apres
  rw [hlen, hsuite] at hapres
  have hsucc : ((depart executionPath).pos + 1).toNat = (depart executionPath).pos.toNat + 1 := by
    omega
  refine ⟨hpositif, ?_, ?_⟩
  · rw [← hsucc]
    exact List.count_eq_zero.1 (by omega)
  · -- the five `/` stand after the first character
    have hcompte := hs.compte
    have hsub : (executionPath.drop (s.pos + 1).toNat).Sublist executionPath.tail := by
      rw [← List.drop_one]
      exact List.drop_sublist_drop_left _ (by omega)
    have hle := hsub.count_le barre
    omega

/-- A search that goes on has not reached the first character. -/
theorem Favorable.avance (hf : Favorable executionPath) (h : Suivi executionPath s) (hpos : 0 ≤ s.pos)
    (hcount : s.count < 5) : ∃ s', tour executionPath s = .ok (.inl s') ∧ 0 ≤ s'.pos ∧
      s'.pos.toNat < s.pos.toNat := by
  have hmax := h.maximum
  have hlt := depart_pos_lt executionPath
  obtain ⟨c, hc⟩ := caractere_of_lt hpos (hmax.trans_lt hlt)
  have hpos₁ : 1 ≤ s.pos := by
    by_contra hzero
    have hs : (s.pos + 1).toNat = 1 := by omega
    have hcompte := h.compte
    have hcinq := hf.cinq
    rw [hs, List.drop_one, hf.count_apres] at hcompte
    omega
  refine ⟨⟨if c = barre then s.count + 1 else s.count, s.pos - 1⟩, ?_, ?_, ?_⟩
  · rw [tour, if_pos (.inl hcount), hc]
    rfl
  · show 0 ≤ s.pos - 1
    omega
  · show (s.pos - 1).toNat < s.pos.toNat
    omega

theorem Favorable.trouvee (hf : Favorable executionPath) : RacineTrouvee executionPath := by
  have hturn : ∀ s, Suivi executionPath s ∧ 0 ≤ s.pos →
      (∃ s', tour executionPath s = .ok (.inr s')) ∨ ∃ s', tour executionPath s = .ok (.inl s') ∧
        (Suivi executionPath s' ∧ 0 ≤ s'.pos) ∧ s'.pos.toNat < s.pos.toNat := by
    rintro s ⟨hs, hpos⟩
    by_cases hcount : s.count < 5
    · obtain ⟨s', ht, hpos', hlt⟩ := hf.avance hs hpos hcount
      exact .inr ⟨s', ht, ⟨hs.avance ht, hpos'⟩, hlt⟩
    · exact .inl ⟨s, if_neg (by omega)⟩
  obtain ⟨s, hends⟩ := Loop.exists_ends (fun s => Suivi executionPath s ∧ 0 ≤ s.pos)
    (fun s => s.pos.toNat) ⟨suivi_depart hf.positif, hf.positif⟩ hturn
  obtain ⟨hs, hcount, hpos⟩ := suivi_of_ends hf.positif hends
  obtain ⟨hlen, hderniere, hsuite⟩ := hs.sortie hcount hpos
  refine ⟨s, hends, List.take_prefix _ _, hderniere, ?_⟩
  rw [hlen, hsuite, hf.count_apres]

/-- **The root of the project** is found exactly when the fifth `/` from the end of the path is not
its first character, for paths whose length fits an `int`. -/
theorem racine_trouvee_iff (executionPath : Chaine) :
    RacineTrouvee executionPath ↔ Favorable executionPath :=
  ⟨RacineTrouvee.favorable, Favorable.trouvee⟩

/-- The project unpacked at the root of the file system: the program is five directories down. -/
def cheminDepuisRacine : Chaine := chaine "/ros_ws/devel/lib/commande_locale/simulation"

/-- Five `/` in the path, and the loop walks past its first character. -/
theorem racine_depassee : ¬∀ executionPath : Chaine, 5 ≤ executionPath.count barre →
    RacineTrouvee executionPath := by
  intro h
  have hcount : 5 ≤ cheminDepuisRacine.count barre := by decide
  have hcinq := (h cheminDepuisRacine hcount).favorable.cinq
  revert hcinq
  decide

end Chemin

end CommandeLocale
