import Mathlib.Tactic

/-! # Stacks of cubes

Every table and every shuttle of the simulation carries a stack of `NB_CUBE` cubes, each with a
colour code; `0` is an invisible cube. The base cube names the product, the cubes above it the tasks
done on it.
-/

namespace Robots

/-- `NB_CUBE` (`commande_locale/src/vrepController.h`). -/
def nbCube : ℕ := 6

/-- The colours of one stack, base cube first. -/
abbrev Pile := Fin nbCube → ℤ

namespace Pile

/-- The stack showing the given cubes, invisible above them. -/
def ofList (l : List ℤ) : Pile := fun i => l.getD i 0

/-- The cubes of a stack, base first. -/
def toList (p : Pile) : List ℤ := List.ofFn p

/-- The invisible stack. -/
def vide : Pile := fun _ => 0

/-- The cube at index `i`, `0` beyond the stack. -/
def cube (p : Pile) (i : ℕ) : ℤ := p.toList.getD i 0

/-- The base cube. -/
def base (p : Pile) : ℤ := p.cube 0

@[simp] theorem length_toList (p : Pile) : p.toList.length = nbCube := by simp [toList]

@[simp] theorem ofList_toList (p : Pile) : ofList p.toList = p := by
  funext i
  simp [ofList, toList, List.getD_eq_getElem?_getD]

/-- The cubes that a list shows, and invisible ones above them. -/
theorem toList_ofList {l : List ℤ} (h : l.length ≤ nbCube) :
    (ofList l).toList = l ++ List.replicate (nbCube - l.length) 0 := by
  refine List.ext_getElem (by simp [h]) fun i hi hi' => ?_
  rcases lt_or_ge i l.length with hlt | hge
  · simp [toList, ofList, List.getElem_append_left hlt, List.getElem?_eq_getElem hlt]
  · simp [toList, ofList, List.getElem_append_right hge, List.getElem?_eq_none hge]

@[simp] theorem vide_apply (i : Fin nbCube) : vide i = 0 := rfl

/-- Reading a stack built from a list. -/
theorem cube_ofList (l : List ℤ) {i : ℕ} (hi : i < nbCube) : (ofList l).cube i = l.getD i 0 := by
  simp [cube, ofList, toList, List.getD_eq_getElem?_getD, hi]

theorem cube_eq (p : Pile) (i : Fin nbCube) : p.cube i = p i := by
  simp [cube, toList, List.getD_eq_getElem?_getD]

theorem cube_of_lt (p : Pile) {i : ℕ} (hi : i < nbCube) : p.cube i = p ⟨i, hi⟩ := p.cube_eq ⟨i, hi⟩

theorem cube_of_le (p : Pile) {i : ℕ} (hi : nbCube ≤ i) : p.cube i = 0 := by
  simp [cube, List.getD_eq_getElem?_getD, hi]

/-- Two stacks with the same cubes are the same. -/
theorem ext_cube {p q : Pile} (h : ∀ i < nbCube, p.cube i = q.cube i) : p = q := by
  funext i
  rw [← p.cube_eq, ← q.cube_eq]
  exact h i i.isLt

/-- A stack is invisible when all its cubes are. -/
theorem eq_vide_iff (p : Pile) : p = vide ↔ ∀ c ∈ p.toList, c = 0 := by
  simp only [toList, List.mem_ofFn, forall_exists_index, forall_apply_eq_imp_iff]
  exact funext_iff

/-! ## Height -/

/-- The number of visible cubes below the first invisible one. -/
def hauteur (p : Pile) : ℕ := (p.toList.takeWhile fun c => c != 0).length

/-- Up to the height of a list its elements are visible, and the one at the height is not. -/
private theorem takeWhile_ne_zero (l : List ℤ) (i : ℕ) (hi : i < l.length) :
    (i < (l.takeWhile fun c => c != 0).length → l.getD i 0 ≠ 0) ∧
      (i = (l.takeWhile fun c => c != 0).length → l.getD i 0 = 0) := by
  induction l generalizing i with
  | nil => simp at hi
  | cons c cs ih =>
    by_cases hc : c = 0
    · constructor
      · simp [hc]
      · intro h
        simp [h, hc]
    · cases i with
      | zero => simp [hc]
      | succ i => simpa [hc] using ih i (by simpa using hi)

theorem hauteur_le (p : Pile) : p.hauteur ≤ nbCube := by
  have h := (List.takeWhile_prefix (fun c => c != 0) (l := p.toList)).length_le
  rwa [length_toList] at h

theorem cube_ne_zero (p : Pile) {i : ℕ} (hi : i < p.hauteur) : p.cube i ≠ 0 :=
  (takeWhile_ne_zero p.toList i (by
    rw [length_toList]; exact lt_of_lt_of_le hi p.hauteur_le)).1 hi

theorem cube_hauteur (p : Pile) : p.cube p.hauteur = 0 := by
  rcases p.hauteur_le.lt_or_eq with h | h
  · exact (takeWhile_ne_zero p.toList p.hauteur (by rwa [length_toList])).2 rfl
  · exact p.cube_of_le h.ge

/-- The height is the only index with these properties. -/
theorem hauteur_eq {p : Pile} {h : ℕ} (hlt : ∀ i < h, p.cube i ≠ 0) (h0 : p.cube h = 0) :
    p.hauteur = h := by
  rcases lt_trichotomy p.hauteur h with hl | hl | hl
  · exact absurd p.cube_hauteur (hlt _ hl)
  · exact hl
  · exact absurd h0 (p.cube_ne_zero hl)

/-- Only a stack without a base has no height. -/
theorem hauteur_eq_zero (p : Pile) : p.hauteur = 0 ↔ p.base = 0 := by
  constructor
  · intro h
    have h0 := p.cube_hauteur
    rwa [h] at h0
  · exact fun h => hauteur_eq (by simp) h

/-- The stack cut at `k`, with a cube of colour `c` on top. -/
def avecCube (p : Pile) (k : ℕ) (c : ℤ) : Pile :=
  fun i => if (i : ℕ) < k then p i else if (i : ℕ) = k then c else 0

theorem cube_avecCube (p : Pile) {k : ℕ} (hk : k < nbCube) (c : ℤ) (i : ℕ) :
    (p.avecCube k c).cube i = if i < k then p.cube i else if i = k then c else 0 := by
  rcases lt_or_ge i nbCube with hi | hi
  · rw [cube_of_lt _ hi, cube_of_lt _ hi]
    rfl
  · rw [cube_of_le _ hi, if_neg (by omega), if_neg (by omega)]

/-- A visible cube put on visible cubes is the last one. -/
theorem hauteur_avecCube {p : Pile} {k : ℕ} (hk : k < nbCube) (hkp : k ≤ p.hauteur) {c : ℤ}
    (hc : c ≠ 0) : (p.avecCube k c).hauteur = k + 1 := by
  refine hauteur_eq (fun i hi => ?_) ?_
  · rw [cube_avecCube p hk]
    split
    · exact p.cube_ne_zero (by omega)
    · rwa [if_pos (by omega)]
  · rw [cube_avecCube p hk, if_neg (by omega), if_neg (by omega)]

@[simp] theorem base_avecCube (p : Pile) {k : ℕ} (hk : k < nbCube) (h0 : 0 < k) (c : ℤ) :
    (p.avecCube k c).base = p.base := by
  rw [base, cube_avecCube p hk, if_pos h0, base]

/-! ## Reading up to the first empty slot -/

/-- The cubes that a scan from the base reads: those below the first empty slot, and that slot. -/
def jusquAuVide : List ℤ → List ℤ
  | [] => []
  | c :: cs => if c = 0 then [c] else c :: jusquAuVide cs

theorem jusquAuVide_eq_take (l : List ℤ) :
    jusquAuVide l = l.take ((l.takeWhile fun c => c != 0).length + 1) := by
  induction l with
  | nil => rfl
  | cons c cs ih =>
    by_cases hc : c = 0
    · simp [jusquAuVide, hc]
    · simp [jusquAuVide, hc, ih]

/-- The scan of a stack. -/
def lus (p : Pile) : List ℤ := jusquAuVide p.toList

theorem lus_eq_take (p : Pile) : p.lus = p.toList.take (p.hauteur + 1) := jusquAuVide_eq_take _

theorem length_lus (p : Pile) : p.lus.length = min (p.hauteur + 1) nbCube := by
  rw [lus_eq_take, List.length_take, length_toList]

/-- The scan reads the visible cubes. -/
theorem getD_lus (p : Pile) (i : ℕ) : p.lus.getD i 0 = if i < p.hauteur then p.cube i else 0 := by
  rw [lus_eq_take, List.getD_eq_getElem?_getD, List.getElem?_take]
  split_ifs with h1 h2 h2
  · rw [cube, List.getD_eq_getElem?_getD]
  · have h : i = p.hauteur := by omega
    rw [← List.getD_eq_getElem?_getD, h]
    exact p.cube_hauteur
  · omega
  · rfl

/-- The last cube read is invisible unless the stack is full. -/
theorem getLastD_lus (p : Pile) : p.lus.getLastD 0 ≠ 0 ↔ p.hauteur = nbCube := by
  have hlen := p.length_lus
  have hle := p.hauteur_le
  have hlast : p.lus.getLastD 0 = p.lus.getD (p.lus.length - 1) 0 := by
    rw [List.getLastD_eq_getLast?, List.getLast?_eq_getElem?, List.getD_eq_getElem?_getD]
  rw [hlast, getD_lus, hlen]
  have hnb : nbCube = 6 := rfl
  constructor
  · intro h
    by_contra hne
    exact h (if_neg (by omega))
  · intro h
    rw [if_pos (by omega)]
    exact p.cube_ne_zero (by omega)

/-- The scan sees that the stack has no base. -/
theorem length_lus_eq_one (p : Pile) : p.lus.length = 1 ↔ p.hauteur = 0 := by
  rw [length_lus]
  have hnb : nbCube = 6 := rfl
  omega

/-- The scan sees that the stack is full. -/
theorem lus_plein (p : Pile) :
    (p.lus.length = nbCube ∧ p.lus.getLastD 0 ≠ 0) ↔ p.hauteur = nbCube := by
  rw [getLastD_lus, length_lus]
  omega

end Pile

end Robots
