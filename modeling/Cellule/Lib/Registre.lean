import Mathlib.Tactic

/-! # Bits of a register set by addition and subtraction

A register whose bits are written one at a time by adding or subtracting a power of two, and a word
built as a sum of powers of two: neither carries into a neighbouring bit.
-/

namespace Registre

variable {w : ℕ}

/-- Adding a power of two to a register that lacks it sets one bit. -/
theorem getLsbD_add_twoPow {x : BitVec w} {n : ℕ} (hn : n < w) (h : x.getLsbD n = false) (i : ℕ) :
    (x + BitVec.twoPow w n).getLsbD i = if i = n then true else x.getLsbD i := by
  have hand : x &&& BitVec.twoPow w n = 0#w := by
    rw [BitVec.and_twoPow, h]
    rfl
  rw [BitVec.add_eq_or_of_and_eq_zero _ _ hand, BitVec.getLsbD_or, BitVec.getLsbD_twoPow]
  split_ifs with hi
  · simp [hi, hn]
  · simp [Ne.symm hi]

/-- Subtracting a power of two from a register that has it clears one bit. -/
theorem getLsbD_sub_twoPow {x : BitVec w} {n : ℕ} (hn : n < w) (h : x.getLsbD n = true) (i : ℕ) :
    (x - BitVec.twoPow w n).getLsbD i = if i = n then false else x.getLsbD i := by
  -- the register is what its other bits make plus the power
  have hx : x = (x &&& ~~~BitVec.twoPow w n) + BitVec.twoPow w n := by
    rw [BitVec.add_eq_or_of_and_eq_zero]
    · ext j hj
      by_cases hjn : n = j
      · subst hjn
        simpa [← BitVec.getLsbD_eq_getElem, BitVec.getLsbD_twoPow, hn] using h
      · simp [Ne.symm hjn]
    · ext j hj
      simp
  have hsub : x - BitVec.twoPow w n = x &&& ~~~BitVec.twoPow w n :=
    BitVec.sub_eq_iff_eq_add.2 hx
  rw [hsub, BitVec.getLsbD_and, BitVec.getLsbD_not, BitVec.getLsbD_twoPow]
  split_ifs with hi
  · simp [hi, hn]
  · by_cases hiw : i < w
    · simp [hiw, Ne.symm hi]
    · simp [BitVec.getLsbD_of_ge _ _ (not_lt.1 hiw)]

/-- A word below the sign bit is its value. -/
theorem toInt_of_toNat_lt {x : BitVec w} {n : ℕ} (hx : x.toNat < 2 ^ n) (hn : n < w) :
    0 ≤ x.toInt ∧ x.toInt ≤ 2 ^ n - 1 := by
  have hpow : 2 ^ n * 2 ≤ 2 ^ w := by
    rw [← Nat.pow_succ]
    exact Nat.pow_le_pow_right (by norm_num) hn
  have hint : x.toInt = x.toNat := BitVec.toInt_eq_toNat_of_lt (by omega)
  have hlt : (x.toNat : ℤ) < 2 ^ n := by exact_mod_cast hx
  rw [hint]
  constructor <;> omega

/-- The same test on a signed word, for a bit below the sign. -/
theorem toInt_and_twoPow_pos {x : BitVec w} {n : ℕ} (hn : n + 1 < w) :
    0 < (x &&& BitVec.twoPow w n).toInt ↔ x.getLsbD n = true := by
  rw [BitVec.and_twoPow]
  cases x.getLsbD n with
  | false => simp
  | true =>
    have hpow : 2 ^ n * 2 ≤ 2 ^ (w - 1) := by
      rw [← Nat.pow_succ]
      exact Nat.pow_le_pow_right (by norm_num) (by omega)
    have hw : 2 ^ (w - 1) * 2 = 2 ^ w := by
      rw [← Nat.pow_succ, Nat.succ_eq_add_one, Nat.sub_add_cancel (by omega)]
    have hnat : (BitVec.twoPow w n).toNat = 2 ^ n := BitVec.toNat_twoPow_of_lt (by omega)
    have hpos : 0 < 2 ^ n := Nat.two_pow_pos n
    have hint : (BitVec.twoPow w n).toInt = (BitVec.twoPow w n).toNat :=
      BitVec.toInt_eq_toNat_of_lt (by omega)
    rw [if_pos rfl, hint, hnat]
    simp

/-- The sum of `2 ^ (i - 1)` over the cells `1..n` of an array that are set. -/
def somme (w : ℕ) (tab : ℕ → Bool) : ℕ → BitVec w
  | 0 => 0#w
  | n + 1 => if tab (n + 1) then somme w tab n + BitVec.twoPow w n else somme w tab n

/-- Cell `i` of the array is bit `i - 1` of its sum. -/
theorem getLsbD_somme (tab : ℕ → Bool) {n : ℕ} (hn : n ≤ w) (i : ℕ) :
    (somme w tab n).getLsbD i = (decide (i < n) && tab (i + 1)) := by
  induction n generalizing i with
  | zero => simp [somme]
  | succ n ih =>
    have ih := ih (by omega)
    have hfree : (somme w tab n).getLsbD n = false := by simp [ih]
    unfold somme
    split_ifs with htab
    · rw [getLsbD_add_twoPow (by omega) hfree, ih]
      split_ifs with hi
      · simp [hi, htab]
      · have hlt : i < n + 1 ↔ i < n := by omega
        simp [hlt]
    · rw [ih]
      by_cases hi : i = n
      · simp [hi, htab]
      · have hlt : i < n + 1 ↔ i < n := by omega
        simp [hlt]

/-- The sums of two arrays of which one is the other's complement are complements of each other. -/
theorem somme_not {on off : ℕ → Bool} {n : ℕ} (hn : n ≤ w)
    (h : ∀ i, 1 ≤ i → i ≤ n → off i = !on i) :
    somme w off n = ~~~somme w on n &&& (BitVec.allOnes n).setWidth w := by
  apply BitVec.eq_of_getLsbD_eq
  intro i hi
  rw [BitVec.getLsbD_and, BitVec.getLsbD_not, BitVec.getLsbD_setWidth, BitVec.getLsbD_allOnes,
    getLsbD_somme off hn, getLsbD_somme on hn]
  by_cases hin : i < n
  · simp [hi, hin, h (i + 1) (by omega) (by omega)]
  · simp [hin]

end Registre
