import Mathlib.Tactic

/-! # The last write of each key

A history whose events may each write a value under a key. What a table that is rewritten one cell
at a time holds in the end is, for each key, the value of its last write.
-/

namespace LastWrite

variable {E K V : Type} (write : E → Option (K × V))

/-- Some event of the history writes. -/
def Written (trace : List E) : Prop := ∃ e ∈ trace, (write e).isSome

variable {write}

theorem written_concat_of_none {trace : List E} {e : E} (he : write e = none) :
    Written write (trace ++ [e]) ↔ Written write trace := by
  unfold Written
  simp [or_and_right, exists_or, he]

variable [DecidableEq K] (write)

/-- The value of the last event of a history that writes a key. -/
def last (trace : List E) (k : K) : Option V :=
  trace.reverse.findSome? fun e => (write e).bind fun w => if w.1 = k then some w.2 else none

variable {write}

/-- A write replaces the value of its key and no other. -/
theorem last_concat_of_some {trace : List E} {e : E} {k : K} {v : V} (he : write e = some (k, v)) :
    last write (trace ++ [e]) = Function.update (last write trace) k (some v) := by
  funext k'
  unfold last
  rw [List.reverse_concat, List.findSome?_cons, he, Option.bind_some, Function.update_apply]
  by_cases hk : k = k'
  · rw [if_pos hk, if_pos hk.symm]
  · rw [if_neg hk, if_neg (Ne.symm hk)]

/-- An event that writes nothing leaves every value. -/
theorem last_concat_of_none {trace : List E} {e : E} (he : write e = none) :
    last write (trace ++ [e]) = last write trace := by
  funext k'
  unfold last
  rw [List.reverse_concat, List.findSome?_cons, he, Option.bind_none]

end LastWrite
