import Mathlib.Tactic

/-! # Texts, numbers and lists of a scripting language

The built-in operations of Python that a script uses to read lines of text: subscripts that may be
negative, `split`, `replace` and `strip`, and the conversions `int` and `float`. A statement that
raises ends the script, so each operation that may raise is an `Except`.
-/

namespace Python

/-- What an operation raises. -/
inductive Exception
  | valueError
  | indexError
  deriving DecidableEq, Repr

/-- A text, as its characters. -/
abbrev Str := List Char

@[simp] theorem ok_bind {α β : Type} (a : α) (f : α → Except Exception β) :
    (Except.ok a >>= f) = f a := rfl

/-- A sequence that does not raise has both parts not raising. -/
theorem bind_eq_ok {α β : Type} {x : Except Exception α} {f : α → Except Exception β} {b : β} :
    (x >>= f) = .ok b ↔ ∃ a, x = .ok a ∧ f a = .ok b := by
  cases x with
  | error e => simp [bind, Except.bind]
  | ok a => simp [bind, Except.bind]

/-- A list of operations that do not raise gives their results in order. -/
theorem mapM_eq_ok {α β : Type} {f : α → Except Exception β} {l : List α} {r : List β} :
    l.mapM f = .ok r ↔ List.Forall₂ (fun a b => f a = .ok b) l r := by
  induction l generalizing r with
  | nil => cases r <;> simp [pure, Except.pure]
  | cons a l ih =>
    rw [List.mapM_cons, bind_eq_ok]
    constructor
    · rintro ⟨b, hb, h⟩
      obtain ⟨bs, hbs, h⟩ := bind_eq_ok.1 h
      cases h
      exact .cons hb (ih.1 hbs)
    · rintro (_ | ⟨hb, hbs⟩)
      refine ⟨_, hb, ?_⟩
      rw [ih.2 hbs]
      rfl

/-! ## Subscripts -/

section Subscripts

variable {α : Type}

/-- The place that a subscript names in a list of `n` elements; a negative one counts from
the end. -/
def place (n : ℕ) (i : ℤ) : Option ℕ :=
  if 0 ≤ i then some i.toNat else if 0 ≤ n + i then some (n + i).toNat else none

/-- `l[i]`. -/
def item (l : List α) (i : ℤ) : Except Exception α :=
  match (place l.length i).bind fun k => l[k]? with
  | some a => .ok a
  | none => .error .indexError

/-- `l[i] = a`. -/
def setItem (l : List α) (i : ℤ) (a : α) : Except Exception (List α) :=
  match place l.length i with
  | some k => if k < l.length then .ok (l.set k a) else .error .indexError
  | none => .error .indexError

variable {l l' : List α} {i : ℤ} {a : α}

theorem item_of_getElem? (hi : 0 ≤ i) (h : l[i.toNat]? = some a) : item l i = .ok a := by
  simp [item, place, hi, h]

theorem getElem?_of_item (hi : 0 ≤ i) (h : item l i = .ok a) : l[i.toNat]? = some a := by
  cases hl : l[i.toNat]? with
  | none => simp [item, place, hi, hl] at h
  | some b => simpa [item, place, hi, hl] using h

/-- A subscript that does not raise is below the length. -/
theorem lt_of_item (h : item l i = .ok a) : i < l.length := by
  by_cases hi : 0 ≤ i
  · have hlt := (List.getElem?_eq_some_iff.1 (getElem?_of_item hi h)).1
    omega
  · omega

@[simp] theorem item_cons_zero (a : α) (l : List α) : item (a :: l) 0 = .ok a := rfl

@[simp] theorem item_cons_one (a b : α) (l : List α) : item (a :: b :: l) 1 = .ok b := rfl

@[simp] theorem item_cons_two (a b c : α) (l : List α) : item (a :: b :: c :: l) 2 = .ok c := rfl

@[simp] theorem item_cons_three (a b c d : α) (l : List α) :
    item (a :: b :: c :: d :: l) 3 = .ok d := rfl

/-- The last element. -/
theorem item_length_sub_one (a : α) (l : List α) (b : α) :
    item (a :: l ++ [b]) (((a :: l ++ [b]).length : ℤ) - 1) = .ok b := by
  apply item_of_getElem?
  · simp only [List.length_append, List.length_cons, List.length_nil]
    omega
  · simp

/-- Writing at a subscript that is not negative changes that place of the list only. -/
theorem eq_set_of_setItem (hi : 0 ≤ i) (h : setItem l i a = .ok l') :
    i.toNat < l.length ∧ l' = l.set i.toNat a := by
  unfold setItem place at h
  rw [if_pos hi] at h
  by_cases hlt : i.toNat < l.length
  · simp only [hlt, if_true, Except.ok.injEq] at h
    exact ⟨hlt, h.symm⟩
  · simp [hlt] at h

theorem setItem_of_lt (hi : 0 ≤ i) (h : i.toNat < l.length) :
    setItem l i a = .ok (l.set i.toNat a) := by
  simp [setItem, place, hi, h]

/-- A subscript in range does not raise, whatever its sign. -/
theorem place_of_range {n : ℕ} (h : -(n : ℤ) ≤ i) (h' : i < n) : ∃ k, place n i = some k ∧ k < n := by
  unfold place
  split_ifs with h₁ h₂
  · exact ⟨_, rfl, by omega⟩
  · exact ⟨_, rfl, by omega⟩
  · omega

theorem exists_item (h : -(l.length : ℤ) ≤ i) (h' : i < l.length) : ∃ a, item l i = .ok a := by
  obtain ⟨k, hk, hlt⟩ := place_of_range h h'
  unfold item
  rw [hk, Option.bind_some, List.getElem?_eq_getElem hlt]
  exact ⟨_, rfl⟩

theorem exists_setItem (h : -(l.length : ℤ) ≤ i) (h' : i < l.length) (a : α) :
    ∃ l', setItem l i a = .ok l' := by
  obtain ⟨k, hk, hlt⟩ := place_of_range h h'
  unfold setItem
  rw [hk]
  dsimp only
  rw [if_pos hlt]
  exact ⟨_, rfl⟩

/-- Only such a subscript does not raise. -/
theorem range_of_item (h : item l i = .ok a) : -(l.length : ℤ) ≤ i ∧ i < l.length := by
  refine ⟨?_, lt_of_item h⟩
  unfold item place at h
  split_ifs at h with h₁ h₂
  · omega
  · omega
  · cases h

theorem range_of_setItem (h : setItem l i a = .ok l') : -(l.length : ℤ) ≤ i ∧ i < l.length := by
  unfold setItem place at h
  split_ifs at h with h₁ h₂
  · dsimp only at h
    split_ifs at h with hlt
    omega
  · dsimp only at h
    split_ifs at h with hlt
    omega

/-- Writing at a subscript keeps the length, whatever the sign. -/
theorem length_setItem (h : setItem l i a = .ok l') : l'.length = l.length := by
  unfold setItem at h
  split at h
  · split at h
    · cases h
      exact List.length_set
    · cases h
  · cases h

end Subscripts

/-! ## Texts -/

/-- `s.replace(c, "")`. -/
def remove (c : Char) (s : Str) : Str := s.filter (· ≠ c)

/-- `s.split(c)`. -/
def split (c : Char) (s : Str) : List Str := s.splitOn c

/-- Take away what satisfies `p` at both ends. -/
def stripBy (p : Char → Bool) (s : Str) : Str := ((s.dropWhile p).reverse.dropWhile p).reverse

/-- `s.strip(c)`. -/
def strip (c : Char) (s : Str) : Str := stripBy (· = c) s

/-- A text with no `c` at either end is what `strip` leaves of it. -/
theorem stripBy_eq_self {p : Char → Bool} {s : Str} (hhead : ∀ c ∈ s.head?, p c = false)
    (hlast : ∀ c ∈ s.getLast?, p c = false) : stripBy p s = s := by
  have hdrop : ∀ t : Str, (∀ c ∈ t.head?, p c = false) → t.dropWhile p = t := by
    intro t ht
    cases t with
    | nil => rfl
    | cons c cs => simp [ht c rfl]
  rw [stripBy, hdrop s hhead, hdrop s.reverse (by simpa using hlast), List.reverse_reverse]

/-- One character taken away at the end. -/
theorem stripBy_snoc {p : Char → Bool} {s : Str} {c : Char} (hc : p c = true) (hs : s ≠ [])
    (hall : ∀ d ∈ s, p d = false) : stripBy p (s ++ [c]) = s := by
  have hself : stripBy p s = s :=
    stripBy_eq_self (fun d hd => hall d (List.mem_of_head? hd))
      (fun d hd => hall d (List.mem_of_getLast? hd))
  obtain ⟨d, ds, rfl⟩ := List.exists_cons_of_ne_nil hs
  have hd : p d = false := hall d (by simp)
  unfold stripBy at hself ⊢
  rw [List.cons_append, List.dropWhile_cons_of_neg (by simp [hd])] at *
  simpa [hc] using hself

/-- What is taken away may be lengthened at both ends. -/
theorem stripBy_append {p : Char → Bool} {a b : Str} (ha : ∀ c ∈ a, p c = true)
    (hb : ∀ c ∈ b, p c = true) (s : Str) : stripBy p (a ++ s ++ b) = stripBy p s := by
  have hdrop : ∀ {a : Str}, (∀ c ∈ a, p c = true) → ∀ t : Str, (a ++ t).dropWhile p = t.dropWhile p := by
    intro a ha t
    induction a with
    | nil => rfl
    | cons c a ih =>
      rw [List.cons_append, List.dropWhile_cons_of_pos (ha c List.mem_cons_self)]
      exact ih fun d hd => ha d (List.mem_cons_of_mem c hd)
  have hnil : ∀ {a : Str}, (∀ c ∈ a, p c = true) → a.dropWhile p = [] := by
    intro a ha
    simpa using hdrop ha []
  unfold stripBy
  rw [List.append_assoc, hdrop ha, List.dropWhile_append]
  -- a text of which nothing is left, or one that stops the first pass
  split_ifs with hs
  · rw [List.isEmpty_iff.1 hs, hnil hb]
  · rw [List.reverse_append, hdrop fun c hc => hb c (List.mem_reverse.1 hc)]

/-- Fields, each one after a separator that none of them contains. -/
theorem split_flatMap {c : Char} {x : Str} {l : List Str} (hx : c ∉ x) (hl : ∀ s ∈ l, c ∉ s) :
    split c (x ++ l.flatMap (c :: ·)) = x :: l := by
  unfold split
  induction l generalizing x with
  | nil => simpa using List.splitOn_eq_singleton hx
  | cons s l ih =>
    rw [List.flatMap_cons, List.cons_append, List.splitOn_append_cons_self_of_not_mem hx,
      ih (hl s (by simp)) fun t ht => hl t (by simp [ht])]

/-- A text is its fields, each one but the first after a separator. -/
theorem flatMap_of_split {c : Char} {s x : Str} {l : List Str} (h : split c s = x :: l) :
    s = x ++ l.flatMap (c :: ·) := by
  have hjoin : ∀ (x : Str) (l : List Str), [c].intercalate (x :: l) = x ++ l.flatMap (c :: ·) := by
    intro x l
    induction l generalizing x with
    | nil => simp
    | cons y l ih =>
      rw [List.intercalate_cons_cons, ih, List.flatMap_cons, List.append_assoc]
      rfl
  rw [← hjoin, ← h]
  exact (List.intercalate_splitOn c).symm

/-- A field holds no separator. -/
theorem not_mem_of_mem_split {c : Char} {s t : Str} (h : t ∈ split c s) : c ∉ t := by
  unfold split at h
  induction s generalizing t with
  | nil =>
    rw [List.splitOn_nil, List.mem_singleton] at h
    exact h ▸ List.not_mem_nil
  | cons d s ih =>
    rw [List.splitOn_cons_eq_if_modifyHead] at h
    split_ifs at h with hd
    · rcases List.mem_cons.1 h with rfl | h
      · exact List.not_mem_nil
      · exact ih h
    · obtain ⟨u, us, hs⟩ := List.exists_cons_of_ne_nil (List.splitOn_ne_nil c s)
      rw [hs, List.modifyHead_cons] at h
      rcases List.mem_cons.1 h with rfl | h
      · have hu : c ∉ u := ih (hs ▸ List.mem_cons_self)
        rw [List.mem_cons, not_or]
        exact ⟨fun heq => hd (beq_iff_eq.2 heq.symm), hu⟩
      · exact ih (hs ▸ List.mem_cons_of_mem u h)

/-- What a file opened in text mode gives of a text: `\r\n` and `\r` are ends of line too. -/
def translate : Str → Str
  | [] => []
  | '\r' :: '\n' :: s => '\n' :: translate s
  | '\r' :: s => '\n' :: translate s
  | c :: s => c :: translate s

/-- The lines of a text, each with the end of line that closes it. -/
def lines : Str → List Str
  | [] => []
  | c :: s =>
      if c = '\n' then ['\n'] :: lines s
      else match lines s with
        | [] => [[c]]
        | ligne :: lignes => (c :: ligne) :: lignes

/-- `f.readlines()`, for a file opened in text mode with this text. -/
def readlines (s : Str) : List Str := lines (translate s)

example : readlines ['\r', '\n', 'a', '\r', 'b'] = [['\n'], ['a', '\n'], ['b']] := by decide

/-- An end of line stands at the end of a line only. -/
theorem not_mem_dropLast_of_mem_lines {s ligne : Str} (h : ligne ∈ lines s) :
    '\n' ∉ ligne.dropLast := by
  induction s generalizing ligne with
  | nil => cases h
  | cons c s ih =>
    rw [lines] at h
    split_ifs at h with hc
    · rcases List.mem_cons.1 h with rfl | h
      · exact List.not_mem_nil
      · exact ih h
    · cases hs : lines s with
      | nil =>
        rw [hs] at h
        rw [List.mem_singleton.1 h]
        exact List.not_mem_nil
      | cons l lignes =>
        rw [hs] at h ih
        rcases List.mem_cons.1 h with rfl | h
        · cases l with
          | nil => exact List.not_mem_nil
          | cons d l =>
            rw [List.dropLast_cons_cons, List.mem_cons, not_or]
            exact ⟨fun heq => hc heq.symm, ih List.mem_cons_self⟩
        · exact ih (List.mem_cons_of_mem l h)

theorem remove_append (c : Char) (s t : Str) : remove c (s ++ t) = remove c s ++ remove c t :=
  List.filter_append s t

theorem remove_of_not_mem {c : Char} {s : Str} (h : c ∉ s) : remove c s = s := by
  unfold remove
  rw [List.filter_eq_self]
  intro d hd
  simpa using fun heq : d = c => h (heq ▸ hd)

/-! ## Numbers -/

/-- The characters that stand for zero among the decimal digits of Unicode; the nine other digits of
each script follow. -/
def zeros : List ℕ :=
  [0x30, 0x660, 0x6f0, 0x7c0, 0x966, 0x9e6, 0xa66, 0xae6, 0xb66, 0xbe6, 0xc66, 0xce6, 0xd66, 0xde6,
    0xe50, 0xed0, 0xf20, 0x1040, 0x1090, 0x17e0, 0x1810, 0x1946, 0x19d0, 0x1a80, 0x1a90, 0x1b50,
    0x1bb0, 0x1c40, 0x1c50, 0xa620, 0xa8d0, 0xa900, 0xa9d0, 0xa9f0, 0xaa50, 0xabf0, 0xff10, 0x104a0,
    0x10d30, 0x11066, 0x110f0, 0x11136, 0x111d0, 0x112f0, 0x11450, 0x114d0, 0x11650, 0x116c0,
    0x11730, 0x118e0, 0x11950, 0x11c50, 0x11d50, 0x11da0, 0x16a60, 0x16ac0, 0x16b50, 0x1d7ce,
    0x1d7d8, 0x1d7e2, 0x1d7ec, 0x1d7f6, 0x1e140, 0x1e2f0, 0x1e950, 0x1fbf0]

/-- The value of a decimal digit. -/
def digit (c : Char) : Option ℕ :=
  (zeros.find? fun z => z ≤ c.toNat ∧ c.toNat < z + 10).map fun z => c.toNat - z

/-- The characters that `int` and `float` pass over at both ends: white space, without the four
separators from U+001C to U+001F, which `strip` takes away and these conversions refuse. -/
def isSpace (c : Char) : Bool :=
  c.toNat ∈ [0x9, 0xa, 0xb, 0xc, 0xd, 0x20, 0x85, 0xa0, 0x1680, 0x2000, 0x2001, 0x2002, 0x2003, 0x2004,
    0x2005, 0x2006, 0x2007, 0x2008, 0x2009, 0x200a, 0x2028, 0x2029, 0x202f, 0x205f, 0x3000]

/-- Read digits after the value `n`; one underscore may stand before a digit. -/
def digitsFrom (n : ℕ) : Str → Option ℕ
  | [] => some n
  | '_' :: c :: cs => (digit c).bind fun d => digitsFrom (10 * n + d) cs
  | c :: cs => (digit c).bind fun d => digitsFrom (10 * n + d) cs

/-- Read a number made of at least one digit. -/
def digits : Str → Option ℕ
  | [] => none
  | c :: cs => (digit c).bind fun d => digitsFrom d cs

/-- Split off a sign. -/
def sign : Str → ℤ × Str
  | '-' :: s => (-1, s)
  | '+' :: s => (1, s)
  | s => (1, s)

/-- `int(s)`. -/
def int (s : Str) : Except Exception ℤ :=
  let t := sign (stripBy isSpace s)
  match digits t.2 with
  | some n => .ok (t.1 * n)
  | none => .error .valueError

/-- `int` passes over what surrounds a number. -/
theorem int_append {a b : Str} (ha : ∀ c ∈ a, isSpace c = true) (hb : ∀ c ∈ b, isSpace c = true)
    (s : Str) : int (a ++ s ++ b) = int s := by
  unfold int
  rw [stripBy_append ha hb]

/-- One character is never a negative number. -/
theorem nonneg_of_int {c : Char} {n : ℤ} (h : int [c] = .ok n) : 0 ≤ n := by
  have hstrip : stripBy isSpace [c] = [] ∨ stripBy isSpace [c] = [c] := by
    unfold stripBy
    cases hc : isSpace c with
    | true => exact .inl (by simp [hc])
    | false => exact .inr (by simp [hc])
  have hsign : ∀ s : Str, s = [] ∨ s = [c] → digits (sign s).2 = none ∨ (sign s).1 = 1 := by
    rintro s (rfl | rfl)
    · exact .inl rfl
    · unfold sign
      split
      · rename_i heq
        cases heq
        exact .inl rfl
      · exact .inr rfl
      · exact .inr rfl
  unfold int at h
  dsimp only at h
  rcases hsign _ hstrip with hnone | hone
  · rw [hnone] at h
    cases h
  · cases hd : digits (sign (stripBy isSpace [c])).2 with
    | none =>
      rw [hd] at h
      cases h
    | some m =>
      rw [hd, hone] at h
      have hm := Except.ok.inj h
      omega

/-- A type that stands for the floating-point numbers of the language, with what a script does with
them. No law is assumed: rounding, infinities and the number that differs from itself are
allowed. -/
class Floating (F : Type) where
  parse : Str → Option F
  zero : F
  add : F → F → F
  sub : F → F → F
  divInt : F → ℤ → F
  eq : F → F → Bool

/-- `float(s)`. -/
def float {F : Type} [Floating F] (s : Str) : Except Exception F :=
  match Floating.parse s with
  | some x => .ok x
  | none => .error .valueError

/-- Read digits, a point and digits, with digits on one side at least, as an exact number. -/
def decimal (s : Str) : Option ℚ :=
  match s.splitOn '.' with
  | [a] => (digits a).map fun n : ℕ => (n : ℚ)
  | [[], b] => (digits b).map fun n : ℕ => (n : ℚ) / 10 ^ (b.filter (· ≠ '_')).length
  | [a, []] => (digits a).map fun n : ℕ => (n : ℚ)
  | [a, b] => (digits a).bind fun n : ℕ => (digits b).map fun m : ℕ =>
      (n : ℚ) + (m : ℚ) / 10 ^ (b.filter (· ≠ '_')).length
  | _ => none

/-- Read a number with an optional exponent. -/
def scientific (s : Str) : Option ℚ :=
  match (s.map fun c => if c = 'E' then 'e' else c).splitOn 'e' with
  | [a] => decimal a
  | [a, e] => (decimal a).bind fun x => (digits (sign e).2).map fun n : ℕ =>
      x * (10 : ℚ) ^ ((sign e).1 * n)
  | _ => none

/-- Exact numbers, read from their decimal notation. -/
instance : Floating ℚ where
  parse s := (scientific (sign (stripBy isSpace s)).2).map fun x => (sign (stripBy isSpace s)).1 * x
  zero := 0
  add := (· + ·)
  sub := (· - ·)
  divInt x n := x / n
  eq x y := x = y

/-- What the equality of numbers satisfies. It need not be reflexive: a number may differ from
itself. -/
class LawfulFloating (F : Type) [Floating F] : Prop where
  zero_eq_zero : Floating.eq (Floating.zero : F) Floating.zero = true
  symm {x y : F} : Floating.eq x y = true → Floating.eq y x = true
  trans {x y z : F} : Floating.eq x y = true → Floating.eq y z = true → Floating.eq x z = true

instance : LawfulFloating ℚ where
  zero_eq_zero := decide_eq_true rfl
  symm h := decide_eq_true (of_decide_eq_true h).symm
  trans h h' := decide_eq_true ((of_decide_eq_true h).trans (of_decide_eq_true h'))

/-! ## Reading plain digits -/

section Digits

variable {s : Str} {c : Char}

theorem toNat_of_isDigit (h : c.isDigit) : 48 ≤ c.toNat ∧ c.toNat ≤ 57 :=
  Char.isDigit_iff_toNat.1 h

theorem digit_of_isDigit (h : c.isDigit) : digit c = some (c.toNat - 48) := by
  obtain ⟨h₁, h₂⟩ := toNat_of_isDigit h
  unfold digit zeros
  rw [List.find?_cons_of_pos (by simp; omega)]
  rfl

theorem isSpace_of_isDigit (h : c.isDigit) : isSpace c = false := by
  obtain ⟨h₁, h₂⟩ := toNat_of_isDigit h
  simp only [isSpace, List.mem_cons, List.not_mem_nil, decide_eq_false_iff_not, or_false]
  omega

theorem ne_of_isDigit (h : c.isDigit) {d : Char} (hd : d.isDigit = false) : c ≠ d := by
  rintro rfl
  exact absurd h (by simp [hd])

theorem digitsFrom_of_isDigit (h : ∀ c ∈ s, c.isDigit) (n : ℕ) :
    digitsFrom n s = some (Nat.ofDigitChars 10 s n) := by
  induction s generalizing n with
  | nil => simp [digitsFrom]
  | cons c cs ih =>
    have hc : c.isDigit := h c (by simp)
    have hne : c ≠ '_' := ne_of_isDigit hc rfl
    have hcons : digitsFrom n (c :: cs) = (digit c).bind fun d => digitsFrom (10 * n + d) cs := by
      rw [digitsFrom]
      rintro d ds h -
      exact hne h
    rw [hcons, digit_of_isDigit hc, Nat.ofDigitChars_cons]
    exact ih (fun d hd => h d (by simp [hd])) _

theorem digits_of_isDigit (h : ∀ c ∈ s, c.isDigit) (hs : s ≠ []) :
    digits s = some (Nat.ofDigitChars 10 s 0) := by
  obtain ⟨c, cs, rfl⟩ := List.exists_cons_of_ne_nil hs
  show ((digit c).bind fun d => digitsFrom d cs) = _
  rw [digit_of_isDigit (h c (by simp)), Nat.ofDigitChars_cons]
  simpa using digitsFrom_of_isDigit (fun d hd => h d (by simp [hd])) (c.toNat - 48)

theorem sign_of_isDigit (h : ∀ c ∈ s.head?, c.isDigit) : sign s = (1, s) := by
  cases s with
  | nil => rfl
  | cons c cs =>
    have hc : c.isDigit := h c rfl
    have h₁ : c ≠ '-' := ne_of_isDigit hc rfl
    have h₂ : c ≠ '+' := ne_of_isDigit hc rfl
    unfold sign
    split <;> simp_all

/-- `int` on a text made of digits. -/
theorem int_of_isDigit (h : ∀ c ∈ s, c.isDigit) (hs : s ≠ []) :
    int s = .ok (Nat.ofDigitChars 10 s 0) := by
  have hstrip : stripBy isSpace s = s :=
    stripBy_eq_self (fun c hc => isSpace_of_isDigit (h c (List.mem_of_head? hc)))
      (fun c hc => isSpace_of_isDigit (h c (List.mem_of_getLast? hc)))
  unfold int
  rw [hstrip, sign_of_isDigit fun c hc => h c (List.mem_of_head? hc)]
  simp [digits_of_isDigit h hs]

/-- `int` reads a number back from its digits. -/
theorem int_toDigits (n : ℕ) : int (Nat.toDigits 10 n) = .ok n := by
  rw [int_of_isDigit (fun c hc => Nat.isDigit_of_mem_toDigits (by omega) (by omega) hc)
    Nat.toDigits_ne_nil, Nat.ofDigitChars_ten_toDigits]

/-- `int` on one digit. -/
theorem int_digitChar {n : ℕ} (h : n < 10) : int [Nat.digitChar n] = .ok n := by
  rw [← Nat.toDigits_of_lt_base h, int_toDigits]

/-- The first digit of a positive number is not zero. -/
theorem exists_head_toDigits {n : ℕ} (h : 0 < n) :
    ∃ k cs, (1 ≤ k ∧ k ≤ 9) ∧ Nat.toDigits 10 n = Nat.digitChar k :: cs := by
  induction n using Nat.strong_induction_on with
  | h n ih =>
    by_cases hn : n < 10
    · exact ⟨n, [], by omega, Nat.toDigits_of_lt_base hn⟩
    · obtain ⟨k, cs, hk, heq⟩ := ih (n / 10) (by omega) (by omega)
      refine ⟨k, cs ++ [Nat.digitChar (n % 10)], hk, ?_⟩
      rw [Nat.toDigits_of_base_le (by omega) (by omega), heq, List.cons_append]

/-- A text of digits and points is not changed by what `float` looks for first. -/
theorem parse_of_isDigit (h : ∀ c ∈ s, c.isDigit ∨ c = '.') (hhead : ∀ c ∈ s.head?, c.isDigit) :
    scientific (sign s).2 = decimal s ∧ (sign s).1 = 1 := by
  have hsign := sign_of_isDigit hhead
  have hne : ∀ c ∈ s, c ≠ 'e' ∧ c ≠ 'E' := by
    intro c hc
    rcases h c hc with hd | rfl
    · exact ⟨ne_of_isDigit hd rfl, ne_of_isDigit hd rfl⟩
    · decide
  have hmap : s.map (fun c => if c = 'E' then 'e' else c) = s := by
    refine (List.map_congr_left fun c hc => ?_).trans (List.map_id s)
    exact if_neg (hne c hc).2
  rw [hsign]
  refine ⟨?_, rfl⟩
  unfold scientific
  rw [hmap, List.splitOn_eq_singleton fun hmem => (hne _ hmem).1 rfl]

theorem decimal_of_isDigit (h : ∀ c ∈ s, c.isDigit) (hs : s ≠ []) :
    decimal s = some (Nat.ofDigitChars 10 s 0 : ℚ) := by
  unfold decimal
  rw [List.splitOn_eq_singleton fun hmem => ne_of_isDigit (h _ hmem) rfl rfl]
  simp [digits_of_isDigit h hs]

/-- Digits, a point and digits. -/
theorem decimal_point {a b : Str} (ha : ∀ c ∈ a, c.isDigit) (hb : ∀ c ∈ b, c.isDigit) (ha₀ : a ≠ [])
    (hb₀ : b ≠ []) : decimal (a ++ '.' :: b) =
      some ((Nat.ofDigitChars 10 a 0 : ℚ) + (Nat.ofDigitChars 10 b 0 : ℚ) / 10 ^ b.length) := by
  have hfilter : b.filter (· ≠ '_') = b := by
    rw [List.filter_eq_self]
    intro c hc
    simpa using ne_of_isDigit (hb c hc) rfl
  have hsplit : (a ++ '.' :: b).splitOn '.' = [a, b] := by
    rw [List.splitOn_append_cons_self_of_not_mem fun hmem => ne_of_isDigit (ha _ hmem) rfl rfl,
      List.splitOn_eq_singleton fun hmem => ne_of_isDigit (hb _ hmem) rfl rfl]
  obtain ⟨c, cs, rfl⟩ := List.exists_cons_of_ne_nil ha₀
  obtain ⟨d, ds, rfl⟩ := List.exists_cons_of_ne_nil hb₀
  unfold decimal
  rw [hsplit]
  simp only [digits_of_isDigit ha ha₀, digits_of_isDigit hb hb₀, hfilter, Option.bind_some,
    Option.map_some]

/-- `float` reads a number back from its digits; the end of the line does not matter. -/
theorem float_toDigits (n : ℕ) :
    (float (Nat.toDigits 10 n ++ ['\n']) : Except Exception ℚ) = .ok n := by
  have hdigits : ∀ c ∈ Nat.toDigits 10 n, c.isDigit := fun c hc =>
    Nat.isDigit_of_mem_toDigits (by omega) (by omega) hc
  have hstrip : stripBy isSpace (Nat.toDigits 10 n ++ ['\n']) = Nat.toDigits 10 n :=
    stripBy_snoc rfl Nat.toDigits_ne_nil fun c hc => isSpace_of_isDigit (hdigits c hc)
  obtain ⟨hparse, hsign⟩ := parse_of_isDigit (fun c hc => .inl (hdigits c hc))
    fun c hc => hdigits c (List.mem_of_head? hc)
  unfold float Floating.parse instFloatingRat
  simp only [hstrip, hparse, hsign, decimal_of_isDigit hdigits Nat.toDigits_ne_nil,
    Nat.ofDigitChars_ten_toDigits]
  simp

/-- `float` on digits, a point and digits. -/
theorem float_point {a b : Str} (ha : ∀ c ∈ a, c.isDigit) (hb : ∀ c ∈ b, c.isDigit) (ha₀ : a ≠ [])
    (hb₀ : b ≠ []) : (float (a ++ '.' :: b) : Except Exception ℚ) =
      .ok ((Nat.ofDigitChars 10 a 0 : ℚ) + (Nat.ofDigitChars 10 b 0 : ℚ) / 10 ^ b.length) := by
  have hall : ∀ c ∈ a ++ '.' :: b, c.isDigit ∨ c = '.' := by
    intro c hc
    rcases List.mem_append.1 hc with hc | hc
    · exact .inl (ha c hc)
    · rcases List.mem_cons.1 hc with rfl | hc
      · exact .inr rfl
      · exact .inl (hb c hc)
  have hhead : ∀ c ∈ (a ++ '.' :: b).head?, c.isDigit := by
    obtain ⟨c, cs, rfl⟩ := List.exists_cons_of_ne_nil ha₀
    rintro d hd
    cases hd
    exact ha c (by simp)
  have hspace : ∀ c ∈ a ++ '.' :: b, isSpace c = false := by
    intro c hc
    rcases hall c hc with hd | rfl
    · exact isSpace_of_isDigit hd
    · rfl
  have hstrip : stripBy isSpace (a ++ '.' :: b) = a ++ '.' :: b :=
    stripBy_eq_self (fun c hc => hspace c (List.mem_of_head? hc))
      (fun c hc => hspace c (List.mem_of_getLast? hc))
  obtain ⟨hparse, hsign⟩ := parse_of_isDigit hall hhead
  unfold float Floating.parse instFloatingRat
  simp only [hstrip, hparse, hsign, decimal_point ha hb ha₀ hb₀]
  simp

end Digits

end Python
