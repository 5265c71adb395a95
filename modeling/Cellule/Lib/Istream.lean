import Mathlib.Tactic

/-! # Formatted input

`std::istream` over a text that ends: the two flags of the stream, the words and the numbers that
`operator>>` extracts, `clear` and `ignore`. A stream whose flags are not clear extracts nothing and
leaves the variable as it was. The rules say what is extracted from a text that starts with blanks
and a word or a number, whatever comes after.
-/

namespace Istream

/-- The text that is left, and the flags. -/
structure Stream where
  input : List Char
  eof : Bool
  fail : Bool
  deriving DecidableEq

/-- `isspace` in the C locale. -/
def isSpace (c : Char) : Bool :=
  c == ' ' || c == '\t' || c == '\n' || c == '\x0b' || c == '\x0c' || c == '\r'

/-- Blanks only. -/
def Blank (text : List Char) : Prop := ∀ c ∈ text, isSpace c = true

instance (text : List Char) : Decidable (Blank text) :=
  List.decidableBAll (fun c => isSpace c = true) text

namespace Stream

/-- A stream with clear flags. -/
def ready (input : List Char) : Stream := { input, eof := false, fail := false }

/-- The sentry of a formatted input: the blanks are skipped, and something must be left. -/
def sentry (s : Stream) : Stream × Bool :=
  if s.eof || s.fail then ({ s with fail := true }, false)
  else
    let input := s.input.dropWhile isSpace
    if input.isEmpty then ({ input, eof := true, fail := true }, false) else ({ s with input }, true)

/-- A word, up to the next blank. -/
def extractWord (input : List Char) : Stream × List Char :=
  let rest := input.dropWhile fun c => !isSpace c
  ({ input := rest, eof := rest.isEmpty, fail := false }, input.takeWhile fun c => !isSpace c)

/-- `operator>>` of a string. -/
def readWord (s : Stream) (old : List Char) : Stream × List Char :=
  if s.sentry.2 then extractWord s.sentry.1.input else (s.sentry.1, old)

/-- Whether a number starts with a minus sign, and what follows its sign. -/
def signed : List Char → Bool × List Char
  | [] => (false, [])
  | c :: text => if c = '-' then (true, text) else if c = '+' then (false, text) else (false, c :: text)

/-- The value of a number, held between the bounds of an `int`, and whether it exceeds them. -/
def clamp (n : ℤ) : ℤ × Bool :=
  if n < -2 ^ 31 then (-2 ^ 31, true) else if n > 2 ^ 31 - 1 then (2 ^ 31 - 1, true) else (n, false)

/-- A number, up to the first character that is no digit. -/
def extractInt (input : List Char) : Stream × ℤ :=
  let r := signed input
  let digits := r.2.takeWhile Char.isDigit
  let rest := r.2.dropWhile Char.isDigit
  if digits.isEmpty then ({ input := rest, eof := rest.isEmpty, fail := true }, 0)
  else
    let n : ℤ := Nat.ofDigitChars 10 digits 0
    let v := clamp (if r.1 then -n else n)
    ({ input := rest, eof := rest.isEmpty, fail := v.2 }, v.1)

/-- `operator>>` of an `int`. -/
def readInt (s : Stream) (old : ℤ) : Stream × ℤ :=
  if s.sentry.2 then extractInt s.sentry.1.input else (s.sentry.1, old)

/-- `clear()`. -/
def clear (s : Stream) : Stream := { s with eof := false, fail := false }

/-- What is left once `n` characters, or those up to a delimiter, are discarded; and whether the end
of the text was met. -/
def discard (delim : Char) : ℕ → List Char → List Char × Bool
  | 0, text => (text, false)
  | _ + 1, [] => ([], true)
  | n + 1, c :: text => if c = delim then (text, false) else discard delim n text

/-- `ignore(n, delim)`. -/
def ignore (n : ℕ) (delim : Char) (s : Stream) : Stream :=
  if s.eof || s.fail then { s with fail := true }
  else
    let r := discard delim n s.input
    { s with input := r.1, eof := r.2 }

/-! ## What is extracted -/

/-- A stream from which `operator>>` has just extracted something. -/
def rest (input : List Char) : Stream := { input, eof := input.isEmpty, fail := false }

theorem rest_of_ne_nil {input : List Char} (h : input ≠ []) : rest input = ready input := by
  cases input with
  | nil => exact absurd rfl h
  | cons c input => rfl

end Stream

/-- A decimal number, with its sign. -/
inductive Numeral : List Char → ℤ → Prop
  | plain {digits : List Char} (hne : digits ≠ []) (h : ∀ c ∈ digits, c.isDigit = true) :
      Numeral digits (Nat.ofDigitChars 10 digits 0)
  | plus {digits : List Char} (hne : digits ≠ []) (h : ∀ c ∈ digits, c.isDigit = true) :
      Numeral ('+' :: digits) (Nat.ofDigitChars 10 digits 0)
  | minus {digits : List Char} (hne : digits ≠ []) (h : ∀ c ∈ digits, c.isDigit = true) :
      Numeral ('-' :: digits) (-Nat.ofDigitChars 10 digits 0)

theorem numeral_toDigits (n : ℕ) : Numeral (Nat.toDigits 10 n) n := by
  have h := Numeral.plain Nat.toDigits_ne_nil
    fun c hc => Nat.isDigit_of_mem_toDigits (b := 10) (n := n) (by omega) (by omega) hc
  rwa [Nat.ofDigitChars_ten_toDigits] at h

section

variable {ws word text after : List Char} {n : ℤ} {c : Char}

theorem isSpace_of_isDigit (h : c.isDigit = true) : isSpace c = false := by
  unfold isSpace
  simp only [Bool.or_eq_false_iff, beq_eq_false_iff_ne]
  refine ⟨⟨⟨⟨⟨?_, ?_⟩, ?_⟩, ?_⟩, ?_⟩, ?_⟩ <;> (rintro rfl; revert h; decide)

theorem not_isDigit_of_isSpace (h : isSpace c = true) : c.isDigit = false := by
  cases hc : c.isDigit with
  | false => rfl
  | true => exact absurd h (by rw [isSpace_of_isDigit hc]; exact Bool.false_ne_true)

/-- The head of a number is no blank. -/
theorem Numeral.head (h : Numeral text n) : ∃ c rest, text = c :: rest ∧ isSpace c = false := by
  cases h with
  | plain hne h =>
    obtain ⟨c, rest, rfl⟩ := List.exists_cons_of_ne_nil hne
    exact ⟨c, rest, rfl, isSpace_of_isDigit (h c List.mem_cons_self)⟩
  | plus => exact ⟨'+', _, rfl, rfl⟩
  | minus => exact ⟨'-', _, rfl, rfl⟩

/-- The prefix of a text that satisfies a test, when what follows does not. -/
theorem takeWhile_word (word after : List Char) {p : Char → Bool} (hword : ∀ c ∈ word, p c = true)
    (hafter : ∀ c ∈ after.head?, p c = false) :
    (word ++ after).takeWhile p = word ∧ (word ++ after).dropWhile p = after := by
  rw [List.takeWhile_append_of_pos hword, List.dropWhile_append_of_pos hword]
  cases after with
  | nil => exact ⟨List.append_nil _, rfl⟩
  | cons c after =>
    have hc := hafter c rfl
    rw [List.takeWhile_cons_of_neg (by simp [hc]), List.dropWhile_cons_of_neg (by simp [hc])]
    exact ⟨List.append_nil _, rfl⟩

namespace Stream

/-- The sentry skips the blanks. -/
theorem sentry_ready (hws : Blank ws) (hc : isSpace c = false) :
    (ready (ws ++ c :: text)).sentry = (ready (c :: text), true) := by
  have hdrop : (ws ++ c :: text).dropWhile isSpace = c :: text := by
    rw [List.dropWhile_append_of_pos hws, List.dropWhile_cons_of_neg (by simp [hc])]
  unfold sentry ready
  simp [hdrop]

/-- A text of blanks holds nothing to extract. -/
theorem sentry_blank {s : Stream} (h : Blank s.input) :
    s.sentry.2 = false ∧ s.sentry.1.fail = true ∧ Blank s.sentry.1.input := by
  unfold sentry
  split_ifs with hflags
  · exact ⟨rfl, rfl, h⟩
  · have hdrop : s.input.dropWhile isSpace = [] := by
      have hprefix := (takeWhile_word s.input [] h fun c hc => by cases hc).2
      rwa [List.append_nil] at hprefix
    simp [hdrop, Blank]

/-- A word is extracted up to the next blank. -/
theorem readWord_ready (hws : Blank ws) (hne : word ≠ []) (hword : ∀ c ∈ word, isSpace c = false)
    (hafter : ∀ c ∈ after.head?, isSpace c = true) (old : List Char) :
    (ready (ws ++ (word ++ after))).readWord old = (rest after, word) := by
  obtain ⟨c, word', rfl⟩ := List.exists_cons_of_ne_nil hne
  obtain ⟨htake, hdrop⟩ := takeWhile_word (c :: word') after (p := fun c => !isSpace c)
    (fun c hc => by rw [hword c hc]; rfl) fun c hc => by rw [hafter c hc]; rfl
  rw [readWord, List.cons_append, sentry_ready hws (hword c List.mem_cons_self), if_pos rfl]
  show extractWord (c :: word' ++ after) = _
  rw [extractWord, htake, hdrop]
  rfl

theorem readWord_blank {s : Stream} (h : Blank s.input) (old : List Char) :
    (s.readWord old).2 = old ∧ (s.readWord old).1.fail = true ∧ Blank (s.readWord old).1.input := by
  obtain ⟨hfalse, hfail, hblank⟩ := sentry_blank h
  rw [readWord, hfalse]
  exact ⟨rfl, hfail, hblank⟩

/-- A number is extracted up to the first character that is no digit, and held between the
bounds. -/
theorem readInt_ready (hws : Blank ws) (hnumeral : Numeral text n)
    (hafter : ∀ c ∈ after.head?, c.isDigit = false) (old : ℤ) :
    (ready (ws ++ (text ++ after))).readInt old =
      ({ rest after with fail := (clamp n).2 }, (clamp n).1) := by
  have hextract : ∀ (input digits : List Char) (negative : Bool), digits ≠ [] →
      (∀ c ∈ digits, c.isDigit = true) → signed input = (negative, digits ++ after) →
        extractInt input =
          ({ rest after with
              fail := (clamp (if negative then -(Nat.ofDigitChars 10 digits 0 : ℤ)
                else Nat.ofDigitChars 10 digits 0)).2 },
            (clamp (if negative then -(Nat.ofDigitChars 10 digits 0 : ℤ)
              else Nat.ofDigitChars 10 digits 0)).1) := by
    intro input digits negative hne h hsigned
    obtain ⟨htake, hdrop⟩ := takeWhile_word _ _ h hafter
    have hempty : digits.isEmpty = false := by simpa using hne
    rw [extractInt, hsigned]
    simp only [htake, hdrop, hempty]
    rfl
  obtain ⟨c, text', htext, hc⟩ := hnumeral.head
  have hsentry : (ready (ws ++ (text ++ after))).sentry = (ready (text ++ after), true) := by
    rw [htext, List.cons_append]
    exact sentry_ready hws hc
  rw [readInt, hsentry, if_pos rfl]
  show extractInt (text ++ after) = _
  cases hnumeral with
  | plain hne h =>
    refine hextract _ _ false hne h ?_
    have hdigit : c.isDigit = true := h c (htext ▸ List.mem_cons_self)
    rw [htext, List.cons_append, signed, if_neg, if_neg]
    · rintro rfl
      revert hdigit
      decide
    · rintro rfl
      revert hdigit
      decide
  | plus hne h => exact hextract _ _ false hne h rfl
  | minus hne h => exact hextract _ _ true hne h rfl

theorem readInt_blank {s : Stream} (h : Blank s.input) (old : ℤ) :
    (s.readInt old).2 = old ∧ (s.readInt old).1.fail = true ∧ Blank (s.readInt old).1.input := by
  obtain ⟨hfalse, hfail, hblank⟩ := sentry_blank h
  rw [readInt, hfalse]
  exact ⟨rfl, hfail, hblank⟩

/-- What does not start like a number is left where it is, and the variable is cleared. -/
theorem readInt_refused (hws : Blank ws) (hspace : isSpace c = false) (hdigit : c.isDigit = false)
    (hsign : c ≠ '+' ∧ c ≠ '-') (old : ℤ) :
    (ready (ws ++ c :: text)).readInt old = ({ ready (c :: text) with fail := true }, 0) := by
  rw [readInt, sentry_ready hws hspace, if_pos rfl]
  show extractInt (c :: text) = _
  simp [extractInt, ready, signed, hsign.1, hsign.2, hdigit]

/-- The rest of a line is discarded, and its end with it. -/
theorem ignore_line {k : ℕ} (hline : '\n' ∉ text) (hlength : text.length < k) :
    (ready (text ++ '\n' :: after)).ignore k '\n' = ready after := by
  have hdiscard : ∀ (text : List Char) (k : ℕ), '\n' ∉ text → text.length < k →
      discard '\n' k (text ++ '\n' :: after) = (after, false) := by
    intro text
    induction text with
    | nil =>
      intro k _ hk
      obtain ⟨k, rfl⟩ := Nat.exists_eq_succ_of_ne_zero hk.ne'
      rw [List.nil_append, discard, if_pos rfl]
    | cons c text ih =>
      intro k hline hk
      rw [List.mem_cons, not_or] at hline
      obtain ⟨k, rfl⟩ := Nat.exists_eq_succ_of_ne_zero (Nat.ne_of_gt (Nat.zero_lt_of_lt hk))
      rw [List.cons_append, discard, if_neg (Ne.symm hline.1)]
      exact ih k hline.2 (by simpa using hk)
  unfold ignore
  simp only [ready, Bool.or_self, Bool.false_eq_true, if_false, hdiscard text k hline hlength]

theorem ignore_blank {s : Stream} (h : Blank s.input) (k : ℕ) (delim : Char) :
    Blank (s.ignore k delim).input := by
  have hdiscard : ∀ (k : ℕ) (text : List Char), Blank text → Blank (discard delim k text).1 := by
    intro k
    induction k with
    | zero => exact fun _ h => h
    | succ k ih =>
      intro text h
      cases text with
      | nil => exact h
      | cons c text =>
        rw [discard]
        have htext : Blank text := fun c hc => h c (List.mem_cons_of_mem _ hc)
        split_ifs
        · exact htext
        · exact ih text htext
  unfold ignore
  split_ifs
  · exact h
  · exact hdiscard k s.input h

end Stream

end

end Istream
