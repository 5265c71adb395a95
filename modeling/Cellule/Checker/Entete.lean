import Cellule.Lib.Loop
import Cellule.Checker.Config

/-! # The header of the configuration

Before the product lines, `checker.py` reads the configuration file line by line up to the first one
that contains `Start`. At the end of the file `readline` gives the empty text, as often as it is
asked, so that a file without such a line keeps the script in the loop for ever.
-/

namespace Checker

open Python

/-- The line contains the keyword. -/
abbrev ContientStart (ligne : Str) : Prop := "Start".toList <:+: ligne

/-- `mon_config.readline()`, on the lines that are not read yet. -/
def readline : List Str → Str × List Str
  | [] => ([], [])
  | ligne :: lignes => (ligne, lignes)

/-- One turn of the loop `while(1)`. What it leaves behind is what `mon_config.readlines()`
gives. -/
def tourEntete (lignes : List Str) : Except Exception (List Str ⊕ List Str) :=
  let (contenu_ligne, lignes) := readline lignes
  if ContientStart contenu_ligne then .ok (.inr lignes) else .ok (.inl lignes)

/-- The loop ends, and the lines that follow the first one with the keyword are handed on. -/
def EnteteSautee (lignes : List Str) : Prop :=
  ∃ contenu, Loop.Ends tourEntete lignes contenu ∧ ∀ avant ligne apres,
    lignes = avant ++ ligne :: apres → (∀ l ∈ avant, ¬ContientStart l) → ContientStart ligne →
      contenu = apres

/-! ## The loop -/

variable {lignes contenu : List Str} {ligne : Str}

theorem not_contientStart_nil : ¬ContientStart [] := by decide

theorem tourEntete_nil : tourEntete [] = .ok (.inl []) := by
  rw [tourEntete, readline]
  exact if_neg not_contientStart_nil

/-- At the end of the file the loop turns for ever. -/
theorem not_ends_nil : ¬Loop.Ends tourEntete [] contenu := by
  refine Loop.not_ends (fun lignes => lignes = []) rfl ?_ ?_
  · rintro _ lignes rfl h
    rw [tourEntete_nil] at h
    exact (Sum.inl.inj (Except.ok.inj h)).symm
  · rintro _ contenu rfl h
    rw [tourEntete_nil] at h
    cases h

/-- The line with the keyword ends the loop. -/
theorem ends_cons_start (h : ContientStart ligne) :
    Loop.Ends tourEntete (ligne :: lignes) contenu ↔ lignes = contenu := by
  have htour : tourEntete (ligne :: lignes) = .ok (.inr lignes) := if_pos h
  constructor
  · exact fun hends => (Loop.Ends.leave htour).unique hends
  · rintro rfl
    exact .leave htour

/-- Another line is passed over. -/
theorem ends_cons_autre (h : ¬ContientStart ligne) :
    Loop.Ends tourEntete (ligne :: lignes) contenu ↔ Loop.Ends tourEntete lignes contenu := by
  have htour : tourEntete (ligne :: lignes) = .ok (.inl lignes) := if_neg h
  constructor
  · intro hends
    cases hends with
    | leave hleave => cases htour.symm.trans hleave
    | next hnext hends =>
      obtain rfl := Sum.inl.inj (Except.ok.inj (htour.symm.trans hnext))
      exact hends
  · exact .next htour

/-- The loop finds what `apresStart` says. -/
theorem ends_tourEntete_iff :
    Loop.Ends tourEntete lignes contenu ↔ apresStart lignes = some contenu := by
  induction lignes with
  | nil => exact iff_of_false not_ends_nil nofun
  | cons ligne lignes ih =>
    rw [apresStart]
    by_cases h : ContientStart ligne
    · rw [ends_cons_start h, if_pos h, Option.some_inj]
    · rw [ends_cons_autre h, if_neg h, ih]

/-! ## The lines that are handed on -/

theorem apresStart_eq_none (h : ∀ l ∈ lignes, ¬ContientStart l) : apresStart lignes = none := by
  induction lignes with
  | nil => rfl
  | cons ligne lignes ih =>
    rw [List.forall_mem_cons] at h
    rw [apresStart, if_neg h.1, ih h.2]

/-- The first line with the keyword decides, whatever the others contain. -/
theorem apresStart_append {avant apres : List Str} (havant : ∀ l ∈ avant, ¬ContientStart l)
    (hligne : ContientStart ligne) : apresStart (avant ++ ligne :: apres) = some apres := by
  induction avant with
  | nil => exact if_pos hligne
  | cons l avant ih =>
    rw [List.forall_mem_cons] at havant
    rw [List.cons_append, apresStart, if_neg havant.1, ih havant.2]

/-- A file with the keyword has a first line with it. -/
theorem exists_premiere (h : ∃ ligne ∈ lignes, ContientStart ligne) :
    ∃ avant ligne apres, lignes = avant ++ ligne :: apres ∧ (∀ l ∈ avant, ¬ContientStart l) ∧
      ContientStart ligne := by
  have hsome : (lignes.find? fun l => decide (ContientStart l)).isSome = true := by
    rw [List.find?_isSome]
    obtain ⟨ligne, hmem, hligne⟩ := h
    exact ⟨ligne, hmem, decide_eq_true hligne⟩
  obtain ⟨ligne, hfind⟩ := Option.isSome_iff_exists.1 hsome
  obtain ⟨hligne, avant, apres, heq, havant⟩ := List.find?_eq_some_iff_append.1 hfind
  refine ⟨avant, ligne, apres, heq, fun l hl => ?_, of_decide_eq_true hligne⟩
  have hl' := havant l hl
  rwa [Bool.not_eq_true', decide_eq_false_iff_not] at hl'

/-- **The header is passed over** exactly in the files that contain the keyword. -/
theorem entete_sautee_iff (lignes : List Str) :
    EnteteSautee lignes ↔ ∃ ligne ∈ lignes, ContientStart ligne := by
  constructor
  · rintro ⟨contenu, hends, -⟩
    by_contra! hsans
    rw [ends_tourEntete_iff, apresStart_eq_none hsans] at hends
    cases hends
  · intro h
    obtain ⟨avant, ligne, apres, rfl, havant, hligne⟩ := exists_premiere h
    refine ⟨apres, ends_tourEntete_iff.2 (apresStart_append havant hligne), ?_⟩
    intro avant' ligne' apres' heq havant' hligne'
    rw [← Option.some_inj, ← apresStart_append havant hligne, heq, apresStart_append havant' hligne']

/-- A configuration whose keyword is written without its capital. -/
def motCleMinuscule : List Str := ["start\n".toList, "2 : 1 4 : 4 5 : 1\n".toList]

/-- The loop over it does not end. -/
theorem entete_sans_fin : ¬∀ lignes, EnteteSautee lignes := by
  intro h
  obtain ⟨contenu, hends, -⟩ := h motCleMinuscule
  have hrien : apresStart motCleMinuscule = none := by decide
  rw [ends_tourEntete_iff, hrien] at hends
  cases hends

end Checker
