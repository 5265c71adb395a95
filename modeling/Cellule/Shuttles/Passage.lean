import Cellule.Lib.Relay
import Cellule.Shuttles.Conservation

/-! # Where one scan takes the shuttles

A scan is a pass over the 34 queues in the order of their sensors: at a falling edge, the queue
hands its first shuttle on to the section on the side where the switch stands. The edges all come
from one image, but the queues change while it is processed.
-/

namespace Shuttles

open Relay

/-! ## The scan as a pass -/

/-- What `maj` answers when the queue is not empty. -/
def FileAttente.suite (f : FileAttente) (dd dg : Bool) : ℤ :=
  if f.idAiguillage = 0 then f.successeurDroite
  else if dd then f.successeurDroite
  else if dg then f.successeurGauche
  else -1

/-- The section that follows on the side where the switch stands, whatever the queue holds. -/
def FileAttente.cote (f : FileAttente) (c : Capteurs) : ℤ :=
  f.suite (c.getDD f.idAiguillage) (c.getDG f.idAiguillage)

/-- What a falling edge does with the shuttle at the head of a queue. -/
def FileAttente.issue (f : FileAttente) (c : Capteurs) : Exit ℕ :=
  if f.cote c > 0 then .next (f.cote c).toNat else if f.cote c = -1 then .drop else .keep

theorem FileAttente.maj_of_cons {f : FileAttente} (h : f.queue ≠ []) (c : Capteurs) :
    f.maj (c.getDD f.idAiguillage) (c.getDG f.idAiguillage) = f.cote c := if_pos h

/-- The shuttles that stand in a section. -/
def files (l : List (Option FileAttente)) (i : ℕ) : List ℤ := l[i]?.join.elim [] FileAttente.queue

/-- A section without its shuttles. -/
def troncon (l : List (Option FileAttente)) (i : ℕ) : Option FileAttente :=
  l[i]?.join.map fun f => { f with queue := [] }

/-- A falling edge of a sensor, from one reading of the sensors to the next. -/
def Descend (mem etat : List Bool) (i : ℕ) : Prop := niveau etat i = .ok false ∧ niveau mem i = .ok true

instance (mem etat : List Bool) (i : ℕ) : Decidable (Descend mem etat i) := instDecidableAnd

/-- What the processing of a sensor does with the shuttle at the head of its queue. -/
def sortie (l : List (Option FileAttente)) (mem : List Bool) (c : Capteurs) (i : ℕ) : Exit ℕ :=
  if Descend mem (lireCapteurs c) i then (troncon l i).elim .keep fun f => f.issue c else .keep

variable {l l' : List (Option FileAttente)} {i j : ℕ} {f g : FileAttente} {c : Capteurs}

theorem files_of_getElem? (h : l[i]? = some (some f)) : files l i = f.queue := by
  unfold files
  rw [h]
  rfl

theorem troncon_of_getElem? (h : l[i]? = some (some f)) :
    troncon l i = some { f with queue := [] } := by
  unfold troncon
  rw [h]
  rfl

/-- Reading the queues after one is written. -/
theorem files_set (h : i < l.length) :
    files (l.set i (some f)) = Function.update (files l) i f.queue := by
  funext k
  by_cases hk : k = i
  · subst hk
    rw [Function.update_self, files_of_getElem? (List.getElem?_set_self h)]
  · rw [Function.update_of_ne hk]
    unfold files
    rw [List.getElem?_set_ne (Ne.symm hk)]

/-- Writing a queue keeps the sections. -/
theorem troncon_set (h : l[i]? = some (some f))
    (hg : { g with queue := [] } = { f with queue := [] }) :
    troncon (l.set i (some g)) = troncon l := by
  have hlt := (List.getElem?_eq_some_iff.1 h).1
  funext k
  by_cases hk : k = i
  · subst hk
    rw [troncon_of_getElem? (List.getElem?_set_self hlt), troncon_of_getElem? h, hg]
  · unfold troncon
    rw [List.getElem?_set_ne (Ne.symm hk)]

/-- Dropping the head of a queue. -/
theorem retirerNavette_files (hf : l[i]? = some (some f)) {navette : ℤ} {reste : List ℤ}
    (hq : f.queue = navette :: reste) :
    ∃ l', retirerNavette l i = .ok l' ∧ files l' = Function.update (files l) i reste ∧
      troncon l' = troncon l :=
  ⟨_, retirerNavette_of_cons hf hq, files_set (List.getElem?_eq_some_iff.1 hf).1, troncon_set hf rfl⟩

/-- Handing the head of a queue on. -/
theorem deplacerNavette_files (hf : l[i]? = some (some f)) (hg : l[j]? = some (some g)) {navette : ℤ}
    {reste : List ℤ} (hq : f.queue = navette :: reste) :
    ∃ l', deplacerNavette l i j = .ok l' ∧ files l' =
        Function.update (Function.update (files l) j (files l j ++ [navette])) i
          (Function.update (files l) j (files l j ++ [navette]) i).tail ∧
      troncon l' = troncon l := by
  have hajout : files (l.set j (some (g.addNavetteInQueue navette))) =
      Function.update (files l) j (files l j ++ [navette]) := by
    rw [files_set (List.getElem?_eq_some_iff.1 hg).1, files_of_getElem? hg]
    rfl
  obtain ⟨f₁, reste₁, hf₁, hq₁, -, hpas⟩ := deplacerNavette_of_cons hf hg hq
  obtain ⟨l', hl', hfiles, htroncon⟩ := retirerNavette_files hf₁ hq₁
  refine ⟨l', hpas.trans hl', ?_, ?_⟩
  · have htete := files_of_getElem? hf₁
    rw [hajout, hq₁] at htete
    rw [hfiles, hajout, htete]
    rfl
  · rw [htroncon]
    exact troncon_set hg rfl

/-! ## One edge -/

section

variable {nbNavette : ℕ} {s s' : ShuttleManager} {mem : List Bool}

/-- What the processing of a sensor does: nothing without a falling edge or without a shuttle, else
what the side of the switch says. -/
theorem traiterCapteur_cases (hs : Invariant nbNavette s) (hmem : mem.length = 35) (hi1 : 1 ≤ i)
    (hi34 : i ≤ 34) (h : traiterCapteur c mem (lireCapteurs c) s i = .ok s') :
    (¬Descend mem (lireCapteurs c) i ∧ s' = s) ∨
    ∃ f, s.listeFile[i]? = some (some f) ∧ Descend mem (lireCapteurs c) i ∧
      ((f.queue = [] ∧ s' = s) ∨ ∃ navette reste, f.queue = navette :: reste ∧
        ((f.cote c > 0 ∧ s'.erreurs = s.erreurs ∧
            deplacerNavette s.listeFile i (f.cote c).toNat = .ok s'.listeFile) ∨
          (f.cote c = -1 ∧ s'.erreurs = s.erreurs ++ [⟨4, i⟩] ∧
            retirerNavette s.listeFile i = .ok s'.listeFile) ∨
          (f.issue c = .keep ∧ s' = s))) := by
  obtain ⟨present, hpresent⟩ := niveau_of_lt (v := lireCapteurs c) (i := i) (by simp; omega)
  obtain ⟨avant, havant⟩ := niveau_of_lt (v := mem) (i := i) (by omega)
  obtain ⟨f, hf, hv⟩ := hs.forme.file i hi1 hi34
  have hdescend : Descend mem (lireCapteurs c) i ↔ present = false ∧ avant = true := by
    unfold Descend
    rw [hpresent, havant]
    simp
  simp only [traiterCapteur, testerFront, brancheDescendante, hpresent, havant, bind, Except.bind] at h
  rw [hdescend]
  by_cases hfront : present = false ∧ avant = true
  · rw [if_pos hfront] at h
    simp only [fileDe_of_getElem? hf] at h
    refine .inr ⟨f, hf, hfront, ?_⟩
    cases hq : f.queue with
    | nil =>
      rw [FileAttente.maj_of_queue_nil hq] at h
      rw [if_neg (lt_irrefl 0), if_neg (by decide)] at h
      cases h
      exact .inl ⟨rfl, rfl⟩
    | cons navette reste =>
      rw [FileAttente.maj_of_cons (by simp [hq])] at h
      refine .inr ⟨navette, reste, rfl, ?_⟩
      split_ifs at h with hpos hneg
      · cases hl : deplacerNavette s.listeFile i (f.cote c).toNat with
        | error e =>
          rw [hl] at h
          cases h
        | ok l =>
          rw [hl] at h
          cases h
          exact .inl ⟨hpos, rfl, rfl⟩
      · cases hl : retirerNavette s.listeFile i with
        | error e =>
          rw [hl] at h
          cases h
        | ok l =>
          rw [hl] at h
          cases h
          exact .inr (.inl ⟨hneg, rfl, rfl⟩)
      · cases h
        refine .inr (.inr ⟨?_, rfl⟩)
        unfold FileAttente.issue
        rw [if_neg hpos, if_neg hneg]
  · rw [if_neg hfront] at h
    cases h
    exact .inl ⟨hfront, rfl⟩

/-- The answers of `maj` on a queue of the table. -/
theorem Forme.cote_range (hl : Forme l) (hi1 : 1 ≤ i) (hi34 : i ≤ 34) (hf : l[i]? = some (some f)) :
    -1 ≤ f.cote c ∧ f.cote c ≤ 34 := by
  obtain ⟨f', hf', ⟨⟨hd0, hd⟩, hg0, hg⟩⟩ := hl.file i hi1 hi34
  rw [hf] at hf'
  cases hf'
  unfold FileAttente.cote FileAttente.suite
  split_ifs <;> constructor <;> omega

/-- The section that follows has a queue. -/
theorem Forme.suivante (hl : Forme l) (hi1 : 1 ≤ i) (hi34 : i ≤ 34) (hf : l[i]? = some (some f))
    (hpos : f.cote c > 0) : ∃ g, l[(f.cote c).toNat]? = some (some g) := by
  obtain ⟨-, hle⟩ := hl.cote_range (c := c) hi1 hi34 hf
  obtain ⟨g, hg, -⟩ := hl.file (f.cote c).toNat (by omega) (by omega)
  exact ⟨g, hg⟩

/-- The processing of a sensor is the visit of its queue. -/
theorem traiterCapteur_visite (hs : Invariant nbNavette s) (hmem : mem.length = 35) (hi1 : 1 ≤ i)
    (hi34 : i ≤ 34) (h : traiterCapteur c mem (lireCapteurs c) s i = .ok s') :
    files s'.listeFile = visit (sortie s.listeFile mem c) (files s.listeFile) i ∧
      troncon s'.listeFile = troncon s.listeFile := by
  rcases traiterCapteur_cases hs hmem hi1 hi34 h with ⟨hfront, rfl⟩ | ⟨f, hf, hfront, hcas⟩
  · have hkeep : sortie s'.listeFile mem c i = .keep := if_neg hfront
    rw [visit_of_keep hkeep]
    exact ⟨rfl, rfl⟩
  · have hsortie : sortie s.listeFile mem c i = f.issue c := by
      unfold sortie
      rw [if_pos hfront, troncon_of_getElem? hf]
      rfl
    have hfile := files_of_getElem? hf
    rcases hcas with ⟨hq, rfl⟩ | ⟨navette, reste, hq, hcas⟩
    · rw [visit_of_nil (hfile.trans hq)]
      exact ⟨rfl, rfl⟩
    · rw [hq] at hfile
      unfold FileAttente.issue at hsortie
      rcases hcas with ⟨hpos, -, hl⟩ | ⟨hneg, -, hl⟩ | ⟨hkeep, rfl⟩
      · rw [if_pos hpos] at hsortie
        obtain ⟨g, hg⟩ := hs.forme.suivante hi1 hi34 hf hpos
        obtain ⟨l', hl', hfiles, htroncon⟩ := deplacerNavette_files hf hg hq
        rw [hl] at hl'
        cases hl'
        rw [visit_of_next hfile hsortie]
        exact ⟨hfiles, htroncon⟩
      · rw [if_neg (by omega), if_pos hneg] at hsortie
        obtain ⟨l', hl', hfiles, htroncon⟩ := retirerNavette_files hf hq
        rw [hl] at hl'
        cases hl'
        rw [visit_of_drop hfile hsortie]
        exact ⟨hfiles, htroncon⟩
      · unfold FileAttente.issue at hkeep
        rw [hkeep] at hsortie
        rw [visit_of_keep hsortie]
        exact ⟨rfl, rfl⟩

/-- The processing of some sensors is a pass over their queues, with what the sections were at its
start. -/
theorem foldlM_traiterCapteur_pass (hs : Invariant nbNavette s) (hmem : mem.length = 35) {is : List ℕ}
    (his : ∀ i ∈ is, 1 ≤ i ∧ i ≤ 34)
    (h : is.foldlM (traiterCapteur c mem (lireCapteurs c)) s = .ok s') :
    Invariant nbNavette s' ∧
      files s'.listeFile = pass (sortie s.listeFile mem c) (files s.listeFile) is ∧
      troncon s'.listeFile = troncon s.listeFile := by
  induction is generalizing s with
  | nil =>
    cases h
    exact ⟨hs, rfl, rfl⟩
  | cons i is ih =>
    obtain ⟨⟨hi1, hi34⟩, his⟩ := List.forall_mem_cons.1 his
    obtain ⟨s₁, h₁, hs₁⟩ := traiterCapteur_spec hs c hmem (length_lireCapteurs c) hi1 hi34
    rw [List.foldlM_cons, h₁] at h
    obtain ⟨hfiles₁, htroncon₁⟩ := traiterCapteur_visite hs hmem hi1 hi34 h₁
    obtain ⟨hs', hfiles, htroncon⟩ := ih hs₁ his h
    have hsortie : sortie s₁.listeFile mem c = sortie s.listeFile mem c := by
      funext k
      unfold sortie
      rw [htroncon₁]
    refine ⟨hs', ?_, htroncon.trans htroncon₁⟩
    rw [hfiles, hsortie, hfiles₁]
    rfl

/-- The sensors in the order of the edge loop. -/
def capteurs : List ℕ := List.range' 1 34

theorem mem_capteurs {i : ℕ} : i ∈ capteurs ↔ 1 ≤ i ∧ i ≤ 34 := by
  unfold capteurs
  rw [List.mem_range'_1]
  omega

theorem capteurs_croissants : capteurs.Pairwise (· < ·) := List.pairwise_lt_range'

/-- What a scan does with the shuttle at the head of each queue. -/
def ShuttleManager.sortie (s : ShuttleManager) (c : Capteurs) : ℕ → Exit ℕ :=
  Shuttles.sortie s.listeFile s.etatCapteur c

/-- A scan is a pass over the queues. -/
theorem scan_pass (hs : Invariant nbNavette s) (h : scan s c = .ok s') :
    files s'.listeFile = pass (s.sortie c) (files s.listeFile) capteurs ∧
      troncon s'.listeFile = troncon s.listeFile := by
  unfold scan at h
  dsimp only at h
  cases hl : (List.range' 1 34).foldlM (traiterCapteur c s.etatCapteur (lireCapteurs c)) s with
  | error e =>
    rw [hl] at h
    cases h
  | ok s₁ =>
    rw [hl] at h
    cases h
    exact (foldlM_traiterCapteur_pass hs hs.capteurs (fun i hi => mem_capteurs.1 hi) hl).2

end

/-! ## One hop -/

/-- No shuttle that enters an empty section during the scan is handed on by that section: the sensor
of the section does not fall with the one before it, or the section is not empty. -/
def SansRelais (s : ShuttleManager) (c : Capteurs) : Prop :=
  ∀ i j, 1 ≤ i → i < j → j ≤ 34 → files s.listeFile i ≠ [] → s.sortie c i = .next j →
    (∃ k, s.sortie c j = .next k) → files s.listeFile j ≠ []

/-- Each shuttle is where it was, or in the section that follows by the image, or in none. -/
def UnSaut (s : ShuttleManager) (c : Capteurs) (s' : ShuttleManager) : Prop :=
  ∀ (i : ℕ) (f : FileAttente) (id : ℤ), s.listeFile[i]? = some (some f) → id ∈ f.queue →
    ∀ (j : ℕ) (g : FileAttente), s'.listeFile[j]? = some (some g) → id ∈ g.queue →
      j = i ∨ (j : ℤ) = f.maj (c.getDD f.idAiguillage) (c.getDG f.idAiguillage)

/-- A section that holds shuttles is in the table. -/
theorem getElem?_of_mem_files {id : ℤ} (h : id ∈ files l i) :
    ∃ f, l[i]? = some (some f) ∧ f.queue = files l i := by
  unfold files at h ⊢
  cases hl : l[i]? with
  | none => simp [hl] at h
  | some o =>
    cases o with
    | none => simp [hl] at h
    | some f => exact ⟨f, rfl, rfl⟩

/-- No shuttle stands in two places. -/
theorem Invariant.nodup {nbNavette : ℕ} {s : ShuttleManager} (hs : Invariant nbNavette s) :
    (navettes s.listeFile).Nodup := by
  obtain ⟨perdues, hperm, -⟩ := hs.compte
  exact (List.nodup_append.1 (hperm.nodup_iff.2 (nodup_chargees nbNavette))).1

/-- A shuttle stands in one section only. -/
theorem section_unique (hl : (navettes l).Nodup) {id : ℤ} (hi : id ∈ files l i) (hj : id ∈ files l j) :
    i = j := by
  obtain ⟨f, hf, hfq⟩ := getElem?_of_mem_files hi
  obtain ⟨g, hg, hgq⟩ := getElem?_of_mem_files hj
  obtain ⟨-, hdisjoint⟩ := List.nodup_flatMap.1 hl
  have hautre : ∀ {i j : ℕ} {f g : FileAttente}, i < j → l[i]? = some (some f) →
      l[j]? = some (some g) → id ∈ f.queue → id ∈ g.queue → False := by
    intro i j f g hij hf hg hif hig
    obtain ⟨hi, hf⟩ := List.getElem?_eq_some_iff.1 hf
    obtain ⟨hj, hg⟩ := List.getElem?_eq_some_iff.1 hg
    have hpaire := List.pairwise_iff_getElem.1 hdisjoint i j hi hj hij
    rw [Function.onFun, hf, hg] at hpaire
    exact hpaire hif hig
  rcases lt_trichotomy i j with hij | hij | hij
  · exact (hautre hij hf hg (hfq ▸ hi) (hgq ▸ hj)).elim
  · exact hij
  · exact (hautre hij hg hf (hgq ▸ hj) (hfq ▸ hi)).elim

/-- The section that the visit of a queue hands on to is the one that `maj` answers. -/
theorem maj_of_sortie {s : ShuttleManager} (hf : s.listeFile[i]? = some (some f)) (hq : f.queue ≠ [])
    (h : s.sortie c i = .next j) :
    (j : ℤ) = f.maj (c.getDD f.idAiguillage) (c.getDG f.idAiguillage) := by
  unfold ShuttleManager.sortie Shuttles.sortie at h
  split_ifs at h
  rw [troncon_of_getElem? hf, Option.elim_some] at h
  rw [FileAttente.maj_of_cons hq]
  unfold FileAttente.issue at h
  split_ifs at h with hpos
  have hcote : FileAttente.cote { f with queue := [] } c = f.cote c := rfl
  rw [hcote] at h hpos
  rw [← Exit.next.inj h]
  omega

/-- **One hop per scan**, after any run: when no empty section hands a shuttle on that it receives
in the same scan, each shuttle is where it was, or in the section that follows by the image, or in
none. -/
theorem un_saut_par_scan {nbNavette : ℕ} {images : List Capteurs} {s s' : ShuttleManager}
    (hs : executer nbNavette images = .ok s) (hscan : scan s c = .ok s') (hrelais : SansRelais s c) :
    UnSaut s c s' := by
  obtain ⟨s₁, hs₁, hinv⟩ := executer_spec nbNavette images
  cases hs.symm.trans hs₁
  intro i f id hf hid j g hg hjd
  have hpass := (scan_pass hinv hscan).1
  have hidi : id ∈ files s.listeFile i := by rwa [files_of_getElem? hf]
  have hidj : id ∈ files s'.listeFile j := by rwa [files_of_getElem? hg]
  rw [hpass] at hidj
  have hplein : ∀ p ∈ capteurs, ∀ q ∈ capteurs, p < q → files s.listeFile p ≠ [] →
      s.sortie c p = .next q → (∃ r, s.sortie c q = .next r) → files s.listeFile q ≠ [] :=
    fun p hp q hq hpq => hrelais p q (mem_capteurs.1 hp).1 hpq (mem_capteurs.1 hq).2
  rcases mem_pass capteurs_croissants hplein hidj with hidj | ⟨k, -, hidk, hk⟩
  · exact .inl (section_unique hinv.nodup hidj hidi)
  · obtain rfl := section_unique hinv.nodup hidk hidi
    exact .inr (maj_of_sortie hf (List.ne_nil_of_mem hid) hk)

/-- An image from the stop sensors that are on, and the switches to the right and to the left. -/
def image (ps dd dg : List ℕ) : Capteurs :=
  { Capteurs.initial with PSx := fun i => i ∈ ps, DxD := fun i => i ∈ dd, DxG := fun i => i ∈ dg }

/-- The shuttle of section 3 goes on to section 5. -/
theorem un_saut_capteur3 : ∃ s s', executer 1 [image [3] [] []] = .ok s ∧
    scan s (image [] [] []) = .ok s' ∧ UnSaut s (image [] [] []) s' := by
  refine ⟨_, _, rfl, rfl, un_saut_par_scan (rfl : executer 1 [image [3] [] []] = .ok _) rfl ?_⟩
  intro i j hi hij hj hfile hsortie ⟨k, hk⟩
  have hvides : ∀ i ∈ capteurs, i ≠ 3 → files (initial 1).listeFile i = [] := by decide
  have hi3 : i = 3 := by
    by_contra hne
    exact hfile (hvides i (mem_capteurs.2 ⟨hi, by omega⟩) hne)
  subst hi3
  have hj5 : Exit.next j = .next 5 := hsortie.symm.trans rfl
  cases hj5
  cases hk

/-- The sensors 3 and 5 fall in the same image while section 5 is empty: the shuttle of section 3
goes through section 5 to section 6. -/
theorem deux_sauts : ∃ s s', executer 1 [image [3, 5] [] []] = .ok s ∧
    scan s (image [] [2] []) = .ok s' ∧ ¬UnSaut s (image [] [2] []) s' := by
  refine ⟨_, _, rfl, rfl, fun h => ?_⟩
  have hsaut := h 3 _ 0 rfl (by decide) 6 _ rfl (by decide)
  revert hsaut
  decide

/-! ## A shuttle that passes a sensor -/

/-- The switch at the end of a section stands on a side where the section has no successor. -/
def SansIssue (i : ℕ) (dd dg : Bool) : Prop :=
  (i ∈ [4, 11, 16, 23] ∧ dd = true) ∨ (i ∈ [5, 7, 12, 17, 19, 24] ∧ dd = false ∧ dg = true)

instance (i : ℕ) (dd dg : Bool) : Decidable (SansIssue i dd dg) := instDecidableOr

/-- The sections are the same whatever shuttles are loaded. -/
theorem troncon_listeFileInitiale (q : QueuesInitiales) :
    troncon (listeFileInitiale q) = troncon (listeFileInitiale ⟨[], [], []⟩) := by
  have hvider : ∀ (l : List (Option FileAttente)) (i : ℕ),
      troncon l i = (l.map (Option.map fun f => { f with queue := [] }))[i]?.join := by
    intro l i
    unfold troncon
    rw [List.getElem?_map]
    cases l[i]? <;> rfl
  funext i
  rw [hvider, hvider]
  rfl

/-- The sections are the same after any run. -/
theorem troncon_executer {nbNavette : ℕ} {images : List Capteurs} {s : ShuttleManager}
    (hs : executer nbNavette images = .ok s) :
    troncon s.listeFile = troncon (listeFileInitiale ⟨[], [], []⟩) := by
  induction images using List.reverseRecOn generalizing s with
  | nil =>
    cases hs
    exact troncon_listeFileInitiale _
  | append_singleton images c ih =>
    obtain ⟨s₁, hs₁, hinv⟩ := executer_spec nbNavette images
    have hscan : scan s₁ c = .ok s := by
      rw [executer] at hs hs₁
      rw [List.foldlM_append, hs₁] at hs
      cases hc : scan s₁ c with
      | error e => simp [bind, Except.bind, hc] at hs
      | ok s₂ => simpa [bind, Except.bind, pure, Except.pure, hc] using hs
    rw [← ih hs₁]
    exact (scan_pass hinv hscan).2

/-- What the table says of each section: it does not follow itself, and it has no successor on a
side exactly when it is one of those listed. -/
theorem suite_troncon : ∀ i ∈ capteurs, ∀ dd dg : Bool,
    ∀ f ∈ troncon (listeFileInitiale ⟨[], [], []⟩) i,
    f.suite dd dg ≠ i ∧ (f.suite dd dg = 0 ↔ SansIssue i dd dg) := by decide

/-- The shuttle at the head of queue `i` goes to the tail of the queue that `maj` answers. -/
def Avance (s s' : ShuttleManager) (c : Capteurs) (i : ℕ) (f : FileAttente) (navette : ℤ)
    (reste : List ℤ) : Prop :=
  ∃ j, j ≠ i ∧ (j : ℤ) = f.maj (c.getDD f.idAiguillage) (c.getDG f.idAiguillage) ∧
    s'.erreurs = s.erreurs ∧
    files s'.listeFile =
      Function.update (Function.update (files s.listeFile) j (files s.listeFile j ++ [navette])) i reste

/-- The shuttle at the head of queue `i` is dropped and its loss is published. -/
def Retiree (s s' : ShuttleManager) (i : ℕ) (reste : List ℤ) : Prop :=
  s'.erreurs = s.erreurs ++ [⟨4, i⟩] ∧
    files s'.listeFile = Function.update (files s.listeFile) i reste

/-- **A passing shuttle is moved or reported**, after any run and for any next image, exactly when
the switch does not stand on a side without a successor. -/
theorem navette_avance_iff {nbNavette : ℕ} {images : List Capteurs} {s sᵢ s' : ShuttleManager}
    (hs : executer nbNavette images = .ok s) (hi1 : 1 ≤ i) (hi34 : i ≤ 34)
    (havant : (List.range' 1 (i - 1)).foldlM (traiterCapteur c s.etatCapteur (lireCapteurs c)) s =
      .ok sᵢ)
    (hfront : Descend s.etatCapteur (lireCapteurs c) i) (hf : sᵢ.listeFile[i]? = some (some f))
    {navette : ℤ} {reste : List ℤ} (hq : f.queue = navette :: reste)
    (h : traiterCapteur c s.etatCapteur (lireCapteurs c) sᵢ i = .ok s') :
    (Avance sᵢ s' c i f navette reste ∨ Retiree sᵢ s' i reste) ↔
      ¬SansIssue i (c.getDD f.idAiguillage) (c.getDG f.idAiguillage) := by
  obtain ⟨s₁, hs₁, hinv⟩ := executer_spec nbNavette images
  cases hs.symm.trans hs₁
  obtain ⟨hinvᵢ, -, htroncon⟩ := foldlM_traiterCapteur_pass hinv hinv.capteurs
    (fun k hk => by rw [List.mem_range'_1] at hk; omega) havant
  have hsuite := suite_troncon i (mem_capteurs.2 ⟨hi1, hi34⟩) (c.getDD f.idAiguillage)
    (c.getDG f.idAiguillage) { f with queue := [] }
    (by rw [← troncon_executer hs, ← htroncon, troncon_of_getElem? hf]; rfl)
  obtain ⟨hautre, hissue⟩ : f.cote c ≠ i ∧ (f.cote c = 0 ↔ _) := hsuite
  have hmaj := FileAttente.maj_of_cons (by simp [hq] : f.queue ≠ []) c
  rw [← hissue]
  rcases traiterCapteur_cases hinvᵢ hinv.capteurs hi1 hi34 h with ⟨hnot, -⟩ | ⟨f', hf', -, hcas⟩
  · exact absurd hfront hnot
  · rw [hf] at hf'
    cases hf'
    rcases hcas with ⟨hnil, -⟩ | ⟨navette', reste', hq', hcas⟩
    · simp [hq] at hnil
    · rw [hq] at hq'
      cases hq'
      have hfile := files_of_getElem? hf
      rw [hq] at hfile
      rcases hcas with ⟨hpos, herreurs, hl⟩ | ⟨hneg, herreurs, hl⟩ | ⟨hkeep, rfl⟩
      · obtain ⟨g, hg⟩ := hinvᵢ.forme.suivante hi1 hi34 hf hpos
        obtain ⟨l', hl', hfiles, -⟩ := deplacerNavette_files hf hg hq
        rw [hl] at hl'
        cases hl'
        have hne : (f.cote c).toNat ≠ i := by omega
        refine iff_of_true (.inl ⟨_, hne, by omega, herreurs, ?_⟩) (by omega)
        rw [hfiles, Function.update_of_ne hne.symm, hfile]
        rfl
      · obtain ⟨l', hl', hfiles, -⟩ := retirerNavette_files hf hq
        rw [hl] at hl'
        cases hl'
        exact iff_of_true (.inr ⟨herreurs, hfiles⟩) (by omega)
      -- nothing is moved and nothing is published
      · refine iff_of_false ?_ (not_not.2 ?_)
        · rintro (⟨j, -, -, -, hfiles⟩ | ⟨herreurs, -⟩)
          · have hreste := congrFun hfiles i
            rw [Function.update_self, hfile] at hreste
            simp at hreste
          · simp at herreurs
        · have hrange := hinvᵢ.forme.cote_range (c := c) hi1 hi34 hf
          unfold FileAttente.issue at hkeep
          split_ifs at hkeep
          omega

/-- The shuttle of section 3 moves on when its sensor falls. -/
theorem navette_avance_capteur3 : ∃ s sᵢ s' f, executer 1 [image [3] [] []] = .ok s ∧
    (List.range' 1 2).foldlM (traiterCapteur (image [] [] []) s.etatCapteur
      (lireCapteurs (image [] [] []))) s = .ok sᵢ ∧
    traiterCapteur (image [] [] []) s.etatCapteur (lireCapteurs (image [] [] [])) sᵢ 3 = .ok s' ∧
    ((Avance sᵢ s' (image [] [] []) 3 f 0 [] ∨ Retiree sᵢ s' 3 []) ↔
      ¬SansIssue 3 ((image [] [] []).getDD f.idAiguillage)
        ((image [] [] []).getDG f.idAiguillage)) := by
  refine ⟨_, _, _, ⟨0, 5, 5, [0]⟩, rfl, rfl, rfl, ?_⟩
  exact navette_avance_iff (rfl : executer 1 [image [3] [] []] = .ok _) (by decide) (by decide)
    rfl (by decide) rfl rfl rfl

/-- The sensor 19 falls while the switch 10 stands to the left: the shuttle of section 19 stays at
the head of its queue, and nothing is published. -/
theorem navette_gardee : ∃ s sᵢ s' f, executer 2 [image [19] [] []] = .ok s ∧
    (List.range' 1 18).foldlM (traiterCapteur (image [] [] [10]) s.etatCapteur
      (lireCapteurs (image [] [] [10]))) s = .ok sᵢ ∧
    Descend s.etatCapteur (lireCapteurs (image [] [] [10])) 19 ∧
    sᵢ.listeFile[19]? = some (some f) ∧ f.queue = [1] ∧
    traiterCapteur (image [] [] [10]) s.etatCapteur (lireCapteurs (image [] [] [10])) sᵢ 19 = .ok s' ∧
    ¬(Avance sᵢ s' (image [] [] [10]) 19 f 1 [] ∨ Retiree sᵢ s' 19 []) := by
  refine ⟨_, _, _, _, rfl, rfl, by decide, rfl, rfl, rfl, ?_⟩
  rintro (⟨j, -, -, -, hfiles⟩ | ⟨herreurs, -⟩)
  · have hreste := congrFun hfiles 19
    rw [Function.update_self] at hreste
    revert hreste
    decide
  · revert herreurs
    decide

/-! ## The service and the stop sensor -/

/-- A shuttle leaves a section during a scan: it stands there or enters it before its edge is
processed. -/
def Quitte (s : ShuttleManager) (c : Capteurs) (i : ℕ) : Prop :=
  Leaves (s.sortie c) (files s.listeFile) capteurs i

open scoped Classical in
/-- A scan leaves a section empty: no shuttle stands there or enters, or only one that leaves in the
same scan. -/
def SeVide (s : ShuttleManager) (c : Capteurs) (n : ℕ) : Prop :=
  (files s.listeFile n).length + capteurs.countP (fun q => Quitte s c q ∧ s.sortie c q = .next n) =
    if Quitte s c n then 1 else 0

theorem seVide_iff {nbNavette : ℕ} {s s' : ShuttleManager} (hs : Invariant nbNavette s)
    (hscan : scan s c = .ok s') (n : ℕ) : files s'.listeFile n = [] ↔ SeVide s c n := by
  have hbilan : (pass (s.sortie c) (files s.listeFile) capteurs n).length + _ = _ :=
    length_pass capteurs_croissants n
  rw [← (scan_pass hs hscan).1] at hbilan
  rw [← List.length_eq_zero_iff]
  unfold SeVide Quitte
  omega

/-- The answer of the service, for a section of the table. -/
theorem shuttleAtPoste_eq {nbNavette : ℕ} {s : ShuttleManager} (hs : Invariant nbNavette s) {num n : ℕ}
    {robot position : ℤ} (hn : numCapteur num robot position = n) (hn1 : 1 ≤ n) (hn34 : n ≤ 34) :
    shuttleAtPoste s num robot position = .ok ((files s.listeFile n).headD 66) := by
  obtain ⟨f, hf, -⟩ := hs.forme.file n hn1 hn34
  unfold shuttleAtPoste
  rw [hn, fileDe_of_getElem? hf, files_of_getElem? hf]
  cases hq : f.queue with
  | nil => simp [bind, Except.bind, hq, pure, Except.pure]
  | cons navette reste => simp [bind, Except.bind, hq, FileAttente.getFirstNavette]

/-- **A shuttle is named only when the stop sensor is on**, after any scan of any run, exactly when
the sensor is on or the scan leaves the section before it empty. -/
theorem navette_presente_iff {nbNavette : ℕ} {images : List Capteurs} {s s' : ShuttleManager}
    (hs : executer nbNavette images = .ok s) (hscan : scan s c = .ok s') (num : ℕ) {robot position : ℤ}
    (hrobot : 1 ≤ robot ∧ robot ≤ 4) (hposition : position = 2 ∨ position = 3) :
    (∀ id, shuttleAtPoste s' num robot position = .ok id → id ≠ 66 →
        c.getPS (numCapteur num robot position) = true) ↔
      c.getPS (numCapteur num robot position) = true ∨ SeVide s c (numCapteur num robot position) := by
  obtain ⟨s₁, hs₁, hinv⟩ := executer_spec nbNavette images
  cases hs.symm.trans hs₁
  obtain ⟨s₂, hs₂, hinv'⟩ := scan_spec hinv c
  cases hscan.symm.trans hs₂
  obtain ⟨hn1, hn34⟩ : 1 ≤ numCapteur num robot position ∧ numCapteur num robot position ≤ 34 := by
    obtain ⟨h1, h4⟩ := hrobot
    rcases hposition with rfl | rfl <;> interval_cases robot <;> simp [numCapteur]
  generalize hn : numCapteur num robot position = n at hn1 hn34 ⊢
  rw [shuttleAtPoste_eq hinv' hn hn1 hn34, ← seVide_iff hinv hscan n]
  cases hq : files s'.listeFile n with
  | nil =>
    refine iff_of_true ?_ (.inr rfl)
    intro id hid hne
    exact absurd (Except.ok.inj hid).symm hne
  | cons navette reste =>
    -- no shuttle has the number that stands for none
    have hne : navette ≠ 66 := by
      have hstand : navette ∈ files s'.listeFile n := hq ▸ List.mem_cons_self
      obtain ⟨f, hf, hfq⟩ := getElem?_of_mem_files hstand
      have hmem := hinv'.bilan.2.1 navette (mem_navettes hf (hfq ▸ hstand))
      obtain ⟨k, hk, rfl⟩ := List.mem_map.1 hmem
      rw [List.mem_range] at hk
      omega
    simp only [List.headD_cons, Except.ok.injEq, reduceCtorEq, or_false]
    exact ⟨fun h => h navette rfl hne, fun h id _ _ => h⟩

/-- The shuttle of section 3 has arrived. -/
theorem navette_presente_capteur3 : ∃ s s', executer 1 [] = .ok s ∧ scan s (image [3] [] []) = .ok s' ∧
    ((∀ id, shuttleAtPoste s' 0 2 3 = .ok id → id ≠ 66 →
        (image [3] [] []).getPS (numCapteur 0 2 3) = true) ↔
      (image [3] [] []).getPS (numCapteur 0 2 3) = true ∨
        SeVide s (image [3] [] []) (numCapteur 0 2 3)) := by
  refine ⟨_, _, rfl, rfl, ?_⟩
  exact navette_presente_iff (rfl : executer 1 [] = .ok _) rfl 0 (by decide) (by decide)

/-- The shuttle of section 3 has not arrived, and the service names it. -/
theorem navette_nommee_absente : ∃ s s', executer 1 [] = .ok s ∧ scan s (image [] [] []) = .ok s' ∧
    shuttleAtPoste s' 0 2 3 = .ok 0 ∧ (image [] [] []).getPS (numCapteur 0 2 3) = false :=
  ⟨_, _, rfl, rfl, by decide, by decide⟩

end Shuttles
